/-!
# Character classes, blanks and items

A character class is a list of closed ranges of code points in increasing order. Membership stops
at the first range that starts above the character. Blanks are the characters with the
`White_Space` property.

A list may be written in one text, which is cut at its separators; the items are the pieces that are
not blank, trimmed.
-/
namespace Injection.Text

def inRanges : List (Nat × Nat) → Nat → Bool
  | [], _ => false
  | (lo, hi) :: rest, n => if n < lo then false else decide (n ≤ hi) || inRanges rest n

def blankRanges : List (Nat × Nat) :=
  [(0x9, 0xD), (0x20, 0x20), (0x85, 0x85), (0xA0, 0xA0), (0x1680, 0x1680), (0x2000, 0x200A),
   (0x2028, 0x2029), (0x202F, 0x202F), (0x205F, 0x205F), (0x3000, 0x3000)]

def isBlank (c : Char) : Bool := inRanges blankRanges c.toNat

def trimChars (cs : List Char) : List Char :=
  ((cs.dropWhile isBlank).reverse.dropWhile isBlank).reverse

def trim (s : String) : String := String.ofList (trimChars s.toList)

def pieces (separates : Char → Bool) : List Char → List (List Char)
  | [] => [[]]
  | c :: cs =>
    if separates c then [] :: pieces separates cs
    else
      match pieces separates cs with
      | [] => [[c]]
      | p :: ps => (c :: p) :: ps

def items (separates : Char → Bool) (s : String) : List String :=
  ((pieces separates s.toList).map fun p => String.ofList (trimChars p)).filter (· ≠ "")

end Injection.Text
