/-!
# Tokens of JSON texts

A text is cut into tokens up to its end or to the first place where no token can be read, which is
marked as junk.
-/
namespace Injection.Json

inductive Token where
  | listStart
  | listEnd
  | objectStart
  | objectEnd
  | colon
  | comma
  | null
  | bool (value : Bool)
  | number
  /-- A string; it has no content if it holds an unpaired surrogate. -/
  | text (content : Option String)
  | junk
  deriving DecidableEq, Repr

/-! ## Strings -/

/-- A part of a string: a character, or a UTF-16 code unit written as an escape. -/
inductive Piece where
  | char (c : Char)
  | unit (n : Nat)
  deriving DecidableEq, Repr

def hexDigit? (c : Char) : Option Nat :=
  if c.isDigit then some (c.toNat - '0'.toNat)
  else if 'a' ≤ c ∧ c ≤ 'f' then some (c.toNat - 'a'.toNat + 10)
  else if 'A' ≤ c ∧ c ≤ 'F' then some (c.toNat - 'A'.toNat + 10)
  else none

def hexNumber? (cs : List Char) : Option Nat :=
  cs.foldlM (fun n c => (hexDigit? c).map (16 * n + ·)) 0

def escaped? : Char → Option Char
  | '"' => some '"'
  | '\\' => some '\\'
  | '/' => some '/'
  | 'b' => some '\x08'
  | 'f' => some '\x0c'
  | 'n' => some '\n'
  | 'r' => some '\r'
  | 't' => some '\t'
  | _ => none

/-- The parts of a string up to its closing quote, and what follows the quote. -/
def readPieces : List Char → Option (List Piece × List Char)
  | [] => none
  | '"' :: cs => some ([], cs)
  | '\\' :: 'u' :: a :: b :: c :: d :: cs =>
    match hexNumber? [a, b, c, d], readPieces cs with
    | some n, some (ps, rest) => some (.unit n :: ps, rest)
    | _, _ => none
  | '\\' :: c :: cs =>
    match escaped? c, readPieces cs with
    | some e, some (ps, rest) => some (.char e :: ps, rest)
    | _, _ => none
  | c :: cs =>
    if c.toNat < 0x20 then none
    else
      match readPieces cs with
      | some (ps, rest) => some (.char c :: ps, rest)
      | none => none

theorem readPieces_length {cs rest : List Char} {ps : List Piece}
    (h : readPieces cs = some (ps, rest)) : rest.length < cs.length := by
  fun_induction readPieces cs generalizing ps with
  | case1 | case4 | case6 | case7 | case9 => simp at h
  | case2 => simp_all
  | case3 _ _ _ _ _ _ _ _ hr _ ih | case5 _ _ _ _ _ _ hr _ ih | case8 _ _ _ _ _ _ _ _ hr ih =>
    simp only [Option.some.injEq, Prod.mk.injEq] at h
    obtain ⟨rfl, rfl⟩ := h
    have := ih hr
    simp only [List.length_cons]
    omega

def isHighSurrogate (n : Nat) : Bool := decide (0xD800 ≤ n) && decide (n < 0xDC00)

def isLowSurrogate (n : Nat) : Bool := decide (0xDC00 ≤ n) && decide (n < 0xE000)

/-- The characters of a string, unless it holds an unpaired surrogate. -/
def joinPieces : List Piece → Option (List Char)
  | [] => some []
  | .char c :: ps => (joinPieces ps).map (c :: ·)
  | .unit n :: ps =>
    if isHighSurrogate n then
      match ps with
      | .unit m :: ps =>
        if isLowSurrogate m then
          let c := Char.ofNat (0x10000 + (n - 0xD800) * 0x400 + (m - 0xDC00))
          (joinPieces ps).map (c :: ·)
        else none
      | _ => none
    else if isLowSurrogate n then none
    else (joinPieces ps).map (Char.ofNat n :: ·)

/-! ## Numbers -/

def isNumberChar (c : Char) : Bool :=
  c.isDigit || c == '-' || c == '+' || c == '.' || c == 'e' || c == 'E'

def areDigits (cs : List Char) : Bool := !cs.isEmpty && cs.all Char.isDigit

def isExponent : List Char → Bool
  | [] => true
  | e :: cs =>
    (e == 'e' || e == 'E') &&
      match cs with
      | '+' :: cs | '-' :: cs => areDigits cs
      | cs => areDigits cs

def isFraction : List Char → Bool
  | '.' :: c :: cs => c.isDigit && isExponent (cs.dropWhile Char.isDigit)
  | cs => isExponent cs

def isUnsigned : List Char → Bool
  | [] => false
  | '0' :: cs => isFraction cs
  | c :: cs => c.isDigit && isFraction (cs.dropWhile Char.isDigit)

def isNumber : List Char → Bool
  | '-' :: cs => isUnsigned cs
  | cs => isUnsigned cs

/-! ## Tokens -/

def isGap (c : Char) : Bool := c == ' ' || c == '\n' || c == '\t' || c == '\r'

def punctuation : Char → Token
  | '[' => .listStart
  | ']' => .listEnd
  | '\x7b' => .objectStart
  | '\x7d' => .objectEnd
  | ':' => .colon
  | ',' => .comma
  | _ => .junk

def word (cs : List Char) : Token :=
  match String.ofList cs with
  | "null" => .null
  | "true" => .bool true
  | "false" => .bool false
  | _ => .junk

theorem length_dropWhile_lt (p : Char → Bool) (c : Char) (cs : List Char) :
    (cs.dropWhile p).length < (c :: cs).length :=
  Nat.lt_succ_of_le (List.dropWhile_sublist p).length_le

def tokens : List Char → List Token
  | [] => []
  | c :: cs =>
    if isGap c then tokens cs
    else if c = '"' then
      match h : readPieces cs with
      | some (ps, rest) =>
        have := readPieces_length h
        .text ((joinPieces ps).map String.ofList) :: tokens rest
      | none => [.junk]
    else if c.isDigit || c == '-' then
      have := length_dropWhile_lt isNumberChar c cs
      (if isNumber (c :: cs.takeWhile isNumberChar) then .number else .junk) ::
        tokens (cs.dropWhile isNumberChar)
    else if c.isAlpha then
      have := length_dropWhile_lt Char.isAlpha c cs
      word (c :: cs.takeWhile Char.isAlpha) :: tokens (cs.dropWhile Char.isAlpha)
    else punctuation c :: tokens cs
termination_by cs => cs.length
decreasing_by all_goals (simp only [List.length_cons] at *; omega)

end Injection.Json
