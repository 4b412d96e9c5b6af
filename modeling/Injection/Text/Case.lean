import Injection.Text.CaseTable

/-!
# Lower and upper case

Full case conversion of texts, where one character may become several, next to the conversion of
ASCII letters alone. A capital sigma at the end of a word becomes a final sigma.
-/
namespace Injection.Text

def capitalSigma : Char := '\u03A3'

def smallSigma : Char := '\u03C3'

def finalSigma : Char := '\u03C2'

def lowerChar (c : Char) : List Char :=
  if c = '\u0130' then ['i', '\u0307']
  else
    match mapped? lowerRuns c.toNat with
    | some n => [Char.ofNat n]
    | none => [c]

def upperChar (c : Char) : List Char :=
  match upperExpansions.lookup c.toNat with
  | some ns => ns.map Char.ofNat
  | none =>
    match mapped? upperRuns c.toNat with
    | some n => [Char.ofNat n]
    | none => [c]

def isCased (c : Char) : Bool := inRanges casedRanges c.toNat

def isCaseIgnorable (c : Char) : Bool := inRanges caseIgnorableRanges c.toNat

/-- A cased letter comes next, after any characters that case rules ignore. -/
def meetsCased (cs : List Char) : Bool :=
  match cs.dropWhile isCaseIgnorable with
  | c :: _ => isCased c
  | [] => false

/-- Lower case of a text of which `before`, nearest character first, is already read. -/
def lowerAfter (before : List Char) : List Char → List Char
  | [] => []
  | c :: cs =>
    let here :=
      if c = capitalSigma then
        [if meetsCased before && !meetsCased cs then finalSigma else smallSigma]
      else lowerChar c
    here ++ lowerAfter (c :: before) cs

def lowercase (s : String) : String := String.ofList (lowerAfter [] s.toList)

def uppercase (s : String) : String := String.ofList (s.toList.flatMap upperChar)

/-- Lower case of the ASCII letters; every other character stays. -/
def asciiLower (s : String) : String := String.ofList (s.toList.map Char.toLower)

def eqIgnoringAsciiCase (a b : String) : Bool := asciiLower a == asciiLower b

end Injection.Text
