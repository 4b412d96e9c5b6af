import Injection.Signature.Basic
import Injection.Text.Alphanumeric
import Injection.Text.Basic

/-!
# Reading signatures

A signature is a qualified name, optionally followed by type arguments between angle brackets, and
then by any number of `[]` (array) and `?` (nullable) marks. Blanks may stand between these parts.
A leading `global::` and every `?` are dropped. A name without arguments that is among the type
parameters in force denotes that parameter.

Every reading step returns the characters it left over with a proof that it used some up, so the
recursion needs no other bound.
-/
namespace Injection.Signature

open Injection.Text

/-- Why a text is not a signature. -/
inductive Flaw where
  /-- No type name where one must stand; the character found there, if any. -/
  | noName (found : Option Char)
  /-- A qualified name that is empty, starts with a dot, or ends with a dot or a colon. -/
  | incompleteName (raw : String)
  /-- Neither a comma nor a closing bracket after a type argument. -/
  | noSeparator (found : Char)
  | unterminatedArgs
  | unclosedArray
  /-- Text after the end of the signature, with its position. -/
  | trailing (found : Char) (position : Nat)
  deriving DecidableEq, Repr

def Flaw.message : Flaw → String
  | noName (some c) => s!"expected type name, found '{c}'"
  | noName none => "expected type name, found end of input"
  | incompleteName raw => s!"incomplete qualified name '{raw}'"
  | noSeparator c => s!"expected ',' or '>', found '{c}'"
  | unterminatedArgs => "unterminated type argument list"
  | unclosedArray => "expected ']' after '['"
  | trailing c position => s!"unexpected '{c}' at {position}"

/-- A text that is not a signature. -/
structure Malformed where
  text : String
  flaw : Flaw
  deriving DecidableEq, Repr

def Malformed.message (m : Malformed) : String :=
  s!"Malformed type signature '{m.text}': {m.flaw.message}"

/-- A value read from the front of `cs`, and what is left of `cs` after it. -/
structure Parsed (α : Type) (cs : List Char) where
  value : α
  rest : List Char
  shorter : rest.length < cs.length

def skipBlanks (cs : List Char) : List Char := cs.dropWhile isBlank

theorem length_dropWhile_le (p : Char → Bool) (cs : List Char) :
    (cs.dropWhile p).length ≤ cs.length :=
  (List.dropWhile_sublist p).length_le

def isNameChar (c : Char) : Bool := isAlphanumeric c || c == '_' || c == '.' || c == ':'

/-- Removes every leading `global::`. -/
def stripGlobal : List Char → List Char
  | 'g' :: 'l' :: 'o' :: 'b' :: 'a' :: 'l' :: ':' :: ':' :: cs => stripGlobal cs
  | cs => cs

/-- A name that is complete once its leading `global::` are removed. -/
def isCompleteName (name : List Char) : Bool :=
  match name with
  | [] => false
  | c :: _ => c != '.' && name.getLast? != some '.' && name.getLast? != some ':'

def readName (cs : List Char) : Except Flaw (Parsed String cs) :=
  match h : skipBlanks cs with
  | [] => .error (.noName none)
  | c :: rest =>
    if isNameChar c then
      let raw := c :: rest.takeWhile isNameChar
      let name := stripGlobal raw
      if isCompleteName name then
        .ok ⟨String.ofList name, rest.dropWhile isNameChar, by
          have hle := length_dropWhile_le isBlank cs
          have hrest := length_dropWhile_le isNameChar rest
          simp only [skipBlanks] at h
          simp only [h, List.length_cons] at hle
          omega⟩
      else .error (.incompleteName (String.ofList raw))
    else .error (.noName (some c))

mutual
/-- Array and nullable marks after `s`. -/
def readMarks (s : Signature) : List Char → Except Flaw (Signature × List Char)
  | [] => .ok (s, [])
  | c :: cs =>
    if isBlank c || c = '?' then readMarks s cs
    else if c = '[' then readArrayEnd s cs
    else .ok (s, c :: cs)

def readArrayEnd (s : Signature) : List Char → Except Flaw (Signature × List Char)
  | [] => .error .unclosedArray
  | c :: cs =>
    if isBlank c then readArrayEnd s cs
    else if c = ']' then readMarks (app arrayHead [s]) cs
    else .error .unclosedArray
end

mutual
theorem readMarks_length {s t : Signature} {cs r : List Char} (h : readMarks s cs = .ok (t, r)) :
    r.length ≤ cs.length := by
  cases cs with
  | nil => simp_all [readMarks]
  | cons c cs =>
    rw [readMarks] at h
    split at h
    · exact Nat.le_succ_of_le (readMarks_length h)
    · split at h
      · exact Nat.le_succ_of_le (readArrayEnd_length h)
      · simp_all

theorem readArrayEnd_length {s t : Signature} {cs r : List Char}
    (h : readArrayEnd s cs = .ok (t, r)) : r.length ≤ cs.length := by
  cases cs with
  | nil => simp [readArrayEnd] at h
  | cons c cs =>
    rw [readArrayEnd] at h
    split at h
    · exact Nat.le_succ_of_le (readArrayEnd_length h)
    · split at h
      · exact Nat.le_succ_of_le (readMarks_length h)
      · simp at h
end

/-- Marks that follow `s` in a proper remainder `r` of `cs`. -/
def readMarksIn (cs : List Char) (s : Signature) (r : List Char) (h : r.length < cs.length) :
    Except Flaw (Parsed Signature cs) :=
  match hm : readMarks s r with
  | .error flaw => .error flaw
  | .ok (t, r') => .ok ⟨t, r', Nat.lt_of_le_of_lt (readMarks_length hm) h⟩

/-- The meaning of a name without type arguments. -/
def ofName (params : List String) (name : String) : Signature :=
  if name ∈ params then param name else named name

mutual
def readType (params : List String) (cs : List Char) : Except Flaw (Parsed Signature cs) :=
  match readName cs with
  | .error flaw => .error flaw
  | .ok ⟨name, r, hr⟩ =>
    match hb : skipBlanks r with
    | '<' :: r' =>
      have hr' : r'.length < cs.length := by
        have hle := length_dropWhile_le isBlank r
        simp only [skipBlanks] at hb
        simp only [hb, List.length_cons] at hle
        omega
      match readArgs params r' with
      | .error flaw => .error flaw
      | .ok ⟨args, r'', hr''⟩ => readMarksIn cs (app name args) r'' (Nat.lt_trans hr'' hr')
    | _ => readMarksIn cs (ofName params name) r hr
termination_by 2 * cs.length

/-- One or more type arguments and the bracket that closes them. -/
def readArgs (params : List String) (cs : List Char) : Except Flaw (Parsed (List Signature) cs) :=
  match readType params cs with
  | .error flaw => .error flaw
  | .ok ⟨_, [], _⟩ => .error .unterminatedArgs
  | .ok ⟨s, c :: r, hr⟩ =>
    have hr' : r.length < cs.length := Nat.lt_of_succ_lt hr
    if c = ',' then
      match readArgs params r with
      | .error flaw => .error flaw
      | .ok ⟨ss, r', hr''⟩ => .ok ⟨s :: ss, r', Nat.lt_trans hr'' hr'⟩
    else if c = '>' then .ok ⟨[s], r, hr'⟩
    else .error (.noSeparator c)
termination_by 2 * cs.length + 1
end

/-- The signature written in `text`, where the names `params` denote type parameters. -/
def parse (params : List String) (text : String) : Except Malformed Signature :=
  let cs := text.toList
  match readType params cs with
  | .error flaw => .error ⟨text, flaw⟩
  | .ok ⟨s, [], _⟩ => .ok s
  | .ok ⟨_, c :: rest, _⟩ => .error ⟨text, .trailing c (cs.length - (rest.length + 1))⟩

end Injection.Signature
