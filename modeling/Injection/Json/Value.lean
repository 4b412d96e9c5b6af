import Injection.Json.Token

/-!
# JSON values

A document is read as far as it makes sense. Where its structure breaks, the lists and objects
around that place are left unclosed, and a value that must stand there is missing. So a reader of
the values meets the first mistake of a document where it occurs.
-/
namespace Injection

inductive Json where
  | null
  | bool (value : Bool)
  | number
  | text (content : Option String)
  | list (items : List Json) (closed : Bool)
  | object (fields : List (Option String × Json)) (closed : Bool)
  | missing
  deriving Repr

namespace Json

/-- What follows a value, or nothing if the structure breaks within it. -/
abbrev Rest (ts : List Token) := Option { r : List Token // r.length < ts.length }

def Rest.weaken {ts us : List Token} (h : us.length ≤ ts.length) (r : Rest us) : Rest ts :=
  r.map fun ⟨r, hr⟩ => ⟨r, Nat.lt_of_lt_of_le hr h⟩

mutual
def readValue (ts : List Token) : Json × Rest ts :=
  match ts with
  | [] => (missing, none)
  | .null :: r => (null, some ⟨r, Nat.lt_succ_self _⟩)
  | .bool b :: r => (bool b, some ⟨r, Nat.lt_succ_self _⟩)
  | .number :: r => (number, some ⟨r, Nat.lt_succ_self _⟩)
  | .text content :: r => (text content, some ⟨r, Nat.lt_succ_self _⟩)
  | .listStart :: .listEnd :: r =>
    (list [] true, some ⟨r, by simp only [List.length_cons]; omega⟩)
  | .listStart :: r =>
    let (items, rest) := readItems r
    (list items rest.isSome, rest.weaken (Nat.le_succ _))
  | .objectStart :: .objectEnd :: r =>
    (object [] true, some ⟨r, by simp only [List.length_cons]; omega⟩)
  | .objectStart :: r =>
    let (fields, rest) := readFields r
    (object fields rest.isSome, rest.weaken (Nat.le_succ _))
  | _ :: _ => (missing, none)
termination_by 2 * ts.length

/-- One or more items and the end of their list. -/
def readItems (ts : List Token) : List Json × Rest ts :=
  match readValue ts with
  | (v, some ⟨.comma :: r, h⟩) =>
    have hr : r.length < ts.length := Nat.lt_of_succ_lt h
    let (vs, rest) := readItems r
    (v :: vs, rest.weaken (Nat.le_of_lt hr))
  | (v, some ⟨.listEnd :: r, h⟩) => ([v], some ⟨r, Nat.lt_of_succ_lt h⟩)
  | (v, _) => ([v], none)
termination_by 2 * ts.length + 1

/-- One or more fields and the end of their object. -/
def readFields (ts : List Token) : List (Option String × Json) × Rest ts :=
  match ts with
  | .text key :: .colon :: r =>
    match readValue r with
    | (v, some ⟨.comma :: r', h⟩) =>
      have hr : r'.length < r.length := Nat.lt_of_succ_lt h
      let (fields, rest) := readFields r'
      ((key, v) :: fields, rest.weaken (by simp only [List.length_cons]; omega))
    | (v, some ⟨.objectEnd :: r', h⟩) =>
      have hr : r'.length < r.length := Nat.lt_of_succ_lt h
      ([(key, v)], some ⟨r', by simp only [List.length_cons]; omega⟩)
    | (v, _) => ([(key, v)], none)
  | .text key :: _ => ([(key, missing)], none)
  | _ => ([], none)
termination_by 2 * ts.length
end

/-- The value in a text, and whether the text holds that value, complete, and nothing else. -/
def read (text : String) : Json × Bool :=
  let (v, rest) := readValue (tokens text.toList)
  (v, rest.any fun r => r.1.isEmpty)

end Json

end Injection
