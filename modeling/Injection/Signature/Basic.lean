/-!
# Type signatures

A signature is a type expression as it is written in a service declaration: a plain name, a type
parameter of the enclosing declaration, or a generic type applied to arguments. A numbered hole
stands for an argument whose value does not matter.

A generic type is written `Head<A, B>`, an array `A[]`, and hole number `n` as `Tn`. The order goes
by the kind of the root (names, parameters, generic types, holes), then by name or number, then by
the arguments from left to right. Names are ordered by code points.
-/
namespace Injection

inductive Signature where
  | named (name : String)
  | param (name : String)
  | app (head : String) (args : List Signature)
  | hole (index : Nat)
  deriving Repr

namespace Signature

/-- The head of an array type: `T[]` is `app arrayHead [T]`. -/
def arrayHead : String := "[]"

mutual
def decEq : (s t : Signature) → Decidable (s = t)
  | named a, named b => decidable_of_iff (a = b) (by simp)
  | param a, param b => decidable_of_iff (a = b) (by simp)
  | app f ss, app g ts =>
    match decEqArgs ss ts with
    | isTrue h => decidable_of_iff (f = g) (by simp [h])
    | isFalse h => isFalse (by simp [h])
  | hole i, hole j => decidable_of_iff (i = j) (by simp)
  | named _, param _ | named _, app .. | named _, hole _
  | param _, named _ | param _, app .. | param _, hole _
  | app .., named _ | app .., param _ | app .., hole _
  | hole _, named _ | hole _, param _ | hole _, app .. => isFalse (by simp)

def decEqArgs : (ss ts : List Signature) → Decidable (ss = ts)
  | [], [] => isTrue rfl
  | [], _ :: _ | _ :: _, [] => isFalse (by simp)
  | s :: ss, t :: ts =>
    match decEq s t with
    | isFalse h => isFalse (by simp [h])
    | isTrue h =>
      match decEqArgs ss ts with
      | isFalse h' => isFalse (by simp [h'])
      | isTrue h' => isTrue (by simp [h, h'])
end

instance : DecidableEq Signature := decEq

instance : Inhabited Signature := ⟨named ""⟩

/-- Name at the root; every hole is called `_`. -/
def headName : Signature → String
  | named name | param name => name
  | app head _ => head
  | hole _ => "_"

def args : Signature → List Signature
  | app _ args => args
  | _ => []

def arity (s : Signature) : Nat := s.args.length

def isApp : Signature → Bool
  | app .. => true
  | _ => false

mutual
/-- A type parameter or a hole occurs in the signature. -/
def isOpen : Signature → Bool
  | named _ => false
  | param _ | hole _ => true
  | app _ args => anyOpen args

def anyOpen : List Signature → Bool
  | [] => false
  | s :: ss => isOpen s || anyOpen ss
end

@[simp] theorem anyOpen_eq_any (ss : List Signature) : anyOpen ss = ss.any isOpen := by
  induction ss with
  | nil => rfl
  | cons s ss ih => rw [anyOpen, ih, List.any_cons]

/-- A generic type applied to arguments without type parameters or holes. -/
def isClosedApp (s : Signature) : Bool := s.isApp && !s.isOpen

/-- Head and number of arguments of a generic type. -/
def shape? : Signature → Option (String × Nat)
  | app head args => some (head, args.length)
  | _ => none

/-- The last part of a qualified name. -/
def simpleName (name : String) : String :=
  String.ofList (name.toList.reverse.takeWhile fun c => c ≠ '.' && c ≠ ':').reverse

/-- Values of type parameters. Where a name occurs twice, its first entry counts. -/
abbrev Bindings := List (String × Signature)

/-- Parameters bound to arguments position by position; of two parameters with one name the later
one counts. -/
def bind (params : List String) (args : List Signature) : Bindings :=
  (params.zip args).reverse

mutual
/-- Replaces bound type parameters, all at once; the others stay. -/
def subst (σ : Bindings) : Signature → Signature
  | param name => (σ.lookup name).getD (param name)
  | app head args => app head (substArgs σ args)
  | named name => named name
  | hole index => hole index

def substArgs (σ : Bindings) : List Signature → List Signature
  | [] => []
  | s :: ss => subst σ s :: substArgs σ ss
end

@[simp] theorem substArgs_eq_map (σ : Bindings) (ss : List Signature) :
    substArgs σ ss = ss.map (subst σ) := by
  induction ss with
  | nil => rfl
  | cons s ss ih => rw [substArgs, ih, List.map_cons]

/-! ## Text -/

mutual
def chars : Signature → List Char
  | named name | param name => name.toList
  | hole index => 'T' :: Nat.toDigits 10 index
  | app head args =>
    if head = arrayHead ∧ args.length = 1 then charsArgs args ++ ['[', ']']
    else head.toList ++ '<' :: (charsArgs args ++ ['>'])

/-- Arguments separated by a comma and a blank. -/
def charsArgs : List Signature → List Char
  | [] => []
  | [s] => chars s
  | s :: ss => chars s ++ ',' :: ' ' :: charsArgs ss
end

def render (s : Signature) : String := String.ofList s.chars

instance : ToString Signature := ⟨render⟩

/-! ## Order -/

def rank : Signature → Nat
  | named _ => 0
  | param _ => 1
  | app .. => 2
  | hole _ => 3

mutual
def cmp : Signature → Signature → Ordering
  | named a, named b => compare a b
  | param a, param b => compare a b
  | app f ss, app g ts => (compare f g).then (cmpArgs ss ts)
  | hole i, hole j => compare i j
  | s, t => compare s.rank t.rank

def cmpArgs : List Signature → List Signature → Ordering
  | [], [] => .eq
  | [], _ :: _ => .lt
  | _ :: _, [] => .gt
  | s :: ss, t :: ts => (cmp s t).then (cmpArgs ss ts)
end

instance : Ord Signature := ⟨cmp⟩

end Signature

end Injection
