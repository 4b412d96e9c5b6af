import Injection.Signature.Basic

/-!
# Normal forms of generic signatures

Two instances of one generic type that differ only in their arguments share a normal form.
-/
namespace Injection.Signature

mutual
/-- An argument with its holes numbered from `next`, and the next free number. A generic type that
is kept retains its structure, anything else becomes a hole. -/
def abstractArg (keep : String → Nat → Bool) : Signature → Nat → Signature × Nat
  | app head args, next =>
    if keep head args.length then
      let (args', next') := abstractArgs keep args next
      (app head args', next')
    else (hole next, next + 1)
  | named _, next | param _, next | hole _, next => (hole next, next + 1)

def abstractArgs (keep : String → Nat → Bool) : List Signature → Nat → List Signature × Nat
  | [], next => ([], next)
  | s :: ss, next =>
    let (s', next') := abstractArg keep s next
    let (ss', next'') := abstractArgs keep ss next'
    (s' :: ss', next'')
end

@[simp] theorem length_abstractArgs (keep : String → Nat → Bool) (ss : List Signature)
    (next : Nat) : (abstractArgs keep ss next).1.length = ss.length := by
  induction ss generalizing next with
  | nil => rfl
  | cons s ss ih => simp only [abstractArgs, List.length_cons, ih]

/-- Arguments replaced by holes numbered from left to right, except that generic types accepted by
`keep` retain their structure. What is not generic is its own normal form. -/
def normalize (keep : String → Nat → Bool) : Signature → Signature
  | app head args => app head (abstractArgs keep args 0).1
  | s => s

/-- Normal form in which every argument is a hole. -/
def flatten (s : Signature) : Signature := s.normalize fun _ _ => false

end Injection.Signature
