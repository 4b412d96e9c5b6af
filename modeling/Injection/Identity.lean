/-!
# Identities and locations

A declared type is known by its name and its number of type parameters. A location is a place in a
source file.
-/
namespace Injection

structure Identity where
  name : String
  arity : Nat
  deriving DecidableEq, Repr, Inhabited

namespace Identity

/-- The name, followed by one `_` per type parameter between angle brackets. -/
def render (i : Identity) : String :=
  let blanks := String.intercalate ", " (List.replicate i.arity "_")
  if i.arity = 0 then i.name else s!"{i.name}<{blanks}>"

instance : ToString Identity := ⟨render⟩

/-- By name, then by number of type parameters. -/
instance : Ord Identity where
  compare i j := (compare i.name j.name).then (compare i.arity j.arity)

end Identity

structure Location where
  file : String
  line : Nat
  column : Nat
  deriving DecidableEq, Repr, Inhabited

namespace Location

def render (l : Location) : String := s!"{l.file}:{l.line}:{l.column}"

instance : ToString Location := ⟨render⟩

instance : Ord Location where
  compare l m :=
    (compare l.file m.file).then ((compare l.line m.line).then (compare l.column m.column))

/-- An unknown location comes before every known one. -/
def compareOption : Option Location → Option Location → Ordering
  | none, none => .eq
  | none, some _ => .lt
  | some _, none => .gt
  | some l, some m => compare l m

end Location

end Injection
