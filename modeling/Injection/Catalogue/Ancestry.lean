import Injection.Catalogue.Basic

/-!
# Ancestors

The base types of a type, nearest first. The walk ends at a type without a base, at the root of all
types, at a base the catalogue does not know, and where it would come back to a type it has passed.
Each ancestor is seen from the type the walk starts at: its signature and the values of its type
parameters are written with the type parameters of that type.
-/
namespace Injection

structure Ancestor where
  entry : Entry
  signature : Signature
  bindings : Signature.Bindings
  deriving DecidableEq, Repr

namespace Catalogue

/-- The names of the root of all types. -/
def rootNames : List String := ["object", "Object", "System.Object"]

/-- The walk from a base type over the types that are still `unseen`. -/
def walk (c : Catalogue) (unseen : List Identity) (σ : Signature.Bindings) :
    Option Signature → List Ancestor
  | none => []
  | some base =>
    let signature := base.subst σ
    if signature.headName ∈ rootNames then []
    else
      match c.lookup? signature with
      | none => []
      | some e =>
        if h : e.identity ∈ unseen then
          have : (unseen.erase e.identity).length < unseen.length := by
            rw [List.length_erase_of_mem h]
            exact Nat.sub_lt (List.length_pos_of_mem h) Nat.one_pos
          let σ' := Signature.bind e.params signature.args
          ⟨e, signature, σ'⟩ :: walk c (unseen.erase e.identity) σ' e.base
        else []
termination_by unseen.length

def ancestors (c : Catalogue) (i : Identity) : List Ancestor :=
  c.walk ((c.entries.map Entry.identity).erase i) [] ((c.get? i).bind Entry.base)

end Catalogue

end Injection
