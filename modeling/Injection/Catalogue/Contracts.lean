import Injection.Catalogue.Ancestry

/-!
# Implemented contracts

A type implements the contracts it names, those of its ancestors, and every contract that these
extend. The list is in depth-first order without repetition.

A generic contract may extend itself at ever larger arguments, and then the expansion goes on for
ever. It therefore takes a bound on its number of steps and gives no answer when that is used up.
-/
namespace Injection.Catalogue

/-- The contracts that a contract extends, at its own arguments. -/
def extendedBy (c : Catalogue) (s : Signature) : List Signature :=
  match c.lookup? s with
  | some e =>
    if e.kind = .contract then e.contracts.map (Signature.subst (Signature.bind e.params s.args))
    else []
  | none => []

def expand (c : Catalogue) : (fuel : Nat) → (pending found : List Signature) →
    Option (List Signature)
  | _, [], found => some found
  | 0, _ :: _, _ => none
  | fuel + 1, s :: pending, found =>
    if s ∈ found then expand c fuel pending found
    else expand c fuel (c.extendedBy s ++ pending) (found ++ [s])

/-- Contracts that the type or one of its ancestors names, the type's own first. -/
def directContracts (c : Catalogue) (e : Entry) : List Signature :=
  e.contracts ++ (c.ancestors e.identity).flatMap fun a =>
    a.entry.contracts.map (Signature.subst a.bindings)

def contractsOf (c : Catalogue) (fuel : Nat) (i : Identity) : Option (List Signature) :=
  match c.get? i with
  | some e => c.expand fuel (c.directContracts e) []
  | none => some []

end Injection.Catalogue
