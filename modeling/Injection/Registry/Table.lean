import Injection.Finding.Basic
import Injection.Registry.Index
import Injection.Signature.NormalForm

/-!
# Contract tables

A table answers which types implement a wanted signature. It first looks for the signature itself,
then for its normal forms, under which open generic contracts are listed as well, and last, for a
closed generic type, asks a fallback.
-/
namespace Injection

/-- How a signature was found. -/
inductive Stage where
  | exact
  | normalized
  | fallback
  deriving DecidableEq, Repr

structure Match where
  stage : Stage
  candidates : List Identity
  deriving DecidableEq, Repr

/-- Guesses implementations of a closed generic type from the open contracts of a table. It may
fail instead. -/
abbrev Fallback := Signature → List (Signature × Identity) → Except Fault (List Identity)

namespace Fallback

def none : Fallback := fun _ _ => .ok []

/-- Types with an open contract of the same simple name and arity. -/
def sameShape : Fallback := fun target contracts =>
  .ok <| ((contracts.filter fun (contract, _) =>
    contract.arity = target.arity &&
      Signature.simpleName contract.headName = Signature.simpleName target.headName).map
    Prod.snd).eraseDups

end Fallback

/-- A type and the contracts it stands for. -/
structure Provider where
  identity : Identity
  contracts : List Signature
  deriving DecidableEq, Repr

structure Table where
  index : Index := {}
  /-- Head and arity of every open generic contract. -/
  openShapes : List (String × Nat) := []
  openContracts : List (Signature × Identity) := []
  deriving DecidableEq, Repr

namespace Table

def keeps (shapes : List (String × Nat)) (head : String) (arity : Nat) : Bool :=
  decide ((head, arity) ∈ shapes)

/-- The signatures under which a contract is listed. -/
def keys (shapes : List (String × Nat)) (contract : Signature) : List Signature :=
  if contract.isOpen && contract.isApp then [contract, contract.normalize (keeps shapes)]
  else [contract]

def ofProviders (providers : List Provider) : Table :=
  let contracts := providers.flatMap fun p => p.contracts.map fun c => (c, p.identity)
  let openContracts := contracts.filter fun (c, _) => c.isOpen
  let openShapes := openContracts.filterMap fun (c, _) => c.shape?
  { index := .ofPairs (contracts.flatMap fun (c, i) => (keys openShapes c).map fun key => (key, i))
    openShapes
    openContracts }

def normalize (table : Table) (s : Signature) : Signature := s.normalize (keeps table.openShapes)

/-- The first of the given keys that has implementations. -/
def firstListed (table : Table) (keys : List Signature) : Option (List Identity) :=
  keys.findSome? fun key =>
    match table.index.get key with
    | [] => none
    | found => some found

def lookup (table : Table) (fallback : Fallback) (target : Signature) :
    Except Fault (Option Match) :=
  match table.firstListed [target] with
  | some found => .ok (some ⟨.exact, found⟩)
  | none =>
    if target.isApp then
      match table.firstListed [table.normalize target, target.flatten] with
      | some found => .ok (some ⟨.normalized, found⟩)
      | none =>
        if target.isOpen then .ok none
        else
          match fallback target table.openContracts with
          | .error fault => .error fault
          | .ok [] => .ok none
          | .ok guessed => .ok (some ⟨.fallback, guessed⟩)
    else .ok none

end Table

end Injection
