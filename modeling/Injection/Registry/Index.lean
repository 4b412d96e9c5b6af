import Injection.Identity
import Injection.Signature.Basic
import Injection.Sorted

/-!
# The implementation index

The index lists, for every contract, the types that implement it in the order in which they were
registered. Contracts are kept in the order of signatures.
-/
namespace Injection

structure Index where
  rows : List (Signature × List Identity) := []
  deriving DecidableEq, Repr

namespace Index

def empty : Index := {}

def insert (index : Index) (contract : Signature) (i : Identity) : Index :=
  ⟨Sorted.alter contract (fun
    | none => [i]
    | some ids => if i ∈ ids then ids else ids ++ [i]) index.rows⟩

def ofPairs (pairs : List (Signature × Identity)) : Index :=
  pairs.foldl (fun index (contract, i) => index.insert contract i) empty

/-- The registered implementations of a contract; none for a contract that is not listed. -/
def get (index : Index) (contract : Signature) : List Identity :=
  (index.rows.lookup contract).getD []

def contains (index : Index) (contract : Signature) : Bool :=
  (index.rows.lookup contract).isSome

def size (index : Index) : Nat := index.rows.length

end Index

end Injection
