import Injection.Fragment
import Injection.Service

/-!
# The catalogue of declared types

Every type of a snapshot has one entry, services, plain classes and contracts alike. Entries keep
the order in which their types were first entered, and `positions` tells where each type stands.
-/
namespace Injection

structure Entry where
  identity : Identity
  params : List String := []
  kind : TypeKind := .concrete
  base : Option Signature := none
  /-- Contracts named by the declaration itself. -/
  contracts : List Signature := []
  isService : Bool := false
  order : Nat := 0
  deriving DecidableEq, Repr

def Entry.selfSignature (e : Entry) : Signature := Signature.self e.identity.name e.params

structure Catalogue where
  entries : List Entry := []
  positions : List (Identity × Nat) := []
  deriving DecidableEq, Repr

namespace Catalogue

def empty : Catalogue := {}

/-- An entry for a type that is already known takes the place of the old one. -/
def insert (c : Catalogue) (e : Entry) : Catalogue :=
  match c.positions.lookup e.identity with
  | some i => { c with entries := c.entries.set i e }
  | none =>
    { entries := c.entries ++ [e]
      positions := c.positions ++ [(e.identity, c.entries.length)] }

def ofEntries (es : List Entry) : Catalogue := es.foldl insert empty

def size (c : Catalogue) : Nat := c.entries.length

def get? (c : Catalogue) (i : Identity) : Option Entry :=
  match c.positions.lookup i with
  | some position => c.entries[position]?
  | none => none

/-- The entry of the type that a signature applies or names. -/
def lookup? (c : Catalogue) : Signature → Option Entry
  | .named name => c.get? ⟨name, 0⟩
  | .app head args => c.get? ⟨head, args.length⟩
  | .param _ | .hole _ => none

/-- A catalogue of finished services, each with all the contracts it implements. -/
def ofServices (services : List Service) : Catalogue :=
  ofEntries <| services.map fun s =>
    { identity := s.identity, params := s.params, base := s.base, contracts := s.contracts,
      isService := true, order := s.order }

end Catalogue

end Injection
