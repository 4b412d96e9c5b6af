import Injection.Catalogue.Contracts
import Injection.Finding.Basic
import Injection.Signature.Parser

/-!
# Snapshots

A snapshot is what a list of declaration fragments says taken together. The fragments of one type
are merged in the order in which they come, and the types are in order of first appearance. A
signature that cannot be read is left out and reported.
-/
namespace Injection

open Injection.Text

/-- The fragments that declare one type. -/
structure Parts where
  identity : Identity
  fragments : List Fragment
  deriving DecidableEq, Repr

namespace Parts

def ofFragments (fragments : List Fragment) : List Parts :=
  (fragments.map Fragment.identity).eraseDups.map fun i =>
    ⟨i, fragments.filter fun f => f.identity = i⟩

/-- The type parameters as the first fragment names them. -/
def params (p : Parts) : List String := (p.fragments.head?.map Fragment.params).getD []

def kind (p : Parts) : TypeKind :=
  if p.fragments.any fun f => f.kind = .contract then .contract else .concrete

def isService (p : Parts) : Bool :=
  decide (p.kind = .concrete) && p.fragments.any Fragment.isMarked

/-- The first base type that is not blank. -/
def baseText (p : Parts) : Option String :=
  (p.fragments.filterMap Fragment.base).find? fun b => trim b ≠ ""

def contractTexts (p : Parts) : List String := p.fragments.flatMap Fragment.contracts

def excludedTexts (p : Parts) : List String := p.fragments.flatMap Fragment.excluded

/-- How many list numbers a fragment takes. -/
def groupsUsed (f : Fragment) : Nat :=
  f.requests.foldl (fun used r =>
    match r.style with
    | .field _ => used
    | .list group => Nat.max used (group + 1)) 0

/-- Requests with the list numbers of each fragment moved past those of the fragments before it,
and with the location of the fragment where they have none of their own. -/
def placeRequests : (offset : Nat) → List Fragment → List Request
  | _, [] => []
  | offset, f :: fs =>
    (f.requests.map fun r =>
      { r with
        style := match r.style with
          | .field name => .field name
          | .list group => .list (group + offset)
        location := r.location.or f.location }) ++
    placeRequests (offset + groupsUsed f) fs

def requests (p : Parts) : List Request := placeRequests 0 p.fragments

/-! ## Reading -/

def read? (p : Parts) (text : String) : Option Signature := (Signature.parse p.params text).toOption

def readAll (p : Parts) (texts : List String) : List Signature :=
  (texts.filterMap p.read?).eraseDups

/-- A report if the text is not a signature. -/
def malformed? (p : Parts) (text : String) (location : Option Location) : Option Finding :=
  match Signature.parse p.params text with
  | .ok _ => none
  | .error m => some (.report .malformedSignature p.identity (.text text) m.message location)

def entry (p : Parts) (order : Nat) : Entry where
  identity := p.identity
  params := p.params
  kind := p.kind
  base := p.baseText.bind p.read?
  contracts := p.readAll p.contractTexts
  isService := p.isService
  order := order

def dependencies (p : Parts) : List Dependency :=
  p.requests.filterMap fun r =>
    (p.read? r.target).map fun target => ⟨target, r.wrapping, r.style, r.location⟩

/-- The service declared by the parts, which implements `contracts`. -/
def service (p : Parts) (order : Nat) (contracts : List Signature) : Service where
  identity := p.identity
  params := p.params
  lifetime := (p.fragments.findSome? Fragment.lifetime).getD Lifetime.unstated
  isExternal := p.fragments.any Fragment.isExternal
  isConditional := p.fragments.any Fragment.isConditional
  conditions := p.fragments.flatMap Fragment.conditions
  isBackground := p.fragments.any Fragment.isBackground
  anyBackgroundLifetime := p.fragments.any Fragment.anyBackgroundLifetime
  base := p.baseText.bind p.read?
  contracts := contracts
  excluded := p.readAll p.excludedTexts
  dependencies := p.dependencies
  location := p.fragments.findSome? Fragment.location
  order := order

def entryFindings (p : Parts) : List Finding :=
  (p.baseText.toList ++ p.contractTexts).filterMap fun text => p.malformed? text none

def serviceFindings (p : Parts) : List Finding :=
  (p.excludedTexts.filterMap fun text => p.malformed? text none) ++
  p.requests.filterMap fun r => p.malformed? r.target r.location

end Parts

structure Snapshot where
  services : List Service := []
  catalogue : Catalogue := {}
  findings : List Finding := []
  deriving DecidableEq, Repr

namespace Snapshot

/-- The services declared by parts with their positions, with the contracts that the catalogue
gives them. -/
def servicesOf (fuel : Nat) (catalogue : Catalogue) (declared : List (Parts × Nat)) :
    Option (List Service) :=
  declared.mapM fun (p, order) => (catalogue.contractsOf fuel p.identity).map (p.service order)

/-- The snapshot of a list of fragments, unless the contracts of a service are not all found within
`fuel` steps. -/
def collect (fuel : Nat) (fragments : List Fragment) : Option Snapshot :=
  let parts := (Parts.ofFragments fragments).zipIdx
  let declared := parts.filter fun (p, _) => p.isService
  let catalogue := Catalogue.ofEntries (parts.map fun (p, order) => p.entry order)
  let findings := (parts.flatMap fun (p, _) => p.entryFindings) ++
    declared.flatMap fun (p, _) => p.serviceFindings
  (servicesOf fuel catalogue declared).map fun services => { services, catalogue, findings }

/-- The snapshot of services that are already put together. -/
def ofServices (services : List Service) : Snapshot :=
  { services, catalogue := .ofServices services }

end Snapshot

end Injection
