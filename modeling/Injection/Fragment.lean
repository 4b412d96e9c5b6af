import Injection.Service

/-!
# Declaration fragments

A type may be declared in several parts. A fragment is one of them as it was written: signatures
are still texts. Fragments are put together by the functions below, each of which adds one mark.
-/
namespace Injection

inductive TypeKind where
  | concrete
  | contract
  deriving DecidableEq, Repr, Inhabited

/-- A dependency as it was written. -/
structure Request where
  target : String
  wrapping : Wrapping := .direct
  style : Style
  location : Option Location := none
  deriving DecidableEq, Repr

structure Fragment where
  name : String := ""
  params : List String := []
  kind : TypeKind := .concrete
  base : Option String := none
  contracts : List String := []
  lifetime : Option Lifetime := none
  isExternal : Bool := false
  isConditional : Bool := false
  conditions : List Condition := []
  isBackground : Bool := false
  anyBackgroundLifetime : Bool := false
  excluded : List String := []
  requests : List Request := []
  location : Option Location := none
  /-- Number of the next dependency list. -/
  nextGroup : Nat := 0
  deriving DecidableEq, Repr, Inhabited

namespace Fragment

def identity (f : Fragment) : Identity := ⟨f.name, f.params.length⟩

def withLifetime (f : Fragment) (l : Lifetime) : Fragment := { f with lifetime := some l }

def implementing (f : Fragment) (contract : String) : Fragment :=
  { f with contracts := f.contracts ++ [contract] }

def excluding (f : Fragment) (contract : String) : Fragment :=
  { f with excluded := f.excluded ++ [contract] }

/-- A condition also marks the service as conditional. -/
def requiring (f : Fragment) (c : Condition) : Fragment :=
  { f with isConditional := true, conditions := f.conditions ++ [c] }

/-- A request that names its own list moves the next list past it. -/
def requesting (f : Fragment) (r : Request) : Fragment :=
  { f with
    requests := f.requests ++ [r]
    nextGroup :=
      match r.style with
      | .field _ => f.nextGroup
      | .list group => if f.nextGroup ≤ group then group + 1 else f.nextGroup }

/-- One new list of dependencies; an empty list takes a number as well. -/
def dependingOn (f : Fragment) (targets : List String) : Fragment :=
  { f with
    requests := f.requests ++ targets.map fun t => { target := t, style := .list f.nextGroup }
    nextGroup := f.nextGroup + 1 }

def injecting (f : Fragment) (field target : String) (w : Wrapping) : Fragment :=
  f.requesting { target := target, wrapping := w, style := .field field }

/-- Something about the fragment marks its type as a service. -/
def isMarked (f : Fragment) : Bool :=
  f.lifetime.isSome || f.isConditional || f.isBackground || f.isExternal || f.requests ≠ []

end Fragment

end Injection
