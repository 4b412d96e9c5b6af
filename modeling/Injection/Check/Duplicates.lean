import Injection.Finding.Basic
import Injection.Service

/-!
# Repeated dependencies

A service should state each dependency once: not twice in one list, not in two lists, and not both
as a field and in a list.
-/
namespace Injection.Check

/-- How a service states one dependency. -/
structure Usage where
  target : Signature
  /-- The lists that hold the dependency, as often as they hold it. -/
  groups : List Nat
  asField : Bool
  location : Option Location
  deriving DecidableEq, Repr

namespace Usage

def group? : Style → Option Nat
  | .list group => some group
  | .field _ => none

def of (dependencies : List Dependency) (target : Signature) : Usage :=
  let uses := dependencies.filter fun d => d.target = target
  { target
    groups := uses.filterMap fun d => group? d.style
    asField := uses.any fun d => (group? d.style).isNone
    location := uses.findSome? Dependency.location }

def all (dependencies : List Dependency) : List Usage :=
  (dependencies.map Dependency.target).eraseDups.map (of dependencies)

def findings (s : Service) (u : Usage) : List Finding :=
  let report kind message : Finding :=
    .report kind s.identity (.contract u.target) message (u.location.or s.location)
  let subject := s.identity.render
  let target := u.target.render
  let lists := u.groups.eraseDups.length
  (if lists < u.groups.length then
    [report .duplicateWithinList
      s!"'{subject}' lists dependency '{target}' more than once in one marker"]
   else []) ++
  (if 1 < lists then
    [report .duplicateDependency
      s!"'{subject}' declares dependency '{target}' in {lists} separate markers"]
   else []) ++
  (if u.asField && 0 < lists then
    [report .conflictingStyles
      s!"'{subject}' declares dependency '{target}' both as a field and in a dependency list"]
   else [])

end Usage

def duplicates (s : Service) : List Finding := (Usage.all s.dependencies).flatMap (Usage.findings s)

end Injection.Check
