import Injection.Dependency
import Injection.Lifetime

/-!
# Services

A service is a class whose instances are created and handed out on request. It is registered under
its own type and under the contracts it implements, except those it excludes. A conditional service
is registered only in certain environments or for certain values of a configuration key.
-/
namespace Injection

open Injection.Text

/-- `environment` and `notEnvironment` may list several names. -/
structure Condition where
  environment : Option String := none
  notEnvironment : Option String := none
  configKey : Option String := none
  equals : Option String := none
  notEquals : Option String := none
  deriving DecidableEq, Repr, Inhabited

namespace Condition

def isBlankField (field : Option String) : Bool := field.all fun s => trim s == ""

/-- No field says anything. -/
def isEmpty (c : Condition) : Bool :=
  [c.environment, c.notEnvironment, c.configKey, c.equals, c.notEquals].all isBlankField

end Condition

/-- The type of a declaration seen from inside: its name applied to its own type parameters. -/
def Signature.self (name : String) (params : List String) : Signature :=
  if params = [] then named name else app name (params.map param)

structure Service where
  identity : Identity
  params : List String := []
  lifetime : Lifetime := Lifetime.unstated
  isExternal : Bool := false
  isConditional : Bool := false
  conditions : List Condition := []
  isBackground : Bool := false
  /-- A background service may have any lifetime. -/
  anyBackgroundLifetime : Bool := false
  base : Option Signature := none
  /-- Implemented contracts, inherited and extended ones included. -/
  contracts : List Signature := []
  excluded : List Signature := []
  dependencies : List Dependency := []
  location : Option Location := none
  order : Nat := 0
  deriving DecidableEq, Repr

namespace Service

def selfSignature (s : Service) : Signature := Signature.self s.identity.name s.params

def registered (s : Service) : List Signature :=
  s.selfSignature :: s.contracts.filter (· ∉ s.excluded)

end Service

end Injection
