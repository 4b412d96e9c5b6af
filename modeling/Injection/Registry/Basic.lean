import Injection.Registry.Table
import Injection.Snapshot

/-!
# The registry

The registry of a snapshot resolves signatures to services, and separately to plain classes that
implement a contract without being registered.
-/
namespace Injection

structure Registry where
  registered : Table
  unregistered : Table
  lifetimes : List (Identity × Lifetime)
  externals : List Identity
  fallback : Fallback

namespace Registry

/-- Plain classes with all their contracts, if these are found within `fuel` steps. -/
def plainProviders (fuel : Nat) (c : Catalogue) : Option (List Provider) :=
  (c.entries.filter fun e => !e.isService && e.kind = .concrete).mapM fun e =>
    (c.contractsOf fuel e.identity).map fun contracts =>
      ⟨e.identity, e.selfSignature :: contracts⟩

def serviceProviders (services : List Service) : List Provider :=
  services.map fun s => ⟨s.identity, s.registered⟩

def build (fuel : Nat) (fallback : Fallback) (services : List Service) (c : Catalogue) :
    Option Registry :=
  (plainProviders fuel c).map fun plain =>
    { registered := .ofProviders (serviceProviders services)
      unregistered := .ofProviders plain
      lifetimes := (services.map fun s => (s.identity, s.lifetime)).reverse
      externals := (services.filter Service.isExternal).map Service.identity
      fallback }

def resolve (r : Registry) (target : Signature) : Except Fault (Option Match) :=
  r.registered.lookup r.fallback target

def resolveUnregistered (r : Registry) (target : Signature) : Except Fault (Option Match) :=
  r.unregistered.lookup r.fallback target

def index (r : Registry) : Index := r.registered.index

/-- The lifetime of a service; of two services with one identity the later one counts. -/
def lifetime? (r : Registry) (i : Identity) : Option Lifetime := r.lifetimes.lookup i

def isRegistered (r : Registry) (i : Identity) : Bool := (r.lifetime? i).isSome

def isExternal (r : Registry) (i : Identity) : Bool := decide (i ∈ r.externals)

end Registry

end Injection
