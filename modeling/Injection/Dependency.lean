import Injection.Identity
import Injection.Signature.Basic

/-!
# Dependencies

A dependency names the type a service needs, how the needed instance is wrapped, and how the
dependency was written down: as a field, or as an entry of a numbered list.
-/
namespace Injection

inductive Wrapping where
  | direct
  | collection
  | deferred
  deriving DecidableEq, Repr, Inhabited

namespace Wrapping

/-- A collection on either side wins, then a deferred value. -/
def combine : Wrapping → Wrapping → Wrapping
  | collection, _ | _, collection => collection
  | deferred, _ | _, deferred => deferred
  | direct, direct => direct

/-- A dependency that cannot be left empty. -/
def isStrong (w : Wrapping) : Bool := decide (w ≠ collection)

end Wrapping

inductive Style where
  | field (name : String)
  | list (group : Nat)
  deriving DecidableEq, Repr

structure Dependency where
  target : Signature
  wrapping : Wrapping
  style : Style
  location : Option Location
  deriving DecidableEq, Repr

end Injection
