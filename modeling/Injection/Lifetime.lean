import Injection.Text.Basic
import Injection.Text.Case

/-!
# Lifetimes

How long an instance of a service lives, and which lifetimes a service may depend on.
-/
namespace Injection

open Injection.Text

inductive Lifetime where
  | transient
  /-- One instance per scope, for instance per request. -/
  | perScope
  | singleton
  deriving DecidableEq, Repr, Inhabited

namespace Lifetime

/-- The lifetime of a service that states none. -/
def unstated : Lifetime := perScope

def longevity : Lifetime → Nat
  | transient => 0
  | perScope => 1
  | singleton => 2

def outlives (a b : Lifetime) : Bool := decide (b.longevity < a.longevity)

def render : Lifetime → String
  | transient => "transient"
  | perScope => "scoped"
  | singleton => "singleton"

instance : ToString Lifetime := ⟨render⟩

/-- A word that names no lifetime, trimmed and in lower case. -/
structure Unknown where
  word : String
  deriving DecidableEq, Repr

def Unknown.message (u : Unknown) : String := s!"unknown lifetime '{u.word}'"

def parse (text : String) : Except Unknown Lifetime :=
  match asciiLower (trim text) with
  | "transient" => .ok transient
  | "scoped" => .ok perScope
  | "singleton" => .ok singleton
  | word => .error ⟨word⟩

/-- What happens to a dependency held by a consumer. -/
inductive Capture where
  | none
  | perScope
  | transient
  deriving DecidableEq, Repr

/-- A singleton keeps whatever it holds alive, so it captures anything that should live shorter. -/
def capture (consumer dependency : Lifetime) : Capture :=
  match consumer, dependency with
  | singleton, perScope => .perScope
  | singleton, transient => .transient
  | _, _ => .none

end Lifetime

end Injection
