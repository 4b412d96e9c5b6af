import Injection.Text.Basic
import Injection.Text.Case

/-!
# Severities
-/
namespace Injection

open Injection.Text

inductive Severity where
  | hidden
  | info
  | warning
  | error
  deriving DecidableEq, Repr, Inhabited

namespace Severity

def weight : Severity → Nat
  | hidden => 0
  | info => 1
  | warning => 2
  | error => 3

def milder (a b : Severity) : Severity := if a.weight ≤ b.weight then a else b

def render : Severity → String
  | hidden => "hidden"
  | info => "info"
  | warning => "warning"
  | error => "error"

instance : ToString Severity := ⟨render⟩

def parse? (text : String) : Option Severity :=
  match asciiLower (trim text) with
  | "error" => some error
  | "warning" | "warn" => some warning
  | "info" | "information" | "suggestion" => some info
  | "hidden" | "none" | "silent" => some hidden
  | _ => none

/-- Any text that names no severity means a warning. -/
def parseLenient (text : String) : Severity := (parse? text).getD warning

end Severity

end Injection
