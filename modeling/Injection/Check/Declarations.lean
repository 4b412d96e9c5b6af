import Injection.Check.Duplicates
import Injection.Text.Basic
import Injection.Text.Case

/-!
# Single declarations

What can be said about a service by looking at its declaration alone: repeated dependencies,
exclusions of contracts it does not implement, and conditions that are empty, contradict themselves
or compare no configuration value.
-/
namespace Injection

open Injection.Text

namespace Condition

def environments (list : String) : List String := items (· == ',') list

/-- Required environments that are excluded as well, as they are written. Required and excluded
names are compared without regard to case, and of names that differ in ASCII case alone only the
first is listed. -/
def conflicts (c : Condition) : List String :=
  match c.environment, c.notEnvironment with
  | some required, some excluded =>
    let excluded := (environments excluded).map lowercase
    (environments required).foldl (fun found e =>
      if lowercase e ∈ excluded && !found.any (fun f => eqIgnoringAsciiCase f e) then found ++ [e]
      else found) []
  | _, _ => []

/-- The value that a key must both have and not have. -/
def contradiction (c : Condition) : Option String :=
  match c.equals, c.notEquals with
  | some v, some w => if v = w then some v else none
  | _, _ => none

inductive ConfigFlaw where
  | blankKey
  | noComparison
  | noKey
  deriving DecidableEq, Repr

def ConfigFlaw.message : ConfigFlaw → String
  | blankKey => "names a blank configuration key"
  | noComparison => "names a configuration key without an equals or not-equals value"
  | noKey => "compares a configuration value without naming its key"

def configFlaw? (c : Condition) : Option ConfigFlaw :=
  let compares := c.equals.isSome || c.notEquals.isSome
  match c.configKey with
  | some key =>
    if trim key = "" then some .blankKey
    else if compares then none
    else some .noComparison
  | none => if compares then some .noKey else none

end Condition

namespace Check

def exclusions (s : Service) : List Finding :=
  (s.excluded.filter (· ∉ s.contracts)).map fun x =>
    .report .unnecessaryExclusion s.identity (.contract x)
      s!"'{s.identity.render}' excludes '{x.render}' from registration but does not implement it"
      s.location

def condition (s : Service) (c : Condition) : List Finding :=
  let subject := s.identity.render
  let key := c.configKey.getD ""
  (c.conflicts.map fun e =>
    .report .conditionalConflicting s.identity (.text s!"environment:{e}")
      s!"Conditional service '{subject}' both requires and excludes environment '{e}'"
      s.location) ++
  (c.contradiction.toList.map fun v =>
    .report .conditionalConflicting s.identity (.text s!"config:{key}")
      s!"Conditional service '{subject}' requires config '{key}' to both equal and not equal '{v}'"
      s.location) ++
  c.configFlaw?.toList.map fun flaw =>
    .report .conditionalMalformedConfig s.identity (.text s!"config:{key}")
      s!"Conditional service '{subject}' {flaw.message}"
      s.location

def conditions (s : Service) : List Finding :=
  (if s.isConditional && s.conditions.all Condition.isEmpty then
    [.report .conditionalEmpty s.identity .nothing
      s!"Conditional service '{s.identity.render}' has no condition and is always registered"
      s.location]
   else []) ++
  s.conditions.flatMap (condition s)

def declaration (s : Service) : List Finding := duplicates s ++ exclusions s ++ conditions s

def declarations (services : List Service) : List Finding := services.flatMap declaration

end Check

end Injection
