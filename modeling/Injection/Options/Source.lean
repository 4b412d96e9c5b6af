import Injection.Options.Setting

/-!
# Sources of settings

A source lists its keys in increasing order and gives the value of a key. Options are read from a
table of properties or from the variables of a process environment.
-/
namespace Injection

open Injection.Text

structure Source where
  keys : List String
  get? : String → Option String

namespace Source

/-- Pairs as a table; of two pairs with one key the later one counts. -/
def table (pairs : List (String × String)) : List (String × String) :=
  pairs.foldl (fun t (key, value) => Sorted.put key value t) []

def ofProperties (properties : List (String × String)) : Source where
  keys := (table properties).map Prod.fst
  get? := fun key => (table properties).lookup key

/-- The name of the variable that holds a key. -/
def variableName (scope : Option String) (key : String) : String :=
  match scope with
  | some scope => s!"{uppercase scope}_{uppercase key}"
  | none => uppercase key

/-- The key that a variable gives rise to; with a scope only variables that start with it do. -/
def keyOf? (scope : Option String) (name : String) : Option String :=
  match scope with
  | some scope =>
    ((uppercase scope).toList ++ ['_']).isPrefixOf? name.toList |>.map fun rest =>
      lowercase (String.ofList rest)
  | none => some (lowercase name)

def ofEnvironment (scope : Option String) (environment : List (String × String)) : Source where
  keys := Sorted.sort ((table environment).filterMap fun (name, _) => keyOf? scope name)
  get? := fun key => (table environment).lookup (variableName scope key)

end Source

/-- The defaults changed by every key of the source that has a value. -/
def Options.ofSource (source : Source) : Options :=
  source.keys.foldl (fun o key =>
    match source.get? key with
    | some value => o.applyProperty key value
    | none => o) {}

end Injection
