import Injection.Json.Value
import Injection.Options.Basic

/-!
# Options from JSON documents

A document is an object with one field per option, or a list of the options in a fixed order.
Options that a document leaves out keep their defaults, and fields that name no option are ignored.
The first mistake in a document decides how it fails.
-/
namespace Injection.Options

inductive DocumentError where
  | unknownKind (unknown : Kind.Unknown)
  | unreadable
  deriving DecidableEq, Repr

/-- The text of the error, where it does not depend on how documents are written. -/
def DocumentError.message? : DocumentError → Option String
  | unknownKind unknown => some s!"Invalid configuration: {unknown.message}"
  | unreadable => none

abbrev Decoded := Except DocumentError

namespace Document

def bool : Json → Decoded Bool
  | .bool b => .ok b
  | _ => .error .unreadable

def content : Option String → Decoded String
  | some s => .ok s
  | none => .error .unreadable

def text : Json → Decoded String
  | .text s => content s
  | _ => .error .unreadable

def severity (v : Json) : Decoded Severity := (text v).map Severity.parseLenient

def kind (s : String) : Decoded Kind :=
  match Kind.parse s with
  | .ok kind => .ok kind
  | .error unknown => .error (.unknownKind unknown)

/-- The items of a list, each read in turn before the end of the list is looked at. -/
def listOf {α : Type} (item : Json → Decoded α) : Json → Decoded (List α)
  | .list items closed => do
    let values ← items.mapM item
    if closed then return values else throw .unreadable
  | _ => .error .unreadable

def overrides : Json → Decoded (List (Kind × Severity))
  | .object fields closed => do
    let pairs ← fields.mapM fun (key, v) => do
      let kind ← kind (← content key)
      return (kind, ← severity v)
    if closed then return pairs.foldl (fun t (k, s) => Sorted.put k s t) []
    else throw .unreadable
  | _ => .error .unreadable

/-- The options in the order of a list document, with the names they have in an object. -/
def fields : List (String × (Options → Json → Decoded Options)) :=
  [("DiagnosticsEnabled", fun o v => do return { o with reporting := ← bool v }),
   ("LifetimeValidationEnabled", fun o v => do return { o with checkLifetimes := ← bool v }),
   ("NoImplementationSeverity", fun o v => do return { o with noImplementation := ← severity v }),
   ("UnregisteredImplementationSeverity", fun o v => do
      return { o with unregistered := ← severity v }),
   ("LifetimeValidationSeverity", fun o v => do return { o with lifetimes := ← severity v }),
   ("SeverityOverrides", fun o v => do return { o with overrides := ← overrides v }),
   ("DisabledKinds", fun o v => do
      return { o with disabled := Sorted.ofList (← listOf (fun v => text v >>= kind) v) }),
   ("FrameworkTypes", fun o v => do
      return { o with frameworkTypes := Sorted.ofList (← listOf text v) }),
   ("CollectionWrappers", fun o v => do
      return { o with collectionWrappers := Sorted.ofList (← listOf text v) }),
   ("DeferredWrappers", fun o v => do
      return { o with deferredWrappers := Sorted.ofList (← listOf text v) }),
   ("HeuristicFallback", fun o v => do return { o with heuristic := ← bool v }),
   ("Parallel", fun o v => do return { o with parallel := ← bool v })]

/-- Reads the fields of an object; none of the options may be `given` twice. -/
def readObject (given : List String) (o : Options) :
    List (Option String × Json) → Decoded Options
  | [] => .ok o
  | (key, v) :: rest => do
    let name ← content key
    match fields.lookup name with
    | none => readObject given o rest
    | some read =>
      if name ∈ given then throw .unreadable
      else readObject (name :: given) (← read o v) rest

def readList (o : Options) :
    List (String × (Options → Json → Decoded Options)) → List Json → Decoded Options
  | _, [] => .ok o
  | [], _ :: _ => .error .unreadable
  | (_, read) :: fields, v :: vs => do readList (← read o v) fields vs

end Document

def ofJson (document : String) : Decoded Options := do
  let (value, complete) := Json.read document
  let o ← match value with
    | .object fields _ => Document.readObject [] {} fields
    | .list items _ => Document.readList {} Document.fields items
    | _ => throw .unreadable
  if complete then return o else throw .unreadable

end Injection.Options
