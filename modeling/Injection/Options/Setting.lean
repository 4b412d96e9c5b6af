import Injection.Options.Basic
import Injection.Text.Basic
import Injection.Text.Case

/-!
# Settings

Options can be set one by one from pairs of texts. Case and the separators `_`, `-`, `.` in a key
do not matter, keys that name no setting are ignored, and so are values that make no sense, except
that any severity that cannot be read means a warning.
-/
namespace Injection

open Injection.Text

inductive Setting where
  | reporting
  | noReporting
  | checkLifetimes
  | skipLifetimes
  | noImplementation
  | unregistered
  | lifetimes
  | disabled
  | frameworkTypes
  | collectionWrappers
  | deferredWrappers
  | heuristic
  | parallel
  | severity (kind : Kind)
  deriving DecidableEq, Repr

namespace Setting

def isSeparator (c : Char) : Bool := c == '_' || c == '-' || c == '.'

def normalizeKey (key : String) : String :=
  String.ofList ((key.toList.filter fun c => !isSeparator c).flatMap lowerChar)

/-- A key `severity` followed by the code or the title of a kind. -/
def severityKey? (key : String) : Option Setting :=
  match "severity".toList.isPrefixOf? key.toList with
  | some kind => (Kind.parse (String.ofList kind)).toOption.map severity
  | none => none

def ofKey? (key : String) : Option Setting :=
  match normalizeKey key with
  | "diagnosticsenabled" => some reporting
  | "disablediagnostics" => some noReporting
  | "lifetimevalidationenabled" => some checkLifetimes
  | "disablelifetimevalidation" => some skipLifetimes
  | "noimplementationseverity" => some noImplementation
  | "unregisteredimplementationseverity" => some unregistered
  | "lifetimevalidationseverity" => some lifetimes
  | "disabledkinds" | "disableddiagnostics" => some disabled
  | "frameworktypes" => some frameworkTypes
  | "collectionwrappers" => some collectionWrappers
  | "deferredwrappers" => some deferredWrappers
  | "heuristicfallback" => some heuristic
  | "parallel" => some parallel
  | other => severityKey? other

def parseBool? (value : String) : Option Bool :=
  match asciiLower (trim value) with
  | "true" | "1" | "yes" | "on" => some true
  | "false" | "0" | "no" | "off" => some false
  | _ => none

def parseList (value : String) : List String := items (fun c => c == ',' || c == ';') value

end Setting

namespace Options

open Setting

def set (o : Options) (setting : Setting) (value : String) : Options :=
  match setting with
  | .reporting => { o with reporting := (parseBool? value).getD o.reporting }
  | .noReporting => { o with reporting := ((parseBool? value).map not).getD o.reporting }
  | .checkLifetimes => { o with checkLifetimes := (parseBool? value).getD o.checkLifetimes }
  | .skipLifetimes =>
    { o with checkLifetimes := ((parseBool? value).map not).getD o.checkLifetimes }
  | .noImplementation => { o with noImplementation := .parseLenient value }
  | .unregistered => { o with unregistered := .parseLenient value }
  | .lifetimes => { o with lifetimes := .parseLenient value }
  | .disabled => o.disabling ((parseList value).filterMap fun item => (Kind.parse item).toOption)
  | .frameworkTypes => o.addingFrameworkTypes (parseList value)
  | .collectionWrappers => o.addingCollectionWrappers (parseList value)
  | .deferredWrappers => o.addingDeferredWrappers (parseList value)
  | .heuristic => { o with heuristic := (parseBool? value).getD o.heuristic }
  | .parallel => { o with parallel := (parseBool? value).getD o.parallel }
  | .severity kind => o.withSeverity kind (.parseLenient value)

def applyProperty (o : Options) (key value : String) : Options :=
  match Setting.ofKey? key with
  | some setting => o.set setting value
  | none => o

/-- The defaults changed by properties in order. -/
def ofProperties (properties : List (String × String)) : Options :=
  properties.foldl (fun o (key, value) => o.applyProperty key value) {}

end Options

end Injection
