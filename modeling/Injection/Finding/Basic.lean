import Injection.Finding.Kind
import Injection.Identity
import Injection.Signature.Basic

/-!
# Findings

A finding reports one problem with a declaration. Two findings of the same kind about the same
declaration and the same related thing report the same problem.

A resolver supplied from outside may fail instead of answering. While one declaration is analysed,
such a fault becomes a finding about that declaration, and the analysis of the others goes on.
-/
namespace Injection

/-- What a finding is about, besides its subject. -/
inductive Related where
  | nothing
  | identity (identity : Identity)
  | contract (contract : Signature)
  | cycle (path : List Identity)
  | text (text : String)
  deriving DecidableEq, Repr

def renderPath (path : List Identity) : String :=
  String.intercalate " -> " (path.map Identity.render)

def Related.render : Related → String
  | nothing => ""
  | identity i => i.render
  | contract s => s.render
  | cycle path => renderPath path
  | text t => t

structure Finding where
  kind : Kind
  severity : Severity
  subject : Identity
  related : Related
  location : Option Location
  message : String
  deriving DecidableEq, Repr

namespace Finding

/-- A finding with the default severity of its kind. -/
def report (kind : Kind) (subject : Identity) (related : Related) (message : String)
    (location : Option Location := none) : Finding :=
  { kind, severity := kind.defaultSeverity, subject, related, location, message }

def render (f : Finding) : String :=
  let place := match f.location with
    | some l => s!"{l.render}: "
    | none => ""
  s!"{place}{f.severity.render} {f.kind.code}: {f.message}"

/-- What makes two findings report the same problem. -/
def problem (f : Finding) : Kind × Identity × Related := (f.kind, f.subject, f.related)

end Finding

/-- How a resolver failed. -/
inductive Fault where
  | described (text : String)
  | undescribed
  deriving DecidableEq, Repr

namespace Fault

def message : Fault → String
  | described text => text
  | undescribed => "unknown panic payload"

/-- The finding about a declaration whose analysis in the given stage failed. -/
def finding (fault : Fault) (subject : Identity) (stage : String) : Finding :=
  .report .internalError subject (.text stage)
    s!"Internal error while verifying {subject.render}: {fault.message}"

end Fault

end Injection
