import Injection.Finding.Severity

/-!
# Kinds of findings

Each kind has a stable code, a hyphenated name and a title in one word; settings may refer to it by
any of the three.
-/
namespace Injection

open Injection.Text

inductive Kind where
  | noImplementation
  | implementationUnregistered
  | duplicateDependency
  | conflictingStyles
  | duplicateWithinList
  | unnecessaryExclusion
  | circularDependency
  | singletonOnScoped
  | singletonOnTransient
  | backgroundLifetime
  | inheritedLifetime
  | conditionalEmpty
  | conditionalConflicting
  | conditionalMalformedConfig
  | malformedSignature
  | internalError
  deriving DecidableEq, Repr, Inhabited, Ord

namespace Kind

def all : List Kind :=
  [noImplementation, implementationUnregistered, duplicateDependency, conflictingStyles,
   duplicateWithinList, unnecessaryExclusion, circularDependency, singletonOnScoped,
   singletonOnTransient, backgroundLifetime, inheritedLifetime, conditionalEmpty,
   conditionalConflicting, conditionalMalformedConfig, malformedSignature, internalError]

def code : Kind → String
  | noImplementation => "FDV001"
  | implementationUnregistered => "FDV002"
  | duplicateDependency => "FDV003"
  | conflictingStyles => "FDV004"
  | duplicateWithinList => "FDV005"
  | unnecessaryExclusion => "FDV006"
  | circularDependency => "FDV007"
  | singletonOnScoped => "FDV008"
  | singletonOnTransient => "FDV009"
  | backgroundLifetime => "FDV010"
  | inheritedLifetime => "FDV011"
  | conditionalEmpty => "FDV012"
  | conditionalConflicting => "FDV013"
  | conditionalMalformedConfig => "FDV014"
  | malformedSignature => "FDV015"
  | internalError => "FDV099"

def name : Kind → String
  | noImplementation => "no-implementation"
  | implementationUnregistered => "implementation-unregistered"
  | duplicateDependency => "duplicate-dependency-declaration"
  | conflictingStyles => "conflicting-declaration-styles"
  | duplicateWithinList => "duplicate-within-one-declaration"
  | unnecessaryExclusion => "unnecessary-exclusion-marker"
  | circularDependency => "circular-dependency"
  | singletonOnScoped => "singleton-depends-on-scoped"
  | singletonOnTransient => "singleton-depends-on-transient"
  | backgroundLifetime => "background-service-wrong-lifetime"
  | inheritedLifetime => "inheritance-chain-lifetime-violation"
  | conditionalEmpty => "conditional-empty"
  | conditionalConflicting => "conditional-conflicting"
  | conditionalMalformedConfig => "conditional-malformed-config"
  | malformedSignature => "malformed-signature"
  | internalError => "internal-error"

def title : Kind → String
  | noImplementation => "NoImplementation"
  | implementationUnregistered => "ImplementationUnregistered"
  | duplicateDependency => "DuplicateDependency"
  | conflictingStyles => "ConflictingDeclarationStyles"
  | duplicateWithinList => "DuplicateWithinDeclaration"
  | unnecessaryExclusion => "UnnecessaryExclusion"
  | circularDependency => "CircularDependency"
  | singletonOnScoped => "SingletonDependsOnScoped"
  | singletonOnTransient => "SingletonDependsOnTransient"
  | backgroundLifetime => "BackgroundServiceWrongLifetime"
  | inheritedLifetime => "InheritanceChainLifetimeViolation"
  | conditionalEmpty => "ConditionalEmpty"
  | conditionalConflicting => "ConditionalConflicting"
  | conditionalMalformedConfig => "ConditionalMalformedConfig"
  | malformedSignature => "MalformedSignature"
  | internalError => "InternalError"

def defaultSeverity : Kind → Severity
  | noImplementation | implementationUnregistered | duplicateDependency | duplicateWithinList
  | unnecessaryExclusion | singletonOnTransient | conditionalEmpty => .warning
  | _ => .error

/-- Kinds that concern lifetimes. -/
def isLifetimeKind : Kind → Bool
  | singletonOnScoped | singletonOnTransient | backgroundLifetime | inheritedLifetime => true
  | _ => false

/-- A trimmed text that names no kind. -/
structure Unknown where
  text : String
  deriving DecidableEq, Repr

def Unknown.message (u : Unknown) : String := s!"unknown diagnostic kind '{u.text}'"

/-- The text is the code, the name or the title of the kind, up to ASCII case. -/
def isCalled (kind : Kind) (text : String) : Bool :=
  [kind.code, kind.name, kind.title].any fun word => eqIgnoringAsciiCase word text

def parse (text : String) : Except Unknown Kind :=
  match all.find? fun kind => kind.isCalled (trim text) with
  | some kind => .ok kind
  | none => .error ⟨trim text⟩

end Kind

end Injection
