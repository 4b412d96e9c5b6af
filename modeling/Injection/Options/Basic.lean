import Injection.Dependency
import Injection.Finding.Kind
import Injection.Sorted

/-!
# Options

Options say what is reported and how severely, which types the host framework supplies, and which
generic types merely wrap a dependency.
-/
namespace Injection

structure Options where
  reporting : Bool := true
  checkLifetimes : Bool := true
  noImplementation : Severity := .warning
  unregistered : Severity := .warning
  lifetimes : Severity := .error
  /-- Severities of single kinds, which win over all others. -/
  overrides : List (Kind × Severity) := []
  disabled : List Kind := []
  frameworkTypes : List String := Sorted.ofList
    ["ILogger", "ILoggerFactory", "IConfiguration", "IServiceProvider", "IServiceScopeFactory",
     "IHostEnvironment", "IWebHostEnvironment", "IHostApplicationLifetime", "IOptions",
     "IOptionsSnapshot", "IOptionsMonitor", "IHttpClientFactory", "HttpClient",
     "CancellationToken", "TimeProvider", "object", "string", "bool", "int", "long", "double",
     "decimal", "Guid", "TimeSpan", "DateTime"]
  collectionWrappers : List String := Sorted.ofList
    ["IEnumerable", "IReadOnlyList", "IReadOnlyCollection", "IList", "ICollection", "List",
     Signature.arrayHead]
  deferredWrappers : List String := Sorted.ofList ["Lazy", "Func"]
  /-- Guess implementations of closed generic types by name and arity. -/
  heuristic : Bool := true
  parallel : Bool := true
  deriving DecidableEq, Repr, Inhabited

namespace Options

def severityOf (o : Options) (kind : Kind) : Severity :=
  match o.overrides.lookup kind with
  | some severity => severity
  | none =>
    match kind with
    | .noImplementation => o.noImplementation
    | .implementationUnregistered => o.unregistered
    | .singletonOnScoped | .backgroundLifetime | .inheritedLifetime => o.lifetimes
    | .singletonOnTransient => kind.defaultSeverity.milder o.lifetimes
    | _ => kind.defaultSeverity

def isDisabled (o : Options) (kind : Kind) : Bool := decide (kind ∈ o.disabled)

def withSeverity (o : Options) (kind : Kind) (severity : Severity) : Options :=
  { o with overrides := Sorted.put kind severity o.overrides }

def disabling (o : Options) (kinds : List Kind) : Options :=
  { o with disabled := Sorted.insertAll kinds o.disabled }

def addingFrameworkTypes (o : Options) (names : List String) : Options :=
  { o with frameworkTypes := Sorted.insertAll names o.frameworkTypes }

def addingCollectionWrappers (o : Options) (names : List String) : Options :=
  { o with collectionWrappers := Sorted.insertAll names o.collectionWrappers }

def addingDeferredWrappers (o : Options) (names : List String) : Options :=
  { o with deferredWrappers := Sorted.insertAll names o.deferredWrappers }

/-- A name is listed in full or by its last part. -/
def isListed (names : List String) (name : String) : Bool :=
  decide (name ∈ names) || decide (Signature.simpleName name ∈ names)

def isFrameworkType (o : Options) (s : Signature) : Bool := isListed o.frameworkTypes s.headName

def isCollectionWrapper (o : Options) (s : Signature) : Bool :=
  s.arity == 1 && isListed o.collectionWrappers s.headName

def isDeferredWrapper (o : Options) (s : Signature) : Bool :=
  s.arity == 1 && isListed o.deferredWrappers s.headName

/-- The type inside all wrappers, and the wrapping that results. Where a name is listed as both,
it counts as a deferred wrapper. -/
def unwrap (o : Options) (w : Wrapping) : Signature → Signature × Wrapping
  | .app head [inner] =>
    if isListed o.deferredWrappers head then unwrap o (w.combine .deferred) inner
    else if isListed o.collectionWrappers head then unwrap o (w.combine .collection) inner
    else (.app head [inner], w)
  | s => (s, w)

/-- Type parameters and framework types need no registration. -/
def isSupplied (o : Options) (s : Signature) : Bool :=
  match s with
  | .param _ => true
  | _ => o.isFrameworkType s

end Options

end Injection
