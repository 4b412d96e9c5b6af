import Injection.Graph.Basic

/-!
# Lifetimes

A background service must be a singleton. A singleton must not hold a service that lives shorter,
neither through its own dependencies nor through those it inherits, and must not inherit from a
service that is no singleton. Where candidates of a dependency were only guessed, the first of them
counts.
-/
namespace Injection.Check

def background (s : Service) : List Finding :=
  if s.isBackground && s.lifetime ≠ .singleton && !s.anyBackgroundLifetime then
    [.report .backgroundLifetime s.identity .nothing
      (s!"Background service '{s.identity.render}' is registered as {s.lifetime.render} " ++
        "but must be a singleton")
      s.location]
  else []

/-- A report if the service captures a dependency of shorter life. A transient one that comes from
a base type is not reported. -/
def captive (r : Registry) (s : Service) (dependency : Identity) (location : Option Location)
    (inherited : Bool) : Option Finding :=
  let note := if inherited then " (dependency inherited from a base type)" else ""
  let consumer := s.identity.render
  match (r.lifetime? dependency).map s.lifetime.capture with
  | some .perScope =>
    some <| .report .singletonOnScoped s.identity (.identity dependency)
      s!"Singleton service '{consumer}' cannot depend on scoped service '{dependency.render}'{note}"
      location
  | some .transient =>
    if inherited then none
    else some <| .report .singletonOnTransient s.identity (.identity dependency)
      (s!"Singleton '{consumer}' depends on transient '{dependency.render}' " ++
        "and will always get the same instance")
      location
  | some .none | none => none

/-- Leaves out guessed edges whose target was `guessed` before. -/
def countedEdges (guessed : List Signature) : List Edge → List Edge
  | [] => []
  | e :: es =>
    if e.stage = .fallback then
      if e.target ∈ guessed then countedEdges guessed es
      else e :: countedEdges (e.target :: guessed) es
    else e :: countedEdges guessed es

def ownCaptives (r : Registry) (g : Graph) (s : Service) : List Finding :=
  (countedEdges [] (g.edgesFrom s.identity)).filterMap fun e =>
    captive r s e.provider e.location false

/-- The candidates that count for a dependency seen through the bindings of an ancestor. -/
def inheritedCandidates (r : Registry) (o : Options) (σ : Signature.Bindings) (d : Dependency) :
    Except Fault (List Identity) :=
  let target := (o.unwrap d.wrapping (d.target.subst σ)).1
  if o.isSupplied target then .ok []
  else
    match r.resolve target with
    | .error fault => .error fault
    | .ok none => .ok []
    | .ok (some found) =>
      let candidates := found.candidates.filter fun c => !r.isExternal c
      .ok (if found.stage = .fallback then candidates.take 1 else candidates)

def inheritedCaptives (r : Registry) (o : Options) (s : Service) (σ : Signature.Bindings)
    (d : Dependency) : Except Fault (List Finding) :=
  (inheritedCandidates r o σ d).map fun candidates =>
    candidates.filterMap fun c => captive r s c d.location true

/-- The service with an identity; of two the later one counts. -/
def serviceAt? (services : List Service) (i : Identity) : Option Service :=
  services.reverse.find? fun s => s.identity = i

def inheritedLifetime (r : Registry) (s : Service) (i : Identity) : List Finding :=
  match r.lifetime? i with
  | some lifetime =>
    if lifetime = .singleton then []
    else
      [.report .inheritedLifetime s.identity (.identity i)
        s!"Singleton '{s.identity.render}' inherits from {lifetime.render} service '{i.render}'"
        s.location]
  | none => []

/-- What a singleton takes over from one of its ancestors. External ancestors are not looked at. -/
def ancestor (r : Registry) (o : Options) (services : List Service) (s : Service) (a : Ancestor) :
    Except Fault (List Finding) :=
  let i := a.entry.identity
  if r.isExternal i then .ok []
  else
    let dependencies := ((serviceAt? services i).map Service.dependencies).getD []
    (dependencies.mapM (inheritedCaptives r o s a.bindings)).map fun captives =>
      inheritedLifetime r s i ++ captives.flatten

def serviceLifetimes (r : Registry) (o : Options) (services : List Service) (c : Catalogue)
    (g : Graph) (s : Service) : Except Fault (List Finding) :=
  if s.lifetime = .singleton then
    ((c.ancestors s.identity).mapM (ancestor r o services s)).map fun inherited =>
      background s ++ ownCaptives r g s ++ inherited.flatten
  else .ok (background s)

/-- A service at which the fallback fails is reported with that fault and with nothing else. -/
def lifetimes (r : Registry) (o : Options) (services : List Service) (c : Catalogue) (g : Graph) :
    List Finding :=
  if o.checkLifetimes then
    (services.filter fun s => !s.isExternal).flatMap fun s =>
      match serviceLifetimes r o services c g s with
      | .ok found => found
      | .error fault => [fault.finding s.identity "lifetimes"]
  else []

end Injection.Check
