import Injection.Check.Declarations
import Injection.Check.Graph
import Injection.Check.Lifetimes

/-!
# Reports

Verification runs its phases over a snapshot, merges what they found and keeps a log of the phases.
-/
namespace Injection

/-! ## Merging findings -/

namespace Finding

/-- Findings that report a new problem: of those that report the same one the first stays. -/
def distinct (seen : List (Kind × Identity × Related)) : List Finding → List Finding
  | [] => []
  | f :: fs => if f.problem ∈ seen then distinct seen fs else f :: distinct (f.problem :: seen) fs

/-- The position of the subject among the declarations, after all of them if it is not there. Of
two positions the later one counts. -/
def place (order : List Identity) (f : Finding) : Nat :=
  (order.zipIdx.reverse.lookup f.subject).getD order.length

/-- By declaration, then by code, then by what else the finding is about, then by message. -/
def compareIn (order : List Identity) (a b : Finding) : Ordering :=
  (compare (a.place order) (b.place order)).then <|
    (compare a.subject b.subject).then <|
      (compare a.kind.code b.kind.code).then <|
        (compare a.related.render b.related.render).then (compare a.message b.message)

/-- The findings to show, out of those that the phases made one after the other. -/
def merge (o : Options) (order : List Identity) (buffers : List (List Finding)) : List Finding :=
  if o.reporting then
    let enabled := buffers.flatten.filter fun f => !o.isDisabled f.kind
    let graded := (distinct [] enabled).map fun f => { f with severity := o.severityOf f.kind }
    Sorted.sortBy (fun a b => (compareIn order a b).isLE) graded
  else []

end Finding

/-! ## Phases -/

inductive Phase where
  | collect
  | registry
  | graph
  | rules
  | cycles
  | lifetimes
  | merge
  deriving DecidableEq, Repr

def Phase.render : Phase → String
  | collect => "collect"
  | registry => "registry"
  | graph => "graph"
  | rules => "rules"
  | cycles => "cycles"
  | lifetimes => "lifetimes"
  | merge => "emit"

inductive Event where
  | started (phase : Phase)
  | fault (phase : Phase) (subject : Identity) (message : String)
  | finished (phase : Phase) (findings : Nat)
  deriving DecidableEq, Repr

namespace Event

def render : Event → String
  | started phase => s!"start {phase.render}"
  | fault phase subject message => s!"fault {phase.render} {subject.render}: {message}"
  | finished phase findings => s!"finish {phase.render} {findings}"

/-- The log of a phase with the given findings. -/
def ofPhase (phase : Phase) (findings : List Finding) : List Event :=
  started phase ::
    ((findings.filter fun f => f.kind = .internalError).map fun f =>
      fault phase f.subject f.message) ++
    [finished phase findings.length]

end Event

/-! ## Verification -/

structure Report where
  services : List Service
  catalogue : Catalogue
  registry : Registry
  graph : Graph
  findings : List Finding
  events : List Event

/-- Why there is no report. -/
inductive Interruption where
  /-- The contracts of a type were not all found in the given number of steps. -/
  | outOfFuel
  | fault (fault : Fault)
  deriving DecidableEq, Repr

namespace Report

/-- A supplied fallback is used only where guessing is allowed. -/
def chooseFallback (o : Options) (supplied : Option Fallback) : Fallback :=
  if o.heuristic then supplied.getD .sameShape else .none

/-- The report on a snapshot, given its registry and the findings on unresolved dependencies. -/
def assemble (o : Options) (snapshot : Snapshot) (registry : Registry)
    (resolution : List Finding) : Report :=
  let services := snapshot.services
  let graph := Graph.build registry o services
  let faults := Graph.buildFaults registry o services
  let rules := resolution ++ Check.declarations services
  let cycles := Check.cycles graph
  let lifetimes := Check.lifetimes registry o services snapshot.catalogue graph
  let findings := Finding.merge o (services.map Service.identity)
    [snapshot.findings, faults, rules, cycles, lifetimes]
  let events :=
    Event.ofPhase .collect snapshot.findings ++ Event.ofPhase .registry [] ++
    Event.ofPhase .graph faults ++ Event.ofPhase .rules rules ++ Event.ofPhase .cycles cycles ++
    Event.ofPhase .lifetimes lifetimes ++ Event.ofPhase .merge []
  { services, catalogue := snapshot.catalogue, registry, graph, findings, events }

def ofSnapshot (fuel : Nat) (o : Options) (supplied : Option Fallback) (snapshot : Snapshot) :
    Except Interruption Report :=
  match Registry.build fuel (chooseFallback o supplied) snapshot.services snapshot.catalogue with
  | none => .error .outOfFuel
  | some registry =>
    match Check.resolution registry (Graph.build registry o snapshot.services) with
    | .error fault => .error (.fault fault)
    | .ok resolution => .ok (assemble o snapshot registry resolution)

/-- Verifies a list of declaration fragments. -/
def verify (fuel : Nat) (o : Options) (supplied : Option Fallback) (fragments : List Fragment) :
    Except Interruption Report :=
  match Snapshot.collect fuel fragments with
  | some snapshot => ofSnapshot fuel o supplied snapshot
  | none => .error .outOfFuel

/-- Verifies services that are already put together. -/
def verifyServices (fuel : Nat) (o : Options) (supplied : Option Fallback)
    (services : List Service) : Except Interruption Report :=
  ofSnapshot fuel o supplied (.ofServices services)

def count (r : Report) (severity : Severity) : Nat :=
  (r.findings.filter fun f => f.severity = severity).length

def hasErrors (r : Report) : Bool := r.findings.any fun f => f.severity = .error

end Report

end Injection
