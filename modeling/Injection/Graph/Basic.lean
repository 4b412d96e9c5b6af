import Injection.Options.Basic
import Injection.Registry.Basic

/-!
# The dependency graph

The nodes are the services that are not external. Every dependency that needs a registration is
unwrapped and resolved: it becomes one edge for each candidate that is not external, or, if nothing
is found, an unresolved dependency.
-/
namespace Injection

structure Edge where
  consumer : Identity
  provider : Identity
  target : Signature
  wrapping : Wrapping
  stage : Stage
  location : Option Location
  deriving DecidableEq, Repr

structure Unresolved where
  consumer : Identity
  target : Signature
  wrapping : Wrapping
  location : Option Location
  deriving DecidableEq, Repr

/-- What the dependencies of one service come to. -/
structure Links where
  edges : List Edge := []
  unresolved : List Unresolved := []
  deriving DecidableEq, Repr

namespace Links

def ofDependency (r : Registry) (o : Options) (consumer : Identity) (d : Dependency) :
    Except Fault Links :=
  let (target, wrapping) := o.unwrap d.wrapping d.target
  if o.isSupplied target then .ok {}
  else
    match r.resolve target with
    | .error fault => .error fault
    | .ok none => .ok { unresolved := [⟨consumer, target, wrapping, d.location⟩] }
    | .ok (some found) =>
      let candidates := found.candidates.filter fun c => !r.isExternal c
      .ok { edges := candidates.map fun c =>
              ⟨consumer, c, target, wrapping, found.stage, d.location⟩ }

/-- A fault at one dependency is a fault of the service. -/
def ofService (r : Registry) (o : Options) (s : Service) : Except Fault Links :=
  (s.dependencies.mapM (ofDependency r o s.identity)).map fun links =>
    { edges := (links.flatMap Links.edges).eraseDups
      unresolved := links.flatMap Links.unresolved }

end Links

structure Graph where
  nodes : List Identity := []
  /-- Each identity occurs at most once. -/
  adjacency : List (Identity × List Edge) := []
  unresolved : List Unresolved := []
  deriving DecidableEq, Repr

namespace Graph

/-- Sets the edges of a node in place of those it had. -/
def connect (adjacency : List (Identity × List Edge)) (i : Identity) (edges : List Edge) :
    List (Identity × List Edge) :=
  adjacency.filter (fun row => row.1 ≠ i) ++ [(i, edges)]

/-- Adds a service and what its dependencies come to. After a fault the service is a node, but none
of its dependencies count. -/
def add (g : Graph) (i : Identity) (links : Except Fault Links) : Graph :=
  match links with
  | .ok links =>
    { nodes := g.nodes ++ [i]
      adjacency := connect g.adjacency i links.edges
      unresolved := g.unresolved ++ links.unresolved }
  | .error _ => { g with nodes := g.nodes ++ [i] }

def build (r : Registry) (o : Options) (services : List Service) : Graph :=
  (services.filter fun s => !s.isExternal).foldl
    (fun g s => g.add s.identity (Links.ofService r o s)) {}

/-- Reports of the services whose dependencies could not be resolved because of a fault. -/
def buildFaults (r : Registry) (o : Options) (services : List Service) : List Finding :=
  (services.filter fun s => !s.isExternal).filterMap fun s =>
    match Links.ofService r o s with
    | .ok _ => none
    | .error fault => some (fault.finding s.identity "graph")

def edgesFrom (g : Graph) (i : Identity) : List Edge := (g.adjacency.lookup i).getD []

def edges (g : Graph) : List Edge := g.nodes.flatMap g.edgesFrom

def edgeCount (g : Graph) : Nat := g.adjacency.foldl (fun n row => n + row.2.length) 0

/-- The services that a service cannot do without. -/
def strongSuccessors (g : Graph) (i : Identity) : List Identity :=
  ((g.edgesFrom i).filter fun e => e.wrapping.isStrong).map Edge.provider

end Graph

end Injection
