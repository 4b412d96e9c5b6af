import Injection.Report

/-!
# Exported graphs

An exported graph holds the services of a report and the edges between them as texts, ready to be
drawn, with a summary in numbers.
-/
namespace Injection.Export

structure Node where
  id : String
  name : String
  lifetime : Lifetime
  isExternal : Bool
  isBackground : Bool
  contracts : List String
  deriving DecidableEq, Repr

structure Arrow where
  source : String
  destination : String
  contract : String
  wrapping : Wrapping
  inCycle : Bool
  deriving DecidableEq, Repr

structure Summary where
  declarations : Nat
  singletons : Nat
  perScope : Nat
  transients : Nat
  edges : Nat
  unresolved : Nat
  cycles : Nat
  errors : Nat
  warnings : Nat
  deriving DecidableEq, Repr

structure Diagram where
  nodes : List Node
  arrows : List Arrow
  summary : Summary
  deriving DecidableEq, Repr

/-- What a diagram shows. An empty list of names admits every type. -/
structure Scope where
  withExternals : Bool := true
  withCollections : Bool := true
  names : List String := []
  deriving DecidableEq, Repr

def Scope.admits (scope : Scope) (i : Identity) : Bool :=
  scope.names.isEmpty || decide (i.name ∈ scope.names)

def cyclePath? (f : Finding) : Option (List Identity) :=
  match f.kind, f.related with
  | .circularDependency, .cycle path => some path
  | _, _ => none

def Node.ofService (s : Service) : Node where
  id := s.identity.render
  name := s.identity.name
  lifetime := s.lifetime
  isExternal := s.isExternal
  isBackground := s.isBackground
  contracts := s.registered.map Signature.render

/-- An edge is in a cycle if it is strong and some reported cycle takes the same step. -/
def Arrow.ofEdge (steps : List (Identity × Identity)) (e : Edge) : Arrow where
  source := e.consumer.render
  destination := e.provider.render
  contract := e.target.render
  wrapping := e.wrapping
  inCycle := e.wrapping.isStrong && decide ((e.consumer, e.provider) ∈ steps)

namespace Diagram

def nodesOf (scope : Scope) (services : List Service) : List Node :=
  (services.filter fun s =>
    scope.admits s.identity && (!s.isExternal || scope.withExternals)).map Node.ofService

def edgesOf (scope : Scope) (g : Graph) : List Edge :=
  g.edges.filter fun e =>
    scope.admits e.consumer && scope.admits e.provider &&
      (scope.withCollections || e.wrapping.isStrong)

def ofReport (r : Report) (scope : Scope) : Diagram :=
  let cycles := r.findings.filterMap cyclePath?
  let nodes := nodesOf scope r.services
  let arrows := (edgesOf scope r.graph).map (Arrow.ofEdge (cycles.flatMap Graph.cycleSteps))
  let living lifetime := (nodes.filter fun n => n.lifetime = lifetime).length
  { nodes
    arrows
    summary :=
      { declarations := nodes.length
        singletons := living .singleton
        perScope := living .perScope
        transients := living .transient
        edges := arrows.length
        unresolved := r.graph.unresolved.length
        cycles := cycles.length
        errors := r.count .error
        warnings := r.count .warning } }

end Diagram

end Injection.Export
