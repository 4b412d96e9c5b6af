import Injection.Graph.Cycle

/-!
# Unresolved and circular dependencies

A dependency that resolves to no service is reported, unless it asks for a collection, which may be
empty. The report says whether a plain class would implement it. Every cycle is reported once, about
its least service.
-/
namespace Injection.Check

def missing (u : Unresolved) : Finding :=
  .report .noImplementation u.consumer (.contract u.target)
    s!"No registered implementation of '{u.target.render}' found for '{u.consumer.render}'"
    u.location

def unregistered (u : Unresolved) (implementers : List Identity) : Finding :=
  let names := String.intercalate "', '" (implementers.map Identity.render)
  .report .implementationUnregistered u.consumer (.contract u.target)
    s!"'{names}' implements '{u.target.render}' but is not registered as a service"
    u.location

def unresolved (r : Registry) (u : Unresolved) : Except Fault Finding :=
  match r.resolveUnregistered u.target with
  | .error fault => .error fault
  | .ok none => .ok (missing u)
  | .ok (some found) => .ok (unregistered u found.candidates)

/-- A fault of the fallback is not tied to a declaration here, so it stops the check. -/
def resolution (r : Registry) (g : Graph) : Except Fault (List Finding) :=
  (g.unresolved.filter fun u => u.wrapping.isStrong).mapM (unresolved r)

/-- A report is placed where the first service of the cycle asks for the second. -/
def cycle (g : Graph) : List Identity → List Finding
  | [] => []
  | first :: rest =>
    let second := rest.head?.getD first
    let edge := (g.edgesFrom first).find? fun e => e.wrapping.isStrong && e.provider = second
    [.report .circularDependency first (.cycle (first :: rest))
      s!"Circular dependency detected: {renderPath (first :: rest ++ [first])}"
      (edge.bind Edge.location)]

def cycles (g : Graph) : List Finding := g.cycles.flatMap (cycle g)

end Injection.Check
