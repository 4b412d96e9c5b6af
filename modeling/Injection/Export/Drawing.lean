import Injection.Export.Text

/-!
# Drawing languages

Diagrams in the languages of Graphviz and Mermaid.
-/
namespace Injection.Export

namespace Node

def fillColor (n : Node) : String :=
  match n.lifetime with
  | .singleton => "lightblue"
  | .perScope => "lightgreen"
  | .transient => "lightyellow"

def dotLine (n : Node) : String :=
  let style := if n.isExternal then "\"filled,dashed\"" else "filled"
  s!"  \"{n.id}\" [label=\"{n.id}\\n({n.lifetime.render})\", fillcolor={n.fillColor}, " ++
    s!"style={style}];"

end Node

namespace Arrow

def dotLine (a : Arrow) : String :=
  let style := match a.wrapping with
    | .direct => "solid"
    | .deferred => "dashed"
    | .collection => "bold"
  let color := if a.inCycle then ", color=red" else ""
  s!"  \"{a.source}\" -> \"{a.destination}\" [label=\"{a.contract}\", style={style}{color}];"

def mermaidShaft (a : Arrow) : String :=
  match a.wrapping with
  | .direct => "-->"
  | .deferred => "-.->"
  | .collection => "==>"

end Arrow

/-- Mermaid names hold ASCII letters and digits; every other character becomes `_`. -/
def mermaidName (id : String) : String :=
  String.ofList (id.toList.map fun c => if c.isAlphanum then c else '_')

namespace Diagram

def dot (d : Diagram) : String :=
  Block.text (["digraph DependencyGraph \x7b", "  rankdir=TB;", "  node [shape=box];", ""] ++
    d.nodes.map Node.dotLine ++ [""] ++ d.arrows.map Arrow.dotLine ++ ["\x7d"])

def mermaid (d : Diagram) : String :=
  Block.text (["graph TD"] ++
    (d.nodes.map fun n => s!"  {mermaidName n.id}[\"{n.id}\"]") ++
    (d.arrows.map fun a =>
      s!"  {mermaidName a.source} {a.mermaidShaft} {mermaidName a.destination}") ++
    ["", "  classDef singleton fill:#e1f5fe", "  classDef scoped fill:#e8f5e8",
     "  classDef transient fill:#fff3e0"] ++
    d.nodes.map fun n => s!"  class {mermaidName n.id} {n.lifetime.render}")

end Diagram

end Injection.Export
