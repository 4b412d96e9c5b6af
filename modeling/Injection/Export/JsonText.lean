import Injection.Export.Text

/-!
# Diagrams in JSON

Objects and lists are spread over indented lines, an empty list is written `[]`.
-/
namespace Injection.Export

namespace JsonText

def escape (c : Char) : List Char :=
  match c with
  | '"' => ['\\', '"']
  | '\\' => ['\\', '\\']
  | '\n' => ['\\', 'n']
  | '\t' => ['\\', 't']
  | '\r' => ['\\', 'r']
  | '\x08' => ['\\', 'b']
  | '\x0c' => ['\\', 'f']
  | c =>
    if c.toNat < 0x20 then
      ['\\', 'u', '0', '0', Nat.digitChar (c.toNat / 16), Nat.digitChar (c.toNat % 16)]
    else [c]

def quote (s : String) : String := String.ofList ('"' :: s.toList.flatMap escape ++ ['"'])

/-- A comma after the last line of a block. -/
def comma : Block → Block
  | [] => []
  | [l] => [l ++ ","]
  | l :: ls => l :: comma ls

def separated : List Block → Block
  | [] => []
  | [b] => b
  | b :: bs => comma b ++ separated bs

def enclosed (first last : String) (parts : List Block) : Block :=
  if parts.isEmpty then [first ++ last]
  else first :: (separated parts).indent ++ [last]

def list (items : List Block) : Block := enclosed "[" "]" items

def object (fields : List (String × Block)) : Block :=
  enclosed "\x7b" "\x7d" (fields.map fun (key, b) => b.lead s!"{quote key}: ")

def text (s : String) : Block := [quote s]

def node (n : Node) : Block :=
  object
    [("id", text n.id), ("name", text n.name), ("lifetime", text (lifetimeTag n.lifetime)),
     ("is_external", [flagTag n.isExternal]), ("is_background", [flagTag n.isBackground]),
     ("contracts", list (n.contracts.map text))]

def arrow (a : Arrow) : Block :=
  object
    [("from", text a.source), ("to", text a.destination), ("contract", text a.contract),
     ("wrapping", text (wrappingTag a.wrapping)), ("in_cycle", [flagTag a.inCycle])]

end JsonText

def Diagram.json (d : Diagram) : String :=
  String.intercalate "\n" <| JsonText.object
    [("nodes", JsonText.list (d.nodes.map JsonText.node)),
     ("edges", JsonText.list (d.arrows.map JsonText.arrow)),
     ("metadata", JsonText.object (d.summary.fields.map fun (key, n) => (key, [toString n])))]

end Injection.Export
