import Injection.Export.Text
import Injection.Text.Basic

/-!
# Diagrams in YAML

Block style: the items of a list stand at the indentation of its key. A text is written as it is if
it can be read back as that text. Otherwise it stands between single quotes, or between double
quotes if it has characters that must be escaped. A text of several lines is written as a block,
unless blanks at the end of a line would be lost.
-/
namespace Injection.Export

namespace YamlText

/-! ## Texts -/

def isBreak (c : Char) : Bool := c ∈ ['\n', '\r', '\u0085', '\u2028', '\u2029']

/-- The character may stand within a line. -/
def isVisible (c : Char) : Bool :=
  Text.inRanges [(0x20, 0x7E), (0xA0, 0xD7FF), (0xE000, 0xFEFE), (0xFF00, 0xFFFD)] c.toNat &&
    !isBreak c

def unsigned : List Char → List Char
  | '+' :: cs | '-' :: cs => cs
  | cs => cs

def areDigits (isDigit : Char → Bool) (cs : List Char) : Bool := !cs.isEmpty && cs.all isDigit

def isExponent : List Char → Bool
  | [] => true
  | c :: cs => (c = 'e' || c = 'E') && areDigits Char.isDigit (unsigned cs)

def isDecimal (cs : List Char) : Bool :=
  let whole := cs.takeWhile Char.isDigit
  match cs.dropWhile Char.isDigit with
  | '.' :: rest =>
    !(whole ++ rest.takeWhile Char.isDigit).isEmpty && isExponent (rest.dropWhile Char.isDigit)
  | rest => !whole.isEmpty && isExponent rest

def isHexDigit (c : Char) : Bool := c.isDigit || ('a' ≤ c && c ≤ 'f') || ('A' ≤ c && c ≤ 'F')

/-- A number with an optional sign, decimal or to one of the bases 16, 8 and 2. -/
def isNumber (cs : List Char) : Bool :=
  match unsigned cs with
  | '0' :: 'x' :: digits => areDigits isHexDigit digits
  | '0' :: 'o' :: digits => areDigits (fun c => '0' ≤ c && c ≤ '7') digits
  | '0' :: 'b' :: digits => areDigits (fun c => c = '0' || c = '1') digits
  | digits => isDecimal digits || String.ofList digits ∈ [".inf", ".Inf", ".INF"]

/-- Texts that denote nothing, a truth value, or what is not a number. -/
def reserved : List String :=
  ["", "~", "null", "Null", "NULL", "true", "True", "TRUE", "false", "False", "FALSE",
   ".nan", ".NaN", ".NAN"]

/-- A blank, the end of a line or the end of the text. -/
def isGap : Option Char → Bool
  | some c => c = ' ' || c = '\t' || isBreak c
  | none => true

/-- A colon before a gap would end a key, and a number sign after one begins a comment. -/
def isCut (previous : Option Char) : List Char → Bool
  | [] => false
  | c :: cs => (c = ':' && isGap cs.head?) || (c = '#' && isGap previous) || isCut (some c) cs

/-- The text starts like something else than a text. -/
def isIndicated : List Char → Bool
  | [] => false
  | c :: cs =>
    c ∈ "#,[]\x7b\x7d&*!|>'\"%@\x60".toList || (c ∈ ['?', ':', '-'] && isGap cs.head?) ||
      ['-', '-', '-'].isPrefixOf (c :: cs) || ['.', '.', '.'].isPrefixOf (c :: cs)

/-- The text can be written without quotes. -/
def isPlain (s : String) : Bool :=
  let cs := s.toList
  !(reserved.contains s || isNumber cs || isIndicated cs || isCut none cs ||
    cs.head? = some ' ' || cs.getLast? = some ' ')

def singleQuoted (cs : List Char) : String :=
  String.ofList ('\x27' :: cs.flatMap (fun c => if c = '\x27' then [c, c] else [c]) ++ ['\x27'])

/-- The code point in capital hexadecimal digits. -/
def codePoint (width : Nat) (c : Char) : List Char :=
  let digits := (Nat.toDigits 16 c.toNat).map Char.toUpper
  List.replicate (width - digits.length) '0' ++ digits

def escape (c : Char) : List Char :=
  match c with
  | '\x00' => ['\\', '0']
  | '\x07' => ['\\', 'a']
  | '\x08' => ['\\', 'b']
  | '\t' => ['\\', 't']
  | '\n' => ['\\', 'n']
  | '\x0b' => ['\\', 'v']
  | '\x0c' => ['\\', 'f']
  | '\r' => ['\\', 'r']
  | '\x1b' => ['\\', 'e']
  | '"' => ['\\', '"']
  | '\\' => ['\\', '\\']
  | '\u0085' => ['\\', 'N']
  | '\u2028' => ['\\', 'L']
  | '\u2029' => ['\\', 'P']
  | c =>
    if isVisible c then [c]
    else if c.toNat ≤ 0xFF then '\\' :: 'x' :: codePoint 2 c
    else if c.toNat ≤ 0xFFFF then '\\' :: 'u' :: codePoint 4 c
    else '\\' :: 'U' :: codePoint 8 c

def doubleQuoted (cs : List Char) : String := String.ofList ('"' :: cs.flatMap escape ++ ['"'])

/-- Marks for a blank first line and for the line ends after the last line. -/
def blockHeader (cs : List Char) : String :=
  let hint := if cs.head? = some ' ' || cs.head? = some '\n' then "2" else ""
  let chomping :=
    match cs.reverse with
    | ['\n'] | '\n' :: '\n' :: _ => "+"
    | '\n' :: _ => ""
    | _ => "-"
  "|" ++ hint ++ chomping

def blockLines (cs : List Char) : Block :=
  let lines := (Text.pieces (· = '\n') cs).map String.ofList
  blockHeader cs :: if cs.getLast? = some '\n' then lines.dropLast else lines

def text (s : String) : Block :=
  let cs := s.toList
  if cs.contains '\n' then
    let lines := Text.pieces (· = '\n') cs
    if lines.all fun l => l.all isVisible && l.getLast? ≠ some ' ' then blockLines cs
    else [doubleQuoted cs]
  else if !cs.all isVisible then [doubleQuoted cs]
  else if isPlain s then [s]
  else [singleQuoted cs]

/-! ## Diagrams -/

/-- A value that takes several lines goes on further inside than its key. -/
def entry (key : String) : Block → Block
  | [] => []
  | l :: ls => s!"{key}: {l}" :: Block.indent ls

def item (b : Block) : Block :=
  match b with
  | [] => []
  | l :: ls => ("- " ++ l) :: Block.indent ls

def list (key : String) (items : List Block) : Block :=
  if items.isEmpty then entry key ["[]"] else s!"{key}:" :: items.flatMap item

def node (n : Node) : Block :=
  entry "id" (text n.id) ++ entry "name" (text n.name) ++
  entry "lifetime" [lifetimeTag n.lifetime] ++ entry "is_external" [flagTag n.isExternal] ++
  entry "is_background" [flagTag n.isBackground] ++ list "contracts" (n.contracts.map text)

def arrow (a : Arrow) : Block :=
  entry "from" (text a.source) ++ entry "to" (text a.destination) ++
  entry "contract" (text a.contract) ++ entry "wrapping" [wrappingTag a.wrapping] ++
  entry "in_cycle" [flagTag a.inCycle]

end YamlText

def Diagram.yaml (d : Diagram) : String :=
  Block.text (YamlText.list "nodes" (d.nodes.map YamlText.node) ++
    YamlText.list "edges" (d.arrows.map YamlText.arrow) ++
    "metadata:" ::
      Block.indent (d.summary.fields.flatMap fun (key, n) => YamlText.entry key [toString n]))

end Injection.Export
