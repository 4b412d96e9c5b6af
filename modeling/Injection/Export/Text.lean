import Injection.Export.Basic

/-!
# Blocks of lines

A text is put together from blocks of lines. This module also holds the words that the data formats
share.
-/
namespace Injection.Export

abbrev Block := List String

namespace Block

/-- Every line with its end. -/
def text (b : Block) : String := String.join (b.map (· ++ "\n"))

/-- Empty lines stay empty. -/
def indent (b : Block) : Block := b.map fun l => if l = "" then l else "  " ++ l

/-- Text in front of the first line. -/
def lead (text : String) : Block → Block
  | [] => [text]
  | l :: ls => (text ++ l) :: ls

end Block

def lifetimeTag : Lifetime → String
  | .transient => "Transient"
  | .perScope => "Scoped"
  | .singleton => "Singleton"

def wrappingTag : Wrapping → String
  | .direct => "Direct"
  | .collection => "Collection"
  | .deferred => "Deferred"

def flagTag (b : Bool) : String := if b then "true" else "false"

def Summary.fields (s : Summary) : List (String × Nat) :=
  [("declaration_count", s.declarations), ("singleton_count", s.singletons),
   ("scoped_count", s.perScope), ("transient_count", s.transients), ("edge_count", s.edges),
   ("unresolved_count", s.unresolved), ("cycle_count", s.cycles), ("error_count", s.errors),
   ("warning_count", s.warnings)]

end Injection.Export
