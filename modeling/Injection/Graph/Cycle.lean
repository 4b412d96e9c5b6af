import Injection.Graph.Basic

/-!
# Cycles

Cycles of strong dependencies are found by a depth-first search that keeps its own stack. Roots and
successors are tried in increasing order and every node is entered once. A successor that lies on
the current path closes a cycle, which is recorded with its least node in front.
-/
namespace Injection

namespace Graph

def least (i : Identity) (is : List Identity) : Identity :=
  is.foldl (fun m j => if (compare j m).isLT then j else m) i

/-- The cycle with its least node in front. -/
def rotateToLeast : List Identity → List Identity
  | [] => []
  | i :: is =>
    let m := least i is
    (i :: is).dropWhile (· ≠ m) ++ (i :: is).takeWhile (· ≠ m)

/-- The steps of a cycle, the last of which leads back to the start. -/
def cycleSteps : List Identity → List (Identity × Identity)
  | [] => []
  | i :: is => (i :: is).zip (is ++ [i])

/-- A node that is being explored. -/
structure Frame where
  node : Identity
  /-- How many of its successors were tried. -/
  tried : Nat
  deriving DecidableEq, Repr

structure Search where
  /-- Nodes from which the search is still to start. -/
  roots : List Identity := []
  visited : List Identity := []
  /-- The innermost frame comes first. -/
  frames : List Frame := []
  /-- The nodes of the frames, from the root inwards. -/
  path : List Identity := []
  /-- Where each node of the path stands on it. -/
  positions : List (Identity × Nat) := []
  cycles : List (List Identity) := []
  deriving DecidableEq, Repr

namespace Search

def record (s : Search) (cycle : List Identity) : Search :=
  { s with cycles := if cycle ∈ s.cycles then s.cycles else s.cycles ++ [cycle] }

def enter (s : Search) (i : Identity) : Search :=
  { s with
    visited := i :: s.visited
    frames := ⟨i, 0⟩ :: s.frames
    path := s.path ++ [i]
    positions := (i, s.path.length) :: s.positions }

def visit (s : Search) (i : Identity) : Search := if i ∈ s.visited then s else s.enter i

/-- Gives up the innermost node; `frames` are the frames around it. -/
def leave (s : Search) (i : Identity) (frames : List Frame) : Search :=
  { s with
    frames
    path := s.path.dropLast
    positions := s.positions.filter fun p => p.1 ≠ i }

/-- Counts one more successor of the innermost node as tried. -/
def advance (s : Search) (frame : Frame) (frames : List Frame) : Search :=
  { s with frames := ⟨frame.node, frame.tried + 1⟩ :: frames }

/-- Goes on to a successor of the innermost node. -/
def follow (s : Search) (j : Identity) : Search :=
  match s.positions.lookup j with
  | some start => s.record (rotateToLeast (s.path.drop start))
  | none => s.visit j

/-- One step of the search, unless it has ended. -/
def step (next : Identity → List Identity) (s : Search) : Option Search :=
  match s.frames with
  | [] =>
    match s.roots with
    | [] => none
    | root :: roots => some ({ s with roots }.visit root)
  | frame :: frames =>
    match (next frame.node)[frame.tried]? with
    | none => some (s.leave frame.node frames)
    | some j => some ((s.advance frame frames).follow j)

/-- At most the given number of steps. -/
def run (next : Identity → List Identity) : (steps : Nat) → Search → Search
  | 0, s => s
  | steps + 1, s =>
    match s.step next with
    | none => s
    | some s => run next steps s

end Search

/-- Every node with its strong successors in increasing order. -/
def successorTable (g : Graph) : List (Identity × List Identity) :=
  g.nodes.map fun i => (i, Sorted.ofList (g.strongSuccessors i))

def successorsIn (table : List (Identity × List Identity)) (i : Identity) : List Identity :=
  (table.lookup i).getD []

/-- Every node and every provider of an edge, at least once. -/
def reach (g : Graph) : List Identity := g.nodes ++ g.edges.map Edge.provider

/-- A number of steps in which the search ends: one for each root, and for each node one for each
successor and one to leave it. -/
def searchBound (g : Graph) (table : List (Identity × List Identity)) : Nat :=
  g.nodes.length + g.reach.foldr (fun i n => (successorsIn table i).length + 1 + n) 0

/-- The search before its first step. -/
def searchStart (g : Graph) : Search := { roots := Sorted.sort g.nodes }

def search (g : Graph) : Search :=
  let table := g.successorTable
  Search.run (successorsIn table) (g.searchBound table) g.searchStart

def cycles (g : Graph) : List (List Identity) :=
  Sorted.sortBy (fun a b => (List.compareLex compare a b).isLE) g.search.cycles

end Graph

end Injection
