/-!
# Sorted lists

Stable sorting, finite sets as strictly increasing lists, and finite maps as lists of pairs with
strictly increasing keys. Equal sets are equal lists.
-/
namespace Injection.Sorted

/-- Puts `a` in front of the first element that it may precede. -/
def place {α : Type} (le : α → α → Bool) (a : α) : List α → List α
  | [] => [a]
  | b :: bs => if le a b then a :: b :: bs else b :: place le a bs

/-- Sorts by `le`; elements that may stand in either order keep the order they have. -/
def sortBy {α : Type} (le : α → α → Bool) (as : List α) : List α := as.foldr (place le) []

theorem perm_place {α : Type} (le : α → α → Bool) (a : α) (bs : List α) :
    (place le a bs).Perm (a :: bs) := by
  induction bs with
  | nil => exact .refl _
  | cons b bs ih =>
    rw [place]
    split
    · exact .refl _
    · exact (ih.cons b).trans (.swap a b bs)

theorem perm_sortBy {α : Type} (le : α → α → Bool) (as : List α) : (sortBy le as).Perm as := by
  induction as with
  | nil => exact .refl _
  | cons a as ih => exact (perm_place le a _).trans (ih.cons a)

def sort {α : Type} [Ord α] (as : List α) : List α := sortBy (fun a b => (compare a b).isLE) as

def insert {α : Type} [Ord α] (a : α) : List α → List α
  | [] => [a]
  | b :: bs =>
    match compare a b with
    | .lt => a :: b :: bs
    | .eq => b :: bs
    | .gt => b :: insert a bs

def insertAll {α : Type} [Ord α] (new : List α) (set : List α) : List α :=
  new.foldl (fun set a => insert a set) set

def ofList {α : Type} [Ord α] (as : List α) : List α := insertAll as []

/-- Sets the value at a key, computed from the value that is there. -/
def alter {κ ν : Type} [Ord κ] (k : κ) (f : Option ν → ν) : List (κ × ν) → List (κ × ν)
  | [] => [(k, f none)]
  | (k', v) :: rest =>
    match compare k k' with
    | .lt => (k, f none) :: (k', v) :: rest
    | .eq => (k', f (some v)) :: rest
    | .gt => (k', v) :: alter k f rest

def put {κ ν : Type} [Ord κ] (k : κ) (v : ν) : List (κ × ν) → List (κ × ν) :=
  alter k fun _ => v

end Injection.Sorted
