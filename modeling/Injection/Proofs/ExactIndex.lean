import Injection.Proofs.Expansion
import Injection.Proofs.OpenContracts

/-! The index of a registry is determined by the services it is built from: its contracts are in
order, and under each of them stand the services that are registered for it, in the order in which
they come first and each once. There is only one such index. -/
namespace Injection

namespace Registry

/-- The service is registered under the key: as one of its contracts, or as the normal form of an
open generic one. -/
def StandsFor (services : List Service) (key : Signature) (s : Service) : Prop :=
  ∃ c ∈ s.registered, c = key ∨ c.isOpen ∧ c.isApp ∧ c.normalize (keptIn services) = key

instance (services : List Service) (key : Signature) (s : Service) :
    Decidable (StandsFor services key s) :=
  inferInstanceAs (Decidable (∃ c ∈ s.registered, _ ∨ _))

/-- The position of the first service that registers the type under the key. -/
def firstFor (services : List Service) (key : Signature) (i : Identity) : Nat :=
  services.findIdx fun s => StandsFor services key s ∧ s.identity = i

end Registry

namespace Index

/-- The index lists what the services are registered for, in order and nothing else. -/
structure Exact (services : List Service) (index : Index) : Prop where
  increasing : (index.rows.map Prod.fst).Pairwise Signature.Precedes
  nonempty : ∀ row ∈ index.rows, row.2 ≠ []
  nodup : ∀ row ∈ index.rows, row.2.Nodup
  ordered : ∀ row ∈ index.rows, row.2.Pairwise fun i j =>
    Registry.firstFor services row.1 i < Registry.firstFor services row.1 j
  listed : ∀ key i, (∃ row ∈ index.rows, row.1 = key ∧ i ∈ row.2) ↔
    ∃ s ∈ services, s.identity = i ∧ Registry.StandsFor services key s
  get : ∀ row ∈ index.rows, index.get row.1 = row.2
  absent : ∀ key, key ∉ index.rows.map Prod.fst → index.get key = []

namespace Exact
variable {services : List Service} {index index' : Index} {key : Signature} {i : Identity}
  {ids : List Identity}

theorem mem_rows_iff (h : index.Exact services) :
    (key, ids) ∈ index.rows ↔ ids ≠ [] ∧ index.get key = ids := by
  constructor
  · intro hrow
    exact ⟨h.nonempty _ hrow, h.get _ hrow⟩
  · rintro ⟨hne, rfl⟩
    by_cases hkey : key ∈ index.rows.map Prod.fst
    · obtain ⟨row, hrow, rfl⟩ := List.mem_map.mp hkey
      rw [h.get row hrow]
      exact hrow
    · exact absurd (h.absent key hkey) hne

theorem mem_get (h : index.Exact services) :
    i ∈ index.get key ↔ ∃ s ∈ services, s.identity = i ∧ Registry.StandsFor services key s := by
  rw [← h.listed]
  constructor
  · intro hi
    exact ⟨(key, index.get key), h.mem_rows_iff.mpr ⟨List.ne_nil_of_mem hi, rfl⟩, rfl, hi⟩
  · rintro ⟨row, hrow, rfl, hi⟩
    rwa [h.get row hrow]

theorem pairwise_get (h : index.Exact services) (key : Signature) :
    (index.get key).Pairwise fun i j =>
      Registry.firstFor services key i < Registry.firstFor services key j := by
  by_cases hne : index.get key = []
  · rw [hne]
    exact .nil
  · exact h.ordered _ (h.mem_rows_iff.mpr ⟨hne, rfl⟩)

theorem get_eq (h : index.Exact services) (h' : index'.Exact services) (key : Signature) :
    index.get key = index'.get key := by
  have : Std.Antisymm fun i j : Identity =>
      Registry.firstFor services key i < Registry.firstFor services key j :=
    ⟨fun _ _ hij hji => absurd hij (Nat.lt_asymm hji)⟩
  have : Std.Irrefl fun i j : Identity =>
      Registry.firstFor services key i < Registry.firstFor services key j :=
    ⟨fun _ => Nat.lt_irrefl _⟩
  -- Lists in one strict order are equal if they have the same members.
  refine (h.pairwise_get key).eq_of_mem_iff (h'.pairwise_get key) fun i => ?_
  rw [h.mem_get, h'.mem_get]

theorem keyed (h : index.Exact services) : Sorted.Keyed index.rows :=
  (List.pairwise_map.mp h.increasing).imp fun hlt => (Signature.cmp_eq_lt_iff _ _).mpr hlt

theorem unique (h : index.Exact services) (h' : index'.Exact services) : index = index' := by
  have hrows : index.rows = index'.rows := by
    apply Sorted.eq_of_mem_iff_of_keyed h.keyed h'.keyed
    rintro ⟨key, ids⟩
    rw [h.mem_rows_iff, h'.mem_rows_iff, h.get_eq h' key]
  cases index
  cases index'
  exact congrArg Index.mk hrows

end Exact

end Index

namespace Registry
variable {fuel : Nat} {fallback : Fallback} {services : List Service} {c : Catalogue}
  {r : Registry}

section Built
variable (h : build fuel fallback services c = some r)
include h

theorem keyed_index : Sorted.Keyed r.index.rows := by
  rw [index, (registered_of_build h).1]
  exact Index.keyed_ofPairs _

theorem ne_nil_of_mem_index : ∀ row ∈ r.index.rows, row.2 ≠ [] := by
  rw [index, (registered_of_build h).1]
  exact Index.ne_nil_of_mem_ofPairs _

theorem get_index (key : Signature) :
    r.index.get key =
      ((services.filter fun s => StandsFor services key s).map Service.identity).eraseDups :=
  get_of_build h key

theorem mem_get_index {key : Signature} {i : Identity} :
    i ∈ r.index.get key ↔ ∃ s ∈ services, s.identity = i ∧ StandsFor services key s := by
  rw [index, get_of_build h, mem_providersOf]
  rfl

theorem pairwise_get_index (key : Signature) :
    (r.index.get key).Pairwise fun i j =>
      firstFor services key i < firstFor services key j := by
  have hfirst := pairwise_findIdx_eraseDups (fun s => decide (StandsFor services key s))
    Service.identity services
  rw [get_index h]
  simpa only [firstFor, decide_eq_true_eq] using hfirst

theorem exact_index : r.index.Exact services where
  increasing :=
    List.pairwise_map.mpr ((keyed_index h).imp fun hlt => (Signature.cmp_eq_lt_iff _ _).mp hlt)
  nonempty := ne_nil_of_mem_index h
  nodup row hrow := by
    rw [← Index.get_of_mem_rows (keyed_index h) hrow, get_index h]
    exact nodup_eraseDups _
  ordered row hrow := by
    rw [← Index.get_of_mem_rows (keyed_index h) hrow]
    exact pairwise_get_index h row.1
  listed key i := by
    rw [← mem_get_index h]
    constructor
    · rintro ⟨row, hrow, rfl, hi⟩
      rwa [Index.get_of_mem_rows (keyed_index h) hrow]
    · intro hi
      exact ⟨_, Index.mem_rows_of_get (keyed_index h) (List.ne_nil_of_mem hi), rfl, hi⟩
  get _ hrow := Index.get_of_mem_rows (keyed_index h) hrow
  absent key hkey := by
    by_contra hne
    exact hkey (List.mem_map_of_mem (Index.mem_rows_of_get (keyed_index h) hne))

end Built

/-- Whatever the services are, the index of their registry lists what they are registered for, and
it is the only index that does. There is a registry unless the contracts of a plain class never
end. -/
theorem index_exact_unique (fallback : Fallback) (services : List Service) (c : Catalogue) :
    ((∃ fuel r, build fuel fallback services c = some r) ↔
      ∀ e ∈ c.entries, e.isService = false ∧ e.kind = .concrete →
        {s | c.Implements e.identity s}.Finite) ∧
    ∀ fuel r, build fuel fallback services c = some r →
      r.index.Exact services ∧ ∀ index : Index, index.Exact services → index = r.index := by
  refine ⟨exists_build_iff fallback services c, fun fuel r h => ⟨exact_index h, ?_⟩⟩
  intro index hindex
  exact hindex.unique (exact_index h)

/-- Two ways to store boxes, the first of them declared twice, and between them the boxes. -/
def shelfServices : List Service :=
  let shelf : Service :=
    { identity := ⟨"Shelf", 1⟩, params := ["T"]
      contracts := [.app "IStore" [.app "IBox" [.param "T"]], .named "ILog"]
      excluded := [.named "ILog"] }
  [shelf,
   { identity := ⟨"Box", 1⟩, params := ["T"], contracts := [.app "IBox" [.param "T"]] },
   { identity := ⟨"Cellar", 1⟩, params := ["U"]
     contracts := [.app "IStore" [.app "IBox" [.param "U"]]] },
   shelf]

/-- Boxes are kept in the normal form of stores, although they are declared after the first. -/
theorem index_exact_unique_shelves :
    ∃ r, build 0 .none shelfServices {} = some r ∧ r.index.Exact shelfServices ∧
      (∀ index : Index, index.Exact shelfServices → index = r.index) ∧
      r.index.get (.app "IStore" [.app "IBox" [.hole 0]]) = [⟨"Shelf", 1⟩, ⟨"Cellar", 1⟩] ∧
      r.index.get (.app "IStore" [.hole 0]) = [] ∧
      r.index.rows.map Prod.fst =
        [.app "Box" [.param "T"], .app "Box" [.hole 0],
         .app "Cellar" [.param "U"], .app "Cellar" [.hole 0],
         .app "IBox" [.param "T"], .app "IBox" [.hole 0],
         .app "IStore" [.app "IBox" [.param "T"]], .app "IStore" [.app "IBox" [.param "U"]],
         .app "IStore" [.app "IBox" [.hole 0]],
         .app "Shelf" [.param "T"], .app "Shelf" [.hole 0]] := by
  obtain ⟨hexact, hunique⟩ := (index_exact_unique .none shelfServices {}).2 0 _ rfl
  exact ⟨_, rfl, hexact, hunique, by decide +kernel⟩

end Registry

end Injection
