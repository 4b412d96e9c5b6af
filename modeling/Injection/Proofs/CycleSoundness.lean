import Injection.Proofs.GraphEdges
import Injection.Proofs.Rotation
import Injection.Proofs.Search
import Mathlib.Data.List.Chain

/-! Every cycle that the search records is an elementary cycle of strong edges. -/
namespace Injection.Graph

namespace Search
variable {next : Identity → List Identity} {s s' : Search}

structure Sound (next : Identity → List Identity) (s : Search) : Prop where
  agrees : Agrees s
  linked : s.path.IsChain fun i j => j ∈ next i
  recorded : ∀ c ∈ s.cycles, IsCycle (fun i j => j ∈ next i) c
  distinct : s.cycles.Nodup

theorem Agrees.path_eq_nil (h : Agrees s) (idle : s.frames = []) : s.path = [] := by
  simp [h.nodes, idle]

theorem Agrees.path_eq_concat (h : Agrees s) {f : Frame} {fs : List Frame}
    (top : s.frames = f :: fs) : s.path = (fs.map Frame.node).reverse ++ [f.node] := by
  simp [h.nodes, top]

theorem Agrees.getLast?_path (h : Agrees s) {f : Frame} {fs : List Frame}
    (top : s.frames = f :: fs) : s.path.getLast? = some f.node := by
  simp [h.path_eq_concat top]

theorem mem_cycles_record {c d : List Identity} :
    c ∈ (s.record d).cycles ↔ c ∈ s.cycles ∨ c = d := by
  by_cases hd : d ∈ s.cycles
  · simp only [record, hd, if_true]
    exact ⟨.inl, fun hc => hc.elim id fun he => he ▸ hd⟩
  · simp [record, hd]

theorem nodup_cycles_record (d : List Identity) (h : s.cycles.Nodup) :
    (s.record d).cycles.Nodup := by
  by_cases hd : d ∈ s.cycles
  · simpa [record, hd] using h
  · simp only [record, hd, if_false]
    rw [← List.concat_eq_append, List.nodup_concat]
    exact ⟨hd, h⟩

/-- The part of the path from `j` on ends at the innermost node. -/
theorem drop_path {path : List Identity} {i j : Identity} {start : ℕ}
    (hj : path[start]? = some j) (hi : path.getLast? = some i) :
    ∃ rest, path.drop start = j :: rest ∧ (j :: rest).getLast? = some i := by
  obtain ⟨hlt, he⟩ := List.getElem?_eq_some_iff.mp hj
  have hd := List.drop_eq_getElem_cons hlt
  rw [he] at hd
  refine ⟨path.drop (start + 1), hd, ?_⟩
  rw [← hd, List.getLast?_drop, if_neg (Nat.not_le.mpr hlt), hi]

theorem isCycle_drop {R : Identity → Identity → Prop} {path : List Identity} {i j : Identity}
    {start : ℕ} (hd : path.Nodup) (hc : path.IsChain R) (hj : path[start]? = some j)
    (hi : path.getLast? = some i) (hr : R i j) :
    IsCycle R (rotateToLeast (path.drop start)) := by
  obtain ⟨rest, hdrop, hlast⟩ := drop_path hj hi
  refine isCycle_rotateToLeast (by simp [hdrop]) (hd.sublist (List.drop_sublist _ _)) ?_
  rw [hdrop, forall_cycleSteps_iff, ← List.cons_append, List.isChain_append]
  refine ⟨hdrop ▸ hc.drop start, by simp, fun x hx y hy => ?_⟩
  rw [hlast, Option.mem_some_iff] at hx
  simp only [List.head?_cons, Option.mem_some_iff] at hy
  rwa [← hx, ← hy]

theorem Step.sound (hs : Step next s s') (h : Sound next s) : Sound next s' := by
  have ha := hs.agrees h.agrees
  cases hs with
  | skipRoot idle first known => exact ⟨ha, h.linked, h.recorded, h.distinct⟩
  | enterRoot idle first fresh =>
    refine ⟨ha, ?_, h.recorded, h.distinct⟩
    simp [Search.enter, h.agrees.path_eq_nil idle]
  | leave top done => exact ⟨ha, h.linked.dropLast, h.recorded, h.distinct⟩
  | @close f fs j start top succ back =>
    have hcycle := isCycle_drop h.agrees.distinct h.linked ((h.agrees.placed j start).mp back)
      (h.agrees.getLast?_path top) (List.mem_of_getElem? succ)
    refine ⟨ha, h.linked, fun c hc => ?_, nodup_cycles_record _ h.distinct⟩
    rcases mem_cycles_record.mp hc with hc | rfl
    · exact h.recorded c hc
    · exact hcycle
  | skip top succ off known => exact ⟨ha, h.linked, h.recorded, h.distinct⟩
  | @enter f fs j top succ off fresh =>
    refine ⟨ha, ?_, h.recorded, h.distinct⟩
    simp only [Search.enter, advance, List.isChain_append]
    refine ⟨h.linked, by simp, fun x hx y hy => ?_⟩
    rw [h.agrees.getLast?_path top, Option.mem_some_iff] at hx
    simp only [List.head?_cons, Option.mem_some_iff] at hy
    rw [← hx, ← hy]
    exact List.mem_of_getElem? succ

end Search

theorem work_searchStart (g : Graph) :
    Search.work (successorsIn g.successorTable) g.reach g.searchStart =
      g.searchBound g.successorTable := by
  have hlen := (Sorted.perm_sortBy (fun a b => (compare a b).isLE) g.nodes).length_eq
  simp [Search.work, Search.framesWork, Search.unvisitedWork, searchStart, searchBound,
    Sorted.sort, hlen]

theorem search_steps (g : Graph) :
    Search.Steps (successorsIn g.successorTable) g.searchStart g.search :=
  Search.run_steps _ _

/-- The search has no step left where it is cut off. -/
theorem search_ended (g : Graph) : g.search.step (successorsIn g.successorTable) = none := by
  refine Search.run_ended successors_mem_reach _ _ (fun i hi => ?_) (work_searchStart g).le
  exact List.mem_append_left _ ((Sorted.perm_sortBy _ g.nodes).mem_iff.mp hi)

theorem search_sound (g : Graph) : g.search.Sound (successorsIn g.successorTable) :=
  (search_steps g).preserve (fun _ _ => Search.Step.sound)
    ⟨Search.agrees_of_idle rfl rfl rfl, .nil, by simp [searchStart], by simp [searchStart]⟩

theorem mem_cycles {g : Graph} {c : List Identity} : c ∈ g.cycles ↔ c ∈ g.search.cycles :=
  (Sorted.perm_sortBy _ _).mem_iff

theorem isCycle_of_mem_cycles {g : Graph} {c : List Identity} (h : c ∈ g.cycles) :
    IsCycle (fun i j => j ∈ successorsIn g.successorTable i) c :=
  (search_sound g).recorded c (mem_cycles.mp h)

theorem pairwise_cycles (g : Graph) :
    g.cycles.Pairwise fun c d => List.compareLex compare c d = .lt :=
  Sorted.pairwise_sortBy_lt (search_sound g).distinct

/-- The search for cycles comes to an end, and what it gives are elementary cycles of strong edges
in strictly increasing order, of which no two are turns of one another. -/
theorem cycles_sound (r : Registry) (o : Options) (services : List Service) :
    let g := build r o services
    (∃ s, Search.Steps (successorsIn g.successorTable) g.searchStart s ∧
      s.step (successorsIn g.successorTable) = none ∧
      g.cycles = Sorted.sortBy (fun c d => (List.compareLex compare c d).isLE) s.cycles) ∧
    (∀ c ∈ g.cycles, IsCycle g.Strong c) ∧
    (g.cycles.Pairwise fun c d => List.compareLex compare c d = .lt) ∧
    g.cycles.Pairwise fun c d => ¬ c ~r d := by
  intro g
  refine ⟨⟨g.search, search_steps g, search_ended g, rfl⟩, fun c hc => ?_, pairwise_cycles g, ?_⟩
  · rw [strong_build r o services]
    exact isCycle_of_mem_cycles hc
  · refine (pairwise_cycles g).imp_of_mem fun {c d} hc hd hlt hr => ?_
    have he := (isCycle_of_mem_cycles hc).eq_of_isRotated (isCycle_of_mem_cycles hd) hr
    exact Std.OrientedCmp.not_lt_of_lt hlt (he ▸ hlt)

/-- `A` needs `B` and `C`, `B` needs `C` later on, and `C` needs `A`. -/
def ringServices : List Service :=
  [{ identity := ⟨"C", 0⟩, dependencies := [⟨.named "A", .direct, .list 0, none⟩] },
   { identity := ⟨"A", 0⟩, dependencies := [⟨.named "B", .direct, .list 0, none⟩,
      ⟨.named "C", .direct, .list 0, none⟩] },
   { identity := ⟨"B", 0⟩, dependencies := [⟨.app "Lazy" [.named "C"], .direct, .list 0, none⟩] }]

def ringRegistry : Registry where
  registered := .ofProviders (Registry.serviceProviders ringServices)
  unregistered := {}
  lifetimes := []
  externals := []
  fallback := .sameShape

theorem cycles_sound_ring :
    let g := build ringRegistry {} ringServices
    [⟨"A", 0⟩, ⟨"B", 0⟩, ⟨"C", 0⟩] ∈ g.cycles ∧
      IsCycle g.Strong [⟨"A", 0⟩, ⟨"B", 0⟩, ⟨"C", 0⟩] := by
  have hmem : [⟨"A", 0⟩, ⟨"B", 0⟩, ⟨"C", 0⟩] ∈ (build ringRegistry {} ringServices).cycles := by
    decide +kernel
  exact ⟨hmem, (cycles_sound ringRegistry {} ringServices).2.1 _ hmem⟩

end Injection.Graph
