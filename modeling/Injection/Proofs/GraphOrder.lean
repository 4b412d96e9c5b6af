import Injection.Proofs.CycleSoundness
import Injection.Proofs.RegistryOrder

/-! Alike registries and services give the same graph, up to the order of nodes, edges and
unresolved dependencies. The reported cycles are the same list. -/
namespace Injection

namespace Links

structure Alike (l l' : Links) : Prop where
  edges : Matched Eq l.edges l'.edges
  unresolved : Matched Eq l.unresolved l'.unresolved

variable {r r' : Registry} {o : Options}

theorem alike_ofDependency (h : r.Alike r') (i : Identity) (d : Dependency) :
    BothOk Alike (ofDependency r o i d) (ofDependency r' o i d) := by
  obtain ⟨m, m', hm, hm', hmatch⟩ := h.resolve (o.unwrap d.wrapping d.target).1
  unfold ofDependency
  dsimp only
  split
  · exact ⟨_, _, rfl, rfl, .refl _, .refl _⟩
  rw [hm, hm']
  cases hmatch with
  | none => exact ⟨_, _, rfl, rfl, .refl _, .refl _⟩
  | some hc =>
    refine ⟨_, _, rfl, rfl, ?_, .refl _⟩
    refine (hc.candidates.filter ?_).map ?_
    · rintro c _ rfl
      rw [h.isExternal]
    · rintro c _ rfl
      rw [hc.stage]

theorem alike_ofService (h : r.Alike r') {s s' : Service} (hs : s.Alike s') :
    BothOk Alike (ofService r o s) (ofService r' o s') := by
  obtain ⟨order, rfl⟩ := hs
  have hparts : BothOk (Matched Alike) (s.dependencies.mapM (ofDependency r o s.identity))
      (s.dependencies.mapM (ofDependency r' o s.identity)) := by
    refine (Matched.refl s.dependencies).mapM_except ?_
    rintro d _ rfl
    exact alike_ofDependency h s.identity d
  exact hparts.map fun parts parts' hm =>
    ⟨(hm.flatMap fun _ _ ha => ha.edges).eraseDups, hm.flatMap fun _ _ ha => ha.unresolved⟩

end Links

namespace Graph

/-- The same nodes, edges and unresolved dependencies in any order. -/
structure Alike (g g' : Graph) : Prop where
  nodes : g.nodes.Perm g'.nodes
  edgesFrom : ∀ i, Matched Eq (g.edgesFrom i) (g'.edgesFrom i)
  unresolved : Matched Eq g.unresolved g'.unresolved

theorem alike_ofAll {r r' : Registry} (hr : r.Alike r') (o : Options) {ss ss' : List Service}
    (h : Matched Service.Alike ss ss') (hd : (ss.map Service.identity).Nodup)
    (hd' : (ss'.map Service.identity).Nodup) : (ofAll r o ss).Alike (ofAll r' o ss') := by
  refine ⟨?_, fun i => Matched.eq_iff.mpr fun e => ?_, Matched.eq_iff.mpr fun u => ?_⟩
  · rw [nodes_ofAll, nodes_ofAll, List.perm_ext_iff_of_nodup hd hd']
    refine Matched.eq_iff.mp (h.map ?_)
    rintro s _ ⟨order, rfl⟩
    rfl
  · rw [mem_edgesFrom_ofAll hd, mem_edgesFrom_ofAll hd']
    refine h.exists_iff fun s s' hs => and_congr ?_ ?_
    · obtain ⟨order, rfl⟩ := hs
      exact Iff.rfl
    · exact (Links.alike_ofService hr hs).exists_iff fun l l' hl => Matched.eq_iff.mp hl.edges e
  · rw [mem_unresolved_ofAll, mem_unresolved_ofAll]
    exact h.exists_iff fun s s' hs => (Links.alike_ofService hr hs).exists_iff fun l l' hl =>
      Matched.eq_iff.mp hl.unresolved u

theorem alike_build {r r' : Registry} (hr : r.Alike r') (o : Options) {a a' : Snapshot}
    (h : a.Alike a') : (build r o a.services).Alike (build r' o a'.services) := by
  rw [build_eq_ofAll, build_eq_ofAll]
  refine alike_ofAll hr o (matched_internal h.services) ?_ ?_
  · exact h.nodup.sublist (List.filter_sublist.map _)
  · exact h.nodup'.sublist (List.filter_sublist.map _)

namespace Alike
variable {g g' : Graph}

theorem successorsIn_eq (h : g.Alike g') :
    successorsIn g.successorTable = successorsIn g'.successorTable := by
  funext i
  rw [successorsIn, successorsIn, successorTable, successorTable, lookup_map_pair, lookup_map_pair]
  have hsucc : Sorted.ofList (g.strongSuccessors i) = Sorted.ofList (g'.strongSuccessors i) := by
    refine Sorted.ofList_congr fun j => ?_
    simp only [mem_strongSuccessors, Matched.eq_iff.mp (h.edgesFrom i)]
  simp only [hsucc, h.nodes.mem_iff]

theorem search_eq (h : g.Alike g') : g.search = g'.search := by
  have hstart : g.searchStart = g'.searchStart := by
    rw [searchStart, searchStart, Sorted.sort, Sorted.sort, Sorted.sortBy_eq_of_perm h.nodes]
  have hsteps := search_steps g
  have hended := search_ended g
  rw [hstart, h.successorsIn_eq] at hsteps
  rw [h.successorsIn_eq] at hended
  -- The two bounds on the number of steps may differ, but each lets the search come to its end.
  exact hsteps.ended_unique (search_steps g') hended (search_ended g')

theorem cycles_eq (h : g.Alike g') : g.cycles = g'.cycles := by
  rw [cycles, cycles, h.search_eq]

end Alike

end Graph

end Injection
