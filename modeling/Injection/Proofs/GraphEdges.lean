import Injection.Graph.Cycle
import Injection.Proofs.Order
import Injection.Proofs.Sorted
import Injection.Proofs.Traversal
import Mathlib.Data.List.Induction

/-! Edges of a graph that was built from services: they are listed under their own consumer, and
only nodes have any. The successors that the search for cycles follows are its strong edges. -/
namespace Injection

namespace Links
variable {r : Registry} {o : Options} {i : Identity} {d : Dependency} {s : Service} {links : Links}

/-- The edge leads from `i` to a candidate of its dependency `d`. -/
def Resolves (r : Registry) (o : Options) (i : Identity) (d : Dependency) (e : Edge) : Prop :=
  o.isSupplied (o.unwrap d.wrapping d.target).1 = false ∧
    ∃ found, r.resolve (o.unwrap d.wrapping d.target).1 = .ok (some found) ∧
      ∃ c ∈ found.candidates, r.isExternal c = false ∧
        e = ⟨i, c, (o.unwrap d.wrapping d.target).1, (o.unwrap d.wrapping d.target).2,
          found.stage, d.location⟩

theorem mem_edges_ofDependency (h : ofDependency r o i d = .ok links) {e : Edge} :
    e ∈ links.edges ↔ Resolves r o i d e := by
  unfold ofDependency at h
  unfold Resolves
  dsimp only at h
  split at h
  next hs =>
    cases h
    simp [hs]
  next hs =>
    split at h
    · cases h
    next hn =>
      cases h
      simp [hn]
    next found hf =>
      cases h
      simp only [hf, Except.ok.injEq, Option.some.injEq, exists_eq_left', List.mem_map,
        List.mem_filter, Bool.not_eq_true']
      constructor
      · rintro ⟨c, ⟨hc, hx⟩, rfl⟩
        exact ⟨by simpa using hs, c, hc, hx, rfl⟩
      · rintro ⟨-, c, hc, hx, rfl⟩
        exact ⟨c, ⟨hc, hx⟩, rfl⟩

theorem ofService_eq_ok (h : ofService r o s = .ok links) :
    ∃ parts, List.Forall₂ (fun d part => ofDependency r o s.identity d = .ok part)
        s.dependencies parts ∧
      links.edges = (parts.flatMap Links.edges).eraseDups ∧
      links.unresolved = parts.flatMap Links.unresolved := by
  unfold ofService at h
  cases hm : s.dependencies.mapM (ofDependency r o s.identity) with
  | error fault => simp [hm, Except.map] at h
  | ok parts =>
    simp only [hm, Except.map, Except.ok.injEq] at h
    subst h
    exact ⟨parts, mapM_eq_ok_iff.mp hm, rfl, rfl⟩

theorem mem_edges_ofService (h : ofService r o s = .ok links) {e : Edge} :
    e ∈ links.edges ↔ ∃ d ∈ s.dependencies, Resolves r o s.identity d e := by
  obtain ⟨parts, hp, he, -⟩ := ofService_eq_ok h
  rw [he, List.mem_eraseDups, List.mem_flatMap]
  constructor
  · rintro ⟨part, hmem, hin⟩
    obtain ⟨d, hd, hok⟩ := exists_of_forall₂_right hp hmem
    exact ⟨d, hd, (mem_edges_ofDependency hok).mp hin⟩
  · rintro ⟨d, hd, hr⟩
    obtain ⟨part, hmem, hok⟩ := exists_of_forall₂_left hp hd
    exact ⟨part, hmem, (mem_edges_ofDependency hok).mpr hr⟩

theorem consumer_of_ofService (h : ofService r o s = .ok links) :
    ∀ e ∈ links.edges, e.consumer = s.identity := by
  intro e he
  obtain ⟨d, -, -, found, -, c, -, -, rfl⟩ := (mem_edges_ofService h).mp he
  rfl

end Links

namespace Graph

/-- Edges stand under their own consumer, which is a node. -/
structure Consistent (g : Graph) : Prop where
  known : ∀ row ∈ g.adjacency, row.1 ∈ g.nodes
  own : ∀ row ∈ g.adjacency, ∀ e ∈ row.2, e.consumer = row.1

theorem Consistent.add {g : Graph} (h : g.Consistent) (r : Registry) (o : Options) (s : Service) :
    (g.add s.identity (Links.ofService r o s)).Consistent := by
  unfold Graph.add
  split
  next links hl =>
    have hrow : ∀ row ∈ connect g.adjacency s.identity links.edges,
        row ∈ g.adjacency ∨ row = (s.identity, links.edges) := by
      intro row hr
      rcases List.mem_append.mp hr with hr | hr
      · exact .inl (List.mem_filter.mp hr).1
      · exact .inr (List.mem_singleton.mp hr)
    refine ⟨fun row hr => ?_, fun row hr => ?_⟩
    · rcases hrow row hr with hr | rfl
      · exact List.mem_append_left _ (h.known row hr)
      · simp
    · rcases hrow row hr with hr | rfl
      · exact h.own row hr
      · exact Links.consumer_of_ofService hl
  · exact ⟨fun row hr => List.mem_append_left _ (h.known row hr), h.own⟩

section Build
variable {r : Registry} {o : Options} {services : List Service}

/-- The graph with all of the given services as nodes. -/
def ofAll (r : Registry) (o : Options) (services : List Service) : Graph :=
  services.foldl (fun g s => g.add s.identity (Links.ofService r o s)) {}

theorem build_eq_ofAll : build r o services = ofAll r o (services.filter fun s => !s.isExternal) :=
  rfl

theorem ofAll_concat (s : Service) :
    ofAll r o (services ++ [s]) =
      (ofAll r o services).add s.identity (Links.ofService r o s) := by
  simp [ofAll]

theorem consistent_build (r : Registry) (o : Options) (services : List Service) :
    (build r o services).Consistent := by
  rw [build_eq_ofAll]
  induction services.filter fun s => !s.isExternal using List.reverseRecOn with
  | nil => exact ⟨by simp [ofAll], by simp [ofAll]⟩
  | append_singleton services s ih =>
    rw [ofAll_concat]
    exact ih.add r o s

theorem nodes_ofAll (r : Registry) (o : Options) (services : List Service) :
    (ofAll r o services).nodes = services.map Service.identity := by
  induction services using List.reverseRecOn with
  | nil => rfl
  | append_singleton services s ih =>
    rw [ofAll_concat, List.map_append, ← ih]
    cases Links.ofService r o s <;> rfl

theorem mem_unresolved_ofAll {u : Unresolved} :
    u ∈ (ofAll r o services).unresolved ↔
      ∃ s ∈ services, ∃ links, Links.ofService r o s = .ok links ∧ u ∈ links.unresolved := by
  induction services using List.reverseRecOn with
  | nil => simp [ofAll]
  | append_singleton services s ih =>
    rw [ofAll_concat]
    cases hl : Links.ofService r o s <;> simp [add, ih, or_and_right, exists_or, hl]

theorem edgesFrom_add (g : Graph) (i j : Identity) (links : Except Fault Links) :
    (g.add i links).edgesFrom j =
      match links with
      | .ok links => if j = i then links.edges else g.edgesFrom j
      | .error _ => g.edgesFrom j := by
  cases links with
  | error fault => rfl
  | ok links =>
    rw [add, edgesFrom, connect, List.lookup_append, Sorted.lookup_filter_ne,
      Sorted.lookup_cons_ite]
    by_cases hj : j = i <;> simp [hj, edgesFrom]

theorem mem_edgesFrom_ofAll (hd : (services.map Service.identity).Nodup) {i : Identity} {e : Edge} :
    e ∈ (ofAll r o services).edgesFrom i ↔
      ∃ s ∈ services, s.identity = i ∧
        ∃ links, Links.ofService r o s = .ok links ∧ e ∈ links.edges := by
  induction services using List.reverseRecOn with
  | nil => simp [ofAll, edgesFrom]
  | append_singleton services s ih =>
    rw [List.map_append, List.nodup_append] at hd
    rw [ofAll_concat, edgesFrom_add]
    simp only [List.mem_append, List.mem_singleton, or_and_right, exists_or, exists_eq_left,
      ← ih hd.1]
    by_cases hi : s.identity = i
    · subst hi
      have hfresh : e ∉ (ofAll r o services).edgesFrom s.identity := by
        rw [ih hd.1]
        rintro ⟨t, ht, hid, -⟩
        exact hd.2.2 _ (List.mem_map_of_mem ht) _ (by simp) hid
      cases hl : Links.ofService r o s <;> simp [hfresh]
    · cases hl : Links.ofService r o s <;> simp [hi, Ne.symm hi]

theorem edgesFrom_ofAll (hd : (services.map Service.identity).Nodup) {s : Service} {links : Links}
    (hs : s ∈ services) (hl : Links.ofService r o s = .ok links) :
    (ofAll r o services).edgesFrom s.identity = links.edges := by
  induction services using List.reverseRecOn with
  | nil => simp at hs
  | append_singleton services t ih =>
    rw [List.map_append, List.nodup_append] at hd
    rw [ofAll_concat, edgesFrom_add]
    rcases List.mem_append.mp hs with hs | hs
    · have hne : s.identity ≠ t.identity :=
        hd.2.2 _ (List.mem_map_of_mem hs) _ (by simp)
      cases Links.ofService r o t <;> simp [hne, ih hd.1 hs]
    · rw [List.mem_singleton.mp hs] at hl ⊢
      simp [hl]

end Build

/-- A dependency that `i` cannot do without is met by `j`. -/
def Strong (g : Graph) (i j : Identity) : Prop :=
  ∃ e ∈ g.edges, e.consumer = i ∧ e.provider = j ∧
    (e.wrapping = .direct ∨ e.wrapping = .deferred)

instance (g : Graph) (i j : Identity) : Decidable (g.Strong i j) :=
  inferInstanceAs (Decidable (∃ e ∈ g.edges, e.consumer = i ∧ e.provider = j ∧
    (e.wrapping = .direct ∨ e.wrapping = .deferred)))

theorem isStrong_iff (w : Wrapping) : w.isStrong = true ↔ w = .direct ∨ w = .deferred := by
  cases w <;> simp [Wrapping.isStrong]

theorem mem_strongSuccessors {g : Graph} {i j : Identity} :
    j ∈ g.strongSuccessors i ↔
      ∃ e ∈ g.edgesFrom i, e.provider = j ∧ (e.wrapping = .direct ∨ e.wrapping = .deferred) := by
  simp only [strongSuccessors, List.mem_map, List.mem_filter, isStrong_iff]
  constructor
  · rintro ⟨e, ⟨he, hw⟩, hp⟩
    exact ⟨e, he, hp, hw⟩
  · rintro ⟨e, he, hp, hw⟩
    exact ⟨e, ⟨he, hw⟩, hp⟩

theorem mem_edges {g : Graph} {e : Edge} : e ∈ g.edges ↔ ∃ i ∈ g.nodes, e ∈ g.edgesFrom i := by
  simp [edges]

theorem lookup_map_pair {f : Identity → List Identity} {i : Identity} {nodes : List Identity} :
    ((nodes.map fun k => (k, f k)).lookup i).getD [] = if i ∈ nodes then f i else [] := by
  induction nodes with
  | nil => simp
  | cons k nodes ih =>
    rw [List.map_cons, Sorted.lookup_cons_ite]
    by_cases hk : i = k
    · simp [hk]
    · rw [if_neg hk, ih]
      simp [hk]

theorem mem_successorsIn {g : Graph} {i j : Identity} :
    j ∈ successorsIn g.successorTable i ↔ i ∈ g.nodes ∧ j ∈ g.strongSuccessors i := by
  rw [successorsIn, successorTable, lookup_map_pair]
  by_cases hi : i ∈ g.nodes <;> simp [hi]

theorem Consistent.consumer_eq {g : Graph} (h : g.Consistent) {i : Identity} {e : Edge}
    (he : e ∈ g.edgesFrom i) : e.consumer = i := by
  unfold edgesFrom at he
  cases hl : g.adjacency.lookup i with
  | none => simp [hl] at he
  | some es =>
    obtain ⟨l₁, l₂, hs, -⟩ := List.lookup_eq_some_iff.mp hl
    exact h.own (i, es) (by simp [hs]) e (by simpa [hl] using he)

theorem Consistent.strong_iff {g : Graph} (h : g.Consistent) {i j : Identity} :
    g.Strong i j ↔ j ∈ successorsIn g.successorTable i := by
  rw [mem_successorsIn, mem_strongSuccessors]
  constructor
  · rintro ⟨e, he, rfl, hp, hw⟩
    obtain ⟨k, hk, he⟩ := mem_edges.mp he
    rw [h.consumer_eq he]
    exact ⟨hk, e, he, hp, hw⟩
  · rintro ⟨hi, e, he, hp, hw⟩
    exact ⟨e, mem_edges.mpr ⟨i, hi, he⟩, h.consumer_eq he, hp, hw⟩

theorem strong_build (r : Registry) (o : Options) (services : List Service) :
    (build r o services).Strong =
      fun i j => j ∈ successorsIn (build r o services).successorTable i := by
  funext i j
  exact propext (consistent_build r o services).strong_iff

theorem successors_mem_reach {g : Graph} (i : Identity) :
    ∀ j ∈ successorsIn g.successorTable i, j ∈ g.reach := by
  intro j hj
  obtain ⟨hi, hj⟩ := mem_successorsIn.mp hj
  obtain ⟨e, he, rfl, -⟩ := mem_strongSuccessors.mp hj
  exact List.mem_append_right _ (List.mem_map_of_mem (mem_edges.mpr ⟨i, hi, he⟩))

end Graph

end Injection
