import Injection.Proofs.CycleSoundness

/-! No cyclic dependency escapes the search: a node is left only when each of its successors was
left before it or closes a recorded cycle, so every closed walk takes a step of a recorded cycle. -/
namespace Injection.Graph

/-- The step from `i` to `j` belongs to one of the cycles. -/
def Closing (cycles : List (List Identity)) (i j : Identity) : Prop :=
  ∃ c ∈ cycles, (i, j) ∈ cycleSteps c

theorem Closing.mono {cs ds : List (List Identity)} (hsub : ∀ c ∈ cs, c ∈ ds) {i j : Identity}
    (h : Closing cs i j) : Closing ds i j := by
  obtain ⟨c, hc, hp⟩ := h
  exact ⟨c, hsub c hc, hp⟩

namespace Search
variable {next : Identity → List Identity} {s s' : Search}

/-- Nodes in the order in which they were left, the last one first: what a node leads to was left
before it, steps of recorded cycles apart. -/
def Left (next : Identity → List Identity) (cycles : List (List Identity)) : List Identity → Prop
  | [] => True
  | i :: left => (∀ j ∈ next i, Closing cycles i j ∨ j ∈ left) ∧ Left next cycles left

/-- A tried successor of a node that is being explored closes a recorded cycle, was left, or is the
node of the frame inside. -/
def Tried (next : Identity → List Identity) (cycles : List (List Identity))
    (left : List Identity) : Option Identity → List Frame → Prop
  | _, [] => True
  | inner, f :: fs =>
    (∀ j ∈ (next f.node).take f.tried, Closing cycles f.node j ∨ j ∈ left ∨ inner = some j) ∧
      Tried next cycles left (some f.node) fs

theorem Left.mono {cs ds : List (List Identity)} (hsub : ∀ c ∈ cs, c ∈ ds) {left : List Identity}
    (h : Left next cs left) : Left next ds left := by
  induction left with
  | nil => trivial
  | cons i left ih => exact ⟨fun j hj => (h.1 j hj).imp_left (.mono hsub), ih h.2⟩

theorem Tried.mono {cs ds : List (List Identity)} {left left' : List Identity}
    (hc : ∀ c ∈ cs, c ∈ ds) (hl : ∀ j ∈ left, j ∈ left') {inner : Option Identity}
    {frames : List Frame} (h : Tried next cs left inner frames) :
    Tried next ds left' inner frames := by
  induction frames generalizing inner with
  | nil => trivial
  | cons f fs ih => exact ⟨fun j hj => (h.1 j hj).imp (.mono hc) (.imp_left (hl j)), ih h.2⟩

/-- Once the inner node is left it no longer needs to be singled out. -/
theorem Tried.forget {cs : List (List Identity)} {left : List Identity} {i : Identity}
    (hi : i ∈ left) {inner : Option Identity} {frames : List Frame}
    (h : Tried next cs left (some i) frames) : Tried next cs left inner frames := by
  cases frames with
  | nil => trivial
  | cons f fs =>
    refine ⟨fun j hj => (h.1 j hj).imp_right fun hh => ?_, h.2⟩
    rcases hh with hh | hh
    · exact .inl hh
    · exact .inl (Option.some.inj hh ▸ hi)

structure Covered (next : Identity → List Identity) (nodes left : List Identity) (s : Search) :
    Prop where
  agrees : Agrees s
  left_closed : Left next s.cycles left
  tried : Tried next s.cycles left none s.frames
  visited_split : ∀ j ∈ s.visited, j ∈ s.path ∨ j ∈ left
  nodes_split : ∀ j ∈ nodes, j ∈ s.roots ∨ j ∈ s.visited

theorem take_succ_of_getElem? {l : List Identity} {k : ℕ} {j : Identity} (h : l[k]? = some j) :
    l.take (k + 1) = l.take k ++ [j] := by
  simp [List.take_add_one, h]

/-- One more successor of the innermost node was tried, and it is accounted for. -/
theorem Tried.advance {cs : List (List Identity)} {left : List Identity} {f : Frame}
    {fs : List Frame} {j : Identity} {inner : Option Identity}
    (h : Tried next cs left none (f :: fs)) (succ : (next f.node)[f.tried]? = some j)
    (hj : Closing cs f.node j ∨ j ∈ left ∨ inner = some j) :
    Tried next cs left inner (⟨f.node, f.tried + 1⟩ :: fs) := by
  refine ⟨fun k hk => ?_, h.2⟩
  rw [take_succ_of_getElem? succ] at hk
  rcases List.mem_append.mp hk with hk | hk
  · exact (h.1 k hk).imp_right (.imp_right nofun)
  · exact List.mem_singleton.mp hk ▸ hj

theorem Step.covered {nodes left : List Identity} (hs : Step next s s')
    (h : Covered next nodes left s) : ∃ left', Covered next nodes left' s' := by
  have ha := hs.agrees h.agrees
  cases hs with
  | @skipRoot root roots idle first known =>
    refine ⟨left, ha, h.left_closed, h.tried, h.visited_split, fun j hj => ?_⟩
    rcases h.nodes_split j hj with hr | hv
    · rw [first] at hr
      rcases List.mem_cons.mp hr with rfl | hr
      · exact .inr known
      · exact .inl hr
    · exact .inr hv
  | @enterRoot root roots idle first fresh =>
    refine ⟨left, ha, h.left_closed, ⟨by simp, ?_⟩, fun j hj => ?_, fun j hj => ?_⟩
    · simp [idle, Tried]
    · rcases List.mem_cons.mp hj with rfl | hj
      · exact .inl (by simp [Search.enter])
      · exact (h.visited_split j hj).imp_left (List.mem_append_left _)
    · rcases h.nodes_split j hj with hr | hv
      · rw [first] at hr
        rcases List.mem_cons.mp hr with rfl | hr
        · exact .inr List.mem_cons_self
        · exact .inl hr
      · exact .inr (List.mem_cons_of_mem _ hv)
  | @leave f fs top done =>
    have ht := h.tried
    rw [top] at ht
    have hall : (next f.node).take f.tried = next f.node :=
      List.take_of_length_le (List.getElem?_eq_none_iff.mp done)
    have hsub : ∀ j ∈ left, j ∈ f.node :: left := fun j hj => List.mem_cons_of_mem _ hj
    refine ⟨f.node :: left, ha, ⟨fun j hj => ?_, h.left_closed⟩, ?_, fun j hj => ?_, h.nodes_split⟩
    · rcases ht.1 j (by rwa [hall]) with hc | hl | hn
      · exact .inl hc
      · exact .inr hl
      · cases hn
    · exact (ht.2.mono (fun _ => id) hsub).forget List.mem_cons_self
    · rcases h.visited_split j hj with hp | hl
      · rw [h.agrees.path_eq_concat top] at hp
        rcases List.mem_append.mp hp with hp | hp
        · exact .inl (by simpa [Search.leave, h.agrees.path_eq_concat top] using hp)
        · exact .inr (List.mem_singleton.mp hp ▸ List.mem_cons_self)
      · exact .inr (hsub j hl)
  | @close f fs j start top succ back =>
    have ht := h.tried
    rw [top] at ht
    have hsub : ∀ c ∈ s.cycles,
        c ∈ ((s.advance f fs).record (rotateToLeast (s.path.drop start))).cycles :=
      fun c hc => mem_cycles_record.mpr (.inl hc)
    have hclose : Closing ((s.advance f fs).record (rotateToLeast (s.path.drop start))).cycles
        f.node j := by
      obtain ⟨rest, hdrop, hlast⟩ := drop_path ((h.agrees.placed j start).mp back)
        (h.agrees.getLast?_path top)
      refine ⟨_, mem_cycles_record.mpr (.inr rfl), mem_cycleSteps_rotateToLeast.mpr ?_⟩
      rw [hdrop]
      exact last_mem_cycleSteps hlast
    exact ⟨left, ha, h.left_closed.mono hsub,
      (ht.mono hsub fun _ => id).advance succ (.inl hclose), h.visited_split, h.nodes_split⟩
  | @skip f fs j top succ off known =>
    have ht := h.tried
    rw [top] at ht
    have hl : j ∈ left := by
      refine (h.visited_split j known).resolve_left fun hp => ?_
      obtain ⟨p, hp⟩ := List.mem_iff_getElem?.mp hp
      rw [(h.agrees.placed j p).mpr hp] at off
      cases off
    exact ⟨left, ha, h.left_closed, ht.advance succ (.inr (.inl hl)), h.visited_split,
      h.nodes_split⟩
  | @enter f fs j top succ off fresh =>
    have ht := h.tried
    rw [top] at ht
    refine ⟨left, ha, h.left_closed, ⟨by simp, ht.advance succ (.inr (.inr rfl))⟩,
      fun k hk => ?_, fun k hk => ?_⟩
    · rcases List.mem_cons.mp hk with rfl | hk
      · exact .inl (by simp [Search.enter])
      · exact (h.visited_split k hk).imp_left (List.mem_append_left _)
    · exact (h.nodes_split k hk).imp_right (List.mem_cons_of_mem _)

theorem idle_of_step_eq_none (h : s.step next = none) : s.frames = [] ∧ s.roots = [] := by
  unfold step at h
  split at h
  next idle =>
    split at h
    next none_left => exact ⟨idle, none_left⟩
    · cases h
  · split at h <;> cases h

theorem Left.next_mem {cs : List (List Identity)} {left : List Identity} (h : Left next cs left)
    {i j : Identity} (hi : i ∈ left) (hj : j ∈ next i) (hc : ¬ Closing cs i j) : j ∈ left := by
  induction left with
  | nil => simp at hi
  | cons k left ih =>
    rcases List.mem_cons.mp hi with rfl | hi
    · exact List.mem_cons_of_mem _ ((h.1 j hj).resolve_left hc)
    · exact List.mem_cons_of_mem _ (ih h.2 hi)

theorem Left.transGen_mem {cs : List (List Identity)} {left : List Identity}
    (h : Left next cs left) {i j : Identity} (hi : i ∈ left)
    (hij : Relation.TransGen (fun i j => j ∈ next i ∧ ¬ Closing cs i j) i j) : j ∈ left := by
  induction hij with
  | single hs => exact h.next_mem hi hs.1 hs.2
  | tail _ hs ih => exact h.next_mem ih hs.1 hs.2

/-- Without the steps of recorded cycles, the way from a node never comes back to it. -/
theorem Left.acyclic {cs : List (List Identity)} {left : List Identity} (h : Left next cs left)
    {i : Identity} (hi : i ∈ left) :
    ¬ Relation.TransGen (fun i j => j ∈ next i ∧ ¬ Closing cs i j) i i := by
  induction left with
  | nil => simp at hi
  | cons k left ih =>
    intro hcycle
    by_cases hmem : i ∈ left
    · exact ih h.2 hmem hcycle
    · obtain rfl := (List.mem_cons.mp hi).resolve_right hmem
      -- The first step goes to a node that was left earlier, and from there on to such nodes only.
      obtain ⟨j, hs, hr⟩ := Relation.TransGen.head'_iff.mp hcycle
      have hj : j ∈ left := (h.1 j hs.1).resolve_left hs.2
      rcases Relation.reflTransGen_iff_eq_or_transGen.mp hr with rfl | hr
      · exact hmem hj
      · exact hmem (h.2.transGen_mem hj hr)

end Search

theorem search_covered (g : Graph) :
    ∃ left, g.search.Covered (successorsIn g.successorTable) g.nodes left := by
  refine (search_steps g).preserve (P := fun s => ∃ left, s.Covered _ g.nodes left)
    (fun _ _ hs ⟨_, h⟩ => hs.covered h)
    ⟨[], Search.agrees_of_idle rfl rfl rfl, trivial, trivial, by simp [searchStart], fun j hj => ?_⟩
  exact .inl ((Sorted.perm_sortBy _ g.nodes).mem_iff.mpr hj)

/-- Without the steps of reported cycles nothing is cyclic. -/
theorem cycles_cover_successors (g : Graph) (i : Identity) :
    ¬ Relation.TransGen
      (fun i j => j ∈ successorsIn g.successorTable i ∧ ¬ Closing g.cycles i j) i i := by
  intro hcycle
  obtain ⟨left, h⟩ := search_covered g
  obtain ⟨idle, done⟩ := Search.idle_of_step_eq_none (search_ended g)
  obtain ⟨j, hs, -⟩ := Relation.TransGen.head'_iff.mp hcycle
  have hvisited : i ∈ g.search.visited := by
    have hh := h.nodes_split i (mem_successorsIn.mp hs.1).1
    simpa [done] using hh
  have hleft : i ∈ left := by
    have hh := h.visited_split i hvisited
    simpa [h.agrees.path_eq_nil idle] using hh
  refine h.left_closed.acyclic hleft (Relation.TransGen.mono (fun a b hab => ?_) i i hcycle)
  exact ⟨hab.1, fun hc => hab.2 (hc.mono fun c hc => mem_cycles.mpr hc)⟩

theorem transGen_of_walk {R : Identity → Identity → Prop} {x : ℕ → Identity} (k : ℕ)
    (h : ∀ n < k + 1, R (x n) (x (n + 1))) : Relation.TransGen R (x 0) (x (k + 1)) := by
  induction k with
  | zero => exact .single (h 0 Nat.zero_lt_one)
  | succ k ih =>
    exact .tail (ih fun n hn => h n (Nat.lt_succ_of_lt hn)) (h (k + 1) (Nat.lt_succ_self _))

/-- Every closed walk along strong edges takes a step of a reported cycle. So there is nothing to
report exactly if the strong edges are acyclic, and they are after the steps of the reported cycles
are taken away. -/
theorem cycles_cover (r : Registry) (o : Options) (services : List Service) :
    let g := build r o services
    (∀ (k : ℕ) (x : ℕ → Identity), 1 ≤ k → x k = x 0 →
      (∀ n < k, g.Strong (x n) (x (n + 1))) →
      ∃ n < k, ∃ c ∈ g.cycles, (x n, x (n + 1)) ∈ cycleSteps c) ∧
    (g.cycles = [] ↔ ∀ i, ¬ Relation.TransGen g.Strong i i) ∧
    ∀ i, ¬ Relation.TransGen
      (fun i j => g.Strong i j ∧ ¬ ∃ c ∈ g.cycles, (i, j) ∈ cycleSteps c) i i := by
  intro g
  rw [strong_build r o services]
  have hcover := cycles_cover_successors g
  refine ⟨fun k x hk hx hwalk => ?_, ⟨fun hnil i hcycle => ?_, fun hacyclic => ?_⟩, hcover⟩
  · by_contra hno
    obtain ⟨k, rfl⟩ := Nat.exists_eq_add_of_le' hk
    refine hcover (x 0) ?_
    conv => rhs; rw [← hx]
    exact transGen_of_walk k fun n hn => ⟨hwalk n hn, fun hc => hno ⟨n, hn, hc⟩⟩
  · refine hcover i (Relation.TransGen.mono (fun a b hab => ⟨hab, ?_⟩) i i hcycle)
    simp [Closing, hnil]
  · refine List.eq_nil_iff_forall_not_mem.mpr fun c hc => ?_
    have hcyc := isCycle_of_mem_cycles hc
    cases c with
    | nil => exact hcyc.nonempty rfl
    | cons i is => exact hacyclic i (transGen_of_cycleSteps hcyc.linked)

/-- The walk from `A` to `C` and back is not reported itself. -/
def shortWalk (n : ℕ) : Identity := if n % 2 = 0 then ⟨"A", 0⟩ else ⟨"C", 0⟩

theorem cycles_cover_shortWalk :
    let g := build ringRegistry {} ringServices
    [⟨"A", 0⟩, ⟨"C", 0⟩] ∉ g.cycles ∧ (∀ n < 2, g.Strong (shortWalk n) (shortWalk (n + 1))) ∧
      ∃ n < 2, ∃ c ∈ g.cycles, (shortWalk n, shortWalk (n + 1)) ∈ cycleSteps c := by
  have hwalk : ∀ n < 2, (build ringRegistry {} ringServices).Strong (shortWalk n)
      (shortWalk (n + 1)) := by decide +kernel
  exact ⟨by decide +kernel, hwalk,
    (cycles_cover ringRegistry {} ringServices).1 2 shortWalk (by decide) rfl hwalk⟩

end Injection.Graph
