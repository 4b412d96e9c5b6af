import Injection.Graph.Cycle
import Injection.Proofs.Sorted
import Mathlib.Logic.Relation

/-! The search for cycles step by step: what one step can do, that only finitely many steps are
possible, and that the frames, the path and the positions stay in agreement. -/
namespace Injection.Graph.Search
variable {next : Identity → List Identity} {s s' : Search}

inductive Step (next : Identity → List Identity) (s : Search) : Search → Prop
  | skipRoot {root : Identity} {roots : List Identity} (idle : s.frames = [])
      (first : s.roots = root :: roots) (known : root ∈ s.visited) : Step next s { s with roots }
  | enterRoot {root : Identity} {roots : List Identity} (idle : s.frames = [])
      (first : s.roots = root :: roots) (fresh : root ∉ s.visited) :
      Step next s ({ s with roots }.enter root)
  | leave {f : Frame} {fs : List Frame} (top : s.frames = f :: fs)
      (done : (next f.node)[f.tried]? = none) : Step next s (s.leave f.node fs)
  | close {f : Frame} {fs : List Frame} {j : Identity} {start : Nat} (top : s.frames = f :: fs)
      (succ : (next f.node)[f.tried]? = some j) (back : s.positions.lookup j = some start) :
      Step next s ((s.advance f fs).record (rotateToLeast (s.path.drop start)))
  | skip {f : Frame} {fs : List Frame} {j : Identity} (top : s.frames = f :: fs)
      (succ : (next f.node)[f.tried]? = some j) (off : s.positions.lookup j = none)
      (known : j ∈ s.visited) : Step next s (s.advance f fs)
  | enter {f : Frame} {fs : List Frame} {j : Identity} (top : s.frames = f :: fs)
      (succ : (next f.node)[f.tried]? = some j) (off : s.positions.lookup j = none)
      (fresh : j ∉ s.visited) : Step next s ((s.advance f fs).enter j)

theorem Step.of_step (h : s.step next = some s') : Step next s s' := by
  unfold step at h
  split at h
  next idle =>
    split at h
    · cases h
    next root roots first =>
      cases h
      unfold visit
      split
      next known => exact .skipRoot idle first known
      next fresh => exact .enterRoot idle first fresh
  next f fs top =>
    split at h
    next done =>
      cases h
      exact .leave top done
    next j succ =>
      cases h
      unfold follow
      split
      next start back => exact .close top succ back
      next off =>
        unfold visit
        split
        next known => exact .skip top succ off known
        next fresh => exact .enter top succ off fresh

/-- Any number of steps one after the other. -/
def Steps (next : Identity → List Identity) : Search → Search → Prop :=
  Relation.ReflTransGen fun s s' => s.step next = some s'

theorem Steps.preserve {P : Search → Prop} (hp : ∀ s s', Step next s s' → P s → P s')
    (h : Steps next s s') (hs : P s) : P s' := by
  induction h with
  | refl => exact hs
  | tail _ hstep ih => exact hp _ _ (.of_step hstep) ih

theorem run_steps (n : Nat) (s : Search) : Steps next s (run next n s) := by
  induction n generalizing s with
  | zero => exact .refl
  | succ n ih =>
    rw [run]
    split
    · exact .refl
    next s' h => exact .head h (ih s')

/-! ## The search ends -/

/-- What entering the nodes of `U` that were not visited yet will take. -/
def unvisitedWork (next : Identity → List Identity) (U visited : List Identity) : Nat :=
  (U.filter (· ∉ visited)).foldr (fun i n => (next i).length + 1 + n) 0

def framesWork (next : Identity → List Identity) (frames : List Frame) : Nat :=
  frames.foldr (fun f n => (next f.node).length - f.tried + 1 + n) 0

/-- An upper bound of the number of steps still to come. -/
def work (next : Identity → List Identity) (U : List Identity) (s : Search) : Nat :=
  s.roots.length + framesWork next s.frames + unvisitedWork next U s.visited

theorem unvisitedWork_cons (next : Identity → List Identity) (k : Identity)
    (U visited : List Identity) :
    unvisitedWork next (k :: U) visited =
      (if k ∈ visited then 0 else (next k).length + 1) + unvisitedWork next U visited := by
  by_cases h : k ∈ visited <;> simp [unvisitedWork, h]

theorem unvisitedWork_le (next : Identity → List Identity) (i : Identity)
    (U visited : List Identity) :
    unvisitedWork next U (i :: visited) ≤ unvisitedWork next U visited := by
  induction U with
  | nil => exact le_rfl
  | cons k U ih =>
    rw [unvisitedWork_cons, unvisitedWork_cons]
    refine Nat.add_le_add ?_ ih
    by_cases hk : k ∈ visited <;> simp [hk]
    split <;> omega

theorem unvisitedWork_lt (next : Identity → List Identity) {i : Identity}
    {U visited : List Identity} (hU : i ∈ U) (hi : i ∉ visited) :
    unvisitedWork next U (i :: visited) + ((next i).length + 1) ≤ unvisitedWork next U visited := by
  induction U with
  | nil => simp at hU
  | cons k U ih =>
    rw [unvisitedWork_cons, unvisitedWork_cons]
    by_cases hk : k = i
    · have hle := unvisitedWork_le next i U visited
      simp only [hk, hi, List.mem_cons_self, if_true, if_false]
      omega
    · have hh := ih ((List.mem_cons.mp hU).resolve_left (Ne.symm hk))
      simp only [List.mem_cons, hk, false_or]
      omega

/-- Every step takes away some of the work. -/
theorem Step.work_lt {U : List Identity} (closed : ∀ i, ∀ j ∈ next i, j ∈ U)
    (hroots : ∀ i ∈ s.roots, i ∈ U) (h : Step next s s') : work next U s' < work next U s := by
  cases h with
  | skipRoot idle first known => simp [work, first]
  | @enterRoot root roots idle first fresh =>
    have hh := unvisitedWork_lt next (hroots root (by simp [first])) fresh
    simp only [work, Search.enter, framesWork, idle, first, List.foldr_cons, List.foldr_nil,
      List.length_cons]
    omega
  | leave top done => simp [work, Search.leave, framesWork, top]
  | @close f fs j start top succ back =>
    obtain ⟨hlt, _⟩ := List.getElem?_eq_some_iff.mp succ
    simp only [work, advance, record, framesWork, top, List.foldr_cons]
    omega
  | @skip f fs j top succ off known =>
    obtain ⟨hlt, _⟩ := List.getElem?_eq_some_iff.mp succ
    simp only [work, advance, framesWork, top, List.foldr_cons]
    omega
  | @enter f fs j top succ off fresh =>
    obtain ⟨hlt, _⟩ := List.getElem?_eq_some_iff.mp succ
    have hh := unvisitedWork_lt next (closed f.node j (List.mem_of_getElem? succ)) fresh
    simp only [work, advance, Search.enter, framesWork, top, List.foldr_cons]
    omega

theorem Step.roots_subset {U : List Identity} (h : Step next s s') (hroots : ∀ i ∈ s.roots, i ∈ U) :
    ∀ i ∈ s'.roots, i ∈ U := by
  cases h with
  | skipRoot idle first known => exact fun i hi => hroots i (by simp_all)
  | enterRoot idle first fresh => exact fun i hi => hroots i (by simp_all [Search.enter])
  | leave top done => exact hroots
  | close top succ back => exact hroots
  | skip top succ off known => exact hroots
  | enter top succ off fresh => exact hroots

theorem run_ended {U : List Identity} (closed : ∀ i, ∀ j ∈ next i, j ∈ U) (n : Nat) (s : Search)
    (hroots : ∀ i ∈ s.roots, i ∈ U) (hn : work next U s ≤ n) : (run next n s).step next = none := by
  induction n generalizing s with
  | zero =>
    cases h : s.step next with
    | none => exact h
    | some s' =>
      have := (Step.of_step h).work_lt closed hroots
      omega
  | succ n ih =>
    rw [run]
    split
    next h => exact h
    next s' h =>
      have hlt := (Step.of_step h).work_lt closed hroots
      exact ih s' ((Step.of_step h).roots_subset hroots) (by omega)

theorem Steps.eq_of_ended (h : Steps next s s') (ended : s.step next = none) : s' = s := by
  rcases Relation.ReflTransGen.cases_head h with rfl | ⟨t, hst, -⟩
  · rfl
  · simp [ended] at hst

/-- The search ends in one way only. -/
theorem Steps.ended_unique {t t' : Search} (h : Steps next s t) (h' : Steps next s t')
    (ended : t.step next = none) (ended' : t'.step next = none) : t = t' := by
  have hunique : Relator.RightUnique fun s s' : Search => s.step next = some s' :=
    fun _ _ _ hb hc => Option.some.inj (hb.symm.trans hc)
  rcases Relation.ReflTransGen.total_of_right_unique hunique h h' with ht | ht
  · exact (Steps.eq_of_ended ht ended).symm
  · exact Steps.eq_of_ended ht ended'

/-! ## The path -/

structure Agrees (s : Search) : Prop where
  nodes : s.path = (s.frames.map Frame.node).reverse
  distinct : s.path.Nodup
  placed : ∀ j p, s.positions.lookup j = some p ↔ s.path[p]? = some j
  seen : ∀ j ∈ s.path, j ∈ s.visited

theorem agrees_of_idle (hf : s.frames = []) (hp : s.path = []) (ho : s.positions = []) :
    Agrees s := by
  constructor <;> simp [hf, hp, ho]

theorem getElem?_concat_eq_some {α : Type} {l : List α} {a b : α} {p : Nat} :
    (l ++ [a])[p]? = some b ↔ l[p]? = some b ∨ p = l.length ∧ b = a := by
  rcases Nat.lt_trichotomy p l.length with hp | rfl | hp
  · simp [List.getElem?_append_left hp, hp.ne]
  · simp [eq_comm]
  · have hn : l[p]? = none := List.getElem?_eq_none hp.le
    have hn' : (l ++ [a])[p]? = none := List.getElem?_eq_none (by simpa using Nat.succ_le_of_lt hp)
    simp [hn, hn', hp.ne']

theorem Agrees.enter (h : Agrees s) {i : Identity} (fresh : i ∉ s.visited) :
    Agrees (s.enter i) := by
  have hi : i ∉ s.path := fun hm => fresh (h.seen i hm)
  refine ⟨by simp [Search.enter, h.nodes], ?_, fun j p => ?_, fun j hj => ?_⟩
  · change (s.path ++ [i]).Nodup
    rw [← List.concat_eq_append, List.nodup_concat]
    exact ⟨hi, h.distinct⟩
  · rw [Search.enter, Sorted.lookup_cons_ite, getElem?_concat_eq_some, ← h.placed]
    split
    next hj =>
      subst hj
      have hn : s.positions.lookup j ≠ some p := fun hp =>
        hi (List.mem_of_getElem? ((h.placed j p).mp hp))
      simp [hn, eq_comm]
    next hj => simp [hj]
  · rcases List.mem_append.mp hj with hj | hj
    · exact List.mem_cons_of_mem _ (h.seen j hj)
    · rw [List.mem_singleton.mp hj]
      exact List.mem_cons_self

theorem Agrees.leave (h : Agrees s) {f : Frame} {fs : List Frame} (top : s.frames = f :: fs) :
    Agrees (s.leave f.node fs) := by
  have hpath : s.path = (fs.map Frame.node).reverse ++ [f.node] := by simp [h.nodes, top]
  have hdrop : s.path.dropLast = (fs.map Frame.node).reverse := by simp [hpath]
  have hd := h.distinct
  rw [hpath, ← List.concat_eq_append, List.nodup_concat] at hd
  refine ⟨hdrop, ?_, fun j p => ?_, fun j hj => ?_⟩
  · change s.path.dropLast.Nodup
    rw [hdrop]
    exact hd.2
  · have hp := h.placed j p
    rw [hpath, getElem?_concat_eq_some] at hp
    simp only [Search.leave, Sorted.lookup_filter_ne, hdrop]
    split
    next hj =>
      have hn : (fs.map Frame.node).reverse[p]? ≠ some j := fun he =>
        hd.1 (hj ▸ List.mem_of_getElem? he)
      simp [hn]
    next hj => simp [hp, hj]
  · exact h.seen j (List.dropLast_subset _ hj)

theorem Agrees.advance (h : Agrees s) {f : Frame} {fs : List Frame} (top : s.frames = f :: fs) :
    Agrees (s.advance f fs) :=
  ⟨by simp [Search.advance, h.nodes, top], h.distinct, h.placed, h.seen⟩

theorem Step.agrees (hs : Step next s s') (h : Agrees s) : Agrees s' := by
  cases hs with
  | skipRoot idle first known => exact ⟨h.nodes, h.distinct, h.placed, h.seen⟩
  | @enterRoot root roots idle first fresh =>
    have hr : Agrees { s with roots } := ⟨h.nodes, h.distinct, h.placed, h.seen⟩
    exact hr.enter fresh
  | leave top done => exact h.leave top
  | close top succ back =>
    have ha := h.advance top
    exact ⟨ha.nodes, ha.distinct, ha.placed, ha.seen⟩
  | skip top succ off known => exact h.advance top
  | enter top succ off fresh => exact (h.advance top).enter fresh

end Injection.Graph.Search
