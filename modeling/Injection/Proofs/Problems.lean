import Injection.Proofs.Matched
import Injection.Report

/-! The problems that findings report. Merging keeps the problems of the enabled kinds, whatever it
does to the findings themselves. -/
namespace Injection

namespace Finding

/-- The findings about one declaration. -/
def about (i : Identity) (fs : List Finding) : List Finding := fs.filter fun f => f.subject = i

def problems (fs : List Finding) : List (Kind × Identity × Related) := fs.map problem

@[simp] theorem problems_nil : problems [] = [] := rfl

@[simp] theorem problems_cons (f : Finding) (fs : List Finding) :
    problems (f :: fs) = f.problem :: problems fs :=
  rfl

@[simp] theorem problems_append (fs fs' : List Finding) :
    problems (fs ++ fs') = problems fs ++ problems fs' :=
  List.map_append

theorem mem_problems_flatten {fss : List (List Finding)} {p : Kind × Identity × Related} :
    p ∈ problems fss.flatten ↔ ∃ fs ∈ fss, p ∈ problems fs := by
  rw [problems, List.map_flatten, List.mem_flatten]
  simp [problems]

theorem mem_problems {fs : List Finding} {p : Kind × Identity × Related} :
    p ∈ problems fs ↔ ∃ f ∈ fs, f.problem = p :=
  List.mem_map

theorem not_mem_problems_of_kind {fs : List Finding} {k k' : Kind} (h : ∀ f ∈ fs, f.kind = k')
    (hne : k ≠ k') (i : Identity) (related : Related) : (k, i, related) ∉ problems fs := by
  intro hmem
  obtain ⟨f, hf, hp⟩ := mem_problems.mp hmem
  have hk : f.kind = k := congrArg Prod.fst hp
  exact hne (hk.symm.trans (h f hf))

theorem mem_problems_distinct {fs : List Finding} {seen : List (Kind × Identity × Related)}
    {p : Kind × Identity × Related} :
    p ∈ problems (distinct seen fs) ↔ p ∈ problems fs ∧ p ∉ seen := by
  induction fs generalizing seen with
  | nil => simp [distinct]
  | cons f fs ih =>
    rw [distinct]
    split
    next hseen =>
      rw [ih, problems_cons, List.mem_cons]
      constructor
      · exact fun ⟨hp, hn⟩ => ⟨.inr hp, hn⟩
      · rintro ⟨rfl | hp, hn⟩
        · exact absurd hseen hn
        · exact ⟨hp, hn⟩
    next hseen =>
      rw [problems_cons, problems_cons, List.mem_cons, List.mem_cons, ih, List.mem_cons, not_or]
      by_cases hp : p = f.problem
      · simp [hp, hseen]
      · simp [hp]

theorem nodup_problems_distinct (seen : List (Kind × Identity × Related)) (fs : List Finding) :
    (problems (distinct seen fs)).Nodup := by
  induction fs generalizing seen with
  | nil => exact .nil
  | cons f fs ih =>
    rw [distinct]
    split
    · exact ih seen
    · refine List.nodup_cons.mpr ⟨fun hf => ?_, ih _⟩
      exact (mem_problems_distinct.mp hf).2 List.mem_cons_self

/-- Merged findings report the problems that the enabled ones report, each once. -/
theorem problems_merge (o : Options) (order : List Identity) (buffers : List (List Finding)) :
    (problems (merge o order buffers)).Perm (if o.reporting then
      problems (distinct [] (buffers.flatten.filter fun f => !o.isDisabled f.kind)) else []) := by
  unfold merge
  split
  · refine ((Sorted.perm_sortBy _ _).map _).trans ?_
    rw [List.map_map]
    exact .refl _
  · exact .refl _

theorem nodup_problems_merge (o : Options) (order : List Identity)
    (buffers : List (List Finding)) : (problems (merge o order buffers)).Nodup := by
  rw [(problems_merge o order buffers).nodup_iff]
  split
  · exact nodup_problems_distinct [] _
  · exact .nil

theorem severity_of_mem_merge {o : Options} {order : List Identity}
    {buffers : List (List Finding)} {f : Finding} (hf : f ∈ merge o order buffers) :
    f.severity = o.severityOf f.kind := by
  unfold merge at hf
  split at hf
  · obtain ⟨f', -, rfl⟩ := List.mem_map.mp ((Sorted.perm_sortBy _ _).mem_iff.mp hf)
    rfl
  · cases hf

theorem mem_problems_merge {o : Options} {order : List Identity} {buffers : List (List Finding)}
    {p : Kind × Identity × Related} :
    p ∈ problems (merge o order buffers) ↔
      o.reporting ∧ o.isDisabled p.1 = false ∧ p ∈ problems buffers.flatten := by
  rw [(problems_merge o order buffers).mem_iff]
  split
  next hr =>
    rw [mem_problems_distinct, mem_problems, mem_problems]
    constructor
    · rintro ⟨⟨f, hf, rfl⟩, -⟩
      obtain ⟨hf, hd⟩ := List.mem_filter.mp hf
      exact ⟨hr, by simpa [problem] using hd, f, hf, rfl⟩
    · rintro ⟨-, hd, f, hf, rfl⟩
      exact ⟨⟨f, List.mem_filter.mpr ⟨hf, by simpa [problem] using hd⟩, rfl⟩, by simp⟩
  next hr => simp [hr]

end Finding

open Finding

/-- The lists report the same problems, as far as the kinds in `q` are concerned. -/
def SameProblems (q : Kind → Prop) (fs fs' : List Finding) : Prop :=
  ∀ p : Kind × Identity × Related, q p.1 → (p ∈ problems fs ↔ p ∈ problems fs')

namespace SameProblems
variable {q : Kind → Prop} {fs fs' gs gs' : List Finding}

theorem refl (fs : List Finding) : SameProblems q fs fs := fun _ _ => Iff.rfl

theorem of_matched (h : Matched (fun f f' => f.problem = f'.problem) fs fs') :
    SameProblems q fs fs' :=
  fun p _ => Matched.eq_iff.mp (h.map fun _ _ hp => hp) p

/-- Lists without findings of the kinds. -/
theorem of_forall_not (h : ∀ f ∈ fs, ¬ q f.kind) (h' : ∀ f ∈ fs', ¬ q f.kind) :
    SameProblems q fs fs' := by
  intro p hp
  rw [mem_problems, mem_problems]
  constructor
  · rintro ⟨f, hf, rfl⟩
    exact absurd hp (h f hf)
  · rintro ⟨f, hf, rfl⟩
    exact absurd hp (h' f hf)

theorem append (h : SameProblems q fs fs') (h' : SameProblems q gs gs') :
    SameProblems q (fs ++ gs) (fs' ++ gs') := by
  intro p hp
  rw [problems_append, problems_append, List.mem_append, List.mem_append, h p hp, h' p hp]

theorem flatMap {α β : Type} {R : α → β → Prop} {xs : List α} {ys : List β} {f : α → List Finding}
    {g : β → List Finding} (h : Matched R xs ys)
    (hfg : ∀ x y, R x y → SameProblems q (f x) (g y)) :
    SameProblems q (xs.flatMap f) (ys.flatMap g) := by
  intro p hp
  rw [problems, problems, List.map_flatMap, List.map_flatMap, List.mem_flatMap, List.mem_flatMap]
  exact h.exists_iff fun x y hr => hfg x y hr p hp

theorem flatten {fss fss' : List (List Finding)} (h : Matched (SameProblems q) fss fss') :
    SameProblems q fss.flatten fss'.flatten := by
  rw [← List.flatMap_id, ← List.flatMap_id]
  exact flatMap h fun _ _ hs => hs

theorem merge {buffers buffers' : List (List Finding)}
    (h : SameProblems q buffers.flatten buffers'.flatten) (o : Options)
    (order order' : List Identity) :
    SameProblems q (merge o order buffers) (merge o order' buffers') := by
  intro p hp
  rw [mem_problems_merge, mem_problems_merge, h p hp]

end SameProblems

end Injection
