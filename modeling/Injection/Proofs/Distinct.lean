import Mathlib.Data.List.Induction
import Mathlib.Data.List.Nodup

/-! Removing repetitions from a list keeps the first occurrence of each element. Where keys do not
repeat, they tell elements apart. In a sorted list repetitions follow one another, so that steps that
can be repeated without effect may be taken once. -/
namespace Injection

theorem eraseDups_concat {α : Type} [DecidableEq α] (l : List α) (a : α) :
    (l ++ [a]).eraseDups = if a ∈ l then l.eraseDups else l.eraseDups ++ [a] := by
  rw [List.eraseDups_append]
  by_cases h : a ∈ l <;> simp [List.removeAll, h, List.eraseDups_cons]

theorem nodup_eraseDups {α : Type} [DecidableEq α] (l : List α) : l.eraseDups.Nodup := by
  induction l using List.reverseRecOn with
  | nil => exact .nil
  | append_singleton l a ih =>
    rw [eraseDups_concat]
    split
    · exact ih
    next ha =>
      refine List.nodup_append.mpr ⟨ih, List.nodup_singleton a, fun b hb c hc => ?_⟩
      rintro rfl
      rw [List.mem_singleton.mp hc] at hb
      exact ha (List.mem_eraseDups.mp hb)

theorem eraseDups_sublist {α : Type} [DecidableEq α] (l : List α) : l.eraseDups.Sublist l := by
  induction l using List.reverseRecOn with
  | nil => exact .slnil
  | append_singleton l a ih =>
    rw [eraseDups_concat]
    split
    · exact ih.trans (List.sublist_append_left l [a])
    · exact ih.append (List.Sublist.refl [a])

/-- What is kept of the values of some elements stands in the order in which elements of that value
come first. -/
theorem pairwise_findIdx_eraseDups {α β : Type} [DecidableEq β] (p : α → Bool) (f : α → β)
    (as : List α) :
    ((as.filter p).map f).eraseDups.Pairwise fun b c =>
      (as.findIdx fun a => p a ∧ f a = b) < as.findIdx fun a => p a ∧ f a = c := by
  induction as using List.reverseRecOn with
  | nil => exact .nil
  | append_singleton as a ih =>
    have hlt : ∀ {b}, b ∈ (as.filter p).map f →
        (as.findIdx fun a => p a ∧ f a = b) < as.length := by
      intro b hb
      obtain ⟨x, hx, rfl⟩ := List.mem_map.mp hb
      obtain ⟨hx, hp⟩ := List.mem_filter.mp hx
      exact List.findIdx_lt_length.mpr ⟨x, hx, by simp [hp]⟩
    have has : ((as.filter p).map f).eraseDups.Pairwise fun b c =>
        ((as ++ [a]).findIdx fun a => p a ∧ f a = b) <
          (as ++ [a]).findIdx fun a => p a ∧ f a = c := by
      refine ih.imp_of_mem fun hb hc h => ?_
      rwa [List.findIdx_append, List.findIdx_append, if_pos (hlt (List.mem_eraseDups.mp hb)),
        if_pos (hlt (List.mem_eraseDups.mp hc))]
    by_cases hp : p a = true
    · rw [List.filter_append, List.filter_cons_of_pos hp, List.filter_nil, List.map_append,
        List.map_singleton, eraseDups_concat]
      split
      · exact has
      next ha =>
        refine List.pairwise_append.mpr ⟨has, List.pairwise_singleton _ _, fun b hb c hc => ?_⟩
        have hb := hlt (List.mem_eraseDups.mp hb)
        have hnew : ¬ (as.findIdx fun x => p x ∧ f x = f a) < as.length := by
          intro h
          obtain ⟨x, hx, hpx⟩ := List.findIdx_lt_length.mp h
          obtain ⟨hpx, hfx⟩ := of_decide_eq_true hpx
          exact ha (List.mem_map.mpr ⟨x, List.mem_filter.mpr ⟨hx, hpx⟩, hfx⟩)
        rw [List.mem_singleton.mp hc, List.findIdx_append, List.findIdx_append, if_pos hb,
          if_neg hnew]
        omega
    · rw [List.filter_append, List.filter_cons_of_neg hp, List.filter_nil, List.append_nil]
      exact has

/-- What is kept stands in order of first occurrence. -/
theorem pairwise_idxOf_eraseDups {α : Type} [DecidableEq α] (l : List α) :
    l.eraseDups.Pairwise fun a b => l.idxOf a < l.idxOf b := by
  have h := pairwise_findIdx_eraseDups (fun _ => true) id l
  simpa [List.idxOf, beq_eq_decide] using h

theorem eraseDups_filter {α : Type} [DecidableEq α] (l : List α) (p : α → Bool) :
    (l.filter p).eraseDups = l.eraseDups.filter p := by
  induction l using List.reverseRecOn with
  | nil => rfl
  | append_singleton l a ih =>
    rw [eraseDups_concat, List.filter_append]
    by_cases hp : p a = true
    · rw [List.filter_cons_of_pos hp, List.filter_nil, eraseDups_concat, ih]
      by_cases ha : a ∈ l <;> simp [ha, hp]
    · rw [List.filter_cons_of_neg hp, List.filter_nil, List.append_nil, ih]
      by_cases ha : a ∈ l <;> simp [ha, hp]

/-- Repetitions do not matter for a search. -/
theorem find?_eraseDups {α : Type} [DecidableEq α] (l : List α) (p : α → Bool) :
    l.eraseDups.find? p = l.find? p := by
  induction l using List.reverseRecOn with
  | nil => rfl
  | append_singleton l a ih =>
    rw [eraseDups_concat, List.find?_append]
    split
    next ha =>
      rw [ih]
      cases hf : l.find? p with
      | some b => rfl
      | none =>
        have hpa : p a = false := by simpa using List.find?_eq_none.mp hf a ha
        simp [hpa]
    next ha => rw [List.find?_append, ih]

/-- Where keys do not repeat, a search by key finds what has the key. -/
theorem find?_eq_some_iff_of_nodup {α κ : Type} [DecidableEq κ] {k : α → κ} {as : List α}
    (h : (as.map k).Nodup) {i : κ} {a : α} :
    (as.find? fun b => k b = i) = some a ↔ a ∈ as ∧ k a = i := by
  constructor
  · intro hf
    exact ⟨List.mem_of_find?_eq_some hf, by simpa using List.find?_some hf⟩
  · rintro ⟨ha, rfl⟩
    cases hf : as.find? fun b => k b = k a with
    | none => simpa using List.find?_eq_none.mp hf a ha
    | some b =>
      have hb : k b = k a := by simpa using List.find?_some hf
      rw [List.inj_on_of_nodup_map h (List.mem_of_find?_eq_some hf) ha hb]

/-- Where keys do not repeat, what one element came to can be told by its key. -/
theorem filter_flatMap_of_nodup {α β κ : Type} [DecidableEq κ] {k : α → κ} {key : β → κ}
    {f : α → List β} {as : List α} (h : (as.map k).Nodup)
    (hkey : ∀ a ∈ as, ∀ b ∈ f a, key b = k a) {a : α} (ha : a ∈ as) :
    ((as.flatMap f).filter fun b => key b = k a) = f a := by
  induction as with
  | nil => simp at ha
  | cons c as ih =>
    obtain ⟨hc, hkeys⟩ := List.forall_mem_cons.mp hkey
    obtain ⟨hfresh, hd⟩ := List.nodup_cons.mp h
    rw [List.flatMap_cons, List.filter_append]
    rcases List.mem_cons.mp ha with rfl | ha
    · have hrest : ((as.flatMap f).filter fun b => key b = k a) = [] := by
        simp only [List.filter_eq_nil_iff, List.mem_flatMap, decide_eq_true_eq]
        rintro b ⟨c, hmem, hb⟩ hba
        exact hfresh (List.mem_map.mpr ⟨c, hmem, by rw [← hkeys c hmem b hb, hba]⟩)
      rw [hrest, List.append_nil, List.filter_eq_self]
      exact fun b hb => decide_eq_true (hc b hb)
    · have hfirst : ((f c).filter fun b => key b = k a) = [] := by
        simp only [List.filter_eq_nil_iff, decide_eq_true_eq]
        intro b hb hba
        rw [hc b hb] at hba
        exact hfresh (hba ▸ List.mem_map_of_mem ha)
      rw [hfirst, List.nil_append]
      exact ih hd hkeys ha

theorem eraseDups_append_map_const {β κ : Type} [DecidableEq β] (b : β) (ks : List κ)
    (l : List β) :
    (l ++ ks.map fun _ => b).eraseDups =
      if ks = [] ∨ b ∈ l then l.eraseDups else l.eraseDups ++ [b] := by
  induction ks using List.reverseRecOn with
  | nil => simp
  | append_singleton ks k ih =>
    rw [List.map_append, ← List.append_assoc, List.map_singleton, eraseDups_concat, ih]
    by_cases hb : b ∈ l <;> cases ks <;> simp [hb]

/-- Repetitions of one value count once. -/
theorem eraseDups_flatMap_map_const {α β κ : Type} [DecidableEq β] (f : α → β) (g : α → List κ)
    (as : List α) :
    (as.flatMap fun a => (g a).map fun _ => f a).eraseDups =
      ((as.filter fun a => !(g a).isEmpty).map f).eraseDups := by
  induction as using List.reverseRecOn with
  | nil => rfl
  | append_singleton as a ih =>
    have hmem : f a ∈ as.flatMap (fun a => (g a).map fun _ => f a) ↔
        f a ∈ (as.filter fun a => !(g a).isEmpty).map f := by
      rw [← List.mem_eraseDups, ih, List.mem_eraseDups]
    rw [List.flatMap_append, List.flatMap_singleton, eraseDups_append_map_const, ih,
      List.filter_append, List.map_append]
    cases hg : g a with
    | nil => simp [hg]
    | cons k ks =>
      have hone : ([a].filter fun a => !(g a).isEmpty).map f = [f a] := by simp [hg]
      rw [hone, eraseDups_concat]
      simp only [hmem, List.cons_ne_nil, false_or]

/-- An element that may stand last in a sorted list and occurs in it stands last in it. -/
theorem exists_eq_concat_of_pairwise {α : Type} {R : α → α → Prop}
    (antisymm : ∀ a b, R a b → R b a → a = b) {l : List α} {a : α}
    (h : (l ++ [a]).Pairwise R) (ha : a ∈ l) : ∃ l', l = l' ++ [a] := by
  obtain ⟨hl, -, hlast⟩ := List.pairwise_append.mp h
  rcases List.eq_nil_or_concat' l with rfl | ⟨l', z, rfl⟩
  · cases ha
  have hza : R z a := hlast z (by simp) a (List.mem_singleton_self a)
  rcases List.mem_append.mp ha with hmem | hmem
  · have haz : R a z := (List.pairwise_append.mp hl).2.2 a hmem z (List.mem_singleton_self z)
    exact ⟨l', by rw [antisymm a z haz hza]⟩
  · exact ⟨l', by rw [List.mem_singleton.mp hmem]⟩

theorem foldl_eraseDups_of_pairwise {α β : Type} [DecidableEq α] {R : α → α → Prop}
    (antisymm : ∀ a b, R a b → R b a → a = b) {f : β → α → β} {P : β → Prop}
    (kept : ∀ b a, P b → P (f b a)) (repeated : ∀ b a, P b → f (f b a) a = f b a) {l : List α}
    (h : l.Pairwise R) {b : β} (hb : P b) : l.eraseDups.foldl f b = l.foldl f b := by
  induction l using List.reverseRecOn with
  | nil => rfl
  | append_singleton l a ih =>
    have hl := ih (List.pairwise_append.mp h).1
    rw [eraseDups_concat, List.foldl_append]
    split
    next ha =>
      obtain ⟨l', rfl⟩ := exists_eq_concat_of_pairwise antisymm h ha
      have hprior : P (l'.foldl f b) :=
        List.foldlRecOn l' f hb fun b hb a _ => kept b a hb
      rw [hl, List.foldl_append]
      exact (repeated _ a hprior).symm
    · rw [List.foldl_append, hl]

end Injection
