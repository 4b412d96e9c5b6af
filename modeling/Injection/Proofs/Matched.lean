import Injection.Proofs.Traversal
import Mathlib.Data.List.Nodup

/-! Lists that match: each element of one has a partner in the other. Order and repetition do not
count. What a program does with the elements one by one keeps lists matched, also where it may
fail. -/
namespace Injection
variable {α β γ δ ε : Type}

/-- Each element of the first list has a partner in the second. -/
def Partnered (R : α → β → Prop) (xs : List α) (ys : List β) : Prop := ∀ x ∈ xs, ∃ y ∈ ys, R x y

structure Matched (R : α → β → Prop) (xs : List α) (ys : List β) : Prop where
  forth : Partnered R xs ys
  back : Partnered (flip R) ys xs

/-- Both computations succeed, and their results are related. -/
def BothOk (S : α → β → Prop) (x : Except ε α) (y : Except ε β) : Prop :=
  ∃ a b, x = .ok a ∧ y = .ok b ∧ S a b

theorem BothOk.exists_iff {S : α → β → Prop} {p : α → Prop} {q : β → Prop} {x : Except ε α}
    {y : Except ε β} (h : BothOk S x y) (hpq : ∀ a b, S a b → (p a ↔ q b)) :
    (∃ a, x = .ok a ∧ p a) ↔ ∃ b, y = .ok b ∧ q b := by
  obtain ⟨a, b, rfl, rfl, hab⟩ := h
  simp [hpq a b hab]

theorem BothOk.map {S : α → β → Prop} {T : γ → δ → Prop} {x : Except ε α} {y : Except ε β}
    {f : α → γ} {g : β → δ} (h : BothOk S x y) (hfg : ∀ a b, S a b → T (f a) (g b)) :
    BothOk T (x.map f) (y.map g) := by
  obtain ⟨a, b, rfl, rfl, hab⟩ := h
  exact ⟨f a, g b, rfl, rfl, hfg a b hab⟩

theorem BothOk.mapM {S : β → γ → Prop} {f : α → Except ε β} {g : α → Except ε γ} {xs : List α}
    (h : ∀ x ∈ xs, BothOk S (f x) (g x)) :
    BothOk (List.Forall₂ S) (xs.mapM f) (xs.mapM g) := by
  induction xs with
  | nil => exact ⟨[], [], rfl, rfl, .nil⟩
  | cons x xs ih =>
    obtain ⟨hx, hxs⟩ := List.forall_mem_cons.mp h
    obtain ⟨y, z, hy, hz, hyz⟩ := hx
    obtain ⟨ys, zs, hys, hzs, hall⟩ := ih hxs
    exact ⟨y :: ys, z :: zs, mapM_cons_eq_ok.mpr ⟨y, ys, hy, hys, rfl⟩,
      mapM_cons_eq_ok.mpr ⟨z, zs, hz, hzs, rfl⟩, .cons hyz hall⟩

theorem eq_none_of_rel {R : α → β → Prop} {y : Option β} (h : Option.Rel R none y) : y = none := by
  cases h
  rfl

theorem exists_of_rel_some {R : α → β → Prop} {a : α} {y : Option β}
    (h : Option.Rel R (some a) y) : ∃ b, y = some b ∧ R a b := by
  cases h with
  | some hr => exact ⟨_, rfl, hr⟩

theorem bind_eq_of_rel {R : α → β → Prop} {x : Option α} {y : Option β} {f : α → Option γ}
    {g : β → Option γ} (h : Option.Rel R x y) (hfg : ∀ a b, R a b → f a = g b) :
    x.bind f = y.bind g := by
  cases h with
  | none => rfl
  | some hr => exact hfg _ _ hr

theorem map_eq_of_rel {R : α → β → Prop} {x : Option α} {y : Option β} {f : α → γ} {g : β → γ}
    (h : Option.Rel R x y) (hfg : ∀ a b, R a b → f a = g b) : x.map f = y.map g := by
  rw [Option.map_eq_bind, Option.map_eq_bind]
  exact bind_eq_of_rel h fun a b hr => congrArg some (hfg a b hr)

theorem rel_option_map {R : α → β → Prop} {S : γ → δ → Prop} {x : Option α} {y : Option β}
    {f : α → γ} {g : β → δ} (h : Option.Rel R x y)
    (hfg : ∀ a b, x = some a → y = some b → R a b → S (f a) (g b)) :
    Option.Rel S (x.map f) (y.map g) := by
  cases h with
  | none => exact .none
  | some hr => exact .some (hfg _ _ rfl rfl hr)

theorem rel_option_ite {R : α → β → Prop} {p q : Prop} [Decidable p] [Decidable q]
    {x x' : Option α} {y y' : Option β} (hpq : p ↔ q) (h : Option.Rel R x y)
    (h' : Option.Rel R x' y') : Option.Rel R (if p then x else x') (if q then y else y') := by
  by_cases hp : p
  · rw [if_pos hp, if_pos (hpq.mp hp)]
    exact h
  · rw [if_neg hp, if_neg fun hq => hp (hpq.mpr hq)]
    exact h'

namespace Partnered
variable {R : α → β → Prop} {S : γ → δ → Prop} {xs : List α} {ys : List β}

theorem map {f : α → γ} {g : β → δ} (h : Partnered R xs ys)
    (hfg : ∀ x y, R x y → S (f x) (g y)) : Partnered S (xs.map f) (ys.map g) := by
  intro u hu
  obtain ⟨x, hx, rfl⟩ := List.mem_map.mp hu
  obtain ⟨y, hy, hr⟩ := h x hx
  exact ⟨g y, List.mem_map_of_mem hy, hfg x y hr⟩

theorem filter {p : α → Bool} {q : β → Bool} (h : Partnered R xs ys)
    (hpq : ∀ x y, R x y → p x = q y) : Partnered R (xs.filter p) (ys.filter q) := by
  intro x hx
  obtain ⟨hx, hp⟩ := List.mem_filter.mp hx
  obtain ⟨y, hy, hr⟩ := h x hx
  exact ⟨y, List.mem_filter.mpr ⟨hy, hpq x y hr ▸ hp⟩, hr⟩

theorem flatMap {f : α → List γ} {g : β → List δ} (h : Partnered R xs ys)
    (hfg : ∀ x y, R x y → Partnered S (f x) (g y)) :
    Partnered S (xs.flatMap f) (ys.flatMap g) := by
  intro u hu
  obtain ⟨x, hx, hu⟩ := List.mem_flatMap.mp hu
  obtain ⟨y, hy, hr⟩ := h x hx
  obtain ⟨v, hv, hs⟩ := hfg x y hr u hu
  exact ⟨v, List.mem_flatMap.mpr ⟨y, hy, hv⟩, hs⟩

theorem append {as : List α} {bs : List β} (h : Partnered R xs ys) (h' : Partnered R as bs) :
    Partnered R (xs ++ as) (ys ++ bs) := by
  intro x hx
  rcases List.mem_append.mp hx with hx | hx
  · obtain ⟨y, hy, hr⟩ := h x hx
    exact ⟨y, List.mem_append_left _ hy, hr⟩
  · obtain ⟨y, hy, hr⟩ := h' x hx
    exact ⟨y, List.mem_append_right _ hy, hr⟩

theorem zipIdx (h : Partnered R xs ys) :
    Partnered (fun p q => R p.1 q.1) xs.zipIdx ys.zipIdx := by
  intro p hp
  obtain ⟨y, hy, hr⟩ := h p.1 (List.fst_mem_of_mem_zipIdx hp)
  rw [← List.zipIdx_map_fst 0 ys] at hy
  obtain ⟨q, hq, rfl⟩ := List.mem_map.mp hy
  exact ⟨q, hq, hr⟩

/-- Results of successful traversals have partners as the traversed elements have. -/
theorem forall₂ {P : α → γ → Prop} {Q : β → δ → Prop} {us : List γ} {vs : List δ}
    (h : Partnered R xs ys) (hus : List.Forall₂ P xs us) (hvs : List.Forall₂ Q ys vs)
    (hs : ∀ x y u v, R x y → P x u → Q y v → S u v) : Partnered S us vs := by
  intro u hu
  obtain ⟨x, hx, hp⟩ := exists_of_forall₂_right hus hu
  obtain ⟨y, hy, hr⟩ := h x hx
  obtain ⟨v, hv, hq⟩ := exists_of_forall₂_left hvs hy
  exact ⟨v, hv, hs x y u v hr hp hq⟩

end Partnered

namespace Matched
variable {R : α → β → Prop} {S : γ → δ → Prop} {xs : List α} {ys : List β}

theorem eq_iff {as bs : List α} : Matched Eq as bs ↔ ∀ a, a ∈ as ↔ a ∈ bs := by
  constructor
  · intro h a
    constructor
    · intro ha
      obtain ⟨b, hb, rfl⟩ := h.forth a ha
      exact hb
    · intro hb
      obtain ⟨b, ha, rfl⟩ := h.back a hb
      exact ha
  · intro h
    exact ⟨fun a ha => ⟨a, (h a).mp ha, rfl⟩, fun b hb => ⟨b, (h b).mpr hb, rfl⟩⟩

theorem refl (as : List α) : Matched Eq as as := eq_iff.mpr fun _ => Iff.rfl

theorem exists_iff {p : α → Prop} {q : β → Prop} (h : Matched R xs ys)
    (hpq : ∀ x y, R x y → (p x ↔ q y)) : (∃ x ∈ xs, p x) ↔ ∃ y ∈ ys, q y := by
  constructor
  · rintro ⟨x, hx, hp⟩
    obtain ⟨y, hy, hr⟩ := h.forth x hx
    exact ⟨y, hy, (hpq x y hr).mp hp⟩
  · rintro ⟨y, hy, hq⟩
    obtain ⟨x, hx, hr⟩ := h.back y hy
    exact ⟨x, hx, (hpq x y hr).mpr hq⟩

theorem of_forall₂ (h : List.Forall₂ R xs ys) : Matched R xs ys :=
  ⟨fun _ hx => exists_of_forall₂_left h hx, fun _ hy => exists_of_forall₂_right h hy⟩

theorem eq_nil_iff (h : Matched R xs ys) : xs = [] ↔ ys = [] := by
  constructor
  · rintro rfl
    refine List.eq_nil_iff_forall_not_mem.mpr fun y hy => ?_
    obtain ⟨x, hx, -⟩ := h.back y hy
    simp at hx
  · rintro rfl
    refine List.eq_nil_iff_forall_not_mem.mpr fun x hx => ?_
    obtain ⟨y, hy, -⟩ := h.forth x hx
    simp at hy

theorem map {f : α → γ} {g : β → δ} (h : Matched R xs ys) (hfg : ∀ x y, R x y → S (f x) (g y)) :
    Matched S (xs.map f) (ys.map g) :=
  ⟨h.forth.map hfg, h.back.map fun y x => hfg x y⟩

theorem filter {p : α → Bool} {q : β → Bool} (h : Matched R xs ys)
    (hpq : ∀ x y, R x y → p x = q y) : Matched R (xs.filter p) (ys.filter q) :=
  ⟨h.forth.filter hpq, h.back.filter fun y x hr => (hpq x y hr).symm⟩

theorem flatMap {f : α → List γ} {g : β → List δ} (h : Matched R xs ys)
    (hfg : ∀ x y, R x y → Matched S (f x) (g y)) : Matched S (xs.flatMap f) (ys.flatMap g) :=
  ⟨h.forth.flatMap fun x y hr => (hfg x y hr).forth,
    h.back.flatMap fun y x hr => (hfg x y hr).back⟩

theorem filterMap {f : α → Option γ} {g : β → Option δ} (h : Matched R xs ys)
    (hfg : ∀ x y, R x y → Option.Rel S (f x) (g y)) :
    Matched S (xs.filterMap f) (ys.filterMap g) := by
  rw [List.filterMap_eq_flatMap_toList, List.filterMap_eq_flatMap_toList]
  refine h.flatMap fun x y hr => ?_
  have hxy := hfg x y hr
  generalize f x = u, g y = v at hxy
  cases hxy with
  | none => exact of_forall₂ .nil
  | some hs => exact of_forall₂ (.cons hs .nil)

theorem append {as : List α} {bs : List β} (h : Matched R xs ys) (h' : Matched R as bs) :
    Matched R (xs ++ as) (ys ++ bs) :=
  ⟨h.forth.append h'.forth, h.back.append h'.back⟩

theorem eraseDups [DecidableEq α] {as bs : List α} (h : Matched Eq as bs) :
    Matched Eq as.eraseDups bs.eraseDups := by
  simp only [eq_iff, List.mem_eraseDups]
  exact eq_iff.mp h

theorem reverse (h : Matched R xs ys) : Matched R xs.reverse ys.reverse := by
  refine ⟨fun x hx => ?_, fun y hy => ?_⟩
  · simpa using h.forth x (List.mem_reverse.mp hx)
  · simpa using h.back y (List.mem_reverse.mp hy)

theorem zipIdx (h : Matched R xs ys) : Matched (fun p q => R p.1 q.1) xs.zipIdx ys.zipIdx :=
  ⟨h.forth.zipIdx, h.back.zipIdx⟩

/-- The elements that are found under a key are partners, if no two share one. -/
theorem find? {κ : Type} [DecidableEq κ] {k : α → κ} {k' : β → κ} (h : Matched R xs ys)
    (hk : ∀ x y, R x y → k x = k' y) (hy : (ys.map k').Nodup) (i : κ) :
    Option.Rel R (xs.find? fun x => k x = i) (ys.find? fun y => k' y = i) := by
  cases hf : xs.find? fun x => k x = i with
  | none =>
    have hnone : ys.find? (fun y => k' y = i) = none := by
      refine List.find?_eq_none.mpr fun y hmem hi => ?_
      obtain ⟨x, hxs, hr⟩ := h.back y hmem
      exact List.find?_eq_none.mp hf x hxs (by simpa [hk x y hr] using hi)
    rw [hnone]
    exact .none
  | some x =>
    have hxi : k x = i := by simpa using List.find?_some hf
    obtain ⟨y, hmem, hr⟩ := h.forth x (List.mem_of_find?_eq_some hf)
    have hyi : k' y = i := (hk x y hr).symm.trans hxi
    cases hg : ys.find? fun y => k' y = i with
    | none => exact absurd (by simpa using hyi) (List.find?_eq_none.mp hg y hmem)
    | some y' =>
      have hy'i : k' y' = i := by simpa using List.find?_some hg
      obtain rfl := List.inj_on_of_nodup_map hy (List.mem_of_find?_eq_some hg) hmem
        (hy'i.trans hyi.symm)
      exact .some hr

theorem mapM_option {f : α → Option γ} {g : β → Option δ} (h : Matched R xs ys)
    (hfg : ∀ x y, R x y → Option.Rel S (f x) (g y)) :
    Option.Rel (Matched S) (xs.mapM f) (ys.mapM g) := by
  have hsome : ∀ x y, R x y → (f x).isSome = (g y).isSome := by
    intro x y hr
    have hxy := hfg x y hr
    generalize f x = u, g y = v at hxy
    cases hxy <;> rfl
  have hiff : (xs.mapM f).isSome ↔ (ys.mapM g).isSome := by
    rw [isSome_mapM_iff, isSome_mapM_iff]
    constructor
    · intro hall y hy
      obtain ⟨x, hx, hr⟩ := h.back y hy
      exact hsome x y hr ▸ hall x hx
    · intro hall x hx
      obtain ⟨y, hy, hr⟩ := h.forth x hx
      exact hsome x y hr ▸ hall y hy
  have hrel : ∀ x y u v, R x y → f x = some u → g y = some v → S u v := by
    intro x y u v hr hu hv
    have hxy := hfg x y hr
    rw [hu, hv] at hxy
    cases hxy
    assumption
  cases hf : xs.mapM f with
  | none =>
    cases hg : ys.mapM g with
    | none => exact .none
    | some vs => simp [hf, hg] at hiff
  | some us =>
    cases hg : ys.mapM g with
    | none => simp [hf, hg] at hiff
    | some vs =>
      have hus := mapM_eq_some_iff.mp hf
      have hvs := mapM_eq_some_iff.mp hg
      exact .some ⟨h.forth.forall₂ hus hvs hrel,
        h.back.forall₂ hvs hus fun y x v u hr hv hu => hrel x y u v hr hu hv⟩

theorem mapM_except {f : α → Except ε γ} {g : β → Except ε δ} (h : Matched R xs ys)
    (hfg : ∀ x y, R x y → BothOk S (f x) (g y)) :
    BothOk (Matched S) (xs.mapM f) (ys.mapM g) := by
  obtain ⟨us, hus⟩ : ∃ us, xs.mapM f = .ok us := by
    refine exists_mapM_eq_ok fun x hx => ?_
    obtain ⟨y, -, hr⟩ := h.forth x hx
    obtain ⟨u, -, hu, -⟩ := hfg x y hr
    exact ⟨u, hu⟩
  obtain ⟨vs, hvs⟩ : ∃ vs, ys.mapM g = .ok vs := by
    refine exists_mapM_eq_ok fun y hy => ?_
    obtain ⟨x, -, hr⟩ := h.back y hy
    obtain ⟨-, v, -, hv, -⟩ := hfg x y hr
    exact ⟨v, hv⟩
  have hrel : ∀ x y u v, R x y → f x = .ok u → g y = .ok v → S u v := by
    intro x y u v hr hu hv
    obtain ⟨a, b, ha, hb, hs⟩ := hfg x y hr
    rw [ha] at hu
    rw [hb] at hv
    cases hu
    cases hv
    exact hs
  have hus' := mapM_eq_ok_iff.mp hus
  have hvs' := mapM_eq_ok_iff.mp hvs
  exact ⟨us, vs, hus, hvs, h.forth.forall₂ hus' hvs' hrel,
    h.back.forall₂ hvs' hus' fun y x v u hr hv hu => hrel x y u v hr hu hv⟩

end Matched

end Injection
