import Injection.Proofs.RegistryOrder
import Mathlib.Algebra.BigOperators.Group.Finset.Basic
import Mathlib.Data.Set.Finite.Lattice

/-! The expansion of contracts finds every contract that the given ones extend, directly or through
others. It takes one step for each given contract and one for each extension of a contract that is
found, so it comes to an end exactly if these are finitely many. -/
namespace Injection

namespace Catalogue
variable {c : Catalogue} {roots pending found result : List Signature} {s : Signature}

/-- The contract is among `roots`, or one of these extends it, directly or through others. -/
inductive Reached (c : Catalogue) (roots : List Signature) : Signature → Prop
  | root {s : Signature} (h : s ∈ roots) : Reached c roots s
  | step {s t : Signature} (h : Reached c roots s) (ht : t ∈ c.extendedBy s) : Reached c roots t

theorem mem_extendedBy_iff {t : Signature} :
    t ∈ c.extendedBy s ↔ ∃ x, c.lookup? s = some x ∧ x.kind = .contract ∧
      ∃ u ∈ x.contracts, u.subst (Signature.bind x.params s.args) = t := by
  unfold extendedBy
  cases c.lookup? s with
  | none => simp
  | some x => by_cases hk : x.kind = .contract <;> simp [hk]

theorem mem_directContracts {e : Entry} :
    s ∈ c.directContracts e ↔ s ∈ e.contracts ∨
      ∃ a ∈ c.ancestors e.identity, ∃ t ∈ a.entry.contracts, t.subst a.bindings = s := by
  simp [directContracts]

@[simp] theorem expand_nil (fuel : Nat) : c.expand fuel [] found = some found := by
  rw [expand]

@[simp] theorem expand_zero_cons : c.expand 0 (s :: pending) found = none := by
  rw [expand]

theorem expand_known (fuel : Nat) (h : s ∈ found) :
    c.expand (fuel + 1) (s :: pending) found = c.expand fuel pending found := by
  rw [expand, if_pos h]

theorem expand_new (fuel : Nat) (h : s ∉ found) :
    c.expand (fuel + 1) (s :: pending) found =
      c.expand fuel (c.extendedBy s ++ pending) (found ++ [s]) := by
  rw [expand, if_neg h]

/-! ## What is found -/

/-- Nothing is lost on the way: what is still to come is found or pending. -/
structure Underway (c : Catalogue) (roots pending found : List Signature) : Prop where
  ahead : ∀ s ∈ pending, c.Reached roots s
  taken : ∀ s ∈ found, c.Reached roots s
  begun : ∀ s ∈ roots, s ∈ found ∨ s ∈ pending
  extended : ∀ s ∈ found, ∀ t ∈ c.extendedBy s, t ∈ found ∨ t ∈ pending

theorem Underway.start (c : Catalogue) (roots : List Signature) : c.Underway roots roots [] where
  ahead _ hs := .root hs
  taken _ hs := by simp at hs
  begun _ hs := .inr hs
  extended _ hs := by simp at hs

theorem Underway.known (h : c.Underway roots (s :: pending) found) (hs : s ∈ found) :
    c.Underway roots pending found := by
  have hrest : ∀ t, t ∈ found ∨ t ∈ s :: pending → t ∈ found ∨ t ∈ pending := by
    intro t ht
    rcases ht with ht | ht
    · exact .inl ht
    · rcases List.mem_cons.mp ht with rfl | ht
      · exact .inl hs
      · exact .inr ht
  refine ⟨fun t ht => h.ahead t (by simp [ht]), h.taken, fun t ht => ?_, fun t ht u hu => ?_⟩
  · exact hrest t (h.begun t ht)
  · exact hrest u (h.extended t ht u hu)

theorem Underway.new (h : c.Underway roots (s :: pending) found) :
    c.Underway roots (c.extendedBy s ++ pending) (found ++ [s]) := by
  have hs : c.Reached roots s := h.ahead s (by simp)
  have hrest : ∀ t, t ∈ found ∨ t ∈ s :: pending →
      t ∈ found ++ [s] ∨ t ∈ c.extendedBy s ++ pending := by
    intro t ht
    simp only [List.mem_append, List.mem_cons, List.not_mem_nil, or_false] at ht ⊢
    tauto
  refine ⟨fun t ht => ?_, fun t ht => ?_, fun t ht => hrest t (h.begun t ht), fun t ht u hu => ?_⟩
  · rcases List.mem_append.mp ht with ht | ht
    · exact .step hs ht
    · exact h.ahead t (by simp [ht])
  · rcases List.mem_append.mp ht with ht | ht
    · exact h.taken t ht
    · rw [List.mem_singleton.mp ht]
      exact hs
  · rcases List.mem_append.mp ht with ht | ht
    · exact hrest u (h.extended t ht u hu)
    · rw [List.mem_singleton.mp ht] at hu
      exact .inr (List.mem_append_left _ hu)

theorem Underway.expand {fuel : Nat} (h : c.Underway roots pending found)
    (hr : c.expand fuel pending found = some result) : c.Underway roots [] result := by
  induction fuel, pending, found using expand.induct c with
  | case1 fuel found =>
    rw [expand_nil, Option.some.injEq] at hr
    exact hr ▸ h
  | case2 s pending found => simp at hr
  | case3 fuel s pending found hs ih =>
    rw [expand_known fuel hs] at hr
    exact ih (h.known hs) hr
  | case4 fuel s pending found hs ih =>
    rw [expand_new fuel hs] at hr
    exact ih h.new hr

/-- When nothing is pending any more, everything is found. -/
theorem Underway.mem_iff (h : c.Underway roots [] result) : s ∈ result ↔ c.Reached roots s := by
  refine ⟨h.taken s, fun hs => ?_⟩
  induction hs with
  | root hs => simpa using h.begun _ hs
  | step _ ht ih => simpa using h.extended _ ih _ ht

/-! ## How long it takes -/

/-- The steps that are still to come if `all` lists what there is to find. -/
def remaining (c : Catalogue) (all : Finset Signature) (pending found : List Signature) : Nat :=
  pending.length + ∑ s ∈ all \ found.toFinset, (c.extendedBy s).length

theorem remaining_new (c : Catalogue) (pending : List Signature) {all : Finset Signature}
    (hall : s ∈ all) (hs : s ∉ found) :
    c.remaining all (c.extendedBy s ++ pending) (found ++ [s]) + 1 =
      c.remaining all (s :: pending) found := by
  have hmem : s ∈ all \ found.toFinset := by simp [hall, hs]
  have herase : all \ (found ++ [s]).toFinset = (all \ found.toFinset).erase s := by
    ext t
    simp only [List.toFinset_append, Finset.mem_sdiff, Finset.mem_union, List.mem_toFinset,
      Finset.mem_erase, List.mem_singleton]
    tauto
  have hsum := Finset.add_sum_erase (all \ found.toFinset) (fun t => (c.extendedBy t).length) hmem
  simp only [remaining, herase, List.length_append, List.length_cons]
  omega

theorem remaining_eq_zero {all : Finset Signature} (hall : ∀ s, s ∈ all ↔ c.Reached roots s)
    (h : c.Underway roots [] found) : c.remaining all [] found = 0 := by
  have hempty : all \ found.toFinset = ∅ := by
    refine Finset.sdiff_eq_empty_iff_subset.mpr fun s hs => ?_
    exact List.mem_toFinset.mpr (h.mem_iff.mpr ((hall s).mp hs))
  simp [remaining, hempty]

/-- The expansion ends as soon as the remaining steps are allowed, and not before. -/
theorem Underway.isSome_expand_iff {all : Finset Signature}
    (hall : ∀ s, s ∈ all ↔ c.Reached roots s) {fuel : Nat}
    (h : c.Underway roots pending found) :
    (c.expand fuel pending found).isSome ↔ c.remaining all pending found ≤ fuel := by
  induction fuel, pending, found using expand.induct c with
  | case1 fuel found => simp [remaining_eq_zero hall h]
  | case2 s pending found =>
    simp only [expand_zero_cons, Option.isSome_none, remaining, List.length_cons]
    simp
  | case3 fuel s pending found hs ih =>
    rw [expand_known fuel hs, ih (h.known hs), remaining, remaining, List.length_cons]
    omega
  | case4 fuel s pending found hs ih =>
    have hmem : s ∈ all := (hall s).mpr (h.ahead s (by simp))
    have hstep := remaining_new c pending hmem hs
    rw [expand_new fuel hs, ih h.new, ← hstep]
    omega

/-- The expansion ends exactly if there are finitely many contracts to be found. -/
theorem exists_isSome_expand_iff (c : Catalogue) (roots : List Signature) :
    (∃ fuel, (c.expand fuel roots []).isSome) ↔ {s | c.Reached roots s}.Finite := by
  constructor
  · rintro ⟨fuel, h⟩
    obtain ⟨result, hr⟩ := Option.isSome_iff_exists.mp h
    have hend := (Underway.start c roots).expand hr
    refine (List.finite_toSet result).subset fun s hs => ?_
    exact hend.mem_iff.mpr hs
  · intro hfin
    have hall : ∀ s, s ∈ hfin.toFinset ↔ c.Reached roots s := fun s => hfin.mem_toFinset
    exact ⟨_, ((Underway.start c roots).isSome_expand_iff hall).mpr le_rfl⟩

theorem isSome_expand_mono {fuel fuel' : Nat} (hle : fuel ≤ fuel')
    (h : (c.expand fuel roots []).isSome) : (c.expand fuel' roots []).isSome := by
  have hfin := (c.exists_isSome_expand_iff roots).mp ⟨fuel, h⟩
  have hall : ∀ s, s ∈ hfin.toFinset ↔ c.Reached roots s := fun s => hfin.mem_toFinset
  rw [(Underway.start c roots).isSome_expand_iff hall] at h ⊢
  exact h.trans hle

/-! ## The contracts of a type -/

/-- The type implements the contract: it or one of its ancestors names it, or names a contract that
extends it. -/
def Implements (c : Catalogue) (i : Identity) (s : Signature) : Prop :=
  ∃ e, c.get? i = some e ∧ c.Reached (c.directContracts e) s

theorem exists_isSome_contractsOf_iff (c : Catalogue) (i : Identity) :
    (∃ fuel, (c.contractsOf fuel i).isSome) ↔ {s | c.Implements i s}.Finite := by
  unfold contractsOf Implements
  cases hi : c.get? i with
  | none => simp
  | some e => simpa using c.exists_isSome_expand_iff (c.directContracts e)

theorem isSome_contractsOf_mono {fuel fuel' : Nat} (hle : fuel ≤ fuel') {i : Identity}
    (h : (c.contractsOf fuel i).isSome) : (c.contractsOf fuel' i).isSome := by
  unfold contractsOf at h ⊢
  cases hi : c.get? i with
  | none => simp
  | some e =>
    simp only [hi] at h ⊢
    exact isSome_expand_mono hle h

/-- A number of steps that suffices for each of finitely many tasks suffices for all of them. -/
theorem exists_fuel_forall {α : Type} {P : α → Nat → Prop}
    (mono : ∀ a m n, m ≤ n → P a m → P a n) {as : List α} (h : ∀ a ∈ as, ∃ n, P a n) :
    ∃ n, ∀ a ∈ as, P a n := by
  induction as with
  | nil => exact ⟨0, by simp⟩
  | cons a as ih =>
    obtain ⟨ha, has⟩ := List.forall_mem_cons.mp h
    obtain ⟨m, hm⟩ := ha
    obtain ⟨n, hn⟩ := ih has
    refine ⟨max m n, List.forall_mem_cons.mpr ⟨?_, fun b hb => ?_⟩⟩
    · exact mono a m _ (Nat.le_max_left m n) hm
    · exact mono b n _ (Nat.le_max_right m n) (hn b hb)

/-- The contracts of finitely many types are all found within some number of steps exactly if each
of the types has finitely many. -/
theorem exists_isSome_contractsOf_forall_iff {α : Type} (c : Catalogue) (k : α → Identity)
    (P : α → Prop) (as : List α) :
    (∃ fuel, ∀ a ∈ as, P a → (c.contractsOf fuel (k a)).isSome) ↔
      ∀ a ∈ as, P a → {s | c.Implements (k a) s}.Finite := by
  simp only [← exists_isSome_contractsOf_iff]
  constructor
  · rintro ⟨fuel, h⟩ a ha hp
    exact ⟨fuel, h a ha hp⟩
  · intro h
    refine exists_fuel_forall (fun a m n hle hm hp => ?_) fun a ha => ?_
    · exact isSome_contractsOf_mono hle (hm hp)
    · by_cases hp : P a
      · obtain ⟨fuel, hf⟩ := h a ha hp
        exact ⟨fuel, fun _ => hf⟩
      · exact ⟨0, fun hc => absurd hc hp⟩

end Catalogue

namespace Snapshot

theorem exists_isSome_collect_iff (fs : List Fragment) :
    (∃ fuel, (collect fuel fs).isSome) ↔ ∀ p ∈ Parts.ofFragments fs, p.isService →
      {s | (catalogueOf fs).Implements p.identity s}.Finite := by
  simp only [isSome_collect_iff]
  exact (catalogueOf fs).exists_isSome_contractsOf_forall_iff Parts.identity
    (fun p => p.isService) (Parts.ofFragments fs)

end Snapshot

namespace Registry

/-- A registry can be built exactly if every plain class has finitely many contracts. -/
theorem exists_build_iff (fallback : Fallback) (services : List Service) (c : Catalogue) :
    (∃ fuel r, build fuel fallback services c = some r) ↔
      ∀ e ∈ c.entries, e.isService = false ∧ e.kind = .concrete →
        {s | c.Implements e.identity s}.Finite := by
  have hbuilt : ∀ fuel, (∃ r, build fuel fallback services c = some r) ↔
      (plainProviders fuel c).isSome := by
    intro fuel
    rw [← Option.isSome_iff_exists, build, Option.isSome_map]
  simp only [hbuilt, isSome_plainProviders_iff]
  exact c.exists_isSome_contractsOf_forall_iff Entry.identity _ c.entries

end Registry

end Injection
