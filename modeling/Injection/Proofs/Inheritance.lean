import Injection.Proofs.Scope

/-! A derived type implements what its base type implements, at the arguments that it gives to the
base type. Both walk up the same ancestors, the base type in terms of its own parameters and the
derived type in terms of what stands for these. The values that the one walk finds, with the
arguments put in place of the parameters, are the values that the other finds. -/
namespace Injection

namespace Signature
variable {s : Signature}

/-- The values of `σ`, in which the parameters bound by `τ` are replaced in turn. -/
def compose (σ τ : Bindings) : Bindings := σ.map fun b => (b.1, b.2.subst τ)

theorem lookup_compose (σ τ : Bindings) (x : String) :
    (compose σ τ).lookup x = (σ.lookup x).map (subst τ) := by
  induction σ with
  | nil => rfl
  | cons b σ ih =>
    rw [compose, List.map_cons, Sorted.lookup_cons_ite, Sorted.lookup_cons_ite, ← compose, ih]
    split <;> rfl

theorem bind_map_subst (params : List String) (args : List Signature) (τ : Bindings) :
    bind params (args.map (subst τ)) = compose (bind params args) τ := by
  rw [bind, bind, compose, List.map_reverse, List.zip_map_right]
  rfl

/-- A parameter without a value in `σ` would be left for `τ`, so there must be none. -/
theorem Covers.subst_compose {σ : Bindings} {ps qs : List String} (h : Covers σ ps qs)
    (hs : s.parameters ⊆ ps) (τ : Bindings) : (s.subst σ).subst τ = s.subst (compose σ τ) := by
  induction s using induct with
  | hnamed name => simp only [subst]
  | hhole index => simp only [subst]
  | hparam x =>
    have hx : x ∈ ps := hs (by simp [parameters])
    obtain ⟨v, hv⟩ := Option.isSome_iff_exists.mp (h.bound x hx)
    simp only [subst, lookup_compose, hv, Option.map_some, Option.getD_some]
  | happ head args ih =>
    rw [parameters_app_subset] at hs
    simp only [subst, substArgs_eq_map, List.map_map, app.injEq, true_and]
    apply List.map_congr_left
    intro a ha
    exact ih a ha (hs a ha)

end Signature

open Signature

/-- The second ancestor is the first one, seen after `τ` has replaced the parameters that it was
written with. -/
structure Ancestor.Instance (τ : Bindings) (a a' : Ancestor) : Prop where
  entry : a'.entry = a.entry
  signature : a'.signature = a.signature.subst τ
  bindings : a'.bindings = compose a.bindings τ

namespace Catalogue
variable {c : Catalogue} {s t : Signature} {e : Entry}

/-- The type of a signature can be told before its parameters are replaced. -/
theorem lookup?_subst (h : c.lookup? s = some e) (τ : Bindings) :
    c.lookup? (s.subst τ) = some e ∧ (s.subst τ).headName = s.headName ∧
      (s.subst τ).args = s.args.map (subst τ) := by
  cases s with
  | named name => exact ⟨h, rfl, rfl⟩
  | app head args =>
    rw [subst, substArgs_eq_map]
    refine ⟨?_, rfl, rfl⟩
    rw [lookup?, List.length_map]
    exact h
  | param name => cases h
  | hole index => cases h

namespace Scoped

/-- What a contract extends, its instances extend at their own arguments. -/
theorem extendedBy_subst (h : c.Scoped) (ht : t ∈ c.extendedBy s) (τ : Bindings) :
    t.subst τ ∈ c.extendedBy (s.subst τ) := by
  obtain ⟨x, hx, hk, u, hu, rfl⟩ := mem_extendedBy_iff.mp ht
  obtain ⟨hx', -, hargs⟩ := lookup?_subst hx τ
  refine mem_extendedBy_iff.mpr ⟨x, hx', hk, u, hu, ?_⟩
  have hcovers := h.covers hx (List.Subset.refl s.parameters)
  have hparams := (h.lookup? hx).1.contracts u hu
  rw [hargs, bind_map_subst]
  exact (hcovers.subst_compose hparams τ).symm

theorem reached_subst (h : c.Scoped) {roots roots' : List Signature} {τ : Bindings}
    (hroots : ∀ r ∈ roots, c.Reached roots' (r.subst τ)) (hs : c.Reached roots s) :
    c.Reached roots' (s.subst τ) := by
  induction hs with
  | root hs => exact hroots _ hs
  | step _ ht ih => exact .step ih (h.extendedBy_subst ht τ)

/-- Two walks from one base type, the second with more of its parameters replaced. The second may
have passed one type `i` more than the first, which the first does not come to. -/
theorem walk_subst (h : c.Scoped) {i : Identity} {τ : Bindings} {unseen unseen' : List Identity}
    (hd : unseen.Nodup) (hunseen : ∀ j ∈ unseen, j ≠ i → j ∈ unseen') {σ σ' : Bindings}
    {base : Option Signature} (hbase : ∀ b ∈ base, b.subst σ' = (b.subst σ).subst τ)
    (hwalk : ∀ a ∈ c.walk unseen σ base, a.entry.identity ≠ i) :
    ∀ a ∈ c.walk unseen σ base, ∃ a' ∈ c.walk unseen' σ' base, a.Instance τ a' := by
  cases base with
  | none => simp
  | some b =>
    by_cases hroot : (b.subst σ).headName ∈ rootNames
    · simp [walk_root hroot]
    cases he : c.lookup? (b.subst σ) with
    | none => simp [walk_unknown he]
    | some e =>
      by_cases hmem : e.identity ∈ unseen
      · rw [walk_cons hroot he hmem] at hwalk ⊢
        obtain ⟨hne, hrest⟩ := List.forall_mem_cons.mp hwalk
        obtain ⟨he', hhead, hargs⟩ := lookup?_subst he τ
        rw [← hbase b rfl] at he' hhead hargs
        have hmem' := hunseen e.identity hmem hne
        rw [walk_cons (hhead ▸ hroot) he' hmem', hargs, bind_map_subst]
        intro a ha
        rcases List.mem_cons.mp ha with rfl | ha
        · exact ⟨_, List.mem_cons_self, rfl, hbase b rfl, rfl⟩
        · have hnext : ∀ b' ∈ e.base,
              b'.subst (compose (bind e.params (b.subst σ).args) τ) =
                (b'.subst (bind e.params (b.subst σ).args)).subst τ := by
            intro b' hb'
            have hcovers := h.covers he (List.Subset.refl (b.subst σ).parameters)
            have hparams := (h.lookup? he).1.base b' hb'
            exact (hcovers.subst_compose hparams τ).symm
          have hleft : ∀ j ∈ unseen.erase e.identity, j ≠ i → j ∈ unseen'.erase e.identity := by
            intro j hj hji
            obtain ⟨hje, hj⟩ := hd.mem_erase_iff.mp hj
            exact (List.mem_erase_of_ne hje).mpr (hunseen j hj hji)
          obtain ⟨a', ha', hinstance⟩ := h.walk_subst (hd.erase _) hleft hnext hrest a ha
          exact ⟨a', List.mem_cons_of_mem _ ha', hinstance⟩
      · simp [walk_seen he hmem]
termination_by unseen.length
decreasing_by
  rw [List.length_erase_of_mem hmem]
  exact Nat.sub_lt (List.length_pos_of_mem hmem) Nat.one_pos

section Derived
variable {i : Identity} {d : Entry} {b : Signature} (h : c.Scoped) (hd : c.get? i = some d)
  (hb : d.base = some b) (hroot : b.headName ∉ rootNames) (he : c.lookup? b = some e)
  (hne : e.identity ≠ i)
include h hd hb hroot he hne

/-- The walk of a derived type passes its base type and goes on from there. -/
theorem ancestors_derived :
    c.ancestors i = ⟨e, b, bind e.params b.args⟩ ::
      c.walk (((c.entries.map Entry.identity).erase i).erase e.identity)
        (bind e.params b.args) e.base := by
  have hget := h.positioned.get?_of_lookup? he
  have hmem : e.identity ∈ (c.entries.map Entry.identity).erase i := by
    rw [List.mem_erase_of_ne hne]
    exact List.mem_map_of_mem (h.positioned.get?_eq_some_iff.mp hget).1
  rw [Catalogue.ancestors, hd, Option.bind_some, hb, walk_cons (e := e)]
  · rw [subst_nil]
  · rwa [subst_nil]
  · rwa [subst_nil]
  · exact hmem

theorem exists_instance (hwalk : ∀ a ∈ c.ancestors e.identity, a.entry.identity ≠ i) :
    ∀ a ∈ c.ancestors e.identity, ∃ a' ∈ c.ancestors i, a.Instance (bind e.params b.args) a' := by
  have hget := h.positioned.get?_of_lookup? he
  have hids := h.positioned.nodup
  rw [h.ancestors_derived hd hb hroot he hne]
  unfold Catalogue.ancestors at hwalk ⊢
  rw [hget, Option.bind_some] at hwalk ⊢
  intro a ha
  have hbase : ∀ b' ∈ e.base, b'.subst (bind e.params b.args) =
      (b'.subst []).subst (bind e.params b.args) := by
    intro b' _
    rw [subst_nil]
  have hunseen : ∀ j ∈ (c.entries.map Entry.identity).erase e.identity, j ≠ i →
      j ∈ ((c.entries.map Entry.identity).erase i).erase e.identity := by
    intro j hj hji
    obtain ⟨hje, hj⟩ := hids.mem_erase_iff.mp hj
    rw [List.mem_erase_of_ne hje, List.mem_erase_of_ne hji]
    exact hj
  obtain ⟨a', ha', hinstance⟩ := h.walk_subst (hids.erase _) hunseen hbase hwalk a ha
  exact ⟨a', List.mem_cons_of_mem _ ha', hinstance⟩

theorem directContracts_derived (hwalk : ∀ a ∈ c.ancestors e.identity, a.entry.identity ≠ i) :
    ∀ s ∈ c.directContracts e, s.subst (bind e.params b.args) ∈ c.directContracts d := by
  have hget := h.positioned.get?_of_lookup? he
  obtain ⟨-, hid⟩ := h.get? hd
  intro s hs
  rw [mem_directContracts, hid]
  right
  rcases mem_directContracts.mp hs with hs | ⟨a, ha, t, ht, rfl⟩
  · refine ⟨⟨e, b, bind e.params b.args⟩, ?_, s, hs, rfl⟩
    rw [h.ancestors_derived hd hb hroot he hne]
    exact List.mem_cons_self
  · obtain ⟨a', ha', hinstance⟩ := h.exists_instance hd hb hroot he hne hwalk a ha
    obtain ⟨hentry, -, hcovers⟩ := h.ancestors hget a ha
    refine ⟨a', ha', t, hinstance.entry ▸ ht, ?_⟩
    rw [hinstance.bindings]
    exact (hcovers.subst_compose (hentry.contracts t ht) _).symm

end Derived

end Scoped

end Catalogue

namespace Snapshot

/-- A derived type implements every contract of its base type, at the arguments that it gives to the
base type. This is so unless the base type is derived from the derived type in turn. -/
theorem derived_implements_instances (fuel fuel' : Nat) (fs : List Fragment) (i : Identity)
    (d e : Entry) (b : Signature) (derived inherited : List Signature)
    (hd : (catalogueOf fs).get? i = some d) (hb : d.base = some b)
    (hroot : b.headName ∉ Catalogue.rootNames) (he : (catalogueOf fs).lookup? b = some e)
    (hne : e.identity ≠ i)
    (hwalk : ∀ a ∈ (catalogueOf fs).ancestors e.identity, a.entry.identity ≠ i)
    (hderived : (catalogueOf fs).contractsOf fuel i = some derived)
    (hinherited : (catalogueOf fs).contractsOf fuel' e.identity = some inherited) :
    ∀ s ∈ inherited, s.subst (bind e.params b.args) ∈ derived := by
  have hscoped := scoped_catalogueOf fs
  have hget := hscoped.positioned.get?_of_lookup? he
  simp only [Catalogue.contractsOf, hd, hget] at hderived hinherited
  have hall := (Catalogue.Underway.start _ _).expand hderived
  have hbase := (Catalogue.Underway.start _ _).expand hinherited
  intro s hs
  rw [hall.mem_iff]
  rw [hbase.mem_iff] at hs
  refine hscoped.reached_subst ?_ hs
  intro r hr
  exact .root (hscoped.directContracts_derived hd hb hroot he hne hwalk r hr)

/-- The store of the more general cache, in terms of the parameter of that one. -/
def storeOfU : Signature := .app "IStore" [.param "U", .app "List" [.param "U"]]

theorem derived_implements_instances_layered :
    ∃ d e b derived inherited, (catalogueOf layeredFragments).get? ⟨"PageCache", 1⟩ = some d ∧
      d.base = some b ∧ b.headName ∉ Catalogue.rootNames ∧
      (catalogueOf layeredFragments).lookup? b = some e ∧ e.identity ≠ ⟨"PageCache", 1⟩ ∧
      (∀ a ∈ (catalogueOf layeredFragments).ancestors e.identity,
        a.entry.identity ≠ ⟨"PageCache", 1⟩) ∧
      (catalogueOf layeredFragments).contractsOf 9 ⟨"PageCache", 1⟩ = some derived ∧
      (catalogueOf layeredFragments).contractsOf 9 e.identity = some inherited ∧
      storeOfU ∈ inherited ∧
      storeOfU.subst (bind e.params b.args) = .app "IStore" [pageOfT, .app "List" [pageOfT]] ∧
      .app "IStore" [pageOfT, .app "List" [pageOfT]] ∈ derived := by
  have hall : ∃ d ∈ (catalogueOf layeredFragments).get? ⟨"PageCache", 1⟩, ∃ b ∈ d.base,
      b.headName ∉ Catalogue.rootNames ∧ ∃ e ∈ (catalogueOf layeredFragments).lookup? b,
        e.identity ≠ ⟨"PageCache", 1⟩ ∧
        (∀ a ∈ (catalogueOf layeredFragments).ancestors e.identity,
          a.entry.identity ≠ ⟨"PageCache", 1⟩) ∧
        ∃ derived ∈ (catalogueOf layeredFragments).contractsOf 9 ⟨"PageCache", 1⟩,
        ∃ inherited ∈ (catalogueOf layeredFragments).contractsOf 9 e.identity,
          storeOfU ∈ inherited ∧ storeOfU.subst (bind e.params b.args) =
            .app "IStore" [pageOfT, .app "List" [pageOfT]] := by
    decide +kernel
  obtain ⟨d, hd, b, hb, hroot, e, he, hne, hwalk, derived, hderived, inherited, hinherited, hmem,
    hinstance⟩ := hall
  have hderives := derived_implements_instances 9 9 layeredFragments ⟨"PageCache", 1⟩ d e b derived
    inherited hd hb hroot he hne hwalk hderived hinherited storeOfU hmem
  rw [hinstance] at hderives
  exact ⟨d, e, b, derived, inherited, hd, hb, hroot, he, hne, hwalk, hderived, hinherited, hmem,
    hinstance, hderives⟩

end Snapshot

end Injection
