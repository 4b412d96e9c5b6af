import Injection.Proofs.EntryPoints
import Injection.Proofs.Expansion
import Injection.Proofs.Insertion
import Injection.Proofs.RoundTrip
import Injection.Proofs.Substitution

/-! Type parameters stay with the declaration that has them. A signature is read with the parameters
of its declaration in mind, so it has no others. It is seen from another declaration only after all
of these have been given values, and the values are written with the parameters of that one. -/
namespace Injection

namespace Signature
variable {s : Signature} {σ : Bindings} {ps qs : List String}

theorem parameters_app_subset {head : String} {args : List Signature} :
    (app head args).parameters ⊆ ps ↔ ∀ a ∈ args, a.parameters ⊆ ps := by
  simp only [parameters, allParameters_eq_flatMap, List.subset_def, List.mem_flatMap]
  constructor
  · intro h a ha x hx
    exact h ⟨a, ha, hx⟩
  · intro h x hx
    obtain ⟨a, ha, hx⟩ := hx
    exact h a ha hx

theorem parameters_of_mem_args (hs : s.parameters ⊆ ps) {a : Signature} (ha : a ∈ s.args) :
    a.parameters ⊆ ps := by
  cases s with
  | app head args => exact parameters_app_subset.mp hs a ha
  | named name => simp [args] at ha
  | param name => simp [args] at ha
  | hole index => simp [args] at ha

theorem WellFormed.parameters_subset (h : WellFormed ps s) : s.parameters ⊆ ps := by
  induction h with
  | named _ _ => simp [parameters]
  | param _ hname => simpa [parameters] using hname
  | app _ _ _ ih => exact parameters_app_subset.mpr ih
  | array _ ih => exact parameters_app_subset.mpr (by simpa using ih)

theorem parameters_self (name : String) (params : List String) :
    (Signature.self name params).parameters ⊆ params := by
  unfold Signature.self
  split
  · simp [parameters]
  · rw [parameters_app_subset]
    simp [parameters]

/-- The bindings give each of the parameters `ps` a value, and all their values are written with the
parameters `qs`. -/
structure Covers (σ : Bindings) (ps qs : List String) : Prop where
  bound : ∀ x ∈ ps, (σ.lookup x).isSome
  within : ∀ b ∈ σ, b.2.parameters ⊆ qs

theorem covers_bind {args : List Signature} (hlen : ps.length = args.length)
    (hargs : ∀ a ∈ args, a.parameters ⊆ qs) : Covers (bind ps args) ps qs where
  bound x hx := by
    rw [Option.isSome_iff_ne_none]
    intro hnone
    have hkeys : (ps.zip args).map Prod.fst = ps := List.map_fst_zip hlen.le
    rw [← hkeys] at hx
    obtain ⟨b, hb, rfl⟩ := List.mem_map.mp hx
    have hne := List.lookup_eq_none_iff.mp hnone b (List.mem_reverse.mpr hb)
    simp at hne
  within b hb := by
    rw [bind, List.mem_reverse] at hb
    exact hargs b.2 (List.of_mem_zip hb).2

theorem Covers.parameters_subst (h : Covers σ ps qs) (hs : s.parameters ⊆ ps) :
    (s.subst σ).parameters ⊆ qs := by
  induction s using induct with
  | hnamed name => simp [subst, parameters]
  | hhole index => simp [subst, parameters]
  | hparam x =>
    have hx : x ∈ ps := hs (by simp [parameters])
    obtain ⟨v, hv⟩ := Option.isSome_iff_exists.mp (h.bound x hx)
    obtain ⟨l₁, l₂, hl, -⟩ := List.lookup_eq_some_iff.mp hv
    rw [subst, hv]
    exact h.within (x, v) (by simp [hl])
  | happ head args ih =>
    rw [parameters_app_subset] at hs
    rw [subst, substArgs_eq_map, parameters_app_subset]
    intro b hb
    obtain ⟨a, ha, rfl⟩ := List.mem_map.mp hb
    exact ih a ha (hs a ha)

@[simp] theorem subst_nil (s : Signature) : s.subst [] = s := by
  induction s using induct with
  | hnamed name => rw [subst]
  | hhole index => rw [subst]
  | hparam x => simp [subst]
  | happ head args ih =>
    have hargs : args.map (subst []) = args := by
      refine (List.map_congr_left ?_).trans (List.map_id args)
      intro a ha
      exact ih a ha
    rw [subst, substArgs_eq_map, hargs]

end Signature

open Signature

/-- The type has as many parameters as its identity says, and what it names is written with these. -/
structure Entry.Scoped (e : Entry) : Prop where
  arity : e.params.length = e.identity.arity
  base : ∀ b ∈ e.base, b.parameters ⊆ e.params
  contracts : ∀ s ∈ e.contracts, s.parameters ⊆ e.params

namespace Catalogue

/-- What the types name is written with their own parameters. -/
structure Scoped (c : Catalogue) : Prop where
  positioned : c.Positioned
  entries : ∀ e ∈ c.entries, e.Scoped

namespace Scoped
variable {c : Catalogue} {s t : Signature} {e : Entry} {i : Identity} {qs : List String}

theorem get? (h : c.Scoped) (he : c.get? i = some e) : e.Scoped ∧ e.identity = i := by
  obtain ⟨hmem, hid⟩ := h.positioned.get?_eq_some_iff.mp he
  exact ⟨h.entries e hmem, hid⟩

theorem lookup? (h : c.Scoped) (hs : c.lookup? s = some e) :
    e.Scoped ∧ e.params.length = s.args.length := by
  have hfound : ∀ i, c.get? i = some e → e.Scoped ∧ e.params.length = i.arity := by
    intro i hi
    obtain ⟨he, rfl⟩ := h.get? hi
    exact ⟨he, he.arity⟩
  cases s with
  | named name => exact hfound _ hs
  | app head args => exact hfound _ hs
  | param name => cases hs
  | hole index => cases hs

/-- At the arguments of a signature every parameter of its type has a value. -/
theorem covers (h : c.Scoped) (hs : c.lookup? s = some e) (hqs : s.parameters ⊆ qs) :
    Covers (bind e.params s.args) e.params qs := by
  apply covers_bind (h.lookup? hs).2
  intro a ha
  exact parameters_of_mem_args hqs ha

theorem extendedBy (h : c.Scoped) (hqs : s.parameters ⊆ qs) (ht : t ∈ c.extendedBy s) :
    t.parameters ⊆ qs := by
  obtain ⟨x, hx, -, u, hu, rfl⟩ := mem_extendedBy_iff.mp ht
  have hscoped := (h.lookup? hx).1
  exact (h.covers hx hqs).parameters_subst (hscoped.contracts u hu)

theorem reached (h : c.Scoped) {roots : List Signature} (hroots : ∀ r ∈ roots, r.parameters ⊆ qs)
    (hs : c.Reached roots s) : s.parameters ⊆ qs := by
  induction hs with
  | root hs => exact hroots _ hs
  | step _ ht ih => exact h.extendedBy ih ht

/-- Along the walk everything is written with the parameters that its start is written with. -/
theorem walk (h : c.Scoped) (unseen : List Identity) (σ : Bindings) (base : Option Signature)
    (hbase : ∀ b ∈ base, (b.subst σ).parameters ⊆ qs) :
    ∀ a ∈ c.walk unseen σ base, a.entry.Scoped ∧ a.signature.parameters ⊆ qs ∧
      Covers a.bindings a.entry.params qs := by
  intro a ha
  cases base with
  | none => simp at ha
  | some b =>
    have hb := hbase b rfl
    by_cases hroot : (b.subst σ).headName ∈ rootNames
    · simp [walk_root hroot] at ha
    cases he : c.lookup? (b.subst σ) with
    | none => simp [walk_unknown he] at ha
    | some e =>
      by_cases hmem : e.identity ∈ unseen
      · have hscoped := (h.lookup? he).1
        have hcovers := h.covers he hb
        rw [walk_cons hroot he hmem, List.mem_cons] at ha
        rcases ha with rfl | ha
        · exact ⟨hscoped, hb, hcovers⟩
        · refine h.walk _ _ e.base ?_ a ha
          intro b' hb'
          exact hcovers.parameters_subst (hscoped.base b' hb')
      · simp [walk_seen he hmem] at ha
termination_by unseen.length
decreasing_by
  rw [List.length_erase_of_mem hmem]
  exact Nat.sub_lt (List.length_pos_of_mem hmem) Nat.one_pos

theorem ancestors (h : c.Scoped) (he : c.get? i = some e) :
    ∀ a ∈ c.ancestors i, a.entry.Scoped ∧ a.signature.parameters ⊆ e.params ∧
      Covers a.bindings a.entry.params e.params := by
  apply h.walk
  intro b hb
  rw [he, Option.bind_some] at hb
  rw [subst_nil]
  exact (h.get? he).1.base b hb

theorem directContracts (h : c.Scoped) (he : c.get? i = some e) :
    ∀ s ∈ c.directContracts e, s.parameters ⊆ e.params := by
  intro s hs
  obtain ⟨hentry, rfl⟩ := h.get? he
  rcases mem_directContracts.mp hs with hs | ⟨a, ha, t, ht, rfl⟩
  · exact hentry.contracts s hs
  · obtain ⟨hscoped, -, hcovers⟩ := h.ancestors he a ha
    exact hcovers.parameters_subst (hscoped.contracts t ht)

theorem contractsOf (h : c.Scoped) {fuel : Nat} {contracts : List Signature}
    (he : c.get? i = some e) (hc : c.contractsOf fuel i = some contracts) :
    ∀ s ∈ contracts, s.parameters ⊆ e.params := by
  intro s hs
  simp only [Catalogue.contractsOf, he] at hc
  have hend := (Underway.start c (c.directContracts e)).expand hc
  exact h.reached (h.directContracts he) (hend.mem_iff.mp hs)

end Scoped

end Catalogue

/-! ## Collected types -/

namespace Parts
variable {p : Parts} {fs : List Fragment} {text : String} {s : Signature}

/-- Fragments of one identity have the same number of parameters, whichever comes first. -/
theorem length_params (h : p ∈ ofFragments fs) : p.params.length = p.identity.arity := by
  obtain ⟨i, hi, rfl⟩ := List.mem_map.mp h
  obtain ⟨f, hf, hid⟩ := List.mem_map.mp (List.mem_eraseDups.mp hi)
  have hmem : f ∈ fs.filter fun f => f.identity = i := List.mem_filter.mpr ⟨hf, by simpa using hid⟩
  obtain ⟨g, rest, hg⟩ := List.exists_cons_of_ne_nil (List.ne_nil_of_mem hmem)
  have hgid : g.identity = i := by
    have hin : g ∈ fs.filter fun f => f.identity = i := by simp [hg]
    exact of_decide_eq_true (List.mem_filter.mp hin).2
  simp only [params, hg, List.head?_cons, Option.map_some, Option.getD_some]
  rw [← hgid]
  rfl

theorem parameters_of_read (h : p.read? text = some s) : s.parameters ⊆ p.params := by
  unfold read? at h
  cases hparse : Signature.parse p.params text with
  | error m => simp [hparse, Except.toOption] at h
  | ok t =>
    simp only [hparse, Except.toOption, Option.some.injEq] at h
    subst h
    exact (wellFormed_of_parse hparse).parameters_subset

theorem parameters_of_mem_readAll {texts : List String} (h : s ∈ p.readAll texts) :
    s.parameters ⊆ p.params := by
  obtain ⟨t, -, ht⟩ := List.mem_filterMap.mp (List.mem_eraseDups.mp h)
  exact parameters_of_read ht

theorem parameters_base {b : Signature} (h : b ∈ p.baseText.bind p.read?) :
    b.parameters ⊆ p.params := by
  obtain ⟨t, -, ht⟩ := Option.bind_eq_some_iff.mp h
  exact parameters_of_read ht

theorem scoped_entry (h : p ∈ ofFragments fs) (order : Nat) : (p.entry order).Scoped where
  arity := length_params h
  base _ := parameters_base
  contracts _ := parameters_of_mem_readAll

end Parts

/-- All that the service names is written with its own parameters. -/
structure Service.Scoped (s : Service) : Prop where
  base : ∀ b ∈ s.base, b.parameters ⊆ s.params
  contracts : ∀ t ∈ s.contracts, t.parameters ⊆ s.params
  excluded : ∀ t ∈ s.excluded, t.parameters ⊆ s.params
  dependencies : ∀ d ∈ s.dependencies, d.target.parameters ⊆ s.params
  self : s.selfSignature.parameters ⊆ s.params

theorem Parts.scoped_service {p : Parts} {contracts : List Signature}
    (h : ∀ t ∈ contracts, t.parameters ⊆ p.params) (order : Nat) :
    (p.service order contracts).Scoped where
  base _ := parameters_base
  contracts := h
  excluded _ := parameters_of_mem_readAll
  dependencies d hd := by
    obtain ⟨r, -, hr⟩ := List.mem_filterMap.mp hd
    obtain ⟨target, htarget, rfl⟩ := Option.map_eq_some_iff.mp hr
    exact parameters_of_read htarget
  self := parameters_self p.identity.name p.params

namespace Snapshot

theorem scoped_catalogueOf (fs : List Fragment) : (catalogueOf fs).Scoped := by
  refine ⟨Catalogue.positioned_ofEntries _, ?_⟩
  intro e he
  rw [entries_catalogueOf] at he
  obtain ⟨⟨p, order⟩, hp, rfl⟩ := List.mem_map.mp he
  exact Parts.scoped_entry (mem_partsOf.mp ⟨order, hp⟩) order

/-- No type parameter escapes its declaration. All that a collected service names, its contracts from
ancestors and from other contracts included, is written with its own parameters. An ancestor of a
collected type is seen at values for all its parameters, and these, like its signature, are written
with the parameters of that type. -/
theorem parameters_in_scope (fuel : Nat) (fs : List Fragment) (a : Snapshot)
    (ha : collect fuel fs = some a) :
    (∀ s ∈ a.services, s.Scoped) ∧
      ∀ i e, a.catalogue.get? i = some e → ∀ x ∈ a.catalogue.ancestors i,
        x.signature.parameters ⊆ e.params ∧ (∀ b ∈ x.bindings, b.2.parameters ⊆ e.params) ∧
          ∀ name ∈ x.entry.params, (x.bindings.lookup name).isSome := by
  have hscoped := scoped_catalogueOf fs
  refine ⟨?_, ?_⟩
  · intro s hs
    obtain ⟨p, hp, contracts, hc, rfl⟩ := exists_of_forall₂_right (forall₂_contractsOf ha) hs
    have he := get?_catalogueOf (List.mem_filter.mp hp).1
    exact Parts.scoped_service (hscoped.contractsOf he hc) p.2
  · intro i e he x hx
    rw [catalogue_of_collect ha] at he hx
    obtain ⟨-, hsignature, hcovers⟩ := hscoped.ancestors he x hx
    exact ⟨hsignature, hcovers.within, hcovers.bound⟩

/-- A cache of pages over two more general classes. All of them use the same few names for their
parameters, each in a place of its own. -/
def layeredFragments : List Fragment :=
  [{ name := "IStore", params := ["U", "T"], kind := .contract, contracts := ["IReader<T>"] },
   { name := "Store", params := ["T", "U"], contracts := ["IStore<U, T>"] },
   { name := "Cache", params := ["U"], base := some "Store<List<U>, U>" },
   { name := "PageCache", params := ["T"], base := some "Cache<Page<T>>",
     lifetime := some .singleton, excluded := ["IReader<T>"],
     requests := [{ target := "ILoader<T>", style := .list 0 }] }]

/-- The type of the pages that the cache holds. -/
def pageOfT : Signature := .app "Page" [.param "T"]

theorem parameters_in_scope_layered :
    ∃ a s e x, collect 9 layeredFragments = some a ∧ s ∈ a.services ∧
      s.contracts = [.app "IStore" [pageOfT, .app "List" [pageOfT]],
        .app "IReader" [.app "List" [pageOfT]]] ∧
      s.Scoped ∧ a.catalogue.get? ⟨"PageCache", 1⟩ = some e ∧
      x ∈ a.catalogue.ancestors ⟨"PageCache", 1⟩ ∧ x.entry.identity = ⟨"Store", 2⟩ ∧
      x.signature.parameters ⊆ e.params ∧
      ∀ name ∈ x.entry.params, (x.bindings.lookup name).isSome := by
  have hcollected : ∃ a ∈ collect 9 layeredFragments,
      (∃ s ∈ a.services, s.contracts = [.app "IStore" [pageOfT, .app "List" [pageOfT]],
        .app "IReader" [.app "List" [pageOfT]]]) ∧
      ∃ e ∈ a.catalogue.get? ⟨"PageCache", 1⟩,
        ∃ x ∈ a.catalogue.ancestors ⟨"PageCache", 1⟩, x.entry.identity = ⟨"Store", 2⟩ := by
    decide +kernel
  obtain ⟨a, ha, ⟨s, hs, hcontracts⟩, e, he, x, hx, hid⟩ := hcollected
  obtain ⟨hservices, hancestors⟩ := parameters_in_scope 9 layeredFragments a ha
  obtain ⟨hsignature, -, hbound⟩ := hancestors ⟨"PageCache", 1⟩ e he x hx
  exact ⟨a, s, e, x, ha, hs, hcontracts, hservices s hs, he, hx, hid, hsignature, hbound⟩

end Snapshot

end Injection
