import Injection.Proofs.Expansion
import Injection.Proofs.Substitution
import Mathlib.Data.Fintype.Basic
import Mathlib.Data.Set.Finite.List

/-! Contracts that extend others at ever larger arguments. Where contracts pass on their parameters
as they are, finitely many contracts can be reached and their expansion ends. Where one of them
wraps a parameter on the way back to itself, it need not. -/
namespace Injection

namespace Signature

def isParam : Signature → Bool
  | param _ => true
  | _ => false

/-- Each argument is a type parameter or has none inside. -/
def isShallow : Signature → Bool
  | app _ args => args.all fun a => a.isParam || a.parameters.isEmpty
  | _ => true

theorem subst_param_mem (x : String) (params : List String) (args : List Signature) :
    (param x).subst (bind params args) ∈ param x :: args := by
  rw [subst]
  cases h : (bind params args).lookup x with
  | none => simp
  | some v =>
    obtain ⟨l₁, l₂, hl, -⟩ := List.lookup_eq_some_iff.mp h
    have hmem : (x, v) ∈ (params.zip args).reverse := by
      rw [bind] at hl
      simp [hl]
    have hv : v ∈ args := (List.of_mem_zip (List.mem_reverse.mp hmem)).2
    simp [hv]

/-- What can be put together from the signatures inside `base`, one on top of them at most. -/
def spanned (base : List Signature) : Set Signature :=
  {s | s ∈ base.flatMap subterms ∨ ∃ head args, s = app head args ∧
    (head, args.length) ∈ base.filterMap shape? ∧ ∀ a ∈ args, a ∈ base.flatMap subterms}

theorem finite_lists {α : Type} [DecidableEq α] (as : List α) (n : Nat) :
    {l : List α | l.length = n ∧ ∀ a ∈ l, a ∈ as}.Finite := by
  have hfin := List.finite_length_eq {a // a ∈ as} n
  refine (hfin.image (List.map Subtype.val)).subset ?_
  rintro l ⟨hlen, hl⟩
  lift l to List {a // a ∈ as} using hl
  exact ⟨l, by simpa using hlen, rfl⟩

theorem finite_spanned (base : List Signature) : (spanned base).Finite := by
  have hinside : {s | s ∈ base.flatMap subterms}.Finite := List.finite_toSet _
  have hshapes : {p | p ∈ base.filterMap shape?}.Finite := List.finite_toSet _
  have htop := hshapes.biUnion fun p _ =>
    (finite_lists (base.flatMap subterms) p.2).image (app p.1)
  refine (hinside.union htop).subset fun s hs => ?_
  rcases hs with hs | ⟨head, args, rfl, hshape, hargs⟩
  · exact .inl hs
  · exact .inr (Set.mem_biUnion hshape ⟨args, ⟨rfl, hargs⟩, rfl⟩)

theorem args_of_mem_spanned {base : List Signature} {s : Signature} (h : s ∈ spanned base) :
    ∀ a ∈ s.args, a ∈ base.flatMap subterms := by
  intro a ha
  cases s with
  | app head args =>
    rcases h with h | ⟨head', args', heq, -, hargs⟩
    · obtain ⟨b, hb, h⟩ := List.mem_flatMap.mp h
      exact List.mem_flatMap.mpr ⟨b, hb, arg_mem_subterms h ha⟩
    · obtain ⟨rfl, rfl⟩ := app.inj heq
      exact hargs a ha
  | named name => simp [Signature.args] at ha
  | param name => simp [Signature.args] at ha
  | hole index => simp [Signature.args] at ha

/-- A shallow contract at arguments from inside `base` stays in reach. -/
theorem subst_mem_spanned {base : List Signature} {s : Signature} (hs : s ∈ base)
    (hshallow : s.isShallow) (params : List String) {args : List Signature}
    (hargs : ∀ a ∈ args, a ∈ base.flatMap subterms) :
    s.subst (bind params args) ∈ spanned base := by
  have hinside : ∀ t ∈ s.subterms, t ∈ base.flatMap subterms := fun t ht =>
    List.mem_flatMap.mpr ⟨s, hs, ht⟩
  have hparam : ∀ x, param x ∈ s.subterms →
      (param x).subst (bind params args) ∈ base.flatMap subterms := by
    intro x hx
    rcases List.mem_cons.mp (subst_param_mem x params args) with h | h
    · rw [h]
      exact hinside _ hx
    · exact hargs _ h
  cases s with
  | named name => exact .inl (hinside _ (self_mem_subterms _))
  | hole index => exact .inl (hinside _ (self_mem_subterms _))
  | param name => exact .inl (hparam name (self_mem_subterms _))
  | app head as =>
    refine .inr ⟨head, as.map (subst (bind params args)), by simp [subst], ?_, fun b hb => ?_⟩
    · exact List.mem_filterMap.mpr ⟨_, hs, by simp [shape?]⟩
    · obtain ⟨a, ha, rfl⟩ := List.mem_map.mp hb
      have hmem : a ∈ (app head as).subterms := arg_mem_subterms (self_mem_subterms _) ha
      have hcase := List.all_eq_true.mp hshallow a ha
      cases a with
      | param x => exact hparam x hmem
      | named name => exact hinside _ hmem
      | hole index => exact hinside _ hmem
      | app head' as' =>
        have hnone : (app head' as').parameters = [] := by simpa [isParam] using hcase
        rw [subst_eq_self hnone]
        exact hinside _ hmem

end Signature

namespace Catalogue
variable {c : Catalogue}

theorem mem_entries_of_lookup? {s : Signature} {e : Entry} (h : c.lookup? s = some e) :
    e ∈ c.entries := by
  have hget : ∀ i, c.get? i = some e → e ∈ c.entries := by
    intro i hi
    unfold get? at hi
    split at hi
    · exact List.mem_of_getElem? hi
    · cases hi
  cases s with
  | named name => exact hget _ h
  | app head args => exact hget _ h
  | param name => cases h
  | hole index => cases h

theorem mem_extendedBy {s t : Signature} (h : t ∈ c.extendedBy s) :
    ∃ e ∈ c.entries, e.kind = .contract ∧
      ∃ u ∈ e.contracts, t = u.subst (Signature.bind e.params s.args) := by
  obtain ⟨e, he, hk, u, hu, rfl⟩ := mem_extendedBy_iff.mp h
  exact ⟨e, mem_entries_of_lookup? he, hk, u, hu, rfl⟩

/-- Contracts extend others only at arguments that are parameters or have none inside. -/
def Shallow (c : Catalogue) : Prop :=
  ∀ e ∈ c.entries, e.kind = .contract → ∀ s ∈ e.contracts, s.isShallow

instance (c : Catalogue) : Decidable c.Shallow :=
  inferInstanceAs (Decidable (∀ e ∈ c.entries, e.kind = .contract → ∀ s ∈ e.contracts, s.isShallow))

theorem Shallow.finite_reached (h : c.Shallow) (roots : List Signature) :
    {s | c.Reached roots s}.Finite := by
  let base := roots ++ (c.entries.filter fun e => e.kind = .contract).flatMap Entry.contracts
  refine (Signature.finite_spanned base).subset fun s hs => ?_
  induction hs with
  | @root s hs =>
    have hbase : s ∈ base := List.mem_append_left _ hs
    exact .inl (List.mem_flatMap.mpr ⟨s, hbase, s.self_mem_subterms⟩)
  | step _ ht ih =>
    obtain ⟨e, he, hk, u, hu, rfl⟩ := mem_extendedBy ht
    have hbase : u ∈ base := by
      refine List.mem_append_right _ (List.mem_flatMap.mpr ⟨e, ?_, hu⟩)
      simp [he, hk]
    exact Signature.subst_mem_spanned hbase (h e he hk u hu) e.params
      (Signature.args_of_mem_spanned ih)

theorem Shallow.finite_implements (h : c.Shallow) (i : Identity) :
    {s | c.Implements i s}.Finite := by
  cases hi : c.get? i with
  | none => simp [Implements, hi]
  | some e => simpa [Implements, hi] using h.finite_reached (c.directContracts e)

end Catalogue

/-- A text that can be read is among what is read. -/
theorem Parts.mem_readAll {p : Parts} {texts : List String} {t : String} {s : Signature}
    (ht : t ∈ texts) (hs : p.read? t = some s) : s ∈ p.readAll texts :=
  List.mem_eraseDups.mpr (List.mem_filterMap.mpr ⟨t, ht, hs⟩)

namespace Snapshot

/-- The contracts of a type are found in finitely many steps exactly if they are finitely many, and
so are those of all services of a list of fragments. They always are where contracts pass on their
parameters as they are, whatever cycles there may be. -/
theorem contracts_terminate_iff_finite (c : Catalogue) (i : Identity) (fs : List Fragment) :
    ((∃ fuel, (c.contractsOf fuel i).isSome) ↔ {s | c.Implements i s}.Finite) ∧
    ((∃ fuel, (collect fuel fs).isSome) ↔ ∀ p ∈ Parts.ofFragments fs, p.isService →
      {s | (catalogueOf fs).Implements p.identity s}.Finite) ∧
    (c.Shallow → ∃ fuel, (c.contractsOf fuel i).isSome) ∧
    ((catalogueOf fs).Shallow → ∃ fuel, (collect fuel fs).isSome) := by
  refine ⟨c.exists_isSome_contractsOf_iff i, exists_isSome_collect_iff fs, fun hc => ?_,
    fun hfs => ?_⟩
  · exact (c.exists_isSome_contractsOf_iff i).mpr (hc.finite_implements i)
  · refine (exists_isSome_collect_iff fs).mpr fun p _ _ => ?_
    exact hfs.finite_implements p.identity

/-- Pairs that extend each other in circles, at arguments in any places. -/
def pairFragments : List Fragment :=
  [{ name := "IPair", params := ["A", "B"], kind := .contract
     contracts := ["IPair<B, A>", "IPair<A, A>", "IPair<List<Unit>, B>"] },
   { name := "Job", lifetime := some .singleton, base := some "Job", contracts := ["IPair<X, Y>"] }]

theorem contracts_terminate_pairFragments :
    (catalogueOf pairFragments).Shallow ∧ ∃ fuel, (collect fuel pairFragments).isSome :=
  have hshallow : (catalogueOf pairFragments).Shallow := by decide +kernel
  ⟨hshallow, (contracts_terminate_iff_finite {} ⟨"Job", 0⟩ pairFragments).2.2.2 hshallow⟩

/-- All stages at the parameters `A` to `D`. -/
def arrangedStages : List String :=
  let names := ["A", "B", "C", "D"]
  names.flatMap fun x => names.flatMap fun y => names.flatMap fun z => names.map fun w =>
    s!"IStage<{x}, {y}, {z}, {w}>"

/-- A stage may be left for any arrangement of its arguments, and for the stage of the boxed
ones. -/
def stageContract : Fragment where
  name := "IStage"
  params := ["A", "B", "C", "D"]
  kind := .contract
  contracts := arrangedStages ++ ["IStage<Box<A>, Box<B>, Box<C>, Box<D>>"]

def stageFragments : List Fragment :=
  [stageContract,
   { name := "Job", lifetime := some .singleton, contracts := ["IStage<Unit, Unit, Unit, Unit>"] }]

def boxed : Nat → Signature
  | 0 => .named "Unit"
  | n + 1 => .app "Box" [boxed n]

theorem boxed_injective : Function.Injective boxed := by
  intro m n h
  induction m generalizing n with
  | zero =>
    cases n with
    | zero => rfl
    | succ n => simp [boxed] at h
  | succ m ih =>
    cases n with
    | zero => simp [boxed] at h
    | succ n =>
      simp only [boxed, Signature.app.injEq, List.cons.injEq, and_true, true_and] at h
      rw [ih h]

def stage (n : Nat) : Signature := .app "IStage" [boxed n, boxed n, boxed n, boxed n]

/-- The stages as a type of their own. -/
def stageParts : Parts :=
  ⟨⟨"IStage", 4⟩, [stageContract]⟩

theorem stage_succ_mem {fs : List Fragment} (hfirst : (stageParts, 0) ∈ partsOf fs) (n : Nat) :
    stage (n + 1) ∈ (catalogueOf fs).extendedBy (stage n) := by
  have hlookup : (catalogueOf fs).lookup? (stage n) = some (stageParts.entry 0) :=
    get?_catalogueOf hfirst
  have hmem : .app "IStage" [.app "Box" [.param "A"], .app "Box" [.param "B"],
      .app "Box" [.param "C"], .app "Box" [.param "D"]] ∈ (stageParts.entry 0).contracts := by
    refine Parts.mem_readAll (t := "IStage<Box<A>, Box<B>, Box<C>, Box<D>>") ?_ (by decide +kernel)
    simp [stageParts, Parts.contractTexts, stageContract]
  have hkind : (stageParts.entry 0).kind = .contract := rfl
  have hparams : (stageParts.entry 0).params = ["A", "B", "C", "D"] := rfl
  simp only [Catalogue.extendedBy, hlookup, hkind, hparams, if_true, List.mem_map]
  refine ⟨_, hmem, ?_⟩
  simp [stage, boxed, Signature.subst, Signature.bind, Signature.args, List.lookup_cons]

/-- A stage is left for the stage of the boxed arguments, and so on for ever. -/
theorem infinite_implements {fs : List Fragment} {i : Identity} {e : Entry}
    (hfirst : (stageParts, 0) ∈ partsOf fs) (he : (catalogueOf fs).get? i = some e)
    (hroot : stage 0 ∈ (catalogueOf fs).directContracts e) :
    {s | (catalogueOf fs).Implements i s}.Infinite := by
  have hinjective : Function.Injective stage := by
    intro m n hmn
    simp only [stage, Signature.app.injEq, List.cons.injEq] at hmn
    exact boxed_injective hmn.2.1
  refine Set.infinite_of_injective_forall_mem hinjective fun n => ⟨e, he, ?_⟩
  induction n with
  | zero => exact .root hroot
  | succ n ih => exact .step ih (stage_succ_mem hfirst n)

/-- No number of steps finds the contracts of the job. -/
theorem collect_stageFragments_never_ends :
    ¬ ∃ fuel, (collect fuel stageFragments).isSome := by
  intro h
  have hjob : ∃ p ∈ Parts.ofFragments stageFragments, p.isService ∧
      ∃ e ∈ (catalogueOf stageFragments).get? p.identity,
        stage 0 ∈ (catalogueOf stageFragments).directContracts e := by
    decide +kernel
  obtain ⟨p, hp, hservice, e, he, hroot⟩ := hjob
  have hfinite := (exists_isSome_collect_iff stageFragments).mp h p hp hservice
  exact infinite_implements List.mem_cons_self he hroot hfinite

/-- Here the stage is implemented by a class that is no service. -/
def draftFragments : List Fragment :=
  [stageContract,
   { name := "Job", lifetime := some .singleton },
   { name := "Draft", contracts := ["IStage<Unit, Unit, Unit, Unit>"] }]

/-- The contracts of the draft are not needed for the services. The registry asks for them, and no
number of steps finds them. -/
theorem collect_draftFragments_ends :
    ∃ a, collect 0 draftFragments = some a ∧
      ∀ fuel fallback services, Registry.build fuel fallback services a.catalogue = none := by
  have hcollected : (collect 0 draftFragments).isSome := by decide +kernel
  obtain ⟨a, ha⟩ := Option.isSome_iff_exists.mp hcollected
  refine ⟨a, ha, fun fuel fallback services => ?_⟩
  rw [catalogue_of_collect ha]
  have hdraft : ∃ e ∈ (catalogueOf draftFragments).entries,
      (e.isService = false ∧ e.kind = .concrete) ∧
      (catalogueOf draftFragments).get? e.identity = some e ∧
      stage 0 ∈ (catalogueOf draftFragments).directContracts e := by
    decide +kernel
  obtain ⟨e, hmem, hplain, he, hroot⟩ := hdraft
  refine Option.eq_none_iff_forall_ne_some.mpr fun r hr => ?_
  have hfinite := (Registry.exists_build_iff fallback services _).mp ⟨fuel, r, hr⟩ e hmem hplain
  exact infinite_implements List.mem_cons_self he hroot hfinite

end Snapshot

end Injection
