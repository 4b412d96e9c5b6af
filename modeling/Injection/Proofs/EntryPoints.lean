import Injection.Proofs.Captives
import Injection.Proofs.ContractGrowth
import Injection.Proofs.Merging

/-! Verifying fragments, or the services collected from them. The services make a smaller catalogue:
contracts and plain classes are missing, and contracts are already expanded. The registry reads the
catalogue for plain classes only and the check of lifetimes for ancestors only, so the graph is the
same, and the findings are the same but for what reading the fragments found wherever there is no
plain class and no ancestor is a contract. The contracts of a plain class may have no end; then only
the services can be verified. -/
namespace Injection

/-- The ancestors are the same type with the same values of its type parameters. -/
structure Ancestor.Akin (x x' : Ancestor) : Prop where
  identity : x.entry.identity = x'.entry.identity
  bindings : x.bindings = x'.bindings

/-! ## Ancestors in a smaller catalogue -/

namespace Catalogue
variable {c c' : Catalogue}

theorem lookup?_eq_none_or_get? (s : Signature) :
    (∀ c : Catalogue, c.lookup? s = none) ∨ ∃ i, ∀ c : Catalogue, c.lookup? s = c.get? i := by
  cases s with
  | named name => exact .inr ⟨⟨name, 0⟩, fun _ => rfl⟩
  | app head args => exact .inr ⟨⟨head, args.length⟩, fun _ => rfl⟩
  | param name => exact .inl fun _ => rfl
  | hole index => exact .inl fun _ => rfl

theorem ne_of_contract_of_concrete {i j : Identity} {e f : Entry} (hf : c.get? j = some f)
    (hkf : f.kind = .contract) (he : c.get? i = some e) (hk : e.kind = .concrete) : j ≠ i := by
  rintro rfl
  rw [he] at hf
  cases hf
  rw [hk] at hkf
  cases hkf

/-- Types are entered once and found by their identity. -/
structure Lawful (c : Catalogue) : Prop where
  nodup : (c.entries.map Entry.identity).Nodup
  get?_eq_some : ∀ {i e}, c.get? i = some e ↔ e ∈ c.entries ∧ e.identity = i

theorem lawful_ofEntries {es : List Entry} (h : (es.map Entry.identity).Nodup) :
    Lawful (ofEntries es) := by
  refine ⟨?_, fun {i e} => ?_⟩
  · rw [ofEntries_eq h]
    exact h
  · rw [get?_ofEntries h, find?_eq_some_iff_of_nodup h, ofEntries_eq h]

theorem Lawful.mem_identities (h : c.Lawful) {i : Identity} {e : Entry} (he : c.get? i = some e) :
    i ∈ c.entries.map Entry.identity :=
  List.mem_map.mpr ⟨e, h.get?_eq_some.mp he⟩

/-- The second catalogue has the classes of the first and nothing else. Of their entries only what
the walk over ancestors reads has to agree. -/
structure ClassesOf (c c' : Catalogue) : Prop where
  lawful : c.Lawful
  lawful' : c'.Lawful
  known : ∀ {i e}, c.get? i = some e → e.kind = .concrete →
    ∃ e', c'.get? i = some e' ∧ e'.params = e.params ∧ e'.base = e.base
  only : ∀ {i e'}, c'.get? i = some e' → ∃ e, c.get? i = some e ∧ e.kind = .concrete

namespace ClassesOf

theorem walk (h : ClassesOf c c') {unseen unseen' : List Identity} (hd : unseen.Nodup)
    (hd' : unseen'.Nodup)
    (hclass : ∀ {i e}, c.get? i = some e → e.kind = .concrete → (i ∈ unseen ↔ i ∈ unseen'))
    (hcontract : ∀ {i e}, c.get? i = some e → e.kind = .contract → i ∈ unseen)
    (σ : Signature.Bindings) (base : Option Signature)
    (hwalk : ∀ x ∈ c.walk unseen σ base, x.entry.kind ≠ .contract) :
    List.Forall₂ Ancestor.Akin (c.walk unseen σ base) (c'.walk unseen' σ base) := by
  cases base with
  | none =>
    rw [walk_none, walk_none]
    exact .nil
  | some base =>
    by_cases hroot : (base.subst σ).headName ∈ rootNames
    · rw [walk_root hroot, walk_root hroot]
      exact .nil
    rcases lookup?_eq_none_or_get? (base.subst σ) with hnone | ⟨i, hi⟩
    · rw [walk_unknown (hnone c), walk_unknown (hnone c')]
      exact .nil
    cases he : c.get? i with
    | none =>
      have he' : c'.get? i = none := by
        refine Option.eq_none_iff_forall_ne_some.mpr fun e' he' => ?_
        obtain ⟨e, he₁, -⟩ := h.only he'
        rw [he] at he₁
        cases he₁
      rw [walk_unknown ((hi c).trans he), walk_unknown ((hi c').trans he')]
      exact .nil
    | some e =>
      obtain ⟨-, hid⟩ := h.lawful.get?_eq_some.mp he
      cases hk : e.kind with
      | contract =>
        -- A contract was never passed before, so the walk would go on to it.
        have hunseen : e.identity ∈ unseen := hid ▸ hcontract he hk
        rw [walk_cons hroot ((hi c).trans he) hunseen] at hwalk
        exact absurd hk (hwalk _ List.mem_cons_self)
      | concrete =>
        obtain ⟨e', he', hparams, hbase⟩ := h.known he hk
        obtain ⟨-, hid'⟩ := h.lawful'.get?_eq_some.mp he'
        by_cases hmem : i ∈ unseen
        · have hmem' := (hclass he hk).mp hmem
          have hunseen : e.identity ∈ unseen := hid ▸ hmem
          rw [walk_cons hroot ((hi c).trans he) hunseen] at hwalk ⊢
          rw [walk_cons hroot ((hi c').trans he') (hid' ▸ hmem'), hparams, hbase]
          refine .cons ⟨hid.trans hid'.symm, rfl⟩ (h.walk (hd.erase _) (hd'.erase _) ?_ ?_ _ _ ?_)
          · intro j f hf hkf
            rw [hd.mem_erase_iff, hd'.mem_erase_iff, hid, hid', hclass hf hkf]
          · intro j f hf hkf
            refine hd.mem_erase_iff.mpr ⟨?_, hcontract hf hkf⟩
            rw [hid]
            exact ne_of_contract_of_concrete hf hkf he hk
          · exact fun x hx => hwalk x (List.mem_cons_of_mem _ hx)
        · have hmem' : i ∉ unseen' := fun hi' => hmem ((hclass he hk).mpr hi')
          rw [walk_seen ((hi c).trans he) (hid ▸ hmem),
            walk_seen ((hi c').trans he') (hid' ▸ hmem')]
          exact .nil
termination_by unseen.length
decreasing_by
  rw [List.length_erase_of_mem hunseen]
  exact Nat.sub_lt (List.length_pos_of_mem hunseen) Nat.one_pos

theorem ancestors (h : ClassesOf c c') {i : Identity} {e : Entry} (he : c.get? i = some e)
    (hk : e.kind = .concrete) (hwalk : ∀ x ∈ c.ancestors i, x.entry.kind ≠ .contract) :
    List.Forall₂ Ancestor.Akin (c.ancestors i) (c'.ancestors i) := by
  obtain ⟨e', he', -, hbase⟩ := h.known he hk
  have hd := h.lawful.nodup
  have hd' := h.lawful'.nodup
  unfold Catalogue.ancestors at hwalk ⊢
  rw [he', Option.bind_some, hbase]
  rw [he, Option.bind_some] at hwalk ⊢
  refine h.walk (hd.erase i) (hd'.erase i) ?_ ?_ _ _ hwalk
  · intro j f hf hkf
    obtain ⟨f', hf', -⟩ := h.known hf hkf
    rw [hd.mem_erase_iff, hd'.mem_erase_iff]
    simp only [h.lawful.mem_identities hf, h.lawful'.mem_identities hf']
  · intro j f hf hkf
    have hne := ne_of_contract_of_concrete hf hkf he hk
    exact hd.mem_erase_iff.mpr ⟨hne, h.lawful.mem_identities hf⟩

end ClassesOf
end Catalogue

namespace Check
variable {r : Registry} {o : Options} {services : List Service} {c c' : Catalogue} {g : Graph}

theorem ancestor_congr {s : Service} {x x' : Ancestor} (h : x.Akin x') :
    ancestor r o services s x = ancestor r o services s x' := by
  unfold ancestor
  rw [h.identity, h.bindings]

theorem lifetimes_congr (h : ∀ s ∈ services,
    List.Forall₂ Ancestor.Akin (c.ancestors s.identity) (c'.ancestors s.identity)) :
    lifetimes r o services c g = lifetimes r o services c' g := by
  have hservice : ∀ s ∈ services,
      serviceLifetimes r o services c g s = serviceLifetimes r o services c' g s := by
    intro s hs
    unfold serviceLifetimes
    rw [mapM_congr_of_forall₂ (h s hs) fun _ _ hx => ancestor_congr hx]
  unfold lifetimes
  refine congrArg (fun l => if o.checkLifetimes then l else []) ?_
  refine List.flatMap_congr fun s hs => ?_
  rw [hservice s (List.mem_filter.mp hs).1]

end Check

namespace Registry
variable {fuel fuel' : Nat} {fallback : Fallback} {services : List Service} {c c' : Catalogue}
  {r r' : Registry}

/-- The catalogue has a part in the table of plain classes only. -/
theorem eq_of_build (h : build fuel fallback services c = some r)
    (h' : build fuel' fallback services c' = some r') :
    r' = { r with unregistered := r'.unregistered } := by
  obtain ⟨plain, -, rfl⟩ := Option.map_eq_some_iff.mp h
  obtain ⟨plain', -, rfl⟩ := Option.map_eq_some_iff.mp h'
  rfl

theorem build_congr (h : plainProviders fuel c = plainProviders fuel' c') (fallback : Fallback)
    (services : List Service) :
    build fuel fallback services c = build fuel' fallback services c' := by
  rw [build, build, h]

theorem plainProviders_eq_nil (h : ∀ e ∈ c.entries, e.kind = .concrete → e.isService) (fuel : Nat) :
    plainProviders fuel c = some [] := by
  have hnone : (c.entries.filter fun e => !e.isService && e.kind = .concrete) = [] := by
    refine List.filter_eq_nil_iff.mpr fun e he hplain => ?_
    obtain ⟨hs, hk⟩ : e.isService = false ∧ e.kind = .concrete := by simpa using hplain
    rw [h e he hk] at hs
    cases hs
  rw [plainProviders, hnone]
  rfl

end Registry

/-- Edges lead to services only, so plain classes have no part in the graph. -/
theorem Graph.build_congr {r : Registry} {unregistered : Table} (o : Options)
    (services : List Service) :
    Graph.build { r with unregistered } o services = Graph.build r o services :=
  rfl

/-! ## Services as a catalogue -/

/-- The entry of a finished service. -/
def Service.entry (s : Service) : Entry :=
  { identity := s.identity, params := s.params, base := s.base, contracts := s.contracts,
    isService := true, order := s.order }

theorem Service.nodup_entries {services : List Service}
    (h : (services.map Service.identity).Nodup) :
    ((services.map Service.entry).map Entry.identity).Nodup := by
  rw [List.map_map]
  exact h

theorem Catalogue.entries_ofServices {services : List Service}
    (h : (services.map Service.identity).Nodup) :
    (ofServices services).entries = services.map Service.entry := by
  change (ofEntries (services.map Service.entry)).entries = _
  rw [ofEntries_eq (Service.nodup_entries h)]

/-- Services are no plain classes. -/
theorem Registry.plainProviders_of_distinct {services : List Service}
    (h : (services.map Service.identity).Nodup) (fuel : Nat) :
    plainProviders fuel (.ofServices services) = some [] := by
  refine plainProviders_eq_nil (fun e he _ => ?_) fuel
  rw [Catalogue.entries_ofServices h] at he
  obtain ⟨s, -, rfl⟩ := List.mem_map.mp he
  rfl

theorem Catalogue.lawful_ofServices {services : List Service}
    (h : (services.map Service.identity).Nodup) : (ofServices services).Lawful :=
  lawful_ofEntries (Service.nodup_entries h)

namespace Snapshot
variable {fuel : Nat} {fs : List Fragment} {a : Snapshot}

theorem forall₂_contractsOf (ha : collect fuel fs = some a) :
    List.Forall₂ (fun p s => ∃ contracts,
      (catalogueOf fs).contractsOf fuel p.1.identity = some contracts ∧
        s = p.1.service p.2 contracts) (declaredIn fs) a.services := by
  rw [collect_eq] at ha
  obtain ⟨services, hservices, rfl⟩ := Option.map_eq_some_iff.mp ha
  refine (mapM_eq_some_iff.mp hservices).imp fun p s hs => ?_
  obtain ⟨contracts, hc, rfl⟩ := Option.map_eq_some_iff.mp hs
  exact ⟨contracts, hc, rfl⟩

theorem forall₂_services (ha : collect fuel fs = some a) :
    List.Forall₂ (fun p s => ∃ contracts, s = p.1.service p.2 contracts) (declaredIn fs)
      a.services :=
  (forall₂_contractsOf ha).imp fun _ _ ⟨contracts, _, hs⟩ => ⟨contracts, hs⟩

theorem kind_of_declared {p : Parts × Nat} (h : p ∈ declaredIn fs) : p.1.kind = .concrete :=
  Parts.kind_of_isService (List.mem_filter.mp h).2

/-- If all classes are services, the services tell all that there is to know about classes. -/
theorem classesOf_ofServices (ha : collect fuel fs = some a)
    (hservices : ∀ e ∈ a.catalogue.entries, e.kind = .concrete → e.isService) :
    a.catalogue.ClassesOf (.ofServices a.services) := by
  have hall := forall₂_services ha
  have hentries' := Catalogue.entries_ofServices (nodup_services ha)
  have hlawful' := Catalogue.lawful_ofServices (nodup_services ha)
  rw [catalogue_of_collect ha] at hservices ⊢
  have hlawful : (catalogueOf fs).Lawful := Catalogue.lawful_ofEntries (nodup_entries fs)
  refine ⟨hlawful, hlawful', fun {i e} he hk => ?_, fun {i e'} he' => ?_⟩
  · obtain ⟨hmem, rfl⟩ := hlawful.get?_eq_some.mp he
    have hs := hservices e hmem hk
    rw [entries_catalogueOf] at hmem
    obtain ⟨⟨p, order⟩, hp, rfl⟩ := List.mem_map.mp hmem
    obtain ⟨s, hsmem, contracts, rfl⟩ :=
      exists_of_forall₂_left hall (List.mem_filter.mpr ⟨hp, hs⟩)
    refine ⟨(p.service order contracts).entry, hlawful'.get?_eq_some.mpr ⟨?_, rfl⟩, rfl, rfl⟩
    rw [hentries']
    exact List.mem_map_of_mem hsmem
  · obtain ⟨hmem, rfl⟩ := hlawful'.get?_eq_some.mp he'
    rw [hentries'] at hmem
    obtain ⟨s, hsmem, rfl⟩ := List.mem_map.mp hmem
    obtain ⟨p, hp, contracts, rfl⟩ := exists_of_forall₂_right hall hsmem
    exact ⟨p.1.entry p.2, get?_catalogueOf (List.mem_filter.mp hp).1, kind_of_declared hp⟩

/-- A walk that meets no contract goes the same way over the services alone. -/
theorem akin_ancestors (ha : collect fuel fs = some a)
    (hservices : ∀ e ∈ a.catalogue.entries, e.kind = .concrete → e.isService)
    (hwalk : ∀ s ∈ a.services, ∀ x ∈ a.catalogue.ancestors s.identity, x.entry.kind ≠ .contract) :
    ∀ s ∈ a.services, List.Forall₂ Ancestor.Akin (a.catalogue.ancestors s.identity)
      ((Catalogue.ofServices a.services).ancestors s.identity) := by
  intro s hs
  obtain ⟨p, hp, contracts, rfl⟩ := exists_of_forall₂_right (forall₂_services ha) hs
  have he : a.catalogue.get? p.1.identity = some (p.1.entry p.2) := by
    rw [catalogue_of_collect ha]
    exact get?_catalogueOf (List.mem_filter.mp hp).1
  exact (classesOf_ofServices ha hservices).ancestors he (kind_of_declared hp) (hwalk _ hs)

end Snapshot

/-! ## The two reports -/

namespace Report
open Finding
variable {fuel : Nat} {o : Options} {fs : List Fragment} {a : Snapshot} {r : Registry}
  {res : List Finding}

theorem findings_assemble :
    (assemble o a r res).findings = merge o (a.services.map Service.identity)
      ([.collect, .graph, .rules, .cycles, .lifetimes].map (found o a r res)) :=
  rfl

/-- Without fragments there is nothing to read, and all else is found as before. -/
theorem found_ofServices (ha : Snapshot.collect fuel fs = some a)
    (hres : Check.resolution r (Graph.build r o a.services) = .ok res)
    (hancestors : ∀ s ∈ a.services, List.Forall₂ Ancestor.Akin (a.catalogue.ancestors s.identity)
      ((Catalogue.ofServices a.services).ancestors s.identity)) (phase : Phase) :
    found o (.ofServices a.services) r res phase =
      (found o a r res phase).filter fun f => f.kind ≠ .malformedSignature := by
  have hkind : ∀ f ∈ found o a r res phase, f.kind ∈ phase.kinds :=
    fun f hf => kind_of_found ha hres hf
  by_cases hphase : phase = .collect
  · subst hphase
    refine (List.filter_eq_nil_iff.mpr fun f hf => ?_).symm
    simpa [Phase.kinds] using hkind f hf
  · have hself : ((found o a r res phase).filter fun f => f.kind ≠ .malformedSignature) =
        found o a r res phase := by
      refine List.filter_eq_self.mpr fun f hf => ?_
      have hf := hkind f hf
      refine decide_eq_true fun hmal => ?_
      rw [hmal] at hf
      cases phase <;> simp [Phase.kinds] at hf hphase
    rw [hself]
    cases phase with
    | collect => exact absurd rfl hphase
    | lifetimes => exact (Check.lifetimes_congr hancestors).symm
    | registry => rfl
    | graph => rfl
    | rules => rfl
    | cycles => rfl
    | merge => rfl

theorem answers_builtIn (o : Options) : (chooseFallback o none).Answers :=
  answers_chooseFallback o (by simp)

theorem exists_ofSnapshot_of_answers {plain : List Provider} {supplied : Option Fallback}
    (hplain : Registry.plainProviders fuel a.catalogue = some plain) (o : Options)
    (hanswers : ∀ f ∈ supplied, f.Answers) :
    ∃ r res, Registry.build fuel (chooseFallback o supplied) a.services a.catalogue = some r ∧
      Check.resolution r (Graph.build r o a.services) = .ok res ∧
      ofSnapshot fuel o supplied a = .ok (assemble o a r res) := by
  obtain ⟨r, hr⟩ := Registry.exists_build hplain (chooseFallback o supplied) a.services
  obtain ⟨res, hres⟩ :=
    exists_resolution (answers_chooseFallback o hanswers) hr (Graph.build r o a.services)
  exact ⟨r, res, hr, hres, ofSnapshot_eq_ok hr hres⟩

theorem exists_ofSnapshot {plain : List Provider}
    (hplain : Registry.plainProviders fuel a.catalogue = some plain) (o : Options) :
    ∃ r res, Registry.build fuel (chooseFallback o none) a.services a.catalogue = some r ∧
      Check.resolution r (Graph.build r o a.services) = .ok res ∧
      ofSnapshot fuel o none a = .ok (assemble o a r res) :=
  exists_ofSnapshot_of_answers hplain o (by simp)

theorem plainProviders_ofServices (ha : Snapshot.collect fuel fs = some a) (fuel' : Nat) :
    Registry.plainProviders fuel' (.ofServices a.services) = some [] :=
  Registry.plainProviders_of_distinct (Snapshot.nodup_services ha) fuel'

theorem exists_verify_iff (fuel : Nat) (o : Options) (fs : List Fragment) :
    (∃ x, verify fuel o none fs = .ok x) ↔ Snapshot.ContractsFound fuel fs := by
  constructor
  · rintro ⟨x, hx⟩
    by_contra hlost
    rw [verify_eq_outOfFuel hlost] at hx
    cases hx
  · intro hfound
    obtain ⟨a, r, -, hr, -, hreport⟩ := verify_of_contractsFound hfound o none
    obtain ⟨res, hres⟩ := exists_resolution (answers_builtIn o) hr (Graph.build r o a.services)
    exact ⟨_, hreport res hres⟩

theorem exists_fuel_verify_iff (o : Options) (fs : List Fragment) :
    (∃ fuel x, verify fuel o none fs = .ok x) ↔ ∀ p ∈ Parts.ofFragments fs, p.kind = .concrete →
      {s | (Snapshot.catalogueOf fs).Implements p.identity s}.Finite := by
  simp only [exists_verify_iff, Snapshot.ContractsFound]
  exact (Snapshot.catalogueOf fs).exists_isSome_contractsOf_forall_iff Parts.identity
    (fun p => p.kind = .concrete) (Parts.ofFragments fs)

theorem findings_ofServices (ha : Snapshot.collect fuel fs = some a)
    (hres : Check.resolution r (Graph.build r o a.services) = .ok res)
    (hancestors : ∀ s ∈ a.services, List.Forall₂ Ancestor.Akin (a.catalogue.ancestors s.identity)
      ((Catalogue.ofServices a.services).ancestors s.identity)) :
    (assemble o (.ofServices a.services) r res).findings =
      (assemble o a r res).findings.filter fun f => f.kind ≠ .malformedSignature := by
  rw [findings_assemble, findings_assemble,
    filter_merge o _ _ (fun k => k ≠ .malformedSignature), List.map_map]
  refine congrArg (merge o _) (List.map_congr_left fun phase _ => ?_)
  exact found_ofServices ha hres hancestors phase

/-- Services collected from fragments can always be verified, and fragments as soon as the contracts
of all classes are found, which needs that each class has finitely many. Both reports have the same
index and the same graph. If all classes are services and no ancestor of a service is a contract,
the fragments can be verified and the services have the same findings, in the same order, without
those on malformed signatures. -/
theorem verifyServices_agrees (fuel fuel' : Nat) (o : Options) (fs : List Fragment) (a : Snapshot)
    (ha : Snapshot.collect fuel fs = some a) :
    ∃ y, verifyServices fuel' o none a.services = .ok y ∧
      ((∃ x, verify fuel o none fs = .ok x) ↔ Snapshot.ContractsFound fuel fs) ∧
      ((∃ fuel x, verify fuel o none fs = .ok x) ↔
        ∀ p ∈ Parts.ofFragments fs, p.kind = .concrete →
          {s | (Snapshot.catalogueOf fs).Implements p.identity s}.Finite) ∧
      (∀ x, verify fuel o none fs = .ok x →
        y.registry.index = x.registry.index ∧ y.graph = x.graph) ∧
      ((∀ e ∈ a.catalogue.entries, e.kind = .concrete → e.isService) →
        (∀ s ∈ a.services, ∀ x ∈ a.catalogue.ancestors s.identity, x.entry.kind ≠ .contract) →
        ∃ x, verify fuel o none fs = .ok x ∧
          y.findings = x.findings.filter fun f => f.kind ≠ .malformedSignature) := by
  have hverify : verify fuel o none fs = ofSnapshot fuel o none a := by simp only [verify, ha]
  have hplain' := plainProviders_ofServices ha fuel'
  obtain ⟨r', res', hr', hres', hy⟩ :=
    exists_ofSnapshot (a := .ofServices a.services) hplain' o
  refine ⟨_, hy, exists_verify_iff fuel o fs, exists_fuel_verify_iff o fs, fun x hx => ?_,
    fun hservices hwalk => ?_⟩
  · rw [hverify] at hx
    cases hplain : Registry.plainProviders fuel a.catalogue with
    | none =>
      rw [ofSnapshot_eq_outOfFuel hplain] at hx
      cases hx
    | some plain =>
      obtain ⟨r, res, hr, -, hx'⟩ := exists_ofSnapshot hplain o
      rw [hx'] at hx
      cases hx
      rw [Registry.eq_of_build hr hr']
      exact ⟨rfl, Graph.build_congr o a.services⟩
  · have hplain := Registry.plainProviders_eq_nil hservices fuel
    obtain ⟨r, res, hr, hres, hx⟩ := exists_ofSnapshot hplain o
    -- No plain class on either side, so there is one registry for both.
    have hsame := Registry.build_congr (hplain'.trans hplain.symm) (chooseFallback o none)
      a.services
    obtain rfl : r' = r := Option.some.inj (hr'.symm.trans (hsame.trans hr))
    obtain rfl : res' = res := Except.ok.inj (hres'.symm.trans hres)
    have hancestors := Snapshot.akin_ancestors ha hservices hwalk
    exact ⟨_, hverify.trans hx, findings_ofServices ha hres hancestors⟩

/-- A page that is a singleton holds a session, and so does a page derived from it. One signature
has no end. -/
def pageFragments : List Fragment :=
  [{ name := "IHome", kind := .contract, contracts := ["IPage<User>"] },
   { name := "Page", params := ["T"], contracts := ["IPage<T>"], lifetime := some .singleton,
     requests := [{ target := "ISession", style := .list 0 }] },
   { name := "Home", base := some "Page<User>", contracts := ["IHome", "IList<"],
     lifetime := some .singleton },
   { name := "Session", contracts := ["ISession"], lifetime := some .perScope }]

theorem verifyServices_agrees_pages :
    ∃ a x y, Snapshot.collect 9 pageFragments = some a ∧
      (∀ e ∈ a.catalogue.entries, e.kind = .concrete → e.isService) ∧
      (∀ s ∈ a.services, ∀ x ∈ a.catalogue.ancestors s.identity, x.entry.kind ≠ .contract) ∧
      verify 9 {} none pageFragments = .ok x ∧ verifyServices 0 {} none a.services = .ok y ∧
      y.registry.index = x.registry.index ∧ y.graph = x.graph ∧
      y.findings = x.findings.filter (fun f => f.kind ≠ .malformedSignature) ∧
      problems x.findings =
        [(.singletonOnScoped, ⟨"Page", 1⟩, .identity ⟨"Session", 0⟩),
         (.singletonOnScoped, ⟨"Home", 0⟩, .identity ⟨"Session", 0⟩),
         (.malformedSignature, ⟨"Home", 0⟩, .text "IList<")] := by
  have hcollected : (Snapshot.collect 9 pageFragments).isSome := by decide +kernel
  obtain ⟨a, ha⟩ := Option.isSome_iff_exists.mp hcollected
  have hclasses : ∀ a ∈ Snapshot.collect 9 pageFragments,
      (∀ e ∈ a.catalogue.entries, e.kind = .concrete → e.isService) ∧
      ∀ s ∈ a.services, ∀ x ∈ a.catalogue.ancestors s.identity, x.entry.kind ≠ .contract := by
    decide +kernel
  obtain ⟨hservices, hwalk⟩ := hclasses a ha
  obtain ⟨y, hy, -, -, hgraph, hfindings⟩ := verifyServices_agrees 9 0 {} pageFragments a ha
  obtain ⟨x, hx, hxy⟩ := hfindings hservices hwalk
  have hproblems : (verify 9 {} none pageFragments).toOption.map (fun x => problems x.findings) =
      some [(.singletonOnScoped, ⟨"Page", 1⟩, .identity ⟨"Session", 0⟩),
        (.singletonOnScoped, ⟨"Home", 0⟩, .identity ⟨"Session", 0⟩),
        (.malformedSignature, ⟨"Home", 0⟩, .text "IList<")] := by
    decide +kernel
  simp only [hx, Except.toOption, Option.map_some, Option.some.injEq] at hproblems
  exact ⟨a, x, y, ha, hservices, hwalk, hx, hy, (hgraph x hx).1, (hgraph x hx).2, hxy, hproblems⟩

/-- The services of the drafts are verified without a finding. The drafts themselves never are: the
registry of the fragments holds plain classes too. -/
theorem verify_drafts_never_ends :
    ∃ a, Snapshot.collect 0 Snapshot.draftFragments = some a ∧
      (∃ y, verifyServices 0 {} none a.services = .ok y ∧ y.findings = [] ∧
        y.registry.index.rows = [(.named "Job", [⟨"Job", 0⟩])]) ∧
      ∀ fuel o supplied,
        verify fuel o supplied Snapshot.draftFragments = .error .outOfFuel := by
  obtain ⟨a, ha, hnever⟩ := Snapshot.collect_draftFragments_ends
  refine ⟨a, ha, ?_, fun fuel o supplied => ?_⟩
  · have hreport : ∀ a ∈ Snapshot.collect 0 Snapshot.draftFragments,
        (verifyServices 0 {} none a.services).toOption.map
          (fun y => (y.findings, y.registry.index.rows)) =
            some ([], [(.named "Job", [⟨"Job", 0⟩])]) := by
      decide +kernel
    obtain ⟨r, res, -, -, hy⟩ :=
      exists_ofSnapshot (a := .ofServices a.services) (plainProviders_ofServices ha 0) {}
    have hshown := hreport a ha
    rw [verifyServices, hy] at hshown
    simp only [Except.toOption, Option.map_some, Option.some.injEq, Prod.mk.injEq] at hshown
    exact ⟨_, hy, hshown⟩
  · refine verify_eq_outOfFuel (fun hfound => ?_) o supplied
    obtain ⟨plain, hplain⟩ := Option.isSome_iff_exists.mp (contractsFound_iff.mp hfound).2
    rw [← Snapshot.catalogue_of_collect ha] at hplain
    obtain ⟨r, hr⟩ := Registry.exists_build hplain (chooseFallback o supplied) a.services
    rw [hnever] at hr
    cases hr

end Report

end Injection
