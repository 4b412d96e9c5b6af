import Injection.Proofs.Resolution
import Injection.Proofs.Substitution

/-! Open generic contracts stand for their closed instances. An instance is looked up under two
normal forms, one with the nested generic types that normal forms keep and one without any. The
contract itself is listed under the first of its own two, so that an instance can be missed if it
nests kept types where the contract has parameters. Where it nests none there, the instance is found
whether it is closed or not. -/
namespace Injection

namespace Signature
variable {keep : String → Nat → Bool} {σ : Bindings} {s : Signature}

theorem isOpen_of_not_holeFree (h : s.holeFree = false) : s.isOpen = true := by
  induction s using induct with
  | hnamed name => cases h
  | hparam name => cases h
  | hhole index => rfl
  | happ head args ih =>
    rw [holeFree, allHoleFree_eq_all, List.all_eq_false] at h
    obtain ⟨a, ha, hhole⟩ := h
    rw [isOpen, anyOpen_eq_any]
    exact List.any_eq_true.mpr ⟨a, ha, ih a ha (Bool.eq_false_iff.mpr hhole)⟩

theorem not_holeFree_subst (h : s.holeFree = false) (σ : Bindings) :
    (s.subst σ).holeFree = false := by
  induction s using induct with
  | hnamed name => cases h
  | hparam name => cases h
  | hhole index => rfl
  | happ head args ih =>
    rw [holeFree, allHoleFree_eq_all, List.all_eq_false] at h
    obtain ⟨a, ha, hhole⟩ := h
    rw [subst, substArgs_eq_map, holeFree, allHoleFree_eq_all, List.all_map, List.all_eq_false]
    exact ⟨a, ha, Bool.eq_false_iff.mp (ih a ha (Bool.eq_false_iff.mpr hhole))⟩

theorem holeFree_normalize_subst (hk : ∀ head, keep head 0 = false) (ha : s.isApp)
    (ho : s.isOpen) (σ : Bindings) : ((s.subst σ).normalize keep).holeFree = false := by
  cases s with
  | app head args =>
    rw [subst, substArgs_eq_map]
    refine holeFree_normalize hk fun hnil => ?_
    exact args_ne_nil_of_isOpen ho (List.map_eq_nil_iff.mp hnil)
  | named name => cases ha
  | param name => cases ha
  | hole index => cases ha

theorem shape?_normalize (s : Signature) : (s.normalize keep).shape? = s.shape? := by
  cases s <;> simp [normalize, shape?]

theorem isKept_keeps {shapes : List (String × Nat)} :
    isKept (Table.keeps shapes) s = true ↔ ∃ shape ∈ shapes, s.shape? = some shape := by
  cases s with
  | app head args => simp [isKept, Table.keeps, shape?]
  | named name => simp [isKept, shape?]
  | param name => simp [isKept, shape?]
  | hole index => simp [isKept, shape?]

/-- No argument of the contract is a kept generic type, or no parameter becomes one that stands in
the arguments outside of all generic types that are not kept. -/
def FitsInstance (keep : String → Nat → Bool) (s : Signature) (σ : Bindings) : Prop :=
  (∀ a ∈ s.args, isKept keep a = false) ∨
    ∀ x ∈ exposedArgs keep s.args, isKept keep ((param x).subst σ) = false

instance (keep : String → Nat → Bool) (s : Signature) (σ : Bindings) :
    Decidable (FitsInstance keep s σ) :=
  inferInstanceAs (Decidable (_ ∨ _))

/-- The contract fits an instance if one of the instance's normal forms is the contract's. -/
theorem fitsInstance_iff (ha : s.isApp) :
    FitsInstance keep s σ ↔
      (s.subst σ).normalize keep = s.normalize keep ∨ (s.subst σ).flatten = s.normalize keep := by
  rw [FitsInstance, ← normalize_eq_flatten_iff ha, ← normalize_subst_iff ha, flatten_subst ha,
    or_comm, eq_comm (b := s.flatten)]

end Signature

/-- Where the first normal form of a generic type is listed, nothing is left to the fallback. -/
theorem Table.lookup_of_normal_listed (table : Table) (fallback : Fallback) {t : Signature}
    (ha : t.isApp) (hlisted : table.index.get (table.normalize t) ≠ []) :
    table.lookup fallback t = .ok (some (
      if table.index.get t ≠ [] then ⟨.exact, table.index.get t⟩
      else ⟨.normalized, table.index.get (table.normalize t)⟩)) := by
  have hnil : table.firstListed [] = none := rfl
  simp only [lookup, firstListed_cons, hnil, ha, hlisted, ne_eq, not_false_eq_true, if_true]
  by_cases hexact : table.index.get t = []
  · simp [hexact]
  · simp [hexact]

namespace Registry
variable {fuel : Nat} {fallback : Fallback} {services : List Service} {c : Catalogue}
  {r : Registry} {d : Service} {contract key : Signature} {σ : Signature.Bindings}

theorem get_of_build (hbuild : build fuel fallback services c = some r) (key : Signature) :
    r.registered.index.get key = providersOf services fun contract =>
      contract = key ∨ contract.isOpen ∧ contract.isApp ∧
        contract.normalize (keptIn services) = key := by
  obtain ⟨htable, -⟩ := registered_of_build hbuild
  rw [htable, Table.get_ofProviders, ← listing_serviceProviders]
  refine Table.listing_congr fun q _ contract _ => ?_
  rw [Table.mem_keys, keeps_serviceProviders]

theorem mem_providersOf {p : Signature → Prop} [DecidablePred p] {i : Identity} :
    i ∈ providersOf services p ↔ ∃ d ∈ services, d.identity = i ∧ ∃ c ∈ d.registered, p c := by
  rw [← listing_serviceProviders, Table.mem_listing]
  simp [serviceProviders]

theorem providersOf_congr {p p' : Signature → Prop} [DecidablePred p] [DecidablePred p']
    (h : ∀ d ∈ services, ∀ c ∈ d.registered, p c ↔ p' c) :
    providersOf services p = providersOf services p' := by
  rw [← listing_serviceProviders, ← listing_serviceProviders]
  refine Table.listing_congr fun q hq => ?_
  obtain ⟨d, hd, rfl⟩ := List.mem_map.mp hq
  exact h d hd

/-- No other contract of a service has the same head and number of arguments. -/
def Alone (services : List Service) (contract : Signature) : Prop :=
  ∀ d ∈ services, ∀ c ∈ d.registered, c.shape? = contract.shape? → c = contract

instance (services : List Service) (contract : Signature) : Decidable (Alone services contract) :=
  inferInstanceAs (Decidable (∀ d ∈ services, ∀ c ∈ d.registered, _ → _))

/-- Under a signature of its shape a contract that is alone is found by its normal form only. -/
theorem get_of_alone (hbuild : build fuel fallback services c = some r)
    (halone : Alone services contract) (ha : contract.isApp) (ho : contract.isOpen)
    (hshape : key.shape? = contract.shape?) (hne : contract ≠ key) :
    r.registered.index.get key =
      if key = contract.normalize (keptIn services) then providersOf services (· = contract)
      else [] := by
  rw [get_of_build hbuild]
  have honly : ∀ d ∈ services, ∀ c ∈ d.registered,
      (c = key ∨ c.isOpen ∧ c.isApp ∧ c.normalize (keptIn services) = key) ↔
        c = contract ∧ contract.normalize (keptIn services) = key := by
    intro d hd c hc
    constructor
    · rintro (rfl | ⟨-, -, hkey⟩)
      · exact absurd (halone d hd c hc hshape).symm hne
      · have hc' : c = contract := by
          refine halone d hd c hc ?_
          rw [← hshape, ← hkey, Signature.shape?_normalize]
        exact ⟨hc', hc' ▸ hkey⟩
    · rintro ⟨rfl, hkey⟩
      exact .inr ⟨ho, ha, hkey⟩
  rw [providersOf_congr honly]
  split
  next hkey => exact providersOf_congr fun _ _ _ _ => and_iff_left hkey.symm
  next hkey => simp [providersOf, Ne.symm hkey]

/-- Resolution of a generic type where nothing is guessed. -/
theorem resolve_app (hbuild : build fuel .none services c = some r) {t : Signature}
    (ha : t.isApp) :
    r.resolve t = .ok (
      if r.registered.index.get t ≠ [] then some ⟨.exact, r.registered.index.get t⟩
      else if r.registered.index.get (t.normalize (keptIn services)) ≠ [] then
        some ⟨.normalized, r.registered.index.get (t.normalize (keptIn services))⟩
      else if r.registered.index.get t.flatten ≠ [] then
        some ⟨.normalized, r.registered.index.get t.flatten⟩
      else none) := by
  obtain ⟨htable, hfallback⟩ := registered_of_build hbuild
  have hnormal : r.registered.normalize t = t.normalize (keptIn services) := by
    rw [Table.normalize, htable, keeps_serviceProviders]
  have hlookup : r.registered.lookup .none t = _ := r.registered.lookup_eq (fun _ _ => []) t
  rw [resolve, hfallback, hlookup]
  simp [ha, hnormal]

theorem exists_match_of_listed (hbuild : build fuel .none services c = some r) {t : Signature}
    (ha : t.isApp) (hkey : t.normalize (keptIn services) = key ∨ t.flatten = key)
    (hlisted : r.registered.index.get key ≠ []) :
    ∃ m, r.resolve t = .ok (some m) ∧ m.stage ≠ .fallback ∧ m.candidates ≠ [] := by
  rw [resolve_app hbuild ha]
  split
  next hexact => exact ⟨_, rfl, by simp, hexact⟩
  split
  next hnested => exact ⟨_, rfl, by simp, hnested⟩
  next hnested =>
    rcases hkey with rfl | rfl
    · exact absurd hlisted hnested
    · rw [if_pos hlisted]
      exact ⟨_, rfl, by simp, hlisted⟩

theorem keptIn_zero (services : List Service) (head : String) :
    keptIn services head 0 = false := by
  rw [← keeps_serviceProviders]
  exact Table.keeps_openShapes_zero _ head

/-- A contract that is alone lists no instance of itself, and lists a normal form of an instance
only if that is its own. -/
theorem get_instance_of_alone (hbuild : build fuel fallback services c = some r)
    (halone : Alone services contract) (ha : contract.isApp) (ho : contract.isOpen)
    (hclosed : (contract.subst σ).isOpen = false) :
    r.registered.index.get (contract.subst σ) = [] ∧
    ∀ keep : String → Nat → Bool, (∀ head, keep head 0 = false) →
      r.registered.index.get ((contract.subst σ).normalize keep) =
        if (contract.subst σ).normalize keep = contract.normalize (keptIn services) then
          providersOf services (· = contract)
        else [] := by
  have hfree : (contract.subst σ).holeFree = true := by
    refine Bool.eq_true_of_not_eq_false fun hhole => ?_
    simp [Signature.isOpen_of_not_holeFree hhole] at hclosed
  have hshape := Signature.shape?_subst ha σ
  constructor
  · have hne : contract ≠ contract.subst σ := by
      intro heq
      rw [← heq, ho] at hclosed
      cases hclosed
    rw [get_of_alone hbuild halone ha ho hshape hne, if_neg]
    intro heq
    have hhole := Signature.holeFree_normalize_of_isOpen (keptIn_zero services) ho ha
    rw [← heq, hfree] at hhole
    cases hhole
  · intro keep hkeep
    refine get_of_alone hbuild halone ha ho (by rw [Signature.shape?_normalize, hshape]) ?_
    intro heq
    have hhole := Signature.holeFree_normalize_subst hkeep ha ho σ
    rw [← heq] at hhole
    simp [Signature.not_holeFree_subst hhole σ] at hfree

/-- An open contract of a service resolves every closed instance that it fits. If it is the only
contract of its shape, such an instance resolves to the services that have the contract, and any
other closed instance to nothing. -/
theorem open_contract_resolves_instance (fuel : Nat) (services : List Service) (c : Catalogue)
    (r : Registry) (d : Service) (contract : Signature) (σ : Signature.Bindings)
    (hbuild : build fuel .none services c = some r) (hd : d ∈ services)
    (hcontract : contract ∈ d.registered) (ha : contract.isApp) (ho : contract.isOpen)
    (hclosed : (contract.subst σ).isOpen = false) :
    (contract.FitsInstance (keptIn services) σ →
      ∃ m, r.resolve (contract.subst σ) = .ok (some m) ∧ m.stage ≠ .fallback ∧
        m.candidates ≠ []) ∧
    (Alone services contract →
      r.resolve (contract.subst σ) = .ok (
        if contract.FitsInstance (keptIn services) σ then
          some ⟨.normalized, providersOf services (· = contract)⟩
        else none)) := by
  have ht : (contract.subst σ).isApp := Signature.isApp_subst ha σ
  have hfits : contract.FitsInstance (keptIn services) σ ↔
      (contract.subst σ).normalize (keptIn services) = contract.normalize (keptIn services) ∨
        (contract.subst σ).flatten = contract.normalize (keptIn services) :=
    Signature.fitsInstance_iff ha
  constructor
  · intro hfit
    refine exists_match_of_listed hbuild ht (hfits.mp hfit) ?_
    rw [get_of_build hbuild]
    exact List.ne_nil_of_mem (mem_providersOf.mpr ⟨d, hd, rfl, contract, hcontract,
      .inr ⟨ho, ha, rfl⟩⟩)
  · intro halone
    obtain ⟨hexact, hform⟩ := get_instance_of_alone hbuild halone ha ho hclosed
    have hnested := hform (keptIn services) (keptIn_zero services)
    have hflat : r.registered.index.get (contract.subst σ).flatten = _ :=
      hform (fun _ _ => false) fun _ => rfl
    rw [← Signature.flatten] at hflat
    have hself : providersOf services (· = contract) ≠ [] :=
      List.ne_nil_of_mem (mem_providersOf.mpr ⟨d, hd, rfl, contract, hcontract, rfl⟩)
    rw [resolve_app hbuild ht, hexact, hnested, hflat]
    simp only [hfits, ne_eq, not_true_eq_false, if_false]
    by_cases h₁ : (contract.subst σ).normalize (keptIn services) =
        contract.normalize (keptIn services)
    · simp [h₁, hself]
    · by_cases h₂ : (contract.subst σ).flatten = contract.normalize (keptIn services)
      · simp [h₁, h₂, hself]
      · simp [h₁, h₂]

/-- The instance nests `IItems`, which normal forms keep, but the contract has no kept argument. -/
theorem open_contract_resolves_nested :
    ∃ r, build 0 .none nestedServices {} = some r ∧
      (Signature.app "IRepo" [.param "T"]).FitsInstance (keptIn nestedServices)
        [("T", .app "IItems" [.named "User"])] ∧
      Alone nestedServices (.app "IRepo" [.param "T"]) ∧
      (∃ m, r.resolve (.app "IRepo" [.app "IItems" [.named "User"]]) = .ok (some m) ∧
        m.stage ≠ .fallback ∧ m.candidates ≠ []) ∧
      r.resolve (.app "IRepo" [.app "IItems" [.named "User"]]) =
        .ok (some ⟨.normalized, [⟨"AnyRepo", 1⟩]⟩) := by
  have hfits : (Signature.app "IRepo" [.param "T"]).FitsInstance (keptIn nestedServices)
      [("T", .app "IItems" [.named "User"])] := by decide +kernel
  have halone : Alone nestedServices (.app "IRepo" [.param "T"]) := by decide +kernel
  have hall := open_contract_resolves_instance 0 nestedServices {} _
    { identity := ⟨"AnyRepo", 1⟩, params := ["T"], contracts := [.app "IRepo" [.param "T"]] }
    (.app "IRepo" [.param "T"]) [("T", .app "IItems" [.named "User"])] rfl (by decide) (by decide)
    rfl rfl rfl
  refine ⟨_, rfl, hfits, halone, hall.1 hfits, ?_⟩
  have hlone := hall.2 halone
  rw [if_pos hfits] at hlone
  exact hlone

/-- A handler of pairs whose second part is an `IC`, and a type that keeps `IC` in normal forms. -/
def crossedServices : List Service :=
  [{ identity := ⟨"Handler", 2⟩, params := ["T", "U"], lifetime := .perScope
     contracts := [.app "IA" [.param "T", .app "IC" [.param "U"]]] },
   { identity := ⟨"Impl", 1⟩, params := ["T"], lifetime := .perScope
     contracts := [.app "IC" [.param "T"]] }]

/-- Both normal forms of the instance miss the contract: one keeps `IC` in the first place too, the
other in none. -/
theorem crossedServices_instance_missed :
    ∃ r, build 0 .none crossedServices {} = some r ∧
      ∃ d ∈ crossedServices, ∃ contract ∈ d.registered, contract.isApp ∧ contract.isOpen ∧
        ∃ σ, (contract.subst σ).isOpen = false ∧ r.resolve (contract.subst σ) = .ok none := by
  refine ⟨_, rfl, _, List.mem_cons_self, .app "IA" [.param "T", .app "IC" [.param "U"]],
    by decide, rfl, rfl, [("T", .app "IC" [.named "X"]), ("U", .named "Y")], rfl, ?_⟩
  decide +kernel

/-- An instance of an open contract finds the services that have the contract, unless a service is
registered under the instance itself. This holds for closed and for open instances, as long as no
parameter becomes a generic type that is kept in normal forms, and whatever the fallback does. -/
theorem unkept_instance_finds_service (fuel : Nat) (fallback : Fallback) (services : List Service)
    (c : Catalogue) (r : Registry) (d : Service) (contract : Signature) (σ : Signature.Bindings)
    (hbuild : build fuel fallback services c = some r) (hd : d ∈ services)
    (hcontract : contract ∈ d.registered) (ha : contract.isApp) (ho : contract.isOpen)
    (hunkept : ∀ x ∈ contract.parameters, ∀ shape ∈ r.registered.openShapes,
      ((Signature.param x).subst σ).shape? ≠ some shape) :
    ∃ m, r.resolve (contract.subst σ) = .ok (some m) ∧
      (m.stage = .exact ∧ m.candidates ≠ [] ∨
        m.stage = .normalized ∧ d.identity ∈ m.candidates) := by
  obtain ⟨htable, -⟩ := registered_of_build hbuild
  have hkeeps : Table.keeps r.registered.openShapes = keptIn services := by
    rw [htable, keeps_serviceProviders]
  -- The instance has the contract's own normal form, under which the service is listed.
  have hsame : (contract.subst σ).normalize (keptIn services) =
      contract.normalize (keptIn services) := by
    refine (Signature.normalize_subst_iff ha).mpr fun x hx => Bool.eq_false_iff.mpr fun hkept => ?_
    rw [← hkeeps, Signature.isKept_keeps] at hkept
    obtain ⟨shape, hshape, heq⟩ := hkept
    exact hunkept x (Signature.mem_parameters_of_exposed_args hx) shape hshape heq
  have hmem : d.identity ∈ r.registered.index.get (r.registered.normalize (contract.subst σ)) := by
    rw [Table.normalize, hkeeps, hsame, get_of_build hbuild]
    exact mem_providersOf.mpr ⟨d, hd, rfl, contract, hcontract, .inr ⟨ho, ha, rfl⟩⟩
  rw [resolve, Table.lookup_of_normal_listed r.registered r.fallback (Signature.isApp_subst ha σ)
    (List.ne_nil_of_mem hmem)]
  refine ⟨_, rfl, ?_⟩
  split
  next hexact => exact .inl ⟨rfl, hexact⟩
  next => exact .inr ⟨rfl, hmem⟩

/-- The instance is open, nests the kept `IC` only where the contract does, and puts a generic type
that is not kept in place of the other parameter. -/
theorem unkept_instance_finds_handler :
    ∃ r, build 0 (fun _ _ => .error .undescribed) crossedServices {} = some r ∧
      (∀ x ∈ (Signature.app "IA" [.param "T", .app "IC" [.param "U"]]).parameters,
        ∀ shape ∈ r.registered.openShapes,
          ((Signature.param x).subst [("T", .app "List" [.param "V"])]).shape? ≠ some shape) ∧
      ∃ m, r.resolve (.app "IA" [.app "List" [.param "V"], .app "IC" [.param "U"]]) =
          .ok (some m) ∧
        (m.stage = .exact ∧ m.candidates ≠ [] ∨
          m.stage = .normalized ∧ ⟨"Handler", 2⟩ ∈ m.candidates) ∧
        m = ⟨.normalized, [⟨"Handler", 2⟩]⟩ := by
  refine ⟨_, rfl, by decide +kernel, ?_⟩
  obtain ⟨m, hm, hfinds⟩ := unkept_instance_finds_service 0 (fun _ _ => .error .undescribed)
    crossedServices {} _ _ (.app "IA" [.param "T", .app "IC" [.param "U"]])
    [("T", .app "List" [.param "V"])] rfl List.mem_cons_self (by decide) rfl rfl
    (by decide +kernel)
  have hanswer : (.ok (some m) : Except Fault (Option Match)) =
      .ok (some ⟨.normalized, [⟨"Handler", 2⟩]⟩) := by
    rw [← hm]
    decide +kernel
  exact ⟨m, hm, hfinds, Option.some.inj (Except.ok.inj hanswer)⟩

end Registry

end Injection
