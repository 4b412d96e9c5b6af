import Injection.Proofs.Enlarged
import Injection.Proofs.OpenContracts

/-! Closed contracts have no part in what an open target resolves to. An open target is looked up
under itself and under its normal forms. All of these are open, while a closed contract is listed
under itself alone and keeps nothing in normal forms. For an open target nothing is guessed. -/
namespace Injection

theorem Signature.isOpen_normalize {keep : String → Nat → Bool} (hk : ∀ head, keep head 0 = false)
    {t : Signature} (ho : t.isOpen) (ha : t.isApp) : (t.normalize keep).isOpen :=
  isOpen_of_not_holeFree (holeFree_normalize_of_isOpen hk ho ha)

/-- None of the contracts has a type parameter or a hole. -/
def Provider.Closed (q : Provider) : Prop := ∀ c ∈ q.contracts, c.isOpen = false

namespace Table
variable {providers providers' : List Provider} {key t : Signature}

/-- A closed contract is not listed under an open signature. -/
theorem not_mem_keys_of_closed {shapes : List (String × Nat)} {c : Signature}
    (hc : c.isOpen = false) (hkey : key.isOpen) : key ∉ keys shapes c := by
  rw [mem_keys]
  rintro (rfl | ⟨ho, -⟩)
  · simp [hc] at hkey
  · simp [hc] at ho

theorem listing_enlarged (h : Enlarged Provider.Closed providers providers')
    {p : Signature → Prop} [DecidablePred p] (hp : ∀ c, c.isOpen = false → ¬ p c) :
    listing providers' p = listing providers p := by
  refine congrArg (fun qs => (qs.map Provider.identity).eraseDups) (h.filter_eq fun q hq => ?_)
  exact decide_eq_false fun ⟨c, hc, hpc⟩ => hp c (hq c hc) hpc

theorem openContracts_enlarged (h : Enlarged Provider.Closed providers providers') :
    (ofProviders providers').openContracts = (ofProviders providers).openContracts := by
  simp only [ofProviders, List.filter_flatMap]
  refine h.flatMap_eq fun q hq => List.filter_eq_nil_iff.mpr fun x hx => ?_
  obtain ⟨c, hc, rfl⟩ := List.mem_map.mp hx
  simp [hq c hc]

theorem openShapes_enlarged (h : Enlarged Provider.Closed providers providers') :
    (ofProviders providers').openShapes = (ofProviders providers).openShapes :=
  congrArg (List.filterMap fun x : Signature × Identity => x.1.shape?) (openContracts_enlarged h)

theorem get_enlarged (h : Enlarged Provider.Closed providers providers') (hkey : key.isOpen) :
    (ofProviders providers').index.get key = (ofProviders providers).index.get key := by
  rw [get_ofProviders, get_ofProviders, openShapes_enlarged h]
  exact listing_enlarged h fun c hc => not_mem_keys_of_closed hc hkey

/-- An open target is answered from the index, and the fallback is not asked. -/
theorem lookup_of_isOpen (table : Table) (fallback : Fallback) (ho : t.isOpen) :
    table.lookup fallback t = table.lookup .none t := by
  simp [lookup, ho]

/-- Tables that list the same under open signatures answer an open target alike. -/
theorem lookup_enlarged (h : Enlarged Provider.Closed providers providers') (ho : t.isOpen) :
    (ofProviders providers').lookup .none t = (ofProviders providers).lookup .none t := by
  have hnone : ∀ table : Table, table.lookup .none t = _ :=
    fun table => table.lookup_eq (fun _ _ => []) t
  rw [hnone, hnone]
  by_cases ha : t.isApp = true
  · have hnormal := Signature.isOpen_normalize (keeps_openShapes_zero providers) ho ha
    have hflat : t.flatten.isOpen := Signature.isOpen_normalize (fun _ => rfl) ho ha
    rw [normalize, normalize, openShapes_enlarged h, get_enlarged h ho, get_enlarged h hnormal,
      get_enlarged h hflat]
  · simp [ha, get_enlarged h ho]

end Table

namespace Registry

theorem enlarged_serviceProviders {services services' : List Service}
    (h : Enlarged (fun d => ∀ c ∈ d.registered, c.isOpen = false) services services') :
    Enlarged Provider.Closed (serviceProviders services) (serviceProviders services') :=
  h.map fun _ hd => hd

/-- Services that are registered under closed contracts only may be inserted anywhere: an open
target has the same answer before and after, whatever the fallbacks do. -/
theorem open_target_ignores_closed (fuel fuel' : Nat) (fallback fallback' : Fallback)
    (services services' : List Service) (c c' : Catalogue) (r r' : Registry) (t : Signature)
    (hinserted : Enlarged (fun d => ∀ contract ∈ d.registered, contract.isOpen = false)
      services services')
    (hbuild : build fuel fallback services c = some r)
    (hbuild' : build fuel' fallback' services' c' = some r') (ht : t.isOpen) :
    ∃ m, r.resolve t = .ok m ∧ r'.resolve t = .ok m := by
  obtain ⟨htable, -⟩ := registered_of_build hbuild
  obtain ⟨htable', -⟩ := registered_of_build hbuild'
  have hsame := Table.lookup_enlarged (enlarged_serviceProviders hinserted) ht
  obtain ⟨m, hm⟩ : ∃ m, r.registered.lookup .none t = .ok m :=
    ⟨_, r.registered.lookup_eq (fun _ _ => []) t⟩
  refine ⟨m, ?_, ?_⟩
  · rw [resolve, Table.lookup_of_isOpen _ _ ht, hm]
  · rw [resolve, Table.lookup_of_isOpen _ _ ht, htable', hsame, ← htable, hm]

/-- Between the services comes one for the items of users and one for their repository. -/
def closedInserted : List Service :=
  [{ identity := ⟨"UserItems", 0⟩, contracts := [.app "IItems" [.named "User"]] },
   { identity := ⟨"Items", 1⟩, params := ["T"], contracts := [.app "IItems" [.param "T"]] },
   { identity := ⟨"UserRepo", 0⟩, contracts := [.app "IRepo" [.app "IItems" [.named "User"]]] },
   { identity := ⟨"AnyRepo", 1⟩, params := ["T"], contracts := [.app "IRepo" [.param "T"]] }]

/-- The target keeps `IItems` in its first normal form and is found under the second. -/
theorem open_target_ignores_closed_items :
    ∃ r r', build 0 (fun _ _ => .error .undescribed) nestedServices {} = some r ∧
      build 0 .sameShape closedInserted {} = some r' ∧
      Enlarged (fun d => ∀ contract ∈ d.registered, contract.isOpen = false)
        nestedServices closedInserted ∧
      r.resolve (.app "IRepo" [.app "IItems" [.param "V"]]) =
        .ok (some ⟨.normalized, [⟨"AnyRepo", 1⟩]⟩) ∧
      r'.resolve (.app "IRepo" [.app "IItems" [.param "V"]]) =
        .ok (some ⟨.normalized, [⟨"AnyRepo", 1⟩]⟩) := by
  have hinserted : Enlarged (fun d => ∀ contract ∈ d.registered, contract.isOpen = false)
      nestedServices closedInserted :=
    .insert _ (by decide) (.keep _ (.insert _ (by decide) (.keep _ .nil)))
  refine ⟨_, _, rfl, rfl, hinserted, ?_⟩
  obtain ⟨m, hm, hm'⟩ := open_target_ignores_closed 0 0 (fun _ _ => .error .undescribed) .sameShape
    nestedServices closedInserted {} {} _ _ (.app "IRepo" [.app "IItems" [.param "V"]]) hinserted
    rfl rfl rfl
  have hfound : (.ok m : Except Fault (Option Match)) =
      .ok (some ⟨.normalized, [⟨"AnyRepo", 1⟩]⟩) := by
    rw [← hm]
    decide +kernel
  exact ⟨hm.trans hfound, hm'.trans hfound⟩

end Registry

end Injection
