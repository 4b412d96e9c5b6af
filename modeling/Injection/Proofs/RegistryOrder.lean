import Injection.Proofs.Resolution
import Injection.Proofs.SnapshotOrder
import Injection.Report

/-! The order of declarations has a part in the order of candidates only. Which candidates a target
has, and at which stage they are found, does not depend on it. -/
namespace Injection

/-- The same candidates, found at the same stage. -/
structure Match.Alike (m m' : Match) : Prop where
  stage : m.stage = m'.stage
  candidates : Matched Eq m.candidates m'.candidates

/-- The guess depends on which contracts there are, not on their order. -/
def Unordered (guess : Signature → List (Signature × Identity) → List Identity) : Prop :=
  ∀ t cs cs', Matched Eq cs cs' → Matched Eq (guess t cs) (guess t cs')

namespace Table
variable {ps ps' : List Provider}

theorem keeps_congr (h : Matched Eq ps ps') :
    keeps (ofProviders ps).openShapes = keeps (ofProviders ps').openShapes := by
  funext head arity
  rw [keeps, keeps, decide_eq_decide, mem_openShapes, mem_openShapes]
  simp only [Matched.eq_iff.mp h]

theorem matched_get (h : Matched Eq ps ps') (key : Signature) :
    Matched Eq ((ofProviders ps).index.get key) ((ofProviders ps').index.get key) := by
  refine Matched.eq_iff.mpr fun i => ?_
  rw [get_ofProviders, get_ofProviders, mem_listing, mem_listing]
  simp only [mem_keys, keeps_congr h, Matched.eq_iff.mp h]

theorem matched_openContracts (h : Matched Eq ps ps') :
    Matched Eq (ofProviders ps).openContracts (ofProviders ps').openContracts := by
  refine Matched.filter (h.flatMap ?_) ?_
  · rintro p _ rfl
    exact .refl _
  · rintro c _ rfl
    rfl

theorem lookup_alike (h : Matched Eq ps ps')
    {guess : Signature → List (Signature × Identity) → List Identity} (hguess : Unordered guess)
    (t : Signature) :
    BothOk (Option.Rel Match.Alike) ((ofProviders ps).lookup (fun t cs => .ok (guess t cs)) t)
      ((ofProviders ps').lookup (fun t cs => .ok (guess t cs)) t) := by
  have hfound : ∀ key, (ofProviders ps).index.get key ≠ [] ↔ (ofProviders ps').index.get key ≠ [] :=
    fun key => not_congr (matched_get h key).eq_nil_iff
  have hasked := hguess t _ _ (matched_openContracts h)
  rw [lookup_eq, lookup_eq, normalize, normalize, keeps_congr h]
  refine ⟨_, _, rfl, rfl, ?_⟩
  refine rel_option_ite (hfound _) (.some ⟨rfl, matched_get h _⟩) ?_
  refine rel_option_ite (and_congr_right' (hfound _)) (.some ⟨rfl, matched_get h _⟩) ?_
  refine rel_option_ite (and_congr_right' (hfound _)) (.some ⟨rfl, matched_get h _⟩) ?_
  exact rel_option_ite (and_congr_right' (not_congr hasked.eq_nil_iff)) (.some ⟨rfl, hasked⟩) .none

end Table

namespace Registry

/-- Both answer every question, and with the same answers up to the order of candidates. -/
structure Alike (r r' : Registry) : Prop where
  resolve : ∀ t, BothOk (Option.Rel Match.Alike) (r.resolve t) (r'.resolve t)
  resolveUnregistered :
    ∀ t, BothOk (Option.Rel Match.Alike) (r.resolveUnregistered t) (r'.resolveUnregistered t)
  lifetime? : ∀ i, r.lifetime? i = r'.lifetime? i
  isExternal : ∀ i, r.isExternal i = r'.isExternal i

section
variable {services services' : List Service}

theorem matched_serviceProviders (h : Matched Service.Alike services services') :
    Matched Eq (serviceProviders services) (serviceProviders services') := by
  refine h.map ?_
  rintro s _ ⟨order, rfl⟩
  rfl

theorem matched_plainProviders {c c' : Catalogue} (h : c.Alike c') (fuel : Nat) :
    Option.Rel (Matched Eq) (plainProviders fuel c) (plainProviders fuel c') := by
  refine (h.entries.filter ?_).mapM_option ?_
  · rintro e _ ⟨order, rfl⟩
    rfl
  · rintro e _ ⟨order, rfl⟩
    rw [h.contractsOf]
    cases c'.contractsOf fuel e.identity with
    | none => exact .none
    | some contracts => exact .some rfl

/-- Services that are found by identity are alike. -/
theorem rel_find?_reverse (h : Matched Service.Alike services services')
    (hd : (services'.map Service.identity).Nodup) (i : Identity) :
    Option.Rel Service.Alike (services.reverse.find? fun s => s.identity = i)
      (services'.reverse.find? fun s => s.identity = i) := by
  refine h.reverse.find? ?_ ?_ i
  · rintro s _ ⟨order, rfl⟩
    rfl
  · rw [List.map_reverse]
    exact List.nodup_reverse.mpr hd

theorem lookup_lifetimes_congr (h : Matched Service.Alike services services')
    (hd : (services'.map Service.identity).Nodup) (i : Identity) :
    (services.map fun s => (s.identity, s.lifetime)).reverse.lookup i =
      (services'.map fun s => (s.identity, s.lifetime)).reverse.lookup i := by
  rw [← List.map_reverse, ← List.map_reverse, Sorted.lookup_map_eq_find?,
    Sorted.lookup_map_eq_find?]
  refine map_eq_of_rel (rel_find?_reverse h hd i) ?_
  rintro s _ ⟨order, rfl⟩
  rfl

theorem matched_externals (h : Matched Service.Alike services services') :
    Matched Eq ((services.filter Service.isExternal).map Service.identity)
      ((services'.filter Service.isExternal).map Service.identity) := by
  refine (h.filter ?_).map ?_
  all_goals
    rintro s _ ⟨order, rfl⟩
    rfl

end

theorem isSome_plainProviders_iff {fuel : Nat} {c : Catalogue} :
    (plainProviders fuel c).isSome ↔ ∀ e ∈ c.entries, e.isService = false ∧ e.kind = .concrete →
      (c.contractsOf fuel e.identity).isSome := by
  rw [plainProviders, isSome_mapM_iff]
  simp

theorem exists_build {fuel : Nat} {c : Catalogue} {plain : List Provider}
    (h : plainProviders fuel c = some plain) (fallback : Fallback) (services : List Service) :
    ∃ r, build fuel fallback services c = some r := by
  rw [build, h]
  exact ⟨_, rfl⟩

theorem alike_build {guess : Signature → List (Signature × Identity) → List Identity}
    (hguess : Unordered guess) {a a' : Snapshot} (h : a.Alike a') (fuel : Nat) :
    Option.Rel Alike (build fuel (fun t cs => .ok (guess t cs)) a.services a.catalogue)
      (build fuel (fun t cs => .ok (guess t cs)) a'.services a'.catalogue) := by
  refine rel_option_map (matched_plainProviders h.catalogue fuel) fun plain plain' _ _ hplain => ?_
  refine ⟨fun t => ?_, fun t => ?_, fun i => ?_, fun i => ?_⟩
  · exact Table.lookup_alike (matched_serviceProviders h.services) hguess t
  · exact Table.lookup_alike hplain hguess t
  · exact lookup_lifetimes_congr h.services h.nodup' i
  · exact decide_eq_decide.mpr (Matched.eq_iff.mp (matched_externals h.services) i)

/-- No candidate was guessed. -/
def Certain (r : Registry) : Prop := ∀ t m, r.resolve t = .ok (some m) → m.stage ≠ .fallback

theorem certain_of_build {fuel : Nat} {services : List Service} {c : Catalogue} {r : Registry}
    (h : build fuel (fun _ _ => .ok []) services c = some r) : r.Certain := by
  intro t m hm
  obtain ⟨htable, hfallback⟩ := registered_of_build h
  rw [resolve, htable, hfallback, Table.lookup_eq] at hm
  simp only [ne_eq, not_true_eq_false, and_false, if_false, Except.ok.injEq] at hm
  split_ifs at hm
  all_goals
    cases hm
    simp

end Registry

/-- Without a supplied fallback the options choose one that always answers, whatever the order of
contracts, and that knows nothing unless guessing is allowed. -/
theorem Report.chooseFallback_none (o : Options) :
    ∃ guess, chooseFallback o none = (fun t cs => .ok (guess t cs)) ∧ Unordered guess ∧
      (o.heuristic = false → guess = fun _ _ => []) := by
  cases ho : o.heuristic with
  | false =>
    have hnone : chooseFallback o none = .none := by simp [chooseFallback, ho]
    exact ⟨_, hnone.trans rfl, fun t cs cs' _ => .refl _, fun _ => rfl⟩
  | true =>
    have hsame : chooseFallback o none = .sameShape := by simp [chooseFallback, ho]
    refine ⟨_, hsame.trans rfl, fun t cs cs' h => ((h.filter ?_).map ?_).eraseDups, nofun⟩
    all_goals
      rintro c _ rfl
      rfl

end Injection
