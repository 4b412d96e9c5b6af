import Injection.Proofs.Phases

/-! Faults of a fallback. The analysis of a service stops at the first signature for which the
fallback fails, and the fault is recorded for that service. Only the search for plain classes that
would meet an unresolved dependency is not tied to a service: a fault there leaves no report. -/
namespace Injection

namespace Options

/-- The type inside all wrappers. -/
def inner (o : Options) (s : Signature) : Signature := (o.unwrap .direct s).1

theorem unwrap_fst (o : Options) (w : Wrapping) (s : Signature) : (o.unwrap w s).1 = o.inner s := by
  have h : ∀ w', (o.unwrap w s).1 = (o.unwrap w' s).1 := by
    induction w, s using unwrap.induct o with
    | case1 w head a hd ih =>
      intro w'
      simp only [unwrap, hd, if_true]
      exact ih (w'.combine .deferred)
    | case2 w head a hd hc ih =>
      intro w'
      simp only [unwrap, hd, hc, if_true]
      exact ih (w'.combine .collection)
    | case3 w head a hd hc =>
      intro w'
      simp [unwrap, hd, hc]
    | case4 w s hs =>
      intro w'
      rw [unwrap, unwrap]
      · exact hs
      · exact hs
  exact h .direct

end Options

/-- The fault at which the resolution of a dependency fails. -/
def Registry.faultAt (r : Registry) (o : Options) (target : Signature) : Option Fault :=
  if o.isSupplied (o.inner target) then none else error? (r.resolve (o.inner target))

namespace Links
variable {r : Registry} {o : Options}

theorem error?_ofDependency (i : Identity) (d : Dependency) :
    error? (ofDependency r o i d) = r.faultAt o d.target := by
  simp only [ofDependency, o.unwrap_fst, Registry.faultAt]
  split
  · rfl
  · cases hr : r.resolve (o.inner d.target) with
    | error fault => rfl
    | ok found => cases found <;> rfl

theorem error?_ofService (s : Service) :
    error? (ofService r o s) = s.dependencies.findSome? fun d => r.faultAt o d.target := by
  simp only [ofService, error?_map, error?_mapM, error?_ofDependency]

/-- Nothing is found for a dependency that needs a registration. -/
theorem mem_unresolved_ofDependency {i : Identity} {d : Dependency} {links : Links}
    (h : ofDependency r o i d = .ok links) {u : Unresolved} :
    u ∈ links.unresolved ↔ o.isSupplied (o.inner d.target) = false ∧
      r.resolve (o.inner d.target) = .ok none ∧
      u = ⟨i, o.inner d.target, (o.unwrap d.wrapping d.target).2, d.location⟩ := by
  simp only [ofDependency, o.unwrap_fst] at h
  split at h
  next hs =>
    cases h
    simp [hs]
  next hs =>
    split at h
    · cases h
    next hn =>
      cases h
      simp [hs, hn]
    next found hf =>
      cases h
      simp [hf]

theorem mem_unresolved_ofService {s : Service} {links : Links} (h : ofService r o s = .ok links)
    {u : Unresolved} :
    u ∈ links.unresolved ↔ ∃ d ∈ s.dependencies, o.isSupplied (o.inner d.target) = false ∧
      r.resolve (o.inner d.target) = .ok none ∧
      u = ⟨s.identity, o.inner d.target, (o.unwrap d.wrapping d.target).2, d.location⟩ := by
  obtain ⟨parts, hp, -, hu⟩ := ofService_eq_ok h
  rw [hu, List.mem_flatMap]
  constructor
  · rintro ⟨part, hmem, hin⟩
    obtain ⟨d, hd, hok⟩ := exists_of_forall₂_right hp hmem
    exact ⟨d, hd, (mem_unresolved_ofDependency hok).mp hin⟩
  · rintro ⟨d, hd, hr⟩
    obtain ⟨part, hmem, hok⟩ := exists_of_forall₂_left hp hd
    exact ⟨part, hmem, (mem_unresolved_ofDependency hok).mpr hr⟩

end Links

namespace Check
variable {r : Registry} {o : Options} {services : List Service} {c : Catalogue} {g : Graph}

theorem error?_inheritedCaptives (s : Service) (σ : Signature.Bindings) (d : Dependency) :
    error? (inheritedCaptives r o s σ d) = r.faultAt o (d.target.subst σ) := by
  simp only [inheritedCaptives, inheritedCandidates, o.unwrap_fst, Registry.faultAt, error?_map]
  split
  · rfl
  · cases hr : r.resolve (o.inner (d.target.subst σ)) with
    | error fault => rfl
    | ok found => cases found <;> rfl

/-- The first fault at a dependency that an ancestor hands down. -/
def inheritedFault (r : Registry) (o : Options) (services : List Service) (x : Ancestor) :
    Option Fault :=
  if r.isExternal x.entry.identity then none
  else (((serviceAt? services x.entry.identity).map Service.dependencies).getD []).findSome?
    fun d => r.faultAt o (d.target.subst x.bindings)

theorem error?_ancestor (s : Service) (x : Ancestor) :
    error? (ancestor r o services s x) = inheritedFault r o services x := by
  simp only [ancestor, inheritedFault]
  split
  · rfl
  · simp only [error?_map, error?_mapM, error?_inheritedCaptives]

theorem error?_serviceLifetimes (s : Service) :
    error? (serviceLifetimes r o services c g s) =
      if s.lifetime = .singleton then
        (c.ancestors s.identity).findSome? (inheritedFault r o services)
      else none := by
  simp only [serviceLifetimes]
  split
  · simp only [error?_map, error?_mapM, error?_ancestor]
  · rfl

theorem error?_resolution :
    error? (resolution r g) = (g.unresolved.filter fun u => u.wrapping.isStrong).findSome?
      fun u => error? (r.resolveUnregistered u.target) := by
  rw [resolution, error?_mapM]
  congr 1
  funext u
  unfold unresolved
  cases r.resolveUnregistered u.target with
  | error fault => rfl
  | ok found => cases found <;> rfl

end Check

namespace Report
open Finding
variable {o : Options} {a : Snapshot} {r : Registry} {res : List Finding}

/-- The fault that ends the analysis of a service in a phase. -/
def raised? (r : Registry) (o : Options) (a : Snapshot) (s : Service) : Phase → Option Fault
  | .graph => s.dependencies.findSome? fun d => r.faultAt o d.target
  | .lifetimes =>
    if o.checkLifetimes ∧ s.lifetime = .singleton then
      (a.catalogue.ancestors s.identity).findSome? (Check.inheritedFault r o a.services)
    else none
  | .collect | .registry | .rules | .cycles | .merge => none

theorem mem_buildFaults {services : List Service} {f : Finding} :
    f ∈ Graph.buildFaults r o services ↔ ∃ s ∈ services, s.isExternal = false ∧
      ∃ fault, Links.ofService r o s = .error fault ∧ f = fault.finding s.identity "graph" := by
  simp only [Graph.buildFaults, List.mem_filterMap, List.mem_filter, Bool.not_eq_true', and_assoc]
  refine exists_congr fun s => and_congr_right fun _ => and_congr_right fun _ => ?_
  cases Links.ofService r o s <;> simp [eq_comm]

/-- The faults among the findings of a phase are those that were raised in it, each recorded for
the service that was analysed. -/
theorem mem_found_internalError {fuel : Nat} {fs : List Fragment}
    (ha : Snapshot.collect fuel fs = some a)
    (hres : Check.resolution r (Graph.build r o a.services) = .ok res) {phase : Phase}
    {f : Finding} :
    (f ∈ found o a r res phase ∧ f.kind = .internalError) ↔
      ∃ s ∈ a.services, s.isExternal = false ∧
        ∃ fault, raised? r o a s phase = some fault ∧
          f = fault.finding s.identity phase.render := by
  have hnone : .internalError ∉ phase.kinds → ¬ (f ∈ found o a r res phase ∧
      f.kind = .internalError) := by
    rintro hk ⟨hf, hkind⟩
    exact hk (hkind ▸ kind_of_found ha hres hf)
  cases phase with
  | graph =>
    simp only [found, mem_buildFaults, raised?, ← Links.error?_ofService, error?_eq_some]
    refine and_iff_left_of_imp ?_
    rintro ⟨s, -, -, fault, -, rfl⟩
    rfl
  | lifetimes =>
    simp only [found, Check.mem_lifetimes, raised?]
    constructor
    · rintro ⟨⟨hcheck, s, hs, hx, ⟨fs, hok, hf⟩ | ⟨fault, herr, rfl⟩⟩, hkind⟩
      · have := Check.isLifetimeKind_of_serviceLifetimes hok hf
        simp [hkind, Kind.isLifetimeKind] at this
      · refine ⟨s, hs, hx, fault, ?_, rfl⟩
        rw [← error?_eq_some, Check.error?_serviceLifetimes] at herr
        simpa [hcheck] using herr
    · rintro ⟨s, hs, hx, fault, hraised, rfl⟩
      have hcheck : o.checkLifetimes = true := by
        by_contra hcheck
        simp [hcheck] at hraised
      refine ⟨⟨hcheck, s, hs, hx, .inr ⟨fault, ?_, rfl⟩⟩, rfl⟩
      rw [← error?_eq_some, Check.error?_serviceLifetimes]
      simpa [hcheck] using hraised
  | collect => simpa [raised?] using hnone (by decide)
  | registry => simpa [raised?] using hnone (by decide)
  | rules => simpa [raised?] using hnone (by decide)
  | cycles => simpa [raised?] using hnone (by decide)
  | merge => simpa [raised?] using hnone (by decide)

/-- A service has a dependency that no service meets and that cannot be left out, and the search
for a plain class that would meet it ends in the fault. -/
def Escapes (r : Registry) (o : Options) (services : List Service) (fault : Fault) : Prop :=
  ∃ s ∈ services, s.isExternal = false ∧ (∀ d ∈ s.dependencies, r.faultAt o d.target = none) ∧
    ∃ d ∈ s.dependencies, o.isSupplied (o.inner d.target) = false ∧
      r.resolve (o.inner d.target) = .ok none ∧ (o.unwrap d.wrapping d.target).2.isStrong ∧
      r.resolveUnregistered (o.inner d.target) = .error fault

theorem escapes_iff {services : List Service} {fault : Fault} :
    Escapes r o services fault ↔
      ∃ u ∈ (Graph.build r o services).unresolved.filter fun u => u.wrapping.isStrong,
        error? (r.resolveUnregistered u.target) = some fault := by
  simp only [Graph.build_eq_ofAll, List.mem_filter, Graph.mem_unresolved_ofAll, error?_eq_some,
    Bool.not_eq_true']
  constructor
  · rintro ⟨s, hs, hx, hnone, d, hd, hsupplied, hresolve, hstrong, herr⟩
    have hok : error? (Links.ofService r o s) = none := by
      rw [Links.error?_ofService]
      exact List.findSome?_eq_none_iff.mpr hnone
    obtain ⟨links, hl⟩ := error?_eq_none.mp hok
    have hu := (Links.mem_unresolved_ofService hl).mpr ⟨d, hd, hsupplied, hresolve, rfl⟩
    exact ⟨_, ⟨⟨s, ⟨hs, hx⟩, links, hl, hu⟩, hstrong⟩, herr⟩
  · rintro ⟨u, ⟨⟨s, ⟨hs, hx⟩, links, hl, hu⟩, hstrong⟩, herr⟩
    obtain ⟨d, hd, hsupplied, hresolve, rfl⟩ := (Links.mem_unresolved_ofService hl).mp hu
    have hnone := error?_eq_none.mpr ⟨links, hl⟩
    rw [Links.error?_ofService] at hnone
    exact ⟨s, hs, hx, List.findSome?_eq_none_iff.mp hnone, d, hd, hsupplied, hresolve, hstrong,
      herr⟩

theorem escapes_of_resolution_error {services : List Service} {fault : Fault}
    (h : Check.resolution r (Graph.build r o services) = .error fault) :
    Escapes r o services fault := by
  rw [← error?_eq_some, Check.error?_resolution] at h
  exact escapes_iff.mpr (List.exists_of_findSome?_eq_some h)

theorem exists_resolution_error {services : List Service} {fault : Fault}
    (h : Escapes r o services fault) :
    ∃ fault', Check.resolution r (Graph.build r o services) = .error fault' := by
  obtain ⟨u, hu, herr⟩ := escapes_iff.mp h
  cases hres : error? (Check.resolution r (Graph.build r o services)) with
  | some fault' => exact ⟨fault', error?_eq_some.mp hres⟩
  | none =>
    rw [Check.error?_resolution] at hres
    rw [List.findSome?_eq_none_iff.mp hres u hu] at herr
    cases herr

/-- Once the contracts of all classes are found, there is no report exactly if a fault of the
fallback comes up in the search for a plain class that would meet an unresolved dependency. In a
report, the faults that are logged are those raised in the analysis of a service, and each is
reported for that service unless faults are not shown. -/
theorem verify_isolates_faults (fuel : Nat) (o : Options) (supplied : Option Fallback)
    (fs : List Fragment) :
    (Snapshot.ContractsFound fuel fs →
      ∃ a r, Snapshot.collect fuel fs = some a ∧
        Registry.build fuel (chooseFallback o supplied) a.services a.catalogue = some r ∧
        ((∃ fault, Escapes r o a.services fault) →
          ∃ fault, Escapes r o a.services fault ∧
            verify fuel o supplied fs = .error (.fault fault)) ∧
        ((¬ ∃ fault, Escapes r o a.services fault) →
          ∃ x, verify fuel o supplied fs = .ok x ∧
            (∀ phase i message, .fault phase i message ∈ x.events ↔
              ∃ s ∈ a.services, s.isExternal = false ∧ s.identity = i ∧
                ∃ fault, raised? r o a s phase = some fault ∧
                  message = s!"Internal error while verifying {i.render}: {fault.message}") ∧
            (∀ i related, (.internalError, i, related) ∈ problems x.findings ↔
              o.reporting ∧ o.isDisabled .internalError = false ∧
                ∃ s ∈ a.services, s.isExternal = false ∧ s.identity = i ∧
                  ∃ phase, (raised? r o a s phase).isSome ∧ related = .text phase.render))) ∧
    (¬ Snapshot.ContractsFound fuel fs → verify fuel o supplied fs = .error .outOfFuel) := by
  refine ⟨fun h => ?_, fun hlost => verify_eq_outOfFuel hlost o supplied⟩
  obtain ⟨a, r, ha, hr, herror, hok⟩ := verify_of_contractsFound h o supplied
  refine ⟨a, r, ha, hr, fun hescapes => ?_, fun hnone => ?_⟩
  · obtain ⟨fault, hfault⟩ := hescapes
    obtain ⟨fault', hres⟩ := exists_resolution_error hfault
    exact ⟨fault', escapes_of_resolution_error hres, herror fault' hres⟩
  · obtain ⟨res, hres⟩ : ∃ res, Check.resolution r (Graph.build r o a.services) = .ok res := by
      cases hres : Check.resolution r (Graph.build r o a.services) with
      | error fault => exact absurd ⟨fault, escapes_of_resolution_error hres⟩ hnone
      | ok res => exact ⟨res, rfl⟩
    refine ⟨_, hok res hres, fun phase i message => ?_, fun i related => ?_⟩
    · rw [mem_events_assemble]
      constructor
      · rintro ⟨f, hf, hk, rfl, rfl⟩
        obtain ⟨s, hs, hx, fault, hraised, rfl⟩ :=
          (mem_found_internalError ha hres).mp ⟨hf, hk⟩
        exact ⟨s, hs, hx, rfl, fault, hraised, rfl⟩
      · rintro ⟨s, hs, hx, rfl, fault, hraised, rfl⟩
        obtain ⟨hf, hk⟩ := (mem_found_internalError ha hres).mpr ⟨s, hs, hx, fault, hraised, rfl⟩
        exact ⟨_, hf, hk, rfl, rfl⟩
    · rw [mem_problems_assemble]
      refine and_congr_right fun _ => and_congr_right fun _ => ?_
      simp only [mem_problems, problem, Prod.mk.injEq]
      constructor
      · rintro ⟨phase, f, hf, hk, rfl, rfl⟩
        obtain ⟨s, hs, hx, fault, hraised, rfl⟩ :=
          (mem_found_internalError ha hres).mp ⟨hf, hk⟩
        exact ⟨s, hs, hx, rfl, phase, by simp [hraised], rfl⟩
      · rintro ⟨s, hs, hx, rfl, phase, hraised, rfl⟩
        obtain ⟨fault, hraised⟩ := Option.isSome_iff_exists.mp hraised
        obtain ⟨hf, hk⟩ := (mem_found_internalError ha hres).mpr ⟨s, hs, hx, fault, hraised, rfl⟩
        exact ⟨phase, _, hf, hk, rfl, rfl⟩

/-- Fails for `IRepo` wherever there are open contracts to guess from. -/
def failsForRepo : Fallback := fun target contracts =>
  if target.headName = "IRepo" ∧ contracts ≠ [] then .error (.described "static fault") else .ok []

/-- A service that asks for an `IRepo`, and a class with a contract of that name in a module. -/
def repoFragments (lifetime : Option Lifetime) : List Fragment :=
  [{ name := "Service", lifetime := some .singleton,
     requests := [{ target := "IRepo<User>", style := .list 0 }] },
   { name := "SqlRepo", params := ["T"], lifetime, contracts := ["Data.IRepo<T>"] }]

/-- Where the class is registered, the fallback fails while the service is analysed. -/
theorem verify_isolates_faults_repo :
    Snapshot.ContractsFound 9 (repoFragments (some .perScope)) ∧
      ∃ x, verify 9 {} (some failsForRepo) (repoFragments (some .perScope)) = .ok x ∧
        .fault .graph ⟨"Service", 0⟩ "Internal error while verifying Service: static fault" ∈
          x.events ∧
        ∃ a r, Snapshot.collect 9 (repoFragments (some .perScope)) = some a ∧
          Registry.build 9 failsForRepo a.services a.catalogue = some r ∧
          ∃ s ∈ a.services, s.identity = ⟨"Service", 0⟩ ∧ (raised? r {} a s .graph).isSome := by
  have hfound : Snapshot.ContractsFound 9 (repoFragments (some .perScope)) := by decide +kernel
  obtain ⟨a, r, ha, hr, hescapes, hnone⟩ :=
    (verify_isolates_faults 9 {} (some failsForRepo) (repoFragments (some .perScope))).1 hfound
  have hevents : (verify 9 {} (some failsForRepo) (repoFragments (some .perScope))).toOption.map
      (fun x => decide (.fault .graph ⟨"Service", 0⟩
        "Internal error while verifying Service: static fault" ∈ x.events)) = some true := by
    decide +kernel
  have hreport : ¬ ∃ fault, Escapes r {} a.services fault := by
    intro h
    obtain ⟨fault, -, herror⟩ := hescapes h
    simp [herror, Except.toOption] at hevents
  obtain ⟨x, hx, hlog, -⟩ := hnone hreport
  simp only [hx, Except.toOption, Option.map_some, Option.some.injEq, decide_eq_true_eq] at hevents
  obtain ⟨s, hs, -, hid, fault, hraised, -⟩ := (hlog _ _ _).mp hevents
  exact ⟨hfound, x, hx, hevents, a, r, ha, hr, s, hs, hid, by simp [hraised]⟩

/-- Where it is not, the same fault comes up among the plain classes and there is no report. -/
theorem verify_repo_aborted :
    Snapshot.ContractsFound 9 (repoFragments none) ∧
      verify 9 {} (some failsForRepo) (repoFragments none) =
        .error (.fault (.described "static fault")) := by
  refine ⟨by decide +kernel, error?_eq_some.mp ?_⟩
  decide +kernel

end Report

end Injection
