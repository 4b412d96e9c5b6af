import Injection.Proofs.ReportOrder

/-! What each phase of a verification contributes to the report. The kinds of findings tell the
phases apart, except for faults, which two of them report. -/
namespace Injection

/-- The kinds of problems that a phase can find. -/
def Phase.kinds : Phase → List Kind
  | collect => [.malformedSignature]
  | registry | merge => []
  | graph => [.internalError]
  | rules =>
    [.noImplementation, .implementationUnregistered, .duplicateDependency, .conflictingStyles,
     .duplicateWithinList, .unnecessaryExclusion, .conditionalEmpty, .conditionalConflicting,
     .conditionalMalformedConfig]
  | cycles => [.circularDependency]
  | lifetimes =>
    [.singletonOnScoped, .singletonOnTransient, .backgroundLifetime, .inheritedLifetime,
     .internalError]

/-- Only faults are found in more than one phase. -/
theorem Phase.eq_of_mem_kinds {k : Kind} (hk : k ≠ .internalError) {p q : Phase}
    (hp : k ∈ p.kinds) (hq : k ∈ q.kinds) : p = q := by
  have hall : ∀ p ∈ [collect, registry, graph, rules, cycles, lifetimes, merge],
      ∀ q ∈ [collect, registry, graph, rules, cycles, lifetimes, merge],
        ∀ k ∈ p.kinds, k ∈ q.kinds → k = .internalError ∨ p = q := by
    decide
  have hlisted : ∀ p : Phase, p ∈ [collect, registry, graph, rules, cycles, lifetimes, merge] := by
    intro p
    cases p <;> simp
  exact (hall p (hlisted p) q (hlisted q) k hp hq).resolve_left hk

/-- The kinds of problems that a declaration can have on its own. -/
def Kind.ofDeclarations : List Kind :=
  [.duplicateDependency, .conflictingStyles, .duplicateWithinList, .unnecessaryExclusion,
   .conditionalEmpty, .conditionalConflicting, .conditionalMalformedConfig]

/-- Nothing was found for a dependency, among the services at least. -/
def Kind.IsMissing (k : Kind) : Prop := k = .noImplementation ∨ k = .implementationUnregistered

theorem Kind.not_isMissing_ofDeclarations {k : Kind} (h : k ∈ ofDeclarations) : ¬ k.IsMissing := by
  rintro (rfl | rfl) <;> simp [ofDeclarations] at h

section Kinds
variable {r : Registry} {o : Options} {g : Graph} {services : List Service} {c : Catalogue}
  {s : Service} {f : Finding}

theorem Parts.kind_of_malformed {p : Parts} {text : String} {location : Option Location}
    (h : p.malformed? text location = some f) : f.kind = .malformedSignature := by
  unfold malformed? at h
  split at h
  · cases h
  · cases h
    rfl

theorem Snapshot.kind_of_collect {fuel : Nat} {fs : List Fragment} {a : Snapshot}
    (h : collect fuel fs = some a) (hf : f ∈ a.findings) : f.kind ∈ Phase.collect.kinds := by
  rw [collect_eq] at h
  obtain ⟨_, -, rfl⟩ := Option.map_eq_some_iff.mp h
  have hkind : f.kind = .malformedSignature := by
    simp only [Parts.entryFindings, Parts.serviceFindings, List.mem_append, List.mem_flatMap,
      List.mem_filterMap] at hf
    rcases hf with ⟨_, -, _, -, hm⟩ | ⟨_, -, ⟨_, -, hm⟩ | ⟨_, -, hm⟩⟩
    all_goals exact Parts.kind_of_malformed hm
  simp [hkind, Phase.kinds]

theorem Graph.kind_of_buildFaults (hf : f ∈ buildFaults r o services) :
    f.kind ∈ Phase.graph.kinds := by
  obtain ⟨s, -, hs⟩ := List.mem_filterMap.mp hf
  split at hs
  · cases hs
  · cases hs
    exact List.mem_singleton.mpr rfl

namespace Check

theorem problem_of_unresolved {u : Unresolved} (h : unresolved r u = .ok f) :
    ∃ k : Kind, k.IsMissing ∧ f.problem = (k, u.consumer, .contract u.target) := by
  unfold unresolved at h
  split at h
  · cases h
  · cases h
    exact ⟨.noImplementation, .inl rfl, rfl⟩
  · cases h
    exact ⟨.implementationUnregistered, .inr rfl, rfl⟩

theorem isMissing_of_resolution {found : List Finding} (h : resolution r g = .ok found)
    (hf : f ∈ found) : f.kind.IsMissing := by
  obtain ⟨u, -, hu⟩ := exists_of_forall₂_right (mapM_eq_ok_iff.mp h) hf
  obtain ⟨k, hk, hp⟩ := problem_of_unresolved hu
  rwa [show f.kind = k from congrArg Prod.fst hp]

/-- What is reported as missing are the unresolved dependencies that cannot be left empty. -/
theorem exists_missing_iff {found : List Finding} (h : resolution r g = .ok found) {i : Identity}
    {t : Signature} :
    (∃ k : Kind, k.IsMissing ∧ (k, i, .contract t) ∈ Finding.problems found) ↔
      ∃ u ∈ g.unresolved, u.wrapping.isStrong ∧ u.consumer = i ∧ u.target = t := by
  have hall := mapM_eq_ok_iff.mp h
  constructor
  · rintro ⟨k, -, hmem⟩
    obtain ⟨f, hf, hp⟩ := Finding.mem_problems.mp hmem
    obtain ⟨u, hu, hok⟩ := exists_of_forall₂_right hall hf
    obtain ⟨hu, hstrong⟩ := List.mem_filter.mp hu
    obtain ⟨k', -, hp'⟩ := problem_of_unresolved hok
    simp only [hp, Prod.mk.injEq, Related.contract.injEq] at hp'
    exact ⟨u, hu, hstrong, hp'.2.1.symm, hp'.2.2.symm⟩
  · rintro ⟨u, hu, hstrong, rfl, rfl⟩
    obtain ⟨f, hf, hok⟩ := exists_of_forall₂_left hall (List.mem_filter.mpr ⟨hu, hstrong⟩)
    obtain ⟨k, hk, hp⟩ := problem_of_unresolved hok
    exact ⟨k, hk, Finding.mem_problems.mpr ⟨f, hf, hp⟩⟩

theorem kind_of_usage {u : Usage} (hf : f ∈ u.findings s) : f.kind ∈ Kind.ofDeclarations := by
  simp only [Usage.findings, List.mem_append, List.mem_ite_nil_right, List.mem_singleton] at hf
  rcases hf with (⟨-, rfl⟩ | ⟨-, rfl⟩) | ⟨-, rfl⟩
  all_goals simp [Finding.report, Kind.ofDeclarations]

theorem kind_of_condition {x : Condition} (hf : f ∈ condition s x) :
    f.kind ∈ Kind.ofDeclarations := by
  simp only [condition, List.mem_append, List.mem_map] at hf
  rcases hf with (⟨_, -, rfl⟩ | ⟨_, -, rfl⟩) | ⟨_, -, rfl⟩
  all_goals simp [Finding.report, Kind.ofDeclarations]

theorem kind_of_declarations (hf : f ∈ declarations services) : f.kind ∈ Kind.ofDeclarations := by
  obtain ⟨s, -, hf⟩ := List.mem_flatMap.mp hf
  simp only [declaration, duplicates, exclusions, conditions, List.mem_append, List.mem_flatMap,
    List.mem_map, List.mem_ite_nil_right, List.mem_singleton] at hf
  rcases hf with (⟨u, -, hu⟩ | ⟨x, -, rfl⟩) | ⟨-, rfl⟩ | ⟨x, -, hx⟩
  · exact kind_of_usage hu
  · simp [Finding.report, Kind.ofDeclarations]
  · simp [Finding.report, Kind.ofDeclarations]
  · exact kind_of_condition hx

theorem kind_of_cycles (hf : f ∈ cycles g) : f.kind ∈ Phase.cycles.kinds := by
  obtain ⟨path, -, hf⟩ := List.mem_flatMap.mp hf
  cases path with
  | nil => simp [cycle] at hf
  | cons first rest =>
    rw [cycle, List.mem_singleton] at hf
    simp [hf, Finding.report, Phase.kinds]

theorem kind_of_inheritedLifetime {i : Identity} (hf : f ∈ inheritedLifetime r s i) :
    f.kind = .inheritedLifetime := by
  unfold inheritedLifetime at hf
  split at hf
  · simp only [List.mem_ite_nil_left, List.mem_singleton] at hf
    rw [hf.2]
    rfl
  · simp at hf

theorem kind_of_background (hf : f ∈ background s) : f.kind = .backgroundLifetime := by
  simp only [background, List.mem_ite_nil_right, List.mem_singleton] at hf
  rw [hf.2]
  rfl

/-- How the check of lifetimes comes to a finding about a service. -/
inductive LifetimeCause (r : Registry) (o : Options) (services : List Service) (c : Catalogue)
    (g : Graph) (s : Service) (f : Finding) : Prop where
  | background (found : f ∈ background s)
  | own {e : Edge} (counted : e ∈ countedEdges [] (g.edgesFrom s.identity))
      (captive : captive r s e.provider e.location false = some f)
  | base {x : Ancestor} (ancestor : x ∈ c.ancestors s.identity)
      (internal : r.isExternal x.entry.identity = false)
      (found : f ∈ inheritedLifetime r s x.entry.identity)
  | inherited {x : Ancestor} {d : Dependency} {candidates : List Identity} {i : Identity}
      (ancestor : x ∈ c.ancestors s.identity) (internal : r.isExternal x.entry.identity = false)
      (handedDown : d ∈ ((serviceAt? services x.entry.identity).map Service.dependencies).getD [])
      (resolved : inheritedCandidates r o x.bindings d = .ok candidates)
      (candidate : i ∈ candidates) (captive : captive r s i d.location true = some f)

theorem cause_of_serviceLifetimes {found : List Finding}
    (h : serviceLifetimes r o services c g s = .ok found) (hf : f ∈ found) :
    LifetimeCause r o services c g s f := by
  unfold serviceLifetimes at h
  split at h
  · obtain ⟨inherited, hi, rfl⟩ := except_map_eq_ok.mp h
    simp only [List.mem_append, List.mem_flatten] at hf
    rcases hf with (hf | hf) | ⟨fs, hfs, hf⟩
    · exact .background hf
    · obtain ⟨e, he, hf⟩ := List.mem_filterMap.mp hf
      exact .own he hf
    · obtain ⟨x, hx, hfound⟩ := exists_of_forall₂_right (mapM_eq_ok_iff.mp hi) hfs
      unfold ancestor at hfound
      dsimp only at hfound
      split at hfound
      · cases hfound
        simp at hf
      next hinternal =>
        have hinternal : r.isExternal x.entry.identity = false := by simpa using hinternal
        obtain ⟨captives, hc, rfl⟩ := except_map_eq_ok.mp hfound
        rcases List.mem_append.mp hf with hf | hf
        · exact .base hx hinternal hf
        · obtain ⟨fs, hfs, hf⟩ := List.mem_flatten.mp hf
          obtain ⟨d, hd, hdown⟩ := exists_of_forall₂_right (mapM_eq_ok_iff.mp hc) hfs
          obtain ⟨candidates, hcandidates, rfl⟩ := except_map_eq_ok.mp hdown
          obtain ⟨i, hi, hf⟩ := List.mem_filterMap.mp hf
          exact .inherited hx hinternal hd hcandidates hi hf
  · cases h
    exact .background hf

theorem isLifetimeKind_of_serviceLifetimes {found : List Finding}
    (h : serviceLifetimes r o services c g s = .ok found) (hf : f ∈ found) :
    f.kind.isLifetimeKind := by
  have hcapture : f.kind.IsCapture → f.kind.isLifetimeKind := by
    rintro (hk | hk) <;> rw [hk, Kind.isLifetimeKind]
  cases cause_of_serviceLifetimes h hf with
  | background hf => rw [kind_of_background hf, Kind.isLifetimeKind]
  | own _ hf => exact hcapture (isCapture_captive hf)
  | base _ _ hf => rw [kind_of_inheritedLifetime hf, Kind.isLifetimeKind]
  | inherited _ _ _ _ _ hf => exact hcapture (isCapture_captive hf)

theorem mem_lifetimes :
    f ∈ lifetimes r o services c g ↔ o.checkLifetimes ∧ ∃ s ∈ services, s.isExternal = false ∧
      ((∃ found, serviceLifetimes r o services c g s = .ok found ∧ f ∈ found) ∨
        ∃ fault, serviceLifetimes r o services c g s = .error fault ∧
          f = fault.finding s.identity "lifetimes") := by
  simp only [lifetimes, List.mem_ite_nil_right, List.mem_flatMap, List.mem_filter,
    Bool.not_eq_true', and_assoc]
  refine and_congr_right fun _ => exists_congr fun s => ?_
  refine and_congr_right fun _ => and_congr_right fun _ => ?_
  cases serviceLifetimes r o services c g s <;> simp

theorem kind_of_lifetimes (hf : f ∈ lifetimes r o services c g) :
    f.kind ∈ Phase.lifetimes.kinds := by
  obtain ⟨-, s, -, -, ⟨found, hs, hf⟩ | ⟨fault, -, rfl⟩⟩ := mem_lifetimes.mp hf
  · have hkind := isLifetimeKind_of_serviceLifetimes hs hf
    revert hkind
    cases f.kind <;> decide
  · simp [Fault.finding, Finding.report, Phase.kinds]

end Check

end Kinds

namespace Report
open Finding
variable {o : Options} {a : Snapshot} {r : Registry} {res : List Finding}

/-- The findings of a phase, given those on unresolved dependencies. -/
def found (o : Options) (a : Snapshot) (r : Registry) (res : List Finding) :
    Phase → List Finding
  | .collect => a.findings
  | .registry | .merge => []
  | .graph => Graph.buildFaults r o a.services
  | .rules => res ++ Check.declarations a.services
  | .cycles => Check.cycles (Graph.build r o a.services)
  | .lifetimes => Check.lifetimes r o a.services a.catalogue (Graph.build r o a.services)

/-- Reading the declarations found malformed signatures and nothing else. -/
def OnlyMalformed (a : Snapshot) : Prop := ∀ f ∈ a.findings, f.kind ∈ Phase.collect.kinds

theorem kind_of_phase (ha : OnlyMalformed a)
    (hres : Check.resolution r (Graph.build r o a.services) = .ok res) {phase : Phase}
    {f : Finding} (hf : f ∈ found o a r res phase) : f.kind ∈ phase.kinds := by
  cases phase with
  | collect => exact ha f hf
  | registry => simp [found] at hf
  | graph => exact Graph.kind_of_buildFaults hf
  | rules =>
    rcases List.mem_append.mp hf with hf | hf
    · rcases Check.isMissing_of_resolution hres hf with hk | hk
      all_goals simp [hk, Phase.kinds]
    · exact (by decide : Kind.ofDeclarations ⊆ Phase.rules.kinds) (Check.kind_of_declarations hf)
  | cycles => exact Check.kind_of_cycles hf
  | lifetimes => exact Check.kind_of_lifetimes hf
  | merge => simp [found] at hf

theorem kind_of_found {fuel : Nat} {fs : List Fragment} (ha : Snapshot.collect fuel fs = some a)
    (hres : Check.resolution r (Graph.build r o a.services) = .ok res) {phase : Phase}
    {f : Finding} (hf : f ∈ found o a r res phase) : f.kind ∈ phase.kinds :=
  kind_of_phase (fun _ => Snapshot.kind_of_collect ha) hres hf

theorem mem_problems_assemble {p : Kind × Identity × Related} :
    p ∈ problems (assemble o a r res).findings ↔
      o.reporting ∧ o.isDisabled p.1 = false ∧ ∃ phase, p ∈ problems (found o a r res phase) := by
  simp only [assemble, mem_problems_merge]
  refine and_congr_right fun _ => and_congr_right fun _ => ?_
  simp only [List.flatten_cons, List.flatten_nil, List.append_nil, problems_append,
    List.mem_append]
  constructor
  · rintro (h | h | h | h | h)
    · exact ⟨.collect, h⟩
    · exact ⟨.graph, h⟩
    · exact ⟨.rules, by simpa [found] using h⟩
    · exact ⟨.cycles, h⟩
    · exact ⟨.lifetimes, h⟩
  · rintro ⟨phase, h⟩
    cases phase <;> simp_all [found]

/-- Problems of a kind that only one phase can find are reported as that phase found them. -/
theorem mem_problems_of_phase (ha : OnlyMalformed a)
    (hres : Check.resolution r (Graph.build r o a.services) = .ok res) {phase : Phase}
    {p : Kind × Identity × Related}
    (honly : ∀ phase' : Phase, p.1 ∈ phase'.kinds → phase' = phase) :
    p ∈ problems (assemble o a r res).findings ↔
      o.reporting ∧ o.isDisabled p.1 = false ∧ p ∈ problems (found o a r res phase) := by
  rw [mem_problems_assemble]
  refine and_congr_right fun _ => and_congr_right fun _ => ?_
  constructor
  · rintro ⟨phase', hmem⟩
    obtain ⟨f, hf, rfl⟩ := mem_problems.mp hmem
    rw [honly phase' (kind_of_phase ha hres hf)] at hmem
    exact hmem
  · intro hmem
    exact ⟨phase, hmem⟩

theorem mem_problems_enabled (ha : OnlyMalformed a)
    (hres : Check.resolution r (Graph.build r o a.services) = .ok res)
    (hreporting : o.reporting = true) {k : Kind} (henabled : o.isDisabled k = false) {phase : Phase}
    (honly : ∀ phase' : Phase, k ∈ phase'.kinds → phase' = phase) {i : Identity}
    {related : Related} :
    (k, i, related) ∈ problems (assemble o a r res).findings ↔
      (k, i, related) ∈ problems (found o a r res phase) := by
  rw [mem_problems_of_phase ha hres honly]
  simp only [hreporting, henabled, true_and]

theorem mem_problems_missing (ha : OnlyMalformed a)
    (hres : Check.resolution r (Graph.build r o a.services) = .ok res) {k : Kind}
    (hk : k.IsMissing) {i : Identity} {related : Related} :
    (k, i, related) ∈ problems (assemble o a r res).findings ↔
      o.reporting ∧ o.isDisabled k = false ∧ (k, i, related) ∈ problems res := by
  have honly : ∀ phase : Phase, k ∈ phase.kinds → phase = .rules := by
    intro phase hphase
    rcases hk with rfl | rfl <;> exact Phase.eq_of_mem_kinds (by decide) hphase (by decide)
  have hdeclared : (k, i, related) ∉ problems (Check.declarations a.services) := by
    intro hmem
    obtain ⟨f, hf, hp⟩ := mem_problems.mp hmem
    rw [show k = f.kind from (congrArg Prod.fst hp).symm] at hk
    exact Kind.not_isMissing_ofDeclarations (Check.kind_of_declarations hf) hk
  rw [mem_problems_of_phase ha hres honly, found, problems_append, List.mem_append,
    or_iff_left hdeclared]

theorem mem_problems_declared (ha : OnlyMalformed a)
    (hres : Check.resolution r (Graph.build r o a.services) = .ok res) {k : Kind}
    (hk : k ∈ Kind.ofDeclarations) {i : Identity} {related : Related} :
    (k, i, related) ∈ problems (assemble o a r res).findings ↔
      o.reporting ∧ o.isDisabled k = false ∧
        (k, i, related) ∈ problems (Check.declarations a.services) := by
  have honly : ∀ phase : Phase, k ∈ phase.kinds → phase = .rules := by
    have hrules : ∀ k ∈ Kind.ofDeclarations, k ≠ .internalError ∧ k ∈ Phase.rules.kinds := by
      decide
    obtain ⟨hne, hmem⟩ := hrules k hk
    exact fun phase hphase => Phase.eq_of_mem_kinds hne hphase hmem
  have hresolved : (k, i, related) ∉ problems res := by
    intro hmem
    obtain ⟨f, hf, hp⟩ := mem_problems.mp hmem
    rw [show k = f.kind from (congrArg Prod.fst hp).symm] at hk
    exact Kind.not_isMissing_ofDeclarations hk (Check.isMissing_of_resolution hres hf)
  rw [mem_problems_of_phase ha hres honly, found, problems_append, List.mem_append,
    or_iff_right hresolved]

theorem mem_events_ofPhase {phase phase' : Phase} {i : Identity} {message : String}
    {fs : List Finding} :
    .fault phase i message ∈ Event.ofPhase phase' fs ↔
      phase = phase' ∧ ∃ f ∈ fs, f.kind = .internalError ∧ f.subject = i ∧ f.message = message := by
  simp only [Event.ofPhase, List.mem_append, List.mem_cons, List.mem_map, List.mem_filter,
    List.not_mem_nil, or_false, reduceCtorEq, false_or, decide_eq_true_eq, Event.fault.injEq]
  constructor
  · rintro ⟨f, ⟨hf, hk⟩, rfl, hi, hm⟩
    exact ⟨rfl, f, hf, hk, hi, hm⟩
  · rintro ⟨rfl, f, hf, hk, hi, hm⟩
    exact ⟨f, ⟨hf, hk⟩, rfl, hi, hm⟩

/-- The log tells of all faults, whatever is shown. -/
theorem mem_events_assemble {phase : Phase} {i : Identity} {message : String} :
    .fault phase i message ∈ (assemble o a r res).events ↔
      ∃ f ∈ found o a r res phase,
        f.kind = .internalError ∧ f.subject = i ∧ f.message = message := by
  simp only [assemble, List.mem_append, mem_events_ofPhase]
  cases phase <;> simp [found]

theorem ofSnapshot_cases {fuel : Nat} {supplied : Option Fallback} {x : Report}
    (h : ofSnapshot fuel o supplied a = .ok x) :
    ∃ r res, Registry.build fuel (chooseFallback o supplied) a.services a.catalogue = some r ∧
      Check.resolution r (Graph.build r o a.services) = .ok res ∧ x = assemble o a r res := by
  unfold ofSnapshot at h
  split at h
  · cases h
  next r hr =>
    split at h
    · cases h
    next res hres =>
      cases h
      exact ⟨r, res, hr, hres, rfl⟩

theorem verify_cases {fuel : Nat} {supplied : Option Fallback} {fs : List Fragment} {x : Report}
    (h : verify fuel o supplied fs = .ok x) :
    ∃ a r res, Snapshot.collect fuel fs = some a ∧
      Registry.build fuel (chooseFallback o supplied) a.services a.catalogue = some r ∧
      Check.resolution r (Graph.build r o a.services) = .ok res ∧ x = assemble o a r res := by
  unfold verify at h
  split at h
  next a ha => exact ⟨a, (ofSnapshot_cases h).imp fun r => Exists.imp fun res => And.intro ha⟩
  · cases h

theorem verify_of_mem_toOption {fuel : Nat} {o : Options} {supplied : Option Fallback}
    {fs : List Fragment} {x : Report} (h : x ∈ (verify fuel o supplied fs).toOption) :
    verify fuel o supplied fs = .ok x :=
  eq_ok_of_toOption h

/-- As soon as the contracts of all classes are found, there is a report, or the fallback fails for
an unresolved dependency. -/
theorem verify_of_contractsFound {fuel : Nat} {fs : List Fragment}
    (h : Snapshot.ContractsFound fuel fs) (o : Options) (supplied : Option Fallback) :
    ∃ a r, Snapshot.collect fuel fs = some a ∧
      Registry.build fuel (chooseFallback o supplied) a.services a.catalogue = some r ∧
      (∀ fault, Check.resolution r (Graph.build r o a.services) = .error fault →
        verify fuel o supplied fs = .error (.fault fault)) ∧
      ∀ res, Check.resolution r (Graph.build r o a.services) = .ok res →
        verify fuel o supplied fs = .ok (assemble o a r res) := by
  rw [contractsFound_iff] at h
  obtain ⟨a, ha⟩ := Option.isSome_iff_exists.mp h.1
  obtain ⟨plain, hplain⟩ := Option.isSome_iff_exists.mp h.2
  rw [← Snapshot.catalogue_of_collect ha] at hplain
  obtain ⟨r, hr⟩ := Registry.exists_build hplain (chooseFallback o supplied) a.services
  refine ⟨a, r, ha, hr, fun fault hfault => ?_, fun res hres => ?_⟩
  · simp only [verify, ha, ofSnapshot, hr, hfault]
  · simp only [verify, ha, ofSnapshot, hr, hres]

end Report

end Injection
