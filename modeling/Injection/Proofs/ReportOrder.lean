import Injection.Proofs.GraphOrder
import Injection.Proofs.Problems

/-! The problems that are reported do not depend on the order in which types are declared. Captured
dependencies are an exception as long as candidates are guessed, since of these only the first
counts. -/
namespace Injection

/-- A captured dependency of shorter life. -/
def Kind.IsCapture (k : Kind) : Prop := k = .singletonOnScoped ∨ k = .singletonOnTransient

namespace Check
variable {q : Kind → Prop} {r r' : Registry} {o : Options} {a a' : Snapshot} {g g' : Graph}

theorem same_declarations {services services' : List Service}
    (h : Matched Service.Alike services services') :
    SameProblems q (declarations services) (declarations services') := by
  refine .flatMap h ?_
  rintro s _ ⟨order, rfl⟩
  exact .refl _

theorem same_cycles (h : g.Alike g') : SameProblems q (cycles g) (cycles g') := by
  rw [cycles, cycles, h.cycles_eq]
  refine .flatMap (.refl _) ?_
  rintro c _ rfl
  cases c with
  | nil => exact .refl _
  | cons first rest => exact fun p _ => Iff.rfl

theorem same_unresolved (h : r.Alike r') (u : Unresolved) :
    BothOk (fun f f' => f.problem = f'.problem) (unresolved r u) (unresolved r' u) := by
  obtain ⟨m, m', hm, hm', hmatch⟩ := h.resolveUnregistered u.target
  rw [unresolved, unresolved, hm, hm']
  cases hmatch with
  | none => exact ⟨_, _, rfl, rfl, rfl⟩
  | some hc => exact ⟨_, _, rfl, rfl, rfl⟩

theorem matched_resolution (h : r.Alike r') (hg : g.Alike g') :
    BothOk (Matched fun f f' => f.problem = f'.problem) (resolution r g) (resolution r' g') := by
  refine (hg.unresolved.filter ?_).mapM_except ?_
  · rintro u _ rfl
    rfl
  · rintro u _ rfl
    exact same_unresolved h u

/-! ## Lifetimes -/

theorem captive_congr (h : r.Alike r') (s : Service) (order : Nat) (c : Identity)
    (location : Option Location) (inherited : Bool) :
    captive r s c location inherited = captive r' { s with order } c location inherited := by
  unfold captive
  rw [h.lifetime?]

theorem problem_of_captive {s : Service} {i : Identity} {location : Option Location}
    {inherited : Bool} {f : Finding} (h : captive r s i location inherited = some f) :
    ∃ k : Kind, k.IsCapture ∧ f.problem = (k, s.identity, .identity i) := by
  unfold captive at h
  dsimp only at h
  split at h
  · cases h
    exact ⟨.singletonOnScoped, .inl rfl, rfl⟩
  · split at h
    · cases h
    · cases h
      exact ⟨.singletonOnTransient, .inr rfl, rfl⟩
  · cases h
  · cases h

theorem isCapture_captive {s : Service} {c : Identity} {location : Option Location}
    {inherited : Bool} {f : Finding} (h : captive r s c location inherited = some f) :
    f.kind.IsCapture := by
  obtain ⟨k, hk, hp⟩ := problem_of_captive h
  rwa [show f.kind = k from congrArg Prod.fst hp]

theorem countedEdges_eq_self {es : List Edge} (h : ∀ e ∈ es, e.stage ≠ .fallback)
    (guessed : List Signature) : countedEdges guessed es = es := by
  induction es with
  | nil => rfl
  | cons e es ih =>
    obtain ⟨he, hes⟩ := List.forall_mem_cons.mp h
    rw [countedEdges, if_neg he, ih hes]

theorem same_captives {α : Type} {xs ys : List α} (h : r.Alike r')
    (hxs : (∀ k : Kind, k.IsCapture → ¬ q k) ∨ Matched Eq xs ys) (s : Service) (order : Nat)
    (provider : α → Identity) (location : α → Option Location) (inherited : Bool) :
    SameProblems q (xs.filterMap fun x => captive r s (provider x) (location x) inherited)
      (ys.filterMap fun x =>
        captive r' { s with order } (provider x) (location x) inherited) := by
  rcases hxs with hq | hxs
  · refine .of_forall_not (fun f hf => ?_) fun f hf => ?_
    all_goals
      obtain ⟨x, -, hx⟩ := List.mem_filterMap.mp hf
      exact hq _ (isCapture_captive hx)
  · refine .of_matched (hxs.filterMap ?_)
    rintro x _ rfl
    rw [captive_congr h s order]
    cases captive r' { s with order } (provider x) (location x) inherited with
    | none => exact .none
    | some f => exact .some rfl

/-- Captured dependencies are not looked at, or no candidate is guessed. -/
def Unguessed (q : Kind → Prop) (r : Registry) (g : Graph) : Prop :=
  (∀ k : Kind, k.IsCapture → ¬ q k) ∨ r.Certain ∧ ∀ i, ∀ e ∈ g.edgesFrom i, e.stage ≠ .fallback

theorem same_ownCaptives (h : r.Alike r') (hg : g.Alike g') (hq : Unguessed q r g) (s : Service)
    (order : Nat) : SameProblems q (ownCaptives r g s) (ownCaptives r' g' { s with order }) := by
  refine same_captives h (hq.imp_right fun hcertain => ?_) s order Edge.provider Edge.location false
  have hedges := hg.edgesFrom s.identity
  have hcertain' : ∀ e ∈ g'.edgesFrom s.identity, e.stage ≠ .fallback := fun e he =>
    hcertain.2 s.identity e ((Matched.eq_iff.mp hedges e).mpr he)
  rw [countedEdges_eq_self (hcertain.2 s.identity), countedEdges_eq_self hcertain']
  exact hedges

theorem same_inheritedCandidates (h : r.Alike r') (hq : Unguessed q r g) (σ : Signature.Bindings)
    (d : Dependency) :
    BothOk (fun cs cs' => (∀ k : Kind, k.IsCapture → ¬ q k) ∨ Matched Eq cs cs')
      (inheritedCandidates r o σ d) (inheritedCandidates r' o σ d) := by
  obtain ⟨m, m', hm, hm', hmatch⟩ := h.resolve (o.unwrap d.wrapping (d.target.subst σ)).1
  unfold inheritedCandidates
  dsimp only
  split
  · exact ⟨_, _, rfl, rfl, .inr (.refl _)⟩
  rw [hm, hm']
  cases hmatch with
  | none => exact ⟨_, _, rfl, rfl, .inr (.refl _)⟩
  | some hc =>
    refine ⟨_, _, rfl, rfl, hq.imp_right fun hcertain => ?_⟩
    -- Only guessed candidates are cut down to the first one.
    have hstage := hcertain.1 _ _ hm
    rw [if_neg hstage, if_neg (hc.stage ▸ hstage)]
    refine hc.candidates.filter ?_
    rintro c _ rfl
    rw [h.isExternal]

theorem same_inheritedCaptives (h : r.Alike r') (hq : Unguessed q r g) (s : Service) (order : Nat)
    (σ : Signature.Bindings) (d : Dependency) :
    BothOk (SameProblems q) (inheritedCaptives r o s σ d)
      (inheritedCaptives r' o { s with order } σ d) :=
  (same_inheritedCandidates h hq σ d).map fun _ _ hcs =>
    same_captives h hcs s order id (fun _ => d.location) true

theorem same_inheritedLifetime (h : r.Alike r') (s : Service) (order : Nat) (i : Identity) :
    SameProblems q (inheritedLifetime r s i) (inheritedLifetime r' { s with order } i) := by
  unfold inheritedLifetime
  rw [h.lifetime?]
  exact .refl _

theorem same_ancestor (h : r.Alike r') (hq : Unguessed q r g) (ha : a.Alike a') (s : Service)
    (order : Nat) {x x' : Ancestor} (hx : x.Alike x') :
    BothOk (SameProblems q) (ancestor r o a.services s x)
      (ancestor r' o a'.services { s with order } x') := by
  have hid : x'.entry.identity = x.entry.identity := by
    obtain ⟨k, hk⟩ := hx.entry
    rw [hk]
  have hdeps : ((serviceAt? a.services x.entry.identity).map Service.dependencies).getD [] =
      ((serviceAt? a'.services x.entry.identity).map Service.dependencies).getD [] := by
    refine congrArg (Option.getD · []) (map_eq_of_rel
      (Registry.rel_find?_reverse ha.services ha.nodup' x.entry.identity) ?_)
    rintro t _ ⟨k, rfl⟩
    rfl
  unfold ancestor
  dsimp only
  rw [hid, ← h.isExternal, ← hdeps, ← hx.bindings]
  split
  · exact ⟨_, _, rfl, rfl, .refl _⟩
  · refine BothOk.map (S := Matched (SameProblems q)) ?_ fun captives captives' hm =>
      (same_inheritedLifetime h s order x.entry.identity).append (.flatten hm)
    refine (Matched.refl _).mapM_except ?_
    rintro d _ rfl
    exact same_inheritedCaptives h hq s order x.bindings d

theorem same_serviceLifetimes (h : r.Alike r') (hg : g.Alike g') (hq : Unguessed q r g)
    (ha : a.Alike a') (s : Service) (order : Nat) :
    BothOk (SameProblems q) (serviceLifetimes r o a.services a.catalogue g s)
      (serviceLifetimes r' o a'.services a'.catalogue g' { s with order }) := by
  unfold serviceLifetimes
  dsimp only
  split
  · refine BothOk.map (S := Matched (SameProblems q)) ?_ fun inherited inherited' hm =>
      (SameProblems.append (.refl _) (same_ownCaptives h hg hq s order)).append (.flatten hm)
    refine (Matched.of_forall₂ (ha.catalogue.ancestors s.identity)).mapM_except fun x x' hx => ?_
    exact same_ancestor h hq ha s order hx
  · exact ⟨_, _, rfl, rfl, .refl _⟩

theorem same_lifetimes (h : r.Alike r') (hg : g.Alike g') (hq : Unguessed q r g)
    (ha : a.Alike a') :
    SameProblems q (lifetimes r o a.services a.catalogue g)
      (lifetimes r' o a'.services a'.catalogue g') := by
  unfold lifetimes
  split
  · refine .flatMap (matched_internal ha.services) ?_
    rintro s _ ⟨order, rfl⟩
    obtain ⟨fs, fs', hfs, hfs', hsame⟩ := same_serviceLifetimes h hg hq ha s order
    rw [hfs, hfs']
    exact hsame
  · exact .refl _

end Check

namespace Graph
variable {r : Registry} {o : Options}

theorem buildFaults_eq_nil (h : ∀ s, ∃ links, Links.ofService r o s = .ok links)
    (services : List Service) : buildFaults r o services = [] := by
  refine List.filterMap_eq_nil_iff.mpr fun s _ => ?_
  obtain ⟨links, hl⟩ := h s
  rw [hl]

theorem stage_ne_fallback (h : r.Certain) {services : List Service}
    (hd : (services.map Service.identity).Nodup) {i : Identity} {e : Edge}
    (he : e ∈ (build r o services).edgesFrom i) : e.stage ≠ .fallback := by
  rw [build_eq_ofAll, mem_edgesFrom_ofAll (hd.sublist (List.filter_sublist.map _))] at he
  obtain ⟨s, -, -, links, hl, he⟩ := he
  obtain ⟨d, -, -, found, hf, c, -, -, rfl⟩ := (Links.mem_edges_ofService hl).mp he
  exact h _ _ hf

end Graph

namespace Report
open Finding

theorem same_assemble {q : Kind → Prop} {r r' : Registry} (h : r.Alike r') {a a' : Snapshot}
    (ha : a.Alike a') (o : Options) (hq : Check.Unguessed q r (Graph.build r o a.services))
    {res res' : List Finding} (hres : SameProblems q res res') :
    SameProblems q (assemble o a r res).findings (assemble o a' r' res').findings := by
  have hg := Graph.alike_build h o ha
  have hlinks : ∀ s, BothOk Links.Alike (Links.ofService r o s) (Links.ofService r' o s) :=
    fun s => Links.alike_ofService h ⟨s.order, rfl⟩
  have hfaults : Graph.buildFaults r o a.services = [] := by
    refine Graph.buildFaults_eq_nil (fun s => ?_) _
    obtain ⟨l, -, hl, -⟩ := hlinks s
    exact ⟨l, hl⟩
  have hfaults' : Graph.buildFaults r' o a'.services = [] := by
    refine Graph.buildFaults_eq_nil (fun s => ?_) _
    obtain ⟨-, l, -, hl, -⟩ := hlinks s
    exact ⟨l, hl⟩
  have hcollect : SameProblems q a.findings a'.findings := by
    intro p _
    simp only [mem_problems, Matched.eq_iff.mp ha.findings]
  have hrules := hres.append (Check.same_declarations ha.services)
  refine SameProblems.merge (.flatten (.of_forall₂ ?_)) o _ _
  rw [hfaults, hfaults']
  exact .cons hcollect (.cons (.refl _) (.cons hrules (.cons (Check.same_cycles hg)
    (.cons (Check.same_lifetimes h hg hq ha) .nil))))

theorem ofSnapshot_eq_outOfFuel {fuel : Nat} {a : Snapshot}
    (h : Registry.plainProviders fuel a.catalogue = none) (o : Options)
    (supplied : Option Fallback) : ofSnapshot fuel o supplied a = .error .outOfFuel := by
  rw [ofSnapshot, Registry.build, h]
  rfl

theorem ofSnapshot_eq_ok {fuel : Nat} {o : Options} {supplied : Option Fallback} {a : Snapshot}
    {r : Registry} {res : List Finding}
    (hr : Registry.build fuel (chooseFallback o supplied) a.services a.catalogue = some r)
    (hres : Check.resolution r (Graph.build r o a.services) = .ok res) :
    ofSnapshot fuel o supplied a = .ok (assemble o a r res) := by
  simp only [ofSnapshot, hr, hres]

/-- Where the registry can be built, the reports on alike snapshots have the same problems. -/
theorem same_ofSnapshot {fuel : Nat} {a a' : Snapshot} (ha : a.Alike a') {plain : List Provider}
    (hplain : Registry.plainProviders fuel a.catalogue = some plain) (o : Options) :
    ∃ x x', ofSnapshot fuel o none a = .ok x ∧ ofSnapshot fuel o none a' = .ok x' ∧
      ∀ q : Kind → Prop, (∀ k : Kind, k.IsCapture → ¬ q k) ∨ o.heuristic = false →
        SameProblems q x.findings x'.findings := by
  obtain ⟨guess, hfallback, hguess, hnone⟩ := chooseFallback_none o
  obtain ⟨r, hr⟩ := Registry.exists_build hplain (fun t cs => .ok (guess t cs)) a.services
  obtain ⟨r', hr', halike⟩ := exists_of_rel_some (hr ▸ Registry.alike_build hguess ha fuel)
  obtain ⟨res, res', hres, hres', hm⟩ :=
    Check.matched_resolution halike (Graph.alike_build halike o ha)
  refine ⟨_, _, ofSnapshot_eq_ok (hfallback ▸ hr) hres, ofSnapshot_eq_ok (hfallback ▸ hr') hres',
    fun q hq => ?_⟩
  refine same_assemble halike ha o (hq.imp_right fun ho => ?_) (.of_matched hm)
  rw [hnone ho] at hr
  have hcertain := Registry.certain_of_build hr
  exact ⟨hcertain, fun i e he => Graph.stage_ne_fallback hcertain ha.nodup he⟩

theorem isSome_plainProviders_iff {fuel : Nat} {fs : List Fragment} :
    (Registry.plainProviders fuel (Snapshot.catalogueOf fs)).isSome ↔
      ∀ p ∈ Parts.ofFragments fs, p.isService = false → p.kind = .concrete →
        ((Snapshot.catalogueOf fs).contractsOf fuel p.identity).isSome := by
  simp only [Registry.isSome_plainProviders_iff, Snapshot.entries_catalogueOf, List.mem_map,
    ← Snapshot.mem_partsOf]
  constructor
  · rintro h p ⟨order, hp⟩ hs hk
    exact h (p.entry order) ⟨(p, order), hp, rfl⟩ ⟨hs, hk⟩
  · rintro h _ ⟨⟨p, order⟩, hp, rfl⟩ ⟨hs, hk⟩
    exact h p ⟨order, hp⟩ hs hk

theorem contractsFound_iff {fuel : Nat} {fs : List Fragment} :
    Snapshot.ContractsFound fuel fs ↔ (Snapshot.collect fuel fs).isSome ∧
      (Registry.plainProviders fuel (Snapshot.catalogueOf fs)).isSome := by
  rw [Snapshot.isSome_collect_iff, isSome_plainProviders_iff]
  constructor
  · intro h
    exact ⟨fun p hp hs => h p hp (Parts.kind_of_isService hs), fun p hp _ => h p hp⟩
  · rintro ⟨hservices, hplain⟩ p hp hk
    cases hs : p.isService with
    | true => exact hservices p hp hs
    | false => exact hplain p hp hs hk

theorem verify_eq_outOfFuel {fuel : Nat} {fs : List Fragment}
    (h : ¬ Snapshot.ContractsFound fuel fs) (o : Options) (supplied : Option Fallback) :
    verify fuel o supplied fs = .error .outOfFuel := by
  unfold verify
  cases ha : Snapshot.collect fuel fs with
  | none => rfl
  | some a =>
    have hplain : Registry.plainProviders fuel (Snapshot.catalogueOf fs) = none := by
      rw [contractsFound_iff, ha] at h
      simpa using h
    rw [← Snapshot.catalogue_of_collect ha] at hplain
    exact ofSnapshot_eq_outOfFuel hplain o supplied

/-- Verification does not depend on the order of declarations. It gives a report for both orders, as
soon as the contracts of all classes are found, or for none. The reports state the same problems of
every kind but for captured dependencies, and of those kinds too if nothing is guessed. -/
theorem verify_reordered {fs fs' : List Fragment} (h : Reordered fs fs') (fuel : Nat)
    (o : Options) :
    (Snapshot.ContractsFound fuel fs →
      ∃ x x', verify fuel o none fs = .ok x ∧ verify fuel o none fs' = .ok x' ∧
        (∀ p : Kind × Identity × Related,
          p.1 ≠ .singletonOnScoped → p.1 ≠ .singletonOnTransient →
            (p ∈ problems x.findings ↔ p ∈ problems x'.findings)) ∧
        (o.heuristic = false → ∀ p, p ∈ problems x.findings ↔ p ∈ problems x'.findings)) ∧
    (¬ Snapshot.ContractsFound fuel fs →
      verify fuel o none fs = .error .outOfFuel ∧ verify fuel o none fs' = .error .outOfFuel) := by
  refine ⟨fun hfound => ?_, fun hlost => ?_⟩
  · rw [contractsFound_iff] at hfound
    obtain ⟨a, ha⟩ := Option.isSome_iff_exists.mp hfound.1
    obtain ⟨plain, hplain⟩ := Option.isSome_iff_exists.mp hfound.2
    obtain ⟨a', ha', halike⟩ := exists_of_rel_some (ha ▸ Snapshot.alike_collect h fuel)
    rw [← Snapshot.catalogue_of_collect ha] at hplain
    obtain ⟨x, x', hx, hx', hsame⟩ := same_ofSnapshot halike hplain o
    refine ⟨x, x', by simp only [verify, ha, hx], by simp only [verify, ha', hx'],
      fun p hs ht => ?_, fun ho p => ?_⟩
    · refine hsame (fun k => ¬ k.IsCapture) (.inl fun k hk hn => hn hk) p ?_
      exact fun hk => hk.elim hs ht
    · exact hsame (fun _ => True) (.inr ho) p trivial
  · have hlost' := (Snapshot.contractsFound_congr h fuel).not.mp hlost
    exact ⟨verify_eq_outOfFuel hlost o none, verify_eq_outOfFuel hlost' o none⟩

/-- A singleton in two parts, and between them a scoped service that it captures. -/
def cacheFragments : List Fragment :=
  [{ name := "Cache", lifetime := some .singleton,
     requests := [{ target := "IClock", style := .list 0 }] },
   { name := "Clock", lifetime := some .perScope, contracts := ["IClock"] },
   { name := "Cache", requests := [{ target := "IClock", style := .list 0 }] }]

/-- The same with the captured service in front. -/
def clockFirst : List Fragment :=
  [{ name := "Clock", lifetime := some .perScope, contracts := ["IClock"] },
   { name := "Cache", lifetime := some .singleton,
     requests := [{ target := "IClock", style := .list 0 }] },
   { name := "Cache", requests := [{ target := "IClock", style := .list 0 }] }]

theorem reordered_cacheFragments : Reordered cacheFragments clockFirst := by
  refine ⟨.swap _ _ _, fun i => ?_⟩
  by_cases hcache : (⟨"Cache", 0⟩ : Identity) = i
  · subst hcache
    decide +kernel
  · simp [cacheFragments, clockFirst, Fragment.identity, List.filter_cons, hcache]

theorem verify_reordered_cache :
    Reordered cacheFragments clockFirst ∧ Snapshot.ContractsFound 9 cacheFragments ∧
      ∃ x x', verify 9 { heuristic := false } none cacheFragments = .ok x ∧
        verify 9 { heuristic := false } none clockFirst = .ok x' ∧
        (∀ p, p ∈ problems x.findings ↔ p ∈ problems x'.findings) ∧
        (.singletonOnScoped, ⟨"Cache", 0⟩, .identity ⟨"Clock", 0⟩) ∈ problems x.findings := by
  have hfound : Snapshot.ContractsFound 9 cacheFragments := by decide +kernel
  obtain ⟨x, x', hx, hx', -, hsame⟩ :=
    (verify_reordered reordered_cacheFragments 9 { heuristic := false }).1 hfound
  have hproblems : (verify 9 { heuristic := false } none cacheFragments).toOption.map
      (fun x => problems x.findings) = some
        [(.duplicateDependency, ⟨"Cache", 0⟩, .contract (.named "IClock")),
         (.singletonOnScoped, ⟨"Cache", 0⟩, .identity ⟨"Clock", 0⟩)] := by
    decide +kernel
  simp only [hx, Except.toOption, Option.map_some, Option.some.injEq] at hproblems
  refine ⟨reordered_cacheFragments, hfound, x, x', hx, hx', hsame rfl, ?_⟩
  simp [hproblems]

end Report

end Injection
