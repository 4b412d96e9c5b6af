import Injection.Proofs.Enlarged
import Injection.Proofs.EntryPoints

/-! What guessing adds. The fallback is asked last, so without it every target has the candidates
that it had, unless these were guessed. The graph loses the guessed edges and nothing else, more
dependencies stay unresolved, and the check of lifetimes finds the same as before but for captured
dependencies that were guessed. -/
namespace Injection

namespace Options

/-- The same options with guessing switched on or off. -/
def guessing (o : Options) (b : Bool) : Options := { o with heuristic := b }

theorem unwrap_guessing (o : Options) (b : Bool) : (o.guessing b).unwrap = o.unwrap := by
  funext w s
  induction w, s using unwrap.induct o with
  | case1 w head a hd ih =>
    have hd' : isListed (o.guessing b).deferredWrappers head = true := hd
    rw [unwrap, unwrap, if_pos hd, if_pos hd', ih]
  | case2 w head a hd hc ih =>
    have hd' : ¬ isListed (o.guessing b).deferredWrappers head = true := hd
    have hc' : isListed (o.guessing b).collectionWrappers head = true := hc
    rw [unwrap, unwrap, if_neg hd, if_neg hd', if_pos hc, if_pos hc', ih]
  | case3 w head a hd hc =>
    have hd' : ¬ isListed (o.guessing b).deferredWrappers head = true := hd
    have hc' : ¬ isListed (o.guessing b).collectionWrappers head = true := hc
    rw [unwrap, unwrap, if_neg hd, if_neg hd', if_neg hc, if_neg hc']
  | case4 w s hs =>
    rw [unwrap, unwrap]
    · exact hs
    · exact hs

end Options

/-! ## Options -/

section Options
variable (r : Registry) (o : Options) (b : Bool)

theorem Links.ofService_guessing : ofService r (o.guessing b) = ofService r o := by
  have hdep : ofDependency r (o.guessing b) = ofDependency r o := by
    funext i d
    unfold ofDependency
    rw [o.unwrap_guessing b]
    rfl
  funext s
  rw [ofService, ofService, hdep]

theorem Graph.build_guessing (services : List Service) :
    build r (o.guessing b) services = build r o services := by
  rw [build, build, Links.ofService_guessing]

theorem Check.ancestor_guessing : ancestor r (o.guessing b) = ancestor r o := by
  have hcandidates : inheritedCandidates r (o.guessing b) = inheritedCandidates r o := by
    funext σ d
    unfold inheritedCandidates
    rw [o.unwrap_guessing b]
    rfl
  funext services s x
  unfold ancestor inheritedCaptives
  rw [hcandidates]

theorem Check.lifetimes_guessing (services : List Service) (c : Catalogue) (g : Graph) :
    lifetimes r (o.guessing b) services c g = lifetimes r o services c g := by
  unfold lifetimes serviceLifetimes
  rw [ancestor_guessing]
  rfl

/-- Once the registry is built, switching guessing on or off makes no difference. -/
theorem Report.assemble_guessing (a : Snapshot) (res : List Finding) :
    assemble (o.guessing b) a r res = assemble o a r res := by
  have hfaults : Graph.buildFaults r (o.guessing b) a.services =
      Graph.buildFaults r o a.services := by
    unfold Graph.buildFaults
    rw [Links.ofService_guessing]
  unfold assemble
  dsimp only
  rw [hfaults, Graph.build_guessing, Check.lifetimes_guessing]
  rfl

end Options

/-! ## Resolution -/

/-- The candidates were not guessed. -/
def Match.certain (m : Match) : Bool := m.stage ≠ .fallback

def Edge.certain (e : Edge) : Bool := e.stage ≠ .fallback

/-- The fallback is asked last, so nothing but guesses is lost without it. -/
theorem Table.lookup_none (table : Table)
    (guess : Signature → List (Signature × Identity) → List Identity) (t : Signature) :
    table.lookup .none t =
      (table.lookup (fun t cs => .ok (guess t cs)) t).map (Option.filter Match.certain) := by
  have hnone : table.lookup .none t = _ := table.lookup_eq (fun _ _ => []) t
  rw [hnone, lookup_eq, Except.map]
  simp [apply_ite (Option.filter Match.certain), Option.filter_some, Match.certain]

namespace Registry

/-- The same registry, which guesses nothing. -/
def unguessing (r : Registry) : Registry := { r with fallback := .none }

variable {r : Registry}

theorem resolve_unguessing (h : r.fallback.Answers) (t : Signature) :
    ∃ m, r.resolve t = .ok m ∧ r.unguessing.resolve t = .ok (m.filter Match.certain) := by
  obtain ⟨guess, hguess⟩ := h
  have hlookup := Table.lookup_eq r.registered guess t
  refine ⟨_, by rw [resolve, hguess, hlookup], ?_⟩
  change r.registered.lookup .none t = _
  rw [Table.lookup_none _ guess, hlookup]
  rfl

theorem build_unguessing {fuel : Nat} {fallback : Fallback} {services : List Service}
    {c : Catalogue} (h : build fuel fallback services c = some r) :
    build fuel .none services c = some r.unguessing := by
  obtain ⟨plain, hplain, rfl⟩ := Option.map_eq_some_iff.mp h
  rw [build, hplain]
  rfl

end Registry

/-! ## The graph -/

/-- The second lacks the guessed edges of the first, and leaves unresolved what the first does. -/
structure Links.Pruned (l l' : Links) : Prop where
  edges : l'.edges = l.edges.filter Edge.certain
  unresolved : l.unresolved.Sublist l'.unresolved

structure Graph.Pruned (g g' : Graph) : Prop where
  edges : ∀ i, g'.edgesFrom i = (g.edgesFrom i).filter Edge.certain
  unresolved : g.unresolved.Sublist g'.unresolved

section Graph
variable {r : Registry} {o : Options} (hr : r.fallback.Answers)

theorem Links.pruned_flatMap {parts parts' : List Links} (h : List.Forall₂ Pruned parts parts') :
    parts'.flatMap Links.edges = (parts.flatMap Links.edges).filter Edge.certain ∧
      (parts.flatMap Links.unresolved).Sublist (parts'.flatMap Links.unresolved) := by
  induction h with
  | nil => exact ⟨rfl, .slnil⟩
  | cons hp _ ih =>
    simp only [List.flatMap_cons, List.filter_append, hp.edges, ih.1, true_and]
    exact hp.unresolved.append ih.2

include hr

theorem Links.pruned_ofDependency (i : Identity) (d : Dependency) :
    BothOk Pruned (ofDependency r o i d) (ofDependency r.unguessing o i d) := by
  obtain ⟨m, hm, hm'⟩ := Registry.resolve_unguessing hr (o.unwrap d.wrapping d.target).1
  unfold ofDependency
  dsimp only
  split
  · exact ⟨_, _, rfl, rfl, rfl, .refl _⟩
  rw [hm, hm']
  cases m with
  | none => exact ⟨_, _, rfl, rfl, rfl, .refl _⟩
  | some m =>
    by_cases hstage : m.stage = .fallback
    · rw [Option.filter_some_neg (by simp [Match.certain, hstage])]
      refine ⟨_, _, rfl, rfl, (List.filter_eq_nil_iff.mpr fun e he => ?_).symm, List.nil_sublist _⟩
      obtain ⟨c, -, rfl⟩ := List.mem_map.mp he
      simp [Edge.certain, hstage]
    · rw [Option.filter_some_pos (by simp [Match.certain, hstage])]
      refine ⟨_, _, rfl, rfl, (List.filter_eq_self.mpr fun e he => ?_).symm, .refl _⟩
      obtain ⟨c, -, rfl⟩ := List.mem_map.mp he
      simp [Edge.certain, hstage]

theorem Links.pruned_ofService (s : Service) :
    BothOk Pruned (ofService r o s) (ofService r.unguessing o s) := by
  refine (BothOk.mapM fun d _ => pruned_ofDependency hr s.identity d).map fun parts parts' h => ?_
  obtain ⟨hedges, hunresolved⟩ := pruned_flatMap h
  exact ⟨by rw [hedges, eraseDups_filter], hunresolved⟩

theorem Graph.Pruned.add {g g' : Graph} (h : g.Pruned g') (s : Service) :
    (g.add s.identity (Links.ofService r o s)).Pruned
      (g'.add s.identity (Links.ofService r.unguessing o s)) := by
  obtain ⟨l, l', hl, hl', hpruned⟩ := Links.pruned_ofService (o := o) hr s
  rw [hl, hl']
  refine ⟨fun i => ?_, h.unresolved.append hpruned.unresolved⟩
  rw [edgesFrom_add, edgesFrom_add]
  by_cases hi : i = s.identity
  · simp only [hi, if_true, hpruned.edges]
  · simp only [hi, if_false, h.edges]

theorem Graph.pruned_build (services : List Service) :
    (build r o services).Pruned (build r.unguessing o services) := by
  rw [build_eq_ofAll, build_eq_ofAll]
  induction services.filter fun s => !s.isExternal using List.reverseRecOn with
  | nil => exact ⟨fun _ => rfl, .slnil⟩
  | append_singleton services s ih =>
    rw [ofAll_concat, ofAll_concat]
    exact ih.add hr s

end Graph

/-! ## Lifetimes -/

namespace Check
variable {r : Registry} {o : Options} {services : List Service} {c : Catalogue} {g g' : Graph}

theorem filter_countedEdges (guessed : List Signature) (es : List Edge) :
    (countedEdges guessed es).filter Edge.certain = es.filter Edge.certain := by
  induction es generalizing guessed with
  | nil => rfl
  | cons e es ih =>
    rw [countedEdges]
    by_cases hstage : e.stage = .fallback
    · have he : ¬ e.certain = true := by simp [Edge.certain, hstage]
      rw [if_pos hstage, List.filter_cons_of_neg he]
      split
      · exact ih guessed
      · rw [List.filter_cons_of_neg he, ih]
    · rw [if_neg hstage, List.filter_cons, List.filter_cons, ih]

/-- Candidates that count only because they were guessed can only be captured in addition. -/
theorem enlarged_captives {α : Type} {xs ys : List α} (h : Enlarged (fun _ => True) xs ys)
    (s : Service) (provider : α → Identity) (location : α → Option Location) (inherited : Bool) :
    Enlarged (fun f => f.kind.IsCapture)
      (xs.filterMap fun x => captive r.unguessing s (provider x) (location x) inherited)
      (ys.filterMap fun x => captive r s (provider x) (location x) inherited) :=
  h.filterMap fun _ _ _ hf => isCapture_captive hf

theorem enlarged_ownCaptives (hg : g.Pruned g') (s : Service) :
    Enlarged (fun f => f.kind.IsCapture) (ownCaptives r.unguessing g' s) (ownCaptives r g s) := by
  have hcertain : ∀ e ∈ (g.edgesFrom s.identity).filter Edge.certain, e.stage ≠ .fallback := by
    intro e he
    simpa [Edge.certain] using (List.mem_filter.mp he).2
  refine enlarged_captives ?_ s Edge.provider Edge.location false
  rw [hg.edges, countedEdges_eq_self hcertain, ← filter_countedEdges []]
  exact .of_filter fun _ _ _ => trivial

section Answers
variable (hr : r.fallback.Answers)
include hr

theorem enlarged_inheritedCandidates (σ : Signature.Bindings) (d : Dependency) :
    BothOk (Enlarged fun _ => True) (inheritedCandidates r.unguessing o σ d)
      (inheritedCandidates r o σ d) := by
  obtain ⟨m, hm, hm'⟩ := Registry.resolve_unguessing hr (o.unwrap d.wrapping (d.target.subst σ)).1
  unfold inheritedCandidates
  dsimp only
  split
  · exact ⟨_, _, rfl, rfl, .nil⟩
  rw [hm, hm']
  cases m with
  | none => exact ⟨_, _, rfl, rfl, .nil⟩
  | some m =>
    by_cases hstage : m.stage = .fallback
    · rw [Option.filter_some_neg (by simp [Match.certain, hstage])]
      exact ⟨_, _, rfl, rfl, .of_nil fun _ _ => trivial⟩
    · rw [Option.filter_some_pos (by simp [Match.certain, hstage])]
      exact ⟨_, _, rfl, rfl, .refl _ _⟩

theorem enlarged_inheritedCaptives (s : Service) (σ : Signature.Bindings) (d : Dependency) :
    BothOk (Enlarged fun f => f.kind.IsCapture) (inheritedCaptives r.unguessing o s σ d)
      (inheritedCaptives r o s σ d) :=
  (enlarged_inheritedCandidates hr σ d).map fun _ _ h =>
    enlarged_captives h s id (fun _ => d.location) true

theorem enlarged_ancestor (s : Service) (x : Ancestor) :
    BothOk (Enlarged fun f => f.kind.IsCapture) (ancestor r.unguessing o services s x)
      (ancestor r o services s x) := by
  unfold ancestor
  dsimp only
  split
  · next hx => exact ⟨_, _, rfl, if_pos hx, .nil⟩
  · next hx =>
    rw [if_neg (show ¬ r.isExternal x.entry.identity = true from hx)]
    refine (BothOk.mapM fun d _ => enlarged_inheritedCaptives hr s x.bindings d).map
      fun captives captives' h => ?_
    exact (Enlarged.refl _ _).append (.flatten h)

theorem enlarged_serviceLifetimes (hg : g.Pruned g') (s : Service) :
    BothOk (Enlarged fun f => f.kind.IsCapture) (serviceLifetimes r.unguessing o services c g' s)
      (serviceLifetimes r o services c g s) := by
  unfold serviceLifetimes
  split
  · refine (BothOk.mapM fun x _ => enlarged_ancestor hr s x).map fun inherited inherited' h => ?_
    exact ((Enlarged.refl _ _).append (enlarged_ownCaptives hg s)).append (.flatten h)
  · exact ⟨_, _, rfl, rfl, .refl _ _⟩

/-- With guessing the check of lifetimes finds all that it finds without, and besides that captured
dependencies only. -/
theorem enlarged_lifetimes (hg : g.Pruned g') :
    Enlarged (fun f => f.kind.IsCapture) (lifetimes r.unguessing o services c g')
      (lifetimes r o services c g) := by
  unfold lifetimes
  split
  · refine .flatMap fun s _ => ?_
    have hservice : BothOk _ (serviceLifetimes r.unguessing o services c g' s)
        (serviceLifetimes r o services c g s) := enlarged_serviceLifetimes hr hg s
    obtain ⟨found, found', h, h', hfound⟩ := hservice
    rw [h, h']
    exact hfound
  · exact .nil

end Answers

end Check

/-! ## Reports -/

/-- The kinds of problems on which candidates for dependencies have no bearing. -/
def Kind.unguessed : List Kind :=
  [.duplicateDependency, .conflictingStyles, .duplicateWithinList, .unnecessaryExclusion,
   .backgroundLifetime, .inheritedLifetime, .conditionalEmpty, .conditionalConflicting,
   .conditionalMalformedConfig, .malformedSignature]

theorem Kind.IsCapture.not_unguessed {k : Kind} (h : k.IsCapture) : k ∉ unguessed := by
  rcases h with rfl | rfl <;> decide

theorem Kind.IsMissing.not_unguessed {k : Kind} (h : k.IsMissing) : k ∉ unguessed := by
  rcases h with rfl | rfl <;> decide

namespace Report
open Finding

/-- How the report `x`, where candidates were guessed, and the report `y` on the same declarations,
where none were, differ. -/
structure Conservative (o : Options) (x y : Report) : Prop where
  /-- Only guessed edges are gone. -/
  edges : ∀ i, y.graph.edgesFrom i = (x.graph.edgesFrom i).filter fun e => e.stage ≠ .fallback
  /-- What was unresolved stays so. -/
  unresolved : x.graph.unresolved.Sublist y.graph.unresolved
  /-- What was missing still is, though perhaps under the other kind. -/
  missing : o.isDisabled .noImplementation = false →
    o.isDisabled .implementationUnregistered = false → ∀ (i : Identity) (t : Signature),
      (∃ k : Kind, k.IsMissing ∧ (k, i, .contract t) ∈ problems x.findings) →
        ∃ k : Kind, k.IsMissing ∧ (k, i, .contract t) ∈ problems y.findings
  /-- The check of lifetimes found no more without guesses. -/
  lifetimes : (Check.lifetimes y.registry o y.services y.catalogue y.graph).Sublist
    (Check.lifetimes x.registry o x.services x.catalogue x.graph)
  /-- A captured dependency was reported before. -/
  captures : ∀ f ∈ y.findings, f.kind.IsCapture →
    ∃ f' ∈ x.findings, f'.problem = f.problem ∧ f'.severity = f.severity
  others : y.findings.filter (fun f => f.kind ∈ Kind.unguessed) =
    x.findings.filter fun f => f.kind ∈ Kind.unguessed

section Conservative
variable {o : Options} {a : Snapshot} {r : Registry} {res res' : List Finding}
  (hr : r.fallback.Answers) (ha : OnlyMalformed a)
  (hres : Check.resolution r (Graph.build r o a.services) = .ok res)
  (hres' : Check.resolution r.unguessing (Graph.build r.unguessing o a.services) = .ok res')
include hr

theorem sublist_lifetimes :
    (found o a r.unguessing res' .lifetimes).Sublist (found o a r res .lifetimes) :=
  (Check.enlarged_lifetimes hr (Graph.pruned_build hr a.services)).sublist

include ha hres hres'

theorem filter_found_unguessing (phase : Phase) :
    (found o a r.unguessing res' phase).filter (fun f => f.kind ∈ Kind.unguessed) =
      (found o a r res phase).filter fun f => f.kind ∈ Kind.unguessed := by
  have hnone : (∀ k ∈ phase.kinds, k ∉ Kind.unguessed) → ∀ {r : Registry} {res : List Finding},
      Check.resolution r (Graph.build r o a.services) = .ok res →
        (found o a r res phase).filter (fun f => f.kind ∈ Kind.unguessed) = [] := by
    intro hkinds r res hres
    refine List.filter_eq_nil_iff.mpr fun f hf => ?_
    simpa using hkinds f.kind (kind_of_phase ha hres hf)
  have hmissing : ∀ {r : Registry} {g : Graph} {res : List Finding},
      Check.resolution r g = .ok res → res.filter (fun f => f.kind ∈ Kind.unguessed) = [] := by
    intro r g res hres
    refine List.filter_eq_nil_iff.mpr fun f hf => ?_
    simpa using (Check.isMissing_of_resolution hres hf).not_unguessed
  cases phase with
  | collect => rfl
  | registry => rfl
  | graph => rw [hnone (by decide) hres, hnone (by decide) hres']
  | rules =>
    simp only [found, List.filter_append, hmissing hres, hmissing hres']
  | cycles => rw [hnone (by decide) hres, hnone (by decide) hres']
  | lifetimes =>
    refine ((Check.enlarged_lifetimes hr (Graph.pruned_build hr a.services)).filter_eq ?_).symm
    intro f hf
    simpa using hf.not_unguessed
  | merge => rfl

theorem missing_unguessing (hmissing : o.isDisabled .noImplementation = false)
    (hunregistered : o.isDisabled .implementationUnregistered = false) {i : Identity}
    {t : Signature}
    (h : ∃ k : Kind, k.IsMissing ∧ (k, i, .contract t) ∈ problems (assemble o a r res).findings) :
    ∃ k : Kind, k.IsMissing ∧
      (k, i, .contract t) ∈ problems (assemble o a r.unguessing res').findings := by
  obtain ⟨k, hk, hmem⟩ := h
  obtain ⟨hreporting, -, hmem⟩ := (mem_problems_missing ha hres hk).mp hmem
  obtain ⟨u, hu, hstrong, hi, ht⟩ := (Check.exists_missing_iff hres).mp ⟨k, hk, hmem⟩
  have hu' := (Graph.pruned_build hr a.services).unresolved.subset hu
  obtain ⟨k', hk', hmem'⟩ := (Check.exists_missing_iff hres').mpr ⟨u, hu', hstrong, hi, ht⟩
  have henabled : o.isDisabled k' = false := by
    rcases hk' with rfl | rfl
    · exact hmissing
    · exact hunregistered
  exact ⟨k', hk', (mem_problems_missing ha hres' hk').mpr ⟨hreporting, henabled, hmem'⟩⟩

omit hres in
theorem capture_unguessing {f : Finding} (hf : f ∈ (assemble o a r.unguessing res').findings)
    (hk : f.kind.IsCapture) :
    ∃ f' ∈ (assemble o a r res).findings,
      f'.problem = f.problem ∧ f'.severity = f.severity := by
  have hmem : f.problem ∈ problems (assemble o a r.unguessing res').findings :=
    mem_problems.mpr ⟨f, hf, rfl⟩
  rw [mem_problems_of_phase ha hres' fun _ => phase_of_isCapture hk] at hmem
  obtain ⟨hreporting, henabled, hmem⟩ := hmem
  have hfound : f.problem ∈ problems (found o a r res .lifetimes) :=
    ((sublist_lifetimes hr).map Finding.problem).subset hmem
  -- A guess may have been reported first, so it need not be the same finding.
  obtain ⟨f', hf', hp⟩ := mem_problems.mp
    (mem_problems_assemble.mpr ⟨hreporting, henabled, .lifetimes, hfound⟩)
  have hkind : f'.kind = f.kind := congrArg Prod.fst hp
  refine ⟨f', hf', hp, ?_⟩
  rw [severity_of_mem_merge hf, severity_of_mem_merge hf', hkind]

theorem conservative_assemble :
    Conservative o (assemble o a r res) (assemble o a r.unguessing res') := by
  have hpruned := Graph.pruned_build (o := o) hr a.services
  refine ⟨hpruned.edges, hpruned.unresolved, fun hmissing hunregistered i t => ?_,
    (Check.enlarged_lifetimes hr hpruned).sublist, fun f => ?_, ?_⟩
  · exact missing_unguessing hr ha hres hres' hmissing hunregistered
  · exact capture_unguessing hr ha hres'
  · rw [findings_assemble, findings_assemble, filter_merge o _ _ (fun k => k ∈ Kind.unguessed),
      filter_merge o _ _ (fun k => k ∈ Kind.unguessed), List.map_map, List.map_map]
    refine congrArg (merge o _) (List.map_congr_left fun phase _ => ?_)
    exact filter_found_unguessing hr ha hres hres' phase

end Conservative

/-- Where the fallback never fails, there are reports with guessing and without as soon as the
contracts of all classes are found. Without guessing nothing is resolved differently, and the
findings differ only as far as the guessed candidates do. -/
theorem verify_without_guessing (fuel : Nat) (o : Options) (supplied : Option Fallback)
    (fs : List Fragment) (hanswers : ∀ f ∈ supplied, f.Answers) :
    (Snapshot.ContractsFound fuel fs →
      ∃ x y, verify fuel (o.guessing true) supplied fs = .ok x ∧
        verify fuel (o.guessing false) supplied fs = .ok y ∧ Conservative o x y) ∧
    (¬ Snapshot.ContractsFound fuel fs →
      ∀ b, verify fuel (o.guessing b) supplied fs = .error .outOfFuel) := by
  refine ⟨fun hfound => ?_, fun hlost b => verify_eq_outOfFuel hlost _ supplied⟩
  obtain ⟨a, r, ha, hbuild, -, hx⟩ := verify_of_contractsFound hfound (o.guessing true) supplied
  have hfallback := answers_chooseFallback (o.guessing true) hanswers
  have hr : r.fallback.Answers := by
    rw [(Registry.registered_of_build hbuild).2]
    exact hfallback
  -- The second report is on the same snapshot.
  have hbuild' : Registry.build fuel (chooseFallback (o.guessing false) supplied) a.services
      a.catalogue = some r.unguessing := Registry.build_unguessing hbuild
  obtain ⟨res, hres⟩ := exists_resolution hfallback hbuild (Graph.build r o a.services)
  obtain ⟨res', hres'⟩ := exists_resolution Fallback.answers_none hbuild'
    (Graph.build r.unguessing o a.services)
  have hy : verify fuel (o.guessing false) supplied fs =
      .ok (assemble (o.guessing false) a r.unguessing res') := by
    rw [verify, ha]
    exact ofSnapshot_eq_ok hbuild' (by rwa [Graph.build_guessing])
  refine ⟨_, _, hx res (by rwa [Graph.build_guessing]), hy, ?_⟩
  rw [assemble_guessing, assemble_guessing]
  exact conservative_assemble hr (fun _ => Snapshot.kind_of_collect ha) hres hres'

/-- A singleton with three needs: its store is guessed, its session is known, and nothing tells the
time. -/
def ledgerFragments : List Fragment :=
  [{ name := "Ledger", lifetime := some .singleton,
     requests := [{ target := "IStore<User>", style := .list 0 },
       { target := "ISession", style := .list 0 }, { target := "ISession", style := .list 0 },
       { target := "IClock", style := .list 0 }] },
   { name := "SqlStore", params := ["T"], contracts := ["Data.IStore<T>"],
     lifetime := some .perScope },
   { name := "Session", contracts := ["ISession"], lifetime := some .perScope }]

theorem verify_without_guessing_ledger :
    (∀ f ∈ some Fallback.sameShape, f.Answers) ∧ Snapshot.ContractsFound 9 ledgerFragments ∧
      ∃ x y, verify 9 (Options.guessing {} true) (some .sameShape) ledgerFragments = .ok x ∧
        verify 9 (Options.guessing {} false) (some .sameShape) ledgerFragments = .ok y ∧
        Conservative {} x y ∧
        problems x.findings =
          [(.noImplementation, ⟨"Ledger", 0⟩, .contract (.named "IClock")),
           (.duplicateWithinList, ⟨"Ledger", 0⟩, .contract (.named "ISession")),
           (.singletonOnScoped, ⟨"Ledger", 0⟩, .identity ⟨"Session", 0⟩),
           (.singletonOnScoped, ⟨"Ledger", 0⟩, .identity ⟨"SqlStore", 1⟩)] ∧
        problems y.findings =
          [(.noImplementation, ⟨"Ledger", 0⟩, .contract (.named "IClock")),
           (.noImplementation, ⟨"Ledger", 0⟩, .contract (.app "IStore" [.named "User"])),
           (.duplicateWithinList, ⟨"Ledger", 0⟩, .contract (.named "ISession")),
           (.singletonOnScoped, ⟨"Ledger", 0⟩, .identity ⟨"Session", 0⟩)] := by
  have hanswers : ∀ f ∈ some Fallback.sameShape, f.Answers := by
    rintro f ⟨⟩
    exact Fallback.answers_sameShape
  have hfound : Snapshot.ContractsFound 9 ledgerFragments := by decide +kernel
  obtain ⟨x, y, hx, hy, hxy⟩ :=
    (verify_without_guessing 9 {} (some .sameShape) ledgerFragments hanswers).1 hfound
  have hguessed : ∀ x ∈
      (verify 9 (Options.guessing {} true) (some .sameShape) ledgerFragments).toOption,
      problems x.findings =
        [(.noImplementation, ⟨"Ledger", 0⟩, .contract (.named "IClock")),
         (.duplicateWithinList, ⟨"Ledger", 0⟩, .contract (.named "ISession")),
         (.singletonOnScoped, ⟨"Ledger", 0⟩, .identity ⟨"Session", 0⟩),
         (.singletonOnScoped, ⟨"Ledger", 0⟩, .identity ⟨"SqlStore", 1⟩)] := by
    decide +kernel
  have hcertain : ∀ y ∈
      (verify 9 (Options.guessing {} false) (some .sameShape) ledgerFragments).toOption,
      problems y.findings =
        [(.noImplementation, ⟨"Ledger", 0⟩, .contract (.named "IClock")),
         (.noImplementation, ⟨"Ledger", 0⟩, .contract (.app "IStore" [.named "User"])),
         (.duplicateWithinList, ⟨"Ledger", 0⟩, .contract (.named "ISession")),
         (.singletonOnScoped, ⟨"Ledger", 0⟩, .identity ⟨"Session", 0⟩)] := by
    decide +kernel
  refine ⟨hanswers, hfound, x, y, hx, hy, hxy, hguessed x ?_, hcertain y ?_⟩
  · rw [hx]
    rfl
  · rw [hy]
    rfl

end Report

end Injection
