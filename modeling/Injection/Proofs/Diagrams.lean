import Injection.Export.Basic
import Injection.Proofs.Accounting
import Injection.Proofs.CycleCoverage
import Injection.Proofs.Externals

/-! Diagrams of reports. The nodes come from the services and the arrows from the graph. No arrow
hangs in the air, since both ends of an edge are services that are not external. An arrow is marked
as part of a cycle if a reported cycle runs along it: it is not enough that both ends lie on one. -/
namespace Injection

/-! ## Steps of a cycle -/

namespace Graph

/-- On the cycle `j` comes right after `i`. After the last node comes the first. -/
def Follows (path : List Identity) (i j : Identity) : Prop :=
  ∃ n, path[n]? = some i ∧ path[(n + 1) % path.length]? = some j

theorem mem_cycleSteps_iff {path : List Identity} {i j : Identity} :
    (i, j) ∈ cycleSteps path ↔ Follows path i j := by
  rw [cycleSteps_eq_zip_rotate, List.mem_iff_getElem?]
  refine exists_congr fun n => ?_
  by_cases hn : n < path.length
  · rw [List.getElem?_zip_eq_some, List.getElem?_rotate hn]
  · have hlen : path.length ≤ n := Nat.le_of_not_lt hn
    have hnone : path[n]? = none := List.getElem?_eq_none hlen
    rw [List.getElem?_zip_eq_some, hnone]
    simp

theorem Follows.mem {path : List Identity} {i j : Identity} (h : Follows path i j) :
    i ∈ path ∧ j ∈ path := by
  obtain ⟨n, hi, hj⟩ := h
  exact ⟨List.mem_of_getElem? hi, List.mem_of_getElem? hj⟩

end Graph

/-! ## Ends of edges -/

theorem Fallback.picks_none : Fallback.none.Picks := ⟨fun _ _ => [], rfl, by simp⟩

theorem Report.picks_chooseFallback (o : Options) {supplied : Option Fallback}
    (h : ∀ f ∈ supplied, f = .sameShape ∨ f = .none) : (chooseFallback o supplied).Picks := by
  have hdefault := picks_builtIn o
  unfold chooseFallback at hdefault ⊢
  split
  next heuristic =>
    rw [if_pos heuristic] at hdefault
    cases supplied with
    | none => exact hdefault
    | some f =>
      rcases h f rfl with rfl | rfl
      · exact hdefault
      · exact Fallback.picks_none
  · exact Fallback.picks_none

/-- Both ends of an edge are services that are not external, if only services are guessed. -/
theorem Graph.service_of_mem_edges {fuel : Nat} {fallback : Fallback} {services : List Service}
    {c : Catalogue} {r : Registry} {o : Options} (hpicks : fallback.Picks)
    (hbuild : Registry.build fuel fallback services c = some r)
    (hd : (services.map Service.identity).Nodup) {e : Edge} (he : e ∈ (build r o services).edges) :
    (∃ s ∈ services, s.identity = e.consumer ∧ s.isExternal = false) ∧
      ∃ s ∈ services, s.identity = e.provider ∧ s.isExternal = false := by
  obtain ⟨i, hi, he⟩ := mem_edges.mp he
  constructor
  · rw [(consistent_build r o services).consumer_eq he]
    rw [build_eq_ofAll, nodes_ofAll] at hi
    obtain ⟨s, hs, rfl⟩ := List.mem_map.mp hi
    obtain ⟨hs, hx⟩ := List.mem_filter.mp hs
    exact ⟨s, hs, rfl, by simpa using hx⟩
  · have hx := isExternal_provider hd he
    rw [build_eq_ofAll, mem_edgesFrom_ofAll (nodup_internal hd)] at he
    obtain ⟨t, -, -, links, hl, he⟩ := he
    obtain ⟨d, -, -, found, hfound, j, hj, -, rfl⟩ := (Links.mem_edges_ofService hl).mp he
    have hresolve : (Table.ofProviders (Registry.serviceProviders services)).lookup fallback
        (o.unwrap d.wrapping d.target).1 = .ok (some found) := by
      obtain ⟨plain, -, rfl⟩ := Option.map_eq_some_iff.mp hbuild
      exact hfound
    obtain ⟨q, hq, hid⟩ := (Table.provider_of_lookup hpicks hresolve).2 j hj
    obtain ⟨s, hs, rfl⟩ := List.mem_map.mp hq
    have hid : s.identity = j := hid
    rw [← hid, Registry.isExternal_eq hbuild hd hs] at hx
    exact ⟨s, hs, hid, hx⟩

namespace Export

/-! ## What a diagram shows -/

/-- The name of the type is listed, or none is. -/
def Scope.Admits (scope : Scope) (i : Identity) : Prop := scope.names = [] ∨ i.name ∈ scope.names

/-- Both ends are admitted, and so are collections if the edge asks for one. -/
def Scope.Shows (scope : Scope) (e : Edge) : Prop :=
  scope.Admits e.consumer ∧ scope.Admits e.provider ∧
    (scope.withCollections = true ∨ e.wrapping ≠ .collection)

instance (scope : Scope) (i : Identity) : Decidable (scope.Admits i) :=
  inferInstanceAs (Decidable (scope.names = [] ∨ i.name ∈ scope.names))

instance (scope : Scope) (e : Edge) : Decidable (scope.Shows e) :=
  inferInstanceAs (Decidable (scope.Admits e.consumer ∧ scope.Admits e.provider ∧
    (scope.withCollections = true ∨ e.wrapping ≠ .collection)))

/-- The arrow has the texts and the wrapping of the edge. -/
structure Arrow.Draws (e : Edge) (a : Arrow) : Prop where
  source : a.source = e.consumer.render
  destination : a.destination = e.provider.render
  contract : a.contract = e.target.render
  wrapping : a.wrapping = e.wrapping

theorem Arrow.draws_ofEdge (steps : List (Identity × Identity)) (e : Edge) :
    Arrow.Draws e (Arrow.ofEdge steps e) := ⟨rfl, rfl, rfl, rfl⟩

theorem Scope.admits_iff {scope : Scope} {i : Identity} :
    scope.admits i = true ↔ scope.Admits i := by
  simp [admits, Admits]

namespace Diagram
variable {scope : Scope}

theorem edgesOf_eq (scope : Scope) (g : Graph) :
    edgesOf scope g = g.edges.filter fun e => scope.Shows e := by
  refine List.filter_congr fun e _ => ?_
  rw [Bool.eq_iff_iff, decide_eq_true_eq]
  simp [Scope.Shows, Scope.admits_iff, Wrapping.isStrong, and_assoc]

theorem id_mem_nodesOf {services : List Service} {s : Service} (hs : s ∈ services)
    (hx : s.isExternal = false) (ha : scope.Admits s.identity) :
    s.identity.render ∈ (nodesOf scope services).map Node.id := by
  rw [nodesOf, List.map_map]
  refine List.mem_map.mpr ⟨s, List.mem_filter.mpr ⟨hs, ?_⟩, rfl⟩
  simp [Scope.admits_iff.mpr ha, hx]

theorem length_eq_sum_lifetimes (nodes : List Node) :
    nodes.length = (nodes.filter fun n => n.lifetime = .singleton).length +
      (nodes.filter fun n => n.lifetime = .perScope).length +
      (nodes.filter fun n => n.lifetime = .transient).length := by
  induction nodes with
  | nil => rfl
  | cons n nodes ih =>
    rw [List.length_cons, ih]
    cases hl : n.lifetime <;> simp [hl] <;> omega

theorem forall₂_arrows {R : Edge → Arrow → Prop} (x : Report) (scope : Scope)
    (h : ∀ e ∈ x.graph.edges,
      R e (Arrow.ofEdge ((x.findings.filterMap cyclePath?).flatMap Graph.cycleSteps) e)) :
    List.Forall₂ R (x.graph.edges.filter fun e => scope.Shows e) (ofReport x scope).arrows := by
  simp only [ofReport, edgesOf_eq, List.forall₂_map_right_iff, List.forall₂_same]
  intro e he
  exact h e (List.mem_filter.mp he).1

/-- The parts of a diagram fit together and show what the scope lets through. -/
structure Intact (x : Report) (scope : Scope) (d : Diagram) : Prop where
  arrows : List.Forall₂ Arrow.Draws (x.graph.edges.filter fun e => scope.Shows e) d.arrows
  ends : ∀ a ∈ d.arrows,
    a.source ∈ d.nodes.map Node.id ∧ a.destination ∈ d.nodes.map Node.id
  edges : d.summary.edges = d.arrows.length
  declarations : d.summary.declarations = d.nodes.length
  lifetimes : d.nodes.length =
    d.summary.singletons + d.summary.perScope + d.summary.transients

/-- Whatever part of a report a diagram shows, its arrows are the edges in that part, they start and
end at nodes of the diagram, and the numbers in the summary are right. -/
theorem ofReport_intact (fuel : Nat) (o : Options) (supplied : Option Fallback)
    (fs : List Fragment) (x : Report) (scope : Scope)
    (hsupplied : ∀ f ∈ supplied, f = .sameShape ∨ f = .none)
    (hx : Report.verify fuel o supplied fs = .ok x) : Intact x scope (ofReport x scope) := by
  obtain ⟨a, r, res, ha, hbuild, -, rfl⟩ := Report.verify_cases hx
  have hpicks := Report.picks_chooseFallback o hsupplied
  have harrows := forall₂_arrows (Report.assemble o a r res) scope
    fun e _ => Arrow.draws_ofEdge ((_ : List (List Identity)).flatMap Graph.cycleSteps) e
  refine ⟨harrows, fun arrow harrow => ?_, rfl, rfl, length_eq_sum_lifetimes _⟩
  obtain ⟨e, he, hdraws⟩ := exists_of_forall₂_right harrows harrow
  obtain ⟨he, hshows⟩ := List.mem_filter.mp he
  obtain ⟨hconsumer, hprovider, -⟩ := of_decide_eq_true hshows
  obtain ⟨⟨s, hs, hsid, hsx⟩, t, ht, htid, htx⟩ :=
    Graph.service_of_mem_edges hpicks hbuild (Snapshot.nodup_services ha) he
  rw [hdraws.source, hdraws.destination, ← hsid, ← htid]
  exact ⟨id_mem_nodesOf hs hsx (hsid ▸ hconsumer), id_mem_nodesOf ht htx (htid ▸ hprovider)⟩

/-- A shop with an external clock, a collection of offers, and a cycle between till and stock. -/
def tillFragments : List Fragment :=
  [{ name := "Shop", lifetime := some .singleton
     requests := [{ target := "IOffer[]", style := .list 0 },
       { target := "Till", style := .list 0 }, { target := "Clock", style := .list 0 }] },
   { name := "Till", lifetime := some .singleton
     requests := [{ target := "IStock<Book>", style := .list 0 }] },
   { name := "Stock", params := ["T"], lifetime := some .perScope, contracts := ["Data.IStock<T>"]
     requests := [{ target := "Lazy<Till>", style := .field "till" }] },
   { name := "Sale", lifetime := some .transient, contracts := ["IOffer"] },
   { name := "Clock", lifetime := some .singleton, isExternal := true }]

theorem ofReport_intact_till :
    ∃ x, Report.verify 9 {} (some .sameShape) tillFragments = .ok x ∧
      (∀ f ∈ some Fallback.sameShape, f = .sameShape ∨ f = .none) ∧
      Intact x { withExternals := false, names := ["Till", "Stock", "Clock"] }
        (ofReport x { withExternals := false, names := ["Till", "Stock", "Clock"] }) ∧
      (ofReport x { withExternals := false, names := ["Till", "Stock", "Clock"] }).arrows =
        [⟨"Till", "Stock<_>", "IStock<Book>", .direct, true⟩,
         ⟨"Stock<_>", "Till", "Till", .deferred, true⟩] := by
  have hreport : ∃ x ∈ (Report.verify 9 {} (some .sameShape) tillFragments).toOption,
      (ofReport x { withExternals := false, names := ["Till", "Stock", "Clock"] }).arrows =
        [⟨"Till", "Stock<_>", "IStock<Book>", .direct, true⟩,
         ⟨"Stock<_>", "Till", "Till", .deferred, true⟩] := by
    decide +kernel
  obtain ⟨x, hmem, harrows⟩ := hreport
  have hx := Report.verify_of_mem_toOption hmem
  have hbuiltIn : ∀ f ∈ some Fallback.sameShape, f = .sameShape ∨ f = .none := by
    rintro f ⟨⟩
    exact .inl rfl
  exact ⟨x, hx, hbuiltIn, ofReport_intact 9 {} _ tillFragments x _ hbuiltIn hx, harrows⟩

end Diagram

end Export

/-! ## Marked arrows -/

/-- The search leaves no empty cycle, and each of its cycles is reported. -/
theorem Check.exists_problem_cycles {g : Graph} {path : List Identity} :
    (∃ i, (.circularDependency, i, .cycle path) ∈ Finding.problems (Check.cycles g)) ↔
      path ∈ g.cycles := by
  constructor
  · rintro ⟨i, hmem⟩
    obtain ⟨f, hf, hp⟩ := Finding.mem_problems.mp hmem
    obtain ⟨path', hpath, hf⟩ := List.mem_flatMap.mp hf
    cases path' with
    | nil => simp [cycle] at hf
    | cons first rest =>
      rw [cycle, List.mem_singleton] at hf
      have hsame : Related.cycle (first :: rest) = .cycle path := by
        rw [hf] at hp
        exact congrArg (fun p => p.2.2) hp
      rwa [← Related.cycle.inj hsame]
  · intro hpath
    cases path with
    | nil => exact absurd rfl (Graph.isCycle_of_mem_cycles hpath).nonempty
    | cons first rest =>
      have hcycle : ∃ f ∈ cycle g (first :: rest),
          f.problem = (.circularDependency, first, .cycle (first :: rest)) := by
        rw [cycle]
        exact ⟨_, List.mem_singleton_self _, rfl⟩
      obtain ⟨f, hf, hp⟩ := hcycle
      exact ⟨first, Finding.mem_problems.mpr ⟨f, List.mem_flatMap.mpr ⟨_, hpath, hf⟩, hp⟩⟩

namespace Report
open Finding Export
variable {x : Report} {path : List Identity}

/-- A finding of the report tells of the cycle. -/
def Tells (x : Report) (path : List Identity) : Prop :=
  ∃ f ∈ x.findings, f.kind = .circularDependency ∧ f.related = .cycle path

/-- The edge asks for more than a collection, and a reported cycle runs along it. -/
def Circles (x : Report) (e : Edge) : Prop :=
  (e.wrapping = .direct ∨ e.wrapping = .deferred) ∧
    ∃ path, x.Tells path ∧ Graph.Follows path e.consumer e.provider

theorem tells_iff :
    x.Tells path ↔ ∃ i, (.circularDependency, i, .cycle path) ∈ problems x.findings := by
  simp only [Tells, mem_problems, problem, Prod.mk.injEq]
  constructor
  · rintro ⟨f, hf, hk, hr⟩
    exact ⟨f.subject, f, hf, hk, rfl, hr⟩
  · rintro ⟨i, f, hf, hk, -, hr⟩
    exact ⟨f, hf, hk, hr⟩

theorem cyclePath?_eq_some {f : Finding} :
    cyclePath? f = some path ↔ f.kind = .circularDependency ∧ f.related = .cycle path := by
  unfold cyclePath?
  split
  next hk hr => simp [hk, hr]
  next hother =>
    simp only [reduceCtorEq, false_iff]
    rintro ⟨hk, hr⟩
    exact hother path hk hr

theorem mem_cyclePaths : path ∈ x.findings.filterMap cyclePath? ↔ x.Tells path := by
  simp only [List.mem_filterMap, cyclePath?_eq_some, Tells]

theorem inCycle_ofEdge (e : Edge) :
    (Arrow.ofEdge ((x.findings.filterMap cyclePath?).flatMap Graph.cycleSteps) e).inCycle = true ↔
      x.Circles e := by
  rw [Arrow.ofEdge, Bool.and_eq_true_iff, Graph.isStrong_iff, decide_eq_true_eq, List.mem_flatMap]
  simp only [mem_cyclePaths, Graph.mem_cycleSteps_iff, Circles]

section Assemble
variable {o : Options} {a : Snapshot} {r : Registry} {res : List Finding} (ha : OnlyMalformed a)
  (hres : Check.resolution r (Graph.build r o a.services) = .ok res)
  (hreporting : o.reporting = true) (henabled : o.isDisabled .circularDependency = false)
include ha hres hreporting henabled

/-- The report tells of the cycles that the search found. -/
theorem tells_assemble : (assemble o a r res).Tells path ↔
    path ∈ (Graph.build r o a.services).cycles := by
  have honly : ∀ phase : Phase, Kind.circularDependency ∈ phase.kinds → phase = .cycles :=
    fun _ hphase => Phase.eq_of_mem_kinds (by decide) hphase (by decide)
  rw [tells_iff, ← Check.exists_problem_cycles]
  exact exists_congr fun i => mem_problems_enabled ha hres hreporting henabled honly

end Assemble

end Report

namespace Export.Diagram

/-- The marks of a diagram show where the reported cycles of strong edges run. -/
structure Marked (x : Report) (scope : Scope) (d : Diagram) : Prop where
  arrows : List.Forall₂ (fun e a => Arrow.Draws e a ∧ (a.inCycle = true ↔ x.Circles e))
    (x.graph.edges.filter fun e => scope.Shows e) d.arrows
  /-- Both ends of a marked edge lie on one reported cycle. -/
  ends : ∀ e, x.Circles e → ∃ path, x.Tells path ∧ e.consumer ∈ path ∧ e.provider ∈ path
  /-- Marked edges go all the way round a reported cycle. -/
  around : ∀ path, x.Tells path → ∀ i j, Graph.Follows path i j →
    ∃ e ∈ x.graph.edges, e.consumer = i ∧ e.provider = j ∧ x.Circles e
  /-- The other strong edges do not make a cycle. -/
  acyclic : ∀ i, ¬ Relation.TransGen (fun i j => ∃ e ∈ x.graph.edges, e.consumer = i ∧
    e.provider = j ∧ (e.wrapping = .direct ∨ e.wrapping = .deferred) ∧ ¬ x.Circles e) i i

/-- An arrow is marked exactly if its edge is strong and a reported cycle runs along it. -/
theorem marked_iff_cycle_runs_along (fuel : Nat) (o : Options) (supplied : Option Fallback)
    (fs : List Fragment) (x : Report) (scope : Scope) (hreporting : o.reporting = true)
    (henabled : o.isDisabled .circularDependency = false)
    (hx : Report.verify fuel o supplied fs = .ok x) : Marked x scope (ofReport x scope) := by
  obtain ⟨a, r, res, ha, -, hres, rfl⟩ := Report.verify_cases hx
  have htells : ∀ path, (Report.assemble o a r res).Tells path ↔
      path ∈ (Graph.build r o a.services).cycles := fun _ =>
    Report.tells_assemble (fun _ => Snapshot.kind_of_collect ha) hres hreporting henabled
  have hstrong := Graph.strong_build r o a.services
  refine ⟨forall₂_arrows _ scope fun e _ => ⟨Arrow.draws_ofEdge _ e, Report.inCycle_ofEdge e⟩,
    ?ends, ?around, ?acyclic⟩
  case ends =>
    rintro e ⟨-, path, hpath, hfollows⟩
    exact ⟨path, hpath, hfollows.mem⟩
  case around =>
    intro path hpath i j hfollows
    have hlinked := (Graph.isCycle_of_mem_cycles ((htells path).mp hpath)).linked (i, j)
      (Graph.mem_cycleSteps_iff.mpr hfollows)
    have hedge : (Graph.build r o a.services).Strong i j := hstrong ▸ hlinked
    obtain ⟨e, he, rfl, rfl, hw⟩ := hedge
    exact ⟨e, he, rfl, rfl, hw, path, hpath, hfollows⟩
  case acyclic =>
    -- a step of an unmarked strong edge does not close a cycle that the search found
    intro i hcycle
    apply Graph.cycles_cover_successors (Graph.build r o a.services) i
    apply Relation.TransGen.mono (fun i j hij => ?_) i i hcycle
    obtain ⟨e, he, rfl, rfl, hw, hunmarked⟩ := hij
    have hedge : (Graph.build r o a.services).Strong e.consumer e.provider :=
      ⟨e, he, rfl, rfl, hw⟩
    rw [hstrong] at hedge
    refine ⟨hedge, ?_⟩
    rintro ⟨path, hpath, hstep⟩
    exact hunmarked ⟨hw, path, (htells path).mpr hpath, Graph.mem_cycleSteps_iff.mp hstep⟩

/-- A ring of three with a chord from `A` to `C`. -/
def chordFragments : List Fragment :=
  [{ name := "A", lifetime := some .singleton
     requests := [{ target := "B", style := .list 0 }, { target := "C", style := .list 0 }] },
   { name := "B", lifetime := some .singleton
     requests := [{ target := "Lazy<C>", style := .list 0 }] },
   { name := "C", lifetime := some .singleton, requests := [{ target := "A", style := .list 0 }] }]

theorem marked_iff_cycle_runs_along_ring :
    ∃ x, Report.verify 9 {} none chordFragments = .ok x ∧
      ({} : Options).reporting = true ∧ ({} : Options).isDisabled .circularDependency = false ∧
      Marked x {} (ofReport x {}) ∧
      (ofReport x {}).arrows.map Arrow.inCycle = [true, false, true, true] := by
  have hreport : ∃ x ∈ (Report.verify 9 {} none chordFragments).toOption,
      (ofReport x {}).arrows.map Arrow.inCycle = [true, false, true, true] := by
    decide +kernel
  obtain ⟨x, hmem, harrows⟩ := hreport
  have hx := Report.verify_of_mem_toOption hmem
  exact ⟨x, hx, rfl, rfl, marked_iff_cycle_runs_along 9 {} none chordFragments x {} rfl rfl hx,
    harrows⟩

/-- The chord has no mark, although a reported cycle goes through both of its ends. -/
theorem chord_unmarked :
    ∃ x, Report.verify 9 {} none chordFragments = .ok x ∧ ∃ e ∈ x.graph.edges,
      e.wrapping = .direct ∧
      (∃ f ∈ x.findings, f.kind = .circularDependency ∧ ∃ path, f.related = .cycle path ∧
        e.consumer ∈ path ∧ e.provider ∈ path) ∧
      ∃ a ∈ (ofReport x {}).arrows, Arrow.Draws e a ∧ a.inCycle = false := by
  have hreport : ∃ x ∈ (Report.verify 9 {} none chordFragments).toOption,
      (∃ e ∈ x.graph.edges, e.consumer = ⟨"A", 0⟩ ∧ e.provider = ⟨"C", 0⟩ ∧
        e.target.render = "C" ∧ e.wrapping = .direct) ∧
      (∃ f ∈ x.findings, f.kind = .circularDependency ∧
        f.related = .cycle [⟨"A", 0⟩, ⟨"B", 0⟩, ⟨"C", 0⟩]) ∧
      ⟨"A", "C", "C", .direct, false⟩ ∈ (ofReport x {}).arrows := by
    decide +kernel
  obtain ⟨x, hmem, ⟨e, he, hi, hj, ht, hw⟩, ⟨f, hf, hk, hr⟩, ha⟩ := hreport
  refine ⟨x, Report.verify_of_mem_toOption hmem, e, he, hw, ⟨f, hf, hk, _, hr, ?_⟩, _, ha, ?_, rfl⟩
  · simp [hi, hj]
  · exact ⟨by rw [hi]; rfl, by rw [hj]; rfl, ht.symm, hw.symm⟩

end Export.Diagram

end Injection
