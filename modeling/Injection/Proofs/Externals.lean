import Injection.Proofs.EntryPoints

/-! External services. They are resolved like all others but take no part in the analysis: marking a
service as external takes it out of the graph, together with the edges to it and what it left
unresolved, and changes nothing else. No cycle and no finding of the analysis is about an external
service. -/
namespace Injection

/-! ## Marking a service as external -/

def Service.asExternal (s : Service) : Service := { s with isExternal := true }

/-- The second registry resolves as the first one does, but in it the service `i` is external. -/
structure Registry.Marks (i : Identity) (r r' : Registry) : Prop where
  registered : r'.registered = r.registered
  fallback : r'.fallback = r.fallback
  isExternal : ∀ j, r'.isExternal j = (decide (j = i) || r.isExternal j)

def Links.without (i : Identity) (links : Links) : Links :=
  { links with edges := links.edges.filter fun e => e.provider ≠ i }

/-- The second graph lacks the node `i`, the edges from it and to it and what it left unresolved. -/
structure Graph.Without (i : Identity) (g g' : Graph) : Prop where
  nodes : g'.nodes = g.nodes.filter fun j => j ≠ i
  own : g'.edgesFrom i = []
  edges : ∀ j, j ≠ i → g'.edgesFrom j = (g.edgesFrom j).filter fun e => e.provider ≠ i
  unresolved : g'.unresolved = g.unresolved.filter fun u => u.consumer ≠ i

section Marking
variable {i : Identity} {r r' : Registry} {o : Options}

theorem Registry.Marks.resolve (h : Marks i r r') (t : Signature) : r'.resolve t = r.resolve t := by
  rw [Registry.resolve, Registry.resolve, h.registered, h.fallback]

theorem Registry.Marks.ofDependency (h : Marks i r r') (j : Identity) (d : Dependency) :
    Links.ofDependency r' o j d = (Links.ofDependency r o j d).map (Links.without i) := by
  unfold Links.ofDependency
  dsimp only
  rw [h.resolve]
  split
  · rfl
  cases r.resolve (o.unwrap d.wrapping d.target).1 with
  | error fault => rfl
  | ok m =>
    cases m with
    | none => rfl
    | some m =>
      have hcandidates : (m.candidates.filter fun c => !r'.isExternal c) =
          (m.candidates.filter fun c => !r.isExternal c).filter fun c => c ≠ i := by
        rw [List.filter_filter]
        refine List.filter_congr fun c _ => ?_
        rw [h.isExternal]
        simp
      simp only [Except.map, Links.without, List.filter_map, hcandidates]
      rfl

theorem Registry.Marks.ofService (h : Marks i r r') (s : Service) :
    Links.ofService r' o s = (Links.ofService r o s).map (Links.without i) := by
  have hdependency : Links.ofDependency r' o s.identity =
      fun d => (Links.ofDependency r o s.identity d).map (Links.without i) :=
    funext fun d => h.ofDependency s.identity d
  rw [Links.ofService, Links.ofService, hdependency, mapM_map]
  cases s.dependencies.mapM (Links.ofDependency r o s.identity) with
  | error fault => rfl
  | ok parts =>
    -- Edges may be left out before repetitions are removed or after.
    simp only [Except.map, Links.without, List.flatMap_map, ← eraseDups_filter,
      List.filter_flatMap]

theorem Links.consumer_of_unresolved {s : Service} {links : Links}
    (h : ofService r o s = .ok links) {u : Unresolved} (hu : u ∈ links.unresolved) :
    u.consumer = s.identity := by
  obtain ⟨d, -, -, -, rfl⟩ := (mem_unresolved_ofService h).mp hu
  rfl

namespace Graph.Without
variable {g g' : Graph}

/-- The service itself adds nothing that is not taken out again. -/
theorem skip (hg : Without i g g') {s : Service} (hs : s.identity = i) :
    Without i (g.add s.identity (Links.ofService r o s)) g' := by
  refine ⟨?_, hg.own, fun j hj => ?_, ?_⟩
  · rw [hg.nodes]
    cases Links.ofService r o s <;> simp [add, hs]
  · rw [hg.edges j hj, edgesFrom_add]
    cases Links.ofService r o s <;> simp [hs, hj]
  · rw [hg.unresolved]
    cases hl : Links.ofService r o s with
    | error fault => rfl
    | ok links =>
      have hown : links.unresolved.filter (fun u => u.consumer ≠ i) = [] := by
        refine List.filter_eq_nil_iff.mpr fun u hu => ?_
        simp [Links.consumer_of_unresolved hl hu, hs]
      rw [add, List.filter_append, hown, List.append_nil]

theorem add (h : Registry.Marks i r r') (hg : Without i g g') {s : Service} (hs : s.identity ≠ i) :
    Without i (g.add s.identity (Links.ofService r o s))
      (g'.add s.identity (Links.ofService r' o s)) := by
  rw [h.ofService]
  refine ⟨?_, ?_, fun j hj => ?_, ?_⟩
  · cases Links.ofService r o s <;> simp [Graph.add, Except.map, hs, hg.nodes]
  · rw [edgesFrom_add]
    cases Links.ofService r o s <;> simp [Except.map, Ne.symm hs, hg.own]
  · rw [edgesFrom_add, edgesFrom_add]
    cases Links.ofService r o s with
    | error fault => exact hg.edges j hj
    | ok links =>
      simp only [Except.map, Links.without, apply_ite (List.filter _), hg.edges j hj]
  · cases hl : Links.ofService r o s with
    | error fault => exact hg.unresolved
    | ok links =>
      have hown : links.unresolved.filter (fun u => u.consumer ≠ i) = links.unresolved := by
        refine List.filter_eq_self.mpr fun u hu => ?_
        simpa [Links.consumer_of_unresolved hl hu] using hs
      simp only [Graph.add, Except.map, Links.without, List.filter_append, hown, hg.unresolved]

end Graph.Without

theorem Graph.without_ofAll (h : Registry.Marks i r r') (services : List Service) :
    Without i (ofAll r o services) (ofAll r' o (services.filter fun s => s.identity ≠ i)) := by
  induction services using List.reverseRecOn with
  | nil => exact ⟨rfl, rfl, fun _ _ => rfl, rfl⟩
  | append_singleton services s ih =>
    rw [ofAll_concat, List.filter_append]
    by_cases hs : s.identity = i
    · rw [List.filter_cons_of_neg (by simpa using hs), List.filter_nil, List.append_nil]
      exact ih.skip hs
    · rw [List.filter_cons_of_pos (by simpa using hs), List.filter_nil, ofAll_concat]
      exact ih.add h hs

end Marking

section Services
variable {pre post : List Service} {d : Service} {fuel : Nat} {fallback : Fallback}
  {c : Catalogue} {r : Registry}

theorem Service.mem_externals_asExternal {j : Identity} :
    j ∈ ((pre ++ d.asExternal :: post).filter isExternal).map identity ↔
      j = d.identity ∨ j ∈ ((pre ++ d :: post).filter isExternal).map identity := by
  have hd : d.asExternal.isExternal = true := rfl
  rw [List.filter_append, List.filter_append, List.filter_cons_of_pos hd, List.filter_cons]
  simp only [List.map_append, List.mem_append, List.map_cons, List.mem_cons]
  split
  · rw [List.map_cons, List.mem_cons]
    tauto
  · tauto

theorem Registry.build_asExternal (h : build fuel fallback (pre ++ d :: post) c = some r) :
    ∃ r', build fuel fallback (pre ++ d.asExternal :: post) c = some r' ∧
      Marks d.identity r r' := by
  obtain ⟨plain, hplain, rfl⟩ := Option.map_eq_some_iff.mp h
  have hproviders : serviceProviders (pre ++ d.asExternal :: post) =
      serviceProviders (pre ++ d :: post) := by
    simp only [serviceProviders, List.map_append, List.map_cons]
    rfl
  refine ⟨_, Option.map_eq_some_iff.mpr ⟨plain, hplain, rfl⟩, ?_, rfl, fun j => ?_⟩
  · rw [hproviders]
  · simp only [Registry.isExternal, Service.mem_externals_asExternal, Bool.decide_or]

theorem Service.internal_asExternal (hd : ((pre ++ d :: post).map identity).Nodup) :
    (pre ++ d.asExternal :: post).filter (fun s => !s.isExternal) =
      ((pre ++ d :: post).filter fun s => !s.isExternal).filter
        fun s => s.identity ≠ d.identity := by
  have hother : ∀ s ∈ pre ++ post, s.identity ≠ d.identity := by
    intro s hs heq
    rw [List.map_append, List.map_cons, List.nodup_middle, List.nodup_cons, ← List.map_append] at hd
    exact hd.1 (List.mem_map.mpr ⟨s, hs, heq⟩)
  rw [List.filter_filter, List.filter_append, List.filter_append,
    List.filter_cons_of_neg (by simp [asExternal]), List.filter_cons_of_neg (by simp)]
  refine congrArg₂ _ (List.filter_congr fun s hs => ?_) (List.filter_congr fun s hs => ?_)
  · simp [hother s (List.mem_append_left _ hs)]
  · simp [hother s (List.mem_append_right _ hs)]

theorem Graph.build_asExternal (hd : ((pre ++ d :: post).map Service.identity).Nodup)
    {r' : Registry} (h : Registry.Marks d.identity r r') (o : Options) :
    Without d.identity (build r o (pre ++ d :: post))
      (build r' o (pre ++ d.asExternal :: post)) := by
  rw [build_eq_ofAll, build_eq_ofAll, Service.internal_asExternal hd]
  exact without_ofAll h _

end Services

/-! ## Findings on services that are not external -/

/-- The services to which a subject is related. -/
def Related.identities : Related → List Identity
  | identity i => [i]
  | cycle path => path
  | nothing | contract _ | text _ => []

/-- Neither the subject nor a service related to it is external. -/
structure Finding.Internal (r : Registry) (f : Finding) : Prop where
  subject : r.isExternal f.subject = false
  related : ∀ i ∈ f.related.identities, r.isExternal i = false

theorem Finding.Internal.of_problem_eq {r : Registry} {f f' : Finding} (h : f.Internal r)
    (heq : f.problem = f'.problem) : f'.Internal r := by
  obtain ⟨-, hsubject, hrelated⟩ : f.kind = f'.kind ∧ f.subject = f'.subject ∧
    f.related = f'.related := by simpa [problem] using heq
  exact ⟨hsubject ▸ h.subject, hrelated ▸ h.related⟩

theorem Graph.mem_nodes_of_mem_cycles {g : Graph} {path : List Identity} (h : path ∈ g.cycles)
    {i : Identity} (hi : i ∈ path) : i ∈ g.nodes := by
  have hsteps : i ∈ (cycleSteps path).map Prod.fst := by
    rw [cycleSteps_eq_zip_rotate, List.map_fst_zip (by simp)]
    exact hi
  obtain ⟨p, hp, rfl⟩ := List.mem_map.mp hsteps
  exact (mem_successorsIn.mp ((isCycle_of_mem_cycles h).linked p hp)).1

section Internal
variable {fuel : Nat} {fallback : Fallback} {services : List Service} {c : Catalogue}
  {r : Registry} {o : Options} {f : Finding}
  (hbuild : Registry.build fuel fallback services c = some r)
  (hd : (services.map Service.identity).Nodup)
include hbuild hd

theorem Graph.isExternal_node {i : Identity} (hi : i ∈ (build r o services).nodes) :
    r.isExternal i = false := by
  rw [build_eq_ofAll, nodes_ofAll] at hi
  obtain ⟨s, hs, rfl⟩ := List.mem_map.mp hi
  obtain ⟨hs, hx⟩ := List.mem_filter.mp hs
  simpa [Registry.isExternal_eq hbuild hd hs] using hx

omit hbuild in
theorem Graph.isExternal_provider {i : Identity} {e : Edge}
    (he : e ∈ (build r o services).edgesFrom i) : r.isExternal e.provider = false := by
  have hinternal : ((services.filter fun s => !s.isExternal).map Service.identity).Nodup :=
    hd.sublist (List.filter_sublist.map _)
  rw [build_eq_ofAll, mem_edgesFrom_ofAll hinternal] at he
  obtain ⟨s, -, -, links, hl, he⟩ := he
  obtain ⟨d, -, -, found, -, j, -, hx, rfl⟩ := (Links.mem_edges_ofService hl).mp he
  exact hx

namespace Check

theorem internal_resolution {found : List Finding}
    (h : resolution r (Graph.build r o services) = .ok found) (hf : f ∈ found) : f.Internal r := by
  obtain ⟨u, hu, hok⟩ := exists_of_forall₂_right (mapM_eq_ok_iff.mp h) hf
  rw [Graph.build_eq_ofAll] at hu
  obtain ⟨s, hs, links, hl, hu⟩ := Graph.mem_unresolved_ofAll.mp (List.mem_filter.mp hu).1
  obtain ⟨hs, hx⟩ := List.mem_filter.mp hs
  obtain ⟨k, -, hp⟩ := problem_of_unresolved hok
  obtain ⟨-, hsubject, hrelated⟩ : f.kind = k ∧ f.subject = u.consumer ∧
    f.related = .contract u.target := by simpa [Finding.problem] using hp
  refine ⟨?_, by simp [hrelated, Related.identities]⟩
  rw [hsubject, Links.consumer_of_unresolved hl hu, Registry.isExternal_eq hbuild hd hs]
  simpa using hx

theorem internal_cycles (hf : f ∈ cycles (Graph.build r o services)) : f.Internal r := by
  obtain ⟨path, hpath, hf⟩ := List.mem_flatMap.mp hf
  have hnodes : ∀ i ∈ path, r.isExternal i = false := fun i hi =>
    Graph.isExternal_node hbuild hd (Graph.mem_nodes_of_mem_cycles hpath hi)
  cases path with
  | nil => simp [cycle] at hf
  | cons first rest =>
    rw [cycle, List.mem_singleton] at hf
    rw [hf]
    exact ⟨hnodes first List.mem_cons_self, hnodes⟩

end Check

end Internal

namespace Check
variable {r : Registry} {o : Options} {services : List Service} {c : Catalogue} {f : Finding}
  {s : Service} (hs : r.isExternal s.identity = false)
include hs

theorem internal_background (hf : f ∈ background s) : f.Internal r := by
  simp only [background, List.mem_ite_nil_right, List.mem_singleton] at hf
  rw [hf.2]
  exact ⟨hs, by simp [Finding.report, Related.identities]⟩

theorem internal_captive {i : Identity} {location : Option Location} {inherited : Bool}
    (hi : r.isExternal i = false) (hf : captive r s i location inherited = some f) :
    f.Internal r := by
  obtain ⟨k, -, hp⟩ := problem_of_captive hf
  obtain ⟨-, hsubject, hrelated⟩ : f.kind = k ∧ f.subject = s.identity ∧ f.related = .identity i :=
    by simpa [Finding.problem] using hp
  refine ⟨by rw [hsubject, hs], fun j hj => ?_⟩
  rw [hrelated] at hj
  rwa [List.mem_singleton.mp hj]

theorem internal_inheritedLifetime {i : Identity} (hi : r.isExternal i = false)
    (hf : f ∈ inheritedLifetime r s i) : f.Internal r := by
  unfold inheritedLifetime at hf
  split at hf
  · simp only [List.mem_ite_nil_left, List.mem_singleton] at hf
    rw [hf.2]
    exact ⟨hs, fun j hj => by rwa [List.mem_singleton.mp hj]⟩
  · simp at hf

omit hs in
theorem mem_of_mem_countedEdges {guessed : List Signature} {es : List Edge} {e : Edge}
    (h : e ∈ countedEdges guessed es) : e ∈ es := by
  rcases mem_countedEdges.mp h with ⟨he, -⟩ | ⟨-, he⟩
  · exact he
  · exact List.mem_of_find?_eq_some he

theorem internal_serviceLifetimes {found : List Finding}
    (hd : (services.map Service.identity).Nodup)
    (h : serviceLifetimes r o services c (Graph.build r o services) s = .ok found)
    (hf : f ∈ found) : f.Internal r := by
  cases cause_of_serviceLifetimes h hf with
  | background hf => exact internal_background hs hf
  | own he hf =>
    exact internal_captive hs (Graph.isExternal_provider hd (mem_of_mem_countedEdges he)) hf
  | base _ hx hf => exact internal_inheritedLifetime hs hx hf
  | inherited _ _ _ hcs hi hf =>
    obtain ⟨-, -, -, -, hx, -⟩ := (mem_inheritedCandidates hcs).mp hi
    exact internal_captive hs hx hf

omit hs in
theorem internal_lifetimes {fuel : Nat} {fallback : Fallback}
    (hbuild : Registry.build fuel fallback services c = some r)
    (hd : (services.map Service.identity).Nodup)
    (hf : f ∈ lifetimes r o services c (Graph.build r o services)) : f.Internal r := by
  obtain ⟨-, s, hs, hx, hcase⟩ := mem_lifetimes.mp hf
  have hsx : r.isExternal s.identity = false := (Registry.isExternal_eq hbuild hd hs).trans hx
  rcases hcase with ⟨found, hfound, hf⟩ | ⟨fault, -, rfl⟩
  · exact internal_serviceLifetimes hsx hd hfound hf
  · exact ⟨hsx, by simp [Fault.finding, Finding.report, Related.identities]⟩

end Check

/-! ## Reports -/

/-- The kinds of problems that are found by following dependencies and ancestors. -/
def Kind.ofAnalysis : List Kind :=
  [.noImplementation, .implementationUnregistered, .circularDependency, .singletonOnScoped,
   .singletonOnTransient, .backgroundLifetime, .inheritedLifetime]

namespace Report
open Finding
variable {fuel : Nat} {o : Options} {a : Snapshot} {r : Registry} {res : List Finding}
  {i : Identity}

def External (x : Report) (i : Identity) : Prop :=
  ∃ s ∈ x.services, s.isExternal ∧ s.identity = i

/-- External services have no part in the analysis. -/
structure ExternalsLeftOut (x : Report) : Prop where
  cycles : ∀ path ∈ x.graph.cycles, ∀ i ∈ path, ¬ x.External i
  subjects : ∀ f ∈ x.findings, f.kind ∈ Kind.ofAnalysis → ¬ x.External f.subject
  related : ∀ f ∈ x.findings, f.kind ∈ Kind.ofAnalysis →
    ∀ i ∈ f.related.identities, ¬ x.External i

section Assemble
variable {fallback : Fallback}
  (hbuild : Registry.build fuel fallback a.services a.catalogue = some r)
  (hd : (a.services.map Service.identity).Nodup)
include hbuild hd

theorem not_external (h : r.isExternal i = false) : ¬ (assemble o a r res).External i := by
  rintro ⟨s, hs, hx, rfl⟩
  rw [Registry.isExternal_eq hbuild hd hs, hx] at h
  cases h

variable (ha : OnlyMalformed a)
  (hres : Check.resolution r (Graph.build r o a.services) = .ok res)
include ha hres

theorem internal_assemble {f : Finding} (hf : f ∈ (assemble o a r res).findings)
    (hk : f.kind ∈ Kind.ofAnalysis) : f.Internal r := by
  obtain ⟨-, -, phase, hmem⟩ := mem_problems_assemble.mp (mem_problems.mpr ⟨f, hf, rfl⟩)
  obtain ⟨f', hf', hp⟩ := mem_problems.mp hmem
  rw [show f.kind = f'.kind from (congrArg Prod.fst hp).symm] at hk
  have hkind := kind_of_phase ha hres hf'
  refine Internal.of_problem_eq (f := f') ?_ hp
  have hother : (∀ k ∈ phase.kinds, k ∉ Kind.ofAnalysis) → f'.Internal r :=
    fun hnone => absurd hk (hnone _ hkind)
  cases phase with
  | collect => exact hother (by decide)
  | registry => exact hother (by decide)
  | graph => exact hother (by decide)
  | rules =>
    rcases List.mem_append.mp hf' with hf' | hf'
    · exact Check.internal_resolution hbuild hd hres hf'
    · have hnone : ∀ k ∈ Kind.ofDeclarations, k ∉ Kind.ofAnalysis := by decide
      exact absurd hk (hnone _ (Check.kind_of_declarations hf'))
  | cycles => exact Check.internal_cycles hbuild hd hf'
  | lifetimes => exact Check.internal_lifetimes hbuild hd hf'
  | merge => exact hother (by decide)

theorem externalsLeftOut_assemble : (assemble o a r res).ExternalsLeftOut := by
  refine ⟨fun path hpath i hi => ?_, fun f hf hk => ?_, fun f hf hk i hi => ?_⟩
  · have hnode := Graph.mem_nodes_of_mem_cycles hpath hi
    exact not_external hbuild hd (Graph.isExternal_node hbuild hd hnode)
  · exact not_external hbuild hd (internal_assemble hbuild hd ha hres hf hk).subject
  · exact not_external hbuild hd ((internal_assemble hbuild hd ha hres hf hk).related i hi)

end Assemble

/-- Marking one of several distinct services as external changes neither the index nor what
signatures resolve to. In the graph it takes out the service, the edges to it and what it left
unresolved. The services can then be verified if the fallback never fails, and no report of a
verification, of services or of fragments, has a cycle or a finding of the analysis that is about an
external service. -/
theorem external_left_out (fuel : Nat) (o : Options) (pre post : List Service) (d : Service)
    (hd : ((pre ++ d :: post).map Service.identity).Nodup) :
    (∀ fallback c r, Registry.build fuel fallback (pre ++ d :: post) c = some r →
      ∃ r', Registry.build fuel fallback (pre ++ d.asExternal :: post) c = some r' ∧
        r'.index = r.index ∧ (∀ t, r'.resolve t = r.resolve t) ∧
        Graph.Without d.identity (Graph.build r o (pre ++ d :: post))
          (Graph.build r' o (pre ++ d.asExternal :: post))) ∧
    (∀ supplied : Option Fallback, (∀ f ∈ supplied, f.Answers) →
      ∃ x, verifyServices fuel o supplied (pre ++ d.asExternal :: post) = .ok x ∧
        x.ExternalsLeftOut) ∧
    ∀ supplied fs x, verify fuel o supplied fs = .ok x → x.ExternalsLeftOut := by
  refine ⟨fun fallback c r hbuild => ?_, fun supplied hanswers => ?_, fun supplied fs x hx => ?_⟩
  · obtain ⟨r', hbuild', hmarks⟩ := Registry.build_asExternal hbuild
    exact ⟨r', hbuild', congrArg Table.index hmarks.registered, hmarks.resolve,
      Graph.build_asExternal hd hmarks o⟩
  · have hd' : ((pre ++ d.asExternal :: post).map Service.identity).Nodup := by
      rw [List.map_append, List.map_cons] at hd ⊢
      exact hd
    obtain ⟨r, res, hbuild, hres, hx⟩ :=
      exists_ofSnapshot_of_answers (a := .ofServices (pre ++ d.asExternal :: post))
        (Registry.plainProviders_of_distinct hd' fuel) o hanswers
    have ha : OnlyMalformed (.ofServices (pre ++ d.asExternal :: post)) := by
      simp [OnlyMalformed, Snapshot.ofServices]
    exact ⟨_, hx, externalsLeftOut_assemble hbuild hd' ha hres⟩
  · obtain ⟨a, r, res, ha, hbuild, hres, rfl⟩ := verify_cases hx
    exact externalsLeftOut_assemble hbuild (Snapshot.nodup_services ha)
      (fun _ => Snapshot.kind_of_collect ha) hres

/-- Each service asks for the next one, and the gateway is a singleton. -/
def gateway : Service :=
  { identity := ⟨"Gateway", 0⟩, lifetime := .singleton, contracts := [.named "IGateway"],
    dependencies := [⟨.named "IQueue", .direct, .list 0, none⟩,
      ⟨.named "IWorker", .direct, .list 0, none⟩] }

def queue : Service :=
  { identity := ⟨"Queue", 0⟩, lifetime := .perScope, contracts := [.named "IQueue"],
    dependencies := [⟨.named "IWorker", .direct, .list 0, none⟩,
      ⟨.named "ILog", .direct, .list 0, none⟩] }

def worker : Service :=
  { identity := ⟨"Worker", 0⟩, lifetime := .perScope, contracts := [.named "IWorker"],
    dependencies := [⟨.named "IGateway", .direct, .list 0, none⟩,
      ⟨.named "IQueue", .direct, .list 0, none⟩] }

theorem external_left_out_queue :
    (([gateway] ++ queue :: [worker]).map Service.identity).Nodup ∧
      (∃ r r', Registry.build 0 .none ([gateway] ++ queue :: [worker])
          (.ofServices [gateway, queue, worker]) = some r ∧
        Registry.build 0 .none ([gateway] ++ queue.asExternal :: [worker])
          (.ofServices [gateway, queue, worker]) = some r' ∧
        r'.index = r.index ∧ (∀ t, r'.resolve t = r.resolve t) ∧
        Graph.Without queue.identity (Graph.build r {} ([gateway] ++ queue :: [worker]))
          (Graph.build r' {} ([gateway] ++ queue.asExternal :: [worker]))) ∧
      ∃ x, verifyServices 0 {} (some .sameShape) ([gateway] ++ queue.asExternal :: [worker]) =
          .ok x ∧
        x.ExternalsLeftOut ∧ x.External queue.identity ∧
        problems x.findings =
          [(.circularDependency, gateway.identity, .cycle [gateway.identity, worker.identity]),
           (.singletonOnScoped, gateway.identity, .identity worker.identity)] := by
  have hd : (([gateway] ++ queue :: [worker]).map Service.identity).Nodup := by decide
  obtain ⟨hbuild, hverify, -⟩ := external_left_out 0 {} [gateway] [worker] queue hd
  have hbuilt : (Registry.build 0 .none ([gateway] ++ queue :: [worker])
      (.ofServices [gateway, queue, worker])).isSome := by decide +kernel
  obtain ⟨r, hr⟩ := Option.isSome_iff_exists.mp hbuilt
  obtain ⟨r', hr', hsame⟩ := hbuild _ _ r hr
  obtain ⟨x, hx, hleft⟩ := hverify (some .sameShape) (by
    rintro f ⟨⟩
    exact Fallback.answers_sameShape)
  have hreport : ∀ x ∈ (verifyServices 0 {} (some .sameShape)
      ([gateway] ++ queue.asExternal :: [worker])).toOption,
      (∃ s ∈ x.services, s.isExternal ∧ s.identity = queue.identity) ∧ problems x.findings =
        [(.circularDependency, gateway.identity, .cycle [gateway.identity, worker.identity]),
         (.singletonOnScoped, gateway.identity, .identity worker.identity)] := by
    decide +kernel
  obtain ⟨hexternal, hproblems⟩ := hreport x (by rw [hx]; rfl)
  exact ⟨hd, ⟨r, r', hr, hr', hsame⟩, x, hx, hleft, hexternal, hproblems⟩

end Report

end Injection
