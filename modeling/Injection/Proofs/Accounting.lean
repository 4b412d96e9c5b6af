import Injection.Proofs.Registering

/-! Every dependency is accounted for. Inside its wrappers it is ignored, unresolved or resolved. An
unresolved one has its entry in the graph and a resolved one has an edge to each candidate that is
not external, and there is nothing else in the graph. What is reported as missing are the unresolved
entries, once for each service and target, unless they ask for collections. -/
namespace Injection

/-! ## Wrappers -/

namespace Wrapping

/-- What wrappings inside each other come to: a collection wins, then a deferred value. -/
def overall (ws : List Wrapping) : Wrapping :=
  if .collection ∈ ws then .collection else if .deferred ∈ ws then .deferred else .direct

theorem overall_singleton (w : Wrapping) : overall [w] = w := by cases w <;> rfl

theorem overall_combine (w k : Wrapping) (ws : List Wrapping) :
    overall (w.combine k :: ws) = overall (w :: k :: ws) := by
  cases w <;> cases k <;> simp [overall, combine]

end Wrapping

namespace Options
variable {o : Options} {s t : Signature} {ws : List Wrapping}

/-- The first signature is the second one inside wrappers of the listed sorts, from the outside in,
and the second one is not a wrapper itself. A name that is listed as both wraps a deferred value. -/
inductive Wraps (o : Options) : Signature → List Wrapping → Signature → Prop
  | bare {s : Signature} (hd : o.isDeferredWrapper s = false)
      (hc : o.isCollectionWrapper s = false) : Wraps o s [] s
  | deferred {head : String} {a t : Signature} {ws : List Wrapping}
      (hd : o.isDeferredWrapper (.app head [a])) (inside : Wraps o a ws t) :
      Wraps o (.app head [a]) (.deferred :: ws) t
  | collection {head : String} {a t : Signature} {ws : List Wrapping}
      (hd : o.isDeferredWrapper (.app head [a]) = false)
      (hc : o.isCollectionWrapper (.app head [a])) (inside : Wraps o a ws t) :
      Wraps o (.app head [a]) (.collection :: ws) t

theorem Wraps.not_wrapper (h : o.Wraps s ws t) :
    o.isDeferredWrapper t = false ∧ o.isCollectionWrapper t = false := by
  induction h with
  | bare hd hc => exact ⟨hd, hc⟩
  | deferred _ _ ih => exact ih
  | collection _ _ _ ih => exact ih

theorem isDeferredWrapper_app (head : String) (a : Signature) :
    o.isDeferredWrapper (.app head [a]) = isListed o.deferredWrappers head := rfl

theorem isCollectionWrapper_app (head : String) (a : Signature) :
    o.isCollectionWrapper (.app head [a]) = isListed o.collectionWrappers head := rfl

theorem unwrap_bare (hd : o.isDeferredWrapper s = false) (hc : o.isCollectionWrapper s = false)
    (w : Wrapping) : o.unwrap w s = (s, w) := by
  unfold unwrap
  split
  next head a =>
    rw [isDeferredWrapper_app] at hd
    rw [isCollectionWrapper_app] at hc
    simp [hd, hc]
  · rfl

theorem Wraps.unwrap_eq (h : o.Wraps s ws t) (w : Wrapping) :
    o.unwrap w s = (t, Wrapping.overall (w :: ws)) := by
  induction h generalizing w with
  | bare hd hc => rw [unwrap_bare hd hc, Wrapping.overall_singleton]
  | deferred hd _ ih =>
    rw [isDeferredWrapper_app] at hd
    rw [unwrap, if_pos hd, ih, Wrapping.overall_combine]
  | collection hd hc _ ih =>
    rw [isDeferredWrapper_app] at hd
    rw [isCollectionWrapper_app] at hc
    rw [unwrap, if_neg (by simp [hd]), if_pos hc, ih, Wrapping.overall_combine]

theorem exists_wraps (o : Options) (s : Signature) : ∃ ws t, o.Wraps s ws t := by
  induction Wrapping.direct, s using unwrap.induct o with
  | case1 w head a hd ih =>
    obtain ⟨ws, t, hws⟩ := ih
    exact ⟨_, t, .deferred hd hws⟩
  | case2 w head a hd hc ih =>
    obtain ⟨ws, t, hws⟩ := ih
    exact ⟨_, t, .collection (Bool.eq_false_iff.mpr hd) hc hws⟩
  | case3 w head a hd hc =>
    exact ⟨[], _, .bare (Bool.eq_false_iff.mpr hd) (Bool.eq_false_iff.mpr hc)⟩
  | case4 w s hs =>
    have harity : s.arity ≠ 1 := by
      intro hone
      cases s with
      | app head args =>
        obtain ⟨a, rfl⟩ := List.length_eq_one_iff.mp hone
        exact hs head a rfl
      | named name => cases hone
      | param name => cases hone
      | hole index => cases hone
    exact ⟨[], s, .bare (by simp [isDeferredWrapper, harity])
      (by simp [isCollectionWrapper, harity])⟩

theorem isSupplied_iff : o.isSupplied t ↔ (∃ name, t = .param name) ∨ o.isFrameworkType t := by
  cases t <;> simp [isSupplied]

end Options

/-- The dependency asks for `t`, inside wrappers that come to `w` with its own wrapping. -/
def Dependency.Asks (o : Options) (d : Dependency) (t : Signature) (w : Wrapping) : Prop :=
  ∃ ws, o.Wraps d.target ws t ∧ w = Wrapping.overall (d.wrapping :: ws)

theorem Dependency.asks_iff {o : Options} {d : Dependency} {t : Signature} {w : Wrapping} :
    d.Asks o t w ↔
      t = (o.unwrap d.wrapping d.target).1 ∧ w = (o.unwrap d.wrapping d.target).2 := by
  constructor
  · rintro ⟨ws, hws, rfl⟩
    rw [hws.unwrap_eq]
    exact ⟨rfl, rfl⟩
  · rintro ⟨rfl, rfl⟩
    obtain ⟨ws, t, hws⟩ := o.exists_wraps d.target
    rw [hws.unwrap_eq]
    exact ⟨ws, hws, rfl⟩

/-! ## What becomes of a dependency -/

inductive Outcome where
  | ignored
  | unresolved
  | resolved (found : Match)
  deriving DecidableEq, Repr

namespace Registry
variable {r : Registry} {o : Options} {t : Signature} {x : Outcome}

/-- What becomes of a dependency on an unwrapped target. Type parameters and framework types are
ignored, all else is looked up. -/
inductive Settles (r : Registry) (o : Options) (t : Signature) : Outcome → Prop
  | ignored (h : (∃ name, t = .param name) ∨ o.isFrameworkType t) : Settles r o t .ignored
  | unresolved (h : ¬ ((∃ name, t = .param name) ∨ o.isFrameworkType t))
      (hr : r.resolve t = .ok none) : Settles r o t .unresolved
  | resolved {found : Match} (h : ¬ ((∃ name, t = .param name) ∨ o.isFrameworkType t))
      (hr : r.resolve t = .ok (some found)) : Settles r o t (.resolved found)

/-- The outcome that a lookup has. -/
def outcomeOf : Option Match → Outcome
  | none => .unresolved
  | some found => .resolved found

def outcome (r : Registry) (o : Options) (t : Signature) : Except Fault Outcome :=
  if o.isSupplied t then .ok .ignored else (r.resolve t).map outcomeOf

theorem settles_iff : r.Settles o t x ↔ r.outcome o t = .ok x := by
  constructor
  · intro h
    cases h with
    | ignored h => rw [outcome, if_pos (Options.isSupplied_iff.mpr h)]
    | unresolved h hr =>
      rw [outcome, if_neg (Options.isSupplied_iff.not.mpr h), hr]
      rfl
    | resolved h hr =>
      rw [outcome, if_neg (Options.isSupplied_iff.not.mpr h), hr]
      rfl
  · intro h
    unfold outcome at h
    split at h
    next hs =>
      cases h
      exact .ignored (Options.isSupplied_iff.mp hs)
    next hs =>
      obtain ⟨m, hr, rfl⟩ := except_map_eq_ok.mp h
      cases m with
      | none => exact .unresolved (Options.isSupplied_iff.not.mp hs) hr
      | some found => exact .resolved (Options.isSupplied_iff.not.mp hs) hr

theorem exists_outcome (h : ∀ t, ∃ m, r.resolve t = .ok m) (t : Signature) :
    ∃ x, r.outcome o t = .ok x := by
  obtain ⟨m, hm⟩ := h t
  rw [outcome, hm]
  by_cases hs : o.isSupplied t
  · exact ⟨.ignored, if_pos hs⟩
  · exact ⟨outcomeOf m, if_neg hs⟩

instance : Decidable (r.Settles o t x) := decidable_of_iff _ settles_iff.symm

theorem settles_outcomeOf_iff {m : Option Match} :
    r.Settles o t (outcomeOf m) ↔ o.isSupplied t = false ∧ r.resolve t = .ok m := by
  rw [← Bool.not_eq_true, Options.isSupplied_iff]
  constructor
  · intro h
    cases m with
    | none =>
      cases h with
      | unresolved h hr => exact ⟨h, hr⟩
    | some found =>
      cases h with
      | resolved h hr => exact ⟨h, hr⟩
  · rintro ⟨h, hr⟩
    cases m with
    | none => exact .unresolved h hr
    | some found => exact .resolved h hr

theorem isExternal_eq_false_iff {fuel : Nat} {fallback : Fallback} {services : List Service}
    {c : Catalogue} (hbuild : build fuel fallback services c = some r) {i : Identity} :
    r.isExternal i = false ↔ ∀ p ∈ services, p.identity = i → p.isExternal = false := by
  obtain ⟨plain, -, rfl⟩ := Option.map_eq_some_iff.mp hbuild
  rw [isExternal, decide_eq_false_iff_not, List.mem_map]
  constructor
  · intro h p hp hid
    by_contra hx
    exact h ⟨p, List.mem_filter.mpr ⟨hp, Bool.eq_true_of_not_eq_false hx⟩, hid⟩
  · rintro h ⟨p, hp, hid⟩
    obtain ⟨hp, hx⟩ := List.mem_filter.mp hp
    exact Bool.false_ne_true ((h p hp hid).symm.trans hx)

end Registry

/-- The dependency asks for `t`, wrapped as `w`, and that is what becomes of it. -/
structure Dependency.Becomes (r : Registry) (o : Options) (d : Dependency) (t : Signature)
    (w : Wrapping) (x : Outcome) : Prop where
  asks : d.Asks o t w
  settles : r.Settles o t x

namespace Dependency
variable {r : Registry} {o : Options} {d : Dependency} {t : Signature} {w : Wrapping}

theorem becomes_iff {x : Outcome} :
    d.Becomes r o t w x ↔ t = (o.unwrap d.wrapping d.target).1 ∧
      w = (o.unwrap d.wrapping d.target).2 ∧ r.Settles o t x := by
  rw [← and_assoc, ← asks_iff]
  exact ⟨fun h => ⟨h.asks, h.settles⟩, fun h => ⟨h.1, h.2⟩⟩

instance {x : Outcome} : Decidable (d.Becomes r o t w x) := decidable_of_iff _ becomes_iff.symm

theorem existsUnique_becomes (h : ∀ t, ∃ m, r.resolve t = .ok m) (d : Dependency) :
    ∃! y : Signature × Wrapping × Outcome, d.Becomes r o y.1 y.2.1 y.2.2 := by
  obtain ⟨x, hx⟩ := Registry.exists_outcome h (o := o) (o.unwrap d.wrapping d.target).1
  refine ⟨(_, _, x), becomes_iff.mpr ⟨rfl, rfl, Registry.settles_iff.mpr hx⟩, ?_⟩
  rintro ⟨t, w, x'⟩ hy
  obtain ⟨ht, hw, hx'⟩ := becomes_iff.mp hy
  rw [Registry.settles_iff, ht, hx, Except.ok.injEq] at hx'
  exact Prod.ext ht (Prod.ext hw hx'.symm)

end Dependency

/-! ## The graph -/

/-- The entry says that nothing was found for the dependency of the service. -/
structure Unresolved.StandsFor (r : Registry) (o : Options) (u : Unresolved) (s : Service)
    (d : Dependency) : Prop where
  consumer : u.consumer = s.identity
  location : u.location = d.location
  becomes : d.Becomes r o u.target u.wrapping .unresolved

/-- The edge leads to one of the candidates that were found for the dependency of the service. -/
structure Edge.StandsFor (r : Registry) (o : Options) (services : List Service) (e : Edge)
    (s : Service) (d : Dependency) : Prop where
  consumer : e.consumer = s.identity
  location : e.location = d.location
  becomes : ∃ found, d.Becomes r o e.target e.wrapping (.resolved found) ∧
    e.stage = found.stage ∧ e.provider ∈ found.candidates
  internal : ∀ p ∈ services, p.identity = e.provider → p.isExternal = false

instance (r : Registry) (o : Options) (u : Unresolved) (s : Service) (d : Dependency) :
    Decidable (u.StandsFor r o s d) :=
  decidable_of_iff (u.consumer = s.identity ∧ u.location = d.location ∧
      d.Becomes r o u.target u.wrapping .unresolved)
    ⟨fun h => ⟨h.1, h.2.1, h.2.2⟩, fun h => ⟨h.consumer, h.location, h.becomes⟩⟩

/-- The dependencies of the services that are not external, with their consumers. -/
def usesOf (services : List Service) : List (Service × Dependency) :=
  (services.filter fun s => !s.isExternal).flatMap fun s => s.dependencies.map fun d => (s, d)

theorem mem_usesOf {services : List Service} {s : Service} {d : Dependency} :
    (s, d) ∈ usesOf services ↔ s ∈ services ∧ s.isExternal = false ∧ d ∈ s.dependencies := by
  simp [usesOf, and_assoc]

/-- The graph holds what the dependencies of the services come to, and nothing else. -/
structure Graph.Accounts (r : Registry) (o : Options) (services : List Service) (g : Graph) :
    Prop where
  /-- Every dependency has one target, one wrapping and one outcome. -/
  settled : ∀ s d, (s, d) ∈ usesOf services →
    ∃! y : Signature × Wrapping × Outcome, d.Becomes r o y.1 y.2.1 y.2.2
  /-- Every unresolved dependency has an entry of its own. -/
  unresolved : ∀ u, g.unresolved.count u =
    (usesOf services).countP fun p => u.StandsFor r o p.1 p.2
  edges : ∀ e, e ∈ g.edges ↔ ∃ s d, (s, d) ∈ usesOf services ∧ e.StandsFor r o services s d
  nodup : g.edges.Nodup
  unwrapped : ∀ t, ((∃ e ∈ g.edges, e.target = t) ∨ ∃ u ∈ g.unresolved, u.target = t) →
    o.isCollectionWrapper t = false ∧ o.isDeferredWrapper t = false

namespace Links
variable {r : Registry} {o : Options}

/-- The entry of a dependency for which nothing is found. -/
def unmet? (r : Registry) (o : Options) (i : Identity) (d : Dependency) : Option Unresolved :=
  if r.Settles o (o.unwrap d.wrapping d.target).1 .unresolved then
    some ⟨i, (o.unwrap d.wrapping d.target).1, (o.unwrap d.wrapping d.target).2, d.location⟩
  else none

theorem unmet?_eq_some_iff {s : Service} {d : Dependency} {u : Unresolved} :
    unmet? r o s.identity d = some u ↔ u.StandsFor r o s d := by
  rw [unmet?, Option.ite_none_right_eq_some, Option.some.injEq]
  constructor
  · rintro ⟨hs, rfl⟩
    exact ⟨rfl, rfl, Dependency.becomes_iff.mpr ⟨rfl, rfl, hs⟩⟩
  · rintro ⟨hi, hl, hb⟩
    obtain ⟨ht, hw, hs⟩ := Dependency.becomes_iff.mp hb
    rw [← ht, ← hw, ← hi, ← hl]
    exact ⟨hs, rfl⟩

theorem unresolved_ofDependency {i : Identity} {d : Dependency} {links : Links}
    (h : ofDependency r o i d = .ok links) : links.unresolved = (unmet? r o i d).toList := by
  simp only [unmet?, show Outcome.unresolved = Registry.outcomeOf none from rfl,
    Registry.settles_outcomeOf_iff]
  unfold ofDependency at h
  dsimp only at h
  split at h
  next hs =>
    cases h
    simp [hs]
  next hs =>
    split at h
    · cases h
    next hn =>
      cases h
      simp [hs, hn]
    next found hf =>
      cases h
      simp [hf]

theorem unresolved_ofService {s : Service} {links : Links} (h : ofService r o s = .ok links) :
    links.unresolved = s.dependencies.filterMap (unmet? r o s.identity) := by
  obtain ⟨parts, hp, -, hu⟩ := ofService_eq_ok h
  rw [hu]
  clear hu h
  generalize s.dependencies = ds at hp ⊢
  induction hp with
  | nil => rfl
  | @cons d part ds parts hd _ ih =>
    rw [List.flatMap_cons, ih, unresolved_ofDependency hd, List.filterMap_cons]
    cases unmet? r o s.identity d <;> rfl

theorem resolves_iff {fuel : Nat} {fallback : Fallback} {services : List Service} {c : Catalogue}
    (hbuild : Registry.build fuel fallback services c = some r) {s : Service} {d : Dependency}
    {e : Edge} : Resolves r o s.identity d e ↔ e.StandsFor r o services s d := by
  unfold Resolves
  constructor
  · rintro ⟨hs, found, hr, c, hc, hx, rfl⟩
    have hsettles := Registry.settles_outcomeOf_iff.mpr ⟨hs, hr⟩
    exact ⟨rfl, rfl, ⟨found, Dependency.becomes_iff.mpr ⟨rfl, rfl, hsettles⟩, rfl, hc⟩,
      (Registry.isExternal_eq_false_iff hbuild).mp hx⟩
  · rintro ⟨hi, hl, ⟨found, hb, hstage, hc⟩, hx⟩
    obtain ⟨ht, hw, hsettles⟩ := Dependency.becomes_iff.mp hb
    obtain ⟨hs, hr⟩ := (Registry.settles_outcomeOf_iff (m := some found)).mp hsettles
    rw [← ht, ← hw]
    refine ⟨hs, found, hr, e.provider, hc, (Registry.isExternal_eq_false_iff hbuild).mpr hx, ?_⟩
    rw [← hi, ← hl, ← hstage]

theorem nodup_edges_ofService {s : Service} {links : Links} (h : ofService r o s = .ok links) :
    links.edges.Nodup := by
  obtain ⟨parts, -, he, -⟩ := ofService_eq_ok h
  rw [he]
  exact nodup_eraseDups _

end Links

namespace Graph
variable {r : Registry} {o : Options} {services : List Service}

theorem unresolved_ofAll (hl : ∀ s, ∃ links, Links.ofService r o s = .ok links) :
    (ofAll r o services).unresolved =
      services.flatMap fun s => s.dependencies.filterMap (Links.unmet? r o s.identity) := by
  induction services using List.reverseRecOn with
  | nil => rfl
  | append_singleton services s ih =>
    obtain ⟨links, hs⟩ := hl s
    rw [ofAll_concat, hs, List.flatMap_append, ← ih, List.flatMap_singleton,
      ← Links.unresolved_ofService hs]
    rfl

theorem unresolved_build (hl : ∀ s, ∃ links, Links.ofService r o s = .ok links) :
    (build r o services).unresolved =
      (usesOf services).filterMap fun p => Links.unmet? r o p.1.identity p.2 := by
  rw [build_eq_ofAll, unresolved_ofAll hl, usesOf, List.filterMap_flatMap]
  simp only [List.filterMap_map, Function.comp_def]

theorem count_unresolved_build (hl : ∀ s, ∃ links, Links.ofService r o s = .ok links)
    (u : Unresolved) :
    (build r o services).unresolved.count u =
      (usesOf services).countP fun p => u.StandsFor r o p.1 p.2 := by
  rw [unresolved_build hl, List.count_filterMap]
  refine List.countP_congr fun p _ => ?_
  rw [beq_iff_eq, decide_eq_true_eq, Links.unmet?_eq_some_iff]

section Distinct
variable (hd : (services.map Service.identity).Nodup)
include hd

theorem nodup_internal :
    ((services.filter fun s => !s.isExternal).map Service.identity).Nodup :=
  hd.sublist (List.filter_sublist.map _)

theorem mem_edges_build (hl : ∀ s, ∃ links, Links.ofService r o s = .ok links) {e : Edge} :
    e ∈ (build r o services).edges ↔
      ∃ s d, (s, d) ∈ usesOf services ∧ Links.Resolves r o s.identity d e := by
  rw [mem_edges, build_eq_ofAll, nodes_ofAll]
  simp only [mem_edgesFrom_ofAll (nodup_internal hd), mem_usesOf]
  constructor
  · rintro ⟨i, -, s, hs, -, links, hlinks, he⟩
    obtain ⟨hs, hx⟩ := List.mem_filter.mp hs
    obtain ⟨d, hd, hr⟩ := (Links.mem_edges_ofService hlinks).mp he
    exact ⟨s, d, ⟨hs, by simpa using hx, hd⟩, hr⟩
  · rintro ⟨s, d, ⟨hs, hx, hd⟩, hr⟩
    have hs : s ∈ services.filter fun s => !s.isExternal := by simp [hs, hx]
    obtain ⟨links, hlinks⟩ := hl s
    exact ⟨s.identity, List.mem_map_of_mem hs, s, hs, rfl, links, hlinks,
      (Links.mem_edges_ofService hlinks).mpr ⟨d, hd, hr⟩⟩

theorem nodup_edges_build (hl : ∀ s, ∃ links, Links.ofService r o s = .ok links) :
    (build r o services).edges.Nodup := by
  have hconsistent := consistent_build r o services
  have hnodes : (build r o services).nodes.Nodup := by
    rw [build_eq_ofAll, nodes_ofAll]
    exact nodup_internal hd
  refine List.nodup_flatMap.mpr ⟨fun i hi => ?_, hnodes.imp fun hne => ?_⟩
  · rw [build_eq_ofAll, nodes_ofAll] at hi
    obtain ⟨s, hs, rfl⟩ := List.mem_map.mp hi
    obtain ⟨links, hlinks⟩ := hl s
    rw [build_eq_ofAll, edgesFrom_ofAll (nodup_internal hd) hs hlinks]
    exact Links.nodup_edges_ofService hlinks
  -- An edge under two nodes would have both as its consumer.
  · intro e he he'
    exact hne ((hconsistent.consumer_eq he).symm.trans (hconsistent.consumer_eq he'))

end Distinct

/-- Where every lookup has an answer, the graph accounts for all dependencies. -/
theorem accounts_build {fuel : Nat} {fallback : Fallback} {a : Snapshot}
    (hanswers : fallback.Answers)
    (hbuild : Registry.build fuel fallback a.services a.catalogue = some r)
    (hd : (a.services.map Service.identity).Nodup) (o : Options) :
    (build r o a.services).Accounts r o a.services := by
  have hlinks := Report.exists_links hanswers hbuild o
  have hedges : ∀ e, e ∈ (build r o a.services).edges ↔
      ∃ s d, (s, d) ∈ usesOf a.services ∧ e.StandsFor r o a.services s d := by
    intro e
    rw [mem_edges_build hd hlinks]
    simp only [Links.resolves_iff hbuild]
  refine ⟨fun s d _ => ?_, count_unresolved_build hlinks, hedges, nodup_edges_build hd hlinks, ?_⟩
  · exact d.existsUnique_becomes fun t => (Registry.resolves_of_answers hanswers hbuild t).1
  · rintro t (⟨e, he, rfl⟩ | ⟨u, hu, rfl⟩)
    · obtain ⟨s, d, -, hstands⟩ := (hedges e).mp he
      obtain ⟨found, ⟨⟨ws, hws, -⟩, -⟩, -⟩ := hstands.becomes
      exact hws.not_wrapper.symm
    · rw [← List.count_pos_iff, count_unresolved_build hlinks, List.countP_pos_iff] at hu
      obtain ⟨p, -, hstands⟩ := hu
      obtain ⟨⟨ws, hws, -⟩, -⟩ := (of_decide_eq_true hstands).becomes
      exact hws.not_wrapper.symm

end Graph

/-! ## Reports of what is missing -/

/-- Each guess is a type that one of the given contracts belongs to. -/
def Fallback.Picks (f : Fallback) : Prop :=
  ∃ guess : Signature → List (Signature × Identity) → List Identity,
    (f = fun t cs => .ok (guess t cs)) ∧ ∀ t cs, ∀ i ∈ guess t cs, ∃ c, (c, i) ∈ cs

theorem Report.picks_builtIn (o : Options) : (chooseFallback o none).Picks := by
  unfold chooseFallback
  split
  · refine ⟨Table.ofShape, rfl, fun t cs i hi => ?_⟩
    obtain ⟨c, hc, -⟩ := Table.mem_ofShape.mp hi
    exact ⟨c, hc⟩
  · exact ⟨fun _ _ => [], rfl, by simp⟩

/-- A lookup that finds something finds at least one type, and only types of the table. -/
theorem Table.provider_of_lookup {providers : List Provider} {f : Fallback} (hf : f.Picks)
    {t : Signature} {m : Match} (h : (ofProviders providers).lookup f t = .ok (some m)) :
    m.candidates ≠ [] ∧ ∀ i ∈ m.candidates, ∃ q ∈ providers, q.identity = i := by
  obtain ⟨guess, rfl, hguess⟩ := hf
  have hlisted : ∀ key, ∀ i ∈ (ofProviders providers).index.get key,
      ∃ q ∈ providers, q.identity = i := by
    intro key i hi
    obtain ⟨q, hq, hid, -⟩ := exists_of_mem_get hi
    exact ⟨q, hq, hid⟩
  rw [lookup_eq, Except.ok.injEq] at h
  split at h
  next hexact =>
    cases h
    exact ⟨hexact, hlisted _⟩
  split at h
  next hnormal =>
    cases h
    exact ⟨hnormal.2, hlisted _⟩
  split at h
  next hflat =>
    cases h
    exact ⟨hflat.2, hlisted _⟩
  split at h
  next hguessed =>
    cases h
    refine ⟨hguessed.2, fun i hi => ?_⟩
    obtain ⟨c, hc⟩ := hguess _ _ i hi
    obtain ⟨q, hq, hid, -⟩ := mem_openContracts.mp hc
    exact ⟨q, hq, hid⟩
  · cases h

/-- A plain class, one that is not a service, is found for the target. -/
def Registry.FindsPlain (r : Registry) (c : Catalogue) (t : Signature) : Prop :=
  ∃ e ∈ c.entries, e.isService = false ∧ e.kind = .concrete ∧
    ∃ m, r.resolveUnregistered t = .ok (some m) ∧ e.identity ∈ m.candidates

theorem Registry.findsPlain_iff {r : Registry} {fuel : Nat} {f : Fallback}
    {services : List Service} {c : Catalogue} (hf : f.Picks)
    (hbuild : build fuel f services c = some r) {t : Signature} :
    r.FindsPlain c t ↔ ∃ m, r.resolveUnregistered t = .ok (some m) := by
  obtain ⟨plain, hplain, rfl⟩ := Option.map_eq_some_iff.mp hbuild
  constructor
  · rintro ⟨e, -, -, -, m, hm, -⟩
    exact ⟨m, hm⟩
  · rintro ⟨m, hm⟩
    obtain ⟨hne, hproviders⟩ := Table.provider_of_lookup hf hm
    obtain ⟨i, hi⟩ := List.exists_mem_of_ne_nil _ hne
    obtain ⟨q, hq, rfl⟩ := hproviders i hi
    obtain ⟨e, he, hcontracts⟩ := exists_of_forall₂_right (mapM_eq_some_iff.mp hplain) hq
    obtain ⟨contracts, -, rfl⟩ := Option.map_eq_some_iff.mp hcontracts
    obtain ⟨he, hplain⟩ := List.mem_filter.mp he
    rw [Bool.and_eq_true_iff, Bool.not_eq_true', decide_eq_true_eq] at hplain
    exact ⟨e, he, hplain.1, hplain.2, m, hm, hi⟩

/-- The service has a dependency on the target that is unresolved and asks for no collection. -/
def Graph.Lacks (g : Graph) (i : Identity) (t : Signature) : Prop :=
  ∃ u ∈ g.unresolved, u.consumer = i ∧ u.target = t ∧ u.wrapping ≠ .collection

instance (g : Graph) (i : Identity) (t : Signature) : Decidable (g.Lacks i t) :=
  inferInstanceAs (Decidable (∃ u ∈ g.unresolved,
    u.consumer = i ∧ u.target = t ∧ u.wrapping ≠ .collection))

namespace Check
variable {r : Registry} {g : Graph} {res : List Finding}

/-- The kind of the report on a missing service, given the plain classes that were found. -/
def missingKind : Option Match → Kind
  | none => .noImplementation
  | some _ => .implementationUnregistered

theorem problem_unresolved {u : Unresolved} {m : Option Match} {f : Finding}
    (hm : r.resolveUnregistered u.target = .ok m) (h : unresolved r u = .ok f) :
    f.problem = (missingKind m, u.consumer, .contract u.target) := by
  cases m with
  | none =>
    simp only [unresolved, hm, Except.ok.injEq] at h
    rw [← h]
    rfl
  | some found =>
    simp only [unresolved, hm, Except.ok.injEq] at h
    rw [← h]
    rfl

theorem mem_problems_resolution (h : resolution r g = .ok res) {k : Kind} {i : Identity}
    {t : Signature} {m : Option Match} (hm : r.resolveUnregistered t = .ok m) :
    (k, i, .contract t) ∈ Finding.problems res ↔ g.Lacks i t ∧ k = missingKind m := by
  have hall := mapM_eq_ok_iff.mp h
  constructor
  · intro hmem
    obtain ⟨f, hf, hp⟩ := Finding.mem_problems.mp hmem
    obtain ⟨u, hu, hok⟩ := exists_of_forall₂_right hall hf
    obtain ⟨hu, hstrong⟩ := List.mem_filter.mp hu
    obtain ⟨k', -, hp'⟩ := problem_of_unresolved hok
    simp only [hp, Prod.mk.injEq, Related.contract.injEq] at hp'
    obtain ⟨-, rfl, rfl⟩ := hp'
    rw [problem_unresolved hm hok, Prod.mk.injEq] at hp
    exact ⟨⟨u, hu, rfl, rfl, of_decide_eq_true hstrong⟩, hp.1.symm⟩
  · rintro ⟨⟨u, hu, rfl, rfl, hstrong⟩, rfl⟩
    obtain ⟨f, hf, hok⟩ :=
      exists_of_forall₂_left hall (List.mem_filter.mpr ⟨hu, decide_eq_true hstrong⟩)
    exact Finding.mem_problems.mpr ⟨f, hf, problem_unresolved hm hok⟩

end Check

namespace Report
open Finding

/-- How often the two kinds of reports on a missing service are made on a service and a target:
that nothing implements the target, and that only plain classes do. -/
def missingCounts (x : Report) (i : Identity) (t : Signature) : Nat × Nat :=
  ((problems x.findings).count (.noImplementation, i, .contract t),
    (problems x.findings).count (.implementationUnregistered, i, .contract t))

theorem count_missing {o : Options} {a : Snapshot} {r : Registry} {res : List Finding}
    (ha : OnlyMalformed a) (hres : Check.resolution r (Graph.build r o a.services) = .ok res)
    (hreporting : o.reporting) {k : Kind} (hk : k.IsMissing) (henabled : o.isDisabled k = false)
    {i : Identity} {t : Signature} {m : Option Match} (hm : r.resolveUnregistered t = .ok m) :
    (problems (assemble o a r res).findings).count (k, i, .contract t) =
      if (assemble o a r res).graph.Lacks i t ∧ k = Check.missingKind m then 1 else 0 := by
  have hmem : (k, i, .contract t) ∈ problems (assemble o a r res).findings ↔
      (assemble o a r res).graph.Lacks i t ∧ k = Check.missingKind m := by
    rw [mem_problems_missing ha hres hk, Check.mem_problems_resolution hres hm]
    simp only [hreporting, henabled, true_and]
    exact Iff.rfl
  have hnodup : (problems (assemble o a r res).findings).Nodup := nodup_problems_merge _ _ _
  rw [hnodup.count]
  exact if_congr hmem rfl rfl

/-- With a built-in fallback there is a report as soon as the contracts of all classes are found.
Its graph accounts for every dependency. A service and a target that it lacks are reported once, as
unregistered if a plain class is found for the target and as not implemented if none is, and no
other pair is reported in either way. -/
theorem dependencies_accounted_for (fuel : Nat) (o : Options) (fs : List Fragment) :
    (Snapshot.ContractsFound fuel fs →
      ∃ a r x, Snapshot.collect fuel fs = some a ∧
        Registry.build fuel (chooseFallback o none) a.services a.catalogue = some r ∧
        verify fuel o none fs = .ok x ∧ x.graph.Accounts r o a.services ∧
        (o.reporting → o.isDisabled .noImplementation = false →
          o.isDisabled .implementationUnregistered = false → ∀ (i : Identity) (t : Signature),
            (x.graph.Lacks i t → ¬ r.FindsPlain a.catalogue t → x.missingCounts i t = (1, 0)) ∧
            (x.graph.Lacks i t → r.FindsPlain a.catalogue t → x.missingCounts i t = (0, 1)) ∧
            (¬ x.graph.Lacks i t → x.missingCounts i t = (0, 0)))) ∧
    (¬ Snapshot.ContractsFound fuel fs → verify fuel o none fs = .error .outOfFuel) := by
  refine ⟨fun hfound => ?_, fun hlost => verify_eq_outOfFuel hlost o none⟩
  obtain ⟨a, r, ha, hbuild, -, hreport⟩ := verify_of_contractsFound hfound o none
  obtain ⟨res, hres⟩ := exists_resolution (answers_builtIn o) hbuild (Graph.build r o a.services)
  have haccounts := Graph.accounts_build (answers_builtIn o) hbuild (Snapshot.nodup_services ha) o
  refine ⟨a, r, _, ha, hbuild, hreport res hres, haccounts, ?_⟩
  intro hreporting hmissing hunregistered i t
  obtain ⟨m, hm⟩ := (Registry.resolves_of_answers (answers_builtIn o) hbuild t).2
  have hmalformed : OnlyMalformed a := fun _ => Snapshot.kind_of_collect ha
  have hcounts : (assemble o a r res).missingCounts i t =
      (if (assemble o a r res).graph.Lacks i t ∧ .noImplementation = Check.missingKind m
        then 1 else 0,
      if (assemble o a r res).graph.Lacks i t ∧
        .implementationUnregistered = Check.missingKind m then 1 else 0) := by
    rw [missingCounts, count_missing hmalformed hres hreporting (.inl rfl) hmissing hm,
      count_missing hmalformed hres hreporting (.inr rfl) hunregistered hm]
  rw [hcounts, Registry.findsPlain_iff (picks_builtIn o) hbuild, hm]
  cases m with
  | none =>
    refine ⟨fun hlacks _ => ?_, fun _ hplain => ?_, fun hlacks => ?_⟩
    · simp [hlacks, Check.missingKind]
    · simp at hplain
    · simp [hlacks]
  | some found =>
    refine ⟨fun _ hplain => ?_, fun hlacks _ => ?_, fun hlacks => ?_⟩
    · simp at hplain
    · simp [hlacks, Check.missingKind]
    · simp [hlacks]

/-- A shop that asks for a clock twice, for mailers that may be missing, for an audit that only a
plain class implements, and for a store. One of the stores is external. -/
def shopFragments : List Fragment :=
  [{ name := "Shop", lifetime := some .perScope,
     requests := [{ target := "IClock", style := .field "clock" },
       { target := "Lazy<IClock>", style := .list 0 },
       { target := "List<Lazy<IMailer>>", style := .list 0 },
       { target := "IAudit", style := .list 0 },
       { target := "Lazy<IStore>", style := .field "store" },
       { target := "ILogger<Shop>", style := .field "log" }] },
   { name := "FileAudit", contracts := ["IAudit"] },
   { name := "SqlStore", contracts := ["IStore"], lifetime := some .perScope },
   { name := "RemoteStore", contracts := ["IStore"], isExternal := true }]

/-- One name is listed as a wrapper of both sorts. -/
def overlapping : Options :=
  { collectionWrappers := ["Lazy", "List"], deferredWrappers := ["Lazy"] }

theorem dependencies_accounted_for_shop :
    Snapshot.ContractsFound 9 shopFragments ∧
      ∃ a r x, Snapshot.collect 9 shopFragments = some a ∧
        Registry.build 9 (chooseFallback overlapping none) a.services a.catalogue = some r ∧
        verify 9 overlapping none shopFragments = .ok x ∧
        x.graph.Accounts r overlapping a.services ∧
        x.graph.unresolved =
          [⟨⟨"Shop", 0⟩, .named "IClock", .direct, none⟩,
           ⟨⟨"Shop", 0⟩, .named "IClock", .deferred, none⟩,
           ⟨⟨"Shop", 0⟩, .named "IMailer", .collection, none⟩,
           ⟨⟨"Shop", 0⟩, .named "IAudit", .direct, none⟩] ∧
        x.graph.edges =
          [⟨⟨"Shop", 0⟩, ⟨"SqlStore", 0⟩, .named "IStore", .deferred, .exact, none⟩] ∧
        x.missingCounts ⟨"Shop", 0⟩ (.named "IClock") = (1, 0) ∧
        x.missingCounts ⟨"Shop", 0⟩ (.named "IAudit") = (0, 1) ∧
        x.missingCounts ⟨"Shop", 0⟩ (.named "IMailer") = (0, 0) := by
  have hfound : Snapshot.ContractsFound 9 shopFragments := by decide +kernel
  obtain ⟨a, r, x, ha, hbuild, hx, haccounts, hreported⟩ :=
    (dependencies_accounted_for 9 overlapping shopFragments).1 hfound
  have hgraph : (verify 9 overlapping none shopFragments).toOption.map
        (fun x => (x.graph.unresolved, x.graph.edges)) =
      some ([⟨⟨"Shop", 0⟩, .named "IClock", .direct, none⟩,
          ⟨⟨"Shop", 0⟩, .named "IClock", .deferred, none⟩,
          ⟨⟨"Shop", 0⟩, .named "IMailer", .collection, none⟩,
          ⟨⟨"Shop", 0⟩, .named "IAudit", .direct, none⟩],
        [⟨⟨"Shop", 0⟩, ⟨"SqlStore", 0⟩, .named "IStore", .deferred, .exact, none⟩]) := by
    decide +kernel
  simp only [hx, Except.toOption, Option.map_some, Option.some.injEq, Prod.mk.injEq] at hgraph
  have hplain : ∀ a ∈ Snapshot.collect 9 shopFragments,
      ∀ r ∈ Registry.build 9 (chooseFallback overlapping none) a.services a.catalogue,
        r.resolveUnregistered (.named "IClock") = .ok none ∧
        r.resolveUnregistered (.named "IAudit") = .ok (some ⟨.exact, [⟨"FileAudit", 0⟩]⟩) := by
    decide +kernel
  obtain ⟨hclock, haudit⟩ := hplain a ha r hbuild
  have hcounts := hreported rfl (by decide) (by decide) ⟨"Shop", 0⟩
  have hfinds := fun t => Registry.findsPlain_iff (picks_builtIn overlapping) hbuild (t := t)
  refine ⟨hfound, a, r, x, ha, hbuild, hx, haccounts, hgraph.1, hgraph.2, ?_, ?_, ?_⟩
  · refine (hcounts (.named "IClock")).1 ?_ ?_
    · rw [Graph.Lacks, hgraph.1]
      decide
    · rw [hfinds, hclock]
      simp
  · refine (hcounts (.named "IAudit")).2.1 ?_ ?_
    · rw [Graph.Lacks, hgraph.1]
      decide
    · exact (hfinds _).mpr ⟨_, haudit⟩
  · refine (hcounts (.named "IMailer")).2.2 ?_
    rw [Graph.Lacks, hgraph.1]
    decide

end Report

end Injection
