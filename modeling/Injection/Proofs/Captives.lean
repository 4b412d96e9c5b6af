import Injection.Proofs.Faults

/-! Captured dependencies. A singleton captures what it is given for its own dependencies and for
those of its ancestors. The former are read off the graph, the latter are resolved anew, and both
count the same candidates. -/
namespace Injection

namespace Fallback

/-- The fallback never fails. -/
def Answers (f : Fallback) : Prop :=
  ∃ guess : Signature → List (Signature × Identity) → List Identity,
    f = fun t cs => .ok (guess t cs)

theorem answers_none : none.Answers := ⟨_, rfl⟩

theorem answers_sameShape : sameShape.Answers := ⟨_, rfl⟩

end Fallback

namespace Registry

/-- The service is one of those that a dependency on the target is given: a candidate that is not
external, and the first of these if the candidates were only guessed. -/
def Counts (r : Registry) (o : Options) (target : Signature) (i : Identity) : Prop :=
  o.isSupplied (o.inner target) = false ∧
    ∃ found, r.resolve (o.inner target) = .ok (some found) ∧
      i ∈ found.candidates ∧ r.isExternal i = false ∧
      (found.stage = .fallback → found.candidates.find? (fun c => !r.isExternal c) = some i)

/-- The service is the first candidate for an unwrapped target that is not external, and all
candidates were guessed. -/
def Guessed (r : Registry) (o : Options) (t : Signature) (i : Identity) : Prop :=
  o.isSupplied t = false ∧ ∃ found, r.resolve t = .ok (some found) ∧ found.stage = .fallback ∧
    found.candidates.find? (fun c => !r.isExternal c) = some i

theorem Guessed.unique {r : Registry} {o : Options} {t : Signature} {i j : Identity}
    (hi : r.Guessed o t i) (hj : r.Guessed o t j) : i = j := by
  obtain ⟨-, found, hf, -, hi⟩ := hi
  obtain ⟨-, found', hf', -, hj⟩ := hj
  rw [hf, Except.ok.injEq, Option.some.injEq] at hf'
  rw [← hf', hi] at hj
  exact Option.some.inj hj

theorem Guessed.counts {r : Registry} {o : Options} {target : Signature} {i : Identity}
    (h : r.Guessed o (o.inner target) i) : r.Counts o target i := by
  obtain ⟨hsupplied, found, hf, -, hfirst⟩ := h
  exact ⟨hsupplied, found, hf, List.mem_of_find?_eq_some hfirst,
    by simpa using List.find?_some hfirst, fun _ => hfirst⟩

section Build
variable {fuel : Nat} {fallback : Fallback} {services : List Service} {c : Catalogue}
  {r : Registry}

theorem lifetime?_eq_some (hbuild : build fuel fallback services c = some r)
    (hd : (services.map Service.identity).Nodup) {i : Identity} {l : Lifetime} :
    r.lifetime? i = some l ↔ ∃ s ∈ services, s.identity = i ∧ s.lifetime = l := by
  obtain ⟨plain, -, rfl⟩ := Option.map_eq_some_iff.mp hbuild
  have hd' : (services.reverse.map Service.identity).Nodup := by
    rw [List.map_reverse]
    exact List.nodup_reverse.mpr hd
  rw [lifetime?, ← List.map_reverse, Sorted.lookup_map_eq_find?, Option.map_eq_some_iff]
  simp only [find?_eq_some_iff_of_nodup hd', List.mem_reverse, and_assoc]

theorem isExternal_eq (hbuild : build fuel fallback services c = some r)
    (hd : (services.map Service.identity).Nodup) {s : Service} (hs : s ∈ services) :
    r.isExternal s.identity = s.isExternal := by
  obtain ⟨plain, -, rfl⟩ := Option.map_eq_some_iff.mp hbuild
  rw [isExternal, Bool.eq_iff_iff, decide_eq_true_eq, List.mem_map]
  constructor
  · rintro ⟨t, ht, hid⟩
    obtain ⟨ht, hx⟩ := List.mem_filter.mp ht
    rwa [← List.inj_on_of_nodup_map hd ht hs hid]
  · intro hx
    exact ⟨s, List.mem_filter.mpr ⟨hs, hx⟩, rfl⟩

/-- A registry whose fallback always answers resolves everything without a fault. -/
theorem resolves_of_answers (hanswers : fallback.Answers)
    (hbuild : build fuel fallback services c = some r) (t : Signature) :
    (∃ m, r.resolve t = .ok m) ∧ ∃ m, r.resolveUnregistered t = .ok m := by
  obtain ⟨guess, rfl⟩ := hanswers
  obtain ⟨plain, -, rfl⟩ := Option.map_eq_some_iff.mp hbuild
  exact ⟨⟨_, Table.lookup_eq _ guess t⟩, ⟨_, Table.lookup_eq _ guess t⟩⟩

end Build

end Registry

namespace Check
variable {r : Registry} {o : Options} {s : Service} {i : Identity} {e : Edge}

/-! ## Own dependencies -/

/-- A guessed edge counts if it is the first one with its target. -/
theorem mem_countedEdges {guessed : List Signature} {es : List Edge} :
    e ∈ countedEdges guessed es ↔
      (e ∈ es ∧ e.stage ≠ .fallback) ∨
        (e.target ∉ guessed ∧
          es.find? (fun e' => e'.stage = .fallback ∧ e'.target = e.target) = some e) := by
  induction es generalizing guessed with
  | nil => simp [countedEdges]
  | cons e₀ es ih =>
    rw [countedEdges, List.find?_cons]
    by_cases hstage : e₀.stage = .fallback
    · by_cases hseen : e₀.target ∈ guessed
      · rw [if_pos hstage, if_pos hseen, ih]
        grind
      · rw [if_pos hstage, if_neg hseen, List.mem_cons, ih]
        grind
    · rw [if_neg hstage, List.mem_cons, ih]
      grind

/-- The first guessed edge with a target leads to the candidate that counts for it. -/
theorem find?_edges_ofDependency {j : Identity} {d : Dependency} {links : Links} {t : Signature}
    (h : Links.ofDependency r o j d = .ok links) :
    (links.edges.find? fun e => e.stage = .fallback ∧ e.target = t).map Edge.provider = some i ↔
      o.inner d.target = t ∧ r.Guessed o t i := by
  simp only [Links.ofDependency, o.unwrap_fst] at h
  unfold Registry.Guessed
  split at h
  next hs =>
    cases h
    simp only [List.find?_nil, Option.map_none, reduceCtorEq, false_iff]
    rintro ⟨rfl, hs', -⟩
    simp [hs'] at hs
  next hs =>
    split at h
    · cases h
    next hn =>
      cases h
      simp only [List.find?_nil, Option.map_none, reduceCtorEq, false_iff]
      rintro ⟨rfl, -, found, hf, -⟩
      simp [hn] at hf
    next found hf =>
      cases h
      by_cases hguess : found.stage = .fallback ∧ o.inner d.target = t
      · obtain ⟨hstage, rfl⟩ := hguess
        simp [List.find?_map, List.find?_filter, Function.comp_def, hstage, hf, hs]
      · have hnone : (found.candidates.filter fun c => !r.isExternal c).find?
            (fun _ => decide (found.stage = .fallback ∧ o.inner d.target = t)) = none := by
          simp [hguess]
        simp only [List.find?_map, Function.comp_def, hnone, Option.map_none, reduceCtorEq,
          false_iff]
        rintro ⟨rfl, -, found', hf', hstage, -⟩
        rw [hf, Except.ok.injEq, Option.some.injEq] at hf'
        exact hguess ⟨hf' ▸ hstage, rfl⟩

theorem find?_edges_ofService {links : Links} {t : Signature}
    (h : Links.ofService r o s = .ok links) :
    (links.edges.find? fun e => e.stage = .fallback ∧ e.target = t).map Edge.provider = some i ↔
      (∃ d ∈ s.dependencies, o.inner d.target = t) ∧ r.Guessed o t i := by
  obtain ⟨parts, hparts, hedges, -⟩ := Links.ofService_eq_ok h
  rw [hedges, find?_eraseDups, List.find?_flatMap]
  have hsound : ∀ e, (parts.findSome? fun part =>
      part.edges.find? fun e => e.stage = .fallback ∧ e.target = t) = some e →
        (∃ d ∈ s.dependencies, o.inner d.target = t) ∧ r.Guessed o t e.provider := by
    intro e he
    obtain ⟨part, hpart, hfind⟩ := List.exists_of_findSome?_eq_some he
    obtain ⟨d, hd, hok⟩ := exists_of_forall₂_right hparts hpart
    obtain ⟨ht, hguessed⟩ :=
      (find?_edges_ofDependency hok).mp (congrArg (Option.map Edge.provider) hfind)
    exact ⟨⟨d, hd, ht⟩, hguessed⟩
  constructor
  · intro hi
    obtain ⟨e, he, rfl⟩ := Option.map_eq_some_iff.mp hi
    exact hsound e he
  · rintro ⟨⟨d, hd, ht⟩, hguessed⟩
    obtain ⟨part, hpart, hok⟩ := exists_of_forall₂_left hparts hd
    have hown := (find?_edges_ofDependency hok).mpr ⟨ht, hguessed⟩
    -- Another dependency with the same target may come first, but it counts the same candidate.
    cases hsome : parts.findSome? fun part =>
        part.edges.find? fun e => e.stage = .fallback ∧ e.target = t with
    | none =>
      rw [List.findSome?_eq_none_iff.mp hsome part hpart] at hown
      cases hown
    | some e => rw [Option.map_some, (hsound e hsome).2.unique hguessed]

/-- What the counted edges of a service lead to is what counts for its dependencies. -/
theorem exists_countedEdge_iff {links : Links} (h : Links.ofService r o s = .ok links) :
    (∃ e ∈ countedEdges [] links.edges, e.provider = i) ↔
      ∃ d ∈ s.dependencies, r.Counts o d.target i := by
  constructor
  · rintro ⟨e, he, rfl⟩
    rcases mem_countedEdges.mp he with ⟨he, hstage⟩ | ⟨-, he⟩
    · obtain ⟨d, hd, hsupplied, found, hf, c, hc, hx, rfl⟩ :=
        (Links.mem_edges_ofService h).mp he
      rw [o.unwrap_fst] at hsupplied hf
      exact ⟨d, hd, hsupplied, found, hf, hc, hx, fun hguess => absurd hguess hstage⟩
    · obtain ⟨⟨d, hd, ht⟩, hguessed⟩ :=
        (find?_edges_ofService h).mp (congrArg (Option.map Edge.provider) he)
      rw [← ht] at hguessed
      exact ⟨d, hd, hguessed.counts⟩
  · rintro ⟨d, hd, hsupplied, found, hf, hc, hx, hcount⟩
    by_cases hstage : found.stage = .fallback
    · have hguessed : r.Guessed o (o.inner d.target) i :=
        ⟨hsupplied, found, hf, hstage, hcount hstage⟩
      have hfirst := (find?_edges_ofService h).mpr ⟨⟨d, hd, rfl⟩, hguessed⟩
      obtain ⟨e, he, hprovider⟩ := Option.map_eq_some_iff.mp hfirst
      have htarget : e.stage = .fallback ∧ e.target = o.inner d.target := by
        simpa using List.find?_some he
      rw [← htarget.2] at he
      exact ⟨e, mem_countedEdges.mpr (.inr ⟨by simp, he⟩), hprovider⟩
    · refine ⟨⟨s.identity, i, (o.unwrap d.wrapping d.target).1, (o.unwrap d.wrapping d.target).2,
        found.stage, d.location⟩, mem_countedEdges.mpr (.inl ⟨?_, hstage⟩), rfl⟩
      rw [← o.unwrap_fst d.wrapping] at hsupplied hf
      exact (Links.mem_edges_ofService h).mpr ⟨d, hd, hsupplied, found, hf, i, hc, hx, rfl⟩

/-! ## Inherited dependencies -/

theorem mem_inheritedCandidates {σ : Signature.Bindings} {d : Dependency} {cs : List Identity}
    (h : inheritedCandidates r o σ d = .ok cs) : i ∈ cs ↔ r.Counts o (d.target.subst σ) i := by
  simp only [inheritedCandidates, o.unwrap_fst] at h
  unfold Registry.Counts
  split at h
  next hs =>
    cases h
    simp [hs]
  next hs =>
    split at h
    · cases h
    next hn =>
      cases h
      simp [hn]
    next found hf =>
      cases h
      simp only [hs, hf, true_and, Except.ok.injEq, Option.some.injEq, exists_eq_left']
      split
      next hstage =>
        rw [List.take_one, List.head?_filter, Option.mem_toList]
        constructor
        · intro hcount
          exact ⟨List.mem_of_find?_eq_some hcount, by simpa using List.find?_some hcount,
            fun _ => hcount⟩
        · rintro ⟨-, -, hcount⟩
          exact hcount hstage
      next hstage => simp [hstage]

/-! ## Findings -/

/-- How a singleton's hold on a service of the given lifetime is reported. -/
def captureKind (inherited : Bool) : Lifetime → Option Kind
  | .perScope => some .singletonOnScoped
  | .transient => if inherited then none else some .singletonOnTransient
  | .singleton => none

theorem captureKind_eq_scoped {inherited : Bool} {l : Lifetime} :
    captureKind inherited l = some .singletonOnScoped ↔ l = .perScope := by
  cases l <;> cases inherited <;> simp [captureKind]

theorem captureKind_eq_transient {inherited : Bool} {l : Lifetime} :
    captureKind inherited l = some .singletonOnTransient ↔ l = .transient ∧ inherited = false := by
  cases l <;> cases inherited <;> simp [captureKind]

theorem problem_captive (hs : s.lifetime = .singleton) (location : Option Location)
    (inherited : Bool) :
    (captive r s i location inherited).map Finding.problem =
      ((r.lifetime? i).bind (captureKind inherited)).map fun k =>
        (k, s.identity, .identity i) := by
  unfold captive
  rw [hs]
  cases r.lifetime? i with
  | none => rfl
  | some l => cases l <;> cases inherited <;> rfl

theorem mem_problems_captives {α : Type} {xs : List α} {provider : α → Identity}
    {location : α → Option Location} {inherited : Bool} {k : Kind} {d : Identity}
    (hs : s.lifetime = .singleton) :
    (k, d, .identity i) ∈ Finding.problems
        (xs.filterMap fun x => captive r s (provider x) (location x) inherited) ↔
      d = s.identity ∧ (r.lifetime? i).bind (captureKind inherited) = some k ∧
        ∃ x ∈ xs, provider x = i := by
  simp only [Finding.problems, List.map_filterMap, List.mem_filterMap, problem_captive hs,
    Option.map_eq_some_iff, Prod.mk.injEq, Related.identity.injEq]
  constructor
  · rintro ⟨x, hx, k', hk, rfl, rfl, rfl⟩
    exact ⟨rfl, hk, x, hx, rfl⟩
  · rintro ⟨rfl, hk, x, hx, rfl⟩
    exact ⟨x, hx, k, hk, rfl, rfl, rfl⟩

section Singleton
variable {services : List Service} {c : Catalogue} {g : Graph} {found : List Finding} {k : Kind}
  {d : Identity}

theorem mem_problems_inheritedCaptives {σ : Signature.Bindings} {dep : Dependency}
    (hs : s.lifetime = .singleton) (h : inheritedCaptives r o s σ dep = .ok found) :
    (k, d, .identity i) ∈ Finding.problems found ↔
      d = s.identity ∧ (r.lifetime? i).bind (captureKind true) = some k ∧
        r.Counts o (dep.target.subst σ) i := by
  obtain ⟨candidates, hcs, rfl⟩ := except_map_eq_ok.mp h
  rw [mem_problems_captives hs]
  simp [← mem_inheritedCandidates hcs]

/-- The ancestor hands down a dependency for which the service counts. -/
def HandsDown (r : Registry) (o : Options) (services : List Service) (x : Ancestor)
    (i : Identity) : Prop :=
  r.isExternal x.entry.identity = false ∧
    ∃ dep ∈ ((serviceAt? services x.entry.identity).map Service.dependencies).getD [],
      r.Counts o (dep.target.subst x.bindings) i

theorem mem_problems_ancestor {x : Ancestor} (hs : s.lifetime = .singleton) (hk : k.IsCapture)
    (h : ancestor r o services s x = .ok found) :
    (k, d, .identity i) ∈ Finding.problems found ↔
      d = s.identity ∧ (r.lifetime? i).bind (captureKind true) = some k ∧
        HandsDown r o services x i := by
  unfold HandsDown
  unfold ancestor at h
  dsimp only at h
  split at h
  next hx =>
    cases h
    simp [hx]
  next hx =>
    obtain ⟨captives, hc, rfl⟩ := except_map_eq_ok.mp h
    have hne : k ≠ .inheritedLifetime := by rcases hk with rfl | rfl <;> simp
    have hlifetime : (k, d, .identity i) ∉
        Finding.problems (inheritedLifetime r s x.entry.identity) :=
      Finding.not_mem_problems_of_kind (fun _ hf => kind_of_inheritedLifetime hf) hne d _
    rw [Finding.problems_append, List.mem_append, or_iff_right hlifetime,
      Finding.mem_problems_flatten]
    have hcaptives := (Matched.of_forall₂ (mapM_eq_ok_iff.mp hc)).exists_iff fun dep fs hdep =>
      (mem_problems_inheritedCaptives (i := i) (k := k) (d := d) hs hdep).symm
    rw [← hcaptives]
    simp only [hx, true_and]
    constructor
    · rintro ⟨dep, hdep, hd, hk, hcount⟩
      exact ⟨hd, hk, dep, hdep, hcount⟩
    · rintro ⟨hd, hk, dep, hdep, hcount⟩
      exact ⟨dep, hdep, hd, hk, hcount⟩

theorem mem_problems_serviceLifetimes (hs : s.lifetime = .singleton) (hk : k.IsCapture)
    (h : serviceLifetimes r o services c g s = .ok found) :
    (k, d, .identity i) ∈ Finding.problems found ↔
      d = s.identity ∧
        (((r.lifetime? i).bind (captureKind false) = some k ∧
            ∃ e ∈ countedEdges [] (g.edgesFrom s.identity), e.provider = i) ∨
          ((r.lifetime? i).bind (captureKind true) = some k ∧
            ∃ x ∈ c.ancestors s.identity, HandsDown r o services x i)) := by
  rw [serviceLifetimes, if_pos hs] at h
  obtain ⟨inherited, hi, rfl⟩ := except_map_eq_ok.mp h
  have hne : k ≠ .backgroundLifetime := by rcases hk with rfl | rfl <;> simp
  have hbackground : (k, d, .identity i) ∉ Finding.problems (background s) :=
    Finding.not_mem_problems_of_kind (fun _ hf => kind_of_background hf) hne d _
  have hinherited := (Matched.of_forall₂ (mapM_eq_ok_iff.mp hi)).exists_iff fun x fs hx =>
    (mem_problems_ancestor (i := i) (d := d) hs hk hx).symm
  rw [Finding.problems_append, Finding.problems_append, List.mem_append, List.mem_append,
    or_iff_right hbackground, ownCaptives, mem_problems_captives hs, Finding.mem_problems_flatten,
    ← hinherited]
  constructor
  · rintro (⟨hd, hkind, e, he, hp⟩ | ⟨x, hx, hd, hkind, hdown⟩)
    · exact ⟨hd, .inl ⟨hkind, e, he, hp⟩⟩
    · exact ⟨hd, .inr ⟨hkind, x, hx, hdown⟩⟩
  · rintro ⟨hd, ⟨hkind, e, he, hp⟩ | ⟨hkind, x, hx, hdown⟩⟩
    · exact .inl ⟨hd, hkind, e, he, hp⟩
    · exact .inr ⟨x, hx, hd, hkind, hdown⟩

theorem mem_problems_lifetimes (hcheck : o.checkLifetimes)
    (hok : ∀ s, ∃ found, serviceLifetimes r o services c g s = .ok found) (hk : k.IsCapture) :
    (k, d, .identity i) ∈ Finding.problems (lifetimes r o services c g) ↔
      ∃ s ∈ services, s.isExternal = false ∧ s.lifetime = .singleton ∧ s.identity = d ∧
        (((r.lifetime? i).bind (captureKind false) = some k ∧
            ∃ e ∈ countedEdges [] (g.edgesFrom s.identity), e.provider = i) ∨
          ((r.lifetime? i).bind (captureKind true) = some k ∧
            ∃ x ∈ c.ancestors s.identity, HandsDown r o services x i)) := by
  have hne : k ≠ .backgroundLifetime := by rcases hk with rfl | rfl <;> simp
  constructor
  · intro hmem
    obtain ⟨f, hf, hp⟩ := Finding.mem_problems.mp hmem
    obtain ⟨-, s, hs, hx, hcase⟩ := mem_lifetimes.mp hf
    obtain ⟨found, hfound⟩ := hok s
    simp only [hfound, Except.ok.injEq, exists_eq_left', reduceCtorEq, false_and, exists_false,
      or_false] at hcase
    have hmem' := Finding.mem_problems.mpr ⟨f, hcase, hp⟩
    by_cases hsingle : s.lifetime = .singleton
    · obtain ⟨rfl, hholds⟩ := (mem_problems_serviceLifetimes hsingle hk hfound).mp hmem'
      exact ⟨s, hs, hx, hsingle, rfl, hholds⟩
    · rw [serviceLifetimes, if_neg hsingle] at hfound
      cases hfound
      exact absurd hmem'
        (Finding.not_mem_problems_of_kind (fun _ hf => kind_of_background hf) hne d _)
  · rintro ⟨s, hs, hx, hsingle, rfl, hholds⟩
    obtain ⟨found, hfound⟩ := hok s
    have hmem := (mem_problems_serviceLifetimes hsingle hk hfound).mpr ⟨rfl, hholds⟩
    obtain ⟨f, hf, hp⟩ := Finding.mem_problems.mp hmem
    exact Finding.mem_problems.mpr
      ⟨f, mem_lifetimes.mpr ⟨hcheck, s, hs, hx, .inl ⟨found, hfound, hf⟩⟩, hp⟩

/-- The dependencies that an ancestor hands down are those of the service it is, unless that one is
external. -/
theorem mem_handedDown {fuel : Nat} {fallback : Fallback} {x : Ancestor} {dep : Dependency}
    (hbuild : Registry.build fuel fallback services c = some r)
    (hd : (services.map Service.identity).Nodup) :
    (r.isExternal x.entry.identity = false ∧
      dep ∈ ((serviceAt? services x.entry.identity).map Service.dependencies).getD []) ↔
      ∃ b ∈ services, b.identity = x.entry.identity ∧ b.isExternal = false ∧
        dep ∈ b.dependencies := by
  have hd' : (services.reverse.map Service.identity).Nodup := by
    rw [List.map_reverse]
    exact List.nodup_reverse.mpr hd
  have hat : ∀ b, serviceAt? services x.entry.identity = some b ↔
      b ∈ services ∧ b.identity = x.entry.identity := by
    intro b
    rw [serviceAt?, find?_eq_some_iff_of_nodup hd', List.mem_reverse]
  constructor
  · rintro ⟨hx, hdep⟩
    cases hb : serviceAt? services x.entry.identity with
    | none => simp [hb] at hdep
    | some b =>
      obtain ⟨hmem, hid⟩ := (hat b).mp hb
      rw [← hid, Registry.isExternal_eq hbuild hd hmem] at hx
      exact ⟨b, hmem, hid, hx, by simpa [hb] using hdep⟩
  · rintro ⟨b, hmem, hid, hx, hdep⟩
    constructor
    · rw [← hid, Registry.isExternal_eq hbuild hd hmem, hx]
    · rw [(hat b).mpr ⟨hmem, hid⟩]
      exact hdep

theorem handsDown_iff {fuel : Nat} {fallback : Fallback} {x : Ancestor}
    (hbuild : Registry.build fuel fallback services c = some r)
    (hd : (services.map Service.identity).Nodup) :
    HandsDown r o services x i ↔ ∃ b ∈ services, b.identity = x.entry.identity ∧
      b.isExternal = false ∧
        ∃ dep ∈ b.dependencies, r.Counts o (dep.target.subst x.bindings) i := by
  constructor
  · rintro ⟨hx, dep, hdep, hcount⟩
    obtain ⟨b, hb, hid, hx, hdep⟩ := (mem_handedDown hbuild hd).mp ⟨hx, hdep⟩
    exact ⟨b, hb, hid, hx, dep, hdep, hcount⟩
  · rintro ⟨b, hb, hid, hx, dep, hdep, hcount⟩
    obtain ⟨hx, hdep⟩ := (mem_handedDown hbuild hd).mpr ⟨b, hb, hid, hx, hdep⟩
    exact ⟨hx, dep, hdep, hcount⟩

end Singleton

end Check

namespace Report
open Finding Check
variable {fuel : Nat} {o : Options} {supplied : Option Fallback} {a : Snapshot} {r : Registry}
  {res : List Finding}

/-- The service `i` counts for a dependency that `s` declares itself. -/
def HoldsOwn (r : Registry) (o : Options) (s : Service) (i : Identity) : Prop :=
  ∃ dep ∈ s.dependencies, r.Counts o dep.target i

/-- The service `i` counts for a dependency of an ancestor of `s` that is itself a service and not
external, at the types that `s` gives to the ancestor's parameters. -/
def HoldsInherited (r : Registry) (o : Options) (a : Snapshot) (s : Service) (i : Identity) :
    Prop :=
  ∃ x ∈ a.catalogue.ancestors s.identity, ∃ b ∈ a.services, b.identity = x.entry.identity ∧
    b.isExternal = false ∧ ∃ dep ∈ b.dependencies, r.Counts o (dep.target.subst x.bindings) i

/-- `s` is the service `d`, a singleton and not external, and the service `i` has the given
lifetime. -/
def Mismatched (a : Snapshot) (l : Lifetime) (s : Service) (d i : Identity) : Prop :=
  s.identity = d ∧ s.isExternal = false ∧ s.lifetime = .singleton ∧
    ∃ t ∈ a.services, t.identity = i ∧ t.lifetime = l

/-- A scoped service is captured by the singleton or through one of its ancestors. -/
def CapturesScoped (r : Registry) (o : Options) (a : Snapshot) (d i : Identity) : Prop :=
  ∃ s ∈ a.services, Mismatched a .perScope s d i ∧ (HoldsOwn r o s i ∨ HoldsInherited r o a s i)

/-- A transient service is captured by the singleton itself. -/
def CapturesTransient (r : Registry) (o : Options) (a : Snapshot) (d i : Identity) : Prop :=
  ∃ s ∈ a.services, Mismatched a .transient s d i ∧ HoldsOwn r o s i

theorem answers_chooseFallback (o : Options) (h : ∀ f ∈ supplied, f.Answers) :
    (chooseFallback o supplied).Answers := by
  unfold chooseFallback
  split
  · cases supplied with
    | none => exact Fallback.answers_sameShape
    | some f => exact h f rfl
  · exact Fallback.answers_none

/-- Captured dependencies are found by the check of lifetimes only. -/
theorem phase_of_isCapture {k : Kind} (hk : k.IsCapture) {phase : Phase} (h : k ∈ phase.kinds) :
    phase = .lifetimes := by
  rcases hk with rfl | rfl <;> exact Phase.eq_of_mem_kinds (by decide) h (by decide)

theorem mem_problems_capture {fs : List Fragment} (ha : Snapshot.collect fuel fs = some a)
    (hres : Check.resolution r (Graph.build r o a.services) = .ok res) {k : Kind}
    (hk : k.IsCapture) (hreporting : o.reporting) (henabled : o.isDisabled k = false)
    {d : Identity} {related : Related} :
    (k, d, related) ∈ problems (assemble o a r res).findings ↔
      (k, d, related) ∈ problems
        (Check.lifetimes r o a.services a.catalogue (Graph.build r o a.services)) :=
  mem_problems_enabled (fun _ => Snapshot.kind_of_collect ha) hres hreporting henabled
    fun _ => phase_of_isCapture hk

section Answers
variable {fs : List Fragment} {fallback : Fallback} (hanswers : fallback.Answers)
  (hbuild : Registry.build fuel fallback a.services a.catalogue = some r)
include hanswers hbuild

theorem faultAt_eq_none (o : Options) (t : Signature) : r.faultAt o t = none := by
  unfold Registry.faultAt
  split
  · rfl
  · exact error?_eq_none.mpr (Registry.resolves_of_answers hanswers hbuild _).1

theorem exists_links (o : Options) (s : Service) : ∃ links, Links.ofService r o s = .ok links := by
  rw [← error?_eq_none, Links.error?_ofService]
  exact List.findSome?_eq_none_iff.mpr fun dep _ => faultAt_eq_none hanswers hbuild o dep.target

theorem exists_serviceLifetimes (o : Options) (g : Graph) (s : Service) :
    ∃ found, serviceLifetimes r o a.services a.catalogue g s = .ok found := by
  have hinherited : ∀ x, inheritedFault r o a.services x = none := by
    intro x
    unfold inheritedFault
    split
    · rfl
    · exact List.findSome?_eq_none_iff.mpr fun dep _ => faultAt_eq_none hanswers hbuild o _
  rw [← error?_eq_none, error?_serviceLifetimes]
  split
  · exact List.findSome?_eq_none_iff.mpr fun x _ => hinherited x
  · rfl

theorem exists_resolution (g : Graph) : ∃ res, Check.resolution r g = .ok res := by
  rw [← error?_eq_none, error?_resolution]
  refine List.findSome?_eq_none_iff.mpr fun u _ => ?_
  exact error?_eq_none.mpr (Registry.resolves_of_answers hanswers hbuild _).2

variable (ha : Snapshot.collect fuel fs = some a) (hcheck : o.checkLifetimes) {d i : Identity}
include ha hcheck

/-- The two ways to a captured dependency, through the graph and through the ancestors, count the
same candidates. -/
theorem mem_problems_holds {k : Kind} (hk : k.IsCapture) :
    (k, d, .identity i) ∈ problems
        (Check.lifetimes r o a.services a.catalogue (Graph.build r o a.services)) ↔
      ∃ s ∈ a.services, s.isExternal = false ∧ s.lifetime = .singleton ∧ s.identity = d ∧
        (((r.lifetime? i).bind (captureKind false) = some k ∧ HoldsOwn r o s i) ∨
          ((r.lifetime? i).bind (captureKind true) = some k ∧ HoldsInherited r o a s i)) := by
  have hd := Snapshot.nodup_services ha
  have hinternal : ((a.services.filter fun s => !s.isExternal).map Service.identity).Nodup :=
    hd.sublist (List.filter_sublist.map _)
  rw [mem_problems_lifetimes hcheck (exists_serviceLifetimes hanswers hbuild o _) hk]
  refine exists_congr fun s => and_congr_right fun hs => and_congr_right fun hx => ?_
  refine and_congr_right fun _ => and_congr_right fun _ => ?_
  refine or_congr (and_congr_right fun _ => ?_) (and_congr_right fun _ => ?_)
  · obtain ⟨links, hl⟩ := exists_links hanswers hbuild o s
    have hmem : s ∈ a.services.filter fun s => !s.isExternal := by simp [hs, hx]
    rw [Graph.build_eq_ofAll, Graph.edgesFrom_ofAll hinternal hmem hl]
    exact exists_countedEdge_iff hl
  · exact exists_congr fun x => and_congr_right fun _ => handsDown_iff hbuild hd

theorem mem_problems_scoped :
    (.singletonOnScoped, d, .identity i) ∈ problems
        (Check.lifetimes r o a.services a.catalogue (Graph.build r o a.services)) ↔
      CapturesScoped r o a d i := by
  rw [mem_problems_holds hanswers hbuild ha hcheck (.inl rfl)]
  simp only [Option.bind_eq_some_iff, captureKind_eq_scoped, exists_eq_right,
    Registry.lifetime?_eq_some hbuild (Snapshot.nodup_services ha), ← and_or_left]
  constructor
  · rintro ⟨s, hs, hx, hl, hd, ht, hholds⟩
    exact ⟨s, hs, ⟨hd, hx, hl, ht⟩, hholds⟩
  · rintro ⟨s, hs, ⟨hd, hx, hl, ht⟩, hholds⟩
    exact ⟨s, hs, hx, hl, hd, ht, hholds⟩

theorem mem_problems_transient :
    (.singletonOnTransient, d, .identity i) ∈ problems
        (Check.lifetimes r o a.services a.catalogue (Graph.build r o a.services)) ↔
      CapturesTransient r o a d i := by
  rw [mem_problems_holds hanswers hbuild ha hcheck (.inr rfl)]
  simp only [Option.bind_eq_some_iff, captureKind_eq_transient, and_true, reduceCtorEq, and_false,
    exists_false, false_and, or_false, exists_eq_right,
    Registry.lifetime?_eq_some hbuild (Snapshot.nodup_services ha)]
  constructor
  · rintro ⟨s, hs, hx, hl, hd, ht, hholds⟩
    exact ⟨s, hs, ⟨hd, hx, hl, ht⟩, hholds⟩
  · rintro ⟨s, hs, ⟨hd, hx, hl, ht⟩, hholds⟩
    exact ⟨s, hs, hx, hl, hd, ht, hholds⟩

end Answers

/-- Where the fallback never fails, there is a report as soon as the contracts of all classes are
found. It states once each pair of a singleton and a scoped service that the singleton holds for a
dependency of its own or of an ancestor, and each pair of a singleton and a transient service that
it holds for a dependency of its own. It states no other pairs of these kinds. -/
theorem captives_reported_once (fuel : Nat) (o : Options) (supplied : Option Fallback)
    (fs : List Fragment) (hanswers : ∀ f ∈ supplied, f.Answers) (hreporting : o.reporting)
    (hcheck : o.checkLifetimes) (hscoped : o.isDisabled .singletonOnScoped = false)
    (htransient : o.isDisabled .singletonOnTransient = false) :
    (Snapshot.ContractsFound fuel fs →
      ∃ a r x, Snapshot.collect fuel fs = some a ∧
        Registry.build fuel (chooseFallback o supplied) a.services a.catalogue = some r ∧
        verify fuel o supplied fs = .ok x ∧
        ∀ d i : Identity,
          (CapturesScoped r o a d i →
            (problems x.findings).count (.singletonOnScoped, d, .identity i) = 1) ∧
          (¬ CapturesScoped r o a d i →
            (problems x.findings).count (.singletonOnScoped, d, .identity i) = 0) ∧
          (CapturesTransient r o a d i →
            (problems x.findings).count (.singletonOnTransient, d, .identity i) = 1) ∧
          (¬ CapturesTransient r o a d i →
            (problems x.findings).count (.singletonOnTransient, d, .identity i) = 0)) ∧
    (¬ Snapshot.ContractsFound fuel fs → verify fuel o supplied fs = .error .outOfFuel) := by
  refine ⟨fun hfound => ?_, fun hlost => verify_eq_outOfFuel hlost o supplied⟩
  obtain ⟨a, r, ha, hbuild, -, hreport⟩ := verify_of_contractsFound hfound o supplied
  have hfallback := answers_chooseFallback o hanswers
  obtain ⟨res, hres⟩ := exists_resolution hfallback hbuild (Graph.build r o a.services)
  refine ⟨a, r, _, ha, hbuild, hreport res hres, fun d i => ?_⟩
  have hnodup : (problems (assemble o a r res).findings).Nodup := nodup_problems_merge _ _ _
  have hscopedMem := (mem_problems_capture ha hres (.inl rfl) hreporting hscoped).trans
    (mem_problems_scoped hfallback hbuild ha hcheck (d := d) (i := i))
  have htransientMem := (mem_problems_capture ha hres (.inr rfl) hreporting htransient).trans
    (mem_problems_transient hfallback hbuild ha hcheck (d := d) (i := i))
  refine ⟨fun h => ?_, fun h => ?_, fun h => ?_, fun h => ?_⟩
  · exact List.count_eq_one_of_mem hnodup (hscopedMem.mpr h)
  · exact List.count_eq_zero_of_not_mem (hscopedMem.not.mpr h)
  · exact List.count_eq_one_of_mem hnodup (htransientMem.mpr h)
  · exact List.count_eq_zero_of_not_mem (htransientMem.not.mpr h)

/-- A cache that asks for a store three times, once through its base type. Both stores are guessed
by name, since they stand for the stores of a module. Only through its base type does the cache hold
a session, which is scoped, and a clock, which is transient. -/
def storeFragments : List Fragment :=
  [{ name := "Worker", params := ["T"], lifetime := some .singleton,
     requests := ["IStore<T>", "ISession<T>", "IClock"].map
       fun target => { target, style := .list 0 } },
   { name := "Cache", base := some "Worker<User>", lifetime := some .singleton,
     requests := [{ target := "IStore<User>", style := .list 0 },
       { target := "Lazy<IStore<User>>", style := .field "store" }] },
   { name := "SqlStore", params := ["T"], contracts := ["Data.IStore<T>"],
     lifetime := some .perScope },
   { name := "BlobStore", params := ["T"], contracts := ["Data.IStore<T>"],
     lifetime := some .perScope },
   { name := "Session", contracts := ["ISession<User>"], lifetime := some .perScope },
   { name := "Clock", contracts := ["IClock"], lifetime := some .transient }]

theorem captives_reported_once_stores :
    Snapshot.ContractsFound 9 storeFragments ∧
      ∃ a r x, Snapshot.collect 9 storeFragments = some a ∧
        Registry.build 9 .sameShape a.services a.catalogue = some r ∧
        verify 9 {} none storeFragments = .ok x ∧
        CapturesScoped r {} a ⟨"Cache", 0⟩ ⟨"SqlStore", 1⟩ ∧
        (problems x.findings).count
          (.singletonOnScoped, ⟨"Cache", 0⟩, .identity ⟨"SqlStore", 1⟩) = 1 ∧
        ¬ CapturesScoped r {} a ⟨"Cache", 0⟩ ⟨"BlobStore", 1⟩ ∧
        (problems x.findings).count
          (.singletonOnScoped, ⟨"Cache", 0⟩, .identity ⟨"BlobStore", 1⟩) = 0 ∧
        (∀ e ∈ x.graph.edgesFrom ⟨"Cache", 0⟩, e.provider ≠ ⟨"Session", 0⟩) ∧
        CapturesScoped r {} a ⟨"Cache", 0⟩ ⟨"Session", 0⟩ ∧
        (problems x.findings).count
          (.singletonOnScoped, ⟨"Cache", 0⟩, .identity ⟨"Session", 0⟩) = 1 ∧
        CapturesTransient r {} a ⟨"Worker", 1⟩ ⟨"Clock", 0⟩ ∧
        (problems x.findings).count
          (.singletonOnTransient, ⟨"Worker", 1⟩, .identity ⟨"Clock", 0⟩) = 1 ∧
        ¬ CapturesTransient r {} a ⟨"Cache", 0⟩ ⟨"Clock", 0⟩ ∧
        (problems x.findings).count
          (.singletonOnTransient, ⟨"Cache", 0⟩, .identity ⟨"Clock", 0⟩) = 0 := by
  have hfound : Snapshot.ContractsFound 9 storeFragments := by decide +kernel
  obtain ⟨a, r, x, ha, hbuild, hx, hall⟩ :=
    (captives_reported_once 9 {} none storeFragments (by simp) rfl rfl (by decide) (by decide)).1
      hfound
  have hreport : (verify 9 {} none storeFragments).toOption.map
      (fun x => (problems x.findings, (x.graph.edgesFrom ⟨"Cache", 0⟩).map Edge.provider)) =
      some
        ([(.noImplementation, ⟨"Worker", 1⟩, .contract (.app "ISession" [.param "T"])),
          (.noImplementation, ⟨"Worker", 1⟩, .contract (.app "IStore" [.param "T"])),
          (.singletonOnTransient, ⟨"Worker", 1⟩, .identity ⟨"Clock", 0⟩),
          (.singletonOnScoped, ⟨"Cache", 0⟩, .identity ⟨"Session", 0⟩),
          (.singletonOnScoped, ⟨"Cache", 0⟩, .identity ⟨"SqlStore", 1⟩)],
        [⟨"SqlStore", 1⟩, ⟨"BlobStore", 1⟩, ⟨"SqlStore", 1⟩, ⟨"BlobStore", 1⟩]) := by
    decide +kernel
  simp only [hx, Except.toOption, Option.map_some, Option.some.injEq, Prod.mk.injEq] at hreport
  obtain ⟨hproblems, hproviders⟩ := hreport
  have hcount : ∀ {P : Prop} {n : Nat}, (P → n = 1) → (¬ P → n = 0) → (P ↔ n = 1) := by
    intro P n hone hzero
    refine ⟨hone, fun h => ?_⟩
    by_contra hnot
    exact absurd (h.symm.trans (hzero hnot)) Nat.one_ne_zero
  have hscoped : ∀ d i, CapturesScoped r {} a d i ↔
      (problems x.findings).count (.singletonOnScoped, d, .identity i) = 1 := by
    intro d i
    obtain ⟨hone, hzero, -⟩ := hall d i
    exact hcount hone hzero
  have htransient : ∀ d i, CapturesTransient r {} a d i ↔
      (problems x.findings).count (.singletonOnTransient, d, .identity i) = 1 := by
    intro d i
    obtain ⟨-, -, hone, hzero⟩ := hall d i
    exact hcount hone hzero
  have hnone : ∀ e ∈ x.graph.edgesFrom ⟨"Cache", 0⟩, e.provider ≠ ⟨"Session", 0⟩ := by
    intro e he heq
    have hmem := List.mem_map_of_mem (f := Edge.provider) he
    rw [hproviders, heq] at hmem
    exact absurd hmem (by decide)
  refine ⟨hfound, a, r, x, ha, hbuild, hx, ?_, ?_, ?_, ?_, hnone, ?_, ?_, ?_, ?_, ?_, ?_⟩
  all_goals
    simp only [hscoped, htransient, hproblems]
    decide

end Report

end Injection
