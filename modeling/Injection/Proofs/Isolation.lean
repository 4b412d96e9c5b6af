import Injection.Proofs.Accounting
import Injection.Proofs.Externals

/-! Faults stay with the service for which they come up. A fallback that may fail is compared with
the one that finds nothing where the first fails. The services whose own lookups do not fail have
the same place in both graphs, and the check of lifetimes finds the same about those whose inherited
lookups do not fail. Every other service is left with one report of its fault. -/
namespace Injection

/-! ## Finding nothing instead of failing -/

/-- Finds nothing where the given fallback fails. -/
def Fallback.lenient (f : Fallback) : Fallback := fun target contracts =>
  match f target contracts with
  | .ok found => .ok found
  | .error _ => .ok []

theorem Table.lookup_lenient {table : Table} {f : Fallback} {t : Signature} {m : Option Match}
    (h : table.lookup f t = .ok m) : table.lookup f.lenient t = .ok m := by
  unfold lookup at h ⊢
  unfold Fallback.lenient
  cases hf : f t table.openContracts with
  | ok found => simpa only [hf] using h
  | error fault =>
    simp only [hf] at h ⊢
    split at h
    · exact h
    · by_cases happ : t.isApp = true
      · rw [if_pos happ] at h ⊢
        split at h
        · exact h
        · by_cases hopen : t.isOpen = true
          · rwa [if_pos hopen] at h ⊢
          · rw [if_neg hopen] at h
            cases h
      · rwa [if_neg happ] at h ⊢

namespace Registry
variable {r : Registry} {o : Options} {t : Signature}

/-- The lookup of a signature fails. -/
def Fails (r : Registry) (t : Signature) : Prop := ∃ fault, r.resolve t = .error fault

def lenient (r : Registry) : Registry := { r with fallback := r.fallback.lenient }

theorem build_lenient {fuel : Nat} {f : Fallback} {services : List Service} {c : Catalogue}
    (h : build fuel f services c = some r) : build fuel f.lenient services c = some r.lenient := by
  obtain ⟨plain, hplain, rfl⟩ := Option.map_eq_some_iff.mp h
  rw [build, hplain]
  rfl

theorem resolve_lenient (h : ¬ r.Fails t) : r.lenient.resolve t = r.resolve t := by
  cases hm : r.resolve t with
  | error fault => exact absurd ⟨fault, hm⟩ h
  | ok m => exact Table.lookup_lenient hm

end Registry

/-! ## Lookups -/

/-- A dependency on `target` is met by looking up `t`: the type inside all wrappers, unless it is
supplied from elsewhere. -/
def Options.LooksUp (o : Options) (target t : Signature) : Prop :=
  o.inner target = t ∧ o.isSupplied t = false

namespace Registry
variable {r : Registry} {o : Options} {target : Signature} {fault : Fault}

theorem faultAt_eq_some :
    r.faultAt o target = some fault ↔ ∃ t, o.LooksUp target t ∧ r.resolve t = .error fault := by
  unfold faultAt Options.LooksUp
  by_cases hs : o.isSupplied (o.inner target) = true <;> simp [hs]

theorem faultAt_eq_none : r.faultAt o target = none ↔ ∀ t, o.LooksUp target t → ¬ r.Fails t := by
  constructor
  · intro h t ht hfails
    obtain ⟨fault, hfault⟩ := hfails
    rw [faultAt_eq_some.mpr ⟨t, ht, hfault⟩] at h
    cases h
  · intro h
    cases hfault : r.faultAt o target with
    | none => rfl
    | some fault =>
      obtain ⟨t, ht, hfault⟩ := faultAt_eq_some.mp hfault
      exact absurd ⟨fault, hfault⟩ (h t ht)

end Registry

/-- The service looks up `t` for one of its own dependencies. -/
def Service.LooksUp (o : Options) (s : Service) (t : Signature) : Prop :=
  ∃ d ∈ s.dependencies, o.LooksUp d.target t

/-- The service looks up `t` for a dependency that it inherits: it is a singleton whose lifetimes
are checked, and a service among its ancestors, not external, has that dependency. -/
def Service.LooksUpInherited (o : Options) (services : List Service) (c : Catalogue) (s : Service)
    (t : Signature) : Prop :=
  o.checkLifetimes = true ∧ s.isExternal = false ∧ s.lifetime = .singleton ∧
    ∃ x ∈ c.ancestors s.identity, ∃ b ∈ services, b.identity = x.entry.identity ∧
      b.isExternal = false ∧ ∃ d ∈ b.dependencies, o.LooksUp (d.target.subst x.bindings) t

namespace Links
variable {r : Registry} {o : Options} {s : Service}

theorem ofDependency_lenient {d : Dependency} (h : r.faultAt o d.target = none) (i : Identity) :
    ofDependency r.lenient o i d = ofDependency r o i d := by
  simp only [ofDependency, o.unwrap_fst]
  by_cases hs : o.isSupplied (o.inner d.target) = true
  · rw [if_pos hs, if_pos hs]
  · have hne : ¬ r.Fails (o.inner d.target) :=
      Registry.faultAt_eq_none.mp h _ ⟨rfl, Bool.eq_false_of_not_eq_true hs⟩
    rw [if_neg hs, if_neg hs, Registry.resolve_lenient hne]
    rfl

theorem ofService_lenient (h : ∀ t, s.LooksUp o t → ¬ r.Fails t) :
    ofService r.lenient o s = ofService r o s := by
  have hdep : ∀ d ∈ s.dependencies, ofDependency r.lenient o s.identity d =
      ofDependency r o s.identity d := by
    intro d hd
    exact ofDependency_lenient (Registry.faultAt_eq_none.mpr fun t ht => h t ⟨d, hd, ht⟩) _
  rw [ofService, ofService, mapM_congr hdep]

theorem exists_ofService (h : ∀ t, s.LooksUp o t → ¬ r.Fails t) :
    ∃ links, ofService r o s = .ok links := by
  rw [← error?_eq_none, error?_ofService, List.findSome?_eq_none_iff]
  intro d hd
  exact Registry.faultAt_eq_none.mpr fun t ht => h t ⟨d, hd, ht⟩

theorem exists_fault_ofService {t : Signature} (ht : s.LooksUp o t) (hfails : r.Fails t) :
    ∃ t fault, s.LooksUp o t ∧ r.resolve t = .error fault ∧ ofService r o s = .error fault := by
  cases hs : error? (ofService r o s) with
  | none =>
    obtain ⟨d, hd, ht⟩ := ht
    rw [error?_ofService, List.findSome?_eq_none_iff] at hs
    exact absurd hfails (Registry.faultAt_eq_none.mp (hs d hd) t ht)
  -- The fault is that of the first lookup that fails, which need not be the one given.
  | some fault =>
    have hfault := error?_eq_some.mp hs
    rw [error?_ofService] at hs
    obtain ⟨d, hd, hs⟩ := List.exists_of_findSome?_eq_some hs
    obtain ⟨t, ht, hr⟩ := Registry.faultAt_eq_some.mp hs
    exact ⟨t, fault, ⟨d, hd, ht⟩, hr, hfault⟩

end Links

namespace Check
variable {r : Registry} {o : Options} {services : List Service} {c : Catalogue} {g : Graph}
  {s : Service} {fuel : Nat} {f : Fallback}

theorem inheritedCaptives_lenient {σ : Signature.Bindings} {d : Dependency}
    (h : r.faultAt o (d.target.subst σ) = none) :
    inheritedCaptives r.lenient o s σ d = inheritedCaptives r o s σ d := by
  have hcandidates : inheritedCandidates r.lenient o σ d = inheritedCandidates r o σ d := by
    simp only [inheritedCandidates, o.unwrap_fst]
    by_cases hs : o.isSupplied (o.inner (d.target.subst σ)) = true
    · rw [if_pos hs, if_pos hs]
    · have hne : ¬ r.Fails (o.inner (d.target.subst σ)) :=
        Registry.faultAt_eq_none.mp h _ ⟨rfl, Bool.eq_false_of_not_eq_true hs⟩
      rw [if_neg hs, if_neg hs, Registry.resolve_lenient hne]
      rfl
  rw [inheritedCaptives, inheritedCaptives, hcandidates]
  rfl

theorem ancestor_lenient {x : Ancestor} (h : inheritedFault r o services x = none) :
    ancestor r.lenient o services s x = ancestor r o services s x := by
  unfold inheritedFault at h
  unfold ancestor
  by_cases hx : r.isExternal x.entry.identity = true
  · have hx' : r.lenient.isExternal x.entry.identity = true := hx
    rw [if_pos hx, if_pos hx']
  · have hx' : ¬ r.lenient.isExternal x.entry.identity = true := hx
    rw [if_neg hx, List.findSome?_eq_none_iff] at h
    have hcaptives := mapM_congr fun d hd => inheritedCaptives_lenient (s := s) (h d hd)
    rw [if_neg hx, if_neg hx']
    dsimp only
    rw [hcaptives]
    rfl

theorem serviceLifetimes_lenient
    (h : s.lifetime = .singleton →
      ∀ x ∈ c.ancestors s.identity, inheritedFault r o services x = none) :
    serviceLifetimes r.lenient o services c g s = serviceLifetimes r o services c g s := by
  unfold serviceLifetimes
  split
  next hs =>
    rw [mapM_congr fun x hx => ancestor_lenient (h hs x hx)]
    rfl
  · rfl

theorem inheritedFault_eq_none {x : Ancestor} (hbuild : Registry.build fuel f services c = some r)
    (hd : (services.map Service.identity).Nodup) :
    inheritedFault r o services x = none ↔
      ∀ b ∈ services, b.identity = x.entry.identity → b.isExternal = false →
        ∀ d ∈ b.dependencies, r.faultAt o (d.target.subst x.bindings) = none := by
  simp only [inheritedFault, ite_eq_left_iff, Bool.not_eq_true, List.findSome?_eq_none_iff]
  constructor
  · intro h b hb hid hx d hdep
    obtain ⟨hx, hdep⟩ := (mem_handedDown hbuild hd).mpr ⟨b, hb, hid, hx, hdep⟩
    exact h hx d hdep
  · intro h hx d hdep
    obtain ⟨b, hb, hid, hx, hdep⟩ := (mem_handedDown hbuild hd).mp ⟨hx, hdep⟩
    exact h b hb hid hx d hdep

theorem exists_of_inheritedFault {x : Ancestor} {fault : Fault}
    (hbuild : Registry.build fuel f services c = some r)
    (hd : (services.map Service.identity).Nodup)
    (h : inheritedFault r o services x = some fault) :
    ∃ b ∈ services, b.identity = x.entry.identity ∧ b.isExternal = false ∧
      ∃ d ∈ b.dependencies, r.faultAt o (d.target.subst x.bindings) = some fault := by
  unfold inheritedFault at h
  split at h
  · cases h
  next hx =>
    obtain ⟨d, hdep, hfault⟩ := List.exists_of_findSome?_eq_some h
    obtain ⟨b, hb, hid, hx, hdep⟩ := (mem_handedDown hbuild hd).mp ⟨by simpa using hx, hdep⟩
    exact ⟨b, hb, hid, hx, d, hdep, hfault⟩

end Check

/-! ## The part of one service -/

/-- What one service has left unresolved. -/
def Graph.unresolvedOf (g : Graph) (i : Identity) : List Unresolved :=
  g.unresolved.filter fun u => u.consumer = i

/-- What counts of the dependencies of a service. After a fault nothing does. -/
def Links.counted (r : Registry) (o : Options) (s : Service) : Links :=
  (ofService r o s).toOption.getD {}

theorem Links.consumer_of_counted {r : Registry} {o : Options} {s : Service} {u : Unresolved}
    (hu : u ∈ (counted r o s).unresolved) : u.consumer = s.identity := by
  unfold counted at hu
  cases hl : ofService r o s with
  | error fault => simp [hl, Except.toOption] at hu
  | ok links =>
    rw [hl] at hu
    exact consumer_of_unresolved hl hu

namespace Graph
variable {r : Registry} {o : Options} {services : List Service} {s : Service}

theorem unresolved_ofAll_counted : (ofAll r o services).unresolved =
    services.flatMap fun s => (Links.counted r o s).unresolved := by
  induction services using List.reverseRecOn with
  | nil => rfl
  | append_singleton services s ih =>
    rw [ofAll_concat, List.flatMap_append, List.flatMap_singleton, ← ih, Links.counted]
    cases Links.ofService r o s <;> simp [add, Except.toOption]

section Distinct
variable (hd : (services.map Service.identity).Nodup) (hs : s ∈ services)
  (hx : s.isExternal = false)
include hd hs hx

theorem edgesFrom_build :
    (build r o services).edgesFrom s.identity = (Links.counted r o s).edges := by
  have hmem : s ∈ services.filter fun s => !s.isExternal := by simp [hs, hx]
  unfold Links.counted
  rw [build_eq_ofAll]
  cases hl : Links.ofService r o s with
  | ok links => exact edgesFrom_ofAll (nodup_internal hd) hmem hl
  | error fault =>
    refine List.eq_nil_iff_forall_not_mem.mpr fun e he => ?_
    obtain ⟨b, hb, hid, links, hlinks, -⟩ := (mem_edgesFrom_ofAll (nodup_internal hd)).mp he
    rw [List.inj_on_of_nodup_map (nodup_internal hd) hb hmem hid, hl] at hlinks
    cases hlinks

theorem unresolvedOf_build :
    (build r o services).unresolvedOf s.identity = (Links.counted r o s).unresolved := by
  have hmem : s ∈ services.filter fun s => !s.isExternal := by simp [hs, hx]
  rw [unresolvedOf, build_eq_ofAll, unresolved_ofAll_counted]
  exact filter_flatMap_of_nodup (nodup_internal hd)
    (fun _ _ _ hu => Links.consumer_of_counted hu) hmem

theorem about_buildFaults :
    Finding.about s.identity (buildFaults r o services) =
      ((error? (Links.ofService r o s)).map fun fault =>
        fault.finding s.identity "graph").toList := by
  have hmem : s ∈ services.filter fun s => !s.isExternal := by simp [hs, hx]
  have hfaults : buildFaults r o services =
      (services.filter fun s => !s.isExternal).flatMap fun s =>
        ((error? (Links.ofService r o s)).map fun fault =>
          fault.finding s.identity "graph").toList := by
    rw [buildFaults, List.filterMap_eq_flatMap_toList]
    refine List.flatMap_congr fun s _ => ?_
    cases Links.ofService r o s <;> rfl
  rw [Finding.about, hfaults]
  refine filter_flatMap_of_nodup (nodup_internal hd) (fun b _ f hf => ?_) hmem
  obtain ⟨fault, -, rfl⟩ := Option.map_eq_some_iff.mp (Option.mem_toList.mp hf)
  rfl

end Distinct

end Graph

namespace Check
variable {r : Registry} {o : Options} {services : List Service} {c : Catalogue} {g : Graph}
  {s : Service} {fuel : Nat} {f : Fallback}

/-- What the check of lifetimes finds about one service. -/
def lifetimesOf (r : Registry) (o : Options) (services : List Service) (c : Catalogue) (g : Graph)
    (s : Service) : List Finding :=
  if o.checkLifetimes = true ∧ s.isExternal = false then
    match serviceLifetimes r o services c g s with
    | .ok found => found
    | .error fault => [fault.finding s.identity "lifetimes"]
  else []

theorem lifetimes_eq_flatMap :
    lifetimes r o services c g = services.flatMap (lifetimesOf r o services c g) := by
  have hinternal : ∀ (f : Service → List Finding) (ss : List Service),
      (ss.filter fun s => !s.isExternal).flatMap f =
        ss.flatMap fun s => if s.isExternal = false then f s else [] := by
    intro f ss
    induction ss with
    | nil => rfl
    | cons s ss ih => cases hx : s.isExternal <;> simp [hx, ih]
  by_cases hcheck : o.checkLifetimes = true
  · rw [lifetimes, if_pos hcheck, hinternal]
    exact List.flatMap_congr fun s _ => if_congr (by simp [hcheck]) rfl rfl
  · simp [lifetimes, lifetimesOf, hcheck]

theorem subject_background {x : Finding} (h : x ∈ background s) : x.subject = s.identity := by
  simp only [background, List.mem_ite_nil_right, List.mem_singleton] at h
  rw [h.2]
  rfl

theorem subject_inheritedLifetime {i : Identity} {x : Finding} (h : x ∈ inheritedLifetime r s i) :
    x.subject = s.identity := by
  unfold inheritedLifetime at h
  split at h
  · simp only [List.mem_ite_nil_left, List.mem_singleton] at h
    rw [h.2]
    rfl
  · simp at h

theorem subject_serviceLifetimes {found : List Finding} {x : Finding}
    (h : serviceLifetimes r o services c g s = .ok found) (hx : x ∈ found) :
    x.subject = s.identity := by
  have hcaptive : ∀ {i location inherited}, captive r s i location inherited = some x →
      x.subject = s.identity := by
    intro i location inherited hx
    obtain ⟨k, -, hp⟩ := problem_of_captive hx
    exact congrArg (fun p => p.2.1) hp
  cases cause_of_serviceLifetimes h hx with
  | background hx => exact subject_background hx
  | own _ hx => exact hcaptive hx
  | base _ _ hx => exact subject_inheritedLifetime hx
  | inherited _ _ _ _ _ hx => exact hcaptive hx

theorem about_lifetimes (hd : (services.map Service.identity).Nodup) (hs : s ∈ services) :
    Finding.about s.identity (lifetimes r o services c g) = lifetimesOf r o services c g s := by
  rw [Finding.about, lifetimes_eq_flatMap]
  refine filter_flatMap_of_nodup hd (fun b _ x hx => ?_) hs
  unfold lifetimesOf at hx
  split at hx
  · split at hx
    next hfound => exact subject_serviceLifetimes hfound hx
    · rw [List.mem_singleton.mp hx]
      rfl
  · simp at hx

section Lookups
variable (hbuild : Registry.build fuel f services c = some r)
  (hd : (services.map Service.identity).Nodup)
include hbuild hd

theorem lifetimesOf_lenient (h : ∀ t, s.LooksUpInherited o services c t → ¬ r.Fails t) :
    lifetimesOf r.lenient o services c g s = lifetimesOf r o services c g s := by
  unfold lifetimesOf
  split
  next hchecked =>
    obtain ⟨hcheck, hx⟩ := hchecked
    rw [serviceLifetimes_lenient]
    intro hsingle a ha
    rw [inheritedFault_eq_none hbuild hd]
    intro b hb hid hbx d hdep
    exact Registry.faultAt_eq_none.mpr fun t ht =>
      h t ⟨hcheck, hx, hsingle, a, ha, b, hb, hid, hbx, d, hdep, ht⟩
  · rfl

theorem exists_fault_lifetimesOf {t : Signature} (ht : s.LooksUpInherited o services c t)
    (hfails : r.Fails t) :
    ∃ t fault, s.LooksUpInherited o services c t ∧ r.resolve t = .error fault ∧
      lifetimesOf r o services c g s = [fault.finding s.identity "lifetimes"] := by
  obtain ⟨hcheck, hx, hsingle, a, ha, b, hb, hid, hbx, d, hdep, ht⟩ := ht
  have herror : error? (serviceLifetimes r o services c g s) =
      (c.ancestors s.identity).findSome? (inheritedFault r o services) := by
    rw [error?_serviceLifetimes, if_pos hsingle]
  cases hs : error? (serviceLifetimes r o services c g s) with
  | none =>
    rw [herror, List.findSome?_eq_none_iff] at hs
    have hnone := (inheritedFault_eq_none hbuild hd).mp (hs a ha) b hb hid hbx d hdep
    exact absurd hfails (Registry.faultAt_eq_none.mp hnone t ht)
  | some fault =>
    have hfault := error?_eq_some.mp hs
    rw [herror] at hs
    obtain ⟨a, ha, hs⟩ := List.exists_of_findSome?_eq_some hs
    obtain ⟨b, hb, hid, hbx, d, hdep, hs⟩ := exists_of_inheritedFault hbuild hd hs
    obtain ⟨t, ht, hr⟩ := Registry.faultAt_eq_some.mp hs
    refine ⟨t, fault, ⟨hcheck, hx, hsingle, a, ha, b, hb, hid, hbx, d, hdep, ht⟩, hr, ?_⟩
    rw [lifetimesOf, if_pos ⟨hcheck, hx⟩, hfault]

end Lookups

end Check

/-! ## Isolation -/

namespace Registry

/-- A fault does not change what holds of other services. Compare a fallback with the one that finds
nothing where the first fails. Both graphs have the same nodes. A service none of whose own lookups
fail has the same edges in both and leaves the same dependencies unresolved. One with a lookup that
fails keeps no edge and no unresolved dependency, and one report of its fault is made. For any graph
the check of lifetimes finds the same about a service none of whose inherited lookups fail, and only
the fault about any other. -/
theorem faults_stay_with_service {fuel : Nat} {f : Fallback} {services : List Service}
    {c : Catalogue} {r : Registry} (hd : (services.map Service.identity).Nodup)
    (hr : build fuel f services c = some r) :
    ∃ r', build fuel f.lenient services c = some r' ∧ ∀ o : Options,
      (Graph.build r o services).nodes = (Graph.build r' o services).nodes ∧
      ∀ s ∈ services,
        (s.isExternal = false → (∀ t, s.LooksUp o t → ¬ r.Fails t) →
          (Graph.build r o services).edgesFrom s.identity =
            (Graph.build r' o services).edgesFrom s.identity ∧
          (Graph.build r o services).unresolvedOf s.identity =
            (Graph.build r' o services).unresolvedOf s.identity ∧
          Finding.about s.identity (Graph.buildFaults r o services) = []) ∧
        (s.isExternal = false → (∃ t, s.LooksUp o t ∧ r.Fails t) →
          s.identity ∈ (Graph.build r o services).nodes ∧
          (Graph.build r o services).edgesFrom s.identity = [] ∧
          (Graph.build r o services).unresolvedOf s.identity = [] ∧
          ∃ t fault, s.LooksUp o t ∧ r.resolve t = .error fault ∧
            Finding.about s.identity (Graph.buildFaults r o services) =
              [.report .internalError s.identity (.text "graph")
                s!"Internal error while verifying {s.identity.render}: {fault.message}"]) ∧
        ∀ g : Graph,
          ((∀ t, s.LooksUpInherited o services c t → ¬ r.Fails t) →
            Finding.about s.identity (Check.lifetimes r o services c g) =
              Finding.about s.identity (Check.lifetimes r' o services c g)) ∧
          ((∃ t, s.LooksUpInherited o services c t ∧ r.Fails t) →
            ∃ t fault, s.LooksUpInherited o services c t ∧ r.resolve t = .error fault ∧
              Finding.about s.identity (Check.lifetimes r o services c g) =
                [.report .internalError s.identity (.text "lifetimes")
                  s!"Internal error while verifying {s.identity.render}: {fault.message}"]) := by
  refine ⟨r.lenient, build_lenient hr, fun o => ⟨?_, fun s hs => ⟨?_, ?_, fun g => ⟨?_, ?_⟩⟩⟩⟩
  · simp only [Graph.build_eq_ofAll, Graph.nodes_ofAll]
  · intro hx hne
    obtain ⟨links, hl⟩ := Links.exists_ofService hne
    have hcounted : Links.counted r.lenient o s = Links.counted r o s := by
      rw [Links.counted, Links.counted, Links.ofService_lenient hne]
    refine ⟨?_, ?_, ?_⟩
    · rw [Graph.edgesFrom_build hd hs hx, Graph.edgesFrom_build hd hs hx, hcounted]
    · rw [Graph.unresolvedOf_build hd hs hx, Graph.unresolvedOf_build hd hs hx, hcounted]
    · rw [Graph.about_buildFaults hd hs hx, hl]
      rfl
  · rintro hx ⟨t, ht, hfails⟩
    obtain ⟨t, fault, ht, hfault, hl⟩ := Links.exists_fault_ofService ht hfails
    have hcounted : Links.counted r o s = {} := by
      rw [Links.counted, hl]
      rfl
    refine ⟨?_, ?_, ?_, t, fault, ht, hfault, ?_⟩
    · rw [Graph.build_eq_ofAll, Graph.nodes_ofAll]
      exact List.mem_map_of_mem (by simp [hs, hx])
    · rw [Graph.edgesFrom_build hd hs hx, hcounted]
    · rw [Graph.unresolvedOf_build hd hs hx, hcounted]
    · rw [Graph.about_buildFaults hd hs hx, hl]
      rfl
  · intro hne
    rw [Check.about_lifetimes hd hs, Check.about_lifetimes hd hs,
      Check.lifetimesOf_lenient hr hd hne]
  · rintro ⟨t, ht, hfails⟩
    rw [Check.about_lifetimes hd hs]
    exact Check.exists_fault_lifetimesOf hr hd ht hfails

/-- Fails for `ILog` and guesses by name and arity otherwise. -/
def failsForLog : Fallback := fun target contracts =>
  if target.headName = "ILog" then .error (.described "static fault")
  else Fallback.sameShape target contracts

def shop : Service :=
  { identity := ⟨"Shop", 0⟩, lifetime := .singleton
    dependencies :=
      [⟨.app "Data.IRepo" [.named "User"], .direct, .list 0, none⟩,
       ⟨.named "IClock", .direct, .list 0, none⟩] }

/-- The last of its dependencies is the one whose lookup fails. -/
def desk : Service :=
  { shop with
    identity := ⟨"Desk", 0⟩
    dependencies := shop.dependencies ++ [⟨.app "ILog" [.named "User"], .direct, .list 0, none⟩] }

def frontDesk : Service :=
  { identity := ⟨"FrontDesk", 0⟩, lifetime := .singleton, base := some (.named "Desk") }

def deskServices : List Service :=
  [shop, desk, frontDesk,
   { identity := ⟨"SqlRepo", 1⟩, params := ["T"], lifetime := .perScope
     contracts := [.app "IRepo" [.param "T"]] }]

/-- The desk loses what it had been given before the fault, and its heir what it had inherited. -/
theorem faults_stay_with_service_desk :
    (deskServices.map Service.identity).Nodup ∧
    ∃ r r', build 9 failsForLog deskServices (.ofServices deskServices) = some r ∧
      build 9 failsForLog.lenient deskServices (.ofServices deskServices) = some r' ∧
      ((Graph.build r {} deskServices).edgesFrom shop.identity =
          (Graph.build r' {} deskServices).edgesFrom shop.identity ∧
        (Graph.build r' {} deskServices).edgesFrom shop.identity ≠ []) ∧
      ((Graph.build r {} deskServices).edgesFrom desk.identity = [] ∧
        (Graph.build r' {} deskServices).edgesFrom desk.identity ≠ []) ∧
      Finding.about desk.identity (Graph.buildFaults r {} deskServices) =
        [.report .internalError desk.identity (.text "graph")
          "Internal error while verifying Desk: static fault"] ∧
      Finding.about frontDesk.identity (Check.lifetimes r {} deskServices
          (.ofServices deskServices) (Graph.build r {} deskServices)) =
        [.report .internalError frontDesk.identity (.text "lifetimes")
          "Internal error while verifying FrontDesk: static fault"] := by
  have hd : (deskServices.map Service.identity).Nodup := by decide
  have hsome : (build 9 failsForLog deskServices (.ofServices deskServices)).isSome := by
    decide +kernel
  obtain ⟨r, hr⟩ := Option.isSome_iff_exists.mp hsome
  obtain ⟨r', hr', hiso⟩ := faults_stay_with_service hd hr
  have hservices := (hiso {}).2
  have hkept : ∀ r' ∈ build 9 failsForLog.lenient deskServices (.ofServices deskServices),
      (Graph.build r' {} deskServices).edgesFrom shop.identity ≠ [] ∧
      (Graph.build r' {} deskServices).edgesFrom desk.identity ≠ [] := by
    decide +kernel
  have hheir : ∃ x ∈ (Catalogue.ofServices deskServices).ancestors frontDesk.identity,
      desk.identity = x.entry.identity ∧ ∃ d ∈ desk.dependencies,
        Options.inner {} (d.target.subst x.bindings) = .app "ILog" [.named "User"] := by
    decide +kernel
  have hlog : Options.isSupplied {} (.app "ILog" [.named "User"]) = false := by decide +kernel
  have hfaults : ∀ r ∈ build 9 failsForLog deskServices (.ofServices deskServices),
      r.resolve (.app "ILog" [.named "User"]) = .error (.described "static fault") ∧
      (∀ d ∈ shop.dependencies, r.faultAt {} d.target = none) ∧
      (∀ d ∈ desk.dependencies, r.faultAt {} d.target ∈
        [none, some (.described "static fault")]) ∧
      ∀ x ∈ (Catalogue.ofServices deskServices).ancestors frontDesk.identity,
        ∀ b ∈ deskServices, ∀ d ∈ b.dependencies, r.faultAt {} (d.target.subst x.bindings) ∈
          [none, some (.described "static fault")] := by
    decide +kernel
  obtain ⟨hfails, hshop, hown, hinherited⟩ := hfaults r hr
  have hdesk := (hservices desk (by simp [deskServices])).2.1 rfl
    ⟨_, ⟨⟨.app "ILog" [.named "User"], .direct, .list 0, none⟩, by simp [desk],
      by decide +kernel, hlog⟩, _, hfails⟩
  have hfront := ((hservices frontDesk (by simp [deskServices])).2.2
    (Graph.build r {} deskServices)).2
  refine ⟨hd, r, r', hr, hr', ⟨?_, (hkept r' hr').1⟩, ⟨hdesk.2.1, (hkept r' hr').2⟩, ?_, ?_⟩
  · refine ((hservices shop (by simp [deskServices])).1 rfl ?_).1
    rintro t ⟨d, hdep, hlook⟩
    exact faultAt_eq_none.mp (hshop d hdep) t hlook
  · obtain ⟨t, fault, ⟨d, hdep, hlook⟩, hfault, hreport⟩ := hdesk.2.2.2
    have hsame := hown d hdep
    rw [faultAt_eq_some.mpr ⟨t, hlook, hfault⟩] at hsame
    obtain rfl : fault = .described "static fault" := by simpa using hsame
    exact hreport
  · obtain ⟨x, hx, hid, d, hdep, hinner⟩ := hheir
    obtain ⟨t, fault, ⟨-, -, -, x, hx, b, hb, -, -, d, hdep, hlook⟩, hfault, hreport⟩ :=
      hfront ⟨_, ⟨rfl, rfl, rfl, x, hx, desk, by simp [deskServices], hid, rfl, d, hdep, hinner,
        hlog⟩, _, hfails⟩
    have hsame := hinherited x hx b hb d hdep
    rw [faultAt_eq_some.mpr ⟨t, hlook, hfault⟩] at hsame
    obtain rfl : fault = .described "static fault" := by simpa using hsame
    exact hreport

end Registry

end Injection
