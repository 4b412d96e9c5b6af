import Injection.Proofs.EntryPoints
import Injection.Proofs.OpenContracts

/-! Plain classes that are registered. A plain class that would implement an unresolved dependency,
if it were a service, does so once it is one. Its contracts are then looked up in another table, in
which other normal forms count, so it may be found in another way than before. But a class is only
ever found by a contract that is the target itself, or by an open one of its name and arity, and for
a closed target the last resort is to guess from just these. -/
namespace Injection

/-! ## Contracts that suit a target -/

namespace Signature

/-- The contract is the target, or it is open and has the simple name and the arity of the target,
which is generic. -/
def Suits (c t : Signature) : Prop :=
  c = t ∨ c.isOpen ∧ t.isApp ∧ c.arity = t.arity ∧ simpleName c.headName = simpleName t.headName

variable {c t : Signature} {keep : String → Nat → Bool}

theorem suits_of_shape (ho : c.isOpen) (ha : t.isApp) (h : c.shape? = t.shape?) : c.Suits t := by
  cases t with
  | app head args =>
    cases c with
    | app head' args' =>
      simp only [shape?, Option.some.injEq, Prod.mk.injEq] at h
      exact .inr ⟨ho, rfl, h.2, congrArg simpleName h.1⟩
    | named name => cases h
    | param name => cases h
    | hole index => cases h
  | named name => cases ha
  | param name => cases ha
  | hole index => cases ha

theorem isApp_normalize (s : Signature) : (s.normalize keep).isApp = s.isApp := by
  cases s <;> rfl

end Signature

namespace Table
open Signature
variable {providers : List Provider} {c t : Signature} {shapes : List (String × Nat)}

theorem suits_of_mem_keys (h : t ∈ keys shapes c) : c.Suits t := by
  rcases mem_keys.mp h with rfl | ⟨ho, ha, rfl⟩
  · exact .inl rfl
  · exact suits_of_shape ho (by rwa [isApp_normalize]) (shape?_normalize c).symm

/-- A contract that is listed under a normal form of the target suits the target, even if it is that
normal form itself. -/
theorem suits_of_normalize_mem_keys {keep : String → Nat → Bool} (hk : ∀ head, keep head 0 = false)
    (ha : t.isApp) (h : t.normalize keep ∈ keys shapes c) : c.Suits t := by
  rcases mem_keys.mp h with rfl | ⟨ho, -, heq⟩
  · rcases normalize_eq_self_or_holeFree hk ha with heq | hhole
    · exact .inl heq
    · exact suits_of_shape (isOpen_of_not_holeFree hhole) ha (shape?_normalize t)
  · refine suits_of_shape ho ha ?_
    rw [← shape?_normalize c, heq, shape?_normalize]

theorem exists_of_mem_get {key : Signature} {i : Identity}
    (h : i ∈ (ofProviders providers).index.get key) :
    ∃ q ∈ providers, q.identity = i ∧
      ∃ c ∈ q.contracts, key ∈ keys (ofProviders providers).openShapes c := by
  rw [get_ofProviders] at h
  exact mem_listing.mp h

theorem mem_openContracts {i : Identity} :
    (c, i) ∈ (ofProviders providers).openContracts ↔
      ∃ q ∈ providers, q.identity = i ∧ c ∈ q.contracts ∧ c.isOpen := by
  simp only [ofProviders, List.mem_filter, List.mem_flatMap, List.mem_map, Prod.mk.injEq]
  constructor
  · rintro ⟨⟨q, hq, c, hc, rfl, rfl⟩, ho⟩
    exact ⟨q, hq, rfl, hc, ho⟩
  · rintro ⟨q, hq, rfl, hc, ho⟩
    exact ⟨⟨q, hq, c, hc, rfl, rfl⟩, ho⟩

/-- What is guessed from open contracts of the same simple name and arity. -/
def ofShape (t : Signature) (contracts : List (Signature × Identity)) : List Identity :=
  ((contracts.filter fun (c, _) =>
    c.arity = t.arity && simpleName c.headName = simpleName t.headName).map Prod.snd).eraseDups

theorem sameShape_eq : Fallback.sameShape = fun t contracts => .ok (ofShape t contracts) := rfl

theorem mem_ofShape {contracts : List (Signature × Identity)} {i : Identity} :
    i ∈ ofShape t contracts ↔ ∃ c, (c, i) ∈ contracts ∧ c.arity = t.arity ∧
      simpleName c.headName = simpleName t.headName := by
  simp [ofShape, and_assoc]

/-- Whichever stage finds a candidate, it has a contract that suits the target. -/
theorem suits_of_lookup {m : Match} {i : Identity}
    (h : (ofProviders providers).lookup .sameShape t = .ok (some m)) (hi : i ∈ m.candidates) :
    ∃ q ∈ providers, q.identity = i ∧ ∃ c ∈ q.contracts, c.Suits t := by
  have hlisted : ∀ key, (∀ c, key ∈ keys (ofProviders providers).openShapes c → c.Suits t) →
      i ∈ (ofProviders providers).index.get key →
        ∃ q ∈ providers, q.identity = i ∧ ∃ c ∈ q.contracts, c.Suits t := by
    intro key hkey hi
    obtain ⟨q, hq, hid, c, hc, hmem⟩ := exists_of_mem_get hi
    exact ⟨q, hq, hid, c, hc, hkey c hmem⟩
  -- The target was found under itself, under one of its two normal forms, or by guessing.
  rw [sameShape_eq, lookup_eq, Except.ok.injEq] at h
  split at h
  · cases h
    exact hlisted t (fun c => suits_of_mem_keys) hi
  split at h
  next hnormal =>
    cases h
    exact hlisted _ (fun c =>
      suits_of_normalize_mem_keys (keeps_openShapes_zero providers) hnormal.1) hi
  split at h
  next hflat =>
    cases h
    exact hlisted _ (fun c => suits_of_normalize_mem_keys (fun _ => rfl) hflat.1) hi
  split at h
  next hguess =>
    cases h
    obtain ⟨c, hc, harity, hname⟩ := mem_ofShape.mp hi
    obtain ⟨q, hq, hid, hc, ho⟩ := mem_openContracts.mp hc
    have happ : t.isApp := (Bool.and_eq_true_iff.mp hguess.1).1
    exact ⟨q, hq, hid, c, hc, .inr ⟨ho, happ, harity, hname⟩⟩
  · cases h

/-- A closed target with a contract that suits it is found, by guessing at the latest. -/
theorem exists_lookup_of_suits {q : Provider} (ht : t.isOpen = false) (hq : q ∈ providers)
    (hc : c ∈ q.contracts) (h : c.Suits t) :
    ∃ m, (ofProviders providers).lookup .sameShape t = .ok (some m) := by
  rw [sameShape_eq, lookup_eq]
  by_cases hexact : (ofProviders providers).index.get t = []
  · have hguess : t.isClosedApp ∧ ofShape t (ofProviders providers).openContracts ≠ [] := by
      rcases h with rfl | ⟨ho, happ, harity, hname⟩
      · have hmem : q.identity ∈ (ofProviders providers).index.get c := by
          rw [get_ofProviders]
          exact mem_listing.mpr ⟨q, hq, rfl, c, hc, mem_keys.mpr (.inl rfl)⟩
        simp [hexact] at hmem
      · have hmem : q.identity ∈ ofShape t (ofProviders providers).openContracts :=
          mem_ofShape.mpr ⟨c, mem_openContracts.mpr ⟨q, hq, rfl, hc, ho⟩, harity, hname⟩
        exact ⟨by simp [isClosedApp, happ, ht], List.ne_nil_of_mem hmem⟩
    rw [if_neg (not_not.mpr hexact), if_pos hguess]
    split
    · exact ⟨_, rfl⟩
    · split <;> exact ⟨_, rfl⟩
  · rw [if_pos hexact]
    exact ⟨_, rfl⟩

end Table

/-! ## Fragments that differ in lifetimes -/

namespace Fragment

/-- The fragments are equal except for their lifetimes. -/
def Alike (f f' : Fragment) : Prop := ∃ lifetime, f' = { f with lifetime }

variable {fs fs' : List Fragment}

theorem alike_withLifetime (pre post : List Fragment) (f : Fragment) (l : Lifetime) :
    List.Forall₂ Alike (pre ++ f :: post) (pre ++ f.withLifetime l :: post) := by
  have hself : ∀ fs : List Fragment, List.Forall₂ Alike fs fs := fun fs =>
    List.forall₂_same.mpr fun f _ => ⟨f.lifetime, rfl⟩
  exact List.rel_append (hself pre) (.cons ⟨some l, rfl⟩ (hself post))

theorem map_congr (h : List.Forall₂ Alike fs fs') {α : Type} (g : Fragment → α)
    (hg : ∀ f lifetime, g { f with lifetime } = g f) : fs.map g = fs'.map g := by
  refine List.forall₂_eq_eq_eq ▸ List.rel_map (P := Eq) ?_ h
  rintro f _ ⟨lifetime, rfl⟩
  exact (hg f lifetime).symm

theorem forall₂_filter (h : List.Forall₂ Alike fs fs') (i : Identity) :
    List.Forall₂ Alike (fs.filter fun f => f.identity = i)
      (fs'.filter fun f => f.identity = i) := by
  refine List.rel_filter ?_ h
  rintro f _ ⟨lifetime, rfl⟩
  exact Iff.rfl

end Fragment

namespace Parts

/-- The same type, declared by fragments that are alike. -/
structure Alike (p p' : Parts) : Prop where
  identity : p.identity = p'.identity
  fragments : List.Forall₂ Fragment.Alike p.fragments p'.fragments

theorem alike_ofFragments {fs fs' : List Fragment} (h : List.Forall₂ Fragment.Alike fs fs') :
    List.Forall₂ Alike (ofFragments fs) (ofFragments fs') := by
  rw [ofFragments, ofFragments, Fragment.map_congr h Fragment.identity fun _ _ => rfl,
    List.forall₂_map_left_iff, List.forall₂_map_right_iff, List.forall₂_same]
  exact fun i _ => ⟨rfl, Fragment.forall₂_filter h i⟩

namespace Alike
variable {p p' : Parts}

theorem params (h : Alike p p') : p.params = p'.params := by
  rw [Parts.params, Parts.params, ← List.head?_map, ← List.head?_map,
    Fragment.map_congr h.fragments Fragment.params fun _ _ => rfl]

theorem kind (h : Alike p p') : p.kind = p'.kind := by
  have hany : ∀ fs : List Fragment, (fs.any fun f => f.kind = .contract) =
      (fs.map Fragment.kind).any fun k => k = .contract := by
    intro fs
    rw [List.any_map]
    rfl
  rw [Parts.kind, Parts.kind, hany, hany,
    Fragment.map_congr h.fragments Fragment.kind fun _ _ => rfl]

theorem baseText (h : Alike p p') : p.baseText = p'.baseText := by
  have hbases : ∀ fs : List Fragment, fs.filterMap Fragment.base =
      (fs.map Fragment.base).filterMap id := by
    intro fs
    rw [List.filterMap_map]
    rfl
  rw [Parts.baseText, Parts.baseText, hbases, hbases,
    Fragment.map_congr h.fragments Fragment.base fun _ _ => rfl]

theorem contractTexts (h : Alike p p') : p.contractTexts = p'.contractTexts := by
  rw [Parts.contractTexts, Parts.contractTexts, List.flatMap_def, List.flatMap_def,
    Fragment.map_congr h.fragments Fragment.contracts fun _ _ => rfl]

theorem excludedTexts (h : Alike p p') : p.excludedTexts = p'.excludedTexts := by
  rw [Parts.excludedTexts, Parts.excludedTexts, List.flatMap_def, List.flatMap_def,
    Fragment.map_congr h.fragments Fragment.excluded fun _ _ => rfl]

/-- A lifetime decides on whether a type is a service, but not on its ancestors or contracts. -/
theorem agrees (h : Alike p p') (order order' : Nat) :
    (p.entry order).Agrees (p'.entry order') := by
  have hread : p.read? = p'.read? := by
    funext text
    rw [Parts.read?, Parts.read?, h.params]
  refine ⟨h.identity, h.params, h.kind, ?_, ?_⟩
  · simp only [Parts.entry, h.baseText, hread]
  · simp only [Parts.entry, Parts.readAll, h.contractTexts, hread]

end Alike

end Parts

namespace Snapshot
variable {fuel : Nat} {fs fs' : List Fragment} (h : List.Forall₂ Fragment.Alike fs fs')
include h

theorem parallel_catalogueOf :
    Catalogue.Parallel Entry.Agrees (catalogueOf fs) (catalogueOf fs') := by
  have hparts := (Matched.of_forall₂ (Parts.alike_ofFragments h)).zipIdx
  exact Catalogue.parallel_ofEntries (fun _ _ => id)
    (hparts.map fun q q' hq => hq.agrees q.2 q'.2) (nodup_entries fs) (nodup_entries fs')

theorem contractsOf_congr (i : Identity) :
    (catalogueOf fs).contractsOf fuel i = (catalogueOf fs').contractsOf fuel i :=
  (parallel_catalogueOf h).contractsOf (fun _ _ => id) fuel i

theorem ContractsFound.of_alike (hfound : ContractsFound fuel fs) : ContractsFound fuel fs' := by
  intro p' hp' hk
  obtain ⟨p, hp, halike⟩ := exists_of_forall₂_right (Parts.alike_ofFragments h) hp'
  rw [← contractsOf_congr h, ← halike.identity]
  exact hfound p hp (halike.kind.trans hk)

end Snapshot

/-! ## Registering a plain class -/

/-- Nothing is found for an unresolved dependency. -/
theorem Graph.resolve_of_mem_unresolved {r : Registry} {o : Options} {services : List Service}
    {u : Unresolved} (h : u ∈ (build r o services).unresolved) : r.resolve u.target = .ok none := by
  rw [build_eq_ofAll] at h
  obtain ⟨s, -, links, hl, hu⟩ := mem_unresolved_ofAll.mp h
  obtain ⟨d, -, -, hnone, rfl⟩ := (Links.mem_unresolved_ofService hl).mp hu
  exact hnone

namespace Snapshot
variable {fuel : Nat} {fs : List Fragment}

/-- A plain class, as the registry sees it, stands for its own type and for all its contracts. -/
theorem exists_parts_of_plain {plain : List Provider}
    (h : Registry.plainProviders fuel (catalogueOf fs) = some plain) {q : Provider}
    (hq : q ∈ plain) :
    ∃ p ∈ Parts.ofFragments fs, p.kind = .concrete ∧ p.identity = q.identity ∧
      ∃ contracts, (catalogueOf fs).contractsOf fuel p.identity = some contracts ∧
        q.contracts = Signature.self p.identity.name p.params :: contracts := by
  obtain ⟨e, he, hq⟩ := exists_of_forall₂_right (mapM_eq_some_iff.mp h) hq
  obtain ⟨contracts, hc, rfl⟩ := Option.map_eq_some_iff.mp hq
  obtain ⟨he, hplain⟩ := List.mem_filter.mp he
  rw [entries_catalogueOf] at he
  obtain ⟨⟨p, order⟩, hp, rfl⟩ := List.mem_map.mp he
  have hk : p.kind = .concrete := of_decide_eq_true (Bool.and_eq_true_iff.mp hplain).2
  exact ⟨p, mem_partsOf.mp ⟨order, hp⟩, hk, rfl, contracts, hc, rfl⟩

/-- A service without exclusions is registered under its own type and under all its contracts. -/
theorem exists_service_of_parts {a : Snapshot} (ha : collect fuel fs = some a) {p : Parts}
    (hp : p ∈ Parts.ofFragments fs) (hs : p.isService) (hexcluded : p.excludedTexts = [])
    {contracts : List Signature}
    (hc : (catalogueOf fs).contractsOf fuel p.identity = some contracts) :
    ∃ s ∈ a.services,
      s.registered = Signature.self p.identity.name p.params :: contracts := by
  obtain ⟨order, hp⟩ := mem_partsOf.mpr hp
  obtain ⟨s, hs, contracts', hc', rfl⟩ :=
    exists_of_forall₂_left (forall₂_contractsOf ha) (List.mem_filter.mpr ⟨hp, hs⟩)
  rw [hc, Option.some.injEq] at hc'
  subst hc'
  refine ⟨_, hs, ?_⟩
  simp [Service.registered, Service.selfSignature, Parts.service, hexcluded, Parts.readAll]

theorem isService_of_lifetime {p : Parts} (hp : p ∈ Parts.ofFragments fs)
    (hk : p.kind = .concrete) {f : Fragment} (hf : f ∈ fs) (hid : f.identity = p.identity)
    (hl : f.lifetime.isSome) : p.isService := by
  have hmem : f ∈ p.fragments := by
    rw [Parts.fragments_of_mem hp]
    exact List.mem_filter.mpr ⟨hf, by simpa using hid⟩
  have hmarked : f.isMarked := by simp [Fragment.isMarked, hl]
  simp only [Parts.isService, hk, decide_true, Bool.true_and]
  exact List.any_eq_true.mpr ⟨f, hmem, hmarked⟩

/-- Once a plain class without exclusions is a service, it is registered under all that it stood for
before. -/
theorem exists_registered {pre post : List Fragment} {f : Fragment} (l : Lifetime)
    {plain : List Provider}
    (hplain : Registry.plainProviders fuel (catalogueOf (pre ++ f :: post)) = some plain)
    {q : Provider} (hq : q ∈ plain) (hid : q.identity = f.identity)
    (hexcluded : ∀ g ∈ pre ++ f :: post, g.identity = f.identity → g.excluded = [])
    {a : Snapshot} (ha : collect fuel (pre ++ f.withLifetime l :: post) = some a) :
    ∃ s ∈ a.services, s.registered = q.contracts := by
  have halike := Fragment.alike_withLifetime pre post f l
  obtain ⟨p, hp, hk, hpid, contracts, hc, hcontracts⟩ := exists_parts_of_plain hplain hq
  obtain ⟨p', hp', hpp'⟩ := exists_of_forall₂_left (Parts.alike_ofFragments halike) hp
  have hservice : p'.isService := by
    refine isService_of_lifetime hp' (hpp'.kind.symm.trans hk) (f := f.withLifetime l) (by simp) ?_
      rfl
    exact hid.symm.trans (hpid.symm.trans hpp'.identity)
  have hnone : p'.excludedTexts = [] := by
    rw [← hpp'.excludedTexts, Parts.excludedTexts, Parts.fragments_of_mem hp]
    refine List.flatMap_eq_nil_iff.mpr fun g hg => ?_
    obtain ⟨hg, hgid⟩ := List.mem_filter.mp hg
    exact hexcluded g hg ((of_decide_eq_true hgid).trans (hpid.trans hid))
  rw [contractsOf_congr halike, hpp'.identity] at hc
  rw [hcontracts, hpp'.identity, hpp'.params]
  exact exists_service_of_parts ha hp' hservice hnone hc

end Snapshot

namespace Report
open Finding

/-- The advice to register a class can be followed. If guessing is allowed and a plain class without
exclusions is a candidate for a closed signature, then giving any of its fragments a lifetime leaves
no dependency on that signature unresolved, and none is reported as missing. -/
theorem registered_class_resolves (fuel : Nat) (o : Options) (pre post : List Fragment)
    (f : Fragment) (l : Lifetime) (x : Report) (t : Signature) (m : Match) (ho : o.heuristic)
    (hx : verify fuel o none (pre ++ f :: post) = .ok x) (ht : t.isOpen = false)
    (hm : x.registry.resolveUnregistered t = .ok (some m)) (hf : f.identity ∈ m.candidates)
    (hexcluded : ∀ g ∈ pre ++ f :: post, g.identity = f.identity → g.excluded = []) :
    ∃ x', verify fuel o none (pre ++ f.withLifetime l :: post) = .ok x' ∧
      (∀ u ∈ x'.graph.unresolved, u.target ≠ t) ∧
      ∀ (i : Identity) (k : Kind), k.IsMissing → (k, i, .contract t) ∉ problems x'.findings := by
  have hguess : chooseFallback o none = .sameShape := by
    rw [chooseFallback, if_pos ho]
    rfl
  have hfound := ((exists_verify_iff fuel o _).mp ⟨x, hx⟩).of_alike
    (Fragment.alike_withLifetime pre post f l)
  obtain ⟨a', r', ha', hbuild', -, hreport⟩ := verify_of_contractsFound hfound o none
  obtain ⟨res', hres'⟩ := exists_resolution (answers_builtIn o) hbuild'
    (Graph.build r' o a'.services)
  have hresolved : ∃ m', r'.resolve t = .ok (some m') := by
    obtain ⟨a, r, res, ha, hbuild, -, rfl⟩ := verify_cases hx
    obtain ⟨plain, hplain, rfl⟩ := Option.map_eq_some_iff.mp hbuild
    rw [Snapshot.catalogue_of_collect ha] at hplain
    rw [hguess] at hm
    obtain ⟨q, hq, hid, c, hc, hsuits⟩ := Table.suits_of_lookup hm hf
    obtain ⟨s, hs, hregistered⟩ :=
      Snapshot.exists_registered l hplain hq hid hexcluded ha'
    obtain ⟨htable, hfallback⟩ := Registry.registered_of_build hbuild'
    rw [Registry.resolve, htable, hfallback, hguess]
    exact Table.exists_lookup_of_suits ht (List.mem_map_of_mem hs) (hregistered ▸ hc) hsuits
  obtain ⟨m', hm'⟩ := hresolved
  have hunresolved : ∀ u ∈ (Graph.build r' o a'.services).unresolved, u.target ≠ t := by
    rintro u hu rfl
    rw [Graph.resolve_of_mem_unresolved hu] at hm'
    cases hm'
  refine ⟨_, hreport res' hres', hunresolved, fun i k hk hmem => ?_⟩
  rw [mem_problems_missing (fun _ => Snapshot.kind_of_collect ha') hres' hk] at hmem
  obtain ⟨u, hu, -, -, hut⟩ := (Check.exists_missing_iff hres').mp ⟨k, hk, hmem.2.2⟩
  exact hunresolved u hu hut

/-- A page that asks for a handler of two boxes, and a service that is a box of anything. -/
def boxPage : List Fragment :=
  [{ name := "Page", lifetime := some .perScope,
     requests := [{ target := "IHandler<IBox<User>, IBox<Item>>", style := .list 0 }] },
   { name := "AnyBox", params := ["T"], contracts := ["IBox<T>"], lifetime := some .perScope }]

/-- A plain class that handles anything and a box. -/
def boxHandler : Fragment :=
  { name := "Handler", params := ["T", "U"], contracts := ["IHandler<T, IBox<U>>"] }

def twoBoxes : Signature :=
  .app "IHandler" [.app "IBox" [.named "User"], .app "IBox" [.named "Item"]]

/-- Among plain classes the handler is found by its normal form. Among the services, where boxes are
kept in normal forms, it can only be guessed. -/
theorem registered_class_resolves_handler :
    ∃ x x', verify 9 {} none (boxPage ++ boxHandler :: []) = .ok x ∧
      (∃ u ∈ x.graph.unresolved, u.consumer = ⟨"Page", 0⟩ ∧ u.target = twoBoxes) ∧
      x.registry.resolveUnregistered twoBoxes =
        .ok (some ⟨.normalized, [boxHandler.identity]⟩) ∧
      verify 9 {} none (boxPage ++ boxHandler.withLifetime .transient :: []) = .ok x' ∧
      (∀ u ∈ x'.graph.unresolved, u.target ≠ twoBoxes) ∧
      (∀ (i : Identity) (k : Kind), k.IsMissing →
        (k, i, .contract twoBoxes) ∉ problems x'.findings) ∧
      (x'.graph.edgesFrom ⟨"Page", 0⟩).map Edge.stage = [.fallback] := by
  have hfound : Snapshot.ContractsFound 9 (boxPage ++ boxHandler :: []) := by decide +kernel
  obtain ⟨x, hx⟩ := (exists_verify_iff 9 {} (boxPage ++ boxHandler :: [])).mpr hfound
  have hbefore : ∀ x ∈ (verify 9 {} none (boxPage ++ boxHandler :: [])).toOption,
      (∃ u ∈ x.graph.unresolved, u.consumer = ⟨"Page", 0⟩ ∧ u.target = twoBoxes) ∧
      x.registry.resolveUnregistered twoBoxes =
        .ok (some ⟨.normalized, [boxHandler.identity]⟩) := by
    decide +kernel
  have hafter : ∀ x' ∈ (verify 9 {} none
      (boxPage ++ boxHandler.withLifetime .transient :: [])).toOption,
      (x'.graph.edgesFrom ⟨"Page", 0⟩).map Edge.stage = [.fallback] := by
    decide +kernel
  obtain ⟨hunresolved, hm⟩ := hbefore x (by rw [hx]; rfl)
  obtain ⟨x', hx', hresolved, hmissing⟩ :=
    registered_class_resolves 9 {} boxPage [] boxHandler .transient x twoBoxes _ rfl hx
      (by decide) hm (by decide) (by decide)
  exact ⟨x, x', hx, hunresolved, hm, hx', hresolved, hmissing, hafter x' (by rw [hx']; rfl)⟩

end Report

end Injection
