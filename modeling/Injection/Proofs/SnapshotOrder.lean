import Injection.Proofs.CatalogueOrder
import Injection.Proofs.Distinct
import Injection.Snapshot

/-! Fragments may come in any order, as long as those of one type keep theirs. The snapshot then
holds the same services and types, up to their places in the order of declaration. -/
namespace Injection

/-- The services are equal except for their order. -/
def Service.Alike (s s' : Service) : Prop := ∃ order, s' = { s with order }

theorem matched_internal {services services' : List Service}
    (h : Matched Service.Alike services services') :
    Matched Service.Alike (services.filter fun s => !s.isExternal)
      (services'.filter fun s => !s.isExternal) := by
  refine h.filter ?_
  rintro s _ ⟨order, rfl⟩
  rfl

/-- A permutation that keeps the order of fragments with the same identity. -/
structure Reordered (fs fs' : List Fragment) : Prop where
  perm : fs.Perm fs'
  keeps : ∀ i, (fs.filter fun f => f.identity = i) = fs'.filter fun f => f.identity = i

namespace Parts

theorem map_identity_ofFragments (fs : List Fragment) :
    (ofFragments fs).map Parts.identity = (fs.map Fragment.identity).eraseDups := by
  rw [ofFragments, List.map_map]
  exact List.map_id _

theorem mem_ofFragments {fs : List Fragment} {p : Parts} :
    p ∈ ofFragments fs ↔ (∃ f ∈ fs, f.identity = p.identity) ∧
      p.fragments = fs.filter fun f => f.identity = p.identity := by
  rw [ofFragments, List.mem_map]
  constructor
  · rintro ⟨i, hi, rfl⟩
    exact ⟨List.mem_map.mp (List.mem_eraseDups.mp hi), rfl⟩
  · rintro ⟨hf, hparts⟩
    exact ⟨p.identity, List.mem_eraseDups.mpr (List.mem_map.mpr hf), by rw [← hparts]⟩

theorem fragments_of_mem {fs : List Fragment} {p : Parts} (hp : p ∈ ofFragments fs) :
    p.fragments = fs.filter fun f => f.identity = p.identity :=
  (mem_ofFragments.mp hp).2

theorem matched_ofFragments {fs fs' : List Fragment} (h : Reordered fs fs') :
    Matched Eq (ofFragments fs) (ofFragments fs') := by
  have hids : Matched Eq (fs.map Fragment.identity) (fs'.map Fragment.identity) :=
    Matched.eq_iff.mpr fun i => (h.perm.map _).mem_iff
  refine hids.eraseDups.map ?_
  rintro i _ rfl
  rw [h.keeps i]

theorem kind_of_isService {p : Parts} (h : p.isService) : p.kind = .concrete := by
  simp only [isService, Bool.and_eq_true, decide_eq_true_eq] at h
  exact h.1

end Parts

namespace Snapshot

def partsOf (fs : List Fragment) : List (Parts × Nat) := (Parts.ofFragments fs).zipIdx

def declaredIn (fs : List Fragment) : List (Parts × Nat) :=
  (partsOf fs).filter fun (p, _) => p.isService

/-- The catalogue of the types that are declared by fragments. -/
def catalogueOf (fs : List Fragment) : Catalogue :=
  .ofEntries ((partsOf fs).map fun (p, order) => p.entry order)

theorem collect_eq (fuel : Nat) (fs : List Fragment) :
    collect fuel fs =
      (servicesOf fuel (catalogueOf fs) (declaredIn fs)).map fun services =>
        { services, catalogue := catalogueOf fs
          findings := ((partsOf fs).flatMap fun (p, _) => p.entryFindings) ++
            (declaredIn fs).flatMap fun (p, _) => p.serviceFindings } :=
  rfl

theorem catalogue_of_collect {fuel : Nat} {fs : List Fragment} {a : Snapshot}
    (h : collect fuel fs = some a) : a.catalogue = catalogueOf fs := by
  obtain ⟨services, -, rfl⟩ := Option.map_eq_some_iff.mp h
  rfl

/-- The same types and alike services, each once, and the same findings. -/
structure Alike (s s' : Snapshot) : Prop where
  services : Matched Service.Alike s.services s'.services
  nodup : (s.services.map Service.identity).Nodup
  nodup' : (s'.services.map Service.identity).Nodup
  catalogue : s.catalogue.Alike s'.catalogue
  findings : Matched Eq s.findings s'.findings

theorem map_identity_partsOf (fs : List Fragment) :
    ((partsOf fs).map fun p => p.1.identity) = (fs.map Fragment.identity).eraseDups := by
  have hids := Parts.map_identity_ofFragments fs
  rw [← List.zipIdx_map_fst 0 (Parts.ofFragments fs), List.map_map] at hids
  exact hids

theorem nodup_partsOf (fs : List Fragment) : ((partsOf fs).map fun p => p.1.identity).Nodup := by
  rw [map_identity_partsOf]
  exact nodup_eraseDups _

theorem nodup_entries (fs : List Fragment) :
    (((partsOf fs).map fun (p, order) => p.entry order).map Entry.identity).Nodup := by
  rw [List.map_map]
  exact nodup_partsOf fs

theorem map_identity_servicesOf {fuel : Nat} {c : Catalogue} {declared : List (Parts × Nat)}
    {services : List Service} (h : servicesOf fuel c declared = some services) :
    services.map Service.identity = declared.map fun p => p.1.identity := by
  have hh := mapM_eq_some_iff.mp h
  clear h
  induction hh with
  | nil => rfl
  | cons hs _ ih =>
    obtain ⟨contracts, -, rfl⟩ := Option.map_eq_some_iff.mp hs
    rw [List.map_cons, List.map_cons, ih]
    rfl

theorem nodup_servicesOf {fuel : Nat} {c : Catalogue} {fs : List Fragment} {services : List Service}
    (h : servicesOf fuel c (declaredIn fs) = some services) :
    (services.map Service.identity).Nodup := by
  rw [map_identity_servicesOf h]
  exact (nodup_partsOf fs).sublist (List.filter_sublist.map _)

theorem nodup_services {fuel : Nat} {fs : List Fragment} {a : Snapshot}
    (h : collect fuel fs = some a) : (a.services.map Service.identity).Nodup := by
  obtain ⟨services, hs, rfl⟩ := Option.map_eq_some_iff.mp h
  exact nodup_servicesOf hs

theorem alike_catalogueOf {fs fs' : List Fragment} (h : Reordered fs fs') :
    (catalogueOf fs).Alike (catalogueOf fs') := by
  have hparts := (Parts.matched_ofFragments h).zipIdx
  refine Catalogue.parallel_ofEntries (fun _ _ => Entry.Alike.agrees) (hparts.map ?_)
    (nodup_entries fs) (nodup_entries fs')
  rintro ⟨p, order⟩ ⟨_, order'⟩ rfl
  exact ⟨order', rfl⟩

theorem alike_collect {fs fs' : List Fragment} (h : Reordered fs fs') (fuel : Nat) :
    Option.Rel Alike (collect fuel fs) (collect fuel fs') := by
  have hparts : Matched (fun p q => p.1 = q.1) (partsOf fs) (partsOf fs') :=
    (Parts.matched_ofFragments h).zipIdx
  have hdeclared : Matched (fun p q => p.1 = q.1) (declaredIn fs) (declaredIn fs') := by
    refine hparts.filter ?_
    rintro ⟨p, _⟩ ⟨_, _⟩ rfl
    rfl
  have hservices : Option.Rel (Matched Service.Alike)
      (servicesOf fuel (catalogueOf fs) (declaredIn fs))
      (servicesOf fuel (catalogueOf fs') (declaredIn fs')) := by
    refine hdeclared.mapM_option ?_
    rintro ⟨p, order⟩ ⟨_, order'⟩ rfl
    dsimp only
    rw [(alike_catalogueOf h).contractsOf]
    cases (catalogueOf fs').contractsOf fuel p.identity with
    | none => exact .none
    | some contracts => exact .some ⟨order', rfl⟩
  have hfindings : Matched Eq
      (((partsOf fs).flatMap fun (p, _) => p.entryFindings) ++
        (declaredIn fs).flatMap fun (p, _) => p.serviceFindings)
      (((partsOf fs').flatMap fun (p, _) => p.entryFindings) ++
        (declaredIn fs').flatMap fun (p, _) => p.serviceFindings) := by
    refine (hparts.flatMap ?_).append (hdeclared.flatMap ?_)
    all_goals
      rintro ⟨p, _⟩ ⟨_, _⟩ rfl
      exact .refl _
  rw [collect_eq, collect_eq]
  exact rel_option_map hservices fun services services' hs hs' hm =>
    ⟨hm, nodup_servicesOf hs, nodup_servicesOf hs', alike_catalogueOf h, hfindings⟩

/-- The contracts of every class are found within `fuel` steps. -/
def ContractsFound (fuel : Nat) (fs : List Fragment) : Prop :=
  ∀ p ∈ Parts.ofFragments fs, p.kind = .concrete →
    ((catalogueOf fs).contractsOf fuel p.identity).isSome

instance (fuel : Nat) (fs : List Fragment) : Decidable (ContractsFound fuel fs) :=
  inferInstanceAs (Decidable (∀ p ∈ Parts.ofFragments fs, p.kind = .concrete →
    ((catalogueOf fs).contractsOf fuel p.identity).isSome))

theorem mem_partsOf {fs : List Fragment} {p : Parts} :
    (∃ order, (p, order) ∈ partsOf fs) ↔ p ∈ Parts.ofFragments fs := by
  rw [← List.zipIdx_map_fst 0 (Parts.ofFragments fs), List.mem_map]
  simp [partsOf]

theorem isSome_collect_iff {fuel : Nat} {fs : List Fragment} :
    (collect fuel fs).isSome ↔ ∀ p ∈ Parts.ofFragments fs, p.isService →
      ((catalogueOf fs).contractsOf fuel p.identity).isSome := by
  simp only [collect_eq, Option.isSome_map, servicesOf, isSome_mapM_iff, declaredIn,
    List.mem_filter, ← mem_partsOf]
  constructor
  · rintro h p ⟨order, hp⟩ hs
    exact h (p, order) ⟨hp, hs⟩
  · rintro h ⟨p, order⟩ ⟨hp, hs⟩
    exact h p ⟨order, hp⟩ hs

theorem entries_catalogueOf (fs : List Fragment) :
    (catalogueOf fs).entries = (partsOf fs).map fun (p, order) => p.entry order := by
  rw [catalogueOf, Catalogue.ofEntries_eq (nodup_entries fs)]

theorem get?_catalogueOf {fs : List Fragment} {p : Parts} {order : Nat}
    (h : (p, order) ∈ partsOf fs) : (catalogueOf fs).get? p.identity = some (p.entry order) := by
  rw [catalogueOf, Catalogue.get?_ofEntries (nodup_entries fs)]
  refine (find?_eq_some_iff_of_nodup (nodup_entries fs)).mpr ⟨?_, rfl⟩
  exact List.mem_map.mpr ⟨(p, order), h, rfl⟩

theorem contractsFound_congr {fs fs' : List Fragment} (h : Reordered fs fs') (fuel : Nat) :
    ContractsFound fuel fs ↔ ContractsFound fuel fs' := by
  have hparts := Matched.eq_iff.mp (Parts.matched_ofFragments h)
  simp only [ContractsFound, hparts, (alike_catalogueOf h).contractsOf]

end Snapshot

end Injection
