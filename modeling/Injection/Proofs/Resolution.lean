import Injection.Proofs.Index
import Injection.Proofs.NormalForm
import Injection.Registry.Basic

/-! Resolving a signature gives what a plain scan of the services gives. -/
namespace Injection

namespace Table

/-- The types with a contract that has the property, in order and each once. -/
def listing (providers : List Provider) (p : Signature → Prop) [DecidablePred p] : List Identity :=
  ((providers.filter fun q => ∃ c ∈ q.contracts, p c).map Provider.identity).eraseDups

theorem mem_listing {providers : List Provider} {p : Signature → Prop} [DecidablePred p]
    {i : Identity} :
    i ∈ listing providers p ↔ ∃ q ∈ providers, q.identity = i ∧ ∃ c ∈ q.contracts, p c := by
  simp only [listing, List.mem_eraseDups, List.mem_map, List.mem_filter, decide_eq_true_eq]
  constructor
  · rintro ⟨q, ⟨hq, hc⟩, rfl⟩
    exact ⟨q, hq, rfl, hc⟩
  · rintro ⟨q, hq, rfl, hc⟩
    exact ⟨q, ⟨hq, hc⟩, rfl⟩

theorem listing_congr {providers : List Provider} {p p' : Signature → Prop} [DecidablePred p]
    [DecidablePred p'] (h : ∀ q ∈ providers, ∀ c ∈ q.contracts, p c ↔ p' c) :
    listing providers p = listing providers p' := by
  have hf : (providers.filter fun q => ∃ c ∈ q.contracts, p c) =
      providers.filter fun q => ∃ c ∈ q.contracts, p' c := by
    refine List.filter_congr fun q hq => decide_eq_decide.mpr ?_
    exact exists_congr fun c => and_congr_right fun hc => h q hq c hc
  rw [listing, listing, hf]

theorem listing_eq_nil {providers : List Provider} {p : Signature → Prop} [DecidablePred p]
    (h : ∀ q ∈ providers, ∀ c ∈ q.contracts, ¬ p c) : listing providers p = [] := by
  refine List.eq_nil_iff_forall_not_mem.mpr fun i hi => ?_
  obtain ⟨q, hq, -, c, hc, hp⟩ := mem_listing.mp hi
  exact h q hq c hc hp

theorem mem_keys {shapes : List (String × Nat)} {c key : Signature} :
    key ∈ keys shapes c ↔
      c = key ∨ c.isOpen ∧ c.isApp ∧ c.normalize (keeps shapes) = key := by
  unfold keys
  split
  next h =>
    obtain ⟨ho, ha⟩ := Bool.and_eq_true_iff.mp h
    simp [ho, ha, eq_comm]
  next h =>
    have hn : ¬ (c.isOpen ∧ c.isApp) := by simpa using h
    simp only [List.mem_singleton]
    constructor
    · rintro rfl
      exact .inl rfl
    · rintro (rfl | ⟨ho, ha, -⟩)
      · rfl
      · exact absurd ⟨ho, ha⟩ hn

theorem map_snd_filter_pairs (providers : List Provider) (shapes : List (String × Nat))
    (key : Signature) :
    (((providers.flatMap fun p => p.contracts.map fun c => (c, p.identity)).flatMap
      fun (c, i) => (keys shapes c).map fun key => (key, i)).filter fun p => p.1 = key).map
        Prod.snd =
    providers.flatMap fun p =>
      ((p.contracts.flatMap (keys shapes)).filter (· = key)).map fun _ => p.identity := by
  simp only [List.filter_flatMap, List.map_flatMap, List.flatMap_assoc, List.flatMap_map,
    List.filter_map, List.map_map]
  rfl

theorem get_ofProviders (providers : List Provider) (key : Signature) :
    (ofProviders providers).index.get key =
      listing providers fun c => key ∈ keys (ofProviders providers).openShapes c := by
  rw [ofProviders, Index.get_ofPairs, map_snd_filter_pairs, eraseDups_flatMap_map_const, listing]
  refine congrArg (fun l => (l.map Provider.identity).eraseDups) (List.filter_congr fun q _ => ?_)
  rw [Bool.eq_iff_iff]
  simp [List.filter_eq_nil_iff]

theorem mem_openShapes {providers : List Provider} {shape : String × Nat} :
    shape ∈ (ofProviders providers).openShapes ↔
      ∃ q ∈ providers, ∃ c ∈ q.contracts, c.isOpen ∧ c.shape? = some shape := by
  simp only [ofProviders, List.mem_filterMap, List.mem_filter, List.mem_flatMap, List.mem_map]
  constructor
  · rintro ⟨_, ⟨⟨q, hq, c, hc, rfl⟩, ho⟩, hs⟩
    exact ⟨q, hq, c, hc, ho, hs⟩
  · rintro ⟨q, hq, c, hc, ho, hs⟩
    exact ⟨(c, q.identity), ⟨⟨q, hq, c, hc, rfl⟩, ho⟩, hs⟩

/-- Only generic types with arguments are kept in normal forms. -/
theorem keeps_openShapes_zero (providers : List Provider) (head : String) :
    keeps (ofProviders providers).openShapes head 0 = false := by
  refine decide_eq_false fun hmem => ?_
  obtain ⟨q, -, c, -, ho, hs⟩ := mem_openShapes.mp hmem
  cases c with
  | app h args =>
    simp only [Signature.shape?, Option.some.injEq, Prod.mk.injEq, List.length_eq_zero_iff] at hs
    exact Signature.args_ne_nil_of_isOpen ho hs.2
  | named name => cases hs
  | param name => cases hs
  | hole index => cases hs

section Lookup
variable {providers : List Provider} {t : Signature}

/-- Under a signature without holes the index lists the types that have it as a contract. -/
theorem get_holeFree (ht : t.holeFree) :
    (ofProviders providers).index.get t = listing providers fun c => c = t := by
  rw [get_ofProviders]
  refine listing_congr fun q hq c hc => ?_
  rw [mem_keys, or_iff_left]
  rintro ⟨ho, ha, rfl⟩
  have := Signature.holeFree_normalize_of_isOpen (keeps_openShapes_zero providers) ho ha
  simp [this] at ht

/-- Under a signature with holes the index lists the types with an open contract of that normal
form. -/
theorem get_of_not_holeFree (hfree : ∀ q ∈ providers, ∀ c ∈ q.contracts, c.holeFree)
    (ht : t.holeFree = false) :
    (ofProviders providers).index.get t = listing providers fun c =>
      c.isOpen ∧ c.isApp ∧ c.normalize (keeps (ofProviders providers).openShapes) = t := by
  rw [get_ofProviders]
  refine listing_congr fun q hq c hc => ?_
  rw [mem_keys, or_iff_right]
  rintro rfl
  simp [hfree q hq c hc] at ht

/-- A normal form of a signature that is not listed itself finds open contracts only. -/
theorem get_normalize (hfree : ∀ q ∈ providers, ∀ c ∈ q.contracts, c.holeFree)
    (ht : t.holeFree) (ha : t.isApp) (hexact : (ofProviders providers).index.get t = [])
    {keep : String → Nat → Bool} (hk : ∀ head, keep head 0 = false) :
    (ofProviders providers).index.get (t.normalize keep) = listing providers fun c =>
      c.isOpen ∧ c.isApp ∧
        c.normalize (keeps (ofProviders providers).openShapes) = t.normalize keep := by
  -- A normal form is a key of its own, unless nothing in the signature was replaced.
  rcases Signature.normalize_eq_self_or_holeFree hk ha with heq | hhole
  · rw [heq, hexact]
    refine (listing_eq_nil fun q hq c hc hcontra => ?_).symm
    obtain ⟨hco, hca, rfl⟩ := hcontra
    have := Signature.holeFree_normalize_of_isOpen (keeps_openShapes_zero providers) hco hca
    simp [this] at ht
  · exact get_of_not_holeFree hfree hhole

end Lookup

theorem firstListed_cons (table : Table) (key : Signature) (keys : List Signature) :
    table.firstListed (key :: keys) =
      if table.index.get key ≠ [] then some (table.index.get key) else table.firstListed keys := by
  rw [firstListed, List.findSome?_cons]
  cases table.index.get key <;> simp [firstListed]

/-- The stages of a lookup whose fallback always answers. -/
theorem lookup_eq (table : Table) (guess : Signature → List (Signature × Identity) → List Identity)
    (t : Signature) :
    table.lookup (fun t cs => .ok (guess t cs)) t = .ok (
      if table.index.get t ≠ [] then some ⟨.exact, table.index.get t⟩
      else if t.isApp ∧ table.index.get (table.normalize t) ≠ [] then
        some ⟨.normalized, table.index.get (table.normalize t)⟩
      else if t.isApp ∧ table.index.get t.flatten ≠ [] then
        some ⟨.normalized, table.index.get t.flatten⟩
      else if t.isClosedApp ∧ guess t table.openContracts ≠ [] then
        some ⟨.fallback, guess t table.openContracts⟩
      else none) := by
  have hnil : table.firstListed [] = none := rfl
  simp only [lookup, firstListed_cons, hnil, Signature.isClosedApp]
  by_cases hexact : table.index.get t = []
  · by_cases happ : t.isApp = true
    · by_cases hnormal : table.index.get (table.normalize t) = []
      · by_cases hflat : table.index.get t.flatten = []
        · by_cases hopen : t.isOpen = true
          · simp [hexact, happ, hnormal, hflat, hopen]
          · cases hguess : guess t table.openContracts <;>
              simp [hexact, happ, hnormal, hflat, hopen]
        · simp [hexact, happ, hnormal, hflat]
      · simp [hexact, happ, hnormal]
    · simp [hexact, happ]
  · simp [hexact]

end Table

namespace Registry

/-- Some service has an open contract with the head and the number of arguments. -/
def keptIn (services : List Service) (head : String) (arity : Nat) : Bool :=
  decide (∃ s ∈ services, ∃ c ∈ s.registered, c.isOpen ∧ c.shape? = some (head, arity))

/-- The services that are registered under a contract with the property, in order and each once. -/
def providersOf (services : List Service) (p : Signature → Prop) [DecidablePred p] :
    List Identity :=
  ((services.filter fun s => ∃ c ∈ s.registered, p c).map Service.identity).eraseDups

def openContractsOf (services : List Service) : List (Signature × Identity) :=
  services.flatMap fun s => (s.registered.filter Signature.isOpen).map fun c => (c, s.identity)

/-- The services with an open generic contract whose normal form is given. -/
def alike (services : List Service) (normal : Signature) : List Identity :=
  providersOf services fun c =>
    c.isOpen ∧ c.isApp ∧ c.normalize (keptIn services) = normal

/-- Resolution by looking through the services anew for every target. -/
def scan (guess : Signature → List (Signature × Identity) → List Identity)
    (services : List Service) (t : Signature) : Option Match :=
  if providersOf services (· = t) ≠ [] then some ⟨.exact, providersOf services (· = t)⟩
  else if t.isApp ∧ alike services (t.normalize (keptIn services)) ≠ [] then
    some ⟨.normalized, alike services (t.normalize (keptIn services))⟩
  else if t.isApp ∧ alike services t.flatten ≠ [] then
    some ⟨.normalized, alike services t.flatten⟩
  else if t.isClosedApp ∧ guess t (openContractsOf services) ≠ [] then
    some ⟨.fallback, guess t (openContractsOf services)⟩
  else none

theorem listing_serviceProviders (services : List Service) (p : Signature → Prop)
    [DecidablePred p] :
    Table.listing (serviceProviders services) p = providersOf services p := by
  rw [Table.listing, serviceProviders, List.filter_map, List.map_map]
  rfl

theorem keeps_serviceProviders (services : List Service) :
    Table.keeps (Table.ofProviders (serviceProviders services)).openShapes = keptIn services := by
  funext head arity
  rw [Table.keeps, keptIn, decide_eq_decide, Table.mem_openShapes]
  simp [serviceProviders]

theorem openContracts_serviceProviders (services : List Service) :
    (Table.ofProviders (serviceProviders services)).openContracts = openContractsOf services := by
  simp only [Table.ofProviders, serviceProviders, openContractsOf, List.flatMap_map,
    List.filter_flatMap, List.filter_map]
  rfl

theorem registered_of_build {fuel : Nat} {fallback : Fallback} {services : List Service}
    {c : Catalogue} {r : Registry} (h : build fuel fallback services c = some r) :
    r.registered = .ofProviders (serviceProviders services) ∧ r.fallback = fallback := by
  obtain ⟨plain, -, rfl⟩ := Option.map_eq_some_iff.mp h
  exact ⟨rfl, rfl⟩

theorem holeFree_registered {s : Service} (h : ∀ c ∈ s.contracts, c.holeFree) :
    ∀ c ∈ s.registered, c.holeFree := by
  intro c hc
  rcases List.mem_cons.mp hc with rfl | hc
  · unfold Service.selfSignature Signature.self
    split
    · rfl
    · simp [Signature.holeFree]
  · exact h c (List.mem_filter.mp hc).1

/-- The registry of a list of services resolves every written target as a scan of the services
does, whichever function is asked last. -/
theorem resolve_eq_scan (fuel : Nat)
    (guess : Signature → List (Signature × Identity) → List Identity) (services : List Service)
    (c : Catalogue) (r : Registry) (t : Signature)
    (hbuild : build fuel (fun t cs => .ok (guess t cs)) services c = some r)
    (hservices : ∀ s ∈ services, ∀ c ∈ s.contracts, c.holeFree) (ht : t.holeFree) :
    r.resolve t = .ok (scan guess services t) := by
  obtain ⟨htable, hfallback⟩ := registered_of_build hbuild
  have hfree : ∀ q ∈ serviceProviders services, ∀ c ∈ q.contracts, c.holeFree := by
    intro q hq
    obtain ⟨s, hs, rfl⟩ := List.mem_map.mp hq
    exact holeFree_registered (hservices s hs)
  have hexact : (Table.ofProviders (serviceProviders services)).index.get t =
      providersOf services (· = t) := by
    rw [Table.get_holeFree ht, listing_serviceProviders]
  rw [resolve, htable, hfallback, Table.lookup_eq, openContracts_serviceProviders, hexact, scan]
  by_cases hnone : providersOf services (· = t) = []
  · by_cases happ : t.isApp = true
    · have halike : ∀ keep : String → Nat → Bool, (∀ head, keep head 0 = false) →
          (Table.ofProviders (serviceProviders services)).index.get (t.normalize keep) =
            alike services (t.normalize keep) := by
        intro keep hkeep
        rw [Table.get_normalize hfree ht happ (hexact.trans hnone) hkeep,
          listing_serviceProviders, keeps_serviceProviders]
        rfl
      have hnormal := halike (keptIn services) (by
        rw [← keeps_serviceProviders]
        exact Table.keeps_openShapes_zero _)
      have hflat := halike (fun _ _ => false) fun _ => rfl
      rw [Table.normalize, keeps_serviceProviders, hnormal, Signature.flatten, hflat]
    · simp [happ]
  · simp [hnone]

/-- A type that keeps `IItems` in normal forms, and one that stands for `IRepo` of anything. -/
def nestedServices : List Service :=
  [{ identity := ⟨"Items", 1⟩, params := ["T"], contracts := [.app "IItems" [.param "T"]] },
   { identity := ⟨"AnyRepo", 1⟩, params := ["T"], contracts := [.app "IRepo" [.param "T"]] }]

/-- Besides these, a type that is not found as a cache, which it excludes, and one without
parameters. -/
def cacheServices : List Service :=
  nestedServices ++
    [{ identity := ⟨"Cache", 1⟩, params := ["T"],
       contracts := [.app "ICache" [.param "T"], .app "IStore" [.param "T"]],
       excluded := [.app "ICache" [.param "T"]] },
     { identity := ⟨"Log", 0⟩, contracts := [.named "ILog"] }]

def cacheTargets : List Signature :=
  [.app "IRepo" [.app "IItems" [.named "User"]], .app "ICache" [.named "User"],
   .app "IStore" [.named "User"], .app "Cache" [.named "User"], .named "Log"]

/-- For the repository the normal form that keeps `IItems` finds nothing, the one without any
structure does. The last two targets are types of the services themselves. -/
theorem resolve_eq_scan_nested :
    ∃ r, build 0 (fun _ _ => .ok []) cacheServices {} = some r ∧
      (∀ s ∈ cacheServices, ∀ c ∈ s.contracts, c.holeFree) ∧
      (∀ t ∈ cacheTargets, t.holeFree ∧
        r.resolve t = .ok (scan (fun _ _ => []) cacheServices t)) ∧
      cacheTargets.map (scan (fun _ _ => []) cacheServices) =
        [some ⟨.normalized, [⟨"AnyRepo", 1⟩]⟩, none, some ⟨.normalized, [⟨"Cache", 1⟩]⟩,
         some ⟨.normalized, [⟨"Cache", 1⟩]⟩, some ⟨.exact, [⟨"Log", 0⟩]⟩] := by
  have hfree : ∀ s ∈ cacheServices, ∀ c ∈ s.contracts, c.holeFree := by decide
  have htargets : ∀ t ∈ cacheTargets, t.holeFree := by decide
  refine ⟨_, rfl, hfree, fun t ht => ⟨htargets t ht, ?_⟩, by decide +kernel⟩
  exact resolve_eq_scan 0 _ cacheServices {} _ t rfl hfree (htargets t ht)

end Registry

end Injection
