import Injection.Proofs.Expansion
import Injection.Proofs.Insertion
import Mathlib.Order.Bounds.Defs

/-! The contracts of a type are listed in depth-first order: a contract, then all that is found below
it, then what comes after it. The list of pending contracts that the expansion works through is only
another way to go about this. What is listed is the least set of contracts that holds those named by
the type and its ancestors and, with each contract, all that it extends. -/
namespace Injection.Catalogue
variable {c : Catalogue} {ss ts found mid result : List Signature} {s : Signature}

/-- Visiting `ss` in depth-first order after `found` gives `result`: a contract that was found is
passed over, and any other is listed before the contracts that it extends. -/
inductive Visits (c : Catalogue) : (found ss result : List Signature) → Prop
  | done {found : List Signature} : Visits c found [] found
  | known {found ss result : List Signature} {s : Signature} (hs : s ∈ found)
      (rest : Visits c found ss result) : Visits c found (s :: ss) result
  | new {found ss mid result : List Signature} {s : Signature} (hs : s ∉ found)
      (below : Visits c (found ++ [s]) (c.extendedBy s) mid) (rest : Visits c mid ss result) :
      Visits c found (s :: ss) result

namespace Visits

theorem split (h : c.Visits found (ss ++ ts) result) :
    ∃ mid, c.Visits found ss mid ∧ c.Visits mid ts result := by
  induction ss generalizing found with
  | nil => exact ⟨found, .done, h⟩
  | cons s ss ih =>
    cases h with
    | known hs rest =>
      obtain ⟨mid, hss, hts⟩ := ih rest
      exact ⟨mid, .known hs hss, hts⟩
    | new hs below rest =>
      obtain ⟨mid, hss, hts⟩ := ih rest
      exact ⟨mid, .new hs below hss, hts⟩

theorem unique (h : c.Visits found ss mid) (h' : c.Visits found ss result) : mid = result := by
  induction h generalizing result with
  | done =>
    cases h'
    rfl
  | known hs _ ih =>
    cases h' with
    | known _ rest => exact ih rest
    | new hs' _ _ => exact absurd hs hs'
  | new hs _ _ ihbelow ihrest =>
    cases h' with
    | known hs' _ => exact absurd hs' hs
    | new _ below rest =>
      rw [← ihbelow below] at rest
      exact ihrest rest

theorem nodup (h : c.Visits found ss result) (hfound : found.Nodup) : result.Nodup := by
  induction h with
  | done => exact hfound
  | known _ _ ih => exact ih hfound
  | new hs _ _ ihbelow ihrest =>
    apply ihrest
    apply ihbelow
    exact hfound.append (List.nodup_singleton _) (by simpa using hs)

/-- The expansion goes through what it is visiting and then turns to the rest. -/
theorem exists_expand (h : c.Visits found ss mid) :
    ∃ n, ∀ fuel ts, c.expand (n + fuel) (ss ++ ts) found = c.expand fuel ts mid := by
  induction h with
  | done => exact ⟨0, fun fuel ts => by rw [Nat.zero_add, List.nil_append]⟩
  | known hs _ ih =>
    obtain ⟨n, hn⟩ := ih
    refine ⟨n + 1, fun fuel ts => ?_⟩
    rw [Nat.add_right_comm, List.cons_append, expand_known _ hs]
    exact hn fuel ts
  | new hs _ _ ihbelow ihrest =>
    obtain ⟨m, hm⟩ := ihbelow
    obtain ⟨n, hn⟩ := ihrest
    refine ⟨m + n + 1, fun fuel ts => ?_⟩
    rw [Nat.add_right_comm, List.cons_append, expand_new _ hs, Nat.add_assoc, hm]
    exact hn fuel ts

end Visits

theorem visits_of_expand {fuel : Nat} (h : c.expand fuel ss found = some result) :
    c.Visits found ss result := by
  induction fuel, ss, found using expand.induct c with
  | case1 fuel found =>
    rw [expand_nil, Option.some.injEq] at h
    subst h
    exact .done
  | case2 s ss found => simp at h
  | case3 fuel s ss found hs ih =>
    rw [expand_known fuel hs] at h
    exact .known hs (ih h)
  | case4 fuel s ss found hs ih =>
    rw [expand_new fuel hs] at h
    obtain ⟨mid, below, rest⟩ := (ih h).split
    exact .new hs below rest

/-- The expansion ends with a list exactly if that is the list in depth-first order. -/
theorem exists_expand_iff_visits :
    (∃ fuel, c.expand fuel ss found = some result) ↔ c.Visits found ss result := by
  constructor
  · intro h
    obtain ⟨fuel, h⟩ := h
    exact visits_of_expand h
  · intro h
    obtain ⟨n, hn⟩ := h.exists_expand
    have hend := hn 0 []
    rw [List.append_nil, expand_nil] at hend
    exact ⟨_, hend⟩

/-! ## The least set -/

/-- The set holds the contracts that the type names, those that its ancestors name, at the values of
their type parameters, and what any contract in it extends, at the arguments of that contract. -/
structure IsClosed (c : Catalogue) (i : Identity) (S : Set Signature) : Prop where
  own : ∀ e, c.get? i = some e → ∀ s ∈ e.contracts, s ∈ S
  inherited : ∀ a ∈ c.ancestors i, ∀ s ∈ a.entry.contracts, s.subst a.bindings ∈ S
  extended : ∀ s ∈ S, ∀ x, c.lookup? s = some x → x.kind = .contract →
    ∀ t ∈ x.contracts, t.subst (Signature.bind x.params s.args) ∈ S

section Least
variable {e : Entry} (he : c.get? e.identity = some e)
include he

theorem isClosed_reached : c.IsClosed e.identity {s | c.Reached (c.directContracts e) s} where
  own x hx s hs := by
    rw [he, Option.some.injEq] at hx
    subst hx
    exact Reached.root (mem_directContracts.mpr (.inl hs))
  inherited a ha s hs := Reached.root (mem_directContracts.mpr (.inr ⟨a, ha, s, hs, rfl⟩))
  extended s hs x hx hk t ht := Reached.step hs (mem_extendedBy_iff.mpr ⟨x, hx, hk, t, ht, rfl⟩)

theorem IsClosed.mem_of_reached {S : Set Signature} (hS : c.IsClosed e.identity S)
    (h : c.Reached (c.directContracts e) s) : s ∈ S := by
  induction h with
  | root hs =>
    rcases mem_directContracts.mp hs with hs | ⟨a, ha, t, ht, rfl⟩
    · exact hS.own e he _ hs
    · exact hS.inherited a ha t ht
  | step _ ht ih =>
    obtain ⟨x, hx, hk, u, hu, rfl⟩ := mem_extendedBy_iff.mp ht
    exact hS.extended _ ih x hx hk u hu

theorem isLeast_of_expand {fuel : Nat}
    (h : c.expand fuel (c.directContracts e) [] = some result) :
    IsLeast {S | c.IsClosed e.identity S} {s | s ∈ result} := by
  have hend := (Underway.start c (c.directContracts e)).expand h
  have hset : {s | s ∈ result} = {s | c.Reached (c.directContracts e) s} := by
    ext s
    exact hend.mem_iff
  rw [hset]
  refine ⟨isClosed_reached he, ?_⟩
  intro S hS s hs
  exact IsClosed.mem_of_reached he hS hs

end Least

/-- However types were entered, the search for the contracts of one of them ends with a list exactly
if that is the list in depth-first order, which starts with the contracts of the type itself and goes
on with those of its ancestors, the nearest first. What is found is listed once each and makes up the
least closed set, and any other number of steps that suffices finds the same list. -/
theorem contractsOf_least_in_preorder (es : List Entry) (i : Identity) (e : Entry)
    (contracts : List Signature) (he : (ofEntries es).get? i = some e) :
    ((∃ fuel, (ofEntries es).contractsOf fuel i = some contracts) ↔
      (ofEntries es).Visits [] (e.contracts ++ ((ofEntries es).ancestors i).flatMap fun a =>
        a.entry.contracts.map (Signature.subst a.bindings)) contracts) ∧
    ∀ fuel, (ofEntries es).contractsOf fuel i = some contracts →
      contracts.Nodup ∧ IsLeast {S | (ofEntries es).IsClosed i S} {s | s ∈ contracts} ∧
        ∀ fuel' l, (ofEntries es).contractsOf fuel' i = some l → l = contracts := by
  obtain ⟨-, rfl⟩ := (positioned_ofEntries es).get?_eq_some_iff.mp he
  have hexpand : ∀ fuel, (ofEntries es).contractsOf fuel e.identity =
      (ofEntries es).expand fuel ((ofEntries es).directContracts e) [] := by
    intro fuel
    simp only [contractsOf, he]
  simp only [hexpand]
  refine ⟨exists_expand_iff_visits, ?_⟩
  intro fuel h
  have hvisits := visits_of_expand h
  refine ⟨hvisits.nodup .nil, isLeast_of_expand he h, ?_⟩
  intro fuel' l hl
  exact (visits_of_expand hl).unique hvisits

/-- Readers and writers of the same things, which extend each other in a circle, and a store that
inherits the part of the writer. The store is entered twice. The writer extends two contracts that
the store does not have otherwise: all that comes with the thing is listed before the name. -/
def storeEntries : List Entry :=
  [{ identity := ⟨"Store", 0⟩ },
   { identity := ⟨"IThing", 1⟩, params := ["T"], kind := .contract,
     contracts := [.app "IReader" [.param "T"]] },
   { identity := ⟨"IReader", 1⟩, params := ["T"], kind := .contract,
     contracts := [.app "IThing" [.param "T"]] },
   { identity := ⟨"IWriter", 2⟩, params := ["T", "U"], kind := .contract,
     contracts := [.app "IThing" [.param "U"], .app "INamed" [.param "T"],
       .app "IReader" [.param "T"]] },
   { identity := ⟨"Sink", 1⟩, params := ["U"],
     contracts := [.app "IWriter" [.param "U", .named "Unit"]] },
   { identity := ⟨"Store", 0⟩, base := some (.app "Sink" [.named "User"]),
     contracts := [.app "IReader" [.named "User"], .named "IAudit"] }]

def storeContracts : List Signature :=
  [.app "IReader" [.named "User"], .app "IThing" [.named "User"], .named "IAudit",
   .app "IWriter" [.named "User", .named "Unit"], .app "IThing" [.named "Unit"],
   .app "IReader" [.named "Unit"], .app "INamed" [.named "User"]]

theorem contractsOf_least_in_preorder_store :
    ∃ e, (ofEntries storeEntries).get? ⟨"Store", 0⟩ = some e ∧
      (ofEntries storeEntries).contractsOf 12 ⟨"Store", 0⟩ = some storeContracts ∧
      (ofEntries storeEntries).Visits []
        [.app "IReader" [.named "User"], .named "IAudit",
          .app "IWriter" [.named "User", .named "Unit"]] storeContracts ∧
      storeContracts.Nodup ∧
      IsLeast {S | (ofEntries storeEntries).IsClosed ⟨"Store", 0⟩ S} {s | s ∈ storeContracts} := by
  have hfound : (ofEntries storeEntries).contractsOf 12 ⟨"Store", 0⟩ = some storeContracts := by
    decide +kernel
  have hknown : ((ofEntries storeEntries).get? ⟨"Store", 0⟩).isSome := by decide +kernel
  have hdirect : ∀ e ∈ (ofEntries storeEntries).get? ⟨"Store", 0⟩,
      (e.contracts ++ ((ofEntries storeEntries).ancestors ⟨"Store", 0⟩).flatMap fun a =>
        a.entry.contracts.map (Signature.subst a.bindings)) =
      [.app "IReader" [.named "User"], .named "IAudit",
        .app "IWriter" [.named "User", .named "Unit"]] := by
    decide +kernel
  obtain ⟨e, he⟩ := Option.isSome_iff_exists.mp hknown
  obtain ⟨hvisits, hfacts⟩ :=
    contractsOf_least_in_preorder storeEntries ⟨"Store", 0⟩ e storeContracts he
  rw [hdirect e he] at hvisits
  obtain ⟨hnodup, hleast, -⟩ := hfacts 12 hfound
  exact ⟨e, he, hfound, hvisits.mp ⟨12, hfound⟩, hnodup, hleast⟩

end Injection.Catalogue
