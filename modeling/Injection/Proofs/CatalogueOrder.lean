import Injection.Catalogue.Contracts
import Injection.Proofs.Matched
import Injection.Proofs.Sorted
import Mathlib.Data.List.Induction

/-! Catalogues of the same types give each type the same ancestors and the same contracts, whichever
order the types were entered in and whichever of them are services. -/
namespace Injection

/-- The entries agree in all that ancestors and contracts depend on. -/
structure Entry.Agrees (e e' : Entry) : Prop where
  identity : e.identity = e'.identity
  params : e.params = e'.params
  kind : e.kind = e'.kind
  base : e.base = e'.base
  contracts : e.contracts = e'.contracts

/-- The entries are equal except for their order. -/
def Entry.Alike (e e' : Entry) : Prop := ∃ order, e' = { e with order }

theorem Entry.Alike.agrees {e e' : Entry} (h : e.Alike e') : e.Agrees e' := by
  obtain ⟨order, rfl⟩ := h
  exact ⟨rfl, rfl, rfl, rfl, rfl⟩

/-- The ancestors are equal except for their entries, which are related. -/
structure Ancestor.Parallel (R : Entry → Entry → Prop) (a a' : Ancestor) : Prop where
  entry : R a.entry a'.entry
  signature : a.signature = a'.signature
  bindings : a.bindings = a'.bindings

abbrev Ancestor.Alike (a a' : Ancestor) : Prop := Parallel Entry.Alike a a'

namespace Catalogue

theorem ofEntries_concat (es : List Entry) (e : Entry) :
    ofEntries (es ++ [e]) = (ofEntries es).insert e := by
  rw [ofEntries, List.foldl_append, ← ofEntries, List.foldl_cons, List.foldl_nil]

theorem ofEntries_eq {es : List Entry} (h : (es.map Entry.identity).Nodup) :
    ofEntries es = ⟨es, (es.map Entry.identity).zipIdx⟩ := by
  induction es using List.reverseRecOn with
  | nil => rfl
  | append_singleton es e ih =>
    rw [List.map_append, List.nodup_append] at h
    have hfresh : (es.map Entry.identity).zipIdx.lookup e.identity = none := by
      refine List.lookup_eq_none_iff.mpr fun p hp => bne_iff_ne.mpr ?_
      exact (h.2.2 p.1 (List.fst_mem_of_mem_zipIdx hp) e.identity (by simp)).symm
    rw [ofEntries_concat, ih h.1, insert, hfresh]
    simp [List.zipIdx_append]

theorem lookup_zipIdx (es : List Entry) (i : Identity) (start : Nat) :
    (((es.map Entry.identity).zipIdx start).lookup i).bind (fun p => es[p - start]?) =
      es.find? fun e => e.identity = i := by
  induction es generalizing start with
  | nil => rfl
  | cons e es ih =>
    rw [List.map_cons, List.zipIdx_cons, Sorted.lookup_cons_ite]
    by_cases hi : e.identity = i
    · simp [hi]
    · rw [if_neg (Ne.symm hi), List.find?_cons_of_neg (by simpa using hi), ← ih (start + 1)]
      refine Option.bind_congr fun p hp => ?_
      obtain ⟨l₁, l₂, hl, -⟩ := List.lookup_eq_some_iff.mp hp
      have hle : start + 1 ≤ p := by
        have hmem : (i, p) ∈ (es.map Entry.identity).zipIdx (start + 1) := by simp [hl]
        exact List.le_snd_of_mem_zipIdx hmem
      rw [show p - start = p - (start + 1) + 1 by omega, List.getElem?_cons_succ]

theorem get?_ofEntries {es : List Entry} (h : (es.map Entry.identity).Nodup) (i : Identity) :
    (ofEntries es).get? i = es.find? fun e => e.identity = i := by
  rw [ofEntries_eq h, ← lookup_zipIdx es i 0, get?]
  cases ((es.map Entry.identity).zipIdx 0).lookup i <;> rfl

section Walk
variable {c : Catalogue} {unseen : List Identity} {σ : Signature.Bindings} {base : Signature}
  {e : Entry}

@[simp] theorem walk_none : c.walk unseen σ none = [] := by rw [walk]

theorem walk_root (h : (base.subst σ).headName ∈ rootNames) : c.walk unseen σ (some base) = [] := by
  rw [walk]
  exact if_pos h

theorem walk_unknown (h : c.lookup? (base.subst σ) = none) : c.walk unseen σ (some base) = [] := by
  rw [walk]
  simp [h]

theorem walk_seen (h : c.lookup? (base.subst σ) = some e) (hseen : e.identity ∉ unseen) :
    c.walk unseen σ (some base) = [] := by
  rw [walk]
  simp [h, hseen]

theorem walk_cons (hroot : (base.subst σ).headName ∉ rootNames)
    (h : c.lookup? (base.subst σ) = some e) (hunseen : e.identity ∈ unseen) :
    c.walk unseen σ (some base) =
      ⟨e, base.subst σ, Signature.bind e.params (base.subst σ).args⟩ ::
        c.walk (unseen.erase e.identity) (Signature.bind e.params (base.subst σ).args) e.base := by
  rw [walk]
  simp [h, hroot, hunseen]

end Walk

/-- The same types with related entries, each entered once. -/
structure Parallel (R : Entry → Entry → Prop) (c c' : Catalogue) : Prop where
  get? : ∀ i, Option.Rel R (c.get? i) (c'.get? i)
  entries : Matched R c.entries c'.entries
  nodup : (c.entries.map Entry.identity).Nodup
  nodup' : (c'.entries.map Entry.identity).Nodup

section Parallel
variable {R : Entry → Entry → Prop} (hR : ∀ e e', R e e' → e.Agrees e')
include hR

theorem parallel_ofEntries {es es' : List Entry} (h : Matched R es es')
    (hd : (es.map Entry.identity).Nodup) (hd' : (es'.map Entry.identity).Nodup) :
    Parallel R (ofEntries es) (ofEntries es') := by
  refine ⟨fun i => ?_, ?_, ?_, ?_⟩
  · rw [get?_ofEntries hd, get?_ofEntries hd']
    exact h.find? (fun e e' he => (hR e e' he).identity) hd' i
  · rw [ofEntries_eq hd, ofEntries_eq hd']
    exact h
  · rw [ofEntries_eq hd]
    exact hd
  · rw [ofEntries_eq hd']
    exact hd'

namespace Parallel
variable {c c' : Catalogue} (h : Parallel R c c')
include h

omit hR in
theorem lookup? (s : Signature) : Option.Rel R (c.lookup? s) (c'.lookup? s) := by
  cases s with
  | named name => exact h.get? _
  | app head args => exact h.get? _
  | param name => exact .none
  | hole index => exact .none

theorem walk {unseen unseen' : List Identity} (hd : unseen.Nodup) (hd' : unseen'.Nodup)
    (hu : ∀ i, i ∈ unseen ↔ i ∈ unseen') (σ : Signature.Bindings) (base : Option Signature) :
    List.Forall₂ (Ancestor.Parallel R) (c.walk unseen σ base) (c'.walk unseen' σ base) := by
  cases base with
  | none =>
    rw [walk_none, walk_none]
    exact .nil
  | some base =>
    by_cases hroot : (base.subst σ).headName ∈ rootNames
    · rw [walk_root hroot, walk_root hroot]
      exact .nil
    have hlookup := h.lookup? (base.subst σ)
    cases hs : c.lookup? (base.subst σ) with
    | none =>
      rw [walk_unknown hs, walk_unknown (eq_none_of_rel (hs ▸ hlookup))]
      exact .nil
    | some e =>
      obtain ⟨e', hs', he⟩ := exists_of_rel_some (hs ▸ hlookup)
      have hagrees := hR e e' he
      have hid := hagrees.identity
      by_cases hmem : e.identity ∈ unseen
      · rw [walk_cons hroot hs hmem, walk_cons hroot hs' (hid ▸ (hu e.identity).mp hmem),
          ← hagrees.params, ← hagrees.base, ← hid]
        -- Each type stands among the unseen ones once, so it is gone from both after erasing it.
        refine .cons ⟨he, rfl, rfl⟩ (Parallel.walk (hd.erase _) (hd'.erase _) (fun i => ?_) _ _)
        rw [hd.mem_erase_iff, hd'.mem_erase_iff, hu i]
      · rw [walk_seen hs hmem, walk_seen hs' (by rwa [← hid, ← hu e.identity])]
        exact .nil
termination_by unseen.length
decreasing_by
  rw [List.length_erase_of_mem hmem]
  exact Nat.sub_lt (List.length_pos_of_mem hmem) Nat.one_pos

theorem ancestors (i : Identity) :
    List.Forall₂ (Ancestor.Parallel R) (c.ancestors i) (c'.ancestors i) := by
  have hbase : (c.get? i).bind Entry.base = (c'.get? i).bind Entry.base :=
    bind_eq_of_rel (h.get? i) fun e e' he => (hR e e' he).base
  have hknown : ∀ j, j ∈ c.entries.map Entry.identity ↔ j ∈ c'.entries.map Entry.identity :=
    Matched.eq_iff.mp (h.entries.map fun e e' he => (hR e e' he).identity)
  rw [Catalogue.ancestors, Catalogue.ancestors, hbase]
  refine h.walk hR (h.nodup.erase i) (h.nodup'.erase i) (fun j => ?_) _ _
  rw [h.nodup.mem_erase_iff, h.nodup'.mem_erase_iff, hknown j]

theorem extendedBy (s : Signature) : c.extendedBy s = c'.extendedBy s := by
  have hlookup := h.lookup? s
  unfold Catalogue.extendedBy
  generalize c.lookup? s = l, c'.lookup? s = l' at hlookup ⊢
  cases hlookup with
  | none => rfl
  | some he =>
    have hagrees := hR _ _ he
    dsimp only
    rw [hagrees.kind, hagrees.params, hagrees.contracts]

theorem expand (fuel : Nat) (pending found : List Signature) :
    c.expand fuel pending found = c'.expand fuel pending found := by
  induction fuel, pending, found using expand.induct c with
  | case1 fuel found => simp only [Catalogue.expand]
  | case2 s pending found => simp only [Catalogue.expand]
  | case3 fuel s pending found hs ih => simp only [Catalogue.expand, if_pos hs, ih]
  | case4 fuel s pending found hs ih =>
    rw [Catalogue.expand, Catalogue.expand, if_neg hs, if_neg hs, ih, h.extendedBy hR]

theorem directContracts {e e' : Entry} (he : e.Agrees e') :
    c.directContracts e = c'.directContracts e' := by
  have hh := h.ancestors hR e.identity
  rw [Catalogue.directContracts, Catalogue.directContracts, ← he.identity, ← he.contracts]
  refine congrArg (e.contracts ++ ·) ?_
  generalize c.ancestors e.identity = as, c'.ancestors e.identity = as' at hh ⊢
  induction hh with
  | nil => rfl
  | cons ha _ ih =>
    rw [List.flatMap_cons, List.flatMap_cons, ih, (hR _ _ ha.entry).contracts, ha.bindings]

theorem contractsOf (fuel : Nat) (i : Identity) : c.contractsOf fuel i = c'.contractsOf fuel i := by
  have hget := h.get? i
  unfold Catalogue.contractsOf
  generalize c.get? i = l, c'.get? i = l' at hget ⊢
  cases hget with
  | none => rfl
  | some he =>
    dsimp only
    rw [h.directContracts hR (hR _ _ he), h.expand hR]

end Parallel

end Parallel

/-- The same types with alike entries, each entered once. -/
abbrev Alike (c c' : Catalogue) : Prop := Parallel Entry.Alike c c'

namespace Alike
variable {c c' : Catalogue}

theorem ancestors (h : Alike c c') (i : Identity) :
    List.Forall₂ Ancestor.Alike (c.ancestors i) (c'.ancestors i) :=
  Parallel.ancestors (fun _ _ => Entry.Alike.agrees) h i

theorem contractsOf (h : Alike c c') (fuel : Nat) (i : Identity) :
    c.contractsOf fuel i = c'.contractsOf fuel i :=
  Parallel.contractsOf (fun _ _ => Entry.Alike.agrees) h fuel i

end Alike

end Catalogue

end Injection
