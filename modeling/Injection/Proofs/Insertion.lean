import Injection.Proofs.CatalogueOrder
import Injection.Proofs.Distinct
import Mathlib.Data.Finset.Card

/-! Types that are entered one after the other, some of them perhaps more than once. A type keeps
the position of its first entry, so positions and entries stay in step, and what is found for it is
its last entry. -/
namespace Injection.Catalogue
variable {c : Catalogue} {e : Entry} {i : Identity}

/-- Each type has one entry, and its position tells where that is. -/
structure Positioned (c : Catalogue) : Prop where
  nodup : (c.entries.map Entry.identity).Nodup
  positions : c.positions = (c.entries.map Entry.identity).zipIdx

namespace Positioned

theorem get?_eq_find? (h : c.Positioned) (i : Identity) :
    c.get? i = c.entries.find? fun e => e.identity = i := by
  rw [← lookup_zipIdx c.entries i 0, get?, h.positions]
  cases ((c.entries.map Entry.identity).zipIdx 0).lookup i <;> rfl

theorem get?_eq_some_iff (h : c.Positioned) :
    c.get? i = some e ↔ e ∈ c.entries ∧ e.identity = i := by
  rw [h.get?_eq_find?, find?_eq_some_iff_of_nodup h.nodup]

/-- The type of a signature is known by its own identity. -/
theorem get?_of_lookup? (h : c.Positioned) {s : Signature} (hs : c.lookup? s = some e) :
    c.get? e.identity = some e := by
  have hfound : ∀ i, c.get? i = some e → c.get? e.identity = some e := by
    intro i hi
    obtain ⟨-, rfl⟩ := h.get?_eq_some_iff.mp hi
    exact hi
  cases s with
  | named name => exact hfound _ hs
  | app head args => exact hfound _ hs
  | param name => cases hs
  | hole index => cases hs

theorem getElem?_of_lookup (h : c.Positioned) {n : Nat} (hn : c.positions.lookup i = some n) :
    (c.entries.map Entry.identity)[n]? = some i := by
  obtain ⟨l₁, l₂, hl, -⟩ := List.lookup_eq_some_iff.mp hn
  have hmem : (i, n) ∈ (c.entries.map Entry.identity).zipIdx := by
    rw [← h.positions, hl]
    simp
  exact List.mem_zipIdx_iff_getElem?.mp hmem

theorem exists_of_lookup (h : c.Positioned) {n : Nat} (hn : c.positions.lookup i = some n) :
    ∃ e, n < c.entries.length ∧ c.entries[n]? = some e ∧ e.identity = i := by
  have hat := h.getElem?_of_lookup hn
  rw [List.getElem?_map] at hat
  obtain ⟨e, he, hid⟩ := Option.map_eq_some_iff.mp hat
  exact ⟨e, (List.getElem?_eq_some_iff.mp he).1, he, hid⟩

theorem not_mem_of_lookup (h : c.Positioned) (hn : c.positions.lookup i = none) :
    i ∉ c.entries.map Entry.identity := by
  intro hi
  obtain ⟨n, hi⟩ := List.mem_iff_getElem?.mp hi
  have hmem : (i, n) ∈ c.positions := by
    rw [h.positions]
    exact List.mem_zipIdx_iff_getElem?.mpr hi
  have hne := List.lookup_eq_none_iff.mp hn (i, n) hmem
  simp at hne

/-- An entry has the identity of the one it replaces. -/
theorem map_identity_set (h : c.Positioned) {n : Nat}
    (hn : c.positions.lookup e.identity = some n) :
    (c.entries.set n e).map Entry.identity = c.entries.map Entry.identity := by
  obtain ⟨hlt, hat⟩ := List.getElem?_eq_some_iff.mp (h.getElem?_of_lookup hn)
  rw [List.map_set, ← hat]
  exact List.set_getElem_self hlt

theorem insert (h : c.Positioned) (e : Entry) : (c.insert e).Positioned := by
  unfold Catalogue.insert
  split
  next n hn =>
    have hsame := h.map_identity_set hn
    exact ⟨hsame ▸ h.nodup, hsame ▸ h.positions⟩
  next hn =>
    have hfresh := h.not_mem_of_lookup hn
    refine ⟨?_, ?_⟩
    · rw [List.map_append, List.map_singleton]
      exact h.nodup.append (List.nodup_singleton e.identity) (by simpa using hfresh)
    · rw [List.map_append, List.zipIdx_append, h.positions]
      simp

/-- An entry that takes the place of another leaves the list of types as it is, and any other
entry is put at its end. -/
theorem map_identity_insert (h : c.Positioned) (e : Entry) :
    (c.insert e).entries.map Entry.identity =
      if e.identity ∈ c.entries.map Entry.identity then c.entries.map Entry.identity
      else c.entries.map Entry.identity ++ [e.identity] := by
  unfold Catalogue.insert
  split
  next n hn =>
    have hat := h.getElem?_of_lookup hn
    rw [if_pos (List.mem_of_getElem? hat), h.map_identity_set hn]
  next hn =>
    rw [if_neg (h.not_mem_of_lookup hn), List.map_append, List.map_singleton]

/-- An insertion changes what is found for one type and for no other. -/
theorem get?_insert (h : c.Positioned) (e : Entry) (i : Identity) :
    (c.insert e).get? i = if i = e.identity then some e else c.get? i := by
  unfold Catalogue.insert
  split
  next n hn =>
    by_cases hi : i = e.identity
    · obtain ⟨-, hlt, -⟩ := h.exists_of_lookup hn
      simp [get?, hi, hn, hlt]
    · rw [if_neg hi, get?, get?]
      cases hp : c.positions.lookup i with
      | none => rfl
      | some p =>
        -- Types at one position are the same type.
        have hne : n ≠ p := by
          rintro rfl
          have hat := h.getElem?_of_lookup hn
          rw [h.getElem?_of_lookup hp] at hat
          exact hi (Option.some.inj hat)
        exact List.getElem?_set_ne hne
  next hn =>
    rw [get?, List.lookup_append, Sorted.lookup_cons_ite]
    by_cases hi : i = e.identity
    · simp [hi, hn]
    · rw [if_neg hi, if_neg hi, List.lookup_nil, Option.or_none, get?]
      cases hp : c.positions.lookup i with
      | none => rfl
      | some p =>
        obtain ⟨-, hlt, -⟩ := h.exists_of_lookup hp
        exact List.getElem?_append_left hlt

end Positioned

theorem positioned_ofEntries (es : List Entry) : (ofEntries es).Positioned := by
  induction es using List.reverseRecOn with
  | nil => exact ⟨.nil, rfl⟩
  | append_singleton es e ih =>
    rw [ofEntries_concat]
    exact ih.insert e

theorem map_identity_ofEntries (es : List Entry) :
    (ofEntries es).entries.map Entry.identity = (es.map Entry.identity).eraseDups := by
  induction es using List.reverseRecOn with
  | nil => rfl
  | append_singleton es e ih =>
    rw [ofEntries_concat, (positioned_ofEntries es).map_identity_insert, ih, List.map_append,
      List.map_singleton, eraseDups_concat]
    simp only [List.mem_eraseDups]

/-- The entry that was made last for a type, or none if the type was never entered. -/
inductive Latest (es : List Entry) (i : Identity) : Option Entry → Prop
  | never (h : ∀ e ∈ es, e.identity ≠ i) : Latest es i none
  | last {before after : List Entry} {e : Entry} (split : es = before ++ e :: after)
      (identity : e.identity = i) (h : ∀ x ∈ after, x.identity ≠ i) : Latest es i (some e)

theorem Latest.concat {es : List Entry} {found : Option Entry} (h : Latest es i found)
    (e : Entry) : Latest (es ++ [e]) i (if i = e.identity then some e else found) := by
  split
  next hi => exact .last rfl hi.symm (by simp)
  next hi =>
    have hmore : ∀ {l : List Entry}, (∀ x ∈ l, x.identity ≠ i) →
        ∀ x ∈ l ++ [e], x.identity ≠ i := by
      intro l hl
      exact List.forall_mem_append.mpr ⟨hl, List.forall_mem_singleton.mpr (Ne.symm hi)⟩
    cases h with
    | never hes => exact .never (hmore hes)
    | last hsplit hid hafter =>
      exact .last (by rw [hsplit, List.append_assoc, List.cons_append]) hid (hmore hafter)

theorem latest_get?_ofEntries (es : List Entry) (i : Identity) :
    Latest es i ((ofEntries es).get? i) := by
  induction es using List.reverseRecOn with
  | nil => exact .never (by simp)
  | append_singleton es e ih =>
    rw [ofEntries_concat, (positioned_ofEntries es).get?_insert]
    exact ih.concat e

/-- The catalogue holds the types that were entered, each at the position of its first entry and
with its last one. -/
structure Holds (c : Catalogue) (es : List Entry) : Prop where
  placed : ∀ i, (∃ n, c.positions.lookup i = some n) ↔ ∃ e ∈ es, e.identity = i
  inRange : ∀ i n, c.positions.lookup i = some n →
    ∃ e, n < c.size ∧ c.entries[n]? = some e ∧ e.identity = i
  entered : ∀ i, i ∈ c.entries.map Entry.identity ↔ ∃ e ∈ es, e.identity = i
  nodup : (c.entries.map Entry.identity).Nodup
  ordered : (c.entries.map Entry.identity).Pairwise fun i j =>
    (es.map Entry.identity).idxOf i < (es.map Entry.identity).idxOf j
  size : c.size = (es.map Entry.identity).toFinset.card
  latest : ∀ i, Latest es i (c.get? i)
  named : ∀ name, c.lookup? (.named name) = c.get? ⟨name, 0⟩
  applied : ∀ head args, c.lookup? (.app head args) = c.get? ⟨head, args.length⟩
  abstracted : ∀ s, (∃ name, s = .param name) ∨ (∃ n, s = .hole n) → c.lookup? s = none

/-- Entering types one after the other keeps positions and entries consistent, whichever types are
entered again and in whichever order. -/
theorem ofEntries_holds (es : List Entry) : (ofEntries es).Holds es := by
  have hpositioned := positioned_ofEntries es
  have hidentities := map_identity_ofEntries es
  have hentered : ∀ i, i ∈ (ofEntries es).entries.map Entry.identity ↔
      ∃ e ∈ es, e.identity = i := by
    intro i
    rw [hidentities, List.mem_eraseDups, List.mem_map]
  refine
    { placed := fun i => ?_
      inRange := fun i n hn => ?_
      entered := hentered
      nodup := hpositioned.nodup
      ordered := hidentities ▸ pairwise_idxOf_eraseDups _
      size := ?_
      latest := latest_get?_ofEntries es
      named := fun _ => rfl
      applied := fun _ _ => rfl
      abstracted := ?_ }
  · rw [← hentered]
    constructor
    · rintro ⟨n, hn⟩
      exact List.mem_of_getElem? (hpositioned.getElem?_of_lookup hn)
    · intro hi
      cases hn : (ofEntries es).positions.lookup i with
      | none => exact absurd hi (hpositioned.not_mem_of_lookup hn)
      | some n => exact ⟨n, rfl⟩
  · exact hpositioned.exists_of_lookup hn
  · have hsame : (es.map Entry.identity).toFinset =
        ((ofEntries es).entries.map Entry.identity).toFinset := by
      ext i
      simp only [List.mem_toFinset, hidentities, List.mem_eraseDups]
    rw [hsame, List.toFinset_card_of_nodup hpositioned.nodup, List.length_map, size]
  · rintro s (⟨name, rfl⟩ | ⟨n, rfl⟩) <;> rfl

end Injection.Catalogue
