import Injection.Proofs.Distinct
import Injection.Proofs.Order
import Injection.Proofs.Sorted
import Injection.Registry.Table

/-! What an index lists under a key is what a scan of the registrations finds, in their order and
each type once. Its rows are in order of their keys, and none of them is empty. -/
namespace Injection

namespace Index

theorem ofPairs_concat (pairs : List (Signature × Identity)) (p : Signature × Identity) :
    ofPairs (pairs ++ [p]) = (ofPairs pairs).insert p.1 p.2 := by
  rw [ofPairs, List.foldl_append]
  rfl

theorem keyed_ofPairs (pairs : List (Signature × Identity)) :
    Sorted.Keyed (ofPairs pairs).rows := by
  induction pairs using List.reverseRecOn with
  | nil => exact .nil
  | append_singleton pairs p ih =>
    rw [ofPairs_concat]
    exact Sorted.keyed_alter _ _ ih

theorem ne_nil_of_mem_insert {index : Index} (h : ∀ row ∈ index.rows, row.2 ≠ [])
    (contract : Signature) (i : Identity) :
    ∀ row ∈ (index.insert contract i).rows, row.2 ≠ [] := by
  intro row hrow
  rcases Sorted.mem_alter hrow with hrow | rfl | ⟨ids, hids, hchanged⟩
  · exact h row hrow
  · simp
  · rw [hchanged]
    dsimp only
    split
    · exact h _ hids
    · simp

/-- No contract is listed without an implementation. -/
theorem ne_nil_of_mem_ofPairs (pairs : List (Signature × Identity)) :
    ∀ row ∈ (ofPairs pairs).rows, row.2 ≠ [] := by
  induction pairs using List.reverseRecOn with
  | nil => exact fun _ h => nomatch h
  | append_singleton pairs p ih =>
    rw [ofPairs_concat]
    exact ne_nil_of_mem_insert ih p.1 p.2

theorem get_of_mem_rows {index : Index} (h : Sorted.Keyed index.rows)
    {row : Signature × List Identity} (hrow : row ∈ index.rows) : index.get row.1 = row.2 := by
  rw [get, (Sorted.mem_iff_lookup h).mp hrow, Option.getD_some]

theorem mem_rows_of_get {index : Index} (h : Sorted.Keyed index.rows) {key : Signature}
    (hne : index.get key ≠ []) : (key, index.get key) ∈ index.rows := by
  rw [Sorted.mem_iff_lookup h]
  cases hl : index.rows.lookup key with
  | none => simp [get, hl] at hne
  | some ids => simp [get, hl]

theorem get_insert {index : Index} (h : Sorted.Keyed index.rows) (contract key : Signature)
    (i : Identity) :
    (index.insert contract i).get key =
      if key = contract ∧ i ∉ index.get key then index.get key ++ [i] else index.get key := by
  rw [get, insert, Sorted.lookup_alter _ _ _ h]
  by_cases hk : key = contract
  · subst hk
    cases hl : index.rows.lookup key with
    | none => simp [get, hl]
    | some ids => by_cases hi : i ∈ ids <;> simp [get, hl, hi]
  · simp [get, hk]

theorem get_ofPairs (pairs : List (Signature × Identity)) (key : Signature) :
    (ofPairs pairs).get key = ((pairs.filter fun p => p.1 = key).map Prod.snd).eraseDups := by
  induction pairs using List.reverseRecOn with
  | nil => rfl
  | append_singleton pairs p ih =>
    obtain ⟨contract, i⟩ := p
    rw [ofPairs_concat, get_insert (keyed_ofPairs pairs), ih, List.filter_append, List.map_append]
    by_cases hk : contract = key
    · have hc := eraseDups_concat ((pairs.filter fun p => p.1 = key).map Prod.snd) i
      simp only [hk, List.mem_eraseDups, true_and, decide_true, List.filter_cons_of_pos,
        List.filter_nil, List.map_singleton, hc]
      split <;> simp_all
    · simp [hk, Ne.symm hk]

end Index

end Injection
