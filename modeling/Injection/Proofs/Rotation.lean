import Injection.Graph.Cycle
import Injection.Proofs.Order
import Mathlib.Data.List.Rotate
import Mathlib.Logic.Relation

/-! Cycles as lists of nodes. Turning a cycle keeps its steps; the turn that puts the least node in
front picks one list out of all turns of a cycle. -/
namespace Injection.Graph

theorem cycleSteps_eq_zip_rotate (c : List Identity) : cycleSteps c = c.zip (c.rotate 1) := by
  cases c with
  | nil => rfl
  | cons i is => simp [cycleSteps]

theorem cycleSteps_rotate (c : List Identity) (n : ℕ) :
    cycleSteps (c.rotate n) = (cycleSteps c).rotate n := by
  have hz : (c.zip (c.rotate 1)).rotate n = (c.rotate n).zip ((c.rotate 1).rotate n) :=
    List.zipWith_rotate_distrib Prod.mk c (c.rotate 1) n (by simp)
  rw [cycleSteps_eq_zip_rotate, cycleSteps_eq_zip_rotate, hz, List.rotate_rotate,
    List.rotate_rotate, Nat.add_comm]

theorem forall_zip_iff_isChain {R : Identity → Identity → Prop} {i k : Identity}
    {is : List Identity} :
    (∀ p ∈ (i :: is).zip (is ++ [k]), R p.1 p.2) ↔ List.IsChain R (i :: (is ++ [k])) := by
  induction is generalizing i with
  | nil => simp
  | cons j is ih =>
    have hj := @ih j
    simp only [List.cons_append, List.zip_cons_cons, List.forall_mem_cons,
      List.isChain_cons_cons] at hj ⊢
    rw [hj]

theorem forall_cycleSteps_iff {R : Identity → Identity → Prop} {i : Identity}
    {is : List Identity} :
    (∀ p ∈ cycleSteps (i :: is), R p.1 p.2) ↔ List.IsChain R (i :: (is ++ [i])) :=
  forall_zip_iff_isChain

theorem transGen_of_isChain {R : Identity → Identity → Prop} {i k : Identity}
    {is : List Identity} (h : List.IsChain R (i :: (is ++ [k]))) : Relation.TransGen R i k := by
  induction is generalizing i with
  | nil => exact .single (by simpa using h)
  | cons j is ih =>
    obtain ⟨hij, hj⟩ := List.isChain_cons_cons.mp h
    exact .head hij (ih hj)

/-- The steps of a cycle lead from its first node back to it. -/
theorem transGen_of_cycleSteps {R : Identity → Identity → Prop} {i : Identity}
    {is : List Identity} (h : ∀ p ∈ cycleSteps (i :: is), R p.1 p.2) : Relation.TransGen R i i :=
  transGen_of_isChain (forall_cycleSteps_iff.mp h)

theorem last_mem_zip {i j k : Identity} {is : List Identity} (h : (i :: is).getLast? = some j) :
    (j, k) ∈ (i :: is).zip (is ++ [k]) := by
  induction is generalizing i with
  | nil => simp_all
  | cons l is ih =>
    rw [List.getLast?_cons_cons] at h
    exact List.mem_cons_of_mem _ (ih h)

/-- The last step of a cycle goes back to the start. -/
theorem last_mem_cycleSteps {i j : Identity} {is : List Identity}
    (h : (i :: is).getLast? = some j) : (j, i) ∈ cycleSteps (i :: is) := last_mem_zip h

/-! ## The least node -/

theorem least_cons (i j : Identity) (is : List Identity) :
    least i (j :: is) = if (compare j i).isLT then least j is else least i is := by
  rw [least, List.foldl_cons]
  split <;> rfl

theorem least_mem (i : Identity) (is : List Identity) : least i is ∈ i :: is := by
  induction is generalizing i with
  | nil => simp [least]
  | cons j is ih =>
    rw [least_cons]
    split
    · exact List.mem_cons_of_mem _ (ih j)
    · exact List.mem_cons.mpr ((List.mem_cons.mp (ih i)).imp_right (List.mem_cons_of_mem _))

theorem least_isLE {i j : Identity} {is : List Identity} (h : j ∈ i :: is) :
    (compare (least i is) j).isLE := by
  induction is generalizing i j with
  | nil => simp_all [least]
  | cons k is ih =>
    rw [least_cons]
    split
    next hlt =>
      have hki : (compare k i).isLE := Ordering.isLE_of_eq_lt (Ordering.isLT_iff_eq_lt.mp hlt)
      rcases List.mem_cons.mp h with rfl | h
      · exact Std.TransCmp.isLE_trans (ih List.mem_cons_self) hki
      · exact ih h
    next hlt =>
      have hik : (compare i k).isLE := by
        rw [Std.OrientedOrd.eq_swap]
        cases hc : compare k i <;> simp_all
      rcases List.mem_cons.mp h with rfl | h
      · exact ih List.mem_cons_self
      rcases List.mem_cons.mp h with rfl | h
      · exact Std.TransCmp.isLE_trans (ih List.mem_cons_self) hik
      · exact ih (List.mem_cons_of_mem _ h)

theorem dropWhile_ne_eq_cons {m : Identity} {c : List Identity} (h : m ∈ c) :
    ∃ rest, c.dropWhile (· ≠ m) = m :: rest := by
  induction c with
  | nil => simp at h
  | cons i is ih =>
    by_cases hi : i = m
    · exact ⟨is, by simp [hi]⟩
    · obtain ⟨rest, hr⟩ := ih ((List.mem_cons.mp h).resolve_left (Ne.symm hi))
      exact ⟨rest, by simpa [hi] using hr⟩

theorem rotateToLeast_cons (i : Identity) (is : List Identity) :
    ∃ rest, rotateToLeast (i :: is) = least i is :: rest := by
  obtain ⟨rest, hr⟩ := dropWhile_ne_eq_cons (least_mem i is)
  exact ⟨_, by rw [rotateToLeast, hr]; rfl⟩

theorem rotateToLeast_eq_rotate (c : List Identity) : ∃ n, rotateToLeast c = c.rotate n := by
  cases c with
  | nil => exact ⟨0, rfl⟩
  | cons i is =>
    have hh := List.rotate_append_length_eq ((i :: is).takeWhile (· ≠ least i is))
      ((i :: is).dropWhile (· ≠ least i is))
    rw [List.takeWhile_append_dropWhile] at hh
    exact ⟨_, hh.symm⟩

/-- An elementary cycle of a relation, listed from its least node on. -/
structure IsCycle (R : Identity → Identity → Prop) (c : List Identity) : Prop where
  nonempty : c ≠ []
  distinct : c.Nodup
  linked : ∀ p ∈ cycleSteps c, R p.1 p.2
  leastFirst : ∀ i is, c = i :: is → ∀ j ∈ is, compare i j = .lt

theorem mem_cycleSteps_rotateToLeast {c : List Identity} {p : Identity × Identity} :
    p ∈ cycleSteps (rotateToLeast c) ↔ p ∈ cycleSteps c := by
  obtain ⟨n, hn⟩ := rotateToLeast_eq_rotate c
  rw [hn, cycleSteps_rotate, List.mem_rotate]

theorem isCycle_rotateToLeast {R : Identity → Identity → Prop} {c : List Identity} (hc : c ≠ [])
    (hd : c.Nodup) (hl : ∀ p ∈ cycleSteps c, R p.1 p.2) : IsCycle R (rotateToLeast c) := by
  obtain ⟨n, hn⟩ := rotateToLeast_eq_rotate c
  have hd' : (rotateToLeast c).Nodup := by rwa [hn, List.nodup_rotate]
  refine ⟨by simpa [hn] using hc, hd', fun p hp => ?_, fun m rest hm j hj => ?_⟩
  · exact hl p (mem_cycleSteps_rotateToLeast.mp hp)
  · cases c with
    | nil => exact absurd rfl hc
    | cons i is =>
      obtain ⟨_, hr⟩ := rotateToLeast_cons i is
      obtain ⟨rfl, rfl⟩ := List.cons.inj (hr.symm.trans hm)
      have hji : j ∈ i :: is := by
        rw [← List.mem_rotate (n := n), ← hn, hm]
        exact List.mem_cons_of_mem _ hj
      rcases Ordering.isLE_iff_eq_lt_or_eq_eq.mp (least_isLE hji) with hlt | heq
      · exact hlt
      · rw [hm, Std.LawfulEqOrd.eq_of_compare heq] at hd'
        exact absurd hj (List.nodup_cons.mp hd').1

theorem IsCycle.head_eq {R : Identity → Identity → Prop} {i j : Identity} {is js : List Identity}
    (hi : IsCycle R (i :: is)) (hj : IsCycle R (j :: js)) (h : (i :: is).Perm (j :: js)) :
    i = j := by
  by_contra hne
  have hij : j ∈ is := by simpa [Ne.symm hne] using h.mem_iff.mpr (List.mem_cons_self (a := j))
  have hji : i ∈ js := by simpa [hne] using h.mem_iff.mp (List.mem_cons_self (a := i))
  have hlt := hi.leastFirst i is rfl j hij
  exact Std.OrientedCmp.not_lt_of_lt hlt (hj.leastFirst j js rfl i hji)

/-- Of the turns of a cycle only one starts at its least node. -/
theorem IsCycle.eq_of_isRotated {R : Identity → Identity → Prop} {c d : List Identity}
    (hc : IsCycle R c) (hd : IsCycle R d) (h : c ~r d) : c = d := by
  obtain ⟨n, hn, he⟩ := List.isRotated_iff_mod.mp h
  rcases Nat.lt_or_eq_of_le hn with hn | rfl
  · cases c with
    | nil => exact absurd rfl hc.nonempty
    | cons i is =>
      cases d with
      | nil => exact absurd rfl hd.nonempty
      | cons j js =>
        have hij := hc.head_eq hd h.perm
        have hh := List.head?_rotate hn
        rw [he, List.head?_cons, ← hij] at hh
        have hzero : 0 = n := (List.getElem?_inj (by simp) hc.distinct).mp hh
        rwa [← hzero, List.rotate_zero] at he
  · rwa [List.rotate_length] at he

end Injection.Graph
