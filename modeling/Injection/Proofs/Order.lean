import Injection.Identity
import Injection.Signature.Basic

/-! Identities and signatures are linearly ordered: comparison is antisymmetric and transitive, and
only equal values compare equal. The order of signatures is lexicographic at every level. -/
namespace Injection

namespace Identity

instance : Std.TransOrd Identity :=
  inferInstanceAs (Std.TransCmp (compareLex (compareOn name) (compareOn arity)))

instance : Std.LawfulEqOrd Identity where
  eq_of_compare {i j} h := by
    obtain ⟨hn, ha⟩ := Ordering.then_eq_eq.mp h
    cases i
    cases j
    simp_all

end Identity

namespace Signature

mutual
theorem cmp_swap (s t : Signature) : cmp s t = (cmp t s).swap := by
  cases s with
  | app f ss =>
    cases t with
    | app g ts =>
      simp only [cmp, Ordering.swap_then, cmpArgs_swap ss ts]
      rw [Std.OrientedOrd.eq_swap (a := f)]
    | named b => exact Std.OrientedOrd.eq_swap
    | param b => exact Std.OrientedOrd.eq_swap
    | hole j => exact Std.OrientedOrd.eq_swap
  | named a => cases t <;> exact Std.OrientedOrd.eq_swap
  | param a => cases t <;> exact Std.OrientedOrd.eq_swap
  | hole i => cases t <;> exact Std.OrientedOrd.eq_swap

theorem cmpArgs_swap (ss ts : List Signature) : cmpArgs ss ts = (cmpArgs ts ss).swap := by
  match ss, ts with
  | [], [] => rfl
  | [], _ :: _ => rfl
  | _ :: _, [] => rfl
  | s :: ss, t :: ts =>
    simp only [cmpArgs, Ordering.swap_then]
    rw [cmp_swap s t, cmpArgs_swap ss ts]
end

mutual
theorem eq_of_cmp {s t : Signature} (h : cmp s t = .eq) : s = t := by
  cases s with
  | app f ss =>
    cases t with
    | app g ts =>
      obtain ⟨hf, hs⟩ := Ordering.then_eq_eq.mp h
      rw [Std.LawfulEqOrd.eq_of_compare hf, eq_of_cmpArgs hs]
    | named b => cases h
    | param b => cases h
    | hole j => cases h
  | named a =>
    cases t with
    | named b => exact congrArg named (Std.LawfulEqOrd.eq_of_compare h)
    | param b => cases h
    | app g ts => cases h
    | hole j => cases h
  | param a =>
    cases t with
    | param b => exact congrArg param (Std.LawfulEqOrd.eq_of_compare h)
    | named b => cases h
    | app g ts => cases h
    | hole j => cases h
  | hole i =>
    cases t with
    | hole j => exact congrArg hole (Std.LawfulEqOrd.eq_of_compare h)
    | named b => cases h
    | param b => cases h
    | app g ts => cases h

theorem eq_of_cmpArgs {ss ts : List Signature} (h : cmpArgs ss ts = .eq) : ss = ts := by
  match ss, ts with
  | [], [] => rfl
  | [], _ :: _ => cases h
  | _ :: _, [] => cases h
  | s :: ss, t :: ts =>
    obtain ⟨hs, ht⟩ := Ordering.then_eq_eq.mp h
    rw [eq_of_cmp hs, eq_of_cmpArgs ht]
end

/-- A lexicographic comparison of two keys is transitive where each key is, provided that the first
keys compare equal only if they are interchangeable. -/
theorem then_lt_trans {x y z x' y' z' : Ordering} (hx : x = .lt → y = .lt → z = .lt)
    (hxe : x = .eq → z = y) (hye : y = .eq → z = x)
    (hx' : x' = .lt → y' = .lt → z' = .lt) (hl : x.then x' = .lt) (hr : y.then y' = .lt) :
    z.then z' = .lt := by
  cases x <;> cases y <;> simp_all [Ordering.then]

theorem cmp_of_rank_ne {s t : Signature} (h : s.rank ≠ t.rank) :
    cmp s t = compare s.rank t.rank := by
  cases s <;> cases t <;> simp_all [cmp, rank]

theorem rank_le_of_cmp_lt {s t : Signature} (h : cmp s t = .lt) : s.rank ≤ t.rank := by
  by_cases hr : s.rank = t.rank
  · exact Nat.le_of_eq hr
  · rw [cmp_of_rank_ne hr] at h
    exact Nat.le_of_lt (Nat.compare_eq_lt.mp h)

mutual
theorem cmp_lt_trans {s t u : Signature} (hl : cmp s t = .lt) (hr : cmp t u = .lt) :
    cmp s u = .lt := by
  by_cases hsu : s.rank < u.rank
  · rw [cmp_of_rank_ne (Nat.ne_of_lt hsu)]
    exact Nat.compare_eq_lt.mpr hsu
  have hst : s.rank = t.rank := by
    have := rank_le_of_cmp_lt hl
    have := rank_le_of_cmp_lt hr
    omega
  have htu : t.rank = u.rank := by
    have := rank_le_of_cmp_lt hr
    omega
  cases s with
  | app f ss =>
    cases t with
    | app g ts =>
      cases u with
      | app k us =>
        refine then_lt_trans Std.TransCmp.lt_trans (fun hf => ?_) (fun hg => ?_)
          cmpArgs_lt_trans hl hr
        · rw [Std.LawfulEqOrd.eq_of_compare hf]
        · rw [Std.LawfulEqOrd.eq_of_compare hg]
      | _ => simp [rank] at htu
    | _ => simp [rank] at hst
  | named a =>
    cases t with
    | named b =>
      cases u with
      | named c =>
        rw [cmp] at hl hr ⊢
        exact Std.TransCmp.lt_trans hl hr
      | _ => simp [rank] at htu
    | _ => simp [rank] at hst
  | param a =>
    cases t with
    | param b =>
      cases u with
      | param c =>
        rw [cmp] at hl hr ⊢
        exact Std.TransCmp.lt_trans hl hr
      | _ => simp [rank] at htu
    | _ => simp [rank] at hst
  | hole i =>
    cases t with
    | hole j =>
      cases u with
      | hole k =>
        rw [cmp] at hl hr ⊢
        exact Std.TransCmp.lt_trans hl hr
      | _ => simp [rank] at htu
    | _ => simp [rank] at hst

theorem cmpArgs_lt_trans {ss ts us : List Signature} (hl : cmpArgs ss ts = .lt)
    (hr : cmpArgs ts us = .lt) : cmpArgs ss us = .lt := by
  match ss, ts, us with
  | [], _ :: _, _ :: _ => rfl
  | s :: ss, t :: ts, u :: us =>
    refine then_lt_trans (fun hs ht => cmp_lt_trans hs ht) (fun hs => ?_) (fun ht => ?_)
      (fun hs ht => cmpArgs_lt_trans hs ht) hl hr
    · rw [eq_of_cmp hs]
    · rw [eq_of_cmp ht]
end

instance : Std.OrientedOrd Signature := ⟨cmp_swap _ _⟩

instance : Std.TransOrd Signature where
  isLE_trans {s t u} hst htu := by
    rcases Ordering.isLE_iff_eq_lt_or_eq_eq.mp hst with hst | hst
    · rcases Ordering.isLE_iff_eq_lt_or_eq_eq.mp htu with htu | htu
      · exact Ordering.isLE_of_eq_lt (cmp_lt_trans hst htu)
      · exact eq_of_cmp htu ▸ Ordering.isLE_of_eq_lt hst
    · exact eq_of_cmp hst ▸ htu

instance : Std.LawfulEqOrd Signature := ⟨eq_of_cmp⟩

/-- Names come before type parameters, these before generic types and these before holes. Within a
kind the name or the number decides, and of generic types with one head the arguments do, from left
to right. -/
inductive Precedes : Signature → Signature → Prop
  | kind {s t : Signature} (h : s.rank < t.rank) : Precedes s t
  | named {a b : String} (h : a < b) : Precedes (named a) (named b)
  | param {a b : String} (h : a < b) : Precedes (param a) (param b)
  | head {f g : String} {ss ts : List Signature} (h : f < g) : Precedes (app f ss) (app g ts)
  | args {f : String} {ss ts : List Signature} (h : List.Lex Precedes ss ts) :
      Precedes (app f ss) (app f ts)
  | hole {i j : Nat} (h : i < j) : Precedes (hole i) (hole j)

theorem precedes_app_iff {f g : String} {ss ts : List Signature} :
    (app f ss).Precedes (app g ts) ↔ f < g ∨ f = g ∧ List.Lex Precedes ss ts := by
  constructor
  · intro h
    cases h with
    | kind h => exact absurd h (Nat.lt_irrefl _)
    | head h => exact .inl h
    | args h => exact .inr ⟨rfl, h⟩
  · rintro (h | ⟨rfl, h⟩)
    · exact .head h
    · exact .args h

theorem precedes_of_rank_ne {s t : Signature} (hne : s.rank ≠ t.rank) :
    s.Precedes t ↔ s.rank < t.rank := by
  refine ⟨fun h => ?_, .kind⟩
  cases h with
  | kind h => exact h
  | _ => exact absurd rfl hne

mutual
theorem cmp_eq_lt_iff (s t : Signature) : cmp s t = .lt ↔ s.Precedes t := by
  by_cases hr : s.rank = t.rank
  · cases s with
    | app f ss =>
      cases t with
      | app g ts =>
        rw [cmp, Ordering.then_eq_lt, Std.LawfulEqOrd.compare_eq_iff_eq, cmpArgs_eq_lt_iff ss ts,
          precedes_app_iff]
        exact or_congr_left compareOfLessAndEq_eq_lt
      | _ => simp [rank] at hr
    | named a =>
      cases t with
      | named b =>
        refine compareOfLessAndEq_eq_lt.trans ⟨.named, fun h => ?_⟩
        cases h with
        | kind h => exact absurd h (Nat.lt_irrefl _)
        | named h => exact h
      | _ => simp [rank] at hr
    | param a =>
      cases t with
      | param b =>
        refine compareOfLessAndEq_eq_lt.trans ⟨.param, fun h => ?_⟩
        cases h with
        | kind h => exact absurd h (Nat.lt_irrefl _)
        | param h => exact h
      | _ => simp [rank] at hr
    | hole i =>
      cases t with
      | hole j =>
        refine Nat.compare_eq_lt.trans ⟨.hole, fun h => ?_⟩
        cases h with
        | kind h => exact absurd h (Nat.lt_irrefl _)
        | hole h => exact h
      | _ => simp [rank] at hr
  · rw [cmp_of_rank_ne hr, Nat.compare_eq_lt, precedes_of_rank_ne hr]

theorem cmpArgs_eq_lt_iff (ss ts : List Signature) :
    cmpArgs ss ts = .lt ↔ List.Lex Precedes ss ts := by
  match ss, ts with
  | [], [] => simp [cmpArgs]
  | [], _ :: _ => simp [cmpArgs]
  | _ :: _, [] => simp [cmpArgs]
  | s :: ss, t :: ts =>
    have heq : compare s t = .eq ↔ s = t := Std.LawfulEqOrd.compare_eq_iff_eq
    change cmp s t = .eq ↔ s = t at heq
    rw [cmpArgs, Ordering.then_eq_lt, cmp_eq_lt_iff s t, cmpArgs_eq_lt_iff ss ts, heq,
      List.cons_lex_cons_iff]
end

end Signature

end Injection
