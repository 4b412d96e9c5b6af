import Mathlib.Data.List.Forall2

/-! Lists with further elements inserted. What is made of the elements one by one, and put together
in their order, is enlarged in the same way. -/
namespace Injection
variable {α β : Type}

/-- The second list is the first one with further elements inserted anywhere, all of which have the
property. -/
inductive Enlarged (p : α → Prop) : List α → List α → Prop
  | nil : Enlarged p [] []
  | keep (a : α) {as bs : List α} : Enlarged p as bs → Enlarged p (a :: as) (a :: bs)
  | insert (b : α) {as bs : List α} : p b → Enlarged p as bs → Enlarged p as (b :: bs)

namespace Enlarged
variable {p : α → Prop} {q : β → Prop} {as bs : List α}

theorem refl (p : α → Prop) (as : List α) : Enlarged p as as := by
  induction as with
  | nil => exact .nil
  | cons a as ih => exact .keep a ih

theorem of_nil {bs : List α} (h : ∀ b ∈ bs, p b) : Enlarged p [] bs := by
  induction bs with
  | nil => exact .nil
  | cons b bs ih =>
    obtain ⟨hb, hbs⟩ := List.forall_mem_cons.mp h
    exact .insert b hb (ih hbs)

/-- A list enlarges what is left of it, if what was left out has the property. -/
theorem of_filter {keep : α → Bool} {bs : List α} (h : ∀ b ∈ bs, keep b = false → p b) :
    Enlarged p (bs.filter keep) bs := by
  induction bs with
  | nil => exact .nil
  | cons b bs ih =>
    obtain ⟨hb, hbs⟩ := List.forall_mem_cons.mp h
    cases hk : keep b with
    | true =>
      rw [List.filter_cons_of_pos hk]
      exact .keep b (ih hbs)
    | false =>
      rw [List.filter_cons_of_neg (by simp [hk])]
      exact .insert b (hb hk) (ih hbs)

theorem sublist (h : Enlarged p as bs) : as.Sublist bs := by
  induction h with
  | nil => exact .slnil
  | keep a _ ih => exact ih.cons_cons a
  | insert b _ _ ih => exact ih.cons b

/-- Where no element with the property is kept, both lists keep the same. -/
theorem filter_eq (h : Enlarged p as bs) {keep : α → Bool} (hp : ∀ b, p b → keep b = false) :
    bs.filter keep = as.filter keep := by
  induction h with
  | nil => rfl
  | keep a _ ih => simp only [List.filter_cons, ih]
  | insert b hb _ ih => rw [List.filter_cons_of_neg (by simp [hp b hb]), ih]

theorem flatMap_eq (h : Enlarged p as bs) {f : α → List β} (hp : ∀ b, p b → f b = []) :
    bs.flatMap f = as.flatMap f := by
  induction h with
  | nil => rfl
  | keep a _ ih => rw [List.flatMap_cons, List.flatMap_cons, ih]
  | insert b hb _ ih => rw [List.flatMap_cons, hp b hb, List.nil_append, ih]

theorem map (h : Enlarged p as bs) {f : α → β} (hf : ∀ b, p b → q (f b)) :
    Enlarged q (as.map f) (bs.map f) := by
  induction h with
  | nil => exact .nil
  | keep a _ ih => exact .keep (f a) ih
  | insert b hb _ ih => exact .insert (f b) (hf b hb) ih

theorem filterMap (h : Enlarged p as bs) {f : α → Option β}
    (hf : ∀ b c, p b → f b = some c → q c) : Enlarged q (as.filterMap f) (bs.filterMap f) := by
  induction h with
  | nil => exact .nil
  | keep a _ ih =>
    cases ha : f a with
    | none =>
      rw [List.filterMap_cons_none ha, List.filterMap_cons_none ha]
      exact ih
    | some c =>
      rw [List.filterMap_cons_some ha, List.filterMap_cons_some ha]
      exact .keep c ih
  | insert b hb _ ih =>
    cases hfb : f b with
    | none =>
      rw [List.filterMap_cons_none hfb]
      exact ih
    | some c =>
      rw [List.filterMap_cons_some hfb]
      exact .insert c (hf b c hb hfb) ih

theorem append {cs ds : List α} (h : Enlarged p as bs) (h' : Enlarged p cs ds) :
    Enlarged p (as ++ cs) (bs ++ ds) := by
  induction h with
  | nil => exact h'
  | keep a _ ih => exact .keep a ih
  | insert b hb _ ih => exact .insert b hb ih

theorem flatten {ass bss : List (List α)} (h : List.Forall₂ (Enlarged p) ass bss) :
    Enlarged p ass.flatten bss.flatten := by
  induction h with
  | nil => exact .nil
  | cons hab _ ih => exact hab.append ih

theorem flatMap {f g : β → List α} {xs : List β} (h : ∀ x ∈ xs, Enlarged p (f x) (g x)) :
    Enlarged p (xs.flatMap f) (xs.flatMap g) := by
  induction xs with
  | nil => exact .nil
  | cons x xs ih =>
    obtain ⟨hx, hxs⟩ := List.forall_mem_cons.mp h
    exact hx.append (ih hxs)

end Enlarged

end Injection
