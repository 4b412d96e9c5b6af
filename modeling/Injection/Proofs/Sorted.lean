import Injection.Sorted
import Mathlib.Data.List.Sort

/-! Sorting puts a list in order and is stable, and it makes no difference whether elements are left
out before or after. Insertion keeps a strictly increasing list strictly increasing, and a map with
strictly increasing keys answers as a function that is updated at one key. Sets are equal if they
have the same members, and maps if they answer alike. -/
namespace Injection.Sorted

section Sorting
variable {α : Type} {le : α → α → Bool}

/-- A relation holds in a sorted list into which an element is put, if it held before and holds of
the element and those behind it and of those in front and the element. -/
theorem pairwise_place_of {R : α → α → Prop} (trans : ∀ a b c, le a b → le b c → le a c) {a : α}
    {bs : List α} (hsorted : bs.Pairwise fun b c => le b c)
    (hbehind : ∀ b ∈ bs, le a b = true → R a b) (hfront : ∀ b ∈ bs, le a b = false → R b a)
    (h : bs.Pairwise R) : (place le a bs).Pairwise R := by
  induction bs with
  | nil => simp [place]
  | cons b bs ih =>
    obtain ⟨hb, hbs⟩ := List.pairwise_cons.mp hsorted
    obtain ⟨hRb, hRbs⟩ := List.pairwise_cons.mp h
    rw [place]
    split
    next hab =>
      refine List.pairwise_cons.mpr ⟨fun c hc => hbehind c hc ?_, h⟩
      rcases List.mem_cons.mp hc with rfl | hc
      · exact hab
      · exact trans a b c hab (hb c hc)
    next hab =>
      have htail : (place le a bs).Pairwise R :=
        ih hbs (fun c hc => hbehind c (by simp [hc])) (fun c hc => hfront c (by simp [hc])) hRbs
      refine List.pairwise_cons.mpr ⟨fun c hc => ?_, htail⟩
      rcases List.mem_cons.mp ((perm_place le a bs).mem_iff.mp hc) with rfl | hc
      · exact hfront b (by simp) (by simpa using hab)
      · exact hRb c hc

theorem pairwise_place (total : ∀ a b, le a b ∨ le b a)
    (trans : ∀ a b c, le a b → le b c → le a c) (a : α) {bs : List α}
    (h : bs.Pairwise fun b c => le b c) : (place le a bs).Pairwise fun b c => le b c := by
  apply pairwise_place_of trans h
  · exact fun b _ hab => hab
  · exact fun b _ hab => (total a b).resolve_left (by simp [hab])
  · exact h

theorem pairwise_sortBy (total : ∀ a b, le a b ∨ le b a)
    (trans : ∀ a b c, le a b → le b c → le a c) (as : List α) :
    (sortBy le as).Pairwise fun a b => le a b := by
  induction as with
  | nil => exact .nil
  | cons a as ih => exact pairwise_place total trans a ih

/-- Elements that may stand in either order stand in the order they had. -/
theorem stable_sortBy (total : ∀ a b, le a b ∨ le b a)
    (trans : ∀ a b c, le a b → le b c → le a c) (as : List α) :
    (sortBy le as).Pairwise fun a b => le a b ∧ (le b a → [a, b].Sublist as) := by
  induction as with
  | nil => exact .nil
  | cons a as ih =>
    have hmem : ∀ {b}, b ∈ sortBy le as → b ∈ as := fun hb => (perm_sortBy le as).mem_iff.mp hb
    apply pairwise_place_of trans (pairwise_sortBy total trans as)
    · intro b hb hab
      exact ⟨hab, fun _ => (List.singleton_sublist.mpr (hmem hb)).cons_cons a⟩
    · intro b _ hab
      have hba : le b a = true := (total a b).resolve_left (by simp [hab])
      exact ⟨hba, fun h => by simp [hab] at h⟩
    · exact ih.imp fun h => ⟨h.1, fun hba => (h.2 hba).cons a⟩

theorem place_of_forall_le {a : α} {bs : List α} (h : ∀ b ∈ bs, le a b = true) :
    place le a bs = a :: bs := by
  cases bs with
  | nil => rfl
  | cons b bs => rw [place, if_pos (h b List.mem_cons_self)]

theorem sortBy_of_pairwise {as : List α} (h : as.Pairwise fun a b => le a b) :
    sortBy le as = as := by
  induction as with
  | nil => rfl
  | cons a as ih =>
    obtain ⟨ha, has⟩ := List.pairwise_cons.mp h
    rw [sortBy, List.foldr_cons, ← sortBy, ih has]
    exact place_of_forall_le ha

/-- An element that is put into a sorted list comes to stand at the same place among those that are
kept. -/
theorem filter_place (trans : ∀ a b c, le a b → le b c → le a c) {a : α} {bs : List α}
    (h : bs.Pairwise fun b c => le b c) (p : α → Bool) :
    (place le a bs).filter p = if p a then place le a (bs.filter p) else bs.filter p := by
  induction bs with
  | nil => simp [place, List.filter_cons]
  | cons b bs ih =>
    obtain ⟨hb, hbs⟩ := List.pairwise_cons.mp h
    rw [place]
    split
    next hab =>
      have hall : ∀ c ∈ (b :: bs).filter p, le a c = true := by
        intro c hc
        rcases List.mem_cons.mp (List.mem_filter.mp hc).1 with rfl | hc
        · exact hab
        · exact trans a b c hab (hb c hc)
      rw [place_of_forall_le hall, List.filter_cons]
    next hab =>
      rw [List.filter_cons, List.filter_cons, ih hbs]
      by_cases hpb : p b = true
      · by_cases hpa : p a = true
        · simp [hpa, hpb, place, hab]
        · simp [hpa, hpb]
      · simp [hpb]

theorem filter_sortBy (total : ∀ a b, le a b ∨ le b a)
    (trans : ∀ a b c, le a b → le b c → le a c) (as : List α) (p : α → Bool) :
    (sortBy le as).filter p = sortBy le (as.filter p) := by
  induction as with
  | nil => rfl
  | cons a as ih =>
    have hplace := filter_place trans (a := a) (pairwise_sortBy total trans as) p
    rw [ih] at hplace
    rw [List.filter_cons, sortBy, List.foldr_cons, ← sortBy, hplace]
    split
    · rfl
    · rfl

end Sorting

section Comparison
variable {α : Type} {cmp : α → α → Ordering} [Std.TransCmp cmp]

theorem isLE_total (a b : α) : (cmp a b).isLE ∨ (cmp b a).isLE := by
  have hs : cmp b a = (cmp a b).swap := Std.OrientedCmp.eq_swap
  cases h : cmp a b <;> simp [hs, h]

theorem pairwise_sortBy_isLE (as : List α) :
    (sortBy (fun a b => (cmp a b).isLE) as).Pairwise fun a b => (cmp a b).isLE :=
  pairwise_sortBy isLE_total (fun _ _ _ => Std.TransCmp.isLE_trans) as

theorem stable_sortBy_isLE (as : List α) :
    (sortBy (fun a b => (cmp a b).isLE) as).Pairwise fun a b =>
      (cmp a b).isLE ∧ ((cmp b a).isLE → [a, b].Sublist as) :=
  stable_sortBy isLE_total (fun _ _ _ => Std.TransCmp.isLE_trans) as

theorem filter_sortBy_isLE (as : List α) (p : α → Bool) :
    (sortBy (fun a b => (cmp a b).isLE) as).filter p =
      sortBy (fun a b => (cmp a b).isLE) (as.filter p) :=
  filter_sortBy isLE_total (fun _ _ _ => Std.TransCmp.isLE_trans) as p

variable [Std.LawfulEqCmp cmp]

omit [Std.TransCmp cmp] in
/-- A sorted list without repetitions is strictly increasing. -/
theorem pairwise_lt_of_nodup {as : List α} (h : as.Pairwise fun a b => (cmp a b).isLE)
    (hnodup : as.Nodup) : as.Pairwise fun a b => cmp a b = .lt := by
  refine (h.and hnodup).imp fun hab => ?_
  rcases Ordering.isLE_iff_eq_lt_or_eq_eq.mp hab.1 with hlt | heq
  · exact hlt
  · exact absurd (Std.LawfulEqCmp.eq_of_compare heq) hab.2

theorem pairwise_sortBy_lt {as : List α} (h : as.Nodup) :
    (sortBy (fun a b => (cmp a b).isLE) as).Pairwise fun a b => cmp a b = .lt :=
  pairwise_lt_of_nodup (pairwise_sortBy_isLE as)
    ((perm_sortBy (fun a b => (cmp a b).isLE) as).nodup_iff.mpr h)

theorem sortBy_eq_of_perm {as bs : List α} (h : as.Perm bs) :
    sortBy (fun a b => (cmp a b).isLE) as = sortBy (fun a b => (cmp a b).isLE) bs := by
  refine List.Perm.eq_of_pairwise (fun a b _ _ hab hba => ?_) (pairwise_sortBy_isLE as)
    (pairwise_sortBy_isLE bs) ((perm_sortBy _ as).trans (h.trans (perm_sortBy _ bs).symm))
  exact Std.LawfulEqCmp.eq_of_compare (Std.OrientedCmp.isLE_antisymm hab hba)

end Comparison

section Sets
variable {α : Type} [Ord α] [Std.LawfulEqOrd α]

@[simp] theorem mem_insert {a b : α} {set : List α} : b ∈ insert a set ↔ b = a ∨ b ∈ set := by
  induction set with
  | nil => simp [insert]
  | cons c set ih =>
    rw [insert]
    split
    · simp
    next hac =>
      rw [Std.LawfulEqOrd.eq_of_compare hac]
      simp
    · simp only [List.mem_cons, ih]
      tauto

@[simp] theorem mem_insertAll {b : α} {new set : List α} :
    b ∈ insertAll new set ↔ b ∈ new ∨ b ∈ set := by
  induction new generalizing set with
  | nil => simp [insertAll]
  | cons a new ih =>
    rw [insertAll, List.foldl_cons, ← insertAll, ih, mem_insert, List.mem_cons]
    tauto

@[simp] theorem mem_ofList {b : α} {as : List α} : b ∈ ofList as ↔ b ∈ as := by simp [ofList]

variable [Std.TransOrd α]

theorem pairwise_insert (a : α) {set : List α} (h : set.Pairwise fun b c => compare b c = .lt) :
    (insert a set).Pairwise fun b c => compare b c = .lt := by
  induction set with
  | nil => simp [insert]
  | cons c set ih =>
    obtain ⟨hc, hset⟩ := List.pairwise_cons.mp h
    rw [insert]
    split
    next hac =>
      refine List.pairwise_cons.mpr ⟨fun b hb => ?_, h⟩
      rcases List.mem_cons.mp hb with rfl | hb
      · exact hac
      · exact Std.TransCmp.lt_trans hac (hc b hb)
    · exact h
    next hac =>
      refine List.pairwise_cons.mpr ⟨fun b hb => ?_, ih hset⟩
      rcases mem_insert.mp hb with rfl | hb
      · exact Std.OrientedCmp.lt_of_gt hac
      · exact hc b hb

theorem pairwise_insertAll (new : List α) {set : List α}
    (h : set.Pairwise fun b c => compare b c = .lt) :
    (insertAll new set).Pairwise fun b c => compare b c = .lt := by
  induction new generalizing set with
  | nil => exact h
  | cons a new ih => exact ih (pairwise_insert a h)

theorem pairwise_ofList (as : List α) : (ofList as).Pairwise fun b c => compare b c = .lt :=
  pairwise_insertAll as .nil

/-- Strictly increasing lists with the same members are equal. -/
theorem eq_of_mem_iff {as bs : List α} (ha : as.Pairwise fun a b => compare a b = .lt)
    (hb : bs.Pairwise fun a b => compare a b = .lt) (h : ∀ a, a ∈ as ↔ a ∈ bs) : as = bs := by
  have : Std.Antisymm fun a b : α => compare a b = .lt :=
    ⟨fun _ _ hab hba => absurd hba (Std.OrientedCmp.not_lt_of_lt hab)⟩
  have : Std.Irrefl fun a b : α => compare a b = .lt := ⟨fun a ha => by simp at ha⟩
  exact ha.eq_of_mem_iff hb h

/-- Lists with the same members are the same set. -/
theorem ofList_congr {as bs : List α} (h : ∀ a, a ∈ as ↔ a ∈ bs) : ofList as = ofList bs :=
  eq_of_mem_iff (pairwise_ofList as) (pairwise_ofList bs) (by simpa using h)

theorem insertAll_comm {set : List α} (h : set.Pairwise fun a b => compare a b = .lt)
    (as bs : List α) :
    insertAll as (insertAll bs set) = insertAll bs (insertAll as set) := by
  apply eq_of_mem_iff
  · exact pairwise_insertAll as (pairwise_insertAll bs h)
  · exact pairwise_insertAll bs (pairwise_insertAll as h)
  · intro a
    simp only [mem_insertAll]
    exact or_left_comm

theorem insertAll_insertAll {set : List α} (h : set.Pairwise fun a b => compare a b = .lt)
    (as : List α) : insertAll as (insertAll as set) = insertAll as set := by
  have hset := pairwise_insertAll as h
  apply eq_of_mem_iff (pairwise_insertAll as hset) hset
  simp only [mem_insertAll, or_self_left, implies_true]

end Sets

section Maps
variable {κ ν : Type}

/-- The keys are strictly increasing. -/
def Keyed [Ord κ] (rows : List (κ × ν)) : Prop := rows.Pairwise fun p q => compare p.1 q.1 = .lt

theorem lookup_cons_ite [DecidableEq κ] (k k' : κ) (v : ν) (rows : List (κ × ν)) :
    ((k', v) :: rows).lookup k = if k = k' then some v else rows.lookup k := by
  by_cases h : k = k'
  · simp [h]
  · rw [List.lookup_cons, beq_false_of_ne h, if_neg h]

theorem lookup_map_eq_find? [DecidableEq κ] {α : Type} (k : α → κ) (v : α → ν) (as : List α)
    (i : κ) : (as.map fun a => (k a, v a)).lookup i = (as.find? fun a => k a = i).map v := by
  induction as with
  | nil => rfl
  | cons a as ih =>
    rw [List.map_cons, lookup_cons_ite, List.find?_cons]
    by_cases hi : k a = i
    · simp [hi]
    · simp [hi, Ne.symm hi, ih]

theorem lookup_filter_ne [DecidableEq κ] (k k' : κ) (rows : List (κ × ν)) :
    (rows.filter fun row => row.1 ≠ k').lookup k = if k = k' then none else rows.lookup k := by
  induction rows with
  | nil => simp
  | cons row rows ih =>
    obtain ⟨c, v⟩ := row
    by_cases hc : c = k'
    · rw [List.filter_cons_of_neg (by simp [hc]), ih, lookup_cons_ite, hc]
      split <;> rfl
    · rw [List.filter_cons_of_pos (by simp [hc]), lookup_cons_ite, lookup_cons_ite, ih]
      by_cases hk : k = c
      · simp [hk, hc]
      · simp [hk]

/-- A row after a change was there before, or is new, or has its value from the one that was there
under its key. -/
theorem mem_alter [Ord κ] {k : κ} {f : Option ν → ν} {rows : List (κ × ν)} {p : κ × ν}
    (h : p ∈ alter k f rows) :
    p ∈ rows ∨ p = (k, f none) ∨ ∃ v, (p.1, v) ∈ rows ∧ p.2 = f (some v) := by
  induction rows with
  | nil => exact .inr (.inl (List.mem_singleton.mp h))
  | cons row rows ih =>
    obtain ⟨k', v⟩ := row
    rw [alter] at h
    split at h
    · rcases List.mem_cons.mp h with rfl | h
      · exact .inr (.inl rfl)
      · exact .inl h
    · rcases List.mem_cons.mp h with rfl | h
      · exact .inr (.inr ⟨v, by simp, rfl⟩)
      · exact .inl (by simp [h])
    · rcases List.mem_cons.mp h with rfl | h
      · exact .inl (by simp)
      · rcases ih h with hp | hp | ⟨w, hw, hp⟩
        · exact .inl (by simp [hp])
        · exact .inr (.inl hp)
        · exact .inr (.inr ⟨w, by simp [hw], hp⟩)

variable [Ord κ] [Std.TransOrd κ]

theorem keyed_alter (k : κ) (f : Option ν → ν) {rows : List (κ × ν)} (h : Keyed rows) :
    Keyed (alter k f rows) := by
  induction rows with
  | nil => simp [Keyed, alter]
  | cons row rows ih =>
    obtain ⟨k', v⟩ := row
    obtain ⟨hk, hrows⟩ := List.pairwise_cons.mp h
    rw [Keyed, alter]
    split
    next hlt =>
      refine List.pairwise_cons.mpr ⟨fun p hp => ?_, h⟩
      rcases List.mem_cons.mp hp with rfl | hp
      · exact hlt
      · exact Std.TransCmp.lt_trans hlt (hk p hp)
    · exact List.pairwise_cons.mpr ⟨hk, hrows⟩
    next hgt =>
      refine List.pairwise_cons.mpr ⟨fun p hp => ?_, ih hrows⟩
      rcases mem_alter hp with hp | rfl | ⟨w, hw, -⟩
      · exact hk p hp
      · exact Std.OrientedCmp.lt_of_gt hgt
      · exact hk (p.1, w) hw

theorem Keyed.nodup {rows : List (κ × ν)} (h : Keyed rows) : (rows.map Prod.fst).Nodup := by
  refine List.pairwise_map.mpr (h.imp fun {p q} hlt heq => ?_)
  rw [heq] at hlt
  exact absurd hlt (Std.OrientedCmp.not_lt_of_lt hlt)

variable [Std.LawfulEqOrd κ] [DecidableEq κ]

omit [Std.TransOrd κ] in
theorem lookup_eq_none_of_lt {k : κ} {rows : List (κ × ν)}
    (h : ∀ p ∈ rows, compare k p.1 = .lt) : rows.lookup k = none := by
  refine List.lookup_eq_none_iff.mpr fun p hp => bne_iff_ne.mpr ?_
  rintro rfl
  simpa using h p hp

theorem lookup_alter (k k' : κ) (f : Option ν → ν) {rows : List (κ × ν)} (h : Keyed rows) :
    (alter k f rows).lookup k' =
      if k' = k then some (f (rows.lookup k)) else rows.lookup k' := by
  induction rows with
  | nil => rw [alter, lookup_cons_ite]; rfl
  | cons row rows ih =>
    obtain ⟨c, v⟩ := row
    obtain ⟨hc, hrows⟩ := List.pairwise_cons.mp h
    rw [alter]
    split
    next hlt =>
      have hn : ((c, v) :: rows).lookup k = none := by
        apply lookup_eq_none_of_lt
        intro p hp
        rcases List.mem_cons.mp hp with rfl | hp
        · exact hlt
        · exact Std.TransCmp.lt_trans hlt (hc p hp)
      rw [hn, lookup_cons_ite]
    next heq =>
      obtain rfl := Std.LawfulEqOrd.eq_of_compare heq
      by_cases hk : k' = k <;> simp [lookup_cons_ite, hk]
    next hgt =>
      have hne : k ≠ c := by
        rintro rfl
        simp at hgt
      by_cases hk : k' = c
      · simp [hk, hne.symm]
      · simp [lookup_cons_ite, hk, hne, ih hrows]

omit [Std.TransOrd κ] in
/-- A value that does not depend on the old one is set in any list, sorted or not. -/
theorem lookup_put (k : κ) (v : ν) (rows : List (κ × ν)) (k' : κ) :
    (put k v rows).lookup k' = if k' = k then some v else rows.lookup k' := by
  induction rows with
  | nil => exact lookup_cons_ite _ _ _ _
  | cons row rows ih =>
    obtain ⟨c, w⟩ := row
    rw [put, alter]
    split
    · rw [lookup_cons_ite]
    next heq =>
      obtain rfl := Std.LawfulEqOrd.eq_of_compare heq
      by_cases hk : k' = k <;> simp [lookup_cons_ite, hk]
    next hgt =>
      have hne : k ≠ c := by
        rintro rfl
        simp at hgt
      rw [← put]
      by_cases hk : k' = c
      · simp [hk, hne.symm]
      · simp [lookup_cons_ite, hk, ih]

omit [Std.TransOrd κ] in
theorem mem_iff_lookup {rows : List (κ × ν)} (h : Keyed rows) {k : κ} {v : ν} :
    (k, v) ∈ rows ↔ rows.lookup k = some v := by
  induction rows with
  | nil => simp
  | cons row rows ih =>
    obtain ⟨c, w⟩ := row
    obtain ⟨hc, hrows⟩ := List.pairwise_cons.mp h
    rw [List.mem_cons, lookup_cons_ite, Prod.mk.injEq, ih hrows]
    by_cases hk : k = c
    · subst hk
      simp [lookup_eq_none_of_lt hc, eq_comm]
    · simp [hk]

omit [Std.LawfulEqOrd κ] [DecidableEq κ] in
theorem eq_of_mem_iff_of_keyed {rows rows' : List (κ × ν)} (h : Keyed rows) (h' : Keyed rows')
    (hmem : ∀ p, p ∈ rows ↔ p ∈ rows') : rows = rows' := by
  have : Std.Antisymm fun p q : κ × ν => compare p.1 q.1 = .lt :=
    ⟨fun _ _ hpq hqp => absurd hqp (Std.OrientedCmp.not_lt_of_lt hpq)⟩
  have : Std.Irrefl fun p q : κ × ν => compare p.1 q.1 = .lt :=
    ⟨fun p hp => absurd hp (Std.OrientedCmp.not_lt_of_lt hp)⟩
  exact List.Pairwise.eq_of_mem_iff h h' hmem

/-- Maps that answer alike are equal. -/
theorem keyed_ext {rows rows' : List (κ × ν)} (h : Keyed rows) (h' : Keyed rows')
    (hlookup : ∀ k, rows.lookup k = rows'.lookup k) : rows = rows' := by
  apply eq_of_mem_iff_of_keyed h h'
  intro p
  rw [mem_iff_lookup h, mem_iff_lookup h', hlookup]

theorem put_put {rows : List (κ × ν)} (h : Keyed rows) (k : κ) (v : ν) :
    put k v (put k v rows) = put k v rows := by
  apply keyed_ext
  · exact keyed_alter k _ (keyed_alter k _ h)
  · exact keyed_alter k _ h
  · intro c
    simp only [lookup_put]
    split <;> rfl

theorem put_comm {rows : List (κ × ν)} (h : Keyed rows) {k k' : κ} (hne : k ≠ k') (v v' : ν) :
    put k v (put k' v' rows) = put k' v' (put k v rows) := by
  apply keyed_ext
  · exact keyed_alter k _ (keyed_alter k' _ h)
  · exact keyed_alter k' _ (keyed_alter k _ h)
  · intro c
    simp only [lookup_put]
    by_cases hc : c = k
    · simp [hc, hne]
    · simp [hc]

omit [Std.TransOrd κ] [DecidableEq κ] in
/-- A new key gets a row of its own. -/
theorem perm_put {k : κ} {rows : List (κ × ν)} (h : k ∉ rows.map Prod.fst) (v : ν) :
    (put k v rows).Perm ((k, v) :: rows) := by
  induction rows with
  | nil => exact .refl _
  | cons row rows ih =>
    obtain ⟨c, w⟩ := row
    obtain ⟨hc, hrows⟩ := not_or.mp (mt List.mem_cons.mpr h)
    rw [put, alter]
    split
    · exact .refl _
    next heq => exact absurd (Std.LawfulEqOrd.eq_of_compare heq) hc
    · exact ((ih hrows).cons (c, w)).trans (.swap (k, v) (c, w) rows)

end Maps

end Injection.Sorted
