import Injection.Options.Source
import Injection.Proofs.Settings
import Mathlib.Data.List.Induction

/-! Properties may be given in any order as long as no two of them overwrite the same option. Lists
only grow, so that they may be set any number of times, and what a source holds is read in the order
of its keys. -/
namespace Injection

instance : Std.TransOrd Kind := inferInstanceAs (Std.TransCmp (compareOn Kind.ctorIdx))

/-- The options of which a new value replaces the old one. -/
inductive Slot where
  | reporting
  | checkLifetimes
  | noImplementation
  | unregistered
  | lifetimes
  | heuristic
  | parallel
  | severity (kind : Kind)
  deriving DecidableEq, Repr

namespace Setting

/-- The option that the setting overwrites. A switch with a value that cannot be read overwrites
nothing. -/
def overwritten? (s : Setting) (value : String) : Option Slot :=
  match s with
  | reporting | noReporting => (parseBool? value).map fun _ => .reporting
  | checkLifetimes | skipLifetimes => (parseBool? value).map fun _ => .checkLifetimes
  | heuristic => (parseBool? value).map fun _ => .heuristic
  | parallel => (parseBool? value).map fun _ => .parallel
  | noImplementation => some .noImplementation
  | unregistered => some .unregistered
  | lifetimes => some .lifetimes
  | severity kind => some (.severity kind)
  | disabled | frameworkTypes | collectionWrappers | deferredWrappers => none

end Setting

namespace Options
open Setting

/-- The option that a property overwrites. -/
def overwritten? (property : String × String) : Option Slot :=
  (ofKey? property.1).bind fun s => s.overwritten? property.2

/-- The properties do not overwrite the same option. -/
def Apart (p q : String × String) : Prop :=
  ∀ slot ∈ overwritten? p, slot ∉ overwritten? q

instance (p q : String × String) : Decidable (Apart p q) :=
  inferInstanceAs (Decidable (∀ slot ∈ overwritten? p, slot ∉ overwritten? q))

theorem Apart.symm {p q : String × String} (h : Apart p q) : Apart q p :=
  fun slot hq hp => h slot hp hq

/-! ## Sets and maps among the options -/

/-- Sets and maps are kept in increasing order. -/
structure Ordered (o : Options) : Prop where
  overrides : Sorted.Keyed o.overrides
  disabled : o.disabled.Pairwise fun a b => compare a b = .lt
  frameworkTypes : o.frameworkTypes.Pairwise fun a b => compare a b = .lt
  collectionWrappers : o.collectionWrappers.Pairwise fun a b => compare a b = .lt
  deferredWrappers : o.deferredWrappers.Pairwise fun a b => compare a b = .lt

theorem ordered_default : Ordered {} :=
  ⟨.nil, .nil, Sorted.pairwise_ofList _, Sorted.pairwise_ofList _, Sorted.pairwise_ofList _⟩

theorem Ordered.set {o : Options} (h : o.Ordered) (s : Setting) (value : String) :
    (o.set s value).Ordered := by
  cases s with
  | severity kind => exact { h with overrides := Sorted.keyed_alter kind _ h.overrides }
  | disabled => exact { h with disabled := Sorted.pairwise_insertAll _ h.disabled }
  | frameworkTypes =>
    exact { h with frameworkTypes := Sorted.pairwise_insertAll _ h.frameworkTypes }
  | collectionWrappers =>
    exact { h with collectionWrappers := Sorted.pairwise_insertAll _ h.collectionWrappers }
  | deferredWrappers =>
    exact { h with deferredWrappers := Sorted.pairwise_insertAll _ h.deferredWrappers }
  | _ =>
    simp only [Options.set]
    exact ⟨h.overrides, h.disabled, h.frameworkTypes, h.collectionWrappers, h.deferredWrappers⟩

theorem Ordered.applyProperty {o : Options} (h : o.Ordered) (key value : String) :
    (o.applyProperty key value).Ordered := by
  unfold Options.applyProperty
  split
  · exact h.set _ value
  · exact h

/-! ## Two properties -/

theorem unread_of_apart {v w : String} {slot : Slot}
    (h : ∀ slot' ∈ (parseBool? v).map fun _ => slot, slot' ∉ (parseBool? w).map fun _ => slot) :
    parseBool? v = none ∨ parseBool? w = none := by
  cases hv : parseBool? v with
  | none => exact .inl rfl
  | some b =>
    cases hw : parseBool? w with
    | none => exact .inr rfl
    | some c => exact (h slot (by simp [hv]) (by simp [hw])).elim

theorem set_comm {o : Options} (ho : o.Ordered) {s t : Setting} {v w : String}
    (h : ∀ slot ∈ s.overwritten? v, slot ∉ t.overwritten? w) :
    (o.set s v).set t w = (o.set t w).set s v := by
  cases s <;> cases t
  case disabled.disabled =>
    simp only [set, disabling, Sorted.insertAll_comm ho.disabled]
  case frameworkTypes.frameworkTypes =>
    simp only [set, addingFrameworkTypes, Sorted.insertAll_comm ho.frameworkTypes]
  case collectionWrappers.collectionWrappers =>
    simp only [set, addingCollectionWrappers, Sorted.insertAll_comm ho.collectionWrappers]
  case deferredWrappers.deferredWrappers =>
    simp only [set, addingDeferredWrappers, Sorted.insertAll_comm ho.deferredWrappers]
  case severity.severity k k' =>
    have hne : k' ≠ k := by
      rintro rfl
      exact h _ rfl rfl
    simp only [set, withSeverity, Sorted.put_comm ho.overrides hne]
  case noImplementation.noImplementation => exact absurd rfl (h _ rfl)
  case unregistered.unregistered => exact absurd rfl (h _ rfl)
  case lifetimes.lifetimes => exact absurd rfl (h _ rfl)
  case reporting.reporting | reporting.noReporting | noReporting.reporting
      | noReporting.noReporting | checkLifetimes.checkLifetimes | checkLifetimes.skipLifetimes
      | skipLifetimes.checkLifetimes | skipLifetimes.skipLifetimes | heuristic.heuristic
      | parallel.parallel =>
    simp only [Setting.overwritten?] at h
    rcases unread_of_apart h with hv | hw
    · simp [set, hv]
    · simp [set, hw]
  -- Two settings that concern different options.
  all_goals simp only [set, disabling, addingFrameworkTypes, addingCollectionWrappers,
    addingDeferredWrappers, withSeverity]

theorem applyProperty_comm {o : Options} (ho : o.Ordered) {p q : String × String}
    (h : Apart p q) :
    (o.applyProperty p.1 p.2).applyProperty q.1 q.2 =
      (o.applyProperty q.1 q.2).applyProperty p.1 p.2 := by
  unfold Apart overwritten? at h
  unfold applyProperty
  cases hp : ofKey? p.1 with
  | none => rfl
  | some s =>
    cases hq : ofKey? q.1 with
    | none => rfl
    | some t =>
      rw [hp, hq] at h
      exact set_comm ho h

/-- Setting an option a second time to the same value changes nothing. -/
theorem set_set {o : Options} (ho : o.Ordered) (s : Setting) (value : String) :
    (o.set s value).set s value = o.set s value := by
  cases s
  case disabled => simp only [set, disabling, Sorted.insertAll_insertAll ho.disabled]
  case frameworkTypes =>
    simp only [set, addingFrameworkTypes, Sorted.insertAll_insertAll ho.frameworkTypes]
  case collectionWrappers =>
    simp only [set, addingCollectionWrappers, Sorted.insertAll_insertAll ho.collectionWrappers]
  case deferredWrappers =>
    simp only [set, addingDeferredWrappers, Sorted.insertAll_insertAll ho.deferredWrappers]
  case severity kind => simp only [set, withSeverity, Sorted.put_put ho.overrides]
  case noImplementation | unregistered | lifetimes => simp only [set]
  all_goals cases hv : parseBool? value <;> simp [set, hv]

theorem applyProperty_applyProperty {o : Options} (ho : o.Ordered) (key value : String) :
    (o.applyProperty key value).applyProperty key value = o.applyProperty key value := by
  unfold applyProperty
  cases ofKey? key with
  | none => rfl
  | some s => exact set_set ho s value

/-! ## Lists of properties -/

theorem foldl_applyProperty_perm {ps qs : List (String × String)} (hperm : ps.Perm qs)
    (h : ps.Pairwise Apart) {o : Options} (ho : o.Ordered) :
    ps.foldl (fun o p => o.applyProperty p.1 p.2) o =
      qs.foldl (fun o p => o.applyProperty p.1 p.2) o := by
  induction hperm generalizing o with
  | nil => rfl
  | cons p _ ih => exact ih (List.pairwise_cons.mp h).2 (ho.applyProperty p.1 p.2)
  | swap p q ps =>
    have hqp : Apart q p := (List.pairwise_cons.mp h).1 p List.mem_cons_self
    simp only [List.foldl_cons, applyProperty_comm ho hqp]
  | trans hps _ ih ih' =>
    have h' := (hps.pairwise_iff Apart.symm).mp h
    exact (ih h ho).trans (ih' h' ho)

theorem ofProperties_perm {ps qs : List (String × String)} (hperm : ps.Perm qs)
    (h : ps.Pairwise Apart) : ofProperties ps = ofProperties qs :=
  foldl_applyProperty_perm hperm h ordered_default

end Options

/-! ## Tables of properties -/

namespace Source

theorem table_concat (pairs : List (String × String)) (p : String × String) :
    table (pairs ++ [p]) = Sorted.put p.1 p.2 (table pairs) := by
  simp [table]

theorem keyed_table (pairs : List (String × String)) : Sorted.Keyed (table pairs) := by
  induction pairs using List.reverseRecOn with
  | nil => exact .nil
  | append_singleton pairs p ih =>
    rw [table_concat]
    exact Sorted.keyed_alter _ _ ih

/-- Where no key is given twice, the table holds what was given. -/
theorem perm_table {pairs : List (String × String)} (h : (pairs.map Prod.fst).Nodup) :
    (table pairs).Perm pairs := by
  induction pairs using List.reverseRecOn with
  | nil => exact .refl _
  | append_singleton pairs p ih =>
    rw [List.map_append, List.map_singleton] at h
    obtain ⟨hpairs, -, hfresh⟩ := List.nodup_append.mp h
    have hperm := ih hpairs
    have hp : p.1 ∉ (table pairs).map Prod.fst := by
      rw [(hperm.map Prod.fst).mem_iff]
      exact fun hmem => hfresh _ hmem _ (List.mem_singleton_self p.1) rfl
    rw [table_concat]
    calc Sorted.put p.1 p.2 (table pairs)
      _ |>.Perm (p :: table pairs) := Sorted.perm_put hp p.2
      _ |>.Perm (p :: pairs) := hperm.cons p
      _ |>.Perm (pairs ++ [p]) := (List.perm_append_singleton p pairs).symm

end Source

namespace Options

/-- Every row of the table is applied, in the order of the keys. -/
theorem ofSource_ofProperties (properties : List (String × String)) :
    ofSource (.ofProperties properties) = ofProperties (Source.table properties) := by
  rw [ofSource, Source.ofProperties, List.foldl_map, ofProperties]
  refine List.foldl_ext _ _ _ fun o p hp => ?_
  have hvalue := (Sorted.mem_iff_lookup (Source.keyed_table properties)).mp hp
  simp only [hvalue]

/-- Properties with different keys give the same options in whatever order they are given, and so
does a source that is filled with them, provided that no two of them overwrite the same option. -/
theorem loading_ignores_order (properties permuted : List (String × String))
    (hkeys : (properties.map Prod.fst).Nodup) (happart : properties.Pairwise Apart)
    (hperm : permuted.Perm properties) :
    ofProperties permuted = ofProperties properties ∧
      ofSource (.ofProperties permuted) = ofProperties properties := by
  have hpermuted := ofProperties_perm hperm.symm happart
  have hdistinct : (permuted.map Prod.fst).Nodup := (hperm.map Prod.fst).nodup_iff.mpr hkeys
  have htable : (Source.table permuted).Perm properties :=
    (Source.perm_table hdistinct).trans hperm
  refine ⟨hpermuted.symm, ?_⟩
  rw [ofSource_ofProperties]
  exact (ofProperties_perm htable.symm happart).symm

/-- A switch that is set under the name of its opposite, the same switch with an unreadable and with
a readable value, and a list that grows under two names. -/
def mixedProperties : List (String × String) :=
  [("Disable_Diagnostics", "yes"), ("disabledKinds", "FDV003; bogus"), ("parallel", "maybe"),
   ("Severity.FDV007", "info"), ("Parallel", "off"),
   ("disabled-diagnostics", "conditional-empty"), ("Severity.FDV008", "unheard-of")]

theorem loading_ignores_order_mixed :
    (mixedProperties.map Prod.fst).Nodup ∧ mixedProperties.Pairwise Apart ∧
      ofProperties mixedProperties.reverse = ofProperties mixedProperties ∧
      ofSource (.ofProperties mixedProperties.reverse) = ofProperties mixedProperties := by
  have hkeys : (mixedProperties.map Prod.fst).Nodup := by decide +kernel
  have happart : mixedProperties.Pairwise Apart := by decide +kernel
  exact ⟨hkeys, happart,
    loading_ignores_order mixedProperties _ hkeys happart (List.reverse_perm _)⟩

end Options

end Injection
