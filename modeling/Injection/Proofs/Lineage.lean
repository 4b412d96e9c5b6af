import Injection.Proofs.ContractGrowth
import Injection.Proofs.Isolation
import Injection.Proofs.Scope

/-! The ancestors of a type, said place by place. Each base type is seen from the type at which the
walk starts, and the walk ends only where there is nothing to go on to. A type is met at most once,
however its base types grow, so there are no more ancestors than types. The check of lifetimes looks
at every ancestor that is a service. -/
namespace Injection

/-! ## Values of parameters -/

namespace Signature

/-- The value of a parameter is the argument in its place, the last one if it has several. -/
def Value (params : List String) (args : List Signature) (x : String) (v : Signature) : Prop :=
  ∃ n : ℕ, params[n]? = some x ∧ args[n]? = some v ∧
    ∀ m, n < m → params[m]? = some x → args[m]? = none

/-- The signature with values in place of parameters, put in all at once. -/
inductive Replaced (σ : Bindings) : Signature → Signature → Prop where
  | named (name : String) : Replaced σ (.named name) (.named name)
  | hole (index : Nat) : Replaced σ (.hole index) (.hole index)
  | bound {name : String} {v : Signature} (h : σ.lookup name = some v) : Replaced σ (.param name) v
  | free {name : String} (h : σ.lookup name = none) : Replaced σ (.param name) (.param name)
  | app {head : String} {args args' : List Signature} (h : List.Forall₂ (Replaced σ) args args') :
    Replaced σ (.app head args) (.app head args')

theorem lookup_reverse_eq_some {l : List (String × Signature)} {x : String} {v : Signature} :
    l.reverse.lookup x = some v ↔
      ∃ n : ℕ, l[n]? = some (x, v) ∧ ∀ m, n < m → ∀ w, l[m]? ≠ some (x, w) := by
  induction l using List.reverseRecOn with
  | nil => simp
  | append_singleton l p ih =>
    obtain ⟨y, w⟩ := p
    rw [List.reverse_append, List.reverse_singleton, List.singleton_append, List.lookup_cons]
    have hlast : (l ++ [(y, w)])[l.length]? = some (y, w) := List.getElem?_concat_length
    have hafter : ∀ m, l.length < m → (l ++ [(y, w)])[m]? = none := by
      intro m hm
      apply List.getElem?_eq_none
      simp only [List.length_append, List.length_singleton]
      omega
    by_cases hxy : x = y
    · -- the last pair is the one that counts
      subst hxy
      simp only [beq_self_eq_true, Option.some.injEq]
      constructor
      · rintro rfl
        refine ⟨l.length, hlast, fun m hm w => ?_⟩
        simp [hafter m hm]
      · rintro ⟨n, hn, hlater⟩
        have hle : l.length ≤ n := by
          by_contra hlt
          exact hlater l.length (by omega) w hlast
        rcases hle.eq_or_lt with rfl | hlt
        · rw [hlast] at hn
          simpa using hn
        · simp [hafter n hlt] at hn
    · rw [beq_false_of_ne hxy, ih]
      have hsame : ∀ (n : ℕ) (u : Signature),
          (l ++ [(y, w)])[n]? = some (x, u) ↔ l[n]? = some (x, u) := by
        intro n u
        rcases lt_trichotomy n l.length with hn | rfl | hn
        · rw [List.getElem?_append_left hn]
        · simp [Ne.symm hxy]
        · simp [hafter n hn, List.getElem?_eq_none hn.le]
      simp only [hsame, ne_eq]

theorem lookup_bind {params : List String} {args : List Signature} {x : String} {v : Signature} :
    (bind params args).lookup x = some v ↔ Value params args x v := by
  rw [bind, lookup_reverse_eq_some, Value]
  simp only [List.getElem?_zip_eq_some, ne_eq, not_and, and_assoc]
  refine exists_congr fun n => and_congr_right fun _ => and_congr_right fun _ => ?_
  refine forall_congr' fun m => imp_congr_right fun _ => ?_
  rw [Option.eq_none_iff_forall_ne_some]
  exact forall_comm

theorem forall₂_iff_map_eq {α β : Type} {R : α → β → Prop} {f : α → β} {as : List α} {bs : List β}
    (h : ∀ a ∈ as, ∀ b, R a b ↔ f a = b) : List.Forall₂ R as bs ↔ as.map f = bs := by
  induction as generalizing bs with
  | nil => simp [eq_comm]
  | cons a as ih =>
    obtain ⟨ha, has⟩ := List.forall_mem_cons.mp h
    simp only [List.forall₂_cons_left_iff, ha, ih has, List.map_cons]
    constructor
    · rintro ⟨b, bs, rfl, rfl, rfl⟩
      rfl
    · rintro rfl
      exact ⟨_, _, rfl, rfl, rfl⟩

theorem replaced_iff {σ : Bindings} {s t : Signature} : Replaced σ s t ↔ s.subst σ = t := by
  induction s using induct generalizing t with
  | hnamed name =>
    rw [subst]
    constructor
    · rintro ⟨⟩
      rfl
    · rintro rfl
      exact .named name
  | hhole index =>
    rw [subst]
    constructor
    · rintro ⟨⟩
      rfl
    · rintro rfl
      exact .hole index
  | hparam name =>
    rw [subst]
    constructor
    · intro h
      cases h with
      | bound h => simp [h]
      | free h => simp [h]
    · rintro rfl
      cases h : σ.lookup name with
      | none => exact .free h
      | some v => exact .bound h
  | happ head args ih =>
    have hargs : ∀ args', List.Forall₂ (Replaced σ) args args' ↔ args.map (subst σ) = args' :=
      fun _ => forall₂_iff_map_eq fun a ha _ => ih a ha
    rw [subst, substArgs_eq_map]
    constructor
    · intro h
      cases h with
      | app h => rw [(hargs _).mp h]
    · rintro rfl
      exact .app ((hargs _).mpr rfl)

end Signature

/-! ## The walk -/

namespace Catalogue
variable {c : Catalogue} {i : Identity} {as : List Ancestor} {t : Signature} {e : Entry}

/-- The types that the walk from `i` has passed. -/
def passed (i : Identity) (as : List Ancestor) : List Identity :=
  i :: as.map fun a => a.entry.identity

/-- The type that comes after the given ancestors of `i`: the base type of the last one with the
values of its parameters, or that of `i` itself if there are no ancestors. -/
def Above (c : Catalogue) (i : Identity) (as : List Ancestor) (t : Signature) : Prop :=
  match as.getLast? with
  | none => ∃ e, c.get? i = some e ∧ e.base = some t
  | some a => ∃ base, a.entry.base = some base ∧ base.Replaced a.bindings t

/-- The walk does not go on to a root, to an unknown type or to a type it has passed. -/
def Closed (c : Catalogue) (passed : List Identity) (t : Signature) : Prop :=
  t.headName ∈ rootNames ∨ c.lookup? t = none ∨ ∃ e, c.lookup? t = some e ∧ e.identity ∈ passed

/-- After the given ancestors no base type comes next, or one to which the walk does not go on. -/
def Ended (c : Catalogue) (i : Identity) (as : List Ancestor) : Prop :=
  ∀ t, c.Above i as t → c.Closed (passed i as) t

/-- The ancestors are the beginning of a walk from `i`. -/
structure Climbs (c : Catalogue) (i : Identity) (as : List Ancestor) : Prop where
  distinct : (passed i as).Nodup
  signatures : ∀ (n : ℕ) (a : Ancestor), as[n]? = some a → c.Above i (as.take n) a.signature
  roots : ∀ a ∈ as, a.signature.headName ∉ rootNames
  entries : ∀ a ∈ as, c.lookup? a.signature = some a.entry
  bindings : ∀ a ∈ as, ∀ x v,
    a.bindings.lookup x = some v ↔ Signature.Value a.entry.params a.signature.args x v

/-- The ancestors are a whole walk from `i`, which has ended with the last of them and not
before. -/
structure Lineage (c : Catalogue) (i : Identity) (as : List Ancestor) : Prop
    extends Climbs c i as where
  bounded : as.length ≤ c.size
  stops : ∀ n ≤ as.length, n = as.length ↔ c.Ended i (as.take n)

theorem passed_append (i : Identity) (as : List Ancestor) (a : Ancestor) :
    passed i (as ++ [a]) = passed i as ++ [a.entry.identity] := by
  simp [passed]

theorem above_append {a : Ancestor} :
    c.Above i (as ++ [a]) t ↔ ∃ base, a.entry.base = some base ∧ base.Replaced a.bindings t := by
  simp [Above]

theorem climbs_nil : c.Climbs i [] := by
  constructor <;> simp [passed]

namespace Climbs

/-- One step of the walk. -/
theorem up (h : c.Climbs i as) (habove : c.Above i as t) (hroot : t.headName ∉ rootNames)
    (he : c.lookup? t = some e) (hnew : e.identity ∉ passed i as) :
    c.Climbs i (as ++ [⟨e, t, Signature.bind e.params t.args⟩]) := by
  refine ⟨?_, fun n a hn => ?_, ?_, ?_, ?_⟩
  · rw [passed_append]
    exact h.distinct.append (List.nodup_singleton _) (by simpa using hnew)
  · rcases lt_or_ge n as.length with hlt | hge
    · rw [List.getElem?_append_left hlt] at hn
      rw [List.take_append_of_le_length hlt.le]
      exact h.signatures n a hn
    · rw [List.getElem?_append_right hge, List.getElem?_singleton] at hn
      obtain ⟨hzero, ha⟩ := Option.ite_none_right_eq_some.mp hn
      cases ha
      have hn : n = as.length := by omega
      rw [hn, List.take_left]
      exact habove
  · simpa [or_imp, forall_and, hroot] using h.roots
  · simpa [or_imp, forall_and, he] using h.entries
  · simp only [List.mem_append, List.mem_singleton, or_imp, forall_and, forall_eq]
    exact ⟨h.bindings, fun x v => Signature.lookup_bind⟩

/-- The base types that are walked over come after the ancestors that were met before. -/
theorem walk {as : List Ancestor} {unseen : List Identity} {σ : Signature.Bindings}
    {base : Option Signature} (h : c.Climbs i as) (hd : unseen.Nodup)
    (hunseen : ∀ j, j ∈ unseen ↔ j ∈ c.entries.map Entry.identity ∧ j ∉ passed i as)
    (habove : ∀ t, c.Above i as t ↔ ∃ b, base = some b ∧ b.subst σ = t) :
    c.Climbs i (as ++ c.walk unseen σ base) ∧ c.Ended i (as ++ c.walk unseen σ base) := by
  cases base with
  | none =>
    rw [walk_none, List.append_nil]
    exact ⟨h, fun t ht => by simp [habove] at ht⟩
  | some b =>
    have hnext : ∀ t, c.Above i as t ↔ b.subst σ = t := by simpa using habove
    -- where nothing is added, the base type at hand is the only one that could come next
    have hends : c.walk unseen σ (some b) = [] → c.Closed (passed i as) (b.subst σ) →
        c.Climbs i (as ++ c.walk unseen σ (some b)) ∧
          c.Ended i (as ++ c.walk unseen σ (some b)) := by
      intro hnil hclosed
      rw [hnil, List.append_nil]
      exact ⟨h, fun t ht => (hnext t).mp ht ▸ hclosed⟩
    by_cases hroot : (b.subst σ).headName ∈ rootNames
    · exact hends (walk_root hroot) (.inl hroot)
    cases he : c.lookup? (b.subst σ) with
    | none => exact hends (walk_unknown he) (.inr (.inl he))
    | some e =>
      have hknown : e.identity ∈ c.entries.map Entry.identity :=
        List.mem_map_of_mem (mem_entries_of_lookup? he)
      by_cases hmem : e.identity ∈ unseen
      · have hnew := ((hunseen e.identity).mp hmem).2
        have hup := h.up ((hnext _).mpr rfl) hroot he hnew
        rw [walk_cons hroot he hmem, List.append_cons]
        refine hup.walk (hd.erase _) (fun j => ?_) fun t => ?_
        · rw [hd.mem_erase_iff, hunseen, passed_append, List.mem_append, List.mem_singleton]
          tauto
        · simp only [above_append, Signature.replaced_iff]
      · refine hends (walk_seen he hmem) (.inr (.inr ⟨e, he, ?_⟩))
        by_contra hnew
        exact hmem ((hunseen _).mpr ⟨hknown, hnew⟩)
termination_by unseen.length
decreasing_by
  rw [List.length_erase_of_mem hmem]
  exact Nat.sub_lt (List.length_pos_of_mem hmem) Nat.one_pos

theorem length_le_size (h : c.Climbs i as) : as.length ≤ c.size := by
  have hd : (as.map fun a => a.entry.identity).Nodup := h.distinct.of_cons
  have hsub : (as.map fun a => a.entry.identity) ⊆ c.entries.map Entry.identity := by
    intro j hj
    obtain ⟨a, ha, rfl⟩ := List.mem_map.mp hj
    exact List.mem_map_of_mem (mem_entries_of_lookup? (h.entries a ha))
  have hle := (hd.subperm hsub).length_le
  simpa [size] using hle

/-- The walk goes on to every ancestor. -/
theorem not_closed (h : c.Climbs i as) {n : ℕ} {a : Ancestor} (hn : as[n]? = some a) :
    ¬ c.Closed (passed i (as.take n)) a.signature := by
  have ha := List.mem_of_getElem? hn
  have hnew : a.entry.identity ∉ passed i (as.take n) := by
    have hsplit : as.take (n + 1) = as.take n ++ [a] := by
      rw [List.take_add_one, hn, Option.toList_some]
    have hd : (passed i (as.take (n + 1))).Nodup :=
      h.distinct.sublist (((List.take_sublist _ _).map _).cons_cons i)
    rw [hsplit, passed_append] at hd
    exact fun hmem => List.disjoint_of_nodup_append hd hmem (List.mem_singleton_self _)
  rintro (hroot | hnone | ⟨e, he, hmem⟩)
  · exact h.roots a ha hroot
  · rw [h.entries a ha] at hnone
    cases hnone
  · rw [h.entries a ha] at he
    cases he
    exact hnew hmem

end Climbs

theorem lineage_ancestors (hd : (c.entries.map Entry.identity).Nodup) (i : Identity) :
    c.Lineage i (c.ancestors i) := by
  have hunseen : ∀ j, j ∈ (c.entries.map Entry.identity).erase i ↔
      j ∈ c.entries.map Entry.identity ∧ j ∉ passed i [] := by
    intro j
    rw [hd.mem_erase_iff]
    simp [passed, and_comm]
  have habove : ∀ t, c.Above i [] t ↔
      ∃ b, (c.get? i).bind Entry.base = some b ∧ b.subst [] = t := by
    simp [Above, Option.bind_eq_some_iff]
  obtain ⟨hclimbs, hend⟩ := climbs_nil.walk (hd.erase i) hunseen habove
  rw [List.nil_append, ← Catalogue.ancestors] at hclimbs hend
  refine ⟨hclimbs, hclimbs.length_le_size, fun n hn => ⟨?_, fun hclosed => ?_⟩⟩
  · rintro rfl
    rw [List.take_length]
    exact hend
  · by_contra hne
    obtain ⟨a, ha⟩ : ∃ a, (c.ancestors i)[n]? = some a :=
      ⟨_, List.getElem?_eq_getElem (by omega)⟩
    exact hclimbs.not_closed ha (hclosed _ (hclimbs.signatures n a ha))

end Catalogue

/-! ## Base types of singletons -/

namespace Check
variable {r : Registry} {o : Options} {services : List Service} {c : Catalogue} {g : Graph}
  {s : Service} {found : List Finding} {d : Identity} {related : Related}

theorem mem_problems_inheritedLifetime {i : Identity} :
    (.inheritedLifetime, d, related) ∈ Finding.problems (inheritedLifetime r s i) ↔
      d = s.identity ∧ related = .identity i ∧ ∃ l, r.lifetime? i = some l ∧ l ≠ .singleton := by
  unfold inheritedLifetime
  cases r.lifetime? i with
  | none => simp
  | some l =>
    by_cases hl : l = .singleton
    · simp [hl]
    · simp [hl, Finding.report, Finding.problem]

theorem mem_problems_bases (hs : s.lifetime = .singleton)
    (h : serviceLifetimes r o services c g s = .ok found) :
    (.inheritedLifetime, d, related) ∈ Finding.problems found ↔
      d = s.identity ∧ ∃ x ∈ c.ancestors s.identity, r.isExternal x.entry.identity = false ∧
        related = .identity x.entry.identity ∧
        ∃ l, r.lifetime? x.entry.identity = some l ∧ l ≠ .singleton := by
  constructor
  · intro hmem
    obtain ⟨f, hf, hp⟩ := Finding.mem_problems.mp hmem
    have hkind : f.kind = .inheritedLifetime := congrArg Prod.fst hp
    have hcapture : ¬ f.kind.IsCapture := by simp [hkind, Kind.IsCapture]
    cases cause_of_serviceLifetimes h hf with
    | background hf => simp [kind_of_background hf] at hkind
    | own _ hcaptive => exact absurd (isCapture_captive hcaptive) hcapture
    | inherited _ _ _ _ _ hcaptive => exact absurd (isCapture_captive hcaptive) hcapture
    | base hx hinternal hf =>
      have hbase := mem_problems_inheritedLifetime.mp (Finding.mem_problems.mpr ⟨f, hf, hp⟩)
      exact ⟨hbase.1, _, hx, hinternal, hbase.2⟩
  · rintro ⟨hd, x, hx, hinternal, hbase⟩
    rw [serviceLifetimes, if_pos hs] at h
    obtain ⟨inherited, hi, rfl⟩ := except_map_eq_ok.mp h
    obtain ⟨fs, hfs, hancestor⟩ := exists_of_forall₂_left (mapM_eq_ok_iff.mp hi) hx
    rw [ancestor, if_neg (by simp [hinternal])] at hancestor
    obtain ⟨captives, -, rfl⟩ := except_map_eq_ok.mp hancestor
    rw [Finding.problems_append, List.mem_append, Finding.mem_problems_flatten]
    refine .inr ⟨_, hfs, ?_⟩
    rw [Finding.problems_append, List.mem_append]
    exact .inl (mem_problems_inheritedLifetime.mpr ⟨hd, hbase⟩)

end Check

namespace Report
open Finding Check
variable {fuel : Nat} {o : Options} {supplied : Option Fallback} {fallback : Fallback}
  {a : Snapshot} {r : Registry} {res : List Finding} {fs : List Fragment}

/-- The service `d` is a singleton and its ancestor `i` a service that is not. Neither is
external. -/
def Inherits (a : Snapshot) (d i : Identity) : Prop :=
  (∃ s ∈ a.services, s.identity = d ∧ s.isExternal = false ∧ s.lifetime = .singleton) ∧
    (∃ x ∈ a.catalogue.ancestors d, x.entry.identity = i) ∧
    ∃ t ∈ a.services, t.identity = i ∧ t.isExternal = false ∧ t.lifetime ≠ .singleton

instance (a : Snapshot) (d i : Identity) : Decidable (Inherits a d i) :=
  inferInstanceAs (Decidable (_ ∧ _ ∧ _))

/-- The fallback fails for a dependency of an ancestor of `d` that is a service and not external, at
the types that `d` gives to the ancestor's parameters. -/
def Stalls (r : Registry) (o : Options) (a : Snapshot) (d : Identity) : Prop :=
  ∃ x ∈ a.catalogue.ancestors d, ∃ b ∈ a.services, b.identity = x.entry.identity ∧
    b.isExternal = false ∧ ∃ dep ∈ b.dependencies,
      ∃ fault, r.faultAt o (dep.target.subst x.bindings) = some fault

/-- What a returned report states about singletons whose base types live shorter. -/
structure TellsOfBases (r : Registry) (o : Options) (a : Snapshot) (x : Report) : Prop where
  once : ∀ d i, Inherits a d i → ¬ Stalls r o a d →
    (problems x.findings).count (.inheritedLifetime, d, .identity i) = 1
  never : ∀ d i, ¬ Inherits a d i ∨ Stalls r o a d →
    (problems x.findings).count (.inheritedLifetime, d, .identity i) = 0
  related : ∀ d related, (.inheritedLifetime, d, related) ∈ problems x.findings →
    ∃ i, related = .identity i
  /-- A singleton at which the fallback fails is reported with that fault, and with nothing else
  that the check of lifetimes looks for. -/
  stalled : ∀ s ∈ a.services, s.isExternal = false → s.lifetime = .singleton →
    Stalls r o a s.identity →
      (o.isDisabled .internalError = false →
        (.internalError, s.identity, .text "lifetimes") ∈ problems x.findings) ∧
      ∀ k ∈ Phase.lifetimes.kinds, k ≠ .internalError →
        ∀ related, (k, s.identity, related) ∉ problems x.findings

section Build
variable (ha : Snapshot.collect fuel fs = some a)
  (hbuild : Registry.build fuel fallback a.services a.catalogue = some r)
  (hcheck : o.checkLifetimes = true) {g : Graph} {s : Service}
include ha hbuild hcheck

theorem raised_lifetimes_eq_none (hs : s.lifetime = .singleton) :
    raised? r o a s .lifetimes = none ↔ ¬ Stalls r o a s.identity := by
  rw [raised?, if_pos ⟨hcheck, hs⟩, List.findSome?_eq_none_iff]
  have hd := Snapshot.nodup_services ha
  simp only [inheritedFault_eq_none hbuild hd, Stalls, not_exists, not_and,
    Option.eq_none_iff_forall_ne_some, ne_eq]

theorem exists_serviceLifetimes_iff (hs : s.lifetime = .singleton) :
    (∃ found, serviceLifetimes r o a.services a.catalogue g s = .ok found) ↔
      ¬ Stalls r o a s.identity := by
  rw [← raised_lifetimes_eq_none ha hbuild hcheck hs, ← error?_eq_none, error?_serviceLifetimes,
    raised?, if_pos hs, if_pos ⟨hcheck, hs⟩]

theorem mem_problems_inherits {d : Identity} {related : Related} :
    (.inheritedLifetime, d, related) ∈ problems (lifetimes r o a.services a.catalogue g) ↔
      ∃ i, related = .identity i ∧ Inherits a d i ∧ ¬ Stalls r o a d := by
  have hd := Snapshot.nodup_services ha
  constructor
  · intro hmem
    obtain ⟨f, hf, hp⟩ := mem_problems.mp hmem
    have hkind : f.kind = .inheritedLifetime := congrArg Prod.fst hp
    obtain ⟨-, s, hs, hx, ⟨found, hfound, hf⟩ | ⟨fault, -, rfl⟩⟩ := mem_lifetimes.mp hf
    · by_cases hsingle : s.lifetime = .singleton
      · obtain ⟨rfl, x, hancestor, hinternal, hrelated, l, hl, hlonger⟩ :=
          (mem_problems_bases hsingle hfound).mp (mem_problems.mpr ⟨f, hf, hp⟩)
        obtain ⟨t, ht, hid, rfl⟩ := (Registry.lifetime?_eq_some hbuild hd).mp hl
        rw [← hid, Registry.isExternal_eq hbuild hd ht] at hinternal
        have hok := (exists_serviceLifetimes_iff ha hbuild hcheck hsingle).mp ⟨found, hfound⟩
        exact ⟨_, hrelated, ⟨⟨s, hs, rfl, hx, hsingle⟩, ⟨x, hancestor, rfl⟩,
          t, ht, hid, hinternal, hlonger⟩, hok⟩
      · rw [serviceLifetimes, if_neg hsingle] at hfound
        cases hfound
        simp [kind_of_background hf] at hkind
    · simp [Fault.finding, Finding.report] at hkind
  · rintro ⟨i, rfl, ⟨⟨s, hs, rfl, hx, hsingle⟩, ⟨x, hancestor, rfl⟩, t, ht, hid, htx, htl⟩, hok⟩
    obtain ⟨found, hfound⟩ := (exists_serviceLifetimes_iff ha hbuild hcheck hsingle).mpr hok
    have hinternal : r.isExternal x.entry.identity = false := by
      rw [← hid, Registry.isExternal_eq hbuild hd ht, htx]
    have hlifetime := (Registry.lifetime?_eq_some hbuild hd).mpr ⟨t, ht, hid, rfl⟩
    have hmem := (mem_problems_bases hsingle hfound).mpr
      ⟨rfl, x, hancestor, hinternal, rfl, _, hlifetime, htl⟩
    obtain ⟨f, hf, hp⟩ := mem_problems.mp hmem
    exact mem_problems.mpr
      ⟨f, mem_lifetimes.mpr ⟨hcheck, s, hs, hx, .inl ⟨found, hfound, hf⟩⟩, hp⟩

theorem kind_of_stalls (hs : s ∈ a.services) (hsingle : s.lifetime = .singleton)
    (hstalls : Stalls r o a s.identity) {k : Kind} {related : Related}
    (h : (k, s.identity, related) ∈ problems (lifetimes r o a.services a.catalogue g)) :
    k = .internalError := by
  obtain ⟨f, hf, hp⟩ := mem_problems.mp h
  obtain ⟨-, t, ht, -, ⟨found, hfound, hf⟩ | ⟨fault, -, rfl⟩⟩ := mem_lifetimes.mp hf
  · have hid : t.identity = s.identity :=
      (subject_serviceLifetimes hfound hf).symm.trans (congrArg (fun p => p.2.1) hp)
    obtain rfl := List.inj_on_of_nodup_map (Snapshot.nodup_services ha) ht hs hid
    exact absurd hstalls ((exists_serviceLifetimes_iff ha hbuild hcheck hsingle).mp ⟨found, hfound⟩)
  · exact (congrArg Prod.fst hp).symm

theorem tellsOfBases_assemble (hreporting : o.reporting = true)
    (henabled : o.isDisabled .inheritedLifetime = false)
    (hres : Check.resolution r (Graph.build r o a.services) = .ok res) :
    TellsOfBases r o a (assemble o a r res) := by
  have honly : ∀ k ∈ Phase.lifetimes.kinds, k ≠ .internalError →
      ∀ phase : Phase, k ∈ phase.kinds → phase = .lifetimes :=
    fun _ hk hne _ hphase => Phase.eq_of_mem_kinds hne hphase hk
  have hmem : ∀ d related,
      (.inheritedLifetime, d, related) ∈ problems (assemble o a r res).findings ↔
        ∃ i, related = .identity i ∧ Inherits a d i ∧ ¬ Stalls r o a d := by
    intro d related
    rw [mem_problems_enabled (fun _ => Snapshot.kind_of_collect ha) hres hreporting henabled
      (honly _ (by decide) (by decide))]
    exact mem_problems_inherits ha hbuild hcheck
  have hnodup : (problems (assemble o a r res).findings).Nodup := nodup_problems_merge _ _ _
  refine ⟨fun d i hi hok => ?_, fun d i hnot => ?_, fun d related h => ?_,
    fun s hs hx hsingle hstalls => ⟨fun hfaults => ?_, fun k hk hne related h => ?_⟩⟩
  · exact List.count_eq_one_of_mem hnodup ((hmem _ _).mpr ⟨i, rfl, hi, hok⟩)
  · apply List.count_eq_zero_of_not_mem
    intro h
    obtain ⟨j, hj, hi, hok⟩ := (hmem _ _).mp h
    cases hj
    exact hnot.elim (fun hnot => hnot hi) hok
  · obtain ⟨i, hi, -⟩ := (hmem _ _).mp h
    exact ⟨i, hi⟩
  · have hraised : raised? r o a s .lifetimes ≠ none :=
      (raised_lifetimes_eq_none ha hbuild hcheck hsingle).not.mpr (not_not.mpr hstalls)
    obtain ⟨fault, hfault⟩ := Option.ne_none_iff_exists'.mp hraised
    obtain ⟨hf, hk⟩ :=
      (mem_found_internalError ha hres).mpr ⟨s, hs, hx, fault, hfault, rfl⟩
    exact mem_problems_assemble.mpr
      ⟨hreporting, hfaults, .lifetimes, mem_problems.mpr ⟨_, hf, rfl⟩⟩
  · obtain ⟨-, -, h⟩ := (mem_problems_of_phase (fun _ => Snapshot.kind_of_collect ha) hres
      (honly k hk hne)).mp h
    exact hne (kind_of_stalls ha hbuild hcheck hs hsingle hstalls h)

end Build

/-- The ancestors of a type in any catalogue are a finite walk over its base types that meets no
type twice. Every report that is returned states once each pair of a singleton and an ancestor of
it that is a service but no singleton, and no other pair, unless the fallback fails for what an
ancestor hands down: of what the check of lifetimes looks for, the fault alone is then reported of
the singleton. -/
theorem bases_reported_along_lineage (fuel : Nat) (o : Options) (supplied : Option Fallback)
    (fs : List Fragment) (hreporting : o.reporting = true) (hcheck : o.checkLifetimes = true)
    (henabled : o.isDisabled .inheritedLifetime = false) :
    (∀ es i, (Catalogue.ofEntries es).Lineage i ((Catalogue.ofEntries es).ancestors i)) ∧
    (Snapshot.ContractsFound fuel fs →
      ∃ a r, Snapshot.collect fuel fs = some a ∧ (∃ es, a.catalogue = .ofEntries es) ∧
        Registry.build fuel (chooseFallback o supplied) a.services a.catalogue = some r ∧
        (∀ x, verify fuel o supplied fs = .ok x → TellsOfBases r o a x) ∧
        ((∀ f ∈ supplied, f.Answers) →
          (∃ x, verify fuel o supplied fs = .ok x) ∧ ∀ d, ¬ Stalls r o a d)) ∧
    (¬ Snapshot.ContractsFound fuel fs → verify fuel o supplied fs = .error .outOfFuel) := by
  refine ⟨fun es i => Catalogue.lineage_ancestors (Catalogue.positioned_ofEntries es).nodup i,
    fun hfound => ?_, fun hlost => verify_eq_outOfFuel hlost o supplied⟩
  obtain ⟨a, r, ha, hbuild, herror, hreport⟩ := verify_of_contractsFound hfound o supplied
  refine ⟨a, r, ha, ⟨_, Snapshot.catalogue_of_collect ha⟩, hbuild, fun x hx => ?_,
    fun hanswers => ⟨?_, fun d => ?_⟩⟩
  · cases hres : Check.resolution r (Graph.build r o a.services) with
    | error fault =>
      rw [herror fault hres] at hx
      cases hx
    | ok res =>
      rw [hreport res hres] at hx
      cases hx
      exact tellsOfBases_assemble ha hbuild hcheck hreporting henabled hres
  · obtain ⟨res, hres⟩ := exists_resolution (answers_chooseFallback o hanswers) hbuild
      (Graph.build r o a.services)
    exact ⟨_, hreport res hres⟩
  · rintro ⟨x, -, b, -, -, -, dep, -, fault, hfault⟩
    rw [faultAt_eq_none (answers_chooseFallback o hanswers) hbuild] at hfault
    cases hfault

/-- A worker over two base types, each of which is based on the other at larger and larger types. -/
def loopFragments : List Fragment :=
  [{ name := "Worker", lifetime := some .singleton, base := some "Stage<User>" },
   { name := "Stage", params := ["T"], lifetime := some .perScope, base := some "Link<Box<T>, T>" },
   { name := "Link", params := ["A", "T"], lifetime := some .transient, base := some "Stage<A>" }]

theorem bases_reported_along_lineage_loop :
    Snapshot.ContractsFound 9 loopFragments ∧ (∀ f ∈ (none : Option Fallback), f.Answers) ∧
      ({} : Options).reporting = true ∧ ({} : Options).checkLifetimes = true ∧
      ({} : Options).isDisabled .inheritedLifetime = false ∧
      ∃ a x, Snapshot.collect 9 loopFragments = some a ∧
        verify 9 {} none loopFragments = .ok x ∧
        a.catalogue.Lineage ⟨"Worker", 0⟩ (a.catalogue.ancestors ⟨"Worker", 0⟩) ∧
        (a.catalogue.ancestors ⟨"Worker", 0⟩).map Ancestor.signature =
          [.app "Stage" [.named "User"],
           .app "Link" [.app "Box" [.named "User"], .named "User"]] ∧
        Inherits a ⟨"Worker", 0⟩ ⟨"Link", 2⟩ ∧
        (problems x.findings).count
          (.inheritedLifetime, ⟨"Worker", 0⟩, .identity ⟨"Link", 2⟩) = 1 := by
  have hfound : Snapshot.ContractsFound 9 loopFragments := by decide +kernel
  have hanswers : ∀ f ∈ (none : Option Fallback), f.Answers := by simp
  obtain ⟨hlineage, hreport, -⟩ :=
    bases_reported_along_lineage 9 {} none loopFragments rfl rfl (by decide)
  obtain ⟨a, r, ha, ⟨es, hes⟩, -, htells, hok⟩ := hreport hfound
  obtain ⟨⟨x, hx⟩, hstalls⟩ := hok hanswers
  have hsnapshot : ∃ a ∈ Snapshot.collect 9 loopFragments,
      (a.catalogue.ancestors ⟨"Worker", 0⟩).map Ancestor.signature =
        [.app "Stage" [.named "User"],
         .app "Link" [.app "Box" [.named "User"], .named "User"]] ∧
      Inherits a ⟨"Worker", 0⟩ ⟨"Link", 2⟩ := by
    decide +kernel
  obtain ⟨a', ha', hancestors, hinherits⟩ := hsnapshot
  obtain rfl : a = a' := Option.some.inj (ha.symm.trans ha')
  exact ⟨hfound, hanswers, rfl, rfl, by decide, a, x, ha, hx, hes ▸ hlineage es _, hancestors,
    hinherits, (htells x hx).once _ _ hinherits (hstalls _)⟩

/-- A worker whose base type asks for an `IRepo`. -/
def baseFragments : List Fragment :=
  [{ name := "Base", params := ["T"], lifetime := some .perScope
     requests := [{ target := "IRepo<T>", style := .list 0 }] },
   { name := "Worker", lifetime := some .singleton, base := some "Base<User>" }]

/-- The scoped base type of the worker is not reported, since the fallback fails for the repository
that the base type hands down. -/
theorem base_unreported_at_fault :
    ∃ a x, Snapshot.collect 9 baseFragments = some a ∧ Inherits a ⟨"Worker", 0⟩ ⟨"Base", 1⟩ ∧
      verify 9 {} (some failsForRepo) baseFragments = .ok x ∧
      (problems x.findings).count
        (.inheritedLifetime, ⟨"Worker", 0⟩, .identity ⟨"Base", 1⟩) = 0 := by
  have hsnapshot : ∃ a ∈ Snapshot.collect 9 baseFragments,
      Inherits a ⟨"Worker", 0⟩ ⟨"Base", 1⟩ := by
    decide +kernel
  have hreport : ∃ x ∈ (verify 9 {} (some failsForRepo) baseFragments).toOption,
      (problems x.findings).count
        (.inheritedLifetime, ⟨"Worker", 0⟩, .identity ⟨"Base", 1⟩) = 0 := by
    decide +kernel
  obtain ⟨a, ha, hinherits⟩ := hsnapshot
  obtain ⟨x, hx, hcount⟩ := hreport
  exact ⟨a, x, ha, hinherits, verify_of_mem_toOption hx, hcount⟩

end Report

end Injection
