import Injection.Proofs.Order
import Injection.Proofs.Problems
import Injection.Proofs.Sorted
import Mathlib.Data.List.Induction

/-! What merging makes of the findings of all phases. It keeps the first report of each problem of
an enabled kind and puts these in order, and there is nothing left to do when it is done again.
Findings of some kinds can be left out before they are merged or after: the kind is a part of the
problem that a finding reports, so a finding never gives way to one of another kind. -/
namespace Injection.Finding

instance (order : List Identity) : Std.TransCmp (compareIn order) :=
  inferInstanceAs (Std.TransCmp (compareLex (compareOn (place order))
    (compareLex (compareOn subject) (compareLex (compareOn fun f => f.kind.code)
      (compareLex (compareOn fun f => f.related.render) (compareOn message))))))

/-- What was seen of other kinds does not matter. -/
theorem filter_distinct {keep : Kind → Bool} {seen seen' : List (Kind × Identity × Related)}
    (h : ∀ p, keep p.1 = true → (p ∈ seen ↔ p ∈ seen')) (fs : List Finding) :
    (distinct seen fs).filter (fun f => keep f.kind) =
      distinct seen' (fs.filter fun f => keep f.kind) := by
  induction fs generalizing seen seen' with
  | nil => rfl
  | cons f fs ih =>
    by_cases hkeep : keep f.kind = true
    · have hseen : f.problem ∈ seen ↔ f.problem ∈ seen' := h f.problem hkeep
      have htail : ∀ p, keep p.1 = true → (p ∈ f.problem :: seen ↔ p ∈ f.problem :: seen') := by
        intro p hp
        rw [List.mem_cons, List.mem_cons, h p hp]
      by_cases hf : f.problem ∈ seen
      · simp [distinct, hkeep, hf, hseen.mp hf, ih h]
      · have hf' : f.problem ∉ seen' := fun hmem => hf (hseen.mpr hmem)
        simp [distinct, hkeep, hf, hf', ih htail]
    · have htail : ∀ p, keep p.1 = true → (p ∈ f.problem :: seen ↔ p ∈ seen') := by
        intro p hp
        have hne : p ≠ f.problem := by
          rintro rfl
          exact hkeep hp
        rw [List.mem_cons, or_iff_right hne, h p hp]
      by_cases hf : f.problem ∈ seen
      · simp [distinct, hkeep, hf, ih h]
      · simp [distinct, hkeep, hf, ih htail]

theorem filter_merge (o : Options) (order : List Identity) (buffers : List (List Finding))
    (keep : Kind → Bool) :
    (merge o order buffers).filter (fun f => keep f.kind) =
      merge o order (buffers.map fun fs => fs.filter fun f => keep f.kind) := by
  have henabled : (buffers.flatten.filter fun f => !o.isDisabled f.kind).filter
        (fun f => keep f.kind) =
      (buffers.map fun fs => fs.filter fun f => keep f.kind).flatten.filter
        fun f => !o.isDisabled f.kind := by
    rw [← List.filter_flatten, List.filter_comm]
  unfold merge
  split
  · dsimp only
    rw [Sorted.filter_sortBy_isLE, List.filter_map, ← henabled,
      ← filter_distinct (fun _ _ => Iff.rfl)]
    rfl
  · rfl

/-! ## First reports -/

/-- The findings of enabled kinds that report a problem which no earlier finding reports. -/
def firstReports (o : Options) (fs : List Finding) : List Finding :=
  (fs.zipIdx.filter fun (f, n) =>
    !o.isDisabled f.kind && !(problems (fs.take n)).contains f.problem).map Prod.fst

/-- The finding with the severity that the options give to its kind. -/
def graded (o : Options) (f : Finding) : Finding := { f with severity := o.severityOf f.kind }

theorem firstReports_concat (o : Options) (fs : List Finding) (f : Finding) :
    firstReports o (fs ++ [f]) = firstReports o fs ++
      if o.isDisabled f.kind = false ∧ f.problem ∉ problems fs then [f] else [] := by
  have hearlier : ∀ p ∈ fs.zipIdx, (fs ++ [f]).take p.2 = fs.take p.2 := by
    intro p hp
    have hlt := List.snd_lt_of_mem_zipIdx hp
    rw [List.take_append_of_le_length (by omega)]
  unfold firstReports
  rw [List.zipIdx_append, List.filter_append, List.map_append]
  congr 1
  · refine congrArg (List.map Prod.fst) (List.filter_congr fun p hp => ?_)
    dsimp only
    rw [hearlier p hp]
  · by_cases hd : o.isDisabled f.kind = false <;> by_cases hp : f.problem ∈ problems fs <;>
      simp [hd, hp]

theorem distinct_concat (seen : List (Kind × Identity × Related)) (fs : List Finding)
    (f : Finding) :
    distinct seen (fs ++ [f]) = distinct seen fs ++
      if f.problem ∈ seen ∨ f.problem ∈ problems fs then [] else [f] := by
  induction fs generalizing seen with
  | nil => by_cases hf : f.problem ∈ seen <;> simp [distinct, hf]
  | cons g fs ih =>
    rw [List.cons_append, distinct, distinct]
    by_cases hg : g.problem ∈ seen
    · rw [if_pos hg, if_pos hg, ih]
      by_cases hf : f.problem = g.problem
      · simp [hf, hg]
      · simp [hf]
    · rw [if_neg hg, if_neg hg, ih, List.cons_append]
      simp only [problems_cons, List.mem_cons, or_assoc, or_left_comm]

theorem distinct_enabled (o : Options) (fs : List Finding) :
    distinct [] (fs.filter fun f => !o.isDisabled f.kind) = firstReports o fs := by
  induction fs using List.reverseRecOn with
  | nil => rfl
  | append_singleton fs f ih =>
    rw [List.filter_append, firstReports_concat, ← ih]
    by_cases hd : o.isDisabled f.kind = true
    · simp [hd]
    -- A finding of the same problem has the same kind, and so it is enabled as well.
    · have hseen : f.problem ∈ problems (fs.filter fun f => !o.isDisabled f.kind) ↔
          f.problem ∈ problems fs := by
        rw [mem_problems, mem_problems]
        constructor
        · intro ⟨g, hg, hp⟩
          exact ⟨g, (List.mem_filter.mp hg).1, hp⟩
        · intro ⟨g, hg, hp⟩
          have hkind : g.kind = f.kind := congrArg Prod.fst hp
          exact ⟨g, List.mem_filter.mpr ⟨hg, by simp [hkind, hd]⟩, hp⟩
      have hone : ([f].filter fun f => !o.isDisabled f.kind) = [f] := by simp [hd]
      rw [hone, distinct_concat]
      by_cases hf : f.problem ∈ problems fs <;> simp [hd, hseen, hf]

theorem merge_eq_sortBy {o : Options} (h : o.reporting) (order : List Identity)
    (buffers : List (List Finding)) :
    merge o order buffers = Sorted.sortBy (fun a b => (compareIn order a b).isLE)
      ((firstReports o buffers.flatten).map (graded o)) := by
  rw [merge, if_pos h, ← distinct_enabled]
  rfl

/-! ## The order of findings -/

/-- The rank of an identity is its last position in the order of declarations. One that is not
declared comes after all others. -/
inductive HasRank (order : List Identity) (i : Identity) : Nat → Prop
  | known {n : Nat} (here : order[n]? = some i) (last : ∀ m, order[m]? = some i → m ≤ n) :
    HasRank order i n
  | unknown (absent : i ∉ order) : HasRank order i order.length

/-- The first finding comes before the second: by rank of the subject, by subject, by code, by the
text of what they are related to, by message. -/
inductive Precedes (order : List Identity) (a b : Finding) : Prop
  | rank {m n : Nat} (ha : HasRank order a.subject m) (hb : HasRank order b.subject n)
    (lt : m < n)
  | subject {n : Nat} (ha : HasRank order a.subject n) (hb : HasRank order b.subject n)
    (lt : compare a.subject b.subject = .lt)
  | code (subject : a.subject = b.subject) (lt : a.kind.code < b.kind.code)
  | related (subject : a.subject = b.subject) (code : a.kind.code = b.kind.code)
    (lt : a.related.render < b.related.render)
  | message (subject : a.subject = b.subject) (code : a.kind.code = b.kind.code)
    (related : a.related.render = b.related.render) (lt : a.message < b.message)

/-- Nothing decides which of the findings comes first. -/
structure Tied (a b : Finding) : Prop where
  subject : a.subject = b.subject
  code : a.kind.code = b.kind.code
  related : a.related.render = b.related.render
  message : a.message = b.message

theorem zipIdx_reverse_concat (order : List Identity) (j : Identity) :
    (order ++ [j]).zipIdx.reverse = (j, order.length) :: order.zipIdx.reverse := by
  simp [List.zipIdx_append]

theorem last_of_lookup {order : List Identity} {i : Identity} {n : Nat}
    (h : order.zipIdx.reverse.lookup i = some n) :
    order[n]? = some i ∧ ∀ m, order[m]? = some i → m ≤ n := by
  induction order using List.reverseRecOn with
  | nil => simp at h
  | append_singleton order j ih =>
    rw [zipIdx_reverse_concat, Sorted.lookup_cons_ite] at h
    split at h
    next hij =>
      cases h
      refine ⟨by simp [hij], fun m hm => ?_⟩
      have hlt := (List.getElem?_eq_some_iff.mp hm).1
      simp only [List.length_append, List.length_singleton] at hlt
      omega
    next hij =>
      obtain ⟨hhere, hlast⟩ := ih h
      have hn := (List.getElem?_eq_some_iff.mp hhere).1
      refine ⟨by rw [List.getElem?_append_left hn, hhere], fun m hm => ?_⟩
      by_cases hm' : m < order.length
      · exact hlast m (by rwa [List.getElem?_append_left hm'] at hm)
      · rw [List.getElem?_append_right (by omega), List.getElem?_singleton] at hm
        split at hm
        · cases hm
          exact absurd rfl hij
        · cases hm

theorem absent_of_lookup {order : List Identity} {i : Identity}
    (h : order.zipIdx.reverse.lookup i = none) : i ∉ order := by
  intro hi
  obtain ⟨n, hn⟩ := List.mem_iff_getElem?.mp hi
  have hmem : (i, n) ∈ order.zipIdx.reverse := by simpa [List.mem_zipIdx_iff_getElem?] using hn
  simpa using List.lookup_eq_none_iff.mp h (i, n) hmem

theorem hasRank_place (order : List Identity) (f : Finding) :
    HasRank order f.subject (f.place order) := by
  unfold place
  cases h : order.zipIdx.reverse.lookup f.subject with
  | some n => exact .known (last_of_lookup h).1 (last_of_lookup h).2
  | none => exact .unknown (absent_of_lookup h)

theorem precedes_or_tied {order : List Identity} {a b : Finding}
    (h : (compareIn order a b).isLE) : Precedes order a b ∨ Tied a b := by
  have ha := hasRank_place order a
  have hb := hasRank_place order b
  simp only [compareIn, Ordering.isLE_then_iff_or, Nat.compare_eq_lt,
    Std.LawfulEqOrd.compare_eq_iff_eq] at h
  rcases h with hlt | ⟨hplace, hlt | ⟨hsubject, hlt | ⟨hcode, hlt | ⟨hrelated, hle⟩⟩⟩⟩
  · exact .inl (.rank ha hb hlt)
  · exact .inl (.subject (hplace ▸ ha) hb hlt)
  · exact .inl (.code hsubject (compareOfLessAndEq_eq_lt.mp hlt))
  · exact .inl (.related hsubject hcode (compareOfLessAndEq_eq_lt.mp hlt))
  · rcases Ordering.isLE_iff_eq_lt_or_eq_eq.mp hle with hlt | heq
    · exact .inl (.message hsubject hcode hrelated (compareOfLessAndEq_eq_lt.mp hlt))
    · exact .inr ⟨hsubject, hcode, hrelated, Std.LawfulEqOrd.eq_of_compare heq⟩

theorem Tied.compareIn_eq {a b : Finding} (h : Tied a b) (order : List Identity) :
    compareIn order a b = .eq := by
  have hplace : a.place order = b.place order := by rw [place, place, h.subject]
  simp [compareIn, hplace, h.subject, h.code, h.related, h.message]

theorem distinct_eq_self {seen : List (Kind × Identity × Related)} {fs : List Finding}
    (hd : (problems fs).Nodup) (hseen : ∀ p ∈ problems fs, p ∉ seen) : distinct seen fs = fs := by
  induction fs generalizing seen with
  | nil => rfl
  | cons f fs ih =>
    obtain ⟨hf, hfs⟩ := List.nodup_cons.mp hd
    obtain ⟨hfseen, hfsseen⟩ := List.forall_mem_cons.mp hseen
    rw [distinct, if_neg hfseen, ih hfs]
    intro p hp
    rw [List.mem_cons, not_or]
    refine ⟨?_, hfsseen p hp⟩
    rintro rfl
    exact hf hp

theorem merge_merge {o : Options} (h : o.reporting) (order : List Identity)
    (buffers : List (List Finding)) :
    merge o order [merge o order buffers] = merge o order buffers := by
  have henabled : ∀ f ∈ merge o order buffers, (!o.isDisabled f.kind) = true := by
    intro f hf
    have hp := (mem_problems_merge.mp (mem_problems.mpr ⟨f, hf, rfl⟩)).2.1
    simpa [problem] using hp
  have hgraded : (merge o order buffers).map (graded o) = merge o order buffers := by
    refine (List.map_congr_left fun f hf => ?_).trans (List.map_id _)
    rw [graded, ← severity_of_mem_merge hf]
    rfl
  have hdistinct : distinct [] (merge o order buffers) = merge o order buffers :=
    distinct_eq_self (nodup_problems_merge o order buffers) (by simp)
  have hsorted : (merge o order buffers).Pairwise fun a b => (compareIn order a b).isLE := by
    rw [merge_eq_sortBy h]
    exact Sorted.pairwise_sortBy_isLE _
  have hfirst : firstReports o (merge o order buffers) = merge o order buffers := by
    rw [← distinct_enabled, List.filter_eq_self.mpr henabled, hdistinct]
  calc merge o order [merge o order buffers]
      = Sorted.sortBy (fun a b => (compareIn order a b).isLE)
          ((firstReports o (merge o order buffers)).map (graded o)) := by
        rw [merge_eq_sortBy h, List.flatten_singleton]
    _ = Sorted.sortBy (fun a b => (compareIn order a b).isLE) (merge o order buffers) := by
        rw [hfirst, hgraded]
    _ = merge o order buffers := Sorted.sortBy_of_pairwise hsorted

/-- Merged findings are the first reports of all problems of enabled kinds, with the severities that
the options give. They are sorted, and where nothing decides they stand as the phases made them.
Merging them once more changes nothing. -/
theorem merge_keeps_first_reports (o : Options) (order : List Identity)
    (buffers : List (List Finding)) (h : o.reporting) :
    (merge o order buffers).Perm ((firstReports o buffers.flatten).map (graded o)) ∧
      (merge o order buffers).Pairwise (fun a b => Precedes order a b ∨
        Tied a b ∧ [a, b].Sublist ((firstReports o buffers.flatten).map (graded o))) ∧
      merge o order [merge o order buffers] = merge o order buffers := by
  refine ⟨?_, ?_, merge_merge h order buffers⟩
  · rw [merge_eq_sortBy h]
    exact Sorted.perm_sortBy _ _
  · rw [merge_eq_sortBy h]
    refine (Sorted.stable_sortBy_isLE _).imp fun {a b} hab => ?_
    rcases precedes_or_tied hab.1 with hprecedes | htied
    · exact .inl hprecedes
    · have hba : compareIn order b a = .eq := Std.OrientedCmp.eq_symm (htied.compareIn_eq order)
      exact .inr ⟨htied, hab.2 (by simp [hba])⟩

/-- A problem that is reported twice, a related service and a related text that print alike, a
finding of a disabled kind and one on a type that is not declared. -/
def alikeBuffers : List (List Finding) :=
  [[.report .inheritedLifetime ⟨"Cache", 0⟩ (.text "Clock") "late",
    .report .noImplementation ⟨"Shop", 0⟩ .nothing "disabled",
    .report .internalError ⟨"Gone", 0⟩ .nothing "not declared"],
   [.report .inheritedLifetime ⟨"Cache", 0⟩ (.identity ⟨"Clock", 0⟩) "late",
    .report .inheritedLifetime ⟨"Cache", 0⟩ (.text "Clock") "again",
    .report .circularDependency ⟨"Shop", 0⟩ .nothing "ring"]]

def alikeOptions : Options := { disabled := [.noImplementation], lifetimes := .info }

/-- The cache is declared twice, and the later place counts. -/
def alikeOrder : List Identity := [⟨"Cache", 0⟩, ⟨"Shop", 0⟩, ⟨"Cache", 0⟩]

def alikeMerged : List Finding :=
  [.report .circularDependency ⟨"Shop", 0⟩ .nothing "ring",
   ⟨.inheritedLifetime, .info, ⟨"Cache", 0⟩, .text "Clock", none, "late"⟩,
   ⟨.inheritedLifetime, .info, ⟨"Cache", 0⟩, .identity ⟨"Clock", 0⟩, none, "late"⟩,
   .report .internalError ⟨"Gone", 0⟩ .nothing "not declared"]

theorem merge_keeps_first_reports_alike :
    alikeOptions.reporting ∧ merge alikeOptions alikeOrder alikeBuffers = alikeMerged ∧
      alikeMerged.Perm
        ((firstReports alikeOptions alikeBuffers.flatten).map (graded alikeOptions)) ∧
      alikeMerged.Pairwise (fun a b => Precedes alikeOrder a b ∨ Tied a b ∧
        [a, b].Sublist
          ((firstReports alikeOptions alikeBuffers.flatten).map (graded alikeOptions))) ∧
      merge alikeOptions alikeOrder [alikeMerged] = alikeMerged := by
  have hvalue : merge alikeOptions alikeOrder alikeBuffers = alikeMerged := by decide +kernel
  have hmerge := merge_keeps_first_reports alikeOptions alikeOrder alikeBuffers (by decide)
  rw [hvalue] at hmerge
  exact ⟨by decide, hvalue, hmerge⟩

end Injection.Finding
