import Injection.Proofs.Casing
import Injection.Proofs.Phases
import Mathlib.Data.List.Find

/-! Environments that a condition both requires and excludes. Two names mean the same environment if
their lower case forms are equal, but repetitions are told by ASCII case alone. Of the required names
that are excluded the first of each ASCII spelling is reported, hence the first of each environment
exactly if no two of them differ in the case of other letters. -/
namespace Injection

namespace Text

/-! ## Trimmed items -/

theorem head_dropWhile_isBlank {cs : List Char} :
    ∀ c ∈ (cs.dropWhile isBlank).head?, isBlank c = false := by
  intro c hc
  have hne := List.head?_dropWhile_not isBlank cs
  rw [Option.mem_def.mp hc] at hne
  simpa using hne

theorem trimChars_trimChars (cs : List Char) : trimChars (trimChars cs) = trimChars cs := by
  have hfront : ∀ c ∈ (trimChars cs).head?, isBlank c = false := by
    intro c hc
    refine @head_dropWhile_isBlank cs c ?_
    rw [dropWhile_eq_trimChars_append, List.head?_append, Option.mem_def.mp hc]
    rfl
  have hback : ∀ c ∈ (trimChars cs).reverse.head?, isBlank c = false := by
    rw [trimChars, List.reverse_reverse]
    exact head_dropWhile_isBlank
  have hblank : ∀ c ∈ ([] : List Char), isBlank c = true := by simp
  have hdrop := dropWhile_isBlank_append hblank hfront
  have hdrop' := dropWhile_isBlank_append hblank hback
  rw [List.nil_append] at hdrop hdrop'
  rw [trimChars, hdrop, hdrop', List.reverse_reverse]

theorem trim_of_mem_items {separates : Char → Bool} {s item : String}
    (h : item ∈ items separates s) : trim item = item ∧ item ≠ "" := by
  obtain ⟨hpiece, hne⟩ := List.mem_filter.mp h
  obtain ⟨piece, -, rfl⟩ := List.mem_map.mp hpiece
  refine ⟨?_, by simpa using hne⟩
  rw [trim, String.toList_ofList, trimChars_trimChars]

end Text

open Text

namespace Condition

/-- The names mean the same environment. -/
def sameEnvironment (a b : String) : Bool := lowercase a == lowercase b

/-- The name means an environment of the list. -/
def isListed (list e : String) : Bool := (environments list).any fun x => sameEnvironment x e

/-- Of each required name that is excluded exactly one spelling is found, the first of the required
ones. Which names are spellings of one another is told by `same`. -/
def FindsFirst (same : String → String → Bool) (c : Condition) (required excluded : String) : Prop :=
  ∀ e ∈ environments required, isListed excluded e = true →
    ∃ f, (environments required).find? (fun g => same g e) = some f ∧
      ∀ f', f' ∈ c.conflicts ∧ same f' e = true ↔ f' = f

/-- Required names of one excluded environment differ in ASCII case at most. -/
def DifferInAscii (required excluded : String) : Prop :=
  ∀ e ∈ environments required, isListed excluded e = true → ∀ e' ∈ environments required,
    sameEnvironment e' e = true → eqIgnoringAsciiCase e' e = true

/-! ## First spellings -/

/-- The names in order, without those that repeat an earlier one in other ASCII case. -/
def firstSpellings (names : List String) : List String :=
  names.foldl (fun found e =>
    if found.any fun f => eqIgnoringAsciiCase f e then found else found ++ [e]) []

theorem firstSpellings_concat (names : List String) (e : String) :
    firstSpellings (names ++ [e]) =
      if (firstSpellings names).any fun f => eqIgnoringAsciiCase f e then firstSpellings names
      else firstSpellings names ++ [e] := by
  simp [firstSpellings]

theorem mem_folded_firstSpellings {names : List String} {cs : List Char} :
    cs ∈ (firstSpellings names).map folded ↔ cs ∈ names.map folded := by
  induction names using List.reverseRecOn with
  | nil => rfl
  | append_singleton names e ih =>
    rw [firstSpellings_concat, List.map_append, List.mem_append, ← ih]
    split
    next hany =>
      obtain ⟨f, hf, hsame⟩ := List.any_eq_true.mp hany
      have hmem : folded e ∈ (firstSpellings names).map folded :=
        List.mem_map.mpr ⟨f, hf, eqIgnoringAsciiCase_iff.mp hsame⟩
      simp only [List.map_singleton, List.mem_singleton]
      constructor
      · exact .inl
      · rintro (hcs | rfl)
        · exact hcs
        · exact hmem
    · rw [List.map_append, List.mem_append]

/-- What is kept of a spelling is the first name that has it. -/
theorem mem_firstSpellings {names : List String} {f : String} :
    f ∈ firstSpellings names ↔ names.find? (fun g => eqIgnoringAsciiCase g f) = some f := by
  induction names using List.reverseRecOn with
  | nil => simp [firstSpellings]
  | append_singleton names e ih =>
    have hany : (firstSpellings names).any (fun g => eqIgnoringAsciiCase g e) = true ↔
        ∃ g ∈ names, eqIgnoringAsciiCase g e = true := by
      have hmem := @mem_folded_firstSpellings names (folded e)
      simpa [List.mem_map, eqIgnoringAsciiCase_iff] using hmem
    rw [firstSpellings_concat, List.find?_append]
    cases hfind : names.find? fun g => eqIgnoringAsciiCase g f with
    | some g =>
      rw [hfind] at ih
      have hg : eqIgnoringAsciiCase g f = true := by simpa using List.find?_some hfind
      have hmem : g ∈ names := List.mem_of_find?_eq_some hfind
      split
      · simpa using ih
      next hnone =>
        -- The new name is spelled unlike all before it, and so unlike `f`.
        have hne : f ≠ e := by
          rintro rfl
          exact hnone (hany.mpr ⟨g, hmem, hg⟩)
        simpa [hne] using ih
    | none =>
      rw [hfind] at ih
      have hnew : f ∉ firstSpellings names := by simp [ih]
      split
      next hsome =>
        obtain ⟨g, hg, hge⟩ := hany.mp hsome
        have hne : e ≠ f := by
          rintro rfl
          exact List.find?_eq_none.mp hfind g hg hge
        simp [hnew, hne]
      · rw [List.mem_append, List.mem_singleton]
        constructor
        · rintro (hf | rfl)
          · exact absurd hf hnew
          · simp [eqIgnoringAsciiCase]
        · intro h
          have hlast : eqIgnoringAsciiCase e f = true ∧ e = f := by simpa using h
          exact .inr hlast.2.symm

/-! ## Names that are required and excluded -/

theorem sameEnvironment_of_ascii {a b : String} (h : eqIgnoringAsciiCase a b = true) :
    sameEnvironment a b = true :=
  beq_iff_eq.mpr (lowercase_eq_of_folded (eqIgnoringAsciiCase_iff.mp h))

theorem isListed_congr {a b : String} (h : sameEnvironment a b = true) (list : String) :
    isListed list a = isListed list b := by
  have heq : lowercase a = lowercase b := beq_iff_eq.mp h
  simp only [isListed, sameEnvironment, heq]

section Lists
variable {c : Condition} {required excluded : String} (hr : c.environment = some required)
  (hx : c.notEnvironment = some excluded)
include hr hx

theorem conflicts_eq :
    c.conflicts = firstSpellings ((environments required).filter (isListed excluded)) := by
  have hlisted : ∀ e, decide (lowercase e ∈ (environments excluded).map lowercase) =
      isListed excluded e := by
    intro e
    rw [Bool.eq_iff_iff]
    simp [isListed, sameEnvironment]
  rw [firstSpellings, List.foldl_filter, conflicts, hr, hx]
  dsimp only
  congr 1
  funext found e
  rw [hlisted]
  cases isListed excluded e <;> cases found.any fun f => eqIgnoringAsciiCase f e <;> rfl

theorem mem_conflicts {f : String} :
    f ∈ c.conflicts ↔ isListed excluded f = true ∧
      (environments required).find? (fun g => eqIgnoringAsciiCase g f) = some f := by
  rw [conflicts_eq hr hx, mem_firstSpellings, List.find?_filter]
  have hsame : isListed excluded f = true →
      (fun g => decide (isListed excluded g = true ∧ eqIgnoringAsciiCase g f = true)) =
        fun g => eqIgnoringAsciiCase g f := by
    intro hf
    funext g
    cases hg : eqIgnoringAsciiCase g f with
    | false => simp
    | true => simp [isListed_congr (sameEnvironment_of_ascii hg) excluded, hf]
  constructor
  · intro hfind
    have hf : isListed excluded f = true := by
      have := List.find?_some hfind
      simp_all
    exact ⟨hf, by rwa [hsame hf] at hfind⟩
  · rintro ⟨hf, hfind⟩
    rwa [hsame hf]

theorem findsFirst_ascii : FindsFirst eqIgnoringAsciiCase c required excluded := by
  intro e he hlisted
  have hself : eqIgnoringAsciiCase e e = true := by simp [eqIgnoringAsciiCase]
  have hsome : ((environments required).find? fun g => eqIgnoringAsciiCase g e).isSome = true :=
    List.find?_isSome.mpr ⟨e, he, hself⟩
  obtain ⟨f, hf⟩ := Option.isSome_iff_exists.mp hsome
  refine ⟨f, hf, fun f' => ?_⟩
  have hsame : eqIgnoringAsciiCase f' e = true → (f' ∈ c.conflicts ↔ f' = f) := by
    intro hf'
    have hspelled : (fun g => eqIgnoringAsciiCase g f') = fun g => eqIgnoringAsciiCase g e := by
      funext g
      simp only [eqIgnoringAsciiCase, beq_iff_eq.mp hf']
    rw [mem_conflicts hr hx, hspelled, hf, isListed_congr (sameEnvironment_of_ascii hf'), hlisted]
    simp [eq_comm]
  constructor
  · rintro ⟨hmem, hf'⟩
    exact (hsame hf').mp hmem
  · rintro rfl
    have hf' : eqIgnoringAsciiCase f' e = true := by simpa using List.find?_some hf
    exact ⟨(hsame hf').mpr rfl, hf'⟩

theorem mem_required {f : String} (h : f ∈ c.conflicts) : f ∈ environments required :=
  List.mem_of_find?_eq_some ((mem_conflicts hr hx).mp h).2

theorem findsFirst_iff :
    FindsFirst sameEnvironment c required excluded ↔ DifferInAscii required excluded := by
  have hascii := findsFirst_ascii hr hx
  constructor
  · intro h e he hlisted e' he' hsame
    have hlisted' : isListed excluded e' = true := (isListed_congr hsame excluded).trans hlisted
    obtain ⟨f, -, hf⟩ := hascii e he hlisted
    obtain ⟨f', -, hf'⟩ := hascii e' he' hlisted'
    obtain ⟨first, -, hfirst⟩ := h e he hlisted
    -- The spellings that stand for the two names are found, and only one is.
    obtain ⟨hmem, hfe⟩ := (hf f).mpr rfl
    obtain ⟨hmem', hfe'⟩ := (hf' f').mpr rfl
    have heq : f = first := (hfirst f).mp ⟨hmem, sameEnvironment_of_ascii hfe⟩
    have heq' : f' = first := by
      refine (hfirst f').mp ⟨hmem', beq_iff_eq.mpr ?_⟩
      exact (beq_iff_eq.mp (sameEnvironment_of_ascii hfe')).trans (beq_iff_eq.mp hsame)
    rw [eqIgnoringAsciiCase_iff] at hfe hfe' ⊢
    rw [← hfe, ← hfe', heq, heq']
  · intro h e he hlisted
    have hsame : ∀ g ∈ environments required,
        sameEnvironment g e = eqIgnoringAsciiCase g e := by
      intro g hg
      exact Bool.eq_iff_iff.mpr ⟨h e he hlisted g hg, sameEnvironment_of_ascii⟩
    obtain ⟨f, hfind, hf⟩ := hascii e he hlisted
    refine ⟨f, (List.find?_congr hsame).trans hfind, fun f' => ?_⟩
    rw [← hf f']
    refine and_congr_right fun hmem => ?_
    rw [hsame f' (mem_required hr hx hmem)]

/-- Names of one environment that are both found are the same. -/
theorem eq_of_mem_conflicts (h : DifferInAscii required excluded) {f f' : String}
    (hf : f ∈ c.conflicts) (hf' : f' ∈ c.conflicts) (hsame : sameEnvironment f' f = true) :
    f' = f := by
  have hlisted := ((mem_conflicts hr hx).mp hf).1
  obtain ⟨first, -, hfirst⟩ := (findsFirst_iff hr hx).mpr h f (mem_required hr hx hf) hlisted
  rw [(hfirst f').mp ⟨hf', hsame⟩, (hfirst f).mp ⟨hf, beq_self_eq_true _⟩]

end Lists

theorem differInAscii_of_ascii {required excluded : String}
    (h : ∀ e ∈ environments required, ∀ ch ∈ e.toList, ch.toNat < 128) :
    DifferInAscii required excluded := by
  intro e he _ e' he' hsame
  have hlower := beq_iff_eq.mp hsame
  rw [lowercase, lowercase, lowerAfter_of_ascii (h e he), lowerAfter_of_ascii (h e' he')] at hlower
  exact beq_iff_eq.mpr hlower

end Condition

/-! ## Reports -/

theorem Check.mem_problems_conflict {s : Service} {services : List Service} (hs : s ∈ services)
    {c : Condition} (hc : c ∈ s.conditions) {f : String} (hf : f ∈ c.conflicts) :
    (.conditionalConflicting, s.identity, .text s!"environment:{f}") ∈
      Finding.problems (declarations services) := by
  have hcondition : (Kind.conditionalConflicting, s.identity, Related.text s!"environment:{f}") ∈
      Finding.problems (condition s c) := by
    simp only [condition, Finding.problems_append, List.mem_append]
    refine .inl (.inl (Finding.mem_problems.mpr ⟨_, List.mem_map_of_mem hf, rfl⟩))
  obtain ⟨finding, hfinding, hproblem⟩ := Finding.mem_problems.mp hcondition
  refine Finding.mem_problems.mpr ⟨finding, ?_, hproblem⟩
  refine List.mem_flatMap.mpr ⟨s, hs, ?_⟩
  simp only [declaration, conditions, List.mem_append, List.mem_flatMap]
  exact .inr (.inr ⟨c, hc, hfinding⟩)

namespace Report
open Condition Finding

/-- The findings that the service requires and excludes the environment `e` by the condition. -/
def conflictsOver (x : Report) (s : Service) (c : Condition) (e : String) : List Finding :=
  x.findings.filter fun f => f.kind = .conditionalConflicting ∧ f.subject = s.identity ∧
    ∃ n ∈ c.conflicts, sameEnvironment n e = true ∧ f.related = .text s!"environment:{n}"

theorem length_conflictsOver_le {x : Report} (hnodup : (problems x.findings).Nodup)
    {c : Condition} {required excluded : String} (hr : c.environment = some required)
    (hx : c.notEnvironment = some excluded) (h : DifferInAscii required excluded) (s : Service)
    (e : String) : (x.conflictsOver s c e).length ≤ 1 := by
  have hpairs : (x.conflictsOver s c e).Pairwise fun f f' => f.problem ≠ f'.problem :=
    List.pairwise_map.mp (hnodup.sublist (List.filter_sublist.map problem))
  match hover : x.conflictsOver s c e with
  | [] => simp
  | [f] => simp
  | f :: f' :: rest =>
    exfalso
    have hfind : ∀ g ∈ x.conflictsOver s c e, g.kind = .conditionalConflicting ∧
        g.subject = s.identity ∧ ∃ n ∈ c.conflicts, sameEnvironment n e = true ∧
          g.related = .text s!"environment:{n}" := by
      intro g hg
      exact of_decide_eq_true (List.mem_filter.mp hg).2
    rw [hover] at hpairs hfind
    obtain ⟨hk, hs, n, hn, hne, hrel⟩ := hfind f (by simp)
    obtain ⟨hk', hs', n', hn', hne', hrel'⟩ := hfind f' (by simp)
    have hsame : sameEnvironment n' n = true :=
      beq_iff_eq.mpr ((beq_iff_eq.mp hne').trans (beq_iff_eq.mp hne).symm)
    obtain rfl := eq_of_mem_conflicts hr hx h hn hn' hsame
    refine (List.pairwise_cons.mp hpairs).1 f' (by simp) ?_
    simp only [problem, hk, hs, hrel, hk', hs', hrel']

/-- The names that a condition is found to require and exclude are required names of excluded
environments. Of each such name the first ASCII spelling is found and no other, and hence the first
spelling of its environment exactly if required names of one environment differ in ASCII case at
most, as they do if they are written in ASCII. Each of them is reported once, and then there is at
most one report for each environment of a condition. -/
theorem conflicts_found_by_spelling (c : Condition) (required excluded : String)
    (hr : c.environment = some required) (hx : c.notEnvironment = some excluded) :
    (∀ f ∈ c.conflicts, f ∈ environments required ∧ Text.trim f = f ∧ f ≠ "" ∧
      ∃ x ∈ environments excluded, sameEnvironment x f = true) ∧
    FindsFirst Text.eqIgnoringAsciiCase c required excluded ∧
    (FindsFirst sameEnvironment c required excluded ↔ DifferInAscii required excluded) ∧
    ((∀ e ∈ environments required, ∀ ch ∈ e.toList, ch.toNat < 128) →
      DifferInAscii required excluded) ∧
    ∀ fuel o supplied fs x, verify fuel o supplied fs = .ok x → ∀ s ∈ x.services,
      c ∈ s.conditions →
      (o.reporting = true → o.isDisabled .conditionalConflicting = false → ∀ f ∈ c.conflicts,
        (problems x.findings).count
          (.conditionalConflicting, s.identity, .text s!"environment:{f}") = 1) ∧
      (DifferInAscii required excluded → ∀ e, (x.conflictsOver s c e).length ≤ 1) := by
  refine ⟨fun f hf => ?_, findsFirst_ascii hr hx, findsFirst_iff hr hx, differInAscii_of_ascii,
    fun fuel o supplied fs x hverify s hs hc => ?_⟩
  · have hmem := mem_required hr hx hf
    obtain ⟨htrim, hne⟩ := Text.trim_of_mem_items hmem
    exact ⟨hmem, htrim, hne, List.any_eq_true.mp ((mem_conflicts hr hx).mp hf).1⟩
  · obtain ⟨a, r, res, ha, -, hres, rfl⟩ := verify_cases hverify
    have hnodup : (problems (assemble o a r res).findings).Nodup := nodup_problems_merge _ _ _
    refine ⟨fun hreporting henabled f hf => ?_,
      fun hdiffer e => length_conflictsOver_le hnodup hr hx hdiffer s e⟩
    apply List.count_eq_one_of_mem hnodup
    rw [mem_problems_declared (fun _ => Snapshot.kind_of_collect ha) hres (by decide)]
    exact ⟨hreporting, henabled, Check.mem_problems_conflict hs hc hf⟩

def seasons : Condition :=
  { environment := some "Summer, , WINTER, winter, Autumn", notEnvironment := some "Winter,summer" }

def seasonFragments : List Fragment :=
  [{ name := "Season", lifetime := some .singleton, isConditional := true
     conditions := [seasons] }]

theorem conflicts_found_by_spelling_seasons :
    ∃ x s, verify 9 {} none seasonFragments = .ok x ∧ s ∈ x.services ∧ seasons ∈ s.conditions ∧
      seasons.conflicts = ["Summer", "WINTER"] ∧
      FindsFirst sameEnvironment seasons "Summer, , WINTER, winter, Autumn" "Winter,summer" ∧
      (problems x.findings).count
        (.conditionalConflicting, s.identity, .text "environment:WINTER") = 1 ∧
      (x.conflictsOver s seasons "winter").length ≤ 1 := by
  obtain ⟨-, -, hiff, hascii, hreport⟩ := conflicts_found_by_spelling seasons _ _ rfl rfl
  have hall : (environments "Summer, , WINTER, winter, Autumn").all
      (fun e => e.toList.all fun ch => decide (ch.toNat < 128)) = true := by
    decide +kernel
  have hdiffer : DifferInAscii "Summer, , WINTER, winter, Autumn" "Winter,summer" :=
    hascii (by simpa only [List.all_eq_true, decide_eq_true_eq] using hall)
  have hfound : seasons.conflicts = ["Summer", "WINTER"] := by decide +kernel
  have hservices : (verify 9 {} none seasonFragments).toOption.map
      (fun x => x.services.map Service.conditions) = some [[seasons]] := by
    decide +kernel
  obtain ⟨x, hx, hconditions⟩ := Option.map_eq_some_iff.mp hservices
  obtain ⟨s, hs, hs'⟩ := List.map_eq_singleton_iff.mp hconditions
  have hverify := verify_of_mem_toOption hx
  have hmem : s ∈ x.services := by simp [hs]
  have hc : seasons ∈ s.conditions := by simp [hs']
  obtain ⟨hcount, hone⟩ := hreport 9 {} none _ x hverify s hmem hc
  exact ⟨x, s, hverify, hmem, hc, hfound, hiff.mpr hdiffer,
    hcount rfl rfl "WINTER" (by simp [hfound]), hone hdiffer "winter"⟩

/-- Two spellings of one environment that differ in a letter beyond ASCII. -/
def festival : Condition :=
  { environment := some "\u00C9t\u00E9, \u00E9t\u00E9", notEnvironment := some "\u00E9t\u00E9" }

def festivalFragments : List Fragment :=
  [{ name := "Festival", lifetime := some .singleton, isConditional := true
     conditions := [festival] }]

theorem festival_reported_twice :
    sameEnvironment "\u00C9t\u00E9" "\u00E9t\u00E9" = true ∧
      festival.conflicts = ["\u00C9t\u00E9", "\u00E9t\u00E9"] ∧
      ¬ FindsFirst sameEnvironment festival "\u00C9t\u00E9, \u00E9t\u00E9" "\u00E9t\u00E9" ∧
      (verify 9 {} none festivalFragments).toOption.map
        (fun x => x.services.map fun s =>
          (s.conditions, (x.conflictsOver s festival "\u00E9t\u00E9").length)) =
        some [([festival], 2)] := by
  have hsame : sameEnvironment "\u00C9t\u00E9" "\u00E9t\u00E9" = true := by decide +kernel
  have hfound : festival.conflicts = ["\u00C9t\u00E9", "\u00E9t\u00E9"] := by decide +kernel
  refine ⟨hsame, hfound, fun h => ?_, by decide +kernel⟩
  obtain ⟨first, -, hfirst⟩ := h "\u00E9t\u00E9" (by decide +kernel) (by decide +kernel)
  have hcapital := (hfirst "\u00C9t\u00E9").mp ⟨by simp [hfound], hsame⟩
  have hsmall := (hfirst "\u00E9t\u00E9").mp ⟨by simp [hfound], beq_self_eq_true _⟩
  exact absurd (hcapital.trans hsmall.symm) (by decide)

end Report

end Injection
