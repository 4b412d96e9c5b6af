import Injection.Signature.Parser
import Mathlib.Data.List.TakeWhile

/-! The grammar of signatures. Each relation says what may stand at the front of a text, what it
means, and what follows it, so that a name can be required to be the longest run of its characters.

Blanks and name characters exclude each other, hence what a text begins with tells which part of the
grammar comes next. -/
namespace Injection

namespace Text

theorem exists_range_of_inRanges {ranges : List (Nat × Nat)} {n : Nat}
    (h : inRanges ranges n = true) : ∃ r ∈ ranges, r.1 ≤ n ∧ n ≤ r.2 := by
  induction ranges with
  | nil => simp [inRanges] at h
  | cons r ranges ih =>
    obtain ⟨lo, hi⟩ := r
    rw [inRanges] at h
    split at h
    · cases h
    next hlo =>
      rcases Bool.or_eq_true_iff.mp h with hhi | hrest
      · have hle : n ≤ hi := of_decide_eq_true hhi
        exact ⟨(lo, hi), List.mem_cons_self, Nat.le_of_not_lt hlo, hle⟩
      · obtain ⟨r, hr, hn⟩ := ih hrest
        exact ⟨r, List.mem_cons_of_mem _ hr, hn⟩

/-- There are few blank characters, so that all of them can be checked. -/
theorem forall_blank {P : Char → Prop}
    (hall : ∀ r ∈ blankRanges, ∀ k < r.2 + 1 - r.1, P (Char.ofNat (r.1 + k))) {c : Char}
    (h : isBlank c = true) : P c := by
  obtain ⟨r, hr, hlo, hhi⟩ := exists_range_of_inRanges h
  have hc := hall r hr (c.toNat - r.1) (by omega)
  rwa [Nat.add_sub_cancel' hlo, Char.ofNat_toNat] at hc

theorem isAlphanumeric_of_isBlank {c : Char} (h : isBlank c = true) : isAlphanumeric c = false :=
  forall_blank (P := fun c => isAlphanumeric c = false) (by decide +kernel) h

end Text

namespace Signature
open Injection.Text

/-! ## The rules -/

/-- Any run of blanks. -/
inductive Blanks : List Char → List Char → Prop
  | nil {cs : List Char} : Blanks cs cs
  | cons {c : Char} {cs rest : List Char} :
      isBlank c = true → Blanks cs rest → Blanks (c :: cs) rest

/-- The characters of a name: letters and digits, underscores, and what stands between the parts of
a qualified name. -/
def NameChar (c : Char) : Prop := isAlphanumeric c = true ∨ c = '_' ∨ c = '.' ∨ c = ':'

instance : DecidablePred NameChar :=
  fun c => inferInstanceAs (Decidable (isAlphanumeric c = true ∨ c = '_' ∨ c = '.' ∨ c = ':'))

def globalMark : List Char := ['g', 'l', 'o', 'b', 'a', 'l', ':', ':']

/-- A name as it may be written. What stands after all the `global::` in front of it is not empty
and neither starts nor ends in the middle of a qualification. -/
structure Spells (raw name : List Char) : Prop where
  chars : ∀ c ∈ raw, NameChar c
  marks : ∃ n, raw = (List.replicate n globalMark).flatten ++ name
  stripped : ¬ globalMark <+: name
  ne_nil : name ≠ []
  head : name.head? ≠ some '.'
  last : name.getLast? ≠ some '.' ∧ name.getLast? ≠ some ':'

/-- No name character follows. -/
def NameEnds (rest : List Char) : Prop := ∀ c ∈ rest.head?, ¬ NameChar c

/-- A longest run of name characters, and the name that it spells. -/
def Ident (cs : List Char) (name : String) (rest : List Char) : Prop :=
  ∃ raw, cs = raw ++ rest ∧ Spells raw name.toList ∧ NameEnds rest

/-- What a name means that has no arguments. -/
inductive Bare (params : List String) (name : String) : Signature → Prop
  | parameter : name ∈ params → Bare params name (param name)
  | type : name ∉ params → Bare params name (named name)

/-- Array and nullable marks. They stand after `s` and make another type of it. -/
inductive Marks : (s : Signature) → List Char → Signature → List Char → Prop
  | done {s : Signature} {cs : List Char} : Marks s cs s cs
  | nullable {s t : Signature} {cs r rest : List Char} :
      Blanks cs ('?' :: r) → Marks s r t rest → Marks s cs t rest
  | array {s t : Signature} {cs r r' rest : List Char} :
      Blanks cs ('[' :: r) → Blanks r (']' :: r') → Marks (app arrayHead [s]) r' t rest →
      Marks s cs t rest

mutual
/-- A type, where the names `params` denote type parameters. -/
inductive Types (params : List String) : List Char → Signature → List Char → Prop
  | plain {cs r₁ r₂ r₃ rest : List Char} {name : String} {s t : Signature} :
      Blanks cs r₁ → Ident r₁ name r₂ → Bare params name s → Blanks r₂ r₃ → Marks s r₃ t rest →
      Types params cs t rest
  | generic {cs r₁ r₂ r₃ r₄ rest : List Char} {name : String} {args : List Signature}
      {s : Signature} :
      Blanks cs r₁ → Ident r₁ name r₂ → Blanks r₂ ('<' :: r₃) → Args params r₃ args r₄ →
      Marks (app name args) r₄ s rest → Types params cs s rest

/-- One or more types with commas between them, and the bracket that closes them. -/
inductive Args (params : List String) : List Char → List Signature → List Char → Prop
  | last {cs r rest : List Char} {s : Signature} :
      Types params cs s r → Blanks r ('>' :: rest) → Args params cs [s] rest
  | more {cs r r' rest : List Char} {s : Signature} {ss : List Signature} :
      Types params cs s r → Blanks r (',' :: r') → Args params r' ss rest →
      Args params cs (s :: ss) rest
end

/-- The whole text is a type, with blanks after it. -/
def Written (params : List String) (cs : List Char) (s : Signature) : Prop :=
  ∃ rest, Types params cs s rest ∧ Blanks rest []

/-! ## Blanks -/

theorem isNameChar_of_isBlank {c : Char} (h : isBlank c = true) : isNameChar c = false := by
  have halnum := isAlphanumeric_of_isBlank h
  have hne : ∀ m : Char, isBlank m = false → (c == m) = false := by
    intro m hm
    refine beq_eq_false_iff_ne.mpr ?_
    rintro rfl
    rw [hm] at h
    cases h
  simp [isNameChar, halnum, hne '_' (by decide), hne '.' (by decide), hne ':' (by decide)]

theorem blanks_skipBlanks (cs : List Char) : Blanks cs (skipBlanks cs) := by
  induction cs with
  | nil => exact .nil
  | cons c cs ih =>
    rw [skipBlanks, List.dropWhile_cons]
    split
    next hc => exact .cons hc ih
    next => exact .nil

theorem Blanks.skipBlanks_eq {cs rest : List Char} (h : Blanks cs rest) :
    skipBlanks cs = skipBlanks rest := by
  induction h with
  | nil => rfl
  | cons hc _ ih => rw [skipBlanks, List.dropWhile_cons_of_pos hc, ← skipBlanks, ih]

/-- Skipping blanks stops where the grammar does, in front of a character that is no blank. -/
theorem Blanks.skipBlanks_eq_cons {c : Char} {cs rest : List Char} (h : Blanks cs (c :: rest))
    (hc : isBlank c = false) : skipBlanks cs = c :: rest := by
  rw [h.skipBlanks_eq, skipBlanks, List.dropWhile_cons_of_neg (by simp [hc])]

/-! ## Names -/

theorem isNameChar_iff {c : Char} : isNameChar c = true ↔ NameChar c := by
  simp [isNameChar, NameChar, or_assoc]

theorem isNameChar_eq_false_iff {c : Char} : isNameChar c = false ↔ ¬ NameChar c := by
  rw [← isNameChar_iff, Bool.not_eq_true]

theorem bare_iff {params : List String} {name : String} {s : Signature} :
    Bare params name s ↔ s = ofName params name := by
  unfold ofName
  constructor
  · intro h
    cases h with
    | parameter hmem => rw [if_pos hmem]
    | type hmem => rw [if_neg hmem]
  · rintro rfl
    split
    next hmem => exact .parameter hmem
    next hmem => exact .type hmem

theorem stripGlobal_marks (n : Nat) (cs : List Char) :
    stripGlobal ((List.replicate n globalMark).flatten ++ cs) = stripGlobal cs := by
  induction n with
  | zero => rfl
  | succ n ih =>
    rw [List.replicate_succ, List.flatten_cons, List.append_assoc]
    simp only [globalMark, List.cons_append, List.nil_append, stripGlobal]
    exact ih

theorem stripGlobal_eq_self {cs : List Char} (h : ¬ globalMark <+: cs) : stripGlobal cs = cs := by
  rw [stripGlobal]
  rintro r rfl
  exact h ⟨r, rfl⟩

theorem exists_marks (cs : List Char) :
    (∃ n, cs = (List.replicate n globalMark).flatten ++ stripGlobal cs) ∧
      ¬ globalMark <+: stripGlobal cs := by
  fun_induction stripGlobal cs with
  | case1 cs ih =>
    obtain ⟨⟨n, hn⟩, hstripped⟩ := ih
    refine ⟨⟨n + 1, ?_⟩, hstripped⟩
    rw [List.replicate_succ, List.flatten_cons, List.append_assoc, ← hn]
    rfl
  | case2 cs hne =>
    refine ⟨⟨0, rfl⟩, ?_⟩
    rintro ⟨r, rfl⟩
    exact hne r rfl

theorem isCompleteName_iff {name : List Char} :
    isCompleteName name = true ↔ name ≠ [] ∧ name.head? ≠ some '.' ∧
      name.getLast? ≠ some '.' ∧ name.getLast? ≠ some ':' := by
  cases name with
  | nil => simp [isCompleteName]
  | cons c cs => simp [isCompleteName, and_assoc]

theorem spells_iff {raw name : List Char} :
    Spells raw name ↔ (∀ c ∈ raw, isNameChar c = true) ∧ stripGlobal raw = name ∧
      isCompleteName name = true := by
  constructor
  · rintro ⟨hchars, ⟨n, rfl⟩, hstripped, hne, hhead, hlast⟩
    refine ⟨fun c hc => isNameChar_iff.mpr (hchars c hc), ?_,
      isCompleteName_iff.mpr ⟨hne, hhead, hlast⟩⟩
    rw [stripGlobal_marks, stripGlobal_eq_self hstripped]
  · rintro ⟨hchars, rfl, hcomplete⟩
    obtain ⟨hmarks, hstripped⟩ := exists_marks raw
    obtain ⟨hne, hhead, hlast⟩ := isCompleteName_iff.mp hcomplete
    exact ⟨fun c hc => isNameChar_iff.mp (hchars c hc), hmarks, hstripped, hne, hhead, hlast⟩

theorem Spells.exists_cons {raw name : List Char} (h : Spells raw name) :
    ∃ c cs, raw = c :: cs ∧ isNameChar c = true := by
  cases raw with
  | cons c cs => exact ⟨c, cs, rfl, isNameChar_iff.mpr (h.chars c List.mem_cons_self)⟩
  | nil =>
    obtain ⟨n, hn⟩ := h.marks
    exact absurd (List.append_eq_nil_iff.mp hn.symm).2 h.ne_nil

/-- A longest run of name characters is what is taken while there are such characters. -/
theorem ident_iff {cs rest : List Char} {name : String} :
    Ident cs name rest ↔ Spells (cs.takeWhile isNameChar) name.toList ∧
      cs.dropWhile isNameChar = rest := by
  constructor
  · rintro ⟨raw, rfl, hspells, hends⟩
    have hrest : rest.takeWhile isNameChar = [] ∧ rest.dropWhile isNameChar = rest := by
      cases rest with
      | nil => simp
      | cons c rest => simp [isNameChar_eq_false_iff.mpr (hends c rfl)]
    have hraw := (spells_iff.mp hspells).1
    rw [List.takeWhile_append_of_pos hraw, List.dropWhile_append_of_pos hraw, hrest.1, hrest.2,
      List.append_nil]
    exact ⟨hspells, rfl⟩
  · rintro ⟨hspells, rfl⟩
    refine ⟨_, List.takeWhile_append_dropWhile.symm, hspells, fun c hc => ?_⟩
    have hnot := List.head?_dropWhile_not isNameChar cs
    rw [Option.mem_def.mp hc] at hnot
    exact isNameChar_eq_false_iff.mp (by simpa using hnot)

/-- A name is found behind one run of blanks only. -/
theorem Blanks.skipBlanks_eq_of_ident {cs r rest : List Char} {name : String} (h : Blanks cs r)
    (hident : Ident r name rest) : skipBlanks cs = r := by
  obtain ⟨raw, rfl, hspells, -⟩ := hident
  obtain ⟨c, raw', rfl, hc⟩ := hspells.exists_cons
  refine h.skipBlanks_eq_cons (Bool.eq_false_iff.mpr fun hblank => ?_)
  rw [isNameChar_of_isBlank hblank] at hc
  cases hc

end Signature

end Injection
