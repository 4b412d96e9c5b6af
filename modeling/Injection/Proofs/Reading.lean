import Injection.Proofs.Grammar
import Mathlib.Tactic.Tauto

/-! The reader of signatures accepts what the grammar derives and nothing else, and gives it the
meaning that the grammar gives it.

For each reading function one lemma says what it comes to, so that the proofs below do not open the
functions. Reading is deterministic where the grammar is not: it takes all marks and all blanks that
it can get. The two agree because of what can stand after a complete type. -/
namespace Injection.Signature
open Injection.Text

variable {α : Type} {params : List String} {cs r rest : List Char} {name : String}
  {s t : Signature} {ss : List Signature}

/-- The reader takes the value from the front of the text and leaves the rest. -/
def Takes (x : Except Flaw (Parsed α cs)) (value : α) (rest : List Char) : Prop :=
  ∃ h, x = .ok ⟨value, rest, h⟩

@[simp] theorem takes_ok {p : Parsed α cs} {value : α} :
    Takes (.ok p) value rest ↔ p.value = value ∧ p.rest = rest := by
  obtain ⟨v, r, hr⟩ := p
  constructor
  · rintro ⟨h, heq⟩
    cases heq
    exact ⟨rfl, rfl⟩
  · rintro ⟨rfl, rfl⟩
    exact ⟨hr, rfl⟩

@[simp] theorem not_takes_error {flaw : Flaw} {value : α} :
    ¬ Takes (.error flaw : Except Flaw (Parsed α cs)) value rest := by
  rintro ⟨h, heq⟩
  cases heq

/-! ## Names -/

theorem takes_readName_run :
    Takes (readName cs) name rest ↔
      stripGlobal ((skipBlanks cs).takeWhile isNameChar) = name.toList ∧
        isCompleteName name.toList = true ∧ (skipBlanks cs).dropWhile isNameChar = rest := by
  unfold readName
  split
  next hnil =>
    rw [hnil]
    simp +contextual [stripGlobal, isCompleteName]
  next c r hcons =>
    split
    next hc =>
      dsimp only
      split
      next hcomplete =>
        refine takes_ok.trans ?_
        dsimp only
        rw [hcons, List.takeWhile_cons_of_pos hc, List.dropWhile_cons_of_pos hc]
        constructor
        · rintro ⟨rfl, rfl⟩
          simp [hcomplete]
        · rintro ⟨hname, -, rfl⟩
          simp [hname]
      next hcomplete =>
        rw [hcons, List.takeWhile_cons_of_pos hc]
        simp only [not_takes_error, false_iff]
        rintro ⟨hname, hcomplete', -⟩
        exact hcomplete (hname ▸ hcomplete')
    next hc =>
      rw [hcons, List.takeWhile_cons_of_neg hc]
      simp +contextual [stripGlobal, isCompleteName]

theorem takes_readName :
    Takes (readName cs) name rest ↔ ∃ r, Blanks cs r ∧ Ident r name rest := by
  have hident : Takes (readName cs) name rest ↔ Ident (skipBlanks cs) name rest := by
    have hchars : ∀ c ∈ (skipBlanks cs).takeWhile isNameChar, isNameChar c = true :=
      fun c hc => List.mem_takeWhile_imp hc
    rw [takes_readName_run, ident_iff, spells_iff]
    tauto
  rw [hident]
  constructor
  · exact fun h => ⟨_, blanks_skipBlanks cs, h⟩
  · rintro ⟨r, hblanks, h⟩
    rwa [hblanks.skipBlanks_eq_of_ident h]

/-! ## Marks -/

theorem readMarks_blanks (h : Blanks cs rest) : readMarks s cs = readMarks s rest := by
  induction h with
  | nil => rfl
  | cons hc _ ih => rw [readMarks, if_pos (by simp [hc]), ih]

theorem readArrayEnd_blanks (h : Blanks cs rest) : readArrayEnd s cs = readArrayEnd s rest := by
  induction h with
  | nil => rfl
  | cons hc _ ih => rw [readArrayEnd, if_pos hc, ih]

theorem Marks.blank {c : Char} (hc : isBlank c = true) (h : Marks s cs t r) (hr : Blanks r rest) :
    ∃ r', Marks s (c :: cs) t r' ∧ Blanks r' rest := by
  cases h with
  | done => exact ⟨_, .done, .cons hc hr⟩
  | nullable hb hm => exact ⟨_, .nullable (.cons hc hb) hm, hr⟩
  | array hb hb' hm => exact ⟨_, .array (.cons hc hb) hb' hm, hr⟩

mutual
theorem marks_of_readMarks {s t : Signature} {cs rest : List Char}
    (h : readMarks s cs = .ok (t, rest)) : ∃ r, Marks s cs t r ∧ Blanks r rest := by
  cases cs with
  | nil =>
    rw [readMarks] at h
    cases h
    exact ⟨[], .done, .nil⟩
  | cons c cs =>
    rw [readMarks] at h
    split at h
    next hc =>
      obtain ⟨r, hm, hr⟩ := marks_of_readMarks h
      rcases Bool.or_eq_true_iff.mp hc with hblank | hnullable
      · exact hm.blank hblank hr
      · rw [of_decide_eq_true hnullable]
        exact ⟨r, .nullable .nil hm, hr⟩
    next =>
      split at h
      next hc =>
        obtain ⟨r, r', hb, hm, hr'⟩ := marks_of_readArrayEnd h
        rw [hc]
        exact ⟨r', .array .nil hb hm, hr'⟩
      next =>
        cases h
        exact ⟨_, .done, .nil⟩

theorem marks_of_readArrayEnd {s t : Signature} {cs rest : List Char}
    (h : readArrayEnd s cs = .ok (t, rest)) :
    ∃ r r', Blanks cs (']' :: r) ∧ Marks (app arrayHead [s]) r t r' ∧ Blanks r' rest := by
  cases cs with
  | nil => simp [readArrayEnd] at h
  | cons c cs =>
    rw [readArrayEnd] at h
    split at h
    next hc =>
      obtain ⟨r, r', hb, hm, hr'⟩ := marks_of_readArrayEnd h
      exact ⟨r, r', .cons hc hb, hm, hr'⟩
    next =>
      split at h
      next hc =>
        obtain ⟨r', hm, hr'⟩ := marks_of_readMarks h
        rw [hc]
        exact ⟨cs, r', .nil, hm, hr'⟩
      next => cases h
end

/-- Nothing follows that could still be read as a part of the type. -/
def TypeEnds (rest : List Char) : Prop :=
  ∀ c ∈ rest.head?, isBlank c = false ∧ c ≠ '<' ∧ c ≠ '?' ∧ c ≠ '['

theorem typeEnds_nil : TypeEnds [] := by simp [TypeEnds]

theorem typeEnds_comma (cs : List Char) : TypeEnds (',' :: cs) := by
  rintro _ ⟨rfl⟩
  decide

theorem typeEnds_close (cs : List Char) : TypeEnds ('>' :: cs) := by
  rintro _ ⟨rfl⟩
  decide

theorem Marks.readMarks_eq (h : Marks s cs t r) (hr : Blanks r rest) (hends : TypeEnds rest) :
    readMarks s cs = .ok (t, rest) := by
  induction h with
  | done =>
    rw [readMarks_blanks hr]
    cases rest with
    | nil => rfl
    | cons c rest =>
      obtain ⟨hblank, -, hnullable, harray⟩ := hends c rfl
      simp [readMarks, hblank, hnullable, harray]
  | nullable hb _ ih => rw [readMarks_blanks hb, readMarks, if_pos (by simp), ih hr]
  | array hb hb' _ ih =>
    rw [readMarks_blanks hb, readMarks, if_neg (by decide), if_pos rfl, readArrayEnd_blanks hb',
      readArrayEnd, if_neg (by decide), if_pos rfl, ih hr]

/-! ## Types -/

theorem takes_readMarksIn {hr : r.length < cs.length} :
    Takes (readMarksIn cs s r hr) t rest ↔ readMarks s r = .ok (t, rest) := by
  unfold readMarksIn
  split
  next flaw hm => simp [hm]
  next u r' hm =>
    refine takes_ok.trans ?_
    dsimp only
    simp [hm]

theorem takes_readType :
    Takes (readType params cs) t rest ↔ ∃ name r, Takes (readName cs) name r ∧
      ((∃ r₁ args r₂, skipBlanks r = '<' :: r₁ ∧ Takes (readArgs params r₁) args r₂ ∧
          readMarks (app name args) r₂ = .ok (t, rest)) ∨
        (∀ r₁, skipBlanks r ≠ '<' :: r₁) ∧ readMarks (ofName params name) r = .ok (t, rest)) := by
  rw [readType]
  cases hname : readName cs with
  | error flaw => simp
  | ok p =>
    obtain ⟨name, r, hr⟩ := p
    simp only [takes_ok]
    split
    next r' hb =>
      constructor
      · intro h
        cases hargs : readArgs params r' with
        | error flaw => simp [hargs] at h
        | ok q =>
          rw [hargs] at h
          exact ⟨name, r, ⟨rfl, rfl⟩, .inl ⟨r', q.value, q.rest, hb, by simp [hargs],
            takes_readMarksIn.mp h⟩⟩
      · rintro ⟨_, _, ⟨rfl, rfl⟩, ⟨r₁, args, r₂, hb', ⟨hlt, hargs⟩, hm⟩ | ⟨hne, -⟩⟩
        · obtain rfl : r' = r₁ := by simpa using hb.symm.trans hb'
          rw [hargs]
          exact takes_readMarksIn.mpr hm
        · exact absurd hb (hne r')
    next hb =>
      rw [takes_readMarksIn]
      constructor
      · exact fun hm => ⟨name, r, ⟨rfl, rfl⟩, .inr ⟨hb, hm⟩⟩
      · rintro ⟨_, _, ⟨rfl, rfl⟩, ⟨r₁, args, r₂, hb', -⟩ | ⟨-, hm⟩⟩
        · exact absurd hb' (hb r₁)
        · exact hm

theorem takes_readArgs :
    Takes (readArgs params cs) ss rest ↔ ∃ s r, Takes (readType params cs) s r ∧
      (r = '>' :: rest ∧ ss = [s] ∨
        ∃ r₁ ss₁, r = ',' :: r₁ ∧ Takes (readArgs params r₁) ss₁ rest ∧ ss = s :: ss₁) := by
  rw [readArgs]
  cases htype : readType params cs with
  | error flaw => simp
  | ok p =>
    obtain ⟨s, r, hr⟩ := p
    simp only [takes_ok]
    constructor
    · intro h
      refine ⟨s, r, ⟨rfl, rfl⟩, ?_⟩
      split at h
      next => simp at h
      next => simp at h
      next s' c r' hr' heq =>
        cases heq
        split at h
        next hcomma =>
          refine .inr ⟨r', ?_⟩
          cases hargs : readArgs params r' with
          | error flaw => simp [hargs] at h
          | ok q =>
            simp only [hargs, takes_ok] at h
            exact ⟨q.value, by rw [hcomma], by simp [h.2], h.1.symm⟩
        next =>
          split at h
          next hclose =>
            obtain ⟨rfl, rfl⟩ := takes_ok.mp h
            exact .inl ⟨by rw [hclose], rfl⟩
          next => simp at h
    · rintro ⟨_, _, ⟨rfl, rfl⟩, ⟨rfl, rfl⟩ | ⟨r₁, ss₁, rfl, ⟨hlt, hargs⟩, rfl⟩⟩
      · simp
      · simp [hargs]

/-! ## Nothing else is accepted -/

mutual
theorem types_of_takes {params : List String} {cs rest : List Char} {s : Signature}
    (h : Takes (readType params cs) s rest) : ∃ r, Types params cs s r ∧ Blanks r rest := by
  obtain ⟨name, r, hname, hcases⟩ := takes_readType.mp h
  obtain ⟨r₀, hb₀, hident⟩ := takes_readName.mp hname
  rcases hcases with ⟨r₁, args, r₂, hb, hargs, hm⟩ | ⟨-, hm⟩
  · have hshorter : r₁.length < cs.length := by
      obtain ⟨hlt, -⟩ := hname
      have hle := length_dropWhile_le isBlank r
      rw [← skipBlanks, hb, List.length_cons] at hle
      omega
    obtain ⟨r₃, hm, hr₃⟩ := marks_of_readMarks hm
    exact ⟨r₃, .generic hb₀ hident (hb ▸ blanks_skipBlanks r) (args_of_takes hargs) hm, hr₃⟩
  · obtain ⟨r₃, hm, hr₃⟩ := marks_of_readMarks hm
    exact ⟨r₃, .plain hb₀ hident (bare_iff.mpr rfl) .nil hm, hr₃⟩
termination_by 2 * cs.length

theorem args_of_takes {params : List String} {cs rest : List Char} {ss : List Signature}
    (h : Takes (readArgs params cs) ss rest) : Args params cs ss rest := by
  obtain ⟨s, r, hs, hcases⟩ := takes_readArgs.mp h
  obtain ⟨r₀, htypes, hb⟩ := types_of_takes hs
  rcases hcases with ⟨rfl, rfl⟩ | ⟨r₁, ss₁, rfl, hss, rfl⟩
  · exact .last htypes hb
  · have hshorter : r₁.length < cs.length := by
      obtain ⟨hlt, -⟩ := hs
      rw [List.length_cons] at hlt
      omega
    exact .more htypes hb (args_of_takes hss)
termination_by 2 * cs.length + 1
end

/-! ## All of it is accepted -/

theorem takes_of_plain {r₁ r₂ r₃ : List Char} (hb : Blanks cs r₁) (hident : Ident r₁ name r₂)
    (hbare : Bare params name s) (hb' : Blanks r₂ r₃) (hm : Marks s r₃ t r) (hr : Blanks r rest)
    (hends : TypeEnds rest) : Takes (readType params cs) t rest := by
  have hmarks : readMarks (ofName params name) r₂ = .ok (t, rest) := by
    rw [← bare_iff.mp hbare, readMarks_blanks hb', hm.readMarks_eq hr hends]
  refine takes_readType.mpr ⟨name, r₂, takes_readName.mpr ⟨r₁, hb, hident⟩, .inr ⟨?_, hmarks⟩⟩
  -- An opening bracket would be left over by the marks, but none can follow the type.
  intro r₄ hopen
  have hstop : readMarks (ofName params name) r₂ = .ok (ofName params name, '<' :: r₄) := by
    rw [readMarks_blanks (blanks_skipBlanks r₂), hopen, readMarks, if_neg (by decide),
      if_neg (by decide)]
  rw [hmarks] at hstop
  cases hstop
  exact (hends '<' rfl).2.1 rfl

mutual
theorem Types.takes {params : List String} {cs r rest : List Char} {s : Signature} :
    Types params cs s r → Blanks r rest → TypeEnds rest → Takes (readType params cs) s rest
  | .plain hb hident hbare hb' hm, hr, hends => takes_of_plain hb hident hbare hb' hm hr hends
  | .generic hb hident hb' hargs hm, hr, hends => by
    have hopen := hb'.skipBlanks_eq_cons (by decide)
    exact takes_readType.mpr ⟨_, _, takes_readName.mpr ⟨_, hb, hident⟩,
      .inl ⟨_, _, _, hopen, hargs.takes, hm.readMarks_eq hr hends⟩⟩

theorem Args.takes {params : List String} {cs rest : List Char} {ss : List Signature} :
    Args params cs ss rest → Takes (readArgs params cs) ss rest
  | .last htype hb =>
    takes_readArgs.mpr ⟨_, _, htype.takes hb (typeEnds_close _), .inl ⟨rfl, rfl⟩⟩
  | .more htype hb hargs =>
    takes_readArgs.mpr ⟨_, _, htype.takes hb (typeEnds_comma _),
      .inr ⟨_, _, rfl, hargs.takes, rfl⟩⟩
end

/-! ## Whole texts -/

theorem parse_eq_ok {text : String} :
    parse params text = .ok s ↔ Takes (readType params text.toList) s [] := by
  cases hread : readType params text.toList with
  | error flaw => simp [parse, hread]
  | ok p =>
    obtain ⟨s', r, hr⟩ := p
    cases r with
    | nil => simp [parse, hread]
    | cons c r => simp [parse, hread]

theorem parse_of_written {text : String} (h : Written params text.toList s) :
    parse params text = .ok s := by
  obtain ⟨r, htypes, hr⟩ := h
  exact parse_eq_ok.mpr (htypes.takes hr typeEnds_nil)

theorem written_of_parse {text : String} (h : parse params text = .ok s) :
    Written params text.toList s := by
  obtain ⟨r, htypes, hr⟩ := types_of_takes (parse_eq_ok.mp h)
  exact ⟨r, htypes, hr⟩

/-- A text can be read exactly if the grammar derives it, and then it means what the grammar
says. -/
theorem parse_eq_ok_iff_written (params : List String) (text : String) (s : Signature) :
    parse params text = .ok s ↔ Written params text.toList s :=
  ⟨written_of_parse, parse_of_written⟩

/-- In front of `global::` and of a nullable mark, between all parts and at the end stand blanks;
`T` is a parameter as a bare name only. -/
theorem written_map_of_lists :
    Written ["T"] " global::Data.Map < T , T<List_1 ? [ ]> > ".toList
      (.app "Data.Map" [.param "T", .app "T" [.app arrayHead [.named "List_1"]]]) := by
  refine (parse_eq_ok_iff_written ["T"] " global::Data.Map < T , T<List_1 ? [ ]> > " _).mp ?_
  decide +kernel

end Injection.Signature
