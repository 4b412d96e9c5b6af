import Injection.Options.Setting
import Injection.Proofs.Grammar
import Injection.Proofs.Sorted

/-! Severities of single kinds, set through properties. The key loses its separators before the kind
in it is read, so a kind is found by its code, by its title, and by its name only as far as the name
without hyphens is the title. -/
namespace Injection

namespace Text

/-! ## Blanks at both ends -/

theorem dropWhile_eq_trimChars_append (cs : List Char) :
    cs.dropWhile isBlank =
      trimChars cs ++ ((cs.dropWhile isBlank).reverse.takeWhile isBlank).reverse := by
  rw [trimChars, ← List.reverse_append, List.takeWhile_append_dropWhile, List.reverse_reverse]

/-- Trimming takes away blanks and nothing else. -/
theorem exists_blanks_around (cs : List Char) :
    ∃ before after, cs = before ++ trimChars cs ++ after ∧
      (∀ c ∈ before, isBlank c = true) ∧ ∀ c ∈ after, isBlank c = true := by
  have hfront := List.takeWhile_append_dropWhile (p := isBlank) (l := cs)
  refine ⟨cs.takeWhile isBlank, ((cs.dropWhile isBlank).reverse.takeWhile isBlank).reverse, ?_,
    fun c hc => List.mem_takeWhile_imp hc, fun c hc => ?_⟩
  · rw [List.append_assoc, ← dropWhile_eq_trimChars_append, hfront]
  · exact List.mem_takeWhile_imp (List.mem_reverse.mp hc)

theorem dropWhile_isBlank_append {before cs : List Char} (hb : ∀ c ∈ before, isBlank c = true)
    (hcs : ∀ c ∈ cs.head?, isBlank c = false) : (before ++ cs).dropWhile isBlank = cs := by
  rw [List.dropWhile_append_of_pos hb]
  cases cs with
  | nil => rfl
  | cons c cs =>
    have hc : isBlank c = false := hcs c rfl
    simp [hc]

theorem trimChars_blanks_around {before cs after : List Char}
    (hb : ∀ c ∈ before, isBlank c = true) (ha : ∀ c ∈ after, isBlank c = true)
    (hcs : ∀ c ∈ cs, isBlank c = false) : trimChars (before ++ cs ++ after) = cs := by
  cases cs with
  | nil =>
    have hall : ∀ c ∈ before ++ [] ++ after, isBlank c = true := by
      intro c hc
      rcases List.mem_append.mp (by simpa using hc) with hc | hc
      · exact hb c hc
      · exact ha c hc
    rw [trimChars, List.dropWhile_eq_nil_iff.mpr hall]
    rfl
  | cons c cs =>
    have hfirst : ∀ x ∈ (c :: cs ++ after).head?, isBlank x = false := by
      rintro x ⟨⟩
      exact hcs c (by simp)
    have hlast : ∀ x ∈ (c :: cs).reverse.head?, isBlank x = false := by
      intro x hx
      exact hcs x (List.mem_reverse.mp (List.mem_of_mem_head? hx))
    have ha' : ∀ x ∈ after.reverse, isBlank x = true := by
      intro x hx
      exact ha x (List.mem_reverse.mp hx)
    rw [trimChars, List.append_assoc, dropWhile_isBlank_append hb hfirst, List.reverse_append,
      dropWhile_isBlank_append ha' hlast, List.reverse_reverse]

/-! ## Lower case -/

/-- Blanks have no case. -/
theorem lowerChar_of_isBlank {c : Char} (h : isBlank c = true) : lowerChar c = [c] :=
  forall_blank (P := fun c => lowerChar c = [c]) (by decide +kernel) h

theorem forall_ascii {P : Char → Prop} (hall : ∀ n ∈ List.range 128, P (Char.ofNat n)) {c : Char}
    (h : c.toNat < 128) : P c := by
  have hc := hall c.toNat (List.mem_range.mpr h)
  rwa [Char.ofNat_toNat] at hc

/-- Among the ASCII characters, full case conversion is that of the ASCII letters. -/
theorem lowerChar_of_ascii {c : Char} (h : c.toNat < 128) : lowerChar c = [c.toLower] :=
  forall_ascii (P := fun c => lowerChar c = [c.toLower]) (by decide +kernel) h

theorem toLower_of_not_ascii {c : Char} (h : ¬ c.toNat < 128) : c.toLower = c := by
  unfold Char.toLower
  split
  next hupper =>
    have hle : c.toNat ≤ 'Z'.toNat := UInt32.le_iff_toNat_le.mp hupper.2
    exact absurd (Nat.lt_of_le_of_lt hle (by decide)) h
  · rfl

theorem toNat_lt_of_toLower {c : Char} (h : c.toLower.toNat < 128) : c.toNat < 128 := by
  by_contra hc
  rw [toLower_of_not_ascii hc] at h
  exact hc h

/-- What of a text matters where the case of ASCII letters does not. -/
def folded (text : String) : List Char := text.toList.map Char.toLower

theorem eqIgnoringAsciiCase_iff {a b : String} :
    eqIgnoringAsciiCase a b = true ↔ folded a = folded b := by
  simp [eqIgnoringAsciiCase, asciiLower, folded, String.ofList_inj]

end Text

/-! ## Keys -/

namespace Kind
open Text

theorem mem_all (k : Kind) : k ∈ all := by cases k <;> decide

instance : Std.LawfulEqOrd Kind where
  compare_self {k} := by cases k <;> decide
  eq_of_compare {j k} h := by
    have hall : ∀ j ∈ all, ∀ k ∈ all, compare j k = .eq → j = k := by decide +kernel
    exact hall j j.mem_all k k.mem_all h

/-- The three ways to write a kind. -/
def spellings (k : Kind) : List String := [k.code, k.name, k.title]

/-- The kinds whose name has a word that the title lacks. -/
def wordier : List Kind := [.duplicateDependency, .duplicateWithinList, .unnecessaryExclusion]

/-- The text is the name of a kind that has a shorter title. -/
def NamesAtLength (k : Kind) (text : String) : Prop :=
  k ∈ wordier ∧ eqIgnoringAsciiCase k.name (trim text) = true

/-- The first kind with the given spelling, up to ASCII case. -/
def spelled? (cs : List Char) : Option Kind :=
  all.find? fun k => k.spellings.any fun word => folded word == cs.map Char.toLower

theorem toOption_parse (text : String) :
    (parse text).toOption = spelled? (trimChars text.toList) := by
  have hcalled : ∀ k : Kind, k.isCalled (trim text) = k.spellings.any fun word =>
      folded word == (trimChars text.toList).map Char.toLower := by
    intro k
    rw [Bool.eq_iff_iff]
    simp [isCalled, spellings, eqIgnoringAsciiCase_iff, folded, trim]
  simp only [parse, hcalled, spelled?]
  cases all.find? fun k => k.spellings.any fun word =>
    folded word == (trimChars text.toList).map Char.toLower <;> rfl

theorem exists_spelling {text : String} {k : Kind} (h : parse text = .ok k) :
    ∃ word ∈ k.spellings, eqIgnoringAsciiCase word (trim text) = true := by
  unfold parse at h
  split at h
  next k' hfind =>
    cases h
    simpa [isCalled, spellings] using List.find?_some hfind
  · cases h

/-- What is left of a word in a normalized key. -/
def letters (word : String) : List Char := (folded word).filter fun c => !Setting.isSeparator c

/-- Kinds are spelled with visible ASCII characters. Of the letters that are left of a spelling, the
kind can be told again, except from those of a name with more words than the title. -/
theorem spelled?_letters (k : Kind) :
    (∀ word ∈ k.spellings, ∀ c ∈ folded word, c.toNat < 128 ∧ isBlank c = false) ∧
      spelled? (letters k.code) = some k ∧ spelled? (letters k.title) = some k ∧
      spelled? (letters k.name) = if k ∈ wordier then none else some k := by
  -- One evaluation for all kinds, since every check compares with the spellings of all of them.
  have hall : ∀ k ∈ all,
      (k.spellings.all fun word =>
        (folded word).all fun c => decide (c.toNat < 128) && !isBlank c) = true ∧
        spelled? (letters k.code) = some k ∧ spelled? (letters k.title) = some k ∧
        spelled? (letters k.name) = if k ∈ wordier then none else some k := by
    decide +kernel
  obtain ⟨hvisible, hread⟩ := hall k k.mem_all
  simp only [List.all_eq_true, Bool.and_eq_true, decide_eq_true_eq, Bool.not_eq_true'] at hvisible
  exact ⟨hvisible, hread⟩

end Kind

namespace Setting
open Text

theorem toList_normalizeKey (key : String) :
    (normalizeKey key).toList = (key.toList.filter fun c => !isSeparator c).flatMap lowerChar := by
  simp [normalizeKey]

theorem normalizeKey_append (a b : String) :
    normalizeKey (a ++ b) = normalizeKey a ++ normalizeKey b := by
  simp [normalizeKey]

theorem normalize_blanks {cs : List Char} (h : ∀ c ∈ cs, isBlank c = true) :
    (cs.filter fun c => !isSeparator c).flatMap lowerChar = cs := by
  have hseparators : isBlank '_' = false ∧ isBlank '-' = false ∧ isBlank '.' = false := by decide
  induction cs with
  | nil => rfl
  | cons c cs ih =>
    have hc : isBlank c = true := h c (by simp)
    have hkeep : isSeparator c = false := by
      simp only [isSeparator, Bool.or_eq_false_iff, beq_eq_false_iff_ne]
      refine ⟨⟨?_, ?_⟩, ?_⟩ <;> rintro rfl <;> simp [hseparators] at hc
    rw [List.filter_cons_of_pos (by simp [hkeep]), List.flatMap_cons, lowerChar_of_isBlank hc,
      ih fun x hx => h x (by simp [hx])]
    rfl

theorem isSeparator_toLower {c : Char} (h : c.toNat < 128) :
    isSeparator c.toLower = isSeparator c :=
  forall_ascii (P := fun c => isSeparator c.toLower = isSeparator c) (by decide +kernel) h

theorem normalize_ascii {cs : List Char} (h : ∀ c ∈ cs, c.toNat < 128) :
    (cs.filter fun c => !isSeparator c).flatMap lowerChar =
      (cs.map Char.toLower).filter fun c => !isSeparator c := by
  induction cs with
  | nil => rfl
  | cons c cs ih =>
    have hc : c.toNat < 128 := h c (by simp)
    have hrest := ih fun x hx => h x (by simp [hx])
    by_cases hsep : isSeparator c = true
    · rw [List.filter_cons_of_neg (by simp [hsep]), hrest, List.map_cons,
        List.filter_cons_of_neg (by simp [isSeparator_toLower hc, hsep])]
    · rw [List.filter_cons_of_pos (by simp [hsep]), List.flatMap_cons, hrest, List.map_cons,
        List.filter_cons_of_pos (by simp [isSeparator_toLower hc, hsep]), lowerChar_of_ascii hc]
      rfl

theorem folded_eq_of_trim {word text : String} (h : eqIgnoringAsciiCase word (trim text) = true) :
    folded word = (trimChars text.toList).map Char.toLower := by
  rw [eqIgnoringAsciiCase_iff.mp h, folded, trim, String.toList_ofList]

/-- Between the blanks around it a spelling has ASCII characters alone. -/
theorem ascii_of_spelling {k : Kind} {word text : String} (hword : word ∈ k.spellings)
    (h : eqIgnoringAsciiCase word (trim text) = true) :
    ∀ c ∈ trimChars text.toList, c.toNat < 128 := by
  have hsame := folded_eq_of_trim h
  intro c hc
  have hlower : c.toLower ∈ folded word := hsame ▸ List.mem_map_of_mem hc
  exact toNat_lt_of_toLower (k.spelled?_letters.1 word hword _ hlower).1

/-- A kind is read from a key as from the letters of the word that stands for it. -/
theorem parse_normalizeKey {k : Kind} {word text : String} (hword : word ∈ k.spellings)
    (h : eqIgnoringAsciiCase word (trim text) = true) :
    (Kind.parse (normalizeKey text)).toOption = Kind.spelled? (Kind.letters word) := by
  have hsame := folded_eq_of_trim h
  have hascii := ascii_of_spelling hword h
  have hletters : ∀ c ∈ Kind.letters word, isBlank c = false := by
    intro c hc
    exact (k.spelled?_letters.1 word hword c (List.mem_filter.mp hc).1).2
  obtain ⟨before, after, htext, hb, ha⟩ := exists_blanks_around text.toList
  have hkey : (normalizeKey text).toList = before ++ Kind.letters word ++ after := by
    rw [toList_normalizeKey, htext, List.filter_append, List.filter_append, List.flatMap_append,
      List.flatMap_append, normalize_blanks hb, normalize_blanks ha, normalize_ascii hascii,
      ← hsame, Kind.letters]
  rw [Kind.toOption_parse, hkey, trimChars_blanks_around hb ha hletters]

/-- No other setting has a key that begins like this. -/
theorem ofKey?_severity {key text : String} (h : normalizeKey key = "severity" ++ text) :
    ofKey? key = (Kind.parse text).toOption.map severity := by
  have hstarts : "severity".toList <+: (normalizeKey key).toList := by
    rw [h, String.toList_append]
    exact List.prefix_append _ _
  have hother : ∀ literal : String, ¬ "severity".toList <+: literal.toList →
      normalizeKey key ≠ literal := by
    rintro literal hnot rfl
    exact hnot hstarts
  unfold ofKey?
  split
  case h_15 =>
    have hrest : "severity".toList.isPrefixOf? (normalizeKey key).toList = some text.toList := by
      rw [List.isPrefixOf?_eq_some_iff_append_eq, h, String.toList_append]
    simp only [severityKey?, hrest, String.ofList_toList]
  all_goals exact absurd ‹_› (hother _ (by decide))

end Setting

namespace Options
open Setting

/-- The second options are the first with the severity of one kind set. -/
structure Overridden (kind : Kind) (severity : Severity) (o o' : Options) : Prop where
  set : o'.overrides.lookup kind = some severity
  kept : ∀ other, other ≠ kind → o'.overrides.lookup other = o.overrides.lookup other
  rest : { o' with overrides := o.overrides } = o

theorem overridden_withSeverity (o : Options) (kind : Kind) (severity : Severity) :
    o.Overridden kind severity (o.withSeverity kind severity) := by
  have hlookup := Sorted.lookup_put kind severity o.overrides
  refine ⟨?_, fun other hne => ?_, rfl⟩
  · rw [withSeverity, hlookup, if_pos rfl]
  · rw [withSeverity, hlookup, if_neg hne]

theorem applyProperty_severity (o : Options) (text value : String) :
    o.applyProperty ("Severity_" ++ text) value =
      match (Kind.parse (normalizeKey text)).toOption with
      | some kind => o.withSeverity kind (.parseLenient value)
      | none => o := by
  have hkey : normalizeKey ("Severity_" ++ text) = "severity" ++ normalizeKey text := by
    have hhead : normalizeKey "Severity_" = "severity" := by decide +kernel
    rw [normalizeKey_append, hhead]
  rw [applyProperty, ofKey?_severity hkey]
  cases (Kind.parse (normalizeKey text)).toOption <;> rfl

/-- A property sets the severity of the kind that its key spells, whatever the case and the blanks
around the spelling. Only where the spelling is the name of a kind that has a shorter title, the
property changes nothing. -/
theorem severity_set_unless_named_at_length (o : Options) (text value : String) (kind : Kind)
    (h : Kind.parse text = .ok kind) :
    (¬ kind.NamesAtLength text →
      o.Overridden kind (.parseLenient value) (o.applyProperty ("Severity_" ++ text) value)) ∧
    (kind.NamesAtLength text → o.applyProperty ("Severity_" ++ text) value = o) := by
  obtain ⟨-, hcode, htitle, hname⟩ := kind.spelled?_letters
  rw [applyProperty_severity]
  by_cases hnamed : Text.eqIgnoringAsciiCase kind.name (Text.trim text) = true
  · have hword : kind.name ∈ kind.spellings := by simp [Kind.spellings]
    rw [parse_normalizeKey hword hnamed, hname]
    by_cases hwordy : kind ∈ Kind.wordier
    · rw [if_pos hwordy]
      exact ⟨fun hnot => absurd ⟨hwordy, hnamed⟩ hnot, fun _ => rfl⟩
    · rw [if_neg hwordy]
      exact ⟨fun _ => o.overridden_withSeverity kind _, fun hat => absurd hat.1 hwordy⟩
  · have hfound : (Kind.parse (normalizeKey text)).toOption = some kind := by
      obtain ⟨word, hword, heq⟩ := Kind.exists_spelling h
      rw [parse_normalizeKey hword heq]
      simp only [Kind.spellings, List.mem_cons, List.not_mem_nil, or_false] at hword
      rcases hword with rfl | rfl | rfl
      · exact hcode
      · exact absurd heq hnamed
      · exact htitle
    rw [hfound]
    exact ⟨fun _ => o.overridden_withSeverity kind _, fun hat => absurd hat.2 hnamed⟩

theorem severity_set_unregistered :
    Kind.parse " Implementation-UNREGISTERED\t" = .ok .implementationUnregistered ∧
      ¬ Kind.implementationUnregistered.NamesAtLength " Implementation-UNREGISTERED\t" ∧
      ({} : Options).Overridden .implementationUnregistered .info
        (({} : Options).applyProperty ("Severity_" ++ " Implementation-UNREGISTERED\t")
          " Suggestion") := by
  have hparse : Kind.parse " Implementation-UNREGISTERED\t" = .ok .implementationUnregistered := by
    decide +kernel
  have hshort :
      ¬ Kind.implementationUnregistered.NamesAtLength " Implementation-UNREGISTERED\t" := by
    rintro ⟨hwordy, -⟩
    simp [Kind.wordier] at hwordy
  have hset := (severity_set_unless_named_at_length {} _ " Suggestion" _ hparse).1 hshort
  have hvalue : Severity.parseLenient " Suggestion" = .info := by decide +kernel
  rw [hvalue] at hset
  exact ⟨hparse, hshort, hset⟩

/-- The name of a kind is a spelling of it, and yet the property is ignored. -/
theorem severity_of_duplicateDependency_ignored :
    Kind.parse "duplicate-dependency-declaration" = .ok .duplicateDependency ∧
      ({} : Options).applyProperty ("Severity_" ++ "duplicate-dependency-declaration") "error" =
        {} ∧
      ¬ ({} : Options).Overridden .duplicateDependency .error
        (({} : Options).applyProperty ("Severity_" ++ "duplicate-dependency-declaration")
          "error") := by
  have hparse : Kind.parse "duplicate-dependency-declaration" = .ok .duplicateDependency := by
    decide +kernel
  have hread : (Kind.parse (normalizeKey "duplicate-dependency-declaration")).toOption = none := by
    have hname : Text.eqIgnoringAsciiCase (Kind.name .duplicateDependency)
        (Text.trim "duplicate-dependency-declaration") = true := by
      decide +kernel
    rw [parse_normalizeKey (k := .duplicateDependency) (by simp [Kind.spellings]) hname,
      (Kind.spelled?_letters .duplicateDependency).2.2.2]
    rfl
  have hsame : ({} : Options).applyProperty ("Severity_" ++ "duplicate-dependency-declaration")
      "error" = {} := by
    rw [applyProperty_severity, hread]
  refine ⟨hparse, hsame, fun hset => ?_⟩
  have hnone := hset.set
  rw [hsame] at hnone
  cases hnone

end Options

end Injection
