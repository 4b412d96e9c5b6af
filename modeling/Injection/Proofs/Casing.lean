import Injection.Proofs.Settings

/-! Lower and upper case. Characters other than capital sigmas are put in lower case one by one, and
which sigma a capital one becomes is no longer seen in upper case. Nothing but the ASCII letters and
the Kelvin sign becomes an ASCII letter in lower case. -/
namespace Injection.Text

/-! ## Case of ASCII letters -/

/-- What does not tell the ASCII letters from their small forms does not tell any character from its
small form. -/
theorem apply_toLower {α : Type} {f : Char → α}
    (h : ∀ n ∈ List.range 128, f (Char.ofNat n).toLower = f (Char.ofNat n)) (c : Char) :
    f c.toLower = f c := by
  by_cases hc : c.toNat < 128
  · exact forall_ascii (P := fun c => f c.toLower = f c) h hc
  · rw [toLower_of_not_ascii hc]

/-- The rules of letter case take an ASCII letter and its small form for the same. -/
theorem cased_toLower (c : Char) :
    lowerChar c.toLower = lowerChar c ∧ isCased c.toLower = isCased c ∧
      isCaseIgnorable c.toLower = isCaseIgnorable c ∧
      (c.toLower = capitalSigma ↔ c = capitalSigma) := by
  have h := apply_toLower
    (f := fun c => (lowerChar c, isCased c, isCaseIgnorable c, decide (c = capitalSigma)))
    (by decide +kernel) c
  simpa only [Prod.mk.injEq, decide_eq_decide] using h

theorem meetsCased_map_toLower (cs : List Char) :
    meetsCased (cs.map Char.toLower) = meetsCased cs := by
  have hdrop : (cs.map Char.toLower).dropWhile isCaseIgnorable =
      (cs.dropWhile isCaseIgnorable).map Char.toLower := by
    induction cs with
    | nil => rfl
    | cons c cs ih =>
      rw [List.map_cons, List.dropWhile_cons, List.dropWhile_cons, (cased_toLower c).2.2.1]
      split
      · exact ih
      · rfl
  rw [meetsCased, meetsCased, hdrop]
  cases cs.dropWhile isCaseIgnorable with
  | nil => rfl
  | cons c cs => exact (cased_toLower c).2.1

theorem lowerAfter_map_toLower (before cs : List Char) :
    lowerAfter (before.map Char.toLower) (cs.map Char.toLower) = lowerAfter before cs := by
  induction cs generalizing before with
  | nil => rfl
  | cons c cs ih =>
    have hrest := ih (c :: before)
    rw [List.map_cons] at hrest
    obtain ⟨hlower, -, -, hsigma⟩ := cased_toLower c
    simp only [List.map_cons, lowerAfter, hsigma, meetsCased_map_toLower, hlower, hrest]

/-- Names that differ in ASCII case alone are equal in lower case. -/
theorem lowercase_eq_of_folded {a b : String} (h : folded a = folded b) :
    lowercase a = lowercase b := by
  have ha := lowerAfter_map_toLower [] a.toList
  have hb := lowerAfter_map_toLower [] b.toList
  rw [lowercase, lowercase, ← ha, ← hb, ← folded, ← folded, h]

/-! ## Sigmas -/

/-- The characters other than sigmas do not depend on their neighbours. -/
theorem lowerAfter_eq_flatMap {cs : List Char} (h : capitalSigma ∉ cs) (before : List Char) :
    lowerAfter before cs = cs.flatMap lowerChar := by
  induction cs generalizing before with
  | nil => rfl
  | cons c cs ih =>
    obtain ⟨hc, hcs⟩ := not_or.mp (mt List.mem_cons.mpr h)
    rw [lowerAfter, if_neg (Ne.symm hc), ih hcs, List.flatMap_cons]

/-- Among ASCII names the two foldings agree. -/
theorem lowerAfter_of_ascii {cs : List Char} (h : ∀ c ∈ cs, c.toNat < 128) (before : List Char) :
    lowerAfter before cs = cs.map Char.toLower := by
  have hsigma : capitalSigma ∉ cs := fun hmem => absurd (h _ hmem) (by decide)
  rw [lowerAfter_eq_flatMap hsigma, List.map_eq_flatMap]
  exact List.flatMap_congr fun c hc => lowerChar_of_ascii (h c hc)

theorem upper_lower_capitalSigma :
    (lowerChar capitalSigma).flatMap upperChar = [capitalSigma] := by
  decide +kernel

theorem case_of_sigma (final : Bool) :
    upperChar (if final then finalSigma else smallSigma) = [capitalSigma] ∧
      (if final then finalSigma else smallSigma) ∈
        lowerChar (if final then finalSigma else smallSigma) := by
  cases final <;> decide +kernel

/-- Every small sigma has the same capital. -/
theorem flatMap_upperChar_lowerAfter (before cs : List Char) :
    (lowerAfter before cs).flatMap upperChar =
      cs.flatMap fun c => (lowerChar c).flatMap upperChar := by
  induction cs generalizing before with
  | nil => rfl
  | cons c cs ih =>
    rw [lowerAfter, List.flatMap_append, ih, List.flatMap_cons]
    congr 1
    split
    next hc =>
      rw [hc, List.flatMap_singleton, upper_lower_capitalSigma]
      exact (case_of_sigma _).1
    · rfl

/-- Lower case consists of the lower case of single characters. -/
theorem exists_of_mem_lowerAfter {before cs : List Char} {d : Char}
    (h : d ∈ lowerAfter before cs) : ∃ c, d ∈ lowerChar c := by
  induction cs generalizing before with
  | nil => cases h
  | cons c cs ih =>
    rw [lowerAfter] at h
    rcases List.mem_append.mp h with hhere | hrest
    · split at hhere
      · obtain rfl := List.mem_singleton.mp hhere
        exact ⟨_, (case_of_sigma _).2⟩
      · exact ⟨c, hhere⟩
    · exact ih hrest

/-! ## Characters that become ASCII letters -/

/-- An ASCII character or a blank. -/
def isPlain (c : Char) : Bool := decide (c.toNat < 128) || isBlank c

/-- Becomes an ASCII letter in lower case and is none itself. -/
def kelvinSign : Char := '\u212A'

theorem exists_run_of_mapped? {runs : List CaseRun} {n m : Nat} (h : mapped? runs n = some m) :
    ∃ r ∈ runs, r.first ≤ n ∧ n ≤ r.last ∧ m = r.target + (n - r.first) := by
  induction runs with
  | nil => cases h
  | cons r runs ih =>
    rw [mapped?] at h
    split at h
    · cases h
    next hfirst =>
      split at h
      next hlast =>
        split at h
        · exact ⟨r, List.mem_cons_self, by omega, hlast, (Option.some.inj h).symm⟩
        · cases h
      · obtain ⟨r', hr', hn⟩ := ih h
        exact ⟨r', List.mem_cons_of_mem r hr', hn⟩

theorem toNat_ofNat_of_isValidChar {n : Nat} (h : n.isValidChar) : (Char.ofNat n).toNat = n := by
  rw [Char.ofNat, dif_pos h]
  rfl

/-- Beyond the ASCII letters and the Kelvin sign nothing is mapped to a plain character, nor to the
Kelvin sign. -/
theorem mapped?_lowerRuns {c : Char} {m : Nat} (h : mapped? lowerRuns c.toNat = some m)
    (hascii : ¬ c.toNat < 128) (hkelvin : c ≠ kelvinSign) :
    isPlain (Char.ofNat m) = false ∧ Char.ofNat m ≠ kelvinSign := by
  have hruns : ∀ r ∈ lowerRuns, r.last < 128 ∨ r.first = r.last ∧ r.last = kelvinSign.toNat ∨
      128 ≤ r.target ∧
      (r.target + (r.last - r.first) < 0xD800 ∨
        0xDFFF < r.target ∧ r.target + (r.last - r.first) < 0x110000) ∧
      (r.target + (r.last - r.first) < kelvinSign.toNat ∨ kelvinSign.toNat < r.target) ∧
      ∀ b ∈ blankRanges, b.2 < r.target ∨ r.target + (r.last - r.first) < b.1 := by
    decide +kernel
  obtain ⟨r, hr, hfirst, hlast, rfl⟩ := exists_run_of_mapped? h
  rcases hruns r hr with hsmall | ⟨hone, hlastKelvin⟩ | ⟨htarget, hvalid, hsign, hblank⟩
  · omega
  · have hn : c.toNat = kelvinSign.toNat := by omega
    exact absurd (Char.toNat_inj.mp hn) hkelvin
  · have hm : (Char.ofNat (r.target + (c.toNat - r.first))).toNat =
        r.target + (c.toNat - r.first) := by
      apply toNat_ofNat_of_isValidChar
      rcases hvalid with hlow | ⟨hhigh, hbound⟩
      · exact .inl (by omega)
      · exact .inr ⟨by omega, by omega⟩
    constructor
    · rw [isPlain, hm, Bool.or_eq_false_iff]
      refine ⟨by simp only [decide_eq_false_iff_not]; omega, ?_⟩
      rw [Bool.eq_false_iff]
      intro hb
      obtain ⟨b, hb, hlo, hhi⟩ := exists_range_of_inRanges hb
      rw [hm] at hlo hhi
      rcases hblank b hb with hbelow | habove <;> omega
    · intro hsame
      rw [hsame] at hm
      omega

/-- The ways in which a character is put in lower case. -/
theorem lowerChar_cases (c : Char) :
    c.toNat < 128 ∧ lowerChar c = [c.toLower] ∨ lowerChar c = [c] ∨ c = kelvinSign ∨
      (∃ d ∈ lowerChar c, isPlain d = false) ∧
        ∀ d ∈ lowerChar c, isPlain d = true ∧ lowerChar d = [d] ∨
          isPlain d = false ∧ d ≠ kelvinSign := by
  by_cases hascii : c.toNat < 128
  · exact .inl ⟨hascii, lowerChar_of_ascii hascii⟩
  by_cases hkelvin : c = kelvinSign
  · exact .inr (.inr (.inl hkelvin))
  by_cases hdotted : c = '\u0130'
  · have hlower : lowerChar c = ['i', '\u0307'] := by rw [lowerChar, if_pos hdotted]
    have hi : isPlain 'i' = true ∧ lowerChar 'i' = ['i'] := by decide +kernel
    have hdot : isPlain '\u0307' = false ∧ '\u0307' ≠ kelvinSign := by decide +kernel
    exact .inr (.inr (.inr (by simp [hlower, hi, hdot])))
  cases hm : mapped? lowerRuns c.toNat with
  | none => exact .inr (.inl (by rw [lowerChar, if_neg hdotted, hm]))
  | some m =>
    have hlower : lowerChar c = [Char.ofNat m] := by rw [lowerChar, if_neg hdotted, hm]
    have himage := mapped?_lowerRuns hm hascii hkelvin
    rw [hlower]
    exact .inr (.inr (.inr ⟨⟨_, List.mem_singleton_self _, himage.1⟩, by simpa using .inr himage⟩))

theorem isPlain_of_lowerChar {c : Char} (h : ∀ d ∈ lowerChar c, isPlain d = true) :
    isPlain c = true ∨ c = kelvinSign := by
  rcases lowerChar_cases c with ⟨hascii, -⟩ | hsame | hkelvin | ⟨⟨d, hd, hplain⟩, -⟩
  · exact .inl (by simp [isPlain, hascii])
  · exact .inl (h c (by simp [hsame]))
  · exact .inr hkelvin
  · rw [h d hd] at hplain
    cases hplain

/-- A plain character that is in lower case. -/
structure IsSmall (c : Char) : Prop where
  plain : isPlain c = true
  lower : lowerChar c = [c]

instance (c : Char) : Decidable (IsSmall c) :=
  decidable_of_iff (isPlain c = true ∧ lowerChar c = [c])
    ⟨fun h => ⟨h.1, h.2⟩, fun h => ⟨h.plain, h.lower⟩⟩

/-- What is in lower case and becomes plain by being put in lower case is plain already. -/
theorem isSmall_of_mem_lowerChar {c d : Char} (hd : d ∈ lowerChar c)
    (h : ∀ e ∈ lowerChar d, isPlain e = true) : IsSmall d := by
  rcases lowerChar_cases c with ⟨hascii, hlower⟩ | hsame | rfl | ⟨-, himages⟩
  · have hsmall : lowerChar d = [d] := by
      rw [hlower, List.mem_singleton] at hd
      rw [hd, (cased_toLower c).1, hlower]
    exact ⟨h d (by simp [hsmall]), hsmall⟩
  · rw [hsame, List.mem_singleton] at hd
    rw [hd]
    exact ⟨h c (by simp [hd, hsame]), hsame⟩
  · have hk : lowerChar kelvinSign = ['k'] ∧ IsSmall 'k' := by decide +kernel
    rw [hk.1, List.mem_singleton] at hd
    exact hd ▸ hk.2
  · rcases himages d hd with ⟨hplain, hlower⟩ | ⟨hplain, hkelvin⟩
    · exact ⟨hplain, hlower⟩
    · rcases isPlain_of_lowerChar h with hplain' | hkelvin'
      · rw [hplain'] at hplain
        cases hplain
      · exact absurd hkelvin' hkelvin

theorem IsSmall.raised {c : Char} (h : IsSmall c) :
    capitalSigma ∉ upperChar c ∧ (upperChar c).flatMap lowerChar = [c] := by
  rcases Bool.or_eq_true_iff.mp h.plain with hascii | hblank
  · exact forall_ascii
      (P := fun c => lowerChar c = [c] →
        capitalSigma ∉ upperChar c ∧ (upperChar c).flatMap lowerChar = [c])
      (by decide +kernel) (of_decide_eq_true hascii) h.lower
  · exact forall_blank
      (P := fun c => capitalSigma ∉ upperChar c ∧ (upperChar c).flatMap lowerChar = [c])
      (by decide +kernel) hblank

/-- Small characters are the same again after having been put in upper case. -/
theorem lowercase_uppercase_of_small {s : String} (h : ∀ c ∈ s.toList, IsSmall c) :
    lowercase (uppercase s) = s := by
  have hsigma : capitalSigma ∉ s.toList.flatMap upperChar := by
    intro hmem
    obtain ⟨c, hc, hupper⟩ := List.mem_flatMap.mp hmem
    exact (h c hc).raised.1 hupper
  have hchars : (s.toList.flatMap fun c => (upperChar c).flatMap lowerChar) = s.toList := by
    rw [List.flatMap_congr fun c hc => (h c hc).raised.2,
      List.flatMap_singleton' s.toList]
  rw [lowercase, uppercase, String.toList_ofList, lowerAfter_eq_flatMap hsigma,
    List.flatMap_assoc, hchars, String.ofList_toList]

theorem uppercase_lowercase_uppercase_of_ascii {s : String}
    (h : ∀ c ∈ s.toList, c.toNat < 128) : uppercase (lowercase (uppercase s)) = uppercase s := by
  have hchar : ∀ c ∈ s.toList,
      ((upperChar c).flatMap fun u => (lowerChar u).flatMap upperChar) = upperChar c :=
    fun c hc => forall_ascii
      (P := fun c => ((upperChar c).flatMap fun u => (lowerChar u).flatMap upperChar) = upperChar c)
      (by decide +kernel) (h c hc)
  simp only [uppercase, lowercase, String.toList_ofList, flatMap_upperChar_lowerAfter,
    List.flatMap_assoc]
  rw [List.flatMap_congr hchar]

end Injection.Text
