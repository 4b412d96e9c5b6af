import Injection.Proofs.Reading

/-! What is read is well formed, and what is well formed can be printed and read back unchanged. So
signatures that differ are printed differently.

Printing is compared with the grammar, not with the reader: a printed signature is one of the texts
that the grammar derives for it. -/
namespace Injection.Signature
open Injection.Text

variable {params : List String} {cs r rest : List Char} {name : String} {s t : Signature}
  {ss : List Signature}

/-! ## Canonical names -/

/-- The reader of names accepts the name and does not change it. -/
def IsCanonical (name : String) : Prop := ∃ p, readName name.toList = .ok p ∧ p.value = name

theorem Spells.self {raw name : List Char} (h : Spells raw name) : Spells name name := by
  obtain ⟨n, hn⟩ := h.marks
  refine ⟨fun c hc => h.chars c ?_, ⟨0, rfl⟩, h.stripped, h.ne_nil, h.head, h.last⟩
  rw [hn]
  exact List.mem_append_right _ hc

theorem isCanonical_iff : IsCanonical name ↔ Spells name.toList name.toList := by
  constructor
  · rintro ⟨p, hread, hname⟩
    have htakes : Takes (readName name.toList) name p.rest := by simp [hread, hname]
    obtain ⟨_, -, raw, -, hspells, -⟩ := takes_readName.mp htakes
    exact hspells.self
  · intro h
    have hident : Ident name.toList name [] :=
      ⟨name.toList, (List.append_nil _).symm, h, by simp [NameEnds]⟩
    obtain ⟨hlt, hread⟩ := takes_readName.mpr ⟨_, .nil, hident⟩
    exact ⟨_, hread, rfl⟩

theorem Ident.isCanonical (h : Ident cs name rest) : IsCanonical name := by
  obtain ⟨raw, -, hspells, -⟩ := h
  exact isCanonical_iff.mpr hspells.self

/-- A canonical name is read as far as its characters go. -/
theorem IsCanonical.ident (h : IsCanonical name) (hends : NameEnds rest) :
    Ident (name.toList ++ rest) name rest :=
  ⟨name.toList, rfl, isCanonical_iff.mp h, hends⟩

theorem IsCanonical.ne_arrayHead (h : IsCanonical name) : name ≠ arrayHead := by
  rintro rfl
  have hchars := (isCanonical_iff.mp h).chars '[' (by decide)
  revert hchars
  decide +kernel

/-! ## Well-formed signatures -/

/-- A signature as it can be written where the names `params` denote type parameters. -/
inductive WellFormed (params : List String) : Signature → Prop
  | named {name : String} : IsCanonical name → name ∉ params → WellFormed params (named name)
  | param {name : String} : IsCanonical name → name ∈ params → WellFormed params (param name)
  | app {head : String} {args : List Signature} : IsCanonical head → args ≠ [] →
      (∀ a ∈ args, WellFormed params a) → WellFormed params (app head args)
  | array {a : Signature} : WellFormed params a → WellFormed params (app arrayHead [a])

theorem Bare.wellFormed (h : Bare params name s) (hname : IsCanonical name) :
    WellFormed params s := by
  cases h with
  | parameter hmem => exact .param hname hmem
  | type hmem => exact .named hname hmem

theorem Marks.wellFormed (h : Marks s cs t rest) (hs : WellFormed params s) :
    WellFormed params t := by
  induction h with
  | done => exact hs
  | nullable _ _ ih => exact ih hs
  | array _ _ _ ih => exact ih hs.array

mutual
theorem Types.wellFormed {params : List String} {cs rest : List Char} {s : Signature} :
    Types params cs s rest → WellFormed params s
  | .plain _ hident hbare _ hm => hm.wellFormed (hbare.wellFormed hident.isCanonical)
  | .generic _ hident _ hargs hm => by
    obtain ⟨hne, hall⟩ := hargs.wellFormed
    exact hm.wellFormed (.app hident.isCanonical hne hall)

theorem Args.wellFormed {params : List String} {cs rest : List Char} {ss : List Signature} :
    Args params cs ss rest → ss ≠ [] ∧ ∀ s ∈ ss, WellFormed params s
  | .last htype _ => ⟨List.cons_ne_nil _ _, by simpa using htype.wellFormed⟩
  | .more htype _ hargs =>
    ⟨List.cons_ne_nil _ _, List.forall_mem_cons.mpr ⟨htype.wellFormed, hargs.wellFormed.2⟩⟩
end

/-! ## Printed signatures -/

theorem Marks.trans {u : Signature} (h : Marks s cs t r) (h' : Marks t r u rest) :
    Marks s cs u rest := by
  induction h with
  | done => exact h'
  | nullable hb _ ih => exact .nullable hb (ih h')
  | array hb hb' _ ih => exact .array hb hb' (ih h')

theorem Types.marks (h : Types params cs s r) (hm : Marks s r t rest) :
    Types params cs t rest := by
  cases h with
  | plain hb hident hbare hb' hm' => exact .plain hb hident hbare hb' (hm'.trans hm)
  | generic hb hident hb' hargs hm' => exact .generic hb hident hb' hargs (hm'.trans hm)

theorem Types.blank {c : Char} (hc : isBlank c = true) (h : Types params cs s rest) :
    Types params (c :: cs) s rest := by
  cases h with
  | plain hb hident hbare hb' hm => exact .plain (.cons hc hb) hident hbare hb' hm
  | generic hb hident hb' hargs hm => exact .generic (.cons hc hb) hident hb' hargs hm

theorem Args.blank {c : Char} (hc : isBlank c = true) (h : Args params cs ss rest) :
    Args params (c :: cs) ss rest := by
  cases h with
  | last htype hb => exact .last (htype.blank hc) hb
  | more htype hb hargs => exact .more (htype.blank hc) hb hargs

theorem nameEnds_cons {c : Char} (h : ¬ NameChar c) (cs : List Char) :
    NameEnds (c :: cs) := by
  rintro _ ⟨rfl⟩
  exact h

/-- The characters of the signature are derived, whatever stands after them. -/
def Printable (params : List String) (s : Signature) : Prop :=
  ∀ rest, NameEnds rest → Types params (s.chars ++ rest) s rest

theorem printable_of_bare (hname : IsCanonical name) (hbare : Bare params name s)
    (hchars : s.chars = name.toList) : Printable params s := by
  intro rest hends
  rw [hchars]
  exact .plain .nil (hname.ident hends) hbare .nil .done

theorem args_charsArgs (hne : ss ≠ []) (h : ∀ s ∈ ss, Printable params s) (rest : List Char) :
    Args params (charsArgs ss ++ '>' :: rest) ss rest := by
  induction ss with
  | nil => exact absurd rfl hne
  | cons s ss ih =>
    obtain ⟨hs, hss⟩ := List.forall_mem_cons.mp h
    cases ss with
    | nil => exact .last (hs _ (nameEnds_cons (by decide +kernel) _)) .nil
    | cons s' ss =>
      have htail : Args params (' ' :: (charsArgs (s' :: ss) ++ '>' :: rest)) (s' :: ss) rest :=
        (ih (List.cons_ne_nil s' ss) hss).blank (by decide)
      have hhead := hs (',' :: ' ' :: (charsArgs (s' :: ss) ++ '>' :: rest))
        (nameEnds_cons (by decide +kernel) _)
      rw [charsArgs, List.append_assoc]
      · exact .more hhead .nil htail
      · simp

theorem WellFormed.printable (h : WellFormed params s) : Printable params s := by
  induction h with
  | named hname hmem => exact printable_of_bare hname (.type hmem) (by rw [chars])
  | param hname hmem => exact printable_of_bare hname (.parameter hmem) (by rw [chars])
  | @app head args hhead hne _ ih =>
    intro rest _
    have hident : Ident (head.toList ++ '<' :: (charsArgs args ++ '>' :: rest)) head
        ('<' :: (charsArgs args ++ '>' :: rest)) :=
      hhead.ident (nameEnds_cons (by decide +kernel) _)
    rw [chars, if_neg (fun hc => hhead.ne_arrayHead hc.1), List.append_assoc, List.cons_append,
      List.append_assoc]
    exact .generic .nil hident .nil (args_charsArgs hne ih rest) .done
  | @array a _ ih =>
    intro rest _
    have hmarks : Marks a ('[' :: ']' :: rest) (.app arrayHead [a]) rest := .array .nil .nil .done
    rw [chars, if_pos ⟨rfl, rfl⟩, charsArgs, List.append_assoc]
    exact (ih _ (nameEnds_cons (by decide +kernel) _)).marks hmarks

theorem parse_render (h : WellFormed params s) : parse params s.render = .ok s := by
  have htype := h.printable [] (by simp [NameEnds])
  rw [List.append_nil] at htype
  refine parse_of_written ⟨[], ?_, .nil⟩
  rwa [render, String.toList_ofList]

theorem wellFormed_of_parse {text : String} (h : parse params text = .ok s) :
    WellFormed params s := by
  obtain ⟨r, htype, -⟩ := written_of_parse h
  exact htype.wellFormed

/-- Reading gives well-formed signatures, and these are printed so that reading them again gives
them back. Hence what is read is the same as what is read from its printed form, and signatures that
were read and are printed alike are equal. -/
theorem parse_render_inverse (params : List String) :
    (∀ text s, parse params text = .ok s → WellFormed params s) ∧
      (∀ s, WellFormed params s → parse params s.render = .ok s) ∧
      (∀ text s, parse params text = .ok s → parse params s.render = .ok s) ∧
      ∀ text text' s s', parse params text = .ok s → parse params text' = .ok s' →
        s.render = s'.render → s = s' := by
  refine ⟨fun text s h => wellFormed_of_parse h, fun s h => parse_render h,
    fun text s h => parse_render (wellFormed_of_parse h), fun text text' s s' h h' heq => ?_⟩
  have hs := parse_render (wellFormed_of_parse h)
  have hs' := parse_render (wellFormed_of_parse h')
  rw [heq, hs'] at hs
  cases hs
  rfl

/-- Blanks, a leading `global::` and a nullable mark are not printed. -/
theorem parse_render_inverse_map :
    ∃ s, parse ["T"] " global::Map< T ,List<User?>[ ] > " = .ok s ∧ WellFormed ["T"] s ∧
      s.render = "Map<T, List<User>[]>" ∧ parse ["T"] "Map<T, List<User>[]>" = .ok s := by
  have hread : parse ["T"] " global::Map< T ,List<User?>[ ] > " =
      .ok (.app "Map" [.param "T", .app arrayHead [.app "List" [.named "User"]]]) := by
    decide +kernel
  have hprint : (app "Map" [.param "T", .app arrayHead [.app "List" [.named "User"]]]).render =
      "Map<T, List<User>[]>" := by decide +kernel
  obtain ⟨hwell, -, hagain, -⟩ := parse_render_inverse ["T"]
  exact ⟨_, hread, hwell _ _ hread, hprint, hprint ▸ hagain _ _ hread⟩

end Injection.Signature
