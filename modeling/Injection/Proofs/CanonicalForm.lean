import Injection.Proofs.Substitution

/-! Normal forms are canonical. Below its root a normal form consists of kept generic types and of
holes that are numbered from left to right, and such a signature is its own normal form. -/
namespace Injection.Signature

mutual
/-- The numbers of the holes, from left to right. -/
def holes : Signature → List Nat
  | hole index => [index]
  | app _ args => allHoles args
  | named _ | param _ => []

def allHoles : List Signature → List Nat
  | [] => []
  | s :: ss => holes s ++ allHoles ss
end

/-- Neither a plain name nor a type parameter. -/
def isNameless : Signature → Bool
  | app .. | hole _ => true
  | named _ | param _ => false

/-! ## Numbered arguments -/

section Numbering
variable {keep : String → Nat → Bool}

mutual
/-- An argument of kept generic types and holes, whose holes have the numbers from the first to
before the second. -/
inductive Numbered (keep : String → Nat → Bool) : Signature → Nat → Nat → Prop
  | hole (next : Nat) : Numbered keep (hole next) next (next + 1)
  | app {head : String} {args : List Signature} {next next' : Nat} :
      keep head args.length = true → AllNumbered keep args next next' →
      Numbered keep (app head args) next next'

inductive AllNumbered (keep : String → Nat → Bool) : List Signature → Nat → Nat → Prop
  | nil (next : Nat) : AllNumbered keep [] next next
  | cons {s : Signature} {ss : List Signature} {next next' next'' : Nat} :
      Numbered keep s next next' → AllNumbered keep ss next' next'' →
      AllNumbered keep (s :: ss) next next''
end

mutual
theorem numbered_abstractArg (s : Signature) (next : Nat) :
    Numbered keep (abstractArg keep s next).1 next (abstractArg keep s next).2 := by
  cases s with
  | named name => exact .hole next
  | param name => exact .hole next
  | hole index => exact .hole next
  | app head args =>
    rw [abstractArg]
    split
    next hkept =>
      apply Numbered.app
      · rwa [length_abstractArgs]
      · exact allNumbered_abstractArgs args next
    · exact .hole next

theorem allNumbered_abstractArgs (ss : List Signature) (next : Nat) :
    AllNumbered keep (abstractArgs keep ss next).1 next (abstractArgs keep ss next).2 := by
  match ss with
  | [] => exact .nil next
  | s :: ss =>
    exact .cons (numbered_abstractArg s next)
      (allNumbered_abstractArgs ss (abstractArg keep s next).2)
end

mutual
/-- Numbering again changes nothing. -/
theorem Numbered.abstractArg_eq {s : Signature} {next next' : Nat}
    (h : Numbered keep s next next') : abstractArg keep s next = (s, next') := by
  cases h with
  | hole next => rfl
  | app hkept hargs => simp [abstractArg, hkept, hargs.abstractArgs_eq]

theorem AllNumbered.abstractArgs_eq {ss : List Signature} {next next' : Nat}
    (h : AllNumbered keep ss next next') : abstractArgs keep ss next = (ss, next') := by
  cases h with
  | nil next => rfl
  | cons hs hss => simp [abstractArgs, hs.abstractArg_eq, hss.abstractArgs_eq]
end

mutual
theorem Numbered.holes_eq {s : Signature} {next next' : Nat} (h : Numbered keep s next next') :
    ∃ n, next' = next + n ∧ s.holes = List.range' next n := by
  cases h with
  | hole next => exact ⟨1, rfl, rfl⟩
  | app hkept hargs => exact hargs.allHoles_eq

theorem AllNumbered.allHoles_eq {ss : List Signature} {next next' : Nat}
    (h : AllNumbered keep ss next next') :
    ∃ n, next' = next + n ∧ allHoles ss = List.range' next n := by
  cases h with
  | nil next => exact ⟨0, rfl, rfl⟩
  | cons hs hss =>
    obtain ⟨m, rfl, hm⟩ := hs.holes_eq
    obtain ⟨n, rfl, hn⟩ := hss.allHoles_eq
    refine ⟨m + n, by omega, ?_⟩
    rw [allHoles, hm, hn, List.range'_append_1]
end

mutual
/-- What stands inside of a numbered argument. -/
theorem Numbered.of_mem_subterms {s : Signature} {next next' : Nat}
    (h : Numbered keep s next next') {t : Signature} (ht : t ∈ s.subterms) :
    t.isNameless = true ∧ (t.isApp = true → isKept keep t = true) := by
  cases h with
  | hole next =>
    obtain rfl := List.mem_singleton.mp ht
    simp [isNameless, isApp]
  | app hkept hargs =>
    rcases List.mem_cons.mp ht with rfl | ht
    · exact ⟨rfl, fun _ => hkept⟩
    · exact hargs.of_mem_allSubterms ht

theorem AllNumbered.of_mem_allSubterms {ss : List Signature} {next next' : Nat}
    (h : AllNumbered keep ss next next') {t : Signature} (ht : t ∈ allSubterms ss) :
    t.isNameless = true ∧ (t.isApp = true → isKept keep t = true) := by
  cases h with
  | nil next => simp [allSubterms] at ht
  | cons hs hss =>
    rcases List.mem_append.mp ht with ht | ht
    · exact hs.of_mem_subterms ht
    · exact hss.of_mem_allSubterms ht
end

end Numbering

/-! ## Flat forms -/

/-- Where nothing is kept, only the number of arguments matters. -/
theorem abstractArgs_flat (ss : List Signature) (next : Nat) :
    (abstractArgs (fun _ _ => false) ss next).1 = (List.range' next ss.length).map hole := by
  induction ss generalizing next with
  | nil => rfl
  | cons s ss ih =>
    have hs : abstractArg (fun _ _ => false) s next = (hole next, next + 1) :=
      abstractArg_of_not_kept (by cases s <;> rfl) next
    simp only [abstractArgs, hs, ih, List.length_cons, List.range'_succ, List.map_cons]

theorem flatten_app (head : String) (args : List Signature) :
    (app head args).flatten = app head ((List.range args.length).map hole) := by
  rw [flatten, normalize, abstractArgs_flat, List.range_eq_range']

/-- The normal form of a generic type has its head and arity. It consists of generic types and
holes alone, the generic types below its root are kept, its holes read from left to right are the
first natural numbers, it is its own normal form, and nothing of the flat form is lost. -/
theorem normalize_canonical (keep : String → Nat → Bool) (head : String) (args : List Signature) :
    let e := app head args
    let n := e.normalize keep
    n.isApp = true ∧ n.headName = e.headName ∧ n.arity = e.arity ∧
      (∀ t ∈ n.subterms, ∀ name, t ≠ named name ∧ t ≠ param name) ∧
      (∀ a ∈ n.args, ∀ head' args', app head' args' ∈ a.subterms →
        keep head' args'.length = true) ∧
      (∃ k, n.holes = List.range k) ∧
      n.normalize keep = n ∧ n.flatten = e.flatten := by
  have hargs : AllNumbered keep (abstractArgs keep args 0).1 0 (abstractArgs keep args 0).2 :=
    allNumbered_abstractArgs args 0
  have hinside : ∀ t ∈ allSubterms (abstractArgs keep args 0).1,
      t.isNameless = true ∧ (t.isApp = true → isKept keep t = true) :=
    fun t ht => hargs.of_mem_allSubterms ht
  refine ⟨rfl, rfl, length_abstractArgs keep args 0, fun t ht name => ?_,
    fun a ha head' args' ht => ?_, ?_, ?_, ?_⟩
  · have hbare : t.isNameless = true := by
      rcases List.mem_cons.mp ht with rfl | ht
      · rfl
      · exact (hinside t ht).1
    constructor <;> rintro rfl <;> cases hbare
  · have hbelow : app head' args' ∈ allSubterms (abstractArgs keep args 0).1 := by
      rw [allSubterms_eq_flatMap]
      exact List.mem_flatMap.mpr ⟨a, ha, ht⟩
    exact (hinside _ hbelow).2 rfl
  · obtain ⟨k, -, hk⟩ := hargs.allHoles_eq
    exact ⟨k, hk.trans List.range_eq_range'.symm⟩
  · exact congrArg (fun p => app head p.1) hargs.abstractArgs_eq
  · rw [normalize, flatten_app, flatten_app, length_abstractArgs]

/-- Lists are kept, and so the holes are numbered across two depths. -/
theorem normalize_canonical_lists :
    let keep : String → Nat → Bool := fun head _ => head == "List"
    let e := app "Map"
      [app "List" [named "User", app "Box" [param "T"]], param "T", app "List" [hole 7]]
    let n := app "Map" [app "List" [hole 0, hole 1], hole 2, app "List" [hole 3]]
    e.normalize keep = n ∧ n.holes = List.range 4 ∧ n.normalize keep = n ∧
      n.flatten = e.flatten := by
  intro keep e n
  have hn : e.normalize keep = n := rfl
  have hcanonical := normalize_canonical keep "Map"
    [app "List" [named "User", app "Box" [param "T"]], param "T", app "List" [hole 7]]
  obtain ⟨-, -, -, -, -, -, hfixed, hflat⟩ := hcanonical
  exact ⟨hn, rfl, hfixed, hflat⟩

end Injection.Signature
