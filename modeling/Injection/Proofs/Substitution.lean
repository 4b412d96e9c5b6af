import Injection.Proofs.NormalForm

/-! Substitution and what it leaves unchanged. A signature without type parameters stays as it is. A
normal form stays as it is exactly if no parameter that it can see is replaced by a generic type
that normal forms keep. -/
namespace Injection.Signature

/-- Induction over signatures, in which the arguments of a generic type come first. -/
theorem induct {P : Signature → Prop} (hnamed : ∀ name, P (named name))
    (hparam : ∀ name, P (param name)) (happ : ∀ head args, (∀ a ∈ args, P a) → P (app head args))
    (hhole : ∀ index, P (hole index)) (s : Signature) : P s := by
  refine @Signature.rec P (fun args => ∀ a ∈ args, P a) hnamed hparam happ hhole (by simp)
    (fun s ss hs hss => ?_) s
  exact List.forall_mem_cons.mpr ⟨hs, hss⟩

/-! ## Subterms -/

mutual
/-- The signature and all signatures inside it. -/
def subterms : Signature → List Signature
  | app head args => app head args :: allSubterms args
  | named name => [named name]
  | param name => [param name]
  | hole index => [hole index]

def allSubterms : List Signature → List Signature
  | [] => []
  | s :: ss => subterms s ++ allSubterms ss
end

@[simp] theorem allSubterms_eq_flatMap (ss : List Signature) :
    allSubterms ss = ss.flatMap subterms := by
  induction ss with
  | nil => rfl
  | cons s ss ih => rw [allSubterms, ih, List.flatMap_cons]

theorem self_mem_subterms (s : Signature) : s ∈ s.subterms := by
  cases s <;> simp [subterms]

theorem arg_mem_subterms {s : Signature} {head : String} {args : List Signature}
    (h : app head args ∈ s.subterms) {a : Signature} (ha : a ∈ args) : a ∈ s.subterms := by
  induction s using induct with
  | hnamed name => simp [subterms] at h
  | hparam name => simp [subterms] at h
  | hhole index => simp [subterms] at h
  | happ head' args' ih =>
    simp only [subterms, allSubterms_eq_flatMap, List.mem_cons, List.mem_flatMap] at h ⊢
    rcases h with heq | ⟨b, hb, h⟩
    · obtain ⟨rfl, rfl⟩ := app.inj heq
      exact .inr ⟨a, ha, a.self_mem_subterms⟩
    · exact .inr ⟨b, hb, ih b hb h⟩

/-! ## Parameters -/

mutual
/-- The type parameters that occur in the signature, from left to right. -/
def parameters : Signature → List String
  | named _ | hole _ => []
  | param name => [name]
  | app _ args => allParameters args

def allParameters : List Signature → List String
  | [] => []
  | s :: ss => parameters s ++ allParameters ss
end

@[simp] theorem allParameters_eq_flatMap (ss : List Signature) :
    allParameters ss = ss.flatMap parameters := by
  induction ss with
  | nil => rfl
  | cons s ss ih => rw [allParameters, ih, List.flatMap_cons]

theorem subst_eq_self {s : Signature} (h : s.parameters = []) (σ : Bindings) : s.subst σ = s := by
  induction s using induct with
  | hnamed name => rw [subst]
  | hparam name => simp [parameters] at h
  | hhole index => rw [subst]
  | happ head args ih =>
    simp only [parameters, allParameters_eq_flatMap, List.flatMap_eq_nil_iff] at h
    have hargs : args.map (subst σ) = args := by
      refine (List.map_congr_left fun a ha => ?_).trans (List.map_id args)
      exact ih a ha (h a ha)
    rw [subst, substArgs_eq_map, hargs]

@[simp] theorem isApp_subst {s : Signature} (h : s.isApp) (σ : Bindings) : (s.subst σ).isApp := by
  cases s with
  | app head args => rfl
  | named name => cases h
  | param name => cases h
  | hole index => cases h

theorem shape?_subst {s : Signature} (h : s.isApp) (σ : Bindings) :
    (s.subst σ).shape? = s.shape? := by
  cases s with
  | app head args => simp [subst, shape?]
  | named name => cases h
  | param name => cases h
  | hole index => cases h

/-! ## Normal forms -/

section Normal
variable {keep : String → Nat → Bool} {σ : Bindings}

/-- A generic type that retains its structure as an argument of a normal form. -/
def isKept (keep : String → Nat → Bool) : Signature → Bool
  | app head args => keep head args.length
  | _ => false

mutual
/-- The parameters that stand outside of all generic types that are not kept. -/
def exposed (keep : String → Nat → Bool) : Signature → List String
  | param name => [name]
  | app head args => if keep head args.length then exposedArgs keep args else []
  | named _ | hole _ => []

def exposedArgs (keep : String → Nat → Bool) : List Signature → List String
  | [] => []
  | s :: ss => exposed keep s ++ exposedArgs keep ss
end

mutual
theorem mem_parameters_of_exposed (s : Signature) {x : String} (h : x ∈ exposed keep s) :
    x ∈ s.parameters := by
  cases s with
  | named name => simp [exposed] at h
  | hole index => simp [exposed] at h
  | param name => simpa [exposed, parameters] using h
  | app head args =>
    rw [exposed] at h
    split at h
    · exact mem_allParameters_of_exposed args h
    · simp at h

theorem mem_allParameters_of_exposed (ss : List Signature) {x : String}
    (h : x ∈ exposedArgs keep ss) : x ∈ allParameters ss := by
  match ss with
  | [] => simp [exposedArgs] at h
  | s :: ss =>
    rw [exposedArgs, List.mem_append] at h
    rw [allParameters, List.mem_append]
    exact h.imp (mem_parameters_of_exposed s) (mem_allParameters_of_exposed ss)
end

theorem mem_parameters_of_exposed_args {s : Signature} {x : String}
    (h : x ∈ exposedArgs keep s.args) : x ∈ s.parameters := by
  cases s with
  | app head as => exact mem_allParameters_of_exposed as h
  | named name => simp [args, exposedArgs] at h
  | param name => simp [args, exposedArgs] at h
  | hole index => simp [args, exposedArgs] at h

theorem abstractArg_of_not_kept {s : Signature} (h : isKept keep s = false) (next : Nat) :
    abstractArg keep s next = (hole next, next + 1) := by
  cases s with
  | app head args =>
    rw [isKept] at h
    simp [abstractArg, h]
  | named name => rfl
  | param name => rfl
  | hole index => rfl

theorem abstractArg_ne_hole {s : Signature} (h : isKept keep s = true) (next index : Nat) :
    (abstractArg keep s next).1 ≠ hole index := by
  cases s with
  | app head args =>
    rw [isKept] at h
    simp [abstractArg, h]
  | named name => cases h
  | param name => cases h
  | hole index => cases h

theorem isKept_subst_app (head : String) (args : List Signature) :
    isKept keep ((app head args).subst σ) = keep head args.length := by
  simp [subst, isKept]

mutual
theorem abstractArg_subst (s : Signature)
    (h : ∀ x ∈ exposed keep s, isKept keep ((param x).subst σ) = false) (next : Nat) :
    abstractArg keep (s.subst σ) next = abstractArg keep s next := by
  cases s with
  | named name => rw [subst]
  | hole index => rw [subst]
  | param name =>
    have hname := h name (by simp [exposed])
    rw [abstractArg_of_not_kept hname, abstractArg]
  | app head args =>
    by_cases hk : keep head args.length = true
    · simp only [exposed, hk, if_true] at h
      have hargs := abstractArgs_subst args h next
      simp [subst, abstractArg, hk, hargs]
    · have hnot : isKept keep (app head args) = false := Bool.eq_false_iff.mpr hk
      have hnot' : isKept keep ((app head args).subst σ) = false :=
        (isKept_subst_app head args).trans hnot
      rw [abstractArg_of_not_kept hnot, abstractArg_of_not_kept hnot']

theorem abstractArgs_subst (ss : List Signature)
    (h : ∀ x ∈ exposedArgs keep ss, isKept keep ((param x).subst σ) = false) (next : Nat) :
    abstractArgs keep (ss.map (subst σ)) next = abstractArgs keep ss next := by
  match ss with
  | [] => rfl
  | s :: ss =>
    simp only [exposedArgs, List.mem_append, or_imp, forall_and] at h
    have hhead := abstractArg_subst s h.1 next
    have htail := abstractArgs_subst ss h.2 (abstractArg keep s next).2
    simp only [List.map_cons, abstractArgs, hhead, htail]
end

mutual
/-- A kept generic type in place of an exposed parameter shows in the normal form. -/
theorem not_kept_of_abstractArg_subst (s : Signature) (next : Nat)
    (h : (abstractArg keep (s.subst σ) next).1 = (abstractArg keep s next).1) :
    ∀ x ∈ exposed keep s, isKept keep ((param x).subst σ) = false := by
  intro x hx
  cases s with
  | named name => simp [exposed] at hx
  | hole index => simp [exposed] at hx
  | param name =>
    obtain rfl : x = name := by simpa [exposed] using hx
    exact Bool.eq_false_iff.mpr fun hk => abstractArg_ne_hole hk next next h
  | app head args =>
    by_cases hk : keep head args.length = true
    · simp only [exposed, hk, if_true] at hx
      refine not_kept_of_abstractArgs_subst args next ?_ x hx
      simpa [subst, abstractArg, hk] using h
    · simp [exposed, hk] at hx

theorem not_kept_of_abstractArgs_subst (ss : List Signature) (next : Nat)
    (h : (abstractArgs keep (ss.map (subst σ)) next).1 = (abstractArgs keep ss next).1) :
    ∀ x ∈ exposedArgs keep ss, isKept keep ((param x).subst σ) = false := by
  match ss with
  | [] => simp [exposedArgs]
  | s :: ss =>
    simp only [List.map_cons, abstractArgs, List.cons.injEq] at h
    have hhead := not_kept_of_abstractArg_subst s next h.1
    -- The first argument takes the same numbers in both, so the others start alike.
    rw [abstractArg_subst s hhead] at h
    have htail := not_kept_of_abstractArgs_subst ss _ h.2
    intro x hx
    rw [exposedArgs, List.mem_append] at hx
    exact hx.elim (hhead x) (htail x)
end

theorem normalize_subst_iff {s : Signature} (ha : s.isApp) :
    (s.subst σ).normalize keep = s.normalize keep ↔
      ∀ x ∈ exposedArgs keep s.args, isKept keep ((param x).subst σ) = false := by
  cases s with
  | app head args =>
    simp only [subst, normalize, substArgs_eq_map, app.injEq, true_and]
    constructor
    · exact not_kept_of_abstractArgs_subst args 0
    · intro h
      rw [abstractArgs_subst args h]
  | named name => cases ha
  | param name => cases ha
  | hole index => cases ha

theorem flatten_subst {s : Signature} (ha : s.isApp) : (s.subst σ).flatten = s.flatten := by
  refine (normalize_subst_iff ha).mpr fun x _ => ?_
  cases (param x).subst σ <;> rfl

theorem abstractArgs_eq_flat_iff (ss : List Signature) (next : Nat) :
    (abstractArgs keep ss next).1 = (abstractArgs (fun _ _ => false) ss next).1 ↔
      ∀ s ∈ ss, isKept keep s = false := by
  induction ss generalizing next with
  | nil => simp [abstractArgs]
  | cons s ss ih =>
    have hflat : abstractArg (fun _ _ => false) s next = (hole next, next + 1) :=
      abstractArg_of_not_kept (by cases s <;> rfl) next
    simp only [abstractArgs, hflat, List.cons.injEq, List.forall_mem_cons]
    by_cases hk : isKept keep s = true
    · simp [hk, abstractArg_ne_hole hk]
    · have hnot := Bool.eq_false_iff.mpr hk
      simp [hnot, abstractArg_of_not_kept hnot, ih]

/-- Only kept arguments make a difference between the two normal forms. -/
theorem normalize_eq_flatten_iff {s : Signature} (ha : s.isApp) :
    s.normalize keep = s.flatten ↔ ∀ a ∈ s.args, isKept keep a = false := by
  cases s with
  | app head as => simpa [normalize, flatten, args] using abstractArgs_eq_flat_iff as 0
  | named name => cases ha
  | param name => cases ha
  | hole index => cases ha

end Normal

end Injection.Signature
