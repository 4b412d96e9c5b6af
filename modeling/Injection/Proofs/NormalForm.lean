import Injection.Signature.NormalForm

/-! Normal forms are told from written signatures by their holes: a written signature has none, and
the normal form of a generic type with arguments has at least one. -/
namespace Injection.Signature

mutual
/-- No hole occurs in the signature. -/
def holeFree : Signature → Bool
  | named _ | param _ => true
  | hole _ => false
  | app _ args => allHoleFree args

def allHoleFree : List Signature → Bool
  | [] => true
  | s :: ss => holeFree s && allHoleFree ss
end

@[simp] theorem allHoleFree_eq_all (ss : List Signature) : allHoleFree ss = ss.all holeFree := by
  induction ss with
  | nil => rfl
  | cons s ss ih => rw [allHoleFree, ih, List.all_cons]

mutual
theorem holeFree_abstractArg {keep : String → Nat → Bool} (hk : ∀ head, keep head 0 = false)
    (s : Signature) (next : Nat) : (abstractArg keep s next).1.holeFree = false := by
  cases s with
  | named name => rfl
  | param name => rfl
  | hole index => rfl
  | app head args =>
    rw [abstractArg]
    split
    next hkept =>
      have hne : args ≠ [] := by
        rintro rfl
        simp [hk] at hkept
      exact holeFree_abstractArgs hk args hne next
    · rfl

theorem holeFree_abstractArgs {keep : String → Nat → Bool} (hk : ∀ head, keep head 0 = false)
    (ss : List Signature) (hne : ss ≠ []) (next : Nat) :
    allHoleFree (abstractArgs keep ss next).1 = false := by
  match ss with
  | [] => exact absurd rfl hne
  | s :: ss => simp [abstractArgs, holeFree_abstractArg hk s next]
end

/-- A generic type with arguments has a hole in its normal form. -/
theorem holeFree_normalize {keep : String → Nat → Bool} (hk : ∀ head, keep head 0 = false)
    {head : String} {args : List Signature} (hne : args ≠ []) :
    ((app head args).normalize keep).holeFree = false :=
  holeFree_abstractArgs hk args hne 0

theorem args_ne_nil_of_isOpen {head : String} {args : List Signature}
    (h : (app head args).isOpen = true) : args ≠ [] := by
  rintro rfl
  simp [isOpen] at h

theorem holeFree_normalize_of_isOpen {keep : String → Nat → Bool}
    (hk : ∀ head, keep head 0 = false) {s : Signature} (ho : s.isOpen) (ha : s.isApp) :
    (s.normalize keep).holeFree = false := by
  cases s with
  | app head args => exact holeFree_normalize hk (args_ne_nil_of_isOpen ho)
  | named name => cases ha
  | param name => cases ha
  | hole index => cases ha

/-- A generic type without arguments is its own normal form. -/
theorem normalize_eq_self_or_holeFree {keep : String → Nat → Bool}
    (hk : ∀ head, keep head 0 = false) {s : Signature} (ha : s.isApp) :
    s.normalize keep = s ∨ (s.normalize keep).holeFree = false := by
  cases s with
  | app head args =>
    cases args with
    | nil => exact .inl rfl
    | cons a as => exact .inr (holeFree_normalize hk (List.cons_ne_nil a as))
  | named name => cases ha
  | param name => cases ha
  | hole index => cases ha

end Injection.Signature
