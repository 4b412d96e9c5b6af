import Injection.Proofs.Casing
import Injection.Proofs.Distinct
import Injection.Proofs.PropertyOrder
import Injection.Proofs.Traversal

/-! Options from the variables of an environment. A key is listed for every variable, but it is read
from the variable that is spelled in capitals throughout. Other variables are listed and lost, so the
options are those that the capital variables give. -/
namespace Injection

open Text

namespace Setting

/-! ## Keys of settings -/

/-- A kind is spelled with ASCII characters, and blanks are all that may stand around it. -/
theorem isPlain_of_severityKey {key : String} (h : (severityKey? key).isSome = true) :
    ∀ c ∈ key.toList, isPlain c = true := by
  unfold severityKey? at h
  split at h
  next text htext =>
    rw [Option.isSome_map] at h
    obtain ⟨kind, hkind⟩ := Option.isSome_iff_exists.mp h
    obtain ⟨word, hword, hspelled⟩ := Kind.exists_spelling (eq_ok_of_toOption hkind)
    have hascii := ascii_of_spelling hword hspelled
    rw [String.toList_ofList] at hascii
    obtain ⟨before, after, haround, hbefore, hafter⟩ := exists_blanks_around text
    have hseverity : "severity".toList.all isPlain = true := by decide +kernel
    have hblank : ∀ {c}, isBlank c = true → isPlain c = true := fun hc => by simp [isPlain, hc]
    rw [← List.isPrefixOf?_eq_some_iff_append_eq.mp htext, haround]
    simp only [List.mem_append]
    rintro c (hc | (hc | hc) | hc)
    · exact List.all_eq_true.mp hseverity c hc
    · exact hblank (hbefore c hc)
    · simp [isPlain, hascii c hc]
    · exact hblank (hafter c hc)
  · cases h

theorem isPlain_of_ofKey {key : String} (h : (ofKey? key).isSome = true) :
    ∀ c ∈ (normalizeKey key).toList, isPlain c = true := by
  unfold ofKey? at h
  split at h
  case h_15 => exact isPlain_of_severityKey h
  all_goals
    rename_i hkey
    rw [hkey]
    exact List.all_eq_true.mp (by decide +kernel)

/-- A key of a setting that is in lower case has small characters alone. -/
theorem isSmall_of_ofKey {name : String} (h : (ofKey? (lowercase name)).isSome = true) :
    ∀ c ∈ (lowercase name).toList, IsSmall c := by
  intro c hc
  have hlower : c ∈ lowerAfter [] name.toList := by rwa [lowercase, String.toList_ofList] at hc
  obtain ⟨c', hc'⟩ := exists_of_mem_lowerAfter hlower
  by_cases hsep : isSeparator c = true
  · have hseparators : IsSmall '_' ∧ IsSmall '-' ∧ IsSmall '.' := by
      decide +kernel
    simp only [isSeparator, Bool.or_eq_true, beq_iff_eq] at hsep
    rcases hsep with (rfl | rfl) | rfl
    · exact hseparators.1
    · exact hseparators.2.1
    · exact hseparators.2.2
  · -- The character is still there in the normalized key, in lower case once more.
    apply isSmall_of_mem_lowerChar hc'
    intro d hd
    apply isPlain_of_ofKey h
    rw [toList_normalizeKey]
    exact List.mem_flatMap.mpr ⟨c, List.mem_filter.mpr ⟨hc, by simpa using hsep⟩, hd⟩

end Setting

namespace Source

/-! ## Variables and their keys -/

/-- The variable is the one that its own key is read from. -/
def isCapital (scope : Option String) (name : String) : Bool :=
  (keyOf? scope name).any fun key => variableName scope key == name

/-- The capital variables of an environment, by their keys. -/
def capitals (scope : Option String) (environment : List (String × String)) :
    List (String × String) :=
  ((table environment).filter fun p => isCapital scope p.1).filterMap fun p =>
    (keyOf? scope p.1).map fun key => (key, p.2)

/-- The key is read back: its value is that of a variable which it comes from. -/
def ReadBack (scope : Option String) (environment : List (String × String)) (key : String) : Prop :=
  ∃ p ∈ table environment, keyOf? scope p.1 = some key ∧
    (ofEnvironment scope environment).get? key = some p.2

/-- The key comes from a capital variable. -/
def FromCapital (scope : Option String) (environment : List (String × String)) (key : String) :
    Prop :=
  ∃ p ∈ table environment, isCapital scope p.1 = true ∧ keyOf? scope p.1 = some key

variable {scope : Option String} {environment : List (String × String)} {name key value : String}

theorem isCapital_iff :
    isCapital scope name = true ↔
      ∃ key, keyOf? scope name = some key ∧ variableName scope key = name := by
  simp [isCapital, Option.any_eq_true]

theorem mem_capitals :
    (key, value) ∈ capitals scope environment ↔
      (variableName scope key, value) ∈ table environment ∧
        keyOf? scope (variableName scope key) = some key := by
  simp only [capitals, List.mem_filterMap, List.mem_filter, isCapital_iff,
    Option.map_eq_some_iff]
  constructor
  · rintro ⟨⟨name, v⟩, ⟨hmem, k, hk, hname⟩, k', hk', hpair⟩
    cases hpair
    obtain rfl := Option.some.inj (hk.symm.trans hk')
    dsimp only at hname
    subst hname
    exact ⟨hmem, hk⟩
  · rintro ⟨hmem, hkey⟩
    exact ⟨_, ⟨hmem, key, hkey, rfl⟩, key, hkey, rfl⟩

variable (scope environment) in
theorem map_variableName_capitals :
    (capitals scope environment).map (fun p => variableName scope p.1) =
      ((table environment).filter fun p => isCapital scope p.1).map Prod.fst := by
  rw [capitals, List.map_filterMap, ← List.filterMap_eq_map]
  apply List.filterMap_congr
  intro p hp
  obtain ⟨key, hkey, hname⟩ := isCapital_iff.mp (List.mem_filter.mp hp).2
  simp [hkey, hname]

variable (scope environment) in
/-- Different capital variables have different keys. -/
theorem nodup_capitals : ((capitals scope environment).map Prod.fst).Nodup := by
  have hnames : (((table environment).filter fun p => isCapital scope p.1).map Prod.fst).Nodup :=
    (keyed_table environment).nodup.sublist (List.filter_sublist.map _)
  rw [← map_variableName_capitals] at hnames
  apply List.Nodup.of_map (variableName scope)
  rwa [List.map_map]

variable (scope key) in
theorem keyOf?_variableName :
    keyOf? scope (variableName scope key) = some (lowercase (uppercase key)) := by
  cases scope with
  | none => rfl
  | some scope =>
    have hchars : ((uppercase scope).toList ++ ['_']) ++ (uppercase key).toList =
        (variableName (some scope) key).toList := by
      simp [variableName, toString]
    simp only [keyOf?, List.isPrefixOf?_eq_some_iff_append_eq.mpr hchars, Option.map_some,
      String.ofList_toList]

theorem exists_lowercase_of_keyOf? (h : keyOf? scope name = some key) :
    ∃ rest, key = lowercase rest := by
  cases scope with
  | none => exact ⟨name, (Option.some.inj h).symm⟩
  | some scope =>
    obtain ⟨rest, -, rfl⟩ := Option.map_eq_some_iff.mp h
    exact ⟨String.ofList rest, rfl⟩

/-- A listed key of a setting is the key of the variable from which it is read. -/
theorem keyOf?_variableName_of_ofKey (h : keyOf? scope name = some key)
    (hsetting : (Setting.ofKey? key).isSome = true) :
    keyOf? scope (variableName scope key) = some key := by
  obtain ⟨rest, rfl⟩ := exists_lowercase_of_keyOf? h
  rw [keyOf?_variableName, lowercase_uppercase_of_small (Setting.isSmall_of_ofKey hsetting)]

variable (scope) in
theorem isCapital_of_ascii (h : ∀ c ∈ key.toList, c.toNat < 128) :
    isCapital scope (variableName scope key) = true := by
  rw [isCapital_iff]
  refine ⟨_, keyOf?_variableName scope key, ?_⟩
  cases scope <;> simp only [variableName, uppercase_lowercase_uppercase_of_ascii h]

theorem mem_keys_ofEnvironment :
    key ∈ (ofEnvironment scope environment).keys ↔
      ∃ p ∈ table environment, keyOf? scope p.1 = some key := by
  rw [ofEnvironment, Sorted.sort, (Sorted.perm_sortBy _ _).mem_iff, List.mem_filterMap]

theorem get?_ofEnvironment :
    (ofEnvironment scope environment).get? key = some value ↔
      (variableName scope key, value) ∈ table environment :=
  (Sorted.mem_iff_lookup (keyed_table environment)).symm

theorem FromCapital.readBack (h : FromCapital scope environment key) :
    ReadBack scope environment key := by
  obtain ⟨p, hp, hcapital, hkey⟩ := h
  obtain ⟨key', hkey', hname⟩ := isCapital_iff.mp hcapital
  obtain rfl := Option.some.inj (hkey.symm.trans hkey')
  refine ⟨p, hp, hkey, get?_ofEnvironment.mpr ?_⟩
  rw [hname]
  exact hp

/-- The key of a setting can only be read from a capital variable. -/
theorem ReadBack.fromCapital (h : ReadBack scope environment key)
    (hsetting : (Setting.ofKey? key).isSome = true) : FromCapital scope environment key := by
  obtain ⟨p, -, hkey, hvalue⟩ := h
  have hown := keyOf?_variableName_of_ofKey hkey hsetting
  exact ⟨_, get?_ofEnvironment.mp hvalue, isCapital_iff.mpr ⟨key, hown, rfl⟩, hown⟩

end Source

namespace Options
open Source

/-! ## Options -/

theorem ofProperties_filter (properties : List (String × String)) :
    ofProperties (properties.filter fun p => (Setting.ofKey? p.1).isSome) =
      ofProperties properties := by
  rw [ofProperties, ofProperties, List.foldl_filter]
  refine List.foldl_ext _ _ _ fun o p _ => ?_
  cases h : Setting.ofKey? p.1 with
  | none => simp [applyProperty, h]
  | some s => simp

/-- The keys of settings that have a value, each once. -/
def effective (source : Source) : List (String × String) :=
  source.keys.eraseDups.filterMap fun key =>
    if (Setting.ofKey? key).isSome then (source.get? key).map fun value => (key, value) else none

theorem mem_effective {source : Source} {key value : String} :
    (key, value) ∈ effective source ↔
      key ∈ source.keys ∧ (Setting.ofKey? key).isSome = true ∧ source.get? key = some value := by
  simp only [effective, List.mem_filterMap, List.mem_eraseDups]
  constructor
  · rintro ⟨k, hk, hrow⟩
    split at hrow
    next hsetting =>
      obtain ⟨v, hv, hpair⟩ := Option.map_eq_some_iff.mp hrow
      cases hpair
      exact ⟨hk, hsetting, hv⟩
    · cases hrow
  · rintro ⟨hk, hsetting, hv⟩
    exact ⟨key, hk, by simp [hsetting, hv]⟩

theorem keyed_effective {source : Source}
    (h : source.keys.Pairwise fun a b => (compare a b).isLE = true) :
    Sorted.Keyed (effective source) := by
  have hkeys : source.keys.eraseDups.Pairwise fun a b => compare a b = .lt :=
    Sorted.pairwise_lt_of_nodup (h.sublist (eraseDups_sublist _)) (nodup_eraseDups _)
  refine List.pairwise_filterMap.mpr (hkeys.imp fun {a b} hab p hp q hq => ?_)
  split at hp <;> split at hq
  · obtain ⟨v, -, rfl⟩ := Option.map_eq_some_iff.mp hp
    obtain ⟨w, -, rfl⟩ := Option.map_eq_some_iff.mp hq
    exact hab
  · cases hq
  · cases hp
  · cases hp

/-- A source with keys in order gives the options of its effective keys. -/
theorem ofSource_eq_effective {source : Source}
    (h : source.keys.Pairwise fun a b => (compare a b).isLE = true) :
    ofSource source = ofProperties (effective source) := by
  rw [ofSource, ← foldl_eraseDups_of_pairwise (P := Ordered) ?_ ?_ ?_ h ordered_default,
    effective, ofProperties, List.foldl_filterMap]
  · refine List.foldl_ext _ _ _ fun o key _ => ?_
    cases hsetting : Setting.ofKey? key with
    | none => cases source.get? key <;> simp [applyProperty, hsetting]
    | some s => cases source.get? key <;> simp
  · exact fun a b hab hba =>
      Std.LawfulEqCmp.eq_of_compare (Std.OrientedCmp.isLE_antisymm hab hba)
  · intro o key ho
    split
    · exact ho.applyProperty key _
    · exact ho
  · intro o key ho
    cases source.get? key with
    | none => rfl
    | some value => exact applyProperty_applyProperty ho key value

/-- The settings that are read from an environment are those of its capital variables. -/
theorem effective_ofEnvironment (scope : Option String) (environment : List (String × String)) :
    effective (.ofEnvironment scope environment) =
      (table (capitals scope environment)).filter fun p => (Setting.ofKey? p.1).isSome := by
  apply Sorted.eq_of_mem_iff_of_keyed
  · exact keyed_effective (Sorted.pairwise_sortBy_isLE _)
  · exact (keyed_table _).sublist List.filter_sublist
  rintro ⟨key, value⟩
  have htable := (perm_table (nodup_capitals scope environment)).mem_iff (a := (key, value))
  rw [mem_effective, mem_keys_ofEnvironment, get?_ofEnvironment, List.mem_filter, htable,
    mem_capitals]
  constructor
  · rintro ⟨⟨p, -, hp⟩, hsetting, hvalue⟩
    exact ⟨⟨hvalue, keyOf?_variableName_of_ofKey hp hsetting⟩, hsetting⟩
  · rintro ⟨⟨hvalue, hkey⟩, hsetting⟩
    exact ⟨⟨_, hvalue, hkey⟩, hsetting, hvalue⟩

theorem ofSource_ofEnvironment (scope : Option String) (environment : List (String × String)) :
    ofSource (.ofEnvironment scope environment) =
      ofSource (.ofProperties (capitals scope environment)) := by
  rw [ofSource_eq_effective (Sorted.pairwise_sortBy_isLE _), effective_ofEnvironment,
    ofProperties_filter, ofSource_ofProperties]

/-- Every variable in scope lists a key, and the value of a key is that of the variable with its
name in capitals. A key that comes from a capital variable is read back, and no other key of a
setting is, so that all keys are if all variables in scope are capital. Keys of ASCII characters have
capital variables. The options are those that the capital variables give. -/
theorem environment_read_from_capitals (scope : Option String)
    (environment : List (String × String)) :
    (∀ key, key ∈ (ofEnvironment scope environment).keys ↔
      ∃ p ∈ table environment, keyOf? scope p.1 = some key) ∧
    (∀ key value, (ofEnvironment scope environment).get? key = some value ↔
      (variableName scope key, value) ∈ table environment) ∧
    (∀ key, FromCapital scope environment key → ReadBack scope environment key) ∧
    (∀ key, (Setting.ofKey? key).isSome = true → ReadBack scope environment key →
      FromCapital scope environment key) ∧
    ((∀ p ∈ table environment, (keyOf? scope p.1).isSome = true → isCapital scope p.1 = true) →
      ∀ key ∈ (ofEnvironment scope environment).keys, ReadBack scope environment key) ∧
    (∀ key : String, (∀ c ∈ key.toList, c.toNat < 128) →
      isCapital scope (variableName scope key) = true) ∧
    ofSource (ofEnvironment scope environment) =
      ofSource (.ofProperties (capitals scope environment)) := by
  refine ⟨fun key => mem_keys_ofEnvironment, fun key value => get?_ofEnvironment,
    fun key hcapital => hcapital.readBack, fun key hsetting hread => hread.fromCapital hsetting,
    fun hall key hkey => ?_, fun key hascii => isCapital_of_ascii scope hascii,
    ofSource_ofEnvironment scope environment⟩
  obtain ⟨p, hp, hpkey⟩ := mem_keys_ofEnvironment.mp hkey
  have hcapital : FromCapital scope environment key := ⟨p, hp, hall p hp (by simp [hpkey]), hpkey⟩
  exact hcapital.readBack

/-- Two variables of one key, a key with a separator, a name in mixed case, and a variable out of
scope. -/
def shellVariables : List (String × String) :=
  [("APP_PARALLEL", "off"), ("APP_Parallel", "on"), ("APP_DISABLED.KINDS", "FDV003"),
   ("APP_Heuristic-Fallback", "off"), ("HOME", "/")]

theorem environment_read_from_capitals_shell :
    FromCapital (some "app") shellVariables "parallel" ∧
      ReadBack (some "app") shellVariables "parallel" ∧
      ofSource (.ofEnvironment (some "app") shellVariables) =
        ofSource (.ofProperties [("disabled.kinds", "FDV003"), ("parallel", "off")]) := by
  have hfrom : FromCapital (some "app") shellVariables "parallel" :=
    ⟨("APP_PARALLEL", "off"), by decide +kernel⟩
  have hcapitals : capitals (some "app") shellVariables =
      [("disabled.kinds", "FDV003"), ("parallel", "off")] := by
    decide +kernel
  obtain ⟨-, -, hread, -, -, -, hoptions⟩ :=
    environment_read_from_capitals (some "app") shellVariables
  rw [hcapitals] at hoptions
  exact ⟨hfrom, hread _ hfrom, hoptions⟩

/-- A variable in mixed case is listed, but its key has no value, and the option keeps its
default. -/
theorem mixed_case_variable_lost :
    let environment := [("APP_Parallel", "off")]
    let source := Source.ofEnvironment (some "app") environment
    source.keys = ["parallel"] ∧ source.get? "parallel" = none ∧
      ¬ ReadBack (some "app") environment "parallel" ∧ (ofSource source).parallel = true ∧
      (ofProperties [("parallel", "off")]).parallel = false := by
  intro environment source
  have hkeys : source.keys = ["parallel"] := by decide +kernel
  have hvalue : source.get? "parallel" = none := by decide +kernel
  refine ⟨hkeys, hvalue, ?_, ?_, by decide +kernel⟩
  · rintro ⟨p, -, -, hread⟩
    rw [hvalue] at hread
    cases hread
  · rw [ofSource, hkeys, List.foldl_cons, List.foldl_nil, hvalue]

end Options

end Injection
