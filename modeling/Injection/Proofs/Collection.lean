import Injection.Proofs.EntryPoints

/-! Collecting fragments neither loses nor repeats anything. Every dependency that a fragment of a
service mentions becomes either a dependency of the service or a finding. The lists of dependencies
are numbered anew, past the numbers taken by earlier fragments of the service, so that a number
stands for one list of one fragment. -/
namespace Injection

/-! ## Mentions -/

/-- A dependency that is mentioned by the fragment at a position of the stream. -/
structure Mention where
  position : Nat
  fragment : Fragment
  request : Request

/-- The dependencies mentioned by the fragments of one type, in the order of the stream. -/
def mentionsOf (fs : List Fragment) (i : Identity) : List Mention :=
  (fs.zipIdx.filter fun p => p.1.identity = i).flatMap fun p => p.1.requests.map (.mk p.2 p.1)

theorem mentionsOf_concat (fs : List Fragment) (f : Fragment) (i : Identity) :
    mentionsOf (fs ++ [f]) i =
      mentionsOf fs i ++ if f.identity = i then f.requests.map (.mk fs.length f) else [] := by
  unfold mentionsOf
  rw [List.zipIdx_append, List.filter_append, List.flatMap_append]
  by_cases hf : f.identity = i <;> simp [hf]

/-- The location of a mention is its own, or else that of its fragment. -/
def Mention.location (m : Mention) : Option Location := m.request.location.or m.fragment.location

theorem mem_mentionsOf {fs : List Fragment} {i : Identity} {m : Mention} :
    m ∈ mentionsOf fs i ↔
      fs[m.position]? = some m.fragment ∧ m.fragment.identity = i ∧
        m.request ∈ m.fragment.requests := by
  obtain ⟨n, f, r⟩ := m
  simp only [mentionsOf, List.mem_flatMap, List.mem_filter, decide_eq_true_eq, List.mem_map,
    Mention.mk.injEq]
  constructor
  · rintro ⟨⟨f, n⟩, ⟨hp, hid⟩, r, hr, rfl, rfl, rfl⟩
    exact ⟨List.mk_mem_zipIdx_iff_getElem?.mp hp, hid, hr⟩
  · rintro ⟨hp, hid, hr⟩
    exact ⟨(f, n), ⟨List.mk_mem_zipIdx_iff_getElem?.mpr hp, hid⟩, r, hr, rfl, rfl, rfl⟩

/-! ## Numbers of lists -/

namespace Parts

theorem group_lt_groupsUsed {f : Fragment} {r : Request} (hr : r ∈ f.requests) {g : Nat}
    (hg : r.style = .list g) : g < groupsUsed f := by
  unfold groupsUsed
  generalize f.requests = rs at hr ⊢
  induction rs using List.reverseRecOn with
  | nil => simp at hr
  | append_singleton rs q ih =>
    rw [List.foldl_append, List.foldl_cons, List.foldl_nil]
    rcases List.mem_append.mp hr with hr | hr
    · have := ih hr
      cases q.style with
      | field name => exact this
      | list k => exact lt_of_lt_of_le this (Nat.le_max_left ..)
    · rw [← List.mem_singleton.mp hr, hg]
      exact Nat.le_max_right ..

/-- How many numbers the fragments take together. -/
def totalGroups (fs : List Fragment) : Nat := fs.foldr (fun f n => groupsUsed f + n) 0

theorem totalGroups_concat (fs : List Fragment) (f : Fragment) :
    totalGroups (fs ++ [f]) = totalGroups fs + groupsUsed f := by
  induction fs with
  | nil => simp [totalGroups]
  | cons g fs ih =>
    simp only [totalGroups, List.cons_append, List.foldr_cons] at ih ⊢
    omega

theorem totalGroups_le_of_sublist {fs fs' : List Fragment} (h : fs.Sublist fs') :
    totalGroups fs ≤ totalGroups fs' := by
  induction h with
  | slnil => exact Nat.le_refl _
  | cons f _ ih =>
    simp only [totalGroups, List.foldr_cons] at ih ⊢
    omega
  | cons_cons f _ ih =>
    simp only [totalGroups, List.foldr_cons] at ih ⊢
    omega

end Parts

/-- The style with the number of its list moved up. -/
def Style.shift (n : Nat) : Style → Style
  | .field name => .field name
  | .list g => .list (g + n)

/-- A request of a fragment as it is collected after `n` numbers were taken. -/
def Request.placed (n : Nat) (f : Fragment) (r : Request) : Request :=
  { r with style := r.style.shift n, location := r.location.or f.location }

theorem Parts.placeRequests_cons (n : Nat) (f : Fragment) (fs : List Fragment) :
    placeRequests n (f :: fs) =
      f.requests.map (.placed n f) ++ placeRequests (n + groupsUsed f) fs :=
  rfl

theorem Parts.placeRequests_concat (n : Nat) (fs : List Fragment) (f : Fragment) :
    placeRequests n (fs ++ [f]) =
      placeRequests n fs ++ f.requests.map (.placed (n + totalGroups fs) f) := by
  induction fs generalizing n with
  | nil => simp [placeRequests_cons, placeRequests, totalGroups]
  | cons g fs ih =>
    rw [List.cons_append, placeRequests_cons, placeRequests_cons, ih, List.append_assoc,
      Nat.add_assoc]
    rfl

/-- The number that is added to those of the fragment at a position. -/
def groupsBefore (fs : List Fragment) (i : Identity) (n : Nat) : Nat :=
  Parts.totalGroups ((fs.take n).filter fun f => f.identity = i)

theorem groupsBefore_mono (fs : List Fragment) (i : Identity) {n k : Nat} (h : n ≤ k) :
    groupsBefore fs i n ≤ groupsBefore fs i k :=
  Parts.totalGroups_le_of_sublist ((List.take_prefix_take_left h).sublist.filter _)

theorem groupsBefore_succ {fs : List Fragment} {i : Identity} {n : Nat} {f : Fragment}
    (hf : fs[n]? = some f) (hid : f.identity = i) :
    groupsBefore fs i (n + 1) = groupsBefore fs i n + Parts.groupsUsed f := by
  rw [groupsBefore, List.take_add_one, hf, List.filter_append, Option.toList_some,
    List.filter_cons_of_pos (by simp [hid]), List.filter_nil, Parts.totalGroups_concat]
  rfl

/-- Lists of different fragments, and different lists of one fragment, have different numbers. -/
theorem group_eq_iff {fs : List Fragment} {i : Identity} {m m' : Mention}
    (hm : m ∈ mentionsOf fs i) (hm' : m' ∈ mentionsOf fs i) {g g' : Nat}
    (hg : m.request.style = .list g) (hg' : m'.request.style = .list g') :
    g + groupsBefore fs i m.position = g' + groupsBefore fs i m'.position ↔
      m.position = m'.position ∧ g = g' := by
  -- All numbers of a fragment are below those of the fragments after it.
  have hbelow : ∀ {m m' : Mention} {g : Nat}, m ∈ mentionsOf fs i → m.request.style = .list g →
      m.position < m'.position →
        g + groupsBefore fs i m.position < groupsBefore fs i m'.position := by
    intro m m' g hm hg hlt
    obtain ⟨hf, hid, hr⟩ := mem_mentionsOf.mp hm
    have hused := Parts.group_lt_groupsUsed hr hg
    have hnext := groupsBefore_succ hf hid
    have hmono := groupsBefore_mono fs i (show m.position + 1 ≤ m'.position from hlt)
    omega
  constructor
  · intro h
    rcases Nat.lt_trichotomy m.position m'.position with hlt | heq | hlt
    · have := hbelow hm hg hlt
      omega
    · rw [heq] at h
      exact ⟨heq, Nat.add_right_cancel h⟩
    · have := hbelow hm' hg' hlt
      omega
  · rintro ⟨hp, rfl⟩
    rw [hp]

/-- The requests of the fragments of a type, as they are collected, are the mentions of it. -/
theorem placeRequests_eq (fs : List Fragment) (i : Identity) :
    Parts.placeRequests 0 (fs.filter fun f => f.identity = i) =
      (mentionsOf fs i).map fun m =>
        m.request.placed (groupsBefore fs i m.position) m.fragment := by
  -- From the right: a fragment at the end changes no number that was given before it.
  induction fs using List.reverseRecOn with
  | nil => rfl
  | append_singleton fs f ih =>
    have hbefore : ∀ n ≤ fs.length, groupsBefore (fs ++ [f]) i n = groupsBefore fs i n := by
      intro n hn
      rw [groupsBefore, List.take_append_of_le_length hn]
      rfl
    have hold : ((mentionsOf fs i).map fun m =>
        m.request.placed (groupsBefore (fs ++ [f]) i m.position) m.fragment) =
        (mentionsOf fs i).map fun m =>
          m.request.placed (groupsBefore fs i m.position) m.fragment := by
      refine List.map_congr_left fun m hm => ?_
      have hlt := (List.getElem?_eq_some_iff.mp (mem_mentionsOf.mp hm).1).1
      rw [hbefore m.position (Nat.le_of_lt hlt)]
    rw [mentionsOf_concat, List.map_append, hold, ← ih, List.filter_append]
    by_cases hf : f.identity = i
    · have hlast : groupsBefore (fs ++ [f]) i fs.length =
          Parts.totalGroups (fs.filter fun f => f.identity = i) := by
        rw [hbefore _ (Nat.le_refl _), groupsBefore, List.take_length]
      rw [List.filter_cons_of_pos (by simp [hf]), List.filter_nil, Parts.placeRequests_concat,
        if_pos hf, List.map_map, Nat.zero_add, ← hlast]
      rfl
    · simp [hf]

/-! ## What becomes of a mention -/

/-- A field keeps its name; a list may get another number. -/
inductive Style.Renumbered : Style → Style → Prop where
  | field (name : String) : Renumbered (.field name) (.field name)
  | list (g g' : Nat) : Renumbered (.list g) (.list g')

theorem Style.shift_eq_list {n g : Nat} {style : Style} :
    style.shift n = .list g ↔ ∃ k, style = .list k ∧ k + n = g := by
  cases style <;> simp [shift]

theorem Style.renumbered_shift (n : Nat) (style : Style) : style.Renumbered (style.shift n) := by
  cases style with
  | field name => exact .field name
  | list g => exact .list g (g + n)

namespace Mention

/-- A mention becomes a dependency if its target can be read with the given type parameters, and
otherwise a finding about the type that has it. -/
inductive Becomes (params : List String) (i : Identity) (m : Mention) :
    Dependency ⊕ Finding → Prop where
  | dependency {target : Signature} {style : Style}
      (read : Signature.parse params m.request.target = .ok target)
      (renumbered : m.request.style.Renumbered style) :
      Becomes params i m (.inl ⟨target, m.request.wrapping, style, m.location⟩)
  | malformed {e : Signature.Malformed}
      (unread : Signature.parse params m.request.target = .error e) :
      Becomes params i m (.inr
        (.report .malformedSignature i (.text m.request.target) e.message m.location))

def outcome (fs : List Fragment) (params : List String) (i : Identity) (m : Mention) :
    Dependency ⊕ Finding :=
  match Signature.parse params m.request.target with
  | .ok target =>
    .inl ⟨target, m.request.wrapping, m.request.style.shift (groupsBefore fs i m.position),
      m.location⟩
  | .error e =>
    .inr (.report .malformedSignature i (.text m.request.target) e.message m.location)

theorem becomes_outcome (fs : List Fragment) (params : List String) (i : Identity) (m : Mention) :
    m.Becomes params i (m.outcome fs params i) := by
  unfold outcome
  split
  next read => exact .dependency read (Style.renumbered_shift _ _)
  next unread => exact .malformed unread

theorem outcome_eq_inl {fs : List Fragment} {params : List String} {i : Identity} {m : Mention}
    {d : Dependency} :
    m.outcome fs params i = .inl d ↔
      ∃ target, Signature.parse params m.request.target = .ok target ∧
        d = ⟨target, m.request.wrapping, m.request.style.shift (groupsBefore fs i m.position),
          m.location⟩ := by
  unfold outcome
  cases Signature.parse params m.request.target <;> simp [eq_comm]

end Mention

namespace Parts
variable {fs : List Fragment} {p : Parts}

theorem requests_eq (hp : p ∈ ofFragments fs) :
    p.requests = (mentionsOf fs p.identity).map fun m =>
      m.request.placed (groupsBefore fs p.identity m.position) m.fragment := by
  rw [requests, fragments_of_mem hp, placeRequests_eq]

theorem dependencies_eq (hp : p ∈ ofFragments fs) :
    p.dependencies = ((mentionsOf fs p.identity).map
      (Mention.outcome fs p.params p.identity)).filterMap Sum.getLeft? := by
  rw [dependencies, requests_eq hp, List.filterMap_map, List.filterMap_map]
  refine List.filterMap_congr fun m _ => ?_
  simp only [Function.comp_apply, read?, Mention.outcome, Request.placed]
  cases Signature.parse p.params m.request.target <;> rfl

theorem requestFindings_eq (hp : p ∈ ofFragments fs) :
    (p.requests.filterMap fun r => p.malformed? r.target r.location) =
      ((mentionsOf fs p.identity).map
        (Mention.outcome fs p.params p.identity)).filterMap Sum.getRight? := by
  rw [requests_eq hp, List.filterMap_map, List.filterMap_map]
  refine List.filterMap_congr fun m _ => ?_
  simp only [Function.comp_apply, malformed?, Mention.outcome, Request.placed]
  cases Signature.parse p.params m.request.target <;> rfl

theorem subject_malformed? {text : String} {location : Option Location} {f : Finding}
    (h : p.malformed? text location = some f) : f.subject = p.identity := by
  unfold malformed? at h
  split at h
  · cases h
  · cases h
    rfl

theorem subject_entryFindings : ∀ f ∈ p.entryFindings, f.subject = p.identity := by
  intro f hf
  obtain ⟨text, -, hf⟩ := List.mem_filterMap.mp hf
  exact subject_malformed? hf

theorem subject_serviceFindings : ∀ f ∈ p.serviceFindings, f.subject = p.identity := by
  intro f hf
  rcases List.mem_append.mp hf with hf | hf
  · obtain ⟨text, -, hf⟩ := List.mem_filterMap.mp hf
    exact subject_malformed? hf
  · obtain ⟨r, -, hf⟩ := List.mem_filterMap.mp hf
    exact subject_malformed? hf

theorem kind_eq_concrete (hp : p ∈ ofFragments fs) :
    p.kind = .concrete ↔ ∀ f ∈ fs, f.identity = p.identity → f.kind ≠ .contract := by
  have hany : (p.fragments.any fun f => f.kind = .contract) = true ↔
      ∃ f ∈ fs, f.identity = p.identity ∧ f.kind = .contract := by
    simp [fragments_of_mem hp]
  unfold kind
  by_cases h : (p.fragments.any fun f => f.kind = .contract) = true
  · rw [if_pos h]
    obtain ⟨f, hf, hid, hk⟩ := hany.mp h
    simpa using ⟨f, hf, hid, hk⟩
  · rw [if_neg h]
    rw [hany] at h
    simpa using h

theorem isService_iff (hp : p ∈ ofFragments fs) :
    p.isService ↔ (∃ f ∈ fs, f.identity = p.identity ∧ f.isMarked) ∧
      ∀ f ∈ fs, f.identity = p.identity → f.kind ≠ .contract := by
  rw [isService, Bool.and_eq_true, decide_eq_true_eq, kind_eq_concrete hp, and_comm,
    fragments_of_mem hp]
  simp

theorem params_eq (hp : p ∈ ofFragments fs) :
    (fs.find? fun f => f.identity = p.identity).map Fragment.params = some p.params := by
  obtain ⟨⟨f, hf, hid⟩, hparts⟩ := mem_ofFragments.mp hp
  rw [params, hparts, List.head?_filter]
  cases hfirst : fs.find? fun f => f.identity = p.identity with
  | some first => rfl
  | none => simpa [hid] using List.find?_eq_none.mp hfirst f hf

end Parts

/-! ## Snapshots -/

namespace Snapshot
variable {fuel : Nat} {fs : List Fragment} {a : Snapshot}

theorem exists_parts (ha : collect fuel fs = some a) {s : Service} (hs : s ∈ a.services) :
    ∃ p order contracts, (p, order) ∈ declaredIn fs ∧ p ∈ Parts.ofFragments fs ∧
      s = p.service order contracts := by
  obtain ⟨⟨p, order⟩, hp, contracts, rfl⟩ := exists_of_forall₂_right (forall₂_services ha) hs
  exact ⟨p, order, contracts, hp, mem_partsOf.mp ⟨order, (List.mem_filter.mp hp).1⟩, rfl⟩

theorem about_findings (ha : collect fuel fs = some a) {p : Parts} {order : Nat}
    (hp : (p, order) ∈ declaredIn fs) :
    Finding.about p.identity a.findings = p.entryFindings ++ p.serviceFindings := by
  have hdeclared : ((declaredIn fs).map fun p => p.1.identity).Nodup :=
    (nodup_partsOf fs).sublist (List.filter_sublist.map _)
  rw [collect_eq] at ha
  obtain ⟨services, -, rfl⟩ := Option.map_eq_some_iff.mp ha
  rw [Finding.about, List.filter_append]
  congr 1
  · exact filter_flatMap_of_nodup (nodup_partsOf fs) (fun p _ => p.1.subject_entryFindings)
      (List.mem_filter.mp hp).1
  · exact filter_flatMap_of_nodup hdeclared (fun p _ => p.1.subject_serviceFindings) hp

theorem mem_services (ha : collect fuel fs = some a) {i : Identity} :
    i ∈ a.services.map Service.identity ↔
      (∃ f ∈ fs, f.identity = i ∧ f.isMarked) ∧
        ∀ f ∈ fs, f.identity = i → f.kind ≠ .contract := by
  obtain ⟨services, hs, rfl⟩ := Option.map_eq_some_iff.mp ha
  have hservices := map_identity_servicesOf hs
  change i ∈ services.map Service.identity ↔ _
  rw [hservices]
  constructor
  · intro hi
    obtain ⟨⟨p, order⟩, hp, rfl⟩ := List.mem_map.mp hi
    obtain ⟨hp, hservice⟩ := List.mem_filter.mp hp
    exact (Parts.isService_iff (mem_partsOf.mp ⟨order, hp⟩)).mp hservice
  · intro hi
    obtain ⟨f, hf, hid, -⟩ := hi.1
    have hp : ⟨i, fs.filter fun f => f.identity = i⟩ ∈ Parts.ofFragments fs :=
      Parts.mem_ofFragments.mpr ⟨⟨f, hf, hid⟩, rfl⟩
    obtain ⟨order, horder⟩ := mem_partsOf.mpr hp
    exact List.mem_map.mpr ⟨_, List.mem_filter.mpr ⟨horder, (Parts.isService_iff hp).mpr hi⟩, rfl⟩

/-- Identities that stand in the order in which a stream of fragments first names them. -/
structure Appearing (fs : List Fragment) (ids : List Identity) : Prop where
  nodup : ids.Nodup
  sorted : ids.Pairwise fun i j =>
    (fs.map Fragment.identity).idxOf i < (fs.map Fragment.identity).idxOf j

theorem appearing_eraseDups (fs : List Fragment) :
    Appearing fs (fs.map Fragment.identity).eraseDups :=
  ⟨nodup_eraseDups _, pairwise_idxOf_eraseDups _⟩

theorem Appearing.sublist {ids ids' : List Identity} (h : Appearing fs ids)
    (hs : ids'.Sublist ids) : Appearing fs ids' :=
  ⟨h.nodup.sublist hs, h.sorted.sublist hs⟩

/-- Dependencies have the number of one list exactly if they come from one list of one fragment. -/
def Numbered (outcomes : List (Mention × (Dependency ⊕ Finding))) : Prop :=
  ∀ x ∈ outcomes, ∀ y ∈ outcomes, ∀ d e, x.2 = .inl d → y.2 = .inl e →
    ∀ g h, d.style = .list g → e.style = .list h →
      (g = h ↔ x.1.position = y.1.position ∧ x.1.request.style = y.1.request.style)

/-- The texts of a type that are signatures other than targets of dependencies. -/
def otherTexts (fs : List Fragment) (i : Identity) : List String :=
  let own := fs.filter fun f => f.identity = i
  ((own.filterMap Fragment.base).find? fun b => Text.trim b ≠ "").toList ++
    own.flatMap Fragment.contracts ++ own.flatMap Fragment.excluded

/-- Everything that the fragments say about dependencies is in the service or reported: what became
of the mentions, one by one and in order, are its dependencies and, after what was found about
other texts, the findings about it. -/
def Accounts (fs : List Fragment) (a : Snapshot) (s : Service) : Prop :=
  ∃ outcomes, List.Forall₂ (Mention.Becomes s.params s.identity) (mentionsOf fs s.identity)
      outcomes ∧
    s.dependencies = outcomes.filterMap Sum.getLeft? ∧
    Finding.about s.identity a.findings =
      ((otherTexts fs s.identity).filterMap fun text =>
        match Signature.parse s.params text with
        | .ok _ => none
        | .error e => some (.report .malformedSignature s.identity (.text text) e.message)) ++
      outcomes.filterMap Sum.getRight? ∧
    Numbered ((mentionsOf fs s.identity).zip outcomes)

/-- The snapshot holds what the fragments say, all of it and once. -/
structure Faithful (fs : List Fragment) (a : Snapshot) : Prop where
  entries : Appearing fs (a.catalogue.entries.map Entry.identity)
  entered : ∀ i, i ∈ a.catalogue.entries.map Entry.identity ↔ ∃ f ∈ fs, f.identity = i
  services : Appearing fs (a.services.map Service.identity)
  declared : ∀ i, i ∈ a.services.map Service.identity ↔
    (∃ f ∈ fs, f.identity = i ∧ f.isMarked) ∧ ∀ f ∈ fs, f.identity = i → f.kind ≠ .contract
  params : ∀ s ∈ a.services,
    (fs.find? fun f => f.identity = s.identity).map Fragment.params = some s.params
  accounts : ∀ s ∈ a.services, Accounts fs a s

theorem map_identity_entries (ha : collect fuel fs = some a) :
    a.catalogue.entries.map Entry.identity = (fs.map Fragment.identity).eraseDups := by
  rw [catalogue_of_collect ha, entries_catalogueOf, List.map_map]
  exact map_identity_partsOf fs

theorem sublist_services (ha : collect fuel fs = some a) :
    (a.services.map Service.identity).Sublist (fs.map Fragment.identity).eraseDups := by
  obtain ⟨services, hs, rfl⟩ := Option.map_eq_some_iff.mp ha
  have hservices := map_identity_servicesOf hs
  change (services.map Service.identity).Sublist _
  rw [hservices, ← map_identity_partsOf]
  exact List.filter_sublist.map _

theorem numbered_outcomes (fs : List Fragment) (params : List String) (i : Identity) :
    Numbered ((mentionsOf fs i).zip ((mentionsOf fs i).map (Mention.outcome fs params i))) := by
  rw [← List.map_prod_left_eq_zip]
  intro x hx y hy d e hd he g h hg hh
  obtain ⟨m, hm, rfl⟩ := List.mem_map.mp hx
  obtain ⟨m', hm', rfl⟩ := List.mem_map.mp hy
  obtain ⟨target, -, rfl⟩ := Mention.outcome_eq_inl.mp hd
  obtain ⟨target', -, rfl⟩ := Mention.outcome_eq_inl.mp he
  obtain ⟨k, hk, rfl⟩ := Style.shift_eq_list.mp hg
  obtain ⟨k', hk', rfl⟩ := Style.shift_eq_list.mp hh
  rw [group_eq_iff hm hm' hk hk', hk, hk', Style.list.injEq]

theorem accounts_of_collect (ha : collect fuel fs = some a) {s : Service} (hs : s ∈ a.services) :
    Accounts fs a s := by
  obtain ⟨p, order, contracts, hdeclared, hp, rfl⟩ := exists_parts ha hs
  refine ⟨(mentionsOf fs p.identity).map (Mention.outcome fs p.params p.identity), ?_, ?_, ?_, ?_⟩
  · rw [List.forall₂_map_right_iff]
    exact List.forall₂_same.mpr fun m _ => m.becomes_outcome fs p.params p.identity
  · exact Parts.dependencies_eq hp
  · have htexts : otherTexts fs p.identity =
        p.baseText.toList ++ p.contractTexts ++ p.excludedTexts := by
      rw [otherTexts, ← Parts.fragments_of_mem hp]
      rfl
    change Finding.about p.identity a.findings = _
    rw [about_findings ha hdeclared, Parts.entryFindings, Parts.serviceFindings,
      Parts.requestFindings_eq hp, ← List.append_assoc, ← List.filterMap_append, ← htexts]
    rfl
  · exact numbered_outcomes fs p.params p.identity

/-- Collecting loses and repeats nothing. -/
theorem collect_faithful (ha : collect fuel fs = some a) : a.Faithful fs where
  entries := by
    rw [map_identity_entries ha]
    exact appearing_eraseDups fs
  entered i := by
    rw [map_identity_entries ha, List.mem_eraseDups, List.mem_map]
  services := (appearing_eraseDups fs).sublist (sublist_services ha)
  declared i := mem_services ha
  params s hs := by
    obtain ⟨p, order, contracts, -, hp, rfl⟩ := exists_parts ha hs
    exact Parts.params_eq hp
  accounts s hs := accounts_of_collect ha hs

/-- The same fragment twice, with one of another class between. The target of its second list cannot
be read. -/
def cacheFragments : List Fragment :=
  let cache : Fragment :=
    { name := "Cache", lifetime := some .singleton, location := some ⟨"cache", 3, 1⟩
      requests :=
        [{ target := "IClock", style := .list 0 }, { target := "IStore<", style := .list 1 },
         { target := "ILog", style := .field "log" }] }
  [cache, { name := "Clock", contracts := ["IClock"] }, cache,
   { name := "IClock", kind := .contract }]

/-- The number of the list that was left out is not given to the fragment that follows. -/
theorem collect_faithful_cache :
    ∃ a, collect 9 cacheFragments = some a ∧ a.Faithful cacheFragments ∧
      a.catalogue.entries.map Entry.identity = [⟨"Cache", 0⟩, ⟨"Clock", 0⟩, ⟨"IClock", 0⟩] ∧
      (a.services.map fun s => (s.identity, s.dependencies.map fun d => (d.target, d.style))) =
        [(⟨"Cache", 0⟩,
          [(.named "IClock", .list 0), (.named "ILog", .field "log"),
           (.named "IClock", .list 2), (.named "ILog", .field "log")])] ∧
      Finding.problems a.findings =
        [(.malformedSignature, ⟨"Cache", 0⟩, .text "IStore<"),
         (.malformedSignature, ⟨"Cache", 0⟩, .text "IStore<")] := by
  have hsome : (collect 9 cacheFragments).isSome := by decide +kernel
  obtain ⟨a, ha⟩ := Option.isSome_iff_exists.mp hsome
  refine ⟨a, ha, collect_faithful ha, ?_⟩
  clear hsome
  revert a
  change ∀ a ∈ collect 9 cacheFragments, _
  decide +kernel

end Snapshot

end Injection
