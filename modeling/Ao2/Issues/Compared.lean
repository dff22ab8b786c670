import Ao2.Issues.Classification
import Ao2.Selection
import Ao2.Texts
import Ao2.Texts.Ascii
import Mathlib.Data.List.Perm.Basic

/-!
# What the classification of a repair says

## Main results

* `failureMap_eq_ok` — which failures have a map, and which one
* `compare_eq` — the lists of a comparison are parts of the identifiers
-/

namespace Ao2

namespace Issues

namespace Classification

/-! ### Failures by identifiers -/

/-- A failure with a bounded identifier and a digest. -/
def IsChecked (f : Failure) : Prop :=
  validateText "failure identifier" f.identifier maxIdentifierBytes = .ok () ∧
    isDigest f.signatureSha256 = true

/-- Failures that have a map. -/
def HasMap (failures : List Failure) : Prop :=
  (∀ f ∈ failures, IsChecked f) ∧ (failures.map Failure.identifier).Nodup

/-- The map of some failures. -/
def mapOf (failures : List Failure) : List (String × Failure) :=
  failures.map fun f => (f.identifier, f)

theorem keys_mapOf (failures : List Failure) :
    (mapOf failures).map Prod.fst = failures.map Failure.identifier := by
  rw [mapOf, List.map_map]
  rfl

theorem lookup_isSome_iff {members : List (String × Failure)} {key : String} :
    (members.lookup key).isSome = true ↔ key ∈ members.map Prod.fst := by
  constructor
  · intro h
    obtain ⟨f, hf⟩ := Option.isSome_iff_exists.mp h
    obtain ⟨before, after, rfl, -⟩ := List.lookup_eq_some_iff.mp hf
    exact List.mem_map.mpr ⟨(key, f), List.mem_append_right _ List.mem_cons_self, rfl⟩
  · intro h
    obtain ⟨f, hf, -⟩ := exists_lookup h
    rw [hf]
    rfl

theorem insertFailure_eq_ok {result result' : List (String × Failure)} {f : Failure} :
    insertFailure result f = .ok result' ↔
      IsChecked f ∧ f.identifier ∉ result.map Prod.fst ∧ result' = result ++ [(f.identifier, f)] := by
  simp only [insertFailure, seq_eq_ok, bailIf_eq_ok, Bool.not_eq_false, lookup_isSome_iff,
    Except.ok.injEq, IsChecked, and_assoc]
  constructor
  · rintro ⟨ht, hd, hn, h⟩
    exact ⟨ht, hd, hn, h.symm⟩
  · rintro ⟨ht, hd, hn, h⟩
    exact ⟨ht, hd, hn, h.symm⟩

theorem foldlM_insertFailure {failures : List Failure} {seen result : List (String × Failure)}
    (hseen : (seen.map Prod.fst).Nodup) : failures.foldlM insertFailure seen = .ok result ↔
      (∀ f ∈ failures, IsChecked f) ∧
        (seen.map Prod.fst ++ failures.map Failure.identifier).Nodup ∧
        result = seen ++ mapOf failures := by
  induction failures generalizing seen with
  | nil =>
    rw [List.foldlM_nil, List.map_nil, List.append_nil, mapOf, List.map_nil, List.append_nil]
    constructor
    · intro h
      exact ⟨fun _ h => absurd h List.not_mem_nil, hseen, (Except.ok.inj h).symm⟩
    · rintro ⟨-, -, rfl⟩
      rfl
  | cons f failures ih =>
    rw [List.foldlM_cons, bind_eq_ok, List.forall_mem_cons, List.map_cons]
    have hkeys : (seen ++ [(f.identifier, f)]).map Prod.fst ++ failures.map Failure.identifier =
        seen.map Prod.fst ++ f.identifier :: failures.map Failure.identifier := by
      rw [List.map_append, List.append_assoc]
      rfl
    have hmap : seen ++ mapOf (f :: failures) = seen ++ [(f.identifier, f)] ++ mapOf failures := by
      rw [List.append_assoc]
      rfl
    constructor
    · rintro ⟨next, hnext, hrest⟩
      obtain ⟨hchecked, hnew, rfl⟩ := insertFailure_eq_ok.mp hnext
      have hnodup : ((seen ++ [(f.identifier, f)]).map Prod.fst).Nodup := by
        rw [List.map_append]
        exact hseen.append (List.nodup_singleton _)
          (List.disjoint_singleton.mpr hnew)
      obtain ⟨hall, hall', rfl⟩ := (ih hnodup).mp hrest
      rw [hkeys] at hall'
      exact ⟨⟨hchecked, hall⟩, hall', hmap.symm⟩
    · rintro ⟨⟨hchecked, hall⟩, hnodup, rfl⟩
      rw [← hkeys] at hnodup
      have hnodup' := (List.nodup_append.mp hnodup).1
      have hnew : f.identifier ∉ seen.map Prod.fst := by
        intro hmem
        rw [List.map_append] at hnodup'
        exact (List.nodup_append.mp hnodup').2.2 _ hmem _ (List.mem_singleton_self _) rfl
      exact ⟨_, insertFailure_eq_ok.mpr ⟨hchecked, hnew, rfl⟩, (ih hnodup').mpr ⟨hall, hnodup, hmap⟩⟩

/-- **Which failures have a map, and which one.** -/
theorem failureMap_eq_ok {failures : List Failure} {result : List (String × Failure)} :
    failureMap failures = .ok result ↔ HasMap failures ∧ result = mapOf failures := by
  have hnil : (([] : List (String × Failure)).map Prod.fst).Nodup := List.nodup_nil
  rw [failureMap, foldlM_insertFailure hnil, List.map_nil, List.nil_append, List.nil_append,
    HasMap, and_assoc]

theorem HasMap.perm {failures failures' : List Failure} (hperm : failures.Perm failures')
    (h : HasMap failures) : HasMap failures' :=
  ⟨fun f hf => h.1 f (hperm.mem_iff.mpr hf), (hperm.map _).nodup_iff.mp h.2⟩

theorem lookup_mapOf {failures : List Failure} (h : HasMap failures) {key : String} {f : Failure} :
    (mapOf failures).lookup key = some f ↔ f ∈ failures ∧ f.identifier = key := by
  constructor
  · intro hf
    obtain ⟨before, after, heq, -⟩ := List.lookup_eq_some_iff.mp hf
    have hmem : (key, f) ∈ mapOf failures := by
      rw [heq]
      exact List.mem_append_right _ List.mem_cons_self
    obtain ⟨g, hg, hpair⟩ := List.mem_map.mp hmem
    cases hpair
    exact ⟨hg, rfl⟩
  · rintro ⟨hf, rfl⟩
    exact lookup_of_nodup ((keys_mapOf failures).symm ▸ h.2) (List.mem_map.mpr ⟨f, hf, rfl⟩)

theorem lookup_mapOf_eq_none {failures : List Failure} {key : String} :
    (mapOf failures).lookup key = none ↔ key ∉ failures.map Failure.identifier := by
  rw [← Option.not_isSome_iff_eq_none, lookup_isSome_iff, keys_mapOf]

/-! ### The lists -/

section

variable (baseline candidate : List (String × Failure))

def sharedOf (identifier : String) : Option Failure :=
  match baseline.lookup identifier, candidate.lookup identifier with
  | some b, some c => if b.signatureSha256 = c.signatureSha256 then some c else none
  | _, _ => none

def resolvedOf (identifier : String) : Option Failure :=
  match baseline.lookup identifier, candidate.lookup identifier with
  | some b, none => some b
  | _, _ => none

def changedOf (identifier : String) : Option ChangedFailure :=
  match baseline.lookup identifier, candidate.lookup identifier with
  | some b, some c =>
    if b.signatureSha256 = c.signatureSha256 then none
    else some ⟨identifier, b.signatureSha256, c.signatureSha256⟩
  | _, _ => none

def candidateOnlyOf (identifier : String) : Option Failure :=
  match baseline.lookup identifier, candidate.lookup identifier with
  | none, some c => some c
  | _, _ => none

theorem push_eq (lists : Comparison) (identifier : String) :
    lists.push baseline candidate identifier =
      ⟨lists.shared ++ (sharedOf baseline candidate identifier).toList,
        lists.resolved ++ (resolvedOf baseline candidate identifier).toList,
        lists.changed ++ (changedOf baseline candidate identifier).toList,
        lists.candidateOnly ++ (candidateOnlyOf baseline candidate identifier).toList⟩ := by
  obtain ⟨shared, resolved, changed, candidateOnly⟩ := lists
  rw [Comparison.push, sharedOf, resolvedOf, changedOf, candidateOnlyOf]
  cases baseline.lookup identifier with
  | none => cases candidate.lookup identifier <;> simp
  | some b =>
    cases candidate.lookup identifier with
    | none => simp
    | some c =>
      by_cases hsame : b.signatureSha256 = c.signatureSha256
      · simp [hsame]
      · simp [hsame]

theorem foldl_push (identifiers : List String) (lists : Comparison) :
    identifiers.foldl (Comparison.push baseline candidate) lists =
      ⟨lists.shared ++ identifiers.filterMap (sharedOf baseline candidate),
        lists.resolved ++ identifiers.filterMap (resolvedOf baseline candidate),
        lists.changed ++ identifiers.filterMap (changedOf baseline candidate),
        lists.candidateOnly ++ identifiers.filterMap (candidateOnlyOf baseline candidate)⟩ := by
  induction identifiers generalizing lists with
  | nil => simp
  | cons identifier identifiers ih =>
    have hcons {α : Type} (f : String → Option α) : (identifier :: identifiers).filterMap f =
        (f identifier).toList ++ identifiers.filterMap f := by
      rw [List.filterMap_cons]
      cases f identifier <;> rfl
    rw [List.foldl_cons, ih, push_eq]
    simp only [hcons, List.append_assoc]

/-- **The lists of a comparison** are what the identifiers of both maps give. -/
theorem compare_eq : compare baseline candidate =
    ⟨(identifiersOf baseline candidate).filterMap (sharedOf baseline candidate),
      (identifiersOf baseline candidate).filterMap (resolvedOf baseline candidate),
      (identifiersOf baseline candidate).filterMap (changedOf baseline candidate),
      (identifiersOf baseline candidate).filterMap (candidateOnlyOf baseline candidate)⟩ := by
  rw [compare, foldl_push]
  simp

/-- What became of an identifier. -/
inductive Fate where
  | shared
  | resolved
  | changed
  | candidateOnly

def fateOf (identifier : String) : Option Fate :=
  match baseline.lookup identifier, candidate.lookup identifier with
  | some b, some c => some (if b.signatureSha256 = c.signatureSha256 then .shared else .changed)
  | some _, none => some .resolved
  | none, some _ => some .candidateOnly
  | none, none => none

end

variable {baseline candidate : List (String × Failure)} {identifier : String}

theorem sharedOf_isSome : (sharedOf baseline candidate identifier).isSome = true ↔
    fateOf baseline candidate identifier = some .shared := by
  rw [sharedOf, fateOf]
  cases baseline.lookup identifier <;> cases candidate.lookup identifier <;> simp

theorem resolvedOf_isSome : (resolvedOf baseline candidate identifier).isSome = true ↔
    fateOf baseline candidate identifier = some .resolved := by
  rw [resolvedOf, fateOf]
  cases baseline.lookup identifier <;> cases candidate.lookup identifier <;> simp
  split_ifs <;> simp

theorem changedOf_isSome : (changedOf baseline candidate identifier).isSome = true ↔
    fateOf baseline candidate identifier = some .changed := by
  rw [changedOf, fateOf]
  cases baseline.lookup identifier <;> cases candidate.lookup identifier <;> simp

theorem candidateOnlyOf_isSome : (candidateOnlyOf baseline candidate identifier).isSome = true ↔
    fateOf baseline candidate identifier = some .candidateOnly := by
  rw [candidateOnlyOf, fateOf]
  cases baseline.lookup identifier <;> cases candidate.lookup identifier <;> simp
  split_ifs <;> simp

/-- What is given for identifiers, each with its own identifier, are those identifiers that give
something. -/
theorem map_filterMap {α : Type} {f : String → Option α} {key : α → String}
    (hkey : ∀ identifier a, f identifier = some a → key a = identifier) (identifiers : List String) :
    (identifiers.filterMap f).map key = identifiers.filter fun i => (f i).isSome := by
  induction identifiers with
  | nil => rfl
  | cons identifier identifiers ih =>
    rw [List.filterMap_cons, List.filter_cons]
    cases h : f identifier with
    | none => exact ih
    | some a =>
      rw [List.map_cons, hkey _ _ h, ih]
      rfl

/-! ### What the lists say -/

/-- The identifiers on the lists, one list after the other. -/
def Comparison.identifiers (lists : Comparison) : List String :=
  lists.shared.map Failure.identifier ++ lists.resolved.map Failure.identifier ++
    lists.changed.map ChangedFailure.identifier ++ lists.candidateOnly.map Failure.identifier

/-- **A comparison is exact**: each identifier of either document is on one list, once, and the
lists say what they mean. -/
structure Exact (baseline candidate : List Failure) (lists : Comparison) : Prop where
  once : lists.identifiers.Nodup
  covers : ∀ identifier, identifier ∈ lists.identifiers ↔
    identifier ∈ baseline.map Failure.identifier ∨ identifier ∈ candidate.map Failure.identifier
  shared : ∀ f, f ∈ lists.shared ↔ f ∈ baseline ∧ f ∈ candidate
  resolved : ∀ f, f ∈ lists.resolved ↔
    f ∈ baseline ∧ f.identifier ∉ candidate.map Failure.identifier
  changed : ∀ c, c ∈ lists.changed ↔ ⟨c.identifier, c.baselineSignatureSha256⟩ ∈ baseline ∧
    ⟨c.identifier, c.candidateSignatureSha256⟩ ∈ candidate ∧
    c.baselineSignatureSha256 ≠ c.candidateSignatureSha256
  candidateOnly : ∀ f, f ∈ lists.candidateOnly ↔
    f ∈ candidate ∧ f.identifier ∉ baseline.map Failure.identifier

section

variable {bs cs : List Failure}

theorem mem_identifiersOf {identifier : String} : identifier ∈ identifiersOf (mapOf bs) (mapOf cs) ↔
    identifier ∈ bs.map Failure.identifier ∨ identifier ∈ cs.map Failure.identifier := by
  rw [identifiersOf, Finset.mem_sort, List.mem_toFinset, List.mem_append, keys_mapOf, keys_mapOf]

theorem nodup_identifiersOf : (identifiersOf (mapOf bs) (mapOf cs)).Nodup := Finset.sort_nodup _ _

theorem fateOf_ne_none {identifier : String} :
    fateOf (mapOf bs) (mapOf cs) identifier ≠ none ↔
      identifier ∈ bs.map Failure.identifier ∨ identifier ∈ cs.map Failure.identifier := by
  have hnone : fateOf (mapOf bs) (mapOf cs) identifier = none ↔
      (mapOf bs).lookup identifier = none ∧ (mapOf cs).lookup identifier = none := by
    rw [fateOf]
    cases (mapOf bs).lookup identifier <;> cases (mapOf cs).lookup identifier <;> simp
  rw [Ne, hnone, lookup_mapOf_eq_none, lookup_mapOf_eq_none, ← not_or, not_not]

variable (hbs : HasMap bs) (hcs : HasMap cs)

include hbs hcs

theorem sharedOf_eq_some {identifier : String} {f : Failure} :
    sharedOf (mapOf bs) (mapOf cs) identifier = some f ↔
      f ∈ bs ∧ f ∈ cs ∧ f.identifier = identifier := by
  rw [sharedOf]
  constructor
  · intro h
    cases hb : (mapOf bs).lookup identifier with
    | none =>
      rw [hb] at h
      cases h
    | some b =>
      cases hc : (mapOf cs).lookup identifier with
      | none =>
        rw [hb, hc] at h
        cases h
      | some c =>
        rw [hb, hc] at h
        dsimp only at h
        split_ifs at h with hsame
        obtain rfl := Option.some.inj h
        obtain ⟨hbmem, hbid⟩ := (lookup_mapOf hbs).mp hb
        obtain ⟨hcmem, hcid⟩ := (lookup_mapOf hcs).mp hc
        have heq : b = c := by
          obtain ⟨bid, bsig⟩ := b
          obtain ⟨cid, csig⟩ := c
          exact congrArg₂ Failure.mk (hbid.trans hcid.symm) hsame
        exact ⟨heq ▸ hbmem, hcmem, hcid⟩
  · rintro ⟨hb, hc, hid⟩
    rw [(lookup_mapOf hbs).mpr ⟨hb, hid⟩, (lookup_mapOf hcs).mpr ⟨hc, hid⟩]
    exact if_pos rfl

omit hcs in
theorem resolvedOf_eq_some {identifier : String} {f : Failure} :
    resolvedOf (mapOf bs) (mapOf cs) identifier = some f ↔
      f ∈ bs ∧ f.identifier = identifier ∧ identifier ∉ cs.map Failure.identifier := by
  rw [← and_assoc, ← lookup_mapOf hbs, ← lookup_mapOf_eq_none, resolvedOf]
  cases (mapOf bs).lookup identifier <;> cases (mapOf cs).lookup identifier <;> simp

omit hbs in
theorem candidateOnlyOf_eq_some {identifier : String} {f : Failure} :
    candidateOnlyOf (mapOf bs) (mapOf cs) identifier = some f ↔
      f ∈ cs ∧ f.identifier = identifier ∧ identifier ∉ bs.map Failure.identifier := by
  rw [← and_assoc, ← lookup_mapOf hcs, ← lookup_mapOf_eq_none, candidateOnlyOf]
  cases (mapOf bs).lookup identifier <;> cases (mapOf cs).lookup identifier <;> simp

theorem changedOf_eq_some {identifier : String} {c : ChangedFailure} :
    changedOf (mapOf bs) (mapOf cs) identifier = some c ↔ c.identifier = identifier ∧
      ⟨c.identifier, c.baselineSignatureSha256⟩ ∈ bs ∧
      ⟨c.identifier, c.candidateSignatureSha256⟩ ∈ cs ∧
      c.baselineSignatureSha256 ≠ c.candidateSignatureSha256 := by
  rw [changedOf]
  constructor
  · intro h
    cases hb : (mapOf bs).lookup identifier with
    | none =>
      rw [hb] at h
      cases h
    | some b =>
      cases hc : (mapOf cs).lookup identifier with
      | none =>
        rw [hb, hc] at h
        cases h
      | some f =>
        rw [hb, hc] at h
        dsimp only at h
        split_ifs at h with hsame
        obtain rfl := Option.some.inj h
        obtain ⟨hbmem, hbid⟩ := (lookup_mapOf hbs).mp hb
        obtain ⟨hfmem, hfid⟩ := (lookup_mapOf hcs).mp hc
        refine ⟨rfl, ?_, ?_, hsame⟩
        · rw [← hbid]
          exact hbmem
        · rw [← hfid]
          exact hfmem
  · rintro ⟨rfl, hb, hc, hne⟩
    rw [(lookup_mapOf hbs).mpr ⟨hb, rfl⟩, (lookup_mapOf hcs).mpr ⟨hc, rfl⟩]
    exact if_neg hne

/-- The identifiers on the lists, by what became of them. -/
theorem identifiers_compare : (compare (mapOf bs) (mapOf cs)).identifiers =
    ((identifiersOf (mapOf bs) (mapOf cs)).filter fun i =>
        (sharedOf (mapOf bs) (mapOf cs) i).isSome) ++
      ((identifiersOf (mapOf bs) (mapOf cs)).filter fun i =>
        (resolvedOf (mapOf bs) (mapOf cs) i).isSome) ++
      ((identifiersOf (mapOf bs) (mapOf cs)).filter fun i =>
        (changedOf (mapOf bs) (mapOf cs) i).isSome) ++
      ((identifiersOf (mapOf bs) (mapOf cs)).filter fun i =>
        (candidateOnlyOf (mapOf bs) (mapOf cs) i).isSome) := by
  rw [Comparison.identifiers, compare_eq,
    map_filterMap fun _ _ h => ((sharedOf_eq_some hbs hcs).mp h).2.2,
    map_filterMap fun _ _ h => ((resolvedOf_eq_some hbs).mp h).2.1,
    map_filterMap fun _ _ h => ((changedOf_eq_some hbs hcs).mp h).1,
    map_filterMap fun _ _ h => ((candidateOnlyOf_eq_some hcs).mp h).2.1]

theorem mem_identifiers_compare {identifier : String} :
    identifier ∈ (compare (mapOf bs) (mapOf cs)).identifiers ↔
      identifier ∈ bs.map Failure.identifier ∨ identifier ∈ cs.map Failure.identifier := by
  rw [identifiers_compare hbs hcs]
  simp only [List.mem_append, List.mem_filter, sharedOf_isSome, resolvedOf_isSome, changedOf_isSome,
    candidateOnlyOf_isSome, mem_identifiersOf]
  constructor
  · rintro (((⟨h, -⟩ | ⟨h, -⟩) | ⟨h, -⟩) | ⟨h, -⟩) <;> exact h
  · intro h
    obtain ⟨fate, hfate⟩ := Option.ne_none_iff_exists'.mp (fateOf_ne_none.mpr h)
    cases fate with
    | shared => exact .inl (.inl (.inl ⟨h, hfate⟩))
    | resolved => exact .inl (.inl (.inr ⟨h, hfate⟩))
    | changed => exact .inl (.inr ⟨h, hfate⟩)
    | candidateOnly => exact .inr ⟨h, hfate⟩

/-- No identifier is on two lists, or twice on one. -/
theorem nodup_identifiers_compare : (compare (mapOf bs) (mapOf cs)).identifiers.Nodup := by
  have hnodup := @nodup_identifiersOf bs cs
  have hfates {fate fate' : Fate} (hne : fate ≠ fate') (i : String)
      (h : fateOf (mapOf bs) (mapOf cs) i = some fate)
      (h' : fateOf (mapOf bs) (mapOf cs) i = some fate') : False :=
    hne (Option.some.inj (h.symm.trans h'))
  rw [identifiers_compare hbs hcs]
  refine (((hnodup.filter _).append (hnodup.filter _) ?_).append (hnodup.filter _) ?_).append
    (hnodup.filter _) ?_
  · intro i hi hi'
    rw [List.mem_filter, sharedOf_isSome] at hi
    rw [List.mem_filter, resolvedOf_isSome] at hi'
    exact hfates Fate.noConfusion i hi.2 hi'.2
  · intro i hi hi'
    rw [List.mem_append, List.mem_filter, List.mem_filter, sharedOf_isSome, resolvedOf_isSome] at hi
    rw [List.mem_filter, changedOf_isSome] at hi'
    rcases hi with hi | hi
    · exact hfates Fate.noConfusion i hi.2 hi'.2
    · exact hfates Fate.noConfusion i hi.2 hi'.2
  · intro i hi hi'
    rw [List.mem_append, List.mem_append, List.mem_filter, List.mem_filter, List.mem_filter,
      sharedOf_isSome, resolvedOf_isSome, changedOf_isSome] at hi
    rw [List.mem_filter, candidateOnlyOf_isSome] at hi'
    rcases hi with (hi | hi) | hi
    · exact hfates Fate.noConfusion i hi.2 hi'.2
    · exact hfates Fate.noConfusion i hi.2 hi'.2
    · exact hfates Fate.noConfusion i hi.2 hi'.2

/-- **The comparison of two documents is exact.** -/
theorem exact_compare : Exact bs cs (compare (mapOf bs) (mapOf cs)) where
  once := nodup_identifiers_compare hbs hcs
  covers _ := mem_identifiers_compare hbs hcs
  shared f := by
    rw [compare_eq, List.mem_filterMap]
    constructor
    · rintro ⟨i, -, hi⟩
      obtain ⟨hb, hc, -⟩ := (sharedOf_eq_some hbs hcs).mp hi
      exact ⟨hb, hc⟩
    · rintro ⟨hb, hc⟩
      exact ⟨f.identifier, mem_identifiersOf.mpr (.inl (List.mem_map_of_mem hb)),
        (sharedOf_eq_some hbs hcs).mpr ⟨hb, hc, rfl⟩⟩
  resolved f := by
    rw [compare_eq, List.mem_filterMap]
    constructor
    · rintro ⟨i, -, hi⟩
      obtain ⟨hb, rfl, hc⟩ := (resolvedOf_eq_some hbs).mp hi
      exact ⟨hb, hc⟩
    · rintro ⟨hb, hc⟩
      exact ⟨f.identifier, mem_identifiersOf.mpr (.inl (List.mem_map_of_mem hb)),
        (resolvedOf_eq_some hbs).mpr ⟨hb, rfl, hc⟩⟩
  changed c := by
    rw [compare_eq, List.mem_filterMap]
    constructor
    · rintro ⟨i, -, hi⟩
      exact ((changedOf_eq_some hbs hcs).mp hi).2
    · rintro ⟨hb, hc, hne⟩
      have hmem : c.identifier ∈ bs.map Failure.identifier := List.mem_map.mpr ⟨_, hb, rfl⟩
      exact ⟨c.identifier, mem_identifiersOf.mpr (.inl hmem),
        (changedOf_eq_some hbs hcs).mpr ⟨rfl, hb, hc, hne⟩⟩
  candidateOnly f := by
    rw [compare_eq, List.mem_filterMap]
    constructor
    · rintro ⟨i, -, hi⟩
      obtain ⟨hc, rfl, hb⟩ := (candidateOnlyOf_eq_some hcs).mp hi
      exact ⟨hc, hb⟩
    · rintro ⟨hc, hb⟩
      exact ⟨f.identifier, mem_identifiersOf.mpr (.inr (List.mem_map_of_mem hc)),
        (candidateOnlyOf_eq_some hcs).mpr ⟨hc, rfl, hb⟩⟩

end

/-! ### The order of the failures -/

/-- The same document but for the order of its failures. -/
structure Reordered (v v' : Verification) : Prop where
  same : v' = { v with failures := v'.failures }
  perm : v.failures.Perm v'.failures

theorem lookup_mapOf_perm {failures failures' : List Failure} (hperm : failures.Perm failures')
    (h : HasMap failures) (key : String) :
    (mapOf failures').lookup key = (mapOf failures).lookup key := by
  ext f
  rw [lookup_mapOf h, lookup_mapOf (h.perm hperm), hperm.mem_iff]

/-- **The order of the failures does not matter.** -/
theorem compare_perm {bs bs' cs cs' : List Failure} (hbs : HasMap bs) (hcs : HasMap cs)
    (hb : bs.Perm bs') (hc : cs.Perm cs') :
    compare (mapOf bs') (mapOf cs') = compare (mapOf bs) (mapOf cs) := by
  have hidentifiers : identifiersOf (mapOf bs') (mapOf cs') = identifiersOf (mapOf bs) (mapOf cs) := by
    rw [identifiersOf, identifiersOf]
    refine congrArg (Finset.sort · (· ≤ ·)) (Finset.ext fun i => ?_)
    rw [List.mem_toFinset, List.mem_toFinset, List.mem_append, List.mem_append, keys_mapOf, keys_mapOf,
      keys_mapOf, keys_mapOf, (hb.map _).mem_iff, (hc.map _).mem_iff]
  have hpush : Comparison.push (mapOf bs') (mapOf cs') = Comparison.push (mapOf bs) (mapOf cs) := by
    funext lists identifier
    rw [Comparison.push, Comparison.push, lookup_mapOf_perm hb hbs, lookup_mapOf_perm hc hcs]
  rw [compare, compare, hidentifiers, hpush]

/-! ### The report -/

def Readback.lists (r : Readback) : Comparison :=
  ⟨r.sharedFailures, r.resolvedFailures, r.changedFailures, r.candidateOnlyFailures⟩

/-- **The verdict is the one that the lists imply.** -/
structure Implied (r : Readback) : Prop where
  regression : r.classification = "candidate_regression_detected" ↔
    r.changedFailures ≠ [] ∨ r.candidateOnlyFailures ≠ []
  retained : r.classification = "candidate_has_only_exact_baseline_failures" ↔
    r.changedFailures = [] ∧ r.candidateOnlyFailures = [] ∧ r.sharedFailures ≠ []
  resolved : r.classification = "candidate_resolved_baseline_failures" ↔
    r.changedFailures = [] ∧ r.candidateOnlyFailures = [] ∧ r.sharedFailures = [] ∧
      r.resolvedFailures ≠ []
  clean : r.classification = "candidate_clean" ↔
    r.changedFailures = [] ∧ r.candidateOnlyFailures = [] ∧ r.sharedFailures = [] ∧
      r.resolvedFailures = []

theorem candidateRegression_iff {lists : Comparison} : lists.candidateRegression = true ↔
    lists.changed ≠ [] ∨ lists.candidateOnly ≠ [] := by
  rw [Comparison.candidateRegression, Bool.or_eq_true, decide_eq_true_eq, decide_eq_true_eq]

/-- A new failure is one that the baseline does not have with the same signature. -/
theorem Exact.regression_iff {bs cs : List Failure} {lists : Comparison} (h : Exact bs cs lists) :
    lists.candidateRegression = true ↔ ∃ f ∈ cs, f ∉ bs := by
  rw [candidateRegression_iff]
  constructor
  · rintro (hchanged | honly)
    · obtain ⟨c, hc⟩ := List.exists_mem_of_ne_nil _ hchanged
      obtain ⟨hb, hcs, hne⟩ := (h.changed c).mp hc
      refine ⟨_, hcs, fun hmem => ?_⟩
      have hlist : (⟨c.identifier, c.candidateSignatureSha256⟩ : Failure) ∈ lists.shared :=
        (h.shared _).mpr ⟨hmem, hcs⟩
      have hshared : c.identifier ∈ lists.shared.map Failure.identifier := List.mem_map.mpr ⟨_, hlist, rfl⟩
      have hchanged : c.identifier ∈ lists.changed.map ChangedFailure.identifier :=
        List.mem_map_of_mem hc
      have honce := h.once
      rw [Comparison.identifiers, List.append_assoc, List.append_assoc, List.nodup_append] at honce
      refine honce.2.2 _ hshared _ ?_ rfl
      exact List.mem_append_right _ (List.mem_append_left _ hchanged)
    · obtain ⟨f, hf⟩ := List.exists_mem_of_ne_nil _ honly
      obtain ⟨hcs, hnot⟩ := (h.candidateOnly f).mp hf
      exact ⟨f, hcs, fun hmem => hnot (List.mem_map_of_mem hmem)⟩
  · rintro ⟨f, hcs, hnot⟩
    by_cases hid : f.identifier ∈ bs.map Failure.identifier
    · obtain ⟨b, hb, hbid⟩ := List.mem_map.mp hid
      have hchanged : (⟨f.identifier, b.signatureSha256, f.signatureSha256⟩ : ChangedFailure) ∈
          lists.changed := by
        refine (h.changed _).mpr ⟨hbid ▸ hb, hcs, fun hsame => hnot ?_⟩
        have heq : b = f := by
          obtain ⟨bid, bsig⟩ := b
          obtain ⟨fid, fsig⟩ := f
          exact congrArg₂ Failure.mk hbid hsame
        exact heq ▸ hb
      exact .inl (List.ne_nil_of_mem hchanged)
    · exact .inr (List.ne_nil_of_mem ((h.candidateOnly f).mpr ⟨hcs, hid⟩))

section

variable [IssueLibrary] {now now' : DateTime}

theorem implied_readback (b c : Octets) (baseline candidate : Verification) (candidateSha : String)
    (lists : Comparison) : Implied (readback b c baseline candidate candidateSha lists) := by
  obtain ⟨shared, resolved, changed, candidateOnly⟩ := lists
  constructor <;>
    cases changed <;> cases candidateOnly <;> cases shared <;> cases resolved <;>
    simp [readback, Comparison.classification, Comparison.candidateRegression]

/-- What is checked of a document beside its failures. -/
structure ValidBeside (now : DateTime) (v : Verification) (role : String) : Prop where
  schemaVersion : v.schemaVersion = "ao2.github-issue-repair-verification.v1"
  ofRole : v.role = role
  repository : validateRepository v.repository = .ok ()
  issueNumber : v.issueNumber ≠ 0
  shas : isSha v.baselineSourceSha = true ∧ isSha v.sourceSha = true
  sources : validateSources v role = .ok ()
  digests : isDigest v.commandSha256 = true ∧ isDigest v.outputSha256 = true
  name : validateText "toolchain.name" v.toolchain.name 128 = .ok ()
  version : validateText "toolchain.version" v.toolchain.version 128 = .ok ()
  completedAt : validateFreshTimestamp now v.completedAt = .ok ()
  safety : v.safety.network = "none" ∧ v.safety.credentialsPresent = false ∧
    v.safety.gitHistoryPresent = false ∧ v.safety.oraclePresent = false ∧ v.safety.externalEffects = 0

/-- **What is accepted.** -/
theorem validate_eq_ok {v : Verification} {role : String} : validate now v role = .ok () ↔
    ValidBeside now v role ∧ v.failures.length ≤ maxFailures ∧
      (v.failures = [] ↔ v.exitCode = 0) ∧ HasMap v.failures := by
  simp only [validate, seq_eq_ok, bailIf_eq_ok]
  simp only [bind_eq_ok, bailIf_eq_ok, failureMap_eq_ok, not_or, ne_eq, not_not, Bool.not_eq_true,
    Bool.not_eq_false, decide_eq_decide, Nat.not_lt]
  constructor
  · rintro ⟨h₁, h₂, h₃, h₄, h₅, h₆, h₇, h₈, h₉, h₁₀, hlength, hexit, _, ⟨hmap, -⟩, hsafety⟩
    exact ⟨⟨h₁, h₂, h₃, h₄, h₅, h₆, h₇, h₈, h₉, h₁₀, hsafety⟩, hlength, hexit, hmap⟩
  · rintro ⟨⟨h₁, h₂, h₃, h₄, h₅, h₆, h₇, h₈, h₉, h₁₀, hsafety⟩, hlength, hexit, hmap⟩
    exact ⟨h₁, h₂, h₃, h₄, h₅, h₆, h₇, h₈, h₉, h₁₀, hlength, hexit, _, ⟨hmap, rfl⟩, hsafety⟩

theorem validate_reordered {v v' : Verification} {role : String} (h : Reordered v v')
    (hvalid : validate now v role = .ok ()) : validate now v' role = .ok () := by
  obtain ⟨hsame, hperm⟩ := h
  obtain ⟨hbeside, hlength, hexit, hmap⟩ := validate_eq_ok.mp hvalid
  have hnil : v'.failures = [] ↔ v.failures = [] := by
    rw [← List.length_eq_zero_iff, ← List.length_eq_zero_iff, hperm.length_eq]
  have hbeside' : ValidBeside now v' role := by
    rw [hsame]
    exact ⟨hbeside.1, hbeside.2, hbeside.3, hbeside.4, hbeside.5, hbeside.6, hbeside.7, hbeside.8,
      hbeside.9, hbeside.10, hbeside.11⟩
  have hexit' : v'.exitCode = v.exitCode := by
    rw [hsame]
  exact validate_eq_ok.mpr ⟨hbeside', hperm.length_eq ▸ hlength, by rw [hnil, hexit, hexit'],
    hmap.perm hperm⟩

/-- The documents have the identities that are compared. -/
structure SameIdentity (baseline candidate : Verification) : Prop where
  repository : baseline.repository = candidate.repository
  issueNumber : baseline.issueNumber = candidate.issueNumber
  baselineSourceSha : baseline.baselineSourceSha = candidate.baselineSourceSha
  commandSha256 : baseline.commandSha256 = candidate.commandSha256
  toolchain : baseline.toolchain = candidate.toolchain

theorem exists_candidateSha {v : Verification} (h : validate now v "candidate" = .ok ()) :
    ∃ sha, v.candidateSha = some sha := by
  have hsources := (validate_eq_ok.mp h).1.sources
  rw [validateSources, if_neg (by decide), if_pos rfl] at hsources
  obtain ⟨sha, hsha, -⟩ := bind_eq_ok.mp hsources
  exact ⟨sha, orContext_eq_ok.mp hsha⟩

theorem readVerification_eq {file : Octets} {value : Json} {v : Verification}
    (hvalue : IssueLibrary.fromSlice file = some value) (hv : Verification.fromJson value = some v) :
    readVerification file = some v := by
  rw [readVerification, hvalue]
  exact hv

/-- What is reported of two documents that are accepted. -/
theorem classify_eq_ok {b c : Octets} {baseline candidate : Verification} {sha : String}
    (hb : readVerification b = some baseline) (hc : readVerification c = some candidate)
    (hbaseline : validate now baseline "baseline" = .ok ())
    (hcandidate : validate now' candidate "candidate" = .ok ())
    (hsame : SameIdentity baseline candidate) (hsha : candidate.candidateSha = some sha) :
    classify now now' (.ok b) (.ok c) = .ok (readback b c baseline candidate sha
      (compare (mapOf baseline.failures) (mapOf candidate.failures))) := by
  simp only [classify, bind_eq_ok]
  refine ⟨b, rfl, c, rfl, baseline, orContext_eq_ok.mpr hb, candidate, orContext_eq_ok.mpr hc, (),
    hbaseline, (), hcandidate, (), bailIf_eq_ok.mpr ?_, _,
    failureMap_eq_ok.mpr ⟨(validate_eq_ok.mp hbaseline).2.2.2, rfl⟩, _,
    failureMap_eq_ok.mpr ⟨(validate_eq_ok.mp hcandidate).2.2.2, rfl⟩, sha, orContext_eq_ok.mpr hsha, rfl⟩
  rintro (h | h | h | h | h)
  · exact h hsame.repository
  · exact h hsame.issueNumber
  · exact h hsame.baselineSourceSha
  · exact h hsame.commandSha256
  · exact h hsame.toolchain

/-- **The classification is exact.** Each identifier is on one list, the lists say what they mean, and
the verdict is the one that they imply: there is a regression just when the candidate has a failure
that the baseline does not have, and so none where the candidate exits with zero. In another order
of the failures the report is the same but for the digests of the documents. -/
theorem classify_exact {b c : Octets} {baseline candidate : Verification}
    (hb : readVerification b = some baseline) (hc : readVerification c = some candidate)
    (hbaseline : validate now baseline "baseline" = .ok ())
    (hcandidate : validate now' candidate "candidate" = .ok ())
    (hsame : SameIdentity baseline candidate) :
    ∃ r, classify now now' (.ok b) (.ok c) = .ok r ∧
      Exact baseline.failures candidate.failures r.lists ∧
      (r.candidateRegression = true ↔ ∃ f ∈ candidate.failures, f ∉ baseline.failures) ∧
      Implied r ∧
      (candidate.exitCode = 0 → r.candidateRegression = false ∧
        r.classification ≠ "candidate_regression_detected") ∧
      ∀ b' c' baseline' candidate', Reordered baseline baseline' → Reordered candidate candidate' →
        readVerification b' = some baseline' → readVerification c' = some candidate' →
        classify now now' (.ok b') (.ok c') = .ok { r with
          baselineEvidenceSha256 := digest b', candidateEvidenceSha256 := digest c' } := by
  obtain ⟨sha, hsha⟩ := exists_candidateSha hcandidate
  obtain ⟨-, -, -, hbs⟩ := validate_eq_ok.mp hbaseline
  obtain ⟨-, -, hexit, hcs⟩ := validate_eq_ok.mp hcandidate
  have hexact := exact_compare hbs hcs
  have himplied := implied_readback b c baseline candidate sha
    (compare (mapOf baseline.failures) (mapOf candidate.failures))
  refine ⟨_, classify_eq_ok hb hc hbaseline hcandidate hsame hsha, hexact, hexact.regression_iff,
    himplied, fun hzero => ?_, ?_⟩
  · have hnone : (compare (mapOf baseline.failures) (mapOf candidate.failures)).candidateRegression =
        false := by
      refine Bool.eq_false_of_not_eq_true fun htrue => ?_
      obtain ⟨f, hf, -⟩ := hexact.regression_iff.mp htrue
      rw [hexit.mpr hzero] at hf
      exact List.not_mem_nil hf
    refine ⟨hnone, fun hregression => ?_⟩
    have htrue := candidateRegression_iff.mpr (himplied.regression.mp hregression)
    exact Bool.noConfusion (hnone.symm.trans htrue)
  · intro b' c' baseline' candidate' hbaseline' hcandidate' hb' hc'
    have hsha' : candidate'.candidateSha = some sha := by
      rw [hcandidate'.same]
      exact hsha
    have hsame' : SameIdentity baseline' candidate' := by
      rw [hbaseline'.same, hcandidate'.same]
      exact ⟨hsame.1, hsame.2, hsame.3, hsame.4, hsame.5⟩
    rw [classify_eq_ok hb' hc' (validate_reordered hbaseline' hbaseline)
      (validate_reordered hcandidate' hcandidate) hsame' hsha',
      compare_perm hbs hcs hbaseline'.perm hcandidate'.perm, hbaseline'.same, hcandidate'.same]
    rfl

end

/-! ### Two failures in two orders -/

def repeated (n : ℕ) (c : Char) : String := .ofList (List.replicate n c)

def sampleFailure (identifier : String) (c : Char) : Failure :=
  ⟨identifier, "sha256:" ++ repeated 64 c⟩

def Failure.toJson (f : Failure) : Json :=
  .obj [("identifier", .str f.identifier), ("signature_sha256", .str f.signatureSha256)]

/-- A document of the baseline, or of the candidate if it has a source of its own. -/
def sampleVerification (candidateSha : Option String) (failures : List Failure) : Verification where
  schemaVersion := "ao2.github-issue-repair-verification.v1"
  role := if candidateSha.isSome then "candidate" else "baseline"
  repository := "o/r"
  issueNumber := 7
  baselineSourceSha := repeated 40 'a'
  sourceSha := candidateSha.getD (repeated 40 'a')
  candidateSha := candidateSha
  commandSha256 := "sha256:" ++ repeated 64 'c'
  toolchain := ⟨"cargo", "1.79.0"⟩
  completedAt := "2026-01-01T00:00:00Z"
  exitCode := 1
  outputSha256 := "sha256:" ++ repeated 64 'd'
  failures := failures
  safety := ⟨"none", false, false, false, 0⟩

def Verification.toJson (v : Verification) : Json :=
  .obj ([("failures", .arr (v.failures.map Failure.toJson)),
      ("schema_version", .str v.schemaVersion), ("role", .str v.role),
      ("repository", .str v.repository), ("issue_number", .nat v.issueNumber),
      ("baseline_source_sha", .str v.baselineSourceSha), ("source_sha", .str v.sourceSha)] ++
    (v.candidateSha.map fun sha => ("candidate_sha", Json.str sha)).toList ++
    [("command_sha256", .str v.commandSha256),
      ("toolchain", .obj [("name", .str v.toolchain.name), ("version", .str v.toolchain.version)]),
      ("completed_at", .str v.completedAt), ("exit_code", .nat v.exitCode),
      ("output_sha256", .str v.outputSha256), ("safety", .obj [("network", .str v.safety.network),
        ("credentials_present", .bool v.safety.credentialsPresent),
        ("git_history_present", .bool v.safety.gitHistoryPresent),
        ("oracle_present", .bool v.safety.oraclePresent),
        ("external_effects", .nat v.safety.externalEffects)])])

/-- The text of a document, which is ASCII. -/
def Verification.file (v : Verification) : Octets := v.toJson.compactText.map fun c => .ofNat c.toNat

def firstBaseline : Verification :=
  sampleVerification none [sampleFailure "t::a" '1', sampleFailure "t::b" '2']

def secondBaseline : Verification :=
  sampleVerification none [sampleFailure "t::b" '2', sampleFailure "t::a" '1']

def sampleCandidate : Verification :=
  sampleVerification (some (repeated 40 'b')) [sampleFailure "t::b" '2', sampleFailure "t::c" '3']

/-- The values and the digests of three documents. -/
@[reducible] def threeDocuments : IssueLibrary where
  fromSlice file :=
    if file = firstBaseline.file then some firstBaseline.toJson
    else if file = secondBaseline.file then some secondBaseline.toJson
    else if file = sampleCandidate.file then some sampleCandidate.toJson
    else none
  sha256 file :=
    if file = firstBaseline.file then
      "37e4dc89aef6299225e21687c83d023e380f9e582b184b6d698f8bbefd0ddc6d"
    else if file = secondBaseline.file then
      "6f7c7859f81ce562a819e3b18f5a9712f8d3fc76e3ceed58a0d7bf2af77a03b7"
    else "215574aa2164964ecaa9815a11a6adc0d126a96146aab5d8d05a89314ef7cf5f"
  parseRfc3339 text := if text = "2026-01-01T00:00:00Z" then some (minutes (7 * 24 * 60)) else none

attribute [local instance] threeDocuments

theorem files_ne : secondBaseline.file ≠ firstBaseline.file ∧
    sampleCandidate.file ≠ firstBaseline.file ∧ sampleCandidate.file ≠ secondBaseline.file := by
  decide +kernel

theorem fromJson_firstBaseline : Verification.fromJson firstBaseline.toJson = some firstBaseline := rfl

theorem fromJson_secondBaseline :
    Verification.fromJson secondBaseline.toJson = some secondBaseline := rfl

theorem fromJson_sampleCandidate :
    Verification.fromJson sampleCandidate.toJson = some sampleCandidate := rfl

/-- The time of the documents. -/
def sampleNow : DateTime := minutes (7 * 24 * 60)

theorem isSha_repeated {c : Char} (hascii : c.toNat < 128) (hhex : isLowerHex c = true) :
    isSha (repeated 40 c) = true := by
  have hall : ∀ d ∈ List.replicate 40 c, d.toNat < 128 := fun d hd =>
    List.eq_of_mem_replicate hd ▸ hascii
  rw [isSha, repeated, bytes_ofList hall, utf8ByteSize_ofList hall, List.length_replicate,
    List.all_replicate, hhex]
  rfl

theorem isDigest_repeated {c : Char} (hascii : c.toNat < 128) (hhex : isLowerHex c = true) :
    isDigest ("sha256:" ++ repeated 64 c) = true := by
  have hall : ∀ d ∈ List.replicate 64 c, d.toNat < 128 := fun d hd =>
    List.eq_of_mem_replicate hd ▸ hascii
  have hlist : ("sha256:" ++ repeated 64 c).toList = "sha256:".toList ++ List.replicate 64 c := by
    rw [String.toList_append, repeated]
    exact congrArg _ String.toList_ofList
  have hdrop : ("sha256:".toList ++ List.replicate 64 c).drop 7 = List.replicate 64 c :=
    List.drop_left' rfl
  rw [isDigest, hlist, hdrop]
  dsimp only
  rw [bytes_ofList hall, utf8ByteSize_ofList hall, List.length_replicate, List.all_replicate, hhex,
    decide_eq_true (List.prefix_append _ _)]
  rfl

theorem hasMap_sample {identifier identifier' : String} {c c' : Char} (hne : identifier ≠ identifier')
    (hid : validateText "failure identifier" identifier maxIdentifierBytes = .ok ())
    (hid' : validateText "failure identifier" identifier' maxIdentifierBytes = .ok ())
    (hc : c.toNat < 128 ∧ isLowerHex c = true) (hc' : c'.toNat < 128 ∧ isLowerHex c' = true) :
    HasMap [sampleFailure identifier c, sampleFailure identifier' c'] := by
  refine ⟨?_, ?_⟩
  · rw [List.forall_mem_cons, List.forall_mem_cons]
    exact ⟨⟨hid, isDigest_repeated hc.1 hc.2⟩, ⟨hid', isDigest_repeated hc'.1 hc'.2⟩,
      fun _ h => absurd h List.not_mem_nil⟩
  · exact List.nodup_cons.mpr ⟨fun h => hne (List.mem_singleton.mp h), List.nodup_singleton _⟩

theorem validate_sample {candidateSha : Option String} {failures : List Failure} {role : String}
    (hrole : (sampleVerification candidateSha failures).role = role)
    (hsources : validateSources (sampleVerification candidateSha failures) role = .ok ())
    (hsource : isSha (candidateSha.getD (repeated 40 'a')) = true)
    (hlength : failures.length ≤ maxFailures) (hne : failures ≠ []) (hmap : HasMap failures) :
    validate sampleNow (sampleVerification candidateSha failures) role = .ok () := by
  refine validate_eq_ok.mpr ⟨?_, hlength, ?_, hmap⟩
  · have hdigest (c : Char) (hc : c.toNat < 128) (hhex : isLowerHex c = true) :=
      isDigest_repeated hc hhex
    have hrepository : validateRepository "o/r" = .ok () := by decide +kernel
    have hname : validateText "toolchain.name" "cargo" 128 = .ok () := by decide +kernel
    have hversion : validateText "toolchain.version" "1.79.0" 128 = .ok () := by decide +kernel
    exact ⟨rfl, hrole, hrepository, Nat.succ_ne_zero 6, ⟨isSha_repeated (by decide) rfl, hsource⟩,
      hsources, ⟨hdigest 'c' (by decide) rfl, hdigest 'd' (by decide) rfl⟩, hname, hversion, rfl,
      rfl, rfl, rfl, rfl, rfl⟩
  · exact ⟨fun h => absurd h hne, fun h => absurd h (Nat.succ_ne_zero 0)⟩

theorem validate_firstBaseline : validate sampleNow firstBaseline "baseline" = .ok () :=
  validate_sample rfl rfl (isSha_repeated (by decide) rfl) (by decide) (List.cons_ne_nil _ _)
    (hasMap_sample (by decide) rfl rfl (by decide) (by decide))

theorem validate_sampleCandidate : validate sampleNow sampleCandidate "candidate" = .ok () := by
  refine validate_sample rfl ?_ (isSha_repeated (by decide) rfl) (by decide) (List.cons_ne_nil _ _)
    (hasMap_sample (by decide) rfl rfl (by decide) (by decide))
  rw [validateSources, if_neg (by decide), if_pos rfl]
  refine bind_eq_ok.mpr ⟨repeated 40 'b', rfl, bailIf_eq_ok.mpr ?_⟩
  rintro (h | h | h)
  · exact Bool.noConfusion (h.symm.trans (isSha_repeated (by decide) rfl))
  · exact h rfl
  · exact absurd h (by decide)

theorem sameIdentity_sample (failures : List Failure) :
    SameIdentity (sampleVerification none failures) sampleCandidate := ⟨rfl, rfl, rfl, rfl, rfl⟩

theorem reordered_sample : Reordered firstBaseline secondBaseline := ⟨rfl, .swap _ _ _⟩

theorem fromSlice_firstBaseline :
    IssueLibrary.fromSlice firstBaseline.file = some firstBaseline.toJson := if_pos rfl

theorem fromSlice_secondBaseline :
    IssueLibrary.fromSlice secondBaseline.file = some secondBaseline.toJson :=
  (if_neg files_ne.1).trans (if_pos rfl)

theorem fromSlice_sampleCandidate :
    IssueLibrary.fromSlice sampleCandidate.file = some sampleCandidate.toJson :=
  (if_neg files_ne.2.1).trans ((if_neg files_ne.2.2).trans (if_pos rfl))

theorem digest_firstBaseline : digest firstBaseline.file = "sha256:" ++
    "37e4dc89aef6299225e21687c83d023e380f9e582b184b6d698f8bbefd0ddc6d" := congrArg _ (if_pos rfl)

theorem digest_secondBaseline : digest secondBaseline.file = "sha256:" ++
    "6f7c7859f81ce562a819e3b18f5a9712f8d3fc76e3ceed58a0d7bf2af77a03b7" := congrArg _ ((if_neg files_ne.1).trans (if_pos rfl))

theorem read_firstBaseline : readVerification firstBaseline.file = some firstBaseline :=
  readVerification_eq fromSlice_firstBaseline fromJson_firstBaseline

theorem read_secondBaseline : readVerification secondBaseline.file = some secondBaseline :=
  readVerification_eq fromSlice_secondBaseline fromJson_secondBaseline

theorem read_sampleCandidate : readVerification sampleCandidate.file = some sampleCandidate :=
  readVerification_eq fromSlice_sampleCandidate fromJson_sampleCandidate

theorem classify_exact_sample :
    ∃ r, classify sampleNow sampleNow (.ok firstBaseline.file) (.ok sampleCandidate.file) = .ok r ∧
      r.candidateRegression = true := by
  obtain ⟨r, hr, -, hregression, -⟩ := classify_exact read_firstBaseline read_sampleCandidate
    validate_firstBaseline validate_sampleCandidate (sameIdentity_sample _)
  refine ⟨r, hr, hregression.mpr ⟨sampleFailure "t::c" '3', ?_, ?_⟩⟩
  · exact List.mem_cons_of_mem _ List.mem_cons_self
  · intro hmem
    rcases List.mem_cons.mp hmem with h | h
    · exact absurd (congrArg Failure.identifier h) (by decide)
    · exact absurd (congrArg Failure.identifier (List.mem_singleton.mp h)) (by decide)

/-- The same failures in another order are reported with another digest. -/
theorem not_classify_perm : Reordered firstBaseline secondBaseline ∧
    ∃ r r', classify sampleNow sampleNow (.ok firstBaseline.file) (.ok sampleCandidate.file) = .ok r ∧
      classify sampleNow sampleNow (.ok secondBaseline.file) (.ok sampleCandidate.file) = .ok r' ∧ r ≠ r' := by
  have hsecond : validate sampleNow secondBaseline "baseline" = .ok () :=
    validate_reordered reordered_sample validate_firstBaseline
  refine ⟨reordered_sample, _, _, classify_eq_ok read_firstBaseline read_sampleCandidate
    validate_firstBaseline validate_sampleCandidate (sameIdentity_sample _) rfl,
    classify_eq_ok read_secondBaseline read_sampleCandidate hsecond validate_sampleCandidate
      (sameIdentity_sample _) rfl, fun heq => ?_⟩
  have hdigest : digest firstBaseline.file = digest secondBaseline.file :=
    congrArg Readback.baselineEvidenceSha256 heq
  rw [digest_firstBaseline, digest_secondBaseline] at hdigest
  exact absurd hdigest (by decide)

end Classification

end Issues

end Ao2
