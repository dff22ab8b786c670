import Ao2.Python.RoundTrip

/-!
# Records on lines and in files

A record of texts on one line holds no line break, so a file of such lines is split where they end.
What is looked up in a record that was written with its keys in order and read back is what was
there, with its pairs joined.

## Main results

* `reread_sortKeys_dict`, `reread_sortKeys_members` — the members of a record that is read back
-/

namespace Ao2

namespace Python

/-! ### No line breaks -/

theorem digitChar_unbroken : ∀ n < 16, isLineBreak n.digitChar = false := by decide

theorem ofNat_unbroken : ∀ n < 127, 32 ≤ n → isLineBreak (.ofNat n) = false := by decide

theorem hexDigits_unbroken (n : ℕ) : ∀ c ∈ hexDigits n, isLineBreak c = false := by
  intro c hc
  simp only [hexDigits, List.mem_cons, List.not_mem_nil, or_false] at hc
  rcases hc with rfl | rfl | rfl | rfl
  all_goals exact digitChar_unbroken _ (Nat.mod_lt _ (by omega))

theorem escapeUnit_unbroken (u : CodePoint) : ∀ c ∈ escapeUnit u, isLineBreak c = false := by
  intro c hc
  unfold escapeUnit at hc
  cases hshort : shortEscape u.val with
  | some e =>
    rw [hshort] at hc
    simp only [List.mem_cons, List.not_mem_nil, or_false] at hc
    rcases hc with rfl | rfl
    · decide
    · unfold shortEscape at hshort
      split_ifs at hshort <;> cases hshort <;> decide
  | none =>
    rw [hshort] at hc
    dsimp only at hc
    split at hc
    case isTrue hprintable =>
      rw [List.mem_singleton.mp hc]
      exact ofNat_unbroken _ (by omega) hprintable.1
    case isFalse =>
      rcases List.mem_cons.mp hc with rfl | hc
      · decide
      · rcases List.mem_cons.mp hc with rfl | hc
        · decide
        · exact hexDigits_unbroken _ c hc

theorem quote_unbroken (s : PyStr) : ∀ c ∈ quote s, isLineBreak c = false := by
  intro c hc
  rcases List.mem_cons.mp hc with rfl | hc
  · decide
  · rcases List.mem_append.mp hc with hc | hc
    · obtain ⟨u, -, hu⟩ := List.mem_flatMap.mp hc
      exact escapeUnit_unbroken u c hu
    · rw [List.mem_singleton.mp hc]
      decide

variable {F : Type} [FloatText F]

/-- **A record on one line holds no line break**, by induction on it. -/
theorem dumps_line_unbroken {v : PyJson F} (hv : Textual v) (depth : ℕ) :
    ∀ c ∈ dumps .line depth v, isLineBreak c = false := by
  induction hv generalizing depth with
  | str s =>
    rw [dumps]
    exact quote_unbroken s
  | dict members htextual ih =>
    have hmembers : ∀ c ∈ dumpsMembers .line depth members, isLineBreak c = false := by
      clear htextual
      induction members with
      | nil => exact List.forall_mem_nil _
      | cons m members ihm =>
        obtain ⟨key, v⟩ := m
        have hrest := ihm fun m hm => ih m (List.mem_cons_of_mem _ hm)
        intro c hc
        rw [dumpsMembers_cons] at hc
        simp only [List.mem_append, List.mem_cons] at hc
        rcases hc with hc | rfl | rfl | hc | hc
        · exact quote_unbroken key c hc
        · decide
        · decide
        · exact ih (key, v) List.mem_cons_self _ c hc
        · cases members with
          | nil =>
            obtain rfl : c = '}' := by simpa [Layout.line] using hc
            decide
          | cons m' members =>
            simp only [Layout.line, List.mem_cons, List.mem_append, List.not_mem_nil, or_false] at hc
            rcases hc with rfl | rfl | hc
            · decide
            · decide
            · exact hrest c hc
    intro c hc
    cases members with
    | nil =>
      rw [dumps] at hc
      simp only [List.mem_cons, List.not_mem_nil, or_false] at hc
      rcases hc with rfl | rfl <;> decide
    | cons m members =>
      rw [dumps] at hc
      rcases List.mem_cons.mp hc with rfl | hc
      · decide
      · exact hmembers c hc

/-! ### Members that are read back -/

section

variable {V : Type}

theorem lookup_eq_some_iff {members : List (PyStr × V)} (h : (members.map Prod.fst).Nodup)
    {key : PyStr} {v : V} : members.lookup key = some v ↔ (key, v) ∈ members := by
  induction members with
  | nil => simp
  | cons m members ih =>
    obtain ⟨k, w⟩ := m
    rw [List.map_cons, List.nodup_cons] at h
    rw [List.lookup_cons, List.mem_cons]
    by_cases hk : key = k
    · subst hk
      simp only [beq_self_eq_true, Option.some.injEq, Prod.mk.injEq, true_and]
      refine ⟨fun hw => .inl hw.symm, ?_⟩
      rintro (hw | hmem)
      · exact hw.symm
      · exact absurd (List.mem_map_of_mem hmem) h.1
    · rw [beq_eq_false_iff_ne.mpr hk]
      simp only [ih h.2, Prod.mk.injEq, hk, false_and, false_or]

/-- The order of members whose keys differ does not matter. -/
theorem lookup_perm {members members' : List (PyStr × V)} (hperm : members.Perm members')
    (h : (members.map Prod.fst).Nodup) (key : PyStr) : members.lookup key = members'.lookup key := by
  refine Option.ext fun v => ?_
  rw [lookup_eq_some_iff h, lookup_eq_some_iff ((hperm.map _).nodup_iff.mp h), hperm.mem_iff]

theorem lookup_map {W : Type} (f : V → W) (members : List (PyStr × V)) (key : PyStr) :
    (members.map fun m => (m.1, f m.2)).lookup key = (members.lookup key).map f := by
  induction members with
  | nil => rfl
  | cons m members ih =>
    rw [List.map_cons, List.lookup_cons, List.lookup_cons, ih]
    split <;> rfl

theorem lookup_isSome_iff {members : List (PyStr × V)} {key : PyStr} :
    (members.lookup key).isSome = true ↔ key ∈ members.map Prod.fst := by
  induction members with
  | nil => simp
  | cons m members ih =>
    rw [List.lookup_cons, List.map_cons, List.mem_cons]
    by_cases hk : key = m.1
    · simp [hk]
    · rw [beq_eq_false_iff_ne.mpr hk]
      simp only [ih, hk, false_or]

end

omit [FloatText F] in
theorem sortMembers_eq (members : List (PyStr × PyJson F)) :
    sortMembers members = members.map fun m => (m.1, sortKeys m.2) := by
  induction members with
  | nil => rfl
  | cons m members ih => rw [sortMembers, ih, List.map_cons]

omit [FloatText F] in
theorem rereadMembers_eq (members : List (PyStr × PyJson F)) :
    rereadMembers members = members.map fun m => (normal m.1, reread m.2) := by
  induction members with
  | nil => rfl
  | cons m members ih => rw [rereadMembers, ih, List.map_cons]

omit [FloatText F] in
/-- A record stays one when its keys are put in order. -/
theorem Textual.sortKeys {v : PyJson F} (h : Textual v) : Textual (sortKeys v) := by
  induction h with
  | str s => exact .str s
  | dict members htextual ih =>
    rw [Python.sortKeys, sortMembers_eq]
    refine .dict _ fun m hm => ?_
    rw [List.mem_insertionSort, List.mem_map] at hm
    obtain ⟨m, hm, rfl⟩ := hm
    exact ih m hm

omit [FloatText F] in
/-- **What is looked up in a record that is read back**, if no key in it holds a pair. -/
theorem reread_sortKeys_dict (members : List (PyStr × PyJson F))
    (hjoined : ∀ m ∈ members, Joined m.1) (hnodup : (members.map Prod.fst).Nodup) :
    ∃ members', reread (sortKeys (.dict members)) = .dict members' ∧
      (members'.map Prod.fst).Nodup ∧
      ∀ key, members'.lookup key = (members.lookup key).map fun v => reread (sortKeys v) := by
  rw [sortKeys, sortMembers_eq, reread, rereadMembers_eq]
  set sorted := (members.map fun m => (m.1, sortKeys m.2)).insertionSort fun m m' => m.1 ≤ m'.1
    with hsorted
  have hperm : sorted.Perm (members.map fun m => (m.1, sortKeys m.2)) := List.perm_insertionSort _ _
  have hkeys : (sorted.map Prod.fst).Nodup := by
    rw [(hperm.map Prod.fst).nodup_iff, List.map_map]
    exact hnodup
  have hnormal : sorted.map (fun m => (normal m.1, reread m.2)) =
      sorted.map fun m => (m.1, reread m.2) := by
    refine List.map_congr_left fun m hm => ?_
    obtain ⟨m, hmem, rfl⟩ := List.mem_map.mp (hperm.mem_iff.mp hm)
    rw [normal_eq_self_iff.mpr (hjoined m hmem)]
  rw [hnormal, ofPairs_of_nodup (by rwa [List.map_map])]
  refine ⟨_, rfl, by rwa [List.map_map], fun key => ?_⟩
  rw [lookup_map, lookup_perm hperm hkeys, lookup_map, Option.map_map]
  rfl

omit [FloatText F] in
/-- What is in a record that is read back, whatever its keys: what was there, under their keys. -/
theorem reread_sortKeys_members (members : List (PyStr × PyJson F)) :
    ∃ members', reread (sortKeys (.dict members)) = .dict members' ∧
      (∀ m' ∈ members', ∃ m ∈ members, m' = (normal m.1, reread (sortKeys m.2))) ∧
      ∀ m ∈ members, normal m.1 ∈ members'.map Prod.fst := by
  rw [sortKeys, sortMembers_eq, reread, rereadMembers_eq]
  refine ⟨_, rfl, fun m' hm' => ?_, fun m hm => ?_⟩
  · obtain ⟨m, hm, rfl⟩ := List.mem_map.mp (mem_of_mem_ofPairs hm')
    rw [List.mem_insertionSort] at hm
    obtain ⟨m, hmem, rfl⟩ := List.mem_map.mp hm
    exact ⟨m, hmem, rfl⟩
  · rw [mem_keys_ofPairs, List.map_map, List.mem_map]
    refine ⟨(m.1, sortKeys m.2), ?_, rfl⟩
    rw [List.mem_insertionSort]
    exact List.mem_map.mpr ⟨m, hm, rfl⟩

omit [FloatText F] in
/-- A record stays one when it is read back. -/
theorem Textual.reread {v : PyJson F} (h : Textual v) : Textual (reread v) := by
  induction h with
  | str s => exact .str _
  | dict members htextual ih =>
    rw [Python.reread, rereadMembers_eq]
    refine .dict _ fun m hm => ?_
    obtain ⟨m, hmem, rfl⟩ := List.mem_map.mp (mem_of_mem_ofPairs hm)
    exact ih m hmem

end Python

end Ao2
