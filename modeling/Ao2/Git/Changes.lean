import Ao2.Selection
import Mathlib.Data.List.Nodup
import Mathlib.Tactic.Common

/-!
# Changed paths

What a comparison of two trees reports when only the names of the changed files are asked for. The
names are those of the files after the change. A file that is taken for a renamed one is reported
under its new name only; which files are is left open, but that a renamed file is gone from the old
name and was not there under the new one.

Files under their places. A file takes no other below it: where one is put, those above and below it
are gone. Taking up part of a work tree makes the index the work tree there.

## Main results

* `splitTerminated_terminated` — the names are read back from the report
* `entryAt_takeUp` — what the index holds after that
-/

namespace Ao2

namespace Git

/-- A name or a content, as bytes. -/
abbrev Bytes := List UInt8

structure TreeEntry where
  mode : ℕ
  content : Bytes
  deriving DecidableEq

/-- The files of a tree under their paths. A path is not empty and has no zero byte in it. -/
structure Tree where
  entries : List (Bytes × TreeEntry)
  nodup : (entries.map Prod.fst).Nodup
  named : ∀ path ∈ entries.map Prod.fst, path ≠ [] ∧ 0 ∉ path

def Tree.entryAt (tree : Tree) (path : Bytes) : Option TreeEntry := tree.entries.lookup path

theorem Tree.named_of_entry {tree : Tree} {path : Bytes} (h : tree.entryAt path ≠ none) :
    path ≠ [] ∧ 0 ∉ path := by
  refine tree.named path ?_
  rw [Tree.entryAt] at h
  by_contra hmem
  exact h (List.lookup_eq_none_iff.mpr fun entry hentry => by
    rw [bne_iff_ne]
    rintro rfl
    exact hmem (List.mem_map_of_mem hentry))

/-- A path is in one of two trees only, or with another content or mode in each. -/
def Changed (base head : Tree) (path : Bytes) : Prop := base.entryAt path ≠ head.entryAt path

instance (base head : Tree) (path : Bytes) : Decidable (Changed base head path) :=
  inferInstanceAs (Decidable (_ ≠ _))

theorem Changed.named {base head : Tree} {path : Bytes} (h : Changed base head path) :
    path ≠ [] ∧ 0 ∉ path := by
  by_cases hbase : base.entryAt path = none
  · refine head.named_of_entry ?_
    rw [Changed, hbase] at h
    exact h.symm
  · exact base.named_of_entry hbase

/-- Files of one tree that are taken for renamed files of another, each with its new name. -/
structure Renames (base head : Tree) where
  pairs : List (Bytes × Bytes)
  source : ∀ pair ∈ pairs, base.entryAt pair.1 ≠ none ∧ head.entryAt pair.1 = none
  target : ∀ pair ∈ pairs, base.entryAt pair.2 = none ∧ head.entryAt pair.2 ≠ none
  nodupSources : (pairs.map Prod.fst).Nodup
  nodupTargets : (pairs.map Prod.snd).Nodup

/-- The old names of the renamed files. -/
def Renames.sources {base head : Tree} (renames : Renames base head) : List Bytes :=
  renames.pairs.map Prod.fst

/-- The names that are reported. -/
def Lists {base head : Tree} (renames : Renames base head) (paths : List Bytes) : Prop :=
  paths.Nodup ∧ ∀ path, path ∈ paths ↔ Changed base head path ∧ path ∉ renames.sources

theorem Renames.changed {base head : Tree} {renames : Renames base head} {path : Bytes}
    (h : path ∈ renames.sources) : Changed base head path := by
  obtain ⟨pair, hpair, rfl⟩ := List.mem_map.mp h
  obtain ⟨hbase, hhead⟩ := renames.source pair hpair
  rw [Changed, hhead]
  exact hbase

/-- Names, each followed by a zero byte. -/
def terminated (paths : List Bytes) : Bytes := paths.flatMap fun path => path ++ [0]

/-- The names in a report. -/
def splitTerminated (report : Bytes) : List Bytes := (report.splitOn 0).filter (· ≠ [])

theorem splitTerminated_terminated {paths : List Bytes}
    (h : ∀ path ∈ paths, path ≠ [] ∧ (0 : UInt8) ∉ path) :
    splitTerminated (terminated paths) = paths := by
  unfold splitTerminated
  induction paths with
  | nil => rfl
  | cons path paths ih =>
    rw [List.forall_mem_cons] at h
    have hsplit : (terminated (path :: paths)).splitOn 0 =
        path :: (terminated paths).splitOn 0 := by
      rw [terminated, List.flatMap_cons, List.append_assoc, List.singleton_append, terminated,
        List.splitOn_eq_splitOnP, List.splitOn_eq_splitOnP]
      refine List.splitOnP_append_cons_of_forall_mem ?_ 0 rfl _
      intro b hb
      rw [beq_eq_false_iff_ne]
      rintro rfl
      exact h.1.2 hb
    rw [hsplit, List.filter_cons, if_pos (decide_eq_true h.1.1), ih h.2]

theorem terminated_eq_nil {paths : List Bytes} : terminated paths = [] ↔ paths = [] := by
  cases paths with
  | nil => simp [terminated]
  | cons path paths => simp [terminated]

end Git

end Ao2

/-! ## Index and work tree -/

namespace Ao2

namespace Git

/-- The names that lead to a file, from the top of the work tree. -/
abbrev Place := List Bytes

/-- Files under their places. No file lies below another. -/
structure Files where
  entries : List (Place × TreeEntry)
  nodup : (entries.map Prod.fst).Nodup
  apart : ∀ p ∈ entries.map Prod.fst, ∀ q ∈ entries.map Prod.fst, p <+: q → p = q

def Files.empty : Files := ⟨[], List.nodup_nil, fun _ hp => nomatch hp⟩

def Files.entryAt (files : Files) (p : Place) : Option TreeEntry := files.entries.lookup p

/-- One of two places is the other or lies below it. -/
def Meet (p q : Place) : Prop := p <+: q ∨ q <+: p

instance (p q : Place) : Decidable (Meet p q) := inferInstanceAs (Decidable (_ ∨ _))

/-- A file of the work tree that is taken up leaves no room for a file at the place. -/
def Displaced (work : Files) (taken : Place → Bool) (p : Place) : Prop :=
  ∃ entry ∈ work.entries, taken entry.1 = true ∧ Meet entry.1 p

instance (work : Files) (taken : Place → Bool) (p : Place) : Decidable (Displaced work taken p) :=
  inferInstanceAs (Decidable (∃ entry ∈ work.entries, _))

/-- The entries that are taken up, and those that stay. -/
def takeUpEntries (index work : Files) (taken : Place → Bool) : List (Place × TreeEntry) :=
  work.entries.filter (taken ·.1) ++
    index.entries.filter fun entry => !taken entry.1 && !decide (Displaced work taken entry.1)

section

variable {index work : Files} {taken : Place → Bool} {p q : Place}

theorem mem_takeUpEntries :
    p ∈ (takeUpEntries index work taken).map Prod.fst ↔
      p ∈ work.entries.map Prod.fst ∧ taken p = true ∨
        p ∈ index.entries.map Prod.fst ∧ taken p = false ∧ ¬ Displaced work taken p := by
  simp only [takeUpEntries, List.map_append, List.mem_append, List.mem_map, List.mem_filter,
    Bool.and_eq_true, Bool.not_eq_true', decide_eq_false_iff_not]
  constructor
  · rintro (⟨entry, ⟨hmem, htaken⟩, rfl⟩ | ⟨entry, ⟨hmem, htaken⟩, rfl⟩)
    · exact .inl ⟨⟨entry, hmem, rfl⟩, htaken⟩
    · exact .inr ⟨⟨entry, hmem, rfl⟩, htaken⟩
  · rintro (⟨⟨entry, hmem, rfl⟩, htaken⟩ | ⟨⟨entry, hmem, rfl⟩, htaken⟩)
    · exact .inl ⟨entry, ⟨hmem, htaken⟩, rfl⟩
    · exact .inr ⟨entry, ⟨hmem, htaken⟩, rfl⟩

theorem displaced_of_mem (hp : p ∈ work.entries.map Prod.fst) (htaken : taken p = true)
    (h : Meet p q) : Displaced work taken q := by
  obtain ⟨entry, hmem, rfl⟩ := List.mem_map.mp hp
  exact ⟨entry, hmem, htaken, h⟩

theorem nodup_takeUpEntries (index work : Files) (taken : Place → Bool) :
    ((takeUpEntries index work taken).map Prod.fst).Nodup := by
  rw [takeUpEntries, List.map_append]
  refine List.Nodup.append (work.nodup.sublist (List.filter_sublist.map _))
    (index.nodup.sublist (List.filter_sublist.map _)) fun p hwork hindex => ?_
  obtain ⟨entry, hentry, rfl⟩ := List.mem_map.mp hwork
  obtain ⟨entry', hentry', heq⟩ := List.mem_map.mp hindex
  have htaken := (List.mem_filter.mp hentry).2
  have hleft := (List.mem_filter.mp hentry').2
  rw [heq, htaken] at hleft
  cases hleft

/-- What is taken up displaces what would lie above or below it. -/
theorem apart_takeUpEntries (index work : Files) (taken : Place → Bool) :
    ∀ p ∈ (takeUpEntries index work taken).map Prod.fst,
      ∀ q ∈ (takeUpEntries index work taken).map Prod.fst, p <+: q → p = q := by
  intro p hp q hq h
  rw [mem_takeUpEntries] at hp hq
  rcases hp with ⟨hp, htaken⟩ | ⟨hp, -, hplace⟩ <;> rcases hq with ⟨hq, htaken'⟩ | ⟨hq, -, hplace'⟩
  · exact work.apart p hp q hq h
  · exact absurd (displaced_of_mem hp htaken (.inl h)) hplace'
  · exact absurd (displaced_of_mem hq htaken' (.inr h)) hplace
  · exact index.apart p hp q hq h

/-- The index, with what is taken up from the work tree. A file that is gone there is gone here. -/
def Files.takeUp (index work : Files) (taken : Place → Bool) : Files where
  entries := takeUpEntries index work taken
  nodup := nodup_takeUpEntries index work taken
  apart := apart_takeUpEntries index work taken

/-- **What the index holds where part of the work tree was taken up.** -/
theorem entryAt_takeUp (index work : Files) (taken : Place → Bool) (p : Place) :
    (index.takeUp work taken).entryAt p =
      if taken p then work.entryAt p
      else if Displaced work taken p then none else index.entryAt p := by
  have hstay := lookup_filter_fst (fun q => !taken q && !decide (Displaced work taken q)) index.entries p
  rw [Files.entryAt, Files.takeUp]
  change (_ ++ _ : List (Place × TreeEntry)).lookup p = _
  rw [List.lookup_append, lookup_filter_fst, hstay]
  cases taken p with
  | true =>
    rw [if_pos rfl, if_pos rfl, Bool.not_true, Bool.false_and]
    exact Option.or_none
  | false =>
    rw [if_neg Bool.false_ne_true, if_neg Bool.false_ne_true, Option.none_or, Bool.not_false,
      Bool.true_and]
    by_cases h : Displaced work taken p
    · rw [if_pos h, if_neg (by simp [h])]
    · rw [if_neg h, if_pos (by simp [h])]
      rfl

/-- Where a file is displaced that is not itself taken up the work tree has none. -/
theorem entryAt_of_displaced (h : Displaced work taken p) (hp : taken p = false) :
    work.entryAt p = none := by
  obtain ⟨entry, hmem, htaken, hmeet⟩ := h
  refine List.lookup_eq_none_iff.mpr fun entry' hmem' => ?_
  rw [bne_iff_ne]
  rintro rfl
  have heq : entry.1 = entry'.1 := by
    have hplace := List.mem_map_of_mem (f := Prod.fst) hmem
    have hplace' := List.mem_map_of_mem (f := Prod.fst) hmem'
    rcases hmeet with hmeet | hmeet
    · exact work.apart _ hplace _ hplace' hmeet
    · exact (work.apart _ hplace' _ hplace hmeet).symm
  rw [← heq, htaken] at hp
  cases hp

end

end Git

end Ao2
