import Ao2.Files.Linked
import Ao2.Obligations.Search

/-!
# The search in a tree with links

The search asks what a path leads to, and goes down if it is a directory. So it follows links, also
those to a directory that it is in, until the operating system refuses; and it fails with the first
path that leads nowhere.

## Main results

* `collectSearchableFiles_enough` — the search comes to an end
-/

namespace Ao2

namespace Obligations

namespace Linked

open Files

/-! ### The search -/

/-- A target, by the path of its root. -/
structure Target where
  fs : LinkedTree Content
  root : Place

namespace Target

/-- Where a path of the target leads. -/
def resolve (t : Target) (p : Place) : Option Place := t.fs.resolve (t.root ++ p)

/-- What a path of the target leads to. -/
def status (t : Target) (p : Place) : Option (LinkedNode Content) := t.fs.status (t.root ++ p)

end Target

/-- The files and the directories of a search, in the order in which it comes to them. -/
structure Walk where
  files : List Place
  visited : List Place

/-- A name that the search passes over in a directory. -/
def isSkipped (p : Place) (name : String) : Bool :=
  name ∈ skippedNames || shouldExcludeGeneratedEvidenceDir (p ++ [name])

/-- A file with a path of the target is searched. -/
def isSearched (t : Target) (sourcePaths : List String) (p : Place) (content : Content) : Bool :=
  relativePath p ∉ sourcePaths && content.size ≤ 2000000 &&
    ((t.root ++ p).getLast?.bind extension).any (· ∈ searchableExtensions)

/-- The files to search, from a path on, down to some depth. Why the operating system refuses is left
out. -/
def collectSearchableFiles (t : Target) (sourcePaths : List String) : ℕ → Place → Except Unit Walk
  | 0, _ => .error ()
  | depth + 1, p =>
    match t.status p with
    | none => .error ()
    | some (.file content) => .ok ⟨if isSearched t sourcePaths p content then [p] else [], []⟩
    | some (.dir entries) => do
      let walks ← (entries.filter fun entry => !isSkipped p entry.1).mapM fun entry =>
        collectSearchableFiles t sourcePaths depth (p ++ [entry.1])
      .ok ⟨walks.flatMap (·.files), p :: walks.flatMap (·.visited)⟩
    | some _ => .ok ⟨[], []⟩

/-- The files to search. No path is longer than the system takes, and with each directory it grows. -/
def searchableFiles (t : Target) (sourcePaths : List String) : Except Unit Walk := do
  let walk ← collectSearchableFiles t sourcePaths (t.fs.maxPath + 1) []
  .ok { walk with files := walk.files.insertionSort (· ≤ ·) }

/-! ### Where the search comes -/

/-- The search comes to a path. -/
inductive Walked (t : Target) : Place → Prop
  | root : Walked t []
  | entry {p : Place} {entries : List (String × LinkedNode Content)} {entry : String × LinkedNode Content}
    (h : Walked t p) (hdir : t.status p = some (.dir entries)) (hmem : entry ∈ entries)
    (hkept : isSkipped p entry.1 = false) : Walked t (p ++ [entry.1])

/-- The path leads to a directory. -/
def IsDir (t : Target) (p : Place) : Prop := ∃ entries, t.status p = some (.dir entries)

/-- The path leads to a file that is searched. -/
def IsSearched (t : Target) (sourcePaths : List String) (p : Place) : Prop :=
  ∃ content, t.status p = some (.file content) ∧ isSearched t sourcePaths p content = true

variable {t : Target} {sourcePaths : List String} {p q : Place}

/-- What the search comes to it comes to through a directory. -/
theorem Walked.above {name : String} (h : Walked t (p ++ [name])) :
    Walked t p ∧ ∃ entries node, t.status p = some (.dir entries) ∧ (name, node) ∈ entries ∧
      isSkipped p name = false := by
  generalize hq : p ++ [name] = q at h
  cases h with
  | root => exact absurd hq (List.append_ne_nil_of_right_ne_nil _ (List.cons_ne_nil _ _))
  | @entry p' entries entry h hdir hmem hkept =>
    obtain ⟨rfl, hname⟩ := List.append_inj' hq rfl
    obtain rfl := List.singleton_inj.mp hname
    exact ⟨h, entries, entry.2, hdir, hmem, hkept⟩

/-- On the way to a path the search goes through an entry. -/
theorem Walked.first (h : Walked t q) (hpq : p <+: q) (hne : p ≠ q) :
    Walked t p ∧ ∃ entries node name, t.status p = some (.dir entries) ∧ (name, node) ∈ entries ∧
      isSkipped p name = false ∧ p ++ [name] <+: q := by
  induction q using List.reverseRecOn with
  | nil => exact absurd (List.prefix_nil.mp hpq) hne
  | append_singleton q name ih =>
    obtain ⟨hq, entries, node, hdir, hmem, hkept⟩ := h.above
    rcases List.prefix_concat_iff.mp hpq with heq | hpq
    · exact absurd heq hne
    by_cases heq : p = q
    · subst heq
      exact ⟨hq, entries, node, name, hdir, hmem, hkept, List.prefix_rfl⟩
    · obtain ⟨hp, entries, node, name', hdir, hmem, hkept, hpre⟩ := ih hq hpq heq
      exact ⟨hp, entries, node, name', hdir, hmem, hkept, hpre.trans (List.prefix_append q [name])⟩

/-- A directory has an entry of each name. -/
theorem status_named {entries : List (String × LinkedNode Content)}
    (h : t.status p = some (.dir entries)) : (entries.map Prod.fst).Nodup := by
  obtain ⟨place, -, hfound⟩ := Option.bind_eq_some_iff.mp h
  exact (t.fs.named.find? hfound).1

/-! ### What the search finds -/

/-- What a search from a path finds. -/
structure Finds (t : Target) (sourcePaths : List String) (p : Place) (walk : Walk) : Prop where
  resolves : ∀ q, p <+: q → Walked t q → t.status q ≠ none
  visited : ∀ q, q ∈ walk.visited ↔ p <+: q ∧ Walked t q ∧ IsDir t q
  files : ∀ q, q ∈ walk.files ↔ p <+: q ∧ Walked t q ∧ IsSearched t sourcePaths q
  nodup_visited : walk.visited.Nodup
  nodup_files : walk.files.Nodup

theorem not_prefix_of_ne {name name' : String} (hne : name ≠ name') (h : p ++ [name] <+: q) :
    ¬ p ++ [name'] <+: q := by
  obtain ⟨rest, rfl⟩ := h
  rintro ⟨rest', heq⟩
  rw [List.append_assoc, List.append_assoc] at heq
  exact hne (List.cons.inj (List.append_cancel_left heq)).1.symm

/-- What is found below the entries of a directory, put together. -/
theorem nodup_flatMap_of_entries {entries : List (String × LinkedNode Content)}
    (hnames : (entries.map Prod.fst).Nodup) {g : String × LinkedNode Content → List Place}
    (hbelow : ∀ entry ∈ entries, ∀ q ∈ g entry, p ++ [entry.1] <+: q)
    (hnodup : ∀ entry ∈ entries, (g entry).Nodup) : (entries.flatMap g).Nodup := by
  refine List.nodup_flatMap.mpr ⟨hnodup, ?_⟩
  have hdistinct : entries.Pairwise fun a b => a.1 ≠ b.1 := List.pairwise_map.mp hnames
  refine hdistinct.imp_of_mem fun ha hb hne q hqa hqb => ?_
  exact not_prefix_of_ne hne (hbelow _ ha q hqa) (hbelow _ hb q hqb)

/-- What the search finds from a directory on it finds from its entries on. -/
theorem Finds.dir {entries : List (String × LinkedNode Content)} (hp : Walked t p)
    (hdir : t.status p = some (.dir entries)) {g : String × LinkedNode Content → Walk}
    (hfinds : ∀ entry ∈ entries.filter fun entry => !isSkipped p entry.1,
      Finds t sourcePaths (p ++ [entry.1]) (g entry)) :
    Finds t sourcePaths p
      ⟨(entries.filter fun entry => !isSkipped p entry.1).flatMap fun entry => (g entry).files,
        p :: (entries.filter fun entry => !isSkipped p entry.1).flatMap fun entry => (g entry).visited⟩ := by
  have hnames : ((entries.filter fun entry => !isSkipped p entry.1).map Prod.fst).Nodup :=
    (status_named hdir).sublist (List.filter_sublist.map _)
  -- below the directory is what is below one of its entries
  have hfirst {q : Place} (hq : Walked t q) (hpq : p <+: q) (hne : p ≠ q) :
      ∃ entry ∈ entries.filter fun entry => !isSkipped p entry.1, p ++ [entry.1] <+: q := by
    obtain ⟨-, entries', node, name, hdir', hmem, hkept, hpre⟩ := hq.first hpq hne
    rw [hdir] at hdir'
    cases hdir'
    exact ⟨(name, node), List.mem_filter.mpr ⟨hmem, by rw [hkept]; rfl⟩, hpre⟩
  have hup {entry : String × LinkedNode Content} {q : Place} (h : p ++ [entry.1] <+: q) : p <+: q :=
    (List.prefix_append p [entry.1]).trans h
  refine ⟨fun q hpq hq => ?_, fun q => ?_, fun q => ?_, ?_, ?_⟩
  · by_cases heq : p = q
    · rw [← heq, hdir]
      exact Option.some_ne_none _
    · obtain ⟨entry, hentry, hpre⟩ := hfirst hq hpq heq
      exact (hfinds entry hentry).resolves q hpre hq
  · rw [List.mem_cons, List.mem_flatMap]
    constructor
    · rintro (rfl | ⟨entry, hentry, hq⟩)
      · exact ⟨List.prefix_rfl, hp, entries, hdir⟩
      · obtain ⟨hpre, hq⟩ := ((hfinds entry hentry).visited q).mp hq
        exact ⟨hup hpre, hq⟩
    · rintro ⟨hpq, hq, hqdir⟩
      by_cases heq : p = q
      · exact .inl heq.symm
      · obtain ⟨entry, hentry, hpre⟩ := hfirst hq hpq heq
        exact .inr ⟨entry, hentry, ((hfinds entry hentry).visited q).mpr ⟨hpre, hq, hqdir⟩⟩
  · rw [List.mem_flatMap]
    constructor
    · rintro ⟨entry, hentry, hq⟩
      obtain ⟨hpre, hq⟩ := ((hfinds entry hentry).files q).mp hq
      exact ⟨hup hpre, hq⟩
    · rintro ⟨hpq, hq, hfile⟩
      have hne : p ≠ q := by
        rintro rfl
        obtain ⟨content, hcontent, -⟩ := hfile
        rw [hdir] at hcontent
        cases hcontent
      obtain ⟨entry, hentry, hpre⟩ := hfirst hq hpq hne
      exact ⟨entry, hentry, ((hfinds entry hentry).files q).mpr ⟨hpre, hq, hfile⟩⟩
  · refine List.nodup_cons.mpr ⟨fun hmem => ?_, nodup_flatMap_of_entries hnames
      (fun entry hentry q hq => (((hfinds entry hentry).visited q).mp hq).1)
      fun entry hentry => (hfinds entry hentry).nodup_visited⟩
    obtain ⟨entry, hentry, hmem⟩ := List.mem_flatMap.mp hmem
    have hpre := (((hfinds entry hentry).visited p).mp hmem).1
    exact absurd hpre.length_le (by rw [List.length_append, List.length_singleton]; omega)
  · exact nodup_flatMap_of_entries hnames
      (fun entry hentry q hq => (((hfinds entry hentry).files q).mp hq).1)
      fun entry hentry => (hfinds entry hentry).nodup_files

/-- What a search that comes to its end brings. -/
def walkOf (walk : Except Unit Walk) : Walk := walk.toOption.getD ⟨[], []⟩

theorem mapM_eq_ok_walkOf {β : Type} {f : β → Except Unit Walk} {l : List β} {walks : List Walk}
    (h : l.mapM f = .ok walks) :
    walks = l.map (fun a => walkOf (f a)) ∧ ∀ a ∈ l, f a = .ok (walkOf (f a)) := by
  have hall := mapM_eq_ok.mp h
  clear h
  induction hall with
  | nil => exact ⟨rfl, fun _ hno => absurd hno List.not_mem_nil⟩
  | @cons a walk l walks ha _ ih =>
    rw [List.map_cons, List.forall_mem_cons, ha, ih.1]
    exact ⟨rfl, rfl, ih.2⟩

/-- **What a search finds**, by induction on the depth. -/
theorem collectSearchableFiles_eq_ok {depth : ℕ} {walk : Walk} (hp : Walked t p)
    (h : collectSearchableFiles t sourcePaths depth p = .ok walk) : Finds t sourcePaths p walk := by
  induction depth generalizing p walk with
  | zero => cases h
  | succ depth ih =>
    rw [collectSearchableFiles] at h
    -- below what is no directory there is nothing to come to
    have hleaf {q : Place} (hno : ¬ IsDir t p) (hpq : p <+: q) (hq : Walked t q) : q = p := by
      by_contra hne
      obtain ⟨-, entries, _, _, hdir, -⟩ := hq.first hpq fun h => hne h.symm
      exact hno ⟨entries, hdir⟩
    cases hstatus : t.status p with
    | none =>
      rw [hstatus] at h
      cases h
    | some node =>
      rw [hstatus] at h
      have hresolves {q : Place} (hno : ¬ IsDir t p) (hpq : p <+: q) (hq : Walked t q) :
          t.status q ≠ none := by
        rw [hleaf hno hpq hq, hstatus]
        exact Option.some_ne_none _
      -- of what is neither a file nor a directory nothing is found
      have hother (hno : ¬ IsDir t p) (hfile : ∀ content, node ≠ .file content) :
          Finds t sourcePaths p ⟨[], []⟩ := by
        refine ⟨fun q => hresolves hno, fun q => ?_, fun q => ?_, List.nodup_nil, List.nodup_nil⟩
        · refine iff_of_false List.not_mem_nil ?_
          rintro ⟨hpq, hq, hqdir⟩
          exact hno (hleaf hno hpq hq ▸ hqdir)
        · refine iff_of_false List.not_mem_nil ?_
          rintro ⟨hpq, hq, content, hcontent, -⟩
          rw [hleaf hno hpq hq, hstatus] at hcontent
          exact hfile content (Option.some.inj hcontent)
      cases node with
      | dir entries =>
        obtain ⟨walks, hwalks, h⟩ := bind_eq_ok.mp h
        obtain ⟨rfl, hok⟩ := mapM_eq_ok_walkOf hwalks
        cases h
        rw [List.flatMap_map, List.flatMap_map]
        refine Finds.dir hp hstatus fun entry hentry => ih ?_ (hok entry hentry)
        obtain ⟨hmem, hkept⟩ := List.mem_filter.mp hentry
        exact hp.entry hstatus hmem (Bool.not_eq_true' _ ▸ hkept)
      | file content =>
        cases h
        have hno : ¬ IsDir t p := by
          rintro ⟨entries, hdir⟩
          rw [hstatus] at hdir
          cases hdir
        refine ⟨fun q => hresolves hno, fun q => ?_, fun q => ?_, List.nodup_nil, ?_⟩
        · refine iff_of_false List.not_mem_nil ?_
          rintro ⟨hpq, hq, hqdir⟩
          exact hno (hleaf hno hpq hq ▸ hqdir)
        · constructor
          · intro hmem
            split_ifs at hmem with hsearched
            · obtain rfl := List.mem_singleton.mp hmem
              exact ⟨List.prefix_rfl, hp, content, hstatus, hsearched⟩
            · exact absurd hmem List.not_mem_nil
          · rintro ⟨hpq, hq, content', hcontent, hsearched⟩
            rw [hleaf hno hpq hq, hstatus] at hcontent
            cases hcontent
            rw [hleaf hno hpq hq] at hsearched ⊢
            rw [if_pos hsearched]
            exact List.mem_singleton_self p
        · split_ifs
          · exact List.nodup_singleton p
          · exact List.nodup_nil
      | link target =>
        cases h
        refine hother ?_ (fun _ hno => by cases hno)
        rintro ⟨entries, hdir⟩
        rw [hstatus] at hdir
        cases hdir
      | other =>
        cases h
        refine hother ?_ (fun _ hno => by cases hno)
        rintro ⟨entries, hdir⟩
        rw [hstatus] at hdir
        cases hdir

/-! ### That the search comes to an end -/

/-- A path that leads somewhere is not longer than the system takes. -/
theorem length_le_maxPath (h : t.status p ≠ none) : p.length ≤ t.fs.maxPath := by
  obtain ⟨node, hnode⟩ := Option.ne_none_iff_exists'.mp h
  obtain ⟨place, hplace, -⟩ := Option.bind_eq_some_iff.mp hnode
  have hlength := LinkedTree.length_le_pathSize (t.root ++ p)
  have hsize := LinkedTree.pathSize_le_of_resolve hplace
  rw [List.length_append] at hlength
  omega

/-- **The search comes to an end** at every depth from some on, and in the same way. -/
theorem collectSearchableFiles_enough {depth : ℕ} (h : t.fs.maxPath < depth + p.length) (k : ℕ) :
    collectSearchableFiles t sourcePaths (depth + k) p = collectSearchableFiles t sourcePaths depth p := by
  induction depth generalizing p with
  | zero =>
    have hnone : t.status p = none := by
      by_contra hsome
      exact absurd (length_le_maxPath hsome) (by omega)
    cases k with
    | zero => rfl
    | succ k =>
      rw [Nat.zero_add, collectSearchableFiles, collectSearchableFiles, hnone]
  | succ depth ih =>
    rw [Nat.add_right_comm, collectSearchableFiles, collectSearchableFiles]
    have hchild (entry : String × LinkedNode Content) :
        collectSearchableFiles t sourcePaths (depth + k) (p ++ [entry.1]) =
          collectSearchableFiles t sourcePaths depth (p ++ [entry.1]) :=
      ih (by rw [List.length_append, List.length_singleton]; omega)
    simp only [hchild]

/-- A search fails only where a path leads nowhere. -/
theorem exists_collectSearchableFiles {depth : ℕ} (hp : Walked t p)
    (hall : ∀ q, p <+: q → Walked t q → t.status q ≠ none) (h : t.fs.maxPath < depth + p.length) :
    ∃ walk, collectSearchableFiles t sourcePaths depth p = .ok walk := by
  induction depth generalizing p with
  | zero => exact absurd (length_le_maxPath (hall p List.prefix_rfl hp)) (by omega)
  | succ depth ih =>
    rw [collectSearchableFiles]
    cases hstatus : t.status p with
    | none => exact absurd hstatus (hall p List.prefix_rfl hp)
    | some node =>
      cases node with
      | dir entries =>
        have hentries : ∀ entry ∈ entries.filter fun entry => !isSkipped p entry.1,
            collectSearchableFiles t sourcePaths depth (p ++ [entry.1]) =
              .ok (walkOf (collectSearchableFiles t sourcePaths depth (p ++ [entry.1]))) := by
          intro entry hentry
          obtain ⟨hmem, hkept⟩ := List.mem_filter.mp hentry
          obtain ⟨walk, hwalk⟩ := ih (hp.entry hstatus hmem (Bool.not_eq_true' _ ▸ hkept))
            (fun q hpre => hall q ((List.prefix_append p [entry.1]).trans hpre))
            (by rw [List.length_append, List.length_singleton]; omega)
          rw [hwalk]
          rfl
        have hwalks := mapM_eq_ok.mpr
          (List.forall₂_map_right_iff.mpr (List.forall₂_same.mpr hentries))
        exact ⟨_, bind_eq_ok.mpr ⟨_, hwalks, rfl⟩⟩
      | file content => exact ⟨_, rfl⟩
      | link target => exact ⟨_, rfl⟩
      | other => exact ⟨_, rfl⟩

end Linked

end Obligations

end Ao2
