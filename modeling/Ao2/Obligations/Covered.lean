import Ao2.Obligations.Linked

/-!
# What a search covers

A search that covers a target lists each of its directories once and finds each of its searchable files
once. It does exactly if no path leads nowhere and no two paths lead to the same directory or file: a
link that dangles ends the search, and one that leads to a directory above is followed until the
operating system refuses.
-/

namespace Ao2

namespace Obligations

namespace Linked

open Files

/-- A name on the way is passed over. -/
def Hidden (q : Place) : Prop := ∃ p name, p ++ [name] <+: q ∧ isSkipped p name = true

/-- **A search covers a target**: the files that it finds are searchable, in the order of their paths and
no file twice; every searchable file is one of them; and no directory is listed twice. -/
structure Covers (t : Target) (sourcePaths : List String) (walk : Walk) : Prop where
  searched : ∀ p ∈ walk.files, IsSearched t sourcePaths p
  sorted : walk.files.Pairwise (· ≤ ·)
  once : (walk.files.map t.resolve).Nodup
  complete : ∀ base q content, t.resolve [] = some base →
    t.fs.node.find? (base ++ q) = some (.file content) → ¬ Hidden q →
      isSearched t sourcePaths q content = true → some (base ++ q) ∈ walk.files.map t.resolve
  visits : (walk.visited.map t.resolve).Nodup

/-- Every path leads somewhere, and no two to the same directory or to the same file that is
searched. -/
structure Plain (t : Target) (sourcePaths : List String) : Prop where
  resolves : ∀ p, Walked t p → t.status p ≠ none
  dirs : ∀ p q, Walked t p → Walked t q → IsDir t p → t.resolve p = t.resolve q → p = q
  files : ∀ p q, Walked t p → Walked t q → IsSearched t sourcePaths p →
    IsSearched t sourcePaths q → t.resolve p = t.resolve q → p = q

variable {t : Target} {sourcePaths : List String} {p q base : Place}

theorem status_of_resolve {place : Place} (h : t.resolve p = some place) :
    t.status p = t.fs.node.find? place := by
  rw [Target.status, LinkedTree.status, ← Target.resolve, h, Option.bind_some]

theorem exists_resolve (h : t.status p ≠ none) : ∃ place, t.resolve p = some place := by
  obtain ⟨node, hnode⟩ := Option.ne_none_iff_exists'.mp h
  obtain ⟨place, hplace, -⟩ := Option.bind_eq_some_iff.mp hnode
  exact ⟨place, hplace⟩

theorem IsDir.congr (h : t.resolve p = t.resolve q) (hp : IsDir t p) : IsDir t q := by
  obtain ⟨entries, hentries⟩ := hp
  refine ⟨entries, ?_⟩
  rw [← hentries, Target.status, Target.status, LinkedTree.status, LinkedTree.status, ← Target.resolve,
    ← Target.resolve, h]

/-- The search comes to what is in a target, by induction on the place. -/
theorem walked_of_find? (hbase : t.resolve [] = some base)
    (hresolves : ∀ p, Walked t p → t.status p ≠ none) {node : LinkedNode Content}
    (hfound : t.fs.node.find? (base ++ q) = some node) (hlink : ∀ target, node ≠ .link target)
    (hhidden : ¬ Hidden q) : Walked t q ∧ t.resolve q = some (base ++ q) := by
  induction q using List.reverseRecOn generalizing node with
  | nil => exact ⟨.root, by rw [List.append_nil]; exact hbase⟩
  | append_singleton q name ih =>
    have hstep := hfound
    rw [← List.append_assoc, LinkedNode.find?_concat] at hstep
    obtain ⟨parent, hparent, hnode⟩ := Option.bind_eq_some_iff.mp hstep
    cases parent with
    | dir entries =>
      rw [LinkedNode.find?_dir_singleton] at hnode
      have hshown : ¬ Hidden q := by
        rintro ⟨p, name', hpre, hskipped⟩
        exact hhidden ⟨p, name', hpre.trans (List.prefix_append q [name]), hskipped⟩
      have hkept : isSkipped q name = false :=
        Bool.eq_false_iff.mpr fun hskipped => hhidden ⟨q, name, List.prefix_rfl, hskipped⟩
      obtain ⟨hq, hresolve⟩ := ih hparent (fun _ hno => by cases hno) hshown
      have hwalked : Walked t (q ++ [name]) :=
        hq.entry ((status_of_resolve hresolve).trans hparent) (LinkedNode.mem_of_lookup hnode) hkept
      obtain ⟨place, hplace⟩ := exists_resolve (hresolves _ hwalked)
      have hsize := LinkedTree.pathSize_le_of_resolve hplace
      refine ⟨hwalked, ?_⟩
      rw [← List.append_nil t.root, List.append_assoc, List.nil_append] at hsize
      have happend := LinkedTree.resolve_append (p := t.root) (q := q ++ [name])
        (by rw [← hbase, Target.resolve, List.append_nil]) hfound hlink hsize
      exact happend
    | _ => cases hnode

/-- What is found from the root on, in order. -/
theorem searchableFiles_eq_ok {walk : Walk} (h : searchableFiles t sourcePaths = .ok walk) :
    (∀ q, Walked t q → t.status q ≠ none) ∧
      (∀ q, q ∈ walk.visited ↔ Walked t q ∧ IsDir t q) ∧
      (∀ q, q ∈ walk.files ↔ Walked t q ∧ IsSearched t sourcePaths q) ∧
      walk.visited.Nodup ∧ walk.files.Nodup ∧ walk.files.Pairwise (· ≤ ·) := by
  obtain ⟨found, hfound, h⟩ := bind_eq_ok.mp h
  cases h
  have hfinds := collectSearchableFiles_eq_ok .root hfound
  refine ⟨fun q => hfinds.resolves q List.nil_prefix, fun q => ?_, fun q => ?_, hfinds.nodup_visited,
    ?_, List.pairwise_insertionSort _ _⟩
  · rw [hfinds.visited q, and_iff_right List.nil_prefix]
  · rw [List.mem_insertionSort, hfinds.files q, and_iff_right List.nil_prefix]
  · exact (List.perm_insertionSort _ _).nodup_iff.mpr hfinds.nodup_files

/-- **Which searches cover their targets.** The search comes to its end in the same way at any depth
that is enough; and it succeeds and covers the target if and only if the target is plain. -/
theorem covers_iff (t : Target) (sourcePaths : List String) :
    (∀ depth, t.fs.maxPath < depth → collectSearchableFiles t sourcePaths depth [] =
      collectSearchableFiles t sourcePaths (t.fs.maxPath + 1) []) ∧
    ((∃ walk, searchableFiles t sourcePaths = .ok walk ∧ Covers t sourcePaths walk) ↔
      Plain t sourcePaths) := by
  refine ⟨fun depth hdepth => ?_, ?_, fun hplain => ?_⟩
  · obtain ⟨k, rfl⟩ := Nat.exists_eq_add_of_le hdepth
    exact collectSearchableFiles_enough (by simp) k
  · rintro ⟨walk, hwalk, hcovers⟩
    obtain ⟨hresolves, hvisited, hfiles, -⟩ := searchableFiles_eq_ok hwalk
    refine ⟨hresolves, fun p q hp hq hdir hsame => ?_, fun p q hp hq hsearched hsearched' hsame => ?_⟩
    · have hdir' : IsDir t q := hdir.congr hsame
      exact List.inj_on_of_nodup_map hcovers.visits ((hvisited p).mpr ⟨hp, hdir⟩)
        ((hvisited q).mpr ⟨hq, hdir'⟩) hsame
    · exact List.inj_on_of_nodup_map hcovers.once ((hfiles p).mpr ⟨hp, hsearched⟩)
        ((hfiles q).mpr ⟨hq, hsearched'⟩) hsame
  · obtain ⟨found, hfound⟩ : ∃ walk,
        collectSearchableFiles t sourcePaths (t.fs.maxPath + 1) [] = .ok walk :=
      exists_collectSearchableFiles .root (fun q _ => hplain.resolves q) (by simp)
    obtain ⟨walk, hwalk⟩ : ∃ walk, searchableFiles t sourcePaths = .ok walk :=
      ⟨_, bind_eq_ok.mpr ⟨found, hfound, rfl⟩⟩
    obtain ⟨hresolves, hvisited, hfiles, hnodup, hnodupFiles, hsorted⟩ := searchableFiles_eq_ok hwalk
    refine ⟨walk, hwalk, fun p hp => ((hfiles p).mp hp).2, hsorted, ?_, ?_, ?_⟩
    · refine hnodupFiles.map_on fun p hp q hq hsame => ?_
      obtain ⟨hp, hsearched⟩ := (hfiles p).mp hp
      obtain ⟨hq, hsearched'⟩ := (hfiles q).mp hq
      exact hplain.files p q hp hq hsearched hsearched' hsame
    · intro base q content hbase hcontent hhidden hsearched
      obtain ⟨hq, hresolve⟩ := walked_of_find? hbase hresolves hcontent (fun _ hno => by cases hno) hhidden
      have hstatus := (status_of_resolve hresolve).trans hcontent
      exact List.mem_map.mpr ⟨q, (hfiles q).mpr ⟨hq, content, hstatus, hsearched⟩, hresolve⟩
    · refine hnodup.map_on fun p hp q hq hsame => ?_
      obtain ⟨hp, hdir⟩ := (hvisited p).mp hp
      exact hplain.dirs p q hp ((hvisited q).mp hq).1 hdir hsame

/-! ### A link that dangles -/

/-- A target with a note, and with a link to a note that is gone. -/
def danglingTarget : Target where
  fs := {
    node := .dir [("a.md", .file (.text "must")), ("gone.md", .link "missing.md")]
    named := ⟨by decide, by decide, trivial, by decide, trivial, trivial⟩
    maxLinks := 40
    maxPath := 4096 }
  root := []

/-- The search of the target fails. -/
theorem not_covers_dangling : ¬ ∀ t sourcePaths, ∃ walk, searchableFiles t sourcePaths = .ok walk ∧
    Covers t sourcePaths walk := by
  intro h
  obtain ⟨walk, hwalk, -⟩ := h danglingTarget []
  have herror : searchableFiles danglingTarget [] = .error () := rfl
  rw [herror] at hwalk
  cases hwalk

end Linked

end Obligations

end Ao2
