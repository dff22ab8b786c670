import Ao2.Checks
import Ao2.Files.Tree
import Ao2.Obligations.Ledger
import Mathlib.Data.List.Lex
import Mathlib.Data.String.Basic

/-!
# The check of a ledger

The fragments of an obligation are looked for on the lines of the files of a target, in the order of
their paths. Contracts are left out, which are known by their paths, and so are the directories that
programs write to.

## Main results

* `searchableFileSnapshots_eq_ok` — what is searched with contracts is what is searched without
-/

namespace Ao2

namespace Obligations

open Files

/-! ### Targets -/

inductive Content where
  | text (s : String)
  | binary (size : ℕ)

def Content.size : Content → ℕ
  | text s => s.utf8ByteSize
  | binary size => size

def Content.text? : Content → Option String
  | text s => some s
  | binary _ => none

/-- A file or a directory. Nothing is known of what is closed. -/
inductive Node where
  | file (content : Content)
  | dir (entries : List (String × Node))
  | other
  | closed

/-- What is at a place of a directory. -/
def Node.find? : Node → Place → Option Node
  | node, [] => some node
  | .dir entries, name :: rest => (entries.lookup name).bind (·.find? rest)
  | _, _ :: _ => none

/-- The text of a file at a path. Nothing but a directory has a path that ends with a slash. -/
def Node.readToString (root : Node) (path : String) : Option String :=
  if '\x00' ∈ path.toList ∨ path.toList.getLast? = some '/' ∨ endsInDot path then none
  else
    match root.find? (pathNames path) with
    | some (.file content) => content.text?
    | _ => none

/-! ### Files that are searched -/

/-- A text with every backslash turned round. -/
def forwardSlashes (s : String) : String := .ofList (s.toList.map fun c => if c = '\\' then '/' else c)

def relativePath (p : Place) : String := forwardSlashes ("/".intercalate p)

/-- What follows the last dot of a name, which the name must not begin with. -/
def extension (name : String) : Option String :=
  let suffix := (name.toList.reverse.takeWhile (· ≠ '.')).reverse
  if suffix.length + 1 < name.toList.length then some (.ofList suffix) else none

def searchableExtensions : List String :=
  ["md", "txt", "rs", "toml", "json", "yaml", "yml", "py", "js", "jsx", "ts", "tsx", "html", "css"]

def isSearchableFile (p : Place) (size : ℕ) : Bool :=
  size ≤ 2000000 && ((p.getLast?.bind extension).any (· ∈ searchableExtensions))

def skippedNames : List String := [".ao2", ".git", "target", "node_modules"]

def shouldExcludeGeneratedEvidenceDir (p : Place) : Bool :=
  ["docs", "status"] <+: p || ["docs", "evaluations"] <+: p

def listingError : String := "Permission denied (os error 13)"

mutual

/-- The files to search, from a place on. -/
def collectSearchableFiles (sourcePaths : List String) (p : Place) :
    Node → Except String (List (Place × Content))
  | .file content =>
    if relativePath p ∉ sourcePaths ∧ isSearchableFile p content.size then .ok [(p, content)] else .ok []
  | .dir entries => collectEntries sourcePaths p entries
  | .other => .ok []
  | .closed => .error listingError

def collectEntries (sourcePaths : List String) (p : Place) :
    List (String × Node) → Except String (List (Place × Content))
  | [] => .ok []
  | (name, child) :: rest =>
    if name ∈ skippedNames ∨ shouldExcludeGeneratedEvidenceDir (p ++ [name]) then
      collectEntries sourcePaths p rest
    else do
      let files ← collectSearchableFiles sourcePaths (p ++ [name]) child
      .ok (files ++ (← collectEntries sourcePaths p rest))

end

/-- The files to search, with their texts; a file that is no text is left out. -/
def searchableFileSnapshots (sourcePaths : List String) (root : Node) :
    Except String (List (Place × String)) := do
  let files ← collectSearchableFiles sourcePaths [] root
  .ok ((files.insertionSort fun a b => a.1 ≤ b.1).filterMap fun (p, content) =>
    content.text?.map (p, ·))

/-! ### The check -/

/-- The first line of a file with a fragment. -/
def findFragment (files : List (Place × String)) (fragment : String) : Option ObligationEvidence :=
  files.findSome? fun (p, text) =>
    ((lines text.toList).zipIdx 1).findSome? fun (line, number) =>
      if containsText (.ofList line) fragment then
        some ⟨relativePath p, number, "found expected fragment `" ++ fragment ++ "`"⟩
      else none

def obligationEvidencePointsToExistingLine (root : Node) (evidence : ObligationEvidence) : Bool :=
  evidence.line ≠ 0 && evidence.path.toList.head? ≠ some '/' && ".." ∉ pathParts evidence.path &&
    match root.readToString evidence.path with
    | some text => (lines text.toList)[evidence.line - 1]?.isSome
    | none => false

def checkObligation (root : Node) (files : List (Place × String)) (o : Obligation) : Obligation :=
  if o.waiver.isSome then { o with status := .waived }
  else if o.expectedFragments = [] then
    { o with
      status :=
        if o.evidence = [] then .unverified
        else if o.evidence.all (obligationEvidencePointsToExistingLine root) then .pass
        else .fail }
  else
    let evidence := o.expectedFragments.filterMap (findFragment files)
    if evidence.length = o.expectedFragments.length then
      { o with status := .pass, evidence := evidence }
    else { o with status := .fail, evidence := [] }

def sourcePathsOf (ledger : ObligationLedger) : List String :=
  ledger.sourceContracts.map fun contract => forwardSlashes contract.path

def checkObligationLedger (ledger : ObligationLedger) (root : Node) : Except String ObligationLedger := do
  let files ← searchableFileSnapshots (sourcePathsOf ledger) root
  .ok (refreshSummaryAndVerdict
    { ledger with obligations := ledger.obligations.map (checkObligation root files) })

/-! ### What is searched -/

mutual

/-- What is collected with contracts is what is collected without, but for their paths, by induction
on the files of a target. -/
theorem collect_eq_ok (sourcePaths : List String) (p : Place) :
    (node : Node) → {files : List (Place × Content)} →
      collectSearchableFiles sourcePaths p node = .ok files →
      ∃ all, collectSearchableFiles [] p node = .ok all ∧
        files = all.filter (relativePath ·.1 ∉ sourcePaths)
  | .file content, files, h => by
    rw [collectSearchableFiles] at h
    by_cases hsize : isSearchableFile p content.size = true
    · refine ⟨[(p, content)], by rw [collectSearchableFiles, if_pos ⟨List.not_mem_nil, hsize⟩], ?_⟩
      by_cases hsource : relativePath p ∈ sourcePaths
      · rw [if_neg fun hno => hno.1 hsource] at h
        cases h
        simp [hsource]
      · rw [if_pos ⟨hsource, hsize⟩] at h
        cases h
        simp [hsource]
    · rw [if_neg fun hno => hsize hno.2] at h
      cases h
      exact ⟨[], by rw [collectSearchableFiles, if_neg fun hno => hsize hno.2], rfl⟩
  | .dir entries, files, h => by
    rw [collectSearchableFiles] at h ⊢
    exact collectEntries_eq_ok sourcePaths p entries h
  | .other, files, h => by
    cases h
    exact ⟨[], rfl, rfl⟩
  | .closed, files, h => by cases h

theorem collectEntries_eq_ok (sourcePaths : List String) (p : Place) :
    (entries : List (String × Node)) → {files : List (Place × Content)} →
      collectEntries sourcePaths p entries = .ok files →
      ∃ all, collectEntries [] p entries = .ok all ∧
        files = all.filter (relativePath ·.1 ∉ sourcePaths)
  | [], files, h => by
    cases h
    exact ⟨[], rfl, rfl⟩
  | (name, child) :: rest, files, h => by
    rw [collectEntries] at h
    split_ifs at h with hskip
    · obtain ⟨all, hall, rfl⟩ := collectEntries_eq_ok sourcePaths p rest h
      exact ⟨all, by rw [collectEntries, if_pos hskip, hall], rfl⟩
    · obtain ⟨here, hhere, h⟩ := bind_eq_ok.mp h
      obtain ⟨others, hothers, h⟩ := bind_eq_ok.mp h
      cases h
      obtain ⟨all, hall, rfl⟩ := collect_eq_ok sourcePaths (p ++ [name]) child hhere
      obtain ⟨allOthers, hallOthers, rfl⟩ := collectEntries_eq_ok sourcePaths p rest hothers
      refine ⟨all ++ allOthers, ?_, (List.filter_append ..).symm⟩
      rw [collectEntries, if_neg hskip]
      exact bind_eq_ok.mpr ⟨all, hall, bind_eq_ok.mpr ⟨allOthers, hallOthers, rfl⟩⟩

end

/-- **What is searched** with contracts is what is searched without, but for their paths. -/
theorem searchableFileSnapshots_eq_ok {sourcePaths : List String} {root : Node}
    {files : List (Place × String)} (h : searchableFileSnapshots sourcePaths root = .ok files) :
    ∃ all, searchableFileSnapshots [] root = .ok all ∧
      ∀ f, f ∈ files ↔ f ∈ all ∧ relativePath f.1 ∉ sourcePaths := by
  obtain ⟨collected, hcollected, h⟩ := bind_eq_ok.mp h
  cases h
  obtain ⟨all, hall, rfl⟩ := collect_eq_ok sourcePaths [] root hcollected
  refine ⟨_, bind_eq_ok.mpr ⟨all, hall, rfl⟩, fun f => ?_⟩
  simp only [List.mem_filterMap, List.mem_insertionSort, List.mem_filter, Option.map_eq_some_iff,
    decide_eq_true_eq]
  constructor
  · rintro ⟨⟨p, content⟩, ⟨hmem, hsource⟩, text, htext, rfl⟩
    exact ⟨⟨(p, content), hmem, text, htext, rfl⟩, hsource⟩
  · rintro ⟨⟨⟨p, content⟩, hmem, text, htext, rfl⟩, hsource⟩
    exact ⟨(p, content), ⟨hmem, hsource⟩, text, htext, rfl⟩

/-! ### What is found -/

/-- The fragment is on a line of one of these files. -/
def OnLine (files : List (Place × String)) (fragment : String) : Prop :=
  ∃ f ∈ files, ∃ line ∈ lines f.2.toList, containsText (.ofList line) fragment = true

theorem isSome_findFragment {files : List (Place × String)} {fragment : String} :
    (findFragment files fragment).isSome = true ↔ OnLine files fragment := by
  rw [findFragment, List.findSome?_isSome_iff]
  refine exists_congr fun f => and_congr_right fun _ => ?_
  rw [List.findSome?_isSome_iff]
  constructor
  · rintro ⟨⟨line, number⟩, hmem, hfound⟩
    refine ⟨line, List.fst_mem_of_mem_zipIdx hmem, ?_⟩
    by_contra hno
    dsimp only at hfound
    rw [if_neg hno] at hfound
    cases hfound
  · rintro ⟨line, hline, hcontains⟩
    obtain ⟨i, hi, rfl⟩ := List.getElem_of_mem hline
    refine ⟨(_, 1 + i), List.mk_add_mem_zipIdx_iff_getElem?.mpr (List.getElem?_eq_getElem hi), ?_⟩
    dsimp only
    rw [if_pos hcontains]
    rfl

theorem length_filterMap_eq {α β : Type} {f : α → Option β} (l : List α) :
    (l.filterMap f).length = l.length ↔ ∀ a ∈ l, (f a).isSome = true := by
  induction l with
  | nil => exact iff_of_true rfl fun _ h => absurd h List.not_mem_nil
  | cons a l ih =>
    rw [List.forall_mem_cons, ← ih]
    have hle := List.length_filterMap_le f l
    cases h : f a with
    | none =>
      rw [List.filterMap_cons_none h, List.length_cons]
      refine iff_of_false (by omega) fun hno => ?_
      cases hno.1
    | some b =>
      rw [List.filterMap_cons_some h, List.length_cons, List.length_cons]
      simp

/-! ### What has passed -/

section

variable {root : Node} {files : List (Place × String)} {o : Obligation}

/-- What a check leaves as it is. -/
theorem checkObligation_same : (checkObligation root files o).id = o.id ∧
    (checkObligation root files o).kind = o.kind ∧
    (checkObligation root files o).expectedFragments = o.expectedFragments ∧
    (checkObligation root files o).waiver = o.waiver ∧
    (o.expectedFragments = [] → (checkObligation root files o).evidence = o.evidence) := by
  rw [checkObligation]
  by_cases hwaived : o.waiver.isSome = true
  · rw [if_pos hwaived]
    exact ⟨rfl, rfl, rfl, rfl, fun _ => rfl⟩
  rw [if_neg hwaived]
  by_cases hnone : o.expectedFragments = []
  · rw [if_pos hnone]
    exact ⟨rfl, rfl, rfl, rfl, fun _ => rfl⟩
  rw [if_neg hnone]
  dsimp only
  split_ifs
  · exact ⟨rfl, rfl, rfl, rfl, fun h => absurd h hnone⟩
  · exact ⟨rfl, rfl, rfl, rfl, fun h => absurd h hnone⟩

/-- An obligation that is not waived has passed when it has evidence on lines that are there, or when
all of its fragments are on lines that were searched. -/
theorem status_checkObligation (hwaiver : o.waiver = none) :
    ((checkObligation root files o).status = .pass ∨ (checkObligation root files o).status = .waived) ↔
      if o.expectedFragments = [] then
        o.evidence ≠ [] ∧ ∀ e ∈ o.evidence, obligationEvidencePointsToExistingLine root e = true
      else ∀ fragment ∈ o.expectedFragments, OnLine files fragment := by
  rw [checkObligation, if_neg (by rw [hwaiver]; decide)]
  by_cases hfragments : o.expectedFragments = []
  · rw [if_pos hfragments, if_pos hfragments]
    dsimp only
    split_ifs with hnone hall
    · exact iff_of_false (by decide) fun h => h.1 hnone
    · exact iff_of_true (.inl rfl) ⟨hnone, List.all_eq_true.mp hall⟩
    · exact iff_of_false (by decide) fun h => hall (List.all_eq_true.mpr h.2)
  · rw [if_neg hfragments, if_neg hfragments]
    have hfound : (o.expectedFragments.filterMap (findFragment files)).length =
        o.expectedFragments.length ↔ ∀ fragment ∈ o.expectedFragments, OnLine files fragment :=
      (length_filterMap_eq _).trans (forall₂_congr fun _ _ => isSome_findFragment)
    dsimp only
    split_ifs with hlength
    · exact iff_of_true (.inl rfl) (hfound.mp hlength)
    · exact iff_of_false (by decide) fun h => hlength (hfound.mpr h)

end

end Obligations

end Ao2
