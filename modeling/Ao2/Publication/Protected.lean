import Ao2.Git.Changes
import Ao2.Publication.Bound
import Mathlib.Data.Finset.Sort

/-!
# Protected paths

Before anything is published the local repository is checked: the approved commit is there, the
difference from its base is the approved one, and none of the changed paths is protected by the
envelope. The changed paths are the names that a comparison of the two commits reports.

A renamed file is reported under its new name only. So the check sees a protected file that was
changed, added or deleted, but not one that was moved out of its place.

## Main results

* `refused_iff` — when a protected change is refused
-/

namespace Ao2

open Git

/-! ### The check -/

/-- The bytes of a text. -/
def textBytes (text : String) : Bytes := text.toByteArray.data.toList

def isUtf8 (bytes : Bytes) : Bool := decide (ByteArray.IsValidUTF8 ⟨bytes.toArray⟩)

def slashByte : UInt8 := 47

def backslashByte : UInt8 := 92

def starByte : UInt8 := 42

/-- `/**`, the end of a pattern for a directory. -/
def anyBelow : Bytes := [47, 42, 42]

/-- A path that does not lead down from where it starts. -/
def unsafePath (path : Bytes) : Bool :=
  path = [] || path.head? = some slashByte || backslashByte ∈ path ||
    (path.splitOn slashByte).any fun component => component = [] || component = [46, 46]

/-- The paths that a comparison of the commits reports. -/
def readGovernedChangedPaths (report : Except String Bytes) : Except String (List Bytes) := do
  let output ← report
  bailIf (output = []) "approved diff must change at least one path"
  (splitTerminated output).mapM fun path => do
    bailIf (!isUtf8 path) "approved diff changed path is not UTF-8"
    bailIf (unsafePath path) "approved diff contains an unsafe changed path"
    pure path

/-- A text without its end, if it ends like that. -/
def stripSuffix (suffix bytes : Bytes) : Option Bytes :=
  if suffix <:+ bytes then some (bytes.take (bytes.length - suffix.length)) else none

/-- A pattern matches one of the changed paths. -/
def patternTouched (pattern : Bytes) : List Bytes → Except String Bool
  | [] => .ok false
  | path :: paths => do
    bailIf (unsafePath path) "changed path is unsafe"
    match stripSuffix anyBelow pattern with
    | some dir => do
      bailIf (dir = []) "protected path prefix is empty"
      bailIf (path = dir) "changed path collides with a protected directory root"
      if dir ++ [slashByte] <+: path then pure true else patternTouched pattern paths
    | none => if path = pattern then pure true else patternTouched pattern paths

def deriveProtectedPathTouched (changedPaths : List Bytes) : List Bytes → Except String Bool
  | [] => .ok false
  | pattern :: patterns => do
    bailIf (pattern = [] ∨ pattern.head? = some slashByte ∨ backslashByte ∈ pattern)
      "protected path pattern is unsafe"
    bailIf (starByte ∈ pattern ∧ stripSuffix anyBelow pattern = none)
      "protected path pattern uses an unsupported wildcard"
    let touched ← patternTouched pattern changedPaths
    if touched then pure true else deriveProtectedPathTouched changedPaths patterns

/-- What the commands that inspect the local repository answer. -/
structure LocalRepository where
  /-- The commit that is checked out. -/
  head : Except String String
  /-- The files that differ from it. -/
  status : Except String String
  /-- The approved base is an ancestor of the approved head. -/
  baseIsAncestor : Bool
  /-- The digest of the difference between the two. -/
  diffDigest : Except String String
  /-- The names of the files in it. -/
  changedPaths : Except String Bytes

/-- The patterns of the envelope, in their order. -/
def protectedPatterns (plan : PublicationPlan) : Except String (List Bytes) := do
  let patterns ← jsonStrings plan.authority.runEnvelope ["routing", "protected_path_classes"]
  pure ((patterns.sort (· ≤ ·)).map textBytes)

def verifyLocalRepository (repository : LocalRepository) (plan : PublicationPlan) :
    Except String Unit := do
  let action := plan.pushAction
  expectRead repository.head action.headSha
    "local repository HEAD does not match the exact approved head"
  expectRead repository.status "" "local repository must be clean before publication"
  bailIf (!repository.baseIsAncestor)
    "approved base is not an ancestor of the approved head"
  expectRead repository.diffDigest action.diffDigest
    "local repository diff does not match the approved diff digest"
  let changedPaths ← readGovernedChangedPaths repository.changedPaths
  let patterns ← protectedPatterns plan
  let derived ← deriveProtectedPathTouched changedPaths patterns
  let claimed ← jsonBool plan.authority.governanceDecision ["protected_path_touched"]
  bailIf (derived ≠ claimed)
    "governance protected-path claim does not match the approved diff"
  bailIf derived "approved diff touches a protected path"

/-! ### What the check says -/

/-- A path matches a pattern: it is the same, or at or below the directory of the pattern. -/
def MatchedBy (pattern path : Bytes) : Prop :=
  path = pattern ∨
    ∃ dir, pattern = dir ++ anyBelow ∧ (path = dir ∨ dir ++ [slashByte] <+: path)

/-- A pattern of a kind that is understood. -/
structure Supported (pattern : Bytes) : Prop where
  ne_nil : pattern ≠ []
  relative : pattern.head? ≠ some slashByte
  noBackslash : backslashByte ∉ pattern
  wildcard : starByte ∈ pattern → ∃ dir, pattern = dir ++ anyBelow
  dir : ∀ dir, pattern = dir ++ anyBelow → dir ≠ []

theorem stripSuffix_eq_some {suffix bytes dir : Bytes} :
    stripSuffix suffix bytes = some dir ↔ bytes = dir ++ suffix := by
  unfold stripSuffix
  constructor
  · intro h
    split at h
    case isTrue hsuffix =>
      obtain ⟨pre, rfl⟩ := hsuffix
      cases h
      simp
    case isFalse => cases h
  · rintro rfl
    simp

theorem stripSuffix_eq_none {suffix bytes : Bytes} :
    stripSuffix suffix bytes = none ↔ ¬ ∃ dir, bytes = dir ++ suffix := by
  rw [Option.eq_none_iff_forall_ne_some]
  simp only [ne_eq, stripSuffix_eq_some, not_exists]

theorem matchedBy_dir {dir path : Bytes} :
    MatchedBy (dir ++ anyBelow) path ↔ path = dir ∨ dir ++ [slashByte] <+: path := by
  constructor
  · rintro (rfl | ⟨dir', heq, hpath⟩)
    · exact .inr ⟨[starByte, starByte], by simp [anyBelow, slashByte, starByte]⟩
    · rw [List.append_left_inj] at heq
      rw [heq]
      exact hpath
  · intro hpath
    exact .inr ⟨dir, rfl, hpath⟩

theorem matchedBy_plain {pattern path : Bytes} (h : ¬ ∃ dir, pattern = dir ++ anyBelow) :
    MatchedBy pattern path ↔ path = pattern :=
  ⟨fun hmatch => hmatch.resolve_right fun ⟨dir, heq, _⟩ => h ⟨dir, heq⟩, .inl⟩

/-- No changed path matches a pattern, and no changed path is unsafe. -/
theorem patternTouched_eq_false_iff {pattern : Bytes} {paths : List Bytes} :
    patternTouched pattern paths = .ok false ↔
      ∀ path ∈ paths, unsafePath path = false ∧ ¬ MatchedBy pattern path ∧
        ∀ dir, pattern = dir ++ anyBelow → dir ≠ [] := by
  induction paths with
  | nil => simp [patternTouched]
  | cons path paths ih =>
    rw [List.forall_mem_cons, ← ih, patternTouched, seq_eq_ok, bailIf_eq_ok, Bool.not_eq_true]
    cases hstrip : stripSuffix anyBelow pattern with
    | some dir =>
      obtain rfl := stripSuffix_eq_some.mp hstrip
      have hdir : (∀ dir', dir ++ anyBelow = dir' ++ anyBelow → dir' ≠ []) ↔ dir ≠ [] := by
        constructor
        · exact fun h => h dir rfl
        · rintro h dir' heq
          rw [List.append_left_inj] at heq
          exact heq ▸ h
      simp only [↓seq_eq_ok, bailIf_eq_ok]
      rw [hdir, matchedBy_dir, not_or]
      by_cases hbelow : dir ++ [slashByte] <+: path
      · rw [if_pos hbelow]
        simp [hbelow, pure, Except.pure]
      · rw [if_neg hbelow]
        tauto
    | none =>
      have hplain := stripSuffix_eq_none.mp hstrip
      have hdir : ∀ dir, pattern = dir ++ anyBelow → dir ≠ [] := fun dir heq =>
        absurd ⟨dir, heq⟩ hplain
      rw [matchedBy_plain hplain]
      by_cases heq : path = pattern
      · simp [heq, pure, Except.pure]
      · simp only [if_neg heq]
        tauto

theorem deriveProtectedPathTouched_eq_false_iff {paths patterns : List Bytes} (hpaths : paths ≠ []) :
    deriveProtectedPathTouched paths patterns = .ok false ↔
      ∀ pattern ∈ patterns, Supported pattern ∧
        ∀ path ∈ paths, unsafePath path = false ∧ ¬ MatchedBy pattern path := by
  induction patterns with
  | nil => simp [deriveProtectedPathTouched]
  | cons pattern patterns ih =>
    rw [List.forall_mem_cons, ← ih, deriveProtectedPathTouched]
    simp only [↓seq_eq_ok, bind_eq_ok, bailIf_eq_ok, not_or, not_and]
    constructor
    · rintro ⟨⟨hnil, hrelative, hbackslash⟩, hwildcard, touched, htouched, hrest⟩
      cases touched with
      | true => cases hrest
      | false =>
        have hall := patternTouched_eq_false_iff.mp htouched
        obtain ⟨path, hpath⟩ := List.exists_mem_of_ne_nil paths hpaths
        refine ⟨⟨⟨hnil, hrelative, hbackslash, fun hstar => ?_, (hall path hpath).2.2⟩,
          fun path hpath => ⟨(hall path hpath).1, (hall path hpath).2.1⟩⟩, hrest⟩
        have hstrip := hwildcard hstar
        rw [stripSuffix_eq_none, not_not] at hstrip
        exact hstrip
    · rintro ⟨⟨hsupported, hall⟩, hrest⟩
      refine ⟨⟨hsupported.ne_nil, hsupported.relative, hsupported.noBackslash⟩, fun hstar => ?_,
        false, ?_, hrest⟩
      · rw [stripSuffix_eq_none, not_not]
        exact hsupported.wildcard hstar
      · exact patternTouched_eq_false_iff.mpr fun path hpath =>
          ⟨(hall path hpath).1, (hall path hpath).2, hsupported.dir⟩

theorem readGovernedChangedPaths_terminated_iff {paths changed : List Bytes}
    (hnamed : ∀ path ∈ paths, path ≠ [] ∧ (0 : UInt8) ∉ path) :
    readGovernedChangedPaths (.ok (terminated paths)) = .ok changed ↔
      changed = paths ∧ paths ≠ [] ∧ ∀ path ∈ paths, isUtf8 path = true ∧ unsafePath path = false := by
  unfold readGovernedChangedPaths
  have hread (path path' : Bytes) : (do
      bailIf (!isUtf8 path) "approved diff changed path is not UTF-8"
      bailIf (unsafePath path) "approved diff contains an unsafe changed path"
      pure path : Except String Bytes) = .ok path' ↔
        (isUtf8 path = true ∧ unsafePath path = false) ∧ path = path' := by
    simp [and_assoc, pure, Except.pure]
  rw [bind_eq_ok]
  simp only [Except.ok.injEq, exists_eq_left', seq_eq_ok, bailIf_eq_ok, terminated_eq_nil, mapM_eq_ok,
    splitTerminated_terminated hnamed, hread, List.forall₂_and_left, List.forall₂_eq_eq_eq]
  tauto

/-! ### What is refused -/

/-- What the repository answers is a comparison of two trees. -/
structure Compares (repository : LocalRepository) {base head : Git.Tree} (renames : Renames base head)
    (paths : List Bytes) : Prop where
  report : repository.changedPaths = .ok (terminated paths)
  lists : Lists renames paths

/-- A path that a pattern of the envelope matches differs between two trees. -/
def ProtectedChange (plan : PublicationPlan) (base head : Git.Tree) (path : Bytes) : Prop :=
  Changed base head path ∧
    ∃ patterns, protectedPatterns plan = .ok patterns ∧ ∃ pattern ∈ patterns, MatchedBy pattern path

/-- Nothing is wrong with the repository and the plan, apart from what is changed. -/
structure OtherChecksPass (repository : LocalRepository) (plan : PublicationPlan)
    (paths : List Bytes) : Prop where
  head : repository.head = .ok plan.pushAction.headSha
  status : repository.status = .ok ""
  ancestor : repository.baseIsAncestor = true
  diff : repository.diffDigest = .ok plan.pushAction.diffDigest
  changed : paths ≠ []
  utf8 : ∀ path ∈ paths, isUtf8 path = true
  safe : ∀ path ∈ paths, unsafePath path = false
  patterns : ∃ patterns, protectedPatterns plan = .ok patterns ∧ ∀ p ∈ patterns, Supported p
  claimed : jsonBool plan.authority.governanceDecision ["protected_path_touched"] = .ok false

/-- The check passes if nothing else is wrong and no name that is reported is protected. -/
theorem verifyLocalRepository_eq_ok_iff {repository : LocalRepository} {plan : PublicationPlan}
    {paths : List Bytes} (hnamed : ∀ path ∈ paths, path ≠ [] ∧ (0 : UInt8) ∉ path)
    (hreport : repository.changedPaths = .ok (terminated paths)) :
    verifyLocalRepository repository plan = .ok () ↔ OtherChecksPass repository plan paths ∧
      ∀ patterns, protectedPatterns plan = .ok patterns → ∀ pattern ∈ patterns, ∀ path ∈ paths,
        ¬ MatchedBy pattern path := by
  unfold verifyLocalRepository
  simp only [↓seq_eq_ok, bind_eq_ok, bailIf_eq_ok, expectRead_eq_ok, hreport,
    readGovernedChangedPaths_terminated_iff hnamed, not_not, Bool.not_eq_true', Bool.not_eq_false,
    Bool.not_eq_true]
  constructor
  · rintro ⟨hhead, hstatus, hancestor, hdiff, changed, ⟨rfl, hne, hpaths⟩, patterns, hpatterns,
      derived, hderived, claimed, hclaimed, rfl, rfl⟩
    have hall := (deriveProtectedPathTouched_eq_false_iff hne).mp hderived
    refine ⟨⟨hhead, hstatus, hancestor, hdiff, hne, fun path hpath => (hpaths path hpath).1,
      fun path hpath => (hpaths path hpath).2, ⟨patterns, hpatterns, fun p hp => (hall p hp).1⟩,
      hclaimed⟩, ?_⟩
    intro patterns' hpatterns' pattern hpattern path hpath
    rw [hpatterns] at hpatterns'
    cases hpatterns'
    exact ((hall pattern hpattern).2 path hpath).2
  · rintro ⟨⟨hhead, hstatus, hancestor, hdiff, hne, hutf8, hsafe, ⟨patterns, hpatterns, hsupported⟩,
      hclaimed⟩, hclear⟩
    refine ⟨hhead, hstatus, hancestor, hdiff, paths,
      ⟨rfl, hne, fun path hpath => ⟨hutf8 path hpath, hsafe path hpath⟩⟩, patterns, hpatterns, false,
      ?_, false, hclaimed, rfl, rfl⟩
    refine (deriveProtectedPathTouched_eq_false_iff hne).mpr fun pattern hpattern => ?_
    exact ⟨hsupported pattern hpattern, fun path hpath =>
      ⟨hsafe path hpath, hclear patterns hpatterns pattern hpattern path hpath⟩⟩

/-- The publication is refused. -/
def Refused (repository : LocalRepository) (plan : PublicationPlan) : Prop :=
  ∃ message, verifyLocalRepository repository plan = .error message

theorem refused_iff_ne_ok {repository : LocalRepository} {plan : PublicationPlan} :
    Refused repository plan ↔ verifyLocalRepository repository plan ≠ .ok () := by
  unfold Refused
  cases verifyLocalRepository repository plan with
  | error message => simp
  | ok u => simp

/-- **When a protected change is refused.** It is unless every protected path that changed is the
old name of a renamed file and nothing else is wrong. -/
theorem refused_iff {repository : LocalRepository} {plan : PublicationPlan} {base head : Git.Tree}
    {renames : Renames base head} {paths : List Bytes} (h : Compares repository renames paths) :
    ((∃ path, ProtectedChange plan base head path) → Refused repository plan) ↔
      ((∃ path, ProtectedChange plan base head path) →
        (∃ path, ProtectedChange plan base head path ∧ path ∉ renames.sources) ∨
          ¬ OtherChecksPass repository plan paths) := by
  have hnamed : ∀ path ∈ paths, path ≠ [] ∧ (0 : UInt8) ∉ path := fun path hpath =>
    ((h.lists.2 path).mp hpath).1.named
  refine imp_congr_right fun _ => ?_
  rw [refused_iff_ne_ok, ne_eq, verifyLocalRepository_eq_ok_iff hnamed h.report, not_and_or, or_comm]
  refine or_congr_left ?_
  constructor
  · intro hclear
    simp only [not_forall, not_not] at hclear
    obtain ⟨patterns, hpatterns, pattern, hpattern, path, hpath, hmatch⟩ := hclear
    obtain ⟨hchanged, hsource⟩ := (h.lists.2 path).mp hpath
    exact ⟨path, ⟨hchanged, patterns, hpatterns, pattern, hpattern, hmatch⟩, hsource⟩
  · rintro ⟨path, ⟨hchanged, patterns, hpatterns, pattern, hpattern, hmatch⟩, hsource⟩ hclear
    exact hclear patterns hpatterns pattern hpattern path
      ((h.lists.2 path).mpr ⟨hchanged, hsource⟩) hmatch

/-! ### A protected file -/

def workflowPath : Bytes := textBytes "workflow"

def notesPath : Bytes := textBytes "notes"

/-- A tree with one file. -/
def oneFile (path : Bytes) (hpath : path ≠ [] ∧ (0 : UInt8) ∉ path) : Git.Tree where
  entries := [(path, ⟨33188, textBytes "on: push"⟩)]
  nodup := List.nodup_singleton path
  named := by
    intro path' hmem
    rw [List.map_singleton, List.mem_singleton] at hmem
    rw [hmem]
    exact hpath

def workflowTree : Git.Tree := oneFile workflowPath (by decide)

def notesTree : Git.Tree := oneFile notesPath (by decide)

/-- The protected file is moved to a place that is not protected. -/
def moved : Renames workflowTree notesTree where
  pairs := [(workflowPath, notesPath)]
  source := by decide
  target := by decide
  nodupSources := by decide
  nodupTargets := by decide

/-- A repository with the approved commits in which these files are reported. -/
def approvedRepository (paths : List Bytes) : LocalRepository where
  head := .ok fixtureHead
  status := .ok ""
  baseIsAncestor := true
  diffDigest := .ok fixtureDiff
  changedPaths := .ok (terminated paths)

theorem protectedPatterns_operatorPlan : protectedPatterns operatorPlan = .ok [workflowPath] := by
  have hread : jsonStrings operatorPlan.authority.runEnvelope
      ["routing", "protected_path_classes"] = .ok {"workflow"} := by decide
  unfold protectedPatterns
  rw [hread, bind_eq_ok]
  exact ⟨_, rfl, by rw [Finset.sort_singleton]; rfl⟩

theorem entryAt_oneFile {path path' : Bytes} {hpath : path ≠ [] ∧ (0 : UInt8) ∉ path} :
    (oneFile path hpath).entryAt path' =
      if path' = path then some ⟨33188, textBytes "on: push"⟩ else none := by
  rw [oneFile, Git.Tree.entryAt, List.lookup_cons]
  by_cases heq : path' = path
  · rw [if_pos heq, beq_iff_eq.mpr heq]
  · rw [if_neg heq, beq_eq_false_iff_ne.mpr heq, List.lookup_nil]

theorem compares_moved : Compares (approvedRepository [notesPath]) moved [notesPath] := by
  refine ⟨rfl, List.nodup_singleton _, fun path => ?_⟩
  have hne : workflowPath ≠ notesPath := by decide
  have hsources : moved.sources = [workflowPath] := rfl
  rw [hsources, List.mem_singleton, List.mem_singleton, Changed, workflowTree, notesTree,
    entryAt_oneFile, entryAt_oneFile]
  by_cases hw : path = workflowPath
  · simp [hw, hne]
  · by_cases hn : path = notesPath
    · simp [hn, hne.symm]
    · simp [hw, hn]

theorem otherChecksPass_approvedRepository {paths : List Bytes} (hne : paths ≠ [])
    (hpaths : ∀ path ∈ paths, isUtf8 path = true ∧ unsafePath path = false) :
    OtherChecksPass (approvedRepository paths) operatorPlan paths where
  head := rfl
  status := rfl
  ancestor := rfl
  diff := rfl
  changed := hne
  utf8 path hpath := (hpaths path hpath).1
  safe path hpath := (hpaths path hpath).2
  patterns := by
    refine ⟨_, protectedPatterns_operatorPlan, ?_⟩
    intro p hp
    rw [List.mem_singleton] at hp
    subst hp
    have hsuffix : stripSuffix anyBelow workflowPath = none := by decide
    have hnone := stripSuffix_eq_none.mp hsuffix
    exact ⟨by decide, by decide, by decide,
      fun hstar => absurd hstar (by decide), fun dir heq => absurd ⟨dir, heq⟩ hnone⟩
  claimed := by decide

theorem protectedChange_workflow : ProtectedChange operatorPlan workflowTree notesTree workflowPath :=
  ⟨by decide, _, protectedPatterns_operatorPlan, workflowPath, List.mem_singleton_self _,
    .inl rfl⟩

/-- A repository in which only a file that is not protected is said to differ. -/
theorem approvedRepository_notesPath :
    verifyLocalRepository (approvedRepository [notesPath]) operatorPlan = .ok () := by
  have hnotes : ∀ path ∈ [notesPath], path ≠ [] ∧ (0 : UInt8) ∉ path := by decide
  refine (verifyLocalRepository_eq_ok_iff hnotes rfl).mpr
    ⟨otherChecksPass_approvedRepository (by decide) (by decide), ?_⟩
  intro patterns hpatterns pattern hpattern path hpath
  rw [protectedPatterns_operatorPlan] at hpatterns
  cases hpatterns
  rw [List.mem_singleton] at hpattern hpath
  subst hpattern hpath
  have hsuffix : stripSuffix anyBelow workflowPath = none := by decide
  rw [matchedBy_plain (stripSuffix_eq_none.mp hsuffix)]
  decide

section

attribute [local instance] operatorPlatform

/-- A protected file is moved, and the publication is not refused. -/
theorem movedWorkflow_not_refused :
    validatePlan operatorPlan operatorDigests.push operatorDigests.draftAction (minutes 60) =
        .ok () ∧
      Compares (approvedRepository [notesPath]) moved [notesPath] ∧
      ProtectedChange operatorPlan workflowTree notesTree workflowPath ∧
      ¬ Refused (approvedRepository [notesPath]) operatorPlan := by
  refine ⟨operatorPlan_accepted, compares_moved, protectedChange_workflow, ?_⟩
  rw [refused_iff_ne_ok, ne_eq, not_not]
  exact approvedRepository_notesPath

end

/-- A protected file is moved and the old name is reported as well, as it is where no renames are
looked for. -/
def unpaired : Renames workflowTree notesTree := ⟨[], by simp, by simp, .nil, .nil⟩

theorem compares_unpaired :
    Compares (approvedRepository [workflowPath, notesPath]) unpaired [workflowPath, notesPath] := by
  have hne : workflowPath ≠ notesPath := by decide
  refine ⟨rfl, by simp [hne], fun path => ?_⟩
  have hsources : unpaired.sources = [] := rfl
  rw [hsources, List.mem_cons, List.mem_singleton, Changed, workflowTree, notesTree,
    entryAt_oneFile, entryAt_oneFile]
  by_cases hw : path = workflowPath
  · simp [hw, hne]
  · by_cases hn : path = notesPath
    · simp [hn, hne.symm]
    · simp [hw, hn]

theorem unpairedWorkflow_refused :
    Refused (approvedRepository [workflowPath, notesPath]) operatorPlan :=
  (refused_iff compares_unpaired).mpr
    (fun _ => .inl ⟨workflowPath, protectedChange_workflow, List.not_mem_nil⟩)
    ⟨workflowPath, protectedChange_workflow⟩

end Ao2
