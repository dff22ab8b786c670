import Ao2.Git.Changes
import Ao2.Json.Encoding
import Ao2.Policy
import Ao2.Texts.Bytes
import Ao2.Texts.Legible

/-!
# An approved commit

The command that commits named paths once the digest of the request is approved. What git does is
taken as documented: `git add` reads its arguments as patterns and changes the index, `git commit`
commits the index, whatever came to be in it. Which places a list of patterns matches and which files are
ignored is left to git, and so is whether a command succeeds. Contents are those git takes up, after its
conversions.
-/

namespace Ao2

namespace Git

/-! ### Repositories -/

inductive Commit where
  | commit (parents : List Commit) (tree : Files) (message : String)

def Commit.parents : Commit → List Commit
  | commit parents _ _ => parents

def Commit.tree : Commit → Files
  | commit _ tree _ => tree

structure Repository where
  /-- Where the work tree is. -/
  top : Place
  head : Option Commit
  /-- What a merge in progress brings in. -/
  mergeHeads : List Commit
  index : Files
  work : Files
  born : head = none → mergeHeads = []

/-- The tree of the commit that is checked out. -/
def Repository.headTree (repo : Repository) : Files := repo.head.elim .empty Commit.tree

/-- The commits that a new commit follows. -/
def Repository.parents (repo : Repository) : List Commit := repo.head.toList ++ repo.mergeHeads

theorem Repository.head?_parents (repo : Repository) : repo.parents.head? = repo.head := by
  rw [parents]
  cases h : repo.head with
  | none => rw [repo.born h]; rfl
  | some c => rfl

/-- What git decides by rules of its own. -/
class PathRules where
  /-- The place is matched by the patterns, all taken together, as they are given in a directory. -/
  matchesPatterns : (directory : Place) → (patterns : List Bytes) → Place → Bool
  /-- The rules in the work tree ignore the place. -/
  ignores : (work : Files) → Place → Bool
  /-- A message as it is recorded. -/
  cleanedUp : String → String

export PathRules (matchesPatterns ignores cleanedUp)

/-- A file that is taken up is matched. It is in the index already or it is not ignored. -/
def Repository.takesUp [PathRules] (repo : Repository) (directory : Place) (paths : List Bytes)
    (p : Place) : Bool :=
  matchesPatterns directory paths (repo.top ++ p) &&
    ((repo.index.entryAt p).isSome || !ignores repo.work p)

def Repository.add (repo : Repository) (taken : Place → Bool) : Repository :=
  { repo with index := repo.index.takeUp repo.work taken }

def Repository.commit [PathRules] (repo : Repository) (message : String) : Repository :=
  { repo with
    head := some (.commit repo.parents repo.index (cleanedUp message))
    mergeHeads := []
    born := fun _ => rfl }

/-! ### The command -/

/-- What is to be committed, and where. -/
structure CommitRequest where
  target : Bytes
  message : String
  paths : List Bytes
  deriving DecidableEq

/-- A path as it is shown and digested. -/
def pathText (path : Bytes) : String := .ofList (fromUtf8Lossy path)

def gitWriteRequest (target : Bytes) (operation : String) (args : List String) : ToolRequest where
  principal := "role:operator"
  tool := "git"
  operation := operation
  resource := pathText target
  args := args
  expectedSideEffects := ["repo_write"]

def CommitRequest.toolRequest (request : CommitRequest) : ToolRequest :=
  gitWriteRequest request.target "commit"
    ("commit" :: "-m" :: request.message :: request.paths.flatMap fun path => ["--path", pathText path])

def CommitRequest.actionDigest [Platform] (request : CommitRequest) : String :=
  request.toolRequest.actionDigest

def requireGitWriteApproval (operation digest : String) (approvedDigest : Option String) :
    Except String Unit :=
  if approvedDigest = some digest then .ok ()
  else .error ("git " ++ operation ++ " requires exact action digest approval")

inductive AddAnswer where
  | notStarted
  /-- Files were named that git does not take up. Others may have been taken up before. -/
  | failed (added : Place → Bool)
  | done

inductive CommitAnswer where
  | notStarted
  | failed
  | done

inductive RevParseAnswer where
  | notStarted
  | failed (stderr : String)
  | done (stdout : String)

/-- How the commands that are run end. -/
structure GitAnswers where
  add : AddAnswer
  commit : CommitAnswer
  revParse : RevParseAnswer

/-- What a report of a failure that names the target ends in. The program stops where the target is no
text. -/
def gitWriteFailure (operation : String) (target : Bytes) (command : String) : String :=
  match decodeUtf8 target with
  | some _ => "git " ++ operation ++ " failed at " ++ command
  | none => "path contains invalid UTF-8 characters"

def runGitFailure (args : String) (target : Bytes) : String :=
  "run git " ++ args ++ " under " ++ pathText target

section

variable [PathRules]

/-- `git rev-parse HEAD`, and the report that names the target. -/
def reportCommit (target : Bytes) : RevParseAnswer → Except String String
  | .notStarted => .error (runGitFailure "rev-parse HEAD" target)
  | .failed stderr => .error ("git rev-parse HEAD failed: " ++ stderr)
  | .done stdout =>
    match decodeUtf8 target with
    | some _ => .ok (trim stdout)
    | none => .error "path contains invalid UTF-8 characters"

def gitCommitCommand [Platform] (request : CommitRequest) (approvedDigest : Option String)
    (directory : Place) (answers : GitAnswers) (repo : Repository) :
    Except String String × Repository :=
  if request.paths = [] then (.error "ao2 git commit requires at least one --path", repo)
  else
    match requireGitWriteApproval "commit" request.actionDigest approvedDigest with
    | .error e => (.error e, repo)
    | .ok () =>
      let taken := repo.takesUp directory request.paths
      match answers.add with
      | .notStarted => (.error (runGitFailure "command" request.target), repo)
      | .failed added =>
        (.error (gitWriteFailure "commit" request.target "git add"),
          repo.add fun p => added p && taken p)
      | .done =>
        let repo := repo.add taken
        match answers.commit with
        | .notStarted => (.error (runGitFailure ("commit -m " ++ request.message) request.target), repo)
        | .failed => (.error (gitWriteFailure "commit" request.target "git commit"), repo)
        | .done => (reportCommit request.target answers.revParse, repo.commit request.message)

/-! ### What was approved -/

/-- The place after one more name. -/
def stepTo (place : Place) (name : Bytes) : Place :=
  if name = [] ∨ name = [46] then place
  else if name = [46, 46] then place.dropLast
  else place ++ [name]

/-- The place a path names, taken literally. -/
def literalPlace (directory : Place) (path : Bytes) : Place :=
  (path.splitOn 47).foldl stepTo (if path.head? = some 47 then [] else directory)

/-- The place is an approved path or below one. -/
def Repository.Approves (repo : Repository) (directory : Place) (paths : List Bytes) (p : Place) :
    Prop :=
  ∃ path ∈ paths, literalPlace directory path <+: repo.top ++ p

instance (repo : Repository) (directory : Place) (paths : List Bytes) (p : Place) :
    Decidable (repo.Approves directory paths p) :=
  inferInstanceAs (Decidable (∃ path ∈ paths, _))

/-- The new commit follows the former one and differs from it at the approved paths only, where it is
the work tree. -/
def Contains (before after : Repository) (directory : Place) (paths : List Bytes) : Prop :=
  ∃ commit, after.head = some commit ∧ commit.parents.head? = before.head ∧
    ∀ p, if before.Approves directory paths p then commit.tree.entryAt p = before.work.entryAt p
      else commit.tree.entryAt p = before.headTree.entryAt p

/-- HEAD and index are as they were. -/
def Restored (before after : Repository) : Prop :=
  after.head = before.head ∧ ∀ p, after.index.entryAt p = before.index.entryAt p

/-- **The command commits what was approved**, or leaves HEAD and index alone. The digest names the
request. -/
structure Faithful [Platform] (request : CommitRequest) (approvedDigest : Option String)
    (directory : Place) (answers : GitAnswers) (repo : Repository) : Prop where
  contains : ∀ sha, (gitCommitCommand request approvedDigest directory answers repo).1 = .ok sha →
    Contains repo (gitCommitCommand request approvedDigest directory answers repo).2 directory
      request.paths
  restored : ∀ e, request.paths ≠ [] → approvedDigest = some request.actionDigest →
    (gitCommitCommand request approvedDigest directory answers repo).1 = .error e →
    Restored repo (gitCommitCommand request approvedDigest directory answers repo).2
  named : ∀ other : CommitRequest, other.actionDigest = request.actionDigest → other = request

/-! ### When it does -/

/-- What is taken up is in the index already, as in the work tree. -/
structure Repository.Holds (repo : Repository) (taken : Place → Bool) : Prop where
  known : ∀ p, taken p = true → repo.index.entryAt p = repo.work.entryAt p
  displaced : ∀ p, taken p = false → Displaced repo.work taken p → repo.index.entryAt p = none

/-- What is taken up or was staged before changes approved paths only, and approved files that are not
taken up were staged as they are. -/
structure Repository.Exact (repo : Repository) (taken : Place → Bool) (directory : Place)
    (paths : List Bytes) : Prop where
  omitted : ∀ p, repo.Approves directory paths p → taken p = false → ¬ Displaced repo.work taken p →
    repo.index.entryAt p = repo.work.entryAt p
  matched : ∀ p, ¬ repo.Approves directory paths p → taken p = true →
    repo.work.entryAt p = repo.headTree.entryAt p
  displaced : ∀ p, ¬ repo.Approves directory paths p → taken p = false →
    Displaced repo.work taken p → repo.headTree.entryAt p = none
  staged : ∀ p, ¬ repo.Approves directory paths p → taken p = false →
    ¬ Displaced repo.work taken p → repo.index.entryAt p = repo.headTree.entryAt p

/-- The commit that was made is reported. -/
def Reports (target : Bytes) : RevParseAnswer → Prop
  | .notStarted | .failed _ => False
  | .done _ => decodeUtf8 target ≠ none

/-- Where the commands end, and what the repository holds, let the commit be the approved one. -/
def Repository.Clear (repo : Repository) (request : CommitRequest) (directory : Place)
    (answers : GitAnswers) : Prop :=
  let taken := repo.takesUp directory request.paths
  match answers.add, answers.commit with
  | .notStarted, _ => True
  | .failed added, _ => repo.Holds fun p => added p && taken p
  | .done, .notStarted | .done, .failed => repo.Holds taken
  | .done, .done => Reports request.target answers.revParse ∧ repo.Exact taken directory request.paths

/-- The texts that are digested are those of no other target and paths. -/
def CommitRequest.Legible (request : CommitRequest) : Prop :=
  Ao2.Legible request.target ∧ ∀ path ∈ request.paths, Ao2.Legible path

/-! ### The digest -/

omit [PathRules] in
theorem flatMap_path_inj {paths paths' : List Bytes} :
    (paths.flatMap fun path => ["--path", pathText path]) =
        (paths'.flatMap fun path => ["--path", pathText path]) ↔
      paths.map pathText = paths'.map pathText := by
  induction paths generalizing paths' with
  | nil => cases paths' <;> simp
  | cons path paths ih => cases paths' <;> simp [ih]

omit [PathRules] in
/-- What a digest names: texts. -/
theorem toolRequest_eq_iff {request other : CommitRequest} :
    other.toolRequest.toJson = request.toolRequest.toJson ↔
      pathText other.target = pathText request.target ∧ other.message = request.message ∧
        other.paths.map pathText = request.paths.map pathText := by
  rw [← flatMap_path_inj]
  simp only [ToolRequest.toJson, CommitRequest.toolRequest, gitWriteRequest, Json.strs, Json.obj.injEq,
    List.cons.injEq, Prod.mk.injEq, Json.arr.injEq, Json.str.injEq, List.map_cons, true_and, and_true,
    (List.map_injective_iff.mpr fun _ _ => Json.str.inj).eq_iff]
  tauto

omit [PathRules] in
theorem pathText_eq_iff {path other : Bytes} :
    pathText other = pathText path ↔ fromUtf8Lossy other = fromUtf8Lossy path :=
  String.ofList_inj

omit [PathRules] in
theorem map_pathText_eq {paths others : List Bytes} (h : ∀ path ∈ paths, Ao2.Legible path)
    (htexts : others.map pathText = paths.map pathText) : others = paths := by
  induction paths generalizing others with
  | nil => exact List.map_eq_nil_iff.mp htexts
  | cons path paths ih =>
    obtain ⟨other, others, rfl, hother, hothers⟩ := List.map_eq_cons_iff.mp htexts
    rw [List.forall_mem_cons] at h
    rw [legible_iff.mp h.1 other (pathText_eq_iff.mp hother), ih h.2 hothers]

omit [PathRules] in
/-- **A digest names its request** exactly if the target and the paths are legible. -/
theorem named_iff_legible [Platform] (hsha : Function.Injective (sha256Json : Json → String))
    (request : CommitRequest) :
    (∀ other : CommitRequest, other.actionDigest = request.actionDigest → other = request) ↔
      request.Legible := by
  have hdigest : ∀ other : CommitRequest, other.actionDigest = request.actionDigest ↔
      pathText other.target = pathText request.target ∧ other.message = request.message ∧
        other.paths.map pathText = request.paths.map pathText := fun other =>
    hsha.eq_iff.trans toolRequest_eq_iff
  constructor
  · intro h
    refine ⟨legible_iff.mpr fun target htarget => ?_, fun path hpath => legible_iff.mpr fun other hother => ?_⟩
    · exact congrArg CommitRequest.target (h { request with target := target }
        ((hdigest _).mpr ⟨pathText_eq_iff.mpr htarget, rfl, rfl⟩))
    · obtain ⟨before, after, hpaths⟩ := List.append_of_mem hpath
      have hsame := h { request with paths := before ++ other :: after } ((hdigest _).mpr ⟨rfl, rfl, by
        rw [hpaths, List.map_append, List.map_append, List.map_cons, List.map_cons,
          pathText_eq_iff.mpr hother]⟩)
      have hlists : before ++ other :: after = before ++ path :: after :=
        (congrArg CommitRequest.paths hsame).trans hpaths
      exact (List.cons.inj (List.append_cancel_left hlists)).1
  · rintro ⟨htarget, hpaths⟩ ⟨target, message, paths⟩ hother
    obtain ⟨h₁, rfl, h₃⟩ := (hdigest _).mp hother
    obtain rfl := legible_iff.mp htarget target (pathText_eq_iff.mp h₁)
    obtain rfl := map_pathText_eq hpaths h₃
    rfl

/-! ### Index and commit -/

section

variable {repo : Repository} {taken : Place → Bool} {directory : Place} {paths : List Bytes}

omit [PathRules] in
/-- Taking up leaves the index alone exactly if it holds what is taken up. -/
theorem restored_add_iff : Restored repo (repo.add taken) ↔ repo.Holds taken := by
  have hentry := entryAt_takeUp repo.index repo.work taken
  constructor
  · rintro ⟨-, h⟩
    refine ⟨fun p hp => ?_, fun p hp hdisplaced => ?_⟩
    · rw [← h p]
      exact (hentry p).trans (if_pos hp)
    · rw [← h p]
      exact (hentry p).trans (by rw [hp, if_neg Bool.false_ne_true, if_pos hdisplaced])
  · intro h
    refine ⟨rfl, fun p => (hentry p).trans ?_⟩
    split_ifs with hp hdisplaced
    · exact (h.known p hp).symm
    · exact (h.displaced p (eq_false_of_ne_true hp) hdisplaced).symm
    · rfl

omit [PathRules] in
theorem commit_ne_parent (c : Commit) (parents : List Commit) (tree : Files) (message : String) :
    c ≠ .commit (c :: parents) tree message := by
  intro h
  have hsize := congrArg sizeOf h
  simp at hsize
  omega

/-- A new commit is not undone. -/
theorem not_restored_commit (message : String) :
    ¬ Restored repo ((repo.add taken).commit message) := by
  rintro ⟨hhead, -⟩
  have hparents := (repo.add taken).head?_parents
  have hadd : (repo.add taken).head = repo.head := rfl
  rw [hadd, ← hhead] at hparents
  obtain ⟨c, parents, hcommit⟩ : ∃ c parents, (repo.add taken).parents = c :: parents :=
    ⟨_, _, List.eq_cons_of_mem_head? (Option.mem_def.mpr hparents)⟩
  rw [hcommit] at hparents
  have hc := Option.some.inj hparents
  exact commit_ne_parent c parents _ _ (hc.trans (congrArg (Commit.commit · _ _) hcommit))

/-- **The commit is the approved one** exactly if what is staged and taken up is. -/
theorem contains_iff_exact (message : String) :
    Contains repo ((repo.add taken).commit message) directory paths ↔
      repo.Exact taken directory paths := by
  have hentry := entryAt_takeUp repo.index repo.work taken
  constructor
  · rintro ⟨commit, hhead, -, h⟩
    cases hhead
    refine ⟨fun p hp htaken hplace => ?_, fun p hp htaken => ?_, fun p hp htaken hplace => ?_,
      fun p hp htaken hplace => ?_⟩
    · have hp' := h p
      rw [if_pos hp] at hp'
      exact ((hentry p).trans (by rw [htaken, if_neg Bool.false_ne_true, if_neg hplace])).symm.trans hp'
    · have hp' := h p
      rw [if_neg hp] at hp'
      exact ((hentry p).trans (if_pos htaken)).symm.trans hp'
    · have hp' := h p
      rw [if_neg hp] at hp'
      exact hp'.symm.trans ((hentry p).trans (by rw [htaken, if_neg Bool.false_ne_true, if_pos hplace]))
    · have hp' := h p
      rw [if_neg hp] at hp'
      exact ((hentry p).trans (by rw [htaken, if_neg Bool.false_ne_true, if_neg hplace])).symm.trans hp'
  · intro h
    refine ⟨_, rfl, (repo.add taken).head?_parents, fun p => ?_⟩
    split_ifs with hp
    · refine (hentry p).trans ?_
      split_ifs with htaken hplace
      · rfl
      · exact (entryAt_of_displaced hplace (eq_false_of_ne_true htaken)).symm
      · exact h.omitted p hp (eq_false_of_ne_true htaken) hplace
    · refine (hentry p).trans ?_
      split_ifs with htaken hplace
      · exact h.matched p hp htaken
      · exact (h.displaced p hp (eq_false_of_ne_true htaken) hplace).symm
      · exact h.staged p hp (eq_false_of_ne_true htaken) hplace

end

/-! ### The command -/

section

variable [Platform] {request : CommitRequest} {approvedDigest : Option String} {directory : Place}
  {answers : GitAnswers} {repo : Repository}

omit [PathRules] [Platform] in
/-- A report is there exactly if the commit is reported. -/
theorem isOk_reportCommit_iff {target : Bytes} {answer : RevParseAnswer} :
    (∃ sha, reportCommit target answer = .ok sha) ↔ Reports target answer := by
  cases answer with
  | notStarted => simp [reportCommit, Reports]
  | failed stderr => simp [reportCommit, Reports]
  | done stdout =>
    rw [reportCommit, Reports]
    cases decodeUtf8 target <;> simp

theorem gitCommitCommand_of_approved (hpaths : request.paths ≠ [])
    (happroved : approvedDigest = some request.actionDigest) :
    gitCommitCommand request approvedDigest directory answers repo =
      let taken := repo.takesUp directory request.paths
      match answers.add with
      | .notStarted => (.error (runGitFailure "command" request.target), repo)
      | .failed added =>
        (.error (gitWriteFailure "commit" request.target "git add"),
          repo.add fun p => added p && taken p)
      | .done =>
        let repo := repo.add taken
        match answers.commit with
        | .notStarted => (.error (runGitFailure ("commit -m " ++ request.message) request.target), repo)
        | .failed => (.error (gitWriteFailure "commit" request.target "git commit"), repo)
        | .done => (reportCommit request.target answers.revParse, repo.commit request.message) := by
  rw [gitCommitCommand, if_neg hpaths, requireGitWriteApproval, if_pos happroved]

theorem gitCommitCommand_of_not_approved
    (h : ¬ (request.paths ≠ [] ∧ approvedDigest = some request.actionDigest)) :
    ∃ e, gitCommitCommand request approvedDigest directory answers repo = (.error e, repo) := by
  rw [gitCommitCommand]
  split_ifs with hpaths
  · exact ⟨_, rfl⟩
  · rw [requireGitWriteApproval, if_neg fun happroved => h ⟨hpaths, happroved⟩]
    exact ⟨_, rfl⟩

/-- What is asked of an outcome: it is the commit, or nothing is changed. -/
def Right (request : CommitRequest) (directory : Place) (repo : Repository)
    (outcome : Except String String × Repository) : Prop :=
  (∀ sha, outcome.1 = .ok sha → Contains repo outcome.2 directory request.paths) ∧
    ∀ e, outcome.1 = .error e → Restored repo outcome.2

omit [PathRules] [Platform] in
theorem right_error_iff {e : String} {after : Repository} :
    Right request directory repo (.error e, after) ↔ Restored repo after := by
  simp [Right]

omit [PathRules] [Platform] in
theorem right_ok_iff {sha : String} {after : Repository} :
    Right request directory repo (.ok sha, after) ↔ Contains repo after directory request.paths := by
  simp [Right]

/-- What an approved command does is right exactly if the repository is clear for it. -/
theorem right_iff_clear (hpaths : request.paths ≠ [])
    (happroved : approvedDigest = some request.actionDigest) :
    Right request directory repo (gitCommitCommand request approvedDigest directory answers repo) ↔
      repo.Clear request directory answers := by
  obtain ⟨add, commit, revParse⟩ := answers
  rw [gitCommitCommand_of_approved hpaths happroved]
  cases add with
  | notStarted => exact right_error_iff.trans (iff_of_true ⟨rfl, fun _ => rfl⟩ trivial)
  | failed added => exact right_error_iff.trans restored_add_iff
  | done =>
    cases commit with
    | notStarted => exact right_error_iff.trans restored_add_iff
    | failed => exact right_error_iff.trans restored_add_iff
    | done =>
      dsimp only [Repository.Clear]
      rw [← isOk_reportCommit_iff, ← contains_iff_exact request.message]
      cases reportCommit request.target revParse with
      | ok sha => exact right_ok_iff.trans (and_iff_right ⟨sha, rfl⟩).symm
      | error e =>
        refine right_error_iff.trans (iff_of_false (not_restored_commit _) fun h => ?_)
        obtain ⟨⟨_, hsha⟩, -⟩ := h
        cases hsha

/-- **An approved commit is what was approved** exactly if its texts are those of no other request and the
repository is clear for it. -/
theorem faithful_iff_clear (hsha : Function.Injective (sha256Json : Json → String)) :
    Faithful request approvedDigest directory answers repo ↔
      (request.paths ≠ [] → approvedDigest = some request.actionDigest →
        repo.Clear request directory answers) ∧ request.Legible := by
  constructor
  · intro h
    refine ⟨fun hpaths happroved => ?_, (named_iff_legible hsha request).mp h.named⟩
    exact (right_iff_clear hpaths happroved).mp ⟨h.contains, fun e => h.restored e hpaths happroved⟩
  · rintro ⟨hclear, hlegible⟩
    have hnamed := (named_iff_legible hsha request).mpr hlegible
    by_cases happroved : request.paths ≠ [] ∧ approvedDigest = some request.actionDigest
    · have hright := (right_iff_clear happroved.1 happroved.2).mpr (hclear happroved.1 happroved.2)
      exact ⟨hright.1, fun e _ _ => hright.2 e, hnamed⟩
    · obtain ⟨e, hrun⟩ := gitCommitCommand_of_not_approved happroved
      refine ⟨fun sha hok => ?_, fun _ hpaths hdigest => absurd ⟨hpaths, hdigest⟩ happroved, hnamed⟩
      rw [hrun] at hok
      cases hok

end

end

/-! ### A file that was staged earlier -/

/-- Rules for paths without patterns, where nothing is ignored. -/
@[reducible] def plainRules : PathRules where
  matchesPatterns directory patterns p := patterns.any fun path => literalPlace directory path <+: p
  ignores _ _ := false
  cleanedUp message := message ++ "\n"

def plainEntry (content : Bytes) : TreeEntry := ⟨0o100644, content⟩

/-- Files at the top. -/
def topFiles : Bool → Files
  | false => ⟨[([[98]], plainEntry [1])], by decide, by decide⟩
  | true => ⟨[([[97]], plainEntry [0]), ([[98]], plainEntry [1])], by decide, by decide⟩

/-- A repository with one empty commit, and the files `a` and `b` or `b` alone in the work tree. -/
def firstRepository (index : Files) (work : Bool) : Repository where
  top := []
  head := some (.commit [] .empty "first\n")
  mergeHeads := []
  index := index
  work := topFiles work
  born _ := rfl

/-- The file `b` is to be committed. -/
def oneFile : CommitRequest := ⟨[46], "second", [[98]]⟩

def allDone : GitAnswers := ⟨.done, .done, .done "0123\n"⟩

section

attribute [local instance] plainRules spellingPlatform

theorem takesUp_firstRepository (index : Files) (work : Bool) (p : Place) :
    (firstRepository index work).takesUp [] oneFile.paths p = true ↔
      (firstRepository index work).Approves [] oneFile.paths p := by
  simp [Repository.takesUp, Repository.Approves, oneFile, matchesPatterns, ignores]

theorem sha256Json_spelling_injective : Function.Injective (sha256Json : Json → String) :=
  fun _ _ h => Json.spell_injective (String.ofList_injective h)

/-- Nothing is staged when the file is committed. -/
theorem faithful_oneFile :
    Faithful oneFile (some oneFile.actionDigest) [] allDone (firstRepository .empty false) := by
  refine (faithful_iff_clear sha256Json_spelling_injective).mpr ⟨fun _ _ => ?_, ?_⟩
  · refine ⟨(by decide : decodeUtf8 oneFile.target ≠ none), fun p hp htaken => ?_, fun p hp htaken => ?_,
      fun _ _ _ _ => rfl, fun _ _ _ _ => rfl⟩
    · rw [(takesUp_firstRepository _ _ p).mpr hp] at htaken
      cases htaken
    · exact absurd ((takesUp_firstRepository _ _ p).mp htaken) hp
  · exact ⟨by decide, by decide⟩

/-- **What was staged earlier is committed as well.** -/
theorem not_faithful_staged :
    Function.Injective (sha256Json : Json → String) ∧
      ¬ Faithful oneFile (some oneFile.actionDigest) [] allDone (firstRepository (topFiles true) true) := by
  refine ⟨sha256Json_spelling_injective, fun h => ?_⟩
  have hrun : gitCommitCommand oneFile (some oneFile.actionDigest) [] allDone
      (firstRepository (topFiles true) true) = _ :=
    gitCommitCommand_of_approved (by decide) rfl
  obtain ⟨commit, hhead, -, hentry⟩ := h.contains "0123" (by rw [hrun]; decide)
  rw [hrun] at hhead
  cases hhead
  exact absurd (hentry [[97]]) (by decide)

end

end Git

end Ao2
