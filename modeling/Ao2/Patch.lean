import Ao2.Policy
import Mathlib.Data.List.Sort

/-!
# Sandbox patches

A provider works on a copy of the target repository. What it did is read off afterwards: both trees
are snapshotted, their differences are the operations of the patch, and the digest of the operations
together with the identity and head of the repository is what a person approves.

Trees are lists of paths with the node at each; directories are not nodes, as a snapshot skips them.
-/

namespace Ao2

/-! ### Trees -/

/-- What a path of a tree leads to. -/
inductive Node where
  | file (content : String) (mode : ℕ)
  | symlink (target : String)
  | other
  deriving DecidableEq

/-- The files of a directory tree, by their path below the root. -/
abbrev Tree := List (String × Node)

namespace Tree

/-- The tree without a path. -/
def erase (path : String) (t : Tree) : Tree := t.filter (·.1 ≠ path)

/-- The tree with a node at a path. -/
def insert (path : String) (node : Node) (t : Tree) : Tree := (path, node) :: t.erase path

/-- The tree with new content for a file, whose mode stays as it is if the file exists. -/
def write (path content : String) (t : Tree) : Tree :=
  match t.lookup path with
  | some (.file _ mode) => t.insert path (.file content mode)
  | _ => t.insert path (.file content 0o644)

end Tree

/-- A target repository. The Git fields are what the two Git commands of a preview print; they are
`none` when the command fails. -/
structure Repo where
  present : Bool
  gitCommonDir : Option String
  gitHead : Option String
  tree : Tree

/-- The components of a path. -/
def components (path : String) : List (List Char) := path.toList.splitOn '/'

/-- The directories that no snapshot and no copy descends into. -/
def ignoredRepoComponents : List String :=
  [".ao2", ".git", ".hg", ".svn", "target", "node_modules", ".venv", "venv", "__pycache__",
    ".pytest_cache", ".mypy_cache", ".ruff_cache", ".next", ".expo", "dist", "build", "coverage"]

def isIgnoredRepoComponent (component : List Char) : Bool :=
  component ∈ ignoredRepoComponents.map String.toList

/-- A path that a snapshot or a copy leaves out. -/
def isIgnoredPath (path : String) : Bool := (components path).any isIgnoredRepoComponent

/-! ### Snapshots -/

inductive SandboxFileKind where
  | regularFile | symlink
  deriving DecidableEq

def SandboxFileKind.name : SandboxFileKind → String
  | regularFile => "regular_file"
  | symlink => "symlink"

/-- What a snapshot records of a file. -/
structure SandboxFileState where
  kind : SandboxFileKind
  contentSha256 : Option String
  symlinkTargetSha256 : Option String
  unixMode : Option ℕ
  deriving DecidableEq

def SandboxFileState.toJson (s : SandboxFileState) : Json :=
  .obj [("content_sha256", .ofOption .str s.contentSha256), ("kind", .str s.kind.name),
    ("symlink_target_sha256", .ofOption .str s.symlinkTargetSha256),
    ("unix_mode", .ofOption .nat s.unixMode)]

section

variable [Platform]

/-- The state of one entry. -/
def fileState (path : String) : Node → Except String SandboxFileState
  | .file content mode =>
    .ok ⟨.regularFile, some ("sha256:" ++ sha256Text content), none, some (mode % 512)⟩
  | .symlink target => .ok ⟨.symlink, none, some ("sha256:" ++ sha256Text target), none⟩
  | .other => .error ("unsupported sandbox patch entry: " ++ path)

/-- The states of the files of a tree, ignored paths left out. -/
def snapshotTree : Tree → Except String (List (String × SandboxFileState))
  | [] => .ok []
  | (path, node) :: rest =>
    if isIgnoredPath path then snapshotTree rest
    else do
      let state ← fileState path node
      let states ← snapshotTree rest
      pure ((path, state) :: states)

/-! ### The patch between two trees -/

inductive SandboxPatchOperationKind where
  | added | modified | deleted
  deriving DecidableEq

def SandboxPatchOperationKind.name : SandboxPatchOperationKind → String
  | added => "added"
  | modified => "modified"
  | deleted => "deleted"

/-- One difference between the target tree and the sandbox. -/
structure SandboxPatchOperation where
  order : ℕ
  path : String
  kind : SandboxPatchOperationKind
  before : Option SandboxFileState
  after : Option SandboxFileState
  deriving DecidableEq

/-- The value of an operation in an approval subject. -/
def SandboxPatchOperation.toJson (o : SandboxPatchOperation) : Json :=
  .obj [("after", .ofOption SandboxFileState.toJson o.after),
    ("before", .ofOption SandboxFileState.toJson o.before), ("kind", .str o.kind.name),
    ("order", .nat o.order), ("path", .str o.path)]

/-- What an approval of a patch is an approval of. -/
structure SandboxPatchApprovalSubject where
  schemaVersion : String
  repositoryIdentity : String
  baseCommit : String
  operationType : String
  operations : List SandboxPatchOperation
  deriving DecidableEq

def SandboxPatchApprovalSubject.toJson (s : SandboxPatchApprovalSubject) : Json :=
  .obj [("base_commit", .str s.baseCommit), ("operation_type", .str s.operationType),
    ("operations", .arr (s.operations.map SandboxPatchOperation.toJson)),
    ("repository_identity", .str s.repositoryIdentity), ("schema_version", .str s.schemaVersion)]

def SandboxPatchApprovalSubject.actionDigest (s : SandboxPatchApprovalSubject) : String :=
  sha256Json s.toJson

/-- The identity of the repository and its head commit. -/
def repositoryState (repo : Repo) : Except String (String × String) := do
  let commonDir ←
    match repo.gitCommonDir with
    | some dir => pure dir
    | none => throw "resolve Git common directory"
  let identity := "sha256:" ++ sha256Text (commonDir.map fun c => if c = '\\' then '/' else c)
  let baseCommit ←
    match repo.gitHead with
    | some head => pure head
    | none => throw "resolve Git HEAD base commit"
  if (baseCommit.length = 40 ∨ baseCommit.length = 64) ∧
      baseCommit.toList.all (fun c => c.isDigit || 'a' ≤ c && c ≤ 'f') then
    pure (identity, baseCommit)
  else throw "Git HEAD is not a canonical object id"

/-- The kind of the difference at a path, if there is one. -/
def operationKind : (before after : Option SandboxFileState) → Option SandboxPatchOperationKind
  | none, some _ => some .added
  | some _, none => some .deleted
  | some left, some right => if left ≠ right then some .modified else none
  | none, none => none

/-- The operations at the given paths, numbered from `order`. -/
def operationsFrom (before after : List (String × SandboxFileState)) :
    ℕ → List String → List SandboxPatchOperation
  | _, [] => []
  | order, path :: paths =>
    match operationKind (before.lookup path) (after.lookup path) with
    | some kind =>
      ⟨order, path, kind, before.lookup path, after.lookup path⟩ ::
        operationsFrom before after (order + 1) paths
    | none => operationsFrom before after order paths

/-- The paths of both snapshots, in order and without repetition. -/
def snapshotPaths (before after : List (String × SandboxFileState)) : List String :=
  ((before.map (·.1) ++ after.map (·.1)).dedup).insertionSort (· ≤ ·)

def buildApprovalSubject (repo : Repo) (sandbox : Tree) :
    Except String SandboxPatchApprovalSubject := do
  let (identity, baseCommit) ← repositoryState repo
  let before ← snapshotTree repo.tree
  let after ← snapshotTree sandbox
  pure {
    schemaVersion := "ao2.sandbox-patch-approval-subject.v1"
    repositoryIdentity := identity
    baseCommit := baseCommit
    operationType := "sandbox_patch_apply"
    operations := operationsFrom before after 0 (snapshotPaths before after) }

/-- A patch before it is applied. -/
structure SandboxPatchPreview where
  changedFiles : List String
  diffSummary : String
  approvalSubject : SandboxPatchApprovalSubject
  actionDigest : String
  deriving DecidableEq

def SandboxPatchPreview.toJson (p : SandboxPatchPreview) : Json :=
  .obj [("action_digest", .str p.actionDigest), ("approval_subject", p.approvalSubject.toJson),
    ("changed_files", .strs p.changedFiles), ("diff_summary", .str p.diffSummary)]

def previewSandboxPatch (repo : Repo) (sandbox : Tree) : Except String SandboxPatchPreview := do
  let subject ← buildApprovalSubject repo sandbox
  pure {
    changedFiles := subject.operations.map (·.path)
    diffSummary := "\n".intercalate (subject.operations.map fun o => o.kind.name ++ ": " ++ o.path)
    approvalSubject := subject
    actionDigest := subject.actionDigest }

/-! ### Application -/

/-- The checks of `apply_sandbox_patch`: the patch is previewed once more and has to be the one that
was approved. -/
def checkSandboxPatch (repo : Repo) (sandbox : Tree) (expectedSubject : SandboxPatchApprovalSubject)
    (expectedDigest : String) : Except String SandboxPatchPreview := do
  let preview ← previewSandboxPatch repo sandbox
  if preview.approvalSubject ≠ expectedSubject then
    throw "approval subject mismatch: proposed bytes or base commit changed"
  else if expectedSubject.actionDigest ≠ expectedDigest then
    throw "approval digest mismatch: expected digest does not match approved subject"
  else if preview.actionDigest ≠ expectedDigest then
    throw ("digest mismatch: expected " ++ expectedDigest ++ ", got " ++ preview.actionDigest)
  else pure preview

/-- One operation of a patch on the target tree. The new content is read from the sandbox. -/
def applyOperation (sandbox target : Tree) (o : SandboxPatchOperation) : Except String Tree :=
  match o.kind, o.after with
  | .deleted, none => .ok (target.erase o.path)
  | .added, some state | .modified, some state =>
    match state.kind, sandbox.lookup o.path with
    | .regularFile, some (.file content mode) =>
      .ok (target.insert o.path (.file content (state.unixMode.getD mode)))
    | .symlink, some (.symlink link) => .ok (target.insert o.path (.symlink link))
    | .regularFile, _ => .error ("apply sandbox file " ++ o.path)
    | .symlink, _ => .error ("read sandbox symlink " ++ o.path)
  | _, _ => .error ("invalid sandbox patch operation state for " ++ o.path)

/-- What applying a patch reports. -/
structure SandboxPatchApplyResult where
  appliedFiles : List String
  approvalSubject : SandboxPatchApprovalSubject
  actionDigest : String
  approver : String

def SandboxPatchApplyResult.toJson (r : SandboxPatchApplyResult) : Json :=
  .obj [("action_digest", .str r.actionDigest), ("applied_files", .strs r.appliedFiles),
    ("approval_subject", r.approvalSubject.toJson), ("approver", .str r.approver)]

end

end Ao2
