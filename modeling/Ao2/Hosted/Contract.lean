import Ao2.Files.Tree
import Ao2.Json.Objects
import Ao2.Publication.Contract
import Ao2.Python.Text
import Ao2.Python.Values
import Ao2.Texts.Bytes
import Ao2.Texts.Lines
import Ao2.Texts.Split
import Mathlib.Data.List.Lex
import Mathlib.Data.List.Sort
import Mathlib.Order.Fin.Basic

/-!
# The assets of a hosted release

A release has one archive for each platform, the plan to promote them and a checksum file. The runtime
verifies a directory of such assets by itself: the checksum file, the digest of each file that it names,
and the plan.
-/

namespace Ao2

namespace Hosted

open Python Files

/-! ### Platforms -/

/-- A platform. -/
structure Target where
  name : String
  binary : String
  runner : String
  targetTriple : String
  deriving DecidableEq

def targets : List Target :=
  [⟨"linux-x86_64", "bin/ao2", "ubuntu-latest", "x86_64-unknown-linux-gnu"⟩,
    ⟨"macos-aarch64", "bin/ao2", "macos-latest", "aarch64-apple-darwin"⟩,
    ⟨"windows-x86_64", "bin/ao2.exe", "windows-latest", "x86_64-pc-windows-msvc"⟩]

def archiveName (version target : String) : String := "ao2-" ++ version ++ "-" ++ target ++ ".tar.gz"

/-! ### Archives -/

/-- A member of an archive, and what extracting and reading it gives. -/
structure Member where
  name : PyStr
  isFile : Bool
  size : ℤ
  /-- It may raise, and there may be nothing to read. -/
  content : Option (Option Octets)

/-- What the scripts use of other libraries. -/
class ReleaseLibrary where
  /-- A digest in hexadecimal digits. -/
  sha256 : Octets → String
  /-- The members of a compressed archive, if it is one. -/
  untar : Octets → Option (List Member)

export ReleaseLibrary (sha256 untar)

end Hosted

end Ao2

/-! ## The contract of a hosted release -/

namespace Ao2

namespace Hosted

namespace Contract

open Files

/-- The reader of JSON texts. -/
class SerdeJson where
  /-- The value of a JSON text, if it is one that is read. -/
  fromSlice : Octets → Option Json

export SerdeJson (fromSlice)

/-! ### Constants -/

def planSchema : String := "ao2.hosted-release-promotion-plan.v1"

def maxPlanBytes : ℕ := 2 * 1024 * 1024

/-- The platforms: name, runner and triple. -/
def targets : List (String × String × String) :=
  [("macos-aarch64", "macos-latest", "aarch64-apple-darwin"),
    ("linux-x86_64", "ubuntu-latest", "x86_64-unknown-linux-gnu"),
    ("windows-x86_64", "windows-latest", "x86_64-pc-windows-msvc")]

def expectedHostedReleaseAssets (version : String) : List String :=
  ["ao2-" ++ version ++ "-macos-aarch64.tar.gz", "ao2-" ++ version ++ "-linux-x86_64.tar.gz",
    "ao2-" ++ version ++ "-windows-x86_64.tar.gz", "promotion-plan.json", "SHA256SUMS"]

def windowsBoundary : Json :=
  .object
    [("canonical_target_triple", .str "x86_64-pc-windows-msvc"),
      ("canonical_runner", .str "windows-latest"),
      ("linux_mingw_cross_build", .object
        [("target_triple", .str "x86_64-pc-windows-gnu"), ("classification", .str "non_authoritative"),
          ("canonical_public_windows_archive", .bool false)])]

def trustBoundary : Json :=
  .object
    [("build_jobs_mutate_releases", .bool false), ("plan_job_mutates_releases", .bool false),
      ("stores_credentials", .bool false), ("uses_workflow_scoped_github_token", .bool true)]

def rejectionPolicy : Json :=
  .strs
    ["missing_artifact", "duplicate_artifact", "stale_source_sha", "substituted_archive",
      "unexpected_artifact", "version_tag_mismatch", "approved_manifest_mismatch",
      "physical_windows_evidence_mismatch", "incorrect_live_confirmation"]

def planKeys : List String :=
  ["schema_version", "status", "version", "tag", "source_sha", "approved_asset_manifest_sha256",
    "physical_windows_evidence_sha256", "artifacts", "windows", "rejection_policy", "trust_boundary"]

def artifactKeys : List String :=
  ["target", "runner", "target_triple", "archive", "sha256", "canonical_public_archive"]

/-! ### Texts and files -/

def errorIf (c : Bool) (message : String) : Except String Unit := if c then .error message else .ok ()

@[simp] theorem errorIf_eq_ok {c : Bool} {message : String} {u : Unit} :
    errorIf c message = .ok u ↔ c = false := by
  cases c <;> simp [errorIf]

/-- So many hexadecimal digits. A byte above 127 is none of them, so characters are counted. -/
def isLowerHexText (value : String) (n : ℕ) : Bool :=
  value.toList.length = n && value.toList.all isLowerHex

/-- The same members, whatever their order. -/
def sameMembers (a b : List String) : Bool := a.all (· ∈ b) && b.all (· ∈ a)

/-- A plain file, if it is one: a link to one is not. -/
def regular? (n : FileNode) : Option Octets :=
  match n with
  | .file content => some content
  | _ => none

/-- The last name in a path, unless it goes up. -/
def fileName (path : String) : Option String := (pathNames path).getLast?.filter (· ≠ "..")

/-! ### The checksum file -/

/-- The digest and the name in a row. -/
def splitRow (line : List Char) : Option (List Char × List Char) := splitOnce [' ', ' '] line

def isNameChar (c : Char) : Bool := c.isAlphanum || c ∈ ['.', '_', '-']

def parseRows : List (List Char) → List (String × String) → Except String (List (String × String))
  | [], parsed => .ok parsed
  | line :: rest, parsed =>
    match splitRow line with
    | none => .error "invalid SHA256SUMS row"
    | some (digest, name) =>
      if !isLowerHexText (.ofList digest) 64 || name = [] || !name.all isNameChar ||
          (parsed.lookup (.ofList name)).isSome then
        .error "invalid SHA256SUMS row"
      else parseRows rest (parsed ++ [(.ofList name, .ofList digest)])

section

variable [ReleaseLibrary]

/-- An asset has the digest of its row. -/
def verifyAsset (root : FileNode) (row : String × String) : Except String Unit :=
  match root.child? row.1 with
  | none => .error ("missing hosted asset: " ++ row.1)
  | some n =>
    match regular? n with
    | none => .error ("unsafe hosted asset: " ++ row.1)
    | some content => errorIf (sha256 content ≠ row.2) ("hosted asset digest mismatch: " ++ row.1)

def verifyChecksums (root : FileNode) (expectedAssets : List String) : Except String (List (String × String)) :=
  match ((root.child? "SHA256SUMS").bind FileNode.bytes?).bind decodeUtf8 with
  | none => .error "missing or unreadable SHA256SUMS"
  | some contents => do
    let parsed ← parseRows (lines contents) []
    errorIf (!sameMembers (parsed.map Prod.fst) (expectedAssets.filter (· ≠ "SHA256SUMS")))
      "SHA256SUMS inventory does not match hosted assets"
    -- the map lists them by their names
    let sorted := parsed.insertionSort fun row row' => row.1 ≤ row'.1
    sorted.forM (verifyAsset root)
    pure sorted

/-! ### The plan -/

/-- A member that is a text. -/
def textOf (v : Json) (key : String) : Option String := (v.get? key).bind Json.str?

/-- The keys of an object. -/
def keysOf : Json → Option (List String)
  | .obj members => some (members.map Prod.fst)
  | _ => none

/-- A row of the artifacts, with the platforms before it. -/
def verifyArtifact (version : String) (checksums : Option (List (String × String))) (seen : List String)
    (row : Json) : Except String (List String) :=
  match keysOf row with
  | none => .error "promotion plan artifact must be an object"
  | some keys => do
    errorIf (!sameMembers keys artifactKeys) "promotion plan artifact keys mismatch"
    match textOf row "target" with
    | none => .error "promotion plan artifact target is invalid"
    | some target =>
      match targets.find? fun expected => expected.1 = target with
      | none => .error "promotion plan artifact target mismatch"
      | some (_, runner, targetTriple) => do
        errorIf (target ∈ seen || textOf row "runner" ≠ some runner ||
            textOf row "target_triple" ≠ some targetTriple ||
            (row.get? "canonical_public_archive").bind Json.bool? ≠ some true)
          ("promotion plan artifact contract mismatch: " ++ target)
        let expectedName := "ao2-" ++ version ++ "-" ++ target ++ ".tar.gz"
        let digest := textOf row "sha256"
        errorIf ((textOf row "archive").bind fileName ≠ some expectedName ||
            !digest.any (isLowerHexText · 64) ||
            checksums.bind (List.lookup expectedName) ≠ digest)
          ("promotion plan artifact digest mismatch: " ++ target)
        pure (target :: seen)

def verifyArtifacts (artifacts : Option Json) (version : String)
    (checksums : Option (List (String × String))) : Except String Unit :=
  match artifacts.bind Json.arr? with
  | none => .error "promotion plan artifacts are invalid"
  | some rows => do
    errorIf (rows.length ≠ targets.length) "promotion plan artifact inventory mismatch"
    let seen ← rows.foldlM (verifyArtifact version checksums) []
    errorIf (seen.length ≠ targets.length) "promotion plan artifact inventory mismatch"

def verifyWindowsBoundary (value : Option Json) : Except String Unit :=
  errorIf (value ≠ some windowsBoundary) "promotion plan Windows boundary mismatch"

def verifyTrustBoundary (value : Option Json) : Except String Unit :=
  errorIf (value ≠ some trustBoundary) "promotion plan trust boundary mismatch"

def verifyRejectionPolicy (value : Option Json) : Except String Unit :=
  errorIf (value ≠ some rejectionPolicy) "promotion plan rejection policy mismatch"

/-- What a plan says. -/
def verifyPlanValue (plan : Json) (version releaseTag : String)
    (checksums : Option (List (String × String))) : Except String Unit :=
  match keysOf plan with
  | none => .error "promotion plan must be an object"
  | some keys => do
    errorIf (!sameMembers keys planKeys) "promotion plan keys do not match hosted contract"
    [("schema_version", planSchema), ("status", "passed"), ("version", version), ("tag", releaseTag)].forM
      fun e => errorIf (textOf plan e.1 ≠ some e.2) ("promotion plan " ++ e.1 ++ " mismatch")
    ["approved_asset_manifest_sha256", "physical_windows_evidence_sha256"].forM fun key =>
      errorIf (!(textOf plan key).any (isLowerHexText · 64)) ("promotion plan " ++ key ++ " is invalid")
    errorIf (!(textOf plan "source_sha").any (isLowerHexText · 40)) "promotion plan source_sha is invalid"
    verifyArtifacts (plan.get? "artifacts") version checksums
    verifyWindowsBoundary (plan.get? "windows")
    verifyTrustBoundary (plan.get? "trust_boundary")
    verifyRejectionPolicy (plan.get? "rejection_policy")

variable [SerdeJson]

def verifyPlan (root : FileNode) (version releaseTag : String) (checksums : Option (List (String × String))) :
    Except String Json :=
  match root.child? "promotion-plan.json" with
  | none => .error "missing promotion-plan.json"
  | some n =>
    match regular? n with
    | none => .error "unsafe promotion-plan.json"
    | some content => do
      errorIf (maxPlanBytes < content.length) "promotion-plan.json exceeds size limit"
      match fromSlice content with
      | none => .error "invalid promotion-plan.json"
      | some plan => do
        verifyPlanValue plan version releaseTag checksums
        pure plan

/-! ### The directory -/

structure HostedReleaseVerification where
  report : Json
  verified : Bool
  tagMatches : Bool

def errorOf {α : Type} : Except String α → List String
  | .ok _ => []
  | .error e => [e]

def verifyHostedReleaseDirectory (root : FileNode) (version releaseTag : String) : HostedReleaseVerification :=
  let checksums := verifyChecksums root (expectedHostedReleaseAssets version)
  let plan := verifyPlan root version releaseTag checksums.toOption
  let tagMatches := plan.toOption.bind (textOf · "tag") = some releaseTag
  let sourceSha := (plan.toOption.bind (textOf · "source_sha")).getD ""
  let verified := checksums.toOption.isSome && plan.toOption.isSome && tagMatches
  { report := .object
      [("checked", .bool true), ("schema_version", .str planSchema),
        ("status", .str (if verified then "verified" else "invalid")),
        ("checksums_verified", .bool checksums.toOption.isSome),
        ("promotion_plan_verified", .bool plan.toOption.isSome),
        ("release_tag_matches", .bool tagMatches), ("source_sha", .str sourceSha),
        ("errors", .strs (errorOf checksums ++ errorOf plan))]
    verified := verified
    tagMatches := tagMatches }

end

end Contract

end Hosted

end Ao2
