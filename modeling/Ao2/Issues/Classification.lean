import Ao2.Json.Objects
import Ao2.Publication.Contract
import Ao2.Texts.Ascii
import Ao2.Texts.Bytes
import Mathlib.Data.Finset.Sort
import Mathlib.Data.String.Basic

/-!
# The classification of a repair

What failed before a repair and what fails after it are told apart by identifiers and signatures.
Both documents are written elsewhere and bounded here; neither is trusted with an identity that the
other does not have.
-/

namespace Ao2

namespace Issues

/-- What the commands about issues use of other libraries. -/
class IssueLibrary where
  /-- The value of a JSON text with its members as they stand. A text with a number that is no
  integer is not read, as no field takes one. -/
  fromSlice : Octets → Option Json
  /-- SHA-256, in hexadecimal digits. -/
  sha256 : Octets → String
  parseRfc3339 : String → Option DateTime

/-- A character that is not printed. -/
def isControl (c : Char) : Bool := c.toNat < 32 || (127 ≤ c.toNat && c.toNat < 160)

namespace Classification

open Json

/-! ### Documents -/

structure Toolchain where
  name : String
  version : String
  deriving DecidableEq

structure Failure where
  identifier : String
  signatureSha256 : String
  deriving DecidableEq

structure Safety where
  network : String
  credentialsPresent : Bool
  gitHistoryPresent : Bool
  oraclePresent : Bool
  externalEffects : ℕ

structure Verification where
  schemaVersion : String
  role : String
  repository : String
  issueNumber : ℕ
  baselineSourceSha : String
  sourceSha : String
  candidateSha : Option String
  commandSha256 : String
  toolchain : Toolchain
  completedAt : String
  exitCode : ℕ
  outputSha256 : String
  failures : List Failure
  safety : Safety

def Toolchain.fromJson (v : Json) : Option Toolchain := do
  let m ← v.fieldsOf ["name", "version"]
  some { name := ← field str? "name" m, version := ← field str? "version" m }

def Failure.fromJson (v : Json) : Option Failure := do
  let m ← v.fieldsOf ["identifier", "signature_sha256"]
  some {
    identifier := ← field str? "identifier" m
    signatureSha256 := ← field str? "signature_sha256" m }

def Safety.fromJson (v : Json) : Option Safety := do
  let m ← v.fieldsOf
    ["network", "credentials_present", "git_history_present", "oracle_present", "external_effects"]
  some {
    network := ← field str? "network" m
    credentialsPresent := ← field bool? "credentials_present" m
    gitHistoryPresent := ← field bool? "git_history_present" m
    oraclePresent := ← field bool? "oracle_present" m
    externalEffects := ← field unsigned64? "external_effects" m }

def Verification.fromJson (v : Json) : Option Verification := do
  let m ← v.fieldsOf
    ["schema_version", "role", "repository", "issue_number", "baseline_source_sha", "source_sha",
      "candidate_sha", "command_sha256", "toolchain", "completed_at", "exit_code", "output_sha256",
      "failures", "safety"]
  some {
    schemaVersion := ← field str? "schema_version" m
    role := ← field str? "role" m
    repository := ← field str? "repository" m
    issueNumber := ← field unsigned64? "issue_number" m
    baselineSourceSha := ← field str? "baseline_source_sha" m
    sourceSha := ← field str? "source_sha" m
    candidateSha := ← optionalField str? "candidate_sha" m
    commandSha256 := ← field str? "command_sha256" m
    toolchain := ← field Toolchain.fromJson "toolchain" m
    completedAt := ← field str? "completed_at" m
    exitCode := ← field (unsigned? 256) "exit_code" m
    outputSha256 := ← field str? "output_sha256" m
    failures := ← field (items? Failure.fromJson) "failures" m
    safety := ← field Safety.fromJson "safety" m }

/-! ### Checks -/

def maxFailures : ℕ := 256

def maxIdentifierBytes : ℕ := 256

def isSha (value : String) : Bool := value.utf8ByteSize = 40 && (bytes value).all isLowerHex

def isDigest (value : String) : Bool :=
  "sha256:".toList <+: value.toList &&
    let digest := String.ofList (value.toList.drop 7)
    digest.utf8ByteSize = 64 && (bytes digest).all isLowerHex

def validateText (name value : String) (maxBytes : ℕ) : Except String Unit :=
  bailIf (value = "" ∨ maxBytes < value.utf8ByteSize ∨ value.toList.any isControl = true)
    (name ++ " must be printable, nonempty, and at most " ++ toString maxBytes ++ " bytes")

def validateRepository (repository : String) : Except String Unit :=
  match repository.toList.splitOn '/' with
  | [owner, name] => do
    bailIf (owner = [] ∨ 39 < (String.ofList owner).utf8ByteSize ∨
        (bytes (.ofList owner)).all (fun c => isAsciiAlphanumeric c || c = '-') = false ∨
        (bytes (.ofList owner)).head?.any isAsciiAlphanumeric = false ∨
        (bytes (.ofList owner)).getLast?.any isAsciiAlphanumeric = false ∨
        containsText (.ofList owner) "--" = true)
      "repository owner must use canonical GitHub owner grammar"
    bailIf (name = [] ∨ 100 < (String.ofList name).utf8ByteSize ∨ name = ['.'] ∨ name = ['.', '.'] ∨
        name.getLast? = some '.' ∨
        (".git".toList <:+ (toAsciiLowercase (.ofList name)).toList) ∨
        (bytes (.ofList name)).all (fun c => isAsciiAlphanumeric c || c ∈ ['.', '_', '-']) = false)
      "repository name must use canonical GitHub repository grammar"
  | _ => .error "repository must use canonical owner/name syntax"

/-- The failures by their identifiers. -/
def insertFailure (result : List (String × Failure)) (failure : Failure) :
    Except String (List (String × Failure)) := do
  validateText "failure identifier" failure.identifier maxIdentifierBytes
  bailIf (isDigest failure.signatureSha256 = false)
    "failure signature must use lowercase sha256:<64 hex>"
  bailIf ((result.lookup failure.identifier).isSome = true) "failure identifiers must be unique"
  .ok (result ++ [(failure.identifier, failure)])

def failureMap (failures : List Failure) : Except String (List (String × Failure)) :=
  failures.foldlM insertFailure []

def validateSources (verification : Verification) (expectedRole : String) : Except String Unit :=
  if expectedRole = "baseline" then
    bailIf (verification.candidateSha.isSome = true ∨
        verification.sourceSha ≠ verification.baselineSourceSha)
      "baseline must omit candidate_sha and use baseline_source_sha as source_sha"
  else if expectedRole = "candidate" then do
    let candidateSha ← orContext verification.candidateSha "candidate must include candidate_sha"
    bailIf (isSha candidateSha = false ∨ candidateSha ≠ verification.sourceSha ∨
        candidateSha = verification.baselineSourceSha)
      "candidate_sha must be a distinct exact source_sha"
  else .ok ()

section

variable [IssueLibrary]

/-- A date of the last seven days, give or take a clock. -/
def validateFreshTimestamp (now : DateTime) (value : String) : Except String Unit := do
  let completedAt ← orContext (IssueLibrary.parseRfc3339 value)
    "completed_at must use RFC3339 timestamp syntax"
  bailIf (completedAt + minutes (7 * 24 * 60) < now) "completed_at is stale"
  bailIf (now + minutes 5 < completedAt) "completed_at is too far in the future"

def validate (now : DateTime) (verification : Verification) (expectedRole : String) :
    Except String Unit := do
  bailIf (verification.schemaVersion ≠ "ao2.github-issue-repair-verification.v1")
    "unsupported verification schema_version"
  bailIf (verification.role ≠ expectedRole) ("verification role must be " ++ expectedRole)
  validateRepository verification.repository
  bailIf (verification.issueNumber = 0) "issue_number must be positive"
  bailIf (isSha verification.baselineSourceSha = false ∨ isSha verification.sourceSha = false)
    "source SHA fields must be exactly 40 lowercase hexadecimal characters"
  validateSources verification expectedRole
  bailIf (isDigest verification.commandSha256 = false ∨ isDigest verification.outputSha256 = false)
    "command and output digests must use lowercase sha256:<64 hex>"
  validateText "toolchain.name" verification.toolchain.name 128
  validateText "toolchain.version" verification.toolchain.version 128
  validateFreshTimestamp now verification.completedAt
  bailIf (maxFailures < verification.failures.length) "failures exceed 256-item limit"
  bailIf (decide (verification.failures = []) ≠ decide (verification.exitCode = 0))
    "exit_code must be zero exactly when failures is empty"
  let _ ← failureMap verification.failures
  bailIf (verification.safety.network ≠ "none" ∨ verification.safety.credentialsPresent = true ∨
      verification.safety.gitHistoryPresent = true ∨ verification.safety.oraclePresent = true ∨
      verification.safety.externalEffects ≠ 0)
    "verification safety boundary is not offline and effect-free"

end

/-! ### The comparison -/

structure ChangedFailure where
  identifier : String
  baselineSignatureSha256 : String
  candidateSignatureSha256 : String
  deriving DecidableEq

/-- The failures by what became of them. -/
structure Comparison where
  shared : List Failure
  resolved : List Failure
  changed : List ChangedFailure
  candidateOnly : List Failure

/-- Put an identifier on its list. -/
def Comparison.push (baseline candidate : List (String × Failure)) (lists : Comparison)
    (identifier : String) : Comparison :=
  match baseline.lookup identifier, candidate.lookup identifier with
  | some b, some c =>
    if b.signatureSha256 = c.signatureSha256 then { lists with shared := lists.shared ++ [c] }
    else
      { lists with
        changed := lists.changed ++ [⟨identifier, b.signatureSha256, c.signatureSha256⟩] }
  | some b, none => { lists with resolved := lists.resolved ++ [b] }
  | none, some c => { lists with candidateOnly := lists.candidateOnly ++ [c] }
  | none, none => lists

/-! Texts are sorted by their order: the proofs are named once, for each list that is sorted. -/

theorem isTrans_text : IsTrans String fun s t => s ≤ t := inferInstance

theorem antisymm_text : Std.Antisymm fun s t : String => s ≤ t := inferInstance

theorem total_text : Std.Total fun s t : String => s ≤ t := inferInstance

attribute [local instance] isTrans_text antisymm_text total_text in
/-- The identifiers of both maps, in their order. -/
def identifiersOf (baseline candidate : List (String × Failure)) : List String :=
  (baseline.map Prod.fst ++ candidate.map Prod.fst).toFinset.sort (· ≤ ·)

def compare (baseline candidate : List (String × Failure)) : Comparison :=
  (identifiersOf baseline candidate).foldl (Comparison.push baseline candidate) ⟨[], [], [], []⟩

def Comparison.candidateRegression (lists : Comparison) : Bool :=
  lists.changed ≠ [] || lists.candidateOnly ≠ []

def Comparison.classification (lists : Comparison) : String :=
  if lists.candidateRegression then "candidate_regression_detected"
  else if lists.shared ≠ [] then "candidate_has_only_exact_baseline_failures"
  else if lists.resolved ≠ [] then "candidate_resolved_baseline_failures"
  else "candidate_clean"

structure Readback where
  schemaVersion : String
  classification : String
  repository : String
  issueNumber : ℕ
  baselineSourceSha : String
  candidateSha : String
  commandSha256 : String
  baselineEvidenceSha256 : String
  candidateEvidenceSha256 : String
  baselineExitCode : ℕ
  candidateExitCode : ℕ
  baselineFailuresRetained : Bool
  candidateRegression : Bool
  sharedFailures : List Failure
  resolvedFailures : List Failure
  changedFailures : List ChangedFailure
  candidateOnlyFailures : List Failure
  networkPerformed : Bool
  gitPerformed : Bool
  githubPerformed : Bool
  providerCalls : ℕ
  repairPerformed : Bool
  mutationPerformed : Bool
  approvalGranted : Bool
  releasePerformed : Bool
  deploymentPerformed : Bool
  publicationPerformed : Bool
  deriving DecidableEq

section

variable [IssueLibrary]

def digest (bytes : Octets) : String := "sha256:" ++ IssueLibrary.sha256 bytes

/-- What is reported of two documents and a comparison of their failures. -/
def readback (baselineBytes candidateBytes : Octets) (baseline candidate : Verification)
    (candidateSha : String) (lists : Comparison) : Readback where
  schemaVersion := "ao2.github-issue-repair-result-classification.v1"
  classification := lists.classification
  repository := baseline.repository
  issueNumber := baseline.issueNumber
  baselineSourceSha := baseline.baselineSourceSha
  candidateSha := candidateSha
  commandSha256 := baseline.commandSha256
  baselineEvidenceSha256 := digest baselineBytes
  candidateEvidenceSha256 := digest candidateBytes
  baselineExitCode := baseline.exitCode
  candidateExitCode := candidate.exitCode
  baselineFailuresRetained := lists.shared ≠ []
  candidateRegression := lists.candidateRegression
  sharedFailures := lists.shared
  resolvedFailures := lists.resolved
  changedFailures := lists.changed
  candidateOnlyFailures := lists.candidateOnly
  networkPerformed := false
  gitPerformed := false
  githubPerformed := false
  providerCalls := 0
  repairPerformed := false
  mutationPerformed := false
  approvalGranted := false
  releasePerformed := false
  deploymentPerformed := false
  publicationPerformed := false

def readVerification (bytes : Octets) : Option Verification :=
  (IssueLibrary.fromSlice bytes).bind Verification.fromJson

/-- **The classification of two documents**, from what is read of their files. Each is checked by the
clock of its own check. -/
def classify (baselineNow candidateNow : DateTime) (baselineFile candidateFile : Except String Octets) :
    Except String Readback := do
  let baselineBytes ← baselineFile
  let candidateBytes ← candidateFile
  let baseline ← orContext (readVerification baselineBytes) "parse strict baseline JSON"
  let candidate ← orContext (readVerification candidateBytes) "parse strict candidate JSON"
  validate baselineNow baseline "baseline"
  validate candidateNow candidate "candidate"
  bailIf (baseline.repository ≠ candidate.repository ∨
      baseline.issueNumber ≠ candidate.issueNumber ∨
      baseline.baselineSourceSha ≠ candidate.baselineSourceSha ∨
      baseline.commandSha256 ≠ candidate.commandSha256 ∨ baseline.toolchain ≠ candidate.toolchain)
    "baseline and candidate comparison identities do not match"
  let baselineFailures ← failureMap baseline.failures
  let candidateFailures ← failureMap candidate.failures
  let candidateSha ← orContext candidate.candidateSha "validated candidate SHA"
  .ok (readback baselineBytes candidateBytes baseline candidate candidateSha
    (compare baselineFailures candidateFailures))

end

end Classification

end Issues

end Ao2
