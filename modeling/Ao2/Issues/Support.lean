import Ao2.Core
import Ao2.Issues.Classification
import Ao2.Json.Pretty
import Ao2.Texts.Split

/-!
# Support bundles

A bundle for troubleshooting says which product failed where, with its logs left out. An issue may be
bound to a bundle whose fields are from short lists and whose digests are those of its contents.

A source says what went wrong, and has log entries. Its fields are normalised and checked, and its log
entries are replaced by a fixed text. What is written is a bundle with two digests of its fields.
-/

namespace Ao2

namespace Issues

namespace Support

open Json

/-! ### Bundles -/

structure ProductPlatform where
  os : String
  architecture : String

structure WorkflowIdentity where
  identity : String
  verifierIdentity : String

structure ApprovalState where
  status : String
  actionDigest : Option String

structure EvidenceState where
  status : String
  digest : Option String

structure FailureIdentity where
  category : String
  phase : String

structure SanitizedLog where
  sequence : ℕ
  text : String

structure RedactionSummary where
  inputLogEntries : ℕ
  fullyRedactedLogEntries : ℕ

structure GovernedIssueRoute where
  inputTrust : String
  evidenceKind : String
  problemFingerprint : String
  issueWritePerformed : Bool
  publicWritePerformed : Bool

structure SupportBundle where
  schemaVersion : String
  ao2Version : String
  controlPlaneVersion : String
  platform : ProductPlatform
  workflow : WorkflowIdentity
  approval : ApprovalState
  replayStatus : String
  evidence : EvidenceState
  manifestSha256 : String
  releaseSha256 : String
  failure : FailureIdentity
  logs : List SanitizedLog
  redaction : RedactionSummary
  problemFingerprint : String
  bundleSha256 : String
  smallestSafeNextAction : String
  governedIssueRoute : GovernedIssueRoute
  observerOnly : Bool
  safeToExecute : Bool
  executesWork : Bool
  callsProviders : Bool
  issueWritePerformed : Bool
  publicWritePerformed : Bool
  releaseOrDeploymentPerformed : Bool

def ProductPlatform.fromJson (v : Json) : Option ProductPlatform := do
  let m ← v.fieldsOf ["os", "architecture"]
  some { os := ← field str? "os" m, architecture := ← field str? "architecture" m }

def WorkflowIdentity.fromJson (v : Json) : Option WorkflowIdentity := do
  let m ← v.fieldsOf ["identity", "verifier_identity"]
  some {
    identity := ← field str? "identity" m
    verifierIdentity := ← field str? "verifier_identity" m }

def ApprovalState.fromJson (v : Json) : Option ApprovalState := do
  let m ← v.fieldsOf ["status", "action_digest"]
  some {
    status := ← field str? "status" m
    actionDigest := ← optionalField str? "action_digest" m }

/-- The status of a replay. -/
def statusFromJson (v : Json) : Option String := do
  let m ← v.fieldsOf ["status"]
  field str? "status" m

def EvidenceState.fromJson (v : Json) : Option EvidenceState := do
  let m ← v.fieldsOf ["status", "digest"]
  some { status := ← field str? "status" m, digest := ← optionalField str? "digest" m }

def FailureIdentity.fromJson (v : Json) : Option FailureIdentity := do
  let m ← v.fieldsOf ["category", "phase"]
  some { category := ← field str? "category" m, phase := ← field str? "phase" m }

def SanitizedLog.fromJson (v : Json) : Option SanitizedLog := do
  let m ← v.fieldsOf ["sequence", "text"]
  some { sequence := ← field unsigned64? "sequence" m, text := ← field str? "text" m }

def RedactionSummary.fromJson (v : Json) : Option RedactionSummary := do
  let m ← v.fieldsOf ["input_log_entries", "fully_redacted_log_entries"]
  some {
    inputLogEntries := ← field unsigned64? "input_log_entries" m
    fullyRedactedLogEntries := ← field unsigned64? "fully_redacted_log_entries" m }

def GovernedIssueRoute.fromJson (v : Json) : Option GovernedIssueRoute := do
  let m ← v.fieldsOf
    ["input_trust", "evidence_kind", "problem_fingerprint", "issue_write_performed",
      "public_write_performed"]
  some {
    inputTrust := ← field str? "input_trust" m
    evidenceKind := ← field str? "evidence_kind" m
    problemFingerprint := ← field str? "problem_fingerprint" m
    issueWritePerformed := ← field bool? "issue_write_performed" m
    publicWritePerformed := ← field bool? "public_write_performed" m }

def SupportBundle.fromJson (v : Json) : Option SupportBundle := do
  let m ← v.fieldsOf
    ["schema_version", "ao2_version", "control_plane_version", "platform", "workflow", "approval",
      "replay", "evidence", "manifest_sha256", "release_sha256", "failure", "logs", "redaction",
      "problem_fingerprint", "bundle_sha256", "smallest_safe_next_action", "governed_issue_route",
      "observer_only", "safe_to_execute", "executes_work", "calls_providers", "issue_write_performed",
      "public_write_performed", "release_or_deployment_performed"]
  some {
    schemaVersion := ← field str? "schema_version" m
    ao2Version := ← field str? "ao2_version" m
    controlPlaneVersion := ← field str? "control_plane_version" m
    platform := ← field ProductPlatform.fromJson "platform" m
    workflow := ← field WorkflowIdentity.fromJson "workflow" m
    approval := ← field ApprovalState.fromJson "approval" m
    replayStatus := ← field statusFromJson "replay" m
    evidence := ← field EvidenceState.fromJson "evidence" m
    manifestSha256 := ← field str? "manifest_sha256" m
    releaseSha256 := ← field str? "release_sha256" m
    failure := ← field FailureIdentity.fromJson "failure" m
    logs := ← field (items? SanitizedLog.fromJson) "logs" m
    redaction := ← field RedactionSummary.fromJson "redaction" m
    problemFingerprint := ← field str? "problem_fingerprint" m
    bundleSha256 := ← field str? "bundle_sha256" m
    smallestSafeNextAction := ← field str? "smallest_safe_next_action" m
    governedIssueRoute := ← field GovernedIssueRoute.fromJson "governed_issue_route" m
    observerOnly := ← field bool? "observer_only" m
    safeToExecute := ← field bool? "safe_to_execute" m
    executesWork := ← field bool? "executes_work" m
    callsProviders := ← field bool? "calls_providers" m
    issueWritePerformed := ← field bool? "issue_write_performed" m
    publicWritePerformed := ← field bool? "public_write_performed" m
    releaseOrDeploymentPerformed := ← field bool? "release_or_deployment_performed" m }

/-! ### What is digested -/

/-- A text, or nothing. -/
def optionalText : Option String → Json
  | some text => .str text
  | none => .null

def ProductPlatform.toJson (e : ProductPlatform) : Json :=
  .obj [("architecture", .str e.architecture), ("os", .str e.os)]

def WorkflowIdentity.toJson (w : WorkflowIdentity) : Json :=
  .obj [("identity", .str w.identity), ("verifier_identity", .str w.verifierIdentity)]

def ApprovalState.toJson (a : ApprovalState) : Json :=
  .obj [("action_digest", optionalText a.actionDigest), ("status", .str a.status)]

def EvidenceState.toJson (e : EvidenceState) : Json :=
  .obj [("digest", optionalText e.digest), ("status", .str e.status)]

def FailureIdentity.toJson (f : FailureIdentity) : Json :=
  .obj [("category", .str f.category), ("phase", .str f.phase)]

def SanitizedLog.toJson (l : SanitizedLog) : Json :=
  .obj [("sequence", .nat l.sequence), ("text", .str l.text)]

def RedactionSummary.toJson (r : RedactionSummary) : Json :=
  .obj [("fully_redacted_log_entries", .nat r.fullyRedactedLogEntries),
    ("input_log_entries", .nat r.inputLogEntries)]

def GovernedIssueRoute.toJson (r : GovernedIssueRoute) : Json :=
  .obj [("evidence_kind", .str r.evidenceKind), ("input_trust", .str r.inputTrust),
    ("issue_write_performed", .bool r.issueWritePerformed),
    ("problem_fingerprint", .str r.problemFingerprint),
    ("public_write_performed", .bool r.publicWritePerformed)]

/-- A bundle without its digest. -/
def SupportBundle.subject (b : SupportBundle) : Json :=
  .obj [("ao2_version", .str b.ao2Version), ("approval", b.approval.toJson),
    ("calls_providers", .bool b.callsProviders),
    ("control_plane_version", .str b.controlPlaneVersion), ("evidence", b.evidence.toJson),
    ("executes_work", .bool b.executesWork), ("failure", b.failure.toJson),
    ("governed_issue_route", b.governedIssueRoute.toJson),
    ("issue_write_performed", .bool b.issueWritePerformed),
    ("logs", .arr (b.logs.map SanitizedLog.toJson)), ("manifest_sha256", .str b.manifestSha256),
    ("observer_only", .bool b.observerOnly), ("platform", b.platform.toJson),
    ("problem_fingerprint", .str b.problemFingerprint),
    ("public_write_performed", .bool b.publicWritePerformed), ("redaction", b.redaction.toJson),
    ("release_or_deployment_performed", .bool b.releaseOrDeploymentPerformed),
    ("release_sha256", .str b.releaseSha256), ("replay", .obj [("status", .str b.replayStatus)]),
    ("safe_to_execute", .bool b.safeToExecute), ("schema_version", .str b.schemaVersion),
    ("smallest_safe_next_action", .str b.smallestSafeNextAction), ("workflow", b.workflow.toJson)]

def fingerprintSubject (b : SupportBundle) : Json :=
  .obj [("ao2_version", .str b.ao2Version), ("approval", b.approval.toJson),
    ("control_plane_version", .str b.controlPlaneVersion), ("evidence", b.evidence.toJson),
    ("failure", b.failure.toJson), ("manifest_sha256", .str b.manifestSha256),
    ("platform", b.platform.toJson), ("release_sha256", .str b.releaseSha256),
    ("replay", .obj [("status", .str b.replayStatus)]),
    ("schema_version", .str "ao2.troubleshooting-problem-fingerprint.v0.1"),
    ("smallest_safe_next_action", .str b.smallestSafeNextAction), ("workflow", b.workflow.toJson)]

/-! ### Checks -/

def maxLogs : ℕ := 16

def allowedWorkflows : List String :=
  ["risky-pr-v1", "public-release-build-v1", "release-gate-v1", "pulse-v1"]

def allowedVerifiers : List String :=
  ["ao2-report-verifier-v1", "ao2-release-verifier-v1", "ao2-evidence-verifier-v1"]

def allowedFailureCategories : List String :=
  ["approval_blocked", "evidence_missing", "manifest_mismatch", "release_mismatch", "replay_failed",
    "verification_failed", "worker_stale"]

def allowedFailurePhases : List String :=
  ["approval", "evidence", "execution", "intake", "planning", "recovery", "release", "replay",
    "report_contract", "verification"]

def allowedNextActions : List String :=
  ["Inspect the exact approval action digest before retrying.",
    "Refresh the worker heartbeat before trusting running state.",
    "Re-run ao2 report verify against the retained evidence pack.",
    "Restore the retained evidence pack before retrying.",
    "Retry replay from the last verified checkpoint.",
    "Stop and request bounded operator authority for the exact action."]

def normalizeText (value : String) : String := " ".intercalate (splitWhitespace value)

def validateText (name value : String) (max : ℕ) : Except String Unit :=
  bailIf (isBlank value = true ∨ max < value.utf8ByteSize ∨
      (bytes value).any (fun c => c.toNat = 0 || c.toNat = 127 || (c.toNat < 32 && c ≠ '\t')) = true)
    (name ++ " must be non-empty and at most " ++ toString max ++ " bytes without control characters")

def validateVersion (name value : String) : Except String Unit := do
  validateText name value 64
  let components := value.toList.splitOn '.'
  bailIf (¬ (2 ≤ components.length ∧ components.length ≤ 3) ∨
      components.any (fun component => component = [] || !component.all Char.isDigit) = true)
    (name ++ " must be a numeric two- or three-component version")

def validateAllowed (name value : String) (allowed : List String) : Except String Unit :=
  bailIf (value ∉ allowed) (name ++ " is not an allowed public support value")

def validateStatus (name value : String) (allowed : List String) : Except String Unit :=
  bailIf (value ∉ allowed) (name ++ " is unsupported")

def validateDigest (name value : String) : Except String Unit :=
  bailIf (isSha256 value = false) (name ++ " must be a lowercase SHA-256 digest")

/-- A digest that is there just when it is required. -/
def validateStateDigest (name : String) (value : Option String) (required : Bool) : Except String Unit := do
  match value with
  | some digest => validateDigest name digest
  | none => bailIf (required = true) (name ++ " is required for this status")
  bailIf (required = false ∧ value.isSome = true) (name ++ " must be absent for this status")

def validateApproval (approval : ApprovalState) : Except String Unit := do
  bailIf (approval.status ∉ ["not_required", "not_attempted", "waiting", "approved", "rejected"])
    "approval.status is unsupported"
  validateStateDigest "approval.action_digest" approval.actionDigest
    (approval.status ∈ ["waiting", "approved", "rejected"])

def validateEvidence (evidence : EvidenceState) : Except String Unit := do
  validateStatus "evidence.status" evidence.status ["not_available", "retained", "verified", "failed"]
  validateStateDigest "evidence.digest" evidence.digest (evidence.status ≠ "not_available")

def validateProductMetadata (b : SupportBundle) : Except String Unit := do
  validateVersion "ao2_version" b.ao2Version
  validateVersion "control_plane_version" b.controlPlaneVersion
  validateAllowed "platform.os" b.platform.os ["linux", "macos", "windows"]
  validateAllowed "platform.architecture" b.platform.architecture ["aarch64", "x86_64"]
  validateAllowed "workflow.identity" b.workflow.identity allowedWorkflows
  validateAllowed "workflow.verifier_identity" b.workflow.verifierIdentity allowedVerifiers
  validateAllowed "failure.category" b.failure.category allowedFailureCategories
  validateAllowed "failure.phase" b.failure.phase allowedFailurePhases
  validateAllowed "smallest_safe_next_action" b.smallestSafeNextAction allowedNextActions

def validateBundleNormalization (b : SupportBundle) : Except String Unit :=
  bailIf (b.ao2Version ≠ normalizeText b.ao2Version ∨
      b.controlPlaneVersion ≠ normalizeText b.controlPlaneVersion ∨
      b.platform.os ≠ toAsciiLowercase (trim b.platform.os) ∨
      b.platform.architecture ≠ toAsciiLowercase (trim b.platform.architecture) ∨
      b.workflow.identity ≠ normalizeText b.workflow.identity ∨
      b.workflow.verifierIdentity ≠ normalizeText b.workflow.verifierIdentity ∨
      b.failure.category ≠ toAsciiLowercase (normalizeText b.failure.category) ∨
      b.failure.phase ≠ toAsciiLowercase (normalizeText b.failure.phase) ∨
      b.smallestSafeNextAction ≠ normalizeText b.smallestSafeNextAction)
    "support bundle fields are not canonically normalized"

def validateLog (log : SanitizedLog) (index : ℕ) : Except String Unit := do
  bailIf (log.sequence ≠ index + 1) "support bundle log sequence is not contiguous"
  bailIf (log.text ≠ "[REDACTED_LOG]") "support bundle contains a non-redacted diagnostic entry"

variable [Platform]

def validateBundle (b : SupportBundle) : Except String Unit := do
  bailIf (b.schemaVersion ≠ "ao2.troubleshooting-support-bundle.v0.1")
    "unsupported troubleshooting support bundle schema"
  validateProductMetadata b
  validateApproval b.approval
  validateStatus "replay.status" b.replayStatus ["not_attempted", "accepted", "failed", "blocked"]
  validateEvidence b.evidence
  validateDigest "manifest_sha256" b.manifestSha256
  validateDigest "release_sha256" b.releaseSha256
  validateBundleNormalization b
  bailIf (maxLogs < b.logs.length) "support bundle logs must contain at most 16 entries"
  bailIf (b.redaction.inputLogEntries ≠ b.logs.length ∨
      b.redaction.fullyRedactedLogEntries ≠ b.logs.length)
    "support bundle redaction summary does not match its log entries"
  b.logs.zipIdx.forM fun (log, index) => validateLog log index
  bailIf (b.governedIssueRoute.inputTrust ≠ "sanitized_untrusted" ∨
      b.governedIssueRoute.evidenceKind ≠ "troubleshooting_support_bundle" ∨
      b.governedIssueRoute.problemFingerprint ≠ b.problemFingerprint ∨
      b.governedIssueRoute.issueWritePerformed = true ∨
      b.governedIssueRoute.publicWritePerformed = true ∨ b.observerOnly = false ∨
      b.safeToExecute = true ∨ b.executesWork = true ∨ b.callsProviders = true ∨
      b.issueWritePerformed = true ∨ b.publicWritePerformed = true ∨
      b.releaseOrDeploymentPerformed = true)
    "support bundle violates the governed observer-only boundary"
  bailIf (b.problemFingerprint ≠ "sha256:" ++ sha256Json (fingerprintSubject b))
    "support bundle problem fingerprint does not match its canonical fields"
  bailIf (b.bundleSha256 ≠ sha256Json b.subject)
    "support bundle digest does not match its canonical contents"

/-! ### What an issue is bound to -/

structure GovernedIssueBinding where
  problemFingerprint : String
  bundleSha256 : String
  workflowIdentity : String
  failureCategory : String
  failedPhase : String

def validateGovernedIssueMetadata (workflowIdentity failureCategory failedPhase : String) :
    Except String Unit := do
  validateAllowed "support_bundle.workflow_identity" workflowIdentity allowedWorkflows
  validateAllowed "support_bundle.failure_category" failureCategory allowedFailureCategories
  validateAllowed "support_bundle.failed_phase" failedPhase allowedFailurePhases

end Support

/-- The most bytes of a document. -/
def maxInputBytes : ℕ := 65536

/-- The value of a regular file, from what is read of it. -/
def readBoundedJson [IssueLibrary] {α : Type} (read : Json → Option α) (file : Except String Octets) :
    Except String α := do
  let bytes ← file
  bailIf (maxInputBytes < bytes.length) "input exceeds the 65536-byte limit"
  orContext ((IssueLibrary.fromSlice bytes).bind read) "parse strict JSON"

theorem readBoundedJson_eq_ok [IssueLibrary] {α : Type} {read : Json → Option α} {file : Except String Octets} {a : α} :
    readBoundedJson read file = .ok a ↔ ∃ bytes, file = .ok bytes ∧ bytes.length ≤ maxInputBytes ∧
      (IssueLibrary.fromSlice bytes).bind read = some a := by
  rw [readBoundedJson, bind_eq_ok]
  simp only [seq_eq_ok, bailIf_eq_ok, Nat.not_lt, orContext_eq_ok]

namespace Support

/-- What an issue is bound to by a bundle, from what is read of its file. -/
def validateForGovernedIssue [Platform] [IssueLibrary] (file : Except String Octets) :
    Except String GovernedIssueBinding := do
  let b ← readBoundedJson SupportBundle.fromJson file
  validateBundle b
  .ok {
    problemFingerprint := b.problemFingerprint
    bundleSha256 := b.bundleSha256
    workflowIdentity := b.workflow.identity
    failureCategory := b.failure.category
    failedPhase := b.failure.phase }

variable [Platform]

/-- **What is known of a bundle that an issue may be bound to.** -/
theorem validateForGovernedIssue_eq_ok [IssueLibrary] {file : Except String Octets}
    {binding : GovernedIssueBinding} (h : validateForGovernedIssue file = .ok binding) :
    (∃ v, binding.problemFingerprint = "sha256:" ++ sha256Json v) ∧
      validateGovernedIssueMetadata binding.workflowIdentity binding.failureCategory
        binding.failedPhase = .ok () := by
  rw [validateForGovernedIssue] at h
  obtain ⟨b, -, h⟩ := bind_eq_ok.mp h
  obtain ⟨hb, h⟩ := seq_eq_ok.mp h
  obtain rfl := Except.ok.inj h
  simp only [validateBundle, validateProductMetadata, seq_eq_ok, bailIf_eq_ok, not_not, ne_eq,
    validateAllowed] at hb
  obtain ⟨-, ⟨-, -, -, -, hworkflow, -, hcategory, hphase, -⟩, -, -, -, -, -, -, -, -, -, -,
    hfingerprint, -⟩ := hb
  refine ⟨⟨_, hfingerprint⟩, ?_⟩
  simp only [validateGovernedIssueMetadata, validateAllowed, seq_eq_ok, bailIf_eq_ok, not_not]
  exact ⟨hworkflow, hcategory, hphase⟩

end Support

end Issues

end Ao2

/-! ## Building a support bundle -/

namespace Ao2

namespace Issues

namespace Support

open Json

/-! ### Sources -/

structure SafetyBoundary where
  executesWork : Bool
  callsProviders : Bool
  issueWritePerformed : Bool
  publicWritePerformed : Bool
  releaseOrDeploymentPerformed : Bool

structure SupportSource where
  schemaVersion : String
  ao2Version : String
  controlPlaneVersion : String
  platform : ProductPlatform
  workflow : WorkflowIdentity
  approval : ApprovalState
  replayStatus : String
  evidence : EvidenceState
  manifestSha256 : String
  releaseSha256 : String
  failure : FailureIdentity
  logs : List String
  smallestSafeNextAction : String
  safety : SafetyBoundary

def SafetyBoundary.fromJson (v : Json) : Option SafetyBoundary := do
  let m ← v.fieldsOf
    ["executes_work", "calls_providers", "issue_write_performed", "public_write_performed",
      "release_or_deployment_performed"]
  some {
    executesWork := ← field bool? "executes_work" m
    callsProviders := ← field bool? "calls_providers" m
    issueWritePerformed := ← field bool? "issue_write_performed" m
    publicWritePerformed := ← field bool? "public_write_performed" m
    releaseOrDeploymentPerformed := ← field bool? "release_or_deployment_performed" m }

def SupportSource.fromJson (v : Json) : Option SupportSource := do
  let m ← v.fieldsOf
    ["schema_version", "ao2_version", "control_plane_version", "platform", "workflow", "approval",
      "replay", "evidence", "manifest_sha256", "release_sha256", "failure", "logs",
      "smallest_safe_next_action", "safety"]
  some {
    schemaVersion := ← field str? "schema_version" m
    ao2Version := ← field str? "ao2_version" m
    controlPlaneVersion := ← field str? "control_plane_version" m
    platform := ← field ProductPlatform.fromJson "platform" m
    workflow := ← field WorkflowIdentity.fromJson "workflow" m
    approval := ← field ApprovalState.fromJson "approval" m
    replayStatus := ← field statusFromJson "replay" m
    evidence := ← field EvidenceState.fromJson "evidence" m
    manifestSha256 := ← field str? "manifest_sha256" m
    releaseSha256 := ← field str? "release_sha256" m
    failure := ← field FailureIdentity.fromJson "failure" m
    logs := ← field (items? str?) "logs" m
    smallestSafeNextAction := ← field str? "smallest_safe_next_action" m
    safety := ← field SafetyBoundary.fromJson "safety" m }

def normalizeSource (source : SupportSource) : SupportSource :=
  { source with
    ao2Version := normalizeText source.ao2Version
    controlPlaneVersion := normalizeText source.controlPlaneVersion
    platform := ⟨toAsciiLowercase (trim source.platform.os),
      toAsciiLowercase (trim source.platform.architecture)⟩
    workflow := ⟨normalizeText source.workflow.identity,
      normalizeText source.workflow.verifierIdentity⟩
    failure := ⟨toAsciiLowercase (normalizeText source.failure.category),
      toAsciiLowercase (normalizeText source.failure.phase)⟩
    smallestSafeNextAction := normalizeText source.smallestSafeNextAction }

/-! ### Logs -/

def privatePrefixes : List String :=
  ["fn ", "pub fn ", "let ", "const ", "static ", "var ", "function ", "def ", "class ", "import ",
    "package ", "module ", "impl ", "struct ", "enum ", "interface ", "namespace ", "using ", "if ",
    "for ", "while ", "match ", "return ", "select ", "insert ", "update ", "delete ", "#include ",
    "#!/", "<script", "use crate::"]

/-- A text without the white space before it. -/
def trimStart (text : List Char) : List Char := text.dropWhile isWhitespace

def looksLikePrivateSource (input : String) : Bool :=
  let trimmed := (toAsciiLowercase (.ofList (trimStart input.toList))).toList
  let candidates :=
    trimmed :: ((splitOnce ": ".toList trimmed).map fun parts => trimStart parts.2).toList
  (candidates.any fun candidate => privatePrefixes.any fun word => word.toList <+: candidate) ||
    candidates.any fun candidate =>
      '{' ∈ candidate && '}' ∈ candidate && ("return ".toList <:+: candidate : Bool)

def maxLogBytes : ℕ := 2048

/-- The entry that is written for a log entry. -/
def sanitizeLog (raw : String) (index : ℕ) : Except String SanitizedLog := do
  validateText "log entry" raw maxLogBytes
  bailIf (looksLikePrivateSource raw = true) "log entry appears to contain private source content"
  .ok ⟨index + 1, "[REDACTED_LOG]"⟩

def sanitizeLogs (logs : List String) : Except String (List SanitizedLog × RedactionSummary) := do
  let sanitized ← logs.zipIdx.mapM fun (raw, index) => sanitizeLog raw index
  .ok (sanitized, ⟨logs.length, logs.length⟩)

/-! ### Bundles -/

/-- The bundle of a source, given what is derived of it. -/
def bundleOf (source : SupportSource) (logs : List SanitizedLog) (redaction : RedactionSummary)
    (problemFingerprint bundleSha256 : String) : SupportBundle where
  schemaVersion := "ao2.troubleshooting-support-bundle.v0.1"
  ao2Version := source.ao2Version
  controlPlaneVersion := source.controlPlaneVersion
  platform := source.platform
  workflow := source.workflow
  approval := source.approval
  replayStatus := source.replayStatus
  evidence := source.evidence
  manifestSha256 := source.manifestSha256
  releaseSha256 := source.releaseSha256
  failure := source.failure
  logs := logs
  redaction := redaction
  problemFingerprint := problemFingerprint
  bundleSha256 := bundleSha256
  smallestSafeNextAction := source.smallestSafeNextAction
  governedIssueRoute :=
    ⟨"sanitized_untrusted", "troubleshooting_support_bundle", problemFingerprint, false, false⟩
  observerOnly := true
  safeToExecute := false
  executesWork := false
  callsProviders := false
  issueWritePerformed := false
  publicWritePerformed := false
  releaseOrDeploymentPerformed := false

/-- The bundle as far as it is known from the source. -/
def draftOf (source : SupportSource) : SupportBundle := bundleOf source [] ⟨0, 0⟩ "" ""

def validateSource (source : SupportSource) : Except String Unit := do
  bailIf (source.schemaVersion ≠ "ao2.troubleshooting-support-source.v0.1")
    "unsupported troubleshooting support source schema"
  validateProductMetadata (draftOf source)
  validateApproval source.approval
  validateStatus "replay.status" source.replayStatus ["not_attempted", "accepted", "failed", "blocked"]
  validateEvidence source.evidence
  validateDigest "manifest_sha256" source.manifestSha256
  validateDigest "release_sha256" source.releaseSha256
  bailIf (maxLogs < source.logs.length) "logs must contain at most 16 entries"
  bailIf (source.safety.executesWork = true ∨ source.safety.callsProviders = true ∨
      source.safety.issueWritePerformed = true ∨ source.safety.publicWritePerformed = true ∨
      source.safety.releaseOrDeploymentPerformed = true)
    "troubleshooting source violates the observer-only safety boundary"

/-! ### What is written -/

def ProductPlatform.written (e : ProductPlatform) : Json :=
  .obj [("os", .str e.os), ("architecture", .str e.architecture)]

def ApprovalState.written (a : ApprovalState) : Json :=
  .obj [("status", .str a.status), ("action_digest", optionalText a.actionDigest)]

def EvidenceState.written (e : EvidenceState) : Json :=
  .obj [("status", .str e.status), ("digest", optionalText e.digest)]

def RedactionSummary.written (r : RedactionSummary) : Json :=
  .obj [("input_log_entries", .nat r.inputLogEntries),
    ("fully_redacted_log_entries", .nat r.fullyRedactedLogEntries)]

def GovernedIssueRoute.written (r : GovernedIssueRoute) : Json :=
  .obj [("input_trust", .str r.inputTrust), ("evidence_kind", .str r.evidenceKind),
    ("problem_fingerprint", .str r.problemFingerprint),
    ("issue_write_performed", .bool r.issueWritePerformed),
    ("public_write_performed", .bool r.publicWritePerformed)]

/-- A bundle, with its fields as they are declared. -/
def SupportBundle.written (b : SupportBundle) : Json :=
  .obj [("schema_version", .str b.schemaVersion), ("ao2_version", .str b.ao2Version),
    ("control_plane_version", .str b.controlPlaneVersion), ("platform", b.platform.written),
    ("workflow", b.workflow.toJson), ("approval", b.approval.written),
    ("replay", .obj [("status", .str b.replayStatus)]), ("evidence", b.evidence.written),
    ("manifest_sha256", .str b.manifestSha256), ("release_sha256", .str b.releaseSha256),
    ("failure", b.failure.toJson), ("logs", .arr (b.logs.map SanitizedLog.toJson)),
    ("redaction", b.redaction.written), ("problem_fingerprint", .str b.problemFingerprint),
    ("bundle_sha256", .str b.bundleSha256),
    ("smallest_safe_next_action", .str b.smallestSafeNextAction),
    ("governed_issue_route", b.governedIssueRoute.written), ("observer_only", .bool b.observerOnly),
    ("safe_to_execute", .bool b.safeToExecute), ("executes_work", .bool b.executesWork),
    ("calls_providers", .bool b.callsProviders),
    ("issue_write_performed", .bool b.issueWritePerformed),
    ("public_write_performed", .bool b.publicWritePerformed),
    ("release_or_deployment_performed", .bool b.releaseOrDeploymentPerformed)]

/-- The bytes of the file of a bundle. -/
def SupportBundle.file (b : SupportBundle) : Octets := utf8Bytes (prettyText [] b.written ++ ['\n'])

variable [Platform]

/-- The bundle of a source, and the file that is written for it. -/
def buildFrom (source : SupportSource) : Except String (SupportBundle × Octets) := do
  let source := normalizeSource source
  validateSource source
  let problemFingerprint := "sha256:" ++ sha256Json (fingerprintSubject (draftOf source))
  let (logs, redaction) ← sanitizeLogs source.logs
  let bundle := bundleOf source logs redaction problemFingerprint ""
  let bundle := { bundle with bundleSha256 := sha256Json bundle.subject }
  bailIf (maxInputBytes < bundle.file.length)
    ("support bundle exceeds the 65536-byte limit: " ++ toString bundle.file.length ++ " bytes")
  .ok (bundle, bundle.file)

/-- Building, from what is read of the input; what could be created and written is not modelled. -/
def build [IssueLibrary] (input : Except String Octets) : Except String (SupportBundle × Octets) := do
  let source ← readBoundedJson SupportSource.fromJson input
  buildFrom source

end Support

end Issues

end Ao2
