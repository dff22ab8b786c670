import Ao2.Issues.Support

/-!
# Draft pull requests

The evidence of a repair becomes an action, which is the one request that opens a draft with it. The
action is bound to a digest of its subject. Whoever uses it checks all of it again.
-/

namespace Ao2

namespace Issues

namespace Draft

open Json

/-! ### Records -/

structure IssueIdentity where
  canonicalUrl : String
  number : ℕ
  snapshotSha256 : String
  classification : String
  deriving DecidableEq

structure RepositoryIdentity where
  target : String
  baseBranch : String
  baseCommit : String
  headRepository : String
  headBranch : String
  headCommit : String
  deriving DecidableEq

structure RepairProvenance where
  requestId : String
  resultId : String
  workerSourceCommit : String
  deriving DecidableEq

structure RepairEvidence where
  changedFiles : List String
  diffSha256 : String
  evidencePackSha256 : String
  verificationSha256 : String
  status : String
  provenance : RepairProvenance
  deriving DecidableEq

structure DraftText where
  title : String
  body : String
  deriving DecidableEq

structure SafetyBoundary where
  promptInjectionDetected : Bool
  securitySensitive : Bool
  policyBlocked : Bool
  issueWrite : Bool
  readyForReview : Bool
  reviewApproval : Bool
  merge : Bool
  release : Bool
  deriving DecidableEq

structure DraftEvidence where
  schemaVersion : String
  issue : IssueIdentity
  repository : RepositoryIdentity
  repair : RepairEvidence
  draft : DraftText
  safety : SafetyBoundary
  deriving DecidableEq

structure SupportBundleSubjectBinding where
  schemaVersion : String
  bundleSha256 : String
  problemFingerprint : String
  workflowIdentity : String
  failureCategory : String
  failedPhase : String
  deriving DecidableEq

structure CommitPreconditions where
  baseCommit : String
  headCommit : String
  deriving DecidableEq

structure DraftRequestBody where
  title : String
  body : String
  head : String
  base : String
  draft : Bool
  preconditions : CommitPreconditions
  deriving DecidableEq

structure DraftRequest where
  method : String
  path : String
  body : DraftRequestBody
  deriving DecidableEq

structure DraftSubject where
  operation : String
  issue : IssueIdentity
  repository : RepositoryIdentity
  repair : RepairEvidence
  supportBundle : Option SupportBundleSubjectBinding
  request : DraftRequest
  safety : SafetyBoundary
  deriving DecidableEq

structure DraftApproval where
  algorithm : String
  actionDigest : String
  deriving DecidableEq

structure DraftAction where
  schemaVersion : String
  subject : DraftSubject
  approval : DraftApproval
  deriving DecidableEq

/-! ### What is read -/

def IssueIdentity.fromJson (v : Json) : Option IssueIdentity := do
  let m ← v.fieldsOf ["canonical_url", "number", "snapshot_sha256", "classification"]
  some {
    canonicalUrl := ← field str? "canonical_url" m
    number := ← field unsigned64? "number" m
    snapshotSha256 := ← field str? "snapshot_sha256" m
    classification := ← field str? "classification" m }

def RepositoryIdentity.fromJson (v : Json) : Option RepositoryIdentity := do
  let m ← v.fieldsOf
    ["target", "base_branch", "base_commit", "head_repository", "head_branch", "head_commit"]
  some {
    target := ← field str? "target" m
    baseBranch := ← field str? "base_branch" m
    baseCommit := ← field str? "base_commit" m
    headRepository := ← field str? "head_repository" m
    headBranch := ← field str? "head_branch" m
    headCommit := ← field str? "head_commit" m }

def RepairProvenance.fromJson (v : Json) : Option RepairProvenance := do
  let m ← v.fieldsOf ["request_id", "result_id", "worker_source_commit"]
  some {
    requestId := ← field str? "request_id" m
    resultId := ← field str? "result_id" m
    workerSourceCommit := ← field str? "worker_source_commit" m }

def RepairEvidence.fromJson (v : Json) : Option RepairEvidence := do
  let m ← v.fieldsOf
    ["changed_files", "diff_sha256", "evidence_pack_sha256", "verification_sha256", "status",
      "provenance"]
  some {
    changedFiles := ← field (items? str?) "changed_files" m
    diffSha256 := ← field str? "diff_sha256" m
    evidencePackSha256 := ← field str? "evidence_pack_sha256" m
    verificationSha256 := ← field str? "verification_sha256" m
    status := ← field str? "status" m
    provenance := ← field RepairProvenance.fromJson "provenance" m }

def DraftText.fromJson (v : Json) : Option DraftText := do
  let m ← v.fieldsOf ["title", "body"]
  some { title := ← field str? "title" m, body := ← field str? "body" m }

def SafetyBoundary.fromJson (v : Json) : Option SafetyBoundary := do
  let m ← v.fieldsOf
    ["prompt_injection_detected", "security_sensitive", "policy_blocked", "issue_write",
      "ready_for_review", "review_approval", "merge", "release"]
  some {
    promptInjectionDetected := ← field bool? "prompt_injection_detected" m
    securitySensitive := ← field bool? "security_sensitive" m
    policyBlocked := ← field bool? "policy_blocked" m
    issueWrite := ← field bool? "issue_write" m
    readyForReview := ← field bool? "ready_for_review" m
    reviewApproval := ← field bool? "review_approval" m
    merge := ← field bool? "merge" m
    release := ← field bool? "release" m }

def DraftEvidence.fromJson (v : Json) : Option DraftEvidence := do
  let m ← v.fieldsOf ["schema_version", "issue", "repository", "repair", "draft", "safety"]
  some {
    schemaVersion := ← field str? "schema_version" m
    issue := ← field IssueIdentity.fromJson "issue" m
    repository := ← field RepositoryIdentity.fromJson "repository" m
    repair := ← field RepairEvidence.fromJson "repair" m
    draft := ← field DraftText.fromJson "draft" m
    safety := ← field SafetyBoundary.fromJson "safety" m }

def SupportBundleSubjectBinding.fromJson (v : Json) : Option SupportBundleSubjectBinding := do
  let m ← v.fieldsOf
    ["schema_version", "bundle_sha256", "problem_fingerprint", "workflow_identity",
      "failure_category", "failed_phase"]
  some {
    schemaVersion := ← field str? "schema_version" m
    bundleSha256 := ← field str? "bundle_sha256" m
    problemFingerprint := ← field str? "problem_fingerprint" m
    workflowIdentity := ← field str? "workflow_identity" m
    failureCategory := ← field str? "failure_category" m
    failedPhase := ← field str? "failed_phase" m }

def CommitPreconditions.fromJson (v : Json) : Option CommitPreconditions := do
  let m ← v.fieldsOf ["base_commit", "head_commit"]
  some { baseCommit := ← field str? "base_commit" m, headCommit := ← field str? "head_commit" m }

def DraftRequestBody.fromJson (v : Json) : Option DraftRequestBody := do
  let m ← v.fieldsOf ["title", "body", "head", "base", "draft", "preconditions"]
  some {
    title := ← field str? "title" m
    body := ← field str? "body" m
    head := ← field str? "head" m
    base := ← field str? "base" m
    draft := ← field bool? "draft" m
    preconditions := ← field CommitPreconditions.fromJson "preconditions" m }

def DraftRequest.fromJson (v : Json) : Option DraftRequest := do
  let m ← v.fieldsOf ["method", "path", "body"]
  some {
    method := ← field str? "method" m
    path := ← field str? "path" m
    body := ← field DraftRequestBody.fromJson "body" m }

def DraftSubject.fromJson (v : Json) : Option DraftSubject := do
  let m ← v.fieldsOf
    ["operation", "issue", "repository", "repair", "support_bundle", "request", "safety"]
  some {
    operation := ← field str? "operation" m
    issue := ← field IssueIdentity.fromJson "issue" m
    repository := ← field RepositoryIdentity.fromJson "repository" m
    repair := ← field RepairEvidence.fromJson "repair" m
    supportBundle := ← optionalField SupportBundleSubjectBinding.fromJson "support_bundle" m
    request := ← field DraftRequest.fromJson "request" m
    safety := ← field SafetyBoundary.fromJson "safety" m }

def DraftApproval.fromJson (v : Json) : Option DraftApproval := do
  let m ← v.fieldsOf ["algorithm", "action_digest"]
  some { algorithm := ← field str? "algorithm" m, actionDigest := ← field str? "action_digest" m }

def DraftAction.fromJson (v : Json) : Option DraftAction := do
  let m ← v.fieldsOf ["schema_version", "subject", "approval"]
  some {
    schemaVersion := ← field str? "schema_version" m
    subject := ← field DraftSubject.fromJson "subject" m
    approval := ← field DraftApproval.fromJson "approval" m }

/-! ### What is written, with the fields in their order -/

def IssueIdentity.document (i : IssueIdentity) : Json :=
  .obj [("canonical_url", .str i.canonicalUrl), ("number", .nat i.number),
    ("snapshot_sha256", .str i.snapshotSha256), ("classification", .str i.classification)]

def RepositoryIdentity.document (r : RepositoryIdentity) : Json :=
  .obj [("target", .str r.target), ("base_branch", .str r.baseBranch),
    ("base_commit", .str r.baseCommit), ("head_repository", .str r.headRepository),
    ("head_branch", .str r.headBranch), ("head_commit", .str r.headCommit)]

def RepairProvenance.document (p : RepairProvenance) : Json :=
  .obj [("request_id", .str p.requestId), ("result_id", .str p.resultId),
    ("worker_source_commit", .str p.workerSourceCommit)]

def RepairEvidence.document (r : RepairEvidence) : Json :=
  .obj [("changed_files", .strs r.changedFiles), ("diff_sha256", .str r.diffSha256),
    ("evidence_pack_sha256", .str r.evidencePackSha256),
    ("verification_sha256", .str r.verificationSha256), ("status", .str r.status),
    ("provenance", r.provenance.document)]

def SafetyBoundary.document (s : SafetyBoundary) : Json :=
  .obj [("prompt_injection_detected", .bool s.promptInjectionDetected),
    ("security_sensitive", .bool s.securitySensitive), ("policy_blocked", .bool s.policyBlocked),
    ("issue_write", .bool s.issueWrite), ("ready_for_review", .bool s.readyForReview),
    ("review_approval", .bool s.reviewApproval), ("merge", .bool s.merge),
    ("release", .bool s.release)]

def SupportBundleSubjectBinding.document (b : SupportBundleSubjectBinding) : Json :=
  .obj [("schema_version", .str b.schemaVersion), ("bundle_sha256", .str b.bundleSha256),
    ("problem_fingerprint", .str b.problemFingerprint),
    ("workflow_identity", .str b.workflowIdentity), ("failure_category", .str b.failureCategory),
    ("failed_phase", .str b.failedPhase)]

def CommitPreconditions.document (p : CommitPreconditions) : Json :=
  .obj [("base_commit", .str p.baseCommit), ("head_commit", .str p.headCommit)]

def DraftRequestBody.document (b : DraftRequestBody) : Json :=
  .obj [("title", .str b.title), ("body", .str b.body), ("head", .str b.head),
    ("base", .str b.base), ("draft", .bool b.draft), ("preconditions", b.preconditions.document)]

def DraftRequest.document (r : DraftRequest) : Json :=
  .obj [("method", .str r.method), ("path", .str r.path), ("body", r.body.document)]

def DraftSubject.document (s : DraftSubject) : Json :=
  .obj ([("operation", .str s.operation), ("issue", s.issue.document),
    ("repository", s.repository.document), ("repair", s.repair.document)] ++
    (match s.supportBundle with
      | some binding => [("support_bundle", binding.document)]
      | none => []) ++
    [("request", s.request.document), ("safety", s.safety.document)])

def DraftApproval.document (a : DraftApproval) : Json :=
  .obj [("algorithm", .str a.algorithm), ("action_digest", .str a.actionDigest)]

def DraftAction.document (a : DraftAction) : Json :=
  .obj [("schema_version", .str a.schemaVersion), ("subject", a.subject.document),
    ("approval", a.approval.document)]

/-! ### What is digested, with the fields by their names -/

def IssueIdentity.toJson (i : IssueIdentity) : Json :=
  .obj [("canonical_url", .str i.canonicalUrl), ("classification", .str i.classification),
    ("number", .nat i.number), ("snapshot_sha256", .str i.snapshotSha256)]

def RepositoryIdentity.toJson (r : RepositoryIdentity) : Json :=
  .obj [("base_branch", .str r.baseBranch), ("base_commit", .str r.baseCommit),
    ("head_branch", .str r.headBranch), ("head_commit", .str r.headCommit),
    ("head_repository", .str r.headRepository), ("target", .str r.target)]

def RepairProvenance.toJson (p : RepairProvenance) : Json :=
  .obj [("request_id", .str p.requestId), ("result_id", .str p.resultId),
    ("worker_source_commit", .str p.workerSourceCommit)]

def RepairEvidence.toJson (r : RepairEvidence) : Json :=
  .obj [("changed_files", .strs r.changedFiles), ("diff_sha256", .str r.diffSha256),
    ("evidence_pack_sha256", .str r.evidencePackSha256), ("provenance", r.provenance.toJson),
    ("status", .str r.status), ("verification_sha256", .str r.verificationSha256)]

def SafetyBoundary.toJson (s : SafetyBoundary) : Json :=
  .obj [("issue_write", .bool s.issueWrite), ("merge", .bool s.merge),
    ("policy_blocked", .bool s.policyBlocked),
    ("prompt_injection_detected", .bool s.promptInjectionDetected),
    ("ready_for_review", .bool s.readyForReview), ("release", .bool s.release),
    ("review_approval", .bool s.reviewApproval), ("security_sensitive", .bool s.securitySensitive)]

def SupportBundleSubjectBinding.toJson (b : SupportBundleSubjectBinding) : Json :=
  .obj [("bundle_sha256", .str b.bundleSha256), ("failed_phase", .str b.failedPhase),
    ("failure_category", .str b.failureCategory),
    ("problem_fingerprint", .str b.problemFingerprint), ("schema_version", .str b.schemaVersion),
    ("workflow_identity", .str b.workflowIdentity)]

def CommitPreconditions.toJson (p : CommitPreconditions) : Json :=
  .obj [("base_commit", .str p.baseCommit), ("head_commit", .str p.headCommit)]

def DraftRequestBody.toJson (b : DraftRequestBody) : Json :=
  .obj [("base", .str b.base), ("body", .str b.body), ("draft", .bool b.draft),
    ("head", .str b.head), ("preconditions", b.preconditions.toJson), ("title", .str b.title)]

def DraftRequest.toJson (r : DraftRequest) : Json :=
  .obj [("body", r.body.toJson), ("method", .str r.method), ("path", .str r.path)]

/-- A subject without a support bundle has no member for it. -/
def DraftSubject.toJson (s : DraftSubject) : Json :=
  .obj ([("issue", s.issue.toJson), ("operation", .str s.operation), ("repair", s.repair.toJson),
    ("repository", s.repository.toJson), ("request", s.request.toJson),
    ("safety", s.safety.toJson)] ++
    match s.supportBundle with
    | some binding => [("support_bundle", binding.toJson)]
    | none => [])

/-! ### Checks -/

def maxChangedFiles : ℕ := 100

def maxTitleBytes : ℕ := 256

def maxBodyBytes : ℕ := 8192

def evidenceFooterPrefix : String := "AO2-Evidence:"

def validateText (name value : String) (max : ℕ) : Except String Unit :=
  bailIf (isBlank value = true ∨ max < value.utf8ByteSize ∨
      (bytes value).any (fun c => c.toNat = 0 || c.toNat = 127) = true)
    (name ++ " must be non-empty and at most " ++ toString max ++ " bytes without control delimiters")

def validateIdentifier (name value : String) : Except String Unit :=
  bailIf (value = "" ∨ 128 < value.utf8ByteSize ∨
      (bytes value).all (fun c => isAsciiAlphanumeric c || c ∈ ['-', '_', '.', ':']) = false)
    (name ++ " must be a non-empty bounded identifier")

def validateRef (name value : String) : Except String Unit :=
  bailIf (value = "" ∨ 255 < value.utf8ByteSize ∨ value.toList.head? = some '/' ∨
      value.toList.getLast? = some '/' ∨ containsText value ".." = true ∨
      containsText value "@\x7b" = true ∨ (".lock".toList <:+ value.toList) ∨
      (bytes value).any refForbids = true)
    (name ++ " is not a bounded Git reference")

/-- A relative path that goes down by names only. A dot is a component where the path begins. -/
def validateChangedPath (value : String) : Except String Unit := do
  bailIf (value = "" ∨ 1024 < value.utf8ByteSize ∨ value.toList.contains '\\' = true ∨
      (bytes value).any (fun c => c.toNat < 32 || c.toNat = 127) = true)
    "changed_files contains an unsafe path"
  let parts := value.toList.splitOn '/'
  bailIf (value.toList.head? = some '/' ∨ parts.head? = some ['.'] ∨ ['.', '.'] ∈ parts ∨
      ".git".toList ∈ parts)
    "changed_files contains traversal or a control path"

def validateIssue (issue : IssueIdentity) (repository : RepositoryIdentity) : Except String Unit := do
  bailIf (issue.number = 0) "issue number must be positive"
  bailIf (issue.classification ≠ "authentic_bug") "issue classification must be authentic_bug"
  bailIf (isSha256 issue.snapshotSha256 = false)
    "issue snapshot_sha256 must be 64 lowercase hexadecimal characters"
  let (owner, repo) ← splitRepository repository.target
  bailIf (issue.canonicalUrl ≠
      "https://github.com/" ++ owner ++ "/" ++ repo ++ "/issues/" ++ toString issue.number)
    "issue canonical_url does not match repository and issue number"

def validateRepository (repository : RepositoryIdentity) : Except String Unit := do
  let _ ← splitRepository repository.target
  let _ ← splitRepository repository.headRepository
  bailIf (repository.target ≠ repository.headRepository)
    "head_repository must exactly match target for the bounded fixture"
  validateRef "base_branch" repository.baseBranch
  validateRef "head_branch" repository.headBranch
  bailIf (isCommit repository.baseCommit = false) "base_commit must be 40 lowercase hexadecimal characters"
  bailIf (isCommit repository.headCommit = false) "head_commit must be 40 lowercase hexadecimal characters"
  bailIf (repository.baseCommit = repository.headCommit) "base_commit and head_commit must differ"

/-- Paths in their order, after the one before them. -/
def validateChangedFiles : Option String → List String → Except String Unit
  | _, [] => .ok ()
  | previous, path :: rest => do
    validateChangedPath path
    bailIf (previous.any (path ≤ ·) = true) "changed_files must be sorted and unique"
    validateChangedFiles (some path) rest

def validateRepair (repair : RepairEvidence) : Except String Unit := do
  bailIf (repair.status ≠ "verified") "repair status must be verified"
  [("diff_sha256", repair.diffSha256), ("evidence_pack_sha256", repair.evidencePackSha256),
    ("verification_sha256", repair.verificationSha256)].forM fun (name, value) =>
      bailIf (isSha256 value = false) (name ++ " must be 64 lowercase hexadecimal characters")
  bailIf (repair.changedFiles = [] ∨ maxChangedFiles < repair.changedFiles.length)
    "changed_files must contain 1 to 100 paths"
  validateChangedFiles none repair.changedFiles
  validateIdentifier "request_id" repair.provenance.requestId
  validateIdentifier "result_id" repair.provenance.resultId
  bailIf (isCommit repair.provenance.workerSourceCommit = false)
    "worker_source_commit must be 40 lowercase hexadecimal characters"

def validateSafety (safety : SafetyBoundary) : Except String Unit :=
  [("prompt_injection_detected", safety.promptInjectionDetected),
    ("security_sensitive", safety.securitySensitive), ("policy_blocked", safety.policyBlocked),
    ("issue_write", safety.issueWrite), ("ready_for_review", safety.readyForReview),
    ("review_approval", safety.reviewApproval), ("merge", safety.merge),
    ("release", safety.release)].forM fun (name, isUnsafe) =>
      bailIf (isUnsafe = true) ("safety boundary " ++ name ++ " must be false")

/-! ### Texts -/

def evidenceFooter (issue : IssueIdentity) : String :=
  evidenceFooterPrefix ++ " issue_url=" ++ issue.canonicalUrl ++ " snapshot_sha256=" ++
    issue.snapshotSha256

def bindEvidenceFooter (body : String) (issue : IssueIdentity) : Except String String := do
  bailIf (containsText body evidenceFooterPrefix = true)
    "draft body must not supply its own AO2 evidence footer"
  let bound := body ++ "\n\n" ++ evidenceFooter issue
  validateText "body with evidence footer" bound maxBodyBytes
  .ok bound

/-- What is before the end of a text, if the text ends so. -/
def stripSuffix (ending text : List Char) : Option (List Char) :=
  if ending <:+ text then some (text.take (text.length - ending.length)) else none

def validateEvidenceFooter (body : String) (issue : IssueIdentity) : Except String Unit := do
  let unbound ← orContext (stripSuffix ("\n\n" ++ evidenceFooter issue).toList body.toList)
    "request body evidence footer is missing or does not match issue identity"
  bailIf (isBlank (.ofList unbound) = true ∨ containsText (.ofList unbound) evidenceFooterPrefix = true)
    "request body evidence footer is ambiguous"

def containsReservedSupportClaim (body : String) : Bool :=
  let normalized := toAsciiLowercase body
  containsText normalized "problem fingerprint:" || containsText normalized "bundle sha-256:"

def supportDraftText (binding : SupportBundleSubjectBinding) : DraftText where
  title := "AO2 troubleshooting: " ++ binding.failureCategory ++ " during " ++ binding.failedPhase
  body := "Sanitized AO2 troubleshooting bundle for " ++ binding.workflowIdentity ++
    ".\n\nProblem fingerprint: " ++ binding.problemFingerprint ++ "\nBundle SHA-256: " ++
    binding.bundleSha256

def pullsPath (owner repo : String) : String := "/repos/" ++ owner ++ "/" ++ repo ++ "/pulls"

/-! ### The action that is written -/

def subjectFromEvidence (evidence : DraftEvidence)
    (supportBundle : Option SupportBundleSubjectBinding) : Except String DraftSubject := do
  bailIf (evidence.schemaVersion ≠ "ao2.github-draft-pr-evidence.v1")
    "schema_version must be ao2.github-draft-pr-evidence.v1"
  validateIssue evidence.issue evidence.repository
  validateRepository evidence.repository
  validateRepair evidence.repair
  validateSafety evidence.safety
  validateText "title" evidence.draft.title maxTitleBytes
  validateText "body" evidence.draft.body maxBodyBytes
  let boundBody ← bindEvidenceFooter evidence.draft.body evidence.issue
  let (owner, repo) ← splitRepository evidence.repository.target
  .ok {
    operation := "open_feature_generated_draft_pr"
    issue := evidence.issue
    repository := evidence.repository
    repair := evidence.repair
    supportBundle := supportBundle
    request := {
      method := "POST"
      path := pullsPath owner repo
      body := {
        title := evidence.draft.title
        body := boundBody
        head := owner ++ ":" ++ evidence.repository.headBranch
        base := evidence.repository.baseBranch
        draft := true
        preconditions := ⟨evidence.repository.baseCommit, evidence.repository.headCommit⟩ } }
    safety := evidence.safety }

section

variable [Platform] [IssueLibrary]

/-- What evidence is bound to, if it comes with a bundle. -/
def supportBinding (evidence : DraftEvidence) :
    Option (Except String Octets) → Except String (Option SupportBundleSubjectBinding)
  | some bundle => do
    let binding ← Support.validateForGovernedIssue bundle
    bailIf (evidence.repair.evidencePackSha256 ≠ binding.bundleSha256)
      "draft evidence is not bound to the exact support bundle digest"
    let subjectBinding : SupportBundleSubjectBinding :=
      { schemaVersion := "ao2.github-draft-pr-support-binding.v0.1"
        bundleSha256 := binding.bundleSha256
        problemFingerprint := binding.problemFingerprint
        workflowIdentity := binding.workflowIdentity
        failureCategory := binding.failureCategory
        failedPhase := binding.failedPhase }
    bailIf (evidence.draft ≠ supportDraftText subjectBinding)
      "support bundle draft text must match the canonical privacy-safe template"
    .ok (some subjectBinding)
  | none => do
    bailIf (containsReservedSupportClaim evidence.draft.body = true)
      "draft body makes a reserved support-bundle claim without validated bundle input"
    .ok none

/-- The bytes of a document. -/
def toVecPretty (v : Json) : Octets := utf8Bytes (prettyJson v).toList

/-- The action for some evidence, and the bytes of the new file that it is written to. -/
def preview (evidenceFile : Except String Octets) (supportBundle : Option (Except String Octets)) :
    Except String (DraftAction × Octets) := do
  let evidence ← readBoundedJson DraftEvidence.fromJson evidenceFile
  let binding ← supportBinding evidence supportBundle
  let subject ← subjectFromEvidence evidence binding
  let action : DraftAction :=
    { schemaVersion := "ao2.github-draft-pr-action.v1"
      subject := subject
      approval := ⟨"sha256-ao2-canonical-v1", sha256Json subject.toJson⟩ }
  let file := toVecPretty action.document ++ [10]
  bailIf (maxInputBytes < file.length) "draft PR action exceeds the 65536-byte limit"
  .ok (action, file)

end

/-! ### The action that is read -/

/-- The support bundle of a subject, and its request. -/
def validateSupportBundle (subject : DraftSubject) : Except String Unit :=
  match subject.supportBundle with
  | some binding => do
    bailIf (binding.schemaVersion ≠ "ao2.github-draft-pr-support-binding.v0.1" ∨
        isSha256 binding.bundleSha256 = false ∨
        ¬ ("sha256:".toList <+: binding.problemFingerprint.toList ∧
          isSha256 (.ofList (binding.problemFingerprint.toList.drop 7)) = true) ∨
        subject.repair.evidencePackSha256 ≠ binding.bundleSha256)
      "support bundle subject binding is invalid"
    Support.validateGovernedIssueMetadata binding.workflowIdentity binding.failureCategory
      binding.failedPhase
    let expected := supportDraftText binding
    let expectedBoundBody ← bindEvidenceFooter expected.body subject.issue
    bailIf (subject.request.body.title ≠ expected.title ∨ subject.request.body.body ≠ expectedBoundBody)
      "support bundle draft request does not match its canonical binding"
  | none =>
    bailIf (containsReservedSupportClaim subject.request.body.body = true)
      "draft action makes a reserved support-bundle claim without typed binding"

def validateSubject (subject : DraftSubject) : Except String Unit := do
  bailIf (subject.operation ≠ "open_feature_generated_draft_pr")
    "operation must be open_feature_generated_draft_pr"
  validateIssue subject.issue subject.repository
  validateRepository subject.repository
  validateRepair subject.repair
  validateSafety subject.safety
  validateSupportBundle subject
  validateEvidenceFooter subject.request.body.body subject.issue
  let (owner, repo) ← splitRepository subject.repository.target
  bailIf (subject.request.method ≠ "POST" ∨ subject.request.path ≠ pullsPath owner repo)
    "request must be the exact repository pull creation POST"
  bailIf (subject.request.body.draft = false) "request body draft must be true"
  bailIf (subject.request.body.base ≠ subject.repository.baseBranch ∨
      subject.request.body.head ≠ owner ++ ":" ++ subject.repository.headBranch)
    "request body base/head identity does not match repository identity"
  bailIf (subject.request.body.preconditions.baseCommit ≠ subject.repository.baseCommit ∨
      subject.request.body.preconditions.headCommit ≠ subject.repository.headCommit)
    "request body commit preconditions do not match repository identity"
  validateText "title" subject.request.body.title maxTitleBytes
  validateText "body" subject.request.body.body maxBodyBytes

/-- **The action in a file**, if it is the one that is expected. -/
def loadAndVerifyAction [Platform] [IssueLibrary] (file : Except String Octets) (expected : String) :
    Except String DraftAction := do
  bailIf (isSha256 expected = false)
    "expected action digest must be 64 lowercase hexadecimal characters"
  let action ← readBoundedJson DraftAction.fromJson file
  bailIf (action.schemaVersion ≠ "ao2.github-draft-pr-action.v1")
    "action schema_version must be ao2.github-draft-pr-action.v1"
  bailIf (action.approval.algorithm ≠ "sha256-ao2-canonical-v1")
    "action digest algorithm must be sha256-ao2-canonical-v1"
  validateSubject action.subject
  let actual := sha256Json action.subject.toJson
  bailIf (action.approval.actionDigest ≠ actual) "action digest does not match the canonical subject"
  bailIf (expected ≠ actual) "expected action digest does not match the canonical subject"
  .ok action

/-- What is known of an action that was accepted. -/
theorem loadAndVerifyAction_eq_ok [Platform] [IssueLibrary] {file : Except String Octets}
    {expected : String} {action : DraftAction} (h : loadAndVerifyAction file expected = .ok action) :
    readBoundedJson DraftAction.fromJson file = .ok action ∧ validateSubject action.subject = .ok () ∧
      action.approval.actionDigest = expected ∧ sha256Json action.subject.toJson = expected := by
  rw [loadAndVerifyAction] at h
  obtain ⟨-, h⟩ := seq_eq_ok.mp h
  obtain ⟨action', hread, h⟩ := bind_eq_ok.mp h
  simp only [seq_eq_ok, bailIf_eq_ok, not_not, ne_eq] at h
  obtain ⟨-, -, hsubject, hdigest, hexpected, h⟩ := h
  obtain rfl := Except.ok.inj h
  exact ⟨hread, hsubject, hdigest.trans hexpected.symm, hexpected.symm⟩

/-- The path of a request that was accepted is that of the pull requests of the repository. -/
theorem path_of_validateSubject {subject : DraftSubject} (h : validateSubject subject = .ok ()) :
    ∃ owner repo, splitRepository subject.repository.target = .ok (owner, repo) ∧
      subject.request.path = pullsPath owner repo := by
  rw [validateSubject] at h
  simp only [seq_eq_ok] at h
  obtain ⟨-, -, -, -, -, -, -, h⟩ := h
  obtain ⟨⟨owner, repo⟩, hsplit, h⟩ := bind_eq_ok.mp h
  obtain ⟨hrequest, -⟩ := seq_eq_ok.mp h
  rw [bailIf_eq_ok, not_or, not_not, not_not] at hrequest
  exact ⟨owner, repo, hsplit, hrequest.2⟩

end Draft

end Issues

end Ao2
