import Ao2.Issues.Classification
import Mathlib.Data.List.Sort
import Mathlib.Data.String.Basic

/-!
# The discovery of an issue

The rows of some pages of issues are checked one by one, rows with the same number are put together,
and of what is left the issues that may be repaired are ranked. The first of them is selected; all
others are on a ledger with the reasons for it.
-/

namespace Ao2

namespace Issues

namespace Discovery

open Json

/-! ### Pages -/

structure SanitizedIssue where
  number : ℕ
  state : String
  updatedAt : String
  title : String
  body : String
  labels : List String
  classification : String
  reportedHeadSha : String
  fixPresentAtHead : Bool
  environmentAccessible : Bool
  securitySensitive : Bool
  targetInRepository : Bool
  noExistingFix : Bool
  publicReproductionFeasible : Bool
  deterministicLocalReproduction : Bool
  expectedBehaviorSource : String
  boundedPolicyCompatible : Bool
  deriving DecidableEq

structure IssuePage where
  page : ℕ
  issues : List SanitizedIssue

structure PageEnvelope where
  repository : String
  defaultBranch : String
  headSha : String
  pages : List IssuePage

def SanitizedIssue.toJson (i : SanitizedIssue) : Json :=
  .obj [("body", .str i.body), ("bounded_policy_compatible", .bool i.boundedPolicyCompatible),
    ("classification", .str i.classification),
    ("deterministic_local_reproduction", .bool i.deterministicLocalReproduction),
    ("environment_accessible", .bool i.environmentAccessible),
    ("expected_behavior_source", .str i.expectedBehaviorSource),
    ("fix_present_at_head", .bool i.fixPresentAtHead), ("labels", .strs i.labels),
    ("no_existing_fix", .bool i.noExistingFix), ("number", .nat i.number),
    ("public_reproduction_feasible", .bool i.publicReproductionFeasible),
    ("reported_head_sha", .str i.reportedHeadSha),
    ("security_sensitive", .bool i.securitySensitive), ("state", .str i.state),
    ("target_in_repository", .bool i.targetInRepository), ("title", .str i.title),
    ("updated_at", .str i.updatedAt)]

def IssuePage.toJson (p : IssuePage) : Json :=
  .obj [("issues", .arr (p.issues.map SanitizedIssue.toJson)), ("page", .nat p.page)]

/-! ### Texts -/

def maxPageCount : ℕ := 10

def maxRawRowCount : ℕ := 500

def maxSnapshotLimit : ℕ := 50

def maxCandidateLimit : ℕ := 10

def selectedLimit : ℕ := 1

def validateLimits (snapshotLimit candidateLimit : ℕ) : Except String Unit := do
  bailIf (¬ (1 ≤ snapshotLimit ∧ snapshotLimit ≤ maxSnapshotLimit)) "snapshot_limit must be 1..=50"
  bailIf (¬ (1 ≤ candidateLimit ∧ candidateLimit ≤ maxCandidateLimit))
    "candidate_limit must be 1..=10"

def isRepoPart (value : List Char) : Bool :=
  value ≠ [] && value ≠ ['.'] && value ≠ ['.', '.'] &&
    value.all fun c => isAsciiAlphanumeric c || c ∈ ['.', '_', '-']

def validateRepository (value : String) : Except String String := do
  let parts := value.toList.splitOn '/'
  bailIf (parts.length ≠ 2 ∨ parts.any (!isRepoPart ·) = true)
    "--repository must be OWNER/REPO using safe GitHub path characters"
  .ok value

def requiredText (flag value : String) (maxLen : ℕ) : Except String String := do
  bailIf (value = "" ∨ maxLen < value.utf8ByteSize ∨ value.toList.any isControl = true)
    (flag ++ " must be non-empty, bounded, and control-character free")
  .ok value

def validateSha (flag value : String) : Except String String := do
  bailIf (value.utf8ByteSize ≠ 40 ∨ value.toList.all isLowerHex = false)
    (flag ++ " must be a 40-character lowercase hexadecimal SHA")
  .ok value

def validateRunId (value : String) : Except String Unit :=
  bailIf (¬ (8 ≤ value.utf8ByteSize ∧ value.utf8ByteSize ≤ 128 ∧
      value.toList.zipIdx.all fun (c, index) =>
        isLowerAlphanumeric c || (0 < index && c = '-')))
    "--run-id must match [a-z0-9][a-z0-9-]\x7b7,127\x7d"

def beforeFirst (mark : Char) (text : List Char) : List Char := text.takeWhile (· ≠ mark)

/-- The page of the issues of a repository. -/
def canonicalizeIssueListUrl (input repository : String) : Except String String := do
  let start := "https://github.com/".toList
  bailIf (trim input ≠ input ∨ ¬ start <+: input.toList) "issue list URL must use https://github.com"
  let withoutQuery := beforeFirst '?' (beforeFirst '#' input.toList)
  let base := if withoutQuery.getLast? = some '/' then withoutQuery.dropLast else withoutQuery
  bailIf (¬ start <+: base) "issue list URL must use github.com"
  match (base.drop start.length).splitOn '/' with
  | [owner, name, surface] => do
    bailIf (surface ≠ "issues".toList ∨ [owner, name, surface].any (!isRepoPart ·) = true)
      "issue list URL must be an unambiguous repository issues surface"
    let urlRepository := String.ofList owner ++ "/" ++ String.ofList name
    bailIf (urlRepository ≠ repository) "issue list URL repository does not match --repository"
    .ok ("https://github.com/" ++ urlRepository ++ "/issues")
  | _ => .error "issue list URL must be an unambiguous repository issues surface"

def validateSanitizedText (field value : String) (maxLen : ℕ) : Except String Unit :=
  bailIf (value = "" ∨ maxLen < value.utf8ByteSize ∨ value.toList.any isControl = true ∨
      containsText value "[UNTRUSTED_INSTRUCTION_MARKER]" = true)
    (field ++ " is not a bounded sanitized value")

def classificationExclusion (value : String) : Except String String :=
  if value = "already_fixed" then .ok "already_fixed_current_head"
  else if value ∈ ["bug", "duplicate", "feature_request", "support_request", "security_sensitive",
      "untrusted_instruction", "inaccessible_environment", "stale_approval", "budget_exhausted"] then
    .ok value
  else .error "unsupported sanitized issue classification"

def validateClassification (value : String) : Except String Unit := do
  let _ ← classificationExclusion value

def validateExpectedBehaviorSource (value : String) : Except String Unit :=
  bailIf (value ∉ ["tests", "documentation", "protocol", "maintainer_statement", "unavailable"])
    "unsupported expected_behavior_source"

/-! ### Rows -/

structure IssueRecord where
  issue : SanitizedIssue
  contentDigest : String
  updatedAt : DateTime
  evidenceDigests : Finset String

/-- What is known of the issues while the rows are gone through: the records by their numbers, and
the numbers that there were twice. -/
structure Records where
  records : List IssueRecord
  duplicates : Finset ℕ

attribute [local instance] Classification.isTrans_text Classification.antisymm_text
  Classification.total_text in
def evidenceDigests (record : IssueRecord) : List String := record.evidenceDigests.sort (· ≤ ·)

/-- The record of two rows with the same number: the one with the lesser digest, with the evidence of
both. -/
def mergeRecords (existing record : IssueRecord) : IssueRecord :=
  { if record.contentDigest < existing.contentDigest then record else existing with
    evidenceDigests := existing.evidenceDigests ∪ record.evidenceDigests }

def putRecord (record : IssueRecord) (records : List IssueRecord) : List IssueRecord :=
  records.orderedInsert (fun a b => a.issue.number ≤ b.issue.number) record

/-- Put a row among the others. -/
def insertRecord (state : Records) (record : IssueRecord) : Records :=
  match state.records.find? (·.issue.number = record.issue.number) with
  | some existing =>
    { records := putRecord (mergeRecords existing record)
        (state.records.filter (·.issue.number ≠ record.issue.number))
      duplicates := insert record.issue.number state.duplicates }
  | none => { state with records := putRecord record state.records }

structure CandidateEligibility where
  openBug : Bool
  targetInRepository : Bool
  noExistingFix : Bool
  currentHeadUnfixed : Bool
  securitySensitive : Bool
  publicReproductionFeasible : Bool
  deterministicLocalReproduction : Bool
  expectedBehaviorGrounded : Bool
  boundedPolicyCompatible : Bool

def candidateEligibility (issue : SanitizedIssue) (headSha : String) : CandidateEligibility where
  openBug := issue.state = "open" && issue.classification = "bug"
  targetInRepository := issue.targetInRepository
  noExistingFix := issue.noExistingFix
  currentHeadUnfixed := issue.reportedHeadSha = headSha && issue.noExistingFix &&
    !issue.fixPresentAtHead
  securitySensitive := issue.securitySensitive
  publicReproductionFeasible := issue.publicReproductionFeasible
  deterministicLocalReproduction := issue.deterministicLocalReproduction
  expectedBehaviorGrounded := issue.expectedBehaviorSource ≠ "unavailable"
  boundedPolicyCompatible := issue.boundedPolicyCompatible

def CandidateEligibility.toJson (e : CandidateEligibility) : Json :=
  .obj [("bounded_policy_compatible", .bool e.boundedPolicyCompatible),
    ("current_head_unfixed", .bool e.currentHeadUnfixed),
    ("deterministic_local_reproduction", .bool e.deterministicLocalReproduction),
    ("expected_behavior_grounded", .bool e.expectedBehaviorGrounded),
    ("no_existing_fix", .bool e.noExistingFix), ("open_bug", .bool e.openBug),
    ("public_reproduction_feasible", .bool e.publicReproductionFeasible),
    ("security_sensitive", .bool e.securitySensitive),
    ("target_in_repository", .bool e.targetInRepository)]

def pushReason (reasons : List String) (reason : String) : List String :=
  if reason ∈ reasons then reasons else reasons ++ [reason]

/-- The reason that the classification of an issue is. -/
def classificationReasons (eligibility : CandidateEligibility) (issue : SanitizedIssue) :
    Except String (List String) :=
  if eligibility.openBug then .ok [] else (classificationExclusion issue.classification).map ([·])

/-- The reasons that the evidence on an issue may be, and whether they are. -/
def evidenceReasons (eligibility : CandidateEligibility) (issue : SanitizedIssue) (headSha : String) :
    List (Bool × String) :=
  [(!eligibility.targetInRepository, "target_outside_repository"),
    (!eligibility.noExistingFix, "existing_fix_present"),
    (!eligibility.currentHeadUnfixed,
      if issue.reportedHeadSha ≠ headSha then "reported_head_mismatch" else "current_head_fixed"),
    (eligibility.securitySensitive, "security_sensitive"),
    (!eligibility.publicReproductionFeasible, "public_reproduction_unavailable"),
    (!eligibility.deterministicLocalReproduction, "deterministic_local_reproduction_unavailable"),
    (!eligibility.expectedBehaviorGrounded, "expected_behavior_unavailable"),
    (!eligibility.boundedPolicyCompatible, "bounded_policy_incompatible")]

/-- Why an issue is not repaired, if it is not. -/
def exclusionReasonCodes (issue : SanitizedIssue) (headSha : String) :
    Except String (Option (List String)) := do
  let eligibility := candidateEligibility issue headSha
  let start ← classificationReasons eligibility issue
  let reasons := (evidenceReasons eligibility issue headSha).foldl
    (fun reasons (excluded, reason) => if excluded then pushReason reasons reason else reasons) start
  .ok (if reasons = [] then none else some reasons)

section

variable [Platform]

def validateTimestamp (flag value : String) : Except String DateTime :=
  orContext (parseRfc3339 value) (flag ++ " must be RFC3339")

/-- The date of a row that is well formed. -/
def validateRow (headSha : String) (completedAt : DateTime) (issue : SanitizedIssue) :
    Except String DateTime := do
  bailIf (issue.number = 0 ∨ issue.state ≠ "open")
    "sanitized rows must have a positive open issue number"
  validateSanitizedText "issue title" issue.title 512
  validateSanitizedText "issue body" issue.body 8192
  bailIf (20 < issue.labels.length) "sanitized issue labels exceed 20"
  issue.labels.forM fun label => validateSanitizedText "issue label" label 64
  let _ ← validateSha "reported_head_sha" issue.reportedHeadSha
  let updatedAt ← validateTimestamp "issue updated_at" issue.updatedAt
  bailIf (completedAt < updatedAt) "issue updated_at must not be after completed_at"
  bailIf (issue.fixPresentAtHead = issue.noExistingFix)
    "fix_present_at_head and no_existing_fix must be logical opposites"
  bailIf (decide (issue.classification = "already_fixed") ≠ issue.fixPresentAtHead)
    "already_fixed classification must match exact-current-head fix evidence"
  bailIf (issue.fixPresentAtHead = true ∧ issue.reportedHeadSha ≠ headSha)
    "already-fixed evidence must bind to the exact head_sha"
  bailIf (decide (issue.classification = "inaccessible_environment") = issue.environmentAccessible)
    "inaccessible_environment classification must match environment_accessible"
  bailIf (decide (issue.classification = "security_sensitive") ≠ issue.securitySensitive)
    "security_sensitive classification must match security_sensitive evidence"
  validateClassification issue.classification
  validateExpectedBehaviorSource issue.expectedBehaviorSource
  .ok updatedAt

def recordIssue (pageDigest headSha : String) (completedAt : DateTime) (issue : SanitizedIssue) :
    Except String IssueRecord := do
  let updatedAt ← validateRow headSha completedAt issue
  let contentDigest := sha256Json issue.toJson
  .ok {
    issue := issue
    contentDigest := contentDigest
    updatedAt := updatedAt
    evidenceDigests := {contentDigest, pageDigest} }

/-- The rows of some pages, which are numbered from a number on. -/
def recordPages (headSha : String) (completedAt : DateTime) :
    (index : ℕ) → List IssuePage → Except String (List IssueRecord)
  | _, [] => .ok []
  | index, page :: pages => do
    bailIf (page.page ≠ index + 1) "page numbers must be ordered exactly 1..=page_count"
    let rows ← page.issues.mapM (recordIssue (sha256Json page.toJson) headSha completedAt)
    .ok (rows ++ (← recordPages headSha completedAt (index + 1) pages))

/-! ### Candidates -/

structure CandidateDecision where
  runId : String
  repository : String
  baseSha : String
  issueNumber : ℕ
  rank : ℕ
  decision : String
  eligibility : CandidateEligibility
  reasonCodes : List String
  evidenceDigests : List String
  expectedBehaviorSource : String
  decidedAt : String

/-- A decision without its digest. -/
def CandidateDecision.toJson (d : CandidateDecision) : Json :=
  .obj [("base_sha", .str d.baseSha), ("decided_at", .str d.decidedAt), ("decision", .str d.decision),
    ("eligibility", d.eligibility.toJson), ("evidence_digests", .strs d.evidenceDigests),
    ("expected_behavior_source", .str d.expectedBehaviorSource), ("issue_number", .nat d.issueNumber),
    ("rank", .nat d.rank), ("reason_codes", .strs d.reasonCodes), ("repository", .str d.repository),
    ("run_id", .str d.runId),
    ("schema", .str "ao.architecture.autonomous-issue-repair.candidate-decision.v1")]

structure DiscoveryCandidate where
  issueNumber : ℕ
  rank : ℕ
  decisionDigest : String
  deriving DecidableEq

def candidateDecision (record : IssueRecord) (repository headSha runId : String) (rank : ℕ)
    (completedAt : String) : CandidateDecision where
  runId := runId
  repository := repository
  baseSha := headSha
  issueNumber := record.issue.number
  rank := rank
  decision := if rank = 1 then "selected" else "eligible"
  eligibility := candidateEligibility record.issue headSha
  reasonCodes := [if rank = 1 then "selected_rank_1" else "eligible_rank_" ++ toString rank]
  evidenceDigests := evidenceDigests record
  expectedBehaviorSource := record.issue.expectedBehaviorSource
  decidedAt := completedAt

/-- The order of the ranking: the latest first, and the lowest number where that is the same. -/
def Precedes (left right : IssueRecord) : Prop :=
  right.updatedAt < left.updatedAt ∨ left.updatedAt = right.updatedAt ∧
    (left.issue.number < right.issue.number ∨ left.issue.number = right.issue.number ∧
      left.contentDigest ≤ right.contentDigest)

instance : DecidableRel Precedes := fun _ _ => inferInstanceAs (Decidable (_ ∨ _))

/-! ### The discovery -/

structure DiscoveryIssue where
  number : ℕ
  state : String
  updatedAt : String
  contentDigest : String
  deriving DecidableEq

structure ExclusionLedgerEntry where
  issueNumber : ℕ
  reasonCodes : List String
  evidenceDigests : List String
  deriving DecidableEq

structure DiscoveryResult where
  schema : String
  runId : String
  repository : String
  defaultBranch : String
  headSha : String
  sourceUrl : String
  snapshotLimit : ℕ
  candidateLimit : ℕ
  selectedLimit : ℕ
  pageCount : ℕ
  responseDigests : List String
  issues : List DiscoveryIssue
  candidates : List DiscoveryCandidate
  selectedIssueNumber : Option ℕ
  exclusionLedger : List ExclusionLedgerEntry
  mutationPerformed : Bool
  completedAt : String
  deriving DecidableEq

/-- What a discovery is asked for. -/
structure DiscoveryRequest where
  url : String
  repository : String
  defaultBranch : String
  headSha : String
  runId : String
  completedAt : String
  snapshotLimit : ℕ
  candidateLimit : ℕ

/-- The records that may be repaired, and the reasons of those that may not. A reason that is put in
later counts. -/
def partitionRecords (duplicates : Finset ℕ) (headSha : String) :
    List IssueRecord → Except String (List IssueRecord × List (ℕ × List String))
  | [] => .ok ([], [])
  | record :: records => do
    if record.issue.number ∈ duplicates then
      let (eligible, exclusions) ← partitionRecords duplicates headSha records
      .ok (eligible, (record.issue.number, ["duplicate_issue_number"]) :: exclusions)
    else
      match ← exclusionReasonCodes record.issue headSha with
      | some reasonCodes =>
        let (eligible, exclusions) ← partitionRecords duplicates headSha records
        .ok (eligible, (record.issue.number, reasonCodes) :: exclusions)
      | none =>
        let (eligible, exclusions) ← partitionRecords duplicates headSha records
        .ok (record :: eligible, exclusions)

/-- The candidates by their ranks. -/
def rankCandidates (request : DiscoveryRequest) (selectedRecords : List IssueRecord) :
    List DiscoveryCandidate :=
  (selectedRecords.zipIdx 1).map fun (record, rank) =>
    { issueNumber := record.issue.number
      rank := rank
      decisionDigest := sha256Json (candidateDecision record request.repository request.headSha
        request.runId rank request.completedAt).toJson }

/-- The reasons of the records that are no candidates, and of the candidates but the first. -/
def excludeRanked (beyondLimit : List IssueRecord) (candidates : List DiscoveryCandidate)
    (exclusions : List (ℕ × List String)) : List (ℕ × List String) :=
  (candidates.drop selectedLimit).foldl
    (fun exclusions candidate =>
      (candidate.issueNumber, ["not_selected_rank_" ++ toString candidate.rank]) :: exclusions)
    (beyondLimit.foldl
      (fun exclusions record => (record.issue.number, ["candidate_limit_exceeded"]) :: exclusions)
      exclusions)

/-- A record on the ledger, unless it is the selected one. -/
def ledgerEntry (selectedIssueNumber : Option ℕ) (exclusions : List (ℕ × List String))
    (record : IssueRecord) : Option ExclusionLedgerEntry :=
  if some record.issue.number = selectedIssueNumber then none
  else some {
    issueNumber := record.issue.number
    reasonCodes := (exclusions.lookup record.issue.number).getD ["not_selected_candidate"]
    evidenceDigests := evidenceDigests record }

def exclusionLedger (records : List IssueRecord) (selectedIssueNumber : Option ℕ)
    (exclusions : List (ℕ × List String)) : List ExclusionLedgerEntry :=
  records.filterMap (ledgerEntry selectedIssueNumber exclusions)

/-- What is reported of records that have been told apart. -/
def discoveryResult (request : DiscoveryRequest) (sourceUrl : String) (responseDigests : List String)
    (records eligible : List IssueRecord) (exclusions : List (ℕ × List String)) : DiscoveryResult :=
  let ranked := eligible.insertionSort Precedes
  let candidates := rankCandidates request (ranked.take request.candidateLimit)
  let selectedIssueNumber := candidates.head?.map DiscoveryCandidate.issueNumber
  { schema := "ao.architecture.autonomous-issue-repair.discovery-result.v1"
    runId := request.runId
    repository := request.repository
    defaultBranch := request.defaultBranch
    headSha := request.headSha
    sourceUrl := sourceUrl
    snapshotLimit := request.snapshotLimit
    candidateLimit := request.candidateLimit
    selectedLimit := selectedLimit
    pageCount := responseDigests.length
    responseDigests := responseDigests
    issues := records.map fun record =>
      ⟨record.issue.number, "open", record.issue.updatedAt, record.contentDigest⟩
    candidates := candidates
    selectedIssueNumber := selectedIssueNumber
    exclusionLedger := exclusionLedger records selectedIssueNumber
      (excludeRanked (ranked.drop request.candidateLimit) candidates exclusions)
    mutationPerformed := false
    completedAt := request.completedAt }

/-- **The discovery**, from what is read of the envelope. -/
def discover (request : DiscoveryRequest) (readEnvelope : Except String PageEnvelope) :
    Except String DiscoveryResult := do
  validateLimits request.snapshotLimit request.candidateLimit
  let repository ← validateRepository request.repository
  let defaultBranch ← requiredText "--default-branch" request.defaultBranch 255
  let headSha ← validateSha "--head-sha" request.headSha
  validateRunId request.runId
  let completedAt ← validateTimestamp "--completed-at" request.completedAt
  let sourceUrl ← canonicalizeIssueListUrl request.url repository
  let envelope ← readEnvelope
  bailIf (envelope.repository ≠ repository ∨ envelope.defaultBranch ≠ defaultBranch ∨
      envelope.headSha ≠ headSha)
    "page envelope identity does not match command identity"
  bailIf (envelope.pages = [] ∨ maxPageCount < envelope.pages.length)
    "page envelope must contain 1..=10 pages"
  let pages := envelope.pages.insertionSort fun a b => a.page ≤ b.page
  let rows ← recordPages headSha completedAt 0 pages
  bailIf (maxRawRowCount < rows.length) "sanitized issue rows exceed raw row limit"
  let state := rows.foldl insertRecord ⟨[], ∅⟩
  bailIf (request.snapshotLimit < state.records.length)
    "unique sanitized issue rows exceed snapshot_limit"
  let (eligible, exclusions) ← partitionRecords state.duplicates headSha state.records
  .ok (discoveryResult request sourceUrl (pages.map fun page => sha256Json page.toJson) state.records
    eligible exclusions)

end

end Discovery

end Issues

end Ao2
