import Ao2.Publication.Contract

/-!
# Publication plans

A plan holds the two actions that a human approved, to push the branch to a fork and to open a draft,
the documents that the approval rests on, and the text of the draft. A plan is accepted if its parts
agree with each other and with the digests and the time that it is checked against.
-/

namespace Ao2

/-! ### Plans -/

/-- An action on the repository, as it was approved. -/
structure GitHubActionDigest where
  schema : String
  runId : String
  repository : String
  issueNumber : ℕ
  baseSha : String
  headSha : String
  fork : Option String
  branch : String
  prTitleDigest : String
  prBodyDigest : String
  diffDigest : String
  requiredChecks : List RequiredCheck
  action : String
  approvedAt : String
  expiresAt : String
  runEnvelopeDigest : String
  candidateDecisionDigest : String
  governanceDecisionDigest : String
  reviewerIndependenceDigest : String
  actionDigest : String
  deriving DecidableEq

def RequiredCheck.toJson (check : RequiredCheck) : Json :=
  .obj [("conclusion", .str check.conclusion), ("head_sha", .str check.headSha),
    ("name", .str check.name)]

def GitHubActionDigest.toJson (action : GitHubActionDigest) : Json :=
  .obj [("action", .str action.action), ("action_digest", .str action.actionDigest),
    ("approved_at", .str action.approvedAt), ("base_sha", .str action.baseSha),
    ("branch", .str action.branch),
    ("candidate_decision_digest", .str action.candidateDecisionDigest),
    ("diff_digest", .str action.diffDigest), ("expires_at", .str action.expiresAt),
    ("fork", .ofOption .str action.fork),
    ("governance_decision_digest", .str action.governanceDecisionDigest),
    ("head_sha", .str action.headSha), ("issue_number", .nat action.issueNumber),
    ("pr_body_digest", .str action.prBodyDigest), ("pr_title_digest", .str action.prTitleDigest),
    ("repository", .str action.repository),
    ("required_checks", .arr (action.requiredChecks.map RequiredCheck.toJson)),
    ("reviewer_independence_digest", .str action.reviewerIndependenceDigest),
    ("run_envelope_digest", .str action.runEnvelopeDigest), ("run_id", .str action.runId),
    ("schema", .str action.schema)]

/-- What two actions of one publication have in common. -/
def GitHubActionDigest.identity (action : GitHubActionDigest) : GitHubActionDigest :=
  { action with action := "", actionDigest := "", approvedAt := "", expiresAt := "" }

/-- The documents that an approval rests on, as they are decoded. -/
structure AuthorityBundle where
  runEnvelope : Json
  candidateDecision : Json
  governanceDecision : Json
  reviewerIndependence : Json
  ordered : ∀ document ∈ [runEnvelope, candidateDecision, governanceDecision, reviewerIndependence],
    document.ordered = true

structure DraftText where
  title : String
  body : String
  deriving DecidableEq

structure PublicationPlan where
  schemaVersion : String
  architectureContractCommit : String
  authority : AuthorityBundle
  pushAction : GitHubActionDigest
  draftAction : GitHubActionDigest
  draft : DraftText

def maxTitleBytes : ℕ := 256

def maxBodyBytes : ℕ := 8192

def architectureContractCommit : String := "8e6f247b800b60c520b4e967f7553974a20ec2f8"

def actionSchema : String := "ao.architecture.autonomous-issue-repair.github-action-digest.v1"

def publicationPlanSchema : String := "ao2.github-repair-publication-plan.v1"

section

variable [Platform]

def canonicalJsonSha256 (value : Json) : String := sha256Json value.canonicalize

/-! ### Actions -/

/-- The checks of an action: none twice, each one successful on its head. -/
def validateActionChecks (headSha : String) : List String → List RequiredCheck → Except String Unit
  | _, [] => .ok ()
  | seen, check :: checks => do
    validateText "required check name" check.name 256
    bailIf (check.conclusion ≠ "success" ∨ check.headSha ≠ headSha ∨ check.name ∈ seen)
      "GitHub action checks must be unique, successful, and bound to the exact head"
    validateActionChecks headSha (check.name :: seen) checks

/-- The approval of an action is there and has not run out. -/
def validateWindow (action : GitHubActionDigest) (now : DateTime) : Except String Unit := do
  let approved ← parseTime "GitHub action approved_at" action.approvedAt
  let expires ← parseTime "GitHub action expires_at" action.expiresAt
  bailIf (now < approved ∨ expires ≤ now ∨ expires ≤ approved ∨
      24 * 60 * 60 < secondsBetween approved expires)
    "GitHub action approval is future-dated, stale, reversed, or longer than 24 hours"

/-- The digest that the action is approved under is the one of what it says. -/
def validateActionDigest (action : GitHubActionDigest) (expectedDigest : String) :
    Except String Unit :=
  let actual := canonicalJsonSha256 (action.toJson.remove "action_digest")
  bailIf (actual ≠ action.actionDigest ∨ actual ≠ expectedDigest)
    "GitHub action digest does not match the canonical action or expected approval"

def validateAction (action : GitHubActionDigest) (expectedAction expectedDigest : String)
    (now : DateTime) : Except String Unit := do
  bailIf (action.schema ≠ actionSchema ∨ action.action ≠ expectedAction)
    "GitHub action schema or operation is invalid"
  validateIdentifier "run_id" action.runId
  discard (splitRepository action.repository)
  let fork ← orContext action.fork "operator-owned fork is required"
  let (forkOwner, forkRepo) ← splitRepository fork
  let (_, upstreamRepo) ← splitRepository action.repository
  bailIf (forkOwner = "" ∨ forkRepo ≠ upstreamRepo)
    "operator-owned fork must preserve the upstream repository name"
  bailIf (action.issueNumber = 0 ∨ !isCommit action.baseSha ∨ !isCommit action.headSha ∨
      action.baseSha = action.headSha)
    "GitHub action issue or commit identity is invalid"
  validateSchemaBranch action.branch
  validateRef action.branch
  [action.prTitleDigest, action.prBodyDigest, action.diffDigest, action.runEnvelopeDigest,
    action.candidateDecisionDigest, action.governanceDecisionDigest,
    action.reviewerIndependenceDigest, action.actionDigest].forM fun value =>
      bailIf (!isSha256 value) "GitHub action contains an invalid SHA-256 digest"
  bailIf (action.requiredChecks = [])
    "GitHub action requires nonempty successful exact-head checks"
  validateActionChecks action.headSha [] action.requiredChecks
  validateWindow action now
  validateActionDigest action expectedDigest

/-! ### Authority -/

/-- A document carries the digest of the rest of it. -/
def validateAuthorityDigest (value : Json) (schema digestField : String) : Except String Unit := do
  expectRead (jsonString value ["schema"]) schema "authority document schema is invalid"
  let expected ← jsonString value [digestField]
  bailIf (!value.isObject) "authority document must be a JSON object"
  bailIf (!isSha256 expected ∨ canonicalJsonSha256 (value.remove digestField) ≠ expected)
    "authority document canonical digest is invalid"

def validateFullAuthorityContracts (authority : AuthorityBundle) : Except String Unit := do
  let envelope ← orContext (decodeRunEnvelope authority.runEnvelope)
    "run envelope does not match the strict pinned Architecture schema"
  let candidate ← orContext (decodeCandidate authority.candidateDecision)
    "candidate decision does not match the strict pinned Architecture schema"
  let governance ← orContext (decodeGovernance authority.governanceDecision)
    "governance decision does not match the strict pinned Architecture schema"
  let reviewer ← orContext (decodeReviewer authority.reviewerIndependence)
    "reviewer decision does not match the strict pinned Architecture schema"
  validateEnvelopeContract envelope
  validateCandidateContract candidate
  validateGovernanceContract governance
  validateReviewerContract reviewer

/-- An action names the digests of the documents. -/
def validateDigestBinding (authority : AuthorityBundle) (action : GitHubActionDigest) :
    Except String Unit := do
  let drifted := "GitHub action does not bind the exact authority document digests"
  expectRead (jsonString authority.runEnvelope ["canonical_digest"]) action.runEnvelopeDigest
    drifted
  expectRead (jsonString authority.candidateDecision ["decision_digest"])
    action.candidateDecisionDigest drifted
  expectRead (jsonString authority.governanceDecision ["decision_digest"])
    action.governanceDecisionDigest drifted
  expectRead (jsonString authority.reviewerIndependence ["review_digest"])
    action.reviewerIndependenceDigest drifted

/-- The documents are about one run. -/
def validateRunBinding (authority : AuthorityBundle) (push : GitHubActionDigest) :
    Except String Unit := do
  let envelope ← jsonString authority.runEnvelope ["run_id"]
  let candidate ← jsonString authority.candidateDecision ["run_id"]
  let governance ← jsonString authority.governanceDecision ["run_id"]
  let reviewer ← jsonString authority.reviewerIndependence ["run_id"]
  bailIf ([envelope, candidate, governance, reviewer].any (· ≠ push.runId))
    "publication run_id does not match every authority document"

/-- The documents are about one repository and the selected issue. -/
def validateCandidateBinding (authority : AuthorityBundle) (push : GitHubActionDigest) :
    Except String Unit := do
  let drifted := "publication repository or selected candidate authority drifted"
  expectRead (jsonString authority.runEnvelope ["trigger", "repository"]) push.repository drifted
  expectRead (jsonString authority.candidateDecision ["repository"]) push.repository drifted
  expectRead (jsonString authority.governanceDecision ["repository"]) push.repository drifted
  expectRead (jsonU64 authority.candidateDecision ["issue_number"]) push.issueNumber drifted
  expectRead (jsonString authority.candidateDecision ["decision"]) "selected" drifted

/-- What an issue has to be so that its repair is published. -/
def requiredPredicates : List String :=
  ["open_bug", "target_in_repository", "no_existing_fix", "current_head_unfixed",
    "public_reproduction_feasible", "deterministic_local_reproduction",
    "expected_behavior_grounded", "bounded_policy_compatible"]

def validateEligibility (authority : AuthorityBundle) : Except String Unit := do
  requiredPredicates.forM fun field =>
    expectRead (jsonBool authority.candidateDecision ["eligibility", field]) true
      "selected candidate has a failing publication eligibility predicate"
  expectRead (jsonBool authority.candidateDecision ["eligibility", "security_sensitive"]) false
    "security-sensitive candidate cannot use this publication path"

/-- The documents are about one base and one head. -/
def validateCommitBinding (authority : AuthorityBundle) (push : GitHubActionDigest) :
    Except String Unit := do
  [["trigger", "pinned_base_commit"], ["routing", "pinned_base_commit"]].forM fun path =>
    expectRead (jsonString authority.runEnvelope path) push.baseSha
      "publication base SHA does not match the run envelope"
  let drifted := "publication commit authority drifted"
  expectRead (jsonString authority.candidateDecision ["base_sha"]) push.baseSha drifted
  expectRead (jsonString authority.governanceDecision ["base_sha"]) push.baseSha drifted
  expectRead (jsonString authority.governanceDecision ["head_sha"]) push.headSha drifted

/-- The fork and the branch are those of the envelope. -/
def validateForkBinding (authority : AuthorityBundle) (push : GitHubActionDigest) :
    Except String Unit := do
  let triggerBranch ← jsonString authority.runEnvelope ["trigger", "default_branch"]
  let routingBranch ← jsonString authority.runEnvelope ["routing", "default_branch"]
  bailIf (triggerBranch ≠ routingBranch) "run envelope default branch fields disagree"
  let forkOwner ← jsonString authority.runEnvelope ["routing", "fork_owner"]
  let (_, repositoryName) ← splitRepository push.repository
  let drifted := "publication fork or branch does not match the run envelope"
  bailIf (push.fork ≠ some (forkOwner ++ "/" ++ repositoryName)) drifted
  expectRead (jsonString authority.runEnvelope ["routing", "repair_branch"]) push.branch drifted

/-- What the envelope of a publication has to rule out. -/
def requiredDenials : List String :=
  ["push_upstream", "open_ready_pr", "mark_ready", "approve_review", "merge", "mutate_issue",
    "publish_release"]

/-- The envelope allows the two actions, and nothing beyond a draft from a fork. -/
def validateBoundaries (authority : AuthorityBundle) : Except String Unit := do
  let allowed ← jsonStrings authority.runEnvelope ["governance", "allowed_actions"]
  let denied ← jsonStrings authority.runEnvelope ["governance", "denied_actions"]
  let weakened := "run envelope does not preserve fork-only draft publication boundaries"
  bailIf ("push_operator_fork" ∉ allowed ∨ "open_upstream_draft_pr" ∉ allowed ∨
      requiredDenials.any (· ∉ denied)) weakened
  expectRead (jsonBool authority.runEnvelope ["governance", "sole_control_auto_merge_opt_in"])
    false weakened

/-- The governance decision demands a draft from a fork. -/
def validateGovernance (authority : AuthorityBundle) : Except String Unit := do
  let ownershipClass ← jsonString authority.runEnvelope ["governance", "ownership_class"]
  expectRead (jsonString authority.governanceDecision ["governance_class"]) ownershipClass
    "governance class does not match the run envelope"
  let weakened := "governance authority does not require fork-only draft publication"
  let governance := authority.governanceDecision
  expectRead (jsonString governance ["push_target"]) "operator_owned_fork" weakened
  expectRead (jsonString governance ["pull_request_mode"]) "upstream_draft_only" weakened
  expectRead (jsonBool governance ["merge", "authorized"]) false weakened
  expectRead (jsonString governance ["merge", "mode"]) "never" weakened
  expectRead (jsonBool governance ["merge", "branch_protection_bypassed"]) false weakened
  expectRead (jsonBool governance ["action_digest_required"]) true weakened

/-- The documents and the two actions name the same checks. -/
def validateCheckBinding (authority : AuthorityBundle) (push draft : GitHubActionDigest) :
    Except String Unit := do
  let expectedChecks ← jsonStrings authority.runEnvelope ["routing", "required_checks"]
  let items ← orContext (← jsonAt authority.governanceDecision ["required_checks"]).arr?
    "authority checks must be an array"
  let governanceChecks ← jsonChecks authority.governanceDecision ["required_checks"]
  let actionChecks : Finset String := (push.requiredChecks.map RequiredCheck.name).toFinset
  bailIf (expectedChecks ≠ actionChecks ∨ governanceChecks ≠ actionChecks ∨
      items.length ≠ actionChecks.card ∨ draft.requiredChecks ≠ push.requiredChecks)
    "authority documents do not bind the exact successful checks"

/-- An independent review is about the approved difference. -/
def validateReviewBinding (authority : AuthorityBundle) (push : GitHubActionDigest) :
    Except String Unit := do
  let drifted := "independent review authority does not bind the exact diff"
  expectRead (jsonString authority.reviewerIndependence ["subject_digest"]) push.diffDigest drifted
  expectRead (jsonString authority.reviewerIndependence ["status"]) "independent" drifted
  expectRead (jsonBool authority.reviewerIndependence ["deterministic_tests_primary"]) true drifted

/-- A time that a document holds. -/
def documentTime (name : String) (value : Json) (field : String) : Except String DateTime := do
  parseTime name (← jsonString value [field])

/-- The envelope comes before the decisions, and they before the approvals, which the envelope
outlives. -/
def validateTimes (authority : AuthorityBundle) (push draft : GitHubActionDigest) :
    Except String Unit := do
  let created ← documentTime "run envelope created_at" authority.runEnvelope "created_at"
  let evidenceTimes ← [(authority.candidateDecision, "decided_at"),
    (authority.governanceDecision, "decided_at"),
    (authority.reviewerIndependence, "reviewed_at")].mapM fun (document, field) =>
      documentTime field document field
  bailIf (evidenceTimes.any (· < created)) "authority decision predates run envelope creation"
  [push, draft].forM fun action => do
    let approved ← parseTime "approved_at" action.approvedAt
    bailIf (approved < created ∨ evidenceTimes.any (approved < ·))
      "publication approval predates its run envelope or an authority decision"
  let expiry ← documentTime "run envelope expires_at" authority.runEnvelope "expires_at"
  let outlives := "publication action outlives its run envelope"
  bailIf (expiry < (← parseTime "action expires_at" push.expiresAt)) outlives
  bailIf (expiry < (← parseTime "draft expires_at" draft.expiresAt)) outlives

def validateAuthority (plan : PublicationPlan) : Except String Unit := do
  let authority := plan.authority
  let push := plan.pushAction
  validateAuthorityDigest authority.runEnvelope runEnvelopeSchema "canonical_digest"
  validateAuthorityDigest authority.candidateDecision candidateSchema "decision_digest"
  validateAuthorityDigest authority.governanceDecision governanceSchema "decision_digest"
  validateAuthorityDigest authority.reviewerIndependence reviewerSchema "review_digest"
  validateFullAuthorityContracts authority
  [plan.pushAction, plan.draftAction].forM (validateDigestBinding authority)
  validateRunBinding authority push
  validateCandidateBinding authority push
  validateEligibility authority
  validateCommitBinding authority push
  validateForkBinding authority push
  validateBoundaries authority
  validateGovernance authority
  validateCheckBinding authority push plan.draftAction
  validateReviewBinding authority push
  validateTimes authority push plan.draftAction

/-! ### Plans -/

def validatePlan (plan : PublicationPlan) (expectedPush expectedDraft : String) (now : DateTime) :
    Except String Unit := do
  bailIf (!isSha256 expectedPush ∨ !isSha256 expectedDraft)
    "expected action digests must be 64 lowercase hexadecimal characters"
  bailIf (plan.schemaVersion ≠ publicationPlanSchema)
    "publication plan schema_version is invalid"
  bailIf (plan.architectureContractCommit ≠ architectureContractCommit)
    "publication plan Architecture contract commit is not the exact supported producer"
  validateAuthority plan
  validateAction plan.pushAction "push_operator_fork" expectedPush now
  validateAction plan.draftAction "open_upstream_draft_pr" expectedDraft now
  bailIf (plan.pushAction.actionDigest = plan.draftAction.actionDigest)
    "push and draft actions must have distinct exact digests"
  bailIf (plan.pushAction.identity ≠ plan.draftAction.identity)
    "push and draft actions do not bind the same publication identity"
  validateText "draft title" plan.draft.title maxTitleBytes
  validateText "draft body" plan.draft.body maxBodyBytes
  bailIf (sha256Text plan.draft.title ≠ plan.pushAction.prTitleDigest ∨
      sha256Text plan.draft.body ≠ plan.pushAction.prBodyDigest)
    "draft title or body does not match the exact action digest binding"

end

end Ao2
