import Ao2.Checks
import Ao2.Json.Ordered
import Ao2.Policy
import Mathlib.Data.Finset.Card
import Mathlib.Data.Finset.Dedup

/-!
# Checks and identities

The checks of a publication stop at the first thing that is wrong, with a message. They are programs
in `Except String` here, and `bailIf` is the only way in which they stop on their own account.

The identities that a plan consists of (repositories, references, commits, digests, texts) are texts
of bounded shapes.

The four documents that a publication rests on — the run envelope, the candidate decision, the
governance decision and the reviewer's — are read twice: field by field out of the JSON value, and as
a whole against a strict contract, which knows every field and refuses any other.

## Main results

* `bailIf_eq_ok`, `orContext_eq_ok`, `expectRead_eq_ok` — what is known of a check that did not stop
-/

namespace Ao2

/-! ### Checks -/

/-- Stop with a message if a condition holds. -/
def bailIf (c : Prop) [Decidable c] (message : String) : Except String Unit :=
  if c then .error message else .ok ()

/-- A value that has to be there. -/
def orContext {α : Type} (value : Option α) (message : String) : Except String α :=
  match value with
  | some a => .ok a
  | none => .error message

/-- Stop with a message unless a value that is read is the expected one. -/
def expectRead {α : Type} [DecidableEq α] (read : Except String α) (expected : α)
    (message : String) : Except String Unit := do
  let value ← read
  bailIf (value ≠ expected) message

section

variable {ε α β : Type}

@[simp] theorem bailIf_eq_ok {c : Prop} [Decidable c] {message : String} {u : Unit} :
    bailIf c message = .ok u ↔ ¬ c := by
  unfold bailIf
  split <;> simp_all

@[simp] theorem orContext_eq_ok {value : Option α} {message : String} {a : α} :
    orContext value message = .ok a ↔ value = some a := by
  unfold orContext
  split <;> simp_all

@[simp] theorem expectRead_eq_ok [DecidableEq α] {read : Except String α} {expected : α}
    {message : String} {u : Unit} :
    expectRead read expected message = .ok u ↔ read = .ok expected := by
  simp [expectRead]

end

/-! ### Characters -/

def isAsciiAlphanumeric (c : Char) : Bool := c.isAlphanum

/-- A digit of a digest. -/
def isLowerHex (c : Char) : Bool := c.isDigit || ('a' ≤ c && c ≤ 'f')

/-- The bytes of a text, each as the character that has its code. -/
def bytes (s : String) : List Char := s.toByteArray.data.toList.map fun byte => .ofNat byte.toNat

/-! ### Identities -/

def isCommit (value : String) : Bool := value.utf8ByteSize = 40 && (bytes value).all isLowerHex

def isSha256 (value : String) : Bool := value.utf8ByteSize = 64 && (bytes value).all isLowerHex

/-- A name of an owner or of a repository. -/
def validSlug (value : String) : Bool :=
  value ≠ "" && value.utf8ByteSize ≤ 100 &&
    (bytes value).all (fun c => isAsciiAlphanumeric c || c ∈ ['-', '_', '.']) && value ≠ "." &&
    value ≠ ".."

/-- The owner and the name of a repository. -/
def splitRepository (value : String) : Except String (String × String) :=
  match value.toList.splitOn '/' with
  | [owner, repo] =>
    if validSlug (.ofList owner) && validSlug (.ofList repo) then .ok (.ofList owner, .ofList repo)
    else .error "repository identity must be owner/repo using bounded GitHub slug characters"
  | _ => .error "repository identity must be owner/repo using bounded GitHub slug characters"

/-- A character that no reference contains. -/
def refForbids (c : Char) : Bool :=
  c.toNat < 32 || c.toNat = 127 || c ∈ [' ', '~', '^', ':', '?', '*', '[', '\\']

def validateRef (value : String) : Except String Unit :=
  bailIf (value = "" ∨ 255 < value.utf8ByteSize ∨ value.toList.head? = some '/' ∨
      value.toList.getLast? = some '/' ∨ containsText value ".." = true ∨
      containsText value "@\x7b" = true ∨ (".lock".toList <:+ value.toList) ∨
      (bytes value).any refForbids = true)
    "repair branch is not a bounded Git reference"

def validateSchemaBranch (value : String) : Except String Unit :=
  bailIf (value = "" ∨ 255 < value.utf8ByteSize ∨
      (bytes value).all (fun c => isAsciiAlphanumeric c || c ∈ ['.', '_', '/', '-']) = false)
    "branch does not match the pinned Architecture pattern"

def validateIdentifier (name value : String) : Except String Unit :=
  bailIf (value = "" ∨ 128 < value.utf8ByteSize ∨
      (bytes value).all (fun c => isAsciiAlphanumeric c || c ∈ ['-', '_', '.', ':']) = false)
    (name ++ " must be a bounded identifier")

def validateText (name value : String) (max : ℕ) : Except String Unit :=
  bailIf (isBlank value = true ∨ max < value.utf8ByteSize ∨
      (bytes value).any (fun c => c.toNat = 0 || c.toNat = 127) = true)
    (name ++ " must be nonempty and at most " ++ toString max ++
      " bytes without control delimiters")

def validateOneOf (name value : String) (allowed : List String) : Except String Unit :=
  bailIf (value ∉ allowed) (name ++ " is outside the pinned Architecture enum")

/-- A character of a run identifier, apart from the hyphen. -/
def isLowerAlphanumeric (c : Char) : Bool := c.isLower || c.isDigit

def validateRunId (name value : String) : Except String Unit :=
  bailIf (value.utf8ByteSize < 8 ∨ 128 < value.utf8ByteSize ∨
      ((bytes value).head?.any isLowerAlphanumeric) = false ∨
      ((bytes value).tail.all fun c => isLowerAlphanumeric c || c = '-') = false)
    (name ++ " does not match the pinned Architecture identifier pattern")

/-- The texts of a list: none twice, and each one allowed if the list says which are. -/
def validateStringArray (name : String) (values : List String) (minItems maxLength : ℕ)
    (allowed : List String) : Except String Unit := do
  bailIf (values.length < minItems) (name ++ " has too few entries")
  go [] values
where
  go : List String → List String → Except String Unit
    | _, [] => .ok ()
    | seen, value :: values => do
      validateText name value maxLength
      bailIf (value ∈ seen ∨ (allowed ≠ [] ∧ value ∉ allowed))
        (name ++ " contains a duplicate or unsupported entry")
      go (value :: seen) values

/-! ### What the checks say -/

theorem splitRepository_eq_ok {value owner repo : String}
    (h : splitRepository value = .ok (owner, repo)) :
    value = owner ++ "/" ++ repo ∧ validSlug owner = true ∧ validSlug repo = true := by
  unfold splitRepository at h
  split at h
  case h_2 => cases h
  case h_1 o r hsplit =>
    split at h
    case isFalse => cases h
    case isTrue hvalid =>
      cases h
      rw [Bool.and_eq_true] at hvalid
      have hjoin : ['/'].intercalate (value.toList.splitOn '/') = value.toList :=
        List.intercalate_splitOn '/'
      rw [hsplit] at hjoin
      refine ⟨?_, hvalid⟩
      rw [← String.toList_inj, ← hjoin]
      simp [List.intercalate]

theorem validateStringArray.go_nodup {name : String} {maxLength : ℕ} {allowed seen values : List String}
    (h : validateStringArray.go name maxLength allowed seen values = .ok ()) :
    values.Nodup ∧ ∀ value ∈ values, value ∉ seen := by
  induction values generalizing seen with
  | nil => simp
  | cons value values ih =>
    simp only [validateStringArray.go, bind_eq_ok, bailIf_eq_ok, not_or] at h
    obtain ⟨_, _, _, ⟨hseen, _⟩, hrest⟩ := h
    obtain ⟨hnodup, hnot⟩ := ih hrest
    refine ⟨List.nodup_cons.mpr ⟨fun hmem => hnot value hmem List.mem_cons_self, hnodup⟩, ?_⟩
    intro v hv
    rcases List.mem_cons.mp hv with rfl | hv
    · exact hseen
    · exact fun hmem => hnot v hv (List.mem_cons_of_mem _ hmem)

/-- The texts of a list that was accepted are different. -/
theorem validateStringArray_nodup {name : String} {values : List String} {minItems maxLength : ℕ}
    {allowed : List String}
    (h : validateStringArray name values minItems maxLength allowed = .ok ()) : values.Nodup := by
  simp only [validateStringArray, bind_eq_ok] at h
  obtain ⟨_, _, h⟩ := h
  exact (validateStringArray.go_nodup h).1

end Ao2

/-! ## The authority contracts -/

namespace Ao2

/-! ### Fields of a document -/

namespace Json

/-- A number that fits an unsigned 64-bit integer. -/
def u64? : Json → Option ℕ
  | .num n => if 0 ≤ n ∧ n ≤ 18446744073709551615 then some n.toNat else none
  | _ => none

/-- The texts of an array of texts. -/
def strs? (value : Json) : Option (List String) := value.arr?.bind fun items => items.mapM str?

def isNull : Json → Bool
  | .null => true
  | _ => false

end Json

def jsonAt : Json → List String → Except String Json
  | value, [] => .ok value
  | value, key :: path => do
    let current ← orContext (value.get? key) "authority document field is missing"
    jsonAt current path

def jsonString (value : Json) (path : List String) : Except String String := do
  orContext (← jsonAt value path).str? "authority document field must be a string"

def jsonBool (value : Json) (path : List String) : Except String Bool := do
  orContext (← jsonAt value path).bool? "authority document field must be a boolean"

def jsonU64 (value : Json) (path : List String) : Except String ℕ := do
  orContext (← jsonAt value path).u64? "authority document field must be an unsigned integer"

/-- The set of the texts in an array. -/
def jsonStrings (value : Json) (path : List String) : Except String (Finset String) := do
  let items ← orContext (← jsonAt value path).arr? "authority document field must be an array"
  let texts ← items.mapM fun item =>
    orContext item.str? "authority array entry must be a string"
  pure texts.toFinset

/-- The set of the names in an array of checks that are successful on the head of the document. -/
def jsonChecks (value : Json) (path : List String) : Except String (Finset String) := do
  let items ← orContext (← jsonAt value path).arr? "authority checks must be an array"
  let names ← items.mapM fun check => do
    let conclusion ← jsonString check ["conclusion"]
    bailIf (conclusion ≠ "success") "authority check is failed or bound to another head"
    let checkHead ← jsonString check ["head_sha"]
    let head ← jsonString value ["head_sha"]
    bailIf (checkHead ≠ head) "authority check is failed or bound to another head"
    jsonString check ["name"]
  pure names.toFinset

/-! ### Strict records -/

/-- The fields of a record in their order: from an object that has these members and no other, or
from an array of as many values. -/
def structFields (names : List String) : Json → Option (List Json)
  | .obj members =>
    if members.all (fun m => m.1 ∈ names) then names.mapM fun name => members.lookup name else none
  | .arr items => if items.length = names.length then some items else none
  | _ => none

/-- An array of records. -/
def records {α : Type} (decode : Json → Option α) (value : Json) : Option (List α) :=
  value.arr?.bind fun items => items.mapM decode

structure RequiredCheck where
  name : String
  conclusion : String
  headSha : String
  deriving DecidableEq

def decodeRequiredCheck (value : Json) : Option RequiredCheck := do
  let [name, conclusion, headSha] ← structFields ["name", "conclusion", "head_sha"] value | none
  pure ⟨← name.str?, ← conclusion.str?, ← headSha.str?⟩

structure LoopContract where
  goal : String
  trigger : String
  discovery : String
  action : String
  verification : String
  state : String
  humanGates : String

def decodeLoop (value : Json) : Option LoopContract := do
  let [goal, trigger, discovery, action, verification, state, humanGates] ← structFields
    ["goal", "trigger", "discovery", "action", "verification", "state", "human_gates"] value | none
  pure ⟨← goal.str?, ← trigger.str?, ← discovery.str?, ← action.str?, ← verification.str?,
    ← state.str?, ← humanGates.str?⟩

structure TriggerContract where
  mode : String
  canonicalUrl : String
  repository : String
  defaultBranch : String
  pinnedBaseCommit : String

def decodeTrigger (value : Json) : Option TriggerContract := do
  let [mode, url, repository, defaultBranch, pinnedBaseCommit] ← structFields
    ["mode", "canonical_url", "repository", "default_branch", "pinned_base_commit"] value | none
  pure ⟨← mode.str?, ← url.str?, ← repository.str?, ← defaultBranch.str?, ← pinnedBaseCommit.str?⟩

structure DiscoveryContract where
  snapshotLimit : ℕ
  candidateLimit : ℕ
  selectedLimit : ℕ

def decodeDiscovery (value : Json) : Option DiscoveryContract := do
  let [snapshot, candidate, selected] ← structFields
    ["snapshot_limit", "candidate_limit", "selected_limit"] value | none
  pure ⟨← snapshot.u64?, ← candidate.u64?, ← selected.u64?⟩

structure BudgetContract where
  wallClockSeconds : ℕ
  cloneCount : ℕ
  testRuns : ℕ
  retryCount : ℕ
  repairCount : ℕ
  publicationCount : ℕ

def decodeBudgets (value : Json) : Option BudgetContract := do
  let [wallClock, clones, tests, retries, repairs, publications] ← structFields
    ["wall_clock_seconds", "clone_count", "test_runs", "retry_count", "repair_count",
      "publication_count"] value | none
  pure ⟨← wallClock.u64?, ← clones.u64?, ← tests.u64?, ← retries.u64?, ← repairs.u64?,
    ← publications.u64?⟩

structure EnvelopeGovernanceContract where
  ownershipClass : String
  allowedActions : List String
  deniedActions : List String
  soleControlAutoMergeOptIn : Bool

def decodeEnvelopeGovernance (value : Json) : Option EnvelopeGovernanceContract := do
  let [ownership, allowed, denied, optIn] ← structFields
    ["ownership_class", "allowed_actions", "denied_actions", "sole_control_auto_merge_opt_in"]
    value | none
  pure ⟨← ownership.str?, ← allowed.strs?, ← denied.strs?, ← optIn.bool?⟩

structure RoutingContract where
  defaultBranch : String
  pinnedBaseCommit : String
  forkOwner : Json
  repairBranch : String
  protectedPathClasses : List String
  requiredChecks : List String

def decodeRouting (value : Json) : Option RoutingContract := do
  let [defaultBranch, pinnedBaseCommit, forkOwner, repairBranch, protectedClasses, checks] ←
    structFields ["default_branch", "pinned_base_commit", "fork_owner", "repair_branch",
      "protected_path_classes", "required_checks"] value | none
  pure ⟨← defaultBranch.str?, ← pinnedBaseCommit.str?, forkOwner, ← repairBranch.str?,
    ← protectedClasses.strs?, ← checks.strs?⟩

structure LineageContract where
  kind : String
  predecessorRunId : Json
  predecessorDigest : Json

def decodeLineage (value : Json) : Option LineageContract := do
  let [kind, runId, digest] ← structFields
    ["kind", "predecessor_run_id", "predecessor_digest"] value | none
  pure ⟨← kind.str?, runId, digest⟩

structure RunEnvelopeContract where
  schema : String
  runId : String
  loop : LoopContract
  trigger : TriggerContract
  discovery : DiscoveryContract
  budgets : BudgetContract
  governance : EnvelopeGovernanceContract
  routing : RoutingContract
  createdAt : String
  expiresAt : String
  canonicalDigest : String
  predecessorDigest : Json
  lineage : LineageContract
  stopConditions : List String
  terminalStatuses : List String

def decodeRunEnvelope (value : Json) : Option RunEnvelopeContract := do
  let [schema, runId, loop, trigger, discovery, budgets, governance, routing, createdAt, expiresAt,
      digest, predecessor, lineage, stops, terminals] ← structFields
    ["schema", "run_id", "loop", "trigger", "discovery", "budgets", "governance", "routing",
      "created_at", "expires_at", "canonical_digest", "predecessor_digest", "lineage",
      "stop_conditions", "terminal_statuses"] value | none
  pure {
    schema := ← schema.str?
    runId := ← runId.str?
    loop := ← decodeLoop loop
    trigger := ← decodeTrigger trigger
    discovery := ← decodeDiscovery discovery
    budgets := ← decodeBudgets budgets
    governance := ← decodeEnvelopeGovernance governance
    routing := ← decodeRouting routing
    createdAt := ← createdAt.str?
    expiresAt := ← expiresAt.str?
    canonicalDigest := ← digest.str?
    predecessorDigest := predecessor
    lineage := ← decodeLineage lineage
    stopConditions := ← stops.strs?
    terminalStatuses := ← terminals.strs? }

structure EligibilityContract where
  openBug : Bool
  targetInRepository : Bool
  noExistingFix : Bool
  currentHeadUnfixed : Bool
  securitySensitive : Bool
  publicReproductionFeasible : Bool
  deterministicLocalReproduction : Bool
  expectedBehaviorGrounded : Bool
  boundedPolicyCompatible : Bool

def decodeEligibility (value : Json) : Option EligibilityContract := do
  let [openBug, target, noFix, unfixed, sensitive, feasible, deterministic, grounded, compatible] ←
    structFields ["open_bug", "target_in_repository", "no_existing_fix", "current_head_unfixed",
      "security_sensitive", "public_reproduction_feasible", "deterministic_local_reproduction",
      "expected_behavior_grounded", "bounded_policy_compatible"] value | none
  pure ⟨← openBug.bool?, ← target.bool?, ← noFix.bool?, ← unfixed.bool?, ← sensitive.bool?,
    ← feasible.bool?, ← deterministic.bool?, ← grounded.bool?, ← compatible.bool?⟩

structure CandidateContract where
  schema : String
  runId : String
  repository : String
  baseSha : String
  issueNumber : ℕ
  rank : ℕ
  decision : String
  eligibility : EligibilityContract
  reasonCodes : List String
  evidenceDigests : List String
  expectedBehaviorSource : String
  decidedAt : String
  decisionDigest : String

def decodeCandidate (value : Json) : Option CandidateContract := do
  let [schema, runId, repository, baseSha, issueNumber, rank, decision, eligibility, reasons,
      evidence, source, decidedAt, digest] ← structFields
    ["schema", "run_id", "repository", "base_sha", "issue_number", "rank", "decision",
      "eligibility", "reason_codes", "evidence_digests", "expected_behavior_source", "decided_at",
      "decision_digest"] value | none
  pure {
    schema := ← schema.str?
    runId := ← runId.str?
    repository := ← repository.str?
    baseSha := ← baseSha.str?
    issueNumber := ← issueNumber.u64?
    rank := ← rank.u64?
    decision := ← decision.str?
    eligibility := ← decodeEligibility eligibility
    reasonCodes := ← reasons.strs?
    evidenceDigests := ← evidence.strs?
    expectedBehaviorSource := ← source.str?
    decidedAt := ← decidedAt.str?
    decisionDigest := ← digest.str? }

structure MergeContract where
  authorized : Bool
  mode : String
  approvalKind : String
  approvalHeadSha : Json
  autoMergeOptIn : Bool
  branchProtectionBypassed : Bool

def decodeMerge (value : Json) : Option MergeContract := do
  let [authorized, mode, approvalKind, approvalHeadSha, optIn, bypassed] ← structFields
    ["authorized", "mode", "approval_kind", "approval_head_sha", "auto_merge_opt_in",
      "branch_protection_bypassed"] value | none
  pure ⟨← authorized.bool?, ← mode.str?, ← approvalKind.str?, approvalHeadSha, ← optIn.bool?,
    ← bypassed.bool?⟩

structure GovernanceContract where
  schema : String
  runId : String
  repository : String
  baseSha : String
  headSha : String
  governanceClass : String
  classificationSources : List String
  pushTarget : String
  pullRequestMode : String
  merge : MergeContract
  protectedPathTouched : Bool
  requiredChecks : List RequiredCheck
  actionDigestRequired : Bool
  decidedAt : String
  decisionDigest : String

def decodeGovernance (value : Json) : Option GovernanceContract := do
  let [schema, runId, repository, baseSha, headSha, governanceClass, sources, pushTarget,
      pullRequestMode, merge, touched, checks, digestRequired, decidedAt, digest] ← structFields
    ["schema", "run_id", "repository", "base_sha", "head_sha", "governance_class",
      "classification_sources", "push_target", "pull_request_mode", "merge",
      "protected_path_touched", "required_checks", "action_digest_required", "decided_at",
      "decision_digest"] value | none
  pure {
    schema := ← schema.str?
    runId := ← runId.str?
    repository := ← repository.str?
    baseSha := ← baseSha.str?
    headSha := ← headSha.str?
    governanceClass := ← governanceClass.str?
    classificationSources := ← sources.strs?
    pushTarget := ← pushTarget.str?
    pullRequestMode := ← pullRequestMode.str?
    merge := ← decodeMerge merge
    protectedPathTouched := ← touched.bool?
    requiredChecks := ← records decodeRequiredCheck checks
    actionDigestRequired := ← digestRequired.bool?
    decidedAt := ← decidedAt.str?
    decisionDigest := ← digest.str? }

structure ReviewerContract where
  schema : String
  runId : String
  subjectDigest : String
  reviewerId : String
  status : String
  deterministicTestsPrimary : Bool
  satisfiesTeamMergeGate : Bool
  reviewedAt : String
  reviewDigest : String

def decodeReviewer (value : Json) : Option ReviewerContract := do
  let [schema, runId, subjectDigest, reviewerId, status, primary, gate, reviewedAt, digest] ←
    structFields ["schema", "run_id", "subject_digest", "reviewer_id", "status",
      "deterministic_tests_primary", "satisfies_team_merge_gate", "reviewed_at", "review_digest"]
      value | none
  pure ⟨← schema.str?, ← runId.str?, ← subjectDigest.str?, ← reviewerId.str?, ← status.str?,
    ← primary.bool?, ← gate.bool?, ← reviewedAt.str?, ← digest.str?⟩

/-! ### What the contracts demand -/

section

variable [Platform]

def parseTime (name value : String) : Except String DateTime :=
  orContext (parseRfc3339 value) (name ++ " is not RFC3339")

/-- Whole seconds from one time to a later one. -/
def secondsBetween (earlier later : DateTime) : ℕ := (later - earlier) / 1000000000

end

def runEnvelopeSchema : String := "ao.architecture.autonomous-issue-repair.run-envelope.v1"

def candidateSchema : String := "ao.architecture.autonomous-issue-repair.candidate-decision.v1"

def governanceSchema : String := "ao.architecture.autonomous-issue-repair.governance-decision.v1"

def reviewerSchema : String := "ao.architecture.autonomous-issue-repair.reviewer-independence.v1"

def ownershipClasses : List String := ["sole_control", "team", "external", "unknown"]

/-- The number of an issue, as a URL ends with it. -/
def isIssueNumber (number : List Char) : Bool :=
  number.head?.any (fun c => '1' ≤ c && c ≤ '9') && number.tail.all Char.isDigit

/-- The URL of the issues of a repository, or of one of them. -/
def validIssueUrl (trigger : TriggerContract) : Bool :=
  let issueRoot := ("https://github.com/" ++ trigger.repository ++ "/issues").toList
  if trigger.mode = "issue_list" then trigger.canonicalUrl.toList = issueRoot
  else if trigger.mode = "explicit_issue" then
    (issueRoot ++ ['/']) <+: trigger.canonicalUrl.toList &&
      isIssueNumber (trigger.canonicalUrl.toList.drop (issueRoot.length + 1))
  else false

def validateLineage (value : RunEnvelopeContract) : Except String Unit :=
  if value.lineage.kind = "origin" ∧ value.predecessorDigest.isNull ∧
      value.lineage.predecessorRunId.isNull ∧ value.lineage.predecessorDigest.isNull then .ok ()
  else if value.lineage.kind = "narrower_successor" then do
    let top ← orContext value.predecessorDigest.str? "successor predecessor_digest must be a string"
    let runId ← orContext value.lineage.predecessorRunId.str?
      "successor predecessor_run_id must be a string"
    let lineage ← orContext value.lineage.predecessorDigest.str?
      "successor lineage digest must be a string"
    validateRunId "predecessor_run_id" runId
    bailIf (!isSha256 top ∨ top ≠ lineage) "successor lineage digest is invalid"
  else .error "run envelope lineage is invalid"

/-- The owner of the fork, where the envelope names one. -/
def validateForkOwner (forkOwner : Json) : Except String Unit :=
  if forkOwner.isNull then .ok ()
  else do
    let owner ← orContext forkOwner.str? "run envelope fork_owner must be string or null"
    bailIf (!validSlug owner) "run envelope fork_owner is invalid"

section

variable [Platform]

def validateEnvelopeContract (value : RunEnvelopeContract) : Except String Unit := do
  bailIf (value.schema ≠ runEnvelopeSchema) "run envelope schema is invalid"
  validateRunId "run_id" value.runId
  [("loop.goal", value.loop.goal, 512), ("loop.trigger", value.loop.trigger, 256),
    ("loop.discovery", value.loop.discovery, 256), ("loop.action", value.loop.action, 256),
    ("loop.verification", value.loop.verification, 256), ("loop.state", value.loop.state, 256),
    ("loop.human_gates", value.loop.humanGates, 256)].forM fun (name, text, max) =>
      validateText name text max
  validateOneOf "trigger mode" value.trigger.mode ["explicit_issue", "issue_list"]
  discard (splitRepository value.trigger.repository)
  validateRef value.trigger.defaultBranch
  bailIf (!isCommit value.trigger.pinnedBaseCommit) "run envelope pinned base commit is invalid"
  bailIf (!validIssueUrl value.trigger) "run envelope canonical GitHub URL is invalid"
  bailIf (¬ (1 ≤ value.discovery.snapshotLimit ∧ value.discovery.snapshotLimit ≤ 50) ∨
      ¬ (1 ≤ value.discovery.candidateLimit ∧ value.discovery.candidateLimit ≤ 10) ∨
      value.discovery.selectedLimit ≠ 1)
    "run envelope discovery bounds are invalid"
  bailIf (value.budgets.wallClockSeconds = 0 ∨ value.budgets.testRuns = 0 ∨
      1 < value.budgets.repairCount ∨ 1 < value.budgets.publicationCount)
    "run envelope budgets are invalid"
  validateOneOf "ownership class" value.governance.ownershipClass ownershipClasses
  validateStringArray "allowed actions" value.governance.allowedActions 1 128
    ["read_public_metadata", "clone_public_repository", "push_operator_fork",
      "open_upstream_draft_pr", "open_ready_pr", "request_merge_queue", "auto_merge"]
  validateStringArray "denied actions" value.governance.deniedActions 1 128
    ["push_upstream", "open_ready_pr", "mark_ready", "approve_review", "merge", "mutate_issue",
      "publish_release"]
  validateRef value.routing.defaultBranch
  validateSchemaBranch value.routing.repairBranch
  validateRef value.routing.repairBranch
  bailIf (!isCommit value.routing.pinnedBaseCommit) "run envelope routing commit is invalid"
  validateForkOwner value.routing.forkOwner
  validateStringArray "protected path classes" value.routing.protectedPathClasses 0 128 []
  validateStringArray "required checks" value.routing.requiredChecks 0 256 []
  let created ← parseTime "run envelope created_at" value.createdAt
  let expires ← parseTime "run envelope expires_at" value.expiresAt
  bailIf (expires ≤ created ∨ value.budgets.wallClockSeconds < secondsBetween created expires ∨
      !isSha256 value.canonicalDigest)
    "run envelope timestamps or canonical digest are invalid"
  let externalOrUnknown : Bool := value.governance.ownershipClass ∈ ["external", "unknown"]
  bailIf (externalOrUnknown ∧
      (value.governance.allowedActions.any fun action =>
        action ∈ ["open_ready_pr", "request_merge_queue", "auto_merge"]))
    "external or unknown run envelope must remain draft-only"
  bailIf (value.governance.soleControlAutoMergeOptIn ∧
      value.governance.ownershipClass ≠ "sole_control")
    "auto-merge opt-in is only valid for sole_control governance"
  bailIf ("auto_merge" ∈ value.governance.allowedActions ∧
      (value.governance.ownershipClass ≠ "sole_control" ∨
        !value.governance.soleControlAutoMergeOptIn))
    "auto_merge requires sole-control explicit opt-in"
  validateLineage value
  validateStringArray "stop conditions" value.stopConditions 1 128
    ["policy_ambiguity", "security_sensitive", "credential_required", "lease_conflict",
      "digest_mismatch", "required_check_conflict", "budget_exhausted",
      "unauthorized_external_write", "concurrent_repository_mutation"]
  validateStringArray "terminal statuses" value.terminalStatuses 1 128
    ["completed", "no_eligible_issue", "operator_action_required", "blocked", "expired",
      "cancelled"]

/-- No predicate of eligibility fails. -/
def EligibilityContract.allEligible (e : EligibilityContract) : Bool :=
  e.openBug && e.targetInRepository && e.noExistingFix && e.currentHeadUnfixed &&
    e.publicReproductionFeasible && e.deterministicLocalReproduction &&
    e.expectedBehaviorGrounded && e.boundedPolicyCompatible && !e.securitySensitive

def validateCandidateContract (value : CandidateContract) : Except String Unit := do
  bailIf (value.schema ≠ candidateSchema) "candidate schema is invalid"
  validateRunId "candidate run_id" value.runId
  discard (splitRepository value.repository)
  bailIf (!isCommit value.baseSha ∨ value.issueNumber = 0 ∨
      ¬ (1 ≤ value.rank ∧ value.rank ≤ 10) ∨ !isSha256 value.decisionDigest)
    "candidate identity or digest is invalid"
  validateOneOf "candidate decision" value.decision ["eligible", "selected", "excluded"]
  validateStringArray "candidate reason codes" value.reasonCodes 1 128 []
  validateStringArray "candidate evidence digests" value.evidenceDigests 1 64 []
  bailIf (value.evidenceDigests.any (!isSha256 ·)) "candidate evidence digest is invalid"
  validateOneOf "expected behavior source" value.expectedBehaviorSource
    ["tests", "documentation", "protocol", "maintainer_statement", "unavailable"]
  let allEligible := value.eligibility.allEligible
  let groundedSource : Bool := value.expectedBehaviorSource ≠ "unavailable"
  bailIf (value.decision ∈ ["eligible", "selected"] ∧ (!allEligible ∨ !groundedSource))
    "eligible or selected candidate requires every predicate and grounded behavior"
  bailIf (value.decision = "excluded" ∧ allEligible ∧ groundedSource)
    "excluded candidate requires a failing predicate"
  discard (parseTime "candidate decided_at" value.decidedAt)

/-- The checks of a governance decision: none twice, and each on its head. -/
def validateGovernanceChecks (headSha : String) :
    List String → List RequiredCheck → Except String Unit
  | _, [] => .ok ()
  | seen, check :: checks => do
    validateText "governance check name" check.name 256
    validateOneOf "governance check conclusion" check.conclusion
      ["success", "failure", "pending", "missing"]
    bailIf (!isCommit check.headSha ∨ check.headSha ≠ headSha ∨ check.name ∈ seen)
      "governance checks must be unique and bind the exact head SHA"
    validateGovernanceChecks headSha (check.name :: seen) checks

def validateGovernanceContract (value : GovernanceContract) : Except String Unit := do
  bailIf (value.schema ≠ governanceSchema) "governance schema is invalid"
  validateRunId "governance run_id" value.runId
  discard (splitRepository value.repository)
  bailIf (!isCommit value.baseSha ∨ !isCommit value.headSha ∨ !isSha256 value.decisionDigest)
    "governance commit or digest is invalid"
  validateOneOf "governance class" value.governanceClass ownershipClasses
  validateStringArray "classification sources" value.classificationSources 1 128
    ["repository_policy", "branch_rules", "codeowners", "operator_envelope", "unknown_default"]
  validateOneOf "push target" value.pushTarget
    ["authorized_operator_repository", "policy_authorized_branch", "operator_owned_fork"]
  validateOneOf "pull request mode" value.pullRequestMode
    ["draft_or_ready_by_policy", "upstream_draft_only"]
  validateOneOf "merge mode" value.merge.mode ["never", "manual", "merge_queue", "auto_merge"]
  validateOneOf "merge approval kind" value.merge.approvalKind
    ["none", "independent_human", "codeowner"]
  bailIf (!value.merge.approvalHeadSha.isNull ∧
      !(value.merge.approvalHeadSha.str?.any isCommit))
    "merge approval head SHA must be a commit or null"
  bailIf (value.merge.branchProtectionBypassed ∨ !value.actionDigestRequired)
    "governance safety constants are invalid"
  bailIf (!value.merge.authorized ∧ value.merge.mode ≠ "never")
    "unauthorized governance merge mode must be never"
  let checksPass : Bool := value.requiredChecks ≠ [] ∧
    value.requiredChecks.all fun check =>
      check.conclusion = "success" && check.headSha = value.headSha
  bailIf (value.merge.authorized ∧ (value.protectedPathTouched ∨ !checksPass))
    "authorized merge requires unprotected paths and exact successful checks"
  bailIf (value.governanceClass = "sole_control" ∧ value.merge.mode = "auto_merge" ∧
      !value.merge.autoMergeOptIn)
    "sole-control auto_merge requires explicit opt-in"
  bailIf (value.governanceClass ∈ ["external", "unknown"] ∧
      (value.merge.authorized ∨ value.merge.mode ≠ "never" ∨
        value.pushTarget ≠ "operator_owned_fork" ∨
        value.pullRequestMode ≠ "upstream_draft_only" ∨ value.merge.approvalKind ≠ "none" ∨
        !value.merge.approvalHeadSha.isNull ∨ value.merge.autoMergeOptIn))
    "external or unknown governance must remain fork-only, draft-only, and unmerged"
  bailIf (value.governanceClass = "team" ∧ value.merge.authorized ∧
      (value.merge.approvalKind ∉ ["independent_human", "codeowner"] ∨
        value.merge.approvalHeadSha.str? ≠ some value.headSha ∨
        value.merge.mode ≠ "merge_queue"))
    "team merge requires exact-head independent approval through the merge queue"
  validateGovernanceChecks value.headSha [] value.requiredChecks
  discard (parseTime "governance decided_at" value.decidedAt)

def validateReviewerContract (value : ReviewerContract) : Except String Unit := do
  bailIf (value.schema ≠ reviewerSchema) "reviewer schema is invalid"
  validateRunId "reviewer run_id" value.runId
  validateText "reviewer_id" value.reviewerId 128
  validateOneOf "reviewer status" value.status
    ["independent", "same_vendor", "unavailable", "unverified"]
  bailIf (!isSha256 value.subjectDigest ∨ !isSha256 value.reviewDigest ∨
      !value.deterministicTestsPrimary)
    "reviewer digest or deterministic-test constant is invalid"
  discard (parseTime "reviewed_at" value.reviewedAt)

end

end Ao2
