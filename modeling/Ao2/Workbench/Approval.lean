import Ao2.Queue.Calls
import Ao2.Queue.Submit
import Ao2.Texts.Ascii
import Ao2.Workbench.Routes

/-!
# The preflight of a greenfield specification

A specification is read and described: its title, what it says is accepted, how the work is classified
and where the run that it is for will leave its files. Nothing is written.

A project start is put into the queue, or the next one of the queue is executed, once the digest of what
was shown of it is sent back. Whoever sends the digest also sends the rest of the form, and the queue is
read again once the digest is found to be the right one.
-/

namespace Ao2

namespace Workbench

/-- What is read of files. -/
structure TargetState where
  pathExists : String → Bool
  isFile : String → Bool
  canonicalize : String → Except String String
  readText : String → Except String String
  sha256File : String → Except String String

/-! ### Titles and acceptance -/

/-- What was found in the lines of a specification so far. -/
structure SpecReading where
  title : Text
  acceptance : List Text
  inAcceptance : Bool
  /-- The list of what is accepted has come to its end. -/
  ended : Bool

/-- The item of a list that a line is. -/
def listItem (line : Text) : Option Text :=
  (if ['-', ' '] <+: line ∨ ['*', ' '] <+: line then some (trimEnd (trimStart (line.drop 2)))
    else none).filter (· ≠ [])

/-- A line begins the list of what is accepted. -/
def beginsAcceptance (line : Text) : Bool :=
  let lower := line.map Char.toLower
  (lower.reverse.dropWhile (· = ':')).reverse = "acceptance".toList ||
    "acceptance:".toList.isPrefixOf lower

def readSpecLine (found : SpecReading) (line : Text) : SpecReading :=
  if found.ended then found
  else
    let trimmed := trimEnd (trimStart line)
    let found :=
      if found.title = [] ∧ trimmed.head? = some '#' then
        { found with title := trimEnd (trimStart (trimmed.dropWhile (· = '#'))) }
      else found
    if beginsAcceptance trimmed then { found with inAcceptance := true }
    else if !found.inAcceptance then found
    else if trimmed.head? = some '#' then { found with ended := true }
    else if trimmed = [] then found
    else
      match listItem trimmed with
      | some item => { found with acceptance := found.acceptance ++ [item] }
      | none => { found with ended := found.acceptance ≠ [] }

def greenfieldTitleAndAcceptance (specText : String) : String × List String :=
  let found := (lines specText.toList).foldl readSpecLine ⟨[], [], false, false⟩
  (if found.title = [] then "Greenfield AO2 work" else .ofList found.title,
    if found.acceptance = [] then
      ["AO2 materializes a governed plan from the plain spec.",
        "AO2 executes the generated plan without factory-v3 driving workflow.",
        "Evaluator closure evidence is produced before release acceptance."]
    else found.acceptance.map .ofList)

/-! ### Classification -/

def mentions (text : String) (needles : List String) : Bool := needles.any (containsText text)

def classifyFactoryShape (text : String) : String :=
  if mentions text ["bug", "fix", "failure", "failing", "regression", "error", "broken"] then "bug-fix"
  else if mentions text
      ["refactor", "rename", "restructure", "migrate", "compatibility", "parity"] then "refactor"
  else "greenfield"

def classifyFactorySize (text : String) (hasProfile hasRunspec : Bool) (roleContractCount : ℕ) :
    String :=
  if 4 ≤ roleContractCount ∨ mentions text ["windows", "ubuntu", "macos", "cross-platform", "release",
      "provider", "migration", "governed execution"] then "large"
  else if 2 ≤ roleContractCount ∨ hasProfile ∨ hasRunspec ∨ 1200 < text.utf8ByteSize then "medium"
  else "small"

def factoryClassificationSignals (text : String) : List String :=
  let signals := ([("bug", "bug_language"), ("refactor", "refactor_language"),
    ("parity", "replacement_parity"), ("provider", "provider_orchestration"),
    ("windows", "three_os_or_windows"), ("ubuntu", "three_os_or_ubuntu"),
    ("macos", "three_os_or_macos"), ("release", "release_gate"),
    ("governed", "governed_execution")].filter fun entry => containsText text entry.1).map Prod.snd
  if signals = [] then ["default_intake"] else signals

/-! ### The preflight -/

/-- The last name of a path. -/
def fileName (path : Text) : Option Text :=
  ((path.splitOn '/').filter fun name => name ≠ [] ∧ name ≠ ['.']).getLast?.filter (· ≠ ['.', '.'])

/-- The name of a file without its extension. -/
def fileStem (path : Text) : Option Text :=
  (fileName path).map fun name =>
    match beforeLast ['.'] name with
    | some [] | none => name
    | some stem => stem

/-- The identifier of the run: the one that is asked for, or the name of the specification. -/
def ingestRunId (spec : String) : Option String → String
  | some runId => sanitizeGreenfieldId runId
  | none => ((fileStem spec.toList).map fun stem => sanitizeGreenfieldId (.ofList stem)).getD
      "greenfield-run"

def plannedOutDir (target runId : String) : String :=
  joinPath (joinPath (joinPath target ".ao2") "factory-project-start") runId

def greenfieldTrustBoundary : Json := .object
  [("hermes_role", .str "front_end_queue_cron_memory_bookkeeping"),
    ("ao2_role", .str "trusted_execution_queue_memory_replay_signed_evidence_producer"),
    ("execution_owner", .str "ao2"), ("factory_v3_role", .str "parity_oracle_only"),
    ("factory_v3_drives_workflow", .bool false),
    ("release_acceptance_owner", .str "factory-v3 evaluator-closer"),
    ("control_plane_role", .str "read_only_observer_after_signed_evidence"),
    ("control_plane_approves_release", .bool false), ("mutates_ao_artifacts", .bool false),
    ("provider_auth", .str "local OAuth CLI only; API-key provider auth forbidden")]

/-- The commands that the run will consist of. -/
def plannedCommands (spec target runId verifierCommand : String) : List Json :=
  let outDir := plannedOutDir target runId
  [.object [("command", .str "ao2 factory project-plan"),
      ("writes_when_executed",
        .strs ["ao2.factory-project-plan.v1", "ao2.factory-acceptance-rubric.v1"]),
      ("args", .object [("--project-spec", .str spec), ("--project-root", .str target),
        ("--run-id", .str runId), ("--verifier-command", .str verifierCommand),
        ("--out", .str (joinPath (joinPath outDir "project-plan") "project-plan.json"))])],
    .object [("command", .str "ao2 factory project-start"),
      ("writes_when_executed",
        .strs ["ao2.factory-project-start.v1", "ao2.factory-project-start-bundle.v1"]),
      ("args", .object [("--project-spec", .str spec), ("--project-root", .str target),
        ("--run-id", .str runId), ("--verifier-command", .str verifierCommand),
        ("--out-dir", .str outDir),
        ("--handoff-bundle-out", .str (joinPath outDir "project-start-handoff.tgz"))])],
    .object [("command", .str "ao2 factory queue-submit-project-start"),
      ("writes_when_executed", .strs ["ao2.factory-project-start-workbench-queue-submit.v1"]),
      ("args", .object [("--target", .str target),
        ("--project-start", .str (joinPath outDir (runId ++ "-factory-project-start.json")))])]]

section

variable [Platform]

/-- The text that a specification is classified by. -/
def classificationText (specText title : String) (acceptance : List String) : String :=
  lowercase (Json.compact (.object [("title", .str title), ("acceptance", .strs acceptance),
    ("spec", .str specText), ("shape", .str "greenfield")]))

/-- The description of a specification. -/
def greenfieldSpecIngest (spec target specText specSha256 runId verifierCommand : String) : Json :=
  let (title, acceptance) := greenfieldTitleAndAcceptance specText
  let text := classificationText specText title acceptance
  .object [("schema_version", .str "ao2.factory-greenfield-spec-ingest.v1"), ("status", .str "ready"),
    ("run_id", .str runId),
    ("source_spec", .object [("path", .str spec), ("sha256", .str specSha256), ("title", .str title),
      ("acceptance", .strs acceptance)]),
    ("target", .str target), ("verifier", .object [("command", .str verifierCommand)]),
    ("classification", .object [("size", .str (classifyFactorySize text false false 0)),
      ("shape", .str (classifyFactoryShape text)), ("owner", .str "ao2-native-classifier"),
      ("source", .str "ao2-greenfield-spec-ingest"),
      ("factory_v3_required_before_classification", .bool false),
      ("signals", .strs (factoryClassificationSignals text))]),
    ("preflight", .object [("read_only", .bool true), ("queue_submission_ready", .bool true),
      ("missing_required_inputs", .arr []), ("planned_out_dir", .str (plannedOutDir target runId)),
      ("planned_project_root", .str target)]),
    ("planned_ao2_producer_commands", .arr (plannedCommands spec target runId verifierCommand)),
    ("expected_artifact_schemas", .strs ["ao2.factory-project-plan.v1",
      "ao2.factory-acceptance-rubric.v1", "ao2.factory-project-start.v1",
      "ao2.factory-project-start-bundle.v1", "ao2.factory-project-start-workbench-queue-submit.v1"]),
    ("side_effects", .object [("would_write_files", .bool false), ("would_execute_provider", .bool false),
      ("would_execute_queue", .bool false), ("would_submit_queue_entry", .bool false),
      ("would_rebuild_wrappers", .bool false), ("would_mutate_control_plane", .bool false)]),
    ("trust_boundary", greenfieldTrustBoundary)]

def factoryGreenfieldSpecIngest (files : TargetState) (spec target : String) (runId : Option String)
    (verifierCommand : String) : Except String Json := do
  check (files.pathExists target) s!"target repo does not exist: {target}"
  check (files.isFile spec) s!"greenfield spec does not exist: {spec}"
  let specText ← (files.readText spec).mapError fun _ => s!"read greenfield spec {spec}"
  rejectFactoryProviderApiKeyAuth "greenfield_spec" (.object [("spec", .str specText)])
  let specSha256 ← (files.sha256File spec).mapError fun _ => s!"read {spec}"
  .ok (greenfieldSpecIngest spec target specText specSha256 (ingestRunId spec runId) verifierCommand)

end

end Workbench

end Ao2

/-! ## Approval by an exact digest -/

namespace Ao2

open Interaction

namespace Workbench

/-! ### Fields of a form -/

def formText (form : Form) (key : String) : Option String := (formValueOwned form key).map .ofList

def required (form : Form) (key : String) : Except String String :=
  match formText form key with
  | some value => .ok value
  | none => .error s!"{key} is required"

def verifierCommandOf (form : Form) : String := (formText form "verifier_command").getD "npm run verify"

def maxRepairAttemptsOf (form : Form) : ℕ :=
  ((form.find? (·.1 = "max_repair_attempts".toList)).bind fun entry =>
    parseU64 (trimEnd (trimStart entry.2))).getD 1

def signerIdOf (form : Form) : String := (formText form "signer_id").getD "ao2-workbench"

def submittedDigestOf (form : Form) : String := (formText form "approval_action_digest").getD ""

def missingApproval (submittedDigest : String) : Json :=
  .str (if submittedDigest = "" then "approval_required" else "approval_digest_mismatch")

/-! ### Submitting -/

/-- The target of a form, which is the one that is served. -/
def effectiveTarget (files : TargetState) (target : String) (form : Form) : Except String String :=
  match formText form "target" with
  | none => .ok target
  | some requestedTarget => do
    let requested ← (files.canonicalize requestedTarget).mapError fun _ =>
      s!"canonicalize requested workbench target {requestedTarget}"
    let served ← (files.canonicalize target).mapError fun _ => s!"canonicalize workbench target {target}"
    check (requested = served)
      s!"target form field must match the served workbench target: requested {requested}, served {served}"
    .ok requested

/-- What the digest of a submission is made of. -/
def submitDigestInput (preflight : Json) : Json := .object
  [("action", .str "ao2.workbench-greenfield-spec-ingest-submit.v1"), ("preflight", preflight)]

/-- The answer to a submission without the digest. -/
def submitApprovalRequired (submittedDigest actionDigest : String) (preflight : Json) : Json := .object
  [("schema_version", .str "ao2.factory-greenfield-spec-ingest-submit-approval.v1"),
    ("status", missingApproval submittedDigest), ("approval_mode", .str "exact_action_digest"),
    ("required_form_field", .str "approval_action_digest"), ("action_digest", .str actionDigest),
    ("preflight", preflight),
    ("next_action", .str "submit approval_action_digest with the exact action_digest to submit the AO2 project-start queue entry"),
    ("side_effects", .object [("would_write_queue_file_after_approval", .bool true),
      ("would_execute_provider", .bool false), ("would_execute_queue", .bool false),
      ("would_mutate_control_plane", .bool false)]),
    ("trust_boundary", preflight.index "trust_boundary")]

/-- What is asked of the queue. -/
def submitOptions (target spec : String) (form : Form) (preflight : Json) :
    FactoryQueueSubmitProjectStartOptions :=
  { target := target
    projectSpec := spec
    projectRoot := target
    runId := some (jsonStringOf preflight "run_id")
    verifierCommand := verifierCommandOf form
    provider := formText form "provider"
    providerPromptDir := formText form "provider_prompt_dir"
    signingKey := none
    signerId := "ao2-workbench"
    maxRepairAttempts := maxRepairAttemptsOf form
    outDir := some (jsonStringOf (preflight.index "preflight") "planned_out_dir")
    handoffBundleOut := none
    handoffBundleReport := none
    receiptOut := none }

def submitted (actionDigest : String) (preflight queueSubmit : Json) : Json := .object
  [("schema_version", .str "ao2.factory-greenfield-spec-ingest-submit.v1"),
    ("status", .str (jsonStringOf queueSubmit "status")),
    ("run_id", .str (jsonStringOf preflight "run_id")),
    ("approval", .object
      [("schema_version", .str "ao2.factory-greenfield-spec-ingest-submit-approval.v1"),
        ("status", .str "approved_exact_action_digest"), ("approval_mode", .str "exact_action_digest"),
        ("action_digest", .str actionDigest)]),
    ("preflight", preflight), ("queue_submit", queueSubmit),
    ("side_effects", .object [("submitted_queue_entry", .bool true), ("wrote_queue_file", .bool true),
      ("executed_provider", .bool false), ("executed_queue", .bool false),
      ("mutated_control_plane", .bool false)]),
    ("trust_boundary", greenfieldTrustBoundary), ("ao2_decision_owner", .str "ao2-workbench-queue")]

section

variable [Platform]

/-- Everything that is looked at before the digest. -/
def submitPreflight (files : TargetState) (target : String) (form : Form) :
    Except String (String × String × Json) := do
  let spec ← required form "spec"
  let effective ← effectiveTarget files target form
  let preflight ← factoryGreenfieldSpecIngest files spec effective (formText form "run_id")
    (verifierCommandOf form)
  .ok (spec, effective, preflight)

def workbenchFactoryGreenfieldSpecIngestSubmit (files : TargetState) (target : String) (form : Form) :
    QueueProg Json := do
  let (spec, effective, preflight) ← .ofExcept (submitPreflight files target form)
  let actionDigest := sha256Json (submitDigestInput preflight)
  if submittedDigestOf form ≠ actionDigest then
    pure (submitApprovalRequired (submittedDigestOf form) actionDigest preflight)
  else do
    let queueSubmit ← factoryQueueSubmitProjectStart (submitOptions effective spec form preflight)
    pure (submitted actionDigest preflight queueSubmit)

end

/-! ### Executing the next entry -/

/-- The first entry that is queued as a project start of a run. -/
def queuedProjectStart (runId : String) (entries : List Json) : Except String Json :=
  match entries.find? fun entry => jsonStringOf entry "run_id" = runId ∧
      jsonStringOf entry "status" = "queued" ∧
      jsonStringOf entry "job_kind" = "factory_project_start" with
  | some entry => .ok entry
  | none => .error
    s!"factory project-start queue has no queued factory_project_start entry for run_id {runId}"

def firstQueuedRunId (entries : List Json) : String :=
  ((entries.find? fun entry => jsonStringOf entry "status" = "queued").map
    (jsonStringOf · "run_id")).getD ""

/-- What the digest of an execution is made of. -/
def runNextDigestInput (runId queuePath : String) (queuedEntry : Json) : Json := .object
  [("action", .str "ao2.workbench-project-start-run-next.v1"), ("run_id", .str runId),
    ("queue_path", .str queuePath), ("queued_entry", queuedEntry),
    ("trust_boundary", greenfieldTrustBoundary)]

/-- The answer to an execution without the digest. -/
def runNextApprovalRequired (submittedDigest actionDigest runId queuePath : String)
    (queuedEntry : Json) : Json := .object
  [("schema_version", .str "ao2.factory-project-start-workbench-run-next-approval.v1"),
    ("status", missingApproval submittedDigest), ("approval_mode", .str "exact_action_digest"),
    ("required_form_field", .str "approval_action_digest"), ("action_digest", .str actionDigest),
    ("run_id", .str runId), ("queue_path", .str queuePath), ("queued_entry", queuedEntry),
    ("next_action", .str "submit approval_action_digest with the exact action_digest to run the next AO2 project-start queue entry"),
    ("side_effects", .object [("would_execute_queue_after_approval", .bool true),
      ("would_execute_provider", .bool false), ("would_mutate_control_plane", .bool false),
      ("would_write_queue_file", .bool true)]),
    ("trust_boundary", greenfieldTrustBoundary), ("ao2_decision_owner", .str "ao2-workbench-queue")]

/-- What is asked of the queue. -/
def runNextOptions (targetRoot : String) (form : Form) : FactoryQueueRunNextOptions :=
  { target := targetRoot
    provider := none
    providerPrompt := none
    providerPromptFile := none
    providerMaxBudgetUsd := none
    factoryDecision := none
    signingKey := none
    signerId := signerIdOf form
    maxRepairAttempts := maxRepairAttemptsOf form
    out := none }

def executed (actionDigest runId : String) (queueRunNext : Json) : Json := .object
  [("schema_version", .str "ao2.factory-project-start-workbench-run-next.v1"),
    ("status", .str (jsonStringOf queueRunNext "status")), ("run_id", .str runId),
    ("approval_status", .str "approved_exact_action_digest"),
    ("approval", .object
      [("schema_version", .str "ao2.factory-project-start-workbench-run-next-approval.v1"),
        ("status", .str "approved_exact_action_digest"), ("approval_mode", .str "exact_action_digest"),
        ("action_digest", .str actionDigest)]),
    ("queue_run_next", queueRunNext),
    ("side_effects", .object [("executed_queue", .bool true), ("executed_provider", .bool false),
      ("wrote_queue_file", .bool true), ("mutated_control_plane", .bool false)]),
    ("trust_boundary", greenfieldTrustBoundary), ("ao2_decision_owner", .str "ao2-workbench-queue")]

section

variable [Platform]

/-- Execute the next entry for the digest of one that was queued. -/
def runApproved (targetRoot runId : String) (form : Form) (queuedEntry : Json) : QueueProg Json := do
  let queuePath := factoryQueuePath targetRoot
  let actionDigest := sha256Json (runNextDigestInput runId queuePath queuedEntry)
  if submittedDigestOf form ≠ actionDigest then
    pure (runNextApprovalRequired (submittedDigestOf form) actionDigest runId queuePath queuedEntry)
  else do
    let queueRunNext ← factoryQueueRunNext (runNextOptions targetRoot form)
    let returned := jsonStringOf queueRunNext "run_id"
    .ofExcept (check (returned = runId) s!"AO2 queue-run-next returned run_id {returned}, expected {runId}")
    pure (executed actionDigest runId queueRunNext)

def workbenchFactoryProjectStartRunNext (target : String) (form : Form) : QueueProg Json := do
  let runId ← .ofExcept (required form "run_id")
  let canonical ← performQueue (.canonicalize target)
  let targetRoot ← inContext s!"canonicalize workbench target {target}" canonical
  let queue ← factoryQueueLoad targetRoot
  let queuedEntry ← .ofExcept (queuedProjectStart runId (entriesOf queue))
  .ofExcept (check (firstQueuedRunId (entriesOf queue) = runId)
    s!"requested run_id {runId} is not the next queued entry; next queued run_id is {firstQueuedRunId (entriesOf queue)}")
  runApproved targetRoot runId form queuedEntry

end

end Workbench

end Ao2
