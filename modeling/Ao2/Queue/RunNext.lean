import Ao2.Queue.Entries

/-!
# Running the next entry

The first queued entry is looked up, its files are checked, it is claimed by moving it to `running`,
and what it asks for is executed. What the execution leaves is entered in the queue that is there
then. A project start is also summarised and packaged, between the time at which the queue is read and
the time at which it is written.
-/

namespace Ao2

open Interaction

structure FactoryQueueRunNextOptions where
  target : String
  provider : Option String
  providerPrompt : Option String
  providerPromptFile : Option String
  providerMaxBudgetUsd : Option String
  factoryDecision : Option String
  signingKey : Option String
  signerId : String
  maxRepairAttempts : ℕ
  out : Option String

/-- The first entry that is queued. -/
def nextQueued (entries : List Json) : Except String Json :=
  match entries.find? fun entry => statusOf entry = some "queued" with
  | some entry => .ok entry
  | none => .error "factory queue has no queued AO2-governed runs to execute"

/-! ### Plans -/

/-- The plan of an entry can be read and is the one that was submitted. -/
def checkQueuedPlan (targetRoot runId : String) (next : Json) : QueueProg Unit :=
  let planPath := jsonStringOf next "plan_path"
  let queuedPlanSha256 := jsonStringOf next "plan_sha256"
  let missing := s!"queued factory run entry is missing a readable plan path for run_id {runId}"
  let unreadable := "AO2 queue-run-next refused unreadable queued plan path before execution"
  if isBlank runId then .fail missing
  else do
    let readable ← performQueue (.isFile planPath)
    if !readable then refuse targetRoot runId unreadable missing
    else do
      let digest ← performQueue (.sha256File planPath)
      match digest with
      | .error error =>
        refuse targetRoot runId unreadable
          s!"queued factory run plan path is not readable for run_id {runId}: {error}"
      | .ok currentPlanSha256 =>
        if isBlank queuedPlanSha256 ∨ currentPlanSha256 ≠ queuedPlanSha256 then
          refuse targetRoot runId
            "AO2 queue-run-next refused queued plan because persisted plan digest changed before execution"
            s!"queued factory run plan digest mismatch for run_id {runId}: expected {queuedPlanSha256}, got {currentPlanSha256}"
        else pure ()

def runPlanOptions (options : FactoryQueueRunNextOptions) (targetRoot runId planPath : String) :
    FactoryRunPlanOptions :=
  { plan := planPath
    target := targetRoot
    runId := some runId
    provider := options.provider
    providerPrompt := options.providerPrompt
    providerPromptFile := options.providerPromptFile
    providerMaxBudgetUsd := options.providerMaxBudgetUsd
    factoryDecision := options.factoryDecision
    signingKey := options.signingKey
    signerId := options.signerId
    maxRepairAttempts := options.maxRepairAttempts
    out := options.out }

/-- An entry whose plan was executed. -/
def completedPlanEntry (finalStatus now : String) (runResult entry : Json) : Json :=
  let previousStatus := jsonStringOf entry "status"
  pushRecord now previousStatus finalStatus
    "AO2 queue-run-next completed native governed execution and persisted evidence references"
    (entry.putAll [("status", .str finalStatus), ("updated_at", .str now),
      ("run_result_path", runResult.index "run_result_path"),
      ("evidence_pack", runResult.index "evidence_pack"), ("report", runResult.index "report"),
      ("memory_summary_path", runResult.index "memory_summary_path"),
      ("handoff_evidence_path", runResult.index "handoff_evidence_path"),
      ("provider_execution", runResult.index "provider_execution"),
      ("provider_adapter_contract", runResult.index "provider_adapter_contract"),
      ("native_evaluator_verdict", (runResult.index "native_evaluator_decision").index "verdict"),
      ("replay", runResult.index "replay")])

/-- The entry of a run as it was completed. -/
def completedEntry (entries : List Json) (runId message : String) (change : Json → Json) :
    Except String Json :=
  match findEntry entries runId with
  | some entry => .ok (change entry)
  | none => .error message

def runNextResult (runId finalStatus path : String) (running entry runResult refreshed : Json) : Json :=
  .object [("schema_version", .str "ao2.factory-v3-compat-workbench-queue-run-next.v1"),
    ("run_id", .str runId), ("status", .str finalStatus), ("queue_path", .str path),
    ("claimed_entry", running.index "entry"), ("entry", entry), ("run_result", runResult),
    ("continuity_contract", refreshed.index "continuity_contract"),
    ("parity_checklist_progress", .object
      [("ao2_queue_can_execute_persisted_factory_compat_run", .bool true),
        ("ao2_persists_queue_history_cancel_retry_state", .bool true),
        ("factory_v3_drives_workflow", .bool false), ("factory_v3_role", .str "parity_oracle_only"),
        ("control_plane_role", .str "read_only_observer_after_signed_evidence")]),
    ("ao2_decision_owner", .str "ao2-workbench-queue")]

/-- Enter in the queue what the execution of a plan has left. -/
def completePlan (targetRoot runId : String) (running runResult : Json) : QueueProg Json := do
  let finalStatus := planFinalStatus runResult
  let queue ← factoryQueueLoad targetRoot
  let now ← performQueue .now
  let change := completedPlanEntry finalStatus now runResult
  let (path, _) ← factoryQueueStore targetRoot
    (queue.put "entries" (.arr (updateEntry runId change (entriesOf queue))))
  let refreshed ← factoryQueueLoad targetRoot
  let entry ← .ofExcept (completedEntry (entriesOf queue) runId
    s!"factory queue lost run_id {runId} while persisting final evidence references" change)
  pure (runNextResult runId finalStatus path running entry runResult refreshed)

def runNextPlan (options : FactoryQueueRunNextOptions) (targetRoot : String) (next : Json) :
    QueueProg Json := do
  let runId := jsonStringOf next "run_id"
  checkQueuedPlan targetRoot runId next
  let running ← factoryQueueTransition targetRoot runId "running"
    "AO2 queue-run-next claimed persisted governed run for native execution"
  let executed ← performQueue
    (.runPlan (runPlanOptions options targetRoot runId (jsonStringOf next "plan_path")))
  let runResult ← orRefuse targetRoot runId
    "AO2 queue-run-next failed before closure; inspect local run logs without serializing secrets"
    s!"execute queued AO2 governed run {runId}" executed
  completePlan targetRoot runId running runResult

/-! ### Project starts: before the queue is read again -/

/-- The specification of an entry can be read and is the one that was submitted. -/
def checkQueuedProjectStart (targetRoot runId : String) (request : Json) : QueueProg Unit :=
  let projectSpec := jsonStringOf request "project_spec"
  let queuedSpecSha256 := jsonStringOf request "project_spec_sha256"
  let missing :=
    s!"queued factory project-start entry is missing a readable project spec for run_id {runId}"
  if isBlank runId then .fail missing
  else do
    let readable ← performQueue (.isFile projectSpec)
    if !readable then
      refuse targetRoot runId
        "AO2 queue-run-next refused unreadable project-start spec before execution" missing
    else do
      let digest ← performQueue (.sha256File projectSpec)
      let currentSpecSha256 ←
        inContext s!"read queued factory project-start spec {projectSpec}" digest
      if isBlank queuedSpecSha256 ∨ queuedSpecSha256 ≠ currentSpecSha256 then
        refuse targetRoot runId
          "AO2 queue-run-next refused project-start because persisted spec digest changed before execution"
          s!"queued factory project-start spec digest mismatch for run_id {runId}: expected {queuedSpecSha256}, got {currentSpecSha256}"
      else pure ()

def optionalPath (request : Json) (key : String) : Option String :=
  let raw := jsonStringOf request key
  if isBlank raw then none else some raw

def projectStartOptions (options : FactoryQueueRunNextOptions) (runId : String) (request : Json) :
    FactoryProjectStartOptions :=
  { projectSpec := jsonStringOf request "project_spec"
    projectRoot := jsonStringOf request "project_root"
    runId := runId
    verifierCommand := jsonStringOf request "verifier_command"
    provider := (request.index "provider").str?
    providerPromptDir := optionalPath request "provider_prompt_dir"
    signingKey := optionalPath request "signing_key"
    signerId :=
      if isBlank (jsonStringOf request "signer_id") then options.signerId
      else jsonStringOf request "signer_id"
    maxRepairAttempts := (u64Of request "max_repair_attempts").getD options.maxRepairAttempts
    handoffBundleOut := optionalPath request "handoff_bundle_out"
    handoffBundleReport := optionalPath request "handoff_bundle_report"
    outDir := jsonStringOf request "out_dir" }

/-- The path of a file that a result names. -/
def factoryProjectStartBundleRawPath (base raw : String) : QueueProg String :=
  if isBlank raw then .fail "path is missing"
  else do
    let path := joinPath base raw
    let readable ← performQueue (.isFile path)
    .ofExcept (check readable s!"not a file: {path}")
    pure path

def resolvedRawPath (message base raw : String) : QueueProg String := do
  let r ← ((factoryProjectStartBundleRawPath base raw).attempt : QueueProg (Except String String))
  inContext message r

/-- Write a value to a file and hash the file. -/
def writeHashed (path : String) (v : Json) : QueueProg String := do
  atomicWrite path (.json v)
  sha256File path

/-- A value, the file that it was written to and the digest of the file. -/
structure RecordedFile where
  value : Json
  path : String
  sha256 : String

/-- Verify the handoff bundle of a project start. -/
def verifyProjectStartBundle (targetRoot runId outDir : String) (projectStart : Json) :
    QueueProg RecordedFile := do
  let bundle ← resolvedRawPath s!"resolve queued project-start handoff bundle for {runId}" outDir
    (jsonStringOf (projectStart.index "hermes_queue_handoff") "project_start_bundle")
  let path := joinPath outDir "factory-project-start-bundle-verification.json"
  let verified ← performQueue (.projectStartBundleVerify bundle)
  let verification ← orRefuse targetRoot runId
    "AO2 queue-run-next project-start handoff bundle verification errored"
    s!"verify queued AO2 project-start handoff bundle {bundle}" verified
  let sha256 ← writeHashed path verification
  requireStatus targetRoot runId
    "AO2 queue-run-next project-start handoff bundle verification rejected the bundle"
    s!"queued factory project-start handoff bundle verification failed for run_id {runId}: {path}"
    verification "accepted"
  pure ⟨verification, path, sha256⟩

def operatorSummaryMarkdownPath (outDir : String) : String :=
  joinPath outDir "factory-project-start-operator-summary.md"

/-- Summarise a project start for the operator. -/
def summarizeProjectStart (targetRoot runId outDir : String) (projectStart : Json)
    (verification : RecordedFile) : QueueProg RecordedFile := do
  let projectStartPath ← resolvedRawPath s!"resolve queued project-start result for {runId}" outDir
    (jsonStringOf (projectStart.index "artifacts") "factory_project_start")
  let path := joinPath outDir "factory-project-start-operator-summary.json"
  let summarized ← performQueue (.projectStartSummary projectStartPath verification.path)
  let summary ← orRefuse targetRoot runId
    "AO2 queue-run-next project-start operator summary errored"
    s!"summarize queued AO2 project-start handoff {projectStartPath}" summarized
  atomicWrite path (.json summary)
  atomicWrite (operatorSummaryMarkdownPath outDir) (.summaryMarkdown summary)
  let sha256 ← sha256File path
  requireStatus targetRoot runId
    "AO2 queue-run-next project-start operator summary rejected the handoff"
    s!"queued factory project-start operator summary failed for run_id {runId}: {path}"
    summary "accepted"
  pure ⟨summary, path, sha256⟩

/-- The result of a project start with what was verified of it. -/
def verifiedProjectStart (outDir : String) (projectStart : Json) (verification summary : RecordedFile) :
    Json :=
  (((((((projectStart.putIn "checks" "project_start_bundle_verification_status"
    (verification.value.index "status")).putIn "checks" "project_start_operator_summary_status"
    (summary.value.index "status")).putIn "artifacts" "project_start_bundle_verification"
    (.str verification.path)).putIn "artifacts" "project_start_bundle_verification_sha256"
    (.str verification.sha256)).putIn "artifacts" "project_start_operator_summary"
    (.str summary.path)).putIn "artifacts" "project_start_operator_summary_sha256"
    (.str summary.sha256)).putIn "artifacts" "project_start_operator_summary_markdown"
    (.str (operatorSummaryMarkdownPath outDir)))

/-! ### Project starts: with the queue at hand -/

/-- An entry whose project start was executed. -/
def completedProjectStartEntry (finalStatus now outDir : String) (projectStart : Json)
    (verification summary : RecordedFile) (entry : Json) : Json :=
  let previousStatus := jsonStringOf entry "status"
  let artifacts := projectStart.index "artifacts"
  let checks := projectStart.index "checks"
  let handoff := projectStart.index "hermes_queue_handoff"
  pushRecord now previousStatus finalStatus
    "AO2 queue-run-next completed project-start handoff job and persisted bundle and summary references"
    ((((entry.putAll [("status", .str finalStatus), ("updated_at", .str now),
      ("project_start", artifacts.index "factory_project_start"),
      ("project_start_status", projectStart.index "status"),
      ("project_acceptance_review", artifacts.index "project_acceptance_review"),
      ("project_acceptance_review_sha256", artifacts.index "project_acceptance_review_sha256"),
      ("project_acceptance_review_status", checks.index "project_acceptance_review_status"),
      ("project_acceptance_review_recommended_decision",
        checks.index "project_acceptance_review_recommended_decision"),
      ("project_start_bundle", handoff.index "project_start_bundle"),
      ("project_start_bundle_sha256", handoff.index "project_start_bundle_sha256"),
      ("project_start_bundle_verification", .str verification.path),
      ("project_start_bundle_verification_sha256", .str verification.sha256),
      ("project_start_bundle_verification_status", verification.value.index "status"),
      ("project_start_bundle_verification_checks", verification.value.index "checks"),
      ("project_start_operator_summary", .str summary.path),
      ("project_start_operator_summary_markdown", .str (operatorSummaryMarkdownPath outDir)),
      ("project_start_operator_summary_sha256", .str summary.sha256),
      ("project_start_operator_summary_status", summary.value.index "status"),
      ("project_start_operator_summary_checks", summary.value.index "checks"),
      ("project_start_operator_summary_result", summary.value), ("hermes_queue_handoff", handoff),
      ("project_start_bundle_verification_result", verification.value),
      ("project_start_result", projectStart)]).putIn
      "parity_checklist_progress" "ao2_queue_executed_project_start_handoff_job" (.bool true)).putIn
      "parity_checklist_progress" "ao2_queue_verifies_project_start_handoff_bundle" (.bool true)).putIn
      "parity_checklist_progress" "ao2_queue_summarizes_project_start_handoff" (.bool true))

/-- The operator summary that an entry refers to is there and unchanged. -/
def checkOperatorSummary (entry : Json) (runId : String) : QueueProg Unit := do
  let summaryPath := memberAsText entry "project_start_operator_summary"
  let expected := memberAsText entry "project_start_operator_summary_sha256"
  let readable ← performQueue (.isFile summaryPath)
  .ofExcept (check readable
    s!"factory queue entry {runId} references missing project_start_operator_summary {summaryPath}")
  let digest ← performQueue (.sha256File summaryPath)
  let actual ← inContext
    s!"hash project_start_operator_summary for queue entry {runId}: {summaryPath}" digest
  .ofExcept (check (!isBlank expected && expected = actual)
    s!"factory queue entry {runId} project_start_operator_summary digest mismatch: expected {expected}, got {actual}")

/-- What is said of an entry that is completed; the files of its closure are not looked at. -/
def factoryQueueStatusDetail (queue entry : Json) (runId : String) : QueueProg Json := do
  let status := memberAsText entry "status"
  .ofExcept (check (factoryQueueStatusIsTerminal status)
    s!"factory queue entry {runId} is not completed yet: status={status}")
  if memberAsText entry "job_kind" = "factory_project_start" then checkOperatorSummary entry runId
  pure (.object [("schema_version", .str "ao2.factory-queue-status.v1"), ("status", .str status),
    ("run_id", .str runId), ("job_kind", .str (memberAsText entry "job_kind")),
    ("queue_path", .str (memberAsText queue "queue_path")), ("entry", entry),
    ("continuity_contract", queue.index "continuity_contract"),
    ("trust_boundary", .object [("execution_owner", .str "ao2"),
      ("factory_v3_role", .str "parity_oracle_only"),
      ("control_plane_role", .str "read_only_observer_after_signed_evidence"),
      ("release_acceptance_owner", .str "factory-v3 evaluator-closer"),
      ("control_plane_approves_release", .bool false), ("mutates_ao_artifacts", .bool false),
      ("provider_auth", .str "local OAuth CLI only; API-key provider auth forbidden")]),
    ("parity_checklist_progress", .object [("ao2_queue_status_detail_is_read_only", .bool true),
      ("ao2_persists_queue_history_cancel_retry_state", .bool true),
      ("factory_v3_drives_workflow", .bool false), ("factory_v3_role", .str "parity_oracle_only"),
      ("control_plane_role", .str "read_only_observer_after_signed_evidence"),
      ("release_acceptance_owner", .str "factory-v3 evaluator-closer")]),
    ("ao2_decision_owner", .str "ao2-workbench-queue")])

/-- The last project start that is completed. -/
def latestProjectStart (entries : List Json) : Except String Json :=
  match entries.reverse.find? fun entry =>
      (entry.get? "job_kind").bind Json.str? = some "factory_project_start" ∧
        factoryQueueStatusIsTerminal (jsonStringOf entry "status") with
  | some entry => .ok entry
  | none => .error "factory queue has no completed project-start entry to close"

/-- The status of an entry in two files: that of the entry and that of the last project start. -/
def writeQueueStatuses (outDir runId : String) (queue entry : Json) : QueueProg (String × String) := do
  let statusPath := joinPath outDir "factory-queue-project-start-status.json"
  let latestPath := joinPath outDir "factory-queue-project-start-latest-status.json"
  let status ← factoryQueueStatusDetail queue entry runId
  let latest ← .ofExcept (latestProjectStart (entriesOf queue))
  let latestStatus ← factoryQueueStatusDetail queue latest (jsonStringOf latest "run_id")
  atomicWrite statusPath (.json status)
  atomicWrite latestPath (.json latestStatus)
  pure (statusPath, latestPath)

/-- An archive, its description and the verification of it. -/
structure Packaged where
  archive : String
  archiveSha256 : String
  description : RecordedFile
  verification : RecordedFile

/-- Package the closure of a project start. -/
def packageClosure (targetRoot runId outDir statusPath latestPath : String) : QueueProg Packaged := do
  let archive := joinPath outDir "project-start-closure.tgz"
  let jsonPath := joinPath outDir "factory-project-start-closure.json"
  let verificationPath := joinPath outDir "factory-project-start-closure-verification.json"
  let packaged ← performQueue (.projectStartClosure statusPath latestPath archive)
  let closure ← orRefuse targetRoot runId "AO2 queue-run-next project-start closure packaging errored"
    s!"package queued AO2 project-start closure {archive}" packaged
  atomicWrite jsonPath (.json closure)
  let archiveSha256 ← sha256File archive
  let jsonSha256 ← sha256File jsonPath
  requireStatus targetRoot runId
    "AO2 queue-run-next project-start closure package was not packaged"
    s!"queued factory project-start closure packaging failed for run_id {runId}: {jsonPath}"
    closure "packaged"
  let verified ← performQueue (.projectStartClosureVerify archive)
  let verification ← orRefuse targetRoot runId
    "AO2 queue-run-next project-start closure verification errored"
    s!"verify queued AO2 project-start closure {archive}" verified
  let verificationSha256 ← writeHashed verificationPath verification
  requireStatus targetRoot runId
    "AO2 queue-run-next project-start closure verification rejected the package"
    s!"queued factory project-start closure verification failed for run_id {runId}: {verificationPath}"
    verification "accepted"
  pure ⟨archive, archiveSha256, ⟨closure, jsonPath, jsonSha256⟩,
    ⟨verification, verificationPath, verificationSha256⟩⟩

/-- Package the replacement packet of a project start. -/
def packageReplacementPacket (targetRoot runId outDir statusPath latestPath : String)
    (closure : Packaged) : QueueProg Packaged := do
  let archive := joinPath outDir "factory-replacement-packet.tgz"
  let jsonPath := joinPath outDir "factory-replacement-packet.json"
  let verificationPath := joinPath outDir "factory-replacement-packet-verification.json"
  let packaged ← performQueue (.replacementPacket
    { queueStatus := statusPath
      latestQueueStatus := latestPath
      closure := closure.archive
      closureVerification := closure.verification.path
      crossOsReadbacks := []
      out := archive })
  let packet ← orRefuse targetRoot runId
    "AO2 queue-run-next project-start replacement packet packaging errored"
    s!"package queued AO2 replacement packet {archive}" packaged
  let jsonSha256 ← writeHashed jsonPath packet
  let archiveSha256 ← sha256File archive
  requireStatus targetRoot runId
    "AO2 queue-run-next project-start replacement packet was not packaged"
    s!"queued factory project-start replacement packet packaging failed for run_id {runId}: {jsonPath}"
    packet "packaged"
  let verified ← performQueue (.replacementPacketVerify archive)
  let verification ← orRefuse targetRoot runId
    "AO2 queue-run-next project-start replacement packet verification errored"
    s!"verify queued AO2 replacement packet {archive}" verified
  let verificationSha256 ← writeHashed verificationPath verification
  requireStatus targetRoot runId
    "AO2 queue-run-next project-start replacement packet verification rejected the package"
    s!"queued factory project-start replacement packet verification failed for run_id {runId}: {verificationPath}"
    verification "accepted"
  pure ⟨archive, archiveSha256, ⟨packet, jsonPath, jsonSha256⟩,
    ⟨verification, verificationPath, verificationSha256⟩⟩

/-- An entry whose project start was packaged. -/
def closedProjectStartEntry (statusPath statusSha256 latestPath latestSha256 : String)
    (closure packet : Packaged) (entry : Json) : Json :=
  ((((entry.putAll [("project_start_queue_status", .str statusPath),
    ("project_start_queue_status_sha256", .str statusSha256),
    ("project_start_latest_queue_status", .str latestPath),
    ("project_start_latest_queue_status_sha256", .str latestSha256),
    ("project_start_closure", .str closure.archive),
    ("project_start_closure_json", .str closure.description.path),
    ("project_start_closure_sha256", .str closure.archiveSha256),
    ("project_start_closure_json_sha256", .str closure.description.sha256),
    ("project_start_closure_status", closure.description.value.index "status"),
    ("project_start_closure_result", closure.description.value),
    ("project_start_closure_verification", .str closure.verification.path),
    ("project_start_closure_verification_sha256", .str closure.verification.sha256),
    ("project_start_closure_verification_status", closure.verification.value.index "status"),
    ("project_start_closure_verification_checks", closure.verification.value.index "checks"),
    ("project_start_closure_verification_result", closure.verification.value),
    ("replacement_packet", .str packet.description.path),
    ("replacement_packet_sha256", .str packet.description.sha256),
    ("replacement_packet_archive", .str packet.archive),
    ("replacement_packet_archive_sha256", .str packet.archiveSha256),
    ("replacement_packet_status", packet.description.value.index "status"),
    ("replacement_packet_result", packet.description.value),
    ("replacement_packet_verification", .str packet.verification.path),
    ("replacement_packet_verification_sha256", .str packet.verification.sha256),
    ("replacement_packet_verification_status", packet.verification.value.index "status"),
    ("replacement_packet_verification_checks", packet.verification.value.index "checks"),
    ("replacement_packet_verification_result", packet.verification.value)]).putIn
    "parity_checklist_progress" "ao2_queue_packages_project_start_closure" (.bool true)).putIn
    "parity_checklist_progress" "ao2_queue_verifies_project_start_closure" (.bool true)).putIn
    "parity_checklist_progress" "ao2_queue_packages_replacement_packet" (.bool true)).putIn
    "parity_checklist_progress" "ao2_queue_verifies_replacement_packet" (.bool true)

def runNextProjectStartResult (runId finalStatus path : String)
    (running entry projectStart refreshed : Json) : Json :=
  .object [("schema_version", .str "ao2.factory-project-start-workbench-queue-run-next.v1"),
    ("run_id", .str runId), ("job_kind", .str "factory_project_start"), ("status", .str finalStatus),
    ("queue_path", .str path), ("claimed_entry", running.index "entry"), ("entry", entry),
    ("project_start", projectStart),
    ("hermes_queue_handoff_schema", .str "ao2.hermes-project-start-handoff.v1"),
    ("continuity_contract", refreshed.index "continuity_contract"),
    ("parity_checklist_progress", .object
      [("ao2_queue_executes_project_start_handoff_job", .bool true),
        ("ao2_queue_verifies_project_start_handoff_bundle", .bool true),
        ("ao2_queue_summarizes_project_start_handoff", .bool true),
        ("ao2_queue_packages_project_start_closure", .bool true),
        ("ao2_queue_verifies_project_start_closure", .bool true),
        ("ao2_queue_packages_replacement_packet", .bool true),
        ("ao2_queue_verifies_replacement_packet", .bool true),
        ("ao2_persists_queue_history_cancel_retry_state", .bool true),
        ("factory_v3_drives_workflow", .bool false), ("factory_v3_role", .str "parity_oracle_only"),
        ("control_plane_role", .str "read_only_observer_after_signed_evidence"),
        ("release_acceptance_owner", .str "factory-v3 evaluator-closer")]),
    ("ao2_decision_owner", .str "ao2-workbench-queue")]

/-- Enter in the queue what the execution of a project start has left, once it is packaged. The queue
is read before and written after the packaging. -/
def completeProjectStart (targetRoot runId outDir : String) (running projectStart : Json)
    (verification summary : RecordedFile) : QueueProg Json := do
  let finalStatus := projectStartFinalStatus projectStart
  let queue ← factoryQueueLoad targetRoot
  let now ← performQueue .now
  let complete := completedProjectStartEntry finalStatus now outDir projectStart verification summary
  let entries := updateEntry runId complete (entriesOf queue)
  let entryForClosure ← .ofExcept (completedEntry (entriesOf queue) runId
    s!"factory queue lost project-start run_id {runId} while preparing closure references" complete)
  let (statusPath, latestPath) ←
    writeQueueStatuses outDir runId (queue.put "entries" (.arr entries)) entryForClosure
  let closure ← packageClosure targetRoot runId outDir statusPath latestPath
  let statusSha256 ← sha256File statusPath
  let latestSha256 ← sha256File latestPath
  let packet ← packageReplacementPacket targetRoot runId outDir statusPath latestPath closure
  let close := closedProjectStartEntry statusPath statusSha256 latestPath latestSha256 closure packet
  let (path, _) ← factoryQueueStore targetRoot
    ((queue.put "entries" (.arr entries)).put "entries" (.arr (updateEntry runId close entries)))
  let refreshed ← factoryQueueLoad targetRoot
  let entry ← .ofExcept (completedEntry entries runId
    s!"factory queue lost project-start run_id {runId} while persisting bundle references" close)
  pure (runNextProjectStartResult runId finalStatus path running entry projectStart refreshed)

def runNextProjectStart (options : FactoryQueueRunNextOptions) (targetRoot : String) (next : Json) :
    QueueProg Json := do
  let runId := jsonStringOf next "run_id"
  let request := next.index "project_start_request"
  let outDir := jsonStringOf request "out_dir"
  checkQueuedProjectStart targetRoot runId request
  let running ← factoryQueueTransition targetRoot runId "running"
    "AO2 queue-run-next claimed project-start handoff job for native execution"
  let executed ← performQueue (.projectStart (projectStartOptions options runId request))
  let projectStart ← orRefuse targetRoot runId
    "AO2 queue-run-next project-start failed before handoff bundle completion"
    s!"execute queued AO2 project-start job {runId}" executed
  let verification ← verifyProjectStartBundle targetRoot runId outDir projectStart
  let summary ← summarizeProjectStart targetRoot runId outDir projectStart verification
  completeProjectStart targetRoot runId outDir running
    (verifiedProjectStart outDir projectStart verification summary) verification summary

/-! ### The next entry -/

def factoryQueueRunNext (options : FactoryQueueRunNextOptions) : QueueProg Json := do
  factoryEnsureTargetRepo options.target
  let targetRoot ← canonicalTarget options.target
  let queue ← factoryQueueLoad targetRoot
  let next ← .ofExcept (nextQueued (entriesOf queue))
  if jsonStringOf next "job_kind" = "factory_project_start" then
    runNextProjectStart options targetRoot next
  else runNextPlan options targetRoot next

end Ao2
