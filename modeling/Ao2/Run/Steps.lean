import Ao2.Run.World

/-!
# The steps of a run

The steps that the workflows are made of: events, artifacts, reviews, closures, repair attempts, the
verifier, the evidence pack and the run record.

A step that takes the run context by reference is a `Cmd` with the context as argument, one that
changes it a `RunM`.
-/

namespace Ao2

open Interaction

variable [Platform]

/-! ### Events and artifacts -/

/-- The event for the current policy. -/
def newEvent (ctx : RunContext) (eventId eventType : String) (roleId taskId : Option String)
    (actor : Actor) (payload : Json) : AoEvent :=
  let event := AoEvent.new eventId ctx.runId ctx.workflowId eventType roleId taskId actor payload
  match ctx.policyDecisions.getLast? with
  | some decision => event.withPolicyIntegrity (integrityBinding decision)
  | none => event

/-- Append an event to the log. The line break is a write of its own. -/
def emit (ctx : RunContext) (eventType : String) (roleId taskId : Option String) (actor : Actor)
    (payload : Json) : Cmd Unit := do
  let eventId ← op (.newId "evt")
  op (.appendEvent (newEvent ctx eventId eventType roleId taskId actor payload))
  op .appendLineBreak

/-- The path of a file of an artifact. -/
def artifactPath (artifactId fileName : String) : String :=
  "artifacts/" ++ artifactId ++ "/" ++ fileName

/-- The file that describes an artifact, next to the artifact's own. -/
def manifestName : String := "artifact.json"

/-- Store an artifact and its manifest. -/
def putText (artifactType producer fileName mediaType : String) (content : Content)
    (inputRefs : List String) : Cmd ArtifactRef := do
  let artifactId ← op (.newId "art")
  op (.putFile (artifactPath artifactId fileName) content)
  let artifact : ArtifactRef := {
    artifactId := artifactId
    artifactType := artifactType
    uri := artifactPath artifactId fileName
    mediaType := mediaType
    digest := content.sha256
    producer := producer
    inputRefs := inputRefs
    sensitivity := "internal" }
  op (.putFile (artifactPath artifactId manifestName) (.json artifact.toJson))
  pure artifact

/-- List an artifact in the run. -/
def artifactCreated (artifact : ArtifactRef) : RunM Unit := do
  modify fun ctx => { ctx with artifacts := ctx.artifacts ++ [artifact] }
  emit (← get) "artifact.created" (some artifact.producer) none (.role artifact.producer)
    (.obj [("artifact_id", .str artifact.artifactId), ("artifact_type", .str artifact.artifactType),
      ("digest", .str artifact.digest), ("uri", .str artifact.uri)])

/-- Store an artifact and list it. -/
def storeArtifact (artifactType producer fileName mediaType : String) (content : Content)
    (inputRefs : List String) : RunM ArtifactRef := do
  let artifact ← putText artifactType producer fileName mediaType content inputRefs
  artifactCreated artifact
  pure artifact

/-- The JSON payloads of the artifacts of a type. A file that is gone is passed over. -/
def artifactJsonPayloads (artifactType : String) : List ArtifactRef → Cmd (List Json)
  | [] => pure []
  | artifact :: artifacts => do
    if artifact.artifactType = artifactType then
      match ← op (.readFile artifact.uri) with
      | none => artifactJsonPayloads artifactType artifacts
      | some (.text _) => bail ("read artifact payload " ++ artifact.uri)
      | some (.json payload) =>
        let payloads ← artifactJsonPayloads artifactType artifacts
        pure (payload :: payloads)
    else artifactJsonPayloads artifactType artifacts

/-- The first artifact of a role and type whose path contains a text. -/
def findArtifact (ctx : RunContext) (roleId artifactType text : String) : Option ArtifactRef :=
  ctx.artifacts.find? fun art =>
    art.producer = roleId && art.artifactType = artifactType && containsText art.uri text

/-- The identifier of such an artifact; the empty text if there is none. -/
def findArtifactId (ctx : RunContext) (roleId artifactType text : String) : String :=
  ((findArtifact ctx roleId artifactType text).map (·.artifactId)).getD ""

/-! ### The run record -/

/-- The digests of the control state of a run. -/
def runRecordIntegrity (ctx : RunContext) : Json :=
  let policyDecisions := Json.arr (ctx.policyDecisions.map (·.toJson))
  let approvalTickets := Json.arr (ctx.approvals.map (·.toJson))
  let controlState := Json.obj [("approval_tickets", approvalTickets),
    ("policy_decisions", policyDecisions), ("run_id", .str ctx.runId)]
  .obj [("approval_tickets_digest", .str (sha256Json approvalTickets)),
    ("control_state_digest", .str (sha256Json controlState)),
    ("policy_decisions_digest", .str (sha256Json policyDecisions)), ("run_id", .str ctx.runId),
    ("schema_version", .str "ao2.run-record-replay-integrity.v1")]

def checkpointType : String := "run.record.integrity.checkpoint"

def evidencePackPath : String := "evidence-pack/evidence-pack.json"

def reportPath : String := "report/index.html"

/-- Log the digests of the control state, then replace the run record. -/
def writeRunRecord (ctx : RunContext) (status : RunStatus) : Cmd Unit := do
  let replayIntegrity := runRecordIntegrity ctx
  emit ctx checkpointType none none .system replayIntegrity
  op (.replaceRecord {
    ctx := ctx
    status := status
    replayIntegrity := some replayIntegrity
    evidencePack := evidencePackPath
    report := reportPath })

/-- Load a run. -/
def loadRunContext (runId : String) : Cmd (RunContext × RunStatus) := do
  match ← op .readRecord with
  | none => bail "read run record"
  | some record => pure ({ record.ctx with runId := runId }, record.status)

/-! ### Tickets -/

/-- Ask for a decision on a request: a pending ticket is listed in the run, and kept with its
request. -/
def issueTicket (key : Option ActionKey) (request : ToolRequest) : RunM ApprovalTicket := do
  let ticketId ← op (.newId "approval")
  let createdAt ← op .utcNow
  let now ← op .utcNow
  let ticket := createApprovalTicket ticketId createdAt now (← get).runId request
  modify fun ctx => { ctx with approvals := replaceTicket ticket ctx.approvals }
  op (.note (.requested key ticketId request))
  op (.replaceApproval ⟨ticket, request⟩)
  pure ticket

/-! ### Child processes -/

/-- `python` is called by its other name where only that exists. -/
def resolveVerifierCommand (command : String) : Cmd String := do
  if command = "python" ∨ ("python ".toList <+: command.toList) then
    let python ← op (.canRun "python")
    let python3 ← op (.canRun "python3")
    if !python && python3 then pure (.ofList ("python3".toList ++ command.toList.drop 6))
    else pure command
  else pure command

/-- A run of the verifier. -/
structure VerifierOutcome where
  artifact : ArtifactRef
  success : Bool
  content : String

/-- The log of a verifier run. -/
def verifierLog (command : String) (out : CommandOutput) : String :=
  "command: " ++ command ++ "\nexit_code: " ++ toString (out.exitCode.getD (-1)) ++ "\nstdout:\n" ++
    out.stdout ++ "\nstderr:\n" ++ out.stderr ++ "\n"

def runVerifier : RunM VerifierOutcome := do
  let command ← resolveVerifierCommand (← get).verifierCommand
  emit (← get) "role.started" (some "test-engineer") (some "run_python_tests")
    (.role "test-engineer") (.obj [("command", .str command)])
  match ← op (.runCommand .verifier command) with
  | .error _ => bail ("run verifier with " ++ command)
  | .ok out =>
    let content := verifierLog command out
    let testLog ← storeArtifact "test_log" "test-engineer" "pytest.log" "text/plain"
      (.text content) []
    emit (← get) (if out.success then "task.completed" else "task.failed") (some "test-engineer")
      (some "run_python_tests") (.role "test-engineer")
      (.obj [("command", .str command), ("exit_code", .num (out.exitCode.getD (-1))),
        ("output_digest", .str (sha256Text content))])
    pure ⟨testLog, out.success, content⟩

/-! ### Reviews -/

/-- A step of a role that stores one artifact between a start and a completion event. The three
reviewer steps are this one with their own texts. -/
def reviewStep (taskId fileName : String) (body : Json) (inputRefs : List String)
    (completed : Json) : RunM ArtifactRef := do
  emit (← get) "role.started" (some "reviewer") (some taskId) (.role "reviewer")
    (.obj [("status", .str "started")])
  let review ← storeArtifact "review" "reviewer" fileName "application/json" (.json body) inputRefs
  emit (← get) "role.completed" (some "reviewer") (some taskId) (.role "reviewer") completed
  pure review

def reviewerAcceptRealProject (verifier : ArtifactRef) : RunM ArtifactRef :=
  reviewStep "real_project_review" "review-accepted.json"
    (.obj [("concerns", .arr []),
      ("summary", .str
        "Provider patch passed the workflow verifier for the real-project template."),
      ("verifier_artifact", .str verifier.artifactId)])
    [verifier.artifactId]
    (.obj [("concerns", .arr []), ("status", .str "completed")])

def reviewerVerifierFailure (verifier : ArtifactRef) : RunM ArtifactRef :=
  reviewStep "real_project_verifier_failure" "review-verifier-failed.json"
    (.obj [("concerns", .arr [.obj [("artifact", .str verifier.artifactId),
      ("id", .str "verifier_failed"),
      ("reason", .str "Provider patch did not pass the workflow verifier."),
      ("required_resolution", .str "Repair the patch until the verifier exits successfully."),
      ("severity", .str "high")]])])
    [verifier.artifactId]
    (.obj [("concerns", .strs ["verifier_failed"]), ("status", .str "completed")])

def reviewerConcern : RunM ArtifactRef :=
  reviewStep "review_missing_tests" "review.json"
    (.obj [("concerns", .arr [.obj [("artifact", .str "first-patch"),
      ("id", .str "review_missing_tests"),
      ("reason", .str
        "Implementation changed validation behavior but did not add tests for invalid inputs."),
      ("required_resolution", .str
        "Add tests for negative price and discount rates outside 0..1."),
      ("severity", .str "high")]])])
    []
    (.obj [("concerns", .strs ["review_missing_tests"]), ("status", .str "completed")])

/-! ### Closures -/

/-- The cost line of a closure report. -/
def providerCostSummary (ctx : RunContext) : Cmd String := do
  let summaries ← artifactJsonPayloads "provider_transcript_summary" ctx.artifacts
  if summaries.isEmpty then pure "estimated_local_only_cost=0"
  else
    -- a cost that is not a number is not reported; costs are kept out of the values otherwise
    let reported := (summaries.filter fun s => (s.get? "cost_usd").any fun c => c ≠ .null).length
    let tokens := (summaries.filterMap (·.get? "usage")).map fun usage =>
      max (usage.natMember "total_tokens")
        (usage.natMember "input_tokens" + usage.natMember "output_tokens")
    pure ("observed_provider_cost_usd=" ++ observedCostUsd summaries ++
      "; provider_summary_count=" ++ toString summaries.length ++
      "; cost_reported_summary_count=" ++ toString reported ++
      "; total_tokens=" ++ toString (tokens.foldl (· + ·) 0))

/-- Record a closure verdict. The three closer steps are this one with their own texts. -/
def closeRun (verdict : String) (criteria evidenceRefs unresolved : List String)
    (fileName eventType taskId : String) : RunM Unit := do
  let costSummary ← providerCostSummary (← get)
  let createdAt ← op .utcNow
  let report : ClosureReport := {
    verdict := verdict
    acceptanceCriteriaResults := criteria
    evidenceRefs := evidenceRefs
    unresolvedConcerns := unresolved
    blockers := []
    policyExceptions := []
    costSummary := costSummary
    createdAt := createdAt }
  modify fun ctx => { ctx with closureReports := ctx.closureReports ++ [report] }
  let _ ← storeArtifact "closure_report" "evaluator-closer" fileName "application/json"
    (.json report.toJson) evidenceRefs
  emit (← get) eventType (some "evaluator-closer") (some taskId) (.role "evaluator-closer")
    report.toJson

def rejectForMissingTests (review : ArtifactRef) : RunM Unit :=
  closeRun "rejected" ["validation implementation exists", "invalid-input tests missing"]
    [review.artifactId] ["review_missing_tests"] "closure-rejected.json" "closure.rejected"
    "closure_first_pass"

def acceptFinal (testLog : ArtifactRef) : RunM Unit :=
  closeRun "accepted"
    ["negative prices raise ValueError: mapped to pytest evidence",
      "discount rates below 0 raise ValueError: mapped to pytest evidence",
      "discount rates above 1 raise ValueError: mapped to pytest evidence",
      "valid discounts still calculate correctly: mapped to pytest evidence",
      "risky git push was denied before execution",
      "narrow repository write was exact-digest approved"]
    [testLog.artifactId] [] "closure-accepted.json" "closure.accepted" "closure_final"

def rejectRealProjectVerifierFailure (review verifier : ArtifactRef) : RunM Unit :=
  closeRun "rejected"
    ["provider patch applied through sandbox exact-digest gate", "workflow verifier failed"]
    [review.artifactId, verifier.artifactId] ["verifier_failed"] "closure-rejected.json"
    "closure.rejected" "real_project_closure_failed"

def acceptRealProjectFinal (testLog review : ArtifactRef) : RunM Unit := do
  let ctx ← get
  let acceptance :=
    if ctx.acceptance.isEmpty then
      ["workflow verifier passed", "provider patch applied through sandbox exact-digest gate",
        "risky git push was denied before execution"]
    else ctx.acceptance.map (· ++ ": mapped to verifier evidence")
  closeRun "accepted"
    (acceptance ++ ["risky git push was denied before execution",
      "repository changes were promoted through exact-digest sandbox apply"])
    [testLog.artifactId, review.artifactId] [] "closure-accepted.json" "closure.accepted"
    "real_project_closure_final"

/-! ### Repair attempts -/

def recordRepairAttempt (attempt : RepairAttempt) : RunM Unit := do
  modify fun ctx => { ctx with repairAttempts := ctx.repairAttempts ++ [attempt] }
  let _ ← storeArtifact "repair_attempt" "implementer"
    ("repair-attempt-" ++ toString attempt.attempt ++ ".json") "application/json"
    (.json attempt.toJson) attempt.evidenceRefs

def recordRepairBudgetExhausted (trigger : String) (review : ArtifactRef) : RunM Unit := do
  let createdAt ← op .utcNow
  let attempt : RepairAttempt := {
    attempt := 0
    trigger := trigger
    status := "budget_exhausted"
    evidenceRefs := [review.artifactId]
    summary := "Repair budget exhausted before any repair attempt was allowed."
    createdAt := createdAt }
  recordRepairAttempt attempt
  emit (← get) "repair.budget.exhausted" (some "evaluator-closer") (some "repair_budget_exhausted")
    (.role "evaluator-closer") attempt.toJson

/-! ### Evidence pack and report -/

/-- The markers of an evidence pack. -/
def runMarkers (ctx : RunContext) : List String :=
  let concern (c : String) := ctx.closureReports.any fun r => c ∈ r.unresolvedConcerns
  ["policy_denied_git_push"] ++
    (if ctx.isRealProjectTemplate then ["real_project_template"] else []) ++
    (if concern "review_missing_tests" then ["review_missing_tests"] else []) ++
    (if concern "verifier_failed" then ["verifier_failed"] else []) ++
    (if ctx.repairAttempts.any (·.status = "budget_exhausted") then ["repair_budget_exhausted"]
      else []) ++
    (if ctx.artifacts.any (·.artifactType = "repair_source_context") then ["repair_source_context"]
      else [])

/-- The verdict of the last closure. -/
def lastVerdict (ctx : RunContext) : String :=
  (ctx.closureReports.getLast?.map (·.verdict)).getD "blocked"

def exportEvidencePack (ctx : RunContext) : Cmd Unit := do
  let providerSummaries ← artifactJsonPayloads "provider_transcript_summary" ctx.artifacts
  let repairSources ← artifactJsonPayloads "repair_source_context" ctx.artifacts
  op (.putFile evidencePackPath (.json (.obj [
    ("approvals", .arr (ctx.approvals.map (·.toJson))),
    ("artifacts", .arr (ctx.artifacts.map (·.toJson))),
    ("closures", .arr (ctx.closureReports.map (·.toJson))),
    ("factory_v3_compatibility", .ofOption id ctx.factoryV3Compatibility),
    ("markers", .strs (runMarkers ctx)),
    ("objective", .str ctx.objective),
    ("policy_decisions", .arr (ctx.policyDecisions.map (·.toJson))),
    ("provider_summaries", .arr providerSummaries),
    ("repair_attempts", .arr (ctx.repairAttempts.map (·.toJson))),
    ("repair_source", .ofOption id repairSources.getLast?),
    ("roles", .strs ctx.roles),
    ("run_id", .str ctx.runId),
    ("schema_version", .str "ao2.evidence-pack.v1"),
    ("template_kind", .ofOption .str ctx.templateKind),
    ("verdict", .str (lastVerdict ctx)),
    ("verifier_command", .str ctx.verifierCommand),
    ("workflow_dependencies", .arr ctx.workflowDependencies),
    ("workflow_id", .str ctx.workflowId),
    ("workflow_tasks", .arr ctx.workflowTasks)])))

/-- Write the report. Of its text only what a reader of the run sees first is kept. -/
def renderStaticReport (ctx : RunContext) : Cmd Unit :=
  op (.putFile reportPath (.text ("AO2 Risky PR Run " ++ ctx.runId ++ ": " ++ lastVerdict ctx)))

end Ao2
