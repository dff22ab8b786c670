import Ao2.Run.ProviderPatch

/-!
# The workflows of a run

What a resumed run does once it may go on: the scripted fixture, the provider-free tasks of a real
project, and the provider workflows with their task graphs and repair loops.
-/

namespace Ao2

open Interaction

variable [Platform]

/-! ### The scripted fixture -/

/-- Write a file of the target repository. -/
def writeTarget (kind : WriteKind) (path content : String) : Cmd Unit := do
  match ← op (.writeTarget kind path content) with
  | .error _ => bail ("write " ++ path)
  | .ok () => pure ()

def recordScriptedAdapterTranscript : RunM Unit := do
  let result : Json := .obj [("blocker", .null), ("command", .str "scripted://deterministic-role"),
    ("exit_code", .num 0), ("provider", .str "scripted"), ("role_id", .str "implementer"),
    ("stderr", .str ""), ("stdout", .str ""),
    ("transcript", .str ("scripted implementer adapter executed after policy approval; " ++
      "wrote validation patch under repo-write-no-network scope"))]
  let _ ← storeArtifact "adapter_transcript" "implementer" "adapter-transcript.json"
    "application/json" (.json result) []
  emit (← get) "adapter.completed" (some "implementer") (some "scripted_adapter_transcript")
    (.role "implementer") result

def firstPatchText : String :=
  "def calculate_discount(price: float, discount_rate: float) -> float:\n" ++
  "    if price < 0:\n        raise ValueError(\"price must be non-negative\")\n" ++
  "    if discount_rate < 0 or discount_rate > 1:\n" ++
  "        raise ValueError(\"discount_rate must be between 0 and 1\")\n" ++
  "    return price * (1 - discount_rate)\n"

def applyFirstPatch : RunM Unit := do
  emit (← get) "role.started" (some "implementer") (some "implementer_first_patch")
    (.role "implementer") (.obj [("status", .str "started")])
  writeTarget .firstPatch "discount_service/discounts.py" firstPatchText
  recordScriptedAdapterTranscript
  let _ ← storeArtifact "patch_summary" "implementer" "first-patch.md" "text/markdown"
    (.text ("Updated `discount_service/discounts.py` with validation. " ++
      "Tests were not updated in this pass.")) []
  emit (← get) "role.completed" (some "implementer") (some "implementer_first_patch")
    (.role "implementer")
    (.obj [("blockers", .arr []), ("concerns", .arr []), ("status", .str "completed")])

def correctionPatchText : String :=
  "import pytest\n\nfrom discount_service.discounts import calculate_discount\n\n\n" ++
  "def test_calculates_discount_for_valid_values():\n" ++
  "    assert calculate_discount(100, 0.25) == 75\n\n\n" ++
  "def test_rejects_negative_price():\n    with pytest.raises(ValueError):\n" ++
  "        calculate_discount(-1, 0.1)\n\n\n" ++
  "def test_rejects_discount_rate_below_zero():\n    with pytest.raises(ValueError):\n" ++
  "        calculate_discount(100, -0.1)\n\n\n" ++
  "def test_rejects_discount_rate_above_one():\n    with pytest.raises(ValueError):\n" ++
  "        calculate_discount(100, 1.1)\n"

def applyCorrectionPatch : RunM Unit := do
  writeTarget .correctionPatch "tests/test_discounts.py" correctionPatchText
  let _ ← storeArtifact "patch_summary" "implementer" "correction-patch.md" "text/markdown"
    (.text "Added tests resolving `review_missing_tests`.") []

/-! ### Repair after a rejected review -/

/-- One finished repair attempt, recorded and logged. -/
def finishRepairAttempt (attempt : RepairAttempt) (eventType roleId taskId : String) :
    RunM Unit := do
  recordRepairAttempt attempt
  emit (← get) eventType (some roleId) (some taskId) (.role roleId) attempt.toJson

/-- The attempts from `attempt` on, `left` of them. -/
def repairAfterRejectionFrom (maxAttempts : ℕ) (review : ArtifactRef) :
    (attempt left : ℕ) → RunM (Option ArtifactRef)
  | _, 0 => do
    recordRepairBudgetExhausted "verifier_failed" review
    pure none
  | attempt, left + 1 => do
    emit (← get) "repair.attempt.started" (some "implementer")
      (some "repair_after_reviewer_rejection") (.role "implementer")
      (.obj [("attempt", .nat attempt), ("max_attempts", .nat maxAttempts),
        ("trigger", .str "review_missing_tests")])
    applyCorrectionPatch
    let verifier ← runVerifier
    let createdAt ← op .utcNow
    let evidenceRefs := [review.artifactId, verifier.artifact.artifactId]
    if verifier.success then
      finishRepairAttempt
        { attempt := attempt
          trigger := "review_missing_tests"
          status := "accepted"
          evidenceRefs := evidenceRefs
          summary := "Applied repair after reviewer rejection and verifier passed."
          createdAt := createdAt }
        "repair.attempt.completed" "implementer" "repair_after_reviewer_rejection"
      pure (some verifier.artifact)
    else
      finishRepairAttempt
        { attempt := attempt
          trigger := "verifier_failed"
          status := "failed"
          evidenceRefs := evidenceRefs
          summary := "Verifier failed during repair attempt " ++ toString attempt ++ "."
          createdAt := createdAt }
        "repair.attempt.failed" "test-engineer" "repair_verifier_failed"
      repairAfterRejectionFrom maxAttempts review (attempt + 1) left

def runRepairLoopAfterRejection (maxAttempts : ℕ) (review : ArtifactRef) :
    RunM (Option ArtifactRef) :=
  repairAfterRejectionFrom maxAttempts review 1 maxAttempts

/-! ### Repair prompts -/

def shellSingleQuote (value : String) : String :=
  "'" ++ "'\"'\"'".intercalate ((value.toList.splitOn '\'').map .ofList) ++ "'"

def buildScriptedRepairPrompt (originalPrompt : String) (attempt : ℕ)
    (verifierOutput providerSummariesJson : String) : String :=
  "export AO2_REPAIR_ATTEMPT=" ++ shellSingleQuote (toString attempt) ++
    "\nexport AO2_REPAIR_TRIGGER=verifier_failed\nexport AO2_REPAIR_VERIFIER_OUTPUT=" ++
    shellSingleQuote verifierOutput ++ "\nexport AO2_REPAIR_PROVIDER_SUMMARIES=" ++
    shellSingleQuote providerSummariesJson ++ "\n# AO2_REPAIR_CONTEXT_BEGIN\n" ++
    "# Previous verifier output is available in AO2_REPAIR_VERIFIER_OUTPUT.\n" ++
    "# Prior provider summaries are available in AO2_REPAIR_PROVIDER_SUMMARIES.\n" ++
    "# AO2_REPAIR_CONTEXT_END\n" ++ originalPrompt

def buildRealProjectRepairPrompt (provider : ProviderKind) (originalPrompt : String) (attempt : ℕ)
    (verifier : VerifierOutcome) (providerSummaries : List Json) : String :=
  let summaries := prettyJson (.arr providerSummaries)
  match provider with
  | .scripted => buildScriptedRepairPrompt originalPrompt attempt verifier.content summaries
  | .codex | .claude | .antigravity =>
    "You are repairing a real-project AO2 run after the workflow verifier failed.\n\n" ++
      "Repair attempt: " ++ toString attempt ++ "\n\nOriginal task:\n" ++ originalPrompt ++
      "\n\nPrevious verifier output:\n```text\n" ++ verifier.content ++
      "\n```\n\nPrior provider transcript summaries:\n```json\n" ++ summaries ++
      "\n```\n\nMake the smallest repository change needed for the verifier to pass. Preserve " ++
      "the original task intent, report changed files, and do not perform network, publish, or " ++
      "destructive actions.\n"

/-- Store the prompt of a repair attempt; its artifact and its text. -/
def recordRealProjectRepairPrompt (provider : ProviderKind) (originalPrompt : String)
    (attempt : ℕ) (verifier : VerifierOutcome) (review : ArtifactRef) :
    RunM (ArtifactRef × String) := do
  let summaries ← artifactJsonPayloads "provider_transcript_summary" (← get).artifacts
  let prompt := buildRealProjectRepairPrompt provider originalPrompt attempt verifier summaries
  let summaryArtifacts :=
    (← get).artifacts.filter (·.artifactType = "provider_transcript_summary")
  let artifact ← storeArtifact "repair_prompt" "implementer"
    ("repair-prompt-" ++ toString attempt ++ ".txt") "text/plain" (.text prompt)
    ([review.artifactId, verifier.artifact.artifactId] ++ summaryArtifacts.map (·.artifactId))
  emit (← get) "repair.prompt.created" (some "implementer")
    (some "real_project_structured_repair_prompt") (.role "implementer")
    (.obj [("attempt", .nat attempt), ("provider", .str provider.name),
      ("repair_prompt_artifact", .str artifact.artifactId),
      ("verifier_artifact", .str verifier.artifact.artifactId),
      ("verifier_output_digest", .str (sha256Text verifier.content))])
  pure (artifact, prompt)

/-! ### Repair of a real project -/

/-- The attempts from `attempt` on, `left` of them, after a verifier run that failed. The answer is
the log of the verifier run that passed; there is none when the budget is used up and when an
attempt waits for a decision. -/
def realProjectRepairFrom (provider : ProviderKind) (prompt : String) (maxAttempts : ℕ)
    (review : ArtifactRef) :
    (attempt left : ℕ) → (lastVerifier : VerifierOutcome) → RunM (Option ArtifactRef)
  | _, 0, _ => do
    recordRepairBudgetExhausted "verifier_failed" review
    pure none
  | attempt, left + 1, lastVerifier => do
    emit (← get) "repair.attempt.started" (some "implementer")
      (some "real_project_repair_after_verifier_failure") (.role "implementer")
      (.obj [("attempt", .nat attempt), ("max_attempts", .nat maxAttempts),
        ("trigger", .str "verifier_failed")])
    let (promptArtifact, repairPrompt) ←
      recordRealProjectRepairPrompt provider prompt attempt lastVerifier review
    let status ← applyProviderPromptPatchForRole (implementerKey (.repairAttempt attempt)) provider
      repairPrompt none
    if status = .waitingForApproval then
      pure none
    else
      let verifier ← runVerifier
      let createdAt ← op .utcNow
      let evidenceRefs := [review.artifactId, lastVerifier.artifact.artifactId,
        promptArtifact.artifactId, verifier.artifact.artifactId]
      if verifier.success then
        finishRepairAttempt
          { attempt := attempt
            trigger := "verifier_failed"
            status := "accepted"
            evidenceRefs := evidenceRefs
            summary := "Ran structured repair prompt with verifier context and verifier passed."
            createdAt := createdAt }
          "repair.attempt.completed" "implementer" "real_project_repair_after_verifier_failure"
        pure (some verifier.artifact)
      else
        finishRepairAttempt
          { attempt := attempt
            trigger := "verifier_failed"
            status := "failed"
            evidenceRefs := evidenceRefs
            summary := "Verifier failed during real-project repair attempt " ++ toString attempt ++
              " after structured repair prompt."
            createdAt := createdAt }
          "repair.attempt.failed" "test-engineer" "real_project_repair_verifier_failed"
        realProjectRepairFrom provider prompt maxAttempts review (attempt + 1) left verifier

def runRealProjectRepairLoop (provider : ProviderKind) (prompt : String) (maxAttempts : ℕ)
    (review : ArtifactRef) (initialVerifier : VerifierOutcome) : RunM (Option ArtifactRef) :=
  realProjectRepairFrom provider prompt maxAttempts review 1 maxAttempts initialVerifier

/-! ### Task graphs -/

/-- The identifier of a workflow task. -/
def taskId (task : Json) : Except String String :=
  match (task.get? "id").bind Json.str? with
  | some id => .ok id
  | none => .error "SDD workflow task id is required"

/-- The identifiers of the tasks. -/
def taskIds : List Json → Except String (List String)
  | [] => .ok []
  | task :: tasks => do
    let id ← taskId task
    let ids ← taskIds tasks
    pure (id :: ids)

/-- The dependencies between known tasks, each as the dependent task and the one it needs. -/
def taskDependencies (ids : List String) : List Json → Except String (List (String × String))
  | [] => .ok []
  | dependency :: rest =>
    match (dependency.get? "to").bind Json.str? with
    | none => taskDependencies ids rest
    | some task =>
      if task ∉ ids then taskDependencies ids rest
      else
        match (dependency.get? "from").bind Json.str? with
        | none => .error ("SDD workflow dependency into " ++ task ++ " is missing from")
        | some source =>
          if source ∉ ids then
            .error ("SDD workflow task " ++ task ++ " depends on unknown task " ++ source)
          else do
            let dependencies ← taskDependencies ids rest
            pure ((task, source) :: dependencies)

/-- Every task that `id` needs is completed. -/
def taskReady (dependencies : List (String × String)) (completed : List String) (id : String) :
    Bool :=
  dependencies.all fun d => d.1 ≠ id || completed.contains d.2

/-- One pass over the tasks: whatever is ready and not completed is taken. -/
def taskPass (dependencies : List (String × String)) :
    List Json → (completed : List String) → (ordered : List Json) →
    Except String (List String × List Json)
  | [], completed, ordered => .ok (completed, ordered)
  | task :: tasks, completed, ordered => do
    let id ← taskId task
    if completed.contains id then taskPass dependencies tasks completed ordered
    else if taskReady dependencies completed id then
      taskPass dependencies tasks (completed ++ [id]) (ordered ++ [task])
    else taskPass dependencies tasks completed ordered

/-- Passes until every task is taken, or a pass takes none. A pass that takes one brings the end
nearer, so as many passes as there are tasks are enough. -/
def taskPasses (dependencies : List (String × String)) (tasks : List Json) :
    ℕ → (completed : List String) → (ordered : List Json) → Except String (List Json)
  | passes, completed, ordered =>
    if tasks.length ≤ ordered.length then .ok ordered
    else
      match passes with
      | 0 => .error "SDD workflow task graph contains a dependency cycle"
      | passes + 1 => do
        let (completed', ordered') ← taskPass dependencies tasks completed ordered
        if ordered'.length = ordered.length then
          .error "SDD workflow task graph contains a dependency cycle"
        else taskPasses dependencies tasks passes completed' ordered'

/-- The tasks of an SDD plan in an order that respects their dependencies; nothing for a workflow of
another kind. -/
def sddWorkflowTaskOrder (ctx : RunContext) : Except String (Option (List Json)) :=
  let schema := (ctx.factoryV3Compatibility.bind (·.get? "source_schema")).bind Json.str?
  if schema ≠ some "ao2.sdd-plan.v1" then .ok none
  else do
    let ids ← taskIds ctx.workflowTasks
    let dependencies ← taskDependencies ids ctx.workflowDependencies
    let ordered ← taskPasses dependencies ctx.workflowTasks ctx.workflowTasks.length [] []
    pure (some ordered)

def providerPromptForSddTask (provider : ProviderKind) (basePrompt : String) (task : Json)
    (ordinal total : ℕ) : Except String String := do
  let id ← taskId task
  let place := toString ordinal ++ "/" ++ toString total ++ ": " ++ id
  if provider = .scripted then pure ("# AO2 SDD task " ++ place ++ "\n" ++ basePrompt)
  else
    pure ("Execute only this dependency-ordered AO2 SDD task.\n\nTask " ++ place ++
      "\n\nTask contract:\n```json\n" ++ prettyJson task ++
      "\n```\n\nOverall governed-run instruction:\n" ++ basePrompt ++ "\n")

/-- The action of a workflow task. -/
def taskKey (id : String) : ActionKey := ⟨id, .sddProviderTask⟩

/-- The tasks from the one with number `ordinal` on. -/
def sddTasksFrom (provider : ProviderKind) (prompt : String) (total : ℕ) :
    (ordinal : ℕ) → List Json → RunM RunStatus
  | _, [] => pure .accepted
  | ordinal, task :: tasks => do
    let id : String ← orBail (taskId task)
    let taskPrompt : String ← orBail (providerPromptForSddTask provider prompt task ordinal total)
    let status ← applyProviderPromptPatchForRole (taskKey id) provider taskPrompt (some id)
    if status = .waitingForApproval then pure .waitingForApproval
    else sddTasksFrom provider prompt total (ordinal + 1) tasks

def runSddProviderTaskGraph (provider : ProviderKind) (prompt : String) (tasks : List Json) :
    RunM RunStatus :=
  sddTasksFrom provider prompt tasks.length 1 tasks

/-! ### The provider workflow -/

/-- From the first verifier run of a real project on: a verdict, or repair. -/
def concludeRealProject (provider : ProviderKind) (prompt : String) (maxRepairAttempts : ℕ) :
    RunM RunStatus := do
  let verifier ← runVerifier
  if verifier.success then
    let review ← reviewerAcceptRealProject verifier.artifact
    acceptRealProjectFinal verifier.artifact review
    pure .accepted
  else
    let review ← reviewerVerifierFailure verifier.artifact
    if maxRepairAttempts = 0 then
      rejectRealProjectVerifierFailure review verifier.artifact
      recordRepairBudgetExhausted "verifier_failed" review
      pure .rejected
    else
      match ← runRealProjectRepairLoop provider prompt maxRepairAttempts review verifier with
      | some testLog =>
        let repairReview ← reviewerAcceptRealProject testLog
        acceptRealProjectFinal testLog repairReview
        pure .accepted
      | none =>
        if (← get).hasPending then pure .waitingForApproval
        else
          rejectRealProjectVerifierFailure review verifier.artifact
          pure .rejected

def runRealProjectProviderWorkflow (provider : ProviderKind) (prompt : String)
    (maxRepairAttempts : ℕ) : RunM RunStatus := do
  let order : Option (List Json) ← orBail (sddWorkflowTaskOrder (← get))
  let status ←
    match order with
    | some tasks => runSddProviderTaskGraph provider prompt tasks
    | none => applyProviderPromptPatch provider prompt
  if status = .waitingForApproval then pure .waitingForApproval
  else concludeRealProject provider prompt maxRepairAttempts

/-- The provider workflow of a run that is not a real project: one patch, one review that always
asks for tests, and scripted repair. -/
def runFixtureProviderWorkflow (provider : ProviderKind) (prompt : String)
    (maxRepairAttempts : ℕ) : RunM RunStatus := do
  let status ← applyProviderPromptPatch provider prompt
  if status = .waitingForApproval then
    pure status
  else
    let review ← reviewerConcern
    rejectForMissingTests review
    if maxRepairAttempts = 0 then
      recordRepairBudgetExhausted "review_missing_tests" review
      pure .rejected
    else
      match ← runRepairLoopAfterRejection maxRepairAttempts review with
      | some testLog =>
        acceptFinal testLog
        pure .accepted
      | none => pure .rejected

/-- The provider workflow of a run. -/
def runProviderWorkflow (provider : ProviderKind) (prompt : String) (maxRepairAttempts : ℕ) :
    RunM RunStatus := do
  if (← get).isRealProjectTemplate then
    runRealProjectProviderWorkflow provider prompt maxRepairAttempts
  else runFixtureProviderWorkflow provider prompt maxRepairAttempts

/-! ### The repair source -/

def recordRepairSourceContext (source : RepairSourceContext) : RunM ArtifactRef := do
  let digest := Json.ofOption .str (source.latestVerifierOutput.map sha256Text)
  let artifact ← storeArtifact "repair_source_context" "operator" "repair-source-context.json"
    "application/json"
    (.json (.obj [("evidence_pack_path", .str source.evidencePackPath),
      ("evidence_refs", .strs source.evidenceRefs),
      ("latest_verifier_output", .ofOption .str source.latestVerifierOutput),
      ("latest_verifier_output_digest", digest), ("run_health", source.runHealth),
      ("schema_version", .str "ao2.repair-source.v1"),
      ("source_run_id", .str source.sourceRunId), ("source_verdict", .str source.sourceVerdict),
      ("unresolved_concerns", .strs source.unresolvedConcerns)])) []
  emit (← get) "repair.source.loaded" (some "operator") (some "repair_resume_from_evidence")
    .humanLocal
    (.obj [("latest_verifier_output_digest", digest),
      ("repair_source_artifact", .str artifact.artifactId),
      ("source_run_id", .str source.sourceRunId), ("source_verdict", .str source.sourceVerdict)])
  pure artifact

def buildProviderPromptWithRepairSource (provider : ProviderKind) (originalPrompt : String)
    (source : RepairSourceContext) : String :=
  let runHealth := prettyJson source.runHealth
  let unresolvedConcerns := prettyJson (.strs source.unresolvedConcerns)
  let evidenceRefs := prettyJson (.strs source.evidenceRefs)
  let verifierOutput := source.latestVerifierOutput.getD ""
  match provider with
  | .scripted =>
    "export AO2_REPAIR_SOURCE_RUN_ID=" ++ shellSingleQuote source.sourceRunId ++
      "\nexport AO2_REPAIR_RUN_HEALTH=" ++ shellSingleQuote runHealth ++
      "\nexport AO2_REPAIR_UNRESOLVED_CONCERNS=" ++ shellSingleQuote unresolvedConcerns ++
      "\nexport AO2_REPAIR_EVIDENCE_REFS=" ++ shellSingleQuote evidenceRefs ++
      "\nexport AO2_REPAIR_VERIFIER_OUTPUT=" ++ shellSingleQuote verifierOutput ++
      "\n# AO2_REPAIR_SOURCE_CONTEXT_BEGIN\n# Prior run health, unresolved concerns, evidence " ++
      "refs, and verifier output are available in AO2_REPAIR_* variables.\n" ++
      "# AO2_REPAIR_SOURCE_CONTEXT_END\n" ++ originalPrompt
  | .codex | .claude | .antigravity =>
    "You are repairing an AO2 run from signed evidence.\n\nSource run: " ++ source.sourceRunId ++
      "\nSource verdict: " ++ source.sourceVerdict ++ "\n\nRun health:\n```json\n" ++ runHealth ++
      "\n```\n\nUnresolved concerns:\n```json\n" ++ unresolvedConcerns ++
      "\n```\n\nEvidence refs:\n```json\n" ++ evidenceRefs ++
      "\n```\n\nLatest verifier output:\n```text\n" ++ verifierOutput ++
      "\n```\n\nUse the prior evidence only as context. Make the smallest repository change " ++
      "needed to satisfy the workflow verifier, preserve the original task intent, report " ++
      "changed files, and do not perform network, publish, or destructive actions.\n\n" ++
      "Original repair task:\n" ++ originalPrompt ++ "\n"

/-- The prompt of a provider run; a run that repairs another one records its source first. -/
def providerPrompt (options : ProviderRunOptions) : RunM String := do
  match options.repairSource with
  | some source =>
    let _ ← recordRepairSourceContext source
    pure (buildProviderPromptWithRepairSource options.provider options.prompt source)
  | none => pure options.prompt

/-! ### Provider-free tasks -/

def defaultDeniedPatterns : List String :=
  ["git push", "git tag", "gh release", "npm publish", "cargo publish", "twine upload", "curl ",
    "wget ", "scp ", "ssh ", "rsync "]

/-- The trimmed texts of an array of non-empty strings, numbered from `index`. -/
def nonEmptyStrings (message : ℕ → String) : ℕ → List Json → Except String (List String)
  | _, [] => .ok []
  | index, item :: items =>
    match (item.str?.map trim).filter (· ≠ "") with
    | none => .error (message index)
    | some s => do
      let rest ← nonEmptyStrings message (index + 1) items
      pure (s :: rest)

/-- The first of the patterns, numbered from `index`, that occurs in a text. -/
def firstDenied (lower : String) : ℕ → List String → Option ℕ
  | _, [] => none
  | index, pattern :: patterns =>
    if containsText lower (lowercase pattern) then some index
    else firstDenied lower (index + 1) patterns

def validateProviderFreeCommand (index : ℕ) (command : String) (taskDeniedPatterns : List String) :
    Except String Unit :=
  let lower := lowercase command
  let name := "provider_free.commands[" ++ toString index ++ "]"
  if defaultDeniedPatterns.any (containsText lower) then
    .error (name ++ " is not allowed by provider-free local policy: " ++ command)
  else
    match firstDenied lower 0 taskDeniedPatterns with
    | some p =>
      .error ("provider_free.policy.denied_patterns[" ++ toString p ++ "] blocked " ++ name ++
        ": " ++ command)
    | none => .ok ()

def providerFreeDeniedPatterns (providerFree : Json) : Except String (List String) :=
  match (providerFree.get? "policy").bind (·.get? "denied_patterns") with
  | none => .ok []
  | some patterns =>
    match patterns.arr? with
    | none => .error "provider_free.policy.denied_patterns must be an array"
    | some patterns =>
      nonEmptyStrings (fun index => "provider_free.policy.denied_patterns[" ++ toString index ++
        "] must be a non-empty string") 0 patterns

/-- Each command is read and validated before the next one is looked at. -/
def validatedCommands (taskDeniedPatterns : List String) :
    ℕ → List Json → Except String (List String)
  | _, [] => .ok []
  | index, item :: items =>
    match (item.str?.map trim).filter (· ≠ "") with
    | none =>
      .error ("provider_free.commands[" ++ toString index ++ "] must be a non-empty string")
    | some command => do
      validateProviderFreeCommand index command taskDeniedPatterns
      let rest ← validatedCommands taskDeniedPatterns (index + 1) items
      pure (command :: rest)

def providerFreeTaskCommands (task : Json) : Except String (List String) :=
  match task.get? "provider_free" with
  | none => .ok []
  | some providerFree =>
    match (providerFree.get? "commands").bind Json.arr? with
    | none => .ok []
    | some commands => do
      let taskDeniedPatterns ← providerFreeDeniedPatterns providerFree
      validatedCommands taskDeniedPatterns 0 commands

/-- The commands of a task from the one with number `index` on; the artifacts of their logs. -/
def providerFreeCommandsFrom (id : String) : ℕ → List String → RunM (List String)
  | _, [] => pure []
  | index, rawCommand :: commands => do
    let command ← resolveVerifierCommand rawCommand
    emit (← get) "task.started" (some id) (some id) (.role id)
      (.obj [("command", .str command), ("command_index", .nat index),
        ("provider_free", .bool true)])
    match ← op (.runCommand .providerFreeTask command) with
    | .error _ => bail ("run provider-free command for " ++ id ++ ": " ++ command)
    | .ok out =>
      let exitCode := Json.num (out.exitCode.getD (-1))
      let artifact ← storeArtifact "provider_free_command_log" id
        (id.map (fun c => if c = '/' then '_' else c) ++ "-provider-free-command-" ++
          toString (index + 1) ++ ".json") "application/json"
        (.json (.obj [("command", .str command), ("command_index", .nat index),
          ("exit_code", exitCode), ("schema_version", .str "ao2.provider-free-command-log.v1"),
          ("stderr", .str out.stderr), ("stdout", .str out.stdout),
          ("success", .bool out.success), ("task_id", .str id)])) []
      emit (← get) (if out.success then "task.completed" else "task.failed") (some id) (some id)
        (.role id)
        (.obj [("artifact", .str artifact.artifactId), ("command", .str command),
          ("command_index", .nat index), ("exit_code", exitCode), ("provider_free", .bool true)])
      if out.success then
        let rest ← providerFreeCommandsFrom id (index + 1) commands
        pure (artifact.artifactId :: rest)
      else bail ("provider-free command failed for " ++ id ++ ": " ++ command)

def runProviderFreeTaskCommands (task : Json) (id : String) : RunM (List String) := do
  let commands : List String ← orBail (providerFreeTaskCommands task)
  providerFreeCommandsFrom id 0 commands

/-- The tasks of a plan, one after the other. -/
def providerFreeTasksFrom : List Json → RunM Unit
  | [] => pure ()
  | task :: tasks => do
    let id : String ← orBail (taskId task)
    emit (← get) "role.started" (some id) (some id) (.role id)
      (.obj [("provider_free", .bool true), ("status", .str "started")])
    let commandLogs ← runProviderFreeTaskCommands task id
    let summary ← storeArtifact "provider_free_task_summary" id
      (id ++ "-provider-free-summary.json") "application/json"
      (.json (.obj [("changed_files", .arr []), ("command_log_artifacts", .strs commandLogs),
        ("provider_free", .bool true), ("status", .str "completed"),
        ("summary", .str ("AO2 provider-free SDD task recorded without applying " ++
          "fixture-specific repository patches.")),
        ("task_id", .str id)])) commandLogs
    emit (← get) "role.completed" (some id) (some id) (.role id)
      (.obj [("artifact", .str summary.artifactId), ("changed_files", .arr []),
        ("command_log_artifacts", .strs commandLogs), ("provider_free", .bool true),
        ("status", .str "completed")])
    providerFreeTasksFrom tasks

def recordProviderFreeRealProjectTasks : RunM Unit := do
  let order : Option (List Json) ← orBail (sddWorkflowTaskOrder (← get))
  let tasks := order.getD []
  if tasks.isEmpty then
    emit (← get) "role.started" (some "implementer") (some "real_project_provider_free")
      (.role "implementer") (.obj [("status", .str "started")])
    emit (← get) "role.completed" (some "implementer") (some "real_project_provider_free")
      (.role "implementer")
      (.obj [("changed_files", .arr []), ("provider_free", .bool true),
        ("status", .str "completed")])
  else providerFreeTasksFrom tasks

def runRealProjectProviderFreeWorkflow : RunM Unit := do
  recordProviderFreeRealProjectTasks
  let verifier ← runVerifier
  if verifier.success then
    let review ← reviewerAcceptRealProject verifier.artifact
    acceptRealProjectFinal verifier.artifact review
  else
    let review ← reviewerVerifierFailure verifier.artifact
    rejectRealProjectVerifierFailure review verifier.artifact
    bail ("verifier failed: " ++ verifier.content)

/-- The scripted workflow of a run that is not a real project. -/
def runFixtureProviderFreeWorkflow : RunM Unit := do
  applyFirstPatch
  let review ← reviewerConcern
  rejectForMissingTests review
  applyCorrectionPatch
  let verifier ← runVerifier
  if verifier.success then acceptFinal verifier.artifact
  else bail ("verifier failed: " ++ verifier.content)

end Ao2
