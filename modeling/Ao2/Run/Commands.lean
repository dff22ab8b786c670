import Ao2.Run.Workflow

/-!
# The commands on a run

The entry points of the runtime: a run is started, its tickets are approved, and it is resumed. Each command is a program of its own; what one knows of another is what it finds in the
run directory.
-/

namespace Ao2

open Interaction

variable [Platform]

/-! ### What every command begins with -/

def failOnForbiddenKeys : List String → Cmd Unit
  | [] => pure ()
  | key :: keys => do
    match ← op (.envVar key) with
    | some _ => bail ("forbidden provider API key present in environment: " ++ key)
    | none => failOnForbiddenKeys keys

def failOnForbiddenProviderApiKeys : Cmd Unit := failOnForbiddenKeys forbiddenProviderApiKeys

def ensureTargetRepo : Cmd Unit := do
  if ← op .targetExists then pure () else bail "target repo does not exist"

/-! ### Start -/

/-- The write that the scripted first patch makes, as a request; a real project asks for the patches
of its provider in general. -/
def safeRequest (isRealProject : Bool) : ToolRequest :=
  let resource :=
    if isRealProject then "provider_sandbox_patch" else "discount_service/discounts.py"
  { principal := "role:implementer"
    tool := "filesystem"
    operation := "write_file"
    resource := resource
    args := ["write_file", resource]
    expectedSideEffects := ["repo_write"] }

/-- The push that is denied in every run. -/
def riskyRequest : ToolRequest where
  principal := "role:implementer"
  tool := "git"
  operation := "push"
  resource := "origin main"
  args := ["push", "origin", "main"]
  expectedSideEffects := ["external_write"]

def pushDecision (decision : PolicyDecision) : RunM Unit :=
  modify fun ctx => { ctx with policyDecisions := ctx.policyDecisions ++ [decision] }

def simulatePolicyDenialAndPendingApproval : RunM ApprovalTicket := do
  emit (← get) "tool.requested" (some "implementer") (some "policy_denied_git_push")
    (.role "implementer") riskyRequest.toJson
  let decisionId ← op (.newId "pol")
  let decidedAt ← op .utcNow
  let decision := deny decisionId decidedAt riskyRequest
    "git push is an external write and is denied in local MVP"
  pushDecision decision
  emit (← get) "tool.denied" (some "implementer") (some "policy_denied_git_push") .system
    decision.toJson
  let safe := safeRequest (← get).isRealProjectTemplate
  let safeDecisionId ← op (.newId "pol")
  let safeDecidedAt ← op .utcNow
  pushDecision (evaluate safeDecisionId safeDecidedAt safe)
  let pending ← issueTicket none safe
  emit (← get) "approval.requested" (some "implementer") (some "approve_discount_patch") .system
    pending.toJson
  pure pending

/-- The file list of a plan. -/
def planFileList (files : List String) : String :=
  if files.isEmpty then "- no files discovered"
  else "\n".intercalate (files.map fun file => "- `" ++ file ++ "`")

/-- The acceptance criteria of a plan. -/
def planAcceptanceList (ctx : RunContext) : String :=
  let criteria :=
    if ctx.acceptance.isEmpty then
      ["verifier command passes", "patch stays scoped to the workflow objective",
        "replay has zero digest failures"]
    else ctx.acceptance
  "\n".intercalate (criteria.map ("- " ++ ·))

def planText (ctx : RunContext) (files : List String) : String :=
  "# Scoped Plan\n\nObjective: " ++ ctx.objective ++ "\n\nLikely files:\n" ++ planFileList files ++
    "\n\nExpected verifier:\n- `" ++ ctx.verifierCommand ++
    "`\n\nRisks:\n- broad file writes must be blocked\n- external git push must be denied\n\n" ++
    "Acceptance criteria:\n" ++ planAcceptanceList ctx ++ "\n"

/-- The working copy that a run starts with. -/
def initialContext (runId : String) (workflow : WorkflowSpec) : RunContext where
  runId := runId
  workflowId := workflow.workflowId
  templateKind := workflow.templateKind
  objective := workflow.objective
  roles := workflow.roles
  workflowTasks := workflow.tasks
  workflowDependencies := workflow.dependencies
  factoryV3Compatibility := workflow.factoryV3Compatibility
  acceptance := workflow.acceptance
  verifierCommand := workflow.verifierCommand
  artifacts := []
  policyDecisions := []
  approvals := []
  closureReports := []
  repairAttempts := []

/-- What a start does once it has its working copy. -/
def startBody (workflowPath : String) : RunM ApprovalTicket := do
  let ctx ← get
  emit ctx "run.created" none none .system
    (.obj [("objective", .str ctx.objective), ("status", .str "created"),
      ("workflow_path", .str workflowPath)])
  emit ctx "run.compiled" none none .system
    (.obj [("factory_v3_compatibility", .ofOption id ctx.factoryV3Compatibility),
      ("factory_v3_drives_workflow", .bool false), ("roles", .strs ctx.roles),
      ("status", .str "compiled"), ("workflow_dependencies", .arr ctx.workflowDependencies),
      ("workflow_id", .str ctx.workflowId), ("workflow_tasks", .arr ctx.workflowTasks)])
  let sources : List String ← orBail (← op (.repoFileInventory 80))
  let context ← storeArtifact "context_bundle" "planner" "context.json" "application/json"
    (.json (.obj [("redactions", .arr []), ("role_scope", .str "planner"),
      ("sources", .strs sources), ("template_kind", .ofOption .str ctx.templateKind)])) []
  let files : List String ← orBail (← op (.repoFileInventory 12))
  let _ ← storeArtifact "plan" "planner" "plan.md" "text/markdown" (.text (planText ctx files))
    [context.artifactId]
  let ticket ← simulatePolicyDenialAndPendingApproval
  writeRunRecord (← get) .waitingForApproval
  pure ticket

/-- **Start a run.** The answer is the ticket it waits for. -/
def startRiskyPrProviderFree (runId workflowPath : String) : Cmd ApprovalTicket := do
  failOnForbiddenProviderApiKeys
  ensureTargetRepo
  let parsed : WorkflowSpec ← orBail (← op (.readWorkflow workflowPath))
  let workflow : WorkflowSpec ← orBail parsed.check
  op (.note .started)
  let (ticket, _) ← startBody workflowPath (initialContext runId workflow)
  pure ticket

/-! ### Approve -/

/-- What an approval does once it holds the lock of the run. -/
def approveLocked (runId ticketId approver : String) : Cmd ApprovalTicket := do
  match ← op (.readApproval ticketId) with
  | none => bail "read approval"
  | some stored =>
    if stored.ticket.status = "approved" then pure stored.ticket
    else
      let granted : ApprovalTicket ← orBail (grantExact stored.ticket approver stored.request)
      op (.note (.granted granted.ticketId stored.request))
      op (.replaceApproval ⟨granted, stored.request⟩)
      let (loaded, _) ← loadRunContext runId
      let ctx := { loaded with approvals := replaceTicket granted loaded.approvals }
      emit ctx "approval.granted" (some "implementer") (some "approve_discount_patch") .humanLocal
        granted.toJson
      writeRunRecord ctx .waitingForApproval
      pure granted

/-- **Approve a ticket.** The lock of the run is held from before the ticket is read until the
command ends, in whichever way it ends. -/
def approveRiskyPrTicket (runId ticketId approver : String) : Cmd ApprovalTicket := do
  failOnForbiddenProviderApiKeys
  ensureTargetRepo
  if ← op (.approvalExists ticketId) then
    op .acquireLock
    (approveLocked runId ticketId approver).ensuring .releaseLock
  else bail ("approval ticket not found: " ++ ticketId)

/-! ### Resume -/

/-- What a command reports of a run. -/
structure RunSummary where
  runId : String
  status : RunStatus
  deniedActions : List PolicyDecision
  approvals : List ApprovalTicket
  rejectionCount : ℕ

def summarise (ctx : RunContext) (status : RunStatus) : RunSummary where
  runId := ctx.runId
  status := status
  deniedActions := deniedActions ctx.policyDecisions
  approvals := ctx.approvals
  rejectionCount := (ctx.closureReports.filter (·.verdict = "rejected")).length

/-- Export the evidence, write the record, and report. -/
def finishRun (ctx : RunContext) (status : RunStatus) : Cmd RunSummary := do
  exportEvidencePack ctx
  renderStaticReport ctx
  writeRunRecord ctx status
  pure (summarise ctx status)

/-- The report of a run that was accepted before. -/
def summaryFromAcceptedRecord (runId : String) : Cmd RunSummary := do
  let (ctx, status) ← loadRunContext runId
  if status ≠ .accepted then bail ("run " ++ runId ++ " is not accepted")
  else pure (summarise ctx status)

/-- Forget which tickets were used: the list is of one session. -/
def clearConsumed : Cmd Unit := do
  op (.note .cleared)
  match ← op .readConsumed with
  | some _ => op .removeConsumed
  | none => pure ()

/-- A provider session: the prompt, an empty list of consumed tickets, the workflow, the evidence. -/
def providerSession (options : ProviderRunOptions) : RunM RunStatus := do
  let prompt ← providerPrompt options
  clearConsumed
  runProviderWorkflow options.provider prompt options.maxRepairAttempts

/-- What a resumed run does when it may go on. -/
def resumeBody (ctx : RunContext) : Cmd RunSummary := do
  match ← op .readOptions with
  | .torn => bail "provider options do not parse"
  | .written options =>
    let (status, ctx') ← providerSession options ctx
    finishRun ctx' status
  | .absent =>
    if ctx.isRealProjectTemplate then
      let (_, ctx') ← runRealProjectProviderFreeWorkflow ctx
      finishRun ctx' .accepted
    else
      let (_, ctx') ← runFixtureProviderFreeWorkflow ctx
      finishRun ctx' .accepted

/-- **Resume a run.** -/
def resumeRiskyPrProviderFree (runId : String) : Cmd RunSummary := do
  failOnForbiddenProviderApiKeys
  ensureTargetRepo
  let (ctx, status) ← loadRunContext runId
  if status = .accepted then summaryFromAcceptedRecord runId
  else if status ≠ .waitingForApproval then
    bail ("run " ++ runId ++ " is not resumable from status " ++ status.name)
  else if ctx.hasPending then bail ("run " ++ runId ++ " is waiting for approval before resume")
  else resumeBody ctx

/-! ### The provider run -/

/-- The first pending ticket for a sandbox patch. -/
def pendingSandboxTicket (ctx : RunContext) : Option ApprovalTicket :=
  ctx.approvals.find? fun t => t.status = "pending" && t.requestedAction = "sandbox:apply"

/-- Approve and resume as long as the run waits for a sandbox patch. The loop is cut after a number
of rounds; a run that is cut ends like one whose process stops, without another write. -/
def autoApproveLoop (runId approver : String) :
    (rounds : ℕ) → RunContext → RunStatus → Cmd (RunContext × RunStatus)
  | 0, _, _ => bail "stopped"
  | rounds + 1, ctx, status => do
    if status = .waitingForApproval then
      match pendingSandboxTicket ctx with
      | none => pure (ctx, status)
      | some ticket =>
        let _ ← approveRiskyPrTicket runId ticket.ticketId approver
        let resumed ← resumeRiskyPrProviderFree runId
        let (ctx', _) ← loadRunContext runId
        autoApproveLoop runId approver rounds ctx' resumed.status
    else pure (ctx, status)

/-- Approve for the operator where the environment asks for it and names an approver. -/
def autoApprove (runId : String) (rounds : ℕ) (ctx : RunContext) (status : RunStatus) :
    Cmd (RunContext × RunStatus) := do
  let approver ← op (.envVar "AO2_AUTO_APPROVE_SANDBOX_PATCH_APPROVER")
  if status = .waitingForApproval then
    let enabled ← op (.envVar "AO2_AUTO_APPROVE_SANDBOX_PATCH")
    match enabled, approver.filter (!isBlank ·) with
    | some _, some approver => autoApproveLoop runId approver rounds ctx status
    | _, _ => pure (ctx, status)
  else pure (ctx, status)

/-- Keep the options of a provider run for its resumptions. -/
def writeProviderOptions (options : ProviderRunOptions) : Cmd Unit := do
  op .createOptions
  op (.fillOptions options)

/-- **Start a run with a provider**: its first ticket is approved at once, and the provider's first
session is part of the start. -/
def runRiskyPrWithProviderPrompt (runId : String) (options : ProviderRunOptions) (rounds : ℕ) :
    Cmd RunSummary := do
  let waiting ← startRiskyPrProviderFree runId options.workflowPath
  let _ ← approveRiskyPrTicket runId waiting.ticketId "human:local-user"
  let (ctx, status) ← loadRunContext runId
  if status ≠ .waitingForApproval then
    bail ("provider-backed run " ++ runId ++ " cannot continue from status " ++ status.name)
  else if !ctx.approvals.any (·.status = "approved") then
    bail ("provider-backed run " ++ runId ++ " is waiting for approval")
  else
    writeProviderOptions options
    let (status, ctx) ← providerSession options ctx
    let (ctx, status) ← autoApprove runId rounds ctx status
    finishRun ctx status

/-! ### Histories -/

/-- Something that happens to a run directory or to the target repository. -/
inductive Call where
  | start (workflowPath : String)
  | startProvider (options : ProviderRunOptions) (rounds : ℕ)
  | approve (ticketId approver : String)
  | resume
  /-- The target repository is changed from outside. -/
  | editTarget (target : Repo)
  /-- The files of a persisted sandbox are changed from outside. -/
  | editSandbox (dir : String) (tree : Tree)

/-- The program of a command; an edit is no command. -/
def Call.program (runId : String) : Call → Cmd Unit
  | start workflowPath => do let _ ← startRiskyPrProviderFree runId workflowPath
  | startProvider options rounds => do let _ ← runRiskyPrWithProviderPrompt runId options rounds
  | approve ticketId approver => do let _ ← approveRiskyPrTicket runId ticketId approver
  | resume => do let _ ← resumeRiskyPrProviderFree runId
  | editTarget _ | editSandbox .. => pure ()

/-- What an edit leaves. -/
def Call.edit : Call → World → World
  | editTarget target, w => { w with target := target }
  | editSandbox dir tree, w =>
    { w with sandboxes := Function.update w.sandboxes dir ((w.sandboxes dir).map fun _ => tree) }
  | _, w => w

/-- A call, and the number of operations after which its process stops, if it does. -/
structure Step where
  call : Call
  stop : Option ℕ

namespace World

/-- A stopped process holds no lock. -/
def reboot (w : World) : World := { w with locked := false }

/-- The world after a call. -/
def step (runId : String) (s : Step) (w : World) : World :=
  match s.stop with
  | none => (runMachine.run (s.call.program runId) (s.call.edit w)).2
  | some n => (runMachine.runFor n (s.call.program runId) (s.call.edit w)).reboot

/-- The world after a history. -/
def steps (runId : String) : List Step → World → World
  | [], w => w
  | s :: ss, w => steps runId ss (w.step runId s)

@[simp] theorem steps_nil (runId : String) (w : World) : w.steps runId [] = w := rfl

@[simp] theorem steps_cons (runId : String) (s : Step) (ss : List Step) (w : World) :
    w.steps runId (s :: ss) = (w.step runId s).steps runId ss := rfl

/-- **Invariants of histories**: what one call keeps, every history keeps. -/
theorem steps_induction {P : World → Prop} {runId : String} {ss : List Step} {w : World}
    (h : P w) (step : ∀ s ∈ ss, ∀ w, P w → P (w.step runId s)) : P (w.steps runId ss) := by
  induction ss generalizing w with
  | nil => exact h
  | cons s ss ih =>
    exact ih (step s (.head ss) w h) fun t ht => step t (.tail s ht)

end World

/-- A history without stops. -/
def undisturbed (calls : List Call) : List Step := calls.map (⟨·, none⟩)

/-! ### Small runs

The surroundings that concrete histories are computed in: a workflow with one role, a repository
with one file, and a provider that always proposes the same content for it. -/

def smallWorkflow (templateKind : Option String) : WorkflowSpec where
  id := "wf"
  version := "1"
  templateKind := templateKind
  objective := "obj"
  roles := ["implementer"]
  tasks := []
  dependencies := []
  factoryV3Compatibility := none
  verifierCommand := "true"
  acceptance := []

def smallTree (content : String) : Tree := [("a", .file content 420)]

def smallRepo (content : String) : Repo where
  present := true
  gitCommonDir := some "/g"
  gitHead := some "0123456789012345678901234567890123456789"
  tree := smallTree content

/-- Child processes answer whether they succeed, and leave a repository. -/
def smallEnv (clock : ℕ → DateTime) (templateKind : Option String) (command : Repo → Bool × Repo) :
    Env where
  clock := clock
  var _ _ := none
  workflow _ _ := .ok (smallWorkflow templateKind)
  inventory _ _ := .ok []
  provider _ := .ok ⟨.null, false, .obj [], smallTree "y"⟩
  command _ repo := (.ok ⟨(command repo).1, some 0, "", ""⟩, (command repo).2)
  canRun _ _ := true
  fault _ := none

end Ao2
