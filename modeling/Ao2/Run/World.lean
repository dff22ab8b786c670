import Ao2.Interaction.Stateful
import Ao2.Patch
import Mathlib.Logic.Function.Basic

/-!
# The state of a run

What a command holds in memory while it works on a run, and what it leaves in the run directory.
Paths are relative to the run directory; the target repository and the run directory are fixed.

The operations that the runtime's commands perform, each a single read or write of one file or a
question to something outside (the clock, a provider, a verifier), and the machine that gives them
their meaning on a `World`: the run directory, the target repository, and an environment that holds
every answer the run directory does not determine.

The environment is indexed by the number of operations performed so far, so that nothing is assumed
about any two of its answers. Identifiers are numbered by the same count and so never repeat.
-/

namespace Ao2

/-! ### Workflows and provider options -/

/-- A workflow file, parsed. -/
structure WorkflowSpec where
  id : String
  version : String
  templateKind : Option String
  objective : String
  roles : List String
  tasks : List Json
  dependencies : List Json
  factoryV3Compatibility : Option Json
  verifierCommand : String
  acceptance : List String

def WorkflowSpec.workflowId (w : WorkflowSpec) : String := w.id ++ "@" ++ w.version

/-- The checks a workflow has to pass once it is parsed. -/
def WorkflowSpec.check (w : WorkflowSpec) : Except String WorkflowSpec :=
  if isBlank w.id then .error "workflow id is required"
  else if isBlank w.version then .error "workflow version is required"
  else if isBlank w.objective then .error "workflow objective is required"
  else if w.roles.isEmpty then .error "workflow roles are required"
  else if isBlank w.verifierCommand then .error "workflow verifier command is required"
  else .ok w

inductive ProviderKind where
  | codex | claude | antigravity | scripted
  deriving DecidableEq

def ProviderKind.name : ProviderKind → String
  | codex => "codex"
  | claude => "claude"
  | antigravity => "antigravity"
  | scripted => "scripted"

/-- The run that a repair starts from. -/
structure RepairSourceContext where
  sourceRunId : String
  evidencePackPath : String
  sourceVerdict : String
  runHealth : Json
  unresolvedConcerns : List String
  evidenceRefs : List String
  latestVerifierOutput : Option String

/-- How a provider run was asked for; kept in the run directory for its resumptions. -/
structure ProviderRunOptions where
  workflowPath : String
  provider : ProviderKind
  prompt : String
  maxRepairAttempts : ℕ
  repairSource : Option RepairSourceContext

/-! ### The working copy -/

/-- The working copy of a run. -/
structure RunContext where
  runId : String
  workflowId : String
  templateKind : Option String
  objective : String
  roles : List String
  workflowTasks : List Json
  workflowDependencies : List Json
  factoryV3Compatibility : Option Json
  acceptance : List String
  verifierCommand : String
  artifacts : List ArtifactRef
  policyDecisions : List PolicyDecision
  approvals : List ApprovalTicket
  closureReports : List ClosureReport
  repairAttempts : List RepairAttempt

namespace RunContext

def isRealProjectTemplate (ctx : RunContext) : Bool := ctx.templateKind == some "real_project"

/-- Some ticket of the run waits for a decision. -/
def hasPending (ctx : RunContext) : Bool := ctx.approvals.any (·.status = "pending")

end RunContext

/-- Put a ticket in the place of the one with its id, or at the end. -/
def replaceTicket (ticket : ApprovalTicket) : List ApprovalTicket → List ApprovalTicket
  | [] => [ticket]
  | existing :: tickets =>
    if existing.ticketId = ticket.ticketId then ticket :: tickets
    else existing :: replaceTicket ticket tickets

/-- The decisions that a summary lists as denied. -/
def deniedActions (decisions : List PolicyDecision) : List PolicyDecision :=
  decisions.filter fun d => d.decision = "deny" ∨ d.decision = "requires_approval"

/-! ### The run directory -/

/-- A ticket with the request it stands for, as `approvals/<id>.json` holds it. -/
structure StoredApproval where
  ticket : ApprovalTicket
  request : ToolRequest

/-- `run-record.json`, as its reader takes it. -/
structure RunRecord where
  ctx : RunContext
  status : RunStatus
  replayIntegrity : Option Json
  evidencePack : String
  report : String

/-- `provider-options.json`. It is not replaced in one step: between its creation and the end of
its writing there is a file that does not parse. -/
inductive OptionsFile where
  | absent
  | torn
  | written (options : ProviderRunOptions)

/-- `events.jsonl`: the closed lines, and the texts after the last line break. An event and its
line break are two writes, so a line may hold more than one text, and then does not parse. -/
structure EventLog where
  lines : List (List AoEvent)
  tail : List AoEvent

namespace EventLog

/-- The log with one more text. -/
def append (log : EventLog) (e : AoEvent) : EventLog := { log with tail := log.tail ++ [e] }

/-- The log with its last line closed. -/
def breakLine (log : EventLog) : EventLog := ⟨log.lines ++ [log.tail], []⟩

end EventLog

/-- What a file that the runtime writes holds. -/
inductive Content where
  | json (value : Json)
  | text (value : String)

/-- The digest recorded for a file. -/
def Content.sha256 [Platform] : Content → String
  | .json value => sha256Pretty value
  | .text value => sha256Text value

/-! ### Provider actions -/

/-- What a provider is asked to do, as file names and events spell it. -/
inductive ActionId where
  | providerPromptPatch
  | sddProviderTask
  | repairAttempt (n : ℕ)
  deriving DecidableEq

def ActionId.name : ActionId → String
  | providerPromptPatch => "provider_prompt_patch"
  | sddProviderTask => "sdd_provider_task"
  | repairAttempt n => "repair_attempt_" ++ toString n

/-- A provider action: the role that performs it, and what it is asked to do. -/
structure ActionKey where
  roleId : String
  actionId : ActionId
  deriving DecidableEq

namespace ActionKey

/-- The requester of the tickets for the action. -/
def principal (key : ActionKey) : String := "role:" ++ key.roleId

/-- The directory that keeps the provider's sandbox while its patch waits for a decision. -/
def sandboxDir (key : ActionKey) : String := "sandbox-" ++ key.roleId ++ "-" ++ key.actionId.name

/-- The artifact whose presence says that the provider has run. -/
def summaryFilename (key : ActionKey) : String :=
  "provider-transcript-summary-" ++ key.actionId.name ++ ".json"

end ActionKey

end Ao2

/-! ## The world a run lives in -/

namespace Ao2

open Interaction

/-! ### What the environment answers -/

/-- What a provider left behind. -/
structure SandboxRun where
  adapter : Json
  blocker : Bool
  transcriptSummary : Json
  sandbox : Tree

/-- How a child process ended. -/
structure CommandOutput where
  success : Bool
  exitCode : Option ℤ
  stdout : String
  stderr : String

/-- Everything that decides about a run from outside of its directory. -/
structure Env where
  /-- The clock at each moment. -/
  clock : ℕ → DateTime
  /-- The environment variables. -/
  var : ℕ → String → Option String
  /-- The workflow file at a path: it is missing, it does not parse, or it is what it says. -/
  workflow : ℕ → String → Except String WorkflowSpec
  /-- The inventory of the target repository, up to a number of files. -/
  inventory : ℕ → ℕ → Except String (List String)
  /-- The provider, on a copy of the target. -/
  provider : ℕ → Except String SandboxRun
  /-- A child process in the target repository, and the repository it leaves. -/
  command : ℕ → Repo → Except String CommandOutput × Repo
  /-- Whether a program can be run at all. -/
  canRun : ℕ → String → Bool
  /-- The error of a write to the target repository, if it fails. -/
  fault : ℕ → Option String

/-! ### The history -/

/-- A write to the target repository. -/
inductive WriteKind where
  | firstPatch
  | correctionPatch
  | sandboxPatch (key : ActionKey) (digest : String)
  deriving DecidableEq

/-- An entry of the history. -/
inductive Obs where
  /-- A run is started. -/
  | started
  /-- A session begins, and the list of consumed tickets is gone. -/
  | cleared
  /-- A ticket was asked for, by an action or by the start of the run. -/
  | requested (key : Option ActionKey) (ticketId : String) (request : ToolRequest)
  /-- A ticket was granted for a request. -/
  | granted (ticketId : String) (request : ToolRequest)
  /-- An action looked for a ticket for a patch. -/
  | sought (key : ActionKey) (digest : String) (found : Option String)
  /-- An action was refused because of a ticket for another patch. -/
  | stale (key : ActionKey) (ticketId current : String)
  /-- An action was cleared to apply a patch on a ticket. -/
  | authorised (key : ActionKey) (ticketId digest : String)
  /-- An action has applied the whole patch. -/
  | applied (key : ActionKey) (ticketId digest : String)
  /-- A write to the target, its moment, and the tickets the run held then. -/
  | wrote (kind : WriteKind) (moment : DateTime) (held : List ApprovalTicket)
  /-- A verifier ran. -/
  | verified (success : Bool)
  deriving DecidableEq

/-! ### Operations -/

/-- What a child process is run for. -/
inductive CommandPurpose where
  | verifier | providerFreeTask
  deriving DecidableEq

/-- The operations of the runtime. -/
inductive Op where
  | newId (label : String)
  | utcNow
  | envVar (name : String)
  | canRun (program : String)
  | targetExists
  | readWorkflow (path : String)
  | repoFileInventory (limit : ℕ)
  -- the event log
  | appendEvent (e : AoEvent)
  | appendLineBreak
  | readEvents
  -- artifacts, evidence pack, report
  | putFile (path : String) (content : Content)
  | readFile (path : String)
  -- the run record
  | readRecord
  | replaceRecord (r : RunRecord)
  -- approvals
  | approvalExists (ticketId : String)
  | readApproval (ticketId : String)
  | replaceApproval (s : StoredApproval)
  | acquireLock
  | releaseLock
  -- provider options and consumed tickets
  | readOptions
  | createOptions
  | fillOptions (o : ProviderRunOptions)
  | readConsumed
  | replaceConsumed (ids : List String)
  | removeConsumed
  -- sandboxes
  | sandboxExists (dir : String)
  | readSandbox (dir : String)
  | createSandbox (dir : String)
  | copySandboxEntry (dir path : String) (node : Node)
  | removeSandboxEntry (dir path : String)
  | removeSandbox (dir : String)
  -- the target repository and child processes
  | readTarget
  | writeTarget (kind : WriteKind) (path content : String)
  | applyOperation (kind : WriteKind) (dir : String) (o : SandboxPatchOperation)
  | runProvider (provider : ProviderKind) (roleId prompt : String)
  | runCommand (purpose : CommandPurpose) (command : String)
  -- the history
  | note (o : Obs)

/-- The answer to an operation. -/
@[reducible] def Op.Ans : Op → Type
  | newId _ => String
  | utcNow => DateTime
  | envVar _ => Option String
  | canRun _ | targetExists | approvalExists _ | sandboxExists _ => Bool
  | readWorkflow _ => Except String WorkflowSpec
  | repoFileInventory _ => Except String (List String)
  | readEvents => EventLog
  | readFile _ => Option Content
  | readRecord => Option RunRecord
  | readApproval _ => Option StoredApproval
  | readOptions => OptionsFile
  | readConsumed => Option (List String)
  | readSandbox _ => Option Tree
  | readTarget => Repo
  | writeTarget .. | applyOperation .. => Except String Unit
  | runProvider .. => Except String SandboxRun
  | runCommand .. => Except String CommandOutput
  | appendEvent _ | appendLineBreak | putFile .. | replaceRecord _ | replaceApproval _
  | acquireLock | releaseLock | createOptions | fillOptions _ | replaceConsumed _
  | removeConsumed | createSandbox _ | copySandboxEntry .. | removeSandboxEntry ..
  | removeSandbox _ | note _ => Unit

/-- The interface between the commands and the world. -/
abbrev RunSig : Signature := ⟨Op, Op.Ans⟩

/-- A command, or a step of one: a program over the interface that may stop with a message. -/
abbrev Cmd := Prog RunSig String

/-- A step that works on the run context. -/
abbrev RunM := StateT RunContext Cmd

/-- Perform one operation. -/
def op (o : Op) : Cmd o.Ans := (Prog.ask o .done : Prog RunSig String (RunSig.Ans o))

/-- Go on with a result, or stop with its message. -/
def orBail {α : Type} (result : Except String α) : Cmd α := .ofExcept result

/-- Stop with a message. -/
def bail {α : Type} (message : String) : Cmd α := .fail message

/-! ### The world -/

/-- The run directory, the target repository, the environment and the history. -/
structure World where
  record : Option RunRecord
  approvals : String → Option StoredApproval
  options : OptionsFile
  consumed : Option (List String)
  sandboxes : String → Option Tree
  files : String → Option Content
  log : EventLog
  locked : Bool
  target : Repo
  env : Env
  /-- The number of operations performed so far. -/
  tick : ℕ
  trace : List Obs

namespace World

/-- The world before anything was done: no run directory yet. -/
def fresh (target : Repo) (env : Env) : World where
  record := none
  approvals := fun _ => none
  options := .absent
  consumed := none
  sandboxes := fun _ => none
  files := fun _ => none
  log := ⟨[], []⟩
  locked := false
  target := target
  env := env
  tick := 0
  trace := []

/-- The time of the next operation. -/
def now (w : World) : DateTime := w.env.clock w.tick

/-- The tickets of the run record. -/
def held (w : World) : List ApprovalTicket := (w.record.map (·.ctx.approvals)).getD []

/-- One more operation was performed. -/
def count (w : World) : World := { w with tick := w.tick + 1 }

/-- Add to the history. -/
def observe (o : Obs) (w : World) : World := { w with trace := w.trace ++ [o] }

/-- The identifier with a number. -/
def numberedId (label : String) (n : ℕ) : String := label ++ "-" ++ toString n

/-- The answer to an operation and what it leaves, the count of operations aside. -/
def effect : (o : Op) → World → o.Ans × World
  | .newId label, w => (numberedId label w.tick, w)
  | .utcNow, w => (w.now, w)
  | .envVar name, w => (w.env.var w.tick name, w)
  | .canRun program, w => (w.env.canRun w.tick program, w)
  | .targetExists, w => (w.target.present, w)
  | .readWorkflow path, w => (w.env.workflow w.tick path, w)
  | .repoFileInventory limit, w => (w.env.inventory w.tick limit, w)
  | .appendEvent e, w => ((), { w with log := w.log.append e })
  | .appendLineBreak, w => ((), { w with log := w.log.breakLine })
  | .readEvents, w => (w.log, w)
  | .putFile path content, w => ((), { w with files := Function.update w.files path content })
  | .readFile path, w => (w.files path, w)
  | .readRecord, w => (w.record, w)
  | .replaceRecord r, w => ((), { w with record := some r })
  | .approvalExists id, w => ((w.approvals id).isSome, w)
  | .readApproval id, w => (w.approvals id, w)
  | .replaceApproval s, w =>
    ((), { w with approvals := Function.update w.approvals s.ticket.ticketId s })
  | .acquireLock, w => ((), { w with locked := true })
  | .releaseLock, w => ((), { w with locked := false })
  | .readOptions, w => (w.options, w)
  | .createOptions, w => ((), { w with options := .torn })
  | .fillOptions o, w => ((), { w with options := .written o })
  | .readConsumed, w => (w.consumed, w)
  | .replaceConsumed ids, w => ((), { w with consumed := some ids })
  | .removeConsumed, w => ((), { w with consumed := none })
  | .sandboxExists dir, w => ((w.sandboxes dir).isSome, w)
  | .readSandbox dir, w => (w.sandboxes dir, w)
  | .createSandbox dir, w =>
    ((), { w with sandboxes := Function.update w.sandboxes dir ((w.sandboxes dir).getD []) })
  | .copySandboxEntry dir path node, w =>
    ((), { w with
      sandboxes := Function.update w.sandboxes dir ((w.sandboxes dir).map (·.insert path node)) })
  | .removeSandboxEntry dir path, w =>
    ((), { w with
      sandboxes := Function.update w.sandboxes dir ((w.sandboxes dir).map (·.erase path)) })
  | .removeSandbox dir, w => ((), { w with sandboxes := Function.update w.sandboxes dir none })
  | .readTarget, w => (w.target, w)
  | .writeTarget kind path content, w =>
    match w.env.fault w.tick with
    | some e => (.error e, w)
    | none =>
      (.ok (), { w with
        target := { w.target with tree := w.target.tree.write path content }
        trace := w.trace ++ [.wrote kind w.now w.held] })
  | .applyOperation kind dir o, w =>
    match w.env.fault w.tick, applyOperation ((w.sandboxes dir).getD []) w.target.tree o with
    | some e, _ => (.error e, w)
    | none, .error e => (.error e, w)
    | none, .ok tree =>
      (.ok (), { w with
        target := { w.target with tree := tree }
        trace := w.trace ++ [.wrote kind w.now w.held] })
  | .runProvider .., w => (w.env.provider w.tick, w)
  | .runCommand purpose _, w =>
    let (output, target) := w.env.command w.tick w.target
    match purpose, output with
    | .verifier, .ok out =>
      (output, { w with target := target, trace := w.trace ++ [.verified out.success] })
    | _, _ => (output, { w with target := target })
  | .note o, w => ((), w.observe o)

end World

/-- The machine of the runtime: the effect of each operation, counted. -/
def runMachine : Machine RunSig World where
  step o w := ((w.effect o).1, (w.effect o).2.count)

/-- The weakest precondition of one operation and what follows it. -/
theorem wp_op_bind {α : Type} {o : Op} {f : o.Ans → Cmd α} {C : Op → World → Prop}
    {Q : α → World → Prop} {E : String → World → Prop} {w : World} :
    runMachine.wp C (op o >>= f) Q E w ↔
      C o w ∧ runMachine.wp C (f (w.effect o).1) Q E (w.effect o).2.count :=
  Iff.rfl

theorem wp_op {o : Op} {C : Op → World → Prop} {Q : o.Ans → World → Prop} {E : String → World → Prop}
    {w : World} :
    runMachine.wp C (op o) Q E w ↔ C o w ∧ Q (w.effect o).1 (w.effect o).2.count :=
  Iff.rfl

theorem wp_pure {α : Type} {a : α} {C : Op → World → Prop} {Q : α → World → Prop}
    {E : String → World → Prop} {w : World} :
    runMachine.wp C (pure a : Cmd α) Q E w ↔ Q a w := Iff.rfl

end Ao2
