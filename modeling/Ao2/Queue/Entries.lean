import Ao2.Interaction.Program
import Ao2.Json.Objects
import Ao2.Policy
import Mathlib.Data.List.Sort
import Mathlib.Data.String.Basic

/-!
# The factory queue as a value

The queue of governed factory runs is one JSON file. What the commands do to it is done to a value:
an entry is added, or the first entry with a run identifier is changed, and every change of an entry
adds a record to its history.

What the commands ask of their environment: the queue file, other files, the clock and the functions
that execute a run and package what it left. Errors are the texts that are shown of them.
-/

namespace Ao2

/-! ### The file -/

def factoryQueueSchema : String := "ao2.factory-v3-compat-workbench-queue.v1"

def factoryQueuePath (target : String) : String :=
  joinPath (joinPath (joinPath target ".ao2") "factory-compat") "queue.json"

/-- The queue of a target that has none. -/
def blankQueue (path : String) : Json :=
  .object [("schema_version", .str factoryQueueSchema), ("owner", .str "ao2-workbench-queue"),
    ("factory_v3_role", .str "parity_oracle_only"),
    ("control_plane_role", .str "read_only_observer_after_signed_evidence"),
    ("queue_path", .str path), ("entry_count", .nat 0),
    ("continuity_contract", .object [("survives_server_restart", .bool true),
      ("factory_v3_drives_workflow", .bool false),
      ("cancel_retry_state_owner", .str "ao2-workbench-queue"), ("history_owner", .str "ao2"),
      ("hermes_role", .str "front_end_scheduler_queue_and_memory_bookkeeping")]),
    ("entries", .arr [])]

/-- The queue that is in the file, if there is one and it can be read. -/
def loadedQueue (path : String) : Except String (Option Json) → Except String Json
  | .error _ => .error s!"read AO2 factory queue {path}"
  | .ok none => .ok (blankQueue path)
  | .ok (some queue) =>
    if queue.index "schema_version" = .str factoryQueueSchema then
      .ok (queue.put "queue_path" (.str path))
    else .error s!"factory queue requires ao2.factory-v3-compat-workbench-queue.v1: {path}"

def entriesOf (queue : Json) : List Json := ((queue.get? "entries").bind Json.arr?).getD []

/-- The queue as it is written. -/
def storedQueue (path now : String) (queue : Json) : Json :=
  ((queue.put "queue_path" (.str path)).put "entry_count" (.nat (entriesOf queue).length)).put
    "updated_at" (.str now)

/-! ### Entries -/

def runIdOf (entry : Json) : Option String := (entry.get? "run_id").bind Json.str?

def statusOf (entry : Json) : Option String := (entry.get? "status").bind Json.str?

def historyOf (entry : Json) : List Json :=
  ((entry.get? "transition_history").bind Json.arr?).getD []

/-- A member that is a text; empty for any other. -/
def memberAsText (v : Json) (key : String) : String := ((v.get? key).bind Json.str?).getD ""

/-- A member that is a number. -/
def u64Of (v : Json) (key : String) : Option ℕ :=
  match v.get? key with
  | some (.num (.ofNat n)) => if n < 2 ^ 64 then some n else none
  | _ => none

/-- The first entry of a run. -/
def findEntry (entries : List Json) (runId : String) : Option Json :=
  entries.find? fun entry => runIdOf entry = some runId

/-- The entries with the first one of a run changed. -/
def updateEntry (runId : String) (change : Json → Json) : List Json → List Json
  | [] => []
  | entry :: entries =>
    if runIdOf entry = some runId then change entry :: entries
    else entry :: updateEntry runId change entries

def transitionRecord (now previousStatus status reason : String) : Json :=
  .object [("at", .str now), ("from", .str previousStatus), ("status", .str status),
    ("reason", .str reason)]

/-- The first record of an entry. -/
def submissionRecord (now reason : String) : Json :=
  .object [("at", .str now), ("status", .str "queued"), ("reason", .str reason)]

/-- An entry with a record added to its history. -/
def pushRecord (now previousStatus status reason : String) (entry : Json) : Json :=
  entry.put "transition_history"
    (.arr (historyOf entry ++ [transitionRecord now previousStatus status reason]))

def attemptsOf (entry : Json) : ℕ := (u64Of entry "attempts").getD 0

/-- An entry that goes to a status. One that is queued again is attempted once more. -/
def transitionedEntry (status reason now : String) (entry : Json) : Json :=
  let previousStatus := jsonStringOf entry "status"
  let moved := entry.putAll [("status", .str status), ("updated_at", .str now)]
  let counted := if status = "queued" ∧ previousStatus ≠ "queued" then
      moved.put "attempts" (.nat (attemptsOf moved + 1))
    else moved
  pushRecord now previousStatus status reason counted

/-- The order of entries by the time at which they were made; one without a time comes first. -/
def createdBefore (left right : Json) : Bool :=
  match (left.get? "created_at").bind Json.str?, (right.get? "created_at").bind Json.str? with
  | none, _ => true
  | some _, none => false
  | some a, some b => a ≤ b

/-- The entries with one added, in the order of their times. -/
def addEntry (entry : Json) (entries : List Json) : List Json :=
  (entries ++ [entry]).insertionSort fun left right => createdBefore left right = true

/-- The entry of a plan that is submitted. -/
def submittedEntry (runId now planPath planSha256 : String) (plan : Json) : Json :=
  .object [("schema_version", .str "ao2.factory-v3-compat-workbench-queue-entry.v1"),
    ("run_id", .str runId), ("status", .str "queued"), ("attempts", .nat 0),
    ("created_at", .str now), ("updated_at", .str now), ("plan_path", .str planPath),
    ("plan_sha256", .str planSha256),
    ("workflow_path", .str (memberAsText ((plan.index "ao2_native_plan").index "runnable_workflow")
      "path")),
    ("classification", plan.index "classification"),
    ("parity_checklist_progress", .object [("ao2_persists_queue_history_cancel_retry_state", .bool true),
      ("factory_v3_drives_workflow", .bool false), ("ao2_queue_owner", .str "ao2-workbench-queue")]),
    ("execution_contract", .object [("execution_owner", .str "ao2"),
      ("factory_v3_role", .str "parity_oracle_only"),
      ("control_plane_role", .str "read_only_observer_after_signed_evidence"),
      ("provider_auth", .str "local OAuth CLI only; API-key provider auth forbidden")]),
    ("transition_history", .arr [submissionRecord now
      "submitted factory-v3-compatible governed plan to AO2-native persisted queue"])]

/-- What a project start is asked for. -/
structure ProjectStartRequest where
  projectSpec : String
  projectSpecSha256 : String
  projectRoot : String
  verifierCommand : String
  provider : Option String
  providerPromptDir : Option String
  signingKey : Option String
  signerId : String
  maxRepairAttempts : ℕ
  outDir : String
  handoffBundleOut : String
  handoffBundleReport : String

def ProjectStartRequest.toJson (r : ProjectStartRequest) : Json :=
  .object [("project_spec", .str r.projectSpec), ("project_spec_sha256", .str r.projectSpecSha256),
    ("project_root", .str r.projectRoot), ("verifier_command", .str r.verifierCommand),
    ("provider", .ofOption .str r.provider), ("provider_prompt_dir", .ofOption .str r.providerPromptDir),
    ("signing_key", .ofOption .str r.signingKey), ("signer_id", .str r.signerId),
    ("max_repair_attempts", .nat r.maxRepairAttempts), ("out_dir", .str r.outDir),
    ("handoff_bundle_out", .str r.handoffBundleOut),
    ("handoff_bundle_report", .str r.handoffBundleReport)]

/-- The entry of a project start that is submitted. -/
def submittedProjectStart (runId now : String) (request : ProjectStartRequest) : Json :=
  .object [("schema_version", .str "ao2.factory-project-start-workbench-queue-entry.v1"),
    ("run_id", .str runId), ("job_kind", .str "factory_project_start"), ("status", .str "queued"),
    ("attempts", .nat 0), ("created_at", .str now), ("updated_at", .str now),
    ("project_start_request", request.toJson),
    ("parity_checklist_progress", .object [("ao2_persists_queue_history_cancel_retry_state", .bool true),
      ("ao2_queue_executes_project_start_handoff_job", .bool true),
      ("factory_v3_drives_workflow", .bool false), ("ao2_queue_owner", .str "ao2-workbench-queue")]),
    ("execution_contract", .object [("execution_owner", .str "ao2"),
      ("job_kind", .str "factory_project_start"), ("factory_v3_role", .str "parity_oracle_only"),
      ("control_plane_role", .str "read_only_observer_after_signed_evidence"),
      ("release_acceptance_owner", .str "factory-v3 evaluator-closer"),
      ("control_plane_approves_release", .bool false), ("mutates_ao_artifacts", .bool false),
      ("provider_auth", .str "local OAuth CLI only; API-key provider auth forbidden")]),
    ("transition_history", .arr [submissionRecord now
      "submitted AO2 project-start handoff job to AO2-native persisted queue"])]

/-! ### Statuses -/

def factoryQueueStatusIsTerminal (status : String) : Bool :=
  status ∈ ["accepted", "accepted_with_concerns", "rejected", "blocked", "failed", "completed",
    "cancelled"]

/-- The status that a plan leaves its entry in. -/
def planFinalStatus (runResult : Json) : String :=
  match jsonStringOf runResult "status" with
  | "Accepted" => "accepted"
  | "AcceptedWithConcerns" => "accepted_with_concerns"
  | "Rejected" => "rejected"
  | "Blocked" => "blocked"
  | "Failed" => "failed"
  | _ => "completed"

/-- The status that a project start leaves its entry in. -/
def projectStartFinalStatus (projectStart : Json) : String :=
  match jsonStringOf projectStart "status" with
  | "accepted" => "accepted"
  | "accepted_with_concerns" => "accepted_with_concerns"
  | "rejected" => "rejected"
  | "blocked" => "blocked"
  | "failed" => "failed"
  | _ => "completed"

end Ao2

/-! ## The operations of the queue commands -/

namespace Ao2

open Interaction

/-! ### Operations -/

structure FactoryRunPlanOptions where
  plan : String
  target : String
  runId : Option String
  provider : Option String
  providerPrompt : Option String
  providerPromptFile : Option String
  /-- The number as a text. -/
  providerMaxBudgetUsd : Option String
  factoryDecision : Option String
  signingKey : Option String
  signerId : String
  maxRepairAttempts : ℕ
  out : Option String

structure FactoryProjectStartOptions where
  projectSpec : String
  projectRoot : String
  runId : String
  verifierCommand : String
  provider : Option String
  providerPromptDir : Option String
  signingKey : Option String
  signerId : String
  maxRepairAttempts : ℕ
  handoffBundleOut : Option String
  handoffBundleReport : Option String
  outDir : String

structure FactoryReplacementPacketOptions where
  queueStatus : String
  latestQueueStatus : String
  closure : String
  closureVerification : String
  crossOsReadbacks : List String
  out : String

/-- What is written to a file other than the queue. -/
inductive FileContent where
  | json (v : Json)
  /-- The summary of a project start as it is shown to an operator. -/
  | summaryMarkdown (summary : Json)

inductive QueueOp where
  | pathExists (path : String)
  | isFile (path : String)
  | canonicalize (path : String)
  | sha256File (path : String)
  | readCompatValue (path : String)
  | writeFile (path : String) (content : FileContent)
  | now
  /-- The time without separators. -/
  | nowCompact
  /-- The value in the queue file, if the file is there. -/
  | readQueueFile
  /-- Replace the queue file. -/
  | writeQueueFile (queue : Json)
  | runPlan (options : FactoryRunPlanOptions)
  | projectStart (options : FactoryProjectStartOptions)
  | projectStartBundleVerify (bundle : String)
  | projectStartSummary (projectStart bundleVerification : String)
  | projectStartClosure (queueStatus latestQueueStatus archive : String)
  | projectStartClosureVerify (archive : String)
  | replacementPacket (options : FactoryReplacementPacketOptions)
  | replacementPacketVerify (archive : String)

@[reducible] def QueueOp.Ans : QueueOp → Type
  | pathExists _ | isFile _ => Bool
  | canonicalize _ | sha256File _ => Except String String
  | readCompatValue _ => Except String Json
  | writeFile .. | writeQueueFile _ => Except String Unit
  | now | nowCompact => String
  | readQueueFile => Except String (Option Json)
  | runPlan _ | projectStart _ | projectStartBundleVerify _ | projectStartSummary ..
  | projectStartClosure .. | projectStartClosureVerify _ | replacementPacket _
  | replacementPacketVerify _ => Except String Json

abbrev QueueSignature : Signature := ⟨QueueOp, QueueOp.Ans⟩

abbrev QueueProg := Prog QueueSignature String

def performQueue (o : QueueOp) : QueueProg o.Ans := .ask (S := QueueSignature) o .done

/-! ### Checks -/

def check (holds : Bool) (message : String) : Except String Unit :=
  if holds then .ok () else .error message

/-- A failure is shown as what was being done. -/
def inContext {α : Type} (message : String) (r : Except String α) : QueueProg α :=
  .ofExcept (r.mapError fun _ => message)

def factoryEnsureTargetRepo (target : String) : QueueProg Unit := do
  let found ← performQueue (.pathExists target)
  .ofExcept (check found s!"target repo does not exist: {target}")

def canonicalTarget (target : String) : QueueProg String := do
  let r ← performQueue (.canonicalize target)
  inContext s!"canonicalize factory target {target}" r

def sha256File (path : String) : QueueProg String := do
  let r ← performQueue (.sha256File path)
  .ofExcept r

def atomicWrite (path : String) (content : FileContent) : QueueProg Unit := do
  let r ← performQueue (.writeFile path content)
  .ofExcept r

/-! ### The queue file -/

def factoryQueueLoad (target : String) : QueueProg Json := do
  let r ← performQueue .readQueueFile
  .ofExcept (loadedQueue (factoryQueuePath target) r)

/-- Write the queue; the path and the value that was written. -/
def factoryQueueStore (target : String) (queue : Json) : QueueProg (String × Json) := do
  let now ← performQueue .now
  let stored := storedQueue (factoryQueuePath target) now queue
  let r ← performQueue (.writeQueueFile stored)
  .ofExcept r
  pure (factoryQueuePath target, stored)

/-- PoolMove the entry of a run to a status. -/
def factoryQueueTransition (target runId status reason : String) : QueueProg Json := do
  factoryEnsureTargetRepo target
  let queue ← factoryQueueLoad target
  let now ← performQueue .now
  match findEntry (entriesOf queue) runId with
  | none => .fail s!"factory queue does not contain run_id {runId}"
  | some entry => do
    let entries := updateEntry runId (transitionedEntry status reason now) (entriesOf queue)
    let (path, stored) ← factoryQueueStore target (queue.put "entries" (.arr entries))
    pure (.object [("schema_version", .str "ao2.factory-v3-compat-workbench-queue-transition.v1"),
      ("status", .str status), ("run_id", .str runId), ("queue_path", .str path),
      ("entry", transitionedEntry status reason now entry),
      ("continuity_contract", stored.index "continuity_contract"),
      ("factory_v3_role", .str "parity_oracle_only"),
      ("ao2_decision_owner", .str "ao2-workbench-queue")])

/-! ### Failures that block the entry -/

/-- Block the entry, if that can be done, and fail. -/
def refuse {α : Type} (target runId reason message : String) : QueueProg α := do
  let _ ← ((factoryQueueTransition target runId "blocked" reason).attempt :
    QueueProg (Except String Json))
  .fail message

/-- The value of a step, or an entry that is blocked. -/
def orRefuse (target runId reason message : String) (r : Except String Json) : QueueProg Json :=
  match r with
  | .ok v => pure v
  | .error _ => refuse target runId reason message

/-- A value with this status, or an entry that is blocked. -/
def requireStatus (target runId reason message : String) (v : Json) (status : String) :
    QueueProg Unit :=
  if jsonStringOf v "status" = status then pure () else refuse target runId reason message

end Ao2
