import Ao2.Checks
import Ao2.Json.Encoding
import Ao2.Json.Serde
import Ao2.Run.World
import Ao2.Texts

/-!
# Run records

Between two commands a run is nothing but its record: every field of the working copy is written
into it, and every field has a reader of its own that finds it there again, with a default for a
record that does not have it. Here the record is the value that is written into the file, and it is
read as what a JSON reader makes of the printed text.
-/

namespace Ao2

namespace Record

/-! ### The working copy -/

/-- A workflow file, parsed. -/
structure WorkflowSpec (F : Type) where
  id : String
  version : String
  templateKind : Option String
  objective : String
  roles : List String
  tasks : List (SerdeValue F)
  dependencies : List (SerdeValue F)
  factoryV3Compatibility : Option (SerdeValue F)
  verifierCommand : String
  acceptance : List String

/-- What a command holds of a run in memory. -/
structure RunContext (F : Type) where
  runId : String
  workflowId : String
  templateKind : Option String
  objective : String
  roles : List String
  workflowTasks : List (SerdeValue F)
  workflowDependencies : List (SerdeValue F)
  factoryV3Compatibility : Option (SerdeValue F)
  acceptance : List String
  verifierCommand : String
  targetRepo : String
  artifacts : List ArtifactRef
  policyDecisions : List PolicyDecision
  approvals : List ApprovalTicket
  closureReports : List ClosureReport
  repairAttempts : List RepairAttempt

variable {F : Type}

def WorkflowSpec.workflowId (w : WorkflowSpec F) : String := w.id ++ "@" ++ w.version

/-- The checks that `load_workflow` makes of a workflow that was parsed. -/
def loadWorkflow (w : WorkflowSpec F) : Except String (WorkflowSpec F) :=
  if isBlank w.id then .error "workflow id is required"
  else if isBlank w.version then .error "workflow version is required"
  else if isBlank w.objective then .error "workflow objective is required"
  else if w.roles.isEmpty then .error "workflow roles are required"
  else if isBlank w.verifierCommand then .error "workflow verifier command is required"
  else .ok w

def defaultRoles : List String :=
  ["planner", "implementer", "reviewer", "test-engineer", "evaluator-closer"]

/-- The directory of a run. -/
def runDir (targetRepo runId : String) : String :=
  joinPath (joinPath (joinPath targetRepo ".ao2") "runs") runId

def RunContext.eventsPath (ctx : RunContext F) : String :=
  joinPath (runDir ctx.targetRepo ctx.runId) "events.jsonl"

/-- The working copy that a run starts with. -/
def startContext (targetRepo runId : String) (workflow : WorkflowSpec F) : RunContext F where
  runId := runId
  workflowId := workflow.workflowId
  templateKind := workflow.templateKind
  objective := workflow.objective
  roles := workflow.roles
  workflowTasks := workflow.tasks
  workflowDependencies := workflow.dependencies
  factoryV3Compatibility := workflow.factoryV3Compatibility
  acceptance := workflow.acceptance
  verifierCommand := workflow.verifierCommand
  targetRepo := targetRepo
  artifacts := []
  policyDecisions := []
  approvals := []
  closureReports := []
  repairAttempts := []

/-! ### Writing -/

section

variable [Platform]

/-- The digests of what approvals and policy decisions a run has. -/
def runRecordIntegrity (ctx : RunContext F) : Json :=
  let policyDecisions := Json.arr (ctx.policyDecisions.map PolicyDecision.toJson)
  let approvalTickets := Json.arr (ctx.approvals.map ApprovalTicket.toJson)
  let controlState := Json.obj [("approval_tickets", approvalTickets),
    ("policy_decisions", policyDecisions), ("run_id", .str ctx.runId)]
  .obj [("approval_tickets_digest", .str (sha256Json approvalTickets)),
    ("control_state_digest", .str (sha256Json controlState)),
    ("policy_decisions_digest", .str (sha256Json policyDecisions)),
    ("run_id", .str ctx.runId),
    ("schema_version", .str "ao2.run-record-replay-integrity.v1")]

/-- A list of records as an array. -/
def records {α : Type} (toJson : α → Json) (as : List α) : SerdeValue F :=
  .ofJson (.arr (as.map toJson))

/-- The record of a run. -/
def writeRunRecord (ctx : RunContext F) (status : RunStatus)
    (evidencePackPath reportPath : String) : SerdeValue F :=
  .obj [("acceptance", .ofJson (.strs ctx.acceptance)),
    ("approval_tickets", records ApprovalTicket.toJson ctx.approvals),
    ("artifacts", records ArtifactRef.toJson ctx.artifacts),
    ("closure", .ofJson (.ofOption ClosureReport.toJson ctx.closureReports.getLast?)),
    ("closures", records ClosureReport.toJson ctx.closureReports),
    ("events_head", .str ctx.eventsPath),
    ("evidence_pack", .str evidencePackPath),
    ("factory_v3_compatibility", .ofOption id ctx.factoryV3Compatibility),
    ("objective", .str ctx.objective),
    ("policy_decisions", records PolicyDecision.toJson ctx.policyDecisions),
    ("repair_attempts", records RepairAttempt.toJson ctx.repairAttempts),
    ("replay_integrity", .ofJson (runRecordIntegrity ctx)),
    ("report", .str reportPath),
    ("roles", .ofJson (.strs ctx.roles)),
    ("run_id", .str ctx.runId),
    ("schema_version", .str "ao2.run-record.v1"),
    ("status", .str status.name),
    ("template_kind", .ofJson (.ofOption .str ctx.templateKind)),
    ("verifier_command", .str ctx.verifierCommand),
    ("workflow_dependencies", .arr ctx.workflowDependencies),
    ("workflow_ref", .str ctx.workflowId),
    ("workflow_tasks", .arr ctx.workflowTasks)]

end

/-! ### Reading the parts of a record -/

/-- What is wrong with a record that is not loaded. -/
inductive LoadError where
  | unreadable
  | badStatus
  | malformed (field : String)
  deriving DecidableEq

def textOf : SerdeValue F → Option String := SerdeValue.str?

def arrayOf {α : Type} (read : SerdeValue F → Option α) (v : SerdeValue F) : Option (List α) :=
  v.arr?.bind (·.mapM read)

def textsOf : SerdeValue F → Option (List String) := arrayOf textOf

/-- A text, or `null`. -/
def optionalTextOf : SerdeValue F → Option (Option String)
  | .null => some none
  | .str s => some (some s)
  | _ => none

def usizeOf : SerdeValue F → Option ℕ
  | .int (.ofNat n) => some n
  | _ => none

/-- A record by the names of its fields. It is an object, or an array of them in their order. -/
def fieldsOf (names : List String) : SerdeValue F → Option (SerdeValue F)
  | .obj members => some (.obj members)
  | .arr items => if items.length = names.length then some (.obj (names.zip items)) else none
  | _ => none

/-- A field that has to be there. -/
def required {α : Type} (read : SerdeValue F → Option α) (v : SerdeValue F) (key : String) :
    Option α :=
  (v.get? key).bind read

/-- A field that may be missing. -/
def optional (v : SerdeValue F) (key : String) : Option (Option String) :=
  match v.get? key with
  | none => some none
  | some member => optionalTextOf member

def readArtifactRef (v : SerdeValue F) : Option ArtifactRef := do
  let v ← fieldsOf ["artifact_id", "artifact_type", "uri", "media_type", "digest", "producer",
    "input_refs", "sensitivity"] v
  return {
    artifactId := ← required textOf v "artifact_id"
    artifactType := ← required textOf v "artifact_type"
    uri := ← required textOf v "uri"
    mediaType := ← required textOf v "media_type"
    digest := ← required textOf v "digest"
    producer := ← required textOf v "producer"
    inputRefs := ← required textsOf v "input_refs"
    sensitivity := ← required textOf v "sensitivity" }

/-- The statuses, with the names that they have in a record. -/
def statusNamed (name : String) : Option RunStatus :=
  [RunStatus.created, .compiled, .queued, .running, .waitingForApproval, .blocked, .failed,
    .rejected, .accepted, .acceptedWithConcerns, .canceled, .replaying].find? (·.name = name)

/-- A status is its name, or an object with the name as its only key and nothing under it. -/
def readRunStatus : SerdeValue F → Option RunStatus
  | .str name => statusNamed name
  | .obj [(name, .null)] => statusNamed name
  | _ => none

section

variable [Platform]

def dateOf (v : SerdeValue F) : Option DateTime := v.str?.bind parseRfc3339

def readPolicyDecision (v : SerdeValue F) : Option PolicyDecision := do
  let v ← fieldsOf ["decision_id", "principal", "action", "resource", "request_digest", "decision",
    "reason", "policy_version", "approval_ticket_id", "created_at"] v
  return {
    decisionId := ← required textOf v "decision_id"
    principal := ← required textOf v "principal"
    action := ← required textOf v "action"
    resource := ← required textOf v "resource"
    requestDigest := ← required textOf v "request_digest"
    decision := ← required textOf v "decision"
    reason := ← required textOf v "reason"
    policyVersion := ← required textOf v "policy_version"
    approvalTicketId := ← optional v "approval_ticket_id"
    createdAt := ← required dateOf v "created_at" }

def readApprovalTicket (v : SerdeValue F) : Option ApprovalTicket := do
  let v ← fieldsOf ["ticket_id", "run_id", "requested_action", "action_digest", "risk_class",
    "requester", "approver", "status", "scope", "created_at", "expires_at"] v
  return {
    ticketId := ← required textOf v "ticket_id"
    runId := ← required textOf v "run_id"
    requestedAction := ← required textOf v "requested_action"
    actionDigest := ← required textOf v "action_digest"
    riskClass := ← required textOf v "risk_class"
    requester := ← required textOf v "requester"
    approver := ← optional v "approver"
    status := ← required textOf v "status"
    scope := ← required textOf v "scope"
    createdAt := ← required dateOf v "created_at"
    expiresAt := ← required dateOf v "expires_at" }

def readClosureReport (v : SerdeValue F) : Option ClosureReport := do
  let v ← fieldsOf ["verdict", "acceptance_criteria_results", "evidence_refs",
    "unresolved_concerns", "blockers", "policy_exceptions", "cost_summary", "created_at"] v
  return {
    verdict := ← required textOf v "verdict"
    acceptanceCriteriaResults := ← required textsOf v "acceptance_criteria_results"
    evidenceRefs := ← required textsOf v "evidence_refs"
    unresolvedConcerns := ← required textsOf v "unresolved_concerns"
    blockers := ← required textsOf v "blockers"
    policyExceptions := ← required textsOf v "policy_exceptions"
    costSummary := ← required textOf v "cost_summary"
    createdAt := ← required dateOf v "created_at" }

def readRepairAttempt (v : SerdeValue F) : Option RepairAttempt := do
  let v ← fieldsOf ["attempt", "trigger", "status", "evidence_refs", "summary", "created_at"] v
  return {
    attempt := ← required usizeOf v "attempt"
    trigger := ← required textOf v "trigger"
    status := ← required textOf v "status"
    evidenceRefs := ← required textsOf v "evidence_refs"
    summary := ← required textOf v "summary"
    createdAt := ← required dateOf v "created_at" }

end

/-! ### Loading -/

section

variable [Platform]

/-- An array of records; a record that does not have the field has none. -/
def parseOptionalRecordArray {α : Type} (read : SerdeValue F → Option α) (record : SerdeValue F)
    (field : String) : Except LoadError (List α) :=
  match record.get? field with
  | none | some .null => .ok []
  | some value =>
    match arrayOf read value with
    | some as => .ok as
    | none => .error (.malformed field)

/-- The closures of a record; older records have one. -/
def loadClosureReports (record : SerdeValue F) : Except LoadError (List ClosureReport) :=
  if (record.get? "closures").isSome ∧ (record.index "closures").isNull = false then
    parseOptionalRecordArray readClosureReport record "closures"
  else if (record.index "closure").isNull = false then
    match readClosureReport (record.index "closure") with
    | some report => .ok [report]
    | none => .error (.malformed "closure")
  else .ok []

/-- The texts among the items of an array. -/
def textItems (v : SerdeValue F) : Option (List String) :=
  v.arr?.map fun items => items.filterMap SerdeValue.str?

def loadRoles (record : SerdeValue F) : List String :=
  ((textItems (record.index "roles")).filter (· ≠ [])).getD defaultRoles

/-- The working copy that a record stands for, and the status of the run. -/
def loadRecord (targetRepo runId : String) (record : SerdeValue F) :
    Except LoadError (RunContext F × RunStatus) := do
  let status ← (readRunStatus (record.index "status")).elim (.error .badStatus) .ok
  let artifacts ← parseOptionalRecordArray readArtifactRef record "artifacts"
  let policyDecisions ← parseOptionalRecordArray readPolicyDecision record "policy_decisions"
  let approvals ← parseOptionalRecordArray readApprovalTicket record "approval_tickets"
  let closureReports ← loadClosureReports record
  let repairAttempts ← parseOptionalRecordArray readRepairAttempt record "repair_attempts"
  return ({
    runId := runId
    workflowId := (record.index "workflow_ref").str?.getD "risky-pr-run@0.1.0"
    templateKind := (record.index "template_kind").str?
    objective := (record.index "objective").str?.getD
      "Add input validation to calculate_discount and update tests."
    roles := loadRoles record
    workflowTasks := (record.index "workflow_tasks").arr?.getD []
    workflowDependencies := (record.index "workflow_dependencies").arr?.getD []
    factoryV3Compatibility := (record.get? "factory_v3_compatibility").filter (!·.isNull)
    acceptance := (textItems (record.index "acceptance")).getD []
    verifierCommand := (record.index "verifier_command").str?.getD "python -m pytest"
    targetRepo := targetRepo
    artifacts := artifacts
    policyDecisions := policyDecisions
    approvals := approvals
    closureReports := closureReports
    repairAttempts := repairAttempts }, status)

variable [DoubleText F]

/-- Read the text of a record, and load it. -/
def loadRunContext (targetRepo runId : String) (record : SerdeValue F) :
    Except LoadError (RunContext F × RunStatus) :=
  match record.reread with
  | some record => loadRecord targetRepo runId record
  | none => .error .unreadable

/-! ### What commands make of a working copy -/

/-- What starting, approving and resuming make of a working copy: a start makes one from a workflow
that was checked, every later command loads the one that was written, and each adds to it. -/
inductive Buildable : RunContext F → Prop
  | start {targetRepo runId : String} {parsed workflow : WorkflowSpec F} :
    loadWorkflow parsed = .ok workflow → Buildable (startContext targetRepo runId workflow)
  | load {ctx loaded : RunContext F} {status status' : RunStatus} {pack report : String} :
    Buildable ctx →
    loadRunContext ctx.targetRepo ctx.runId (writeRunRecord ctx status pack report) =
      .ok (loaded, status') →
    Buildable loaded
  | artifact {ctx : RunContext F} (artifact : ArtifactRef) :
    Buildable ctx → Buildable { ctx with artifacts := ctx.artifacts ++ [artifact] }
  | decision {ctx : RunContext F} (decision : PolicyDecision) :
    Buildable ctx → Buildable { ctx with policyDecisions := ctx.policyDecisions ++ [decision] }
  | ticket {ctx : RunContext F} (ticket : ApprovalTicket) :
    Buildable ctx → Buildable { ctx with approvals := ctx.approvals ++ [ticket] }
  | replace {ctx : RunContext F} (ticket : ApprovalTicket) :
    Buildable ctx → Buildable { ctx with approvals := replaceTicket ticket ctx.approvals }
  | closure {ctx : RunContext F} (report : ClosureReport) :
    Buildable ctx → Buildable { ctx with closureReports := ctx.closureReports ++ [report] }
  | repair {ctx : RunContext F} (attempt : RepairAttempt) :
    Buildable ctx → Buildable { ctx with repairAttempts := ctx.repairAttempts ++ [attempt] }

/-- Load a record and write what was loaded. -/
def rewriteRunRecord (targetRepo runId pack report : String) (record : SerdeValue F) :
    Except LoadError (SerdeValue F) := do
  let (ctx, status) ← loadRunContext targetRepo runId record
  return writeRunRecord ctx status pack report

/-- The record of a working copy is loaded as that working copy and with the status it was written
with, and however often it is loaded and written again it stays the same. -/
def RoundTrips (ctx : RunContext F) (status : RunStatus) (pack report : String) : Prop :=
  loadRunContext ctx.targetRepo ctx.runId (writeRunRecord ctx status pack report) =
      .ok (ctx, status) ∧
    ∀ n, (fun record => record >>= rewriteRunRecord ctx.targetRepo ctx.runId pack report)^[n]
      (.ok (writeRunRecord ctx status pack report)) = .ok (writeRunRecord ctx status pack report)

/-- What a working copy takes from its workflow as it is can be printed and read again. -/
structure Printable (ctx : RunContext F) : Prop where
  compatibility_ne_null : ctx.factoryV3Compatibility ≠ some .null
  floats : ∀ v ∈ ctx.workflowTasks ++ ctx.workflowDependencies ++ ctx.factoryV3Compatibility.toList,
    ∀ x ∈ v.floats, readBack x = some x
  depth_items : ∀ v ∈ ctx.workflowTasks ++ ctx.workflowDependencies, v.depth ≤ 125
  depth_compatibility : ∀ v ∈ ctx.factoryV3Compatibility, v.depth ≤ 126

end

/-! ### Reading what was written

One lemma for each kind of record, and one that lifts it to the arrays of them. -/

theorem arrayOf_records {α : Type} {toJson : α → Json} {read : SerdeValue F → Option α}
    (h : ∀ a, read (.ofJson (toJson a)) = some a) (as : List α) :
    arrayOf read (records toJson as) = some as := by
  rw [records, SerdeValue.ofJson, SerdeValue.ofJsonItems_eq_map, List.map_map, arrayOf,
    SerdeValue.arr?, Option.bind_some, List.mapM_map,
    show read ∘ SerdeValue.ofJson ∘ toJson = fun a => pure a from funext h, List.mapM_pure,
    List.map_id']
  rfl

theorem textsOf_strs (ss : List String) : textsOf (.ofJson (.strs ss) : SerdeValue F) = some ss :=
  arrayOf_records (fun _ => rfl) ss

theorem textItems_strs (ss : List String) :
    textItems (.ofJson (.strs ss) : SerdeValue F) = some ss := by
  rw [Json.strs, SerdeValue.ofJson, SerdeValue.ofJsonItems_eq_map, textItems, SerdeValue.arr?,
    Option.map_some, List.map_map, List.filterMap_map]
  exact congrArg some (List.filterMap_some)

theorem optionalTextOf_ofOption (s : Option String) :
    optionalTextOf (.ofJson (.ofOption .str s) : SerdeValue F) = some s := by
  cases s <;> rfl

theorem readRunStatus_name (status : RunStatus) :
    readRunStatus (.str status.name : SerdeValue F) = some status := by
  cases status <;> rfl

theorem readArtifactRef_toJson (a : ArtifactRef) :
    readArtifactRef (.ofJson a.toJson : SerdeValue F) = some a := by
  simp [readArtifactRef, ArtifactRef.toJson, SerdeValue.ofJson, SerdeValue.ofJsonMembers, fieldsOf,
    required, SerdeValue.get?, List.lookup_cons, textOf, SerdeValue.str?, textsOf_strs]

theorem readRepairAttempt_toJson [Platform] (hdate : ∀ t, parseRfc3339 (rfc3339 t) = some t)
    (r : RepairAttempt) : readRepairAttempt (.ofJson r.toJson : SerdeValue F) = some r := by
  simp [readRepairAttempt, RepairAttempt.toJson, Json.nat, SerdeValue.ofJson, usizeOf,
    SerdeValue.ofJsonMembers, fieldsOf, required, SerdeValue.get?, List.lookup_cons, textOf,
    SerdeValue.str?, textsOf_strs, dateOf, hdate]

theorem readClosureReport_toJson [Platform] (hdate : ∀ t, parseRfc3339 (rfc3339 t) = some t)
    (r : ClosureReport) : readClosureReport (.ofJson r.toJson : SerdeValue F) = some r := by
  simp [readClosureReport, ClosureReport.toJson, SerdeValue.ofJson,
    SerdeValue.ofJsonMembers, fieldsOf, required, SerdeValue.get?, List.lookup_cons, textOf,
    SerdeValue.str?, textsOf_strs, dateOf, hdate]

theorem readPolicyDecision_toJson [Platform] (hdate : ∀ t, parseRfc3339 (rfc3339 t) = some t)
    (d : PolicyDecision) : readPolicyDecision (.ofJson d.toJson : SerdeValue F) = some d := by
  simp [readPolicyDecision, PolicyDecision.toJson, SerdeValue.ofJson,
    SerdeValue.ofJsonMembers, fieldsOf, required, optional, SerdeValue.get?, List.lookup_cons,
    textOf, SerdeValue.str?, optionalTextOf_ofOption, dateOf, hdate]

theorem readApprovalTicket_toJson [Platform] (hdate : ∀ t, parseRfc3339 (rfc3339 t) = some t)
    (t : ApprovalTicket) : readApprovalTicket (.ofJson t.toJson : SerdeValue F) = some t := by
  simp [readApprovalTicket, ApprovalTicket.toJson, SerdeValue.ofJson,
    SerdeValue.ofJsonMembers, fieldsOf, required, optional, SerdeValue.get?, List.lookup_cons,
    textOf, SerdeValue.str?, optionalTextOf_ofOption, dateOf, hdate]

theorem parseOptionalRecordArray_records {α : Type} {toJson : α → Json}
    {read : SerdeValue F → Option α} (h : ∀ a, read (.ofJson (toJson a)) = some a) {as : List α}
    {record : SerdeValue F} {field : String}
    (hfield : record.get? field = some (records toJson as)) :
    parseOptionalRecordArray read record field = .ok as := by
  have harray := arrayOf_records h as
  rw [parseOptionalRecordArray, hfield]
  simp only [records, SerdeValue.ofJson] at harray ⊢
  rw [harray]

section

variable [Platform] {ctx : RunContext F} {status : RunStatus} {pack report : String}
  {f : F → Option F} {record : SerdeValue F}

/-- What is written without floats is read as it is. -/
theorem get?_of_written (h : (writeRunRecord ctx status pack report).traverse f = some record)
    {key : String} {j : Json}
    (hj : (writeRunRecord ctx status pack report).get? key = some (.ofJson j)) :
    record.get? key = some (.ofJson j) := by
  obtain ⟨w, hw, hget⟩ := SerdeValue.get?_traverse h hj
  rw [SerdeValue.traverse_ofJson] at hw
  rw [hget, ← hw]

theorem index_of_written (h : (writeRunRecord ctx status pack report).traverse f = some record)
    {key : String} {j : Json}
    (hj : (writeRunRecord ctx status pack report).get? key = some (.ofJson j)) :
    record.index key = .ofJson j := by
  rw [SerdeValue.index, get?_of_written h hj, Option.getD_some]

theorem loadClosureReports_written (hdate : ∀ t, parseRfc3339 (rfc3339 t) = some t)
    (h : (writeRunRecord ctx status pack report).traverse f = some record) :
    loadClosureReports record = .ok ctx.closureReports := by
  have hget : record.get? "closures" = some (records ClosureReport.toJson ctx.closureReports) :=
    get?_of_written h (by simp [writeRunRecord, SerdeValue.get?, List.lookup_cons, records])
  have hpresent : (record.get? "closures").isSome ∧ (record.index "closures").isNull = false := by
    rw [SerdeValue.index, hget]
    exact ⟨rfl, rfl⟩
  rw [loadClosureReports, if_pos hpresent]
  exact parseOptionalRecordArray_records (readClosureReport_toJson hdate) hget

theorem loadRoles_written (hroles : ctx.roles ≠ [])
    (h : (writeRunRecord ctx status pack report).traverse f = some record) :
    loadRoles record = ctx.roles := by
  have hindex : record.index "roles" = .ofJson (.strs ctx.roles) :=
    index_of_written h (by simp [writeRunRecord, SerdeValue.get?, List.lookup_cons])
  rw [loadRoles, hindex, textItems_strs, Option.filter_some, decide_eq_true hroles]
  rfl

theorem array_written {α : Type} {toJson : α → Json} {read : SerdeValue F → Option α}
    (hread : ∀ a, read (.ofJson (toJson a)) = some a) {as : List α} {field : String}
    (h : (writeRunRecord ctx status pack report).traverse f = some record)
    (has : (writeRunRecord ctx status pack report).get? field = some (records toJson as)) :
    parseOptionalRecordArray read record field = .ok as :=
  parseOptionalRecordArray_records hread (get?_of_written h has)

theorem compatibility_written
    (h : (writeRunRecord ctx status pack report).traverse f = some record) :
    (record.get? "factory_v3_compatibility").filter (!·.isNull) =
      (ctx.factoryV3Compatibility.bind (·.traverse f)).filter (!·.isNull) := by
  obtain ⟨v, hread, hget⟩ := SerdeValue.get?_traverse h
    (show SerdeValue.get? "factory_v3_compatibility" _ =
        some (.ofOption id ctx.factoryV3Compatibility)
      by simp [writeRunRecord, SerdeValue.get?, List.lookup_cons])
  rw [hget]
  cases hv : ctx.factoryV3Compatibility <;> rw [hv] at hread
  case none =>
    cases hread
    rfl
  case some =>
    rw [Option.bind_some, ← hread]
    rfl

theorem items_written {key : String} {items : List (SerdeValue F)}
    (h : (writeRunRecord ctx status pack report).traverse f = some record)
    (hitems : (writeRunRecord ctx status pack report).get? key = some (.arr items)) :
    ∃ items', SerdeValue.traverseItems f items = some items' ∧
      (record.index key).arr?.getD [] = items' := by
  obtain ⟨w, hread, hget⟩ := SerdeValue.get?_traverse h hitems
  obtain ⟨items', hitems', rfl⟩ := Option.map_eq_some_iff.mp hread
  refine ⟨items', hitems', ?_⟩
  rw [SerdeValue.index, hget]
  rfl

/-- **What a record of a working copy is loaded as**: everything that was written without floats is
there again, and the rest is what was read of it. -/
theorem loadRecord_written (hdate : ∀ t, parseRfc3339 (rfc3339 t) = some t)
    (hroles : ctx.roles ≠ [])
    (h : (writeRunRecord ctx status pack report).traverse f = some record) :
    ∃ tasks dependencies, SerdeValue.traverseItems f ctx.workflowTasks = some tasks ∧
      SerdeValue.traverseItems f ctx.workflowDependencies = some dependencies ∧
      loadRecord ctx.targetRepo ctx.runId record = .ok ({ ctx with
        workflowTasks := tasks
        workflowDependencies := dependencies
        factoryV3Compatibility :=
          (ctx.factoryV3Compatibility.bind (·.traverse f)).filter (!·.isNull) }, status) := by
  obtain ⟨tasks, htasks, hloadedTasks⟩ := @items_written _ _ _ _ _ _ _ _ "workflow_tasks"
    ctx.workflowTasks h (by simp [writeRunRecord, SerdeValue.get?, List.lookup_cons])
  obtain ⟨dependencies, hdependencies, hloadedDependencies⟩ :=
    @items_written _ _ _ _ _ _ _ _ "workflow_dependencies" ctx.workflowDependencies h
      (by simp [writeRunRecord, SerdeValue.get?, List.lookup_cons])
  refine ⟨tasks, dependencies, htasks, hdependencies, ?_⟩
  have hstatus : record.index "status" = .ofJson (.str status.name) := index_of_written h
    (by simp [writeRunRecord, SerdeValue.get?, List.lookup_cons, SerdeValue.ofJson])
  have hworkflow : record.index "workflow_ref" = .ofJson (.str ctx.workflowId) := index_of_written h
    (by simp [writeRunRecord, SerdeValue.get?, List.lookup_cons, SerdeValue.ofJson])
  have htemplate : record.index "template_kind" = .ofJson (.ofOption .str ctx.templateKind) :=
    index_of_written h (by simp [writeRunRecord, SerdeValue.get?, List.lookup_cons])
  have hobjective : record.index "objective" = .ofJson (.str ctx.objective) := index_of_written h
    (by simp [writeRunRecord, SerdeValue.get?, List.lookup_cons, SerdeValue.ofJson])
  have hacceptance : record.index "acceptance" = .ofJson (.strs ctx.acceptance) :=
    index_of_written h (by simp [writeRunRecord, SerdeValue.get?])
  have hverifier : record.index "verifier_command" = .ofJson (.str ctx.verifierCommand) :=
    index_of_written h
      (by simp [writeRunRecord, SerdeValue.get?, List.lookup_cons, SerdeValue.ofJson])
  have hartifacts : parseOptionalRecordArray readArtifactRef record "artifacts" =
      .ok ctx.artifacts := array_written readArtifactRef_toJson h
    (by simp [writeRunRecord, SerdeValue.get?, List.lookup_cons])
  have hdecisions : parseOptionalRecordArray readPolicyDecision record "policy_decisions" =
      .ok ctx.policyDecisions := array_written (readPolicyDecision_toJson hdate) h
    (by simp [writeRunRecord, SerdeValue.get?, List.lookup_cons])
  have happrovals : parseOptionalRecordArray readApprovalTicket record "approval_tickets" =
      .ok ctx.approvals := array_written (readApprovalTicket_toJson hdate) h
    (by simp [writeRunRecord, SerdeValue.get?, List.lookup_cons])
  have hrepairs : parseOptionalRecordArray readRepairAttempt record "repair_attempts" =
      .ok ctx.repairAttempts := array_written (readRepairAttempt_toJson hdate) h
    (by simp [writeRunRecord, SerdeValue.get?, List.lookup_cons])
  have htemplateText : (SerdeValue.ofJson (.ofOption .str ctx.templateKind) : SerdeValue F).str? =
      ctx.templateKind := by cases ctx.templateKind <;> rfl
  rw [loadRecord, hstatus, hartifacts, hdecisions, happrovals, loadClosureReports_written hdate h,
    hrepairs, hworkflow, htemplate, hobjective, loadRoles_written hroles h, hloadedTasks,
    hloadedDependencies, compatibility_written h, hacceptance, textItems_strs, hverifier,
    htemplateText, SerdeValue.ofJson, readRunStatus_name]
  rfl

end

/-! ### What a record has in it

The typed parts of a record have no floats and are not nested deeply, so that what a working copy
has from its workflow decides whether its record can be read. -/

theorem depth_strs_le (ss : List String) :
    (SerdeValue.ofJson (.strs ss) : SerdeValue F).depth ≤ 1 := by
  rw [Json.strs, SerdeValue.ofJson, SerdeValue.ofJsonItems_eq_map, SerdeValue.depth_arr_le_iff]
  intro v hv
  obtain ⟨_, hj, rfl⟩ := List.mem_map.mp hv
  obtain ⟨s, -, rfl⟩ := List.mem_map.mp hj
  exact le_rfl

theorem depth_ofOption_str (s : Option String) :
    (SerdeValue.ofJson (.ofOption .str s) : SerdeValue F).depth = 0 := by
  cases s <;> rfl

theorem depth_compatibility_le_iff {compatibility : Option (SerdeValue F)} {n : ℕ} :
    (SerdeValue.ofOption id compatibility).depth ≤ n ↔ ∀ v ∈ compatibility, v.depth ≤ n := by
  cases compatibility <;> simp [SerdeValue.ofOption, SerdeValue.depth]

/-- A compatibility block is read as itself iff it is not `null` and its floats are. -/
theorem filter_traverse_eq_self_iff {f : F → Option F} {compatibility : Option (SerdeValue F)} :
    (compatibility.bind (·.traverse f)).filter (!·.isNull) = compatibility ↔
      compatibility ≠ some .null ∧ ∀ v ∈ compatibility, ∀ x ∈ v.floats, f x = some x := by
  cases compatibility
  case none => simp
  case some v =>
    have hnull : v.isNull = false ↔ v ≠ .null := by cases v <;> simp [SerdeValue.isNull]
    rw [Option.bind_some, Option.filter_eq_some_iff, SerdeValue.traverse_eq_self_iff]
    simp [hnull, and_comm]

theorem depth_artifactRef_le (a : ArtifactRef) :
    (SerdeValue.ofJson a.toJson : SerdeValue F).depth ≤ 2 := by
  rw [ArtifactRef.toJson, SerdeValue.ofJson, SerdeValue.depth_obj_le_iff]
  simp [SerdeValue.ofJsonMembers, depth_strs_le, SerdeValue.ofJson, SerdeValue.depth]

theorem depth_records_le {α : Type} {toJson : α → Json}
    (h : ∀ a, (SerdeValue.ofJson (toJson a) : SerdeValue F).depth ≤ 2) (as : List α) :
    (records toJson as : SerdeValue F).depth ≤ 3 := by
  rw [records, SerdeValue.ofJson, SerdeValue.ofJsonItems_eq_map, SerdeValue.depth_arr_le_iff]
  intro v hv
  obtain ⟨_, hj, rfl⟩ := List.mem_map.mp hv
  obtain ⟨a, -, rfl⟩ := List.mem_map.mp hj
  exact h a

/-! ### Roles -/

theorem loadRoles_ne_nil (record : SerdeValue F) : loadRoles record ≠ [] := by
  rw [loadRoles]
  cases h : (textItems (record.index "roles")).filter (· ≠ [])
  case none => exact List.cons_ne_nil _ _
  case some roles => exact of_decide_eq_true (Option.filter_eq_some_iff.mp h).2

theorem roles_ne_nil_of_loadWorkflow {parsed workflow : WorkflowSpec F}
    (h : loadWorkflow parsed = .ok workflow) : workflow.roles ≠ [] := by
  rw [loadWorkflow] at h
  split_ifs at h with hid hversion hobjective hroles hverifier
  cases h
  exact fun hnil => hroles (List.isEmpty_iff.mpr hnil)

/-! ### Round trips -/

section

variable [Platform] {ctx : RunContext F} {status : RunStatus} {pack report : String}

theorem depth_policyDecision_le (d : PolicyDecision) :
    (SerdeValue.ofJson d.toJson : SerdeValue F).depth ≤ 2 := by
  rw [PolicyDecision.toJson, SerdeValue.ofJson, SerdeValue.depth_obj_le_iff]
  simp [SerdeValue.ofJsonMembers, depth_ofOption_str, SerdeValue.ofJson, SerdeValue.depth]

theorem depth_approvalTicket_le (t : ApprovalTicket) :
    (SerdeValue.ofJson t.toJson : SerdeValue F).depth ≤ 2 := by
  rw [ApprovalTicket.toJson, SerdeValue.ofJson, SerdeValue.depth_obj_le_iff]
  simp [SerdeValue.ofJsonMembers, depth_ofOption_str, SerdeValue.ofJson, SerdeValue.depth]

theorem depth_closureReport_le (r : ClosureReport) :
    (SerdeValue.ofJson r.toJson : SerdeValue F).depth ≤ 2 := by
  rw [ClosureReport.toJson, SerdeValue.ofJson, SerdeValue.depth_obj_le_iff]
  simp [SerdeValue.ofJsonMembers, depth_strs_le, SerdeValue.ofJson, SerdeValue.depth]

theorem depth_repairAttempt_le (r : RepairAttempt) :
    (SerdeValue.ofJson r.toJson : SerdeValue F).depth ≤ 2 := by
  rw [RepairAttempt.toJson, SerdeValue.ofJson, SerdeValue.depth_obj_le_iff]
  simp [SerdeValue.ofJsonMembers, depth_strs_le, Json.nat, SerdeValue.ofJson, SerdeValue.depth]

theorem depth_closure_le (reports : List ClosureReport) :
    (SerdeValue.ofJson (.ofOption ClosureReport.toJson reports.getLast?) : SerdeValue F).depth ≤
      2 := by
  cases reports.getLast?
  case none => exact Nat.zero_le 2
  case some r => exact depth_closureReport_le r

theorem depth_runRecordIntegrity_le :
    (SerdeValue.ofJson (runRecordIntegrity ctx) : SerdeValue F).depth ≤ 1 := by
  rw [runRecordIntegrity, SerdeValue.ofJson, SerdeValue.depth_obj_le_iff]
  simp [SerdeValue.ofJsonMembers, SerdeValue.ofJson, SerdeValue.depth]

theorem depth_writeRunRecord_iff :
    (writeRunRecord ctx status pack report).depth < 128 ↔
      (∀ v ∈ ctx.workflowTasks ++ ctx.workflowDependencies, v.depth ≤ 125) ∧
        ∀ v ∈ ctx.factoryV3Compatibility, v.depth ≤ 126 := by
  have hstrs (ss : List String) := le_trans (depth_strs_le (F := F) ss) (by decide : 1 ≤ 126)
  have hname (s : Option String) := le_of_eq_of_le (depth_ofOption_str (F := F) s) (Nat.zero_le 126)
  have hrecords {α : Type} {toJson : α → Json}
      (h : ∀ a, (SerdeValue.ofJson (toJson a) : SerdeValue F).depth ≤ 2) (as : List α) :=
    le_trans (depth_records_le h as) (by decide : 3 ≤ 126)
  have hclosure (reports : List ClosureReport) :=
    le_trans (depth_closure_le (F := F) reports) (by decide : 2 ≤ 126)
  have hintegrity := le_trans (@depth_runRecordIntegrity_le F _ ctx) (by decide : 1 ≤ 126)
  have htext (s : String) : (SerdeValue.str s : SerdeValue F).depth ≤ 126 := Nat.zero_le 126
  rw [show (128 : ℕ) = 126 + 1 + 1 from rfl, Nat.lt_succ_iff, writeRunRecord,
    SerdeValue.depth_obj_le_iff]
  simp only [List.forall_mem_cons, hstrs, hname, hrecords depth_artifactRef_le,
    hrecords depth_policyDecision_le, hrecords depth_approvalTicket_le,
    hrecords depth_closureReport_le, hrecords depth_repairAttempt_le, hclosure, hintegrity, htext,
    depth_compatibility_le_iff, true_and, List.forall_mem_append, List.not_mem_nil, false_imp_iff,
    implies_true, and_true]
  rw [show (126 : ℕ) = 125 + 1 from rfl, SerdeValue.depth_arr_le_iff, SerdeValue.depth_arr_le_iff]
  constructor
  · rintro ⟨hcompatibility, hdependencies, htasks⟩
    exact ⟨⟨htasks, hdependencies⟩, hcompatibility⟩
  · rintro ⟨⟨htasks, hdependencies⟩, hcompatibility⟩
    exact ⟨hcompatibility, hdependencies, htasks⟩

theorem mem_floats_writeRunRecord {x : F} :
    x ∈ (writeRunRecord ctx status pack report).floats ↔
      ∃ v ∈ ctx.workflowTasks ++ ctx.workflowDependencies ++ ctx.factoryV3Compatibility.toList,
        x ∈ v.floats := by
  have hcompatibility : x ∈ (SerdeValue.ofOption id ctx.factoryV3Compatibility).floats ↔
      ∃ v ∈ ctx.factoryV3Compatibility.toList, x ∈ v.floats := by
    cases ctx.factoryV3Compatibility <;> simp [SerdeValue.ofOption, SerdeValue.floats]
  simp only [writeRunRecord, records, SerdeValue.floats, SerdeValue.floatsMembers,
    SerdeValue.floats_ofJson, List.nil_append, List.mem_append, SerdeValue.mem_floatsItems,
    hcompatibility, List.append_nil, or_and_right, exists_or]
  rw [or_comm, or_comm (b := ∃ v ∈ ctx.workflowTasks, x ∈ v.floats)]

/-- A record is loaded as what was written iff the parts that come from the workflow are printed and
read again. -/
theorem loadRunContext_writeRunRecord_iff [DoubleText F]
    (hdate : ∀ t, parseRfc3339 (rfc3339 t) = some t) (hroles : ctx.roles ≠ []) :
    loadRunContext ctx.targetRepo ctx.runId (writeRunRecord ctx status pack report) =
      .ok (ctx, status) ↔ Printable ctx := by
  constructor
  · intro h
    cases hrecord : (writeRunRecord ctx status pack report).reread <;>
      rw [loadRunContext, hrecord] at h
    case none => cases h
    case some record =>
      obtain ⟨hdepth, hread⟩ := SerdeValue.reread_eq_some_iff.mp hrecord
      obtain ⟨hitems, hcompatibility⟩ := depth_writeRunRecord_iff.mp hdepth
      obtain ⟨tasks, dependencies, htasks, hdependencies, hload⟩ :=
        loadRecord_written hdate hroles hread
      have h := congrArg Prod.fst (Except.ok.inj (hload.symm.trans h))
      have hkept := filter_traverse_eq_self_iff.mp (congrArg RunContext.factoryV3Compatibility h)
      rw [show tasks = ctx.workflowTasks from congrArg RunContext.workflowTasks h,
        SerdeValue.traverseItems_eq_self_iff] at htasks
      rw [show dependencies = ctx.workflowDependencies from
          congrArg RunContext.workflowDependencies h,
        SerdeValue.traverseItems_eq_self_iff] at hdependencies
      refine ⟨hkept.1, fun v hv x hx => ?_, hitems, hcompatibility⟩
      rw [List.mem_append, List.mem_append, Option.mem_toList] at hv
      rcases hv with (hv | hv) | hv
      · exact htasks x (SerdeValue.mem_floatsItems.mpr ⟨v, hv, hx⟩)
      · exact hdependencies x (SerdeValue.mem_floatsItems.mpr ⟨v, hv, hx⟩)
      · exact hkept.2 v hv x hx
  · intro h
    have hself : (writeRunRecord ctx status pack report).reread =
        some (writeRunRecord ctx status pack report) := by
      refine SerdeValue.reread_eq_self_iff.mpr
        ⟨depth_writeRunRecord_iff.mpr ⟨h.depth_items, h.depth_compatibility⟩, fun x hx => ?_⟩
      obtain ⟨v, hv, hxv⟩ := mem_floats_writeRunRecord.mp hx
      exact h.floats v hv x hxv
    have hfloats {items : List (SerdeValue F)}
        (hsub : items ⊆ ctx.workflowTasks ++ ctx.workflowDependencies) :
        SerdeValue.traverseItems readBack items = some items := by
      refine SerdeValue.traverseItems_eq_self_iff.mpr fun x hx => ?_
      obtain ⟨v, hv, hxv⟩ := SerdeValue.mem_floatsItems.mp hx
      exact h.floats v (List.mem_append_left _ (hsub hv)) x hxv
    obtain ⟨tasks, dependencies, htasks, hdependencies, hload⟩ := loadRecord_written hdate hroles
      (SerdeValue.reread_eq_some_iff.mp hself).2
    rw [hfloats (List.subset_append_left _ _), Option.some_inj] at htasks
    rw [hfloats (List.subset_append_right _ _), Option.some_inj] at hdependencies
    have hcompatibility := filter_traverse_eq_self_iff.mpr ⟨h.compatibility_ne_null, fun v hv =>
      h.floats v (List.mem_append_right _ (Option.mem_toList.mpr hv))⟩
    rw [loadRunContext, hself]
    change loadRecord _ _ _ = _
    rw [hload, ← htasks, ← hdependencies, hcompatibility]

variable [DoubleText F]

theorem roles_ne_nil_of_load {targetRepo runId : String} {record : SerdeValue F}
    {loaded : RunContext F} (h : loadRunContext targetRepo runId record = .ok (loaded, status)) :
    loaded.roles ≠ [] := by
  rw [loadRunContext] at h
  split at h
  case h_2 => cases h
  case h_1 record _ =>
    obtain ⟨status, -, h⟩ := bind_eq_ok.mp h
    obtain ⟨artifacts, -, h⟩ := bind_eq_ok.mp h
    obtain ⟨decisions, -, h⟩ := bind_eq_ok.mp h
    obtain ⟨approvals, -, h⟩ := bind_eq_ok.mp h
    obtain ⟨closures, -, h⟩ := bind_eq_ok.mp h
    obtain ⟨repairs, -, h⟩ := bind_eq_ok.mp h
    cases h
    exact loadRoles_ne_nil record

/-- **A run always has roles**, by induction on what built its working copy. -/
theorem Buildable.roles_ne_nil (h : Buildable ctx) : ctx.roles ≠ [] := by
  induction h with
  | start hworkflow => exact roles_ne_nil_of_loadWorkflow hworkflow
  | load _ hload _ => exact roles_ne_nil_of_load hload
  | artifact _ _ ih | decision _ _ ih | ticket _ _ ih | replace _ _ ih | closure _ _ ih
    | repair _ _ ih => exact ih

/-- **Run records round-trip iff what they have from the workflow can be printed**: for every
working copy that commands build and every status. All else in a record always comes back. -/
theorem roundTrips_iff (hdate : ∀ t, parseRfc3339 (rfc3339 t) = some t) (hctx : Buildable ctx)
    (status : RunStatus) (pack report : String) :
    RoundTrips ctx status pack report ↔ Printable ctx := by
  rw [RoundTrips, loadRunContext_writeRunRecord_iff hdate hctx.roles_ne_nil]
  refine and_iff_left_of_imp fun hprintable n => Function.iterate_fixed ?_ n
  have hload : loadRunContext ctx.targetRepo ctx.runId (writeRunRecord ctx status pack report) =
      .ok (ctx, status) :=
    (loadRunContext_writeRunRecord_iff hdate hctx.roles_ne_nil).mpr hprintable
  change rewriteRunRecord _ _ _ _ _ = _
  rw [rewriteRunRecord, hload]
  rfl

end

/-! ### A run with a float

A workflow may give its tasks weights. One half is read back from the record of the run, one
eleventh is not: of its digits `0.09090909090909091` the reader makes the next larger double. -/

/-- Dates are written as strokes. -/
@[reducible] def strokesPlatform : Platform :=
  { spellingPlatform with
    rfc3339 := fun t => .ofList (List.replicate t '1')
    parseRfc3339 := fun s => some s.length }

theorem parseRfc3339_strokes (t : DateTime) :
    strokesPlatform.parseRfc3339 (strokesPlatform.rfc3339 t) = some t :=
  congrArg some ((String.length_ofList).trans (List.length_replicate))

/-- Doubles by their bits, with what is read of the two that the samples have. -/
@[reducible] def sampleDoubles : DoubleText ℕ where
  readBack bits := some (if bits = 0x3fb745d1745d1746 then 0x3fb745d1745d1747 else bits)

attribute [local instance] strokesPlatform sampleDoubles

def weighedWorkflow (weight : ℕ) : WorkflowSpec ℕ where
  id := "weighed"
  version := "0.1.0"
  templateKind := none
  objective := "Weigh the tasks."
  roles := ["planner"]
  tasks := [.obj [("id", .str "plan"), ("weight", .float weight)]]
  dependencies := []
  factoryV3Compatibility := none
  verifierCommand := "true"
  acceptance := []

def weighedContext (weight : ℕ) : RunContext ℕ :=
  startContext "/repo" "run-1" (weighedWorkflow weight)

theorem loadWorkflow_weighed (weight : ℕ) :
    loadWorkflow (weighedWorkflow weight) = .ok (weighedWorkflow weight) := by
  have hid : isBlank "weighed" = false := by decide
  have hversion : isBlank "0.1.0" = false := by decide
  have hobjective : isBlank "Weigh the tasks." = false := by decide
  have hverifier : isBlank "true" = false := by decide
  simp [loadWorkflow, weighedWorkflow, hid, hversion, hobjective, hverifier]

theorem buildable_weighed (weight : ℕ) : Buildable (weighedContext weight) :=
  .start (loadWorkflow_weighed weight)

theorem roundTrips_half :
    RoundTrips (weighedContext 0x3fe0000000000000) .waitingForApproval "pack.json" "index.html" :=
  (roundTrips_iff parseRfc3339_strokes (buildable_weighed _) _ _ _).mpr
    { compatibility_ne_null := by intro h; cases h
      floats := by decide
      depth_items := by decide
      depth_compatibility := by intro v hv; cases hv }

/-- One eleventh is not read back, so that not every working copy comes back from its record. -/
theorem not_roundTrips_eleventh : ¬ ∀ ctx : RunContext ℕ, Buildable ctx →
    ∀ status pack report, RoundTrips ctx status pack report := by
  intro h
  have hload := (h _ (buildable_weighed 0x3fb745d1745d1746) .waitingForApproval "" "").1
  have hprintable := (loadRunContext_writeRunRecord_iff parseRfc3339_strokes
    (buildable_weighed _).roles_ne_nil).mp hload
  have hread := hprintable.floats _ List.mem_cons_self 0x3fb745d1745d1746 (by decide)
  exact absurd hread (by decide)

end Record

end Ao2
