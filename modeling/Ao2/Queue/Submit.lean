import Ao2.Queue.Entries

/-!
# Submitting a run

A plan or a project start is put into the queue under a run identifier that is not in it.
-/

namespace Ao2

open Interaction

/-! ### Plans -/

/-- The receipt of a submission, as a file where one is asked for. -/
def withReceipt (receiptOut : Option String) (result : Json) : QueueProg Json :=
  match receiptOut with
  | none => pure result
  | some out => do
    atomicWrite out (.json result)
    pure result

/-- A plan that AO2 owns the execution of. -/
def checkPlan (planPath : String) (plan : Json) : Except String Unit := do
  check (plan.index "schema_version" = .str "ao2.factory-v3-compat-governed-plan.v1")
    s!"factory queue-submit requires ao2.factory-v3-compat-governed-plan.v1 plan: {planPath}"
  check ((plan.index "parity_checklist_progress").index "factory_v3_drives_workflow" = .bool false ∧
      ((plan.index "ao2_native_plan").index "runnable_workflow").index "factory_v3_drives_workflow" =
        .bool false)
    "refusing to queue factory compat plan unless AO2 owns execution and factory_v3_drives_workflow=false"

/-- The identifier of a run that is submitted. -/
def submittedRunId (kind : String) : Option String → QueueProg String
  | some runId => pure runId
  | none => do
    let now ← performQueue .nowCompact
    pure s!"{kind}-{now}"

def submitResult (runId path : String) (entry : Json) : Json :=
  .object [("schema_version", .str "ao2.factory-v3-compat-workbench-queue-submit.v1"),
    ("status", .str "queued"), ("run_id", .str runId), ("queue_path", .str path), ("entry", entry),
    ("factory_v3_role", .str "parity_oracle_only"), ("ao2_decision_owner", .str "ao2-workbench-queue")]

/-- Put a plan into the queue. -/
def submitPlan (target planPath runId : String) (plan : Json) : QueueProg Json := do
  let queue ← factoryQueueLoad target
  .ofExcept (check (!(entriesOf queue).any fun e => runIdOf e = some runId)
    s!"factory queue already contains run_id {runId}")
  let now ← performQueue .now
  let canonical ← performQueue (.canonicalize planPath)
  let canonicalPlanPath ← inContext s!"canonicalize queued plan {planPath}" canonical
  let planSha256 ← sha256File canonicalPlanPath
  let entry := submittedEntry runId now canonicalPlanPath planSha256 plan
  let (path, _) ← factoryQueueStore target
    (queue.put "entries" (.arr (addEntry entry (entriesOf queue))))
  pure (submitResult runId path entry)

def factoryQueueSubmit (target planPath : String) (runId receiptOut : Option String) :
    QueueProg Json := do
  factoryEnsureTargetRepo target
  let read ← performQueue (.readCompatValue planPath)
  let plan ← .ofExcept read
  .ofExcept (checkPlan planPath plan)
  let runId ← submittedRunId "factory-compat" runId
  let result ← submitPlan target planPath runId plan
  withReceipt receiptOut result

/-! ### Project starts -/

structure FactoryQueueSubmitProjectStartOptions where
  target : String
  projectSpec : String
  projectRoot : String
  runId : Option String
  verifierCommand : String
  provider : Option String
  providerPromptDir : Option String
  signingKey : Option String
  signerId : String
  maxRepairAttempts : ℕ
  outDir : Option String
  handoffBundleOut : Option String
  handoffBundleReport : Option String
  receiptOut : Option String

/-- A character of an identifier, the ones before it in reverse. -/
def sanitizeChar (out : List Char) (c : Char) : List Char :=
  if c.isAlphanum then c.toLower :: out
  else if c = '-' ∨ c = '_' ∨ isWhitespace c then
    if out = [] ∨ out.head? = some '-' then out else '-' :: out
  else out

def sanitizeGreenfieldId (candidate : String) : String :=
  let out := (((trim candidate).toList.foldl sanitizeChar []).dropWhile (· = '-')).reverse
  if out = [] then "greenfield-run" else .ofList out

/-- The keys below which a value says how a provider authenticates. -/
def isAuthBoundary (key : String) : Bool :=
  key.toLower ∈ ["auth", "authentication", "provider_auth", "provider_authentication", "env",
    "environment", "kind", "type"]

def factoryAuthStringIsForbidden (text : String) : Bool :=
  let normalized : String :=
    .ofList ((trim text).toLower.toList.map fun c => if c = '-' then '_' else c)
  normalized ∈ ["api_key", "apikey", "openai_api_key", "anthropic_api_key"] ||
    containsText normalized "bearer token"

mutual

def factoryAuthValueIsForbidden : Json → Bool
  | .str text => factoryAuthStringIsForbidden text
  | .arr items => authItemsForbidden items
  | .obj members => authMembersForbidden members
  | _ => false

def authItemsForbidden : List Json → Bool
  | [] => false
  | item :: items => factoryAuthValueIsForbidden item || authItemsForbidden items

def authMembersForbidden : List (String × Json) → Bool
  | [] => false
  | (_, value) :: members => factoryAuthValueIsForbidden value || authMembersForbidden members

end

mutual

/-- A value asks for authentication by an API key; whether it is below one of the keys is given. -/
def factoryValueRequestsApiKeyAuth (below : Bool) : Json → Bool
  | .obj members => membersRequestApiKeyAuth below members
  | .arr items => itemsRequestApiKeyAuth below items
  | .str text => below && factoryAuthStringIsForbidden text
  | _ => false

def itemsRequestApiKeyAuth (below : Bool) : List Json → Bool
  | [] => false
  | item :: items => factoryValueRequestsApiKeyAuth below item || itemsRequestApiKeyAuth below items

def membersRequestApiKeyAuth (below : Bool) : List (String × Json) → Bool
  | [] => false
  | (key, value) :: members =>
    (isAuthBoundary key && factoryAuthValueIsForbidden value) ||
      factoryValueRequestsApiKeyAuth (below || isAuthBoundary key) value ||
      membersRequestApiKeyAuth below members

end

def rejectFactoryProviderApiKeyAuth (source : String) (value : Json) : Except String Unit :=
  check (!factoryValueRequestsApiKeyAuth false value)
    s!"provider API-key authentication is forbidden in factory-v3 compatibility {source}; use local OAuth CLI provider auth only"

def submitProjectStartResult (runId path : String) (entry : Json) : Json :=
  .object [("schema_version", .str "ao2.factory-project-start-workbench-queue-submit.v1"),
    ("status", .str "queued"), ("job_kind", .str "factory_project_start"), ("run_id", .str runId),
    ("queue_path", .str path), ("entry", entry), ("factory_v3_role", .str "parity_oracle_only"),
    ("control_plane_role", .str "read_only_observer_after_signed_evidence"),
    ("release_acceptance_owner", .str "factory-v3 evaluator-closer"),
    ("ao2_decision_owner", .str "ao2-workbench-queue")]

/-- The directory of a project start, if none is given. -/
def projectStartRunDir (targetRoot runId : String) : String :=
  joinPath (joinPath (joinPath (joinPath targetRoot ".ao2") "factory-compat") "project-start-runs") runId

/-- A key that is there is named by its own path. -/
def canonicalSigningKey (targetRoot : String) : Option String → QueueProg (Option String)
  | none => pure none
  | some path => do
    let path := joinPath targetRoot path
    let r ← performQueue (.canonicalize path)
    match r with
    | .ok canonical => pure (some canonical)
    | .error _ => pure (some path)

/-- Put a project start into the queue; its specification is hashed when its entry is made. -/
def submitProjectStart (targetRoot runId : String) (request : ProjectStartRequest) :
    QueueProg Json := do
  let queue ← factoryQueueLoad targetRoot
  .ofExcept (check (!(entriesOf queue).any fun e => runIdOf e = some runId)
    s!"factory queue already contains run_id {runId}")
  let now ← performQueue .now
  let projectSpecSha256 ← sha256File request.projectSpec
  let entry := submittedProjectStart runId now { request with projectSpecSha256 := projectSpecSha256 }
  .ofExcept (rejectFactoryProviderApiKeyAuth "factory_queue_submit_project_start" entry)
  let (path, _) ← factoryQueueStore targetRoot
    (queue.put "entries" (.arr (addEntry entry (entriesOf queue))))
  pure (submitProjectStartResult runId path entry)

def factoryQueueSubmitProjectStart (options : FactoryQueueSubmitProjectStartOptions) :
    QueueProg Json := do
  factoryEnsureTargetRepo options.target
  let targetRoot ← canonicalTarget options.target
  let specPath := joinPath targetRoot options.projectSpec
  let readable ← performQueue (.isFile specPath)
  .ofExcept (check readable
    s!"factory queue-submit-project-start requires readable --project-spec: {specPath}")
  let canonical ← performQueue (.canonicalize specPath)
  let projectSpec ← inContext s!"canonicalize project-start spec {specPath}" canonical
  let runId ← submittedRunId "factory-project-start" options.runId
  let runId := sanitizeGreenfieldId runId
  let outDir := options.outDir.elim (projectStartRunDir targetRoot runId) (joinPath targetRoot)
  let signingKey ← canonicalSigningKey targetRoot options.signingKey
  let request : ProjectStartRequest :=
    { projectSpec := projectSpec
      projectSpecSha256 := ""
      projectRoot := joinPath targetRoot options.projectRoot
      verifierCommand := options.verifierCommand
      provider := options.provider
      providerPromptDir := options.providerPromptDir.map (joinPath targetRoot)
      signingKey := signingKey
      signerId := options.signerId
      maxRepairAttempts := options.maxRepairAttempts
      outDir := outDir
      handoffBundleOut := options.handoffBundleOut.elim (joinPath outDir "project-start-handoff.tgz")
        (joinPath targetRoot)
      handoffBundleReport := options.handoffBundleReport.elim
        (joinPath outDir "factory-project-start-bundle.json") (joinPath targetRoot) }
  let result ← submitProjectStart targetRoot runId request
  withReceipt options.receiptOut result

end Ao2
