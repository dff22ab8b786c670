import Ao2.Worker.Authorization

/-!
# Accepting tasks

A poll reads the latest board, looks at its tasks as a whole and then accepts them one by one. A task
that is accepted is claimed, and then answered at once or handed to a thread that runs its action.

## Main results

* `acceptFresh_cases` — what becomes of a task whose request has not been claimed
-/

namespace Ao2

open Python Interaction

/-! ### Constants -/

def controlTaskSchema : String := "ao2.cross-host.control-task.v1"

def allowlistedActions : List PyStr :=
  ["status", "publish_capability", "sync_ao_stack", "ao2_doctor", "timeout_fixture",
    "windows_stack_qualification"].map ofString

/-- The actions that need no authorization. -/
def unsignedObserverActions : List PyStr := ["status", "publish_capability"].map ofString

def maxControlTasksPerBoard : ℕ := 32

def maxExecutionAuthorizationsPerPoll : ℕ := 4

variable {F : Type} [FloatValue F] [WorkerLibrary]

/-! ### What is read of a task -/

omit [FloatValue F] [WorkerLibrary] in
/-- The part of a task that is for this worker. -/
def crossHost (config : WorkerConfig) : PyJson F → Option (Members F)
  | .dict task =>
    match getItem task "ao2_cross_host" with
    | .dict cross =>
      if isText (getItem cross "schema_version") (ofString controlTaskSchema) &&
          isText (getItem cross "target_node") config.nodeId then some cross
      else none
    | _ => none
  | _ => none

omit [WorkerLibrary] in
def requestIdOf (cross : Members F) : PyStr := strOrEmpty (getItem cross "request_id")

omit [WorkerLibrary] in
def actionOf (cross : Members F) : PyStr := strOrEmpty (getItem cross "action")

omit [FloatValue F] [WorkerLibrary] in
def parametersOf (cross : Members F) : Option (Members F) :=
  match getItem cross "parameters" with
  | .dict parameters => some parameters
  | _ => none

omit [FloatValue F] [WorkerLibrary] in
theorem parametersOf_some {cross parameters : Members F} (h : parametersOf cross = some parameters) :
    getItem cross "parameters" = .dict parameters := by
  rw [parametersOf] at h
  split at h
  · next hparameters => rw [hparameters, Option.some.inj h]
  · cases h

/-! ### Results of a task that is not run -/

def failedResult (category : String) (others : Members F) : Members F :=
  [(ofString "status", .str (ofString "failed")), (ofString "error_category", .str (ofString category)),
    (ofString "arbitrary_command_execution", .bool false)] ++ others

def notAllowlisted : Members F :=
  failedResult "action_not_allowlisted" [(ofString "allowed_actions", .list (allowlistedActions.map .str))]

def invalidParameters (action : PyStr) : Members F :=
  failedResult "invalid_parameters"
    [(ofString "execution_authorization_required", .bool (action ∉ unsignedObserverActions))]

def notAuthorized (reason : String) : Members F :=
  failedResult reason [(ofString "execution_authorization_required", .bool true)]

/-- What a result says of the authorization of its task. -/
def authorizationReceipt (cross : Members F) : Option (Members F) :=
  match getItem cross "execution_authorization" with
  | .dict authorization =>
    match getItem authorization "subject" with
    | .dict subject =>
      some ([(ofString "schema_version", .str (ofString executionAuthorizationSchema)),
        (ofString "status", .str (ofString "verified"))] ++
        ["action_digest", "target_node", "request_id", "issued_at", "expires_at",
          "signing_public_key_sha256"].map fun key => (ofString key, getItem subject key))
    | _ => none
  | _ => none

/-! ### Accepting a task -/

/-- Post a result that says why a task is not run. -/
def rejectTask (requestId action : PyStr) (result : Members F) :
    Prog (WorkerSignature F) PyError String := do
  performOp (.postResult requestId action result)
  pure "rejected"

/-- Claim a request and do what it asks for. -/
def startTask (requestId action : PyStr) (parameters : Members F) (receipt : Option (Members F)) :
    Prog (WorkerSignature F) PyError String := do
  let claimed ← performOp (.claim requestId action)
  if !claimed then pure "duplicate"
  else if action ∈ unsignedObserverActions then do
    let result ← performOp .statusResult
    performOp (.postResult requestId action result)
    performOp (.complete requestId (ofString "accepted"))
    pure "completed"
  else do
    performOp (.runAction requestId action parameters receipt)
    pure "started"

/-- Start a task that needs an authorization, if it has one. -/
def startAuthorized (config : WorkerConfig) (cross parameters : Members F) :
    Prog (WorkerSignature F) PyError String := do
  let verdict ← (verifyExecutionAuthorization config cross).attempt
  match verdict with
  | .ok _ => startTask (requestIdOf cross) (actionOf cross) parameters (authorizationReceipt cross)
  | .error (.refused reason) => rejectTask (requestIdOf cross) (actionOf cross) (notAuthorized reason)
  | .error (.raised e) => .fail e

/-- A task whose request has not been claimed. -/
def acceptFresh (config : WorkerConfig) (cross : Members F) :
    Prog (WorkerSignature F) PyError String :=
  if truthy (getItem cross "arbitrary_command_execution") = true ∨
      actionOf cross ∉ allowlistedActions then
    rejectTask (requestIdOf cross)
      (if actionOf cross = [] then ofString "unknown" else actionOf cross) notAllowlisted
  else
    match parametersOf cross with
    | none => rejectTask (requestIdOf cross) (actionOf cross) (invalidParameters (actionOf cross))
    | some parameters =>
      if actionOf cross ∈ unsignedObserverActions then
        startTask (requestIdOf cross) (actionOf cross) parameters none
      else startAuthorized config cross parameters

def acceptControlTask (config : WorkerConfig) (task : PyJson F) :
    Prog (WorkerSignature F) PyError String :=
  match crossHost config task with
  | none => pure "ignored"
  | some cross =>
    if requestIdOf cross = [] then pure "ignored"
    else do
      let known ← performOp (.hasRequest (requestIdOf cross))
      if known then pure "duplicate" else acceptFresh config cross

/-- **What becomes of a task whose request has not been claimed**: it is rejected, or it is started, with
an authorization where it needs one. -/
theorem acceptFresh_cases {config : WorkerConfig} {cross : Members F}
    {P : Prog (WorkerSignature F) PyError String → Prop}
    (hreject : ∀ action result, P (rejectTask (requestIdOf cross) action result))
    (hobserver : ∀ parameters, getItem cross "parameters" = .dict parameters →
      actionOf cross ∈ unsignedObserverActions →
      P (startTask (requestIdOf cross) (actionOf cross) parameters none))
    (hauthorized : ∀ parameters, getItem cross "parameters" = .dict parameters →
      truthy (getItem cross "arbitrary_command_execution") = false →
      actionOf cross ∈ allowlistedActions → actionOf cross ∉ unsignedObserverActions →
      P (startAuthorized config cross parameters)) :
    P (acceptFresh config cross) := by
  rw [acceptFresh]
  by_cases hrejected : truthy (getItem cross "arbitrary_command_execution") = true ∨
      actionOf cross ∉ allowlistedActions
  · rw [if_pos hrejected]
    exact hreject _ _
  · rw [if_neg hrejected]
    obtain ⟨harbitrary, hallowed⟩ := not_or.mp hrejected
    cases hparameters : parametersOf cross with
    | none => exact hreject _ _
    | some parameters =>
      dsimp only
      have hdict := parametersOf_some hparameters
      by_cases hunsigned : actionOf cross ∈ unsignedObserverActions
      · rw [if_pos hunsigned]
        exact hobserver parameters hdict hunsigned
      · rw [if_neg hunsigned]
        rw [Bool.not_eq_true] at harbitrary
        exact hauthorized parameters hdict harbitrary (not_not.mp hallowed) hunsigned

/-! ### Polling -/

/-- How many tasks need an authorization, unless two are about the same request. The identifiers are
those of the tasks before. -/
def prescan (config : WorkerConfig) :
    List (PyJson F) → List PyStr → ℕ → Except String ℕ
  | [], _, count => .ok count
  | task :: tasks, requestIds, count =>
    match crossHost config task with
    | none => prescan config tasks requestIds count
    | some cross =>
      if requestIdOf cross ∈ requestIds then .error "duplicate_control_request_id"
      else
        prescan config tasks
          (if requestIdOf cross = [] then requestIds else requestIdOf cross :: requestIds)
          (if actionOf cross ∈ unsignedObserverActions then count else count + 1)

/-- Accept the tasks one after the other. -/
def acceptTasks (config : WorkerConfig) :
    List (PyJson F) → String → Prog (WorkerSignature F) PyError String
  | [], accepted => pure accepted
  | task :: tasks, accepted => do
    let status ← acceptControlTask config task
    acceptTasks config tasks (if status = "ignored" then accepted else status)

/-- The tasks of a board. -/
def pollTasks (config : WorkerConfig) (tasks : List (PyJson F)) :
    Prog (WorkerSignature F) PyError String :=
  if tasks.length > maxControlTasksPerBoard then pure "board_task_limit_exceeded"
  else
    match prescan config tasks [] 0 with
    | .error reason => pure reason
    | .ok count =>
      if count > maxExecutionAuthorizationsPerPoll then pure "authorization_budget_exceeded"
      else acceptTasks config tasks "no_control_task"

def pollBoard (config : WorkerConfig) (board : PyJson F) : Prog (WorkerSignature F) PyError String :=
  if !truthy board then pure "no_board"
  else
    match board with
    | .dict members =>
      match getItem members "tasks" with
      | .list tasks => pollTasks config tasks
      | _ => pure "malformed_task_board"
    | _ => .fail .attributeError

def pollOnce (config : WorkerConfig) : Prog (WorkerSignature F) PyError String := do
  let flushed ← performOp .flushResultOutbox
  if !flushed then .fail .osError
  else do
    let board ← performOp .latestBoard
    match board with
    | none => .fail .osError
    | some board => pollBoard config board

/-- So many polls; an exception ends the poll that raises it. -/
def runForever (config : WorkerConfig) : ℕ → Prog (WorkerSignature F) PyError Unit
  | 0 => pure ()
  | polls + 1 => do
    let _ ← ((pollOnce config).attempt : Prog (WorkerSignature F) PyError (Except PyError String))
    runForever config polls

end Ao2
