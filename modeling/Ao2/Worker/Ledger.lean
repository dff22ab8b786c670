import Ao2.Python.Records

/-!
# The ledger of the outbound worker

`WorkerState` keeps the requests that it has claimed in two files: a journal, to which one line is
added for each event, and a snapshot, which is replaced after it. A new process reads the snapshot
and replays the journal over it. What it cannot read it passes over.

Texts are what Python makes of them: an identifier is a list of code points, which may hold
surrogates, and a line of the journal is the text that `json.dumps` writes.
-/

namespace Ao2

open Python

/-! ### Constants -/

def ledgerSchema : PyStr := ofString "ao2.windows-outbound-worker-ledger.v1"

def ledgerEventSchema : PyStr := ofString "ao2.windows-outbound-worker-ledger-event.v1"

/-! ### Tasks -/

/-- What the ledger says about a request. -/
abbrev TaskItem (F : Type) := List (PyStr × PyJson F)

/-- The requests in a ledger. -/
abbrev Tasks (F : Type) := List (PyStr × TaskItem F)

variable {F : Type}

/-- The ledger as a value. -/
def ledgerJson (tasks : Tasks F) : PyJson F :=
  .dict [(ofString "schema_version", .str ledgerSchema),
    (ofString "tasks", .dict (tasks.map fun task => (task.1, .dict task.2)))]

/-- A task of a ledger that was read. -/
def readTask (m : PyStr × PyJson F) : Option (PyStr × TaskItem F) :=
  match m.2 with
  | .dict item => some (m.1, item)
  | _ => none

/-- The tasks of a ledger that was read; what is no dictionary is a blank ledger. With tasks that are
no dictionaries the worker does not come up. -/
def readTasks : PyJson F → Option (Tasks F)
  | .dict members =>
    match members.lookup (ofString "tasks") with
    | none => some []
    | some (.dict tasks) => tasks.mapM readTask
    | some _ => none
  | _ => some []

/-- The item of a request that is claimed. -/
def claimedItem (action : PyStr) (startedAt : PyJson F) : TaskItem F :=
  [(ofString "action", .str action), (ofString "status", .str (ofString "in_progress")),
    (ofString "started_at", startedAt)]

/-- An item with a new status. -/
def completedItem (status : PyStr) (completedAt : PyJson F) (item : TaskItem F) : TaskItem F :=
  setItem (ofString "completed_at") completedAt (setItem (ofString "status") (.str status) item)

/-! ### Events -/

inductive LedgerEvent where
  | claim (requestId action : PyStr)
  | complete (requestId status : PyStr)
  deriving DecidableEq

/-- The members of an event in the journal. -/
def LedgerEvent.members (recordedAt : PyStr) : LedgerEvent → List (PyStr × PyJson F)
  | claim requestId action =>
    [(ofString "schema_version", .str ledgerEventSchema),
      (ofString "recorded_at_utc", .str recordedAt), (ofString "event", .str (ofString "claim")),
      (ofString "request_id", .str requestId), (ofString "action", .str action)]
  | complete requestId status =>
    [(ofString "schema_version", .str ledgerEventSchema),
      (ofString "recorded_at_utc", .str recordedAt), (ofString "event", .str (ofString "complete")),
      (ofString "request_id", .str requestId), (ofString "status", .str status)]

/-- Put a request into the ledger unless it is there. -/
def setDefault (requestId : PyStr) (item : TaskItem F) (tasks : Tasks F) : Tasks F :=
  if (tasks.lookup requestId).isSome then tasks else setItem requestId item tasks

/-- What an event does to the tasks. -/
def applyEvent (time : PyJson F) (tasks : Tasks F) : LedgerEvent → Tasks F
  | .claim requestId action => setDefault requestId (claimedItem action time) tasks
  | .complete requestId status =>
    setItem requestId (completedItem status time ((tasks.lookup requestId).getD [])) tasks

/-- A member that is a text with something in it. -/
def textOf (members : List (PyStr × PyJson F)) (key : String) : Option PyStr :=
  match members.lookup (ofString key) with
  | some (.str s) => if s = [] then none else some s
  | _ => none

/-- The event that a record of the journal is of, if it is one of the worker's. -/
def readEvent (members : List (PyStr × PyJson F)) : Option LedgerEvent :=
  if textOf members "schema_version" ≠ some ledgerEventSchema then none
  else
    match textOf members "request_id", textOf members "event" with
    | some requestId, some event =>
      if event = ofString "claim" then (textOf members "action").map (.claim requestId)
      else if event = ofString "complete" then (textOf members "status").map (.complete requestId)
      else none
    | _, _ => none

variable [FloatText F]

/-- The line of an event. -/
def LedgerEvent.line (recordedAt : PyStr) (e : LedgerEvent) : List Char :=
  dumps .line 0 (sortKeys (.dict (e.members recordedAt) : PyJson F))

/-- What a line of the journal does to the tasks. -/
def replayLine (now : PyStr) (tasks : Tasks F) (line : List Char) : Tasks F :=
  match loads line with
  | some (.dict members) =>
    match readEvent members with
    | some e => applyEvent ((members.lookup (ofString "recorded_at_utc")).getD (.str now)) tasks e
    | none => tasks
  | _ => tasks

def replayJournal (now : PyStr) (journal : List Char) (tasks : Tasks F) : Tasks F :=
  (splitlines journal).foldl (replayLine now) tasks

/-! ### The state directory -/

/-- The two files. A journal that is not there is as good as an empty one. -/
structure StateDir where
  journal : List Char
  snapshot : Option (List Char)

/-- The tasks of a snapshot. One that is no JSON text is a blank ledger. -/
def readSnapshot (snapshot : Option (List Char)) : Option (Tasks F) :=
  match snapshot with
  | none => some []
  | some text =>
    match loads text with
    | none => some []
    | some ledger => readTasks ledger

/-- What a new process knows; nothing if it does not come up. -/
def load (now : PyStr) (dir : StateDir) : Option (Tasks F) :=
  (readSnapshot dir.snapshot).map (replayJournal now dir.journal)

/-- The text of a snapshot. -/
def snapshotText (tasks : Tasks F) : List Char :=
  dumps .indented 0 (sortKeys (ledgerJson tasks)) ++ ['\n']

/-! ### The state of a process -/

/-- The state directory and the tasks of the process that works on it. -/
structure WorkerState (F : Type) where
  dir : StateDir
  tasks : Tasks F

namespace WorkerState

/-- Nothing claimed yet. -/
def fresh : WorkerState F := ⟨⟨[], none⟩, []⟩

def hasRequest (s : WorkerState F) (requestId : PyStr) : Bool := (s.tasks.lookup requestId).isSome

/-- Add a line to the journal. -/
def appendJournalEvent (s : WorkerState F) (recordedAt : PyStr) (e : LedgerEvent) : WorkerState F :=
  { s with dir.journal := s.dir.journal ++ (e.line (F := F) recordedAt ++ ['\n']) }

/-- Replace the snapshot. -/
def save (s : WorkerState F) : WorkerState F :=
  { s with dir.snapshot := some (snapshotText s.tasks) }

/-- Claim a request; whether it was free. The texts are what the clock says, one after the other. -/
def claim (recordedAt startedAt requestId action : PyStr) (s : WorkerState F) :
    Bool × WorkerState F :=
  if s.hasRequest requestId then (false, s)
  else
    let s := s.appendJournalEvent recordedAt (.claim requestId action)
    let s := { s with tasks := setItem requestId (claimedItem action (.str startedAt)) s.tasks }
    (true, s.save)

/-- Complete a request. -/
def complete (recordedAt completedAt requestId status : PyStr) (s : WorkerState F) :
    WorkerState F :=
  let s := s.appendJournalEvent recordedAt (.complete requestId status)
  let item := completedItem status (.str completedAt) ((s.tasks.lookup requestId).getD [])
  save { s with tasks := setItem requestId item s.tasks }

end WorkerState

end Ao2
