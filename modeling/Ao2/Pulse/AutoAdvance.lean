import Ao2.Interaction.Stateful
import Ao2.Pulse.Gate

/-!
# Auto-advance

`runPulseAutoAdvance` executes the tasks of the packet that `resume.json` names, enters the digest of
the packet in the ledger, publishes what was done and asks for the next packet. A packet whose digest
is in the ledger is not executed again.

The run is a program over the operations of `AdvanceOp`. What it is told from outside (files, exit
codes, the outcome of a write) is in an `AdvanceEnv`, indexed by the number of operations performed
so far; the ledger is part of the world, and is kept from one run to the next.

Which operations the parts of a run perform, whatever they are answered. A `Routine` operation may be
performed anywhere; the others are listed at each part, so that a reader of `P` can leave some out.
-/

namespace Ao2

open Interaction

/-! ### The ledger -/

structure PulseAutoAdvanceLedgerEntry where
  generatedAtUtc : String
  pulseEvalLoopPath : String
  pulseEvalLoopSha256 : String
  taskCount : ℕ
  deriving DecidableEq

/-- A member of a JSON object. -/
def memberText (key : String) (value : List Char) : List Char := quoteJson key ++ ':' :: value

/-- The members of an entry, in the order in which they are written. -/
def PulseAutoAdvanceLedgerEntry.members (e : PulseAutoAdvanceLedgerEntry) : List (List Char) :=
  [memberText "schema_version" (quoteJson "ao2.pulse-auto-advance-ledger-entry.v1"),
    memberText "generated_at_utc" (quoteJson e.generatedAtUtc),
    memberText "pulse_eval_loop_path" (quoteJson e.pulseEvalLoopPath),
    memberText "pulse_eval_loop_sha256" (quoteJson e.pulseEvalLoopSha256),
    memberText "status" (quoteJson "passed"),
    memberText "task_count" (toString e.taskCount).toList]

/-- The text of an entry. -/
def PulseAutoAdvanceLedgerEntry.text (e : PulseAutoAdvanceLedgerEntry) : List Char :=
  '{' :: [','].intercalate e.members ++ ['}']

/-- The line of an entry. -/
def PulseAutoAdvanceLedgerEntry.line (e : PulseAutoAdvanceLedgerEntry) : List Char := e.text ++ ['\n']

section

variable [JsonText]

/-- The digest that a line of the ledger is an entry of. -/
def lineDigest (line : List Char) : Option String :=
  if line.all isWhitespace then none
  else (parseJson (.ofList line)).bind fun item =>
    (item.get? "pulse_eval_loop_sha256").bind Json.str?

/-- The digests in the ledger. A line that is no entry is passed over, and so is a ledger that cannot
be read. -/
def loadSeen : TextFile → List String
  | .text content => (lines content.toList).filterMap lineDigest
  | .absent | .unreadable _ => []

end

/-- A file with something added to its end. -/
def TextFile.append (file : TextFile) (added : List Char) : TextFile :=
  match file with
  | .absent => .text (.ofList added)
  | .unreadable e => .unreadable e
  | .text content => .text (.ofList (content.toList ++ added))

/-! ### Options and results -/

structure PulseAutoAdvanceOptions where
  resumeJson : String
  outDir : String
  ledger : String
  stopFile : String
  maxIterationsOpt : Option ℕ
  allowDuplicate : Bool
  forever : Bool
  sleepSeconds : ℕ
  generateNext : ℕ
  generateNextSleepSecondsOpt : Option ℕ
  prCiGate : ℕ
  prCiGateState : String
  prCiGateUpdate : ℕ
  localOnlyWhilePrBlocked : Bool
  directMainPublish : Bool

namespace PulseAutoAdvanceOptions

/-- The number of iterations after which a run ends; zero for no such number. -/
def maxIterations (o : PulseAutoAdvanceOptions) : ℕ :=
  match o.maxIterationsOpt with
  | some n => n
  | none => if o.forever then 0 else 1

def generateNextSleepSeconds (o : PulseAutoAdvanceOptions) : ℕ :=
  o.generateNextSleepSecondsOpt.getD o.sleepSeconds

end PulseAutoAdvanceOptions

inductive AdvanceStatus where
  | failed | waiting | stopped | running | passed
  deriving DecidableEq

/-- The status of a command of a run. -/
inductive CommandStatus where
  | notChecked | skipped | passed | failed
  deriving DecidableEq

def CommandStatus.ofExit (exitCode : ℤ) : CommandStatus := if exitCode = 0 then passed else failed

structure PrCiGateUpdateInfo where
  status : CommandStatus
  exitCode : ℤ
  reason : String

structure PulseGenerateNextInfo where
  status : CommandStatus
  exitCode : Option ℤ
  reason : String
  gateStatus : Option GateStatus
  localOnlyWhilePrBlocked : Option Bool
  sleepSeconds : Option ℕ

structure LocalOnlyWhilePrBlocked where
  enabled : Bool
  status : CommandStatus
  reason : Option String
  gateStatus : Option GateStatus

structure DirectMainPublishInfo where
  enabled : Bool
  status : CommandStatus
  exitCode : Option ℤ
  reason : Option String

structure PulseAutoAdvanceIterationResult where
  iteration : ℕ
  index : ℕ
  id : String
  title : Option String
  command : Option String
  manifest : Option String
  status : CommandStatus
  exitCode : Option ℤ
  reason : Option String
  expectedEvidence : Option Json

inductive TaskExecutionMode where
  | structuredManifest | recommendedTasks
  deriving DecidableEq

/-- The summary of a run. -/
structure PulseAutoAdvanceRun where
  status : AdvanceStatus
  heartbeat : Bool
  completedIterations : ℕ
  heartbeatCount : ℕ
  prCiGate : PrCiGate
  localOnlyWhilePrBlocked : LocalOnlyWhilePrBlocked
  directMainPublish : DirectMainPublishInfo
  results : List PulseAutoAdvanceIterationResult
  observedEvalLoopSha256 : Option String
  autoAdvance : Option Json
  reason : Option String
  currentIteration : Option ℕ
  currentTaskCount : Option ℕ
  pulseTaskManifestPath : Option String
  taskExecutionMode : Option TaskExecutionMode
  prCiGateUpdate : Option PrCiGateUpdateInfo
  pulseGenerateNext : Option PulseGenerateNextInfo
  generatedNextPacket : Bool
  generatedLocalOnlyPacket : Bool
  registerNextPacket : Bool
  sha256Matches : Option Bool
  operatorPromptSha256 : Option String
  operatorPromptSha256Matches : Option Bool
  operatorPromptObservedSha256 : Option String
  pulseEvalLoopPath : Option String
  pulseEvalLoopSha256 : Option String
  operatorPromptPath : Option String

/-- The gate of a run with nothing read yet. -/
def PrCiGate.unread (o : PulseAutoAdvanceOptions) (status : GateStatus) (reason detail : Option String) :
    PrCiGate where
  enabled := o.prCiGate = 1
  updateEnabled := o.prCiGateUpdate = 1
  statePath := o.prCiGateState
  status := status
  reason := reason
  detail := detail
  requiredChecks := []
  sourceSchemaVersion := none
  branch := none
  pr := none
  trigger := none

/-- The summary that a run begins with. -/
def PulseAutoAdvanceRun.initial (o : PulseAutoAdvanceOptions) : PulseAutoAdvanceRun where
  status := .failed
  heartbeat := false
  completedIterations := 0
  heartbeatCount := 0
  prCiGate := .unread o .notChecked none none
  localOnlyWhilePrBlocked := ⟨o.localOnlyWhilePrBlocked, .notChecked, none, none⟩
  directMainPublish := ⟨o.directMainPublish, .notChecked, none, none⟩
  results := []
  observedEvalLoopSha256 := none
  autoAdvance := none
  reason := none
  currentIteration := none
  currentTaskCount := none
  pulseTaskManifestPath := none
  taskExecutionMode := none
  prCiGateUpdate := none
  pulseGenerateNext := none
  generatedNextPacket := false
  generatedLocalOnlyPacket := false
  registerNextPacket := false
  sha256Matches := none
  operatorPromptSha256 := none
  operatorPromptSha256Matches := none
  operatorPromptObservedSha256 := none
  pulseEvalLoopPath := none
  pulseEvalLoopSha256 := none
  operatorPromptPath := none

/-! ### Operations -/

/-- What is found where a file of a packet is looked for. A file that is no text is known by its
digest only. -/
inductive PacketFile where
  | absent
  | unreadable (error : String)
  | binary (sha256 : String)
  | text (content : String)

/-- The commands that a run runs. The digest is that of the packet which they are run for. -/
inductive AdvanceCommand where
  | gateUpdate
  | generateNext (localOnly : Bool)
  | taskExecutor (digest manifest : String)
  | task (digest : String) (index : ℕ) (command : String)
  | directMainPublish (digest reason : String)
  deriving DecidableEq

inductive AdvanceOp where
  | prepareDirs
  | pathExists (path : String)
  | isFile (path : String)
  /-- The digest is the one that was computed of the file before, if it was. -/
  | readToString (path : String) (sha256 : Option String)
  | sha256Path (path : String)
  | readGateState (path : String)
  | readLedger
  | utcNow
  | runCommand (command : AdvanceCommand)
  | appendLedger (e : PulseAutoAdvanceLedgerEntry)
  | writeSummary (payload : PulseAutoAdvanceRun)
  | sleep (seconds : ℕ)

/-- The answer to an operation. -/
@[reducible] def AdvanceOp.Ans : AdvanceOp → Type
  | pathExists _ | isFile _ => Bool
  | readToString .. | sha256Path _ => Except String String
  | readGateState _ | readLedger => TextFile
  | utcNow => String
  | runCommand _ => Except String ℤ
  | prepareDirs | appendLedger _ | writeSummary _ => Except String Unit
  | sleep _ => Unit

abbrev AdvanceSig : Signature := ⟨AdvanceOp, AdvanceOp.Ans⟩

/-- A program over these operations that may stop with a message. -/
abbrev AdvanceProg := Prog AdvanceSig String

/-- A step that works on the summary. -/
abbrev AdvanceM := StateT PulseAutoAdvanceRun AdvanceProg

/-- Perform one operation. -/
def advanceOp (o : AdvanceOp) : AdvanceProg o.Ans :=
  (Prog.ask o .done : Prog AdvanceSig String (AdvanceSig.Ans o))

/-- Perform an operation that may fail. -/
def tryOp (o : AdvanceOp) {α : Type} (h : o.Ans = Except String α) : AdvanceProg α := do
  let answer ← advanceOp o
  Prog.ofExcept (cast h answer)

def writeSummary : AdvanceM Unit := do
  tryOp (.writeSummary (← get)) rfl

/-! ### Commands -/

/-- The text of a command that is run for a packet or between packets. -/
def AdvanceCommand.text : AdvanceCommand → String
  | gateUpdate => "npm run pulse:pr-ci-gate:update"
  | generateNext _ => "npm run pulse:generate-next"
  | taskExecutor .. => "npm run pulse:task-executor"
  | task _ _ command => command
  | directMainPublish .. => "npm run pulse:direct-main-publish"

def runCommandStrInDir (command : AdvanceCommand) : AdvanceProg ℤ :=
  if splitCommand command.text = [] then .fail "empty command string"
  else tryOp (.runCommand command) rfl

def writeHeartbeat (reason : String) (resume : Option Json) (digest : Option String) :
    AdvanceM Unit := do
  modify fun payload => { payload with
    heartbeat := true
    status := .waiting
    reason := some reason
    heartbeatCount := payload.heartbeatCount + 1
    autoAdvance := (resume.bind (·.get? "auto_advance")).or payload.autoAdvance
    observedEvalLoopSha256 := digest.or payload.observedEvalLoopSha256 }
  writeSummary

/-- What is recorded when no packet is generated because the gate waits. -/
def PulseAutoAdvanceRun.skipGeneration (payload : PulseAutoAdvanceRun) (status : GateStatus) :
    PulseAutoAdvanceRun :=
  { payload with
    pulseGenerateNext := some ⟨.skipped, none, waitingReason, some status, none, none⟩
    generatedNextPacket := false
    generatedLocalOnlyPacket := false
    registerNextPacket := false
    status := .waiting
    reason := some waitingReason }

variable [Platform] [JsonText]

/-- Update the state file of the gate; whether to go on. -/
def refreshPrCiGate (o : PulseAutoAdvanceOptions) (reason : String) : AdvanceM Bool := do
  if o.prCiGate ≠ 1 ∨ o.prCiGateUpdate ≠ 1 then
    modify fun payload => { payload with prCiGateUpdate := some ⟨.skipped, 0, reason⟩ }
    pure true
  else
    let exitCode ← runCommandStrInDir .gateUpdate
    modify fun payload =>
      { payload with prCiGateUpdate := some ⟨.ofExit exitCode, exitCode, reason⟩ }
    if exitCode ≠ 0 then
      modify fun payload => { payload with
        prCiGate := .unread o .waiting (some waitingReason) (some "pr_ci_gate_update_failed") }
      modify (·.skipGeneration .waiting)
      writeSummary
      pure false
    else pure true

/-- Run the command that generates the next packet; whether there is one. -/
def runGenerateNext (o : PulseAutoAdvanceOptions) (reason : String) (localOnly : Bool)
    (gate : PrCiGate) : AdvanceM Bool := do
  let exitCode ← runCommandStrInDir (.generateNext localOnly)
  let generated : Bool := exitCode = 0
  modify fun payload => { payload with
    pulseGenerateNext := some {
      status := .ofExit exitCode
      exitCode := some exitCode
      reason := reason
      gateStatus := if localOnly then some gate.status else none
      localOnlyWhilePrBlocked := if localOnly then some true else none
      sleepSeconds := some o.generateNextSleepSeconds }
    localOnlyWhilePrBlocked :=
      if localOnly then
        ⟨true, .ofExit exitCode, some "pr_ci_gate_blocked_normal_generation", some gate.status⟩
      else payload.localOnlyWhilePrBlocked
    status := if generated then .waiting else .failed
    generatedNextPacket := generated && !localOnly
    generatedLocalOnlyPacket := generated && localOnly
    registerNextPacket := generated
    reason := some (
      if !generated then "generate_next_failed"
      else if localOnly then "generated_local_only_packet" else "generated_next_packet") }
  writeSummary
  pure generated

/-- Ask for the next packet; whether there is one. -/
def pulseGenerateNext (o : PulseAutoAdvanceOptions) (reason : String) : AdvanceM Bool := do
  if !o.forever || o.generateNext ≠ 1 then pure false
  else if !(← refreshPrCiGate o reason) then pure false
  else
    let state ← advanceOp (.readGateState o.prCiGateState)
    let gate := loadPrCiGate (o.prCiGate = 1) o.prCiGateState state reason
    modify fun payload => { payload with prCiGate := gate }
    if gate.status ≠ .passed then
      if o.localOnlyWhilePrBlocked then runGenerateNext o reason true gate
      else
        modify (·.skipGeneration gate.status)
        writeSummary
        pure false
    else runGenerateNext o reason false gate

/-- Publish what a packet has changed; whether the run goes on. -/
def pulseDirectMainPublish (o : PulseAutoAdvanceOptions) (digest reason : String) :
    AdvanceM Bool := do
  if !o.directMainPublish then
    modify fun payload => { payload with
      directMainPublish := ⟨false, .skipped, none, some "direct_main_publish_disabled"⟩ }
    pure true
  else
    let exitCode ← runCommandStrInDir (.directMainPublish digest reason)
    modify fun payload => { payload with
      directMainPublish := ⟨true, .ofExit exitCode, some exitCode, some reason⟩ }
    if exitCode ≠ 0 then
      modify fun payload => { payload with
        status := .failed
        reason := some "direct_main_publish_failed" }
      writeSummary
      pure false
    else
      writeSummary
      pure true

/-! ### A packet -/

/-- A member of a value that is a text. -/
def textMember (value : Json) (key : String) : Option String := (value.get? key).bind Json.str?

/-- Read a JSON file. -/
def readJson (path : String) (sha256 : Option String) : AdvanceProg Json := do
  let content ← tryOp (.readToString path sha256) rfl
  match parseJson content with
  | some value => pure value
  | none => .fail ("invalid JSON in " ++ path)

/-- A packet whose hashes are those of `resume.json`. -/
structure Packet where
  resume : Json
  evalLoopPath : String
  evalLoopSha256 : String

/-- Why a round does not come to a packet. -/
inductive PacketEnd where
  | failed (reason : String)
  | stopped (reason : String)

/-- The digest of the operator prompt, if there is one. -/
def operatorPromptDigest (path : String) : AdvanceProg (Option String) := do
  if ← advanceOp (.isFile path) then
    let digest ← tryOp (.sha256Path path) rfl
    pure (some digest)
  else pure none

/-- What the summary says about the hashes of a packet. -/
def PulseAutoAdvanceRun.recordHashes (payload : PulseAutoAdvanceRun) (packet : Packet)
    (promptPath : String) (prompt : Option String) : PulseAutoAdvanceRun :=
  let expected := (textMember packet.resume "pulse_eval_loop_sha256").getD ""
  { payload with
    pulseEvalLoopPath := some packet.evalLoopPath
    pulseEvalLoopSha256 := some expected
    observedEvalLoopSha256 := some packet.evalLoopSha256
    operatorPromptPath := some promptPath
    operatorPromptSha256 := textMember packet.resume "operator_prompt_sha256"
    autoAdvance := packet.resume.get? "auto_advance"
    sha256Matches := some (packet.evalLoopSha256 = expected)
    operatorPromptSha256Matches := some (textMember packet.resume "operator_prompt_sha256" = prompt)
    operatorPromptObservedSha256 := prompt }

/-- The exit gate is mentioned in a resume file. -/
def continuesUntilExitGate (resume : Json) : Bool :=
  ((((resume.get? "auto_advance").bind (·.get? "continue_until_exit_gate")).bind
    Json.bool?).getD false)

/-- The event-loop decision next to the packet says to stop. -/
def decisionSaysStop (path : String) : AdvanceProg Bool := do
  if ← advanceOp (.isFile path) then
    let decision ← readJson path none
    pure (((decision.get? "event_loop").bind (textMember · "action")) = some "stop")
  else pure false

/-- Look at the packet that `resume.json` names. -/
def lookAtPacket (o : PulseAutoAdvanceOptions) : AdvanceM (Except PacketEnd Packet) := do
  let resume ← readJson o.resumeJson none
  match textMember resume "pulse_eval_loop_path" with
  | none => liftM (Prog.fail "missing pulse_eval_loop_path in resume.json" : AdvanceProg _)
  | some rel =>
    let dir := parentPath o.resumeJson
    let evalLoopPath := joinPath dir rel
    if !(← advanceOp (.isFile evalLoopPath)) then
      pure (.error (.failed ("eval_loop_path_missing: " ++ evalLoopPath)))
    else
      let evalLoopSha256 ← tryOp (.sha256Path evalLoopPath) rfl
      let promptPath :=
        joinPath dir ((textMember resume "operator_prompt_path").getD "operator-prompt.txt")
      let prompt ← operatorPromptDigest promptPath
      let packet : Packet := ⟨resume, evalLoopPath, evalLoopSha256⟩
      modify (·.recordHashes packet promptPath prompt)
      if evalLoopSha256 ≠ (textMember resume "pulse_eval_loop_sha256").getD "" then
        pure (.error (.failed "eval_loop_hash_mismatch"))
      else if textMember resume "operator_prompt_sha256" ≠ prompt then
        pure (.error (.failed "operator_prompt_hash_mismatch"))
      else if !continuesUntilExitGate resume then
        pure (.error (.failed "auto_advance_continue_until_exit_gate_missing"))
      else if ← decisionSaysStop (joinPath dir "ao2-event-loop-decision.json") then
        pure (.error (.stopped "readiness_exit_gate_satisfied"))
      else pure (.ok packet)

/-! ### Tasks -/

/-- The result of running a task's command. -/
def taskResult (iteration index : ℕ) (task : Json) (command : String) (exitCode : ℤ) :
    PulseAutoAdvanceIterationResult where
  iteration := iteration
  index := index
  id := (textMember task "id").getD ""
  title := textMember task "title"
  command := some command
  manifest := none
  status := .ofExit exitCode
  exitCode := some exitCode
  reason := none
  expectedEvidence := task.get? "expected_evidence"

/-- The result of a task without a command. -/
def commandMissing (iteration index : ℕ) (task : Json) : PulseAutoAdvanceIterationResult where
  iteration := iteration
  index := index
  id := (textMember task "id").getD ""
  title := textMember task "title"
  command := none
  manifest := none
  status := .failed
  exitCode := none
  reason := some "command_missing"
  expectedEvidence := task.get? "expected_evidence"

/-- The command of a task; empty if it has none. -/
def taskCommand (task : Json) : String := (textMember task "command").getD ""

/-- Execute the recommended tasks in order, up to the first that fails. -/
def executeRecommended (digest : String) (iteration : ℕ) :
    ℕ → List Json → AdvanceProg (List PulseAutoAdvanceIterationResult)
  | _, [] => pure []
  | index, task :: tasks => do
    if taskCommand task = "" then pure [commandMissing iteration index task]
    else
      let exitCode ← runCommandStrInDir (.task digest index (taskCommand task))
      let result := taskResult iteration index task (taskCommand task) exitCode
      if exitCode ≠ 0 then pure [result]
      else
        let results ← executeRecommended digest iteration (index + 1) tasks
        pure (result :: results)

/-- Execute the tasks of a packet, and whether all that were expected have passed. -/
def executeTasks (packet : Packet) (iteration : ℕ) (tasks : List Json) (manifestPath : String) :
    AdvanceM Bool := do
  if ← advanceOp (.isFile manifestPath) then
    modify fun payload => { payload with taskExecutionMode := some .structuredManifest }
    let exitCode ← runCommandStrInDir (.taskExecutor packet.evalLoopSha256 manifestPath)
    modify fun payload => { payload with
      results := payload.results ++ [{
        iteration := iteration
        index := 1
        id := "pulse-task-executor"
        title := some "Pulse structured task manifest executor"
        command := some "npm run pulse:task-executor"
        manifest := some manifestPath
        status := .ofExit exitCode
        exitCode := some exitCode
        reason := none
        expectedEvidence := none }] }
    pure (exitCode = 0)
  else
    modify fun payload => { payload with taskExecutionMode := some .recommendedTasks }
    let results ← executeRecommended packet.evalLoopSha256 iteration 1 tasks
    modify fun payload => { payload with results := payload.results ++ results }
    pure (results.all (·.status = .passed) && results.length = tasks.length)

/-! ### The loop -/

/-- How a round ends: there is another one after so many iterations, or there is none. -/
inductive RoundEnd where
  | again (iteration : ℕ)
  | ended

/-- The last summary says that the pull request has to be waited for. -/
def waitsForPr : AdvanceM Bool := do
  pure ((← get).reason = some waitingReason)

/-- The round ends the run. -/
def endRound (change : PulseAutoAdvanceRun → PulseAutoAdvanceRun) : AdvanceM RoundEnd := do
  modify change
  pure .ended

/-- The packet is in the ledger already. -/
def duplicateRound (o : PulseAutoAdvanceOptions) (packet : Packet) (iteration : ℕ) :
    AdvanceM RoundEnd := do
  if o.forever then
    if ← pulseGenerateNext o "duplicate_eval_loop_digest" then
      advanceOp (.sleep o.generateNextSleepSeconds)
      pure (.again iteration)
    else if ← waitsForPr then pure .ended
    else
      writeHeartbeat "waiting_for_new_eval_loop_digest" packet.resume packet.evalLoopSha256
      advanceOp (.sleep o.sleepSeconds)
      pure (.again iteration)
  else
    endRound fun payload => { payload with
      status := .stopped
      reason := some "duplicate_eval_loop_digest" }

/-- What follows once the tasks of a packet have passed: the ledger first, then the publication. -/
def completeIteration (o : PulseAutoAdvanceOptions) (packet : Packet) (iteration taskCount : ℕ) :
    AdvanceM RoundEnd := do
  modify fun payload => { payload with completedIterations := iteration }
  let generatedAt ← advanceOp .utcNow
  tryOp (.appendLedger ⟨generatedAt, packet.evalLoopPath, packet.evalLoopSha256, taskCount⟩) rfl
  if !(← pulseDirectMainPublish o packet.evalLoopSha256 "completed_iteration") then pure .ended
  else if !o.forever then endRound fun payload => { payload with status := .passed }
  else if 0 < o.maxIterations ∧ o.maxIterations ≤ iteration then
    endRound fun payload => { payload with
      status := .passed
      reason := some "max_iterations_reached" }
  else if ← pulseGenerateNext o "completed_iteration" then
    advanceOp (.sleep o.generateNextSleepSeconds)
    pure (.again iteration)
  else if ← waitsForPr then pure .ended
  else
    modify fun payload => { payload with
      status := .waiting
      reason := some "waiting_for_new_eval_loop_digest" }
    writeSummary
    advanceOp (.sleep o.sleepSeconds)
    pure (.again iteration)

/-- The tasks that a packet recommends, if there are any. -/
def recommendedTasks (evalLoop : Json) : Option (List Json) :=
  ((evalLoop.get? "recommended_tasks").bind Json.arr?).filter (· ≠ [])

/-- Execute a packet. -/
def executePacket (o : PulseAutoAdvanceOptions) (packet : Packet) (iteration : ℕ) :
    AdvanceM RoundEnd := do
  let evalLoop ← readJson packet.evalLoopPath (some packet.evalLoopSha256)
  match recommendedTasks evalLoop with
  | none => endRound fun payload => { payload with reason := some "recommended_tasks_missing" }
  | some tasks =>
    let manifestPath := withFileName packet.evalLoopPath "pulse-task-manifest.json"
    let hasManifest ← advanceOp (.isFile manifestPath)
    modify fun payload => { payload with
      heartbeat := false
      status := .running
      reason := some "executing_recommended_tasks"
      currentIteration := some (iteration + 1)
      currentTaskCount := some tasks.length
      pulseTaskManifestPath := if hasManifest then some manifestPath else none }
    writeSummary
    if ← executeTasks packet (iteration + 1) tasks manifestPath then
      completeIteration o packet (iteration + 1) tasks.length
    else
      endRound fun payload => { payload with
        status := .failed
        reason := some "task_failed" }

/-- One round of the loop. -/
def advanceRound (o : PulseAutoAdvanceOptions) (iteration : ℕ) : AdvanceM RoundEnd := do
  if ← advanceOp (.pathExists o.stopFile) then
    endRound fun payload => { payload with
      status := .stopped
      reason := some "stop_file_present" }
  else if !(← advanceOp (.isFile o.resumeJson)) then
    if o.forever then
      writeHeartbeat "waiting_for_resume_json" none none
      advanceOp (.sleep o.sleepSeconds)
      pure (.again iteration)
    else
      endRound fun payload => { payload with
        reason := some ("resume_json_missing: " ++ o.resumeJson) }
  else
    match ← lookAtPacket o with
    | .error (.failed reason) => endRound fun payload => { payload with reason := some reason }
    | .error (.stopped reason) =>
      endRound fun payload => { payload with
        status := .stopped
        reason := some reason }
    | .ok packet =>
      let seen := loadSeen (← advanceOp .readLedger)
      if packet.evalLoopSha256 ∈ seen ∧ !o.allowDuplicate then duplicateRound o packet iteration
      else executePacket o packet iteration

/-- The loop, with some rounds left; whether it has come to its end. -/
def advanceLoop (o : PulseAutoAdvanceOptions) : ℕ → ℕ → AdvanceM Bool
  | 0, _ => pure false
  | rounds + 1, iteration => do
    match ← advanceRound o iteration with
    | .again iteration => advanceLoop o rounds iteration
    | .ended => pure true

/-- **Auto-advance**, followed for a number of rounds: its status, if it has ended by then. -/
def runPulseAutoAdvance (o : PulseAutoAdvanceOptions) (rounds : ℕ) :
    AdvanceM (Option AdvanceStatus) := do
  tryOp .prepareDirs rfl
  if ← advanceOp (.pathExists o.stopFile) then
    modify fun payload => { payload with
      status := .stopped
      reason := some "stop_file_present" }
    writeSummary
    pure (some .stopped)
  else if !(← advanceOp (.isFile o.resumeJson)) then
    modify fun payload => { payload with
      reason := some ("resume_json_missing: " ++ o.resumeJson) }
    writeSummary
    pure (some .failed)
  else if ← advanceLoop o rounds 0 then
    writeSummary
    pure (some (← get).status)
  else pure none

end Ao2

/-! ## The operations of auto-advance -/

namespace Ao2

open Interaction

/-- The operation looks at something, asks the time or writes the summary. -/
def Routine : AdvanceOp → Prop
  | .prepareDirs | .appendLedger _ | .runCommand _ | .sleep _ => False
  | _ => True

-- the commands are fixed texts, which nothing here should split
attribute [local irreducible] splitCommand

section

variable {P : AdvanceOp → Prop}

theorem advanceOp_only {op : AdvanceOp} (h : P op) : (advanceOp op).Only P :=
  ⟨h, fun _ => trivial⟩

theorem tryOp_only {op : AdvanceOp} {α : Type} (h : op.Ans = Except String α) (hop : P op) :
    (tryOp op h).Only P :=
  (advanceOp_only hop).bind fun _ => .ofExcept _

theorem runCommandStrInDir_only {command : AdvanceCommand} (h : P (.runCommand command)) :
    (runCommandStrInDir command).Only P :=
  .ite trivial (tryOp_only rfl h)

theorem sleep_only {seconds : ℕ} (h : P (.sleep seconds)) :
    OnlyS P (liftM (advanceOp (.sleep seconds)) : AdvanceM Unit) :=
  .lift (advanceOp_only h)

theorem waitsForPr_only : OnlyS P waitsForPr := .bind .get fun _ => .pure _

variable (hP : ∀ op, Routine op → P op)

include hP

theorem writeSummary_only : OnlyS P writeSummary :=
  .bind .get fun _ => .lift (tryOp_only rfl (hP _ trivial))

theorem writeHeartbeat_only (reason : String) (resume : Option Json) (digest : Option String) :
    OnlyS P (writeHeartbeat reason resume digest) :=
  .bind (.modify _) fun _ => writeSummary_only hP

variable {o : PulseAutoAdvanceOptions}

/-! ### The next packet -/

theorem refreshPrCiGate_only (hupdate : P (.runCommand .gateUpdate)) (reason : String) :
    OnlyS P (refreshPrCiGate o reason) := by
  unfold refreshPrCiGate
  refine .ite (.bind (.modify _) fun _ => .pure _) ?_
  refine .bind (.lift (runCommandStrInDir_only hupdate)) fun exitCode => .bind (.modify _) fun _ => ?_
  exact .ite (.bind (.modify _) fun _ => .bind (.modify _) fun _ =>
    .bind (writeSummary_only hP) fun _ => .pure _) (.pure _)

theorem runGenerateNext_only {localOnly : Bool} (h : P (.runCommand (.generateNext localOnly)))
    (reason : String) (gate : PrCiGate) : OnlyS P (runGenerateNext o reason localOnly gate) := by
  unfold runGenerateNext
  refine .bind (.lift (runCommandStrInDir_only h)) fun exitCode => .bind (.modify _) fun _ => ?_
  exact .bind (writeSummary_only hP) fun _ => .pure _

theorem pulseGenerateNext_only [Platform] [JsonText] (hupdate : P (.runCommand .gateUpdate))
    (h : ∀ localOnly, P (.runCommand (.generateNext localOnly))) (reason : String) :
    OnlyS P (pulseGenerateNext o reason) := by
  unfold pulseGenerateNext
  refine .ite (.pure _) (.bind (refreshPrCiGate_only hP hupdate reason) fun go => .ite (.pure _) ?_)
  refine .bind (.lift (advanceOp_only (hP _ trivial))) fun state => .bind (.modify _) fun _ => ?_
  refine .ite (.ite (runGenerateNext_only hP (h true) _ _) ?_) (runGenerateNext_only hP (h false) _ _)
  exact .bind (.modify _) fun _ => .bind (writeSummary_only hP) fun _ => .pure _

theorem pulseDirectMainPublish_only {digest reason : String}
    (h : P (.runCommand (.directMainPublish digest reason))) :
    OnlyS P (pulseDirectMainPublish o digest reason) := by
  unfold pulseDirectMainPublish
  refine .ite (.bind (.modify _) fun _ => .pure _) ?_
  refine .bind (.lift (runCommandStrInDir_only h)) fun exitCode => .bind (.modify _) fun _ => ?_
  refine .ite (.bind (.modify _) fun _ => ?_) ?_
  · exact .bind (writeSummary_only hP) fun _ => .pure _
  · exact .bind (writeSummary_only hP) fun _ => .pure _

/-! ### A packet -/

section

variable [JsonText]

theorem readJson_only (path : String) (sha256 : Option String) : (readJson path sha256).Only P := by
  unfold readJson
  refine (tryOp_only rfl (by exact hP _ trivial)).bind fun content => ?_
  cases parseJson content <;> trivial

omit [JsonText] in
theorem operatorPromptDigest_only (path : String) : (operatorPromptDigest path).Only P :=
  (advanceOp_only (by exact hP _ trivial)).bind fun _ =>
    .ite ((tryOp_only rfl (by exact hP _ trivial)).bind fun _ => trivial) trivial

theorem decisionSaysStop_only (path : String) : (decisionSaysStop path).Only P :=
  (advanceOp_only (by exact hP _ trivial)).bind fun _ =>
    .ite ((readJson_only hP _ _).bind fun _ => trivial) trivial

theorem lookAtPacket_only : OnlyS P (lookAtPacket o) := by
  unfold lookAtPacket
  refine .bind (.lift (readJson_only hP _ _)) fun resume => ?_
  cases textMember resume "pulse_eval_loop_path" with
  | none => exact .lift trivial
  | some rel =>
    refine .bind (.lift (advanceOp_only (hP _ trivial))) fun isFile => .ite (.pure _) ?_
    refine .bind (.lift (tryOp_only rfl (hP _ trivial))) fun sha256 => ?_
    refine .bind (.lift (operatorPromptDigest_only hP _)) fun prompt => .bind (.modify _) fun _ => ?_
    refine .ite (.pure _) (.ite (.pure _) (.ite (.pure _) ?_))
    exact .bind (.lift (decisionSaysStop_only hP _)) fun _ => .ite (.pure _) (.pure _)

end

/-! ### Tasks -/

omit hP in
theorem executeRecommended_only {digest : String}
    (h : ∀ index command, P (.runCommand (.task digest index command))) (iteration index : ℕ)
    (tasks : List Json) : (executeRecommended digest iteration index tasks).Only P := by
  induction tasks generalizing index with
  | nil => trivial
  | cons task tasks ih =>
    unfold executeRecommended
    refine .ite trivial ((runCommandStrInDir_only (h _ _)).bind fun exitCode => .ite trivial ?_)
    exact (ih (index + 1)).bind fun _ => trivial

theorem executeTasks_only {packet : Packet}
    (htask : ∀ index command, P (.runCommand (.task packet.evalLoopSha256 index command)))
    (hexecutor : ∀ path, P (.runCommand (.taskExecutor packet.evalLoopSha256 path)))
    (iteration : ℕ) (tasks : List Json) (manifestPath : String) :
    OnlyS P (executeTasks packet iteration tasks manifestPath) := by
  unfold executeTasks
  refine .bind (.lift (advanceOp_only (hP _ trivial))) fun isFile => .ite ?_ ?_
  · refine .bind (.modify _) fun _ => .bind (.lift (runCommandStrInDir_only (hexecutor _))) fun _ => ?_
    exact .bind (.modify _) fun _ => .pure _
  · refine .bind (.modify _) fun _ => .bind (.lift (executeRecommended_only htask _ _ _)) fun _ => ?_
    exact .bind (.modify _) fun _ => .pure _

end

end Ao2
