import Ao2.Texts.Lines

/-!
# The pulse event loop

`runPulseEventLoop` runs a command again and again, as long as the decision that is read after each
run says so, up to a number of runs and a span of time. The decision is in a file, or in what the
command printed.

What decides about a run from outside is in an `EventLoopEnv`: how each command ends, what it does
to the decision file, and what the clock says each time it is read.

## Main results

* `loopFrom_ends` — the three ways in which the loop ends
* `faithful_iff` — exactly when the summary says how the loop ended
* `continued_iff` — exactly what the command is run again on
-/

namespace Ao2

/-! ### Decisions -/

def codexCronDecisionSchema : String := "codex-cron.event-loop-decision.v1"

def ao2PulseDecisionSchema : String := "ao2.pulse-event-loop-decision.v1"

inductive PulseEventLoopAction where
  | cont | stop | backoff | fail
  deriving DecidableEq, Repr

def PulseEventLoopAction.name : PulseEventLoopAction → String
  | cont => "continue"
  | stop => "stop"
  | backoff => "backoff"
  | fail => "fail"

structure PulseEventLoopDecisionValue where
  action : PulseEventLoopAction
  reason : Option String
  nextTaskId : Option String
  deriving DecidableEq

/-- The decision that stops a loop as failed. -/
def failDecision (reason : String) : PulseEventLoopDecisionValue := ⟨.fail, some reason, none⟩

def actionNamed (name : String) : Option PulseEventLoopAction :=
  [.cont, .stop, .backoff, .fail].find? fun action => action.name = name

/-- An action, written as its name or as an object with the name as its only key. -/
def actionFromValue : Json → Option PulseEventLoopAction
  | .str name => actionNamed name
  | .obj [(name, .null)] => actionNamed name
  | _ => none

/-- An optional text, which may be left out. -/
def optionalText : Option Json → Option (Option String)
  | none | some .null => some none
  | some (.str s) => some (some s)
  | some _ => none

/-- The decision in the member `event_loop`: an object, or its fields in order. -/
def decisionFields : Json → Option PulseEventLoopDecisionValue
  | .obj members => do
    let action ← (members.lookup "action").bind actionFromValue
    let reason ← optionalText (members.lookup "reason")
    let nextTaskId ← optionalText (members.lookup "next_task_id")
    pure ⟨action, reason, nextTaskId⟩
  | .arr (action :: rest) => do
    let action ← actionFromValue action
    let reason ← optionalText rest[0]?
    let nextTaskId ← optionalText rest[1]?
    if rest.length ≤ 2 then pure ⟨action, reason, nextTaskId⟩ else none
  | _ => none

def decisionFromValue (value : Json) : Option PulseEventLoopDecisionValue := do
  let schema ← (value.get? "schema_version").bind Json.str?
  if schema ≠ codexCronDecisionSchema ∧ schema ≠ ao2PulseDecisionSchema then none
  else (value.get? "event_loop").bind decisionFields

/-- The first decision among some lines that look like objects. -/
def decisionInLines [JsonText] : List String → Except String PulseEventLoopDecisionValue
  | [] => .error "no event-loop decision emitted"
  | line :: lines =>
    match parseJson line with
    | none =>
      if containsText line codexCronDecisionSchema || containsText line ao2PulseDecisionSchema then
        .error "malformed event-loop decision json"
      else decisionInLines lines
    | some value =>
      match decisionFromValue value with
      | some decision => .ok decision
      | none => decisionInLines lines

/-- The decision in a text: the whole of it, or else the first line that is one. -/
def parseEventLoopDecision [JsonText] (text : String) :
    Except String PulseEventLoopDecisionValue :=
  match (parseJson (trim text)).bind decisionFromValue with
  | some decision => .ok decision
  | none =>
    decisionInLines (((text.toList.splitOn '\n').map fun line => trim (.ofList line)).filter
      fun line => line.toList.head? = some '{')

/-! ### Commands -/

/-- What `splitCommand` has read so far. -/
structure CommandSplit where
  args : List String
  current : List Char
  inDoubleQuote : Bool
  inSingleQuote : Bool

/-- One more character of a command. -/
def CommandSplit.push (s : CommandSplit) (c : Char) : CommandSplit :=
  if c = '"' ∧ !s.inSingleQuote then { s with inDoubleQuote := !s.inDoubleQuote }
  else if c = '\'' ∧ !s.inDoubleQuote then { s with inSingleQuote := !s.inSingleQuote }
  else if (c = ' ' ∨ c = '\t' ∨ c = '\r' ∨ c = '\n') ∧ !s.inDoubleQuote ∧ !s.inSingleQuote then
    if s.current.isEmpty then s
    else { s with args := s.args ++ [.ofList s.current], current := [] }
  else { s with current := s.current ++ [c] }

/-- The arguments of a command, split at white space outside of quotes. -/
def splitCommand (command : String) : List String :=
  let s := command.toList.foldl CommandSplit.push ⟨[], [], false, false⟩
  if s.current.isEmpty then s.args else s.args ++ [.ofList s.current]

/-- How a command ended. -/
structure ProcessOutput where
  success : Bool
  /-- Its exit status as a text. -/
  status : String
  stdout : String

/-! ### Options and surroundings -/

structure EventLoopOptions where
  commandStr : String
  decisionFilePath : Option String
  maxChainRuns : ℕ
  maxRuntimeSeconds : ℕ
  stdoutFallback : Bool
  applyRoot : String

namespace EventLoopOptions

/-- The decision file, below the directory the commands are run in if its path is relative. -/
def resolvedDecisionPath (o : EventLoopOptions) : Option String :=
  o.decisionFilePath.map fun p =>
    if p.toList.head? = some '/' then p else o.applyRoot ++ "/" ++ p

/-- The span of time after which no command is started, in nanoseconds. -/
def limit (o : EventLoopOptions) : ℕ := o.maxRuntimeSeconds * 1000000000

end EventLoopOptions

/-- What is found where a text file is looked for. -/
inductive TextFile where
  | absent
  | unreadable (error : String)
  | text (content : String)

/-- What decides about a run of the loop from outside. -/
structure EventLoopEnv where
  /-- The creation of the output directories. -/
  createDirs : Except String Unit
  /-- The time since the start of the run, each time it is read. -/
  elapsed : ℕ → ℕ
  /-- How each run of the command ends: it does not start, or it has an exit status. -/
  command : ℕ → Except String ProcessOutput
  /-- The decision file before the run. -/
  initialFile : TextFile
  /-- What each run of the command does to the decision file, if anything. -/
  writes : ℕ → Option TextFile
  /-- The writing of the final summary. -/
  writeSummary : Except String Unit

/-- The decision file after the run of the command with a number. -/
def EventLoopEnv.fileAfter (env : EventLoopEnv) : ℕ → TextFile
  | 0 => (env.writes 0).getD env.initialFile
  | n + 1 => (env.writes (n + 1)).getD (env.fileAfter n)

/-! ### One iteration -/

inductive DecisionSource where
  | missing | command | file | stdout
  deriving DecidableEq

/-- How an iteration goes: its command does not get to a decision, or there is one. -/
inductive IterationOutcome where
  | broken (reason : String)
  | decided (value : PulseEventLoopDecisionValue) (source : DecisionSource) (file : Option String)

section

variable [JsonText]

/-- The decision in a text, or the one to fail. -/
def decisionOr (what : String) (text : String) : PulseEventLoopDecisionValue :=
  match parseEventLoopDecision text with
  | .ok decision => decision
  | .error e => failDecision (what ++ e)

/-- The decision after a command that ended well. -/
def readDecision (o : EventLoopOptions) (file : TextFile) (stdout : String) : IterationOutcome :=
  match o.resolvedDecisionPath, file with
  | some path, .text content =>
    .decided (decisionOr "malformed decision in file: " content) .file (some path)
  | some path, .unreadable e =>
    .decided (failDecision ("failed to read decision file: " ++ e)) .file (some path)
  | some path, .absent =>
    if o.stdoutFallback then
      .decided (decisionOr "malformed decision in stdout: " stdout) .stdout none
    else .decided (failDecision ("decision file missing: " ++ path)) .missing none
  | none, _ =>
    if o.stdoutFallback then
      .decided (decisionOr "malformed decision in stdout: " stdout) .stdout none
    else
      .decided (failDecision "no decision file specified and stdout fallback disabled") .missing none

/-- The iteration with a number. -/
def iteration (o : EventLoopOptions) (env : EventLoopEnv) (n : ℕ) : IterationOutcome :=
  match splitCommand o.commandStr with
  | [] => .broken "empty command string"
  | prog :: _ =>
    match env.command n with
    | .error e => .broken ("failed to start command '" ++ prog ++ "': " ++ e)
    | .ok out =>
      if out.success then readDecision o (env.fileAfter n) out.stdout
      else .broken ("command exited with status " ++ out.status)

/-- What the iteration with a number says about the loop. -/
def iterationAction (o : EventLoopOptions) (env : EventLoopEnv) (n : ℕ) : PulseEventLoopAction :=
  match iteration o env n with
  | .broken _ => .fail
  | .decided value _ _ => value.action

/-! ### The loop -/

inductive EventLoopStatus where
  | maxChainReached | maxRuntimeReached | failed | stopped | backoff
  deriving DecidableEq

structure PulseIterationDecision where
  iteration : ℕ
  action : PulseEventLoopAction
  reason : Option String
  nextTaskId : Option String
  decisionSource : DecisionSource
  decisionFile : Option String

/-- The variables of the loop, and how often the clock was read. -/
structure EventLoopState where
  iterations : ℕ
  reasons : List String
  decisions : List PulseIterationDecision
  status : EventLoopStatus
  nextTaskId : Option String
  decisionSource : DecisionSource
  readings : ℕ

namespace EventLoopState

def initial : EventLoopState where
  iterations := 0
  reasons := []
  decisions := []
  status := .maxChainReached
  nextTaskId := none
  decisionSource := .missing
  readings := 0

/-- The clock is read, and an iteration begins. -/
def next (s : EventLoopState) : EventLoopState :=
  { s with iterations := s.iterations + 1, readings := s.readings + 1 }

/-- The iteration does not get to a decision. -/
def recordBroken (s : EventLoopState) (reason : String) : EventLoopState :=
  { s with
    status := .failed
    reasons := s.reasons ++ [reason]
    decisions := s.decisions ++ [⟨s.iterations, .fail, some reason, none, .command, none⟩] }

/-- The decision of the iteration. -/
def recordDecided (s : EventLoopState) (value : PulseEventLoopDecisionValue)
    (source : DecisionSource) (file : Option String) : EventLoopState :=
  { s with
    decisionSource := source
    nextTaskId := value.nextTaskId
    decisions := s.decisions ++
      [⟨s.iterations, value.action, value.reason, value.nextTaskId, source, file⟩]
    reasons := s.reasons ++ value.reason.toList }

end EventLoopState

/-- The loop, with some iterations left. -/
def loopFrom (o : EventLoopOptions) (env : EventLoopEnv) : ℕ → EventLoopState → EventLoopState
  | 0, s => s
  | remaining + 1, s =>
    if o.limit ≤ env.elapsed s.readings then
      { s with status := .maxRuntimeReached, readings := s.readings + 1 }
    else
      match iteration o env s.iterations with
      | .broken reason => s.next.recordBroken reason
      | .decided value source file =>
        let s := s.next.recordDecided value source file
        match value.action with
        | .cont => loopFrom o env remaining s
        | .stop => { s with status := .stopped }
        | .backoff => { s with status := .backoff }
        | .fail => { s with status := .failed }

structure PulseEventLoopRunSummary where
  status : EventLoopStatus
  iterations : ℕ
  maxChainRuns : ℕ
  maxRuntimeSeconds : ℕ
  decisionSource : DecisionSource
  decisionPath : Option String
  reasons : List String
  nextTaskId : Option String
  decisions : List PulseIterationDecision

/-- **Run the loop.** The clock is read once more when it has ended. -/
def runPulseEventLoop (o : EventLoopOptions) (env : EventLoopEnv) :
    Except String PulseEventLoopRunSummary := do
  env.createDirs
  let s := loopFrom o env o.maxChainRuns .initial
  let status := if o.limit ≤ env.elapsed s.readings then .maxRuntimeReached else s.status
  env.writeSummary
  pure {
    status := status
    iterations := s.iterations
    maxChainRuns := o.maxChainRuns
    maxRuntimeSeconds := o.maxRuntimeSeconds
    decisionSource := s.decisionSource
    decisionPath := o.resolvedDecisionPath
    reasons := s.reasons
    nextTaskId := s.nextTaskId
    decisions := s.decisions }

/-! ### How the loop ends -/

variable {o : EventLoopOptions} {env : EventLoopEnv}

/-- The first `n` iterations are begun in time, and each says to go on. -/
def GoesOn (o : EventLoopOptions) (env : EventLoopEnv) (n : ℕ) : Prop :=
  ∀ j < n, env.elapsed j < o.limit ∧ iterationAction o env j = .cont

theorem GoesOn.succ {n : ℕ} (h : GoesOn o env n) (htime : env.elapsed n < o.limit)
    (haction : iterationAction o env n = .cont) : GoesOn o env (n + 1) := by
  intro j hj
  rcases Nat.lt_succ_iff_lt_or_eq.mp hj with hj | rfl
  · exact h j hj
  · exact ⟨htime, haction⟩

omit [JsonText] in
/-- The status that an action ends the loop with. -/
def PulseEventLoopAction.status : PulseEventLoopAction → EventLoopStatus
  | cont => .maxChainReached
  | stop => .stopped
  | backoff => .backoff
  | fail => .failed

/-- The decisions are those of the iterations so far. -/
def Recorded (o : EventLoopOptions) (env : EventLoopEnv) (s : EventLoopState) : Prop :=
  s.decisions.map (·.action) = (List.range s.iterations).map (iterationAction o env)

/-- The ways in which the loop ends. -/
inductive LoopEnd (o : EventLoopOptions) (env : EventLoopEnv) (s : EventLoopState) : Prop
  | chain (hgoes : GoesOn o env o.maxChainRuns) (hiterations : s.iterations = o.maxChainRuns)
    (hreadings : s.readings = o.maxChainRuns) (hstatus : s.status = .maxChainReached)
  | runtime (k : ℕ) (hk : k < o.maxChainRuns) (hgoes : GoesOn o env k)
    (htime : o.limit ≤ env.elapsed k) (hiterations : s.iterations = k)
    (hstatus : s.status = .maxRuntimeReached)
  | terminal (k : ℕ) (hk : k < o.maxChainRuns) (hgoes : GoesOn o env k)
    (htime : env.elapsed k < o.limit) (haction : iterationAction o env k ≠ .cont)
    (hiterations : s.iterations = k + 1) (hreadings : s.readings = k + 1)
    (hstatus : s.status = (iterationAction o env k).status)

theorem Recorded.next {s s' : EventLoopState} {d : PulseIterationDecision} (h : Recorded o env s)
    (hiterations : s'.iterations = s.iterations + 1) (hdecisions : s'.decisions = s.decisions ++ [d])
    (haction : d.action = iterationAction o env s.iterations) : Recorded o env s' := by
  rw [Recorded, hiterations, hdecisions, List.range_succ, List.map_append, List.map_append, h]
  simp [haction]

/-- **The loop ends in one of these ways**, by induction on the iterations left. -/
theorem loopFrom_ends (remaining : ℕ) (s : EventLoopState)
    (hleft : s.iterations + remaining = o.maxChainRuns) (hreadings : s.readings = s.iterations)
    (hstatus : s.status = .maxChainReached) (hgoes : GoesOn o env s.iterations)
    (hrecorded : Recorded o env s) :
    Recorded o env (loopFrom o env remaining s) ∧ LoopEnd o env (loopFrom o env remaining s) := by
  induction remaining generalizing s with
  | zero =>
    rw [Nat.add_zero] at hleft
    exact ⟨hrecorded, .chain (hleft ▸ hgoes) hleft (hreadings.trans hleft) hstatus⟩
  | succ remaining ih =>
    have hk : s.iterations < o.maxChainRuns := by omega
    unfold loopFrom
    split
    case isTrue htime =>
      rw [hreadings] at htime
      exact ⟨hrecorded, .runtime s.iterations hk hgoes htime rfl rfl⟩
    case isFalse htime =>
      rw [hreadings, not_le] at htime
      split
      case h_1 reason heq =>
        have haction : iterationAction o env s.iterations = .fail := by rw [iterationAction, heq]
        refine ⟨hrecorded.next rfl rfl haction.symm, .terminal s.iterations hk hgoes htime ?_ rfl ?_ ?_⟩
        · rw [haction]
          exact nofun
        · exact congrArg (· + 1) hreadings
        · rw [haction]
          rfl
      case h_2 value source file heq =>
        have haction : iterationAction o env s.iterations = value.action := by
          rw [iterationAction, heq]
        have hrecorded' : Recorded o env (s.next.recordDecided value source file) :=
          hrecorded.next rfl rfl haction.symm
        have hreadings' : s.readings + 1 = s.iterations + 1 := congrArg (· + 1) hreadings
        have stop (hne : value.action ≠ .cont) (s' : EventLoopState)
            (hiterations : s'.iterations = s.iterations + 1)
            (hread : s'.readings = s.readings + 1) (hstatus' : s'.status = value.action.status) :
            LoopEnd o env s' :=
          .terminal s.iterations hk hgoes htime (haction ▸ hne) hiterations
            (hread.trans hreadings') (haction ▸ hstatus')
        dsimp only
        split
        case h_1 hcont =>
          refine ih _ ?_ hreadings' hstatus (hgoes.succ htime (haction.trans hcont)) hrecorded'
          change s.iterations + 1 + remaining = _
          omega
        case h_2 hstop =>
          exact ⟨hrecorded', stop (by rw [hstop]; exact nofun) _ rfl rfl (by rw [hstop]; rfl)⟩
        case h_3 hstop =>
          exact ⟨hrecorded', stop (by rw [hstop]; exact nofun) _ rfl rfl (by rw [hstop]; rfl)⟩
        case h_4 hstop =>
          exact ⟨hrecorded', stop (by rw [hstop]; exact nofun) _ rfl rfl (by rw [hstop]; rfl)⟩

/-- A run that returns has ended in one of these ways. -/
theorem runPulseEventLoop_ends {summary : PulseEventLoopRunSummary}
    (h : runPulseEventLoop o env = .ok summary) :
    ∃ s, Recorded o env s ∧ LoopEnd o env s ∧ summary.iterations = s.iterations ∧
      summary.decisions = s.decisions ∧
      summary.status =
        if o.limit ≤ env.elapsed s.readings then .maxRuntimeReached else s.status := by
  unfold runPulseEventLoop at h
  cases hdirs : env.createDirs with
  | error e => rw [hdirs] at h; cases h
  | ok _ =>
    cases hwrite : env.writeSummary with
    | error e => rw [hdirs, hwrite] at h; cases h
    | ok _ =>
      rw [hdirs, hwrite] at h
      cases h
      have hends : Recorded o env (loopFrom o env o.maxChainRuns .initial) ∧
          LoopEnd o env (loopFrom o env o.maxChainRuns .initial) :=
        loopFrom_ends o.maxChainRuns .initial (Nat.zero_add _) rfl rfl
          (fun j hj => absurd hj (Nat.not_lt_zero j)) rfl
      exact ⟨_, hends.1, hends.2, rfl, rfl, rfl⟩

/-! ### What the summary says -/

namespace PulseEventLoopRunSummary

/-- The action of the last decision. -/
def lastAction (s : PulseEventLoopRunSummary) : Option PulseEventLoopAction :=
  s.decisions.getLast?.map (·.action)

/-- The summary says how the loop ended. -/
structure Faithful (maxChainRuns : ℕ) (s : PulseEventLoopRunSummary) : Prop where
  count : s.iterations = s.decisions.length
  bound : s.decisions.length ≤ maxChainRuns
  continued : ∀ d ∈ s.decisions.dropLast, d.action = .cont
  failed : s.status = .failed ↔ s.lastAction = some .fail
  stopped : s.status = .stopped ↔ s.lastAction = some .stop
  backoff : s.status = .backoff ↔ s.lastAction = some .backoff
  exhausted : s.status = .maxChainReached ∨ s.status = .maxRuntimeReached ↔
    ∀ action, s.lastAction = some action → action = .cont

end PulseEventLoopRunSummary

/-- An iteration that ends the loop is over before the time is. -/
def EndsInTime (o : EventLoopOptions) (env : EventLoopEnv) : Prop :=
  ∀ n < o.maxChainRuns, GoesOn o env n → env.elapsed n < o.limit →
    iterationAction o env n ≠ .cont → env.elapsed (n + 1) < o.limit

theorem GoesOn.not_of_action {k n : ℕ} (h : GoesOn o env n) (hk : iterationAction o env k ≠ .cont) :
    n ≤ k := by
  by_contra hlt
  exact hk (h k (not_le.mp hlt)).2

/-- Where all decisions are to go on, the summary says so. -/
theorem faithful_of_goesOn {summary : PulseEventLoopRunSummary} {k : ℕ} (hgoes : GoesOn o env k)
    (hk : k ≤ o.maxChainRuns) (hiterations : summary.iterations = k)
    (hactions : summary.decisions.map (·.action) = (List.range k).map (iterationAction o env))
    (hstatus : summary.status = .maxChainReached ∨ summary.status = .maxRuntimeReached) :
    summary.Faithful o.maxChainRuns := by
  have hlength : summary.decisions.length = k := by simpa using congrArg List.length hactions
  have hall : ∀ d ∈ summary.decisions, d.action = .cont := by
    intro d hd
    have hmem : d.action ∈ (List.range k).map (iterationAction o env) :=
      hactions ▸ List.mem_map_of_mem hd
    obtain ⟨j, hj, heq⟩ := List.mem_map.mp hmem
    rw [← heq]
    exact (hgoes j (List.mem_range.mp hj)).2
  have hlast : ∀ action, summary.lastAction = some action → action = .cont := by
    intro action haction
    obtain ⟨d, hd, rfl⟩ := Option.map_eq_some_iff.mp haction
    exact hall d (List.mem_of_getLast? hd)
  have hnot {action : PulseEventLoopAction} (hne : action ≠ .cont) :
      summary.lastAction ≠ some action := fun h => hne (hlast action h)
  refine ⟨hiterations.trans hlength.symm, hlength ▸ hk,
    fun d hd => hall d (List.mem_of_mem_dropLast hd), ?_, ?_, ?_, ⟨fun _ => hlast, fun _ => hstatus⟩⟩
  all_goals
    refine ⟨fun h => ?_, fun h => absurd h (hnot nofun)⟩
    rcases hstatus with h' | h' <;> cases h'.symm.trans h

/-- Where the last decision is not to go on, the summary says so if its status is that of the
decision. -/
theorem faithful_iff_status {summary : PulseEventLoopRunSummary} {k : ℕ} (hgoes : GoesOn o env k)
    (hk : k < o.maxChainRuns) (haction : iterationAction o env k ≠ .cont)
    (hiterations : summary.iterations = k + 1)
    (hactions : summary.decisions.map (·.action) =
      (List.range (k + 1)).map (iterationAction o env)) :
    summary.Faithful o.maxChainRuns ↔ summary.status = (iterationAction o env k).status := by
  have hlength : summary.decisions.length = k + 1 := by simpa using congrArg List.length hactions
  have hlast : summary.lastAction = some (iterationAction o env k) := by
    rw [PulseEventLoopRunSummary.lastAction, ← List.getLast?_map, hactions, List.range_succ]
    simp
  have hinit : ∀ d ∈ summary.decisions.dropLast, d.action = .cont := by
    intro d hd
    have hmem : d.action ∈ (summary.decisions.map (·.action)).dropLast := by
      rw [← List.map_dropLast]
      exact List.mem_map_of_mem hd
    rw [hactions, List.range_succ, List.map_append, List.map_singleton, List.dropLast_concat] at hmem
    obtain ⟨j, hj, heq⟩ := List.mem_map.mp hmem
    rw [← heq]
    exact (hgoes j (List.mem_range.mp hj)).2
  constructor
  · intro h
    cases hcase : iterationAction o env k with
    | cont => exact absurd hcase haction
    | stop => exact h.stopped.mpr (hlast.trans (congrArg some hcase))
    | backoff => exact h.backoff.mpr (hlast.trans (congrArg some hcase))
    | fail => exact h.failed.mpr (hlast.trans (congrArg some hcase))
  · intro h
    refine ⟨hiterations.trans hlength.symm, hlength ▸ hk, hinit, ?_, ?_, ?_, ?_⟩ <;> rw [h, hlast] <;>
      cases hcase : iterationAction o env k <;>
        simp_all [PulseEventLoopAction.status]

/-- **When the summary is faithful**: exactly if an iteration that ends the loop is over in time. A
summary that is not says that the time was over, whatever the last decision is. -/
theorem faithful_iff {summary : PulseEventLoopRunSummary}
    (h : runPulseEventLoop o env = .ok summary) :
    summary.Faithful o.maxChainRuns ↔ EndsInTime o env := by
  obtain ⟨s, hrecorded, hend, hiterations, hdecisions, hstatus⟩ := runPulseEventLoop_ends h
  rw [Recorded, ← hiterations, ← hdecisions] at hrecorded
  cases hend with
  | chain hgoes hs hreadings hs' =>
    rw [hiterations, hs] at hrecorded
    refine iff_of_true (faithful_of_goesOn hgoes le_rfl (hiterations.trans hs) hrecorded ?_) ?_
    · rw [hstatus, hs']
      split
      · exact .inr rfl
      · exact .inl rfl
    · intro n hn _ _ haction
      exact absurd (hgoes.not_of_action haction) (not_le.mpr hn)
  | runtime k hk hgoes htime hs hs' =>
    rw [hiterations, hs] at hrecorded
    refine iff_of_true (faithful_of_goesOn hgoes hk.le (hiterations.trans hs) hrecorded ?_) ?_
    · rw [hstatus, hs']
      split <;> exact .inr rfl
    · intro n _ hgoes' htime' haction
      rcases (hgoes.not_of_action haction).lt_or_eq with hlt | rfl
      · exact absurd (hgoes' k hlt).1 (not_lt.mpr htime)
      · exact absurd htime' (not_lt.mpr htime)
  | terminal k hk hgoes htime haction hs hreadings hs' =>
    rw [hiterations, hs] at hrecorded
    rw [faithful_iff_status hgoes hk haction (hiterations.trans hs) hrecorded, hstatus, hreadings, hs']
    constructor
    · intro hin n _ hgoes' _ haction'
      obtain rfl : n = k :=
        le_antisymm (hgoes'.not_of_action haction) (hgoes.not_of_action haction')
      by_contra hlate
      rw [if_pos (not_lt.mp hlate)] at hin
      cases hcase : iterationAction o env n <;> rw [hcase] at hin haction
      case cont => exact haction rfl
      all_goals cases hin
    · intro hin
      rw [if_neg (not_le.mpr (hin k hk hgoes htime haction))]

/-! ### What the command is run again on -/

/-- A text is a decision to go on. -/
def SaysContinue (text : String) : Prop :=
  ∃ value, parseEventLoopDecision text = .ok value ∧ value.action = .cont

/-- The command with a number ended well, and what is read then is a decision to go on: the decision
file as it is then, or where there is none what the command printed. -/
def ReadsContinue (o : EventLoopOptions) (env : EventLoopEnv) (n : ℕ) : Prop :=
  ∃ out, env.command n = .ok out ∧ out.success = true ∧
    ((∃ path content, o.resolvedDecisionPath = some path ∧ env.fileAfter n = .text content ∧
        SaysContinue content) ∨
      o.stdoutFallback = true ∧ (o.resolvedDecisionPath = none ∨ env.fileAfter n = .absent) ∧
        SaysContinue out.stdout)

theorem decisionOr_eq_cont {what text : String} :
    (decisionOr what text).action = .cont ↔ SaysContinue text := by
  unfold decisionOr SaysContinue
  cases parseEventLoopDecision text with
  | ok value => simp
  | error e => simp [failDecision]

theorem readDecision_eq_cont {file : TextFile} {stdout : String} :
    (match readDecision o file stdout with
      | .broken _ => .fail
      | .decided value _ _ => value.action) = PulseEventLoopAction.cont ↔
      (∃ path content, o.resolvedDecisionPath = some path ∧ file = .text content ∧
          SaysContinue content) ∨
        o.stdoutFallback = true ∧ (o.resolvedDecisionPath = none ∨ file = .absent) ∧
          SaysContinue stdout := by
  unfold readDecision
  cases o.resolvedDecisionPath with
  | none => cases o.stdoutFallback <;> simp [failDecision, decisionOr_eq_cont]
  | some path =>
    cases file with
    | absent => cases o.stdoutFallback <;> simp [failDecision, decisionOr_eq_cont]
    | unreadable e => simp [failDecision]
    | text content => simp [decisionOr_eq_cont]

/-- An iteration says to go on exactly if a decision to go on is read. -/
theorem iterationAction_eq_cont {n : ℕ} :
    iterationAction o env n = .cont ↔ splitCommand o.commandStr ≠ [] ∧ ReadsContinue o env n := by
  unfold iterationAction iteration ReadsContinue
  cases splitCommand o.commandStr with
  | nil => simp
  | cons prog args =>
    cases env.command n with
    | error e => simp
    | ok out =>
      by_cases hsuccess : out.success = true
      · simp only [hsuccess, if_true, ne_eq, reduceCtorEq, not_false_eq_true, true_and,
          Except.ok.injEq, exists_eq_left']
        exact readDecision_eq_cont
      · simp [hsuccess]

/-- **What the command is run again on**: the number of runs and the time allow it, and after each
run so far, which ended well, a decision to go on was read. It is not asked who wrote it, and when. -/
theorem continued_iff {summary : PulseEventLoopRunSummary}
    (h : runPulseEventLoop o env = .ok summary) (n : ℕ) :
    n + 1 < summary.iterations ↔
      n + 1 < o.maxChainRuns ∧ (∀ j ≤ n + 1, env.elapsed j < o.limit) ∧
        splitCommand o.commandStr ≠ [] ∧ ∀ j ≤ n, ReadsContinue o env j := by
  have hgoes : (n + 1 < o.maxChainRuns ∧ GoesOn o env (n + 1) ∧ env.elapsed (n + 1) < o.limit) ↔
      n + 1 < o.maxChainRuns ∧ (∀ j ≤ n + 1, env.elapsed j < o.limit) ∧
        splitCommand o.commandStr ≠ [] ∧ ∀ j ≤ n, ReadsContinue o env j := by
    refine and_congr_right fun _ => ⟨fun ⟨hgoes, htime⟩ => ⟨fun j hj => ?_, ?_, fun j hj => ?_⟩,
      fun ⟨htime, hsplit, hreads⟩ => ⟨fun j hj => ⟨htime j hj.le, ?_⟩, htime _ le_rfl⟩⟩
    · rcases hj.lt_or_eq with hj | rfl
      · exact (hgoes j hj).1
      · exact htime
    · exact (iterationAction_eq_cont.mp (hgoes n (Nat.lt_succ_self n)).2).1
    · exact (iterationAction_eq_cont.mp (hgoes j (Nat.lt_succ_of_le hj)).2).2
    · exact iterationAction_eq_cont.mpr ⟨hsplit, hreads j (Nat.le_of_lt_succ hj)⟩
  rw [← hgoes]
  obtain ⟨s, -, hend, hiterations, -, -⟩ := runPulseEventLoop_ends h
  cases hend with
  | chain hgoes hs =>
    rw [hiterations, hs]
    refine ⟨fun hn => ⟨hn, fun j hj => hgoes j (hj.trans hn), (hgoes _ hn).1⟩, And.left⟩
  | runtime k hk hgoes htime hs =>
    rw [hiterations, hs]
    refine ⟨fun hn => ⟨hn.trans hk, fun j hj => hgoes j (hj.trans hn), (hgoes _ hn).1⟩, ?_⟩
    rintro ⟨-, hgoes', htime'⟩
    by_contra hle
    rcases (not_lt.mp hle).lt_or_eq with hlt | rfl
    · exact absurd (hgoes' k hlt).1 (not_lt.mpr htime)
    · exact absurd htime' (not_lt.mpr htime)
  | terminal k hk hgoes htime haction hs =>
    rw [hiterations, hs]
    constructor
    · intro hn
      have hn : n + 1 ≤ k := Nat.le_of_lt_succ hn
      refine ⟨hn.trans_lt hk, fun j hj => hgoes j (hj.trans_le hn), ?_⟩
      rcases hn.lt_or_eq with hlt | heq
      · exact (hgoes _ hlt).1
      · exact heq ▸ htime
    · rintro ⟨-, hgoes', -⟩
      exact Nat.lt_succ_of_le (hgoes'.not_of_action haction)

end

/-! ### Small runs -/

def continueText : String :=
  "\x7b\"schema_version\":\"ao2.pulse-event-loop-decision.v1\",\"event_loop\":\x7b\"action\":\"continue\"\x7d\x7d"

/-- A reading of JSON texts that knows one. -/
@[reducible] def continueJsonText : JsonText where
  parseJson text :=
    if text = continueText then
      some (.obj [("event_loop", .obj [("action", .str "continue")]),
        ("schema_version", .str ao2PulseDecisionSchema)])
    else none

/-- At most two runs of a command, within a second. -/
def smallLoop : EventLoopOptions where
  commandStr := "step"
  decisionFilePath := some "/decision.json"
  maxChainRuns := 2
  maxRuntimeSeconds := 1
  stdoutFallback := false
  applyRoot := "/"

/-- A command that leaves the decision file alone, where the file says to go on from the beginning. -/
def idleEnv (success : Bool) (elapsed : ℕ → ℕ) : EventLoopEnv where
  createDirs := .ok ()
  elapsed := elapsed
  command _ := .ok ⟨success, "exit status: 1", ""⟩
  initialFile := .text continueText
  writes _ := none
  writeSummary := .ok ()

section

attribute [local instance] continueJsonText

/-- A command that fails in time is reported as failed. -/
theorem faithful_small : ∃ summary,
    runPulseEventLoop smallLoop (idleEnv false fun _ => 0) = .ok summary ∧
      summary.Faithful smallLoop.maxChainRuns := by
  obtain ⟨summary, hrun⟩ : ∃ summary,
      runPulseEventLoop smallLoop (idleEnv false fun _ => 0) = .ok summary := ⟨_, rfl⟩
  have htime : 0 < smallLoop.limit := by decide
  exact ⟨summary, hrun, (faithful_iff hrun).mpr fun n _ _ _ _ => htime⟩

/-- A command that fails late is not. -/
theorem not_faithful_late : ¬ ∀ o env summary, runPulseEventLoop o env = .ok summary →
    summary.Faithful o.maxChainRuns := by
  intro h
  obtain ⟨summary, hrun⟩ : ∃ summary,
      runPulseEventLoop smallLoop (idleEnv false (· * 1000000000)) = .ok summary := ⟨_, rfl⟩
  have hresult : (runPulseEventLoop smallLoop (idleEnv false (· * 1000000000))).toOption.map
      (fun s => (s.status, s.lastAction)) = some (.maxRuntimeReached, some .fail) := by
    decide +kernel
  rw [hrun] at hresult
  obtain ⟨hstatus, hlast⟩ := Prod.mk.inj (Option.some.inj hresult)
  cases hstatus.symm.trans ((h _ _ _ hrun).failed.mpr hlast)

/-- An iteration whose decision is of its own command: there is no decision file, or the command
wrote it. -/
def OwnDecision (o : EventLoopOptions) (env : EventLoopEnv) (n : ℕ) : Prop :=
  o.resolvedDecisionPath = none ∨ env.fileAfter n = .absent ∨ (env.writes n).isSome

/-- A command is run a second time on a decision that was there before the first. -/
theorem continued_small : ∃ summary,
    runPulseEventLoop smallLoop (idleEnv true fun _ => 0) = .ok summary ∧ 1 < summary.iterations := by
  obtain ⟨summary, hrun⟩ : ∃ summary,
      runPulseEventLoop smallLoop (idleEnv true fun _ => 0) = .ok summary := ⟨_, rfl⟩
  have htime : 0 < smallLoop.limit := by decide
  refine ⟨summary, hrun, (continued_iff hrun 0).mpr ⟨by decide, fun j _ => htime, by decide, ?_⟩⟩
  intro j hj
  obtain rfl : j = 0 := Nat.le_zero.mp hj
  refine ⟨_, rfl, rfl, .inl ⟨"/decision.json", continueText, by decide, rfl, ?_⟩⟩
  exact ⟨⟨.cont, none, none⟩, by decide +kernel, rfl⟩

/-- So it is not true that each run but the first is on a decision of the one before. -/
theorem not_ownDecision : ¬ ∀ o env summary n, runPulseEventLoop o env = .ok summary →
    n + 1 < summary.iterations → OwnDecision o env n := by
  intro h
  obtain ⟨summary, hrun⟩ : ∃ summary,
      runPulseEventLoop smallLoop (idleEnv true fun _ => 0) = .ok summary := ⟨_, rfl⟩
  have hiterations : (runPulseEventLoop smallLoop (idleEnv true fun _ => 0)).toOption.map
      (·.iterations) = some 2 := by decide +kernel
  rw [hrun] at hiterations
  have hlt : 0 + 1 < summary.iterations := by
    rw [show summary.iterations = 2 from Option.some.inj hiterations]
    decide
  rcases h _ _ _ 0 hrun hlt with hpath | hfile | hwrites
  · cases hpath
  · cases hfile
  · cases hwrites

end

end Ao2
