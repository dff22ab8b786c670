import Ao2.Pulse.AutoAdvance

/-!
# Sequences of auto-advance runs

The world that runs over one ledger share, the machine that gives their operations a meaning, and
whole sequences of runs: each comes to its end, or its process stops before some operation, where an
entry of the ledger may have been written in part.
-/

namespace Ao2

open Interaction

/-! ### The environment -/

/-- How an append goes wrong: with an error, after a part of the line. -/
structure AppendFault where
  error : String
  written : ℕ
  /-- The last byte written is within a character. -/
  insideChar : Bool

/-- What decides about runs from outside, at each operation. -/
structure AdvanceEnv where
  /-- Whether the output directory was there and is removed. -/
  removesOutDir : ℕ → Bool
  createDirs : ℕ → Except String Unit
  pathExists : ℕ → String → Bool
  file : ℕ → String → PacketFile
  gateState : ℕ → String → TextFile
  /-- The error of a reading of the ledger, if it fails. -/
  ledgerError : ℕ → Option String
  now : ℕ → String
  command : ℕ → AdvanceCommand → Except String ℤ
  append : ℕ → Option AppendFault
  summary : ℕ → Except String Unit

namespace PacketFile

def isFile : PacketFile → Bool
  | absent => false
  | unreadable _ | binary _ | text _ => true

/-- The content of a text file. -/
def content : PacketFile → Except String String
  | absent => .error "No such file or directory"
  | unreadable e => .error e
  | binary _ => .error "stream did not contain valid UTF-8"
  | text content => .ok content

/-- The digest of a file. -/
def sha256 [Platform] : PacketFile → Except String String
  | absent => .error "No such file or directory"
  | unreadable e => .error e
  | binary digest => .ok digest
  | text content => .ok (sha256Text content)

end PacketFile

/-! ### The history -/

/-- An entry of the history of a ledger. -/
inductive AdvanceEvent where
  /-- A run began, and lost the ledger to the removal of its output directory or kept it. -/
  | prepared (ledgerLost : Bool)
  | looked (path : String) (isFile : Bool)
  | read (path : String) (sha256 : Option String) (file : PacketFile)
  | digested (path : String) (file : PacketFile)
  | ledgerRead (found : TextFile)
  | ran (command : AdvanceCommand) (result : Except String ℤ)
  /-- So much of the line of an entry was added to a ledger, by a run that publishes or does not. -/
  | appended (before : TextFile) (e : PulseAutoAdvanceLedgerEntry) (written : ℕ) (complete : Bool)
      (direct : Bool)
  /-- The process stopped before the operation, or in it. -/
  | stopped (op : AdvanceOp)

/-- The packet whose tasks a command executes. -/
def AdvanceCommand.executes : AdvanceCommand → Option String
  | task digest _ _ | taskExecutor digest _ => some digest
  | gateUpdate | generateNext _ | directMainPublish .. => none

def AdvanceCommand.publishes : AdvanceCommand → Bool
  | directMainPublish .. => true
  | gateUpdate | generateNext _ | task .. | taskExecutor .. => false

def AdvanceOp.publishes : AdvanceOp → Bool
  | runCommand command => command.publishes
  | _ => false

/-- A file ends with a line break, or has nothing in it. -/
def TextFile.AtLineStart : TextFile → Prop
  | .absent => True
  | .unreadable _ => False
  | .text content => content.toList = [] ∨ content.toList.getLast? = some '\n'

def TextFile.Readable : TextFile → Prop
  | .absent | .text _ => True
  | .unreadable _ => False

namespace AdvanceEvent

/-- The whole entry of the packet is written. -/
def Records (digest : String) : AdvanceEvent → Prop
  | appended _ e written _ _ => e.pulseEvalLoopSha256 = digest ∧ e.text.length ≤ written
  | _ => False

/-- It is written by a run that publishes. -/
def RecordsDirect (digest : String) : AdvanceEvent → Prop
  | appended _ e written _ direct =>
    e.pulseEvalLoopSha256 = digest ∧ e.text.length ≤ written ∧ direct = true
  | _ => False

/-- A task of the packet is executed, be it that the process stops in it. -/
def Executes (digest : String) : AdvanceEvent → Prop
  | ran command _ => command.executes = some digest
  | stopped (.runCommand command) => command.executes = some digest
  | _ => False

/-- An entry that is read back as it was written, and of which no shorter beginning is a JSON text. -/
def Legible [JsonText] : AdvanceEvent → Prop
  | appended _ e _ _ _ =>
    lineDigest e.text = some e.pulseEvalLoopSha256 ∧
      ∀ n < e.text.length, lineDigest (e.text.take n) = none
  | _ => True

/-- Nothing comes between a packet and the ledger. The ledger is there and can be read, an entry
starts on a line of its own, and the packet is the one whose digest was computed; where a run
publishes, a publication succeeds, and nothing stops the run from the whole entry until then. -/
def Undisturbed [Platform] : AdvanceEvent → Prop
  | prepared ledgerLost => ledgerLost = false
  | read _ (some digest) (.text content) => sha256Text content = digest
  | ledgerRead found => found.Readable
  | appended before e written complete direct =>
    before.AtLineStart ∧ (direct = true → e.text.length ≤ written → complete = true)
  | ran command result => command.publishes = true → result = .ok 0
  | stopped op => op.publishes = false
  | _ => True

end AdvanceEvent

instance : (file : TextFile) → Decidable file.AtLineStart
  | .absent => inferInstanceAs (Decidable True)
  | .unreadable _ => inferInstanceAs (Decidable False)
  | .text content =>
    inferInstanceAs (Decidable (content.toList = [] ∨ content.toList.getLast? = some '\n'))

instance : (file : TextFile) → Decidable file.Readable
  | .absent | .text _ => inferInstanceAs (Decidable True)
  | .unreadable _ => inferInstanceAs (Decidable False)

instance [Platform] : (e : AdvanceEvent) → Decidable e.Undisturbed
  | .prepared ledgerLost => inferInstanceAs (Decidable (ledgerLost = false))
  | .read _ (some digest) (.text content) =>
    inferInstanceAs (Decidable (sha256Text content = digest))
  | .ledgerRead found => inferInstanceAs (Decidable found.Readable)
  | .appended before e written complete direct =>
    inferInstanceAs (Decidable
      (before.AtLineStart ∧ (direct = true → e.text.length ≤ written → complete = true)))
  | .ran command result =>
    inferInstanceAs (Decidable (command.publishes = true → result = .ok 0))
  | .stopped op => inferInstanceAs (Decidable (op.publishes = false))
  | .read _ none _ | .read _ (some _) .absent | .read _ (some _) (.unreadable _)
  | .read _ (some _) (.binary _) | .looked .. | .digested .. => inferInstanceAs (Decidable True)

/-! ### The world -/

/-- The ledger, the number of operations performed so far, and the history. -/
structure AdvanceWorld where
  ledger : TextFile
  tick : ℕ
  trace : List AdvanceEvent

namespace AdvanceWorld

/-- No ledger yet. -/
def fresh : AdvanceWorld := ⟨.absent, 0, []⟩

def observe (e : AdvanceEvent) (w : AdvanceWorld) : AdvanceWorld :=
  { w with trace := w.trace ++ [e] }

def count (w : AdvanceWorld) : AdvanceWorld := { w with tick := w.tick + 1 }

/-- A part of a line is added to the ledger. -/
def append (w : AdvanceWorld) (e : PulseAutoAdvanceLedgerEntry) (written : ℕ)
    (insideChar complete direct : Bool) : AdvanceWorld :=
  { w with
    ledger :=
      if insideChar then .unreadable "stream did not contain valid UTF-8"
      else w.ledger.append (e.line.take written)
    trace := w.trace ++ [.appended w.ledger e written complete direct] }

variable [Platform]

/-- The answer to an operation of a run, and what it leaves. -/
def effect (env : AdvanceEnv) (o : PulseAutoAdvanceOptions) (w : AdvanceWorld) :
    (op : AdvanceOp) → op.Ans × AdvanceWorld
  | .prepareDirs =>
    let lost := env.removesOutDir w.tick && isBelow o.outDir o.ledger
    (env.createDirs w.tick,
      { w with ledger := if lost then .absent else w.ledger }.observe (.prepared lost))
  | .pathExists path => (env.pathExists w.tick path, w)
  | .isFile path =>
    let file := env.file w.tick path
    (file.isFile, w.observe (.looked path file.isFile))
  | .readToString path sha256 =>
    let file := env.file w.tick path
    (file.content, w.observe (.read path sha256 file))
  | .sha256Path path =>
    let file := env.file w.tick path
    (file.sha256, w.observe (.digested path file))
  | .readGateState path => (env.gateState w.tick path, w)
  | .readLedger =>
    let found :=
      match env.ledgerError w.tick with
      | some e => .unreadable e
      | none => w.ledger
    (found, w.observe (.ledgerRead found))
  | .utcNow => (env.now w.tick, w)
  | .runCommand command =>
    let result := env.command w.tick command
    (result, w.observe (.ran command result))
  | .appendLedger e =>
    match env.append w.tick with
    | some fault =>
      (.error fault.error, w.append e fault.written fault.insideChar false o.directMainPublish)
    | none => (.ok (), w.append e e.line.length false true o.directMainPublish)
  | .writeSummary _ => (env.summary w.tick, w)
  | .sleep _ => ((), w)

end AdvanceWorld

variable [Platform]

/-- The machine of a run. -/
def advanceMachine (env : AdvanceEnv) (o : PulseAutoAdvanceOptions) :
    Machine AdvanceSig AdvanceWorld where
  step op w := ((w.effect env o op).1, (w.effect env o op).2.count)

/-! ### Sequences of runs -/

/-- Where a process stops: after a number of operations, and if it is in an append after a part of
the line. -/
structure AdvanceStop where
  after : ℕ
  written : ℕ
  insideChar : Bool

/-- A run, followed for a number of rounds, whose process may stop. -/
structure AutoRun where
  options : PulseAutoAdvanceOptions
  rounds : ℕ
  stop : Option AdvanceStop

variable [JsonText]

namespace AutoRun

/-- The program of a run. -/
def prog (r : AutoRun) : AdvanceProg (Option AdvanceStatus × PulseAutoAdvanceRun) :=
  runPulseAutoAdvance r.options r.rounds (.initial r.options)

end AutoRun

namespace AdvanceWorld

/-- What the operation leaves that a process stops in. -/
def stopIn (w : AdvanceWorld) (o : PulseAutoAdvanceOptions) (stop : AdvanceStop) (op : AdvanceOp) :
    AdvanceWorld :=
  match op with
  | .appendLedger e =>
    (w.append e stop.written stop.insideChar false o.directMainPublish).observe (.stopped op)
  | _ => w.observe (.stopped op)

/-- The world after a run. -/
def afterRun (env : AdvanceEnv) (w : AdvanceWorld) (r : AutoRun) : AdvanceWorld :=
  match r.stop with
  | none => ((advanceMachine env r.options).run r.prog w).2
  | some stop =>
    match (advanceMachine env r.options).nextOp stop.after r.prog w with
    | none => ((advanceMachine env r.options).run r.prog w).2
    | some op =>
      ((advanceMachine env r.options).runFor stop.after r.prog w).stopIn r.options stop op

/-- The world after a sequence of runs. -/
def runs (env : AdvanceEnv) (rs : List AutoRun) : AdvanceWorld := rs.foldl (afterRun env) fresh

end AdvanceWorld

/-! ### What they are to keep to -/

/-- The prompt of a packet is the one of the resume file: neither names any, or they agree. -/
def PromptMatches (trace : List AdvanceEvent) (resume : Json) (path : String) : Prop :=
  match textMember resume "operator_prompt_sha256" with
  | none => .looked path false ∈ trace
  | some expected => ∃ file, .digested path file ∈ trace ∧ file.sha256 = .ok expected

/-- All the tasks expected of a packet have passed: the one executor of its manifest, or the tasks
that it recommends, one after the other. -/
def TasksPassed (trace : List AdvanceEvent) (digest : String) (tasks : List Json) : Prop :=
  (∃ manifest, .ran (.taskExecutor digest manifest) (.ok 0) ∈ trace) ∨
    (tasks.mapIdx fun i task =>
      AdvanceEvent.ran (.task digest (i + 1) (taskCommand task)) (.ok 0)) <:+: trace

/-- The packet with a digest was found in files that match the hashes of a resume file, and all its
expected tasks have passed. -/
def PacketPassed (trace : List AdvanceEvent) (digest : String) : Prop :=
  ∃ resumePath resumeText resume evalLoopPath evalLoopText evalLoop promptPath tasks,
    .read resumePath none (.text resumeText) ∈ trace ∧ parseJson resumeText = some resume ∧
    (textMember resume "pulse_eval_loop_sha256").getD "" = digest ∧
    .read evalLoopPath (some digest) (.text evalLoopText) ∈ trace ∧
    sha256Text evalLoopText = digest ∧ parseJson evalLoopText = some evalLoop ∧
    recommendedTasks evalLoop = some tasks ∧
    PromptMatches trace resume promptPath ∧ TasksPassed trace digest tasks

/-- Each packet is executed and published once. -/
structure OnceAndPublished (w : AdvanceWorld) : Prop where
  /-- It is not executed again once its entry was written. -/
  once : w.trace.Pairwise fun e e' => ∀ digest, e.Records digest → ¬ e'.Executes digest
  /-- What is in the ledger was entered there after its tasks had passed. -/
  passed : ∀ digest ∈ loadSeen w.ledger, ∃ before e after, w.trace = before ++ e :: after ∧
    e.Records digest ∧ PacketPassed before digest
  /-- What a run that publishes has entered there was published. -/
  published : ∀ e ∈ w.trace, ∀ digest, e.RecordsDirect digest →
    ∃ reason, .ran (.directMainPublish digest reason) (.ok 0) ∈ w.trace

end Ao2
