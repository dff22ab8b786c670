import Ao2.Run.Quiet
import Mathlib.Logic.Relation

/-!
# The protocol of a run

What the commands do to a run directory, one significant step at a time, with everything that only
serves their own bookkeeping taken together. A state is a world and the *flight* of the command
that is under way, if one is: its working copy, and how far it has come. `Move` lists the steps with
the conditions under which a command takes them, `Halt` what a process leaves that stops before an
operation.

The commands follow this protocol (`Conformance`). Statements about all histories are proved about
the protocol, where they are inductions over moves.
-/

namespace Ao2

open Interaction

/-! ### Histories -/

def Obs.isStarted : Obs → Bool
  | .started => true
  | _ => false

/-- The part of a history after the last entry of a kind. -/
def sinceLast (kind : Obs → Bool) (trace : List Obs) : List Obs :=
  (trace.reverse.takeWhile (!kind ·)).reverse

/-- The history since the last start. -/
def sinceStart : List Obs → List Obs := sinceLast Obs.isStarted

/-- The outcome of the last verifier run. -/
def lastVerified (trace : List Obs) : Option Bool :=
  (trace.filterMap fun
    | .verified success => some success
    | _ => none).getLast?

theorem sinceLast_concat (kind : Obs → Bool) (trace : List Obs) (o : Obs) :
    sinceLast kind (trace ++ [o]) = if kind o then [] else sinceLast kind trace ++ [o] := by
  cases h : kind o <;> simp [sinceLast, h]

@[simp] theorem lastVerified_concat (trace : List Obs) (o : Obs) :
    lastVerified (trace ++ [o]) =
      match o with
      | .verified success => some success
      | _ => lastVerified trace := by
  cases o <;> simp [lastVerified]

/-- Every entry of a history is in a relation to the history before it. -/
def EachEntry (P : List Obs → Obs → Prop) (trace : List Obs) : Prop :=
  ∀ before o, before ++ [o] <+: trace → P before o

theorem EachEntry.nil (P : List Obs → Obs → Prop) : EachEntry P [] := fun before o h => by
  simp at h

theorem EachEntry.concat {P : List Obs → Obs → Prop} {trace : List Obs} {o : Obs}
    (h : EachEntry P trace) (ho : P trace o) : EachEntry P (trace ++ [o]) := by
  intro before o' hp
  rcases List.prefix_concat_iff.mp hp with heq | hp
  · obtain ⟨rfl, ho'⟩ := List.append_inj' heq rfl
    obtain rfl := List.singleton_inj.mp ho'
    exact ho
  · exact h before o' hp

/-- What the status of a run says about its evidence. -/
def StatusAgrees (ctx : RunContext) (trace : List Obs) (status : RunStatus) : Prop :=
  status = .waitingForApproval ∨
    ctx.hasPending = false ∧
      (status = .accepted ∧ (ctx.closureReports.getLast?.map (·.verdict)) = some "accepted" ∧
          lastVerified trace = some true ∨
        status = .rejected ∧ (ctx.closureReports.getLast?.map (·.verdict)) = some "rejected")

/-! ### Plans -/

variable [Platform]

/-- The keys of the tasks of a plan. -/
def taskKeys (tasks : List Json) : List ActionKey :=
  tasks.filterMap fun task => (taskId task).toOption.map taskKey

/-- The repair attempts from number `attempt` on, `left` of them. -/
def repairKeys : (attempt left : ℕ) → List ActionKey
  | _, 0 => []
  | attempt, left + 1 => implementerKey (.repairAttempt attempt) :: repairKeys (attempt + 1) left

/-- The actions a provider session goes through, as long as none has to wait. -/
def actionPlan (ctx : RunContext) (options : ProviderRunOptions) : List ActionKey :=
  if ctx.isRealProjectTemplate then
    (match sddWorkflowTaskOrder ctx with
      | .ok (some tasks) => taskKeys tasks
      | _ => [implementerKey .providerPromptPatch]) ++ repairKeys 1 options.maxRepairAttempts
  else [implementerKey .providerPromptPatch]

/-! ### Flights -/

/-- What a command is in the middle of. -/
inductive Phase where
  /-- A start has not asked for its ticket yet; a provider session has not forgotten yet which
  tickets were used. -/
  | opening
  /-- A provider session is forgetting which tickets were used. -/
  | clearing
  | idle
  /-- The provider was run for an action, and its sandbox is not kept yet. -/
  | running (key : ActionKey)
  /-- An action applies the patch with a digest on a ticket. -/
  | applying (key : ActionKey) (ticket : ApprovalTicket) (digest : String)
  /-- An action has applied its patch, and the ticket is not listed as consumed yet. -/
  | applied (key : ActionKey) (ticket : ApprovalTicket)
  /-- An action has asked for a ticket, and the record does not list it yet. -/
  | waiting
  /-- The record is written. -/
  | settled

/-- The phases in which a command may fail or come to its end. -/
def Phase.mayEnd : Phase → Bool
  | applied .. | waiting => false
  | _ => true

/-- The phases in which a command may write the record. -/
def Phase.mayRecord : Phase → Bool
  | idle | waiting | settled => true
  | _ => false

/-- What kind of command is under way. -/
inductive Mode where
  | starting
  | approving
  /-- A session without a provider. -/
  | scripted
  /-- A session with a provider. -/
  | session
  /-- A provider run writes the record again as the last resumption left it. -/
  | rewriting (status : RunStatus)

/-- A command under way. -/
structure Flight where
  ctx : RunContext
  mode : Mode
  /-- The actions of the session, and those of them that are done. -/
  plan : List ActionKey
  done : List ActionKey
  phase : Phase

namespace Flight

/-- A command that has just loaded or made its working copy. -/
def launch (ctx : RunContext) (mode : Mode) (plan : List ActionKey) (phase : Phase) : Flight where
  ctx := ctx
  mode := mode
  plan := plan
  done := []
  phase := phase

/-- A session is under way, with or without a provider. -/
def InSession (fl : Flight) : Prop := fl.mode = .scripted ∨ fl.mode = .session

/-- The session is at an action of its plan. -/
def At (fl : Flight) (key : ActionKey) : Prop :=
  fl.mode = .session ∧ fl.done ++ [key] <+: fl.plan

/-- The writes to the target that the command may make. -/
def MayChange (fl : Flight) : WriteKind → Prop
  | .firstPatch =>
    fl.mode = .scripted ∧ fl.phase = .idle ∧ fl.ctx.isRealProjectTemplate = false
  | .correctionPatch => fl.InSession ∧ fl.phase = .idle
  | .sandboxPatch key digest => ∃ ticket, fl.phase = .applying key ticket digest

/-- The statuses the command may write. -/
def MayWrite (fl : Flight) (trace : List Obs) (status : RunStatus) : Prop :=
  fl.phase.mayRecord ∧
    match fl.mode with
    | .starting | .approving => status = .waitingForApproval
    | .scripted | .session => StatusAgrees fl.ctx trace status
    | .rewriting before => status = before

end Flight

/-- A world, and the command under way in it. -/
abbrev State := World × Option Flight

/-- The working copy that a record is loaded into. -/
def RunRecord.load (runId : String) (r : RunRecord) : RunContext := { r.ctx with runId := runId }

/-- The record that is written for a working copy. -/
def recordOf (ctx : RunContext) (status : RunStatus) : RunRecord where
  ctx := ctx
  status := status
  replayIntegrity := some (runRecordIntegrity ctx)
  evidencePack := evidencePackPath
  report := reportPath

/-- The checkpoint event of a working copy. -/
def checkpointEvent (ctx : RunContext) (eventId : String) : AoEvent :=
  newEvent ctx eventId checkpointType none none .system (runRecordIntegrity ctx)

/-- The tickets that count as used. -/
def World.used (w : World) : List String := w.consumed.getD []

/-! ### Moves -/

/-- **The steps of the protocol.** -/
inductive Move (runId : String) : State → State → Prop
  -- bookkeeping, with and without a command under way
  | quiet {w w' : World} (h : Quiet w w') : Move runId (w, none) (w', none)
  | calm {w w' : World} {fl : Flight} {ctx : RunContext} (h : Calm fl.ctx w ctx w') :
    Move runId (w, some fl) (w', some { fl with ctx := ctx })
  -- what anyone may do to the target and to the files of a sandbox, and what the lock does
  | outside {w : World} {fl : Option Flight} (target : Repo) (locked : Bool) :
    Move runId (w, fl) ({ w with target := target, locked := locked }, fl)
  | contents {w : World} {fl : Option Flight} (dir : String) (f : Tree → Tree) :
    Move runId (w, fl)
      ({ w with sandboxes := Function.update w.sandboxes dir ((w.sandboxes dir).map f) }, fl)
  | land {w : World} {fl : Flight} (h : fl.phase.mayEnd) : Move runId (w, some fl) (w, none)
  -- start
  | start {w : World} (workflow : WorkflowSpec) :
    Move runId (w, none)
      (w.observe .started,
        some (.launch (initialContext runId workflow) .starting [] .opening))
  | decide {w : World} {fl : Flight} (decision : PolicyDecision) (h : fl.mode = .starting) :
    Move runId (w, some fl)
      (w, some { fl with
        ctx := { fl.ctx with policyDecisions := fl.ctx.policyDecisions ++ [decision] } })
  | firstTicket {w : World} {fl : Flight} {ticket : ApprovalTicket} {request : ToolRequest}
    (createdAt now : DateTime) (tick : ℕ) (hmode : fl.mode = .starting)
    (hphase : fl.phase = .opening) (hrequest : request = safeRequest fl.ctx.isRealProjectTemplate)
    (hticket : ticket = createApprovalTicket (World.numberedId "approval" w.tick) createdAt now
      fl.ctx.runId request) (htick : w.tick < tick) :
    Move runId (w, some fl)
      ({ w with
          trace := w.trace ++ [.requested none ticket.ticketId request]
          tick := tick },
        some { fl with
          ctx := { fl.ctx with approvals := replaceTicket ticket fl.ctx.approvals }
          phase := .idle })
  -- a ticket that the working copy lists is kept with its request
  | keep {w : World} {fl : Flight} {ticket : ApprovalTicket} {request : ToolRequest}
    {key : Option ActionKey} (hticket : ticket ∈ fl.ctx.approvals)
    (htrace : w.trace.getLast? = some (.requested key ticket.ticketId request))
    (hpending : ticket.status = "pending") (hphase : fl.phase.mayRecord) :
    Move runId (w, some fl)
      ({ w with approvals :=
          Function.update w.approvals ticket.ticketId (some ⟨ticket, request⟩) }, some fl)
  | options {w : World} (options : OptionsFile) (h : Obs.cleared ∉ sinceStart w.trace) :
    Move runId (w, none) ({ w with options := options }, none)
  -- approve
  | grant {w : World} {stored : StoredApproval} {id : String}
    (hstored : w.approvals id = some stored) :
    Move runId (w, none) (w.observe (.granted stored.ticket.ticketId stored.request), none)
  | granted {w : World} {stored : StoredApproval} {ticket : ApprovalTicket} {id approver : String}
    (hstored : w.approvals id = some stored)
    (hgrant : grantExact stored.ticket approver stored.request = .ok ticket)
    (htrace : w.trace.getLast? = some (.granted ticket.ticketId stored.request)) :
    Move runId (w, none)
      ({ w with approvals :=
          Function.update w.approvals ticket.ticketId (some ⟨ticket, stored.request⟩) }, none)
  | approve {w : World} {r : RunRecord} {stored : StoredApproval} {id : String}
    (hrecord : w.record = some r) (hstored : w.approvals id = some stored)
    (hstatus : stored.ticket.status = "approved") :
    Move runId (w, none)
      (w, some (.launch
        { r.load runId with approvals := replaceTicket stored.ticket r.ctx.approvals }
        .approving [] .idle))
  -- the record
  | record {w : World} {fl : Flight} {status : RunStatus} (eventId : String) (tick : ℕ)
    (h : fl.MayWrite w.trace status) (htick : w.tick ≤ tick) :
    Move runId (w, some fl)
      ({ w with
          log := w.log.emit (checkpointEvent fl.ctx eventId)
          record := some (recordOf fl.ctx status)
          tick := tick },
        some { fl with phase := .settled })
  | rewrite {w : World} {r : RunRecord} (hrecord : w.record = some r) :
    Move runId (w, none) (w, some (.launch (r.load runId) (.rewriting r.status) [] .idle))
  -- sessions
  | beginSession {w : World} {r : RunRecord} {options : ProviderRunOptions}
    (hrecord : w.record = some r) (hstatus : r.status = .waitingForApproval)
    (hpending : r.ctx.hasPending = false) (hoptions : w.options = .written options) :
    Move runId (w, none)
      (w, some (.launch (r.load runId) .session (actionPlan (r.load runId) options) .opening))
  | beginScripted {w : World} {r : RunRecord} (hrecord : w.record = some r)
    (hstatus : r.status = .waitingForApproval) (hpending : r.ctx.hasPending = false) :
    Move runId (w, none) (w, some (.launch (r.load runId) .scripted [] .idle))
  | cleared {w : World} {fl : Flight} (hmode : fl.mode = .session) (hphase : fl.phase = .opening) :
    Move runId (w, some fl) (w.observe .cleared, some { fl with phase := .clearing })
  | forgotten {w : World} {fl : Flight} (hphase : fl.phase = .clearing) :
    Move runId (w, some fl) ({ w with consumed := none }, some { fl with phase := .idle })
  | verified {w : World} {fl : Flight} (success : Bool) (target : Repo) (hmode : fl.InSession)
    (hphase : fl.phase = .idle) :
    Move runId (w, some fl) (World.observe (.verified success) { w with target := target }, some fl)
  | write {w : World} {fl : Flight} {kind : WriteKind} (target : Repo) (h : fl.MayChange kind) :
    Move runId (w, some fl)
      (World.observe (.wrote kind w.now w.held) { w with target := target }, some fl)
  | close {w : World} {fl : Flight} (report : ClosureReport) (hmode : fl.InSession)
    (hphase : fl.phase = .idle) :
    Move runId (w, some fl)
      (w, some { fl with ctx := { fl.ctx with closureReports := fl.ctx.closureReports ++ [report] } })
  -- actions
  | skip {w : World} {fl : Flight} {key : ActionKey} (hat : fl.At key) (hphase : fl.phase = .idle)
    (hsummary : summaryExists key fl.ctx) (hsandbox : w.sandboxes key.sandboxDir = none) :
    Move runId (w, some fl) (w, some { fl with done := fl.done ++ [key] })
  | summary {w w' : World} {fl : Flight} {key : ActionKey} {a : ArtifactRef} {k : ℕ}
    (hat : fl.At key) (hphase : fl.phase = .idle) (h : Quiet w w') (hstored : Stored w' a)
    (htype : a.artifactType = summaryType) (hproducer : a.producer = key.roleId)
    (huri : a.uri = artifactPath (World.numberedId "art" k) key.summaryFilename) :
    Move runId (w, some fl)
      (w', some { fl with
        ctx := { fl.ctx with artifacts := fl.ctx.artifacts ++ [a] }
        phase := .running key })
  | createSandbox {w : World} {fl : Flight} {key : ActionKey} (hphase : fl.phase = .running key) :
    Move runId (w, some fl)
      ({ w with
          sandboxes :=
            Function.update w.sandboxes key.sandboxDir ((w.sandboxes key.sandboxDir).getD []) },
        some { fl with phase := .idle })
  | sought {w : World} {fl : Flight} {key : ActionKey} {digest : String}
    (hat : fl.At key) (hphase : fl.phase = .idle)
    (hsandbox : (w.sandboxes key.sandboxDir).isSome) :
    Move runId (w, some fl)
      (w.observe (.sought key digest
        ((findApproved key.principal digest w.used fl.ctx.approvals).map (·.ticketId))), some fl)
  | authorise {w : World} {fl : Flight} {key : ActionKey} {digest : String} {ticket : ApprovalTicket}
    (now : DateTime) (hat : fl.At key) (hphase : fl.phase = .idle)
    (hsandbox : (w.sandboxes key.sandboxDir).isSome)
    (htrace : w.trace.getLast? = some (.sought key digest (some ticket.ticketId)))
    (hfound : findApproved key.principal digest w.used fl.ctx.approvals = some ticket)
    (hverify : verifyTicket fl.ctx ticket digest w.used now = none) :
    Move runId (w, some fl)
      (w.observe (.authorised key ticket.ticketId digest),
        some { fl with phase := .applying key ticket digest })
  | applied {w : World} {fl : Flight} {key : ActionKey} {digest : String} {ticket : ApprovalTicket}
    (hphase : fl.phase = .applying key ticket digest) :
    Move runId (w, some fl)
      (w.observe (.applied key ticket.ticketId digest),
        some { fl with phase := .applied key ticket })
  | removeSandbox {w : World} {fl : Flight} {key : ActionKey} {ticket : ApprovalTicket}
    (hphase : fl.phase = .applied key ticket) :
    Move runId (w, some fl)
      ({ w with sandboxes := Function.update w.sandboxes key.sandboxDir none }, some fl)
  | consume {w : World} {fl : Flight} {key : ActionKey} {ticket : ApprovalTicket}
    (hphase : fl.phase = .applied key ticket) (hsandbox : w.sandboxes key.sandboxDir = none) :
    Move runId (w, some fl)
      ({ w with consumed := some (w.used ++ [ticket.ticketId]) },
        some { fl with done := fl.done ++ [key], phase := .idle })
  | stale {w : World} {fl : Flight} {key : ActionKey} {digest : String} {ticket : ApprovalTicket}
    (hat : fl.At key) (hphase : fl.phase = .idle)
    (htrace : w.trace.getLast? = some (.sought key digest none))
    (happroved : findApproved key.principal digest w.used fl.ctx.approvals = none)
    (hstale : findStale key.principal digest w.used fl.ctx.approvals = some ticket) :
    Move runId (w, some fl) (w.observe (.stale key ticket.ticketId digest), some fl)
  | request {w : World} {fl : Flight} {key : ActionKey} {digest : String} {ticket : ApprovalTicket}
    (createdAt now : DateTime) (tick : ℕ) (hat : fl.At key) (hphase : fl.phase = .idle)
    (hsandbox : (w.sandboxes key.sandboxDir).isSome)
    (htrace : w.trace.getLast? = some (.sought key digest none))
    (happroved : findApproved key.principal digest w.used fl.ctx.approvals = none)
    (hstale : findStale key.principal digest w.used fl.ctx.approvals = none)
    (hpending : findPending key.principal digest fl.ctx.approvals = none)
    (hticket : ticket = createApprovalTicket (World.numberedId "approval" w.tick) createdAt now
      fl.ctx.runId (sandboxRequest key digest)) (htick : w.tick < tick) :
    Move runId (w, some fl)
      ({ w with
          trace := w.trace ++ [.requested (some key) ticket.ticketId (sandboxRequest key digest)]
          tick := tick },
        some { fl with
          ctx := { fl.ctx with approvals := replaceTicket ticket fl.ctx.approvals }
          phase := .waiting })

/-- A run of the protocol. -/
def Reach (runId : String) : State → State → Prop := Relation.ReflTransGen (Move runId)

/-- **What is left when a process stops before an operation.** Between the moves it is the world as
it is; within bookkeeping and within the writing of the record, an event may be there without its
line break, or the checkpoint without the record. -/
inductive Halt : Op → State → World → Prop
  | clean {o : Op} {w : World} {fl : Option Flight} : Halt o (w, fl) w
  | torn {w : World} {fl : Option Flight} {e : AoEvent} (he : EventLog.Plain e) :
    Halt .appendLineBreak (w, fl) { w with log := w.log.append e }.count
  | tornCheckpoint {w : World} {fl : Flight} (eventId : String) :
    Halt .appendLineBreak (w, some fl)
      { w with log := w.log.append (checkpointEvent fl.ctx eventId) }.count
  | unrecorded {w : World} {fl : Flight} (eventId : String) (r : RunRecord) (tick : ℕ)
    (htick : w.tick ≤ tick) :
    Halt (.replaceRecord r) (w, some fl)
      { w with log := w.log.emit (checkpointEvent fl.ctx eventId), tick := tick }

namespace Reach

variable {runId : String} {s s' s'' : State}

theorem refl (s : State) : Reach runId s s := Relation.ReflTransGen.refl

theorem trans (h : Reach runId s s') (h' : Reach runId s' s'') : Reach runId s s'' :=
  Relation.ReflTransGen.trans h h'

theorem move (h : Move runId s s') : Reach runId s s' := Relation.ReflTransGen.single h

/-- **Invariants of the protocol**: what every move keeps, every state reached has. -/
theorem invariant {P : State → Prop} (h : Reach runId s s') (hs : P s)
    (hmove : ∀ s s', Move runId s s' → P s → P s') : P s' := by
  induction h with
  | refl => exact hs
  | tail _ hstep ih => exact hmove _ _ hstep ih

end Reach

namespace Move

variable {runId : String} {s s' : State}

/-- A move adds at most one entry to the history. -/
theorem trace (h : Move runId s s') :
    s'.1.trace = s.1.trace ∨ ∃ o, s'.1.trace = s.1.trace ++ [o] := by
  cases h with
  | quiet h | summary _ _ h =>
    obtain ⟨_, _, _, rfl, -⟩ := h
    exact .inl rfl
  | calm h =>
    obtain ⟨_, _, _, rfl, -⟩ := h.quiet
    exact .inl rfl
  | _ => first | exact .inl rfl | exact .inr ⟨_, rfl⟩

/-- Nothing of the history is lost. -/
theorem trace_grows (h : Move runId s s') : s.1.trace <+: s'.1.trace := by
  rcases h.trace with h | ⟨o, h⟩
  · exact h ▸ List.prefix_rfl
  · exact h ▸ List.prefix_append ..

/-- The target is written by a command that may make the write. -/
theorem wrote {kind : WriteKind} {moment : DateTime} {held : List ApprovalTicket}
    (h : Move runId s s') (ho : s'.1.trace = s.1.trace ++ [.wrote kind moment held]) :
    ∃ fl, s.2 = some fl ∧ fl.MayChange kind ∧ held = s.1.held := by
  cases h with
  | quiet h | summary _ _ h =>
    obtain ⟨_, _, _, rfl, -⟩ := h
    simp at ho
  | calm h =>
    obtain ⟨_, _, _, rfl, -⟩ := h.quiet
    simp at ho
  | write target h =>
    simp [World.observe] at ho
    obtain ⟨rfl, -, rfl⟩ := ho
    exact ⟨_, rfl, h, rfl⟩
  | _ => simp [World.observe] at ho

end Move

/-- A stop adds nothing to the history. -/
theorem Halt.trace {o : Op} {s : State} {w' : World} (h : Halt o s w') :
    w'.trace = s.1.trace := by cases h <;> rfl

end Ao2
