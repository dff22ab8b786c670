import Ao2.Run.Sessions

/-!
# The commands follow the protocol

Every command takes steps of the protocol only, whatever the run directory holds when it begins, and
so does every history: the world after a call is one the protocol reaches, or one that is left when
a process stops on the way there.

## Main results

* `World.step_reach`, `World.step_stopped` — what a call leaves
* `World.steps_invariant` — what the protocol keeps, every history keeps
-/

namespace Ao2

open Interaction

variable [Platform] {runId : String} {w : World} {fl : Flight}

/-! ### Start -/

theorem simulatePolicyDenialAndPendingApproval_follows (hmode : fl.mode = .starting)
    (hphase : fl.phase = .opening) (hnone : fl.ctx.approvals = []) :
    Follows runId simulatePolicyDenialAndPendingApproval w fl fun ticket w' fl' =>
      fl'.mode = .starting ∧ fl'.phase = .idle ∧ fl'.ctx.approvals = [ticket] ∧
        ticket.status = "pending" ∧
        w'.approvals ticket.ticketId =
          some ⟨ticket, safeRequest fl.ctx.isRealProjectTemplate⟩ ∧
        w'.trace = w.trace ++
          [.requested none ticket.ticketId (safeRequest fl.ctx.isRealProjectTemplate)] := by
  have hend : fl.phase.mayEnd := by rw [hphase]; rfl
  refine .bind (.get (.bind (.quiet (emit_quiet (by decide)) hend fun _ w₁ hq₁ => ?_)))
  refine .bind (.read rfl (.bind (.read rfl (.bind (.modify (.move (.decide _ hmode)) rfl ?_)))))
  refine .bind (.get (.bind (.quiet (emit_quiet (by decide)) hend fun _ w₂ hq₂ => ?_)))
  refine .bind (.get (.bind (.read rfl (.bind (.read rfl
    (.bind (.modify (.move (.decide _ hmode)) rfl ?_)))))))
  refine .bind (issueTicket_follows (fun ticket => { fl with
    ctx := { fl.ctx with
      policyDecisions := fl.ctx.policyDecisions ++ [_] ++ [_]
      approvals := replaceTicket ticket fl.ctx.approvals }
    phase := .idle }) (fun ticket createdAt now hticket => ⟨?_, rfl, rfl⟩) ?_)
  · exact .firstTicket createdAt now _ hmode hphase rfl hticket (by omega)
  intro ticket w₃ hstatus _ htrace happrovals
  refine .bind (.get (.bind (.quiet (emit_quiet (by decide)) rfl fun _ w₄ hq₄ => .pure ?_)))
  refine ⟨hmode, rfl, ?_, hstatus, ?_, ?_⟩
  · rw [hnone]
    rfl
  · rw [hq₄.approvals]
    exact happrovals
  · have htrace₂ : w₂.count.count.trace = w.trace := hq₂.trace.trans hq₁.trace
    rw [hq₄.trace, htrace, htrace₂]
    rfl

/-- What a start leaves: a record that waits for its one ticket, which is pending. -/
structure Started (w : World) (ticket : ApprovalTicket) : Prop where
  pending : ticket.status = "pending"
  record : ∃ ctx : RunContext, w.record = some (recordOf ctx .waitingForApproval) ∧
    ctx.approvals = [ticket]
  approvals : ∃ request, w.approvals ticket.ticketId = some ⟨ticket, request⟩
  trace : Obs.cleared ∉ sinceStart w.trace

theorem startBody_follows (workflowPath : String) (hmode : fl.mode = .starting)
    (hphase : fl.phase = .opening) (hnone : fl.ctx.approvals = [])
    (htrace : Obs.cleared ∉ sinceStart w.trace) :
    Follows runId (startBody workflowPath) w fl fun ticket w' fl' =>
      Started w' ticket ∧ fl'.phase.mayEnd := by
  have hend : fl.phase.mayEnd := by rw [hphase]; rfl
  refine .bind (.get (.bind (.quiet (emit_quiet (by decide)) hend fun _ w₁ hq₁ => ?_)))
  refine .bind (.quiet (emit_quiet (by decide)) hend fun _ w₂ hq₂ => ?_)
  refine .bind (.read rfl (.bind (.orBail hend fun sources _ => ?_)))
  refine .bind (.calm (storeArtifact_calm (by decide) (by decide)) hend
    fun context ctx₃ w₃ hc₃ => ?_)
  refine .bind (.read rfl (.bind (.orBail hend fun files _ => ?_)))
  refine .bind (.calm (storeArtifact_calm (by decide) (by decide)) hend fun _ ctx₄ w₄ hc₄ => ?_)
  have hl₃ : fl.Lists { fl with ctx := ctx₃ } := .of_calm hc₃
  have hl : fl.Lists { fl with ctx := ctx₄ } := hl₃.trans (.of_calm hc₄)
  have hq : Quiet w w₄ := hq₁.trans (hq₂.trans ((Quiet.count w₂).trans
    (hc₃.quiet.trans ((Quiet.count w₃).trans hc₄.quiet))))
  refine .bind ((simulatePolicyDenialAndPendingApproval_follows (hl.mode.trans hmode)
    (hl.phase.trans hphase) (hl.approvals.trans hnone)).mono ?_)
  rintro ticket w₅ fl₅ ⟨hmode₅, hphase₅, hticket, hpending, happrovals, htrace₅⟩
  have hmay : fl₅.MayWrite w₅.trace .waitingForApproval := by
    refine ⟨by rw [hphase₅]; rfl, ?_⟩
    rw [hmode₅]
  refine .bind (.get (.bind (.lift (writeRunRecord_follows hmay fun w₆ hrecord htrace₆ ha => ?_))))
  refine ⟨_, rfl, rfl, .pure ⟨⟨hpending, ⟨_, hrecord, hticket⟩,
    ⟨_, (congrFun ha _).trans happrovals⟩, ?_⟩, rfl⟩⟩
  rw [htrace₆, htrace₅, hq.trace, sinceStart, sinceLast_concat]
  simpa [sinceStart, Obs.isStarted] using htrace

/-- **A start follows the protocol.** -/
theorem startRiskyPrProviderFree_follows (workflowPath : String) :
    FollowsCmd runId (startRiskyPrProviderFree runId workflowPath) (w, none) fun ticket s' =>
      s'.2 = none ∧ Started s'.1 ticket := by
  refine .bind (.quiet failOnForbiddenProviderApiKeys_quiet rfl fun _ w₁ _ => ?_)
  refine .bind (.quiet ensureTargetRepo_quiet rfl fun _ w₂ _ => ?_)
  refine .bind (.read rfl (.bind (.orBail rfl fun parsed _ => .bind (.orBail rfl fun workflow _ => ?_))))
  refine .bind (.perform rfl (.move (.start workflow)) ?_)
  let fl₀ : Flight := .launch (initialContext runId workflow) .starting [] .opening
  have hbody : Follows runId (startBody workflowPath) (w₂.count.observe .started).count fl₀ _ :=
    startBody_follows workflowPath rfl rfl rfl (by
      change Obs.cleared ∉ sinceLast Obs.isStarted (w₂.trace ++ [.started])
      rw [sinceLast_concat]
      simp [Obs.isStarted])
  refine .bind (FollowsCmd.mono hbody ?_)
  rintro ⟨ticket, ctx⟩ ⟨w₃, _⟩ ⟨fl₃, rfl, rfl, hstarted, hend⟩
  exact .after (.move (.land hend)) rfl (.pure ⟨rfl, hstarted⟩)

/-! ### Approve -/

/-- What an approval that returns leaves: nothing new if the ticket was approved before, else the
record with the ticket granted in it. -/
def Approved (runId ticketId approver : String) (w w' : World) : Prop :=
  ∃ stored, w.approvals ticketId = some stored ∧
    (stored.ticket.status = "approved" ∧ w'.record = w.record ∧ w'.trace = w.trace ∨
      ∃ r granted, w.record = some r ∧ grantExact stored.ticket approver stored.request = .ok granted ∧
        w'.record = some (recordOf
          { r.load runId with approvals := replaceTicket granted r.ctx.approvals }
          .waitingForApproval) ∧
        w'.trace = w.trace ++ [.granted granted.ticketId stored.request])

theorem approveLocked_follows (ticketId approver : String) :
    FollowsCmd runId (approveLocked runId ticketId approver) (w, none) fun _ s' =>
      s'.2 = none ∧ Approved runId ticketId approver w s'.1 := by
  refine .bind (.read (a := w.approvals ticketId) rfl ?_)
  cases hstored : w.approvals ticketId with
  | none => exact .bail rfl
  | some stored =>
    dsimp only
    split
    case isTrue hstatus => exact .pure ⟨rfl, stored, hstored, .inl ⟨hstatus, rfl, rfl⟩⟩
    case isFalse =>
      refine .bind (.orBail rfl fun granted hgrant => ?_)
      obtain ⟨-, hgranted⟩ := grantExact_eq_ok.mp hgrant
      have hid : granted.ticketId = stored.ticket.ticketId := by rw [hgranted]
      have hstatus : granted.status = "approved" := by rw [hgranted]
      have hgrant₁ : Move runId (w.count, none)
          (w.count.observe (.granted granted.ticketId stored.request), none) := by
        rw [hid]
        exact .grant hstored
      refine .bind (.perform rfl (.move hgrant₁) ?_)
      refine .bind (.perform rfl (.move (.granted hstored hgrant List.getLast?_concat)) ?_)
      refine .bind (.bind (.read (a := w.record) rfl ?_))
      cases hrecord : w.record with
      | none => exact .bail rfl
      | some r =>
        refine .pure ?_
        let ctx := { r.load runId with approvals := replaceTicket granted r.ctx.approvals }
        let fl : Flight := .launch ctx .approving [] .idle
        refine .after (.move (.approve hrecord (Function.update_self granted.ticketId _ _) hstatus))
          rfl ?_
        refine .bind (.quiet (emit_quiet (by decide)) rfl fun _ w₃ hq₃ => ?_)
        have hmay : fl.MayWrite w₃.trace .waitingForApproval := ⟨rfl, rfl⟩
        refine .bind (writeRunRecord_follows hmay fun w₄ hrecord₄ htrace₄ _ => ?_)
        refine .after (.move (.land rfl)) rfl (.pure ⟨rfl, stored, hstored, .inr
          ⟨r, granted, hrecord, hgrant, hrecord₄, ?_⟩⟩)
        rw [htrace₄, hq₃.trace]
        rfl

/-- **An approval follows the protocol.** -/
theorem approveRiskyPrTicket_follows (ticketId approver : String) :
    FollowsCmd runId (approveRiskyPrTicket runId ticketId approver) (w, none) fun _ s' =>
      s'.2 = none ∧ Approved runId ticketId approver w s'.1 := by
  refine .bind (.quiet failOnForbiddenProviderApiKeys_quiet rfl fun _ w₁ hq₁ => ?_)
  refine .bind (.quiet ensureTargetRepo_quiet rfl fun _ w₂ hq₂ => ?_)
  refine .bind (.read rfl ?_)
  split
  · refine .bind (.perform rfl (.move (.outside w₂.target true)) (.releasing ?_))
    refine (approveLocked_follows ticketId approver).mono ?_
    rintro _ ⟨w', _⟩ ⟨rfl, stored, hstored, h⟩
    have hq := hq₁.trans hq₂
    refine ⟨rfl, stored, (congrFun hq.approvals _).symm.trans hstored, ?_⟩
    rw [← hq.record, ← hq.trace]
    exact h
  · exact .bail rfl

/-! ### Resume -/

/-- The evidence is exported, and the record written with the status. -/
theorem finishRun_follows {status : RunStatus} (hend : fl.phase.mayEnd)
    (h : fl.MayWrite w.trace status) :
    FollowsCmd runId (finishRun fl.ctx status) (w, some fl) fun summary s' =>
      s'.2 = none ∧ summary.status = status ∧
        ∃ r, s'.1.record = some r ∧ r.status = status := by
  refine .bind (.quiet (exportEvidencePack_quiet _) hend fun _ w₁ hq₁ => ?_)
  refine .bind (.quiet (renderStaticReport_quiet _) hend fun _ w₂ hq₂ => ?_)
  rw [← hq₁.trace, ← hq₂.trace] at h
  refine .bind (writeRunRecord_follows h fun w₃ hrecord _ _ => ?_)
  exact .after (.move (.land rfl)) rfl (.pure ⟨rfl, rfl, _, hrecord, rfl⟩)

theorem resumeBody_follows {r : RunRecord} (hrecord : w.record = some r)
    (hstatus : r.status = .waitingForApproval) (hpending : r.ctx.hasPending = false) :
    FollowsCmd runId (resumeBody (r.load runId)) (w, none) fun summary s' =>
      s'.2 = none ∧ ∃ r, s'.1.record = some r ∧ r.status = summary.status := by
  have hfinish {w' : World} {fl : Flight} {status : RunStatus}
      (hend : fl.Concludes w'.trace status) :
      FollowsCmd runId (finishRun fl.ctx status) (w', some fl) fun summary s' =>
        s'.2 = none ∧ ∃ r, s'.1.record = some r ∧ r.status = summary.status :=
    (finishRun_follows hend.mayEnd hend.mayWrite).mono fun _ _ ⟨h₁, h₂, r, h₃, h₄⟩ =>
      ⟨h₁, r, h₃, h₄.trans h₂.symm⟩
  have hopen : (Flight.launch (r.load runId) .scripted [] .idle).Open := ⟨.inl rfl, rfl, hpending⟩
  have hscripted : Move runId (w.count, none)
      (w.count, some (.launch (r.load runId) .scripted [] .idle)) :=
    .beginScripted hrecord hstatus hpending
  refine .bind (.read (a := w.options) rfl ?_)
  cases hoptions : w.options with
  | torn => exact .bail rfl
  | written options =>
    refine .after (.move (.beginSession hrecord hstatus hpending hoptions)) rfl (.bind ?_)
    have hsession : Follows runId (providerSession options) w.count
        (.launch (r.load runId) .session (actionPlan (r.load runId) options) .opening) _ :=
      providerSession_follows rfl rfl hpending rfl rfl
    refine FollowsCmd.mono hsession ?_
    rintro ⟨status, ctx⟩ ⟨w₁, _⟩ ⟨fl₁, rfl, rfl, hend⟩
    exact hfinish hend
  | absent =>
    dsimp only
    split
    case isTrue =>
      have hworkflow : Follows runId runRealProjectProviderFreeWorkflow w.count
          (.launch (r.load runId) .scripted [] .idle) _ :=
        runRealProjectProviderFreeWorkflow_follows hopen
      refine .after (.move hscripted) rfl (.bind (FollowsCmd.mono hworkflow ?_))
      rintro ⟨_, ctx⟩ ⟨w₁, _⟩ ⟨fl₁, rfl, rfl, hend⟩
      exact hfinish hend
    case isFalse hreal =>
      have hworkflow : Follows runId runFixtureProviderFreeWorkflow w.count
          (.launch (r.load runId) .scripted [] .idle) _ :=
        runFixtureProviderFreeWorkflow_follows hopen rfl (Bool.eq_false_iff.mpr hreal)
      refine .after (.move hscripted) rfl (.bind (FollowsCmd.mono hworkflow ?_))
      rintro ⟨_, ctx⟩ ⟨w₁, _⟩ ⟨fl₁, rfl, rfl, hend⟩
      exact hfinish hend

/-- **A resumption follows the protocol.** -/
theorem resumeRiskyPrProviderFree_follows :
    FollowsCmd runId (resumeRiskyPrProviderFree runId) (w, none) fun summary s' =>
      s'.2 = none ∧ ∃ r, s'.1.record = some r ∧ r.status = summary.status := by
  refine .bind (.quiet failOnForbiddenProviderApiKeys_quiet rfl fun _ w₁ _ => ?_)
  refine .bind (.quiet ensureTargetRepo_quiet rfl fun _ w₂ _ => ?_)
  refine .bind (.bind (.read (a := w₂.record) rfl ?_))
  cases hrecord : w₂.record with
  | none => exact .bail rfl
  | some r =>
    refine .pure ?_
    dsimp only
    split
    case isTrue =>
      refine .bind (.bind (.read (a := w₂.record) rfl ?_))
      rw [hrecord]
      refine .pure ?_
      dsimp only
      split
      · exact .bail rfl
      · exact .pure ⟨rfl, r, hrecord, rfl⟩
    split
    · exact .bail rfl
    split
    · exact .bail rfl
    case isFalse hpending =>
      exact resumeBody_follows hrecord (not_not.mp ‹_›) (Bool.eq_false_iff.mpr hpending)

/-! ### The provider run -/

/-- What a provider run may finish with: the working copy of its own session, or what the last
resumption left in the record. -/
inductive Finishing (runId : String) (ctx : RunContext) (status : RunStatus) : State → Prop
  | session {w : World} {fl : Flight} (hctx : fl.ctx = ctx) (h : fl.Concludes w.trace status) :
    Finishing runId ctx status (w, some fl)
  | reloaded {w : World} {r : RunRecord} (hrecord : w.record = some r) (hctx : r.load runId = ctx)
    (hstatus : r.status = status) : Finishing runId ctx status (w, none)

variable {ctx : RunContext} {status : RunStatus} {s : State}

theorem Finishing.land (h : Finishing runId ctx status s) : Reach runId s (s.1, none) := by
  cases h with
  | session hctx h => exact .move (.land h.mayEnd)
  | reloaded => exact .refl _

omit [Platform] in
theorem Finishing.read {w : World} {fl : Option Flight} (h : Finishing runId ctx status (w, fl)) :
    Finishing runId ctx status (w.count, fl) := by
  cases h with
  | session hctx h => exact .session hctx h
  | reloaded hrecord hctx hstatus => exact .reloaded hrecord hctx hstatus

theorem Finishing.finishRun_follows (h : Finishing runId ctx status s) :
    FollowsCmd runId (finishRun ctx status) s fun _ s' => s'.2 = none := by
  cases h with
  | session hctx h =>
    subst hctx
    exact (Ao2.finishRun_follows h.mayEnd h.mayWrite).mono fun _ _ h => h.1
  | @reloaded w r hrecord hctx hstatus =>
    let fl : Flight := .launch (r.load runId) (.rewriting r.status) [] .idle
    have hmay : fl.MayWrite w.trace status := ⟨rfl, hstatus.symm⟩
    subst hctx
    exact .after (.move (.rewrite hrecord)) rfl
      ((Ao2.finishRun_follows rfl hmay).mono fun _ _ h => h.1)

/-- The loop, by induction on its rounds: each begins and ends with what may be finished with. -/
theorem autoApproveLoop_follows (approver : String) (rounds : ℕ) (ctx : RunContext)
    (status : RunStatus) (s : State) (h : Finishing runId ctx status s) :
    FollowsCmd runId (autoApproveLoop runId approver rounds ctx status) s fun r s' =>
      Finishing runId r.1 r.2 s' := by
  induction rounds generalizing ctx status s with
  | zero => exact .after h.land rfl (.bail rfl)
  | succ rounds ih =>
    unfold autoApproveLoop
    split
    swap
    · exact .pure h
    split
    · exact .pure h
    refine .after h.land rfl (.bind ((approveRiskyPrTicket_follows _ approver).mono ?_))
    rintro _ ⟨w₁, _⟩ ⟨rfl, -⟩
    refine .bind (resumeRiskyPrProviderFree_follows.mono ?_)
    rintro resumed ⟨w₂, _⟩ ⟨rfl, r, hrecord, hstatus⟩
    refine .bind (.bind (.read (a := w₂.record) rfl ?_))
    rw [hrecord]
    exact .pure (ih _ _ _ (.reloaded hrecord rfl hstatus))

theorem autoApprove_follows {w : World} {fl : Option Flight} (rounds : ℕ)
    (h : Finishing runId ctx status (w, fl)) :
    FollowsCmd runId (autoApprove runId rounds ctx status) (w, fl) fun r s' =>
      Finishing runId r.1 r.2 s' := by
  refine .bind (.read rfl ?_)
  split
  swap
  · exact .pure h.read
  refine .bind (.read rfl ?_)
  split
  · exact autoApproveLoop_follows _ _ _ _ _ h.read.read
  · exact .pure h.read.read

/-- **A provider run follows the protocol.** -/
theorem runRiskyPrWithProviderPrompt_follows (options : ProviderRunOptions) (rounds : ℕ) :
    FollowsCmd runId (runRiskyPrWithProviderPrompt runId options rounds) (w, none) fun _ s' =>
      s'.2 = none := by
  refine .bind ((startRiskyPrProviderFree_follows options.workflowPath).mono ?_)
  rintro waiting ⟨w₁, _⟩ ⟨rfl, hstarted⟩
  refine .bind ((approveRiskyPrTicket_follows waiting.ticketId "human:local-user").mono ?_)
  rintro _ ⟨w₂, _⟩ ⟨rfl, stored, hstored, happroved⟩
  obtain ⟨request, hrequest⟩ := hstarted.approvals
  obtain ⟨ctx₁, hrecord₁, hctx₁⟩ := hstarted.record
  obtain rfl : stored = ⟨waiting, request⟩ := Option.some.inj (hstored.symm.trans hrequest)
  -- the ticket of the start was pending, so the approval has granted it
  rcases happroved with ⟨hstatus, -⟩ | ⟨r, granted, hrecord, hgrant, hrecord₂, htrace₂⟩
  · exact absurd (hstatus.symm.trans hstarted.pending) (by decide)
  obtain rfl : r = recordOf ctx₁ .waitingForApproval := Option.some.inj (hrecord.symm.trans hrecord₁)
  obtain ⟨-, rfl⟩ := grantExact_eq_ok.mp hgrant
  have hcleared : Obs.cleared ∉ sinceStart w₂.trace := by
    rw [htrace₂, sinceStart, sinceLast_concat]
    simpa [sinceStart, Obs.isStarted] using hstarted.trace
  let granted : ApprovalTicket :=
    { waiting with approver := some "human:local-user", status := "approved" }
  let ctx₂ : RunContext := { (recordOf ctx₁ .waitingForApproval).load runId with
    approvals := replaceTicket granted ctx₁.approvals }
  have happrovals : ctx₂.approvals = [granted] := by
    change replaceTicket granted ctx₁.approvals = _
    rw [hctx₁, replaceTicket, if_pos rfl]
  refine .bind (.bind (.read (a := w₂.record) rfl ?_))
  rw [hrecord₂]
  refine .pure ?_
  dsimp only
  split
  · exact .bail rfl
  split
  · exact .bail rfl
  refine .bind (.bind (.perform rfl (.move (.options .torn hcleared))
    (.perform rfl (.move (.options (.written options) hcleared)) ?_)))
  have hpending : (recordOf ctx₂ .waitingForApproval).ctx.hasPending = false := by
    change ctx₂.approvals.any _ = false
    rw [happrovals]
    simp [granted]
  obtain ⟨w₃, hw₃⟩ : ∃ w₃ : World,
      w₃ = ({ ({ w₂.count with options := .torn } : World).count with
        options := .written options } : World).count := ⟨_, rfl⟩
  have hrecord₃ : w₃.record = some (recordOf ctx₂ .waitingForApproval) := by
    rw [hw₃]
    exact hrecord₂
  have hoptions₃ : w₃.options = .written options := by rw [hw₃]; rfl
  change FollowsCmd runId _ ((({ ({ w₂.count with options := .torn } : World).count with
    options := .written options } : World).count), none) _
  rw [← hw₃]
  refine .after (.move (.beginSession hrecord₃ rfl hpending hoptions₃)) rfl (.bind ?_)
  have hsession : Follows runId (providerSession options) w₃ (.launch
      ((recordOf ctx₂ .waitingForApproval).load runId) .session
      (actionPlan ((recordOf ctx₂ .waitingForApproval).load runId) options) .opening) _ :=
    providerSession_follows rfl rfl hpending rfl rfl
  refine FollowsCmd.mono hsession ?_
  rintro ⟨status, ctx⟩ ⟨w₄, _⟩ ⟨fl₄, rfl, rfl, hend⟩
  refine .bind ((autoApprove_follows rounds (.session rfl hend)).mono ?_)
  rintro ⟨ctx₅, status₅⟩ s₅ hfinishing
  exact hfinishing.finishRun_follows

/-! ### Histories -/

/-- The program of a call follows the protocol. -/
theorem Call.program_follows (c : Call) :
    FollowsCmd runId (c.program runId) (w, none) fun _ s' => s'.2 = none := by
  cases c with
  | start workflowPath =>
    exact .bind ((startRiskyPrProviderFree_follows workflowPath).mono fun _ _ h => .pure h.1)
  | startProvider options rounds =>
    exact .bind ((runRiskyPrWithProviderPrompt_follows options rounds).mono fun _ _ h => .pure h)
  | approve ticketId approver =>
    exact .bind ((approveRiskyPrTicket_follows ticketId approver).mono fun _ _ h => .pure h.1)
  | resume => exact .bind (resumeRiskyPrProviderFree_follows.mono fun _ _ h => .pure h.1)
  | editTarget target => exact .pure rfl
  | editSandbox dir tree => exact .pure rfl

theorem Call.edit_reach (c : Call) (w : World) : Reach runId (w, none) (c.edit w, none) := by
  cases c with
  | editTarget target => exact .move (.outside target w.locked)
  | editSandbox dir tree => exact .move (.contents dir fun _ => tree)
  | _ => exact .refl _

namespace World

/-- The operation before which the process of a step stops, if it stops. -/
def stopsBefore (runId : String) (s : Step) (w : World) : Option Op :=
  s.stop.bind fun n => runMachine.nextOp n (s.call.program runId) (s.call.edit w)

/-- **A call that is not stopped** leaves a world that the protocol reaches. -/
theorem step_reach {s : Step} (h : w.stopsBefore runId s = none) :
    Reach runId (w, none) (w.step runId s, none) := by
  refine (s.call.edit_reach w).trans ?_
  have hprogram : FollowsCmd runId (s.call.program runId) (s.call.edit w, none) _ :=
    s.call.program_follows
  have hrun := hprogram.run
  cases hstop : s.stop with
  | none => rwa [step, hstop]
  | some n =>
    rw [stopsBefore, hstop] at h
    rw [step, hstop]
    dsimp only
    rw [Machine.runFor_eq_run_of_nextOp _ h]
    exact hrun.trans (.move (.outside _ false))

/-- **A call that is stopped** leaves a world that a process leaves which follows the protocol, with
the lock released. -/
theorem step_stopped {s : Step} {o : Op} (h : w.stopsBefore runId s = some o) :
    ∃ w', Stopped runId (w, none) o w' ∧ w.step runId s = w'.reboot := by
  cases hstop : s.stop with
  | none => rw [stopsBefore, hstop] at h; cases h
  | some n =>
    rw [stopsBefore, hstop] at h
    have hprogram : FollowsCmd runId (s.call.program runId) (s.call.edit w, none) _ :=
      s.call.program_follows
    obtain ⟨s', hreach, hhalt⟩ := Machine.wp.runFor hprogram h
    refine ⟨_, ⟨s', (s.call.edit_reach w).trans hreach, hhalt⟩, ?_⟩
    rw [step, hstop]

/-- **Invariants of histories**: what moves and stops keep, a history keeps. -/
theorem steps_invariant {P : State → Prop} {ss : List Step} (hw : P (w, none))
    (hmove : ∀ s s', Move runId s s' → P s → P s')
    (hhalt : ∀ o s w', Halt o s w' → P s → P (w', none)) : P (w.steps runId ss, none) := by
  refine steps_induction (P := fun w => P (w, none)) hw fun s _ w h => ?_
  cases hstop : w.stopsBefore runId s with
  | none => exact (step_reach hstop).invariant h hmove
  | some o =>
    obtain ⟨w', ⟨s', hreach, hh⟩, heq⟩ := step_stopped hstop
    rw [heq]
    exact hmove _ _ (.outside w'.target false) (hhalt _ _ _ hh (hreach.invariant h hmove))

/-- **Entries of histories**: what holds of each entry that a move adds where an invariant holds,
holds of every entry of a history. -/
theorem steps_eachEntry {I : State → Prop} {P : List Obs → Obs → Prop} {ss : List Step}
    (htrace : w.trace = []) (hw : I (w, none))
    (hmove : ∀ s s', Move runId s s' → I s → I s')
    (hhalt : ∀ o s w', Halt o s w' → I s → I (w', none))
    (hentry : ∀ s s' o, Move runId s s' → I s → s'.1.trace = s.1.trace ++ [o] → P s.1.trace o) :
    EachEntry P (w.steps runId ss).trace := by
  refine (steps_invariant (P := fun s => I s ∧ EachEntry P s.1.trace) ⟨hw, ?_⟩ ?_ ?_).2
  · rw [htrace]
    exact .nil P
  · rintro s s' hm ⟨hs, he⟩
    refine ⟨hmove s s' hm hs, ?_⟩
    rcases hm.trace with ht | ⟨o, ht⟩
    · rwa [ht]
    · rw [ht]
      exact he.concat (hentry s s' o hm hs ht)
  · rintro o s w' hh ⟨hs, he⟩
    refine ⟨hhalt o s w' hh hs, ?_⟩
    rwa [hh.trace]

end World

end Ao2
