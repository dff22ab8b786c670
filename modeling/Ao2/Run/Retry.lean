import Ao2.Run.Replay

/-!
# An approval that is repeated

An approval replaces the file of the ticket before the run record, and returns at once where the file says
that the ticket was approved. One that stops between the two is not made up for by another one: the file
says approved, and the record goes on waiting.

## Main results

* `approveRiskyPrTicket_spec` — how far an approval comes
* `approved_again_iff` — when an approval that is repeated leaves the ticket approved in the record
-/

namespace Ao2

open Interaction

section

variable [Platform] {runId ticketId approver : String} {granted : ApprovalTicket} {request : ToolRequest}
  {w w' w₁ w₂ : World} {stored : StoredApproval}

/-- The ticket as it is granted. -/
def ApprovalTicket.grantedTo (t : ApprovalTicket) (approver : String) : ApprovalTicket :=
  { t with approver := some approver, status := "approved" }

/-- The record of before, with the ticket granted. -/
def recordGranted (runId : String) (granted : ApprovalTicket) (r : RunRecord) : RunRecord :=
  recordOf { r.load runId with approvals := replaceTicket granted r.ctx.approvals } .waitingForApproval

/-- The tickets that are kept and the record are as they were. -/
def SameTickets (w w' : World) : Prop := w'.approvals = w.approvals ∧ w'.record = w.record

/-- Only the file of the ticket is written. -/
structure TicketFiled (granted : ApprovalTicket) (request : ToolRequest) (w w' : World) : Prop where
  approvals : w'.approvals = Function.update w.approvals granted.ticketId (some ⟨granted, request⟩)
  record : w'.record = w.record

/-- The file of the ticket and the record are written. -/
structure TicketRecorded (runId : String) (granted : ApprovalTicket) (request : ToolRequest) (w w' : World) :
    Prop where
  approvals : w'.approvals = Function.update w.approvals granted.ticketId (some ⟨granted, request⟩)
  record : ∃ r, w.record = some r ∧ w'.record = some (recordGranted runId granted r)

/-- How far an approval has come. -/
def Granting (runId : String) (granted : ApprovalTicket) (request : ToolRequest) (w w' : World) : Prop :=
  SameTickets w w' ∨ TicketFiled granted request w w' ∨ TicketRecorded runId granted request w w'

omit [Platform] in
theorem SameTickets.trans (h : SameTickets w w₁) (h' : SameTickets w₁ w₂) : SameTickets w w₂ :=
  ⟨h'.1.trans h.1, h'.2.trans h.2⟩

/-- What happens before and after does not matter. -/
theorem TicketRecorded.congr (h : TicketRecorded runId granted request w₁ w₂) (hw : SameTickets w w₁)
    (hw' : SameTickets w₂ w') : TicketRecorded runId granted request w w' := by
  obtain ⟨r, hr, hwritten⟩ := h.record
  exact ⟨hw'.1.trans (hw.1 ▸ h.approvals), r, hw.2 ▸ hr, hw'.2.trans hwritten⟩

theorem Granting.congr (h : Granting runId granted request w₁ w₂) (hw : SameTickets w w₁)
    (hw' : SameTickets w₂ w') : Granting runId granted request w w' := by
  rcases h with h | h | h
  · exact .inl ((hw.trans h).trans hw')
  · exact .inr (.inl ⟨hw'.1.trans (hw.1 ▸ h.approvals), hw'.2.trans (h.record.trans hw.2)⟩)
  · exact .inr (.inr (h.congr hw hw'))

theorem Quiet.sameTickets (h : Quiet w w') : SameTickets w w' := ⟨h.approvals, h.record⟩

theorem Torn.sameTickets {o : Op} (h : Torn w o w') : SameTickets w w' := by
  rcases h with h | ⟨-, w₁, e, h, -, rfl⟩
  · exact h.sameTickets
  · exact h.sameTickets

/-! ### How far an approval comes -/

theorem wp_quiet_bind {α β : Type} {p : Cmd α} {f : α → Cmd β} {C : World → Prop} {Q : β → World → Prop}
    (hp : QuietCmd p) (hC : ∀ w', SameTickets w w' → C w')
    (hf : ∀ a w', SameTickets w w' → runMachine.wp (fun _ => C) (f a) Q (fun _ => C) w') :
    runMachine.wp (fun _ => C) (p >>= f) Q (fun _ => C) w :=
  Machine.wp_bind.mpr (Machine.wp_mono (hp w) (fun _ w' h => hC w' h.sameTickets)
    (fun a w' h => hf a w' h.sameTickets) fun _ w' h => hC w' h.sameTickets)

theorem writeRunRecord_spec {ctx : RunContext} {status : RunStatus} {C : World → Prop}
    {Q : Unit → World → Prop} {E : String → World → Prop} (hC : ∀ w', SameTickets w w' → C w')
    (hQ : ∀ w', w'.approvals = w.approvals → w'.record = some (recordOf ctx status) → Q () w') :
    runMachine.wp (fun _ => C) (writeRunRecord ctx status) Q E w := by
  unfold writeRunRecord emit
  refine Machine.wp_bind.mpr ?_
  rw [wp_op_bind, wp_op_bind, wp_op]
  simp only [World.effect]
  refine ⟨hC _ ⟨rfl, rfl⟩, hC _ ⟨rfl, rfl⟩, hC _ ⟨rfl, rfl⟩, ?_⟩
  rw [wp_op]
  exact ⟨hC _ ⟨rfl, rfl⟩, hQ _ rfl rfl⟩

/-- What an approval that returns has done. -/
def SettlesApproval (runId approver : String) (stored : StoredApproval) (w : World) (ticket : ApprovalTicket)
    (w' : World) : Prop :=
  ticket.status = "approved" ∧ if stored.ticket.status = "approved" then SameTickets w w'
    else TicketRecorded runId (stored.ticket.grantedTo approver) stored.request w w'

theorem approveLocked_spec (hstored : w.approvals ticketId = some stored) :
    runMachine.wp (fun _ => Granting runId (stored.ticket.grantedTo approver) stored.request w)
      (approveLocked runId ticketId approver) (SettlesApproval runId approver stored w)
      (fun _ => Granting runId (stored.ticket.grantedTo approver) stored.request w) w := by
  unfold approveLocked
  rw [wp_op_bind]
  simp only [World.effect, hstored]
  refine ⟨.inl ⟨rfl, rfl⟩, ?_⟩
  split_ifs with hstatus
  · refine ⟨hstatus, ?_⟩
    rw [if_pos hstatus]
    exact ⟨rfl, rfl⟩
  refine Machine.wp_ofExcept_bind (fun granted hgrant => ?_) fun _ _ => .inl ⟨rfl, rfl⟩
  obtain ⟨-, rfl⟩ := grantExact_eq_ok.mp hgrant
  rw [wp_op_bind]
  refine ⟨.inl ⟨rfl, rfl⟩, ?_⟩
  rw [wp_op_bind]
  refine ⟨.inl ⟨rfl, rfl⟩, ?_⟩
  -- the file of the ticket is written
  unfold loadRunContext
  refine Machine.wp_bind.mpr ?_
  rw [wp_op_bind]
  refine ⟨.inr (.inl ⟨rfl, rfl⟩), ?_⟩
  cases hrecord : w.record with
  | none =>
    simp only [World.effect, World.observe, World.count, hrecord]
    exact .inr (.inl ⟨rfl, hrecord.symm⟩)
  | some r =>
    simp only [World.effect, World.observe, World.count, hrecord]
    refine wp_quiet_bind (emit_quiet (by decide))
      (fun w' h => .inr (.inl ⟨h.1, h.2.trans hrecord.symm⟩)) fun _ w₃ h => ?_
    refine Machine.wp_bind.mpr (writeRunRecord_spec (fun w' h' => ?_) fun w' happrovals hwritten => ?_)
    · exact .inr (.inl ⟨h'.1.trans h.1, (h'.2.trans h.2).trans hrecord.symm⟩)
    · refine ⟨rfl, ?_⟩
      rw [if_neg hstatus]
      exact ⟨happrovals.trans h.1, r, hrecord, hwritten⟩

/-- **How far an approval comes**, and what it has done when it returns. -/
theorem approveRiskyPrTicket_spec (hstored : w.approvals ticketId = some stored) :
    runMachine.wp (fun _ => Granting runId (stored.ticket.grantedTo approver) stored.request w)
      (approveRiskyPrTicket runId ticketId approver) (SettlesApproval runId approver stored w)
      (fun _ => Granting runId (stored.ticket.grantedTo approver) stored.request w) w := by
  refine wp_quiet_bind failOnForbiddenProviderApiKeys_quiet (fun w' h => .inl h) fun _ w₁ h₁ => ?_
  refine wp_quiet_bind ensureTargetRepo_quiet (fun w' h => .inl (h₁.trans h)) fun _ w₂ h₂ => ?_
  have h := h₁.trans h₂
  have hkept : w₂.approvals ticketId = some stored := h.1 ▸ hstored
  rw [wp_op_bind]
  simp only [World.effect, hkept]
  refine ⟨.inl h, ?_⟩
  change runMachine.wp _ (op .acquireLock >>= fun _ => _) _ _ _
  rw [wp_op_bind]
  refine ⟨.inl h, Machine.wp_ensuring ?_⟩
  refine Machine.wp_mono (approveLocked_spec hkept) (fun _ _ hg => hg.congr h ⟨rfl, rfl⟩) ?_ ?_
  · rintro ticket w' ⟨hticket, hw'⟩
    split_ifs at hw' with hstatus
    · have hsame := h.trans hw'
      refine ⟨.inl hsame, hticket, ?_⟩
      rw [if_pos hstatus]
      exact hsame
    · refine ⟨.inr (.inr (hw'.congr h ⟨rfl, rfl⟩)), hticket, ?_⟩
      rw [if_neg hstatus]
      exact hw'.congr h ⟨rfl, rfl⟩
  · intro _ w' hg
    exact ⟨hg.congr h ⟨rfl, rfl⟩, hg.congr h ⟨rfl, rfl⟩⟩

/-! ### Approving again -/

variable {target : Repo} {env : Env} {ss : List Step} {approver' : String} {n : ℕ} {ticket : ApprovalTicket}

/-- The record lists the ticket as approved. -/
def ListsApproved (ticketId : String) (w : World) : Prop :=
  ∃ r, w.record = some r ∧ ∃ t ∈ r.ctx.approvals, t.ticketId = ticketId ∧ t.status = "approved"

theorem TicketRecorded.listsApproved {t : ApprovalTicket}
    (h : TicketRecorded runId (t.grantedTo approver) request w w') : ListsApproved t.ticketId w' := by
  obtain ⟨r, -, hwritten⟩ := h.record
  exact ⟨_, hwritten, _, mem_replaceTicket_self _ _, rfl, rfl⟩

/-- How far an approval that is stopped has come. -/
theorem granting_step (hstored : w.approvals ticketId = some stored) :
    Granting runId (stored.ticket.grantedTo approver) stored.request w
      (w.step runId ⟨.approve ticketId approver, some n⟩) := by
  have hprogram : runMachine.wp (fun _ => Granting runId (stored.ticket.grantedTo approver) stored.request w)
      ((Call.approve ticketId approver).program runId)
      (fun _ => Granting runId (stored.ticket.grantedTo approver) stored.request w)
      (fun _ => Granting runId (stored.ticket.grantedTo approver) stored.request w) w := by
    refine Machine.wp_bind.mpr ((approveRiskyPrTicket_spec hstored).post fun _ w' ⟨_, hw'⟩ => ?_)
    split_ifs at hw'
    · exact .inl hw'
    · exact .inr (.inr hw')
  have hstop : Granting runId (stored.ticket.grantedTo approver) stored.request w
      (runMachine.runFor n ((Call.approve ticketId approver).program runId) w) := by
    cases hnext : runMachine.nextOp n ((Call.approve ticketId approver).program runId) w with
    | none =>
      rw [Machine.runFor_eq_run_of_nextOp _ hnext]
      rcases hprogram.run_world with ⟨_, h⟩ | ⟨_, h⟩
      · exact h
      · exact h
    | some o => exact hprogram.runFor hnext
  exact hstop.congr ⟨rfl, rfl⟩ ⟨rfl, rfl⟩

/-- **Approving again.** In every history, where an approval of a pending ticket is stopped anywhere and the
ticket is approved again: what returns is an approved ticket, and the record lists the ticket as approved
just when the stop was before the file of the ticket was written or after the record was. -/
theorem approved_again_iff (hw : w = (World.fresh target env).steps runId ss)
    (hstored : w.approvals ticketId = some stored) (hnew : stored.ticket.status ≠ "approved")
    (hpending : ¬ ListsApproved ticketId w) (hstop : w₁ = w.step runId ⟨.approve ticketId approver, some n⟩)
    (hok : runMachine.run (approveRiskyPrTicket runId ticketId approver') w₁ = (.ok ticket, w₂)) :
    ticket.status = "approved" ∧
      (ListsApproved ticketId w₂ ↔ w₁.approvals = w.approvals ∨ w₁.record ≠ w.record) := by
  have hsound : TicketsSound runId (w, none) := hw ▸ World.steps_invariant (.fresh target env)
    (fun _ _ => TicketsSound.move) fun _ _ _ => TicketsSound.halt
  obtain rfl : stored.ticket.ticketId = ticketId := (hsound.kept _ stored hstored).1
  have hagain {stored₁ : StoredApproval} (h : w₁.approvals stored.ticket.ticketId = some stored₁) :
      SettlesApproval runId approver' stored₁ w₁ ticket w₂ := by
    have hrun := (@approveRiskyPrTicket_spec _ runId _ approver' _ _ h).run
    rw [hok] at hrun
    exact hrun
  have hlists {w' : World} (h : w'.record = w.record) : ¬ ListsApproved stored.ticket.ticketId w' := by
    unfold ListsApproved
    rwa [h]
  have hkept (h : w₁.approvals = Function.update w.approvals stored.ticket.ticketId
      (some ⟨stored.ticket.grantedTo approver, stored.request⟩)) :
      w₁.approvals ≠ w.approvals ∧ ticket.status = "approved" ∧ SameTickets w₁ w₂ := by
    have hfiled : w₁.approvals stored.ticket.ticketId =
        some ⟨stored.ticket.grantedTo approver, stored.request⟩ := by
      rw [h]
      exact Function.update_self ..
    obtain ⟨hticket, hsame⟩ := hagain hfiled
    refine ⟨fun heq => ?_, hticket, ?_⟩
    · have hsome := hfiled.symm.trans ((congrFun heq _).trans hstored)
      exact hnew (Option.some.inj hsome ▸ rfl)
    · split_ifs at hsame with hstatus
      · exact hsame
      · exact absurd rfl hstatus
  rcases hstop ▸ granting_step hstored with h | h | h
  · obtain ⟨hticket, hdone⟩ := hagain (h.1 ▸ hstored)
    rw [if_neg hnew] at hdone
    exact ⟨hticket, iff_of_true hdone.listsApproved (.inl h.1)⟩
  · obtain ⟨hne, hticket, hsame⟩ := hkept h.approvals
    refine ⟨hticket, iff_of_false (hlists (hsame.2.trans h.record)) ?_⟩
    exact fun hor => hor.elim hne fun hrecord => hrecord h.record
  · obtain ⟨-, hticket, hsame⟩ := hkept h.approvals
    have hlisted : ListsApproved stored.ticket.ticketId w₁ := h.listsApproved
    refine ⟨hticket, iff_of_true ?_ (.inr fun heq => hlists heq hlisted)⟩
    unfold ListsApproved at hlisted ⊢
    rwa [hsame.2]

end

/-! ### A stop between the file and the record -/

section

attribute [local instance] scriptedPlatform

/-- A run that waits for its first ticket. -/
def waitingWorld : World := scriptedWorld [⟨.start "w", none⟩]

/-- The approval is stopped in the middle of the line that it logs. -/
def stoppedWorld : World := waitingWorld.step "r" ⟨.approve "approval-35" "bob", some 11⟩

/-- How the approval ends that is repeated. -/
def approvedAgain : Except String ApprovalTicket × World :=
  runMachine.run (approveRiskyPrTicket "r" "approval-35" "bob") stoppedWorld

set_option maxRecDepth 100000 in
/-- It answers that the ticket is approved, which the record does not list. -/
theorem approved_again_stopped : approvedAgain.1.map (·.status) = .ok "approved" ∧
    stoppedWorld.record = waitingWorld.record ∧ ¬ ListsApproved "approval-35" approvedAgain.2 := by
  have hstatus : (waitingWorld.approvals "approval-35").map (·.ticket.status) = some "pending" := by
    decide +kernel
  have hwaiting : waitingWorld.record.map (·.ctx.approvals.all (·.status ≠ "approved")) = some true := by
    decide +kernel
  have hagain : approvedAgain.2.record.map (·.ctx.approvals.all (·.status ≠ "approved")) = some true := by
    decide +kernel
  have hreturns : approvedAgain.1.isOk = true := by decide +kernel
  have hnone {w : World} (h : w.record.map (·.ctx.approvals.all (·.status ≠ "approved")) = some true) :
      ¬ ListsApproved "approval-35" w := by
    rintro ⟨r, hr, t, ht, -, happroved⟩
    rw [hr, Option.map_some, Option.some_inj, List.all_eq_true] at h
    exact absurd happroved (of_decide_eq_true (h t ht))
  obtain ⟨stored, hstored, hpending⟩ := Option.map_eq_some_iff.mp hstatus
  cases hok : approvedAgain with
  | mk result w₂ =>
    rw [hok] at hreturns hagain
    cases result with
    | error e => cases hreturns
    | ok ticket =>
      obtain ⟨hticket, hiff⟩ := approved_again_iff (scriptedWorld_eq _) hstored
        (by rw [hpending]; decide) (hnone hwaiting) rfl hok
      refine ⟨congrArg Except.ok hticket, ?_, hnone hagain⟩
      by_contra hne
      exact hnone hagain (hiff.mpr (.inr hne))

end

end Ao2
