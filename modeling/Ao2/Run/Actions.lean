import Ao2.Run.Follows

/-!
# Provider actions follow the protocol

An action that is entered at its place in the plan of a session, with no ticket of the run pending,
takes steps of the protocol only. It comes to one of two ends: it is done, and the session goes on
as it was; or a ticket of the run is pending, and the record is written.
-/

namespace Ao2

open Interaction

/-! ### What bookkeeping leaves alone -/

section

variable [Platform] {w w' : World}

theorem Quiet.trace (h : Quiet w w') : w'.trace = w.trace := by
  obtain ⟨_, _, _, rfl, -⟩ := h
  rfl

theorem Quiet.sandboxes (h : Quiet w w') : w'.sandboxes = w.sandboxes := by
  obtain ⟨_, _, _, rfl, -⟩ := h
  rfl

theorem Quiet.used (h : Quiet w w') : w'.used = w.used := by
  obtain ⟨_, _, _, rfl, -⟩ := h
  rfl

theorem Quiet.record (h : Quiet w w') : w'.record = w.record := by
  obtain ⟨_, _, _, rfl, -⟩ := h
  rfl

theorem Quiet.approvals (h : Quiet w w') : w'.approvals = w.approvals := by
  obtain ⟨_, _, _, rfl, -⟩ := h
  rfl

end

/-! ### Flights that go on -/

/-- The command is where it was, and has at most listed artifacts and repair attempts. -/
def Flight.Lists (fl fl' : Flight) : Prop :=
  ∃ artifacts repairAttempts,
    fl' = { fl with ctx := { fl.ctx with artifacts := artifacts, repairAttempts := repairAttempts } }

namespace Flight.Lists

variable {fl fl' fl'' : Flight}

theorem refl (fl : Flight) : fl.Lists fl := ⟨_, _, rfl⟩

theorem trans (h : fl.Lists fl') (h' : fl'.Lists fl'') : fl.Lists fl'' := by
  obtain ⟨_, _, rfl⟩ := h
  obtain ⟨_, _, rfl⟩ := h'
  exact ⟨_, _, rfl⟩

theorem of_calm [Platform] {ctx : RunContext} {w w' : World} (h : Calm fl.ctx w ctx w') :
    fl.Lists { fl with ctx := ctx } := by
  obtain ⟨-, _, _, rfl, -⟩ := h
  exact ⟨_, _, rfl⟩

theorem mode (h : fl.Lists fl') : fl'.mode = fl.mode := by
  obtain ⟨_, _, rfl⟩ := h
  rfl

theorem plan (h : fl.Lists fl') : fl'.plan = fl.plan := by
  obtain ⟨_, _, rfl⟩ := h
  rfl

theorem done (h : fl.Lists fl') : fl'.done = fl.done := by
  obtain ⟨_, _, rfl⟩ := h
  rfl

theorem phase (h : fl.Lists fl') : fl'.phase = fl.phase := by
  obtain ⟨_, _, rfl⟩ := h
  rfl

theorem approvals (h : fl.Lists fl') : fl'.ctx.approvals = fl.ctx.approvals := by
  obtain ⟨_, _, rfl⟩ := h
  rfl

theorem runId (h : fl.Lists fl') : fl'.ctx.runId = fl.ctx.runId := by
  obtain ⟨_, _, rfl⟩ := h
  rfl

theorem closureReports (h : fl.Lists fl') : fl'.ctx.closureReports = fl.ctx.closureReports := by
  obtain ⟨_, _, rfl⟩ := h
  rfl

theorem hasPending (h : fl.Lists fl') : fl'.ctx.hasPending = fl.ctx.hasPending := by
  rw [RunContext.hasPending, RunContext.hasPending, h.approvals]

theorem at_iff (h : fl.Lists fl') {key : ActionKey} : fl'.At key ↔ fl.At key := by
  rw [Flight.At, Flight.At, h.mode, h.done, h.plan]

end Flight.Lists

/-- A session between two of its actions, with no ticket of the run pending. -/
structure Flight.Ready (fl : Flight) : Prop where
  mode : fl.mode = .session
  phase : fl.phase = .idle
  pending : fl.ctx.hasPending = false

theorem Flight.Ready.mayEnd {fl : Flight} (h : fl.Ready) : fl.phase.mayEnd := by rw [h.phase]; rfl

theorem Flight.Lists.ready {fl fl' : Flight} (h : fl.Lists fl') (hr : fl.Ready) : fl'.Ready :=
  ⟨h.mode.trans hr.mode, h.phase.trans hr.phase, h.hasPending.trans hr.pending⟩

/-- The session waits for a decision, and the record says so. -/
structure Flight.Waits (fl : Flight) : Prop where
  mode : fl.mode = .session
  phase : fl.phase = .settled
  pending : fl.ctx.hasPending = true

/-- The flight with more of its actions done. -/
def Flight.advance (fl : Flight) (keys : List ActionKey) : Flight :=
  { fl with done := fl.done ++ keys }

@[simp] theorem Flight.advance_nil (fl : Flight) : fl.advance [] = fl := by simp [Flight.advance]

@[simp] theorem Flight.advance_advance (fl : Flight) (keys keys' : List ActionKey) :
    (fl.advance keys).advance keys' = fl.advance (keys ++ keys') := by simp [Flight.advance]

theorem Flight.Lists.advance {fl fl' : Flight} (h : fl.Lists fl') (keys : List ActionKey) :
    (fl.advance keys).Lists (fl'.advance keys) := by
  obtain ⟨artifacts, repairAttempts, rfl⟩ := h
  exact ⟨artifacts, repairAttempts, rfl⟩

/-- The ends of a number of actions: all are done, or one of them waits. -/
inductive ActionsEnd (fl : Flight) (keys : List ActionKey) : RunStatus → Flight → Prop
  | done {fl' : Flight} (h : (fl.advance keys).Lists fl') : ActionsEnd fl keys .accepted fl'
  | waits {fl' : Flight} (h : fl'.Waits) : ActionsEnd fl keys .waitingForApproval fl'

theorem ready_advance {fl : Flight} (h : fl.Ready) (keys : List ActionKey) :
    (fl.advance keys).Ready := ⟨h.mode, h.phase, h.pending⟩

/-! ### File names -/

theorem dash_mem_append {a b : String} (h : '-' ∈ a.toList) : '-' ∈ (a ++ b).toList := by
  rw [String.toList_append]
  exact List.mem_append_left _ h

theorem dash_mem_append_right {a b : String} (h : '-' ∈ b.toList) : '-' ∈ (a ++ b).toList := by
  rw [String.toList_append]
  exact List.mem_append_right _ h

theorem summaryFilename_ne (key : ActionKey) : key.summaryFilename ≠ manifestName := by
  unfold ActionKey.summaryFilename
  exact ne_manifestName_of_dash (dash_mem_append (dash_mem_append (by decide)))

/-! ### Tickets -/

theorem mem_replaceTicket_self (ticket : ApprovalTicket) (tickets : List ApprovalTicket) :
    ticket ∈ replaceTicket ticket tickets := by
  induction tickets with
  | nil => simp [replaceTicket]
  | cons t ts ih =>
    unfold replaceTicket
    split
    · exact .head ts
    · exact .tail t ih

theorem hasPending_of_mem {ctx : RunContext} {ticket : ApprovalTicket} (h : ticket ∈ ctx.approvals)
    (hs : ticket.status = "pending") : ctx.hasPending = true :=
  List.any_eq_true.mpr ⟨ticket, h, by simpa using hs⟩

theorem findPending_pending {requester digest : String} {approvals : List ApprovalTicket}
    {t : ApprovalTicket} (h : findPending requester digest approvals = some t) :
    t ∈ approvals ∧ t.status = "pending" := by
  have := List.find?_some h
  simp only [Bool.and_eq_true, decide_eq_true_eq] at this
  exact ⟨List.mem_of_find?_eq_some h, this.1.2⟩

/-! ### Writes -/

/-- An operation of a patch writes to the target, or it fails and nothing changes. -/
theorem effect_applyOperation (w : World) (kind : WriteKind) (dir : String)
    (o : SandboxPatchOperation) :
    (∃ e, w.effect (.applyOperation kind dir o) = (.error e, w)) ∨
      ∃ target, w.effect (.applyOperation kind dir o) =
        (.ok (), World.observe (.wrote kind w.now w.held) { w with target := target }) := by
  simp only [World.effect]
  split
  · exact .inl ⟨_, rfl⟩
  · exact .inl ⟨_, rfl⟩
  case h_3 tree _ _ => exact .inr ⟨{ w.target with tree := tree }, rfl⟩

theorem verifyTicket_congr {ctx ctx' : RunContext} (h : ctx'.runId = ctx.runId)
    (ticket : ApprovalTicket) (digest : String) (consumed : List String) (now : DateTime) :
    verifyTicket ctx' ticket digest consumed now = verifyTicket ctx ticket digest consumed now := by
  rw [verifyTicket, verifyTicket, h]

variable [Platform] {runId : String} {w : World} {fl : Flight}

theorem checkSandboxPatch_digest {repo : Repo} {sandbox : Tree}
    {subject : SandboxPatchApprovalSubject} {digest : String} {p : SandboxPatchPreview}
    (h : checkSandboxPatch repo sandbox subject digest = .ok p) : p.actionDigest = digest := by
  unfold checkSandboxPatch at h
  cases hp : previewSandboxPatch repo sandbox with
  | error e => rw [hp] at h; cases h
  | ok preview =>
    rw [hp] at h
    simp only [bind, Except.bind] at h
    split at h
    · cases h
    split at h
    · cases h
    split at h
    · cases h
    case isFalse hd =>
      cases h
      exact not_not.mp hd

/-! ### The record -/

/-- Log the digests of the working copy, and replace the record. -/
theorem writeRunRecord_follows {status : RunStatus} {Q : Unit → State → Prop}
    (h : fl.MayWrite w.trace status)
    (hQ : ∀ w' : World, w'.record = some (recordOf fl.ctx status) → w'.trace = w.trace →
      w'.approvals = w.approvals → Q () (w', some { fl with phase := .settled })) :
    FollowsCmd runId (writeRunRecord fl.ctx status) (w, some fl) Q := by
  unfold FollowsCmd writeRunRecord emit
  refine Machine.wp_bind.mpr ?_
  rw [wp_op_bind, wp_op_bind, wp_op]
  simp only [World.effect]
  refine ⟨⟨_, .refl _, .clean⟩, ⟨_, Follows.reach_count, .clean⟩,
    ⟨_, Follows.reach_count, .tornCheckpoint _⟩, ?_⟩
  rw [wp_op]
  refine ⟨⟨(w, some fl), .refl _, .unrecorded (World.numberedId "evt" w.tick) _ _ ?_⟩,
    some { fl with phase := .settled }, .move (.record (World.numberedId "evt" w.tick) _ h ?_), ?_⟩
  · simp only [World.count]
    omega
  · simp only [World.count, World.effect]
    omega
  · exact hQ _ rfl rfl rfl

/-- Ask for a decision. The moment of the request is the moment its ticket is numbered at. -/
theorem issueTicket_follows {key : Option ActionKey} {request : ToolRequest}
    {Q : ApprovalTicket → World → Flight → Prop} (fl' : ApprovalTicket → Flight)
    (hmove : ∀ ticket createdAt now,
      ticket = createApprovalTicket (World.numberedId "approval" w.tick) createdAt now fl.ctx.runId
        request →
      Move runId (w, some fl)
        ({ w with
            trace := w.trace ++ [.requested key ticket.ticketId request]
            tick := w.tick + 1 + 1 + 1 + 1 }, some (fl' ticket)) ∧
        (fl' ticket).ctx = { fl.ctx with approvals := replaceTicket ticket fl.ctx.approvals } ∧
        (fl' ticket).phase.mayRecord)
    (hQ : ∀ ticket w', ticket.status = "pending" → ticket ∈ (fl' ticket).ctx.approvals →
      w'.trace = w.trace ++ [.requested key ticket.ticketId request] →
      w'.approvals ticket.ticketId = some ⟨ticket, request⟩ → Q ticket w' (fl' ticket)) :
    Follows runId (issueTicket key request) w fl Q := by
  have hcount₂ : Reach runId (w, some fl) (w.count.count, some fl) :=
    Follows.reach_count.trans Follows.reach_count
  have hcount₃ : Reach runId (w, some fl) (w.count.count.count, some fl) :=
    hcount₂.trans Follows.reach_count
  unfold Follows FollowsCmd issueTicket
  change runMachine.wpS _ _ (fun a ctx' w' => ∃ flight, Reach runId (w, some fl) (w', flight) ∧
    ∃ fl', flight = some fl' ∧ fl'.ctx = ctx' ∧ Q a w' fl') _ _ _
  rw [Machine.wpS_bind, Machine.wpS_lift, wp_op]
  refine ⟨⟨_, .refl _, .clean⟩, ?_⟩
  rw [Machine.wpS_bind, Machine.wpS_lift, wp_op]
  refine ⟨⟨_, Follows.reach_count, .clean⟩, ?_⟩
  rw [Machine.wpS_bind, Machine.wpS_lift, wp_op]
  refine ⟨⟨_, hcount₂, .clean⟩, ?_⟩
  rw [Machine.wpS_bind, Machine.wpS_get, Machine.wpS_bind, Machine.wpS_modify, Machine.wpS_bind,
    Machine.wpS_lift, wp_op]
  refine ⟨⟨_, hcount₃, .clean⟩, ?_⟩
  rw [Machine.wpS_bind, Machine.wpS_lift, wp_op, Machine.wpS_pure]
  simp only [World.effect, World.observe, World.count, World.now]
  obtain ⟨ticket, hticket⟩ : ∃ ticket, ticket = createApprovalTicket
    (World.numberedId "approval" w.tick) (w.env.clock (w.tick + 1)) (w.env.clock (w.tick + 1 + 1))
      fl.ctx.runId request := ⟨_, rfl⟩
  have hid : World.numberedId "approval" w.tick = ticket.ticketId := by rw [hticket]; rfl
  have hpending : ticket.status = "pending" := by rw [hticket]; rfl
  obtain ⟨hm, hctx, hphase⟩ := hmove ticket _ _ hticket
  rw [← hticket, hid]
  have hmem : ticket ∈ (fl' ticket).ctx.approvals := by
    rw [hctx]
    exact mem_replaceTicket_self _ _
  have hlast : (w.trace ++ [Obs.requested key ticket.ticketId request]).getLast? =
      some (.requested key ticket.ticketId request) := List.getLast?_concat
  have hkeep := Reach.trans (.move hm) (Reach.trans (.move (.keep hmem hlast hpending hphase))
    (FollowsCmd.reach_quiet (.count _)))
  simp only [World.count] at hkeep
  refine ⟨⟨_, .move hm, .clean⟩, _, hkeep, fl' ticket, rfl, hctx, ?_⟩
  exact hQ ticket _ hpending hmem rfl (Function.update_self ..)

/-! ### Directories -/

theorem copyEntries_follows (dir : String) (tree : Tree) (w : World)
    (h : (w.sandboxes dir).isSome) :
    FollowsCmd runId (copyEntries dir tree) (w, some fl) fun _ s' =>
      s'.2 = some fl ∧ (s'.1.sandboxes dir).isSome := by
  induction tree generalizing w with
  | nil => exact .pure ⟨rfl, h⟩
  | cons entry rest ih =>
    obtain ⟨path, node⟩ := entry
    unfold copyEntries
    split
    · exact ih w h
    · refine .bind (.perform rfl (.move (.contents dir (·.insert path node))) (ih _ ?_))
      simpa [World.count] using h

theorem copyDirRecursive_follows {key : ActionKey} (tree : Tree)
    (hphase : fl.phase = .running key) :
    FollowsCmd runId (copyDirRecursive tree key.sandboxDir) (w, some fl) fun _ s' =>
      s'.2 = some { fl with phase := .idle } ∧ (s'.1.sandboxes key.sandboxDir).isSome := by
  refine .bind (.perform rfl (.move (.createSandbox hphase)) (copyEntries_follows _ _ _ ?_))
  simp [World.count]

theorem removeEntries_follows (dir : String) (tree : Tree) (w : World) :
    FollowsCmd runId (removeEntries dir tree) (w, some fl) fun _ s' =>
      s'.2 = some fl ∧ s'.1.used = w.used := by
  induction tree generalizing w with
  | nil => exact .pure ⟨rfl, rfl⟩
  | cons entry rest ih =>
    obtain ⟨path, node⟩ := entry
    exact .bind (.perform rfl (.move (.contents dir (·.erase path))) (ih _))

theorem removeDirAll_follows {key : ActionKey} {ticket : ApprovalTicket}
    (hphase : fl.phase = .applied key ticket) :
    FollowsCmd runId (removeDirAll key.sandboxDir) (w, some fl) fun _ s' =>
      s'.2 = some fl ∧ s'.1.used = w.used ∧ s'.1.sandboxes key.sandboxDir = none := by
  refine .bind (.read rfl ?_)
  cases htree : w.sandboxes key.sandboxDir with
  | none => exact .pure ⟨rfl, rfl, htree⟩
  | some tree =>
    refine .bind ((removeEntries_follows _ _ _).mono ?_)
    rintro _ ⟨w', _⟩ ⟨rfl, hused⟩
    exact .perform rfl (.move (.removeSandbox hphase))
      ⟨rfl, hused, by simp [World.count]⟩

/-! ### Application -/

theorem applyOperations_follows {key : ActionKey} {ticket : ApprovalTicket} {digest dir : String}
    (hphase : fl.phase = .applying key ticket digest) (os : List SandboxPatchOperation) (w : World) :
    FollowsCmd runId (applyOperations (.sandboxPatch key digest) dir os) (w, some fl) fun _ s' =>
      s'.2 = some fl ∧ s'.1.used = w.used := by
  have hend : fl.phase.mayEnd := by rw [hphase]; rfl
  induction os generalizing w with
  | nil => exact .pure ⟨rfl, rfl⟩
  | cons o os ih =>
    unfold applyOperations
    rcases effect_applyOperation w (.sandboxPatch key digest) dir o with ⟨e, h⟩ | ⟨target, h⟩
    · exact .bind (.read h (.bail hend))
    · exact .bind (.perform h (.move (.write target ⟨ticket, hphase⟩)) (ih _))

theorem applySandboxPatch_follows {key : ActionKey} {ticket : ApprovalTicket} {digest : String}
    (hphase : fl.phase = .applying key ticket digest) (subject : SandboxPatchApprovalSubject)
    (approver : String) :
    FollowsCmd runId (applySandboxPatch key subject digest approver) (w, some fl) fun _ s' =>
      s'.2 = some fl ∧ s'.1.used = w.used := by
  have hend : fl.phase.mayEnd := by rw [hphase]; rfl
  refine .bind (.read rfl (.bind (.read rfl ?_)))
  cases w.count.sandboxes key.sandboxDir with
  | none => exact .bail hend
  | some sandbox =>
    refine .bind (.orBail hend fun preview hpreview => ?_)
    rw [checkSandboxPatch_digest hpreview]
    refine .bind ((applyOperations_follows hphase _ _).mono ?_)
    rintro _ ⟨w', _⟩ ⟨rfl, hused⟩
    exact .pure ⟨rfl, hused⟩

/-! ### Refusals -/

/-- A refusal does not return. -/
theorem denyApproval_follows {key : ActionKey} {payload : Json} {message : String}
    {Q : Unit → World → Flight → Prop} (hend : fl.phase.mayEnd) :
    Follows runId (denyApproval key payload message) w fl Q :=
  .bind (.get (.bind (.quiet (emit_quiet (by decide)) hend fun _ _ _ => .bail hend)))

/-! ### Waiting for a decision -/

theorem createSandboxTicket_follows {key : ActionKey} {preview : SandboxPatchPreview}
    {Q : Unit → World → Flight → Prop} (hready : fl.Ready) (hat : fl.At key)
    (hsandbox : (w.sandboxes key.sandboxDir).isSome)
    (htrace : w.trace.getLast? = some (.sought key preview.actionDigest none))
    (happroved : findApproved key.principal preview.actionDigest w.used fl.ctx.approvals = none)
    (hstale : findStale key.principal preview.actionDigest w.used fl.ctx.approvals = none)
    (hpending : findPending key.principal preview.actionDigest fl.ctx.approvals = none)
    (hQ : ∀ w' fl', fl'.mode = .session → fl'.phase = .waiting → fl'.ctx.hasPending = true →
      Q () w' fl') :
    Follows runId (createSandboxTicket key preview) w fl Q := by
  refine .bind (issueTicket_follows (fun ticket => { fl with
    ctx := { fl.ctx with approvals := replaceTicket ticket fl.ctx.approvals }
    phase := .waiting }) (fun ticket createdAt now hticket => ⟨?_, rfl, rfl⟩) ?_)
  · exact .request createdAt now _ hat hready.phase hsandbox htrace happroved hstale hpending hticket
      (by omega)
  · intro ticket w' hstatus hmem _ _
    have hname : "sandbox-patch-approval-requested-" ++ key.actionId.name ++ "-" ++
        ticket.ticketId ++ ".json" ≠ manifestName :=
      ne_manifestName_of_dash (dash_mem_append (dash_mem_append (dash_mem_append (dash_mem_append
        (by decide)))))
    refine .bind (.get (.bind (.calm_unfailing (storeArtifact_calm hname (by decide))
      (.storeArtifact _ _ _ _ _ _) fun _ ctx₁ w₁ hc₁ => ?_)))
    have h₁ : ({ fl with
        ctx := { fl.ctx with approvals := replaceTicket ticket fl.ctx.approvals }
        phase := .waiting } : Flight).Lists _ := .of_calm hc₁
    refine .bind (.get (.calm_unfailing (emit_quiet (by decide)).lift (.lift fun _ _ _ => trivial)
      fun _ ctx₂ w₂ hc₂ => ?_))
    have h₂ := h₁.trans (.of_calm hc₂)
    exact hQ _ _ (h₂.mode.trans hready.mode) h₂.phase
      (h₂.hasPending.trans (hasPending_of_mem hmem hstatus))

theorem requestApproval_follows {key : ActionKey} {preview : SandboxPatchPreview}
    (hready : fl.Ready) (hat : fl.At key)
    (hsandbox : (w.sandboxes key.sandboxDir).isSome)
    (htrace : w.trace.getLast? = some (.sought key preview.actionDigest none))
    (happroved : findApproved key.principal preview.actionDigest w.used fl.ctx.approvals = none)
    (hstale : findStale key.principal preview.actionDigest w.used fl.ctx.approvals = none) :
    Follows runId (requestApproval key preview) w fl fun status _ fl' =>
      status = .waitingForApproval ∧ fl'.Waits := by
  -- the record is written once a ticket is pending, whether it was there or is new
  have hwrite (w' : World) (fl' : Flight) (hmode : fl'.mode = .session)
      (hphase : fl'.phase.mayRecord) (hp : fl'.ctx.hasPending = true) :
      Follows runId (do
        writeRunRecord (← get) .waitingForApproval
        pure RunStatus.waitingForApproval) w' fl'
        fun status _ fl' => status = .waitingForApproval ∧ fl'.Waits := by
    refine .bind (.get (.bind (.lift (writeRunRecord_follows ⟨hphase, ?_⟩ fun w'' _ _ _ => ?_))))
    · rw [hmode]
      exact .inl rfl
    · exact ⟨_, rfl, rfl, .pure ⟨rfl, hmode, rfl, hp⟩⟩
  unfold requestApproval
  refine .bind (.get ?_)
  cases hpending : findPending key.principal preview.actionDigest fl.ctx.approvals with
  | some ticket =>
    obtain ⟨hmem, hstatus⟩ := findPending_pending hpending
    refine hwrite _ _ hready.mode ?_ (hasPending_of_mem hmem hstatus)
    rw [hready.phase]
    rfl
  | none =>
    refine .bind (createSandboxTicket_follows hready hat hsandbox htrace happroved hstale hpending
      fun w' fl' hmode hphase hp => hwrite _ _ hmode ?_ hp)
    rw [hphase]
    rfl

/-! ### Applying an approved patch -/

/-- The patch is applied, and the ticket is listed as used. -/
theorem applyOnTicket_follows {key : ActionKey} {preview : SandboxPatchPreview}
    {ticket : ApprovalTicket} {granted : ArtifactRef} {now : DateTime}
    (hready : fl.Ready) (hat : fl.At key) (hsandbox : (w.sandboxes key.sandboxDir).isSome)
    (htrace : w.trace.getLast? = some (.sought key preview.actionDigest (some ticket.ticketId)))
    (hfound : findApproved key.principal preview.actionDigest w.used fl.ctx.approvals = some ticket)
    (hverify : verifyTicket fl.ctx ticket preview.actionDigest w.used now = none) :
    Follows runId (applyOnTicket key preview w.used ticket granted) w fl fun _ _ fl' =>
      (fl.advance [key]).Lists fl' := by
  have hname : "sandbox-patch-apply-" ++ key.actionId.name ++ ".json" ≠ manifestName :=
    ne_manifestName_of_dash (dash_mem_append (dash_mem_append (by decide)))
  refine .bind (.perform rfl
    (.move (.authorise now hat hready.phase hsandbox htrace hfound hverify)) rfl ?_)
  refine .bind (.lift ((applySandboxPatch_follows rfl _ _).mono ?_))
  rintro applied ⟨w₁, _⟩ ⟨rfl, hused₁⟩
  refine ⟨_, rfl, rfl, .bind (.perform rfl (.move (.applied rfl)) rfl ?_)⟩
  refine .bind (.calm_unfailing (storeArtifact_calm hname (by decide)) (.storeArtifact _ _ _ _ _ _)
    fun artifact ctx₂ w₂ hc₂ => ?_)
  refine .bind (.get (.bind (.calm_unfailing (emit_quiet (by decide)).lift
    (.lift fun _ _ _ => trivial) fun _ ctx₃ w₃ hc₃ => ?_)))
  refine .bind (.lift ((removeDirAll_follows rfl).mono ?_))
  rintro _ ⟨w₄, _⟩ ⟨rfl, hused₄, hnone⟩
  have hused : w₄.used = w.used := by
    rw [hused₄, hc₃.quiet.used, hc₂.quiet.used]
    exact hused₁
  have hlists : (fl.advance [key]).Lists { fl with
      ctx := ctx₃, done := fl.done ++ [key], phase := .idle } := by
    have h₂ : fl.Lists { fl with ctx := ctx₂ } := .of_calm hc₂
    obtain ⟨_, _, h⟩ := h₂.trans (.of_calm hc₃)
    cases h
    rw [← hready.phase]
    exact ⟨_, _, rfl⟩
  have hconsume : Move runId (w₄, some { fl with ctx := ctx₃, phase := .applied key ticket })
      ({ w₄ with consumed := some (w.used ++ [ticket.ticketId]) },
        some { fl with ctx := ctx₃, done := fl.done ++ [key], phase := .idle }) := by
    rw [← hused]
    exact .consume rfl hnone
  exact ⟨_, rfl, rfl, .bind (.perform rfl (.move hconsume) rfl (.pure hlists))⟩

theorem applyApproved_follows {key : ActionKey} {preview : SandboxPatchPreview}
    {ticket : ApprovalTicket} (hready : fl.Ready) (hat : fl.At key)
    (hsandbox : (w.sandboxes key.sandboxDir).isSome)
    (htrace : w.trace.getLast? = some (.sought key preview.actionDigest (some ticket.ticketId)))
    (hfound : findApproved key.principal preview.actionDigest w.used fl.ctx.approvals = some ticket) :
    Follows runId (applyApproved key preview w.used ticket) w fl fun status _ fl' =>
      ActionsEnd fl [key] status fl' := by
  have hend := hready.mayEnd
  have hgranted : "sandbox-patch-approval-granted-" ++ key.actionId.name ++ "-" ++
      ticket.ticketId ++ ".json" ≠ manifestName :=
    ne_manifestName_of_dash (dash_mem_append (dash_mem_append (dash_mem_append (dash_mem_append
      (by decide)))))
  have hpatch : "provider-patch-" ++ key.actionId.name ++ ".md" ≠ manifestName :=
    ne_manifestName_of_dash (dash_mem_append (dash_mem_append (by decide)))
  refine .bind (.read rfl (.bind (.get ?_)))
  cases hverify : verifyTicket fl.ctx ticket preview.actionDigest w.used w.now with
  | some refusal => exact .bind (denyApproval_follows hend)
  | none =>
    refine .bind (.get (.bind (.quiet (emit_quiet (by decide)) hend fun _ w₁ hq₁ => ?_)))
    refine .bind (.quiet (previewSandbox_quiet _) hend fun recomputed w₂ hq₂ => ?_)
    split
    · exact .bind (denyApproval_follows hend)
    refine .bind (.get (.bind (.calm (storeArtifact_calm hgranted (by decide)) hend
      fun granted ctx₃ w₃ hc₃ => ?_)))
    -- nothing that was looked at has changed since
    have hq : Quiet w w₃ := (Quiet.count w).trans (hq₁.trans (hq₂.trans hc₃.quiet))
    have hl := Flight.Lists.of_calm hc₃
    rw [← hq.trace] at htrace
    rw [← hq.sandboxes] at hsandbox
    rw [← hq.used, ← hl.approvals] at hfound
    rw [← hq.used, ← verifyTicket_congr hl.runId] at hverify
    rw [← hq.used]
    refine .bind ((applyOnTicket_follows (hl.ready hready) (hl.at_iff.mpr hat) hsandbox htrace hfound
      hverify).mono fun artifact w₄ fl₄ hl₄ => ?_)
    have hend₄ : fl₄.phase.mayEnd := (hl₄.ready (ready_advance (hl.ready hready) _)).mayEnd
    refine .bind (.get (.bind (.calm (storeArtifact_calm hpatch (by decide)) hend₄
      fun _ ctx₅ w₅ hc₅ => ?_)))
    refine .bind (.get (.bind (.quiet (emit_quiet (by decide)) hend₄ fun _ w₆ hq₆ => ?_)))
    exact .pure (.done ((hl.advance _).trans (hl₄.trans (.of_calm hc₅))))

/-! ### The action -/

theorem settlePreview_follows {key : ActionKey} {preview : SandboxPatchPreview}
    (hready : fl.Ready) (hat : fl.At key) (hsandbox : (w.sandboxes key.sandboxDir).isSome) :
    Follows runId (settlePreview key preview) w fl fun status _ fl' =>
      ActionsEnd fl [key] status fl' := by
  have hend := hready.mayEnd
  refine .bind (.lift (.bind (.read rfl (.pure ⟨fl, rfl, rfl, .bind (.get ?_)⟩))))
  have hmove : Move runId (w.count, some fl) (World.observe (.sought key preview.actionDigest
      ((findApproved key.principal preview.actionDigest (w.consumed.getD []) fl.ctx.approvals).map
        (·.ticketId))) w.count, some fl) := .sought (w := w.count) hat hready.phase hsandbox
  refine .bind (.perform rfl (.move hmove) rfl ?_)
  cases happroved : findApproved key.principal preview.actionDigest (w.consumed.getD [])
      fl.ctx.approvals with
  | some ticket =>
    exact applyApproved_follows (w := (World.observe _ w.count).count) hready hat hsandbox
      List.getLast?_concat happroved
  | none =>
    cases hstale : findStale key.principal preview.actionDigest (w.consumed.getD [])
        fl.ctx.approvals with
    | some ticket =>
      exact .bind (.perform rfl (.move (.stale (w := (World.observe _ w.count).count) hat hready.phase
        List.getLast?_concat happroved hstale)) rfl (.bind (denyApproval_follows hend)))
    | none =>
      refine (requestApproval_follows (w := (World.observe _ w.count).count) hready hat hsandbox
        List.getLast?_concat happroved hstale).mono ?_
      rintro _ w' fl' ⟨rfl, hwaits⟩
      exact .waits hwaits

/-- The provider has run, and its sandbox is kept. -/
theorem runProviderAction_follows {key : ActionKey} {provider : ProviderKind} {prompt : String}
    {taskId : Option String} (hready : fl.Ready) (hat : fl.At key) :
    Follows runId (runProviderAction key provider prompt taskId) w fl fun _ w' fl' =>
      fl.Lists fl' ∧ (w'.sandboxes key.sandboxDir).isSome := by
  have hend := hready.mayEnd
  have htranscript : "provider-prompt-transcript-" ++ key.actionId.name ++ ".json" ≠ manifestName :=
    ne_manifestName_of_dash (dash_mem_append (dash_mem_append (by decide)))
  have hpreview : "sandbox-patch-preview-" ++ key.actionId.name ++ ".json" ≠ manifestName :=
    ne_manifestName_of_dash (dash_mem_append (dash_mem_append (by decide)))
  refine .bind (.read rfl (.bind (.orBail hend fun run _ => ?_)))
  refine .bind (.calm (storeArtifact_calm htranscript (by decide)) hend
    fun transcript ctx₁ w₁ hc₁ => ?_)
  have hl₁ := Flight.Lists.of_calm hc₁
  refine .bind (.of_wpS (storeArtifact_spec (summaryFilename_ne key) _ _) hend ?_)
  rintro summary _ w₂ ⟨hq₂, rfl, hstored, htype, hproducer, k, huri⟩
  let fl₂ : Flight := { fl with
    ctx := { ctx₁ with artifacts := ctx₁.artifacts ++ [summary] }, phase := .running key }
  refine ⟨fl₂, rfl, .move (.summary (hl₁.at_iff.mpr hat) hready.phase hq₂ hstored htype hproducer
    huri), ?_⟩
  refine .bind (.get (.bind (.quiet (emit_quiet (by decide)) rfl fun _ w₃ hq₃ => ?_)))
  refine .bind (.get (.bind (.quiet (emit_quiet (by decide)) rfl fun _ w₄ hq₄ => ?_)))
  split
  · exact .bail rfl
  refine .bind (.read rfl (.bind (.orBail rfl fun preview _ => ?_)))
  refine .bind (.calm (storeArtifact_calm hpreview (by decide)) rfl fun _ ctx₅ w₅ hc₅ => ?_)
  refine .bind (.get (.bind (.quiet (emit_quiet (by decide)) rfl fun _ w₆ hq₆ => ?_)))
  refine .bind (.lift ((copyDirRecursive_follows run.sandbox rfl).mono ?_))
  rintro _ ⟨w₇, _⟩ ⟨rfl, hsandbox⟩
  refine ⟨_, rfl, rfl, .pure ⟨?_, hsandbox⟩⟩
  obtain ⟨_, _, h₁⟩ := hl₁
  have hl₅ : fl₂.Lists { fl₂ with ctx := ctx₅ } := .of_calm hc₅
  obtain ⟨artifacts, repairAttempts, h₅⟩ := hl₅
  cases h₁
  cases h₅
  rw [← hready.phase]
  exact ⟨artifacts, repairAttempts, rfl⟩

theorem previewAction_follows {key : ActionKey} {provider : ProviderKind} {prompt : String}
    {taskId : Option String} {sandboxExists : Bool} (hready : fl.Ready) (hat : fl.At key)
    (hsandbox : sandboxExists = (w.sandboxes key.sandboxDir).isSome) :
    Follows runId (previewAction key provider prompt taskId sandboxExists) w fl fun _ w' fl' =>
      fl.Lists fl' ∧ (w'.sandboxes key.sandboxDir).isSome := by
  unfold previewAction
  cases sandboxExists with
  | false => exact runProviderAction_follows hready hat
  | true =>
    refine .quiet (previewSandbox_quiet _) hready.mayEnd fun _ w' hq => ⟨.refl fl, ?_⟩
    rw [hq.sandboxes, ← hsandbox]

/-- **An action takes steps of the protocol only**, and is done or waits at its end. -/
theorem applyProviderPromptPatchForRole_follows {key : ActionKey} {provider : ProviderKind}
    {prompt : String} {taskId : Option String} (hready : fl.Ready) (hat : fl.At key) :
    Follows runId (applyProviderPromptPatchForRole key provider prompt taskId) w fl
      fun status _ fl' => ActionsEnd fl [key] status fl' := by
  have hend := hready.mayEnd
  refine .bind (.read rfl (.bind (.get ?_)))
  split
  case isTrue hskip =>
    simp only [Bool.and_eq_true, Bool.not_eq_true', Option.isSome_eq_false_iff,
      Option.isNone_iff_eq_none] at hskip
    exact .after (.move (.skip hat hready.phase hskip.1 hskip.2)) rfl (.pure (.done (.refl _)))
  case isFalse =>
    refine .bind (.get (.bind (.quiet (emit_quiet (by decide)) hend fun _ w₁ hq₁ => ?_)))
    refine .bind ((previewAction_follows hready hat ?_).mono ?_)
    · rw [hq₁.sandboxes]
      rfl
    rintro preview w₂ fl₂ ⟨hl, hsandbox⟩
    refine (settlePreview_follows (hl.ready hready) (hl.at_iff.mpr hat) hsandbox).mono ?_
    rintro status w' fl' (⟨h⟩ | ⟨h⟩)
    · exact .done ((hl.advance _).trans h)
    · exact .waits h

end Ao2
