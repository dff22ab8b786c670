import Ao2.Run.Actions

/-!
# Sessions follow the protocol

The workflows of a resumed run take steps of the protocol only, and the status that they come to
agrees with the evidence they leave: an accepted run ends with an accepting verdict after a verifier
run that succeeded, a rejected one with a rejecting verdict, and neither leaves a ticket pending.

## Main results

* `realProjectRepairFrom_follows`, `repairAfterRejectionFrom_follows` — the two repair loops
-/

namespace Ao2

open Interaction

/-! ### Sessions under way and at their end -/

/-- A session, with or without a provider, that waits for nothing. -/
structure Flight.Open (fl : Flight) : Prop where
  session : fl.InSession
  phase : fl.phase = .idle
  pending : fl.ctx.hasPending = false

namespace Flight.Open

variable {fl fl' : Flight}

theorem mayEnd (h : fl.Open) : fl.phase.mayEnd := by rw [h.phase]; rfl

theorem lists (h : fl.Open) (hl : fl.Lists fl') : fl'.Open where
  session := by
    rw [Flight.InSession, hl.mode]
    exact h.session
  phase := hl.phase.trans h.phase
  pending := hl.hasPending.trans h.pending

end Flight.Open

theorem Flight.Ready.open {fl : Flight} (h : fl.Ready) : fl.Open := ⟨.inr h.mode, h.phase, h.pending⟩

/-- The flight with a verdict recorded. -/
def Flight.close (fl : Flight) (report : ClosureReport) : Flight :=
  { fl with ctx := { fl.ctx with closureReports := fl.ctx.closureReports ++ [report] } }

/-- A verdict was recorded, and nothing but bookkeeping done besides. -/
def Flight.Closes (verdict : String) (fl fl' : Flight) : Prop :=
  ∃ report : ClosureReport, report.verdict = verdict ∧ (fl.close report).Lists fl'

/-- The end of a session that comes to a status. -/
structure Flight.Concludes (fl : Flight) (trace : List Obs) (status : RunStatus) : Prop where
  session : fl.InSession
  phase : fl.phase = .idle ∨ fl.phase = .settled
  agrees : StatusAgrees fl.ctx trace status

namespace Flight

variable {fl fl' : Flight} {trace : List Obs} {status : RunStatus} {verdict : String}

theorem Closes.open (h : fl.Open) (hc : fl.Closes verdict fl') : fl'.Open := by
  obtain ⟨report, -, hl⟩ := hc
  have h' : (fl.close report).Open := ⟨h.session, h.phase, h.pending⟩
  exact h'.lists hl

theorem Closes.lastVerdict (hc : fl.Closes verdict fl') :
    fl'.ctx.closureReports.getLast?.map (·.verdict) = some verdict := by
  obtain ⟨report, rfl, hl⟩ := hc
  rw [hl.closureReports]
  simp [close]

/-- A verdict stays the last one as long as no other is recorded. -/
theorem Closes.lists {fl'' : Flight} (hc : fl.Closes verdict fl') (hl : fl'.Lists fl'') :
    fl.Closes verdict fl'' := by
  obtain ⟨report, hr, h⟩ := hc
  exact ⟨report, hr, h.trans hl⟩

theorem Waits.concludes (h : fl.Waits) : fl.Concludes trace .waitingForApproval :=
  ⟨.inr h.mode, .inr h.phase, .inl rfl⟩

theorem Open.accepts (h : fl.Open) (hc : fl.Closes "accepted" fl')
    (hv : lastVerified trace = some true) : fl'.Concludes trace .accepted :=
  ⟨(hc.open h).session, .inl (hc.open h).phase,
    .inr ⟨(hc.open h).pending, .inl ⟨rfl, hc.lastVerdict, hv⟩⟩⟩

theorem Open.rejects (h : fl.Open) (hc : fl.Closes "rejected" fl') :
    fl'.Concludes trace .rejected :=
  ⟨(hc.open h).session, .inl (hc.open h).phase,
    .inr ⟨(hc.open h).pending, .inr ⟨rfl, hc.lastVerdict⟩⟩⟩

theorem Concludes.mayEnd (h : fl.Concludes trace status) : fl.phase.mayEnd := by
  rcases h.phase with h | h <;> rw [h] <;> rfl

theorem Concludes.mayWrite (h : fl.Concludes trace status) : fl.MayWrite trace status := by
  refine ⟨?_, ?_⟩
  · rcases h.phase with h | h <;> rw [h] <;> rfl
  · rcases h.session with hm | hm <;> rw [hm] <;> exact h.agrees

end Flight

/-! ### Plans -/

theorem Flight.At.of_plan {fl : Flight} {key : ActionKey} (keys : List ActionKey) (h : fl.Ready)
    (hplan : fl.done ++ key :: keys <+: fl.plan) : fl.At key := by
  refine ⟨h.mode, List.IsPrefix.trans ?_ hplan⟩
  exact ⟨keys, by simp⟩

/-- The rest of the plan, once an action of it is done. -/
theorem prefix_of_lists {fl fl' : Flight} {key : ActionKey} {keys : List ActionKey}
    (hl : (fl.advance [key]).Lists fl') (hplan : fl.done ++ key :: keys <+: fl.plan) :
    fl'.done ++ keys <+: fl'.plan := by
  rw [hl.done, hl.plan]
  simpa [Flight.advance] using hplan

/-! ### Operations -/

/-- A verifier ends, or it cannot be run; either may change the target. -/
theorem effect_verifier (w : World) (command : String) :
    (∃ e target, w.effect (.runCommand .verifier command) =
        (.error e, { w with target := target })) ∨
      ∃ out target, w.effect (.runCommand .verifier command) =
        (.ok out, World.observe (.verified out.success) { w with target := target }) := by
  cases h : w.env.command w.tick w.target with
  | mk output target =>
    cases output with
    | error e => exact .inl ⟨e, target, by simp [World.effect, h]⟩
    | ok out => exact .inr ⟨out, target, by simp [World.effect, h, World.observe]⟩

theorem effect_providerFreeTask (w : World) (command : String) :
    ∃ output target, w.effect (.runCommand .providerFreeTask command) =
      (output, { w with target := target }) := by
  cases h : w.env.command w.tick w.target with
  | mk output target => exact ⟨output, target, by simp [World.effect, h]⟩

theorem effect_writeTarget (w : World) (kind : WriteKind) (path content : String) :
    (∃ e, w.effect (.writeTarget kind path content) = (.error e, w)) ∨
      ∃ target, w.effect (.writeTarget kind path content) =
        (.ok (), World.observe (.wrote kind w.now w.held) { w with target := target }) := by
  simp only [World.effect]
  split
  · exact .inl ⟨_, rfl⟩
  · exact .inr ⟨{ w.target with tree := w.target.tree.write path content }, rfl⟩

variable [Platform] {runId : String} {w : World} {fl : Flight}

/-! ### The verifier and the closures -/

theorem runVerifier_follows (h : fl.Open) :
    Follows runId runVerifier w fl fun outcome w' fl' =>
      fl.Lists fl' ∧ lastVerified w'.trace = some outcome.success := by
  have hend := h.mayEnd
  refine .bind (.get (.bind (.quiet (resolveVerifierCommand_quiet _) hend fun command w₁ hq₁ => ?_)))
  refine .bind (.get (.bind (.quiet (emit_quiet (by decide)) hend fun _ w₂ hq₂ => ?_)))
  rcases effect_verifier w₂ command with ⟨e, target, he⟩ | ⟨out, target, he⟩
  · exact .bind (.perform he (.move (.outside target w₂.locked)) rfl (.bail hend))
  refine .bind (.perform he (.move (.verified out.success target h.session h.phase)) rfl ?_)
  refine .bind (.calm (storeArtifact_calm (by decide) (by decide)) hend fun testLog ctx₃ w₃ hc₃ => ?_)
  refine .bind (.get (.bind (.quiet (emit_quiet ?_) hend fun _ w₄ hq₄ => ?_)))
  · split <;> decide
  · refine .pure ⟨.of_calm hc₃, ?_⟩
    rw [hq₄.trace, hc₃.quiet.trace]
    exact lastVerified_concat _ _

/-- **A verdict is recorded.** -/
theorem closeRun_follows {verdict : String} {criteria evidenceRefs unresolved : List String}
    {fileName eventType taskId : String} (hfile : fileName ≠ manifestName)
    (hevent : eventType ≠ checkpointType) (h : fl.Open) :
    Follows runId (closeRun verdict criteria evidenceRefs unresolved fileName eventType taskId) w fl
      fun _ w' fl' => fl.Closes verdict fl' ∧ w'.trace = w.trace := by
  refine .of_wpS (closeRun_spec hfile hevent _ _) h.mayEnd ?_
  rintro _ ctx' w' ⟨report, hr, hc⟩
  refine ⟨{ fl with ctx := ctx' }, rfl,
    .trans (.move (.close report h.session h.phase)) (.move (.calm hc)), ?_, hc.quiet.trace⟩
  have hl : (fl.close report).Lists { fl.close report with ctx := ctx' } := .of_calm hc
  exact ⟨report, hr, hl⟩

theorem rejectForMissingTests_follows (review : ArtifactRef) (h : fl.Open) :
    Follows runId (rejectForMissingTests review) w fl fun _ w' fl' =>
      fl.Closes "rejected" fl' ∧ w'.trace = w.trace := closeRun_follows (by decide) (by decide) h

theorem acceptFinal_follows (testLog : ArtifactRef) (h : fl.Open) :
    Follows runId (acceptFinal testLog) w fl fun _ w' fl' =>
      fl.Closes "accepted" fl' ∧ w'.trace = w.trace := closeRun_follows (by decide) (by decide) h

theorem rejectRealProjectVerifierFailure_follows (review verifier : ArtifactRef) (h : fl.Open) :
    Follows runId (rejectRealProjectVerifierFailure review verifier) w fl fun _ w' fl' =>
      fl.Closes "rejected" fl' ∧ w'.trace = w.trace := closeRun_follows (by decide) (by decide) h

theorem acceptRealProjectFinal_follows (testLog review : ArtifactRef) (h : fl.Open) :
    Follows runId (acceptRealProjectFinal testLog review) w fl fun _ w' fl' =>
      fl.Closes "accepted" fl' ∧ w'.trace = w.trace :=
  .bind (.get (closeRun_follows (by decide) (by decide) h))

/-- A review, and a verdict on it that accepts a run whose last verifier run succeeded. -/
theorem acceptance_follows (testLog : ArtifactRef) (h : fl.Open)
    (hv : lastVerified w.trace = some true) :
    Follows runId (do
      let review ← reviewerAcceptRealProject testLog
      acceptRealProjectFinal testLog review
      pure RunStatus.accepted) w fl fun status w' fl' => fl'.Concludes w'.trace status := by
  refine .bind (.calm (reviewerAcceptRealProject_calm _) h.mayEnd fun review ctx₁ w₁ hc₁ => ?_)
  have h₁ := h.lists (.of_calm hc₁)
  refine .bind ((acceptRealProjectFinal_follows testLog review h₁).mono ?_)
  rintro _ w₂ fl₂ ⟨hcloses, htrace⟩
  refine .pure (h₁.accepts hcloses ?_)
  rw [htrace, hc₁.quiet.trace, hv]

/-! ### The scripted fixture -/

theorem writeTarget_follows {kind : WriteKind} {path content : String} (h : fl.MayChange kind)
    (hend : fl.phase.mayEnd) :
    FollowsCmd runId (writeTarget kind path content) (w, some fl) fun _ s' => s'.2 = some fl := by
  unfold writeTarget
  rcases effect_writeTarget w kind path content with ⟨e, he⟩ | ⟨target, he⟩
  · exact .bind (.read he (.bail hend))
  · exact .bind (.perform he (.move (.write target h)) (.pure rfl))

theorem applyFirstPatch_follows (h : fl.Open) (hmode : fl.mode = .scripted)
    (hreal : fl.ctx.isRealProjectTemplate = false) :
    Follows runId applyFirstPatch w fl fun _ _ fl' => fl.Lists fl' := by
  have hend := h.mayEnd
  refine .bind (.get (.bind (.quiet (emit_quiet (by decide)) hend fun _ w₁ _ => ?_)))
  have hmay : fl.MayChange .firstPatch := ⟨hmode, h.phase, hreal⟩
  refine .bind (.lift ((writeTarget_follows hmay hend).mono ?_))
  rintro _ ⟨w₂, _⟩ rfl
  refine ⟨fl, rfl, rfl, .calm (.bind recordScriptedAdapterTranscript_calm fun _ =>
    .bind (storeArtifact_calm (by decide) (by decide)) fun _ => emitCurrent_calm (by decide)) hend
    fun _ ctx₃ w₃ hc₃ => .of_calm hc₃⟩

theorem applyCorrectionPatch_follows (h : fl.Open) :
    Follows runId applyCorrectionPatch w fl fun _ _ fl' => fl.Lists fl' := by
  have hmay : fl.MayChange .correctionPatch := ⟨h.session, h.phase⟩
  refine .bind (.lift ((writeTarget_follows hmay h.mayEnd).mono ?_))
  rintro _ ⟨w₁, _⟩ rfl
  exact ⟨fl, rfl, rfl, .calm (.bind (storeArtifact_calm (by decide) (by decide)) fun _ => .pure _)
    h.mayEnd fun _ ctx₂ w₂ hc₂ => .of_calm hc₂⟩

/-- The repair loop after a rejected review, by induction on the attempts that are left. It ends
with a log only after a verifier run that succeeded. -/
theorem repairAfterRejectionFrom_follows (maxAttempts : ℕ) (review : ArtifactRef)
    (attempt left : ℕ) (w : World) (fl : Flight) (h : fl.Open) :
    Follows runId (repairAfterRejectionFrom maxAttempts review attempt left) w fl
      fun result w' fl' => fl.Lists fl' ∧ (result.isSome → lastVerified w'.trace = some true) := by
  have hend := h.mayEnd
  induction left generalizing attempt w fl with
  | zero =>
    refine .bind (.calm (recordRepairBudgetExhausted_calm _ _) hend fun _ ctx₁ w₁ hc₁ => ?_)
    exact .pure ⟨.of_calm hc₁, by simp⟩
  | succ left ih =>
    refine .bind (.get (.bind (.quiet (emit_quiet (by decide)) hend fun _ w₁ _ => ?_)))
    refine .bind ((applyCorrectionPatch_follows h).mono fun _ w₂ fl₂ hl₂ => ?_)
    refine .bind ((runVerifier_follows (h.lists hl₂)).mono ?_)
    rintro verifier w₃ fl₃ ⟨hl₃, hv₃⟩
    have hl := hl₂.trans hl₃
    have h₃ := h.lists hl
    refine .bind (.read rfl ?_)
    split
    case isTrue hsuccess =>
      refine .bind (.calm (finishRepairAttempt_calm (by decide)) h₃.mayEnd fun _ ctx₄ w₄ hc₄ => ?_)
      refine .pure ⟨hl.trans (.of_calm hc₄), fun _ => ?_⟩
      rw [hc₄.quiet.trace]
      exact hv₃.trans (congrArg some hsuccess)
    case isFalse =>
      refine .bind (.calm (finishRepairAttempt_calm (by decide)) h₃.mayEnd fun _ ctx₄ w₄ hc₄ => ?_)
      have hl₄ := hl.trans (.of_calm hc₄)
      refine (ih _ _ _ (h.lists hl₄) (h.lists hl₄).mayEnd).mono ?_
      rintro result w₅ fl₅ ⟨hl₅, hv₅⟩
      exact ⟨hl₄.trans hl₅, hv₅⟩

/-! ### Task graphs and repair of a real project -/

/-- The tasks of a plan, by induction on those that are left. -/
theorem sddTasksFrom_follows (provider : ProviderKind) (prompt : String) (total ordinal : ℕ)
    (tasks : List Json) (w : World) (fl : Flight) (h : fl.Ready)
    (hplan : fl.done ++ taskKeys tasks <+: fl.plan) :
    Follows runId (sddTasksFrom provider prompt total ordinal tasks) w fl fun status _ fl' =>
      ActionsEnd fl (taskKeys tasks) status fl' := by
  induction tasks generalizing ordinal w fl with
  | nil => exact .pure (.done (by simpa [taskKeys] using .refl fl))
  | cons task tasks ih =>
    refine .bind (.orBail h.mayEnd fun id hid => .bind (.orBail h.mayEnd fun taskPrompt _ => ?_))
    have hkeys : taskKeys (task :: tasks) = taskKey id :: taskKeys tasks := by
      simp [taskKeys, hid, Except.toOption]
    rw [hkeys] at hplan ⊢
    refine .bind ((applyProviderPromptPatchForRole_follows h (.of_plan _ h hplan)).mono ?_)
    rintro status w₁ fl₁ (⟨hl⟩ | ⟨hwaits⟩)
    · refine (ih _ _ _ (hl.ready (ready_advance h _)) (prefix_of_lists hl hplan)).mono ?_
      rintro status w₂ fl₂ (⟨hl₂⟩ | ⟨hwaits⟩)
      · have := (hl.advance (taskKeys tasks)).trans hl₂
        rw [Flight.advance_advance] at this
        exact .done this
      · exact .waits hwaits
    · exact .pure (.waits hwaits)

/-- The repair loop of a real project, by induction on the attempts that are left. It ends with a
log only after a verifier run that succeeded, and otherwise with the budget used up or waiting. -/
theorem realProjectRepairFrom_follows (provider : ProviderKind) (prompt : String) (maxAttempts : ℕ)
    (review : ArtifactRef) (attempt left : ℕ) (lastVerifier : VerifierOutcome) (w : World)
    (fl : Flight) (h : fl.Ready) (hplan : fl.done ++ repairKeys attempt left <+: fl.plan) :
    Follows runId (realProjectRepairFrom provider prompt maxAttempts review attempt left lastVerifier)
      w fl fun result w' fl' =>
        fl'.Ready ∧ (result.isSome → lastVerified w'.trace = some true) ∨
          fl'.Waits ∧ result = none := by
  have hend := h.mayEnd
  induction left generalizing attempt lastVerifier w fl with
  | zero =>
    refine .bind (.calm (recordRepairBudgetExhausted_calm _ _) hend fun _ ctx₁ w₁ hc₁ => ?_)
    exact .pure (.inl ⟨(Flight.Lists.of_calm hc₁).ready h, by simp⟩)
  | succ left ih =>
    refine .bind (.get (.bind (.quiet (emit_quiet (by decide)) hend fun _ w₁ _ => ?_)))
    refine .bind (.calm (recordRealProjectRepairPrompt_calm _ _ _ _ _) hend
      fun promptArtifact ctx₂ w₂ hc₂ => ?_)
    have hl₂ := Flight.Lists.of_calm hc₂
    have h₂ := hl₂.ready h
    refine .bind ((applyProviderPromptPatchForRole_follows h₂ (.of_plan _ h₂ hplan)).mono ?_)
    rintro status w₃ fl₃ (⟨hl₃⟩ | ⟨hwaits⟩)
    · have h₃ := hl₃.ready (ready_advance h₂ _)
      refine .bind ((runVerifier_follows h₃.open).mono ?_)
      rintro verifier w₄ fl₄ ⟨hl₄, hv₄⟩
      have h₄ := hl₄.ready h₃
      refine .bind (.read rfl ?_)
      split
      case isTrue hsuccess =>
        refine .bind (.calm (finishRepairAttempt_calm (by decide)) h₄.mayEnd
          fun _ ctx₅ w₅ hc₅ => ?_)
        refine .pure (.inl ⟨(Flight.Lists.of_calm hc₅).ready h₄, fun _ => ?_⟩)
        rw [hc₅.quiet.trace]
        exact hv₄.trans (congrArg some hsuccess)
      case isFalse =>
        refine .bind (.calm (finishRepairAttempt_calm (by decide)) h₄.mayEnd
          fun _ ctx₅ w₅ hc₅ => ?_)
        have hl₅ : fl₄.Lists _ := .of_calm hc₅
        refine ih _ _ _ _ (hl₅.ready h₄) ?_ (hl₅.ready h₄).mayEnd
        rw [hl₅.done, hl₅.plan, hl₄.done, hl₄.plan]
        exact prefix_of_lists hl₃ hplan
    · exact .pure (.inr ⟨hwaits, rfl⟩)

/-! ### Provider workflows -/

/-- From the first verifier run on, a real project comes to a verdict or waits. -/
theorem concludeRealProject_follows (provider : ProviderKind) (prompt : String)
    (maxRepairAttempts : ℕ) (h : fl.Ready)
    (hplan : fl.done ++ repairKeys 1 maxRepairAttempts <+: fl.plan) :
    Follows runId (concludeRealProject provider prompt maxRepairAttempts) w fl
      fun status w' fl' => fl'.Concludes w'.trace status := by
  refine .bind ((runVerifier_follows h.open).mono ?_)
  rintro verifier w₂ fl₂ ⟨hl₂, hv₂⟩
  have h₂ := hl₂.ready h
  split
  case isTrue hsuccess =>
    exact acceptance_follows _ h₂.open (hv₂.trans (congrArg some hsuccess))
  case isFalse =>
    refine .bind (.calm (reviewerVerifierFailure_calm _) h₂.mayEnd fun review ctx₃ w₃ hc₃ => ?_)
    have hl₃ : fl₂.Lists _ := .of_calm hc₃
    have h₃ := hl₃.ready h₂
    split
    case isTrue =>
      refine .bind ((rejectRealProjectVerifierFailure_follows _ _ h₃.open).mono ?_)
      rintro _ w₄ fl₄ ⟨hcloses, -⟩
      refine .bind (.calm (recordRepairBudgetExhausted_calm _ _) (hcloses.open h₃.open).mayEnd
        fun _ ctx₅ w₅ hc₅ => ?_)
      exact .pure (h₃.open.rejects (hcloses.lists (.of_calm hc₅)))
    case isFalse =>
      refine .bind ((realProjectRepairFrom_follows provider prompt _ review 1 _ verifier _ _ h₃
        ?_).mono ?_)
      · rw [hl₃.done, hl₃.plan, hl₂.done, hl₂.plan]
        exact hplan
      rintro (_ | testLog) w₄ fl₄ (⟨h₄, hv₄⟩ | ⟨hwaits, hnone⟩)
      · -- the budget is used up
        refine .bind (.get ?_)
        rw [if_neg (by simp [h₄.pending])]
        refine .bind ((rejectRealProjectVerifierFailure_follows _ _ h₄.open).mono ?_)
        rintro _ w₅ fl₅ ⟨hcloses, -⟩
        exact .pure (h₄.open.rejects hcloses)
      · refine .bind (.get ?_)
        rw [if_pos hwaits.pending]
        exact .pure hwaits.concludes
      · exact acceptance_follows _ h₄.open (hv₄ rfl)
      · cases hnone

/-- **The provider workflow of a real project** follows the plan of its session: first the tasks,
or one action for the whole prompt, then the attempts at repair. -/
theorem runRealProjectProviderWorkflow_follows (provider : ProviderKind) (prompt : String)
    (options : ProviderRunOptions) (h : fl.Ready) (hdone : fl.done = [])
    (hplan : fl.plan = actionPlan fl.ctx options) (hreal : fl.ctx.isRealProjectTemplate = true) :
    Follows runId (runRealProjectProviderWorkflow provider prompt options.maxRepairAttempts) w fl
      fun status w' fl' => fl'.Concludes w'.trace status := by
  have hrest (keys : List ActionKey) (status : RunStatus) (w₁ : World) (fl₁ : Flight)
      (hkeys : fl.plan = keys ++ repairKeys 1 options.maxRepairAttempts)
      (hend : ActionsEnd fl keys status fl₁) :
      Follows runId (if status = .waitingForApproval then pure .waitingForApproval
        else concludeRealProject provider prompt options.maxRepairAttempts) w₁ fl₁
        fun status w' fl' => fl'.Concludes w'.trace status := by
    rcases hend with ⟨hl⟩ | ⟨hwaits⟩
    · refine concludeRealProject_follows _ _ _ (hl.ready (ready_advance h keys)) ?_
      rw [hl.done, hl.plan, Flight.advance, hdone, hkeys]
      exact List.prefix_rfl
    · exact .pure hwaits.concludes
  refine .bind (.get (.bind (.orBail h.mayEnd fun order horder => ?_)))
  rw [actionPlan, if_pos hreal, horder] at hplan
  cases order with
  | some tasks =>
    refine .bind ((sddTasksFrom_follows _ _ _ _ _ _ _ h ?_).mono fun status w₁ fl₁ =>
      hrest _ status w₁ fl₁ hplan)
    rw [hdone, hplan]
    exact List.prefix_append ..
  | none =>
    refine .bind ((applyProviderPromptPatchForRole_follows h (.of_plan [] h ?_)).mono
      fun status w₁ fl₁ => hrest _ status w₁ fl₁ hplan)
    rw [hdone, hplan]
    exact List.prefix_append ..

/-- The provider workflow of the fixture. -/
theorem runFixtureProviderWorkflow_follows (provider : ProviderKind) (prompt : String)
    (options : ProviderRunOptions) (h : fl.Ready) (hdone : fl.done = [])
    (hplan : fl.plan = actionPlan fl.ctx options) (hreal : fl.ctx.isRealProjectTemplate = false) :
    Follows runId (runFixtureProviderWorkflow provider prompt options.maxRepairAttempts) w fl
      fun status w' fl' => fl'.Concludes w'.trace status := by
  have hat : fl.At (implementerKey .providerPromptPatch) := by
    refine .of_plan [] h ?_
    rw [hdone, hplan, actionPlan, if_neg (by simp [hreal])]
    exact List.prefix_rfl
  refine .bind ((applyProviderPromptPatchForRole_follows h hat).mono ?_)
  rintro status w₁ fl₁ (⟨hl₁⟩ | ⟨hwaits⟩)
  swap
  · exact .pure hwaits.concludes
  have h₁ := (hl₁.ready (ready_advance h _)).open
  refine .bind (.calm reviewerConcern_calm h₁.mayEnd fun review ctx₂ w₂ hc₂ => ?_)
  have h₂ := h₁.lists (.of_calm hc₂)
  refine .bind ((rejectForMissingTests_follows _ h₂).mono ?_)
  rintro _ w₃ fl₃ ⟨hcloses, -⟩
  have h₃ := hcloses.open h₂
  split
  case isTrue =>
    refine .bind (.calm (recordRepairBudgetExhausted_calm _ _) h₃.mayEnd fun _ ctx₄ w₄ hc₄ => ?_)
    exact .pure (h₂.rejects (hcloses.lists (.of_calm hc₄)))
  case isFalse =>
    refine .bind ((repairAfterRejectionFrom_follows _ _ _ _ _ _ h₃).mono ?_)
    rintro (_ | testLog) w₄ fl₄ ⟨hl₄, hv₄⟩
    · exact .pure (h₂.rejects (hcloses.lists hl₄))
    · refine .bind ((acceptFinal_follows _ (h₃.lists hl₄)).mono ?_)
      rintro _ w₅ fl₅ ⟨hcloses₅, htrace⟩
      exact .pure ((h₃.lists hl₄).accepts hcloses₅ (by rw [htrace, hv₄ rfl]))

theorem clearConsumed_follows (hmode : fl.mode = .session) (hphase : fl.phase = .opening) :
    FollowsCmd runId clearConsumed (w, some fl) fun _ s' =>
      s'.2 = some { fl with phase := .idle } := by
  refine .bind (.perform rfl (.move (.cleared hmode hphase)) (.bind (.read rfl ?_)))
  change FollowsCmd runId (match w.consumed with
    | some _ => op .removeConsumed
    | none => pure ()) ((w.observe .cleared).count.count, _) _
  have hforgotten : Move runId
      ((w.observe .cleared).count.count, some { fl with phase := .clearing })
      ({ (w.observe .cleared).count.count with consumed := none },
        some { fl with phase := .idle }) := .forgotten rfl
  cases hconsumed : w.consumed with
  | some ids => exact .perform rfl (.move hforgotten) rfl
  | none =>
    -- there is no list to remove
    have hsame : { (w.observe .cleared).count.count with consumed := none } =
        (w.observe .cleared).count.count := by
      rw [← hconsumed]
      rfl
    rw [hsame] at hforgotten
    exact .after (.move hforgotten) rfl (.pure rfl)

/-- **A provider session** forgets which tickets were used, and follows its plan. -/
theorem providerSession_follows {options : ProviderRunOptions} (hmode : fl.mode = .session)
    (hphase : fl.phase = .opening) (hpending : fl.ctx.hasPending = false) (hdone : fl.done = [])
    (hplan : fl.plan = actionPlan fl.ctx options) :
    Follows runId (providerSession options) w fl
      fun status w' fl' => fl'.Concludes w'.trace status := by
  have hend : fl.phase.mayEnd := by rw [hphase]; rfl
  refine .bind (.calm (providerPrompt_calm options) hend fun prompt ctx₁ w₁ hc₁ => ?_)
  have hl := Flight.Lists.of_calm hc₁
  -- the plan is made from what bookkeeping leaves alone
  have hplan₁ : fl.plan = actionPlan ctx₁ options := by
    obtain ⟨-, _, _, rfl, -⟩ := hc₁
    exact hplan
  let fl₂ : Flight := { fl with ctx := ctx₁, phase := .idle }
  have h₂ : fl₂.Ready := ⟨hmode, rfl, hl.hasPending.trans hpending⟩
  have hworkflow (w₃ : World) : Follows runId
      (runProviderWorkflow options.provider prompt options.maxRepairAttempts) w₃ fl₂
      fun status w' fl' => fl'.Concludes w'.trace status := by
    refine .bind (.get ?_)
    cases hreal : ctx₁.isRealProjectTemplate with
    | true =>
      rw [if_pos rfl]
      exact runRealProjectProviderWorkflow_follows _ _ options h₂ hdone hplan₁ hreal
    | false =>
      rw [if_neg (by decide)]
      exact runFixtureProviderWorkflow_follows _ _ options h₂ hdone hplan₁ hreal
  have hclear : FollowsCmd runId clearConsumed (w₁, some { fl with ctx := ctx₁ }) _ :=
    clearConsumed_follows hmode hphase
  refine .bind (.lift (hclear.mono ?_))
  rintro _ ⟨w₂, _⟩ rfl
  exact ⟨fl₂, rfl, rfl, hworkflow w₂⟩

/-! ### Sessions without a provider -/

theorem providerFreeCommandsFrom_follows (id : String) (index : ℕ) (commands : List String)
    (w : World) (fl : Flight) (hend : fl.phase.mayEnd) :
    Follows runId (providerFreeCommandsFrom id index commands) w fl fun _ _ fl' => fl.Lists fl' := by
  induction commands generalizing index w fl with
  | nil => exact .pure (.refl fl)
  | cons rawCommand commands ih =>
    refine .bind (.quiet (resolveVerifierCommand_quiet _) hend fun command w₁ _ => ?_)
    refine .bind (.get (.bind (.quiet (emit_quiet (by decide)) hend fun _ w₂ _ => ?_)))
    obtain ⟨output, target, he⟩ := effect_providerFreeTask w₂ command
    refine .bind (.perform he (.move (.outside target w₂.locked)) rfl ?_)
    cases output with
    | error e => exact .bail hend
    | ok out =>
      have hname : (id.map fun c => if c = '/' then '_' else c) ++ "-provider-free-command-" ++
          toString (index + 1) ++ ".json" ≠ manifestName :=
        ne_manifestName_of_dash (dash_mem_append (dash_mem_append (dash_mem_append_right
          (by decide +kernel))))
      refine .bind (.calm (storeArtifact_calm hname (by decide)) hend fun artifact ctx₃ w₃ hc₃ => ?_)
      have hl₃ := Flight.Lists.of_calm hc₃
      refine .bind (.get (.bind (.quiet (emit_quiet ?_) hend fun _ w₄ _ => ?_)))
      · split <;> decide
      split
      · refine .bind ((ih _ _ _ (by rwa [hl₃.phase])).mono fun rest w₅ fl₅ hl₅ => ?_)
        exact .pure (hl₃.trans hl₅)
      · exact .bail hend

theorem providerFreeTasksFrom_follows (tasks : List Json) (w : World) (fl : Flight)
    (hend : fl.phase.mayEnd) :
    Follows runId (providerFreeTasksFrom tasks) w fl fun _ _ fl' => fl.Lists fl' := by
  induction tasks generalizing w fl with
  | nil => exact .pure (.refl fl)
  | cons task tasks ih =>
    refine .bind (.orBail hend fun id _ => ?_)
    refine .bind (.get (.bind (.quiet (emit_quiet (by decide)) hend fun _ w₁ _ => ?_)))
    refine .bind (.bind (.orBail hend fun commands _ =>
      (providerFreeCommandsFrom_follows id 0 commands _ _ hend).mono fun logs w₂ fl₂ hl₂ => ?_))
    have hend₂ : fl₂.phase.mayEnd := by rwa [hl₂.phase]
    have hname : id ++ "-provider-free-summary.json" ≠ manifestName :=
      ne_manifestName_of_dash (dash_mem_append_right (by decide +kernel))
    refine .bind (.calm (storeArtifact_calm hname (by decide)) hend₂ fun summary ctx₃ w₃ hc₃ => ?_)
    have hl₃ : fl.Lists { fl₂ with ctx := ctx₃ } := hl₂.trans (.of_calm hc₃)
    refine .bind (.get (.bind (.quiet (emit_quiet (by decide)) hend₂ fun _ w₄ _ => ?_)))
    exact (ih w₄ { fl₂ with ctx := ctx₃ } hend₂).mono fun _ w₅ fl₅ hl₅ => hl₃.trans hl₅

theorem recordProviderFreeRealProjectTasks_follows (hend : fl.phase.mayEnd) :
    Follows runId recordProviderFreeRealProjectTasks w fl fun _ _ fl' => fl.Lists fl' := by
  refine .bind (.get (.bind (.orBail hend fun order _ => ?_)))
  dsimp only
  split
  · exact .calm (.bind .get fun _ => .bind (emit_quiet (by decide)).lift fun _ =>
      emitCurrent_calm (by decide)) hend fun _ _ _ => .of_calm
  · exact providerFreeTasksFrom_follows _ _ _ hend

/-- **A session without a provider, of a real project**: it returns only with a verdict that
accepts. -/
theorem runRealProjectProviderFreeWorkflow_follows (h : fl.Open) :
    Follows runId runRealProjectProviderFreeWorkflow w fl
      fun _ w' fl' => fl'.Concludes w'.trace .accepted := by
  refine .bind ((recordProviderFreeRealProjectTasks_follows h.mayEnd).mono fun _ w₁ fl₁ hl₁ => ?_)
  have h₁ := h.lists hl₁
  refine .bind ((runVerifier_follows h₁).mono ?_)
  rintro verifier w₂ fl₂ ⟨hl₂, hv₂⟩
  have h₂ := h₁.lists hl₂
  split
  case isTrue hsuccess =>
    refine .bind (.calm (reviewerAcceptRealProject_calm _) h₂.mayEnd fun review ctx₃ w₃ hc₃ => ?_)
    have h₃ := h₂.lists (.of_calm hc₃)
    refine (acceptRealProjectFinal_follows _ _ h₃).mono ?_
    rintro _ w₄ fl₄ ⟨hcloses, htrace⟩
    refine h₃.accepts hcloses ?_
    rw [htrace, hc₃.quiet.trace, hv₂, hsuccess]
  case isFalse =>
    refine .bind (.calm (reviewerVerifierFailure_calm _) h₂.mayEnd fun review ctx₃ w₃ hc₃ => ?_)
    have h₃ := h₂.lists (.of_calm hc₃)
    refine .bind ((rejectRealProjectVerifierFailure_follows _ _ h₃).mono ?_)
    rintro _ w₄ fl₄ ⟨hcloses, -⟩
    exact .bail (hcloses.open h₃).mayEnd

/-- **A session without a provider, of the fixture**: it returns only with a verdict that
accepts. -/
theorem runFixtureProviderFreeWorkflow_follows (h : fl.Open) (hmode : fl.mode = .scripted)
    (hreal : fl.ctx.isRealProjectTemplate = false) :
    Follows runId runFixtureProviderFreeWorkflow w fl
      fun _ w' fl' => fl'.Concludes w'.trace .accepted := by
  refine .bind ((applyFirstPatch_follows h hmode hreal).mono fun _ w₁ fl₁ hl₁ => ?_)
  have h₁ := h.lists hl₁
  refine .bind (.calm reviewerConcern_calm h₁.mayEnd fun review ctx₂ w₂ hc₂ => ?_)
  have h₂ := h₁.lists (.of_calm hc₂)
  refine .bind ((rejectForMissingTests_follows _ h₂).mono ?_)
  rintro _ w₃ fl₃ ⟨hcloses, -⟩
  have h₃ := hcloses.open h₂
  refine .bind ((applyCorrectionPatch_follows h₃).mono fun _ w₄ fl₄ hl₄ => ?_)
  refine .bind ((runVerifier_follows (h₃.lists hl₄)).mono ?_)
  rintro verifier w₅ fl₅ ⟨hl₅, hv₅⟩
  have h₅ := (h₃.lists hl₄).lists hl₅
  split
  case isTrue hsuccess =>
    refine (acceptFinal_follows _ h₅).mono ?_
    rintro _ w₆ fl₆ ⟨hcloses₆, htrace⟩
    exact h₅.accepts hcloses₆ (by rw [htrace, hv₅, hsuccess])
  case isFalse => exact .bail h₅.mayEnd

end Ao2
