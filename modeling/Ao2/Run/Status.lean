import Ao2.Run.Writes

/-!
# The status in the record

The record of a run says how the run stands. Four workflows and two repair loops close runs, each in its
own order, an approval writes a status of its own, and a provider run writes the record again as the last
resumption left it. Whatever happened before, and wherever processes were stopped, the status in the
record agrees with what the record holds besides and with the last run of the verifier.

## Main results

* `statusAgrees_of_record` — the status of the record, in every history
-/

namespace Ao2

open Interaction

section

variable [Platform] {runId : String}

/-! ### Histories and statuses -/

omit [Platform] in
/-- What a status says does not change with what happens apart from the verifier. -/
theorem StatusAgrees.congr {ctx ctx' : RunContext} {trace trace' : List Obs} {status : RunStatus}
    (h : StatusAgrees ctx trace status) (happrovals : ctx'.approvals = ctx.approvals)
    (hclosures : ctx'.closureReports = ctx.closureReports)
    (htrace : lastVerified trace' = lastVerified trace) : StatusAgrees ctx' trace' status := by
  unfold StatusAgrees RunContext.hasPending
  rw [happrovals, hclosures, htrace]
  exact h

/-- The phases of a session that has not written the record yet. -/
def Phase.unwritten : Phase → Bool
  | settled => false
  | _ => true

/-- A working copy and the status it is written with are those of the record. -/
structure Rewrites (w : World) (fl : Flight) (status : RunStatus) : Prop where
  record : ∃ r, w.record = some r ∧ r.status = status ∧
    fl.ctx.approvals = r.ctx.approvals ∧ fl.ctx.closureReports = r.ctx.closureReports

/-- What is known of a command under way. -/
structure Flight.Stands (w : World) (fl : Flight) : Prop where
  /-- Until a session writes the record, the record says that the run waits. -/
  waits : fl.InSession → fl.phase.unwritten → ∃ r, w.record = some r ∧ r.status = .waitingForApproval
  rewrites : ∀ status, fl.mode = .rewriting status → Rewrites w fl status

/-- **The status in the record agrees with the evidence.** -/
structure StatusSound (s : State) : Prop where
  recorded : ∀ r, s.1.record = some r → StatusAgrees r.ctx s.1.trace r.status
  flying : ∀ fl, s.2 = some fl → fl.Stands s.1

namespace StatusSound

variable {w w' : World} {fl fl' : Option Flight} {s s' : State}

omit [Platform] in
/-- The record stays as it is, and no verifier was run. -/
theorem frame (h : StatusSound (w, fl)) (hrecord : w'.record = w.record)
    (htrace : lastVerified w'.trace = lastVerified w.trace)
    (hfl : ∀ f', fl' = some f' → f'.Stands w') : StatusSound (w', fl') :=
  ⟨fun r hr => (h.recorded r (hrecord ▸ hr)).congr rfl rfl htrace, hfl⟩

omit [Platform] in
/-- The same, and the command goes on. -/
theorem keep {f f' : Flight} (h : StatusSound (w, some f)) (hrecord : w'.record = w.record)
    (htrace : lastVerified w'.trace = lastVerified w.trace) (hmode : f'.mode = f.mode)
    (hphase : f'.phase.unwritten → f.phase.unwritten)
    (hctx : (∀ status, f.mode ≠ .rewriting status) ∨
      f'.ctx.approvals = f.ctx.approvals ∧ f'.ctx.closureReports = f.ctx.closureReports) :
    StatusSound (w', some f') := by
  refine h.frame hrecord htrace ?_
  rintro _ ⟨⟩
  have hf := h.flying f rfl
  refine ⟨fun hsession hunwritten => ?_, fun status hrewriting => ?_⟩
  · rw [hrecord]
    exact hf.waits (by rwa [Flight.InSession, ← hmode]) (hphase hunwritten)
  · rw [hmode] at hrewriting
    obtain ⟨r, hr, hstatus, happrovals, hclosures⟩ := (hf.rewrites status hrewriting).record
    obtain ⟨happrovals', hclosures'⟩ := hctx.resolve_left fun hnot => hnot status hrewriting
    exact ⟨r, hrecord.trans hr, hstatus, happrovals'.trans happrovals, hclosures'.trans hclosures⟩

omit [Platform] in
theorem landed (h : StatusSound (w, fl)) (hrecord : w'.record = w.record)
    (htrace : lastVerified w'.trace = lastVerified w.trace) : StatusSound (w', none) :=
  h.frame hrecord htrace fun _ hf => by cases hf

omit [Platform] in
/-- A command outside a session is launched. -/
theorem launch {f : Flight} (h : StatusSound (w, none)) (hrecord : w'.record = w.record)
    (htrace : lastVerified w'.trace = lastVerified w.trace)
    (hmode : f.mode = .starting ∨ f.mode = .approving) : StatusSound (w', some f) := by
  refine h.frame hrecord htrace ?_
  rintro _ ⟨⟩
  refine ⟨fun hsession _ => ?_, fun status hrewriting => ?_⟩
  · rcases hsession with hsession | hsession <;> rcases hmode with hmode | hmode <;>
      cases hmode.symm.trans hsession
  · rcases hmode with hmode | hmode <;> cases hmode.symm.trans hrewriting

omit [Platform] in
theorem launch_session {f : Flight} {r : RunRecord} (h : StatusSound (w, none))
    (hrecord : w.record = some r) (hstatus : r.status = .waitingForApproval) (hmode : f.InSession) :
    StatusSound (w, some f) := by
  refine h.frame rfl rfl ?_
  rintro _ ⟨⟩
  refine ⟨fun _ _ => ⟨r, hrecord, hstatus⟩, fun status hrewriting => ?_⟩
  rcases hmode with hmode | hmode <;> cases hmode.symm.trans hrewriting

/-- **The status keeps agreeing.** -/
theorem move (hm : Move runId s s') (h : StatusSound s) : StatusSound s' := by
  have hsession {f : Flight} (hmode : f.InSession) (status : RunStatus) :
      f.mode ≠ .rewriting status := by
    rintro hrewriting
    rcases hmode with hmode | hmode <;> cases hmode.symm.trans hrewriting
  have hstarting {f : Flight} (hmode : f.mode = .starting) (status : RunStatus) :
      f.mode ≠ .rewriting status := fun hrewriting => by cases hmode.symm.trans hrewriting
  cases hm with
  | quiet hq =>
    obtain ⟨_, _, _, rfl, -⟩ := hq
    exact h.landed rfl rfl
  | calm hc =>
    obtain ⟨⟨_, _, _, rfl, -⟩, _, _, rfl, -⟩ := hc
    exact h.keep rfl rfl rfl id (.inr ⟨rfl, rfl⟩)
  | @outside w fl | @contents w fl =>
    cases fl with
    | none => exact h.landed rfl rfl
    | some fl => exact h.keep rfl rfl rfl id (.inr ⟨rfl, rfl⟩)
  | land | options | granted => exact h.landed rfl rfl
  | grant => exact h.landed rfl (lastVerified_concat ..)
  | start workflow => exact h.launch rfl (lastVerified_concat ..) (.inl rfl)
  | approve => exact h.launch rfl rfl (.inr rfl)
  | decide _ hmode => exact h.keep rfl rfl rfl id (.inl (hstarting hmode))
  | firstTicket _ _ _ hmode hphase =>
    exact h.keep rfl (lastVerified_concat ..) rfl (fun _ => by rw [hphase]; rfl)
      (.inl (hstarting hmode))
  | keep | removeSandbox => exact h.keep rfl rfl rfl id (.inr ⟨rfl, rfl⟩)
  | cleared _ hphase | authorise _ _ hphase | applied hphase =>
    exact h.keep rfl (lastVerified_concat ..) rfl (fun _ => by rw [hphase]; rfl) (.inr ⟨rfl, rfl⟩)
  | forgotten hphase | createSandbox hphase | consume hphase =>
    exact h.keep rfl rfl rfl (fun _ => by rw [hphase]; rfl) (.inr ⟨rfl, rfl⟩)
  | write | sought | stale => exact h.keep rfl (lastVerified_concat ..) rfl id (.inr ⟨rfl, rfl⟩)
  | skip => exact h.keep rfl rfl rfl id (.inr ⟨rfl, rfl⟩)
  | close _ hmode => exact h.keep rfl rfl rfl id (.inl (hsession hmode))
  | summary _ hphase hq =>
    obtain ⟨_, _, _, rfl, -⟩ := hq
    exact h.keep rfl rfl rfl (fun _ => by rw [hphase]; rfl) (.inr ⟨rfl, rfl⟩)
  | request _ _ _ hat hphase =>
    exact h.keep rfl (lastVerified_concat ..) rfl (fun _ => by rw [hphase]; rfl)
      (.inl (hsession (.inr hat.1)))
  | beginSession hrecord hstatus => exact h.launch_session hrecord hstatus (.inr rfl)
  | beginScripted hrecord hstatus => exact h.launch_session hrecord hstatus (.inl rfl)
  | @rewrite w r hrecord =>
    refine h.frame rfl rfl ?_
    rintro _ ⟨⟩
    refine ⟨fun hmode _ => ?_, ?_⟩
    · rcases hmode with hmode | hmode <;> cases hmode
    · rintro _ ⟨⟩
      exact ⟨r, hrecord, rfl, rfl, rfl⟩
  | @verified w fl success target hmode hphase =>
    -- the record says that the run waits, whatever the verifier says
    obtain ⟨r, hrecord, hstatus⟩ := (h.flying fl rfl).waits hmode (by rw [hphase]; rfl)
    refine ⟨fun r' hr' => ?_, ?_⟩
    · obtain rfl : r = r' := Option.some.inj (hrecord.symm.trans hr')
      exact .inl hstatus
    · rintro _ ⟨⟩
      exact ⟨fun _ _ => ⟨r, hrecord, hstatus⟩,
        fun status hrewriting => absurd hrewriting (hsession hmode status)⟩
  | @record w fl status eventId tick hmay =>
    have hf := h.flying fl rfl
    refine ⟨?_, ?_⟩
    · rintro _ ⟨⟩
      obtain ⟨-, hmay⟩ := hmay
      cases hmode : fl.mode with
      | starting | approving =>
        rw [hmode] at hmay
        exact .inl hmay
      | scripted | session =>
        rw [hmode] at hmay
        exact hmay
      | rewriting before =>
        rw [hmode] at hmay
        obtain ⟨r, hr, hstatus, happrovals, hclosures⟩ := (hf.rewrites before hmode).record
        have hagrees : StatusAgrees r.ctx w.trace status := by
          rw [show status = r.status from hmay.trans hstatus.symm]
          exact h.recorded r hr
        exact hagrees.congr happrovals hclosures rfl
    · rintro _ ⟨⟩
      refine ⟨nofun, fun before hrewriting => ⟨recordOf fl.ctx status, rfl, ?_, rfl, rfl⟩⟩
      obtain ⟨-, hmay⟩ := hmay
      rw [show fl.mode = .rewriting before from hrewriting] at hmay
      exact hmay

/-- What a stopped process leaves has the record that was there. -/
theorem halt {o : Op} (hh : Halt o s w') (h : StatusSound s) : StatusSound (w', none) := by
  cases hh <;> exact h.landed rfl rfl

omit [Platform] in
theorem fresh (target : Repo) (env : Env) : StatusSound (World.fresh target env, none) where
  recorded r hr := by cases hr
  flying fl hfl := by cases hfl

end StatusSound

/-- **The status of the record.** In every history, processes stopped at any point included, a run that
is not waiting has no ticket that waits for a decision, is accepted only if its last closure accepts it
and the last run of the verifier succeeded, and is else rejected by its last closure. -/
theorem statusAgrees_of_record {target : Repo} {env : Env} {ss : List Step} {r : RunRecord}
    (h : ((World.fresh target env).steps runId ss).record = some r) :
    StatusAgrees r.ctx ((World.fresh target env).steps runId ss).trace r.status :=
  (World.steps_invariant (StatusSound.fresh target env) (fun _ _ => StatusSound.move)
    fun _ _ _ => StatusSound.halt).recorded r h

end

/-! ### A run that is accepted -/

section

attribute [local instance] scriptedPlatform

set_option maxRecDepth 100000 in
/-- A run without a provider that is accepted in the end. -/
theorem statusAgrees_scripted : ∃ r : RunRecord, r.status = .accepted ∧
    StatusAgrees r.ctx ((World.fresh (smallRepo "x") (scriptedEnv 0)).steps "r" scriptedHistory).trace
      r.status := by
  have h : ((World.fresh (smallRepo "x") (scriptedEnv 0)).steps "r" scriptedHistory).record.map
      (·.status) = some .accepted := by decide +kernel
  obtain ⟨r, hr, hstatus⟩ := Option.map_eq_some_iff.mp h
  exact ⟨r, hstatus, statusAgrees_of_record hr⟩

end

end Ao2
