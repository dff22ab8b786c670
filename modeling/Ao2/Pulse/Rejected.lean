import Ao2.Interaction.Oracle
import Ao2.Interaction.Stateful
import Ao2.Json.Encoding
import Ao2.Pulse.AutoAdvance

/-!
# What is said of a rejected packet

A run that ends because of its packet writes the reason into the summary and leaves the status as it
is, except where a task has failed. What the status is then, the rounds before have decided: it is
`failed` until the first of them waits, and `waiting` from then on.

## Main results

* `rejected_is_failed_iff` — when a run that ends so says that it failed
-/

namespace Ao2

open Interaction

/-- The reasons for which a packet, or the lack of one, ends a run. -/
def Rejects (reason : String) : Prop :=
  reason ∈ ["eval_loop_hash_mismatch", "operator_prompt_hash_mismatch",
    "auto_advance_continue_until_exit_gate_missing", "recommended_tasks_missing", "task_failed"] ∨
  ∃ path, reason = "resume_json_missing: " ++ path ∨ reason = "eval_loop_path_missing: " ++ path

/-- The reasons are told from all others by their beginning. -/
theorem Rejects.beginning {reason : String} (h : Rejects reason) :
    reason.toList.take 3 ∈ ["eva", "ope", "aut", "rec", "tas", "res"].map String.toList := by
  rcases h with h | ⟨path, rfl | rfl⟩
  · simp only [List.mem_cons, List.not_mem_nil, or_false] at h
    rcases h with rfl | rfl | rfl | rfl | rfl <;> decide
  · rw [String.toList_append, List.take_append_of_le_length (by decide)]
    decide
  · rw [String.toList_append, List.take_append_of_le_length (by decide)]
    decide

theorem append_ne_taskFailed {what : String} (path : String) (hlength : 1 ≤ what.toList.length)
    (hhead : what.toList.take 1 ≠ "task_failed".toList.take 1) : what ++ path ≠ "task_failed" := by
  intro heq
  rw [← heq, String.toList_append, List.take_append_of_le_length hlength] at hhead
  exact hhead rfl

/-- An operation of a run other than waiting. -/
def Wakes : AdvanceOp → Prop
  | .sleep _ => False
  | _ => True

theorem Routine.wakes {op : AdvanceOp} (h : Routine op) : Wakes op := by
  cases op with
  | sleep => exact h.elim
  | _ => trivial

/-- The run has waited. -/
def Slept (h : List (Event AdvanceSig)) : Prop := ∃ e ∈ h, ¬ Wakes e.op

theorem slept_concat {h : List (Event AdvanceSig)} {e : Event AdvanceSig} :
    Slept (h ++ [e]) ↔ Slept h ∨ ¬ Wakes e.op := by
  simp [Slept, or_and_right, exists_or]

/-- The status in a summary that is written. -/
def writtenStatus : Event AdvanceSig → Option AdvanceStatus
  | ⟨.writeSummary payload, _⟩ => some payload.status
  | _ => none

/-! ### Single steps -/

variable {f : Oracle AdvanceSig} {o : PulseAutoAdvanceOptions}

/-- A program that does not wait. -/
theorem wp_wakes {α : Type} {p : AdvanceProg α} (hp : p.Only Wakes) (h : List (Event AdvanceSig)) :
    f.machine.wp (fun _ _ => True) p (fun _ h' => Slept h' ↔ Slept h) (fun _ _ => True) h := by
  refine Machine.wp_mono (Machine.wp_of_only (R := fun h h' => Slept h' ↔ Slept h)
    (fun _ => Iff.rfl) (fun h1 h2 => h2.trans h1) (fun op h' hop => ?_) hp h)
    (fun _ _ _ => trivial) (fun _ _ => id) fun _ _ _ => trivial
  rw [Oracle.machine, slept_concat]
  exact or_iff_left (not_not.mpr hop)

/-- What else is known of it. -/
theorem wpS_wakes {α : Type} {m : AdvanceM α} (hm : OnlyS Wakes m)
    {Q : α → PulseAutoAdvanceRun → Prop} {payload : PulseAutoAdvanceRun}
    {h : List (Event AdvanceSig)}
    (hQ : ∀ h, f.machine.wpS (fun _ _ => True) m (fun a payload' _ => Q a payload')
      (fun _ _ => True) payload h) :
    f.machine.wpS (fun _ _ => True) m (fun a payload' h' => Q a payload' ∧ (Slept h' ↔ Slept h))
      (fun _ _ => True) payload h :=
  Machine.wp_mono ((hQ h).and (wp_wakes (hm payload) h)) (fun _ _ _ => trivial) (fun _ _ => id)
    fun _ _ _ => trivial

/-- Nothing is asked of the way to an error. -/
theorem wp_any {α : Type} (p : AdvanceProg α) (h : List (Event AdvanceSig)) :
    f.machine.wp (fun _ _ => True) p (fun _ _ => True) (fun _ _ => True) h := by
  induction p generalizing h with
  | done a => trivial
  | fail e => trivial
  | ask op k ih => exact ⟨trivial, ih _ _⟩

theorem writeSummary_spec (payload : PulseAutoAdvanceRun) (h : List (Event AdvanceSig)) :
    f.machine.wpS (fun _ _ => True) writeSummary
      (fun _ payload' h' => payload' = payload ∧ lastSome writtenStatus h' = some payload.status ∧
        (Slept h' ↔ Slept h)) (fun _ _ => True) payload h := by
  refine ⟨trivial, ?_⟩
  change f.machine.wp _ ((Prog.ofExcept (f h (.writeSummary payload))).bind _) _ _
    (h ++ [⟨.writeSummary payload, f h (.writeSummary payload)⟩])
  refine Machine.wp_ofExcept_bind (fun _ _ => ⟨rfl, ?_, ?_⟩) fun _ _ => trivial
  · rw [lastSome_concat]
    rfl
  · rw [slept_concat]
    exact or_iff_left (not_not.mpr trivial)

/-- A step that ends with the summary being written. -/
theorem writeSummary_keeps (payload : PulseAutoAdvanceRun) (h : List (Event AdvanceSig)) :
    f.machine.wpS (fun _ _ => True) writeSummary (fun _ payload' _ => payload' = payload)
      (fun _ _ => True) payload h :=
  (writeSummary_spec payload h).post fun _ _ => And.left

section

variable [Platform] [JsonText]

omit [Platform] [JsonText] in
/-- A packet that was generated is waited for. -/
theorem runGenerateNext_status (reason : String) (localOnly : Bool) (gate : PrCiGate)
    (payload : PulseAutoAdvanceRun) (h : List (Event AdvanceSig)) :
    f.machine.wpS (fun _ _ => True) (runGenerateNext o reason localOnly gate)
      (fun generated payload' _ => generated = true → payload'.status = .waiting)
      (fun _ _ => True) payload h := by
  unfold runGenerateNext
  rw [Machine.wpS_bind, Machine.wpS_lift]
  refine (wp_any _ h).post fun exitCode h1 _ => ?_
  rw [Machine.wpS_bind, Machine.wpS_modify, Machine.wpS_bind]
  refine Machine.wpS_mono (writeSummary_keeps _ h1) (fun _ _ => id) ?_ fun _ _ => id
  intro _ payload' _ hpayload hgenerated
  rw [hpayload]
  exact if_pos hgenerated

theorem pulseGenerateNext_status (reason : String) (payload : PulseAutoAdvanceRun)
    (h : List (Event AdvanceSig)) :
    f.machine.wpS (fun _ _ => True) (pulseGenerateNext o reason)
      (fun generated payload' h' => (generated = true → payload'.status = .waiting) ∧
        (Slept h' ↔ Slept h)) (fun _ _ => True) payload h := by
  refine wpS_wakes (pulseGenerateNext_only (fun _ => Routine.wakes) trivial (fun _ => trivial) _)
    fun h => ?_
  unfold pulseGenerateNext
  split
  · intro hfalse
    cases hfalse
  · rw [Machine.wpS_bind]
    refine (wp_any _ h).post fun r h1 _ => ?_
    obtain ⟨refreshed, payload1⟩ := r
    split
    · intro hfalse
      cases hfalse
    · rw [Machine.wpS_bind, Machine.wpS_lift]
      refine (wp_any _ h1).post fun state h2 _ => ?_
      rw [Machine.wpS_bind, Machine.wpS_modify]
      split
      · split
        · exact runGenerateNext_status ..
        · rw [Machine.wpS_bind, Machine.wpS_modify, Machine.wpS_bind]
          refine (wp_any _ h2).post fun r h3 _ hfalse => ?_
          cases hfalse
      · exact runGenerateNext_status ..

omit [Platform] [JsonText] in
/-- Publishing ends a run with a failure, or changes nothing about what is said of it. -/
theorem pulseDirectMainPublish_status (digest reason : String) (payload : PulseAutoAdvanceRun)
    (h : List (Event AdvanceSig)) :
    f.machine.wpS (fun _ _ => True) (pulseDirectMainPublish o digest reason)
      (fun goesOn payload' h' => ((goesOn = true → payload'.reason = payload.reason) ∧
        (goesOn = false → payload'.reason = some "direct_main_publish_failed")) ∧
        (Slept h' ↔ Slept h)) (fun _ _ => True) payload h := by
  refine wpS_wakes (pulseDirectMainPublish_only (fun _ => Routine.wakes) trivial) fun h => ?_
  unfold pulseDirectMainPublish
  split
  · exact ⟨fun _ => rfl, fun hfalse => Bool.noConfusion hfalse⟩
  · rw [Machine.wpS_bind, Machine.wpS_lift]
    refine (wp_any _ h).post fun exitCode h1 _ => ?_
    rw [Machine.wpS_bind, Machine.wpS_modify]
    split
    · rw [Machine.wpS_bind, Machine.wpS_modify, Machine.wpS_bind]
      refine Machine.wpS_mono (writeSummary_keeps _ h1) (fun _ _ => id) ?_ fun _ _ => id
      intro _ payload' _ hpayload
      rw [hpayload]
      exact ⟨fun hfalse => Bool.noConfusion hfalse, fun _ => rfl⟩
    · rw [Machine.wpS_bind]
      refine Machine.wpS_mono (writeSummary_keeps _ h1) (fun _ _ => id) ?_ fun _ _ => id
      intro _ payload' _ hpayload
      rw [hpayload]
      exact ⟨fun _ => rfl, fun hfalse => by cases hfalse⟩

/-- Why a round ends without a packet: for no reason that has to do with its tasks. -/
def BeforeTasks : Except PacketEnd Packet → Prop
  | .error (.failed reason) => reason ≠ "task_failed"
  | .error (.stopped reason) => reason = "readiness_exit_gate_satisfied"
  | .ok _ => True

omit [Platform] in
/-- Looking at a packet leaves the status as it is, also where the packet is rejected. -/
theorem lookAtPacket_status (payload : PulseAutoAdvanceRun) (h : List (Event AdvanceSig)) :
    f.machine.wpS (fun _ _ => True) (lookAtPacket o)
      (fun looked payload' h' => (payload'.status = payload.status ∧ BeforeTasks looked) ∧
        (Slept h' ↔ Slept h)) (fun _ _ => True) payload h := by
  refine wpS_wakes (lookAtPacket_only fun _ => Routine.wakes) fun h => ?_
  unfold lookAtPacket
  rw [Machine.wpS_bind, Machine.wpS_lift]
  refine (wp_any _ h).post fun resume h1 _ => ?_
  cases textMember resume "pulse_eval_loop_path" with
  | none => trivial
  | some rel =>
    dsimp only
    rw [Machine.wpS_bind, Machine.wpS_lift]
    refine (wp_any _ h1).post fun isFile h2 _ => ?_
    split
    · exact ⟨rfl, append_ne_taskFailed _ (by decide) (by decide)⟩
    · rw [Machine.wpS_bind, Machine.wpS_lift]
      refine (wp_any _ h2).post fun sha256 h3 _ => ?_
      rw [Machine.wpS_bind, Machine.wpS_lift]
      refine (wp_any _ h3).post fun prompt h4 _ => ?_
      rw [Machine.wpS_bind, Machine.wpS_modify]
      split
      · exact ⟨rfl, show "eval_loop_hash_mismatch" ≠ "task_failed" by decide⟩
      · split
        · exact ⟨rfl, show "operator_prompt_hash_mismatch" ≠ "task_failed" by decide⟩
        · split
          · exact ⟨rfl, show "auto_advance_continue_until_exit_gate_missing" ≠ "task_failed" by decide⟩
          · rw [Machine.wpS_bind, Machine.wpS_lift]
            refine (wp_any _ h4).post fun stops h5 _ => ?_
            split
            · exact ⟨rfl, rfl⟩
            · exact ⟨rfl, trivial⟩

end

/-! ### Rounds -/

/-- What the rounds so far make of the status. -/
def Standing (payload : PulseAutoAdvanceRun) (h : List (Event AdvanceSig)) : Prop :=
  (¬ Slept h → payload.status = .failed) ∧ (Slept h → payload.status = .waiting)

/-- A run that ends with a rejection says that it failed if a task has failed, or if it has not
waited before. -/
def Ends (payload : PulseAutoAdvanceRun) (h : List (Event AdvanceSig)) : Prop :=
  ∀ reason, payload.reason = some reason → Rejects reason →
    (payload.status = .failed ↔ reason = "task_failed" ∨ ¬ Slept h)

/-- How a round leaves the summary. -/
def Leaves (payload : PulseAutoAdvanceRun) (h : List (Event AdvanceSig)) : RoundEnd → Prop
  | .again _ => payload.status = .waiting ∧ Slept h
  | .ended => Ends payload h

/-- A run that ends for another reason. -/
theorem ends_of_other {payload : PulseAutoAdvanceRun} {h : List (Event AdvanceSig)} {reason : String}
    (hreason : payload.reason = some reason)
    (hother : reason.toList.take 3 ∉ ["eva", "ope", "aut", "rec", "tas", "res"].map String.toList) :
    Ends payload h := by
  intro other heq hrejects
  rw [hreason] at heq
  cases heq
  exact absurd hrejects.beginning hother

/-- A run that ends with a rejection, but for a failed task, leaves the status. -/
theorem ends_of_standing {payload : PulseAutoAdvanceRun} {h : List (Event AdvanceSig)}
    {reason : String} (hreason : payload.reason = some reason) (htask : reason ≠ "task_failed")
    (hstanding : Standing payload h) : Ends payload h := by
  intro other heq _
  rw [hreason] at heq
  cases heq
  constructor
  · intro hfailed
    refine .inr fun hslept => ?_
    rw [hstanding.2 hslept] at hfailed
    cases hfailed
  · rintro (h | h)
    · exact absurd h htask
    · exact hstanding.1 h

theorem ends_of_taskFailed {payload : PulseAutoAdvanceRun} {h : List (Event AdvanceSig)}
    (hstatus : payload.status = .failed) (hreason : payload.reason = some "task_failed") :
    Ends payload h := by
  intro reason heq _
  rw [hreason] at heq
  cases heq
  exact ⟨fun _ => .inl rfl, fun _ => hstatus⟩

theorem Standing.of_slept {payload : PulseAutoAdvanceRun} {h : List (Event AdvanceSig)}
    (hstatus : payload.status = .waiting) (hslept : Slept h) : Standing payload h :=
  ⟨fun hnot => absurd hslept hnot, fun _ => hstatus⟩

theorem Standing.of_eq {payload payload' : PulseAutoAdvanceRun} {h h' : List (Event AdvanceSig)}
    (hstanding : Standing payload h) (hstatus : payload'.status = payload.status)
    (hslept : Slept h' ↔ Slept h) : Standing payload' h' := by
  rw [Standing, hstatus, hslept]
  exact hstanding

/-- A round that waits. -/
theorem sleep_leaves {payload : PulseAutoAdvanceRun} (hstatus : payload.status = .waiting)
    (seconds iteration : ℕ) (h : List (Event AdvanceSig)) :
    f.machine.wpS (fun _ _ => True)
      (do advanceOp (.sleep seconds); pure (.again iteration) : AdvanceM RoundEnd)
      (fun roundEnd payload' h' => Leaves payload' h' roundEnd) (fun _ _ => True) payload h :=
  ⟨trivial, hstatus, slept_concat.mpr (.inr id)⟩

theorem writeHeartbeat_status (reason : String) (resume : Option Json) (digest : Option String)
    (payload : PulseAutoAdvanceRun) (h : List (Event AdvanceSig)) :
    f.machine.wpS (fun _ _ => True) (writeHeartbeat reason resume digest)
      (fun _ payload' _ => payload'.status = .waiting) (fun _ _ => True) payload h := by
  unfold writeHeartbeat
  rw [Machine.wpS_bind, Machine.wpS_modify]
  refine Machine.wpS_mono (writeSummary_keeps _ h) (fun _ _ => id) ?_ fun _ _ => id
  intro _ payload' _ hpayload
  rw [hpayload]

section

variable [Platform] [JsonText]

theorem duplicateRound_leaves (packet : Packet) (iteration : ℕ) (payload : PulseAutoAdvanceRun)
    (h : List (Event AdvanceSig)) :
    f.machine.wpS (fun _ _ => True) (duplicateRound o packet iteration)
      (fun roundEnd payload' h' => Leaves payload' h' roundEnd) (fun _ _ => True) payload h := by
  unfold duplicateRound
  split
  · rw [Machine.wpS_bind]
    refine Machine.wpS_mono (pulseGenerateNext_status _ payload h) (fun _ _ => id) ?_ fun _ _ => id
    rintro generated payload1 h1 ⟨hgenerated, -⟩
    split
    case isTrue hyes => exact sleep_leaves (hgenerated hyes) ..
    case isFalse =>
      unfold waitsForPr
      rw [Machine.wpS_bind, Machine.wpS_bind, Machine.wpS_get, Machine.wpS_pure]
      split
      case isTrue hwaits => exact ends_of_other (of_decide_eq_true hwaits) (by decide)
      case isFalse =>
        rw [Machine.wpS_bind]
        refine Machine.wpS_mono (writeHeartbeat_status _ _ _ payload1 h1) (fun _ _ => id) ?_
          fun _ _ => id
        intro _ payload2 h2 hstatus
        exact sleep_leaves hstatus ..
  · exact ends_of_other rfl (by decide)

/-- What follows the tasks of a packet. -/
theorem completeIteration_leaves (packet : Packet) (iteration taskCount : ℕ)
    {payload : PulseAutoAdvanceRun} (hreason : payload.reason = some "executing_recommended_tasks")
    (h : List (Event AdvanceSig)) :
    f.machine.wpS (fun _ _ => True) (completeIteration o packet iteration taskCount)
      (fun roundEnd payload' h' => Leaves payload' h' roundEnd) (fun _ _ => True) payload h := by
  unfold completeIteration
  rw [Machine.wpS_bind, Machine.wpS_modify, Machine.wpS_bind, Machine.wpS_lift]
  refine (wp_any _ h).post fun generatedAt h1 _ => ?_
  rw [Machine.wpS_bind, Machine.wpS_lift]
  refine (wp_any _ h1).post fun _ h2 _ => ?_
  rw [Machine.wpS_bind]
  refine Machine.wpS_mono (pulseDirectMainPublish_status _ _ _ h2) (fun _ _ => id) ?_ fun _ _ => id
  rintro goesOn payload3 h3 ⟨⟨hgoesOn, hfailed⟩, -⟩
  cases goesOn with
  | false => exact ends_of_other (hfailed rfl) (by decide)
  | true =>
    rw [if_neg (by decide)]
    split
    · exact ends_of_other ((hgoesOn rfl).trans hreason) (by decide)
    · split
      · exact ends_of_other rfl (by decide)
      · rw [Machine.wpS_bind]
        refine Machine.wpS_mono (pulseGenerateNext_status _ payload3 h3) (fun _ _ => id) ?_
          fun _ _ => id
        rintro generated payload4 h4 ⟨hgenerated, -⟩
        split
        case isTrue hyes => exact sleep_leaves (hgenerated hyes) ..
        case isFalse =>
          unfold waitsForPr
          rw [Machine.wpS_bind, Machine.wpS_bind, Machine.wpS_get, Machine.wpS_pure]
          split
          case isTrue hwaits => exact ends_of_other (of_decide_eq_true hwaits) (by decide)
          case isFalse =>
            rw [Machine.wpS_bind, Machine.wpS_modify, Machine.wpS_bind]
            refine Machine.wpS_mono (writeSummary_keeps _ h4) (fun _ _ => id) ?_ fun _ _ => id
            intro _ payload5 h5 hpayload
            rw [hpayload]
            exact sleep_leaves rfl ..

omit [Platform] [JsonText] in
/-- Executing tasks leaves the reason as it is. -/
theorem executeTasks_reason (packet : Packet) (iteration : ℕ) (tasks : List Json)
    (manifestPath : String) (payload : PulseAutoAdvanceRun) (h : List (Event AdvanceSig)) :
    f.machine.wpS (fun _ _ => True) (executeTasks packet iteration tasks manifestPath)
      (fun _ payload' _ => payload'.reason = payload.reason) (fun _ _ => True) payload h := by
  unfold executeTasks
  rw [Machine.wpS_bind, Machine.wpS_lift]
  refine (wp_any _ h).post fun isFile h1 _ => ?_
  split
  · rw [Machine.wpS_bind, Machine.wpS_modify, Machine.wpS_bind, Machine.wpS_lift]
    exact (wp_any _ h1).post fun exitCode h2 _ => rfl
  · rw [Machine.wpS_bind, Machine.wpS_modify, Machine.wpS_bind, Machine.wpS_lift]
    exact (wp_any _ h1).post fun results h2 _ => rfl

theorem executePacket_leaves (packet : Packet) (iteration : ℕ) {payload : PulseAutoAdvanceRun}
    {h : List (Event AdvanceSig)} (hstanding : Standing payload h) :
    f.machine.wpS (fun _ _ => True) (executePacket o packet iteration)
      (fun roundEnd payload' h' => Leaves payload' h' roundEnd) (fun _ _ => True) payload h := by
  unfold executePacket
  rw [Machine.wpS_bind, Machine.wpS_lift]
  refine (wp_wakes (readJson_only (fun _ => Routine.wakes) _ _) h).post fun evalLoop h1 hslept => ?_
  cases recommendedTasks evalLoop with
  | none =>
    exact ends_of_standing rfl (by decide) (hstanding.of_eq rfl hslept)
  | some tasks =>
    dsimp only
    rw [Machine.wpS_bind, Machine.wpS_lift]
    refine (wp_any _ h1).post fun hasManifest h2 _ => ?_
    rw [Machine.wpS_bind, Machine.wpS_modify, Machine.wpS_bind]
    refine Machine.wpS_mono (writeSummary_keeps _ h2) (fun _ _ => id) ?_ fun _ _ => id
    intro _ payload3 h3 hpayload
    have hreason : payload3.reason = some "executing_recommended_tasks" := by
      rw [hpayload]
    rw [Machine.wpS_bind]
    refine Machine.wpS_mono (executeTasks_reason _ _ _ _ payload3 h3) (fun _ _ => id) ?_
      fun _ _ => id
    intro passed payload4 h4 hkeeps
    split
    · exact completeIteration_leaves _ _ _ (hkeeps.trans hreason) h4
    · exact ends_of_taskFailed rfl rfl

/-- **A round.** -/
theorem advanceRound_leaves (iteration : ℕ) {payload : PulseAutoAdvanceRun}
    {h : List (Event AdvanceSig)} (hstanding : Standing payload h) :
    f.machine.wpS (fun _ _ => True) (advanceRound o iteration)
      (fun roundEnd payload' h' => Leaves payload' h' roundEnd) (fun _ _ => True) payload h := by
  unfold advanceRound
  rw [Machine.wpS_bind, Machine.wpS_lift]
  refine (wp_wakes (advanceOp_only (by trivial)) h).post fun stopFile h1 hslept1 => ?_
  split
  · exact ends_of_other rfl (by decide)
  · rw [Machine.wpS_bind, Machine.wpS_lift]
    refine (wp_wakes (advanceOp_only (by trivial)) h1).post fun isFile h2 hslept2 => ?_
    have hstanding2 : Standing payload h2 := hstanding.of_eq rfl (hslept2.trans hslept1)
    split
    · split
      · rw [Machine.wpS_bind]
        refine Machine.wpS_mono (writeHeartbeat_status _ _ _ payload h2) (fun _ _ => id) ?_
          fun _ _ => id
        intro _ payload3 h3 hstatus
        exact sleep_leaves hstatus ..
      · exact ends_of_standing rfl (append_ne_taskFailed _ (by decide) (by decide)) hstanding2
    · rw [Machine.wpS_bind]
      refine Machine.wpS_mono (lookAtPacket_status payload h2) (fun _ _ => id) ?_ fun _ _ => id
      rintro looked payload3 h3 ⟨⟨hstatus, hbefore⟩, hslept3⟩
      have hstanding3 : Standing payload3 h3 := hstanding2.of_eq hstatus hslept3
      match looked, hbefore with
      | .error (.failed reason), hreason => exact ends_of_standing rfl hreason hstanding3
      | .error (.stopped reason), hreason =>
        refine ends_of_other rfl ?_
        rw [hreason]
        decide
      | .ok packet, _ =>
        dsimp only
        rw [Machine.wpS_bind, Machine.wpS_lift]
        refine (wp_wakes (advanceOp_only (by trivial)) h3).post
          fun ledger h4 hslept4 => ?_
        split
        · exact duplicateRound_leaves packet iteration payload3 h4
        · exact executePacket_leaves packet iteration (hstanding3.of_eq rfl hslept4)

/-- **The loop**, by induction on the rounds. -/
theorem advanceLoop_ends (rounds iteration : ℕ) {payload : PulseAutoAdvanceRun}
    {h : List (Event AdvanceSig)} (hstanding : Standing payload h) :
    f.machine.wpS (fun _ _ => True) (advanceLoop o rounds iteration)
      (fun ended payload' h' => ended = true → Ends payload' h') (fun _ _ => True) payload h := by
  induction rounds generalizing iteration payload h with
  | zero =>
    intro hfalse
    cases hfalse
  | succ rounds ih =>
    unfold advanceLoop
    rw [Machine.wpS_bind]
    refine Machine.wpS_mono (advanceRound_leaves iteration hstanding) (fun _ _ => id) ?_
      fun _ _ => id
    intro roundEnd payload1 h1 hleaves
    cases roundEnd with
    | again iteration => exact ih iteration (.of_slept hleaves.1 hleaves.2)
    | ended => exact fun _ => hleaves

/-- What a run that ends has said. -/
theorem runPulseAutoAdvance_ends (rounds : ℕ) :
    f.machine.wpS (fun _ _ => True) (runPulseAutoAdvance o rounds)
      (fun status payload h => ∀ said, status = some said →
        said = payload.status ∧ lastSome writtenStatus h = some payload.status ∧ Ends payload h)
      (fun _ _ => True) (.initial o) [] := by
  unfold runPulseAutoAdvance
  rw [Machine.wpS_bind, Machine.wpS_lift]
  refine (wp_wakes (tryOp_only rfl (by trivial)) []).post fun _ h1 hslept1 => ?_
  rw [Machine.wpS_bind, Machine.wpS_lift]
  refine (wp_wakes (advanceOp_only (by trivial)) h1).post fun stopFile h2 hslept2 => ?_
  have hawake : ¬ Slept h2 := by
    rw [hslept2, hslept1]
    simp [Slept]
  have hstanding : Standing (.initial o) h2 := ⟨fun _ => rfl, fun h => absurd h hawake⟩
  -- the summary is written once more when the run ends
  have hwrites (payload : PulseAutoAdvanceRun) (h : List (Event AdvanceSig))
      (hends : Ends payload h) :
      f.machine.wpS (fun _ _ => True) writeSummary
        (fun _ payload' h' => payload' = payload ∧
          lastSome writtenStatus h' = some payload.status ∧ Ends payload h')
        (fun _ _ => True) payload h := by
    refine Machine.wpS_mono (writeSummary_spec payload h) (fun _ _ => id) ?_ fun _ _ => id
    rintro _ payload' h' ⟨hpayload, hwritten, hslept⟩
    refine ⟨hpayload, hwritten, ?_⟩
    intro reason hreason hrejects
    rw [hslept]
    exact hends reason hreason hrejects
  split
  · rw [Machine.wpS_bind, Machine.wpS_modify, Machine.wpS_bind]
    refine Machine.wpS_mono (hwrites _ h2 (ends_of_other rfl (by decide))) (fun _ _ => id) ?_
      fun _ _ => id
    rintro _ payload' h' ⟨rfl, hwritten, hends⟩ said hsaid
    cases hsaid
    exact ⟨rfl, hwritten, hends⟩
  · rw [Machine.wpS_bind, Machine.wpS_lift]
    refine (wp_wakes (advanceOp_only (by trivial)) h2).post fun isFile h3 hslept3 => ?_
    have hstanding3 : Standing (.initial o) h3 := hstanding.of_eq rfl hslept3
    split
    · rw [Machine.wpS_bind, Machine.wpS_modify, Machine.wpS_bind]
      refine Machine.wpS_mono (hwrites _ h3 (ends_of_standing rfl
        (append_ne_taskFailed _ (by decide) (by decide)) hstanding3)) (fun _ _ => id) ?_ fun _ _ => id
      rintro _ payload' h' ⟨rfl, hwritten, hends⟩ said hsaid
      cases hsaid
      exact ⟨rfl, hwritten, hends⟩
    · rw [Machine.wpS_bind]
      refine Machine.wpS_mono (advanceLoop_ends rounds 0 hstanding3) (fun _ _ => id) ?_ fun _ _ => id
      intro ended payload4 h4 hends
      split
      case isTrue hended =>
        rw [Machine.wpS_bind]
        refine Machine.wpS_mono (hwrites payload4 h4 (hends hended)) (fun _ _ => id) ?_ fun _ _ => id
        rintro _ payload' h' ⟨rfl, hwritten, hends⟩ said hsaid
        cases hsaid
        exact ⟨rfl, hwritten, hends⟩
      case isFalse =>
        intro said hsaid
        cases hsaid

/-- **When a rejected packet is reported as a failure.** Whatever the run is answered, one that ends
with a rejection returns and writes `failed` if a task has failed, or if it ends in its first
round. -/
theorem rejected_is_failed_iff (f : Oracle AdvanceSig) (o : PulseAutoAdvanceOptions) (rounds : ℕ)
    (status : AdvanceStatus) (payload : PulseAutoAdvanceRun) (h : List (Event AdvanceSig))
    (reason : String)
    (hrun : f.machine.run (runPulseAutoAdvance o rounds (.initial o)) [] =
      (.ok (some status, payload), h))
    (hreason : payload.reason = some reason) (hrejects : Rejects reason) :
    (status = .failed ∧ lastSome writtenStatus h = some .failed) ↔
      reason = "task_failed" ∨ ¬ Slept h := by
  have hsaid := (runPulseAutoAdvance_ends (f := f) (o := o) rounds).run
  rw [hrun] at hsaid
  obtain ⟨hstatus, hwritten, hends⟩ := hsaid status rfl
  rw [hwritten, hstatus, ← hends reason hreason hrejects, Option.some.injEq, and_self]

end

/-! ### A packet that comes after a wait -/

/-- The resume file names a packet that is not there. It is itself missing at one moment. -/
def lostPacket (missingAt : ℕ) : Oracle AdvanceSig
  | h, .isFile path => path = "resume.json" ∧ h.length ≠ missingAt
  | _, .pathExists _ => false
  | _, .readToString .. => .ok "resume"
  | _, .sha256Path _ => .ok "bb"
  | _, .readGateState _ => .absent
  | _, .readLedger => .absent
  | _, .utcNow => "now"
  | _, .runCommand _ => .ok 0
  | _, .prepareDirs => .ok ()
  | _, .appendLedger _ => .ok ()
  | _, .writeSummary _ => .ok ()
  | _, .sleep _ => ()

/-- A run that goes on for ever. -/
def endlessAdvance : PulseAutoAdvanceOptions where
  resumeJson := "resume.json"
  outDir := "out"
  ledger := "ledger.jsonl"
  stopFile := "stop"
  maxIterationsOpt := none
  allowDuplicate := false
  forever := true
  sleepSeconds := 1
  generateNext := 1
  generateNextSleepSecondsOpt := none
  prCiGate := 0
  prCiGateState := "gate.json"
  prCiGateUpdate := 0
  localOnlyWhilePrBlocked := false
  directMainPublish := false

/-- A reading of JSON texts that takes each for the same resume file. -/
@[reducible] def resumeJsonText : JsonText where
  parseJson _ := some (.obj [("pulse_eval_loop_path", .str "loop.json")])

section

attribute [local instance] spellingPlatform resumeJsonText

/-- In the first round such a run has failed. -/
theorem lostPacket_first :
    ∃ payload h, (lostPacket 0).machine.run (runPulseAutoAdvance endlessAdvance 2
      (.initial endlessAdvance)) [] = (.ok (some .failed, payload), h) ∧
    ((AdvanceStatus.failed = .failed ∧ lastSome writtenStatus h = some .failed) ↔
      "eval_loop_path_missing: loop.json" = "task_failed" ∨ ¬ Slept h) :=
  ⟨_, _, rfl, rejected_is_failed_iff (lostPacket 0) endlessAdvance 2 .failed _ _ _ rfl rfl
    (.inr ⟨"loop.json", .inr rfl⟩)⟩

/-- After a round that waits it has not: it is still said to wait. -/
theorem lostPacket_after_wait :
    ¬ ∀ (f : Oracle AdvanceSig) (o : PulseAutoAdvanceOptions) (rounds : ℕ) (status : AdvanceStatus)
      (payload : PulseAutoAdvanceRun) (h : List (Event AdvanceSig)) (reason : String),
      f.machine.run (runPulseAutoAdvance o rounds (.initial o)) [] =
        (.ok (some status, payload), h) →
      payload.reason = some reason → Rejects reason →
      status = .failed ∧ lastSome writtenStatus h = some .failed := by
  intro hclaim
  have hfailed := (hclaim (lostPacket 4) endlessAdvance 2 .waiting _ _
    "eval_loop_path_missing: loop.json" rfl rfl (.inr ⟨"loop.json", .inr rfl⟩)).1
  cases hfailed

end

end Ao2
