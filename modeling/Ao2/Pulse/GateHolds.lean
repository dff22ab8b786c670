import Ao2.Interaction.Oracle
import Ao2.Interaction.Stateful
import Ao2.Json.Encoding
import Ao2.Pulse.AutoAdvance

/-!
# The gate in every run

Each clause of the gate only ever turns passed into waiting, so the gate has passed exactly if no
clause objects, whatever the order they come in and however many checks there are. What makes a state
file worse then cannot open the gate. A run asks for a packet that is not local only right after it
has read a state file that passes.

## Main results

* `loadPrCiGate_passed_iff` — the gate of a state file has passed if and only if it passes
* `gateHolds` — the gate holds
-/

namespace Ao2

open Interaction

section

variable [Platform]

/-! ### What the clauses ask for -/

/-- How far a pull request is from being settled: a draft is further than an open one. -/
def prRank (state : Json) : ℕ :=
  match state.get? "pr" with
  | some (.obj members) =>
    if (((Json.obj members).get? "is_draft").bind Json.bool?).getD false then 2
    else if lowerMember (.obj members) "state" = "open" then 1
    else 0
  | _ => 0

/-- The recorded statuses of a gate that waits or has failed. -/
def waitingStatuses : List String := ["waiting", "pending", "failed", "blocked", "open", "draft"]

/-- Whether the recorded status is one of these. -/
def statusRank (state : Json) : ℕ := if lowerMember state "status" ∈ waitingStatuses then 1 else 0

def CheckStatus.rank : CheckStatus → ℕ
  | passed => 0
  | waiting => 1
  | blocked => 2

/-- How far a check is from having passed. -/
def checkRank (check : Json) : ℕ := if check.isObject then (checkStatus check).rank else 3

/-- The list of checks in a state file. -/
def checksIn (state : Json) : Option (List Json) :=
  (state.get? "required_checks").bind Json.arr?

/-- What the clauses ask for together. -/
structure GatePasses (state : Json) : Prop where
  /-- The pull request is neither open nor a draft. -/
  pr : prRank state = 0
  /-- The recorded status is not one of waiting or failure. -/
  status : statusRank state = 0
  /-- There is a list of checks, and each of them is an object that has passed. -/
  checks : ∃ checks, checksIn state = some checks ∧
    ∀ check ∈ checks, check.isObject = true ∧ checkStatus check = .passed

/-- The other state file is at least as bad: its pull request, its status and some check for each
check. -/
structure Worsens (state state' : Json) : Prop where
  pr : prRank state ≤ prRank state'
  status : statusRank state ≤ statusRank state'
  checks : ∀ checks', checksIn state' = some checks' →
    ∃ checks, checksIn state = some checks ∧
      ∀ check ∈ checks, ∃ check' ∈ checks', checkRank check ≤ checkRank check'

theorem checkRank_eq_zero {check : Json} :
    checkRank check = 0 ↔ check.isObject = true ∧ checkStatus check = .passed := by
  unfold checkRank
  by_cases hobject : check.isObject = true
  · rw [if_pos hobject]
    cases hstatus : checkStatus check <;> simp [CheckStatus.rank, hobject]
  · simp [hobject]

theorem GatePasses.of_worsens {state state' : Json} (hworse : Worsens state state')
    (h : GatePasses state') : GatePasses state := by
  obtain ⟨checks', hchecks', hall'⟩ := h.checks
  obtain ⟨checks, hchecks, hall⟩ := hworse.checks checks' hchecks'
  refine ⟨?_, ?_, checks, hchecks, fun check hcheck => ?_⟩
  · exact Nat.le_zero.mp (h.pr ▸ hworse.pr)
  · exact Nat.le_zero.mp (h.status ▸ hworse.status)
  · obtain ⟨check', hcheck', hrank⟩ := hall check hcheck
    rw [checkRank_eq_zero.mpr (hall' check' hcheck')] at hrank
    exact checkRank_eq_zero.mp (Nat.le_zero.mp hrank)

/-! ### One clause after the other -/

namespace PrCiGate

variable (gate : PrCiGate) (state : Json)

theorem judgePr_passed :
    (gate.judgePr state).status = .passed ↔ gate.status = .passed ∧ prRank state = 0 := by
  unfold judgePr prRank
  rcases state.get? "pr" with - | pr
  · simp
  · cases pr with
    | obj members =>
      dsimp only
      split
      · simp [wait]
      · split <;> simp [wait]
    | _ => simp

theorem judgeStatus_passed :
    (gate.judgeStatus state).status = .passed ↔ gate.status = .passed ∧ statusRank state = 0 := by
  unfold judgeStatus statusRank waitingStatuses
  dsimp only
  split <;> simp [waitKeeping, wait]

theorem judgeCheck_passed (check : Json) :
    (gate.judgeCheck check).status = .passed ↔
      gate.status = .passed ∧ check.isObject = true ∧ checkStatus check = .passed := by
  unfold judgeCheck
  by_cases hobject : check.isObject = true
  · by_cases hpassed : checkStatus check = .passed
    · simp [hobject, hpassed]
    · simp [hobject, hpassed, waitKeeping, wait]
  · simp [hobject, wait]

/-- The checks, by induction on their list. -/
theorem foldl_judgeCheck_passed (checks : List Json) :
    (checks.foldl judgeCheck gate).status = .passed ↔
      gate.status = .passed ∧
        ∀ check ∈ checks, check.isObject = true ∧ checkStatus check = .passed := by
  induction checks generalizing gate with
  | nil => simp
  | cons check checks ih =>
    rw [List.foldl_cons, ih, judgeCheck_passed, List.forall_mem_cons, and_assoc]

theorem judgeChecks_passed :
    (gate.judgeChecks state).status = .passed ↔
      gate.status = .passed ∧ ∃ checks, checksIn state = some checks ∧
        ∀ check ∈ checks, check.isObject = true ∧ checkStatus check = .passed := by
  unfold judgeChecks checksIn
  cases (state.get? "required_checks").bind Json.arr? with
  | none => simp [wait]
  | some checks =>
    dsimp only
    rw [foldl_judgeCheck_passed]
    simp

theorem judgeReason_status : (gate.judgeReason state).status = gate.status := by
  unfold judgeReason
  split <;> rfl

end PrCiGate

theorem GatePasses.isObject {state : Json} (h : GatePasses state) : state.isObject = true := by
  obtain ⟨checks, hchecks, -⟩ := h.checks
  cases state with
  | obj members => rfl
  | _ => cases hchecks

variable [JsonText]

/-- **The gate of a state file** has passed exactly if no clause objects. -/
theorem loadPrCiGate_passed_iff (statePath : String) (file : TextFile) (trigger : String)
    (hfile : file ≠ .absent) :
    (loadPrCiGate true statePath file trigger).status = .passed ↔
      ∃ content state, file = .text content ∧ parseJson content = some state ∧ GatePasses state := by
  cases file with
  | absent => exact absurd rfl hfile
  | unreadable e => simp [loadPrCiGate, PrCiGate.wait]
  | text content =>
    cases hparse : parseJson content with
    | none => simp [loadPrCiGate, hparse, PrCiGate.wait]
    | some state =>
      by_cases hobject : state.isObject = true
      · simp only [loadPrCiGate, hparse, hobject, Bool.not_true, Bool.false_eq_true, if_false]
        rw [PrCiGate.judgeReason_status, PrCiGate.judgeChecks_passed, PrCiGate.judgeStatus_passed,
          PrCiGate.judgePr_passed]
        constructor
        · rintro ⟨⟨⟨-, hpr⟩, hstatus⟩, hchecks⟩
          exact ⟨content, state, rfl, hparse, hpr, hstatus, hchecks⟩
        · rintro ⟨_, _, ⟨⟩, hsome, hpasses⟩
          cases hparse.symm.trans hsome
          exact ⟨⟨⟨rfl, hpasses.pr⟩, hpasses.status⟩, hpasses.checks⟩
      · simp only [loadPrCiGate, hparse, hobject, Bool.not_true, Bool.not_false, Bool.false_eq_true,
          if_false, if_true]
        constructor
        · intro hwaiting
          cases hwaiting
        · rintro ⟨_, _, ⟨⟩, hsome, hpasses⟩
          cases hparse.symm.trans hsome
          exact absurd hpasses.isObject hobject

/-! ### What a run asks for -/

-- the commands are fixed texts, which nothing here should split
attribute [local irreducible] splitCommand

variable {f : Oracle AdvanceSig} {o : PulseAutoAdvanceOptions}

omit [Platform] [JsonText] in
/-- What was found where the state file of the gate was read. -/
def gateRead : Event AdvanceSig → Option (String × TextFile)
  | ⟨.readGateState path, file⟩ => some (path, file)
  | _ => none

/-- The gate is disabled, or what was read of it last has passed. -/
def GateOpen (o : PulseAutoAdvanceOptions) (h : List (Event AdvanceSig)) : Prop :=
  o.prCiGate ≠ 1 ∨ ∃ file, lastSome gateRead h = some (o.prCiGateState, file) ∧
    ∀ trigger, (loadPrCiGate true o.prCiGateState file trigger).status = .passed

omit [Platform] [JsonText] in
theorem wp_oracleOp {op : AdvanceOp} {C : AdvanceOp → List (Event AdvanceSig) → Prop}
    {Q : op.Ans → List (Event AdvanceSig) → Prop} {E : String → List (Event AdvanceSig) → Prop}
    {h : List (Event AdvanceSig)} :
    f.machine.wp C (advanceOp op) Q E h ↔ C op h ∧ Q (f h op) (h ++ [⟨op, f h op⟩]) := Iff.rfl

/-- The reason for which the gate is read does not decide about it. -/
theorem loadPrCiGate_trigger (enabled : Bool) (statePath : String) (file : TextFile)
    {trigger trigger' : String} (h : (loadPrCiGate enabled statePath file trigger).status = .passed) :
    (loadPrCiGate enabled statePath file trigger').status = .passed := by
  cases enabled with
  | false => rfl
  | true =>
    by_cases hfile : file = .absent
    · rw [hfile]
      rfl
    · rw [loadPrCiGate_passed_iff _ _ _ hfile] at h ⊢
      exact h

omit [Platform] [JsonText] in
/-- The operation does not ask for a packet that is not local only. -/
def NotFull (op : AdvanceOp) : Prop := op ≠ .runCommand (.generateNext false)

omit [Platform] [JsonText] in
theorem Routine.notFull {op : AdvanceOp} (h : Routine op) : NotFull op := by
  rintro rfl
  exact h

/-- The operation asks for such a packet only where the gate is open. -/
def AskedOpen (o : PulseAutoAdvanceOptions) (op : AdvanceOp) (h : List (Event AdvanceSig)) : Prop :=
  op = .runCommand (.generateNext false) → GateOpen o h

/-- A step that asks for such packets only where the gate is open. -/
def Guarded {α : Type} (f : Oracle AdvanceSig) (o : PulseAutoAdvanceOptions) (m : AdvanceM α) : Prop :=
  ∀ payload h, f.machine.wpS (AskedOpen o) m (fun _ _ _ => True) (fun _ _ => True) payload h

namespace Guarded

theorem of_only {α : Type} {m : AdvanceM α} (hm : OnlyS NotFull m) : Guarded f o m :=
  fun payload h => Machine.wp_mono (Machine.wp_of_only (R := fun _ _ => True) (fun _ => trivial)
    (fun _ _ => trivial) (fun _ _ _ => trivial) (hm payload) h)
    (fun _ _ hop heq => absurd heq hop.1) (fun _ _ _ => trivial) fun _ _ _ => trivial

theorem bind {α β : Type} {m : AdvanceM α} {g : α → AdvanceM β} (hm : Guarded f o m)
    (hg : ∀ a, Guarded f o (g a)) : Guarded f o (m >>= g) := by
  intro payload h
  rw [Machine.wpS_bind]
  exact Machine.wpS_mono (hm payload h) (fun _ _ => id) (fun a payload' h' _ => hg a payload' h')
    fun _ _ => id

theorem ite {α : Type} {c : Prop} [Decidable c] {m n : AdvanceM α} (hm : Guarded f o m)
    (hn : Guarded f o n) : Guarded f o (if c then m else n) := by
  split
  · exact hm
  · exact hn

end Guarded

theorem sleep_guarded (seconds : ℕ) (roundEnd : RoundEnd) :
    Guarded f o (do advanceOp (.sleep seconds); pure roundEnd : AdvanceM RoundEnd) :=
  .of_only (.bind (sleep_only (by simp [NotFull])) fun _ => .pure _)

theorem runGenerateNext_guarded (reason : String) (gate : PrCiGate)
    {h : List (Event AdvanceSig)} (hopen : GateOpen o h) (payload : PulseAutoAdvanceRun) :
    f.machine.wpS (AskedOpen o) (runGenerateNext o reason false gate) (fun _ _ _ => True)
      (fun _ _ => True) payload h := by
  unfold runGenerateNext
  rw [Machine.wpS_bind, Machine.wpS_lift, runCommandStrInDir]
  split
  · trivial
  · refine ⟨fun _ => hopen, Machine.wp_ofExcept (fun exitCode _ => ?_) fun _ _ => trivial⟩
    refine (show Guarded f o _ from .of_only ?_) _ _
    exact .bind (.modify _) fun _ => .bind (writeSummary_only fun _ => Routine.notFull) fun _ => .pure _

/-- **Asking for the next packet.** The state file is read right before. -/
theorem pulseGenerateNext_guarded (reason : String) : Guarded f o (pulseGenerateNext o reason) := by
  unfold pulseGenerateNext
  refine .ite (.of_only (.pure _)) (.bind ?_ fun refreshed => .ite (.of_only (.pure _)) ?_)
  · exact .of_only (refreshPrCiGate_only (fun _ => Routine.notFull) (by simp [NotFull]) _)
  · intro payload h
    rw [Machine.wpS_bind, Machine.wpS_lift, wp_oracleOp]
    refine ⟨fun heq => (by cases heq), ?_⟩
    dsimp only
    rw [Machine.wpS_bind, Machine.wpS_modify]
    split
    · refine (show Guarded f o _ from .of_only (.ite ?_ ?_)) _ _
      · exact runGenerateNext_only (fun _ => Routine.notFull)
          (show NotFull (.runCommand (.generateNext true)) by simp [NotFull]) _ _
      · exact .bind (.modify _) fun _ =>
          .bind (writeSummary_only fun _ => Routine.notFull) fun _ => .pure _
    case isFalse hpassed =>
      refine runGenerateNext_guarded _ _ ?_ _
      by_cases henabled : o.prCiGate = 1
      · refine .inr ⟨_, lastSome_concat .., fun trigger => ?_⟩
        rw [decide_eq_true henabled] at hpassed
        exact loadPrCiGate_trigger _ _ _ (not_not.mp hpassed)
      · exact .inl henabled

/-! ### Rounds -/

theorem duplicateRound_guarded (packet : Packet) (iteration : ℕ) :
    Guarded f o (duplicateRound o packet iteration) := by
  unfold duplicateRound
  refine .ite (.bind (pulseGenerateNext_guarded _) fun generated => .ite (sleep_guarded _ _) ?_)
    (.of_only (.bind (.modify _) fun _ => .pure _))
  refine .bind (.of_only waitsForPr_only) fun waits => .ite (.of_only (.pure _)) ?_
  exact .bind (.of_only (writeHeartbeat_only (fun _ => Routine.notFull) _ _ _))
    fun _ => sleep_guarded _ _

theorem completeIteration_guarded (packet : Packet) (iteration taskCount : ℕ) :
    Guarded f o (completeIteration o packet iteration taskCount) := by
  unfold completeIteration
  refine .bind (.of_only (.modify _)) fun _ => .bind (.of_only (.lift (advanceOp_only (by simp [NotFull]))))
    fun generatedAt => .bind (.of_only (.lift (tryOp_only rfl (by simp [NotFull])))) fun _ => ?_
  refine .bind (.of_only (pulseDirectMainPublish_only (fun _ => Routine.notFull) (by simp [NotFull])))
    fun goesOn => .ite (.of_only (.pure _)) (.ite ?_ (.ite ?_ ?_))
  · exact .of_only (.bind (.modify _) fun _ => .pure _)
  · exact .of_only (.bind (.modify _) fun _ => .pure _)
  · refine .bind (pulseGenerateNext_guarded _) fun generated => .ite (sleep_guarded _ _) ?_
    refine .bind (.of_only waitsForPr_only) fun waits => .ite (.of_only (.pure _)) ?_
    exact .bind (.of_only (.modify _)) fun _ =>
      .bind (.of_only (writeSummary_only fun _ => Routine.notFull)) fun _ => sleep_guarded _ _

theorem executePacket_guarded (packet : Packet) (iteration : ℕ) :
    Guarded f o (executePacket o packet iteration) := by
  unfold executePacket
  refine .bind (.of_only (.lift (readJson_only (fun _ => Routine.notFull) _ _))) fun evalLoop => ?_
  cases recommendedTasks evalLoop with
  | none => exact .of_only (.bind (.modify _) fun _ => .pure _)
  | some tasks =>
    refine .bind (.of_only (.lift (advanceOp_only (by simp [NotFull])))) fun hasManifest =>
      .bind (.of_only (.modify _)) fun _ =>
      .bind (.of_only (writeSummary_only fun _ => Routine.notFull)) fun _ => .bind ?_ fun passed => ?_
    · exact .of_only (executeTasks_only (fun _ => Routine.notFull) (by simp [NotFull]) (by simp [NotFull]) _ _ _)
    · exact .ite (completeIteration_guarded _ _ _) (.of_only (.bind (.modify _) fun _ => .pure _))

theorem advanceRound_guarded (iteration : ℕ) : Guarded f o (advanceRound o iteration) := by
  unfold advanceRound
  refine .bind (.of_only (.lift (advanceOp_only (by simp [NotFull])))) fun stopFile => .ite ?_ ?_
  · exact .of_only (.bind (.modify _) fun _ => .pure _)
  · refine .bind (.of_only (.lift (advanceOp_only (by simp [NotFull])))) fun isFile => .ite (.ite ?_ ?_) ?_
    · exact .bind (.of_only (writeHeartbeat_only (fun _ => Routine.notFull) _ _ _))
        fun _ => sleep_guarded _ _
    · exact .of_only (.bind (.modify _) fun _ => .pure _)
    · refine .bind (.of_only (lookAtPacket_only fun _ => Routine.notFull)) fun looked => ?_
      match looked with
      | .error (.failed reason) => exact .of_only (.bind (.modify _) fun _ => .pure _)
      | .error (.stopped reason) => exact .of_only (.bind (.modify _) fun _ => .pure _)
      | .ok packet =>
        refine .bind (.of_only (.lift (advanceOp_only (by simp [NotFull])))) fun ledger => .ite ?_ ?_
        · exact duplicateRound_guarded packet iteration
        · exact executePacket_guarded packet iteration

/-- The loop, by induction on the rounds. -/
theorem advanceLoop_guarded (rounds iteration : ℕ) : Guarded f o (advanceLoop o rounds iteration) := by
  induction rounds generalizing iteration with
  | zero => exact .of_only (.pure _)
  | succ rounds ih =>
    refine .bind (advanceRound_guarded iteration) fun roundEnd => ?_
    cases roundEnd with
    | again iteration => exact ih iteration
    | ended => exact .of_only (.pure _)

/-- **A run.** -/
theorem runPulseAutoAdvance_guarded (rounds : ℕ) : Guarded f o (runPulseAutoAdvance o rounds) := by
  have hwrites : OnlyS NotFull writeSummary := writeSummary_only fun _ => Routine.notFull
  unfold runPulseAutoAdvance
  refine .bind (.of_only (.lift (tryOp_only rfl (by simp [NotFull])))) fun _ =>
    .bind (.of_only (.lift (advanceOp_only (by simp [NotFull])))) fun stopFile => .ite ?_ ?_
  · exact .of_only (.bind (.modify _) fun _ => .bind hwrites fun _ => .pure _)
  · refine .bind (.of_only (.lift (advanceOp_only (by simp [NotFull])))) fun isFile => .ite ?_ ?_
    · exact .of_only (.bind (.modify _) fun _ => .bind hwrites fun _ => .pure _)
    · refine .bind (advanceLoop_guarded rounds 0) fun ended => .ite ?_ (.of_only (.pure _))
      exact .of_only (.bind hwrites fun _ => .bind .get fun _ => .pure _)

/-- **The gate holds.** Whatever a run is answered, it asks for a packet that is not local only just
where the gate is disabled or what was read of it last has passed; a state file that is there has
passed only if its pull request, its status and all its checks allow it; and making any of these
worse never opens the gate. -/
theorem gateHolds (o : PulseAutoAdvanceOptions) :
    (∀ (f : Oracle AdvanceSig) (rounds : ℕ) (before after : List (Event AdvanceSig))
      (e : Event AdvanceSig),
      (f.machine.run (runPulseAutoAdvance o rounds (.initial o)) []).2 = before ++ e :: after →
      e.op = .runCommand (.generateNext false) → GateOpen o before) ∧
    (∀ (statePath trigger : String) (file : TextFile), file ≠ .absent →
      (loadPrCiGate true statePath file trigger).status = .passed →
      ∃ content state, file = .text content ∧ parseJson content = some state ∧ GatePasses state) ∧
    ∀ (statePath trigger content content' : String) (state state' : Json),
      parseJson content = some state → parseJson content' = some state' → Worsens state state' →
      (loadPrCiGate true statePath (.text content) trigger).status ≠ .passed →
      (loadPrCiGate true statePath (.text content') trigger).status ≠ .passed := by
  refine ⟨?_, ?_, ?_⟩
  · intro f rounds before after e heq hop
    exact Oracle.wp.event (runPulseAutoAdvance_guarded rounds (.initial o) []) heq (Nat.zero_le _) hop
  · intro statePath trigger file hfile hpassed
    exact (loadPrCiGate_passed_iff _ _ _ hfile).mp hpassed
  · intro statePath trigger content content' state state' hstate hstate' hworse hwaiting hpassed
    obtain ⟨_, _, ⟨⟩, hsome, hpasses⟩ := (loadPrCiGate_passed_iff _ _ _ (by simp)).mp hpassed
    cases hstate'.symm.trans hsome
    refine hwaiting ((loadPrCiGate_passed_iff _ _ _ (by simp)).mpr ?_)
    exact ⟨content, state, rfl, hstate, hpasses.of_worsens hworse⟩

end

end Ao2
