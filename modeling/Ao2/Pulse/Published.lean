import Ao2.Json.Encoding
import Ao2.Pulse.Ledger

/-!
# Once executed, once published

A packet is entered in the ledger once its tasks have passed, and is not executed again as long as
the ledger can be read and no entry runs into another. It is published after that, and a publication
that fails is not made up for: the packet is in the ledger.

## Main results

* `executeTasks_spec`, `completeIteration_sound` — the parts of a round
-/

namespace Ao2

open Interaction

theorem publish_command_splits : splitCommand "npm run pulse:direct-main-publish" ≠ [] := by
  decide +kernel

section

variable [Platform] [JsonText] {env : AdvanceEnv} {o : PulseAutoAdvanceOptions}

-- the commands are fixed texts, which nothing here should split
attribute [local irreducible] splitCommand

/-! ### Looking at a packet -/

/-- What is known of a packet that was looked at. -/
def Looked (o : PulseAutoAdvanceOptions) (packet : Packet) (trace : List AdvanceEvent) : Prop :=
  (∃ text, .read o.resumeJson none (.text text) ∈ trace ∧ parseJson text = some packet.resume) ∧
    (textMember packet.resume "pulse_eval_loop_sha256").getD "" = packet.evalLoopSha256 ∧
    ∃ promptPath, PromptMatches trace packet.resume promptPath

omit [JsonText] in
theorem PromptMatches.mono {trace trace' : List AdvanceEvent} {resume : Json} {path : String}
    (h : PromptMatches trace resume path) (hsub : ∀ e ∈ trace, e ∈ trace') :
    PromptMatches trace' resume path := by
  unfold PromptMatches at h ⊢
  split at h
  · exact hsub _ h
  · obtain ⟨file, hfile, hdigest⟩ := h
    exact ⟨file, hsub _ hfile, hdigest⟩

theorem Looked.mono {packet : Packet} {trace trace' : List AdvanceEvent}
    (h : Looked o packet trace) (hsub : ∀ e ∈ trace, e ∈ trace') : Looked o packet trace' := by
  obtain ⟨⟨text, hread, hparse⟩, hdigest, promptPath, hprompt⟩ := h
  exact ⟨⟨text, hsub _ hread, hparse⟩, hdigest, promptPath, hprompt.mono hsub⟩

omit [JsonText] in
theorem wp_advanceOp {op : AdvanceOp} {C : AdvanceOp → AdvanceWorld → Prop}
    {Q : op.Ans → AdvanceWorld → Prop} {E : String → AdvanceWorld → Prop} {w : AdvanceWorld} :
    (advanceMachine env o).wp C (advanceOp op) Q E w ↔
      C op w ∧ Q (w.effect env o op).1 (w.effect env o op).2.count := Iff.rfl

omit [JsonText] in
theorem wp_readToString {path : String} {sha256 : Option String}
    {C : AdvanceOp → AdvanceWorld → Prop} {Q : String → AdvanceWorld → Prop}
    {E : String → AdvanceWorld → Prop} {w : AdvanceWorld} :
    (advanceMachine env o).wp C (tryOp (.readToString path sha256) rfl) Q E w ↔
      C (.readToString path sha256) w ∧
        (advanceMachine env o).wp C (.ofExcept (env.file w.tick path).content) Q E
          (w.observe (.read path sha256 (env.file w.tick path))).count := Iff.rfl

omit [JsonText] in
theorem wp_sha256Path {path : String} {C : AdvanceOp → AdvanceWorld → Prop}
    {Q : String → AdvanceWorld → Prop} {E : String → AdvanceWorld → Prop} {w : AdvanceWorld} :
    (advanceMachine env o).wp C (tryOp (.sha256Path path) rfl) Q E w ↔
      C (.sha256Path path) w ∧
        (advanceMachine env o).wp C (.ofExcept (env.file w.tick path).sha256) Q E
          (w.observe (.digested path (env.file w.tick path))).count := Iff.rfl

omit [Platform] [JsonText] in
theorem mem_observe (e : AdvanceEvent) (w : AdvanceWorld) : e ∈ (w.observe e).count.trace :=
  List.mem_append_right _ (List.mem_singleton.mpr rfl)

omit [JsonText] in
theorem wp_works {α : Type} {p : AdvanceProg α} (h : p.Only LeavesLedger) (w : AdvanceWorld) :
    (advanceMachine env o).wp (fun _ _ => True) p (fun _ w' => Works none w w') (fun _ _ => True) w :=
  Machine.wp_mono (Machine.wp_of_only Works.refl Works.trans (fun _ w h => h.works w) h w)
    (fun _ _ _ => trivial) (fun _ _ => id) fun _ _ _ => trivial

/-- A JSON file that was read. -/
theorem readJson_facts (path : String) (sha256 : Option String) (w : AdvanceWorld) :
    (advanceMachine env o).wp (fun _ _ => True) (readJson path sha256)
      (fun value w' => Works none w w' ∧
        ∃ text, .read path sha256 (.text text) ∈ w'.trace ∧ parseJson text = some value)
      (fun _ _ => True) w := by
  refine wp_leaves_and (readJson_only (fun _ => Routine.leavesLedger) path sha256) ?_
  unfold readJson
  rw [Prog.bind_eq, Machine.wp_bind, wp_readToString]
  refine ⟨trivial, ?_⟩
  cases hfile : env.file w.tick path with
  | absent | unreadable | binary => trivial
  | text content =>
    rw [PacketFile.content, Prog.ofExcept_ok, Machine.wp_done]
    cases hparse : parseJson content with
    | none => trivial
    | some value => exact ⟨content, mem_observe .., hparse⟩

omit [JsonText] in
/-- The prompt that was found is that of the resume file if it has the digest given there. -/
theorem operatorPromptDigest_facts (path : String) (w : AdvanceWorld) :
    (advanceMachine env o).wp (fun _ _ => True) (operatorPromptDigest path)
      (fun prompt w' => Works none w w' ∧ ∀ resume,
        textMember resume "operator_prompt_sha256" = prompt → PromptMatches w'.trace resume path)
      (fun _ _ => True) w := by
  refine wp_leaves_and (operatorPromptDigest_only (fun _ => Routine.leavesLedger) path) ?_
  unfold operatorPromptDigest
  rw [Prog.bind_eq, Machine.wp_bind, wp_advanceOp]
  refine ⟨trivial, ?_⟩
  change (advanceMachine env o).wp _ (if (env.file w.tick path).isFile = true then _ else _) _ _
    (w.observe (.looked path (env.file w.tick path).isFile)).count
  split
  case isFalse hfile =>
    intro resume hnone
    rw [Bool.not_eq_true] at hfile
    unfold PromptMatches
    rw [hnone, hfile]
    exact mem_observe ..
  case isTrue =>
    rw [Prog.bind_eq, Machine.wp_bind, wp_sha256Path]
    refine ⟨trivial, ?_⟩
    cases hdigest : (env.file (w.observe _).count.tick path).sha256 with
    | error e => trivial
    | ok digest =>
      intro resume hsome
      unfold PromptMatches
      rw [hsome]
      exact ⟨_, mem_observe .., hdigest⟩

/-- **A packet that was looked at.** -/
theorem lookAtPacket_facts (payload : PulseAutoAdvanceRun) (w : AdvanceWorld) :
    (advanceMachine env o).wp (fun _ _ => True) (lookAtPacket o payload)
      (fun r w' => Works none w w' ∧ ∀ packet, r.1 = .ok packet → Looked o packet w'.trace)
      (fun _ _ => True) w := by
  refine wp_leaves_and (lookAtPacket_only (fun _ => Routine.leavesLedger) payload) ?_
  change (advanceMachine env o).wpS _ (lookAtPacket o)
    (fun r _ w' => ∀ packet, r = .ok packet → Looked o packet w'.trace) _ payload w
  unfold lookAtPacket
  rw [Machine.wpS_bind, Machine.wpS_lift]
  refine (readJson_facts _ _ w).post ?_
  rintro resume w1 ⟨-, text, hread, hparse⟩
  cases textMember resume "pulse_eval_loop_path" with
  | none => trivial
  | some rel =>
    dsimp only
    rw [Machine.wpS_bind, Machine.wpS_lift]
    refine (wp_works (advanceOp_only (by trivial)) w1).post ?_
    intro isFile w2 hw2
    split
    · intro packet h
      cases h
    · rw [Machine.wpS_bind, Machine.wpS_lift]
      refine (wp_works (tryOp_only rfl (by trivial)) w2).post ?_
      intro sha256 w3 hw3
      rw [Machine.wpS_bind, Machine.wpS_lift]
      refine (operatorPromptDigest_facts _ w3).post ?_
      rintro prompt w4 ⟨hw4, hprompt⟩
      rw [Machine.wpS_bind, Machine.wpS_modify]
      split_ifs with hsha hmatches
      · intro packet h
        cases h
      · intro packet h
        cases h
      · intro packet h
        cases h
      · rw [Machine.wpS_bind, Machine.wpS_lift]
        refine (wp_works (decisionSaysStop_only (fun _ => Routine.leavesLedger) _) w4).post ?_
        intro stop w5 hw5
        split
        · intro packet h
          cases h
        · intro packet h
          cases h
          have hprompt := (hprompt resume (not_not.mp hmatches)).mono fun _ he => hw5.mem he
          exact ⟨⟨text, hw5.mem (hw4.mem (hw3.mem (hw2.mem hread))), hparse⟩,
            (not_not.mp hsha).symm, _, hprompt⟩

/-! ### Executing a packet -/

/-- A process may stop in a command for a packet that is not in the ledger. -/
theorem mayStop_runCommand {command : AdvanceCommand} {w : AdvanceWorld} (hw : Sound none w)
    (hfresh : ∀ digest, command.executes = some digest → Fresh digest w) :
    MayStop o (.runCommand command) w :=
  fun _ => hw.works hfresh (Works.observe (fun _ => id) (fun _ => id) _)

/-- **A command for a packet** that is not in the ledger. -/
theorem runTask_spec {command : AdvanceCommand} {digest : String} {w : AdvanceWorld}
    (hexecutes : command.executes = some digest) (hw : Sound none w) (hfresh : Fresh digest w) :
    (advanceMachine env o).wp (MayStop o) (runCommandStrInDir command)
      (fun exitCode w' => Works (some digest) w w' ∧
        w'.trace = w.trace ++ [.ran command (.ok exitCode)])
      (fun _ w' => Works (some digest) w w') w := by
  have hworks : Works (some digest) w
      (w.observe (.ran command (env.command w.tick command))).count :=
    hexecutes ▸ Works.observe (fun _ => id) (fun _ => id) _
  unfold runCommandStrInDir
  split
  · exact Works.refl w
  · refine ⟨mayStop_runCommand hw fun x hx => ?_, ?_⟩
    · rw [hexecutes] at hx
      exact Option.some.inj hx ▸ hfresh
    · change (advanceMachine env o).wp _ (.ofExcept (env.command w.tick command)) _ _
        (w.observe (.ran command (env.command w.tick command))).count
      generalize env.command w.tick command = result at hworks ⊢
      cases result with
      | error e => exact hworks
      | ok exitCode => exact ⟨hworks, rfl⟩

/-- The runs of some tasks that have all passed, the first with a number. -/
def tasksRun (digest : String) (index : ℕ) (tasks : List Json) : List AdvanceEvent :=
  tasks.mapIdx fun i task => .ran (.task digest (index + i) (taskCommand task)) (.ok 0)

omit [Platform] [JsonText] in
theorem tasksRun_cons (digest : String) (index : ℕ) (task : Json) (tasks : List Json) :
    tasksRun digest index (task :: tasks) =
      .ran (.task digest index (taskCommand task)) (.ok 0) :: tasksRun digest (index + 1) tasks := by
  simp only [tasksRun, List.mapIdx_cons, Nat.add_zero, List.cons.injEq, true_and]
  refine List.mapIdx_eq_mapIdx_iff.mpr fun i _ => ?_
  rw [Nat.add_right_comm, Nat.add_assoc]

/-- **The recommended tasks**, by induction on them: if as many have passed as there are, they were
run one after the other. -/
theorem executeRecommended_spec {digest : String} (iteration : ℕ) (tasks : List Json) (index : ℕ)
    {w : AdvanceWorld} (hw : Sound none w) (hfresh : Fresh digest w) :
    (advanceMachine env o).wp (MayStop o) (executeRecommended digest iteration index tasks)
      (fun results w' => Works (some digest) w w' ∧
        (results.all (·.status = .passed) = true → results.length = tasks.length →
          w'.trace = w.trace ++ tasksRun digest index tasks))
      (fun _ w' => Works (some digest) w w') w := by
  induction tasks generalizing index w with
  | nil => exact ⟨Works.refl w, fun _ _ => (List.append_nil _).symm⟩
  | cons task tasks ih =>
    unfold executeRecommended
    split
    case isTrue => exact ⟨Works.refl w, fun hall => by simp [commandMissing] at hall⟩
    case isFalse =>
      rw [Prog.bind_eq, Machine.wp_bind]
      refine (runTask_spec rfl hw hfresh).post ?_
      rintro exitCode w1 ⟨hw1, htrace⟩
      have hsound : Sound none w1 :=
        hw.works (fun x hx => Option.some.inj hx ▸ hfresh) hw1
      split
      case isTrue hexit =>
        exact ⟨hw1, fun hall => by simp [taskResult, CommandStatus.ofExit, hexit] at hall⟩
      case isFalse hexit =>
        obtain rfl : exitCode = 0 := not_not.mp hexit
        rw [Prog.bind_eq, Machine.wp_bind]
        refine Machine.wp_mono (ih (index + 1) hsound (hfresh.works hw1)) (fun _ _ => id) ?_
          fun _ _ => hw1.trans
        rintro results w2 ⟨hw2, hpassed⟩
        refine ⟨hw1.trans hw2, fun hall hlength => ?_⟩
        have hall : results.all (·.status = .passed) = true := by
          rw [List.all_cons, Bool.and_eq_true] at hall
          exact hall.2
        rw [hpassed hall (Nat.succ.inj hlength), htrace, tasksRun_cons, List.append_assoc]
        rfl

/-- **The tasks of a packet.** -/
theorem executeTasks_spec {packet : Packet} (iteration : ℕ) (tasks : List Json)
    (manifestPath : String) (payload : PulseAutoAdvanceRun) {w : AdvanceWorld} (hw : Sound none w)
    (hfresh : Fresh packet.evalLoopSha256 w) :
    (advanceMachine env o).wpS (MayStop o) (executeTasks packet iteration tasks manifestPath)
      (fun passed _ w' => Works (some packet.evalLoopSha256) w w' ∧
        (passed = true → TasksPassed w'.trace packet.evalLoopSha256 tasks))
      (fun _ w' => Works (some packet.evalLoopSha256) w w') payload w := by
  have hself : ∀ digest, some packet.evalLoopSha256 = some digest → Fresh digest w :=
    fun _ hd => Option.some.inj hd ▸ hfresh
  unfold executeTasks
  rw [Machine.wpS_bind, Machine.wpS_lift]
  refine Machine.wp_mono (wp_leaves (advanceOp_only (by trivial)) hw) (fun _ _ => id) ?_
    fun _ _ h => h.of_none
  intro isFile w1 hw1
  have hsound : Sound none w1 := hw.works hself hw1.of_none
  have hfresh1 : Fresh packet.evalLoopSha256 w1 := hfresh.works hw1
  split
  · rw [Machine.wpS_bind, Machine.wpS_modify, Machine.wpS_bind, Machine.wpS_lift]
    refine Machine.wp_mono (runTask_spec rfl hsound hfresh1) (fun _ _ => id) ?_
      fun _ _ => hw1.of_none.trans
    rintro exitCode w2 ⟨hw2, htrace⟩
    rw [Machine.wpS_bind, Machine.wpS_modify, Machine.wpS_pure]
    refine ⟨hw1.of_none.trans hw2, fun hexit => .inl ⟨manifestPath, ?_⟩⟩
    rw [of_decide_eq_true hexit] at htrace
    rw [htrace]
    exact List.mem_append_right _ (List.mem_singleton.mpr rfl)
  · rw [Machine.wpS_bind, Machine.wpS_modify, Machine.wpS_bind, Machine.wpS_lift]
    refine Machine.wp_mono (executeRecommended_spec iteration tasks 1 hsound hfresh1)
      (fun _ _ => id) ?_ fun _ _ => hw1.of_none.trans
    rintro results w2 ⟨hw2, hpassed⟩
    rw [Machine.wpS_bind, Machine.wpS_modify, Machine.wpS_pure]
    refine ⟨hw1.of_none.trans hw2, fun hall => .inr ?_⟩
    rw [Bool.and_eq_true] at hall
    have htrace := hpassed hall.1 (of_decide_eq_true hall.2)
    refine ⟨w1.trace, [], ?_⟩
    rw [htrace, List.append_nil, tasksRun]
    simp only [Nat.add_comm 1]

/-! ### The ledger, then the publication -/

omit [Platform] [JsonText] in
theorem TextFile.AtLineStart.readable {file : TextFile} (h : file.AtLineStart) : file.Readable := by
  cases file with
  | absent | text => trivial
  | unreadable => exact h.elim

/-- **An append** of a packet whose tasks have passed. What a run that publishes has entered whole is
pending. -/
theorem Sound.append {w : AdvanceWorld} {e : PulseAutoAdvanceLedgerEntry} (hw : Sound none w)
    (hpassed : Fair w.trace → PacketPassed w.trace e.pulseEvalLoopSha256) (written : ℕ)
    (insideChar complete direct : Bool) {pending : Option String}
    (hpending : complete = true → direct = true → pending = some e.pulseEvalLoopSha256) :
    Sound pending (w.append e written insideChar complete direct) := by
  intro hfair
  have hkept : Kept none w := hw hfair.of_append
  have hpassed := hpassed hfair.of_append
  obtain ⟨hlegible, hstart, hcomplete⟩ := hfair _ (List.mem_append_right _ (List.mem_singleton_self _))
  have hseen := loadSeen_append hstart e hlegible
  set event : AdvanceEvent := .appended w.ledger e written complete direct with hevent
  have htrace : (w.append e written insideChar complete direct).trace = w.trace ++ [event] := rfl
  have hledger : (w.append e written insideChar complete direct).ledger =
      if insideChar then .unreadable "stream did not contain valid UTF-8"
      else w.ledger.append (e.line.take written) := rfl
  refine ⟨?_, ?_, ?_, ?_⟩
  · rw [htrace]
    refine List.pairwise_append.mpr ⟨hkept.once, List.pairwise_singleton _ _, ?_⟩
    intro e1 _ e2 he2 digest _ hex
    rw [List.mem_singleton.mp he2] at hex
    exact hex.elim
  · intro digest hd
    rw [hledger] at hd
    rw [htrace]
    cases insideChar with
    | true => cases hd
    | false =>
      rw [if_neg Bool.false_ne_true, hseen] at hd
      rcases List.mem_append.mp hd with hd | hd
      · obtain ⟨before, e1, after, hsplit, hrec, hp⟩ := hkept.passed digest hd
        exact ⟨before, e1, after ++ [event], by rw [hsplit]; simp, hrec, hp⟩
      · split at hd
        case isTrue hlength =>
          obtain rfl := List.mem_singleton.mp hd
          exact ⟨w.trace, event, [], rfl, ⟨rfl, hlength⟩, hpassed⟩
        case isFalse => cases hd
  · intro hread e1 he1 digest hrec
    rw [hledger] at hread ⊢
    rw [htrace] at he1
    cases insideChar with
    | true => exact hread.elim
    | false =>
      rw [if_neg Bool.false_ne_true, hseen, List.mem_append]
      rcases List.mem_append.mp he1 with he1 | he1
      · exact .inl (hkept.seen hstart.readable e1 he1 digest hrec)
      · rw [List.mem_singleton.mp he1] at hrec
        obtain ⟨rfl, hlength⟩ := hrec
        rw [if_pos hlength]
        exact .inr (List.mem_singleton_self _)
  · intro e1 he1 digest hrec
    rw [htrace] at he1 ⊢
    rcases List.mem_append.mp he1 with he1 | he1
    · obtain h | ⟨reason, hran⟩ := hkept.published e1 he1 digest hrec
      · cases h
      · exact .inr ⟨reason, List.mem_append_left _ hran⟩
    · rw [List.mem_singleton.mp he1] at hrec
      obtain ⟨rfl, hlength, hdirect⟩ := hrec
      exact .inl (hpending (hcomplete hdirect hlength) hdirect)

/-- **A publication** of the pending packet. -/
theorem Sound.published {w : AdvanceWorld} {digest reason : String} (hw : Sound (some digest) w)
    (result : Except String ℤ) :
    Sound none (w.observe (.ran (.directMainPublish digest reason) result)).count := by
  set event : AdvanceEvent := .ran (.directMainPublish digest reason) result with hevent
  have hworks : Works none w (w.observe event).count :=
    Works.observe (fun _ => id) (fun _ => id) _
  have hsound : Sound (some digest) (w.observe event).count := hw.quiet hworks
  intro hfair
  obtain ⟨-, hresult⟩ := hfair event (mem_observe ..)
  obtain rfl : result = .ok 0 := hresult rfl
  obtain ⟨honce, hpassed, hseen, hpublished⟩ := hsound hfair
  refine ⟨honce, hpassed, hseen, fun e he x hrec => .inr ?_⟩
  obtain h | h := hpublished e he x hrec
  · rw [← Option.some.inj h]
    exact ⟨reason, mem_observe ..⟩
  · exact h

/-- A program that leaves the ledger alone keeps everything. -/
theorem OnlyS.sound {α : Type} {m : AdvanceM α} (h : OnlyS LeavesLedger m)
    (payload : PulseAutoAdvanceRun) {w : AdvanceWorld} (hw : Sound none w) :
    (advanceMachine env o).wpS (MayStop o) m (fun _ _ w' => Sound none w')
      (fun _ w' => Sound none w') payload w :=
  Machine.wp_mono (wp_leaves (h payload) hw) (fun _ _ => id)
    (fun _ _ h => hw.quiet h) fun _ _ h => hw.quiet h

theorem Sound.count {pending : Option String} {w : AdvanceWorld} (hw : Sound pending w) :
    Sound pending w.count :=
  hw.quiet (Works.count w)

/-- The packet that is pending after an append. -/
def pendingAfter (o : PulseAutoAdvanceOptions) (digest : String) : Option String :=
  if o.directMainPublish then some digest else none

theorem runPublish_sound (digest reason : String) {w : AdvanceWorld}
    (hw : Sound (some digest) w) :
    (advanceMachine env o).wp (MayStop o) (runCommandStrInDir (.directMainPublish digest reason))
      (fun _ w' => Sound none w') (fun _ w' => Sound none w') w := by
  unfold runCommandStrInDir
  rw [AdvanceCommand.text, if_neg publish_command_splits]
  refine ⟨fun stop hfair => ?_, ?_⟩
  · -- an undisturbed process does not stop here
    exact nomatch (hfair _ (List.mem_append_right _ (List.mem_singleton_self _))).2
  · have hsound : Sound none (w.observe (.ran (.directMainPublish digest reason)
        (env.command w.tick (.directMainPublish digest reason)))).count := hw.published _
    change (advanceMachine env o).wp _ (.ofExcept (env.command w.tick (.directMainPublish ..))) _ _
      (w.observe (.ran _ (env.command w.tick (.directMainPublish ..)))).count
    generalize env.command w.tick (.directMainPublish digest reason) = result at hsound ⊢
    cases result <;> exact hsound

theorem pulseDirectMainPublish_sound (digest reason : String) (payload : PulseAutoAdvanceRun)
    {w : AdvanceWorld} (hw : Sound (pendingAfter o digest) w) :
    (advanceMachine env o).wpS (MayStop o) (pulseDirectMainPublish o digest reason)
      (fun _ _ w' => Sound none w') (fun _ w' => Sound none w') payload w := by
  unfold pulseDirectMainPublish
  unfold pendingAfter at hw
  cases hdirect : o.directMainPublish with
  | false =>
    rw [hdirect, if_neg Bool.false_ne_true] at hw
    exact hw
  | true =>
    rw [hdirect, if_pos rfl] at hw
    rw [if_neg (by decide), Machine.wpS_bind, Machine.wpS_lift]
    refine (runPublish_sound digest reason hw).post fun exitCode w1 hw1 => ?_
    refine OnlyS.sound ?_ payload hw1
    refine .bind (.modify _) fun _ => .ite (.bind (.modify _) fun _ => ?_) ?_
    · exact .bind (writeSummary_only fun _ => Routine.leavesLedger) fun _ => .pure _
    · exact .bind (writeSummary_only fun _ => Routine.leavesLedger) fun _ => .pure _

/-- An append of a packet whose tasks have passed: it may fail, and the process may stop in it. -/
theorem appendLedger_sound {e : PulseAutoAdvanceLedgerEntry} {w : AdvanceWorld} (hw : Sound none w)
    (hpassed : Fair w.trace → PacketPassed w.trace e.pulseEvalLoopSha256) :
    (advanceMachine env o).wp (MayStop o) (tryOp (.appendLedger e) rfl)
      (fun _ w' => Sound (pendingAfter o e.pulseEvalLoopSha256) w') (fun _ w' => Sound none w') w := by
  refine ⟨fun stop => ?_, ?_⟩
  · have hcut : Sound none
        (w.append e stop.written stop.insideChar false o.directMainPublish) :=
      hw.append hpassed _ _ _ _ nofun
    exact hcut.quiet
      (Works.observe (fun _ => id) (fun _ hex => by exact False.elim hex) _)
  · change (advanceMachine env o).wp _ (.ofExcept (w.effect env o (.appendLedger e)).1) _ _
      (w.effect env o (.appendLedger e)).2.count
    rw [AdvanceWorld.effect]
    cases env.append w.tick with
    | some fault => exact (hw.append hpassed fault.written fault.insideChar false _ nofun).count
    | none => exact (hw.append hpassed e.line.length false true _ fun _ hdirect => if_pos hdirect).count

/-- **What follows a packet** whose tasks have passed. -/
theorem completeIteration_sound {packet : Packet} (iteration taskCount : ℕ)
    (payload : PulseAutoAdvanceRun) {w : AdvanceWorld} (hw : Sound none w)
    (hpassed : Fair w.trace → PacketPassed w.trace packet.evalLoopSha256) :
    (advanceMachine env o).wpS (MayStop o) (completeIteration o packet iteration taskCount)
      (fun _ _ w' => Sound none w') (fun _ w' => Sound none w') payload w := by
  unfold completeIteration
  rw [Machine.wpS_bind, Machine.wpS_modify, Machine.wpS_bind, Machine.wpS_lift, wp_advanceOp]
  refine ⟨LeavesLedger.mayStop (by trivial) hw, ?_⟩
  rw [Machine.wpS_bind, Machine.wpS_lift]
  refine (appendLedger_sound hw.count ?_).post fun _ w1 hw1 => ?_
  · exact hpassed
  rw [Machine.wpS_bind]
  refine Machine.wpS_mono (pulseDirectMainPublish_sound _ _ _ hw1) (fun _ _ => id) ?_ fun _ _ => id
  intro goesOn payload1 w2 hw2
  refine OnlyS.sound ?_ payload1 hw2
  refine .ite (.pure _) (.ite ?_ (.ite ?_ ?_))
  · exact .bind (.modify _) fun _ => .pure _
  · exact .bind (.modify _) fun _ => .pure _
  · refine .bind (asksForNext_leaves _) fun generated => .ite ?_ ?_
    · exact .bind (sleep_only trivial) fun _ => .pure _
    · refine .bind waitsForPr_only fun waits => .ite (.pure _) (.bind (.modify _) fun _ => ?_)
      exact .bind (writeSummary_only fun _ => Routine.leavesLedger) fun _ => .bind (sleep_only trivial) fun _ => .pure _

/-! ### Rounds and runs -/

/-- A packet of a round that is not in the ledger is executed, and entered if its tasks pass. -/
theorem executePacket_sound {packet : Packet} (iteration : ℕ) (payload : PulseAutoAdvanceRun)
    {w : AdvanceWorld} (hw : Sound none w) (hfresh : Fresh packet.evalLoopSha256 w)
    (hlooked : Looked o packet w.trace) :
    (advanceMachine env o).wpS (MayStop o) (executePacket o packet iteration)
      (fun _ _ w' => Sound none w') (fun _ w' => Sound none w') payload w := by
  unfold executePacket
  rw [Machine.wpS_bind, Machine.wpS_lift]
  refine Machine.wp_mono ((wp_leaves (readJson_only (fun _ => Routine.leavesLedger) _ _) hw).and (readJson_facts _ _ w))
    (fun _ _ => And.left) ?_ fun _ _ h => hw.quiet h.1
  rintro evalLoop w1 ⟨hw1, -, text, hread, hparse⟩
  have hsound : Sound none w1 := hw.quiet hw1
  cases htasks : recommendedTasks evalLoop with
  | none => exact hsound
  | some tasks =>
    dsimp only
    rw [Machine.wpS_bind, Machine.wpS_lift]
    refine Machine.wp_mono (wp_leaves (advanceOp_only (by trivial)) hsound) (fun _ _ => id) ?_
      fun _ _ h => hsound.quiet h
    intro hasManifest w2 hw2
    have hsound2 : Sound none w2 := hsound.quiet hw2
    rw [Machine.wpS_bind, Machine.wpS_modify, Machine.wpS_bind]
    refine Machine.wp_mono (wp_leaves (writeSummary_only (fun _ => Routine.leavesLedger) _) hsound2) (fun _ _ => id) ?_
      fun _ _ h => hsound2.quiet h
    rintro ⟨-, payload3⟩ w3 hw3
    have hsound3 : Sound none w3 := hsound2.quiet hw3
    have hworks : Works none w1 w3 := hw2.trans hw3
    have hfresh3 : Fresh packet.evalLoopSha256 w3 := (hfresh.works hw1).works hworks
    have hself : ∀ digest, some packet.evalLoopSha256 = some digest → Fresh digest w3 :=
      fun _ hd => Option.some.inj hd ▸ hfresh3
    change (advanceMachine env o).wpS _ _ (fun _ _ w' => Sound none w') _ payload3 w3
    rw [Machine.wpS_bind]
    refine Machine.wpS_mono (executeTasks_spec _ tasks _ payload3 hsound3 hfresh3) (fun _ _ => id) ?_
      fun _ _ h => hsound3.works hself h
    rintro passed payload4 w4 ⟨hw4, htasksPassed⟩
    have hsound4 : Sound none w4 := hsound3.works hself hw4
    split
    case isFalse => exact hsound4
    case isTrue hall =>
      refine completeIteration_sound _ _ payload4 hsound4 fun hfair => ?_
      obtain ⟨⟨resumeText, hresume, hresumeParse⟩, hdigest, promptPath, hprompt⟩ := hlooked
      have hmem {e : AdvanceEvent} (he : e ∈ w1.trace) : e ∈ w4.trace := hw4.mem (hworks.mem he)
      have hmem0 {e : AdvanceEvent} (he : e ∈ w.trace) : e ∈ w4.trace := hmem (hw1.mem he)
      exact ⟨_, resumeText, packet.resume, _, text, evalLoop, promptPath, tasks, hmem0 hresume,
        hresumeParse, hdigest, hmem hread, (hfair _ (hmem hread)).2, hparse, htasks,
        hprompt.mono fun _ => hmem0, htasksPassed hall⟩

/-- A packet that was not found in a ledger that could be read is not there. -/
theorem Sound.fresh {w : AdvanceWorld} {found : TextFile} {digest : String} (hw : Sound none w)
    (hread : .ledgerRead found ∈ w.trace) (hfound : found.Readable → found = w.ledger)
    (hseen : digest ∉ loadSeen found) : Fresh digest w := by
  intro hfair e he hrec
  have hreadable : found.Readable := (hfair _ hread).2
  have heq : found = w.ledger := hfound hreadable
  rw [heq] at hreadable hseen
  exact hseen ((hw hfair).seen hreadable e he digest hrec)

/-- **A round** of a run that executes nothing twice. -/
theorem advanceRound_sound (hdup : o.allowDuplicate = false) (iteration : ℕ)
    (payload : PulseAutoAdvanceRun) {w : AdvanceWorld} (hw : Sound none w) :
    (advanceMachine env o).wpS (MayStop o) (advanceRound o iteration)
      (fun _ _ w' => Sound none w') (fun _ w' => Sound none w') payload w := by
  unfold advanceRound
  rw [Machine.wpS_bind, Machine.wpS_lift]
  refine Machine.wp_mono (wp_leaves (advanceOp_only (by trivial)) hw) (fun _ _ => id) ?_
    fun _ _ h => hw.quiet h
  intro stopFile w1 hw1
  have hw1 : Sound none w1 := hw.quiet hw1
  split
  · exact hw1
  · rw [Machine.wpS_bind, Machine.wpS_lift]
    refine Machine.wp_mono (wp_leaves (advanceOp_only (by trivial)) hw1) (fun _ _ => id) ?_
      fun _ _ h => hw1.quiet h
    intro resumeFile w2 hw2
    have hw2 : Sound none w2 := hw1.quiet hw2
    split
    · refine OnlyS.sound (.ite ?_ (.bind (.modify _) fun _ => .pure _)) payload hw2
      exact .bind (writeHeartbeat_only (fun _ => Routine.leavesLedger) _ _ _) fun _ => .bind (sleep_only trivial) fun _ => .pure _
    · rw [Machine.wpS_bind]
      refine Machine.wp_mono ((wp_leaves (lookAtPacket_only (fun _ => Routine.leavesLedger) payload) hw2).and
        (lookAtPacket_facts payload w2)) (fun _ _ => And.left) ?_
        fun _ _ h => hw2.quiet h.1
      rintro ⟨looked, payload3⟩ w3 ⟨hw3, -, hlooked⟩
      have hsound3 : Sound none w3 := hw2.quiet hw3
      cases looked with
      | error e => cases e <;> exact hsound3
      | ok packet =>
        change (advanceMachine env o).wpS _ _ (fun _ _ w' => Sound none w') _ payload3 w3
        rw [Machine.wpS_bind, Machine.wpS_lift, wp_advanceOp]
        refine ⟨LeavesLedger.mayStop (by trivial) hsound3, ?_⟩
        have hfound : (w3.effect env o .readLedger).1.Readable →
            (w3.effect env o .readLedger).1 = w3.ledger := by
          rw [AdvanceWorld.effect]
          cases env.ledgerError w3.tick with
          | some e => exact False.elim
          | none => exact fun _ => rfl
        have hworks : Works none w3 (w3.effect env o .readLedger).2.count :=
          LeavesLedger.works (by trivial) w3
        have hsound4 := hsound3.quiet hworks
        dsimp only
        split
        case isTrue => exact OnlyS.sound (duplicateRound_only packet iteration) payload3 hsound4
        case isFalse hseen =>
          rw [hdup] at hseen
          have hseen : packet.evalLoopSha256 ∉ loadSeen (w3.effect env o .readLedger).1 :=
            fun h => hseen ⟨h, rfl⟩
          refine executePacket_sound iteration payload3 hsound4 ?_ ?_
          · exact hsound4.fresh (mem_observe ..) hfound hseen
          · exact (hlooked packet rfl).mono fun _ => hworks.mem

/-- **The loop**, by induction on the rounds. -/
theorem advanceLoop_sound (hdup : o.allowDuplicate = false) (rounds iteration : ℕ)
    (payload : PulseAutoAdvanceRun) {w : AdvanceWorld} (hw : Sound none w) :
    (advanceMachine env o).wpS (MayStop o) (advanceLoop o rounds iteration)
      (fun _ _ w' => Sound none w') (fun _ w' => Sound none w') payload w := by
  induction rounds generalizing iteration payload w with
  | zero => exact hw
  | succ rounds ih =>
    unfold advanceLoop
    rw [Machine.wpS_bind]
    refine Machine.wpS_mono (advanceRound_sound hdup iteration payload hw) (fun _ _ => id) ?_
      fun _ _ => id
    intro roundEnd payload1 w1 hw1
    cases roundEnd with
    | again iteration => exact ih iteration payload1 hw1
    | ended => exact hw1

/-- A run may lose the ledger when it begins. -/
theorem prepareDirs_sound {w : AdvanceWorld} (hw : Sound none w) :
    (advanceMachine env o).wp (MayStop o) (tryOp .prepareDirs rfl)
      (fun _ w' => Sound none w') (fun _ w' => Sound none w') w := by
  refine ⟨fun stop => ?_, ?_⟩
  · exact hw.quiet
      (Works.observe (fun _ => id) (fun _ hex => by exact False.elim hex) _)
  · have hsound : Sound none (w.effect env o .prepareDirs).2.count := by
      rw [AdvanceWorld.effect]
      cases hlost : env.removesOutDir w.tick && isBelow o.outDir o.ledger with
      | true => exact fun hfair => nomatch (hfair _ (mem_observe ..)).2
      | false =>
        exact hw.quiet
          (Works.observe (fun _ => id) (fun _ hex => by exact False.elim hex) _)
    change (advanceMachine env o).wp _ (.ofExcept (env.createDirs w.tick)) _ _
      (w.effect env o .prepareDirs).2.count
    cases env.createDirs w.tick <;> exact hsound

/-- **A run** that executes nothing twice. -/
theorem runPulseAutoAdvance_sound (hdup : o.allowDuplicate = false) (rounds : ℕ)
    (payload : PulseAutoAdvanceRun) {w : AdvanceWorld} (hw : Sound none w) :
    (advanceMachine env o).wpS (MayStop o) (runPulseAutoAdvance o rounds)
      (fun _ _ w' => Sound none w') (fun _ w' => Sound none w') payload w := by
  unfold runPulseAutoAdvance
  rw [Machine.wpS_bind, Machine.wpS_lift]
  refine (prepareDirs_sound hw).post fun _ w1 hw1 => ?_
  rw [Machine.wpS_bind, Machine.wpS_lift]
  refine Machine.wp_mono (wp_leaves (advanceOp_only (by trivial)) hw1) (fun _ _ => id) ?_
    fun _ _ h => hw1.quiet h
  intro stopFile w2 hw2
  have hw2 : Sound none w2 := hw1.quiet hw2
  split
  · refine OnlyS.sound (.bind (.modify _) fun _ => ?_) payload hw2
    exact .bind (writeSummary_only fun _ => Routine.leavesLedger) fun _ => .pure _
  · rw [Machine.wpS_bind, Machine.wpS_lift]
    refine Machine.wp_mono (wp_leaves (advanceOp_only (by trivial)) hw2) (fun _ _ => id) ?_
      fun _ _ h => hw2.quiet h
    intro resumeFile w3 hw3
    have hw3 : Sound none w3 := hw2.quiet hw3
    split
    · refine OnlyS.sound (.bind (.modify _) fun _ => ?_) payload hw3
      exact .bind (writeSummary_only fun _ => Routine.leavesLedger) fun _ => .pure _
    · rw [Machine.wpS_bind]
      refine Machine.wpS_mono (advanceLoop_sound hdup rounds 0 payload hw3) (fun _ _ => id) ?_
        fun _ _ => id
      intro ended payload4 w4 hw4
      refine OnlyS.sound (.ite (.bind (writeSummary_only fun _ => Routine.leavesLedger) fun _ => ?_) (.pure _)) payload4 hw4
      exact .bind .get fun _ => .pure _

/-- **The world after a run**, whether it came to its end or not. -/
theorem afterRun_sound (r : AutoRun) (hdup : r.options.allowDuplicate = false) {w : AdvanceWorld}
    (hw : Sound none w) : Sound none (w.afterRun env r) := by
  have hspec : (advanceMachine env r.options).wp (MayStop r.options) r.prog
      (fun _ w' => Sound none w') (fun _ w' => Sound none w') w :=
    runPulseAutoAdvance_sound hdup r.rounds (.initial r.options) hw
  have hend : Sound none ((advanceMachine env r.options).run r.prog w).2 := by
    obtain ⟨-, h⟩ | ⟨-, h⟩ := hspec.run_world
    · exact h
    · exact h
  unfold AdvanceWorld.afterRun
  cases r.stop with
  | none => exact hend
  | some stop =>
    dsimp only
    cases hop : (advanceMachine env r.options).nextOp stop.after r.prog w with
    | none => exact hend
    | some op => exact hspec.runFor hop stop

/-- **Once executed, once published**: in every sequence of runs that execute nothing twice, as long
as nothing comes between a packet and the ledger. -/
theorem onceAndPublished_of_undisturbed (env : AdvanceEnv) (rs : List AutoRun)
    (hdup : ∀ r ∈ rs, r.options.allowDuplicate = false)
    (hlegible : ∀ e ∈ (AdvanceWorld.runs env rs).trace, e.Legible)
    (hundisturbed : ∀ e ∈ (AdvanceWorld.runs env rs).trace, e.Undisturbed) :
    OnceAndPublished (AdvanceWorld.runs env rs) := by
  have hsound : ∀ rs : List AutoRun, (∀ r ∈ rs, r.options.allowDuplicate = false) →
      ∀ w, Sound none w → Sound none (rs.foldl (AdvanceWorld.afterRun env) w) := by
    intro rs
    induction rs with
    | nil => exact fun _ _ => id
    | cons r rs ih =>
      intro hdup w hw
      exact ih (fun x hx => hdup x (List.mem_cons_of_mem r hx)) _
        (afterRun_sound r (hdup r List.mem_cons_self) hw)
  have hfresh : Sound none .fresh := by
    intro _
    exact ⟨List.Pairwise.nil, fun _ h => (nomatch h), fun _ _ h => (nomatch h), fun _ h => (nomatch h)⟩
  obtain ⟨honce, hpassed, -, hpublished⟩ :=
    hsound rs hdup .fresh hfresh fun e he => ⟨hlegible e he, hundisturbed e he⟩
  refine ⟨honce, hpassed, fun e he digest hrec => ?_⟩
  obtain h | h := hpublished e he digest hrec
  · cases h
  · exact h

end

/-! ### Small runs -/

def smallEvalLoop : String := "\x7b\"recommended_tasks\":[\x7b\"command\":\"step\"\x7d]\x7d"

def smallResume : String :=
  "\x7b\"auto_advance\":\x7b\"continue_until_exit_gate\":true\x7d,\"pulse_eval_loop_path\":\"loop.json\"," ++
    "\"pulse_eval_loop_sha256\":\"aa\"\x7d"

def smallEntry : PulseAutoAdvanceLedgerEntry where
  generatedAtUtc := "now"
  pulseEvalLoopPath := "loop.json"
  pulseEvalLoopSha256 := "aa"
  taskCount := 1

/-- The digest of the small packet is shorter than the packet. -/
@[reducible] def smallPlatform : Platform :=
  { spellingPlatform with sha256Text := fun text => if text = smallEvalLoop then "aa" else text }

/-- A reading of JSON texts that knows those of the small runs. -/
@[reducible] def smallJsonText : JsonText where
  parseJson text :=
    if text = smallEvalLoop then
      some (.obj [("recommended_tasks", .arr [.obj [("command", .str "step")]])])
    else if text = smallResume then
      some (.obj [("auto_advance", .obj [("continue_until_exit_gate", .bool true)]),
        ("pulse_eval_loop_path", .str "loop.json"), ("pulse_eval_loop_sha256", .str "aa")])
    else if text = .ofList smallEntry.text then
      some (.obj [("generated_at_utc", .str "now"), ("pulse_eval_loop_path", .str "loop.json"),
        ("pulse_eval_loop_sha256", .str "aa"),
        ("schema_version", .str "ao2.pulse-auto-advance-ledger-entry.v1"),
        ("status", .str "passed"), ("task_count", .num 1)])
    else none

/-- A run that publishes, over a packet with one task. -/
def smallAdvance : PulseAutoAdvanceOptions where
  resumeJson := "resume.json"
  outDir := "out"
  ledger := "ledger.jsonl"
  stopFile := "stop"
  maxIterationsOpt := none
  allowDuplicate := false
  forever := false
  sleepSeconds := 1
  generateNext := 0
  generateNextSleepSecondsOpt := none
  prCiGate := 0
  prCiGateState := "gate.json"
  prCiGateUpdate := 0
  localOnlyWhilePrBlocked := false
  directMainPublish := true

/-- Everything goes well, except that the publication may fail. -/
def smallAdvanceEnv (publishExit : ℤ) : AdvanceEnv where
  removesOutDir _ := false
  createDirs _ := .ok ()
  pathExists _ _ := false
  file _ path :=
    if path = "resume.json" then .text smallResume
    else if path = "loop.json" then .text smallEvalLoop else .absent
  gateState _ _ := .absent
  ledgerError _ := none
  now _ := "now"
  command _ c := .ok (if c.publishes then publishExit else 0)
  append _ := none
  summary _ := .ok ()

/-- Some runs over the same packet. -/
def smallRuns (n : ℕ) : List AutoRun := List.replicate n ⟨smallAdvance, 1, none⟩

section

attribute [local instance] smallPlatform smallJsonText

theorem smallRuns_once (n : ℕ) : ∀ r ∈ smallRuns n, r.options.allowDuplicate = false := by
  intro r hr
  rw [List.eq_of_mem_replicate hr]
  rfl

/-- An event that is no append of another entry than the small one. -/
def OfSmallEntry : AdvanceEvent → Bool
  | .appended _ e .. => e = smallEntry
  | _ => true

theorem legible_of_smallEntry {e : AdvanceEvent} (h : OfSmallEntry e = true) : e.Legible := by
  cases e with
  | appended before e written complete direct =>
    obtain rfl : e = smallEntry := of_decide_eq_true h
    have hwhole : lineDigest smallEntry.text = some "aa" := by decide +kernel
    refine ⟨hwhole, fun n hn => ?_⟩
    have hstart := List.take_prefix n smallEntry.text
    have hne {text : String} (htext : ¬ text.toList <+: smallEntry.text) :
        String.ofList (smallEntry.text.take n) ≠ text := by
      rintro rfl
      rw [String.toList_ofList] at htext
      exact htext hstart
    have hnone : parseJson (String.ofList (smallEntry.text.take n)) = none := by
      change (if _ then _ else _) = none
      rw [if_neg (hne (by decide +kernel)), if_neg (hne (by decide +kernel)), if_neg]
      intro hwhole
      exact hn.not_ge ((List.take_eq_self_iff _).mp (String.ofList_injective hwhole))
    unfold lineDigest
    rw [hnone]
    split <;> rfl
  | _ => trivial

/-- Where the publication succeeds, a packet is executed and published once. -/
theorem onceAndPublished_small : OnceAndPublished (.runs (smallAdvanceEnv 0) (smallRuns 1)) := by
  have htrace : (AdvanceWorld.runs (smallAdvanceEnv 0) (smallRuns 1)).trace.all
      (fun e => OfSmallEntry e && decide e.Undisturbed) = true := by decide +kernel
  have hall : ∀ e ∈ (AdvanceWorld.runs (smallAdvanceEnv 0) (smallRuns 1)).trace,
      OfSmallEntry e = true ∧ e.Undisturbed := by
    intro e he
    have := List.all_eq_true.mp htrace e he
    rw [Bool.and_eq_true, decide_eq_true_eq] at this
    exact this
  exact onceAndPublished_of_undisturbed _ _ (smallRuns_once 1)
    (fun e he => legible_of_smallEntry (hall e he).1) fun e he => (hall e he).2

/-- Whether an event is the writing of the whole small entry by a run that publishes, or else a
publication that succeeds. -/
def decisive : AdvanceEvent → Option Bool
  | .appended _ e written _ direct =>
    if e = smallEntry ∧ smallEntry.text.length ≤ written ∧ direct = true then some true else none
  | .ran command (.ok exitCode) => if command.publishes && exitCode = 0 then some false else none
  | _ => none

/-- Where it fails, the packet is in the ledger all the same, and the next run passes it over. -/
theorem not_onceAndPublished : ¬ ∀ env rs, (∀ r ∈ rs, r.options.allowDuplicate = false) →
    OnceAndPublished (.runs env rs) := by
  intro h
  have hkept := h (smallAdvanceEnv 1) (smallRuns 2) (smallRuns_once 2)
  have htrace : (AdvanceWorld.runs (smallAdvanceEnv 1) (smallRuns 2)).trace.filterMap decisive =
      [true] := by decide +kernel
  obtain ⟨e, he, hrec⟩ := List.mem_filterMap.mp (htrace ▸ List.mem_singleton_self true)
  have hdirect : e.RecordsDirect "aa" := by
    unfold decisive at hrec
    split at hrec
    · split at hrec
      case isTrue hwhole =>
        obtain ⟨rfl, hlength, hdirect⟩ := hwhole
        exact ⟨rfl, hlength, hdirect⟩
      case isFalse => cases hrec
    · split at hrec <;> cases hrec
    · cases hrec
  obtain ⟨reason, hran⟩ := hkept.published e he "aa" hdirect
  have hfalse : false ∈ [true] := htrace ▸ List.mem_filterMap.mpr ⟨_, hran, rfl⟩
  cases List.mem_singleton.mp hfalse

end

end Ao2
