import Ao2.Run.Commands

/-!
# Quiet steps

Most of what a command does is bookkeeping: it logs events and stores artifacts. `Quiet w w'` says
that nothing else happened between two worlds, `Torn w w'` that the process stopped within such a
stretch, and `Calm` that a working copy has at most listed what was stored. The steps of `Steps`
that do bookkeeping only are shown to be calm here, once, and nothing later looks into them again.

Two steps do a little more: storing an artifact, which lists it, and closing a run, which adds a
verdict.

## Main results

* `QuietCmd.bind`, `CalmStep.bind` — both are closed under sequencing
-/

namespace Ao2

open Interaction

/-! ### Growing logs -/

namespace EventLog

/-- The log with one more event on a closed line. -/
def emit (log : EventLog) (e : AoEvent) : EventLog := (log.append e).breakLine

/-- An event that carries its own digest and is no checkpoint. -/
def Plain [Platform] (e : AoEvent) : Prop := e.DigestOk ∧ e.eventType ≠ checkpointType

/-- Nothing but plain events was added. -/
def Grows [Platform] (log log' : EventLog) : Prop :=
  ∃ es : List AoEvent, (∀ e ∈ es, Plain e) ∧ log' = es.foldl emit log

variable [Platform] {log log' log'' : EventLog}

theorem Grows.refl (log : EventLog) : log.Grows log := ⟨[], by simp, rfl⟩

theorem Grows.trans (h : log.Grows log') (h' : log'.Grows log'') : log.Grows log'' := by
  obtain ⟨es, hes, rfl⟩ := h
  obtain ⟨fs, hfs, rfl⟩ := h'
  refine ⟨es ++ fs, fun e he => ?_, List.foldl_append.symm⟩
  rcases List.mem_append.mp he with he | he
  · exact hes e he
  · exact hfs e he

theorem Grows.emit {e : AoEvent} (h : Plain e) : log.Grows (log.emit e) :=
  ⟨[e], by simpa using h, rfl⟩

end EventLog

/-! ### Numbered paths -/

/-- A path below the directory of the artifact with a number. -/
def Numbered (k : ℕ) (path : String) : Prop :=
  ∃ fileName, path = artifactPath (World.numberedId "art" k) fileName

theorem toList_toString (n : ℕ) : (toString n).toList = Nat.toDigits 10 n := by
  simp [Nat.repr_eq_ofList_toDigits]

theorem toString_injective : Function.Injective (toString : ℕ → String) := by
  intro j k h
  have h : Nat.toDigits 10 j = Nat.toDigits 10 k := by rw [← toList_toString, h, toList_toString]
  have digits (n : ℕ) : Nat.ofDigitChars 10 (Nat.toDigits 10 n) 0 = n :=
    Nat.ofDigitChars_toDigits (by decide) (by decide)
  rw [← digits j, h, digits]

theorem toString_no_slash (n : ℕ) : '/' ∉ (toString n).toList := by
  intro h
  rw [toList_toString] at h
  exact absurd (Nat.isDigit_of_mem_toDigits (by decide) (by decide) h) (by decide)

/-- The number of a path. -/
theorem Numbered.unique {j k : ℕ} {path : String} (hj : Numbered j path) (hk : Numbered k path) :
    j = k := by
  obtain ⟨a, rfl⟩ := hj
  obtain ⟨b, hb⟩ := hk
  have h : (toString j).toList ++ '/' :: a.toList = (toString k).toList ++ '/' :: b.toList := by
    have := congrArg String.toList hb
    simpa [artifactPath, World.numberedId] using this
  have hjk : (toString j).toList = (toString k).toList := by
    have takeDigits (n : ℕ) (rest : List Char) :
        ((toString n).toList ++ '/' :: rest).takeWhile (· ≠ '/') = (toString n).toList := by
      rw [List.takeWhile_append_of_pos fun c hc => by
        simpa using fun hslash : c = '/' => toString_no_slash n (hslash ▸ hc)]
      simp
    rw [← takeDigits j a.toList, h, takeDigits]
  exact toString_injective (String.toList_inj.mp hjk)

theorem evidencePackPath_not_numbered (k : ℕ) : ¬ Numbered k evidencePackPath := by
  rintro ⟨fileName, h⟩
  have := congrArg String.toList h
  simp [artifactPath, evidencePackPath] at this

theorem reportPath_not_numbered (k : ℕ) : ¬ Numbered k reportPath := by
  rintro ⟨fileName, h⟩
  have := congrArg String.toList h
  simp [artifactPath, reportPath] at this

/-! ### Quiet worlds -/

/-- The files that change are those of artifacts with a number from `n` on, the evidence pack and
the report. -/
def FilesGrow (n : ℕ) (files files' : String → Option Content) : Prop :=
  ∀ path, files' path ≠ files path →
    path = evidencePackPath ∨ path = reportPath ∨ ∃ k, n ≤ k ∧ Numbered k path

theorem FilesGrow.refl (n : ℕ) (files : String → Option Content) : FilesGrow n files files :=
  fun _ h => absurd rfl h

theorem FilesGrow.update {n : ℕ} {files files' : String → Option Content} {path : String}
    (h : FilesGrow n files files')
    (hpath : path = evidencePackPath ∨ path = reportPath ∨ ∃ k, n ≤ k ∧ Numbered k path)
    (content : Content) : FilesGrow n files (Function.update files' path content) := by
  intro path' hne
  by_cases hp : path' = path
  · rwa [hp]
  · rw [Function.update_of_ne hp] at hne
    exact h path' hne

variable [Platform]

/-- Only plain events and files of new artifacts were written. -/
def Quiet (w w' : World) : Prop :=
  ∃ log files tick, w' = { w with log := log, files := files, tick := tick } ∧
    w.log.Grows log ∧ FilesGrow w.tick w.files files ∧ w.tick ≤ tick

/-- The process stopped in a quiet stretch: an event may have been left without its line break. -/
def Torn (w : World) (o : Op) (w' : World) : Prop :=
  Quiet w w' ∨ o = .appendLineBreak ∧ ∃ w₁ e, Quiet w w₁ ∧ EventLog.Plain e ∧
    w' = { w₁ with log := w₁.log.append e }.count

namespace Quiet

theorem refl (w : World) : Quiet w w :=
  ⟨w.log, w.files, w.tick, rfl, .refl _, fun _ h => absurd rfl h, le_rfl⟩

theorem trans {w w' w'' : World} (h : Quiet w w') (h' : Quiet w' w'') : Quiet w w'' := by
  obtain ⟨log, files, tick, rfl, hlog, hfiles, htick⟩ := h
  obtain ⟨log', files', tick', rfl, hlog', hfiles', htick'⟩ := h'
  refine ⟨log', files', tick', rfl, hlog.trans hlog', fun path hpath => ?_, htick.trans htick'⟩
  by_cases hp : files path = w.files path
  · rcases hfiles' path (by simpa [hp] using hpath) with h | h | ⟨k, hk, h⟩
    · exact .inl h
    · exact .inr (.inl h)
    · exact .inr (.inr ⟨k, htick.trans hk, h⟩)
  · exact hfiles path hp

theorem torn {w w' : World} {o : Op} (h : Quiet w w') : Torn w o w' := .inl h

/-- An operation that only answers. -/
theorem count (w : World) : Quiet w w.count :=
  ⟨w.log, w.files, _, rfl, .refl _, fun _ h => absurd rfl h, Nat.le_succ _⟩

/-- New files, and some operations counted. -/
theorem of_files (w : World) {files : String → Option Content} (h : FilesGrow w.tick w.files files)
    (n : ℕ) : Quiet w { w with files := files, tick := w.tick + n } :=
  ⟨w.log, files, w.tick + n, rfl, .refl _, h, Nat.le_add_right ..⟩

end Quiet

theorem Torn.trans {w w' w'' : World} {o : Op} (h : Quiet w w') (h' : Torn w' o w'') :
    Torn w o w'' := by
  rcases h' with h' | ⟨rfl, w₁, e, h₁, he, rfl⟩
  · exact .inl (h.trans h')
  · exact .inr ⟨rfl, w₁, e, h.trans h₁, he, rfl⟩

/-! ### Stored artifacts and calm working copies -/

/-- The type of the artifacts whose presence says that a provider has run. -/
def summaryType : String := "provider_transcript_summary"

/-- The file of an artifact is there, with the digest it is listed with. -/
def Stored (w : World) (a : ArtifactRef) : Prop :=
  ∃ k < w.tick, Numbered k a.uri ∧ ∃ content, w.files a.uri = some content ∧
    content.sha256 = a.digest

/-- What is stored stays stored: new artifacts have new numbers. -/
theorem Stored.quiet {w w' : World} {a : ArtifactRef} (h : Stored w a) (hq : Quiet w w') :
    Stored w' a := by
  obtain ⟨log, files, tick, rfl, -, hfiles, htick⟩ := hq
  obtain ⟨k, hk, hnum, content, hcontent, hdigest⟩ := h
  refine ⟨k, hk.trans_le htick, hnum, content, ?_, hdigest⟩
  by_contra hne
  rcases hfiles a.uri (by rw [hcontent]; exact hne) with h | h | ⟨j, hj, h⟩
  · exact evidencePackPath_not_numbered k (h ▸ hnum)
  · exact reportPath_not_numbered k (h ▸ hnum)
  · have := hnum.unique h
    omega

/-- Only bookkeeping happened, and the working copy has at most listed artifacts that are stored,
none of them a transcript summary, and repair attempts. -/
def Calm (ctx : RunContext) (w : World) (ctx' : RunContext) (w' : World) : Prop :=
  Quiet w w' ∧ ∃ artifacts repairAttempts,
    ctx' = { ctx with
      artifacts := ctx.artifacts ++ artifacts
      repairAttempts := repairAttempts } ∧
    ∀ a ∈ artifacts, Stored w' a ∧ a.artifactType ≠ summaryType

namespace Calm

variable {ctx ctx' ctx'' : RunContext} {w w' w'' : World}

theorem quiet (h : Calm ctx w ctx' w') : Quiet w w' := h.1

theorem of_quiet (h : Quiet w w') : Calm ctx w ctx w' := ⟨h, [], ctx.repairAttempts, by simp, by simp⟩

theorem trans (h : Calm ctx w ctx' w') (h' : Calm ctx' w' ctx'' w'') : Calm ctx w ctx'' w'' := by
  obtain ⟨hq, as, rs, rfl, has⟩ := h
  obtain ⟨hq', bs, rs', rfl, hbs⟩ := h'
  refine ⟨hq.trans hq', as ++ bs, rs', by simp, fun a ha => ?_⟩
  rcases List.mem_append.mp ha with ha | ha
  · exact ⟨(has a ha).1.quiet hq', (has a ha).2⟩
  · exact hbs a ha

end Calm

/-! ### Quiet programs -/

/-- The program keeps to bookkeeping, however it ends and wherever it stops. -/
def QuietCmd {α : Type} (p : Cmd α) : Prop :=
  ∀ w, runMachine.wp (Torn w) p (fun _ w' => Quiet w w') (fun _ w' => Quiet w w') w

/-- The step keeps to bookkeeping, however it ends and wherever it stops. -/
def CalmStep {α : Type} (m : RunM α) : Prop :=
  ∀ ctx w, runMachine.wpS (Torn w) m (fun _ ctx' w' => Calm ctx w ctx' w')
    (fun _ w' => Quiet w w') ctx w

section

variable {α β : Type}

theorem QuietCmd.pure (a : α) : QuietCmd (pure a) := fun w => Quiet.refl w

theorem QuietCmd.bail (message : String) : QuietCmd (bail message : Cmd α) := fun w => Quiet.refl w

theorem QuietCmd.orBail (r : Except String α) : QuietCmd (orBail r) := fun w => by
  cases r <;> exact Quiet.refl w

theorem QuietCmd.bind {p : Cmd α} {f : α → Cmd β} (hp : QuietCmd p) (hf : ∀ a, QuietCmd (f a)) :
    QuietCmd (p >>= f) := by
  intro w
  refine Machine.wp_bind.mpr ((hp w).post fun a w' hq => ?_)
  exact Machine.wp_mono (hf a w') (fun _ _ => .trans hq) (fun _ _ => hq.trans) fun _ _ => hq.trans

theorem CalmStep.pure (a : α) : CalmStep (pure a) := fun _ w => .of_quiet (.refl w)

theorem CalmStep.get : CalmStep (get : RunM RunContext) := fun _ w => .of_quiet (.refl w)

theorem QuietCmd.lift {p : Cmd α} (hp : QuietCmd p) : CalmStep (liftM p) := by
  intro ctx w
  exact Machine.wpS_lift.mpr ((hp w).post fun _ _ => .of_quiet)

theorem CalmStep.bind {m : RunM α} {f : α → RunM β} (hm : CalmStep m) (hf : ∀ a, CalmStep (f a)) :
    CalmStep (m >>= f) := by
  intro ctx w
  refine Machine.wpS_bind.mpr (Machine.wpS_mono (hm ctx w) (fun _ _ => id) (fun a ctx' w' h => ?_)
    fun _ _ => id)
  exact Machine.wpS_mono (hf a ctx' w') (fun _ _ => .trans h.quiet) (fun _ _ _ => h.trans)
    fun _ _ => h.quiet.trans

end

/-! ### Operations -/

/-- An operation that answers and leaves everything as it is. -/
theorem QuietCmd.read {o : Op} (h : ∀ w : World, (w.effect o).2 = w) : QuietCmd (op o) := by
  intro w
  rw [wp_op, h w]
  exact ⟨(Quiet.refl w).torn, .count w⟩

theorem QuietCmd.ite {α : Type} {c : Prop} [Decidable c] {p q : Cmd α} (hp : QuietCmd p)
    (hq : QuietCmd q) : QuietCmd (if c then p else q) := by
  split
  · exact hp
  · exact hq

/-! ### Events and artifacts -/

theorem newEvent_plain {ctx : RunContext} {eventId eventType : String}
    {roleId taskId : Option String} {actor : Actor} {payload : Json}
    (h : eventType ≠ checkpointType) :
    EventLog.Plain (newEvent ctx eventId eventType roleId taskId actor payload) := by
  unfold newEvent
  cases ctx.policyDecisions.getLast? with
  | none => exact ⟨AoEvent.new_digestOk .., h⟩
  | some d => exact ⟨AoEvent.withPolicyIntegrity_digestOk .., h⟩

theorem emit_quiet {ctx : RunContext} {eventType : String} {roleId taskId : Option String}
    {actor : Actor} {payload : Json} (h : eventType ≠ checkpointType) :
    QuietCmd (emit ctx eventType roleId taskId actor payload) := by
  intro w
  have hid := Quiet.count w
  have he : EventLog.Plain (newEvent ctx (World.numberedId "evt" w.tick) eventType roleId taskId
      actor payload) := newEvent_plain h
  have hq : ∀ e, EventLog.Plain e →
      Quiet w { { w.count with log := w.log.append e }.count with log := w.log.emit e }.count :=
    fun e he => ⟨w.log.emit e, w.files, w.tick + 3, rfl, .emit he, fun _ h => absurd rfl h,
      Nat.le_add_right ..⟩
  unfold emit
  rw [wp_op_bind, wp_op_bind, wp_op]
  exact ⟨(Quiet.refl w).torn, hid.torn, .inr ⟨rfl, _, _, hid, he, rfl⟩, hq _ he⟩

end Ao2

/-! ## The bookkeeping steps -/

namespace Ao2

open Interaction

/-! ### File names -/

theorem ne_manifestName_of_dash {name : String} (h : '-' ∈ name.toList) : name ≠ manifestName := by
  rintro rfl
  exact absurd h (by decide)

theorem artifactPath_injective {id fileName fileName' : String}
    (h : artifactPath id fileName = artifactPath id fileName') : fileName = fileName' := by
  have := congrArg String.toList h
  simpa [artifactPath, String.toList_inj] using this

variable [Platform]

/-! ### Artifacts -/

/-- The file of an artifact is not overwritten by its manifest. -/
theorem putText_spec {artifactType producer fileName mediaType : String} {content : Content}
    {inputRefs : List String} {E : String → World → Prop} (hfile : fileName ≠ manifestName)
    (w : World) :
    runMachine.wp (Torn w) (putText artifactType producer fileName mediaType content inputRefs)
      (fun a w' => Quiet w w' ∧ Stored w' a ∧ a.artifactType = artifactType ∧
        a.producer = producer ∧
        ∃ k, a.uri = artifactPath (World.numberedId "art" k) fileName) E w := by
  have hnum (name : String) : Numbered w.tick (artifactPath (World.numberedId "art" w.tick) name) :=
    ⟨name, rfl⟩
  have hcontent := (FilesGrow.refl w.tick w.files).update
    (.inr (.inr ⟨_, le_rfl, hnum fileName⟩)) content
  have hmanifest (manifest : Content) := hcontent.update
    (.inr (.inr ⟨_, le_rfl, hnum manifestName⟩)) manifest
  unfold putText
  rw [wp_op_bind, wp_op_bind, wp_op_bind, wp_pure]
  simp only [World.effect]
  refine ⟨(Quiet.refl w).torn, (Quiet.count w).torn, (Quiet.of_files w hcontent 2).torn,
    Quiet.of_files w (hmanifest _) 3, ?_, trivial, trivial, _, rfl⟩
  refine ⟨w.tick, Nat.lt_add_of_pos_right (by decide : 0 < 3), hnum fileName, content, ?_, rfl⟩
  have hne : artifactPath (World.numberedId "art" w.tick) fileName ≠
      artifactPath (World.numberedId "art" w.tick) manifestName :=
    fun h => hfile (artifactPath_injective h)
  exact (Function.update_of_ne hne _ _).trans (Function.update_self ..)

theorem artifactCreated_spec {artifact : ArtifactRef} {ctx : RunContext} {w : World}
    {E : String → World → Prop} (hE : ∀ e w', Quiet w w' → E e w') :
    runMachine.wpS (Torn w) (artifactCreated artifact)
      (fun _ ctx' w' => Quiet w w' ∧ ctx' = { ctx with artifacts := ctx.artifacts ++ [artifact] })
      E ctx w := by
  unfold artifactCreated
  rw [Machine.wpS_bind, Machine.wpS_modify, Machine.wpS_bind, Machine.wpS_get, Machine.wpS_lift]
  exact Machine.wp_mono (emit_quiet (by decide) w) (fun _ _ => id) (fun _ _ hq => ⟨hq, rfl⟩) hE

/-- Store an artifact and list it. -/
theorem storeArtifact_spec {artifactType producer fileName mediaType : String} {content : Content}
    {inputRefs : List String} (hfile : fileName ≠ manifestName) (ctx : RunContext) (w : World) :
    runMachine.wpS (Torn w)
      (storeArtifact artifactType producer fileName mediaType content inputRefs)
      (fun a ctx' w' => Quiet w w' ∧ ctx' = { ctx with artifacts := ctx.artifacts ++ [a] } ∧
        Stored w' a ∧ a.artifactType = artifactType ∧ a.producer = producer ∧
        ∃ k, a.uri = artifactPath (World.numberedId "art" k) fileName)
      (fun _ w' => Quiet w w') ctx w := by
  unfold storeArtifact
  rw [Machine.wpS_bind, Machine.wpS_lift]
  refine (putText_spec hfile w).post fun a w₁ ⟨hq, hstored, htype, hproducer, huri⟩ => ?_
  rw [Machine.wpS_bind]
  refine Machine.wpS_mono (artifactCreated_spec fun _ _ => hq.trans) (fun _ _ => .trans hq)
    (fun _ ctx' w' ⟨hq', hctx⟩ => ?_) fun _ _ => id
  exact ⟨hq.trans hq', hctx, hstored.quiet hq', htype, hproducer, huri⟩

theorem storeArtifact_calm {artifactType producer fileName mediaType : String} {content : Content}
    {inputRefs : List String} (hfile : fileName ≠ manifestName)
    (htype : artifactType ≠ summaryType) :
    CalmStep (storeArtifact artifactType producer fileName mediaType content inputRefs) := by
  intro ctx w
  refine Machine.wpS_mono (storeArtifact_spec hfile ctx w) (fun _ _ => id) ?_ fun _ _ => id
  rintro a _ w' ⟨hq, rfl, hstored, ha, -⟩
  exact ⟨hq, [a], ctx.repairAttempts, rfl, by simpa using ⟨hstored, ha ▸ htype⟩⟩

theorem artifactJsonPayloads_quiet (artifactType : String) (artifacts : List ArtifactRef) :
    QuietCmd (artifactJsonPayloads artifactType artifacts) := by
  induction artifacts with
  | nil => exact .pure _
  | cons artifact artifacts ih =>
    unfold artifactJsonPayloads
    refine .ite (.bind (.read fun _ => rfl) fun content => ?_) ih
    match content with
    | none => exact ih
    | some (.text _) => exact .bail _
    | some (.json _) => exact ih.bind fun _ => .pure _

/-- Log an event for the working copy as it is. -/
theorem emitCurrent_calm {eventType : String} {roleId taskId : Option String}
    {actor : Actor} {payload : Json} (h : eventType ≠ checkpointType) :
    CalmStep (do emit (← get) eventType roleId taskId actor payload) :=
  .bind .get fun _ => (emit_quiet h).lift

/-! ### The verifier's surroundings -/

theorem resolveVerifierCommand_quiet (command : String) :
    QuietCmd (resolveVerifierCommand command) := by
  unfold resolveVerifierCommand
  exact .ite (.bind (.read fun _ => rfl) fun _ => .bind (.read fun _ => rfl) fun _ =>
    .ite (.pure _) (.pure _)) (.pure _)

/-! ### Reviews -/

theorem reviewStep_calm {taskId fileName : String} {body completed : Json}
    {inputRefs : List String} (hfile : fileName ≠ manifestName) :
    CalmStep (reviewStep taskId fileName body inputRefs completed) :=
  .bind .get fun _ => .bind (emit_quiet (by decide)).lift fun _ =>
    .bind (storeArtifact_calm hfile (by decide)) fun _ =>
    .bind .get fun _ => .bind (emit_quiet (by decide)).lift fun _ => .pure _

theorem reviewerAcceptRealProject_calm (verifier : ArtifactRef) :
    CalmStep (reviewerAcceptRealProject verifier) := reviewStep_calm (by decide)

theorem reviewerVerifierFailure_calm (verifier : ArtifactRef) :
    CalmStep (reviewerVerifierFailure verifier) := reviewStep_calm (by decide)

theorem reviewerConcern_calm : CalmStep reviewerConcern := reviewStep_calm (by decide)

/-! ### Closures -/

theorem providerCostSummary_quiet (ctx : RunContext) : QuietCmd (providerCostSummary ctx) :=
  .bind (artifactJsonPayloads_quiet _ _) fun _ => .ite (.pure _) (.pure _)

/-- Closing a run adds a report with the verdict, and nothing but bookkeeping besides. -/
theorem closeRun_spec {verdict : String} {criteria evidenceRefs unresolved : List String}
    {fileName eventType taskId : String} (hfile : fileName ≠ manifestName)
    (hevent : eventType ≠ checkpointType) (ctx : RunContext) (w : World) :
    runMachine.wpS (Torn w) (closeRun verdict criteria evidenceRefs unresolved fileName eventType
        taskId)
      (fun _ ctx' w' => ∃ report : ClosureReport, report.verdict = verdict ∧
        Calm { ctx with closureReports := ctx.closureReports ++ [report] } w ctx' w')
      (fun _ w' => Quiet w w') ctx w := by
  unfold closeRun
  rw [Machine.wpS_bind, Machine.wpS_get, Machine.wpS_bind, Machine.wpS_lift]
  refine (providerCostSummary_quiet ctx w).post fun costSummary w₁ hq₁ => ?_
  rw [Machine.wpS_bind, Machine.wpS_lift, wp_op]
  have hq₂ : Quiet w w₁.count := hq₁.trans (.count _)
  refine ⟨hq₁.torn, ?_⟩
  rw [Machine.wpS_bind, Machine.wpS_modify]
  refine Machine.wpS_mono ((CalmStep.bind (storeArtifact_calm hfile (by decide)) fun _ =>
    emitCurrent_calm hevent) _ _) (fun _ _ => .trans hq₂) (fun _ ctx' w' h => ?_) fun _ _ => hq₂.trans
  exact ⟨_, rfl, (Calm.of_quiet hq₂).trans h⟩

/-! ### Repair attempts -/

theorem recordRepairAttempt_calm (attempt : RepairAttempt) :
    CalmStep (recordRepairAttempt attempt) := by
  have hname : "repair-attempt-" ++ toString attempt.attempt ++ ".json" ≠ manifestName :=
    ne_manifestName_of_dash (by simp [String.toList_append])
  have hpush : CalmStep (modify fun ctx : RunContext =>
      { ctx with repairAttempts := ctx.repairAttempts ++ [attempt] }) :=
    fun ctx w => ⟨.refl w, [], ctx.repairAttempts ++ [attempt], by simp, by simp⟩
  exact hpush.bind fun _ => .bind (storeArtifact_calm hname (by decide)) fun _ => .pure _

theorem recordRepairBudgetExhausted_calm (trigger : String) (review : ArtifactRef) :
    CalmStep (recordRepairBudgetExhausted trigger review) :=
  .bind (QuietCmd.read fun _ => rfl).lift fun _ => .bind (recordRepairAttempt_calm _) fun _ =>
    emitCurrent_calm (by decide)

theorem finishRepairAttempt_calm {attempt : RepairAttempt} {eventType roleId taskId : String}
    (h : eventType ≠ checkpointType) :
    CalmStep (finishRepairAttempt attempt eventType roleId taskId) :=
  .bind (recordRepairAttempt_calm _) fun _ => emitCurrent_calm h

theorem recordRealProjectRepairPrompt_calm (provider : ProviderKind) (originalPrompt : String)
    (attempt : ℕ) (verifier : VerifierOutcome) (review : ArtifactRef) :
    CalmStep (recordRealProjectRepairPrompt provider originalPrompt attempt verifier review) := by
  have hname : "repair-prompt-" ++ toString attempt ++ ".txt" ≠ manifestName :=
    ne_manifestName_of_dash (by simp [String.toList_append])
  exact .bind .get fun _ => .bind (artifactJsonPayloads_quiet _ _).lift fun _ => .bind .get fun _ =>
    .bind (storeArtifact_calm hname (by decide)) fun _ =>
    .bind .get fun _ => .bind (emit_quiet (by decide)).lift fun _ => .pure _

/-! ### Prompts and transcripts -/

theorem recordRepairSourceContext_calm (source : RepairSourceContext) :
    CalmStep (recordRepairSourceContext source) :=
  .bind (storeArtifact_calm (by decide) (by decide)) fun _ => .bind .get fun _ =>
    .bind (emit_quiet (by decide)).lift fun _ => .pure _

theorem providerPrompt_calm (options : ProviderRunOptions) : CalmStep (providerPrompt options) := by
  unfold providerPrompt
  cases options.repairSource with
  | some source => exact .bind (recordRepairSourceContext_calm source) fun _ => .pure _
  | none => exact .pure _

theorem recordScriptedAdapterTranscript_calm : CalmStep recordScriptedAdapterTranscript :=
  .bind (storeArtifact_calm (by decide) (by decide)) fun _ => emitCurrent_calm (by decide)

/-! ### Evidence pack and report -/

theorem putFile_quiet {path : String} (content : Content)
    (h : path = evidencePackPath ∨ path = reportPath) : QuietCmd (op (.putFile path content)) := by
  intro w
  have hfiles : FilesGrow w.tick w.files (Function.update w.files path content) :=
    (FilesGrow.refl _ _).update (h.imp id .inl) content
  rw [wp_op]
  exact ⟨(Quiet.refl w).torn, Quiet.of_files w hfiles 1⟩

theorem exportEvidencePack_quiet (ctx : RunContext) : QuietCmd (exportEvidencePack ctx) :=
  .bind (artifactJsonPayloads_quiet _ _) fun _ => .bind (artifactJsonPayloads_quiet _ _) fun _ =>
    putFile_quiet _ (.inl rfl)

theorem renderStaticReport_quiet (ctx : RunContext) : QuietCmd (renderStaticReport ctx) :=
  putFile_quiet _ (.inr rfl)

/-! ### Refusals and readings -/

theorem previewSandbox_quiet (dir : String) : QuietCmd (previewSandbox dir) := by
  unfold previewSandbox
  refine .bind (.read fun _ => rfl) fun _ => .bind (.read fun _ => rfl) fun sandbox => ?_
  cases sandbox with
  | none => exact .bail _
  | some sandbox => exact .orBail _

theorem failOnForbiddenKeys_quiet (keys : List String) : QuietCmd (failOnForbiddenKeys keys) := by
  induction keys with
  | nil => exact .pure _
  | cons key keys ih =>
    unfold failOnForbiddenKeys
    refine .bind (.read fun _ => rfl) fun value => ?_
    cases value with
    | none => exact ih
    | some _ => exact .bail _

theorem failOnForbiddenProviderApiKeys_quiet : QuietCmd failOnForbiddenProviderApiKeys :=
  failOnForbiddenKeys_quiet _

theorem ensureTargetRepo_quiet : QuietCmd ensureTargetRepo :=
  .bind (.read fun _ => rfl) fun _ => .ite (.pure _) (.bail _)

end Ao2
