import Ao2.Run.Writes

/-!
# Replaying a run

A replay reads a run directory and changes nothing. It parses the event log line by line, computes the
digest of every event and of every listed artifact again, and compares the digests of the control state
in three places: computed from the record, stored in the record, and in the last checkpoint of the log.

What a runtime leaves is replayed without a failure, unless a process stopped between the two halves of a
line of the log, or between a checkpoint and its record. And who edits the record without the log is found
out, as long as the block of digests is in the record.

## Main definitions

* `replayRun` — the replay
* `EventLog.Whole`, `lastCheckpoint` — what it needs of the log
* `EvidenceKept`, `Evident`, `InSync` — what steps keep, and the invariants
* `CleanStops` — no process stops in the middle of a line or of the writing of the record

## Main results

* `evidence_stays` — nothing that was logged or listed is lost
* `replays_steps_iff` — what is replayed, in every history
* `replays_of_cleanStops` — what the runtime leaves is replayed
* `replays_edited_iff` — which edits of the record are replayed
-/

namespace Ao2

open Interaction

/-! ### The replay -/

section

variable [Platform]

/-- What a replay has seen of the log. -/
structure ReplayedLog where
  eventTypes : List String
  digestFailures : List String
  lastIntegrityCheckpoint : Option Json

/-- One more event. -/
def ReplayedLog.see (seen : ReplayedLog) (e : AoEvent) : ReplayedLog where
  eventTypes := seen.eventTypes ++ [e.eventType]
  digestFailures :=
    if AoEvent.canonicalPayloadDigest e.payload e.policyIntegrity ≠ e.payloadDigest then
      seen.digestFailures ++ ["event " ++ e.eventId ++ " payload digest mismatch"]
    else seen.digestFailures
  lastIntegrityCheckpoint :=
    if e.eventType = checkpointType then some e.payload else seen.lastIntegrityCheckpoint

/-- The events of a log from a line on. A line without a text is passed over; one with more than one
text is no JSON value. -/
def replayLines : (number : ℕ) → List (List AoEvent) → ReplayedLog → Except String ReplayedLog
  | _, [], seen => .ok seen
  | number, [] :: lines, seen => replayLines (number + 1) lines seen
  | number, [e] :: lines, seen => replayLines (number + 1) lines (seen.see e)
  | number, (_ :: _ :: _) :: _, _ => .error ("parse event line " ++ toString number)

/-- The artifacts whose files have another digest than they are listed with. -/
def replayArtifacts : List ArtifactRef → Cmd (List String)
  | [] => pure []
  | artifact :: artifacts => do
    match ← op (.readFile artifact.uri) with
    | none => bail ("read artifact " ++ artifact.uri)
    | some content =>
      let failures ← replayArtifacts artifacts
      pure (if content.sha256 ≠ artifact.digest then
        ("artifact " ++ artifact.artifactId ++ " digest mismatch") :: failures else failures)

/-- What the last checkpoint of the log fails of. -/
def checkpointFailures (expected : Json) : Option Json → List String
  | some checkpoint =>
    if checkpoint = expected then [] else ["run record integrity checkpoint mismatch"]
  | none => ["run record integrity checkpoint missing"]

/-- Compare the digests of the control state. A record without the block of digests, as they were
written before there were checkpoints, is left at that. -/
def verifyRunRecordIntegrity (ctx : RunContext) (lastIntegrityCheckpoint : Option Json) :
    Cmd (List String) := do
  match ← op .readRecord with
  | none => bail "read run record"
  | some record =>
    match record.replayIntegrity with
    | none => pure []
    | some recordedIntegrity =>
      let expected := runRecordIntegrity ctx
      pure ((if recordedIntegrity ≠ expected then ["run record integrity mismatch"] else []) ++
        checkpointFailures expected lastIntegrityCheckpoint)

/-- What a replay reports. -/
structure ReplaySummary where
  runId : String
  status : RunStatus
  eventCount : ℕ
  artifactCount : ℕ
  eventTypes : List String
  digestFailures : List String

/-- The texts of the log line by line; the unterminated rest counts as a line. -/
def EventLog.allLines (log : EventLog) : List (List AoEvent) := log.lines ++ [log.tail]

/-- **Replay a run.** A log without a line is a file that is not there. -/
def replayRun (runId : String) : Cmd ReplaySummary := do
  ensureTargetRepo
  let (ctx, status) ← loadRunContext runId
  let log ← op .readEvents
  if log.lines = [] ∧ log.tail = [] then bail "read events"
  else
    let seen ← orBail (replayLines 1 log.allLines ⟨[], [], none⟩)
    let artifactFailures ← replayArtifacts ctx.artifacts
    let recordFailures ← verifyRunRecordIntegrity ctx seen.lastIntegrityCheckpoint
    let digestFailures := seen.digestFailures ++ artifactFailures ++ recordFailures
    if digestFailures ≠ [] then bail ("digest mismatch: " ++ "; ".intercalate digestFailures)
    else
      pure {
        runId := runId
        status := status
        eventCount := seen.eventTypes.length
        artifactCount := ctx.artifacts.length
        eventTypes := seen.eventTypes
        digestFailures := digestFailures }

end

/-! ### What a replay sees of the log -/

/-- The events of a log. -/
def EventLog.events (log : EventLog) : List AoEvent := log.allLines.flatten

/-- Every line of the log has at most one event. -/
def EventLog.Whole (log : EventLog) : Prop := ∀ line ∈ log.allLines, line.length ≤ 1

/-- The payload of the last checkpoint. -/
def lastCheckpoint (es : List AoEvent) : Option Json :=
  (es.filterMap fun e => if e.eventType = checkpointType then some e.payload else none).getLast?

theorem lastCheckpoint_concat (es : List AoEvent) (e : AoEvent) :
    lastCheckpoint (es ++ [e]) =
      if e.eventType = checkpointType then some e.payload else lastCheckpoint es := by
  unfold lastCheckpoint
  rw [List.filterMap_append]
  by_cases h : e.eventType = checkpointType <;> simp [h]

section

variable [Platform]

/-- What is seen of some events. -/
structure Sees (es : List AoEvent) (seen : ReplayedLog) : Prop where
  types : seen.eventTypes = es.map (·.eventType)
  checkpoint : seen.lastIntegrityCheckpoint = lastCheckpoint es
  failures : seen.digestFailures = [] ↔ ∀ e ∈ es, e.DigestOk

theorem Sees.see {es : List AoEvent} {seen : ReplayedLog} (h : Sees es seen) (e : AoEvent) :
    Sees (es ++ [e]) (seen.see e) where
  types := by simp [ReplayedLog.see, h.types]
  checkpoint := by
    rw [lastCheckpoint_concat, ← h.checkpoint]
    rfl
  failures := by
    rw [List.forall_mem_append, List.forall_mem_singleton, ← h.failures]
    rw [AoEvent.DigestOk]
    by_cases he : AoEvent.canonicalPayloadDigest e.payload e.policyIntegrity = e.payloadDigest
    · simp [ReplayedLog.see, he]
    · simp [ReplayedLog.see, he]

/-- The lines of a log are read to the end just when each has at most one event. -/
theorem replayLines_eq_ok {number : ℕ} {lines : List (List AoEvent)} {es : List AoEvent}
    {seen : ReplayedLog} (hseen : Sees es seen) :
    ((∃ seen', replayLines number lines seen = .ok seen') ↔ ∀ line ∈ lines, line.length ≤ 1) ∧
      ∀ seen', replayLines number lines seen = .ok seen' → Sees (es ++ lines.flatten) seen' := by
  induction lines generalizing number es seen with
  | nil =>
    refine ⟨⟨fun _ _ h => absurd h List.not_mem_nil, fun _ => ⟨seen, rfl⟩⟩, ?_⟩
    rintro _ ⟨⟩
    simpa using hseen
  | cons line lines ih =>
    rw [List.forall_mem_cons]
    match line with
    | [] =>
      obtain ⟨hiff, hsees⟩ := @ih (number + 1) es seen hseen
      exact ⟨hiff.trans (by simp), by simpa [replayLines] using hsees⟩
    | [e] =>
      obtain ⟨hiff, hsees⟩ := @ih (number + 1) _ _ (hseen.see e)
      refine ⟨hiff.trans (by simp), fun seen' h => ?_⟩
      have := hsees seen' h
      rwa [List.append_assoc] at this
    | _ :: _ :: _ => exact ⟨⟨fun ⟨_, h⟩ => by simp [replayLines] at h, fun h => by simp at h⟩,
        fun _ h => by simp [replayLines] at h⟩

/-! ### What is replayed -/

/-- The file of an artifact has the digest it is listed with. -/
def Unchanged (w : World) (a : ArtifactRef) : Prop :=
  ∃ content, w.files a.uri = some content ∧ content.sha256 = a.digest

/-- A run directory that is replayed without a failure. -/
structure Replayable (runId : String) (w : World) (r : RunRecord) : Prop where
  logged : ¬ (w.log.lines = [] ∧ w.log.tail = [])
  whole : w.log.Whole
  digests : ∀ e ∈ w.log.events, e.DigestOk
  artifacts : ∀ a ∈ r.ctx.artifacts, Unchanged w a
  integrity : r.replayIntegrity = none ∨
    r.replayIntegrity = some (runRecordIntegrity (r.load runId)) ∧
      lastCheckpoint w.log.events = some (runRecordIntegrity (r.load runId))

/-- The world with so many more operations performed. -/
def World.later (w : World) (n : ℕ) : World := { w with tick := w.tick + n }

theorem replayArtifacts_spec {as : List ArtifactRef} {w : World} :
    runMachine.wp (fun _ _ => True) (replayArtifacts as)
      (fun failures w' => (failures = [] ↔ ∀ a ∈ as, Unchanged w a) ∧ ∃ n, w' = w.later n)
      (fun _ _ => ¬ ∀ a ∈ as, Unchanged w a) w := by
  induction as generalizing w with
  | nil => exact ⟨⟨fun _ _ h => absurd h List.not_mem_nil, fun _ => rfl⟩, 0, rfl⟩
  | cons a as ih =>
    rw [List.forall_mem_cons]
    rw [replayArtifacts, wp_op_bind]
    refine ⟨trivial, ?_⟩
    cases hfile : w.files a.uri with
    | none =>
      simp only [World.effect, hfile]
      rintro ⟨⟨content, hcontent, -⟩, -⟩
      cases hfile.symm.trans hcontent
    | some content =>
      simp only [World.effect, hfile]
      have hthis : Unchanged w a ↔ content.sha256 = a.digest := by
        constructor
        · rintro ⟨content', hcontent, hdigest⟩
          cases hfile.symm.trans hcontent
          exact hdigest
        · exact fun hdigest => ⟨content, hfile, hdigest⟩
      refine Machine.wp_bind.mpr (Machine.wp_mono ih (fun _ _ => id) ?_ fun _ _ hnot h => hnot h.2)
      rintro failures _ ⟨hfailures, n, rfl⟩
      refine ⟨?_, n + 1, by simp [World.later, World.count]; omega⟩
      rw [hthis]
      split_ifs with hdigest
      · exact ⟨False.elim, fun h => absurd h.1 hdigest⟩
      · exact hfailures.trans ⟨fun h => ⟨not_not.mp hdigest, h⟩, And.right⟩

section

variable {runId : String} {w : World} {r : RunRecord} {E : String → World → Prop}

omit [Platform] in
theorem ensureTargetRepo_spec (h : w.target.present = true) :
    runMachine.wp (fun _ _ => True) ensureTargetRepo (fun _ w' => w' = w.later 1) E w := by
  refine ⟨trivial, ?_⟩
  change runMachine.wp _ (if w.target.present then pure () else bail _) _ _ w.count
  rw [if_pos h]
  rfl

omit [Platform] in
theorem loadRunContext_spec (h : w.record = some r) :
    runMachine.wp (fun _ _ => True) (loadRunContext runId)
      (fun loaded w' => loaded = (r.load runId, r.status) ∧ w' = w.later 1) E w := by
  unfold loadRunContext
  rw [wp_op_bind]
  simp only [World.effect, h]
  exact ⟨trivial, rfl, rfl⟩

/-- The digests of the control state are the ones that are computed, or not looked at. -/
theorem verifyRunRecordIntegrity_spec (h : w.record = some r) (checkpoint : Option Json) :
    runMachine.wp (fun _ _ => True) (verifyRunRecordIntegrity (r.load runId) checkpoint)
      (fun failures _ => failures = [] ↔ r.replayIntegrity = none ∨
        r.replayIntegrity = some (runRecordIntegrity (r.load runId)) ∧
          checkpoint = some (runRecordIntegrity (r.load runId))) E w := by
  unfold verifyRunRecordIntegrity
  rw [wp_op_bind]
  simp only [World.effect, h]
  refine ⟨trivial, ?_⟩
  cases hintegrity : r.replayIntegrity with
  | none => exact ⟨fun _ => .inl rfl, fun _ => rfl⟩
  | some recorded =>
    change _ ++ _ = [] ↔ _
    have hcheckpoint (expected : Json) : checkpointFailures expected checkpoint = [] ↔
        checkpoint = some expected := by
      cases checkpoint with
      | none =>
        exact ⟨fun h => absurd h (List.cons_ne_nil _ _), fun h => absurd h.symm (Option.some_ne_none _)⟩
      | some value => simp [checkpointFailures]
    rw [List.append_eq_nil_iff, hcheckpoint]
    simp

/-- **What is replayed.** -/
theorem replayRun_spec (hpresent : w.target.present = true) (hrecord : w.record = some r) :
    runMachine.wp (fun _ _ => True) (replayRun runId)
      (fun summary _ => Replayable runId w r ∧ summary.status = r.status ∧
        summary.eventTypes = w.log.events.map (·.eventType) ∧ summary.digestFailures = [])
      (fun _ _ => ¬ Replayable runId w r) w := by
  refine Machine.wp_bind.mpr ((ensureTargetRepo_spec hpresent).post ?_)
  rintro _ _ rfl
  refine Machine.wp_bind.mpr ((loadRunContext_spec (w := w.later 1) hrecord).post ?_)
  rintro _ _ ⟨rfl, rfl⟩
  refine ⟨trivial, ?_⟩
  change runMachine.wp _ (if w.log.lines = [] ∧ w.log.tail = [] then _ else _) _ _ _
  split_ifs with hlogged
  · exact fun h => h.logged hlogged
  have hstart : Sees [] ⟨[], [], none⟩ := ⟨rfl, rfl, by simp⟩
  obtain ⟨hwhole, hsees⟩ := @replayLines_eq_ok _ 1 w.log.allLines _ _ hstart
  refine Machine.wp_ofExcept_bind (fun seen hseen => ?_) fun _ herror h => ?_
  swap
  · obtain ⟨seen, hok⟩ := hwhole.mpr h.whole
    cases herror.symm.trans hok
  obtain ⟨htypes, hcheckpoint, hdigests⟩ : Sees w.log.events seen := hsees seen hseen
  refine Machine.wp_bind.mpr (Machine.wp_mono replayArtifacts_spec (fun _ _ => id) ?_
    fun _ _ hnot h => hnot h.artifacts)
  rintro failures _ ⟨hfailures, n, rfl⟩
  refine Machine.wp_bind.mpr ((verifyRunRecordIntegrity_spec (r := r) (by exact hrecord) _).post ?_)
  intro recordFailures _ hintegrity
  rw [hcheckpoint] at hintegrity
  have hnone : seen.digestFailures ++ failures ++ recordFailures = [] ↔ Replayable runId w r := by
    rw [List.append_eq_nil_iff, List.append_eq_nil_iff, hdigests, hfailures, hintegrity]
    exact ⟨fun ⟨⟨h₁, h₂⟩, h₃⟩ => ⟨hlogged, hwhole.mp ⟨seen, hseen⟩, h₁, h₂, h₃⟩,
      fun h => ⟨⟨h.digests, h.artifacts⟩, h.integrity⟩⟩
  dsimp only
  split_ifs with hempty
  · exact fun h => hempty (hnone.mpr h)
  · have hempty := not_not.mp hempty
    exact ⟨hnone.mp hempty, rfl, htypes, hempty⟩

/-- The replay of a run ends with a report. -/
def Replays (runId : String) (w : World) : Prop := ∃ summary, (runMachine.run (replayRun runId) w).1 = .ok summary

theorem replays_iff (hpresent : w.target.present = true) (hrecord : w.record = some r) :
    Replays runId w ↔ Replayable runId w r := by
  have hrun := (@replayRun_spec _ runId w r hpresent hrecord).run
  unfold Replays
  rcases h : runMachine.run (replayRun runId) w with ⟨⟨e⟩ | ⟨summary⟩, w'⟩ <;> rw [h] at hrun
  · exact iff_of_false (fun ⟨_, hok⟩ => by cases hok) hrun
  · exact iff_of_true ⟨summary, rfl⟩ hrun.1

end

/-! ### What the runtime leaves -/

/-- The state has evidence for what it lists: the events carry their digests, the artifacts are stored,
and the record has the digests of its own control state. -/
structure Evident (runId : String) (s : State) : Prop where
  events : ∀ e ∈ s.1.log.events, e.DigestOk
  recorded : ∀ r, s.1.record = some r → (∀ a ∈ r.ctx.artifacts, Stored s.1 a) ∧
    r.replayIntegrity = some (runRecordIntegrity (r.load runId)) ∧ s.1.log.lines ≠ []
  flying : ∀ fl, s.2 = some fl → fl.ctx.runId = runId ∧ ∀ a ∈ fl.ctx.artifacts, Stored s.1 a

/-- The lines of the log are closed, and its last checkpoint is that of the record. -/
structure InSync (runId : String) (w : World) : Prop where
  closed : w.log.tail = [] ∧ ∀ line ∈ w.log.lines, line.length ≤ 1
  checkpoint : ∀ r, w.record = some r →
    lastCheckpoint w.log.events = some (runRecordIntegrity (r.load runId))

namespace EventLog

variable {log log' : EventLog}

omit [Platform] in
theorem events_append (log : EventLog) (e : AoEvent) : (log.append e).events = log.events ++ [e] := by
  simp [append, events, allLines]

omit [Platform] in
theorem events_emit (log : EventLog) (e : AoEvent) : (log.emit e).events = log.events ++ [e] := by
  simp [emit, append, breakLine, events, allLines]

omit [Platform] in
theorem lines_emit (log : EventLog) (e : AoEvent) :
    (log.emit e).lines = log.lines ++ [log.tail ++ [e]] := rfl

omit [Platform] in
theorem tail_emit (log : EventLog) (e : AoEvent) : (log.emit e).tail = [] := rfl

/-- What plain events leave as it is. -/
theorem Grows.keeps (h : log.Grows log') :
    (∃ es, log'.events = log.events ++ es ∧ ∀ e ∈ es, e.DigestOk) ∧
      lastCheckpoint log'.events = lastCheckpoint log.events ∧ log.lines <+: log'.lines ∧
      (log.tail = [] ∧ (∀ line ∈ log.lines, line.length ≤ 1) →
        log'.tail = [] ∧ ∀ line ∈ log'.lines, line.length ≤ 1) := by
  obtain ⟨es, hes, rfl⟩ := h
  induction es generalizing log with
  | nil => exact ⟨⟨[], by simp, by simp⟩, rfl, List.prefix_rfl, id⟩
  | cons e es ih =>
    rw [List.forall_mem_cons] at hes
    obtain ⟨⟨es', hevents, hok⟩, hcheckpoint, hlines, hclosed⟩ := @ih (log.emit e) hes.2
    refine ⟨⟨e :: es', ?_, List.forall_mem_cons.mpr ⟨hes.1.1, hok⟩⟩, ?_, ?_, fun h => hclosed ⟨rfl, ?_⟩⟩
    · rw [List.foldl_cons, hevents, events_emit, List.append_assoc]
      rfl
    · rw [List.foldl_cons, hcheckpoint, events_emit, lastCheckpoint_concat, if_neg hes.1.2]
    · exact (List.prefix_append ..).trans hlines
    · rw [lines_emit, h.1]
      exact List.forall_mem_append.mpr ⟨h.2, List.forall_mem_singleton.mpr le_rfl⟩

end EventLog

/-- The evidence that was there stays: the log has only plain events more, what is stored stays stored,
and the record is not written. -/
structure Keeps (w w' : World) : Prop where
  log : w.log.Grows w'.log
  stored : ∀ a, Stored w a → Stored w' a
  record : w'.record = w.record

theorem Keeps.of_quiet {w w' : World} (h : Quiet w w') : Keeps w w' := by
  refine ⟨?_, fun a ha => ha.quiet h, h.record⟩
  obtain ⟨_, _, _, rfl, hlog, -⟩ := h
  exact hlog

omit [Platform] in
theorem Stored.of_eq [Platform] {w w' : World} {a : ArtifactRef} (h : Stored w a)
    (hfiles : w'.files = w.files) (htick : w.tick ≤ w'.tick) : Stored w' a := by
  obtain ⟨k, hk, hnumbered, hcontent⟩ := h
  exact ⟨k, hk.trans_le htick, hnumbered, hfiles ▸ hcontent⟩

theorem Keeps.of_eq {w w' : World} (hlog : w'.log = w.log) (hfiles : w'.files = w.files)
    (htick : w.tick ≤ w'.tick) (hrecord : w'.record = w.record) : Keeps w w' :=
  ⟨hlog ▸ .refl _, fun _ h => h.of_eq hfiles htick, hrecord⟩

variable {runId : String} {s s' : State}

/-- A move keeps the evidence, or writes the record. -/
theorem Move.keeps_or_record (h : Move runId s s') : Keeps s.1 s'.1 ∨
    ∃ fl status eventId tick, s.2 = some fl ∧ s.1.tick ≤ tick ∧ s'.2 = some { fl with phase := .settled } ∧
      s'.1 = { s.1 with
        log := s.1.log.emit (checkpointEvent fl.ctx eventId)
        record := some (recordOf fl.ctx status)
        tick := tick } := by
  cases h with
  | quiet h | summary _ _ h => exact .inl (.of_quiet h)
  | calm h => exact .inl (.of_quiet h.quiet)
  | @record w fl status eventId tick _ htick => exact .inr ⟨fl, status, eventId, tick, rfl, htick, rfl, rfl⟩
  | firstTicket _ _ _ _ _ _ _ htick | request _ _ _ _ _ _ _ _ _ _ _ htick =>
    exact .inl (.of_eq rfl rfl htick.le rfl)
  | _ => exact .inl (.of_eq rfl rfl le_rfl rfl)

/-- What was logged and stored is still there. -/
structure EvidenceKept (w w' : World) : Prop where
  events : w.log.events <+: w'.log.events
  stored : ∀ a, Stored w a → Stored w' a

theorem EvidenceKept.trans {w w' w'' : World} (h : EvidenceKept w w') (h' : EvidenceKept w' w'') :
    EvidenceKept w w'' :=
  ⟨h.events.trans h'.events, fun a ha => h'.stored a (h.stored a ha)⟩

/-- A move only adds to the evidence. -/
theorem Move.kept (h : Move runId s s') : EvidenceKept s.1 s'.1 := by
  rcases h.keeps_or_record with hkeeps | ⟨_, _, _, _, -, htick, -, heq⟩
  · obtain ⟨⟨es, hevents, -⟩, -⟩ := hkeeps.log.keeps
    exact ⟨⟨es, hevents.symm⟩, hkeeps.stored⟩
  · rw [heq]
    exact ⟨⟨_, (EventLog.events_emit ..).symm⟩, fun _ ha => ha.of_eq rfl htick⟩

/-- A stop adds at most an event. -/
theorem Halt.kept {o : Op} {w' : World} (h : Halt o s w') : EvidenceKept s.1 w' := by
  cases h with
  | clean => exact ⟨List.prefix_rfl, fun _ ha => ha⟩
  | torn | tornCheckpoint =>
    exact ⟨⟨_, (EventLog.events_append ..).symm⟩, fun _ ha => ha.of_eq rfl (Nat.le_succ _)⟩
  | unrecorded _ _ _ htick =>
    exact ⟨⟨_, (EventLog.events_emit ..).symm⟩, fun _ ha => ha.of_eq rfl htick⟩

/-- A move lists only what is stored. -/
theorem Move.lists_stored (h : Move runId s s') (hs : Evident runId s) {fl : Flight} (hfl : s'.2 = some fl) :
    fl.ctx.runId = runId ∧ ∀ a ∈ fl.ctx.artifacts, Stored s'.1 a := by
  have hstored {a : ArtifactRef} (ha : Stored s.1 a) : Stored s'.1 a := h.kept.stored a ha
  have hsame {f : Flight} (hf : s.2 = some f) (hrun : fl.ctx.runId = f.ctx.runId)
      (hartifacts : fl.ctx.artifacts = f.ctx.artifacts) :
      fl.ctx.runId = runId ∧ ∀ a ∈ fl.ctx.artifacts, Stored s'.1 a := by
    obtain ⟨hf, hlisted⟩ := hs.flying f hf
    exact ⟨hrun.trans hf, fun a ha => hstored (hlisted a (hartifacts ▸ ha))⟩
  have hloaded {r : RunRecord} (hr : s.1.record = some r) (hrun : fl.ctx.runId = runId)
      (hartifacts : fl.ctx.artifacts = r.ctx.artifacts) :
      fl.ctx.runId = runId ∧ ∀ a ∈ fl.ctx.artifacts, Stored s'.1 a :=
    ⟨hrun, fun a ha => hstored ((hs.recorded r hr).1 a (hartifacts ▸ ha))⟩
  cases h with
  | quiet | land | options | grant | granted => cases hfl
  | @calm w w' f ctx hc =>
    cases hfl
    obtain ⟨hrun, hlisted⟩ := hs.flying f rfl
    obtain ⟨-, artifacts, _, rfl, hnew⟩ := hc
    exact ⟨hrun, List.forall_mem_append.mpr ⟨fun a ha => hstored (hlisted a ha), fun a ha => (hnew a ha).1⟩⟩
  | @summary w w' f key a k _ _ _ hnew =>
    cases hfl
    obtain ⟨hrun, hlisted⟩ := hs.flying f rfl
    exact ⟨hrun, List.forall_mem_append.mpr
      ⟨fun a ha => hstored (hlisted a ha), List.forall_mem_singleton.mpr hnew⟩⟩
  | outside | contents => exact hsame hfl rfl rfl
  | start workflow =>
    cases hfl
    exact ⟨rfl, fun a ha => absurd ha List.not_mem_nil⟩
  | approve hrecord | rewrite hrecord | beginSession hrecord | beginScripted hrecord =>
    cases hfl
    exact hloaded hrecord rfl rfl
  | _ =>
    cases hfl
    exact hsame rfl rfl rfl

theorem checkpointEvent_digestOk (ctx : RunContext) (eventId : String) :
    (checkpointEvent ctx eventId).DigestOk := by
  unfold checkpointEvent newEvent
  cases ctx.policyDecisions.getLast? <;> rfl

theorem lastCheckpoint_emit (log : EventLog) (ctx : RunContext) (eventId : String) :
    lastCheckpoint (log.emit (checkpointEvent ctx eventId)).events = some (runRecordIntegrity ctx) := by
  rw [EventLog.events_emit, lastCheckpoint_concat]
  unfold checkpointEvent newEvent
  cases ctx.policyDecisions.getLast? <;> rfl

theorem load_recordOf {ctx : RunContext} (hrun : ctx.runId = runId) (status : RunStatus) :
    (recordOf ctx status).load runId = ctx := by rw [← hrun]; rfl

/-- **The evidence is kept.** -/
theorem Evident.move (hm : Move runId s s') (h : Evident runId s) : Evident runId s' := by
  refine ⟨?_, ?_, fun fl hfl => hm.lists_stored h hfl⟩
  · rcases hm.keeps_or_record with hkeeps | ⟨fl, _, _, _, -, -, -, heq⟩
    · obtain ⟨⟨es, hevents, hok⟩, -⟩ := hkeeps.log.keeps
      rw [hevents]
      exact List.forall_mem_append.mpr ⟨h.events, hok⟩
    · rw [heq, EventLog.events_emit]
      exact List.forall_mem_append.mpr ⟨h.events, List.forall_mem_singleton.mpr (checkpointEvent_digestOk ..)⟩
  · rcases hm.keeps_or_record with hkeeps | ⟨fl, status, _, _, hfl, htick, -, heq⟩
    · intro r hr
      obtain ⟨hlisted, hintegrity, hlines⟩ := h.recorded r (hkeeps.record ▸ hr)
      refine ⟨fun a ha => hkeeps.stored a (hlisted a ha), hintegrity, fun hnil => hlines ?_⟩
      exact List.prefix_nil.mp (hnil ▸ hkeeps.log.keeps.2.2.1)
    · rw [heq]
      rintro _ ⟨⟩
      obtain ⟨hrun, hlisted⟩ := h.flying fl hfl
      refine ⟨fun a ha => (hlisted a ha).of_eq rfl htick, ?_, List.append_ne_nil_of_right_ne_nil _ nofun⟩
      rw [load_recordOf hrun]
      rfl

theorem Evident.halt {o : Op} {w' : World} (hh : Halt o s w') (h : Evident runId s) :
    Evident runId (w', none) := by
  have htorn {w : World} {fl : Option Flight} {e : AoEvent} (h : Evident runId (w, fl)) (he : e.DigestOk) :
      Evident runId ({ w with log := w.log.append e }.count, none) := by
    refine ⟨?_, fun r hr => ?_, fun _ hf => by cases hf⟩
    · change ∀ e' ∈ (w.log.append e).events, e'.DigestOk
      rw [EventLog.events_append]
      exact List.forall_mem_append.mpr ⟨h.events, List.forall_mem_singleton.mpr he⟩
    · obtain ⟨hlisted, hintegrity, hlines⟩ := h.recorded r hr
      exact ⟨fun a ha => (hlisted a ha).of_eq rfl (Nat.le_succ _), hintegrity, hlines⟩
  cases hh with
  | clean => exact ⟨h.events, h.recorded, fun _ hf => by cases hf⟩
  | torn he => exact htorn h he.1
  | tornCheckpoint eventId => exact htorn h (checkpointEvent_digestOk ..)
  | @unrecorded w fl eventId r tick htick =>
    refine ⟨?_, fun r hr => ?_, fun _ hf => by cases hf⟩
    · rw [EventLog.events_emit]
      exact List.forall_mem_append.mpr ⟨h.events, List.forall_mem_singleton.mpr (checkpointEvent_digestOk ..)⟩
    · obtain ⟨hlisted, hintegrity, -⟩ := h.recorded r hr
      exact ⟨fun a ha => (hlisted a ha).of_eq rfl htick, hintegrity,
        List.append_ne_nil_of_right_ne_nil _ nofun⟩

omit [Platform] in
theorem Evident.fresh [Platform] (target : Repo) (env : Env) :
    Evident runId (World.fresh target env, none) where
  events e he := by simp [World.fresh, EventLog.events, EventLog.allLines] at he
  recorded r hr := by cases hr
  flying fl hfl := by cases hfl

/-- **The log keeps up with the record.** -/
theorem InSync.move (hm : Move runId s s') (he : Evident runId s) (h : InSync runId s.1) :
    InSync runId s'.1 := by
  rcases hm.keeps_or_record with hkeeps | ⟨fl, status, eventId, _, hfl, -, -, heq⟩
  · obtain ⟨-, hcheckpoint, -, hclosed⟩ := hkeeps.log.keeps
    refine ⟨hclosed h.closed, fun r hr => ?_⟩
    rw [hcheckpoint]
    exact h.checkpoint r (hkeeps.record ▸ hr)
  · rw [heq]
    refine ⟨⟨rfl, ?_⟩, ?_⟩
    · rw [EventLog.lines_emit, h.closed.1]
      exact List.forall_mem_append.mpr ⟨h.closed.2, List.forall_mem_singleton.mpr le_rfl⟩
    · rintro _ ⟨⟩
      rw [load_recordOf (he.flying fl hfl).1]
      exact lastCheckpoint_emit ..

/-- A process may stop here without leaving a line open, or a checkpoint without its record. -/
def CleanStop (o : Op) : Prop := o ≠ .appendLineBreak ∧ ∀ r, o ≠ .replaceRecord r

/-- A stop that is clean leaves the log with its record. -/
theorem InSync.halt {o : Op} {w' : World} (hclean : CleanStop o) (hh : Halt o s w')
    (h : InSync runId s.1) : InSync runId w' := by
  cases hh with
  | clean => exact h
  | torn | tornCheckpoint => exact absurd rfl hclean.1
  | unrecorded _ r => exact absurd rfl (hclean.2 r)

/-- Every stop of the history is clean. -/
def CleanStops (runId : String) : List Step → World → Prop
  | [], _ => True
  | s :: ss, w =>
    (∀ o, w.stopsBefore runId s = some o → CleanStop o) ∧ CleanStops runId ss (w.step runId s)

/-! ### Histories -/

variable {target : Repo} {env : Env} {ss : List Step} {w : World} {r : RunRecord}

/-- Whatever is called, and wherever it stops, nothing that was logged or stored is lost. -/
theorem kept_steps (ss : List Step) (w : World) : EvidenceKept w (w.steps runId ss) :=
  World.steps_invariant (P := fun s => EvidenceKept w s.1) ⟨List.prefix_rfl, fun _ h => h⟩
    (fun _ _ hm h => h.trans hm.kept) fun _ _ _ hh h => h.trans hh.kept

theorem evident_steps (target : Repo) (env : Env) (ss : List Step) :
    Evident runId ((World.fresh target env).steps runId ss, none) :=
  World.steps_invariant (.fresh target env) (fun _ _ => Evident.move) fun _ _ _ => Evident.halt

omit [Platform] in
theorem Stored.unchanged [Platform] {a : ArtifactRef} (h : Stored w a) : Unchanged w a := by
  obtain ⟨_, _, _, content, hcontent, hdigest⟩ := h
  exact ⟨content, hcontent, hdigest⟩

/-- **The evidence stays.** After every history, whatever is called next and wherever it stops: the events
of the log begin with the ones of before, and the files of the artifacts that the record listed have the
digests that they were listed with. -/
theorem evidence_stays {ss' : List Step} (hw : w = (World.fresh target env).steps runId ss)
    (hrecord : w.record = some r) : w.log.events <+: (w.steps runId ss').log.events ∧
      ∀ a ∈ r.ctx.artifacts, Unchanged (w.steps runId ss') a := by
  have hkept : EvidenceKept w (w.steps runId ss') := kept_steps ss' w
  obtain ⟨hlisted, -⟩ := (hw ▸ evident_steps target env ss : Evident runId (w, none)).recorded r hrecord
  exact ⟨hkept.events, fun a ha => (hkept.stored a (hlisted a ha)).unchanged⟩

/-- No digest of an event, of an artifact or in the record is ever wrong. -/
theorem Evident.replays_iff (h : Evident runId (w, none)) (hpresent : w.target.present = true)
    (hrecord : w.record = some r) : Replays runId w ↔ w.log.Whole ∧
      lastCheckpoint w.log.events = some (runRecordIntegrity (r.load runId)) := by
  obtain ⟨hlisted, hintegrity, hlines⟩ := h.recorded r hrecord
  rw [Ao2.replays_iff hpresent hrecord]
  constructor
  · intro hreplayable
    rcases hreplayable.integrity with hnone | ⟨-, hcheckpoint⟩
    · cases hintegrity.symm.trans hnone
    · exact ⟨hreplayable.whole, hcheckpoint⟩
  · rintro ⟨hwhole, hcheckpoint⟩
    exact ⟨fun hnil => hlines hnil.1, hwhole, h.events, fun a ha => (hlisted a ha).unchanged,
      .inr ⟨hintegrity, hcheckpoint⟩⟩

omit [Platform] in
theorem InSync.whole [Platform] (h : InSync runId w) : w.log.Whole := by
  refine List.forall_mem_append.mpr ⟨h.closed.2, List.forall_mem_singleton.mpr ?_⟩
  rw [h.closed.1]
  exact Nat.zero_le 1

/-- By induction on the history: a call that is not stopped goes by moves, one that is stopped ends in a
clean stop. -/
theorem inSync_steps {ss : List Step} {w : World} (hclean : CleanStops runId ss w)
    (hevident : Evident runId (w, none)) (h : InSync runId w) : InSync runId (w.steps runId ss) := by
  have hreach {s s' : State} (hr : Reach runId s s') (hs : Evident runId s ∧ InSync runId s.1) :
      Evident runId s' ∧ InSync runId s'.1 :=
    hr.invariant (P := fun s => Evident runId s ∧ InSync runId s.1) hs
      fun _ _ hm hs => ⟨hs.1.move hm, hs.2.move hm hs.1⟩
  induction ss generalizing w with
  | nil => exact h
  | cons step ss ih =>
    obtain ⟨hstop, hclean⟩ := hclean
    cases hnext : w.stopsBefore runId step with
    | none =>
      have hnow := hreach (World.step_reach hnext) ⟨hevident, h⟩
      exact ih hclean hnow.1 hnow.2
    | some o =>
      obtain ⟨w', ⟨s', hr, hh⟩, heq⟩ := World.step_stopped hnext
      have hnow := hreach hr ⟨hevident, h⟩
      have hleft : Evident runId (w', none) ∧ InSync runId w' :=
        ⟨hnow.1.halt hh, hnow.2.halt (hstop o hnext) hh⟩
      have hreboot := hreach (.move (.outside w'.target false)) hleft
      rw [World.steps_cons]
      exact ih hclean (heq ▸ hreboot.1) (heq ▸ hreboot.2)

/-- The log of such a history keeps up with the record. -/
theorem inSync_of_cleanStops (hclean : CleanStops runId ss (World.fresh target env)) :
    InSync runId ((World.fresh target env).steps runId ss) :=
  inSync_steps hclean (.fresh target env) ⟨⟨rfl, fun _ h => absurd h List.not_mem_nil⟩, nofun⟩

theorem cleanStops_undisturbed (calls : List Call) (w : World) :
    CleanStops runId (undisturbed calls) w := by
  induction calls generalizing w with
  | nil => trivial
  | cons call calls ih =>
    refine ⟨fun o h => ?_, ih _⟩
    have hnone : w.stopsBefore runId ⟨call, none⟩ = none := rfl
    rw [hnone] at h
    cases h

theorem PolicyDecision.toJson_injective (hdates : Function.Injective rfc3339) :
    Function.Injective PolicyDecision.toJson := by
  intro d d' h
  obtain ⟨_, _, _, _, _, _, _, _, ticket, _⟩ := d
  obtain ⟨_, _, _, _, _, _, _, _, ticket', _⟩ := d'
  cases ticket <;> cases ticket' <;> simp_all [PolicyDecision.toJson, Json.ofOption, hdates.eq_iff]

theorem ApprovalTicket.toJson_injective (hdates : Function.Injective rfc3339) :
    Function.Injective ApprovalTicket.toJson := by
  intro t t' h
  obtain ⟨_, _, _, _, _, _, approver, _, _, _, _⟩ := t
  obtain ⟨_, _, _, _, _, _, approver', _, _, _, _⟩ := t'
  cases approver <;> cases approver' <;> simp_all [ApprovalTicket.toJson, Json.ofOption, hdates.eq_iff]

/-- The digests of the control state tell it. -/
theorem runRecordIntegrity_eq_iff (hsha : Function.Injective sha256Json)
    (hdates : Function.Injective rfc3339) {ctx ctx' : RunContext} (hrun : ctx.runId = ctx'.runId) :
    runRecordIntegrity ctx = runRecordIntegrity ctx' ↔
      ctx.policyDecisions = ctx'.policyDecisions ∧ ctx.approvals = ctx'.approvals := by
  constructor
  · intro h
    simp only [runRecordIntegrity, Json.obj.injEq, List.cons.injEq, Prod.mk.injEq, Json.str.injEq,
      hsha.eq_iff, Json.arr.injEq, true_and] at h
    exact ⟨(PolicyDecision.toJson_injective hdates).list_map h.2.2.1,
      (ApprovalTicket.toJson_injective hdates).list_map h.1⟩
  · rintro ⟨hdecisions, happrovals⟩
    rw [runRecordIntegrity, runRecordIntegrity, hdecisions, happrovals, hrun]

/-- **Edits of the record.** Where a run of any history is replayed, the same directory with another
record that lists the same artifacts is replayed just when the record has no block of digests, or has the
block of before and the policy decisions and tickets of before. -/
theorem replays_edited_iff (hsha : Function.Injective sha256Json) (hdates : Function.Injective rfc3339)
    (hw : w = (World.fresh target env).steps runId ss) (hpresent : w.target.present = true)
    (hrecord : w.record = some r) (hreplays : Replays runId w) {edited : RunRecord}
    (hartifacts : edited.ctx.artifacts = r.ctx.artifacts) :
    Replays runId { w with record := some edited } ↔ edited.replayIntegrity = none ∨
      edited.replayIntegrity = r.replayIntegrity ∧
        edited.ctx.policyDecisions = r.ctx.policyDecisions ∧ edited.ctx.approvals = r.ctx.approvals := by
  have hbefore : Replayable runId w r := (replays_iff hpresent hrecord).mp hreplays
  have hevident : Evident runId (w, none) := hw ▸ evident_steps target env ss
  obtain ⟨-, hintegrity, -⟩ := hevident.recorded r hrecord
  obtain ⟨-, hcheckpoint⟩ := (hevident.replays_iff hpresent hrecord).mp hreplays
  have hsame : runRecordIntegrity (r.load runId) = runRecordIntegrity (edited.load runId) ↔
      edited.ctx.policyDecisions = r.ctx.policyDecisions ∧ edited.ctx.approvals = r.ctx.approvals :=
    eq_comm.trans (runRecordIntegrity_eq_iff hsha hdates rfl)
  rw [replays_iff (r := edited) (by exact hpresent) rfl, hintegrity, ← hsame]
  constructor
  · intro h
    refine h.integrity.imp_right ?_
    rintro ⟨hblock, hlast⟩
    have heq := Option.some.inj (hcheckpoint.symm.trans hlast)
    exact ⟨heq ▸ hblock, heq⟩
  · intro h
    refine ⟨hbefore.logged, hbefore.whole, hbefore.digests, fun a ha => ?_, ?_⟩
    · exact hbefore.artifacts a (hartifacts ▸ ha)
    · refine h.imp_right ?_
      rintro ⟨hblock, heq⟩
      exact ⟨heq ▸ hblock, heq ▸ hcheckpoint⟩

end

/-! ### Runs that are replayed, and some that are not -/

section

attribute [local instance] scriptedPlatform

/-- What a history leaves of the run. -/
def scriptedWorld (ss : List Step) : World := (World.fresh (smallRepo "x") (scriptedEnv 0)).steps "r" ss

theorem scriptedWorld_eq (ss : List Step) :
    scriptedWorld ss = (World.fresh (smallRepo "x") (scriptedEnv 0)).steps "r" ss := rfl

set_option maxRecDepth 100000 in
theorem scriptedWorld_record : (scriptedWorld scriptedHistory).target.present = true ∧
    (scriptedWorld scriptedHistory).record.isSome = true := by decide +kernel

/-- What the run leaves is there after a start in the same directory. -/
theorem evidence_stays_scripted : (scriptedWorld scriptedHistory).log.events <+:
    ((scriptedWorld scriptedHistory).steps "r" [⟨.start "w", none⟩]).log.events := by
  obtain ⟨r, hr⟩ := Option.isSome_iff_exists.mp scriptedWorld_record.2
  exact (evidence_stays (scriptedWorld_eq _) hr).1

/-- The approval is stopped in the middle of a line of the log, and the run is started again. -/
def tornHistory : List Step :=
  [⟨.start "w", none⟩, ⟨.approve "approval-35" "bob", some 11⟩, ⟨.start "w", none⟩]

/-- The record without its tickets. -/
def RunRecord.unapproved (r : RunRecord) : RunRecord := { r with ctx := { r.ctx with approvals := [] } }

set_option maxRecDepth 100000 in
/-- Who takes the tickets out of the record is found out. -/
theorem not_replays_unapproved : ¬ Replays "r" { scriptedWorld scriptedHistory with
    record := (scriptedWorld scriptedHistory).record.map RunRecord.unapproved } := by
  have happrovals : (scriptedWorld scriptedHistory).record.map (·.ctx.approvals.isEmpty) = some false := by
    decide +kernel
  have hkept : (scriptedWorld scriptedHistory).record.map (·.replayIntegrity.isSome) = some true := by
    decide +kernel
  obtain ⟨hpresent, hrecord⟩ := scriptedWorld_record
  obtain ⟨r, hr⟩ := Option.isSome_iff_exists.mp hrecord
  have hsync : InSync "r" (scriptedWorld scriptedHistory) :=
    inSync_of_cleanStops (cleanStops_undisturbed _ _)
  have hevident : Evident "r" (scriptedWorld scriptedHistory, none) := evident_steps _ _ _
  have hreplays : Replays "r" (scriptedWorld scriptedHistory) :=
    (hevident.replays_iff hpresent hr).mpr ⟨hsync.whole, hsync.checkpoint r hr⟩
  have hedited := @replays_edited_iff _ "r" _ _ _ _ r (sha256Json_numbering_injective _)
    toString_injective (scriptedWorld_eq _) hpresent hr hreplays r.unapproved rfl
  rw [hr, Option.map_some, hedited]
  rw [hr] at happrovals hkept
  rintro (hnone | ⟨-, -, hsame⟩)
  · change r.replayIntegrity = none at hnone
    simp [hnone] at hkept
  · change [] = r.ctx.approvals at hsame
    simp [← hsame] at happrovals

end

end Ao2
