import Ao2.Queue.Stages

/-!
# Processes that use one queue

Any number of calls run on one target whose queue file is not there at first. Loads and stores of the
file are atomic, and everything else falls between them in any way. What a store leaves in the file
need not have anything to do with what was there: a call stores what it made of the copy that it had
read.

## Main results

* `sound_queueRun`, `alwaysSound` — the entries are always sound, and so is every copy
-/

namespace Ao2

open Interaction

/-! ### Runs -/

abbrev QueuePool := Pool QueueCall (Option Json) QueueSignature String Json

abbrev QueueTraceEntry := TraceEntry QueueCall (Option Json) QueueSignature

/-- A run of any number of calls. -/
def queueRun (moves : List (PoolMove QueueCall QueueAnswers)) : QueuePool :=
  (Pool.initial none).run QueueCall.program queueMachine moves

theorem coherent_queueRun (moves : List (PoolMove QueueCall QueueAnswers)) :
    (queueRun moves).Coherent Asks Reports fun _ _ _ => True :=
  Pool.coherent_run program_traced none moves

/-- What an operation has stored. -/
def storedBy (e : QueueTraceEntry) : Option Json :=
  match e.event with
  | ⟨.writeQueueFile queue, .ok ()⟩ => some queue
  | _ => none

/-- The entries that the call of an operation has read last. -/
def copyOf (e : QueueTraceEntry) : List Json := ((lastRead e.earlier).map fileEntries).getD []

theorem storedBy_eq_some_iff {e : QueueTraceEntry} {queue : Json} :
    storedBy e = some queue ↔ e.event = ⟨.writeQueueFile queue, .ok ()⟩ := by
  rw [storedBy]
  split
  · rename_i queue' heq
    rw [heq, Option.some_inj]
    exact ⟨fun h => by rw [h], fun h => by injection h with h; injection h⟩
  · rename_i hne
    exact ⟨fun h => (by cases h), fun h => absurd h (hne queue)⟩

/-- The file after an operation. -/
theorem queueMachine_step {e : QueueTraceEntry} {answers : QueueAnswers}
    (h : ((queueMachine answers).step e.event.op e.before).1 = e.event.ans) :
    ((queueMachine answers).step e.event.op e.before).2 = (storedBy e).or e.before := by
  obtain ⟨index, call, earlier, before, op, ans⟩ := e
  cases op with
  | writeQueueFile queue =>
    rw [queueMachine] at h ⊢
    dsimp only at h ⊢
    cases hanswer : answers (.writeQueueFile queue) with
    | ok u =>
      rw [hanswer] at h
      rw [← h]
      rfl
    | error error =>
      rw [hanswer] at h
      rw [← h]
      rfl
  | _ => rfl

/-- What is read of the file is what is in it. -/
theorem eq_of_readBy {e : QueueTraceEntry} {answers : QueueAnswers} {found : Option Json}
    (h : ((queueMachine answers).step e.event.op e.before).1 = e.event.ans)
    (hread : readBy e.event = some found) : found = e.before := by
  obtain ⟨index, call, earlier, before, op, ans⟩ := e
  cases op with
  | readQueueFile =>
    change (answers .readQueueFile).map (fun _ => before) = ans at h
    change readBy ⟨.readQueueFile, ans⟩ = _ at hread
    subst h
    cases hanswer : answers .readQueueFile with
    | ok found' =>
      rw [hanswer] at hread
      exact (Option.some.inj hread).symm
    | error error =>
      rw [hanswer] at hread
      cases hread
  | _ => cases hread

/-! ### What a store is made of -/

/-- The run whose entry the call of an operation changes. -/
def changedRun (e : QueueTraceEntry) : Option String :=
  match e.call with
  | .submit .. | .submitProjectStart _ => none
  | .transition _ runId _ _ => some runId
  | .runNext _ => sought e.earlier

def QueueCall.submits : QueueCall → Bool
  | submit .. | submitProjectStart _ => true
  | transition .. | runNext _ => false

/-- A submission adds an entry to the copy and every other call changes one of it; only a transition to
`queued` queues an entry again, and a transition sets the status that it is given. -/
inductive StoresOf (e : QueueTraceEntry) (queue : Json) : Prop
  | adds (runId reason : String) (entry : Json) (submits : e.call.submits = true)
      (submitted : Submitted runId reason entry) (new : findEntry (copyOf e) runId = none)
      (entries : entriesOf queue = addEntry entry (copyOf e))
  | changes (runId status reason : String) (change : Json → Json) (some : changedRun e = some runId)
      (retry : status = "queued" → ∃ target, e.call = .transition target runId status reason)
      (given : ∀ target id status' reason', e.call = .transition target id status' reason' →
        status' = status)
      (records : Records status reason change)
      (entries : entriesOf queue = updateEntry runId change (copyOf e))

theorem changedRun_of_submits {e : QueueTraceEntry} (h : e.call.submits = true) :
    changedRun e = none := by
  cases hcall : e.call with
  | submit target planPath runId receiptOut => rw [changedRun, hcall]
  | submitProjectStart options => rw [changedRun, hcall]
  | transition target runId status reason => rw [hcall] at h; cases h
  | runNext options => rw [hcall] at h; cases h

theorem Adds.storesOf {e : QueueTraceEntry} {queue : Json} {runId reason : String}
    (h : Adds e.earlier queue runId reason) (hsubmits : e.call.submits = true) : StoresOf e queue := by
  obtain ⟨found, entry, hread, hentry, hnew, hentries⟩ := h
  have hcopy : copyOf e = fileEntries found := by rw [copyOf, hread]; rfl
  exact .adds runId reason entry hsubmits hentry (hcopy ▸ hnew) (hcopy ▸ hentries)

theorem Changes.storesOf {e : QueueTraceEntry} {queue : Json} {runId status reason : String}
    (h : Changes e.earlier queue runId status reason) (hsome : changedRun e = some runId)
    (hretry : status = "queued" → ∃ target, e.call = .transition target runId status reason)
    (hgiven : ∀ target id status' reason', e.call = .transition target id status' reason' →
      status' = status) :
    StoresOf e queue := by
  obtain ⟨found, change, hread, hchange, hentries⟩ := h
  have hcopy : copyOf e = fileEntries found := by rw [copyOf, hread]; rfl
  exact .changes runId status reason change hsome hretry hgiven hchange (hcopy ▸ hentries)

theorem storesOf_of_asks {e : QueueTraceEntry} {queue : Json} (hasks : Asks e.call e.earlier e.event.op)
    (hstored : storedBy e = some queue) : StoresOf e queue := by
  rw [storedBy_eq_some_iff.mp hstored] at hasks
  cases hcall : e.call with
  | submit target planPath runId receiptOut =>
    rw [hcall] at hasks
    obtain ⟨runId, reason, hadds⟩ := hasks
    exact hadds.storesOf (by rw [hcall]; rfl)
  | submitProjectStart options =>
    rw [hcall] at hasks
    obtain ⟨runId, reason, hadds⟩ := hasks
    exact hadds.storesOf (by rw [hcall]; rfl)
  | transition target runId status reason =>
    rw [hcall] at hasks
    refine Changes.storesOf hasks (by rw [changedRun, hcall]) (fun _ => ⟨target, hcall⟩) ?_
    intro target' id status' reason' hsame
    rw [hcall] at hsame
    injection hsame with _ _ hstatus
    exact hstatus.symm
  | runNext options =>
    rw [hcall] at hasks
    obtain ⟨runId, hsought, status, reason, hstatus, hchanges⟩ := hasks rfl
    refine hchanges.storesOf (by rw [changedRun, hcall, hsought])
      (fun hqueued => absurd hqueued hstatus) ?_
    intro target' id status' reason' hsame
    rw [hcall] at hsame
    cases hsame

theorem StoresOf.sound {e : QueueTraceEntry} {queue : Json} (h : StoresOf e queue)
    (hcopy : SoundEntries (copyOf e)) : SoundEntries (entriesOf queue) := by
  cases h with
  | adds runId reason entry submits submitted new entries =>
    rw [entries]
    exact hcopy.addEntry submitted new
  | changes runId status reason change some retry given records entries =>
    rw [entries]
    exact hcopy.updateEntry records

/-! ### Entries are sound -/

/-- What has been read of the file was sound. -/
def SoundReads (trace : List QueueTraceEntry) : Prop :=
  ∀ e ∈ trace, ∀ found, readBy e.event = some found → SoundEntries (fileEntries found)

theorem SoundReads.copyOf {trace : List QueueTraceEntry} (h : SoundReads trace) {e : QueueTraceEntry}
    (hearlier : e.earlier = Pool.own trace e.index) : SoundEntries (copyOf e) := by
  rw [Ao2.copyOf]
  cases hread : lastRead e.earlier with
  | none => exact soundEntries_nil
  | some found =>
    obtain ⟨event, hevent, hfound⟩ := exists_mem_of_lastSome hread
    rw [hearlier] at hevent
    obtain ⟨e', he', rfl⟩ := List.mem_map.mp hevent
    exact h e' (List.mem_of_mem_filter he') found hfound

theorem sound_step (trace : List QueueTraceEntry) (e : QueueTraceEntry) (answers : QueueAnswers)
    (hG : SoundEntries (fileEntries e.before) ∧ SoundReads trace)
    (hasks : Asks e.call e.earlier e.event.op) (hearlier : e.earlier = Pool.own trace e.index)
    (hans : ((queueMachine answers).step e.event.op e.before).1 = e.event.ans) :
    SoundEntries (fileEntries ((queueMachine answers).step e.event.op e.before).2) ∧
      SoundReads (trace ++ [e]) := by
  rw [queueMachine_step hans]
  refine ⟨?_, fun e' he' found hread => ?_⟩
  · cases hstored : storedBy e with
    | none => exact hG.1
    | some queue => exact (storesOf_of_asks hasks hstored).sound (hG.2.copyOf hearlier)
  · rcases List.mem_append.mp he' with he' | he'
    · exact hG.2 e' he' found hread
    · rw [List.mem_singleton.mp he'] at hread
      rw [eq_of_readBy hans hread]
      exact hG.1

/-- **The entries in the file are sound**, and so is the copy of every call, by induction over the run. -/
theorem sound_queueRun (moves : List (PoolMove QueueCall QueueAnswers)) :
    SoundEntries (fileEntries (queueRun moves).world) ∧
      ∀ e ∈ (queueRun moves).trace, SoundEntries (fileEntries e.before) ∧ SoundEntries (copyOf e) := by
  obtain ⟨hlast, hpre⟩ := Pool.trace_induction (M := queueMachine)
    (G := fun trace file => SoundEntries (fileEntries file) ∧ SoundReads trace) program_traced (w := none)
    ⟨soundEntries_nil, List.forall_mem_nil _⟩ sound_step moves
  refine ⟨hlast.1, fun e he => ?_⟩
  obtain ⟨pre, post, htrace⟩ := List.mem_iff_append.mp he
  have hG := hpre pre e post htrace
  exact ⟨hG.1, hG.2.copyOf ((coherent_queueRun moves).earlier pre e post htrace)⟩

/-- What the queue file has before each operation of a run, and at its end. -/
def queueFiles (run : QueuePool) : List (Option Json) := run.trace.map (·.before) ++ [run.world]

/-- At no time are two entries about one run, or has an entry come to its status in another way than its
history tells. -/
def AlwaysSound (run : QueuePool) : Prop := ∀ file ∈ queueFiles run, SoundEntries (fileEntries file)

/-- **The queue is always sound**, whichever calls there are, however they fall between each other and
wherever any of them stops, even where a store makes an update of another call undone. -/
theorem alwaysSound (moves : List (PoolMove QueueCall QueueAnswers)) : AlwaysSound (queueRun moves) := by
  obtain ⟨hlast, htrace⟩ := sound_queueRun moves
  intro file hfile
  rcases List.mem_append.mp hfile with hfile | hfile
  · obtain ⟨e, he, rfl⟩ := List.mem_map.mp hfile
    exact (htrace e he).1
  · rw [List.mem_singleton.mp hfile]
    exact hlast

/-! ### A run to try things on -/

/-- An environment in which every step works; the plan is one that AO2 owns. -/
def workingAnswers : QueueAnswers
  | .pathExists _ | .isFile _ => true
  | .canonicalize path => .ok path
  | .sha256File _ => .ok "e3b0c44298fc1c149afbf4c8996fb92427ae41e4649b934ca495991b7852b855"
  | .readCompatValue _ => .ok (.object
      [("schema_version", .str "ao2.factory-v3-compat-governed-plan.v1"),
        ("parity_checklist_progress", .object [("factory_v3_drives_workflow", .bool false)]),
        ("ao2_native_plan", .object
          [("runnable_workflow", .object [("factory_v3_drives_workflow", .bool false)])])])
  | .writeFile .. | .writeQueueFile _ => .ok ()
  | .now => "2026-01-01T00:00:00Z"
  | .nowCompact => "20260101T000000Z"
  | .readQueueFile => .ok none
  | .runPlan _ | .projectStart _ | .projectStartBundleVerify _ | .projectStartSummary ..
  | .projectStartClosure .. | .projectStartClosureVerify _ | .replacementPacket _
  | .replacementPacketVerify _ => .ok (.object [("status", .str "Accepted")])

def runNextOptions : FactoryQueueRunNextOptions :=
  { target := "repo"
    provider := none
    providerPrompt := none
    providerPromptFile := none
    providerMaxBudgetUsd := none
    factoryDecision := none
    signingKey := none
    signerId := "signer"
    maxRepairAttempts := 0
    out := none }

/-- The next operations of a process. -/
def acts (index n : ℕ) : List (PoolMove QueueCall QueueAnswers) := .replicate n (.act index workingAnswers)

/-- A plan is submitted, executed, queued again and executed again, while another plan is submitted
after the first claim. -/
def retriedMoves : List (PoolMove QueueCall QueueAnswers) :=
  .spawn (.submit "repo" "plan.json" (some "run") none) :: acts 0 8 ++
    .spawn (.runNext runNextOptions) :: acts 1 11 ++
    .spawn (.submit "repo" "other.json" (some "other") none) :: acts 2 8 ++ acts 1 5 ++
    .spawn (.transition "repo" "run" "queued" "retry") :: acts 3 5 ++
    .spawn (.runNext runNextOptions) :: acts 4 16

end Ao2
