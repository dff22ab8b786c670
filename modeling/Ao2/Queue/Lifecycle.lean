import Ao2.Queue.Once
import Ao2.Queue.Updates

/-!
# The lifecycle of a queued run

A run is queued, running and then in one of the terminal statuses, which it leaves by a retry only.
Nothing in the code says so: a transition goes from any status to any other, and a call that completes
a run sets its status whatever it is by then. So the lifecycle is kept by the calls together or not at
all, and what they have to find at their stores is stated here.

What a history says of its entry does not depend on that: each record goes on from the one before, and
the attempts are the requeues among them.

## Main results

* `not_followsLifecycle_cancelled` — a run that was cancelled while it ran is accepted
-/

namespace Ao2

open Interaction

/-! ### The property -/

/-- The run has a terminal status. -/
def IsTerminal (entries : List Json) (runId : String) : Prop :=
  ∃ status, statusIn entries runId = some status ∧ factoryQueueStatusIsTerminal status = true

/-- How often a run was queued again. -/
def requeues (runId : String) (trace : List QueueTraceEntry) : ℕ :=
  (trace.flatMap (recordsBy runId)).countP isRequeue

/-- A call has claimed a run in the first part of a run and goes on in the second. -/
def Executing (runId : String) (earlier later : List QueueTraceEntry) : Prop :=
  ∃ c ∈ earlier, (∃ options, c.call = .runNext options) ∧ Leads runId "running" c ∧
    changedRun c = some runId ∧ ∃ x ∈ later, x.index = c.index

/-- **The lifecycle of every run** is followed by every store. -/
structure FollowsLifecycle (P : QueuePool) : Prop where
  /-- A run that is running is not queued while its execution goes on. -/
  running : ∀ earlier e later, P.trace = earlier ++ e :: later → ∀ runId,
    statusIn (fileEntries e.before) runId = some "running" → Executing runId earlier later →
    ¬ Leads runId "queued" e
  /-- A call that executes runs leaves a run that is cancelled cancelled. -/
  cancelled : ∀ e ∈ P.trace, ∀ runId options queue, e.call = .runNext options →
    storedBy e = some queue → statusIn (fileEntries e.before) runId = some "cancelled" →
    statusIn (entriesOf queue) runId = some "cancelled"
  /-- A terminal status is left by a retry. -/
  terminal : ∀ e ∈ P.trace, ∀ runId status queue, storedBy e = some queue →
    statusIn (fileEntries e.before) runId = some status → factoryQueueStatusIsTerminal status = true →
    statusIn (entriesOf queue) runId = some status ∨
      ∃ target reason, e.call = .transition target runId "queued" reason
  /-- The attempts of a run are its requeues. -/
  attempts : ∀ entry ∈ fileEntries P.world, ∀ runId, runIdOf entry = some runId →
    attemptsOf entry = requeues runId P.trace
  /-- Each record of a history goes on from the one before. -/
  runs : ∀ entry ∈ fileEntries P.world, IsRun entry

/-- What a store must find: the value that its call has read last, and in it the run in a status that
it may be moved from. Any transition but a retry, and a call that executes runs, must not find it in a
terminal status; it may be the one that a transition leads to. -/
structure LifecycleStore (e : QueueTraceEntry) : Prop where
  current : CurrentStore e
  transition : ∀ target runId status reason, e.call = .transition target runId status reason →
    status ≠ "queued" → storedBy e ≠ none →
    ¬ IsTerminal (fileEntries e.before) runId ∨ statusIn (fileEntries e.before) runId = some status
  runNext : ∀ options runId, e.call = .runNext options → changedRun e = some runId →
    storedBy e ≠ none → ¬ IsTerminal (fileEntries e.before) runId

/-- What a retry must not find: a run that is running and whose execution goes on. -/
def RetriesWait (P : QueuePool) : Prop :=
  ∀ earlier e later, P.trace = earlier ++ e :: later → ∀ target runId reason,
    e.call = .transition target runId "queued" reason → storedBy e ≠ none →
    statusIn (fileEntries e.before) runId = some "running" → ¬ Executing runId earlier later

/-! ### What a store does to a status -/

section

variable {e : QueueTraceEntry} {queue : Json} {runId status : String}

/-- A run that had a status has a status that its call was given, if any. -/
structure Moved (e : QueueTraceEntry) (queue : Json) (runId : String) : Prop where
  some : changedRun e = some runId
  retry : statusIn (entriesOf queue) runId = .some "queued" →
    ∃ target reason, e.call = .transition target runId "queued" reason
  given : ∀ target id status reason, e.call = .transition target id status reason →
    statusIn (entriesOf queue) runId = .some status

/-- **A run that has a status keeps it, or it is the run that the call moves.** -/
theorem kept_or_moved (hstored : storedBy e = some queue) (hstores : StoresOf e queue)
    (hcopy : SoundEntries (copyOf e)) (hcurrent : CurrentStore e)
    (hbefore : statusIn (fileEntries e.before) runId = some status) :
    statusIn (entriesOf queue) runId = some status ∨ Moved e queue runId := by
  have hread : copyOf e = fileEntries e.before := by
    rw [copyOf, hcurrent queue hstored]
    rfl
  rw [← hread] at hbefore
  cases hstores with
  | adds id reason entry submits submitted new entries =>
    refine .inl ?_
    rw [entries, statusIn_addEntry submitted hcopy new]
    by_cases hid : runId = id
    · subst hid
      rw [statusIn, new] at hbefore
      cases hbefore
    · rw [if_neg hid, hbefore]
  | changes id status' reason change some retry given records entries =>
    have hstatus : statusIn (entriesOf queue) runId =
        if runId = id then (findEntry (copyOf e) runId).map fun _ => status'
        else statusIn (copyOf e) runId := by
      rw [entries, statusIn_updateEntry records]
    by_cases hid : runId = id
    · subst hid
      obtain ⟨entry, hfind, -⟩ := Option.bind_eq_some_iff.mp hbefore
      rw [if_pos rfl, hfind] at hstatus
      refine .inr ⟨some, fun hqueued => ?_, fun target id status'' reason' hcall => ?_⟩
      · rw [hqueued] at hstatus
        obtain rfl : "queued" = status' := Option.some.inj hstatus
        obtain ⟨target, hcall⟩ := retry rfl
        exact ⟨target, reason, hcall⟩
      · rw [given _ _ _ _ hcall]
        exact hstatus
    · rw [if_neg hid] at hstatus
      exact .inl (hstatus.trans hbefore)

theorem storedBy_ne_none (hstored : storedBy e = some queue) : storedBy e ≠ none := by
  rw [hstored]
  exact Option.some_ne_none queue

/-- **A running run is queued by a retry** only, if a store is current. -/
theorem retry_of_running (hasks : Asks e.call e.earlier e.event.op) (hcopy : SoundEntries (copyOf e))
    (hcurrent : CurrentStore e) (hrunning : statusIn (fileEntries e.before) runId = some "running")
    (hqueued : Leads runId "queued" e) :
    storedBy e ≠ none ∧ ∃ target reason, e.call = .transition target runId "queued" reason := by
  obtain ⟨queue, hstored, hafter⟩ := hqueued
  refine ⟨storedBy_ne_none hstored, ?_⟩
  rcases kept_or_moved hstored (storesOf_of_asks hasks hstored) hcopy hcurrent hrunning
    with hkept | hmoved
  · exact absurd (hafter.symm.trans hkept) (by decide)
  · exact hmoved.retry hafter

/-- **A terminal status is left by a retry** only, if a store finds what it must. -/
theorem terminal_or_retry (hasks : Asks e.call e.earlier e.event.op)
    (hcopy : SoundEntries (copyOf e)) (hstore : LifecycleStore e) (hstored : storedBy e = some queue)
    (hbefore : statusIn (fileEntries e.before) runId = some status)
    (hterminal : factoryQueueStatusIsTerminal status = true) :
    statusIn (entriesOf queue) runId = some status ∨
      ∃ target reason, e.call = .transition target runId "queued" reason := by
  have hne := storedBy_ne_none hstored
  have his : IsTerminal (fileEntries e.before) runId := ⟨status, hbefore, hterminal⟩
  rcases kept_or_moved hstored (storesOf_of_asks hasks hstored) hcopy hstore.current hbefore
    with hkept | ⟨hsome, hretry, hgiven⟩
  · exact .inl hkept
  -- the call changes the entry of a run with a terminal status
  cases hcall : e.call with
  | submit target planPath id receiptOut => rw [changedRun, hcall] at hsome; cases hsome
  | submitProjectStart options => rw [changedRun, hcall] at hsome; cases hsome
  | transition target id status' reason =>
    obtain rfl : id = runId := by
      rw [changedRun, hcall] at hsome
      exact Option.some.inj hsome
    by_cases hqueued : status' = "queued"
    · exact .inr ⟨target, reason, by rw [hqueued]⟩
    · rcases hstore.transition target id status' reason hcall hqueued hne with hnot | hsame
      · exact absurd his hnot
      · obtain rfl : status = status' := Option.some.inj (hbefore.symm.trans hsame)
        exact .inl (hgiven _ _ _ _ hcall)
  | runNext options => exact absurd his (hstore.runNext options runId hcall hsome hne)

end

/-! ### Runs -/

/-- **The attempts are the requeues** that were made, if no store loses one. -/
theorem attempts_eq_requeues (moves : List (PoolMove QueueCall QueueAnswers))
    (hcurrent : ∀ e ∈ (queueRun moves).trace, CurrentStore e) {entry : Json}
    (hentry : entry ∈ fileEntries (queueRun moves).world) {runId : String}
    (hid : runIdOf entry = some runId)
    (hcountable : requeues runId (queueRun moves).trace + 1 < 2 ^ 64) :
    attemptsOf entry = requeues runId (queueRun moves).trace := by
  have hsound := (sound_queueRun moves).1
  have hhistory : historyOf entry = (queueRun moves).trace.flatMap (recordsBy runId) := by
    rw [← told_queueRun moves hcurrent runId, historyIn,
      (findEntry_eq_some_iff hsound.distinct).mpr ⟨hentry, hid⟩]
    rfl
  have hcounts := hsound.attempts entry hentry
  rw [CountsRequeues, hhistory] at hcounts
  exact hcounts hcountable

/-- A store adds one record at most to a history. -/
theorem length_recordsBy_le {e : QueueTraceEntry} (hasks : Asks e.call e.earlier e.event.op)
    (hcopy : SoundEntries (copyOf e)) (runId : String) : (recordsBy runId e).length ≤ 1 := by
  cases hstored : storedBy e with
  | none => simp [recordsBy, hstored]
  | some queue =>
    have hrecords : recordsBy runId e =
        (historyIn (entriesOf queue) runId).drop (historyIn (copyOf e) runId).length := by
      rw [recordsBy, hstored]
    rw [hrecords, List.length_drop]
    cases storesOf_of_asks hasks hstored with
    | adds id reason entry submits submitted new entries =>
      obtain ⟨record, hhistory, -, -, -⟩ := submitted.history
      rw [entries, historyIn_addEntry submitted hcopy new, hhistory]
      split_ifs <;> simp
    | changes id status reason change some retry given records entries =>
      rw [entries]
      by_cases hid : runId = id
      · subst hid
        cases hfind : findEntry (copyOf e) runId with
        | none => simp [historyIn, findEntry_updateEntry records, hfind]
        | some entry =>
          obtain ⟨record, -, hhistory⟩ := historyIn_updateEntry records hfind
          simp [hhistory]
      · rw [historyIn, findEntry_updateEntry records, if_neg hid, historyIn]
        omega

theorem requeues_le_length (moves : List (PoolMove QueueCall QueueAnswers)) (runId : String) :
    requeues runId (queueRun moves).trace ≤ (queueRun moves).trace.length := by
  have hone : ∀ e ∈ (queueRun moves).trace, (recordsBy runId e).length ≤ 1 := fun e he =>
    length_recordsBy_le ((coherent_queueRun moves).entries e he) ((sound_queueRun moves).2 e he).2 runId
  rw [requeues]
  refine List.countP_le_length.trans ?_
  generalize (queueRun moves).trace = trace at hone
  induction trace with
  | nil => exact Nat.le_refl 0
  | cons e trace ih =>
    have htail := ih fun x hx => hone x (List.mem_cons_of_mem e hx)
    have hhead := hone e (List.mem_cons_self ..)
    rw [List.flatMap_cons, List.length_append, List.length_cons]
    omega

/-- **Every run follows the lifecycle** in each run of any number of calls whose stores find what they
must, by the lifecycle of one store. -/
theorem followsLifecycle_of_lifecycleStores (moves : List (PoolMove QueueCall QueueAnswers))
    (hstores : ∀ e ∈ (queueRun moves).trace, LifecycleStore e) (hretries : RetriesWait (queueRun moves))
    (hcountable : ∀ runId, requeues runId (queueRun moves).trace + 1 < 2 ^ 64) :
    FollowsLifecycle (queueRun moves) := by
  obtain ⟨hsound, hcopies⟩ := sound_queueRun moves
  have hasks := (coherent_queueRun moves).entries
  have hterminal : ∀ e ∈ (queueRun moves).trace, ∀ runId status queue, storedBy e = some queue →
      statusIn (fileEntries e.before) runId = some status →
      factoryQueueStatusIsTerminal status = true →
      statusIn (entriesOf queue) runId = some status ∨
        ∃ target reason, e.call = .transition target runId "queued" reason :=
    fun e he runId status queue =>
      terminal_or_retry (hasks e he) (hcopies e he).2 (hstores e he)
  refine ⟨?_, ?_, hterminal, ?_, hsound.runs⟩
  · intro earlier e later htrace runId hrunning hexecuting hqueued
    have he : e ∈ (queueRun moves).trace := by simp [htrace]
    obtain ⟨hne, target, reason, hcall⟩ :=
      retry_of_running (hasks e he) (hcopies e he).2 (hstores e he).current hrunning hqueued
    exact hretries earlier e later htrace target runId reason hcall hne hrunning hexecuting
  · intro e he runId options queue hcall hstored hcancelled
    rcases hterminal e he runId "cancelled" queue hstored hcancelled (by decide) with hkept | hretry
    · exact hkept
    · obtain ⟨target, reason, htransition⟩ := hretry
      rw [hcall] at htransition
      cases htransition
  · intro entry hentry runId hid
    exact attempts_eq_requeues moves (fun e he => (hstores e he).current) hentry hid (hcountable runId)

/-! ### A run that follows the lifecycle -/

/-- A store finds a run that may be moved; a transition is a retry of a run that is not running. -/
def findsMovable (e : QueueTraceEntry) : Bool :=
  match e.call with
  | .submit .. | .submitProjectStart _ => true
  | .transition _ runId status _ =>
    decide (status = "queued" ∧ statusIn (fileEntries e.before) runId ≠ some "running")
  | .runNext _ =>
    (changedRun e).all fun runId =>
      (statusIn (fileEntries e.before) runId).all fun status => !factoryQueueStatusIsTerminal status

theorem lifecycleStore_of_findsMovable {e : QueueTraceEntry}
    (h : storedBy e ≠ none → lastRead e.earlier = some e.before ∧ findsMovable e = true) :
    LifecycleStore e := by
  constructor
  · intro queue hstored
    exact (h (storedBy_ne_none hstored)).1
  · intro target runId status reason hcall hstatus hne
    have hfinds := (h hne).2
    rw [findsMovable, hcall] at hfinds
    exact absurd (of_decide_eq_true hfinds).1 hstatus
  · rintro options runId hcall hsome hne ⟨status, hstatus, hterminal⟩
    have hfinds := (h hne).2
    rw [findsMovable, hcall, hsome] at hfinds
    change (statusIn (fileEntries e.before) runId).all _ = true at hfinds
    rw [hstatus] at hfinds
    change (!factoryQueueStatusIsTerminal status) = true at hfinds
    rw [hterminal] at hfinds
    cases hfinds

theorem followsLifecycle_retried : FollowsLifecycle (queueRun retriedMoves) := by
  have hall : (queueRun retriedMoves).trace.all (fun e => storedBy e = none ∨
      lastRead e.earlier = some e.before ∧ findsMovable e = true) = true := by decide +kernel
  refine followsLifecycle_of_lifecycleStores retriedMoves (fun e he => ?_) ?_ fun runId => ?_
  · have h := of_decide_eq_true (List.all_eq_true.mp hall e he)
    exact lifecycleStore_of_findsMovable h.resolve_left
  · intro earlier e later htrace target runId reason hcall hne hrunning
    have h := of_decide_eq_true (List.all_eq_true.mp hall e (by simp [htrace]))
    have hmovable := (h.resolve_left hne).2
    rw [findsMovable, hcall] at hmovable
    exact absurd hrunning (of_decide_eq_true hmovable).2
  · have hlength : (queueRun retriedMoves).trace.length = 53 := by decide +kernel
    have hle := requeues_le_length retriedMoves runId
    omega

/-! ### A cancel that is overwritten -/

/-- A plan is submitted and claimed, cancelled while it runs, and completed. -/
def cancelledMoves : List (PoolMove QueueCall QueueAnswers) :=
  .spawn (.submit "repo" "plan.json" (some "run") none) :: acts 0 8 ++
    .spawn (.runNext runNextOptions) :: acts 1 11 ++
    .spawn (.transition "repo" "run" "cancelled" "cancel") :: acts 2 5 ++ acts 1 5

/-- A store of a call that executes runs takes a run out of the status cancelled. -/
def revives (runId : String) (e : QueueTraceEntry) : Bool :=
  match e.call, storedBy e with
  | .runNext _, some queue =>
    decide (statusIn (fileEntries e.before) runId = some "cancelled" ∧
      statusIn (entriesOf queue) runId ≠ some "cancelled")
  | _, _ => false

theorem not_followsLifecycle_cancelled : ¬ ∀ moves, FollowsLifecycle (queueRun moves) := by
  intro h
  have hany : (queueRun cancelledMoves).trace.any (revives "run") = true := by decide +kernel
  obtain ⟨e, he, hrevives⟩ := List.any_eq_true.mp hany
  rw [revives] at hrevives
  split at hrevives
  · rename_i options queue hcall hstored
    obtain ⟨hbefore, hafter⟩ := of_decide_eq_true hrevives
    exact hafter ((h cancelledMoves).cancelled e he "run" options queue hcall hstored hbefore)
  · cases hrevives

end Ao2
