import Ao2.Queue.Runs

/-!
# No update of the queue is lost

Each call stores the copy of the queue that it has read with one record added to one history. As long
as every store finds in the file what its call has read, the histories in the file are made of all
records that were ever added, in that order. A store that finds another value there drops what was
added in between.

## Main results

* `not_updatesKept_overtaken` — of two submissions that return only one is in the file
-/

namespace Ao2

open Interaction

/-! ### The property -/

/-- The records that a store adds to the history that a run has in the copy. -/
def recordsBy (runId : String) (e : QueueTraceEntry) : List Json :=
  match storedBy e with
  | none => []
  | some queue => (historyIn (entriesOf queue) runId).drop (historyIn (copyOf e) runId).length

/-- The record of what a call has reported. -/
structure RecordedAs (call : QueueCall) (r : Json) (runId : String) (record : Json) : Prop where
  named : r.get? "run_id" = some (.str runId)
  moved : ∃ status, r.get? "status" = some (.str status) ∧ record.get? "status" = some (.str status)
  reason : ∀ target id status reason, call = .transition target id status reason →
    runId = id ∧ record.get? "reason" = some (.str reason)

/-- **No update is lost.** -/
structure UpdatesKept (P : QueuePool) : Prop where
  /-- The runs in the file are different, and each history is a run of the status of its entry. -/
  sound : SoundEntries (fileEntries P.world)
  /-- The history of a run is made of what was added to it, in that order. -/
  histories : ∀ runId, historyIn (fileEntries P.world) runId = P.trace.flatMap (recordsBy runId)
  /-- A call that has returned has added a record of what it has reported. -/
  reported : ∀ (index : ℕ) m r, P.members[index]? = some m → m.program = .done r →
    ∃ e ∈ P.trace, e.index = index ∧ ∃ runId record,
      recordsBy runId e = [record] ∧ RecordedAs m.call r runId record
  /-- What was submitted is there. -/
  submitted : ∀ (index : ℕ) m r runId, P.members[index]? = some m → m.program = .done r →
    m.call.submits = true → r.get? "run_id" = some (.str runId) →
    ∃ entry ∈ fileEntries P.world, runIdOf entry = some runId

/-- What a store must find: the value that its call has read last. -/
def CurrentStore (e : QueueTraceEntry) : Prop :=
  ∀ queue, storedBy e = some queue → lastRead e.earlier = some e.before

/-! ### Histories after a store -/

theorem historyIn_addEntry {runId reason : String} {entry : Json} {entries : List Json}
    (h : Submitted runId reason entry) (hs : SoundEntries entries)
    (hnew : findEntry entries runId = none) (id : String) :
    historyIn (addEntry entry entries) id =
      historyIn entries id ++ if id = runId then historyOf entry else [] := by
  rw [historyIn, findEntry_addEntry h.runId hs.distinct hnew, historyIn]
  split_ifs with hid
  · rw [hid, hnew]
    rfl
  · rw [List.append_nil]

theorem historyIn_updateEntry {runId status reason : String} {change : Json → Json}
    (h : Records status reason change) {entries : List Json} {entry : Json}
    (hfind : findEntry entries runId = some entry) :
    ∃ record, RecordOf entry status reason record ∧
      historyIn (updateEntry runId change entries) runId = historyIn entries runId ++ [record] := by
  obtain ⟨record, hrecord, hhistory⟩ := h.adds entry (isObject_of_runIdOf (runIdOf_of_findEntry hfind))
  refine ⟨record, hrecord, ?_⟩
  rw [historyIn, findEntry_updateEntry h, if_pos rfl, historyIn, hfind]
  exact hhistory

/-- **A store goes on with the histories of its copy.** -/
theorem StoresOf.history {e : QueueTraceEntry} {queue : Json} (h : StoresOf e queue)
    (hcopy : SoundEntries (copyOf e)) (runId : String) :
    historyIn (copyOf e) runId <+: historyIn (entriesOf queue) runId := by
  cases h with
  | adds id reason entry submits submitted new entries =>
    rw [entries, historyIn_addEntry submitted hcopy new]
    exact List.prefix_append _ _
  | changes id status reason change some retry given records entries =>
    rw [entries]
    by_cases hid : runId = id
    · subst hid
      cases hfind : findEntry (copyOf e) runId with
      | none => rw [historyIn, hfind]; exact List.nil_prefix
      | some entry =>
        obtain ⟨record, -, hhistory⟩ := historyIn_updateEntry records hfind
        rw [hhistory]
        exact List.prefix_append _ _
    · rw [historyIn, historyIn, findEntry_updateEntry records, if_neg hid]

/-! ### Histories of a run -/

/-- The histories are made of what was added, as long as every store is current. -/
def Told (trace : List QueueTraceEntry) (file : Option Json) : Prop :=
  (∀ e ∈ trace, CurrentStore e) →
    ∀ runId, historyIn (fileEntries file) runId = trace.flatMap (recordsBy runId)

theorem told_step {trace : List QueueTraceEntry} {e : QueueTraceEntry}
    (hcopy : SoundEntries (copyOf e)) (hasks : Asks e.call e.earlier e.event.op)
    (hG : Told trace e.before) : Told (trace ++ [e]) ((storedBy e).or e.before) := by
  intro hcurrent runId
  have hbefore := hG (fun x hx => hcurrent x (List.mem_append_left _ hx)) runId
  rw [List.flatMap_append, ← hbefore, List.flatMap_singleton, recordsBy]
  cases hstored : storedBy e with
  | none => exact (List.append_nil _).symm
  | some queue =>
    have hread : copyOf e = fileEntries e.before := by
      rw [copyOf, hcurrent e (by simp) queue hstored]
      rfl
    obtain ⟨added, hadded⟩ := (storesOf_of_asks hasks hstored).history hcopy runId
    change historyIn (entriesOf queue) runId = _ ++ (historyIn (entriesOf queue) runId).drop _
    rw [← hadded, List.drop_left, hread]

theorem told_queueRun (moves : List (PoolMove QueueCall QueueAnswers)) :
    Told (queueRun moves).trace (queueRun moves).world := by
  have h := Pool.trace_induction (M := queueMachine) (w := none)
    (G := fun trace file => (SoundEntries (fileEntries file) ∧ SoundReads trace) ∧ Told trace file)
    program_traced ⟨⟨soundEntries_nil, List.forall_mem_nil _⟩, fun _ _ => rfl⟩ ?_ moves
  · exact h.1.2
  · intro trace e answers hG hasks hearlier hans
    refine ⟨sound_step trace e answers hG.1 hasks hearlier hans, ?_⟩
    rw [queueMachine_step hans]
    exact told_step (hG.1.2.copyOf hearlier) hasks hG.2

/-! ### What a call has added -/

theorem recordsBy_of_adds {e : QueueTraceEntry} {queue : Json} {runId reason : String}
    (hstored : storedBy e = some queue) (hcopy : SoundEntries (copyOf e))
    (hadds : Adds e.earlier queue runId reason) :
    ∃ record, recordsBy runId e = [record] ∧ record.get? "status" = some (.str "queued") := by
  obtain ⟨found, entry, hread, hentry, hnew, hentries⟩ := hadds
  have hcopy' : copyOf e = fileEntries found := by rw [copyOf, hread]; rfl
  obtain ⟨record, hhistory, -, hqueued, -⟩ := hentry.history
  refine ⟨record, ?_, hqueued⟩
  rw [hcopy'] at hcopy
  rw [recordsBy, hstored, hcopy']
  change (historyIn (entriesOf queue) runId).drop _ = _
  rw [hentries, historyIn_addEntry hentry hcopy hnew, List.drop_left, if_pos rfl, hhistory]

theorem recordsBy_of_changes {e : QueueTraceEntry} {queue : Json} {runId status reason : String}
    (hstored : storedBy e = some queue) (hchanges : Changes e.earlier queue runId status reason)
    (hknows : Knows e.earlier runId) :
    ∃ record, recordsBy runId e = [record] ∧ record.get? "status" = some (.str status) ∧
      record.get? "reason" = some (.str reason) := by
  obtain ⟨found, change, hread, hrecords, hentries⟩ := hchanges
  obtain ⟨found', entry, hread', hentry⟩ := hknows
  rw [hread, Option.some_inj] at hread'
  subst hread'
  have hcopy : copyOf e = fileEntries found := by rw [copyOf, hread]; rfl
  obtain ⟨record, hrecord, hhistory⟩ := historyIn_updateEntry hrecords hentry
  refine ⟨record, ?_, hrecord.status, hrecord.reason⟩
  rw [recordsBy, hstored, hcopy]
  change (historyIn (entriesOf queue) runId).drop _ = _
  rw [hentries, hhistory, List.drop_left]

/-- **A call that has returned has added a record** of what it has reported, whatever else went on. -/
theorem recorded_of_done {moves : List (PoolMove QueueCall QueueAnswers)} {index : ℕ}
    {m : Member QueueCall QueueSignature String Json} {r : Json}
    (hm : (queueRun moves).members[index]? = some m) (hdone : m.program = .done r) :
    ∃ e ∈ (queueRun moves).trace, e.index = index ∧ ∃ runId record,
      recordsBy runId e = [record] ∧ RecordedAs m.call r runId record := by
  have hcoherent := coherent_queueRun moves
  have htraced := hcoherent.traced m (List.mem_of_getElem? hm)
  rw [hdone] at htraced
  obtain ⟨earlier, queue, later, runId, status, reason, hhistory, hid, hstatus, hcall⟩ := htraced
  obtain ⟨pre, e, post, htrace, hindex, -, hearlier, hevent⟩ := hcoherent.performed hm hhistory
  have hmem : e ∈ (queueRun moves).trace := by simp [htrace]
  have hstored := storedBy_eq_some_iff.mpr hevent
  have hcopy := ((sound_queueRun moves).2 e hmem).2
  subst hearlier
  refine ⟨e, hmem, hindex, runId, ?_⟩
  cases hcall' : m.call with
  | submit target planPath runId receiptOut =>
    rw [hcall'] at hcall
    obtain ⟨rfl, hadds⟩ := hcall
    obtain ⟨record, hrecords, hqueued⟩ := recordsBy_of_adds hstored hcopy hadds
    exact ⟨record, hrecords, hid, ⟨_, hstatus, hqueued⟩, fun _ _ _ _ heq => (by cases heq)⟩
  | submitProjectStart options =>
    rw [hcall'] at hcall
    obtain ⟨rfl, hadds⟩ := hcall
    obtain ⟨record, hrecords, hqueued⟩ := recordsBy_of_adds hstored hcopy hadds
    exact ⟨record, hrecords, hid, ⟨_, hstatus, hqueued⟩, fun _ _ _ _ heq => (by cases heq)⟩
  | transition target id status' reason' =>
    rw [hcall'] at hcall
    obtain ⟨⟨rfl, rfl, rfl⟩, hchanges, hknows⟩ := hcall
    obtain ⟨record, hrecords, hmoved, hreason⟩ := recordsBy_of_changes hstored hchanges hknows
    refine ⟨record, hrecords, hid, ⟨_, hstatus, hmoved⟩, fun _ _ _ _ heq => ?_⟩
    cases heq
    exact ⟨rfl, hreason⟩
  | runNext options =>
    rw [hcall'] at hcall
    obtain ⟨hchanges, hknows⟩ := hcall
    obtain ⟨record, hrecords, hmoved, -⟩ := recordsBy_of_changes hstored hchanges hknows
    exact ⟨record, hrecords, hid, ⟨_, hstatus, hmoved⟩, fun _ _ _ _ heq => (by cases heq)⟩

/-- **No update of the queue is lost** in every run of any number of calls whose stores are current. -/
theorem updatesKept_of_currentStores (moves : List (PoolMove QueueCall QueueAnswers))
    (hcurrent : ∀ e ∈ (queueRun moves).trace, CurrentStore e) : UpdatesKept (queueRun moves) := by
  have htold := told_queueRun moves hcurrent
  refine ⟨(sound_queueRun moves).1, htold, fun index m r hm hdone => recorded_of_done hm hdone, ?_⟩
  intro index m r runId hm hdone _ hid
  obtain ⟨e, he, -, id, record, hrecords, hrecorded⟩ := recorded_of_done hm hdone
  obtain rfl : id = runId := by
    have heq := hrecorded.named.symm.trans hid
    injection heq with heq
    injection heq
  have hmem : record ∈ historyIn (fileEntries (queueRun moves).world) id := by
    rw [htold]
    exact List.mem_flatMap.mpr ⟨e, he, by rw [hrecords]; exact List.mem_singleton_self _⟩
  rw [historyIn] at hmem
  cases hfind : findEntry (fileEntries (queueRun moves).world) id with
  | none =>
    rw [hfind] at hmem
    cases hmem
  | some entry => exact ⟨entry, mem_of_findEntry hfind, runIdOf_of_findEntry hfind⟩

theorem updatesKept_retried : UpdatesKept (queueRun retriedMoves) := by
  refine updatesKept_of_currentStores retriedMoves fun e he queue hstored => ?_
  have hall : (queueRun retriedMoves).trace.all (fun e => storedBy e = none ∨
      lastRead e.earlier = some e.before) = true := by decide +kernel
  have h := of_decide_eq_true (List.all_eq_true.mp hall e he)
  rcases h with hnone | hcurrent
  · rw [hstored] at hnone
    cases hnone
  · exact hcurrent

/-! ### A submission that is lost -/

/-- Two plans are submitted; the second call is done before the first stores what it has read. -/
def overtakenMoves : List (PoolMove QueueCall QueueAnswers) :=
  .spawn (.submit "repo" "plan.json" (some "run") none) :: acts 0 7 ++
    .spawn (.submit "repo" "other.json" (some "other") none) :: acts 1 8 ++ acts 0 1

/-- What a process has returned, if it submits. -/
def receiptOf (m : Member QueueCall QueueSignature String Json) : Option Json :=
  match m.program with
  | .done r => if m.call.submits then some r else none
  | _ => none

/-- Both calls return, and only one of the plans is in the file. -/
theorem not_updatesKept_overtaken : ¬ ∀ moves, UpdatesKept (queueRun moves) := by
  intro h
  have hreceipt : (((queueRun overtakenMoves).members[1]?).bind receiptOf).bind
      (fun r => r.get? "run_id") = some (.str "other") := by decide +kernel
  obtain ⟨r, hr, hid⟩ := Option.bind_eq_some_iff.mp hreceipt
  obtain ⟨m, hm, hreturned⟩ := Option.bind_eq_some_iff.mp hr
  rw [receiptOf] at hreturned
  split at hreturned
  · rename_i r' hdone
    split_ifs at hreturned with hsubmits
    rw [← Option.some.inj hreturned] at hid
    obtain ⟨entry, hentry, hother⟩ := (h overtakenMoves).submitted 1 m r' "other" hm hdone hsubmits hid
    have hnone : ∀ entry ∈ fileEntries (queueRun overtakenMoves).world,
        runIdOf entry ≠ some "other" := by decide +kernel
    exact hnone entry hentry hother
  · cases hreturned

end Ao2
