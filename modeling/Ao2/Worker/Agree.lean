import Ao2.Worker.Replay

/-!
# Journal and snapshot

After any calls of `claim` and `complete`, the journal alone, the snapshot alone and each earlier
snapshot with the journal replayed over it say the same of every request as the process that was
called. This holds as long as no text that is kept has a high surrogate directly before a low one:
the two are written as the escapes of one character, and read back as that character.

## Main results

* `LedgerHistory.call`, `after_history` — what the files hold after calls
-/

namespace Ao2

open Python

/-- A call of `claim` or `complete`, with what the clock says to it: once for the journal and once
for the ledger. -/
structure LedgerCall where
  event : LedgerEvent
  recordedAt : PyStr
  updatedAt : PyStr

variable {F : Type} [FloatText F]

def WorkerState.call (s : WorkerState F) (c : LedgerCall) : WorkerState F :=
  match c.event with
  | .claim requestId action => (s.claim c.recordedAt c.updatedAt requestId action).2
  | .complete requestId status => s.complete c.recordedAt c.updatedAt requestId status

/-- The state after calls on a new state directory. -/
def after (calls : List LedgerCall) : WorkerState F := calls.foldl .call .fresh

/-! ### What the files hold -/

/-- The files and the tasks are those of a list of events. -/
structure LedgerHistory (s : WorkerState F) (es : List (PyStr × LedgerEvent)) : Prop where
  filled : ∀ e ∈ es, e.2.Filled
  journal : s.dir.journal = journalOf (F := F) es
  tasks : Represents s.tasks (standing (es.map Prod.snd))
  sound : SoundTasks s.tasks
  snapshot : s.dir.snapshot = if es = [] then none else some (snapshotText s.tasks)

theorem history_fresh : LedgerHistory (WorkerState.fresh : WorkerState F) [] where
  filled := List.forall_mem_nil _
  journal := rfl
  tasks := represents_blank
  sound := ⟨List.forall_mem_nil _, List.nodup_nil⟩
  snapshot := rfl

theorem standing_append_singleton (es : List LedgerEvent) (e : LedgerEvent) :
    standing (es ++ [e]) = (standing es).apply e := by
  rw [← foldl_apply_blank, ← foldl_apply_blank, List.foldl_append]
  rfl

/-- An event that is written to the journal, applied to the tasks and saved. -/
theorem LedgerHistory.write {s : WorkerState F} {es : List (PyStr × LedgerEvent)} (h : LedgerHistory s es)
    {e : LedgerEvent} (he : e.Filled) (recordedAt updatedAt : PyStr) :
    LedgerHistory (WorkerState.save { s.appendJournalEvent recordedAt e with
        tasks := applyEvent (.str updatedAt) s.tasks e }) (es ++ [(recordedAt, e)]) where
  filled := by
    intro e' he'
    rcases List.mem_append.mp he' with he' | he'
    · exact h.filled e' he'
    · rw [List.mem_singleton.mp he']
      exact he
  journal := by
    rw [journalOf, List.flatMap_append, List.flatMap_singleton]
    exact congrArg (· ++ _) h.journal
  tasks := by
    rw [List.map_append, List.map_singleton, standing_append_singleton]
    exact h.tasks.applyEvent _ e
  sound := h.sound.applyEvent (.str updatedAt) e
  snapshot := by
    rw [if_neg (by simp)]
    rfl

/-- **What a call does**: it leaves everything as it is, or adds one event. -/
theorem LedgerHistory.call {s : WorkerState F} {es : List (PyStr × LedgerEvent)} (h : LedgerHistory s es)
    {c : LedgerCall} (hc : c.event.Filled) :
    ∃ es', LedgerHistory (s.call c) (es ++ es') ∧
      standing ((es ++ es').map Prod.snd) = (standing (es.map Prod.snd)).apply c.event := by
  obtain ⟨e, recordedAt, updatedAt⟩ := c
  have hwrite : standing ((es ++ [(recordedAt, e)]).map Prod.snd) =
      (standing (es.map Prod.snd)).apply e := by
    rw [List.map_append, List.map_singleton, standing_append_singleton]
  cases e with
  | claim requestId action =>
    by_cases hid : (s.tasks.lookup requestId).isSome = true
    · refine ⟨[], ?_, ?_⟩
      · rw [List.append_nil, WorkerState.call]
        simp only [WorkerState.claim, WorkerState.hasRequest, hid, if_true]
        exact h
      · rw [List.append_nil, Board.apply, if_pos (h.tasks.isSome_eq requestId ▸ hid)]
    · refine ⟨[(recordedAt, .claim requestId action)], ?_, hwrite⟩
      have hkeep := h.write hc recordedAt updatedAt
      rw [applyEvent, setDefault, if_neg hid] at hkeep
      rw [WorkerState.call]
      simp only [WorkerState.claim, WorkerState.hasRequest, hid]
      exact hkeep
  | complete requestId status =>
    exact ⟨[(recordedAt, .complete requestId status)], h.write hc recordedAt updatedAt, hwrite⟩

/-- **What calls do**, by induction on them. -/
theorem foldl_history {calls : List LedgerCall} (hcalls : ∀ c ∈ calls, c.event.Filled)
    {s : WorkerState F} {es : List (PyStr × LedgerEvent)} (h : LedgerHistory s es) :
    ∃ es', LedgerHistory (calls.foldl .call s) (es ++ es') ∧
      standing ((es ++ es').map Prod.snd) =
        (calls.map (·.event)).foldl Board.apply (standing (es.map Prod.snd)) := by
  induction calls generalizing s es with
  | nil => exact ⟨[], by rwa [List.append_nil], by rw [List.append_nil]; rfl⟩
  | cons c calls ih =>
    obtain ⟨es₁, h₁, hstanding₁⟩ := h.call (hcalls c List.mem_cons_self)
    obtain ⟨es₂, h₂, hstanding₂⟩ := ih (fun c hc => hcalls c (List.mem_cons_of_mem _ hc)) h₁
    refine ⟨es₁ ++ es₂, ?_, ?_⟩
    · rw [← List.append_assoc]
      exact h₂
    · rw [← List.append_assoc, hstanding₂, hstanding₁, List.map_cons, List.foldl_cons]

/-- The state after all calls, and that after the first of them. -/
theorem after_history {calls : List LedgerCall} (hcalls : ∀ c ∈ calls, c.event.Filled) (n : ℕ) :
    ∃ es es', LedgerHistory (after (F := F) (calls.take n)) es ∧ LedgerHistory (after (F := F) calls) (es ++ es') ∧
      standing ((es ++ es').map Prod.snd) = standing (calls.map (·.event)) := by
  have htake : ∀ c ∈ calls.take n, c.event.Filled := fun c hc => hcalls c (List.mem_of_mem_take hc)
  have hdrop : ∀ c ∈ calls.drop n, c.event.Filled := fun c hc => hcalls c (List.mem_of_mem_drop hc)
  obtain ⟨es, h, hstanding⟩ := foldl_history (F := F) htake history_fresh
  obtain ⟨es', h', hstanding'⟩ := foldl_history hdrop h
  refine ⟨es, es', h, ?_, ?_⟩
  · rw [← List.foldl_append, List.take_append_drop] at h'
    exact h'
  · rw [List.nil_append] at hstanding hstanding'
    rw [hstanding', hstanding, ← List.foldl_append, ← List.map_append, List.take_append_drop]
    exact foldl_apply_blank _

/-! ### Agreement -/

section

variable {F : Type}

/-- The same requests, with the same actions and statuses. -/
def Agrees (tasks tasks' : Tasks F) : Prop :=
  ∀ requestId, (tasks.lookup requestId).map viewItem = (tasks'.lookup requestId).map viewItem

theorem Represents.agrees {tasks tasks' : Tasks F} {b : Board} (h : Represents tasks b)
    (h' : Represents tasks' b) : Agrees tasks tasks' := fun requestId =>
  (h requestId).trans (h' requestId).symm

theorem Represents.unique {tasks : Tasks F} {b b' : Board} (h : Represents tasks b)
    (h' : Represents tasks b') : b = b' := by
  have hinj : Function.Injective fun given : Option PyStr × PyStr =>
      (given.1.map (.str : PyStr → PyJson F), some (.str given.2 : PyJson F)) := by
    rintro ⟨action, status⟩ ⟨action', status'⟩ heq
    obtain ⟨haction, hstatus⟩ := Prod.mk.inj heq
    have hstr : Function.Injective (.str : PyStr → PyJson F) := fun _ _ => PyJson.str.inj
    exact Prod.ext (Option.map_injective hstr haction) (hstr (Option.some.inj hstatus))
  funext requestId
  exact Option.map_injective hinj ((h requestId).symm.trans (h' requestId))

end

/-! ### Joined texts -/

/-- No text on the board has a high surrogate directly before a low one. -/
def Board.IsJoined (b : Board) : Prop :=
  ∀ requestId given, b requestId = some given →
    Joined requestId ∧ (∀ action ∈ given.1, Joined action) ∧ Joined given.2

theorem Board.IsJoined.normal_eq {b : Board} (h : b.IsJoined) : b.normal = b := by
  funext requestId
  cases hb : b requestId with
  | none => rw [Board.normal, hb, Option.map_none]
  | some given =>
    obtain ⟨action, status⟩ := given
    obtain ⟨-, haction, hstatus⟩ := h requestId _ hb
    rw [Board.normal, hb, Option.map_some, normal_eq_self_iff.mpr hstatus]
    cases action with
    | none => rfl
    | some action => rw [Option.map_some, normal_eq_self_iff.mpr (haction action rfl)]

theorem isSome_standing {es : List LedgerEvent} {e : LedgerEvent} (he : e ∈ es) :
    ∃ given, standing es e.requestId = some given := by
  have hfind : (es.find? (·.requestId = e.requestId)).isSome = true :=
    List.find?_isSome.mpr ⟨e, he, decide_eq_true rfl⟩
  obtain ⟨e', he'⟩ := Option.isSome_iff_exists.mp hfind
  rw [standing, firstAction, he']
  exact ⟨_, rfl⟩

theorem exists_mem_of_standing {es : List LedgerEvent} {requestId : PyStr}
    {given : Option PyStr × PyStr} (h : standing es requestId = some given) :
    ∃ e ∈ es, e.requestId = requestId := by
  obtain ⟨action, hfirst, -⟩ := Option.map_eq_some_iff.mp h
  obtain ⟨e, hfind, -⟩ := Option.map_eq_some_iff.mp hfirst
  exact ⟨e, List.mem_of_find?_eq_some hfind, by simpa using List.find?_some hfind⟩

theorem lastStatus_mem {es : List LedgerEvent} {requestId status : PyStr}
    (h : lastStatus es requestId = some status) : .complete requestId status ∈ es := by
  induction es with
  | nil => cases h
  | cons e es ih =>
    rw [lastStatus, Option.or_eq_some_iff] at h
    rcases h with h | ⟨-, h⟩
    · exact List.mem_cons_of_mem _ (ih h)
    · cases e with
      | claim id action => cases h
      | complete id status' =>
        rw [LedgerEvent.statusFor, Option.ite_none_right_eq_some] at h
        obtain ⟨rfl, heq⟩ := h
        rw [Option.some.inj heq]
        exact List.mem_cons_self

/-- What was read back is joined. -/
theorem isJoined_standing_normal (es : List LedgerEvent) : (standing (es.map .normal)).IsJoined := by
  intro requestId given hgiven
  rw [standing, Option.map_eq_some_iff] at hgiven
  obtain ⟨action, hfirst, rfl⟩ := hgiven
  rw [firstAction, Option.map_eq_some_iff] at hfirst
  obtain ⟨e, hfind, haction⟩ := hfirst
  have hid : e.requestId = requestId := by simpa using List.find?_some hfind
  obtain ⟨e', -, rfl⟩ := List.mem_map.mp (List.mem_of_find?_eq_some hfind)
  refine ⟨?_, ?_, ?_⟩
  · rw [← hid, LedgerEvent.requestId_normal]
    exact joined_normal _
  · intro text htext
    rw [← haction, LedgerEvent.action?_normal] at htext
    obtain ⟨text', -, rfl⟩ := Option.map_eq_some_iff.mp htext
    exact joined_normal text'
  · cases hlast : lastStatus (es.map .normal) requestId with
    | none => exact (by decide : Joined inProgress)
    | some status =>
      obtain ⟨e'', -, heq⟩ := List.mem_map.mp (lastStatus_mem hlast)
      cases e'' with
      | claim id action => cases heq
      | complete id status' =>
        obtain ⟨-, rfl⟩ := LedgerEvent.complete.inj heq
        exact joined_normal status'

/-! ### The ledgers that a new process reads -/

/-- The journal alone, the snapshot alone, and every earlier snapshot with the whole journal agree
with the ledger of the process. -/
def LedgersAgree (now : PyStr) (calls : List LedgerCall) : Prop :=
  let s : WorkerState F := after calls
  (∃ tasks, load now ⟨s.dir.journal, none⟩ = some tasks ∧ Agrees tasks s.tasks) ∧
  (∃ tasks, load now ⟨[], s.dir.snapshot⟩ = some tasks ∧ Agrees tasks s.tasks) ∧
  ∀ n, ∃ tasks, load now ⟨s.dir.journal, (after (F := F) (calls.take n)).dir.snapshot⟩ = some tasks ∧
    Agrees tasks s.tasks

/-- What is read of the snapshot of a history. -/
theorem LedgerHistory.readSnapshot {s : WorkerState F} {es : List (PyStr × LedgerEvent)} (h : LedgerHistory s es)
    (hes : ∀ e ∈ es.map Prod.snd, Joined e.requestId) :
    ∃ tasks : Tasks F, readSnapshot s.dir.snapshot = some tasks ∧
      Represents tasks (standing (es.map Prod.snd)).normal := by
  rw [h.snapshot]
  by_cases hnil : es = []
  · rw [if_pos hnil, hnil]
    exact ⟨[], rfl, represents_blank⟩
  · rw [if_neg hnil]
    refine readSnapshot_snapshotText h.sound (fun task htask => ?_) h.tasks
    have hlookup := (lookup_eq_some_iff h.sound.nodup).mpr htask
    have hid := h.tasks.isSome_eq task.1
    rw [hlookup, Option.isSome_some, eq_comm, Option.isSome_iff_exists] at hid
    obtain ⟨given, hgiven⟩ := hid
    obtain ⟨e, he, hrequest⟩ := exists_mem_of_standing hgiven
    rw [← hrequest]
    exact hes e he

/-- What a new process reads of the journal of a history, over some snapshot. -/
theorem LedgerHistory.load {s : WorkerState F} {es : List (PyStr × LedgerEvent)} (h : LedgerHistory s es)
    (now : PyStr) (snapshot : Option (List Char)) {tasks : Tasks F} {b : Board}
    (hread : Ao2.readSnapshot snapshot = some tasks) (htasks : Represents tasks b) :
    ∃ tasks' : Tasks F, Ao2.load now ⟨s.dir.journal, snapshot⟩ = some tasks' ∧
      Represents tasks' (((es.map Prod.snd).map .normal).foldl Board.apply b) := by
  rw [Ao2.load, hread, h.journal, List.map_map]
  exact ⟨_, rfl, htasks.replayJournal h.filled now⟩

/-- If all agree, what is kept is joined: the journal alone gives joined texts only. -/
theorem isJoined_of_agree {now : PyStr} {calls : List LedgerCall}
    (hcalls : ∀ c ∈ calls, c.event.Filled) (hall : LedgersAgree (F := F) now calls) :
    (standing (calls.map (·.event))).IsJoined := by
  obtain ⟨⟨tasks, hload, hagrees⟩, -, -⟩ := hall
  obtain ⟨es, es', -, h, hstanding⟩ := after_history (F := F) hcalls 0
  obtain ⟨tasks', hload', hrepresents⟩ := h.load now none rfl represents_blank
  rw [← Option.some.inj (hload.symm.trans hload'), foldl_apply_blank] at hrepresents
  -- what the journal was replayed as stands for the ledger of the process too
  have hsame : Represents tasks (standing ((es ++ es').map Prod.snd)) := fun requestId =>
    (hagrees requestId).trans (h.tasks requestId)
  rw [← hstanding, hsame.unique hrepresents]
  exact isJoined_standing_normal _

/-- If what is kept is joined, every snapshot is read as it was and the replay adds what it lacks. -/
theorem agree_of_isJoined (now : PyStr) {calls : List LedgerCall}
    (hcalls : ∀ c ∈ calls, c.event.Filled) (hjoined : (standing (calls.map (·.event))).IsJoined) :
    LedgersAgree (F := F) now calls := by
  have hstart : ∀ n, ∃ tasks : Tasks F,
      Ao2.load now ⟨(after (F := F) calls).dir.journal,
        (after (F := F) (calls.take n)).dir.snapshot⟩ = some tasks ∧
      Agrees tasks (after calls).tasks := by
    intro n
    obtain ⟨es, es', hbefore, h, hstanding⟩ := after_history (F := F) hcalls n
    rw [← hstanding] at hjoined
    have hids : ∀ e ∈ (es ++ es').map Prod.snd, Joined e.requestId := fun e he =>
      (isSome_standing he).elim fun given hgiven => (hjoined _ given hgiven).1
    obtain ⟨tasks, hread, htasks⟩ := hbefore.readSnapshot fun e he => hids e (by
      rw [List.map_append]
      exact List.mem_append_left _ he)
    obtain ⟨tasks', hload, htasks'⟩ := h.load now _ hread htasks
    have hboard := hjoined.normal_eq
    rw [List.map_append] at hids htasks' hboard
    rw [replay_over_earlier hids, hboard, ← List.map_append] at htasks'
    exact ⟨tasks', hload, htasks'.agrees h.tasks⟩
  refine ⟨hstart 0, ?_, hstart⟩
  obtain ⟨es, es', -, h, hstanding⟩ := after_history (F := F) hcalls 0
  rw [← hstanding] at hjoined
  obtain ⟨tasks, hread, htasks⟩ := h.readSnapshot fun e he =>
    (isSome_standing he).elim fun given hgiven => (hjoined _ given hgiven).1
  rw [hjoined.normal_eq] at htasks
  refine ⟨tasks, ?_, htasks.agrees h.tasks⟩
  rw [Ao2.load, hread]
  rfl

/-- **Journal and snapshot agree exactly if what is kept is joined**: of every request that is called
for, the identifier, the action that its first call gives it and the status of its last completion. -/
theorem ledgers_agree_iff (now : PyStr) {calls : List LedgerCall}
    (hcalls : ∀ c ∈ calls, c.event.Filled) :
    LedgersAgree (F := F) now calls ↔ (standing (calls.map (·.event))).IsJoined :=
  ⟨isJoined_of_agree hcalls, agree_of_isJoined now hcalls⟩

/-! ### Examples -/

/-- Numbers by their texts. -/
@[reducible] def numberTexts : FloatText (List Char) := ⟨id, id⟩

attribute [local instance] numberTexts

/-- A call at a fixed time. -/
def callOf (e : LedgerEvent) : LedgerCall := ⟨e, ofString "2026-01-01T00:00:00Z", ofString "2026-01-01T00:00:01Z"⟩

def probe : List LedgerCall :=
  [callOf (.claim (ofString "r-1") (ofString "runtime_probe")),
    callOf (.complete (ofString "r-1") (ofString "accepted")),
    callOf (.complete (ofString "r\u2028x") (ofString "failed"))]

theorem ledgers_agree_probe : LedgersAgree (F := List Char) (ofString "now") probe := by
  refine (ledgers_agree_iff (ofString "now") (by decide)).mpr ?_
  have hnormal : probe.map (·.event) = (probe.map (·.event)).map .normal := by decide
  rw [hnormal]
  exact isJoined_standing_normal _

/-- An identifier of two surrogates that make up a pair. -/
def tornId : PyStr := [0xd800, 0xdc00]

theorem ledgers_disagree_tornId :
    ¬ ∀ calls : List LedgerCall, (∀ c ∈ calls, c.event.Filled) →
      LedgersAgree (F := List Char) (ofString "now") calls := by
  intro hall
  have hcalls : ∀ c ∈ [callOf (.claim tornId (ofString "runtime_probe"))], c.event.Filled := by decide
  have hjoined := isJoined_of_agree hcalls (hall _ hcalls)
  have hid : standing [.claim tornId (ofString "runtime_probe")] tornId =
      some (some (ofString "runtime_probe"), inProgress) := by decide
  exact absurd (hjoined tornId _ hid).1 (by decide)

end Ao2
