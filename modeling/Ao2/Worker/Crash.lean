import Ao2.Worker.Signed
import Ao2.Worker.Torn

/-!
# Claims across crashes

A process works on a state directory until it stops, which it may do at any write, and another one
comes up on what is left: a journal whose last line may be torn, and a snapshot that may be gone, old
or damaged. Whatever happens in between, a request that was claimed is not claimed again as long as
every restart finds it: in a line of the journal that stands alone, or in the snapshot.

A line that is written after a torn one does not stand alone.

## Main results

* `load_recovers` — what a new process knows
-/

namespace Ao2

open Python Interaction

section

variable {F : Type} [FloatValue F]

/-! ### The world -/

/-- How a call of the ledger ends: it returns, or the process stops in it. -/
inductive CallEnd where
  | returns
  /-- So many characters of the line came to the journal. -/
  | inAppend (written : ℕ)
  /-- Both files were written. -/
  | afterSave

/-- The snapshot that a restart finds. -/
inductive SnapshotFound (F : Type) [FloatValue F] where
  | asIs
  | absent
  /-- One that was saved after so many others. -/
  | stale (k : ℕ)
  | damaged (text : List Char) (h : loads (F := F) text = none)

/-- What may happen to a process at any time. -/
inductive Incident where
  /-- A thread calls the ledger; the texts are what the clock says. -/
  | call (recordedAt updatedAt : PyStr) (e : LedgerEvent) (ends : CallEnd)
  | stop

/-- The state directory, and the tasks of the process that works on it, if there is one. The other
fields are for what is said of a run: the snapshots that were saved, the requests that have a line of
their own in the journal, the requests that were claimed, each with the number of the snapshots that
were saved before, the requests whose action was started, and the operations that accepted tasks. -/
structure CrashWorld (F : Type) where
  dir : StateDir
  process : Option (Tasks F)
  saved : List (List Char)
  recorded : List PyStr
  claims : List (PyStr × ℕ)
  started : List PyStr
  history : List (Event (WorkerSignature F))

/-- The last line of a journal is not torn. -/
def AtLineStart (journal : List Char) : Prop := ∀ c ∈ journal.getLast?, c = '\n'

instance decidableAtLineStart (journal : List Char) : Decidable (AtLineStart journal) :=
  decidable_of_iff (journal.getLast?.all (· = '\n') = true) (by simp [AtLineStart, Option.all_eq_true])

/-- The requests with a line of their own, once an event was written. -/
def recordedAfter (journal : List Char) (recorded : List PyStr) (e : LedgerEvent) : List PyStr :=
  if AtLineStart journal ∧ e.Filled then e.requestId :: recorded else recorded

/-- What a call of the ledger answers, and what it does. -/
def callLedger (recordedAt updatedAt : PyStr) (s : WorkerState F) : LedgerEvent → Bool × WorkerState F
  | .claim requestId action => s.claim recordedAt updatedAt requestId action
  | .complete requestId status => (false, s.complete recordedAt updatedAt requestId status)

/-- A claim that is refused writes nothing. -/
def refuses (tasks : Tasks F) : LedgerEvent → Bool
  | .claim requestId _ => (tasks.lookup requestId).isSome
  | .complete .. => false

namespace CrashWorld

/-- An empty directory. -/
def initial : CrashWorld F := ⟨⟨[], none⟩, none, [], [], [], [], []⟩

/-- The process is gone. -/
def stop (w : CrashWorld F) : CrashWorld F := { w with process := none }

/-- The process stops while it writes to the journal. -/
def tear (w : CrashWorld F) (recordedAt : PyStr) (e : LedgerEvent) (written : ℕ) : CrashWorld F :=
  let text := e.line (F := F) recordedAt ++ ['\n']
  { w with
    dir.journal := w.dir.journal ++ text.take written
    process := none
    recorded :=
      if text.length ≤ written then recordedAfter w.dir.journal w.recorded e else w.recorded }

/-- A call writes to both files. -/
def write (w : CrashWorld F) (recordedAt updatedAt : PyStr) (tasks : Tasks F) (e : LedgerEvent) :
    CrashWorld F :=
  let s := (callLedger recordedAt updatedAt ⟨w.dir, tasks⟩ e).2
  { w with
    dir := s.dir
    process := some s.tasks
    saved := w.saved ++ [snapshotText s.tasks]
    recorded := recordedAfter w.dir.journal w.recorded e }

/-- A claim has returned `True`. -/
def claimed (w : CrashWorld F) (savedBefore : ℕ) : LedgerEvent → CrashWorld F
  | .claim requestId _ => { w with claims := (requestId, savedBefore) :: w.claims }
  | .complete .. => w

/-- A call of the ledger; what it answers, if it returns. -/
def call (w : CrashWorld F) (recordedAt updatedAt : PyStr) (e : LedgerEvent) (ends : CallEnd) :
    Bool × CrashWorld F :=
  match w.process with
  | none => (false, w)
  | some tasks =>
    if refuses tasks e then
      match ends with
      | .returns => (false, w)
      | .inAppend _ | .afterSave => (false, w.stop)
    else
      match ends with
      | .inAppend written => (false, w.tear recordedAt e written)
      | .afterSave => (false, (w.write recordedAt updatedAt tasks e).stop)
      | .returns =>
        ((callLedger recordedAt updatedAt ⟨w.dir, tasks⟩ e).1,
          (w.write recordedAt updatedAt tasks e).claimed w.saved.length e)

def incident (w : CrashWorld F) : Incident → CrashWorld F
  | .call recordedAt updatedAt e ends => (w.call recordedAt updatedAt e ends).2
  | .stop => w.stop

/-- The snapshot that is found. -/
def snapshotFound (w : CrashWorld F) : SnapshotFound F → Option (List Char)
  | .asIs => w.dir.snapshot
  | .absent => none
  | .stale k => w.saved[k]?
  | .damaged text _ => some text

/-- A new process comes up. -/
def restart (w : CrashWorld F) (found : SnapshotFound F) (now : PyStr) : CrashWorld F :=
  let dir := { w.dir with snapshot := w.snapshotFound found }
  { w with dir := dir, process := load now dir }

end CrashWorld

/-! ### Accepting tasks -/

/-- What happens while a task is accepted: what the operations are answered, what the clock says, how
calls of the ledger end and what happens before each operation. -/
structure CrashEnvironment (F : Type) where
  answer : List (Event (WorkerSignature F)) → (o : WorkerOp F) → o.Ans
  recordedAt : List (Event (WorkerSignature F)) → PyStr
  updatedAt : List (Event (WorkerSignature F)) → PyStr
  ends : List (Event (WorkerSignature F)) → CallEnd
  incidents : List (Event (WorkerSignature F)) → List Incident

/-- The request that an operation starts the action of. The one that needs no thread is that of the
claim right before it. -/
def startedBy (h : List (Event (WorkerSignature F))) : WorkerOp F → Option PyStr
  | .runAction requestId .. => some requestId
  | .statusResult =>
    match h.getLast? with
    | some ⟨.claim requestId _, _⟩ => some requestId
    | _ => none
  | _ => none

namespace CrashWorld

/-- A process that is not gone starts an action. -/
def starts (w : CrashWorld F) (requestId : Option PyStr) : CrashWorld F :=
  match w.process with
  | none => w
  | some _ => { w with started := requestId.toList ++ w.started }

end CrashWorld

variable (env : CrashEnvironment F)

/-- What an operation is answered, and what it does; nothing if the process is gone. -/
def crashAnswer (w : CrashWorld F) : (o : WorkerOp F) → o.Ans × CrashWorld F
  | .hasRequest requestId => (w.process.any fun tasks => (tasks.lookup requestId).isSome, w)
  | .claim requestId action =>
    w.call (env.recordedAt w.history) (env.updatedAt w.history) (.claim requestId action)
      (env.ends w.history)
  | .complete requestId status =>
    ((), (w.call (env.recordedAt w.history) (env.updatedAt w.history) (.complete requestId status)
      (env.ends w.history)).2)
  | o => (env.answer w.history o, w.starts (startedBy w.history o))

def crashMachine : Machine (WorkerSignature F) (CrashWorld F) where
  step o w :=
    let r := crashAnswer env ((env.incidents w.history).foldl CrashWorld.incident w) o
    (r.1, { r.2 with history := w.history ++ [⟨o, r.1⟩] })

/-! ### Runs -/

inductive CrashStep (F : Type) [FloatValue F] where
  | incident (i : Incident)
  | restart (found : SnapshotFound F) (now : PyStr)
  /-- The process accepts a task, or stops in it. -/
  | accept (env : CrashEnvironment F) (config : WorkerConfig) (task : PyJson F)

namespace CrashWorld

variable [WorkerLibrary]

def step (w : CrashWorld F) : CrashStep F → CrashWorld F
  | .incident i => w.incident i
  | .restart found now => w.restart found now
  | .accept env config task => ((crashMachine env).run (acceptControlTask config task) w).2

omit [WorkerLibrary] in
/-- A restart finds all requests that were claimed: their identifiers hold no pair, and each has a line
of its own in the journal or is in the snapshot that is found. -/
def Finds (w : CrashWorld F) : CrashStep F → Prop
  | .restart found _ => ∀ c ∈ w.claims, Joined c.1 ∧
      (c.1 ∈ w.recorded ∨ ∃ k text, c.2 ≤ k ∧ w.saved[k]? = some text ∧
        w.snapshotFound found = some text)
  | _ => True

/-- The restarts of a run find what was claimed. -/
def FindsAll : List (CrashStep F) → CrashWorld F → Prop
  | [], _ => True
  | s :: steps, w => w.Finds s ∧ FindsAll steps (w.step s)

end CrashWorld

end

/-! ### The journal -/

/-- A journal of glued lines, in which the requests that are recorded have a line of their own. -/
def JournalOf (F : Type) [FloatText F] (journal : List Char) (recorded : List PyStr) : Prop :=
  ∃ (lines : List (List Char)) (last : List Char), journal = lines.flatMap (· ++ ['\n']) ++ last ∧
    (∀ line ∈ lines, Glued F line) ∧ Glued F last ∧
    ∀ requestId ∈ recorded, ∃ (e : LedgerEvent) (recordedAt : PyStr), e.requestId = requestId ∧
      e.Filled ∧ e.line (F := F) recordedAt ∈ lines

section

variable {F : Type} [FloatText F] {journal : List Char} {recorded : List PyStr}

theorem journalOf_nil : JournalOf F [] [] :=
  ⟨[], [], rfl, List.forall_mem_nil _, .nil, List.forall_mem_nil _⟩

/-- What is glued to the end of a journal that ends in a line break stands alone. -/
theorem eq_nil_of_atLineStart {before last : List Char} (hlast : Glued F last)
    (h : AtLineStart (before ++ last)) : last = [] := by
  by_contra hne
  have hmem : last.getLast hne ∈ (before ++ last).getLast? := by
    rw [List.getLast?_append_of_ne_nil _ hne, List.getLast?_eq_getLast_of_ne_nil hne]
    rfl
  have hbreak := hlast.unbroken _ (List.getLast_mem hne)
  rw [h _ hmem] at hbreak
  cases hbreak

theorem JournalOf.append (h : JournalOf F journal recorded) (recordedAt : PyStr) (e : LedgerEvent) :
    JournalOf F (journal ++ (e.line (F := F) recordedAt ++ ['\n'])) (recordedAfter journal recorded e) := by
  obtain ⟨lines, last, rfl, hlines, hlast, hrecorded⟩ := h
  refine ⟨lines ++ [last ++ e.line (F := F) recordedAt], [], ?_, ?_, .nil, ?_⟩
  · simp only [List.flatMap_append, List.flatMap_cons, List.flatMap_nil, List.append_nil,
      List.append_assoc]
  · intro line hline
    rcases List.mem_append.mp hline with hline | hline
    · exact hlines line hline
    · rw [List.mem_singleton.mp hline]
      exact hlast.append (glued_of_start List.prefix_rfl)
  · have hold : ∀ requestId ∈ recorded, ∃ (e' : LedgerEvent) (recordedAt' : PyStr),
        e'.requestId = requestId ∧ e'.Filled ∧
        e'.line (F := F) recordedAt' ∈ lines ++ [last ++ e.line (F := F) recordedAt] := by
      intro requestId hmem
      obtain ⟨e', recordedAt', hid, hfilled, hline⟩ := hrecorded requestId hmem
      exact ⟨e', recordedAt', hid, hfilled, List.mem_append_left _ hline⟩
    intro requestId hmem
    rw [recordedAfter] at hmem
    by_cases hown : AtLineStart (lines.flatMap (· ++ ['\n']) ++ last) ∧ e.Filled
    · rw [if_pos hown] at hmem
      rcases List.mem_cons.mp hmem with rfl | hmem
      · refine ⟨e, recordedAt, rfl, hown.2, List.mem_append_right _ ?_⟩
        rw [eq_nil_of_atLineStart hlast hown.1]
        exact List.mem_cons_self
      · exact hold requestId hmem
    · rw [if_neg hown] at hmem
      exact hold requestId hmem

/-- A line of which only the beginning is written. -/
theorem JournalOf.tear (h : JournalOf F journal recorded) (recordedAt : PyStr) (e : LedgerEvent)
    {written : ℕ} (hwritten : written ≤ (e.line (F := F) recordedAt).length) :
    JournalOf F (journal ++ (e.line (F := F) recordedAt ++ ['\n']).take written) recorded := by
  obtain ⟨lines, last, rfl, hlines, hlast, hrecorded⟩ := h
  rw [List.take_append_of_le_length hwritten, List.append_assoc]
  exact ⟨lines, _, rfl, hlines, hlast.append (glued_of_start (List.take_prefix _ _)), hrecorded⟩

theorem JournalOf.replay (h : JournalOf F journal recorded) (now : PyStr) (tasks : Tasks F) :
    (WellKept tasks → WellKept (replayJournal now journal tasks)) ∧
      (∀ requestId, HasTask tasks requestId → HasTask (replayJournal now journal tasks) requestId) ∧
      ∀ requestId ∈ recorded, Joined requestId →
        HasTask (replayJournal now journal tasks) requestId := by
  obtain ⟨lines, last, rfl, hlines, hlast, hrecorded⟩ := h
  rw [replayJournal, splitlines_lines fun line hline => (hlines line hline).unbroken]
  have hall : ∀ line ∈ lines ++ splitlines last, Glued F line := by
    intro line hline
    rcases List.mem_append.mp hline with hline | hline
    · exact hlines line hline
    · rw [splitlines_unbroken hlast.unbroken] at hline
      split_ifs at hline
      · cases hline
      · rwa [List.mem_singleton.mp hline]
  obtain ⟨hkept, hhas⟩ := foldl_replayLine_keeps now hall tasks
  refine ⟨hkept, hhas, fun requestId hmem hjoined => ?_⟩
  obtain ⟨e, recordedAt, rfl, hfilled, hline⟩ := hrecorded requestId hmem
  exact foldl_replayLine_recovers now hall hfilled hjoined (List.mem_append_left _ hline) tasks

end

section

variable {F : Type} [FloatValue F]

/-! ### The invariant -/

/-- What holds of the files and of the process throughout a run. -/
structure CrashInv (w : CrashWorld F) : Prop where
  journal : JournalOf F w.dir.journal w.recorded
  snapshot : ∀ text, w.dir.snapshot = some text → loads (F := F) text = none ∨ text ∈ w.saved
  /-- A snapshot has the requests that were claimed when it was saved. -/
  saved : ∀ k text, w.saved[k]? = some text → ∃ tasks : Tasks F, WellKept tasks ∧
    text = snapshotText tasks ∧ ∀ c ∈ w.claims, c.2 ≤ k → HasTask tasks c.1
  process : ∀ tasks, w.process = some tasks → WellKept tasks ∧ ∀ c ∈ w.claims, HasTask tasks c.1
  claims : (w.claims.map Prod.fst).Nodup
  started : ∀ requestId ∈ w.started, requestId ∈ w.claims.map Prod.fst
  startedOnce : w.started.Nodup

theorem crashInv_initial : CrashInv (.initial : CrashWorld F) where
  journal := journalOf_nil
  snapshot _ h := by cases h
  saved _ _ h := by cases h
  process _ h := by cases h
  claims := List.nodup_nil
  started := List.forall_mem_nil _
  startedOnce := List.nodup_nil

theorem CrashInv.stop {w : CrashWorld F} (h : CrashInv w) : CrashInv w.stop :=
  ⟨h.journal, h.snapshot, h.saved, fun _ hnone => (by cases hnone), h.claims, h.started, h.startedOnce⟩

theorem CrashInv.tear {w : CrashWorld F} (h : CrashInv w) (recordedAt : PyStr) (e : LedgerEvent)
    (written : ℕ) : CrashInv (w.tear recordedAt e written) where
  journal := by
    rw [CrashWorld.tear]
    dsimp only
    by_cases hle : written ≤ (e.line (F := F) recordedAt).length
    · rw [if_neg (by rw [List.length_append, List.length_singleton]; omega)]
      exact h.journal.tear recordedAt e hle
    · have hlen : (e.line (F := F) recordedAt ++ ['\n']).length ≤ written := by
        rw [List.length_append, List.length_singleton]
        omega
      rw [if_pos hlen, List.take_of_length_le hlen]
      exact h.journal.append recordedAt e
  snapshot := h.snapshot
  saved := h.saved
  process _ hnone := by cases hnone
  claims := h.claims
  started := h.started
  startedOnce := h.startedOnce

/-- **What a call that is not refused does.** -/
theorem callLedger_spec (recordedAt updatedAt : PyStr) (dir : StateDir) {tasks : Tasks F}
    {e : LedgerEvent} (h : refuses tasks e = false) :
    ∃ item : TaskItem F, (WellKept tasks → Textual (.dict item : PyJson F)) ∧
      (callLedger recordedAt updatedAt ⟨dir, tasks⟩ e).2 =
        ⟨⟨dir.journal ++ (e.line (F := F) recordedAt ++ ['\n']),
          some (snapshotText (setItem e.requestId item tasks))⟩, setItem e.requestId item tasks⟩ := by
  cases e with
  | claim requestId action =>
    refine ⟨claimedItem action (.str updatedAt), fun _ => .dict _ (by simp [claimedItem, Textual.str]), ?_⟩
    rw [callLedger, WorkerState.claim, if_neg]
    · rfl
    · rw [Bool.not_eq_true]
      exact h
  | complete requestId status =>
    refine ⟨completedItem status (.str updatedAt) ((tasks.lookup requestId).getD []), fun hkept => ?_, rfl⟩
    refine textual_setItem (textual_setItem ?_ (.str status)) (.str updatedAt)
    cases htask : tasks.lookup requestId with
    | none => exact .dict _ (List.forall_mem_nil _)
    | some item =>
      obtain ⟨before, after, rfl, -⟩ := List.lookup_eq_some_iff.mp htask
      exact hkept (requestId, item) (List.mem_append_right _ List.mem_cons_self)

/-- **The invariant is kept by a write**, with the claim that it was for or without it. -/
theorem CrashInv.write {w : CrashWorld F} (h : CrashInv w) (recordedAt updatedAt : PyStr)
    {tasks : Tasks F} (hprocess : w.process = some tasks) {e : LedgerEvent}
    (hrefuses : refuses tasks e = false) (claims : List (PyStr × ℕ))
    (hclaims : ∀ c ∈ claims, c ∈ w.claims ∨ c = (e.requestId, w.saved.length))
    (hsubset : ∀ c ∈ w.claims, c ∈ claims) (hnodup : (claims.map Prod.fst).Nodup) :
    CrashInv { w.write recordedAt updatedAt tasks e with claims := claims } := by
  obtain ⟨item, hitem, hcall⟩ := callLedger_spec recordedAt updatedAt w.dir hrefuses
  obtain ⟨hkept, hhas⟩ := h.process tasks hprocess
  have hkept' : WellKept (setItem e.requestId item tasks) := hkept.setItem (hitem hkept)
  have hhas' : ∀ c ∈ claims, HasTask (setItem e.requestId item tasks) c.1 := by
    intro c hc
    rcases hclaims c hc with hc | rfl
    · exact mem_keys_setItem.mpr (.inr (hhas c hc))
    · exact mem_keys_setItem.mpr (.inl rfl)
  rw [CrashWorld.write, hcall]
  constructor
  · exact h.journal.append recordedAt e
  · intro text htext
    exact .inr (List.mem_append_right _ (by rw [← Option.some.inj htext]; exact List.mem_cons_self))
  · intro k text htext
    rcases Nat.lt_or_ge k w.saved.length with hlt | hge
    · rw [List.getElem?_append_left hlt] at htext
      obtain ⟨tasks', hkept, rfl, htasks'⟩ := h.saved k text htext
      refine ⟨tasks', hkept, rfl, fun c hc hle => ?_⟩
      rcases hclaims c hc with hc | rfl
      · exact htasks' c hc hle
      · exact absurd hle (not_le.mpr hlt)
    · have hk : k = w.saved.length := by
        have hlen := (List.getElem?_eq_some_iff.mp htext).1
        rw [List.length_append, List.length_singleton] at hlen
        omega
      rw [hk, List.getElem?_append_right le_rfl, Nat.sub_self] at htext
      exact ⟨_, hkept', (Option.some.inj htext).symm, fun c hc _ => hhas' c hc⟩
  · intro tasks' htasks'
    rw [← Option.some.inj htasks']
    exact ⟨hkept', hhas'⟩
  · exact hnodup
  · intro requestId hmem
    obtain ⟨c, hc, rfl⟩ := List.mem_map.mp (h.started requestId hmem)
    exact List.mem_map_of_mem (hsubset c hc)
  · exact h.startedOnce

theorem CrashInv.snapshotFound {w : CrashWorld F} (h : CrashInv w) {found : SnapshotFound F}
    {text : List Char} (hfound : w.snapshotFound found = some text) :
    loads (F := F) text = none ∨ text ∈ w.saved := by
  cases found with
  | asIs => exact h.snapshot text hfound
  | absent => cases hfound
  | stale k => exact .inr (List.mem_of_getElem? hfound)
  | damaged text' hnone =>
    obtain rfl := Option.some.inj hfound
    exact .inl hnone

/-- What is read of the snapshot that is found. One that was saved since a request was claimed has the
request, if no pair is in its identifier. -/
theorem readSnapshot_found {w : CrashWorld F} (h : CrashInv w) {found : SnapshotFound F}
    {tasks : Tasks F} (hread : readSnapshot (w.snapshotFound found) = some tasks) :
    WellKept tasks ∧ ∀ k text, w.saved[k]? = some text → w.snapshotFound found = some text →
      ∀ c ∈ w.claims, c.2 ≤ k → Joined c.1 → HasTask tasks c.1 := by
  refine ⟨?_, fun k text hsaved hfound c hc hle hjoined => ?_⟩
  · cases hfound : w.snapshotFound found with
    | none =>
      rw [hfound] at hread
      rw [← Option.some.inj hread]
      exact List.forall_mem_nil _
    | some text =>
      rw [hfound] at hread
      rcases h.snapshotFound hfound with hnone | hmem
      · rw [readSnapshot, hnone] at hread
        rw [← Option.some.inj hread]
        exact List.forall_mem_nil _
      · obtain ⟨k, hk⟩ := List.mem_iff_getElem?.mp hmem
        obtain ⟨tasks', hkept, rfl, -⟩ := h.saved k text hk
        obtain ⟨tasks'', hread', hkept', -⟩ := readSnapshot_keeps hkept
        rwa [Option.some.inj (hread.symm.trans hread')]
  · obtain ⟨tasks', hkept, rfl, htasks'⟩ := h.saved k text hsaved
    obtain ⟨tasks'', hread', -, hhas⟩ := readSnapshot_keeps hkept
    rw [hfound] at hread
    rw [Option.some.inj (hread.symm.trans hread')]
    exact hhas c.1 hjoined (htasks' c hc hle)

/-- **What a new process knows** if the restart finds what was claimed. -/
theorem load_recovers {w : CrashWorld F} (h : CrashInv w) {found : SnapshotFound F} {now : PyStr}
    (hfinds : w.Finds (.restart found now)) {tasks : Tasks F}
    (hload : load now ⟨w.dir.journal, w.snapshotFound found⟩ = some tasks) :
    WellKept tasks ∧ ∀ c ∈ w.claims, HasTask tasks c.1 := by
  obtain ⟨tasks₀, hread, rfl⟩ := Option.map_eq_some_iff.mp hload
  obtain ⟨hkept, hhas, hrecorded⟩ := h.journal.replay now tasks₀
  obtain ⟨hkept₀, hsaved⟩ := readSnapshot_found h hread
  refine ⟨hkept hkept₀, fun c hc => ?_⟩
  obtain ⟨hjoined, hmem | ⟨k, text, hle, hsome, hfound⟩⟩ := hfinds c hc
  · exact hrecorded c.1 hmem hjoined
  · exact hhas c.1 (hsaved k text hsome hfound c hc hle hjoined)

theorem CrashInv.restart {w : CrashWorld F} (h : CrashInv w) {found : SnapshotFound F} {now : PyStr}
    (hfinds : w.Finds (.restart found now)) : CrashInv (w.restart found now) :=
  ⟨h.journal, fun _ => h.snapshotFound, h.saved, fun _ => load_recovers h hfinds, h.claims, h.started,
    h.startedOnce⟩

/-! ### What a step carries -/

/-- The requests that were claimed. -/
def CrashWorld.claimedIds (w : CrashWorld F) : List PyStr := w.claims.map Prod.fst

/-- The invariant is kept, no claim is forgotten and nothing is started. -/
structure CallCarries (w w' : CrashWorld F) : Prop where
  inv : CrashInv w → CrashInv w'
  claimed : ∀ requestId ∈ w.claimedIds, requestId ∈ w'.claimedIds
  started : w'.started = w.started
  history : w'.history = w.history

omit [FloatValue F] in
theorem hasTask_of_refuses {tasks : Tasks F} {requestId action : PyStr}
    (h : refuses tasks (.claim requestId action) = false) : ¬ HasTask tasks requestId := by
  rw [hasTask_iff, Bool.not_eq_true]
  exact h

/-- The claims once a call has returned. -/
theorem CrashInv.claimed {w : CrashWorld F} (h : CrashInv w) (recordedAt updatedAt : PyStr)
    {tasks : Tasks F} (hprocess : w.process = some tasks) {e : LedgerEvent}
    (hrefuses : refuses tasks e = false) :
    CrashInv ((w.write recordedAt updatedAt tasks e).claimed w.saved.length e) := by
  cases e with
  | claim requestId action =>
    refine h.write recordedAt updatedAt hprocess hrefuses ((requestId, w.saved.length) :: w.claims) ?_ (fun c => List.mem_cons_of_mem _) ?_
    · intro c hc
      exact (List.mem_cons.mp hc).symm
    · refine List.nodup_cons.mpr ⟨fun hmem => hasTask_of_refuses hrefuses ?_, h.claims⟩
      obtain ⟨c, hc, rfl⟩ := List.mem_map.mp hmem
      exact (h.process tasks hprocess).2 c hc
  | complete requestId status =>
    exact h.write recordedAt updatedAt hprocess hrefuses w.claims (fun c => .inl)
      (fun c => id) h.claims

theorem call_carries (w : CrashWorld F) (recordedAt updatedAt : PyStr) (e : LedgerEvent)
    (ends : CallEnd) : CallCarries w (w.call recordedAt updatedAt e ends).2 := by
  rw [CrashWorld.call.eq_def]
  cases hprocess : w.process with
  | none => exact ⟨id, fun _ => id, rfl, rfl⟩
  | some tasks =>
    dsimp only
    by_cases hrefuses : refuses tasks e = true
    · rw [if_pos hrefuses]
      cases ends with
      | returns => exact ⟨id, fun _ => id, rfl, rfl⟩
      | inAppend written => exact ⟨CrashInv.stop, fun _ => id, rfl, rfl⟩
      | afterSave => exact ⟨CrashInv.stop, fun _ => id, rfl, rfl⟩
    · rw [if_neg hrefuses]
      rw [Bool.not_eq_true] at hrefuses
      cases ends with
      | returns =>
        refine ⟨fun h => h.claimed recordedAt updatedAt hprocess hrefuses, fun requestId hmem => ?_, ?_, ?_⟩
        · cases e with
          | claim id action => exact List.mem_cons_of_mem _ hmem
          | complete id status => exact hmem
        · cases e <;> rfl
        · cases e <;> rfl
      | inAppend written =>
        exact ⟨fun h => h.tear recordedAt e written, fun _ => id, rfl, rfl⟩
      | afterSave =>
        refine ⟨fun h => CrashInv.stop ?_, fun _ => id, rfl, rfl⟩
        exact h.write recordedAt updatedAt hprocess hrefuses w.claims (fun c => .inl)
          (fun c => id) h.claims

/-- **A claim that is answered `True`** was not made before, and is made now. -/
theorem call_claim_true {w : CrashWorld F} (h : CrashInv w) {recordedAt updatedAt requestId action : PyStr}
    {ends : CallEnd}
    (htrue : (w.call recordedAt updatedAt (.claim requestId action) ends).1 = true) :
    requestId ∉ w.claimedIds ∧
      requestId ∈ (w.call recordedAt updatedAt (.claim requestId action) ends).2.claimedIds := by
  rw [CrashWorld.call.eq_def] at htrue ⊢
  cases hprocess : w.process with
  | none =>
    rw [hprocess] at htrue
    cases htrue
  | some tasks =>
    rw [hprocess] at htrue
    dsimp only at htrue ⊢
    by_cases hrefuses : refuses tasks (.claim requestId action) = true
    · rw [if_pos hrefuses] at htrue
      cases ends <;> cases htrue
    · rw [if_neg hrefuses] at htrue ⊢
      rw [Bool.not_eq_true] at hrefuses
      cases ends with
      | returns =>
        refine ⟨fun hmem => hasTask_of_refuses hrefuses ?_, List.mem_cons_self⟩
        obtain ⟨c, hc, rfl⟩ := List.mem_map.mp hmem
        exact (h.process tasks hprocess).2 c hc
      | inAppend written => cases htrue
      | afterSave => cases htrue

theorem incident_carries (w : CrashWorld F) (i : Incident) : CallCarries w (w.incident i) := by
  cases i with
  | call recordedAt updatedAt e ends => exact call_carries w recordedAt updatedAt e ends
  | stop => exact ⟨CrashInv.stop, fun _ => id, rfl, rfl⟩

theorem incidents_carry (is : List Incident) (w : CrashWorld F) :
    CallCarries w (is.foldl CrashWorld.incident w) := by
  induction is generalizing w with
  | nil => exact ⟨id, fun _ => id, rfl, rfl⟩
  | cons i is ih =>
    have hfirst := incident_carries w i
    have hrest := ih (w.incident i)
    exact ⟨hrest.inv ∘ hfirst.inv, fun id hid => hrest.claimed id (hfirst.claimed id hid),
      hrest.started.trans hfirst.started, hrest.history.trans hfirst.history⟩

/-! ### Accepting a task -/

/-- A request that was claimed and whose action was not started. -/
def Unclaimed (requestId : PyStr) (w : CrashWorld F) : Prop :=
  requestId ∈ w.claimedIds ∧ requestId ∉ w.started

theorem CallCarries.fresh {w w' : CrashWorld F} (h : CallCarries w w') {requestId : PyStr}
    (hfresh : Unclaimed requestId w) : Unclaimed requestId w' :=
  ⟨h.claimed requestId hfresh.1, h.started ▸ hfresh.2⟩

/-- Only what is fresh is started. -/
theorem CrashInv.starts {w : CrashWorld F} (h : CrashInv w) {requestId : Option PyStr}
    (hfresh : ∀ id ∈ requestId, Unclaimed id w) : CrashInv (w.starts requestId) := by
  rw [CrashWorld.starts.eq_def]
  cases hprocess : w.process with
  | none => exact h
  | some tasks =>
    refine ⟨h.journal, h.snapshot, h.saved, fun _ hp => h.process _ (hprocess.trans hp), h.claims, ?_, ?_⟩
    · intro id hid
      rcases List.mem_append.mp hid with hid | hid
      · exact (hfresh id (Option.mem_toList.mp hid)).1
      · exact h.started id hid
    · cases requestId with
      | none => exact h.startedOnce
      | some id => exact List.nodup_cons.mpr ⟨(hfresh id rfl).2, h.startedOnce⟩

variable (env : CrashEnvironment F)

omit [FloatValue F] in
theorem CrashInv.of_history [FloatValue F] {w : CrashWorld F} (h : CrashInv w)
    (history : List (Event (WorkerSignature F))) : CrashInv { w with history := history } :=
  ⟨h.journal, h.snapshot, h.saved, h.process, h.claims, h.started, h.startedOnce⟩

/-- **The invariant is kept by an operation** that starts nothing but what is fresh. -/
theorem CrashInv.machine {w : CrashWorld F} (h : CrashInv w) {o : WorkerOp F}
    (hfresh : ∀ id ∈ startedBy w.history o, Unclaimed id w) : CrashInv ((crashMachine env).step o w).2 := by
  have hcarries := incidents_carry (env.incidents w.history) w
  refine CrashInv.of_history ?_ _
  have hinv := hcarries.inv h
  have hstarts : CrashInv (((env.incidents w.history).foldl CrashWorld.incident w).starts
      (startedBy ((env.incidents w.history).foldl CrashWorld.incident w).history o)) := by
    refine hinv.starts fun id hid => hcarries.fresh (hfresh id ?_)
    rwa [← hcarries.history]
  cases o with
  | hasRequest requestId => exact hinv
  | claim requestId action => exact (call_carries _ _ _ _ _).inv hinv
  | complete requestId status => exact (call_carries _ _ _ _ _).inv hinv
  | _ => exact hstarts

/-- A program that starts nothing. -/
theorem wp_startsNothing {ε α : Type} {p : Prog (WorkerSignature F) ε α}
    (hp : p.Only fun o => ∀ h, startedBy h o = none) {w : CrashWorld F} (h : CrashInv w) :
    (crashMachine env).wp (fun _ _ => True) p (fun _ => CrashInv) (fun _ => CrashInv) w :=
  Machine.wp_mono (Machine.wp_of_only (R := fun w w' => CrashInv w → CrashInv w') (fun _ => id)
    (fun h h' => h' ∘ h) (fun o w ho h => h.machine env fun id hid => by
      rw [ho] at hid
      cases hid) hp w) (fun _ _ _ => trivial) (fun _ _ hw => hw h) fun _ _ hw => hw h

/-- **What is claimed is started once.** -/
theorem startTask_crashInv {requestId action : PyStr} {parameters : Members F}
    {receipt : Option (Members F)} {w : CrashWorld F} (h : CrashInv w) :
    (crashMachine env).wp (fun _ _ => True) (startTask requestId action parameters receipt)
      (fun _ => CrashInv) (fun _ => CrashInv) w := by
  rw [startTask]
  have hinv := h.machine env (o := .claim requestId action) fun _ hid => by cases hid
  refine ⟨trivial, ?_⟩
  cases hclaim : ((crashMachine env).step (.claim requestId action) w).1 with
  | false => exact hinv
  | true =>
    have hcarries := incidents_carry (env.incidents w.history) w
    obtain ⟨hnew, hclaimed⟩ := call_claim_true (hcarries.inv h) hclaim
    have hfresh : Unclaimed requestId ((crashMachine env).step (.claim requestId action) w).2 := by
      refine ⟨hclaimed, fun hmem => hnew ?_⟩
      change requestId ∈ (CrashWorld.call _ _ _ _ _).2.started at hmem
      rw [(call_carries _ _ _ _ _).started] at hmem
      exact (hcarries.inv h).started requestId hmem
    have hlast : ((crashMachine env).step (.claim requestId action) w).2.history.getLast? =
        some ⟨.claim requestId action, true⟩ := by
      rw [← hclaim]
      exact List.getLast?_concat
    generalize ((crashMachine env).step (.claim requestId action) w).2 = w' at hinv hfresh hlast
    by_cases hobserver : action ∈ unsignedObserverActions
    · simp only [Prog.done_bind, hobserver, if_true]
      refine ⟨trivial, trivial, trivial, ?_⟩
      have hstatus := hinv.machine env (o := .statusResult) fun id hid => by
        rw [startedBy, hlast] at hid
        rwa [← Option.some.inj hid]
      have hpost (result : Members F) :=
        hstatus.machine env (o := .postResult requestId action result) fun _ hid => by cases hid
      exact (hpost _).machine env fun _ hid => by cases hid
    · simp only [Prog.done_bind, hobserver, if_false]
      refine ⟨trivial, hinv.machine env fun id hid => ?_⟩
      rwa [← Option.some.inj hid]

variable [WorkerLibrary]

theorem acceptFresh_crashInv (config : WorkerConfig) (cross : Members F) {w : CrashWorld F}
    (h : CrashInv w) :
    (crashMachine env).wp (fun _ _ => True) (acceptFresh config cross) (fun _ => CrashInv)
      (fun _ => CrashInv) w := by
  have hreject (w : CrashWorld F) (hw : CrashInv w) (action : PyStr) (result : Members F) :
      (crashMachine env).wp (fun _ _ => True) (rejectTask (requestIdOf cross) action result)
        (fun _ => CrashInv) (fun _ => CrashInv) w :=
    wp_startsNothing env (p := rejectTask (requestIdOf cross) action result)
      ⟨fun _ => rfl, fun _ => trivial⟩ hw
  refine acceptFresh_cases (P := fun p => (crashMachine env).wp (fun _ _ => True) p (fun _ => CrashInv)
    (fun _ => CrashInv) w) (hreject w h) ?_ ?_
  · intro parameters _ _
    exact startTask_crashInv env h
  · intro parameters _ _ _ _
    refine Machine.wp_bind.mpr (Machine.wp_attempt.mpr (Machine.wp_mono
      (wp_startsNothing env (verifyExecutionAuthorization_only (fun _ => rfl) (fun _ => rfl)
        (fun _ _ _ _ => rfl) config cross) h) (fun _ _ => id)
      (fun _ w' hw' => startTask_crashInv env hw') ?_))
    rintro (reason | e) w' hw'
    · exact hreject w' hw' _ _
    · exact hw'

theorem acceptControlTask_crashInv (config : WorkerConfig) (task : PyJson F) {w : CrashWorld F}
    (h : CrashInv w) :
    (crashMachine env).wp (fun _ _ => True) (acceptControlTask config task) (fun _ => CrashInv)
      (fun _ => CrashInv) w := by
  rw [acceptControlTask]
  cases crossHost config task with
  | none => exact h
  | some cross =>
    dsimp only
    by_cases hid : requestIdOf cross = []
    · rw [if_pos hid]
      exact h
    · rw [if_neg hid]
      have hinv := h.machine env (o := .hasRequest (requestIdOf cross)) fun _ hid => by cases hid
      refine ⟨trivial, ?_⟩
      cases ((crashMachine env).step (.hasRequest (requestIdOf cross)) w).1 with
      | true => exact hinv
      | false => exact acceptFresh_crashInv env config cross hinv

/-! ### Runs -/

theorem CrashInv.step {w : CrashWorld F} (h : CrashInv w) {s : CrashStep F} (hfinds : w.Finds s) :
    CrashInv (w.step s) := by
  cases s with
  | incident i => exact (incident_carries w i).inv h
  | restart found now => exact h.restart hfinds
  | accept env config task =>
    rcases (acceptControlTask_crashInv env config task h).run_world with ⟨_, hw⟩ | ⟨_, hw⟩
    · exact hw
    · exact hw

/-- **The invariant is kept by a run** whose restarts find what was claimed. -/
theorem CrashInv.run {w : CrashWorld F} (h : CrashInv w) {steps : List (CrashStep F)}
    (hfinds : w.FindsAll steps) : CrashInv (steps.foldl CrashWorld.step w) := by
  induction steps generalizing w with
  | nil => exact h
  | cons s steps ih => exact ih (h.step hfinds.1) hfinds.2

/-- **Each request is claimed and started at most once** if every restart finds what was claimed. -/
theorem claims_once (steps : List (CrashStep F)) (hfinds : CrashWorld.initial.FindsAll steps) :
    (steps.foldl CrashWorld.step .initial).claimedIds.Nodup ∧
      (steps.foldl CrashWorld.step .initial).started.Nodup := by
  have hinv := crashInv_initial.run hfinds
  exact ⟨hinv.claims, hinv.startedOnce⟩

end

/-! ### Two runs -/

section

attribute [local instance] valueTexts fixedLibrary

/-- The worker claims a request, and the next one finds a damaged snapshot. -/
def recoveredRun : List (CrashStep (List Char)) :=
  [.restart .absent [], .incident (.call [] [] (.claim (ofString "a") (ofString "ao2_doctor")) .returns),
    .restart (.damaged ['\x7b'] (by decide +kernel)) [],
    .incident (.call [] [] (.claim (ofString "a") (ofString "ao2_doctor")) .returns)]

/-- The claim of the second request comes right after a torn line. -/
def tornRun : List (CrashStep (List Char)) :=
  [.restart .absent [],
    .incident (.call [] [] (.claim (ofString "a") (ofString "ao2_doctor")) (.inAppend 10)),
    .restart .absent [],
    .incident (.call [] [] (.claim (ofString "b") (ofString "ao2_doctor")) .returns),
    .restart (.damaged ['\x7b'] (by decide +kernel)) [],
    .incident (.call [] [] (.claim (ofString "b") (ofString "ao2_doctor")) .returns)]

theorem claims_once_recoveredRun :
    (recoveredRun.foldl CrashWorld.step .initial).claimedIds.Nodup ∧
      (recoveredRun.foldl CrashWorld.step .initial).started.Nodup := by
  refine claims_once recoveredRun ⟨List.forall_mem_nil _, trivial, ?_, trivial, trivial⟩
  intro c hc
  have hclaims : c ∈ [(ofString "a", 0)] := hc
  rw [List.mem_singleton.mp hclaims]
  exact ⟨by decide, .inl (by decide +kernel)⟩

theorem claims_twice_tornRun :
    ¬ (tornRun.foldl CrashWorld.step .initial).claimedIds.Nodup := by
  decide +kernel

end

end Ao2
