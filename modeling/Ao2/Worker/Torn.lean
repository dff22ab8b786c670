import Ao2.Worker.Replay

/-!
# What is left after a stop

A process that stops while it writes to the journal leaves the beginning of a line, and the next one
that is written comes right after it. Of such a line only a whole one that stands alone is read; what
is glued together is no JSON text. So a journal that many processes wrote to is replayed as the events
whose lines stand alone, and its replay never takes a request out of the ledger.

A snapshot that was saved is read back with all requests whose identifiers hold no pair.

## Main results

* `loads_glued` — only a whole line is read
* `foldl_replayLine_keeps`, `foldl_replayLine_recovers` — the replay of many lines
-/

namespace Ao2

open Python

variable {F : Type} [FloatText F]

/-! ### Lines that are glued together -/

/-- Beginnings of the lines of events, one right after the other. -/
inductive Glued (F : Type) [FloatText F] : List Char → Prop
  | nil : Glued F []
  | piece {e : LedgerEvent} {recordedAt : PyStr} {c : Char} {q rest : List Char}
      (hq : c :: q <+: e.line (F := F) recordedAt) (hrest : Glued F rest) : Glued F (c :: q ++ rest)

/-- The members of a line, in the order in which they are written. -/
theorem line_eq (recordedAt : PyStr) (e : LedgerEvent) :
    ∃ (m : PyStr × PyJson F) (members : List (PyStr × PyJson F)),
      e.line (F := F) recordedAt = dumps .line 0 (.dict (m :: members)) ∧
      (∀ m' ∈ m :: members, Textual m'.2) ∧ Blocked (quoted m.1) := by
  have hkeys : ∀ m ∈ e.members (F := F) recordedAt, Blocked (quoted m.1) := by
    cases e <;> simp only [LedgerEvent.members, List.forall_mem_cons, List.not_mem_nil,
      IsEmpty.forall_iff, implies_true, and_true] <;> decide
  have hne : e.members (F := F) recordedAt ≠ [] := by cases e <;> simp [LedgerEvent.members]
  have hsorted := (textual_members (F := F) recordedAt e).sortKeys
  rw [LedgerEvent.line]
  rw [sortKeys, sortMembers_eq] at hsorted ⊢
  have hperm := List.perm_insertionSort (fun m m' : PyStr × PyJson F => m.1 ≤ m'.1)
    ((e.members recordedAt).map fun m => (m.1, sortKeys m.2))
  cases hmembers : ((e.members (F := F) recordedAt).map fun m => (m.1, sortKeys m.2)).insertionSort
      fun m m' => m.1 ≤ m'.1 with
  | nil =>
    rw [hmembers, List.nil_perm, List.map_eq_nil_iff] at hperm
    exact absurd hperm hne
  | cons m members =>
    rw [hmembers] at hsorted hperm
    refine ⟨m, members, rfl, ?_, ?_⟩
    · cases hsorted with
      | dict _ htextual => exact htextual
    · obtain ⟨m', hm', rfl⟩ := List.mem_map.mp (hperm.mem_iff.mp List.mem_cons_self)
      exact hkeys m' hm'

theorem Glued.interrupts {text : List Char} (h : Glued F text) : Interrupts F text := by
  induction h with
  | nil => exact interrupts_nil
  | @piece e recordedAt c q rest hq hrest ih =>
    obtain ⟨m, members, hline, htextual, hkey⟩ := line_eq (F := F) recordedAt e
    rw [hline] at hq
    exact ih.record htextual hkey hq

theorem Glued.unbroken {text : List Char} (h : Glued F text) : ∀ c ∈ text, isLineBreak c = false := by
  induction h with
  | nil => exact List.forall_mem_nil _
  | @piece e recordedAt c q rest hq hrest ih =>
    intro d hd
    rcases List.mem_append.mp hd with hd | hd
    · exact line_unbroken recordedAt e d (hq.subset hd)
    · exact ih d hd

/-- **Only a whole line is read.** -/
theorem loads_glued {text : List Char} (h : Glued F text) :
    loads (F := F) text = none ∨ ∃ (e : LedgerEvent) (recordedAt : PyStr),
      text = e.line (F := F) recordedAt := by
  cases h with
  | nil => exact .inl rfl
  | @piece e recordedAt c q rest hq hrest =>
    obtain ⟨m, members, hline, htextual, -⟩ := line_eq (F := F) recordedAt e
    by_cases hwhole : c :: q = e.line (F := F) recordedAt
    · by_cases hrestnil : rest = []
      · exact .inr ⟨e, recordedAt, by rw [hrestnil, List.append_nil, hwhole]⟩
      · left
        rw [hwhole, hline]
        exact loads_of_followed hrest.interrupts Layout.line_blank (.dict _ htextual) hrestnil
    · left
      rw [hline] at hq hwhole
      exact loads_of_torn hrest.interrupts Layout.line_blank htextual hq hwhole

theorem Glued.append {text text' : List Char} (h : Glued F text) (h' : Glued F text') :
    Glued F (text ++ text') := by
  induction h with
  | nil => exact h'
  | piece hq hrest ih =>
    rw [List.append_assoc]
    exact .piece hq ih

theorem glued_of_start {e : LedgerEvent} {recordedAt : PyStr} {p : List Char}
    (hp : p <+: e.line (F := F) recordedAt) : Glued F p := by
  cases p with
  | nil => exact .nil
  | cons c q =>
    rw [← List.append_nil (c :: q)]
    exact .piece hp .nil

/-! ### What a replay keeps -/

/-- The request is in the ledger. -/
def HasTask (tasks : Tasks F) (requestId : PyStr) : Prop := requestId ∈ tasks.map Prod.fst

/-- A snapshot can be read back: all in the items are texts. -/
def WellKept (tasks : Tasks F) : Prop := ∀ task ∈ tasks, Textual (.dict task.2 : PyJson F)

omit [FloatText F] in
theorem hasTask_iff {tasks : Tasks F} {requestId : PyStr} :
    HasTask tasks requestId ↔ (tasks.lookup requestId).isSome = true := lookup_isSome_iff.symm

omit [FloatText F] in
theorem hasTask_applyEvent {time : PyJson F} {tasks : Tasks F} {e : LedgerEvent} {requestId : PyStr} :
    HasTask (applyEvent time tasks e) requestId ↔ requestId = e.requestId ∨ HasTask tasks requestId := by
  cases e with
  | claim id action =>
    rw [applyEvent, setDefault]
    by_cases hid : (tasks.lookup id).isSome = true
    · rw [if_pos hid]
      refine ⟨.inr, ?_⟩
      rintro (rfl | h)
      · exact hasTask_iff.mpr hid
      · exact h
    · rw [if_neg hid]
      exact mem_keys_setItem
  | complete id status => exact mem_keys_setItem

omit [FloatText F] in
theorem textual_setItem {key : PyStr} {v : PyJson F} {members : List (PyStr × PyJson F)}
    (hmembers : Textual (.dict members : PyJson F)) (hv : Textual v) :
    Textual (.dict (setItem key v members) : PyJson F) := by
  cases hmembers with
  | dict _ htextual =>
    refine .dict _ fun m hm => ?_
    rcases eq_or_mem_of_mem_setItem hm with rfl | hm
    · exact hv
    · exact htextual m hm

omit [FloatText F] in
theorem WellKept.setItem {tasks : Tasks F} (h : WellKept tasks) {requestId : PyStr} {item : TaskItem F}
    (hitem : Textual (.dict item : PyJson F)) : WellKept (setItem requestId item tasks) := by
  intro task htask
  rcases eq_or_mem_of_mem_setItem htask with rfl | htask
  · exact hitem
  · exact h task htask

omit [FloatText F] in
theorem WellKept.applyEvent {tasks : Tasks F} (h : WellKept tasks) {time : PyJson F}
    (htime : Textual time) (e : LedgerEvent) : WellKept (applyEvent time tasks e) := by
  cases e with
  | claim id action =>
    rw [Ao2.applyEvent, setDefault]
    by_cases hid : (tasks.lookup id).isSome = true
    · rwa [if_pos hid]
    · rw [if_neg hid]
      exact h.setItem (.dict _ (by simp [claimedItem, Textual.str, htime]))
  | complete id status =>
    refine h.setItem (textual_setItem (textual_setItem ?_ (.str status)) htime)
    cases htask : tasks.lookup id with
    | none => exact .dict _ (List.forall_mem_nil _)
    | some item =>
      obtain ⟨before, after, rfl, -⟩ := List.lookup_eq_some_iff.mp htask
      exact h (id, item) (List.mem_append_right _ List.mem_cons_self)

/-- What a replayed line does: nothing, or what its event does. -/
theorem replayLine_glued (now : PyStr) (tasks : Tasks F) {text : List Char} (h : Glued F text) :
    replayLine now tasks text = tasks ∨ ∃ (e : LedgerEvent) (time : PyStr),
      replayLine now tasks text = applyEvent (.str time) tasks e := by
  rcases loads_glued h with hnone | ⟨e, recordedAt, rfl⟩
  · left
    rw [replayLine, hnone]
  · by_cases he : e.Filled
    · exact .inr ⟨_, _, replayLine_line now tasks he recordedAt⟩
    · exact .inl (replayLine_line_empty now tasks he recordedAt)

/-- **The replay of a line keeps the requests of the ledger**, and leaves it well kept. -/
theorem replayLine_keeps (now : PyStr) (tasks : Tasks F) {text : List Char} (h : Glued F text) :
    (WellKept tasks → WellKept (replayLine now tasks text)) ∧
      ∀ requestId, HasTask tasks requestId → HasTask (replayLine now tasks text) requestId := by
  rcases replayLine_glued now tasks h with heq | ⟨e, time, heq⟩
  · rw [heq]
    exact ⟨id, fun _ => id⟩
  · rw [heq]
    exact ⟨fun hkept => hkept.applyEvent (.str time) e, fun _ => hasTask_applyEvent.mpr ∘ .inr⟩

theorem foldl_replayLine_keeps (now : PyStr) {lines : List (List Char)} (h : ∀ line ∈ lines, Glued F line)
    (tasks : Tasks F) :
    (WellKept tasks → WellKept (lines.foldl (replayLine now) tasks)) ∧
      ∀ requestId, HasTask tasks requestId → HasTask (lines.foldl (replayLine now) tasks) requestId := by
  induction lines generalizing tasks with
  | nil => exact ⟨id, fun _ => id⟩
  | cons line lines ih =>
    obtain ⟨hkept, hhas⟩ := replayLine_keeps now tasks (h line List.mem_cons_self)
    obtain ⟨hkept', hhas'⟩ := ih (fun line hline => h line (List.mem_cons_of_mem _ hline))
      (replayLine now tasks line)
    exact ⟨hkept' ∘ hkept, fun requestId => hhas' requestId ∘ hhas requestId⟩

/-- **The replay of an event's own line recovers its request**, whatever is replayed before and
after. -/
theorem foldl_replayLine_recovers (now : PyStr) {lines : List (List Char)}
    (h : ∀ line ∈ lines, Glued F line) {e : LedgerEvent} {recordedAt : PyStr} (hfilled : e.Filled)
    (hjoined : Joined e.requestId) (hline : e.line (F := F) recordedAt ∈ lines) (tasks : Tasks F) :
    HasTask (lines.foldl (replayLine now) tasks) e.requestId := by
  obtain ⟨before, after, rfl⟩ := List.append_of_mem hline
  have hafter : ∀ line ∈ after, Glued F line := fun line hmem =>
    h line (List.mem_append_right _ (List.mem_cons_of_mem _ hmem))
  rw [List.foldl_append, List.foldl_cons, replayLine_line now _ hfilled]
  refine (foldl_replayLine_keeps now hafter _).2 _ (hasTask_applyEvent.mpr (.inl ?_))
  rw [e.requestId_normal, normal_eq_self_iff.mpr hjoined]

/-! ### Reading a snapshot -/

omit [FloatText F] in
theorem WellKept.textual {tasks : Tasks F} (h : WellKept tasks) : Textual (ledgerJson tasks) := by
  refine .dict _ ?_
  simp only [List.forall_mem_cons, List.not_mem_nil, IsEmpty.forall_iff, implies_true, and_true]
  refine ⟨.str _, .dict _ fun m hm => ?_⟩
  obtain ⟨task, htask, rfl⟩ := List.mem_map.mp hm
  exact h task htask

omit [FloatText F] in
/-- The ledger that is read of a snapshot, with the tasks in it as they are read back. -/
theorem reread_ledgerJson (tasks : Tasks F) :
    ∃ ledger members, reread (sortKeys (ledgerJson tasks)) = .dict ledger ∧
      ledger.lookup (ofString "tasks") = some (.dict members) ∧
      reread (sortKeys (.dict (tasks.map fun task => (task.1, .dict task.2)))) = .dict members := by
  obtain ⟨ledger, hledger, -, hmember⟩ := reread_sortKeys_dict
    [(ofString "schema_version", (.str ledgerSchema : PyJson F)),
      (ofString "tasks", .dict (tasks.map fun task => (task.1, .dict task.2)))]
    (by
      simp only [List.forall_mem_cons, List.not_mem_nil, IsEmpty.forall_iff, implies_true, and_true]
      decide)
    (by simp)
  obtain ⟨members, hmembers, -⟩ :=
    reread_sortKeys_members (tasks.map fun task => (task.1, (.dict task.2 : PyJson F)))
  refine ⟨ledger, members, hledger, ?_, hmembers⟩
  rw [hmember, ← hmembers]
  simp [List.lookup_cons]

/-- **What is read of a snapshot that was saved** has the requests whose identifiers hold no pair. -/
theorem readSnapshot_keeps {tasks : Tasks F} (hkept : WellKept tasks) :
    ∃ tasks' : Tasks F, readSnapshot (some (snapshotText tasks)) = some tasks' ∧ WellKept tasks' ∧
      ∀ requestId, Joined requestId → HasTask tasks requestId → HasTask tasks' requestId := by
  have hspaces : ∀ c ∈ ['\n'], isSpace c = true := List.forall_mem_singleton.mpr (by decide)
  obtain ⟨ledger, members, hledger, htasks, hmembers⟩ := reread_ledgerJson tasks
  obtain ⟨members', hmembers', hfrom, hkeys⟩ :=
    reread_sortKeys_members (tasks.map fun task => (task.1, (.dict task.2 : PyJson F)))
  obtain rfl : members = members' := PyJson.dict.inj (hmembers.symm.trans hmembers')
  have hread : loads (snapshotText tasks) = some (.dict ledger) := by
    rw [snapshotText, loads_dumps Layout.indented_blank hkept.textual.sortKeys.numberless hspaces, hledger]
  -- what is read as a task was a task
  have hdict : ∀ m ∈ members, ∃ item, m.2 = .dict item ∧ Textual (.dict item : PyJson F) := by
    intro m hm
    obtain ⟨m₀, hm₀, rfl⟩ := hfrom m hm
    obtain ⟨task, htask, rfl⟩ := List.mem_map.mp hm₀
    obtain ⟨item, hitem, -⟩ := reread_sortKeys_members task.2
    refine ⟨item, hitem, ?_⟩
    rw [← hitem]
    exact (hkept task htask).sortKeys.reread
  obtain ⟨tasks', htasks', hmap⟩ := mapM_readTask fun m hm => (hdict m hm).imp fun _ => And.left
  refine ⟨tasks', ?_, fun task htask => ?_, fun requestId hjoined hhas => ?_⟩
  · rw [readSnapshot]
    simp only [hread, readTasks, htasks, htasks']
  · have hm := List.mem_map_of_mem (f := fun task => (task.1, (.dict task.2 : PyJson F))) htask
    rw [hmap] at hm
    obtain ⟨item, hitem, htextual⟩ := hdict _ hm
    rwa [← hitem] at htextual
  · have hkey : requestId ∈ members.map Prod.fst := by
      obtain ⟨task, htask, rfl⟩ := List.mem_map.mp hhas
      have hkey := hkeys _ (List.mem_map_of_mem (f := fun task => (task.1, (.dict task.2 : PyJson F))) htask)
      rwa [normal_eq_self_iff.mpr hjoined] at hkey
    rw [← lookup_isSome_iff, ← hmap, Python.lookup_map, Option.isSome_map] at hkey
    exact hasTask_iff.mpr hkey

end Ao2
