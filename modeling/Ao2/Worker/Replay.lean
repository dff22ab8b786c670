import Ao2.Worker.Ledger
import Mathlib.Data.List.Find

/-!
# Replaying the journal

Of what a ledger says about a request, the action and the status matter, and a list of events
determines both: the action is that of the first event, the status that of the last completion.
Replaying the events over a ledger that already has some of their effects therefore does no harm.

## Main results

* `foldl_apply` — the first event and the last completion decide
* `replayLine_line` — what the line of an event is replayed as
* `readSnapshot_snapshotText` — what is read of a snapshot
-/

namespace Ao2

open Python

/-! ### Actions and statuses -/

/-- The action, if the request was claimed, and the status of each request. -/
abbrev Board := PyStr → Option (Option PyStr × PyStr)

def inProgress : PyStr := ofString "in_progress"

/-- What an event does. -/
def Board.apply (b : Board) : LedgerEvent → Board
  | .claim requestId action =>
    if (b requestId).isSome then b else Function.update b requestId (some (some action, inProgress))
  | .complete requestId status =>
    Function.update b requestId (some ((b requestId).bind Prod.fst, status))

def Board.blank : Board := fun _ => none

/-- The strings on a board as they are read back. -/
def Board.normal (b : Board) : Board := fun requestId =>
  (b requestId).map fun standing => (standing.1.map Python.normal, Python.normal standing.2)

namespace LedgerEvent

def requestId : LedgerEvent → PyStr
  | claim requestId _ | complete requestId _ => requestId

/-- The action that the first event of a request gives it. -/
def action? : LedgerEvent → Option PyStr
  | claim _ action => some action
  | complete .. => none

/-- The status that an event gives a request. -/
def statusFor (requestId : PyStr) : LedgerEvent → Option PyStr
  | claim .. => none
  | complete id status => if id = requestId then some status else none

/-- The event as it is read back. -/
def normal : LedgerEvent → LedgerEvent
  | claim requestId action => claim (Python.normal requestId) (Python.normal action)
  | complete requestId status => complete (Python.normal requestId) (Python.normal status)

/-- None of the texts is empty. -/
def Filled : LedgerEvent → Prop
  | claim requestId action => requestId ≠ [] ∧ action ≠ []
  | complete requestId status => requestId ≠ [] ∧ status ≠ []

instance : DecidablePred Filled
  | claim .. => inferInstanceAs (Decidable (_ ∧ _))
  | complete .. => inferInstanceAs (Decidable (_ ∧ _))

end LedgerEvent

/-- The action that the first event for a request gives it, if there is one. -/
def firstAction (es : List LedgerEvent) (requestId : PyStr) : Option (Option PyStr) :=
  (es.find? (·.requestId = requestId)).map (·.action?)

/-- The status of the last completion of a request, if there is one. -/
def lastStatus : List LedgerEvent → PyStr → Option PyStr
  | [], _ => none
  | e :: es, requestId => (lastStatus es requestId).or (e.statusFor requestId)

theorem apply_of_ne {e : LedgerEvent} {requestId : PyStr} (h : e.requestId ≠ requestId) (b : Board) :
    b.apply e requestId = b requestId := by
  cases e with
  | claim id action =>
    have hne : requestId ≠ id := Ne.symm h
    rw [Board.apply]
    by_cases hid : (b id).isSome = true
    · rw [if_pos hid]
    · rw [if_neg hid, Function.update_of_ne hne]
  | complete id status =>
    have hne : requestId ≠ id := Ne.symm h
    rw [Board.apply, Function.update_of_ne hne]

@[simp]
theorem apply_claim_self (b : Board) (id action : PyStr) :
    b.apply (.claim id action) id = some ((b id).getD (some action, inProgress)) := by
  rw [Board.apply]
  cases hb : b id with
  | none => simp
  | some standing => simpa using hb

@[simp]
theorem apply_complete_self (b : Board) (id status : PyStr) :
    b.apply (.complete id status) id = some ((b id).bind Prod.fst, status) := by
  rw [Board.apply, Function.update_self]

/-- What a list of events says about a request. -/
def standing (es : List LedgerEvent) : Board := fun requestId =>
  (firstAction es requestId).map fun action => (action, (lastStatus es requestId).getD inProgress)

/-- **The first event and the last completion decide**, by induction on the events. -/
theorem foldl_apply (es : List LedgerEvent) (b : Board) (requestId : PyStr) :
    es.foldl Board.apply b requestId =
      match b requestId with
      | some given => some (given.1, (lastStatus es requestId).getD given.2)
      | none => standing es requestId := by
  induction es generalizing b with
  | nil => cases hb : b requestId <;> simp [standing, firstAction, lastStatus, hb]
  | cons e es ih =>
    rw [List.foldl_cons, ih]
    by_cases hid : e.requestId = requestId
    · subst hid
      have hfirst : firstAction (e :: es) e.requestId = some e.action? := by
        simp [firstAction]
      cases e with
      | claim id action =>
        simp only [LedgerEvent.requestId, LedgerEvent.action?] at hfirst
        cases hb : b id <;>
          simp [LedgerEvent.requestId, LedgerEvent.statusFor, hb, standing, hfirst, lastStatus]
      | complete id status =>
        simp only [LedgerEvent.requestId, LedgerEvent.action?] at hfirst
        cases hb : b id <;> cases hlast : lastStatus es id <;>
          simp [LedgerEvent.requestId, LedgerEvent.statusFor, hb, standing, hfirst, hlast, lastStatus]
    · have hfirst : firstAction (e :: es) requestId = firstAction es requestId := by
        simp [firstAction, hid]
      have hlast : lastStatus (e :: es) requestId = lastStatus es requestId := by
        have hnone : e.statusFor requestId = none := by
          cases e with
          | claim id action => rfl
          | complete id status => exact if_neg hid
        rw [lastStatus, hnone, Option.or_none]
      rw [apply_of_ne hid, standing, standing, hfirst, hlast]

theorem foldl_apply_blank (es : List LedgerEvent) : es.foldl Board.apply .blank = standing es :=
  funext fun requestId => foldl_apply es .blank requestId

/-! ### Replaying over an earlier ledger -/

theorem firstAction_append {es es' : List LedgerEvent} {requestId : PyStr} {action : Option PyStr}
    (h : firstAction es requestId = some action) :
    firstAction (es ++ es') requestId = some action := by
  obtain ⟨e, he, rfl⟩ := Option.map_eq_some_iff.mp h
  rw [firstAction, List.find?_append, he]
  rfl

theorem lastStatus_append (es es' : List LedgerEvent) (requestId : PyStr) :
    lastStatus (es ++ es') requestId = (lastStatus es' requestId).or (lastStatus es requestId) := by
  induction es with
  | nil => simp [lastStatus]
  | cons e es ih => rw [List.cons_append, lastStatus, lastStatus, ih, Option.or_assoc]

namespace LedgerEvent

theorem requestId_normal (e : LedgerEvent) : e.normal.requestId = Python.normal e.requestId := by
  cases e <;> rfl

theorem action?_normal (e : LedgerEvent) : e.normal.action? = e.action?.map Python.normal := by
  cases e <;> rfl

theorem statusFor_normal {e : LedgerEvent} (h : Joined e.requestId) (requestId : PyStr) :
    e.normal.statusFor requestId = (e.statusFor requestId).map Python.normal := by
  cases e with
  | claim id action => rfl
  | complete id status =>
    have hid : Python.normal id = id := normal_eq_self_iff.mpr h
    rw [normal, statusFor, statusFor, hid]
    by_cases heq : id = requestId
    · rw [if_pos heq, if_pos heq, Option.map_some]
    · rw [if_neg heq, if_neg heq, Option.map_none]

end LedgerEvent

theorem firstAction_normal {es : List LedgerEvent} (hes : ∀ e ∈ es, Joined e.requestId)
    (requestId : PyStr) :
    firstAction (es.map .normal) requestId =
      (firstAction es requestId).map (Option.map Python.normal) := by
  have hsame : es.find? (fun e => e.normal.requestId = requestId) =
      es.find? (fun e => e.requestId = requestId) := by
    refine List.find?_congr fun e he => ?_
    rw [LedgerEvent.requestId_normal, normal_eq_self_iff.mpr (hes e he)]
  rw [firstAction, firstAction, List.find?_map, Option.map_map, Option.map_map]
  change (es.find? fun e => e.normal.requestId = requestId).map _ = _
  rw [hsame]
  exact Option.map_congr fun e _ => e.action?_normal

theorem lastStatus_normal {es : List LedgerEvent} (hes : ∀ e ∈ es, Joined e.requestId)
    (requestId : PyStr) :
    lastStatus (es.map .normal) requestId = (lastStatus es requestId).map Python.normal := by
  induction es with
  | nil => rfl
  | cons e es ih =>
    rw [List.map_cons, lastStatus, lastStatus, ih fun e he => hes e (List.mem_cons_of_mem _ he),
      LedgerEvent.statusFor_normal (hes e List.mem_cons_self)]
    cases lastStatus es requestId <;> rfl

theorem normal_inProgress : Python.normal inProgress = inProgress :=
  normal_eq_self_iff.mpr (by decide)

theorem standing_normal {es : List LedgerEvent} (hes : ∀ e ∈ es, Joined e.requestId) :
    standing (es.map .normal) = (standing es).normal := by
  funext requestId
  rw [standing, Board.normal, standing, firstAction_normal hes, lastStatus_normal hes,
    Option.map_map, Option.map_map]
  refine Option.map_congr fun action _ => Prod.ext rfl ?_
  cases lastStatus es requestId with
  | none => exact normal_inProgress.symm
  | some status => rfl

/-- **Replaying events over what the first of them left does no harm.** -/
theorem replay_over_earlier {es es' : List LedgerEvent} (hes : ∀ e ∈ es ++ es', Joined e.requestId) :
    ((es ++ es').map .normal).foldl Board.apply (standing es).normal =
      (standing (es ++ es')).normal := by
  funext requestId
  rw [foldl_apply, lastStatus_normal hes, standing_normal hes]
  cases hfirst : firstAction es requestId with
  | none => simp [standing, hfirst, Board.normal]
  | some action =>
    simp only [standing, hfirst, firstAction_append hfirst, Board.normal, Option.map_some,
      lastStatus_append]
    cases lastStatus es' requestId <;> cases lastStatus es requestId <;> simp

/-! ### The tasks of a ledger -/

section

variable {F : Type}

/-- The action and the status of an item. -/
def viewItem (item : TaskItem F) : Option (PyJson F) × Option (PyJson F) :=
  (item.lookup (ofString "action"), item.lookup (ofString "status"))

/-- The tasks have the actions and the statuses of the board, and no others. -/
def Represents (tasks : Tasks F) (b : Board) : Prop :=
  ∀ requestId, (tasks.lookup requestId).map viewItem =
    (b requestId).map fun given => (given.1.map .str, some (.str given.2))

theorem represents_blank : Represents ([] : Tasks F) .blank := fun _ => rfl

theorem Represents.isSome_eq {tasks : Tasks F} {b : Board} (h : Represents tasks b)
    (requestId : PyStr) : (tasks.lookup requestId).isSome = (b requestId).isSome := by
  have hid := congrArg Option.isSome (h requestId)
  rwa [Option.isSome_map, Option.isSome_map] at hid

theorem Represents.setItem {tasks : Tasks F} {b : Board} (h : Represents tasks b)
    {requestId : PyStr} {item : TaskItem F} {given : Option PyStr × PyStr}
    (hitem : viewItem item = (given.1.map .str, some (.str given.2))) :
    Represents (setItem requestId item tasks) (Function.update b requestId (some given)) := by
  intro id
  by_cases hid : id = requestId
  · subst hid
    rw [lookup_setItem_self, Function.update_self, Option.map_some, Option.map_some, hitem]
  · rw [lookup_setItem_of_ne hid, Function.update_of_ne hid, h id]

theorem viewItem_claimedItem (action : PyStr) (time : PyJson F) :
    viewItem (claimedItem action time) = (some (.str action), some (.str inProgress)) := by
  simp [viewItem, claimedItem, List.lookup_cons, inProgress]

theorem viewItem_completedItem (status : PyStr) (time : PyJson F) (item : TaskItem F) :
    viewItem (completedItem status time item) = ((viewItem item).1, some (.str status)) := by
  have haction : ofString "action" ≠ ofString "completed_at" ∧
      ofString "action" ≠ ofString "status" := by simp
  have hstatus : ofString "status" ≠ ofString "completed_at" := by simp
  rw [viewItem, completedItem, lookup_setItem_of_ne haction.1, lookup_setItem_of_ne haction.2,
    lookup_setItem_of_ne hstatus, lookup_setItem_self, viewItem]

/-- **An event does to the tasks what it does to the board.** -/
theorem Represents.applyEvent {tasks : Tasks F} {b : Board} (h : Represents tasks b)
    (time : PyJson F) (e : LedgerEvent) : Represents (applyEvent time tasks e) (b.apply e) := by
  cases e with
  | claim id action =>
    rw [Ao2.applyEvent, setDefault, Board.apply, h.isSome_eq]
    by_cases hid : (b id).isSome = true
    · rwa [if_pos hid, if_pos hid]
    · rw [if_neg hid, if_neg hid]
      exact h.setItem (viewItem_claimedItem action time)
  | complete id status =>
    rw [Ao2.applyEvent, Board.apply]
    refine h.setItem ?_
    have haction : (viewItem ((tasks.lookup id).getD [])).1 = ((b id).bind Prod.fst).map .str := by
      have hid := h id
      cases htask : tasks.lookup id with
      | none =>
        rw [htask, Option.map_none, eq_comm, Option.map_eq_none_iff] at hid
        rw [hid]
        rfl
      | some item =>
        rw [htask, Option.map_some, eq_comm, Option.map_eq_some_iff] at hid
        obtain ⟨given, hgiven, hitem⟩ := hid
        rw [hgiven, Option.getD_some, ← hitem]
        rfl
    rw [viewItem_completedItem, haction]

/-! ### Reading a line -/

theorem nodup_members (recordedAt : PyStr) (e : LedgerEvent) :
    ((e.members (F := F) recordedAt).map Prod.fst).Nodup := by
  cases e <;> simp [LedgerEvent.members]

theorem joined_members (recordedAt : PyStr) (e : LedgerEvent) :
    ∀ m ∈ e.members (F := F) recordedAt, Joined m.1 := by
  cases e <;> simp only [LedgerEvent.members, List.forall_mem_cons, List.not_mem_nil,
    IsEmpty.forall_iff, implies_true, and_true] <;> decide

theorem textual_members (recordedAt : PyStr) (e : LedgerEvent) :
    Textual (.dict (e.members recordedAt) : PyJson F) := by
  refine .dict _ ?_
  cases e <;> simp [LedgerEvent.members, Textual.str]

/-- A text of a record that is read back. -/
theorem textOf_reread {members members' : List (PyStr × PyJson F)}
    (hlookup : ∀ key, members'.lookup key = (members.lookup key).map fun v => reread (sortKeys v))
    (key : String) {s : PyStr} (h : members.lookup (ofString key) = some (.str s)) (hs : s ≠ []) :
    textOf members' key = some (Python.normal s) := by
  have hread : members'.lookup (ofString key) = some (.str (Python.normal s)) := by
    rw [hlookup, h]
    rfl
  rw [textOf, hread]
  exact if_neg (normal_ne_nil hs)

/-- An empty text is none. -/
theorem textOf_reread_nil {members members' : List (PyStr × PyJson F)}
    (hlookup : ∀ key, members'.lookup key = (members.lookup key).map fun v => reread (sortKeys v))
    (key : String) (h : members.lookup (ofString key) = some (.str [])) : textOf members' key = none := by
  have hread : members'.lookup (ofString key) = some (.str []) := by
    rw [hlookup, h]
    rfl
  rw [textOf, hread]
  rfl

theorem normal_ofString {s : String} (h : Joined (ofString s)) :
    Python.normal (ofString s) = ofString s := normal_eq_self_iff.mpr h

/-- **The event of a line is read back**, with the pairs of its texts joined. -/
theorem readEvent_reread {e : LedgerEvent} (he : e.Filled) (recordedAt : PyStr)
    {members' : List (PyStr × PyJson F)}
    (hlookup : ∀ key, members'.lookup key =
      ((e.members (F := F) recordedAt).lookup key).map fun v => reread (sortKeys v)) :
    readEvent members' = some e.normal := by
  have hschema : textOf members' "schema_version" = some ledgerEventSchema := by
    rw [textOf_reread hlookup _ (s := ledgerEventSchema) _ (by decide)]
    · exact congrArg some (normal_ofString (by decide))
    · cases e <;> simp [LedgerEvent.members]
  rw [readEvent, if_neg (not_not_intro hschema)]
  cases e with
  | claim id action =>
    have hid := textOf_reread hlookup "request_id" (s := id)
      (by simp [LedgerEvent.members, List.lookup_cons]) he.1
    have hevent := textOf_reread hlookup "event" (s := ofString "claim")
      (by simp [LedgerEvent.members, List.lookup_cons]) (by decide)
    have haction := textOf_reread hlookup "action" (s := action)
      (by simp [LedgerEvent.members, List.lookup_cons]) he.2
    rw [hid, hevent, haction, normal_ofString (by decide)]
    rfl
  | complete id status =>
    have hid := textOf_reread hlookup "request_id" (s := id)
      (by simp [LedgerEvent.members, List.lookup_cons]) he.1
    have hevent := textOf_reread hlookup "event" (s := ofString "complete")
      (by simp [LedgerEvent.members, List.lookup_cons]) (by decide)
    have hstatus := textOf_reread hlookup "status" (s := status)
      (by simp [LedgerEvent.members, List.lookup_cons]) he.2
    rw [hid, hevent, hstatus, normal_ofString (by decide)]
    rfl

/-- An event with an empty text is not read. -/
theorem readEvent_reread_empty {e : LedgerEvent} (he : ¬ e.Filled) (recordedAt : PyStr)
    {members' : List (PyStr × PyJson F)}
    (hlookup : ∀ key, members'.lookup key =
      ((e.members (F := F) recordedAt).lookup key).map fun v => reread (sortKeys v)) :
    readEvent members' = none := by
  have hid : e.requestId = [] → textOf members' "request_id" = none := by
    intro hempty
    refine textOf_reread_nil hlookup _ ?_
    cases e <;> simp_all [LedgerEvent.members, List.lookup_cons, LedgerEvent.requestId]
  rw [readEvent]
  split
  · rfl
  · split
    · next requestId event hrequest hevent =>
      have hfull : e.requestId ≠ [] := fun hempty => by
        rw [hid hempty] at hrequest
        cases hrequest
      cases e with
      | claim id action =>
        have haction : action = [] := of_not_not fun h => he ⟨hfull, h⟩
        have hnone := textOf_reread_nil hlookup "action"
          (by simp [LedgerEvent.members, List.lookup_cons, haction])
        have hclaim := textOf_reread hlookup "event" (s := ofString "claim")
          (by simp [LedgerEvent.members, List.lookup_cons]) (by decide)
        rw [hevent, normal_ofString (by decide)] at hclaim
        rw [Option.some.inj hclaim, if_pos rfl, hnone]
        rfl
      | complete id status =>
        have hstatus : status = [] := of_not_not fun h => he ⟨hfull, h⟩
        have hnone := textOf_reread_nil hlookup "status"
          (by simp [LedgerEvent.members, List.lookup_cons, hstatus])
        have hcomplete := textOf_reread hlookup "event" (s := ofString "complete")
          (by simp [LedgerEvent.members, List.lookup_cons]) (by decide)
        rw [hevent, normal_ofString (by decide)] at hcomplete
        rw [Option.some.inj hcomplete, if_neg (by simp), if_pos rfl, hnone]
        rfl
    · rfl

variable [FloatText F]

/-- What is read of a line. -/
theorem loads_line (e : LedgerEvent) (recordedAt : PyStr) :
    ∃ members' : List (PyStr × PyJson F), loads (e.line (F := F) recordedAt) = some (.dict members') ∧
      ∀ key, members'.lookup key =
        ((e.members (F := F) recordedAt).lookup key).map fun v => reread (sortKeys v) := by
  obtain ⟨members', hreread, -, hlookup⟩ :=
    reread_sortKeys_dict (e.members (F := F) recordedAt) (joined_members recordedAt e)
      (nodup_members recordedAt e)
  have hread : loads (e.line (F := F) recordedAt) = some (.dict members') := by
    have hspaces : ∀ c ∈ ([] : List Char), isSpace c = true := fun _ h => nomatch h
    rw [← hreread, ← loads_dumps Layout.line_blank (textual_members recordedAt e).sortKeys.numberless hspaces,
      List.append_nil]
    rfl
  exact ⟨members', hread, hlookup⟩

/-- **What the line of an event is replayed as.** -/
theorem replayLine_line (now : PyStr) (tasks : Tasks F) {e : LedgerEvent} (he : e.Filled)
    (recordedAt : PyStr) :
    replayLine now tasks (e.line (F := F) recordedAt) =
      Ao2.applyEvent (.str (Python.normal recordedAt)) tasks e.normal := by
  obtain ⟨members', hread, hlookup⟩ := loads_line (F := F) e recordedAt
  have htime : members'.lookup (ofString "recorded_at_utc") =
      some (.str (Python.normal recordedAt)) := by
    have htime : (e.members (F := F) recordedAt).lookup (ofString "recorded_at_utc") =
        some (.str recordedAt) := by
      cases e <;> simp [LedgerEvent.members, List.lookup_cons]
    rw [hlookup, htime]
    rfl
  rw [replayLine, hread]
  simp only [readEvent_reread he recordedAt hlookup, htime, Option.getD_some]

/-- The line of an event with an empty text is passed over. -/
theorem replayLine_line_empty (now : PyStr) (tasks : Tasks F) {e : LedgerEvent} (he : ¬ e.Filled)
    (recordedAt : PyStr) : replayLine now tasks (e.line (F := F) recordedAt) = tasks := by
  obtain ⟨members', hread, hlookup⟩ := loads_line (F := F) e recordedAt
  rw [replayLine, hread]
  simp only [readEvent_reread_empty he recordedAt hlookup]

/-- The lines of a list of events. -/
def journalOf (es : List (PyStr × LedgerEvent)) : List Char :=
  es.flatMap fun e => e.2.line (F := F) e.1 ++ ['\n']

theorem line_unbroken (recordedAt : PyStr) (e : LedgerEvent) :
    ∀ c ∈ e.line (F := F) recordedAt, isLineBreak c = false :=
  dumps_line_unbroken (textual_members recordedAt e).sortKeys 0

/-- A journal splits where its lines end. -/
theorem splitlines_journalOf (es : List (PyStr × LedgerEvent)) :
    splitlines (journalOf (F := F) es) = es.map fun e => e.2.line (F := F) e.1 := by
  have hlines : ∀ line ∈ es.map (fun e => e.2.line (F := F) e.1), ∀ c ∈ line, isLineBreak c = false := by
    simp only [List.forall_mem_map]
    exact fun e _ => line_unbroken e.1 e.2
  have hsplit := splitlines_lines hlines []
  rw [List.flatMap_map, List.append_nil] at hsplit
  rw [journalOf, hsplit]
  exact List.append_nil _

/-- **Replaying a journal does to the tasks what its events do to the board.** -/
theorem Represents.replayJournal {tasks : Tasks F} {b : Board} (h : Represents tasks b)
    {es : List (PyStr × LedgerEvent)} (hes : ∀ e ∈ es, e.2.Filled) (now : PyStr) :
    Represents (replayJournal now (journalOf (F := F) es) tasks)
      ((es.map fun e => e.2.normal).foldl Board.apply b) := by
  rw [Ao2.replayJournal, splitlines_journalOf]
  induction es generalizing tasks b with
  | nil => exact h
  | cons e es ih =>
    rw [List.map_cons, List.foldl_cons, List.map_cons, List.foldl_cons,
      replayLine_line now tasks (hes e List.mem_cons_self)]
    exact ih (h.applyEvent _ _) fun e he => hes e (List.mem_cons_of_mem _ he)

/-! ### Reading a snapshot -/

/-- An item that is written and read back as it is, up to the pairs of its texts. -/
structure SoundItem (item : TaskItem F) : Prop where
  textual : ∀ m ∈ item, Textual m.2
  joined : ∀ m ∈ item, Joined m.1
  nodup : (item.map Prod.fst).Nodup

structure SoundTasks (tasks : Tasks F) : Prop where
  items : ∀ task ∈ tasks, SoundItem task.2
  nodup : (tasks.map Prod.fst).Nodup

omit [FloatText F] in
theorem SoundItem.setItem {item : TaskItem F} (h : SoundItem item) (key : PyStr) (hkey : Joined key)
    {v : PyJson F} (hv : Textual v) : SoundItem (setItem key v item) where
  textual := by
    intro m hm
    rcases eq_or_mem_of_mem_setItem hm with rfl | hm
    · exact hv
    · exact h.textual m hm
  joined := by
    intro m hm
    rcases eq_or_mem_of_mem_setItem hm with rfl | hm
    · exact hkey
    · exact h.joined m hm
  nodup := nodup_setItem h.nodup

omit [FloatText F] in
theorem soundItem_nil : SoundItem ([] : TaskItem F) :=
  ⟨List.forall_mem_nil _, List.forall_mem_nil _, List.nodup_nil⟩

omit [FloatText F] in
theorem SoundTasks.setItem {tasks : Tasks F} (h : SoundTasks tasks) (requestId : PyStr)
    {item : TaskItem F} (hitem : SoundItem item) : SoundTasks (setItem requestId item tasks) where
  items := by
    intro task htask
    rcases eq_or_mem_of_mem_setItem htask with rfl | htask
    · exact hitem
    · exact h.items task htask
  nodup := nodup_setItem h.nodup

omit [FloatText F] in
theorem soundItem_claimedItem (action : PyStr) {time : PyJson F} (htime : Textual time) :
    SoundItem (claimedItem action time) :=
  ((soundItem_nil.setItem (ofString "action") (by decide) (.str action)).setItem
    (ofString "status") (by decide) (.str (ofString "in_progress"))).setItem
    (ofString "started_at") (by decide) htime

omit [FloatText F] in
theorem SoundTasks.applyEvent {tasks : Tasks F} (h : SoundTasks tasks) {time : PyJson F}
    (htime : Textual time) (e : LedgerEvent) : SoundTasks (applyEvent time tasks e) := by
  cases e with
  | claim id action =>
    rw [Ao2.applyEvent, setDefault]
    by_cases hid : (tasks.lookup id).isSome = true
    · rwa [if_pos hid]
    · rw [if_neg hid]
      exact h.setItem id (soundItem_claimedItem action htime)
  | complete id status =>
    have hitem : SoundItem ((tasks.lookup id).getD []) := by
      cases htask : tasks.lookup id with
      | none => exact soundItem_nil
      | some item => exact h.items _ ((lookup_eq_some_iff h.nodup).mp htask)
    exact h.setItem id
      ((hitem.setItem _ (by decide) (.str status)).setItem _ (by decide) htime)

omit [FloatText F] in
/-- Tasks that are dictionaries are read as they are. -/
theorem mapM_readTask {members : List (PyStr × PyJson F)}
    (h : ∀ m ∈ members, ∃ item, m.2 = .dict item) :
    ∃ tasks : Tasks F, members.mapM readTask = some tasks ∧
      (tasks.map fun task => (task.1, .dict task.2)) = members := by
  induction members with
  | nil => exact ⟨[], rfl, rfl⟩
  | cons m members ih =>
    obtain ⟨tasks, htasks, hmap⟩ := ih fun m hm => h m (List.mem_cons_of_mem _ hm)
    obtain ⟨item, hitem⟩ := h m List.mem_cons_self
    refine ⟨(m.1, item) :: tasks, ?_, ?_⟩
    · rw [List.mapM_cons, htasks, readTask, hitem]
      rfl
    · rw [List.map_cons, hmap, ← hitem]

omit [FloatText F] in
theorem SoundTasks.textual {tasks : Tasks F} (h : SoundTasks tasks) : Textual (ledgerJson tasks) := by
  refine .dict _ ?_
  simp only [List.forall_mem_cons, List.not_mem_nil, IsEmpty.forall_iff, implies_true, and_true]
  refine ⟨.str _, .dict _ fun m hm => ?_⟩
  obtain ⟨task, htask, rfl⟩ := List.mem_map.mp hm
  exact .dict _ (h.items task htask).textual

omit [FloatText F] in
/-- What is seen of an item that is read back. -/
theorem viewItem_reread {item item' : TaskItem F} {given : Option PyStr × PyStr}
    (hitem : viewItem item = (given.1.map .str, some (.str given.2)))
    (hlookup : ∀ key, item'.lookup key = (item.lookup key).map fun v => reread (sortKeys v)) :
    viewItem item' = ((given.1.map Python.normal).map .str, some (.str (Python.normal given.2))) := by
  obtain ⟨haction, hstatus⟩ := Prod.mk.inj hitem
  rw [viewItem, hlookup, hlookup, haction, hstatus, Option.map_map, Option.map_map]
  rfl

/-- **What is read of a snapshot**, if no identifier holds a pair. -/
theorem readSnapshot_snapshotText {tasks : Tasks F} (hsound : SoundTasks tasks)
    (hjoined : ∀ task ∈ tasks, Joined task.1) {b : Board} (h : Represents tasks b) :
    ∃ tasks' : Tasks F, readSnapshot (some (snapshotText tasks)) = some tasks' ∧
      Represents tasks' b.normal := by
  have hspaces : ∀ c ∈ ['\n'], isSpace c = true := List.forall_mem_singleton.mpr (by decide)
  have hkeys : (tasks.map fun task => (task.1, (.dict task.2 : PyJson F))).map Prod.fst =
      tasks.map Prod.fst := by
    rw [List.map_map]
    rfl
  -- the ledger, then its tasks
  obtain ⟨ledger, hledger, -, hmember⟩ := reread_sortKeys_dict
    [(ofString "schema_version", (.str ledgerSchema : PyJson F)),
      (ofString "tasks", .dict (tasks.map fun task => (task.1, .dict task.2)))]
    (by
      simp only [List.forall_mem_cons, List.not_mem_nil, IsEmpty.forall_iff, implies_true, and_true]
      decide)
    (by simp)
  obtain ⟨members, hmembers, hnodup, hlookup⟩ := reread_sortKeys_dict
    (tasks.map fun task => (task.1, (.dict task.2 : PyJson F)))
    (by simpa only [List.forall_mem_map] using hjoined) (by rw [hkeys]; exact hsound.nodup)
  have hread : loads (snapshotText tasks) = some (.dict ledger) := by
    rw [snapshotText, loads_dumps Layout.indented_blank hsound.textual.sortKeys.numberless hspaces, ← hledger]
    rfl
  have htasks : ledger.lookup (ofString "tasks") = some (.dict members) := by
    rw [hmember, ← hmembers]
    simp [List.lookup_cons]
  -- each task is read as a dictionary
  have hitem : ∀ requestId item, tasks.lookup requestId = some item →
      ∃ item', members.lookup requestId = some (.dict item') ∧
        ∀ key, item'.lookup key = (item.lookup key).map fun v => reread (sortKeys v) := by
    intro requestId item htask
    have hsounditem := hsound.items _ ((lookup_eq_some_iff hsound.nodup).mp htask)
    obtain ⟨item', hreread, -, hitem'⟩ :=
      reread_sortKeys_dict item hsounditem.joined hsounditem.nodup
    refine ⟨item', ?_, hitem'⟩
    rw [hlookup, Python.lookup_map, htask, ← hreread]
    rfl
  have hnone : ∀ requestId, tasks.lookup requestId = none → members.lookup requestId = none := by
    intro requestId htask
    rw [hlookup, Python.lookup_map, htask]
    rfl
  obtain ⟨tasks', htasks', hmap⟩ := mapM_readTask (by
    intro m hm
    have hm := (lookup_eq_some_iff hnodup).mpr hm
    cases htask : tasks.lookup m.1 with
    | none => rw [hnone _ htask] at hm; cases hm
    | some item =>
      obtain ⟨item', hitem', -⟩ := hitem _ _ htask
      exact ⟨item', Option.some.inj (hm.symm.trans hitem')⟩)
  have hlookup' : ∀ requestId, (tasks'.lookup requestId).map .dict = members.lookup requestId := by
    intro requestId
    rw [← hmap, Python.lookup_map]
  refine ⟨tasks', ?_, fun requestId => ?_⟩
  · rw [readSnapshot]
    simp only [hread, readTasks, htasks, htasks']
  · have hid := h requestId
    cases htask : tasks.lookup requestId with
    | none =>
      rw [htask, Option.map_none, eq_comm, Option.map_eq_none_iff] at hid
      have hnone' : tasks'.lookup requestId = none := by
        rw [← Option.map_eq_none_iff, hlookup', hnone _ htask]
      rw [hnone', Board.normal, hid]
      rfl
    | some item =>
      rw [htask, Option.map_some, eq_comm, Option.map_eq_some_iff] at hid
      obtain ⟨given, hgiven, hview⟩ := hid
      obtain ⟨item', hitem', hread'⟩ := hitem _ _ htask
      have hsome : tasks'.lookup requestId = some item' := by
        have := hlookup' requestId
        rw [hitem', Option.map_eq_some_iff] at this
        obtain ⟨item'', htask', heq⟩ := this
        rw [htask', PyJson.dict.inj heq]
      rw [hsome, Option.map_some, viewItem_reread hview.symm hread', Board.normal, hgiven]
      rfl

end

end Ao2
