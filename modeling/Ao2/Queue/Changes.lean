import Ao2.Queue.Entries
import Mathlib.Data.List.Chain
import Mathlib.Data.List.Nodup

/-!
# What a change of the queue keeps

Every command that writes the queue adds an entry or changes one. A change adds one record to the
history of its entry and leaves the identifiers of all entries and the other entries as they are.

## Main results

* `SoundEntries.updateEntry`, `SoundEntries.addEntry` — every history stays a run
-/

namespace Ao2

open Json

/-! ### What is read of an entry -/

theorem isObject_of_runIdOf {entry : Json} {runId : String} (h : runIdOf entry = some runId) :
    entry.isObject = true := by
  obtain ⟨v, hv, -⟩ := Option.bind_eq_some_iff.mp h
  exact isObject_of_get? hv

/-- The record of a change. -/
structure RecordOf (entry : Json) (status reason : String) (record : Json) : Prop where
  status : record.get? "status" = some (.str status)
  previous : record.get? "from" = some (.str (jsonStringOf entry "status"))
  reason : record.get? "reason" = some (.str reason)

/-- A change that queues an entry which was not queued is a requeue. -/
def requeueOf (entry : Json) (status : String) : ℕ :=
  if status = "queued" ∧ jsonStringOf entry "status" ≠ "queued" then 1 else 0

/-- **A change of an entry** moves it to a status, adds a record that says so and counts a requeue. -/
structure Records (status reason : String) (change : Json → Json) : Prop where
  isObject : ∀ entry, entry.isObject = true → (change entry).isObject = true
  keeps : ∀ entry, entry.isObject = true → runIdOf (change entry) = runIdOf entry
  moves : ∀ entry, entry.isObject = true → statusOf (change entry) = some status
  adds : ∀ entry, entry.isObject = true → ∃ record, RecordOf entry status reason record ∧
    historyOf (change entry) = historyOf entry ++ [record]
  counts : ∀ entry, entry.isObject = true → attemptsOf entry + 1 < 2 ^ 64 →
    attemptsOf (change entry) = attemptsOf entry + requeueOf entry status

/-- What is assigned to other members than those that the queue goes by. -/
structure Decorates (change : Json → Json) : Prop where
  isObject : ∀ entry, entry.isObject = true → (change entry).isObject = true
  get? : ∀ entry, entry.isObject = true → ∀ key ∈ ["run_id", "status", "transition_history", "attempts"],
    (change entry).get? key = entry.get? key

theorem get?_pushRecord {now previousStatus status reason key : String} {entry : Json}
    (hentry : entry.isObject = true) (hkey : key ≠ "transition_history") :
    (pushRecord now previousStatus status reason entry).get? key = entry.get? key :=
  get?_put_of_ne hkey hentry

theorem historyOf_pushRecord {now previousStatus status reason : String} {entry : Json}
    (hentry : entry.isObject = true) :
    historyOf (pushRecord now previousStatus status reason entry) =
      historyOf entry ++ [transitionRecord now previousStatus status reason] := by
  rw [historyOf, pushRecord, get?_put_self hentry]
  rfl

/-- A change that ends with the record of it. -/
theorem records_pushRecord {now status reason : String} {change : Json → Json}
    (hobject : ∀ entry, entry.isObject = true → (change entry).isObject = true)
    (hkeeps : ∀ entry, entry.isObject = true → (change entry).get? "run_id" = entry.get? "run_id")
    (hmoves : ∀ entry, entry.isObject = true → (change entry).get? "status" = some (.str status))
    (hadds : ∀ entry, entry.isObject = true →
      (change entry).get? "transition_history" = entry.get? "transition_history")
    (hcounts : ∀ entry, entry.isObject = true → attemptsOf entry + 1 < 2 ^ 64 →
      attemptsOf (change entry) = attemptsOf entry + requeueOf entry status) :
    Records status reason
      fun entry => pushRecord now (jsonStringOf entry "status") status reason (change entry) where
  isObject entry hentry := isObject_put (hobject entry hentry)
  keeps entry hentry := by
    rw [runIdOf, get?_pushRecord (hobject entry hentry) (by decide), hkeeps entry hentry]
    rfl
  moves entry hentry := by
    rw [statusOf, get?_pushRecord (hobject entry hentry) (by decide), hmoves entry hentry]
    rfl
  adds entry hentry := by
    refine ⟨transitionRecord now (jsonStringOf entry "status") status reason,
      ⟨get?_object _ _, get?_object _ _, get?_object _ _⟩, ?_⟩
    rw [historyOf_pushRecord (hobject entry hentry), historyOf, hadds entry hentry]
    rfl
  counts entry hentry hlt := by
    rw [← hcounts entry hentry hlt, attemptsOf, u64Of, get?_pushRecord (hobject entry hentry) (by decide)]
    rfl

/-- What is assigned before the record. -/
theorem get?_putAll_of_not_mem {entry : Json} (hentry : entry.isObject = true)
    {members : List (String × Json)} {key : String} (hkey : key ∉ members.map Prod.fst) :
    (entry.putAll members).get? key = entry.get? key := by
  rw [get?_putAll hentry, List.lookup_eq_none_iff.mpr, Option.none_or]
  intro m hm
  rw [bne_iff_ne]
  rintro rfl
  exact hkey (List.mem_map_of_mem (List.mem_reverse.mp hm))

theorem attemptsOf_put_attempts {entry : Json} (hentry : entry.isObject = true) {n : ℕ}
    (hn : n < 2 ^ 64) : attemptsOf (entry.put "attempts" (.nat n)) = n := by
  rw [attemptsOf, u64Of, get?_put_self hentry]
  change (if n < 2 ^ 64 then some n else none).getD 0 = n
  rw [if_pos hn]
  rfl

theorem attemptsOf_eq {entry entry' : Json} (h : entry.get? "attempts" = entry'.get? "attempts") :
    attemptsOf entry = attemptsOf entry' := by
  rw [attemptsOf, u64Of, h, attemptsOf, u64Of]

theorem records_transitionedEntry (status reason now : String) :
    Records status reason (transitionedEntry status reason now) := by
  refine @records_pushRecord now status reason (fun entry =>
    let moved := entry.putAll [("status", .str status), ("updated_at", .str now)]
    if status = "queued" ∧ jsonStringOf entry "status" ≠ "queued" then
      moved.put "attempts" (.nat (attemptsOf moved + 1))
    else moved) ?_ ?_ ?_ ?_ ?_
  all_goals
    intro entry hentry
    have hmoved : (entry.putAll [("status", .str status), ("updated_at", .str now)]).isObject = true :=
      isObject_putAll hentry
    dsimp only
  · split_ifs
    · exact isObject_put hmoved
    · exact hmoved
  · split_ifs
    · rw [get?_put_of_ne (by decide) hmoved, get?_putAll_of_not_mem hentry (by simp)]
    · rw [get?_putAll_of_not_mem hentry (by simp)]
  · split_ifs
    · rw [get?_put_of_ne (by decide) hmoved, get?_putAll hentry]
      rfl
    · rw [get?_putAll hentry]
      rfl
  · split_ifs
    · rw [get?_put_of_ne (by decide) hmoved, get?_putAll_of_not_mem hentry (by simp)]
    · rw [get?_putAll_of_not_mem hentry (by simp)]
  · intro hlt
    have hkept : attemptsOf (entry.putAll [("status", .str status), ("updated_at", .str now)]) =
        attemptsOf entry := attemptsOf_eq (get?_putAll_of_not_mem hentry (by simp))
    rw [requeueOf]
    split_ifs
    · rw [attemptsOf_put_attempts hmoved (by rw [hkept]; exact hlt), hkept]
    · exact hkept

/-! ### What decorates an entry -/

theorem decorates_putAll {members : List (String × Json)}
    (h : ∀ key ∈ ["run_id", "status", "transition_history", "attempts"], key ∉ members.map Prod.fst) :
    Decorates fun entry => entry.putAll members :=
  ⟨fun _ => isObject_putAll, fun _ hentry key hkey => get?_putAll_of_not_mem hentry (h key hkey)⟩

theorem decorates_putIn {outer inner : String} {member : Json}
    (h : outer ∉ ["run_id", "status", "transition_history", "attempts"]) :
    Decorates fun entry => entry.putIn outer inner member :=
  ⟨fun _ => isObject_put, fun _ hentry _ hkey =>
    get?_put_of_ne (fun heq => h (heq ▸ hkey)) hentry⟩

theorem Decorates.comp {change change' : Json → Json} (h' : Decorates change') (h : Decorates change) :
    Decorates fun entry => change' (change entry) :=
  ⟨fun entry hentry => h'.isObject _ (h.isObject entry hentry), fun entry hentry key hkey =>
    (h'.get? _ (h.isObject entry hentry) key hkey).trans (h.get? entry hentry key hkey)⟩

/-- A change that is decorated afterwards. -/
theorem Records.decorated {status reason : String} {change decorate : Json → Json}
    (h : Records status reason change) (hdecorate : Decorates decorate) :
    Records status reason fun entry => decorate (change entry) where
  isObject entry hentry := hdecorate.isObject _ (h.isObject entry hentry)
  keeps entry hentry := by
    rw [runIdOf, hdecorate.get? _ (h.isObject entry hentry) _ (by simp)]
    exact h.keeps entry hentry
  moves entry hentry := by
    rw [statusOf, hdecorate.get? _ (h.isObject entry hentry) _ (by simp)]
    exact h.moves entry hentry
  adds entry hentry := by
    obtain ⟨record, hrecord, hhistory⟩ := h.adds entry hentry
    refine ⟨record, hrecord, ?_⟩
    rw [historyOf, hdecorate.get? _ (h.isObject entry hentry) _ (by simp)]
    exact hhistory
  counts entry hentry hlt := by
    rw [attemptsOf_eq (hdecorate.get? _ (h.isObject entry hentry) _ (by simp))]
    exact h.counts entry hentry hlt

/-- A status that is assigned, decorated and recorded. -/
theorem records_completion {now status reason : String} {decorate : Json → Json}
    (h : Decorates decorate) (hstatus : status ≠ "queued") :
    Records status reason fun entry => pushRecord now (jsonStringOf entry "status") status reason
      (decorate (entry.put "status" (.str status))) := by
  refine records_pushRecord (fun entry hentry => h.isObject _ (isObject_put hentry)) ?_ ?_ ?_ ?_
  all_goals intro entry hentry
  · rw [h.get? _ (isObject_put hentry) _ (by simp), get?_put_of_ne (by decide) hentry]
  · rw [h.get? _ (isObject_put hentry) _ (by simp), get?_put_self hentry]
  · rw [h.get? _ (isObject_put hentry) _ (by simp), get?_put_of_ne (by decide) hentry]
  · intro _
    rw [requeueOf, if_neg (fun hqueued => hstatus hqueued.1), Nat.add_zero]
    refine attemptsOf_eq ?_
    rw [h.get? _ (isObject_put hentry) _ (by simp), get?_put_of_ne (by decide) hentry]

/-! ### Lists of entries -/

/-- The status of a run. -/
def statusIn (entries : List Json) (runId : String) : Option String :=
  (findEntry entries runId).bind statusOf

/-- The history of a run; empty if it has no entry. -/
def historyIn (entries : List Json) (runId : String) : List Json :=
  ((findEntry entries runId).map historyOf).getD []

/-- The records of an entry tell how it came to its status: each goes on from the one before. -/
structure IsRun (entry : Json) : Prop where
  chain : (historyOf entry).IsChain fun record next => next.get? "from" = record.get? "status"
  first : ∃ record, (historyOf entry).head? = some record ∧ record.get? "from" = none ∧
    record.get? "status" = some (.str "queued")
  last : ∃ record, (historyOf entry).getLast? = some record ∧
    record.get? "status" = entry.get? "status"
  status : ∃ status, statusOf entry = some status

/-- A record of a requeue. -/
def isRequeue (record : Json) : Bool :=
  record.get? "status" = some (.str "queued") ∧
    ∃ v ∈ record.get? "from", v ≠ .str "queued"

/-- The attempts of an entry are the requeues that its history tells, as far as they can be counted. -/
def CountsRequeues (entry : Json) : Prop :=
  (historyOf entry).countP isRequeue + 1 < 2 ^ 64 →
    attemptsOf entry = (historyOf entry).countP isRequeue

/-- The entries are about different runs, and each is the result of what its history tells. -/
structure SoundEntries (entries : List Json) : Prop where
  distinct : (entries.map runIdOf).Nodup
  named : ∀ entry ∈ entries, ∃ runId, runIdOf entry = some runId
  runs : ∀ entry ∈ entries, IsRun entry
  attempts : ∀ entry ∈ entries, CountsRequeues entry

theorem soundEntries_nil : SoundEntries [] :=
  ⟨List.nodup_nil, List.forall_mem_nil _, List.forall_mem_nil _, List.forall_mem_nil _⟩

theorem get?_of_statusOf {entry : Json} {status : String} (h : statusOf entry = some status) :
    entry.get? "status" = some (.str status) := by
  obtain ⟨v, hv, hs⟩ := Option.bind_eq_some_iff.mp h
  cases v with
  | str s => rw [hv, Option.some.inj hs]
  | _ => cases hs

/-- **An entry that is changed goes on with its run.** -/
theorem IsRun.change {entry : Json} (h : IsRun entry) (hentry : entry.isObject = true)
    {status reason : String} {change : Json → Json} (hchange : Records status reason change) :
    IsRun (change entry) := by
  obtain ⟨record, hrecord, hhistory⟩ := hchange.adds entry hentry
  obtain ⟨last, hlast, hstatus⟩ := h.last
  obtain ⟨first, hfirst, hnone, hqueued⟩ := h.first
  constructor
  · rw [hhistory, List.isChain_append]
    refine ⟨h.chain, List.isChain_singleton _, fun x hx y hy => ?_⟩
    rw [List.head?_cons, Option.mem_some_iff] at hy
    rw [hlast, Option.mem_some_iff] at hx
    obtain ⟨current, hcurrent⟩ := h.status
    rw [← hy, ← hx, hrecord.previous, hstatus, get?_of_statusOf hcurrent,
      jsonStringOf_eq (get?_of_statusOf hcurrent)]
  · refine ⟨first, ?_, hnone, hqueued⟩
    rw [hhistory, List.head?_append, hfirst, Option.some_or]
  · refine ⟨record, by rw [hhistory, List.getLast?_concat], ?_⟩
    rw [hrecord.status, get?_of_statusOf (hchange.moves entry hentry)]
  · exact ⟨status, hchange.moves entry hentry⟩

theorem isRequeue_of_recordOf {entry record : Json} {status reason : String}
    (h : RecordOf entry status reason record) : (isRequeue record).toNat = requeueOf entry status := by
  rw [isRequeue, h.status, h.previous, requeueOf]
  by_cases hqueued : status = "queued" ∧ jsonStringOf entry "status" ≠ "queued"
  · rw [if_pos hqueued]
    simp [hqueued.1, hqueued.2]
  · rw [if_neg hqueued]
    simpa using hqueued

/-- **A change counts the requeue that it is.** -/
theorem CountsRequeues.change {entry : Json} (h : CountsRequeues entry) (hentry : entry.isObject = true)
    {status reason : String} {change : Json → Json} (hchange : Records status reason change) :
    CountsRequeues (change entry) := by
  obtain ⟨record, hrecord, hhistory⟩ := hchange.adds entry hentry
  have hone : [record].countP isRequeue = requeueOf entry status := by
    rw [← isRequeue_of_recordOf hrecord, List.countP_singleton]
    cases isRequeue record <;> rfl
  intro hlt
  rw [hhistory, List.countP_append, hone] at hlt ⊢
  have hattempts := h (by omega)
  rw [hchange.counts entry hentry (by omega), hattempts]

/-! ### Entries that are looked up -/

theorem runIdOf_of_findEntry {entries : List Json} {runId : String} {entry : Json}
    (h : findEntry entries runId = some entry) : runIdOf entry = some runId := by
  simpa using List.find?_some h

theorem mem_of_findEntry {entries : List Json} {runId : String} {entry : Json}
    (h : findEntry entries runId = some entry) : entry ∈ entries := List.mem_of_find?_eq_some h

/-- **An entry is found by its run** where the runs are different. -/
theorem findEntry_eq_some_iff {entries : List Json} (h : (entries.map runIdOf).Nodup) {runId : String}
    {entry : Json} :
    findEntry entries runId = some entry ↔ entry ∈ entries ∧ runIdOf entry = some runId := by
  refine ⟨fun hfind => ⟨mem_of_findEntry hfind, runIdOf_of_findEntry hfind⟩, ?_⟩
  rintro ⟨hmem, hid⟩
  induction entries with
  | nil => cases hmem
  | cons e entries ih =>
    rw [List.map_cons, List.nodup_cons] at h
    rw [findEntry, List.find?_cons]
    rcases List.mem_cons.mp hmem with rfl | hmem
    · rw [decide_eq_true hid]
    · have hne : ¬ runIdOf e = some runId := by
        intro he
        exact h.1 (by rw [he, ← hid]; exact List.mem_map_of_mem hmem)
      rw [decide_eq_false hne]
      exact ih h.2 hmem

theorem findEntry_eq_none_iff {entries : List Json} {runId : String} :
    findEntry entries runId = none ↔ ∀ entry ∈ entries, runIdOf entry ≠ some runId := by
  rw [findEntry, List.find?_eq_none]
  simp

/-! ### Entries that are changed -/

section

variable {runId status reason : String} {change : Json → Json} (h : Records status reason change)

include h

theorem map_runIdOf_updateEntry (entries : List Json) :
    (updateEntry runId change entries).map runIdOf = entries.map runIdOf := by
  induction entries with
  | nil => rfl
  | cons entry entries ih =>
    rw [updateEntry]
    by_cases hid : runIdOf entry = some runId
    · rw [if_pos hid, List.map_cons, List.map_cons, h.keeps entry (isObject_of_runIdOf hid)]
    · rw [if_neg hid, List.map_cons, List.map_cons, ih]

theorem findEntry_updateEntry (entries : List Json) (id : String) :
    findEntry (updateEntry runId change entries) id =
      if id = runId then (findEntry entries id).map change else findEntry entries id := by
  induction entries with
  | nil => simp [findEntry, updateEntry]
  | cons entry entries ih =>
    rw [updateEntry]
    by_cases hid : runIdOf entry = some runId
    · have hchange := h.keeps entry (isObject_of_runIdOf hid)
      rw [if_pos hid, findEntry, findEntry, List.find?_cons, List.find?_cons, hchange, hid]
      by_cases heq : id = runId
      · simp [heq]
      · have hne : ¬ some runId = some id := fun hsome => heq (Option.some.inj hsome).symm
        rw [if_neg heq, decide_eq_false hne]
    · rw [if_neg hid, findEntry, List.find?_cons]
      rw [findEntry] at ih
      by_cases he : runIdOf entry = some id
      · have hne : id ≠ runId := by
          rintro rfl
          exact hid he
        rw [decide_eq_true he, if_neg hne, findEntry, List.find?_cons, decide_eq_true he]
      · rw [decide_eq_false he, findEntry, List.find?_cons, decide_eq_false he]
        exact ih

omit h in
theorem mem_updateEntry {entries : List Json} {entry : Json}
    (hmem : entry ∈ updateEntry runId change entries) :
    entry ∈ entries ∨ ∃ e ∈ entries, runIdOf e = some runId ∧ entry = change e := by
  induction entries with
  | nil => cases hmem
  | cons e entries ih =>
    rw [updateEntry] at hmem
    by_cases hid : runIdOf e = some runId
    · rw [if_pos hid] at hmem
      rcases List.mem_cons.mp hmem with rfl | hmem
      · exact .inr ⟨e, List.mem_cons_self, hid, rfl⟩
      · exact .inl (List.mem_cons_of_mem _ hmem)
    · rw [if_neg hid] at hmem
      rcases List.mem_cons.mp hmem with rfl | hmem
      · exact .inl List.mem_cons_self
      · rcases ih hmem with hmem | ⟨e', he', hid', rfl⟩
        · exact .inl (List.mem_cons_of_mem _ hmem)
        · exact .inr ⟨e', List.mem_cons_of_mem _ he', hid', rfl⟩

/-- **The entries are sound after a change.** -/
theorem SoundEntries.updateEntry {entries : List Json} (hs : SoundEntries entries) :
    SoundEntries (updateEntry runId change entries) where
  distinct := by
    rw [map_runIdOf_updateEntry h]
    exact hs.distinct
  named := by
    intro entry hentry
    have hmem := List.mem_map_of_mem (f := runIdOf) hentry
    rw [map_runIdOf_updateEntry h] at hmem
    obtain ⟨e, he, heq⟩ := List.mem_map.mp hmem
    rw [← heq]
    exact hs.named e he
  runs := by
    intro entry hentry
    rcases mem_updateEntry hentry with hentry | ⟨e, he, hid, rfl⟩
    · exact hs.runs entry hentry
    · exact (hs.runs e he).change (isObject_of_runIdOf hid) h
  attempts := by
    intro entry hentry
    rcases mem_updateEntry hentry with hentry | ⟨e, he, hid, rfl⟩
    · exact hs.attempts entry hentry
    · exact (hs.attempts e he).change (isObject_of_runIdOf hid) h

end

/-! ### Entries that are added -/

/-- An entry that is new: queued, with a record of that. -/
structure Submitted (runId reason : String) (entry : Json) : Prop where
  runId : runIdOf entry = some runId
  status : statusOf entry = some "queued"
  history : ∃ record, historyOf entry = [record] ∧ record.get? "from" = none ∧
    record.get? "status" = some (.str "queued") ∧ record.get? "reason" = some (.str reason)
  attempts : attemptsOf entry = 0

theorem Submitted.countsRequeues {runId reason : String} {entry : Json}
    (h : Submitted runId reason entry) : CountsRequeues entry := by
  obtain ⟨record, hhistory, hnone, -⟩ := h.history
  intro _
  rw [h.attempts, hhistory]
  simp [isRequeue, hnone]

theorem Submitted.isRun {runId reason : String} {entry : Json} (h : Submitted runId reason entry) :
    IsRun entry := by
  obtain ⟨record, hhistory, hnone, hqueued, -⟩ := h.history
  constructor
  · rw [hhistory]
    exact List.isChain_singleton _
  · exact ⟨record, by rw [hhistory]; rfl, hnone, hqueued⟩
  · refine ⟨record, by rw [hhistory]; rfl, ?_⟩
    rw [hqueued, get?_of_statusOf h.status]
  · exact ⟨_, h.status⟩

theorem addEntry_perm (entry : Json) (entries : List Json) :
    (addEntry entry entries).Perm (entry :: entries) :=
  (List.perm_insertionSort _ _).trans (List.perm_append_singleton _ _)

theorem mem_addEntry {entry e : Json} {entries : List Json} :
    e ∈ addEntry entry entries ↔ e = entry ∨ e ∈ entries := by
  rw [(addEntry_perm entry entries).mem_iff, List.mem_cons]

theorem nodup_addEntry {entry : Json} {entries : List Json} {runId : String}
    (hentry : runIdOf entry = some runId) (hs : (entries.map runIdOf).Nodup)
    (hnew : findEntry entries runId = none) : ((addEntry entry entries).map runIdOf).Nodup := by
  rw [((addEntry_perm entry entries).map runIdOf).nodup_iff, List.map_cons, List.nodup_cons, hentry]
  refine ⟨fun hmem => ?_, hs⟩
  obtain ⟨e, he, hid⟩ := List.mem_map.mp hmem
  exact findEntry_eq_none_iff.mp hnew e he hid

theorem findEntry_addEntry {entry : Json} {entries : List Json} {runId : String}
    (hentry : runIdOf entry = some runId) (hs : (entries.map runIdOf).Nodup)
    (hnew : findEntry entries runId = none) (id : String) :
    findEntry (addEntry entry entries) id = if id = runId then some entry else findEntry entries id := by
  refine Option.ext fun e => ?_
  rw [findEntry_eq_some_iff (nodup_addEntry hentry hs hnew), mem_addEntry]
  by_cases hid : id = runId
  · subst hid
    rw [if_pos rfl, Option.some_inj]
    refine ⟨?_, fun heq => ⟨.inl heq.symm, heq ▸ hentry⟩⟩
    rintro ⟨rfl | he, hid⟩
    · rfl
    · exact absurd hid (findEntry_eq_none_iff.mp hnew e he)
  · rw [if_neg hid, findEntry_eq_some_iff hs]
    refine ⟨?_, fun ⟨he, hid⟩ => ⟨.inr he, hid⟩⟩
    rintro ⟨rfl | he, hid'⟩
    · rw [hentry] at hid'
      exact absurd (Option.some.inj hid').symm hid
    · exact ⟨he, hid'⟩

theorem submitted_submittedEntry (runId now planPath planSha256 : String) (plan : Json) :
    Submitted runId "submitted factory-v3-compatible governed plan to AO2-native persisted queue"
      (submittedEntry runId now planPath planSha256 plan) where
  runId := by
    rw [runIdOf, submittedEntry, get?_object]
    rfl
  status := by
    rw [statusOf, submittedEntry, get?_object]
    rfl
  history := by
    refine ⟨submissionRecord now _, ?_, get?_object _ _, get?_object _ _, get?_object _ _⟩
    rw [historyOf, submittedEntry, get?_object]
    rfl
  attempts := by
    rw [attemptsOf, u64Of, submittedEntry, get?_object]
    rfl

theorem submitted_submittedProjectStart (runId now : String) (request : ProjectStartRequest) :
    Submitted runId "submitted AO2 project-start handoff job to AO2-native persisted queue"
      (submittedProjectStart runId now request) where
  runId := by
    rw [runIdOf, submittedProjectStart, get?_object]
    rfl
  status := by
    rw [statusOf, submittedProjectStart, get?_object]
    rfl
  history := by
    refine ⟨submissionRecord now _, ?_, get?_object _ _, get?_object _ _, get?_object _ _⟩
    rw [historyOf, submittedProjectStart, get?_object]
    rfl
  attempts := by
    rw [attemptsOf, u64Of, submittedProjectStart, get?_object]
    rfl

/-- **The entries are sound after a submission.** -/
theorem SoundEntries.addEntry {entries : List Json} (hs : SoundEntries entries)
    {runId reason : String} {entry : Json} (h : Submitted runId reason entry) (hnew : findEntry entries runId = none) :
    SoundEntries (addEntry entry entries) where
  distinct := nodup_addEntry h.runId hs.distinct hnew
  named := by
    intro e he
    rcases mem_addEntry.mp he with rfl | he
    · exact ⟨runId, h.runId⟩
    · exact hs.named e he
  runs := by
    intro e he
    rcases mem_addEntry.mp he with rfl | he
    · exact h.isRun
    · exact hs.runs e he
  attempts := by
    intro e he
    rcases mem_addEntry.mp he with rfl | he
    · exact h.countsRequeues
    · exact hs.attempts e he

end Ao2
