import Ao2.Interaction.Oracle
import Ao2.Queue.Runs

/-!
# An entry whose execution fails

A call that fails after it has chosen an entry blocks the entry at many of its steps, and at some it
does not: the entry stays `queued`, or `running`, and no call will choose it or go on to the next one.
What is done alone, without another process, is enough for that.

## Main results

* `alone_transition`, `alone_refuse` — what a transition does to the file
* `Running.settled` — a step that fails without a transition
-/

namespace Ao2

open Interaction

/-! ### One call alone -/

/-- The queue file and what was said so far. -/
abbrev AloneWorld := Option Json × List (Event QueueSignature)

/-- The target is there and its queue file can be read and replaced; every other operation is answered
in any way at all. -/
def aloneStep (root : String) (f : Oracle QueueSignature) (w : AloneWorld) :
    (o : QueueOp) → o.Ans × Option Json
  | .readQueueFile => (.ok w.1, w.1)
  | .writeQueueFile queue => (.ok (), some queue)
  | .pathExists _ => (true, w.1)
  | .canonicalize _ => (.ok root, w.1)
  | o => (f w.2 o, w.1)

def aloneMachine (root : String) (f : Oracle QueueSignature) : Machine QueueSignature AloneWorld where
  step o w := ((aloneStep root f w o).1, (aloneStep root f w o).2, w.2 ++ [⟨o, (aloneStep root f w o).1⟩])

/-- The entry that a call chooses. -/
def chosenEntry (root : String) (file : Option Json) : Except String Json := do
  let queue ← loadedQueue (factoryQueuePath root) (.ok file)
  nextQueued (entriesOf queue)

/-! ### What has been answered -/

/-- What has been answered to a call so far. -/
structure Observed where
  /-- The queue was written. -/
  claimed : Bool
  /-- A file was not written or not hashed, or not found after the claim. -/
  hindered : Bool
  /-- The digests since the claim. -/
  digests : List String
  /-- The result of the project start. -/
  started : Option Json
  /-- The verification of its bundle. -/
  verified : Option Json

namespace Observed

def add (o : Observed) : Event QueueSignature → Observed
  | ⟨.writeQueueFile _, _⟩ => { o with claimed := true }
  | ⟨.writeFile .., .error _⟩ => { o with hindered := true }
  | ⟨.sha256File _, .error _⟩ => { o with hindered := true }
  | ⟨.sha256File _, .ok digest⟩ =>
    { o with digests := o.digests ++ if o.claimed then [digest] else [] }
  | ⟨.isFile _, found⟩ => { o with hindered := o.hindered || o.claimed && !found }
  | ⟨.projectStart _, .ok v⟩ => { o with started := some v }
  | ⟨.projectStartBundleVerify _, .ok v⟩ => { o with verified := some v }
  | _ => o

end Observed

def observed (h : List (Event QueueSignature)) : Observed :=
  h.foldl Observed.add ⟨false, false, [], none, none⟩

theorem observed_concat (h : List (Event QueueSignature)) (e : Event QueueSignature) :
    observed (h ++ [e]) = (observed h).add e := by
  rw [observed, List.foldl_concat]
  rfl

/-! ### The steps that do not block -/

/-- The project start that is the last one once an entry is completed. -/
def lastProjectStart (entries : List Json) (runId : String) : Option Json :=
  entries.reverse.find? fun entry => runIdOf entry = some runId ∨
    (entry.get? "job_kind").bind Json.str? = some "factory_project_start" ∧
      factoryQueueStatusIsTerminal (jsonStringOf entry "status")

/-- The digest of its operator summary that the queue has. -/
def recordedDigest (entries : List Json) (runId : String) (o : Observed) : Option String :=
  (lastProjectStart entries runId).bind fun entry =>
    if runIdOf entry = some runId then o.digests[1]?
    else some (memberAsText entry "project_start_operator_summary_sha256")

/-- **No step has failed that does not block the entry**: files are found, written and hashed, the
result names its files, and the operator summaries have the digests that they had. -/
structure Unhindered (entries : List Json) (runId : String) (o : Observed) : Prop where
  hindered : o.hindered = false
  bundle : ∀ v, o.started = some v →
    isBlank (jsonStringOf (v.index "hermes_queue_handoff") "project_start_bundle") = false
  result : ∀ v v', o.started = some v → o.verified = some v' → jsonStringOf v' "status" = "accepted" →
    isBlank (jsonStringOf (v.index "artifacts") "factory_project_start") = false
  own : ∀ d, o.digests[2]? = some d → isBlank d = false ∧ o.digests[1]? = some d
  last : ∀ d, o.digests[3]? = some d → isBlank d = false ∧ recordedDigest entries runId o = some d

/-- The entry is blocked if its execution fails: the run has a name, and the execution of a project start
is not hindered. -/
structure Blocks (entries : List Json) (next : Json) (o : Observed) : Prop where
  named : isBlank (jsonStringOf next "run_id") = false
  unhindered : jsonStringOf next "job_kind" = "factory_project_start" →
    Unhindered entries (jsonStringOf next "run_id") o

/-! ### The queue file -/

/-- The queue file can be read. -/
def Readable (file : Option Json) : Prop :=
  ∀ queue, file = some queue → queue.index "schema_version" = .str factoryQueueSchema

theorem index_put_of_ne {v member : Json} {key key' : String} (hne : key' ≠ key)
    (h : v.isObject = true) : (v.put key member).index key' = v.index key' := by
  rw [Json.index, Json.get?_put_of_ne hne h]
  rfl

/-- What is known of the queue that is read of a file. -/
structure Loaded (file : Option Json) (queue : Json) : Prop where
  isObject : queue.isObject = true
  entries : entriesOf queue = fileEntries file
  schema : queue.index "schema_version" = .str factoryQueueSchema

theorem exists_loadedQueue {file : Option Json} (h : Readable file) (path : String) :
    ∃ queue, loadedQueue path (.ok file) = .ok queue ∧ Loaded file queue := by
  have hload : ∃ queue, loadedQueue path (.ok file) = .ok queue ∧
      queue.index "schema_version" = .str factoryQueueSchema := by
    cases file with
    | none =>
      refine ⟨blankQueue path, rfl, Json.index_eq ?_⟩
      rw [blankQueue, Json.get?_object]
      rfl
    | some v =>
      have hschema := h v rfl
      have hobject : v.isObject = true := by
        cases v with
        | obj members => rfl
        | _ => cases hschema
      refine ⟨_, by rw [loadedQueue, if_pos hschema], ?_⟩
      rw [index_put_of_ne (by decide) hobject]
      exact hschema
  obtain ⟨queue, hqueue, hschema⟩ := hload
  obtain ⟨file', hfile, hobject, hentries⟩ := loadedQueue_ok hqueue
  obtain rfl := Except.ok.inj hfile
  exact ⟨queue, hqueue, hobject, hentries, hschema⟩

theorem readable_of_loadedQueue {file : Option Json} {path : String} {queue : Json}
    (h : loadedQueue path (.ok file) = .ok queue) : Readable file := by
  rintro v rfl
  rw [loadedQueue] at h
  by_contra hschema
  rw [if_neg hschema] at h
  cases h

theorem readable_storedQueue {path now : String} {queue : Json} (hobject : queue.isObject = true)
    (hschema : queue.index "schema_version" = .str factoryQueueSchema) :
    Readable (some (storedQueue path now queue)) := by
  rintro v ⟨⟩
  have hpath : (queue.put "queue_path" (.str path)).isObject = true := Json.isObject_put hobject
  rw [storedQueue, index_put_of_ne (by decide) (Json.isObject_put hpath),
    index_put_of_ne (by decide) hpath, index_put_of_ne (by decide) hobject]
  exact hschema

/-! ### What the programs do alone -/

/-- From here the call ends in `Q` or fails in `E`. -/
def Alone (root : String) (f : Oracle QueueSignature) {α : Type} (p : QueueProg α)
    (Q : α → AloneWorld → Prop) (E : AloneWorld → Prop) (w : AloneWorld) : Prop :=
  (aloneMachine root f).wp (fun _ _ => True) p Q (fun _ => E) w

/-- The operations whose answer is not known. -/
def QueueOp.outside : QueueOp → Bool
  | readQueueFile | writeQueueFile _ | pathExists _ | canonicalize _ => false
  | _ => true

section

variable {root : String} {f : Oracle QueueSignature} {α β : Type} {E : AloneWorld → Prop}
  {file : Option Json} {h : List (Event QueueSignature)}

theorem Alone.bind {p : QueueProg α} {g : α → QueueProg β} {Q : β → AloneWorld → Prop} {w : AloneWorld}
    (hp : Alone root f p (fun a w' => Alone root f (g a) Q E w') E w) : Alone root f (p.bind g) Q E w :=
  Machine.wp_bind.mpr hp

theorem alone_ofExcept {r : Except String α} {Q : α → AloneWorld → Prop} {w : AloneWorld}
    (hok : ∀ a, r = .ok a → Q a w) (herror : ∀ e, r = .error e → E w) :
    Alone root f (.ofExcept r) Q E w := Machine.wp_ofExcept hok herror

theorem wp_performQueue {o : QueueOp} {Q : o.Ans → AloneWorld → Prop}
    {E' : String → AloneWorld → Prop} (ho : o.outside = true)
    (hQ : ∀ a, Q a (file, h ++ [⟨o, a⟩])) :
    (aloneMachine root f).wp (fun _ _ => True) (performQueue o) Q E' (file, h) := by
  cases o with
  | readQueueFile => cases ho
  | writeQueueFile queue => cases ho
  | pathExists path => cases ho
  | canonicalize path => cases ho
  | _ => exact ⟨trivial, hQ _⟩

theorem alone_performQueue {o : QueueOp} {Q : o.Ans → AloneWorld → Prop} (ho : o.outside = true)
    (hQ : ∀ a, Q a (file, h ++ [⟨o, a⟩])) : Alone root f (performQueue o) Q E (file, h) :=
  wp_performQueue ho hQ

theorem alone_ensureTargetRepo {Q : Unit → AloneWorld → Prop} (target : String)
    (hQ : ∀ h', observed h' = observed h → Q () (file, h')) :
    Alone root f (factoryEnsureTargetRepo target) Q E (file, h) := by
  refine ⟨trivial, hQ _ ?_⟩
  rw [observed_concat]
  rfl

theorem alone_load {Q : Json → AloneWorld → Prop} (target : String) (hfile : Readable file)
    (hQ : ∀ queue h', Loaded file queue → observed h' = observed h → Q queue (file, h')) :
    Alone root f (factoryQueueLoad target) Q E (file, h) := by
  obtain ⟨queue, hqueue, hloaded⟩ := exists_loadedQueue hfile (factoryQueuePath target)
  refine ⟨trivial, ?_⟩
  refine alone_ofExcept (fun queue' hqueue' => ?_) fun e herror => ?_
  · rw [show loadedQueue (factoryQueuePath target) (.ok file) = .ok queue' from hqueue'] at hqueue
    obtain rfl := Except.ok.inj hqueue
    refine hQ _ _ hloaded ?_
    rw [observed_concat]
    rfl
  · rw [show loadedQueue (factoryQueuePath target) (.ok file) = .error e from herror] at hqueue
    cases hqueue

/-- What is observed after the queue was written. -/
def Observed.written (o : Observed) : Observed := { o with claimed := true }

theorem alone_store {Q : String × Json → AloneWorld → Prop} (target : String) {queue : Json}
    (hobject : queue.isObject = true)
    (hschema : queue.index "schema_version" = .str factoryQueueSchema)
    (hQ : ∀ path stored h', entriesOf stored = entriesOf queue → Readable (some stored) →
      observed h' = (observed h).written → Q (path, stored) (some stored, h')) :
    Alone root f (factoryQueueStore target queue) Q E (file, h) := by
  refine ⟨trivial, trivial, hQ _ _ _ (entriesOf_storedQueue hobject)
    (readable_storedQueue hobject hschema) ?_⟩
  refine (observed_concat _ _).trans ?_
  exact congrArg (fun o : Observed => o.add _) (observed_concat h _)

/-- What is done to the file by a transition of an entry that is there. -/
theorem alone_transition {Q : Json → AloneWorld → Prop} (target : String) {runId : String}
    (status reason : String) {entry : Json} (hfile : Readable file)
    (hfind : findEntry (fileEntries file) runId = some entry)
    (hQ : ∀ r stored now h', Readable (some stored) →
      entriesOf stored = updateEntry runId (transitionedEntry status reason now) (fileEntries file) →
      observed h' = (observed h).written → Q r (some stored, h')) :
    Alone root f (factoryQueueTransition target runId status reason) Q E (file, h) := by
  refine (alone_ensureTargetRepo target fun h₁ h₁obs => ?_).bind
  refine (alone_load target hfile fun queue h₂ hloaded h₂obs => ?_).bind
  refine (alone_performQueue rfl fun now => ?_).bind
  rw [hloaded.entries, hfind]
  dsimp only
  have hschema : (queue.put "entries" (.arr (updateEntry runId (transitionedEntry status reason now)
      (fileEntries file)))).index "schema_version" = .str factoryQueueSchema := by
    rw [index_put_of_ne (by decide) hloaded.isObject]
    exact hloaded.schema
  refine (alone_store target (Json.isObject_put hloaded.isObject) hschema
    fun path stored h' hentries hreadable hobs => ?_).bind
  rw [entriesOf_put_entries hloaded.isObject] at hentries
  refine hQ _ stored now h' hreadable hentries ?_
  rw [hobs, observed_concat, h₂obs, h₁obs]
  rfl

/-- **An entry that is refused is blocked.** -/
theorem alone_refuse {Q : α → AloneWorld → Prop} (target : String) {runId : String}
    (reason message : String) {status : String} (hfile : Readable file)
    (hstatus : statusIn (fileEntries file) runId = some status)
    (hE : ∀ w, statusIn (fileEntries w.1) runId = some "blocked" →
      observed w.2 = (observed h).written → E w) :
    Alone root f (refuse target runId reason message) Q E (file, h) := by
  obtain ⟨entry, hfind, -⟩ := Option.bind_eq_some_iff.mp hstatus
  refine Alone.bind (Machine.wp_attempt.mpr ?_)
  refine alone_transition target "blocked" reason hfile hfind
    fun r stored now h' hreadable hentries hobs => hE _ ?_ hobs
  rw [fileEntries, hentries, statusIn, findEntry_updateEntry (records_transitionedEntry _ _ _),
    if_pos rfl, hfind]
  exact (records_transitionedEntry "blocked" reason now).moves entry
    (isObject_of_runIdOf (runIdOf_of_findEntry hfind))

end

/-! ### After the claim -/

/-- The file while an execution is going on. -/
structure Running (runId : String) (file : Option Json) : Prop where
  readable : Readable file
  status : statusIn (fileEntries file) runId = some "running"

/-- A failed execution has blocked its entry if and only if it was not hindered. -/
def Settled (entries : List Json) (runId : String) (w : AloneWorld) : Prop :=
  statusIn (fileEntries w.1) runId = some "blocked" ↔ Unhindered entries runId (observed w.2)

/-- What has been observed of an execution, which no file has hindered. -/
def Seen (h : List (Event QueueSignature)) (digests : List String) (started verified : Option Json) :
    Prop := observed h = ⟨true, false, digests, started, verified⟩

section

variable {root : String} {f : Oracle QueueSignature} {α : Type} {entries : List Json} {runId : String}
  {file : Option Json} {h : List (Event QueueSignature)} {digests : List String}
  {started verified : Option Json}

theorem Running.settled (hrun : Running runId file) {o : Observed} (hobs : observed h = o)
    (hno : ¬ Unhindered entries runId o) : Settled entries runId (file, h) := by
  refine iff_of_false ?_ (hobs ▸ hno)
  rw [hrun.status]
  decide

theorem Running.refuse {Q : α → AloneWorld → Prop} (hrun : Running runId file)
    (hseen : Seen h digests started verified)
    (hU : Unhindered entries runId ⟨true, false, digests, started, verified⟩)
    (target reason message : String) :
    Alone root f (refuse target runId reason message) Q (Settled entries runId) (file, h) := by
  refine alone_refuse target reason message hrun.readable hrun.status fun w hblocked hobs => ?_
  refine iff_of_true hblocked ?_
  rw [hobs, hseen]
  exact hU

theorem Running.orRefuse {Q : Json → AloneWorld → Prop} (hrun : Running runId file)
    (hseen : Seen h digests started verified)
    (hU : Unhindered entries runId ⟨true, false, digests, started, verified⟩)
    (target reason message : String) {r : Except String Json} (hQ : ∀ v, r = .ok v → Q v (file, h)) :
    Alone root f (orRefuse target runId reason message r) Q (Settled entries runId) (file, h) := by
  cases r with
  | ok v => exact hQ v rfl
  | error e => exact hrun.refuse hseen hU target reason message

theorem Running.requireStatus {Q : Unit → AloneWorld → Prop} (hrun : Running runId file)
    (hseen : Seen h digests started verified) (target reason message : String) {v : Json}
    {status : String} (hU : jsonStringOf v "status" ≠ status →
      Unhindered entries runId ⟨true, false, digests, started, verified⟩)
    (hQ : jsonStringOf v "status" = status → Q () (file, h)) :
    Alone root f (requireStatus target runId reason message v status) Q (Settled entries runId)
      (file, h) := by
  rw [Ao2.requireStatus]
  split_ifs with hstatus
  · exact hQ hstatus
  · exact hrun.refuse hseen (hU hstatus) target reason message

theorem not_unhindered {o : Observed} (h : o.hindered = true) : ¬ Unhindered entries runId o := by
  intro hU
  rw [hU.hindered] at h
  cases h

theorem Running.atomicWrite {Q : Unit → AloneWorld → Prop} (hrun : Running runId file)
    (hseen : Seen h digests started verified) (path : String) (content : FileContent)
    (hQ : ∀ h', Seen h' digests started verified → Q () (file, h')) :
    Alone root f (atomicWrite path content) Q (Settled entries runId) (file, h) := by
  refine (alone_performQueue rfl fun written => ?_).bind
  cases written with
  | ok u =>
    refine hQ _ ?_
    rw [Seen, observed_concat, hseen]
    rfl
  | error e =>
    refine hrun.settled (observed_concat _ _) (not_unhindered ?_)
    rfl

/-- The digest of a file is noted. -/
theorem Running.sha256File {Q : String → AloneWorld → Prop} (hrun : Running runId file)
    (hseen : Seen h digests started verified) (path : String)
    (hQ : ∀ digest h', Seen h' (digests ++ [digest]) started verified → Q digest (file, h')) :
    Alone root f (sha256File path) Q (Settled entries runId) (file, h) := by
  refine (alone_performQueue rfl fun hashed => ?_).bind
  cases hashed with
  | ok digest =>
    refine hQ digest _ ?_
    rw [Seen, observed_concat, hseen]
    rfl
  | error e =>
    refine hrun.settled (observed_concat _ _) (not_unhindered ?_)
    rfl

/-- A file is looked for. -/
theorem Running.isFile {Q : Bool → AloneWorld → Prop} (hrun : Running runId file)
    (hseen : Seen h digests started verified) (path : String)
    (hfound : ∀ h', Seen h' digests started verified → Q true (file, h'))
    (hmissing : ∀ h', Settled entries runId (file, h') → Q false (file, h')) :
    Alone root f (performQueue (.isFile path)) Q (Settled entries runId) (file, h) := by
  refine alone_performQueue rfl fun found => ?_
  cases found with
  | true =>
    refine hfound _ ?_
    rw [Seen, observed_concat, hseen]
    rfl
  | false =>
    refine hmissing _ (hrun.settled (observed_concat _ _) (not_unhindered ?_))
    rw [hseen]
    rfl

/-- The path of a file that a result names. -/
theorem Running.resolvedRawPath {Q : String → AloneWorld → Prop} (hrun : Running runId file)
    (hseen : Seen h digests started verified) (message base : String) {raw : String}
    (hblank : isBlank raw = true →
      ¬ Unhindered entries runId ⟨true, false, digests, started, verified⟩)
    (hQ : isBlank raw = false → ∀ path h', Seen h' digests started verified → Q path (file, h')) :
    Alone root f (resolvedRawPath message base raw) Q (Settled entries runId) (file, h) := by
  refine Alone.bind (Machine.wp_attempt.mpr ?_)
  rw [factoryProjectStartBundleRawPath]
  split_ifs with hraw
  · exact hrun.settled hseen (hblank hraw)
  · refine Machine.wp_bind.mpr (wp_performQueue rfl fun found => ?_)
    cases found with
    | true =>
      refine hQ (by simpa using hraw) _ _ ?_
      rw [Seen, observed_concat, hseen]
      rfl
    | false =>
      refine hrun.settled (observed_concat _ _) (not_unhindered ?_)
      rw [hseen]
      rfl

end

end Ao2
