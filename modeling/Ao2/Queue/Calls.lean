import Ao2.Interaction.Pool
import Ao2.Queue.Changes
import Ao2.Queue.RunNext
import Ao2.Queue.Submit

/-!
# What a call does to the queue

Each call reads the queue and writes it with one entry added or changed. Which copy of the queue it
writes back is the one that it read last, whatever is in the file by then. A run is executed right
after its claim was written.
-/

namespace Ao2

open Interaction

/-! ### Calls -/

inductive QueueCall where
  | submit (target planPath : String) (runId receiptOut : Option String)
  | submitProjectStart (options : FactoryQueueSubmitProjectStartOptions)
  | transition (target runId status reason : String)
  | runNext (options : FactoryQueueRunNextOptions)

def QueueCall.program : QueueCall → QueueProg Json
  | submit target planPath runId receiptOut => factoryQueueSubmit target planPath runId receiptOut
  | submitProjectStart options => factoryQueueSubmitProjectStart options
  | transition target runId status reason => factoryQueueTransition target runId status reason
  | runNext options => factoryQueueRunNext options

/-! ### The file -/

/-- One behaviour of everything but the queue file. Reading and replacing the file may fail. -/
abbrev QueueAnswers := (o : QueueOp) → o.Ans

/-- The queue file. What is read of it is what was last written, and it is replaced at once. -/
def queueMachine (answers : QueueAnswers) : Machine QueueSignature (Option Json) where
  step
    | .readQueueFile, file => ((answers .readQueueFile).map fun _ => file, file)
    | .writeQueueFile queue, file =>
      match answers (.writeQueueFile queue) with
      | .ok () => (.ok (), some queue)
      | .error e => (.error e, file)
    | o, file => (answers o, file)

/-- The entries in the file. -/
def fileEntries : Option Json → List Json
  | none => []
  | some queue => entriesOf queue

/-- The queue that an event has read. -/
def readBy : Event QueueSignature → Option (Option Json)
  | ⟨.readQueueFile, .ok found⟩ => some found
  | _ => none

/-- The copy of the queue that a call has read last. -/
def lastRead (h : List (Event QueueSignature)) : Option (Option Json) := lastSome readBy h

/-- The run that a call has found to be the next one, in the first copy of the queue that it read. -/
def sought (h : List (Event QueueSignature)) : Option String :=
  (h.findSome? readBy).bind fun found =>
    match nextQueued (fileEntries found) with
    | .ok next => some (jsonStringOf next "run_id")
    | .error _ => none

theorem sought_concat {h : List (Event QueueSignature)} {runId : String} (hs : sought h = some runId)
    (e : Event QueueSignature) : sought (h ++ [e]) = some runId := by
  obtain ⟨found, hfound, hnext⟩ := Option.bind_eq_some_iff.mp hs
  rw [sought, List.findSome?_append, hfound]
  exact hnext

/-- An operation that reads nothing does not change what was found first. -/
theorem sought_of_readBy {e : Event QueueSignature} (he : readBy e = none)
    (h : List (Event QueueSignature)) : sought (h ++ [e]) = sought h := by
  rw [sought, List.findSome?_append, List.findSome?_singleton, he, Option.or_none, sought]

theorem lastRead_read (h : List (Event QueueSignature)) (found : Option Json) :
    lastRead (h ++ [⟨.readQueueFile, .ok found⟩]) = some found := by
  rw [lastRead, lastSome_concat]
  rfl

/-- An operation that reads nothing leaves the copy that was read last. -/
theorem lastRead_of_readBy {e : Event QueueSignature} (he : readBy e = none)
    (h : List (Event QueueSignature)) : lastRead (h ++ [e]) = lastRead h := by
  rw [lastRead, lastSome_concat, he, Option.none_or, lastRead]

/-! ### The copy that is written back -/

theorem entriesOf_put_entries {queue : Json} (h : queue.isObject = true) (entries : List Json) :
    entriesOf (queue.put "entries" (.arr entries)) = entries := by
  rw [entriesOf, Json.get?_put_self h]
  rfl

theorem entriesOf_put_of_ne {queue v : Json} {key : String} (h : queue.isObject = true)
    (hkey : "entries" ≠ key) : entriesOf (queue.put key v) = entriesOf queue := by
  rw [entriesOf, Json.get?_put_of_ne hkey h]
  rfl

theorem entriesOf_storedQueue {path now : String} {queue : Json} (h : queue.isObject = true) :
    entriesOf (storedQueue path now queue) = entriesOf queue := by
  have h₁ : (queue.put "queue_path" (.str path)).isObject = true := Json.isObject_put h
  have h₂ : ((queue.put "queue_path" (.str path)).put "entry_count"
    (.nat (entriesOf queue).length)).isObject = true := Json.isObject_put h₁
  rw [storedQueue, entriesOf_put_of_ne h₂ (by decide), entriesOf_put_of_ne h₁ (by decide),
    entriesOf_put_of_ne h (by decide)]

theorem loadedQueue_ok {path : String} {found : Except String (Option Json)} {queue : Json}
    (h : loadedQueue path found = .ok queue) :
    ∃ file, found = .ok file ∧ queue.isObject = true ∧ entriesOf queue = fileEntries file := by
  cases found with
  | error e => cases h
  | ok file =>
    cases file with
    | none =>
      refine ⟨none, rfl, ?_⟩
      rw [← Except.ok.inj h]
      refine ⟨Json.isObject_putAll rfl, ?_⟩
      rw [entriesOf, blankQueue, Json.get?_object]
      rfl
    | some v =>
      refine ⟨some v, rfl, ?_⟩
      rw [loadedQueue] at h
      split_ifs at h with hschema
      have hobject : v.isObject = true := by
        cases v with
        | obj members => rfl
        | _ => cases hschema
      rw [← Except.ok.inj h]
      exact ⟨Json.isObject_put hobject, entriesOf_put_of_ne hobject (by decide)⟩

/-! ### What is known of the operations -/

/-- The copy that was read last is written back with an entry added. -/
def Adds (h : List (Event QueueSignature)) (queue : Json) (runId reason : String) : Prop :=
  ∃ found entry, lastRead h = some found ∧ Submitted runId reason entry ∧
    findEntry (fileEntries found) runId = none ∧ entriesOf queue = addEntry entry (fileEntries found)

/-- The copy that was read last is written back with the entry of a run changed, if it has one. -/
def Changes (h : List (Event QueueSignature)) (queue : Json) (runId status reason : String) : Prop :=
  ∃ found change, lastRead h = some found ∧ Records status reason change ∧
    entriesOf queue = updateEntry runId change (fileEntries found)

/-- The run has an entry in the copy that was read last. -/
def Knows (h : List (Event QueueSignature)) (runId : String) : Prop :=
  ∃ found entry, lastRead h = some found ∧ findEntry (fileEntries found) runId = some entry

/-- The last operation was a write after which the run is running. -/
def Claimed (h : List (Event QueueSignature)) (runId : String) : Prop :=
  ∃ earlier queue, h = earlier ++ [⟨.writeQueueFile queue, .ok ()⟩] ∧
    statusIn (entriesOf queue) runId = some "running"

def SubmitAsks (h : List (Event QueueSignature)) : QueueOp → Prop
  | .writeQueueFile queue => ∃ runId reason, Adds h queue runId reason
  | .runPlan _ | .projectStart _ => False
  | _ => True

def TransitionAsks (runId status reason : String) (h : List (Event QueueSignature)) : QueueOp → Prop
  | .writeQueueFile queue => Changes h queue runId status reason
  | .runPlan _ | .projectStart _ => False
  | _ => True

def RunNextAsks (runId : String) (h : List (Event QueueSignature)) : QueueOp → Prop
  | .writeQueueFile queue => ∃ status reason, status ≠ "queued" ∧ Changes h queue runId status reason
  | .runPlan options => options.runId = some runId ∧ Claimed h runId
  | .projectStart options => options.runId = runId ∧ Claimed h runId
  | _ => True

/-- The operations that matter: the queue is written or a run is executed. -/
def QueueOp.counts : QueueOp → Bool
  | writeQueueFile _ | runPlan _ | projectStart _ => true
  | _ => false

/-- **What is known of the operations of a call.** -/
def Asks : QueueCall → List (Event QueueSignature) → QueueOp → Prop
  | .submit .., h, o | .submitProjectStart _, h, o => SubmitAsks h o
  | .transition _ runId status reason, h, o => TransitionAsks runId status reason h o
  | .runNext _, h, o => o.counts = true → ∃ runId, sought h = some runId ∧ RunNextAsks runId h o

/-- **What a call has done** when it returns: it has written the queue with an entry added or changed,
as its result says. -/
def Reports (call : QueueCall) (h : List (Event QueueSignature)) (r : Json) : Prop :=
  ∃ earlier queue later runId status reason,
    h = earlier ++ ⟨.writeQueueFile queue, .ok ()⟩ :: later ∧
    r.get? "run_id" = some (.str runId) ∧ r.get? "status" = some (.str status) ∧
    match call with
    | .submit .. | .submitProjectStart _ => status = "queued" ∧ Adds earlier queue runId reason
    | .transition _ id status' reason' => (runId = id ∧ status = status' ∧ reason = reason') ∧
        Changes earlier queue runId status reason ∧ Knows earlier runId
    | .runNext _ => Changes earlier queue runId status reason ∧ Knows earlier runId

/-! ### The traces of the calls -/

section

variable {C : List (Event QueueSignature) → QueueOp → Prop} {E : List (Event QueueSignature) → String → Prop}
  {h : List (Event QueueSignature)}

theorem performQueue_traced {o : QueueOp} {Q : List (Event QueueSignature) → o.Ans → Prop} (hC : C h o)
    (hQ : ∀ a, Q (h ++ [⟨o, a⟩]) a) : (performQueue o).Traced C Q E h := ⟨hC, hQ⟩

/-- What is known of a queue that was loaded. -/
theorem factoryQueueLoad_traced {Q : List (Event QueueSignature) → Json → Prop} (target : String)
    (hC : ∀ h o, o.counts = false → C h o)
    (hQ : ∀ found queue, queue.isObject = true → entriesOf queue = fileEntries found →
      Q (h ++ [⟨.readQueueFile, .ok found⟩]) queue)
    (hE : ∀ h e, E h e) : (factoryQueueLoad target).Traced C Q E h := by
  refine ⟨hC _ _ rfl, fun read => ?_⟩
  refine Prog.traced_ofExcept (fun queue hqueue => ?_) fun e _ => hE _ _
  obtain ⟨found, rfl, hobject, hentries⟩ := loadedQueue_ok hqueue
  exact hQ found queue hobject hentries

/-- What is written of a queue. -/
theorem factoryQueueStore_traced {Q : List (Event QueueSignature) → String × Json → Prop}
    (target : String) {queue : Json} (hobject : queue.isObject = true)
    (hC : ∀ h o, o.counts = false → C h o)
    (hwrite : ∀ now stored, entriesOf stored = entriesOf queue →
      C (h ++ [⟨.now, now⟩]) (.writeQueueFile stored) ∧
        ∀ path, Q ((h ++ [⟨.now, now⟩]) ++ [⟨.writeQueueFile stored, .ok ()⟩]) (path, stored))
    (hE : ∀ h e, E h e) : (factoryQueueStore target queue).Traced C Q E h := by
  refine ⟨hC _ _ rfl, fun now => ?_⟩
  obtain ⟨hC, hQ⟩ := hwrite now (storedQueue (factoryQueuePath target) now queue)
    (entriesOf_storedQueue hobject)
  refine ⟨hC, fun written => Prog.traced_bind.mpr ?_⟩
  cases written with
  | error e => exact hE _ _
  | ok u => exact hQ _

/-- What a transition does. -/
theorem factoryQueueTransition_traced {Q : List (Event QueueSignature) → Json → Prop}
    (target runId status reason : String) (hC : ∀ h o, o.counts = false → C h o)
    (hwrite : ∀ h queue, Changes h queue runId status reason → C h (.writeQueueFile queue))
    (hQ : ∀ earlier queue r, Changes earlier queue runId status reason → Knows earlier runId →
      r.get? "run_id" = some (.str runId) → r.get? "status" = some (.str status) →
      Q (earlier ++ [⟨.writeQueueFile queue, .ok ()⟩]) r)
    (hE : ∀ h e, E h e) :
    (factoryQueueTransition target runId status reason).Traced C Q E h := by
  refine ⟨hC _ _ rfl, fun exist => Prog.traced_bind.mpr ?_⟩
  refine Prog.traced_ofExcept (fun _ _ => ?_) fun e _ => hE _ _
  refine Prog.traced_bind.mpr (factoryQueueLoad_traced target hC (fun found queue hobject hentries => ?_) hE)
  refine ⟨hC _ _ rfl, fun now => ?_⟩
  dsimp only [Prog.done_bind]
  cases hfind : findEntry (entriesOf queue) runId with
  | none => exact hE _ _
  | some entry =>
    refine Prog.traced_bind.mpr (factoryQueueStore_traced target (Json.isObject_put hobject) hC ?_ hE)
    intro stored queue' hqueue'
    rw [entriesOf_put_entries hobject, hentries] at hqueue'
    have hread : lastRead ((((h ++ [⟨.pathExists target, exist⟩]) ++ [⟨.readQueueFile, .ok found⟩]) ++
        [⟨.now, now⟩]) ++ [⟨.now, stored⟩]) = some found :=
      (lastRead_of_readBy rfl _).trans ((lastRead_of_readBy rfl _).trans (lastRead_read _ _))
    rw [hentries] at hfind
    have hrecords := records_transitionedEntry status reason now
    refine ⟨hwrite _ _ ⟨found, _, hread, hrecords, hqueue'⟩, fun path => ?_⟩
    exact hQ _ _ _ ⟨found, _, hread, hrecords, hqueue'⟩ ⟨found, entry, hread, hfind⟩
      (Json.get?_object _ _) (Json.get?_object _ _)

end

/-! ### Stages that leave the copy as it is -/

/-- Unless it fails, the program reads and writes no queue; the entry is blocked before it fails. -/
def KeepsCopy {α : Type} (runId : String) (p : QueueProg α) : Prop :=
  ∀ h, p.Traced (RunNextAsks runId) (fun h' _ => lastRead h' = lastRead h) (fun _ _ => True) h

section

variable {α β : Type} {runId : String}

theorem asks_of_counts {h : List (Event QueueSignature)} {o : QueueOp} (ho : o.counts = false) :
    RunNextAsks runId h o := by
  cases o with
  | writeQueueFile queue => cases ho
  | runPlan options => cases ho
  | projectStart options => cases ho
  | _ => trivial

theorem KeepsCopy.bind {p : QueueProg α} {f : α → QueueProg β} (hp : KeepsCopy runId p)
    (hf : ∀ a, KeepsCopy runId (f a)) : KeepsCopy runId (p.bind f) := by
  intro h
  refine Prog.traced_bind.mpr ((hp h).mono (fun _ _ => id) (fun h' a heq => ?_) fun _ _ => id)
  rw [← heq]
  exact hf a h'

theorem keepsCopy_pure (a : α) : KeepsCopy runId (pure a : QueueProg α) := fun _ => rfl

theorem keepsCopy_fail (message : String) : KeepsCopy runId (.fail message : QueueProg α) := fun _ => trivial

theorem keepsCopy_ofExcept (r : Except String α) : KeepsCopy runId (Prog.ofExcept r : QueueProg α) := by
  intro h
  exact Prog.traced_ofExcept (fun _ _ => rfl) fun _ _ => trivial

theorem keepsCopy_performQueue {o : QueueOp} (ho : o.counts = false)
    (hread : ∀ a : o.Ans, readBy ⟨o, a⟩ = none) : KeepsCopy runId (performQueue o) :=
  fun h => ⟨asks_of_counts ho, fun a => lastRead_of_readBy (hread a) h⟩

theorem keepsCopy_refuse (target reason message : String) :
    KeepsCopy runId (refuse target runId reason message : QueueProg α) := by
  intro h
  refine Prog.traced_bind.mpr (Prog.traced_attempt.mpr ?_)
  exact factoryQueueTransition_traced _ _ _ _ (fun _ _ => asks_of_counts)
    (fun _ _ hchanges => ⟨_, _, by decide, hchanges⟩) (fun _ _ _ _ _ _ _ => trivial)
    fun _ _ => trivial

theorem keepsCopy_orRefuse (target reason message : String) (r : Except String Json) :
    KeepsCopy runId (orRefuse target runId reason message r) := by
  cases r with
  | ok v => exact keepsCopy_pure v
  | error e => exact keepsCopy_refuse _ _ _

theorem keepsCopy_requireStatus (target reason message : String) (v : Json) (status : String) :
    KeepsCopy runId (requireStatus target runId reason message v status) := by
  rw [requireStatus]
  split
  · exact keepsCopy_pure ()
  · exact keepsCopy_refuse _ _ _

theorem keepsCopy_sha256File (path : String) : KeepsCopy runId (sha256File path) :=
  (keepsCopy_performQueue rfl fun _ => rfl).bind keepsCopy_ofExcept

theorem keepsCopy_atomicWrite (path : String) (content : FileContent) :
    KeepsCopy runId (atomicWrite path content) :=
  (keepsCopy_performQueue rfl fun _ => rfl).bind keepsCopy_ofExcept

theorem keepsCopy_writeHashed (path : String) (v : Json) : KeepsCopy runId (writeHashed path v) :=
  (keepsCopy_atomicWrite _ _).bind fun _ => keepsCopy_sha256File _

theorem keepsCopy_inContext (message : String) (r : Except String α) :
    KeepsCopy runId (inContext message r) := keepsCopy_ofExcept _

/-- A stage whose failure is an answer leaves the copy as it is when it fails, too. -/
theorem keepsCopy_resolvedRawPath (message base raw : String) :
    KeepsCopy runId (resolvedRawPath message base raw) := by
  intro h
  refine Prog.traced_bind.mpr (Prog.traced_attempt.mpr ?_)
  rw [factoryProjectStartBundleRawPath]
  split
  · exact keepsCopy_inContext _ _ h
  · refine ⟨asks_of_counts rfl, fun readable => ?_⟩
    have hread := lastRead_of_readBy (e := ⟨.isFile (joinPath base raw), readable⟩) rfl h
    refine (Prog.traced_bind (p := .ofExcept (check readable _))).mpr
      (Prog.traced_ofExcept (fun _ _ => ?_) fun e _ => ?_)
    all_goals
      rw [← hread]
      exact keepsCopy_inContext _ _ _

theorem keepsCopy_ite {c : Prop} [Decidable c] {p q : QueueProg α} (hp : KeepsCopy runId p)
    (hq : KeepsCopy runId q) : KeepsCopy runId (if c then p else q) := by
  split
  · exact hp
  · exact hq

theorem keepsCopy_checkQueuedPlan (targetRoot : String) (next : Json) :
    KeepsCopy runId (checkQueuedPlan targetRoot runId next) := by
  refine keepsCopy_ite (keepsCopy_fail _) ((keepsCopy_performQueue rfl fun _ => rfl).bind fun readable => ?_)
  refine keepsCopy_ite (keepsCopy_refuse _ _ _) ((keepsCopy_performQueue rfl fun _ => rfl).bind fun digest => ?_)
  cases digest with
  | error e => exact keepsCopy_refuse _ _ _
  | ok digest => exact keepsCopy_ite (keepsCopy_refuse _ _ _) (keepsCopy_pure ())

theorem keepsCopy_checkQueuedProjectStart (targetRoot : String) (request : Json) :
    KeepsCopy runId (checkQueuedProjectStart targetRoot runId request) := by
  refine keepsCopy_ite (keepsCopy_fail _) ((keepsCopy_performQueue rfl fun _ => rfl).bind fun readable => ?_)
  refine keepsCopy_ite (keepsCopy_refuse _ _ _) ((keepsCopy_performQueue rfl fun _ => rfl).bind fun digest => ?_)
  exact (keepsCopy_inContext _ _).bind fun digest => keepsCopy_ite (keepsCopy_refuse _ _ _) (keepsCopy_pure ())

theorem keepsCopy_verifyProjectStartBundle (targetRoot outDir : String) (projectStart : Json) :
    KeepsCopy runId (verifyProjectStartBundle targetRoot runId outDir projectStart) := by
  refine (keepsCopy_resolvedRawPath _ _ _).bind fun bundle => ?_
  refine (keepsCopy_performQueue rfl fun _ => rfl).bind fun verified => ?_
  refine (keepsCopy_orRefuse _ _ _ _).bind fun verification => ?_
  refine (keepsCopy_writeHashed _ _).bind fun sha256 => ?_
  exact (keepsCopy_requireStatus _ _ _ _ _).bind fun _ => keepsCopy_pure _

theorem keepsCopy_summarizeProjectStart (targetRoot outDir : String) (projectStart : Json)
    (verification : RecordedFile) :
    KeepsCopy runId (summarizeProjectStart targetRoot runId outDir projectStart verification) := by
  refine (keepsCopy_resolvedRawPath _ _ _).bind fun path => ?_
  refine (keepsCopy_performQueue rfl fun _ => rfl).bind fun summarized => ?_
  refine (keepsCopy_orRefuse _ _ _ _).bind fun summary => ?_
  refine (keepsCopy_atomicWrite _ _).bind fun _ => (keepsCopy_atomicWrite _ _).bind fun _ => ?_
  refine (keepsCopy_sha256File _).bind fun sha256 => ?_
  exact (keepsCopy_requireStatus _ _ _ _ _).bind fun _ => keepsCopy_pure _

theorem keepsCopy_checkOperatorSummary (entry : Json) (id : String) :
    KeepsCopy runId (checkOperatorSummary entry id) := by
  refine (keepsCopy_performQueue rfl fun _ => rfl).bind fun readable => ?_
  refine (keepsCopy_ofExcept _).bind fun _ => (keepsCopy_performQueue rfl fun _ => rfl).bind fun digest => ?_
  exact (keepsCopy_inContext _ _).bind fun actual => keepsCopy_ofExcept _

theorem keepsCopy_factoryQueueStatusDetail (queue entry : Json) (id : String) :
    KeepsCopy runId (factoryQueueStatusDetail queue entry id) := by
  refine (keepsCopy_ofExcept _).bind fun _ => ?_
  split
  · exact (keepsCopy_checkOperatorSummary _ _).bind fun _ => keepsCopy_pure _
  · exact keepsCopy_pure _

theorem keepsCopy_writeQueueStatuses (outDir id : String) (queue entry : Json) :
    KeepsCopy runId (writeQueueStatuses outDir id queue entry) := by
  refine (keepsCopy_factoryQueueStatusDetail _ _ _).bind fun status => ?_
  refine (keepsCopy_ofExcept _).bind fun latest => ?_
  refine (keepsCopy_factoryQueueStatusDetail _ _ _).bind fun latestStatus => ?_
  refine (keepsCopy_atomicWrite _ _).bind fun _ => ?_
  exact (keepsCopy_atomicWrite _ _).bind fun _ => keepsCopy_pure _

theorem keepsCopy_packageClosure (targetRoot outDir statusPath latestPath : String) :
    KeepsCopy runId (packageClosure targetRoot runId outDir statusPath latestPath) := by
  refine (keepsCopy_performQueue rfl fun _ => rfl).bind fun packaged => ?_
  refine (keepsCopy_orRefuse _ _ _ _).bind fun closure => ?_
  refine (keepsCopy_atomicWrite _ _).bind fun _ => ?_
  refine (keepsCopy_sha256File _).bind fun archiveSha256 => (keepsCopy_sha256File _).bind fun jsonSha256 => ?_
  refine (keepsCopy_requireStatus _ _ _ _ _).bind fun _ => ?_
  refine (keepsCopy_performQueue rfl fun _ => rfl).bind fun verified => ?_
  refine (keepsCopy_orRefuse _ _ _ _).bind fun verification => ?_
  refine (keepsCopy_writeHashed _ _).bind fun sha256 => ?_
  exact (keepsCopy_requireStatus _ _ _ _ _).bind fun _ => keepsCopy_pure _

theorem keepsCopy_packageReplacementPacket (targetRoot outDir statusPath latestPath : String)
    (closure : Packaged) :
    KeepsCopy runId (packageReplacementPacket targetRoot runId outDir statusPath latestPath closure) := by
  refine (keepsCopy_performQueue rfl fun _ => rfl).bind fun packaged => ?_
  refine (keepsCopy_orRefuse _ _ _ _).bind fun packet => ?_
  refine (keepsCopy_writeHashed _ _).bind fun jsonSha256 => (keepsCopy_sha256File _).bind fun archiveSha256 => ?_
  refine (keepsCopy_requireStatus _ _ _ _ _).bind fun _ => ?_
  refine (keepsCopy_performQueue rfl fun _ => rfl).bind fun verified => ?_
  refine (keepsCopy_orRefuse _ _ _ _).bind fun verification => ?_
  refine (keepsCopy_writeHashed _ _).bind fun sha256 => ?_
  exact (keepsCopy_requireStatus _ _ _ _ _).bind fun _ => keepsCopy_pure _

end

end Ao2
