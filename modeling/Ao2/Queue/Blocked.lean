import Ao2.Checks
import Ao2.Queue.Closing
import Ao2.Texts.Lines

/-!
# Whether an entry whose execution fails is blocked

A plan is looked at before it is claimed, and whatever is wrong with it blocks its entry, unless its run
has no name. A project start is blocked by most of its steps, and by the others it is left as it is.

## Main results

* `blocked_iff_blocks` — when a failed call leaves its entry blocked
-/

namespace Ao2

open Interaction Json

/-! ### The call -/

section

variable {root : String} {f : Oracle QueueSignature} {file : Option Json}
  {h : List (Event QueueSignature)}

/-- A failed call has blocked its entry if and only if the run has a name and `P` holds. -/
def EndsBlocked (runId : String) (P : Observed → Prop) (w : AloneWorld) : Prop :=
  statusIn (fileEntries w.1) runId = some "blocked" ↔ isBlank runId = false ∧ P (observed w.2)

theorem endsBlocked_of_queued {runId : String} {P : Observed → Prop}
    (hstatus : statusIn (fileEntries file) runId = some "queued")
    (hno : ¬ (isBlank runId = false ∧ P (observed h))) : EndsBlocked runId P (file, h) := by
  refine iff_of_false ?_ hno
  rw [hstatus]
  decide

theorem alone_refuse_queued {α : Type} {Q : α → AloneWorld → Prop} {runId : String}
    {P : Observed → Prop} (hfile : Readable file)
    (hstatus : statusIn (fileEntries file) runId = some "queued") (hnamed : isBlank runId = false)
    (hP : P (observed h).written) (targetRoot reason message : String) :
    Alone root f (refuse targetRoot runId reason message) Q (EndsBlocked runId P) (file, h) := by
  refine alone_refuse targetRoot reason message hfile hstatus fun w hblocked hobs => ?_
  refine iff_of_true hblocked ⟨hnamed, ?_⟩
  rw [hobs]
  exact hP

/-- The entry is claimed. -/
theorem alone_claim {Q : Json → AloneWorld → Prop} {E : AloneWorld → Prop} {runId : String} {next : Json}
    (targetRoot reason : String) (hfile : Readable file)
    (hfind : findEntry (fileEntries file) runId = some next)
    (hQ : ∀ r file' now h', Running runId file' →
      fileEntries file' = updateEntry runId (transitionedEntry "running" reason now) (fileEntries file) →
      observed h' = (observed h).written → Q r (file', h')) :
    Alone root f (factoryQueueTransition targetRoot runId "running" reason) Q E (file, h) := by
  refine alone_transition targetRoot "running" reason hfile hfind
    fun r stored now h' hreadable hentries hobs => hQ r _ now h' ⟨hreadable, ?_⟩ hentries hobs
  rw [fileEntries, hentries, statusIn, findEntry_updateEntry (records_transitionedEntry _ _ _), if_pos rfl,
    hfind]
  exact (records_transitionedEntry "running" reason now).moves next
    (isObject_of_runIdOf (runIdOf_of_findEntry hfind))

theorem Running.completePlan {runId : String} {E : AloneWorld → Prop} (hrun : Running runId file)
    (targetRoot : String) (running runResult : Json) :
    Alone root f (completePlan targetRoot runId running runResult) (fun _ _ => True) E (file, h) := by
  refine (alone_load targetRoot hrun.readable fun queue h₁ hloaded _ => ?_).bind
  refine (alone_performQueue rfl fun now => ?_).bind
  obtain ⟨entry, hfind, -⟩ := Option.bind_eq_some_iff.mp hrun.status
  refine alone_store_load targetRoot (isObject_put hloaded.isObject) ?_ fun stored refreshed w => ?_
  · rw [index_put_of_ne (by decide) hloaded.isObject]
    exact hloaded.schema
  · refine Alone.bind (alone_ofExcept (fun entry _ => trivial) fun _ he => ?_)
    rw [completedEntry, hloaded.entries, hfind] at he
    cases he

theorem alone_checkQueuedPlan {Q : Unit → AloneWorld → Prop} {runId : String} (targetRoot : String)
    (next : Json) (hfile : Readable file) (hstatus : statusIn (fileEntries file) runId = some "queued")
    (hQ : ∀ h', isBlank runId = false → Q () (file, h')) :
    Alone root f (checkQueuedPlan targetRoot runId next) Q (EndsBlocked runId fun _ => True) (file, h) := by
  rw [checkQueuedPlan]
  by_cases hnamed : isBlank runId = true
  · rw [if_pos hnamed]
    have hends : EndsBlocked runId (fun _ => True) (file, h) := by
      refine endsBlocked_of_queued hstatus fun hno => ?_
      rw [hnamed] at hno
      exact absurd hno.1 (by decide)
    exact hends
  have hnamed' : isBlank runId = false := Bool.eq_false_iff.mpr hnamed
  have hrefuse (h' : List (Event QueueSignature)) (reason message : String) :
      Alone root f (refuse targetRoot runId reason message : QueueProg Unit) Q (EndsBlocked runId fun _ => True)
        (file, h') := alone_refuse_queued hfile hstatus hnamed' trivial targetRoot reason message
  rw [if_neg hnamed]
  refine (alone_performQueue rfl fun readable => ?_).bind
  cases readable with
  | false => exact hrefuse _ _ _
  | true =>
    refine (alone_performQueue rfl fun digest => ?_).bind
    cases digest with
    | error e => exact hrefuse _ _ _
    | ok sha256 =>
      dsimp only
      split_ifs
      · exact hrefuse _ _ _
      · exact hQ _ hnamed'

/-- **A plan whose execution fails** is blocked if its run has a name. -/
theorem alone_runNextPlan {next : Json} (options : FactoryQueueRunNextOptions) (targetRoot : String)
    (hfile : Readable file)
    (hfind : findEntry (fileEntries file) (jsonStringOf next "run_id") = some next)
    (hqueued : statusOf next = some "queued") :
    Alone root f (runNextPlan options targetRoot next) (fun _ _ => True)
      (EndsBlocked (jsonStringOf next "run_id") fun _ => True) (file, h) := by
  have hstatus : statusIn (fileEntries file) (jsonStringOf next "run_id") = some "queued" := by
    rw [statusIn, hfind]
    exact hqueued
  refine (alone_checkQueuedPlan targetRoot next hfile hstatus fun h₁ hnamed => ?_).bind
  refine (alone_claim targetRoot _ hfile hfind fun running file' now h₂ hrun _ _ => ?_).bind
  refine (alone_performQueue rfl fun executed => ?_).bind
  cases executed with
  | ok runResult => exact hrun.completePlan targetRoot running runResult
  | error e =>
    refine Alone.bind (alone_refuse targetRoot _ _ hrun.readable hrun.status fun w hblocked _ => ?_)
    exact iff_of_true hblocked ⟨hnamed, trivial⟩

/-- Nothing has been answered that is noted, but for the time before the claim. -/
theorem unhindered_claimed {entries : List Json} {runId : String} :
    Unhindered entries runId ⟨true, false, [], none, none⟩ where
  hindered := rfl
  bundle := by
    rintro v ⟨⟩
  result := by
    rintro v v' ⟨⟩
  own := by
    rintro d ⟨⟩
  last := by
    rintro d ⟨⟩

theorem alone_checkQueuedProjectStart {Q : Unit → AloneWorld → Prop} {entries : List Json}
    {runId : String} (targetRoot : String) (request : Json) (hfile : Readable file)
    (hstatus : statusIn (fileEntries file) runId = some "queued")
    (hobs : observed h = ⟨false, false, [], none, none⟩)
    (hQ : ∀ h', isBlank runId = false → observed h' = ⟨false, false, [], none, none⟩ → Q () (file, h')) :
    Alone root f (checkQueuedProjectStart targetRoot runId request) Q
      (EndsBlocked runId (Unhindered entries runId)) (file, h) := by
  rw [checkQueuedProjectStart]
  by_cases hnamed : isBlank runId = true
  · rw [if_pos hnamed]
    have hends : EndsBlocked runId (Unhindered entries runId) (file, h) := by
      refine endsBlocked_of_queued hstatus fun hno => ?_
      rw [hnamed] at hno
      exact absurd hno.1 (by decide)
    exact hends
  have hnamed' : isBlank runId = false := Bool.eq_false_iff.mpr hnamed
  have hrefuse {h' : List (Event QueueSignature)} (hobs' : observed h' = ⟨false, false, [], none, none⟩)
      (reason message : String) :
      Alone root f (refuse targetRoot runId reason message : QueueProg Unit) Q
        (EndsBlocked runId (Unhindered entries runId)) (file, h') := by
    refine alone_refuse_queued hfile hstatus hnamed' ?_ targetRoot reason message
    rw [hobs']
    exact unhindered_claimed
  rw [if_neg hnamed]
  refine (alone_performQueue rfl fun readable => ?_).bind
  have h₁obs (found : Bool) : observed (h ++ [⟨.isFile (jsonStringOf request "project_spec"), found⟩]) =
      ⟨false, false, [], none, none⟩ := by
    rw [observed_concat, hobs]
    rfl
  cases readable with
  | false => exact hrefuse (h₁obs false) _ _
  | true =>
    refine (alone_performQueue rfl fun digest => ?_).bind
    cases digest with
    | error e =>
      refine endsBlocked_of_queued hstatus fun hno => not_unhindered ?_ hno.2
      rw [observed_concat]
      rfl
    | ok sha256 =>
      have h₂obs : observed ((h ++ [⟨.isFile (jsonStringOf request "project_spec"), true⟩]) ++
          [⟨.sha256File (jsonStringOf request "project_spec"), .ok sha256⟩]) =
            ⟨false, false, [], none, none⟩ := by
        rw [observed_concat, h₁obs]
        rfl
      refine Alone.bind (alone_ofExcept (fun current hok => ?_) fun _ he => by cases he)
      split_ifs
      · exact hrefuse h₂obs _ _
      · exact hQ _ hnamed' h₂obs

/-- **A project start whose execution fails** is blocked if and only if its run has a name and it was not
hindered. -/
theorem alone_runNextProjectStart {next : Json} (options : FactoryQueueRunNextOptions) (targetRoot : String)
    (hfile : Readable file) (hs : SoundEntries (fileEntries file))
    (hfind : findEntry (fileEntries file) (jsonStringOf next "run_id") = some next)
    (hqueued : statusOf next = some "queued")
    (hkind : (next.get? "job_kind").bind Json.str? = some "factory_project_start")
    (hobs : observed h = ⟨false, false, [], none, none⟩) :
    Alone root f (runNextProjectStart options targetRoot next) (fun _ _ => True)
      (EndsBlocked (jsonStringOf next "run_id") (Unhindered (fileEntries file) (jsonStringOf next "run_id")))
      (file, h) := by
  have hstatus : statusIn (fileEntries file) (jsonStringOf next "run_id") = some "queued" := by
    rw [statusIn, hfind]
    exact hqueued
  refine (alone_checkQueuedProjectStart targetRoot _ hfile hstatus hobs fun h₁ hnamed h₁obs => ?_).bind
  refine (alone_claim targetRoot _ hfile hfind fun running file' now h₂ hrun hentries h₂obs => ?_).bind
  have h₂seen : Seen h₂ [] none none := by
    rw [Seen, h₂obs, h₁obs]
    rfl
  refine Machine.wp_mono (E := fun _ => Settled (fileEntries file) (jsonStringOf next "run_id")) ?_
    (fun _ _ => id) (fun _ _ => id) fun _ w hsettled => hsettled.trans (and_iff_right hnamed).symm
  refine Alone.bind (alone_performQueue rfl fun executed => ?_)
  cases executed with
  | error e =>
    have h₃seen : Seen (h₂ ++ [⟨.projectStart (projectStartOptions options (jsonStringOf next "run_id")
        (next.index "project_start_request")), .error e⟩]) [] none none := by
      rw [Seen, observed_concat, h₂seen]
      rfl
    exact Alone.bind (hrun.refuse h₃seen unhindered_claimed _ _ _)
  | ok v =>
    refine Alone.bind (alone_orRefuse_ok ?_)
    have h₃seen : Seen (h₂ ++ [⟨.projectStart (projectStartOptions options (jsonStringOf next "run_id")
        (next.index "project_start_request")), .ok v⟩]) [] (some v) none := by
      rw [Seen, observed_concat, h₂seen]
      rfl
    refine Alone.bind (hrun.verifyProjectStartBundle h₃seen _ _
      fun verification h₄ vdigest hbundle haccepted h₄seen => ?_)
    refine Alone.bind (hrun.summarizeProjectStart hbundle haccepted h₄seen _ _
      fun summary h₅ hresult h₅seen => ?_)
    exact hrun.completeProjectStart hs hfind hkind hentries h₅seen hbundle hresult _ _ _ _

/-- A text that begins with a letter is the text of a string. -/
theorem get?_of_jsonStringOf {v : Json} (h : jsonStringOf v "job_kind" = "factory_project_start") :
    (v.get? "job_kind").bind Json.str? = some "factory_project_start" := by
  rw [jsonStringOf] at h
  split at h
  · rename_i s hs
    rw [hs, h]
    rfl
  · exact absurd h (by decide)
  · exact absurd h (by decide)
  · rename_i other hstr hnull hother
    have htext := congrArg String.toList h
    rw [compact, String.toList_ofList] at htext
    cases other with
    | str s => exact absurd rfl (hstr s)
    | null => exact absurd rfl hnull
    | bool b => cases b <;> exact absurd htext (by decide)
    | num n =>
      obtain ⟨digits, hne, hdigits, hn | hn⟩ := toList_toString_int n
      · rw [compactText, hn] at htext
        exact absurd (hdigits 'f' (by rw [htext]; decide)) (by decide)
      · rw [compactText, hn] at htext
        cases htext
    | arr items => cases htext
    | obj members => cases htext

theorem findEntry_of_nextQueued {entries : List Json} (hs : SoundEntries entries) {next : Json}
    (h : nextQueued entries = .ok next) :
    findEntry entries (jsonStringOf next "run_id") = some next ∧ statusOf next = some "queued" := by
  rw [nextQueued] at h
  split at h
  · rename_i entry hfind
    obtain rfl := Except.ok.inj h
    have hmem := List.mem_of_find?_eq_some hfind
    obtain ⟨runId, hid⟩ := hs.named entry hmem
    have htext : jsonStringOf entry "run_id" = runId := by
      obtain ⟨v, hv, hs⟩ := Option.bind_eq_some_iff.mp hid
      cases v with
      | str s =>
        rw [jsonStringOf_eq hv]
        exact Option.some.inj hs
      | _ => cases hs
    rw [htext, findEntry_eq_some_iff hs.distinct]
    exact ⟨⟨hmem, hid⟩, by simpa using List.find?_some hfind⟩
  · cases h

theorem alone_canonicalTarget {Q : String → AloneWorld → Prop} {E : AloneWorld → Prop} (target : String)
    (hQ : ∀ h', observed h' = observed h → Q root (file, h')) :
    Alone root f (canonicalTarget target) Q E (file, h) := by
  refine ⟨trivial, hQ _ ?_⟩
  rw [observed_concat]
  rfl

theorem alone_factoryQueueLoad {Q : Json → AloneWorld → Prop} {E : AloneWorld → Prop} (target : String)
    (hQ : ∀ queue h', loadedQueue (factoryQueuePath target) (.ok file) = .ok queue →
      observed h' = observed h → Q queue (file, h'))
    (hE : ∀ e w, loadedQueue (factoryQueuePath target) (.ok file) = .error e → E w) :
    Alone root f (factoryQueueLoad target) Q E (file, h) := by
  refine ⟨trivial, alone_ofExcept (fun queue hqueue => hQ queue _ hqueue ?_) fun e he => hE e _ he⟩
  rw [observed_concat]
  rfl

/-- **What a call does alone** to the entry that it chooses. -/
theorem alone_factoryQueueRunNext (options : FactoryQueueRunNextOptions)
    (hs : SoundEntries (fileEntries file)) :
    Alone root f (factoryQueueRunNext options) (fun _ _ => True)
      (fun w => ∀ next, chosenEntry root file = .ok next →
        (statusIn (fileEntries w.1) (jsonStringOf next "run_id") = some "blocked" ↔
          Blocks (fileEntries file) next (observed w.2))) (file, []) := by
  have hvacuous {w : AloneWorld} {e : String} (he : chosenEntry root file = .error e) :
      ∀ next, chosenEntry root file = .ok next →
        (statusIn (fileEntries w.1) (jsonStringOf next "run_id") = some "blocked" ↔
          Blocks (fileEntries file) next (observed w.2)) := by
    intro next hnext
    rw [he] at hnext
    cases hnext
  refine (alone_ensureTargetRepo options.target fun h₁ h₁obs => ?_).bind
  refine (alone_canonicalTarget options.target fun h₂ h₂obs => ?_).bind
  refine (alone_factoryQueueLoad root (fun queue h₃ hqueue h₃obs => ?_) fun e w he =>
    hvacuous (bind_eq_error.mpr (.inl he))).bind
  have hreadable := readable_of_loadedQueue hqueue
  have hobs : observed h₃ = ⟨false, false, [], none, none⟩ := by
    rw [h₃obs, h₂obs, h₁obs]
    rfl
  have hchosen : chosenEntry root file = nextQueued (entriesOf queue) := by
    rw [chosenEntry, hqueue]
    rfl
  have hentries : entriesOf queue = fileEntries file := by
    obtain ⟨file', hfile, -, hentries⟩ := loadedQueue_ok hqueue
    rw [hentries, ← Except.ok.inj hfile]
  rw [hentries] at hchosen ⊢
  refine Alone.bind (alone_ofExcept (fun next hnext => ?_) fun e he => hvacuous (hchosen.trans he))
  obtain ⟨hfind, hqueued⟩ := findEntry_of_nextQueued hs hnext
  have honly {P : Observed → Prop} {w : AloneWorld} (hends : EndsBlocked (jsonStringOf next "run_id") P w)
      (hblocks : isBlank (jsonStringOf next "run_id") = false ∧ P (observed w.2) ↔
        Blocks (fileEntries file) next (observed w.2)) :
      ∀ next', chosenEntry root file = .ok next' →
        (statusIn (fileEntries w.1) (jsonStringOf next' "run_id") = some "blocked" ↔
          Blocks (fileEntries file) next' (observed w.2)) := by
    intro next' hnext'
    obtain rfl := Except.ok.inj ((hchosen.trans hnext).symm.trans hnext')
    exact hends.trans hblocks
  split_ifs with hkind
  · refine Machine.wp_mono (alone_runNextProjectStart options root hreadable hs hfind hqueued
      (get?_of_jsonStringOf hkind) hobs) (fun _ _ => id) (fun _ _ => id) fun _ w hends => honly hends ?_
    exact ⟨fun hb => ⟨hb.1, fun _ => hb.2⟩, fun hb => ⟨hb.named, hb.unhindered hkind⟩⟩
  · refine Machine.wp_mono (alone_runNextPlan options root hreadable hfind hqueued) (fun _ _ => id)
      (fun _ _ => id) fun _ w hends => honly hends ?_
    exact ⟨fun hb => ⟨hb.1, fun hproject => absurd hproject hkind⟩, fun hb => ⟨hb.named, trivial⟩⟩

end

/-- **An entry whose execution fails is blocked** if and only if its run has a name and, for a project
start, no step has failed that does not block it. The queue may come of any calls; the call itself runs
alone. -/
theorem blocked_iff_blocks (moves : List (PoolMove QueueCall QueueAnswers)) (root : String)
    (f : Oracle QueueSignature) (options : FactoryQueueRunNextOptions) {next : Json} {e : String}
    {w : AloneWorld} (hnext : chosenEntry root (queueRun moves).world = .ok next)
    (hrun : (aloneMachine root f).run (factoryQueueRunNext options) ((queueRun moves).world, []) =
      (.error e, w)) :
    statusIn (fileEntries w.1) (jsonStringOf next "run_id") = some "blocked" ↔
      Blocks (fileEntries (queueRun moves).world) next (observed w.2) := by
  have hends := (@alone_factoryQueueRunNext root f (queueRun moves).world options
    (sound_queueRun moves).1).run
  rw [hrun] at hends
  exact hends next hnext

/-! ### A plan that fails, and a run without a name -/

/-- Everything works but the execution of plans. -/
def failedPlan : Oracle QueueSignature := fun _ o =>
  match o with
  | .runPlan _ => .error "exit status 1"
  | o => workingAnswers o

/-- A plan is in the queue. -/
def plannedMoves (runId : String) : List (PoolMove QueueCall QueueAnswers) :=
  .spawn (.submit "repo" "plan.json" (some runId) none) :: acts 0 8

theorem exists_ok {α : Type} {r : Except String α} (h : r.isOk = true) : ∃ a, r = .ok a := by
  cases r with
  | ok a => exact ⟨a, rfl⟩
  | error e => cases h

theorem exists_error {α : Type} {r : Except String α} (h : r.isOk = false) : ∃ e, r = .error e := by
  cases r with
  | ok a => cases h
  | error e => exact ⟨e, rfl⟩

theorem blocked_iff_blocks_failedPlan : ∃ next e w,
    chosenEntry "repo" (queueRun (plannedMoves "run")).world = .ok next ∧
      (aloneMachine "repo" failedPlan).run (factoryQueueRunNext runNextOptions)
        ((queueRun (plannedMoves "run")).world, []) = (.error e, w) ∧
      (statusIn (fileEntries w.1) (jsonStringOf next "run_id") = some "blocked" ↔
        Blocks (fileEntries (queueRun (plannedMoves "run")).world) next (observed w.2)) := by
  have hchosen : (chosenEntry "repo" (queueRun (plannedMoves "run")).world).isOk = true := by
    decide +kernel
  have hfails : ((aloneMachine "repo" failedPlan).run (factoryQueueRunNext runNextOptions)
      ((queueRun (plannedMoves "run")).world, [])).1.isOk = false := by decide +kernel
  obtain ⟨next, hnext⟩ := exists_ok hchosen
  obtain ⟨e, he⟩ := exists_error hfails
  exact ⟨next, e, _, hnext, Prod.ext he rfl,
    blocked_iff_blocks (plannedMoves "run") "repo" failedPlan runNextOptions hnext (Prod.ext he rfl)⟩

/-- A run whose name is a blank is refused by every call and stays queued. -/
theorem not_blocked_unnamed : ¬ ∀ (moves : List (PoolMove QueueCall QueueAnswers)) (root : String)
    (f : Oracle QueueSignature) (options : FactoryQueueRunNextOptions) (next : Json) (e : String)
    (w : AloneWorld), chosenEntry root (queueRun moves).world = .ok next →
      (aloneMachine root f).run (factoryQueueRunNext options) ((queueRun moves).world, []) =
        (.error e, w) →
      statusIn (fileEntries w.1) (jsonStringOf next "run_id") = some "blocked" := by
  intro h
  have hchosen : ((chosenEntry "repo" (queueRun (plannedMoves " ")).world).map
      fun next => jsonStringOf next "run_id") = .ok " " := by decide +kernel
  have hfails : ((aloneMachine "repo" failedPlan).run (factoryQueueRunNext runNextOptions)
      ((queueRun (plannedMoves " ")).world, [])).1.isOk = false := by decide +kernel
  have hstatus : statusIn (fileEntries ((aloneMachine "repo" failedPlan).run
      (factoryQueueRunNext runNextOptions) ((queueRun (plannedMoves " ")).world, [])).2.1) " " =
        some "queued" := by decide +kernel
  obtain ⟨next, hnext, hid⟩ := map_eq_ok.mp hchosen
  obtain ⟨e, he⟩ := exists_error hfails
  have hblocked := h (plannedMoves " ") "repo" failedPlan runNextOptions next e _ hnext (Prod.ext he rfl)
  rw [hid, hstatus] at hblocked
  exact absurd hblocked (by decide)

end Ao2
