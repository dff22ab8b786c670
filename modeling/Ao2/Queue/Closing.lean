import Mathlib.Data.List.Find
import Ao2.Queue.Stuck

/-!
# The execution of a project start, alone

Stage by stage: what a stage is answered, and that it leaves the entry blocked where it fails unless it
was hindered. Towards the end the operator summary of the entry is looked at again, and that of the last
project start of the queue, which need not be the same.

## Main results

* `latestProjectStart_updateEntry` — which project start is the last one
-/

namespace Ao2

open Interaction Json

/-! ### The stages of a project start -/

/-- The result of a project start names its bundle. -/
def NamesBundle (v : Json) : Prop :=
  isBlank (jsonStringOf (v.index "hermes_queue_handoff") "project_start_bundle") = false

/-- The result of a project start names the file that it is in. -/
def NamesResult (v : Json) : Prop :=
  isBlank (jsonStringOf (v.index "artifacts") "factory_project_start") = false

/-- An execution that has not looked at operator summaries again. -/
theorem unhindered_of_length {entries : List Json} {runId : String} {digests : List String}
    {v : Json} {verified : Option Json} (hbundle : NamesBundle v)
    (hresult : ∀ v', verified = some v' → jsonStringOf v' "status" = "accepted" → NamesResult v)
    (hlength : digests.length ≤ 2) :
    Unhindered entries runId ⟨true, false, digests, some v, verified⟩ where
  hindered := rfl
  bundle := by
    rintro v ⟨⟩
    exact hbundle
  result := by
    rintro v v' ⟨⟩ hv'
    exact hresult v' hv'
  own d hd := by
    have hlt := (List.getElem?_eq_some_iff.mp hd).1
    exact absurd hlt (Nat.not_lt.mpr hlength)
  last d hd := by
    have hlt := (List.getElem?_eq_some_iff.mp hd).1
    exact absurd hlt (Nat.not_lt.mpr (Nat.le_succ_of_le hlength))

section

variable {root : String} {f : Oracle QueueSignature} {entries : List Json} {runId : String}
  {file : Option Json} {h : List (Event QueueSignature)} {v : Json}

theorem alone_orRefuse_ok {Q : Json → AloneWorld → Prop} {E : AloneWorld → Prop} {w : AloneWorld}
    {target reason message : String} (hQ : Q v w) :
    Alone root f (orRefuse target runId reason message (.ok v)) Q E w := hQ

theorem Running.verifyProjectStartBundle {Q : RecordedFile → AloneWorld → Prop}
    (hrun : Running runId file) (hseen : Seen h [] (some v) none) (targetRoot outDir : String)
    (hQ : ∀ r h' digest, NamesBundle v → jsonStringOf r.value "status" = "accepted" →
      Seen h' [digest] (some v) (some r.value) → Q r (file, h')) :
    Alone root f (verifyProjectStartBundle targetRoot runId outDir v) Q (Settled entries runId)
      (file, h) := by
  refine (hrun.resolvedRawPath hseen _ _ (fun hblank hU => ?_) fun hbundle bundle h₁ h₁seen => ?_).bind
  · rw [hU.bundle v rfl] at hblank
    cases hblank
  have hbundle : NamesBundle v := hbundle
  refine (alone_performQueue rfl fun verified => ?_).bind
  cases verified with
  | error e =>
    have h₂seen : Seen (h₁ ++ [⟨.projectStartBundleVerify bundle, .error e⟩]) [] (some v) none := by
      rw [Seen, observed_concat, h₁seen]
      rfl
    have hunread : ∀ v', none = some v' → jsonStringOf v' "status" = "accepted" → NamesResult v := by
      intro v' hv'
      cases hv'
    exact Alone.bind (hrun.refuse h₂seen (unhindered_of_length hbundle hunread (Nat.zero_le 2)) _ _ _)
  | ok verification =>
    have h₂seen : Seen (h₁ ++ [⟨.projectStartBundleVerify bundle, .ok verification⟩]) [] (some v)
        (some verification) := by
      rw [Seen, observed_concat, h₁seen]
      rfl
    refine (alone_orRefuse_ok ?_).bind
    refine (Alone.bind (hrun.atomicWrite h₂seen _ _ fun h₃ h₃seen => ?_)).bind
    refine hrun.sha256File h₃seen _ fun digest h₄ h₄seen => ?_
    refine (hrun.requireStatus h₄seen _ _ _ (fun hne => ?_) fun haccepted => ?_).bind
    · refine unhindered_of_length hbundle (fun v' hv' haccepted => ?_) (by simp)
      rw [← Option.some.inj hv'] at haccepted
      exact absurd haccepted hne
    · exact hQ _ _ digest hbundle haccepted h₄seen

theorem Running.summarizeProjectStart {Q : RecordedFile → AloneWorld → Prop}
    (hrun : Running runId file) {verification : RecordedFile} {digest : String}
    (hbundle : NamesBundle v) (haccepted : jsonStringOf verification.value "status" = "accepted")
    (hseen : Seen h [digest] (some v) (some verification.value)) (targetRoot outDir : String)
    (hQ : ∀ r h', NamesResult v → Seen h' [digest, r.sha256] (some v) (some verification.value) →
      Q r (file, h')) :
    Alone root f (summarizeProjectStart targetRoot runId outDir v verification) Q
      (Settled entries runId) (file, h) := by
  refine (hrun.resolvedRawPath hseen _ _ (fun hblank hU => ?_) fun hresult path h₁ h₁seen => ?_).bind
  · rw [hU.result v _ rfl rfl haccepted] at hblank
    cases hblank
  have hresult : NamesResult v := hresult
  have hU {digests : List String} (hlength : digests.length ≤ 2) :
      Unhindered entries runId ⟨true, false, digests, some v, some verification.value⟩ :=
    unhindered_of_length hbundle (fun _ _ _ => hresult) hlength
  refine (alone_performQueue rfl fun summarized => ?_).bind
  have h₂seen : Seen (h₁ ++ [⟨.projectStartSummary path verification.path, summarized⟩]) [digest]
      (some v) (some verification.value) := by
    rw [Seen, observed_concat, h₁seen]
    rfl
  refine (hrun.orRefuse h₂seen (hU (by simp)) _ _ _ fun summary _ => ?_).bind
  refine (hrun.atomicWrite h₂seen _ _ fun h₃ h₃seen => ?_).bind
  refine (hrun.atomicWrite h₃seen _ _ fun h₄ h₄seen => ?_).bind
  refine (hrun.sha256File h₄seen _ fun digest' h₅ h₅seen => ?_).bind
  refine (hrun.requireStatus h₅seen _ _ _ (fun _ => hU (by simp)) fun _ => ?_).bind
  exact hQ _ _ hresult h₅seen

end


/-! ### The last project start -/

theorem updateEntry_eq_map {entries : List Json} (hs : (entries.map runIdOf).Nodup) (runId : String)
    (change : Json → Json) : updateEntry runId change entries =
      entries.map fun entry => if runIdOf entry = some runId then change entry else entry := by
  induction entries with
  | nil => rfl
  | cons entry entries ih =>
    rw [List.map_cons, List.nodup_cons] at hs
    rw [updateEntry, List.map_cons]
    by_cases hid : runIdOf entry = some runId
    · have hothers : entries.map (fun e => if runIdOf e = some runId then change e else e) = entries := by
        refine (List.map_congr_left fun e he => if_neg fun heq => ?_).trans (List.map_id entries)
        exact hs.1 (by rw [hid, ← heq]; exact List.mem_map_of_mem he)
      rw [if_pos hid, if_pos hid, hothers]
    · rw [if_neg hid, if_neg hid, ih hs.2]

/-- An entry that is the last project start to close, if no other one comes after it. -/
abbrev Closable (entry : Json) : Prop :=
  (entry.get? "job_kind").bind Json.str? = some "factory_project_start" ∧
    factoryQueueStatusIsTerminal (jsonStringOf entry "status") = true

/-- **The last project start** after a completion is the one that was said. -/
theorem latestProjectStart_updateEntry {entries : List Json} (hs : SoundEntries entries)
    {runId : String} {next : Json} (hfind : findEntry entries runId = some next)
    {change : Json → Json} (hclosable : Closable (change next)) :
    ∃ e, lastProjectStart entries runId = some e ∧ (runIdOf e = some runId → e = next) ∧
      latestProjectStart (updateEntry runId change entries) =
        .ok (if runIdOf e = some runId then change e else e) ∧
      Closable (if runIdOf e = some runId then change e else e) := by
  have hnext := mem_of_findEntry hfind
  have hid := runIdOf_of_findEntry hfind
  have hown (e : Json) (he : e ∈ entries) (heid : runIdOf e = some runId) : e = next :=
    Option.some.inj (((findEntry_eq_some_iff hs.distinct).mpr ⟨he, heid⟩).symm.trans hfind)
  have hpred : ∀ e ∈ entries.reverse,
      decide (Closable (if runIdOf e = some runId then change e else e)) =
        decide (runIdOf e = some runId ∨ Closable e) := by
    intro e he
    by_cases heid : runIdOf e = some runId
    · rw [if_pos heid, hown e (List.mem_reverse.mp he) heid, decide_eq_true hclosable,
        decide_eq_true (.inl hid)]
    · rw [if_neg heid]
      simp [heid]
  obtain ⟨e, he⟩ : ∃ e, lastProjectStart entries runId = some e := by
    refine Option.isSome_iff_exists.mp (List.find?_isSome.mpr ⟨next, List.mem_reverse.mpr hnext, ?_⟩)
    exact decide_eq_true (.inl hid)
  have hfound : (updateEntry runId change entries).reverse.find? (fun entry => decide (Closable entry)) =
      some (if runIdOf e = some runId then change e else e) := by
    have hbefore := (List.find?_congr hpred).trans he
    rw [updateEntry_eq_map hs.distinct, ← List.map_reverse, List.find?_map]
    exact congrArg _ hbefore
  have hlatest : latestProjectStart (updateEntry runId change entries) =
      .ok (if runIdOf e = some runId then change e else e) := by
    unfold latestProjectStart
    -- the entry is searched by the two parts of `Closable`
    generalize hlast : List.find? _ _ = found
    obtain rfl : found = _ := hlast.symm.trans hfound
    rfl
  have hmem := List.mem_reverse.mp (List.mem_of_find?_eq_some he)
  refine ⟨e, he, hown e hmem, hlatest, ?_⟩
  have hholds := List.find?_some he
  rw [← hpred e (List.mem_reverse.mpr hmem)] at hholds
  exact of_decide_eq_true hholds

/-! ### What is read of a completed entry -/

theorem get?_transitionedEntry {status reason now key : String} {entry : Json}
    (hentry : entry.isObject = true)
    (hkey : key ∉ ["status", "updated_at", "attempts", "transition_history"]) :
    (transitionedEntry status reason now entry).get? key = entry.get? key := by
  simp only [List.mem_cons, not_or] at hkey
  obtain ⟨hstatus, hupdated, hattempts, hhistory, -⟩ := hkey
  have hmoved : (entry.putAll [("status", .str status), ("updated_at", .str now)]).isObject = true :=
    isObject_putAll hentry
  have hcounted : (entry.putAll [("status", .str status), ("updated_at", .str now)]).get? key =
      entry.get? key := get?_putAll_of_not_mem hentry (by simp [hstatus, hupdated])
  rw [transitionedEntry]
  split_ifs
  · rw [get?_pushRecord (isObject_put hmoved) hhistory, get?_put_of_ne hattempts hmoved, hcounted]
  · rw [get?_pushRecord hmoved hhistory, hcounted]

theorem isObject_putIn {v member : Json} {outer inner : String} (h : v.isObject = true) :
    (v.putIn outer inner member).isObject = true := isObject_put h

theorem get?_putIn_of_ne {v member : Json} {key outer inner : String} (hne : key ≠ outer)
    (h : v.isObject = true) : (v.putIn outer inner member).get? key = v.get? key :=
  get?_put_of_ne hne h

section

variable {finalStatus now outDir : String} {projectStart : Json} {verification summary : RecordedFile}
  {entry : Json}

/-- A completion assigns other members and adds a record. -/
theorem exists_assigned_completedProjectStartEntry (hentry : entry.isObject = true) :
    ∃ members : List (String × Json),
      (∀ key ∉ ["transition_history", "parity_checklist_progress"],
        (completedProjectStartEntry finalStatus now outDir projectStart verification summary entry).get?
          key = (entry.putAll members).get? key) ∧
      "job_kind" ∉ members.map Prod.fst ∧
      members.reverse.lookup "project_start_operator_summary_sha256" = some (.str summary.sha256) := by
  refine ⟨?members, fun key hkey => ?assigned, ?_, ?_⟩
  case assigned =>
    simp only [List.mem_cons, not_or] at hkey
    obtain ⟨hhistory, hprogress, -⟩ := hkey
    rw [completedProjectStartEntry]
    have hassigned (members : List (String × Json)) : (entry.putAll members).isObject = true :=
      isObject_putAll hentry
    rw [get?_pushRecord (isObject_putIn (isObject_putIn (isObject_putIn (hassigned _)))) hhistory,
      get?_putIn_of_ne hprogress (isObject_putIn (isObject_putIn (hassigned _))),
      get?_putIn_of_ne hprogress (isObject_putIn (hassigned _)),
      get?_putIn_of_ne hprogress (hassigned _)]
  · simp
  · rfl

theorem job_kind_completedProjectStartEntry (hentry : entry.isObject = true) :
    (completedProjectStartEntry finalStatus now outDir projectStart verification summary entry).get?
      "job_kind" = entry.get? "job_kind" := by
  obtain ⟨members, hassigned, hkind, -⟩ := exists_assigned_completedProjectStartEntry hentry
  rw [hassigned "job_kind" (by decide), get?_putAll_of_not_mem hentry hkind]

theorem summary_completedProjectStartEntry (hentry : entry.isObject = true) :
    memberAsText (completedProjectStartEntry finalStatus now outDir projectStart verification summary
      entry) "project_start_operator_summary_sha256" = summary.sha256 := by
  obtain ⟨members, hassigned, -, hdigest⟩ := exists_assigned_completedProjectStartEntry hentry
  rw [memberAsText, hassigned _ (by decide), get?_putAll hentry, hdigest]
  rfl

end


/-! ### The completion of a project start -/

section

variable {root : String} {f : Oracle QueueSignature} {entries : List Json} {runId : String}
  {file : Option Json} {h : List (Event QueueSignature)} {digests : List String}
  {started verified : Option Json}

/-- What has been observed once the operator summaries have been looked at again. -/
structure Late (entries : List Json) (runId : String) (digests : List String)
    (started verified : Option Json) : Prop where
  length : 4 ≤ digests.length
  unhindered : Unhindered entries runId ⟨true, false, digests, started, verified⟩

theorem Late.concat (hlate : Late entries runId digests started verified) (digest : String) :
    Late entries runId (digests ++ [digest]) started verified := by
  have hlength := hlate.length
  have hkeeps {n : ℕ} (hn : n < 4) : (digests ++ [digest])[n]? = digests[n]? :=
    List.getElem?_append_left (by omega)
  refine ⟨by rw [List.length_append]; omega, rfl, hlate.unhindered.bundle, hlate.unhindered.result, ?_, ?_⟩
  · intro d hd
    dsimp only at hd ⊢
    rw [hkeeps (by decide)] at hd ⊢
    exact hlate.unhindered.own d hd
  · intro d hd
    dsimp only at hd
    rw [hkeeps (by decide)] at hd
    rw [recordedDigest]
    dsimp only
    rw [hkeeps (by decide)]
    exact hlate.unhindered.last d hd

/-- An operation that nothing is noted of. -/
theorem Seen.performQueue {o : QueueOp} {Q : o.Ans → AloneWorld → Prop} {E : AloneWorld → Prop}
    (hseen : Seen h digests started verified) (ho : o.outside = true)
    (hnoted : ∀ (a : o.Ans) (x : Observed), x.add ⟨o, a⟩ = x)
    (hQ : ∀ a h', Seen h' digests started verified → Q a (file, h')) :
    Alone root f (performQueue o) Q E (file, h) := by
  refine alone_performQueue ho fun a => hQ a _ ?_
  rw [Seen, observed_concat, hnoted, hseen]

theorem Running.writeHashed {Q : String → AloneWorld → Prop} (hrun : Running runId file)
    (hseen : Seen h digests started verified) (path : String) (v : Json)
    (hQ : ∀ digest h', Seen h' (digests ++ [digest]) started verified → Q digest (file, h')) :
    Alone root f (writeHashed path v) Q (Settled entries runId) (file, h) :=
  (hrun.atomicWrite hseen _ _ fun _ hseen' => hrun.sha256File hseen' _ hQ).bind

theorem Running.packageClosure {Q : Packaged → AloneWorld → Prop} (hrun : Running runId file)
    (hlate : Late entries runId digests started verified) (hseen : Seen h digests started verified)
    (targetRoot outDir statusPath latestPath : String)
    (hQ : ∀ r h' digests', Late entries runId digests' started verified →
      Seen h' digests' started verified → Q r (file, h')) :
    Alone root f (packageClosure targetRoot runId outDir statusPath latestPath) Q
      (Settled entries runId) (file, h) := by
  refine (hseen.performQueue rfl (fun _ _ => rfl) fun packaged h₁ h₁seen => ?_).bind
  refine (hrun.orRefuse h₁seen hlate.unhindered _ _ _ fun closure _ => ?_).bind
  refine (hrun.atomicWrite h₁seen _ _ fun h₂ h₂seen => ?_).bind
  refine (hrun.sha256File h₂seen _ fun archiveDigest h₃ h₃seen => ?_).bind
  refine (hrun.sha256File h₃seen _ fun jsonDigest h₄ h₄seen => ?_).bind
  have hlate₄ := (hlate.concat archiveDigest).concat jsonDigest
  refine (hrun.requireStatus h₄seen _ _ _ (fun _ => hlate₄.unhindered) fun _ => ?_).bind
  refine (h₄seen.performQueue rfl (fun _ _ => rfl) fun verified h₅ h₅seen => ?_).bind
  refine (hrun.orRefuse h₅seen hlate₄.unhindered _ _ _ fun verification _ => ?_).bind
  refine (hrun.writeHashed h₅seen _ _ fun digest h₆ h₆seen => ?_).bind
  have hlate₆ := hlate₄.concat digest
  refine (hrun.requireStatus h₆seen _ _ _ (fun _ => hlate₆.unhindered) fun _ => ?_).bind
  exact hQ _ _ _ hlate₆ h₆seen

theorem Running.packageReplacementPacket {Q : Packaged → AloneWorld → Prop} (hrun : Running runId file)
    (hlate : Late entries runId digests started verified) (hseen : Seen h digests started verified)
    (targetRoot outDir statusPath latestPath : String) (closure : Packaged)
    (hQ : ∀ r h', Q r (file, h')) :
    Alone root f (packageReplacementPacket targetRoot runId outDir statusPath latestPath closure) Q
      (Settled entries runId) (file, h) := by
  refine (hseen.performQueue rfl (fun _ _ => rfl) fun packaged h₁ h₁seen => ?_).bind
  refine (hrun.orRefuse h₁seen hlate.unhindered _ _ _ fun packet _ => ?_).bind
  refine (hrun.writeHashed h₁seen _ _ fun jsonDigest h₂ h₂seen => ?_).bind
  refine (hrun.sha256File h₂seen _ fun archiveDigest h₃ h₃seen => ?_).bind
  have hlate₃ := (hlate.concat jsonDigest).concat archiveDigest
  refine (hrun.requireStatus h₃seen _ _ _ (fun _ => hlate₃.unhindered) fun _ => ?_).bind
  refine (h₃seen.performQueue rfl (fun _ _ => rfl) fun verified h₄ h₄seen => ?_).bind
  refine (hrun.orRefuse h₄seen hlate₃.unhindered _ _ _ fun verification _ => ?_).bind
  refine (hrun.writeHashed h₄seen _ _ fun digest h₅ h₅seen => ?_).bind
  refine (hrun.requireStatus h₅seen _ _ _ (fun _ => (hlate₃.concat digest).unhindered) fun _ => ?_).bind
  exact hQ _ _

/-- The operator summary of an entry is looked at again. -/
theorem Running.checkOperatorSummary {Q : Unit → AloneWorld → Prop} (hrun : Running runId file)
    (hseen : Seen h digests started verified) {entry : Json} (id : String)
    (hbad : ∀ d, ¬ (isBlank (memberAsText entry "project_start_operator_summary_sha256") = false ∧
        memberAsText entry "project_start_operator_summary_sha256" = d) →
      ¬ Unhindered entries runId ⟨true, false, digests ++ [d], started, verified⟩)
    (hQ : ∀ h', isBlank (memberAsText entry "project_start_operator_summary_sha256") = false →
      Seen h' (digests ++ [memberAsText entry "project_start_operator_summary_sha256"]) started
        verified → Q () (file, h')) :
    Alone root f (checkOperatorSummary entry id) Q (Settled entries runId) (file, h) := by
  refine (hrun.isFile hseen _ (fun h₁ h₁seen => ?_) fun h₁ hsettled => ?_).bind
  · refine (alone_ofExcept (fun _ _ => ?_) fun e he => by cases he).bind
    refine (alone_performQueue rfl fun hashed => ?_).bind
    cases hashed with
    | error e => exact hrun.settled (observed_concat _ _) (not_unhindered rfl)
    | ok actual =>
      have h₂seen : Seen (h₁ ++ [⟨.sha256File (memberAsText entry "project_start_operator_summary"),
          .ok actual⟩]) (digests ++ [actual]) started verified := by
        rw [Seen, observed_concat, h₁seen]
        rfl
      refine Alone.bind (alone_ofExcept (fun actual' hok => ?_) fun _ he => by cases he)
      obtain rfl : actual = actual' := Except.ok.inj hok
      refine alone_ofExcept (fun _ hok => ?_) fun _ he => ?_
      · rw [check] at hok
        split_ifs at hok with hsame
        simp only [Bool.and_eq_true, Bool.not_eq_true', decide_eq_true_eq] at hsame
        refine hQ _ hsame.1 ?_
        rw [hsame.2]
        exact h₂seen
      · rw [check] at he
        split_ifs at he with hsame
        simp only [Bool.and_eq_true, Bool.not_eq_true', decide_eq_true_eq] at hsame
        exact hrun.settled h₂seen (hbad actual hsame)
  · exact Alone.bind (alone_ofExcept (fun _ hok => by cases hok) fun _ _ => hsettled)

/-- A status that has been looked at again. -/
theorem Running.statusDetail {Q : Json → AloneWorld → Prop} (hrun : Running runId file)
    (hseen : Seen h digests started verified) (queue : Json) {entry : Json} (id : String)
    (hterminal : factoryQueueStatusIsTerminal (memberAsText entry "status") = true)
    (hkind : (entry.get? "job_kind").bind Json.str? = some "factory_project_start")
    (hbad : ∀ d, ¬ (isBlank (memberAsText entry "project_start_operator_summary_sha256") = false ∧
        memberAsText entry "project_start_operator_summary_sha256" = d) →
      ¬ Unhindered entries runId ⟨true, false, digests ++ [d], started, verified⟩)
    (hQ : ∀ v h', isBlank (memberAsText entry "project_start_operator_summary_sha256") = false →
      Seen h' (digests ++ [memberAsText entry "project_start_operator_summary_sha256"]) started
        verified → Q v (file, h')) :
    Alone root f (factoryQueueStatusDetail queue entry id) Q (Settled entries runId) (file, h) := by
  have hjob : memberAsText entry "job_kind" = "factory_project_start" := by
    rw [memberAsText, hkind]
    rfl
  refine Alone.bind (alone_ofExcept (fun _ _ => ?_) fun _ he => ?_)
  · rw [if_pos hjob]
    exact (hrun.checkOperatorSummary hseen id hbad fun h' hblank hseen' => hQ _ h' hblank hseen').bind
  · rw [check, if_pos hterminal] at he
    cases he

/-- The text of a status that a sound entry has. -/
theorem status_of_isRun {entry : Json} (h : IsRun entry) :
    memberAsText entry "status" = jsonStringOf entry "status" := by
  obtain ⟨status, hstatus⟩ := h.status
  rw [jsonStringOf_eq (get?_of_statusOf hstatus), memberAsText, get?_of_statusOf hstatus]
  rfl

/-- The statuses of the entry and of the last project start are written, if the operator summaries of
both are as they were. -/
theorem Running.writeQueueStatuses {Q : String × String → AloneWorld → Prop} {v v' next queue : Json}
    {vdigest summary : String} {change : Json → Json} (hrun : Running runId file)
    (hs : SoundEntries entries) (hfind : findEntry entries runId = some next)
    (hclosable : Closable (change next))
    (hstatus : memberAsText (change next) "status" = jsonStringOf (change next) "status")
    (hsummary : memberAsText (change next) "project_start_operator_summary_sha256" = summary)
    (hqueue : entriesOf queue = updateEntry runId change entries)
    (hseen : Seen h [vdigest, summary] (some v) (some v')) (hbundle : NamesBundle v)
    (hresult : NamesResult v) (outDir : String)
    (hQ : ∀ paths h' digests', Late entries runId digests' (some v) (some v') →
      Seen h' digests' (some v) (some v') → Q paths (file, h')) :
    Alone root f (writeQueueStatuses outDir runId queue (change next)) Q (Settled entries runId)
      (file, h) := by
  refine (hrun.statusDetail hseen queue runId (hstatus ▸ hclosable.2) hclosable.1
    (fun d hne hU => ?_) fun status h₁ hblank h₁seen => ?_).bind
  · obtain ⟨hblank, hsame⟩ := hU.own d rfl
    obtain rfl : summary = d := Option.some.inj hsame
    exact hne ⟨by rw [hsummary]; exact hblank, hsummary⟩
  obtain ⟨e, hlast, hown, hlatest, hclosable'⟩ :=
    latestProjectStart_updateEntry hs hfind hclosable
  rw [hsummary] at hblank h₁seen
  refine Alone.bind (alone_ofExcept (fun latest hok => ?_) fun _ he => ?_)
  rotate_left
  · rw [hqueue, hlatest] at he
    cases he
  rw [hqueue, hlatest] at hok
  obtain rfl := Except.ok.inj hok
  generalize hx : (if runIdOf e = some runId then change e else e) = latest at *
  have hmember : e ∈ entries :=
    List.mem_reverse.mp (List.mem_of_find?_eq_some hlast)
  have hlatestStatus : memberAsText latest "status" = jsonStringOf latest "status" := by
    by_cases hid : runIdOf e = some runId
    · rw [if_pos hid, hown hid] at hx
      rw [← hx, hstatus]
    · rw [if_neg hid] at hx
      rw [← hx, status_of_isRun (hs.runs e hmember)]
  -- What the queue has recorded of the last project start.
  have hrecorded (d : String) : recordedDigest entries runId
      ⟨true, false, [vdigest, summary, summary, d], some v, some v'⟩ =
        some (memberAsText latest "project_start_operator_summary_sha256") := by
    rw [recordedDigest, hlast, Option.bind_some]
    by_cases hid : runIdOf e = some runId
    · rw [if_pos hid, hown hid] at hx
      rw [if_pos hid, ← hx, hsummary]
      rfl
    · rw [if_neg hid] at hx
      rw [if_neg hid, hx]
  refine (hrun.statusDetail h₁seen queue _ (hlatestStatus ▸ hclosable'.2) hclosable'.1
    (fun d hne hU => ?_) fun latestStatus h₂ hblank' h₂seen => ?_).bind
  · obtain ⟨hblank', hsame⟩ := hU.last d rfl
    obtain rfl := Option.some.inj ((hrecorded d).symm.trans hsame)
    exact hne ⟨hblank', rfl⟩
  refine (hrun.atomicWrite h₂seen _ _ fun h₃ h₃seen => ?_).bind
  refine (hrun.atomicWrite h₃seen _ _ fun h₄ h₄seen => ?_).bind
  refine hQ _ h₄ _ ⟨le_refl 4, rfl, ?_, ?_, ?_, ?_⟩ h₄seen
  · rintro v ⟨⟩
    exact hbundle
  · rintro v v' ⟨⟩ ⟨⟩ -
    exact hresult
  · rintro d ⟨⟩
    exact ⟨hblank, rfl⟩
  · rintro d ⟨⟩
    exact ⟨hblank', hrecorded _⟩

theorem terminal_projectStartFinalStatus (projectStart : Json) :
    factoryQueueStatusIsTerminal (projectStartFinalStatus projectStart) = true := by
  rw [projectStartFinalStatus]
  split <;> decide

/-- A store after which nothing can fail. -/
theorem alone_store_load {Q : Json → AloneWorld → Prop} {E : AloneWorld → Prop} (target : String)
    {queue : Json} (hobject : queue.isObject = true)
    (hschema : queue.index "schema_version" = .str factoryQueueSchema)
    {g : String × Json → Json → QueueProg Json} (hg : ∀ stored refreshed w, Alone root f (g stored refreshed) Q E w) :
    Alone root f ((factoryQueueStore target queue).bind fun stored =>
      (factoryQueueLoad target).bind (g stored)) Q E (file, h) := by
  refine (alone_store target hobject hschema fun path stored h₁ _ hreadable _ => ?_).bind
  exact (alone_load target hreadable fun refreshed h₂ _ _ => hg _ _ _).bind

/-- **The completion of a project start** fails with its entry running if and only if it is hindered. -/
theorem Running.completeProjectStart {v v' next : Json} {vdigest reason now : String}
    {verification summary : RecordedFile} (hrun : Running runId file) (hs : SoundEntries entries)
    (hfind : findEntry entries runId = some next)
    (hkind : (next.get? "job_kind").bind Json.str? = some "factory_project_start")
    (hfile : fileEntries file = updateEntry runId (transitionedEntry "running" reason now) entries)
    (hseen : Seen h [vdigest, summary.sha256] (some v) (some v')) (hbundle : NamesBundle v)
    (hresult : NamesResult v) (targetRoot outDir : String) (running projectStart : Json) :
    Alone root f (completeProjectStart targetRoot runId outDir running projectStart verification summary)
      (fun _ _ => True) (Settled entries runId) (file, h) := by
  have hobject : next.isObject = true := isObject_of_runIdOf (runIdOf_of_findEntry hfind)
  have hclaim := records_transitionedEntry "running" reason now
  refine (alone_load targetRoot hrun.readable fun queue h₁ hloaded h₁obs => ?_).bind
  have h₁seen : Seen h₁ [vdigest, summary.sha256] (some v) (some v') := h₁obs.trans hseen
  refine (h₁seen.performQueue rfl (fun _ _ => rfl) fun now' h₂ h₂seen => ?_).bind
  obtain ⟨reason', hcomplete⟩ :=
    records_completedProjectStartEntry now' outDir projectStart verification summary
  have hclaimed : (transitionedEntry "running" reason now next).isObject = true :=
    hclaim.isObject next hobject
  have hstatus := hcomplete.moves _ hclaimed
  have hkind' := @job_kind_completedProjectStartEntry (projectStartFinalStatus projectStart) now' outDir
    projectStart verification summary _ hclaimed
  have hsummary := @summary_completedProjectStartEntry (projectStartFinalStatus projectStart) now' outDir
    projectStart verification summary _ hclaimed
  generalize completedProjectStartEntry (projectStartFinalStatus projectStart) now' outDir projectStart
    verification summary = complete at *
  have hentries : updateEntry runId complete (entriesOf queue) =
      updateEntry runId (fun entry => complete (transitionedEntry "running" reason now entry)) entries := by
    rw [hloaded.entries, hfile, updateEntry_updateEntry hclaim]
  have hfound : findEntry (entriesOf queue) runId = some (transitionedEntry "running" reason now next) := by
    rw [hloaded.entries, hfile, findEntry_updateEntry hclaim, if_pos rfl, hfind]
    rfl
  have hclosable : Closable (complete (transitionedEntry "running" reason now next)) := by
    refine ⟨?_, ?_⟩
    · rw [hkind', get?_transitionedEntry hobject (by decide)]
      exact hkind
    · rw [jsonStringOf_eq (get?_of_statusOf hstatus)]
      exact terminal_projectStartFinalStatus projectStart
  have hput : (queue.put "entries" (.arr (updateEntry runId complete (entriesOf queue)))).isObject = true :=
    isObject_put hloaded.isObject
  refine Alone.bind (alone_ofExcept (fun entry hok => ?_) fun _ he => ?_)
  rotate_left
  · rw [completedEntry, hfound] at he
    cases he
  rw [completedEntry, hfound] at hok
  obtain rfl := Except.ok.inj hok
  have htext : memberAsText (complete (transitionedEntry "running" reason now next)) "status" =
      jsonStringOf (complete (transitionedEntry "running" reason now next)) "status" := by
    rw [jsonStringOf_eq (get?_of_statusOf hstatus), memberAsText, get?_of_statusOf hstatus]
    rfl
  have hqueue := (entriesOf_put_entries hloaded.isObject _).trans hentries
  refine Alone.bind (hrun.writeQueueStatuses hs hfind hclosable htext hsummary hqueue h₂seen hbundle
    hresult outDir fun paths h₃ digests hlate h₃seen => ?_)
  refine (hrun.packageClosure hlate h₃seen _ _ _ _ fun closure h₄ digests' hlate' h₄seen => ?_).bind
  refine (hrun.sha256File h₄seen _ fun statusDigest h₅ h₅seen => ?_).bind
  refine (hrun.sha256File h₅seen _ fun latestDigest h₆ h₆seen => ?_).bind
  refine (hrun.packageReplacementPacket ((hlate'.concat statusDigest).concat latestDigest) h₆seen _ _ _ _
    closure fun packet h₇ => ?_).bind
  refine alone_store_load targetRoot (isObject_put hput) ?_ fun stored refreshed w => ?_
  · rw [index_put_of_ne (by decide) hput, index_put_of_ne (by decide) hloaded.isObject]
    exact hloaded.schema
  · refine Alone.bind (alone_ofExcept (fun entry _ => trivial) fun _ he => ?_)
    rw [completedEntry, findEntry_updateEntry hcomplete, if_pos rfl, hfound] at he
    cases he

end

end Ao2
