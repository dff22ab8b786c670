import Ao2.Queue.Calls

/-!
# The calls, stage by stage

Whatever the environment answers, a call writes back the copy of the queue that it read last, with
one entry added or changed, and executes a run only right after the write that claimed it.
-/

namespace Ao2

open Interaction

/-! ### What the completion writes -/

theorem planFinalStatus_ne_queued (runResult : Json) : planFinalStatus runResult ≠ "queued" := by
  rw [planFinalStatus]
  split <;> decide

theorem projectStartFinalStatus_ne_queued (projectStart : Json) :
    projectStartFinalStatus projectStart ≠ "queued" := by
  rw [projectStartFinalStatus]
  split <;> decide

theorem records_completedPlanEntry (now : String) (runResult : Json) :
    ∃ reason, Records (planFinalStatus runResult) reason
      (completedPlanEntry (planFinalStatus runResult) now runResult) :=
  ⟨_, records_completion (decorates_putAll (by simp)) (planFinalStatus_ne_queued runResult)⟩

theorem records_completedProjectStartEntry (now outDir : String) (projectStart : Json)
    (verification summary : RecordedFile) :
    ∃ reason, Records (projectStartFinalStatus projectStart) reason
      (completedProjectStartEntry (projectStartFinalStatus projectStart) now outDir projectStart
        verification summary) :=
  ⟨_, records_completion ((decorates_putIn (by decide)).comp ((decorates_putIn (by decide)).comp
    ((decorates_putIn (by decide)).comp (decorates_putAll (by simp)))))
    (projectStartFinalStatus_ne_queued projectStart)⟩

theorem decorates_closedProjectStartEntry (statusPath statusSha256 latestPath latestSha256 : String)
    (closure packet : Packaged) :
    Decorates (closedProjectStartEntry statusPath statusSha256 latestPath latestSha256 closure packet) :=
  (decorates_putIn (by decide)).comp ((decorates_putIn (by decide)).comp
    ((decorates_putIn (by decide)).comp ((decorates_putIn (by decide)).comp
      (decorates_putAll (by simp)))))

/-- Two changes of the same entry are one. -/
theorem updateEntry_updateEntry {runId status reason : String} {change : Json → Json}
    (h : Records status reason change) (change' : Json → Json) (entries : List Json) :
    updateEntry runId change' (updateEntry runId change entries) =
      updateEntry runId (fun entry => change' (change entry)) entries := by
  induction entries with
  | nil => rfl
  | cons entry entries ih =>
    rw [updateEntry, updateEntry]
    by_cases hid : runIdOf entry = some runId
    · rw [if_pos hid, if_pos hid, updateEntry, if_pos]
      rw [h.keeps entry (isObject_of_runIdOf hid), hid]
    · rw [if_neg hid, if_neg hid, updateEntry, if_neg hid, ih]

theorem completedEntry_ok {entries : List Json} {runId message : String} {change : Json → Json}
    {entry : Json} (h : completedEntry entries runId message change = .ok entry) :
    ∃ e, findEntry entries runId = some e := by
  rw [completedEntry] at h
  split at h
  · exact ⟨_, ‹_›⟩
  · cases h

/-! ### Completions -/

section

variable {runId : String} {h : List (Event QueueSignature)}

theorem completePlan_traced (options : FactoryQueueRunNextOptions) (targetRoot : String)
    (running runResult : Json) :
    (completePlan targetRoot runId running runResult).Traced (RunNextAsks runId)
      (Reports (.runNext options)) (fun _ _ => True) h := by
  refine Prog.traced_bind.mpr (factoryQueueLoad_traced _ (fun _ _ => asks_of_counts)
    (fun found queue hobject hentries => ?_) fun _ _ => trivial)
  refine ⟨trivial, fun now => ?_⟩
  dsimp only [Prog.done_bind]
  refine Prog.traced_bind.mpr (factoryQueueStore_traced _ (Json.isObject_put hobject)
    (fun _ _ => asks_of_counts) (fun now' stored hstored => ?_) fun _ _ => trivial)
  rw [entriesOf_put_entries hobject, hentries] at hstored
  obtain ⟨reason, hrecords⟩ := records_completedPlanEntry now runResult
  have hread : lastRead (((h ++ [⟨.readQueueFile, .ok found⟩]) ++ [⟨.now, now⟩]) ++
      [⟨.now, now'⟩]) = some found :=
    (lastRead_of_readBy rfl _).trans ((lastRead_of_readBy rfl _).trans (lastRead_read _ _))
  have hchanges : Changes _ stored runId (planFinalStatus runResult) reason :=
    ⟨found, _, hread, hrecords, hstored⟩
  refine ⟨⟨_, reason, planFinalStatus_ne_queued runResult, hchanges⟩, fun path => ?_⟩
  refine Prog.traced_bind.mpr (factoryQueueLoad_traced _ (fun _ _ => asks_of_counts)
    (fun found' refreshed _ _ => ?_) fun _ _ => trivial)
  refine Prog.traced_bind.mpr (Prog.traced_ofExcept (fun entry hentry => ?_) fun _ _ => trivial)
  obtain ⟨e, he⟩ := completedEntry_ok hentry
  rw [hentries] at he
  exact ⟨_, stored, _, runId, _, reason, List.append_assoc _ _ _, Json.get?_object _ _,
    Json.get?_object _ _, hchanges, found, e, hread, he⟩

/-- The copy that is written was read before the packaging. -/
theorem completeProjectStart_traced (options : FactoryQueueRunNextOptions) (targetRoot outDir : String)
    (running projectStart : Json) (verification summary : RecordedFile) :
    (completeProjectStart targetRoot runId outDir running projectStart verification summary).Traced
      (RunNextAsks runId) (Reports (.runNext options)) (fun _ _ => True) h := by
  refine Prog.traced_bind.mpr (factoryQueueLoad_traced _ (fun _ _ => asks_of_counts)
    (fun found queue hobject hentries => ?_) fun _ _ => trivial)
  refine ⟨trivial, fun now => ?_⟩
  dsimp only [Prog.done_bind]
  obtain ⟨reason, hcomplete⟩ := records_completedProjectStartEntry now outDir projectStart verification
    summary
  generalize completedProjectStartEntry (projectStartFinalStatus projectStart) now outDir projectStart
    verification summary = complete at hcomplete ⊢
  refine Prog.traced_bind.mpr (Prog.traced_ofExcept (fun entryForClosure hfound => ?_) fun _ _ => trivial)
  obtain ⟨e, he⟩ := completedEntry_ok hfound
  have hread : lastRead ((h ++ [⟨.readQueueFile, .ok found⟩]) ++ [⟨.now, now⟩]) = some found :=
    (lastRead_of_readBy rfl _).trans (lastRead_read _ _)
  generalize (h ++ [⟨.readQueueFile, .ok found⟩]) ++ [⟨.now, now⟩] = h₁ at hread
  -- the packaging leaves the copy as it is
  refine Prog.traced_bind.mpr ((keepsCopy_writeQueueStatuses _ _ _ _ h₁).mono (fun _ _ => id)
    (fun h₂ paths heq₂ => ?_) fun _ _ => id)
  obtain ⟨statusPath, latestPath⟩ := paths
  refine Prog.traced_bind.mpr ((keepsCopy_packageClosure _ _ _ _ h₂).mono (fun _ _ => id)
    (fun h₃ closure heq₃ => ?_) fun _ _ => id)
  refine Prog.traced_bind.mpr ((keepsCopy_sha256File _ h₃).mono (fun _ _ => id)
    (fun h₄ statusSha256 heq₄ => ?_) fun _ _ => id)
  refine Prog.traced_bind.mpr ((keepsCopy_sha256File _ h₄).mono (fun _ _ => id)
    (fun h₅ latestSha256 heq₅ => ?_) fun _ _ => id)
  refine Prog.traced_bind.mpr ((keepsCopy_packageReplacementPacket _ _ _ _ _ h₅).mono (fun _ _ => id)
    (fun h₆ packet heq₆ => ?_) fun _ _ => id)
  have hclose := decorates_closedProjectStartEntry statusPath statusSha256 latestPath latestSha256
    closure packet
  generalize closedProjectStartEntry statusPath statusSha256 latestPath latestSha256 closure packet =
    close at hclose ⊢
  refine Prog.traced_bind.mpr (factoryQueueStore_traced _
    (Json.isObject_put (Json.isObject_put hobject)) (fun _ _ => asks_of_counts)
    (fun now' stored hstored => ?_) fun _ _ => trivial)
  rw [entriesOf_put_entries (Json.isObject_put hobject), hentries,
    updateEntry_updateEntry hcomplete] at hstored
  have hread₆ : lastRead (h₆ ++ [⟨.now, now'⟩]) = some found := by
    rw [lastRead_of_readBy rfl, heq₆, heq₅, heq₄, heq₃, heq₂, hread]
  have hchanges : Changes _ stored runId (projectStartFinalStatus projectStart) reason :=
    ⟨found, _, hread₆, hcomplete.decorated hclose, hstored⟩
  refine ⟨⟨_, reason, projectStartFinalStatus_ne_queued projectStart, hchanges⟩, fun path => ?_⟩
  refine Prog.traced_bind.mpr (factoryQueueLoad_traced _ (fun _ _ => asks_of_counts)
    (fun found' refreshed _ _ => ?_) fun _ _ => trivial)
  refine Prog.traced_bind.mpr (Prog.traced_ofExcept (fun entry hentry => ?_) fun _ _ => trivial)
  rw [hentries] at he
  exact ⟨_, stored, _, runId, _, reason, List.append_assoc _ _ _, Json.get?_object _ _,
    Json.get?_object _ _, hchanges, found, e, hread₆, he⟩

/-! ### Executions -/

theorem findEntry_of_changes {queue : Json} {status reason : String}
    (hchanges : Changes h queue runId status reason) (hknows : Knows h runId) :
    statusIn (entriesOf queue) runId = some status := by
  obtain ⟨found, change, hread, hrecords, hentries⟩ := hchanges
  obtain ⟨found', entry, hread', hentry⟩ := hknows
  rw [hread, Option.some_inj] at hread'
  subst hread'
  rw [hentries, statusIn, findEntry_updateEntry hrecords, if_pos rfl, hentry]
  exact hrecords.moves entry (isObject_of_runIdOf (runIdOf_of_findEntry hentry))

/-- After its claim a run is running. -/
theorem claim_traced (target reason : String) :
    (factoryQueueTransition target runId "running" reason).Traced (RunNextAsks runId)
      (fun h _ => Claimed h runId) (fun _ _ => True) h :=
  factoryQueueTransition_traced _ _ _ _ (fun _ _ => asks_of_counts)
    (fun _ _ hchanges => ⟨_, _, by decide, hchanges⟩)
    (fun _ _ _ hchanges hknows _ _ => ⟨_, _, rfl, findEntry_of_changes hchanges hknows⟩)
    fun _ _ => trivial

theorem runNextPlan_traced (options : FactoryQueueRunNextOptions) (targetRoot : String) (next : Json) :
    (runNextPlan options targetRoot next).Traced (RunNextAsks (jsonStringOf next "run_id"))
      (Reports (.runNext options)) (fun _ _ => True) h := by
  refine Prog.traced_bind.mpr ((keepsCopy_checkQueuedPlan _ _ h).mono (fun _ _ => id)
    (fun h₁ _ _ => ?_) fun _ _ => id)
  refine Prog.traced_bind.mpr ((claim_traced _ _).mono (fun _ _ => id)
    (fun h₂ running hclaimed => ?_) fun _ _ => id)
  refine ⟨⟨rfl, hclaimed⟩, fun executed => ?_⟩
  dsimp only [Prog.done_bind]
  refine Prog.traced_bind.mpr ((keepsCopy_orRefuse _ _ _ executed _).mono (fun _ _ => id)
    (fun h₃ runResult _ => ?_) fun _ _ => id)
  exact completePlan_traced options _ _ _

theorem runNextProjectStart_traced (options : FactoryQueueRunNextOptions) (targetRoot : String)
    (next : Json) :
    (runNextProjectStart options targetRoot next).Traced (RunNextAsks (jsonStringOf next "run_id"))
      (Reports (.runNext options)) (fun _ _ => True) h := by
  refine Prog.traced_bind.mpr ((keepsCopy_checkQueuedProjectStart _ _ h).mono (fun _ _ => id)
    (fun h₁ _ _ => ?_) fun _ _ => id)
  refine Prog.traced_bind.mpr ((claim_traced _ _).mono (fun _ _ => id)
    (fun h₂ running hclaimed => ?_) fun _ _ => id)
  refine ⟨⟨rfl, hclaimed⟩, fun executed => ?_⟩
  dsimp only [Prog.done_bind]
  refine Prog.traced_bind.mpr ((keepsCopy_orRefuse _ _ _ executed _).mono (fun _ _ => id)
    (fun h₃ projectStart _ => ?_) fun _ _ => id)
  refine Prog.traced_bind.mpr ((keepsCopy_verifyProjectStartBundle _ _ _ h₃).mono (fun _ _ => id)
    (fun h₄ verification _ => ?_) fun _ _ => id)
  refine Prog.traced_bind.mpr ((keepsCopy_summarizeProjectStart _ _ _ _ h₄).mono (fun _ _ => id)
    (fun h₅ summary _ => ?_) fun _ _ => id)
  exact completeProjectStart_traced options _ _ _ _ _ _

end

/-- A program that keeps to the run that was found first. -/
theorem traced_of_sought {h : List (Event QueueSignature)} {runId : String}
    {options : FactoryQueueRunNextOptions} {p : QueueProg Json} (hsought : sought h = some runId)
    (hp : p.Traced (RunNextAsks runId) (Reports (.runNext options)) (fun _ _ => True) h) :
    p.Traced (Asks (.runNext options)) (Reports (.runNext options)) (fun _ _ => True) h :=
  ((Prog.traced_of_kept (P := fun h => sought h = some runId) (fun _ e hs => sought_concat hs e) p
    hsought).and hp).mono (fun _ _ hboth _ => ⟨runId, hboth⟩) (fun _ _ hboth => hboth.2)
    fun _ _ _ => trivial

theorem factoryQueueRunNext_traced (options : FactoryQueueRunNextOptions) :
    (factoryQueueRunNext options).Traced (Asks (.runNext options)) (Reports (.runNext options))
      (fun _ _ => True) [] := by
  have hcounts : ∀ h o, o.counts = false → Asks (.runNext options) h o := by
    intro h o ho hcounts
    rw [ho] at hcounts
    cases hcounts
  refine ⟨hcounts _ _ rfl, fun exist => ?_⟩
  refine (Prog.traced_bind (p := .ofExcept (check exist _))).mpr
    (Prog.traced_ofExcept (fun _ _ => ?_) fun _ _ => trivial)
  refine ⟨hcounts _ _ rfl, fun canonical => ?_⟩
  refine (Prog.traced_bind (p := inContext _ canonical)).mpr
    (Prog.traced_ofExcept (fun targetRoot _ => ?_) fun _ _ => trivial)
  refine Prog.traced_bind.mpr (factoryQueueLoad_traced _ hcounts
    (fun found queue hobject hentries => ?_) fun _ _ => trivial)
  refine Prog.traced_bind.mpr (Prog.traced_ofExcept (fun next hnext => ?_) fun _ _ => trivial)
  have hsought : sought ([⟨.pathExists options.target, exist⟩, ⟨.canonicalize options.target, canonical⟩,
      ⟨.readQueueFile, .ok found⟩] : List (Event QueueSignature)) = some (jsonStringOf next "run_id") := by
    rw [hentries] at hnext
    refine Option.bind_eq_some_iff.mpr ⟨found, rfl, ?_⟩
    rw [hnext]
  split
  · exact traced_of_sought hsought (runNextProjectStart_traced _ _ _)
  · exact traced_of_sought hsought (runNextPlan_traced _ _ _)

/-! ### Submissions -/

theorem findEntry_eq_none_of_any {entries : List Json} {runId message : String} {u : Unit}
    (h : check (!entries.any fun e => runIdOf e = some runId) message = .ok u) :
    findEntry entries runId = none := by
  rw [check] at h
  split_ifs at h with hany
  rw [findEntry_eq_none_iff]
  simpa using hany

section

variable {h : List (Event QueueSignature)}

theorem submitAsks_of_counts {h : List (Event QueueSignature)} {o : QueueOp} (ho : o.counts = false) :
    SubmitAsks h o := by
  cases o with
  | writeQueueFile queue => cases ho
  | runPlan options => cases ho
  | projectStart options => cases ho
  | _ => trivial

theorem sha256File_traced {Q : List (Event QueueSignature) → String → Prop} (path : String)
    (hQ : ∀ digest sha256, Q (h ++ [⟨.sha256File path, digest⟩]) sha256) :
    (sha256File path).Traced SubmitAsks Q (fun _ _ => True) h :=
  ⟨trivial, fun _ => Prog.traced_ofExcept (fun _ _ => hQ _ _) fun _ _ => trivial⟩

/-- What a submission has done when its entry is written. -/
def HasSubmitted (h : List (Event QueueSignature)) (r : Json) : Prop :=
  ∃ earlier queue runId reason, h = earlier ++ [⟨.writeQueueFile queue, .ok ()⟩] ∧
    r.get? "run_id" = some (.str runId) ∧ r.get? "status" = some (.str "queued") ∧
    Adds earlier queue runId reason

theorem submitPlan_traced (target planPath runId : String) (plan : Json) :
    (submitPlan target planPath runId plan).Traced SubmitAsks HasSubmitted (fun _ _ => True) h := by
  refine Prog.traced_bind.mpr (factoryQueueLoad_traced _ (fun _ _ => submitAsks_of_counts)
    (fun found queue hobject hentries => ?_) fun _ _ => trivial)
  refine Prog.traced_bind.mpr (Prog.traced_ofExcept (fun _ hnew => ?_) fun _ _ => trivial)
  have hnew := findEntry_eq_none_of_any hnew
  rw [hentries] at hnew
  refine ⟨trivial, fun now => ⟨trivial, fun canonical => ?_⟩⟩
  refine (Prog.traced_bind (p := inContext _ canonical)).mpr
    (Prog.traced_ofExcept (fun path _ => ?_) fun _ _ => trivial)
  refine ⟨trivial, fun digest => ?_⟩
  refine (Prog.traced_bind (p := .ofExcept digest)).mpr
    (Prog.traced_ofExcept (fun planSha256 _ => ?_) fun _ _ => trivial)
  refine Prog.traced_bind.mpr (factoryQueueStore_traced _ (Json.isObject_put hobject)
    (fun _ _ => submitAsks_of_counts) (fun now' stored hstored => ?_) fun _ _ => trivial)
  rw [entriesOf_put_entries hobject, hentries] at hstored
  have hread : lastRead (((((h ++ [⟨.readQueueFile, .ok found⟩]) ++ [⟨.now, now⟩]) ++
      [⟨.canonicalize planPath, canonical⟩]) ++ [⟨.sha256File path, digest⟩]) ++ [⟨.now, now'⟩]) =
      some found := by
    rw [lastRead_of_readBy rfl, lastRead_of_readBy rfl, lastRead_of_readBy rfl,
      lastRead_of_readBy rfl, lastRead_read]
  have hadds : Adds _ stored runId _ :=
    ⟨found, _, hread, submitted_submittedEntry runId now path planSha256 plan, hnew, hstored⟩
  exact ⟨⟨_, _, hadds⟩, fun path => ⟨_, _, _, _, rfl, Json.get?_object _ _, Json.get?_object _ _, hadds⟩⟩

theorem submitProjectStart_traced (targetRoot runId : String) (request : ProjectStartRequest) :
    (submitProjectStart targetRoot runId request).Traced SubmitAsks HasSubmitted (fun _ _ => True) h := by
  refine Prog.traced_bind.mpr (factoryQueueLoad_traced _ (fun _ _ => submitAsks_of_counts)
    (fun found queue hobject hentries => ?_) fun _ _ => trivial)
  refine Prog.traced_bind.mpr (Prog.traced_ofExcept (fun _ hnew => ?_) fun _ _ => trivial)
  have hnew := findEntry_eq_none_of_any hnew
  rw [hentries] at hnew
  refine Prog.traced_bind.mpr (performQueue_traced trivial fun now => ?_)
  refine Prog.traced_bind.mpr (sha256File_traced _ fun digest projectSpecSha256 => ?_)
  extract_lets entry
  have hentry : Submitted runId _ entry := submitted_submittedProjectStart runId now _
  clear_value entry
  refine Prog.traced_bind.mpr (Prog.traced_ofExcept (fun _ _ => ?_) fun _ _ => trivial)
  refine Prog.traced_bind.mpr (factoryQueueStore_traced _ (Json.isObject_put hobject)
    (fun _ _ => submitAsks_of_counts) (fun now' stored hstored => ?_) fun _ _ => trivial)
  rw [entriesOf_put_entries hobject, hentries] at hstored
  have hread : lastRead ((((h ++ [⟨.readQueueFile, .ok found⟩]) ++ [⟨.now, now⟩]) ++
      [⟨.sha256File request.projectSpec, digest⟩]) ++ [⟨.now, now'⟩]) = some found := by
    rw [lastRead_of_readBy rfl, lastRead_of_readBy rfl, lastRead_of_readBy rfl, lastRead_read]
  have hadds : Adds _ stored runId _ :=
    ⟨found, _, hread, hentry, hnew, hstored⟩
  exact ⟨⟨_, _, hadds⟩, fun path => ⟨_, _, _, _, rfl, Json.get?_object _ _, Json.get?_object _ _, hadds⟩⟩

/-- What a submission has done when it returns: its receipt is written afterwards. -/
def HasReturned (h : List (Event QueueSignature)) (r : Json) : Prop :=
  ∃ earlier queue later runId reason, h = earlier ++ ⟨.writeQueueFile queue, .ok ()⟩ :: later ∧
    r.get? "run_id" = some (.str runId) ∧ r.get? "status" = some (.str "queued") ∧
    Adds earlier queue runId reason

theorem withReceipt_traced (receiptOut : Option String) {result : Json} (hresult : HasSubmitted h result) :
    (withReceipt receiptOut result).Traced SubmitAsks HasReturned (fun _ _ => True) h := by
  obtain ⟨earlier, queue, runId, reason, rfl, hrest⟩ := hresult
  cases receiptOut with
  | none => exact ⟨earlier, queue, [], runId, reason, rfl, hrest⟩
  | some out =>
    refine ⟨trivial, fun written => ?_⟩
    refine (Prog.traced_bind (p := .ofExcept written)).mpr
      (Prog.traced_ofExcept (fun _ _ => ?_) fun _ _ => trivial)
    exact ⟨earlier, queue, _, runId, reason, List.append_assoc _ _ _, hrest⟩

theorem submittedRunId_traced (kind : String) (runId : Option String)
    {Q : List (Event QueueSignature) → String → Prop} (hQ : ∀ h runId, Q h runId) :
    (submittedRunId kind runId).Traced SubmitAsks Q (fun _ _ => True) h := by
  cases runId with
  | none => exact ⟨trivial, fun _ => hQ _ _⟩
  | some runId => exact hQ _ _

theorem factoryQueueSubmit_traced (target planPath : String) (runId receiptOut : Option String) :
    (factoryQueueSubmit target planPath runId receiptOut).Traced SubmitAsks HasReturned
      (fun _ _ => True) h := by
  refine ⟨trivial, fun exist => ?_⟩
  refine (Prog.traced_bind (p := .ofExcept (check exist _))).mpr
    (Prog.traced_ofExcept (fun _ _ => ?_) fun _ _ => trivial)
  refine ⟨trivial, fun read => ?_⟩
  refine (Prog.traced_bind (p := .ofExcept read)).mpr
    (Prog.traced_ofExcept (fun plan _ => ?_) fun _ _ => trivial)
  refine Prog.traced_bind.mpr (Prog.traced_ofExcept (fun _ _ => ?_) fun _ _ => trivial)
  refine Prog.traced_bind.mpr (submittedRunId_traced _ _ fun h runId => ?_)
  exact Prog.traced_bind.mpr ((submitPlan_traced _ _ _ _).mono (fun _ _ => id)
    (fun h result hresult => withReceipt_traced _ hresult) fun _ _ => id)

theorem canonicalSigningKey_traced (targetRoot : String) (signingKey : Option String)
    {Q : List (Event QueueSignature) → Option String → Prop} (hQ : ∀ h key, Q h key) :
    (canonicalSigningKey targetRoot signingKey).Traced SubmitAsks Q (fun _ _ => True) h := by
  cases signingKey with
  | none => exact hQ _ _
  | some path =>
    refine ⟨trivial, fun canonical => ?_⟩
    cases canonical with
    | ok path => exact hQ _ _
    | error e => exact hQ _ _

theorem factoryQueueSubmitProjectStart_traced (options : FactoryQueueSubmitProjectStartOptions) :
    (factoryQueueSubmitProjectStart options).Traced SubmitAsks HasReturned (fun _ _ => True) h := by
  refine ⟨trivial, fun exist => ?_⟩
  refine (Prog.traced_bind (p := .ofExcept (check exist _))).mpr
    (Prog.traced_ofExcept (fun _ _ => ?_) fun _ _ => trivial)
  refine ⟨trivial, fun canonical => ?_⟩
  refine (Prog.traced_bind (p := inContext _ canonical)).mpr
    (Prog.traced_ofExcept (fun targetRoot _ => ?_) fun _ _ => trivial)
  refine ⟨trivial, fun readable => ?_⟩
  refine (Prog.traced_bind (p := .ofExcept (check readable _))).mpr
    (Prog.traced_ofExcept (fun _ _ => ?_) fun _ _ => trivial)
  refine ⟨trivial, fun canonical => ?_⟩
  refine (Prog.traced_bind (p := inContext _ canonical)).mpr
    (Prog.traced_ofExcept (fun projectSpec _ => ?_) fun _ _ => trivial)
  refine Prog.traced_bind.mpr (submittedRunId_traced _ _ fun h runId => ?_)
  refine Prog.traced_bind.mpr (canonicalSigningKey_traced _ _ fun h signingKey => ?_)
  exact Prog.traced_bind.mpr ((submitProjectStart_traced _ _ _).mono (fun _ _ => id)
    (fun h result hresult => withReceipt_traced _ hresult) fun _ _ => id)

end

/-- **What is known of every call**, whatever it is answered. -/
theorem program_traced (call : QueueCall) :
    call.program.Traced (Asks call) (Reports call) (fun _ _ => True) [] := by
  have hreturned : ∀ h r, HasReturned h r → ∃ earlier queue later runId status reason,
      h = earlier ++ ⟨.writeQueueFile queue, .ok ()⟩ :: later ∧
        r.get? "run_id" = some (.str runId) ∧ r.get? "status" = some (.str status) ∧
        status = "queued" ∧ Adds earlier queue runId reason := by
    rintro h r ⟨earlier, queue, later, runId, reason, rfl, hid, hstatus, hadds⟩
    exact ⟨earlier, queue, later, runId, _, reason, rfl, hid, hstatus, rfl, hadds⟩
  cases call with
  | submit target planPath runId receiptOut =>
    exact (factoryQueueSubmit_traced _ _ _ _).mono (fun _ _ => id) hreturned fun _ _ => id
  | submitProjectStart options =>
    exact (factoryQueueSubmitProjectStart_traced _).mono (fun _ _ => id) hreturned fun _ _ => id
  | transition target runId status reason =>
    refine factoryQueueTransition_traced _ _ _ _ ?_ (fun _ _ => id)
      (fun earlier queue r hchanges hknows hid hstatus => ?_) fun _ _ => trivial
    · intro h o ho
      cases o with
      | writeQueueFile queue => cases ho
      | runPlan options => cases ho
      | projectStart options => cases ho
      | _ => trivial
    · exact ⟨earlier, queue, [], runId, status, reason, rfl, hid, hstatus, ⟨rfl, rfl, rfl⟩, hchanges,
        hknows⟩
  | runNext options => exact factoryQueueRunNext_traced options

end Ao2
