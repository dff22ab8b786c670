import Ao2.Checks
import Ao2.Json.Encoding
import Ao2.Queue.Once
import Ao2.Workbench.Approval

/-!
# What an approved digest binds

Two requests that are approved with one digest, on the same files. Others may do anything to the queue
in the meantime.
-/

namespace Ao2

open Interaction

namespace Workbench

/-! ### Entries without times -/

/-- The members of an entry that hold times. -/
def timedMembers : List String := ["created_at", "updated_at", "transition_history"]

/-- The members of a record of a history, but for its time. -/
def timelessRecord (record : Json) (key : String) : Option Json :=
  if key = "at" then none else record.get? key

/-- Entries that differ in the times at which they were made and changed only. -/
structure SameButTimes (entry entry' : Json) : Prop where
  members : ∀ key ∉ timedMembers, entry.get? key = entry'.get? key
  history : (historyOf entry).map timelessRecord = (historyOf entry').map timelessRecord

theorem SameButTimes.symm {entry entry' : Json} (h : SameButTimes entry entry') :
    SameButTimes entry' entry where
  members key hkey := (h.members key hkey).symm
  history := h.history.symm

theorem SameButTimes.trans {entry entry' entry'' : Json} (h : SameButTimes entry entry')
    (h' : SameButTimes entry' entry'') : SameButTimes entry entry'' where
  members key hkey := (h.members key hkey).trans (h'.members key hkey)
  history := h.history.trans h'.history

theorem lookup_cons_of_ne {key key' : String} (h : key' ≠ key) (v : Json) (members : List (String × Json)) :
    ((key, v) :: members).lookup key' = members.lookup key' := by
  rw [List.lookup_cons, beq_eq_false_iff_ne.mpr h]

theorem lookup_cons_congr {key key' : String} {v : Json} {members members' : List (String × Json)}
    (h : members.lookup key' = members'.lookup key') :
    ((key, v) :: members).lookup key' = ((key, v) :: members').lookup key' := by
  rw [List.lookup_cons, List.lookup_cons, h]

theorem sameButTimes_submittedProjectStart (runId now now' : String) (request : ProjectStartRequest) :
    SameButTimes (submittedProjectStart runId now request) (submittedProjectStart runId now' request) where
  members := by
    intro key hkey
    have hcreated : key ≠ "created_at" := fun h => hkey (by simp [h, timedMembers])
    have hupdated : key ≠ "updated_at" := fun h => hkey (by simp [h, timedMembers])
    have hhistory : key ≠ "transition_history" := fun h => hkey (by simp [h, timedMembers])
    rw [submittedProjectStart, submittedProjectStart, Json.get?_object, Json.get?_object]
    refine (lookup_cons_of_ne hhistory _ _).trans (.trans ?_ (lookup_cons_of_ne hhistory _ _).symm)
    refine lookup_cons_congr (lookup_cons_congr (lookup_cons_congr ?_))
    refine (lookup_cons_of_ne hupdated _ _).trans (.trans ?_ (lookup_cons_of_ne hupdated _ _).symm)
    exact (lookup_cons_of_ne hcreated _ _).trans (lookup_cons_of_ne hcreated _ _).symm
  history := by
    have hrecords (now : String) : historyOf (submittedProjectStart runId now request) =
        [submissionRecord now "submitted AO2 project-start handoff job to AO2-native persisted queue"] := by
      rw [historyOf, submittedProjectStart, Json.get?_object]
      rfl
    rw [hrecords, hrecords, List.map_singleton, List.map_singleton]
    refine congrArg (fun record => [record]) (funext fun key => ?_)
    by_cases hkey : key = "at"
    · rw [timelessRecord, timelessRecord, if_pos hkey, if_pos hkey]
    · rw [timelessRecord, timelessRecord, if_neg hkey, if_neg hkey, submissionRecord, submissionRecord,
        Json.get?_object, Json.get?_object]
      refine lookup_cons_congr (lookup_cons_congr ?_)
      exact (lookup_cons_of_ne hkey _ _).trans (lookup_cons_of_ne hkey _ _).symm

/-! ### Files that are as they are -/

/-- The queue was not written and no run was executed. -/
def Quiet (h : List (Event QueueSignature)) : Prop := ∀ e ∈ h, e.op.counts = false

/-- Until the queue is written or a run is executed, paths lead to the same files as ever, and these are
as they are. -/
structure Keeps (files : TargetState) (f : Oracle QueueSignature) : Prop where
  canonicalize : ∀ h path, Quiet h → f h (QueueOp.canonicalize path) = files.canonicalize path
  sha256File : ∀ h path, Quiet h → f h (QueueOp.sha256File path) = files.sha256File path

theorem quiet_nil : Quiet [] := fun _ hmem => absurd hmem List.not_mem_nil

theorem Quiet.concat {h : List (Event QueueSignature)} (hquiet : Quiet h) {e : Event QueueSignature}
    (he : e.op.counts = false) : Quiet (h ++ [e]) := by
  intro e' hmem
  rcases List.mem_append.mp hmem with hmem | hmem
  · exact hquiet e' hmem
  · rw [List.mem_singleton.mp hmem]
    exact he

/-- The copies of the queue that were read. -/
def copies (h : List (Event QueueSignature)) : List (Option Json) := h.filterMap readBy

theorem copies_of_readBy {e : Event QueueSignature} (he : readBy e = none)
    (h : List (Event QueueSignature)) : copies (h ++ [e]) = copies h := by
  rw [copies, List.filterMap_append, List.filterMap_cons_none he, List.filterMap_nil, List.append_nil, copies]

theorem copies_read (h : List (Event QueueSignature)) (found : Option Json) :
    copies (h ++ [⟨.readQueueFile, .ok found⟩]) = copies h ++ [found] :=
  List.filterMap_append

theorem copies_prefix {h h' : List (Event QueueSignature)} (hle : h <+: h') : copies h <+: copies h' :=
  hle.filterMap readBy

section

variable {f : Oracle QueueSignature} {C : QueueOp → List (Event QueueSignature) → Prop}
  {h : List (Event QueueSignature)}

theorem performQueue_wp {o : QueueOp} {Q : o.Ans → List (Event QueueSignature) → Prop}
    {E : String → List (Event QueueSignature) → Prop} (hC : C o h) (hQ : Q (f h o) (h ++ [⟨o, f h o⟩])) :
    f.machine.wp C (performQueue o) Q E h := ⟨hC, hQ⟩

/-- An operation that neither writes the queue nor executes a run. -/
theorem quiet_wp {o : QueueOp} (ho : o.counts = false) (hquiet : Quiet h)
    {Q : o.Ans → List (Event QueueSignature) → Prop} {E : String → List (Event QueueSignature) → Prop}
    (hC : C o h) (hQ : ∀ a h', Quiet h' → Q a h') : f.machine.wp C (performQueue o) Q E h :=
  performQueue_wp hC (hQ _ _ (hquiet.concat ho))

theorem canonicalize_wp {files : TargetState} (hf : Keeps files f) (hquiet : Quiet h) {path : String}
    {Q : Except String String → List (Event QueueSignature) → Prop}
    {E : String → List (Event QueueSignature) → Prop} (hC : C (.canonicalize path) h)
    (hQ : ∀ h', Quiet h' → copies h' = copies h → Q (files.canonicalize path) h') :
    f.machine.wp C (performQueue (.canonicalize path)) Q E h := by
  refine performQueue_wp hC ?_
  rw [hf.canonicalize h path hquiet]
  exact hQ _ (hquiet.concat rfl) (copies_of_readBy rfl h)

theorem sha256File_wp {path : String} {Q : String → List (Event QueueSignature) → Prop}
    (hC : C (.sha256File path) h)
    (hQ : ∀ sha256, f h (QueueOp.sha256File path) = .ok sha256 →
      Q sha256 (h ++ [⟨.sha256File path, f h (QueueOp.sha256File path)⟩])) :
    f.machine.wp C (sha256File path) Q (fun _ _ => True) h :=
  ⟨hC, Machine.wp_bind.mpr (Machine.wp_ofExcept hQ fun _ _ => trivial)⟩

/-- What is known of a queue that was loaded. -/
theorem factoryQueueLoad_wp {Q : Json → List (Event QueueSignature) → Prop} (target : String)
    (hC : ∀ h o, o.counts = false → C o h)
    (hQ : ∀ found queue, queue.isObject = true → entriesOf queue = fileEntries found →
      Q queue (h ++ [⟨.readQueueFile, .ok found⟩])) :
    f.machine.wp C (factoryQueueLoad target) Q (fun _ _ => True) h :=
  (factoryQueueLoad_traced target (C := fun h o => C o h) (Q := fun h queue => Q queue h)
    (E := fun _ _ => True) hC hQ fun _ _ => trivial).wp f

/-- What is written of a queue. -/
theorem factoryQueueStore_wp {Q : String × Json → List (Event QueueSignature) → Prop} (target : String)
    {queue : Json} (hobject : queue.isObject = true) (hC : ∀ h o, o.counts = false → C o h)
    (hwrite : ∀ now stored, entriesOf stored = entriesOf queue →
      C (.writeQueueFile stored) (h ++ [⟨.now, now⟩]) ∧
        ∀ path, Q (path, stored) ((h ++ [⟨.now, now⟩]) ++ [⟨.writeQueueFile stored, .ok ()⟩])) :
    f.machine.wp C (factoryQueueStore target queue) Q (fun _ _ => True) h :=
  (factoryQueueStore_traced target hobject (C := fun h o => C o h) (Q := fun h stored => Q stored h)
    (E := fun _ _ => True) hC hwrite fun _ _ => trivial).wp f

theorem inContext_wp {α : Type} {message : String} {r : Except String α}
    {Q : α → List (Event QueueSignature) → Prop} (hQ : ∀ a, r = .ok a → Q a h) :
    f.machine.wp C (inContext message r) Q (fun _ _ => True) h := by
  cases r with
  | ok a => exact hQ a rfl
  | error e => trivial

end

/-! ### What a submission puts into the queue -/

/-- A run writes the queue that it has read with an entry added to it. -/
def Submits (f : Oracle QueueSignature) (p : QueueProg Json) (entry : Json) : Prop :=
  ∃ earlier queue later found,
    (f.machine.run p []).2 = earlier ++ ⟨.writeQueueFile queue, .ok ()⟩ :: later ∧
      lastRead earlier = some found ∧ entriesOf queue = addEntry entry (fileEntries found)

/-- The request in the entry of a submission. -/
def approvedRequest (form : Form) (preflight : Json) (effective root specPath sha256 : String) :
    ProjectStartRequest :=
  let outDir := joinPath root (jsonStringOf (preflight.index "preflight") "planned_out_dir")
  { projectSpec := specPath
    projectSpecSha256 := sha256
    projectRoot := joinPath root effective
    verifierCommand := verifierCommandOf form
    provider := formText form "provider"
    providerPromptDir := (formText form "provider_prompt_dir").map (joinPath root)
    signingKey := none
    signerId := "ao2-workbench"
    maxRepairAttempts := maxRepairAttemptsOf form
    outDir := outDir
    handoffBundleOut := joinPath outDir "project-start-handoff.tgz"
    handoffBundleReport := joinPath outDir "factory-project-start-bundle.json" }

section

variable [Platform] {files : TargetState} {target : String} {form : Form}

/-- What a submission is made of. -/
structure Prepared (files : TargetState) (target : String) (form : Form) (preflight : Json)
    (spec effective root specPath sha256 : String) : Prop where
  shown : submitPreflight files target form = .ok (spec, effective, preflight)
  approved : submittedDigestOf form = sha256Json (submitDigestInput preflight)
  canonicalRoot : files.canonicalize effective = .ok root
  canonicalSpec : files.canonicalize (joinPath root spec) = .ok specPath
  hashed : files.sha256File specPath = .ok sha256

/-- An entry is the one that a submission is for. -/
def IsSubmission (files : TargetState) (target : String) (form : Form) (entry : Json) : Prop :=
  ∃ preflight spec effective root specPath sha256 now,
    Prepared files target form preflight spec effective root specPath sha256 ∧
      entry = submittedProjectStart (sanitizeGreenfieldId (jsonStringOf preflight "run_id")) now
        (approvedRequest form preflight effective root specPath sha256)

/-- An operation that writes the queue adds the entry that the submission is for. -/
def AddsSubmission (files : TargetState) (target : String) (form : Form) (o : QueueOp)
    (h : List (Event QueueSignature)) : Prop :=
  ∀ queue, o = .writeQueueFile queue → ∃ found entry, lastRead h = some found ∧
    entriesOf queue = addEntry entry (fileEntries found) ∧ IsSubmission files target form entry

theorem addsSubmission_of_counts (h : List (Event QueueSignature)) (o : QueueOp) (ho : o.counts = false) :
    AddsSubmission files target form o h := by
  rintro queue rfl
  cases ho

/-- **What is written of a submission.** -/
theorem submitProjectStart_wp {f : Oracle QueueSignature} (hf : Keeps files f)
    {h : List (Event QueueSignature)} (hquiet : Quiet h) {root runId : String}
    {request : ProjectStartRequest}
    (hentry : ∀ now sha256, files.sha256File request.projectSpec = .ok sha256 →
      IsSubmission files target form
        (submittedProjectStart runId now { request with projectSpecSha256 := sha256 })) :
    f.machine.wp (AddsSubmission files target form) (submitProjectStart root runId request)
      (fun _ _ => True) (fun _ _ => True) h := by
  refine Machine.wp_bind.mpr (factoryQueueLoad_wp _ addsSubmission_of_counts
    fun found queue hobject hentries => ?_)
  refine Machine.wp_bind.mpr (Machine.wp_ofExcept (fun _ _ => ?_) fun _ _ => trivial)
  refine Machine.wp_bind.mpr (performQueue_wp (addsSubmission_of_counts _ _ rfl) ?_)
  refine Machine.wp_bind.mpr (sha256File_wp (addsSubmission_of_counts _ _ rfl) fun sha256 hsha256 => ?_)
  rw [hf.sha256File _ _ ((hquiet.concat rfl).concat rfl)] at hsha256
  generalize f (h ++ [⟨.readQueueFile, .ok found⟩]) QueueOp.now = now
  extract_lets entry
  have hsubmission : IsSubmission files target form entry := hentry now sha256 hsha256
  clear_value entry
  refine Machine.wp_bind.mpr (Machine.wp_ofExcept (fun _ _ => ?_) fun _ _ => trivial)
  refine Machine.wp_bind.mpr (factoryQueueStore_wp _ (Json.isObject_put hobject) addsSubmission_of_counts
    fun now' stored hstored => ?_)
  rw [entriesOf_put_entries hobject, hentries] at hstored
  refine ⟨?_, fun _ => trivial⟩
  rintro queue' heq
  cases heq
  refine ⟨found, entry, ?_, hstored, hsubmission⟩
  rw [lastRead_of_readBy rfl, lastRead_of_readBy rfl, lastRead_of_readBy rfl, lastRead_read]

theorem factoryQueueSubmitProjectStart_wp {f : Oracle QueueSignature} (hf : Keeps files f)
    {spec effective : String} {preflight : Json}
    (hshown : submitPreflight files target form = .ok (spec, effective, preflight))
    (happroved : submittedDigestOf form = sha256Json (submitDigestInput preflight)) :
    f.machine.wp (AddsSubmission files target form)
      (factoryQueueSubmitProjectStart (submitOptions effective spec form preflight))
      (fun _ _ => True) (fun _ _ => True) [] := by
  refine Machine.wp_bind.mpr (Machine.wp_bind.mpr
    (quiet_wp rfl quiet_nil (addsSubmission_of_counts _ _ rfl) fun found h hquiet => ?_))
  refine Machine.wp_ofExcept (fun _ _ => ?_) fun _ _ => trivial
  refine Machine.wp_bind.mpr (Machine.wp_bind.mpr
    (canonicalize_wp hf hquiet (addsSubmission_of_counts _ _ rfl) fun h hquiet _ => ?_))
  refine inContext_wp fun root hroot => ?_
  refine Machine.wp_bind.mpr (quiet_wp rfl hquiet (addsSubmission_of_counts _ _ rfl) fun readable h hquiet => ?_)
  refine Machine.wp_bind.mpr (Machine.wp_ofExcept (fun _ _ => ?_) fun _ _ => trivial)
  refine Machine.wp_bind.mpr
    (canonicalize_wp hf hquiet (addsSubmission_of_counts _ _ rfl) fun h hquiet _ => ?_)
  refine Machine.wp_bind.mpr (inContext_wp fun specPath hspecPath => ?_)
  change f.machine.wp _ ((submitProjectStart root (sanitizeGreenfieldId (jsonStringOf preflight "run_id"))
    (approvedRequest form preflight effective root specPath "")).bind _) _ _ h
  refine Machine.wp_bind.mpr ((submitProjectStart_wp hf hquiet fun now sha256 hsha256 => ?_).post
    fun _ _ _ => trivial)
  exact ⟨preflight, spec, effective, root, specPath, sha256, now,
    ⟨hshown, happroved, hroot, hspecPath, hsha256⟩, rfl⟩

theorem submit_wp {f : Oracle QueueSignature} (hf : Keeps files f) :
    f.machine.wp (AddsSubmission files target form)
      (workbenchFactoryGreenfieldSpecIngestSubmit files target form)
      (fun _ _ => True) (fun _ _ => True) [] := by
  refine Machine.wp_bind.mpr (Machine.wp_ofExcept (fun shown hshown => ?_) fun _ _ => trivial)
  obtain ⟨spec, effective, preflight⟩ := shown
  dsimp only
  by_cases happroved : submittedDigestOf form = sha256Json (submitDigestInput preflight)
  · rw [if_neg (not_not.mpr happroved)]
    exact Machine.wp_bind.mpr
      ((factoryQueueSubmitProjectStart_wp hf hshown happroved).post fun _ _ _ => trivial)
  · rw [if_pos happroved]
    trivial

omit [Platform] in
theorem addEntry_left_injective {entry entry' : Json} {entries : List Json}
    (h : addEntry entry entries = addEntry entry' entries) : entry = entry' := by
  have hperm : (entry :: entries).Perm (entry' :: entries) :=
    (addEntry_perm entry entries).symm.trans (h ▸ addEntry_perm entry' entries)
  have hone : [entry].Perm [entry'] := (List.perm_append_right_iff entries).mp hperm
  exact List.singleton_inj.mp (List.perm_singleton.mp hone)

/-- **What a submission puts into the queue** is made of what was approved. -/
theorem isSubmission_of_submits {f : Oracle QueueSignature} (hf : Keeps files f) {entry : Json}
    (h : Submits f (workbenchFactoryGreenfieldSpecIngestSubmit files target form) entry) :
    IsSubmission files target form entry := by
  obtain ⟨earlier, queue, later, found, hrun, hfound, hqueue⟩ := h
  obtain ⟨found', entry', hfound', hqueue', hentry'⟩ :=
    Oracle.wp.event (submit_wp hf) hrun (Nat.zero_le _) queue rfl
  obtain rfl : found = found' := Option.some.inj (hfound.symm.trans hfound')
  rwa [addEntry_left_injective (hqueue.symm.trans hqueue')]

/-! ### What the digest of a submission covers -/

theorem submitPreflight_ok {spec effective : String} {preflight : Json}
    (h : submitPreflight files target form = .ok (spec, effective, preflight)) :
    effectiveTarget files target form = .ok effective ∧ ∃ specText sha256 runId,
      preflight = greenfieldSpecIngest spec effective specText sha256 runId (verifierCommandOf form) := by
  obtain ⟨spec', hspec, h⟩ := bind_eq_ok.mp h
  obtain ⟨effective', heffective, h⟩ := bind_eq_ok.mp h
  obtain ⟨preflight', hpreflight, h⟩ := bind_eq_ok.mp h
  cases h
  obtain ⟨-, hpreflight⟩ := seq_eq_ok.mp hpreflight
  obtain ⟨-, hpreflight⟩ := seq_eq_ok.mp hpreflight
  obtain ⟨specText, -, hpreflight⟩ := bind_eq_ok.mp hpreflight
  obtain ⟨-, hpreflight⟩ := seq_eq_ok.mp hpreflight
  obtain ⟨sha256, -, hpreflight⟩ := bind_eq_ok.mp hpreflight
  exact ⟨heffective, specText, sha256, _, (Except.ok.inj hpreflight).symm⟩

omit [Platform] in
theorem submitDigestInput_injective : Function.Injective submitDigestInput := by
  intro preflight preflight' h
  have hget := congrArg (fun v : Json => v.get? "preflight") h
  simp only [submitDigestInput, Json.get?_object] at hget
  exact Option.some.inj hget

theorem greenfieldSpecIngest_inj {spec target specText sha256 runId command spec' target' specText' sha256'
    runId' command' : String}
    (h : greenfieldSpecIngest spec target specText sha256 runId command =
      greenfieldSpecIngest spec' target' specText' sha256' runId' command') :
    spec = spec' ∧ target = target' ∧ command = command' := by
  have hget (key : String) := congrArg (fun v : Json => v.get? key) h
  simp only [greenfieldSpecIngest, Json.get?_object] at hget
  refine ⟨?_, ?_, ?_⟩
  · have hsource := Option.some.inj (hget "source_spec")
    have hpath := congrArg (fun v : Json => v.get? "path") hsource
    simp only [Json.get?_object] at hpath
    exact Json.str.inj (Option.some.inj hpath)
  · exact Json.str.inj (Option.some.inj (hget "target"))
  · have hverifier := Option.some.inj (hget "verifier")
    have hcommand := congrArg (fun v : Json => v.get? "command") hverifier
    simp only [Json.get?_object] at hcommand
    exact Json.str.inj (Option.some.inj hcommand)

/-- **The digest of a submission** covers the files, the target and the command. -/
theorem Prepared.eq_of_approved (hsha : Function.Injective (sha256Json : Json → String)) {form' : Form}
    (hdigest : submittedDigestOf form = submittedDigestOf form')
    {preflight preflight' : Json} {spec effective root specPath sha256 spec' effective' root' specPath'
      sha256' : String}
    (h : Prepared files target form preflight spec effective root specPath sha256)
    (h' : Prepared files target form' preflight' spec' effective' root' specPath' sha256') :
    preflight = preflight' ∧ effective = effective' ∧ root = root' ∧ specPath = specPath' ∧
      sha256 = sha256' ∧ verifierCommandOf form = verifierCommandOf form' := by
  have hinput := hsha (h.approved.symm.trans (hdigest.trans h'.approved))
  have hpreflight := submitDigestInput_injective hinput
  obtain ⟨-, specText, sha, runId, heq⟩ := submitPreflight_ok h.shown
  obtain ⟨-, specText', sha', runId', heq'⟩ := submitPreflight_ok h'.shown
  obtain ⟨rfl, rfl, hcommand⟩ := greenfieldSpecIngest_inj (heq.symm.trans (hpreflight.trans heq'))
  obtain rfl : root = root' := Except.ok.inj (h.canonicalRoot.symm.trans h'.canonicalRoot)
  obtain rfl : specPath = specPath' := Except.ok.inj (h.canonicalSpec.symm.trans h'.canonicalSpec)
  exact ⟨hpreflight, rfl, rfl, rfl, Except.ok.inj (h.hashed.symm.trans h'.hashed), hcommand⟩

end

/-! ### What two submissions must agree on -/

/-- The directory that paths of a submission are below. -/
def submittedRoot (files : TargetState) (target : String) (form : Form) : String :=
  (((effectiveTarget files target form).bind files.canonicalize).toOption).getD ""

/-- The forms ask for the same provider, for prompts in the same directory and for as many repairs. -/
structure SameSubmission (files : TargetState) (target : String) (form form' : Form) : Prop where
  provider : formText form "provider" = formText form' "provider"
  promptDir : (formText form "provider_prompt_dir").map (joinPath (submittedRoot files target form)) =
    (formText form' "provider_prompt_dir").map (joinPath (submittedRoot files target form'))
  attempts : maxRepairAttemptsOf form = maxRepairAttemptsOf form'

theorem ofOption_str_injective : Function.Injective (Json.ofOption Json.str) := by
  intro a b h
  cases a <;> cases b <;> cases h <;> rfl

theorem ProjectStartRequest.toJson_inj {request request' : ProjectStartRequest}
    (h : request.toJson = request'.toJson) :
    request.provider = request'.provider ∧ request.providerPromptDir = request'.providerPromptDir ∧
      request.maxRepairAttempts = request'.maxRepairAttempts := by
  have hget (key : String) := congrArg (fun v : Json => v.get? key) h
  simp only [Ao2.ProjectStartRequest.toJson, Json.get?_object] at hget
  refine ⟨?_, ?_, ?_⟩
  · exact ofOption_str_injective (Option.some.inj (hget "provider"))
  · exact ofOption_str_injective (Option.some.inj (hget "provider_prompt_dir"))
  · exact Int.ofNat.inj (Json.num.inj (Option.some.inj (hget "max_repair_attempts")))

theorem request_of_sameButTimes {runId now runId' now' : String} {request request' : ProjectStartRequest}
    (h : SameButTimes (submittedProjectStart runId now request)
      (submittedProjectStart runId' now' request')) : request.toJson = request'.toJson := by
  have hget := h.members "project_start_request" (by decide)
  rw [submittedProjectStart, submittedProjectStart, Json.get?_object, Json.get?_object] at hget
  exact Option.some.inj hget

section

variable [Platform] {files : TargetState} {target : String} {form form' : Form}

theorem Prepared.submittedRoot {preflight : Json} {spec effective root specPath sha256 : String}
    (h : Prepared files target form preflight spec effective root specPath sha256) :
    submittedRoot files target form = root := by
  rw [Workbench.submittedRoot, (submitPreflight_ok h.shown).1]
  exact congrArg (fun r : Except String String => r.toOption.getD "") h.canonicalRoot

/-- **Two submissions that are approved with one digest** submit one entry exactly if their forms agree
on what the digest does not cover. -/
theorem submission_bound (hsha : Function.Injective (sha256Json : Json → String))
    (hdigest : submittedDigestOf form = submittedDigestOf form') {entry entry' : Json}
    (h : IsSubmission files target form entry) (h' : IsSubmission files target form' entry') :
    SameButTimes entry entry' ↔ SameSubmission files target form form' := by
  obtain ⟨preflight, spec, effective, root, specPath, sha256, now, hprep, rfl⟩ := h
  obtain ⟨preflight', spec', effective', root', specPath', sha256', now', hprep', rfl⟩ := h'
  have hroot := hprep.submittedRoot
  have hroot' := hprep'.submittedRoot
  obtain ⟨rfl, rfl, rfl, rfl, rfl, hcommand⟩ := hprep.eq_of_approved hsha hdigest hprep'
  constructor
  · intro hsame
    obtain ⟨hprovider, hprompts, hattempts⟩ :=
      ProjectStartRequest.toJson_inj (request_of_sameButTimes hsame)
    exact ⟨hprovider, by rw [hroot, hroot']; exact hprompts, hattempts⟩
  · rintro ⟨hprovider, hprompts, hattempts⟩
    rw [hroot, hroot'] at hprompts
    have hrequest : approvedRequest form preflight effective root specPath sha256 =
        approvedRequest form' preflight effective root specPath sha256 := by
      rw [approvedRequest, approvedRequest, hcommand, hprovider, hprompts, hattempts]
    rw [hrequest]
    exact sameButTimes_submittedProjectStart _ _ _ _

end

/-! ### What is executed -/

/-- The operation that executes an entry. -/
def executionOf (options : FactoryQueueRunNextOptions) (targetRoot : String) (next : Json) : QueueOp :=
  if jsonStringOf next "job_kind" = "factory_project_start" then
    .projectStart (projectStartOptions options (jsonStringOf next "run_id")
      (next.index "project_start_request"))
  else
    .runPlan (runPlanOptions options targetRoot (jsonStringOf next "run_id") (jsonStringOf next "plan_path"))

/-- A run executes an entry with an operation. The entry is the first queued one of the second copy of
the queue that the run has read. -/
def Executes (f : Oracle QueueSignature) (p : QueueProg Json) (next : Json) (o : QueueOp) : Prop :=
  ∃ earlier a later second,
    (f.machine.run p []).2 = earlier ++ ⟨o, a⟩ :: later ∧ o.executed.isSome ∧
      (copies earlier)[1]? = some second ∧ nextQueued (fileEntries second) = .ok next

section

variable {f : Oracle QueueSignature} {C : QueueOp → List (Event QueueSignature) → Prop}
  {h : List (Event QueueSignature)} {options : FactoryQueueRunNextOptions} {root : String} {next : Json}

theorem executed_of_counts {o : QueueOp} (ho : o.counts = false) : o.executed = none := by
  cases o with
  | runPlan options => cases ho
  | projectStart options => cases ho
  | _ => rfl

theorem runNextPlan_wp (hidle : ∀ o h, o.executed = none → C o h)
    (hexec : ∀ h', h <+: h' → C (.runPlan (runPlanOptions options root (jsonStringOf next "run_id")
      (jsonStringOf next "plan_path"))) h') :
    f.machine.wp C (runNextPlan options root next) (fun _ _ => True) (fun _ _ => True) h := by
  refine Machine.wp_bind.mpr (((idle_checkQueuedPlan _ _ _).wp hidle f h).post fun _ h₁ hle₁ => ?_)
  refine Machine.wp_bind.mpr
    (((idle_factoryQueueTransition _ _ _ _).wp hidle f h₁).post fun running h₂ hle₂ => ?_)
  refine Machine.wp_bind.mpr (performQueue_wp (hexec h₂ (hle₁.trans hle₂)) ?_)
  refine Machine.wp_bind.mpr (((idle_orRefuse _ _ _ _ _).wp hidle f _).post fun runResult h₃ _ => ?_)
  exact ((idle_completePlan _ _ _ _).wp hidle f h₃).post fun _ _ _ => trivial

theorem runNextProjectStart_wp (hidle : ∀ o h, o.executed = none → C o h)
    (hexec : ∀ h', h <+: h' → C (.projectStart (projectStartOptions options (jsonStringOf next "run_id")
      (next.index "project_start_request"))) h') :
    f.machine.wp C (runNextProjectStart options root next) (fun _ _ => True) (fun _ _ => True) h := by
  refine Machine.wp_bind.mpr (((idle_checkQueuedProjectStart _ _ _).wp hidle f h).post fun _ h₁ hle₁ => ?_)
  refine Machine.wp_bind.mpr
    (((idle_factoryQueueTransition _ _ _ _).wp hidle f h₁).post fun running h₂ hle₂ => ?_)
  refine Machine.wp_bind.mpr (performQueue_wp (hexec h₂ (hle₁.trans hle₂)) ?_)
  refine Machine.wp_bind.mpr (((idle_orRefuse _ _ _ _ _).wp hidle f _).post fun projectStart h₃ _ => ?_)
  refine Machine.wp_bind.mpr
    (((idle_verifyProjectStartBundle _ _ _ _).wp hidle f h₃).post fun verification h₄ _ => ?_)
  refine Machine.wp_bind.mpr
    (((idle_summarizeProjectStart _ _ _ _ _).wp hidle f h₄).post fun summary h₅ _ => ?_)
  exact ((idle_completeProjectStart _ _ _ _ _ _ _).wp hidle f h₅).post fun _ _ _ => trivial

/-- **What the command for the next entry executes.** -/
theorem factoryQueueRunNext_wp {files : TargetState} (hf : Keeps files f) (hquiet : Quiet h)
    (hidle : ∀ o h, o.executed = none → C o h)
    (hexec : ∀ root second next h', files.canonicalize options.target = .ok root →
      copies h ++ [second] <+: copies h' → nextQueued (fileEntries second) = .ok next →
      C (executionOf options root next) h') :
    f.machine.wp C (factoryQueueRunNext options) (fun _ _ => True) (fun _ _ => True) h := by
  refine Machine.wp_bind.mpr (Machine.wp_bind.mpr (performQueue_wp (hidle _ _ rfl) ?_))
  refine Machine.wp_ofExcept (fun _ _ => ?_) fun _ _ => trivial
  refine Machine.wp_bind.mpr (Machine.wp_bind.mpr (performQueue_wp (hidle _ _ rfl) ?_))
  rw [hf.canonicalize _ _ (hquiet.concat rfl)]
  refine inContext_wp fun root hroot => ?_
  refine Machine.wp_bind.mpr (factoryQueueLoad_wp _ (fun h o ho => hidle o h (executed_of_counts ho))
    fun second queue _ hentries => ?_)
  refine Machine.wp_bind.mpr (Machine.wp_ofExcept (fun next hnext => ?_) fun _ _ => trivial)
  rw [hentries] at hnext
  have hexec (h' : List (Event QueueSignature)) (hle : ((h ++ [⟨.pathExists options.target, f h _⟩]) ++
      [⟨.canonicalize options.target, files.canonicalize options.target⟩]) ++
      [⟨.readQueueFile, .ok second⟩] <+: h') :
      C (executionOf options root next) h' := by
    refine hexec root second next h' hroot ?_ hnext
    have hcopies := copies_prefix hle
    rwa [copies_read, copies_of_readBy rfl, copies_of_readBy rfl] at hcopies
  rw [executionOf] at hexec
  split
  case isTrue hkind =>
    rw [if_pos hkind] at hexec
    exact runNextProjectStart_wp hidle hexec
  case isFalse hkind =>
    rw [if_neg hkind] at hexec
    exact runNextPlan_wp hidle hexec

end

section

variable [Platform] {files : TargetState} {target : String} {form form' : Form}

/-- What an execution rests on: the entry that the digest was made of, in the first copy of the queue, and
the entry that is executed, in the second. -/
structure Taken (files : TargetState) (target : String) (form : Form) (o : QueueOp)
    (h : List (Event QueueSignature)) (served root runId : String) (first second : Option Json)
    (entry next : Json) : Prop where
  named : required form "run_id" = .ok runId
  canonicalTarget : files.canonicalize target = .ok served
  canonicalRoot : files.canonicalize served = .ok root
  readFirst : (copies h)[0]? = some first
  shown : queuedProjectStart runId (fileEntries first) = .ok entry
  approved : submittedDigestOf form =
    sha256Json (runNextDigestInput runId (factoryQueuePath served) entry)
  readSecond : (copies h)[1]? = some second
  found : nextQueued (fileEntries second) = .ok next
  operation : o = executionOf (runNextOptions served form) root next

/-- An operation that executes a run rests on what was approved. -/
def IsTaken (files : TargetState) (target : String) (form : Form) (o : QueueOp)
    (h : List (Event QueueSignature)) : Prop :=
  o.executed.isSome → ∃ served root runId first second entry next,
    Taken files target form o h served root runId first second entry next

theorem isTaken_of_executed (o : QueueOp) (h : List (Event QueueSignature)) (ho : o.executed = none) :
    IsTaken files target form o h := by
  intro hsome
  rw [ho] at hsome
  cases hsome

/-- **What a request to execute executes.** -/
theorem runNext_wp {f : Oracle QueueSignature} (hf : Keeps files f) :
    f.machine.wp (IsTaken files target form) (workbenchFactoryProjectStartRunNext target form)
      (fun _ _ => True) (fun _ _ => True) [] := by
  refine Machine.wp_bind.mpr (Machine.wp_ofExcept (fun runId hrunId => ?_) fun _ _ => trivial)
  refine Machine.wp_bind.mpr
    (canonicalize_wp hf quiet_nil (isTaken_of_executed _ _ rfl) fun h hquiet hcopies => ?_)
  refine Machine.wp_bind.mpr (inContext_wp fun served hserved => ?_)
  refine Machine.wp_bind.mpr (factoryQueueLoad_wp _
    (fun h o ho => isTaken_of_executed o h (executed_of_counts ho)) fun first queue _ hentries => ?_)
  replace hquiet := hquiet.concat (e := ⟨.readQueueFile, .ok first⟩) rfl
  replace hcopies := (copies_read h first).trans (congrArg (· ++ [first]) hcopies)
  refine Machine.wp_bind.mpr (Machine.wp_ofExcept (fun entry hentry => ?_) fun _ _ => trivial)
  rw [hentries] at hentry
  refine Machine.wp_bind.mpr (Machine.wp_ofExcept (fun _ _ => ?_) fun _ _ => trivial)
  rw [runApproved]
  dsimp only
  by_cases happroved :
      submittedDigestOf form = sha256Json (runNextDigestInput runId (factoryQueuePath served) entry)
  · rw [if_neg (not_not.mpr happroved)]
    refine Machine.wp_bind.mpr ((factoryQueueRunNext_wp hf hquiet isTaken_of_executed
      fun root second next h' hroot hle hnext _ => ?_).post fun _ _ _ => ?_)
    · rw [hcopies] at hle
      have hread := List.prefix_iff_getElem?.mp hle
      exact ⟨served, root, runId, first, second, entry, next, hrunId, hserved, hroot,
        hread 0 Nat.zero_lt_two, hentry, happroved, hread 1 Nat.one_lt_two, hnext, rfl⟩
    · exact Machine.wp_bind.mpr (Machine.wp_ofExcept (fun _ _ => trivial) fun _ _ => trivial)
  · rw [if_pos happroved]
    trivial

/-- **What is executed** was taken from the second copy of the queue. -/
theorem taken_of_executes {f : Oracle QueueSignature} (hf : Keeps files f) {next : Json} {o : QueueOp}
    (h : Executes f (workbenchFactoryProjectStartRunNext target form) next o) :
    ∃ h served root runId first second entry,
      h <+: (f.machine.run (workbenchFactoryProjectStartRunNext target form) []).2 ∧
        Taken files target form o h served root runId first second entry next := by
  obtain ⟨earlier, a, later, second, hrun, ho, hsecond, hnext⟩ := h
  obtain ⟨served, root, runId, first, second', entry, next', htaken⟩ :=
    Oracle.wp.event (runNext_wp hf) hrun (Nat.zero_le _) ho
  obtain rfl : second = second' := Option.some.inj (hsecond.symm.trans htaken.readSecond)
  obtain rfl : next = next' := Except.ok.inj (hnext.symm.trans htaken.found)
  exact ⟨earlier, served, root, runId, first, second, entry, hrun ▸ List.prefix_append _ _, htaken⟩

end

/-! ### What two executions must agree on -/

def IsProjectStart (next : Json) : Prop := jsonStringOf next "job_kind" = "factory_project_start"

/-- The signer is the one of the form: an entry of a plan names none, and one of a project start may
leave it out. -/
def LeavesSigner (next : Json) : Prop :=
  IsProjectStart next → isBlank (jsonStringOf (next.index "project_start_request") "signer_id") = true

/-- So is the number of repairs. -/
def LeavesAttempts (next : Json) : Prop :=
  IsProjectStart next → u64Of (next.index "project_start_request") "max_repair_attempts" = none

/-- The forms name the same signer and as many repairs, where the entry leaves these to the form. -/
structure SameSettings (form form' : Form) (next : Json) : Prop where
  signer : LeavesSigner next → signerIdOf form = signerIdOf form'
  attempts : LeavesAttempts next → maxRepairAttemptsOf form = maxRepairAttemptsOf form'

theorem SameButTimes.jsonStringOf {entry entry' : Json} (h : SameButTimes entry entry') {key : String}
    (hkey : key ∉ timedMembers) : jsonStringOf entry key = jsonStringOf entry' key := by
  rw [Ao2.jsonStringOf, h.members key hkey, Ao2.jsonStringOf]

theorem SameButTimes.executionOf {next next' : Json} (h : SameButTimes next next')
    (options : FactoryQueueRunNextOptions) (root : String) :
    executionOf options root next' = executionOf options root next := by
  have hkind := h.jsonStringOf (show "job_kind" ∉ timedMembers by decide)
  have hrunId := h.jsonStringOf (show "run_id" ∉ timedMembers by decide)
  have hplan := h.jsonStringOf (show "plan_path" ∉ timedMembers by decide)
  have hrequest : next.index "project_start_request" = next'.index "project_start_request" := by
    rw [Json.index, h.members "project_start_request" (by decide), Json.index]
  rw [Workbench.executionOf, Workbench.executionOf, hkind, hrunId, hplan, hrequest]

theorem projectStartOptions_eq_iff (served : String) (form form' : Form) (runId : String) (request : Json) :
    projectStartOptions (runNextOptions served form) runId request =
        projectStartOptions (runNextOptions served form') runId request ↔
      (isBlank (jsonStringOf request "signer_id") = true → signerIdOf form = signerIdOf form') ∧
        (u64Of request "max_repair_attempts" = none →
          maxRepairAttemptsOf form = maxRepairAttemptsOf form') := by
  constructor
  · intro h
    have hsigner := congrArg FactoryProjectStartOptions.signerId h
    have hattempts := congrArg FactoryProjectStartOptions.maxRepairAttempts h
    simp only [projectStartOptions] at hsigner hattempts
    refine ⟨fun hblank => ?_, fun hnone => ?_⟩
    · rwa [if_pos hblank, if_pos hblank] at hsigner
    · rwa [hnone, Option.getD_none, Option.getD_none] at hattempts
  · rintro ⟨hsigner, hattempts⟩
    have hsigner' : (if isBlank (jsonStringOf request "signer_id") = true then signerIdOf form
        else jsonStringOf request "signer_id") =
        if isBlank (jsonStringOf request "signer_id") = true then signerIdOf form'
        else jsonStringOf request "signer_id" := by
      by_cases hblank : isBlank (jsonStringOf request "signer_id") = true
      · rw [if_pos hblank, if_pos hblank, hsigner hblank]
      · rw [if_neg hblank, if_neg hblank]
    have hattempts' : (u64Of request "max_repair_attempts").getD (maxRepairAttemptsOf form) =
        (u64Of request "max_repair_attempts").getD (maxRepairAttemptsOf form') := by
      cases hn : u64Of request "max_repair_attempts" with
      | none => exact hattempts hn
      | some n => rfl
    simp only [projectStartOptions, runNextOptions, hsigner', hattempts']

theorem runPlanOptions_eq_iff (served root : String) (form form' : Form) (runId planPath : String) :
    runPlanOptions (runNextOptions served form) root runId planPath =
        runPlanOptions (runNextOptions served form') root runId planPath ↔
      signerIdOf form = signerIdOf form' ∧ maxRepairAttemptsOf form = maxRepairAttemptsOf form' := by
  constructor
  · intro h
    exact ⟨congrArg FactoryRunPlanOptions.signerId h, congrArg FactoryRunPlanOptions.maxRepairAttempts h⟩
  · rintro ⟨hsigner, hattempts⟩
    simp only [runPlanOptions, runNextOptions, hsigner, hattempts]

/-- **An entry is executed in the same way** exactly if the forms agree on what it leaves to them. -/
theorem executionOf_eq_iff (served root : String) (form form' : Form) (next : Json) :
    executionOf (runNextOptions served form) root next =
        executionOf (runNextOptions served form') root next ↔ SameSettings form form' next := by
  rw [executionOf, executionOf]
  by_cases hkind : jsonStringOf next "job_kind" = "factory_project_start"
  · rw [if_pos hkind, if_pos hkind, QueueOp.projectStart.injEq, projectStartOptions_eq_iff]
    exact ⟨fun ⟨hsigner, hattempts⟩ => ⟨fun h => hsigner (h hkind), fun h => hattempts (h hkind)⟩,
      fun ⟨hsigner, hattempts⟩ => ⟨fun h => hsigner fun _ => h, fun h => hattempts fun _ => h⟩⟩
  · rw [if_neg hkind, if_neg hkind, QueueOp.runPlan.injEq, runPlanOptions_eq_iff]
    exact ⟨fun ⟨hsigner, hattempts⟩ => ⟨fun _ => hsigner, fun _ => hattempts⟩,
      fun ⟨hsigner, hattempts⟩ => ⟨hsigner fun h => absurd h hkind, hattempts fun h => absurd h hkind⟩⟩

section

variable [Platform] {files : TargetState} {target : String} {form form' : Form}
  {f f' : Oracle QueueSignature}

/-- An entry is the one that the digest was made of. -/
def WasShown (f : Oracle QueueSignature) (target : String) (form : Form) (next : Json) : Prop :=
  ∃ first runId entry,
    (copies (f.machine.run (workbenchFactoryProjectStartRunNext target form) []).2)[0]? = some first ∧
      required form "run_id" = .ok runId ∧ queuedProjectStart runId (fileEntries first) = .ok entry ∧
        SameButTimes entry next

omit [Platform] in
theorem runNextDigestInput_inj {runId queuePath runId' queuePath' : String} {entry entry' : Json}
    (h : runNextDigestInput runId queuePath entry = runNextDigestInput runId' queuePath' entry') :
    entry = entry' := by
  have hget := congrArg (fun v : Json => v.get? "queued_entry") h
  simp only [runNextDigestInput, Json.get?_object] at hget
  exact Option.some.inj hget

/-- What an execution rests on is what was shown. -/
theorem Taken.shown_of_wasShown {o : QueueOp} {h : List (Event QueueSignature)} {served root runId : String}
    {first second : Option Json} {entry next shown : Json}
    (htaken : Taken files target form o h served root runId first second entry next)
    (hle : h <+: (f.machine.run (workbenchFactoryProjectStartRunNext target form) []).2)
    (hshown : WasShown f target form shown) : SameButTimes entry shown := by
  obtain ⟨first', runId', entry', hfirst, hrunId, hentry, hsame⟩ := hshown
  have hread : (copies (f.machine.run (workbenchFactoryProjectStartRunNext target form) []).2)[0]? =
      some first := by
    obtain ⟨rest, heq⟩ := copies_prefix hle
    rw [← heq, List.getElem?_append_left (List.getElem?_eq_some_iff.mp htaken.readFirst).1,
      htaken.readFirst]
  obtain rfl : first = first' := Option.some.inj (hread.symm.trans hfirst)
  obtain rfl : runId = runId' := Except.ok.inj (htaken.named.symm.trans hrunId)
  obtain rfl : entry = entry' := Except.ok.inj (htaken.shown.symm.trans hentry)
  exact hsame

/-- **What two executions that are approved with one digest execute.** -/
theorem execution_bound (hsha : Function.Injective (sha256Json : Json → String)) (hf : Keeps files f)
    (hf' : Keeps files f') (hdigest : submittedDigestOf form = submittedDigestOf form') {next next' : Json}
    {o o' : QueueOp} (h : Executes f (workbenchFactoryProjectStartRunNext target form) next o)
    (h' : Executes f' (workbenchFactoryProjectStartRunNext target form') next' o') :
    (SameButTimes next next' ∧ o = o' ↔ SameButTimes next next' ∧ SameSettings form form' next) ∧
      (WasShown f target form next → WasShown f' target form' next' → SameButTimes next next') := by
  obtain ⟨earlier, served, root, runId, first, second, entry, hle, htaken⟩ := taken_of_executes hf h
  obtain ⟨earlier', served', root', runId', first', second', entry', hle', htaken'⟩ :=
    taken_of_executes hf' h'
  obtain rfl : served = served' := Except.ok.inj (htaken.canonicalTarget.symm.trans htaken'.canonicalTarget)
  obtain rfl : root = root' := Except.ok.inj (htaken.canonicalRoot.symm.trans htaken'.canonicalRoot)
  refine ⟨and_congr_right fun hsame => ?_, fun hshown hshown' => ?_⟩
  · rw [htaken.operation, htaken'.operation, hsame.executionOf]
    exact executionOf_eq_iff served root form form' next
  · have hinput := hsha (htaken.approved.symm.trans (hdigest.trans htaken'.approved))
    obtain rfl := runNextDigestInput_inj hinput
    exact (htaken.shown_of_wasShown hle hshown).symm.trans (htaken'.shown_of_wasShown hle' hshown')

/-- **What an approved digest binds.** Two requests with one digest submit one entry exactly if their forms
agree on the provider, the prompts and the repairs. What they execute is the same exactly if the entry that
comes first when the queue is read again is, and the forms agree on what that entry leaves to them. -/
theorem bound_iff (hsha : Function.Injective (sha256Json : Json → String)) (hf : Keeps files f)
    (hf' : Keeps files f') (hdigest : submittedDigestOf form = submittedDigestOf form') :
    (∀ entry entry', Submits f (workbenchFactoryGreenfieldSpecIngestSubmit files target form) entry →
      Submits f' (workbenchFactoryGreenfieldSpecIngestSubmit files target form') entry' →
        (SameButTimes entry entry' ↔ SameSubmission files target form form')) ∧
    ∀ next next' o o', Executes f (workbenchFactoryProjectStartRunNext target form) next o →
      Executes f' (workbenchFactoryProjectStartRunNext target form') next' o' →
        (SameButTimes next next' ∧ o = o' ↔ SameButTimes next next' ∧ SameSettings form form' next) ∧
          (WasShown f target form next → WasShown f' target form' next' → SameButTimes next next') :=
  ⟨fun _ _ h h' => submission_bound hsha hdigest (isSubmission_of_submits hf h)
    (isSubmission_of_submits hf' h'), fun _ _ _ _ h h' => execution_bound hsha hf hf' hdigest h h'⟩

end

/-! ### An entry that is replaced -/

/-- **The digest binds the whole action**: whatever else the forms say and whatever others do to the queue,
what is done for one digest is the same. -/
def Binds [Platform] : Prop :=
  ∀ files target form form' f f', Keeps files f → Keeps files f' →
    submittedDigestOf form = submittedDigestOf form' →
      (∀ entry entry', Submits f (workbenchFactoryGreenfieldSpecIngestSubmit files target form) entry →
        Submits f' (workbenchFactoryGreenfieldSpecIngestSubmit files target form') entry' →
          SameButTimes entry entry') ∧
      ∀ next next' o o', Executes f (workbenchFactoryProjectStartRunNext target form) next o →
        Executes f' (workbenchFactoryProjectStartRunNext target form') next' o' →
          SameButTimes next next' ∧ o = o'

theorem executes_of_getElem? {f : Oracle QueueSignature} {p : QueueProg Json} {next : Json} {o : QueueOp}
    {second : Option Json} (i : ℕ) (hi : ((f.machine.run p []).2[i]?).map (·.op) = some o)
    (ho : o.executed.isSome) (hsecond : (copies ((f.machine.run p []).2.take i))[1]? = some second)
    (hnext : nextQueued (fileEntries second) = .ok next) : Executes f p next o := by
  obtain ⟨e, he, rfl⟩ := Option.map_eq_some_iff.mp hi
  obtain ⟨hlt, he⟩ := List.getElem?_eq_some_iff.mp he
  refine ⟨_, e.ans, (f.machine.run p []).2.drop (i + 1), second, ?_, ho, hsecond, hnext⟩
  rw [← he, List.cons_getElem_drop_succ, List.take_append_drop]

def plainFiles : TargetState where
  pathExists _ := true
  isFile _ := true
  canonicalize path := .ok path
  readText _ := .ok ""
  sha256File _ := .ok "sha256"

/-- The entry of a project start. -/
def startEntry (runId : String) : Json := .object
  [("run_id", .str runId), ("job_kind", .str "factory_project_start"), ("status", .str "queued"),
    ("project_start_request", .object [("project_spec", .str "spec.md"),
      ("project_spec_sha256", .str "sha256"), ("signer_id", .str "signer"),
      ("max_repair_attempts", .nat 1)])]

def queueOf (runIds : List String) : Json :=
  .object [("schema_version", .str factoryQueueSchema), ("entries", .arr (runIds.map startEntry))]

/-- The run `a` is the next one. What the queue holds when it is read again is given. -/
def replacing (later : List String) : Oracle QueueSignature := fun h o =>
  match o with
  | .pathExists _ | .isFile _ => true
  | .canonicalize path => .ok path
  | .sha256File _ => .ok "sha256"
  | .readQueueFile => .ok (some (queueOf (if copies h = [] then ["a", "b"] else later)))
  | .now | .nowCompact => "now"
  | .writeFile .. | .writeQueueFile _ => .ok ()
  | .readCompatValue _ | .runPlan _ | .projectStart _ | .projectStartBundleVerify _
  | .projectStartSummary .. | .projectStartClosure .. | .projectStartClosureVerify _
  | .replacementPacket _ | .replacementPacketVerify _ => .error ""

def runNextForm : Form :=
  [("approval_action_digest".toList, "#".toList), ("run_id".toList, "a".toList)]

@[reducible] def approvingPlatform : Platform :=
  numberingPlatform [runNextDigestInput "a" (factoryQueuePath "repo") (startEntry "a")]

theorem keeps_replacing (later : List String) : Keeps plainFiles (replacing later) where
  canonicalize _ _ _ := rfl
  sha256File _ _ _ := rfl

section

attribute [local instance] approvingPlatform

theorem executes_kept :
    Executes (replacing ["a", "b"]) (workbenchFactoryProjectStartRunNext "repo" runNextForm)
      (startEntry "a") (executionOf (runNextOptions "repo" runNextForm) "repo" (startEntry "a")) :=
  executes_of_getElem? 12 (by rfl) (by rfl) (show _ = some (some (queueOf ["a", "b"])) by rfl) (by rfl)

theorem executes_replaced :
    Executes (replacing ["b"]) (workbenchFactoryProjectStartRunNext "repo" runNextForm)
      (startEntry "b") (executionOf (runNextOptions "repo" runNextForm) "repo" (startEntry "b")) :=
  executes_of_getElem? 12 (by rfl) (by rfl) (show _ = some (some (queueOf ["b"])) by rfl) (by rfl)

theorem not_sameButTimes_startEntry : ¬ SameButTimes (startEntry "a") (startEntry "b") := by
  intro h
  have hrunId := h.members "run_id" (by decide)
  rw [startEntry, startEntry, Json.get?_object, Json.get?_object] at hrunId
  exact absurd (Json.str.inj (Option.some.inj hrunId)) (by decide)

/-- What two runs of a request execute whose entry is taken out of the queue in the second one. -/
theorem bound_iff_replaced :
    SameButTimes (startEntry "a") (startEntry "b") ∧
        executionOf (runNextOptions "repo" runNextForm) "repo" (startEntry "a") =
          executionOf (runNextOptions "repo" runNextForm) "repo" (startEntry "b") ↔
      SameButTimes (startEntry "a") (startEntry "b") ∧
        SameSettings runNextForm runNextForm (startEntry "a") :=
  ((bound_iff (sha256Json_numbering_injective _) (keeps_replacing ["a", "b"]) (keeps_replacing ["b"])
    rfl).2 _ _ _ _ executes_kept executes_replaced).1

/-- **The digest does not bind what is executed**: the entry that it was made of is taken out of the queue
once the digest was found to be the right one. -/
theorem not_binds : Function.Injective (sha256Json : Json → String) ∧ ¬ Binds := by
  refine ⟨sha256Json_numbering_injective _, fun h => ?_⟩
  have hexecution := (h plainFiles "repo" runNextForm runNextForm _ _ (keeps_replacing ["a", "b"])
    (keeps_replacing ["b"]) rfl).2 _ _ _ _ executes_kept executes_replaced
  exact not_sameButTimes_startEntry hexecution.1

end

end Workbench

end Ao2
