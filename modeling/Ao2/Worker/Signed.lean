import Ao2.Interaction.Oracle
import Ao2.Worker.Accept
import Ao2.Worker.Ledger
import Mathlib.Algebra.Ring.Nat

/-!
# Nothing runs unsigned

In whatever environment the worker polls, an action runs only for a task that was on a board, that is
for this node and that carries an authorization of exactly this task under a trusted key, which
`openssl` verified at a time at which it was valid; and only if its request was never claimed before.

The ledger is that of `WorkerState`; threads that run actions may complete requests at any time. All
else is answered by the environment.

## Main results

* `verifyExecutionAuthorization_spec` — what was checked when an authorization is verified
-/

namespace Ao2

open Python Interaction

section

variable {F : Type} [FloatValue F]

/-! ### The world of a worker -/

/-- What answers the worker: all but the ledger, whose events happen at some time, and which other
threads complete requests in. -/
structure WorkerEnvironment (F : Type) where
  answer : List (Event (WorkerSignature F)) → (o : WorkerOp F) → o.Ans
  recordedAt : List (Event (WorkerSignature F)) → PyStr
  updatedAt : List (Event (WorkerSignature F)) → PyStr
  /-- The requests that are completed before the next operation, with their statuses. -/
  completions : List (Event (WorkerSignature F)) → List (PyStr × PyStr)

structure WorkerWorld (F : Type) where
  state : WorkerState F
  history : List (Event (WorkerSignature F))

variable (env : WorkerEnvironment F)

/-- Other threads complete requests. -/
def WorkerWorld.settled (w : WorkerWorld F) : WorkerState F :=
  (env.completions w.history).foldl
    (fun s c => s.complete (env.recordedAt w.history) (env.updatedAt w.history) c.1 c.2) w.state

/-- What an operation is answered, and what it does to the ledger. -/
def answerOp (h : List (Event (WorkerSignature F))) (s : WorkerState F) :
    (o : WorkerOp F) → o.Ans × WorkerState F
  | .hasRequest requestId => (s.hasRequest requestId, s)
  | .claim requestId action => s.claim (env.recordedAt h) (env.updatedAt h) requestId action
  | .complete requestId status =>
    ((), s.complete (env.recordedAt h) (env.updatedAt h) requestId status)
  | o => (env.answer h o, s)

def workerMachine : Machine (WorkerSignature F) (WorkerWorld F) where
  step o w :=
    let r := answerOp env w.history (w.settled env) o
    (r.1, ⟨r.2, w.history ++ [⟨o, r.1⟩]⟩)

theorem workerMachine_records : (workerMachine env).Records WorkerWorld.history := fun _ _ => rfl

/-! ### What is never forgotten -/

/-- The requests of the ledger that the process began with, and those that were claimed, are in the
ledger. -/
structure Remembers (loaded : Tasks F) (w : WorkerWorld F) : Prop where
  loaded : ∀ requestId, (loaded.lookup requestId).isSome → w.state.hasRequest requestId = true
  claimed : ∀ requestId action,
    (⟨.claim requestId action, true⟩ : Event (WorkerSignature F)) ∈ w.history →
      w.state.hasRequest requestId = true

omit [FloatValue F] in
theorem hasRequest_setItem {tasks : Tasks F} {dir : StateDir} {requestId id : PyStr}
    {item : TaskItem F} :
    (WorkerState.mk dir (setItem id item tasks)).hasRequest requestId =
      (requestId = id || (tasks.lookup requestId).isSome) := by
  by_cases hid : requestId = id
  · subst hid
    simp [WorkerState.hasRequest]
  · simp [WorkerState.hasRequest, lookup_setItem_of_ne hid, hid]

theorem hasRequest_complete (s : WorkerState F) (recordedAt completedAt id status requestId : PyStr) :
    (s.complete recordedAt completedAt id status).hasRequest requestId =
      (requestId = id || s.hasRequest requestId) := hasRequest_setItem

theorem hasRequest_claim (s : WorkerState F) (recordedAt startedAt id action requestId : PyStr) :
    (s.claim recordedAt startedAt id action).2.hasRequest requestId =
      (requestId = id || s.hasRequest requestId) := by
  rw [WorkerState.claim]
  by_cases hid : s.hasRequest id = true
  · rw [if_pos hid]
    by_cases heq : requestId = id
    · simp [heq, hid]
    · simp [heq]
  · rw [if_neg hid]
    exact hasRequest_setItem

theorem hasRequest_settled {w : WorkerWorld F} {requestId : PyStr}
    (h : w.state.hasRequest requestId = true) : (w.settled env).hasRequest requestId = true := by
  rw [WorkerWorld.settled]
  generalize env.completions w.history = completions
  generalize w.state = s at h
  induction completions generalizing s with
  | nil => exact h
  | cons c completions ih =>
    rw [List.foldl_cons]
    refine ih _ ?_
    rw [hasRequest_complete, h, Bool.or_true]

theorem hasRequest_answerOp {h : List (Event (WorkerSignature F))} {s : WorkerState F}
    {requestId : PyStr} (o : WorkerOp F) (hs : s.hasRequest requestId = true) :
    (answerOp env h s o).2.hasRequest requestId = true := by
  cases o with
  | claim id action =>
    have hclaim := hasRequest_claim s (env.recordedAt h) (env.updatedAt h) id action requestId
    rw [hs, Bool.or_true] at hclaim
    exact hclaim
  | complete id status =>
    have hcomplete := hasRequest_complete s (env.recordedAt h) (env.updatedAt h) id status requestId
    rw [hs, Bool.or_true] at hcomplete
    exact hcomplete
  | _ => exact hs

omit [FloatValue F] in
theorem remembers_initial (s : WorkerState F) : Remembers s.tasks (⟨s, []⟩ : WorkerWorld F) :=
  ⟨fun _ h => h, fun _ _ h => absurd h List.not_mem_nil⟩

theorem Remembers.step {loaded : Tasks F} {w : WorkerWorld F} (h : Remembers loaded w)
    (o : WorkerOp F) : Remembers loaded ((workerMachine env).step o w).2 where
  loaded requestId hrequest :=
    hasRequest_answerOp env o (hasRequest_settled env (h.loaded requestId hrequest))
  claimed := by
    intro requestId action hmem
    rcases List.mem_append.mp hmem with hmem | hmem
    · exact hasRequest_answerOp env o (hasRequest_settled env (h.claimed requestId action hmem))
    · have hlast := List.mem_singleton.mp hmem
      obtain rfl : .claim requestId action = o := congrArg Event.op hlast
      have hclaim := hasRequest_claim (w.settled env) (env.recordedAt w.history)
        (env.updatedAt w.history) requestId action requestId
      rw [decide_eq_true rfl, Bool.true_or] at hclaim
      exact hclaim

/-! ### What is checked of an authorization -/

omit [FloatValue F] in
theorem isText_iff {v : PyJson F} {s : PyStr} : isText v s = true ↔ v = .str s := by
  cases v <;> simp [isText]

/-- Only a text is equal to a text. -/
theorem pyEq_str {v : PyJson F} {s : PyStr} (h : pyEq v (.str s) = true) : v = .str s := by
  cases v <;> simp_all [pyEq, sameValue, numberEq]

variable [WorkerLibrary]

/-- What holds of an authorization that the checks let through. -/
structure VerifiedBy (config : WorkerConfig) (cross : Members F) (a : Authorization F)
    (issuedAt expiresAt : ℤ) : Prop where
  parts : ∃ authorization, getItem cross "execution_authorization" = .dict authorization ∧
    getItem authorization "subject" = .dict a.subject ∧
    (∃ pem, getItem authorization "public_key_pem" = .str pem ∧
      canonicalPublicKeyBytes pem = some a.publicKeyBytes) ∧
    ∃ signature, getItem authorization "signature_base64" = .str signature ∧
      b64decode signature = some a.signatureBytes
  trusted : sha256Hex a.publicKeyBytes ∈ trustedKeys config
  key : getItem a.subject "signing_public_key_sha256" = .str (sha256Hex a.publicKeyBytes)
  target : pyEq (getItem a.subject "target_node") (getItem cross "target_node") = true
  request : pyEq (getItem a.subject "request_id") (getItem cross "request_id") = true
  digest : ∃ bytes, canonicalJsonBytes (.dict (cross.filter fun m =>
      m.1 ≠ ofString "execution_authorization")) = .ok bytes ∧
    getItem a.subject "action_digest" = .str (sha256Hex bytes)
  issued : parseUtcTimestamp (getItem a.subject "issued_at") = some issuedAt
  expires : parseUtcTimestamp (getItem a.subject "expires_at") = some expiresAt
  lifetime : issuedAt < expiresAt ∧ expiresAt - issuedAt ≤ executionAuthorizationMaxTtl

omit [FloatValue F] [WorkerLibrary] in
theorem readAuthorization_ok {cross authorization subject : Members F}
    (h : readAuthorization cross = .ok (authorization, subject)) :
    getItem cross "execution_authorization" = .dict authorization ∧
      getItem authorization "subject" = .dict subject := by
  rw [readAuthorization] at h
  split at h
  · next authorization' hauthorization =>
    split_ifs at h
    split at h
    · next subject' hsubject =>
      split_ifs at h
      obtain ⟨rfl, rfl⟩ := Prod.mk.inj (Except.ok.inj h)
      exact ⟨hauthorization, hsubject⟩
    · cases h
  · cases h

omit [FloatValue F] [WorkerLibrary] in
theorem readPublicKeyPem_ok {v : PyJson F} {pem : PyStr} (h : readPublicKeyPem v = .ok pem) :
    v = .str pem := by
  rw [readPublicKeyPem.eq_def] at h
  split at h
  · next s =>
    split at h
    · cases h
    · split_ifs at h
      rw [Except.ok.inj h]
  · cases h

omit [FloatValue F] [WorkerLibrary] in
theorem readSignatureBase64_ok {v : PyJson F} {signature : PyStr}
    (h : readSignatureBase64 v = .ok signature) : v = .str signature := by
  rw [readSignatureBase64.eq_def] at h
  split at h
  · split_ifs at h
    rw [Except.ok.inj h]
  · cases h

omit [FloatValue F] in
theorem readKey_ok {authorization subject : Members F} {a : Authorization F}
    (h : readKey authorization subject = .ok a) :
    a.subject = subject ∧
    (∃ pem, getItem authorization "public_key_pem" = .str pem ∧
      canonicalPublicKeyBytes pem = some a.publicKeyBytes) ∧
    ∃ signature, getItem authorization "signature_base64" = .str signature ∧
      b64decode signature = some a.signatureBytes := by
  rw [readKey] at h
  simp only [↓seq_eq_ok, bind_eq_ok, require_eq_ok] at h
  obtain ⟨-, -, pem, hpem, signature, hsignature, h⟩ := h
  split at h
  · next publicKeyBytes signatureBytes hkey hbytes =>
    obtain rfl := Except.ok.inj h
    exact ⟨rfl, ⟨pem, readPublicKeyPem_ok hpem, hkey⟩, signature, readSignatureBase64_ok hsignature,
      hbytes⟩
  · cases h

theorem executionActionDigest_ok {cross : Members F} {digest : PyStr}
    (h : executionActionDigest cross = .ok digest) :
    ∃ bytes, canonicalJsonBytes (.dict (cross.filter fun m =>
      m.1 ≠ ofString "execution_authorization")) = .ok bytes ∧ sha256Hex bytes = digest :=
  map_eq_ok.mp h

theorem checkSubject_ok {config : WorkerConfig} {cross : Members F} {a : Authorization F}
    (h : checkSubject config cross a = .ok ()) :
    (sha256Hex a.publicKeyBytes ∈ trustedKeys config ∧
      getItem a.subject "signing_public_key_sha256" = .str (sha256Hex a.publicKeyBytes)) ∧
    pyEq (getItem a.subject "target_node") (getItem cross "target_node") = true ∧
    pyEq (getItem a.subject "request_id") (getItem cross "request_id") = true ∧
    ∃ digest, executionActionDigest cross = .ok digest ∧
      getItem a.subject "action_digest" = .str digest := by
  rw [checkSubject] at h
  simp only [↓seq_eq_ok, bind_eq_ok, require_eq_ok, mapError_eq_ok, isText_iff,
    decide_eq_true_eq] at h
  exact h

omit [FloatValue F] in
theorem readValidity_ok {subject : Members F} {issuedAt expiresAt : ℤ}
    (h : readValidity subject = .ok (issuedAt, expiresAt)) :
    parseUtcTimestamp (getItem subject "issued_at") = some issuedAt ∧
      parseUtcTimestamp (getItem subject "expires_at") = some expiresAt ∧
      issuedAt < expiresAt ∧ expiresAt - issuedAt ≤ executionAuthorizationMaxTtl := by
  rw [readValidity] at h
  split at h
  · next issued expires hissued hexpires =>
    split_ifs at h with hle httl
    obtain ⟨rfl, rfl⟩ := Prod.mk.inj (Except.ok.inj h)
    exact ⟨hissued, hexpires, not_le.mp hle, not_lt.mp httl⟩
  · cases h

omit [FloatValue F] [WorkerLibrary] in
theorem checkClock_ok {current issuedAt expiresAt : ℤ} {u : Unit}
    (h : checkClock current issuedAt expiresAt = .ok u) :
    issuedAt ≤ current + executionAuthorizationClockSkew ∧ current ≤ expiresAt := by
  rw [checkClock] at h
  split_ifs at h with hearly hlate
  exact ⟨not_lt.mp hearly, not_lt.mp hlate⟩

omit [FloatValue F] [WorkerLibrary] in
theorem opensslVerdict_ok {outcome : OpensslOutcome} {u : Unit} (h : opensslVerdict outcome = .ok u) :
    outcome = .exited 0 := by
  cases outcome with
  | failed => cases h
  | exited code =>
    rw [opensslVerdict] at h
    split_ifs at h with hcode
    rw [not_not.mp hcode]

/-- **What the checks let through.** -/
theorem checkAuthorization_ok {config : WorkerConfig} {cross : Members F} {a : Authorization F}
    {issuedAt expiresAt : ℤ} (h : checkAuthorization config cross = .ok (a, issuedAt, expiresAt)) :
    VerifiedBy config cross a issuedAt expiresAt := by
  rw [checkAuthorization] at h
  simp only [↓seq_eq_ok, bind_eq_ok] at h
  obtain ⟨⟨authorization, subject⟩, hread, a', hkey, hsubject, ⟨issued, expires⟩, hvalid, h⟩ := h
  obtain ⟨rfl, hrest⟩ := Prod.mk.inj (Except.ok.inj h)
  obtain ⟨rfl, rfl⟩ := Prod.mk.inj hrest
  obtain ⟨hauthorization, hsubjectOf⟩ := readAuthorization_ok hread
  obtain ⟨rfl, hpem, hsignature⟩ := readKey_ok hkey
  obtain ⟨⟨htrusted, hown⟩, htarget, hrequest, digest, hdigest, haction⟩ := checkSubject_ok hsubject
  obtain ⟨bytes, hbytes, rfl⟩ := executionActionDigest_ok hdigest
  obtain ⟨hissued, hexpires, hlifetime⟩ := readValidity_ok hvalid
  exact ⟨⟨authorization, hauthorization, hsubjectOf, hpem, hsignature⟩, htrusted, hown, htarget,
    hrequest, ⟨bytes, hbytes, haction⟩, hissued, hexpires, hlifetime⟩

/-! ### Running an action -/

/-- A task on a board that was read. -/
def OnBoard (config : WorkerConfig) (h : List (Event (WorkerSignature F))) (cross : Members F) : Prop :=
  ∃ board tasks task, (⟨.latestBoard, some (.dict board)⟩ : Event (WorkerSignature F)) ∈ h ∧
    getItem board "tasks" = .list tasks ∧ task ∈ tasks ∧ crossHost config task = some cross

/-- The operations between the look at the ledger and the start of the action. -/
def authorizationEvents (requestId action : PyStr) (a : Authorization F) (current : ℤ)
    (bytes : Bytes) : List (Event (WorkerSignature F)) :=
  [⟨.now, current⟩, ⟨.resolveOpenssl, true⟩,
    ⟨.opensslVerify a.publicKeyBytes a.signatureBytes bytes, .exited 0⟩,
    ⟨.claim requestId action, true⟩]

/-- The task that is executed, and the authorization that it was executed under. -/
structure ExecutedTask (config : WorkerConfig) (loaded : Tasks F)
    (earlier : List (Event (WorkerSignature F))) (requestId action : PyStr) (parameters cross : Members F)
    (a : Authorization F) (issuedAt expiresAt current : ℤ) (bytes : Bytes) : Prop where
  onBoard : OnBoard config earlier cross
  node : getItem cross "target_node" = .str config.nodeId
  requestId_eq : requestIdOf cross = requestId
  action_eq : actionOf cross = action
  allowlisted : action ∈ allowlistedActions
  notObserver : action ∉ unsignedObserverActions
  notArbitrary : truthy (getItem cross "arbitrary_command_execution") = false
  parameters_eq : getItem cross "parameters" = .dict parameters
  neverClaimed : loaded.lookup requestId = none ∧
    ∀ action', (⟨.claim requestId action', true⟩ : Event (WorkerSignature F)) ∉ earlier
  verified : VerifiedBy config cross a issuedAt expiresAt
  subjectNode : getItem a.subject "target_node" = .str config.nodeId
  signedBytes : canonicalJsonBytes (.dict a.subject) = .ok bytes
  notEarly : issuedAt - executionAuthorizationClockSkew ≤ current
  notLate : current ≤ expiresAt

/-- What was the case when an action was started: its task was on a board, `openssl` verified its
authorization and the request was claimed, one right after the other. -/
def SignedExecution (config : WorkerConfig) (loaded : Tasks F) (h : List (Event (WorkerSignature F)))
    (requestId action : PyStr) (parameters : Members F) : Prop :=
  ∃ earlier cross a issuedAt expiresAt current bytes,
    h = earlier ++ authorizationEvents requestId action a current bytes ∧
    ExecutedTask config loaded earlier requestId action parameters cross a issuedAt expiresAt current
      bytes

/-- Actions are only run for tasks that are signed. -/
def RunsSigned (config : WorkerConfig) (loaded : Tasks F) (o : WorkerOp F) (w : WorkerWorld F) : Prop :=
  ∀ requestId action parameters receipt, o = .runAction requestId action parameters receipt →
    SignedExecution config loaded w.history requestId action parameters

/-! ### The specifications -/

/-- The world only learns. -/
structure Learns (loaded : Tasks F) (w w' : WorkerWorld F) : Prop where
  remembers : Remembers loaded w → Remembers loaded w'
  history : w.history <+: w'.history

omit [WorkerLibrary] in
theorem learns (loaded : Tasks F) {ε α : Type} (p : Prog (WorkerSignature F) ε α) (w : WorkerWorld F) :
    (workerMachine env).wp (fun _ w' => Learns loaded w w') p (fun _ w' => Learns loaded w w')
      (fun _ w' => Learns loaded w w') w := by
  have honly : p.Only fun _ => True := by
    induction p with
    | done a => trivial
    | fail e => trivial
    | ask o k ih => exact ⟨trivial, ih⟩
  refine Machine.wp_mono (Machine.wp_of_only (R := Learns loaded) (fun _ => ⟨id, List.prefix_rfl⟩)
    (fun h h' => ⟨h'.remembers ∘ h.remembers, h.history.trans h'.history⟩)
    (fun o w _ => ⟨fun h => h.step env o, List.prefix_append _ _⟩) honly w)
    (fun _ _ h => h.2) (fun _ _ => id) fun _ _ => id

variable {loaded : Tasks F} {config : WorkerConfig}

/-- **What was checked when an authorization is verified.** -/
theorem verifyExecutionAuthorization_spec (cross : Members F) (w : WorkerWorld F) :
    (workerMachine env).wp (RunsSigned config loaded) (verifyExecutionAuthorization config cross)
      (fun _ w' => ∃ a issuedAt expiresAt current bytes, VerifiedBy config cross a issuedAt expiresAt ∧
        issuedAt - executionAuthorizationClockSkew ≤ current ∧ current ≤ expiresAt ∧
        canonicalJsonBytes (.dict a.subject) = .ok bytes ∧
        w'.history = w.history ++ [⟨.now, current⟩, ⟨.resolveOpenssl, true⟩,
          ⟨.opensslVerify a.publicKeyBytes a.signatureBytes bytes, .exited 0⟩])
      (fun _ _ => True) w := by
  rw [verifyExecutionAuthorization]
  refine Machine.wp_ofExcept_bind (fun checked hchecked => ?_) fun _ _ => trivial
  obtain ⟨a, issuedAt, expiresAt⟩ := checked
  refine ⟨fun _ _ _ _ h => (by cases h), ?_⟩
  refine Machine.wp_ofExcept_bind (fun _ hclock => ?_) fun _ _ => trivial
  refine ⟨fun _ _ _ _ h => (by cases h), ?_⟩
  refine Machine.wp_ofExcept_bind (fun _ hopenssl => ?_) fun _ _ => trivial
  refine Machine.wp_ofExcept_bind (fun bytes hbytes => ?_) fun _ _ => trivial
  refine ⟨fun _ _ _ _ h => (by cases h), ?_⟩
  have hrecords := workerMachine_records env
  set w₁ := ((workerMachine env).step .now w).2 with hw₁
  set w₂ := ((workerMachine env).step .resolveOpenssl w₁).2 with hw₂
  have hhistory : ((workerMachine env).step
        (.opensslVerify a.publicKeyBytes a.signatureBytes bytes) w₂).2.history =
      w.history ++ [⟨.now, ((workerMachine env).step .now w).1⟩, ⟨.resolveOpenssl, true⟩,
        ⟨.opensslVerify a.publicKeyBytes a.signatureBytes bytes, ((workerMachine env).step
          (.opensslVerify a.publicKeyBytes a.signatureBytes bytes) w₂).1⟩] := by
    rw [hrecords, hw₂, hrecords, hw₁, hrecords, ← hw₁, require_eq_ok.mp hopenssl, List.append_assoc,
      List.append_assoc]
    rfl
  refine Machine.wp_ofExcept (fun _ hverdict => ?_) fun _ _ => trivial
  obtain ⟨hearly, hlate⟩ := checkClock_ok hclock
  rw [opensslVerdict_ok hverdict] at hhistory
  exact ⟨a, issuedAt, expiresAt, _, bytes, checkAuthorization_ok hchecked, by omega, hlate,
    mapError_eq_ok.mp hbytes, hhistory⟩

theorem startTask_spec {requestId action : PyStr} {parameters : Members F}
    {receipt : Option (Members F)} {w : WorkerWorld F}
    (h : action ∉ unsignedObserverActions →
      ((workerMachine env).step (.claim requestId action) w).1 = true →
      SignedExecution config loaded ((workerMachine env).step (.claim requestId action) w).2.history
        requestId action parameters) :
    (workerMachine env).wp (RunsSigned config loaded) (startTask requestId action parameters receipt)
      (fun _ _ => True) (fun _ _ => True) w := by
  rw [startTask]
  refine ⟨fun _ _ _ _ h => (by cases h), ?_⟩
  cases hclaim : ((workerMachine env).step (.claim requestId action) w).1 with
  | false => trivial
  | true =>
    by_cases hobserver : action ∈ unsignedObserverActions
    · simp only [Prog.done_bind, hobserver, if_true]
      exact ⟨fun _ _ _ _ h => (by cases h), fun _ _ _ _ h => (by cases h), fun _ _ _ _ h => (by cases h),
        trivial⟩
    · simp only [Prog.done_bind, hobserver, if_false]
      refine ⟨fun _ _ _ _ heq => ?_, trivial⟩
      obtain ⟨rfl, rfl, rfl, rfl⟩ := WorkerOp.runAction.inj heq
      exact h hobserver hclaim

omit [WorkerLibrary] in
/-- A request that can be claimed was never claimed before. -/
theorem neverClaimed {w : WorkerWorld F} (hw : Remembers loaded w) {requestId action : PyStr}
    (hclaim : ((workerMachine env).step (.claim requestId action) w).1 = true) :
    loaded.lookup requestId = none ∧
      ∀ action', (⟨.claim requestId action', true⟩ : Event (WorkerSignature F)) ∉ w.history := by
  have hfree : w.state.hasRequest requestId ≠ true := by
    intro hknown
    have hsettled := hasRequest_settled env hknown
    change ((w.settled env).claim _ _ requestId action).1 = true at hclaim
    rw [WorkerState.claim, if_pos hsettled] at hclaim
    cases hclaim
  refine ⟨?_, fun action' hmem => hfree (hw.claimed requestId action' hmem)⟩
  rw [← Option.not_isSome_iff_eq_none]
  exact fun hsome => hfree (hw.loaded requestId hsome)

omit [FloatValue F] [WorkerLibrary] in
theorem crossHost_node {task : PyJson F} {cross : Members F} (h : crossHost config task = some cross) :
    getItem cross "target_node" = .str config.nodeId := by
  rw [crossHost.eq_def] at h
  split at h
  · split at h
    · split_ifs at h with htask
      rw [Bool.and_eq_true, isText_iff, isText_iff] at htask
      obtain rfl := Option.some.inj h
      exact htask.2
    · cases h
  · cases h

theorem startAuthorized_spec {w : WorkerWorld F} (hw : Remembers loaded w) {cross parameters : Members F}
    (hboard : OnBoard config w.history cross) (hallowed : actionOf cross ∈ allowlistedActions)
    (harbitrary : truthy (getItem cross "arbitrary_command_execution") = false)
    (hparameters : getItem cross "parameters" = .dict parameters) :
    (workerMachine env).wp (RunsSigned config loaded) (startAuthorized config cross parameters)
      (fun _ _ => True) (fun _ _ => True) w := by
  rw [startAuthorized]
  refine Machine.wp_bind.mpr (Machine.wp_attempt.mpr (Machine.wp_mono
    ((verifyExecutionAuthorization_spec env cross w).and (learns env loaded _ w)) (fun _ _ h => h.1)
    ?_ ?_))
  · rintro _ w' ⟨⟨a, issuedAt, expiresAt, current, bytes, hverified, hearly, hlate, hbytes, hhistory⟩,
      hlearns⟩
    refine startTask_spec env fun hobserver hclaim => ?_
    have hevents := workerMachine_records env (.claim (requestIdOf cross) (actionOf cross)) w'
    rw [hclaim, hhistory, List.append_assoc] at hevents
    obtain ⟨hloaded, hnever⟩ := neverClaimed env (hlearns.remembers hw) hclaim
    have hnode : getItem cross "target_node" = .str config.nodeId := by
      obtain ⟨_, _, _, _, _, _, hcross⟩ := hboard
      exact crossHost_node hcross
    have hsubject : getItem a.subject "target_node" = .str config.nodeId := by
      have htarget := hverified.target
      rw [hnode] at htarget
      exact pyEq_str htarget
    exact ⟨w.history, cross, a, issuedAt, expiresAt, current, bytes, hevents, hboard, hnode, rfl, rfl,
      hallowed, hobserver, harbitrary, hparameters,
      ⟨hloaded, fun action' hmem => hnever action' (hlearns.history.subset hmem)⟩, hverified, hsubject,
      hbytes, hearly, hlate⟩
  · rintro (reason | e) w' -
    · exact ⟨fun _ _ _ _ h => (by cases h), trivial⟩
    · trivial

theorem acceptFresh_spec {w : WorkerWorld F} (hw : Remembers loaded w) {cross : Members F}
    (hboard : OnBoard config w.history cross) :
    (workerMachine env).wp (RunsSigned config loaded) (acceptFresh config cross)
      (fun _ _ => True) (fun _ _ => True) w := by
  have hreject (action : PyStr) (result : Members F) : (workerMachine env).wp (RunsSigned config loaded)
      (rejectTask (requestIdOf cross) action result) (fun _ _ => True) (fun _ _ => True) w :=
    ⟨fun _ _ _ _ h => (by cases h), trivial⟩
  refine acceptFresh_cases (P := fun p => (workerMachine env).wp (RunsSigned config loaded) p
    (fun _ _ => True) (fun _ _ => True) w) hreject ?_ ?_
  · intro parameters _ hobserver
    exact startTask_spec env fun h => absurd hobserver h
  · intro parameters hparameters harbitrary hallowed _
    exact startAuthorized_spec env hw hboard hallowed harbitrary hparameters

theorem acceptControlTask_spec {w : WorkerWorld F} (hw : Remembers loaded w) {task : PyJson F}
    (hboard : ∀ cross, crossHost config task = some cross → OnBoard config w.history cross) :
    (workerMachine env).wp (RunsSigned config loaded) (acceptControlTask config task)
      (fun _ _ => True) (fun _ _ => True) w := by
  rw [acceptControlTask]
  cases hcross : crossHost config task with
  | none => trivial
  | some cross =>
    dsimp only
    by_cases hid : requestIdOf cross = []
    · rw [if_pos hid]
      trivial
    · rw [if_neg hid]
      refine ⟨fun _ _ _ _ h => (by cases h), ?_⟩
      cases hknown : ((workerMachine env).step (.hasRequest (requestIdOf cross)) w).1 with
      | true => trivial
      | false =>
        refine acceptFresh_spec env (hw.step env _) ?_
        obtain ⟨board, tasks, task, hmem, htasks, htask, hcross'⟩ := hboard cross hcross
        exact ⟨board, tasks, task, List.mem_append_left _ hmem, htasks, htask, hcross'⟩

/-- Accepting the tasks of a board, by induction on them. -/
theorem acceptTasks_spec {w : WorkerWorld F} (hw : Remembers loaded w) {board : Members F}
    {tasks rest : List (PyJson F)}
    (hmem : (⟨.latestBoard, some (.dict board)⟩ : Event (WorkerSignature F)) ∈ w.history)
    (htasks : getItem board "tasks" = .list tasks) (hrest : ∀ task ∈ rest, task ∈ tasks)
    (accepted : String) :
    (workerMachine env).wp (RunsSigned config loaded) (acceptTasks config rest accepted)
      (fun _ _ => True) (fun _ _ => True) w := by
  induction rest generalizing w accepted with
  | nil => trivial
  | cons task rest ih =>
    have htask : ∀ cross, crossHost config task = some cross → OnBoard config w.history cross :=
      fun cross hcross => ⟨board, tasks, task, hmem, htasks, hrest task List.mem_cons_self, hcross⟩
    refine Machine.wp_bind.mpr (Machine.wp_mono
      ((acceptControlTask_spec env hw htask).and (learns env loaded _ w)) (fun _ _ h => h.1) ?_
      fun _ _ _ => trivial)
    rintro status w' ⟨-, hlearns⟩
    exact ih (hlearns.remembers hw) (hlearns.history.subset hmem)
      (fun task htask => hrest task (List.mem_cons_of_mem _ htask)) _

theorem pollTasks_spec {w : WorkerWorld F} (hw : Remembers loaded w) {board : Members F}
    {tasks : List (PyJson F)}
    (hmem : (⟨.latestBoard, some (.dict board)⟩ : Event (WorkerSignature F)) ∈ w.history)
    (htasks : getItem board "tasks" = .list tasks) :
    (workerMachine env).wp (RunsSigned config loaded) (pollTasks config tasks)
      (fun _ _ => True) (fun _ _ => True) w := by
  rw [pollTasks]
  split
  · trivial
  · split
    · trivial
    · split
      · trivial
      · exact acceptTasks_spec env hw hmem htasks (fun _ => id) _

/-- **A poll runs nothing unsigned.** -/
theorem pollOnce_spec {w : WorkerWorld F} (hw : Remembers loaded w) :
    (workerMachine env).wp (RunsSigned config loaded) (pollOnce config)
      (fun _ _ => True) (fun _ _ => True) w := by
  rw [pollOnce]
  refine ⟨fun _ _ _ _ h => (by cases h), ?_⟩
  cases ((workerMachine env).step .flushResultOutbox w).1 with
  | false => trivial
  | true =>
    have hflushed := hw.step env .flushResultOutbox
    generalize ((workerMachine env).step .flushResultOutbox w).2 = w₁ at hflushed
    refine ⟨fun _ _ _ _ h => (by cases h), ?_⟩
    have hread := hflushed.step env .latestBoard
    have hmem : (⟨.latestBoard, ((workerMachine env).step .latestBoard w₁).1⟩ :
        Event (WorkerSignature F)) ∈ ((workerMachine env).step .latestBoard w₁).2.history :=
      List.mem_append_right _ List.mem_cons_self
    generalize ((workerMachine env).step .latestBoard w₁).2 = w₂ at hread hmem
    cases hboard : ((workerMachine env).step .latestBoard w₁).1 with
    | none => trivial
    | some board =>
      rw [hboard] at hmem
      change (workerMachine env).wp _ (pollBoard config board) _ _ w₂
      rw [pollBoard.eq_def]
      split
      · trivial
      · split
        · next members =>
          split
          · next tasks htasks => exact pollTasks_spec env hread hmem htasks
          · trivial
        · trivial

theorem runForever_spec {w : WorkerWorld F} (hw : Remembers loaded w) (polls : ℕ) :
    (workerMachine env).wp (RunsSigned config loaded) (runForever config polls)
      (fun _ _ => True) (fun _ _ => True) w := by
  induction polls generalizing w with
  | zero => trivial
  | succ polls ih =>
    refine Machine.wp_bind.mpr (Machine.wp_attempt.mpr (Machine.wp_mono
      ((pollOnce_spec env hw).and (learns env loaded _ w)) (fun _ _ h => h.1) ?_ ?_))
    · rintro _ w' ⟨-, hlearns⟩
      exact ih (hlearns.remembers hw)
    · rintro _ w' ⟨-, hlearns⟩
      exact ih (hlearns.remembers hw)

/-! ### The number of verifications -/

def isVerification : WorkerOp F → Bool
  | .opensslVerify .. => true
  | _ => false

/-- How many authorizations the acceptance of a task may verify. -/
def verificationsOf (config : WorkerConfig) (task : PyJson F) : ℕ :=
  match crossHost config task with
  | none => 0
  | some cross => if actionOf cross ∈ unsignedObserverActions then 0 else 1

theorem verifyExecutionAuthorization_atMost (config : WorkerConfig) (cross : Members F) :
    (verifyExecutionAuthorization config cross).AtMost isVerification 1 := by
  rw [verifyExecutionAuthorization]
  refine Prog.AtMost.bind (m := 0) (n := 1) (.ofExcept _) fun checked => ?_
  obtain ⟨a, issuedAt, expiresAt⟩ := checked
  refine .ask rfl fun current => ?_
  rw [Prog.done_bind]
  refine Prog.AtMost.bind (m := 0) (n := 1) (.ofExcept _) fun _ => .ask rfl fun openssl => ?_
  rw [Prog.done_bind]
  refine Prog.AtMost.bind (m := 0) (n := 1) (.ofExcept _) fun _ => ?_
  refine Prog.AtMost.bind (m := 0) (n := 1) (.ofExcept _) fun bytes => ?_
  exact ⟨0, rfl, fun outcome => Prog.AtMost.ofExcept _⟩

omit [FloatValue F] [WorkerLibrary] in
theorem startTask_atMost (requestId action : PyStr) (parameters : Members F)
    (receipt : Option (Members F)) :
    (startTask requestId action parameters receipt).AtMost isVerification 0 := by
  refine .ask rfl fun claimed => ?_
  cases claimed with
  | false => trivial
  | true =>
    by_cases hobserver : action ∈ unsignedObserverActions
    · simp only [Prog.done_bind, hobserver, if_true]
      exact .ask rfl fun _ => .ask rfl fun _ => .ask rfl fun _ => trivial
    · simp only [Prog.done_bind, hobserver, if_false]
      exact .ask rfl fun _ => trivial

omit [FloatValue F] [WorkerLibrary] in
theorem rejectTask_atMost (requestId action : PyStr) (result : Members F) (n : ℕ) :
    (rejectTask requestId action result).AtMost isVerification n := .ask rfl fun _ => trivial

theorem acceptFresh_atMost (config : WorkerConfig) (cross : Members F) :
    (acceptFresh config cross).AtMost isVerification
      (if actionOf cross ∈ unsignedObserverActions then 0 else 1) := by
  refine acceptFresh_cases (P := Prog.AtMost isVerification _) (fun _ _ => rejectTask_atMost _ _ _ _) ?_ ?_
  · intro parameters _ hobserver
    rw [if_pos hobserver]
    exact startTask_atMost _ _ _ _
  · intro parameters _ _ _ hobserver
    rw [if_neg hobserver]
    refine Prog.AtMost.bind (m := 1) (n := 0)
      (verifyExecutionAuthorization_atMost config cross).attempt fun verdict => ?_
    rcases verdict with (reason | e) | u
    · exact rejectTask_atMost _ _ _ _
    · trivial
    · exact startTask_atMost _ _ _ _

theorem acceptControlTask_atMost (config : WorkerConfig) (task : PyJson F) :
    (acceptControlTask config task).AtMost isVerification (verificationsOf config task) := by
  rw [acceptControlTask, verificationsOf]
  cases crossHost config task with
  | none => trivial
  | some cross =>
    dsimp only
    by_cases hid : requestIdOf cross = []
    · rw [if_pos hid]
      trivial
    · rw [if_neg hid]
      refine .ask rfl fun known => ?_
      cases known with
      | true => trivial
      | false => exact acceptFresh_atMost config cross

theorem acceptTasks_atMost (config : WorkerConfig) (tasks : List (PyJson F)) (accepted : String) :
    (acceptTasks config tasks accepted).AtMost isVerification
      (tasks.map (verificationsOf config)).sum := by
  induction tasks generalizing accepted with
  | nil => trivial
  | cons task tasks ih =>
    rw [List.map_cons, List.sum_cons]
    exact (acceptControlTask_atMost config task).bind fun status => ih _

omit [WorkerLibrary] in
/-- The look at the tasks counts them. -/
theorem prescan_ok {tasks : List (PyJson F)} {requestIds : List PyStr} {count total : ℕ}
    (h : prescan config tasks requestIds count = .ok total) :
    count + (tasks.map (verificationsOf config)).sum = total := by
  induction tasks generalizing requestIds count with
  | nil => exact Except.ok.inj h
  | cons task tasks ih =>
    rw [prescan.eq_def] at h
    rw [List.map_cons, List.sum_cons, verificationsOf]
    cases hcross : crossHost config task with
    | none =>
      simp only [hcross] at h ⊢
      rw [Nat.zero_add]
      exact ih h
    | some cross =>
      simp only [hcross] at h ⊢
      by_cases hknown : requestIdOf cross ∈ requestIds
      · rw [if_pos hknown] at h
        cases h
      · rw [if_neg hknown] at h
        have hrest := ih h
        by_cases hobserver : actionOf cross ∈ unsignedObserverActions
        · rw [if_pos hobserver] at hrest ⊢
          omega
        · rw [if_neg hobserver] at hrest ⊢
          omega

theorem pollOnce_atMost (config : WorkerConfig) :
    (pollOnce config : Prog (WorkerSignature F) PyError String).AtMost isVerification
      maxExecutionAuthorizationsPerPoll := by
  refine .ask rfl fun flushed => ?_
  cases flushed with
  | false => trivial
  | true =>
    refine .ask rfl fun board => ?_
    cases board with
    | none => trivial
    | some board =>
      change (pollBoard config board).AtMost isVerification _
      rw [pollBoard.eq_def]
      split
      · trivial
      · split
        · split
          · rw [pollTasks]
            split
            · trivial
            · split
              · trivial
              · next count hcount =>
                split
                · trivial
                · next hbudget =>
                  have htotal := prescan_ok hcount
                  exact (acceptTasks_atMost config _ _).mono (by omega)
          · trivial
        · trivial

/-! ### The claim -/

/-- **Nothing runs unsigned**, in any environment and over any number of polls; and a poll verifies at
most so many authorizations. -/
theorem signed_execution (config : WorkerConfig) (env : WorkerEnvironment F) (s : WorkerState F)
    (polls : ℕ) :
    (∀ pre post requestId action parameters receipt,
      ((workerMachine env).run (runForever config polls) ⟨s, []⟩).2.history =
        pre ++ ⟨.runAction requestId action parameters receipt, ()⟩ :: post →
      SignedExecution config s.tasks pre requestId action parameters) ∧
    ∀ w : WorkerWorld F,
      ((workerMachine env).run (pollOnce config) w).2.history.countP (fun e => isVerification e.op) ≤
        w.history.countP (fun e => isVerification e.op) + maxExecutionAuthorizationsPerPoll := by
  constructor
  · intro pre post requestId action parameters receipt heq
    have hspec : (workerMachine env).wp (RunsSigned config s.tasks) (runForever config polls)
        (fun _ _ => True) (fun _ _ => True) ⟨s, []⟩ := runForever_spec env (remembers_initial s) polls
    obtain ⟨w', rfl, hsigned⟩ := (workerMachine_records env).event hspec heq (Nat.zero_le _)
    exact hsigned requestId action parameters receipt rfl
  · exact (workerMachine_records env).countP_le (pollOnce_atMost config)

end

/-! ### Example -/

section

/-- Numbers by their texts. -/
@[reducible] def valueTexts : FloatValue (List Char) where
  parseFloat := id
  floatRepr := id
  floatTruthy text := text ≠ ['0', '.', '0']
  floatFinite text := text ≠ ['N', 'a', 'N']
  floatStr text := text.map ofChar
  floatEq x y := x = y
  floatSame x y := x = y
  floatEqInt x n := x = (toString n).toList
  reprStr s := ofString "'" ++ s ++ ofString "'"

def zeros : PyStr := List.replicate 64 (ofChar '0')

/-- All digests are the same, and a date is as late as its text is long. -/
@[reducible] def fixedLibrary : WorkerLibrary where
  sha256Hex _ := zeros
  b64decode _ := some []
  fromIsoFormat s := some s.length

attribute [local instance] valueTexts fixedLibrary

def probeConfig : WorkerConfig := ⟨ofString "node", [zeros]⟩

def textItem (m : String × String) : PyStr × PyJson (List Char) := (ofString m.1, .str (ofString m.2))

def probeSubject : Members (List Char) :=
  [("schema_version", executionAuthorizationSchema), ("target_node", "node"), ("request_id", "r-1"),
    ("issued_at", "Z"), ("expires_at", "1Z")].map textItem ++
  [(ofString "action_digest", .str zeros), (ofString "signing_public_key_sha256", .str zeros)]

def probeTask : PyJson (List Char) :=
  .dict [(ofString "ao2_cross_host", .dict ([("schema_version", controlTaskSchema),
      ("target_node", "node"), ("request_id", "r-1"), ("action", "ao2_doctor")].map textItem ++
    [(ofString "parameters", .dict []), (ofString "execution_authorization", .dict
      ([("signature_algorithm", executionAuthorizationAlgorithm), ("signature_base64", ""),
        ("public_key_pem", "key")].map textItem ++ [(ofString "subject", .dict probeSubject)]))]))]

def probeEnvironment : WorkerEnvironment (List Char) where
  answer _
    | .flushResultOutbox => true
    | .latestBoard => some (.dict [(ofString "tasks", .list [probeTask])])
    | .hasRequest _ => false
    | .claim _ _ => false
    | .resolveOpenssl => true
    | .now => 7
    | .opensslVerify .. => .exited 0
    | .postResult .. => ()
    | .complete .. => ()
    | .runAction .. => ()
    | .statusResult => []
  recordedAt _ := []
  updatedAt _ := []
  completions _ := []

def isRun : WorkerOp (List Char) → Bool
  | .runAction .. => true
  | _ => false

/-- A task that is signed is run. -/
theorem signed_execution_probe : ∃ h requestId action parameters,
    SignedExecution probeConfig ([] : Tasks (List Char)) h requestId action parameters := by
  have hrun : ((workerMachine probeEnvironment).run (runForever probeConfig 1)
      ⟨.fresh, []⟩).2.history.any (fun e => isRun e.op) = true := by decide +kernel
  obtain ⟨⟨op, ans⟩, hmem, hop⟩ := List.any_eq_true.mp hrun
  obtain ⟨pre, post, heq⟩ := List.append_of_mem hmem
  cases op with
  | runAction requestId action parameters receipt =>
    exact ⟨pre, requestId, action, parameters,
      (signed_execution probeConfig probeEnvironment .fresh 1).1 pre post requestId action parameters
        receipt heq⟩
  | _ => cases hop

end

end Ao2
