import Ao2.Worker.Signed

/-!
# Malformed tasks

An exception that a task gives rise to ends the poll, and the tasks after it are not looked at, in
this poll and in every later one. Three texts of a task are encoded outside of what is caught: its
public key, the task itself when its digest is computed, and the subject when it is written for
`openssl`. A surrogate in one of them, or a number in the second that is not finite, is all that can
raise.
-/

namespace Ao2

open Python Interaction

section

variable {F : Type} [FloatValue F] [WorkerLibrary]

/-- The task without its authorization: what the digest is of. -/
def unsignedPart (cross : Members F) : Members F :=
  cross.filter fun m => m.1 ≠ ofString "execution_authorization"

/-- The authorization has the right form, but there is a surrogate in the public key. -/
def TripsOnKey (cross : Members F) : Prop :=
  ∃ authorization subject pem, readAuthorization cross = .ok (authorization, subject) ∧
    getItem subject "schema_version" = .str (ofString executionAuthorizationSchema) ∧
    getItem authorization "signature_algorithm" = .str (ofString executionAuthorizationAlgorithm) ∧
    getItem authorization "public_key_pem" = .str pem ∧ ¬ Plain pem

/-- The key is trusted and the subject names the node and the request, but the task has no canonical
form. -/
def TripsOnTask (config : WorkerConfig) (cross : Members F) : Prop :=
  ∃ authorization subject a, readAuthorization cross = .ok (authorization, subject) ∧
    readKey authorization subject = .ok a ∧
    sha256Hex a.publicKeyBytes ∈ trustedKeys config ∧
    getItem a.subject "signing_public_key_sha256" = .str (sha256Hex a.publicKeyBytes) ∧
    pyEq (getItem a.subject "target_node") (getItem cross "target_node") = true ∧
    pyEq (getItem a.subject "request_id") (getItem cross "request_id") = true ∧
    ¬ Encodable (.dict (unsignedPart cross))

/-- All is well until the clock is read, but the subject has no canonical form. -/
def TripsOnSubject (config : WorkerConfig) (cross : Members F) : Prop :=
  ∃ a issuedAt expiresAt, checkAuthorization config cross = .ok (a, issuedAt, expiresAt) ∧
    ¬ Encodable (.dict a.subject)

/-- The verification of this object raises, at some time. -/
def Trips (config : WorkerConfig) (cross : Members F) : Prop :=
  TripsOnKey cross ∨ TripsOnTask config cross ∨ TripsOnSubject config cross

/-! ### Which checks raise -/

omit [FloatValue F] [WorkerLibrary] in
theorem require_ne_raised {c : Bool} {reason : String} {e : PyError} :
    require c reason ≠ .error (.raised e) := by
  cases c <;> simp [require]

omit [FloatValue F] [WorkerLibrary] in
theorem readAuthorization_ne_raised {cross : Members F} {e : PyError} :
    readAuthorization cross ≠ .error (.raised e) := by
  rw [readAuthorization]
  split
  · split
    · split
      · split <;> simp
      · simp
    · simp
  · simp

omit [FloatValue F] [WorkerLibrary] in
theorem readPublicKeyPem_raised_iff {v : PyJson F} :
    (∃ e, readPublicKeyPem v = .error (.raised e)) ↔ ∃ pem, v = .str pem ∧ ¬ Plain pem := by
  cases v with
  | str pem =>
    rw [readPublicKeyPem]
    cases hpem : encodeUtf8 pem with
    | error e =>
      have hplain : ¬ Plain pem := by
        rw [← encodeUtf8_isOk_iff, hpem]
        simp
      simp [hplain]
    | ok bytes =>
      have hplain : Plain pem := encodeUtf8_isOk_iff.mp ⟨bytes, hpem⟩
      dsimp only
      split <;> simp [hplain]
  | _ => simp [readPublicKeyPem]

omit [FloatValue F] [WorkerLibrary] in
theorem readSignatureBase64_ne_raised {v : PyJson F} {e : PyError} :
    readSignatureBase64 v ≠ .error (.raised e) := by
  rw [readSignatureBase64.eq_def]
  split
  · split <;> simp
  · simp

omit [FloatValue F] in
theorem readKey_raised {authorization subject : Members F} {e : PyError}
    (h : readKey authorization subject = .error (.raised e)) :
    getItem subject "schema_version" = .str (ofString executionAuthorizationSchema) ∧
    getItem authorization "signature_algorithm" = .str (ofString executionAuthorizationAlgorithm) ∧
    readPublicKeyPem (getItem authorization "public_key_pem") = .error (.raised e) := by
  rw [readKey] at h
  simp only [↓seq_eq_error, bind_eq_error, require_eq_ok, require_ne_raised,
    readSignatureBase64_ne_raised, false_or] at h
  obtain ⟨hschema, halgorithm, h | ⟨pem, -, signature, -, h⟩⟩ := h
  · exact ⟨isText_iff.mp hschema, isText_iff.mp halgorithm, h⟩
  · split at h <;> cases h

omit [WorkerLibrary] in
theorem canonicalJsonBytes_error_iff {v : PyJson F} :
    (∃ e, canonicalJsonBytes v = .error e) ↔ ¬ Encodable v := by
  rw [← canonicalJsonBytes_isOk_iff]
  cases canonicalJsonBytes v <;> simp

theorem executionActionDigest_error_iff {cross : Members F} :
    (∃ e, executionActionDigest cross = .error e) ↔ ¬ Encodable (.dict (unsignedPart cross)) := by
  rw [← canonicalJsonBytes_error_iff, executionActionDigest, unsignedPart]
  cases canonicalJsonBytes (.dict (cross.filter fun m => m.1 ≠ ofString "execution_authorization")) <;>
    simp [Except.map]

theorem checkSubject_raised {config : WorkerConfig} {cross : Members F} {a : Authorization F}
    {e : PyError} (h : checkSubject config cross a = .error (.raised e)) :
    (sha256Hex a.publicKeyBytes ∈ trustedKeys config ∧
      getItem a.subject "signing_public_key_sha256" = .str (sha256Hex a.publicKeyBytes)) ∧
    pyEq (getItem a.subject "target_node") (getItem cross "target_node") = true ∧
    pyEq (getItem a.subject "request_id") (getItem cross "request_id") = true ∧
    executionActionDigest cross = .error e := by
  rw [checkSubject] at h
  simp only [↓seq_eq_error, bind_eq_error, require_eq_ok, require_ne_raised, mapError_eq_error,
    false_or, and_false, exists_false, or_false, isText_iff, decide_eq_true_eq, Refusal.raised.injEq,
    exists_eq_right] at h
  exact h

omit [FloatValue F] in
theorem readValidity_ne_raised {subject : Members F} {e : PyError} :
    readValidity subject ≠ .error (.raised e) := by
  rw [readValidity]
  split
  · split
    · simp
    · split <;> simp
  · simp

/-- The checks before the clock raise on two of the texts. -/
theorem checkAuthorization_raised {config : WorkerConfig} {cross : Members F} {e : PyError}
    (h : checkAuthorization config cross = .error (.raised e)) :
    TripsOnKey cross ∨ TripsOnTask config cross := by
  rw [checkAuthorization] at h
  rcases bind_eq_error.mp h with h | ⟨⟨authorization, subject⟩, hread, h⟩
  · exact absurd h readAuthorization_ne_raised
  rcases bind_eq_error.mp h with h | ⟨a, hkey, h⟩
  · obtain ⟨hschema, halgorithm, hpem⟩ := readKey_raised h
    obtain ⟨pem, htext, hplain⟩ := readPublicKeyPem_raised_iff.mp ⟨e, hpem⟩
    exact .inl ⟨authorization, subject, pem, hread, hschema, halgorithm, htext, hplain⟩
  rcases seq_eq_error.mp h with h | ⟨-, h⟩
  · obtain ⟨⟨htrusted, hown⟩, htarget, hrequest, hdigest⟩ := checkSubject_raised h
    exact .inr ⟨authorization, subject, a, hread, hkey, htrusted, hown, htarget, hrequest,
      executionActionDigest_error_iff.mp ⟨e, hdigest⟩⟩
  rcases bind_eq_error.mp h with h | ⟨_, -, h⟩
  · exact absurd h readValidity_ne_raised
  · cases h

/-- And they do raise on them. -/
theorem checkAuthorization_of_trips {config : WorkerConfig} {cross : Members F}
    (h : TripsOnKey cross ∨ TripsOnTask config cross) :
    ∃ e, checkAuthorization config cross = .error (.raised e) := by
  rcases h with ⟨authorization, subject, pem, hread, hschema, halgorithm, htext, hplain⟩ |
    ⟨authorization, subject, a, hread, hkey, htrusted, hown, htarget, hrequest, hform⟩
  · obtain ⟨e, hpem⟩ := readPublicKeyPem_raised_iff.mpr ⟨pem, htext, hplain⟩
    have hkey : readKey authorization subject = .error (.raised e) := by
      rw [readKey, hschema, halgorithm, hpem, isText_iff.mpr rfl, isText_iff.mpr rfl]
      rfl
    exact ⟨e, bind_eq_error.mpr (.inr ⟨_, hread, bind_eq_error.mpr (.inl hkey)⟩)⟩
  · obtain ⟨e, hdigest⟩ := executionActionDigest_error_iff.mpr hform
    have hsubject : checkSubject config cross a = .error (.raised e) := by
      rw [checkSubject, htarget, hrequest, hdigest, hown,
        decide_eq_true (⟨htrusted, isText_iff.mpr rfl⟩ : _ ∧ _)]
      rfl
    exact ⟨e, bind_eq_error.mpr (.inr ⟨_, hread, bind_eq_error.mpr (.inr ⟨a, hkey,
      seq_eq_error.mpr (.inl hsubject)⟩)⟩)⟩

/-! ### When the verification raises -/

variable (env : WorkerEnvironment F)

omit [FloatValue F] [WorkerLibrary] in
theorem checkClock_ne_raised {current issuedAt expiresAt : ℤ} {e : PyError} :
    checkClock current issuedAt expiresAt ≠ .error (.raised e) := by
  rw [checkClock]
  split
  · simp
  · split <;> simp

omit [FloatValue F] [WorkerLibrary] in
theorem opensslVerdict_ne_raised {outcome : OpensslOutcome} {e : PyError} :
    opensslVerdict outcome ≠ .error (.raised e) := by
  cases outcome with
  | failed => simp [opensslVerdict]
  | exited code =>
    rw [opensslVerdict]
    split <;> simp

/-- **What the verification raises on.** -/
theorem verifyExecutionAuthorization_error_spec (config : WorkerConfig) (cross : Members F)
    (w : WorkerWorld F) :
    (workerMachine env).wp (fun _ _ => True) (verifyExecutionAuthorization config cross)
      (fun _ _ => True) (fun refusal _ => ∀ e, refusal = .raised e → Trips config cross) w := by
  rw [verifyExecutionAuthorization]
  refine Machine.wp_ofExcept_bind (fun checked hchecked => ?_) ?_
  · obtain ⟨a, issuedAt, expiresAt⟩ := checked
    refine ⟨trivial, Machine.wp_ofExcept_bind (fun _ _ => ⟨trivial, ?_⟩) ?_⟩
    · refine Machine.wp_ofExcept_bind (fun _ _ => ?_) ?_
      · refine Machine.wp_ofExcept_bind (fun bytes _ => ⟨trivial, ?_⟩) ?_
        · refine Machine.wp_ofExcept (fun _ _ => trivial) ?_
          rintro _ herror e rfl
          exact absurd herror opensslVerdict_ne_raised
        · rintro _ herror e rfl
          obtain ⟨e', herror', -⟩ := mapError_eq_error.mp herror
          exact .inr (.inr ⟨a, issuedAt, expiresAt, hchecked,
            canonicalJsonBytes_error_iff.mp ⟨e', herror'⟩⟩)
      · rintro _ herror e rfl
        exact absurd herror require_ne_raised
    · rintro _ herror e rfl
      exact absurd herror checkClock_ne_raised
  · rintro _ herror e rfl
    exact (checkAuthorization_raised herror).imp_right .inl

/-- A quiet environment with that board and that time, in which `openssl` can be found. -/
def quietEnvironment (board : PyJson F) (current : ℤ) : WorkerEnvironment F where
  answer _
    | .flushResultOutbox => true
    | .latestBoard => some board
    | .hasRequest _ => false
    | .claim _ _ => false
    | .resolveOpenssl => true
    | .now => current
    | .opensslVerify .. => .failed
    | .postResult .. => ()
    | .complete .. => ()
    | .runAction .. => ()
    | .statusResult => []
  recordedAt _ := []
  updatedAt _ := []
  completions _ := []

/-- **It raises on all of them**, at some time. -/
theorem verifyExecutionAuthorization_raises {config : WorkerConfig} {cross : Members F}
    (h : Trips config cross) (board : PyJson F) :
    ∃ current, ∀ w : WorkerWorld F, (workerMachine (quietEnvironment board current)).wp (fun _ _ => True)
      (verifyExecutionAuthorization config cross) (fun _ _ => False)
      (fun refusal _ => ∃ e, refusal = .raised e) w := by
  rw [Trips, ← or_assoc] at h
  rcases h with h | ⟨a, issuedAt, expiresAt, hchecked, hform⟩
  · obtain ⟨e, herror⟩ := checkAuthorization_of_trips h
    refine ⟨0, fun w => ?_⟩
    rw [verifyExecutionAuthorization, herror]
    exact ⟨e, rfl⟩
  · refine ⟨issuedAt, fun w => ?_⟩
    have hlifetime := (checkAuthorization_ok hchecked).lifetime
    have hclock : checkClock issuedAt issuedAt expiresAt = .ok () := by
      have hskew : (0 : ℤ) ≤ executionAuthorizationClockSkew := by decide
      rw [checkClock, if_neg (by omega), if_neg (by omega)]
    obtain ⟨e, herror⟩ := canonicalJsonBytes_error_iff.mpr hform
    rw [verifyExecutionAuthorization, hchecked]
    refine ⟨trivial, ?_⟩
    change (workerMachine (quietEnvironment board issuedAt)).wp _
      ((Prog.ofExcept (checkClock issuedAt issuedAt expiresAt)).bind _) _ _ _
    rw [hclock]
    refine ⟨trivial, ?_⟩
    change (workerMachine (quietEnvironment board issuedAt)).wp _
      ((Prog.ofExcept (subjectBytes a)).bind _) _ _ _
    rw [subjectBytes, herror]
    exact ⟨e, rfl⟩

/-- The verification of an object gives a verdict at every time exactly if the object does not trip
it. -/
theorem verifyExecutionAuthorization_raises_iff (config : WorkerConfig) (cross : Members F) :
    (∀ (env : WorkerEnvironment F) (w : WorkerWorld F) (e : PyError),
      ((workerMachine env).run (verifyExecutionAuthorization config cross) w).1 ≠ .error (.raised e)) ↔
    ¬ Trips config cross := by
  constructor
  · intro h htrips
    obtain ⟨current, hraises⟩ := verifyExecutionAuthorization_raises htrips .null
    have hrun := (hraises ⟨.fresh, []⟩).run
    cases hend : (workerMachine (quietEnvironment .null current)).run
        (verifyExecutionAuthorization config cross) ⟨.fresh, []⟩ with
    | mk ended w' =>
      rw [hend] at hrun
      cases ended with
      | ok u => exact hrun
      | error refusal =>
        obtain ⟨e, rfl⟩ := hrun
        exact h _ ⟨.fresh, []⟩ e (by rw [hend])
  · intro h env w e hraised
    have hrun := (verifyExecutionAuthorization_error_spec env config cross w).run
    cases hend : (workerMachine env).run (verifyExecutionAuthorization config cross) w with
    | mk ended w' =>
      rw [hend] at hrun hraised
      obtain rfl : ended = .error (.raised e) := hraised
      exact h (hrun e rfl)

/-! ### Accepting tasks that do not trip -/

/-- The acceptance of the task comes to a verification that raises. -/
def TaskTrips (config : WorkerConfig) (s : WorkerState F) (task : PyJson F) : Prop :=
  ∃ cross, crossHost config task = some cross ∧ requestIdOf cross ≠ [] ∧
    s.hasRequest (requestIdOf cross) = false ∧
    truthy (getItem cross "arbitrary_command_execution") = false ∧
    actionOf cross ∈ allowlistedActions ∧ actionOf cross ∉ unsignedObserverActions ∧
    (∃ parameters, parametersOf cross = some parameters) ∧ Trips config cross

/-- Each task is accepted in its turn, and its acceptance returns. -/
def HandedOver (config : WorkerConfig) : List (PyJson F) → WorkerWorld F → WorkerWorld F → Prop
  | [], w, w' => w' = w
  | task :: tasks, w, w' => ∃ status w₁,
    (workerMachine env).run (acceptControlTask config task) w = (.ok status, w₁) ∧
      HandedOver config tasks w₁ w'

omit [FloatValue F] [WorkerLibrary] in
theorem startTask_total (requestId action : PyStr) (parameters : Members F)
    (receipt : Option (Members F)) : (startTask requestId action parameters receipt).Total := by
  intro claimed
  cases claimed with
  | false => trivial
  | true =>
    by_cases hobserver : action ∈ unsignedObserverActions
    · simp only [Prog.done_bind, hobserver, if_true]
      exact fun _ _ _ => trivial
    · simp only [Prog.done_bind, hobserver, if_false]
      exact fun _ => trivial

omit [FloatValue F] [WorkerLibrary] in
/-- A program without a way to fail ends without an error. -/
theorem wp_of_total {W : Type} {M : Machine (WorkerSignature F) W} {ε α : Type}
    {p : Prog (WorkerSignature F) ε α} (hp : p.Total) (w : W) :
    M.wp (fun _ _ => True) p (fun _ _ => True) (fun _ _ => False) w := by
  induction p generalizing w with
  | done a => trivial
  | fail e => exact hp.elim
  | ask o k ih => exact ⟨trivial, ih _ (hp _) _⟩

theorem acceptFresh_returns {config : WorkerConfig} {cross : Members F}
    (h : truthy (getItem cross "arbitrary_command_execution") = false →
      actionOf cross ∈ allowlistedActions → actionOf cross ∉ unsignedObserverActions →
      (∃ parameters, parametersOf cross = some parameters) → ¬ Trips config cross)
    (w : WorkerWorld F) :
    (workerMachine env).wp (fun _ _ => True) (acceptFresh config cross) (fun _ _ => True)
      (fun _ _ => False) w := by
  rw [acceptFresh]
  by_cases hrejected : truthy (getItem cross "arbitrary_command_execution") = true ∨
      actionOf cross ∉ allowlistedActions
  · rw [if_pos hrejected]
    exact ⟨trivial, trivial⟩
  · rw [if_neg hrejected]
    obtain ⟨harbitrary, hallowed⟩ := not_or.mp hrejected
    cases hparameters : parametersOf cross with
    | none => exact ⟨trivial, trivial⟩
    | some parameters =>
      dsimp only
      by_cases hobserver : actionOf cross ∈ unsignedObserverActions
      · rw [if_pos hobserver]
        exact wp_of_total (startTask_total _ _ _ _) w
      · rw [if_neg hobserver, startAuthorized]
        have htrips := h (Bool.not_eq_true _ ▸ harbitrary) (not_not.mp hallowed) hobserver
          ⟨parameters, hparameters⟩
        refine Machine.wp_bind.mpr (Machine.wp_attempt.mpr (Machine.wp_mono
          (verifyExecutionAuthorization_error_spec env config cross w) (fun _ _ => id) ?_ ?_))
        · exact fun _ w' _ => wp_of_total (startTask_total _ _ _ _) w'
        · rintro (reason | e) w' hraised
          · exact ⟨trivial, trivial⟩
          · exact absurd (hraised e rfl) htrips

theorem acceptControlTask_returns {config : WorkerConfig} {s : WorkerState F} {task : PyJson F}
    (h : ¬ TaskTrips config s task) {w : WorkerWorld F} (hw : Remembers s.tasks w) :
    (workerMachine env).wp (fun _ _ => True) (acceptControlTask config task) (fun _ _ => True)
      (fun _ _ => False) w := by
  rw [acceptControlTask]
  cases hcross : crossHost config task with
  | none => trivial
  | some cross =>
    dsimp only
    by_cases hid : requestIdOf cross = []
    · rw [if_pos hid]
      trivial
    · rw [if_neg hid]
      refine ⟨trivial, ?_⟩
      cases hknown : ((workerMachine env).step (.hasRequest (requestIdOf cross)) w).1 with
      | true => trivial
      | false =>
        refine acceptFresh_returns env (fun harbitrary hallowed hobserver hparameters htrips => ?_) _
        refine h ⟨cross, hcross, hid, ?_, harbitrary, hallowed, hobserver, hparameters, htrips⟩
        rw [← Bool.not_eq_true]
        intro hrequest
        have hsettled := hasRequest_settled env (hw.loaded _ hrequest)
        change (w.settled env).hasRequest (requestIdOf cross) = false at hknown
        rw [hsettled] at hknown
        cases hknown

/-- The tasks are handed over one after the other, by induction on them. -/
theorem acceptTasks_returns {config : WorkerConfig} {s : WorkerState F} {tasks : List (PyJson F)}
    (h : ∀ task ∈ tasks, ¬ TaskTrips config s task) {w : WorkerWorld F} (hw : Remembers s.tasks w)
    (accepted : String) :
    ∃ status w', (workerMachine env).run (acceptTasks config tasks accepted) w = (.ok status, w') ∧
      HandedOver env config tasks w w' := by
  induction tasks generalizing w accepted with
  | nil => exact ⟨accepted, w, rfl, rfl⟩
  | cons task tasks ih =>
    have hrun := ((acceptControlTask_returns env (h task List.mem_cons_self) hw).and
      (learns env s.tasks _ w)).run
    cases hend : (workerMachine env).run (acceptControlTask config task) w with
    | mk ended w₁ =>
      rw [hend] at hrun
      cases ended with
      | error e => exact hrun.1.elim
      | ok status =>
        obtain ⟨status', w', hrest, hhanded⟩ := ih (fun task htask => h task (List.mem_cons_of_mem _ htask))
          (hrun.2.remembers hw) (if status = "ignored" then accepted else status)
        refine ⟨status', w', ?_, status, w₁, hend, hhanded⟩
        rw [acceptTasks, Prog.bind_eq, Machine.run_bind, hend]
        exact hrest

/-! ### Polling a board -/

/-- The outbox can be flushed, and the latest board is this one. -/
structure Working (board : PyJson F) : Prop where
  flush : ∀ h, env.answer h .flushResultOutbox = true
  board : ∀ h, env.answer h .latestBoard = some board

/-- The world after the board was read. -/
def boardRead (w : WorkerWorld F) : WorkerWorld F :=
  ((workerMachine env).step .latestBoard ((workerMachine env).step .flushResultOutbox w).2).2

/-- A board within the limits: its tasks, and how many of them need an authorization. -/
structure WithinLimits (config : WorkerConfig) (board : Members F) (tasks : List (PyJson F)) : Prop where
  tasks_eq : getItem board "tasks" = .list tasks
  tasks_le : tasks.length ≤ maxControlTasksPerBoard
  scan : ∃ count, prescan config tasks [] 0 = .ok count ∧ count ≤ maxExecutionAuthorizationsPerPoll

/-- A poll of such a board accepts its tasks. -/
theorem run_pollOnce {config : WorkerConfig} {board : Members F} {tasks : List (PyJson F)}
    (hlimits : WithinLimits config board tasks) (henv : Working env (.dict board)) (w : WorkerWorld F) :
    (workerMachine env).run (pollOnce config) w =
      (workerMachine env).run (acceptTasks config tasks "no_control_task") (boardRead env w) := by
  obtain ⟨htasks, hle, count, hscan, hcount⟩ := hlimits
  have hflush : ((workerMachine env).step .flushResultOutbox w).1 = true := henv.flush _
  have hread : ((workerMachine env).step .latestBoard
      ((workerMachine env).step .flushResultOutbox w).2).1 = some (.dict board) := henv.board _
  have htruthy : truthy (.dict board : PyJson F) = true := by
    cases board with
    | nil => cases htasks
    | cons m board => rfl
  have hboard : pollBoard config (.dict board) = acceptTasks config tasks "no_control_task" := by
    rw [pollBoard.eq_def, htruthy]
    simp only [Bool.not_true, Bool.false_eq_true, if_false, htasks]
    rw [pollTasks, if_neg (not_lt.mpr hle), hscan]
    dsimp only
    rw [if_neg (not_lt.mpr hcount)]
  rw [pollOnce, Prog.bind_eq, performOp, Prog.ask_bind, Machine.run_ask, hflush]
  change (workerMachine env).run ((performOp .latestBoard).bind _) _ = _
  rw [performOp, Prog.ask_bind, Machine.run_ask, hread]
  change (workerMachine env).run (pollBoard config (.dict board)) _ = _
  rw [hboard, boardRead]

/-! ### A task that trips -/

/-- Operations that put no such request into the ledger. -/
def Spares (requestId : PyStr) (o : WorkerOp F) : Prop :=
  (∀ action, o ≠ .claim requestId action) ∧ ∀ status, o ≠ .complete requestId status

theorem verifyExecutionAuthorization_spares (config : WorkerConfig) (cross : Members F)
    (requestId : PyStr) : (verifyExecutionAuthorization config cross).Only (Spares requestId) :=
  verifyExecutionAuthorization_only (by simp [Spares]) (by simp [Spares]) (by simp [Spares]) config cross

omit [FloatValue F] [WorkerLibrary] in
theorem startTask_spares {requestId id : PyStr} (hne : id ≠ requestId) (action : PyStr)
    (parameters : Members F) (receipt : Option (Members F)) :
    (startTask id action parameters receipt).Only (Spares requestId) := by
  refine ⟨by simp [Spares, hne], fun claimed => ?_⟩
  cases claimed with
  | false => trivial
  | true =>
    by_cases hobserver : action ∈ unsignedObserverActions
    · simp only [Prog.done_bind, hobserver, if_true]
      exact ⟨by simp [Spares], fun _ => ⟨by simp [Spares], fun _ => ⟨by simp [Spares, hne], fun _ =>
        trivial⟩⟩⟩
    · simp only [Prog.done_bind, hobserver, if_false]
      exact ⟨by simp [Spares], fun _ => trivial⟩

omit [FloatValue F] [WorkerLibrary] in
theorem rejectTask_spares (requestId id action : PyStr) (result : Members F) :
    (rejectTask id action result).Only (Spares requestId) :=
  ⟨by simp [Spares], fun _ => trivial⟩

theorem acceptFresh_spares {config : WorkerConfig} {cross : Members F} {requestId : PyStr}
    (hne : requestIdOf cross ≠ requestId) : (acceptFresh config cross).Only (Spares requestId) := by
  rw [acceptFresh]
  refine Prog.Only.ite (rejectTask_spares _ _ _ _) ?_
  cases parametersOf cross with
  | none => exact rejectTask_spares _ _ _ _
  | some parameters =>
    refine Prog.Only.ite (startTask_spares hne _ _ _) ?_
    rw [startAuthorized]
    refine (verifyExecutionAuthorization_spares config cross requestId).attempt.bind fun verdict => ?_
    rcases verdict with (reason | e) | u
    · exact rejectTask_spares _ _ _ _
    · trivial
    · exact startTask_spares hne _ _ _

/-- A task about another request leaves this one alone. -/
theorem acceptControlTask_spares {config : WorkerConfig} {task : PyJson F} {requestId : PyStr}
    (hne : ∀ cross, crossHost config task = some cross → requestIdOf cross ≠ requestId) :
    (acceptControlTask config task).Only (Spares requestId) := by
  rw [acceptControlTask]
  cases hcross : crossHost config task with
  | none => trivial
  | some cross =>
    refine Prog.Only.ite trivial ⟨by simp [Spares], fun known => ?_⟩
    cases known with
    | true => trivial
    | false => exact acceptFresh_spares (hne cross hcross)

omit [WorkerLibrary] in
/-- The requests that the look at the tasks lets through differ. -/
theorem prescan_distinct {config : WorkerConfig} {before after : List (PyJson F)} {task : PyJson F}
    {cross : Members F} (hcross : crossHost config task = some cross) (hid : requestIdOf cross ≠ [])
    {requestIds : List PyStr} {count total : ℕ}
    (h : prescan config (before ++ task :: after) requestIds count = .ok total) :
    requestIdOf cross ∉ requestIds ∧ ∀ task' ∈ before, ∀ cross',
      crossHost config task' = some cross' → requestIdOf cross' ≠ requestIdOf cross := by
  induction before generalizing requestIds count with
  | nil =>
    rw [List.nil_append, prescan.eq_def] at h
    simp only [hcross] at h
    refine ⟨fun hmem => ?_, List.forall_mem_nil _⟩
    rw [if_pos hmem] at h
    cases h
  | cons task' before ih =>
    rw [List.cons_append, prescan.eq_def] at h
    cases hcross' : crossHost config task' with
    | none =>
      simp only [hcross'] at h
      obtain ⟨hnot, hbefore⟩ := ih h
      refine ⟨hnot, List.forall_mem_cons.mpr ⟨fun cross' heq => ?_, hbefore⟩⟩
      rw [hcross'] at heq
      cases heq
    | some cross' =>
      simp only [hcross'] at h
      by_cases hknown : requestIdOf cross' ∈ requestIds
      · rw [if_pos hknown] at h
        cases h
      · rw [if_neg hknown] at h
        obtain ⟨hnot, hbefore⟩ := ih h
        by_cases hempty : requestIdOf cross' = []
        · rw [if_pos hempty] at hnot
          refine ⟨hnot, List.forall_mem_cons.mpr ⟨fun cross'' heq => ?_, hbefore⟩⟩
          rw [← Option.some.inj (hcross'.symm.trans heq), hempty]
          exact Ne.symm hid
        · rw [if_neg hempty, List.mem_cons, not_or] at hnot
          refine ⟨hnot.2, List.forall_mem_cons.mpr ⟨fun cross'' heq => ?_, hbefore⟩⟩
          rw [← Option.some.inj (hcross'.symm.trans heq)]
          exact Ne.symm hnot.1

section

variable {board : PyJson F} {current : ℤ}

omit [WorkerLibrary] in
/-- A request that an operation spares does not come into the ledger by it. -/
theorem free_of_spares {requestId : PyStr} (o : WorkerOp F) (w : WorkerWorld F)
    (ho : Spares requestId o) (hfree : w.state.hasRequest requestId = false) :
    ((workerMachine (quietEnvironment board current)).step o w).2.state.hasRequest requestId = false := by
  change (answerOp _ w.history w.state o).2.hasRequest requestId = false
  cases o with
  | claim id action =>
    have hne : requestId ≠ id := by
      rintro rfl
      exact ho.1 action rfl
    rw [answerOp, hasRequest_claim, hfree, decide_eq_false hne, Bool.or_false]
  | complete id status =>
    have hne : requestId ≠ id := by
      rintro rfl
      exact ho.2 status rfl
    rw [answerOp, hasRequest_complete, hfree, decide_eq_false hne, Bool.or_false]
  | _ => exact hfree

/-- The acceptance of a task that trips raises. -/
theorem acceptControlTask_raises {config : WorkerConfig} {task : PyJson F} {cross : Members F}
    (hcross : crossHost config task = some cross) (hid : requestIdOf cross ≠ [])
    (harbitrary : truthy (getItem cross "arbitrary_command_execution") = false)
    (hallowed : actionOf cross ∈ allowlistedActions)
    (hobserver : actionOf cross ∉ unsignedObserverActions)
    (hparameters : ∃ parameters, parametersOf cross = some parameters)
    (hraises : ∀ w : WorkerWorld F, (workerMachine (quietEnvironment board current)).wp
      (fun _ _ => True) (verifyExecutionAuthorization config cross) (fun _ _ => False)
      (fun refusal _ => ∃ e, refusal = .raised e) w)
    {w : WorkerWorld F} (hfree : w.state.hasRequest (requestIdOf cross) = false) :
    (workerMachine (quietEnvironment board current)).wp (fun _ _ => True)
      (acceptControlTask config task) (fun _ _ => False) (fun _ _ => True) w := by
  obtain ⟨parameters, hparameters⟩ := hparameters
  have hrejected : ¬ (truthy (getItem cross "arbitrary_command_execution") = true ∨
      actionOf cross ∉ allowlistedActions) := by
    rw [harbitrary]
    simpa using hallowed
  have hknown : ((workerMachine (quietEnvironment board current)).step
      (.hasRequest (requestIdOf cross)) w).1 = false := hfree
  rw [acceptControlTask, hcross]
  dsimp only
  rw [if_neg hid]
  refine ⟨trivial, ?_⟩
  rw [hknown]
  change (workerMachine (quietEnvironment board current)).wp _ (acceptFresh config cross) _ _ _
  rw [acceptFresh, if_neg hrejected, hparameters]
  dsimp only
  rw [if_neg hobserver, startAuthorized]
  refine Machine.wp_bind.mpr (Machine.wp_attempt.mpr (Machine.wp_mono (hraises _) (fun _ _ => id)
    (fun _ _ h => h.elim) ?_))
  rintro _ w' ⟨e, rfl⟩
  trivial

/-- **A board with a task that trips is not worked through**, by induction on the tasks before it. -/
theorem acceptTasks_raises {config : WorkerConfig} {before after : List (PyJson F)} {task : PyJson F}
    {requestId : PyStr}
    (hbefore : ∀ task' ∈ before, ∀ cross', crossHost config task' = some cross' →
      requestIdOf cross' ≠ requestId)
    (hraises : ∀ w : WorkerWorld F, w.state.hasRequest requestId = false →
      (workerMachine (quietEnvironment board current)).wp (fun _ _ => True)
        (acceptControlTask config task) (fun _ _ => False) (fun _ _ => True) w)
    {w : WorkerWorld F} (hfree : w.state.hasRequest requestId = false) (accepted : String) :
    (workerMachine (quietEnvironment board current)).wp (fun _ _ => True)
      (acceptTasks config (before ++ task :: after) accepted) (fun _ _ => False) (fun _ _ => True) w := by
  induction before generalizing w accepted with
  | nil =>
    exact Machine.wp_bind.mpr (Machine.wp_mono (hraises w hfree) (fun _ _ => id)
      (fun _ _ h => h.elim) fun _ _ => id)
  | cons task' before ih =>
    have hspares := Machine.wp_of_only (M := workerMachine (quietEnvironment board current))
      (R := fun w w' => w.state.hasRequest requestId = false → w'.state.hasRequest requestId = false)
      (fun _ h => h) (fun h h' => h' ∘ h) (fun o w ho => free_of_spares o w ho)
      (acceptControlTask_spares (hbefore task' List.mem_cons_self)) w
    refine Machine.wp_bind.mpr (Machine.wp_mono hspares (fun _ _ _ => trivial) ?_ fun _ _ _ => trivial)
    intro status w' hkept
    exact ih (fun task htask => hbefore task (List.mem_cons_of_mem _ htask)) (hkept hfree) _

end

/-! ### The claim -/

/-- **Which boards a poll works through.** The verification of a cross-host object always gives a
verdict exactly if the object does not trip it. And a poll of a board within the limits returns and
hands over every task, in every environment, exactly if no task trips. -/
theorem malformed_tasks (config : WorkerConfig) :
    (∀ cross : Members F,
      (∀ (env : WorkerEnvironment F) (w : WorkerWorld F) (e : PyError),
        ((workerMachine env).run (verifyExecutionAuthorization config cross) w).1 ≠ .error (.raised e)) ↔
      ¬ Trips config cross) ∧
    ∀ (s : WorkerState F) (board : Members F) (tasks : List (PyJson F)),
      WithinLimits config board tasks →
      ((∀ env : WorkerEnvironment F, Working env (.dict board) → ∃ status w',
          (workerMachine env).run (pollOnce config) ⟨s, []⟩ = (.ok status, w') ∧
          HandedOver env config tasks (boardRead env ⟨s, []⟩) w') ↔
        ∀ task ∈ tasks, ¬ TaskTrips config s task) := by
  refine ⟨verifyExecutionAuthorization_raises_iff config, fun s board tasks hlimits => ⟨?_, ?_⟩⟩
  · rintro hreturns task htask ⟨cross, hcross, hid, hfree, harbitrary, hallowed, hobserver,
      hparameters, htrips⟩
    obtain ⟨current, hraises⟩ := verifyExecutionAuthorization_raises htrips (.dict board)
    obtain ⟨status, w', hrun, -⟩ :=
      hreturns (quietEnvironment (.dict board) current) ⟨fun _ => rfl, fun _ => rfl⟩
    rw [run_pollOnce _ hlimits ⟨fun _ => rfl, fun _ => rfl⟩] at hrun
    obtain ⟨before, after, rfl⟩ := List.append_of_mem htask
    obtain ⟨count, hscan, -⟩ := hlimits.scan
    have hbefore := (prescan_distinct hcross hid hscan).2
    have hspec : (workerMachine (quietEnvironment (.dict board) current)).wp (fun _ _ => True)
        (acceptTasks config (before ++ task :: after) "no_control_task") (fun _ _ => False)
        (fun _ _ => True) (boardRead (quietEnvironment (.dict board) current) ⟨s, []⟩) :=
      acceptTasks_raises hbefore (fun w hw => acceptControlTask_raises hcross hid harbitrary hallowed
        hobserver hparameters hraises hw) hfree _
    have hend := hspec.run
    rw [hrun] at hend
    exact hend
  · intro hnone env henv
    obtain ⟨status, w', hrun, hhanded⟩ := acceptTasks_returns env hnone
      (((remembers_initial s).step env .flushResultOutbox).step env .latestBoard) "no_control_task"
    exact ⟨status, w', by rw [run_pollOnce env hlimits henv]; exact hrun, hhanded⟩

end

/-! ### A surrogate in a public key -/

section

attribute [local instance] valueTexts fixedLibrary

/-- A task with an authorization whose key is a surrogate. -/
def tornKeyTask : PyJson (List Char) :=
  .dict [(ofString "ao2_cross_host", .dict ([("schema_version", controlTaskSchema),
      ("target_node", "node"), ("request_id", "r-1"), ("action", "ao2_doctor")].map textItem ++
    [(ofString "parameters", .dict []), (ofString "execution_authorization", .dict
      ([("signature_algorithm", executionAuthorizationAlgorithm), ("signature_base64", "")].map
        textItem ++
        [(ofString "public_key_pem", .str [0xd800]), (ofString "subject", .dict probeSubject)]))]))]

def statusTask : PyJson (List Char) :=
  .dict [(ofString "ao2_cross_host", .dict ([("schema_version", controlTaskSchema),
      ("target_node", "node"), ("request_id", "r-2"), ("action", "status")].map textItem ++
    [(ofString "parameters", .dict [])]))]

def tornKeyBoard : Members (List Char) := [(ofString "tasks", .list [tornKeyTask, statusTask])]

/-- A poll does not come to the second task. -/
theorem malformed_tasks_tornKey :
    ¬ ∀ (config : WorkerConfig) (s : WorkerState (List Char)) (board : Members (List Char))
      (tasks : List (PyJson (List Char))) (env : WorkerEnvironment (List Char)),
      WithinLimits config board tasks → Working env (.dict board) → ∃ status w',
        (workerMachine env).run (pollOnce config) ⟨s, []⟩ = (.ok status, w') ∧
        HandedOver env config tasks (boardRead env ⟨s, []⟩) w' := by
  intro hall
  have hlimits : WithinLimits probeConfig tornKeyBoard [tornKeyTask, statusTask] :=
    ⟨rfl, by decide, 1, by rfl, by decide⟩
  obtain ⟨status, w', hrun, -⟩ := hall probeConfig .fresh tornKeyBoard [tornKeyTask, statusTask]
    (quietEnvironment (.dict tornKeyBoard) 0) hlimits ⟨fun _ => rfl, fun _ => rfl⟩
  have hraised : ((workerMachine (quietEnvironment (.dict tornKeyBoard) 0)).run (pollOnce probeConfig)
      ⟨.fresh, []⟩).1.isOk = false := by decide +kernel
  rw [hrun] at hraised
  cases hraised

end

end Ao2
