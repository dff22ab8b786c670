import Ao2.Checks
import Ao2.Interaction.Machine
import Ao2.Python.Values

/-!
# Authorizations

A task of the control plane may carry an authorization: a subject that names the node, the request
and the digest of the task, signed with a key that the worker trusts. `verifyExecutionAuthorization`
checks it and has `openssl` verify the signature. It reads a clock and runs a child process, so it is
a program; what it checks before and in between are functions of the task.

The worker takes digests, base64, dates and `openssl` from elsewhere. They are the class
`WorkerLibrary` and the operations of `WorkerSignature`.
-/

namespace Ao2

open Python Interaction

/-! ### Constants -/

def executionAuthorizationSchema : String := "ao2.cross-host.execution-authorization.v1"

def executionAuthorizationAlgorithm : String := "rsa-pkcs1v15-sha256"

/-- In microseconds. -/
def executionAuthorizationMaxTtl : ℤ := 900 * 1000000

def executionAuthorizationClockSkew : ℤ := 300 * 1000000

/-! ### The interface -/

/-- A dictionary of a JSON text. -/
abbrev Members (F : Type) := List (PyStr × PyJson F)

/-- How a child process that verifies a signature ends. -/
inductive OpensslOutcome where
  | exited (code : ℤ)
  /-- It could not be run, or took too long. -/
  | failed

/-- What the worker asks its environment. The outbox is flushed, or flushing it raises; the latest
board is read, or reading it raises. -/
inductive WorkerOp (F : Type) where
  | flushResultOutbox
  | latestBoard
  | hasRequest (requestId : PyStr)
  | postResult (requestId action : PyStr) (result : Members F)
  | now
  | resolveOpenssl
  | opensslVerify (publicKey signature subject : Bytes)
  | claim (requestId action : PyStr)
  | complete (requestId status : PyStr)
  | statusResult
  /-- Start a thread that runs the action. -/
  | runAction (requestId action : PyStr) (parameters : Members F) (receipt : Option (Members F))

@[reducible] def WorkerOp.Ans {F : Type} : WorkerOp F → Type
  | postResult .. | complete .. | runAction .. => Unit
  | latestBoard => Option (PyJson F)
  | flushResultOutbox | hasRequest _ | claim .. | resolveOpenssl => Bool
  | now => ℤ
  | opensslVerify .. => OpensslOutcome
  | statusResult => Members F

abbrev WorkerSignature (F : Type) : Signature := ⟨WorkerOp F, WorkerOp.Ans⟩

def performOp {F ε : Type} (o : WorkerOp F) : Prog (WorkerSignature F) ε o.Ans :=
  .ask (S := WorkerSignature F) o .done

/-- What the worker uses of other libraries. -/
class WorkerLibrary where
  /-- `hashlib.sha256(data).hexdigest()`. -/
  sha256Hex : Bytes → PyStr
  /-- `base64.b64decode(text, validate=True)`, unless it raises a `ValueError`. -/
  b64decode : PyStr → Option Bytes
  /-- `datetime.fromisoformat(text)` in microseconds, unless it raises a `ValueError`. -/
  fromIsoFormat : PyStr → Option ℤ

export WorkerLibrary (sha256Hex b64decode fromIsoFormat)

structure WorkerConfig where
  nodeId : PyStr
  trustedExecutionKeySha256s : List PyStr

/-! ### Keys and digests -/

/-- White space as `str.strip` sees it. -/
def isStripped (c : CodePoint) : Bool :=
  (9 ≤ c.val ∧ c.val ≤ 13) ∨ (28 ≤ c.val ∧ c.val ≤ 32) ∨ c.val = 0x85 ∨ c.val = 0xa0 ∨
    c.val = 0x1680 ∨ (0x2000 ≤ c.val ∧ c.val ≤ 0x200a) ∨ c.val = 0x2028 ∨ c.val = 0x2029 ∨
    c.val = 0x202f ∨ c.val = 0x205f ∨ c.val = 0x3000

def strip (s : PyStr) : PyStr := ((s.dropWhile isStripped).reverse.dropWhile isStripped).reverse

/-- Every way to end a line as a line feed. -/
def normalizeLines : PyStr → PyStr
  | [] => []
  | [c] => if c = ofChar '\r' then [ofChar '\n'] else [c]
  | c :: d :: s =>
    if c = ofChar '\r' then
      if d = ofChar '\n' then ofChar '\n' :: normalizeLines s else ofChar '\n' :: normalizeLines (d :: s)
    else c :: normalizeLines (d :: s)

/-- `s.encode("ascii")`, unless it raises a `UnicodeEncodeError`. -/
def encodeAscii (s : PyStr) : Option Bytes :=
  s.mapM fun c => if c.val < 128 then some (.ofNat c.val) else none

def canonicalPublicKeyBytes (publicKeyPem : PyStr) : Option Bytes :=
  encodeAscii (strip (normalizeLines publicKeyPem) ++ ofString "\n")

def isHexDigit (c : CodePoint) : Bool :=
  (48 ≤ c.val ∧ c.val ≤ 57) ∨ (97 ≤ c.val ∧ c.val ≤ 102) ∨ (65 ≤ c.val ∧ c.val ≤ 70)

def lowerHex (c : CodePoint) : CodePoint := if 65 ≤ c.val ∧ c.val ≤ 70 then Fin.ofNat _ (c.val + 32) else c

/-- The digests of the keys that are trusted. -/
def trustedKeys (config : WorkerConfig) : List PyStr :=
  (config.trustedExecutionKeySha256s.filter fun value => value.length = 64 ∧ value.all isHexDigit).map
    fun value => value.map lowerHex

variable {F : Type}

/-- The keys of a dictionary are these. -/
def hasKeys (members : Members F) (keys : List String) : Bool :=
  keys.all (fun key => (members.lookup (ofString key)).isSome) &&
    members.all fun m => m.1 ∈ keys.map ofString

def isText (v : PyJson F) (s : PyStr) : Bool :=
  match v with
  | .str t => t = s
  | _ => false

/-! ### Checks -/

/-- How a check fails: with a verdict, or with an exception. -/
inductive Refusal where
  | refused (reason : String)
  | raised (e : PyError)
  deriving DecidableEq

/-- Refuse unless this is so. -/
def require (c : Bool) (reason : String) : Except Refusal Unit :=
  if c then .ok () else .error (.refused reason)

@[simp] theorem require_eq_ok {c : Bool} {reason : String} {u : Unit} :
    require c reason = .ok u ↔ c = true := by
  cases c <;> simp [require]

/-- What is left to verify: the subject, the signature and the key. -/
structure Authorization (F : Type) where
  subject : Members F
  signatureBytes : Bytes
  publicKeyBytes : Bytes

def authorizationKeys : List String :=
  ["subject", "signature_algorithm", "signature_base64", "public_key_pem"]

def subjectKeys : List String :=
  ["schema_version", "action_digest", "target_node", "request_id", "issued_at", "expires_at",
    "signing_public_key_sha256"]

/-- The authorization of a task and its subject. -/
def readAuthorization (cross : Members F) : Except Refusal (Members F × Members F) :=
  match getItem cross "execution_authorization" with
  | .dict authorization =>
    if hasKeys authorization authorizationKeys then
      match getItem authorization "subject" with
      | .dict subject =>
        if hasKeys subject subjectKeys then .ok (authorization, subject)
        else .error (.refused "execution_authorization_malformed")
      | _ => .error (.refused "execution_authorization_malformed")
    else .error (.refused "execution_authorization_malformed")
  | _ => .error (.refused "execution_authorization_missing")

/-- A text of at most that many bytes in UTF-8; encoding it may raise. -/
def readPublicKeyPem : PyJson F → Except Refusal PyStr
  | .str pem =>
    match encodeUtf8 pem with
    | .error e => .error (.raised e)
    | .ok bytes =>
      if bytes.length > 8192 then .error (.refused "execution_authorization_malformed") else .ok pem
  | _ => .error (.refused "execution_authorization_malformed")

def readSignatureBase64 : PyJson F → Except Refusal PyStr
  | .str signature =>
    if signature.length > 4096 then .error (.refused "execution_authorization_malformed")
    else .ok signature
  | _ => .error (.refused "execution_authorization_malformed")

variable [FloatValue F] [WorkerLibrary]

def executionActionDigest (cross : Members F) : Except PyError PyStr :=
  (canonicalJsonBytes (.dict (cross.filter fun m => m.1 ≠ ofString "execution_authorization"))).map
    sha256Hex

omit [FloatValue F] in
/-- The schema, the algorithm and the form of the key and the signature. -/
def readKey (authorization subject : Members F) : Except Refusal (Authorization F) := do
  require (isText (getItem subject "schema_version") (ofString executionAuthorizationSchema))
    "execution_authorization_schema_mismatch"
  require
    (isText (getItem authorization "signature_algorithm") (ofString executionAuthorizationAlgorithm))
    "execution_authorization_algorithm_mismatch"
  let pem ← readPublicKeyPem (getItem authorization "public_key_pem")
  let signature ← readSignatureBase64 (getItem authorization "signature_base64")
  match canonicalPublicKeyBytes pem, b64decode signature with
  | some publicKeyBytes, some signatureBytes => .ok ⟨subject, signatureBytes, publicKeyBytes⟩
  | _, _ => .error (.refused "execution_authorization_malformed")

/-- The subject is about this key, this node, this request and this task. -/
def checkSubject (config : WorkerConfig) (cross : Members F) (a : Authorization F) :
    Except Refusal Unit := do
  require (sha256Hex a.publicKeyBytes ∈ trustedKeys config ∧
      isText (getItem a.subject "signing_public_key_sha256") (sha256Hex a.publicKeyBytes))
    "execution_authorization_untrusted_key"
  require (pyEq (getItem a.subject "target_node") (getItem cross "target_node"))
    "execution_authorization_target_mismatch"
  require (pyEq (getItem a.subject "request_id") (getItem cross "request_id"))
    "execution_authorization_request_mismatch"
  let digest ← (executionActionDigest cross).mapError .raised
  require (isText (getItem a.subject "action_digest") digest)
    "execution_authorization_action_digest_mismatch"

omit [FloatValue F] in
def parseUtcTimestamp : PyJson F → Option ℤ
  | .str s =>
    if s.getLast? = some (ofChar 'Z') then fromIsoFormat (s.dropLast ++ ofString "+00:00") else none
  | _ => none

omit [FloatValue F] in
/-- From when and until when the subject is valid. -/
def readValidity (subject : Members F) : Except Refusal (ℤ × ℤ) :=
  match parseUtcTimestamp (getItem subject "issued_at"),
      parseUtcTimestamp (getItem subject "expires_at") with
  | some issuedAt, some expiresAt =>
    if expiresAt ≤ issuedAt then .error (.refused "execution_authorization_timestamp_invalid")
    else if expiresAt - issuedAt > executionAuthorizationMaxTtl then
      .error (.refused "execution_authorization_ttl_exceeded")
    else .ok (issuedAt, expiresAt)
  | _, _ => .error (.refused "execution_authorization_timestamp_invalid")

omit [FloatValue F] [WorkerLibrary] in
def checkClock (current issuedAt expiresAt : ℤ) : Except Refusal Unit :=
  if issuedAt > current + executionAuthorizationClockSkew then
    .error (.refused "execution_authorization_not_yet_valid")
  else if current > expiresAt then .error (.refused "execution_authorization_expired")
  else .ok ()

/-- Everything that is checked before the clock is read. -/
def checkAuthorization (config : WorkerConfig) (cross : Members F) :
    Except Refusal (Authorization F × ℤ × ℤ) := do
  let (authorization, subject) ← readAuthorization cross
  let a ← readKey authorization subject
  checkSubject config cross a
  let (issuedAt, expiresAt) ← readValidity a.subject
  pure (a, issuedAt, expiresAt)

/-- The bytes that are signed. -/
def subjectBytes (a : Authorization F) : Except Refusal Bytes :=
  (canonicalJsonBytes (.dict a.subject)).mapError .raised

def opensslVerdict : OpensslOutcome → Except Refusal Unit
  | .failed => .error (.refused "execution_authorization_verification_failed")
  | .exited code =>
    if code ≠ 0 then .error (.refused "execution_authorization_signature_invalid") else .ok ()

/-- Verify the authorization of a task; it is verified if the program does not fail. -/
def verifyExecutionAuthorization (config : WorkerConfig) (cross : Members F) :
    Prog (WorkerSignature F) Refusal Unit := do
  let (a, issuedAt, expiresAt) ← .ofExcept (checkAuthorization config cross)
  let current ← performOp .now
  .ofExcept (checkClock current issuedAt expiresAt)
  let openssl ← performOp .resolveOpenssl
  .ofExcept (require openssl "execution_authorization_verifier_unavailable")
  let bytes ← .ofExcept (subjectBytes a)
  let outcome ← performOp (.opensslVerify a.publicKeyBytes a.signatureBytes bytes)
  .ofExcept (opensslVerdict outcome)

/-- The operations of a verification. -/
theorem verifyExecutionAuthorization_only {P : WorkerOp F → Prop} (hnow : P .now)
    (hresolve : P .resolveOpenssl)
    (hverify : ∀ publicKey signature subject, P (.opensslVerify publicKey signature subject))
    (config : WorkerConfig) (cross : Members F) :
    (verifyExecutionAuthorization config cross).Only P := by
  rw [verifyExecutionAuthorization]
  refine (Prog.Only.ofExcept _).bind fun checked => ?_
  obtain ⟨a, issuedAt, expiresAt⟩ := checked
  refine ⟨hnow, fun current => ?_⟩
  refine (Prog.Only.ofExcept _).bind fun _ => ⟨hresolve, fun openssl => ?_⟩
  refine (Prog.Only.ofExcept _).bind fun _ => (Prog.Only.ofExcept _).bind fun bytes => ?_
  exact ⟨hverify _ _ _, fun outcome => Prog.Only.ofExcept _⟩

end Ao2
