import Ao2.Python.Canonical
import Ao2.Worker.Malformed
import Mathlib.Data.List.DropRight
import Mathlib.Data.List.Infix

/-!
# Authorizing a task

The control plane authorizes a task by a subject that names the node, the request and the digest of
the task, signed with its key. The names are written as texts, whatever they are; the verification
compares them as they are.

The signer takes `openssl`, base64 and dates from elsewhere, as the worker does. They are the class
`SigningLibrary`.

The signer and the worker go different ways to the same bytes: the key is made canonical, written
and made canonical again, the times are written and read, and the subject is encoded twice. An
object that carries an authorization as it was made is verified if the subject is about it, in its
time.
-/

namespace Ao2

open Python Interaction

/-- What the signer uses of other libraries, and what `openssl` does. -/
class SigningLibrary extends WorkerLibrary where
  b64encode : Bytes → PyStr
  /-- An instant in UTC in the ISO format, without its offset, unless it is out of range. -/
  isoFormat : ℤ → Option PyStr
  /-- `openssl pkey -pubout` of a private key, unless it fails. -/
  derivePublicKey : Bytes → Option PyStr
  /-- `openssl dgst -sha256 -sign` with a private key, unless it fails. -/
  signSha256 : (privateKey subject : Bytes) → Option Bytes
  /-- `openssl dgst -sha256 -verify` succeeds. -/
  verifySha256 : (publicKey signature subject : Bytes) → Bool

export SigningLibrary (b64encode isoFormat derivePublicKey signSha256 verifySha256)

/-- The files and the times of an authorization. -/
structure AuthorizeOptions where
  privateKey : Bytes
  publicKeyPem : PyStr
  ttlSeconds : ℤ
  /-- In microseconds. -/
  issuedAt : ℤ
  opensslFound : Bool

def AuthorizeOptions.expiresAt (options : AuthorizeOptions) : ℤ :=
  options.issuedAt + options.ttlSeconds * 1000000

inductive AuthorizeError where
  | valueError (message : String)
  | runtimeError (message : String)
  | overflowError
  | raised (e : PyError)

/-- Raise this if it is so. -/
def raiseIf (c : Bool) (e : AuthorizeError) : Except AuthorizeError Unit :=
  if c then .error e else .ok ()

/-- A value that has to be there. -/
def orRaise {α : Type} (value : Option α) (e : AuthorizeError) : Except AuthorizeError α :=
  match value with
  | some a => .ok a
  | none => .error e

@[simp] theorem raiseIf_eq_ok {c : Bool} {e : AuthorizeError} {u : Unit} :
    raiseIf c e = .ok u ↔ c = false := by
  cases c <;> simp [raiseIf]

@[simp] theorem orRaise_eq_ok {α : Type} {value : Option α} {e : AuthorizeError} {a : α} :
    orRaise value e = .ok a ↔ value = some a := by
  cases value <;> simp [orRaise]

/-! ### Keys -/

def bytesOf (text : String) : Bytes := text.toList.map fun c => .ofNat c.toNat

def isPublicKeyPem (bytes : Bytes) : Bool :=
  bytesOf "-----BEGIN PUBLIC KEY-----\n" <+: bytes &&
    bytesOf "\n-----END PUBLIC KEY-----\n" <:+ bytes && !(bytesOf "PRIVATE KEY" <:+: bytes)

/-- `bytes.decode("ascii")`, of bytes that are. -/
def asciiText (bytes : Bytes) : PyStr := bytes.map fun b => Fin.ofNat _ b.toNat

variable {F : Type} [FloatValue F]

/-! ### The task -/

/-- A task as it is written and read, with the part that is for the worker. -/
def controlTask (task : Members F) : Except AuthorizeError (Members F × Members F) :=
  match loads (dumps .line 0 (.dict task)) with
  | some (.dict authorized) =>
    match getItem authorized "ao2_cross_host" with
    | .dict cross =>
      match getItem cross "parameters" with
      | .dict _ => .ok (authorized, cross)
      | _ => .error (.valueError "control task parameters must be an object")
    | _ => .error (.valueError "control task is missing ao2_cross_host")
  | _ => .error (.raised .valueError)

variable [SigningLibrary]

/-- A time with its offset as a letter. -/
def utcTimestamp (t : ℤ) : Option PyStr := (isoFormat t).map fun text => text ++ ofString "Z"

def executionAuthorizationSubject (cross : Members F)
    (actionDigest issuedAt expiresAt keyDigest : PyStr) :
    Members F :=
  [(ofString "schema_version", .str (ofString executionAuthorizationSchema)),
    (ofString "action_digest", .str actionDigest),
    (ofString "target_node", .str (strOrEmpty (getItem cross "target_node"))),
    (ofString "request_id", .str (strOrEmpty (getItem cross "request_id"))),
    (ofString "issued_at", .str issuedAt), (ofString "expires_at", .str expiresAt),
    (ofString "signing_public_key_sha256", .str keyDigest)]

def signedAuthorization (subject : Members F) (signature publicKey : Bytes) : Members F :=
  [(ofString "subject", .dict subject),
    (ofString "signature_algorithm", .str (ofString executionAuthorizationAlgorithm)),
    (ofString "signature_base64", .str (b64encode signature)),
    (ofString "public_key_pem", .str (asciiText publicKey))]

/-- The subject that is signed, with the key. -/
def signedSubject (options : AuthorizeOptions) (cross : Members F) :
    Except AuthorizeError (Members F × Bytes) := do
  let publicKey ← orRaise (canonicalPublicKeyBytes options.publicKeyPem)
    (.raised .unicodeEncodeError)
  raiseIf (!isPublicKeyPem publicKey)
    (.valueError "execution authorization requires a public key PEM")
  let issuedAt ← orRaise (utcTimestamp options.issuedAt) .overflowError
  let expiresAt ← orRaise (utcTimestamp options.expiresAt) .overflowError
  let actionDigest ← (executionActionDigest cross).mapError .raised
  .ok (executionAuthorizationSubject cross actionDigest issuedAt expiresAt (sha256Hex publicKey),
    publicKey)

/-- Sign a subject, if the key is the public key of the private one and is trusted. -/
def signSubject (config : WorkerConfig) (options : AuthorizeOptions) (subject : Members F)
    (publicKey : Bytes) : Except AuthorizeError Bytes := do
  raiseIf (!options.opensslFound)
    (.runtimeError "openssl is required to sign an execution authorization")
  let derived ← orRaise (derivePublicKey options.privateKey)
    (.valueError "openssl could not derive a public key from the private key")
  let derivedPublicKey ← orRaise (canonicalPublicKeyBytes derived) (.raised .unicodeEncodeError)
  raiseIf (derivedPublicKey ≠ publicKey)
    (.valueError "execution authorization public key does not match private key")
  raiseIf (sha256Hex publicKey ∉ trustedKeys config)
    (.valueError "execution authorization public key is not trusted")
  let bytes ← (canonicalJsonBytes (.dict subject)).mapError .raised
  orRaise (signSha256 options.privateKey bytes)
    (.runtimeError "openssl failed to sign the execution authorization")

/-- The task with an authorization; the keys that are trusted are those of the worker. -/
def authorizeControlTask (config : WorkerConfig) (options : AuthorizeOptions) (task : Members F) :
    Except AuthorizeError (Members F) := do
  raiseIf (options.ttlSeconds ≤ 0 ∨ 900 < options.ttlSeconds)
    (.valueError "execution authorization ttl must be between 1 and 900 seconds")
  let (authorized, cross) ← controlTask task
  let cross := unsignedPart cross
  let (subject, publicKey) ← signedSubject options cross
  let signature ← signSubject config options subject publicKey
  let cross := setItem (ofString "execution_authorization")
    (.dict (signedAuthorization subject signature publicKey)) cross
  .ok (setItem (ofString "ao2_cross_host") (.dict cross) authorized)

/-! ### The verification -/

/-- A worker at some time, that finds `openssl`. -/
def verifierAt (current : ℤ) : Machine (WorkerSignature F) Unit where
  step o _ :=
    (match o with
      | .now => current
      | .resolveOpenssl => true
      | .opensslVerify publicKey signature subject =>
        .exited (if verifySha256 publicKey signature subject then 0 else 1)
      | .flushResultOutbox => true
      | .latestBoard => none
      | .hasRequest _ => false
      | .claim _ _ => false
      | .postResult .. => ()
      | .complete .. => ()
      | .runAction .. => ()
      | .statusResult => [], ())

/-- How a verification ends at some time. -/
def verdictAt (config : WorkerConfig) (cross : Members F) (current : ℤ) : Except Refusal Unit :=
  ((verifierAt current).run (verifyExecutionAuthorization config cross) ()).1

end Ao2

/-! ## What an authorization is verified by -/

namespace Ao2

open Python Interaction

/-! ### Keys that were made canonical -/

theorem strip_eq (s : PyStr) : strip s = (s.dropWhile isStripped).rdropWhile isStripped := rfl

/-- A text without white space at its ends, and a line break. -/
theorem strip_strip_append (s : PyStr) : strip (strip s ++ ofString "\n") = strip s := by
  have hbreak : isStripped (ofChar '\n') = true := by decide
  cases hstrip : strip s with
  | nil => rfl
  | cons c rest =>
    have hc : isStripped c = false := by
      obtain ⟨more, hmore⟩ : c :: rest <+: s.dropWhile isStripped := by
        rw [← hstrip, strip_eq]
        exact List.rdropWhile_prefix _ _
      have hhead := List.head?_dropWhile_not isStripped s
      rw [← hmore] at hhead
      simpa using hhead
    have hkeep :
        (c :: rest ++ ofString "\n").dropWhile isStripped = c :: rest ++ [ofChar '\n'] := by
      rw [List.cons_append, List.dropWhile_cons_of_neg (by rw [hc]; exact Bool.false_ne_true)]
      rfl
    rw [strip_eq, hkeep, List.rdropWhile_concat_pos _ _ _ hbreak, ← hstrip, strip_eq,
      List.rdropWhile_idempotent]

theorem normalizeLines_of_notMem {s : PyStr} (h : ofChar '\r' ∉ s) : normalizeLines s = s := by
  induction s using normalizeLines.induct with
  | case1 => rfl
  | case2 => exact absurd List.mem_cons_self h
  | case3 c hc => rw [normalizeLines, if_neg hc]
  | case4 s ih => exact absurd List.mem_cons_self h
  | case5 d s hd ih => exact absurd List.mem_cons_self h
  | case6 c d s hc ih =>
    rw [normalizeLines, if_neg hc, ih fun hmem => h (List.mem_cons_of_mem c hmem)]

theorem notMem_normalizeLines (s : PyStr) : ofChar '\r' ∉ normalizeLines s := by
  have hbreak : ofChar '\r' ≠ ofChar '\n' := by decide
  induction s using normalizeLines.induct with
  | case1 => exact List.not_mem_nil
  | case2 =>
    rw [normalizeLines, if_pos rfl, List.mem_singleton]
    exact hbreak
  | case3 c hc =>
    rw [normalizeLines, if_neg hc, List.mem_singleton]
    exact Ne.symm hc
  | case4 s ih =>
    rw [normalizeLines, if_pos rfl, if_pos rfl, List.mem_cons, not_or]
    exact ⟨hbreak, ih⟩
  | case5 d s hd ih =>
    rw [normalizeLines, if_pos rfl, if_neg hd, List.mem_cons, not_or]
    exact ⟨hbreak, ih⟩
  | case6 c d s hc ih =>
    rw [normalizeLines, if_neg hc, List.mem_cons, not_or]
    exact ⟨Ne.symm hc, ih⟩

theorem strip_subset (s : PyStr) : strip s ⊆ s := fun _ h =>
  (List.dropWhile_suffix _).subset ((List.rdropWhile_prefix _ _).subset h)

/-- The text of a key that was made canonical. -/
theorem canonical_again (pem : PyStr) :
    strip (normalizeLines (strip (normalizeLines pem) ++ ofString "\n")) ++ ofString "\n" =
      strip (normalizeLines pem) ++ ofString "\n" := by
  have hfeed : ofChar '\r' ∉ strip (normalizeLines pem) ++ ofString "\n" := by
    rw [List.mem_append, not_or]
    exact ⟨fun h => notMem_normalizeLines pem (strip_subset _ h), by decide⟩
  rw [normalizeLines_of_notMem hfeed, strip_strip_append]

theorem encodeAscii_cons {c : CodePoint} {s : PyStr} {bytes : Bytes} :
    encodeAscii (c :: s) = some bytes ↔
      c.val < 128 ∧ ∃ rest, encodeAscii s = some rest ∧ bytes = .ofNat c.val :: rest := by
  rw [encodeAscii, List.mapM_cons, ← encodeAscii]
  by_cases hc : c.val < 128
  · rw [if_pos hc]
    cases encodeAscii s with
    | none => simp
    | some rest => simp [hc, eq_comm]
  · simp [hc]

theorem asciiText_encodeAscii {s : PyStr} {bytes : Bytes} (h : encodeAscii s = some bytes) :
    asciiText bytes = s := by
  induction s generalizing bytes with
  | nil =>
    obtain rfl := Option.some.inj h
    rfl
  | cons c s ih =>
    obtain ⟨hc, rest, hrest, rfl⟩ := encodeAscii_cons.mp h
    rw [asciiText, List.map_cons, ← asciiText, ih hrest, UInt8.toNat_ofNat']
    refine congrArg (· :: s) (Fin.ext ?_)
    rw [Fin.val_ofNat]
    omega

theorem encodeUtf8_of_encodeAscii {s : PyStr} {bytes : Bytes} (h : encodeAscii s = some bytes) :
    encodeUtf8 s = .ok bytes := by
  induction s generalizing bytes with
  | nil =>
    obtain rfl := Option.some.inj h
    rfl
  | cons c s ih =>
    obtain ⟨hc, rest, hrest, rfl⟩ := encodeAscii_cons.mp h
    have hplain : ¬ IsSurrogate c := fun hs => by
      rw [IsSurrogate] at hs
      omega
    refine encodeUtf8_cons_eq_ok.mpr ⟨[.ofNat c.val], rest, ?_, ih hrest, rfl⟩
    rw [utf8Char, if_neg hplain, if_pos hc]

/-- **A canonical key is canonical**: it is read as it is written. -/
theorem canonicalPublicKeyBytes_asciiText {pem : PyStr} {bytes : Bytes}
    (h : canonicalPublicKeyBytes pem = some bytes) :
    canonicalPublicKeyBytes (asciiText bytes) = some bytes ∧
      encodeUtf8 (asciiText bytes) = .ok bytes := by
  rw [canonicalPublicKeyBytes] at h
  rw [asciiText_encodeAscii h, canonicalPublicKeyBytes, canonical_again]
  exact ⟨h, encodeUtf8_of_encodeAscii h⟩

/-! ### What the libraries do -/

/-- Dates and base64 are read as they are written, `openssl` verifies what it signs, and its keys
and signatures are not too long. -/
structure SigningLaws [SigningLibrary] : Prop where
  dates : ∀ (t : ℤ) (text : PyStr), isoFormat t = some text →
    fromIsoFormat (text ++ ofString "+00:00") = some t
  base64 : ∀ bytes : Bytes, b64decode (b64encode bytes) = some bytes
  verifies : ∀ (privateKey subject signature publicKey : Bytes) (pem : PyStr),
    derivePublicKey privateKey = some pem → canonicalPublicKeyBytes pem = some publicKey →
    signSha256 privateKey subject = some signature →
    verifySha256 publicKey signature subject = true
  publicKeyLength : ∀ (privateKey publicKey : Bytes) (pem : PyStr),
    derivePublicKey privateKey = some pem → canonicalPublicKeyBytes pem = some publicKey →
    publicKey.length ≤ 8192
  signatureLength : ∀ privateKey subject signature : Bytes,
    signSha256 privateKey subject = some signature → (b64encode signature).length ≤ 4096

section

variable {F : Type} [FloatValue F] [SigningLibrary]

/-! ### What is signed -/

/-- What an authorization is made of. -/
structure SignedParts where
  publicKey : Bytes
  signature : Bytes
  actionDigest : PyStr
  issuedAt : PyStr
  expiresAt : PyStr

def SignedParts.subject (s : SignedParts) (cross : Members F) : Members F :=
  executionAuthorizationSubject cross s.actionDigest s.issuedAt s.expiresAt (sha256Hex s.publicKey)

/-- The part of the task that is for the worker, with the authorization. -/
def SignedParts.cross (s : SignedParts) (cross : Members F) : Members F :=
  setItem (ofString "execution_authorization")
    (.dict (signedAuthorization (s.subject cross) s.signature s.publicKey)) cross

/-- What is known of a task that was authorized. -/
structure SignedAs (config : WorkerConfig) (options : AuthorizeOptions) (cross : Members F)
    (s : SignedParts) : Prop where
  ttl : 0 < options.ttlSeconds ∧ options.ttlSeconds ≤ 900
  key : ∃ pem, derivePublicKey options.privateKey = some pem ∧
    canonicalPublicKeyBytes pem = some s.publicKey
  trusted : sha256Hex s.publicKey ∈ trustedKeys config
  digest : executionActionDigest cross = .ok s.actionDigest
  issued : utcTimestamp options.issuedAt = some s.issuedAt
  expires : utcTimestamp options.expiresAt = some s.expiresAt
  signed : ∃ bytes, canonicalJsonBytes (.dict (s.subject cross)) = .ok bytes ∧
    signSha256 options.privateKey bytes = some s.signature

variable {config : WorkerConfig} {options : AuthorizeOptions}
  {task authorized reread cross : Members F}

theorem signedSubject_ok {subject : Members F} {publicKey : Bytes}
    (h : signedSubject options cross = .ok (subject, publicKey)) :
    ∃ actionDigest issuedAt expiresAt, executionActionDigest cross = .ok actionDigest ∧
      utcTimestamp options.issuedAt = some issuedAt ∧
      utcTimestamp options.expiresAt = some expiresAt ∧
      subject = executionAuthorizationSubject cross actionDigest issuedAt expiresAt
        (sha256Hex publicKey) := by
  rw [signedSubject] at h
  obtain ⟨publicKey', -, h⟩ := bind_eq_ok.mp h
  obtain ⟨-, -, h⟩ := bind_eq_ok.mp h
  obtain ⟨issuedAt, hissued, h⟩ := bind_eq_ok.mp h
  obtain ⟨expiresAt, hexpires, h⟩ := bind_eq_ok.mp h
  obtain ⟨actionDigest, hdigest, h⟩ := bind_eq_ok.mp h
  obtain ⟨rfl, rfl⟩ := Prod.mk.inj (Except.ok.inj h)
  exact ⟨actionDigest, issuedAt, expiresAt, mapError_eq_ok.mp hdigest, orRaise_eq_ok.mp hissued,
    orRaise_eq_ok.mp hexpires, rfl⟩

theorem signSubject_ok {subject : Members F} {publicKey signature : Bytes}
    (h : signSubject config options subject publicKey = .ok signature) :
    (∃ pem, derivePublicKey options.privateKey = some pem ∧
      canonicalPublicKeyBytes pem = some publicKey) ∧
    sha256Hex publicKey ∈ trustedKeys config ∧
    ∃ bytes, canonicalJsonBytes (.dict subject) = .ok bytes ∧
      signSha256 options.privateKey bytes = some signature := by
  rw [signSubject] at h
  obtain ⟨-, -, h⟩ := bind_eq_ok.mp h
  obtain ⟨pem, hpem, h⟩ := bind_eq_ok.mp h
  obtain ⟨derived, hderived, h⟩ := bind_eq_ok.mp h
  obtain ⟨_, hsame, h⟩ := bind_eq_ok.mp h
  obtain ⟨_, htrusted, h⟩ := bind_eq_ok.mp h
  obtain ⟨bytes, hbytes, h⟩ := bind_eq_ok.mp h
  rw [raiseIf_eq_ok, decide_eq_false_iff_not, not_not] at hsame htrusted
  exact ⟨⟨pem, orRaise_eq_ok.mp hpem, hsame ▸ orRaise_eq_ok.mp hderived⟩, htrusted, bytes,
    mapError_eq_ok.mp hbytes, orRaise_eq_ok.mp h⟩

/-- **What an authorization consists of.** -/
theorem authorizeControlTask_ok (h : authorizeControlTask config options task = .ok authorized) :
    ∃ reread cross s, controlTask task = .ok (reread, cross) ∧
      SignedAs config options (unsignedPart cross) s ∧
      authorized =
        setItem (ofString "ao2_cross_host") (.dict (s.cross (unsignedPart cross))) reread := by
  rw [authorizeControlTask] at h
  obtain ⟨_, httl, h⟩ := bind_eq_ok.mp h
  obtain ⟨⟨reread, cross⟩, htask, h⟩ := bind_eq_ok.mp h
  obtain ⟨⟨subject, publicKey⟩, hsubject, h⟩ := bind_eq_ok.mp h
  obtain ⟨signature, hsignature, h⟩ := bind_eq_ok.mp h
  obtain ⟨actionDigest, issuedAt, expiresAt, hdigest, hissued, hexpires, rfl⟩ :=
    signedSubject_ok hsubject
  obtain ⟨hkey, htrusted, hsigned⟩ := signSubject_ok hsignature
  rw [raiseIf_eq_ok, decide_eq_false_iff_not, not_or, not_le, not_lt] at httl
  exact ⟨reread, cross, ⟨publicKey, signature, actionDigest, issuedAt, expiresAt⟩, htask,
    ⟨httl, hkey, htrusted, hdigest, hissued, hexpires, hsigned⟩, (Except.ok.inj h).symm⟩

/-! ### What is verified -/

/-- How a verification ends, without the worker. -/
theorem verdictAt_eq (config : WorkerConfig) (cross : Members F) (current : ℤ) :
    verdictAt config cross current = (do
      let (a, issuedAt, expiresAt) ← checkAuthorization config cross
      checkClock current issuedAt expiresAt
      let bytes ← subjectBytes a
      opensslVerdict
        (.exited (if verifySha256 a.publicKeyBytes a.signatureBytes bytes then 0 else 1))) := by
  rw [verdictAt, verifyExecutionAuthorization]
  cases checkAuthorization config cross with
  | error e => rfl
  | ok checked =>
    obtain ⟨a, issuedAt, expiresAt⟩ := checked
    change ((verifierAt current).run
      ((Prog.ofExcept (checkClock current issuedAt expiresAt)).bind _) ()).1 =
        (checkClock current issuedAt expiresAt >>= _)
    cases checkClock current issuedAt expiresAt with
    | error e => rfl
    | ok _ =>
      change ((verifierAt current).run ((Prog.ofExcept (subjectBytes a)).bind _) ()).1 =
        (subjectBytes a >>= _)
      cases subjectBytes a with
      | error e => rfl
      | ok bytes =>
        exact congrArg Prod.fst (Machine.run_ofExcept _ _ _)

/-- What is left to verify of an authorization that was made. -/
def SignedParts.authorization (s : SignedParts) (cross : Members F) : Authorization F :=
  ⟨s.subject cross, s.signature, s.publicKey⟩

variable {s : SignedParts} {cross' : Members F}

/-- An object has the authorization that was made for another one. -/
def CarriesSigned (s : SignedParts) (cross cross' : Members F) : Prop :=
  getItem cross' "execution_authorization" =
    .dict (signedAuthorization (s.subject cross) s.signature s.publicKey)

theorem readAuthorization_carried (h : CarriesSigned s cross cross') :
    readAuthorization cross' =
      .ok (signedAuthorization (s.subject cross) s.signature s.publicKey, s.subject cross) := by
  rw [readAuthorization, show getItem cross' "execution_authorization" = _ from h]
  rfl

variable (hlaws : SigningLaws)

include hlaws

theorem readKey_signed (hs : SignedAs config options cross s) :
    readKey (signedAuthorization (s.subject cross) s.signature s.publicKey) (s.subject cross) =
      .ok (s.authorization cross) := by
  obtain ⟨pem, hpem, hkey⟩ := hs.key
  obtain ⟨bytes, -, hsigned⟩ := hs.signed
  obtain ⟨hcanonical, hutf8⟩ := canonicalPublicKeyBytes_asciiText hkey
  have hlength := hlaws.publicKeyLength _ _ _ hpem hkey
  have hsignature := hlaws.signatureLength _ _ _ hsigned
  have hreadPem : readPublicKeyPem (.str (asciiText s.publicKey) : PyJson F) =
      .ok (asciiText s.publicKey) := by
    rw [readPublicKeyPem, hutf8]
    exact if_neg (not_lt.mpr hlength)
  have hreadSignature : readSignatureBase64 (.str (b64encode s.signature) : PyJson F) =
      .ok (b64encode s.signature) := if_neg (not_lt.mpr hsignature)
  rw [readKey]
  refine bind_eq_ok.mpr ⟨(), require_eq_ok.mpr (isText_iff.mpr rfl), ?_⟩
  refine bind_eq_ok.mpr ⟨(), require_eq_ok.mpr (isText_iff.mpr rfl), ?_⟩
  refine bind_eq_ok.mpr ⟨_, hreadPem, bind_eq_ok.mpr ⟨_, hreadSignature, ?_⟩⟩
  rw [hcanonical, hlaws.base64]
  rfl

/-- The times of an authorization are read as they were written. -/
theorem readValidity_signed (hs : SignedAs config options cross s) :
    readValidity (s.subject cross) = .ok (options.issuedAt, options.expiresAt) := by
  have hparse {t : ℤ} {text : PyStr} (h : utcTimestamp t = some text) :
      parseUtcTimestamp (.str text : PyJson F) = some t := by
    obtain ⟨date, hdate, rfl⟩ := Option.map_eq_some_iff.mp h
    have hlast : (date ++ ofString "Z").getLast? = some (ofChar 'Z') := List.getLast?_concat
    rw [parseUtcTimestamp, if_pos hlast, show (date ++ ofString "Z").dropLast = date from
      List.dropLast_concat]
    exact hlaws.dates t date hdate
  have hbetween : options.issuedAt < options.expiresAt ∧
      options.expiresAt - options.issuedAt ≤ executionAuthorizationMaxTtl := by
    have httl := hs.ttl
    rw [AuthorizeOptions.expiresAt, executionAuthorizationMaxTtl]
    omega
  have hissued :
      parseUtcTimestamp (getItem (s.subject cross) "issued_at") = some options.issuedAt :=
    hparse hs.issued
  have hexpires : parseUtcTimestamp (getItem (s.subject cross) "expires_at") =
      some options.expiresAt := hparse hs.expires
  rw [readValidity, hissued, hexpires]
  dsimp only
  rw [if_neg (not_le.mpr hbetween.1), if_neg (not_lt.mpr hbetween.2)]

/-- **An authorization that was made** is verified if the subject is about the object, in its
time. -/
theorem verdictAt_carried (hs : SignedAs config options cross s) (h : CarriesSigned s cross cross')
    (current : ℤ) :
    verdictAt config cross' current =
      (checkSubject config cross' (s.authorization cross) >>= fun _ =>
        checkClock current options.issuedAt options.expiresAt) := by
  have hcheck : checkAuthorization config cross' =
      (checkSubject config cross' (s.authorization cross) >>= fun _ =>
        .ok (s.authorization cross, options.issuedAt, options.expiresAt)) := by
    rw [checkAuthorization, readAuthorization_carried h]
    change (readKey _ _ >>= _) = _
    rw [readKey_signed hlaws hs]
    change (checkSubject config cross' (s.authorization cross) >>= fun _ =>
      readValidity (s.subject cross) >>= _) = _
    rw [readValidity_signed hlaws hs]
    rfl
  obtain ⟨bytes, hbytes, hsigned⟩ := hs.signed
  obtain ⟨pem, hpem, hkey⟩ := hs.key
  have hsubject : subjectBytes (s.authorization cross) = .ok bytes := mapError_eq_ok.mpr hbytes
  have hverifies := hlaws.verifies _ _ _ _ _ hpem hkey hsigned
  rw [verdictAt_eq, hcheck]
  cases checkSubject config cross' (s.authorization cross) with
  | error e => rfl
  | ok _ =>
    change (checkClock current options.issuedAt options.expiresAt >>= fun _ =>
      subjectBytes (s.authorization cross) >>= _) = checkClock current _ _
    rw [hsubject]
    cases checkClock current options.issuedAt options.expiresAt with
    | error e => rfl
    | ok _ =>
      change opensslVerdict
        (.exited (if verifySha256 s.publicKey s.signature bytes then 0 else 1)) = _
      rw [hverifies]
      rfl

omit hlaws

theorem checkSubject_carried (hs : SignedAs config options cross s) (cross' : Members F) :
    checkSubject config cross' (s.authorization cross) =
      (require
        (pyEq (.str (strOrEmpty (getItem cross "target_node"))) (getItem cross' "target_node"))
        "execution_authorization_target_mismatch" >>= fun _ =>
      require (pyEq (.str (strOrEmpty (getItem cross "request_id"))) (getItem cross' "request_id"))
        "execution_authorization_request_mismatch" >>= fun _ =>
      (executionActionDigest cross').mapError .raised >>= fun digest =>
      require (isText (.str s.actionDigest : PyJson F) digest)
        "execution_authorization_action_digest_mismatch") := by
  have htrusted : decide (sha256Hex (s.authorization cross).publicKeyBytes ∈ trustedKeys config ∧
      isText (getItem (s.authorization cross).subject "signing_public_key_sha256")
        (sha256Hex (s.authorization cross).publicKeyBytes) = true) = true :=
    decide_eq_true ⟨hs.trusted, isText_iff.mpr rfl⟩
  rw [checkSubject, htrusted]
  rfl

end

end Ao2
