import Ao2.Core
import Ao2.Json.Objects
import Ao2.Json.Ordered
import Ao2.Texts.Bytes
import Ao2.Texts.Legible
import Ao2.Texts.Lines

/-!
# Signed files

A signature is over the bytes of a file. The keys are texts in files.

A gate is put into a wrapper that is named after the time, and the wrapper is signed. The public key goes
into a file that all wrappers of a directory share.

The candidates are gone through in order, and each directory as it lists its files. The first wrapper
around the gate counts: whether it is signed, and whether it says that an operator wrote it.

## Main results

* `verifyFileSignature_sign` — what is signed verifies
-/

namespace Ao2

namespace Signing

/-- RSA signatures with SHA-256, and the texts of keys. -/
class Rsa where
  PrivateKey : Type
  PublicKey : Type
  fromPrivatePem : String → Option PrivateKey
  fromPublicPem : String → Option PublicKey
  toPublicKey : PrivateKey → PublicKey
  toPublicPem : PublicKey → String
  sign : PrivateKey → Octets → Octets
  verifies : PublicKey → (input signature : Octets) → Bool

export Rsa (PrivateKey PublicKey fromPrivatePem fromPublicPem toPublicKey toPublicPem sign verifies)

/-- A key is read back from its text, and a signature verifies. -/
class LawfulRsa [Rsa] : Prop where
  fromPublicPem_toPublicPem : ∀ key : PublicKey, fromPublicPem (toPublicPem key) = some key
  verifies_sign : ∀ (key : PrivateKey) (input : Octets),
    verifies (toPublicKey key) input (sign key input) = true

export LawfulRsa (fromPublicPem_toPublicPem verifies_sign)

/-- The bytes of a text file. -/
def textFile (text : String) : Octets := utf8Bytes text.toList

/-- A file as text. -/
def readToString (path : String) (content : Octets) : Except String String :=
  match decodeUtf8 content with
  | some text => .ok (.ofList text)
  | none => .error ("read " ++ path)

@[simp] theorem readToString_textFile (path text : String) :
    readToString path (textFile text) = .ok text := by
  have hread := fromUtf8Lossy_utf8Bytes text.toList
  rw [readToString, textFile, decodeUtf8, hread, if_pos rfl]
  exact congrArg Except.ok String.ofList_toList

variable [Rsa]

def readRsaPublicKey (path : String) (content : Octets) : Except String PublicKey := do
  let pem ← readToString path content
  match fromPublicPem pem with
  | some key => .ok key
  | none => .error ("parse RSA public key " ++ path)

/-- A file that is not there is not verified. -/
def verifyFileSignature (input signature : Option Octets) (keyPath : String)
    (publicKey : Option Octets) : Except String Bool :=
  match input, signature, publicKey with
  | some input, some signature, some publicKey => do
    let key ← readRsaPublicKey keyPath publicKey
    .ok (verifies key input signature)
  | _, _, _ => .ok false

variable [LawfulRsa]

theorem readRsaPublicKey_textFile (path : String) (key : PublicKey) :
    readRsaPublicKey path (textFile (toPublicPem key)) = .ok key := by
  simp [readRsaPublicKey, fromPublicPem_toPublicPem, bind, Except.bind]

/-- **What is signed verifies.** -/
theorem verifyFileSignature_sign (key : PrivateKey) (input : Octets) (path : String) :
    verifyFileSignature (some input) (some (sign key input)) path
      (some (textFile (toPublicPem (toPublicKey key)))) = .ok true := by
  rw [verifyFileSignature, readRsaPublicKey_textFile]
  exact congrArg Except.ok (verifies_sign key input)

end Signing

end Ao2

/-! ## A signed wrapper around a gate -/

namespace Ao2

namespace Signing

/-- The files of a directory. -/
abbrev Directory := String → Option Octets

/-- What is to be signed, with which key, and when. The key file is given as what is read of it. -/
structure Emission where
  gate : Json
  privateKeyPath : String
  privateKey : Option String
  signerId : String
  operatorRole : String
  runId : String
  now : ℕ
  /-- An object keeps its members in order. -/
  ordered : gate.ordered = true

def wrapperSchema : String := "ao2.workbench-evidence-export.v1"

def publicKeyName : String := "workbench-evidence-signing-public.pem"

def wrapperName (now : ℕ) : String := "evidence-export-" ++ toString now ++ "-obligation-gate.json"

/-- The file of a wrapper with the extension `json.sig`. -/
def signatureName (wrapper : String) : String := wrapper ++ ".sig"

def Emission.auditEvent (e : Emission) : Json :=
  .obj [("action", .str "obligation_gate"), ("gate_path", e.gate.index "gate_path"),
    ("ledger_path", e.gate.index "ledger_path"), ("operator_id", .str e.signerId),
    ("operator_role", .str e.operatorRole), ("run_id", .str e.runId),
    ("schema_version", .str "ao2.workbench-audit-event.v1"), ("stage", e.gate.index "stage"),
    ("status", e.gate.index "status"), ("summary", e.gate.index "summary"),
    ("timestamp_ms", .nat e.now), ("verdict", e.gate.index "verdict")]

def Emission.wrapper (e : Emission) : Json :=
  .obj [("export", .obj [("audit_event", e.auditEvent), ("gate", e.gate)]),
    ("export_kind", .str "obligation-gate"), ("generated_at_ms", .nat e.now),
    ("schema_version", .str wrapperSchema), ("target", e.gate.index "target")]

/-- What is reported of a signed wrapper. -/
structure SigningEvidence where
  generatedAtMs : ℕ
  exportsDir : String
  wrapperPath : String
  wrapperSha256 : String
  signaturePath : String
  publicKeyPath : String
  publicKeySha256 : String
  signerId : String
  signerRole : String
  signerRunId : String
  signatureVerified : Bool

variable [Platform] [Rsa]

def Emission.readPrivateKey (e : Emission) : Except String PrivateKey :=
  match e.privateKey with
  | none => .error ("read " ++ e.privateKeyPath)
  | some pem =>
    match fromPrivatePem pem with
    | some key => .ok key
    | none => .error ("parse RSA private key " ++ e.privateKeyPath)

/-- The text of a wrapper. -/
def Emission.text (e : Emission) : String := prettyJson e.wrapper

/-- The directory with the wrapper, which is written before anything else. -/
def Emission.withWrapper (e : Emission) (dir : Directory) : Directory :=
  Function.update dir (wrapperName e.now) (some (textFile e.text))

/-- The directory with key and signature. -/
def Emission.withSignature (e : Emission) (key : PrivateKey) (dir : Directory) : Directory :=
  Function.update
    (Function.update dir publicKeyName (some (textFile (toPublicPem (toPublicKey key)))))
    (signatureName (wrapperName e.now)) (some (sign key (textFile e.text)))

/-- Sign a gate in a directory. If the key cannot be read the wrapper is there all the same. -/
def emitContractGateSignedWrapper (exportsDir : String) (e : Emission) (dir : Directory) :
    Except String SigningEvidence × Directory :=
  let written := e.withWrapper dir
  match e.readPrivateKey with
  | .error message => (.error message, written)
  | .ok key =>
    let signed := e.withSignature key written
    let wrapperPath := joinPath exportsDir (wrapperName e.now)
    let publicKeyPath := joinPath exportsDir publicKeyName
    let signaturePath := joinPath exportsDir (signatureName (wrapperName e.now))
    let evidence := do
      let verified ← verifyFileSignature (signed (wrapperName e.now))
        (signed (signatureName (wrapperName e.now))) publicKeyPath (signed publicKeyName)
      .ok
        { generatedAtMs := e.now
          exportsDir := exportsDir
          wrapperPath := wrapperPath
          wrapperSha256 := sha256Text e.text
          signaturePath := signaturePath
          publicKeyPath := publicKeyPath
          publicKeySha256 := sha256Text (toPublicPem (toPublicKey key))
          signerId := e.signerId
          signerRole := e.operatorRole
          signerRunId := e.runId
          signatureVerified := verified }
    (evidence, signed)

end Signing

end Ao2

/-! ## The audit of a gate -/

namespace Ao2

namespace Signing

inductive SigningStatus where
  | wrapperNotFound
  | signatureMissing
  | signatureInvalid
  | wrapperNotAo2Owned
  | signedAndVerified
  deriving DecidableEq

/-- A file that is named, and what is read of it. -/
structure NamedFile where
  path : String
  content : Option Octets

structure AuditCall where
  gatePath : String
  /-- The text of the gate, if it can be read. -/
  gateText : Option String
  evidenceExportsDir : Option String
  publicKeyOverride : Option NamedFile

/-- A directory and the names of its files, in the order of the listing. -/
structure Listed where
  dir : Directory
  names : List String
  mem_names : ∀ name, name ∈ names ↔ dir name ≠ none

/-- The directories that can be read, under their paths. -/
abbrev Listing := String → Option Listed

structure SigningAudit where
  signingStatus : SigningStatus
  gatePath : String
  stage : String
  gateSha256 : String
  evidenceExportsDir : Option String
  matchedWrapperPath : Option String
  matchedWrapperSha256 : String
  signaturePath : Option String
  signaturePresent : Bool
  publicKeyPath : Option String
  publicKeyPresent : Bool
  signatureVerified : Bool
  ao2Owned : Bool

/-! ### Candidates -/

/-- The directory of a path, which the root and the empty path have none of. -/
def parentOf (path : String) : Option String :=
  if path = "" ∨ path = "/" then none else some (parentPath path)

def exportsBelow (target : String) : String :=
  joinPath (joinPath (joinPath target ".ao2") "workbench") "evidence-exports"

/-- The directory of the workbench of the target in whose runs the gate is. -/
def AuditCall.defaultExportsDir (call : AuditCall) : Option String := do
  let parent ← parentOf call.gatePath
  let runDir ← parentOf parent
  let runsDir ← parentOf runDir
  let ao2Dir ← parentOf runsDir
  let target ← parentOf ao2Dir
  some (exportsBelow target)

def targetFieldDir (gate : Json) : Option String :=
  let target := jsonStringOf gate "target"
  if target = "" then none else some (exportsBelow target)

def AuditCall.candidateDirs (call : AuditCall) (gate : Json) : List String :=
  call.evidenceExportsDir.toList ++ (targetFieldDir gate).toList ++ call.defaultExportsDir.toList ++
    (parentOf call.gatePath).toList

/-! ### Wrappers -/

def isWrapperName (name : String) : Bool :=
  "evidence-export-".toList <+: name.toList ∧ "-obligation-gate.json".toList <:+ name.toList

def embeddedGate (wrapper : Json) : Json := (wrapper.index "export").index "gate"

variable [Platform] [JsonText] [Rsa]

/-- The wrapper in a file, if there is one. -/
def readWrapper (dir : Directory) (name : String) : Option Json := do
  let content ← dir name
  let text ← (decodeUtf8 content).map String.ofList
  let wrapper ← parseJson text
  if jsonStringOf wrapper "schema_version" = wrapperSchema ∧
      jsonStringOf wrapper "export_kind" = "obligation-gate" then some wrapper
  else none

/-- The wrapper around a gate in a file. -/
def wrapperAround (gate : Json) (dir : Directory) (name : String) : Option Json :=
  if isWrapperName name then (readWrapper dir name).filter fun wrapper => embeddedGate wrapper = gate
  else none

/-- A wrapper that is found, and where. -/
structure Match where
  dirPath : String
  dir : Directory
  name : String
  wrapper : Json

/-- The first wrapper around a gate in a directory. -/
def firstIn (gate : Json) (path : String) (listed : Listed) : Option Match :=
  listed.names.findSome? fun name =>
    (wrapperAround gate listed.dir name).map fun wrapper => ⟨path, listed.dir, name, wrapper⟩

def findWrapper (gate : Json) (read : Listing) (candidates : List String) : Option Match :=
  candidates.findSome? fun path => (read path).bind (firstIn gate path)

/-! ### The audit -/

def isAo2Owned (wrapper : Json) : Bool :=
  let event := (wrapper.index "export").index "audit_event"
  jsonStringOf wrapper "schema_version" = wrapperSchema ∧
    jsonStringOf event "action" = "obligation_gate" ∧ jsonStringOf event "operator_role" ≠ ""

/-- The key that a wrapper is checked with: the one that is given, or the one of its directory. -/
def Match.keyFile (m : Match) (given : Option NamedFile) : NamedFile :=
  given.getD ⟨joinPath m.dirPath publicKeyName, m.dir publicKeyName⟩

def Match.signature (m : Match) : Option Octets := m.dir (signatureName m.name)

def Match.verified (m : Match) (given : Option NamedFile) : Except String Bool :=
  verifyFileSignature (m.dir m.name) m.signature (m.keyFile given).path (m.keyFile given).content

def statusOf (present verified owned : Bool) : SigningStatus :=
  if !present then .signatureMissing
  else if !verified then .signatureInvalid
  else if !owned then .wrapperNotAo2Owned
  else .signedAndVerified

/-- The status of a wrapper. -/
def Match.status (m : Match) (given : Option NamedFile) : Except String SigningStatus := do
  let verified ← m.verified given
  .ok (statusOf (m.signature.isSome && (m.keyFile given).content.isSome) verified (isAo2Owned m.wrapper))

def AuditCall.readGate (call : AuditCall) : Except String Json :=
  match call.gateText with
  | none => .error ("read obligation gate " ++ call.gatePath)
  | some text =>
    match parseJson text with
    | none => .error ("parse obligation gate " ++ call.gatePath)
    | some gate =>
      if jsonStringOf gate "schema_version" = "ao2.obligation-gate.v1" then .ok gate
      else .error ("contract verify-obligation-gate-signing requires ao2.obligation-gate.v1: " ++
        call.gatePath)

/-- What is reported where no wrapper is found. -/
def AuditCall.notFound (call : AuditCall) (gate : Json) : SigningAudit where
  signingStatus := .wrapperNotFound
  gatePath := call.gatePath
  stage := jsonStringOf gate "stage"
  gateSha256 := sha256Text (call.gateText.getD "")
  evidenceExportsDir := (call.evidenceExportsDir.or (targetFieldDir gate)).or call.defaultExportsDir
  matchedWrapperPath := none
  matchedWrapperSha256 := ""
  signaturePath := none
  signaturePresent := false
  publicKeyPath := call.publicKeyOverride.map NamedFile.path
  publicKeyPresent := (call.publicKeyOverride.bind NamedFile.content).isSome
  signatureVerified := false
  ao2Owned := false

/-- The text of the wrapper. What was parsed is UTF-8. -/
def Match.text (m : Match) : String := .ofList (fromUtf8Lossy ((m.dir m.name).getD []))

/-- What is reported of a wrapper. -/
def AuditCall.found (call : AuditCall) (gate : Json) (m : Match) (verified : Bool) : SigningAudit where
  signingStatus := statusOf (m.signature.isSome && (m.keyFile call.publicKeyOverride).content.isSome)
    verified (isAo2Owned m.wrapper)
  gatePath := call.gatePath
  stage := jsonStringOf gate "stage"
  gateSha256 := sha256Text (call.gateText.getD "")
  evidenceExportsDir := some m.dirPath
  matchedWrapperPath := some (joinPath m.dirPath m.name)
  matchedWrapperSha256 := sha256Text m.text
  signaturePath := some (joinPath m.dirPath (signatureName m.name))
  signaturePresent := m.signature.isSome
  publicKeyPath := some (m.keyFile call.publicKeyOverride).path
  publicKeyPresent := (m.keyFile call.publicKeyOverride).content.isSome
  signatureVerified := verified
  ao2Owned := isAo2Owned m.wrapper

def contractVerifyObligationGateSigning (call : AuditCall) (read : Listing) :
    Except String SigningAudit := do
  let gate ← call.readGate
  match findWrapper gate read (call.candidateDirs gate) with
  | none => .ok (call.notFound gate)
  | some m =>
    let verified ← m.verified call.publicKeyOverride
    .ok (call.found gate m verified)

end Signing

end Ao2
