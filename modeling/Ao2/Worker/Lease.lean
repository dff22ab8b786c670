import Ao2.Checks
import Ao2.Python.Strict
import Ao2.Texts.Bytes
import Ao2.Worker.Authorization

/-!
# Leases of a physical host

A qualification on a physical host needs a lease: a JSON text that names the node and the profile, that an
operator has approved, that is in force now, and that has one scratch directory of its own. There are three
schemas: two for exclusive use, and one for use that is shared within bounds. A lease is handed over in
base64 together with its digest.
-/

namespace Ao2

open Python

namespace Lease

/-! ### Constants -/

def maxPhysicalHostLeaseBytes : ℕ := 16 * 1024

/-- The letters of base64 that a lease may have. -/
def maxEncodedLetters : ℕ := (maxPhysicalHostLeaseBytes + 2) / 3 * 4 + 4

/-- In microseconds. -/
def maxPhysicalHostLeaseTtl : ℤ := 15 * 60 * 1000000

def maxPhysicalHostHeartbeatAge : ℤ := 2 * 60 * 1000000

/-- The profiles that need a lease, with the purpose that it names. -/
def physicalHostLeaseProfiles : List (String × String) :=
  [("windows_stack_qualification:physical_unique", "windows_stack_qualification"),
    ("windows_stack_qualification:physical_bounded", "windows_stack_qualification"),
    ("windows_stack_qualification:lifecycle_noop", "windows_stack_qualification"),
    ("ubuntu_stack_qualification:lifecycle_noop", "ubuntu_stack_qualification")]

/-- The profiles for which a lease may be shared within bounds. -/
def boundedProfiles : List String :=
  ["windows_stack_qualification:physical_bounded", "windows_stack_qualification:lifecycle_noop",
    "ubuntu_stack_qualification:lifecycle_noop"]

inductive Schema where
  | locked
  | exclusive
  | bounded
  deriving DecidableEq

def Schema.text : Schema → String
  | .locked => "ao2.physical-host-exclusive-lease.v2"
  | .exclusive => "ao2.physical-host-exclusive-lease.v1"
  | .bounded => "ao2.physical-host-bounded-lease.v1"

def commonFields : List String :=
  ["schema_version", "lease_id", "node_id", "purpose", "operator_approved", "operator_approval_id",
    "issued_at", "expires_at", "heartbeat_at", "command_profile", "scratch_root", "cleanup_roots",
    "natural_completion_only", "abort_requested", "released", "allow_broad_process_termination",
    "allow_graphical_session_mutation"]

/-- The fields of a lease. -/
def Schema.requiredFields : Schema → List String
  | .locked => commonFields ++ ["exclusive_use_confirmed", "interactive_sessions_active",
      "overlapping_lease_ids", "interactive_session_state", "interactive_ao_workloads_active"]
  | .exclusive => commonFields ++ ["exclusive_use_confirmed", "interactive_sessions_active",
      "overlapping_lease_ids"]
  | .bounded => commonFields ++ ["isolation_mode", "interactive_sessions_active",
      "interactive_ao_workloads_active", "ssh_connections_active", "conflicting_lease_ids",
      "conflicting_workload_ids", "conflicting_scratch_roots", "resource_limits_satisfied"]

/-! ### Failures -/

/-- The exceptions that leave the validation. -/
inductive LeaseException where
  | valueError
  | recursionError
  | osError
  deriving DecidableEq

inductive Failure where
  | failed (category : String)
  | raised (e : LeaseException)
  deriving DecidableEq

/-- Fail unless this is so. -/
def require (c : Bool) (category : String) : Except Failure Unit :=
  if c then .ok () else .error (.failed category)

def orFail {α : Type} (category : String) : Option α → Except Failure α
  | some a => .ok a
  | none => .error (.failed category)

/-- An answer of the file system, unless it raises. -/
def orRaise {α : Type} : Option α → Except Failure α
  | some a => .ok a
  | none => .error (.raised .osError)

/-! ### Texts -/

def inRange (first last : Char) (c : CodePoint) : Bool := first.toNat ≤ c.val ∧ c.val ≤ last.toNat

def isLowerAlphanumeric (c : CodePoint) : Bool := inRange 'a' 'z' c || inRange '0' '9' c

/-- `[0-9a-f]{64}`. -/
def isDigest (s : PyStr) : Bool :=
  s.length = 64 && s.all fun c => inRange '0' '9' c || inRange 'a' 'f' c

/-- `[a-z0-9][a-z0-9-]{7,63}`. -/
def isLeaseId : PyStr → Bool
  | [] => false
  | c :: s =>
    isLowerAlphanumeric c && 7 ≤ s.length && s.length ≤ 63 &&
      s.all fun c => isLowerAlphanumeric c || c = ofChar '-'

/-- `[A-Za-z0-9][A-Za-z0-9._-]{7,127}`. -/
def isApprovalId : PyStr → Bool
  | [] => false
  | c :: s =>
    (isLowerAlphanumeric c || inRange 'A' 'Z' c) && 7 ≤ s.length && s.length ≤ 127 &&
      s.all fun c => isLowerAlphanumeric c || inRange 'A' 'Z' c || c ∈ ofString "._-"

/-! ### Values -/

variable {F : Type}

/-- `v is True`. -/
def isTrue : PyJson F → Bool
  | .bool b => b
  | _ => false

/-- `v is False`. -/
def isFalse : PyJson F → Bool
  | .bool b => !b
  | _ => false

/-- `type(v) is int and v == n`. -/
def isInt (n : ℤ) : PyJson F → Bool
  | .int m => m = n
  | _ => false

/-- `type(v) is int and v >= 0`. -/
def isCount : PyJson F → Bool
  | .int n => 0 ≤ n
  | _ => false

def isTextThat (p : PyStr → Bool) : PyJson F → Bool
  | .str s => p s
  | _ => false

/-! ### The bytes of a lease -/

section

variable [WorkerLibrary]

/-- The bytes of a lease and their digest. -/
def leaseBytes (encoded expectedSha256 : PyJson F) : Except Failure (Bytes × PyStr) :=
  match encoded with
  | .str text => do
    require (text.length ≤ maxEncodedLetters) "lease_too_large"
    let raw ← orFail "malformed_lease" (b64decode text)
    require (raw.length ≤ maxPhysicalHostLeaseBytes) "lease_too_large"
    require (isTextThat isDigest expectedSha256) "lease_digest_mismatch"
    require (isText expectedSha256 (sha256Hex raw)) "lease_digest_mismatch"
    pure (raw, sha256Hex raw)
  | _ => .error (.failed "malformed_lease")

end

/-- What becomes of an exception of `json.loads`. -/
def onLoadError : LoadError → Failure
  | .decodeError => .failed "malformed_lease"
  | .valueError => .raised .valueError
  | .recursionError => .raised .recursionError

def asObject : PyJson F → Except Failure (Members F)
  | .dict lease => .ok lease
  | _ => .error (.failed "lease_schema_mismatch")

/-- The lease that bytes are the text of. -/
def readLease [FloatText F] (limits : LoadLimits) (raw : Bytes) : Except Failure (Members F) := do
  let text ← orFail "malformed_lease" (decodeUtf8 raw)
  let tree ← (loadsPairs limits text).mapError onLoadError
  require (!hasDuplicateKeys tree) "duplicate_lease_key"
  asObject (strictObject tree)

/-! ### The fields of a lease -/

def readSchema (lease : Members F) : Except Failure Schema :=
  let schemaVersion := getItem lease "schema_version"
  if isText schemaVersion (ofString Schema.locked.text) then .ok .locked
  else if isText schemaVersion (ofString Schema.exclusive.text) then .ok .exclusive
  else if isText schemaVersion (ofString Schema.bounded.text) then .ok .bounded
  else .error (.failed "lease_schema_mismatch")

def readLeaseId (lease : Members F) : Except Failure PyStr :=
  match getItem lease "lease_id" with
  | .str s => if isLeaseId s then .ok s else .error (.failed "lease_schema_mismatch")
  | _ => .error (.failed "lease_schema_mismatch")

/-- The purpose that a lease for a profile names. -/
def expectedPurpose (profile : PyStr) : Option String :=
  (physicalHostLeaseProfiles.find? fun entry => ofString entry.1 = profile).map (·.2)

/-- The node and the profile that a lease is for, and its approval. -/
def checkNames (schema : Schema) (nodeId profile : PyStr) (lease : Members F) : Except Failure Unit := do
  require (isText (getItem lease "node_id") nodeId) "lease_node_mismatch"
  let purpose ← orFail "unsafe_command_profile" (expectedPurpose profile)
  require (isText (getItem lease "purpose") (ofString purpose)) "unsafe_command_profile"
  require (schema ≠ .bounded || profile ∈ boundedProfiles.map ofString) "unsafe_command_profile"
  require (isTrue (getItem lease "operator_approved") &&
    isTextThat isApprovalId (getItem lease "operator_approval_id")) "operator_approval_missing"

section

variable [FloatValue F]

/-- Who else uses the host. -/
def checkSharing (schema : Schema) (lease : Members F) : Except Failure Unit :=
  match schema with
  | .bounded => do
    require (isText (getItem lease "isolation_mode") (ofString "bounded_shared") &&
      isCount (getItem lease "interactive_sessions_active") &&
      isCount (getItem lease "interactive_ao_workloads_active") &&
      isCount (getItem lease "ssh_connections_active")) "lease_schema_mismatch"
    require (pyEq (getItem lease "conflicting_lease_ids") (.list [])) "conflicting_lease"
    require (pyEq (getItem lease "conflicting_workload_ids") (.list [])) "conflicting_workload"
    require (pyEq (getItem lease "conflicting_scratch_roots") (.list [])) "conflicting_scratch_root"
    require (isTrue (getItem lease "resource_limits_satisfied")) "resource_limits_exceeded"
  | .exclusive => do
    require (isTrue (getItem lease "exclusive_use_confirmed")) "exclusive_use_unconfirmed"
    require (isInt 0 (getItem lease "interactive_sessions_active")) "interactive_session_active"
    require (pyEq (getItem lease "overlapping_lease_ids") (.list [])) "overlapping_lease"
  | .locked => do
    require (isTrue (getItem lease "exclusive_use_confirmed")) "exclusive_use_unconfirmed"
    require (isInt 0 (getItem lease "interactive_ao_workloads_active")) "interactive_workload_active"
    require
      (isInt 0 (getItem lease "interactive_sessions_active") &&
          isText (getItem lease "interactive_session_state") (ofString "none") ||
        isInt 1 (getItem lease "interactive_sessions_active") &&
          isText (getItem lease "interactive_session_state") (ofString "locked"))
      "interactive_session_active"
    require (pyEq (getItem lease "overlapping_lease_ids") (.list [])) "overlapping_lease"

end

/-- What the operator allows. -/
def checkConsent (profile : PyStr) (lease : Members F) : Except Failure Unit := do
  require (isText (getItem lease "command_profile") profile) "unsafe_command_profile"
  require (isTrue (getItem lease "natural_completion_only")) "natural_completion_required"
  require (isFalse (getItem lease "allow_broad_process_termination"))
    "broad_process_termination_forbidden"
  require (isFalse (getItem lease "allow_graphical_session_mutation"))
    "graphical_session_mutation_forbidden"
  require (isFalse (getItem lease "abort_requested")) "lease_aborted"
  require (isFalse (getItem lease "released")) "lease_released"

/-- The lease is in force, and its heartbeat is recent. -/
def checkTimes [WorkerLibrary] (now : ℤ) (lease : Members F) : Except Failure Unit :=
  match parseUtcTimestamp (getItem lease "issued_at"), parseUtcTimestamp (getItem lease "expires_at"),
      parseUtcTimestamp (getItem lease "heartbeat_at") with
  | some issuedAt, some expiresAt, some heartbeatAt => do
    require (issuedAt ≤ now) "lease_not_yet_valid"
    require (now < expiresAt) "lease_expired"
    require (issuedAt < expiresAt && expiresAt - issuedAt ≤ maxPhysicalHostLeaseTtl)
      "lease_ttl_out_of_bounds"
    require (issuedAt ≤ heartbeatAt && heartbeatAt ≤ now) "lease_schema_mismatch"
    require (now - heartbeatAt ≤ maxPhysicalHostHeartbeatAge) "stale_lease_heartbeat"
  | _, _, _ => .error (.failed "lease_schema_mismatch")

/-- Everything about a lease that does not need the file system. -/
def checkLease [FloatValue F] [WorkerLibrary] (nodeId profile : PyStr) (now : ℤ) (lease : Members F) :
    Except Failure (Schema × PyStr) := do
  let schema ← readSchema lease
  require (hasKeys lease schema.requiredFields) "lease_schema_mismatch"
  let leaseId ← readLeaseId lease
  checkNames schema nodeId profile lease
  checkSharing schema lease
  checkConsent profile lease
  checkTimes now lease
  pure (schema, leaseId)

/-! ### The scratch directory -/

/-- What the file system and `os.path` say about paths, which depends on the platform. -/
structure Host where
  /-- `str(factory_root.resolve(strict=False))`, unless it raises. -/
  factoryRoot : Option PyStr
  /-- `str(Path(path) / name)`. -/
  join : PyStr → PyStr → PyStr
  /-- `os.path.abspath(str(Path(text)))`, unless it raises. -/
  abspath : PyStr → Option PyStr
  normcase : PyStr → PyStr
  /-- `Path(path).is_symlink()`, unless it raises. -/
  isSymlink : PyStr → Option Bool

def leaseParentName : PyStr := ofString ".ao2-physical-host-leases"

variable (host : Host)

/-- The scratch directory of a lease is its own, below the factory root, and all that it cleans up. -/
def checkScratch [FloatValue F] (lease : Members F) (leaseId : PyStr) : Except Failure PyStr := do
  let root ← orRaise host.factoryRoot
  let leaseParent := host.join root leaseParentName
  let expectedScratch := host.join leaseParent leaseId
  match getItem lease "scratch_root" with
  | .str scratch =>
    let path ← orRaise (host.abspath scratch)
    require (host.normcase path = host.normcase expectedScratch) "unsafe_scratch_root"
    let parentLinked ← orRaise (host.isSymlink leaseParent)
    require (!parentLinked) "unsafe_scratch_root"
    let linked ← orRaise (host.isSymlink scratch)
    require (!linked) "unsafe_scratch_root"
    require (pyEq (getItem lease "cleanup_roots") (.list [.str scratch])) "unsafe_cleanup_root"
    pure expectedScratch
  | _ => .error (.failed "unsafe_scratch_root")

/-! ### The validation -/

/-- The result for a lease that is accepted. -/
structure Accepted (F : Type) where
  leaseId : PyStr
  leaseSha256 : PyStr
  scratchRoot : PyStr
  expiresAt : PyJson F
  isolationMode : Option String

/-- Validate a lease. -/
def validatePhysicalHostLease [FloatValue F] [WorkerLibrary] (limits : LoadLimits)
    (encoded expectedSha256 : PyJson F) (nodeId profile : PyStr) (now : ℤ) :
    Except Failure (Accepted F) := do
  let (raw, actualSha256) ← leaseBytes encoded expectedSha256
  let lease ← readLease limits raw
  let (schema, leaseId) ← checkLease nodeId profile now lease
  let scratchRoot ← checkScratch host lease leaseId
  pure {
    leaseId := leaseId
    leaseSha256 := actualSha256
    scratchRoot := scratchRoot
    expiresAt := getItem lease "expires_at"
    isolationMode := if schema = .bounded then some "bounded_shared" else none }

end Lease

end Ao2
