import Ao2.Worker.Lease
import Ao2.Worker.Signed

/-!
# What an accepted lease says

A lease that is accepted says all that a qualification on the host relies on, whatever JSON values it was
given as. The validation comes to a result as long as what it calls does: `json.loads` raises nothing but a
`JSONDecodeError`, and the file system answers about the scratch directory.

## Main results

* `sound_of_accepted` — an accepted lease is sound
* `raises_validate_iff` — when the validation raises
-/

namespace Ao2

open Python

namespace Lease

variable {F : Type}

/-! ### What a lease says -/

/-- The host is used by nobody else, or is shared within bounds. -/
def Isolated (lease : Members F) : Schema → Prop
  | .bounded =>
    getItem lease "isolation_mode" = .str (ofString "bounded_shared") ∧
      (∀ key ∈ ["interactive_sessions_active", "interactive_ao_workloads_active",
        "ssh_connections_active"], ∃ n : ℕ, getItem lease key = .int n) ∧
      (∀ key ∈ ["conflicting_lease_ids", "conflicting_workload_ids", "conflicting_scratch_roots"],
        getItem lease key = .list []) ∧
      getItem lease "resource_limits_satisfied" = .bool true
  | .exclusive =>
    getItem lease "exclusive_use_confirmed" = .bool true ∧
      getItem lease "interactive_sessions_active" = .int 0 ∧
      getItem lease "overlapping_lease_ids" = .list []
  | .locked =>
    getItem lease "exclusive_use_confirmed" = .bool true ∧
      getItem lease "interactive_ao_workloads_active" = .int 0 ∧
      (getItem lease "interactive_sessions_active" = .int 0 ∧
          getItem lease "interactive_session_state" = .str (ofString "none") ∨
        getItem lease "interactive_sessions_active" = .int 1 ∧
          getItem lease "interactive_session_state" = .str (ofString "locked")) ∧
      getItem lease "overlapping_lease_ids" = .list []

/-- The times of a lease: it is in force, for a bounded time, and its heartbeat is recent. -/
structure InForce [WorkerLibrary] (now : ℤ) (lease : Members F) (issuedAt expiresAt heartbeatAt : ℤ) :
    Prop where
  issued : parseUtcTimestamp (getItem lease "issued_at") = some issuedAt
  expires : parseUtcTimestamp (getItem lease "expires_at") = some expiresAt
  heartbeat : parseUtcTimestamp (getItem lease "heartbeat_at") = some heartbeatAt
  issued_le : issuedAt ≤ heartbeatAt
  heartbeat_le : heartbeatAt ≤ now
  lt_expires : now < expiresAt
  ttl : expiresAt - issuedAt ≤ maxPhysicalHostLeaseTtl
  age : now - heartbeatAt ≤ maxPhysicalHostHeartbeatAge

/-- The text of a lease: UTF-8 and JSON, with the digest that was given and without a key that is there
twice. -/
structure Written [FloatText F] [WorkerLibrary] (limits : LoadLimits) (encoded expectedSha256 : PyJson F)
    (lease : Members F) : Prop where
  exists_text : ∃ encodedText raw text, encoded = .str encodedText ∧ b64decode encodedText = some raw ∧
    raw.length ≤ maxPhysicalHostLeaseBytes ∧ expectedSha256 = .str (sha256Hex raw) ∧
    decodeUtf8 raw = some text ∧ loadsPairs limits text = .ok (.dict lease)
  unique : NoDuplicateKeys (.dict lease)

/-- What is to hold of the names in a lease, its approval and its consents. -/
structure Granted (schema : Schema) (nodeId profile leaseId : PyStr) (lease : Members F) : Prop where
  schemaVersion : getItem lease "schema_version" = .str (ofString schema.text)
  fields : ∀ key, key ∈ lease.map Prod.fst ↔ key ∈ schema.requiredFields.map ofString
  lease_id : getItem lease "lease_id" = .str leaseId
  leaseId_shape : isLeaseId leaseId = true
  node : getItem lease "node_id" = .str nodeId
  command_profile : getItem lease "command_profile" = .str profile
  purpose : ∃ purpose, expectedPurpose profile = some purpose ∧
    getItem lease "purpose" = .str (ofString purpose)
  bounded : schema = .bounded → profile ∈ boundedProfiles.map ofString
  approved : getItem lease "operator_approved" = .bool true
  approval : ∃ s, getItem lease "operator_approval_id" = .str s ∧ isApprovalId s = true
  natural : getItem lease "natural_completion_only" = .bool true
  terminates : getItem lease "allow_broad_process_termination" = .bool false
  mutates : getItem lease "allow_graphical_session_mutation" = .bool false
  abort : getItem lease "abort_requested" = .bool false
  released : getItem lease "released" = .bool false

/-- The scratch directory of a lease is its own below the factory root, and nothing else is cleaned up. -/
structure OwnScratch (host : Host) (leaseId : PyStr) (lease : Members F) (scratchRoot : PyStr) : Prop where
  exists_root : ∃ root scratch path, host.factoryRoot = some root ∧
    scratchRoot = host.join (host.join root leaseParentName) leaseId ∧
    getItem lease "scratch_root" = .str scratch ∧ host.abspath scratch = some path ∧
    host.normcase path = host.normcase scratchRoot ∧
    host.isSymlink (host.join root leaseParentName) = some false ∧ host.isSymlink scratch = some false ∧
    getItem lease "cleanup_roots" = .list [.str scratch]

/-- What an accepted lease says. -/
def Sound [FloatText F] [WorkerLibrary] (host : Host) (limits : LoadLimits)
    (encoded expectedSha256 : PyJson F) (nodeId profile : PyStr) (now : ℤ) (accepted : Accepted F) : Prop :=
  ∃ lease schema issuedAt expiresAt heartbeatAt,
    Written limits encoded expectedSha256 lease ∧ Granted schema nodeId profile accepted.leaseId lease ∧
    Isolated lease schema ∧ InForce now lease issuedAt expiresAt heartbeatAt ∧
    OwnScratch host accepted.leaseId lease accepted.scratchRoot

/-! ### Checks of values -/

@[simp] theorem require_eq_ok {c : Bool} {category : String} {u : Unit} :
    require c category = .ok u ↔ c = true := by
  cases c <;> simp [require]

@[simp] theorem orFail_eq_ok {α : Type} {category : String} {o : Option α} {a : α} :
    orFail category o = .ok a ↔ o = some a := by
  cases o <;> simp [orFail]

@[simp] theorem orRaise_eq_ok {α : Type} {o : Option α} {a : α} : orRaise o = .ok a ↔ o = some a := by
  cases o <;> simp [orRaise]

theorem isText_eq_true {v : PyJson F} {s : PyStr} : isText v s = true ↔ v = .str s := by
  cases v <;> simp [isText]

theorem isTrue_eq_true {v : PyJson F} : isTrue v = true ↔ v = .bool true := by
  cases v <;> simp [isTrue]

theorem isFalse_eq_true {v : PyJson F} : isFalse v = true ↔ v = .bool false := by
  cases v <;> simp [isFalse]

theorem isInt_eq_true {n : ℤ} {v : PyJson F} : isInt n v = true ↔ v = .int n := by
  cases v <;> simp [isInt]

theorem isCount_eq_true {v : PyJson F} : isCount v = true ↔ ∃ n : ℕ, v = .int n := by
  cases v with
  | int n =>
    simp only [isCount, decide_eq_true_eq, PyJson.int.injEq]
    exact ⟨fun h => ⟨n.toNat, (Int.toNat_of_nonneg h).symm⟩, fun ⟨m, hm⟩ => hm ▸ Int.natCast_nonneg m⟩
  | _ => simp [isCount]

theorem isTextThat_eq_true {p : PyStr → Bool} {v : PyJson F} :
    isTextThat p v = true ↔ ∃ s, v = .str s ∧ p s = true := by
  cases v <;> simp [isTextThat]

section

variable [FloatValue F]

theorem pyEq_nil {v : PyJson F} : pyEq v (.list []) = true ↔ v = .list [] := by
  cases v with
  | list items => cases items <;> simp [pyEq, sameValue, sameItems]
  | _ => simp [pyEq, sameValue, numberEq]

theorem sameValue_str {v : PyJson F} {s : PyStr} : sameValue v (.str s) = true ↔ v = .str s := by
  cases v <;> simp [sameValue, numberEq]

theorem pyEq_singleton {v : PyJson F} {s : PyStr} :
    pyEq v (.list [.str s]) = true ↔ v = .list [.str s] := by
  cases v with
  | list items =>
    match items with
    | [] => simp [pyEq, sameValue, sameItems]
    | [item] => simp [pyEq, sameValue, sameItems, sameValue_str]
    | item :: item' :: items => simp [pyEq, sameValue, sameItems]
  | _ => simp [pyEq, sameValue, numberEq]

end

theorem mem_keys_iff_of_hasKeys {members : Members F} {keys : List String}
    (h : hasKeys members keys = true) (key : PyStr) :
    key ∈ members.map Prod.fst ↔ key ∈ keys.map ofString := by
  rw [hasKeys, Bool.and_eq_true, List.all_eq_true, List.all_eq_true] at h
  constructor
  · intro hkey
    obtain ⟨m, hm, rfl⟩ := List.mem_map.mp hkey
    exact of_decide_eq_true (h.2 m hm)
  · intro hkey
    obtain ⟨key, hmem, rfl⟩ := List.mem_map.mp hkey
    obtain ⟨value, hvalue⟩ := Option.isSome_iff_exists.mp (h.1 key hmem)
    obtain ⟨before, after, rfl, -⟩ := List.lookup_eq_some_iff.mp hvalue
    simp

/-! ### The stages -/

section

variable [WorkerLibrary] {encoded expectedSha256 : PyJson F} {raw : Bytes} {digest : PyStr}

theorem leaseBytes_eq_ok (h : leaseBytes encoded expectedSha256 = .ok (raw, digest)) :
    ∃ encodedText, encoded = .str encodedText ∧ b64decode encodedText = some raw ∧
      raw.length ≤ maxPhysicalHostLeaseBytes ∧ expectedSha256 = .str (sha256Hex raw) := by
  cases encoded with
  | str text =>
    simp only [leaseBytes, bind_eq_ok, exists_const, require_eq_ok, orFail_eq_ok, decide_eq_true_eq,
      pure, Except.pure, Except.ok.injEq, Prod.mk.injEq] at h
    obtain ⟨-, raw', hraw, hlength, -, hdigest, rfl, -⟩ := h
    exact ⟨text, rfl, hraw, hlength, isText_eq_true.mp hdigest⟩
  | _ => simp [leaseBytes] at h

omit [WorkerLibrary] in
theorem readLease_eq_ok [FloatText F] {limits : LoadLimits} {lease : Members F}
    (h : readLease limits raw = .ok lease) :
    (∃ text, decodeUtf8 raw = some text ∧ loadsPairs limits text = .ok (.dict lease)) ∧
      NoDuplicateKeys (.dict lease) := by
  simp only [readLease, bind_eq_ok, exists_const, orFail_eq_ok, mapError_eq_ok, require_eq_ok,
    Bool.not_eq_true', hasDuplicateKeys_eq_false_iff] at h
  obtain ⟨text, htext, tree, htree, hunique, h⟩ := h
  rw [strictObject_of_noDuplicateKeys tree hunique] at h
  cases tree with
  | dict members =>
    cases h
    exact ⟨⟨text, htext, htree⟩, hunique⟩
  | _ => cases h

omit [WorkerLibrary] in
theorem readSchema_eq_ok {lease : Members F} {schema : Schema} (h : readSchema lease = .ok schema) :
    getItem lease "schema_version" = .str (ofString schema.text) := by
  rw [readSchema] at h
  split_ifs at h with hlocked hexclusive hbounded
  · cases h
    exact isText_eq_true.mp hlocked
  · cases h
    exact isText_eq_true.mp hexclusive
  · cases h
    exact isText_eq_true.mp hbounded

omit [WorkerLibrary] in
theorem readLeaseId_eq_ok {lease : Members F} {leaseId : PyStr} (h : readLeaseId lease = .ok leaseId) :
    getItem lease "lease_id" = .str leaseId ∧ isLeaseId leaseId = true := by
  rw [readLeaseId] at h
  cases hid : getItem lease "lease_id" with
  | str s =>
    simp only [hid] at h
    split_ifs at h with hshape
    cases h
    exact ⟨rfl, hshape⟩
  | _ => simp [hid] at h

omit [WorkerLibrary] in
theorem isolated_of_checkSharing [FloatValue F] {schema : Schema} {lease : Members F}
    (h : checkSharing schema lease = .ok ()) : Isolated lease schema := by
  cases schema with
  | bounded =>
    simp only [checkSharing, seq_eq_ok, require_eq_ok, Bool.and_eq_true, isText_eq_true, isCount_eq_true,
      pyEq_nil, isTrue_eq_true] at h
    obtain ⟨⟨⟨⟨hmode, hsessions⟩, hworkloads⟩, hconnections⟩, hleases, hids, hroots, hlimits⟩ := h
    refine ⟨hmode, ?_, ?_, hlimits⟩
    · simpa using ⟨hsessions, hworkloads, hconnections⟩
    · simpa using ⟨hleases, hids, hroots⟩
  | exclusive =>
    simp only [checkSharing, seq_eq_ok, require_eq_ok, isTrue_eq_true, isInt_eq_true, pyEq_nil] at h
    exact h
  | locked =>
    simp only [checkSharing, seq_eq_ok, require_eq_ok, Bool.and_eq_true, Bool.or_eq_true, isTrue_eq_true,
      isInt_eq_true, isText_eq_true, pyEq_nil] at h
    exact h

theorem inForce_of_checkTimes {now : ℤ} {lease : Members F} (h : checkTimes now lease = .ok ()) :
    ∃ issuedAt expiresAt heartbeatAt, InForce now lease issuedAt expiresAt heartbeatAt := by
  rw [checkTimes] at h
  split at h
  case h_1 issuedAt expiresAt heartbeatAt hissued hexpires hheartbeat =>
    simp only [seq_eq_ok, require_eq_ok, decide_eq_true_eq, Bool.and_eq_true] at h
    obtain ⟨-, hexpires', ⟨-, httl⟩, ⟨hissued', hheartbeat'⟩, hage⟩ := h
    exact ⟨issuedAt, expiresAt, heartbeatAt, hissued, hexpires, hheartbeat, hissued', hheartbeat', hexpires',
      httl, hage⟩
  case h_2 => cases h

theorem checkLease_eq_ok [FloatValue F] {nodeId profile leaseId : PyStr} {now : ℤ} {lease : Members F}
    {schema : Schema} (h : checkLease nodeId profile now lease = .ok (schema, leaseId)) :
    Granted schema nodeId profile leaseId lease ∧ Isolated lease schema ∧
      ∃ issuedAt expiresAt heartbeatAt, InForce now lease issuedAt expiresAt heartbeatAt := by
  simp only [checkLease, bind_eq_ok, exists_const, require_eq_ok, pure, Except.pure, Except.ok.injEq,
    Prod.mk.injEq] at h
  obtain ⟨schema', hschema, hkeys, leaseId', hid, _, hnames, _, hsharing, _, hconsent, _, htimes, rfl,
    rfl⟩ := h
  simp only [checkNames, bind_eq_ok, exists_const, require_eq_ok, orFail_eq_ok, isText_eq_true,
    Bool.and_eq_true, isTrue_eq_true, isTextThat_eq_true, Bool.or_eq_true, decide_eq_true_eq] at hnames
  obtain ⟨hnode, purpose, hpurpose, hnamed, hbounded, happroved, happroval⟩ := hnames
  simp only [checkConsent, seq_eq_ok, require_eq_ok, isText_eq_true, isTrue_eq_true,
    isFalse_eq_true] at hconsent
  obtain ⟨hprofile, hnatural, hterminates, hmutates, habort, hreleased⟩ := hconsent
  obtain ⟨hleaseId, hshape⟩ := readLeaseId_eq_ok hid
  exact ⟨⟨readSchema_eq_ok hschema, mem_keys_iff_of_hasKeys hkeys, hleaseId, hshape, hnode, hprofile,
    ⟨purpose, hpurpose, hnamed⟩, fun h => hbounded.resolve_left (absurd h), happroved, happroval, hnatural,
    hterminates, hmutates, habort, hreleased⟩, isolated_of_checkSharing hsharing,
    inForce_of_checkTimes htimes⟩

omit [WorkerLibrary] in
theorem ownScratch_of_checkScratch [FloatValue F] {host : Host} {lease : Members F}
    {leaseId scratchRoot : PyStr} (h : checkScratch host lease leaseId = .ok scratchRoot) :
    OwnScratch host leaseId lease scratchRoot := by
  simp only [checkScratch, bind_eq_ok, orRaise_eq_ok] at h
  obtain ⟨root, hroot, h⟩ := h
  cases hscratch : getItem lease "scratch_root" with
  | str scratch =>
    simp only [hscratch, bind_eq_ok, exists_const, orRaise_eq_ok, require_eq_ok, decide_eq_true_eq,
      Bool.not_eq_true', pyEq_singleton, pure, Except.pure, Except.ok.injEq] at h
    obtain ⟨path, hpath, hsame, parentLinked, hparent, rfl, linked, hlinked, rfl, hcleanup, rfl⟩ := h
    exact ⟨root, scratch, path, hroot, rfl, hscratch, hpath, hsame, hparent, hlinked, hcleanup⟩
  | _ => simp [hscratch] at h

end

/-! ### Soundness -/

section

variable [FloatValue F] [WorkerLibrary] {host : Host} {limits : LoadLimits}
  {encoded expectedSha256 : PyJson F} {nodeId profile : PyStr} {now : ℤ}

/-- **An accepted lease is sound.** -/
theorem sound_of_accepted {accepted : Accepted F}
    (h : validatePhysicalHostLease host limits encoded expectedSha256 nodeId profile now = .ok accepted) :
    Sound host limits encoded expectedSha256 nodeId profile now accepted := by
  simp only [validatePhysicalHostLease, bind_eq_ok, pure, Except.pure, Except.ok.injEq] at h
  obtain ⟨⟨raw, digest⟩, hbytes, lease, hlease, ⟨schema, leaseId⟩, hcheck, scratchRoot, hscratch, rfl⟩ := h
  obtain ⟨encodedText, hencoded, hraw, hlength, hdigest⟩ := leaseBytes_eq_ok hbytes
  obtain ⟨⟨text, htext, hloads⟩, hunique⟩ := readLease_eq_ok hlease
  obtain ⟨hgranted, hisolated, issuedAt, expiresAt, heartbeatAt, hforce⟩ := checkLease_eq_ok hcheck
  exact ⟨lease, schema, issuedAt, expiresAt, heartbeatAt,
    ⟨⟨encodedText, raw, text, hencoded, hraw, hlength, hdigest, htext, hloads⟩, hunique⟩, hgranted,
    hisolated, hforce, ownScratch_of_checkScratch hscratch⟩

end

/-! ### Totality -/

/-- A computation raises. -/
def Raises {α : Type} (x : Except Failure α) : Prop := ∃ e, x = .error (.raised e)

section

variable {α β : Type}

theorem raises_bind {x : Except Failure α} {f : α → Except Failure β} :
    Raises (x >>= f) ↔ Raises x ∨ ∃ a, x = .ok a ∧ Raises (f a) := by
  simp only [Raises, bind_eq_error]
  constructor
  · rintro ⟨e, h | ⟨a, ha, h⟩⟩
    · exact .inl ⟨e, h⟩
    · exact .inr ⟨a, ha, e, h⟩
  · rintro (⟨e, h⟩ | ⟨a, ha, e, h⟩)
    · exact ⟨e, .inl h⟩
    · exact ⟨e, .inr ⟨a, ha, h⟩⟩

@[simp] theorem not_raises_ok (a : α) : ¬ Raises (.ok a) := by simp [Raises]

@[simp] theorem not_raises_pure (a : α) : ¬ Raises (pure a) := not_raises_ok a

@[simp] theorem not_raises_failed (category : String) :
    ¬ Raises (.error (.failed category) : Except Failure α) := by simp [Raises]

@[simp] theorem not_raises_require (c : Bool) (category : String) : ¬ Raises (require c category) := by
  cases c <;> simp [require, Raises]

@[simp] theorem not_raises_orFail (category : String) (o : Option α) : ¬ Raises (orFail category o) := by
  cases o <;> simp [orFail]

@[simp] theorem raises_orRaise {o : Option α} : Raises (orRaise o) ↔ o = none := by
  cases o <;> simp [orRaise, Raises]

end

/-- The file system answers about the scratch directory of a lease, as far as it is asked. -/
def Host.Answers (host : Host) (lease : Members F) (leaseId : PyStr) : Prop :=
  ∃ root, host.factoryRoot = some root ∧
    ∀ scratch, getItem lease "scratch_root" = .str scratch → ∃ path, host.abspath scratch = some path ∧
      (host.normcase path = host.normcase (host.join (host.join root leaseParentName) leaseId) →
        ∃ linked, host.isSymlink (host.join root leaseParentName) = some linked ∧
          (linked = false → host.isSymlink scratch ≠ none))

section

variable [FloatValue F] [WorkerLibrary] (host : Host) (limits : LoadLimits)
  (encoded expectedSha256 : PyJson F) (nodeId profile : PyStr) (now : ℤ)

/-- What the validation calls comes to a result: `json.loads` raises nothing but a `JSONDecodeError`, and
for a lease that passes all that comes before the file system answers. -/
structure Answered : Prop where
  loads : ∀ raw digest text e, leaseBytes encoded expectedSha256 = .ok (raw, digest) →
    decodeUtf8 raw = some text →
      (loadsPairs limits text : Except LoadError (PyJson F)) = .error e → e = .decodeError
  paths : ∀ raw digest (lease : Members F) schema leaseId, leaseBytes encoded expectedSha256 = .ok (raw, digest) →
    readLease limits raw = .ok lease → checkLease nodeId profile now lease = .ok (schema, leaseId) →
      host.Answers lease leaseId

omit [FloatValue F] in
theorem not_raises_leaseBytes : ¬ Raises (leaseBytes encoded expectedSha256) := by
  cases encoded with
  | str text =>
    simp only [leaseBytes, raises_bind, not_raises_require, not_raises_orFail, not_raises_pure, and_false,
      exists_false, or_false, not_false_eq_true]
  | _ => exact not_raises_failed _

omit [FloatValue F] [WorkerLibrary] in
theorem not_raises_asObject (v : PyJson F) : ¬ Raises (asObject v) := by
  cases v <;> simp [asObject]

omit [FloatValue F] [WorkerLibrary] in
theorem raises_mapError {x : Except LoadError (PyJson F)} :
    Raises (x.mapError onLoadError) ↔ ∃ e, x = .error e ∧ e ≠ .decodeError := by
  cases x with
  | ok tree => simp [Except.mapError]
  | error e => cases e <;> simp [Except.mapError, Raises, onLoadError]

omit [FloatValue F] [WorkerLibrary] in
theorem raises_readLease [FloatText F] {raw : Bytes} : Raises (readLease (F := F) limits raw) ↔
    ∃ text, decodeUtf8 raw = some text ∧
      ∃ e, (loadsPairs limits text : Except LoadError (PyJson F)) = .error e ∧ e ≠ .decodeError := by
  simp only [readLease, raises_bind, not_raises_orFail, not_raises_require, false_or, orFail_eq_ok,
    not_raises_asObject, and_false, exists_false, or_false, raises_mapError]

omit [WorkerLibrary] in
theorem not_raises_checkSharing (schema : Schema) (lease : Members F) :
    ¬ Raises (checkSharing schema lease) := by
  cases schema <;> simp only [checkSharing, raises_bind, not_raises_require, and_false, exists_false,
    or_false, not_false_eq_true]

omit [FloatValue F] in
theorem not_raises_checkTimes (lease : Members F) : ¬ Raises (checkTimes now lease) := by
  rw [checkTimes]
  split
  · simp only [raises_bind, not_raises_require, and_false, exists_false, or_false, not_false_eq_true]
  · exact not_raises_failed _

theorem not_raises_checkLease (lease : Members F) : ¬ Raises (checkLease nodeId profile now lease) := by
  have hschema : ¬ Raises (readSchema lease) := by
    rw [readSchema]
    split_ifs <;> simp
  have hid : ¬ Raises (readLeaseId lease) := by
    rw [readLeaseId]
    split
    · split_ifs <;> simp
    · exact not_raises_failed _
  have hnames (schema : Schema) : ¬ Raises (checkNames schema nodeId profile lease) := by
    simp only [checkNames, raises_bind, not_raises_require, not_raises_orFail, and_false, exists_false,
      or_false, not_false_eq_true]
  have hconsent : ¬ Raises (checkConsent profile lease) := by
    simp only [checkConsent, raises_bind, not_raises_require, and_false, exists_false, or_false,
      not_false_eq_true]
  simp only [checkLease, raises_bind, hschema, hid, hnames, hconsent, not_raises_require,
    not_raises_checkSharing, not_raises_checkTimes, not_raises_pure, and_false, exists_false, or_false,
    not_false_eq_true]

omit [WorkerLibrary] in
/-- The file system is asked one thing after the other. -/
theorem raises_checkScratch (lease : Members F) (leaseId : PyStr) :
    Raises (checkScratch host lease leaseId) ↔ ¬ host.Answers lease leaseId := by
  simp only [checkScratch, raises_bind, raises_orRaise, orRaise_eq_ok, Host.Answers]
  cases hroot : host.factoryRoot with
  | none => simp
  | some root =>
    cases hscratch : getItem lease "scratch_root" with
    | str scratch =>
      cases hpath : host.abspath scratch with
      | none => simp [raises_bind, hpath]
      | some path =>
        simp only [raises_bind, hpath, raises_orRaise, orRaise_eq_ok, not_raises_require, require_eq_ok,
          not_raises_pure, decide_eq_true_eq, Bool.not_eq_true']
        by_cases hsame : host.normcase path = host.normcase (host.join (host.join root leaseParentName) leaseId)
        · cases hparent : host.isSymlink (host.join root leaseParentName) with
          | none => simp [hpath, hsame, hparent]
          | some linked => cases linked <;> simp [hpath, hsame, hparent]
        · simp [hpath, hsame]
    | _ => simp

/-- **When the validation raises**: exactly where something that it calls does. -/
theorem raises_validate_iff :
    Raises (validatePhysicalHostLease host limits encoded expectedSha256 nodeId profile now) ↔
      ¬ Answered host limits encoded expectedSha256 nodeId profile now := by
  have hraises : Raises (validatePhysicalHostLease host limits encoded expectedSha256 nodeId profile now) ↔
      ∃ raw digest, leaseBytes encoded expectedSha256 = .ok (raw, digest) ∧
        (Raises (readLease (F := F) limits raw) ∨
          ∃ lease : Members F, readLease limits raw = .ok lease ∧ ∃ schema leaseId,
            checkLease nodeId profile now lease = .ok (schema, leaseId) ∧
              Raises (checkScratch host lease leaseId)) := by
    simp only [validatePhysicalHostLease, raises_bind, not_raises_leaseBytes, not_raises_checkLease,
      not_raises_pure, Prod.exists, and_false, exists_false, or_false, false_or]
  rw [hraises]
  constructor
  · rintro ⟨raw, digest, hbytes, hread | ⟨lease, hlease, schema, leaseId, hcheck, hscratch⟩⟩ hanswered
    · obtain ⟨text, htext, e, he, hne⟩ := (raises_readLease limits).mp hread
      exact hne (hanswered.loads raw digest text e hbytes htext he)
    · exact (raises_checkScratch host lease leaseId).mp hscratch
        (hanswered.paths raw digest lease schema leaseId hbytes hlease hcheck)
  · intro hanswered
    by_contra hnot
    refine hanswered ⟨fun raw digest text e hbytes htext he => ?_,
      fun raw digest lease schema leaseId hbytes hlease hcheck => ?_⟩
    · by_contra hne
      exact hnot ⟨raw, digest, hbytes, .inl ((raises_readLease limits).mpr ⟨text, htext, e, he, hne⟩)⟩
    · by_contra hpaths
      exact hnot ⟨raw, digest, hbytes, .inr ⟨lease, hlease, schema, leaseId, hcheck,
        (raises_checkScratch host lease leaseId).mpr hpaths⟩⟩

/-- The validation comes to a result, and what it accepts is sound. -/
def SoundAndTotal : Prop :=
  ¬ Raises (validatePhysicalHostLease host limits encoded expectedSha256 nodeId profile now) ∧
    ∀ accepted, validatePhysicalHostLease host limits encoded expectedSha256 nodeId profile now = .ok accepted →
      Sound host limits encoded expectedSha256 nodeId profile now accepted

/-- **The validation is sound, and total where what it calls comes to a result.** -/
theorem soundAndTotal_iff : SoundAndTotal host limits encoded expectedSha256 nodeId profile now ↔
    Answered host limits encoded expectedSha256 nodeId profile now := by
  rw [SoundAndTotal, raises_validate_iff, not_not]
  exact and_iff_left fun accepted h => sound_of_accepted h

end

/-! ### A lease that is a number -/

section

/-- Four thousand three hundred and one digits: one more than an integer may have. -/
def manyDigits : Bytes := List.replicate 4301 49

/-- The digits in base64. -/
def manyDigitsBase64 : PyStr :=
  (List.replicate 1433 (ofString "MTEx")).flatten ++ ofString "MTE="

def manyDigitsSha256 : PyStr := ofString "8afececf38e8946df9cff0bb388b1f2909aaa9f595a91450a1c0d69407c3ec36"

/-- The digits in base64 are read, and have their digest. -/
@[reducible] def digitsLibrary : WorkerLibrary where
  sha256Hex _ := manyDigitsSha256
  b64decode text := if text = manyDigitsBase64 then some manyDigits else none
  fromIsoFormat _ := none

attribute [local instance] valueTexts digitsLibrary

def plainHost : Host where
  factoryRoot := some (ofString "/factory")
  join path name := path ++ ofString "/" ++ name
  abspath := some
  normcase := id
  isSymlink _ := some false

def interpreterLimits : LoadLimits := ⟨1000, 4300⟩

theorem length_manyDigitsBase64 : manyDigitsBase64.length = 5736 := by
  have hunit : (ofString "MTEx").length = 4 := rfl
  have hend : (ofString "MTE=").length = 4 := rfl
  rw [manyDigitsBase64, List.length_append, List.length_flatten, List.map_replicate, hunit, hend,
    List.sum_replicate_nat]

theorem decodeUtf8_manyDigits : decodeUtf8 manyDigits = some (List.replicate 4301 '1') := by
  have hall : manyDigits.all (·.toNat < 128) = true := by
    rw [List.all_eq_true]
    intro b hb
    rw [List.eq_of_mem_replicate hb]
    rfl
  refine decodeUtf8_of_ascii ?_
  rw [decodeAscii, if_pos hall, manyDigits, List.map_replicate]
  rfl

theorem leaseBytes_manyDigits :
    leaseBytes (.str manyDigitsBase64 : PyJson (List Char)) (.str manyDigitsSha256) =
      .ok (manyDigits, manyDigitsSha256) := by
  have hshort : manyDigitsBase64.length ≤ maxEncodedLetters := by
    rw [length_manyDigitsBase64]
    decide
  have hdecode : b64decode manyDigitsBase64 = some manyDigits := if_pos rfl
  have hlength : manyDigits.length ≤ maxPhysicalHostLeaseBytes := by
    rw [manyDigits, List.length_replicate]
    decide
  have hdigest : isTextThat isDigest (.str manyDigitsSha256 : PyJson (List Char)) = true := by decide
  have hsame : isText (.str manyDigitsSha256 : PyJson (List Char)) (sha256Hex manyDigits) = true :=
    isText_eq_true.mpr rfl
  simp only [leaseBytes, bind_eq_ok, exists_const, require_eq_ok, orFail_eq_ok, decide_eq_true_eq]
  exact ⟨hshort, manyDigits, hdecode, hlength, hdigest, hsame, rfl⟩

/-- A lease that is a number of too many digits raises a plain `ValueError`. -/
theorem not_soundAndTotal_manyDigits :
    ¬ SoundAndTotal plainHost interpreterLimits (.str manyDigitsBase64 : PyJson (List Char))
      (.str manyDigitsSha256) (ofString "node-1") (ofString "windows_stack_qualification:physical_unique")
      0 := by
  rintro ⟨htotal, -⟩
  refine htotal ((raises_validate_iff _ _ _ _ _ _ _).mpr fun hanswered => ?_)
  have hloads : (loadsPairs interpreterLimits (List.replicate 4301 '1') :
      Except LoadError (PyJson (List Char))) = .error .valueError :=
    loadsPairs_digits (n := 4300) (by decide)
  cases hanswered.loads manyDigits manyDigitsSha256 _ _ leaseBytes_manyDigits decodeUtf8_manyDigits hloads

end

end Lease

end Ao2
