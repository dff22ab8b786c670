import Ao2.Issues.Support
import Ao2.Json.Encoding
import Ao2.Texts.Lines

/-!
# What is built and what is accepted

A bundle that is built is accepted where it is read, and a bundle that is accepted is built for some
source. The texts of the log entries leave no trace in it.

Both sides check the same fields. What they take for a version, a category or a next action is in
its normal form already, so that the check for it on the one side says nothing new about the other.

## Main results

* `fromJson_written` — a bundle is read as it was written
-/

namespace Ao2

namespace Issues

namespace Support

open Json

/-! ### Normal forms -/

theorem splitWhitespace_of_no_space {s : String} (hne : s.toList ≠ [])
    (h : ∀ c ∈ s.toList, isWhitespace c = false) : splitWhitespace s = [s] := by
  rw [splitWhitespace, List.splitOnP_eq_singleton h, List.filter_singleton, decide_eq_true hne]
  exact congrArg (fun t => [t]) String.ofList_toList

theorem normalizeText_of_no_space {s : String} (hne : s.toList ≠ [])
    (h : ∀ c ∈ s.toList, isWhitespace c = false) : normalizeText s = s := by
  rw [normalizeText, splitWhitespace_of_no_space hne h]
  rfl

/-- What is in a text is in one of its parts, or is what they are split at. -/
theorem eq_or_mem_of_mem_intercalate {b c : Char} : {parts : List (List Char)} →
    c ∈ [b].intercalate parts → c = b ∨ ∃ part ∈ parts, c ∈ part
  | [], h => absurd h List.not_mem_nil
  | [part], h => by
    rw [List.intercalate_singleton] at h
    exact .inr ⟨part, List.mem_singleton_self part, h⟩
  | part :: part' :: parts, h => by
    rw [intercalate_cons (List.cons_ne_nil part' parts)] at h
    rcases List.mem_append.mp h with h | h
    · exact .inr ⟨part, List.mem_cons_self, h⟩
    · rcases List.mem_cons.mp h with h | h
      · exact .inl h
      · exact (eq_or_mem_of_mem_intercalate h).imp_right fun ⟨p, hp, hc⟩ =>
          ⟨p, List.mem_cons_of_mem part hp, hc⟩

/-- The characters of a version. -/
theorem chars_of_version {name value : String} (h : validateVersion name value = .ok ()) :
    value.toList ≠ [] ∧ ∀ c ∈ value.toList, c = '.' ∨ c.isDigit = true := by
  rw [validateVersion] at h
  obtain ⟨-, h⟩ := seq_eq_ok.mp h
  rw [bailIf_eq_ok, not_or, not_not, Bool.not_eq_true, List.any_eq_false] at h
  obtain ⟨hlength, hcomponents⟩ := h
  refine ⟨fun hnil => ?_, fun c hc => ?_⟩
  · rw [hnil] at hlength
    exact absurd hlength.1 (by decide)
  · have hparts : ['.'].intercalate (value.toList.splitOn '.') = value.toList :=
      List.intercalate_splitOn '.'
    rw [← hparts] at hc
    refine (eq_or_mem_of_mem_intercalate hc).imp_right fun ⟨component, hcomponent, hmem⟩ => ?_
    have hdigits := hcomponents component hcomponent
    rw [Bool.or_eq_true, not_or, Bool.not_eq_true, Bool.not_eq_true, Bool.not_eq_false',
      List.all_eq_true] at hdigits
    exact hdigits.2 c hmem

theorem normalizeText_version {name value : String} (h : validateVersion name value = .ok ()) :
    normalizeText value = value := by
  obtain ⟨hne, hchars⟩ := chars_of_version h
  refine normalizeText_of_no_space hne fun c hc => ?_
  rcases hchars c hc with rfl | hdigit
  · decide
  · exact isWhitespace_of_isDigit hdigit

theorem normal_workflows : ∀ s ∈ allowedWorkflows, s = normalizeText s := by decide

theorem normal_verifiers : ∀ s ∈ allowedVerifiers, s = normalizeText s := by decide

theorem normal_categories :
    ∀ s ∈ allowedFailureCategories, s = toAsciiLowercase (normalizeText s) := by decide

theorem normal_phases : ∀ s ∈ allowedFailurePhases, s = toAsciiLowercase (normalizeText s) := by
  decide

theorem normal_nextActions : ∀ s ∈ allowedNextActions, s = normalizeText s := by decide

theorem normal_systems : ∀ s ∈ ["linux", "macos", "windows"], s = toAsciiLowercase (trim s) := by
  decide

theorem normal_architectures : ∀ s ∈ ["aarch64", "x86_64"], s = toAsciiLowercase (trim s) := by
  decide

/-- The fields of a product that are accepted are in their normal form. -/
theorem normalization_of_metadata {b : SupportBundle} (h : validateProductMetadata b = .ok ()) :
    validateBundleNormalization b = .ok () := by
  simp only [validateProductMetadata, seq_eq_ok, validateAllowed, bailIf_eq_ok, not_not] at h
  obtain ⟨hversion, hcontrol, hos, harchitecture, hworkflow, hverifier, hcategory, hphase, haction⟩ := h
  simp only [validateBundleNormalization, bailIf_eq_ok, not_or, ne_eq, not_not]
  exact ⟨(normalizeText_version hversion).symm, (normalizeText_version hcontrol).symm,
    normal_systems _ hos, normal_architectures _ harchitecture, normal_workflows _ hworkflow,
    normal_verifiers _ hverifier, normal_categories _ hcategory, normal_phases _ hphase,
    normal_nextActions _ haction⟩

/-! ### Logs -/

/-- The entries that are written for some number of log entries. -/
def placeholders (n : ℕ) : List SanitizedLog :=
  (List.range n).map fun index => ⟨index + 1, "[REDACTED_LOG]"⟩

theorem length_placeholders (n : ℕ) : (placeholders n).length = n := by
  rw [placeholders, List.length_map, List.length_range]

theorem map_zipIdx {α : Type} (l : List α) :
    (l.zipIdx.map fun a => (⟨a.2 + 1, "[REDACTED_LOG]"⟩ : SanitizedLog)) = placeholders l.length := by
  rw [placeholders, List.range_eq_range', ← List.zipIdx_map_snd 0 l, List.map_map]
  rfl

/-- A list whose members are each checked and then made into something. -/
theorem mapM_eq_ok_iff {α β : Type} {check : α → Except String β} {P : α → Prop} {f : α → β}
    (h : ∀ a b, check a = .ok b ↔ P a ∧ b = f a) {l : List α} {bs : List β} :
    l.mapM check = .ok bs ↔ (∀ a ∈ l, P a) ∧ bs = l.map f := by
  rw [mapM_eq_ok]
  induction l generalizing bs with
  | nil => simp
  | cons a l ih =>
    rw [List.forall₂_cons_left_iff, List.forall_mem_cons, List.map_cons]
    constructor
    · rintro ⟨b, bs, hb, hbs, rfl⟩
      obtain ⟨ha, rfl⟩ := (h a b).mp hb
      obtain ⟨hl, rfl⟩ := ih.mp hbs
      exact ⟨⟨ha, hl⟩, rfl⟩
    · rintro ⟨⟨ha, hl⟩, rfl⟩
      exact ⟨f a, l.map f, (h a (f a)).mpr ⟨ha, rfl⟩, ih.mpr ⟨hl, rfl⟩, rfl⟩

theorem sanitizeLog_eq_ok (raw : String) (index : ℕ) (log : SanitizedLog) :
    sanitizeLog raw index = .ok log ↔ (validateText "log entry" raw maxLogBytes = .ok () ∧
      looksLikePrivateSource raw = false) ∧ log = ⟨index + 1, "[REDACTED_LOG]"⟩ := by
  rw [sanitizeLog, seq_eq_ok, seq_eq_ok, bailIf_eq_ok, Bool.not_eq_true, and_assoc]
  exact and_congr_right fun _ => and_congr_right fun _ =>
    ⟨fun h => (Except.ok.inj h).symm, fun h => congrArg Except.ok h.symm⟩

/-- **Nothing of the log entries is left but how many there are.** -/
theorem sanitizeLogs_eq_ok {logs : List String} {sanitized : List SanitizedLog}
    {redaction : RedactionSummary} :
    sanitizeLogs logs = .ok (sanitized, redaction) ↔
      (∀ raw ∈ logs, validateText "log entry" raw maxLogBytes = .ok () ∧
        looksLikePrivateSource raw = false) ∧
      sanitized = placeholders logs.length ∧ redaction = ⟨logs.length, logs.length⟩ := by
  have hall : (∀ a ∈ logs.zipIdx, validateText "log entry" a.1 maxLogBytes = .ok () ∧
      looksLikePrivateSource a.1 = false) ↔ ∀ raw ∈ logs,
        validateText "log entry" raw maxLogBytes = .ok () ∧ looksLikePrivateSource raw = false := by
    conv_rhs => rw [← List.zipIdx_map_fst 0 logs, List.forall_mem_map]
  rw [sanitizeLogs, bind_eq_ok, ← hall]
  have hmapM := @mapM_eq_ok_iff _ _ (fun a : String × ℕ => sanitizeLog a.1 a.2) _ _
    (fun a log => sanitizeLog_eq_ok a.1 a.2 log) logs.zipIdx
  constructor
  · rintro ⟨sanitized', hmap, h⟩
    obtain ⟨rfl, rfl⟩ := Prod.mk.inj (Except.ok.inj h)
    obtain ⟨hlogs, rfl⟩ := hmapM.mp hmap
    exact ⟨hlogs, map_zipIdx logs, rfl⟩
  · rintro ⟨hlogs, rfl, rfl⟩
    exact ⟨_, hmapM.mpr ⟨hlogs, (map_zipIdx logs).symm⟩, rfl⟩

theorem validateLog_eq_ok {log : SanitizedLog} {index : ℕ} :
    validateLog log index = .ok () ↔ log = ⟨index + 1, "[REDACTED_LOG]"⟩ := by
  obtain ⟨sequence, text⟩ := log
  rw [validateLog, seq_eq_ok, bailIf_eq_ok, bailIf_eq_ok, not_not, not_not, SanitizedLog.mk.injEq]

/-- The entries of a bundle are those that are written. -/
theorem validateLogs_eq_ok {logs : List SanitizedLog} :
    logs.zipIdx.forM (fun (log, index) => validateLog log index) = .ok () ↔
      logs = placeholders logs.length := by
  have hlogs : (logs = placeholders logs.length) ↔ logs.zipIdx.map Prod.fst =
      logs.zipIdx.map fun a => ⟨a.2 + 1, "[REDACTED_LOG]"⟩ := by
    rw [List.zipIdx_map_fst, map_zipIdx]
  rw [forM_eq_ok, hlogs, List.map_inj_left]
  exact forall₂_congr fun a _ => validateLog_eq_ok

/-! ### What is built -/

section

variable [Platform]

/-- The bundle of a source that has some number of log entries. -/
def completed (source : SupportSource) (n : ℕ) : SupportBundle :=
  let bundle := bundleOf source (placeholders n) ⟨n, n⟩
    ("sha256:" ++ sha256Json (fingerprintSubject (draftOf source))) ""
  { bundle with bundleSha256 := sha256Json bundle.subject }

theorem buildFrom_eq_ok {source : SupportSource} {b : SupportBundle} {file : Octets} :
    buildFrom source = .ok (b, file) ↔
      validateSource (normalizeSource source) = .ok () ∧
      (∀ raw ∈ source.logs, validateText "log entry" raw maxLogBytes = .ok () ∧
        looksLikePrivateSource raw = false) ∧
      b = completed (normalizeSource source) source.logs.length ∧ file = b.file ∧
      b.file.length ≤ maxInputBytes := by
  rw [buildFrom, seq_eq_ok, bind_eq_ok]
  refine and_congr_right fun _ => ?_
  constructor
  · rintro ⟨⟨sanitized, redaction⟩, hlogs, h⟩
    obtain ⟨hall, rfl, rfl⟩ := sanitizeLogs_eq_ok.mp hlogs
    obtain ⟨hlength, h⟩ := seq_eq_ok.mp h
    obtain ⟨rfl, rfl⟩ := Prod.mk.inj (Except.ok.inj h)
    exact ⟨hall, rfl, rfl, Nat.le_of_not_lt (bailIf_eq_ok.mp hlength)⟩
  · rintro ⟨hall, rfl, rfl, hlength⟩
    exact ⟨(placeholders source.logs.length, ⟨source.logs.length, source.logs.length⟩),
      sanitizeLogs_eq_ok.mpr ⟨hall, rfl, rfl⟩,
      seq_eq_ok.mpr ⟨bailIf_eq_ok.mpr (Nat.not_lt.mpr hlength), rfl⟩⟩

/-- **A bundle that is completed for a source that was accepted is accepted.** -/
theorem validateBundle_completed {source : SupportSource} {n : ℕ}
    (h : validateSource source = .ok ()) (hn : n ≤ maxLogs) :
    validateBundle (completed source n) = .ok () := by
  simp only [validateSource, seq_eq_ok, bailIf_eq_ok, not_not, ne_eq] at h
  obtain ⟨-, hmetadata, happroval, hreplay, hevidence, hmanifest, hrelease, -, -⟩ := h
  have hlength : (completed source n).logs.length = n := length_placeholders n
  simp only [validateBundle, seq_eq_ok, bailIf_eq_ok, not_not, ne_eq, not_or]
  refine ⟨rfl, hmetadata, happroval, hreplay, hevidence, hmanifest, hrelease,
    normalization_of_metadata hmetadata, ?_, ⟨?_, ?_⟩, ?_, ?_, rfl, rfl⟩
  · rw [hlength]
    exact Nat.not_lt.mpr hn
  · exact hlength.symm
  · exact hlength.symm
  · rw [validateLogs_eq_ok, hlength]
    rfl
  · exact ⟨rfl, rfl, rfl, Bool.false_ne_true, Bool.false_ne_true, Bool.noConfusion,
      Bool.false_ne_true, Bool.false_ne_true, Bool.false_ne_true, Bool.false_ne_true,
      Bool.false_ne_true, Bool.false_ne_true⟩

/-- What is built is accepted. -/
theorem validateBundle_of_buildFrom {source : SupportSource} {b : SupportBundle} {file : Octets}
    (h : buildFrom source = .ok (b, file)) :
    validateBundle b = .ok () ∧ file = b.file ∧ b.file.length ≤ maxInputBytes := by
  obtain ⟨hsource, -, rfl, hfile, hlength⟩ := buildFrom_eq_ok.mp h
  have hlogs : source.logs.length ≤ maxLogs := by
    simp only [validateSource, seq_eq_ok, bailIf_eq_ok, Nat.not_lt] at hsource
    obtain ⟨-, -, -, -, -, -, -, hlogs, -⟩ := hsource
    exact hlogs
  exact ⟨validateBundle_completed hsource hlogs, hfile, hlength⟩

/-! ### A source for a bundle -/

/-- A source with the fields of a bundle. -/
def sourceOf (b : SupportBundle) : SupportSource where
  schemaVersion := "ao2.troubleshooting-support-source.v0.1"
  ao2Version := b.ao2Version
  controlPlaneVersion := b.controlPlaneVersion
  platform := b.platform
  workflow := b.workflow
  approval := b.approval
  replayStatus := b.replayStatus
  evidence := b.evidence
  manifestSha256 := b.manifestSha256
  releaseSha256 := b.releaseSha256
  failure := b.failure
  logs := List.replicate b.logs.length "x"
  smallestSafeNextAction := b.smallestSafeNextAction
  safety := ⟨false, false, false, false, false⟩

omit [Platform] in
theorem normalizeSource_of_normal {source : SupportSource}
    (h : validateBundleNormalization (draftOf source) = .ok ()) : normalizeSource source = source := by
  rw [validateBundleNormalization, bailIf_eq_ok] at h
  simp only [not_or, ne_eq, not_not] at h
  obtain ⟨hversion, hcontrol, hos, harchitecture, hworkflow, hverifier, hcategory, hphase, haction⟩ := h
  obtain ⟨_, _, _, ⟨_, _⟩, ⟨_, _⟩, _, _, _, _, _, ⟨_, _⟩, _, _, _⟩ := source
  dsimp only [draftOf, bundleOf] at *
  simp only [normalizeSource, ← hversion, ← hcontrol, ← hos, ← harchitecture, ← hworkflow,
    ← hverifier, ← hcategory, ← hphase, ← haction]

/-- **A bundle that is accepted is the one of the source with its fields.** -/
theorem completed_sourceOf {b : SupportBundle} (h : validateBundle b = .ok ()) :
    completed (sourceOf b) b.logs.length = b := by
  simp only [validateBundle, seq_eq_ok, bailIf_eq_ok, not_not, ne_eq, not_or] at h
  obtain ⟨hschema, -, -, -, -, -, -, -, -, ⟨hinput, hredacted⟩, hlogs, hboundary, hfingerprint,
    hdigest⟩ := h
  rw [fingerprintSubject] at hfingerprint
  rw [SupportBundle.subject] at hdigest
  obtain ⟨n, hn⟩ : ∃ n, b.logs = placeholders n := ⟨_, validateLogs_eq_ok.mp hlogs⟩
  rw [hn, length_placeholders] at hinput hredacted
  rw [hn, length_placeholders]
  simp only [Bool.not_eq_true, Bool.not_eq_false] at hboundary
  obtain ⟨htrust, hkind, hroute, hwrite, hpublic, hboundary⟩ := hboundary
  obtain ⟨hobserver, hsafe, hexecutes, hcalls, hissue, hpublicWrite, hdeployed⟩ := hboundary
  obtain ⟨schema, ao2, control, platform, workflow, approval, replay, evidence, manifest, release, failure,
    logs, ⟨input, redacted⟩, fingerprint, digest, action, ⟨trust, kind, routed, written, published⟩,
    observer, safe, executes, calls, issue, publicWrite, deployed⟩ := b
  dsimp only at *
  subst hschema hn hinput hredacted htrust hkind hroute hwrite hpublic hobserver hsafe hexecutes hcalls
    hissue hpublicWrite hdeployed hfingerprint hdigest
  rfl

theorem validateSource_sourceOf {b : SupportBundle} (h : validateBundle b = .ok ()) :
    validateSource (sourceOf b) = .ok () := by
  simp only [validateBundle, seq_eq_ok, bailIf_eq_ok, not_not, ne_eq, not_or, Nat.not_lt] at h
  obtain ⟨-, hmetadata, happroval, hreplay, hevidence, hmanifest, hrelease, -, hlogs, -⟩ := h
  simp only [validateSource, seq_eq_ok, bailIf_eq_ok, not_not, ne_eq, not_or, Nat.not_lt]
  refine ⟨rfl, hmetadata, happroval, hreplay, hevidence, hmanifest, hrelease, ?_, ?_⟩
  · rw [sourceOf, List.length_replicate]
    exact hlogs
  · exact ⟨Bool.false_ne_true, Bool.false_ne_true, Bool.false_ne_true, Bool.false_ne_true,
      Bool.false_ne_true⟩

end

/-! ### The length of a file -/

theorem weight_nat_lt {depth : ℕ} : ∀ n < 17, weight depth (.nat n) ≤ 2 := by
  simp only [Json.nat, weight]
  decide

theorem weight_bool (depth : ℕ) : (b : Bool) → weight depth (.bool b) = 5
  | true => rfl
  | false => rfl

theorem weight_str {depth : ℕ} {s : String} (h : s.utf8ByteSize ≤ 71) :
    weight depth (.str s) ≤ 428 := by
  rw [weight]
  omega

theorem weight_of_mem {depth : ℕ} {s : String} {allowed : List String} (h : s ∈ allowed)
    (hshort : ∀ a ∈ allowed, a.utf8ByteSize ≤ 71) : weight depth (.str s) ≤ 428 :=
  weight_str (hshort s h)

theorem weight_optionalText {depth : ℕ} {text : Option String}
    (h : ∀ s ∈ text, s.utf8ByteSize ≤ 71) :
    weight depth (optionalText text) ≤ 428 := by
  cases text with
  | none => exact Nat.le_of_ble_eq_true rfl
  | some s => exact weight_str (h s rfl)

/-- An object with short keys and short texts. -/
theorem weight_pair {depth : ℕ} {key key' : String} {v v' : Json} (hkey : key.utf8ByteSize ≤ 31)
    (hkey' : key'.utf8ByteSize ≤ 31) (hv : weight (depth + 2) v ≤ 428) (hv' : weight (depth + 2) v' ≤ 428) :
    weight depth (.obj [(key, v), (key', v')]) ≤ 1247 + 3 * depth := by
  simp only [weight, weightMembers]
  omega

theorem size_of_isSha256 {value : String} (h : isSha256 value = true) :
    value.utf8ByteSize = 64 := by
  rw [isSha256, Bool.and_eq_true, decide_eq_true_eq] at h
  exact h.1

theorem size_of_validateVersion {name value : String} (h : validateVersion name value = .ok ()) :
    value.utf8ByteSize ≤ 71 := by
  rw [validateVersion, seq_eq_ok, validateText, bailIf_eq_ok, not_or, not_or] at h
  omega

theorem size_of_validateStateDigest {name : String} {value : Option String} {required : Bool}
    (h : validateStateDigest name value required = .ok ()) : ∀ s ∈ value, s.utf8ByteSize ≤ 71 := by
  rintro s rfl
  simp only [validateStateDigest, seq_eq_ok, validateDigest, bailIf_eq_ok, Bool.not_eq_false] at h
  exact (size_of_isSha256 h.1).trans_le (by decide)

theorem weight_logs {n : ℕ} (hn : n ≤ maxLogs) :
    weight 2 (.arr ((placeholders n).map SanitizedLog.toJson)) ≤ 3157 := by
  have hitems (l : List ℕ) (hl : ∀ i ∈ l, i < 16) : weightItems (2 + 2)
      ((l.map fun index => (⟨index + 1, "[REDACTED_LOG]"⟩ : SanitizedLog)).map SanitizedLog.toJson) ≤
      l.length * 197 := by
    induction l with
    | nil => exact le_refl 0
    | cons i l ih =>
      have hi := @weight_nat_lt (2 + 2 + 2) (i + 1) (Nat.succ_lt_succ (hl i List.mem_cons_self))
      have hrest := ih fun j hj => hl j (List.mem_cons_of_mem i hj)
      have htext : "[REDACTED_LOG]".utf8ByteSize = 14 := rfl
      have hsequence : "sequence".utf8ByteSize = 8 := rfl
      have hkey : "text".utf8ByteSize = 4 := rfl
      rw [List.map_cons, List.map_cons, weightItems, SanitizedLog.toJson, weight, weightMembers,
        weightMembers, weightMembers, weight, htext, hsequence, hkey, List.length_cons]
      dsimp only
      omega
  have hall := hitems (List.range n) fun i hi => (List.mem_range.mp hi).trans_le hn
  rw [List.length_range] at hall
  rw [weight, placeholders]
  have hn' : n ≤ 16 := hn
  omega

theorem short_keys : ∀ key ∈ ["schema_version", "ao2_version", "control_plane_version", "platform",
    "workflow", "approval", "replay", "evidence", "manifest_sha256", "release_sha256", "failure", "logs",
    "redaction", "problem_fingerprint", "bundle_sha256", "smallest_safe_next_action",
    "governed_issue_route", "observer_only", "safe_to_execute", "executes_work", "calls_providers",
    "issue_write_performed", "public_write_performed", "release_or_deployment_performed"],
    key.utf8ByteSize ≤ 31 := by decide +kernel

theorem short_routeKeys : ∀ key ∈ ["input_trust", "evidence_kind", "problem_fingerprint",
    "issue_write_performed", "public_write_performed"], key.utf8ByteSize ≤ 31 := by decide +kernel

section

variable [Platform]

/-- **A bundle that is accepted is short.** -/
theorem weight_written (hhex : ∀ v, isSha256 (sha256Json v) = true) {b : SupportBundle}
    (h : validateBundle b = .ok ()) : weight 0 b.written ≤ 65535 := by
  simp only [validateBundle, validateProductMetadata, validateAllowed, validateApproval,
    validateEvidence, validateStatus, validateDigest, seq_eq_ok, bailIf_eq_ok, not_not, ne_eq,
    not_or, Nat.not_lt, Bool.not_eq_false, Bool.not_eq_true] at h
  obtain ⟨hschema, ⟨hversion, hcontrol, hos, harchitecture, hworkflow, hverifier, hcategory, hphase,
    haction⟩, ⟨happroval, hactionDigest⟩, hreplay, ⟨hevidence, hevidenceDigest⟩, hmanifest, hrelease, -,
    hcount, ⟨hinput, hredacted⟩, hlogs, ⟨htrust, hkind, hroute, -⟩, hfingerprint, hdigest⟩ := h
  have hhexText {s : String} (hs : isSha256 s = true) (depth : ℕ) : weight depth (.str s) ≤ 428 :=
    weight_str ((size_of_isSha256 hs).trans_le (by decide))
  have hprint (depth : ℕ) : weight depth (.str b.problemFingerprint) ≤ 428 := by
    rw [hfingerprint]
    refine weight_str ?_
    rw [String.utf8ByteSize_append, size_of_isSha256 (hhex _)]
    decide
  have hplatform : weight 2 b.platform.written ≤ 1253 :=
    weight_pair (by decide) (by decide) (weight_of_mem hos (by decide))
      (weight_of_mem harchitecture (by decide))
  have hidentity : weight 2 b.workflow.toJson ≤ 1253 :=
    weight_pair (by decide) (by decide) (weight_of_mem hworkflow (by decide))
      (weight_of_mem hverifier (by decide))
  have happrovals : weight 2 b.approval.written ≤ 1253 :=
    weight_pair (by decide) (by decide) (weight_of_mem happroval (by decide))
      (weight_optionalText (size_of_validateStateDigest hactionDigest))
  have hevidences : weight 2 b.evidence.written ≤ 1253 :=
    weight_pair (by decide) (by decide) (weight_of_mem hevidence (by decide))
      (weight_optionalText (size_of_validateStateDigest hevidenceDigest))
  have hfailure : weight 2 b.failure.toJson ≤ 1253 :=
    weight_pair (by decide) (by decide) (weight_of_mem hcategory (by decide))
      (weight_of_mem hphase (by decide))
  have hredaction : weight 2 b.redaction.written ≤ 1253 := by
    have hlt : b.logs.length < 17 := Nat.lt_succ_of_le hcount
    rw [RedactionSummary.written, hinput, hredacted]
    exact weight_pair (by decide) (by decide) ((weight_nat_lt _ hlt).trans (by decide))
      ((weight_nat_lt _ hlt).trans (by decide))
  have hstatus : weight 2 (.obj [("status", .str b.replayStatus)]) ≤ 1253 := by
    have hkey : "status".utf8ByteSize = 6 := rfl
    have htext := @weight_of_mem (2 + 2) _ _ hreplay (by decide)
    rw [weight, weightMembers, weightMembers, hkey]
    omega
  have hlog : weight 2 (.arr (b.logs.map SanitizedLog.toJson)) ≤ 3157 := by
    rw [validateLogs_eq_ok.mp hlogs]
    exact weight_logs hcount
  have hrouted : weight 2 b.governedIssueRoute.written ≤ 3137 := by
    have htrusted : weight 4 (.str "sanitized_untrusted") ≤ 428 := weight_str (by decide)
    have hbundle : weight 4 (.str "troubleshooting_support_bundle") ≤ 428 := weight_str (by decide)
    have hprinted := hprint 4
    rw [GovernedIssueRoute.written, weight, htrust, hkind, hroute]
    have hfalse (v : Bool) : weight 4 (.bool v) ≤ 5 := (weight_bool 4 v).le
    exact (Nat.add_le_add_left (@weightMembers_le _ 31 _ _ (by exact short_routeKeys) (.cons htrusted (.cons hbundle
      (.cons hprinted (.cons (hfalse _) (.cons (hfalse _) .nil)))))) _).trans (by decide)
  have hschemaText : weight 2 (.str b.schemaVersion) ≤ 428 := by
    rw [hschema]
    exact weight_str (by decide)
  have hversionText := @weight_str 2 _ (size_of_validateVersion hversion)
  have hcontrolText := @weight_str 2 _ (size_of_validateVersion hcontrol)
  have hdigested : weight 2 (.str b.bundleSha256) ≤ 428 := by
    rw [hdigest]
    exact hhexText (hhex _) 2
  have hactionText := @weight_of_mem 2 _ _ haction (by decide)
  have hbool (v : Bool) : weight 2 (.bool v) ≤ 5 := (weight_bool 2 v).le
  rw [SupportBundle.written, weight]
  exact (Nat.add_le_add_left (@weightMembers_le _ 31 _ _ (by exact short_keys) (.cons hschemaText (.cons hversionText
    (.cons hcontrolText (.cons hplatform (.cons hidentity (.cons happrovals (.cons hstatus
    (.cons hevidences (.cons (hhexText hmanifest 2) (.cons (hhexText hrelease 2) (.cons hfailure
    (.cons hlog (.cons hredaction (.cons (hprint 2) (.cons hdigested (.cons hactionText
    (.cons hrouted (.cons (hbool _) (.cons (hbool _) (.cons (hbool _) (.cons (hbool _)
    (.cons (hbool _) (.cons (hbool _) (.cons (hbool _) .nil))))))))))))))))))))))))) _).trans (by decide)

/-- The file of a bundle that is accepted can be read again. -/
theorem length_file_le (hhex : ∀ v, isSha256 (sha256Json v) = true) {b : SupportBundle}
    (h : validateBundle b = .ok ()) : b.file.length ≤ maxInputBytes := by
  have hpretty := byteLength_prettyText [] b.written
  have hweight := weight_written hhex h
  change byteLength (prettyText [] b.written ++ ['\n']) ≤ 65536
  rw [byteLength_append]
  exact Nat.add_le_add (hpretty.trans hweight) (Nat.le_refl 1)

/-- **A bundle that is accepted is built for a source with its fields.** -/
theorem exists_source (hhex : ∀ v, isSha256 (sha256Json v) = true) {b : SupportBundle}
    (h : validateBundle b = .ok ()) : buildFrom (sourceOf b) = .ok (b, b.file) := by
  have hnormal : normalizeSource (sourceOf b) = sourceOf b := by
    refine normalizeSource_of_normal ?_
    simp only [validateBundle, seq_eq_ok] at h
    obtain ⟨-, -, -, -, -, -, -, hnormal, -⟩ := h
    exact hnormal
  have hcount : (sourceOf b).logs.length = b.logs.length := List.length_replicate
  have hcompleted := completed_sourceOf h
  refine buildFrom_eq_ok.mpr ⟨?_, fun raw hraw => ?_, ?_, rfl, length_file_le hhex h⟩
  · rw [hnormal]
    exact validateSource_sourceOf h
  · rw [List.eq_of_mem_replicate hraw]
    exact ⟨rfl, by decide⟩
  · rw [hnormal, hcount, hcompleted]

/-! ### Logs that differ -/

/-- Two sources that have the same number of log entries and are otherwise the same. -/
def SameButLogs (source source' : SupportSource) : Prop :=
  { source with logs := [] } = { source' with logs := [] } ∧ source.logs.length = source'.logs.length

/-- **What is written does not depend on the texts of the log entries.** -/
theorem buildFrom_of_sameButLogs {source source' : SupportSource} {b b' : SupportBundle}
    {file file' : Octets} (h : SameButLogs source source') (hb : buildFrom source = .ok (b, file))
    (hb' : buildFrom source' = .ok (b', file')) : b = b' ∧ file = file' := by
  obtain ⟨hfields, hcount⟩ := h
  obtain ⟨-, -, rfl, rfl, -⟩ := buildFrom_eq_ok.mp hb
  obtain ⟨-, -, rfl, rfl, -⟩ := buildFrom_eq_ok.mp hb'
  have hcompleted : completed (normalizeSource source) source.logs.length =
      completed (normalizeSource source') source'.logs.length := by
    have hcompleted := congrArg (fun s => completed (normalizeSource s) source'.logs.length) hfields
    rw [hcount]
    exact hcompleted
  exact ⟨hcompleted, congrArg SupportBundle.file hcompleted⟩

end

/-! ### What is read -/

theorem ApprovalState.fromJson_written : (a : ApprovalState) → fromJson a.written = some a
  | ⟨_, none⟩ => rfl
  | ⟨_, some _⟩ => rfl

theorem EvidenceState.fromJson_written : (e : EvidenceState) → fromJson e.written = some e
  | ⟨_, none⟩ => rfl
  | ⟨_, some _⟩ => rfl

theorem SanitizedLog.fromJson_toJson {log : SanitizedLog}
    (h : log.sequence < 18446744073709551616) :
    fromJson log.toJson = some log := by
  have hread {v w : Json} : fromJson (.obj [("sequence", v), ("text", w)]) =
      (unsigned64? v).bind fun sequence => (str? w).bind fun text => some ⟨sequence, text⟩ := rfl
  rw [SanitizedLog.toJson, hread, unsigned64?, unsigned?_nat h]
  rfl

theorem RedactionSummary.fromJson_written {r : RedactionSummary}
    (hinput : r.inputLogEntries < 18446744073709551616)
    (hredacted : r.fullyRedactedLogEntries < 18446744073709551616) : fromJson r.written = some r := by
  have hread {v w : Json} : fromJson (.obj [("input_log_entries", v), ("fully_redacted_log_entries", w)]) =
      (unsigned64? v).bind fun input => (unsigned64? w).bind fun redacted => some ⟨input, redacted⟩ := rfl
  rw [RedactionSummary.written, hread, unsigned64?, unsigned?_nat hinput, unsigned?_nat hredacted]
  rfl

theorem fromJson_members {b : SupportBundle} {approval evidence logs redaction : Json} :
    SupportBundle.fromJson (.obj [("schema_version", .str b.schemaVersion),
      ("ao2_version", .str b.ao2Version),
      ("control_plane_version", .str b.controlPlaneVersion), ("platform", b.platform.written),
      ("workflow", b.workflow.toJson), ("approval", approval),
      ("replay", .obj [("status", .str b.replayStatus)]), ("evidence", evidence),
      ("manifest_sha256", .str b.manifestSha256), ("release_sha256", .str b.releaseSha256),
      ("failure", b.failure.toJson), ("logs", logs),
      ("redaction", redaction), ("problem_fingerprint", .str b.problemFingerprint),
      ("bundle_sha256", .str b.bundleSha256),
      ("smallest_safe_next_action", .str b.smallestSafeNextAction),
      ("governed_issue_route", b.governedIssueRoute.written), ("observer_only", .bool b.observerOnly),
      ("safe_to_execute", .bool b.safeToExecute), ("executes_work", .bool b.executesWork),
      ("calls_providers", .bool b.callsProviders),
      ("issue_write_performed", .bool b.issueWritePerformed),
      ("public_write_performed", .bool b.publicWritePerformed),
      ("release_or_deployment_performed", .bool b.releaseOrDeploymentPerformed)]) =
    (ApprovalState.fromJson approval).bind fun approval =>
      (EvidenceState.fromJson evidence).bind fun evidence =>
      (items? SanitizedLog.fromJson logs).bind fun logs =>
      (RedactionSummary.fromJson redaction).bind fun redaction =>
      some { b with approval, evidence, logs, redaction } := rfl

section

variable [Platform]

/-- **A bundle that is accepted is read as it was written.** -/
theorem fromJson_written {b : SupportBundle} (h : validateBundle b = .ok ()) :
    SupportBundle.fromJson b.written = some b := by
  simp only [validateBundle, seq_eq_ok, bailIf_eq_ok, not_not, ne_eq, not_or, Nat.not_lt] at h
  obtain ⟨-, -, -, -, -, -, -, -, hcount, ⟨hinput, hredacted⟩, hlogs, -⟩ := h
  have hlt : b.logs.length < 18446744073709551616 := Nat.lt_of_le_of_lt hcount (by decide)
  have hlogsRead :
      items? SanitizedLog.fromJson (.arr (b.logs.map SanitizedLog.toJson)) = some b.logs := by
    refine items?_map fun log hlog => SanitizedLog.fromJson_toJson ?_
    rw [validateLogs_eq_ok.mp hlogs, placeholders, List.mem_map] at hlog
    obtain ⟨index, hindex, rfl⟩ := hlog
    exact Nat.lt_of_le_of_lt ((List.mem_range.mp hindex).trans_le hcount) (by decide)
  have hredaction := @RedactionSummary.fromJson_written b.redaction (hinput ▸ hlt) (hredacted ▸ hlt)
  rw [SupportBundle.written, fromJson_members, ApprovalState.fromJson_written,
    EvidenceState.fromJson_written, hlogsRead, hredaction]
  rfl

/-- What an issue is bound to by a bundle. -/
def SupportBundle.binding (b : SupportBundle) : GovernedIssueBinding where
  problemFingerprint := b.problemFingerprint
  bundleSha256 := b.bundleSha256
  workflowIdentity := b.workflow.identity
  failureCategory := b.failure.category
  failedPhase := b.failure.phase

variable [IssueLibrary]

/-- **A bundle is what its source says, without its logs.** What is built is accepted, with its
fingerprint and its digest, wherever the file is read as it was written; every bundle that is
accepted is built for a source; and the texts of the log entries make no difference. Digests are
known to be digests, and nothing else. -/
theorem bundle_exact (hhex : ∀ v, isSha256 (sha256Json v) = true) :
    (∀ input b file, build input = .ok (b, file) → IssueLibrary.fromSlice file = some b.written →
      validateForGovernedIssue (.ok file) = .ok b.binding) ∧
    (∀ b, validateBundle b = .ok () → ∃ source, buildFrom source = .ok (b, b.file)) ∧
    ∀ source source' b b' file file', SameButLogs source source' → buildFrom source = .ok (b, file) →
      buildFrom source' = .ok (b', file') → b = b' ∧ file = file' := by
  refine ⟨fun input b file hbuild hread => ?_, fun b h => ⟨sourceOf b, exists_source hhex h⟩,
    fun source source' b b' file file' hsame hb hb' => buildFrom_of_sameButLogs hsame hb hb'⟩
  rw [build] at hbuild
  obtain ⟨source, -, hbuild⟩ := bind_eq_ok.mp hbuild
  obtain ⟨hb, rfl, hlength⟩ := validateBundle_of_buildFrom hbuild
  have hread' : readBoundedJson SupportBundle.fromJson (.ok b.file) = .ok b :=
    readBoundedJson_eq_ok.mpr ⟨b.file, rfl, hlength, by rw [hread, Option.bind_some, fromJson_written hb]⟩
  rw [validateForGovernedIssue, hread']
  exact bind_eq_ok.mpr ⟨b, rfl, seq_eq_ok.mpr ⟨hb, rfl⟩⟩

end

/-! ### A sample -/

/-- What is known of a failed replay. -/
def sampleSource : SupportSource where
  schemaVersion := "ao2.troubleshooting-support-source.v0.1"
  ao2Version := "0.5"
  controlPlaneVersion := "0.5"
  platform := ⟨"linux", "x86_64"⟩
  workflow := ⟨"pulse-v1", "ao2-evidence-verifier-v1"⟩
  approval := ⟨"not_required", none⟩
  replayStatus := "failed"
  evidence := ⟨"not_available", none⟩
  manifestSha256 := "0123456789abcdef0123456789abcdef0123456789abcdef0123456789abcdef"
  releaseSha256 := "0123456789abcdef0123456789abcdef0123456789abcdef0123456789abcdef"
  failure := ⟨"replay_failed", "replay"⟩
  logs := ["replay stopped"]
  smallestSafeNextAction := "Retry replay from the last verified checkpoint."
  safety := ⟨false, false, false, false, false⟩

/-- The document that is written of it. -/
def sampleDocument : Json :=
  .obj [("schema_version", .str sampleSource.schemaVersion), ("ao2_version", .str sampleSource.ao2Version),
    ("control_plane_version", .str sampleSource.controlPlaneVersion),
    ("platform", sampleSource.platform.written), ("workflow", sampleSource.workflow.toJson),
    ("approval", sampleSource.approval.written),
    ("replay", .obj [("status", .str sampleSource.replayStatus)]),
    ("evidence", sampleSource.evidence.written), ("manifest_sha256", .str sampleSource.manifestSha256),
    ("release_sha256", .str sampleSource.releaseSha256), ("failure", sampleSource.failure.toJson),
    ("logs", .strs sampleSource.logs),
    ("smallest_safe_next_action", .str sampleSource.smallestSafeNextAction),
    ("safety", .obj [("executes_work", .bool false), ("calls_providers", .bool false),
      ("issue_write_performed", .bool false), ("public_write_performed", .bool false),
      ("release_or_deployment_performed", .bool false)])]

def sampleInput : Octets := utf8Bytes (prettyText [] sampleDocument)

def sampleFingerprint : String := "4a93ffbc52a1543023055306fb31f35f63a0f05adf7eaeaad6c371a55e127406"

/-- The digests of the sample; what else is digested does not matter. -/
def sampleDigest (v : Json) : String :=
  if v = fingerprintSubject (draftOf sampleSource) then sampleFingerprint
  else if v = (bundleOf sampleSource (placeholders 1) ⟨1, 1⟩ ("sha256:" ++ sampleFingerprint) "").subject
  then "61742ae59fbee0d9ef11b8ead7585a5ef08ec20cbd5617c9c489cf2ea350e931"
  else "e3b0c44298fc1c149afbf4c8996fb92427ae41e4649b934ca495991b7852b855"

theorem isSha256_sampleDigest (v : Json) : isSha256 (sampleDigest v) = true := by
  unfold sampleDigest
  split_ifs
  · decide +kernel
  · decide +kernel
  · decide +kernel

@[reducible] def samplePlatform : Platform := { spellingPlatform with sha256Json := sampleDigest }

attribute [local instance] samplePlatform

def sampleBundle : SupportBundle := completed sampleSource 1

@[reducible] def sampleLibrary : IssueLibrary where
  fromSlice bytes :=
    if bytes = sampleBundle.file then some sampleBundle.written
    else if bytes = sampleInput then some sampleDocument
    else none
  sha256 _ := ""
  parseRfc3339 _ := none

attribute [local instance] sampleLibrary

theorem fromJson_sampleDocument : SupportSource.fromJson sampleDocument = some sampleSource := rfl

theorem sampleInput_ne : sampleInput ≠ sampleBundle.file := by
  have hthird : sampleInput[51]? ≠ sampleBundle.file[51]? := by decide +kernel
  exact fun h => hthird (congrArg (·[51]?) h)

theorem buildFrom_sampleSource :
    buildFrom sampleSource = .ok (sampleBundle, sampleBundle.file) := by
  have hsource : validateSource sampleSource = .ok () := rfl
  have hnormal : normalizeSource sampleSource = sampleSource := normalizeSource_of_normal rfl
  refine buildFrom_eq_ok.mpr ⟨?_, ?_, ?_, rfl, ?_⟩
  · rw [hnormal]
    exact hsource
  · exact List.forall_mem_singleton.mpr ⟨rfl, by decide +kernel⟩
  · rw [hnormal]
    rfl
  · exact length_file_le isSha256_sampleDigest (validateBundle_completed hsource (by decide))

theorem bundle_exact_sample : build (.ok sampleInput) = .ok (sampleBundle, sampleBundle.file) ∧
    validateForGovernedIssue (.ok sampleBundle.file) = .ok sampleBundle.binding ∧
    ∃ source, buildFrom source = .ok (sampleBundle, sampleBundle.file) := by
  obtain ⟨haccepts, hexact, -⟩ := bundle_exact isSha256_sampleDigest
  have hread : IssueLibrary.fromSlice sampleInput = some sampleDocument :=
    (if_neg sampleInput_ne).trans (if_pos rfl)
  have hlength : sampleInput.length ≤ maxInputBytes := by decide +kernel
  have hsource :
      (IssueLibrary.fromSlice sampleInput).bind SupportSource.fromJson = some sampleSource := by
    rw [hread]
    exact fromJson_sampleDocument
  have hbuild : build (.ok sampleInput) = .ok (sampleBundle, sampleBundle.file) :=
    bind_eq_ok.mpr ⟨sampleSource, readBoundedJson_eq_ok.mpr ⟨sampleInput, rfl, hlength, hsource⟩,
      buildFrom_sampleSource⟩
  exact ⟨hbuild, haccepts _ _ _ hbuild (if_pos rfl),
    hexact _ (validateBundle_of_buildFrom buildFrom_sampleSource).1⟩

end Support

end Issues

end Ao2
