import Ao2.Json.Objects

/-!
# The evaluator's decision on a release

Three documents are compared: the readiness of the release, the checklist of its handoff, and a support
bundle with the assembly of the release. A value that a document does not hold may be taken from the status
that the frontend shows. Whatever is not as expected is a blocker, and the release is accepted if there is
none. While nothing but this decision is missing, four of the checks may fail.

What an accepted decision says of the documents. The checks say most of it. They pass over blockers that are
no list, over an approval that the frontend shows where the document itself denies it, and over a version
that only one of the documents names.

## Main results

* `not_earned_of_blockersText` — a checklist whose blockers are a text
-/

namespace Ao2

namespace Release

/-- JSON texts without spaces. -/
class CompactJson where
  compactJson : Json → String

export CompactJson (compactJson)

/-! ### Constants -/

def evaluatorDecisionSchema : String := "factory-v3/ao2-release-evaluator-decision/v1"

def evaluatorReadinessBridgeSchema : String := "factory-v3/hermes-ao-bridge/v1"

def evaluatorReadinessSchema : String := "ao2.cp-release-readiness.v1"

def evaluatorHandoffChecklistSchema : String := "factory-v3/ao2-release-handoff-checklist/v1"

def evaluatorSupportBundleBridgeAction : String := "release-support-bundle-status"

def evaluatorSupportBundleSchema : String := "ao2.cp-release-support-bundle.v1"

def evaluatorReleaseAssemblySchema : String := "ao2.cp-release-assembly.v1"

/-! ### Values -/

def evaluatorAsStrDefault (value : Option Json) (default : String) : String :=
  match value with
  | some (.str text) => if text = "" then default else text
  | _ => default

def evaluatorAsStr (value : Option Json) : String := evaluatorAsStrDefault value "missing"

def evaluatorAsBool (value : Option Json) (default : Bool) : Bool :=
  match value with
  | some (.bool b) => b
  | _ => default

def evaluatorNested (value : Json) (keys : List String) : Option Json :=
  keys.foldlM (fun current key => current.get? key) value

/-- The text under a key. -/
def textUnder (value : Json) (key : String) : Option String := (value.get? key).bind Json.str?

/-- The value under a key, or else the one in another object. -/
def getOrElse (value other : Json) (key : String) : Option Json := (value.get? key).or (other.get? key)

/-- A document of some schema, or the snapshot of one that a bridge has taken. -/
def extractDocument (schema action snapshotKey : String) (payload : Json) : Option Json :=
  if textUnder payload "schema_version" = some schema then some payload
  else if textUnder payload "schema" = some evaluatorReadinessBridgeSchema ∧
      textUnder payload "action" = some action then
    (payload.get? snapshotKey).filter fun snapshot =>
      snapshot.isObject && textUnder snapshot "schema_version" = some schema
  else none

def evaluatorExtractReadiness : Json → Option Json :=
  extractDocument evaluatorReadinessSchema "release-readiness-status" "readiness_snapshot"

def evaluatorExtractSupportBundle : Json → Option Json :=
  extractDocument evaluatorSupportBundleSchema evaluatorSupportBundleBridgeAction "support_bundle_snapshot"

def evaluatorReleaseFrom (readiness : Option Json) (checklist : Json) : Json :=
  match readiness.bind (·.get? "release") with
  | some (.obj (m :: members)) => .obj (m :: members)
  | _ =>
    match checklist.get? "release" with
    | some (.obj members) => .obj members
    | _ => .obj []

/-! ### Checks -/

/-- What is checked, what was found, and whether it may fail while only this decision is missing. -/
structure EvaluatorCheck where
  checkId : String
  label : String
  observed : String
  expected : String
  allowPendingSelfReference : Bool

def EvaluatorCheck.status (check : EvaluatorCheck) : String :=
  if check.observed = check.expected then "passed"
  else if check.allowPendingSelfReference then "passed_pending_self_reference"
  else "blocked"

/-- The result of a check, and the blockers after it. -/
def evaluatorCheck (check : EvaluatorCheck) (blockers : List String) : Json × List String :=
  (.object
    [("id", .str check.checkId), ("label", .str check.label), ("observed", .str check.observed),
      ("expected", .str check.expected), ("status", .str check.status)],
    if check.status = "blocked" then
      blockers ++ [check.checkId ++ ": expected " ++ check.expected ++ ", observed " ++ check.observed]
    else blockers)

/-- Check after check. -/
def evaluatorChecks : List EvaluatorCheck → List String → List Json × List String
  | [], blockers => ([], blockers)
  | check :: checks, blockers =>
    let (result, blockers) := evaluatorCheck check blockers
    let (results, blockers) := evaluatorChecks checks blockers
    (result :: results, blockers)

/-! ### Blockers of the documents -/

/-- A blocker that says that this decision is missing. -/
def evaluatorIsMissingEvaluatorBlocker (value : Json) : Bool :=
  match value with
  | .str text =>
    text ∈ ["release_evaluator_decision: expected accepted, observed missing",
        "candidate_correlation: expected matched, observed mismatched",
        "handoff_status: expected ready, observed attention"] ||
      "release_evaluator_version unknown does not match ".toList.isPrefixOf text.toList ||
      "release_evaluator_tag unknown does not match ".toList.isPrefixOf text.toList
  | _ => false

def evaluatorOnlyMissingEvaluatorBlockers (values : Option Json) : Bool :=
  match values with
  | some (.arr (item :: items)) => (item :: items).all evaluatorIsMissingEvaluatorBlocker
  | _ => false

section

variable [CompactJson]

/-- The blockers in a list; those that only say that this decision is missing may be left out. -/
def listedBlockers (label : String) (values : Option Json) (exceptionApplied : Bool) : List String :=
  match values with
  | some (.arr items) =>
    (items.filter fun blocker => !(exceptionApplied && evaluatorIsMissingEvaluatorBlocker blocker)).map
      fun blocker => label ++ ": " ++ blocker.str?.getD (compactJson blocker)
  | _ => []

end

/-! ### The documents -/

/-- What is read of the documents. -/
structure Documents where
  readiness : Option Json
  readinessFrontend : Json
  checklist : Json
  supportBundle : Option Json
  supportFrontend : Json
  releaseAssembly : Json
  release : Json

/-- The status that the frontend shows. -/
def frontendStatus (source : Json) : Json :=
  ((source.get? "frontend_status").filter Json.isObject).getD (.obj [])

def documentsOf (readinessSource checklist supportBundleSource : Json) : Documents :=
  let readiness := evaluatorExtractReadiness readinessSource
  let supportBundle := evaluatorExtractSupportBundle supportBundleSource
  { readiness
    readinessFrontend := frontendStatus readinessSource
    checklist
    supportBundle
    supportFrontend := frontendStatus supportBundleSource
    releaseAssembly :=
      ((supportBundle.bind (·.get? "release_assembly")).filter Json.isObject).getD (.obj [])
    release := evaluatorReleaseFrom readiness checklist }

namespace Documents

def readinessBlockers (d : Documents) : Option Json := d.readiness.bind (·.get? "blockers")

def checklistBlockers (d : Documents) : Option Json := d.checklist.get? "blockers"

def readinessStatus (d : Documents) : String :=
  evaluatorAsStr ((d.readiness.bind (·.get? "status")).or (d.readinessFrontend.get? "status"))

def assemblyStatus (d : Documents) : String :=
  evaluatorAsStr (getOrElse d.releaseAssembly d.supportFrontend "status")

def candidateCorrelation (d : Documents) : String :=
  evaluatorAsStr (getOrElse d.releaseAssembly d.supportFrontend "candidate_correlation")

end Documents

/-! ### The exception -/

/-- The candidates are those of the release, and only this decision is unknown. -/
def evaluatorCandidateCorrelationIsOnlyMissingEvaluator (d : Documents) : Bool :=
  d.candidateCorrelation = "mismatched" &&
  match (d.releaseAssembly.get? "candidate_correlation_detail").filter Json.isObject with
  | none => false
  | some detail =>
    let releaseVersion := evaluatorAsStr (d.release.get? "version")
    evaluatorOnlyMissingEvaluatorBlockers (detail.get? "blockers") &&
      evaluatorAsStr (detail.get? "release_version") = releaseVersion &&
      evaluatorAsStr (detail.get? "release_tag") = evaluatorAsStr (d.release.get? "release_tag") &&
      evaluatorAsStr (detail.get? "codex_acceptance_version") = releaseVersion &&
      evaluatorAsStr (detail.get? "claude_acceptance_version") = releaseVersion &&
      evaluatorAsStr (detail.get? "three_os_version") = releaseVersion &&
      evaluatorAsStr (detail.get? "release_evaluator_version") = "unknown" &&
      evaluatorAsStr (detail.get? "release_evaluator_tag") = "unknown"

section

variable [CompactJson]

/-- How many artifacts are missing, as a text. -/
def missingCount (supportFrontend : Json) : String :=
  match supportFrontend.get? "missing_artifact_count" with
  | none => "missing"
  | some (.num n) => toString n
  | some (.str s) => s
  | some (.bool b) => toString b
  | some .null => "None"
  | some other => compactJson other

def evaluatorShouldApplyMissingEvaluatorSelfReferenceException (d : Documents) : Bool :=
  d.readinessStatus = "attention" &&
    evaluatorAsStr (d.checklist.get? "status") = "blocked" &&
    d.assemblyStatus = "attention" &&
    missingCount d.supportFrontend = "0" &&
    evaluatorOnlyMissingEvaluatorBlockers d.readinessBlockers &&
    evaluatorOnlyMissingEvaluatorBlockers d.checklistBlockers &&
    evaluatorCandidateCorrelationIsOnlyMissingEvaluator d

/-! ### The decision -/

/-- The checks, in order. -/
def decisionChecks (d : Documents) (exceptionApplied : Bool) : List EvaluatorCheck :=
  [⟨"readiness_schema", "Readiness schema",
      evaluatorAsStr (d.readiness.bind (·.get? "schema_version")), evaluatorReadinessSchema, false⟩,
    ⟨"readiness_status", "Release readiness status", d.readinessStatus, "ready", exceptionApplied⟩,
    ⟨"handoff_checklist_schema", "Handoff checklist schema", evaluatorAsStr (d.checklist.get? "schema"),
      evaluatorHandoffChecklistSchema, false⟩,
    ⟨"handoff_checklist_status", "Handoff checklist status", evaluatorAsStr (d.checklist.get? "status"),
      "ready_for_evaluator_closer", exceptionApplied⟩,
    ⟨"support_bundle_schema", "Support bundle schema",
      evaluatorAsStr (d.supportBundle.bind (·.get? "schema_version")), evaluatorSupportBundleSchema, false⟩,
    ⟨"release_assembly_schema", "Release assembly schema",
      evaluatorAsStr (d.releaseAssembly.get? "schema_version"), evaluatorReleaseAssemblySchema, false⟩,
    ⟨"release_assembly_status", "Release assembly status", d.assemblyStatus, "assembled", exceptionApplied⟩,
    ⟨"release_assembly_candidate_correlation", "Release assembly candidate correlation",
      d.candidateCorrelation, "matched", exceptionApplied⟩,
    ⟨"release_assembly_missing_artifacts", "Release assembly missing artifacts",
      missingCount d.supportFrontend, "0", false⟩]

namespace Documents

def readinessControlPlaneApproves (d : Documents) : Bool :=
  evaluatorAsBool
    (d.readiness.bind (evaluatorNested · ["operator_decision", "control_plane_approves_release"]))
    (evaluatorAsBool (d.readinessFrontend.get? "control_plane_approves_release") false)

def checklistControlPlaneApproves (d : Documents) : Bool :=
  evaluatorAsBool (evaluatorNested d.checklist ["operator_decision", "control_plane_approves_release"]) false

def supportControlPlaneApproves (d : Documents) : Bool :=
  evaluatorAsBool (d.releaseAssembly.get? "control_plane_approves_release")
    (evaluatorAsBool (d.supportFrontend.get? "control_plane_approves_release") false)

/-- The control plane must not approve. -/
def trustBlockers (d : Documents) : List String :=
  if d.readinessControlPlaneApproves || d.checklistControlPlaneApproves || d.supportControlPlaneApproves then
    ["trust_boundary: control plane must not approve release"]
  else []

/-- The assembly is of the release. -/
def versionBlockers (d : Documents) : List String :=
  let releaseVersion := evaluatorAsStr (d.release.get? "version")
  let assemblyVersion :=
    evaluatorAsStr (getOrElse d.releaseAssembly d.supportFrontend "release_candidate_version")
  if releaseVersion ≠ "missing" ∧ assemblyVersion ≠ releaseVersion then
    ["release_assembly_version: expected " ++ releaseVersion ++ ", observed " ++ assemblyVersion]
  else []

end Documents

/-- The results of the checks, and all blockers. -/
def decisionOf (d : Documents) (exceptionApplied : Bool) : List Json × List String :=
  let (checks, blockers) := evaluatorChecks (decisionChecks d exceptionApplied) []
  (checks, blockers ++ listedBlockers "readiness_blocker" d.readinessBlockers exceptionApplied ++
    listedBlockers "handoff_checklist_blocker" d.checklistBlockers exceptionApplied ++ d.trustBlockers ++
    d.versionBlockers)

def releaseEvaluatorDecisionPayload (readinessPath : String) (readinessSource : Json) (checklistPath : String)
    (checklist : Json) (supportBundlePath : String) (supportBundleSource : Json) : Json :=
  let d := documentsOf readinessSource checklist supportBundleSource
  let exceptionApplied := evaluatorShouldApplyMissingEvaluatorSelfReferenceException d
  let (checks, blockers) := decisionOf d exceptionApplied
  let accepted := blockers.isEmpty
  .object
    [("schema", .str evaluatorDecisionSchema),
      ("status", .str (if accepted then "accepted" else "rejected")),
      ("decision", .str
        (if accepted then "accept_phase1_release_candidate" else "reject_phase1_release_candidate")),
      ("release", d.release), ("checks", .arr checks), ("blockers", .strs blockers),
      ("self_reference_exception", .object
        [("status", .str (if exceptionApplied then "applied" else "not_applicable")),
          ("reason", .str
            (if exceptionApplied then
              "control-plane readiness was waiting only for the factory-v3 evaluator decision currently being produced"
            else "no evaluator self-reference gap was detected"))]),
      ("evidence", .object
        [("release_readiness_status", .str readinessPath),
          ("release_handoff_checklist", .str checklistPath),
          ("release_support_bundle_status", .str supportBundlePath)]),
      ("trust_boundary", .object
        [("frontend", .str "Hermes front end / queue / memory surface"),
          ("governed_backend", .str "factory-v3 / AO Operator evaluator-closer"),
          ("trusted_execution", .str "ao2 signed evidence boundary"),
          ("control_plane_role", .str "read_only_observer"), ("mutates_ao_artifacts", .bool false),
          ("control_plane_approves_release", .bool false),
          ("release_acceptance_owner", .str "factory-v3 evaluator-closer")]),
      ("next_action", .str
        (if accepted then "release candidate is accepted by factory-v3 evaluator-closer for release-line handoff"
        else "resolve blockers before release-line handoff"))]

end

end Release

end Ao2

/-! ## An accepted release decision -/

namespace Ao2

namespace Release

/-! ### What is read of the documents -/

/-- What a value lists: the items of a list, and itself if it is no list. -/
def listed : Option Json → List Json
  | none => []
  | some .null => []
  | some (.arr items) => items
  | some v => [v]

namespace Documents

/-- The versions that the documents name, each in its own place. -/
def readinessVersion (d : Documents) : String :=
  evaluatorAsStr ((d.readiness.bind (·.get? "release")).bind (·.get? "version"))

def checklistVersion (d : Documents) : String :=
  evaluatorAsStr ((d.checklist.get? "release").bind (·.get? "version"))

def assemblyVersion (d : Documents) : String :=
  evaluatorAsStr (d.releaseAssembly.get? "release_candidate_version")

/-- Where the control plane may approve. -/
def approvals (d : Documents) : List (Option Json) :=
  [d.readiness.bind (evaluatorNested · ["operator_decision", "control_plane_approves_release"]),
    d.readinessFrontend.get? "control_plane_approves_release",
    evaluatorNested d.checklist ["operator_decision", "control_plane_approves_release"],
    d.releaseAssembly.get? "control_plane_approves_release",
    d.supportFrontend.get? "control_plane_approves_release"]

def correlationDetail (d : Documents) : Option Json :=
  d.releaseAssembly.get? "candidate_correlation_detail"

/-- The versions of the candidates. -/
def candidateVersions (d : Documents) : List String :=
  ["release_version", "codex_acceptance_version", "claude_acceptance_version", "three_os_version"].map
    fun key => evaluatorAsStr (d.correlationDetail.bind (·.get? key))

end Documents

/-- The checks that may fail while only this decision is missing. -/
def selfReferenceChecks : List String :=
  ["readiness_status", "handoff_checklist_status", "release_assembly_status",
    "release_assembly_candidate_correlation"]

section

variable [CompactJson]

/-- What an accepted decision should say. -/
structure Earned (d : Documents) : Prop where
  readiness : ∃ readiness, d.readiness = some readiness ∧
    textUnder readiness "schema_version" = some evaluatorReadinessSchema
  checklist : textUnder d.checklist "schema" = some evaluatorHandoffChecklistSchema
  assembly : textUnder d.releaseAssembly "schema_version" = some evaluatorReleaseAssemblySchema
  version : ∃ version, version ≠ "missing" ∧ d.readinessVersion = version ∧
    d.checklistVersion = version ∧ d.assemblyVersion = version
  unapproved : ∀ place ∈ d.approvals, place ≠ some (.bool true)
  blockers : ∀ blocker ∈ listed d.readinessBlockers ++ listed d.checklistBlockers,
    evaluatorIsMissingEvaluatorBlocker blocker = true
  checks : ∀ check ∈ decisionChecks d (evaluatorShouldApplyMissingEvaluatorSelfReferenceException d),
    check.observed = check.expected ∨ check.checkId ∈ selfReferenceChecks ∧
      evaluatorShouldApplyMissingEvaluatorSelfReferenceException d = true
  exception : evaluatorShouldApplyMissingEvaluatorSelfReferenceException d = true →
    (∀ blocker ∈ listed d.readinessBlockers ++ listed d.checklistBlockers ++
      listed (d.correlationDetail.bind (·.get? "blockers")),
        evaluatorIsMissingEvaluatorBlocker blocker = true) ∧
    ∀ version ∈ d.candidateVersions, version = evaluatorAsStr (d.release.get? "version")

/-- Blockers that are looked at: a list of them, or none. -/
def looksListed : Option Json → Bool
  | none => true
  | some .null => true
  | some (.arr _) => true
  | some v => evaluatorIsMissingEvaluatorBlocker v

/-- No document leaves open what is not looked at. -/
structure Outspoken (d : Documents) : Prop where
  readinessListed : looksListed d.readinessBlockers = true
  checklistListed : looksListed d.checklistBlockers = true
  /-- The frontend does not show an approval that the document denies. -/
  readinessApproval :
    ¬ (d.readiness.bind (evaluatorNested · ["operator_decision", "control_plane_approves_release"]) =
        some (.bool false) ∧
      d.readinessFrontend.get? "control_plane_approves_release" = some (.bool true))
  supportApproval :
    ¬ (d.releaseAssembly.get? "control_plane_approves_release" = some (.bool false) ∧
      d.supportFrontend.get? "control_plane_approves_release" = some (.bool true))
  readinessVersion : d.readinessVersion ≠ "missing"
  checklistVersion : d.checklistVersion = d.readinessVersion
  assemblyVersion : (d.releaseAssembly.get? "release_candidate_version").isSome = true

/-! ### An accepted decision -/

omit [CompactJson] in
theorem blocked_iff {check : EvaluatorCheck} : check.status = "blocked" ↔
    check.observed ≠ check.expected ∧ check.allowPendingSelfReference = false := by
  rw [EvaluatorCheck.status]
  split_ifs with hequal hallow
  · exact ⟨fun h => absurd h (by decide), fun h => absurd hequal h.1⟩
  · exact ⟨fun h => absurd h (by decide), fun h => absurd (hallow.symm.trans h.2) (by decide)⟩
  · exact ⟨fun _ => ⟨hequal, by simpa using hallow⟩, fun _ => rfl⟩

omit [CompactJson] in
/-- There is no blocker after some checks if there was none, and each has passed. -/
theorem evaluatorChecks_blockers {checks : List EvaluatorCheck} {blockers : List String} :
    (evaluatorChecks checks blockers).2 = [] ↔
      blockers = [] ∧ ∀ check ∈ checks, check.status ≠ "blocked" := by
  induction checks generalizing blockers with
  | nil => simp [evaluatorChecks]
  | cons check checks ih =>
    have hnext : (evaluatorCheck check blockers).2 = [] ↔ blockers = [] ∧ check.status ≠ "blocked" := by
      rw [evaluatorCheck]
      split_ifs with hblocked
      · simp [hblocked]
      · simp [hblocked]
    change (evaluatorChecks checks (evaluatorCheck check blockers).2).2 = [] ↔ _
    rw [ih, hnext, List.forall_mem_cons, and_assoc]

omit [CompactJson] in
theorem evaluatorAsStr_eq {value : Option Json} {text : String} (h : evaluatorAsStr value = text)
    (hne : text ≠ "missing") : value = some (.str text) := by
  cases value with
  | none => exact absurd h.symm hne
  | some v =>
    cases v with
    | str s =>
      change (if s = "" then "missing" else s) = text at h
      split_ifs at h with hempty
      · exact absurd h.symm hne
      · rw [h]
    | _ => exact absurd h.symm hne

variable {readinessPath checklistPath supportBundlePath : String}
  {readinessSource checklist supportBundleSource : Json}

/-- What is known of an accepted decision. -/
structure Accepted (d : Documents) (exceptionApplied : Bool) : Prop where
  checks : ∀ check ∈ decisionChecks d exceptionApplied, check.status ≠ "blocked"
  readinessBlockers : listedBlockers "readiness_blocker" d.readinessBlockers exceptionApplied = []
  checklistBlockers : listedBlockers "handoff_checklist_blocker" d.checklistBlockers exceptionApplied = []
  trust : d.trustBlockers = []
  version : d.versionBlockers = []

theorem accepted_iff {d : Documents} {exceptionApplied : Bool} :
    (decisionOf d exceptionApplied).2 = [] ↔ Accepted d exceptionApplied := by
  change (evaluatorChecks (decisionChecks d exceptionApplied) []).2 ++ _ ++ _ ++ _ ++ _ = [] ↔ _
  rw [List.append_eq_nil_iff, List.append_eq_nil_iff, List.append_eq_nil_iff, List.append_eq_nil_iff,
    evaluatorChecks_blockers]
  exact ⟨fun h => ⟨h.1.1.1.1.2, h.1.1.1.2, h.1.1.2, h.1.2, h.2⟩,
    fun h => ⟨⟨⟨⟨⟨rfl, h.checks⟩, h.readinessBlockers⟩, h.checklistBlockers⟩, h.trust⟩, h.version⟩⟩

theorem status_payload : (releaseEvaluatorDecisionPayload readinessPath readinessSource checklistPath checklist
    supportBundlePath supportBundleSource).get? "status" = some (.str "accepted") ↔
      Accepted (documentsOf readinessSource checklist supportBundleSource)
        (evaluatorShouldApplyMissingEvaluatorSelfReferenceException
          (documentsOf readinessSource checklist supportBundleSource)) := by
  rw [← accepted_iff, releaseEvaluatorDecisionPayload, Json.get?_object]
  change some (Json.str (if List.isEmpty _ = true then "accepted" else "rejected")) = _ ↔ _
  rw [Option.some_inj, Json.str.injEq, ← List.isEmpty_iff]
  split_ifs with hempty
  · exact ⟨fun _ => hempty, fun _ => rfl⟩
  · exact ⟨fun h => absurd h (by decide), fun h => absurd h hempty⟩

/-! ### What it says -/

section

variable {d : Documents} {exceptionApplied : Bool}

theorem passed_of_accepted (h : Accepted d exceptionApplied) {check : EvaluatorCheck}
    (hcheck : check ∈ decisionChecks d exceptionApplied) :
    check.observed = check.expected ∨ check.allowPendingSelfReference = true := by
  have := h.checks check hcheck
  rw [ne_eq, blocked_iff, not_and_or, not_not, Bool.not_eq_false] at this
  exact this

theorem selfReference_of_allowed {check : EvaluatorCheck} (hcheck : check ∈ decisionChecks d exceptionApplied)
    (h : check.allowPendingSelfReference = true) :
    check.checkId ∈ selfReferenceChecks ∧ exceptionApplied = true := by
  simp only [decisionChecks, List.mem_cons, List.not_mem_nil, or_false] at hcheck
  rcases hcheck with rfl | rfl | rfl | rfl | rfl | rfl | rfl | rfl | rfl
  all_goals first
    | exact absurd h Bool.false_ne_true
    | exact ⟨by simp [selfReferenceChecks], h⟩

/-- A schema is as expected. -/
theorem schema_of_accepted (h : Accepted d exceptionApplied) {checkId label expected : String}
    {value : Option Json} (hne : expected ≠ "missing")
    (hcheck : ⟨checkId, label, evaluatorAsStr value, expected, false⟩ ∈ decisionChecks d exceptionApplied) :
    value = some (.str expected) :=
  evaluatorAsStr_eq ((passed_of_accepted h hcheck).resolve_right Bool.false_ne_true) hne

omit [CompactJson] in
theorem looksListed_of_missing {values : Option Json}
    (h : ∀ blocker ∈ listed values, evaluatorIsMissingEvaluatorBlocker blocker = true) :
    looksListed values = true := by
  cases values with
  | none => rfl
  | some v =>
    cases v with
    | null => rfl
    | arr items => rfl
    | _ => exact h _ List.mem_cons_self

theorem missing_of_looksListed {values : Option Json} {label : String}
    (h : listedBlockers label values exceptionApplied = []) (hlisted : looksListed values = true) :
    ∀ blocker ∈ listed values, evaluatorIsMissingEvaluatorBlocker blocker = true := by
  cases values with
  | none => exact List.forall_mem_nil _
  | some v =>
    cases v with
    | null => exact List.forall_mem_nil _
    | arr items =>
      intro blocker hblocker
      rw [listedBlockers, List.map_eq_nil_iff, List.filter_eq_nil_iff] at h
      have := h blocker hblocker
      rw [Bool.not_eq_true, Bool.not_eq_false', Bool.and_eq_true] at this
      exact this.2
    | _ => exact List.forall_mem_singleton.mpr hlisted

omit [CompactJson] in
/-- A list of blockers that say that this decision is missing. -/
theorem missing_of_only {values : Option Json} (h : evaluatorOnlyMissingEvaluatorBlockers values = true) :
    ∀ blocker ∈ listed values, evaluatorIsMissingEvaluatorBlocker blocker = true := by
  rw [evaluatorOnlyMissingEvaluatorBlockers.eq_def] at h
  split at h
  · exact List.all_eq_true.mp h
  · cases h

/-- **What the exception looks at.** -/
theorem exception_holds (h : evaluatorShouldApplyMissingEvaluatorSelfReferenceException d = true) :
    (∀ blocker ∈ listed d.readinessBlockers ++ listed d.checklistBlockers ++
      listed (d.correlationDetail.bind (·.get? "blockers")),
        evaluatorIsMissingEvaluatorBlocker blocker = true) ∧
    ∀ version ∈ d.candidateVersions, version = evaluatorAsStr (d.release.get? "version") := by
  rw [evaluatorShouldApplyMissingEvaluatorSelfReferenceException, Bool.and_eq_true, Bool.and_eq_true] at h
  obtain ⟨⟨hrest, hchecklist⟩, hcorrelation⟩ := h
  have hreadiness := (Bool.and_eq_true_iff.mp hrest).2
  rw [evaluatorCandidateCorrelationIsOnlyMissingEvaluator, Bool.and_eq_true] at hcorrelation
  cases hdetail : (d.releaseAssembly.get? "candidate_correlation_detail").filter Json.isObject with
  | none =>
    rw [hdetail] at hcorrelation
    exact absurd hcorrelation.2 Bool.false_ne_true
  | some detail =>
    rw [hdetail] at hcorrelation
    have hdetail : d.correlationDetail = some detail := (Option.filter_eq_some_iff.mp hdetail).1
    simp only [Bool.and_eq_true, decide_eq_true_eq] at hcorrelation
    obtain ⟨-, ⟨⟨⟨⟨⟨⟨hblockers, hrelease⟩, -⟩, hcodex⟩, hclaude⟩, hos⟩, -⟩, -⟩ := hcorrelation
    rw [hdetail, Documents.candidateVersions, hdetail]
    refine ⟨List.forall_mem_append.mpr ⟨List.forall_mem_append.mpr ⟨missing_of_only hreadiness,
      missing_of_only hchecklist⟩, missing_of_only hblockers⟩, ?_⟩
    simp only [List.map_cons, List.map_nil, List.forall_mem_cons]
    exact ⟨hrelease, hcodex, hclaude, hos, List.forall_mem_nil _⟩

omit [CompactJson] in
theorem evaluatorAsBool_false {value : Option Json} {default : Bool}
    (h : evaluatorAsBool value default = false) :
    value ≠ some (.bool true) ∧ (value = some (.bool false) ∨ default = false) := by
  cases value with
  | none => exact ⟨(fun h => nomatch h), .inr h⟩
  | some v =>
    cases v with
    | bool b =>
      obtain rfl : b = false := h
      exact ⟨(fun h => nomatch h), .inl rfl⟩
    | _ => exact ⟨(fun h => nomatch h), .inr h⟩

/-- Nothing approves, but a frontend where the document denies it. -/
theorem unapproved_of_accepted (h : Accepted d exceptionApplied) (hplain : Outspoken d) :
    ∀ place ∈ d.approvals, place ≠ some (.bool true) := by
  have htrust := h.trust
  rw [Documents.trustBlockers] at htrust
  split_ifs at htrust with happroves
  rw [Bool.not_eq_true, Bool.or_eq_false_iff, Bool.or_eq_false_iff] at happroves
  obtain ⟨⟨hreadiness, hchecklist⟩, hsupport⟩ := happroves
  obtain ⟨hprimary, hfallback⟩ := evaluatorAsBool_false hreadiness
  obtain ⟨hassembly, hfrontend⟩ := evaluatorAsBool_false hsupport
  simp only [Documents.approvals, List.forall_mem_cons]
  refine ⟨hprimary, ?_, (evaluatorAsBool_false hchecklist).1, hassembly, ?_, List.forall_mem_nil _⟩
  · rcases hfallback with hdenied | hfallback
    · exact fun hshown => hplain.readinessApproval ⟨hdenied, hshown⟩
    · exact (evaluatorAsBool_false hfallback).1
  · rcases hfrontend with hdenied | hfrontend
    · exact fun hshown => hplain.supportApproval ⟨hdenied, hshown⟩
    · exact (evaluatorAsBool_false hfrontend).1

omit [CompactJson] in
/-- The version of the readiness document is that of the release. -/
theorem release_of_readinessVersion (hrelease : d.release = evaluatorReleaseFrom d.readiness d.checklist)
    {version : String} (h : d.readinessVersion = version) (hne : version ≠ "missing") :
    evaluatorAsStr (d.release.get? "version") = version := by
  have hvalue := evaluatorAsStr_eq h hne
  obtain ⟨release, hread, hversion⟩ := Option.bind_eq_some_iff.mp hvalue
  cases release with
  | obj members =>
    cases members with
    | nil => cases hversion
    | cons m members =>
      rw [Documents.readinessVersion, hread] at h
      rw [hrelease, evaluatorReleaseFrom, hread]
      exact h
  | _ => cases hversion

/-- The versions are one if readiness and checklist name one, and the assembly names its own. -/
theorem version_of_accepted (h : Accepted d exceptionApplied) (hplain : Outspoken d)
    (hrelease : d.release = evaluatorReleaseFrom d.readiness d.checklist) :
    d.assemblyVersion = d.readinessVersion := by
  have hversion := h.version
  rw [Documents.versionBlockers, release_of_readinessVersion hrelease rfl hplain.readinessVersion]
    at hversion
  split_ifs at hversion with hdiffers
  rw [not_and_or, not_not, not_not] at hdiffers
  have hassembly := hdiffers.resolve_left fun h => absurd h hplain.readinessVersion
  obtain ⟨v, hv⟩ := Option.isSome_iff_exists.mp hplain.assemblyVersion
  rw [getOrElse, hv, Option.some_or] at hassembly
  rw [Documents.assemblyVersion, hv]
  exact hassembly

end

/-- **An accepted decision is earned exactly if the documents are outspoken.** -/
theorem earned_iff_of_accepted
    (h : (releaseEvaluatorDecisionPayload readinessPath readinessSource checklistPath checklist
      supportBundlePath supportBundleSource).get? "status" = some (.str "accepted")) :
    Earned (documentsOf readinessSource checklist supportBundleSource) ↔
      Outspoken (documentsOf readinessSource checklist supportBundleSource) := by
  have haccepted := status_payload.mp h
  set d := documentsOf readinessSource checklist supportBundleSource with hd
  constructor
  · intro hearned
    obtain ⟨version, hne, hreadiness, hchecklist, hassembly⟩ := hearned.version
    have hunapproved := hearned.unapproved
    simp only [Documents.approvals, List.forall_mem_cons] at hunapproved
    have hblockers := List.forall_mem_append.mp hearned.blockers
    refine ⟨looksListed_of_missing hblockers.1, looksListed_of_missing hblockers.2, ?_, ?_, ?_, ?_, ?_⟩
    · exact fun hshown => hunapproved.2.1 hshown.2
    · exact fun hshown => hunapproved.2.2.2.2.1 hshown.2
    · rwa [hreadiness]
    · rw [hreadiness, hchecklist]
    · rw [evaluatorAsStr_eq hassembly hne]
      rfl
  · intro hplain
    have hreadiness : d.readiness.bind (·.get? "schema_version") = some (.str evaluatorReadinessSchema) :=
      schema_of_accepted haccepted (by decide) List.mem_cons_self
    obtain ⟨readiness, hread, hschema⟩ := Option.bind_eq_some_iff.mp hreadiness
    have hchecklist : d.checklist.get? "schema" = some (.str evaluatorHandoffChecklistSchema) :=
      schema_of_accepted haccepted (by decide) (List.mem_of_getElem? (i := 2) rfl)
    have hassembly : d.releaseAssembly.get? "schema_version" = some (.str evaluatorReleaseAssemblySchema) :=
      schema_of_accepted haccepted (by decide) (List.mem_of_getElem? (i := 5) rfl)
    exact {
      readiness := ⟨readiness, hread, by rw [textUnder, hschema]; rfl⟩
      checklist := by rw [textUnder, hchecklist]; rfl
      assembly := by rw [textUnder, hassembly]; rfl
      version := ⟨d.readinessVersion, hplain.readinessVersion, rfl, hplain.checklistVersion,
        version_of_accepted haccepted hplain rfl⟩
      unapproved := unapproved_of_accepted haccepted hplain
      blockers := List.forall_mem_append.mpr
        ⟨missing_of_looksListed haccepted.readinessBlockers hplain.readinessListed,
          missing_of_looksListed haccepted.checklistBlockers hplain.checklistListed⟩
      checks := fun check hcheck => (passed_of_accepted haccepted hcheck).imp_right
        (selfReference_of_allowed hcheck)
      exception := exception_holds }

end

/-! ### Two decisions -/

section

/-- No value is written out. -/
@[reducible] def unwritten : CompactJson where
  compactJson _ := "value"

attribute [local instance] unwritten

def sampleReadiness : Json :=
  .object
    [("schema_version", .str evaluatorReadinessSchema), ("status", .str "ready"),
      ("release", .object [("version", .str "1.0.0")]), ("blockers", .arr [])]

/-- A checklist with some blockers. -/
def checklistWith (blockers : Json) : Json :=
  .object
    [("schema", .str evaluatorHandoffChecklistSchema), ("status", .str "ready_for_evaluator_closer"),
      ("release", .object [("version", .str "1.0.0")]), ("blockers", blockers)]

def sampleBundle : Json :=
  .object
    [("schema_version", .str evaluatorSupportBundleSchema),
      ("frontend_status", .object [("missing_artifact_count", .num 0)]),
      ("release_assembly", .object
        [("schema_version", .str evaluatorReleaseAssemblySchema), ("status", .str "assembled"),
          ("candidate_correlation", .str "matched"), ("release_candidate_version", .str "1.0.0")])]

theorem accepted_sample : ∀ blockers ∈ [Json.arr [], .str "the security review has failed"],
    (releaseEvaluatorDecisionPayload "" sampleReadiness "" (checklistWith blockers) "" sampleBundle).get?
      "status" = some (.str "accepted") := by
  decide

/-- Three documents that say all that is asked for. -/
theorem earned_sample : Earned (documentsOf sampleReadiness (checklistWith (.arr [])) sampleBundle) := by
  have haccepted := accepted_sample (.arr []) List.mem_cons_self
  exact (earned_iff_of_accepted haccepted).mpr ⟨by decide, by decide, by decide, by decide, by decide,
    by decide, by decide⟩

/-- Blockers that are a text are not looked at. -/
theorem not_earned_of_blockersText : ¬ ∀ readinessSource checklist supportBundleSource,
    (releaseEvaluatorDecisionPayload "" readinessSource "" checklist "" supportBundleSource).get? "status" =
      some (.str "accepted") → Earned (documentsOf readinessSource checklist supportBundleSource) := by
  intro hclaim
  have haccepted := accepted_sample (.str "the security review has failed") (by simp)
  have hmissing := (hclaim _ _ _ haccepted).blockers (.str "the security review has failed") (by decide)
  exact absurd hmissing (by decide)

end

end Release

end Ao2
