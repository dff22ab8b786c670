import Ao2.Json.Objects
import Ao2.Texts.Ascii
import Mathlib.Algebra.Ring.Nat
import Mathlib.Data.List.Dedup
import Mathlib.Data.List.Sort

/-!
# The plan

A plan is read from JSON as the derived readers do it: a structure is an object that has its fields,
or an array of them in order, and a kind is a text, or an object with the text and nothing in it.
What is written is an object in any case.

The rules that a plan has to meet. Every rule that it breaks is an error; a candidate that is no plan
at all has one error and no plan.

The steps are looked at in the order in which a hash map lists them, which is not their own.

## Main results

* `Plan.fromJson_toJson` — a plan that was written is read back
-/

namespace Ao2

namespace Planner

/-! ### Structures and kinds -/

/-- The fields of a structure. -/
def fieldsOf (names : List String) : Json → Option (List Json)
  | .obj members => names.mapM (List.lookup · members)
  | .arr items => if items.length = names.length then some items else none
  | _ => none

/-- A value of an enumeration. -/
def variantOf {α : Type} (variants : List (String × α)) : Json → Option α
  | .str name => variants.lookup name
  | .obj [(name, .null)] => variants.lookup name
  | _ => none

def stringsOf (v : Json) : Option (List String) := v.arr?.bind (·.mapM Json.str?)

def u32Of : Json → Option UInt32
  | .num (.ofNat n) => if n < 2 ^ 32 then some (.ofNat n) else none
  | _ => none

theorem mapM_map_eq_some {α β : Type} {f : β → Option α} {g : α → β} (h : ∀ a, f (g a) = some a)
    (l : List α) : (l.map g).mapM f = some l := by
  induction l with
  | nil => rfl
  | cons a l ih =>
    rw [List.map_cons, List.mapM_cons, ih, h]
    rfl

@[simp] theorem stringsOf_strs (l : List String) : stringsOf (.strs l) = some l :=
  mapM_map_eq_some (f := Json.str?) (fun _ => rfl) l

@[simp] theorem u32Of_nat (n : UInt32) : u32Of (.nat n.toNat) = some n := by
  change (if n.toNat < 2 ^ 32 then some (UInt32.ofNat n.toNat) else none) = some n
  rw [if_pos n.toNat_lt, UInt32.ofNat_toNat]

/-- The fields of an object that was put together of them. -/
theorem fieldsOf_object (values : List Json) (members : List (String × Json)) (names : List String)
    (h : names.mapM (Json.object members).get? = some values) :
    fieldsOf names (.object members) = some values := by
  have hobject : (Json.object members).isObject = true := Json.isObject_putAll rfl
  cases hv : Json.object members with
  | obj ms =>
    rw [hv] at h
    exact h
  | _ => rw [hv] at hobject; cases hobject

/-! ### The schema -/

structure Prompt where
  text : String
  sha256 : String

structure Target where
  repoPath : String
  headSha : String
  headSubject : String
  surfaceMapSha256 : String

inductive PlanKind where
  | build | investigation | refactor | fix
  deriving DecidableEq

inductive StepKind where
  | create | edit | test | verify | delete
  deriving DecidableEq

structure Step where
  id : String
  kind : StepKind
  paths : List String
  rationale : String
  acceptance : List String
  dependsOn : List String

structure ExitCriteria where
  tests : List String
  gates : List String
  manual : List String

structure PlanBody where
  kind : PlanKind
  title : String
  goal : String
  nonGoals : List String
  steps : List Step
  exitCriteria : ExitCriteria

structure Provenance where
  attempts : UInt32
  provider : String
  engineSha : String
  cliVersion : String

structure TrustBoundary where
  controlPlaneRole : String
  mutatesAoArtifacts : Bool
  ingestAuthority : String
  releaseAcceptanceOwner : String

/-- A plan. A quality that is `null` is read as none. -/
structure Plan where
  schemaVersion : String
  planId : String
  generatedAtUtc : String
  prompt : Prompt
  target : Target
  plan : PlanBody
  provenance : Provenance
  trustBoundary : TrustBoundary
  quality : Option {v : Json // v ≠ .null}

structure SurfaceFile where
  kind : String
  path : String
  publicSymbols : List String
  sha256 : String

structure SurfaceMap where
  files : List SurfaceFile
  headSha : String

def SurfaceFile.toJson (f : SurfaceFile) : Json :=
  .object [("kind", .str f.kind), ("path", .str f.path), ("public_symbols", .strs f.publicSymbols),
    ("sha256", .str f.sha256)]

def SurfaceMap.toJson (m : SurfaceMap) : Json :=
  .object [("files", .arr (m.files.map SurfaceFile.toJson)), ("head_sha", .str m.headSha)]

/-! ### Writing -/

def Prompt.toJson (p : Prompt) : Json := .object [("text", .str p.text), ("sha256", .str p.sha256)]

def Target.toJson (t : Target) : Json :=
  .object [("repo_path", .str t.repoPath), ("head_sha", .str t.headSha),
    ("head_subject", .str t.headSubject), ("surface_map_sha256", .str t.surfaceMapSha256)]

def planKinds : List (String × PlanKind) :=
  [("build", .build), ("investigation", .investigation), ("refactor", .refactor), ("fix", .fix)]

def PlanKind.toJson : PlanKind → Json
  | .build => .str "build"
  | .investigation => .str "investigation"
  | .refactor => .str "refactor"
  | .fix => .str "fix"

def stepKinds : List (String × StepKind) :=
  [("create", .create), ("edit", .edit), ("test", .test), ("verify", .verify), ("delete", .delete)]

def StepKind.toJson : StepKind → Json
  | .create => .str "create"
  | .edit => .str "edit"
  | .test => .str "test"
  | .verify => .str "verify"
  | .delete => .str "delete"

def Step.toJson (s : Step) : Json :=
  .object [("id", .str s.id), ("kind", s.kind.toJson), ("paths", .strs s.paths),
    ("rationale", .str s.rationale), ("acceptance", .strs s.acceptance),
    ("depends_on", .strs s.dependsOn)]

def ExitCriteria.toJson (c : ExitCriteria) : Json :=
  .object [("tests", .strs c.tests), ("gates", .strs c.gates), ("manual", .strs c.manual)]

def PlanBody.toJson (b : PlanBody) : Json :=
  .object [("kind", b.kind.toJson), ("title", .str b.title), ("goal", .str b.goal),
    ("non_goals", .strs b.nonGoals), ("steps", .arr (b.steps.map Step.toJson)),
    ("exit_criteria", b.exitCriteria.toJson)]

def Provenance.toJson (p : Provenance) : Json :=
  .object [("attempts", .nat p.attempts.toNat), ("provider", .str p.provider),
    ("engine_sha", .str p.engineSha), ("cli_version", .str p.cliVersion)]

def TrustBoundary.toJson (b : TrustBoundary) : Json :=
  .object [("control_plane_role", .str b.controlPlaneRole),
    ("mutates_ao_artifacts", .bool b.mutatesAoArtifacts),
    ("ingest_authority", .str b.ingestAuthority),
    ("release_acceptance_owner", .str b.releaseAcceptanceOwner)]

def Plan.toJson (p : Plan) : Json :=
  .object ([("schema_version", .str p.schemaVersion), ("plan_id", .str p.planId),
    ("generated_at_utc", .str p.generatedAtUtc), ("prompt", p.prompt.toJson),
    ("target", p.target.toJson), ("plan", p.plan.toJson), ("provenance", p.provenance.toJson),
    ("trust_boundary", p.trustBoundary.toJson)] ++ (p.quality.map fun q => ("quality", q.val)).toList)

/-! ### Reading -/

def Prompt.fromJson (v : Json) : Option Prompt := do
  match ← fieldsOf ["text", "sha256"] v with
  | [text, sha256] => some ⟨← text.str?, ← sha256.str?⟩
  | _ => none

def Target.fromJson (v : Json) : Option Target := do
  match ← fieldsOf ["repo_path", "head_sha", "head_subject", "surface_map_sha256"] v with
  | [repoPath, headSha, headSubject, surfaceMapSha256] =>
    some ⟨← repoPath.str?, ← headSha.str?, ← headSubject.str?, ← surfaceMapSha256.str?⟩
  | _ => none

def Step.fromJson (v : Json) : Option Step := do
  match ← fieldsOf ["id", "kind", "paths", "rationale", "acceptance", "depends_on"] v with
  | [id, kind, paths, rationale, acceptance, dependsOn] =>
    some ⟨← id.str?, ← variantOf stepKinds kind, ← stringsOf paths, ← rationale.str?,
      ← stringsOf acceptance, ← stringsOf dependsOn⟩
  | _ => none

def ExitCriteria.fromJson (v : Json) : Option ExitCriteria := do
  match ← fieldsOf ["tests", "gates", "manual"] v with
  | [tests, gates, manual] => some ⟨← stringsOf tests, ← stringsOf gates, ← stringsOf manual⟩
  | _ => none

def PlanBody.fromJson (v : Json) : Option PlanBody := do
  match ← fieldsOf ["kind", "title", "goal", "non_goals", "steps", "exit_criteria"] v with
  | [kind, title, goal, nonGoals, steps, exitCriteria] =>
    some ⟨← variantOf planKinds kind, ← title.str?, ← goal.str?, ← stringsOf nonGoals,
      ← (← steps.arr?).mapM Step.fromJson, ← ExitCriteria.fromJson exitCriteria⟩
  | _ => none

def Provenance.fromJson (v : Json) : Option Provenance := do
  match ← fieldsOf ["attempts", "provider", "engine_sha", "cli_version"] v with
  | [attempts, provider, engineSha, cliVersion] =>
    some ⟨← u32Of attempts, ← provider.str?, ← engineSha.str?, ← cliVersion.str?⟩
  | _ => none

def TrustBoundary.fromJson (v : Json) : Option TrustBoundary := do
  match ← fieldsOf ["control_plane_role", "mutates_ao_artifacts", "ingest_authority",
    "release_acceptance_owner"] v with
  | [controlPlaneRole, mutatesAoArtifacts, ingestAuthority, releaseAcceptanceOwner] =>
    some ⟨← controlPlaneRole.str?, ← mutatesAoArtifacts.bool?, ← ingestAuthority.str?,
      ← releaseAcceptanceOwner.str?⟩
  | _ => none

def planFields : List String :=
  ["schema_version", "plan_id", "generated_at_utc", "prompt", "target", "plan", "provenance",
    "trust_boundary"]

/-- A field that need not be there. -/
def present : Option Json → Option {v : Json // v ≠ .null}
  | some v => if h : v = .null then none else some ⟨v, h⟩
  | none => none

/-- The fields of a plan, and its quality; an array need not have it. -/
def splitQuality : Json → Option (List Json × Option {v : Json // v ≠ .null})
  | .obj members => (planFields.mapM (List.lookup · members)).map (·, present (members.lookup "quality"))
  | .arr items =>
    if items.length = 8 ∨ items.length = 9 then some (items.take 8, present items[8]?) else none
  | _ => none

def Plan.fromJson (v : Json) : Option Plan := do
  match ← splitQuality v with
  | ([schemaVersion, planId, generatedAtUtc, prompt, target, plan, provenance, trustBoundary],
      quality) =>
    some ⟨← schemaVersion.str?, ← planId.str?, ← generatedAtUtc.str?, ← Prompt.fromJson prompt,
      ← Target.fromJson target, ← PlanBody.fromJson plan, ← Provenance.fromJson provenance,
      ← TrustBoundary.fromJson trustBoundary, quality⟩
  | _ => none

/-! ### A plan that was written is read back -/

@[simp] theorem Prompt.fromJson_toJson (p : Prompt) : Prompt.fromJson p.toJson = some p := by
  rw [Prompt.fromJson, toJson, fieldsOf_object [.str p.text, .str p.sha256]]
  · rfl
  · simp only [List.mapM_cons, Json.get?_object]
    rfl

@[simp] theorem Target.fromJson_toJson (t : Target) : Target.fromJson t.toJson = some t := by
  rw [Target.fromJson, toJson, fieldsOf_object
    [.str t.repoPath, .str t.headSha, .str t.headSubject, .str t.surfaceMapSha256]]
  · rfl
  · simp only [List.mapM_cons, Json.get?_object]
    rfl

@[simp] theorem variantOf_planKind (k : PlanKind) : variantOf planKinds k.toJson = some k := by
  cases k <;> decide

@[simp] theorem variantOf_stepKind (k : StepKind) : variantOf stepKinds k.toJson = some k := by
  cases k <;> decide

@[simp] theorem Step.fromJson_toJson (s : Step) : Step.fromJson s.toJson = some s := by
  rw [Step.fromJson, toJson, fieldsOf_object [.str s.id, s.kind.toJson, .strs s.paths,
    .str s.rationale, .strs s.acceptance, .strs s.dependsOn]]
  · simp only [Option.bind_eq_bind, Option.bind_some, variantOf_stepKind, stringsOf_strs, Json.str?]
  · simp only [List.mapM_cons, Json.get?_object]
    rfl

@[simp] theorem ExitCriteria.fromJson_toJson (c : ExitCriteria) :
    ExitCriteria.fromJson c.toJson = some c := by
  rw [ExitCriteria.fromJson, toJson, fieldsOf_object
    [.strs c.tests, .strs c.gates, .strs c.manual]]
  · simp only [Option.bind_eq_bind, Option.bind_some, stringsOf_strs]
  · simp only [List.mapM_cons, Json.get?_object]
    rfl

@[simp] theorem PlanBody.fromJson_toJson (b : PlanBody) : PlanBody.fromJson b.toJson = some b := by
  rw [PlanBody.fromJson, toJson, fieldsOf_object [b.kind.toJson, .str b.title, .str b.goal,
    .strs b.nonGoals, .arr (b.steps.map Step.toJson), b.exitCriteria.toJson]]
  · simp only [Option.bind_eq_bind, Option.bind_some, variantOf_planKind, stringsOf_strs, Json.str?,
      Json.arr?, mapM_map_eq_some Step.fromJson_toJson, ExitCriteria.fromJson_toJson]
  · simp only [List.mapM_cons, Json.get?_object]
    rfl

@[simp] theorem Provenance.fromJson_toJson (p : Provenance) :
    Provenance.fromJson p.toJson = some p := by
  rw [Provenance.fromJson, toJson, fieldsOf_object
    [.nat p.attempts.toNat, .str p.provider, .str p.engineSha, .str p.cliVersion]]
  · simp only [Option.bind_eq_bind, Option.bind_some, u32Of_nat, Json.str?]
  · simp only [List.mapM_cons, Json.get?_object]
    rfl

@[simp] theorem TrustBoundary.fromJson_toJson (b : TrustBoundary) :
    TrustBoundary.fromJson b.toJson = some b := by
  rw [TrustBoundary.fromJson, toJson, fieldsOf_object [.str b.controlPlaneRole,
    .bool b.mutatesAoArtifacts, .str b.ingestAuthority, .str b.releaseAcceptanceOwner]]
  · rfl
  · simp only [List.mapM_cons, Json.get?_object]
    rfl

theorem present_map_val (q : Option {v : Json // v ≠ .null}) : present (q.map Subtype.val) = q := by
  cases q with
  | none => rfl
  | some v => exact dif_neg v.property

theorem splitQuality_object (members : List (String × Json)) : splitQuality (.object members) =
    (planFields.mapM (Json.object members).get?).map
      (·, present ((Json.object members).get? "quality")) := by
  have hobject : (Json.object members).isObject = true := Json.isObject_putAll rfl
  cases hv : Json.object members with
  | obj ms => rfl
  | _ => rw [hv] at hobject; cases hobject

/-- **A plan that was written is read back.** -/
theorem Plan.fromJson_toJson (p : Plan) : Plan.fromJson p.toJson = some p := by
  obtain ⟨schemaVersion, planId, generatedAtUtc, prompt, target, plan, provenance, trustBoundary,
    quality⟩ := p
  have hfields : ∀ (prompt target plan provenance trustBoundary : Json),
      splitQuality (.object ([("schema_version", .str schemaVersion), ("plan_id", .str planId),
        ("generated_at_utc", .str generatedAtUtc), ("prompt", prompt), ("target", target),
        ("plan", plan), ("provenance", provenance), ("trust_boundary", trustBoundary)] ++
          (quality.map fun q => ("quality", q.val)).toList)) =
        some ([.str schemaVersion, .str planId, .str generatedAtUtc, prompt, target, plan, provenance,
          trustBoundary], quality) := by
    intro prompt target plan provenance trustBoundary
    rw [splitQuality_object, planFields]
    simp only [List.mapM_cons, Json.get?_object]
    cases quality with
    | none => rfl
    | some q =>
      refine Eq.trans ?_ (congrArg (fun q' => some (_, q')) (present_map_val (some q)))
      rfl
  rw [Plan.fromJson, Plan.toJson, hfields]
  simp only [Option.bind_eq_bind, Option.bind_some, Json.str?, Prompt.fromJson_toJson,
    Target.fromJson_toJson, PlanBody.fromJson_toJson, Provenance.fromJson_toJson,
    TrustBoundary.fromJson_toJson]

end Planner

end Ao2

/-! ## The validator -/

namespace Ao2

namespace Planner

def schemaVersionText : String := "ao2.sdd-plan.v1"

def allowedShells : List String :=
  ["cargo", "npm", "pnpm", "pytest", "python3", "bash", "sh", "node", "git", "gh", "ao2", "ao"]

/-- The words with which an acceptance line begins. -/
def acceptanceVerbs : List String :=
  ["accept", "add", "annotate", "append", "apply", "assert", "audit", "block", "build", "bump",
    "cancel", "capture", "change", "check", "clear", "close", "collect", "commit", "compose",
    "compute", "confirm", "configure", "connect", "construct", "copy", "create", "declare",
    "decode", "define", "delete", "deliver", "deploy", "derive", "describe", "deserialize",
    "detect", "diff", "dispatch", "document", "drop", "dump", "emit", "enable", "encode", "enforce",
    "ensure", "establish", "exit", "expand", "expect", "expose", "extend", "extract", "fail",
    "fetch", "find", "finish", "fix", "flag", "flush", "format", "gate", "generate", "get", "halt",
    "handle", "hash", "hide", "ignore", "implement", "import", "include", "increment", "index",
    "init", "initialize", "insert", "inspect", "install", "invoke", "issue", "land", "lint", "list",
    "load", "lock", "log", "make", "map", "mark", "match", "merge", "mirror", "mock", "move",
    "name", "normalize", "open", "order", "output", "package", "parse", "pass", "persist", "pin",
    "populate", "post", "preserve", "print", "produce", "propagate", "prove", "publish", "pull",
    "push", "query", "read", "rebase", "record", "redact", "refuse", "register", "reject",
    "release", "remove", "rename", "render", "replace", "report", "request", "require", "reset",
    "resolve", "respond", "restart", "restore", "retry", "return", "review", "rotate", "route",
    "run", "sanitize", "save", "scan", "schedule", "select", "send", "serialize", "serve", "set",
    "ship", "show", "sign", "skip", "sort", "split", "stamp", "start", "stop", "store", "stream",
    "stub", "submit", "succeed", "support", "surface", "swap", "sync", "tag", "target", "test",
    "throw", "throw", "tokenize", "trace", "track", "transform", "translate", "trigger", "trim",
    "truncate", "tune", "unblock", "uninstall", "unlock", "unregister", "update", "upgrade",
    "upload", "use", "validate", "verify", "wait", "warn", "watch", "wrap", "write", "yield",
    "zero", "cite", "demonstrate", "denote", "discover", "explain", "identify", "illustrate",
    "indicate", "locate", "maintain", "mention", "note", "observe", "place", "point", "recognize",
    "reexport", "reference"]

/-- Texts and an order that the libraries decide. -/
class PlannerLibrary where
  /-- Why a value is no plan. -/
  shapeMessage : Json → String
  /-- A text in quotes, for debugging. -/
  debugText : String → String
  /-- The order in which a hash map lists its keys. -/
  mapOrder : List String → List String

export PlannerLibrary (shapeMessage debugText mapOrder)

/-! ### Errors -/

inductive ValidationError where
  | shape (message : String)
  | badSchemaVersion (expected actual : String)
  | unknownPath (stepId path : String)
  | emptyAcceptance (stepId : String)
  | acceptanceVerbMissing (stepId : String) (index : ℕ) (token : String)
  | cycle (steps : List String)
  | duplicateStepId (id : String)
  | mutatingPlanner
  | excessAttempts (attempts : ℕ)
  | badStepCount (count : ℕ)
  | disallowedShell (location : String) (index : ℕ) (token : String)
  | badStepId (id : String)
  | overlongTitle (length : ℕ)
  | unknownDependency (stepId missing : String)

def ValidationError.toText [PlannerLibrary] : ValidationError → String
  | shape message => "V1: candidate failed to deserialize into Plan: " ++ message
  | badSchemaVersion expected actual =>
    "V1: schema_version must be " ++ expected ++ " (got " ++ actual ++ ")"
  | unknownPath stepId path => "V2: step '" ++ stepId ++ "' references unknown path '" ++ path ++ "'"
  | emptyAcceptance stepId => "V3: step '" ++ stepId ++ "' has empty acceptance list"
  | acceptanceVerbMissing stepId index token =>
    "V3: step '" ++ stepId ++ "' acceptance entry " ++ toString index ++
      " does not start with a verb (got '" ++ token ++ "')"
  | cycle steps =>
    "V4: dependency cycle involving steps \x7b" ++ ", ".intercalate (steps.map debugText) ++ "\x7d"
  | duplicateStepId id => "V4: duplicate step id '" ++ id ++ "'"
  | mutatingPlanner => "V5: trust_boundary.mutates_ao_artifacts must be literal false"
  | excessAttempts attempts =>
    "V6: provenance.attempts must be in [1, 3] (got " ++ toString attempts ++ ")"
  | badStepCount count => "V7: plan.steps.len() must be in [1, 25] (got " ++ toString count ++ ")"
  | disallowedShell location index token =>
    "V8: exit_criteria." ++ location ++ "[" ++ toString index ++ "] shell '" ++ token ++
      "' is not allow-listed"
  | badStepId id => "V9: step.id '" ++ id ++ "' does not match /^step_[a-z0-9_]+$/"
  | overlongTitle length => "V10: plan.title length " ++ toString length ++ " exceeds 80"
  | unknownDependency stepId missing =>
    "V4: step '" ++ stepId ++ "' depends on unknown step '" ++ missing ++ "'"

structure ValidationReport where
  errors : List ValidationError
  plan : Option Plan

namespace ValidationReport

def isPass (r : ValidationReport) : Bool := r.errors.isEmpty

def errorsForProviderFeedback [PlannerLibrary] (r : ValidationReport) : List String :=
  r.errors.map ValidationError.toText

/-- A number with at least two digits. -/
def twoDigits (n : ℕ) : String := if n < 10 then "0" ++ toString n else toString n

def render [PlannerLibrary] (r : ValidationReport) : String :=
  if r.errors.isEmpty then "PASS\n"
  else
    "FAIL: " ++ toString r.errors.length ++ " error(s)\n" ++
      String.join ((r.errors.zipIdx).map fun (e, i) => "[" ++ twoDigits i ++ "] " ++ e.toText ++ "\n")

end ValidationReport

/-! ### Rules -/

/-- The first word of a text. -/
def firstWord (s : String) : String := (splitWhitespace s).headD ""

def checkTrustBoundary (plan : Plan) : List ValidationError :=
  if plan.trustBoundary.mutatesAoArtifacts then [.mutatingPlanner] else []

def checkAttempts (plan : Plan) : List ValidationError :=
  let a := plan.provenance.attempts.toNat
  if 1 ≤ a ∧ a ≤ 3 then [] else [.excessAttempts a]

def checkStepCount (plan : Plan) : List ValidationError :=
  let n := plan.plan.steps.length
  if 1 ≤ n ∧ n ≤ 25 then [] else [.badStepCount n]

/-- The commands of one list of the exit criteria. -/
def checkShells (location : String) (commands : List String) : List ValidationError :=
  commands.zipIdx.filterMap fun (command, index) =>
    if firstWord command ∈ allowedShells then none
    else some (.disallowedShell location index (firstWord command))

def checkShellAllowlist (plan : Plan) : List ValidationError :=
  checkShells "tests" plan.plan.exitCriteria.tests ++ checkShells "gates" plan.plan.exitCriteria.gates

def isValidStepId (id : String) : Bool :=
  "step_".toList <+: id.toList ∧ id.toList.drop 5 ≠ [] ∧
    (id.toList.drop 5).all fun c => c.isLower || c.isDigit || c = '_'

def checkStepIds (plan : Plan) : List ValidationError :=
  (plan.plan.steps.filter fun step => !isValidStepId step.id).map fun step => .badStepId step.id

def checkTitle (plan : Plan) : List ValidationError :=
  if 80 < plan.plan.title.length then [.overlongTitle plan.plan.title.length] else []

/-- The word of an acceptance line that has to be a verb. -/
def acceptanceToken (line : String) : String :=
  .ofList ((toAsciiLowercase (firstWord line)).toList.filter (· ≠ '-'))

def checkStepAcceptance (step : Step) : List ValidationError :=
  if step.acceptance = [] then [.emptyAcceptance step.id]
  else
    step.acceptance.zipIdx.filterMap fun (line, index) =>
      if acceptanceToken line ∈ acceptanceVerbs then none
      else some (.acceptanceVerbMissing step.id index (acceptanceToken line))

def checkAcceptance (plan : Plan) : List ValidationError := plan.plan.steps.flatMap checkStepAcceptance

/-- The texts that are in a list again later, in order. -/
def duplicates : List String → List String
  | [] => []
  | s :: rest => if s ∈ rest ∧ s ∉ duplicates rest then s :: duplicates rest else duplicates rest

def checkDuplicateStepIds (plan : Plan) : List ValidationError :=
  ((duplicates (plan.plan.steps.map Step.id)).insertionSort (· ≤ ·)).map .duplicateStepId

def checkPaths (plan : Plan) (surfaceMap : SurfaceMap) : List ValidationError :=
  plan.plan.steps.flatMap fun step =>
    (step.paths.filter (· ∉ surfaceMap.files.map SurfaceFile.path)).map (.unknownPath step.id)

/-! ### Cycles -/

inductive Mark where
  | visiting
  | done
  deriving DecidableEq

/-- How far the search has come. -/
structure Search where
  state : List (String × Mark)
  cycle : List String

/-- The search from one step on. Every step on the stack is marked, so as many steps as there are is
deep enough. -/
def dfs (graph : List (String × List String)) : ℕ → List String → Search → String → Search
  | 0, _, s, _ => s
  | depth + 1, stack, s, node =>
    match s.state.lookup node with
    | some .done => s
    | some .visiting => { s with cycle := s.cycle ++ node :: stack.takeWhile (· ≠ node) }
    | none =>
      let s' := ((graph.lookup node).getD []).foldl (dfs graph depth (node :: stack))
        { s with state := (node, .visiting) :: s.state }
      { s' with state := (node, .done) :: s'.state }

def checkCycles [PlannerLibrary] (plan : Plan) : List ValidationError :=
  let ids := plan.plan.steps.map Step.id
  let unknown := plan.plan.steps.flatMap fun step =>
    (step.dependsOn.filter (· ∉ ids)).map (.unknownDependency step.id)
  let graph := plan.plan.steps.map fun step => (step.id, step.dependsOn.filter (· ∈ ids))
  let s := (mapOrder ids).foldl (dfs graph (ids.length + 1) []) ⟨[], []⟩
  unknown ++ if s.cycle = [] then [] else [.cycle (s.cycle.dedup.insertionSort (· ≤ ·))]

/-! ### All rules -/

def planErrors [PlannerLibrary] (plan : Plan) (surfaceMap : Option SurfaceMap) : List ValidationError :=
  (if plan.schemaVersion = schemaVersionText then []
    else [.badSchemaVersion schemaVersionText plan.schemaVersion]) ++
  checkTrustBoundary plan ++ checkAttempts plan ++ checkStepCount plan ++ checkShellAllowlist plan ++
  checkStepIds plan ++ checkTitle plan ++ checkAcceptance plan ++
  (if checkDuplicateStepIds plan = [] then checkCycles plan else checkDuplicateStepIds plan) ++
  (surfaceMap.map (checkPaths plan)).getD []

def validate [PlannerLibrary] (planJson : Json) (surfaceMap : Option SurfaceMap) : ValidationReport :=
  match Plan.fromJson planJson with
  | none => ⟨[.shape (shapeMessage planJson)], none⟩
  | some plan => ⟨planErrors plan surfaceMap, some plan⟩

end Planner

end Ao2
