import Ao2.Interaction.Machine
import Ao2.Json.Objects
import Ao2.Texts.Bytes
import Ao2.Texts.Lines
import Ao2.Texts.Split
import Mathlib.Algebra.Ring.Nat
import Mathlib.Data.List.Lex

/-!
# Requests of the workbench

A request is a text. Its first line is read leniently, and so is the form in its body. Values are
percent-decoded on the way; the two bytes after a percent sign are cut out of the text, and a cut within
a character is a panic.

A request is routed by its method and its path. Every route checks the role of the operator, some need
the queue or a key for signatures, then the handler is called with what the route reads of the request.
Most routes answer an error of their handler; the others pass it on.
-/

namespace Ao2

namespace Workbench

/-- A text of a request. -/
abbrev Text := List Char

/-! ### Failures and responses -/

inductive WorkbenchError where
  | minimumScore (runId : String) (minimumScore score : ℕ) (verdict : String)
  | other (message : String)
  deriving DecidableEq

/-- How a function comes to an end without a value. -/
inductive Failure where
  | error (e : WorkbenchError)
  | panic
  deriving DecidableEq

inductive Response where
  | text (status : ℕ) (reason body : String)
  | json (status : ℕ) (body : Json)
  | html (page : Text)

def WorkbenchError.message : WorkbenchError → String
  | minimumScore .. => "minimum_provider_score_not_met"
  | other message => message

def workbenchErrorJson : WorkbenchError → Json
  | .minimumScore runId minimumScore score verdict => .obj
      [("schema_version", .str "ao2.workbench-error.v1"),
        ("error", .str "minimum_provider_score_not_met"), ("run_id", .str runId),
        ("minimum_score", .num minimumScore), ("score", .num score), ("verdict", .str verdict)]
  | .other message => .obj
      [("schema_version", .str "ao2.workbench-error.v1"), ("error", .str message)]

/-! ### Percent-decoding -/

def hexDigitValue (b : ℕ) : Option ℕ :=
  if 48 ≤ b ∧ b ≤ 57 then some (b % 48)
  else if 97 ≤ b ∧ b ≤ 102 then some (b % 97 + 10)
  else if 65 ≤ b ∧ b ≤ 70 then some (b % 65 + 10)
  else none

/-- The number of two bytes in base 16; there may be a plus sign in front of a digit. -/
def parseHex (h l : UInt8) : Option UInt8 :=
  match hexDigitValue h.toNat, hexDigitValue l.toNat with
  | some high, some low => some (.ofNat (high * 16 + low))
  | none, some low => if h = 43 then some (.ofNat low) else none
  | _, none => none

/-- No character begins with this byte. -/
def isContinuation (b : UInt8) : Bool := 0x80 ≤ b.toNat && b.toNat < 0xC0

/-- The bytes of a value. The two bytes after a percent sign are a slice of the text. -/
def percentBytes : Octets → Except Failure Octets
  | [] => .ok []
  | [b] => .ok [if b = 43 then 32 else b]
  | [b, c] => do
    let rest ← percentBytes [c]
    .ok ((if b = 43 then 32 else b) :: rest)
  | b :: h :: l :: rest =>
    if b = 43 then return 32 :: (← percentBytes (h :: l :: rest))
    else if b = 37 then
      if isContinuation h || rest.head?.any isContinuation then .error .panic
      else
        match parseHex h l with
        | some value => return value :: (← percentBytes rest)
        | none => return b :: (← percentBytes (h :: l :: rest))
    else return b :: (← percentBytes (h :: l :: rest))

def percentDecode (input : Text) : Except Failure Text := do
  let output ← percentBytes (utf8Bytes input)
  .ok (fromUtf8Lossy output)

/-! ### The first line -/

def trimStart (text : Text) : Text := text.dropWhile isWhitespace

def trimEnd (text : Text) : Text := (text.reverse.dropWhile isWhitespace).reverse

/-- What is before the last occurrence of a marker. -/
def beforeLast (marker : Text) : Text → Option Text
  | [] => if marker = [] then some [] else none
  | c :: text =>
    match beforeLast marker text with
    | some before => some (c :: before)
    | none => if marker <+: c :: text then some [] else none

/-- The method and the path with its query. -/
def parseHttpRequestLine (requestLine : Text) : Text × Text :=
  let line := (requestLine.reverse.dropWhile (· = '\r')).reverse
  match splitOnce [' '] line with
  | none => ([], ['/'])
  | some (method, rest) =>
    let rest := trimStart rest
    let rawPath := trimEnd <|
      match beforeLast " HTTP/".toList rest with
      | some before => before
      | none => rest.takeWhile fun c => !isWhitespace c
    (method, if rawPath = [] then ['/'] else rawPath)

def splitPathQuery (rawPath : Text) : Text × Text := (splitOnce ['?'] rawPath).getD (rawPath, [])

/-! ### Queries and forms -/

/-- The value of the first part with this key that is not blank. -/
def findValue (key : Text) : List Text → Except Failure (Option Text)
  | [] => .ok none
  | part :: parts =>
    match splitOnce ['='] part with
    | some (queryKey, value) =>
      if queryKey = key then do
        let value ← percentDecode value
        if trimEnd (trimStart value) = [] then findValue key parts
        else .ok (some (trimEnd (trimStart value)))
      else findValue key parts
    | none => findValue key parts

def queryValueOwned (query : Text) (key : String) : Except Failure (Option Text) :=
  findValue key.toList (query.splitOn '&')

/-- A form, in the order of its keys. -/
abbrev Form := List (Text × Text)

def Form.insert (key value : Text) : Form → Form
  | [] => [(key, value)]
  | (k, v) :: form =>
    if key = k then (key, value) :: form
    else if key < k then (key, value) :: (k, v) :: form
    else (k, v) :: insert key value form

def parseFormParts : List Text → Form → Except Failure Form
  | [], form => .ok form
  | part :: parts, form =>
    if part = [] then parseFormParts parts form
    else do
      let (key, value) := (splitOnce ['='] part).getD (part, [])
      let key ← percentDecode key
      let value ← percentDecode value
      parseFormParts parts (form.insert key value)

def parseFormBody (body : Text) : Except Failure Form := parseFormParts (body.splitOn '&') []

def formValueOwned (form : Form) (key : String) : Option Text :=
  ((form.find? (·.1 = key.toList)).map fun entry => trimEnd (trimStart entry.2)).filter (· ≠ [])

/-- The line break that ends a head. -/
def blankLine : Text := ['\r', '\n', '\r', '\n']

/-- The second of the parts between blank lines. -/
def requestBody (request : Text) : Text :=
  match splitOnce blankLine request with
  | none => []
  | some (_, rest) => ((splitOnce blankLine rest).map Prod.fst).getD rest

/-! ### Operators -/

inductive WorkbenchOperatorRole where
  | viewer
  | operator
  | admin
  deriving DecidableEq

namespace WorkbenchOperatorRole

def asStr : WorkbenchOperatorRole → String
  | viewer => "viewer"
  | operator => "operator"
  | admin => "admin"

def level : WorkbenchOperatorRole → ℕ
  | viewer => 1
  | operator => 2
  | admin => 3

def can (role required : WorkbenchOperatorRole) : Bool := required.level ≤ role.level

end WorkbenchOperatorRole

structure WorkbenchOperator where
  id : String
  role : WorkbenchOperatorRole
  token : Text
  deriving DecidableEq

def workbenchOperatorFromQuery (query : Text) (operators : List WorkbenchOperator) :
    Except Failure (Option WorkbenchOperator) := do
  let token ← queryValueOwned query "token"
  .ok (token.bind fun token => operators.find? (·.token = token))

/-- Without a token, the only operator there is. -/
def workbenchOperatorForHtml (query : Text) (operators : List WorkbenchOperator) :
    Except Failure (Option WorkbenchOperator) := do
  let operator ← workbenchOperatorFromQuery query operators
  match operator with
  | some operator => .ok (some operator)
  | none => do
    let token ← queryValueOwned query "token"
    .ok (if token.isNone ∧ operators.length = 1 then operators.head? else none)

def invalidApiToken : Response := .json 403 <| .obj
  [("schema_version", .str "ao2.workbench-error.v1"), ("error", .str "invalid_api_token")]

def insufficientOperatorRole (operator : WorkbenchOperator) (required : WorkbenchOperatorRole) :
    Response := .json 403 <| .obj
  [("schema_version", .str "ao2.workbench-error.v1"), ("error", .str "insufficient_operator_role"),
    ("operator_id", .str operator.id), ("operator_role", .str operator.role.asStr),
    ("required_role", .str required.asStr)]

/-- The response to a request that is not allowed; there is none if it is. -/
def workbenchApiAuthorizationFailure (query : Text) (operators : List WorkbenchOperator)
    (required : WorkbenchOperatorRole) : Except Failure (Option Response) := do
  let operator ← workbenchOperatorFromQuery query operators
  match operator with
  | none => .ok (some invalidApiToken)
  | some operator =>
    if operator.role.can required then .ok none
    else .ok (some (insufficientOperatorRole operator required))

end Workbench

end Ao2

/-! ## Routes of the workbench -/

namespace Ao2

open Interaction

namespace Workbench

/-- The functions that routes call. -/
inductive Handler where
  | renderWorkbench
  | runsListJson
  | factoryProjectStartNextActionJson
  | factoryProjectStartCompletionSummaryJson
  | factoryProjectStartCompletionSummaryMemoryStatusJson
  | factoryProjectStartRecoveryJson
  | factoryProjectStartLatestRecoveryJson
  | factoryProjectStartRecoveryActionJson
  | factoryProjectStartRecoveryResumeReceiptJson
  | factoryProjectStartRecoveryResumeCheckpointJson
  | factoryProjectStartRecoveryResumeCheckpointStatusJson
  | factoryProjectStartRecoveryResumeContinuityJson
  | factoryProjectStartRecoveryResumePlanJson
  | factoryProjectStartRecoveryResumeClaimJson
  | factoryProjectStartRecoveryResumeClaimStatusJson
  | factoryProjectStartRecoveryResumeContinuationContractJson
  | factoryProjectStartRecoveryResumeContinueJson
  | factoryProjectStartRecoveryResumeContinuationStatusJson
  | factoryProjectStartRecoveryResumePostContinuationActionJson
  | factoryProjectStartRecoveryResumePostContinuationExecuteJson
  | factoryProjectStartRecoveryResumePostContinuationExecutionStatusJson
  | factoryProjectStartRecoveryResumePostContinuationNextActionJson
  | factoryProjectStartRecoveryResumePostContinuationClosureJson
  | factoryProjectStartRecoveryResumePostContinuationEvaluatorDecisionJson
  | factoryProjectStartRecoveryResumePostContinuationReleaseHandoffJson
  | factoryProjectStartRecoveryResumePostContinuationReleaseHandoffStatusJson
  | factoryProjectStartRecoveryResumePostContinuationReleaseHandoffStatusSummaryJson
  | factoryProjectStartRecoveryResumePostContinuationReleaseHandoffStatusSummaryExportJson
  | factoryProjectStartRecoveryResumePostContinuationReleasePublicationReadinessJson
  | factoryProjectStartRecoveryResumePostContinuationReleasePublicationDispatchPlanJson
  | factoryProjectStartRecoveryResumePostContinuationReleasePublicationReadbackJson
  | factoryProjectStartRecoveryResumePostContinuationReleasePublicationClosureJson
  | factoryReplacementParityStatusJson
  | factoryCompatPlanJson
  | factoryProjectStartCompletionSummaryMemoryJson
  | factoryProjectStartHermesFlowContractJson
  | factoryGreenfieldSpecIngestJson
  | factoryGreenfieldSpecIngestSubmitJson
  | factoryProjectStartRunNextJson
  | factoryProjectStartOperatorRecordJson
  | memorySearchJson
  | memoryRecentJson
  | memoryExportJson
  | memoryPublishLatestJson
  | memoryControlPlaneDashboardJson
  | memoryLinkRunJson
  | runEvidenceSummaryJson
  | runEvidenceDiffJson
  | runEvidenceChangesJson
  | latestWorkbenchSupportPacketJson
  | evidenceExportJson
  | evidencePublishJson
  | evidenceControlPlaneDetailJson
  | evidenceControlPlaneDashboardJson
  | obligationAnnotationJson
  | obligationGateJson
  | templatesJson
  | doctorReportJson
  | releaseHealthJson
  | releaseHistoryJson
  | releaseGateArtifactJson
  | releaseComparisonJson
  | releaseSummaryEnrichJson
  | releaseGateJson
  | releaseComparisonVerificationJson
  | latestReleaseComparisonJson
  | releaseRetentionPruneJson
  | providerMatrixJson
  | providerContractsJson
  | latestProviderPilotAcceptanceJson
  | providerPilotCostLedgerJson
  | providerPilotCostTrendJson
  | exportLatestProviderPilotAcceptanceJson
  | providerSmokeAllJson
  | providerPilotJson
  | providerPilotPreflightJson
  | queueEnqueueProviderPilot
  | queueEnqueueRepairResume
  | queueToJson
  | queueJobDetail
  | queueJobLogs
  | queueAuditJson
  | queueJobDetailPage
  | launchJson
  | queueEnqueue
  | queueCancel
  | queueExportSupportBundle
  | queuePreviewSupportBundle
  | queueRetry
  deriving DecidableEq

/-! ### Routes -/

/-- Who may use a route. -/
inductive Guard where
  /-- An operator with the role; other requests are answered with a value. -/
  | api (required : WorkbenchOperatorRole)
  /-- The operator of the start page. -/
  | html
  /-- An operator with the role; other requests are answered with a text. -/
  | page (required : WorkbenchOperatorRole)
  deriving DecidableEq

/-- What a route reads of a request. -/
inductive Input where
  | nothing
  | query
  | form
  /-- The form, and the operator. -/
  | signed
  | smoke
  | render
  deriving DecidableEq

/-- What a server needs for a route. -/
inductive Needs where
  | nothing
  | supportSigning
  /-- Without a queue the route is forbidden. -/
  | queue
  /-- Without a queue there is an empty one. -/
  | queueOrDisabled
  /-- Without a queue the page is forbidden. -/
  | queuePage
  deriving DecidableEq

/-- The value of a member that a good answer has. -/
structure Accepts where
  within : List String
  field : String
  value : String
  deriving DecidableEq

inductive OnError where
  | respond
  | propagate
  deriving DecidableEq

structure Route where
  method : String
  paths : List String
  handler : Handler
  guard : Guard
  input : Input
  needs : Needs := .nothing
  accepts : Option Accepts := none
  onError : OnError := .respond
  deriving DecidableEq

namespace Route

def view (path : String) (handler : Handler) : Route where
  method := "GET"
  paths := [path]
  handler := handler
  guard := .api .viewer
  input := .query

def act (path : String) (handler : Handler) : Route where
  method := "POST"
  paths := [path]
  handler := handler
  guard := .api .operator
  input := .form

def reading (route : Route) (input : Input) : Route := { route with input := input }

def needing (route : Route) (needs : Needs) : Route := { route with needs := needs }

def accepting (route : Route) (within : List String) (field value : String) : Route :=
  { route with accepts := some { within := within, field := field, value := value } }

def propagating (route : Route) : Route := { route with onError := .propagate }

def indexPage : Route where
  method := "GET"
  paths := ["/", "/index.html"]
  handler := .renderWorkbench
  guard := .html
  input := .render
  onError := .propagate

def jobPage : Route where
  method := "GET"
  paths := ["/queue/job"]
  handler := .queueJobDetailPage
  guard := .page .viewer
  input := .query
  needs := .queuePage

end Route

def projectStart : String := "/api/factory/project-start/"

def recovery : String := projectStart ++ "recovery/"

def postContinuation : String := recovery ++ "resume-post-continuation/"

open Route in
/-- The routes, in the order in which they are matched. -/
def routes : List Route := [
    indexPage,
    ((view "/api/runs" .runsListJson).reading .nothing).propagating,
    view (projectStart ++ "next-action") .factoryProjectStartNextActionJson,
    view (projectStart ++ "completion-summary") .factoryProjectStartCompletionSummaryJson,
    view (projectStart ++ "completion-summary/memory-checkpoint")
      .factoryProjectStartCompletionSummaryMemoryStatusJson,
    view (projectStart ++ "recovery") .factoryProjectStartRecoveryJson,
    view (recovery ++ "latest") .factoryProjectStartLatestRecoveryJson,
    view (recovery ++ "action") .factoryProjectStartRecoveryActionJson,
    view (recovery ++ "resume-receipt") .factoryProjectStartRecoveryResumeReceiptJson,
    (act (recovery ++ "resume-checkpoint")
      .factoryProjectStartRecoveryResumeCheckpointJson).accepting [] "status" "recorded",
    view (recovery ++ "resume-checkpoint/status")
      .factoryProjectStartRecoveryResumeCheckpointStatusJson,
    view (recovery ++ "resume-continuity") .factoryProjectStartRecoveryResumeContinuityJson,
    view (recovery ++ "resume-plan") .factoryProjectStartRecoveryResumePlanJson,
    (act (recovery ++ "resume-claim")
      .factoryProjectStartRecoveryResumeClaimJson).accepting [] "status" "claimed",
    view (recovery ++ "resume-claim/status") .factoryProjectStartRecoveryResumeClaimStatusJson,
    view (recovery ++ "resume-continuation-contract")
      .factoryProjectStartRecoveryResumeContinuationContractJson,
    (act (recovery ++ "resume-continue")
      .factoryProjectStartRecoveryResumeContinueJson).accepting [] "status" "continued",
    view (recovery ++ "resume-continuation/status")
      .factoryProjectStartRecoveryResumeContinuationStatusJson,
    view (postContinuation ++ "action") .factoryProjectStartRecoveryResumePostContinuationActionJson,
    (act (postContinuation ++ "execute")
      .factoryProjectStartRecoveryResumePostContinuationExecuteJson).accepting [] "status" "executed",
    view (postContinuation ++ "execution-status")
      .factoryProjectStartRecoveryResumePostContinuationExecutionStatusJson,
    view (postContinuation ++ "next-action")
      .factoryProjectStartRecoveryResumePostContinuationNextActionJson,
    view (postContinuation ++ "closure") .factoryProjectStartRecoveryResumePostContinuationClosureJson,
    view (postContinuation ++ "evaluator-decision")
      .factoryProjectStartRecoveryResumePostContinuationEvaluatorDecisionJson,
    view (postContinuation ++ "release-handoff")
      .factoryProjectStartRecoveryResumePostContinuationReleaseHandoffJson,
    view (postContinuation ++ "release-handoff-status")
      .factoryProjectStartRecoveryResumePostContinuationReleaseHandoffStatusJson,
    view (postContinuation ++ "release-handoff-status-summary")
      .factoryProjectStartRecoveryResumePostContinuationReleaseHandoffStatusSummaryJson,
    view (postContinuation ++ "release-handoff-status-summary-export")
      .factoryProjectStartRecoveryResumePostContinuationReleaseHandoffStatusSummaryExportJson,
    view (postContinuation ++ "release-publication-readiness")
      .factoryProjectStartRecoveryResumePostContinuationReleasePublicationReadinessJson,
    view (postContinuation ++ "release-publication-dispatch-plan")
      .factoryProjectStartRecoveryResumePostContinuationReleasePublicationDispatchPlanJson,
    view (postContinuation ++ "release-publication-readback")
      .factoryProjectStartRecoveryResumePostContinuationReleasePublicationReadbackJson,
    view (postContinuation ++ "release-publication-closure")
      .factoryProjectStartRecoveryResumePostContinuationReleasePublicationClosureJson,
    view "/api/factory/replacement-parity-status" .factoryReplacementParityStatusJson,
    act "/api/factory/compat-plan" .factoryCompatPlanJson,
    (act (projectStart ++ "completion-summary/memory-checkpoint")
      .factoryProjectStartCompletionSummaryMemoryJson).accepting [] "status" "recorded",
    view (projectStart ++ "hermes-flow-contract") .factoryProjectStartHermesFlowContractJson,
    view "/api/factory/greenfield-spec-ingest" .factoryGreenfieldSpecIngestJson,
    (act "/api/factory/greenfield-spec-ingest/submit"
      .factoryGreenfieldSpecIngestSubmitJson).accepting [] "status" "queued",
    (act (projectStart ++ "run-next")
      .factoryProjectStartRunNextJson).accepting [] "approval_status" "approved_exact_action_digest",
    act (projectStart ++ "operator-record") .factoryProjectStartOperatorRecordJson,
    view "/api/memory/search" .memorySearchJson,
    view "/api/memory/recent" .memoryRecentJson,
    act "/api/memory/export" .memoryExportJson,
    act "/api/memory/publish-latest" .memoryPublishLatestJson,
    act "/api/memory/control-plane-dashboard" .memoryControlPlaneDashboardJson,
    act "/api/memory/link-run" .memoryLinkRunJson,
    view "/api/runs/evidence" .runEvidenceSummaryJson,
    view "/api/runs/evidence/diff" .runEvidenceDiffJson,
    view "/api/runs/evidence/changes" .runEvidenceChangesJson,
    (view "/api/support/latest" .latestWorkbenchSupportPacketJson).reading .nothing,
    act "/api/runs/evidence/export" .evidenceExportJson,
    act "/api/runs/evidence/publish" .evidencePublishJson,
    act "/api/runs/evidence/detail" .evidenceControlPlaneDetailJson,
    act "/api/runs/evidence/dashboard" .evidenceControlPlaneDashboardJson,
    (act "/api/obligations/annotate" .obligationAnnotationJson).reading .signed,
    (act "/api/obligations/gate" .obligationGateJson).reading .signed,
    (view "/api/templates" .templatesJson).reading .nothing,
    ((view "/api/doctor" .doctorReportJson).reading .nothing).propagating,
    view "/api/release-health" .releaseHealthJson,
    view "/api/release-history" .releaseHistoryJson,
    view "/api/release-gate/artifact" .releaseGateArtifactJson,
    (act "/api/release-comparison" .releaseComparisonJson).needing .supportSigning,
    act "/api/release-summary/enrich" .releaseSummaryEnrichJson,
    (act "/api/release-gate" .releaseGateJson).accepting [] "status" "verified",
    (view "/api/release-comparison/verify"
      .releaseComparisonVerificationJson).accepting ["verification"] "status" "verified",
    view "/api/release-comparison/latest" .latestReleaseComparisonJson,
    act "/api/release-retention/prune" .releaseRetentionPruneJson,
    ((view "/api/provider-matrix" .providerMatrixJson).reading .nothing).propagating,
    (view "/api/provider-contracts" .providerContractsJson).reading .nothing,
    view "/api/provider-pilot/acceptance/latest" .latestProviderPilotAcceptanceJson,
    view "/api/provider-pilot/cost-ledger" .providerPilotCostLedgerJson,
    view "/api/provider-pilot/cost-trend" .providerPilotCostTrendJson,
    act "/api/provider-pilot/acceptance/export-latest" .exportLatestProviderPilotAcceptanceJson,
    ((act "/api/provider-smoke" .providerSmokeAllJson).reading .smoke).needing .queue,
    (act "/api/provider-pilot" .providerPilotJson).accepting [] "status" "ready",
    act "/api/provider-pilot/preflight" .providerPilotPreflightJson,
    ((act "/api/provider-pilot/start"
      .queueEnqueueProviderPilot).needing .queue).accepting [] "status" "queued",
    (act "/api/repair/resume/start" .queueEnqueueRepairResume).needing .queue,
    (view "/api/queue" .queueToJson).needing .queueOrDisabled,
    (view "/api/queue/job" .queueJobDetail).needing .queueOrDisabled,
    (view "/api/queue/job/logs" .queueJobLogs).needing .queueOrDisabled,
    (view "/api/queue/audit" .queueAuditJson).needing .queueOrDisabled,
    jobPage,
    act "/api/launch" .launchJson,
    (act "/api/queue/start" .queueEnqueue).needing .queue,
    (act "/api/queue/cancel" .queueCancel).needing .queue,
    ((act "/api/queue/export" .queueExportSupportBundle).reading .nothing).needing .queue,
    ((act "/api/queue/export-preview" .queuePreviewSupportBundle).reading .nothing).needing .queue,
    (act "/api/queue/retry" .queueRetry).needing .queue
  ]

def findRoute (method path : Text) : Option Route :=
  routes.find? fun route => route.method.toList = method ∧ path ∈ route.paths.map String.toList

/-! ### The call of a handler -/

structure WorkbenchSupportSigning where
  keyPath : String
  signerId : String
  deriving DecidableEq

/-- What a server is started with. -/
structure Server where
  operators : List WorkbenchOperator
  supportSigning : Option WorkbenchSupportSigning := none
  queue : Bool
  controlPlaneUrl : Option String := none

structure WorkbenchRenderOptions where
  operator : WorkbenchOperator
  executionEnabled : Bool
  canOperate : Bool
  releaseComparisonSigningEnabled : Bool
  controlPlaneUrl : Option String
  releaseGateArtifactPath : Option Text
  deriving DecidableEq

inductive Arguments where
  | nothing
  | query (query : Text)
  | form (form : Form)
  | signed (form : Form) (operator : WorkbenchOperator)
  | smoke (minimumScore : ℕ) (liveProviders : List Text)
  | render (options : WorkbenchRenderOptions)
  deriving DecidableEq

/-- What a handler returns. -/
inductive Content where
  | json (body : Json)
  | page (html : Text)

inductive Op where
  | accept
  | read (limit : ℕ)
  | call (handler : Handler) (arguments : Arguments)
  | write (response : Response)

/-- A read that fails has read nothing. -/
def signature : Signature where
  Op := Op
  Ans
    | .accept => Except Failure Unit
    | .read _ => Octets
    | .call .. => Except Failure Content
    | .write _ => Except Failure Unit

def executionDisabled : Response := .json 403 <| .obj
  [("schema_version", .str "ao2.workbench-error.v1"), ("error", .str "execution_disabled")]

def disabledQueueJson : Json := .obj
  [("schema_version", .str "ao2.workbench-queue.v1"), ("execution_enabled", .bool false),
    ("jobs", .arr [])]

def signingRequired : Response := .json 403 <| .obj
  [("schema_version", .str "ao2.workbench-error.v1"),
    ("error", .str "release comparison signing requires --support-signing-key")]

/-- The response of a server that has not what a route needs. -/
def Needs.missing (needs : Needs) (server : Server) : Option Response :=
  match needs with
  | nothing => none
  | supportSigning => if server.supportSigning.isSome then none else some signingRequired
  | queue => if server.queue then none else some executionDisabled
  | queueOrDisabled => if server.queue then none else some (.json 200 disabledQueueJson)
  | queuePage => if server.queue then none else some (.text 403 "Forbidden" "execution disabled")

/-- The response to a request that the guard stops. -/
def Guard.failure (guard : Guard) (server : Server) (query : Text) : Except Failure (Option Response) :=
  match guard with
  | api required => workbenchApiAuthorizationFailure query server.operators required
  | html => do
    let operator ← workbenchOperatorForHtml query server.operators
    .ok (if operator.isSome then none else some (.text 403 "Forbidden" "invalid api token"))
  | page required => do
    let operator ← workbenchOperatorFromQuery query server.operators
    .ok (match operator with
      | none => some (.text 403 "Forbidden" "invalid api token")
      | some operator =>
        if operator.role.can required then none
        else some (.text 403 "Forbidden" "insufficient operator role"))

namespace Route

/-- The response to a request that does not get to the handler. -/
def refusal (route : Route) (server : Server) (query : Text) : Except Failure (Option Response) := do
  let failure ← route.guard.failure server query
  match failure with
  | some response => .ok (some response)
  | none => .ok (route.needs.missing server)

end Route

/-- A number of at most 64 bits. -/
def parseU64 (text : Text) : Option ℕ :=
  let digits := if text.head? = some '+' then text.tail else text
  if digits = [] ∨ !digits.all Char.isDigit then none
  else
    let n := digits.foldl (fun n c => n * 10 + (c.toNat - '0'.toNat)) 0
    if n < 2 ^ 64 then some n else none

def smokeArguments (form : Form) : Arguments :=
  .smoke
    (((form.find? (·.1 = "minimum_score".toList)).bind fun entry =>
      parseU64 (trimEnd (trimStart entry.2))).getD 90)
    (formValueOwned form "live_provider").toList

def renderOptions (server : Server) (query : Text) (operator : WorkbenchOperator) :
    Except Failure WorkbenchRenderOptions := do
  let artifact ← queryValueOwned query "release_gate_artifact"
  .ok
    { operator := operator
      executionEnabled := server.queue
      canOperate := operator.role.can .operator
      releaseComparisonSigningEnabled := server.supportSigning.isSome
      controlPlaneUrl := server.controlPlaneUrl
      releaseGateArtifactPath := artifact }

/-- A route that reads the body of a request. -/
def Input.readsForm : Input → Bool
  | form | signed | smoke => true
  | nothing | query | render => false

/-- The arguments of the handler; there are none where the operator is not one. -/
def Input.arguments (input : Input) (server : Server) (query request : Text) :
    Except Failure (Option Arguments) :=
  match input with
  | nothing => .ok (some .nothing)
  | .query => .ok (some (.query query))
  | form => do
    let form ← parseFormBody (requestBody request)
    .ok (some (.form form))
  | signed => do
    let operator ← workbenchOperatorFromQuery query server.operators
    match operator with
    | none => .ok none
    | some operator =>
      let form ← parseFormBody (requestBody request)
      .ok (some (.signed form operator))
  | smoke => do
    let form ← parseFormBody (requestBody request)
    .ok (some (smokeArguments form))
  | render => do
    let operator ← workbenchOperatorForHtml query server.operators
    match operator with
    | none => .ok none
    | some operator =>
      let options ← renderOptions server query operator
      .ok (some (.render options))

/-- An answer without the value it has to have is an error. -/
def Accepts.holds (accepts : Accepts) (body : Json) : Bool :=
  jsonStringOf (accepts.within.foldl Json.index body) accepts.field = accepts.value

namespace Route

/-- The response to what the handler has returned. -/
def respond (route : Route) : Except Failure Content → Except Failure Response
  | .ok (.json body) => .ok (.json (if route.accepts.all (·.holds body) then 200 else 400) body)
  | .ok (.page html) => .ok (.html html)
  | .error .panic => .error .panic
  | .error (.error e) =>
    match route.onError, route.guard with
    | .propagate, _ => .error (.error e)
    | .respond, .page _ => .ok (.text 400 "Bad Request" e.message)
    | .respond, _ => .ok (.json 400 (workbenchErrorJson e))

def serve (route : Route) (server : Server) (query request : Text) :
    Prog signature Failure Response := do
  let refusal ← .ofExcept (route.refusal server query)
  match refusal with
  | some response => pure response
  | none => do
    let arguments ← .ofExcept (route.input.arguments server query request)
    match arguments with
    | none => pure invalidApiToken
    | some arguments => do
      let answer ← Prog.perform (S := signature) (.call route.handler arguments)
      .ofExcept (route.respond answer)

end Route

/-! ### A request -/

/-- The method, the path and the query of a request; there are none if the request is empty. -/
def requestTarget (request : Text) : Option (Text × Text × Text) :=
  (lines request).head?.map fun requestLine =>
    let (method, rawPath) := parseHttpRequestLine requestLine
    (method, splitPathQuery rawPath)

def handleWorkbenchRequest (server : Server) (request : Text) : Prog signature Failure Response :=
  match requestTarget request with
  | none => pure (.text 400 "Bad Request" "empty request")
  | some (method, path, query) =>
    match findRoute method path with
    | none => pure (.text 404 "Not Found" "not found")
    | some route => route.serve server query request

/-! ### The server -/

/-- One connection: a single read, and the response to what was read. -/
def serveConnection (server : Server) : Prog signature Failure Unit := do
  let accepted ← Prog.perform (S := signature) .accept
  .ofExcept accepted
  let bytes ← Prog.perform (S := signature) (.read 8192)
  let response ← handleWorkbenchRequest server (fromUtf8Lossy bytes)
  let written ← Prog.perform (S := signature) (.write response)
  .ofExcept written

/-- The connections that are served, one after the other. -/
def serveWorkbenchApp (server : Server) (rounds : ℕ) : Prog signature Failure Unit :=
  (serveConnection server).times rounds

end Workbench

end Ao2
