import Ao2.Interaction.Oracle
import Ao2.Issues.Draft
import Ao2.Texts.Lines
import Ao2.Workbench.Percent

/-!
# The publisher of drafts

An action is published to a server on this machine that stands for the service. The server is not
trusted: it attests every exchange to a challenge that is new each time, and the publisher looks at the
branches and at the drafts that there are before it writes.
-/

namespace Ao2

open Interaction

namespace Issues

namespace Draft

open Json

/-! ### Answers of the server -/

structure PullRef where
  reference : String
  sha : String

structure PullHead where
  reference : String
  sha : String
  repoFullName : String

structure ExistingPull where
  number : ℕ
  state : String
  draft : Bool
  title : String
  body : String
  base : PullRef
  head : PullHead

structure FixtureExchangeAttestation where
  schemaVersion : String
  fixtureInstanceId : String
  clientChallenge : String
  actionDigest : String
  requestBodySha256 : String
  repository : String
  actionRequestPath : String
  draft : Bool
  baseCommit : String
  headCommit : String
  exchangeMethod : String
  exchangePath : String
  outcome : String
  pullNumber : Option ℕ

structure FixtureAttestation where
  schemaVersion : String
  fixtureInstanceId : String
  claimsLocalOnly : Bool
  claimsForwardingCapable : Bool
  claimsExternalNetworkEnabled : Bool
  fixtureExchangeAttestation : FixtureExchangeAttestation

structure FixtureRef where
  schemaVersion : String
  reference : String
  commit : String
  fixtureExchangeAttestation : FixtureExchangeAttestation

structure FixturePulls where
  pulls : List ExistingPull
  fixtureExchangeAttestation : FixtureExchangeAttestation

structure FixtureWriteAttestation where
  schemaVersion : String
  fixtureInstanceId : String
  clientChallenge : String
  actionDigest : String
  requestBodySha256 : String
  repository : String
  actionRequestPath : String
  draft : Bool
  preconditionsEnforced : Bool
  baseCommit : String
  headCommit : String
  outcome : String
  pullNumber : Option ℕ
  claimsExternalEndpointContacted : Bool
  claimsForwarded : Bool

structure CreatedPull where
  pull : ExistingPull
  fixtureExchangeAttestation : FixtureExchangeAttestation
  fixtureWriteAttestation : FixtureWriteAttestation

structure CreateConflict where
  schemaVersion : String
  status : String
  fixtureExchangeAttestation : FixtureExchangeAttestation
  fixtureWriteAttestation : FixtureWriteAttestation

def PullRef.fromJson (v : Json) : Option PullRef := do
  let m ← v.fieldsOf ["ref", "sha"]
  some { reference := ← field str? "ref" m, sha := ← field str? "sha" m }

/-- The name of a repository. -/
def repositoryFromJson (v : Json) : Option String := do
  let m ← v.fieldsOf ["full_name"]
  field str? "full_name" m

def PullHead.fromJson (v : Json) : Option PullHead := do
  let m ← v.fieldsOf ["ref", "sha", "repo"]
  some {
    reference := ← field str? "ref" m
    sha := ← field str? "sha" m
    repoFullName := ← field repositoryFromJson "repo" m }

def ExistingPull.fromJson (v : Json) : Option ExistingPull := do
  let m ← v.fieldsOf ["number", "state", "draft", "title", "body", "base", "head"]
  some {
    number := ← field unsigned64? "number" m
    state := ← field str? "state" m
    draft := ← field bool? "draft" m
    title := ← field str? "title" m
    body := ← field str? "body" m
    base := ← field PullRef.fromJson "base" m
    head := ← field PullHead.fromJson "head" m }

def FixtureExchangeAttestation.fromJson (v : Json) : Option FixtureExchangeAttestation := do
  let m ← v.fieldsOf
    ["schema_version", "fixture_instance_id", "client_challenge", "action_digest",
      "request_body_sha256", "repository", "action_request_path", "draft", "base_commit",
      "head_commit", "exchange_method", "exchange_path", "outcome", "pull_number"]
  some {
    schemaVersion := ← field str? "schema_version" m
    fixtureInstanceId := ← field str? "fixture_instance_id" m
    clientChallenge := ← field str? "client_challenge" m
    actionDigest := ← field str? "action_digest" m
    requestBodySha256 := ← field str? "request_body_sha256" m
    repository := ← field str? "repository" m
    actionRequestPath := ← field str? "action_request_path" m
    draft := ← field bool? "draft" m
    baseCommit := ← field str? "base_commit" m
    headCommit := ← field str? "head_commit" m
    exchangeMethod := ← field str? "exchange_method" m
    exchangePath := ← field str? "exchange_path" m
    outcome := ← field str? "outcome" m
    pullNumber := ← field (nullable? unsigned64?) "pull_number" m }

def FixtureAttestation.fromJson (v : Json) : Option FixtureAttestation := do
  let m ← v.fieldsOf
    ["schema_version", "fixture_instance_id", "claims_local_only", "claims_forwarding_capable",
      "claims_external_network_enabled", "fixture_exchange_attestation"]
  some {
    schemaVersion := ← field str? "schema_version" m
    fixtureInstanceId := ← field str? "fixture_instance_id" m
    claimsLocalOnly := ← field bool? "claims_local_only" m
    claimsForwardingCapable := ← field bool? "claims_forwarding_capable" m
    claimsExternalNetworkEnabled := ← field bool? "claims_external_network_enabled" m
    fixtureExchangeAttestation :=
      ← field FixtureExchangeAttestation.fromJson "fixture_exchange_attestation" m }

def FixtureRef.fromJson (v : Json) : Option FixtureRef := do
  let m ← v.fieldsOf ["schema_version", "ref", "commit", "fixture_exchange_attestation"]
  some {
    schemaVersion := ← field str? "schema_version" m
    reference := ← field str? "ref" m
    commit := ← field str? "commit" m
    fixtureExchangeAttestation :=
      ← field FixtureExchangeAttestation.fromJson "fixture_exchange_attestation" m }

def FixturePulls.fromJson (v : Json) : Option FixturePulls := do
  let m ← v.fieldsOf ["pulls", "fixture_exchange_attestation"]
  some {
    pulls := ← field (items? ExistingPull.fromJson) "pulls" m
    fixtureExchangeAttestation :=
      ← field FixtureExchangeAttestation.fromJson "fixture_exchange_attestation" m }

def FixtureWriteAttestation.fromJson (v : Json) : Option FixtureWriteAttestation := do
  let m ← v.fieldsOf
    ["schema_version", "fixture_instance_id", "client_challenge", "action_digest",
      "request_body_sha256", "repository", "action_request_path", "draft",
      "preconditions_enforced", "base_commit", "head_commit", "outcome", "pull_number",
      "claims_external_endpoint_contacted", "claims_forwarded"]
  some {
    schemaVersion := ← field str? "schema_version" m
    fixtureInstanceId := ← field str? "fixture_instance_id" m
    clientChallenge := ← field str? "client_challenge" m
    actionDigest := ← field str? "action_digest" m
    requestBodySha256 := ← field str? "request_body_sha256" m
    repository := ← field str? "repository" m
    actionRequestPath := ← field str? "action_request_path" m
    draft := ← field bool? "draft" m
    preconditionsEnforced := ← field bool? "preconditions_enforced" m
    baseCommit := ← field str? "base_commit" m
    headCommit := ← field str? "head_commit" m
    outcome := ← field str? "outcome" m
    pullNumber := ← field (nullable? unsigned64?) "pull_number" m
    claimsExternalEndpointContacted := ← field bool? "claims_external_endpoint_contacted" m
    claimsForwarded := ← field bool? "claims_forwarded" m }

def CreatedPull.fromJson (v : Json) : Option CreatedPull := do
  let m ← v.fieldsOf ["pull", "fixture_exchange_attestation", "fixture_write_attestation"]
  some {
    pull := ← field ExistingPull.fromJson "pull" m
    fixtureExchangeAttestation :=
      ← field FixtureExchangeAttestation.fromJson "fixture_exchange_attestation" m
    fixtureWriteAttestation :=
      ← field FixtureWriteAttestation.fromJson "fixture_write_attestation" m }

def CreateConflict.fromJson (v : Json) : Option CreateConflict := do
  let m ← v.fieldsOf
    ["schema_version", "status", "fixture_exchange_attestation", "fixture_write_attestation"]
  some {
    schemaVersion := ← field str? "schema_version" m
    status := ← field str? "status" m
    fixtureExchangeAttestation :=
      ← field FixtureExchangeAttestation.fromJson "fixture_exchange_attestation" m
    fixtureWriteAttestation :=
      ← field FixtureWriteAttestation.fromJson "fixture_write_attestation" m }

/-! ### Requests and answers -/

def maxResponseBytes : ℕ := 262144

def maxResponseHeaders : ℕ := 16384

/-- An address with a port, as the library reads it. An address of version 6 is in brackets. -/
structure SocketAddr where
  host : String
  isLoopback : Bool
  port : ℕ

/-- What is sent over a connection of its own: the head with its headers, and the bytes after it. -/
structure HttpRequest where
  method : String
  path : String
  head : String
  payload : Octets

/-- A request is answered by all bytes that come before the end, or the connection fails. -/
def Fixture : Signature where
  Op := HttpRequest
  Ans _ := Except String Octets

structure HttpResponse where
  status : ℕ
  body : Octets

/-- A whole number from zero on, below a bound. -/
def parseUnsigned (bound : ℕ) (text : List Char) : Option ℕ :=
  let digits := if text.head? = some '+' then text.tail else text
  if digits = [] ∨ digits.all Char.isDigit = false then none
  else
    let n := digits.foldl (fun n c => n * 10 + (c.toNat - '0'.toNat)) 0
    if n < bound then some n else none

/-- The length that a line says. -/
def contentLength (line : List Char) : Option ℕ :=
  match line.span (· ≠ ':') with
  | (name, ':' :: value) =>
    if toAsciiLowercase (.ofList name) = "content-length" then
      parseUnsigned 18446744073709551616 (trim (.ofList value)).toList
    else none
  | _ => none

def parseHttpResponse (response : Octets) : Except String HttpResponse := do
  let boundary ← orContext (response.tails.findIdx? fun part => [13, 10, 13, 10] <+: part)
    "fixture API response has no header boundary"
  bailIf (maxResponseHeaders < boundary) "fixture API response headers exceed the bounded limit"
  let headers ← orContext (String.fromUTF8? (response.take boundary).toByteArray)
    "fixture API response headers are not UTF-8"
  let headerLines := lines headers.toList
  let status ← orContext
    ((headerLines.head?.bind fun line => (splitWhitespace (.ofList line))[1]?).bind fun word =>
      parseUnsigned 65536 word.toList)
    "fixture API response has malformed status"
  bailIf (300 ≤ status ∧ status < 400) "fixture API redirect responses are forbidden"
  bailIf (headerLines.any (fun line =>
      "transfer-encoding:".toList <+: (toAsciiLowercase (.ofList line)).toList) = true)
    "fixture API transfer encoding is unsupported"
  let body := response.drop (boundary + 4)
  bailIf (maxResponseBytes < body.length) "fixture API response exceeds the 262144-byte body limit"
  let length ← orContext (headerLines.findSome? contentLength)
    "fixture API response requires Content-Length"
  bailIf (length ≠ body.length) "fixture API response Content-Length mismatch"
  .ok ⟨status, body⟩

/-- An answer as far as it is understood. -/
def readResponse (answer : Except String Octets) : Except String HttpResponse := do
  let response ← answer
  bailIf (maxResponseBytes + maxResponseHeaders < response.length)
    "fixture API response exceeds the 262144-byte body limit"
  parseHttpResponse response

/-! ### Sessions -/

structure FixtureSession where
  endpoint : SocketAddr
  clientChallenge : String
  actionDigest : String
  requestBodySha256 : String
  repository : String
  actionRequestPath : String
  draft : Bool
  baseCommit : String
  headCommit : String
  fixtureInstanceId : Option String

def hexBytes (bytes : Octets) : String :=
  .ofList (bytes.flatMap fun byte => [hexDigit (byte.toNat / 16), hexDigit (byte.toNat % 16)])

/-- The bytes of a document, on one line. -/
def toVec (v : Json) : Octets := utf8Bytes v.compactText

def percentEncode (value : String) : String := .ofList (Workbench.percentEncode value.toList)

/-- What the parties of an exchange are bound to, as a request and an attestation say it. -/
def FixtureSession.headers (session : FixtureSession) : String :=
  "X-AO2-Client-Challenge: " ++ session.clientChallenge ++ "\r\n" ++
  "X-AO2-Action-Digest: " ++ session.actionDigest ++ "\r\n" ++
  "X-AO2-Request-Body-SHA256: " ++ session.requestBodySha256 ++ "\r\n" ++
  "X-AO2-Repository: " ++ session.repository ++ "\r\n" ++
  "X-AO2-Action-Request-Path: " ++ session.actionRequestPath ++ "\r\n" ++
  "X-AO2-Draft: " ++ toString session.draft ++ "\r\n" ++
  "X-AO2-Base-Commit: " ++ session.baseCommit ++ "\r\n" ++
  "X-AO2-Head-Commit: " ++ session.headCommit ++ "\r\n" ++
  match session.fixtureInstanceId with
  | some value => "X-AO2-Fixture-Instance-Id: " ++ value ++ "\r\n"
  | none => ""

/-- What is sent for a request. -/
def FixtureSession.request (session : FixtureSession) (method path : String) (body : Option Octets) :
    HttpRequest where
  method := method
  path := path
  head := method ++ " " ++ path ++ " HTTP/1.1\r\nHost: " ++ session.endpoint.host ++ ":" ++
    toString session.endpoint.port ++ "\r\nAccept: application/json\r\n" ++ session.headers ++
    (match body with
      | some payload => "Content-Type: application/json\r\nContent-Length: " ++
          toString payload.length ++ "\r\n"
      | none => "") ++
    "Connection: close\r\n\r\n"
  payload := body.getD []

def httpRequest (session : FixtureSession) (method path : String) (body : Option Octets) :
    Prog Fixture String HttpResponse :=
  if method ∉ ["GET", "POST"] ∨
      ¬ (path = "/ao2/fixture-attestation" ∨ "/repos/".toList <+: path.toList) then
    .fail "fixture HTTP request escaped the bounded endpoint allowlist"
  else .ask (session.request method path body) fun answer => .ofExcept (readResponse answer)

def validateExchangeAttestation (attestation : FixtureExchangeAttestation) (session : FixtureSession)
    (expectedMethod expectedPath expectedOutcome : String) (expectedPullNumber : Option ℕ) :
    Except String Unit :=
  bailIf (attestation.schemaVersion ≠ "ao2.local-draft-pr-fixture-exchange-attestation.v1" ∨
      some attestation.fixtureInstanceId ≠ session.fixtureInstanceId ∨
      attestation.clientChallenge ≠ session.clientChallenge ∨
      attestation.actionDigest ≠ session.actionDigest ∨
      attestation.requestBodySha256 ≠ session.requestBodySha256 ∨
      attestation.repository ≠ session.repository ∨
      attestation.actionRequestPath ≠ session.actionRequestPath ∨
      attestation.draft ≠ session.draft ∨ attestation.baseCommit ≠ session.baseCommit ∨
      attestation.headCommit ≠ session.headCommit ∨ attestation.exchangeMethod ≠ expectedMethod ∨
      attestation.exchangePath ≠ expectedPath ∨ attestation.outcome ≠ expectedOutcome ∨
      attestation.pullNumber ≠ expectedPullNumber)
    "fixture exchange self-attestation binding mismatch"

def validateWriteAttestation (attestation : FixtureWriteAttestation) (session : FixtureSession)
    (expectedOutcome : String) (expectedPullNumber : Option ℕ) : Except String Unit :=
  bailIf (attestation.schemaVersion ≠ "ao2.local-draft-pr-fixture-write-attestation.v1" ∨
      some attestation.fixtureInstanceId ≠ session.fixtureInstanceId ∨
      attestation.clientChallenge ≠ session.clientChallenge ∨
      attestation.actionDigest ≠ session.actionDigest ∨
      attestation.requestBodySha256 ≠ session.requestBodySha256 ∨
      attestation.repository ≠ session.repository ∨
      attestation.actionRequestPath ≠ session.actionRequestPath ∨
      attestation.draft ≠ session.draft ∨ attestation.preconditionsEnforced = false ∨
      attestation.baseCommit ≠ session.baseCommit ∨ attestation.headCommit ≠ session.headCommit ∨
      attestation.outcome ≠ expectedOutcome ∨ attestation.pullNumber ≠ expectedPullNumber ∨
      attestation.claimsExternalEndpointContacted = true ∨ attestation.claimsForwarded = true)
    "fixture write self-attestation binding mismatch"

def requirePositivePullNumber (pullNumber : ℕ) : Except String Unit :=
  bailIf (pullNumber = 0) "fixture pull number must be positive"

def exactPullMatch (candidate : ExistingPull) (action : DraftAction) : Bool :=
  let repository := action.subject.repository
  let request := action.subject.request.body
  0 < candidate.number && candidate.state = "open" && candidate.draft &&
    candidate.title = request.title && candidate.body = request.body &&
    candidate.base.reference = repository.baseBranch && candidate.base.sha = repository.baseCommit &&
    candidate.head.reference = repository.headBranch && candidate.head.sha = repository.headCommit &&
    candidate.head.repoFullName = repository.headRepository

/-! ### What is reported -/

structure PublishReadback where
  schemaVersion : String
  status : String
  actionDigest : String
  pullNumber : ℕ
  postPerformed : Bool
  fixtureWriteObserved : Bool
  clientContactScope : String
  fixtureExchangeAttestationStatus : String
  fixtureWriteAttestationStatus : String
  fixtureClaimsAuthenticated : Bool
  externalWriteObservability : String
  behaviorOutsideClientObservableBoundary : String
  clientIssueWritePerformed : Bool
  clientReadyForReviewPerformed : Bool
  clientReviewApprovalPerformed : Bool
  clientMergePerformed : Bool

def publishReadback (status : String) (action : DraftAction) (pullNumber : ℕ)
    (postPerformed writeAttestationChecked : Bool) : PublishReadback where
  schemaVersion := "ao2.github-draft-pr-fixture-publish.v1"
  status := status
  actionDigest := action.approval.actionDigest
  pullNumber := pullNumber
  postPerformed := postPerformed
  fixtureWriteObserved := false
  clientContactScope := "numeric_loopback_only"
  fixtureExchangeAttestationStatus := "strict_challenge_bound_self_attestation"
  fixtureWriteAttestationStatus :=
    if writeAttestationChecked then "strict_challenge_bound_self_attestation" else "not_applicable"
  fixtureClaimsAuthenticated := false
  externalWriteObservability := "not_observable_from_client"
  behaviorOutsideClientObservableBoundary := "not_claimed"
  clientIssueWritePerformed := false
  clientReadyForReviewPerformed := false
  clientReviewApprovalPerformed := false
  clientMergePerformed := false

/-! ### The publisher -/

/-- Addresses, from the standard library. -/
class AddressLibrary where
  /-- The address and the port of a text. -/
  parseSocketAddr : String → Option SocketAddr

def parseFixtureEndpoint [AddressLibrary] (value : String) : Except String SocketAddr := do
  bailIf (¬ "http://".toList <+: value.toList)
    "fixture API must use http:// with a numeric loopback address"
  let rest := value.toList.drop 7
  bailIf (rest.any (· ∈ ['/', '?', '#', '@']) = true)
    "fixture API must contain no path, query, fragment, or credentials"
  let endpoint ← orContext (AddressLibrary.parseSocketAddr (.ofList rest))
    "fixture API must use a numeric loopback address and explicit port"
  bailIf (endpoint.isLoopback = false ∨ endpoint.port = 0)
    "fixture API must use a numeric loopback address and nonzero port"
  .ok endpoint

section

variable [IssueLibrary]

/-- A session with a challenge. -/
def FixtureSession.new (endpoint : SocketAddr) (challenge : Octets) (action : DraftAction) :
    FixtureSession where
  endpoint := endpoint
  clientChallenge := hexBytes challenge
  actionDigest := action.approval.actionDigest
  requestBodySha256 := IssueLibrary.sha256 (toVec action.subject.request.body.document)
  repository := action.subject.repository.target
  actionRequestPath := action.subject.request.path
  draft := action.subject.request.body.draft
  baseCommit := action.subject.repository.baseCommit
  headCommit := action.subject.repository.headCommit
  fixtureInstanceId := none

/-- The value of a body. -/
def readBody {α : Type} (read : Json → Option α) (response : HttpResponse) (message : String) :
    Except String α :=
  orContext ((IssueLibrary.fromSlice response.body).bind read) message

def attestationPath : String := "/ao2/fixture-attestation"

/-- The session after the server has said which one it is. -/
def checkFixtureAttestation (session : FixtureSession) (response : HttpResponse) :
    Except String FixtureSession := do
  bailIf (response.status ≠ 200)
    ("fixture attestation failed closed with HTTP " ++ toString response.status)
  let attestation ← readBody FixtureAttestation.fromJson response
    "fixture attestation is missing, malformed, or contains unknown fields"
  bailIf (attestation.schemaVersion ≠ "ao2.local-draft-pr-fixture-attestation.v1")
    "fixture attestation schema_version is invalid"
  validateIdentifier "fixture_instance_id" attestation.fixtureInstanceId
  bailIf (attestation.claimsLocalOnly = false) "fixture self-attestation must claim local_only=true"
  bailIf (attestation.claimsForwardingCapable = true)
    "fixture self-attestation rejects claimed forwarding capability"
  bailIf (attestation.claimsExternalNetworkEnabled = true)
    "fixture self-attestation must claim external_network_enabled=false"
  let session := { session with fixtureInstanceId := some attestation.fixtureInstanceId }
  validateExchangeAttestation attestation.fixtureExchangeAttestation session "GET" attestationPath
    "fixture_attestation" none
  .ok session

def verifyFixtureAttestation (session : FixtureSession) : Prog Fixture String FixtureSession :=
  (httpRequest session "GET" attestationPath none).bind fun response =>
    .ofExcept (checkFixtureAttestation session response)

def refPath (owner repo branch : String) : String :=
  "/repos/" ++ owner ++ "/" ++ repo ++ "/git/ref/heads/" ++ percentEncode branch

def checkFixtureRef (session : FixtureSession) (path branch expectedCommit role : String)
    (response : HttpResponse) : Except String Unit := do
  bailIf (response.status ≠ 200)
    ("fixture " ++ role ++ " ref read failed closed with HTTP " ++ toString response.status)
  let readback ← readBody FixtureRef.fromJson response
    ("fixture " ++ role ++ " ref response is malformed")
  validateExchangeAttestation readback.fixtureExchangeAttestation session "GET" path (role ++ "_ref") none
  bailIf (readback.schemaVersion ≠ "ao2.local-draft-pr-fixture-ref.v1" ∨
      readback.reference ≠ "refs/heads/" ++ branch)
    ("fixture " ++ role ++ " ref identity drift")
  bailIf (readback.commit ≠ expectedCommit) ("fixture " ++ role ++ " ref commit drift")

def verifyFixtureRef (session : FixtureSession) (repository branch expectedCommit role : String) :
    Prog Fixture String Unit :=
  (Prog.ofExcept (splitRepository repository)).bind fun (owner, repo) =>
    (httpRequest session "GET" (refPath owner repo branch) none).bind fun response =>
      .ofExcept (checkFixtureRef session (refPath owner repo branch) branch expectedCommit role response)

def checkDrafts (session : FixtureSession) (queryPath : String) (response : HttpResponse) :
    Except String (List ExistingPull) := do
  bailIf (response.status ≠ 200)
    ("fixture draft discovery failed closed with HTTP " ++ toString response.status)
  let readback ← readBody FixturePulls.fromJson response
    "fixture draft discovery returned malformed or unknown-field JSON"
  bailIf (10 < readback.pulls.length)
    "fixture draft discovery failed closed: more than 10 candidates"
  let pullNumber :=
    (readback.pulls.head?.filter fun _ => readback.pulls.length = 1).map ExistingPull.number
  validateExchangeAttestation readback.fixtureExchangeAttestation session "GET" queryPath
    "pull_discovery" pullNumber
  readback.pulls.forM fun pull => requirePositivePullNumber pull.number
  .ok readback.pulls

def discoverDrafts (session : FixtureSession) (queryPath : String) :
    Prog Fixture String (List ExistingPull) :=
  (httpRequest session "GET" queryPath none).bind fun response =>
    .ofExcept (checkDrafts session queryPath response)

/-- The pull request that was created. -/
def checkCreated (session : FixtureSession) (action : DraftAction) (response : HttpResponse) :
    Except String ExistingPull := do
  let created ← readBody CreatedPull.fromJson response
    "fixture write attestation is missing, malformed, or has unknown fields"
  validateExchangeAttestation created.fixtureExchangeAttestation session "POST"
    action.subject.request.path "created" (some created.pull.number)
  validateWriteAttestation created.fixtureWriteAttestation session "created" (some created.pull.number)
  requirePositivePullNumber created.pull.number
  bailIf (exactPullMatch created.pull action = false)
    "fixture draft creation failed closed: response identity drift"
  .ok created.pull

def checkConflict (session : FixtureSession) (action : DraftAction) (response : HttpResponse) :
    Except String Unit := do
  let conflict ← readBody CreateConflict.fromJson response
    "fixture create conflict returned malformed or unknown-field JSON"
  bailIf (conflict.schemaVersion ≠ "ao2.local-draft-pr-fixture-conflict.v1" ∨
      conflict.status ≠ "conflict")
    "fixture create conflict response schema or status is invalid"
  validateExchangeAttestation conflict.fixtureExchangeAttestation session "POST"
    action.subject.request.path "conflict" none
  validateWriteAttestation conflict.fixtureWriteAttestation session "conflict" none

/-- What is made of the drafts after a conflict. -/
def afterConflict (action : DraftAction) : List ExistingPull → Except String PublishReadback
  | [candidate] =>
    if exactPullMatch candidate action then
      .ok (publishReadback "idempotent_readback_after_create_conflict" action candidate.number true true)
    else .error "fixture create conflict re-read found identity drift"
  | [] => .error "fixture create conflict re-read found no matching draft"
  | _ => .error "fixture create conflict re-read was ambiguous"

def createDraft (session : FixtureSession) (action : DraftAction) (queryPath : String) :
    Prog Fixture String PublishReadback :=
  (httpRequest session "POST" action.subject.request.path
    (some (toVec action.subject.request.body.document))).bind fun response =>
    if response.status = 201 then
      (Prog.ofExcept (checkCreated session action response)).bind fun pull =>
        .done (publishReadback "fixture_reported_created" action pull.number true true)
    else if response.status = 409 ∨ response.status = 422 then
      (Prog.ofExcept (checkConflict session action response)).bind fun _ =>
        (discoverDrafts session queryPath).bind fun existing => .ofExcept (afterConflict action existing)
    else .fail ("fixture draft creation failed closed with HTTP " ++ toString response.status)

/-- The drafts from a branch to another one. -/
def draftsQuery (action : DraftAction) (owner : String) : String :=
  action.subject.request.path ++ "?state=all&head=" ++
    percentEncode (owner ++ ":" ++ action.subject.repository.headBranch) ++ "&base=" ++
    percentEncode action.subject.repository.baseBranch

/-- What is done about the drafts that there are. -/
def publishAfter (session : FixtureSession) (action : DraftAction) (queryPath : String) :
    List ExistingPull → Prog Fixture String PublishReadback
  | [] => createDraft session action queryPath
  | [candidate] =>
    if exactPullMatch candidate action then
      .done (publishReadback "idempotent_readback" action candidate.number false false)
    else .fail "fixture draft discovery failed closed: existing pull identity drift"
  | _ => .fail "fixture draft discovery failed closed: ambiguous existing pull matches"

/-- **The publisher**, for what is read of the file of an action, with the challenge of its session. -/
def fixturePublish [Platform] [AddressLibrary] (file : Except String Octets)
    (expected fixtureApi : String) (challenge : Octets) : Prog Fixture String PublishReadback :=
  (Prog.ofExcept (loadAndVerifyAction file expected)).bind fun action =>
    (Prog.ofExcept (parseFixtureEndpoint fixtureApi)).bind fun endpoint =>
      (verifyFixtureAttestation (.new endpoint challenge action)).bind fun session =>
        let repository := action.subject.repository
        (Prog.ofExcept (splitRepository repository.target)).bind fun (owner, _) =>
          (verifyFixtureRef session repository.target repository.baseBranch repository.baseCommit
            "base").bind fun _ =>
            (verifyFixtureRef session repository.headRepository repository.headBranch
              repository.headCommit "head").bind fun _ =>
              let queryPath := draftsQuery action owner
              (discoverDrafts session queryPath).bind (publishAfter session action queryPath)

end

end Draft

end Issues

end Ao2
