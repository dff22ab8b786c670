import Ao2.Json

/-!
# Core records

The records that every part of the runtime exchanges: statuses, actors, events, artifact
references, policy decisions, approval tickets and closure reports, each with the JSON value it is
written as.

What the records take from outside the program — digests, the text of a date, the decimals of a
cost — comes from a `Platform`. Digests of JSON values and of texts are functions of what is
digested and nothing more is assumed of them here.
-/

namespace Ao2

/-- A point in time, in nanoseconds since the earliest time that a date can stand for. -/
abbrev DateTime := ℕ

/-- `Duration::minutes`. -/
def minutes (n : ℕ) : ℕ := n * 60 * 1000000000

/-- What the runtime's records take from libraries it calls. -/
class Platform where
  /-- SHA-256 of the serialisation of a value. -/
  sha256Json : Json → String
  /-- SHA-256 of the indented serialisation of a value, the form that files are written in. -/
  sha256Pretty : Json → String
  /-- SHA-256 of a text. -/
  sha256Text : String → String
  /-- The text of a date in a record. -/
  rfc3339 : DateTime → String
  /-- The date that a text in a record stands for. -/
  parseRfc3339 : String → Option DateTime
  /-- The indented serialisation of a value as text. -/
  prettyJson : Json → String
  /-- A text in lower case. -/
  lowercase : String → String
  /-- The summed cost of provider summaries, rounded, with six decimals. -/
  observedCostUsd : List Json → String

export Platform (sha256Json sha256Pretty sha256Text rfc3339 parseRfc3339 prettyJson lowercase
  observedCostUsd)

/-! ### Statuses and actors -/

/-- The status of a run. -/
inductive RunStatus where
  | created | compiled | queued | running | waitingForApproval | blocked | failed | rejected
  | accepted | acceptedWithConcerns | canceled | replaying
  deriving DecidableEq, Repr

/-- The name of a status in a record. -/
def RunStatus.name : RunStatus → String
  | created => "created"
  | compiled => "compiled"
  | queued => "queued"
  | running => "running"
  | waitingForApproval => "waiting_for_approval"
  | blocked => "blocked"
  | failed => "failed"
  | rejected => "rejected"
  | accepted => "accepted"
  | acceptedWithConcerns => "accepted_with_concerns"
  | canceled => "canceled"
  | replaying => "replaying"

/-- Who an event is attributed to. -/
structure Actor where
  id : String
  kind : String
  deriving DecidableEq

namespace Actor

def system : Actor := ⟨"system:ao2", "system"⟩

def humanLocal : Actor := ⟨"human:local-user", "human"⟩

def role (role : String) : Actor := ⟨"role:" ++ role, "agent_role"⟩

end Actor

/-! ### Artifacts, decisions, tickets, closures -/

/-- A stored artifact. Its `uri` is its path below the artifact directory of the run. -/
structure ArtifactRef where
  artifactId : String
  artifactType : String
  uri : String
  mediaType : String
  digest : String
  producer : String
  inputRefs : List String
  sensitivity : String
  deriving DecidableEq

def ArtifactRef.toJson (a : ArtifactRef) : Json :=
  .obj [("artifact_id", .str a.artifactId), ("artifact_type", .str a.artifactType),
    ("digest", .str a.digest), ("input_refs", .strs a.inputRefs), ("media_type", .str a.mediaType),
    ("producer", .str a.producer), ("sensitivity", .str a.sensitivity), ("uri", .str a.uri)]

/-- The outcome of a policy evaluation. -/
structure PolicyDecision where
  decisionId : String
  principal : String
  action : String
  resource : String
  requestDigest : String
  decision : String
  reason : String
  policyVersion : String
  approvalTicketId : Option String
  createdAt : DateTime
  deriving DecidableEq

/-- A request for a human decision, and the decision once it is there. -/
structure ApprovalTicket where
  ticketId : String
  runId : String
  requestedAction : String
  actionDigest : String
  riskClass : String
  requester : String
  approver : Option String
  status : String
  scope : String
  createdAt : DateTime
  expiresAt : DateTime
  deriving DecidableEq

/-- A closure verdict. -/
structure ClosureReport where
  verdict : String
  acceptanceCriteriaResults : List String
  evidenceRefs : List String
  unresolvedConcerns : List String
  blockers : List String
  policyExceptions : List String
  costSummary : String
  createdAt : DateTime
  deriving DecidableEq

/-- One attempt at repairing a rejected patch. -/
structure RepairAttempt where
  attempt : ℕ
  trigger : String
  status : String
  evidenceRefs : List String
  summary : String
  createdAt : DateTime
  deriving DecidableEq

section

variable [Platform]

def PolicyDecision.toJson (d : PolicyDecision) : Json :=
  .obj [("action", .str d.action), ("approval_ticket_id", .ofOption .str d.approvalTicketId),
    ("created_at", .str (rfc3339 d.createdAt)), ("decision", .str d.decision),
    ("decision_id", .str d.decisionId), ("policy_version", .str d.policyVersion),
    ("principal", .str d.principal), ("reason", .str d.reason),
    ("request_digest", .str d.requestDigest), ("resource", .str d.resource)]

def ApprovalTicket.toJson (t : ApprovalTicket) : Json :=
  .obj [("action_digest", .str t.actionDigest), ("approver", .ofOption .str t.approver),
    ("created_at", .str (rfc3339 t.createdAt)), ("expires_at", .str (rfc3339 t.expiresAt)),
    ("requested_action", .str t.requestedAction), ("requester", .str t.requester),
    ("risk_class", .str t.riskClass), ("run_id", .str t.runId), ("scope", .str t.scope),
    ("status", .str t.status), ("ticket_id", .str t.ticketId)]

def ClosureReport.toJson (r : ClosureReport) : Json :=
  .obj [("acceptance_criteria_results", .strs r.acceptanceCriteriaResults),
    ("blockers", .strs r.blockers), ("cost_summary", .str r.costSummary),
    ("created_at", .str (rfc3339 r.createdAt)), ("evidence_refs", .strs r.evidenceRefs),
    ("policy_exceptions", .strs r.policyExceptions),
    ("unresolved_concerns", .strs r.unresolvedConcerns), ("verdict", .str r.verdict)]

def RepairAttempt.toJson (r : RepairAttempt) : Json :=
  .obj [("attempt", .nat r.attempt), ("created_at", .str (rfc3339 r.createdAt)),
    ("evidence_refs", .strs r.evidenceRefs), ("status", .str r.status),
    ("summary", .str r.summary), ("trigger", .str r.trigger)]

end

/-! ### Events -/

/-- The policy an event was emitted under. -/
structure PolicyIntegrityBinding where
  policyIdentity : String
  policyVersion : String
  policyDigest : String
  deriving DecidableEq

def PolicyIntegrityBinding.toJson (b : PolicyIntegrityBinding) : Json :=
  .obj [("policy_digest", .str b.policyDigest), ("policy_identity", .str b.policyIdentity),
    ("policy_version", .str b.policyVersion)]

/-- One line of the event log. -/
structure AoEvent where
  eventId : String
  eventType : String
  runId : String
  workflowId : String
  roleId : Option String
  taskId : Option String
  actor : Actor
  payload : Json
  policyIntegrity : Option PolicyIntegrityBinding
  payloadDigest : String
  deriving DecidableEq

namespace AoEvent

variable [Platform]

/-- The digest an event carries: of its payload, together with the policy binding if it has one. -/
def canonicalPayloadDigest (payload : Json) : Option PolicyIntegrityBinding → String
  | some binding =>
    sha256Json (.obj [("payload", payload), ("policy_integrity", binding.toJson)])
  | none => sha256Json payload

/-- A new event, without a policy binding. -/
def new (eventId runId workflowId eventType : String) (roleId taskId : Option String)
    (actor : Actor) (payload : Json) : AoEvent where
  eventId := eventId
  eventType := eventType
  runId := runId
  workflowId := workflowId
  roleId := roleId
  taskId := taskId
  actor := actor
  payload := payload
  policyIntegrity := none
  payloadDigest := sha256Json payload

/-- Bind an event to a policy; its digest covers the binding from then on. -/
def withPolicyIntegrity (e : AoEvent) (binding : PolicyIntegrityBinding) : AoEvent :=
  { e with
    policyIntegrity := some binding
    payloadDigest := canonicalPayloadDigest e.payload (some binding) }

/-- The event carries the digest of its own payload and binding. -/
def DigestOk (e : AoEvent) : Prop :=
  canonicalPayloadDigest e.payload e.policyIntegrity = e.payloadDigest

theorem new_digestOk (eventId runId workflowId eventType : String) (roleId taskId : Option String)
    (actor : Actor) (payload : Json) :
    (new eventId runId workflowId eventType roleId taskId actor payload).DigestOk := rfl

theorem withPolicyIntegrity_digestOk (e : AoEvent) (binding : PolicyIntegrityBinding) :
    (e.withPolicyIntegrity binding).DigestOk := rfl

end AoEvent

end Ao2
