import Ao2.Core
import Mathlib.Data.List.Infix

/-!
# The local policy

Requests for a tool, their evaluation, and the tickets that stand for an exact request. A ticket is
granted for the digest it was created with and for no other.
-/

namespace Ao2

/-! ### Texts -/

instance lawfulBEq_chars : LawfulBEq (List Char) := inferInstance

/-- `c` is white space, in the sense in which texts are trimmed. -/
def isWhitespace (c : Char) : Bool :=
  c.toNat ∈ [0x20, 0x85, 0xA0, 0x1680, 0x2028, 0x2029, 0x202F, 0x205F, 0x3000] ||
    (0x09 ≤ c.toNat && c.toNat ≤ 0x0D) || (0x2000 ≤ c.toNat && c.toNat ≤ 0x200A)

/-- A text that is empty once trimmed. -/
def isBlank (s : String) : Bool := s.toList.all isWhitespace

/-- A text with the white space at both ends removed. -/
def trim (s : String) : String :=
  .ofList ((s.toList.dropWhile isWhitespace).reverse.dropWhile isWhitespace).reverse

/-- `needle` occurs in `s`. -/
def containsText (s needle : String) : Bool := needle.toList <:+: s.toList

/-! ### Requests -/

def policyVersion : String := "ao2.local.deny-by-default.v1"

def policyIdentity : String := "ao2-policy.local"

/-- A request to use a tool. -/
structure ToolRequest where
  principal : String
  tool : String
  operation : String
  resource : String
  args : List String
  expectedSideEffects : List String
  deriving DecidableEq

def ToolRequest.toJson (r : ToolRequest) : Json :=
  .obj [("args", .strs r.args), ("expected_side_effects", .strs r.expectedSideEffects),
    ("operation", .str r.operation), ("principal", .str r.principal),
    ("resource", .str r.resource), ("tool", .str r.tool)]

/-- The provider API keys whose presence in the environment stops every command. -/
def forbiddenProviderApiKeys : List String := ["OPENAI_API_KEY", "ANTHROPIC_API_KEY"]

/-- A request with a side effect that needs a human decision. -/
def isRisky (request : ToolRequest) : Bool :=
  let joined := " ".intercalate request.args
  request.tool == "git" && request.operation == "push" || request.tool == "network" ||
    request.tool == "package_manager" || request.tool == "secret" ||
    request.operation == "write_tree" || containsText request.operation "delete" ||
    containsText joined "rm -rf" || containsText joined ".." ||
    request.expectedSideEffects.any fun v =>
      v ∈ ["external_write", "network_egress", "destructive", "package_install", "broad_write",
        "raw_secret_access"]

section

variable [Platform]

def integrityBinding (decision : PolicyDecision) : PolicyIntegrityBinding where
  policyIdentity := policyIdentity
  policyVersion := decision.policyVersion
  policyDigest := sha256Json decision.toJson

/-- What a ticket for the request is bound to. A sandbox patch is bound to the digest of what it
changes, which its request carries as second argument; every other request to its own digest. -/
def ToolRequest.actionDigest (r : ToolRequest) : String :=
  match r.args with
  | _ :: digest :: _ =>
    if r.tool = "sandbox" ∧ r.operation = "apply" then digest else sha256Json r.toJson
  | _ => sha256Json r.toJson

/-- The decision of the policy on a request. -/
def evaluate (decisionId : String) (createdAt : DateTime) (request : ToolRequest) :
    PolicyDecision where
  decisionId := decisionId
  principal := request.principal
  action := request.tool ++ ":" ++ request.operation
  resource := request.resource
  requestDigest := request.actionDigest
  decision := if isRisky request then "requires_approval" else "allow"
  reason :=
    if isRisky request then "risky side effect requires exact-digest human approval"
    else "allowed by local MVP policy"
  policyVersion := policyVersion
  approvalTicketId := none
  createdAt := createdAt

/-- A denial of a request. -/
def deny (decisionId : String) (createdAt : DateTime) (request : ToolRequest) (reason : String) :
    PolicyDecision where
  decisionId := decisionId
  principal := request.principal
  action := request.tool ++ ":" ++ request.operation
  resource := request.resource
  requestDigest := request.actionDigest
  decision := "deny"
  reason := reason
  policyVersion := policyVersion
  approvalTicketId := none
  createdAt := createdAt

/-- A pending ticket for a request. It can be used for thirty minutes. -/
def createApprovalTicket (ticketId : String) (createdAt now : DateTime) (runId : String)
    (request : ToolRequest) : ApprovalTicket where
  ticketId := ticketId
  runId := runId
  requestedAction := request.tool ++ ":" ++ request.operation
  actionDigest := request.actionDigest
  riskClass := "external_write"
  requester := request.principal
  approver := none
  status := "pending"
  scope := request.resource
  createdAt := createdAt
  expiresAt := now + minutes 30

/-- Grant a ticket for exactly the request it was created for. -/
def grantExact (ticket : ApprovalTicket) (approver : String) (request : ToolRequest) :
    Except String ApprovalTicket :=
  if ticket.actionDigest ≠ request.actionDigest then
    .error "approval digest mismatch; modified action requires new approval"
  else .ok { ticket with approver := some approver, status := "approved" }

theorem grantExact_eq_ok {ticket granted : ApprovalTicket} {approver : String}
    {request : ToolRequest} :
    grantExact ticket approver request = .ok granted ↔
      ticket.actionDigest = request.actionDigest ∧
        granted = { ticket with approver := some approver, status := "approved" } := by
  unfold grantExact
  split
  · simp_all
  · simp_all [eq_comm]

end

end Ao2
