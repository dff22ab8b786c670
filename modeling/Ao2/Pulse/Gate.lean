import Ao2.Pulse.EventLoop
import Ao2.Core

/-!
# The gate for pull requests and checks

Before a new packet is generated, the recorded state of the pull request and of its checks is read.
Several clauses look at it one after the other, and each may turn the gate from passed to waiting.
-/

namespace Ao2

/-! ### Checks -/

inductive CheckStatus where
  | blocked | passed | waiting
  deriving DecidableEq

def CheckStatus.name : CheckStatus → String
  | blocked => "blocked"
  | passed => "passed"
  | waiting => "waiting"

section

variable [Platform]

/-- A member of a value as a text in lower case; empty if it is no text. -/
def lowerMember (value : Json) (key : String) : String :=
  lowercase (((value.get? key).bind Json.str?).getD "")

/-- The status of a check, from its `status` or `state` and its `conclusion`. -/
def checkStatus (check : Json) : CheckStatus :=
  let status := lowercase ((((check.get? "status").or (check.get? "state")).bind Json.str?).getD "")
  let conclusion := lowerMember check "conclusion"
  if conclusion ∈ ["failure", "cancelled", "timed_out", "action_required"] then .blocked
  else if status ∈ ["failure", "failed", "cancelled", "timed_out", "action_required"] then .blocked
  else if conclusion ∈ ["success", "neutral", "skipped"] then .passed
  else if status ∈ ["success", "passed"] then .passed
  else if status = "completed" ∧ conclusion ∈ ["", "success", "neutral", "skipped"] then .passed
  else .waiting

/-! ### The gate -/

inductive GateStatus where
  | notChecked | passed | waiting
  deriving DecidableEq

structure PrCiGate where
  enabled : Bool
  updateEnabled : Bool
  statePath : String
  status : GateStatus
  reason : Option String
  detail : Option String
  requiredChecks : List Json
  sourceSchemaVersion : Option String
  branch : Option String
  pr : Option Json
  trigger : Option String

def waitingReason : String := "waiting_for_pr_merge_or_ci"

namespace PrCiGate

/-- The gate waits, for a reason given in its detail. -/
def wait (gate : PrCiGate) (detail : String) : PrCiGate :=
  { gate with status := .waiting, reason := some waitingReason, detail := some detail }

/-- The gate waits; a detail that is there stays. -/
def waitKeeping (gate : PrCiGate) (detail : String) : PrCiGate :=
  gate.wait (gate.detail.getD detail)

/-- The clause about the pull request. -/
def judgePr (gate : PrCiGate) (state : Json) : PrCiGate :=
  match state.get? "pr" with
  | some (.obj members) =>
    let pr := Json.obj members
    let gate := { gate with pr := some pr }
    if ((pr.get? "is_draft").bind Json.bool?).getD false then gate.wait "pr_draft"
    else if lowerMember pr "state" = "open" then gate.wait "pr_open"
    else gate
  | _ => gate

/-- The clause about the recorded status. -/
def judgeStatus (gate : PrCiGate) (state : Json) : PrCiGate :=
  let status := lowerMember state "status"
  if status ∈ ["waiting", "pending", "failed", "blocked", "open", "draft"] then
    gate.waitKeeping ("gate_status_" ++ status)
  else gate

/-- The clause about one check. -/
def judgeCheck (gate : PrCiGate) (check : Json) : PrCiGate :=
  if !check.isObject then gate.wait "required_check_not_object"
  else if checkStatus check ≠ .passed then
    gate.waitKeeping ("required_check_" ++ (checkStatus check).name)
  else gate

/-- The clause about the checks. -/
def judgeChecks (gate : PrCiGate) (state : Json) : PrCiGate :=
  match (state.get? "required_checks").bind Json.arr? with
  | some checks => checks.foldl judgeCheck { gate with requiredChecks := checks }
  | none => gate.wait "required_checks_not_list"

/-- The clause about the reason of a gate that has passed. -/
def judgeReason (gate : PrCiGate) (state : Json) : PrCiGate :=
  if gate.status = .passed ∧
      lowerMember state "status" ∈ ["passed", "green", "ready", "merged", "closed_success"] then
    { gate with reason := some "passed" }
  else gate

end PrCiGate

variable [JsonText]

/-- The gate for a state file. -/
def loadPrCiGate (enabled : Bool) (statePath : String) (file : TextFile) (trigger : String) :
    PrCiGate :=
  let gate : PrCiGate := {
    enabled := enabled
    updateEnabled := true
    statePath := statePath
    status := .passed
    reason := some "state_missing"
    detail := none
    requiredChecks := []
    sourceSchemaVersion := none
    branch := none
    pr := none
    trigger := some trigger }
  if !enabled then { gate with reason := some "gate_disabled" }
  else
    match file with
    | .absent => gate
    | .unreadable e => gate.wait ("failed to read gate state: " ++ e)
    | .text content =>
      match parseJson content with
      | none => gate.wait "gate_state_invalid_json"
      | some state =>
        if !state.isObject then gate.wait "gate_state_not_object"
        else
          let gate := { gate with
            sourceSchemaVersion := (state.get? "schema_version").bind Json.str?
            branch := (state.get? "branch").bind Json.str? }
          (((gate.judgePr state).judgeStatus state).judgeChecks state).judgeReason state

end

end Ao2
