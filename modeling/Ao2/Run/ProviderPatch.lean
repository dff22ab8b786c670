import Ao2.Run.Steps

/-!
# Provider patches

`applyProviderPromptPatchForRole`: run the provider in a sandbox, preview its patch, wait for a
ticket for exactly that patch, and apply it. The function is entered again when the run is resumed,
and finds out from the run record and from the sandbox directory how far it had come.
-/

namespace Ao2

open Interaction

variable [Platform]

/-! ### Directories -/

/-- Copy the entries of a tree into a directory, one by one. -/
def copyEntries (dir : String) : Tree → Cmd Unit
  | [] => pure ()
  | (path, node) :: rest => do
    if isIgnoredPath path || node == .other then copyEntries dir rest
    else
      op (.copySandboxEntry dir path node)
      copyEntries dir rest

/-- Copy a tree into a new directory. -/
def copyDirRecursive (tree : Tree) (dir : String) : Cmd Unit := do
  op (.createSandbox dir)
  copyEntries dir tree

/-- Remove the entries of a directory, one by one. -/
def removeEntries (dir : String) : Tree → Cmd Unit
  | [] => pure ()
  | (path, _) :: rest => do
    op (.removeSandboxEntry dir path)
    removeEntries dir rest

/-- Remove a directory with everything in it. -/
def removeDirAll (dir : String) : Cmd Unit := do
  match ← op (.readSandbox dir) with
  | none => pure ()
  | some tree =>
    removeEntries dir tree
    op (.removeSandbox dir)

/-! ### Previews and application -/

/-- Preview the patch of a persisted sandbox. -/
def previewSandbox (dir : String) : Cmd SandboxPatchPreview := do
  let repo ← op .readTarget
  match ← op (.readSandbox dir) with
  | none => bail "sandbox is not a directory"
  | some sandbox => orBail (previewSandboxPatch repo sandbox)

/-- The operations of a patch, in order; the first that fails ends it. -/
def applyOperations (kind : WriteKind) (dir : String) : List SandboxPatchOperation → Cmd Unit
  | [] => pure ()
  | o :: os => do
    match ← op (.applyOperation kind dir o) with
    | .error e => bail e
    | .ok () => applyOperations kind dir os

/-- Apply a persisted sandbox to the target, if it is still the one that was approved. -/
def applySandboxPatch (key : ActionKey) (expectedSubject : SandboxPatchApprovalSubject)
    (expectedDigest approver : String) : Cmd SandboxPatchApplyResult := do
  let repo ← op .readTarget
  match ← op (.readSandbox key.sandboxDir) with
  | none => bail "sandbox is not a directory"
  | some sandbox =>
    let preview ← orBail (checkSandboxPatch repo sandbox expectedSubject expectedDigest)
    applyOperations (.sandboxPatch key preview.actionDigest) key.sandboxDir
      preview.approvalSubject.operations
    pure {
      appliedFiles := preview.changedFiles
      approvalSubject := preview.approvalSubject
      actionDigest := preview.actionDigest
      approver := approver }

/-! ### The searches through the tickets -/

/-- An approved ticket of the requester for exactly the patch, not consumed yet. -/
def findApproved (requester digest : String) (consumed : List String)
    (approvals : List ApprovalTicket) : Option ApprovalTicket :=
  approvals.find? fun t =>
    t.requestedAction = "sandbox:apply" && t.actionDigest = digest && t.status = "approved" &&
      t.requester = requester && !consumed.contains t.ticketId

/-- An approved ticket of the requester for another patch, not consumed yet. -/
def findStale (requester digest : String) (consumed : List String)
    (approvals : List ApprovalTicket) : Option ApprovalTicket :=
  approvals.find? fun t =>
    t.requestedAction = "sandbox:apply" && t.scope = "sandbox_patch" && t.status = "approved" &&
      t.requester = requester && t.actionDigest ≠ digest && !consumed.contains t.ticketId

/-- A ticket of the requester for exactly the patch that waits for a decision. -/
def findPending (requester digest : String) (approvals : List ApprovalTicket) :
    Option ApprovalTicket :=
  approvals.find? fun t =>
    t.requestedAction = "sandbox:apply" && t.actionDigest = digest && t.status = "pending" &&
      t.requester = requester

/-- The request to apply the patch with a digest. -/
def sandboxRequest (key : ActionKey) (digest : String) : ToolRequest where
  principal := key.principal
  tool := "sandbox"
  operation := "apply"
  resource := "sandbox_patch"
  args := ["apply", digest]
  expectedSideEffects := ["repo_write"]

/-! ### The patch of an action -/

/-- The provider has run for the action, as far as the run record knows. -/
def summaryExists (key : ActionKey) (ctx : RunContext) : Bool :=
  (findArtifact ctx key.roleId "provider_transcript_summary" key.summaryFilename).isSome

/-- The transcript summary as it is stored: a workflow task adds its identity. -/
def summaryValue (key : ActionKey) (taskId : Option String) (summary : Json) : Json :=
  match taskId with
  | some taskId =>
    (summary.setMember "task_id" (.str taskId)).setMember "workflow_role" (.str key.roleId)
  | none => summary

/-- Run the provider and keep its sandbox in the run directory. -/
def runProviderAction (key : ActionKey) (provider : ProviderKind) (prompt : String)
    (taskId : Option String) : RunM SandboxPatchPreview := do
  let run : SandboxRun ← orBail (← op (.runProvider provider key.roleId prompt))
  let action := key.actionId.name
  let transcript ← storeArtifact "provider_prompt_transcript" key.roleId
    ("provider-prompt-transcript-" ++ action ++ ".json") "application/json" (.json run.adapter) []
  let summary := summaryValue key taskId run.transcriptSummary
  let _ ← storeArtifact "provider_transcript_summary" key.roleId key.summaryFilename
    "application/json" (.json summary) [transcript.artifactId]
  emit (← get) "adapter.transcript.parsed" (some key.roleId) (some action) (.role key.roleId) summary
  emit (← get) "adapter.completed" (some key.roleId) (some action) (.role key.roleId) run.adapter
  if run.blocker then
    bail "provider adapter failed; see provider_prompt_transcript artifact"
  else
    let repo ← op .readTarget
    let preview ← orBail (previewSandboxPatch repo run.sandbox)
    let _ ← storeArtifact "sandbox_patch_preview" key.roleId
      ("sandbox-patch-preview-" ++ action ++ ".json") "application/json" (.json preview.toJson)
      [transcript.artifactId]
    emit (← get) "sandbox.patch.previewed" (some key.roleId) (some action) .system preview.toJson
    copyDirRecursive run.sandbox key.sandboxDir
    pure preview

/-- The patch of an action: of its sandbox if that is there, since then the action was suspended,
else of a new provider run. -/
def previewAction (key : ActionKey) (provider : ProviderKind) (prompt : String)
    (taskId : Option String) (sandboxExists : Bool) : RunM SandboxPatchPreview :=
  if sandboxExists then previewSandbox key.sandboxDir
  else runProviderAction key provider prompt taskId

/-- The tickets that count as used in this session. -/
def readConsumed : Cmd (List String) := do
  pure ((← op .readConsumed).getD [])

/-! ### Waiting for a decision -/

/-- Create the ticket for a patch, with the evidence of the request. -/
def createSandboxTicket (key : ActionKey) (preview : SandboxPatchPreview) : RunM Unit := do
  let action := key.actionId.name
  let ticket ← issueTicket (some key) (sandboxRequest key preview.actionDigest)
  let previewArtId := findArtifactId (← get) key.roleId "sandbox_patch_preview"
    ("sandbox-patch-preview-" ++ action ++ ".json")
  let _ ← storeArtifact "approval_ticket_requested" key.roleId
    ("sandbox-patch-approval-requested-" ++ action ++ "-" ++ ticket.ticketId ++ ".json")
    "application/json" (.json ticket.toJson) (if previewArtId = "" then [] else [previewArtId])
  emit (← get) "approval.requested" (some key.roleId) (some action) .system ticket.toJson

/-- Have a pending ticket for the patch, and suspend the run. -/
def requestApproval (key : ActionKey) (preview : SandboxPatchPreview) : RunM RunStatus := do
  match findPending key.principal preview.actionDigest (← get).approvals with
  | some _ => pure ()
  | none => createSandboxTicket key preview
  writeRunRecord (← get) .waitingForApproval
  pure .waitingForApproval

/-! ### Applying an approved patch -/

/-- Refuse a patch, on the record. -/
def denyApproval (key : ActionKey) (payload : Json) (message : String) : RunM Unit := do
  emit (← get) "approval.denied" (some key.roleId) (some key.actionId.name) .system payload
  bail ("approval verification failed: " ++ message)

/-- What an approved ticket is checked for, in this order; the event's reason and the message of the
first check that fails. -/
def verifyTicket (ctx : RunContext) (ticket : ApprovalTicket) (digest : String)
    (consumed : List String) (now : DateTime) : Option (String × String) :=
  if ticket.runId ≠ ctx.runId then some ("run_id mismatch", "run_id mismatch")
  else if ticket.actionDigest ≠ digest then some ("digest mismatch", "digest mismatch")
  else if ticket.requestedAction ≠ "sandbox:apply" ∨ ticket.scope ≠ "sandbox_patch" then
    some ("operation/resource mismatch", "operation/resource mismatch")
  else if isBlank (ticket.approver.getD "") then
    some ("missing approver identity", "missing approver identity")
  else if ticket.expiresAt < now then some ("expired ticket", "ticket has expired")
  else if ticket.status ≠ "approved" then
    some ("ticket status is not approved", "ticket is not approved")
  else if consumed.contains ticket.ticketId then
    some ("ticket already consumed", "ticket has already been consumed")
  else none

/-- Apply a patch on a ticket, and record the ticket as used; the artifact of the application. -/
def applyOnTicket (key : ActionKey) (preview : SandboxPatchPreview) (consumed : List String)
    (ticket : ApprovalTicket) (granted : ArtifactRef) : RunM ArtifactRef := do
  let action := key.actionId.name
  op (.note (.authorised key ticket.ticketId preview.actionDigest))
  let applied ← applySandboxPatch key preview.approvalSubject preview.actionDigest
    (ticket.approver.getD "human:local-user")
  op (.note (.applied key ticket.ticketId preview.actionDigest))
  let applyArtifact ← storeArtifact "sandbox_patch_apply" key.roleId
    ("sandbox-patch-apply-" ++ action ++ ".json") "application/json" (.json applied.toJson)
    [granted.artifactId]
  emit (← get) "sandbox.patch.applied" (some key.roleId) (some action) .humanLocal applied.toJson
  removeDirAll key.sandboxDir
  op (.replaceConsumed (consumed ++ [ticket.ticketId]))
  pure applyArtifact

/-- Check an approved ticket and what it was approved for, and apply the patch. -/
def applyApproved (key : ActionKey) (preview : SandboxPatchPreview) (consumed : List String)
    (ticket : ApprovalTicket) : RunM RunStatus := do
  let role := some key.roleId
  let action := key.actionId.name
  let now ← op .utcNow
  match verifyTicket (← get) ticket preview.actionDigest consumed now with
  | some (reason, message) => denyApproval key (.obj [("reason", .str reason)]) message
  | none => pure ()
  emit (← get) "approval.accepted" role (some action) .system ticket.toJson
  let recomputed ← previewSandbox key.sandboxDir
  if recomputed.actionDigest ≠ preview.actionDigest then
    denyApproval key (.obj [("reason", .str "sandbox changed after approval")])
      "sandbox changed after approval"
  let reqTicketArtId := findArtifactId (← get) key.roleId "approval_ticket_requested"
    ("sandbox-patch-approval-requested-" ++ action)
  let granted ← storeArtifact "approval_ticket_granted" key.roleId
    ("sandbox-patch-approval-granted-" ++ action ++ "-" ++ ticket.ticketId ++ ".json")
    "application/json" (.json ticket.toJson) (if reqTicketArtId = "" then [] else [reqTicketArtId])
  let applyArtifact ← applyOnTicket key preview consumed ticket granted
  let transcriptSummaryId := findArtifactId (← get) key.roleId "provider_transcript_summary"
    key.summaryFilename
  let _ ← storeArtifact "patch_summary" key.roleId ("provider-patch-" ++ action ++ ".md")
    "text/markdown"
    (.text "Applied provider prompt sandbox patch through exact-digest patch gate.")
    [applyArtifact.artifactId, transcriptSummaryId]
  emit (← get) "role.completed" role (some action) (.role key.roleId)
    (.obj [("blockers", .arr []), ("concerns", .arr []), ("status", .str "completed")])
  pure .accepted

/-! ### The action -/

/-- From the preview on: look for the ticket, and apply, refuse or wait. -/
def settlePreview (key : ActionKey) (preview : SandboxPatchPreview) : RunM RunStatus := do
  let consumed ← readConsumed
  let approvals := (← get).approvals
  let approved := findApproved key.principal preview.actionDigest consumed approvals
  op (.note (.sought key preview.actionDigest (approved.map (·.ticketId))))
  match approved with
  | some ticket => applyApproved key preview consumed ticket
  | none =>
    match findStale key.principal preview.actionDigest consumed approvals with
    | some ticket =>
      op (.note (.stale key ticket.ticketId preview.actionDigest))
      denyApproval key
        (.obj [("approved_action_digest", .str ticket.actionDigest),
          ("approved_ticket_id", .str ticket.ticketId),
          ("current_action_digest", .str preview.actionDigest),
          ("reason", .str "sandbox changed after approval")])
        "sandbox changed after approval"
    | none => pure ()
    requestApproval key preview

/-- **Perform a provider action, or go on with it.** An action that the provider has run for and
whose sandbox is gone counts as done. -/
def applyProviderPromptPatchForRole (key : ActionKey) (provider : ProviderKind) (prompt : String)
    (taskId : Option String) : RunM RunStatus := do
  let sandboxExists ← op (.sandboxExists key.sandboxDir)
  if summaryExists key (← get) && !sandboxExists then
    pure .accepted
  else
    emit (← get) "role.started" (some key.roleId) (some key.actionId.name) (.role key.roleId)
      (.obj [("provider", .str provider.name), ("status", .str "started")])
    let preview ← previewAction key provider prompt taskId sandboxExists
    settlePreview key preview

/-- The only action of a run without workflow tasks. -/
def implementerKey (actionId : ActionId) : ActionKey := ⟨"implementer", actionId⟩

def applyProviderPromptPatch (provider : ProviderKind) (prompt : String) : RunM RunStatus :=
  applyProviderPromptPatchForRole (implementerKey .providerPromptPatch) provider prompt none

end Ao2
