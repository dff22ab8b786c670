import Ao2.Interaction.Oracle
import Ao2.Publication.Plan

/-!
# Applying a plan

The publication procedure talks to the local repository and to the remote service through a
transport. It makes sure of the fork, of the branch on the fork and of the draft, in this order; each
of them is written only if it is not there yet, and is read back after it was written.
-/

namespace Ao2

open Interaction

/-! ### What the service answers -/

structure RepositoryIdentity where
  fullName : String
  defaultBranch : String

structure OwnerIdentity where
  login : String

structure ParentIdentity where
  fullName : String

structure ForkIdentity where
  fullName : String
  defaultBranch : String
  owner : OwnerIdentity
  parent : Option ParentIdentity

structure PullRef where
  sha : String
  reference : String
  deriving DecidableEq

structure PullRepository where
  fullName : String
  deriving DecidableEq

structure PullHead where
  sha : String
  reference : String
  repo : PullRepository
  deriving DecidableEq

structure PullIdentity where
  number : ℕ
  state : String
  draft : Bool
  mergedAt : Option String
  title : String
  body : String
  base : PullRef
  head : PullHead
  deriving DecidableEq

inductive CreateDraftOutcome where
  | created (number : ℕ)
  | conflict

/-- The operations of a transport. -/
inductive TransportOp where
  | now
  | verifyLocalRepository (root : String) (plan : PublicationPlan)
  | authenticatedLogin
  | readRepository (repository : String)
  | readFork (fork : String)
  | createFork (upstream : String)
  | readBranch (fork branch : String)
  | pushBranch (root fork branch head : String)
  | findDrafts (action : GitHubActionDigest) (baseBranch : String)
  | createDraft (plan : PublicationPlan) (baseBranch : String)
  | readPull (repository : String) (number : ℕ)
  | retryDelay

/-- What a transport answers to each operation. -/
def TransportOp.Ans : TransportOp → Type
  | now => DateTime
  | verifyLocalRepository _ _ => Except String Unit
  | authenticatedLogin => Except String String
  | readRepository _ => Except String RepositoryIdentity
  | readFork _ => Except String (Option ForkIdentity)
  | createFork _ => Except String Unit
  | readBranch _ _ => Except String (Option String)
  | pushBranch _ _ _ _ => Except String Unit
  | findDrafts _ _ => Except String (List PullIdentity)
  | createDraft _ _ => Except String CreateDraftOutcome
  | readPull _ _ => Except String PullIdentity
  | retryDelay => Unit

def TransportSig : Signature := ⟨TransportOp, TransportOp.Ans⟩

/-- A procedure over a transport. -/
abbrev PublicationProg := Prog TransportSig String

namespace PublicationProg

def now : PublicationProg DateTime := .ask (S := TransportSig) .now .done

def verifyLocalRepository (root : String) (plan : PublicationPlan) : PublicationProg Unit :=
  .ask (S := TransportSig) (.verifyLocalRepository root plan) .ofExcept

def authenticatedLogin : PublicationProg String :=
  .ask (S := TransportSig) .authenticatedLogin .ofExcept

def readRepository (repository : String) : PublicationProg RepositoryIdentity :=
  .ask (S := TransportSig) (.readRepository repository) .ofExcept

def readFork (fork : String) : PublicationProg (Option ForkIdentity) :=
  .ask (S := TransportSig) (.readFork fork) .ofExcept

def createFork (upstream : String) : PublicationProg Unit :=
  .ask (S := TransportSig) (.createFork upstream) .ofExcept

def readBranch (fork branch : String) : PublicationProg (Option String) :=
  .ask (S := TransportSig) (.readBranch fork branch) .ofExcept

def pushBranch (root fork branch head : String) : PublicationProg Unit :=
  .ask (S := TransportSig) (.pushBranch root fork branch head) .ofExcept

def findDrafts (action : GitHubActionDigest) (baseBranch : String) :
    PublicationProg (List PullIdentity) :=
  .ask (S := TransportSig) (.findDrafts action baseBranch) .ofExcept

def createDraft (plan : PublicationPlan) (baseBranch : String) :
    PublicationProg CreateDraftOutcome :=
  .ask (S := TransportSig) (.createDraft plan baseBranch) .ofExcept

def readPull (repository : String) (number : ℕ) : PublicationProg PullIdentity :=
  .ask (S := TransportSig) (.readPull repository number) .ofExcept

def retryDelay : PublicationProg Unit := .ask (S := TransportSig) .retryDelay .done

end PublicationProg

open PublicationProg

/-! ### What an answer has to be -/

def validateForkIdentity (identity : ForkIdentity) (fork upstream upstreamDefaultBranch : String) :
    Except String Unit := do
  let (owner, _) ← splitRepository fork
  bailIf (identity.fullName ≠ fork ∨ identity.owner.login ≠ owner ∨
      identity.parent.map ParentIdentity.fullName ≠ some upstream ∨
      identity.defaultBranch ≠ upstreamDefaultBranch)
    "fork identity, parent, owner, or default branch drifted"

/-- The pull request is the draft that was approved. -/
def exactPull (pull : PullIdentity) (plan : PublicationPlan) (baseBranch : String) : Bool :=
  let action := plan.draftAction
  let fork := action.fork.getD ""
  0 < pull.number && pull.state = "open" && pull.draft && pull.mergedAt.isNone &&
    pull.title = plan.draft.title && pull.body = plan.draft.body &&
    pull.base.reference = baseBranch && pull.base.sha = action.baseSha &&
    pull.head.reference = action.branch && pull.head.sha = action.headSha &&
    pull.head.repo.fullName = fork

/-! ### The procedure -/

/-- Read a fork until it is there. -/
def pollFork (fork : String) : ℕ → PublicationProg (Option ForkIdentity)
  | 0 => .done none
  | n + 1 => do
    let identity ← readFork fork
    if identity.isSome then pure identity
    else do
      retryDelay
      pollFork fork n

/-- Read a branch until it has a head; what was read last. -/
def pollBranch (fork branch head : String) : ℕ → Option String → PublicationProg (Option String)
  | 0, readback => .done readback
  | n + 1, _ => do
    let readback ← readBranch fork branch
    if readback = some head then pure readback
    else do
      retryDelay
      pollBranch fork branch head n readback

structure ApplyReadback where
  schemaVersion : String
  status : String
  repository : String
  fork : String
  branch : String
  headSha : String
  pullNumber : ℕ
  forkCreated : Bool
  branchPushed : Bool
  draftPrCreated : Bool
  independentReadback : Bool
  issueWritePerformed : Bool
  readyForReviewPerformed : Bool
  reviewApprovalPerformed : Bool
  mergePerformed : Bool
  releasePerformed : Bool
  deriving DecidableEq

section

variable [Platform]

/-- An action is still approved at the time that the transport reads. -/
def recheck (action : GitHubActionDigest) (expectedAction : String) : PublicationProg Unit := do
  let time ← now
  .ofExcept (validateAction action expectedAction action.actionDigest time)

/-- The fork is there and is a fork of the repository; whether it had to be created. -/
def ensureFork (plan : PublicationPlan) (fork defaultBranch : String) : PublicationProg Bool := do
  let push := plan.pushAction
  match ← readFork fork with
  | some identity =>
    .ofExcept (validateForkIdentity identity fork push.repository defaultBranch)
    pure false
  | none =>
    recheck push "push_operator_fork"
    createFork push.repository
    let identity ← pollFork fork 10
    let identity ← .ofExcept (orContext identity "created fork was not independently readable")
    .ofExcept (validateForkIdentity identity fork push.repository defaultBranch)
    pure true

/-- The branch of the fork has the approved head; whether it had to be pushed. -/
def ensureBranch (plan : PublicationPlan) (root fork : String) : PublicationProg Bool := do
  let push := plan.pushAction
  match ← readBranch fork push.branch with
  | some head =>
    if head = push.headSha then pure false
    else .fail "existing repair branch does not match the exact approved head"
  | none =>
    recheck push "push_operator_fork"
    pushBranch root fork push.branch push.headSha
    let readback ← pollBranch fork push.branch push.headSha 5 none
    .ofExcept (bailIf (readback ≠ some push.headSha)
      "pushed repair branch failed exact independent readback")
    pure true

/-- The draft that another one was opened in front of. -/
def rereadDraft (plan : PublicationPlan) (defaultBranch : String) : PublicationProg ℕ := do
  match ← findDrafts plan.draftAction defaultBranch with
  | [pull] =>
    if exactPull pull plan defaultBranch then pure pull.number
    else .fail "draft create conflict re-read found identity drift"
  | [] => .fail "draft create conflict re-read found no matching draft"
  | _ => .fail "draft create conflict re-read was ambiguous"

/-- The approved draft is there; its number and whether it had to be opened. -/
def ensureDraft (plan : PublicationPlan) (defaultBranch : String) : PublicationProg (ℕ × Bool) := do
  match ← findDrafts plan.draftAction defaultBranch with
  | [] =>
    recheck plan.draftAction "open_upstream_draft_pr"
    match ← createDraft plan defaultBranch with
    | .created number => pure (number, true)
    | .conflict =>
      let number ← rereadDraft plan defaultBranch
      pure (number, false)
  | [pull] =>
    if exactPull pull plan defaultBranch then pure (pull.number, false)
    else .fail "existing pull request does not match the exact approved draft identity"
  | _ => .fail "draft pull request lookup returned ambiguous matches"

/-- The checks before anything is written; the default branch of the repository. -/
def verifyUpstream (plan : PublicationPlan) (root fork : String) : PublicationProg String := do
  let push := plan.pushAction
  verifyLocalRepository root plan
  let login ← authenticatedLogin
  let (forkOwner, _) ← .ofExcept (splitRepository fork)
  .ofExcept (bailIf (login ≠ forkOwner)
    "approved fork owner does not match the authenticated GitHub account")
  let upstream ← readRepository push.repository
  .ofExcept (bailIf (upstream.fullName ≠ push.repository) "upstream repository identity drifted")
  .ofExcept (validateRef upstream.defaultBranch)
  let base ← readBranch push.repository upstream.defaultBranch
  .ofExcept (bailIf (base ≠ some push.baseSha)
    "upstream default branch does not match the exact approved base")
  pure upstream.defaultBranch

/-- The draft, read back by its number. -/
def readbackDraft (plan : PublicationPlan) (defaultBranch : String) (number : ℕ) :
    PublicationProg Unit := do
  let pull ← readPull plan.pushAction.repository number
  .ofExcept (bailIf (!exactPull pull plan defaultBranch)
    "draft pull request failed exact independent readback")

/-- What is done once the checks have passed. -/
def publish (plan : PublicationPlan) (root fork defaultBranch : String) :
    PublicationProg ApplyReadback := do
  let push := plan.pushAction
  let forkCreated ← ensureFork plan fork defaultBranch
  let branchPushed ← ensureBranch plan root fork
  let (pullNumber, draftPrCreated) ← ensureDraft plan defaultBranch
  readbackDraft plan defaultBranch pullNumber
  pure
    { schemaVersion := "ao2.github-repair-publication-readback.v1"
      status :=
        if forkCreated || branchPushed || draftPrCreated then "applied" else "idempotent_readback"
      repository := push.repository
      fork := fork
      branch := push.branch
      headSha := push.headSha
      pullNumber := pullNumber
      forkCreated := forkCreated
      branchPushed := branchPushed
      draftPrCreated := draftPrCreated
      independentReadback := true
      issueWritePerformed := false
      readyForReviewPerformed := false
      reviewApprovalPerformed := false
      mergePerformed := false
      releasePerformed := false }

def applyWithTransport (plan : PublicationPlan) (root : String) : PublicationProg ApplyReadback := do
  let fork ← .ofExcept (orContext plan.pushAction.fork "operator-owned fork is required")
  let defaultBranch ← verifyUpstream plan root fork
  publish plan root fork defaultBranch

end

end Ao2
