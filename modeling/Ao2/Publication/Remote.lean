import Ao2.Publication.ForkOnly
import Ao2.Publication.Protected

/-!
# The remote service

A publication is made on a repository, on a fork that an account has of it, on the branches of that
fork and on the pull requests of the repository. The service takes one request after the other. It
opens no second pull request from one branch to another, and it makes a fork in its own time. An
answer may be lost after its request took effect, and a request before.

An attempt is one run of the publication procedure, which may be stopped anywhere. Between attempts
other people do what they like.

## Main results

* `attempt_invariant` — what every request of a plan keeps, every attempt keeps
-/

namespace Ao2

open Interaction

/-! ### The service -/

/-- What stays as it is while a plan is published. -/
structure Site where
  /-- The account. -/
  login : String
  upstream : RepositoryIdentity
  /-- The heads of the branches of the repository. -/
  heads : String → Option String
  /-- The fork that the account has of the repository, or would have. -/
  fork : ForkIdentity
  /-- How often a new fork is asked for in vain. -/
  latency : ℕ
  localRepository : LocalRepository

/-- What changes. -/
structure Remote where
  /-- How often the fork is still asked for in vain, if it was made. -/
  fork : Option ℕ
  /-- The heads of the branches of the fork. -/
  branches : String → Option String
  /-- The pull requests of the repository, the newest first. -/
  pulls : List PullIdentity
  /-- The number of the next pull request. -/
  next : ℕ
  /-- The drafts that were opened for the plan. -/
  opened : List ℕ

/-- The owner in the name of a repository. -/
def ownerOf (repository : String) : String := .ofList ((repository.toList.splitOn '/').headD [])

/-- The open pull requests from a branch of an owner to a branch of the repository. -/
def Remote.openPulls (r : Remote) (owner branch base : String) : List PullIdentity :=
  r.pulls.filter fun pull => pull.state = "open" && ownerOf pull.head.repo.fullName = owner &&
    pull.head.reference = branch && pull.base.reference = base

/-- The owner of the fork of an action. -/
def GitHubActionDigest.forkOwner (action : GitHubActionDigest) : Except String String := do
  let fork ← orContext action.fork "operator-owned fork is required"
  let (owner, _) ← splitRepository fork
  pure owner

/-- The pull request that is opened for a plan. -/
def draftPull (plan : PublicationPlan) (number : ℕ) (fork head base baseHead : String) :
    PullIdentity where
  number := number
  state := "open"
  draft := true
  mergedAt := none
  title := plan.draft.title
  body := plan.draft.body
  base := ⟨baseHead, base⟩
  head := ⟨head, plan.draftAction.branch, ⟨fork⟩⟩

/-- With a branch on the fork. -/
def Remote.pushed (r : Remote) (branch head : String) : Remote :=
  { r with branches := Function.update r.branches branch (some head) }

@[simp] theorem Remote.pushed_branches_self (r : Remote) (branch head : String) :
    (r.pushed branch head).branches branch = some head :=
  Function.update_self ..

/-- With a new pull request, which was opened for the plan. -/
def Remote.drafted (r : Remote) (draft : PullIdentity) : Remote :=
  { r with pulls := draft :: r.pulls, next := r.next + 1, opened := r.opened ++ [r.next] }

/-- The pull requests have numbers of their own. -/
structure Remote.Numbered (r : Remote) : Prop where
  next : 0 < r.next
  range : ∀ pull ∈ r.pulls, 0 < pull.number ∧ pull.number < r.next
  nodup : (r.pulls.map PullIdentity.number).Nodup

namespace Site

variable (site : Site) (r : Remote)

/-- The head of a branch that a pull request would come from. -/
def headOf (owner branch : String) : Option String :=
  if owner = ownerOf site.fork.fullName ∧ r.fork = some 0 then r.branches branch else none

def serveReadRepository (repository : String) : Except String RepositoryIdentity :=
  if repository = site.upstream.fullName then .ok site.upstream else .error "HTTP 404"

/-- A fork that was made is found in the end. -/
def serveReadFork (fork : String) : Except String (Option ForkIdentity) × Remote :=
  if fork = site.fork.fullName then
    match r.fork with
    | none => (.ok none, r)
    | some 0 => (.ok (some site.fork), r)
    | some (n + 1) => (.ok none, { r with fork := some n })
  else (.ok none, r)

/-- With a new fork, which begins with the default branch of the repository. -/
def forked : Remote :=
  { r with
    fork := some site.latency
    branches := fun branch =>
      if branch = site.upstream.defaultBranch then site.heads branch else none }

def serveCreateFork (upstream : String) : Except String Unit × Remote :=
  if upstream = site.upstream.fullName then
    match r.fork with
    | none => (.ok (), site.forked r)
    | some _ => (.ok (), r)
  else (.error "HTTP 404", r)

def serveReadBranch (repository branch : String) : Except String (Option String) :=
  if repository = site.upstream.fullName then .ok (site.heads branch)
  else if repository = site.fork.fullName ∧ r.fork = some 0 then .ok (r.branches branch)
  else .ok none

/-- A branch that has another head is not moved. -/
def servePushBranch (fork branch head : String) : Except String Unit × Remote :=
  if fork = site.fork.fullName ∧ r.fork = some 0 then
    match r.branches branch with
    | none => (.ok (), r.pushed branch head)
    | some old => if old = head then (.ok (), r) else (.error "rejected", r)
  else (.error "repository not found", r)

/-- The service is asked for open pull requests only, and for ten of them. -/
def serveFindDrafts (action : GitHubActionDigest) (base : String) :
    Except String (List PullIdentity) := do
  let owner ← action.forkOwner
  if action.repository = site.upstream.fullName then
    .ok ((r.openPulls owner action.branch base).take 10)
  else .error "HTTP 404"

/-- A pull request that cannot be opened, and one that is open already, are both a conflict. -/
def serveCreateDraft (plan : PublicationPlan) (base : String) :
    Except String CreateDraftOutcome × Remote :=
  let action := plan.draftAction
  match action.forkOwner with
  | .error message => (.error message, r)
  | .ok owner =>
    if action.repository = site.upstream.fullName then
      match site.headOf r owner action.branch, site.heads base with
      | some head, some baseHead =>
        if r.openPulls owner action.branch base = [] then
          (.ok (.created r.next),
            r.drafted (draftPull plan r.next site.fork.fullName head base baseHead))
        else (.ok .conflict, r)
      | _, _ => (.ok .conflict, r)
    else (.error "HTTP 404", r)

def serveReadPull (repository : String) (number : ℕ) : Except String PullIdentity :=
  if repository = site.upstream.fullName then
    orContext (r.pulls.find? fun pull => pull.number = number) "HTTP 404"
  else .error "HTTP 404"

/-- What is answered to an operation, and what the operation leaves. -/
def serve (time : DateTime) : (o : TransportOp) → TransportSig.Ans o × Remote
  | .now => (time, r)
  | .verifyLocalRepository _ plan => (Ao2.verifyLocalRepository site.localRepository plan, r)
  | .authenticatedLogin => (.ok site.login, r)
  | .readRepository repository => (site.serveReadRepository repository, r)
  | .readFork fork => site.serveReadFork r fork
  | .createFork upstream => site.serveCreateFork r upstream
  | .readBranch repository branch => (site.serveReadBranch r repository branch, r)
  | .pushBranch _ fork branch head => site.servePushBranch r fork branch head
  | .findDrafts action base => (site.serveFindDrafts r action base, r)
  | .createDraft plan base => site.serveCreateDraft r plan base
  | .readPull repository number => (site.serveReadPull r repository number, r)
  | .retryDelay => ((), r)

end Site

/-! ### Attempts -/

/-- What happens to a request. -/
inductive Fault where
  /-- It is answered. -/
  | answered
  /-- It takes effect, but the answer is lost. -/
  | lost
  /-- It does not arrive. -/
  | refused
  deriving DecidableEq

/-- What the procedure is told when it is not answered. The clock is not asked for over the network. -/
def TransportOp.unanswered : (o : TransportOp) → TransportSig.Ans o → TransportSig.Ans o
  | .now, time => time
  | .retryDelay, u => u
  | .verifyLocalRepository _ _, _ => .error "no answer"
  | .authenticatedLogin, _ => .error "no answer"
  | .readRepository _, _ => .error "no answer"
  | .readFork _, _ => .error "no answer"
  | .createFork _, _ => .error "no answer"
  | .readBranch _ _, _ => .error "no answer"
  | .pushBranch _ _ _ _, _ => .error "no answer"
  | .findDrafts _ _, _ => .error "no answer"
  | .createDraft _ _, _ => .error "no answer"
  | .readPull _ _, _ => .error "no answer"

/-- One run of the procedure: where it runs, what the clock shows and what happens to the request at
each operation, and after how many operations the process stops, if it does. -/
structure Attempt where
  root : String
  times : ℕ → DateTime
  faults : ℕ → Fault
  stop : Option ℕ

/-- The remote state in an attempt, the writes that the attempt has asked for, and the number of its
operations. -/
structure Session where
  remote : Remote
  issued : List PublicationWrite
  count : ℕ

/-- The session after an operation that left a remote state. -/
def Session.after (s : Session) (o : TransportOp) (remote : Remote) : Session where
  remote := remote
  issued := s.issued ++ o.write?.toList
  count := s.count + 1

namespace Site

/-- The service in an attempt. -/
def machine (site : Site) (a : Attempt) : Machine TransportSig Session where
  step o s :=
    let served := site.serve s.remote (a.times s.count) o
    match a.faults s.count with
    | .answered => (served.1, s.after o served.2)
    | .lost => (TransportOp.unanswered o served.1, s.after o served.2)
    | .refused => (TransportOp.unanswered o served.1, s.after o s.remote)

variable [Platform]

/-- What an attempt returns, unless it is stopped, and what it leaves. -/
def attempt (site : Site) (plan : PublicationPlan) (a : Attempt) (r : Remote) :
    Option (Except String ApplyReadback) × Session :=
  match a.stop with
  | none =>
    let result := (site.machine a).run (applyWithTransport plan a.root) ⟨r, [], 0⟩
    (some result.1, result.2)
  | some n => (none, (site.machine a).runFor n (applyWithTransport plan a.root) ⟨r, [], 0⟩)

end Site

/-! ### What every attempt keeps -/

section

variable {site : Site} {plan : PublicationPlan} {a : Attempt} {I : Remote → Prop} {s : Session}
  {root base : String}

theorem step_invariant {o : TransportOp} (hserve : ∀ time r, I r → I (site.serve r time o).2)
    (hs : I s.remote) : I ((site.machine a).step o s).2.remote := by
  unfold Site.machine
  dsimp only
  split
  · exact hserve _ _ hs
  · exact hserve _ _ hs
  · exact hs

theorem readRepository_answer {repository : String} {identity : RepositoryIdentity}
    (h : ((site.machine a).step (.readRepository repository) s).1 = .ok identity) :
    identity = site.upstream := by
  unfold Site.machine at h
  dsimp only at h
  split at h
  · change site.serveReadRepository repository = _ at h
    unfold Site.serveReadRepository at h
    split at h
    · exact (Except.ok.inj h).symm
    · cases h
  · cases h
  · cases h

/-- What the procedure takes for the default branch is the default branch. -/
theorem verifyUpstream_default {fork : String} :
    (site.machine a).wp (fun _ _ => True) (verifyUpstream plan root fork)
      (fun branch _ => branch = site.upstream.defaultBranch) (fun _ _ => True) s := by
  have hskip {α β : Type} {r : Except String α} {g : α → PublicationProg β} {Q : β → Session → Prop}
      {s : Session} (hr : ∀ x, r = .ok x →
        (site.machine a).wp (fun _ _ => True) (g x) Q (fun _ _ => True) s) :
      (site.machine a).wp (fun _ _ => True) ((Prog.ofExcept r).bind g) Q (fun _ _ => True) s :=
    Machine.wp_ofExcept_bind hr fun _ _ => trivial
  unfold verifyUpstream PublicationProg.verifyLocalRepository PublicationProg.authenticatedLogin
    PublicationProg.readRepository PublicationProg.readBranch
  simp only [Prog.bind_eq]
  refine ⟨trivial, hskip fun _ _ => ⟨trivial, hskip fun login _ => hskip fun owner _ => ?_⟩⟩
  refine hskip fun _ _ => ⟨trivial, hskip fun identity hidentity => hskip fun _ _ => ?_⟩
  refine hskip fun _ _ => ⟨trivial, hskip fun head _ => hskip fun _ _ => ?_⟩
  exact congrArg _ (readRepository_answer hidentity)

variable [Platform]

/-- **What every attempt keeps.** What holds of a remote state and is kept by every operation of a
plan holds at every point of a run. -/
theorem applyWithTransport_invariant
    (hserve : ∀ o, OfPlan plan site.upstream.defaultBranch o →
      ∀ time r, I r → I (site.serve r time o).2) (hs : I s.remote) :
    (site.machine a).wp (fun _ s' => I s'.remote) (applyWithTransport plan root)
      (fun _ s' => I s'.remote) (fun _ s' => I s'.remote) s := by
  have honly {α : Type} {p : PublicationProg α} {s : Session} (hs : I s.remote)
      (hp : p.Only (OfPlan plan site.upstream.defaultBranch)) :
      (site.machine a).wp (fun _ s' => I s'.remote) p (fun _ s' => I s'.remote)
        (fun _ s' => I s'.remote) s := by
    have htrans : ∀ {t t' t'' : Session}, (I t.remote → I t'.remote) →
        (I t'.remote → I t''.remote) → I t.remote → I t''.remote :=
      fun h h' ht => h' (h ht)
    have hspec := Machine.wp_of_only (M := site.machine a) (R := fun t t' => I t.remote → I t'.remote)
      (fun _ => id) htrans (fun o _ ho => step_invariant (hserve o ho)) hp s
    exact Machine.wp_mono hspec (fun _ _ h => h.2 hs) (fun _ _ h => h hs) fun _ _ h => h hs
  unfold applyWithTransport
  simp only [Prog.bind_eq]
  refine Machine.wp_ofExcept_bind ?_ fun _ _ => hs
  intro fork hfork
  rw [orContext_eq_ok] at hfork
  obtain rfl : plan.fork = fork := by rw [PublicationPlan.fork, hfork, Option.getD_some]
  have hverify : (verifyUpstream plan root plan.fork).Only
      (OfPlan plan site.upstream.defaultBranch) :=
    verifyUpstream_reads.mono fun o ho => ofPlan_of_not_write ho
  refine Machine.wp_bind.mpr (Machine.wp_mono ((honly hs hverify).and verifyUpstream_default)
    (fun _ _ h => h.1) ?_ fun _ _ h => h.1)
  rintro branch s' ⟨hs', rfl⟩
  exact honly hs' publish_ofPlan

theorem attempt_invariant
    (hserve : ∀ o, OfPlan plan site.upstream.defaultBranch o →
      ∀ time r, I r → I (site.serve r time o).2) {r : Remote} (hr : I r) :
    I (site.attempt plan a r).2.remote := by
  have hspec : (site.machine a).wp (fun _ s => I s.remote) (applyWithTransport plan a.root)
      (fun _ s => I s.remote) (fun _ s => I s.remote) ⟨r, [], 0⟩ :=
    applyWithTransport_invariant hserve hr
  unfold Site.attempt
  cases a.stop with
  | none =>
    rcases hspec.run_world with ⟨_, h⟩ | ⟨_, h⟩
    · exact h
    · exact h
  | some n => exact hspec.runFor_world n

end

/-! ### Histories -/

/-- What happens to a publication: an attempt, or other people leave a remote state. -/
inductive PublicationStep where
  | attempt (a : Attempt)
  | others (left : Remote) (numbered : left.Numbered)

namespace Site

variable [Platform] (site : Site) (plan : PublicationPlan)

/-- The remote state after a step. What was opened for the plan stays on record. -/
def stepRemote (r : Remote) : PublicationStep → Remote
  | .attempt a => (site.attempt plan a r).2.remote
  | .others left _ => { left with opened := r.opened }

/-- The remote state after a history. -/
def after (r : Remote) (history : List PublicationStep) : Remote :=
  history.foldl (site.stepRemote plan) r

@[simp] theorem after_nil (r : Remote) : site.after plan r [] = r := rfl

theorem after_cons (r : Remote) (step : PublicationStep) (history : List PublicationStep) :
    site.after plan r (step :: history) = site.after plan (site.stepRemote plan r step) history :=
  rfl

theorem after_append (r : Remote) (history history' : List PublicationStep) :
    site.after plan r (history ++ history') = site.after plan (site.after plan r history) history' :=
  List.foldl_append

end Site

end Ao2
