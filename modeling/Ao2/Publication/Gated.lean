import Ao2.Publication.Apply
import Ao2.Publication.Bound

/-!
# Publication writes are gated

Whatever the transport answers, a run of the publication procedure writes at most a fork, a branch
and a draft, in this order, and each of them only when every check before it has passed and the clock
was last read within the window of the action that authorises the write.

The proof follows the procedure. What is known of the history at a point of it is `Ready`, which says
that no check has failed, and what each stage adds to it.
-/

namespace Ao2

open Interaction

/-- The operations and answers of a run, in their order. -/
abbrev History := List (Event TransportSig)

/-- What a publication writes. -/
inductive PublicationWrite where
  | fork | push | draft
  deriving DecidableEq

/-- The place of a write among the others. -/
def PublicationWrite.rank : PublicationWrite → ℕ
  | fork => 0
  | push => 1
  | draft => 2

namespace TransportOp

def write? : TransportOp → Option PublicationWrite
  | createFork _ => some .fork
  | pushBranch _ _ _ _ => some .push
  | createDraft _ _ => some .draft
  | _ => none

def isReadFork : TransportOp → Bool
  | readFork _ => true
  | _ => false

def isCreateFork : TransportOp → Bool
  | createFork _ => true
  | _ => false

def isReadBranch : TransportOp → Bool
  | readBranch _ _ => true
  | _ => false

def isPushBranch : TransportOp → Bool
  | pushBranch _ _ _ _ => true
  | _ => false

def isFindDrafts : TransportOp → Bool
  | findDrafts _ _ => true
  | _ => false

def isCreateDraft : TransportOp → Bool
  | createDraft _ _ => true
  | _ => false

end TransportOp

namespace History

/-- The writes of a history. -/
def writes (h : History) : List PublicationWrite := h.filterMap fun e => e.op.write?

/-- An operation of a kind was performed. -/
def asked (h : History) (kind : TransportOp → Bool) : Bool := h.any fun e => kind e.op

/-- How often an operation of a kind was performed since one of another kind. -/
def countSince (h : History) (start kind : TransportOp → Bool) : ℕ :=
  (h.reverse.takeWhile fun e => !start e.op).countP fun e => kind e.op

def clockReading : Event TransportSig → Option DateTime
  | ⟨.now, time⟩ => some time
  | _ => none

def forkReading : Event TransportSig → Option (String × Except String (Option ForkIdentity))
  | ⟨.readFork fork, answer⟩ => some (fork, answer)
  | _ => none

def branchReading :
    Event TransportSig → Option (String × String × Except String (Option String))
  | ⟨.readBranch fork branch, answer⟩ => some (fork, branch, answer)
  | _ => none

def pullReading : Event TransportSig → Option (String × ℕ × Except String PullIdentity)
  | ⟨.readPull repository number, answer⟩ => some (repository, number, answer)
  | _ => none

def upstreamReading : Event TransportSig → Option String
  | ⟨.readRepository _, .ok identity⟩ => some identity.defaultBranch
  | _ => none

/-- The default branch of the repository, as the service last named it. -/
def upstreamBranch (h : History) : Option String := lastSome upstreamReading h

section

variable (h : History) (e : Event TransportSig)

@[simp] theorem writes_nil : writes [] = [] := rfl

@[simp] theorem writes_cons : writes (e :: h) = e.op.write?.toList ++ h.writes := by
  unfold writes
  cases hw : e.op.write? <;> simp [hw]

@[simp] theorem writes_append (h' : History) : (h ++ h').writes = h.writes ++ h'.writes :=
  List.filterMap_append

@[simp] theorem asked_nil (kind : TransportOp → Bool) : asked [] kind = false := rfl

@[simp] theorem asked_cons (kind : TransportOp → Bool) :
    asked (e :: h) kind = (kind e.op || asked h kind) := rfl

@[simp] theorem asked_append (h' : History) (kind : TransportOp → Bool) :
    asked (h ++ h') kind = (asked h kind || asked h' kind) :=
  List.any_append

theorem countSince_concat (start kind : TransportOp → Bool) :
    countSince (h ++ [e]) start kind =
      if start e.op then 0
      else countSince h start kind + if kind e.op then 1 else 0 := by
  unfold countSince
  rw [List.reverse_append, List.reverse_singleton, List.singleton_append, List.takeWhile_cons]
  by_cases hstart : start e.op
  · simp [hstart]
  · simp [hstart, List.countP_cons]

theorem countSince_eq_zero {h : History} {start kind : TransportOp → Bool}
    (hkind : asked h kind = false) : countSince h start kind = 0 := by
  rw [countSince, List.countP_eq_zero]
  intro e he
  have hmem : e ∈ h := List.mem_reverse.mp ((List.takeWhile_sublist _).mem he)
  rw [asked, List.any_eq_false] at hkind
  exact hkind e hmem

@[simp] theorem upstreamBranch_concat :
    upstreamBranch (h ++ [e]) = (upstreamReading e).or (upstreamBranch h) :=
  lastSome_concat _ h e

end

end History

open History

/-- The fork that a plan publishes from. -/
def PublicationPlan.fork (plan : PublicationPlan) : String := plan.pushAction.fork.getD ""

/-- The action that authorises a write. -/
def PublicationPlan.authorising (plan : PublicationPlan) : PublicationWrite → GitHubActionDigest
  | .fork => plan.pushAction
  | .push => plan.pushAction
  | .draft => plan.draftAction

/-- An operation was answered, and with a value that has a property. -/
def Yields {α : Type} (answer : Except String α) (P : α → Prop) : Prop :=
  ∃ a, answer = .ok a ∧ P a

section

variable [Platform]

/-- A time within the window of an action. -/
def Within (action : GitHubActionDigest) (time : DateTime) : Prop :=
  ∃ approved expires, parseRfc3339 action.approvedAt = some approved ∧
    parseRfc3339 action.expiresAt = some expires ∧ approved ≤ time ∧ time < expires

/-- The fork is the one of the plan, a fork of the repository with the same default branch. -/
def ForkMatches (plan : PublicationPlan) (h : History) (identity : ForkIdentity) : Prop :=
  ∃ branch, h.upstreamBranch = some branch ∧
    validateForkIdentity identity plan.fork plan.pushAction.repository branch = .ok ()

/-- The pull request is the draft of the plan. -/
def PullMatches (plan : PublicationPlan) (h : History) (pull : PullIdentity) : Prop :=
  ∃ branch, h.upstreamBranch = some branch ∧ exactPull pull plan branch = true

/-- What the head of a branch has to be: the base, for the first reading, and then the head of the
plan, unless the branch is not there yet. -/
def HeadExpected (plan : PublicationPlan) (h : History) (head : Option String) : Prop :=
  if h.asked TransportOp.isPushBranch then head = some plan.pushAction.headSha ∨
    h.countSince TransportOp.isPushBranch TransportOp.isReadBranch < 4
  else if h.asked TransportOp.isReadFork then head = none ∨ head = some plan.pushAction.headSha
  else head = some plan.pushAction.baseSha

/-- What the answer to an operation has to be after a history: a check of the procedure. A fork that
was created may be missing from nine readings, and a branch that was pushed from four. -/
def Passes (plan : PublicationPlan) (h : History) : Event TransportSig → Prop
  | ⟨.now, time⟩ =>
    Within (plan.authorising (if h.asked TransportOp.isFindDrafts then .draft else .push)) time
  | ⟨.verifyLocalRepository _ _, answer⟩ => Yields answer fun _ => True
  | ⟨.authenticatedLogin, answer⟩ => Yields answer fun login =>
    ∃ repo, splitRepository plan.fork = .ok (login, repo)
  | ⟨.readRepository _, answer⟩ => Yields answer fun identity =>
    identity.fullName = plan.pushAction.repository ∧ validateRef identity.defaultBranch = .ok ()
  | ⟨.readFork _, answer⟩ => Yields answer fun identity =>
    (∀ i, identity = some i → ForkMatches plan h i) ∧
      (identity = none → h.countSince TransportOp.isCreateFork TransportOp.isReadFork < 9)
  | ⟨.createFork _, answer⟩ => Yields answer fun _ => True
  | ⟨.readBranch _ _, answer⟩ => Yields answer (HeadExpected plan h)
  | ⟨.pushBranch _ _ _ _, answer⟩ => Yields answer fun _ => True
  | ⟨.findDrafts _ _, answer⟩ => Yields answer fun pulls =>
    (∃ pull, pulls = [pull] ∧ PullMatches plan h pull) ∨
      (pulls = [] ∧ h.asked TransportOp.isCreateDraft = false)
  | ⟨.createDraft _ _, answer⟩ => Yields answer fun _ => True
  | ⟨.readPull _ _, answer⟩ => Yields answer fun pull => PullMatches plan h pull
  | ⟨.retryDelay, _⟩ => True

/-- No check of a history failed. -/
def Passed (plan : PublicationPlan) (h : History) : Prop :=
  ∀ pre e post, h = pre ++ e :: post → Passes plan pre e

/-- The checks before the first write were made, and what they found. -/
structure Verified (plan : PublicationPlan) (h : History) : Prop where
  localRepository : ∃ root, ⟨.verifyLocalRepository root plan, .ok ()⟩ ∈ h
  login : ∃ login repo, ⟨.authenticatedLogin, .ok login⟩ ∈ h ∧
    splitRepository plan.fork = .ok (login, repo)
  upstream : ∃ identity, ⟨.readRepository plan.pushAction.repository, .ok identity⟩ ∈ h ∧
    identity.fullName = plan.pushAction.repository ∧
    ⟨.readBranch plan.pushAction.repository identity.defaultBranch,
      .ok (some plan.pushAction.baseSha)⟩ ∈ h

/-- The fork was last read as the one of the plan. -/
def ForkConfirmed (plan : PublicationPlan) (h : History) : Prop :=
  ∃ identity, lastSome forkReading h = some (plan.fork, .ok (some identity)) ∧
    ForkMatches plan h identity

/-- The branch of the fork was last read with the head of the plan. -/
def BranchConfirmed (plan : PublicationPlan) (h : History) : Prop :=
  lastSome branchReading h =
    some (plan.fork, plan.pushAction.branch, .ok (some plan.pushAction.headSha))

/-- What has happened before a write. -/
structure Authorised (plan : PublicationPlan) (w : PublicationWrite) (h : History) : Prop where
  first : ∀ w' ∈ h.writes, w'.rank < w.rank
  window : ∃ time, lastSome clockReading h = some time ∧ Within (plan.authorising w) time
  passed : Passed plan h
  verified : Verified plan h
  fork : w ≠ .fork → ForkConfirmed plan h
  branch : w = .draft → BranchConfirmed plan h

/-- What is asked before every operation. -/
def Gate (plan : PublicationPlan) (o : TransportOp) (h : History) : Prop :=
  ∀ w, o.write? = some w → Authorised plan w h

/-! ### What is known at a point of the procedure -/

/-- All checks passed so far, those before the first write among them. -/
structure Checked (plan : PublicationPlan) (branch : String) (h : History) : Prop where
  passed : Passed plan h
  verified : Verified plan h
  upstream : h.upstreamBranch = some branch

/-- The procedure is in front of its fork. -/
structure AtFork (plan : PublicationPlan) (branch : String) (h : History) : Prop
    extends Checked plan branch h where
  writes : h.writes = []
  readFork : h.asked TransportOp.isReadFork = false
  pushBranch : h.asked TransportOp.isPushBranch = false
  findDrafts : h.asked TransportOp.isFindDrafts = false
  createDraft : h.asked TransportOp.isCreateDraft = false

/-- The fork is there. -/
structure AtBranch (plan : PublicationPlan) (branch : String) (h : History) : Prop
    extends Checked plan branch h where
  fork : ForkConfirmed plan h
  writes : ∀ w ∈ h.writes, w = .fork
  readFork : h.asked TransportOp.isReadFork = true
  pushBranch : h.asked TransportOp.isPushBranch = false
  findDrafts : h.asked TransportOp.isFindDrafts = false
  createDraft : h.asked TransportOp.isCreateDraft = false

/-- The fork has the branch. -/
structure AtDraft (plan : PublicationPlan) (branch : String) (h : History) : Prop
    extends Checked plan branch h where
  fork : ForkConfirmed plan h
  head : BranchConfirmed plan h
  writes : ∀ w ∈ h.writes, w.rank < 2
  findDrafts : h.asked TransportOp.isFindDrafts = false
  createDraft : h.asked TransportOp.isCreateDraft = false

section

variable {plan : PublicationPlan} {branch root : String} {h : History} {e : Event TransportSig}

theorem Passed.nil : Passed plan [] := by
  intro pre e post heq
  exact absurd heq.symm (by simp)

/-- One more check passed. -/
theorem Passed.concat (hpassed : Passed plan h) (he : Passes plan h e) : Passed plan (h ++ [e]) := by
  intro pre e' post heq
  rcases List.eq_nil_or_concat post with rfl | ⟨post', last, rfl⟩
  · obtain ⟨rfl, hevent⟩ := List.append_inj' heq rfl
    cases hevent
    exact he
  · rw [List.concat_eq_append, ← List.cons_append, ← List.append_assoc] at heq
    obtain ⟨rfl, -⟩ := List.append_inj' heq rfl
    exact hpassed pre e' post' rfl

omit [Platform] in
theorem Verified.concat (hverified : Verified plan h) : Verified plan (h ++ [e]) := by
  obtain ⟨⟨root, hroot⟩, ⟨login, repo, hlogin, hsplit⟩, identity, hread, hname, hbase⟩ := hverified
  have hmem {e' : Event TransportSig} (he' : e' ∈ h) : e' ∈ h ++ [e] :=
    List.mem_append_left _ he'
  exact ⟨⟨root, hmem hroot⟩, ⟨login, repo, hmem hlogin, hsplit⟩, identity, hmem hread, hname,
    hmem hbase⟩

theorem Checked.concat (hchecked : Checked plan branch h) (he : Passes plan h e)
    (hread : upstreamReading e = none) : Checked plan branch (h ++ [e]) := by
  refine ⟨hchecked.passed.concat he, hchecked.verified.concat, ?_⟩
  rw [upstreamBranch_concat, hread, Option.none_or]
  exact hchecked.upstream

/-- An operation that is not a write may be performed at any point. -/
theorem gate_of_not_write {o : TransportOp} (ho : o.write? = none) : Gate plan o h := by
  intro w hw
  rw [ho] at hw
  cases hw

end

section

variable {plan : PublicationPlan} {branch root : String} {h : History} {f : Oracle TransportSig}
  {α β : Type}

/-- Failing is allowed at any point. -/
abbrev anyFailure : String → History → Prop := fun _ _ => True

/-- An operation, whatever it is answered. -/
theorem gated_op {o : TransportOp} {k : TransportSig.Ans o → PublicationProg α}
    {Q : α → History → Prop} (ho : Gate plan o h)
    (hk : ∀ answer, f.machine.wp (Gate plan) (k answer) Q anyFailure (h ++ [⟨o, answer⟩])) :
    f.machine.wp (Gate plan) (.ask (S := TransportSig) o k) Q anyFailure h :=
  ⟨ho, hk _⟩

/-- A check that the procedure makes on its own. -/
theorem gated_check {r : Except String α} {Q : α → History → Prop} (hr : ∀ a, r = .ok a → Q a h) :
    f.machine.wp (Gate plan) (.ofExcept r) Q anyFailure h :=
  Machine.wp_ofExcept hr fun _ _ => trivial

/-- What is done after a check. -/
theorem gated_check_bind {r : Except String α} {g : α → PublicationProg β} {Q : β → History → Prop}
    (hr : ∀ a, r = .ok a → f.machine.wp (Gate plan) (g a) Q anyFailure h) :
    f.machine.wp (Gate plan) ((Prog.ofExcept r).bind g) Q anyFailure h :=
  Machine.wp_ofExcept_bind hr fun _ _ => trivial

theorem verifyUpstream_spec :
    f.machine.wp (Gate plan) (verifyUpstream plan root plan.fork) (AtFork plan) anyFailure [] := by
  unfold verifyUpstream PublicationProg.verifyLocalRepository PublicationProg.authenticatedLogin
    PublicationProg.readRepository PublicationProg.readBranch
  simp only [Prog.bind_eq]
  refine gated_op (gate_of_not_write rfl) fun _ => gated_check_bind ?_
  rintro ⟨⟩ rfl
  have hlocal := (Passed.nil : Passed plan []).concat
    (show Passes plan [] ⟨.verifyLocalRepository root plan, .ok ()⟩ from ⟨_, rfl, trivial⟩)
  refine gated_op (gate_of_not_write rfl) fun _ => gated_check_bind ?_
  rintro login rfl
  refine gated_check_bind ?_
  rintro ⟨owner, repo⟩ hsplit
  refine gated_check_bind ?_
  intro _ howner
  rw [bailIf_eq_ok, not_not] at howner
  have howner : login = owner := howner
  subst howner
  have hlogin := hlocal.concat
    (show Passes plan _ ⟨.authenticatedLogin, .ok login⟩ from ⟨_, rfl, repo, hsplit⟩)
  refine gated_op (gate_of_not_write rfl) fun _ => gated_check_bind ?_
  rintro upstream rfl
  refine gated_check_bind ?_
  intro _ hname
  rw [bailIf_eq_ok, not_not] at hname
  refine gated_check_bind ?_
  intro _ href
  have hread := hlogin.concat
    (show Passes plan _ ⟨.readRepository plan.pushAction.repository, .ok upstream⟩ from
      ⟨_, rfl, hname, href⟩)
  refine gated_op (gate_of_not_write rfl) fun _ => gated_check_bind ?_
  rintro base rfl
  refine gated_check_bind ?_
  intro _ hbase
  rw [bailIf_eq_ok, not_not] at hbase
  subst hbase
  have hpassed := hread.concat
    (show Passes plan _ ⟨.readBranch plan.pushAction.repository upstream.defaultBranch,
      .ok (some plan.pushAction.baseSha)⟩ by
        refine ⟨_, rfl, ?_⟩
        change if false = true then _ else if false = true then _ else _ = _
        simp)
  exact ⟨⟨hpassed, ⟨⟨root, by simp⟩, ⟨login, repo, by simp, hsplit⟩, upstream, by simp, hname,
    by simp⟩, rfl⟩, rfl, rfl, rfl, rfl, rfl⟩

/-- The window of an action is checked again in front of a write. -/
theorem recheck_spec {w : PublicationWrite} {operation : String} {Q : Unit → History → Prop}
    (hQ : ∀ time, Within (plan.authorising w) time → Q () (h ++ [⟨.now, time⟩])) :
    f.machine.wp (Gate plan) (recheck (plan.authorising w) operation) Q anyFailure h := by
  refine gated_op (gate_of_not_write rfl) ?_
  intro time
  refine gated_check ?_
  intro _ haction
  obtain ⟨approved, expires, happroved, hexpires, hle, hlt, -⟩ :=
    validateWindow_eq_ok.mp (validateAction_eq_ok haction).window
  exact hQ time ⟨approved, expires, happroved, hexpires, hle, hlt⟩

/-! ### The fork -/

/-- Nothing that a later stage asks about has changed between two histories. -/
structure Continues (h h' : History) : Prop where
  writes : h'.writes = h.writes
  pushBranch : h'.asked TransportOp.isPushBranch = h.asked TransportOp.isPushBranch
  findDrafts : h'.asked TransportOp.isFindDrafts = h.asked TransportOp.isFindDrafts
  createDraft : h'.asked TransportOp.isCreateDraft = h.asked TransportOp.isCreateDraft

omit [Platform] in
theorem Continues.refl (h : History) : Continues h h := ⟨rfl, rfl, rfl, rfl⟩

omit [Platform] in
theorem Continues.trans {h h' h'' : History} (hk : Continues h h') (hk' : Continues h' h'') : Continues h h'' :=
  ⟨hk'.writes.trans hk.writes, hk'.pushBranch.trans hk.pushBranch,
    hk'.findDrafts.trans hk.findDrafts, hk'.createDraft.trans hk.createDraft⟩

omit [Platform] in
/-- An operation that neither writes nor looks for drafts. -/
theorem Continues.concat {e : Event TransportSig} (hwrite : e.op.write? = none)
    (hfind : e.op.isFindDrafts = false) : Continues h (h ++ [e]) := by
  have hpush : e.op.isPushBranch = false := by
    obtain ⟨o, _⟩ := e
    cases o <;> simp_all [TransportOp.write?, TransportOp.isPushBranch]
  have hdraft : e.op.isCreateDraft = false := by
    obtain ⟨o, _⟩ := e
    cases o <;> simp_all [TransportOp.write?, TransportOp.isCreateDraft]
  constructor
  · simp [hwrite]
  · simp [hpush]
  · simp [hfind]
  · simp [hdraft]

/-- A created fork is looked for until it is there. The reading with which it is there is the last
one, and the fork that was read is still to be checked. -/
theorem pollFork_spec {n : ℕ} (hchecked : Checked plan branch h)
    (hcount : h.countSince TransportOp.isCreateFork TransportOp.isReadFork + n = 10) :
    f.machine.wp (Gate plan) (pollFork plan.fork n)
      (fun identity h' => ∀ i, identity = some i → ∃ before : History,
        h' = before ++ [⟨.readFork plan.fork, .ok (some i)⟩] ∧ Checked plan branch before ∧
          Continues h before)
      anyFailure h := by
  induction n generalizing h with
  | zero => nofun
  | succ n ih =>
    unfold pollFork PublicationProg.readFork PublicationProg.retryDelay
    simp only [Prog.bind_eq]
    refine gated_op (gate_of_not_write rfl) fun _ => gated_check_bind ?_
    rintro (_ | identity) rfl
    · refine gated_op (gate_of_not_write rfl) fun _ => ?_
      cases n with
      | zero => nofun
      | succ n =>
        have hnone : Passes plan h ⟨.readFork plan.fork, .ok none⟩ := by
          refine ⟨none, rfl, nofun, fun _ => ?_⟩
          omega
        have hread := hchecked.concat hnone rfl
        have hdelay := hread.concat (show Passes plan _ ⟨.retryDelay, ⟨⟩⟩ from trivial) rfl
        refine (ih hdelay ?_).post ?_
        · rw [countSince_concat, countSince_concat]
          simp only [TransportOp.isCreateFork, TransportOp.isReadFork]
          simp
          omega
        · intro identity h' hpost i hi
          obtain ⟨before, heq, hbefore, hkept⟩ := hpost i hi
          exact ⟨before, heq, hbefore, ((Continues.concat rfl rfl).trans (Continues.concat rfl rfl)).trans hkept⟩
    · rintro i ⟨⟩
      exact ⟨h, rfl, hchecked, .refl h⟩

/-- A reading of the fork that passed its check. -/
theorem forkConfirmed_of_read {identity : ForkIdentity} (hchecked : Checked plan branch h)
    (hvalid : validateForkIdentity identity plan.fork plan.pushAction.repository branch = .ok ()) :
    Checked plan branch (h ++ [⟨.readFork plan.fork, .ok (some identity)⟩]) ∧
      ForkConfirmed plan (h ++ [⟨.readFork plan.fork, .ok (some identity)⟩]) := by
  have hmatches : ForkMatches plan h identity := ⟨branch, hchecked.upstream, hvalid⟩
  refine ⟨hchecked.concat ⟨_, rfl, ?_, nofun⟩ rfl, identity, ?_, ?_⟩
  · rintro i ⟨⟩
    exact hmatches
  · rw [lastSome_concat]
    rfl
  · obtain ⟨b, hb, hvalid⟩ := hmatches
    refine ⟨b, ?_, hvalid⟩
    rw [upstreamBranch_concat]
    exact hb

/-- What is known in front of a write, once the window was checked. -/
theorem Checked.authorised {w : PublicationWrite} {time : DateTime} (hchecked : Checked plan branch h)
    (hfirst : ∀ w' ∈ h.writes, w'.rank < w.rank)
    (hasked : h.asked TransportOp.isFindDrafts = decide (w = .draft))
    (hwithin : Within (plan.authorising w) time) (hfork : w ≠ .fork → ForkConfirmed plan h)
    (hbranch : w = .draft → BranchConfirmed plan h) :
    Checked plan branch (h ++ [⟨.now, time⟩]) ∧ Authorised plan w (h ++ [⟨.now, time⟩]) := by
  have hpasses : Passes plan h ⟨.now, time⟩ := by
    change Within (plan.authorising (if h.asked TransportOp.isFindDrafts then .draft else .push)) time
    rw [hasked]
    cases w <;> exact hwithin
  have hnow := hchecked.concat hpasses rfl
  refine ⟨hnow, ?_, ⟨time, ?_, hwithin⟩, hnow.passed, hnow.verified, ?_, ?_⟩
  · simpa [TransportOp.write?] using hfirst
  · rw [lastSome_concat]
    rfl
  · intro hne
    obtain ⟨identity, hread, b, hb, hvalid⟩ := hfork hne
    refine ⟨identity, ?_, b, ?_, hvalid⟩
    · rw [lastSome_concat]
      exact hread
    · rw [upstreamBranch_concat]
      exact hb
  · intro heq
    rw [BranchConfirmed, lastSome_concat]
    exact hbranch heq

theorem ensureFork_spec (hat : AtFork plan branch h) :
    f.machine.wp (Gate plan) (ensureFork plan plan.fork branch)
      (fun _ h' => AtBranch plan branch h') anyFailure h := by
  unfold ensureFork PublicationProg.readFork PublicationProg.createFork
  simp only [Prog.bind_eq]
  refine gated_op (gate_of_not_write rfl) fun _ => gated_check_bind ?_
  rintro (_ | identity) rfl
  · have hread : Checked plan branch (h ++ [⟨.readFork plan.fork, .ok none⟩]) := by
      refine hat.toChecked.concat ⟨none, rfl, nofun, fun _ => ?_⟩ rfl
      rw [countSince_eq_zero hat.readFork]
      decide
    refine Machine.wp_bind.mpr (recheck_spec (w := .fork) ?_)
    intro time hwithin
    obtain ⟨hnow, hauthorised⟩ := hread.authorised (w := .fork) (by simp [hat.writes, TransportOp.write?])
      (by simp [hat.findDrafts, TransportOp.isFindDrafts]) hwithin (absurd rfl) nofun
    refine gated_op ?_ fun _ => gated_check_bind ?_
    · rintro w ⟨⟩
      exact hauthorised
    rintro ⟨⟩ rfl
    have hcreated := hnow.concat
      (show Passes plan _ ⟨.createFork plan.pushAction.repository, .ok ()⟩ from ⟨_, rfl, trivial⟩) rfl
    refine Machine.wp_bind.mpr ((pollFork_spec hcreated ?_).post ?_)
    · rw [countSince_concat]
      simp [TransportOp.isCreateFork]
    intro identity h' hpoll
    refine gated_check_bind ?_
    intro i hi
    rw [orContext_eq_ok] at hi
    obtain ⟨before, rfl, hbefore, hkept⟩ := hpoll i hi
    refine gated_check_bind ?_
    intro _ hvalid
    obtain ⟨hchecked, hfork⟩ := forkConfirmed_of_read hbefore hvalid
    exact ⟨hchecked, hfork, by simp [hkept.writes, hat.writes, TransportOp.write?],
      by simp [TransportOp.isReadFork], by simp [hkept.pushBranch, hat.pushBranch, TransportOp.isPushBranch],
      by simp [hkept.findDrafts, hat.findDrafts, TransportOp.isFindDrafts],
      by simp [hkept.createDraft, hat.createDraft, TransportOp.isCreateDraft]⟩
  · refine gated_check_bind ?_
    intro _ hvalid
    obtain ⟨hchecked, hfork⟩ := forkConfirmed_of_read hat.toChecked hvalid
    exact ⟨hchecked, hfork, by simp [hat.writes, TransportOp.write?], by simp [TransportOp.isReadFork],
      by simp [hat.pushBranch, TransportOp.isPushBranch],
      by simp [hat.findDrafts, TransportOp.isFindDrafts],
      by simp [hat.createDraft, TransportOp.isCreateDraft]⟩

/-! ### The branch -/

omit [Platform] in
/-- What was last read of the fork does not change with other operations. -/
theorem ForkConfirmed.concat {e : Event TransportSig} (hfork : ForkConfirmed plan h)
    (hread : forkReading e = none) (hupstream : upstreamReading e = none) :
    ForkConfirmed plan (h ++ [e]) := by
  obtain ⟨identity, hlast, b, hb, hvalid⟩ := hfork
  refine ⟨identity, ?_, b, ?_, hvalid⟩
  · rw [lastSome_concat, hread, Option.none_or]
    exact hlast
  · rw [upstreamBranch_concat, hupstream, Option.none_or]
    exact hb

omit [Platform] in
/-- A reading of the branch that found the head of the plan. -/
theorem branchConfirmed_of_read :
    BranchConfirmed plan (h ++ [⟨.readBranch plan.fork plan.pushAction.branch,
      .ok (some plan.pushAction.headSha)⟩]) := by
  rw [BranchConfirmed, lastSome_concat]
  rfl

/-- A pushed branch is read until it has its head. The reading with which it has is the last one. -/
theorem pollBranch_spec {n : ℕ} {last : Option String} (hchecked : Checked plan branch h)
    (hfork : ForkConfirmed plan h) (hpushed : h.asked TransportOp.isPushBranch = true)
    (hcount : h.countSince TransportOp.isPushBranch TransportOp.isReadBranch + n = 5)
    (hlast : last ≠ some plan.pushAction.headSha) :
    f.machine.wp (Gate plan)
      (pollBranch plan.fork plan.pushAction.branch plan.pushAction.headSha n last)
      (fun readback h' => readback = some plan.pushAction.headSha →
        Checked plan branch h' ∧ ForkConfirmed plan h' ∧ BranchConfirmed plan h' ∧ Continues h h')
      anyFailure h := by
  induction n generalizing h last with
  | zero => exact fun heq => absurd heq hlast
  | succ n ih =>
    unfold pollBranch PublicationProg.readBranch PublicationProg.retryDelay
    simp only [Prog.bind_eq]
    refine gated_op (gate_of_not_write rfl) fun _ => gated_check_bind ?_
    rintro readback rfl
    have hread (hpass : readback = some plan.pushAction.headSha ∨ n ≠ 0) :
        Checked plan branch
          (h ++ [⟨.readBranch plan.fork plan.pushAction.branch, .ok readback⟩]) := by
      refine hchecked.concat ⟨readback, rfl, ?_⟩ rfl
      rw [HeadExpected, if_pos hpushed]
      refine hpass.imp_right fun hn => ?_
      omega
    by_cases hhead : readback = some plan.pushAction.headSha
    · rw [if_pos hhead]
      rintro -
      subst hhead
      exact ⟨hread (.inl rfl), hfork.concat rfl rfl, branchConfirmed_of_read, .concat rfl rfl⟩
    · rw [if_neg hhead]
      refine gated_op (gate_of_not_write rfl) fun _ => ?_
      cases n with
      | zero => exact fun heq => absurd heq hhead
      | succ n =>
        have hdelay := (hread (.inr (by omega))).concat
          (show Passes plan _ ⟨.retryDelay, ⟨⟩⟩ from trivial) rfl
        refine (ih hdelay ((hfork.concat rfl rfl).concat rfl rfl) ?_ ?_ hhead).post ?_
        · simp [hpushed]
        · rw [countSince_concat, countSince_concat]
          simp [TransportOp.isPushBranch, TransportOp.isReadBranch]
          omega
        · intro readback' h' hpost heq
          obtain ⟨hc, hf, hb, hkept⟩ := hpost heq
          exact ⟨hc, hf, hb, ((Continues.concat rfl rfl).trans (Continues.concat rfl rfl)).trans hkept⟩

theorem ensureBranch_spec (hat : AtBranch plan branch h) :
    f.machine.wp (Gate plan) (ensureBranch plan root plan.fork)
      (fun _ h' => AtDraft plan branch h') anyFailure h := by
  unfold ensureBranch PublicationProg.readBranch PublicationProg.pushBranch
  simp only [Prog.bind_eq]
  refine gated_op (gate_of_not_write rfl) fun _ => gated_check_bind ?_
  have hread {head : Option String} (hhead : head = none ∨ head = some plan.pushAction.headSha) :
      Passes plan h ⟨.readBranch plan.fork plan.pushAction.branch, .ok head⟩ := by
    refine ⟨head, rfl, ?_⟩
    rw [HeadExpected, hat.pushBranch, hat.readFork]
    exact hhead
  rintro (_ | head) rfl
  · have hmissing := hat.toChecked.concat (hread (.inl rfl)) rfl
    have hfork := hat.fork.concat (e := ⟨.readBranch plan.fork plan.pushAction.branch, .ok none⟩)
      rfl rfl
    refine Machine.wp_bind.mpr (recheck_spec (w := .push) ?_)
    intro time hwithin
    have hfirst : ∀ w ∈ h.writes, w.rank < PublicationWrite.push.rank := by
      intro w hw
      rw [hat.writes w hw]
      decide
    obtain ⟨hnow, hauthorised⟩ := hmissing.authorised (w := .push)
      (by simpa [TransportOp.write?] using hfirst)
      (by simp [hat.findDrafts, TransportOp.isFindDrafts]) hwithin (fun _ => hfork) (by simp)
    refine gated_op ?_ fun _ => gated_check_bind ?_
    · rintro w ⟨⟩
      exact hauthorised
    rintro ⟨⟩ rfl
    have hpushed := hnow.concat (show Passes plan _ ⟨.pushBranch root plan.fork
      plan.pushAction.branch plan.pushAction.headSha, .ok ()⟩ from ⟨_, rfl, trivial⟩) rfl
    refine Machine.wp_bind.mpr ((pollBranch_spec (n := 5) hpushed
      ((hfork.concat rfl rfl).concat rfl rfl) ?_ ?_ (Option.some_ne_none _).symm).post
        ?_)
    · simp [TransportOp.isPushBranch]
    · rw [countSince_concat]
      simp [TransportOp.isPushBranch]
    intro readback h' hpoll
    refine gated_check_bind ?_
    intro _ hreadback
    rw [bailIf_eq_ok, not_not] at hreadback
    obtain ⟨hchecked, hfork, hhead, hkept⟩ := hpoll hreadback
    refine ⟨hchecked, hfork, hhead, ?_, ?_, ?_⟩
    · intro w hw
      simp only [hkept.writes, writes_append, writes_cons, writes_nil, TransportOp.write?,
        Option.toList_none, Option.toList_some, List.append_nil, List.mem_append,
        List.mem_singleton] at hw
      rcases hw with hw | rfl
      · exact (hfirst w hw).trans (by decide)
      · decide
    · simp [hkept.findDrafts, hat.findDrafts, TransportOp.isFindDrafts]
    · simp [hkept.createDraft, hat.createDraft, TransportOp.isCreateDraft]
  · dsimp only
    split
    case isTrue heq =>
      subst heq
      have hchecked := hat.toChecked.concat (hread (.inr rfl)) rfl
      refine ⟨hchecked, hat.fork.concat rfl rfl, branchConfirmed_of_read, ?_, ?_, ?_⟩
      · intro w hw
        simp only [writes_append, writes_cons, writes_nil, TransportOp.write?, Option.toList_none,
          List.append_nil] at hw
        rw [hat.writes w hw]
        decide
      · simp [hat.findDrafts, TransportOp.isFindDrafts]
      · simp [hat.createDraft, TransportOp.isCreateDraft]
    case isFalse => exact trivial

/-! ### The draft -/

/-- The draft is there, under a number. -/
structure AtReadback (plan : PublicationPlan) (branch : String) (h : History) : Prop
    extends Checked plan branch h where
  fork : ForkConfirmed plan h
  head : BranchConfirmed plan h

omit [Platform] in
theorem BranchConfirmed.concat {e : Event TransportSig} (hhead : BranchConfirmed plan h)
    (hread : branchReading e = none) : BranchConfirmed plan (h ++ [e]) := by
  rw [BranchConfirmed, lastSome_concat, hread, Option.none_or]
  exact hhead

theorem rereadDraft_spec (hat : AtReadback plan branch h) :
    f.machine.wp (Gate plan) (rereadDraft plan branch) (fun _ h' => AtReadback plan branch h')
      anyFailure h := by
  unfold rereadDraft PublicationProg.findDrafts
  simp only [Prog.bind_eq]
  refine gated_op (gate_of_not_write rfl) fun _ => gated_check_bind ?_
  rintro pulls rfl
  split
  case h_1 pull =>
    split
    case isTrue hexact =>
      have hfound : Passes plan h ⟨.findDrafts plan.draftAction branch, .ok [pull]⟩ :=
        ⟨[pull], rfl, .inl ⟨pull, rfl, branch, hat.upstream, hexact⟩⟩
      exact ⟨hat.toChecked.concat hfound rfl, hat.fork.concat rfl rfl, hat.head.concat rfl⟩
    case isFalse => exact trivial
  case h_2 => exact trivial
  case h_3 => exact trivial

theorem ensureDraft_spec (hat : AtDraft plan branch h) :
    f.machine.wp (Gate plan) (ensureDraft plan branch) (fun _ h' => AtReadback plan branch h')
      anyFailure h := by
  unfold ensureDraft PublicationProg.findDrafts PublicationProg.createDraft
  simp only [Prog.bind_eq]
  refine gated_op (gate_of_not_write rfl) fun _ => gated_check_bind ?_
  rintro pulls rfl
  split
  case h_1 =>
    have hnone : Passes plan h ⟨.findDrafts plan.draftAction branch, .ok []⟩ :=
      ⟨[], rfl, .inr ⟨rfl, hat.createDraft⟩⟩
    have hsearched := hat.toChecked.concat hnone rfl
    have hfork := hat.fork.concat (e := ⟨.findDrafts plan.draftAction branch, .ok []⟩) rfl rfl
    have hhead := hat.head.concat (e := ⟨.findDrafts plan.draftAction branch, .ok []⟩) rfl
    refine Machine.wp_bind.mpr (recheck_spec (w := .draft) ?_)
    intro time hwithin
    obtain ⟨hnow, hauthorised⟩ := hsearched.authorised (w := .draft)
      (show ∀ w : PublicationWrite, w ∈ _ → w.rank < 2 by simpa [TransportOp.write?] using hat.writes)
      (by simp [TransportOp.isFindDrafts]) hwithin (fun _ => hfork) (fun _ => hhead)
    refine gated_op ?_ fun _ => gated_check_bind ?_
    · rintro w ⟨⟩
      exact hauthorised
    rintro outcome rfl
    have hcreated : AtReadback plan branch
        (h ++ [⟨.findDrafts plan.draftAction branch, .ok []⟩] ++ [⟨.now, time⟩] ++
          [⟨.createDraft plan branch, .ok outcome⟩]) :=
      ⟨hnow.concat ⟨outcome, rfl, trivial⟩ rfl, (hfork.concat rfl rfl).concat rfl rfl,
        (hhead.concat rfl).concat rfl⟩
    cases outcome with
    | created number => exact hcreated
    | conflict => exact Machine.wp_bind.mpr ((rereadDraft_spec hcreated).post fun _ _ hat' => hat')
  case h_2 pull =>
    split
    case isTrue hexact =>
      have hfound : Passes plan h ⟨.findDrafts plan.draftAction branch, .ok [pull]⟩ :=
        ⟨[pull], rfl, .inl ⟨pull, rfl, branch, hat.upstream, hexact⟩⟩
      exact ⟨hat.toChecked.concat hfound rfl, hat.fork.concat rfl rfl, hat.head.concat rfl⟩
    case isFalse => exact trivial
  case h_3 => exact trivial

/-! ### The whole procedure -/

/-- What is known when the procedure has returned: no check failed, and the pull request that was
read last is the draft of the plan. -/
structure Published (plan : PublicationPlan) (h : History) : Prop where
  passed : Passed plan h
  verified : Verified plan h
  fork : ForkConfirmed plan h
  head : BranchConfirmed plan h
  readback : ∃ number pull, lastSome pullReading h =
    some (plan.pushAction.repository, number, .ok pull) ∧ PullMatches plan h pull

theorem applyWithTransport_spec :
    f.machine.wp (Gate plan) (applyWithTransport plan root) (fun _ h' => Published plan h')
      anyFailure [] := by
  unfold applyWithTransport publish
  simp only [Prog.bind_eq]
  refine gated_check_bind ?_
  intro fork hfork
  rw [orContext_eq_ok] at hfork
  obtain rfl : plan.fork = fork := by rw [PublicationPlan.fork, hfork, Option.getD_some]
  refine Machine.wp_bind.mpr (verifyUpstream_spec.post ?_)
  intro branch h hfork
  refine Machine.wp_bind.mpr ((ensureFork_spec hfork).post ?_)
  intro forkCreated h hbranch
  refine Machine.wp_bind.mpr ((ensureBranch_spec hbranch).post ?_)
  intro branchPushed h hdraft
  refine Machine.wp_bind.mpr ((ensureDraft_spec hdraft).post ?_)
  rintro ⟨number, draftCreated⟩ h hreadback
  unfold readbackDraft PublicationProg.readPull
  simp only [Prog.bind_eq]
  refine Machine.wp_bind.mpr (gated_op (gate_of_not_write rfl) fun _ => gated_check_bind ?_)
  rintro pull rfl
  refine gated_check ?_
  intro _ hexact
  rw [bailIf_eq_ok, Bool.not_eq_true', Bool.not_eq_false] at hexact
  have hmatches : PullMatches plan h pull := ⟨branch, hreadback.upstream, hexact⟩
  have hchecked := hreadback.toChecked.concat
    (show Passes plan h ⟨.readPull plan.pushAction.repository number, .ok pull⟩ from
      ⟨pull, rfl, hmatches⟩) rfl
  refine ⟨hchecked.passed, hchecked.verified, hreadback.fork.concat rfl rfl,
    hreadback.head.concat rfl, number, pull, ?_, branch, hchecked.upstream, hexact⟩
  rw [lastSome_concat]
  rfl

/-! ### The law -/

/-- The history of a run of the procedure. -/
def publicationTrace (f : Oracle TransportSig) (plan : PublicationPlan) (root : String) : History :=
  (f.machine.run (applyWithTransport plan root) []).2

/-- What the run returned. -/
def publicationOutcome (f : Oracle TransportSig) (plan : PublicationPlan) (root : String) :
    Except String ApplyReadback :=
  (f.machine.run (applyWithTransport plan root) []).1

theorem authorised_of_write {pre post : History} {e : Event TransportSig}
    (htrace : publicationTrace f plan root = pre ++ e :: post) {w : PublicationWrite}
    (hw : e.op.write? = some w) : Authorised plan w pre :=
  Oracle.wp.event applyWithTransport_spec htrace (Nat.zero_le _) w hw

theorem published_of_ok {readback : ApplyReadback}
    (hok : publicationOutcome f plan root = .ok readback) :
    Published plan (publicationTrace f plan root) := by
  have hspec : f.machine.wp (Gate plan) (applyWithTransport plan root)
      (fun _ h' => Published plan h') anyFailure [] := applyWithTransport_spec
  have h := hspec.run
  unfold publicationOutcome at hok
  unfold publicationTrace
  generalize f.machine.run (applyWithTransport plan root) [] = result at h hok ⊢
  obtain ⟨_ | a, h'⟩ := result
  · cases hok
  · exact h

omit [Platform] in
/-- If every write of a history has only writes of lower rank before it, the ranks increase. -/
theorem writes_pairwise {t : History} (ht : ∀ pre e post w, t = pre ++ e :: post →
    e.op.write? = some w → ∀ w' ∈ writes pre, w'.rank < w.rank) :
    (writes t).Pairwise fun w w' => w.rank < w'.rank := by
  induction t using List.reverseRecOn with
  | nil => exact .nil
  | append_singleton t e ih =>
    rw [writes_append, List.pairwise_append]
    refine ⟨ih fun pre e' post w heq => ?_, ?_, ?_⟩
    · refine ht pre e' (post ++ [e]) w ?_
      rw [heq, List.append_assoc, List.cons_append]
    · rw [writes_cons, writes_nil, List.append_nil]
      cases e.op.write? <;> simp
    · intro w' hw' w hw
      rw [writes_cons, writes_nil, List.append_nil, Option.mem_toList] at hw
      exact ht t e [] w rfl hw w' hw'

omit [Platform] in
/-- Writes of increasing rank are some of the three writes, in their order. -/
theorem sublist_of_increasing {ws : List PublicationWrite}
    (h : ws.Pairwise fun w w' => w.rank < w'.rank) :
    ws.Sublist [.fork, .push, .draft] := by
  have hmem : ws ⊆ [.fork, .push, .draft] := by
    intro w _
    cases w <;> simp
  have hnodup : ws.Nodup := by
    refine h.imp ?_
    rintro w _ hlt rfl
    exact absurd hlt (lt_irrefl _)
  obtain ⟨l, hperm, hsub⟩ := hnodup.subperm hmem
  have hl : l.Pairwise fun w w' => w.rank < w'.rank := by
    refine List.Pairwise.sublist hsub ?_
    simp [PublicationWrite.rank]
  rw [hperm.symm.eq_of_pairwise (fun w w' _ _ hlt hlt' => absurd hlt (lt_asymm hlt')) h hl]
  exact hsub

/-- **Publication writes are gated.** In a run against any transport the writes are some of a fork,
a push and a draft, each at most once and in this order. A write comes after all the checks before
it, with the clock last read within the window of its action. After a failed check nothing is
written, and a run that succeeds has read the approved draft back last. -/
theorem applyWithTransport_gated (plan : PublicationPlan) (root : String)
    (f : Oracle TransportSig) :
    (writes (publicationTrace f plan root)).Sublist [.fork, .push, .draft] ∧
      (∀ pre e post w, publicationTrace f plan root = pre ++ e :: post → e.op.write? = some w →
        Authorised plan w pre) ∧
      (∀ pre e post, publicationTrace f plan root = pre ++ e :: post → ¬ Passes plan pre e →
        writes post = [] ∧ ∀ readback, publicationOutcome f plan root ≠ .ok readback) ∧
      ∀ readback, publicationOutcome f plan root = .ok readback → Published plan (publicationTrace f plan root) := by
  refine ⟨sublist_of_increasing ?_, fun _ _ _ _ htrace hw => authorised_of_write htrace hw, ?_,
    fun _ => published_of_ok⟩
  · exact writes_pairwise fun _ _ _ _ htrace hw => (authorised_of_write htrace hw).first
  · intro pre e post htrace hfailed
    refine ⟨?_, ?_⟩
    · rw [writes, List.filterMap_eq_nil_iff]
      intro e' hmem
      obtain ⟨between, rest, rfl⟩ := List.append_of_mem hmem
      by_contra hwrite
      obtain ⟨w, hw⟩ := Option.ne_none_iff_exists'.mp hwrite
      have hsplit : publicationTrace f plan root = (pre ++ e :: between) ++ e' :: rest := by
        rw [htrace, List.append_assoc, List.cons_append]
      exact hfailed ((authorised_of_write hsplit hw).passed pre e between rfl)
    · intro readback hok
      exact hfailed ((published_of_ok hok).passed pre e post htrace)

end

end

end Ao2
