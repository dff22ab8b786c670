import Ao2.Publication.Remote

/-!
# Retries converge

An attempt that is stopped, or whose requests are lost, leaves some of the fork, the branch and the
draft, and the next attempt goes on from there. What was opened is found again by asking for the open
pull requests from the branch. A draft that somebody closed is not found, and is opened again.

What an operation of a plan can do to the remote state is `ServeStep`; what attempts keep follows
from it. That an attempt comes to its end follows the procedure.
-/

namespace Ao2

open Interaction

namespace Site

/-- The open pull requests from the branch of a plan to the default branch. -/
def planPulls (site : Site) (plan : PublicationPlan) (r : Remote) : List PullIdentity :=
  r.openPulls (ownerOf (plan.draftAction.fork.getD "")) plan.draftAction.branch
    site.upstream.defaultBranch

end Site

/-! ### What an operation can do -/

/-- What an operation of a plan can do to the remote state. -/
inductive ServeStep (site : Site) (plan : PublicationPlan) (r : Remote) : Remote → Prop where
  | same : ServeStep site plan r r
  | nearer (n : ℕ) (hfork : r.fork = some (n + 1)) : ServeStep site plan r { r with fork := some n }
  | fork (hfork : r.fork = none) : ServeStep site plan r (site.forked r)
  | push (hfork : r.fork = some 0) (hbranch : r.branches plan.pushAction.branch = none) :
    ServeStep site plan r (r.pushed plan.pushAction.branch plan.pushAction.headSha)
  | draft (head baseHead : String)
    (howner : ownerOf (plan.draftAction.fork.getD "") = ownerOf site.fork.fullName)
    (hhead : r.branches plan.draftAction.branch = some head)
    (hbase : site.heads site.upstream.defaultBranch = some baseHead)
    (hnone : site.planPulls plan r = []) :
    ServeStep site plan r (r.drafted (draftPull plan r.next site.fork.fullName head
      site.upstream.defaultBranch baseHead))

section

variable {site : Site} {plan : PublicationPlan} {r r' : Remote} {o : TransportOp}
  {time : DateTime}

theorem ownerOf_of_split {repository owner repo : String}
    (h : splitRepository repository = .ok (owner, repo)) : owner = ownerOf repository := by
  unfold splitRepository at h
  split at h
  case h_2 => cases h
  case h_1 o r heq =>
    split at h
    case isFalse => cases h
    case isTrue =>
      cases h
      rw [ownerOf, heq, List.headD_cons]

theorem forkOwner_eq_ok {action : GitHubActionDigest} {owner : String}
    (h : action.forkOwner = .ok owner) : owner = ownerOf (action.fork.getD "") := by
  simp only [GitHubActionDigest.forkOwner, bind_eq_ok, orContext_eq_ok] at h
  obtain ⟨fork, hfork, ⟨owner', repo⟩, hsplit, howner⟩ := h
  cases howner
  rw [hfork, Option.getD_some]
  exact ownerOf_of_split hsplit

theorem serveCreateDraft_step :
    ServeStep site plan r (site.serveCreateDraft r plan site.upstream.defaultBranch).2 := by
  unfold Site.serveCreateDraft
  dsimp only
  cases howner : plan.draftAction.forkOwner with
  | error message => exact .same
  | ok owner =>
    obtain rfl := forkOwner_eq_ok howner
    dsimp only
    split
    case isFalse => exact .same
    case isTrue =>
      split
      case h_2 => exact .same
      case h_1 head baseHead hhead hbase =>
        split
        case isFalse => exact .same
        case isTrue hnone =>
          unfold Site.headOf at hhead
          split at hhead
          case isFalse => cases hhead
          case isTrue hfrom => exact .draft head baseHead hfrom.1 hhead hbase hnone

/-- What an operation of a plan can do. -/
theorem serve_step (ho : OfPlan plan site.upstream.defaultBranch o) :
    ServeStep site plan r (site.serve r time o).2 := by
  cases o with
  | readFork fork =>
    simp only [Site.serve, Site.serveReadFork]
    split
    case isFalse => exact .same
    case isTrue =>
      split
      case h_1 => exact .same
      case h_2 => exact .same
      case h_3 n hfork => exact .nearer n hfork
  | createFork upstream =>
    simp only [Site.serve, Site.serveCreateFork]
    split
    case isFalse => exact .same
    case isTrue =>
      split
      case h_1 hfork => exact .fork hfork
      case h_2 => exact .same
  | pushBranch root fork branch head =>
    obtain ⟨-, rfl, rfl⟩ := ho
    simp only [Site.serve, Site.servePushBranch]
    split
    case isFalse => exact .same
    case isTrue hfork =>
      split
      case h_1 hbranch => exact .push hfork.2 hbranch
      case h_2 => split <;> exact .same
  | createDraft plan' base =>
    obtain ⟨rfl, rfl⟩ := ho
    exact serveCreateDraft_step
  | _ => exact .same

/-! ### At most one draft -/

/-- One draft was opened at most, and one that was opened can be found. -/
structure Found (site : Site) (plan : PublicationPlan) (r : Remote) : Prop where
  once : r.opened.length ≤ 1
  found : r.opened ≠ [] → site.planPulls plan r ≠ []

/-- A draft that is opened for a plan is among its open pull requests. -/
theorem planPulls_drafted {n : ℕ} {head baseHead : String}
    (howner : ownerOf (plan.draftAction.fork.getD "") = ownerOf site.fork.fullName) :
    site.planPulls plan (r.drafted (draftPull plan n site.fork.fullName head
      site.upstream.defaultBranch baseHead)) =
      draftPull plan n site.fork.fullName head site.upstream.defaultBranch baseHead ::
        site.planPulls plan r := by
  simp [Site.planPulls, Remote.openPulls, Remote.drafted, draftPull, howner]

theorem Found.step (hfound : Found site plan r) (hstep : ServeStep site plan r r') :
    Found site plan r' := by
  cases hstep with
  | same => exact hfound
  | nearer n hfork => exact ⟨hfound.once, hfound.found⟩
  | fork hfork => exact ⟨hfound.once, hfound.found⟩
  | push hfork hbranch => exact ⟨hfound.once, hfound.found⟩
  | draft head baseHead howner hhead hbase hnone =>
    have hopened : r.opened = [] := by
      by_contra hne
      exact hfound.found hne hnone
    refine ⟨?_, fun _ => ?_⟩
    · simp [Remote.drafted, hopened]
    · rw [planPulls_drafted howner]
      exact List.cons_ne_nil _ _

end

/-! ### What attempts leave -/

/-- The plan can be published at a site: the procedure would find there what the plan says. -/
structure Fits (site : Site) (plan : PublicationPlan) : Prop where
  localRepository : verifyLocalRepository site.localRepository plan = .ok ()
  login : ∃ repo, splitRepository plan.fork = .ok (site.login, repo)
  upstream : site.upstream.fullName = plan.pushAction.repository
  defaultBranch : validateRef site.upstream.defaultBranch = .ok ()
  base : site.heads site.upstream.defaultBranch = some plan.pushAction.baseSha
  fork : validateForkIdentity site.fork plan.fork plan.pushAction.repository
    site.upstream.defaultBranch = .ok ()
  other : plan.fork ≠ plan.pushAction.repository
  branch : plan.pushAction.branch ≠ site.upstream.defaultBranch
  latency : site.latency < 10

/-- The draft of a plan, with its number. -/
def Site.draftOf (site : Site) (plan : PublicationPlan) (number : ℕ) : PullIdentity :=
  draftPull plan number site.fork.fullName plan.pushAction.headSha site.upstream.defaultBranch
    plan.pushAction.baseSha

/-- Some of the fork, the branch and the draft is there, and nothing else in their place. -/
structure Begun (site : Site) (plan : PublicationPlan) (r : Remote) : Prop where
  latency : ∀ n, r.fork = some n → n < 10
  branch : r.branches plan.pushAction.branch = none ∨
    r.branches plan.pushAction.branch = some plan.pushAction.headSha
  forked : r.branches plan.pushAction.branch ≠ none → r.fork = some 0
  drafts : site.planPulls plan r = [] ∨ ∃ n, site.planPulls plan r = [site.draftOf plan n]
  numbered : r.Numbered

/-- The fork, the branch and the draft are there. -/
structure Complete (site : Site) (plan : PublicationPlan) (r : Remote) : Prop where
  fork : r.fork = some 0
  branch : r.branches plan.pushAction.branch = some plan.pushAction.headSha
  draft : ∃ n, site.planPulls plan r = [site.draftOf plan n]

/-- The two actions of a plan are about one head of one branch of one fork of one repository. -/
structure Aligned (plan : PublicationPlan) : Prop where
  pushFork : plan.pushAction.fork = some plan.fork
  fork : plan.draftAction.fork = some plan.fork
  branch : plan.draftAction.branch = plan.pushAction.branch
  repository : plan.draftAction.repository = plan.pushAction.repository
  headSha : plan.draftAction.headSha = plan.pushAction.headSha
  baseSha : plan.draftAction.baseSha = plan.pushAction.baseSha

section

variable {site : Site} {plan : PublicationPlan} {r r' : Remote}

theorem Fits.fork_fullName (hfits : Fits site plan) : site.fork.fullName = plan.fork := by
  have hfork := hfits.fork
  simp only [validateForkIdentity, bind_eq_ok, bailIf_eq_ok, not_or, not_not] at hfork
  obtain ⟨-, -, hname, -⟩ := hfork
  exact hname

theorem Remote.Numbered.of_eq (hnumbered : r.Numbered) (hpulls : r'.pulls = r.pulls)
    (hnext : r'.next = r.next) : r'.Numbered := by
  refine ⟨?_, ?_, ?_⟩
  · rw [hnext]
    exact hnumbered.next
  · rw [hpulls, hnext]
    exact hnumbered.range
  · rw [hpulls]
    exact hnumbered.nodup

theorem Remote.Numbered.drafted (hnumbered : r.Numbered) {draft : PullIdentity}
    (hnumber : draft.number = r.next) : (r.drafted draft).Numbered where
  next := Nat.succ_pos _
  range := by
    intro pull hpull
    rcases List.mem_cons.mp hpull with rfl | hpull
    · exact hnumber ▸ ⟨hnumbered.next, Nat.lt_succ_self _⟩
    · exact ⟨(hnumbered.range pull hpull).1, (hnumbered.range pull hpull).2.trans (Nat.lt_succ_self _)⟩
  nodup := by
    refine List.nodup_cons.mpr ⟨fun hmem => ?_, hnumbered.nodup⟩
    obtain ⟨pull, hpull, heq⟩ := List.mem_map.mp hmem
    have hlt := (hnumbered.range pull hpull).2
    omega

/-- The draft that is opened for a plan is the draft of the plan. -/
theorem draftPull_eq (hfits : Fits site plan) (halign : Aligned plan) (hbegun : Begun site plan r)
    {head baseHead : String} (hhead : r.branches plan.draftAction.branch = some head)
    (hbase : site.heads site.upstream.defaultBranch = some baseHead) (n : ℕ) :
    draftPull plan n site.fork.fullName head site.upstream.defaultBranch baseHead =
      site.draftOf plan n := by
  rw [halign.branch] at hhead
  have hheadSha : head = plan.pushAction.headSha := by
    rcases hbegun.branch with hnone | hsome
    · rw [hnone] at hhead
      cases hhead
    · rw [hsome] at hhead
      exact (Option.some.inj hhead).symm
  rw [hfits.base] at hbase
  rw [hheadSha, ← Option.some.inj hbase, Site.draftOf]

theorem Begun.step (hfits : Fits site plan) (halign : Aligned plan) (hbegun : Begun site plan r)
    (hstep : ServeStep site plan r r') : Begun site plan r' := by
  cases hstep with
  | same => exact hbegun
  | nearer n hfork =>
    refine ⟨?_, hbegun.branch, fun hne => ?_, hbegun.drafts, hbegun.numbered.of_eq rfl rfl⟩
    · rintro m ⟨⟩
      exact (Nat.lt_succ_self _).trans (hbegun.latency _ hfork)
    · have hzero := hbegun.forked hne
      rw [hfork] at hzero
      cases hzero
  | fork hfork =>
    have hnone : (site.forked r).branches plan.pushAction.branch = none := if_neg hfits.branch
    refine ⟨?_, .inl hnone, fun hne => absurd hnone hne, hbegun.drafts,
      hbegun.numbered.of_eq rfl rfl⟩
    rintro m ⟨⟩
    exact hfits.latency
  | push hfork hbranch =>
    exact ⟨hbegun.latency, .inr (Remote.pushed_branches_self ..), fun _ => hfork, hbegun.drafts,
      hbegun.numbered.of_eq rfl rfl⟩
  | draft head baseHead howner hhead hbase hnone =>
    refine ⟨hbegun.latency, hbegun.branch, hbegun.forked, .inr ⟨r.next, ?_⟩, ?_⟩
    · rw [planPulls_drafted howner, hnone, draftPull_eq hfits halign hbegun hhead hbase]
    · exact hbegun.numbered.drafted rfl

/-- What is complete is left as it is. -/
theorem Complete.step (hcomplete : Complete site plan r) (hstep : ServeStep site plan r r') :
    r' = r := by
  cases hstep with
  | same => rfl
  | nearer n hfork =>
    rw [hcomplete.fork] at hfork
    cases hfork
  | fork hfork =>
    rw [hcomplete.fork] at hfork
    cases hfork
  | push hfork hbranch =>
    rw [hcomplete.branch] at hbranch
    cases hbranch
  | draft head baseHead howner hhead hbase hnone =>
    obtain ⟨n, hdraft⟩ := hcomplete.draft
    rw [hdraft] at hnone
    cases hnone

/-- The draft of the plan is the one that the procedure looks for. -/
theorem exactPull_draftOf (hfits : Fits site plan) (halign : Aligned plan) {n : ℕ} (hn : 0 < n) :
    exactPull (site.draftOf plan n) plan site.upstream.defaultBranch = true := by
  simp [exactPull, Site.draftOf, draftPull, halign.fork, halign.headSha, halign.baseSha, hn,
    hfits.fork_fullName]

end

/-! ### Attempts come to their end -/

section

variable [Platform]

/-- A time within the windows of both actions. -/
def InWindow (plan : PublicationPlan) (time : DateTime) : Prop :=
  validateWindow plan.pushAction time = .ok () ∧ validateWindow plan.draftAction time = .ok ()

/-- A request is not answered, or an approval has run out. -/
def Attempt.Disturbed (plan : PublicationPlan) (a : Attempt) : Prop :=
  (∃ i, a.faults i ≠ .answered) ∨ ∃ i, ¬ InWindow plan (a.times i)

/-- What stays approved at a time: an action in its window. -/
theorem validateAction_at {action : GitHubActionDigest} {expectedAction expectedDigest : String}
    {now time : DateTime} (h : validateAction action expectedAction expectedDigest now = .ok ())
    (hwindow : validateWindow action time = .ok ()) :
    validateAction action expectedAction action.actionDigest time = .ok () := by
  rw [← (validateAction_eq_ok h).expected] at h
  unfold validateAction at h ⊢
  simp only [↓seq_eq_ok, bind_eq_ok] at h ⊢
  obtain ⟨hschema, hrun, hrepository, fork, hfork, owner, hsplit, upstream, hupstream, hsame, hissue,
    hbranch, href, hdigests, hnonempty, hchecks, -, hdigest⟩ := h
  exact ⟨hschema, hrun, hrepository, fork, hfork, owner, hsplit, upstream, hupstream, hsame, hissue,
    hbranch, href, hdigests, hnonempty, hchecks, hwindow, hdigest⟩

/-- The plan is accepted, and can be published at the site. -/
structure Publishable (site : Site) (plan : PublicationPlan) : Prop where
  fits : Fits site plan
  aligned : Aligned plan
  push : ∀ time, InWindow plan time → validateAction plan.pushAction "push_operator_fork"
    plan.pushAction.actionDigest time = .ok ()
  draft : ∀ time, InWindow plan time → validateAction plan.draftAction "open_upstream_draft_pr"
    plan.draftAction.actionDigest time = .ok ()

theorem publishable_of_accepted {site : Site} {plan : PublicationPlan}
    {expectedPush expectedDraft : String} {now : DateTime}
    (h : validatePlan plan expectedPush expectedDraft now = .ok ()) (hfits : Fits site plan) :
    Publishable site plan := by
  have hagree := (validatePlan_fullyBound h).actions
  unfold validatePlan at h
  simp only [↓seq_eq_ok] at h
  obtain ⟨-, -, -, -, hpush, hdraft, -⟩ := h
  obtain ⟨fork, -, -, -, hfork, -⟩ := (validateAction_eq_ok hpush).fork
  have hsome : plan.pushAction.fork = some plan.fork := by
    rw [PublicationPlan.fork, hfork, Option.getD_some]
  refine ⟨hfits, ⟨hsome, hagree.fork ▸ hsome, hagree.branch.symm, hagree.repository.symm,
    hagree.headSha.symm, hagree.baseSha.symm⟩, ?_, ?_⟩
  · exact fun time hwindow => validateAction_at hpush hwindow.1
  · exact fun time hwindow => validateAction_at hdraft hwindow.2

variable {site : Site} {plan : PublicationPlan} {a : Attempt} {s : Session} {root : String}
  {complete : Prop} {α β : Type}

/-- A specification of a part of an attempt: it comes to its end unless the attempt is disturbed, and
writes nothing once the publication is complete. -/
abbrev Site.Serves (site : Site) (plan : PublicationPlan) (a : Attempt) (complete : Prop)
    (p : PublicationProg α) (Q : α → Session → Prop) (s : Session) : Prop :=
  (site.machine a).wp (fun o _ => complete → TransportOp.write? o = none) p Q
    (fun _ _ => a.Disturbed plan) s

/-- An operation that is answered, or else the attempt is disturbed. -/
theorem serves_op {o : TransportOp} {k : TransportSig.Ans o → PublicationProg α}
    {Q : α → Session → Prop} {answer : TransportSig.Ans o} {remote : Remote}
    (hserve : site.serve s.remote (a.times s.count) o = (answer, remote))
    (hwrite : complete → o.write? = none)
    (hlost : ∀ s', a.Disturbed plan →
      site.Serves plan a complete (k (o.unanswered answer)) Q s')
    (hk : site.Serves plan a complete (k answer) Q (s.after o remote)) :
    site.Serves plan a complete (.ask (S := TransportSig) o k) Q s := by
  refine ⟨hwrite, ?_⟩
  unfold Site.machine
  dsimp only
  rw [hserve]
  cases hfault : a.faults s.count with
  | answered => exact hk
  | lost => exact hlost _ (.inl ⟨s.count, by rw [hfault]; decide⟩)
  | refused => exact hlost _ (.inl ⟨s.count, by rw [hfault]; decide⟩)

theorem serves_ok {x : β} {g : β → PublicationProg α} {Q : α → Session → Prop}
    (hg : site.Serves plan a complete (g x) Q s) :
    site.Serves plan a complete ((Prog.ofExcept (.ok x)).bind g) Q s := hg

/-- A check that does not stop. -/
theorem serves_check {r : Except String β} {x : β} {g : β → PublicationProg α}
    {Q : α → Session → Prop} (hr : r = .ok x) (hg : site.Serves plan a complete (g x) Q s) :
    site.Serves plan a complete ((Prog.ofExcept r).bind g) Q s := by
  subst hr
  exact hg

/-- An operation that is always answered. -/
theorem serves_local {o : TransportOp} {k : TransportSig.Ans o → PublicationProg α}
    {Q : α → Session → Prop} {answer : TransportSig.Ans o}
    (hserve : site.serve s.remote (a.times s.count) o = (answer, s.remote))
    (hlocal : o.unanswered answer = answer) (hwrite : complete → o.write? = none)
    (hk : site.Serves plan a complete (k answer) Q (s.after o s.remote)) :
    site.Serves plan a complete (.ask (S := TransportSig) o k) Q s := by
  refine ⟨hwrite, ?_⟩
  unfold Site.machine
  dsimp only
  rw [hserve]
  dsimp only
  rw [hlocal]
  split
  · exact hk
  · exact hk
  · exact hk

theorem recheck_serves {action : GitHubActionDigest} {expectedAction : String}
    {Q : Unit → Session → Prop}
    (haction : ∀ time, InWindow plan time →
      validateAction action expectedAction action.actionDigest time = .ok ())
    (hQ : Q () (s.after .now s.remote)) :
    site.Serves plan a complete (recheck action expectedAction) Q s := by
  refine serves_local rfl rfl (fun _ => rfl) ?_
  by_cases hwindow : InWindow plan (a.times s.count)
  · exact Machine.wp_ofExcept (fun _ _ => hQ) fun _ herror => by
      rw [haction _ hwindow] at herror
      cases herror
  · exact Machine.wp_ofExcept (fun _ _ => hQ) fun _ _ => .inr ⟨_, hwindow⟩

/-! #### The fork -/

omit [Platform] in
theorem serve_readFork (hfits : Fits site plan) {r : Remote} {time : DateTime} :
    site.serve r time (.readFork plan.fork) =
      match r.fork with
      | none => (.ok none, r)
      | some 0 => (.ok (some site.fork), r)
      | some (n + 1) => (.ok none, { r with fork := some n }) := by
  simp only [Site.serve, Site.serveReadFork]
  rw [if_pos hfits.fork_fullName.symm]
  rfl

/-- A fork that was made is found before the procedure gives up. -/
theorem pollFork_serves (hfits : Fits site plan) {n k : ℕ} (hfork : s.remote.fork = some k)
    (hlt : k < n) :
    site.Serves plan a complete (pollFork plan.fork n)
      (fun identity s' => identity = some site.fork ∧
        s'.remote = { s.remote with fork := some 0 }) s := by
  induction n generalizing s k with
  | zero => exact absurd hlt (Nat.not_lt_zero _)
  | succ n ih =>
    unfold pollFork PublicationProg.readFork PublicationProg.retryDelay
    simp only [Prog.bind_eq]
    have hserve : site.serve s.remote (a.times s.count) (.readFork plan.fork) = _ :=
      serve_readFork hfits
    rw [hfork] at hserve
    cases k with
    | zero =>
      refine serves_op hserve (fun _ => rfl) (fun _ h => h) ?_
      exact ⟨rfl, by rw [← hfork]; rfl⟩
    | succ k =>
      refine serves_op hserve (fun _ => rfl) (fun _ h => h) ?_
      refine serves_local rfl rfl (fun _ => rfl) ?_
      change site.Serves plan a complete (pollFork plan.fork n) _ _
      refine Machine.wp.post (ih rfl (Nat.lt_of_succ_lt_succ hlt)) ?_
      exact fun _ _ hfound => hfound

/-- What a stage that is not about the draft leaves of the pull requests. -/
structure SameDrafts (r r' : Remote) : Prop where
  pulls : r'.pulls = r.pulls
  next : r'.next = r.next
  opened : r'.opened = r.opened

/-- What a stage does: it leaves what attempts leave, and nothing changes if all was there. -/
structure Staged (site : Site) (plan : PublicationPlan) (complete : Prop) (r : Remote)
    (written : Bool) (s' : Session) : Prop where
  begun : Begun site plan s'.remote
  fork : s'.remote.fork = some 0
  drafts : SameDrafts r s'.remote
  idle : complete → written = false ∧ s'.remote = r

omit [Platform] in
theorem Begun.found {r : Remote} (hbegun : Begun site plan r) :
    Begun site plan { r with fork := some 0 } := by
  refine ⟨?_, hbegun.branch, fun _ => rfl, hbegun.drafts, hbegun.numbered.of_eq rfl rfl⟩
  rintro m ⟨⟩
  decide

/-- A fork that is not found is made, and is found then. -/
theorem createFork_serves (hpub : Publishable site plan) (hbegun : Begun site plan s.remote)
    (hcomplete : ¬ complete) :
    site.Serves plan a complete
      (do
        recheck plan.pushAction "push_operator_fork"
        PublicationProg.createFork plan.pushAction.repository
        let identity ← pollFork plan.fork 10
        let identity ← .ofExcept (orContext identity "created fork was not independently readable")
        .ofExcept (validateForkIdentity identity plan.fork plan.pushAction.repository
          site.upstream.defaultBranch)
        pure true)
      (Staged site plan complete s.remote) s := by
  have hserve {r : Remote} {time : DateTime} :
      site.serve r time (.createFork plan.pushAction.repository) =
        (.ok (), if r.fork = none then site.forked r else r) := by
    simp only [Site.serve, Site.serveCreateFork]
    rw [if_pos hpub.fits.upstream.symm]
    cases r.fork <;> rfl
  unfold PublicationProg.createFork
  simp only [Prog.bind_eq]
  refine Machine.wp_bind.mpr (recheck_serves hpub.push ?_)
  refine serves_op hserve (fun h => absurd h hcomplete) (fun _ h => h) (serves_ok ?_)
  -- The fork was made now or before; either way it is found in time.
  obtain ⟨m, hm, hlt, hbegun, hsame⟩ : ∃ m,
      (if s.remote.fork = none then site.forked s.remote else s.remote).fork = some m ∧ m < 10 ∧
      Begun site plan (if s.remote.fork = none then site.forked s.remote else s.remote) ∧
      SameDrafts s.remote (if s.remote.fork = none then site.forked s.remote else s.remote) := by
    cases hfork : s.remote.fork with
    | none =>
      rw [if_pos rfl]
      exact ⟨site.latency, rfl, hpub.fits.latency,
        hbegun.step hpub.fits hpub.aligned (.fork hfork), rfl, rfl, rfl⟩
    | some m =>
      rw [if_neg (Option.some_ne_none m)]
      exact ⟨m, hfork, hbegun.latency m hfork, hbegun, rfl, rfl, rfl⟩
  refine Machine.wp_bind.mpr ((pollFork_serves hpub.fits hm hlt).post ?_)
  rintro identity s' ⟨rfl, hs'⟩
  refine Machine.wp_ofExcept_bind ?_ nofun
  rintro identity ⟨⟩
  refine Machine.wp_ofExcept_bind ?_ fun _ herror => ?_
  · rintro - -
    refine ⟨?_, ?_, ?_, fun h => absurd h hcomplete⟩
    · rw [hs']
      exact hbegun.found
    · rw [hs']
    · rw [hs']
      exact ⟨hsame.pulls, hsame.next, hsame.opened⟩
  · rw [hpub.fits.fork] at herror
    cases herror

theorem ensureFork_serves (hpub : Publishable site plan) (hbegun : Begun site plan s.remote)
    (hcomplete : complete → s.remote.fork = some 0) :
    site.Serves plan a complete (ensureFork plan plan.fork site.upstream.defaultBranch)
      (Staged site plan complete s.remote) s := by
  have hserve : site.serve s.remote (a.times s.count) (.readFork plan.fork) = _ :=
    serve_readFork hpub.fits
  unfold ensureFork PublicationProg.readFork
  simp only [Prog.bind_eq]
  cases hfork : s.remote.fork with
  | none =>
    rw [hfork] at hserve
    refine serves_op hserve (fun _ => rfl) (fun _ h => h) (serves_ok ?_)
    refine createFork_serves hpub hbegun fun h => ?_
    rw [hcomplete h] at hfork
    cases hfork
  | some k =>
    rw [hfork] at hserve
    cases k with
    | zero =>
      refine serves_op hserve (fun _ => rfl) (fun _ h => h) (serves_ok ?_)
      refine Machine.wp_ofExcept_bind (fun _ _ => ?_) fun _ herror => ?_
      · exact ⟨hbegun, hfork, ⟨rfl, rfl, rfl⟩, fun _ => ⟨rfl, rfl⟩⟩
      · rw [hpub.fits.fork] at herror
        cases herror
    | succ k =>
      have hnearer : Begun site plan { s.remote with fork := some k } :=
        hbegun.step hpub.fits hpub.aligned (.nearer k hfork)
      have hidle (h : complete) : False := by
        rw [hcomplete h] at hfork
        cases hfork
      refine serves_op hserve (fun _ => rfl) (fun _ h => h) (serves_ok ?_)
      refine (createFork_serves hpub hnearer hidle).post fun written s' hs' => ?_
      exact ⟨hs'.begun, hs'.fork, ⟨hs'.drafts.pulls, hs'.drafts.next, hs'.drafts.opened⟩,
        fun h => (hidle h).elim⟩

/-! #### The branch -/

omit [Platform] in
theorem serve_readBranch (hfits : Fits site plan) {r : Remote} {time : DateTime} {branch : String}
    (hfork : r.fork = some 0) :
    site.serve r time (.readBranch plan.fork branch) = (.ok (r.branches branch), r) := by
  simp only [Site.serve, Site.serveReadBranch]
  rw [if_neg (hfits.upstream ▸ hfits.other), if_pos ⟨hfits.fork_fullName.symm, hfork⟩]

theorem ensureBranch_serves (hpub : Publishable site plan) (hbegun : Begun site plan s.remote)
    (hfork : s.remote.fork = some 0)
    (hcomplete : complete →
      s.remote.branches plan.pushAction.branch = some plan.pushAction.headSha) :
    site.Serves plan a complete (ensureBranch plan root plan.fork)
      (fun written s' => Staged site plan complete s.remote written s' ∧
        s'.remote.branches plan.pushAction.branch = some plan.pushAction.headSha) s := by
  unfold ensureBranch PublicationProg.readBranch PublicationProg.pushBranch
  simp only [Prog.bind_eq]
  rcases hbegun.branch with hnone | hsome
  · have hread : site.serve s.remote (a.times s.count)
        (.readBranch plan.fork plan.pushAction.branch) = (.ok none, s.remote) := by
      refine (serve_readBranch hpub.fits hfork).trans ?_
      rw [hnone]
    have hidle (h : complete) : False := by
      rw [hcomplete h] at hnone
      cases hnone
    refine serves_op hread (fun _ => rfl) (fun _ h => h) (serves_ok ?_)
    refine Machine.wp_bind.mpr (recheck_serves hpub.push ?_)
    have hpush {time : DateTime} : site.serve s.remote time (.pushBranch root plan.fork
        plan.pushAction.branch plan.pushAction.headSha) =
          (.ok (), s.remote.pushed plan.pushAction.branch plan.pushAction.headSha) := by
      simp only [Site.serve, Site.servePushBranch]
      rw [if_pos ⟨hpub.fits.fork_fullName.symm, hfork⟩, hnone]
      rfl
    have hbegun' := hbegun.step hpub.fits hpub.aligned (.push hfork hnone)
    have hhead : (s.remote.pushed plan.pushAction.branch plan.pushAction.headSha).branches
        plan.pushAction.branch = some plan.pushAction.headSha := Remote.pushed_branches_self ..
    refine serves_op hpush (fun h => (hidle h).elim) (fun _ h => h) (serves_ok ?_)
    unfold pollBranch PublicationProg.readBranch
    have hread' {time : DateTime} : site.serve
        (s.remote.pushed plan.pushAction.branch plan.pushAction.headSha) time
        (.readBranch plan.fork plan.pushAction.branch) = (.ok (some plan.pushAction.headSha),
          s.remote.pushed plan.pushAction.branch plan.pushAction.headSha) := by
      have hfork' : (s.remote.pushed plan.pushAction.branch plan.pushAction.headSha).fork = some 0 :=
        hfork
      refine (serve_readBranch hpub.fits hfork').trans ?_
      rw [hhead]
    refine serves_op hread' (fun _ => rfl) (fun _ h => h) ?_
    change site.Serves plan a complete ((if some plan.pushAction.headSha =
      some plan.pushAction.headSha then _ else _ : PublicationProg _).bind _) _ _
    rw [if_pos rfl]
    refine Machine.wp_ofExcept_bind (fun _ _ => ?_) fun _ herror => ?_
    · exact ⟨⟨hbegun', hfork, ⟨rfl, rfl, rfl⟩, fun h => (hidle h).elim⟩, hhead⟩
    · simp [bailIf] at herror
  · have hread : site.serve s.remote (a.times s.count)
        (.readBranch plan.fork plan.pushAction.branch) =
          (.ok (some plan.pushAction.headSha), s.remote) := by
      refine (serve_readBranch hpub.fits hfork).trans ?_
      rw [hsome]
    refine serves_op hread (fun _ => rfl) (fun _ h => h) (serves_ok ?_)
    dsimp only
    rw [if_pos rfl]
    exact ⟨⟨hbegun, hfork, ⟨rfl, rfl, rfl⟩, fun _ => ⟨rfl, rfl⟩⟩, hsome⟩

/-! #### The draft -/

theorem forkOwner_draftAction (hpub : Publishable site plan) :
    plan.draftAction.forkOwner = .ok site.login := by
  obtain ⟨repo, hsplit⟩ := hpub.fits.login
  simp [GitHubActionDigest.forkOwner, hpub.aligned.fork, hsplit, pure, Except.pure, orContext]

/-- The procedure asks for the pull requests of the plan. -/
theorem serve_findDrafts (hpub : Publishable site plan) {r : Remote} {time : DateTime} :
    site.serve r time (.findDrafts plan.draftAction site.upstream.defaultBranch) =
      (.ok ((site.planPulls plan r).take 10), r) := by
  have howner := forkOwner_draftAction hpub
  have hfound : site.serveFindDrafts r plan.draftAction site.upstream.defaultBranch =
      .ok ((site.planPulls plan r).take 10) := by
    unfold Site.serveFindDrafts
    rw [howner, Site.planPulls, ← forkOwner_eq_ok howner]
    exact if_pos (hpub.aligned.repository.trans hpub.fits.upstream.symm)
  exact congrArg (·, r) hfound

/-- A draft that is not there is opened. -/
theorem serve_createDraft (hpub : Publishable site plan) {r : Remote} {time : DateTime}
    (hfork : r.fork = some 0)
    (hbranch : r.branches plan.pushAction.branch = some plan.pushAction.headSha)
    (hnone : site.planPulls plan r = []) :
    site.serve r time (.createDraft plan site.upstream.defaultBranch) =
      (.ok (.created r.next), r.drafted (site.draftOf plan r.next)) := by
  have howner := forkOwner_draftAction hpub
  have hlogin := forkOwner_eq_ok howner
  have hhead : site.headOf r site.login plan.draftAction.branch = some plan.pushAction.headSha := by
    have hfrom : site.login = ownerOf site.fork.fullName := by
      rw [hlogin, hpub.aligned.fork, Option.getD_some, hpub.fits.fork_fullName]
    rw [Site.headOf, if_pos ⟨hfrom, hfork⟩, hpub.aligned.branch, hbranch]
  rw [Site.planPulls, ← hlogin] at hnone
  simp only [Site.serve, Site.serveCreateDraft, howner]
  rw [if_pos (hpub.aligned.repository.trans hpub.fits.upstream.symm), hhead, hpub.fits.base]
  dsimp only
  rw [if_pos hnone]
  rfl

/-- The draft is read back by its number. -/
theorem serve_readPull (hpub : Publishable site plan) {r : Remote} {time : DateTime} {n : ℕ}
    (hnumbered : r.Numbered) (hdraft : site.planPulls plan r = [site.draftOf plan n]) :
    site.serve r time (.readPull plan.pushAction.repository n) =
      (.ok (site.draftOf plan n), r) := by
  have hmem : site.draftOf plan n ∈ r.pulls := by
    have hpull : site.draftOf plan n ∈ site.planPulls plan r := by
      rw [hdraft]
      exact List.mem_singleton_self _
    exact List.mem_of_mem_filter hpull
  have hfind : r.pulls.find? (fun pull => pull.number = n) = some (site.draftOf plan n) := by
    cases hfound : r.pulls.find? fun pull => pull.number = n with
    | none =>
      have hno := List.find?_eq_none.mp hfound _ hmem
      exact absurd (decide_eq_true rfl) hno
    | some pull =>
      have hnumber : pull.number = n := by simpa using List.find?_some hfound
      rw [List.inj_on_of_nodup_map hnumbered.nodup (List.mem_of_find?_eq_some hfound) hmem hnumber]
  simp only [Site.serve, Site.serveReadPull]
  rw [if_pos hpub.fits.upstream.symm, hfind]
  rfl

/-- What the draft stage leaves: the draft, which was opened if there was none. -/
structure Drafted (site : Site) (plan : PublicationPlan) (complete : Prop) (r : Remote)
    (result : ℕ × Bool) (s' : Session) : Prop where
  numbered : s'.remote.Numbered
  whole : Complete site plan s'.remote
  draft : site.planPulls plan s'.remote = [site.draftOf plan result.1]
  positive : 0 < result.1
  opened : s'.remote.opened =
    if site.planPulls plan r = [] then r.opened ++ [r.next] else r.opened
  idle : complete → result.2 = false

theorem ensureDraft_serves (hpub : Publishable site plan) (hbegun : Begun site plan s.remote)
    (hfork : s.remote.fork = some 0)
    (hbranch : s.remote.branches plan.pushAction.branch = some plan.pushAction.headSha)
    (hcomplete : complete → site.planPulls plan s.remote ≠ []) :
    site.Serves plan a complete (ensureDraft plan site.upstream.defaultBranch)
      (Drafted site plan complete s.remote) s := by
  unfold ensureDraft PublicationProg.findDrafts PublicationProg.createDraft
  simp only [Prog.bind_eq]
  rcases hbegun.drafts with hnone | ⟨n, hdraft⟩
  · have hfind : site.serve s.remote (a.times s.count)
        (.findDrafts plan.draftAction site.upstream.defaultBranch) = (.ok [], s.remote) := by
      refine (serve_findDrafts hpub).trans ?_
      rw [hnone, List.take_nil]
    refine serves_op hfind (fun _ => rfl) (fun _ h => h) (serves_ok ?_)
    refine Machine.wp_bind.mpr (recheck_serves hpub.draft ?_)
    refine serves_op (serve_createDraft hpub hfork hbranch hnone)
      (fun h => absurd hnone (hcomplete h)) (fun _ h => h) (serves_ok ?_)
    have hdrafted : site.planPulls plan (s.remote.drafted (site.draftOf plan s.remote.next)) =
        [site.draftOf plan s.remote.next] := by
      have howner : ownerOf (plan.draftAction.fork.getD "") = ownerOf site.fork.fullName := by
        rw [hpub.aligned.fork, Option.getD_some, hpub.fits.fork_fullName]
      refine (planPulls_drafted howner).trans ?_
      rw [hnone]
      rfl
    exact ⟨hbegun.numbered.drafted rfl, ⟨hfork, hbranch, _, hdrafted⟩, hdrafted,
      hbegun.numbered.next, (if_pos hnone).symm, fun h => absurd hnone (hcomplete h)⟩
  · have hfind : site.serve s.remote (a.times s.count)
        (.findDrafts plan.draftAction site.upstream.defaultBranch) =
          (.ok [site.draftOf plan n], s.remote) := by
      refine (serve_findDrafts hpub).trans ?_
      rw [hdraft]
      rfl
    have hpositive : 0 < n := by
      have hmem : site.draftOf plan n ∈ s.remote.pulls := by
        refine List.mem_of_mem_filter (?_ : _ ∈ site.planPulls plan s.remote)
        rw [hdraft]
        exact List.mem_singleton_self _
      exact (hbegun.numbered.range _ hmem).1
    refine serves_op hfind (fun _ => rfl) (fun _ h => h) (serves_ok ?_)
    dsimp only
    rw [if_pos (exactPull_draftOf hpub.fits hpub.aligned hpositive)]
    refine ⟨hbegun.numbered, ⟨hfork, hbranch, n, hdraft⟩, hdraft, hpositive, ?_, fun _ => rfl⟩
    rw [hdraft, if_neg (List.cons_ne_nil _ _)]
    rfl

/-! #### The whole procedure -/

theorem verifyUpstream_serves (hpub : Publishable site plan) :
    site.Serves plan a complete (verifyUpstream plan root plan.fork)
      (fun branch s' => branch = site.upstream.defaultBranch ∧ s'.remote = s.remote) s := by
  have hfits := hpub.fits
  obtain ⟨repo, hsplit⟩ := hfits.login
  have hlocal {time : DateTime} {r : Remote} :
      site.serve r time (.verifyLocalRepository root plan) = (.ok (), r) :=
    congrArg (·, r) hfits.localRepository
  have hupstream {time : DateTime} {r : Remote} :
      site.serve r time (.readRepository plan.pushAction.repository) = (.ok site.upstream, r) :=
    congrArg (·, r) (if_pos hfits.upstream.symm)
  have hbase {time : DateTime} {r : Remote} :
      site.serve r time (.readBranch plan.pushAction.repository site.upstream.defaultBranch) =
        (.ok (some plan.pushAction.baseSha), r) := by
    refine congrArg (·, r) ((if_pos hfits.upstream.symm).trans ?_)
    rw [hfits.base]
  unfold verifyUpstream PublicationProg.verifyLocalRepository PublicationProg.authenticatedLogin
    PublicationProg.readRepository PublicationProg.readBranch
  simp only [Prog.bind_eq]
  refine serves_op hlocal (fun _ => rfl) (fun _ h => h) (serves_ok ?_)
  refine serves_op rfl (fun _ => rfl) (fun _ h => h) (serves_ok ?_)
  refine serves_check hsplit (serves_check (x := ()) (by simp) ?_)
  refine serves_op hupstream (fun _ => rfl) (fun _ h => h) (serves_ok ?_)
  refine serves_check (x := ()) (by simp [hfits.upstream]) (serves_check hfits.defaultBranch ?_)
  refine serves_op hbase (fun _ => rfl) (fun _ h => h) (serves_ok ?_)
  refine serves_check (x := ()) (by simp) ?_
  exact ⟨rfl, rfl⟩

omit [Platform] in
theorem SameDrafts.trans {r r' r'' : Remote} (h : SameDrafts r r') (h' : SameDrafts r' r'') :
    SameDrafts r r'' :=
  ⟨h'.pulls.trans h.pulls, h'.next.trans h.next, h'.opened.trans h.opened⟩

omit [Platform] in
theorem SameDrafts.planPulls {r r' : Remote} (h : SameDrafts r r') :
    site.planPulls plan r' = site.planPulls plan r := by
  rw [Site.planPulls, Remote.openPulls, h.pulls]
  rfl

/-- **An attempt comes to its end.** Unless it is disturbed it returns, and has left all that the plan
asks for; it has opened a draft if none was open. If all was there before, it writes nothing. -/
theorem applyWithTransport_serves (hpub : Publishable site plan)
    (hbegun : Begun site plan s.remote) (hcomplete : complete → Complete site plan s.remote) :
    site.Serves plan a complete (applyWithTransport plan root)
      (fun readback s' => Complete site plan s'.remote ∧
        s'.remote.opened = (if site.planPulls plan s.remote = [] then
          s.remote.opened ++ [s.remote.next] else s.remote.opened) ∧
        (complete → readback.status = "idempotent_readback")) s := by
  unfold applyWithTransport publish readbackDraft PublicationProg.readPull
  simp only [Prog.bind_eq]
  refine serves_check (orContext_eq_ok.mpr hpub.aligned.pushFork) ?_
  refine Machine.wp_bind.mpr ((verifyUpstream_serves hpub).post ?_)
  rintro branch s₁ ⟨rfl, hs₁⟩
  rw [← hs₁] at hbegun hcomplete ⊢
  refine Machine.wp_bind.mpr ((ensureFork_serves hpub hbegun fun h => (hcomplete h).fork).post ?_)
  intro forkCreated s₂ hfork
  have hidle₂ (h : complete) : s₂.remote = s₁.remote := (hfork.idle h).2
  refine Machine.wp_bind.mpr ((ensureBranch_serves hpub hfork.begun hfork.fork ?_).post ?_)
  · intro h
    rw [hidle₂ h]
    exact (hcomplete h).branch
  rintro branchPushed s₃ ⟨hbranch, hhead⟩
  have hsame : SameDrafts s₁.remote s₃.remote := hfork.drafts.trans hbranch.drafts
  refine Machine.wp_bind.mpr ((ensureDraft_serves hpub hbranch.begun hbranch.fork hhead ?_).post ?_)
  · intro h
    obtain ⟨n, hdraft⟩ := (hcomplete h).draft
    rw [hsame.planPulls, hdraft]
    exact List.cons_ne_nil _ _
  rintro ⟨number, draftCreated⟩ s₄ hdraft
  refine Machine.wp_bind.mpr (serves_op (serve_readPull hpub hdraft.numbered hdraft.draft)
    (fun _ => rfl) (fun _ h => h) ?_)
  have hexact := exactPull_draftOf hpub.fits hpub.aligned hdraft.positive
  refine Machine.wp_ofExcept (fun _ _ => ?_) fun _ herror => ?_
  · refine ⟨hdraft.whole, ?_, fun h => ?_⟩
    · refine hdraft.opened.trans ?_
      rw [hsame.planPulls, hsame.opened, hsame.next]
    · simp [(hfork.idle h).1, (hbranch.idle h).1, show draftCreated = false from hdraft.idle h]
  · simp [hexact, bailIf] at herror

/-! ### Histories -/

/-- Nothing stops the attempt, each request is answered, and the approvals have not run out. -/
structure Attempt.Undisturbed (plan : PublicationPlan) (a : Attempt) : Prop where
  stop : a.stop = none
  answered : ∀ i, a.faults i = .answered
  window : ∀ i, InWindow plan (a.times i)

/-- An attempt that nothing disturbs returns. -/
def Completes (site : Site) (plan : PublicationPlan) (r : Remote) : Prop :=
  ∀ a : Attempt, a.Undisturbed plan →
    ∃ readback, (site.attempt plan a r).1 = some (.ok readback)

/-- An attempt writes nothing and says so. -/
def Idempotent (site : Site) (plan : PublicationPlan) (r : Remote) : Prop :=
  ∀ a : Attempt, (site.attempt plan a r).2.issued = [] ∧
    ∀ readback, (site.attempt plan a r).1 = some (.ok readback) →
      readback.status = "idempotent_readback"

/-- What is there for the plan stays as it is. -/
structure SameForPlan (site : Site) (plan : PublicationPlan) (r r' : Remote) : Prop where
  fork : r'.fork = r.fork
  branch : r'.branches plan.pushAction.branch = r.branches plan.pushAction.branch
  pulls : site.planPulls plan r' = site.planPulls plan r

namespace Site

/-- No attempt begins when a draft was opened for the plan and no pull request is open. -/
def DraftsKept (site : Site) (plan : PublicationPlan) : Remote → List PublicationStep → Prop
  | _, [] => True
  | r, step :: history =>
    (∀ a, step = .attempt a → r.opened ≠ [] → site.planPulls plan r ≠ []) ∧
      DraftsKept site plan (site.stepRemote plan r step) history

/-- Others leave alone what is there for the plan. -/
def LeftAlone (site : Site) (plan : PublicationPlan) : Remote → List PublicationStep → Prop
  | _, [] => True
  | r, step :: history =>
    (∀ left numbered, step = .others left numbered → SameForPlan site plan r left) ∧
      LeftAlone site plan (site.stepRemote plan r step) history

end Site

section

variable {r r' : Remote}

omit [Platform] in
/-- A program that asks for no writes has asked for none. -/
theorem wp_issued {C : TransportOp → Session → Prop} {p : PublicationProg α} {Q : α → Session → Prop}
    {E : String → Session → Prop} (h : (site.machine a).wp C p Q E s)
    (hC : ∀ o s, C o s → o.write? = none) :
    (site.machine a).wp (fun _ s' => s'.issued = s.issued) p (fun _ s' => s'.issued = s.issued)
      (fun _ s' => s'.issued = s.issued) s := by
  induction p generalizing s with
  | done a => rfl
  | fail e => rfl
  | ask o k ih =>
    have hissued : ((site.machine a).step o s).2.issued = s.issued := by
      have hnone := hC o s h.1
      unfold Site.machine
      dsimp only
      split <;> simp [Session.after, hnone]
    have hrest := ih _ h.2
    rw [hissued] at hrest
    exact ⟨rfl, hrest⟩

theorem attempt_found (hfound : Found site plan r) :
    Found site plan (site.attempt plan a r).2.remote :=
  attempt_invariant (fun _ ho _ _ h => h.step (serve_step ho)) hfound

theorem attempt_begun (hpub : Publishable site plan) (hbegun : Begun site plan r) :
    Begun site plan (site.attempt plan a r).2.remote :=
  attempt_invariant (fun _ ho _ _ h => h.step hpub.fits hpub.aligned (serve_step ho)) hbegun

/-- An attempt leaves alone what is complete. -/
theorem attempt_complete (hcomplete : Complete site plan r) :
    (site.attempt plan a r).2.remote = r := by
  have hkept (o) (ho : OfPlan plan site.upstream.defaultBranch o) (time : DateTime) (r' : Remote)
      (hr' : r' = r) : (site.serve r' time o).2 = r := by
    subst hr'
    exact hcomplete.step (serve_step ho)
  exact attempt_invariant (I := (· = r)) hkept rfl

/-- What an attempt does. -/
theorem attempt_serves (complete : Prop) (hpub : Publishable site plan) (hbegun : Begun site plan r)
    (hcomplete : complete → Complete site plan r) :
    (∀ readback, (site.attempt plan a r).1 = some (.ok readback) →
      Complete site plan (site.attempt plan a r).2.remote ∧
        (site.attempt plan a r).2.remote.opened =
          (if site.planPulls plan r = [] then r.opened ++ [r.next] else r.opened) ∧
        (complete → readback.status = "idempotent_readback")) ∧
      (a.Undisturbed plan → ∃ readback, (site.attempt plan a r).1 = some (.ok readback)) ∧
      (complete → (site.attempt plan a r).2.issued = []) := by
  have hspec : site.Serves plan a complete (applyWithTransport plan a.root) _ ⟨r, [], 0⟩ :=
    applyWithTransport_serves hpub hbegun hcomplete
  have hissued (h : complete) := wp_issued hspec fun _ _ hwrite => hwrite h
  unfold Site.attempt
  cases hstop : a.stop with
  | some n =>
    refine ⟨nofun, fun hcalm => ?_, fun h => (hissued h).runFor_world n⟩
    rw [hcalm.stop] at hstop
    cases hstop
  | none =>
    have hrun := hspec.run
    dsimp only
    refine ⟨fun readback hok => ?_, fun hcalm => ?_, fun h => ?_⟩
    · rcases hresult : (site.machine a).run (applyWithTransport plan a.root) ⟨r, [], 0⟩ with
        ⟨_ | readback', s'⟩
      · rw [hresult] at hok
        cases hok
      · rw [hresult] at hok hrun
        cases hok
        exact hrun
    · rcases hresult : (site.machine a).run (applyWithTransport plan a.root) ⟨r, [], 0⟩ with
        ⟨e | readback, s'⟩
      · rw [hresult] at hrun
        rcases hrun with ⟨i, hfault⟩ | ⟨i, hwindow⟩
        · exact absurd (hcalm.answered i) hfault
        · exact absurd (hcalm.window i) hwindow
      · exact ⟨readback, rfl⟩
    · rcases (hissued h).run_world with ⟨_, h⟩ | ⟨_, h⟩
      · exact h
      · exact h

theorem completes_of_begun (hpub : Publishable site plan) (hbegun : Begun site plan r) :
    Completes site plan r :=
  fun _ hcalm => (attempt_serves False hpub hbegun False.elim).2.1 hcalm

theorem idempotent_of_complete (hpub : Publishable site plan) (hbegun : Begun site plan r)
    (hcomplete : Complete site plan r) : Idempotent site plan r := by
  intro a
  obtain ⟨hok, -, hissued⟩ := attempt_serves (a := a) True hpub hbegun fun _ => hcomplete
  exact ⟨hissued trivial, fun readback h => (hok readback h).2.2 trivial⟩

/-! #### Whole histories -/

variable {start : Remote} {history : List PublicationStep}

/-- **At most one draft is opened** as long as one that was opened can be found. -/
theorem opened_length_le_one (hstart : start.opened.length ≤ 1)
    (hkept : site.DraftsKept plan start history) :
    (site.after plan start history).opened.length ≤ 1 := by
  induction history generalizing start with
  | nil => exact hstart
  | cons step history ih =>
    refine ih ?_ hkept.2
    cases step with
    | attempt a => exact (attempt_found ⟨hstart, hkept.1 a rfl⟩).once
    | others left numbered => exact hstart

omit [Platform] in
theorem SameForPlan.begun {left : Remote} (hsame : SameForPlan site plan r left)
    (hnumbered : left.Numbered) {opened : List ℕ} (hbegun : Begun site plan r) :
    Begun site plan { left with opened := opened } where
  latency n hn := hbegun.latency n (hsame.fork ▸ hn)
  branch := by
    rw [show ({ left with opened := opened } : Remote).branches = left.branches from rfl,
      hsame.branch]
    exact hbegun.branch
  forked hne := hsame.fork.trans (hbegun.forked (hsame.branch ▸ hne))
  drafts := by
    rw [show site.planPulls plan { left with opened := opened } = site.planPulls plan left from rfl,
      hsame.pulls]
    exact hbegun.drafts
  numbered := hnumbered.of_eq rfl rfl

omit [Platform] in
theorem complete_of_sameForPlan {left : Remote} (hsame : SameForPlan site plan r left)
    {opened : List ℕ} (hcomplete : Complete site plan r) :
    Complete site plan { left with opened := opened } where
  fork := hsame.fork.trans hcomplete.fork
  branch := hsame.branch.trans hcomplete.branch
  draft := by
    obtain ⟨n, hdraft⟩ := hcomplete.draft
    exact ⟨n, hsame.pulls.trans hdraft⟩

/-- Attempts that are left alone go on from each other. -/
theorem after_begun (hpub : Publishable site plan) (hbegun : Begun site plan start)
    (halone : site.LeftAlone plan start history) :
    Begun site plan (site.after plan start history) := by
  induction history generalizing start with
  | nil => exact hbegun
  | cons step history ih =>
    refine ih ?_ halone.2
    cases step with
    | attempt a => exact attempt_begun hpub hbegun
    | others left numbered => exact (halone.1 left numbered rfl).begun numbered hbegun

/-- What is complete stays complete while it is left alone. -/
theorem after_complete (hcomplete : Complete site plan start)
    (halone : site.LeftAlone plan start history) :
    Complete site plan (site.after plan start history) := by
  induction history generalizing start with
  | nil => exact hcomplete
  | cons step history ih =>
    refine ih ?_ halone.2
    cases step with
    | attempt a =>
      rw [Site.stepRemote, attempt_complete hcomplete]
      exact hcomplete
    | others left numbered => exact complete_of_sameForPlan (halone.1 left numbered rfl) hcomplete

/-- A draft of a plan that is left alone is kept. -/
theorem draftsKept_of_leftAlone (hfound : Found site plan start)
    (halone : site.LeftAlone plan start history) : site.DraftsKept plan start history := by
  induction history generalizing start with
  | nil => trivial
  | cons step history ih =>
    refine ⟨fun _ _ => hfound.found, ih ?_ halone.2⟩
    cases step with
    | attempt a => exact attempt_found hfound
    | others left numbered =>
      refine ⟨hfound.once, fun hne => ?_⟩
      have hpulls := (halone.1 left numbered rfl).pulls
      rw [show site.planPulls plan (site.stepRemote plan start (.others left numbered)) =
        site.planPulls plan left from rfl, hpulls]
      exact hfound.found hne

theorem leftAlone_append {history' : List PublicationStep} :
    site.LeftAlone plan start (history ++ history') ↔ site.LeftAlone plan start history ∧
      site.LeftAlone plan (site.after plan start history) history' := by
  induction history generalizing start with
  | nil => simp [Site.LeftAlone]
  | cons step history ih =>
    rw [List.cons_append, Site.LeftAlone, Site.LeftAlone, ih, Site.after_cons, and_assoc]

end

/-- **Retries converge.** Whatever attempts are made and however they are interrupted: at most one
draft is opened for an accepted plan if no attempt begins when one was opened and none is open. At a
site where the plan can be published, and while others leave alone what is there for it, an attempt
that nothing disturbs returns, and after one that returned no attempt writes. A draft that was closed
is opened again by every attempt that nothing disturbs. -/
theorem publication_converges {expectedPush expectedDraft : String} {now : DateTime}
    (haccepted : validatePlan plan expectedPush expectedDraft now = .ok ()) (site : Site)
    {start : Remote} (hstart : start.opened = []) (history : List PublicationStep) :
    (site.DraftsKept plan start history → (site.after plan start history).opened.length ≤ 1) ∧
      (Fits site plan → Begun site plan start → site.LeftAlone plan start history →
        site.DraftsKept plan start history ∧ Completes site plan (site.after plan start history) ∧
          ∀ pre a post readback, history = pre ++ .attempt a :: post →
            (site.attempt plan a (site.after plan start pre)).1 = some (.ok readback) →
              Idempotent site plan (site.after plan start history)) ∧
      (Fits site plan → Begun site plan (site.after plan start history) →
        site.planPulls plan (site.after plan start history) = [] →
          ∀ a : Attempt, a.Undisturbed plan →
            (site.after plan start (history ++ [.attempt a])).opened.length =
              (site.after plan start history).opened.length + 1) := by
  refine ⟨fun hkept => opened_length_le_one (by simp [hstart]) hkept, ?_, ?_⟩
  · intro hfits hbegun halone
    have hpub := publishable_of_accepted haccepted hfits
    have hfound : Found site plan start := ⟨by simp [hstart], fun hne => absurd hstart hne⟩
    refine ⟨draftsKept_of_leftAlone hfound halone,
      completes_of_begun hpub (after_begun hpub hbegun halone), ?_⟩
    rintro pre a post readback rfl hok
    refine idempotent_of_complete hpub (after_begun hpub hbegun halone) ?_
    obtain ⟨hpre, -, hpost⟩ := leftAlone_append.mp halone
    obtain ⟨hdone, -⟩ := attempt_serves False hpub (after_begun hpub hbegun hpre) False.elim
    rw [Site.after_append, Site.after_cons]
    exact after_complete (hdone readback hok).1 hpost
  · intro hfits hbegun hnone a hcalm
    have hpub := publishable_of_accepted haccepted hfits
    obtain ⟨hdone, hreturns, -⟩ := attempt_serves (a := a) False hpub hbegun False.elim
    obtain ⟨readback, hok⟩ := hreturns hcalm
    have hopened := (hdone readback hok).2.1
    rw [if_pos hnone] at hopened
    rw [Site.after_append, Site.after_cons, Site.after_nil, Site.stepRemote, hopened,
      List.length_append, List.length_singleton]

end

/-! ### A site at which a plan can be published -/

def operatorSite : Site where
  login := "operator"
  upstream := ⟨"fixture/repair", "main"⟩
  heads branch := if branch = "main" then some fixtureBase else none
  fork := ⟨"operator/repair", "main", ⟨"operator"⟩, some ⟨"fixture/repair"⟩⟩
  latency := 3
  localRepository := approvedRepository [notesPath]

/-- There is no fork yet, and no pull request. -/
def freshRemote : Remote := ⟨none, fun _ => none, [], 1, []⟩

/-- Somebody else has opened a pull request. -/
def busyRemote : Remote :=
  { freshRemote with
    pulls := [⟨1, "open", false, none, "Rename", "", ⟨fixtureBase, "main"⟩,
      ⟨fixtureHead, "rename", ⟨"reader/repair"⟩⟩⟩]
    next := 2 }

theorem busyRemote_numbered : busyRemote.Numbered :=
  ⟨by decide, by decide, by decide⟩

def calmAttempt : Attempt := ⟨"/repair", fun _ => minutes 60, fun _ => .answered, none⟩

/-- The answer to the ninth request is lost. -/
def lostAttempt : Attempt :=
  { calmAttempt with faults := fun i => if i = 8 then .lost else .answered }

/-- Somebody closes all pull requests. -/
def Remote.closed (r : Remote) : Remote :=
  { r with pulls := r.pulls.map fun pull => { pull with state := "closed" } }

theorem Remote.Numbered.closed {r : Remote} (hnumbered : r.Numbered) : r.closed.Numbered where
  next := hnumbered.next
  range pull hpull := by
    obtain ⟨pull', hpull', rfl⟩ := List.mem_map.mp hpull
    exact hnumbered.range pull' hpull'
  nodup := by
    rw [Remote.closed, List.map_map]
    exact hnumbered.nodup

theorem planPulls_closed {site : Site} {plan : PublicationPlan} {r : Remote} :
    site.planPulls plan r.closed = [] := by
  simp [Site.planPulls, Remote.openPulls, Remote.closed]

theorem Begun.closed {site : Site} {plan : PublicationPlan} {r : Remote}
    (hbegun : Begun site plan r) : Begun site plan r.closed :=
  ⟨hbegun.latency, hbegun.branch, hbegun.forked, .inl planPulls_closed, hbegun.numbered.closed⟩

section

attribute [local instance] operatorPlatform

theorem operatorSite_fits : Fits operatorSite operatorPlan where
  localRepository := approvedRepository_notesPath
  login := ⟨"repair", by decide⟩
  upstream := rfl
  defaultBranch := by decide
  base := rfl
  fork := by decide
  other := by decide
  branch := by decide
  latency := by decide

theorem calmAttempt_undisturbed : calmAttempt.Undisturbed operatorPlan := by
  have hwindow : InWindow operatorPlan (minutes 60) := ⟨by decide, by decide⟩
  exact ⟨rfl, fun _ => rfl, fun _ => hwindow⟩

theorem freshRemote_begun : Begun operatorSite operatorPlan freshRemote :=
  ⟨nofun, .inl rfl, fun h => absurd rfl h, .inl rfl, ⟨by decide, nofun, .nil⟩⟩

theorem operatorPlan_converges :
    (operatorSite.after operatorPlan freshRemote [.others busyRemote busyRemote_numbered,
      .attempt lostAttempt]).opened.length ≤ 1 ∧
    Completes operatorSite operatorPlan (operatorSite.after operatorPlan freshRemote
      [.others busyRemote busyRemote_numbered, .attempt lostAttempt]) := by
  have halone : operatorSite.LeftAlone operatorPlan freshRemote
      [.others busyRemote busyRemote_numbered, .attempt lostAttempt] := by
    refine ⟨?_, nofun, trivial⟩
    rintro left numbered ⟨⟩
    exact ⟨rfl, rfl, by decide⟩
  obtain ⟨honce, hgoes, -⟩ := publication_converges operatorPlan_accepted operatorSite
    (rfl : freshRemote.opened = []) [.others busyRemote busyRemote_numbered, .attempt lostAttempt]
  obtain ⟨hkept, hcompletes, -⟩ := hgoes operatorSite_fits freshRemote_begun halone
  exact ⟨honce hkept, hcompletes⟩

theorem firstAttempt_begun : Begun operatorSite operatorPlan
    (operatorSite.after operatorPlan freshRemote [.attempt calmAttempt]) :=
  attempt_begun (publishable_of_accepted operatorPlan_accepted operatorSite_fits) freshRemote_begun

/-- Two attempts that nothing disturbs, and the draft is closed in between. -/
theorem closedDraft_opened_twice :
    validatePlan operatorPlan operatorDigests.push operatorDigests.draftAction (minutes 60) =
        .ok () ∧ Fits operatorSite operatorPlan ∧
      Begun operatorSite operatorPlan freshRemote ∧ calmAttempt.Undisturbed operatorPlan ∧
      (operatorSite.after operatorPlan freshRemote [.attempt calmAttempt,
        .others (operatorSite.after operatorPlan freshRemote [.attempt calmAttempt]).closed
          firstAttempt_begun.numbered.closed, .attempt calmAttempt]).opened.length = 2 := by
  refine ⟨operatorPlan_accepted, operatorSite_fits, freshRemote_begun, calmAttempt_undisturbed, ?_⟩
  have hpub := publishable_of_accepted operatorPlan_accepted operatorSite_fits
  have hopens {r : Remote} (hbegun : Begun operatorSite operatorPlan r)
      (hnone : operatorSite.planPulls operatorPlan r = []) :
      (operatorSite.attempt operatorPlan calmAttempt r).2.remote.opened = r.opened ++ [r.next] := by
    obtain ⟨hdone, hreturns, -⟩ := attempt_serves (a := calmAttempt) False hpub hbegun False.elim
    obtain ⟨readback, hok⟩ := hreturns calmAttempt_undisturbed
    exact (hdone readback hok).2.1.trans (if_pos hnone)
  have hfirst : (operatorSite.after operatorPlan freshRemote [.attempt calmAttempt]).opened = [1] :=
    hopens freshRemote_begun rfl
  have hsecond := hopens firstAttempt_begun.closed planPulls_closed
  rw [Site.after_cons, Site.after_cons, Site.after_cons, Site.after_nil]
  refine (congrArg List.length hsecond).trans ?_
  rw [List.length_append, Remote.closed, hfirst]
  rfl

end

end Ao2
