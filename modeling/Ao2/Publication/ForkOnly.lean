import Ao2.Publication.Gated

/-!
# Where a branch is pushed

A plan publishes from a fork, and the fork has the name of the repository under another owner. That
it is another owner is not checked: the owner of the fork is compared with the envelope, with the
account and with what the service says about the fork, but not with the owner of the repository.

## Main results

* `pushesToForks_iff` — the owners decide
-/

namespace Ao2

open Interaction History

/-- A name as the service compares it. -/
def foldCase (name : String) : List Char := name.toList.map Char.toLower

/-- Two names of one repository. -/
def SameRepository (a b : String) : Prop := foldCase a = foldCase b

instance (a b : String) : Decidable (SameRepository a b) :=
  inferInstanceAs (Decidable (foldCase a = foldCase b))

section

variable [Platform]

/-- Whatever the transport answers, what is pushed to is not the repository of the plan. -/
def PushesToForks (plan : PublicationPlan) : Prop :=
  ∀ (f : Oracle TransportSig) (root : String), ∀ e ∈ publicationTrace f plan root,
    ∀ path fork branch head, e.op = .pushBranch path fork branch head →
      ¬ SameRepository fork plan.pushAction.repository

end

/-- The fork of a plan has the owner of the repository of the plan. -/
def SameOwner (plan : PublicationPlan) : Prop :=
  ∃ owner upstreamOwner repo, splitRepository plan.fork = .ok (owner, repo) ∧
    splitRepository plan.pushAction.repository = .ok (upstreamOwner, repo) ∧
    foldCase owner = foldCase upstreamOwner

/-- Repositories of one name are the same if their owners are. -/
theorem sameRepository_iff {a b owner owner' repo : String}
    (ha : splitRepository a = .ok (owner, repo)) (hb : splitRepository b = .ok (owner', repo)) :
    SameRepository a b ↔ foldCase owner = foldCase owner' := by
  rw [(splitRepository_eq_ok ha).1, (splitRepository_eq_ok hb).1, SameRepository, foldCase, foldCase,
    foldCase, foldCase]
  simp only [String.toList_append, List.map_append]
  rw [List.append_assoc, List.append_assoc, List.append_left_inj]

/-! ### What is pushed to -/

/-- An operation that pushes pushes the head of the plan to the branch on its fork, and one that opens
a draft opens that of the plan. -/
def OfPlan (plan : PublicationPlan) (base : String) : TransportOp → Prop
  | .pushBranch _ fork branch head =>
    fork = plan.fork ∧ branch = plan.pushAction.branch ∧ head = plan.pushAction.headSha
  | .createDraft plan' base' => plan' = plan ∧ base' = base
  | _ => True

section

variable {plan : PublicationPlan} {base branch root fork head : String} {n : ℕ}

theorem ofPlan_of_not_write {o : TransportOp} (ho : o.write? = none) : OfPlan plan base o := by
  cases o with
  | pushBranch root fork branch head => cases ho
  | createDraft plan' base' => cases ho
  | _ => trivial

theorem pollFork_ofPlan : (pollFork fork n).Only (OfPlan plan base) := by
  induction n with
  | zero => trivial
  | succ n ih =>
    refine Prog.Only.bind ⟨trivial, fun _ => .ofExcept _⟩ fun identity => ?_
    exact .ite trivial ⟨trivial, fun _ => ih⟩

theorem pollBranch_ofPlan {last : Option String} :
    (pollBranch fork branch head n last).Only (OfPlan plan base) := by
  induction n generalizing last with
  | zero => trivial
  | succ n ih =>
    refine Prog.Only.bind ⟨trivial, fun _ => .ofExcept _⟩ fun identity => ?_
    exact .ite trivial ⟨trivial, fun _ => ih⟩

variable [Platform]

theorem recheck_ofPlan {action : GitHubActionDigest} {operation : String} :
    (recheck action operation).Only (OfPlan plan base) :=
  ⟨trivial, fun _ => .ofExcept _⟩

omit [Platform] in
theorem verifyUpstream_reads :
    (verifyUpstream plan root fork).Only fun o : TransportOp => o.write? = none := by
  unfold verifyUpstream
  refine Prog.Only.bind ⟨rfl, fun _ => .ofExcept _⟩ fun _ => ?_
  refine Prog.Only.bind ⟨rfl, fun _ => .ofExcept _⟩ fun login => ?_
  refine (Prog.Only.ofExcept _).bind fun owner => ?_
  refine (Prog.Only.ofExcept _).bind fun _ => ?_
  refine Prog.Only.bind ⟨rfl, fun _ => .ofExcept _⟩ fun upstream => ?_
  refine (Prog.Only.ofExcept _).bind fun _ => ?_
  refine (Prog.Only.ofExcept _).bind fun _ => ?_
  refine Prog.Only.bind ⟨rfl, fun _ => .ofExcept _⟩ fun base => ?_
  exact (Prog.Only.ofExcept _).bind fun _ => trivial

theorem ensureFork_ofPlan : (ensureFork plan fork branch).Only (OfPlan plan base) := by
  unfold ensureFork
  refine Prog.Only.bind ⟨trivial, fun _ => .ofExcept _⟩ fun identity => ?_
  cases identity with
  | some identity => exact (Prog.Only.ofExcept _).bind fun _ => trivial
  | none =>
    refine recheck_ofPlan.bind fun _ => ?_
    refine Prog.Only.bind ⟨trivial, fun _ => .ofExcept _⟩ fun _ => ?_
    refine pollFork_ofPlan.bind fun identity => ?_
    refine (Prog.Only.ofExcept _).bind fun _ => ?_
    exact (Prog.Only.ofExcept _).bind fun _ => trivial

theorem ensureBranch_ofPlan : (ensureBranch plan root plan.fork).Only (OfPlan plan base) := by
  unfold ensureBranch
  refine Prog.Only.bind ⟨trivial, fun _ => .ofExcept _⟩ fun readback => ?_
  cases readback with
  | some head => exact .ite trivial trivial
  | none =>
    refine recheck_ofPlan.bind fun _ => ?_
    refine Prog.Only.bind ⟨⟨rfl, rfl, rfl⟩, fun _ => .ofExcept _⟩ fun _ => ?_
    refine pollBranch_ofPlan.bind fun readback => ?_
    exact (Prog.Only.ofExcept _).bind fun _ => trivial

theorem ensureDraft_ofPlan : (ensureDraft plan base).Only (OfPlan plan base) := by
  unfold ensureDraft
  refine Prog.Only.bind ⟨trivial, fun _ => .ofExcept _⟩ fun pulls => ?_
  split
  case h_1 =>
    refine recheck_ofPlan.bind fun _ => ?_
    refine Prog.Only.bind ⟨⟨rfl, rfl⟩, fun _ => .ofExcept _⟩ fun outcome => ?_
    cases outcome with
    | created number => trivial
    | conflict =>
      refine Prog.Only.bind ?_ fun _ => trivial
      refine Prog.Only.bind ⟨trivial, fun _ => .ofExcept _⟩ fun reread => ?_
      split
      case h_1 => exact .ite trivial trivial
      all_goals trivial
  case h_2 => exact .ite trivial trivial
  case h_3 => trivial

theorem publish_ofPlan : (publish plan root plan.fork base).Only (OfPlan plan base) := by
  unfold publish
  refine ensureFork_ofPlan.bind fun forkCreated => ?_
  refine ensureBranch_ofPlan.bind fun branchPushed => ?_
  refine ensureDraft_ofPlan.bind fun draft => ?_
  refine Prog.Only.bind ?_ fun _ => trivial
  exact Prog.Only.bind ⟨trivial, fun _ => .ofExcept _⟩ fun _ => .ofExcept _

theorem applyWithTransport_ofPlan :
    (applyWithTransport plan root).Only fun o => ∃ base, OfPlan plan base o := by
  unfold applyWithTransport
  simp only [Prog.bind_eq]
  cases hfork : plan.pushAction.fork with
  | none => exact True.intro
  | some fork =>
    obtain rfl : plan.fork = fork := by rw [PublicationPlan.fork, hfork, Option.getD_some]
    rw [show orContext (some plan.fork) _ = .ok plan.fork from rfl, Prog.ofExcept_ok,
      Prog.done_bind]
    refine (verifyUpstream_reads.mono fun o ho => ⟨"", ofPlan_of_not_write ho⟩).bind fun base => ?_
    exact publish_ofPlan.mono fun _ ho => ⟨base, ho⟩

/-! ### A transport that lets a plan through -/

/-- The service has the fork, as a fork of the repository, but not the branch. -/
def forkWithoutBranch (plan : PublicationPlan) (owner : String) (time : DateTime) :
    Oracle TransportSig := fun h o =>
  match o with
  | .now => time
  | .verifyLocalRepository _ _ => .ok ()
  | .authenticatedLogin => .ok owner
  | .readRepository repository => .ok ⟨repository, "main"⟩
  | .readFork fork => .ok (some ⟨fork, "main", ⟨owner⟩, some ⟨plan.pushAction.repository⟩⟩)
  | .createFork _ => .ok ()
  | .readBranch _ _ =>
    if asked h TransportOp.isReadFork then .ok none else .ok (some plan.pushAction.baseSha)
  | .pushBranch _ _ _ _ => .ok ()
  | .findDrafts _ _ => .ok []
  | .createDraft _ _ => .ok .conflict
  | .readPull _ _ => .error "no pull request"
  | .retryDelay => ⟨⟩

theorem reaches_push {owner repo : String} {time : DateTime}
    (hsome : plan.pushAction.fork = some plan.fork)
    (hfork : splitRepository plan.fork = .ok (owner, repo))
    (haction : validateAction plan.pushAction "push_operator_fork" plan.pushAction.actionDigest
      time = .ok ()) :
    Oracle.Reaches (forkWithoutBranch plan owner time) (applyWithTransport plan root) []
      ⟨.pushBranch root plan.fork plan.pushAction.branch plan.pushAction.headSha, .ok ()⟩ := by
  have href : validateRef "main" = .ok () := by decide
  have hidentity : validateForkIdentity
      ⟨plan.fork, "main", ⟨owner⟩, some ⟨plan.pushAction.repository⟩⟩ plan.fork
      plan.pushAction.repository "main" = .ok () := by
    simp [validateForkIdentity, hfork]
  unfold applyWithTransport publish verifyUpstream ensureFork ensureBranch recheck
  simp only [Prog.bind_eq, Prog.bind_assoc, hsome]
  refine .check rfl ?_
  refine .ask (.check rfl ?_)
  refine .ask (.check rfl ?_)
  refine .check hfork ?_
  refine .check (a := ()) (by simp) ?_
  refine .ask (.check rfl ?_)
  refine .check (a := ()) (by simp) ?_
  refine .check href ?_
  refine .ask (.check rfl ?_)
  refine .check (a := ()) (by simp) ?_
  refine .ask (.check rfl ?_)
  dsimp only
  rw [Prog.bind_assoc]
  refine .check hidentity ?_
  refine .ask (.check rfl ?_)
  dsimp only
  rw [Prog.bind_assoc]
  refine .ask ?_
  refine .done ?_
  rw [Prog.bind_assoc]
  refine .check haction ?_
  exact .here

/-! ### The owners decide -/

theorem pushFork_eq {f : Oracle TransportSig} {e : Event TransportSig}
    (he : e ∈ publicationTrace f plan root) {path fork branch head : String}
    (hop : e.op = .pushBranch path fork branch head) : fork = plan.fork := by
  have hspec := Machine.wp_of_only (M := f.machine) (R := fun _ _ => True) (fun _ => trivial)
    (fun _ _ => trivial) (fun _ _ _ => trivial)
    (applyWithTransport_ofPlan : (applyWithTransport plan root).Only _) []
  obtain ⟨pre, post, htrace⟩ := List.append_of_mem he
  obtain ⟨base, hofPlan⟩ := (Oracle.wp.event hspec htrace (Nat.zero_le _)).1
  rw [hop] at hofPlan
  exact hofPlan.1

/-- **The owners decide.** No run of an accepted plan pushes to the repository of the plan if and
only if its fork has another owner. -/
theorem pushesToForks_iff {expectedPush expectedDraft : String} {time : DateTime}
    (h : validatePlan plan expectedPush expectedDraft time = .ok ()) :
    PushesToForks plan ↔ ¬ SameOwner plan := by
  have haccepted := h
  unfold validatePlan at haccepted
  simp only [↓seq_eq_ok] at haccepted
  obtain ⟨-, -, -, -, haction, -⟩ := haccepted
  have hvalid := validateAction_eq_ok haction
  obtain ⟨fork, owner, repo, upstreamOwner, hsome, hfork, hupstream⟩ := hvalid.fork
  obtain rfl : plan.fork = fork := by rw [PublicationPlan.fork, hsome, Option.getD_some]
  rw [← hvalid.expected] at haction
  constructor
  · rintro hpushes ⟨owner', upstreamOwner', repo', hfork', hupstream', hcase⟩
    rw [hfork] at hfork'
    cases hfork'
    refine hpushes (forkWithoutBranch plan owner time) "" _ (reaches_push hsome hfork haction) _ _ _ _
      rfl ?_
    exact (sameRepository_iff hfork hupstream').mpr hcase
  · intro hother f root e he path fork branch head hop hsame
    rw [pushFork_eq he hop] at hsame
    exact hother ⟨owner, upstreamOwner, repo, hfork, hupstream,
      (sameRepository_iff hfork hupstream).mp hsame⟩

end

section

attribute [local instance] operatorPlatform

theorem operatorPlan_pushesToForks : PushesToForks operatorPlan := by
  refine (pushesToForks_iff operatorPlan_accepted).mpr ?_
  have hfork : splitRepository operatorPlan.fork = .ok ("operator", "repair") := by decide
  have hupstream : splitRepository operatorPlan.pushAction.repository =
      .ok ("fixture", "repair") := by decide
  rintro ⟨owner, upstreamOwner, repo, hfork', hupstream', hcase⟩
  rw [hfork] at hfork'
  rw [hupstream] at hupstream'
  cases hfork'
  cases hupstream'
  exact absurd hcase (by decide)

end

/-! ### A plan to push to the repository -/

def upstreamDigests : PlanDigests where
  envelope := "1da330ed5b486cdbab21f82c768ff8a096ec1742a64d98153c079f262f27e19c"
  candidate := "8df68c77acaf34eed072eae594e6c94130db8e390107927eae7a72f6c12cb8d9"
  governance := "db19f13358291d4d82930269bd15e4a8a89565d4389e591f584d87397bdadf3e"
  reviewer := "3af811f4b6e5103161b103e28f70a3f6d3fafc87256557855cc020a4493bb253"
  push := "d6571dd80217b79cdd37383e297945c1c173636686533f0d57f6425a6bc4a00a"
  draftAction := "a2331e60de7cd633011445a2058174be2552d5201b6ad57d07493a28b4e1d3f7"
  title := "be02e055fab0fbf7b00628ca7317ff9069579d02ff10662895bffb16b84d038c"
  body := "78d7e1aa6fed926e49f113d614ef8b7f9073d320551f8e550e39a638743f4bed"

@[reducible] def upstreamPlatform : Platform := fixturePlatform "fixture" upstreamDigests

/-- The envelope names the owner of the repository as the owner of the fork. -/
def upstreamPlan : PublicationPlan := fixturePlan "fixture" upstreamDigests

section

attribute [local instance] upstreamPlatform

theorem not_pushesToForks :
    validatePlan upstreamPlan upstreamDigests.push upstreamDigests.draftAction (minutes 60) =
      .ok () ∧ ¬ PushesToForks upstreamPlan := by
  have haccepted : validatePlan upstreamPlan upstreamDigests.push upstreamDigests.draftAction
      (minutes 60) = .ok () := by decide +kernel
  have haction : validateAction upstreamPlan.pushAction "push_operator_fork"
      upstreamPlan.pushAction.actionDigest (minutes 60) = .ok () := by
    unfold validatePlan at haccepted
    simp only [↓seq_eq_ok] at haccepted
    exact haccepted.2.2.2.2.1
  have hfork : splitRepository upstreamPlan.fork = .ok ("fixture", "repair") := by decide
  refine ⟨haccepted, fun hpushes => ?_⟩
  exact hpushes _ "" _ (reaches_push (by decide) hfork haction) _ _ _ _ rfl
    (by decide)

end

end Ao2
