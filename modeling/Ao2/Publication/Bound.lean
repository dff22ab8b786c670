import Ao2.Json.Encoding
import Ao2.Publication.Plan

/-!
# What an accepted plan binds

An accepted plan is one story: its two actions agree on everything that they have in common, the
documents are about the same run, repository and commits, they name the same checks, and the times
are in order. Every part of the plan is bound by digests too, so that a plan in which a part is
another one has other digests throughout.

## Main results

* `plan_fullyBound` — the two together
-/

namespace Ao2

/-! ### Actions as JSON values -/

theorem RequiredCheck.toJson_injective : Function.Injective RequiredCheck.toJson := by
  rintro ⟨_, _, _⟩ ⟨_, _, _⟩ h
  simp_all [RequiredCheck.toJson]

theorem RequiredCheck.orderedItems_toJson (checks : List RequiredCheck) :
    Json.orderedItems (checks.map RequiredCheck.toJson) = true := by
  induction checks with
  | nil => rfl
  | cons check checks ih =>
    rw [List.map_cons, Json.orderedItems, ih, Bool.and_true]
    simp only [RequiredCheck.toJson, Json.ordered, Json.orderedMembers, Bool.and_true, List.map]
    decide

namespace GitHubActionDigest

theorem ordered_toJson (action : GitHubActionDigest) : action.toJson.ordered = true := by
  have hfork : (Json.ofOption Json.str action.fork).ordered = true := by
    cases action.fork <;> rfl
  simp only [toJson, Json.ordered, Json.orderedMembers, Json.nat, hfork,
    RequiredCheck.orderedItems_toJson, Bool.and_true, List.map]
  decide

/-- What an action is digested as says everything about it but its digest. -/
theorem eq_of_toJson_remove {a b : GitHubActionDigest} (hdigest : a.actionDigest = b.actionDigest)
    (h : a.toJson.remove "action_digest" = b.toJson.remove "action_digest") : a = b := by
  have hfork : Function.Injective (Json.ofOption Json.str) := by
    rintro (_ | _) (_ | _) h <;> simp_all [Json.ofOption]
  have hchecks := RequiredCheck.toJson_injective.list_map
  cases a
  cases b
  simp only [toJson, Json.remove, Json.nat, List.filter_cons, List.filter_nil] at h
  simp [hfork.eq_iff, hchecks.eq_iff, Int.natCast_inj] at h hdigest ⊢
  tauto

end GitHubActionDigest

/-! ### How the parts of a plan agree -/

/-- What the two actions have in common. -/
structure ActionsAgree (push draft : GitHubActionDigest) : Prop where
  runId : push.runId = draft.runId
  repository : push.repository = draft.repository
  issueNumber : push.issueNumber = draft.issueNumber
  baseSha : push.baseSha = draft.baseSha
  headSha : push.headSha = draft.headSha
  fork : push.fork = draft.fork
  branch : push.branch = draft.branch
  prTitleDigest : push.prTitleDigest = draft.prTitleDigest
  prBodyDigest : push.prBodyDigest = draft.prBodyDigest
  diffDigest : push.diffDigest = draft.diffDigest
  requiredChecks : push.requiredChecks = draft.requiredChecks
  runEnvelopeDigest : push.runEnvelopeDigest = draft.runEnvelopeDigest
  candidateDecisionDigest : push.candidateDecisionDigest = draft.candidateDecisionDigest
  governanceDecisionDigest : push.governanceDecisionDigest = draft.governanceDecisionDigest
  reviewerIndependenceDigest : push.reviewerIndependenceDigest = draft.reviewerIndependenceDigest

theorem actionsAgree_of_identity {push draft : GitHubActionDigest}
    (h : push.identity = draft.identity) : ActionsAgree push draft := by
  cases push
  cases draft
  simp only [GitHubActionDigest.identity, GitHubActionDigest.mk.injEq] at h
  constructor <;> simp only [h]

/-- The checks of a list have different names, which make up a set, and each is successful on a
head. -/
structure ChecksPass (checks : List RequiredCheck) (names : Finset String) (headSha : String) :
    Prop where
  nodup : (checks.map RequiredCheck.name).Nodup
  names : (checks.map RequiredCheck.name).toFinset = names
  success : ∀ check ∈ checks, check.conclusion = "success"
  head : ∀ check ∈ checks, check.headSha = headSha

/-- An item of an array of checks has a name, and is successful on a head. -/
def IsCheck (headSha : String) (item : Json) (name : String) : Prop :=
  jsonString item ["name"] = .ok name ∧ jsonString item ["conclusion"] = .ok "success" ∧
    jsonString item ["head_sha"] = .ok headSha

/-- The envelope, the governance decision and the two actions name the same checks, none of them
twice, and all are successful on the head. -/
structure ChecksAgree (authority : AuthorityBundle) (push draft : GitHubActionDigest)
    (names : Finset String) : Prop where
  pushChecks : ChecksPass push.requiredChecks names push.headSha
  draftChecks : ChecksPass draft.requiredChecks names push.headSha
  envelope : ∃ required, jsonAt authority.runEnvelope ["routing", "required_checks"] =
    .ok (.strs required) ∧ required.Nodup ∧ required.toFinset = names
  governance : ∃ items required, jsonAt authority.governanceDecision ["required_checks"] =
    .ok (.arr items) ∧ List.Forall₂ (IsCheck push.headSha) items required ∧ required.Nodup ∧
      required.toFinset = names

/-- The documents are about the run, the repository, the issue and the commits of an action. -/
structure DocumentsAgree (authority : AuthorityBundle) (action : GitHubActionDigest) : Prop where
  runId : ∀ document ∈ [authority.runEnvelope, authority.candidateDecision,
    authority.governanceDecision, authority.reviewerIndependence],
      jsonString document ["run_id"] = .ok action.runId
  envelopeRepository : jsonString authority.runEnvelope ["trigger", "repository"] =
    .ok action.repository
  candidateRepository : jsonString authority.candidateDecision ["repository"] =
    .ok action.repository
  governanceRepository : jsonString authority.governanceDecision ["repository"] =
    .ok action.repository
  issueNumber : jsonU64 authority.candidateDecision ["issue_number"] = .ok action.issueNumber
  triggerBase : jsonString authority.runEnvelope ["trigger", "pinned_base_commit"] =
    .ok action.baseSha
  routingBase : jsonString authority.runEnvelope ["routing", "pinned_base_commit"] =
    .ok action.baseSha
  candidateBase : jsonString authority.candidateDecision ["base_sha"] = .ok action.baseSha
  governanceBase : jsonString authority.governanceDecision ["base_sha"] = .ok action.baseSha
  governanceHead : jsonString authority.governanceDecision ["head_sha"] = .ok action.headSha
  subject : jsonString authority.reviewerIndependence ["subject_digest"] = .ok action.diffDigest

/-- The selected issue passes every predicate. -/
structure Eligible (candidate : Json) : Prop where
  selected : jsonString candidate ["decision"] = .ok "selected"
  predicates : ∀ field ∈ requiredPredicates,
    jsonBool candidate ["eligibility", field] = .ok true
  security : jsonBool candidate ["eligibility", "security_sensitive"] = .ok false

/-- The decisions, each with the member that says when it was made. -/
def AuthorityBundle.decisions (authority : AuthorityBundle) : List (Json × String) :=
  [(authority.candidateDecision, "decided_at"), (authority.governanceDecision, "decided_at"),
    (authority.reviewerIndependence, "reviewed_at")]

section

variable [Platform]

/-- A document has the digest of the rest of it as one of its members. -/
def Digested (document : Json) (digestField digest : String) : Prop :=
  jsonString document [digestField] = .ok digest ∧
    canonicalJsonSha256 (document.remove digestField) = digest

/-- An action names the digests of the documents. -/
structure DocumentsDigested (authority : AuthorityBundle) (action : GitHubActionDigest) : Prop where
  envelope : Digested authority.runEnvelope "canonical_digest" action.runEnvelopeDigest
  candidate : Digested authority.candidateDecision "decision_digest" action.candidateDecisionDigest
  governance : Digested authority.governanceDecision "decision_digest"
    action.governanceDecisionDigest
  reviewer : Digested authority.reviewerIndependence "review_digest"
    action.reviewerIndependenceDigest

def HasTime (document : Json) (field : String) (time : DateTime) : Prop :=
  ∃ text, jsonString document [field] = .ok text ∧ parseRfc3339 text = some time

/-- The envelope, the decisions, the approval of an action, the present and the ends of the approval
and of the envelope follow each other. -/
def TimesInOrder (authority : AuthorityBundle) (action : GitHubActionDigest) (now : DateTime) :
    Prop :=
  ∃ created approved expires expiry, HasTime authority.runEnvelope "created_at" created ∧
    parseRfc3339 action.approvedAt = some approved ∧
    parseRfc3339 action.expiresAt = some expires ∧
    HasTime authority.runEnvelope "expires_at" expiry ∧
    (∀ decision ∈ authority.decisions, ∃ decided, HasTime decision.1 decision.2 decided ∧
      created ≤ decided ∧ decided ≤ approved) ∧
    approved ≤ now ∧ now < expires ∧ expires ≤ expiry

/-- The parts of a plan agree with each other, with the digests that were expected and with the
time. -/
structure FullyBound (plan : PublicationPlan) (expectedPush expectedDraft : String)
    (now : DateTime) : Prop where
  schemaVersion : plan.schemaVersion = publicationPlanSchema
  producer : plan.architectureContractCommit = architectureContractCommit
  actions : ActionsAgree plan.pushAction plan.draftAction
  title : sha256Text plan.draft.title = plan.pushAction.prTitleDigest
  body : sha256Text plan.draft.body = plan.pushAction.prBodyDigest
  pushDigest : plan.pushAction.actionDigest = expectedPush
  draftDigest : plan.draftAction.actionDigest = expectedDraft
  digested : ∀ action ∈ [plan.pushAction, plan.draftAction],
    DocumentsDigested plan.authority action
  documents : ∀ action ∈ [plan.pushAction, plan.draftAction], DocumentsAgree plan.authority action
  checks : ∃ names, ChecksAgree plan.authority plan.pushAction plan.draftAction names
  eligible : Eligible plan.authority.candidateDecision
  times : ∀ action ∈ [plan.pushAction, plan.draftAction], TimesInOrder plan.authority action now

/-! ### What each check says -/

omit [Platform] in
theorem validateActionChecks_eq_ok {headSha : String} {seen : List String}
    {checks : List RequiredCheck} (h : validateActionChecks headSha seen checks = .ok ()) :
    (checks.map RequiredCheck.name).Nodup ∧
      (∀ check ∈ checks, check.name ∉ seen) ∧
      ∀ check ∈ checks, check.conclusion = "success" ∧ check.headSha = headSha := by
  induction checks generalizing seen with
  | nil => simp
  | cons check checks ih =>
    simp only [validateActionChecks, ↓seq_eq_ok, bailIf_eq_ok, not_or, not_not] at h
    obtain ⟨-, ⟨hsuccess, hhead, hseen⟩, hrest⟩ := h
    obtain ⟨hnodup, hnot, hpass⟩ := ih hrest
    refine ⟨?_, ?_, ?_⟩
    · rw [List.map_cons, List.nodup_cons]
      refine ⟨?_, hnodup⟩
      intro hmem
      obtain ⟨other, hother, hname⟩ := List.mem_map.mp hmem
      exact hnot other hother (hname ▸ List.mem_cons_self)
    · intro c hc
      rcases List.mem_cons.mp hc with rfl | hc
      · exact hseen
      · exact fun hmem => hnot c hc (List.mem_cons_of_mem _ hmem)
    · intro c hc
      rcases List.mem_cons.mp hc with rfl | hc
      · exact ⟨hsuccess, hhead⟩
      · exact hpass c hc

theorem validateWindow_eq_ok {action : GitHubActionDigest} {now : DateTime} :
    validateWindow action now = .ok () ↔
      ∃ approved expires, parseRfc3339 action.approvedAt = some approved ∧
        parseRfc3339 action.expiresAt = some expires ∧ approved ≤ now ∧ now < expires ∧
        secondsBetween approved expires ≤ 24 * 60 * 60 := by
  simp only [validateWindow, parseTime, bind_eq_ok, orContext_eq_ok, bailIf_eq_ok, not_or, not_lt,
    not_le]
  constructor
  · rintro ⟨approved, ha, expires, he, h1, h2, -, h4⟩
    exact ⟨approved, expires, ha, he, h1, h2, h4⟩
  · rintro ⟨approved, expires, ha, he, h1, h2, h4⟩
    exact ⟨approved, ha, expires, he, h1, h2, lt_of_le_of_lt h1 h2, h4⟩

/-- What an accepted action is known to be. -/
structure ActionValid (action : GitHubActionDigest) (expectedAction expectedDigest : String)
    (now : DateTime) : Prop where
  operation : action.action = expectedAction
  fork : ∃ fork owner repo upstreamOwner, action.fork = some fork ∧
    splitRepository fork = .ok (owner, repo) ∧
    splitRepository action.repository = .ok (upstreamOwner, repo)
  checks : validateActionChecks action.headSha [] action.requiredChecks = .ok ()
  window : validateWindow action now = .ok ()
  digest : canonicalJsonSha256 (action.toJson.remove "action_digest") = action.actionDigest
  expected : action.actionDigest = expectedDigest

theorem validateAction_eq_ok {action : GitHubActionDigest} {expectedAction expectedDigest : String}
    {now : DateTime} (h : validateAction action expectedAction expectedDigest now = .ok ()) :
    ActionValid action expectedAction expectedDigest now := by
  unfold validateAction validateActionDigest at h
  simp only [↓seq_eq_ok, bind_eq_ok, bailIf_eq_ok, orContext_eq_ok, not_or, not_not] at h
  obtain ⟨⟨-, haction⟩, -, -, fork, hfork, ⟨owner, repo⟩, hsplit, ⟨upstreamOwner, upstream⟩,
    hupstream, ⟨-, hrepo⟩, -, -, -, -, -, hchecks, hwindow, hdigest, hexpected⟩ := h
  have hrepo : repo = upstream := hrepo
  subst hrepo
  exact ⟨haction, ⟨fork, owner, repo, upstreamOwner, hfork, hsplit, hupstream⟩, hchecks, hwindow,
    hdigest, hdigest.symm.trans hexpected⟩

theorem validateAuthorityDigest_eq_ok {document : Json} {schema digestField digest : String}
    (h : validateAuthorityDigest document schema digestField = .ok ())
    (hread : jsonString document [digestField] = .ok digest) :
    Digested document digestField digest := by
  unfold validateAuthorityDigest at h
  simp only [↓seq_eq_ok, bind_eq_ok, bailIf_eq_ok, not_or, not_not] at h
  obtain ⟨-, expected, hexpected, -, -, hdigest⟩ := h
  rw [hread] at hexpected
  cases hexpected
  exact ⟨hread, hdigest⟩

theorem documentTime_eq_ok {name field : String} {document : Json} {time : DateTime} :
    documentTime name document field = .ok time ↔ HasTime document field time := by
  simp only [documentTime, parseTime, bind_eq_ok, orContext_eq_ok, HasTime]

theorem validateTimes_eq_ok {authority : AuthorityBundle} {push draft : GitHubActionDigest}
    {now : DateTime} (h : validateTimes authority push draft = .ok ())
    (hpush : validateWindow push now = .ok ()) (hdraft : validateWindow draft now = .ok ()) :
    ∀ action ∈ [push, draft], TimesInOrder authority action now := by
  simp only [validateTimes, ↓seq_eq_ok, bind_eq_ok, bailIf_eq_ok, forM_eq_ok, mapM_eq_ok,
    documentTime_eq_ok, parseTime, orContext_eq_ok] at h
  obtain ⟨created, hcreated, times, htimes, hafter, hbefore, expiry, hexpiry, pushExpires,
    hpushExpires, hpushLe, draftExpires, hdraftExpires, hdraftLe⟩ := h
  have hdecisions : ∀ decision ∈ authority.decisions, ∃ decided ∈ times,
      HasTime decision.1 decision.2 decided := by
    intro decision hmem
    obtain ⟨i, hi, hget⟩ := List.getElem_of_mem hmem
    have hlen := htimes.length_eq
    have hi' : i < times.length := hlen ▸ hi
    refine ⟨times[i], List.getElem_mem hi', ?_⟩
    have := htimes.get hi hi'
    rw [← hget]
    exact this
  have hcreatedLe : ∀ time ∈ times, created ≤ time := by
    intro time hmem
    by_contra hlt
    exact hafter (List.any_eq_true.mpr ⟨time, hmem, decide_eq_true (not_le.mp hlt)⟩)
  intro action haction
  have hwindow : validateWindow action now = .ok () := by
    rcases List.mem_pair.mp haction with rfl | rfl
    · exact hpush
    · exact hdraft
  obtain ⟨approved, expires, happroved, hexpires, hle, hlt, -⟩ := validateWindow_eq_ok.mp hwindow
  obtain ⟨approved', happroved', hbounds⟩ := hbefore action haction
  rw [happroved] at happroved'
  cases happroved'
  rw [not_or] at hbounds
  refine ⟨created, approved, expires, expiry, hcreated, happroved, hexpires, hexpiry, ?_, hle, hlt,
    ?_⟩
  · intro decision hdecision
    obtain ⟨decided, hmem, htime⟩ := hdecisions decision hdecision
    refine ⟨decided, htime, hcreatedLe decided hmem, ?_⟩
    by_contra hlt
    exact hbounds.2 (List.any_eq_true.mpr ⟨decided, hmem, decide_eq_true (not_le.mp hlt)⟩)
  · rcases List.mem_pair.mp haction with rfl | rfl
    · rw [hexpires] at hpushExpires
      cases hpushExpires
      exact not_lt.mp hpushLe
    · rw [hexpires] at hdraftExpires
      cases hdraftExpires
      exact not_lt.mp hdraftLe

theorem validateDigestBinding_eq_ok {authority : AuthorityBundle} {action : GitHubActionDigest}
    (henvelope : validateAuthorityDigest authority.runEnvelope runEnvelopeSchema
      "canonical_digest" = .ok ())
    (hcandidate : validateAuthorityDigest authority.candidateDecision candidateSchema
      "decision_digest" = .ok ())
    (hgovernance : validateAuthorityDigest authority.governanceDecision governanceSchema
      "decision_digest" = .ok ())
    (hreviewer : validateAuthorityDigest authority.reviewerIndependence reviewerSchema
      "review_digest" = .ok ())
    (h : validateDigestBinding authority action = .ok ()) : DocumentsDigested authority action := by
  simp only [validateDigestBinding, ↓seq_eq_ok, expectRead_eq_ok] at h
  obtain ⟨h1, h2, h3, h4⟩ := h
  exact ⟨validateAuthorityDigest_eq_ok henvelope h1, validateAuthorityDigest_eq_ok hcandidate h2,
    validateAuthorityDigest_eq_ok hgovernance h3, validateAuthorityDigest_eq_ok hreviewer h4⟩

omit [Platform] in
theorem validateRunBinding_eq_ok {authority : AuthorityBundle} {push : GitHubActionDigest}
    (h : validateRunBinding authority push = .ok ()) :
    ∀ document ∈ [authority.runEnvelope, authority.candidateDecision,
      authority.governanceDecision, authority.reviewerIndependence],
        jsonString document ["run_id"] = .ok push.runId := by
  simp only [validateRunBinding, bind_eq_ok, bailIf_eq_ok] at h
  obtain ⟨envelope, h1, candidate, h2, governance, h3, reviewer, h4, hall⟩ := h
  simp only [List.any_cons, List.any_nil, Bool.or_false, Bool.or_eq_true, decide_eq_true_eq, not_or,
    not_not] at hall
  obtain ⟨rfl, rfl, rfl, rfl⟩ := hall
  simp [h1, h2, h3, h4]

omit [Platform] in
theorem documentsAgree_of_bindings {authority : AuthorityBundle} {push : GitHubActionDigest}
    (hrun : validateRunBinding authority push = .ok ())
    (hcandidate : validateCandidateBinding authority push = .ok ())
    (hcommit : validateCommitBinding authority push = .ok ())
    (hreview : validateReviewBinding authority push = .ok ()) : DocumentsAgree authority push := by
  simp only [validateCandidateBinding, ↓seq_eq_ok, expectRead_eq_ok] at hcandidate
  simp only [validateCommitBinding, ↓seq_eq_ok, expectRead_eq_ok, forM_eq_ok, List.forall_mem_cons]
    at hcommit
  simp only [validateReviewBinding, ↓seq_eq_ok, expectRead_eq_ok] at hreview
  obtain ⟨h1, h2, h3, h4, -⟩ := hcandidate
  obtain ⟨⟨h5, h6, -⟩, h7, h8, h9⟩ := hcommit
  exact ⟨validateRunBinding_eq_ok hrun, h1, h2, h3, h4, h5, h6, h7, h8, h9, hreview.1⟩

omit [Platform] in
/-- Documents that agree with an action agree with another one of the same publication. -/
theorem DocumentsAgree.congr {authority : AuthorityBundle} {push draft : GitHubActionDigest}
    (h : DocumentsAgree authority push) (hagree : ActionsAgree push draft) :
    DocumentsAgree authority draft := by
  obtain ⟨h1, h2, h3, h4, h5, h6, h7, h8, h9, h10, h11⟩ := h
  rw [hagree.repository] at h2 h3 h4
  rw [hagree.baseSha] at h6 h7 h8 h9
  refine ⟨?_, h2, h3, h4, hagree.issueNumber ▸ h5, h6, h7, h8, h9, hagree.headSha ▸ h10,
    hagree.diffDigest ▸ h11⟩
  intro document hmem
  rw [← hagree.runId]
  exact h1 document hmem

omit [Platform] in
theorem validateEligibility_eq_ok {authority : AuthorityBundle}
    (h : validateEligibility authority = .ok ())
    (hselected : jsonString authority.candidateDecision ["decision"] = .ok "selected") :
    Eligible authority.candidateDecision := by
  simp only [validateEligibility, ↓seq_eq_ok, expectRead_eq_ok, forM_eq_ok] at h
  exact ⟨hselected, h.1, h.2⟩

/-! ### The checks that the documents name -/

omit [Platform] in
theorem nodup_of_card_toFinset {l : List String} (h : l.toFinset.card = l.length) : l.Nodup := by
  rw [List.card_toFinset] at h
  rw [← List.dedup_eq_self]
  exact (List.dedup_sublist l).eq_of_length h

omit [Platform] in
theorem jsonChecks_eq_ok {document : Json} {path : List String} {items : List Json}
    {names : Finset String} {headSha : String} (h : jsonChecks document path = .ok names)
    (hitems : jsonAt document path = .ok (.arr items))
    (hhead : jsonString document ["head_sha"] = .ok headSha) :
    ∃ required, List.Forall₂ (IsCheck headSha) items required ∧ required.toFinset = names := by
  simp only [jsonChecks, bind_eq_ok, orContext_eq_ok, hitems, hhead] at h
  obtain ⟨_, hvalue, _, harr, required, hrequired, hnames⟩ := h
  cases hvalue
  cases harr
  refine ⟨required, ?_, by cases hnames; rfl⟩
  rw [mapM_eq_ok] at hrequired
  refine hrequired.imp ?_
  intro item name hitem
  simp only [bind_eq_ok, ↓seq_eq_ok, bailIf_eq_ok, not_not] at hitem
  obtain ⟨conclusion, hconclusion, hsuccess, checkHead, hcheckHead, head, hread, hhead', hname⟩ :=
    hitem
  cases hread
  subst hsuccess
  subst hhead'
  exact ⟨hname, hconclusion, hcheckHead⟩

omit [Platform] in
theorem mapM_eq_some {α β : Type} {f : α → Option β} {l : List α} {bs : List β} :
    l.mapM f = some bs ↔ List.Forall₂ (fun a b => f a = some b) l bs := by
  induction l generalizing bs with
  | nil => cases bs <;> simp
  | cons a l ih =>
    rw [List.mapM_cons]
    simp only [Option.bind_eq_bind, Option.bind_eq_some_iff, Option.pure_def, Option.some.injEq, ih]
    constructor
    · rintro ⟨b, hb, bs', hbs, rfl⟩
      exact .cons hb hbs
    · rintro (_ | ⟨hb, hbs⟩)
      exact ⟨_, hb, _, hbs, rfl⟩

omit [Platform] in
theorem structFields_obj {names : List String} {members : List (String × Json)} {fields : List Json}
    (h : structFields names (.obj members) = some fields) :
    List.Forall₂ (fun name field => members.lookup name = some field) names fields := by
  rw [structFields] at h
  split at h
  · exact mapM_eq_some.mp h
  · cases h

omit [Platform] in
theorem decodeRouting_requiredChecks {value : Json} {routing : RoutingContract}
    {checks : Json} (h : decodeRouting value = some routing)
    (hchecks : value.get? "required_checks" = some checks) :
    checks.strs? = some routing.requiredChecks := by
  cases value with
  | obj members =>
    unfold decodeRouting at h
    simp only [Option.bind_eq_bind, Option.bind_eq_some_iff] at h
    obtain ⟨fields, hfields, h⟩ := h
    have hall := structFields_obj hfields
    rcases hall with _ | ⟨h1, _ | ⟨h2, _ | ⟨h3, _ | ⟨h4, _ | ⟨h5, _ | ⟨h6, _ | _⟩⟩⟩⟩⟩⟩
    simp only [Option.bind_eq_some_iff] at h
    obtain ⟨_, -, _, -, _, -, _, -, required, hrequired, h⟩ := h
    cases h
    rw [Json.get?, h6] at hchecks
    cases hchecks
    exact hrequired
  | _ => cases hchecks

omit [Platform] in
theorem decodeRunEnvelope_routing {value : Json} {envelope : RunEnvelopeContract}
    {routing : Json} (h : decodeRunEnvelope value = some envelope)
    (hrouting : value.get? "routing" = some routing) :
    decodeRouting routing = some envelope.routing := by
  cases value with
  | obj members =>
    unfold decodeRunEnvelope at h
    obtain ⟨fields, hfields, h⟩ := Option.bind_eq_some_iff.mp h
    have hall := structFields_obj hfields
    rcases hall with _ | ⟨h1, _ | ⟨h2, _ | ⟨h3, _ | ⟨h4, _ | ⟨h5, _ | ⟨h6, _ | ⟨h7, _ | ⟨h8, _ | ⟨h9, _ |
      ⟨h10, _ | ⟨h11, _ | ⟨h12, _ | ⟨h13, _ | ⟨h14, _ | ⟨h15, _ | _⟩⟩⟩⟩⟩⟩⟩⟩⟩⟩⟩⟩⟩⟩⟩
    iterate 7 obtain ⟨_, -, h⟩ := Option.bind_eq_some_iff.mp h
    obtain ⟨decoded, hdecoded, h⟩ := Option.bind_eq_some_iff.mp h
    iterate 6 obtain ⟨_, -, h⟩ := Option.bind_eq_some_iff.mp h
    cases h
    rw [Json.get?, h8] at hrouting
    cases hrouting
    exact hdecoded
  | _ => cases hrouting
omit [Platform] in
theorem str?_eq_some {value : Json} {text : String} (h : value.str? = some text) :
    value = .str text := by
  cases value with
  | str s => rw [Option.some.inj h]
  | _ => cases h

omit [Platform] in
theorem strs?_eq_some {value : Json} {texts : List String} (h : value.strs? = some texts) :
    value = .strs texts := by
  cases value with
  | arr items =>
    have hall : List.Forall₂ (fun item text => item.str? = some text) items texts := mapM_eq_some.mp h
    rw [Json.strs, Json.arr.injEq]
    clear h
    induction hall with
    | nil => rfl
    | cons hitem _ ih =>
      rw [List.map_cons, ← ih, List.cons.injEq]
      exact ⟨str?_eq_some hitem, rfl⟩
  | _ => cases h

omit [Platform] in
theorem jsonStrings_strs {document : Json} {path : List String} {names : Finset String}
    {texts : List String} (h : jsonStrings document path = .ok names)
    (hread : jsonAt document path = .ok (.strs texts)) : texts.toFinset = names := by
  simp only [jsonStrings, bind_eq_ok, orContext_eq_ok, hread, Json.strs, Json.arr?, mapM_eq_ok] at h
  obtain ⟨_, hvalue, items, hitems, texts', htexts, hnames⟩ := h
  cases hvalue
  cases hitems
  have : texts = texts' := by
    clear hread hnames
    rw [List.forall₂_map_left_iff] at htexts
    exact List.forall₂_eq_eq_eq ▸ htexts.imp fun a b hab => Option.some.inj hab
  subst this
  cases hnames
  rfl

theorem validateEnvelopeContract_requiredChecks {envelope : RunEnvelopeContract}
    (h : validateEnvelopeContract envelope = .ok ()) : envelope.routing.requiredChecks.Nodup := by
  unfold validateEnvelopeContract at h
  simp only [↓seq_eq_ok] at h
  obtain ⟨-, -, -, -, -, -, -, -, -, -, -, -, -, -, -, -, -, -, -, hchecks, -⟩ := h
  exact validateStringArray_nodup hchecks

theorem envelope_requiredChecks {authority : AuthorityBundle} {names : Finset String}
    (hcontracts : validateFullAuthorityContracts authority = .ok ())
    (hread : jsonStrings authority.runEnvelope ["routing", "required_checks"] = .ok names) :
    ∃ required, jsonAt authority.runEnvelope ["routing", "required_checks"] =
      .ok (.strs required) ∧ required.Nodup ∧ required.toFinset = names := by
  unfold validateFullAuthorityContracts at hcontracts
  simp only [↓seq_eq_ok, bind_eq_ok, orContext_eq_ok] at hcontracts
  obtain ⟨envelope, hdecoded, _, -, _, -, _, -, henvelope, -⟩ := hcontracts
  have hat : ∃ value, jsonAt authority.runEnvelope ["routing", "required_checks"] = .ok value := by
    simp only [jsonStrings, bind_eq_ok] at hread
    obtain ⟨value, hvalue, -⟩ := hread
    exact ⟨value, hvalue⟩
  obtain ⟨value, hvalue⟩ := hat
  have hpath := hvalue
  simp only [jsonAt, bind_eq_ok, orContext_eq_ok] at hpath
  obtain ⟨routing, hrouting, checks, hchecks, hlast⟩ := hpath
  cases hlast
  have hstrs := decodeRouting_requiredChecks (decodeRunEnvelope_routing hdecoded hrouting) hchecks
  rw [strs?_eq_some hstrs] at hvalue
  exact ⟨_, hvalue, validateEnvelopeContract_requiredChecks henvelope, jsonStrings_strs hread hvalue⟩

theorem validateCheckBinding_eq_ok {authority : AuthorityBundle} {push draft : GitHubActionDigest}
    (hcontracts : validateFullAuthorityContracts authority = .ok ())
    (hhead : jsonString authority.governanceDecision ["head_sha"] = .ok push.headSha)
    (hpush : validateActionChecks push.headSha [] push.requiredChecks = .ok ())
    (h : validateCheckBinding authority push draft = .ok ()) :
    ChecksAgree authority push draft (push.requiredChecks.map RequiredCheck.name).toFinset := by
  unfold validateCheckBinding at h
  simp only [bind_eq_ok, bailIf_eq_ok, orContext_eq_ok, not_or, not_not] at h
  obtain ⟨expected, hexpected, value, hvalue, items, hitems, governance, hgovernance, rfl, rfl,
    hlength, hdraft⟩ := h
  have hvalue : jsonAt authority.governanceDecision ["required_checks"] = .ok (.arr items) := by
    cases value with
    | arr _ => rw [hvalue, Option.some.inj hitems]
    | _ => cases hitems
  obtain ⟨required, hall, hnames⟩ := jsonChecks_eq_ok hgovernance hvalue hhead
  have hpass : ChecksPass push.requiredChecks
      (push.requiredChecks.map RequiredCheck.name).toFinset push.headSha := by
    obtain ⟨hnodup, -, hpass⟩ := validateActionChecks_eq_ok hpush
    exact ⟨hnodup, rfl, fun check hmem => (hpass check hmem).1, fun check hmem =>
      (hpass check hmem).2⟩
  have hnodup : required.Nodup := by
    apply nodup_of_card_toFinset
    rw [hnames, ← hlength, hall.length_eq]
  exact ⟨hpass, hdraft ▸ hpass, envelope_requiredChecks hcontracts hexpected,
    ⟨items, required, hvalue, hall, hnodup, hnames⟩⟩

/-! ### Accepted plans -/

/-- The parts of an accepted plan agree. -/
theorem validatePlan_fullyBound {plan : PublicationPlan} {expectedPush expectedDraft : String}
    {now : DateTime} (h : validatePlan plan expectedPush expectedDraft now = .ok ()) :
    FullyBound plan expectedPush expectedDraft now := by
  unfold validatePlan at h
  simp only [↓seq_eq_ok, bailIf_eq_ok, not_not, not_or] at h
  obtain ⟨-, hschema, hproducer, hauthority, hpushAction, hdraftAction, -, hidentity, -, -, htitle,
    hbody⟩ := h
  have hagree := actionsAgree_of_identity hidentity
  have hpush := validateAction_eq_ok hpushAction
  have hdraft := validateAction_eq_ok hdraftAction
  simp only [validateAuthority, ↓seq_eq_ok, forM_eq_ok] at hauthority
  obtain ⟨henvelope, hcandidate, hgovernance, hreviewer, hcontracts, hdigests, hrun, hselected,
    heligible, hcommit, -, -, -, hchecks, hreview, htimes⟩ := hauthority
  have hdocuments := documentsAgree_of_bindings hrun hselected hcommit hreview
  refine ⟨hschema, hproducer, hagree, htitle, hbody, hpush.expected, hdraft.expected, ?_, ?_, ?_, ?_,
    ?_⟩
  · intro action hmem
    exact validateDigestBinding_eq_ok henvelope hcandidate hgovernance hreviewer
      (hdigests action hmem)
  · intro action hmem
    rcases List.mem_pair.mp hmem with rfl | rfl
    · exact hdocuments
    · exact hdocuments.congr hagree
  · exact ⟨_, validateCheckBinding_eq_ok hcontracts hdocuments.governanceHead hpush.checks hchecks⟩
  · simp only [validateCandidateBinding, ↓seq_eq_ok, expectRead_eq_ok] at hselected
    exact validateEligibility_eq_ok heligible hselected.2.2.2.2
  · exact validateTimes_eq_ok htimes hpush.window hdraft.window

/-- The digests that an accepted plan has are those of its actions. -/
theorem validatePlan_actionDigest {plan : PublicationPlan} {expectedPush expectedDraft : String}
    {now : DateTime} (h : validatePlan plan expectedPush expectedDraft now = .ok ()) :
    ∀ action ∈ [plan.pushAction, plan.draftAction],
      canonicalJsonSha256 (action.toJson.remove "action_digest") = action.actionDigest := by
  unfold validatePlan at h
  simp only [↓seq_eq_ok] at h
  obtain ⟨-, -, -, -, hpushAction, hdraftAction, -⟩ := h
  intro action hmem
  rcases List.mem_pair.mp hmem with rfl | rfl
  · exact (validateAction_eq_ok hpushAction).digest
  · exact (validateAction_eq_ok hdraftAction).digest

/-- The parts of a publication plan. The common part of the two actions is one of them, and so is
each action with the operation and the window that are its own. -/
inductive PlanPart where
  | runEnvelope | candidateDecision | governanceDecision | reviewerIndependence | title | body
  | common | pushAction | draftAction

namespace PlanPart

/-- Two plans have the part in common. -/
def Same (p q : PublicationPlan) : PlanPart → Prop
  | runEnvelope => p.authority.runEnvelope = q.authority.runEnvelope
  | candidateDecision => p.authority.candidateDecision = q.authority.candidateDecision
  | governanceDecision => p.authority.governanceDecision = q.authority.governanceDecision
  | reviewerIndependence => p.authority.reviewerIndependence = q.authority.reviewerIndependence
  | title => p.draft.title = q.draft.title
  | body => p.draft.body = q.draft.body
  | common => p.pushAction.identity = q.pushAction.identity
  | pushAction => p.pushAction = q.pushAction
  | draftAction => p.draftAction = q.draftAction

/-- The digests that depend on a part: the one of the part, as both actions name it, then those of
the actions and the expected ones. -/
def digests (plan : PublicationPlan) (expectedPush expectedDraft : String) : PlanPart → List String
  | runEnvelope => [plan.pushAction.runEnvelopeDigest, plan.draftAction.runEnvelopeDigest] ++ all
  | candidateDecision =>
    [plan.pushAction.candidateDecisionDigest, plan.draftAction.candidateDecisionDigest] ++ all
  | governanceDecision =>
    [plan.pushAction.governanceDecisionDigest, plan.draftAction.governanceDecisionDigest] ++ all
  | reviewerIndependence =>
    [plan.pushAction.reviewerIndependenceDigest, plan.draftAction.reviewerIndependenceDigest] ++ all
  | title => [plan.pushAction.prTitleDigest, plan.draftAction.prTitleDigest] ++ all
  | body => [plan.pushAction.prBodyDigest, plan.draftAction.prBodyDigest] ++ all
  | common => all
  | pushAction => [plan.pushAction.actionDigest, expectedPush]
  | draftAction => [plan.draftAction.actionDigest, expectedDraft]
where
  all : List String :=
    [plan.pushAction.actionDigest, plan.draftAction.actionDigest, expectedPush, expectedDraft]

end PlanPart

/-! ### Digests tell the parts of plans apart -/

omit [Platform] in
theorem get?_of_jsonString {document : Json} {field text : String}
    (h : jsonString document [field] = .ok text) : document.get? field = some (.str text) := by
  simp only [jsonString, jsonAt, bind_eq_ok, orContext_eq_ok] at h
  obtain ⟨_, ⟨value, hvalue, hlast⟩, htext⟩ := h
  cases hlast
  rw [hvalue, str?_eq_some htext]

/-- Documents with one digest are one document. -/
theorem Digested.unique (hinj : Function.Injective sha256Json) {a b : Json} {field digest : String}
    (ha : Digested a field digest) (hb : Digested b field digest) (haord : a.ordered = true)
    (hbord : b.ordered = true) : a = b := by
  refine Json.eq_of_remove_eq haord hbord (get?_of_jsonString ha.1) (get?_of_jsonString hb.1) ?_
  have heq := hinj (ha.2.trans hb.2.symm)
  rwa [Json.canonicalize_eq_self (Json.ordered_remove haord),
    Json.canonicalize_eq_self (Json.ordered_remove hbord)] at heq

/-- Actions with one digest are one action. -/
theorem GitHubActionDigest.unique (hinj : Function.Injective sha256Json) {a b : GitHubActionDigest}
    (ha : canonicalJsonSha256 (a.toJson.remove "action_digest") = a.actionDigest)
    (hb : canonicalJsonSha256 (b.toJson.remove "action_digest") = b.actionDigest)
    (h : a.actionDigest = b.actionDigest) : a = b := by
  refine eq_of_toJson_remove h ?_
  have heq := hinj (ha.trans (h.trans hb.symm))
  rwa [Json.canonicalize_eq_self (Json.ordered_remove a.ordered_toJson),
    Json.canonicalize_eq_self (Json.ordered_remove b.ordered_toJson)] at heq

theorem validatePlan_identity {plan : PublicationPlan} {expectedPush expectedDraft : String}
    {now : DateTime} (h : validatePlan plan expectedPush expectedDraft now = .ok ()) :
    plan.pushAction.identity = plan.draftAction.identity := by
  unfold validatePlan at h
  simp only [↓seq_eq_ok, bailIf_eq_ok, not_not] at h
  exact h.2.2.2.2.2.2.2.1

section

variable {p q : PublicationPlan} {pushP draftP pushQ draftQ : String} {nowP nowQ : DateTime}
  (hp : validatePlan p pushP draftP nowP = .ok ()) (hq : validatePlan q pushQ draftQ nowQ = .ok ())

include hp hq

theorem pushDigests_of_ne (hjson : Function.Injective sha256Json)
    (h : p.pushAction ≠ q.pushAction) :
    p.pushAction.actionDigest ≠ q.pushAction.actionDigest ∧ pushP ≠ pushQ := by
  have hne : p.pushAction.actionDigest ≠ q.pushAction.actionDigest := by
    intro heq
    exact h (GitHubActionDigest.unique hjson (validatePlan_actionDigest hp _ (by simp))
      (validatePlan_actionDigest hq _ (by simp)) heq)
  rw [← (validatePlan_fullyBound hp).pushDigest, ← (validatePlan_fullyBound hq).pushDigest]
  exact ⟨hne, hne⟩

theorem draftDigests_of_ne (hjson : Function.Injective sha256Json)
    (h : p.draftAction ≠ q.draftAction) :
    p.draftAction.actionDigest ≠ q.draftAction.actionDigest ∧ draftP ≠ draftQ := by
  have hne : p.draftAction.actionDigest ≠ q.draftAction.actionDigest := by
    intro heq
    exact h (GitHubActionDigest.unique hjson (validatePlan_actionDigest hp _ (by simp))
      (validatePlan_actionDigest hq _ (by simp)) heq)
  rw [← (validatePlan_fullyBound hp).draftDigest, ← (validatePlan_fullyBound hq).draftDigest]
  exact ⟨hne, hne⟩

/-- A difference in what the two actions have in common shows in the digests of both. -/
theorem allDigests_of_identity_ne (hjson : Function.Injective sha256Json)
    (h : p.pushAction.identity ≠ q.pushAction.identity) :
    List.Forall₂ (· ≠ ·) (PlanPart.digests.all p pushP draftP)
      (PlanPart.digests.all q pushQ draftQ) := by
  obtain ⟨hpush, hpushExpected⟩ := pushDigests_of_ne hp hq hjson
    fun heq => h (congrArg GitHubActionDigest.identity heq)
  obtain ⟨hdraft, hdraftExpected⟩ := draftDigests_of_ne hp hq hjson fun heq => h <| by
    rw [validatePlan_identity hp, validatePlan_identity hq, heq]
  exact .cons hpush (.cons hdraft (.cons hpushExpected (.cons hdraftExpected .nil)))

/-- A difference in a digest that both actions name shows in the digests of both. -/
theorem digests_of_field_ne (hjson : Function.Injective sha256Json)
    {field : GitHubActionDigest → String} (hfield : ∀ action, field action.identity = field action)
    (h : field p.pushAction ≠ field q.pushAction) :
    List.Forall₂ (· ≠ ·)
      ([field p.pushAction, field p.draftAction] ++ PlanPart.digests.all p pushP draftP)
      ([field q.pushAction, field q.draftAction] ++ PlanPart.digests.all q pushQ draftQ) := by
  have hdraft : field p.draftAction ≠ field q.draftAction := by
    rw [← hfield p.draftAction, ← hfield q.draftAction, ← validatePlan_identity hp,
      ← validatePlan_identity hq, hfield, hfield]
    exact h
  refine .cons h (.cons hdraft (allDigests_of_identity_ne hp hq hjson ?_))
  intro heq
  apply h
  rw [← hfield p.pushAction, ← hfield q.pushAction, heq]

/-- In two accepted plans that differ in a part every digest that depends on it differs. -/
theorem validatePlan_digests (hjson : Function.Injective sha256Json)
    (htext : Function.Injective sha256Text) (part : PlanPart) (h : ¬ part.Same p q) :
    List.Forall₂ (· ≠ ·) (part.digests p pushP draftP) (part.digests q pushQ draftQ) := by
  have boundP := validatePlan_fullyBound hp
  have boundQ := validatePlan_fullyBound hq
  have digestedP := boundP.digested p.pushAction (by simp)
  have digestedQ := boundQ.digested q.pushAction (by simp)
  have orderedP := p.authority.ordered
  have orderedQ := q.authority.ordered
  simp only [List.forall_mem_cons] at orderedP orderedQ
  cases part with
  | runEnvelope =>
    refine digests_of_field_ne hp hq hjson (fun _ => rfl) fun heq => h ?_
    exact digestedP.envelope.unique hjson (heq ▸ digestedQ.envelope) orderedP.1 orderedQ.1
  | candidateDecision =>
    refine digests_of_field_ne hp hq hjson (fun _ => rfl) fun heq => h ?_
    exact digestedP.candidate.unique hjson (heq ▸ digestedQ.candidate) orderedP.2.1 orderedQ.2.1
  | governanceDecision =>
    refine digests_of_field_ne hp hq hjson (fun _ => rfl) fun heq => h ?_
    exact digestedP.governance.unique hjson (heq ▸ digestedQ.governance) orderedP.2.2.1
      orderedQ.2.2.1
  | reviewerIndependence =>
    refine digests_of_field_ne hp hq hjson (fun _ => rfl) fun heq => h ?_
    exact digestedP.reviewer.unique hjson (heq ▸ digestedQ.reviewer) orderedP.2.2.2.1
      orderedQ.2.2.2.1
  | title =>
    refine digests_of_field_ne hp hq hjson (fun _ => rfl) fun heq => h ?_
    exact htext (boundP.title.trans (heq.trans boundQ.title.symm))
  | body =>
    refine digests_of_field_ne hp hq hjson (fun _ => rfl) fun heq => h ?_
    exact htext (boundP.body.trans (heq.trans boundQ.body.symm))
  | common => exact allDigests_of_identity_ne hp hq hjson h
  | pushAction =>
    obtain ⟨haction, hexpected⟩ := pushDigests_of_ne hp hq hjson h
    exact .cons haction (.cons hexpected .nil)
  | draftAction =>
    obtain ⟨haction, hexpected⟩ := draftDigests_of_ne hp hq hjson h
    exact .cons haction (.cons hexpected .nil)

end

/-- **An accepted plan is fully bound.** Its parts agree, and where digests do not collide no part of
it can be another one in an accepted plan unless every digest that depends on the part is another
one as well. -/
theorem plan_fullyBound {plan : PublicationPlan} {expectedPush expectedDraft : String}
    {now : DateTime} (h : validatePlan plan expectedPush expectedDraft now = .ok ()) :
    FullyBound plan expectedPush expectedDraft now ∧
      (Function.Injective sha256Json → Function.Injective sha256Text →
        ∀ (other : PublicationPlan) (otherPush otherDraft : String) (otherNow : DateTime),
          validatePlan other otherPush otherDraft otherNow = .ok () →
          ∀ part : PlanPart, ¬ part.Same plan other →
            List.Forall₂ (· ≠ ·) (part.digests plan expectedPush expectedDraft)
              (part.digests other otherPush otherDraft)) :=
  ⟨validatePlan_fullyBound h, fun hjson htext _ _ _ _ hother part hne =>
    validatePlan_digests h hother hjson htext part hne⟩

end

/-! ### A plan -/

/-- The digests that a plan is made with. -/
structure PlanDigests where
  envelope : String
  candidate : String
  governance : String
  reviewer : String
  push : String
  draftAction : String
  title : String
  body : String

def fixtureBase : String := "1111111111111111111111111111111111111111"

def fixtureHead : String := "bbbbbbbbbbbbbbbbbbbbbbbbbbbbbbbbbbbbbbbb"

def fixtureDiff : String :=
  "ffffffffffffffffffffffffffffffffffffffffffffffffffffffffffffffff"

section

variable (forkOwner : String) (digests : PlanDigests)

def fixtureEnvelope : Json :=
  .obj [("budgets", .obj [("clone_count", .num 1), ("publication_count", .num 1), ("repair_count",
    .num 1), ("retry_count", .num 1), ("test_runs", .num 2), ("wall_clock_seconds", .num 7200)]),
    ("canonical_digest", .str digests.envelope), ("created_at", .str "2026-07-28T11:30:00Z"),
    ("discovery", .obj [("candidate_limit", .num 10), ("selected_limit", .num 1), ("snapshot_limit",
    .num 50)]), ("expires_at", .str "2026-07-28T13:00:00Z"), ("governance", .obj
    [("allowed_actions", .strs ["push_operator_fork", "open_upstream_draft_pr"]), ("denied_actions",
    .strs ["push_upstream", "open_ready_pr", "mark_ready", "approve_review", "merge",
    "mutate_issue", "publish_release"]), ("ownership_class", .str "external"),
    ("sole_control_auto_merge_opt_in", .bool false)]), ("lineage", .obj [("kind", .str "origin"),
    ("predecessor_digest", .null), ("predecessor_run_id", .null)]), ("loop", .obj [("action", .str
    "Prepare one repair."), ("discovery", .str "Select one authentic bug."), ("goal", .str
    "Repair one bounded issue."), ("human_gates", .str "Require exact action approval."), ("state",
    .str "Persist digest-bound state."), ("trigger", .str "Use the pinned repository."),
    ("verification", .str "Require exact checks.")]), ("predecessor_digest", .null), ("routing",
    .obj [("default_branch", .str "main"), ("fork_owner", .str forkOwner), ("pinned_base_commit",
    .str fixtureBase), ("protected_path_classes", .strs ["workflow"]), ("repair_branch", .str
    "codex/repair-101"), ("required_checks", .strs ["lint", "test"])]), ("run_id", .str
    "repair-run-20260728"), ("schema", .str
    "ao.architecture.autonomous-issue-repair.run-envelope.v1"), ("stop_conditions", .strs
    ["digest_mismatch"]), ("terminal_statuses", .strs ["completed", "blocked"]), ("trigger", .obj
    [("canonical_url", .str "https://github.com/fixture/repair/issues"), ("default_branch", .str
    "main"), ("mode", .str "issue_list"), ("pinned_base_commit", .str fixtureBase), ("repository",
    .str "fixture/repair")])]

def fixtureCandidate : Json :=
  .obj [("base_sha", .str fixtureBase), ("decided_at", .str "2026-07-28T11:45:00Z"), ("decision",
    .str "selected"), ("decision_digest", .str digests.candidate), ("eligibility", .obj
    [("bounded_policy_compatible", .bool true), ("current_head_unfixed", .bool true),
    ("deterministic_local_reproduction", .bool true), ("expected_behavior_grounded", .bool true),
    ("no_existing_fix", .bool true), ("open_bug", .bool true), ("public_reproduction_feasible",
    .bool true), ("security_sensitive", .bool false), ("target_in_repository", .bool true)]),
    ("evidence_digests", .strs
    ["6666666666666666666666666666666666666666666666666666666666666666"]),
    ("expected_behavior_source", .str "tests"), ("issue_number", .num 101), ("rank", .num 1),
    ("reason_codes", .strs ["eligible_all_predicates_passed"]), ("repository", .str
    "fixture/repair"), ("run_id", .str "repair-run-20260728"), ("schema", .str
    "ao.architecture.autonomous-issue-repair.candidate-decision.v1")]

def fixtureGovernance : Json :=
  .obj [("action_digest_required", .bool true), ("base_sha", .str fixtureBase),
    ("classification_sources", .strs ["repository_policy", "operator_envelope"]), ("decided_at",
    .str "2026-07-28T11:50:00Z"), ("decision_digest", .str digests.governance), ("governance_class",
    .str "external"), ("head_sha", .str fixtureHead), ("merge", .obj [("approval_head_sha", .null),
    ("approval_kind", .str "none"), ("authorized", .bool false), ("auto_merge_opt_in", .bool false),
    ("branch_protection_bypassed", .bool false), ("mode", .str "never")]),
    ("protected_path_touched", .bool false), ("pull_request_mode", .str "upstream_draft_only"),
    ("push_target", .str "operator_owned_fork"), ("repository", .str "fixture/repair"),
    ("required_checks", .arr [.obj [("conclusion", .str "success"), ("head_sha", .str fixtureHead),
    ("name", .str "lint")], .obj [("conclusion", .str "success"), ("head_sha", .str fixtureHead),
    ("name", .str "test")]]), ("run_id", .str "repair-run-20260728"), ("schema", .str
    "ao.architecture.autonomous-issue-repair.governance-decision.v1")]

def fixtureReviewer : Json :=
  .obj [("deterministic_tests_primary", .bool true), ("review_digest", .str digests.reviewer),
    ("reviewed_at", .str "2026-07-28T11:55:00Z"), ("reviewer_id", .str "independent-reviewer"),
    ("run_id", .str "repair-run-20260728"), ("satisfies_team_merge_gate", .bool false), ("schema",
    .str "ao.architecture.autonomous-issue-repair.reviewer-independence.v1"), ("status", .str
    "independent"), ("subject_digest", .str fixtureDiff)]

def fixtureAction (operation digest : String) : GitHubActionDigest where
  schema := actionSchema
  runId := "repair-run-20260728"
  repository := "fixture/repair"
  issueNumber := 101
  baseSha := fixtureBase
  headSha := fixtureHead
  fork := some (forkOwner ++ "/repair")
  branch := "codex/repair-101"
  prTitleDigest := digests.title
  prBodyDigest := digests.body
  diffDigest := fixtureDiff
  requiredChecks := [⟨"lint", "success", fixtureHead⟩, ⟨"test", "success", fixtureHead⟩]
  action := operation
  approvedAt := "2026-07-28T12:00:00Z"
  expiresAt := "2026-07-28T13:00:00Z"
  runEnvelopeDigest := digests.envelope
  candidateDecisionDigest := digests.candidate
  governanceDecisionDigest := digests.governance
  reviewerIndependenceDigest := digests.reviewer
  actionDigest := digest

/-- A plan to repair an issue of a repository from the fork of an owner. -/
def fixturePlan : PublicationPlan where
  schemaVersion := publicationPlanSchema
  architectureContractCommit := architectureContractCommit
  authority :=
    { runEnvelope := fixtureEnvelope forkOwner digests
      candidateDecision := fixtureCandidate digests
      governanceDecision := fixtureGovernance digests
      reviewerIndependence := fixtureReviewer digests
      ordered := by
        simp only [List.forall_mem_cons, fixtureEnvelope, fixtureCandidate, fixtureGovernance,
          fixtureReviewer, Json.strs, Json.ordered, Json.orderedMembers, Json.orderedItems, List.map,
          Bool.and_true]
        refine ⟨?_, ?_, ?_, ?_, nofun⟩ <;> decide }
  pushAction := fixtureAction forkOwner digests "push_operator_fork" digests.push
  draftAction := fixtureAction forkOwner digests "open_upstream_draft_pr" digests.draftAction
  draft := ⟨"Fix bounded fixture", "Repairs #101 with exact evidence."⟩

/-- The digests of what the plan consists of. -/
def fixtureDigests : List (Json × String) :=
  [((fixtureEnvelope forkOwner digests).remove "canonical_digest", digests.envelope),
    ((fixtureCandidate digests).remove "decision_digest", digests.candidate),
    ((fixtureGovernance digests).remove "decision_digest", digests.governance),
    ((fixtureReviewer digests).remove "review_digest", digests.reviewer),
    ((fixturePlan forkOwner digests).pushAction.toJson.remove "action_digest", digests.push),
    ((fixturePlan forkOwner digests).draftAction.toJson.remove "action_digest",
      digests.draftAction),
    (.str (fixturePlan forkOwner digests).draft.title, digests.title),
    (.str (fixturePlan forkOwner digests).draft.body, digests.body)]

/-- The dates of the plan, in minutes after the envelope was created. -/
def fixtureDates : List (String × DateTime) :=
  [("2026-07-28T11:30:00Z", minutes 0), ("2026-07-28T11:45:00Z", minutes 15),
    ("2026-07-28T11:50:00Z", minutes 20), ("2026-07-28T11:55:00Z", minutes 25),
    ("2026-07-28T12:00:00Z", minutes 30), ("2026-07-28T13:00:00Z", minutes 90)]

@[reducible] def fixturePlatform : Platform :=
  tablePlatform (fixtureDigests forkOwner digests) fixtureDates

end

def operatorDigests : PlanDigests where
  envelope := "0ac1b36532998a0cec6f9110d54f9722e99447a18321dd67485abde7d91cb08b"
  candidate := "8df68c77acaf34eed072eae594e6c94130db8e390107927eae7a72f6c12cb8d9"
  governance := "db19f13358291d4d82930269bd15e4a8a89565d4389e591f584d87397bdadf3e"
  reviewer := "3af811f4b6e5103161b103e28f70a3f6d3fafc87256557855cc020a4493bb253"
  push := "968358ce764e9c6069344845e3242a25a3b781a970ac99894f4839ba434432da"
  draftAction := "31d921b40cee7d54ee7887fa20101fa24c885bf3dd4160ec4bb769769216bf0c"
  title := "be02e055fab0fbf7b00628ca7317ff9069579d02ff10662895bffb16b84d038c"
  body := "78d7e1aa6fed926e49f113d614ef8b7f9073d320551f8e550e39a638743f4bed"

@[reducible] def operatorPlatform : Platform := fixturePlatform "operator" operatorDigests

def operatorPlan : PublicationPlan := fixturePlan "operator" operatorDigests

section

attribute [local instance] operatorPlatform

theorem operatorPlan_accepted : validatePlan operatorPlan operatorDigests.push
    operatorDigests.draftAction (minutes 60) = .ok () := by
  decide +kernel

theorem sha256Json_operator_injective : Function.Injective operatorPlatform.sha256Json :=
  tableOrSpell_injective (by decide +kernel) (by decide +kernel)

theorem sha256Text_operator_injective : Function.Injective operatorPlatform.sha256Text :=
  fun _ _ h => Json.str.inj (sha256Json_operator_injective h)

theorem operatorPlan_bound :
    FullyBound operatorPlan operatorDigests.push operatorDigests.draftAction (minutes 60) ∧
      ∀ (other : PublicationPlan) (otherPush otherDraft : String) (otherNow : DateTime),
        validatePlan other otherPush otherDraft otherNow = .ok () →
        ∀ part : PlanPart, ¬ part.Same operatorPlan other →
          List.Forall₂ (· ≠ ·)
            (part.digests operatorPlan operatorDigests.push operatorDigests.draftAction)
            (part.digests other otherPush otherDraft) :=
  ⟨(plan_fullyBound operatorPlan_accepted).1,
    (plan_fullyBound operatorPlan_accepted).2 sha256Json_operator_injective
      sha256Text_operator_injective⟩

end

end Ao2
