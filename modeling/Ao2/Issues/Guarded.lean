import Ao2.Issues.Fixture

/-!
# The publisher writes once, after every check

Whatever the server answers, a run of the publisher sends one request that writes at most. Before it
the action was verified, the server attested itself, both branches were where the action says, and there
was no draft. A run that reports success has read, last of all, a pull request that is the one of the
action, and every answer on the way was bound to the session.

## Main results

* `httpRequest_wp` — the rule of an exchange
-/

namespace Ao2

open Interaction

namespace Issues

namespace Draft

/-! ### Exchanges -/

section

variable [IssueLibrary]

/-- The answer of an exchange is read as a value. -/
def ReadAs {α : Type} (read : Json → Option α) (e : Event Fixture) (status : ℕ) (a : α) : Prop :=
  ∃ response, readResponse e.ans = .ok response ∧ response.status = status ∧
    (IssueLibrary.fromSlice response.body).bind read = some a

/-- An attestation is bound to a session and to an exchange. -/
structure BoundTo (session : FixtureSession) (request : HttpRequest) (outcome : String)
    (pullNumber : Option ℕ) (attestation : FixtureExchangeAttestation) : Prop where
  schemaVersion : attestation.schemaVersion = "ao2.local-draft-pr-fixture-exchange-attestation.v1"
  fixtureInstanceId : some attestation.fixtureInstanceId = session.fixtureInstanceId
  clientChallenge : attestation.clientChallenge = session.clientChallenge
  actionDigest : attestation.actionDigest = session.actionDigest
  requestBodySha256 : attestation.requestBodySha256 = session.requestBodySha256
  repository : attestation.repository = session.repository
  actionRequestPath : attestation.actionRequestPath = session.actionRequestPath
  draft : attestation.draft = session.draft
  baseCommit : attestation.baseCommit = session.baseCommit
  headCommit : attestation.headCommit = session.headCommit
  exchangeMethod : attestation.exchangeMethod = request.method
  exchangePath : attestation.exchangePath = request.path
  outcome : attestation.outcome = outcome
  pullNumber : attestation.pullNumber = pullNumber

omit [IssueLibrary] in
theorem boundTo_of_validate {session : FixtureSession} {request : HttpRequest}
    {method path outcome : String} {pullNumber : Option ℕ} {attestation : FixtureExchangeAttestation}
    (hmethod : request.method = method) (hpath : request.path = path)
    (h : validateExchangeAttestation attestation session method path outcome pullNumber = .ok ()) :
    BoundTo session request outcome pullNumber attestation := by
  simp only [validateExchangeAttestation, bailIf_eq_ok, not_or, not_not, ne_eq] at h
  obtain ⟨hschema, hinstance, hchallenge, hdigest, hbody, hrepository, haction, hdraft, hbase, hhead,
    hexchange, hpath', houtcome, hnumber⟩ := h
  exact ⟨hschema, hinstance, hchallenge, hdigest, hbody, hrepository, haction, hdraft, hbase, hhead,
    hexchange.trans hmethod.symm, hpath'.trans hpath.symm, houtcome, hnumber⟩

/-- The attestation that comes with an answer, whatever the answer is to. -/
inductive Carries (e : Event Fixture) : FixtureExchangeAttestation → Prop
  | attestation {status : ℕ} {a : FixtureAttestation} (h : ReadAs FixtureAttestation.fromJson e status a) :
    Carries e a.fixtureExchangeAttestation
  | ref {status : ℕ} {a : FixtureRef} (h : ReadAs FixtureRef.fromJson e status a) :
    Carries e a.fixtureExchangeAttestation
  | pulls {status : ℕ} {a : FixturePulls} (h : ReadAs FixturePulls.fromJson e status a) :
    Carries e a.fixtureExchangeAttestation
  | created {status : ℕ} {a : CreatedPull} (h : ReadAs CreatedPull.fromJson e status a) :
    Carries e a.fixtureExchangeAttestation
  | conflict {status : ℕ} {a : CreateConflict} (h : ReadAs CreateConflict.fromJson e status a) :
    Carries e a.fixtureExchangeAttestation

/-- An exchange whose answer carries an attestation that is bound to the session. -/
def IsBound (session : FixtureSession) (e : Event Fixture) : Prop :=
  ∃ attestation outcome pullNumber, Carries e attestation ∧
    BoundTo session e.op outcome pullNumber attestation

/-! ### Before the request that writes -/

/-- The server has said that it is local, forwards nothing and has no network. -/
def Attested (session : FixtureSession) (e : Event Fixture) : Prop :=
  e.op.method = "GET" ∧ e.op.path = attestationPath ∧
    ∃ a, ReadAs FixtureAttestation.fromJson e 200 a ∧
      a.schemaVersion = "ao2.local-draft-pr-fixture-attestation.v1" ∧
      session.fixtureInstanceId = some a.fixtureInstanceId ∧ a.claimsLocalOnly = true ∧
      a.claimsForwardingCapable = false ∧ a.claimsExternalNetworkEnabled = false ∧
      BoundTo session e.op "fixture_attestation" none a.fixtureExchangeAttestation

/-- A branch of a repository is at a commit. -/
def RefMatches (session : FixtureSession) (repository branch commit role : String) (e : Event Fixture) :
    Prop :=
  e.op.method = "GET" ∧
    (∃ owner repo, splitRepository repository = .ok (owner, repo) ∧ e.op.path = refPath owner repo branch) ∧
    ∃ a, ReadAs FixtureRef.fromJson e 200 a ∧ a.schemaVersion = "ao2.local-draft-pr-fixture-ref.v1" ∧
      a.reference = "refs/heads/" ++ branch ∧ a.commit = commit ∧
      BoundTo session e.op (role ++ "_ref") none a.fixtureExchangeAttestation

/-- The drafts of a query were read. -/
def Discovered (session : FixtureSession) (queryPath : String) (pulls : List ExistingPull)
    (e : Event Fixture) : Prop :=
  e.op.method = "GET" ∧ e.op.path = queryPath ∧
    ∃ a pullNumber, ReadAs FixturePulls.fromJson e 200 a ∧ a.pulls = pulls ∧
      BoundTo session e.op "pull_discovery" pullNumber a.fixtureExchangeAttestation

/-- **What has to have happened before the request that writes**: the server attested itself, both
branches are where the action says, and there is no draft. -/
def Cleared (session : FixtureSession) (action : DraftAction) (h : List (Event Fixture)) : Prop :=
  ∃ attestation base head discovery, h = [attestation, base, head, discovery] ∧
    Attested session attestation ∧
    RefMatches session action.subject.repository.target action.subject.repository.baseBranch
      action.subject.repository.baseCommit "base" base ∧
    RefMatches session action.subject.repository.headRepository action.subject.repository.headBranch
      action.subject.repository.headCommit "head" head ∧
    ∃ owner repo, splitRepository action.subject.repository.target = .ok (owner, repo) ∧
      Discovered session (draftsQuery action owner) [] discovery

/-- The pull requests that an answer tells of: the one that was created, or those that there are. -/
def pullsRead (e : Event Fixture) : List ExistingPull :=
  match readResponse e.ans with
  | .error _ => []
  | .ok response =>
    let value := IssueLibrary.fromSlice response.body
    if e.op.method = "POST" then ((value.bind CreatedPull.fromJson).map CreatedPull.pull).toList
    else ((value.bind FixturePulls.fromJson).map FixturePulls.pulls).getD []

/-- The last pull request that was read is the one of the action, and every exchange was bound. -/
structure Published (session : FixtureSession) (action : DraftAction) (h : List (Event Fixture))
    (pullNumber : ℕ) : Prop where
  bound : ∀ e ∈ h, IsBound session e
  last : ∃ pull, (h.flatMap pullsRead).getLast? = some pull ∧ exactPullMatch pull action = true ∧
    pull.number = pullNumber

theorem Attested.isBound {session : FixtureSession} {e : Event Fixture} (h : Attested session e) :
    IsBound session e := by
  obtain ⟨-, -, a, hread, -, -, -, -, -, hbound⟩ := h
  exact ⟨_, _, _, .attestation hread, hbound⟩

theorem RefMatches.isBound {session : FixtureSession} {repository branch commit role : String}
    {e : Event Fixture} (h : RefMatches session repository branch commit role e) : IsBound session e := by
  obtain ⟨-, -, a, hread, -, -, -, hbound⟩ := h
  exact ⟨_, _, _, .ref hread, hbound⟩

theorem Discovered.isBound {session : FixtureSession} {queryPath : String} {pulls : List ExistingPull}
    {e : Event Fixture} (h : Discovered session queryPath pulls e) : IsBound session e := by
  obtain ⟨-, -, a, _, hread, -, hbound⟩ := h
  exact ⟨_, _, _, .pulls hread, hbound⟩

theorem Cleared.isBound {session : FixtureSession} {action : DraftAction} {h : List (Event Fixture)}
    (hcleared : Cleared session action h) : ∀ e ∈ h, IsBound session e := by
  obtain ⟨attestation, base, head, discovery, rfl, hattested, hbase, hhead, _, _, -, hdiscovered⟩ := hcleared
  simp only [List.forall_mem_cons]
  exact ⟨hattested.isBound, hbase.isBound, hhead.isBound, hdiscovered.isBound,
    fun _ h => absurd h List.not_mem_nil⟩

theorem Discovered.pullsRead {session : FixtureSession} {queryPath : String} {pulls : List ExistingPull}
    {e : Event Fixture} (h : Discovered session queryPath pulls e) : Draft.pullsRead e = pulls := by
  obtain ⟨hmethod, -, a, _, ⟨response, hresponse, -, hread⟩, rfl, -⟩ := h
  have hpost : e.op.method ≠ "POST" := by
    rw [hmethod]
    decide
  rw [Draft.pullsRead, hresponse]
  dsimp only
  rw [if_neg hpost, hread]
  rfl

/-! ### The steps of the publisher -/

variable {f : Oracle Fixture} {C : Fixture.Op → List (Event Fixture) → Prop} {h : List (Event Fixture)}
  {session : FixtureSession}

omit [IssueLibrary] in
/-- **The rule of an exchange**: what is done with an answer that is understood. -/
theorem httpRequest_wp {method path : String} {body : Option Octets}
    {Q : HttpResponse → List (Event Fixture) → Prop} (hC : C (session.request method path body) h)
    (hQ : ∀ e response, e.op = session.request method path body → readResponse e.ans = .ok response →
      Q response (h ++ [e])) :
    f.machine.wp C (httpRequest session method path body) Q (fun _ _ => True) h := by
  rw [httpRequest]
  split_ifs
  · trivial
  · exact ⟨hC, Machine.wp_ofExcept (fun response hresponse => hQ ⟨_, _⟩ response rfl hresponse)
      fun _ _ => trivial⟩

omit [IssueLibrary] in
/-- An exchange that reads, and what is checked of the answer. -/
theorem read_wp {α : Type} {path : String} {check : HttpResponse → Except String α}
    {Q : α → List (Event Fixture) → Prop} (hC : ∀ o, o.method = "GET" → C o h)
    (hQ : ∀ e response a, e.op.method = "GET" → e.op.path = path → readResponse e.ans = .ok response →
      check response = .ok a → Q a (h ++ [e])) :
    f.machine.wp C ((httpRequest session "GET" path none).bind fun response => .ofExcept (check response))
      Q (fun _ _ => True) h := by
  refine Machine.wp_bind.mpr (httpRequest_wp (hC _ rfl) fun e response he hresponse => ?_)
  refine Machine.wp_ofExcept (fun a ha => hQ e response a ?_ ?_ hresponse ha) fun _ _ => trivial
  · rw [he]
    rfl
  · rw [he]
    rfl

theorem verifyFixtureAttestation_wp (hC : ∀ o, o.method = "GET" → C o h) :
    f.machine.wp C (verifyFixtureAttestation session) (fun session' h' => ∃ e,
      h' = h ++ [e] ∧ (∃ name, session' = { session with fixtureInstanceId := some name }) ∧
        Attested session' e) (fun _ _ => True) h := by
  refine read_wp hC fun e response session' hmethod hpath hresponse hcheck => ⟨e, rfl, ?_⟩
  rw [checkFixtureAttestation] at hcheck
  obtain ⟨hstatus, hcheck⟩ := seq_eq_ok.mp hcheck
  obtain ⟨a, hread, hcheck⟩ := bind_eq_ok.mp hcheck
  simp only [seq_eq_ok, bailIf_eq_ok, not_not, ne_eq, Bool.not_eq_true, Bool.not_eq_false] at hcheck
  obtain ⟨hschema, -, hlocal, hforwarding, hnetwork, hbound, hsession⟩ := hcheck
  obtain rfl := Except.ok.inj hsession
  have hstatus := not_not.mp (bailIf_eq_ok.mp hstatus)
  exact ⟨⟨_, rfl⟩, hmethod, hpath, a, ⟨response, hresponse, hstatus, orContext_eq_ok.mp hread⟩, hschema, rfl,
    hlocal, hforwarding, hnetwork, boundTo_of_validate hmethod hpath hbound⟩

theorem verifyFixtureRef_wp {repository branch commit role : String}
    (hC : ∀ o, o.method = "GET" → C o h) :
    f.machine.wp C (verifyFixtureRef session repository branch commit role) (fun _ h' => ∃ e,
      h' = h ++ [e] ∧ RefMatches session repository branch commit role e) (fun _ _ => True) h := by
  refine Machine.wp_ofExcept_bind (fun names hnames => ?_) fun _ _ => trivial
  refine read_wp hC fun e response _ hmethod hpath hresponse hcheck => ⟨e, rfl, ?_⟩
  rw [checkFixtureRef] at hcheck
  obtain ⟨hstatus, hcheck⟩ := seq_eq_ok.mp hcheck
  obtain ⟨a, hread, hcheck⟩ := bind_eq_ok.mp hcheck
  simp only [seq_eq_ok, bailIf_eq_ok, not_or, not_not, ne_eq] at hcheck
  obtain ⟨hbound, ⟨hschema, hreference⟩, hcommit⟩ := hcheck
  have hstatus := not_not.mp (bailIf_eq_ok.mp hstatus)
  exact ⟨hmethod, ⟨names.1, names.2, hnames, hpath⟩, a,
    ⟨response, hresponse, hstatus, orContext_eq_ok.mp hread⟩, hschema, hreference, hcommit,
    boundTo_of_validate hmethod hpath hbound⟩

theorem discoverDrafts_wp {queryPath : String} (hC : ∀ o, o.method = "GET" → C o h) :
    f.machine.wp C (discoverDrafts session queryPath) (fun pulls h' => ∃ e,
      h' = h ++ [e] ∧ Discovered session queryPath pulls e) (fun _ _ => True) h := by
  refine read_wp hC fun e response pulls hmethod hpath hresponse hcheck => ⟨e, rfl, ?_⟩
  rw [checkDrafts] at hcheck
  obtain ⟨hstatus, hcheck⟩ := seq_eq_ok.mp hcheck
  obtain ⟨a, hread, hcheck⟩ := bind_eq_ok.mp hcheck
  simp only [seq_eq_ok] at hcheck
  obtain ⟨-, hbound, -, hpulls⟩ := hcheck
  have hstatus := not_not.mp (bailIf_eq_ok.mp hstatus)
  exact ⟨hmethod, hpath, a, _, ⟨response, hresponse, hstatus, orContext_eq_ok.mp hread⟩,
    Except.ok.inj hpulls, boundTo_of_validate hmethod hpath hbound⟩

/-! ### The run -/

/-- What is reported after the last answer. -/
theorem Published.concat {action : DraftAction} {e : Event Fixture} {pull : ExistingPull}
    (hbound : ∀ e ∈ h, IsBound session e) (he : IsBound session e) (hread : pullsRead e = [pull])
    (hmatch : exactPullMatch pull action = true) : Published session action (h ++ [e]) pull.number where
  bound e' he' := by
    rcases List.mem_append.mp he' with he' | he'
    · exact hbound e' he'
    · rw [List.mem_singleton.mp he']
      exact he
  last := by
    refine ⟨pull, ?_, hmatch, rfl⟩
    rw [List.flatMap_append, List.flatMap_singleton, hread, List.getLast?_concat]

theorem createDraft_wp {action : DraftAction} {queryPath : String}
    (hC : ∀ o h, o.method = "GET" → C o h) (hbound : ∀ e ∈ h, IsBound session e)
    (hpost : C (session.request "POST" action.subject.request.path
      (some (toVec action.subject.request.body.document))) h) :
    f.machine.wp C (createDraft session action queryPath)
      (fun r h' => Published session action h' r.pullNumber) (fun _ _ => True) h := by
  refine Machine.wp_bind.mpr (httpRequest_wp hpost fun e response he hresponse => ?_)
  have hmethod : e.op.method = "POST" := by
    rw [he]
    rfl
  have hpath : e.op.path = action.subject.request.path := by
    rw [he]
    rfl
  split_ifs with hcreated hconflict
  · refine Machine.wp_ofExcept_bind (fun pull hpull => ?_) fun _ _ => trivial
    rw [checkCreated] at hpull
    obtain ⟨created, hread, hpull⟩ := bind_eq_ok.mp hpull
    simp only [seq_eq_ok, bailIf_eq_ok, Bool.not_eq_false] at hpull
    obtain ⟨hexchange, -, -, hmatch, hpull⟩ := hpull
    obtain rfl := Except.ok.inj hpull
    have hread := orContext_eq_ok.mp hread
    have hpulls : pullsRead e = [created.pull] := by
      rw [pullsRead, hresponse]
      dsimp only
      rw [if_pos hmethod, hread]
      rfl
    exact Published.concat hbound
      ⟨_, _, _, .created ⟨response, hresponse, hcreated, hread⟩, boundTo_of_validate hmethod hpath hexchange⟩
      hpulls hmatch
  · refine Machine.wp_ofExcept_bind (fun _ hcheck => ?_) fun _ _ => trivial
    rw [checkConflict] at hcheck
    obtain ⟨conflict, hread, hcheck⟩ := bind_eq_ok.mp hcheck
    simp only [seq_eq_ok] at hcheck
    obtain ⟨-, hexchange, -⟩ := hcheck
    have hbound' : ∀ e' ∈ h ++ [e], IsBound session e' := by
      intro e' he'
      rcases List.mem_append.mp he' with he' | he'
      · exact hbound e' he'
      · rw [List.mem_singleton.mp he']
        exact ⟨_, _, _, .conflict ⟨response, hresponse, rfl, orContext_eq_ok.mp hread⟩,
          boundTo_of_validate hmethod hpath hexchange⟩
    refine Machine.wp_bind.mpr ((discoverDrafts_wp fun o => hC o _).post ?_)
    rintro existing _ ⟨e', rfl, hdiscovered⟩
    refine Machine.wp_ofExcept (fun r hr => ?_) fun _ _ => trivial
    unfold afterConflict at hr
    split at hr
    case h_1 candidate =>
      split_ifs at hr with hmatch
      obtain rfl := Except.ok.inj hr
      exact Published.concat hbound' hdiscovered.isBound hdiscovered.pullsRead hmatch
    case h_2 => cases hr
    case h_3 => cases hr
  · trivial

end

section

variable [Platform] [AddressLibrary] [IssueLibrary] {file : Except String Octets}
  {expected fixtureApi : String} {challenge : Octets}

/-- A session for an action with a challenge, after the server has said which one it is. -/
def IsSessionOf (endpoint : SocketAddr) (challenge : Octets) (action : DraftAction)
    (session : FixtureSession) : Prop :=
  ∃ name, session = { FixtureSession.new endpoint challenge action with fixtureInstanceId := some name }

/-- What is known of the one request that writes. -/
structure IsCleared (file : Except String Octets) (expected fixtureApi : String) (challenge : Octets)
    (action : DraftAction) (session : FixtureSession) (o : HttpRequest) (h : List (Event Fixture)) :
    Prop where
  verified : loadAndVerifyAction file expected = .ok action
  digest : sha256Json action.subject.toJson = expected
  endpoint : ∃ endpoint, parseFixtureEndpoint fixtureApi = .ok endpoint ∧
    IsSessionOf endpoint challenge action session
  cleared : Cleared session action h
  path : ∃ owner repo, splitRepository action.subject.repository.target = .ok (owner, repo) ∧
    o.path = pullsPath owner repo
  request : o = session.request "POST" action.subject.request.path
    (some (toVec action.subject.request.body.document))

/-- What is known of a run that reports success. -/
structure IsPublished (file : Except String Octets) (expected fixtureApi : String) (challenge : Octets)
    (action : DraftAction) (session : FixtureSession) (r : PublishReadback) (h : List (Event Fixture)) :
    Prop where
  verified : loadAndVerifyAction file expected = .ok action
  endpoint : ∃ endpoint, parseFixtureEndpoint fixtureApi = .ok endpoint ∧
    IsSessionOf endpoint challenge action session
  published : Published session action h r.pullNumber

theorem fixturePublish_wp (f : Oracle Fixture) :
    f.machine.wp
      (fun o h => o.method ≠ "GET" →
        ∃ action session, IsCleared file expected fixtureApi challenge action session o h)
      (fixturePublish file expected fixtureApi challenge)
      (fun r h => ∃ action session, IsPublished file expected fixtureApi challenge action session r h)
      (fun _ _ => True) [] := by
  refine Machine.wp_ofExcept_bind (fun action haction => ?_) fun _ _ => trivial
  refine Machine.wp_ofExcept_bind (fun endpoint hendpoint => ?_) fun _ _ => trivial
  refine Machine.wp_bind.mpr ((verifyFixtureAttestation_wp fun _ hget hne => absurd hget hne).post ?_)
  rintro session _ ⟨attestation, rfl, hsession, hattested⟩
  refine Machine.wp_ofExcept_bind (fun names hnames => ?_) fun _ _ => trivial
  refine Machine.wp_bind.mpr ((verifyFixtureRef_wp fun _ hget hne => absurd hget hne).post ?_)
  rintro _ _ ⟨base, rfl, hbase⟩
  refine Machine.wp_bind.mpr ((verifyFixtureRef_wp fun _ hget hne => absurd hget hne).post ?_)
  rintro _ _ ⟨head, rfl, hhead⟩
  refine Machine.wp_bind.mpr ((discoverDrafts_wp fun _ hget hne => absurd hget hne).post ?_)
  rintro existing _ ⟨discovery, rfl, hdiscovered⟩
  have hbefore : ∀ e ∈ [] ++ [attestation] ++ [base] ++ [head], IsBound session e := by
    simp only [List.nil_append, List.cons_append, List.forall_mem_cons]
    exact ⟨hattested.isBound, hbase.isBound, hhead.isBound, fun _ h => absurd h List.not_mem_nil⟩
  unfold publishAfter
  split
  case h_1 =>
    have hcleared : Cleared session action [attestation, base, head, discovery] :=
      ⟨attestation, base, head, discovery, rfl, hattested, hbase, hhead, names.1, names.2, hnames,
        hdiscovered⟩
    obtain ⟨-, hsubject, -, hdigest⟩ := loadAndVerifyAction_eq_ok haction
    refine (createDraft_wp (fun _ _ hget hne => absurd hget hne) hcleared.isBound fun _ =>
      ⟨action, session, haction, hdigest, ⟨endpoint, hendpoint, hsession⟩, hcleared,
        path_of_validateSubject hsubject, rfl⟩).post ?_
    exact fun r h hpublished => ⟨action, session, haction, ⟨endpoint, hendpoint, hsession⟩, hpublished⟩
  case h_2 candidate =>
    split_ifs with hmatch
    · exact ⟨action, session, haction, ⟨endpoint, hendpoint, hsession⟩,
        Published.concat hbefore hdiscovered.isBound hdiscovered.pullsRead hmatch⟩
    · trivial
  case h_3 => trivial

/-! ### How often it writes -/

def isPost (o : Fixture.Op) : Bool := o.method = "POST"

omit [Platform] [AddressLibrary] [IssueLibrary] in
theorem atMost_bind {α β : Type} {n : ℕ} {p : Prog Fixture String α} {g : α → Prog Fixture String β}
    (hp : p.AtMost isPost 0) (hg : ∀ a, (g a).AtMost isPost n) : (p.bind g).AtMost isPost n := by
  have h := hp.bind hg
  rwa [Nat.zero_add] at h

omit [Platform] [AddressLibrary] [IssueLibrary] in
theorem httpRequest_get_atMost {session : FixtureSession} {path : String} :
    (httpRequest session "GET" path none).AtMost isPost 0 := by
  rw [httpRequest]
  split_ifs
  · trivial
  · exact .ask rfl fun _ => .ofExcept _

omit [Platform] [AddressLibrary] [IssueLibrary] in
theorem httpRequest_post_atMost {session : FixtureSession} {path : String} {body : Option Octets} :
    (httpRequest session "POST" path body).AtMost isPost 1 := by
  rw [httpRequest]
  split_ifs
  · trivial
  · exact ⟨0, rfl, fun _ => .ofExcept _⟩

omit [Platform] [AddressLibrary] in
theorem discoverDrafts_atMost {session : FixtureSession} {queryPath : String} :
    (discoverDrafts session queryPath).AtMost isPost 0 :=
  atMost_bind httpRequest_get_atMost fun _ => .ofExcept _

omit [Platform] [AddressLibrary] in
theorem createDraft_atMost {session : FixtureSession} {action : DraftAction} {queryPath : String} :
    (createDraft session action queryPath).AtMost isPost 1 := by
  refine Prog.AtMost.bind httpRequest_post_atMost (n := 0) fun response => ?_
  split_ifs
  · exact atMost_bind (.ofExcept _) fun _ => trivial
  · exact atMost_bind (.ofExcept _) fun _ => atMost_bind discoverDrafts_atMost fun _ => .ofExcept _
  · trivial

theorem fixturePublish_atMost : (fixturePublish file expected fixtureApi challenge).AtMost isPost 1 := by
  refine atMost_bind (.ofExcept _) fun action => atMost_bind (.ofExcept _) fun endpoint => ?_
  refine atMost_bind (atMost_bind httpRequest_get_atMost fun _ => .ofExcept _) fun session => ?_
  refine atMost_bind (.ofExcept _) fun names => ?_
  refine atMost_bind (atMost_bind (.ofExcept _) fun _ => atMost_bind httpRequest_get_atMost fun _ => .ofExcept _)
    fun _ => ?_
  refine atMost_bind (atMost_bind (.ofExcept _) fun _ => atMost_bind httpRequest_get_atMost fun _ => .ofExcept _)
    fun _ => ?_
  refine atMost_bind discoverDrafts_atMost fun existing => ?_
  unfold publishAfter
  split
  · exact createDraft_atMost
  · split_ifs
    · trivial
    · trivial
  · trivial

/-- **The publisher writes once, and only after every check**, whatever the server answers. -/
theorem fixturePublish_guarded (f : Oracle Fixture) (file : Except String Octets)
    (expected fixtureApi : String) (challenge : Octets) :
    let run := f.machine.run (fixturePublish file expected fixtureApi challenge) []
    run.2.countP (fun e => isPost e.op) ≤ 1 ∧
      (∀ before e after, run.2 = before ++ e :: after → isPost e.op = true →
        ∃ action session, IsCleared file expected fixtureApi challenge action session e.op before) ∧
      ∀ r, run.1 = .ok r →
        ∃ action session, IsPublished file expected fixtureApi challenge action session r run.2 := by
  have hwp := @fixturePublish_wp _ _ _ file expected fixtureApi challenge f
  refine ⟨?_, fun before e after hrun hpost => ?_, fun r hr => ?_⟩
  · exact (f.records.countP_le fixturePublish_atMost []).trans (Nat.le_of_eq (Nat.zero_add 1))
  · have hne : e.op.method ≠ "GET" := by
      rw [of_decide_eq_true hpost]
      decide
    exact Oracle.wp.event hwp hrun (Nat.zero_le _) hne
  · have hpost := hwp.run
    generalize f.machine.run (fixturePublish file expected fixtureApi challenge) [] = run at hpost hr ⊢
    obtain ⟨result, h⟩ := run
    obtain rfl : result = .ok r := hr
    exact hpost

end

end Draft

end Issues

end Ao2
