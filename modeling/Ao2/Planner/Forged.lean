import Ao2.Planner.Confined
import Ao2.Planner.Owned

/-!
# Plans with forged fields

What stands in the fields of the engine does not reach the plan, as long as no candidate that can be
accepted has them in arrays. The digest of the prompt is that of the text in the candidate, which the
provider may have changed.

## Main results

* `not_engineOwned_array` — a candidate with an array for its provenance
-/

namespace Ao2

namespace Planner

open Files Interaction

section

variable [Platform] [PlannerBuild] [PlannerLibrary]

/-! ### Attempts -/

/-- What the validator says of a candidate, attempts counted from zero. -/
def reportOf (env : PlannerEnv) (r : PlanRequest) (i : ℕ) (candidate : Json) : ValidationReport :=
  validate (promoteCandidateToPlan r (i + 1) (env.clock (i + 1)) (env.heads (i + 1)) candidate)
    (some r.surfaceMap)

def Passes (env : PlannerEnv) (r : PlanRequest) (i : ℕ) (candidate : Json) : Prop :=
  (reportOf env r i candidate).isPass = true

/-- The candidates before this attempt do not pass. -/
def Reached (env : PlannerEnv) (r : PlanRequest) (i : ℕ) : Prop :=
  ∀ j < i, ∃ response, env.responses j = .ok response ∧ ¬ Passes env r j response.candidate

/-- No candidate that has its fields in arrays can pass, and one that passes has the text of the
prompt. -/
def Unforgeable (env : PlannerEnv) (r : PlanRequest) : Prop :=
  ∀ i < attemptBudget, Reached env r i → ∀ response, env.responses i = .ok response →
    (HasArray response.candidate → ∀ c, SameButOwned response.candidate c → ¬ Passes env r i c) ∧
      (Passes env r i response.candidate → promptSha response.candidate = sha256Text r.prompt)

/-- The answers differ in the fields of the engine only. -/
def SameResponse : Except ProviderError ProviderResponse → Except ProviderError ProviderResponse → Prop
  | .ok a, .ok b => SameButOwned a.candidate b.candidate ∧ a.totalCostUsd = b.totalCostUsd
  | .error e, .error e' => e = e'
  | _, _ => False

/-- **The fields of the engine are the engine's own.** -/
structure EngineOwned (env : PlannerEnv) (r : PlanRequest) (t : Files.Tree) (outcome : PlanOutcome) :
    Prop where
  valid : (validate outcome.plan.toJson (some r.surfaceMap)).isPass = true
  values : HasEngineValues r outcome.attemptsUsed (env.clock outcome.attemptsUsed)
    (sha256Text r.prompt) outcome.plan
  kept : ∀ responses : ℕ → Except ProviderError ProviderResponse,
    (∀ i, SameResponse (env.responses i) (responses i)) →
      ∃ outcome', (plannerRun { env with responses := responses } r t).1 = .ok outcome' ∧
        outcome'.plan = outcome.plan

/-- A candidate that is accepted, and its plan. -/
def Accepts (env : PlannerEnv) (r : PlanRequest) (i : ℕ) (candidate : Json) (p : Plan) : Prop :=
  Plan.fromJson (promoteCandidateToPlan r (i + 1) (env.clock (i + 1)) (env.heads (i + 1)) candidate) =
    some p ∧ planErrors p (some r.surfaceMap) = []

variable {env : PlannerEnv} {r : PlanRequest} {i : ℕ} {c c' : Json} {p : Plan}

theorem passes_iff : Passes env r i c ↔ ∃ p, Accepts env r i c p := by
  rw [Passes, reportOf, validate]
  cases h : Plan.fromJson (promoteCandidateToPlan r (i + 1) (env.clock (i + 1)) (env.heads (i + 1)) c) with
  | none => exact iff_of_false nofun fun ⟨p, hp, _⟩ => by rw [h] at hp; cases hp
  | some p =>
    refine ⟨fun hpass => ⟨p, h, List.isEmpty_iff.mp hpass⟩, fun ⟨q, hq, herrors⟩ => ?_⟩
    obtain rfl := Option.some.inj (h.symm.trans hq)
    exact List.isEmpty_iff.mpr herrors

theorem reportOf_of_accepts (h : Accepts env r i c p) : reportOf env r i c = ⟨[], some p⟩ := by
  rw [reportOf, validate, h.1]
  dsimp only
  rw [h.2]

omit [Platform] [PlannerBuild] [PlannerLibrary] in
theorem hasArray_iff_of_same (h : SameButOwned c c') : HasArray c ↔ HasArray c' := by
  rw [← hasArray_fill fun _ => .null, h, hasArray_fill]

/-- Without arrays a candidate is accepted as any that differs in the fields of the engine only. -/
theorem accepts_iff_of_same (h : SameButOwned c c') (hc : ¬ HasArray c) :
    Accepts env r i c p ↔ Accepts env r i c' p := by
  have hc' : ¬ HasArray c' := fun harray => hc ((hasArray_iff_of_same h).mpr harray)
  rw [Accepts, Accepts, ← fromJson_promote_fill _ _ _ _ (fun _ => .null) hc,
    ← fromJson_promote_fill _ _ _ _ (fun _ => .null) hc', h]

/-! ### Runs -/

omit [Platform] [PlannerBuild] [PlannerLibrary] in
/-- The name of the directory does not depend on these fields. -/
theorem planIdOf_of_same (h : SameButOwned c c') (requestId : String) :
    planIdOf c requestId = planIdOf c' requestId := by
  have hid (c : Json) : (fill (fun _ => .null) c).get? "plan_id" = c.get? "plan_id" := by
    rw [fill, get?_mapFields]
    cases c.get? "plan_id" <;> rfl
  rw [planIdOf, planIdOf, ← hid c, h, hid c']

omit [Platform] [PlannerBuild] [PlannerLibrary] in
theorem run_performPlanner (o : PlannerOp) (w : PlannerWorld) : (plannerMachine env).run
    (performPlanner o) w = (.ok (plannerStep env w o).1, (plannerStep env w o).2) := rfl

omit [Platform] [PlannerBuild] [PlannerLibrary] in
theorem run_ofExcept_eq_ok {α : Type} {x : Except OrchestrateError α} {a : α} {w w' : PlannerWorld}
    (h : (plannerMachine env).run (.ofExcept x) w = (.ok a, w')) : x = .ok a ∧ w' = w := by
  cases x with
  | error e => cases h
  | ok b =>
    cases h
    exact ⟨rfl, rfl⟩

omit [Platform] [PlannerBuild] [PlannerLibrary] in
/-- What is written does not matter for the world. -/
theorem run_writeText {path text : String} {w w' : PlannerWorld}
    (h : (plannerMachine env).run (writeText path text) w = (.ok (), w')) :
    w'.drafts = w.drafts ∧ ∀ responses text', (plannerMachine { env with responses := responses }).run
      (writeText path text') w = (.ok (), w') := by
  obtain ⟨written, w₁, hwrite, h⟩ := Machine.run_bind_eq_ok.mp h
  obtain ⟨hok, rfl⟩ := run_ofExcept_eq_ok h
  have hsame (responses text') : (plannerMachine { env with responses := responses }).run
      (performPlanner (.write path text')) w = (.ok written, w') := hwrite
  refine ⟨?_, fun responses text' => Machine.run_bind_eq_ok.mpr ⟨written, w', hsame responses text', ?_⟩⟩
  · rw [run_performPlanner, plannerStep] at hwrite
    split at hwrite
    · cases hwrite
      rfl
    · cases hwrite
      rfl
  · rw [hok]
    rfl

omit [Platform] [PlannerBuild] [PlannerLibrary] in
theorem run_resolveDir {dir : Option String} {planId dir' : String} {w w' : PlannerWorld}
    (h : (plannerMachine env).run (resolveDir r dir planId) w = (.ok dir', w')) :
    w'.drafts = w.drafts ∧ ∀ responses, (plannerMachine { env with responses := responses }).run
      (resolveDir r dir planId) w = (.ok dir', w') := by
  cases dir with
  | some dir =>
    cases h
    exact ⟨rfl, fun _ => rfl⟩
  | none =>
    obtain ⟨_, w₁, hmake, h⟩ := Machine.run_bind_eq_ok.mp h
    cases h
    obtain ⟨made, w₂, hstep, h⟩ := Machine.run_bind_eq_ok.mp hmake
    obtain ⟨hok, rfl⟩ := run_ofExcept_eq_ok h
    have hmake (responses) : (plannerMachine { env with responses := responses }).run
        (createDirAll (joinPath r.buildLogRoot planId)) w = (.ok (), w') :=
      Machine.run_bind_eq_ok.mpr ⟨made, w', hstep, by rw [hok]; rfl⟩
    refine ⟨?_, fun responses => Machine.run_bind_eq_ok.mpr ⟨(), w', hmake responses, rfl⟩⟩
    cases hstep
    rfl

/-- **One attempt**, and what it is with another candidate. -/
theorem run_attemptOnce {priorErrors : List String} {dir : Option String} {dir' : String}
    {w w' : PlannerWorld} {report : ValidationReport} (hw : w.drafts = i)
    (h : (plannerMachine env).run (attemptOnce r (i + 1) priorErrors dir) w =
      (.ok (c, dir', report), w')) :
    ((∃ response, env.responses i = .ok response ∧ c = response.candidate) ∧
      report = reportOf env r i c ∧ w'.drafts = i + 1) ∧
    ∀ responses priorErrors' response', responses i = .ok response' →
      SameButOwned c response'.candidate →
      (plannerMachine { env with responses := responses }).run
        (attemptOnce r (i + 1) priorErrors' dir) w =
        (.ok (response'.candidate, dir', reportOf env r i response'.candidate), w') := by
  obtain ⟨requestId, w₁, hid, h₁⟩ := Machine.run_bind_eq_ok.mp h
  obtain ⟨drafted, w₂, hdraft, h₂⟩ := Machine.run_bind_eq_ok.mp h₁
  obtain ⟨response, w₃, hresponse, h₃⟩ := Machine.run_bind_eq_ok.mp h₂
  obtain ⟨dir₁, w₄, hdir, h₄⟩ := Machine.run_bind_eq_ok.mp h₃
  obtain ⟨_, w₅, hwrite, h₅⟩ := Machine.run_bind_eq_ok.mp h₄
  clear h h₁ h₂ h₃ h₄
  obtain ⟨hdrafted, rfl⟩ := run_ofExcept_eq_ok hresponse
  cases hid
  cases hdraft
  subst hw
  have hok : env.responses w.drafts = .ok response := by
    change (env.responses w.drafts).mapError OrchestrateError.provider = .ok response at hdrafted
    exact mapError_eq_ok.mp hdrafted
  obtain ⟨hdrafts, hdir'⟩ := run_resolveDir hdir
  obtain ⟨hdrafts', hwrite'⟩ := run_writeText hwrite
  have hcount : w₅.drafts = w.drafts + 1 := hdrafts'.trans hdrafts
  have hreport : reportOf env r w.drafts response.candidate = validate (promoteCandidateToPlan r
      (w.drafts + 1) (env.clock w₅.drafts) (env.heads w₅.drafts) response.candidate)
        (some r.surfaceMap) := by
    rw [reportOf, hcount]
  cases h₅
  refine ⟨⟨⟨response, hok, rfl⟩, hreport.symm, hcount⟩, ?_⟩
  intro responses priorErrors' response' hresponse' hsame
  have hprovided : (responses w.drafts).mapError OrchestrateError.provider = .ok response' := by
    rw [hresponse']
    rfl
  have hdir'' := hdir' responses
  dsimp only [plannerMachine, plannerStep] at hdir''
  rw [planIdOf_of_same hsame] at hdir''
  have hrequest : (plannerMachine { env with responses := responses }).run
      (performPlanner .requestId) w = (.ok (env.requestIds w.drafts), w) := rfl
  refine Machine.run_bind_eq_ok.mpr ⟨_, _, hrequest, ?_⟩
  refine Machine.run_bind_eq_ok.mpr ⟨_, _, run_performPlanner _ _, ?_⟩
  have hprovide (w' : PlannerWorld) : (plannerMachine { env with responses := responses }).run
      (.ofExcept ((responses w.drafts).mapError OrchestrateError.provider)) w' =
      (.ok response', w') := by
    rw [hprovided]
    rfl
  refine Machine.run_bind_eq_ok.mpr ⟨_, _, hprovide _, ?_⟩
  refine Machine.run_bind_eq_ok.mpr ⟨_, _, hdir'', ?_⟩
  refine Machine.run_bind_eq_ok.mpr ⟨_, _, hwrite' responses _, ?_⟩
  refine Machine.run_bind_eq_ok.mpr ⟨_, _, run_performPlanner _ _, ?_⟩
  refine Machine.run_bind_eq_ok.mpr ⟨_, _, run_performPlanner _ _, ?_⟩
  rw [reportOf, ← hcount]
  rfl

omit [Platform] [PlannerBuild] [PlannerLibrary] in
theorem SameResponse.exists_ok {x y : Except ProviderError ProviderResponse} {a : ProviderResponse}
    (h : SameResponse x y) (hx : x = .ok a) :
    ∃ b, y = .ok b ∧ SameButOwned a.candidate b.candidate := by
  subst hx
  cases y with
  | error e => exact h.elim
  | ok b => exact ⟨b, rfl, h.1⟩

/-- How a run goes on with the report on a candidate. -/
def afterAttempt (r : PlanRequest) (left attempt : ℕ) (dir : String) (candidate : Json)
    (report : ValidationReport) : PlannerProg PlanOutcome :=
  match report.isPass, report.plan with
  | true, some plan => pure ⟨plan, plan.planId, plan.toJson.compact, dir, attempt⟩
  | _, _ =>
    attemptsFrom r left (attempt + 1) report.errorsForProviderFeedback (some dir)
      (some (candidate.compact, report))

/-- **A run that returns** has come to a candidate that is accepted, and so has a run with other
candidates, by induction on the attempts that are left. -/
theorem run_attemptsFrom {left : ℕ} {priorErrors : List String} {dir : Option String}
    {last : Option (String × ValidationReport)} {w w' : PlannerWorld} {outcome : PlanOutcome}
    (hw : w.drafts = i)
    (h : (plannerMachine env).run (attemptsFrom r left (i + 1) priorErrors dir last) w =
      (.ok outcome, w')) :
    ∃ k, i ≤ k ∧ k < i + left ∧ outcome.attemptsUsed = k + 1 ∧
      (∀ j, i ≤ j → j < k → ∃ a, env.responses j = .ok a ∧ ¬ Passes env r j a.candidate) ∧
      (∃ a, env.responses k = .ok a ∧ Accepts env r k a.candidate outcome.plan) ∧
      ∀ responses p, (∀ j, SameResponse (env.responses j) (responses j)) →
        (∀ j, i ≤ j → j < k → ∀ a, responses j = .ok a → ¬ Passes env r j a.candidate) →
        (∀ a, responses k = .ok a → Accepts env r k a.candidate p) →
        ∀ priorErrors' last', ∃ outcome', ((plannerMachine { env with responses := responses }).run
          (attemptsFrom r left (i + 1) priorErrors' dir last') w).1 = .ok outcome' ∧
            outcome'.plan = p := by
  induction left generalizing i priorErrors dir last w with
  | zero =>
    cases last with
    | none => cases h
    | some x =>
      obtain ⟨_, _, -, h⟩ := Machine.run_bind_eq_ok.mp h
      obtain ⟨_, _, -, h⟩ := Machine.run_bind_eq_ok.mp h
      cases h
  | succ left ih =>
    obtain ⟨⟨c, dir', report⟩, w₁, hattempt, hrest⟩ := Machine.run_bind_eq_ok.mp h
    obtain ⟨⟨⟨a, ha, rfl⟩, rfl, hw₁⟩, hother⟩ := run_attemptOnce hw hattempt
    -- the same attempt with another candidate
    have hnext {responses} {b : ProviderResponse} (hb : responses i = .ok b)
        (hsame : SameButOwned a.candidate b.candidate) (priorErrors' last') :
        (plannerMachine { env with responses := responses }).run
          (attemptsFrom r (left + 1) (i + 1) priorErrors' dir last') w =
          (plannerMachine { env with responses := responses }).run
            (afterAttempt r left (i + 1) dir' b.candidate (reportOf env r i b.candidate)) w₁ := by
      rw [attemptsFrom]
      refine (Machine.run_bind ..).trans ?_
      rw [hother responses priorErrors' b hb hsame] <;> rfl
    by_cases hpasses : Passes env r i a.candidate
    · obtain ⟨p, hp⟩ := passes_iff.mp hpasses
      rw [reportOf_of_accepts hp] at hrest
      cases hrest
      refine ⟨i, le_rfl, by omega, rfl, fun j hj hj' => by omega, ⟨a, ha, hp⟩, ?_⟩
      intro responses q hsame _ hq priorErrors' last'
      obtain ⟨b, hb, hab⟩ := (hsame i).exists_ok ha
      rw [hnext hb hab, afterAttempt, reportOf_of_accepts (hq b hb)]
      exact ⟨_, rfl, rfl⟩
    · -- the candidate is told what is wrong with it
      dsimp only at hrest
      rw [show (reportOf env r i a.candidate).isPass = false from Bool.eq_false_iff.mpr hpasses] at hrest
      obtain ⟨k, hik, hk, hused, hfailed, haccepted, hkept⟩ := ih hw₁ hrest
      refine ⟨k, by omega, by omega, hused, fun j hj hj' => ?_, haccepted, ?_⟩
      · rcases hj.eq_or_lt with rfl | hlt
        · exact ⟨a, ha, hpasses⟩
        · exact hfailed j hlt hj'
      · intro responses q hsame hfailed' hq priorErrors' last'
        obtain ⟨b, hb, hab⟩ := (hsame i).exists_ok ha
        have hfails : (reportOf env r i b.candidate).isPass = false :=
          Bool.eq_false_iff.mpr (hfailed' i le_rfl (by omega) b hb)
        rw [hnext hb hab, afterAttempt, hfails]
        exact hkept responses q hsame (fun j hj => hfailed' j (by omega)) hq _ _

/-- A run that returns, from its beginning. -/
theorem exists_accepted {t : Files.Tree} {outcome : PlanOutcome} (h : (plannerRun env r t).1 = .ok outcome) :
    ∃ k < attemptBudget, outcome.attemptsUsed = k + 1 ∧ Reached env r k ∧
      (∃ a, env.responses k = .ok a ∧ Accepts env r k a.candidate outcome.plan) ∧
      ∀ responses p, (∀ j, SameResponse (env.responses j) (responses j)) →
        (∀ j < k, ∀ a, responses j = .ok a → ¬ Passes env r j a.candidate) →
        (∀ a, responses k = .ok a → Accepts env r k a.candidate p) →
        ∃ outcome', (plannerRun { env with responses := responses } r t).1 = .ok outcome' ∧
          outcome'.plan = p := by
  obtain ⟨k, -, hk, hused, hfailed, haccepted, hkept⟩ :=
    run_attemptsFrom (i := 0) (w := ⟨t, [], 0⟩) rfl (Prod.ext h rfl)
  refine ⟨k, by omega, hused, fun j => hfailed j (Nat.zero_le j), haccepted, ?_⟩
  intro responses p hsame hfailed' hp
  exact hkept responses p hsame (fun j _ => hfailed' j) hp [] none

/-- The attempt that is accepted is the first that passes. -/
theorem accepted_unique {k : ℕ} {a : ProviderResponse} {q : Plan} (hi : Reached env r i)
    (hc : env.responses i = .ok a) (hp : Accepts env r i a.candidate p) (hk : Reached env r k)
    {b : ProviderResponse} (hc' : env.responses k = .ok b) (hq : Accepts env r k b.candidate q) :
    i = k ∧ p = q := by
  have hnot {m n : ℕ} {d : ProviderResponse} {o : Plan} (hn : Reached env r n)
      (hd : env.responses m = .ok d) (ho : Accepts env r m d.candidate o) : ¬ m < n := by
    intro hlt
    obtain ⟨d', hd', hfails⟩ := hn m hlt
    obtain rfl := Except.ok.inj (hd.symm.trans hd')
    exact hfails (passes_iff.mpr ⟨o, ho⟩)
  obtain rfl : i = k := Nat.le_antisymm (Nat.not_lt.mp (hnot hi hc' hq)) (Nat.not_lt.mp (hnot hk hc hp))
  obtain rfl := Except.ok.inj (hc.symm.trans hc')
  exact ⟨rfl, Option.some.inj (hp.1.symm.trans hq.1)⟩

theorem engineOwned_of_unforgeable {t : Files.Tree} {outcome : PlanOutcome}
    (h : (plannerRun env r t).1 = .ok outcome) (hsafe : Unforgeable env r) :
    EngineOwned env r t outcome := by
  obtain ⟨k, hk, hused, hreached, ⟨a, ha, haccepts⟩, hkept⟩ := exists_accepted h
  obtain ⟨harray, hprompt⟩ := hsafe k hk hreached a ha
  have hpasses : Passes env r k a.candidate := passes_iff.mpr ⟨_, haccepts⟩
  have hno : ¬ HasArray a.candidate := fun hhas => harray hhas _ rfl hpasses
  refine ⟨?_, ?_, fun responses hsame => hkept responses _ hsame (fun j hj b hb => ?_) fun b hb => ?_⟩
  · rw [validate, Plan.fromJson_toJson]
    exact List.isEmpty_iff.mpr haccepts.2
  · rw [← hprompt hpasses, hused]
    exact hasEngineValues_of_fromJson r (k + 1) _ _ hno haccepts.1
  · obtain ⟨c, hc, hfails⟩ := hreached j hj
    obtain ⟨b', hb', hcb⟩ := (hsame j).exists_ok hc
    obtain rfl := Except.ok.inj (hb.symm.trans hb')
    by_cases hhas : HasArray c.candidate
    · exact (hsafe j (hj.trans hk) (fun m hm => hreached m (hm.trans hj)) c hc).1 hhas _ hcb
    · intro hpass
      obtain ⟨q, hq⟩ := passes_iff.mp hpass
      exact hfails (passes_iff.mpr ⟨q, (accepts_iff_of_same hcb hhas).mpr hq⟩)
  · obtain ⟨b', hb', hab⟩ := (hsame k).exists_ok ha
    obtain rfl := Except.ok.inj (hb.symm.trans hb')
    exact (accepts_iff_of_same hab hno).mp haccepts

/-- A candidate with arrays that can be accepted is accepted with other values, and the plan is not
what it was. -/
theorem not_kept_of_hasArray {t : Files.Tree} {outcome : PlanOutcome} (h : EngineOwned env r t outcome)
    (hi : i < attemptBudget) (hreached : Reached env r i) {a : ProviderResponse}
    (ha : env.responses i = .ok a) (hhas : HasArray a.candidate) (hsame : SameButOwned a.candidate c) :
    ¬ Passes env r i c := by
  intro hpass
  obtain ⟨p, hp, herrors⟩ := passes_iff.mp hpass
  obtain ⟨field, hforged⟩ := exists_forged r _ _ _ ((hasArray_iff_of_same hsame).mp hhas) hp
  -- whatever stands in the field is in the plan
  have hfield (x : String) : field outcome.plan = x := by
    obtain ⟨q, hq, hx, herrors'⟩ := hforged x
    let responses := Function.update env.responses i (.ok ⟨fill (forged x) c, a.totalCostUsd⟩)
    have hresponses : ∀ j, SameResponse (env.responses j) (responses j) := by
      intro j
      by_cases hj : j = i
      · subst hj
        rw [ha, show responses j = _ from Function.update_self ..]
        exact ⟨hsame.trans sameButOwned_fill, rfl⟩
      · rw [show responses j = env.responses j from Function.update_of_ne hj ..]
        cases env.responses j with
        | error e => rfl
        | ok b => exact ⟨rfl, rfl⟩
    obtain ⟨outcome', hrun, hplan⟩ := h.kept responses hresponses
    obtain ⟨k, -, -, hk, ⟨b, hb, hbq⟩, -⟩ := exists_accepted hrun
    have hreached' : Reached { env with responses := responses } r i := by
      intro j hj
      obtain ⟨b, hb, hfails⟩ := hreached j hj
      exact ⟨b, (Function.update_of_ne hj.ne ..).trans hb, hfails⟩
    have hc : responses i = .ok ⟨fill (forged x) c, a.totalCostUsd⟩ := Function.update_self ..
    have haccepts : Accepts { env with responses := responses } r i (fill (forged x) c) q :=
      ⟨hq, herrors' _ herrors⟩
    have hunique := accepted_unique hreached' hc haccepts hk hb hbq
    rw [← hplan, ← hunique.2, hx]
  exact absurd ((hfield "a").symm.trans (hfield "b")) (by decide)

/-- **The engine owns its fields if and only if no candidate that can be accepted has them in arrays**,
and the one that is accepted has the text of the prompt. -/
theorem engineOwned_iff {t : Files.Tree} {outcome : PlanOutcome} (h : (plannerRun env r t).1 = .ok outcome) :
    EngineOwned env r t outcome ↔ Unforgeable env r := by
  refine ⟨fun howned i hi hreached a ha => ?_, engineOwned_of_unforgeable h⟩
  have harray (hhas : HasArray a.candidate) (c : Json) (hc : SameButOwned a.candidate c) :=
    not_kept_of_hasArray howned hi hreached ha hhas hc
  refine ⟨harray, fun hpass => ?_⟩
  obtain ⟨k, hk, hused, hreached', ⟨b, hb, hbq⟩, -⟩ := exists_accepted h
  obtain ⟨p, hp⟩ := passes_iff.mp hpass
  obtain ⟨rfl, rfl⟩ := accepted_unique hreached ha hp hreached' hb hbq
  have hvalues := hasEngineValues_of_fromJson r _ _ _ (fun hhas => harray hhas _ rfl hpass) hp.1
  exact hvalues.promptSha.symm.trans howned.values.promptSha

end

/-! ### A provenance that is an array -/

attribute [local instance] spellingPlatform plainBuild plainLibrary

def arrayStep : Step := ⟨"step_a", .create, [], "", ["add"], []⟩

def arrayPlan : Plan where
  schemaVersion := schemaVersionText
  planId := "p"
  generatedAtUtc := ""
  prompt := ⟨"", sha256Text ""⟩
  target := ⟨"", "", "", sha256Json (SurfaceMap.toJson ⟨[], ""⟩)⟩
  plan := ⟨.build, "", "", [], [arrayStep], ⟨[], [], []⟩⟩
  provenance := ⟨1, "forged", "forged", "forged"⟩
  trustBoundary := ⟨"", false, "", ""⟩
  quality := none

def arrayProvenance : Json := .arr [.nat 1, .str "forged", .str "forged", .str "forged"]

def arrayEnv : PlannerEnv where
  cwd := []
  responses _ := .ok ⟨arrayPlan.toJson.setMember "provenance" arrayProvenance, none⟩
  requestIds _ := "01ARZ3NDEKTSV4RRFFQ69G5FAV"
  clock _ := ""
  heads _ := ""

def arrayRequest : PlanRequest := ⟨"", ⟨[], ""⟩, "log", "", "codex"⟩

def arrayOutcome : PlanOutcome := ⟨arrayPlan, "p", arrayPlan.toJson.compact, "log/p", 1⟩

theorem run_array : (plannerRun arrayEnv arrayRequest (Files.Tree.bare [] [])).1 = .ok arrayOutcome := by
  rfl

theorem engineOwned_iff_array : EngineOwned arrayEnv arrayRequest (Files.Tree.bare [] []) arrayOutcome ↔
    Unforgeable arrayEnv arrayRequest :=
  engineOwned_iff run_array

/-- The array is the provenance of the plan. -/
theorem not_engineOwned_array :
    (plannerRun arrayEnv arrayRequest (Files.Tree.bare [] [])).1 = .ok arrayOutcome ∧
      ¬ EngineOwned arrayEnv arrayRequest (Files.Tree.bare [] []) arrayOutcome :=
  ⟨run_array, fun h => absurd h.values.provider (by decide)⟩

end Planner

end Ao2
