import Ao2.Planner.Forged
import Ao2.Planner.Retries

/-!
# The number of an attempt

The plan that a run returns has a count of its attempts, which is set before the candidate is read.
In an array nothing is set, so that the count is what the array says.

## Main results

* `not_retryProtocol_counting` — a second candidate that says that it is the first
-/

namespace Ao2

namespace Planner

open Interaction

/-! ### The count in a candidate -/

/-- The count that a candidate names. -/
def attemptsField (candidate : Json) : Option Json :=
  (fieldAt planNames candidate "provenance").bind (fieldAt provenanceNames · "attempts")

/-- If a candidate is an array or has one for its provenance, the count in it is the number of the
attempt. -/
def Counts (attempt : ℕ) (candidate : Json) : Prop :=
  (isArray candidate = true ∨ (candidate.get? "provenance").any isArray = true) →
    attemptsField candidate = some (.nat attempt)

theorem u32Of_eq_some {v : Json} {n : UInt32} (h : u32Of v = some n) : v = .nat n.toNat := by
  cases v with
  | num i =>
    cases i with
    | ofNat m =>
      have hm := u32Of_nat_eq_some (n := m) h
      rw [hm]
      rfl
    | negSucc m => cases h
  | _ => cases h

theorem attempts_of_fromJson {u : Json} {p : Provenance} (h : Provenance.fromJson u = some p) :
    fieldAt provenanceNames u "attempts" = some (.nat p.attempts.toNat) := by
  obtain ⟨-, hattempts, -⟩ := Provenance.fromJson_eq_some.mp h
  obtain ⟨v, hv, hcount⟩ := Option.bind_eq_some_iff.mp hattempts
  rw [hv, u32Of_eq_some hcount]

/-! ### The count in a plan -/

section

variable [Platform] [PlannerBuild] [PlannerLibrary] {r : PlanRequest}

omit [PlannerLibrary] in
/-- **The plan has the number of its attempt if and only if the arrays of the candidate have
it.** -/
theorem attempts_iff {attempt : ℕ} {now head : String} {c : Json} {p : Plan}
    (h : Plan.fromJson (promoteCandidateToPlan r attempt now head c) = some p) :
    p.provenance.attempts.toNat = attempt ↔ Counts attempt c := by
  obtain ⟨hshaped, -, -, -, -, -, -, hprovenance, -, -⟩ := Plan.fromJson_eq_some.mp h
  obtain ⟨u, hu, hread⟩ := Option.bind_eq_some_iff.mp hprovenance
  -- where the provenance is read as it stands in the candidate, so is the count
  have hsame (hfield : fieldAt planNames c "provenance" = some u) :
      attemptsField c = some (.nat p.provenance.attempts.toNat) := by
    rw [attemptsField, hfield, Option.bind_some, attempts_of_fromJson hread]
  have hnat : some (Json.nat p.provenance.attempts.toNat) = some (.nat attempt) ↔
      p.provenance.attempts.toNat = attempt := by
    rw [Option.some.injEq, Json.nat, Json.nat, Json.num.injEq]
    exact Int.ofNat_inj
  cases hc : isArray c with
  | true =>
    rw [promote_of_isArray _ _ _ _ hc] at hu
    rw [Counts, hsame hu, hc, hnat]
    simp
  | false =>
    have hobject := isObject_of_shaped ((shaped_promote ..).mp hshaped) hc
    rw [fieldAt_promote _ _ _ _ hobject] at hu
    obtain ⟨v, hv, rfl⟩ := Option.map_eq_some_iff.mp hu
    cases harray : isArray v with
    | true =>
      have hkept : promotedField r attempt head c "provenance" v = v := overwrite_of_isArray harray
      have hfield : fieldAt planNames c "provenance" = some v := by rw [fieldAt_eq_get? hc, hv]
      rw [hkept] at hsame
      rw [Counts, hsame hfield, hc, hv, Option.any_some, harray, hnat]
      simp
    | false =>
      refine iff_of_true (provenance_owned r attempt harray hread).1 fun hany => ?_
      rw [hc, hv, Option.any_some, harray] at hany
      simp at hany

/-- **The plan has the number of its attempt**, too. -/
structure RetryProtocol (r : PlanRequest) (result : Except OrchestrateError PlanOutcome)
    (h : List PlannerEvent) : Prop extends Retries r result h where
  counted : ∀ outcome, result = .ok outcome →
    outcome.plan.provenance.attempts.toNat = outcome.attemptsUsed

/-- **The retry protocol holds if and only if a candidate that passes counts its attempt** wherever
it has an array. -/
theorem retryProtocol_iff (f : Oracle PlannerSignature) (r : PlanRequest) :
    RetryProtocol r (f.machine.run (orchestrate r) []).1 (f.machine.run (orchestrate r) []).2 ↔
      ∀ (i : ℕ) (x : Json × String × String),
        (stamped (f.machine.run (orchestrate r) []).2)[i]? = some x →
          (reportAt r (i + 1) x).isPass = true → Counts (i + 1) x.1 := by
  have hretries := retries_run f r
  generalize f.machine.run (orchestrate r) [] = run at hretries
  have hreport {i : ℕ} {x : Json × String × String} (hx : (stamped run.2)[i]? = some x) :
      (reports r run.2)[i]? = some (reportAt r (i + 1) x) := by
    rw [reports, List.getElem?_mapIdx, hx]
    rfl
  constructor
  · intro h i x hx hpass
    obtain ⟨-, outcome, hresult, hplan, hused⟩ := hretries.accepted i _ (hreport hx) hpass
    obtain ⟨p, heq, hp⟩ := exists_plan hpass
    rw [heq] at hplan
    obtain rfl := Option.some.inj hplan
    exact (attempts_iff hp).mp ((h.counted outcome hresult).trans hused)
  · refine fun h => ⟨hretries, fun outcome hresult => ?_⟩
    have hpasses : ∃ report ∈ reports r run.2, report.isPass = true := by
      by_contra hnone
      have hanswered : ∀ d ∈ drafts run.2, ∃ a, d.2 = .ok a := by
        intro d hd
        obtain ⟨i, hi⟩ := List.mem_iff_getElem?.mp hd
        cases hanswer : d.2 with
        | ok a => exact ⟨a, rfl⟩
        | error e => cases hresult.symm.trans (hretries.stopped i d e hi hanswer).2
      obtain ⟨-, dir, -, -, hexhausted, -⟩ := hretries.exhausted
        (fun report hmem => Bool.eq_false_iff.mpr fun hpass => hnone ⟨report, hmem, hpass⟩)
        hanswered
        fun event hevent source hsource =>
          by cases hresult.symm.trans (hretries.broken event hevent source hsource)
      cases hresult.symm.trans hexhausted
    obtain ⟨report, hmem, hpass⟩ := hpasses
    obtain ⟨i, hi⟩ := List.mem_iff_getElem?.mp hmem
    rw [reports, List.getElem?_mapIdx] at hi
    obtain ⟨x, hx, rfl⟩ := Option.map_eq_some_iff.mp hi
    obtain ⟨-, outcome', hresult', hplan, hused⟩ := hretries.accepted i _ (hreport hx) hpass
    obtain rfl := Except.ok.inj (hresult.symm.trans hresult')
    obtain ⟨p, heq, hp⟩ := exists_plan hpass
    rw [heq] at hplan
    obtain rfl := Option.some.inj hplan
    rw [hused]
    exact (attempts_iff hp).mpr (h i x hx hpass)

end

/-! ### A second candidate that says that it is the first -/

attribute [local instance] spellingPlatform plainBuild plainLibrary

/-- A provider whose first candidate is no plan. -/
def countingOracle : Oracle PlannerSignature := fun h o =>
  match o with
  | .requestId => "01ARZ3NDEKTSV4RRFFQ69G5FAV"
  | .draft _ =>
    if (drafts h).isEmpty then .ok ⟨.null, none⟩
    else .ok ⟨arrayPlan.toJson.setMember "provenance" arrayProvenance, none⟩
  | .createDirAll _ => .ok ()
  | .write .. => .ok ()
  | .now => ""
  | .headSubject _ => ""

theorem run_counting : (countingOracle.machine.run (orchestrate arrayRequest) []).1 =
    .ok ⟨arrayPlan, "p", arrayPlan.toJson.compact, "log/01ARZ3NDEKTSV4RRFFQ69G5FAV", 2⟩ := by
  rfl

/-- The plan of the second attempt says that there was one. -/
theorem not_retryProtocol_counting :
    ¬ RetryProtocol arrayRequest (countingOracle.machine.run (orchestrate arrayRequest) []).1
      (countingOracle.machine.run (orchestrate arrayRequest) []).2 := by
  intro h
  exact absurd (h.counted _ run_counting) (by decide)

end Planner

end Ao2
