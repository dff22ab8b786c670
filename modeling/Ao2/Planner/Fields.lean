import Ao2.Core
import Ao2.Interaction.Program
import Ao2.Planner.Schema
import Mathlib.Data.List.Forall2
import Mathlib.Data.List.GetD

/-!
# The orchestrator

A provider is asked for a candidate at most three times. Every candidate is logged, promoted to a plan
and validated; the errors of one attempt are told to the provider with the next. The directory of the
logs has the name that the first candidate gives itself.

What is promoted is the candidate with some fields set to what the engine knows. They are set in
objects only.

A structure is read field by field, of an object or of an array. A field is set in an object only, so
that what is set is not what is read where a candidate has arrays.

## Main results

* `fieldAt_mapFields`, `fieldAt_overwrite` — the fields after a change
* `Plan.fromJson_eq_some` — a plan, field by field
-/

namespace Ao2

namespace Planner

open Interaction

def attemptBudget : ℕ := 3

/-- What was fixed when the planner was built. -/
class PlannerBuild where
  engineSha : String
  packageVersion : String

export PlannerBuild (engineSha packageVersion)

/-! ### The provider -/

structure ProviderRequest where
  requestId : String
  prompt : String
  surfaceMap : SurfaceMap
  priorErrors : List String

/-- What a provider drafted. The cost is the value that it is logged as. -/
structure ProviderResponse where
  candidate : Json
  totalCostUsd : Option Json

inductive ProviderError where
  | exitNonZero (cli : String) (code : Int)
  | signal (cli : String)
  | nonJson (cli reason : String)
  | io (cli source : String)
  | serialize (cli source : String)

inductive OrchestrateError where
  | planExhausted (budget : ℕ) (buildLogDir : String)
  | provider (e : ProviderError)
  | io (source : String)

structure PlanOutcome where
  plan : Plan
  planId : String
  canonicalJson : String
  buildLogDir : String
  attemptsUsed : ℕ

/-- What the planner asks for and does. -/
inductive PlannerOp where
  | requestId
  | draft (request : ProviderRequest)
  | createDirAll (path : String)
  | write (path text : String)
  | now
  | headSubject (repoPath : String)

@[reducible] def PlannerOp.Ans : PlannerOp → Type
  | requestId | now | headSubject _ => String
  | draft _ => Except ProviderError ProviderResponse
  | createDirAll _ | write .. => Except String Unit

@[reducible] def PlannerSignature : Signature := ⟨PlannerOp, PlannerOp.Ans⟩

abbrev PlannerProg (α : Type) := Prog PlannerSignature OrchestrateError α

def performPlanner (o : PlannerOp) : PlannerProg o.Ans := Prog.perform (S := PlannerSignature) o

def createDirAll (path : String) : PlannerProg Unit := do
  let made ← performPlanner (.createDirAll path)
  .ofExcept (made.mapError .io)

def writeText (path text : String) : PlannerProg Unit := do
  let written ← performPlanner (.write path text)
  .ofExcept (written.mapError .io)

/-! ### Promotion -/

/-- The members of an object set; nothing but an object has members to set. -/
def overwrite (fields : List (String × Json)) : Json → Json
  | .obj members => (Json.obj members).putAll fields
  | v => v

/-- The same in a member of an object. -/
def overwriteIn (key : String) (fields : List (String × Json)) (v : Json) : Json :=
  match v.get? key with
  | some member => v.setMember key (overwrite fields member)
  | none => v

/-- What the engine is asked to plan. -/
structure PlanRequest where
  prompt : String
  surfaceMap : SurfaceMap
  buildLogRoot : String
  repoPath : String
  providerName : String

section

variable [Platform] [PlannerBuild] [PlannerLibrary]

/-- The digest that a candidate gets: that of the text it has itself. -/
def promptSha (candidate : Json) : String :=
  sha256Text ((((candidate.get? "prompt").bind (·.get? "text")).bind Json.str?).getD "")

def surfaceMapSha (r : PlanRequest) : String := sha256Json r.surfaceMap.toJson

def promptFields (candidate : Json) : List (String × Json) := [("sha256", .str (promptSha candidate))]

def targetFields (r : PlanRequest) (headSubject : String) : List (String × Json) :=
  [("repo_path", .str r.repoPath), ("head_subject", .str headSubject),
    ("surface_map_sha256", .str (surfaceMapSha r))]

def provenanceFields (r : PlanRequest) (attempt : ℕ) : List (String × Json) :=
  [("attempts", .nat attempt), ("engine_sha", .str engineSha), ("cli_version", .str packageVersion),
    ("provider", .str r.providerName)]

def promoteCandidateToPlan (r : PlanRequest) (attempt : ℕ) (now headSubject : String)
    (candidate : Json) : Json :=
  overwriteIn "provenance" (provenanceFields r attempt) <|
    overwriteIn "target" (targetFields r headSubject) <|
      overwriteIn "prompt" (promptFields candidate) <|
        overwrite [("schema_version", .str schemaVersionText), ("generated_at_utc", .str now)] candidate

/-! ### The attempts -/

/-- What is logged of an attempt. -/
def attemptLog (response : ProviderResponse) : Json :=
  match response.totalCostUsd with
  | some cost => response.candidate.setMember "total_cost_usd" cost
  | none => response.candidate

/-- The name of the directory of the logs. -/
def planIdOf (candidate : Json) (requestId : String) : String :=
  ((candidate.get? "plan_id").bind Json.str?).getD requestId

def attemptFile (attempt : ℕ) : String := "attempt-" ++ toString attempt ++ ".json"

/-- The directory of the logs, which is made for the first candidate. -/
def resolveDir (r : PlanRequest) (dir : Option String) (planId : String) : PlannerProg String :=
  match dir with
  | some dir => pure dir
  | none => do
    let dir := joinPath r.buildLogRoot planId
    createDirAll dir
    pure dir

/-- One attempt: the candidate, the directory of its log and what the validator says. -/
def attemptOnce (r : PlanRequest) (attempt : ℕ) (priorErrors : List String) (dir : Option String) :
    PlannerProg (Json × String × ValidationReport) := do
  let requestId ← performPlanner .requestId
  let drafted ← performPlanner (.draft ⟨requestId, r.prompt, r.surfaceMap, priorErrors⟩)
  let response ← Prog.ofExcept (drafted.mapError .provider)
  let dir ← resolveDir r dir (planIdOf response.candidate requestId)
  writeText (joinPath dir (attemptFile attempt)) (attemptLog response).compact
  let now ← performPlanner .now
  let headSubject ← performPlanner (.headSubject r.repoPath)
  let promoted := promoteCandidateToPlan r attempt now headSubject response.candidate
  pure (response.candidate, dir, validate promoted (some r.surfaceMap))

/-- No attempt is left; `last` is what the last one came to. -/
def giveUp (dir : Option String) (last : Option (String × ValidationReport)) :
    PlannerProg PlanOutcome := do
  let dir := dir.getD ""
  match last with
  | none => pure ()
  | some (text, report) =>
    writeText (joinPath dir "candidate.fail.json") text
    writeText (joinPath dir "validation-errors.txt") report.render
  .fail (.planExhausted attemptBudget dir)

/-- The attempts that are left. -/
def attemptsFrom (r : PlanRequest) : ℕ → (attempt : ℕ) → (priorErrors : List String) →
    (dir : Option String) → (last : Option (String × ValidationReport)) → PlannerProg PlanOutcome
  | 0, _, _, dir, last => giveUp dir last
  | left + 1, attempt, priorErrors, dir, _ => do
    let (candidate, dir, report) ← attemptOnce r attempt priorErrors dir
    -- a report without errors has a plan
    match report.isPass, report.plan with
    | true, some plan => pure ⟨plan, plan.planId, plan.toJson.compact, dir, attempt⟩
    | _, _ =>
      attemptsFrom r left (attempt + 1) report.errorsForProviderFeedback (some dir)
        (some (candidate.compact, report))

def orchestrate (r : PlanRequest) : PlannerProg PlanOutcome :=
  attemptsFrom r attemptBudget 1 [] none none

end

end Planner

end Ao2

/-! ## The fields of a candidate -/

namespace Ao2

namespace Planner

/-! ### Fields of objects and arrays -/

/-- A field of a structure that has these fields. -/
def fieldAt (names : List String) (v : Json) (name : String) : Option Json :=
  match v with
  | .obj members => members.lookup name
  | .arr items => items[names.idxOf name]?
  | _ => none

/-- An object, or an array of one of these lengths. -/
def Shaped (lengths : List ℕ) : Json → Prop
  | .obj _ => True
  | .arr items => items.length ∈ lengths
  | _ => False

def isArray : Json → Bool
  | .arr _ => true
  | _ => false

/-- The fields of a structure changed, each by itself. -/
def mapFields (names : List String) (f : String → Json → Json) : Json → Json
  | .obj members => .obj (members.map fun m => (m.1, f m.1 m.2))
  | .arr items => .arr (items.zipIdx.map fun m => f (names.getD m.2 "") m.1)
  | v => v

section

variable {names : List String} {f : String → Json → Json} {lengths : List ℕ} {v : Json}

@[simp] theorem shaped_mapFields : Shaped lengths (mapFields names f v) ↔ Shaped lengths v := by
  cases v <;> simp [mapFields, Shaped]

@[simp] theorem isArray_mapFields : isArray (mapFields names f v) = isArray v := by
  cases v <;> rfl

theorem lookup_mapFields (members : List (String × Json)) (name : String) :
    (members.map fun m => (m.1, f m.1 m.2)).lookup name = (members.lookup name).map (f name) := by
  induction members with
  | nil => rfl
  | cons m members ih =>
    obtain ⟨key, u⟩ := m
    rw [List.map_cons, List.lookup_cons, List.lookup_cons]
    by_cases hkey : name = key
    · subst hkey
      simp
    · rw [beq_eq_false_iff_ne.mpr hkey]
      exact ih

theorem fieldAt_mapFields {name : String} (hname : name ∈ names) :
    fieldAt names (mapFields names f v) name = (fieldAt names v name).map (f name) := by
  cases v with
  | obj members => exact lookup_mapFields members name
  | arr items =>
    have hlt := List.idxOf_lt_length_of_mem hname
    have hget : names.getD (names.idxOf name) "" = name := by
      rw [List.getD_eq_getElem _ _ hlt, List.getElem_idxOf]
    simp only [mapFields, fieldAt, List.getElem?_map, List.getElem?_zipIdx, Option.map_map]
    congr 1
    funext u
    simp only [Function.comp, Nat.zero_add, hget]
  | _ => rfl

theorem mapFields_mapFields {g : String → Json → Json} : mapFields names g (mapFields names f v) =
    mapFields names (fun name u => g name (f name u)) v := by
  cases v with
  | obj members => simp [mapFields, Function.comp_def]
  | arr items =>
    refine congrArg Json.arr (List.ext_getElem? fun i => ?_)
    simp [Function.comp_def]
  | _ => rfl

theorem fieldAt_overwrite {fields : List (String × Json)} (name : String) (hv : isArray v = false) :
    fieldAt names (overwrite fields v) name =
      if v.isObject then (fields.reverse.lookup name).or (fieldAt names v name) else none := by
  cases v with
  | obj members =>
    have hobject : ((Json.obj members).putAll fields).isObject = true := Json.isObject_putAll rfl
    have hget := @Json.get?_putAll (.obj members) fields rfl name
    rw [overwrite, Json.isObject, if_pos rfl]
    cases hput : (Json.obj members).putAll fields with
    | obj ms =>
      rw [hput] at hget
      exact hget
    | _ => rw [hput] at hobject; cases hobject
  | arr items => cases hv
  | _ => rfl

theorem overwrite_of_isArray {fields : List (String × Json)} (hv : isArray v = true) :
    overwrite fields v = v := by
  cases v with
  | arr items => rfl
  | _ => cases hv

theorem shaped_overwrite {fields : List (String × Json)} :
    Shaped lengths (overwrite fields v) ↔ Shaped lengths v := by
  cases v with
  | obj members =>
    have hobject : ((Json.obj members).putAll fields).isObject = true := Json.isObject_putAll rfl
    rw [overwrite]
    cases hput : (Json.obj members).putAll fields with
    | obj ms => simp [Shaped]
    | _ => rw [hput] at hobject; cases hobject
  | _ => rfl

end

/-! ### Structures field by field -/

def promptNames : List String := ["text", "sha256"]

def targetNames : List String := ["repo_path", "head_sha", "head_subject", "surface_map_sha256"]

def provenanceNames : List String := ["attempts", "provider", "engine_sha", "cli_version"]

def planNames : List String := planFields ++ ["quality"]

theorem str?_eq_some {v : Json} {s : String} : v.str? = some s ↔ v = .str s := by
  cases v <;> simp [Json.str?]

/-- A list read member by member. -/
theorem mapM_eq_some_iff {α β : Type} {f : α → Option β} {l : List α} {bs : List β} :
    l.mapM f = some bs ↔ List.Forall₂ (fun a b => f a = some b) l bs := by
  induction l generalizing bs with
  | nil => cases bs <;> simp
  | cons a l ih =>
    rw [List.mapM_cons]
    constructor
    · intro h
      obtain ⟨b, hb, h⟩ := Option.bind_eq_some_iff.mp h
      obtain ⟨bs', hbs', h⟩ := Option.bind_eq_some_iff.mp h
      cases h
      exact .cons hb (ih.mp hbs')
    · intro h
      cases h with
      | cons hb hbs =>
        exact Option.bind_eq_some_iff.mpr ⟨_, hb, Option.bind_eq_some_iff.mpr ⟨_, ih.mpr hbs, rfl⟩⟩

/-- The fields of a structure are its fields, in order. -/
theorem fieldsOf_eq_some {names : List String} {v : Json} {values : List Json} (hnodup : names.Nodup) :
    fieldsOf names v = some values ↔
      Shaped [names.length] v ∧ List.Forall₂ (fun name u => fieldAt names v name = some u) names values := by
  cases v with
  | obj members =>
    rw [fieldsOf, mapM_eq_some_iff]
    exact (true_and _).symm ▸ Iff.rfl
  | arr items =>
    rw [fieldsOf, Shaped, List.mem_singleton, List.forall₂_iff_get]
    constructor
    · intro h
      split_ifs at h with hlen
      obtain rfl := Option.some.inj h
      refine ⟨hlen, hlen.symm, fun i hi hi' => ?_⟩
      rw [fieldAt, List.get_eq_getElem, hnodup.idxOf_getElem i hi]
      exact List.getElem?_eq_getElem hi'
    · rintro ⟨hlen, hlen', hall⟩
      rw [if_pos hlen]
      refine congrArg some (List.ext_getElem (hlen.trans hlen') fun i hi hi' => ?_)
      have hi'' : i < names.length := hlen ▸ hi
      have h := hall i hi'' hi'
      rw [fieldAt, List.get_eq_getElem, hnodup.idxOf_getElem i hi'', List.getElem?_eq_getElem hi] at h
      exact Option.some.inj h
  | _ => simp [fieldsOf, Shaped]

theorem Prompt.fromJson_eq_some {v : Json} {p : Prompt} : Prompt.fromJson v = some p ↔
    Shaped [2] v ∧ fieldAt promptNames v "text" = some (.str p.text) ∧
      fieldAt promptNames v "sha256" = some (.str p.sha256) := by
  obtain ⟨text, sha256⟩ := p
  rw [Prompt.fromJson, ← promptNames]
  simp only [Option.bind_eq_bind, Option.bind_eq_some_iff,
    fieldsOf_eq_some (show promptNames.Nodup by decide)]
  constructor
  · rintro ⟨values, ⟨hshaped, hfields⟩, h⟩
    rcases hfields with _ | ⟨htext, _ | ⟨hsha, ⟨⟩⟩⟩
    simp only [Option.bind_eq_some_iff, str?_eq_some, Option.some.injEq, Prompt.mk.injEq] at h
    obtain ⟨_, rfl, _, rfl, rfl, rfl⟩ := h
    exact ⟨hshaped, htext, hsha⟩
  · rintro ⟨hshaped, htext, hsha⟩
    exact ⟨_, ⟨hshaped, .cons htext (.cons hsha .nil)⟩, rfl⟩

theorem Target.fromJson_eq_some {v : Json} {t : Target} : Target.fromJson v = some t ↔
    Shaped [4] v ∧ fieldAt targetNames v "repo_path" = some (.str t.repoPath) ∧
      fieldAt targetNames v "head_sha" = some (.str t.headSha) ∧
      fieldAt targetNames v "head_subject" = some (.str t.headSubject) ∧
      fieldAt targetNames v "surface_map_sha256" = some (.str t.surfaceMapSha256) := by
  obtain ⟨repoPath, headSha, headSubject, surfaceMapSha256⟩ := t
  rw [Target.fromJson, ← targetNames]
  simp only [Option.bind_eq_bind, Option.bind_eq_some_iff,
    fieldsOf_eq_some (show targetNames.Nodup by decide)]
  constructor
  · rintro ⟨values, ⟨hshaped, hfields⟩, h⟩
    rcases hfields with _ | ⟨hrepo, _ | ⟨hsha, _ | ⟨hsubject, _ | ⟨hmap, ⟨⟩⟩⟩⟩⟩
    simp only [Option.bind_eq_some_iff, str?_eq_some, Option.some.injEq, Target.mk.injEq] at h
    obtain ⟨_, rfl, _, rfl, _, rfl, _, rfl, rfl, rfl, rfl, rfl⟩ := h
    exact ⟨hshaped, hrepo, hsha, hsubject, hmap⟩
  · rintro ⟨hshaped, hrepo, hsha, hsubject, hmap⟩
    exact ⟨_, ⟨hshaped, .cons hrepo (.cons hsha (.cons hsubject (.cons hmap .nil)))⟩, rfl⟩

theorem Provenance.fromJson_eq_some {v : Json} {p : Provenance} : Provenance.fromJson v = some p ↔
    Shaped [4] v ∧ (fieldAt provenanceNames v "attempts").bind u32Of = some p.attempts ∧
      fieldAt provenanceNames v "provider" = some (.str p.provider) ∧
      fieldAt provenanceNames v "engine_sha" = some (.str p.engineSha) ∧
      fieldAt provenanceNames v "cli_version" = some (.str p.cliVersion) := by
  obtain ⟨attempts, provider, engineSha, cliVersion⟩ := p
  rw [Provenance.fromJson, ← provenanceNames]
  simp only [Option.bind_eq_bind, Option.bind_eq_some_iff,
    fieldsOf_eq_some (show provenanceNames.Nodup by decide)]
  constructor
  · rintro ⟨values, ⟨hshaped, hfields⟩, h⟩
    rcases hfields with _ | ⟨hattempts, _ | ⟨hprovider, _ | ⟨hsha, _ | ⟨hversion, ⟨⟩⟩⟩⟩⟩
    simp only [Option.bind_eq_some_iff, str?_eq_some, Option.some.injEq, Provenance.mk.injEq] at h
    obtain ⟨_, hcount, _, rfl, _, rfl, _, rfl, rfl, rfl, rfl, rfl⟩ := h
    exact ⟨hshaped, ⟨_, hattempts, hcount⟩, hprovider, hsha, hversion⟩
  · rintro ⟨hshaped, ⟨u, hattempts, hcount⟩, hprovider, hsha, hversion⟩
    refine ⟨_, ⟨hshaped, .cons hattempts (.cons hprovider (.cons hsha (.cons hversion .nil)))⟩, ?_⟩
    exact Option.bind_eq_some_iff.mpr ⟨_, hcount, rfl⟩

/-- A plan, its quality aside. -/
theorem splitQuality_eq_some {v : Json} {values : List Json} {quality : Option {v : Json // v ≠ .null}} :
    splitQuality v = some (values, quality) ↔ Shaped [8, 9] v ∧
      List.Forall₂ (fun name u => fieldAt planNames v name = some u) planFields values ∧
      present (fieldAt planNames v "quality") = quality := by
  cases v with
  | obj members =>
    rw [splitQuality, Option.map_eq_some_iff]
    constructor
    · rintro ⟨values, hvalues, heq⟩
      cases heq
      exact ⟨trivial, mapM_eq_some_iff.mp hvalues, rfl⟩
    · rintro ⟨-, hvalues, rfl⟩
      exact ⟨_, mapM_eq_some_iff.mpr hvalues, rfl⟩
  | arr items =>
    have hfield {i : ℕ} (hi : i < planFields.length) :
        fieldAt planNames (.arr items) planFields[i] = items[i]? := by
      rw [fieldAt, planNames, List.idxOf_append_of_mem (List.getElem_mem hi),
        (show planFields.Nodup by decide).idxOf_getElem i hi]
    have hshaped : Shaped [8, 9] (.arr items) ↔ items.length = 8 ∨ items.length = 9 := by
      simp [Shaped]
    rw [splitQuality, hshaped, List.forall₂_iff_get]
    constructor
    · intro h
      split_ifs at h with hlen
      cases h
      refine ⟨hlen, ⟨?_, fun i hi hi' => ?_⟩, rfl⟩
      · rw [List.length_take]
        change 8 = _
        omega
      · rw [List.get_eq_getElem, hfield hi]
        rw [List.length_take] at hi'
        rw [List.get_eq_getElem, List.getElem_take, List.getElem?_eq_getElem]
    · rintro ⟨hlen, ⟨hlen', hall⟩, rfl⟩
      rw [if_pos hlen]
      refine congrArg (fun l => some (l, _)) (List.ext_getElem ?_ fun i hi hi' => ?_)
      · rw [List.length_take, ← hlen']
        change min 8 _ = 8
        omega
      · have hi'' : i < planFields.length := hlen'.symm ▸ hi'
        have h := hall i hi'' hi'
        rw [List.length_take] at hi
        rw [List.get_eq_getElem, hfield hi'', List.getElem?_eq_getElem (show i < items.length by omega)] at h
        rw [List.getElem_take]
        exact Option.some.inj h
  | _ => simp [splitQuality, Shaped]

/-- **A plan, field by field.** -/
theorem Plan.fromJson_eq_some {v : Json} {p : Plan} : Plan.fromJson v = some p ↔
    Shaped [8, 9] v ∧ fieldAt planNames v "schema_version" = some (.str p.schemaVersion) ∧
      fieldAt planNames v "plan_id" = some (.str p.planId) ∧
      fieldAt planNames v "generated_at_utc" = some (.str p.generatedAtUtc) ∧
      (fieldAt planNames v "prompt").bind Prompt.fromJson = some p.prompt ∧
      (fieldAt planNames v "target").bind Target.fromJson = some p.target ∧
      (fieldAt planNames v "plan").bind PlanBody.fromJson = some p.plan ∧
      (fieldAt planNames v "provenance").bind Provenance.fromJson = some p.provenance ∧
      (fieldAt planNames v "trust_boundary").bind TrustBoundary.fromJson = some p.trustBoundary ∧
      present (fieldAt planNames v "quality") = p.quality := by
  obtain ⟨schemaVersion, planId, generatedAtUtc, prompt, target, plan, provenance, trustBoundary,
    quality⟩ := p
  simp only [Plan.fromJson, Option.bind_eq_bind, Option.bind_eq_some_iff, Prod.exists,
    splitQuality_eq_some]
  constructor
  · rintro ⟨values, quality', ⟨hshaped, hfields, rfl⟩, h⟩
    rcases hfields with _ | ⟨hschema, _ | ⟨hid, _ | ⟨hgenerated, _ | ⟨hprompt, _ | ⟨htarget, _ |
      ⟨hplan, _ | ⟨hprovenance, _ | ⟨htrust, ⟨⟩⟩⟩⟩⟩⟩⟩⟩⟩
    simp only [Option.bind_eq_some_iff, str?_eq_some, Option.some.injEq, Plan.mk.injEq] at h
    obtain ⟨_, rfl, _, rfl, _, rfl, _, hp, _, ht, _, hb, _, hv, _, hr, rfl, rfl, rfl, rfl, rfl, rfl,
      rfl, rfl, rfl⟩ := h
    exact ⟨hshaped, hschema, hid, hgenerated, ⟨_, hprompt, hp⟩, ⟨_, htarget, ht⟩, ⟨_, hplan, hb⟩,
      ⟨_, hprovenance, hv⟩, ⟨_, htrust, hr⟩, rfl⟩
  · rintro ⟨hshaped, hschema, hid, hgenerated, ⟨_, hprompt, hp⟩, ⟨_, htarget, ht⟩, ⟨_, hplan, hb⟩,
      ⟨_, hprovenance, hv⟩, ⟨_, htrust, hr⟩, rfl⟩
    refine ⟨_, _, ⟨hshaped, .cons hschema (.cons hid (.cons hgenerated (.cons hprompt (.cons htarget
      (.cons hplan (.cons hprovenance (.cons htrust .nil))))))), rfl⟩, ?_⟩
    simp only [Json.str?, hp, ht, hb, hv, hr, Option.bind_some]

end Planner

end Ao2
