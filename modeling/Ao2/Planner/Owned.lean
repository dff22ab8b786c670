import Ao2.Planner.Fields

/-!
# What the engine owns in a plan

Some fields of a plan are the engine's: its digests, its counters and what it was called with. They
are set in the candidate before it is read, but a candidate can have an array where the fields belong,
and then nothing is set.

## Main results

* `fromJson_promote_fill` — without arrays nothing that stood in these fields matters
* `exists_forged` — with arrays the plan has anything there
-/

namespace Ao2

namespace Planner

/-! ### Other values in the fields of the engine -/

/-- Fields of a structure with other values. -/
def fillIn (names owned : List String) (value : String → Json) : Json → Json :=
  mapFields names fun name u => if name ∈ owned then value name else u

def fillField (value : String → Json) (name : String) (u : Json) : Json :=
  if name = "generated_at_utc" then value name
  else if name = "prompt" then fillIn promptNames ["sha256"] value u
  else if name = "target" then fillIn targetNames ["repo_path", "surface_map_sha256"] value u
  else if name = "provenance" then fillIn provenanceNames provenanceNames value u
  else u

theorem fillField_of_notMem {value : String → Json} {name : String}
    (h : name ∉ ["generated_at_utc", "prompt", "target", "provenance"]) : fillField value name = id := by
  simp only [List.mem_cons, List.not_mem_nil, or_false, not_or] at h
  obtain ⟨h₁, h₂, h₃, h₄⟩ := h
  funext u
  rw [fillField, if_neg h₁, if_neg h₂, if_neg h₃, if_neg h₄, id]

/-- A candidate with other values in the fields of the engine. -/
def fill (value : String → Json) : Json → Json := mapFields planNames (fillField value)

/-- The candidates differ in the fields of the engine only. -/
def SameButOwned (c c' : Json) : Prop := fill (fun _ => .null) c = fill (fun _ => .null) c'

/-- The fields of the engine are not all in objects. -/
def HasArray (c : Json) : Prop :=
  isArray c = true ∨ ∃ key ∈ ["prompt", "target", "provenance"], (c.get? key).any isArray = true

/-- A text for every field, and a count that is valid. -/
def forged (x name : String) : Json := if name = "attempts" then .nat 1 else .str x

section

variable {names owned : List String} {value value' : String → Json} {v c : Json} {name : String}

theorem fillIn_fillIn : fillIn names owned value (fillIn names owned value' v) =
    fillIn names owned value v := by
  rw [fillIn, fillIn, mapFields_mapFields]
  refine congrArg (mapFields names · v) ?_
  funext name u
  by_cases hname : name ∈ owned
  · rw [if_pos hname, if_pos hname]
  · rw [if_neg hname, if_neg hname, if_neg hname]

theorem fill_fill : fill value (fill value' c) = fill value c := by
  rw [fill, fill, mapFields_mapFields]
  refine congrArg (mapFields planNames · c) ?_
  funext name u
  rw [fillField, fillField, fillField]
  split_ifs
  · rfl
  · exact fillIn_fillIn
  · exact fillIn_fillIn
  · exact fillIn_fillIn
  · rfl

theorem sameButOwned_fill : SameButOwned c (fill value c) := fill_fill.symm

theorem fieldAt_fillIn (hname : name ∈ names) : fieldAt names (fillIn names owned value v) name =
    if name ∈ owned then (fieldAt names v name).map fun _ => value name else fieldAt names v name := by
  rw [fillIn, fieldAt_mapFields hname]
  by_cases howned : name ∈ owned
  · simp only [if_pos howned]
  · simp only [if_neg howned, Option.map_id']

theorem get?_mapFields {f : String → Json → Json} : (mapFields names f v).get? name =
    (v.get? name).map (f name) := by
  cases v with
  | obj members => exact lookup_mapFields members name
  | _ => rfl

theorem hasArray_fill (value : String → Json) : HasArray (fill value c) ↔ HasArray c := by
  have hany (key : String) : key ∈ ["prompt", "target", "provenance"] →
      ((fill value c).get? key).any isArray = (c.get? key).any isArray := by
    intro hkey
    rw [fill, get?_mapFields, Option.any_map]
    refine congrArg (Option.any · _) (funext fun u => ?_)
    rw [fillField]
    split_ifs with h₁
    · subst h₁
      exact absurd hkey (by decide)
    · exact isArray_mapFields
    · exact isArray_mapFields
    · exact isArray_mapFields
    · rfl
  rw [HasArray, HasArray, fill, isArray_mapFields]
  refine or_congr_right (exists_congr fun key => and_congr_right fun hkey => ?_)
  rw [← hany key hkey, fill]

variable [Platform]

theorem promptSha_fill : promptSha (fill value c) = promptSha c := by
  rw [promptSha, promptSha, fill, get?_mapFields]
  refine congrArg (fun t : Option Json => sha256Text ((t.bind Json.str?).getD "")) ?_
  cases c.get? "prompt" with
  | none => rfl
  | some u =>
    change (fillIn promptNames ["sha256"] value u).get? "text" = u.get? "text"
    rw [fillIn, get?_mapFields]
    cases u.get? "text" <;> rfl

end

/-! ### What promotion sets -/

section

variable {names : List String} {lengths : List ℕ} {c v : Json} {key : String}
  {fields : List (String × Json)}

theorem fieldAt_eq_get? (hv : isArray v = false) (name : String) : fieldAt names v name = v.get? name := by
  cases v with
  | arr items => cases hv
  | _ => rfl

@[simp] theorem isArray_overwrite : isArray (overwrite fields v) = isArray v := by
  cases hv : isArray v with
  | true => rw [overwrite_of_isArray hv, hv]
  | false =>
    cases v with
    | obj members =>
      have hobject : ((Json.obj members).putAll fields).isObject = true := Json.isObject_putAll rfl
      rw [overwrite]
      cases hput : (Json.obj members).putAll fields with
      | obj ms => rfl
      | _ => rw [hput] at hobject; cases hobject
    | arr items => cases hv
    | _ => rfl

theorem overwriteIn_of_isArray (hv : isArray v = true) : overwriteIn key fields v = v := by
  cases v with
  | arr items => rfl
  | _ => cases hv

theorem isArray_overwriteIn : isArray (overwriteIn key fields v) = isArray v := by
  rw [overwriteIn]
  cases v.get? key with
  | none => rfl
  | some u => cases v <;> rfl

theorem shaped_overwriteIn : Shaped lengths (overwriteIn key fields v) ↔ Shaped lengths v := by
  rw [overwriteIn]
  cases v.get? key with
  | none => rfl
  | some u => cases v <;> rfl

theorem get?_setMember (hv : v.isObject = true) (u : Json) (name : String) :
    (v.setMember key u).get? name = if name = key then some u else v.get? name := by
  cases v with
  | obj members =>
    split_ifs with hname
    · subst hname
      exact Json.lookup_go_self members
    · exact Json.lookup_go_of_ne hname members
  | _ => cases hv

theorem get?_overwriteIn (name : String) : (overwriteIn key fields v).get? name =
    if name = key then (v.get? name).map (overwrite fields) else v.get? name := by
  rw [overwriteIn]
  cases hget : v.get? key with
  | none =>
    split_ifs with hname
    · rw [hname, hget, Option.map_none]
    · rfl
  | some u =>
    refine (get?_setMember (Json.isObject_of_get? hget) _ name).trans ?_
    split_ifs with hname
    · rw [hname, hget, Option.map_some]
    · rfl

theorem get?_overwrite (name : String) : (overwrite fields v).get? name =
    if v.isObject then (fields.reverse.lookup name).or (v.get? name) else none := by
  cases v with
  | obj members => exact Json.get?_putAll (v := .obj members) rfl name
  | _ => rfl

variable [Platform] [PlannerBuild] (r : PlanRequest) (attempt : ℕ) (now headSubject : String)

theorem promote_of_isArray (hc : isArray c = true) :
    promoteCandidateToPlan r attempt now headSubject c = c := by
  rw [promoteCandidateToPlan, overwrite_of_isArray hc, overwriteIn_of_isArray hc,
    overwriteIn_of_isArray hc, overwriteIn_of_isArray hc]

theorem isArray_promote :
    isArray (promoteCandidateToPlan r attempt now headSubject c) = isArray c := by
  rw [promoteCandidateToPlan, isArray_overwriteIn, isArray_overwriteIn, isArray_overwriteIn,
    isArray_overwrite]

theorem shaped_promote :
    Shaped lengths (promoteCandidateToPlan r attempt now headSubject c) ↔ Shaped lengths c := by
  rw [promoteCandidateToPlan, shaped_overwriteIn, shaped_overwriteIn, shaped_overwriteIn,
    shaped_overwrite]

/-- What promotion makes of a field that it sets members of. -/
def promotedField (c : Json) (name : String) (u : Json) : Json :=
  if name = "provenance" then overwrite (provenanceFields r attempt) u
  else if name = "target" then overwrite (targetFields r headSubject) u
  else if name = "prompt" then overwrite (promptFields c) u
  else u

theorem get?_promote (hc : c.isObject = true) (name : String) :
    (promoteCandidateToPlan r attempt now headSubject c).get? name =
      if name = "generated_at_utc" then some (.str now)
      else if name = "schema_version" then some (.str schemaVersionText)
      else (c.get? name).map (promotedField r attempt headSubject c name) := by
  have hbase : (overwrite [("schema_version", .str schemaVersionText), ("generated_at_utc", .str now)]
      c).get? name = if name = "generated_at_utc" then some (.str now)
        else if name = "schema_version" then some (.str schemaVersionText) else c.get? name := by
    rw [get?_overwrite, if_pos hc]
    split_ifs with h₁ h₂
    · rw [h₁]; rfl
    · rw [h₂]; rfl
    · simp [List.lookup_cons, beq_eq_false_iff_ne.mpr h₁, beq_eq_false_iff_ne.mpr h₂]
  rw [promoteCandidateToPlan, get?_overwriteIn, get?_overwriteIn, get?_overwriteIn, hbase]
  by_cases h₁ : name = "generated_at_utc"
  · subst h₁; rfl
  by_cases h₂ : name = "schema_version"
  · subst h₂; rfl
  simp only [if_neg h₁, if_neg h₂]
  by_cases h₃ : name = "provenance"
  · subst h₃; rfl
  by_cases h₄ : name = "target"
  · subst h₄; rfl
  by_cases h₅ : name = "prompt"
  · subst h₅; rfl
  have hsame : promotedField r attempt headSubject c name = id := by
    funext u
    rw [promotedField, if_neg h₃, if_neg h₄, if_neg h₅, id]
  rw [if_neg h₃, if_neg h₄, if_neg h₅, hsame, Option.map_id, id]

end

/-! ### Structures that were set -/

section

variable {fields : List (String × Json)} {value : String → Json} {v : Json} {names owned : List String}

/-- What is read of a field that was set in an object, whatever stood in some fields. -/
theorem fieldAt_overwrite_fillIn (hv : isArray v = false) (name : String) (hname : name ∈ names)
    (howned : name ∈ owned → (fields.reverse.lookup name).isSome) :
    fieldAt names (overwrite fields (fillIn names owned value v)) name =
      fieldAt names (overwrite fields v) name := by
  have hobject : (fillIn names owned value v).isObject = v.isObject := by cases v <;> rfl
  have hv' : isArray (fillIn names owned value v) = false := isArray_mapFields.trans hv
  rw [fieldAt_overwrite name hv', fieldAt_overwrite name hv, hobject, fieldAt_fillIn hname]
  by_cases hmem : name ∈ owned
  · obtain ⟨u, hu⟩ := Option.isSome_iff_exists.mp (howned hmem)
    rw [hu, Option.some_or, Option.some_or]
  · rw [if_neg hmem]

theorem shaped_fillIn {lengths : List ℕ} : Shaped lengths (overwrite fields (fillIn names owned value v)) ↔
    Shaped lengths (overwrite fields v) := by
  rw [shaped_overwrite, shaped_overwrite, fillIn, shaped_mapFields]

theorem eq_of_fieldAt_overwrite (hv : isArray v = false) {name : String} {u w : Json}
    (hset : fields.reverse.lookup name = some w) (h : fieldAt names (overwrite fields v) name = some u) :
    u = w := by
  rw [fieldAt_overwrite name hv, hset] at h
  split_ifs at h
  exact (Option.some.inj h).symm

theorem u32Of_nat_eq_some {n : ℕ} {m : UInt32} (h : u32Of (.nat n) = some m) : m.toNat = n := by
  change (if n < 2 ^ 32 then some (UInt32.ofNat n) else none) = some m at h
  split_ifs at h with hlt
  obtain rfl := Option.some.inj h
  exact UInt32.toNat_ofNat_of_lt' hlt

theorem prompt_forged (x : String) {p : Prompt} (h : Prompt.fromJson v = some p) :
    Prompt.fromJson (fillIn promptNames ["sha256"] (forged x) v) = some ⟨p.text, x⟩ := by
  obtain ⟨hshaped, htext, hsha⟩ := Prompt.fromJson_eq_some.mp h
  refine Prompt.fromJson_eq_some.mpr ⟨shaped_mapFields.mpr hshaped, ?_, ?_⟩
  · rw [fieldAt_fillIn (by decide), if_neg (by decide), htext]
  · rw [fieldAt_fillIn (by decide), if_pos (by decide), hsha]
    rfl

theorem target_forged (x : String) {t : Target} (h : Target.fromJson v = some t) :
    Target.fromJson (fillIn targetNames ["repo_path", "surface_map_sha256"] (forged x) v) =
      some ⟨x, t.headSha, t.headSubject, x⟩ := by
  obtain ⟨hshaped, hrepo, hsha, hsubject, hmap⟩ := Target.fromJson_eq_some.mp h
  refine Target.fromJson_eq_some.mpr ⟨shaped_mapFields.mpr hshaped, ?_, ?_, ?_, ?_⟩
  · rw [fieldAt_fillIn (by decide), if_pos (by decide), hrepo]
    rfl
  · rw [fieldAt_fillIn (by decide), if_neg (by decide), hsha]
  · rw [fieldAt_fillIn (by decide), if_neg (by decide), hsubject]
  · rw [fieldAt_fillIn (by decide), if_pos (by decide), hmap]
    rfl

theorem provenance_forged (x : String) {p : Provenance} (h : Provenance.fromJson v = some p) :
    Provenance.fromJson (fillIn provenanceNames provenanceNames (forged x) v) =
      some ⟨1, x, x, x⟩ := by
  obtain ⟨hshaped, hattempts, hprovider, hsha, hversion⟩ := Provenance.fromJson_eq_some.mp h
  obtain ⟨u, hu, -⟩ := Option.bind_eq_some_iff.mp hattempts
  refine Provenance.fromJson_eq_some.mpr ⟨shaped_mapFields.mpr hshaped, ?_, ?_, ?_, ?_⟩
  · rw [fieldAt_fillIn (by decide), if_pos (by decide), hu]
    exact u32Of_nat 1
  · rw [fieldAt_fillIn (by decide), if_pos (by decide), hprovider]
    rfl
  · rw [fieldAt_fillIn (by decide), if_pos (by decide), hsha]
    rfl
  · rw [fieldAt_fillIn (by decide), if_pos (by decide), hversion]
    rfl

section

variable [Platform] (r : PlanRequest) (headSubject : String)

theorem prompt_set (c : Json) (hv : isArray v = false) :
    Prompt.fromJson (overwrite (promptFields c) (fillIn promptNames ["sha256"] value v)) =
      Prompt.fromJson (overwrite (promptFields c) v) := by
  refine Option.ext fun p => ?_
  rw [Prompt.fromJson_eq_some, Prompt.fromJson_eq_some, shaped_fillIn,
    fieldAt_overwrite_fillIn hv "text" (by decide) (by simp),
    fieldAt_overwrite_fillIn hv "sha256" (by decide) fun _ => rfl]

theorem target_set (hv : isArray v = false) :
    Target.fromJson (overwrite (targetFields r headSubject)
        (fillIn targetNames ["repo_path", "surface_map_sha256"] value v)) =
      Target.fromJson (overwrite (targetFields r headSubject) v) := by
  refine Option.ext fun t => ?_
  rw [Target.fromJson_eq_some, Target.fromJson_eq_some, shaped_fillIn,
    fieldAt_overwrite_fillIn hv "repo_path" (by decide) fun _ => rfl,
    fieldAt_overwrite_fillIn hv "head_sha" (by decide) (by simp),
    fieldAt_overwrite_fillIn hv "head_subject" (by decide) (by simp),
    fieldAt_overwrite_fillIn hv "surface_map_sha256" (by decide) fun _ => rfl]

theorem prompt_owned {c : Json} (hv : isArray v = false) {p : Prompt}
    (h : Prompt.fromJson (overwrite (promptFields c) v) = some p) : p.sha256 = promptSha c := by
  obtain ⟨-, -, hsha⟩ := Prompt.fromJson_eq_some.mp h
  exact Json.str.inj (eq_of_fieldAt_overwrite hv rfl hsha)

theorem target_owned (hv : isArray v = false) {t : Target}
    (h : Target.fromJson (overwrite (targetFields r headSubject) v) = some t) :
    t.repoPath = r.repoPath ∧ t.surfaceMapSha256 = surfaceMapSha r := by
  obtain ⟨-, hrepo, -, -, hmap⟩ := Target.fromJson_eq_some.mp h
  exact ⟨Json.str.inj (eq_of_fieldAt_overwrite hv rfl hrepo),
    Json.str.inj (eq_of_fieldAt_overwrite hv rfl hmap)⟩

end

section

variable [PlannerBuild] (r : PlanRequest) (attempt : ℕ)

theorem provenance_set (hv : isArray v = false) :
    Provenance.fromJson (overwrite (provenanceFields r attempt)
        (fillIn provenanceNames provenanceNames value v)) =
      Provenance.fromJson (overwrite (provenanceFields r attempt) v) := by
  refine Option.ext fun p => ?_
  rw [Provenance.fromJson_eq_some, Provenance.fromJson_eq_some, shaped_fillIn,
    fieldAt_overwrite_fillIn hv "attempts" (by decide) fun _ => rfl,
    fieldAt_overwrite_fillIn hv "provider" (by decide) fun _ => rfl,
    fieldAt_overwrite_fillIn hv "engine_sha" (by decide) fun _ => rfl,
    fieldAt_overwrite_fillIn hv "cli_version" (by decide) fun _ => rfl]

theorem provenance_owned (hv : isArray v = false) {p : Provenance}
    (h : Provenance.fromJson (overwrite (provenanceFields r attempt) v) = some p) :
    p.attempts.toNat = attempt ∧ p.provider = r.providerName ∧ p.engineSha = engineSha ∧
      p.cliVersion = packageVersion := by
  obtain ⟨-, hattempts, hprovider, hsha, hversion⟩ := Provenance.fromJson_eq_some.mp h
  obtain ⟨u, hu, hattempts⟩ := Option.bind_eq_some_iff.mp hattempts
  rw [eq_of_fieldAt_overwrite hv rfl hu] at hattempts
  exact ⟨u32Of_nat_eq_some hattempts, Json.str.inj (eq_of_fieldAt_overwrite hv rfl hprovider),
    Json.str.inj (eq_of_fieldAt_overwrite hv rfl hsha),
    Json.str.inj (eq_of_fieldAt_overwrite hv rfl hversion)⟩

end

end

/-! ### Plans -/

/-- The plan has what the engine knows. -/
structure HasEngineValues [Platform] [PlannerBuild] (r : PlanRequest) (attempt : ℕ) (now sha : String)
    (p : Plan) : Prop where
  promptSha : p.prompt.sha256 = sha
  repoPath : p.target.repoPath = r.repoPath
  surfaceMap : p.target.surfaceMapSha256 = surfaceMapSha r
  provider : p.provenance.provider = r.providerName
  engineSha : p.provenance.engineSha = engineSha
  cliVersion : p.provenance.cliVersion = packageVersion
  attempts : p.provenance.attempts.toNat = attempt
  generatedAt : p.generatedAtUtc = now

theorem isObject_of_shaped {lengths : List ℕ} {v : Json} (h : Shaped lengths v)
    (hv : isArray v = false) : v.isObject = true := by
  cases v with
  | obj members => rfl
  | arr items => cases hv
  | _ => cases h

theorem isArray_member {c : Json} (h : ¬ HasArray c) {key : String}
    (hkey : key ∈ ["prompt", "target", "provenance"]) {u : Json} (hu : c.get? key = some u) :
    isArray u = false := by
  refine Bool.eq_false_iff.mpr fun harray => h (.inr ⟨key, hkey, ?_⟩)
  rw [hu]
  exact harray

section

variable [Platform] [PlannerBuild] (r : PlanRequest) (attempt : ℕ) (now headSubject : String)
  {c : Json} {p : Plan} {value : String → Json}

theorem fieldAt_promote (hc : c.isObject = true) (name : String) :
    fieldAt planNames (promoteCandidateToPlan r attempt now headSubject c) name =
      if name = "generated_at_utc" then some (.str now)
      else if name = "schema_version" then some (.str schemaVersionText)
      else (c.get? name).map (promotedField r attempt headSubject c name) := by
  have hno : isArray c = false := by
    cases c with
    | obj members => rfl
    | _ => cases hc
  rw [fieldAt_eq_get? ((isArray_promote r attempt now headSubject).trans hno), get?_promote _ _ _ _ hc]

/-- What is read of a candidate with other values in the fields of the engine. -/
theorem fieldAt_promote_fill (hc : c.isObject = true) (name : String) :
    fieldAt planNames (promoteCandidateToPlan r attempt now headSubject (fill value c)) name =
      if name = "generated_at_utc" then some (.str now)
      else if name = "schema_version" then some (.str schemaVersionText)
      else (c.get? name).map fun u => promotedField r attempt headSubject c name
        (fillField value name u) := by
  have hc' : (fill value c).isObject = true := by
    cases c with
    | obj members => rfl
    | _ => cases hc
  have hfield : promotedField r attempt headSubject (fill value c) =
      promotedField r attempt headSubject c := by
    funext name u
    rw [promotedField, promotedField, promptFields, promptFields, promptSha_fill]
  rw [fieldAt_promote _ _ _ _ hc', hfield, fill, get?_mapFields, Option.map_map]
  rfl

/-- **Without arrays nothing that stood in the fields of the engine matters.** -/
theorem fromJson_promote_fill (value : String → Json) (h : ¬ HasArray c) :
    Plan.fromJson (promoteCandidateToPlan r attempt now headSubject (fill value c)) =
      Plan.fromJson (promoteCandidateToPlan r attempt now headSubject c) := by
  cases hobject : c.isObject with
  | false =>
    cases c with
    | arr items => exact absurd (.inl rfl) h
    | obj members => cases hobject
    | _ => rfl
  | true =>
    have hplain (name : String) (hname : name ∉ ["prompt", "target", "provenance"]) :
        fieldAt planNames (promoteCandidateToPlan r attempt now headSubject (fill value c)) name =
          fieldAt planNames (promoteCandidateToPlan r attempt now headSubject c) name := by
      rw [fieldAt_promote_fill _ _ _ _ hobject, fieldAt_promote _ _ _ _ hobject]
      split_ifs with h₁
      · rfl
      · rfl
      · rw [fillField_of_notMem (List.not_mem_cons_of_ne_of_not_mem h₁ hname)]
        rfl
    have hset {α : Type} {read : Json → Option α} (key : String)
        (hkey : key ∈ ["prompt", "target", "provenance"])
        (hread : ∀ u, isArray u = false →
          read (promotedField r attempt headSubject c key (fillField value key u)) =
            read (promotedField r attempt headSubject c key u)) :
        (fieldAt planNames (promoteCandidateToPlan r attempt now headSubject (fill value c)) key).bind
            read =
          (fieldAt planNames (promoteCandidateToPlan r attempt now headSubject c) key).bind read := by
      rw [fieldAt_promote_fill _ _ _ _ hobject, fieldAt_promote _ _ _ _ hobject]
      split_ifs
      · rfl
      · rfl
      · cases hu : c.get? key with
        | none => rfl
        | some u => exact hread u (isArray_member h hkey hu)
    refine Option.ext fun p => ?_
    rw [Plan.fromJson_eq_some, Plan.fromJson_eq_some, shaped_promote, shaped_promote, fill,
      shaped_mapFields, ← fill, hplain "schema_version" (by decide),
      hplain "plan_id" (by decide), hplain "generated_at_utc" (by decide),
      hplain "plan" (by decide), hplain "trust_boundary" (by decide),
      hplain "quality" (by decide),
      hset "prompt" (by decide) fun _ => prompt_set c,
      hset "target" (by decide) fun _ => target_set r headSubject,
      hset "provenance" (by decide) fun _ => provenance_set r attempt]

/-- **Without arrays the plan has what the engine knows.** -/
theorem hasEngineValues_of_fromJson (h : ¬ HasArray c)
    (hp : Plan.fromJson (promoteCandidateToPlan r attempt now headSubject c) = some p) :
    HasEngineValues r attempt now (promptSha c) p := by
  obtain ⟨hshaped, -, -, hgenerated, hprompt, htarget, -, hprovenance, -, -⟩ :=
    Plan.fromJson_eq_some.mp hp
  have hno : isArray c = false := Bool.eq_false_iff.mpr fun harray => h (.inl harray)
  have hobject := isObject_of_shaped ((shaped_promote ..).mp hshaped) hno
  rw [fieldAt_promote _ _ _ _ hobject] at hgenerated hprompt htarget hprovenance
  have hmember {α : Type} {read : Json → Option α} {a : α} {key : String} {f : Json → Json}
      (hkey : key ∈ ["prompt", "target", "provenance"])
      (hread : ((c.get? key).map f).bind read = some a) :
      ∃ u, isArray u = false ∧ read (f u) = some a := by
    obtain ⟨w, hw, hread⟩ := Option.bind_eq_some_iff.mp hread
    obtain ⟨u, hu, rfl⟩ := Option.map_eq_some_iff.mp hw
    exact ⟨u, isArray_member h hkey hu, hread⟩
  obtain ⟨u, hu, hprompt⟩ := hmember (by decide) hprompt
  obtain ⟨v, hv, htarget⟩ := hmember (by decide) htarget
  obtain ⟨w, hw, hprovenance⟩ := hmember (by decide) hprovenance
  obtain ⟨hrepo, hmap⟩ := target_owned r headSubject hv htarget
  obtain ⟨hattempts, hprovider, hsha, hversion⟩ := provenance_owned r attempt hw hprovenance
  exact ⟨prompt_owned hu hprompt, hrepo, hmap, hprovider, hsha, hversion, hattempts,
    (Json.str.inj (Option.some.inj hgenerated)).symm⟩

end

/-! ### Candidates with arrays -/

theorem planErrors_eq_nil [PlannerLibrary] {p p' : Plan} {map : Option SurfaceMap}
    (h : planErrors p map = []) (hschema : p'.schemaVersion = p.schemaVersion)
    (hplan : p'.plan = p.plan) (htrust : p'.trustBoundary = p.trustBoundary)
    (hattempts : p'.provenance.attempts = p.provenance.attempts ∨ p'.provenance.attempts = 1) :
    planErrors p' map = [] := by
  obtain ⟨schemaVersion, planId, generatedAtUtc, prompt, target, plan, provenance, trustBoundary,
    quality⟩ := p
  obtain ⟨_, _, _, _, _, _, provenance', _, _⟩ := p'
  dsimp only at hschema hplan htrust hattempts
  subst hschema hplan htrust
  have hcount {q : Plan} : checkAttempts q = [] ↔
      1 ≤ q.provenance.attempts.toNat ∧ q.provenance.attempts.toNat ≤ 3 := by
    rw [checkAttempts]
    split_ifs with hrange
    · exact iff_of_true rfl hrange
    · exact iff_of_false nofun hrange
  simp only [planErrors, List.append_eq_nil_iff] at h ⊢
  obtain ⟨⟨⟨⟨⟨⟨⟨⟨⟨h₁, h₂⟩, h₃⟩, h₄⟩, h₅⟩, h₆⟩, h₇⟩, h₈⟩, h₉⟩, h₁₀⟩ := h
  refine ⟨⟨⟨⟨⟨⟨⟨⟨⟨h₁, h₂⟩, hcount.mpr ?_⟩, h₄⟩, h₅⟩, h₆⟩, h₇⟩, h₈⟩, h₉⟩, h₁₀⟩
  dsimp only
  rcases hattempts with hattempts | hattempts
  · rw [hattempts]
    exact hcount.mp h₃
  · rw [hattempts]
    decide

section

variable [Platform] [PlannerBuild] (r : PlanRequest) (attempt : ℕ) (now headSubject x : String)
  {c u : Json}

omit [PlannerBuild] in
theorem prompt_either {p : Prompt} (h : Prompt.fromJson (overwrite (promptFields c) u) = some p) :
    ∃ p', Prompt.fromJson (overwrite (promptFields c) (fillIn promptNames ["sha256"] (forged x) u)) =
      some p' ∧ (isArray u = true → p'.sha256 = x) := by
  cases hu : isArray u with
  | true =>
    rw [overwrite_of_isArray hu] at h
    exact ⟨_, (congrArg _ (overwrite_of_isArray (isArray_mapFields.trans hu))).trans (prompt_forged x h),
      fun _ => rfl⟩
  | false => exact ⟨p, (prompt_set c hu).trans h, nofun⟩

omit [PlannerBuild] in
theorem target_either {t : Target}
    (h : Target.fromJson (overwrite (targetFields r headSubject) u) = some t) :
    ∃ t', Target.fromJson (overwrite (targetFields r headSubject)
      (fillIn targetNames ["repo_path", "surface_map_sha256"] (forged x) u)) = some t' ∧
        (isArray u = true → t'.repoPath = x) := by
  cases hu : isArray u with
  | true =>
    rw [overwrite_of_isArray hu] at h
    exact ⟨_, (congrArg _ (overwrite_of_isArray (isArray_mapFields.trans hu))).trans (target_forged x h),
      fun _ => rfl⟩
  | false => exact ⟨t, (target_set r headSubject hu).trans h, nofun⟩

omit [Platform] in
theorem provenance_either {p : Provenance}
    (h : Provenance.fromJson (overwrite (provenanceFields r attempt) u) = some p) :
    ∃ p', Provenance.fromJson (overwrite (provenanceFields r attempt)
      (fillIn provenanceNames provenanceNames (forged x) u)) = some p' ∧
        (p'.attempts = p.attempts ∨ p'.attempts = 1) ∧ (isArray u = true → p'.provider = x) := by
  cases hu : isArray u with
  | true =>
    rw [overwrite_of_isArray hu] at h
    exact ⟨_, (congrArg _ (overwrite_of_isArray (isArray_mapFields.trans hu))).trans
      (provenance_forged x h), .inr rfl, fun _ => rfl⟩
  | false => exact ⟨p, (provenance_set r attempt hu).trans h, .inl rfl, nofun⟩

variable [PlannerLibrary] {p : Plan}

/-- A candidate that is an array. -/
theorem forged_array (hc : isArray c = true)
    (hp : Plan.fromJson (promoteCandidateToPlan r attempt now headSubject c) = some p) :
    ∃ p', Plan.fromJson (promoteCandidateToPlan r attempt now headSubject (fill (forged x) c)) =
      some p' ∧ p'.generatedAtUtc = x ∧ ∀ map, planErrors p map = [] → planErrors p' map = [] := by
  have hc' : isArray (fill (forged x) c) = true := isArray_mapFields.trans hc
  rw [promote_of_isArray _ _ _ _ hc] at hp
  rw [promote_of_isArray _ _ _ _ hc']
  obtain ⟨hshaped, hschema, hid, hgenerated, hprompt, htarget, hplan, hprovenance, htrust, hquality⟩ :=
    Plan.fromJson_eq_some.mp hp
  obtain ⟨u, hu, hprompt⟩ := Option.bind_eq_some_iff.mp hprompt
  obtain ⟨v, hv, htarget⟩ := Option.bind_eq_some_iff.mp htarget
  obtain ⟨w, hw, hprovenance⟩ := Option.bind_eq_some_iff.mp hprovenance
  have hfield (name : String) (hname : name ∈ planNames) : fieldAt planNames (fill (forged x) c) name =
      (fieldAt planNames c name).map (fillField (forged x) name) := fieldAt_mapFields hname
  have hplain (name : String) (hname : name ∈ planNames)
      (hother : name ∉ ["generated_at_utc", "prompt", "target", "provenance"]) :
      fieldAt planNames (fill (forged x) c) name = fieldAt planNames c name := by
    rw [hfield name hname, fillField_of_notMem hother, Option.map_id, id]
  let p' : Plan := ⟨p.schemaVersion, p.planId, x, ⟨p.prompt.text, x⟩,
    ⟨x, p.target.headSha, p.target.headSubject, x⟩, p.plan, ⟨1, x, x, x⟩, p.trustBoundary, p.quality⟩
  have hp' : Plan.fromJson (fill (forged x) c) = some p' := by
    rw [Plan.fromJson_eq_some, hplain "schema_version" (by decide) (by decide),
      hplain "plan_id" (by decide) (by decide), hfield "generated_at_utc" (by decide),
      hfield "prompt" (by decide), hfield "target" (by decide), hplain "plan" (by decide) (by decide),
      hfield "provenance" (by decide), hplain "trust_boundary" (by decide) (by decide),
      hplain "quality" (by decide) (by decide), hu, hv, hw, hgenerated]
    exact ⟨shaped_mapFields.mpr hshaped, hschema, hid, rfl, prompt_forged x hprompt,
      target_forged x htarget, hplan, provenance_forged x hprovenance, htrust, hquality⟩
  exact ⟨p', hp', rfl, fun map hmap => planErrors_eq_nil hmap rfl rfl rfl (.inr rfl)⟩

/-- A candidate that is an object, and what it has in arrays. -/
theorem forged_object (hc : c.isObject = true)
    (hp : Plan.fromJson (promoteCandidateToPlan r attempt now headSubject c) = some p) :
    ∃ p', Plan.fromJson (promoteCandidateToPlan r attempt now headSubject (fill (forged x) c)) =
      some p' ∧ ((c.get? "prompt").any isArray = true → p'.prompt.sha256 = x) ∧
        ((c.get? "target").any isArray = true → p'.target.repoPath = x) ∧
        ((c.get? "provenance").any isArray = true → p'.provenance.provider = x) ∧
        ∀ map, planErrors p map = [] → planErrors p' map = [] := by
  obtain ⟨hshaped, hschema, hid, hgenerated, hprompt, htarget, hplan, hprovenance, htrust, hquality⟩ :=
    Plan.fromJson_eq_some.mp hp
  rw [fieldAt_promote _ _ _ _ hc] at hprompt htarget hprovenance
  have hmember {α : Type} {read : Json → Option α} {a : α} {key : String} {f : Json → Json}
      (hread : ((c.get? key).map f).bind read = some a) :
      ∃ u, c.get? key = some u ∧ read (f u) = some a := by
    obtain ⟨w, hw, hread⟩ := Option.bind_eq_some_iff.mp hread
    obtain ⟨u, hu, rfl⟩ := Option.map_eq_some_iff.mp hw
    exact ⟨u, hu, hread⟩
  obtain ⟨u, hu, hprompt⟩ := hmember hprompt
  obtain ⟨v, hv, htarget⟩ := hmember htarget
  obtain ⟨w, hw, hprovenance⟩ := hmember hprovenance
  obtain ⟨prompt', hprompt', hsha⟩ := prompt_either x hprompt
  obtain ⟨target', htarget', hrepo⟩ := target_either r headSubject x htarget
  obtain ⟨provenance', hprovenance', hattempts, hprovider⟩ := provenance_either r attempt x hprovenance
  have hplain (name : String) (hother : name ∉ ["generated_at_utc", "prompt", "target", "provenance"]) :
      fieldAt planNames (promoteCandidateToPlan r attempt now headSubject (fill (forged x) c)) name =
        fieldAt planNames (promoteCandidateToPlan r attempt now headSubject c) name := by
    rw [fieldAt_promote_fill _ _ _ _ hc, fieldAt_promote _ _ _ _ hc, fillField_of_notMem hother]
    rfl
  let p' : Plan := ⟨p.schemaVersion, p.planId, now, prompt', target', p.plan, provenance',
    p.trustBoundary, p.quality⟩
  have hp' : Plan.fromJson (promoteCandidateToPlan r attempt now headSubject (fill (forged x) c)) =
      some p' := by
    rw [Plan.fromJson_eq_some, shaped_promote, hplain "schema_version" (by decide),
      hplain "plan_id" (by decide), fieldAt_promote_fill _ _ _ _ hc, fieldAt_promote_fill _ _ _ _ hc,
      fieldAt_promote_fill _ _ _ _ hc, hplain "plan" (by decide), fieldAt_promote_fill _ _ _ _ hc,
      hplain "trust_boundary" (by decide), hplain "quality" (by decide), hu, hv, hw]
    exact ⟨shaped_mapFields.mpr ((shaped_promote ..).mp hshaped), hschema, hid, rfl, hprompt', htarget',
      hplan, hprovenance', htrust, hquality⟩
  refine ⟨p', hp', ?_, ?_, ?_, fun map hmap => planErrors_eq_nil hmap rfl rfl rfl hattempts⟩
  · rw [hu]; exact hsha
  · rw [hv]; exact hrepo
  · rw [hw]; exact hprovider

/-- **With arrays the plan has anything in a field of the engine.** -/
theorem exists_forged (hc : HasArray c)
    (hp : Plan.fromJson (promoteCandidateToPlan r attempt now headSubject c) = some p) :
    ∃ field : Plan → String, ∀ x, ∃ p',
      Plan.fromJson (promoteCandidateToPlan r attempt now headSubject (fill (forged x) c)) = some p' ∧
        field p' = x ∧ ∀ map, planErrors p map = [] → planErrors p' map = [] := by
  rcases hc with hc | ⟨key, hkey, hc⟩
  · exact ⟨Plan.generatedAtUtc, fun x => forged_array r attempt now headSubject x hc hp⟩
  · have hobject : c.isObject = true := by
      cases hu : c.get? key with
      | none => rw [hu] at hc; cases hc
      | some u => exact Json.isObject_of_get? hu
    have hforged x := forged_object r attempt now headSubject x hobject hp
    rcases List.mem_cons.mp hkey with rfl | hkey
    · refine ⟨fun p => p.prompt.sha256, fun x => ?_⟩
      obtain ⟨p', hp', hsha, -, -, hpass⟩ := hforged x
      exact ⟨p', hp', hsha hc, hpass⟩
    rcases List.mem_cons.mp hkey with rfl | hkey
    · refine ⟨fun p => p.target.repoPath, fun x => ?_⟩
      obtain ⟨p', hp', -, hrepo, -, hpass⟩ := hforged x
      exact ⟨p', hp', hrepo hc, hpass⟩
    · obtain rfl := List.mem_singleton.mp hkey
      refine ⟨fun p => p.provenance.provider, fun x => ?_⟩
      obtain ⟨p', hp', -, -, hprovider, hpass⟩ := hforged x
      exact ⟨p', hp', hprovider hc, hpass⟩

end

end Planner

end Ao2
