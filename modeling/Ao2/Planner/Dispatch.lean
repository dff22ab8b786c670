import Ao2.Json.Ordered
import Ao2.Planner.Schema
import Ao2.Texts

/-!
# The dispatch bridges

A plan is handed to the operator as a runspec with nodes and edges, and to the run command as a list
of tasks with their dependencies. The runspec is read back into a plan: the dependencies of a step
are the edges that lead to it.

No runspec has a place for the quality of a plan, so that reading it back gives the plan exactly if
the plan has none.

## Main results

* `AoOperator.fromRunspec_toRunspec` — what is read back is the plan without its quality
-/

namespace Ao2

namespace Planner

def sourceSchemaVersion : String := "ao2.sdd-plan.v1"

/-! ### The runspec of the operator -/

namespace AoOperator

def aoOperatorSchemaVersion : String := "ao.run-operator.v1"

structure SourceRef where
  schemaVersion : String

structure RunspecNode where
  acceptance : List String
  id : String
  kind : StepKind
  paths : List String
  rationale : String

structure RunspecEdge where
  fromStep : String
  toStep : String
  deriving DecidableEq

structure AoOperatorRunspec where
  edges : List RunspecEdge
  exitCriteria : ExitCriteria
  generatedAtUtc : String
  goal : String
  kind : PlanKind
  nonGoals : List String
  nodes : List RunspecNode
  planId : String
  prompt : Prompt
  provenance : Provenance
  runspecId : String
  schemaVersion : String
  source : SourceRef
  target : Target
  title : String
  trustBoundary : TrustBoundary

def nodeOf (s : Step) : RunspecNode := ⟨s.acceptance, s.id, s.kind, s.paths, s.rationale⟩

/-- The edges to a step, one for each of its dependencies. -/
def edgesTo (s : Step) : List RunspecEdge := s.dependsOn.map fun dep => ⟨dep, s.id⟩

def toRunspec (plan : Plan) : AoOperatorRunspec where
  edges := plan.plan.steps.flatMap edgesTo
  exitCriteria := plan.plan.exitCriteria
  generatedAtUtc := plan.generatedAtUtc
  goal := plan.plan.goal
  kind := plan.plan.kind
  nonGoals := plan.plan.nonGoals
  nodes := plan.plan.steps.map nodeOf
  planId := plan.planId
  prompt := plan.prompt
  provenance := plan.provenance
  runspecId := plan.planId
  schemaVersion := aoOperatorSchemaVersion
  source := ⟨sourceSchemaVersion⟩
  target := plan.target
  title := plan.plan.title
  trustBoundary := plan.trustBoundary

/-- The sources of the edges to a step. -/
def sourcesOf (edges : List RunspecEdge) (id : String) : List String :=
  (edges.filter (·.toStep = id)).map RunspecEdge.fromStep

def stepOf (edges : List RunspecEdge) (n : RunspecNode) : Step :=
  ⟨n.id, n.kind, n.paths, n.rationale, n.acceptance, sourcesOf edges n.id⟩

def fromRunspec (rs : AoOperatorRunspec) : Plan where
  schemaVersion := sourceSchemaVersion
  planId := rs.planId
  generatedAtUtc := rs.generatedAtUtc
  prompt := rs.prompt
  target := rs.target
  plan := ⟨rs.kind, rs.title, rs.goal, rs.nonGoals, rs.nodes.map (stepOf rs.edges), rs.exitCriteria⟩
  provenance := rs.provenance
  trustBoundary := rs.trustBoundary
  quality := none

def SourceRef.toJson (r : SourceRef) : Json := .object [("schema_version", .str r.schemaVersion)]

def RunspecNode.toJson (n : RunspecNode) : Json :=
  .object [("acceptance", .strs n.acceptance), ("id", .str n.id), ("kind", n.kind.toJson),
    ("paths", .strs n.paths), ("rationale", .str n.rationale)]

def RunspecEdge.toJson (e : RunspecEdge) : Json :=
  .object [("from", .str e.fromStep), ("to", .str e.toStep)]

def AoOperatorRunspec.toJson (rs : AoOperatorRunspec) : Json :=
  .object [("edges", .arr (rs.edges.map RunspecEdge.toJson)),
    ("exit_criteria", rs.exitCriteria.toJson), ("generated_at_utc", .str rs.generatedAtUtc),
    ("goal", .str rs.goal), ("kind", rs.kind.toJson), ("non_goals", .strs rs.nonGoals),
    ("nodes", .arr (rs.nodes.map RunspecNode.toJson)), ("plan_id", .str rs.planId),
    ("prompt", rs.prompt.toJson), ("provenance", rs.provenance.toJson),
    ("runspec_id", .str rs.runspecId), ("schema_version", .str rs.schemaVersion),
    ("source", rs.source.toJson), ("target", rs.target.toJson), ("title", .str rs.title),
    ("trust_boundary", rs.trustBoundary.toJson)]

def emitCanonical (rs : AoOperatorRunspec) : String := rs.toJson.canonicalize.compact

end AoOperator

/-! ### The runspec of the run command -/

namespace Ao2Run

def ao2RunApiVersion : String := "ao2.run/v1"

def ao2RunKind : String := "Run"

structure Metadata where
  name : String
  description : String

structure SourceRef where
  schemaVersion : String
  planId : String
  generatedAtUtc : String

structure Task where
  id : String
  kind : StepKind
  deps : List String
  paths : List String
  rationale : String
  acceptance : List String

structure Spec where
  source : SourceRef
  planKind : PlanKind
  goal : String
  nonGoals : List String
  prompt : Prompt
  target : Target
  provenance : Provenance
  trustBoundary : TrustBoundary
  tasks : List Task
  exitCriteria : ExitCriteria

structure Ao2RunSpec where
  apiVersion : String
  kind : String
  metadata : Metadata
  spec : Spec

def taskOf (s : Step) : Task := ⟨s.id, s.kind, s.dependsOn, s.paths, s.rationale, s.acceptance⟩

def toRunspec (plan : Plan) : Ao2RunSpec where
  apiVersion := ao2RunApiVersion
  kind := ao2RunKind
  metadata := ⟨plan.planId, plan.plan.title⟩
  spec :=
    { source := ⟨sourceSchemaVersion, plan.planId, plan.generatedAtUtc⟩
      planKind := plan.plan.kind
      goal := plan.plan.goal
      nonGoals := plan.plan.nonGoals
      prompt := plan.prompt
      target := plan.target
      provenance := plan.provenance
      trustBoundary := plan.trustBoundary
      tasks := plan.plan.steps.map taskOf
      exitCriteria := plan.plan.exitCriteria }

/-- A task as the operator has it, without its dependencies. -/
def Task.toNode (t : Task) : AoOperator.RunspecNode :=
  ⟨t.acceptance, t.id, t.kind, t.paths, t.rationale⟩

end Ao2Run

/-! ### What is kept -/

/-- The tasks are the nodes in their order, and what a task depends on is what leads to its node. -/
structure SameSteps (run : Ao2Run.Ao2RunSpec) (operator : AoOperator.AoOperatorRunspec) : Prop where
  nodes : run.spec.tasks.map Ao2Run.Task.toNode = operator.nodes
  sources : ∀ task ∈ run.spec.tasks, AoOperator.sourcesOf operator.edges task.id = task.deps
  relation : ∀ dep step, (∃ task ∈ run.spec.tasks, task.id = step ∧ dep ∈ task.deps) ↔
    ⟨dep, step⟩ ∈ operator.edges

/-- The bridges lose nothing of a plan. -/
structure LosesNothing (plan : Plan) : Prop where
  readBack : AoOperator.fromRunspec (AoOperator.toRunspec plan) = plan
  emitted : AoOperator.emitCanonical
      (AoOperator.toRunspec (AoOperator.fromRunspec (AoOperator.toRunspec plan))) =
    AoOperator.emitCanonical (AoOperator.toRunspec plan)
  sameSteps : SameSteps (Ao2Run.toRunspec plan) (AoOperator.toRunspec plan)

/-! ### Accepted plans -/

theorem nodup_of_duplicates {l : List String} (h : duplicates l = []) : l.Nodup := by
  induction l with
  | nil => exact List.nodup_nil
  | cons s rest ih =>
    rw [duplicates] at h
    split at h
    · cases h
    · rename_i hs
      have hrest := ih h
      rw [h] at hs
      exact List.nodup_cons.mpr ⟨fun hmem => hs ⟨hmem, List.not_mem_nil⟩, hrest⟩

section

variable [PlannerLibrary] {plan : Plan} {surfaceMap : Option SurfaceMap}

theorem schemaVersion_of_accepted (h : planErrors plan surfaceMap = []) :
    plan.schemaVersion = schemaVersionText := by
  by_contra hne
  rw [planErrors, if_neg hne] at h
  cases h

theorem nodup_ids_of_accepted (h : planErrors plan surfaceMap = []) :
    (plan.plan.steps.map Step.id).Nodup := by
  rw [planErrors] at h
  have hids := (List.append_eq_nil_iff.mp (List.append_eq_nil_iff.mp h).1).2
  have hnone : checkDuplicateStepIds plan = [] := by
    split at hids
    · assumption
    · exact hids
  refine nodup_of_duplicates (List.eq_nil_of_length_eq_zero ?_)
  have hlength := congrArg List.length hnone
  rwa [checkDuplicateStepIds, List.length_map, List.length_insertionSort] at hlength

end

namespace AoOperator

theorem sourcesOf_append (edges edges' : List RunspecEdge) (id : String) :
    sourcesOf (edges ++ edges') id = sourcesOf edges id ++ sourcesOf edges' id := by
  rw [sourcesOf, List.filter_append, List.map_append]
  rfl

/-- All the edges to a step are its own. -/
theorem sourcesOf_edgesTo (s : Step) : sourcesOf (edgesTo s) s.id = s.dependsOn := by
  rw [sourcesOf, edgesTo, List.filter_map, List.map_map, List.filter_eq_self.mpr]
  · exact List.map_id _
  · intro dep _
    exact decide_eq_true rfl

theorem sourcesOf_eq_nil {steps : List Step} {id : String} (h : id ∉ steps.map Step.id) :
    sourcesOf (steps.flatMap edgesTo) id = [] := by
  rw [sourcesOf, List.filter_eq_nil_iff.mpr]
  · rfl
  · intro e he hto
    obtain ⟨s, hs, he⟩ := List.mem_flatMap.mp he
    obtain ⟨dep, -, rfl⟩ := List.mem_map.mp he
    exact h (List.mem_map.mpr ⟨s, hs, of_decide_eq_true hto⟩)

/-- The dependencies of a step, repeated ones included, are found again among the edges. -/
theorem sourcesOf_steps {steps : List Step} (hids : (steps.map Step.id).Nodup) {s : Step}
    (hs : s ∈ steps) : sourcesOf (steps.flatMap edgesTo) s.id = s.dependsOn := by
  induction steps with
  | nil => cases hs
  | cons first rest ih =>
    rw [List.map_cons, List.nodup_cons] at hids
    rw [List.flatMap_cons, sourcesOf_append]
    cases hs with
    | head => rw [sourcesOf_edgesTo, sourcesOf_eq_nil hids.1, List.append_nil]
    | tail _ hs =>
      have hne : first.id ≠ s.id := fun heq => hids.1 (heq ▸ List.mem_map_of_mem hs)
      have hfirst := @sourcesOf_eq_nil [first] s.id (by
        rw [List.map_singleton, List.mem_singleton]
        exact hne.symm)
      rw [List.flatMap_singleton] at hfirst
      rw [hfirst, ih hids.2 hs, List.nil_append]

theorem steps_readBack {steps : List Step} (hids : (steps.map Step.id).Nodup) :
    (steps.map nodeOf).map (stepOf (steps.flatMap edgesTo)) = steps := by
  rw [List.map_map]
  refine (List.map_congr_left fun s hs => ?_).trans (List.map_id _)
  rw [Function.comp_apply, nodeOf, stepOf, sourcesOf_steps hids hs]
  rfl

/-- A plan comes back without its quality. -/
theorem fromRunspec_toRunspec {plan : Plan} (hversion : plan.schemaVersion = schemaVersionText)
    (hids : (plan.plan.steps.map Step.id).Nodup) :
    fromRunspec (toRunspec plan) = { plan with quality := none } := by
  have hsteps : (toRunspec plan).nodes.map (stepOf (toRunspec plan).edges) = plan.plan.steps :=
    steps_readBack hids
  rw [fromRunspec, hsteps, hversion]
  rfl

end AoOperator

theorem sameSteps_toRunspec {plan : Plan} (hids : (plan.plan.steps.map Step.id).Nodup) :
    SameSteps (Ao2Run.toRunspec plan) (AoOperator.toRunspec plan) where
  nodes := List.map_map
  sources task htask := by
    obtain ⟨s, hs, rfl⟩ := List.mem_map.mp htask
    exact AoOperator.sourcesOf_steps hids hs
  relation dep step := by
    constructor
    · rintro ⟨task, htask, rfl, hdep⟩
      obtain ⟨s, hs, rfl⟩ := List.mem_map.mp htask
      exact List.mem_flatMap.mpr ⟨s, hs, List.mem_map.mpr ⟨dep, hdep, rfl⟩⟩
    · intro hedge
      obtain ⟨s, hs, hedge⟩ := List.mem_flatMap.mp hedge
      obtain ⟨dep', hdep, heq⟩ := List.mem_map.mp hedge
      cases heq
      exact ⟨Ao2Run.taskOf s, List.mem_map_of_mem hs, rfl, hdep⟩

/-- **The bridges lose nothing** of an accepted plan if and only if it has no quality. -/
theorem losesNothing_iff [PlannerLibrary] {plan : Plan} {surfaceMap : Option SurfaceMap}
    (h : planErrors plan surfaceMap = []) : LosesNothing plan ↔ plan.quality = none := by
  have hids := nodup_ids_of_accepted h
  have hback := AoOperator.fromRunspec_toRunspec (schemaVersion_of_accepted h) hids
  constructor
  · intro hkept
    rw [← hkept.readBack]
    rfl
  · intro hquality
    refine ⟨?_, ?_, sameSteps_toRunspec hids⟩
    · rw [hback, ← hquality]
    -- The runspec does not look at the quality, which is all that was lost.
    · rw [hback]
      rfl

/-! ### A plan with a quality -/

def qualityPlan (quality : Option {v : Json // v ≠ .null}) : Plan where
  schemaVersion := schemaVersionText
  planId := "p"
  generatedAtUtc := ""
  prompt := ⟨"", ""⟩
  target := ⟨"", "", "", ""⟩
  plan := ⟨.build, "", "", [], [⟨"step_a", .create, [], "", ["add"], []⟩,
    ⟨"step_b", .test, [], "", ["add"], ["step_a", "step_a"]⟩], ⟨[], [], []⟩⟩
  provenance := ⟨1, "", "", ""⟩
  trustBoundary := ⟨"", false, "", ""⟩
  quality := quality

theorem planErrors_quality (quality : Option {v : Json // v ≠ .null}) :
    @planErrors ⟨fun _ => "", fun s => s, fun l => l⟩ (qualityPlan quality) none = [] := by
  rfl

theorem losesNothing_qualityPlan : LosesNothing (qualityPlan none) ↔ (qualityPlan none).quality = none :=
  @losesNothing_iff ⟨fun _ => "", fun s => s, fun l => l⟩ _ _ (planErrors_quality none)

/-- The quality of an accepted plan does not come back. -/
theorem not_losesNothing_quality : ¬ ∀ (_ : PlannerLibrary) (plan : Plan)
    (surfaceMap : Option SurfaceMap), planErrors plan surfaceMap = [] → LosesNothing plan := by
  intro h
  have hkept := h _ _ none (planErrors_quality (some ⟨.bool true, by decide⟩))
  exact absurd (congrArg (fun plan => plan.quality.isSome) hkept.readBack) (by decide)

end Planner

end Ao2
