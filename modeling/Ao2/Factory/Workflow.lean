import Ao2.Factory.Graph

/-!
# Workflows of factory requests

A workflow is made of a RunSpec and a profile, and so is a translation of the RunSpec. Both list tasks
and edges.

## Main results

* `sameGraph_iff` — this is so where no identifier is padded and the roles of a profile are not mixed
  with older roles
-/

namespace Ao2

namespace Factory

open Json

/-! ### Fields -/

def textAt (key : String) (v : Json) : Option String := (v.get? key).bind str?

def textOr (key default : String) (v : Json) : Json := .str ((textAt key v).getD default)

/-- The value of a field, or an empty list. -/
def listOr (key : String) (v : Json) : Json := (v.get? key).getD (.arr [])

def factoryRequestString (value : Json) (key : String) : Option String :=
  ((textAt key value).map trim).filter (· ≠ "")

def factoryRequestRedactedString (value : Json) (key : String) : Option String :=
  (factoryRequestString value key).map redacted

def factoryRequestRedactedStringArray (value : Json) (key : String) : List String :=
  (factoryJsonStringArray (value.get? key)).map redacted

def factoryRunspecVerifierCommand (runspecValue : Option Json) : String :=
  let command := runspecValue.bind fun runspec =>
    ((runspec.get? "verifier").bind fun verifier => verifier.str?.orElse fun _ => textAt "command" verifier).orElse
      fun _ => textAt "verify" runspec
  ((command.map trim).filter (· ≠ "")).getD "npm run verify"

/-! ### Roles -/

def factoryDefaultRoles : List String :=
  ["planner", "implementer", "reviewer", "test-engineer", "evaluator-closer"]

def factoryRequiredRoleOutputs : List String :=
  ["evidence", "concerns", "blockers", "changed_files", "sandbox", "secret_redaction"]

/-- Texts without repetition, in the order of their first occurrence. -/
def firstOccurrences (texts : List String) : List String :=
  texts.foldl (fun seen text => if text ∈ seen then seen else seen ++ [text]) []

def factoryRunspecRoleIds (runspecValue : Option Json) : List String :=
  let tasks := factoryRunspecTasks runspecValue
  if tasks ≠ [] then
    firstOccurrences ((tasks.filter fun task => (textAt "kind" task).getD "agent" = "agent").filterMap trimmedId)
  else firstOccurrences ((factoryLegacyRunspecRoles runspecValue).filterMap trimmedId)

/-- The roles where no contract of a role is given. -/
def factoryCompatRoles (runspecValue profileValue : Option Json) : List Json :=
  let profileRoles := factoryProfileRoles profileValue
  if profileRoles ≠ [] then
    profileRoles.map fun role =>
      let key := (itemId role).getD ""
      .obj [("role_id", .str key), ("role_name", textOr "role" key role),
        ("source", .str "factory-v3-profile-role"),
        ("provider_profile", textOr "provider_key" "scripted" role), ("deps", .strs (itemDeps role)),
        ("reads", listOr "reads" role), ("writes", listOr "writes" role),
        ("instructions", listOr "instructions" role), ("status_required", .bool true),
        ("outputs", .strs factoryRequiredRoleOutputs)]
  else
    let runspecRoles := factoryRunspecRoleIds runspecValue
    if runspecRoles ≠ [] then
      let roleSource := if factoryRunspecTasks runspecValue ≠ [] then "factory-v3-runspec-task"
        else "factory-v3-legacy-runspec-role"
      runspecRoles.map fun role => .obj [("role_id", .str role), ("source", .str roleSource),
        ("status_required", .bool true), ("outputs", .strs factoryRequiredRoleOutputs)]
    else
      factoryDefaultRoles.map fun role => .obj [("role_id", .str role),
        ("source", .str "ao2-default-factory-compatible-contract"), ("status_required", .bool true),
        ("outputs", .strs factoryRequiredRoleOutputs)]

def roleIds (roles : List Json) : List String := roles.filterMap (textAt "role_id")

/-- Texts in order, none twice. -/
def sortedTexts (texts : List String) : List String :=
  texts.foldl (fun seen text => if text ∈ seen then seen else seen.orderedInsert (· ≤ ·) text) []

def factoryProviderProfiles (runspecValue profileValue : Option Json) : List String :=
  let trimmedAt := fun key item => ((textAt key item).map trim).filter (· ≠ "")
  let tasks := factoryRunspecTasks runspecValue
  let ofRunspec :=
    if tasks ≠ [] then tasks.filterMap fun task => (task.get? "spec").bind (trimmedAt "provider")
    else (factoryLegacyRunspecRoles runspecValue).filterMap (trimmedAt "provider_key")
  let providers := sortedTexts ((factoryProfileRoles profileValue).filterMap (trimmedAt "provider_key") ++ ofRunspec)
  if providers = [] then ["scripted", "codex", "claude"] else providers

/-! ### Translations -/

def edgeValues (items : List Json) : List Json :=
  items.flatMap fun item => (itemDeps item).map fun dep => .strs [dep, (itemId item).getD ""]

def translationValue (source : String) (taskGraph edges : List Json) (roles : List Json)
    (providers : List String) : Json :=
  .obj [("source", .str source), ("task_count", .nat taskGraph.length), ("task_graph", .arr taskGraph),
    ("direct_dependency_edges", .arr edges), ("role_ids", .strs (roleIds roles)),
    ("providers", .strs providers)]

def translatedProfileRole (role : Json) : Json :=
  .obj [("id", .str ((itemId role).getD "")), ("kind", .str "agent"), ("deps", .strs (itemDeps role)),
    ("provider_profile", textOr "provider_key" "" role), ("reads", listOr "reads" role),
    ("writes", listOr "writes" role), ("instructions", listOr "instructions" role)]

def translatedLegacyRole (role : Json) : Json :=
  .obj [("id", .str ((itemId role).getD "")), ("kind", .str "agent"), ("deps", .strs (itemDeps role)),
    ("provider_profile", textOr "provider_key" "" role), ("host_tags", listOr "host_tag" role),
    ("reads", listOr "reads" role), ("writes", listOr "writes" role)]

def specOf (task : Json) : Json := (task.get? "spec").getD .null

def translatedTask (task : Json) : Json :=
  .obj [("id", .str ((itemId task).getD "")), ("kind", textOr "kind" "agent" task),
    ("deps", .strs (itemDeps task)), ("provider", textOr "provider" "" (specOf task)),
    ("agent", textOr "agent" "" (specOf task)), ("prompt_file", textOr "promptFile" "" (specOf task)),
    ("policy_profile", textOr "policyProfile" "" (specOf task))]

def factoryRunspecTranslation (runspecValue profileValue : Option Json) (roles : List Json) : Json :=
  let providers := factoryProviderProfiles runspecValue profileValue
  let tasks := factoryRunspecTasks runspecValue
  if tasks = [] then
    let profileRoles := factoryProfileRoles profileValue
    if profileRoles ≠ [] then
      translationValue "factory-v3-profile" (profileRoles.map translatedProfileRole)
        (edgeValues profileRoles) roles providers
    else
      let legacyRoles := factoryLegacyRunspecRoles runspecValue
      if legacyRoles = [] then
        translationValue "ao2-default-factory-compatible-workflow" [] [] roles
          (factoryProviderProfiles none none)
      else
        translationValue "factory-v3-legacy-roles-runspec" (legacyRoles.map translatedLegacyRole)
          (edgeValues legacyRoles) roles providers
  else
    translationValue "factory-v3-runspec" (tasks.map translatedTask) (edgeValues tasks) roles providers

/-! ### Workflows -/

def profileTask (role : Json) (key : String) : Json :=
  .obj [("id", .str key), ("role", .str key), ("kind", .str "agent"),
    ("provider_profile", textOr "provider_key" "scripted" role), ("reads", listOr "reads" role),
    ("writes", listOr "writes" role), ("instructions", listOr "instructions" role),
    ("policy_profile", .str "factory-v3-profile-role")]

def legacyTask (role : Json) (key : String) : Json :=
  .obj [("id", .str key), ("role", .str key), ("kind", .str "agent"),
    ("provider_profile", textOr "provider_key" "" role), ("host_tags", listOr "host_tag" role),
    ("reads", listOr "reads" role), ("writes", listOr "writes" role),
    ("policy_profile", .str "factory-v3-legacy-runspec-role")]

def defaultTask (role : String) : Json :=
  .obj [("id", .str role), ("role", .str role), ("kind", .str "agent"), ("provider", .str "scripted"),
    ("prompt_file", .null), ("policy_profile", .str "ao2-default-local")]

def runspecTask (task : Json) (key : String) : Json :=
  .obj [("id", .str key), ("role", .str key), ("kind", textOr "kind" "agent" task),
    ("provider", textOr "provider" "scripted" (specOf task)), ("agent", textOr "agent" "" (specOf task)),
    ("prompt_file", textOr "promptFile" "" (specOf task)),
    ("policy_profile", textOr "policyProfile" "ao2-default-local" (specOf task))]

def factoryWorkflowTasks (runspecValue profileValue : Option Json) (ids : List String) : List Json :=
  let tasks := factoryRunspecTasks runspecValue
  if tasks = [] then
    let profileRoles := factoryProfileRoles profileValue
    if profileRoles ≠ [] then profileRoles.filterMap fun role => (trimmedId role).map (profileTask role)
    else
      let legacyRoles := factoryLegacyRunspecRoles runspecValue
      if legacyRoles = [] then ids.map defaultTask
      else legacyRoles.filterMap fun role => (trimmedId role).map (legacyTask role)
  else tasks.filterMap fun task => (trimmedId task).map (runspecTask task)

/-- The dependencies of the items that have an identifier, as it stands. -/
def dependencyValues (source : String) (items : List Json) : List Json :=
  items.flatMap fun item =>
    match itemId item with
    | none => []
    | some key => (itemDeps item).map fun dep =>
        .obj [("from", .str dep), ("to", .str key), ("source", .str source)]

def factoryWorkflowDependencies (runspecValue profileValue : Option Json) : List Json :=
  let tasks := factoryRunspecTasks runspecValue
  if tasks ≠ [] then dependencyValues "factory-v3-runspec-deps" tasks
  else
    let dependencies := dependencyValues "factory-v3-profile-role-deps" (factoryProfileRoles profileValue)
    if dependencies ≠ [] then dependencies
    else dependencyValues "factory-v3-legacy-runspec-role-deps" (factoryLegacyRunspecRoles runspecValue)

def defaultAcceptance : List String :=
  ["AO2 executes the generated workflow without factory-v3 driving the run.",
    "Midpoint and closure evidence include concerns, blockers, changed files, sandbox, and redaction status.",
    "Replay has zero digest failures."]

def factoryCompatWorkflowValue (workflowId : String) (requestValue : Json)
    (runspecValue profileValue : Option Json) (roles : List Json) : Json :=
  let ids := roleIds roles
  let acceptance := factoryRequestRedactedStringArray requestValue "acceptance"
  let objective := (factoryRequestRedactedString requestValue "objective").orElse fun _ =>
    factoryRequestRedactedString requestValue "title"
  .obj [("id", .str workflowId), ("name", .str workflowId),
    ("description", .str "AO2-native workflow materialized from factory-v3-compatible request and RunSpec inputs."),
    ("version", .str "0.1.0"), ("template_kind", .str "real_project"),
    ("objective", .str (objective.getD "Execute factory-v3-compatible governed work through AO2.")),
    ("roles", .strs (if ids = [] then factoryDefaultRoles else ids)),
    ("tasks", .arr (factoryWorkflowTasks runspecValue profileValue ids)),
    ("dependencies", .arr (factoryWorkflowDependencies runspecValue profileValue)), ("inputs", .arr []),
    ("budgets", .obj [("max_repair_attempts", .nat 1), ("provider_budget_owner", .str "ao2")]),
    ("tool_scopes", .obj [("target_repo", .str "governed_write_after_policy_approval"),
      ("network", .str "provider_cli_oauth_only"), ("secrets", .str "redacted_and_never_logged")]),
    ("approval_rules", .obj [("mode", .str "exact_action_digest"),
      ("risky_actions_require_approval", .bool true)]),
    ("evaluator", .obj [("role", .str "evaluator-closer"), ("owner", .str "ao2-native-evaluator-closer"),
      ("factory_v3_role", .str "parity_oracle_only")]),
    ("verifier", .obj [("command", .str (factoryRunspecVerifierCommand runspecValue))]),
    ("policy", .obj [("deny_by_default", .bool true), ("approval_mode", .str "exact_action_digest"),
      ("risky_actions", .strs ["git_push", "destructive_delete", "package_install", "network_egress",
        "secret_read"]),
      ("profile_policy_posture", (profileValue.bind (get? "policy_posture")).getD (.obj []))]),
    ("evidence", .obj [("evidence_cockpit", .str "required"), ("replay", .str "required"),
      ("required_artifacts", .strs ["planning_evidence", "plan", "provider_output", "concern_report",
        "test_log", "closure_report"])]),
    ("acceptance", .strs (if acceptance = [] then defaultAcceptance else acceptance)),
    ("factory_v3_compatibility", .obj [
      ("source", .str "factory-v3-style request/profile/runspec/role-contract inputs"),
      ("factory_v3_role", .str "parity_oracle_only"), ("ao2_execution_owner", .bool true),
      ("legacy_roles_runspec", .bool (factoryLegacyRunspecRoles runspecValue ≠ []))])]

/-! ### The graph of the source -/

/-- The items that a workflow is made of: the tasks of the RunSpec, or else the roles of the profile, or
else the roles of the RunSpec. -/
def sourceItems (runspecValue profileValue : Option Json) : List Json :=
  if factoryRunspecTasks runspecValue ≠ [] then factoryRunspecTasks runspecValue
  else if factoryProfileRoles profileValue ≠ [] then factoryProfileRoles profileValue
  else factoryLegacyRunspecRoles runspecValue

/-- The values of a list in an object. -/
def listedAt (key : String) (v : Json) : List Json := ((v.get? key).bind arr?).getD []

/-- Both ends of a dependency of a workflow. -/
def fromTo (v : Json) : Option String × Option String := (textAt "from" v, textAt "to" v)

/-- Both texts of an edge of a translation. -/
def bothOf : Json → Option String × Option String
  | .arr [dep, key] => (dep.str?, key.str?)
  | _ => (none, none)

def someBoth (edge : String × String) : Option String × Option String := (some edge.1, some edge.2)

/-- A workflow and a translation have the graph of some items: their identifiers, in order and each
once, and the edges among them, which form no cycle. -/
structure SameGraph (workflow translation : Json) (items : List Json) : Prop where
  tasks : (listedAt "tasks" workflow).map itemId = (firstOccurrences (items.filterMap trimmedId)).map some
  translated : (listedAt "task_graph" translation).map itemId =
    (firstOccurrences (items.filterMap trimmedId)).map some
  edges : ∀ edge, edge ∈ (listedAt "dependencies" workflow).map fromTo ↔
    edge ∈ (edgesOf items).map someBoth
  translatedEdges : ∀ edge, edge ∈ (listedAt "direct_dependency_edges" translation).map bothOf ↔
    edge ∈ (edgesOf items).map someBoth
  joins : ∀ edge ∈ edgesOf items, some edge.1 ∈ (listedAt "tasks" workflow).map itemId ∧
    some edge.2 ∈ (listedAt "tasks" workflow).map itemId
  acyclic : Graphs.Acyclic fun key dep => (dep, key) ∈ edgesOf items

/-- Items whose identifiers are not blank and not padded. -/
def IsPlain (items : List Json) : Prop :=
  ∀ item ∈ items, ∃ key, itemId item = some key ∧ key ≠ "" ∧ trim key = key

/-- Both validations accept. -/
structure Accepted (runspecValue profileValue : Option Json) : Prop where
  runspec : ∀ value ∈ runspecValue, ∀ turns, (runspecItems value).length < turns →
    validateFactoryRunspecGraph turns value = some (.ok ())
  profile : ∀ value ∈ profileValue, ∀ turns, (factoryProfileRoles (some value)).length < turns →
    validateFactoryProfileGraph turns value = some (.ok ())

variable {items : List Json} {runspecValue profileValue : Option Json}

theorem firstOccurrences_of_nodup {texts : List String} (h : texts.Nodup) :
    firstOccurrences texts = texts := by
  have hfold : ∀ {seen texts : List String}, (seen ++ texts).Nodup →
      texts.foldl (fun seen text => if text ∈ seen then seen else seen ++ [text]) seen = seen ++ texts := by
    intro seen texts
    induction texts generalizing seen with
    | nil => simp
    | cons text texts ih =>
      intro hnodup
      have hfresh : text ∉ seen := fun hin =>
        (List.nodup_append.mp hnodup).2.2 text hin text List.mem_cons_self rfl
      rw [List.foldl_cons, if_neg hfresh, ih (by rwa [List.append_assoc]), List.append_assoc]
      rfl
  exact hfold h

theorem trimmedId_of_plain {item : Json} {key : String} (h : itemId item = some key) (hne : key ≠ "")
    (htrim : trim key = key) : trimmedId item = some key := by
  rw [trimmedId, h, Option.map_some, htrim, Option.filter_some, if_pos (decide_eq_true hne)]

/-- Items without blank and padded identifiers are those that are listed as they stand. -/
theorem map_eq_filterMap_iff :
    (items.map fun item => (itemId item).getD "") = items.filterMap trimmedId ↔ IsPlain items := by
  induction items with
  | nil => exact iff_of_true rfl fun _ h => absurd h List.not_mem_nil
  | cons item items ih =>
    rw [IsPlain, List.forall_mem_cons, List.map_cons]
    constructor
    · intro h
      cases hkey : trimmedId item with
      | none =>
        rw [List.filterMap_cons_none hkey] at h
        have hlength := congrArg List.length h
        have hle := List.length_filterMap_le trimmedId items
        rw [List.length_cons, List.length_map] at hlength
        omega
      | some key =>
        rw [List.filterMap_cons_some hkey] at h
        obtain ⟨hhead, htail⟩ := List.cons.inj h
        rw [trimmedId, Option.filter_eq_some_iff, Option.map_eq_some_iff, decide_eq_true_eq] at hkey
        obtain ⟨⟨raw, hraw, htrim⟩, hne⟩ := hkey
        rw [hraw, Option.getD_some] at hhead
        obtain rfl := hhead
        exact ⟨⟨raw, hraw, hne, htrim⟩, ih.mp htail⟩
    · rintro ⟨⟨key, hkey, hne, htrim⟩, hrest⟩
      rw [List.filterMap_cons_some (trimmedId_of_plain hkey hne htrim), hkey, ih.mpr hrest]
      rfl

/-- The tasks of a workflow have the trimmed identifiers. -/
theorem map_itemId_filterMap {f : Json → String → Json} (hf : ∀ item key, itemId (f item key) = some key) :
    (items.filterMap fun item => (trimmedId item).map (f item)).map itemId =
      (items.filterMap trimmedId).map some := by
  induction items with
  | nil => rfl
  | cons item items ih =>
    cases hkey : trimmedId item with
    | none => rw [List.filterMap_cons_none (by rw [hkey]; rfl), List.filterMap_cons_none hkey, ih]
    | some key =>
      rw [List.filterMap_cons_some (by rw [hkey]; rfl), List.filterMap_cons_some hkey, List.map_cons,
        List.map_cons, ih, hf]

theorem map_itemId_map {g : Json → Json} (hg : ∀ item, itemId (g item) = some ((itemId item).getD "")) :
    (items.map g).map itemId = (items.map fun item => (itemId item).getD "").map some := by
  rw [List.map_map, List.map_map]
  exact List.map_congr_left fun item _ => hg item

/-- The edges as they are listed, where no identifier is padded. -/
theorem map_fromTo_of_plain {source : String} (h : IsPlain items) :
    (dependencyValues source items).map fromTo = (edgesOf items).map someBoth := by
  rw [dependencyValues, edgesOf, List.map_flatMap, List.map_flatMap]
  refine List.flatMap_congr fun item hitem => ?_
  obtain ⟨key, hkey, hne, htrim⟩ := h item hitem
  rw [hkey, trimmedId_of_plain hkey hne htrim, List.map_map, List.map_map]
  rfl

theorem map_bothOf_of_plain (h : IsPlain items) :
    (edgeValues items).map bothOf = (edgesOf items).map someBoth := by
  rw [edgeValues, edgesOf, List.map_flatMap, List.map_flatMap]
  refine List.flatMap_congr fun item hitem => ?_
  obtain ⟨key, hkey, hne, htrim⟩ := h item hitem
  rw [hkey, trimmedId_of_plain hkey hne htrim, List.map_map, List.map_map]
  rfl

/-- What is accepted has a graph without cycles at its source. -/
theorem Accepted.isGraph (h : Accepted runspecValue profileValue) :
    IsGraph (sourceItems runspecValue profileValue) := by
  have hrunspec : ∀ value ∈ runspecValue, IsGraph (runspecItems value) := by
    intro value hvalue
    obtain ⟨result, hresult, hiff⟩ := exists_validateFactoryRunspecGraph value
    have hok := (hresult _ (Nat.lt_succ_self _)).symm.trans (h.runspec value hvalue _ (Nat.lt_succ_self _))
    exact (hiff.mp (Option.some.inj hok)).2
  have hprofile : ∀ value ∈ profileValue, IsGraph (factoryProfileRoles (some value)) := by
    intro value hvalue
    obtain ⟨result, hresult, hiff⟩ := exists_validateFactoryProfileGraph value
    have hok := (hresult _ (Nat.lt_succ_self _)).symm.trans (h.profile value hvalue _ (Nat.lt_succ_self _))
    exact hiff.mp (Option.some.inj hok)
  rw [sourceItems]
  split_ifs with htasks hroles
  · cases runspecValue with
    | none => exact absurd rfl htasks
    | some value =>
      have hgraph := hrunspec value rfl
      rwa [runspecItems, if_pos htasks] at hgraph
  · cases profileValue with
    | none => exact absurd rfl hroles
    | some value => exact hprofile value rfl
  · cases runspecValue with
    | none => exact isGraph_nil
    | some value =>
      have hgraph := hrunspec value rfl
      rwa [runspecItems, if_neg htasks] at hgraph

/-! ### The same graph -/

/-- Where the graph of a RunSpec and a profile comes out as it is: something is listed, no identifier is
blank or padded, and no role of the RunSpec has a dependency where the roles of the profile are taken
and have none. -/
structure HasPlainGraph (runspecValue profileValue : Option Json) : Prop where
  listed : sourceItems runspecValue profileValue ≠ []
  plain : IsPlain (sourceItems runspecValue profileValue)
  unmixed : factoryRunspecTasks runspecValue = [] → factoryProfileRoles profileValue ≠ [] →
    (∀ role ∈ factoryProfileRoles profileValue, itemDeps role = []) →
      ∀ role ∈ factoryLegacyRunspecRoles runspecValue, (itemId role).isSome = true → itemDeps role = []

/-- What is left to check of a workflow and a translation whose tasks are made of some items. -/
theorem sameGraph_iff_plain {workflow translation : Json} (hgraph : IsGraph items)
    (htasks : (listedAt "tasks" workflow).map itemId = (items.filterMap trimmedId).map some)
    (htranslated : (listedAt "task_graph" translation).map itemId =
      (items.map fun item => (itemId item).getD "").map some)
    (hedges : listedAt "direct_dependency_edges" translation = edgeValues items) :
    SameGraph workflow translation items ↔ IsPlain items ∧
      ∀ edge, edge ∈ (listedAt "dependencies" workflow).map fromTo ↔ edge ∈ (edgesOf items).map someBoth := by
  have hfirst := firstOccurrences_of_nodup hgraph.nodup
  constructor
  · intro h
    have hsame := htranslated.symm.trans h.translated
    rw [hfirst] at hsame
    exact ⟨map_eq_filterMap_iff.mp (List.map_injective_iff.mpr (Option.some_injective _) hsame), h.edges⟩
  · rintro ⟨hplain, hdependencies⟩
    refine ⟨?_, ?_, hdependencies, ?_, fun edge hedge => ?_, hgraph.acyclic⟩
    · rw [htasks, hfirst]
    · rw [htranslated, hfirst, map_eq_filterMap_iff.mpr hplain]
    · rw [hedges, map_bothOf_of_plain hplain]
      exact fun _ => Iff.rfl
    · rw [htasks]
      exact ⟨List.mem_map_of_mem (hgraph.known edge hedge),
        List.mem_map_of_mem (mem_ids_of_mem_edgesOf hedge)⟩

theorem dependencyValues_eq_nil {source : String} :
    dependencyValues source items = [] ↔
      ∀ item ∈ items, (itemId item).isSome = true → itemDeps item = [] := by
  rw [dependencyValues, List.flatMap_eq_nil_iff]
  refine forall₂_congr fun item _ => ?_
  cases itemId item with
  | none => exact iff_of_true rfl fun h => by cases h
  | some key => simp

theorem edgesOf_eq_nil_of_plain (h : IsPlain items) :
    edgesOf items = [] ↔ ∀ item ∈ items, itemDeps item = [] := by
  rw [edgesOf, List.flatMap_eq_nil_iff]
  refine forall₂_congr fun item hitem => ?_
  obtain ⟨key, hkey, hne, htrim⟩ := h item hitem
  rw [trimmedId_of_plain hkey hne htrim]
  exact List.map_eq_nil_iff

/-- **The workflow and the translation have the same graph**, that of their source, exactly where it is
plain. -/
theorem sameGraph_iff (workflowId : String) (requestValue : Json)
    (h : Accepted runspecValue profileValue) :
    SameGraph
        (factoryCompatWorkflowValue workflowId requestValue runspecValue profileValue
          (factoryCompatRoles runspecValue profileValue))
        (factoryRunspecTranslation runspecValue profileValue (factoryCompatRoles runspecValue profileValue))
        (sourceItems runspecValue profileValue) ↔
      HasPlainGraph runspecValue profileValue := by
  have hgraph := h.isGraph
  obtain ⟨roles, hroles⟩ : ∃ roles, factoryCompatRoles runspecValue profileValue = roles := ⟨_, rfl⟩
  have hworkflow : listedAt "tasks" (factoryCompatWorkflowValue workflowId requestValue runspecValue
      profileValue roles) = factoryWorkflowTasks runspecValue profileValue (roleIds roles) := rfl
  have hdependencies : listedAt "dependencies" (factoryCompatWorkflowValue workflowId requestValue
      runspecValue profileValue roles) = factoryWorkflowDependencies runspecValue profileValue := rfl
  rw [hroles]
  by_cases htasks : factoryRunspecTasks runspecValue = []
  · by_cases hprofile : factoryProfileRoles profileValue = []
    · have hsource : sourceItems runspecValue profileValue = factoryLegacyRunspecRoles runspecValue := by
        rw [sourceItems, if_neg (not_not_intro htasks), if_neg (not_not_intro hprofile)]
      by_cases hlegacy : factoryLegacyRunspecRoles runspecValue = []
      · -- nothing is listed, and the workflow has the default roles
        refine iff_of_false (fun hsame => ?_) fun hplain => hplain.listed (hsource.trans hlegacy)
        have hdefault := hsame.tasks
        have hnone : firstOccurrences (([] : List Json).filterMap trimmedId) = [] := rfl
        rw [hworkflow, hsource, hlegacy, factoryWorkflowTasks, if_pos htasks,
          if_neg (not_not_intro hprofile), if_pos hlegacy, ← hroles, factoryCompatRoles,
          if_neg (not_not_intro hprofile), factoryRunspecRoleIds, if_neg (not_not_intro htasks), hlegacy,
          hnone, if_neg (not_not_intro rfl)] at hdefault
        exact absurd hdefault (by decide)
      · rw [hsource] at hgraph ⊢
        have htranslation : factoryRunspecTranslation runspecValue profileValue roles =
            translationValue "factory-v3-legacy-roles-runspec"
              ((factoryLegacyRunspecRoles runspecValue).map translatedLegacyRole)
              (edgeValues (factoryLegacyRunspecRoles runspecValue)) roles
              (factoryProviderProfiles runspecValue profileValue) := by
          rw [factoryRunspecTranslation, if_pos htasks, if_neg (not_not_intro hprofile), if_neg hlegacy]
        rw [sameGraph_iff_plain hgraph ?_ ?_ ?_, hdependencies]
        · have hdeps : factoryWorkflowDependencies runspecValue profileValue =
              dependencyValues "factory-v3-legacy-runspec-role-deps"
                (factoryLegacyRunspecRoles runspecValue) := by
            rw [factoryWorkflowDependencies, if_neg (not_not_intro htasks), hprofile]
            exact if_neg (not_not_intro rfl)
          rw [hdeps]
          constructor
          · rintro ⟨hplain, -⟩
            exact ⟨by rwa [hsource], by rwa [hsource], fun _ hne => absurd hprofile hne⟩
          · intro hplain
            have hitems := hplain.plain
            rw [hsource] at hitems
            exact ⟨hitems, fun edge => by rw [map_fromTo_of_plain hitems]⟩
        · rw [hworkflow, factoryWorkflowTasks, if_pos htasks, if_neg (not_not_intro hprofile),
            if_neg hlegacy]
          exact map_itemId_filterMap fun _ _ => rfl
        · rw [htranslation]
          exact map_itemId_map fun _ => rfl
        · rw [htranslation]
          rfl
    · have hsource : sourceItems runspecValue profileValue = factoryProfileRoles profileValue := by
        rw [sourceItems, if_neg (not_not_intro htasks), if_pos hprofile]
      rw [hsource] at hgraph ⊢
      have htranslation : factoryRunspecTranslation runspecValue profileValue roles =
          translationValue "factory-v3-profile" ((factoryProfileRoles profileValue).map translatedProfileRole)
            (edgeValues (factoryProfileRoles profileValue)) roles
            (factoryProviderProfiles runspecValue profileValue) := by
        rw [factoryRunspecTranslation, if_pos htasks, if_pos hprofile]
      rw [sameGraph_iff_plain hgraph ?_ ?_ ?_, hdependencies]
      · rw [factoryWorkflowDependencies, if_neg (not_not_intro htasks)]
        dsimp only
        constructor
        · rintro ⟨hplain, hedges⟩
          refine ⟨by rwa [hsource], by rwa [hsource], fun _ _ hnone => ?_⟩
          have hedgesNil := (edgesOf_eq_nil_of_plain hplain).mpr hnone
          have hdepsNil : dependencyValues "factory-v3-profile-role-deps"
              (factoryProfileRoles profileValue) = [] :=
            dependencyValues_eq_nil.mpr fun role hrole _ => hnone role hrole
          rw [if_neg (not_not_intro hdepsNil), hedgesNil] at hedges
          have hlegacyNil : (dependencyValues "factory-v3-legacy-runspec-role-deps"
              (factoryLegacyRunspecRoles runspecValue)).map fromTo = [] :=
            List.eq_nil_iff_forall_not_mem.mpr fun edge hedge =>
              absurd ((hedges edge).mp hedge) List.not_mem_nil
          exact dependencyValues_eq_nil.mp (List.map_eq_nil_iff.mp hlegacyNil)
        · intro hplain
          have hitems := hplain.plain
          rw [hsource] at hitems
          refine ⟨hitems, fun edge => ?_⟩
          split_ifs with hdeps
          · rw [map_fromTo_of_plain hitems]
          · have hnone := dependencyValues_eq_nil.mp (not_not.mp hdeps)
            have hnone' : ∀ role ∈ factoryProfileRoles profileValue, itemDeps role = [] := by
              intro role hrole
              obtain ⟨key, hkey, -⟩ := hitems role hrole
              exact hnone role hrole (hkey ▸ rfl)
            rw [dependencyValues_eq_nil.mpr (hplain.unmixed htasks hprofile hnone'),
              (edgesOf_eq_nil_of_plain hitems).mpr hnone']
            rfl
      · rw [hworkflow, factoryWorkflowTasks, if_pos htasks, if_pos hprofile]
        exact map_itemId_filterMap fun _ _ => rfl
      · rw [htranslation]
        exact map_itemId_map fun _ => rfl
      · rw [htranslation]
        rfl
  · have hsource : sourceItems runspecValue profileValue = factoryRunspecTasks runspecValue := by
      rw [sourceItems, if_pos htasks]
    rw [hsource] at hgraph ⊢
    have htranslation : factoryRunspecTranslation runspecValue profileValue roles =
        translationValue "factory-v3-runspec" ((factoryRunspecTasks runspecValue).map translatedTask)
          (edgeValues (factoryRunspecTasks runspecValue)) roles
          (factoryProviderProfiles runspecValue profileValue) := by
      rw [factoryRunspecTranslation, if_neg htasks]
    rw [sameGraph_iff_plain hgraph ?_ ?_ ?_, hdependencies]
    · rw [factoryWorkflowDependencies, if_pos htasks]
      constructor
      · rintro ⟨hplain, -⟩
        exact ⟨by rwa [hsource], by rwa [hsource], fun hnone => absurd hnone htasks⟩
      · intro hplain
        have hitems := hplain.plain
        rw [hsource] at hitems
        exact ⟨hitems, fun edge => by rw [map_fromTo_of_plain hitems]⟩
    · rw [hworkflow, factoryWorkflowTasks, if_neg htasks]
      exact map_itemId_filterMap fun _ _ => rfl
    · rw [htranslation]
      exact map_itemId_map fun _ => rfl
    · rw [htranslation]
      rfl

/-- A RunSpec with one task and nothing it depends on. -/
def oneTask (key : String) : Json :=
  .obj [("spec", .obj [("tasks", .arr [.obj [("id", .str key)]])])]

theorem accepted_oneTask : Accepted (some (oneTask "a")) none where
  runspec value hvalue turns hturns := by
    obtain rfl := Option.some.inj hvalue
    have hlength : (runspecItems (oneTask "a")).length = 1 := rfl
    obtain ⟨turns, rfl⟩ : ∃ n, turns = n + 2 := ⟨turns - 2, by omega⟩
    rfl
  profile value hvalue := by cases hvalue

theorem accepted_paddedTask : Accepted (some (oneTask " a")) none where
  runspec value hvalue turns hturns := by
    obtain rfl := Option.some.inj hvalue
    have hlength : (runspecItems (oneTask " a")).length = 1 := rfl
    obtain ⟨turns, rfl⟩ : ∃ n, turns = n + 2 := ⟨turns - 2, by omega⟩
    rfl
  profile value hvalue := by cases hvalue

/-- One task without padding is the same in the workflow and in the translation. -/
theorem sameGraph_oneTask :
    SameGraph
      (factoryCompatWorkflowValue "w" .null (some (oneTask "a")) none
        (factoryCompatRoles (some (oneTask "a")) none))
      (factoryRunspecTranslation (some (oneTask "a")) none (factoryCompatRoles (some (oneTask "a")) none))
      (sourceItems (some (oneTask "a")) none) := by
  refine (sameGraph_iff "w" .null accepted_oneTask).mpr ⟨by decide, ?_, fun h => absurd h (by decide)⟩
  exact List.forall_mem_singleton.mpr ⟨"a", rfl, by decide, by decide⟩

/-- A padded identifier is trimmed in the workflow and not in the translation. -/
theorem not_sameGraph_paddedTask :
    ¬ ∀ runspecValue profileValue, Accepted runspecValue profileValue →
      SameGraph
        (factoryCompatWorkflowValue "w" .null runspecValue profileValue
          (factoryCompatRoles runspecValue profileValue))
        (factoryRunspecTranslation runspecValue profileValue (factoryCompatRoles runspecValue profileValue))
        (sourceItems runspecValue profileValue) := by
  intro h
  have hsame := (h (some (oneTask " a")) none accepted_paddedTask).translated
  exact absurd hsame (by decide)

end Factory

end Ao2
