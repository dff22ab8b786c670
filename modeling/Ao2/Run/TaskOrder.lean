import Ao2.Checks
import Ao2.Graphs.Kahn
import Ao2.Run.Workflow

/-!
# The order of the tasks

The tasks of a plan are taken pass after pass, each as soon as all that it needs is done. What the passes
have taken is in turn, and a pass that takes nothing has found a task that waits for itself.
-/

namespace Ao2

open Graphs

/-! ### Plans -/

/-- A member that is a text. -/
def namedText (key : String) (v : Json) : Option String := (v.get? key).bind Json.str?

def knownIds (tasks : List Json) : List String := tasks.filterMap (namedText "id")

/-- A known task depends on another one. -/
def Needs (ids : List String) (dependencies : List Json) (id source : String) : Prop :=
  id ∈ ids ∧ ∃ d ∈ dependencies, namedText "to" d = some id ∧ namedText "from" d = some source

/-- **Plans whose tasks can be taken in turn.** -/
structure Schedulable (tasks dependencies : List Json) : Prop where
  named : ∀ task ∈ tasks, ∃ id, namedText "id" task = some id
  distinct : (knownIds tasks).Nodup
  known : ∀ d ∈ dependencies, ∀ id ∈ knownIds tasks, namedText "to" d = some id →
    ∃ source ∈ knownIds tasks, namedText "from" d = some source
  acyclic : Acyclic (Needs (knownIds tasks) dependencies)

/-- **Orders of the tasks** in which each one comes after its dependencies. -/
structure OrderOf (tasks dependencies order : List Json) : Prop where
  perm : order.Perm tasks
  after : ∀ before task rest, order = before ++ task :: rest → ∀ id source,
    namedText "id" task = some id → Needs (knownIds tasks) dependencies id source →
      ∃ needed ∈ before, namedText "id" needed = some source

/-- The plan is one of the kind whose tasks are run one by one. -/
def IsSddPlan (ctx : RunContext) : Prop :=
  (ctx.factoryV3Compatibility.bind (·.get? "source_schema")).bind Json.str? = some "ao2.sdd-plan.v1"

/-! ### Identifiers and dependencies -/

theorem taskId_eq_ok {task : Json} {id : String} :
    taskId task = .ok id ↔ namedText "id" task = some id := by
  rw [taskId, namedText]
  cases (task.get? "id").bind Json.str? <;> simp

theorem taskIds_eq_ok {tasks : List Json} {ids : List String} :
    taskIds tasks = .ok ids ↔ tasks.map (namedText "id") = ids.map some := by
  induction tasks generalizing ids with
  | nil =>
    rw [taskIds]
    cases ids <;> simp
  | cons task tasks ih =>
    simp only [taskIds, bind_eq_ok, taskId_eq_ok, ih, List.map_cons]
    constructor
    · rintro ⟨id, hid, ids, hids, h⟩
      cases h
      simp [hid, hids]
    · intro h
      cases ids with
      | nil => cases h
      | cons id ids =>
        obtain ⟨hid, hids⟩ := List.cons.inj h
        exact ⟨id, hid, ids, hids, rfl⟩

theorem knownIds_eq {tasks : List Json} {ids : List String}
    (h : tasks.map (namedText "id") = ids.map some) : knownIds tasks = ids := by
  have hmap : knownIds tasks = (tasks.map (namedText "id")).filterMap id := by
    rw [knownIds, List.filterMap_map]
    rfl
  rw [hmap, h, List.filterMap_map]
  exact List.filterMap_some

theorem named_of_taskIds {tasks : List Json} {ids : List String} (h : taskIds tasks = .ok ids) :
    ∀ task ∈ tasks, ∃ id, namedText "id" task = some id := by
  intro task htask
  have hmem := List.mem_map_of_mem (f := namedText "id") htask
  rw [taskIds_eq_ok.mp h] at hmem
  obtain ⟨id, -, hid⟩ := List.mem_map.mp hmem
  exact ⟨id, hid.symm⟩

theorem map_namedText_of_named {tasks : List Json}
    (h : ∀ task ∈ tasks, ∃ id, namedText "id" task = some id) :
    tasks.map (namedText "id") = (knownIds tasks).map some := by
  induction tasks with
  | nil => rfl
  | cons task tasks ih =>
    obtain ⟨id, hid⟩ := h task List.mem_cons_self
    have hrest := ih fun t ht => h t (List.mem_cons_of_mem _ ht)
    rw [knownIds, List.filterMap_cons_some hid, List.map_cons, List.map_cons, hid, hrest]
    rfl

/-- What is known of the dependencies once they are read. -/
theorem taskDependencies_eq_ok {ids : List String} {dependencies : List Json}
    {pairs : List (String × String)} (h : taskDependencies ids dependencies = .ok pairs) :
    (∀ d ∈ dependencies, ∀ id ∈ ids, namedText "to" d = some id →
      ∃ source ∈ ids, namedText "from" d = some source) ∧
    ∀ id source, (id, source) ∈ pairs ↔ Needs ids dependencies id source := by
  induction dependencies generalizing pairs with
  | nil =>
    cases h
    refine ⟨fun _ hd => absurd hd List.not_mem_nil, fun id source => iff_of_false List.not_mem_nil ?_⟩
    rintro ⟨-, d, hd, -⟩
    cases hd
  | cons d rest ih =>
    -- a dependency that counts for nothing
    have skip : taskDependencies ids rest = .ok pairs → (∀ id ∈ ids, namedText "to" d ≠ some id) →
        (∀ d' ∈ d :: rest, ∀ id ∈ ids, namedText "to" d' = some id →
          ∃ source ∈ ids, namedText "from" d' = some source) ∧
        ∀ id source, (id, source) ∈ pairs ↔ Needs ids (d :: rest) id source := by
      intro hrest hto
      obtain ⟨hknown, hpairs⟩ := ih hrest
      refine ⟨fun d' hd' id hid hto' => ?_, fun id source => (hpairs id source).trans ?_⟩
      · rcases List.mem_cons.mp hd' with rfl | hd'
        · exact absurd hto' (hto id hid)
        · exact hknown d' hd' id hid hto'
      · refine and_congr_right fun hid => ⟨?_, ?_⟩
        · rintro ⟨d', hd', hto', hfrom⟩
          exact ⟨d', List.mem_cons_of_mem _ hd', hto', hfrom⟩
        · rintro ⟨d', hd', hto', hfrom⟩
          rcases List.mem_cons.mp hd' with rfl | hd'
          · exact absurd hto' (hto id hid)
          · exact ⟨d', hd', hto', hfrom⟩
    rw [taskDependencies] at h
    cases hto : (d.get? "to").bind Json.str? with
    | none =>
      rw [hto] at h
      exact skip h fun id _ hd => by cases hto.symm.trans hd
    | some task =>
      rw [hto] at h
      dsimp only at h
      by_cases hmem : task ∈ ids
      · rw [if_neg (not_not_intro hmem)] at h
        cases hfrom : (d.get? "from").bind Json.str? with
        | none => rw [hfrom] at h; cases h
        | some source =>
          rw [hfrom] at h
          dsimp only at h
          by_cases hsource : source ∈ ids
          · rw [if_neg (not_not_intro hsource)] at h
            obtain ⟨rest', hrest, heq⟩ := bind_eq_ok.mp h
            cases heq
            obtain ⟨hknown, hpairs⟩ := ih hrest
            refine ⟨fun d' hd' id hid hto' => ?_, fun id' source' => ?_⟩
            · rcases List.mem_cons.mp hd' with rfl | hd'
              · exact ⟨source, hsource, hfrom⟩
              · exact hknown d' hd' id hid hto'
            · rw [List.mem_cons, hpairs id' source']
              constructor
              · rintro (heq | ⟨hid, d', hd', hto', hfrom'⟩)
                · cases heq
                  exact ⟨hmem, d, List.mem_cons_self, hto, hfrom⟩
                · exact ⟨hid, d', List.mem_cons_of_mem _ hd', hto', hfrom'⟩
              · rintro ⟨hid, d', hd', hto', hfrom'⟩
                rcases List.mem_cons.mp hd' with rfl | hd'
                · obtain rfl := Option.some.inj (hto.symm.trans hto')
                  obtain rfl := Option.some.inj (hfrom.symm.trans hfrom')
                  exact .inl rfl
                · exact .inr ⟨hid, d', hd', hto', hfrom'⟩
          · rw [if_pos hsource] at h
            cases h
      · rw [if_pos hmem] at h
        refine skip h fun id hid hd => hmem ?_
        obtain rfl := Option.some.inj (hto.symm.trans hd)
        exact hid

theorem exists_taskDependencies {ids : List String} {dependencies : List Json}
    (h : ∀ d ∈ dependencies, ∀ id ∈ ids, namedText "to" d = some id →
      ∃ source ∈ ids, namedText "from" d = some source) :
    ∃ pairs, taskDependencies ids dependencies = .ok pairs := by
  induction dependencies with
  | nil => exact ⟨[], rfl⟩
  | cons d rest ih =>
    obtain ⟨pairs, hpairs⟩ := ih fun d' hd' => h d' (List.mem_cons_of_mem _ hd')
    rw [taskDependencies]
    cases hto : (d.get? "to").bind Json.str? with
    | none => exact ⟨pairs, hpairs⟩
    | some task =>
      dsimp only
      by_cases hmem : task ∈ ids
      · obtain ⟨source, hsource, hfrom⟩ := h d List.mem_cons_self task hmem hto
        rw [if_neg (not_not_intro hmem), show (d.get? "from").bind Json.str? = some source from hfrom]
        dsimp only
        rw [if_neg (not_not_intro hsource), hpairs]
        exact ⟨_, rfl⟩
      · rw [if_pos hmem]
        exact ⟨pairs, hpairs⟩

/-! ### Passes -/

/-- What has been taken is in turn. -/
structure Taken (needs : String → String → Prop) (tasks : List Json) (completed : List String)
    (ordered : List Json) : Prop where
  ids : ordered.map (namedText "id") = completed.map some
  nodup : completed.Nodup
  inTurn : InTurn needs completed
  mem : ∀ task ∈ ordered, task ∈ tasks

section

variable {needs : String → String → Prop} {pairs : List (String × String)} {tasks : List Json}

theorem taken_nil : Taken needs tasks [] [] := ⟨rfl, List.nodup_nil, inTurn_nil, fun _ h => nomatch h⟩

theorem Taken.length_eq {completed : List String} {ordered : List Json}
    (h : Taken needs tasks completed ordered) : ordered.length = completed.length := by
  simpa using congrArg List.length h.ids

theorem Taken.concat {completed : List String} {ordered : List Json} {task : Json} {id : String}
    (h : Taken needs tasks completed ordered) (htask : task ∈ tasks)
    (hid : namedText "id" task = some id) (hnew : id ∉ completed)
    (hready : ∀ source, needs id source → source ∈ completed) :
    Taken needs tasks (completed ++ [id]) (ordered ++ [task]) where
  ids := by simp [h.ids, hid]
  nodup := by
    rw [List.nodup_append]
    refine ⟨h.nodup, List.nodup_singleton id, fun a ha b hb => ?_⟩
    rw [List.mem_singleton.mp hb]
    exact fun heq => hnew (heq ▸ ha)
  inTurn := h.inTurn.concat hready
  mem t ht := by
    rcases List.mem_append.mp ht with ht | ht
    · exact h.mem t ht
    · rwa [List.mem_singleton.mp ht]

variable (hpairs : ∀ id source, (id, source) ∈ pairs ↔ needs id source)

include hpairs

theorem taskReady_iff {completed : List String} {id : String} :
    taskReady pairs completed id = true ↔ ∀ source, needs id source → source ∈ completed := by
  simp only [taskReady, List.all_eq_true, Bool.or_eq_true, decide_eq_true_eq, List.contains_iff_mem]
  constructor
  · intro h source hneeds
    exact (h (id, source) ((hpairs id source).mpr hneeds)).resolve_left fun hne => hne rfl
  · rintro h ⟨id', source⟩ hmem
    by_cases hid : id' = id
    · exact .inr (h source (hid ▸ (hpairs id' source).mp hmem))
    · exact .inl hid

/-- **One pass**: it keeps what is taken in turn, and what it does not take waits for something. -/
theorem taskPass_taken {rest : List Json} {completed : List String} {ordered : List Json}
    (hnamed : ∀ task ∈ rest, ∃ id, namedText "id" task = some id) (hrest : ∀ task ∈ rest, task ∈ tasks)
    (h : Taken needs tasks completed ordered) :
    ∃ completed' ordered', taskPass pairs rest completed ordered = .ok (completed', ordered') ∧
      Taken needs tasks completed' ordered' ∧ completed <+: completed' ∧
      (completed' = completed → ∀ task ∈ rest, ∀ id, namedText "id" task = some id → id ∉ completed →
        ∃ source, needs id source ∧ source ∉ completed) := by
  induction rest generalizing completed ordered with
  | nil => exact ⟨completed, ordered, rfl, h, List.prefix_rfl, fun _ _ ht => nomatch ht⟩
  | cons task rest ih =>
    obtain ⟨id, hid⟩ := hnamed task List.mem_cons_self
    have hnamed' := fun t ht => hnamed t (List.mem_cons_of_mem _ ht)
    have hrest' := fun t ht => hrest t (List.mem_cons_of_mem _ ht)
    simp only [taskPass, taskId_eq_ok.mpr hid, bind, Except.bind]
    by_cases hdone : completed.contains id = true
    · obtain ⟨completed', ordered', hpass, htaken, hextends, hwait⟩ := ih hnamed' hrest' h
      rw [if_pos hdone]
      refine ⟨completed', ordered', hpass, htaken, hextends, fun heq t ht id' hid' hnot => ?_⟩
      rcases List.mem_cons.mp ht with rfl | ht
      · obtain rfl := Option.some.inj (hid.symm.trans hid')
        exact absurd (List.contains_iff_mem.mp hdone) hnot
      · exact hwait heq t ht id' hid' hnot
    · have hnew : id ∉ completed := fun hmem => hdone (List.contains_iff_mem.mpr hmem)
      rw [if_neg hdone]
      by_cases hready : taskReady pairs completed id = true
      · have htaken := h.concat (hrest task List.mem_cons_self) hid hnew ((taskReady_iff hpairs).mp hready)
        obtain ⟨completed', ordered', hpass, htaken', hextends, -⟩ := ih hnamed' hrest' htaken
        rw [if_pos hready]
        refine ⟨completed', ordered', hpass, htaken', (List.prefix_append _ _).trans hextends, fun heq => ?_⟩
        have hlt := (heq ▸ hextends).length_le
        rw [List.length_append] at hlt
        exact absurd hlt (Nat.not_succ_le_self _)
      · obtain ⟨completed', ordered', hpass, htaken, hextends, hwait⟩ := ih hnamed' hrest' h
        rw [if_neg hready]
        refine ⟨completed', ordered', hpass, htaken, hextends, fun heq t ht id' hid' hnot => ?_⟩
        rcases List.mem_cons.mp ht with rfl | ht
        · obtain rfl := Option.some.inj (hid.symm.trans hid')
          by_contra hall
          refine hready ((taskReady_iff hpairs).mpr fun source hneeds => ?_)
          by_contra hsource
          exact hall ⟨source, hneeds, hsource⟩
        · exact hwait heq t ht id' hid' hnot

variable (hnamed : ∀ task ∈ tasks, ∃ id, namedText "id" task = some id)

include hnamed

/-- A round of the loop: it ends, or a pass takes something, or the error says that none did. -/
theorem taskPasses_succ {completed : List String} {ordered : List Json}
    (h : Taken needs tasks completed ordered) (hlt : ordered.length < tasks.length) :
    ∃ completed' ordered', Taken needs tasks completed' ordered' ∧ completed <+: completed' ∧
      (completed' = completed → ∀ task ∈ tasks, ∀ id, namedText "id" task = some id → id ∉ completed →
        ∃ source, needs id source ∧ source ∉ completed) ∧
      ∀ passes, taskPasses pairs tasks (passes + 1) completed ordered =
        if completed' = completed then .error "SDD workflow task graph contains a dependency cycle"
        else taskPasses pairs tasks passes completed' ordered' := by
  obtain ⟨completed', ordered', hpass, htaken, hextends, hwait⟩ :=
    taskPass_taken hpairs hnamed (fun _ ht => ht) h
  refine ⟨completed', ordered', htaken, hextends, hwait, fun passes => ?_⟩
  have hlength : ordered'.length = ordered.length ↔ completed' = completed := by
    rw [htaken.length_eq, h.length_eq]
    exact ⟨fun heq => (hextends.eq_of_length heq.symm).symm, fun heq => by rw [heq]⟩
  rw [taskPasses, if_neg (not_le_of_gt hlt)]
  simp only [hpass, bind, Except.bind, hlength]

/-- What the loop returns is taken in turn, and it is everything. -/
theorem taken_of_taskPasses {passes : ℕ} {completed : List String} {ordered order : List Json}
    (h : Taken needs tasks completed ordered)
    (hok : taskPasses pairs tasks passes completed ordered = .ok order) :
    ∃ completed', Taken needs tasks completed' order ∧ tasks.length ≤ order.length := by
  induction passes generalizing completed ordered with
  | zero =>
    rw [taskPasses] at hok
    split_ifs at hok with hle
    cases hok
    exact ⟨completed, h, hle⟩
  | succ passes ih =>
    by_cases hle : tasks.length ≤ ordered.length
    · rw [taskPasses, if_pos hle] at hok
      cases hok
      exact ⟨completed, h, hle⟩
    · obtain ⟨completed', ordered', htaken, -, -, hround⟩ :=
        taskPasses_succ hpairs hnamed h (not_le.mp hle)
      rw [hround passes] at hok
      split_ifs at hok
      exact ih htaken hok

/-- **More passes than there are tasks left change nothing.** -/
theorem taskPasses_succ_eq {passes : ℕ} {completed : List String} {ordered : List Json}
    (h : Taken needs tasks completed ordered) (hle : tasks.length ≤ passes + ordered.length) :
    taskPasses pairs tasks (passes + 1) completed ordered =
      taskPasses pairs tasks passes completed ordered := by
  induction passes generalizing completed ordered with
  | zero =>
    rw [Nat.zero_add] at hle
    rw [taskPasses, taskPasses, if_pos hle, if_pos hle]
  | succ passes ih =>
    by_cases hdone : tasks.length ≤ ordered.length
    · rw [taskPasses, taskPasses, if_pos hdone, if_pos hdone]
    · obtain ⟨completed', ordered', htaken, hextends, -, hround⟩ :=
        taskPasses_succ hpairs hnamed h (not_le.mp hdone)
      rw [hround (passes + 1), hround passes]
      split_ifs with heq
      · rfl
      · refine ih htaken ?_
        have hlt : completed.length < completed'.length :=
          lt_of_le_of_ne hextends.length_le fun hlen => heq (hextends.eq_of_length hlen).symm
        rw [h.length_eq] at hle
        rw [htaken.length_eq]
        omega

/-- **Tasks that do not wait for themselves are all taken.** -/
theorem exists_taskPasses {passes : ℕ} {completed : List String} {ordered : List Json}
    (h : Taken needs tasks completed ordered) (hle : tasks.length ≤ passes + ordered.length)
    (hdistinct : (knownIds tasks).Nodup) (hacyclic : Acyclic needs)
    (hknown : ∀ id source, needs id source → source ∈ knownIds tasks) :
    ∃ order, taskPasses pairs tasks passes completed ordered = .ok order := by
  have hmap := map_namedText_of_named hnamed
  induction passes generalizing completed ordered with
  | zero =>
    rw [Nat.zero_add] at hle
    exact ⟨ordered, by rw [taskPasses, if_pos hle]⟩
  | succ passes ih =>
    by_cases hdone : tasks.length ≤ ordered.length
    · exact ⟨ordered, by rw [taskPasses, if_pos hdone]⟩
    · obtain ⟨completed', ordered', htaken, hextends, hwait, hround⟩ :=
        taskPasses_succ hpairs hnamed h (not_le.mp hdone)
      rw [hround passes]
      have hprogress : completed' ≠ completed := by
        intro heq
        have hleft : (knownIds tasks).filter (· ∉ completed) ≠ [] := by
          intro hnil
          have hall : knownIds tasks ⊆ completed := fun id hid => by
            by_contra hnot
            exact List.filter_eq_nil_iff.mp hnil id hid (decide_eq_true hnot)
          have hlen := (hdistinct.subperm hall).length_le
          have htasks : (knownIds tasks).length = tasks.length := by
            simpa using (congrArg List.length hmap).symm
          rw [htasks, ← h.length_eq] at hlen
          exact hdone hlen
        obtain ⟨id, hid, hready⟩ := hacyclic.exists_ready hleft
        obtain ⟨hid, hnot⟩ := List.mem_filter.mp hid
        obtain ⟨task, htask, htext⟩ := List.mem_filterMap.mp hid
        obtain ⟨source, hneeds, hsource⟩ := hwait heq task htask id htext (of_decide_eq_true hnot)
        exact hready source hneeds
          (List.mem_filter.mpr ⟨hknown id source hneeds, decide_eq_true hsource⟩)
      rw [if_neg hprogress]
      refine ih htaken ?_
      have hlt : completed.length < completed'.length :=
        lt_of_le_of_ne hextends.length_le fun hlen => hprogress (hextends.eq_of_length hlen).symm
      rw [h.length_eq] at hle
      rw [htaken.length_eq]
      omega

end

/-- What is taken in turn and is everything is an order of the tasks. -/
theorem Taken.perm {needs : String → String → Prop} {tasks order : List Json} {completed : List String}
    (h : Taken needs tasks completed order) (hle : tasks.length ≤ order.length) : order.Perm tasks := by
  have hnodup : order.Nodup := by
    refine List.Nodup.of_map (namedText "id") ?_
    rw [h.ids]
    exact h.nodup.map (Option.some_injective _)
  exact (hnodup.subperm h.mem).perm_of_length_le hle

/-- Where a task stands in what is taken, the tasks that it needs stand before it. -/
theorem Taken.after {needs : String → String → Prop} {tasks order : List Json} {completed : List String}
    (h : Taken needs tasks completed order) {before rest : List Json} {task : Json} {id source : String}
    (heq : order = before ++ task :: rest) (hid : namedText "id" task = some id) (hneeds : needs id source) :
    ∃ needed ∈ before, namedText "id" needed = some source := by
  have hmap : before.map (namedText "id") ++ some id :: rest.map (namedText "id") = completed.map some := by
    rw [← h.ids, heq, List.map_append, List.map_cons, hid]
  obtain ⟨ids, ids', hcompleted, hbefore, hids'⟩ := List.append_eq_map_iff.mp hmap
  obtain ⟨id', rest', rfl, hid', -⟩ := List.map_eq_cons_iff.mp hids'
  obtain rfl := Option.some.inj hid'
  have hsource := h.inTurn ids id' rest' hcompleted source hneeds
  obtain ⟨needed, hmem, htext⟩ := List.mem_map.mp (hbefore ▸ List.mem_map_of_mem hsource)
  exact ⟨needed, hmem, htext⟩

/-! ### The order -/

section

variable {ctx : RunContext} (hsdd : IsSddPlan ctx)

include hsdd

theorem sddWorkflowTaskOrder_eq : sddWorkflowTaskOrder ctx = (do
    let ids ← taskIds ctx.workflowTasks
    let dependencies ← taskDependencies ids ctx.workflowDependencies
    let ordered ← taskPasses dependencies ctx.workflowTasks ctx.workflowTasks.length [] []
    pure (some ordered)) :=
  if_neg (not_not_intro hsdd)

theorem sddWorkflowTaskOrder_eq_ok {order : List Json} :
    sddWorkflowTaskOrder ctx = .ok (some order) ↔ ∃ ids pairs, taskIds ctx.workflowTasks = .ok ids ∧
      taskDependencies ids ctx.workflowDependencies = .ok pairs ∧
      taskPasses pairs ctx.workflowTasks ctx.workflowTasks.length [] [] = .ok order := by
  rw [sddWorkflowTaskOrder_eq hsdd]
  constructor
  · intro h
    obtain ⟨ids, hids, h⟩ := bind_eq_ok.mp h
    obtain ⟨pairs, hpairs, h⟩ := bind_eq_ok.mp h
    obtain ⟨order', horder, h⟩ := bind_eq_ok.mp h
    cases h
    exact ⟨ids, pairs, hids, hpairs, horder⟩
  · rintro ⟨ids, pairs, hids, hpairs, horder⟩
    exact bind_eq_ok.mpr ⟨ids, hids, bind_eq_ok.mpr ⟨pairs, hpairs, bind_eq_ok.mpr ⟨order, horder, rfl⟩⟩⟩

theorem sddWorkflowTaskOrder_ne_none : sddWorkflowTaskOrder ctx ≠ .ok none := by
  rw [sddWorkflowTaskOrder_eq hsdd]
  intro h
  obtain ⟨ids, -, h⟩ := bind_eq_ok.mp h
  obtain ⟨pairs, -, h⟩ := bind_eq_ok.mp h
  obtain ⟨order, -, h⟩ := bind_eq_ok.mp h
  cases h

/-- What is known of a plan whose tasks are ordered. -/
theorem taken_of_sddWorkflowTaskOrder {order : List Json} (h : sddWorkflowTaskOrder ctx = .ok (some order)) :
    (∀ task ∈ ctx.workflowTasks, ∃ id, namedText "id" task = some id) ∧
    (∀ d ∈ ctx.workflowDependencies, ∀ id ∈ knownIds ctx.workflowTasks, namedText "to" d = some id →
      ∃ source ∈ knownIds ctx.workflowTasks, namedText "from" d = some source) ∧
    ∃ completed, Taken (Needs (knownIds ctx.workflowTasks) ctx.workflowDependencies) ctx.workflowTasks
      completed order ∧ ctx.workflowTasks.length ≤ order.length := by
  obtain ⟨ids, pairs, hids, hpairs, horder⟩ := (sddWorkflowTaskOrder_eq_ok hsdd).mp h
  have hnamed := named_of_taskIds hids
  obtain rfl := knownIds_eq (taskIds_eq_ok.mp hids)
  obtain ⟨hknown, hneeds⟩ := taskDependencies_eq_ok hpairs
  exact ⟨hnamed, hknown, taken_of_taskPasses hneeds hnamed taken_nil horder⟩

theorem schedulable_of_order {order : List Json} (h : sddWorkflowTaskOrder ctx = .ok (some order)) :
    Schedulable ctx.workflowTasks ctx.workflowDependencies := by
  obtain ⟨hnamed, hknown, completed, htaken, hle⟩ := taken_of_sddWorkflowTaskOrder hsdd h
  have hids : (knownIds ctx.workflowTasks).Perm completed := by
    have hperm := (htaken.perm hle).symm.filterMap (namedText "id")
    rwa [show order.filterMap (namedText "id") = completed from knownIds_eq htaken.ids] at hperm
  refine ⟨hnamed, hids.nodup_iff.mpr htaken.nodup, hknown, ?_⟩
  exact htaken.inTurn.acyclic fun id source hneeds => hids.subset hneeds.1

/-- **The tasks are ordered if and only if they can be taken in turn**: then the order is one of all tasks,
each after its dependencies, and otherwise there is an error. The loop ends by itself: more passes than
there are tasks change nothing. -/
theorem sddWorkflowTaskOrder_correct :
    ((∃ order, sddWorkflowTaskOrder ctx = .ok (some order)) ↔
      Schedulable ctx.workflowTasks ctx.workflowDependencies) ∧
    (∀ order, sddWorkflowTaskOrder ctx = .ok (some order) →
      OrderOf ctx.workflowTasks ctx.workflowDependencies order) ∧
    (¬ Schedulable ctx.workflowTasks ctx.workflowDependencies →
      ∃ message, sddWorkflowTaskOrder ctx = .error message) ∧
    ∀ ids pairs, taskIds ctx.workflowTasks = .ok ids →
      taskDependencies ids ctx.workflowDependencies = .ok pairs → ∀ more,
        taskPasses pairs ctx.workflowTasks (ctx.workflowTasks.length + more) [] [] =
          taskPasses pairs ctx.workflowTasks ctx.workflowTasks.length [] [] := by
  have hiff : (∃ order, sddWorkflowTaskOrder ctx = .ok (some order)) ↔
      Schedulable ctx.workflowTasks ctx.workflowDependencies := by
    refine ⟨fun ⟨order, horder⟩ => schedulable_of_order hsdd horder, fun h => ?_⟩
    have hids := taskIds_eq_ok.mpr (map_namedText_of_named h.named)
    obtain ⟨pairs, hpairs⟩ := exists_taskDependencies h.known
    obtain ⟨-, hneeds⟩ := taskDependencies_eq_ok hpairs
    have hknown : ∀ id source, Needs (knownIds ctx.workflowTasks) ctx.workflowDependencies id source →
        source ∈ knownIds ctx.workflowTasks := by
      rintro id source ⟨hid, d, hd, hto, hfrom⟩
      obtain ⟨source', hsource, hfrom'⟩ := h.known d hd id hid hto
      exact Option.some.inj (hfrom.symm.trans hfrom') ▸ hsource
    obtain ⟨order, horder⟩ := exists_taskPasses hneeds h.named taken_nil (Nat.le_add_right _ 0) h.distinct
      h.acyclic hknown
    exact ⟨order, (sddWorkflowTaskOrder_eq_ok hsdd).mpr ⟨_, pairs, hids, hpairs, horder⟩⟩
  refine ⟨hiff, fun order horder => ?_, fun hnot => ?_, fun ids pairs hids hpairs more => ?_⟩
  · obtain ⟨-, -, completed, htaken, hle⟩ := taken_of_sddWorkflowTaskOrder hsdd horder
    exact ⟨htaken.perm hle, fun before task rest heq id source hid hneeds => htaken.after heq hid hneeds⟩
  · cases horder : sddWorkflowTaskOrder ctx with
    | error message => exact ⟨message, rfl⟩
    | ok order =>
      cases order with
      | none => exact absurd horder (sddWorkflowTaskOrder_ne_none hsdd)
      | some order => exact absurd (hiff.mp ⟨order, horder⟩) hnot
  · obtain ⟨-, hneeds⟩ := taskDependencies_eq_ok hpairs
    have hnamed := named_of_taskIds hids
    induction more with
    | zero => rfl
    | succ more ih =>
      refine (taskPasses_succ_eq hneeds hnamed taken_nil ?_).trans ih
      exact Nat.le_add_right_of_le (Nat.le_add_right _ _)

end

/-! ### A plan of two tasks -/

/-- The second task of the list is needed by the first. -/
def twoTasks : RunContext where
  runId := "run"
  workflowId := "plan@1"
  templateKind := none
  objective := ""
  roles := []
  workflowTasks := [.obj [("id", .str "test")], .obj [("id", .str "build")]]
  workflowDependencies := [.obj [("from", .str "build"), ("to", .str "test")]]
  factoryV3Compatibility := some (.obj [("source_schema", .str "ao2.sdd-plan.v1")])
  acceptance := []
  verifierCommand := ""
  artifacts := []
  policyDecisions := []
  approvals := []
  closureReports := []
  repairAttempts := []

theorem order_twoTasks : OrderOf twoTasks.workflowTasks twoTasks.workflowDependencies
    [.obj [("id", .str "build")], .obj [("id", .str "test")]] :=
  (@sddWorkflowTaskOrder_correct twoTasks rfl).2.1 _ rfl

end Ao2
