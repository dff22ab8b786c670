import Ao2.Graphs.Kahn
import Ao2.Checks
import Ao2.Json
import Ao2.Policy
import Ao2.Policy.Redaction
import Mathlib.Algebra.Ring.Nat
import Mathlib.Data.List.Sort
import Mathlib.Data.String.Basic

/-!
# Graphs of factory requests

A RunSpec has tasks or, in its older form, roles; a profile has roles. Each may depend on others, and
nothing may depend on itself.

## Main results

* `blank_dependency_accepted` — a blank text among the dependencies is passed over
-/

namespace Ao2

namespace Factory

open Json

/-! ### Items -/

def factoryRunspecTasks (runspecValue : Option Json) : List Json :=
  ((((runspecValue.bind (get? "spec")).bind (get? "tasks")).bind arr?)).getD []

def factoryLegacyRunspecRoles (runspecValue : Option Json) : List Json :=
  ((runspecValue.bind (get? "roles")).bind arr?).getD []

def factoryProfileRoles (profileValue : Option Json) : List Json :=
  ((profileValue.bind (get? "roles")).bind arr?).getD []

/-- The texts of a list that are not blank, trimmed. -/
def factoryJsonStringArray (value : Option Json) : List String :=
  ((value.bind arr?).map fun items => ((items.filterMap str?).map trim).filter (· ≠ "")).getD []

/-- The identifier of an item, as it stands. -/
def itemId (item : Json) : Option String := (item.get? "id").bind str?

/-- The identifier of an item, trimmed, if it is not blank. -/
def trimmedId (item : Json) : Option String := ((itemId item).map trim).filter (· ≠ "")

def itemDeps (item : Json) : List String := factoryJsonStringArray (item.get? "deps")

/-! ### The counters -/

/-- The edges, and the number of them that lead to each identifier, by the order of the identifiers. -/
structure Degrees where
  ids : List String
  indegree : String → ℕ
  outgoing : String → List String

def Degrees.entry (g : Degrees) (key : String) : Degrees :=
  if key ∈ g.ids then g else { g with ids := g.ids.orderedInsert (· ≤ ·) key }

def Degrees.addEdge (key : String) (g : Degrees) (dep : String) : Degrees :=
  let g := g.entry key
  { g with
    outgoing := Function.update g.outgoing dep (g.outgoing dep ++ [key])
    indegree := Function.update g.indegree key (g.indegree key + 1) }

def Degrees.addItem (g : Degrees) (item : Json) : Degrees :=
  match trimmedId item with
  | none => g
  | some key => (itemDeps item).foldl (Degrees.addEdge key) g

def degreesOf (items : List Json) : Degrees :=
  items.foldl Degrees.addItem ((items.filterMap trimmedId).foldl Degrees.entry ⟨[], fun _ => 0, fun _ => []⟩)

def redacted (text : String) : String := .ofList (Redaction.redactSecrets text.toList)

/-- What is said once no identifier is ready. -/
def acyclicVerdict (graphLabel itemKind : String) (ids : List String) (indegree : String → ℕ)
    (visited : ℕ) : Except String Unit :=
  if visited ≠ ids.length then
    let cycleNodes := (ids.filter fun key => 0 < indegree key).map redacted
    .error (graphLabel ++ " contains a dependency cycle involving " ++ itemKind ++ " id(s): " ++
      ", ".intercalate cycleNodes ++ "; AO2 refuses to materialize a non-DAG factory-v3 graph")
  else .ok ()

/-- The loop is cut after some turns. -/
def validateFactoryDependencyGraphIsAcyclic (turns : ℕ) (graphLabel itemKind : String) (items : List Json) :
    Option (Except String Unit) :=
  let g := degreesOf items
  let ready := g.ids.filter fun key => g.indegree key = 0
  (Graphs.Kahn.drain g.ids g.outgoing turns ⟨g.indegree, ready.reverse⟩ []).map fun (counted, visited) =>
    acyclicVerdict graphLabel itemKind g.ids counted.degree visited.length

/-! ### Validation -/

/-- The identifiers of items that all have one, each another. -/
def runspecIds (kind : String) : List String → List Json → Except String (List String)
  | known, [] => .ok known
  | known, item :: items =>
    match trimmedId item with
    | none => .error ("RunSpec " ++ kind ++ " is missing a non-empty id; AO2 refuses to materialize " ++
        "an ambiguous factory-v3 graph")
    | some key =>
      if key ∈ known then .error ("RunSpec contains duplicate task or role id " ++ redacted key)
      else runspecIds kind (key :: known) items

def profileIds : List String → List Json → Except String (List String)
  | known, [] => .ok known
  | known, item :: items =>
    match trimmedId item with
    | none => profileIds known items
    | some key =>
      if key ∈ known then .error ("factory profile contains duplicate role id " ++ redacted key)
      else profileIds (key :: known) items

/-- The dependencies of an item are known. -/
def knownDeps (known : List String) (message : String → String) (item : Json) : Except String Unit :=
  (itemDeps item).forM fun dep => if dep ∉ known then .error (message dep) else .ok ()

def runspecDeps (known : List String) (item : Json) : Except String Unit :=
  let key := ((itemId item).map trim).getD ""
  knownDeps known (fun dep => "RunSpec dependency " ++ redacted dep ++ " for task " ++ redacted key ++
    " does not reference a known task") item

def profileDeps (known : List String) (item : Json) : Except String Unit :=
  match trimmedId item with
  | none => .ok ()
  | some key =>
    knownDeps known (fun dep => "factory profile dependency " ++ redacted dep ++ " for role " ++
      redacted key ++ " does not reference a known role") item

def validateFactoryRunspecItems (turns : ℕ) (kind : String) (items : List Json) :
    Option (Except String Unit) :=
  match runspecIds kind [] items with
  | .error message => some (.error message)
  | .ok known =>
    match items.forM (runspecDeps known) with
    | .error message => some (.error message)
    | .ok () => validateFactoryDependencyGraphIsAcyclic turns "RunSpec" kind items

def validateFactoryRunspecGraph (turns : ℕ) (runspecValue : Json) : Option (Except String Unit) :=
  let tasks := factoryRunspecTasks (some runspecValue)
  if tasks ≠ [] then validateFactoryRunspecItems turns "task" tasks
  else
    let legacyRoles := factoryLegacyRunspecRoles (some runspecValue)
    if legacyRoles ≠ [] then validateFactoryRunspecItems turns "role" legacyRoles
    else some (.ok ())

def validateFactoryProfileGraph (turns : ℕ) (profileValue : Json) : Option (Except String Unit) :=
  let profileRoles := factoryProfileRoles (some profileValue)
  if profileRoles = [] then some (.ok ())
  else
    match profileIds [] profileRoles with
    | .error message => some (.error message)
    | .ok known =>
      if known = [] then some (.ok ())
      else
        match profileRoles.forM (profileDeps known) with
        | .error message => some (.error message)
        | .ok () => validateFactoryDependencyGraphIsAcyclic turns "factory profile" "role" profileRoles

/-! ### The edges -/

/-- The dependencies of items with an identifier, each with the identifier. -/
def edgesOf (items : List Json) : List (String × String) :=
  items.flatMap fun item =>
    match trimmedId item with
    | none => []
    | some key => (itemDeps item).map fun dep => (dep, key)

/-- Items whose identifiers are all different, with dependencies among them and no cycle. -/
structure IsGraph (items : List Json) : Prop where
  nodup : (items.filterMap trimmedId).Nodup
  known : ∀ edge ∈ edgesOf items, edge.1 ∈ items.filterMap trimmedId
  acyclic : Graphs.Acyclic fun key dep => (dep, key) ∈ edgesOf items

variable {items : List Json} {edges : List (String × String)} {g : Degrees} {ids : List String}

theorem mem_edgesOf {dep key : String} :
    (dep, key) ∈ edgesOf items ↔ ∃ item ∈ items, trimmedId item = some key ∧ dep ∈ itemDeps item := by
  rw [edgesOf, List.mem_flatMap]
  refine exists_congr fun item => and_congr_right fun _ => ?_
  cases trimmedId item with
  | none => simp
  | some key' => simp [and_comm, eq_comm]

/-- Where an edge comes from an item, the item is known. -/
theorem mem_ids_of_mem_edgesOf {edge : String × String} (h : edge ∈ edgesOf items) :
    edge.2 ∈ items.filterMap trimmedId := by
  obtain ⟨item, hitem, hkey, -⟩ := mem_edgesOf.mp h
  exact List.mem_filterMap.mpr ⟨item, hitem, hkey⟩

/-! ### What is counted -/

/-- The identifiers entered, in whatever order. -/
theorem ids_foldl_entry : ∀ {keys : List String} {g : Degrees}, (g.ids ++ keys).Nodup →
    (keys.foldl Degrees.entry g).ids.Perm (g.ids ++ keys) ∧
      (keys.foldl Degrees.entry g).indegree = g.indegree ∧
      (keys.foldl Degrees.entry g).outgoing = g.outgoing := by
  intro keys
  induction keys with
  | nil =>
    intro g _
    exact ⟨by rw [List.append_nil]; exact List.Perm.refl _, rfl, rfl⟩
  | cons key keys ih =>
    intro g hnodup
    have hfresh : key ∉ g.ids := fun hin =>
      (List.nodup_append.mp hnodup).2.2 key hin key List.mem_cons_self rfl
    have hentry : g.entry key = { g with ids := g.ids.orderedInsert (· ≤ ·) key } := if_neg hfresh
    have hperm : (g.ids.orderedInsert (· ≤ ·) key ++ keys).Perm (g.ids ++ key :: keys) :=
      ((List.perm_orderedInsert _ _ _).append_right keys).trans List.perm_middle.symm
    rw [List.foldl_cons, hentry]
    obtain ⟨hids, hindegree, houtgoing⟩ :=
      ih (g := { g with ids := g.ids.orderedInsert (· ≤ ·) key }) (hperm.nodup_iff.mpr hnodup)
    exact ⟨hids.trans hperm, hindegree, houtgoing⟩

/-- The edges of items, one after the other. -/
theorem foldl_addItem (items : List Json) : ∀ g : Degrees,
    items.foldl Degrees.addItem g = (edgesOf items).foldl (fun g edge => g.addEdge edge.2 edge.1) g := by
  induction items with
  | nil => exact fun _ => rfl
  | cons item items ih =>
    intro g
    rw [List.foldl_cons, ih, edgesOf, edgesOf, List.flatMap_cons, List.foldl_append, Degrees.addItem]
    cases trimmedId item with
    | none => rfl
    | some key => rw [List.foldl_map]

/-- What the counters are, with the edges added. -/
theorem foldl_addEdge : ∀ {edges : List (String × String)} {g : Degrees}, (∀ edge ∈ edges, edge.2 ∈ g.ids) →
    (edges.foldl (fun g edge => Degrees.addEdge edge.2 g edge.1) g).ids = g.ids ∧
    (∀ key, (edges.foldl (fun g edge => Degrees.addEdge edge.2 g edge.1) g).indegree key =
      g.indegree key + edges.countP fun edge => edge.2 = key) ∧
    ∀ dep, (edges.foldl (fun g edge => Degrees.addEdge edge.2 g edge.1) g).outgoing dep =
      g.outgoing dep ++ (edges.filter fun edge => edge.1 = dep).map Prod.snd := by
  intro edges
  induction edges with
  | nil => exact fun _ => ⟨rfl, fun _ => rfl, fun _ => (List.append_nil _).symm⟩
  | cons edge edges ih =>
    intro g hids
    rw [List.forall_mem_cons] at hids
    obtain ⟨dep, key⟩ := edge
    have hadd : Degrees.addEdge key g dep = ⟨g.ids, Function.update g.indegree key (g.indegree key + 1),
        Function.update g.outgoing dep (g.outgoing dep ++ [key])⟩ := by
      rw [Degrees.addEdge, Degrees.entry, if_pos hids.1]
    rw [List.foldl_cons, hadd]
    obtain ⟨hsame, hindegree, houtgoing⟩ := ih (g := ⟨g.ids, Function.update g.indegree key
      (g.indegree key + 1), Function.update g.outgoing dep (g.outgoing dep ++ [key])⟩) hids.2
    refine ⟨hsame, fun key' => ?_, fun dep' => ?_⟩
    · rw [hindegree, List.countP_cons]
      by_cases heq : key' = key
      · subst heq
        simp only [Function.update_self, decide_true, if_true]
        omega
      · simp [heq, Ne.symm heq]
    · rw [houtgoing, List.filter_cons]
      by_cases heq : dep' = dep
      · subst heq
        simp
      · simp [heq, Ne.symm heq]

/-- The edges between two identifiers. -/
theorem count_outgoing (dep key : String) :
    ((edges.filter fun edge => edge.1 = dep).map Prod.snd).count key = edges.count (dep, key) := by
  induction edges with
  | nil => rfl
  | cons edge edges ih =>
    obtain ⟨dep', key'⟩ := edge
    rw [List.filter_cons, List.count_cons]
    by_cases heq : dep' = dep
    · subst heq
      simp [List.count_cons, ih]
    · simp [heq, ih]

theorem sum_ite_eq_count (dep : String) :
    (ids.map fun d => if dep = d then 1 else 0).sum = ids.count dep := by
  induction ids with
  | nil => rfl
  | cons d ids ih =>
    rw [List.map_cons, List.sum_cons, ih, List.count_cons, add_comm]
    by_cases heq : dep = d
    · simp [heq]
    · simp [heq, Ne.symm heq]

/-- Each edge into an identifier comes from one of the identifiers. -/
theorem sum_count (hnodup : ids.Nodup) (hids : ∀ edge ∈ edges, edge.1 ∈ ids) (key : String) :
    (ids.map fun dep => edges.count (dep, key)).sum = edges.countP fun edge => edge.2 = key := by
  induction edges with
  | nil => simp
  | cons edge edges ih =>
    rw [List.forall_mem_cons] at hids
    obtain ⟨dep, key'⟩ := edge
    have hone : (ids.map fun d => if (dep, key') = (d, key) then 1 else 0).sum =
        if key' = key then 1 else 0 := by
      by_cases heq : key' = key
      · subst heq
        simp only [Prod.mk.injEq, and_true, if_true]
        rw [sum_ite_eq_count, List.count_eq_one_of_mem hnodup hids.1]
      · simp [heq]
    simp only [List.count_cons, List.sum_map_add, beq_iff_eq, List.countP_cons, decide_eq_true_eq]
    rw [ih hids.2, hone]

/-- **The counters of a graph** are the numbers of its edges. -/
theorem degreesOf_graph (hnodup : (items.filterMap trimmedId).Nodup) :
    (degreesOf items).ids.Perm (items.filterMap trimmedId) ∧
      (∀ key, (degreesOf items).indegree key = (edgesOf items).countP fun edge => edge.2 = key) ∧
      ∀ dep, (degreesOf items).outgoing dep =
        ((edgesOf items).filter fun edge => edge.1 = dep).map Prod.snd := by
  obtain ⟨hids, hindegree, houtgoing⟩ := @ids_foldl_entry (items.filterMap trimmedId)
    ⟨[], fun _ => 0, fun _ => []⟩ hnodup
  rw [degreesOf, foldl_addItem]
  obtain ⟨hsame, hcount, hout⟩ := foldl_addEdge fun edge hedge =>
    hids.mem_iff.mpr (mem_ids_of_mem_edgesOf hedge)
  refine ⟨by rw [hsame]; exact hids, fun key => ?_, fun dep => ?_⟩
  · rw [hcount, hindegree, Nat.zero_add]
  · rw [hout, houtgoing, List.nil_append]

/-- **The loop ends, and finds out whether there is a cycle.** -/
theorem validateFactoryDependencyGraphIsAcyclic_exact (graphLabel itemKind : String)
    (hnodup : (items.filterMap trimmedId).Nodup)
    (hknown : ∀ edge ∈ edgesOf items, edge.1 ∈ items.filterMap trimmedId) :
    ∃ result, (∀ turns, items.length < turns →
        validateFactoryDependencyGraphIsAcyclic turns graphLabel itemKind items = some result) ∧
      (result = .ok () ↔ Graphs.Acyclic fun key dep => (dep, key) ∈ edgesOf items) := by
  obtain ⟨hids, hindegree, houtgoing⟩ := degreesOf_graph hnodup
  obtain ⟨g, hg⟩ : ∃ g, degreesOf items = g := ⟨_, rfl⟩
  rw [hg] at hids hindegree houtgoing
  have hkeys : g.ids.Nodup := hids.nodup_iff.mpr hnodup
  have hmem : ∀ {dep key}, key ∈ g.outgoing dep ↔ (dep, key) ∈ edgesOf items := by
    intro dep key
    rw [← List.count_pos_iff, houtgoing, count_outgoing, List.count_pos_iff]
  have hclosed : Graphs.Kahn.Closed g.ids g.outgoing := fun dep key hkey =>
    ⟨hids.mem_iff.mpr (hknown _ (hmem.mp hkey)), hids.mem_iff.mpr (mem_ids_of_mem_edgesOf (hmem.mp hkey))⟩
  have hcount : ∀ key ∈ g.ids, g.indegree key = Graphs.Kahn.incoming g.outgoing g.ids key := by
    intro key _
    have hedges : ∀ edge ∈ edgesOf items, edge.1 ∈ g.ids := fun edge hedge =>
      hids.mem_iff.mpr (hknown edge hedge)
    rw [hindegree, ← sum_count hkeys hedges, Graphs.Kahn.incoming]
    refine congrArg List.sum (List.map_congr_left fun dep _ => ?_)
    rw [houtgoing, count_outgoing]
  have hstart : Graphs.Kahn.Invariant g.ids g.outgoing
      ⟨g.indegree, (g.ids.filter fun key => g.indegree key = 0).reverse⟩ [] g.ids [] :=
    .start hkeys hcount (List.reverse_perm _)
  obtain ⟨counted, visited, pending, hdrain, hend, hready⟩ :=
    Graphs.Kahn.exists_drain hkeys hclosed hstart (Nat.lt_succ_self _)
  have hiff := hend.length_eq_iff hclosed hready
  have hlength : g.ids.length ≤ items.length := hids.length_eq ▸ List.length_filterMap_le _ _
  simp only [hmem] at hiff
  refine ⟨acyclicVerdict graphLabel itemKind g.ids counted.degree visited.length, fun turns hturns => ?_, ?_⟩
  · rw [validateFactoryDependencyGraphIsAcyclic, hg]
    dsimp only
    rw [Graphs.Kahn.drain_of_le (by omega) hdrain, Option.map_some]
  · rw [acyclicVerdict, ← hiff]
    by_cases hall : visited.length = g.ids.length
    · rw [if_neg (not_not_intro hall)]
      exact iff_of_true rfl hall
    · rw [if_pos hall]
      exact iff_of_false (fun h => by cases h) hall

/-! ### Validation -/

/-- The identifiers that are found to be different. -/
theorem runspecIds_eq_ok {kind : String} {known ids : List String} (hknown : known.Nodup) :
    runspecIds kind known items = .ok ids ↔
      (∀ item ∈ items, (trimmedId item).isSome = true) ∧
        ids = (items.filterMap trimmedId).reverse ++ known ∧ ids.Nodup := by
  induction items generalizing known with
  | nil =>
    rw [runspecIds]
    constructor
    · intro h
      obtain rfl := Except.ok.inj h
      exact ⟨fun _ h => absurd h List.not_mem_nil, rfl, hknown⟩
    · rintro ⟨-, rfl, -⟩
      rfl
  | cons item items ih =>
    rw [runspecIds, List.forall_mem_cons]
    cases hkey : trimmedId item with
    | none =>
      dsimp only
      exact iff_of_false (fun h => by cases h) fun h => by cases h.1.1
    | some key =>
      dsimp only
      rw [List.filterMap_cons_some hkey, List.reverse_cons, List.append_assoc, List.singleton_append]
      split_ifs with hin
      · refine iff_of_false (fun h => by cases h) ?_
        rintro ⟨-, rfl, hnodup⟩
        exact (List.nodup_cons.mp (List.nodup_append.mp hnodup).2.1).1 hin
      · rw [ih (List.nodup_cons.mpr ⟨hin, hknown⟩)]
        simp

theorem profileIds_eq_ok {known ids : List String} (hknown : known.Nodup) :
    profileIds known items = .ok ids ↔ ids = (items.filterMap trimmedId).reverse ++ known ∧ ids.Nodup := by
  induction items generalizing known with
  | nil =>
    rw [profileIds]
    constructor
    · intro h
      obtain rfl := Except.ok.inj h
      exact ⟨rfl, hknown⟩
    · rintro ⟨rfl, -⟩
      rfl
  | cons item items ih =>
    rw [profileIds]
    cases hkey : trimmedId item with
    | none =>
      rw [List.filterMap_cons_none hkey]
      exact ih hknown
    | some key =>
      dsimp only
      rw [List.filterMap_cons_some hkey, List.reverse_cons, List.append_assoc, List.singleton_append]
      split_ifs with hin
      · refine iff_of_false (fun h => by cases h) ?_
        rintro ⟨rfl, hnodup⟩
        exact (List.nodup_cons.mp (List.nodup_append.mp hnodup).2.1).1 hin
      · exact ih (List.nodup_cons.mpr ⟨hin, hknown⟩)

theorem knownDeps_eq_ok {known : List String} {message : String → String} {item : Json} {u : Unit} :
    knownDeps known message item = .ok u ↔ ∀ dep ∈ itemDeps item, dep ∈ known := by
  rw [knownDeps, forM_eq_ok]
  refine forall₂_congr fun dep _ => ?_
  split_ifs with h
  · exact iff_of_true rfl h
  · exact iff_of_false (fun h => by cases h) h

/-- Dependencies that are checked item by item. -/
theorem forall_edgesOf {known : List String} :
    (∀ edge ∈ edgesOf items, edge.1 ∈ known) ↔
      ∀ item ∈ items, (trimmedId item).isSome = true → ∀ dep ∈ itemDeps item, dep ∈ known := by
  constructor
  · intro h item hitem hsome dep hdep
    obtain ⟨key, hkey⟩ := Option.isSome_iff_exists.mp hsome
    exact h (dep, key) (mem_edgesOf.mpr ⟨item, hitem, hkey, hdep⟩)
  · rintro h ⟨dep, key⟩ hedge
    obtain ⟨item, hitem, hkey, hdep⟩ := mem_edgesOf.mp hedge
    exact h item hitem (hkey ▸ rfl) dep hdep

/-- **The validation of a RunSpec's items ends, and accepts the graphs.** -/
theorem exists_validateFactoryRunspecItems (kind : String) (items : List Json) :
    ∃ result, (∀ turns, items.length < turns → validateFactoryRunspecItems turns kind items = some result) ∧
      (result = .ok () ↔ (∀ item ∈ items, (trimmedId item).isSome = true) ∧ IsGraph items) := by
  cases hids : runspecIds kind [] items with
  | error message =>
    refine ⟨.error message, fun turns _ => by rw [validateFactoryRunspecItems, hids], ?_⟩
    refine iff_of_false (fun h => by cases h) ?_
    rintro ⟨hall, hgraph⟩
    have hok : runspecIds kind [] items = .ok ((items.filterMap trimmedId).reverse ++ []) :=
      (runspecIds_eq_ok List.nodup_nil).mpr
        ⟨hall, rfl, by rw [List.append_nil]; exact List.nodup_reverse.mpr hgraph.nodup⟩
    rw [hids] at hok
    cases hok
  | ok known =>
    obtain ⟨hall, rfl, hnodup⟩ := (runspecIds_eq_ok List.nodup_nil).mp hids
    rw [List.append_nil] at hids hnodup
    have hknown : ∀ {dep : String}, dep ∈ (items.filterMap trimmedId).reverse ↔
        dep ∈ items.filterMap trimmedId := List.mem_reverse
    cases hdeps : items.forM (runspecDeps (items.filterMap trimmedId).reverse) with
    | error message =>
      refine ⟨.error message, fun turns _ => by rw [validateFactoryRunspecItems, hids]; dsimp only; rw [hdeps], ?_⟩
      refine iff_of_false (fun h => by cases h) ?_
      rintro ⟨-, hgraph⟩
      have hok : items.forM (runspecDeps (items.filterMap trimmedId).reverse) = .ok () := by
        refine forM_eq_ok.mpr fun item hitem => knownDeps_eq_ok.mpr fun dep hdep => hknown.mpr ?_
        exact forall_edgesOf.mp hgraph.known item hitem (hall item hitem) dep hdep
      rw [hdeps] at hok
      cases hok
    | ok =>
      have hedges : ∀ edge ∈ edgesOf items, edge.1 ∈ items.filterMap trimmedId :=
        forall_edgesOf.mpr fun item hitem _ dep hdep =>
          hknown.mp (knownDeps_eq_ok.mp (forM_eq_ok.mp hdeps item hitem) dep hdep)
      obtain ⟨result, hresult, hacyclic⟩ := validateFactoryDependencyGraphIsAcyclic_exact "RunSpec" kind
        (List.nodup_reverse.mp hnodup) hedges
      refine ⟨result, fun turns hturns => ?_, ?_⟩
      · rw [validateFactoryRunspecItems, hids]
        dsimp only
        rw [hdeps]
        exact hresult turns hturns
      · rw [hacyclic]
        exact ⟨fun h => ⟨hall, List.nodup_reverse.mp hnodup, hedges, h⟩, fun h => h.2.acyclic⟩

/-- The items of a RunSpec: its tasks, or its roles if it has no task. -/
def runspecItems (runspecValue : Json) : List Json :=
  if factoryRunspecTasks (some runspecValue) ≠ [] then factoryRunspecTasks (some runspecValue)
  else factoryLegacyRunspecRoles (some runspecValue)

theorem isGraph_nil : IsGraph [] where
  nodup := List.nodup_nil
  known _ h := absurd h List.not_mem_nil
  acyclic key h := by
    rcases Relation.TransGen.head'_iff.mp h with ⟨dep, hdep, -⟩
    exact absurd hdep List.not_mem_nil

/-- **What is accepted of a RunSpec is a graph without cycles**, and every such graph is accepted. The
loop ends. -/
theorem exists_validateFactoryRunspecGraph (runspecValue : Json) :
    ∃ result, (∀ turns, (runspecItems runspecValue).length < turns →
        validateFactoryRunspecGraph turns runspecValue = some result) ∧
      (result = .ok () ↔ (∀ item ∈ runspecItems runspecValue, (trimmedId item).isSome = true) ∧
        IsGraph (runspecItems runspecValue)) := by
  rw [runspecItems]
  simp only [validateFactoryRunspecGraph]
  by_cases htasks : factoryRunspecTasks (some runspecValue) = []
  · simp only [htasks, ne_eq, not_true_eq_false, if_false]
    by_cases hroles : factoryLegacyRunspecRoles (some runspecValue) = []
    · simp only [hroles, not_true_eq_false, if_false]
      exact ⟨.ok (), fun _ _ => rfl, iff_of_true rfl ⟨fun _ h => absurd h List.not_mem_nil, isGraph_nil⟩⟩
    · simp only [hroles, not_false_eq_true, if_true]
      exact exists_validateFactoryRunspecItems "role" _
  · simp only [htasks, ne_eq, not_false_eq_true, if_true]
    exact exists_validateFactoryRunspecItems "task" _

/-- **What is accepted of a profile is a graph without cycles** of the roles that have an identifier, and
every such graph is accepted. The loop ends. -/
theorem exists_validateFactoryProfileGraph (profileValue : Json) :
    ∃ result, (∀ turns, (factoryProfileRoles (some profileValue)).length < turns →
        validateFactoryProfileGraph turns profileValue = some result) ∧
      (result = .ok () ↔ IsGraph (factoryProfileRoles (some profileValue))) := by
  simp only [validateFactoryProfileGraph]
  obtain ⟨items, hitems⟩ : ∃ items, factoryProfileRoles (some profileValue) = items := ⟨_, rfl⟩
  rw [hitems]
  by_cases hnone : items = []
  · subst hnone
    exact ⟨.ok (), fun _ _ => rfl, iff_of_true rfl isGraph_nil⟩
  · simp only [hnone, if_false]
    cases hids : profileIds [] items with
    | error message =>
      refine ⟨.error message, fun _ _ => rfl, iff_of_false (fun h => by cases h) fun hgraph => ?_⟩
      have hok : profileIds [] items = .ok ((items.filterMap trimmedId).reverse ++ []) :=
        (profileIds_eq_ok List.nodup_nil).mpr
          ⟨rfl, by rw [List.append_nil]; exact List.nodup_reverse.mpr hgraph.nodup⟩
      rw [hids] at hok
      cases hok
    | ok known =>
      obtain ⟨rfl, hnodup⟩ := (profileIds_eq_ok List.nodup_nil).mp hids
      rw [List.append_nil] at hnodup ⊢
      dsimp only
      by_cases hempty : (items.filterMap trimmedId).reverse = []
      · simp only [hempty, if_true]
        have hids : items.filterMap trimmedId = [] := List.reverse_eq_nil_iff.mp hempty
        have hedges : edgesOf items = [] := List.eq_nil_iff_forall_not_mem.mpr fun edge hedge => by
          have hin := mem_ids_of_mem_edgesOf hedge
          rw [hids] at hin
          exact absurd hin List.not_mem_nil
        refine ⟨.ok (), fun _ _ => rfl, iff_of_true rfl ⟨by rw [hids]; exact List.nodup_nil, ?_, ?_⟩⟩
        · rw [hedges]
          exact fun _ h => absurd h List.not_mem_nil
        · have hacyclic := isGraph_nil.acyclic
          rwa [hedges]
      · simp only [hempty, if_false]
        have hknown : ∀ {dep : String}, dep ∈ (items.filterMap trimmedId).reverse ↔
            dep ∈ items.filterMap trimmedId := List.mem_reverse
        have hdepsOf : ∀ item, profileDeps (items.filterMap trimmedId).reverse item = .ok () ↔
            ((trimmedId item).isSome = true → ∀ dep ∈ itemDeps item, dep ∈ items.filterMap trimmedId) := by
          intro item
          rw [profileDeps]
          cases trimmedId item with
          | none => exact iff_of_true rfl fun h => by cases h
          | some key =>
            dsimp only
            rw [knownDeps_eq_ok]
            simp only [hknown, Option.isSome_some, true_implies]
        cases hdeps : items.forM (profileDeps (items.filterMap trimmedId).reverse) with
        | error message =>
          refine ⟨.error message, fun _ _ => rfl, iff_of_false (fun h => by cases h) fun hgraph => ?_⟩
          have hok : items.forM (profileDeps (items.filterMap trimmedId).reverse) = .ok () :=
            forM_eq_ok.mpr fun item hitem => (hdepsOf item).mpr (forall_edgesOf.mp hgraph.known item hitem)
          rw [hdeps] at hok
          cases hok
        | ok =>
          have hedges : ∀ edge ∈ edgesOf items, edge.1 ∈ items.filterMap trimmedId :=
            forall_edgesOf.mpr fun item hitem => (hdepsOf item).mp (forM_eq_ok.mp hdeps item hitem)
          obtain ⟨result, hresult, hacyclic⟩ := validateFactoryDependencyGraphIsAcyclic_exact
            "factory profile" "role" (List.nodup_reverse.mp hnodup) hedges
          refine ⟨result, hresult, ?_⟩
          rw [hacyclic]
          exact ⟨fun h => ⟨List.nodup_reverse.mp hnodup, hedges, h⟩, fun h => h.acyclic⟩

/-- **Validation is exact**, for RunSpecs and for profiles. -/
theorem validateFactoryGraphs_exact (runspecValue profileValue : Json) :
    (∃ result, (∀ turns, (runspecItems runspecValue).length < turns →
        validateFactoryRunspecGraph turns runspecValue = some result) ∧
      (result = .ok () ↔ (∀ item ∈ runspecItems runspecValue, (trimmedId item).isSome = true) ∧
        IsGraph (runspecItems runspecValue))) ∧
    ∃ result, (∀ turns, (factoryProfileRoles (some profileValue)).length < turns →
        validateFactoryProfileGraph turns profileValue = some result) ∧
      (result = .ok () ↔ IsGraph (factoryProfileRoles (some profileValue))) :=
  ⟨exists_validateFactoryRunspecGraph runspecValue, exists_validateFactoryProfileGraph profileValue⟩

/-! ### Blank dependencies -/

/-- All texts among the dependencies of an item, trimmed. -/
def trimmedDeps (item : Json) : List String :=
  (((item.get? "deps").bind arr?).map fun items => (items.filterMap str?).map trim).getD []

/-- A RunSpec with one task, which has a blank dependency. -/
def blankRunspec : Json :=
  .obj [("spec", .obj [("tasks", .arr [.obj [("id", .str "a"), ("deps", .arr [.str " "])]])])]

/-- A blank dependency names no task, and is accepted. -/
theorem blank_dependency_accepted :
    (∀ turns, 1 < turns → validateFactoryRunspecGraph turns blankRunspec = some (.ok ())) ∧
      ¬ ∀ item ∈ runspecItems blankRunspec, ∀ dep ∈ trimmedDeps item,
        dep ∈ (runspecItems blankRunspec).filterMap trimmedId := by
  refine ⟨fun turns hturns => ?_, by decide⟩
  obtain ⟨turns, rfl⟩ : ∃ n, turns = n + 2 := ⟨turns - 2, by omega⟩
  rfl

end Factory

end Ao2
