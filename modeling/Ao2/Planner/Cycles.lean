import Ao2.Graphs.FirstPaths
import Ao2.Planner.Schema
import Ao2.Selection
import Mathlib.Data.List.TakeWhile

/-!
# Steps that depend on themselves

The search of the validator ends, and there is an error if and only if there is a cycle. It reports
the steps from the newest one of its stack down to one that it meets again. A step that is done is
not followed another time, so that the other cycles through it do not show up; which ones these are
is decided by the step with which the search starts, and the hash map decides that.

## Main results

* `dfs_after` — what the search from one step on adds
-/

namespace Ao2

namespace Planner

open Graphs

/-- The steps to which the search goes on. -/
def following (graph : List (String × List String)) (node : String) : List String :=
  (graph.lookup node).getD []

section

variable (graph : List (String × List String))

mutual

/-- The search from one step on. -/
inductive Visits : List String → Search → String → Search → Prop
  | done {stack : List String} {s : Search} {node : String} (h : s.state.lookup node = some .done) :
    Visits stack s node s
  | visiting {stack : List String} {s : Search} {node : String}
    (h : s.state.lookup node = some .visiting) :
    Visits stack s node { s with cycle := s.cycle ++ node :: stack.takeWhile (· ≠ node) }
  | fresh {stack : List String} {s s' : Search} {node : String} (h : s.state.lookup node = none)
    (hall : VisitsAll (node :: stack) { s with state := (node, .visiting) :: s.state }
      (following graph node) s') :
    Visits stack s node { s' with state := (node, .done) :: s'.state }

/-- The search from some steps on, one after the other. -/
inductive VisitsAll : List String → Search → List String → Search → Prop
  | nil {stack : List String} {s : Search} : VisitsAll stack s [] s
  | cons {stack rest : List String} {s s' s'' : Search} {node : String} (h : Visits stack s node s')
    (hrest : VisitsAll stack s' rest s'') : VisitsAll stack s (node :: rest) s''

end

/-- What is reported when a step is met again. -/
def Closes (stack : List String) (w y : String) : Prop :=
  w ∈ stack ∧ y ∈ w :: stack.takeWhile (· ≠ w)

/-- What the search from some steps on adds, if it keeps off others. -/
def Adds (S : Set String) (stack nodes : List String) (y : String) : Prop :=
  ∃ before b after, nodes = before ++ b :: after ∧ (Closes stack b y ∨
    ∃ u p w, (∀ d ∈ before, ¬ Free (following graph) S d u) ∧
      FirstPath (following graph) S b u p ∧ w ∈ following graph u ∧ Closes (p.reverse ++ stack) w y)

namespace Search

def doneSteps (s : Search) : Set String := {n | s.state.lookup n = some .done}

/-- The steps that the search does not follow. -/
def passed (s : Search) (stack : List String) : Set String := s.doneSteps ∪ {n | n ∈ stack}

/-- What holds while steps are on the stack. -/
structure Sound (ids stack : List String) (s : Search) : Prop where
  nodup : stack.Nodup
  known : ∀ n ∈ stack, n ∈ ids
  visiting : ∀ n, s.state.lookup n = some .visiting ↔ n ∈ stack
  closed : Closed (following graph) {n | n ∈ stack} s.doneSteps

end Search

/-- What holds after the search from some steps on. -/
structure After (ids stack nodes : List String) (s s' : Search) : Prop where
  run : VisitsAll graph stack s nodes s'
  sound : s'.Sound graph ids stack
  doneSteps : s'.doneSteps = s.doneSteps ∪
    {n | ∃ b ∈ nodes, Free (following graph) (s.passed stack) b n}
  cycle : ∀ y, y ∈ s'.cycle ↔ y ∈ s.cycle ∨ Adds graph (s.passed stack) stack nodes y

end

variable {graph : List (String × List String)} {ids stack nodes : List String} {s s' s'' : Search}
  {node w y : String} {S T : Set String}

theorem visitsAll_singleton (h : VisitsAll graph stack s [node] s') :
    Visits graph stack s node s' := by
  cases h with
  | cons h hrest =>
    cases hrest
    exact h

/-! ### What is added -/

theorem not_adds_nil : ¬ Adds graph S stack [] y := by
  rintro ⟨before, b, after, h, -⟩
  simp at h

theorem adds_singleton_iff : Adds graph S stack [node] y ↔ Closes stack node y ∨
    ∃ u p w, FirstPath (following graph) S node u p ∧ w ∈ following graph u ∧
      Closes (p.reverse ++ stack) w y := by
  constructor
  · rintro ⟨before, b, after, h, hadds⟩
    obtain ⟨rfl, hcons⟩ | ⟨_, rfl, hnil⟩ := List.cons_eq_append_iff.mp h
    · obtain ⟨rfl, -⟩ := List.cons.inj hcons
      refine hadds.imp_right ?_
      rintro ⟨u, p, w, -, hp⟩
      exact ⟨u, p, w, hp⟩
    · simp at hnil
  · intro h
    refine ⟨[], node, [], rfl, h.imp_right ?_⟩
    rintro ⟨u, p, w, hp⟩
    exact ⟨u, p, w, List.forall_mem_nil _, hp⟩

/-- What can be reached leads only to what can be reached. -/
theorem closed_reached :
    Closed (following graph) S {n | ∃ b ∈ nodes, Free (following graph) S b n} := by
  rintro n ⟨b, hb, hn⟩ m hm
  by_cases hS : m ∈ S
  · exact .inl hS
  · exact .inr ⟨b, hb, hn.trans (.head hn.notMem_right hm (.refl hS))⟩

/-- Of some steps the first one adds what it adds alone; what it reaches does not count for the
others. -/
theorem adds_cons_iff : Adds graph S stack (node :: nodes) y ↔ Adds graph S stack [node] y ∨
    Adds graph (S ∪ {n | ∃ b ∈ [node], Free (following graph) S b n}) stack nodes y := by
  have hclosed : Closed (following graph) S {n | ∃ b ∈ [node], Free (following graph) S b n} :=
    closed_reached
  constructor
  · rintro ⟨before, b, after, h, hadds⟩
    obtain ⟨rfl, hcons⟩ | ⟨before, rfl, rfl⟩ := List.cons_eq_append_iff.mp h
    · obtain ⟨rfl, -⟩ := List.cons.inj hcons
      refine .inl (adds_singleton_iff.mpr (hadds.imp_right ?_))
      rintro ⟨u, p, w, -, hp⟩
      exact ⟨u, p, w, hp⟩
    · refine .inr ⟨before, b, after, rfl, hadds.imp_right ?_⟩
      rintro ⟨u, p, w, hbefore, hp, hw⟩
      obtain ⟨hnode, hbefore⟩ := List.forall_mem_cons.mp hbefore
      have hu : u ∉ {n | ∃ b ∈ [node], Free (following graph) S b n} := by
        rintro ⟨b, hb, hfree⟩
        exact hnode (List.mem_singleton.mp hb ▸ hfree)
      exact ⟨u, p, w, fun d hd hfree => hbefore d hd ((free_union_iff hclosed hu).mp hfree),
        (firstPath_union_iff hclosed hu).mpr hp, hw⟩
  · rintro (h | ⟨before, b, after, rfl, hadds⟩)
    · refine ⟨[], node, nodes, rfl, (adds_singleton_iff.mp h).imp_right ?_⟩
      rintro ⟨u, p, w, hp⟩
      exact ⟨u, p, w, List.forall_mem_nil _, hp⟩
    · refine ⟨node :: before, b, after, rfl, hadds.imp_right ?_⟩
      rintro ⟨u, p, w, hbefore, hp, hw⟩
      have hu : u ∉ {n | ∃ b ∈ [node], Free (following graph) S b n} :=
        fun hu => hp.free.notMem_right (Set.mem_union_right S hu)
      refine ⟨u, p, w, List.forall_mem_cons.mpr ⟨?_, fun d hd hfree => ?_⟩,
        (firstPath_union_iff hclosed hu).mp hp, hw⟩
      · exact fun hfree => hu ⟨node, List.mem_singleton_self _, hfree⟩
      · exact hbefore d hd ((free_union_iff hclosed hu).mpr hfree)

/-- A step that is new adds what the steps add to which it leads, with itself on the stack. -/
theorem adds_fresh_iff (hnode : node ∉ S) (hstack : node ∉ stack) : Adds graph S stack [node] y ↔
    Adds graph (insert node S) (node :: stack) (following graph node) y := by
  have hreverse (q : List String) : (node :: q).reverse ++ stack = q.reverse ++ node :: stack := by
    rw [List.reverse_cons, List.append_assoc, List.singleton_append]
  rw [adds_singleton_iff, or_iff_right fun h => hstack h.1]
  constructor
  · rintro ⟨u, p, w, hp, hw, hcloses⟩
    cases hp with
    | here _ =>
      obtain ⟨before, after, hnext⟩ := List.append_of_mem hw
      exact ⟨before, w, after, hnext, .inl hcloses⟩
    | step _ hnext hbefore hp =>
      exact ⟨_, _, _, hnext, .inr ⟨u, _, w, hbefore, hp, hw, hreverse _ ▸ hcloses⟩⟩
  · rintro ⟨before, b, after, hnext, hcloses | ⟨u, p, w, hbefore, hp, hw, hcloses⟩⟩
    · have hb : b ∈ following graph node :=
        hnext ▸ List.mem_append_right _ List.mem_cons_self
      exact ⟨node, [node], b, .here hnode, hb, hcloses⟩
    · exact ⟨u, node :: p, w, .step hnode hnext hbefore hp, hw, (hreverse p).symm ▸ hcloses⟩

/-! ### One step after the other -/

namespace After

theorem nil (h : s.Sound graph ids stack) : After graph ids stack [] s s where
  run := .nil
  sound := h
  doneSteps := by simp
  cycle y := (or_iff_left not_adds_nil).symm

theorem passed (h : After graph ids stack nodes s s') : s'.passed stack =
    s.passed stack ∪ {n | ∃ b ∈ nodes, Free (following graph) (s.passed stack) b n} := by
  rw [Search.passed, h.doneSteps, Set.union_right_comm]
  rfl

theorem cons (h : After graph ids stack [node] s s') (hrest : After graph ids stack nodes s' s'') :
    After graph ids stack (node :: nodes) s s'' where
  run := .cons (visitsAll_singleton h.run) hrest.run
  sound := hrest.sound
  doneSteps := by
    ext n
    have hclosed : Closed (following graph) (s.passed stack)
      {n | ∃ b ∈ [node], Free (following graph) (s.passed stack) b n} := closed_reached
    rw [hrest.doneSteps, h.doneSteps, h.passed, Set.union_assoc]
    refine or_congr_right ⟨?_, ?_⟩
    · rintro (⟨b, hb, hfree⟩ | ⟨b, hb, hfree⟩)
      · exact ⟨b, List.mem_cons.mpr (.inl (List.mem_singleton.mp hb)), hfree⟩
      · exact ⟨b, List.mem_cons_of_mem _ hb, hfree.mono Set.subset_union_left⟩
    · rintro ⟨b, hb, hfree⟩
      by_cases hn : n ∈ {n | ∃ b ∈ [node], Free (following graph) (s.passed stack) b n}
      · exact .inl hn
      · have hfree' := (free_union_iff hclosed hn).mpr hfree
        refine .inr ⟨b, (List.mem_cons.mp hb).resolve_left ?_, hfree'⟩
        rintro rfl
        exact hn ⟨b, List.mem_singleton_self _, hfree⟩
  cycle y := by rw [hrest.cycle, h.cycle, h.passed, or_assoc, ← adds_cons_iff]

theorem foldl {f : Search → String → Search}
    (hf : ∀ s : Search, s.Sound graph ids stack →
      ∀ node ∈ ids, After graph ids stack [node] s (f s node))
    (hs : s.Sound graph ids stack) (hnodes : ∀ node ∈ nodes, node ∈ ids) :
    After graph ids stack nodes s (nodes.foldl f s) := by
  induction nodes generalizing s with
  | nil => exact .nil hs
  | cons node nodes ih =>
    obtain ⟨hnode, hnodes⟩ := List.forall_mem_cons.mp hnodes
    have h := hf s hs node hnode
    exact h.cons (ih h.sound hnodes)

end After

/-! ### The search from one step on -/

theorem reached_of_passed (h : node ∈ S) :
    {n | ∃ b ∈ [node], Free (following graph) S b n} = ∅ := by
  refine Set.eq_empty_iff_forall_notMem.mpr ?_
  rintro n ⟨b, hb, hfree⟩
  exact hfree.notMem (List.mem_singleton.mp hb ▸ h)

theorem adds_passed_iff (h : node ∈ S) : Adds graph S stack [node] y ↔ Closes stack node y := by
  refine adds_singleton_iff.trans (or_iff_left ?_)
  rintro ⟨u, p, w, hp, -⟩
  exact hp.free.notMem h

namespace After

theorem of_done (hs : s.Sound graph ids stack) (h : s.state.lookup node = some .done) :
    After graph ids stack [node] s s := by
  have hpassed : node ∈ s.passed stack := .inl h
  have hnot : node ∉ stack := fun hmem => by
    rw [(hs.visiting node).mpr hmem] at h
    cases h
  exact {
    run := .cons (.done h) .nil
    sound := hs
    doneSteps := by rw [reached_of_passed hpassed, Set.union_empty]
    cycle := fun y => by rw [adds_passed_iff hpassed, or_iff_left fun hcloses => hnot hcloses.1] }

theorem of_visiting (hs : s.Sound graph ids stack) (h : s.state.lookup node = some .visiting) :
    After graph ids stack [node] s
      { s with cycle := s.cycle ++ node :: stack.takeWhile (· ≠ node) } := by
  have hstack : node ∈ stack := (hs.visiting node).mp h
  have hpassed : node ∈ s.passed stack := .inr hstack
  exact {
    run := .cons (.visiting h) .nil
    sound := ⟨hs.nodup, hs.known, hs.visiting, hs.closed⟩
    doneSteps := by
      rw [reached_of_passed hpassed, Set.union_empty]
      rfl
    cycle := fun y => by
      rw [adds_passed_iff hpassed, Closes, and_iff_right hstack]
      exact List.mem_append }

end After

namespace Search

theorem lookup_mark (mark : Mark) (n : String) :
    ((node, mark) :: s.state).lookup n = if n = node then some mark else s.state.lookup n := by
  rw [List.lookup_cons]
  by_cases hn : n = node
  · rw [if_pos hn, beq_iff_eq.mpr hn]
  · rw [if_neg hn, beq_eq_false_iff_ne.mpr hn]

theorem mem_doneSteps {n : String} : n ∈ s.doneSteps ↔ s.state.lookup n = some .done := Iff.rfl

theorem doneSteps_visiting (h : s.state.lookup node = none) :
    doneSteps { s with state := (node, .visiting) :: s.state } = s.doneSteps := by
  ext n
  rw [mem_doneSteps, mem_doneSteps, lookup_mark]
  by_cases hn : n = node
  · simp [hn, h]
  · rw [if_neg hn]

theorem doneSteps_done :
    doneSteps { s with state := (node, .done) :: s.state } = insert node s.doneSteps := by
  ext n
  rw [mem_doneSteps, lookup_mark, Set.mem_insert_iff, mem_doneSteps]
  by_cases hn : n = node
  · simp [hn]
  · simp [hn]

theorem passed_visiting (h : s.state.lookup node = none) :
    passed { s with state := (node, .visiting) :: s.state } (node :: stack) =
      insert node (s.passed stack) := by
  rw [passed, doneSteps_visiting h]
  ext n
  simp [passed, or_left_comm]

theorem Sound.notMem (hs : s.Sound graph ids stack) (h : s.state.lookup node = none) :
    node ∉ stack := by
  intro hmem
  rw [(hs.visiting node).mpr hmem] at h
  cases h

theorem notMem_passed (hs : s.Sound graph ids stack) (h : s.state.lookup node = none) :
    node ∉ s.passed stack := by
  rintro (hdone | hmem)
  · rw [mem_doneSteps.mp hdone] at h
    cases h
  · exact hs.notMem h hmem

theorem Sound.cons (hs : s.Sound graph ids stack) (hnode : node ∈ ids)
    (h : s.state.lookup node = none) :
    Sound graph ids (node :: stack) { s with state := (node, .visiting) :: s.state } where
  nodup := List.nodup_cons.mpr ⟨hs.notMem h, hs.nodup⟩
  known := List.forall_mem_cons.mpr ⟨hnode, hs.known⟩
  visiting n := by
    rw [lookup_mark, List.mem_cons, ← hs.visiting]
    by_cases hn : n = node
    · simp [hn]
    · simp [hn]
  closed := by
    rw [doneSteps_visiting h]
    exact fun n hn m hm => (hs.closed n hn m hm).imp_left (List.mem_cons_of_mem node)

theorem Sound.tail (hs : s.Sound graph ids (node :: stack))
    (hnext : ∀ m ∈ following graph node, m ∈ s.passed (node :: stack)) :
    Sound graph ids stack { s with state := (node, .done) :: s.state } where
  nodup := hs.nodup.of_cons
  known := fun n hn => hs.known n (List.mem_cons_of_mem node hn)
  visiting n := by
    rw [lookup_mark]
    by_cases hn : n = node
    · rw [if_pos hn, hn]
      exact iff_of_false (by simp) (List.nodup_cons.mp hs.nodup).1
    · rw [if_neg hn, hs.visiting, List.mem_cons, or_iff_right hn]
  closed := by
    have hmem (m : String) (h : m ∈ s.passed (node :: stack)) :
        m ∈ stack ∨ m ∈ insert node s.doneSteps := by
      rcases h with hdone | hm
      · exact .inr (Set.mem_insert_of_mem node hdone)
      · rcases List.mem_cons.mp hm with rfl | hm
        · exact .inr (Set.mem_insert m _)
        · exact .inl hm
    rw [doneSteps_done]
    rintro n (rfl | hn) m hm
    · exact hmem m (hnext m hm)
    · exact hmem m ((hs.closed n hn m hm).symm)

end Search

/-- A step that is new is done when what it leads to is. -/
theorem After.of_fresh (h : s.state.lookup node = none) (hs : s.Sound graph ids stack)
    (hall : After graph ids (node :: stack) (following graph node)
      { s with state := (node, .visiting) :: s.state } s') :
    After graph ids stack [node] s { s' with state := (node, .done) :: s'.state } := by
  have hdone := hall.doneSteps
  have hcycle := hall.cycle
  have hpassed := hall.passed
  rw [Search.passed_visiting h] at hdone hcycle hpassed
  rw [Search.doneSteps_visiting h] at hdone
  have hnot : node ∉ s.passed stack := Search.notMem_passed hs h
  exact {
    run := .cons (.fresh h hall.run) .nil
    sound := hall.sound.tail fun m hm => by
      rw [hpassed]
      by_cases hmem : m ∈ insert node (s.passed stack)
      · exact .inl hmem
      · exact .inr ⟨m, hm, .refl hmem⟩
    doneSteps := by
      ext n
      rw [Search.doneSteps_done, hdone]
      simp only [List.mem_singleton, exists_eq_left, Set.mem_insert_iff, Set.mem_union,
        Set.mem_ofPred_eq]
      rw [free_iff, and_iff_right hnot, or_left_comm, eq_comm]
    cycle := fun y => by rw [hcycle, adds_fresh_iff hnot (hs.notMem h)] }

/-- **What the search from one step on adds**: it ends, what it reaches is done, and the steps that
are reported lie on the stack when one of them is met again. -/
theorem dfs_after (hgraph : ∀ n ∈ ids, ∀ m ∈ following graph n, m ∈ ids) {depth : ℕ}
    (hdepth : ids.length < depth + stack.length) (hs : s.Sound graph ids stack)
    (hnode : node ∈ ids) :
    After graph ids stack [node] s (dfs graph depth stack s node) := by
  induction depth generalizing stack s node with
  | zero =>
    have hlength := (hs.nodup.subperm hs.known).length_le
    omega
  | succ depth ih =>
    cases h : s.state.lookup node with
    | some mark =>
      cases mark with
      | visiting => simpa only [dfs, h] using After.of_visiting hs h
      | done => simpa only [dfs, h] using After.of_done hs h
    | none =>
      have hstep : ∀ s : Search, s.Sound graph ids (node :: stack) → ∀ next ∈ ids,
          After graph ids (node :: stack) [next] s (dfs graph depth (node :: stack) s next) :=
        fun s hs next hnext => ih (by rw [List.length_cons]; omega) hs hnext
      have hall := After.foldl hstep (hs.cons hnode h) (hgraph node hnode)
      simpa only [dfs, h, following] using hall.of_fresh h hs

/-! ### The search over all steps -/

theorem takeWhile_reverse {before after : List String} (hp : (before ++ w :: after).Nodup) :
    (before ++ w :: after).reverse.takeWhile (· ≠ w) = after.reverse := by
  have hw : ∀ n ∈ after.reverse, decide (n ≠ w) = true := fun n hn => by
    have hnot : w ∉ after :=
      (List.nodup_cons.mp (hp.sublist (List.sublist_append_right before _))).1
    exact decide_eq_true fun heq => hnot (heq ▸ List.mem_reverse.mp hn)
  rw [List.reverse_append, List.reverse_cons, List.append_assoc, List.takeWhile_append_of_pos hw]
  simp

/-- On a path that passes no step twice, what is reported is what it passes from a step on. -/
theorem closes_reverse_iff {p : List String} (hp : p.Nodup) :
    Closes p.reverse w y ↔ Spans p w y := by
  constructor
  · rintro ⟨hw, hy⟩
    obtain ⟨before, after, rfl⟩ := List.append_of_mem (List.mem_reverse.mp hw)
    rw [takeWhile_reverse hp, List.mem_cons, List.mem_reverse, ← List.mem_cons] at hy
    exact ⟨before, after, rfl, hy⟩
  · rintro ⟨before, after, rfl, hy⟩
    refine ⟨by simp, ?_⟩
    rwa [takeWhile_reverse hp, List.mem_cons, List.mem_reverse, ← List.mem_cons]

/-- What the search reports is what first paths close. -/
theorem adds_iff_found : Adds graph ∅ [] nodes y ↔ Graphs.Found (following graph) nodes y := by
  constructor
  · rintro ⟨before, b, after, rfl, hcloses | ⟨u, p, w, hbefore, hp, hw, hcloses⟩⟩
    · exact absurd hcloses.1 List.not_mem_nil
    · rw [List.append_nil, closes_reverse_iff hp.nodup] at hcloses
      exact ⟨before, b, after, u, p, w, rfl, hbefore, hp, hw, hcloses⟩
  · rintro ⟨before, b, after, u, p, w, rfl, hbefore, hp, hw, hspans⟩
    refine ⟨before, b, after, rfl, .inr ⟨u, p, w, hbefore, hp, hw, ?_⟩⟩
    rwa [List.append_nil, closes_reverse_iff hp.nodup]

theorem sound_empty : Search.Sound graph ids [] ⟨[], []⟩ where
  nodup := List.nodup_nil
  known := List.forall_mem_nil _
  visiting n := by simp
  closed n hn := by simp [Search.mem_doneSteps] at hn

theorem passed_empty : Search.passed ⟨[], []⟩ [] = ∅ := by
  ext n
  simp [Search.passed, Search.doneSteps]

/-- **The search over all steps** ends, and it reports what first paths close. -/
theorem search_found (hgraph : ∀ n ∈ ids, ∀ m ∈ following graph n, m ∈ ids)
    (hnodes : ∀ n ∈ nodes, n ∈ ids) :
    VisitsAll graph [] ⟨[], []⟩ nodes (nodes.foldl (dfs graph (ids.length + 1) []) ⟨[], []⟩) ∧
      ∀ y, y ∈ (nodes.foldl (dfs graph (ids.length + 1) []) ⟨[], []⟩).cycle ↔
        Graphs.Found (following graph) nodes y := by
  have hafter : After graph ids [] nodes ⟨[], []⟩ _ :=
    .foldl (fun s hs node => dfs_after hgraph (Nat.lt_succ_self ids.length) hs) sound_empty hnodes
  refine ⟨hafter.run, fun y => ?_⟩
  rw [hafter.cycle, passed_empty, adds_iff_found]
  exact or_iff_right List.not_mem_nil

section

variable (plan : Plan)

/-- A step depends on another one. -/
def DependsOn (x y : String) : Prop :=
  ∃ step ∈ plan.plan.steps, step.id = x ∧ y ∈ step.dependsOn ∧ y ∈ plan.plan.steps.map Step.id

def knownDependencies : List (String × List String) :=
  plan.plan.steps.map fun step => (step.id, step.dependsOn.filter (· ∈ plan.plan.steps.map Step.id))

/-- The search over the steps of a plan. -/
def cycleSearch [PlannerLibrary] : Search :=
  (mapOrder (plan.plan.steps.map Step.id)).foldl
    (dfs (knownDependencies plan) ((plan.plan.steps.map Step.id).length + 1) []) ⟨[], []⟩

/-- **Cycles are reported exactly**, whatever the order of the hash map: the search ends, there is
an error if and only if a step depends on itself, and the error names the steps that do. -/
def ExactCycles : Prop :=
  ∀ _ : PlannerLibrary,
    (mapOrder (plan.plan.steps.map Step.id)).Perm (plan.plan.steps.map Step.id) →
    VisitsAll (knownDependencies plan) [] ⟨[], []⟩ (mapOrder (plan.plan.steps.map Step.id))
      (cycleSearch plan) ∧
    ((∃ steps, .cycle steps ∈ checkCycles plan) ↔ ∃ y, Relation.TransGen (DependsOn plan) y y) ∧
    ∀ steps, .cycle steps ∈ checkCycles plan →
      ∀ y, y ∈ steps ↔ Relation.TransGen (DependsOn plan) y y

/-- A path from the one step over the other comes back to a step before that: at each step it goes
on with the first dependency that leads to its end. -/
def SpansDependencies (x y : String) : Prop := Spanned (following (knownDependencies plan)) x y

end

section

variable {plan : Plan}

theorem cycle_mem_iff [PlannerLibrary] {steps : List String} :
    .cycle steps ∈ checkCycles plan ↔ (cycleSearch plan).cycle ≠ [] ∧
      steps = (cycleSearch plan).cycle.dedup.insertionSort (· ≤ ·) := by
  have hunknown : ValidationError.cycle steps ∉ plan.plan.steps.flatMap fun step =>
      (step.dependsOn.filter (· ∉ plan.plan.steps.map Step.id)).map
        (.unknownDependency step.id) := by
    simp
  refine List.mem_append.trans ((or_iff_right hunknown).trans ?_)
  have hreported : ∀ s : Search, ValidationError.cycle steps ∈
      (if s.cycle = [] then [] else [.cycle (s.cycle.dedup.insertionSort (· ≤ ·))]) ↔
        s.cycle ≠ [] ∧ steps = s.cycle.dedup.insertionSort (· ≤ ·) := by
    intro s
    split <;> simp_all
  exact hreported (cycleSearch plan)

/-- The dependencies that are known, of a step that is there once. -/
theorem following_iff (hids : (plan.plan.steps.map Step.id).Nodup) {x y : String} :
    y ∈ following (knownDependencies plan) x ↔ DependsOn plan x y := by
  have hkeys : (knownDependencies plan).map Prod.fst = plan.plan.steps.map Step.id := by
    rw [knownDependencies, List.map_map]
    rfl
  have hmem {step : Step} : y ∈ step.dependsOn.filter (· ∈ plan.plan.steps.map Step.id) ↔
      y ∈ step.dependsOn ∧ y ∈ plan.plan.steps.map Step.id := by
    rw [List.mem_filter, decide_eq_true_iff]
  constructor
  · intro hy
    cases h : (knownDependencies plan).lookup x with
    | none => simp [following, h] at hy
    | some deps =>
      rw [following, h, Option.getD_some] at hy
      obtain ⟨before, after, heq, -⟩ := List.lookup_eq_some_iff.mp h
      have hdeps : (x, deps) ∈ knownDependencies plan := heq ▸ by simp
      obtain ⟨step, hstep, hsame⟩ := List.mem_map.mp hdeps
      obtain ⟨rfl, rfl⟩ := Prod.mk.inj hsame
      exact ⟨step, hstep, rfl, hmem.mp hy⟩
  · rintro ⟨step, hstep, rfl, hy⟩
    have hdeps : (step.id, step.dependsOn.filter (· ∈ plan.plan.steps.map Step.id)) ∈
        knownDependencies plan := List.mem_map_of_mem hstep
    rw [following, lookup_of_nodup (hkeys ▸ hids) hdeps, Option.getD_some]
    exact hmem.mpr hy

theorem dependsOn_eq (hids : (plan.plan.steps.map Step.id).Nodup) :
    (fun a b => b ∈ following (knownDependencies plan) a) = DependsOn plan :=
  funext fun _ => funext fun _ => propext (following_iff hids)

theorem onCycle_iff (hids : (plan.plan.steps.map Step.id).Nodup) {y : String} :
    OnCycle (following (knownDependencies plan)) y ↔ Relation.TransGen (DependsOn plan) y y := by
  rw [OnCycle, dependsOn_eq hids]

theorem DependsOn.right {x y : String} (h : DependsOn plan x y) :
    y ∈ plan.plan.steps.map Step.id := by
  obtain ⟨-, -, -, -, hy⟩ := h
  exact hy

theorem following_known (hids : (plan.plan.steps.map Step.id).Nodup) :
    ∀ a ∈ plan.plan.steps.map Step.id, ∀ b ∈ following (knownDependencies plan) a,
      b ∈ plan.plan.steps.map Step.id :=
  fun _ _ _ hb => ((following_iff hids).mp hb).right

theorem onCycle_known {y : String} (h : Relation.TransGen (DependsOn plan) y y) :
    y ∈ plan.plan.steps.map Step.id := by
  obtain ⟨x, -, hx⟩ := Relation.TransGen.tail'_iff.mp h
  exact hx.right

section

variable [PlannerLibrary]
  (horder : (mapOrder (plan.plan.steps.map Step.id)).Perm (plan.plan.steps.map Step.id))

include horder

theorem cycleSearch_found (hids : (plan.plan.steps.map Step.id).Nodup) :
    VisitsAll (knownDependencies plan) [] ⟨[], []⟩ (mapOrder (plan.plan.steps.map Step.id))
      (cycleSearch plan) ∧
    ∀ y, y ∈ (cycleSearch plan).cycle ↔
      Graphs.Found (following (knownDependencies plan)) (mapOrder (plan.plan.steps.map Step.id)) y :=
  search_found (following_known hids) fun _ hn => horder.mem_iff.mp hn

/-- An error is there if something is found. -/
theorem exists_cycle_iff (hids : (plan.plan.steps.map Step.id).Nodup) :
    (∃ steps, .cycle steps ∈ checkCycles plan) ↔ ∃ y,
      Graphs.Found (following (knownDependencies plan)) (mapOrder (plan.plan.steps.map Step.id)) y := by
  have hne : (cycleSearch plan).cycle ≠ [] ↔ ∃ y, y ∈ (cycleSearch plan).cycle :=
    ⟨List.exists_mem_of_ne_nil _, fun ⟨_, hy⟩ => List.ne_nil_of_mem hy⟩
  simp only [cycle_mem_iff, exists_and_left, exists_eq, and_true, hne,
    (cycleSearch_found horder hids).2]

/-- The error names what is found. -/
theorem mem_cycle_iff (hids : (plan.plan.steps.map Step.id).Nodup) {steps : List String}
    (h : .cycle steps ∈ checkCycles plan) {y : String} : y ∈ steps ↔
      Graphs.Found (following (knownDependencies plan)) (mapOrder (plan.plan.steps.map Step.id)) y := by
  obtain ⟨-, rfl⟩ := cycle_mem_iff.mp h
  rw [List.mem_insertionSort, List.mem_dedup, (cycleSearch_found horder hids).2]

end

/-- Cycles are reported exactly if all that lies on cycles is found. -/
theorem exactCycles_iff_found (hids : (plan.plan.steps.map Step.id).Nodup) : ExactCycles plan ↔
    ∀ order : List String, order.Perm (plan.plan.steps.map Step.id) →
      ∀ y ∈ plan.plan.steps.map Step.id, Graphs.Found (following (knownDependencies plan)) order y ↔
        OnCycle (following (knownDependencies plan)) y := by
  constructor
  · intro h order horder y _
    let library : PlannerLibrary := ⟨fun _ => "", fun s => s, fun _ => order⟩
    obtain ⟨-, hexists, hexact⟩ := h library horder
    rw [onCycle_iff hids]
    constructor
    · intro hfound
      obtain ⟨steps, hsteps⟩ := (exists_cycle_iff horder hids).mpr ⟨y, hfound⟩
      exact (hexact steps hsteps y).mp ((mem_cycle_iff horder hids hsteps).mpr hfound)
    · intro hcycle
      obtain ⟨steps, hsteps⟩ := hexists.mpr ⟨y, hcycle⟩
      exact (mem_cycle_iff horder hids hsteps).mp ((hexact steps hsteps y).mpr hcycle)
  · intro h library horder
    have hfound (y : String) : Graphs.Found (following (knownDependencies plan))
        (mapOrder (plan.plan.steps.map Step.id)) y ↔
          Relation.TransGen (DependsOn plan) y y := by
      rw [← onCycle_iff hids]
      refine ⟨Graphs.Found.onCycle, fun hy => ?_⟩
      exact (h _ horder y (onCycle_known ((onCycle_iff hids).mp hy))).mpr hy
    refine ⟨(cycleSearch_found horder hids).1, ?_, fun steps hsteps y => ?_⟩
    · rw [exists_cycle_iff horder hids]
      exact exists_congr hfound
    · rw [mem_cycle_iff horder hids hsteps]
      exact hfound y

/-- **Cycles are reported exactly** if and only if the steps of a cycle are spanned from each
other. -/
theorem exactCycles_iff (hids : (plan.plan.steps.map Step.id).Nodup) : ExactCycles plan ↔
    ∀ x y, Relation.TransGen (DependsOn plan) x y → Relation.TransGen (DependsOn plan) y x →
      SpansDependencies plan x y := by
  rw [exactCycles_iff_found hids, found_iff (following_known hids)]
  simp only [onCycle_iff hids, Graphs.Leads, dependsOn_eq hids]
  constructor
  · intro h x y hxy hyx
    exact h x (onCycle_known (hxy.trans hyx)) y (hyx.trans hxy) hxy.to_reflTransGen
      hyx.to_reflTransGen
  · intro h x _ y hy hxy hyx
    exact h x y (.trans_right hxy hy) (hy.trans_left hyx)

end

/-! ### A step on two cycles -/

def twiceStep (name : String) (dependsOn : List String) : Step :=
    ⟨name, .edit, [], "", ["add"], dependsOn⟩

/-- The first step is on two cycles, with the third one on one of them only. -/
def twicePlan : Plan where
  schemaVersion := schemaVersionText
  planId := "p"
  generatedAtUtc := ""
  prompt := ⟨"", ""⟩
  target := ⟨"", "", "", ""⟩
  plan := ⟨.build, "", "", [], [twiceStep "step_a" ["step_b", "step_c"],
    twiceStep "step_b" ["step_a"], twiceStep "step_c" ["step_b"]], ⟨[], [], []⟩⟩
  provenance := ⟨1, "", "", ""⟩
  trustBoundary := ⟨"", false, "", ""⟩
  quality := none

theorem exactCycles_iff_twice : ExactCycles twicePlan ↔
    ∀ x y, Relation.TransGen (DependsOn twicePlan) x y →
      Relation.TransGen (DependsOn twicePlan) y x → SpansDependencies twicePlan x y :=
  exactCycles_iff (by decide)

/-- The search from the first step leaves the third one out. -/
theorem not_exactCycles_twice :
    ¬ ∀ plan : Plan, (plan.plan.steps.map Step.id).Nodup → ExactCycles plan := by
  intro h
  let library : PlannerLibrary := ⟨fun _ => "", fun s => s, fun l => l⟩
  obtain ⟨-, hexists, hexact⟩ := h twicePlan (by decide) library (List.Perm.refl _)
  have hca : Relation.TransGen (DependsOn twicePlan) "step_c" "step_a" :=
    .tail (.single ⟨twiceStep "step_c" ["step_b"], by simp [twicePlan], rfl, by decide, by decide⟩)
      ⟨twiceStep "step_b" ["step_a"], by simp [twicePlan], rfl, by decide, by decide⟩
  have hcycle : Relation.TransGen (DependsOn twicePlan) "step_c" "step_c" :=
    hca.tail ⟨twiceStep "step_a" ["step_b", "step_c"], by simp [twicePlan], rfl, by decide,
      by decide⟩
  obtain ⟨steps, hsteps⟩ := hexists.mpr ⟨_, hcycle⟩
  have hmem := (hexact steps hsteps _).mpr hcycle
  obtain ⟨-, rfl⟩ := cycle_mem_iff.mp hsteps
  rw [List.mem_insertionSort, List.mem_dedup] at hmem
  exact absurd hmem (by decide)

end Planner

end Ao2
