import Mathlib.Algebra.BigOperators.Group.List.Basic
import Mathlib.Algebra.Order.BigOperators.Group.List
import Mathlib.Algebra.Order.Group.Nat
import Mathlib.Algebra.Ring.Nat
import Mathlib.Data.Finite.Prod
import Mathlib.Data.Fintype.EquivFin
import Mathlib.Data.List.Nodup
import Mathlib.Data.List.Perm.Subperm
import Mathlib.Logic.Relation
import Mathlib.Order.RelClasses
import Mathlib.Order.WellFounded

/-!
# Turns

Keys that need other keys, taken one after the other: a list of keys is in turn if each one comes after
all that it needs.

Each key has a counter of the edges into it from keys that are not yet taken. A key whose counter is zero
is ready; when it is taken, its edges go, one after the other. There may be several edges between two
keys, and edges from a key to itself.

## Main results

* `InTurn.acyclic` — keys that can be taken in turn need no one of themselves
* `Acyclic.exists_ready` — of finitely many keys, one needs none of the others
* `exists_drain` — one turn for each key is enough
* `length_eq_iff` — all keys are taken if and only if no key leads to itself
-/

namespace Ao2

namespace Graphs

variable {κ : Type} {needs : κ → κ → Prop}

/-- Each key comes after all that it needs. -/
def InTurn (needs : κ → κ → Prop) (order : List κ) : Prop :=
  ∀ before k after, order = before ++ k :: after → ∀ source, needs k source → source ∈ before

/-- No key needs itself, over any number of steps. -/
def Acyclic (needs : κ → κ → Prop) : Prop := ∀ k, ¬ Relation.TransGen needs k k

theorem inTurn_nil : InTurn needs [] := by
  intro before k after h
  cases before <;> cases h

/-- One more key, whose needs have all had their turn. -/
theorem InTurn.concat {order : List κ} {k : κ} (h : InTurn needs order)
    (hk : ∀ source, needs k source → source ∈ order) : InTurn needs (order ++ [k]) := by
  intro before k' after heq source hneeds
  rcases List.eq_nil_or_concat after with rfl | ⟨after', last, rfl⟩
  · obtain ⟨rfl, hlast⟩ := List.append_inj' heq rfl
    obtain rfl := List.singleton_inj.mp hlast
    exact hk source hneeds
  · rw [List.concat_eq_append, ← List.cons_append, ← List.append_assoc] at heq
    obtain ⟨rfl, -⟩ := List.append_inj' heq rfl
    exact h before k' after' rfl source hneeds

/-- Where a key has its turn, what it needs has had it. -/
theorem InTurn.idxOf_lt [DecidableEq κ] {order : List κ} (h : InTurn needs order) {k source : κ}
    (hk : k ∈ order) (hneeds : needs k source) : order.idxOf source < order.idxOf k := by
  obtain ⟨before, after, heq, hnot⟩ := List.eq_append_cons_of_mem hk
  have hsource := h before k after heq source hneeds
  rw [heq, List.idxOf_append_of_mem hsource, List.idxOf_append_of_notMem hnot]
  exact Nat.lt_add_right _ (List.idxOf_lt_length_of_mem hsource)

/-- **Keys that can be taken in turn need no one of themselves.** -/
theorem InTurn.acyclic {order : List κ} (h : InTurn needs order)
    (hmem : ∀ k source, needs k source → k ∈ order) : Acyclic needs := by
  classical
  have hlt : ∀ {k source}, Relation.TransGen needs k source → order.idxOf source < order.idxOf k := by
    intro k source hpath
    induction hpath with
    | single hneeds => exact h.idxOf_lt (hmem _ _ hneeds) hneeds
    | tail _ hneeds ih => exact (h.idxOf_lt (hmem _ _ hneeds) hneeds).trans ih
  exact fun k hpath => lt_irrefl _ (hlt hpath)

/-- **Of finitely many keys, one needs none of the others**, if no key needs itself. -/
theorem Acyclic.exists_ready (h : Acyclic needs) {keys : List κ} (hne : keys ≠ []) :
    ∃ k ∈ keys, ∀ source, needs k source → source ∉ keys := by
  have : Finite {k // k ∈ keys} := keys.finite_toSet
  let below : {k // k ∈ keys} → {k // k ∈ keys} → Prop := fun a b => Relation.TransGen needs b.1 a.1
  have : IsTrans _ below := ⟨fun _ _ _ hab hbc => hbc.trans hab⟩
  have : Std.Irrefl below := ⟨fun a => h a.1⟩
  have hwf : WellFounded below := Finite.wellFounded_of_trans_of_irrefl below
  obtain ⟨k, hk⟩ := List.exists_mem_of_ne_nil keys hne
  obtain ⟨m, -, hm⟩ := hwf.has_min Set.univ ⟨⟨k, hk⟩, trivial⟩
  exact ⟨m.1, m.2, fun source hneeds hsource => hm ⟨source, hsource⟩ trivial (.single hneeds)⟩

end Graphs

end Ao2

/-! ## Taking keys as they become ready -/

namespace Ao2

namespace Graphs

namespace Kahn

variable {κ : Type} [DecidableEq κ]

/-- The counters, and the keys that are ready, the last one first. -/
structure Counted (κ : Type) where
  degree : κ → ℕ
  ready : List κ

/-- An edge to a key goes. -/
def drop (keys : List κ) (c : Counted κ) (child : κ) : Counted κ :=
  if child ∈ keys then
    { degree := Function.update c.degree child (c.degree child - 1)
      ready := if c.degree child - 1 = 0 then child :: c.ready else c.ready }
  else c

/-- Keys are taken until none is ready. The keys taken are listed in turn. -/
def drain (keys : List κ) (out : κ → List κ) : ℕ → Counted κ → List κ → Option (Counted κ × List κ)
  | 0, _, _ => none
  | fuel + 1, c, visited =>
    match c.ready with
    | [] => some (c, visited)
    | k :: ready =>
      drain keys out fuel ((out k).foldl (drop keys) { c with ready }) (visited ++ [k])

/-- The edges into a key from some keys. -/
def incoming (out : κ → List κ) (sources : List κ) (k : κ) : ℕ :=
  (sources.map fun source => (out source).count k).sum

/-- What holds while the edges in `rest` go: counters count the edges that are left, and the keys that
are ready are those whose counter is zero. -/
structure Invariant (keys : List κ) (out : κ → List κ) (c : Counted κ) (visited pending rest : List κ) :
    Prop where
  perm : keys.Perm (visited ++ pending)
  count : ∀ k ∈ keys, c.degree k = rest.count k + incoming out pending k
  ready : ∀ k, k ∈ c.ready ↔ k ∈ pending ∧ c.degree k = 0
  nodup : c.ready.Nodup
  done : ∀ k ∈ visited, c.degree k = 0
  turn : InTurn (fun k source => k ∈ out source) visited

/-- Edges are between keys. -/
def Closed (keys : List κ) (out : κ → List κ) : Prop := ∀ source, ∀ k ∈ out source, source ∈ keys ∧ k ∈ keys

variable {keys : List κ} {out : κ → List κ} {c : Counted κ} {visited pending rest : List κ}

theorem incoming_eq_zero {sources : List κ} {k : κ} :
    incoming out sources k = 0 ↔ ∀ source ∈ sources, k ∉ out source := by
  rw [incoming, List.sum_eq_zero_iff, List.forall_mem_map]
  exact forall₂_congr fun source _ => List.count_eq_zero

theorem incoming_erase {sources : List κ} {source k : κ} (h : source ∈ sources) :
    incoming out sources k = (out source).count k + incoming out (sources.erase source) k := by
  have hperm := ((List.perm_cons_erase h).map fun source => (out source).count k).sum_eq
  rwa [List.map_cons, List.sum_cons] at hperm

/-- The start: no key is taken, and those without an edge into them are ready. -/
theorem Invariant.start (hkeys : keys.Nodup) (hcount : ∀ k ∈ keys, c.degree k = incoming out keys k)
    (hready : c.ready.Perm (keys.filter fun k => c.degree k = 0)) :
    Invariant keys out c [] keys [] := by
  refine ⟨List.Perm.refl _, fun k hk => ?_, fun k => ?_, ?_, fun k hk => ?_, inTurn_nil⟩
  · rw [List.count_nil, Nat.zero_add, hcount k hk]
  · rw [hready.mem_iff, List.mem_filter, decide_eq_true_eq]
  · exact hready.nodup_iff.mpr (hkeys.filter _)
  · exact absurd hk List.not_mem_nil

/-- A key is taken. -/
theorem Invariant.take {k : κ} {ready : List κ} (hkeys : keys.Nodup) (hclosed : Closed keys out)
    (h : Invariant keys out c visited pending []) (hready : c.ready = k :: ready) :
    Invariant keys out { c with ready } (visited ++ [k]) (pending.erase k) (out k) := by
  have hnodup := (h.perm.nodup_iff.mp hkeys)
  have hpending := (List.nodup_append.mp hnodup).2.1
  obtain ⟨hmem, hzero⟩ := (h.ready k).mp (hready ▸ List.mem_cons_self)
  have hsplit := List.perm_cons_erase hmem
  have hkey : k ∈ keys := h.perm.mem_iff.mpr (List.mem_append_right _ hmem)
  have hnone : incoming out pending k = 0 := by
    have hcount := h.count k hkey
    rw [hzero, List.count_nil, Nat.zero_add] at hcount
    exact hcount.symm
  refine ⟨?_, fun k' hk' => ?_, fun k' => ?_, ?_, fun k' hk' => ?_, ?_⟩
  · rw [List.append_assoc, List.singleton_append]
    exact h.perm.trans (hsplit.append_left visited)
  · have hcount := h.count k' hk'
    rwa [List.count_nil, Nat.zero_add, incoming_erase hmem] at hcount
  · have hready' := h.ready k'
    rw [hready, List.mem_cons] at hready'
    have hnot : k ∉ ready := by
      have hnodup := h.nodup
      rw [hready] at hnodup
      exact (List.nodup_cons.mp hnodup).1
    rw [hpending.mem_erase_iff]
    constructor
    · intro hin
      obtain ⟨hpend, hdegree⟩ := hready'.mp (.inr hin)
      exact ⟨⟨fun heq => hnot (heq ▸ hin), hpend⟩, hdegree⟩
    · rintro ⟨⟨hne, hpend⟩, hdegree⟩
      exact (hready'.mpr ⟨hpend, hdegree⟩).resolve_left hne
  · have hnodup := h.nodup
    rw [hready] at hnodup
    exact (List.nodup_cons.mp hnodup).2
  · rcases List.mem_append.mp hk' with hold | hnew
    · exact h.done k' hold
    · rw [List.mem_singleton.mp hnew]
      exact hzero
  · refine h.turn.concat fun source hsource => ?_
    rcases List.mem_append.mp (h.perm.mem_iff.mp (hclosed source k hsource).1) with hin | hin
    · exact hin
    · exact absurd hsource (incoming_eq_zero.mp hnone source hin)

/-- An edge of the key that was taken goes. -/
theorem Invariant.drop {k : κ} (hkey : k ∈ keys) (h : Invariant keys out c visited pending (k :: rest)) :
    Invariant keys out (drop keys c k) visited pending rest := by
  have hpos : c.degree k = rest.count k + incoming out pending k + 1 := by
    rw [h.count k hkey, List.count_cons_self]
    omega
  have hpending : k ∈ pending := by
    rcases List.mem_append.mp (h.perm.mem_iff.mp hkey) with hin | hin
    · have hdone := h.done k hin
      omega
    · exact hin
  have hnot : k ∉ c.ready := fun hin => by
    have hzero := ((h.ready k).mp hin).2
    omega
  rw [Kahn.drop, if_pos hkey]
  refine ⟨h.perm, fun k' hk' => ?_, fun k' => ?_, ?_, fun k' hk' => ?_, h.turn⟩
  · dsimp only
    by_cases heq : k' = k
    · subst heq
      rw [Function.update_self, hpos]
      omega
    · rw [Function.update_of_ne heq, h.count k' hk', List.count_cons_of_ne (Ne.symm heq)]
  · dsimp only
    by_cases heq : k' = k
    · subst heq
      rw [Function.update_self]
      split_ifs with hzero
      · exact iff_of_true List.mem_cons_self ⟨hpending, hzero⟩
      · exact iff_of_false hnot fun hboth => hzero hboth.2
    · rw [Function.update_of_ne heq, ← h.ready k']
      split_ifs with hzero
      · rw [List.mem_cons, or_iff_right heq]
      · rfl
  · dsimp only
    split_ifs with hzero
    · exact List.nodup_cons.mpr ⟨hnot, h.nodup⟩
    · exact h.nodup
  · dsimp only
    by_cases heq : k' = k
    · subst heq
      rw [Function.update_self, h.done k' hk']
    · rw [Function.update_of_ne heq, h.done k' hk']

/-- All edges of the key that was taken go. -/
theorem Invariant.foldl (hrest : ∀ k ∈ rest, k ∈ keys) (h : Invariant keys out c visited pending rest) :
    Invariant keys out (rest.foldl (Kahn.drop keys) c) visited pending [] := by
  induction rest generalizing c with
  | nil => exact h
  | cons k rest ih =>
    rw [List.forall_mem_cons] at hrest
    exact ih hrest.2 (h.drop hrest.1)

/-- More turns change nothing. -/
theorem drain_of_le {fuel fuel' : ℕ} {result : Counted κ × List κ} (hle : fuel ≤ fuel')
    (h : drain keys out fuel c visited = some result) : drain keys out fuel' c visited = some result := by
  induction fuel generalizing fuel' c visited with
  | zero => cases h
  | succ fuel ih =>
    obtain ⟨fuel', rfl⟩ : ∃ n, fuel' = n + 1 := ⟨fuel' - 1, by omega⟩
    rw [drain] at h ⊢
    cases hready : c.ready with
    | nil =>
      rw [hready] at h
      exact h
    | cons k ready =>
      rw [hready] at h
      exact ih (by omega) h

/-- **One turn for each key is enough.** -/
theorem exists_drain (hkeys : keys.Nodup) (hclosed : Closed keys out) {fuel : ℕ}
    (h : Invariant keys out c visited pending []) (hfuel : pending.length < fuel) :
    ∃ c' visited' pending', drain keys out fuel c visited = some (c', visited') ∧
      Invariant keys out c' visited' pending' [] ∧ c'.ready = [] := by
  induction fuel generalizing c visited pending with
  | zero => omega
  | succ fuel ih =>
    rw [drain]
    cases hready : c.ready with
    | nil => exact ⟨c, visited, pending, rfl, h, hready⟩
    | cons k ready =>
      have hmem : k ∈ pending := ((h.ready k).mp (hready ▸ List.mem_cons_self)).1
      have hlength := List.length_erase_of_mem hmem
      have hpos := List.length_pos_of_mem hmem
      have hnext := (h.take hkeys hclosed hready).foldl fun k' hk' => (hclosed k k' hk').2
      exact ih hnext (by omega)

/-- **All keys are taken if and only if no key leads to itself.** -/
theorem Invariant.length_eq_iff (hclosed : Closed keys out) (h : Invariant keys out c visited pending [])
    (hready : c.ready = []) :
    visited.length = keys.length ↔ Acyclic fun k source => k ∈ out source := by
  have hlength := h.perm.length_eq
  rw [List.length_append] at hlength
  constructor
  · intro hall
    obtain rfl : pending = [] := List.length_eq_zero_iff.mp (by omega)
    refine h.turn.acyclic fun k source hsource => ?_
    have hin := h.perm.mem_iff.mp (hclosed source k hsource).2
    rwa [List.append_nil] at hin
  · intro hacyclic
    have hnone : pending = [] := by
      by_contra hne
      obtain ⟨k, hk, hsources⟩ := hacyclic.exists_ready hne
      have hkey : k ∈ keys := h.perm.mem_iff.mpr (List.mem_append_right _ hk)
      have hzero : incoming out pending k = 0 :=
        incoming_eq_zero.mpr fun source hin hsource => hsources source hsource hin
      have hin : k ∈ c.ready := (h.ready k).mpr ⟨hk, by rw [h.count k hkey, hzero, List.count_nil]⟩
      rw [hready] at hin
      exact absurd hin List.not_mem_nil
    rw [hnone, List.length_nil] at hlength
    omega

end Kahn

end Graphs

end Ao2
