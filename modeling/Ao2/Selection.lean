import Mathlib.Data.List.Sort

/-!
# Choosing from lists

As many members of a list as fit are chosen from its front. They are added one by one until the next
one does not fit, or their number is searched for by halving. Both agree where a choice that fits
still fits without its last members. What a stable sort does to a choice, and what is looked up by a
key, is said last.

## Main results

* `lastFitting_spec`, `addWhile_spec` — what is chosen fits, and with the next one it would not
* `addWhile_eq_lastFitting` — they agree
* `filter_insertionSort` — some members of a sorted list are those members, sorted
* `lookup_of_nodup` — what is looked up, if no key is there twice
-/

namespace Ao2

/-! ### Searching -/

section

variable (fits : ℕ → Prop) [DecidablePred fits]

/-- Halve what lies between the numbers until only the lower one is left. -/
def lastFitting (low high : ℕ) : ℕ :=
  if low < high then
    let mid := low + (high - low + 1) / 2
    if fits mid then lastFitting mid high else lastFitting low (mid - 1)
  else low
termination_by high - low

variable {fits} {n : ℕ}

/-- **What is found fits**, and the next number does not, unless there is none. -/
theorem lastFitting_spec {low high : ℕ} (hle : low ≤ high) (hlow : fits low) (hn : high ≤ n)
    (hhigh : high = n ∨ ¬ fits (high + 1)) :
    lastFitting fits low high ≤ n ∧ fits (lastFitting fits low high) ∧
      (lastFitting fits low high = n ∨ ¬ fits (lastFitting fits low high + 1)) := by
  fun_induction lastFitting fits low high with
  | case1 low high hlt mid hmid ih =>
    have hmid' : mid ≤ high := by omega
    exact ih hmid' hmid hn hhigh
  | case2 low high hlt mid hmid ih =>
    have hmid' : mid - 1 + 1 = mid := by omega
    exact ih (by omega) hlow (by omega) (.inr (hmid'.symm ▸ hmid))
  | case3 low high hlt =>
    obtain rfl : low = high := Nat.le_antisymm hle (Nat.not_lt.mp hlt)
    exact ⟨hn, hlow, hhigh⟩

end

/-! ### Adding one by one -/

section

variable {α : Type} (fits : List α → Prop) [DecidablePred fits]

/-- Add the members one after the other, up to the first one that does not fit. -/
def addWhile (chosen : List α) : List α → List α
  | [] => chosen
  | a :: rest => if fits (chosen ++ [a]) then addWhile (chosen ++ [a]) rest else chosen

variable {fits}

/-- **What is chosen fits** with every member that was added, and with the next one it does not,
unless there is none. -/
theorem addWhile_spec (chosen rest : List α) : ∃ k ≤ rest.length,
    addWhile fits chosen rest = chosen ++ rest.take k ∧ (k = 0 ∨ fits (chosen ++ rest.take k)) ∧
      (k = rest.length ∨ ¬ fits (chosen ++ rest.take (k + 1))) := by
  induction rest generalizing chosen with
  | nil => exact ⟨0, le_rfl, (List.append_nil _).symm, .inl rfl, .inl rfl⟩
  | cons a rest ih =>
    by_cases ha : fits (chosen ++ [a])
    · obtain ⟨k, hk, heq, hfits, hnext⟩ := ih (chosen ++ [a])
      have hcons : ∀ j, chosen ++ [a] ++ rest.take j = chosen ++ (a :: rest).take (j + 1) :=
        fun j => by
        rw [List.append_assoc, List.take_succ_cons, List.singleton_append]
      rw [hcons] at heq hfits hnext
      refine ⟨k + 1, Nat.succ_le_succ hk, by rw [addWhile, if_pos ha, heq], .inr ?_,
        hnext.imp_left (congrArg Nat.succ)⟩
      rcases hfits with rfl | hfits
      · exact ha
      · exact hfits
    · refine ⟨0, Nat.zero_le _, ?_, .inl rfl, .inr ha⟩
      rw [addWhile, if_neg ha, List.take_zero, List.append_nil]

/-- **The search finds what adding one by one chooses**, if what fits still fits without its last
members. -/
theorem addWhile_eq_lastFitting {chosen rest : List α}
    (hmono : ∀ j k, j ≤ k → k ≤ rest.length → fits (chosen ++ rest.take k) →
      fits (chosen ++ rest.take j)) :
    addWhile fits chosen rest = chosen ++
      rest.take (if fits chosen then
        lastFitting (fun k => fits (chosen ++ rest.take k)) 0 rest.length else 0) := by
  obtain ⟨k, hk, heq, hfits, hnext⟩ := @addWhile_spec _ fits _ chosen rest
  have hzero : fits (chosen ++ rest.take 0) ↔ fits chosen := by rw [List.take_zero, List.append_nil]
  rw [heq]
  by_cases hchosen : fits chosen
  · obtain ⟨hr, hrfits, hrnext⟩ := @lastFitting_spec (fun k => fits (chosen ++ rest.take k)) _ _ 0 _
      (Nat.zero_le rest.length) (hzero.mpr hchosen) le_rfl (.inl rfl)
    rw [if_pos hchosen]
    generalize lastFitting (fun k => fits (chosen ++ rest.take k)) 0 rest.length = r
      at hr hrfits hrnext
    have hkfits : fits (chosen ++ rest.take k) := by
      rcases hfits with rfl | hfits
      · exact hzero.mpr hchosen
      · exact hfits
    rcases lt_trichotomy k r with hlt | rfl | hlt
    · exact absurd (hmono (k + 1) r hlt hr hrfits) (hnext.resolve_left (by omega))
    · rfl
    · exact absurd (hmono (r + 1) k hlt hk hkfits) (hrnext.resolve_left (by omega))
  · rcases hfits with rfl | hfits
    · rw [if_neg hchosen]
    · exact absurd (hzero.mp (hmono 0 k (Nat.zero_le k) hk hfits)) hchosen

end

/-! ### Sorted choices -/

/-- The members of a list whose number is small are the first ones. -/
theorem filter_zipIdx {α : Type} (l : List α) (n k : ℕ) :
    (l.zipIdx n).filter (fun s => s.2 < n + k) = (l.take k).zipIdx n := by
  induction l generalizing n k with
  | nil => rw [List.take_nil, List.zipIdx_nil, List.filter_nil]
  | cons a l ih =>
    cases k with
    | zero =>
      rw [List.take_zero, List.zipIdx_nil, List.filter_eq_nil_iff]
      rintro ⟨b, i⟩ hmem
      have hle := (List.mem_zipIdx hmem).1
      simpa using hle
    | succ k =>
      have hstep :
          (fun s : α × ℕ => decide (s.2 < n + (k + 1))) = fun s => decide (s.2 < n + 1 + k) :=
        funext fun s => by rw [Nat.add_right_comm n 1 k]; rfl
      rw [List.zipIdx_cons, List.filter_cons, if_pos (by simp), List.take_succ_cons,
        List.zipIdx_cons, hstep, ih]

section

variable {α : Type} {r : α → α → Prop} [DecidableRel r]

theorem orderedInsert_of_forall {a : α} {l : List α} (h : ∀ b ∈ l, r a b) :
    l.orderedInsert r a = a :: l := by
  cases l with
  | nil => rfl
  | cons b l => rw [List.orderedInsert_cons, if_pos (h b List.mem_cons_self)]

variable [IsTrans α r]

theorem filter_orderedInsert (p : α → Bool) (a : α) {l : List α} (hl : l.Pairwise r) :
    (l.orderedInsert r a).filter p =
      if p a then (l.filter p).orderedInsert r a else l.filter p := by
  induction l with
  | nil => rw [List.orderedInsert_nil, List.filter_cons, List.filter_nil, List.orderedInsert_nil]
  | cons b l ih =>
    rw [List.pairwise_cons] at hl
    rw [List.orderedInsert_cons]
    by_cases hab : r a b
    · have hfirst : ∀ c ∈ (b :: l).filter p, r a c := fun c hc => by
        rcases List.mem_cons.mp (List.mem_of_mem_filter hc) with rfl | hc
        · exact hab
        · exact IsTrans.trans a b c hab (hl.1 c hc)
      rw [if_pos hab, List.filter_cons, orderedInsert_of_forall hfirst]
    · rw [if_neg hab, List.filter_cons, ih hl.2, List.filter_cons]
      by_cases hb : p b
      · rw [if_pos hb, if_pos hb, List.orderedInsert_cons, if_neg hab]
        split_ifs <;> rfl
      · rw [if_neg hb, if_neg hb]

/-- **Some members of a sorted list** are those members, sorted. -/
theorem filter_insertionSort [Std.Total r] (p : α → Bool) (l : List α) :
    (l.insertionSort r).filter p = (l.filter p).insertionSort r := by
  induction l with
  | nil => rfl
  | cons a l ih =>
    rw [List.insertionSort_cons, filter_orderedInsert p a (List.pairwise_insertionSort r l), ih,
      List.filter_cons]
    split_ifs
    · rw [List.insertionSort_cons]
    · rfl

/-- A list is sorted to the same list in whatever order it is. -/
theorem insertionSort_eq_of_perm [Std.Total r] {l l' : List α} (h : l.Perm l')
    (hanti : ∀ a ∈ l, ∀ b ∈ l, r a b → r b a → a = b) : l.insertionSort r = l'.insertionSort r := by
  have hperm : (l.insertionSort r).Perm (l'.insertionSort r) :=
    ((List.perm_insertionSort r l).trans h).trans (List.perm_insertionSort r l').symm
  refine hperm.eq_of_pairwise (fun a b ha hb => ?_) (List.pairwise_insertionSort r l)
    (List.pairwise_insertionSort r l')
  have hb' := hperm.mem_iff.mpr hb
  exact hanti a ((List.mem_insertionSort r).mp ha) b ((List.mem_insertionSort r).mp hb')

end

/-! ### Values by their keys -/

theorem lookup_map {α β : Type} (f : α → β) (key : String) (members : List (String × α)) :
    (members.map fun m => (m.1, f m.2)).lookup key = (members.lookup key).map f := by
  induction members with
  | nil => rfl
  | cons m members ih =>
    rw [List.map_cons, List.lookup_cons, List.lookup_cons, ih]
    cases key == m.1 <;> rfl

/-- What is looked up after some keys were taken away. -/
theorem lookup_filter_fst {α V : Type} [BEq α] [LawfulBEq α] (f : α → Bool) (l : List (α × V))
    (p : α) :
    (l.filter fun entry => f entry.1).lookup p = if f p then l.lookup p else none := by
  induction l with
  | nil => rw [List.filter_nil, List.lookup_nil, ite_self]
  | cons entry l ih =>
    rw [List.filter_cons, List.lookup_cons]
    by_cases hp : p = entry.1
    · subst hp
      cases hf : f entry.1 with
      | true => rw [if_pos rfl, if_pos rfl, List.lookup_cons, beq_self_eq_true]
      | false => simp [ih, hf]
    · rw [beq_false_of_ne hp, ← ih]
      cases hf : f entry.1 with
      | true => rw [if_pos rfl, List.lookup_cons, beq_false_of_ne hp]
      | false => rw [if_neg Bool.false_ne_true]

/-- A key of the members is looked up with success. -/
theorem exists_lookup {κ α : Type} [BEq κ] [LawfulBEq κ] {key : κ} {members : List (κ × α)}
    (h : key ∈ members.map Prod.fst) : ∃ a, members.lookup key = some a ∧ (key, a) ∈ members := by
  induction members with
  | nil => cases h
  | cons m members ih =>
    rw [List.lookup_cons]
    cases hkey : key == m.1 with
    | true => exact ⟨m.2, rfl, by rw [beq_iff_eq.mp hkey]; exact List.mem_cons_self⟩
    | false =>
      rw [List.map_cons, List.mem_cons] at h
      obtain ⟨a, ha, hmem⟩ := ih (h.resolve_left (beq_eq_false_iff_ne.mp hkey))
      exact ⟨a, ha, List.mem_cons_of_mem _ hmem⟩

theorem lookup_of_nodup {κ α : Type} [BEq κ] [LawfulBEq κ] {key : κ} {a : α}
    {members : List (κ × α)} (hnodup : (members.map Prod.fst).Nodup) (h : (key, a) ∈ members) :
    members.lookup key = some a := by
  obtain ⟨b, hb, hmem⟩ := exists_lookup (List.mem_map_of_mem (f := Prod.fst) h)
  have hsame := List.inj_on_of_nodup_map hnodup hmem h rfl
  rw [hb, (Prod.mk.inj hsame).2]

/-- The members that are looked up by their keys. -/
theorem map_lookup {α : Type} (d : α) {members : List (String × α)}
    (hnodup : (members.map Prod.fst).Nodup) :
    ((members.map Prod.fst).map fun key => (key, (members.lookup key).getD d)) = members := by
  rw [List.map_map]
  refine (List.map_congr_left fun m hm => ?_).trans (List.map_id members)
  rw [Function.comp_apply, lookup_of_nodup hnodup hm]
  rfl

end Ao2
