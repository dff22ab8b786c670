import Mathlib.Data.List.Perm.Basic
import Mathlib.Data.List.TakeWhile

/-!
# Texts that are scanned from left to right

A rule looks at a place of a text, with the letter before it, and finds something there or nothing. What
it finds takes up some letters, and the scan goes on after these; where it finds nothing the letter
stands for itself.

A text is cut at a character. What a word does on both sides of the cut is known from where that
character is in the word.

## Main results

* `render_of_found_eq_nil` — a scan that finds nothing reads the text as it is
* `found_eq_nil_congr` — two rules that find something at the same places find nothing in the same texts
* `occurrences_append_cons` — a cut at a character that is not in the word
* `suffix_or_infix` — a cut at a character that is in the word
-/

namespace Ao2

namespace Scan

variable {α β γ : Type}

/-- What is found at the start of a text after a letter, with the number of letters it takes up. -/
abbrev Rule (α β : Type) := Option α → List α → Option (β × ℕ)

/-- The letters of a text that stand for themselves and what a rule finds between them. The letters that
are still to be skipped belong to what was found last. -/
def pieces (rule : Rule α β) : Option α → ℕ → List α → List (α ⊕ β)
  | _, _, [] => []
  | _, skip + 1, a :: text => pieces rule (some a) skip text
  | prev, 0, a :: text =>
    match rule prev (a :: text) with
    | some (b, length) => .inr b :: pieces rule (some a) (length - 1) text
    | none => .inl a :: pieces rule (some a) 0 text

/-- What a scan finds. -/
def found (ps : List (α ⊕ β)) : List β := ps.filterMap Sum.getRight?

/-- The text that a scan puts in place of another. -/
def render (show' : β → List α) (ps : List (α ⊕ β)) : List α :=
  ps.flatMap (Sum.elim (fun a => [a]) show')

variable {rule : Rule α β} {show' : β → List α}

@[simp] theorem pieces_nil (prev : Option α) (skip : ℕ) : pieces rule prev skip [] = [] := by
  cases skip <;> rfl

@[simp] theorem pieces_skip (prev : Option α) (skip : ℕ) (a : α) (text : List α) :
    pieces rule prev (skip + 1) (a :: text) = pieces rule (some a) skip text := rfl

theorem pieces_some {prev : Option α} {a : α} {text : List α} {b : β} {length : ℕ}
    (h : rule prev (a :: text) = some (b, length)) :
    pieces rule prev 0 (a :: text) = .inr b :: pieces rule (some a) (length - 1) text := by
  rw [pieces, h]

theorem pieces_none {prev : Option α} {a : α} {text : List α} (h : rule prev (a :: text) = none) :
    pieces rule prev 0 (a :: text) = .inl a :: pieces rule (some a) 0 text := by
  rw [pieces, h]

@[simp] theorem found_nil : found ([] : List (α ⊕ β)) = [] := rfl

@[simp] theorem found_inl (a : α) (ps : List (α ⊕ β)) : found (.inl a :: ps) = found ps := rfl

@[simp] theorem found_inr (b : β) (ps : List (α ⊕ β)) :
    found (.inr b :: ps) = b :: found ps := rfl

@[simp] theorem render_nil : render show' [] = [] := rfl

@[simp] theorem render_inl (a : α) (ps : List (α ⊕ β)) :
    render show' (.inl a :: ps) = a :: render show' ps := rfl

@[simp] theorem render_inr (b : β) (ps : List (α ⊕ β)) :
    render show' (.inr b :: ps) = show' b ++ render show' ps := rfl

/-- **A scan that finds nothing** reads the text as it is. -/
theorem render_of_found_eq_nil (prev : Option α) (text : List α)
    (h : found (pieces rule prev 0 text) = []) : render show' (pieces rule prev 0 text) = text := by
  induction text generalizing prev with
  | nil => rw [pieces_nil, render_nil]
  | cons a text ih =>
    cases hrule : rule prev (a :: text) with
    | some b =>
      rw [pieces_some hrule, found_inr] at h
      cases h
    | none =>
      rw [pieces_none hrule, found_inl] at h
      rw [pieces_none hrule, render_inl, ih (some a) h]

/-- What is found is found by the rule at some place. -/
theorem exists_rule_of_mem_found {prev : Option α} {skip : ℕ} {text : List α} {b : β}
    (h : b ∈ found (pieces rule prev skip text)) :
    ∃ prev' text' length, rule prev' text' = some (b, length) := by
  induction text generalizing prev skip with
  | nil =>
    rw [pieces_nil] at h
    cases h
  | cons a text ih =>
    cases skip with
    | succ skip => exact ih h
    | zero =>
      cases hrule : rule prev (a :: text) with
      | none =>
        rw [pieces_none hrule] at h
        exact ih h
      | some there =>
        rw [pieces_some hrule] at h
        rcases List.mem_cons.mp h with rfl | h
        · exact ⟨prev, a :: text, there.2, hrule⟩
        · exact ih h

/-- Nothing is found in a text where the rule finds nothing at any place. -/
theorem found_eq_nil_iff (prev : Option α) (text : List α) :
    found (pieces rule prev 0 text) = [] ↔
      ∀ before a after, text = before ++ a :: after →
        rule (before.getLast?.or prev) (a :: after) = none := by
  induction text generalizing prev with
  | nil => simp
  | cons c text ih =>
    constructor
    · intro h before a after heq
      cases hrule : rule prev (c :: text) with
      | some b =>
        rw [pieces_some hrule, found_inr] at h
        cases h
      | none =>
        rw [pieces_none hrule, found_inl, ih] at h
        cases before with
        | nil =>
          rw [List.nil_append] at heq
          rwa [← heq, List.getLast?_nil, Option.none_or]
        | cons d before =>
          obtain ⟨rfl, hrest⟩ := List.cons.inj heq
          have hlater := h before a after hrest
          rw [List.getLast?_cons]
          cases hlast : before.getLast? with
          | none => rwa [hlast] at hlater
          | some e => rwa [hlast] at hlater
    · intro h
      have hrule : rule prev (c :: text) = none := h [] c text rfl
      rw [pieces_none hrule, found_inl, ih]
      intro before a after heq
      have hlater := h (c :: before) a after (by rw [heq, List.cons_append])
      rw [List.getLast?_cons] at hlater
      cases hlast : before.getLast? with
      | none => rwa [hlast] at hlater
      | some e => rwa [hlast] at hlater

/-- Two rules that find something at the same places find nothing in the same texts. -/
theorem found_eq_nil_congr {rule' : Rule α γ} (h : ∀ prev text, rule prev text = none ↔ rule' prev text = none)
    (prev : Option α) (text : List α) :
    found (pieces rule prev 0 text) = [] ↔ found (pieces rule' prev 0 text) = [] := by
  simp only [found_eq_nil_iff, h]

end Scan

end Ao2

/-! ## How often a word occurs -/

namespace Ao2

variable {α : Type} [DecidableEq α] {w a b : List α} {q : α}

/-- How often a word occurs in a text. -/
def occurrences (w text : List α) : ℕ := text.tails.countP (w <+: ·)

theorem occurrences_nil (hne : w ≠ []) : occurrences w [] = 0 := by
  have hnot : ¬ w <+: [] := fun h => hne (List.prefix_nil.mp h)
  change List.countP (fun text => decide (w <+: text)) [[]] = 0
  rw [List.countP_singleton, if_neg (by rwa [decide_eq_true_eq])]

theorem occurrences_cons (c : α) (text : List α) :
    occurrences w (c :: text) = occurrences w text + if w <+: c :: text then 1 else 0 := by
  have hcons : occurrences w (c :: text) =
      occurrences w text + if decide (w <+: c :: text) = true then 1 else 0 := List.countP_cons
  rw [hcons]
  simp only [decide_eq_true_eq]

theorem occurrences_eq_zero (hne : w ≠ []) : occurrences w a = 0 ↔ ¬ w <:+: a := by
  induction a with
  | nil =>
    rw [occurrences_nil hne, List.infix_nil]
    exact ⟨fun _ => hne, fun _ => rfl⟩
  | cons c text ih =>
    rw [occurrences_cons, Nat.add_eq_zero_iff, ih, List.infix_cons_iff, not_or, and_comm]
    refine and_congr_left fun _ => ?_
    split_ifs with h
    · exact iff_of_false not_false (not_not_intro h)
    · exact iff_of_true rfl h

omit [DecidableEq α] in
/-- A word without a character begins a text if it begins what is before that character. -/
theorem prefix_append_cons_iff (hq : q ∉ w) : w <+: a ++ q :: b ↔ w <+: a := by
  refine ⟨fun h => ?_, fun h => h.trans (List.prefix_append a _)⟩
  rcases List.prefix_or_prefix_of_prefix h (List.prefix_append a (q :: b)) with hwa | ⟨rest, hrest⟩
  · exact hwa
  · cases rest with
    | nil => simp [← hrest]
    | cons c rest =>
      rw [← hrest, List.prefix_append_right_inj, List.cons_prefix_cons] at h
      rw [← hrest, h.1] at hq
      exact absurd (List.mem_append_right a List.mem_cons_self) hq

omit [DecidableEq α] in
/-- **A word is on one side** of a character that is not in it. -/
theorem infix_append_cons_iff (hne : w ≠ []) (hq : q ∉ w) :
    w <:+: a ++ q :: b ↔ w <:+: a ∨ w <:+: b := by
  constructor
  · rintro ⟨s, t, h⟩
    rcases List.append_eq_append_iff.mp h with ⟨c, rfl, -⟩ | ⟨c, hc, hb⟩
    · exact .inl ⟨s, c, rfl⟩
    · cases c with
      | nil =>
        rw [List.append_nil] at hc
        exact .inl ⟨s, [], by rw [List.append_nil, hc]⟩
      | cons q' c =>
        obtain ⟨rfl, rfl⟩ := List.cons.inj hb
        rcases List.append_eq_append_iff.mp hc with ⟨d, -, rfl⟩ | ⟨d, -, hd⟩
        · exact absurd (List.mem_append_right d List.mem_cons_self) hq
        · cases d with
          | nil =>
            rw [List.nil_append] at hd
            exact absurd (hd ▸ List.mem_cons_self) hq
          | cons q' d =>
            obtain ⟨-, rfl⟩ := List.cons.inj hd
            exact .inr ⟨d, t, rfl⟩
  · rintro (h | h)
    · exact h.trans (List.prefix_append a _).isInfix
    · exact h.trans ((List.suffix_cons q b).trans (List.suffix_append a _)).isInfix

/-- **A cut at a character that is not in the word.** -/
theorem occurrences_append_cons (hne : w ≠ []) (hq : q ∉ w) :
    occurrences w (a ++ q :: b) = occurrences w a + occurrences w b := by
  induction a with
  | nil =>
    have hnot : ¬ w <+: [] ++ q :: b := fun h => hne (List.prefix_nil.mp ((prefix_append_cons_iff hq).mp h))
    rw [List.nil_append] at hnot ⊢
    rw [occurrences_cons, if_neg hnot, occurrences_nil hne, Nat.zero_add, Nat.add_zero]
  | cons c text ih =>
    have hfirst : w <+: c :: (text ++ q :: b) ↔ w <+: c :: text := @prefix_append_cons_iff _ w (c :: text) b q hq
    rw [List.cons_append, occurrences_cons, occurrences_cons, ih]
    simp only [hfirst]
    omega

omit [DecidableEq α] in
/-- **A cut at a character that is in the word**: the word is cut there too, or it is behind. -/
theorem suffix_or_infix {u v : List α} (hu : q ∉ u) (ha : q ∉ a) (h : u ++ q :: v <:+: a ++ q :: b) :
    u <:+ a ∨ u ++ q :: v <:+: b := by
  obtain ⟨s, t, h⟩ := h
  rw [List.append_assoc, List.append_assoc] at h
  rcases List.append_eq_append_iff.mp h with ⟨rest, rfl, hrest⟩ | ⟨rest, rfl, hrest⟩
  · -- the word begins before the cut
    rw [List.cons_append] at hrest
    rcases List.append_eq_append_iff.mp hrest with ⟨d, rfl, hd⟩ | ⟨d, rfl, hd⟩
    · cases d with
      | nil => exact .inl (by rw [List.append_nil]; exact List.suffix_append s u)
      | cons c d =>
        obtain ⟨rfl, -⟩ := List.cons.inj hd
        exact absurd (List.mem_append_right s (List.mem_append_right u List.mem_cons_self)) ha
    · cases d with
      | nil => exact .inl (by rw [List.append_nil]; exact List.suffix_append s rest)
      | cons c d =>
        obtain ⟨rfl, -⟩ := List.cons.inj hd
        exact absurd (List.mem_append_right rest List.mem_cons_self) hu
  · cases rest with
    | nil =>
      rw [List.nil_append, List.cons_append] at hrest
      cases u with
      | nil => exact .inl (List.nil_suffix)
      | cons c u =>
        rw [List.cons_append] at hrest
        exact absurd (List.mem_cons.mpr (.inl (List.cons.inj hrest).1)) hu
    | cons c rest =>
      obtain ⟨-, hb⟩ := List.cons.inj hrest
      refine .inr ⟨rest, t, ?_⟩
      rw [hb, List.append_assoc, List.append_assoc]
      rfl

end Ao2
