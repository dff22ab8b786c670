import Mathlib.Data.List.Infix

/-!
# Texts that are cut at a marker

A text is cut at the first place where a marker stands. The markers here are lines: a text that is put
together of lines is cut at the first line that is the marker, other than the first and the last line
of the text, which have a line break on one side only.

## Main results

* `splitOnce_intercalate` — the cut of a text that is put together of lines
-/

namespace Ao2

variable {α : Type} [DecidableEq α]

/-- What is before and after the first occurrence of a marker. -/
def splitOnce (marker : List α) : List α → Option (List α × List α)
  | [] => if marker = [] then some ([], []) else none
  | a :: text =>
    if marker <+: a :: text then some ([], (a :: text).drop marker.length)
    else (splitOnce marker text).map fun parts => (a :: parts.1, parts.2)

variable {b : α} {line marker text : List α}

omit [DecidableEq α] in
theorem intercalate_cons {lines : List (List α)} (h : lines ≠ []) :
    [b].intercalate (line :: lines) = line ++ b :: [b].intercalate lines := by
  rw [List.intercalate_cons_of_ne_nil h, List.append_assoc, List.singleton_append]

omit [DecidableEq α] in
theorem intercalate_append {lines lines' : List (List α)} (h : lines ≠ []) (h' : lines' ≠ []) :
    [b].intercalate (lines ++ lines') = [b].intercalate lines ++ b :: [b].intercalate lines' := by
  induction lines with
  | nil => exact absurd rfl h
  | cons line lines ih =>
    cases lines with
    | nil =>
      rw [List.singleton_append, intercalate_cons h', List.intercalate_singleton]
    | cons line' lines =>
      have hrest := ih (List.cons_ne_nil line' lines)
      rw [intercalate_cons (List.cons_ne_nil line' lines), List.append_assoc, @List.cons_append _ b, ← hrest]
      exact intercalate_cons (List.cons_ne_nil line' (lines ++ lines'))

/-- No marker that begins with a line break begins within a line. -/
theorem splitOnce_append (h : b ∉ line) :
    splitOnce (b :: marker) (line ++ text) =
      (splitOnce (b :: marker) text).map fun parts => (line ++ parts.1, parts.2) := by
  induction line with
  | nil => simp
  | cons a line ih =>
    rw [List.mem_cons, not_or] at h
    have hnot : ¬ b :: marker <+: a :: (line ++ text) := by
      intro hpre
      obtain ⟨rest, hrest⟩ := hpre
      exact h.1 (List.cons.inj hrest).1
    rw [List.cons_append, splitOnce, if_neg hnot, ih h.2, Option.map_map]
    rfl

/-- A line with a break after it begins a text of lines if and only if it is the first line. -/
theorem concat_isPrefix_intercalate {line' : List α} {lines : List (List α)} (h : b ∉ line)
    (h' : b ∉ line') :
    line ++ [b] <+: [b].intercalate (line' :: lines) ↔ line = line' ∧ lines ≠ [] := by
  constructor
  · rintro ⟨rest, hrest⟩
    rw [List.append_assoc, List.singleton_append] at hrest
    cases lines with
    | nil =>
      rw [List.intercalate_singleton] at hrest
      refine absurd (?_ : b ∈ line') h'
      rw [← hrest]
      simp
    | cons line'' lines =>
      rw [intercalate_cons (List.cons_ne_nil line'' lines)] at hrest
      refine ⟨?_, List.cons_ne_nil _ _⟩
      have htake := congrArg (List.takeWhile (· ≠ b)) hrest
      have hfree {l rest : List α} (hl : b ∉ l) : (l ++ b :: rest).takeWhile (· ≠ b) = l := by
        rw [List.takeWhile_append_of_pos fun a ha => by
          simpa using fun hab : a = b => hl (hab ▸ ha)]
        simp
      rwa [hfree h, hfree h'] at htake
  · rintro ⟨rfl, hlines⟩
    rw [intercalate_cons hlines]
    exact ⟨[b].intercalate lines, by rw [List.append_assoc, List.singleton_append]⟩

/-- **The cut of a text of lines**: at the first line that is the marker, where there is a line before
it and one after it. -/
theorem splitOnce_intercalate {before after : List (List α)} (hbefore : ∀ l ∈ before, b ∉ l)
    (hline : b ∉ line) (hne : before ≠ []) (hne' : after ≠ []) (hfirst : line ∉ before.tail) :
    splitOnce (b :: (line ++ [b])) ([b].intercalate (before ++ line :: after)) =
      some ([b].intercalate before, [b].intercalate after) := by
  induction before with
  | nil => exact absurd rfl hne
  | cons first before ih =>
    have hfree := hbefore first (List.mem_cons_self ..)
    rw [List.cons_append, intercalate_cons (by simp), splitOnce_append hfree, splitOnce]
    cases before with
    | nil =>
      have hhere : b :: (line ++ [b]) <+: b :: [b].intercalate (line :: after) :=
        List.prefix_cons_inj b |>.mpr ((concat_isPrefix_intercalate hline hline).mpr ⟨rfl, hne'⟩)
      rw [List.nil_append, if_pos hhere, intercalate_cons hne']
      simp
    | cons second before =>
      have hsecond := hbefore second (by simp)
      have hnot : ¬ b :: (line ++ [b]) <+: b :: [b].intercalate (second :: (before ++ line :: after)) := by
        rw [List.prefix_cons_inj, concat_isPrefix_intercalate hline hsecond]
        rintro ⟨rfl, -⟩
        exact hfirst (List.mem_cons_self ..)
      have hrest := ih (fun l hl => hbefore l (List.mem_cons_of_mem first hl)) (by simp)
        fun hmem => hfirst (List.mem_cons_of_mem second hmem)
      rw [List.cons_append] at hrest ⊢
      rw [if_neg hnot, hrest]
      rfl

/-- A text is cut at a marker in it or at one before. -/
theorem exists_splitOnce (before after : List α) :
    ∃ x y, splitOnce marker (before ++ (marker ++ after)) = some (x, y ++ after) := by
  induction before with
  | nil =>
    cases htext : marker ++ after with
    | nil =>
      obtain ⟨rfl, rfl⟩ := List.append_eq_nil_iff.mp htext
      exact ⟨[], [], rfl⟩
    | cons a text =>
      refine ⟨[], [], ?_⟩
      rw [List.nil_append, splitOnce, ← htext, if_pos (List.prefix_append _ _), List.drop_left]
      rfl
  | cons a before ih =>
    rw [List.cons_append, splitOnce]
    split_ifs with hhere
    · refine ⟨[], (a :: (before ++ marker)).drop marker.length, ?_⟩
      rw [← List.append_assoc, ← List.cons_append, List.drop_append_of_le_length (by simp; omega)]
    · obtain ⟨x, y, hxy⟩ := ih
      exact ⟨a :: x, y, by rw [hxy]; rfl⟩

/-- A text that is cut is what is before, the marker and what is after. -/
theorem eq_of_splitOnce {before after : List α} (h : splitOnce marker text = some (before, after)) :
    text = before ++ (marker ++ after) := by
  induction text generalizing before with
  | nil =>
    rw [splitOnce] at h
    split_ifs at h with hmarker
    cases h
    rw [hmarker]
    rfl
  | cons a text ih =>
    rw [splitOnce] at h
    split_ifs at h with hhere
    · cases h
      exact (List.prefix_append_drop hhere)
    · obtain ⟨parts, hrest, hparts⟩ := Option.map_eq_some_iff.mp h
      obtain ⟨rfl, rfl⟩ := Prod.mk.inj hparts
      rw [ih hrest]
      rfl

theorem splitOnce_eq_none_iff : splitOnce marker text = none ↔ ¬ marker <:+: text := by
  constructor
  · rintro h ⟨before, after, rfl⟩
    obtain ⟨x, y, hxy⟩ := @exists_splitOnce _ _ marker before after
    rw [List.append_assoc, hxy] at h
    cases h
  · intro h
    by_contra hsome
    obtain ⟨parts, hparts⟩ := Option.ne_none_iff_exists'.mp hsome
    exact h ⟨parts.1, parts.2, by rw [eq_of_splitOnce hparts, List.append_assoc]⟩

/-- **A text is cut at a letter** where the letter stands first. -/
theorem splitOnce_singleton_iff {before after : List α} :
    splitOnce [b] text = some (before, after) ↔ text = before ++ b :: after ∧ b ∉ before := by
  constructor
  · intro h
    refine ⟨eq_of_splitOnce h, ?_⟩
    induction text generalizing before with
    | nil =>
      rw [splitOnce, if_neg (List.cons_ne_nil b [])] at h
      cases h
    | cons a text ih =>
      rw [splitOnce] at h
      split_ifs at h with hhere
      · cases h
        exact List.not_mem_nil
      · obtain ⟨parts, hrest, hparts⟩ := Option.map_eq_some_iff.mp h
        obtain ⟨rfl, rfl⟩ := Prod.mk.inj hparts
        rw [List.mem_cons, not_or]
        refine ⟨fun hab => hhere ?_, ih hrest⟩
        rw [hab]
        exact (List.prefix_cons_inj a).mpr List.nil_prefix
  · rintro ⟨rfl, hfree⟩
    rw [splitOnce_append hfree, splitOnce, if_pos ((List.prefix_cons_inj b).mpr List.nil_prefix)]
    simp

/-- The part of a list before the first place of a member is known. -/
theorem exists_takeWhile_append {x : α} (l tail : List α) :
    ∃ after : List α, tail <:+ after ∧ l ++ x :: tail = l.takeWhile (· ≠ x) ++ x :: after := by
  induction l with
  | nil => exact ⟨tail, List.suffix_refl tail, rfl⟩
  | cons a l ih =>
    by_cases ha : a = x
    · subst ha
      exact ⟨l ++ a :: tail, (List.suffix_cons a tail).trans (List.suffix_append l _), by simp⟩
    · obtain ⟨after, hafter, heq⟩ := ih
      refine ⟨after, hafter, ?_⟩
      rw [List.cons_append, heq, List.takeWhile_cons_of_pos (by simpa using ha), List.cons_append]

/-- What is before the first place of a member is free of it. -/
theorem not_mem_takeWhile (x : α) (l : List α) : x ∉ l.takeWhile (· ≠ x) := by
  intro hmem
  have hne := List.all_eq_true.mp List.all_takeWhile _ hmem
  simp at hne

end Ao2
