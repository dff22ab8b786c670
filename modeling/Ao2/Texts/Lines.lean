import Ao2.Policy
import Ao2.Texts

/-!
# Texts that are read line by line

A file with one JSON value on each line. What is appended to such a file is read after what was in it,
as long as the file ended with a line break.

## Main results

* `lines_append` — what is appended is read after what was there
* `Json.compactText_no_break` — a value is one line
-/

namespace Ao2

/-- The reading of JSON texts. -/
class JsonText where
  /-- The value of a text, if it is a JSON text. -/
  parseJson : String → Option Json

export JsonText (parseJson)

/-! ### Lines -/

/-- A line without the carriage return before its line break. -/
def dropCarriageReturn (line : List Char) : List Char :=
  if line.getLast? = some '\r' then line.dropLast else line

/-- The lines of a text. What follows the last line break is a line if there is anything. -/
def lines (content : List Char) : List (List Char) :=
  let parts := content.splitOn '\n'
  parts.dropLast.map dropCarriageReturn ++ (parts.getLast?.filter (· ≠ [])).toList

/-- A text that ends with a line break is read line by line, and what follows it after that. -/
theorem lines_append {content : List Char} (h : content = [] ∨ content.getLast? = some '\n')
    (added : List Char) : lines (content ++ added) = lines content ++ lines added := by
  rcases h with rfl | h
  · rfl
  · obtain ⟨init, rfl⟩ := List.getLast?_eq_some_iff.mp h
    have hne : added.splitOn '\n' ≠ [] := List.splitOn_ne_nil _ _
    rw [List.append_assoc, List.singleton_append]
    simp only [lines]
    rw [List.splitOn_append_cons_self, List.splitOn_append_cons_self, List.splitOn_nil,
      List.dropLast_append_of_ne_nil hne, List.dropLast_concat, List.getLast?_concat,
      List.getLast?_append_of_ne_nil _ hne, List.map_append]
    simp

theorem lines_of_no_break {line : List Char} (h : '\n' ∉ line) :
    lines line = if line = [] then [] else [line] := by
  rw [lines, List.splitOn_eq_singleton h]
  by_cases hline : line = [] <;> simp [hline]

theorem lines_of_break {line : List Char} (h : '\n' ∉ line) (hr : line.getLast? ≠ some '\r') :
    lines (line ++ ['\n']) = [line] := by
  rw [lines, List.splitOn_append_cons_self, List.splitOn_eq_singleton h]
  simp [dropCarriageReturn, hr]

theorem hexDigit_ne_break : ∀ n < 16, hexDigit n ≠ '\n' := by decide

theorem escapeChar_no_break (c : Char) : '\n' ∉ escapeChar c := by
  have hlow (n : ℕ) (hn : n < 32) : '\n' ≠ hexDigit (n / 16) ∧ '\n' ≠ hexDigit (n % 16) :=
    ⟨(hexDigit_ne_break _ (by omega)).symm, (hexDigit_ne_break _ (by omega)).symm⟩
  unfold escapeChar
  split_ifs with h1 h2 h3 h4 h5 h6 h7 h8
  all_goals simp
  · exact hlow _ h8
  · exact Ne.symm h3

theorem quoteJson_no_break (s : String) : '\n' ∉ quoteJson s := by
  simp [quoteJson, escapeChar_no_break]

/-! ### Lines that are trimmed -/

/-- A text without white space at its ends. -/
structure Trimmed (line : List Char) : Prop where
  head : ∀ c ∈ line.head?, isWhitespace c = false
  last : ∀ c ∈ line.getLast?, isWhitespace c = false

theorem dropWhile_of_head {line : List Char} (h : ∀ c ∈ line.head?, isWhitespace c = false) :
    line.dropWhile isWhitespace = line := by
  cases line with
  | nil => rfl
  | cons c line => rw [List.dropWhile_cons, h c rfl, if_neg (by decide)]

theorem trim_of_trimmed {line : List Char} (h : Trimmed line) : trim (.ofList line) = .ofList line := by
  have hlast : ∀ c ∈ line.reverse.head?, isWhitespace c = false := by
    rw [List.head?_reverse]
    exact h.last
  rw [trim, String.toList_ofList, dropWhile_of_head h.head, dropWhile_of_head hlast,
    List.reverse_reverse]

theorem trim_concat {line : List Char} {c : Char} (hc : isWhitespace c = true) :
    trim (.ofList (line ++ [c])) = trim (.ofList line) := by
  simp only [trim, String.toList_ofList]
  rw [List.dropWhile_append]
  cases hdrop : line.dropWhile isWhitespace with
  | nil => simp [hc]
  | cons d rest => simp [hc]

/-- The carriage return is white space. -/
theorem trim_dropCarriageReturn (line : List Char) :
    trim (.ofList (dropCarriageReturn line)) = trim (.ofList line) := by
  rw [dropCarriageReturn]
  split_ifs with hlast
  · obtain ⟨init, rfl⟩ := List.getLast?_eq_some_iff.mp hlast
    rw [List.dropLast_concat, trim_concat (by decide)]
  · rfl

/-- The lines of a text that are not blank, trimmed. -/
def filledLines (content : List Char) : List String :=
  ((lines content).map fun line => trim (.ofList line)).filter (· ≠ "")

/-- **A line break ends a line** and begins none. -/
theorem filledLines_concat_break (content : List Char) :
    filledLines (content ++ ['\n']) = filledLines content := by
  have hne : content.splitOn '\n' ≠ [] := List.splitOn_ne_nil _ _
  obtain ⟨init, last, hparts⟩ := List.eq_nil_or_concat (content.splitOn '\n') |>.resolve_left hne
  rw [List.concat_eq_append] at hparts
  have hafter : lines (content ++ ['\n']) = (init ++ [last]).map dropCarriageReturn := by
    rw [lines, List.splitOn_append_cons_self, hparts, List.splitOn_nil]
    simp
  have hbefore : lines content = init.map dropCarriageReturn ++ if last = [] then [] else [last] := by
    rw [lines, hparts]
    by_cases hlast : last = [] <;> simp [hlast]
  rw [filledLines, filledLines, hafter, hbefore, List.map_append, List.map_append, List.map_append, List.filter_append,
    List.filter_append, List.append_cancel_left_eq]
  by_cases hlast : last = []
  · subst hlast
    decide
  · rw [if_neg hlast]
    simp [trim_dropCarriageReturn]

/-- A part of a text that is split has none of the characters that it is split at. -/
theorem not_mem_of_mem_splitOn {b : Char} {content part : List Char} (h : part ∈ content.splitOn b) :
    b ∉ part := by
  induction content generalizing part with
  | nil =>
    rw [List.splitOn_nil, List.mem_singleton] at h
    rw [h]
    exact List.not_mem_nil
  | cons c content ih =>
    rw [List.splitOn_cons_eq_if_modifyHead] at h
    split_ifs at h with hc
    · rcases List.mem_cons.mp h with rfl | h
      · exact List.not_mem_nil
      · exact ih h
    · obtain ⟨first, rest, hparts⟩ := List.exists_cons_of_ne_nil (List.splitOn_ne_nil b content)
      rw [hparts, List.modifyHead_cons] at h
      rw [hparts] at ih
      rcases List.mem_cons.mp h with rfl | h
      · rw [List.mem_cons, not_or]
        exact ⟨fun heq => hc (beq_iff_eq.mpr heq.symm), ih (List.mem_cons_self ..)⟩
      · exact ih (List.mem_cons_of_mem first h)

theorem not_mem_of_mem_lines {content line : List Char} (h : line ∈ lines content) : '\n' ∉ line := by
  rcases List.mem_append.mp h with h | h
  · obtain ⟨part, hpart, rfl⟩ := List.mem_map.mp h
    have hfree := not_mem_of_mem_splitOn (List.mem_of_mem_dropLast hpart)
    rw [dropCarriageReturn]
    split_ifs
    · exact fun hmem => hfree (List.mem_of_mem_dropLast hmem)
    · exact hfree
  · rw [Option.mem_toList, Option.filter_eq_some_iff] at h
    exact not_mem_of_mem_splitOn (List.mem_of_getLast? h.1)

/-- The lines of a text that is put together of lines. -/
theorem lines_intercalate {init : List (List Char)} {last : List Char}
    (h : ∀ part ∈ init ++ [last], '\n' ∉ part) :
    lines (['\n'].intercalate (init ++ [last])) =
      init.map dropCarriageReturn ++ if last = [] then [] else [last] := by
  rw [lines, List.splitOn_intercalate _ h (by simp), List.dropLast_concat, List.getLast?_concat]
  by_cases hlast : last = [] <;> simp [hlast]

/-- The lines of such a text that are not blank, trimmed. -/
theorem filledLines_intercalate {parts : List (List Char)} (h : ∀ part ∈ parts, '\n' ∉ part) :
    filledLines (['\n'].intercalate parts) =
      (parts.map fun line => trim (.ofList line)).filter (· ≠ "") := by
  rcases List.eq_nil_or_concat parts with rfl | ⟨init, last, rfl⟩
  · rfl
  · rw [List.concat_eq_append] at h ⊢
    have htrim : ((fun line => trim (.ofList line)) ∘ dropCarriageReturn) =
        fun line => trim (.ofList line) := funext trim_dropCarriageReturn
    rw [filledLines, lines_intercalate h, List.map_append, List.map_append, List.map_map,
      List.filter_append, List.filter_append, htrim, List.append_cancel_left_eq]
    by_cases hlast : last = []
    · subst hlast
      rfl
    · rw [if_neg hlast]

/-! ### Values on a line -/

/-- The digits of a number, with its sign. -/
theorem toList_toString_int (n : ℤ) : ∃ digits : List Char, digits ≠ [] ∧
    (∀ c ∈ digits, c.isDigit = true) ∧
    ((toString n).toList = digits ∨ (toString n).toList = '-' :: digits) := by
  have hdigits (m : ℕ) : ∀ c ∈ (toString m).toList, c.isDigit = true := by
    intro c hc
    rw [Nat.toString_eq_repr, Nat.toList_repr] at hc
    exact Nat.isDigit_of_mem_toDigits (by decide) (by decide) hc
  have hne (m : ℕ) : (toString m).toList ≠ [] := by
    rw [Nat.toString_eq_repr, Nat.toList_repr]
    exact Nat.toDigits_ne_nil
  cases n with
  | ofNat m => exact ⟨_, hne m, hdigits m, .inl rfl⟩
  | negSucc m =>
    refine ⟨_, hne (m + 1), hdigits (m + 1), .inr ?_⟩
    change ("-" ++ toString (m + 1)).toList = _
    rw [String.toList_append]
    rfl

namespace Json

mutual

/-- **A value is written on one line.** -/
theorem compactText_no_break : (v : Json) → '\n' ∉ v.compactText
  | .null => by decide
  | .bool true => by decide
  | .bool false => by decide
  | .num n => by
    obtain ⟨digits, -, hdigits, hn | hn⟩ := toList_toString_int n
    · rw [compactText, hn]
      exact fun h => absurd (hdigits _ h) (by decide)
    · rw [compactText, hn]
      intro h
      rcases List.mem_cons.mp h with h | h
      · exact absurd h (by decide)
      · exact absurd (hdigits _ h) (by decide)
  | .str s => quoteJson_no_break s
  | .arr items => by simp [compactText, compactItems_no_break items]
  | .obj members => by simp [compactText, compactMembers_no_break members]

theorem compactItems_no_break : (items : List Json) → '\n' ∉ compactItems items
  | [] => by decide
  | [item] => by simp [compactItems, compactText_no_break item]
  | item :: item' :: items => by
    simp [compactItems, compactText_no_break item, compactItems_no_break (item' :: items)]

theorem compactMembers_no_break : (members : List (String × Json)) → '\n' ∉ compactMembers members
  | [] => by decide
  | [(key, v)] => by simp [compactMembers, quoteJson_no_break, compactText_no_break v]
  | (key, v) :: member :: members => by
    simp [compactMembers, quoteJson_no_break, compactText_no_break v,
      compactMembers_no_break (member :: members)]

end

theorem compactItems_getLast : (items : List Json) → (compactItems items).getLast? = some ']'
  | [] => rfl
  | [item] => by rw [compactItems, List.getLast?_concat]
  | item :: item' :: items => by
    rw [compactItems, List.getLast?_append, List.getLast?_cons, compactItems_getLast (item' :: items)]
    · rfl
    · exact List.cons_ne_nil _ _

theorem compactMembers_getLast :
    (members : List (String × Json)) → (compactMembers members).getLast? = some '}'
  | [] => rfl
  | [(key, v)] => by
    rw [compactMembers, ← List.cons_append, ← List.append_assoc, List.getLast?_concat]
  | (key, v) :: member :: members => by
    rw [compactMembers, List.getLast?_append, List.getLast?_cons, List.getLast?_append,
      List.getLast?_cons, compactMembers_getLast (member :: members)]
    · rfl
    · exact List.cons_ne_nil _ _

theorem isWhitespace_of_isDigit {c : Char} (h : c.isDigit = true) : isWhitespace c = false := by
  have hbounds : 48 ≤ c.toNat ∧ c.toNat ≤ 57 := by
    simpa [Char.isDigit, UInt32.le_iff_toNat_le] using h
  simp [isWhitespace]
  omega

theorem trimmed_concat {c d : Char} {line : List Char} (hc : isWhitespace c = false)
    (hd : isWhitespace d = false) (hlast : line.getLast? = some d) : Trimmed (c :: line) := by
  refine ⟨fun x hx => ?_, fun x hx => ?_⟩
  · rw [← Option.some.inj hx]
    exact hc
  · rw [List.getLast?_cons, hlast] at hx
    rw [← Option.some.inj hx]
    exact hd

theorem trimmed_quoteJson (s : String) : Trimmed (quoteJson s) :=
  trimmed_concat (d := '"') (by decide) (by decide) List.getLast?_concat

theorem trimmed_toString_int (n : ℤ) : Trimmed (toString n).toList := by
  obtain ⟨digits, hne, hdigits, hn⟩ := toList_toString_int n
  have hlast := List.getLast?_eq_some_getLast hne
  have hlastDigit := isWhitespace_of_isDigit (hdigits _ (List.getLast_mem hne))
  rcases hn with hn | hn
  · rw [hn]
    refine ⟨fun c hc => isWhitespace_of_isDigit (hdigits c (List.mem_of_mem_head? hc)), fun c hc => ?_⟩
    exact isWhitespace_of_isDigit (hdigits c (List.mem_of_mem_getLast? hc))
  · rw [hn]
    exact trimmed_concat (by decide) hlastDigit hlast

/-- **A value begins and ends** with a character that is no white space. -/
theorem trimmed_compactText (v : Json) : Trimmed v.compactText := by
  cases v with
  | null => exact trimmed_concat (d := 'l') (by decide) (by decide) rfl
  | bool b => cases b <;> exact trimmed_concat (d := 'e') (by decide) (by decide) rfl
  | num n => exact trimmed_toString_int n
  | str s => exact trimmed_quoteJson s
  | arr items => exact trimmed_concat (by decide) (by decide) (compactItems_getLast items)
  | obj members => exact trimmed_concat (by decide) (by decide) (compactMembers_getLast members)

theorem compactText_ne_nil (v : Json) : v.compactText ≠ [] := by
  cases v with
  | null => decide
  | bool b => cases b <;> decide
  | num n =>
    obtain ⟨digits, hne, -, hn | hn⟩ := toList_toString_int n
    · rw [compactText, hn]
      exact hne
    · rw [compactText, hn]
      exact List.cons_ne_nil _ _
  | str s => exact List.cons_ne_nil _ _
  | arr items => exact List.cons_ne_nil _ _
  | obj members => exact List.cons_ne_nil _ _

/-- **A value that is appended** where a line starts is a line of its own. -/
theorem filledLines_append_compactText {content : List Char}
    (h : content = [] ∨ content.getLast? = some '\n') (v : Json) :
    filledLines (content ++ v.compactText) = filledLines content ++ [v.compact] := by
  have hne : v.compact ≠ "" := by
    rw [ne_eq, compact, ← String.toList_inj, String.toList_ofList]
    exact v.compactText_ne_nil
  rw [filledLines, lines_append h, lines_of_no_break v.compactText_no_break,
    if_neg v.compactText_ne_nil, List.map_append, List.filter_append, List.map_singleton,
    trim_of_trimmed v.trimmed_compactText, List.filter_singleton]
  change _ ++ (bif decide (v.compact ≠ "") then [v.compact] else []) = _
  rw [decide_eq_true hne]
  rfl

end Json

end Ao2
