import Ao2.Git.Changes
import Ao2.Texts.Lines
import Mathlib.Data.List.TakeWhile

/-!
# Names on lines

Names that are reported each on a line of its own. A name with unusual bytes in it stands in quotes,
with escapes for those bytes, so that every name is on one line.

## Main results

* `filledLines_listing` — what is read from the lines, without white space around it
-/

namespace Ao2

namespace Git

/-- A byte that is printed as it is. -/
def isUsual (b : UInt8) : Bool := 32 ≤ b.toNat && b.toNat < 127 && b ≠ 34 && b ≠ 92

def byteChar (b : UInt8) : Char := .ofNat b.toNat

/-- A byte in quotes, by its number. -/
def escapeNumber (n : ℕ) : List Char :=
  let digit := fun k => Char.ofNat (48 + k)
  match n with
  | 7 => ['\\', 'a']
  | 8 => ['\\', 'b']
  | 9 => ['\\', 't']
  | 10 => ['\\', 'n']
  | 11 => ['\\', 'v']
  | 12 => ['\\', 'f']
  | 13 => ['\\', 'r']
  | 34 => ['\\', '"']
  | 92 => ['\\', '\\']
  | n => ['\\', digit (n / 64), digit (n / 8 % 8), digit (n % 8)]

def escapeByte (b : UInt8) : List Char := if isUsual b then [byteChar b] else escapeNumber b.toNat

def printedName (path : Bytes) : List Char :=
  if path.all isUsual then path.map byteChar else '"' :: (path.flatMap escapeByte ++ ['"'])

/-- Names, each on its line. -/
def listing (paths : List Bytes) : List Char := paths.flatMap fun path => printedName path ++ ['\n']

/-! ### Lines -/

theorem byteChar_ne_break {b : UInt8} (h : isUsual b = true) : byteChar b ≠ '\n' := by
  have hb : ∀ n < 127, 32 ≤ n → Char.ofNat n ≠ '\n' := by decide
  rw [isUsual, Bool.and_eq_true, Bool.and_eq_true, Bool.and_eq_true, decide_eq_true_eq,
    decide_eq_true_eq] at h
  exact hb b.toNat h.1.1.2 h.1.1.1

set_option maxRecDepth 8000 in
theorem escapeNumber_no_break : ∀ n < 256, '\n' ∉ escapeNumber n := by decide

theorem printedName_no_break (path : Bytes) : '\n' ∉ printedName path := by
  rw [printedName]
  split
  · rename_i hall
    intro hmem
    obtain ⟨b, hb, heq⟩ := List.mem_map.mp hmem
    exact byteChar_ne_break (List.all_eq_true.mp hall b hb) heq
  · intro hmem
    rcases List.mem_cons.mp hmem with h | h
    · exact absurd h (by decide)
    · rcases List.mem_append.mp h with h | h
      · obtain ⟨b, -, hb⟩ := List.mem_flatMap.mp h
        rw [escapeByte] at hb
        split at hb
        · rename_i husual
          exact byteChar_ne_break husual (List.mem_singleton.mp hb).symm
        · exact escapeNumber_no_break _ b.toNat_lt hb
      · exact absurd h (by decide)

theorem listing_eq (paths : List Bytes) (hne : paths ≠ []) :
    listing paths = ['\n'].intercalate (paths.map printedName) ++ ['\n'] := by
  induction paths with
  | nil => exact absurd rfl hne
  | cons path paths ih =>
    rw [listing, List.flatMap_cons, List.map_cons]
    cases paths with
    | nil => rw [List.map_nil, List.intercalate_singleton, List.flatMap_nil, List.append_nil]
    | cons path' paths =>
      rw [List.map_cons, List.intercalate_cons_cons, ← List.map_cons, List.append_assoc,
        List.append_assoc, List.append_assoc, ← ih (List.cons_ne_nil _ _)]
      rfl

/-- A name as it is read from its line. -/
def readName (path : Bytes) : String := trim (.ofList (printedName path))

theorem filledLines_listing (paths : List Bytes) :
    filledLines (listing paths) = (paths.map readName).filter (· ≠ "") := by
  by_cases hne : paths = []
  · rw [hne]
    rfl
  · rw [listing_eq paths hne, filledLines_concat_break, filledLines_intercalate, List.map_map]
    · rfl
    · intro part hpart
      obtain ⟨path, -, rfl⟩ := List.mem_map.mp hpart
      exact printedName_no_break path

/-! ### White space -/

theorem trim_eq_rdropWhile {text : List Char} (h : ∀ c ∈ text.head?, isWhitespace c = false) :
    (trim (.ofList text)).toList = (text.reverse.dropWhile isWhitespace).reverse := by
  rw [trim, String.toList_ofList, String.toList_ofList, dropWhile_of_head h]

/-- Without white space at its start, a trimmed text begins the text. -/
theorem prefix_trim {text : List Char} (h : ∀ c ∈ text.head?, isWhitespace c = false) :
    (trim (.ofList text)).toList <+: text := by
  rw [trim_eq_rdropWhile h]
  obtain ⟨rest, hrest⟩ := List.dropWhile_suffix isWhitespace (l := text.reverse)
  refine ⟨rest.reverse, ?_⟩
  rw [← List.reverse_append, hrest, List.reverse_reverse]

theorem trim_ne_empty {text : List Char} (hne : text ≠ [])
    (h : ∀ c ∈ text.head?, isWhitespace c = false) : trim (.ofList text) ≠ "" := by
  intro hempty
  have hnil : (text.reverse.dropWhile isWhitespace).reverse = [] := by
    rw [← trim_eq_rdropWhile h, hempty]
    rfl
  rw [List.reverse_eq_nil_iff, List.dropWhile_eq_nil_iff] at hnil
  obtain ⟨c, rest, rfl⟩ := List.exists_cons_of_ne_nil hne
  exact Bool.false_ne_true ((h c rfl).symm.trans (hnil c (by simp)))

end Git

end Ao2
