import Ao2.Policy
import Ao2.Publication.Contract
import Ao2.Texts.Bytes
import Ao2.Texts.Legible

/-!
# Texts of ASCII characters

The bytes of such a text are its characters.

The words of a text are what stands between its white space.

## Main results

* `toList_eq_bytes` — a text whose bytes are ASCII characters
-/

namespace Ao2

variable {text : List Char}

theorem utf8EncodeChar_of_ascii {c : Char} (h : c.toNat < 128) :
    String.utf8EncodeChar c = [.ofNat c.toNat] := by
  have hbyte : (UInt8.ofNat c.toNat).toNat = c.toNat := by
    rw [UInt8.toNat_ofNat']
    omega
  have hencode := @utf8EncodeChar_ofNat (.ofNat c.toNat) (by omega)
  rwa [hbyte, Char.ofNat_toNat] at hencode

theorem toList_utf8Encode (h : ∀ c ∈ text, c.toNat < 128) :
    (String.ofList text).toByteArray.data.toList = text.map fun c => .ofNat c.toNat := by
  rw [String.toByteArray_ofList, List.utf8Encode, List.data_toByteArray, List.toList_toArray]
  induction text with
  | nil => rfl
  | cons c text ih =>
    rw [List.forall_mem_cons] at h
    rw [List.flatMap_cons, utf8EncodeChar_of_ascii h.1, ih h.2]
    rfl

/-- **The bytes of an ASCII text** are its characters. -/
theorem bytes_ofList (h : ∀ c ∈ text, c.toNat < 128) : bytes (.ofList text) = text := by
  rw [bytes, toList_utf8Encode h, List.map_map]
  refine (List.map_congr_left fun c hc => ?_).trans (List.map_id text)
  have hbyte : (UInt8.ofNat c.toNat).toNat = c.toNat := by
    rw [UInt8.toNat_ofNat']
    have := h c hc
    omega
  rw [Function.comp_apply, hbyte, Char.ofNat_toNat, id]

theorem utf8ByteSize_ofList (h : ∀ c ∈ text, c.toNat < 128) :
    (String.ofList text).utf8ByteSize = text.length := by
  have hsize := congrArg List.length (toList_utf8Encode h)
  rw [List.length_map] at hsize
  exact hsize

theorem toNat_lt_of_isDigit {c : Char} (h : c.isDigit = true) : c.toNat < 128 := by
  rw [Char.isDigit, Bool.and_eq_true, decide_eq_true_eq, decide_eq_true_eq] at h
  exact (UInt32.le_iff_toNat_le.mp h.2).trans_lt (by decide)

theorem toNat_lt_of_isLowerHex {c : Char} (h : isLowerHex c = true) : c.toNat < 128 := by
  rw [isLowerHex, Bool.or_eq_true, Bool.and_eq_true, decide_eq_true_eq, decide_eq_true_eq] at h
  rcases h with h | ⟨-, h⟩
  · exact toNat_lt_of_isDigit h
  · exact (UInt32.le_iff_toNat_le.mp h).trans_lt (by decide)

theorem toNat_lt_of_isAlphanum {c : Char} (h : c.isAlphanum = true) : c.toNat < 128 := by
  rw [Char.isAlphanum, Bool.or_eq_true] at h
  rcases h with halpha | hdigit
  · have hbounds : 65 ≤ c.toNat ∧ c.toNat ≤ 90 ∨ 97 ≤ c.toNat ∧ c.toNat ≤ 122 := by
      unfold Char.isAlpha Char.isUpper Char.isLower at halpha
      simpa [UInt32.le_iff_toNat_le] using halpha
    omega
  · exact toNat_lt_of_isDigit hdigit

/-- A character above 127 has a byte above 127. -/
theorem exists_byte {c : Char} (h : 128 ≤ c.toNat) : ∃ b ∈ String.utf8EncodeChar c, 128 ≤ b.toNat := by
  rw [utf8EncodeChar_eq]
  split_ifs
  · omega
  all_goals
    refine ⟨_, List.mem_cons_self, ?_⟩
    rw [UInt8.toNat_ofNat']
    omega

/-- **A text whose bytes are below 128** is its bytes. -/
theorem toList_eq_bytes {value : String} (h : ∀ c ∈ bytes value, c.toNat < 128) :
    value.toList = bytes value := by
  obtain ⟨text, rfl⟩ : ∃ text, value = .ofList text := ⟨_, String.ofList_toList.symm⟩
  have hbytes : bytes (.ofList text) =
      (text.flatMap String.utf8EncodeChar).map fun b => .ofNat b.toNat := by
    rw [bytes, String.toByteArray_ofList, List.utf8Encode, List.data_toByteArray, List.toList_toArray]
  rw [hbytes] at h
  have hchars : ∀ c ∈ text, c.toNat < 128 := by
    intro c hc
    by_contra hge
    obtain ⟨b, hb, hbyte⟩ := exists_byte (Nat.le_of_not_lt hge)
    have hmem := h _ (List.mem_map_of_mem (List.mem_flatMap.mpr ⟨c, hc, hb⟩))
    rw [toNat_ofNat_of_isValidChar (.inl (by have := b.toNat_lt; omega))] at hmem
    omega
  rw [String.toList_ofList, bytes_ofList hchars]

end Ao2

/-! ## Words -/

namespace Ao2

def toAsciiLowercase (s : String) : String := .ofList (s.toList.map Char.toLower)

/-- The letters that are made small are those from `A` to `Z`. -/
theorem toLower_cases (c : Char) :
    c.toLower = c ∨ 65 ≤ c.toNat ∧ c.toNat ≤ 90 ∧ c.toLower.toNat = c.toNat + 32 := by
  unfold Char.toLower
  split
  case isTrue hupper =>
    have hlow : 65 ≤ c.toNat := UInt32.le_iff_toNat_le.mp hupper.1
    have hhigh : c.toNat ≤ 90 := UInt32.le_iff_toNat_le.mp hupper.2
    refine .inr ⟨hlow, hhigh, ?_⟩
    change (c.val + ('a'.val - 'A'.val)).toNat = c.val.toNat + 32
    rw [UInt32.toNat_add, show ('a'.val - 'A'.val).toNat = 32 by decide]
    change c.val.toNat ≤ 90 at hhigh
    omega
  case isFalse => exact .inl rfl

/-- The words of a text. -/
def splitWhitespace (s : String) : List String :=
  ((s.toList.splitOnP isWhitespace).filter (· ≠ [])).map .ofList

end Ao2
