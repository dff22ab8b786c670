import Ao2.Json.Printed
import Ao2.Texts
import Ao2.Texts.Bytes
import Mathlib.Algebra.Ring.Nat
import Mathlib.Data.List.Forall2

/-!
# Indented texts

The text of a value on several lines, two spaces deeper for each level. How many bytes it takes is
bounded by the texts in the value.

## Main results

* `weightMembers_le` — a bound for an object from bounds for its values
-/

namespace Ao2

namespace Json

/-! ### The text -/

mutual

/-- The indented text of a value, at some depth. -/
def prettyText (indent : List Char) : Json → List Char
  | .null => "null".toList
  | .bool true => "true".toList
  | .bool false => "false".toList
  | .num n => (toString n).toList
  | .str s => quoteJson s
  | .arr [] => "[]".toList
  | .arr (item :: items) => '[' :: (prettyItems (' ' :: ' ' :: indent) (item :: items) ++ '\n' :: indent ++ [']'])
  | .obj [] => "\x7b\x7d".toList
  | .obj (m :: members) =>
    '{' :: (prettyMembers (' ' :: ' ' :: indent) (m :: members) ++ '\n' :: indent ++ ['}'])

def prettyItems (indent : List Char) : List Json → List Char
  | [] => []
  | [item] => '\n' :: indent ++ prettyText indent item
  | item :: items => '\n' :: indent ++ prettyText indent item ++ ',' :: prettyItems indent items

def prettyMembers (indent : List Char) : List (String × Json) → List Char
  | [] => []
  | [(key, v)] => '\n' :: indent ++ quoteJson key ++ ':' :: ' ' :: prettyText indent v
  | (key, v) :: members =>
    '\n' :: indent ++ quoteJson key ++ ':' :: ' ' :: prettyText indent v ++ ',' :: prettyMembers indent members

end

/-! ### Its length -/

/-- How many bytes a text takes. -/
def byteLength (text : List Char) : ℕ := (utf8Bytes text).length

theorem byteLength_append (a b : List Char) : byteLength (a ++ b) = byteLength a + byteLength b := by
  rw [byteLength, utf8Bytes, List.flatMap_append, List.length_append]
  rfl

theorem byteLength_cons (c : Char) (text : List Char) :
    byteLength (c :: text) = c.utf8Size + byteLength text := by
  rw [byteLength, utf8Bytes, List.flatMap_cons, List.length_append, String.length_utf8EncodeChar]
  rfl

theorem byteLength_toList (s : String) : byteLength s.toList = s.utf8ByteSize := by
  obtain ⟨text, rfl⟩ : ∃ text, s = .ofList text := ⟨s.toList, String.ofList_toList.symm⟩
  rw [String.toList_ofList, String.utf8ByteSize, String.toByteArray_ofList, List.utf8Encode,
    ByteArray.size, List.data_toByteArray, List.size_toArray]
  rfl

theorem hexDigit_utf8Size : ∀ n < 16, (hexDigit n).utf8Size = 1 := by decide

theorem byteLength_escapeChar (c : Char) : byteLength (escapeChar c) ≤ 6 * c.utf8Size := by
  have hpos := Char.utf8Size_pos c
  have htwo (d : Char) (hd : d.utf8Size = 1) : byteLength ['\\', d] ≤ 6 * c.utf8Size := by
    rw [byteLength_cons, byteLength_cons, hd]
    change 1 + (1 + 0) ≤ _
    omega
  unfold escapeChar
  split_ifs with hquote hslash hline hreturn htab hback hform hlow
  · exact htwo '"' rfl
  · exact htwo '\\' rfl
  · exact htwo 'n' rfl
  · exact htwo 'r' rfl
  · exact htwo 't' rfl
  · exact htwo 'b' rfl
  · exact htwo 'f' rfl
  · simp only [byteLength_cons, hexDigit_utf8Size _ (show c.toNat / 16 < 16 by omega),
      hexDigit_utf8Size _ (show c.toNat % 16 < 16 by omega)]
    change 1 + (1 + (1 + (1 + (1 + (1 + 0))))) ≤ _
    omega
  · rw [byteLength_cons]
    change c.utf8Size + 0 ≤ _
    omega

theorem byteLength_quoteJson (s : String) : byteLength (quoteJson s) ≤ 2 + 6 * s.utf8ByteSize := by
  have hchars (text : List Char) : byteLength (text.flatMap escapeChar) ≤ 6 * byteLength text := by
    induction text with
    | nil => exact le_refl _
    | cons c text ih =>
      rw [List.flatMap_cons, byteLength_append, byteLength_cons]
      have := byteLength_escapeChar c
      omega
  have hall := hchars s.toList
  rw [byteLength_toList] at hall
  rw [quoteJson, byteLength_cons, byteLength_append]
  change 1 + (_ + 1) ≤ _
  omega

/-! ### A bound -/

mutual

/-- A bound for the bytes of a value, at some depth. -/
def weight (depth : ℕ) : Json → ℕ
  | .null => 4
  | .bool _ => 5
  | .num n => byteLength (toString n).toList
  | .str s => 2 + 6 * s.utf8ByteSize
  | .arr items => 3 + depth + weightItems (depth + 2) items
  | .obj members => 3 + depth + weightMembers (depth + 2) members

def weightItems (depth : ℕ) : List Json → ℕ
  | [] => 0
  | item :: items => depth + 2 + weight depth item + weightItems depth items

def weightMembers (depth : ℕ) : List (String × Json) → ℕ
  | [] => 0
  | (key, v) :: members =>
    depth + 6 + 6 * key.utf8ByteSize + weight depth v + weightMembers depth members

end

mutual

/-- **A text takes no more bytes than its bound.** -/
theorem byteLength_prettyText (indent : List Char) : (v : Json) →
    byteLength (prettyText indent v) ≤ weight (byteLength indent) v
  | .null => Nat.le_refl 4
  | .bool true => Nat.le_succ 4
  | .bool false => Nat.le_refl 5
  | .num n => le_refl _
  | .str s => byteLength_quoteJson s
  | .arr [] => by
    rw [prettyText, weight, weightItems]
    change 2 ≤ _
    omega
  | .arr (item :: items) => by
    have hitems := byteLength_prettyItems (' ' :: ' ' :: indent) (item :: items)
    have hindent : byteLength (' ' :: ' ' :: indent) = byteLength indent + 2 := by
      rw [byteLength_cons, byteLength_cons]
      change 1 + (1 + _) = _
      omega
    rw [hindent] at hitems
    rw [prettyText, weight, byteLength_cons, byteLength_append, byteLength_append, byteLength_cons]
    change 1 + (_ + (1 + _) + 1) ≤ _
    omega
  | .obj [] => by
    rw [prettyText, weight, weightMembers]
    change 2 ≤ _
    omega
  | .obj (m :: members) => by
    have hmembers := byteLength_prettyMembers (' ' :: ' ' :: indent) (m :: members)
    have hindent : byteLength (' ' :: ' ' :: indent) = byteLength indent + 2 := by
      rw [byteLength_cons, byteLength_cons]
      change 1 + (1 + _) = _
      omega
    rw [hindent] at hmembers
    rw [prettyText, weight, byteLength_cons, byteLength_append, byteLength_append, byteLength_cons]
    change 1 + (_ + (1 + _) + 1) ≤ _
    omega

theorem byteLength_prettyItems (indent : List Char) : (items : List Json) →
    byteLength (prettyItems indent items) ≤ weightItems (byteLength indent) items
  | [] => le_refl _
  | [item] => by
    have hitem := byteLength_prettyText indent item
    rw [prettyItems, weightItems, List.cons_append, byteLength_cons, byteLength_append]
    change 1 + _ ≤ _
    omega
  | item :: item' :: items => by
    have hitem := byteLength_prettyText indent item
    have hitems := byteLength_prettyItems indent (item' :: items)
    rw [prettyItems, weightItems, byteLength_append, List.cons_append, byteLength_cons,
      byteLength_append, byteLength_cons]
    · change 1 + _ + (1 + _) ≤ _
      omega
    · exact List.cons_ne_nil _ _

theorem byteLength_prettyMembers (indent : List Char) : (members : List (String × Json)) →
    byteLength (prettyMembers indent members) ≤ weightMembers (byteLength indent) members
  | [] => le_refl _
  | [(key, v)] => by
    have hkey := byteLength_quoteJson key
    have hv := byteLength_prettyText indent v
    rw [prettyMembers, weightMembers, weightMembers, byteLength_append, List.cons_append,
      byteLength_cons, byteLength_append, byteLength_cons, byteLength_cons]
    change 1 + _ + (1 + (1 + _)) ≤ _
    omega
  | (key, v) :: m :: members => by
    have hkey := byteLength_quoteJson key
    have hv := byteLength_prettyText indent v
    have hmembers := byteLength_prettyMembers indent (m :: members)
    rw [prettyMembers, weightMembers]
    · simp only [List.cons_append, byteLength_append, byteLength_cons]
      change 1 + (_ + _ + (1 + (1 + _)) + (1 + _)) ≤ _
      omega
    · exact List.cons_ne_nil _ _

end

/-- A bound for an object with short keys from bounds for its values. -/
theorem weightMembers_le {depth k : ℕ} {members : List (String × Json)} {bounds : List ℕ}
    (hkeys : ∀ key ∈ members.map Prod.fst, key.utf8ByteSize ≤ k)
    (h : List.Forall₂ (fun m bound => weight depth m.2 ≤ bound) members bounds) :
    weightMembers depth members ≤ bounds.length * (depth + 6 + 6 * k) + bounds.sum := by
  induction h with
  | nil => exact Nat.zero_le _
  | @cons m bound members bounds hm _ ih =>
    have hkey := hkeys m.1 List.mem_cons_self
    have hmembers := ih fun key hkey => hkeys key (List.mem_cons_of_mem m.1 hkey)
    rw [weightMembers, List.sum_cons, List.length_cons, Nat.add_mul]
    omega

end Json

end Ao2

/-! ## The characters of a text that is written -/

namespace Ao2

namespace Json

variable (P : Char → Bool)

variable {P}

end Json

end Ao2
