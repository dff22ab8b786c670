import Ao2.Python.Json

/-!
# Values of JSON texts as Python uses them

What `bool`, `str` and `==` make of the values that `json.load` returns, and the bytes of a value in
the canonical form: sorted keys, no spaces, characters as they are, encoded as UTF-8. A number that is
not finite has no such form, and neither has a text with a surrogate in it.

## Main results

* `canonicalJsonBytes_isOk_iff` — the values that have a canonical form
-/

namespace Ao2

namespace Python

/-- Floating point numbers, and the texts of strings within lists and dictionaries. -/
class FloatValue (F : Type) extends FloatText F where
  floatTruthy : F → Bool
  floatFinite : F → Bool
  floatStr : F → PyStr
  floatEq : F → F → Bool
  /-- The same object, or an equal one. -/
  floatSame : F → F → Bool
  floatEqInt : F → ℤ → Bool
  reprStr : PyStr → PyStr

export FloatValue (floatTruthy floatFinite floatStr floatEq floatSame floatEqInt reprStr)

/-- The exceptions that values give rise to. -/
inductive PyError where
  | valueError
  | unicodeEncodeError
  | attributeError
  | osError
  deriving DecidableEq

abbrev Bytes := List UInt8

variable {F : Type}

/-- The member of a dictionary, or `None`. -/
def getItem (members : List (PyStr × PyJson F)) (key : String) : PyJson F :=
  (members.lookup (ofString key)).getD .null

section

variable [FloatValue F]

/-! ### Truth, text and equality -/

def truthy : PyJson F → Bool
  | .null => false
  | .bool b => b
  | .int n => n ≠ 0
  | .float x => floatTruthy x
  | .str s => s ≠ []
  | .list items => !items.isEmpty
  | .dict members => !members.isEmpty

mutual

def reprOf : PyJson F → PyStr
  | .null => ofString "None"
  | .bool true => ofString "True"
  | .bool false => ofString "False"
  | .int n => ofString (toString n)
  | .float x => floatStr x
  | .str s => reprStr F s
  | .list items => ofString "[" ++ reprItems items ++ ofString "]"
  | .dict members => ofString "\x7b" ++ reprMembers members ++ ofString "\x7d"

def reprItems : List (PyJson F) → PyStr
  | [] => []
  | [item] => reprOf item
  | item :: items => reprOf item ++ ofString ", " ++ reprItems items

def reprMembers : List (PyStr × PyJson F) → PyStr
  | [] => []
  | [(key, v)] => reprStr F key ++ ofString ": " ++ reprOf v
  | (key, v) :: members => reprStr F key ++ ofString ": " ++ reprOf v ++ ofString ", " ++ reprMembers members

end

/-- `str(v)`. -/
def strOf : PyJson F → PyStr
  | .str s => s
  | v => reprOf v

/-- `str(v or "")`. -/
def strOrEmpty (v : PyJson F) : PyStr := if truthy v then strOf v else []

/-- Equality of numbers; a truth value is one. -/
def numberEq (same : F → F → Bool) : PyJson F → PyJson F → Bool
  | .float x, .float y => same x y
  | .float x, .int n | .int n, .float x => floatEqInt x n
  | .float x, .bool b | .bool b, .float x => floatEqInt x b.toNat
  | .int m, .int n => m = n
  | .int n, .bool b | .bool b, .int n => n = b.toNat
  | .bool a, .bool b => a = b
  | _, _ => false

mutual

/-- Equality of the items of lists and the members of dictionaries. -/
def sameValue : PyJson F → PyJson F → Bool
  | .null, .null => true
  | .str s, .str t => s = t
  | .list items, .list items' => sameItems items items'
  | .dict members, .dict members' => members.length = members'.length && sameMembers members members'
  | v, w => numberEq floatSame v w

def sameItems : List (PyJson F) → List (PyJson F) → Bool
  | [], [] => true
  | item :: items, item' :: items' => sameValue item item' && sameItems items items'
  | _, _ => false

def sameMembers : List (PyStr × PyJson F) → List (PyStr × PyJson F) → Bool
  | [], _ => true
  | (key, v) :: members, members' =>
    (match members'.lookup key with
      | some w => sameValue v w
      | none => false) && sameMembers members members'

end

/-- `v == w`. -/
def pyEq : PyJson F → PyJson F → Bool
  | .float x, .float y => floatEq x y
  | v, w => sameValue v w

/-! ### The canonical form -/

/-- A character within a JSON string that keeps what it can. -/
def escapeChar (c : CodePoint) : PyStr :=
  match shortEscape c.val with
  | some e => [ofChar '\\', ofChar e]
  | none => if c.val < 32 then ofChar '\\' :: ofChar 'u' :: (hexDigits c.val).map ofChar else [c]

def quoteChars (s : PyStr) : PyStr := ofChar '"' :: (s.flatMap escapeChar ++ [ofChar '"'])

/-- The comma before what is left. -/
def separator {V : Type} (rest : List V) : PyStr := if rest = [] then [] else ofString ","

mutual

/-- The text of a value without spaces; none if a number in it is not finite. -/
def canonicalText : PyJson F → Option PyStr
  | .null => some (ofString "null")
  | .bool true => some (ofString "true")
  | .bool false => some (ofString "false")
  | .int n => some (ofString (toString n))
  | .float x => if floatFinite x then some ((floatRepr x).map ofChar) else none
  | .str s => some (quoteChars s)
  | .list items => (canonicalItems items).map fun text => ofString "[" ++ text ++ ofString "]"
  | .dict members =>
    (canonicalMembers members).map fun text => ofString "\x7b" ++ text ++ ofString "\x7d"

def canonicalItems : List (PyJson F) → Option PyStr
  | [] => some []
  | item :: items => do
    let text ← canonicalText item
    let rest ← canonicalItems items
    pure (text ++ separator items ++ rest)

def canonicalMembers : List (PyStr × PyJson F) → Option PyStr
  | [] => some []
  | (key, v) :: members => do
    let text ← canonicalText v
    let rest ← canonicalMembers members
    pure (quoteChars key ++ ofString ":" ++ text ++ separator members ++ rest)

end

end

/-- A surrogate. -/
def IsSurrogate (c : CodePoint) : Prop := 0xd800 ≤ c.val ∧ c.val < 0xe000

instance (c : CodePoint) : Decidable (IsSurrogate c) := inferInstanceAs (Decidable (_ ∧ _))

/-- The bytes of a character in UTF-8; a surrogate has none. -/
def utf8Char (c : CodePoint) : Option Bytes :=
  if IsSurrogate c then none
  else if c.val < 0x80 then some [.ofNat c.val]
  else if c.val < 0x800 then some [.ofNat (0xc0 + c.val / 64), .ofNat (0x80 + c.val % 64)]
  else if c.val < 0x10000 then
    some [.ofNat (0xe0 + c.val / 4096), .ofNat (0x80 + c.val / 64 % 64), .ofNat (0x80 + c.val % 64)]
  else
    some [.ofNat (0xf0 + c.val / 262144), .ofNat (0x80 + c.val / 4096 % 64),
      .ofNat (0x80 + c.val / 64 % 64), .ofNat (0x80 + c.val % 64)]

/-- `s.encode("utf-8")`. -/
def encodeUtf8 : PyStr → Except PyError Bytes
  | [] => .ok []
  | c :: s =>
    match utf8Char c with
    | none => .error .unicodeEncodeError
    | some bytes => (encodeUtf8 s).map (bytes ++ ·)

def canonicalJsonBytes [FloatValue F] (v : PyJson F) : Except PyError Bytes :=
  match canonicalText (sortKeys v) with
  | none => .error .valueError
  | some text => encodeUtf8 text

/-! ### What has a canonical form -/

/-- There is no surrogate in the text. -/
def Plain (s : PyStr) : Prop := ∀ c ∈ s, ¬ IsSurrogate c

theorem plain_append {s t : PyStr} : Plain (s ++ t) ↔ Plain s ∧ Plain t := List.forall_mem_append

theorem plain_cons {c : CodePoint} {s : PyStr} : Plain (c :: s) ↔ ¬ IsSurrogate c ∧ Plain s :=
  List.forall_mem_cons

/-- Characters of Lean are no surrogates. -/
theorem plain_map_ofChar (text : List Char) : Plain (text.map ofChar) := by
  intro c hc hs
  obtain ⟨d, -, rfl⟩ := List.mem_map.mp hc
  have hval : (ofChar d).val = d.toNat := rfl
  have hvalid : d.toNat < 0xd800 ∨ 0xdfff < d.toNat ∧ d.toNat < 0x110000 := d.valid
  rw [IsSurrogate, hval] at hs
  omega

theorem plain_ofString (s : String) : Plain (ofString s) := plain_map_ofChar s.toList

theorem utf8Char_eq_none_iff {c : CodePoint} : utf8Char c = none ↔ IsSurrogate c := by
  rw [utf8Char]
  split_ifs with h <;> simp [h]

theorem encodeUtf8_isOk_iff {s : PyStr} : (∃ bytes, encodeUtf8 s = .ok bytes) ↔ Plain s := by
  induction s with
  | nil => exact ⟨fun _ => List.forall_mem_nil _, fun _ => ⟨[], rfl⟩⟩
  | cons c s ih =>
    rw [plain_cons, ← ih, encodeUtf8]
    cases hc : utf8Char c with
    | none => simp [utf8Char_eq_none_iff.mp hc]
    | some bytes =>
      have hsurrogate : ¬ IsSurrogate c := fun h => by
        rw [utf8Char_eq_none_iff.mpr h] at hc
        cases hc
      cases encodeUtf8 s <;> simp [Except.map, hsurrogate]

theorem plain_escapeChar {c : CodePoint} : Plain (escapeChar c) ↔ ¬ IsSurrogate c := by
  rw [escapeChar]
  cases hshort : shortEscape c.val with
  | some e =>
    have hlow : c.val < 0x80 := by
      rw [shortEscape] at hshort
      split_ifs at hshort
      all_goals omega
    have hplain : Plain [ofChar '\\', ofChar e] := plain_map_ofChar ['\\', e]
    refine iff_of_true hplain fun h => ?_
    rw [IsSurrogate] at h
    omega
  | none =>
    by_cases hlow : c.val < 32
    · have hplain : Plain (ofChar '\\' :: ofChar 'u' :: (hexDigits c.val).map ofChar) :=
        plain_map_ofChar ('\\' :: 'u' :: hexDigits c.val)
      dsimp only
      rw [if_pos hlow]
      refine iff_of_true hplain fun h => ?_
      rw [IsSurrogate] at h
      omega
    · dsimp only
      rw [if_neg hlow]
      exact List.forall_mem_singleton

theorem plain_quoteChars {s : PyStr} : Plain (quoteChars s) ↔ Plain s := by
  have hquote : Plain [ofChar '"'] := plain_map_ofChar ['"']
  have hbody : Plain (s.flatMap escapeChar) ↔ Plain s := by
    induction s with
    | nil => rfl
    | cons c s ih => rw [List.flatMap_cons, plain_append, plain_escapeChar, ih, plain_cons]
  rw [quoteChars, plain_cons, plain_append, hbody]
  have hchar := List.forall_mem_singleton.mp hquote
  exact ⟨fun h => h.2.1, fun h => ⟨hchar, h, hquote⟩⟩

theorem plain_separator {V : Type} (rest : List V) : Plain (separator rest) := by
  rw [separator]
  split
  · exact List.forall_mem_nil _
  · exact plain_ofString _

section

variable [FloatValue F]

mutual

/-- Its numbers are finite and its texts hold no surrogate. -/
def Encodable : PyJson F → Prop
  | .float x => floatFinite x = true
  | .str s => Plain s
  | .list items => EncodableItems items
  | .dict members => EncodableMembers members
  | .null | .bool _ | .int _ => True

def EncodableItems : List (PyJson F) → Prop
  | [] => True
  | item :: items => Encodable item ∧ EncodableItems items

def EncodableMembers : List (PyStr × PyJson F) → Prop
  | [] => True
  | (key, v) :: members => Plain key ∧ Encodable v ∧ EncodableMembers members

end

theorem encodableMembers_iff {members : List (PyStr × PyJson F)} :
    EncodableMembers members ↔ ∀ m ∈ members, Plain m.1 ∧ Encodable m.2 := by
  induction members with
  | nil => simp [EncodableMembers]
  | cons m members ih => rw [EncodableMembers, ih, List.forall_mem_cons, and_assoc]

mutual

theorem encodable_sortKeys (v : PyJson F) : Encodable (sortKeys v) ↔ Encodable v := by
  cases v with
  | list items => exact encodableItems_sortItems items
  | dict members =>
    rw [sortKeys, Encodable, Encodable, encodableMembers_iff, ← encodableMembers_sortMembers members,
      encodableMembers_iff]
    simp only [List.mem_insertionSort]
  | null => rfl
  | bool b => rfl
  | int n => rfl
  | float x => rfl
  | str s => rfl

theorem encodableItems_sortItems (items : List (PyJson F)) :
    EncodableItems (sortItems items) ↔ EncodableItems items := by
  cases items with
  | nil => rfl
  | cons item items =>
    rw [sortItems, EncodableItems, EncodableItems, encodable_sortKeys item,
      encodableItems_sortItems items]

theorem encodableMembers_sortMembers (members : List (PyStr × PyJson F)) :
    EncodableMembers (sortMembers members) ↔ EncodableMembers members := by
  cases members with
  | nil => rfl
  | cons m members =>
    obtain ⟨key, v⟩ := m
    rw [sortMembers, EncodableMembers, EncodableMembers, encodable_sortKeys v,
      encodableMembers_sortMembers members]

end

mutual

theorem canonicalText_plain_iff (v : PyJson F) :
    (∃ text, canonicalText v = some text ∧ Plain text) ↔ Encodable v := by
  cases v with
  | null => simp [canonicalText, Encodable, plain_ofString]
  | bool b => cases b <;> simp [canonicalText, Encodable, plain_ofString]
  | int n => simp [canonicalText, Encodable, plain_ofString]
  | float x => simp [canonicalText, Encodable, plain_map_ofChar]
  | str s => simp [canonicalText, Encodable, plain_quoteChars]
  | list items =>
    rw [Encodable, ← canonicalItems_plain_iff items, canonicalText]
    simp [plain_append, plain_ofString]
  | dict members =>
    rw [Encodable, ← canonicalMembers_plain_iff members, canonicalText]
    simp [plain_append, plain_ofString]

theorem canonicalItems_plain_iff (items : List (PyJson F)) :
    (∃ text, canonicalItems items = some text ∧ Plain text) ↔ EncodableItems items := by
  cases items with
  | nil => simp [canonicalItems, EncodableItems, Plain]
  | cons item items =>
    rw [EncodableItems, ← canonicalText_plain_iff item, ← canonicalItems_plain_iff items,
      canonicalItems]
    cases canonicalText item <;> cases canonicalItems items <;> simp [plain_append, plain_separator]

theorem canonicalMembers_plain_iff (members : List (PyStr × PyJson F)) :
    (∃ text, canonicalMembers members = some text ∧ Plain text) ↔ EncodableMembers members := by
  cases members with
  | nil => simp [canonicalMembers, EncodableMembers, Plain]
  | cons m members =>
    obtain ⟨key, v⟩ := m
    rw [EncodableMembers, ← canonicalText_plain_iff v, ← canonicalMembers_plain_iff members,
      canonicalMembers]
    cases canonicalText v <;> cases canonicalMembers members <;>
      simp [plain_append, plain_separator, plain_quoteChars, plain_ofString]

end

/-- **The values that have a canonical form.** -/
theorem canonicalJsonBytes_isOk_iff (v : PyJson F) :
    (∃ bytes, canonicalJsonBytes v = .ok bytes) ↔ Encodable v := by
  rw [← encodable_sortKeys v, ← canonicalText_plain_iff, canonicalJsonBytes]
  cases canonicalText (sortKeys v) with
  | none => simp
  | some text => simp [encodeUtf8_isOk_iff]

end

end Python

end Ao2
