import Ao2.Json.Serde
import Ao2.Texts
import Mathlib.Data.List.Induction
import Mathlib.Data.List.Sort
import Mathlib.Data.String.Basic
import Mathlib.Logic.Function.Basic

/-!
# Values as texts, and the values of texts

A value is printed on one line, with the members of an object in their order. A reader takes white space
between the parts, stops at arrays and objects that are nested too deeply, and puts the members of an object
into the order of their keys. The texts of floats are a parameter; an integer is read as one if it fits into
64 bits.

## Main results

* `SerdeValue.readValue_compactText` — what is read of a printed value
* `SerdeValue.fromStr_compactText` — it is what `SerdeValue.reread` says
* `SerdeValue.compactText_injective` — ordered values with the same text are equal
-/

namespace Ao2

def isNumberChar (c : Char) : Bool := c.isDigit || c ∈ ['-', '+', '.', 'e', 'E']

/-- A character that a number begins with. -/
def startsNumber (c : Char) : Bool := c.isDigit || c = '-'

/-- The texts of floats. They are no texts of integers. -/
class FloatDigits (F : Type) where
  digits : F → List Char
  readFloat : List Char → Option F
  digits_injective : Function.Injective digits
  digits_chars : ∀ x, ∀ c ∈ digits x, isNumberChar c = true
  digits_head : ∀ x, ∃ c ∈ (digits x).head?, startsNumber c = true
  digits_mark : ∀ x, ∃ c ∈ digits x, c.isDigit = false ∧ c ≠ '-'

namespace SerdeValue

export FloatDigits (digits readFloat)

instance toDoubleText {F : Type} [FloatDigits F] : DoubleText F where
  readBack x := readFloat (digits x)

variable {F : Type}

/-! ### Printing -/

section

variable [FloatDigits F]

mutual

/-- A value on one line. -/
def compactText : SerdeValue F → List Char
  | .null => ['n', 'u', 'l', 'l']
  | .bool true => ['t', 'r', 'u', 'e']
  | .bool false => ['f', 'a', 'l', 's', 'e']
  | .int n => (toString n).toList
  | .float x => digits x
  | .str s => quoteJson s
  | .arr items => '[' :: compactItems items
  | .obj members => '{' :: compactMembers members

/-- The items of an array, with its closing bracket. -/
def compactItems : List (SerdeValue F) → List Char
  | [] => [']']
  | v :: items =>
    compactText v ++
      match items with
      | [] => [']']
      | _ :: _ => ',' :: compactItems items

/-- The members of an object, with its closing bracket. -/
def compactMembers : List (String × SerdeValue F) → List Char
  | [] => ['}']
  | (key, v) :: members =>
    quoteJson key ++ ':' :: (compactText v ++
      match members with
      | [] => ['}']
      | _ :: _ => ',' :: compactMembers members)

end

end

/-! ### Reading strings -/

def isJsonSpace (c : Char) : Bool := c ∈ [' ', '\n', '\t', '\r']

def skipBlanks (text : List Char) : List Char := text.dropWhile isJsonSpace

def hexValue (c : Char) : Option ℕ :=
  if c.isDigit then some (c.toNat - 48)
  else if 'a' ≤ c ∧ c ≤ 'f' then some (c.toNat - 87)
  else if 'A' ≤ c ∧ c ≤ 'F' then some (c.toNat - 55)
  else none

/-- The number of four hexadecimal digits. -/
def readHex : List Char → Option (ℕ × List Char)
  | a :: b :: c :: d :: rest => do
    let a ← hexValue a
    let b ← hexValue b
    let c ← hexValue c
    let d ← hexValue d
    some (((a * 16 + b) * 16 + c) * 16 + d, rest)
  | _ => none

/-- The character of a number, or of a pair of surrogates. -/
def readUnicode (text : List Char) : Option (Char × List Char) := do
  let (n, rest) ← readHex text
  if 0xD800 ≤ n ∧ n ≤ 0xDBFF then
    match rest with
    | '\\' :: 'u' :: rest => do
      let (m, rest) ← readHex rest
      if 0xDC00 ≤ m ∧ m ≤ 0xDFFF then
        some (.ofNat (0x10000 + (n - 0xD800) * 0x400 + (m - 0xDC00)), rest)
      else none
    | _ => none
  else if 0xDC00 ≤ n ∧ n ≤ 0xDFFF then none
  else some (.ofNat n, rest)

/-- The character of a letter after a backslash. -/
def simpleEscape (c : Char) : Option Char :=
  if c = '"' ∨ c = '\\' ∨ c = '/' then some c
  else if c = 'b' then some (.ofNat 8)
  else if c = 'f' then some (.ofNat 12)
  else if c = 'n' then some '\n'
  else if c = 'r' then some '\r'
  else if c = 't' then some '\t'
  else none

def readEscape : List Char → Option (Char × List Char)
  | [] => none
  | c :: rest => if c = 'u' then readUnicode rest else (simpleEscape c).map (·, rest)

/-- The rest of a string after its opening quote. The number bounds its length. -/
def readString : ℕ → List Char → Option (List Char × List Char)
  | 0, _ => none
  | _ + 1, [] => none
  | n + 1, c :: rest =>
    if c = '"' then some ([], rest)
    else if c = '\\' then do
      let (d, rest) ← readEscape rest
      let (s, rest) ← readString n rest
      some (d :: s, rest)
    else if c.toNat < 32 then none
    else do
      let (s, rest) ← readString n rest
      some (c :: s, rest)

/-! ### Reading numbers and words -/

/-- Digits without a zero in front. -/
def plainDigits (text : List Char) : Bool :=
  text ≠ [] && text.all Char.isDigit && (text.head? ≠ some '0' || text = ['0'])

/-- The integer of a number without fraction and exponent. A zero has no sign. -/
def integerOf : List Char → Option Int
  | [] => none
  | c :: text =>
    if c = '-' then
      if plainDigits text ∧ text ≠ ['0'] then some (-(Nat.ofDigitChars 10 text 0 : Int)) else none
    else if plainDigits (c :: text) then some (Nat.ofDigitChars 10 (c :: text) 0) else none

/-- An integer of 64 bits, with or without a sign. -/
def inRange (n : Int) : Bool := -9223372036854775808 ≤ n && n < 18446744073709551616

section

variable (readFloat : List Char → Option F)

def readNumber (lexeme : List Char) : Option (SerdeValue F) :=
  match (integerOf lexeme).filter inRange with
  | some n => some (.int n)
  | none => (readFloat lexeme).map .float

/-- What is left after a word. -/
def afterWord (word text : List Char) : Option (List Char) :=
  if word <+: text then some (text.drop word.length) else none

/-- A value that is no array and no object. -/
def readScalar : List Char → Option (SerdeValue F × List Char)
  | [] => none
  | c :: rest =>
    if c = '"' then (readString (rest.length + 1) rest).map fun r => (.str (.ofList r.1), r.2)
    else if c = 'n' then (afterWord ['u', 'l', 'l'] rest).map (.null, ·)
    else if c = 't' then (afterWord ['r', 'u', 'e'] rest).map (.bool true, ·)
    else if c = 'f' then (afterWord ['a', 'l', 's', 'e'] rest).map (.bool false, ·)
    else if startsNumber c then
      (readNumber readFloat ((c :: rest).takeWhile isNumberChar)).map
        (·, (c :: rest).dropWhile isNumberChar)
    else none

/-! ### Reading arrays and objects -/

variable (value : List Char → Option (SerdeValue F × List Char))

/-- The items of an array, up to its closing bracket. The number bounds how many there are. -/
def readItems : ℕ → List Char → Option (List (SerdeValue F) × List Char)
  | 0, _ => none
  | n + 1, text => do
    let (item, rest) ← value text
    match skipBlanks rest with
    | [] => none
    | c :: rest =>
      if c = ']' then some ([item], rest)
      else if c = ',' then do
        let (items, rest) ← readItems n (skipBlanks rest)
        some (item :: items, rest)
      else none

/-- The rest of an array after its opening bracket. -/
def readArray (text : List Char) : Option (SerdeValue F × List Char) :=
  let text := skipBlanks text
  if text.head? = some ']' then some (.arr [], text.tail)
  else (readItems value text.length text).map fun r => (.arr r.1, r.2)

/-- A key, a colon and a value. -/
def readMember : List Char → Option ((String × SerdeValue F) × List Char)
  | [] => none
  | c :: rest =>
    if c = '"' then do
      let (key, rest) ← readString (rest.length + 1) rest
      match skipBlanks rest with
      | [] => none
      | c :: rest =>
        if c = ':' then do
          let (v, rest) ← value (skipBlanks rest)
          some ((.ofList key, v), rest)
        else none
    else none

def readMembers : ℕ → List Char → Option (List (String × SerdeValue F) × List Char)
  | 0, _ => none
  | n + 1, text => do
    let (m, rest) ← readMember value text
    match skipBlanks rest with
    | [] => none
    | c :: rest =>
      if c = '}' then some ([m], rest)
      else if c = ',' then do
        let (members, rest) ← readMembers n (skipBlanks rest)
        some (m :: members, rest)
      else none

/-- Put a member in the place of its key. -/
def insertKey (key : String) (v : SerdeValue F) :
    List (String × SerdeValue F) → List (String × SerdeValue F)
  | [] => [(key, v)]
  | (k, w) :: members =>
    if k = key then (key, v) :: members
    else if key < k then (key, v) :: (k, w) :: members
    else (k, w) :: insertKey key v members

/-- The map with these members; of two with the same key the later one counts. -/
def mapOf (members : List (String × SerdeValue F)) : List (String × SerdeValue F) :=
  members.foldl (fun map m => insertKey m.1 m.2 map) []

def readObject (text : List Char) : Option (SerdeValue F × List Char) :=
  let text := skipBlanks text
  if text.head? = some '}' then some (.obj [], text.tail)
  else (readMembers value text.length text).map fun r => (.obj (mapOf r.1), r.2)

end

/-- The value at the beginning of a text. The number bounds how deep arrays and objects are nested. -/
def readValue (readFloat : List Char → Option F) : ℕ → List Char → Option (SerdeValue F × List Char)
  | 0, text => readScalar readFloat text
  | _ + 1, [] => none
  | n + 1, c :: rest =>
    if c = '[' then readArray (readValue readFloat n) rest
    else if c = '{' then readObject (readValue readFloat n) rest
    else readScalar readFloat (c :: rest)

/-- The value of a text. -/
def fromStr [FloatDigits F] (text : List Char) : Option (SerdeValue F) := do
  let (v, rest) ← readValue readFloat 127 (skipBlanks text)
  if skipBlanks rest = [] then some v else none

/-! ### Values that are maps -/

mutual

/-- The keys of every object meet a condition, and every integer is one of 64 bits. -/
def Keyed (P : List String → Prop) : SerdeValue F → Prop
  | .int n => inRange n = true
  | .arr items => KeyedItems P items
  | .obj members => P (members.map Prod.fst) ∧ KeyedMembers P members
  | .null | .bool _ | .float _ | .str _ => True

def KeyedItems (P : List String → Prop) : List (SerdeValue F) → Prop
  | [] => True
  | v :: items => Keyed P v ∧ KeyedItems P items

def KeyedMembers (P : List String → Prop) : List (String × SerdeValue F) → Prop
  | [] => True
  | (_, v) :: members => Keyed P v ∧ KeyedMembers P members

end

/-- Every object has its members in the order of their keys. -/
abbrev Ordered (v : SerdeValue F) : Prop := v.Keyed (List.Pairwise (· < ·))

/-! ### Strings are read -/

theorem hexValue_hexDigit {n : ℕ} (hn : n < 16) : hexValue (hexDigit n) = some n := by
  have hall : ∀ n < 16, hexValue (hexDigit n) = some n := by decide
  exact hall n hn

theorem readString_escaped {n : ℕ} {e d : Char} {rest rest' : List Char}
    (h : readEscape (e :: rest) = some (d, rest')) :
    readString (n + 1) ('\\' :: e :: rest) = (readString n rest').map fun r => (d :: r.1, r.2) := by
  rw [readString, if_neg (by decide), if_pos rfl, h, Option.map_eq_bind]
  rfl

theorem readString_plain {n : ℕ} {c : Char} (hquote : c ≠ '"') (hslash : c ≠ '\\') (hc : ¬ c.toNat < 32)
    (rest : List Char) :
    readString (n + 1) (c :: rest) = (readString n rest).map fun r => (c :: r.1, r.2) := by
  rw [readString, if_neg hquote, if_neg hslash, if_neg hc, Option.map_eq_bind]
  rfl

theorem readEscape_control {c : Char} (hc : c.toNat < 32) (rest : List Char) :
    readEscape ('u' :: '0' :: '0' :: hexDigit (c.toNat / 16) :: hexDigit (c.toNat % 16) :: rest) =
      some (c, rest) := by
  have hhex : readHex ('0' :: '0' :: hexDigit (c.toNat / 16) :: hexDigit (c.toNat % 16) :: rest) =
      some (c.toNat, rest) := by
    rw [readHex, hexValue_hexDigit (by omega), hexValue_hexDigit (by omega)]
    have hnumber : ((0 * 16 + 0) * 16 + c.toNat / 16) * 16 + c.toNat % 16 = c.toNat := by omega
    exact congrArg (fun n => some (n, rest)) hnumber
  rw [readEscape, if_pos rfl, readUnicode, hhex]
  simp only [Option.bind_eq_bind, Option.bind_some]
  rw [if_neg (by omega), if_neg (by omega), Char.ofNat_toNat]

/-- **A character is read from its escape.** -/
theorem readString_escapeChar (c : Char) (n : ℕ) (rest : List Char) :
    readString (n + 1) (escapeChar c ++ rest) = (readString n rest).map fun r => (c :: r.1, r.2) := by
  rw [escapeChar]
  split_ifs with hquote hslash hline hreturn htab hback hform hcontrol
  · rw [hquote]
    exact readString_escaped rfl
  · rw [hslash]
    exact readString_escaped rfl
  · rw [hline]
    exact readString_escaped rfl
  · rw [hreturn]
    exact readString_escaped rfl
  · rw [htab]
    exact readString_escaped rfl
  · rw [← Char.ofNat_toNat c, hback]
    exact readString_escaped rfl
  · rw [← Char.ofNat_toNat c, hform]
    exact readString_escaped rfl
  · exact readString_escaped (readEscape_control hcontrol rest)
  · exact readString_plain hquote hslash hcontrol rest

theorem readString_flatMap {s : List Char} {n : ℕ} (hn : s.length < n) (rest : List Char) :
    readString n (s.flatMap escapeChar ++ '"' :: rest) = some (s, rest) := by
  induction s generalizing n with
  | nil =>
    cases n with
    | zero => exact absurd hn (Nat.not_lt_zero _)
    | succ n => rfl
  | cons c s ih =>
    cases n with
    | zero => exact absurd hn (Nat.not_lt_zero _)
    | succ n =>
      rw [List.flatMap_cons, List.append_assoc, readString_escapeChar,
        ih (Nat.lt_of_succ_lt_succ hn)]
      rfl

theorem escapeChar_ne_nil (c : Char) : escapeChar c ≠ [] := by
  rw [escapeChar]
  split_ifs <;> exact List.cons_ne_nil _ _

theorem length_le_flatMap_escapeChar (s : List Char) : s.length ≤ (s.flatMap escapeChar).length := by
  induction s with
  | nil => exact Nat.zero_le _
  | cons c s ih =>
    have hpos := List.length_pos_iff.mpr (escapeChar_ne_nil c)
    rw [List.flatMap_cons, List.length_append, List.length_cons]
    omega

/-- The rest of a quoted string, with as much room as there is text. -/
theorem readString_quoted (s : String) (rest : List Char) {n : ℕ}
    (hn : (s.toList.flatMap escapeChar ++ '"' :: rest).length ≤ n) :
    readString n (s.toList.flatMap escapeChar ++ '"' :: rest) = some (s.toList, rest) := by
  have hlength := length_le_flatMap_escapeChar s.toList
  rw [List.length_append, List.length_cons] at hn
  exact readString_flatMap (by omega) rest

/-! ### Numbers are read -/

theorem head?_toDigits {n : ℕ} (hn : 0 < n) : (Nat.toDigits 10 n).head? ≠ some '0' := by
  induction n using Nat.strong_induction_on with
  | h n ih =>
    by_cases hlt : n < 10
    · have hall : ∀ n < 10, 0 < n → Nat.digitChar n ≠ '0' := by decide
      rw [Nat.toDigits_of_lt_base hlt, List.head?_cons]
      exact fun heq => hall n hlt hn (Option.some.inj heq)
    · rw [Nat.toDigits_of_base_le (by decide) (Nat.not_lt.mp hlt),
        List.head?_append_of_ne_nil _ Nat.toDigits_ne_nil]
      exact ih (n / 10) (by omega) (by omega)

theorem plainDigits_toDigits (n : ℕ) : plainDigits (Nat.toDigits 10 n) = true := by
  have hdigits : (Nat.toDigits 10 n).all Char.isDigit = true :=
    List.all_eq_true.mpr fun c hc => Nat.isDigit_of_mem_toDigits (by decide) (by decide) hc
  have hhead : (Nat.toDigits 10 n).head? ≠ some '0' ∨ Nat.toDigits 10 n = ['0'] := by
    rcases Nat.eq_zero_or_pos n with rfl | hn
    · exact .inr (Nat.toDigits_zero 10)
    · exact .inl (head?_toDigits hn)
  rw [plainDigits, hdigits]
  simp [Nat.toDigits_ne_nil, hhead]

theorem toDigits_ne_zero {n : ℕ} (hn : 0 < n) : Nat.toDigits 10 n ≠ ['0'] := by
  intro heq
  exact head?_toDigits hn (by rw [heq]; rfl)

theorem toList_toString_natCast (n : ℕ) : (toString (n : Int)).toList = Nat.toDigits 10 n :=
  Nat.toList_repr

theorem toList_toString_negSucc (n : ℕ) : (toString (Int.negSucc n)).toList = '-' :: Nat.toDigits 10 (n + 1) := by
  change ("-" ++ (n + 1).repr).toList = _
  rw [String.toList_append, Nat.toList_repr]
  rfl

theorem integerOf_toString (n : Int) : integerOf (toString n).toList = some n := by
  cases n with
  | ofNat n =>
    obtain ⟨c, text, heq⟩ := List.exists_cons_of_ne_nil (Nat.toDigits_ne_nil (n := n) (b := 10))
    have hc : c ≠ '-' := by
      have hdigit : c.isDigit = true :=
        Nat.isDigit_of_mem_toDigits (n := n) (by decide) (by decide) (heq ▸ List.mem_cons_self)
      rintro rfl
      cases hdigit
    change integerOf (toString (n : Int)).toList = some (n : Int)
    rw [toList_toString_natCast, heq, integerOf, if_neg hc, ← heq, if_pos (plainDigits_toDigits n),
      Nat.ofDigitChars_ten_toDigits]
  | negSucc n =>
    rw [toList_toString_negSucc, integerOf, if_pos rfl,
      if_pos ⟨plainDigits_toDigits (n + 1), toDigits_ne_zero (Nat.succ_pos n)⟩,
      Nat.ofDigitChars_ten_toDigits]
    rfl

/-- A text with a character of another kind is no integer. -/
theorem integerOf_eq_none {lexeme : List Char} (h : ∃ c ∈ lexeme, c.isDigit = false ∧ c ≠ '-') :
    integerOf lexeme = none := by
  have hplain : ∀ {text : List Char} {c : Char}, c ∈ text → c.isDigit = false → plainDigits text = false := by
    intro text c hmem hdigit
    have hall : text.all Char.isDigit = false := List.all_eq_false.mpr ⟨c, hmem, by rw [hdigit]; decide⟩
    rw [plainDigits, hall, Bool.and_false, Bool.false_and]
  obtain ⟨c, hmem, hdigit, hsign⟩ := h
  cases lexeme with
  | nil => rfl
  | cons d text =>
    rw [integerOf]
    by_cases hd : d = '-'
    · have htail : c ∈ text := (List.mem_cons.mp hmem).resolve_left fun heq => hsign (heq.trans hd)
      rw [if_pos hd, if_neg (by rw [hplain htail hdigit]; simp)]
    · rw [if_neg hd, if_neg (by rw [hplain hmem hdigit]; decide)]

/-! ### What a text begins with -/

/-- No number goes on here. -/
def Stops (rest : List Char) : Prop := ∀ c ∈ rest.head?, isNumberChar c = false

theorem stops_cons {c : Char} (h : isNumberChar c = false) (rest : List Char) : Stops (c :: rest) := by
  intro d hd
  obtain rfl := Option.some.inj hd
  exact h

theorem stops_nil : Stops [] := by
  intro c hc
  cases hc

theorem skipBlanks_cons {c : Char} (h : isJsonSpace c = false) (rest : List Char) :
    skipBlanks (c :: rest) = c :: rest := by
  rw [skipBlanks, List.dropWhile_cons, if_neg (by rw [h]; exact Bool.false_ne_true)]

theorem startsNumber_spec {c : Char} (h : startsNumber c = true) :
    isJsonSpace c = false ∧ c ∉ [']', '[', '{', '"', 'n', 't', 'f'] := by
  have hne : ∀ {d : Char}, startsNumber d = false → c ≠ d := by
    rintro d hd rfl
    rw [h] at hd
    cases hd
  simp only [isJsonSpace, List.mem_cons, List.not_mem_nil, or_false, decide_eq_false_iff_not, not_or]
  exact ⟨⟨hne rfl, hne rfl, hne rfl, hne rfl⟩, hne rfl, hne rfl, hne rfl, hne rfl, hne rfl, hne rfl, hne rfl⟩

theorem head?_toString (n : Int) : ∃ c ∈ (toString n).toList.head?, startsNumber c = true := by
  cases n with
  | ofNat n =>
    obtain ⟨c, text, heq⟩ := List.exists_cons_of_ne_nil (Nat.toDigits_ne_nil (n := n) (b := 10))
    have hdigit : c.isDigit = true :=
      Nat.isDigit_of_mem_toDigits (n := n) (by decide) (by decide) (heq ▸ List.mem_cons_self)
    change ∃ c ∈ (toString (n : Int)).toList.head?, _
    rw [toList_toString_natCast, heq]
    exact ⟨c, rfl, by rw [startsNumber, hdigit, Bool.true_or]⟩
  | negSucc n =>
    rw [toList_toString_negSucc]
    exact ⟨'-', rfl, rfl⟩

theorem isNumberChar_toString (n : Int) : ∀ c ∈ (toString n).toList, isNumberChar c = true := by
  have hdigits : ∀ m, ∀ c ∈ Nat.toDigits 10 m, isNumberChar c = true := fun m c hc => by
    rw [isNumberChar, Nat.isDigit_of_mem_toDigits (by decide) (by decide) hc, Bool.true_or]
  cases n with
  | ofNat n =>
    change ∀ c ∈ (toString (n : Int)).toList, _
    rw [toList_toString_natCast]
    exact hdigits n
  | negSucc n =>
    rw [toList_toString_negSucc]
    exact List.forall_mem_cons.mpr ⟨rfl, hdigits (n + 1)⟩

section

variable [FloatDigits F]

/-- A text begins with no white space and with no closing bracket. -/
theorem compactText_head (v : SerdeValue F) :
    ∃ c text, compactText v = c :: text ∧ isJsonSpace c = false ∧ c ≠ ']' := by
  have hnumber : ∀ {lexeme : List Char}, (∃ c ∈ lexeme.head?, startsNumber c = true) →
      ∃ c text, lexeme = c :: text ∧ isJsonSpace c = false ∧ c ≠ ']' := by
    rintro lexeme ⟨c, hc, hstart⟩
    obtain ⟨text, rfl⟩ := List.head?_eq_some_iff.mp hc
    obtain ⟨hspace, hnot⟩ := startsNumber_spec hstart
    exact ⟨c, text, rfl, hspace, fun heq => hnot (heq ▸ List.mem_cons_self)⟩
  cases v with
  | null => exact ⟨_, _, by rw [compactText], rfl, by decide⟩
  | bool b => cases b <;> exact ⟨_, _, by rw [compactText], rfl, by decide⟩
  | int n =>
    rw [compactText]
    exact hnumber (head?_toString n)
  | float x =>
    rw [compactText]
    exact hnumber (FloatDigits.digits_head x)
  | str s => exact ⟨_, _, by rw [compactText, quoteJson], rfl, by decide⟩
  | arr items => exact ⟨_, _, by rw [compactText], rfl, by decide⟩
  | obj members => exact ⟨_, _, by rw [compactText], rfl, by decide⟩

theorem skipBlanks_compactText (v : SerdeValue F) (rest : List Char) :
    skipBlanks (compactText v ++ rest) = compactText v ++ rest := by
  obtain ⟨c, text, heq, hc, -⟩ := compactText_head v
  rw [heq, List.cons_append, skipBlanks_cons hc]

theorem compactItems_cons (v : SerdeValue F) (items : List (SerdeValue F)) :
    compactItems (v :: items) =
      compactText v ++
        match items with
        | [] => [']']
        | _ :: _ => ',' :: compactItems items := by
  cases items <;> rfl

theorem compactItems_head (v : SerdeValue F) (items : List (SerdeValue F)) :
    ∃ c text, compactItems (v :: items) = c :: text ∧ isJsonSpace c = false ∧ c ≠ ']' := by
  obtain ⟨c, text, heq, hc⟩ := compactText_head v
  exact ⟨c, _, by rw [compactItems_cons, heq, List.cons_append], hc⟩

theorem length_le_compactItems (items : List (SerdeValue F)) : items.length ≤ (compactItems items).length := by
  induction items with
  | nil => exact Nat.zero_le _
  | cons v items ih =>
    obtain ⟨c, text, heq, -⟩ := compactText_head v
    rw [compactItems_cons, heq]
    cases items with
    | nil => simp
    | cons w items =>
      simp only [List.length_append, List.length_cons] at ih ⊢
      omega

theorem compactMembers_cons (key : String) (v : SerdeValue F) (members : List (String × SerdeValue F)) :
    compactMembers ((key, v) :: members) =
      quoteJson key ++ ':' :: (compactText v ++
        match members with
        | [] => ['}']
        | _ :: _ => ',' :: compactMembers members) := by
  cases members <;> rfl

theorem compactMembers_head (m : String × SerdeValue F) (members : List (String × SerdeValue F)) :
    ∃ text, compactMembers (m :: members) = '"' :: text :=
  ⟨_, by rw [compactMembers_cons, quoteJson, List.cons_append]⟩

theorem length_le_compactMembers (members : List (String × SerdeValue F)) :
    members.length ≤ (compactMembers members).length := by
  induction members with
  | nil => exact Nat.zero_le _
  | cons m members ih =>
    rw [compactMembers_cons, quoteJson]
    cases members with
    | nil => simp
    | cons w members =>
      simp only [List.length_append, List.length_cons] at ih ⊢
      omega

end

/-! ### What is read of a printed value -/

/-- A value that is not nested deeper than this. -/
def within {α : Type} (n depth : ℕ) (o : Option α) : Option α := if depth ≤ n then o else none

theorem within_zero {α : Type} (n : ℕ) (o : Option α) : within n 0 o = o := if_pos (Nat.zero_le n)

theorem within_max {α β γ : Type} (n d d' : ℕ) (o : Option α) (o' : Option β) (f : α → β → γ) :
    within n (max d d') (o.bind fun a => o'.map (f a)) =
      (within n d o).bind fun a => (within n d' o').map (f a) := by
  unfold within
  by_cases h : d ≤ n
  · by_cases h' : d' ≤ n
    · simp [h, h']
    · cases o <;> simp [h, h']
  · simp [h]

theorem within_succ {α β : Type} (n d : ℕ) (o : Option α) (f : α → β) :
    within (n + 1) (d + 1) (o.map f) = (within n d o).map f := by
  unfold within
  by_cases h : d ≤ n
  · simp [h]
  · simp [h]

variable {read : List Char → Option F}

theorem readValue_of_ne {c : Char} (hlist : c ≠ '[') (hdict : c ≠ '{') (n : ℕ) (rest : List Char) :
    readValue read n (c :: rest) = readScalar read (c :: rest) := by
  cases n with
  | zero => rfl
  | succ n => rw [readValue, if_neg hlist, if_neg hdict]

theorem readScalar_number {lexeme rest : List Char} (hhead : ∃ c ∈ lexeme.head?, startsNumber c = true)
    (hchars : ∀ c ∈ lexeme, isNumberChar c = true) (hrest : Stops rest) :
    readScalar read (lexeme ++ rest) = (readNumber read lexeme).map (·, rest) := by
  have htake : rest.takeWhile isNumberChar = [] ∧ rest.dropWhile isNumberChar = rest := by
    cases rest with
    | nil => exact ⟨rfl, rfl⟩
    | cons d rest => simp [hrest d rfl]
  obtain ⟨c, hc, hstart⟩ := hhead
  obtain ⟨text, rfl⟩ := List.head?_eq_some_iff.mp hc
  obtain ⟨-, hnot⟩ := startsNumber_spec hstart
  simp only [List.mem_cons, List.not_mem_nil, or_false, not_or] at hnot
  rw [List.cons_append, readScalar, if_neg hnot.2.2.2.1, if_neg hnot.2.2.2.2.1, if_neg hnot.2.2.2.2.2.1,
    if_neg hnot.2.2.2.2.2.2, if_pos hstart, ← List.cons_append, List.takeWhile_append_of_pos hchars,
    List.dropWhile_append_of_pos hchars, htake.1, htake.2, List.append_nil]

theorem readValue_number {lexeme rest : List Char} (hhead : ∃ c ∈ lexeme.head?, startsNumber c = true)
    (hchars : ∀ c ∈ lexeme, isNumberChar c = true) (hrest : Stops rest) (n : ℕ) :
    readValue read n (lexeme ++ rest) = (readNumber read lexeme).map (·, rest) := by
  rw [← readScalar_number hhead hchars hrest]
  obtain ⟨c, hc, hstart⟩ := hhead
  obtain ⟨text, rfl⟩ := List.head?_eq_some_iff.mp hc
  obtain ⟨-, hnot⟩ := startsNumber_spec hstart
  simp only [List.mem_cons, List.not_mem_nil, or_false, not_or] at hnot
  exact readValue_of_ne hnot.2.1 hnot.2.2.1 n _

/-! ### Objects are maps -/

theorem insertKey_of_lt {key : String} {v : SerdeValue F} {members : List (String × SerdeValue F)}
    (h : ∀ m ∈ members, m.1 < key) : insertKey key v members = members ++ [(key, v)] := by
  induction members with
  | nil => rfl
  | cons m members ih =>
    rw [List.forall_mem_cons] at h
    rw [insertKey, if_neg h.1.ne, if_neg h.1.not_gt, ih h.2]
    rfl

/-- Members in the order of their keys are a map as they are. -/
theorem mapOf_of_pairwise {members : List (String × SerdeValue F)}
    (h : (members.map Prod.fst).Pairwise (· < ·)) : mapOf members = members := by
  induction members using List.reverseRecOn with
  | nil => rfl
  | append_singleton members m ih =>
    rw [List.map_append, List.pairwise_append] at h
    rw [mapOf] at ih ⊢
    rw [List.foldl_append, ih h.1, List.foldl_cons, List.foldl_nil]
    exact insertKey_of_lt fun m' hm' => h.2.2 _ (List.mem_map_of_mem hm') _ (List.mem_singleton_self _)

theorem map_fst_traverseMembers {f : F → Option F} : ∀ {members ms : List (String × SerdeValue F)},
    traverseMembers f members = some ms → ms.map Prod.fst = members.map Prod.fst
  | [], ms, h => by
    obtain rfl := Option.some.inj h
    rfl
  | (k, v) :: members, ms, h => by
    obtain ⟨w, -, hrest⟩ := Option.bind_eq_some_iff.mp h
    obtain ⟨rest, hms, rfl⟩ := Option.map_eq_some_iff.mp hrest
    rw [List.map_cons, List.map_cons, map_fst_traverseMembers hms]

/-! ### Reading back -/

section

variable [FloatDigits F]

/-- A key, a colon and what is made of the value. -/
theorem readMember_compact {value : List Char → Option (SerdeValue F × List Char)} (key : String)
    (v : SerdeValue F) (rest : List Char) :
    readMember value (quoteJson key ++ ':' :: (compactText v ++ rest)) =
      (value (compactText v ++ rest)).map fun r => ((key, r.1), r.2) := by
  have hstring := readString_quoted key (':' :: (compactText v ++ rest)) (Nat.le_succ _)
  rw [quoteJson, List.cons_append, List.append_assoc, List.singleton_append, readMember, if_pos rfl,
    hstring]
  simp only [Option.bind_eq_bind, Option.bind_some, skipBlanks_cons (show isJsonSpace ':' = false from rfl),
    if_true, skipBlanks_compactText, String.ofList_toList, Option.map_eq_bind]
  rfl

mutual

/-- **What is read of a printed value**, by recursion over the value: the value with its floats as they are
read, unless it is nested too deeply. -/
theorem readValue_compactText : ∀ {v : SerdeValue F}, v.Ordered → ∀ (n : ℕ) {rest : List Char}, Stops rest →
    readValue read n (compactText v ++ rest) =
      (within n v.depth (v.traverse fun x => read (digits x))).map (·, rest)
  | .null, _, n, rest, _ => by
    rw [depth, within_zero, compactText]
    exact readValue_of_ne (by decide) (by decide) n _
  | .bool true, _, n, rest, _ => by
    rw [depth, within_zero, compactText]
    exact readValue_of_ne (by decide) (by decide) n _
  | .bool false, _, n, rest, _ => by
    rw [depth, within_zero, compactText]
    exact readValue_of_ne (by decide) (by decide) n _
  | .int i, hv, n, rest, hrest => by
    rw [depth, within_zero, compactText,
      readValue_number (head?_toString i) (isNumberChar_toString i) hrest, readNumber, integerOf_toString,
      Option.filter_some, if_pos (show inRange i = true from hv)]
    rfl
  | .float x, _, n, rest, hrest => by
    rw [depth, within_zero, compactText,
      readValue_number (FloatDigits.digits_head x) (FloatDigits.digits_chars x) hrest, readNumber,
      integerOf_eq_none (FloatDigits.digits_mark x)]
    rfl
  | .str s, _, n, rest, _ => by
    have hstring := readString_quoted s rest (Nat.le_succ _)
    rw [depth, within_zero, compactText, quoteJson, List.cons_append, List.append_assoc,
      List.singleton_append, readValue_of_ne (by decide) (by decide), readScalar, if_pos rfl, hstring,
      Option.map_some, String.ofList_toList]
    rfl
  | .arr items, _, 0, rest, _ => by
    rw [compactText, depth]
    rfl
  | .arr [], _, n + 1, rest, _ => by
    rw [compactText, depth, traverse, traverseItems, Option.map_some, depthItems]
    rfl
  | .arr (v :: items), hv, n + 1, rest, _ => by
    have hread := readItems_compactItems (List.cons_ne_nil v items) hv n
      ((length_le_compactItems (v :: items)).trans (List.length_append ▸ Nat.le_add_right _ rest.length)) rest
    obtain ⟨c, text, heq, hc, hclosing⟩ := compactItems_head v items
    have hskip : skipBlanks (compactItems (v :: items) ++ rest) = compactItems (v :: items) ++ rest := by
      rw [heq, List.cons_append, skipBlanks_cons hc]
    have hopen : ¬ (compactItems (v :: items) ++ rest).head? = some ']' := by
      rw [heq]
      exact fun h => hclosing (Option.some.inj h)
    rw [compactText, List.cons_append, readValue, if_pos rfl, readArray]
    rw [hskip, if_neg hopen, hread, depth, traverse, within_succ, Option.map_map, Option.map_map]
    rfl
  | .obj members, _, 0, rest, _ => by
    rw [compactText, depth]
    rfl
  | .obj [], _, n + 1, rest, _ => by
    rw [compactText, depth, traverse, traverseMembers, Option.map_some, depthMembers]
    rfl
  | .obj (m :: members), hv, n + 1, rest, _ => by
    have hread := readMembers_compactMembers (List.cons_ne_nil m members) hv.2 n
      ((length_le_compactMembers (m :: members)).trans
        (List.length_append ▸ Nat.le_add_right _ rest.length)) rest
    obtain ⟨text, heq⟩ := compactMembers_head m members
    have hskip : skipBlanks (compactMembers (m :: members) ++ rest) = compactMembers (m :: members) ++ rest := by
      rw [heq, List.cons_append, skipBlanks_cons rfl]
    have hopen : ¬ (compactMembers (m :: members) ++ rest).head? = some '}' := by
      rw [heq]
      intro h
      cases h
    rw [compactText, List.cons_append, readValue, if_neg (by decide), if_pos rfl, readObject]
    rw [hskip, if_neg hopen, hread, depth, traverse, within_succ, Option.map_map, Option.map_map]
    -- the members that are read have the keys of those that were printed, and these are in order
    refine Option.map_congr fun ms hms => ?_
    have hkeys : ms.map Prod.fst = (m :: members).map Prod.fst := by
      rw [within] at hms
      split_ifs at hms
      exact map_fst_traverseMembers hms
    have hmap : mapOf ms = ms := mapOf_of_pairwise (hkeys ▸ hv.1)
    simp only [Function.comp_apply, hmap]

theorem readItems_compactItems : ∀ {items : List (SerdeValue F)}, items ≠ [] →
    KeyedItems (List.Pairwise (· < ·)) items → ∀ (n : ℕ) {m : ℕ}, items.length ≤ m → ∀ rest : List Char,
    readItems (readValue read n) m (compactItems items ++ rest) =
      (within n (depthItems items) (traverseItems (fun x => read (digits x)) items)).map (·, rest)
  | [], hne, _, _, _, _, _ => absurd rfl hne
  | v :: items, _, hv, n, 0, hm, _ => absurd hm (Nat.not_succ_le_zero _)
  | [v], _, hv, n, m + 1, _, rest => by
    have hfirst := readValue_compactText hv.1 n (stops_cons (c := ']') rfl rest)
    rw [compactItems_cons, List.append_assoc, List.singleton_append, readItems, hfirst, depthItems,
      traverseItems, within_max]
    cases within n v.depth (v.traverse fun x => read (digits x)) with
    | none => rfl
    | some w =>
      rw [depthItems, within_zero]
      rfl
  | v :: w :: items, _, hv, n, m + 1, hm, rest => by
    have hfirst := readValue_compactText hv.1 n
      (stops_cons (c := ',') rfl (compactItems (w :: items) ++ rest))
    have hrest := readItems_compactItems (List.cons_ne_nil w items) hv.2 n
      (Nat.le_of_succ_le_succ hm) rest
    obtain ⟨c, text, heq, hc, -⟩ := compactItems_head w items
    have hskip : skipBlanks (compactItems (w :: items) ++ rest) = compactItems (w :: items) ++ rest := by
      rw [heq, List.cons_append, skipBlanks_cons hc]
    rw [compactItems_cons, List.append_assoc, List.cons_append, readItems, hfirst, depthItems,
      traverseItems, within_max]
    cases within n v.depth (v.traverse fun x => read (digits x)) with
    | none => rfl
    | some u =>
      simp only [Option.map_some, Option.bind_eq_bind, Option.bind_some,
        skipBlanks_cons (show isJsonSpace ',' = false from rfl), hskip, hrest]
      rw [if_neg (by decide), if_true]
      cases within n (depthItems (w :: items)) (traverseItems (fun x => read (digits x)) (w :: items)) with
      | none => rfl
      | some us => rfl

theorem readMembers_compactMembers : ∀ {members : List (String × SerdeValue F)}, members ≠ [] →
    KeyedMembers (List.Pairwise (· < ·)) members → ∀ (n : ℕ) {m : ℕ}, members.length ≤ m →
    ∀ rest : List Char,
    readMembers (readValue read n) m (compactMembers members ++ rest) =
      (within n (depthMembers members) (traverseMembers (fun x => read (digits x)) members)).map (·, rest)
  | [], hne, _, _, _, _, _ => absurd rfl hne
  | m :: members, _, hv, n, 0, hm, _ => absurd hm (Nat.not_succ_le_zero _)
  | [(key, v)], _, hv, n, m + 1, _, rest => by
    have hfirst := readValue_compactText hv.1 n (stops_cons (c := '}') rfl rest)
    rw [compactMembers_cons, List.append_assoc, List.cons_append, List.append_assoc,
      List.singleton_append, readMembers, readMember_compact, hfirst, depthMembers, traverseMembers,
      within_max]
    cases within n v.depth (v.traverse fun x => read (digits x)) with
    | none => rfl
    | some w =>
      rw [depthMembers, within_zero]
      rfl
  | (key, v) :: m' :: members, _, hv, n, m + 1, hm, rest => by
    have hfirst := readValue_compactText hv.1 n
      (stops_cons (c := ',') rfl (compactMembers (m' :: members) ++ rest))
    have hrest := readMembers_compactMembers (List.cons_ne_nil m' members) hv.2 n
      (Nat.le_of_succ_le_succ hm) rest
    obtain ⟨text, heq⟩ := compactMembers_head m' members
    have hskip : skipBlanks (compactMembers (m' :: members) ++ rest) =
        compactMembers (m' :: members) ++ rest := by
      rw [heq, List.cons_append, skipBlanks_cons rfl]
    rw [compactMembers_cons, List.append_assoc, List.cons_append, List.append_assoc, List.cons_append,
      readMembers, readMember_compact, hfirst, depthMembers, traverseMembers, within_max]
    cases within n v.depth (v.traverse fun x => read (digits x)) with
    | none => rfl
    | some u =>
      simp only [Option.map_some, Option.bind_eq_bind, Option.bind_some,
        skipBlanks_cons (show isJsonSpace ',' = false from rfl), hskip, hrest]
      rw [if_neg (by decide), if_true]
      cases within n (depthMembers (m' :: members))
          (traverseMembers (fun x => read (digits x)) (m' :: members)) with
      | none => rfl
      | some us => rfl

end

/-- **What is read of a printed value** is what reading it back says. -/
theorem fromStr_compactText {v : SerdeValue F} (hv : v.Ordered) :
    fromStr (compactText v) = v.reread := by
  have hskip : skipBlanks (compactText v) = compactText v ++ [] := by
    rw [← skipBlanks_compactText v [], List.append_nil]
  rw [fromStr, hskip, readValue_compactText hv 127 stops_nil, reread]
  by_cases hdepth : v.depth < 128
  · rw [if_pos hdepth, within, if_pos (Nat.le_of_lt_succ hdepth)]
    change _ = v.traverse fun x => readFloat (digits x)
    cases v.traverse fun x => readFloat (digits x) with
    | none => rfl
    | some w => rfl
  · rw [if_neg hdepth, within, if_neg (by omega)]
    rfl

/-- **Ordered values with the same text are equal**: each is what is read of it by a reader that knows the
floats by their texts. -/
theorem compactText_injective {v w : SerdeValue F} (hv : v.Ordered) (hw : w.Ordered)
    (h : compactText v = compactText w) : v = w := by
  classical
  let known : List Char → Option F := Function.partialInv digits
  have hknown : ∀ x, known (digits x) = some x := Function.partialInv_left FloatDigits.digits_injective
  have hread : ∀ {u : SerdeValue F}, u.Ordered → u.depth ≤ max v.depth w.depth →
      readValue known (max v.depth w.depth) (compactText u ++ []) = some (u, []) := by
    intro u hu hdepth
    rw [readValue_compactText hu _ stops_nil, within, if_pos hdepth,
      traverse_eq_self_iff.mpr fun x _ => hknown x]
    rfl
  have hv' := hread hv (Nat.le_max_left _ _)
  rw [h, hread hw (Nat.le_max_right _ _)] at hv'
  exact (Prod.mk.inj (Option.some.inj hv')).1.symm

end

end SerdeValue

end Ao2
