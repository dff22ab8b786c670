import Ao2.Python.Text
import Mathlib.Data.List.Induction
import Mathlib.Data.List.Sort

/-!
# JSON as Python writes and reads it

Values, the text that `json.dumps` makes of them, and what `json.loads` makes of a text. Floating
point numbers are a parameter: nothing here looks into them. A text is laid out on one line or
indented; a reader does not care which.

## Main results

* `loads_dumps` — a record of texts is read back, with its pairs joined
* `loads_of_torn` — a record that is cut off cannot be read
-/

namespace Ao2

namespace Python

/-- A value that a JSON text stands for. A dictionary lists its members in the order in which they
were put there. -/
inductive PyJson (F : Type) where
  | null
  | bool (b : Bool)
  | int (n : ℤ)
  | float (x : F)
  | str (s : PyStr)
  | list (items : List (PyJson F))
  | dict (members : List (PyStr × PyJson F))

/-- Floating point numbers with their texts. -/
class FloatText (F : Type) where
  parseFloat : List Char → F
  floatRepr : F → List Char

export FloatText (parseFloat floatRepr)

/-! ### Dictionaries -/

/-- Put a member into a dictionary: in the place of the one with its key, or at the end. -/
def setItem {V : Type} (key : PyStr) (value : V) : List (PyStr × V) → List (PyStr × V)
  | [] => [(key, value)]
  | (k, v) :: members =>
    if k = key then (k, value) :: members else (k, v) :: setItem key value members

/-- The dictionary with these members; of two with the same key the later one counts. -/
def ofPairs {V : Type} (pairs : List (PyStr × V)) : List (PyStr × V) :=
  pairs.foldl (fun members m => setItem m.1 m.2 members) []

section

variable {V : Type}

@[simp] theorem lookup_setItem_self (key : PyStr) (value : V) (members : List (PyStr × V)) :
    (setItem key value members).lookup key = some value := by
  induction members with
  | nil => simp [setItem]
  | cons m members ih =>
    obtain ⟨k, v⟩ := m
    unfold setItem
    by_cases hk : k = key
    · simp [hk]
    · rw [if_neg hk, List.lookup_cons, beq_eq_false_iff_ne.mpr (Ne.symm hk), ih]

theorem lookup_setItem_of_ne {key key' : PyStr} (h : key' ≠ key) (value : V)
    (members : List (PyStr × V)) :
    (setItem key value members).lookup key' = members.lookup key' := by
  induction members with
  | nil => rw [setItem, List.lookup_cons, beq_eq_false_iff_ne.mpr h]
  | cons m members ih =>
    obtain ⟨k, v⟩ := m
    unfold setItem
    by_cases hk : k = key
    · rw [if_pos hk, List.lookup_cons, List.lookup_cons, hk, beq_eq_false_iff_ne.mpr h]
    · rw [if_neg hk, List.lookup_cons, List.lookup_cons, ih]

theorem mem_keys_setItem {key key' : PyStr} {value : V} {members : List (PyStr × V)} :
    key' ∈ (setItem key value members).map Prod.fst ↔
      key' = key ∨ key' ∈ members.map Prod.fst := by
  induction members with
  | nil => simp [setItem]
  | cons m members ih =>
    obtain ⟨k, v⟩ := m
    unfold setItem
    by_cases hk : k = key
    · simp [hk]
    · rw [if_neg hk, List.map_cons, List.mem_cons, ih, List.map_cons, List.mem_cons]
      tauto

theorem eq_or_mem_of_mem_setItem {key : PyStr} {value : V} {members : List (PyStr × V)}
    {m : PyStr × V} (h : m ∈ setItem key value members) : m = (key, value) ∨ m ∈ members := by
  induction members with
  | nil => exact .inl (List.mem_singleton.mp h)
  | cons m' members ih =>
    obtain ⟨k, v⟩ := m'
    rw [setItem] at h
    by_cases hk : k = key
    · rw [if_pos hk, hk] at h
      exact (List.mem_cons.mp h).imp_right (List.mem_cons_of_mem _)
    · rw [if_neg hk] at h
      rcases List.mem_cons.mp h with rfl | h
      · exact .inr List.mem_cons_self
      · exact (ih h).imp_right (List.mem_cons_of_mem _)

theorem nodup_setItem {key : PyStr} {value : V} {members : List (PyStr × V)}
    (h : (members.map Prod.fst).Nodup) : ((setItem key value members).map Prod.fst).Nodup := by
  induction members with
  | nil => simp [setItem]
  | cons m members ih =>
    obtain ⟨k, v⟩ := m
    rw [List.map_cons, List.nodup_cons] at h
    unfold setItem
    by_cases hk : k = key
    · rw [if_pos hk]
      exact List.nodup_cons.mpr h
    · rw [if_neg hk, List.map_cons, List.nodup_cons, mem_keys_setItem]
      exact ⟨fun hmem => hmem.elim hk h.1, ih h.2⟩

/-- A member with a new key comes last. -/
theorem setItem_of_notMem {key : PyStr} {value : V} {members : List (PyStr × V)}
    (h : key ∉ members.map Prod.fst) : setItem key value members = members ++ [(key, value)] := by
  induction members with
  | nil => rfl
  | cons m members ih =>
    obtain ⟨k, v⟩ := m
    rw [List.map_cons, List.mem_cons, not_or] at h
    rw [setItem, if_neg (Ne.symm h.1), ih h.2]
    rfl

theorem mem_keys_ofPairs {pairs : List (PyStr × V)} {key : PyStr} :
    key ∈ (ofPairs pairs).map Prod.fst ↔ key ∈ pairs.map Prod.fst := by
  induction pairs using List.reverseRecOn with
  | nil => rfl
  | append_singleton pairs m ih =>
    rw [ofPairs] at ih
    rw [ofPairs, List.foldl_append, List.foldl_cons, List.foldl_nil, mem_keys_setItem, ih,
      List.map_append, List.mem_append, List.map_singleton, List.mem_singleton, or_comm]

theorem mem_of_mem_ofPairs {pairs : List (PyStr × V)} {m : PyStr × V} (h : m ∈ ofPairs pairs) :
    m ∈ pairs := by
  induction pairs using List.reverseRecOn with
  | nil => exact h
  | append_singleton pairs m' ih =>
    rw [ofPairs] at ih
    rw [ofPairs, List.foldl_append, List.foldl_cons, List.foldl_nil] at h
    rcases eq_or_mem_of_mem_setItem h with rfl | h
    · exact List.mem_append_right _ List.mem_cons_self
    · exact List.mem_append_left _ (ih h)

/-- Members whose keys differ are a dictionary as they are. -/
theorem ofPairs_of_nodup {pairs : List (PyStr × V)} (h : (pairs.map Prod.fst).Nodup) :
    ofPairs pairs = pairs := by
  induction pairs using List.reverseRecOn with
  | nil => rfl
  | append_singleton pairs m ih =>
    rw [List.map_append, List.nodup_append] at h
    unfold ofPairs at ih ⊢
    rw [List.foldl_append, ih h.1]
    refine setItem_of_notMem fun hmem => ?_
    exact h.2.2 _ hmem _ (List.mem_singleton_self _) rfl

end

/-! ### Writing -/

/-- Where a text has spaces and line breaks, at each depth: after an opening bracket, after a comma
and before a closing bracket. -/
structure Layout where
  opening : ℕ → List Char
  comma : ℕ → List Char
  closing : ℕ → List Char

/-- All on one line. -/
def Layout.line : Layout where
  opening _ := []
  comma _ := [' ']
  closing _ := []

/-- Every member on a line of its own, indented by two spaces. -/
def Layout.indented : Layout where
  opening depth := '\n' :: List.replicate (2 * (depth + 1)) ' '
  comma depth := '\n' :: List.replicate (2 * (depth + 1)) ' '
  closing depth := '\n' :: List.replicate (2 * depth) ' '

/-- There is nothing but spaces. -/
structure Layout.Blank (L : Layout) : Prop where
  opening : ∀ depth, ∀ c ∈ L.opening depth, isSpace c = true
  comma : ∀ depth, ∀ c ∈ L.comma depth, isSpace c = true
  closing : ∀ depth, ∀ c ∈ L.closing depth, isSpace c = true

theorem Layout.line_blank : Layout.line.Blank where
  opening _ := by simp [Layout.line]
  comma _ := by simp [Layout.line, isSpace]
  closing _ := by simp [Layout.line]

theorem Layout.indented_blank : Layout.indented.Blank where
  opening depth := by simp [Layout.indented, isSpace]
  comma depth := by simp [Layout.indented, isSpace]
  closing depth := by simp [Layout.indented, isSpace]

variable {F : Type}

mutual

/-- The members of every dictionary in the order of their keys. -/
def sortKeys : PyJson F → PyJson F
  | .list items => .list (sortItems items)
  | .dict members => .dict ((sortMembers members).insertionSort fun m m' => m.1 ≤ m'.1)
  | .null => .null
  | .bool b => .bool b
  | .int n => .int n
  | .float x => .float x
  | .str s => .str s

def sortItems : List (PyJson F) → List (PyJson F)
  | [] => []
  | item :: items => sortKeys item :: sortItems items

def sortMembers : List (PyStr × PyJson F) → List (PyStr × PyJson F)
  | [] => []
  | (key, value) :: members => (key, sortKeys value) :: sortMembers members

end

variable [FloatText F]

mutual

/-- The text of a value. -/
def dumps (L : Layout) (depth : ℕ) : PyJson F → List Char
  | .null => ['n', 'u', 'l', 'l']
  | .bool true => ['t', 'r', 'u', 'e']
  | .bool false => ['f', 'a', 'l', 's', 'e']
  | .int n => (toString n).toList
  | .float x => floatRepr x
  | .str s => quote s
  | .list [] => ['[', ']']
  | .list (item :: items) => '[' :: (L.opening depth ++ dumpsItems L depth (item :: items))
  | .dict [] => ['{', '}']
  | .dict (m :: members) => '{' :: (L.opening depth ++ dumpsMembers L depth (m :: members))

/-- The text of the items of a list, with its closing bracket. -/
def dumpsItems (L : Layout) (depth : ℕ) : List (PyJson F) → List Char
  | [] => []
  | item :: items =>
    dumps L (depth + 1) item ++
      match items with
      | [] => L.closing depth ++ [']']
      | _ :: _ => ',' :: (L.comma depth ++ dumpsItems L depth items)

/-- The text of the members of a dictionary, with its closing bracket. -/
def dumpsMembers (L : Layout) (depth : ℕ) : List (PyStr × PyJson F) → List Char
  | [] => []
  | (key, value) :: members =>
    quote key ++ ':' :: ' ' :: (dumps L (depth + 1) value ++
      match members with
      | [] => L.closing depth ++ ['}']
      | _ :: _ => ',' :: (L.comma depth ++ dumpsMembers L depth members))

end

/-! ### Reading -/

def skipSpace (text : List Char) : List Char := text.dropWhile isSpace

/-- The digits at the beginning of a text. -/
def spanDigits (text : List Char) : List Char × List Char := text.span Char.isDigit

/-- The fraction at the beginning of a text, if there is one. -/
def scanFraction : List Char → List Char × List Char
  | '.' :: text =>
    match spanDigits text with
    | ([], _) => ([], '.' :: text)
    | (digits, rest) => ('.' :: digits, rest)
  | text => ([], text)

/-- The sign at the beginning of a text, if there is one. -/
def scanSign : List Char → List Char × List Char
  | '+' :: text => (['+'], text)
  | '-' :: text => (['-'], text)
  | text => ([], text)

/-- The exponent at the beginning of a text, if there is one. -/
def scanExponent : List Char → List Char × List Char
  | [] => ([], [])
  | e :: text =>
    if e = 'e' ∨ e = 'E' then
      let (sign, afterSign) := scanSign text
      match spanDigits afterSign with
      | ([], _) => ([], e :: text)
      | (digits, rest) => (e :: (sign ++ digits), rest)
    else ([], e :: text)

/-- The whole part of a number. -/
def scanWhole : List Char → Option (List Char × List Char)
  | [] => none
  | c :: text =>
    if c = '0' then some ([c], text)
    else if c.isDigit then some (c :: (spanDigits text).1, (spanDigits text).2)
    else none

/-- The value of a sequence of digits. -/
def digitsValue (digits : List Char) : ℕ :=
  digits.foldl (fun n c => n * 10 + (c.toNat - '0'.toNat)) 0

/-- A number without its sign. -/
def scanUnsigned (negative : Bool) (text : List Char) : Option (PyJson F × List Char) := do
  let (whole, afterWhole) ← scanWhole text
  let (fraction, afterFraction) := scanFraction afterWhole
  let (exponent, rest) := scanExponent afterFraction
  if fraction = [] ∧ exponent = [] then
    pure (.int (if negative then -digitsValue whole else digitsValue whole), rest)
  else
    pure (.float (parseFloat ((if negative then ['-'] else []) ++ whole ++ fraction ++ exponent)),
      rest)

/-- A number, or a name that has a value. -/
def scanAtom : List Char → Option (PyJson F × List Char)
  | 'n' :: 'u' :: 'l' :: 'l' :: rest => some (.null, rest)
  | 't' :: 'r' :: 'u' :: 'e' :: rest => some (.bool true, rest)
  | 'f' :: 'a' :: 'l' :: 's' :: 'e' :: rest => some (.bool false, rest)
  | 'N' :: 'a' :: 'N' :: rest => some (.float (parseFloat ['N', 'a', 'N']), rest)
  | 'I' :: 'n' :: 'f' :: 'i' :: 'n' :: 'i' :: 't' :: 'y' :: rest =>
    some (.float (parseFloat ['I', 'n', 'f', 'i', 'n', 'i', 't', 'y']), rest)
  | '-' :: 'I' :: 'n' :: 'f' :: 'i' :: 'n' :: 'i' :: 't' :: 'y' :: rest =>
    some (.float (parseFloat ['-', 'I', 'n', 'f', 'i', 'n', 'i', 't', 'y']), rest)
  | '-' :: text => scanUnsigned true text
  | text => scanUnsigned false text

/-- Read the items of a list, up to its closing bracket. -/
def scanItems (value : List Char → Option (PyJson F × List Char)) :
    ℕ → List Char → Option (List (PyJson F) × List Char)
  | 0, _ => none
  | n + 1, text => do
    let (item, rest) ← value text
    match skipSpace rest with
    | ',' :: rest =>
      let (items, rest) ← scanItems value n (skipSpace rest)
      pure (item :: items, rest)
    | ']' :: rest => pure ([item], rest)
    | _ => none

/-- Read the colon after a key. -/
def scanColon : List Char → Option (List Char)
  | ':' :: rest => some rest
  | _ => none

/-- Read a member of a dictionary. -/
def scanMember (value : List Char → Option (PyJson F × List Char)) :
    List Char → Option ((PyStr × PyJson F) × List Char)
  | '"' :: text => do
    let (key, rest) ← scanString text
    let rest ← scanColon (skipSpace rest)
    let (v, rest) ← value (skipSpace rest)
    pure ((key, v), rest)
  | _ => none

/-- Read the members of a dictionary, up to its closing bracket. -/
def scanMembers (value : List Char → Option (PyJson F × List Char)) :
    ℕ → List Char → Option (List (PyStr × PyJson F) × List Char)
  | 0, _ => none
  | n + 1, text => do
    let (m, rest) ← scanMember value text
    match skipSpace rest with
    | ',' :: rest =>
      let (members, rest) ← scanMembers value n (skipSpace rest)
      pure (m :: members, rest)
    | '}' :: rest => pure ([m], rest)
    | _ => none

/-- Read a list after its opening bracket. -/
def scanList (value : List Char → Option (PyJson F × List Char)) (n : ℕ) (text : List Char) :
    Option (PyJson F × List Char) :=
  match skipSpace text with
  | ']' :: rest => some (.list [], rest)
  | rest => (scanItems value n rest).map fun r => (.list r.1, r.2)

/-- Read a dictionary after its opening bracket. -/
def scanDict (value : List Char → Option (PyJson F × List Char)) (n : ℕ) (text : List Char) :
    Option (PyJson F × List Char) :=
  match skipSpace text with
  | '}' :: rest => some (.dict [], rest)
  | rest => (scanMembers value n rest).map fun r => (.dict (ofPairs r.1), r.2)

/-- Read the value at the beginning of a text. The number bounds its depth and its lengths. -/
def scanValue : ℕ → List Char → Option (PyJson F × List Char)
  | 0, _ => none
  | n + 1, text =>
    match text with
    | '"' :: rest => (scanString rest).map fun r => (.str r.1, r.2)
    | '{' :: rest => scanDict (scanValue n) n rest
    | '[' :: rest => scanList (scanValue n) n rest
    | text => scanAtom text

/-- The value of a text, if it is a JSON text. -/
def loads (text : List Char) : Option (PyJson F) := do
  let (value, rest) ← scanValue (text.length + 1) (skipSpace text)
  if skipSpace rest = [] then pure value else none

end Python

end Ao2
