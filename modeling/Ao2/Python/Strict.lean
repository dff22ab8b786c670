import Ao2.Python.Json
import Mathlib.Data.List.TakeDrop
import Mathlib.Data.List.TakeWhile

/-!
# Reading JSON within the limits of the interpreter

`json.loads` raises a `JSONDecodeError` for what is no JSON text. It raises something else where the
interpreter has a limit: a `RecursionError` where too many containers are open at once, and a plain
`ValueError` for an integer with too many digits. Which of them is raised depends on what comes first in
the text. The reader here keeps the pairs of every object as they are written, for a hook that looks for
keys that are there twice.

## Main results

* `hasDuplicateKeys_eq_false_iff`, `strictObject_of_noDuplicateKeys` — without such keys the pairs are
  the value
* `loadsPairs_digits` — a sequence of digits that is too long
-/

namespace Ao2

namespace Python

/-! ### Reading -/

/-- How many containers may be open at once, and how many digits an integer may have. -/
structure LoadLimits where
  containers : ℕ
  digits : ℕ

/-- What `json.loads` raises. -/
inductive LoadError where
  | decodeError
  | valueError
  | recursionError
  deriving DecidableEq

/-- The number of digits at the beginning of a text, before what is left of it. -/
def digitsBefore (text rest : List Char) : ℕ :=
  (text.take (text.length - rest.length)).countP Char.isDigit

variable {F : Type} [FloatText F]

/-- A number, or a name that has a value. -/
def scanAtomWithin (digits : ℕ) (text : List Char) : Except LoadError (PyJson F × List Char) :=
  match scanAtom text with
  | none => .error .decodeError
  | some (.int n, rest) =>
    if digits < digitsBefore text rest then .error .valueError else .ok (.int n, rest)
  | some (value, rest) => .ok (value, rest)

/-- Read the items of a list, up to its closing bracket. There are no more than the text has letters. -/
def scanItemsWithin (value : List Char → Except LoadError (PyJson F × List Char)) :
    ℕ → List Char → Except LoadError (List (PyJson F) × List Char)
  | 0, _ => .error .decodeError
  | n + 1, text => do
    let (item, rest) ← value text
    match skipSpace rest with
    | ',' :: rest =>
      let (items, rest) ← scanItemsWithin value n (skipSpace rest)
      pure (item :: items, rest)
    | ']' :: rest => pure ([item], rest)
    | _ => .error .decodeError

/-- Read a member of an object. -/
def scanPair (value : List Char → Except LoadError (PyJson F × List Char)) :
    List Char → Except LoadError ((PyStr × PyJson F) × List Char)
  | '"' :: text =>
    match scanString text with
    | none => .error .decodeError
    | some (key, rest) =>
      match scanColon (skipSpace rest) with
      | none => .error .decodeError
      | some rest => do
        let (v, rest) ← value (skipSpace rest)
        pure ((key, v), rest)
  | _ => .error .decodeError

/-- Read the members of an object, up to its closing bracket. -/
def scanPairs (value : List Char → Except LoadError (PyJson F × List Char)) :
    ℕ → List Char → Except LoadError (List (PyStr × PyJson F) × List Char)
  | 0, _ => .error .decodeError
  | n + 1, text => do
    let (m, rest) ← scanPair value text
    match skipSpace rest with
    | ',' :: rest =>
      let (members, rest) ← scanPairs value n (skipSpace rest)
      pure (m :: members, rest)
    | '}' :: rest => pure ([m], rest)
    | _ => .error .decodeError

/-- Read a list after its opening bracket. -/
def scanListWithin (value : List Char → Except LoadError (PyJson F × List Char)) (n : ℕ)
    (text : List Char) : Except LoadError (PyJson F × List Char) :=
  match skipSpace text with
  | ']' :: rest => .ok (.list [], rest)
  | rest => (scanItemsWithin value n rest).map fun r => (.list r.1, r.2)

/-- Read an object after its opening bracket, with its pairs as they are written. -/
def scanObjectWithin (value : List Char → Except LoadError (PyJson F × List Char)) (n : ℕ)
    (text : List Char) : Except LoadError (PyJson F × List Char) :=
  match skipSpace text with
  | '}' :: rest => .ok (.dict [], rest)
  | rest => (scanPairs value n rest).map fun r => (.dict r.1, r.2)

/-- Read a value that is no container. -/
def scanPlain (digits : ℕ) : List Char → Except LoadError (PyJson F × List Char)
  | '"' :: text =>
    match scanString text with
    | none => .error .decodeError
    | some (s, rest) => .ok (.str s, rest)
  | text => scanAtomWithin digits text

/-- Read the value at the beginning of a text, of so many letters, with so many containers to open. -/
def scanValueWithin (digits n : ℕ) : ℕ → List Char → Except LoadError (PyJson F × List Char)
  | 0, text => if text.head? ∈ [some '{', some '['] then .error .recursionError else scanPlain digits text
  | containers + 1, text =>
    match text with
    | '{' :: rest => scanObjectWithin (scanValueWithin digits n containers) n rest
    | '[' :: rest => scanListWithin (scanValueWithin digits n containers) n rest
    | text => scanPlain digits text

/-- `json.loads(text)`, with the pairs of objects as they are written. -/
def loadsPairs (limits : LoadLimits) (text : List Char) : Except LoadError (PyJson F) := do
  let (value, rest) ← scanValueWithin limits.digits text.length limits.containers (skipSpace text)
  if skipSpace rest = [] then .ok value else .error .decodeError

/-! ### Objects -/

omit [FloatText F]

mutual

/-- What the hook makes of a value: of two members with the same key the later one counts. -/
def strictObject : PyJson F → PyJson F
  | .list items => .list (strictItems items)
  | .dict members => .dict (ofPairs (strictMembers members))
  | .null => .null
  | .bool b => .bool b
  | .int n => .int n
  | .float x => .float x
  | .str s => .str s

def strictItems : List (PyJson F) → List (PyJson F)
  | [] => []
  | item :: items => strictObject item :: strictItems items

def strictMembers : List (PyStr × PyJson F) → List (PyStr × PyJson F)
  | [] => []
  | (key, value) :: members => (key, strictObject value) :: strictMembers members

end

/-- A key is there twice. -/
def hasDuplicate : List PyStr → Bool
  | [] => false
  | key :: keys => key ∈ keys || hasDuplicate keys

mutual

/-- The hook notices a key that is there twice, in whatever object. -/
def hasDuplicateKeys : PyJson F → Bool
  | .list items => hasDuplicateItems items
  | .dict members => hasDuplicate (members.map Prod.fst) || hasDuplicateMembers members
  | .null | .bool _ | .int _ | .float _ | .str _ => false

def hasDuplicateItems : List (PyJson F) → Bool
  | [] => false
  | item :: items => hasDuplicateKeys item || hasDuplicateItems items

def hasDuplicateMembers : List (PyStr × PyJson F) → Bool
  | [] => false
  | (_, value) :: members => hasDuplicateKeys value || hasDuplicateMembers members

end

mutual

/-- No object in the value, at whatever depth, has a key twice. -/
def NoDuplicateKeys : PyJson F → Prop
  | .list items => NoDuplicateItems items
  | .dict members => (members.map Prod.fst).Nodup ∧ NoDuplicateMembers members
  | .null | .bool _ | .int _ | .float _ | .str _ => True

def NoDuplicateItems : List (PyJson F) → Prop
  | [] => True
  | item :: items => NoDuplicateKeys item ∧ NoDuplicateItems items

def NoDuplicateMembers : List (PyStr × PyJson F) → Prop
  | [] => True
  | (_, value) :: members => NoDuplicateKeys value ∧ NoDuplicateMembers members

end

theorem hasDuplicate_eq_false_iff (keys : List PyStr) : hasDuplicate keys = false ↔ keys.Nodup := by
  induction keys with
  | nil => simp [hasDuplicate]
  | cons key keys ih => simp [hasDuplicate, ih]

mutual

theorem hasDuplicateKeys_eq_false_iff :
    (v : PyJson F) → (hasDuplicateKeys v = false ↔ NoDuplicateKeys v)
  | .list items => hasDuplicateItems_eq_false_iff items
  | .dict members => by
    rw [hasDuplicateKeys, NoDuplicateKeys, Bool.or_eq_false_iff, hasDuplicate_eq_false_iff,
      hasDuplicateMembers_eq_false_iff members]
  | .null | .bool _ | .int _ | .float _ | .str _ => by simp [hasDuplicateKeys, NoDuplicateKeys]

theorem hasDuplicateItems_eq_false_iff :
    (items : List (PyJson F)) → (hasDuplicateItems items = false ↔ NoDuplicateItems items)
  | [] => by simp [hasDuplicateItems, NoDuplicateItems]
  | item :: items => by
    rw [hasDuplicateItems, NoDuplicateItems, Bool.or_eq_false_iff, hasDuplicateKeys_eq_false_iff item,
      hasDuplicateItems_eq_false_iff items]

theorem hasDuplicateMembers_eq_false_iff :
    (members : List (PyStr × PyJson F)) → (hasDuplicateMembers members = false ↔ NoDuplicateMembers members)
  | [] => by simp [hasDuplicateMembers, NoDuplicateMembers]
  | (key, value) :: members => by
    rw [hasDuplicateMembers, NoDuplicateMembers, Bool.or_eq_false_iff, hasDuplicateKeys_eq_false_iff value,
      hasDuplicateMembers_eq_false_iff members]

end

mutual

/-- **Without such keys** the hook leaves a value as it is written. -/
theorem strictObject_of_noDuplicateKeys : (v : PyJson F) → NoDuplicateKeys v → strictObject v = v
  | .list items, h => by rw [strictObject, strictItems_of_noDuplicateItems items h]
  | .dict members, h => by
    rw [strictObject, strictMembers_of_noDuplicateMembers members h.2, ofPairs_of_nodup h.1]
  | .null, _ | .bool _, _ | .int _, _ | .float _, _ | .str _, _ => by rfl

theorem strictItems_of_noDuplicateItems :
    (items : List (PyJson F)) → NoDuplicateItems items → strictItems items = items
  | [], _ => rfl
  | item :: items, h => by
    rw [strictItems, strictObject_of_noDuplicateKeys item h.1, strictItems_of_noDuplicateItems items h.2]

theorem strictMembers_of_noDuplicateMembers :
    (members : List (PyStr × PyJson F)) → NoDuplicateMembers members → strictMembers members = members
  | [], _ => rfl
  | (key, value) :: members, h => by
    rw [strictMembers, strictObject_of_noDuplicateKeys value h.1,
      strictMembers_of_noDuplicateMembers members h.2]

end

/-! ### Limits -/

section

variable [FloatText F]

theorem span_digits (n : ℕ) {c : Char} (hc : c.isDigit = true) :
    spanDigits (List.replicate n c) = (List.replicate n c, []) := by
  rw [spanDigits, List.span_eq_takeWhile_dropWhile, Prod.mk.injEq]
  exact ⟨List.takeWhile_eq_self_iff.mpr fun d hd => List.eq_of_mem_replicate hd ▸ hc,
    List.dropWhile_eq_nil_iff.mpr fun d hd => List.eq_of_mem_replicate hd ▸ hc⟩

/-- **A sequence of digits that is too long** raises a plain `ValueError`. -/
theorem loadsPairs_digits {limits : LoadLimits} {n : ℕ} (h : limits.digits < n + 1) :
    loadsPairs (F := F) limits (List.replicate (n + 1) '1') = .error .valueError := by
  have hspan := span_digits n (c := '1') (by decide)
  have hunsigned : scanUnsigned (F := F) false (List.replicate (n + 1) '1') =
      some (.int (digitsValue (List.replicate (n + 1) '1')), []) := by
    rw [List.replicate_succ, scanUnsigned, scanWhole, if_neg (by decide), if_pos (by decide), hspan]
    rfl
  have hatom : scanAtom (F := F) (List.replicate (n + 1) '1') =
      some (.int (digitsValue (List.replicate (n + 1) '1')), []) := hunsigned
  have hcount : digitsBefore (List.replicate (n + 1) '1') [] = n + 1 := by
    rw [digitsBefore, List.length_nil, Nat.sub_zero, List.take_length, List.countP_replicate,
      if_pos (by decide)]
  have hwithin : scanAtomWithin (F := F) limits.digits (List.replicate (n + 1) '1') = .error .valueError := by
    rw [scanAtomWithin, hatom]
    dsimp only
    rw [hcount, if_pos h]
  have hvalue : scanValueWithin (F := F) limits.digits (List.replicate (n + 1) '1').length limits.containers
      (List.replicate (n + 1) '1') = .error .valueError := by
    cases limits.containers <;> exact hwithin
  have hspace : skipSpace (List.replicate (n + 1) '1') = List.replicate (n + 1) '1' := by
    rw [List.replicate_succ, skipSpace, List.dropWhile_cons_of_neg (by decide)]
  rw [loadsPairs, hspace, hvalue]
  rfl

end

end Python

end Ao2
