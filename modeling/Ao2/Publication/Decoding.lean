import Ao2.Checks
import Ao2.Json.Objects
import Ao2.Publication.Contract

/-!
# Decoding a publication plan

The decoder of a plan takes the values as the JSON library reads them, and refuses an object with a key that
it has had already. What the library reads of a text is a `Reading`: the values that a visitor is handed one
after the other, up to where the text is broken.

## Main results

* `uniqueValue_eq_ok` — what is accepted, and as what
-/

namespace Ao2

namespace Publication

/-! ### Readings -/

/-- A value without parts. -/
inductive Scalar where
  | null
  | bool (b : Bool)
  | num (n : Int)
  | str (s : String)

def Scalar.toJson : Scalar → Json
  | null => .null
  | bool b => .bool b
  | num n => .num n
  | str s => .str s

/-- The values that a visitor is handed, up to where the text is broken: where it is no JSON, or too deep or too
large for the library. Keys are decoded. -/
inductive Reading where
  | scalar (s : Scalar)
  | seq (items : List Reading) (broken : Option String)
  | map (members : List (String × Reading)) (broken : Option String)
  | broken (message : String)

/-- What is read of a text, and what is wrong with what follows the value. -/
structure Document where
  value : Reading
  trailing : Option String

/-- The JSON library. -/
class JsonReader where
  read : List UInt8 → Document

/-- The end of a list of items or members. -/
def ending {α : Type} (a : α) : Option String → Except String α
  | none => .ok a
  | some message => .error message

/-! ### The strict decoder -/

mutual

/-- The visitor of a plan. -/
def uniqueValue : Reading → Except String Json
  | .scalar s => .ok s.toJson
  | .seq items broken => do
    let values ← uniqueItems broken items
    .ok (.arr values)
  | .map members broken => uniqueMembers broken (.obj []) members
  | .broken message => .error message

def uniqueItems (broken : Option String) : List Reading → Except String (List Json)
  | [] => ending [] broken
  | item :: items => do
    let value ← uniqueValue item
    let values ← uniqueItems broken items
    .ok (value :: values)

def uniqueMembers (broken : Option String) (values : Json) : List (String × Reading) → Except String Json
  | [] => ending values broken
  | (key, member) :: members => do
    bailIf (values.get? key ≠ none) ("duplicate field \"" ++ key ++ "\"")
    let value ← uniqueValue member
    uniqueMembers broken (values.put key value) members

end

/-- The first stage: the value of the text, and nothing after it. -/
def strictValue (document : Document) : Except String Json := do
  let value ← (uniqueValue document.value).mapError fun _ =>
    "publication plan is not strict duplicate-free JSON"
  (ending value document.trailing).mapError fun _ => "publication plan contains trailing JSON"

/-! ### Other decoders -/

mutual

/-- A decoder that settles by a rule what the members of an object say. -/
def decodeWith (rule : List (String × Json) → Json) : Reading → Except String Json
  | .scalar s => .ok s.toJson
  | .seq items broken => do
    let values ← decodeItems rule broken items
    .ok (.arr values)
  | .map members broken => do
    let values ← decodeMembers rule broken members
    .ok (rule values)
  | .broken message => .error message

def decodeItems (rule : List (String × Json) → Json) (broken : Option String) :
    List Reading → Except String (List Json)
  | [] => ending [] broken
  | item :: items => do
    let value ← decodeWith rule item
    let values ← decodeItems rule broken items
    .ok (value :: values)

def decodeMembers (rule : List (String × Json) → Json) (broken : Option String) :
    List (String × Reading) → Except String (List (String × Json))
  | [] => ending [] broken
  | (key, member) :: members => do
    let value ← decodeWith rule member
    let values ← decodeMembers rule broken members
    .ok ((key, value) :: values)

end

/-- The whole text, by a decoder. -/
def Document.decode (rule : List (String × Json) → Json) (document : Document) : Except String Json := do
  let value ← decodeWith rule document.value
  ending value document.trailing

/-- The ordinary decoder: the last member with a key counts. -/
def lastCounts : List (String × Json) → Json := Json.object

/-- A rule that takes an object without repeated keys as it is. -/
def Settles (rule : List (String × Json) → Json) : Prop :=
  ∀ members, (members.map Prod.fst).Nodup → rule members = Json.object members

/-! ### What is accepted -/

mutual

/-- Nothing is broken. -/
def Reading.Whole : Reading → Prop
  | .scalar _ => True
  | .seq items broken => broken = none ∧ wholeItems items
  | .map members broken => broken = none ∧ wholeMembers members
  | .broken _ => False

def wholeItems : List Reading → Prop
  | [] => True
  | item :: items => item.Whole ∧ wholeItems items

def wholeMembers : List (String × Reading) → Prop
  | [] => True
  | (_, member) :: members => member.Whole ∧ wholeMembers members

end

mutual

/-- No object has a key twice, at any depth. -/
def Reading.Unique : Reading → Prop
  | .scalar _ | .broken _ => True
  | .seq items _ => uniqueAllItems items
  | .map members _ => (members.map Prod.fst).Nodup ∧ uniqueAllMembers members

def uniqueAllItems : List Reading → Prop
  | [] => True
  | item :: items => item.Unique ∧ uniqueAllItems items

def uniqueAllMembers : List (String × Reading) → Prop
  | [] => True
  | (_, member) :: members => member.Unique ∧ uniqueAllMembers members

end

/-- The text is one value, with nothing but blanks after it. -/
def Document.OneValue (document : Document) : Prop := document.value.Whole ∧ document.trailing = none

theorem ending_eq_ok {α : Type} {a b : α} {broken : Option String} :
    ending a broken = .ok b ↔ broken = none ∧ a = b := by
  cases broken <;> simp [ending]

section

variable (rule : List (String × Json) → Json)

mutual

/-- A decoder reads what is whole, and nothing else. -/
theorem exists_decodeWith : ∀ r : Reading, (∃ v, decodeWith rule r = .ok v) ↔ r.Whole
  | .scalar s => by simp [decodeWith, Reading.Whole]
  | .seq items broken => by
    rw [Reading.Whole, ← exists_decodeItems broken items]
    simp [decodeWith]
  | .map members broken => by
    rw [Reading.Whole, ← exists_decodeMembers broken members]
    simp [decodeWith]
  | .broken message => by simp [decodeWith, Reading.Whole]

theorem exists_decodeItems (broken : Option String) : ∀ items : List Reading,
    (∃ vs, decodeItems rule broken items = .ok vs) ↔ broken = none ∧ wholeItems items
  | [] => by simp [decodeItems, wholeItems, ending_eq_ok]
  | item :: items => by
    rw [wholeItems, ← exists_decodeWith item, and_left_comm,
      ← exists_decodeItems broken items]
    simp [decodeItems]

theorem exists_decodeMembers (broken : Option String) : ∀ members : List (String × Reading),
    (∃ vs, decodeMembers rule broken members = .ok vs) ↔ broken = none ∧ wholeMembers members
  | [] => by simp [decodeMembers, wholeMembers, ending_eq_ok]
  | (key, member) :: members => by
    rw [wholeMembers, ← exists_decodeWith member, and_left_comm,
      ← exists_decodeMembers broken members]
    simp [decodeMembers]

end

variable {rule}

/-- A decoder keeps the keys. -/
theorem keys_of_decodeMembers {broken : Option String} {members : List (String × Reading)}
    {values : List (String × Json)} (h : decodeMembers rule broken members = .ok values) :
    values.map Prod.fst = members.map Prod.fst := by
  induction members generalizing values with
  | nil =>
    rw [decodeMembers, ending_eq_ok] at h
    rw [← h.2]
    rfl
  | cons m members ih =>
    obtain ⟨key, member⟩ := m
    simp only [decodeMembers, bind_eq_ok, Except.ok.injEq] at h
    obtain ⟨value, -, rest, hrest, rfl⟩ := h
    simp [ih hrest]

mutual

/-- **All decoders agree** on a reading in which no object has a key twice. -/
theorem decodeWith_of_unique (hrule : Settles rule) : ∀ {r : Reading}, r.Unique →
    decodeWith rule r = decodeWith lastCounts r
  | .scalar _, _ => by rw [decodeWith, decodeWith]
  | .seq items broken, h => by
    rw [Reading.Unique] at h
    rw [decodeWith, decodeWith, decodeItems_of_unique hrule h]
  | .map members broken, h => by
    rw [Reading.Unique] at h
    rw [decodeWith, decodeWith, decodeMembers_of_unique hrule h.2]
    cases hvalues : decodeMembers lastCounts broken members with
    | error message => rfl
    | ok values =>
      refine congrArg Except.ok (hrule values ?_)
      rw [keys_of_decodeMembers hvalues]
      exact h.1
  | .broken _, _ => by rw [decodeWith, decodeWith]

theorem decodeItems_of_unique (hrule : Settles rule) {broken : Option String} :
    ∀ {items : List Reading}, uniqueAllItems items →
      decodeItems rule broken items = decodeItems lastCounts broken items
  | [], _ => by rw [decodeItems, decodeItems]
  | item :: items, h => by
    rw [uniqueAllItems] at h
    rw [decodeItems, decodeItems, decodeWith_of_unique hrule h.1, decodeItems_of_unique hrule h.2]

theorem decodeMembers_of_unique (hrule : Settles rule) {broken : Option String} :
    ∀ {members : List (String × Reading)}, uniqueAllMembers members →
      decodeMembers rule broken members = decodeMembers lastCounts broken members
  | [], _ => by rw [decodeMembers, decodeMembers]
  | (key, member) :: members, h => by
    rw [uniqueAllMembers] at h
    rw [decodeMembers, decodeMembers, decodeWith_of_unique hrule h.1, decodeMembers_of_unique hrule h.2]

end

end

mutual

/-- **What the visitor accepts, and as what**: what the ordinary decoder reads, without repeated keys. -/
theorem uniqueValue_eq_ok : ∀ {r : Reading} {v : Json},
    uniqueValue r = .ok v ↔ decodeWith lastCounts r = .ok v ∧ r.Unique
  | .scalar s, v => by simp [uniqueValue, decodeWith, Reading.Unique]
  | .seq items broken, v => by
    simp only [uniqueValue, decodeWith, Reading.Unique, bind_eq_ok, uniqueItems_eq_ok]
    constructor
    · rintro ⟨values, ⟨hvalues, hunique⟩, h⟩
      exact ⟨⟨values, hvalues, h⟩, hunique⟩
    · rintro ⟨⟨values, hvalues, h⟩, hunique⟩
      exact ⟨values, ⟨hvalues, hunique⟩, h⟩
  | .map members broken, v => by
    simp only [uniqueValue, decodeWith, Reading.Unique, bind_eq_ok, Except.ok.injEq]
    rw [uniqueMembers_eq_ok rfl]
    constructor
    · rintro ⟨values, hvalues, hv, hunique, hnodup, -⟩
      exact ⟨⟨values, hvalues, hv⟩, hnodup, hunique⟩
    · rintro ⟨⟨values, hvalues, hv⟩, hnodup, hunique⟩
      exact ⟨values, hvalues, hv, hunique, hnodup, fun _ _ => rfl⟩
  | .broken message, v => by simp [uniqueValue, decodeWith]

theorem uniqueItems_eq_ok {broken : Option String} : ∀ {items : List Reading} {values : List Json},
    uniqueItems broken items = .ok values ↔
      decodeItems lastCounts broken items = .ok values ∧ uniqueAllItems items
  | [], values => by simp [uniqueItems, decodeItems, uniqueAllItems]
  | item :: items, values => by
    simp only [uniqueItems, decodeItems, uniqueAllItems, bind_eq_ok, uniqueValue_eq_ok, uniqueItems_eq_ok]
    constructor
    · rintro ⟨value, ⟨hvalue, hunique⟩, rest, ⟨hrest, huniqueRest⟩, h⟩
      exact ⟨⟨value, hvalue, rest, hrest, h⟩, hunique, huniqueRest⟩
    · rintro ⟨⟨value, hvalue, rest, hrest, h⟩, hunique, huniqueRest⟩
      exact ⟨value, ⟨hvalue, hunique⟩, rest, ⟨hrest, huniqueRest⟩, h⟩

/-- The members are put into an object one after the other, none of them over another. -/
theorem uniqueMembers_eq_ok {broken : Option String} : ∀ {members : List (String × Reading)} {values v : Json},
    values.isObject = true →
    (uniqueMembers broken values members = .ok v ↔ ∃ read, decodeMembers lastCounts broken members = .ok read ∧
      values.putAll read = v ∧ uniqueAllMembers members ∧ (members.map Prod.fst).Nodup ∧
      ∀ key ∈ members.map Prod.fst, values.get? key = none)
  | [], values, v, _ => by
    simp only [uniqueMembers, decodeMembers, uniqueAllMembers, ending_eq_ok, List.map_nil, List.nodup_nil,
      List.not_mem_nil, false_imp_iff, implies_true, and_true]
    constructor
    · rintro ⟨hbroken, rfl⟩
      exact ⟨[], ⟨hbroken, rfl⟩, rfl⟩
    · rintro ⟨read, ⟨hbroken, rfl⟩, rfl⟩
      exact ⟨hbroken, rfl⟩
  | (key, member) :: members, values, v, hobject => by
    simp only [uniqueMembers, decodeMembers, uniqueAllMembers, bailIf_eq_ok, not_not, bind_eq_ok,
      uniqueValue_eq_ok, List.map_cons, List.nodup_cons, List.forall_mem_cons, Except.ok.injEq]
    constructor
    · rintro ⟨-, hnew, value, ⟨hvalue, hunique⟩, hrest⟩
      obtain ⟨read, hread, hv, huniqueRest, hnodup, hfresh⟩ :=
        (uniqueMembers_eq_ok (Json.isObject_put hobject)).mp hrest
      refine ⟨(key, value) :: read, ⟨value, hvalue, read, hread, rfl⟩, hv, ⟨hunique, huniqueRest⟩,
        ⟨fun hmem => ?_, hnodup⟩, hnew, fun key' hkey' => ?_⟩
      · cases (Json.get?_put_self hobject).symm.trans (hfresh key hmem)
      · by_cases heq : key' = key
        · rw [heq]
          exact hnew
        · rw [← Json.get?_put_of_ne heq hobject]
          exact hfresh key' hkey'
    · rintro ⟨_, ⟨value, hvalue, read, hread, rfl⟩, hv, ⟨hunique, huniqueRest⟩, ⟨hnotMem, hnodup⟩, hnew, hfresh⟩
      refine ⟨(), hnew, value, ⟨hvalue, hunique⟩, (uniqueMembers_eq_ok (Json.isObject_put hobject)).mpr
        ⟨read, hread, hv, huniqueRest, hnodup, fun key' hkey' => ?_⟩⟩
      rw [Json.get?_put_of_ne (fun heq : key' = key => hnotMem (by rwa [← heq])) hobject]
      exact hfresh key' hkey'

end

end Publication

end Ao2
