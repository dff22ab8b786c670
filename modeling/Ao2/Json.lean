import Mathlib.Tactic.Common

/-!
# JSON values

The values that the run directory is written in. Serialisation to bytes is not modelled: a file or
a digest input that the runtime writes as JSON is the value itself here. An object lists its members
in the order of their keys, as the maps behind the runtime's values do.
-/

namespace Ao2

/-- A JSON value. -/
inductive Json where
  | null
  | bool (b : Bool)
  | num (n : Int)
  | str (s : String)
  | arr (items : List Json)
  | obj (members : List (String × Json))

namespace Json

/-! ### Decidable equality -/

mutual

/-- Equality of values. -/
def decEq : (a b : Json) → Decidable (a = b)
  | .null, .null => isTrue rfl
  | .bool a, .bool b => decidable_of_iff (a = b) (by simp)
  | .num a, .num b => decidable_of_iff (a = b) (by simp)
  | .str a, .str b => decidable_of_iff (a = b) (by simp)
  | .arr xs, .arr ys => @decidable_of_iff _ (xs = ys) (by simp) (decEqItems xs ys)
  | .obj fs, .obj gs => @decidable_of_iff _ (fs = gs) (by simp) (decEqMembers fs gs)
  | .null, .bool _ | .null, .num _ | .null, .str _ | .null, .arr _ | .null, .obj _
  | .bool _, .null | .bool _, .num _ | .bool _, .str _ | .bool _, .arr _ | .bool _, .obj _
  | .num _, .null | .num _, .bool _ | .num _, .str _ | .num _, .arr _ | .num _, .obj _
  | .str _, .null | .str _, .bool _ | .str _, .num _ | .str _, .arr _ | .str _, .obj _
  | .arr _, .null | .arr _, .bool _ | .arr _, .num _ | .arr _, .str _ | .arr _, .obj _
  | .obj _, .null | .obj _, .bool _ | .obj _, .num _ | .obj _, .str _ | .obj _, .arr _ =>
    isFalse (by simp)

/-- Equality of the items of two arrays. -/
def decEqItems : (xs ys : List Json) → Decidable (xs = ys)
  | [], [] => isTrue rfl
  | [], _ :: _ | _ :: _, [] => isFalse (by simp)
  | x :: xs, y :: ys =>
    @decidable_of_iff _ (x = y ∧ xs = ys) (by simp)
      (@instDecidableAnd _ _ (decEq x y) (decEqItems xs ys))

/-- Equality of the members of two objects. -/
def decEqMembers : (fs gs : List (String × Json)) → Decidable (fs = gs)
  | [], [] => isTrue rfl
  | [], _ :: _ | _ :: _, [] => isFalse (by simp)
  | (k, x) :: fs, (l, y) :: gs =>
    @decidable_of_iff _ (k = l ∧ x = y ∧ fs = gs) (by simp [and_assoc])
      (@instDecidableAnd _ _ inferInstance
        (@instDecidableAnd _ _ (decEq x y) (decEqMembers fs gs)))

end

instance : DecidableEq Json := decEq

/-! ### Accessors -/

/-- The member of an object under a key; nothing for a value of another kind. -/
def get? (key : String) : Json → Option Json
  | .obj members => members.lookup key
  | _ => none

/-- The text of a string value. -/
def str? : Json → Option String
  | .str s => some s
  | _ => none

/-- The truth value of a boolean value. -/
def bool? : Json → Option Bool
  | .bool b => some b
  | _ => none

/-- The items of an array value. -/
def arr? : Json → Option (List Json)
  | .arr items => some items
  | _ => none

def isObject : Json → Bool
  | .obj _ => true
  | _ => false

/-- The value with a member of an object set, in the place its key belongs. -/
def setMember (v : Json) (key : String) (value : Json) : Json :=
  match v with
  | .obj members => .obj (go members)
  | v => v
where
  go : List (String × Json) → List (String × Json)
    | [] => [(key, value)]
    | (k, v) :: rest =>
      if k = key then (key, value) :: rest
      else if key < k then (key, value) :: (k, v) :: rest
      else (k, v) :: go rest

/-- A natural number from a member that holds one; zero otherwise. -/
def natMember (value : Json) (key : String) : ℕ :=
  match value.get? key with
  | some (.num n) => n.toNat
  | _ => 0

/-- The value of an optional field: `null` when it is absent. -/
def ofOption {α : Type} (toJson : α → Json) : Option α → Json
  | none => .null
  | some a => toJson a

/-- A list of strings as an array. -/
def strs (ss : List String) : Json := .arr (ss.map .str)

/-- A natural number. -/
def nat (n : ℕ) : Json := .num n

end Json

end Ao2
