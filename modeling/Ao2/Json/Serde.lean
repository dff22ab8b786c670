import Ao2.Json

/-!
# Values with floats, and reading back what was printed

The values of `Ao2.Json` have no floats. Where floats matter, a value is one of these: the floats
are those of a type `F`, and all that is known of them is which float a reader makes of the digits
that were printed for one. A reader of printed text also gives up on values that are nested too deeply.

## Main results

* `SerdeValue.traverse_eq_self_iff` — a value is read as itself iff its floats are
* `SerdeValue.get?_traverse` — members are read one by one
-/

namespace Ao2

/-- A JSON value whose floats are of type `F`. -/
inductive SerdeValue (F : Type) where
  | null
  | bool (b : Bool)
  | int (n : Int)
  | float (x : F)
  | str (s : String)
  | arr (items : List (SerdeValue F))
  | obj (members : List (String × SerdeValue F))

/-- What a reader makes of the digits that are printed for a float: a float, or nothing where they
are out of its range. -/
class DoubleText (F : Type) where
  readBack : F → Option F

export DoubleText (readBack)

namespace SerdeValue

variable {F : Type}

/-! ### Accessors -/

/-- The member of an object under a key; nothing for a value of another kind. -/
def get? (key : String) : SerdeValue F → Option (SerdeValue F)
  | .obj members => members.lookup key
  | _ => none

/-- `value[key]`. -/
def index (v : SerdeValue F) (key : String) : SerdeValue F := (v.get? key).getD .null

def str? : SerdeValue F → Option String
  | .str s => some s
  | _ => none

def arr? : SerdeValue F → Option (List (SerdeValue F))
  | .arr items => some items
  | _ => none

def isNull : SerdeValue F → Bool
  | .null => true
  | _ => false

/-- The value of an optional field: `null` when it is absent. -/
def ofOption {α : Type} (toValue : α → SerdeValue F) : Option α → SerdeValue F
  | none => .null
  | some a => toValue a

/-! ### What is in a value

Floats and nesting, each with the lemma that says of the items and the members of a value what is
said of the value. -/

mutual

/-- The floats of a value, in its order. -/
def floats : SerdeValue F → List F
  | .float x => [x]
  | .arr items => floatsItems items
  | .obj members => floatsMembers members
  | .null | .bool _ | .int _ | .str _ => []

def floatsItems : List (SerdeValue F) → List F
  | [] => []
  | v :: vs => floats v ++ floatsItems vs

def floatsMembers : List (String × SerdeValue F) → List F
  | [] => []
  | (_, v) :: members => floats v ++ floatsMembers members

end

theorem mem_floatsItems {x : F} : ∀ {items : List (SerdeValue F)},
    x ∈ floatsItems items ↔ ∃ v ∈ items, x ∈ v.floats
  | [] => by simp [floatsItems]
  | v :: vs => by simp [floatsItems, @mem_floatsItems _ vs]

theorem mem_floatsMembers {x : F} : ∀ {members : List (String × SerdeValue F)},
    x ∈ floatsMembers members ↔ ∃ m ∈ members, x ∈ m.2.floats
  | [] => by simp [floatsMembers]
  | (k, v) :: members => by simp [floatsMembers, @mem_floatsMembers _ members]

mutual

/-- How many arrays and objects a value is nested in itself. -/
def depth : SerdeValue F → ℕ
  | .arr items => depthItems items + 1
  | .obj members => depthMembers members + 1
  | .null | .bool _ | .int _ | .float _ | .str _ => 0

def depthItems : List (SerdeValue F) → ℕ
  | [] => 0
  | v :: vs => max (depth v) (depthItems vs)

def depthMembers : List (String × SerdeValue F) → ℕ
  | [] => 0
  | (_, v) :: members => max (depth v) (depthMembers members)

end

theorem depthItems_le_iff {n : ℕ} : ∀ {items : List (SerdeValue F)},
    depthItems items ≤ n ↔ ∀ v ∈ items, v.depth ≤ n
  | [] => by simp [depthItems]
  | v :: vs => by rw [depthItems, Nat.max_le, depthItems_le_iff, List.forall_mem_cons]

theorem depthMembers_le_iff {n : ℕ} : ∀ {members : List (String × SerdeValue F)},
    depthMembers members ≤ n ↔ ∀ m ∈ members, m.2.depth ≤ n
  | [] => by simp [depthMembers]
  | (k, v) :: members => by
    rw [depthMembers, Nat.max_le, depthMembers_le_iff, List.forall_mem_cons]

theorem depth_arr_le_iff {n : ℕ} {items : List (SerdeValue F)} :
    (SerdeValue.arr items).depth ≤ n + 1 ↔ ∀ v ∈ items, v.depth ≤ n := by
  rw [depth, Nat.add_le_add_iff_right, depthItems_le_iff]

theorem depth_obj_le_iff {n : ℕ} {members : List (String × SerdeValue F)} :
    (SerdeValue.obj members).depth ≤ n + 1 ↔ ∀ m ∈ members, m.2.depth ≤ n := by
  rw [depth, Nat.add_le_add_iff_right, depthMembers_le_iff]

/-! ### Replacing floats -/

mutual

/-- The value with every float replaced, if every one of them is. -/
def traverse (f : F → Option F) : SerdeValue F → Option (SerdeValue F)
  | .null => some .null
  | .bool b => some (.bool b)
  | .int n => some (.int n)
  | .float x => (f x).map .float
  | .str s => some (.str s)
  | .arr items => (traverseItems f items).map .arr
  | .obj members => (traverseMembers f members).map .obj

def traverseItems (f : F → Option F) : List (SerdeValue F) → Option (List (SerdeValue F))
  | [] => some []
  | v :: vs => (traverse f v).bind fun w => (traverseItems f vs).map (w :: ·)

def traverseMembers (f : F → Option F) :
    List (String × SerdeValue F) → Option (List (String × SerdeValue F))
  | [] => some []
  | (k, v) :: members =>
    (traverse f v).bind fun w => (traverseMembers f members).map ((k, w) :: ·)

end

variable {f : F → Option F}

mutual

/-- **A value is read as itself iff its floats are.** -/
theorem traverse_eq_self_iff : ∀ {v : SerdeValue F},
    v.traverse f = some v ↔ ∀ x ∈ v.floats, f x = some x
  | .null | .bool _ | .int _ | .str _ => by simp [traverse, floats]
  | .float x => by simp [traverse, floats]
  | .arr items => by simp [traverse, floats, @traverseItems_eq_self_iff items]
  | .obj members => by simp [traverse, floats, @traverseMembers_eq_self_iff members]

theorem traverseItems_eq_self_iff : ∀ {items : List (SerdeValue F)},
    traverseItems f items = some items ↔ ∀ x ∈ floatsItems items, f x = some x
  | [] => by simp [traverseItems, floatsItems]
  | v :: vs => by
    simp [traverseItems, floatsItems, Option.bind_eq_some_iff, or_imp, forall_and,
      @traverse_eq_self_iff v, @traverseItems_eq_self_iff vs]

theorem traverseMembers_eq_self_iff : ∀ {members : List (String × SerdeValue F)},
    traverseMembers f members = some members ↔ ∀ x ∈ floatsMembers members, f x = some x
  | [] => by simp [traverseMembers, floatsMembers]
  | (k, v) :: members => by
    simp [traverseMembers, floatsMembers, Option.bind_eq_some_iff, or_imp, forall_and,
      @traverse_eq_self_iff v, @traverseMembers_eq_self_iff members]

end

theorem lookup_traverseMembers {key : String} {u : SerdeValue F} :
    ∀ {members ms : List (String × SerdeValue F)}, traverseMembers f members = some ms →
      members.lookup key = some u → ∃ w, u.traverse f = some w ∧ ms.lookup key = some w
  | [], ms, _, hu => by cases hu
  | (k, v) :: members, ms, h, hu => by
    obtain ⟨w, hw, hrest⟩ := Option.bind_eq_some_iff.mp h
    obtain ⟨rest, hms, rfl⟩ := Option.map_eq_some_iff.mp hrest
    rw [List.lookup_cons] at hu ⊢
    cases hk : key == k <;> rw [hk] at hu
    case true =>
      cases hu
      exact ⟨w, hw, rfl⟩
    case false => exact lookup_traverseMembers hms hu

/-- **Members are read one by one.** -/
theorem get?_traverse {key : String} {v w u : SerdeValue F} (h : v.traverse f = some w)
    (hu : v.get? key = some u) : ∃ u', u.traverse f = some u' ∧ w.get? key = some u' := by
  cases v
  case obj members =>
    obtain ⟨ms, hms, rfl⟩ := Option.map_eq_some_iff.mp h
    exact lookup_traverseMembers hms hu
  all_goals cases hu

/-! ### Values without floats -/

mutual

/-- A value without floats. -/
def ofJson : Json → SerdeValue F
  | .null => .null
  | .bool b => .bool b
  | .num n => .int n
  | .str s => .str s
  | .arr items => .arr (ofJsonItems items)
  | .obj members => .obj (ofJsonMembers members)

def ofJsonItems : List Json → List (SerdeValue F)
  | [] => []
  | v :: vs => ofJson v :: ofJsonItems vs

def ofJsonMembers : List (String × Json) → List (String × SerdeValue F)
  | [] => []
  | (k, v) :: members => (k, ofJson v) :: ofJsonMembers members

end

mutual

theorem floats_ofJson : ∀ (v : Json), (ofJson v : SerdeValue F).floats = []
  | .null | .bool _ | .num _ | .str _ => rfl
  | .arr items => by rw [ofJson, floats, floats_ofJsonItems items]
  | .obj members => by rw [ofJson, floats, floats_ofJsonMembers members]

theorem floats_ofJsonItems : ∀ (items : List Json),
    floatsItems (ofJsonItems items : List (SerdeValue F)) = []
  | [] => rfl
  | v :: vs => by rw [ofJsonItems, floatsItems, floats_ofJson v, floats_ofJsonItems vs]; rfl

theorem floats_ofJsonMembers : ∀ (members : List (String × Json)),
    floatsMembers (ofJsonMembers members : List (String × SerdeValue F)) = []
  | [] => rfl
  | (k, v) :: members => by
    rw [ofJsonMembers, floatsMembers, floats_ofJson v, floats_ofJsonMembers members]
    rfl

end

theorem ofJsonItems_eq_map : ∀ (items : List Json),
    (ofJsonItems items : List (SerdeValue F)) = items.map ofJson
  | [] => rfl
  | v :: vs => by rw [ofJsonItems, ofJsonItems_eq_map vs, List.map_cons]

/-- Values without floats are read as themselves. -/
theorem traverse_ofJson (v : Json) : (ofJson v).traverse f = some (ofJson v) := by
  rw [traverse_eq_self_iff, floats_ofJson]
  intro x hx
  cases hx

/-! ### Reading printed text -/

/-- What is read of the text that a value is printed as. Below the limit of 128, an array or an
object may hold others; the one that would be the 128th is not read. -/
def reread [DoubleText F] (v : SerdeValue F) : Option (SerdeValue F) :=
  if v.depth < 128 then v.traverse readBack else none

theorem reread_eq_some_iff [DoubleText F] {v w : SerdeValue F} :
    v.reread = some w ↔ v.depth < 128 ∧ v.traverse readBack = some w := by
  rw [reread, Option.ite_none_right_eq_some]

/-- **A value is read back from its text iff** it is nested less than 128 deep and the floats in it
are read as themselves. -/
theorem reread_eq_self_iff [DoubleText F] {v : SerdeValue F} :
    v.reread = some v ↔ v.depth < 128 ∧ ∀ x ∈ v.floats, readBack x = some x := by
  rw [reread_eq_some_iff, traverse_eq_self_iff]

end SerdeValue

end Ao2
