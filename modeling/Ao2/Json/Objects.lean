import Ao2.Json
import Ao2.Texts

/-!
# Reading and writing members

What indexing a value with a key reads and assigns: a member that is not there is `null`, and `null`
that is assigned to becomes an object.

The decoder of a record reads its fields one by one. What it takes for a field is said by the type of
the field.

## Main results

* `Json.get?_putAll` — the last assignment to a key counts
* `field_of_lookup`, `unsigned?_nat`, `items?_strs`, `items?_map` — values that are written and read back
-/

namespace Ao2

namespace Json

/-- `value[key]`. -/
def index (v : Json) (key : String) : Json := (v.get? key).getD .null

/-- `value[key] = member`. The runtime assigns to objects and to `null` only. -/
def put (v : Json) (key : String) (member : Json) : Json :=
  match v with
  | .null => .obj [(key, member)]
  | v => v.setMember key member

/-- `value[outer][inner] = member`. -/
def putIn (v : Json) (outer inner : String) (member : Json) : Json :=
  v.put outer ((v.index outer).put inner member)

/-- Assignments one after the other. -/
def putAll (v : Json) (members : List (String × Json)) : Json :=
  members.foldl (fun v m => v.put m.1 m.2) v

/-- An object with these members. -/
def object (members : List (String × Json)) : Json := (Json.obj []).putAll members

/-! ### What is read after an assignment -/

variable {key key' : String} {member v : Json}

theorem isObject_of_get? (h : v.get? key = some member) : v.isObject = true := by
  cases v with
  | obj members => rfl
  | _ => cases h

theorem lookup_go_self (members : List (String × Json)) :
    (setMember.go key member members).lookup key = some member := by
  induction members with
  | nil => simp [setMember.go]
  | cons m members ih =>
    obtain ⟨k, u⟩ := m
    rw [setMember.go]
    by_cases hk : k = key
    · simp [hk]
    · rw [if_neg hk]
      by_cases hlt : key < k
      · simp [hlt]
      · rw [if_neg hlt, List.lookup_cons, beq_eq_false_iff_ne.mpr (Ne.symm hk)]
        exact ih

theorem lookup_go_of_ne (h : key' ≠ key) (members : List (String × Json)) :
    (setMember.go key member members).lookup key' = members.lookup key' := by
  have hself : (key' == key) = false := beq_eq_false_iff_ne.mpr h
  induction members with
  | nil => simp [setMember.go, List.lookup_cons, hself]
  | cons m members ih =>
    obtain ⟨k, u⟩ := m
    rw [setMember.go]
    by_cases hk : k = key
    · rw [if_pos hk, List.lookup_cons, List.lookup_cons, hk, hself]
    · rw [if_neg hk]
      by_cases hlt : key < k
      · rw [if_pos hlt, List.lookup_cons, hself]
      · rw [if_neg hlt, List.lookup_cons, List.lookup_cons, ih]

theorem isObject_put (h : v.isObject = true) : (v.put key member).isObject = true := by
  cases v with
  | obj members => rfl
  | _ => cases h

theorem get?_put_self (h : v.isObject = true) : (v.put key member).get? key = some member := by
  cases v with
  | obj members => exact lookup_go_self members
  | _ => cases h

theorem get?_put_of_ne (hne : key' ≠ key) (h : v.isObject = true) :
    (v.put key member).get? key' = v.get? key' := by
  cases v with
  | obj members => exact lookup_go_of_ne hne members
  | _ => cases h

theorem isObject_putAll {members : List (String × Json)} (h : v.isObject = true) :
    (v.putAll members).isObject = true := by
  induction members generalizing v with
  | nil => exact h
  | cons m members ih => exact ih (isObject_put h)

/-- **The last assignment to a key counts**, by induction on the assignments. -/
theorem get?_putAll {members : List (String × Json)} (h : v.isObject = true) (key : String) :
    (v.putAll members).get? key = (members.reverse.lookup key).or (v.get? key) := by
  induction members generalizing v with
  | nil => rfl
  | cons m members ih =>
    obtain ⟨k, u⟩ := m
    rw [putAll, List.foldl_cons]
    refine (ih (isObject_put h)).trans ?_
    rw [List.reverse_cons, List.lookup_append, Option.or_assoc]
    refine congrArg _ ?_
    by_cases hk : key = k
    · subst hk
      rw [get?_put_self h]
      simp
    · rw [get?_put_of_ne hk h, List.lookup_cons, beq_eq_false_iff_ne.mpr hk]
      rfl

/-- What is read of an object that is written out. -/
theorem get?_object (members : List (String × Json)) (key : String) :
    (object members).get? key = members.reverse.lookup key := by
  rw [object, get?_putAll rfl, get?, List.lookup_nil, Option.or_none]

theorem index_eq (h : v.get? key = some member) : v.index key = member := by
  rw [index, h, Option.getD_some]

end Json

/-- `json_string`: a member as a text. What is no text is written out. -/
def jsonStringOf (v : Json) (key : String) : String :=
  match v.get? key with
  | some (.str s) => s
  | some .null | none => ""
  | some other => other.compact

theorem jsonStringOf_eq {v : Json} {key s : String} (h : v.get? key = some (.str s)) :
    jsonStringOf v key = s := by
  rw [jsonStringOf, h]

end Ao2

/-! ## Values of declared types -/

namespace Ao2

namespace Json

/-- The fields that a value has of a record with these fields. -/
def fieldsOf (fields : List String) : Json → Option (List (String × Json))
  | .obj members =>
    if (members.map Prod.fst).Nodup ∧ ∀ m ∈ members, m.1 ∈ fields then some members else none
  | .arr items => if items.length = fields.length then some (fields.zip items) else none
  | _ => none

variable {α : Type}

/-- A field that has to be there. -/
def field (read : Json → Option α) (key : String) (members : List (String × Json)) : Option α :=
  (members.lookup key).bind read

/-- Nothing, or a value. -/
def nullable? (read : Json → Option α) : Json → Option (Option α)
  | .null => some none
  | v => (read v).map some

/-- A field that may be missing. -/
def optionalField (read : Json → Option α) (key : String) (members : List (String × Json)) :
    Option (Option α) :=
  match members.lookup key with
  | none => some none
  | some v => nullable? read v

/-- A whole number from zero on, below a bound. -/
def unsigned? (bound : ℕ) : Json → Option ℕ
  | .num n => if 0 ≤ n ∧ n < bound then some n.toNat else none
  | _ => none

/-- A `u64`. -/
def unsigned64? : Json → Option ℕ := unsigned? 18446744073709551616

def items? (read : Json → Option α) : Json → Option (List α)
  | .arr items => items.mapM read
  | _ => none

theorem field_of_lookup {read : Json → Option α} {key : String} {members : List (String × Json)}
    {v : Json} (h : members.lookup key = some v) : field read key members = read v := by
  rw [field, h, Option.bind_some]

theorem unsigned?_nat {bound n : ℕ} (h : n < bound) : unsigned? bound (.nat n) = some n := by
  have hbound : 0 ≤ (n : Int) ∧ (n : Int) < bound := by omega
  exact if_pos hbound

theorem lt_of_unsigned? {bound n : ℕ} {v : Json} (h : unsigned? bound v = some n) : n < bound := by
  cases v with
  | num i =>
    rw [unsigned?] at h
    split_ifs at h with hbound
    obtain rfl := Option.some.inj h
    omega
  | _ => cases h

theorem items?_strs (texts : List String) : items? str? (.strs texts) = some texts := by
  rw [Json.strs, items?]
  induction texts with
  | nil => rfl
  | cons text texts ih => rw [List.map_cons, List.mapM_cons, ih]; rfl

theorem items?_map {read : Json → Option α} {write : α → Json} {l : List α}
    (h : ∀ a ∈ l, read (write a) = some a) : items? read (.arr (l.map write)) = some l := by
  rw [items?]
  induction l with
  | nil => rfl
  | cons a l ih =>
    rw [List.map_cons, List.mapM_cons, h a List.mem_cons_self,
      ih fun a' ha' => h a' (List.mem_cons_of_mem a ha')]
    rfl

end Json

end Ao2
