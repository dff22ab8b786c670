import Ao2.Json
import Mathlib.Data.List.Sort
import Mathlib.Data.String.Basic

/-!
# Objects as maps

An object of the runtime is a map: its members stand in the order of their keys, none twice. The
canonical form of a value is the one in which this holds throughout, and a map is what it says for
one key and the map without that key.

## Main results

* `Json.canonicalize_eq_self` — a value whose objects are maps is its own canonical form
* `Json.eq_of_remove_eq` — a map is determined by one member and the rest
-/

namespace Ao2

namespace Json

/-- An object without one of its members. -/
def remove (key : String) : Json → Json
  | .obj members => .obj (members.filter fun m => m.1 ≠ key)
  | v => v

mutual

/-- The value with the members of every object in the order of their keys. -/
def canonicalize : Json → Json
  | .arr items => .arr (canonicalizeItems items)
  | .obj members => .obj ((canonicalizeMembers members).insertionSort fun a b => a.1 ≤ b.1)
  | .null => .null
  | .bool b => .bool b
  | .num n => .num n
  | .str s => .str s

def canonicalizeItems : List Json → List Json
  | [] => []
  | item :: items => canonicalize item :: canonicalizeItems items

def canonicalizeMembers : List (String × Json) → List (String × Json)
  | [] => []
  | (key, value) :: members => (key, canonicalize value) :: canonicalizeMembers members

end

/-- Every key of a list comes after its predecessor. -/
def increasing : List String → Bool
  | [] => true
  | [_] => true
  | a :: b :: keys => a < b && increasing (b :: keys)

mutual

/-- Every object of the value is a map. -/
def ordered : Json → Bool
  | .arr items => orderedItems items
  | .obj members => increasing (members.map Prod.fst) && orderedMembers members
  | .null => true
  | .bool _ => true
  | .num _ => true
  | .str _ => true

def orderedItems : List Json → Bool
  | [] => true
  | item :: items => ordered item && orderedItems items

def orderedMembers : List (String × Json) → Bool
  | [] => true
  | (_, value) :: members => ordered value && orderedMembers members

end

/-! ### Keys in order -/

theorem increasing_pairwise : ∀ {keys : List String}, increasing keys = true → keys.Pairwise (· < ·)
  | [], _ => .nil
  | [_], _ => List.pairwise_singleton _ _
  | a :: b :: keys, h => by
    simp only [increasing, Bool.and_eq_true, decide_eq_true_eq] at h
    have hrest := increasing_pairwise h.2
    refine List.pairwise_cons.mpr ⟨?_, hrest⟩
    intro c hc
    rcases List.mem_cons.mp hc with rfl | hc
    · exact h.1
    · exact h.1.trans ((List.pairwise_cons.mp hrest).1 c hc)

theorem increasing_of_pairwise : ∀ {keys : List String}, keys.Pairwise (· < ·) →
    increasing keys = true
  | [], _ => rfl
  | [_], _ => rfl
  | a :: b :: keys, h => by
    simp only [increasing, Bool.and_eq_true, decide_eq_true_eq]
    exact ⟨(List.pairwise_cons.mp h).1 b List.mem_cons_self,
      increasing_of_pairwise (List.pairwise_cons.mp h).2⟩

theorem keys_pairwise {members : List (String × Json)}
    (h : increasing (members.map Prod.fst) = true) : members.Pairwise fun a b => a.1 < b.1 :=
  List.pairwise_map.mp (increasing_pairwise h)

theorem keys_nodup {members : List (String × Json)}
    (h : increasing (members.map Prod.fst) = true) : (members.map Prod.fst).Nodup :=
  (increasing_pairwise h).imp ne_of_lt

/-! ### The canonical form -/

mutual

/-- A value whose objects are maps is its own canonical form. -/
theorem canonicalize_eq_self : ∀ {value : Json}, value.ordered = true → value.canonicalize = value
  | .null, _ | .bool _, _ | .num _, _ | .str _, _ => rfl
  | .arr items, h => by rw [canonicalize, canonicalizeItems_eq_self h]
  | .obj members, h => by
    simp only [ordered, Bool.and_eq_true] at h
    rw [canonicalize, canonicalizeMembers_eq_self h.2, List.Pairwise.insertionSort_eq]
    exact (keys_pairwise h.1).imp le_of_lt

theorem canonicalizeItems_eq_self : ∀ {items : List Json},
    orderedItems items = true → canonicalizeItems items = items
  | [], _ => rfl
  | item :: items, h => by
    simp only [orderedItems, Bool.and_eq_true] at h
    rw [canonicalizeItems, canonicalize_eq_self h.1, canonicalizeItems_eq_self h.2]

theorem canonicalizeMembers_eq_self : ∀ {members : List (String × Json)},
    orderedMembers members = true → canonicalizeMembers members = members
  | [], _ => rfl
  | (key, value) :: members, h => by
    simp only [orderedMembers, Bool.and_eq_true] at h
    rw [canonicalizeMembers, canonicalize_eq_self h.1, canonicalizeMembers_eq_self h.2]

end

/-! ### A member and the rest -/

theorem orderedMembers_filter {p : String × Json → Bool} : ∀ {members : List (String × Json)},
    orderedMembers members = true → orderedMembers (members.filter p) = true
  | [], _ => rfl
  | (key, value) :: members, h => by
    simp only [orderedMembers, Bool.and_eq_true] at h
    have hrest := orderedMembers_filter (p := p) h.2
    rw [List.filter_cons]
    split
    · simp only [orderedMembers, Bool.and_eq_true]
      exact ⟨h.1, hrest⟩
    · exact hrest

/-- A map without one of its members is a map. -/
theorem ordered_remove {value : Json} {key : String} (h : value.ordered = true) :
    (value.remove key).ordered = true := by
  cases value with
  | obj members =>
    simp only [ordered, remove, Bool.and_eq_true] at h ⊢
    exact ⟨increasing_of_pairwise (List.pairwise_map.mpr ((keys_pairwise h.1).filter _)),
      orderedMembers_filter h.2⟩
  | _ => exact h

theorem mem_of_lookup {members : List (String × Json)} {key : String} {value : Json}
    (h : members.lookup key = some value) : (key, value) ∈ members := by
  induction members with
  | nil => cases h
  | cons m members ih =>
    rw [List.lookup_cons] at h
    split at h
    case h_1 heq =>
      cases h
      rw [beq_iff_eq] at heq
      rw [heq]
      exact List.mem_cons_self
    case h_2 => exact List.mem_cons_of_mem _ (ih h)

theorem eq_of_nodup_keys {members : List (String × Json)} {key : String} {u v : Json}
    (h : (members.map Prod.fst).Nodup) (hu : (key, u) ∈ members) (hv : (key, v) ∈ members) :
    u = v := by
  have := List.inj_on_of_nodup_map h hu hv rfl
  exact (Prod.mk.inj this).2

/-- The members of a map under another key than one that two maps agree on. -/
private theorem mem_of_filter_eq {as bs : List (String × Json)} {key : String} {value : Json}
    (has : (as.map Prod.fst).Nodup) (ha : as.lookup key = some value)
    (hb : bs.lookup key = some value)
    (hrest : as.filter (fun m => m.1 ≠ key) = bs.filter fun m => m.1 ≠ key)
    {m : String × Json} (hm : m ∈ as) : m ∈ bs := by
  by_cases hkey : m.1 = key
  · obtain ⟨k, v⟩ := m
    have hkey : k = key := hkey
    subst hkey
    rw [eq_of_nodup_keys has hm (mem_of_lookup ha)]
    exact mem_of_lookup hb
  · have : m ∈ as.filter fun m => m.1 ≠ key := List.mem_filter.mpr ⟨hm, decide_eq_true hkey⟩
    rw [hrest] at this
    exact (List.mem_filter.mp this).1

/-- A map is determined by one of its members and the map without it. -/
theorem eq_of_remove_eq {a b value : Json} {key : String} (ha : a.ordered = true)
    (hb : b.ordered = true) (hka : a.get? key = some value) (hkb : b.get? key = some value)
    (h : a.remove key = b.remove key) : a = b := by
  cases a with
  | obj as =>
    cases b with
    | obj bs =>
      simp only [ordered, Bool.and_eq_true] at ha hb
      have hrest : as.filter (fun m => m.1 ≠ key) = bs.filter fun m => m.1 ≠ key := by
        simpa [remove] using h
      have hmem : ∀ m, m ∈ as ↔ m ∈ bs := fun m =>
        ⟨mem_of_filter_eq (keys_nodup ha.1) hka hkb hrest,
          mem_of_filter_eq (keys_nodup hb.1) hkb hka hrest.symm⟩
      have hperm : as.Perm bs :=
        (List.perm_ext_iff_of_nodup (.of_map _ (keys_nodup ha.1)) (.of_map _ (keys_nodup hb.1))).mpr
          hmem
      rw [hperm.eq_of_pairwise (fun x y _ _ hxy hyx => absurd hxy (lt_asymm hyx))
        (keys_pairwise ha.1) (keys_pairwise hb.1)]
    | _ => cases hkb
  | _ => cases hka

end Json

end Ao2
