import Ao2.Json.Printed
import Ao2.Selection
import Ao2.Texts.Bytes
import Mathlib.Data.List.Perm.Basic

/-!
# The canonical text of a value

A value is hashed as a text that does not depend on the order of the members. The command line
writes that text itself, looking up the members by their sorted keys. The publication builds the
value with its members sorted and leaves the text to the library. What is read of the text is the
sorted value, unless it is nested too deeply or a float is not read as itself.

## Main results

* `writeCanonicalJsonValue_eq` — both write the same text
* `canonicalize_eq_iff` — the sorted values are equal if and only if the values are up to order
-/

namespace Ao2

variable {F : Type}

/-! ### The text of the command line -/

/-- A number below 16 ^ 4 in four hexadecimal digits. -/
def hexFour (n : ℕ) : List Char :=
  let text := Nat.toDigits 16 n
  List.replicate (4 - text.length) '0' ++ text

def writeCanonicalJsonChar (c : Char) : List Char :=
  if c = '"' then "\\\"".toList
  else if c = '\\' then "\\\\".toList
  else if c = '\n' then "\\n".toList
  else if c = '\r' then "\\r".toList
  else if c = '\t' then "\\t".toList
  else if c = Char.ofNat 8 then "\\b".toList
  else if c = Char.ofNat 12 then "\\f".toList
  else if c.toNat < 0x20 then "\\u".toList ++ hexFour c.toNat
  else [c]

def writeCanonicalJsonString (text : String) : List Char :=
  '"' :: (text.toList.flatMap writeCanonicalJsonChar ++ ['"'])

/-- The keys in their order. -/
def sortedKeys {α : Type} (members : List (String × α)) : List String :=
  (members.map Prod.fst).insertionSort (· ≤ ·)

section

variable [FloatDigits F]

mutual

def writeCanonicalJsonValue : SerdeValue F → List Char
  | .null => "null".toList
  | .bool flag => if flag then "true".toList else "false".toList
  | .int n => (toString n).toList
  | .float x => SerdeValue.digits x
  | .str text => writeCanonicalJsonString text
  | .arr items => '[' :: ([','].intercalate (writeCanonicalJsonItems items) ++ [']'])
  | .obj map =>
    let texts := writeCanonicalJsonMembers map
    '{' :: ([','].intercalate ((sortedKeys map).map fun key =>
      writeCanonicalJsonString key ++ ':' :: (texts.lookup key).getD []) ++ ['}'])

def writeCanonicalJsonItems : List (SerdeValue F) → List (List Char)
  | [] => []
  | item :: items => writeCanonicalJsonValue item :: writeCanonicalJsonItems items

/-- The texts of the members, by their keys. -/
def writeCanonicalJsonMembers : List (String × SerdeValue F) → List (String × List Char)
  | [] => []
  | (key, v) :: members => (key, writeCanonicalJsonValue v) :: writeCanonicalJsonMembers members

end

end

/-! ### The value of the publication -/

namespace SerdeValue

mutual

/-- The value with the members of every object in the order of their keys. -/
def canonicalize : SerdeValue F → SerdeValue F
  | .arr values => .arr (canonicalizeItems values)
  | .obj values =>
    let sorted := canonicalizeMembers values
    .obj ((sortedKeys values).map fun key => (key, (sorted.lookup key).getD .null))
  | .null => .null
  | .bool b => .bool b
  | .int n => .int n
  | .float x => .float x
  | .str s => .str s

def canonicalizeItems : List (SerdeValue F) → List (SerdeValue F)
  | [] => []
  | v :: values => canonicalize v :: canonicalizeItems values

def canonicalizeMembers : List (String × SerdeValue F) → List (String × SerdeValue F)
  | [] => []
  | (key, v) :: values => (key, canonicalize v) :: canonicalizeMembers values

end

end SerdeValue

open SerdeValue

/-- A value whose objects have no key twice and whose integers have 64 bits. -/
abbrev JsonValue (F : Type) := { v : SerdeValue F // v.Keyed List.Nodup }

/-- **Equality up to the order of members**, at whatever depth. -/
inductive Reordered : SerdeValue F → SerdeValue F → Prop
  | perm {members members' : List (String × SerdeValue F)} (h : members.Perm members') :
      Reordered (.obj members) (.obj members')
  | item {v w : SerdeValue F} (before after : List (SerdeValue F)) (h : Reordered v w) :
      Reordered (.arr (before ++ v :: after)) (.arr (before ++ w :: after))
  | member {v w : SerdeValue F} (before : List (String × SerdeValue F)) (key : String)
      (after : List (String × SerdeValue F)) (h : Reordered v w) :
      Reordered (.obj (before ++ (key, v) :: after)) (.obj (before ++ (key, w) :: after))
  | refl (v : SerdeValue F) : Reordered v v
  | trans {u v w : SerdeValue F} (h : Reordered u v) (h' : Reordered v w) : Reordered u w

/-! ### Strings -/

theorem hexFour_of_lt {n : ℕ} (hn : n < 32) :
    hexFour n = ['0', '0', hexDigit (n / 16), hexDigit (n % 16)] := by
  have hall : ∀ n < 32, hexFour n = ['0', '0', hexDigit (n / 16), hexDigit (n % 16)] := by decide
  exact hall n hn

/-- A character is escaped as the library does it. -/
theorem writeCanonicalJsonChar_eq (c : Char) : writeCanonicalJsonChar c = escapeChar c := by
  have hcontrol : ∀ n : ℕ, n < 128 → (c = Char.ofNat n ↔ c.toNat = n) := by
    intro n hn
    constructor
    · rintro rfl
      exact toNat_ofNat_of_lt hn
    · rintro rfl
      exact (Char.ofNat_toNat c).symm
  rw [writeCanonicalJsonChar, escapeChar]
  simp only [hcontrol 8 (by decide), hcontrol 12 (by decide)]
  split_ifs with hquote hslash hline hreturn htab hback hform hlow
  all_goals first | rfl | rw [hexFour_of_lt hlow]; rfl

theorem writeCanonicalJsonString_eq (text : String) :
    writeCanonicalJsonString text = quoteJson text := by
  rw [writeCanonicalJsonString, quoteJson, funext writeCanonicalJsonChar_eq]

/-! ### The sorted members -/

theorem canonicalizeMembers_eq (members : List (String × SerdeValue F)) :
    canonicalizeMembers members = members.map fun m => (m.1, m.2.canonicalize) := by
  induction members with
  | nil => rfl
  | cons m members ih => rw [canonicalizeMembers, ih, List.map_cons]

theorem canonicalizeItems_eq (items : List (SerdeValue F)) :
    canonicalizeItems items = items.map canonicalize := by
  induction items with
  | nil => rfl
  | cons v items ih => rw [canonicalizeItems, ih, List.map_cons]

theorem map_fst_canonicalizeMembers (members : List (String × SerdeValue F)) :
    (canonicalizeMembers members).map Prod.fst = members.map Prod.fst := by
  rw [canonicalizeMembers_eq, List.map_map]
  rfl

/-- The members of a sorted object, in the order of their keys. -/
def sortedMembers (members : List (String × SerdeValue F)) : List (String × SerdeValue F) :=
  (sortedKeys members).map fun key => (key, ((canonicalizeMembers members).lookup key).getD .null)

theorem canonicalize_obj (members : List (String × SerdeValue F)) :
    (SerdeValue.obj members).canonicalize = .obj (sortedMembers members) := by
  rw [canonicalize]
  rfl

/-- They are the members of the object, each with its value sorted. -/
theorem sortedMembers_perm {members : List (String × SerdeValue F)}
    (hnodup : (members.map Prod.fst).Nodup) :
    (sortedMembers members).Perm (canonicalizeMembers members) := by
  have hlookup := @map_lookup (SerdeValue F) .null (canonicalizeMembers members)
    (by rw [map_fst_canonicalizeMembers]; exact hnodup)
  rw [map_fst_canonicalizeMembers] at hlookup
  have hperm := (List.perm_insertionSort (· ≤ ·) (members.map Prod.fst)).map
    fun key => (key, ((canonicalizeMembers members).lookup key).getD .null)
  rwa [hlookup] at hperm

theorem map_fst_sortedMembers (members : List (String × SerdeValue F)) :
    (sortedMembers members).map Prod.fst = sortedKeys members := by
  rw [sortedMembers, List.map_map]
  exact List.map_id _

theorem sortedKeys_pairwise {members : List (String × SerdeValue F)}
    (hnodup : (members.map Prod.fst).Nodup) : (sortedKeys members).Pairwise (· < ·) := by
  have hle : (sortedKeys members).Pairwise (· ≤ ·) := List.pairwise_insertionSort (· ≤ ·) _
  have hne : (sortedKeys members).Nodup := (List.perm_insertionSort (· ≤ ·) _).nodup_iff.mpr hnodup
  exact (hle.and hne).imp fun h => lt_of_le_of_ne h.1 h.2

/-- The value that is looked up for a sorted key. -/
theorem lookup_sortedKeys {key : String} {members : List (String × SerdeValue F)}
    (h : key ∈ sortedKeys members) : ∃ v, (canonicalizeMembers members).lookup key = some v := by
  have hmem : key ∈ members.map Prod.fst := (List.mem_insertionSort (· ≤ ·)).mp h
  rw [← map_fst_canonicalizeMembers] at hmem
  obtain ⟨v, hv, -⟩ := exists_lookup hmem
  exact ⟨v, hv⟩

/-! ### Both write the same text -/

section

variable [FloatDigits F]

theorem compactItems_eq (items : List (SerdeValue F)) :
    compactItems items = [','].intercalate (items.map compactText) ++ [']'] := by
  induction items with
  | nil => rfl
  | cons v items ih =>
    cases items with
    | nil => simp [compactItems, List.intercalate]
    | cons w items =>
      rw [compactItems_cons, ih, List.map_cons, List.map_cons, List.map_cons,
        List.intercalate_cons_cons]
      simp

/-- A key, a colon and the text of the value. -/
def pairText (m : String × SerdeValue F) : List Char := quoteJson m.1 ++ ':' :: compactText m.2

theorem compactMembers_eq (members : List (String × SerdeValue F)) :
    compactMembers members = [','].intercalate (members.map pairText) ++ ['}'] := by
  induction members with
  | nil => rfl
  | cons m members ih =>
    cases members with
    | nil => simp [compactMembers, pairText, List.intercalate]
    | cons w members =>
      rw [compactMembers_cons, ih, List.map_cons, List.map_cons, List.map_cons,
        List.intercalate_cons_cons]
      simp [pairText]

mutual

/-- **The command line and the publication write the same text**, by recursion over the value. -/
theorem writeCanonicalJsonValue_eq : ∀ v : SerdeValue F,
    writeCanonicalJsonValue v = compactText v.canonicalize
  | .null => rfl
  | .bool true => rfl
  | .bool false => rfl
  | .int _ => rfl
  | .float _ => rfl
  | .str text => writeCanonicalJsonString_eq text
  | .arr items => by
    rw [writeCanonicalJsonValue, canonicalize, compactText, compactItems_eq,
      writeCanonicalJsonItems_eq items]
  | .obj map => by
    rw [writeCanonicalJsonValue, canonicalize_obj, compactText, compactMembers_eq, sortedMembers,
      List.map_map, writeCanonicalJsonMembers_eq map]
    have hkeys : ∀ key ∈ sortedKeys map,
        writeCanonicalJsonString key ++ ':' ::
            (((canonicalizeMembers map).map fun m => (m.1, compactText m.2)).lookup key).getD [] =
          pairText (key, ((canonicalizeMembers map).lookup key).getD .null) := by
      intro key hkey
      obtain ⟨v, hv⟩ := lookup_sortedKeys hkey
      rw [lookup_map, hv, writeCanonicalJsonString_eq]
      rfl
    rw [List.map_congr_left hkeys]
    rfl

theorem writeCanonicalJsonItems_eq : ∀ items : List (SerdeValue F),
    writeCanonicalJsonItems items = (canonicalizeItems items).map compactText
  | [] => rfl
  | v :: items => by
    rw [writeCanonicalJsonItems, writeCanonicalJsonValue_eq v, writeCanonicalJsonItems_eq items,
      canonicalizeItems, List.map_cons]

theorem writeCanonicalJsonMembers_eq : ∀ members : List (String × SerdeValue F),
    writeCanonicalJsonMembers members =
      (canonicalizeMembers members).map fun m => (m.1, compactText m.2)
  | [] => rfl
  | (key, v) :: members => by
    rw [writeCanonicalJsonMembers, writeCanonicalJsonValue_eq v,
      writeCanonicalJsonMembers_eq members, canonicalizeMembers, List.map_cons]

end

end

/-! ### Equality up to the order of members -/

theorem keyedItems_iff {P : List String → Prop} : ∀ {items : List (SerdeValue F)},
    KeyedItems P items ↔ ∀ v ∈ items, v.Keyed P
  | [] => by simp [KeyedItems]
  | v :: items => by rw [KeyedItems, keyedItems_iff, List.forall_mem_cons]

theorem keyedMembers_iff {P : List String → Prop} : ∀ {members : List (String × SerdeValue F)},
    KeyedMembers P members ↔ ∀ m ∈ members, m.2.Keyed P
  | [] => by simp [KeyedMembers]
  | (key, v) :: members => by rw [KeyedMembers, keyedMembers_iff, List.forall_mem_cons]

namespace Reordered

theorem symm {v w : SerdeValue F} (h : Reordered v w) : Reordered w v := by
  induction h with
  | perm h => exact perm h.symm
  | item before after _ ih => exact item before after ih
  | member before key after _ ih => exact member before key after ih
  | refl v => exact refl v
  | trans _ _ ih ih' => exact trans ih' ih

/-- The order of members has nothing to do with which keys there are. -/
theorem keyed {v w : SerdeValue F} (h : Reordered v w) (hv : v.Keyed List.Nodup) :
    w.Keyed List.Nodup := by
  induction h with
  | perm h =>
    refine ⟨(h.map Prod.fst).nodup_iff.mp hv.1, keyedMembers_iff.mpr fun m hm => ?_⟩
    exact keyedMembers_iff.mp hv.2 m (h.mem_iff.mpr hm)
  | item before after _ ih =>
    rw [Keyed, keyedItems_iff, List.forall_mem_append, List.forall_mem_cons] at hv ⊢
    exact ⟨hv.1, ih hv.2.1, hv.2.2⟩
  | member before key after _ ih =>
    rw [Keyed, keyedMembers_iff, List.forall_mem_append, List.forall_mem_cons, List.map_append,
      List.map_cons] at hv ⊢
    exact ⟨hv.1, hv.2.1, ih hv.2.2.1, hv.2.2.2⟩
  | refl v => exact hv
  | trans _ _ ih ih' => exact ih' (ih hv)

theorem depth_le {v w : SerdeValue F} (h : Reordered v w) (n : ℕ) : v.depth ≤ n → w.depth ≤ n := by
  induction h generalizing n with
  | perm h =>
    cases n with
    | zero => exact fun hv => absurd hv (Nat.not_succ_le_zero _)
    | succ n =>
      rw [depth_obj_le_iff, depth_obj_le_iff]
      exact fun hv m hm => hv m (h.mem_iff.mpr hm)
  | item before after _ ih =>
    cases n with
    | zero => exact fun hv => absurd hv (Nat.not_succ_le_zero _)
    | succ n =>
      rw [depth_arr_le_iff, depth_arr_le_iff, List.forall_mem_append, List.forall_mem_append,
        List.forall_mem_cons, List.forall_mem_cons]
      exact fun hv => ⟨hv.1, ih n hv.2.1, hv.2.2⟩
  | member before key after _ ih =>
    cases n with
    | zero => exact fun hv => absurd hv (Nat.not_succ_le_zero _)
    | succ n =>
      rw [depth_obj_le_iff, depth_obj_le_iff, List.forall_mem_append, List.forall_mem_append,
        List.forall_mem_cons, List.forall_mem_cons]
      exact fun hv => ⟨hv.1, ih n hv.2.1, hv.2.2⟩
  | refl v => exact id
  | trans _ _ ih ih' => exact fun hv => ih' n (ih n hv)

theorem depth_eq {v w : SerdeValue F} (h : Reordered v w) : v.depth = w.depth :=
  Nat.le_antisymm (h.symm.depth_le _ le_rfl) (h.depth_le _ le_rfl)

theorem mem_floats {v w : SerdeValue F} {x : F} (h : Reordered v w) :
    x ∈ v.floats → x ∈ w.floats := by
  induction h with
  | perm h =>
    rw [floats, floats, mem_floatsMembers, mem_floatsMembers]
    rintro ⟨m, hm, hx⟩
    exact ⟨m, h.mem_iff.mp hm, hx⟩
  | item before after _ ih =>
    simp only [floats, mem_floatsItems, List.mem_append, List.mem_cons, or_and_right, exists_or,
      exists_eq_left]
    exact Or.imp_right (Or.imp_left ih)
  | member before key after _ ih =>
    simp only [floats, mem_floatsMembers, List.mem_append, List.mem_cons, or_and_right, exists_or,
      exists_eq_left]
    exact Or.imp_right (Or.imp_left ih)
  | refl v => exact id
  | trans _ _ ih ih' => exact fun hx => ih' (ih hx)

theorem mem_floats_iff {v w : SerdeValue F} {x : F} (h : Reordered v w) :
    x ∈ v.floats ↔ x ∈ w.floats :=
  ⟨h.mem_floats, h.symm.mem_floats⟩

end Reordered

/-! ### Sorted values -/

theorem lookup_perm {α : Type} {key : String} {members members' : List (String × α)}
    (h : members.Perm members') (hnodup : (members.map Prod.fst).Nodup) {a : α}
    (ha : members.lookup key = some a) : members'.lookup key = some a := by
  obtain ⟨before, after, heq, -⟩ := List.lookup_eq_some_iff.mp ha
  have hmem : (key, a) ∈ members := heq ▸ List.mem_append_right before List.mem_cons_self
  exact lookup_of_nodup ((h.map Prod.fst).nodup_iff.mp hnodup) (h.mem_iff.mp hmem)

/-- The sorted members do not depend on the order. -/
theorem sortedMembers_of_perm {members members' : List (String × SerdeValue F)}
    (h : members.Perm members')
    (hnodup : (members.map Prod.fst).Nodup) : sortedMembers members = sortedMembers members' := by
  have hkeys : sortedKeys members = sortedKeys members' :=
    insertionSort_eq_of_perm (h.map Prod.fst) fun _ _ _ _ => le_antisymm
  have hcanonical : (canonicalizeMembers members).Perm (canonicalizeMembers members') := by
    rw [canonicalizeMembers_eq, canonicalizeMembers_eq]
    exact h.map _
  rw [sortedMembers, sortedMembers, ← hkeys]
  refine List.map_congr_left fun key hkey => ?_
  obtain ⟨v, hv⟩ := lookup_sortedKeys hkey
  have hnodup' : ((canonicalizeMembers members).map Prod.fst).Nodup := by
    rwa [map_fst_canonicalizeMembers]
  rw [hv, lookup_perm hcanonical hnodup' hv]

/-- Values that are equal up to the order of members are sorted to the same value. -/
theorem Reordered.canonicalize_eq {v w : SerdeValue F} (h : Reordered v w)
    (hv : v.Keyed List.Nodup) :
    v.canonicalize = w.canonicalize := by
  induction h with
  | perm h => rw [canonicalize_obj, canonicalize_obj, sortedMembers_of_perm h hv.1]
  | item before after _ ih =>
    rw [Keyed, keyedItems_iff, List.forall_mem_append, List.forall_mem_cons] at hv
    rw [canonicalize, canonicalize, canonicalizeItems_eq, canonicalizeItems_eq, List.map_append,
      List.map_append, List.map_cons, List.map_cons, ih hv.2.1]
  | member before key after _ ih =>
    rw [Keyed, keyedMembers_iff, List.forall_mem_append, List.forall_mem_cons] at hv
    rw [canonicalize_obj, canonicalize_obj, sortedMembers, sortedMembers, sortedKeys, sortedKeys,
      canonicalizeMembers_eq, canonicalizeMembers_eq, List.map_append, List.map_append,
      List.map_append, List.map_append, List.map_cons, List.map_cons, List.map_cons, List.map_cons,
      ih hv.2.2.1]
  | refl v => rfl
  | trans h _ ih ih' => exact (ih hv).trans (ih' (h.keyed hv))

mutual

/-- A value is sorted by reordering members. -/
theorem reordered_canonicalize :
    ∀ {v : SerdeValue F}, v.Keyed List.Nodup → Reordered v v.canonicalize
  | .null, _ => .refl _
  | .bool _, _ => .refl _
  | .int _, _ => .refl _
  | .float _, _ => .refl _
  | .str _, _ => .refl _
  | .arr items, hv => by
    rw [canonicalize]
    exact reordered_canonicalizeItems hv []
  | .obj members, hv => by
    rw [canonicalize_obj]
    exact (reordered_canonicalizeMembers hv.2 []).trans (.perm (sortedMembers_perm hv.1).symm)

theorem reordered_canonicalizeItems : ∀ {items : List (SerdeValue F)}, KeyedItems List.Nodup items →
    ∀ before : List (SerdeValue F),
      Reordered (.arr (before ++ items)) (.arr (before ++ canonicalizeItems items))
  | [], _, before => .refl _
  | v :: items, hv, before => by
    have hrest := reordered_canonicalizeItems hv.2 (before ++ [v.canonicalize])
    rw [List.append_assoc, List.append_assoc] at hrest
    exact (Reordered.item before items (reordered_canonicalize hv.1)).trans hrest

theorem reordered_canonicalizeMembers : ∀ {members : List (String × SerdeValue F)},
    KeyedMembers List.Nodup members → ∀ before : List (String × SerdeValue F),
    Reordered (.obj (before ++ members)) (.obj (before ++ canonicalizeMembers members))
  | [], _, before => .refl _
  | (key, v) :: members, hv, before => by
    have hrest := reordered_canonicalizeMembers hv.2 (before ++ [(key, v.canonicalize)])
    rw [List.append_assoc, List.append_assoc] at hrest
    exact (Reordered.member before key members (reordered_canonicalize hv.1)).trans hrest

end

/-- **The sorted values are equal if and only if the values are, up to the order of members.** -/
theorem canonicalize_eq_iff {v w : SerdeValue F} (hv : v.Keyed List.Nodup)
    (hw : w.Keyed List.Nodup) :
    v.canonicalize = w.canonicalize ↔ Reordered v w := by
  refine ⟨fun h => ?_, fun h => h.canonicalize_eq hv⟩
  have hsorted := reordered_canonicalize hv
  rw [h] at hsorted
  exact hsorted.trans (reordered_canonicalize hw).symm

mutual

/-- A sorted value is ordered. -/
theorem ordered_canonicalize : ∀ {v : SerdeValue F}, v.Keyed List.Nodup → v.canonicalize.Ordered
  | .null, _ => trivial
  | .bool _, _ => trivial
  | .int _, hv => hv
  | .float _, _ => trivial
  | .str _, _ => trivial
  | .arr items, hv => by
    rw [canonicalize]
    exact keyedItems_iff.mpr (ordered_canonicalizeItems hv)
  | .obj members, hv => by
    rw [canonicalize_obj, Ordered, Keyed, map_fst_sortedMembers]
    refine ⟨sortedKeys_pairwise hv.1, keyedMembers_iff.mpr fun m hm => ?_⟩
    exact ordered_canonicalizeMembers hv.2 m ((sortedMembers_perm hv.1).mem_iff.mp hm)

theorem ordered_canonicalizeItems : ∀ {items : List (SerdeValue F)}, KeyedItems List.Nodup items →
    ∀ v ∈ canonicalizeItems items, v.Ordered
  | [], _ => List.forall_mem_nil _
  | _ :: _, hv =>
    List.forall_mem_cons.mpr ⟨ordered_canonicalize hv.1, ordered_canonicalizeItems hv.2⟩

theorem ordered_canonicalizeMembers : ∀ {members : List (String × SerdeValue F)},
    KeyedMembers List.Nodup members → ∀ m ∈ canonicalizeMembers members, m.2.Ordered
  | [], _ => List.forall_mem_nil _
  | _ :: _, hv =>
    List.forall_mem_cons.mpr ⟨ordered_canonicalize hv.1, ordered_canonicalizeMembers hv.2⟩

end

mutual

/-- An ordered value is sorted already. -/
theorem canonicalize_eq_self : ∀ {v : SerdeValue F}, v.Ordered → v.canonicalize = v
  | .null, _ => rfl
  | .bool _, _ => rfl
  | .int _, _ => rfl
  | .float _, _ => rfl
  | .str _, _ => rfl
  | .arr items, hv => by rw [canonicalize, canonicalizeItems_eq_self hv]
  | .obj members, hv => by
    have hkeys : sortedKeys members = members.map Prod.fst :=
      List.Pairwise.insertionSort_eq (hv.1.imp le_of_lt)
    rw [canonicalize_obj, sortedMembers, canonicalizeMembers_eq_self hv.2, hkeys,
      map_lookup _ (hv.1.imp ne_of_lt)]

theorem canonicalizeItems_eq_self : ∀ {items : List (SerdeValue F)},
    KeyedItems (List.Pairwise (· < ·)) items → canonicalizeItems items = items
  | [], _ => rfl
  | v :: items, hv => by
    rw [canonicalizeItems, canonicalize_eq_self hv.1, canonicalizeItems_eq_self hv.2]

theorem canonicalizeMembers_eq_self : ∀ {members : List (String × SerdeValue F)},
    KeyedMembers (List.Pairwise (· < ·)) members → canonicalizeMembers members = members
  | [], _ => rfl
  | (key, v) :: members, hv => by
    rw [canonicalizeMembers, canonicalize_eq_self hv.1, canonicalizeMembers_eq_self hv.2]

end

/-! ### What is read of the text -/

mutual

/-- Replacing floats leaves the keys. -/
theorem keyed_traverse {P : List String → Prop} {f : F → Option F} :
    ∀ {v w : SerdeValue F}, v.Keyed P →
    v.traverse f = some w → w.Keyed P
  | .null, w, _, h => by
    obtain rfl := Option.some.inj h
    trivial
  | .bool _, w, _, h => by
    obtain rfl := Option.some.inj h
    trivial
  | .int _, w, hv, h => by
    obtain rfl := Option.some.inj h
    exact hv
  | .float _, w, _, h => by
    obtain ⟨y, -, rfl⟩ := Option.map_eq_some_iff.mp h
    trivial
  | .str _, w, _, h => by
    obtain rfl := Option.some.inj h
    trivial
  | .arr items, w, hv, h => by
    obtain ⟨items', hitems, rfl⟩ := Option.map_eq_some_iff.mp h
    exact keyedItems_traverse hv hitems
  | .obj members, w, hv, h => by
    obtain ⟨members', hmembers, rfl⟩ := Option.map_eq_some_iff.mp h
    refine ⟨?_, keyedMembers_traverse hv.2 hmembers⟩
    rw [map_fst_traverseMembers hmembers]
    exact hv.1

theorem keyedItems_traverse {P : List String → Prop} {f : F → Option F} :
    ∀ {items items' : List (SerdeValue F)}, KeyedItems P items →
      traverseItems f items = some items' → KeyedItems P items'
  | [], items', _, h => by
    obtain rfl := Option.some.inj h
    trivial
  | v :: items, items', hv, h => by
    obtain ⟨w, hw, hrest⟩ := Option.bind_eq_some_iff.mp h
    obtain ⟨rest, hitems, rfl⟩ := Option.map_eq_some_iff.mp hrest
    exact ⟨keyed_traverse hv.1 hw, keyedItems_traverse hv.2 hitems⟩

theorem keyedMembers_traverse {P : List String → Prop} {f : F → Option F} :
    ∀ {members members' : List (String × SerdeValue F)}, KeyedMembers P members →
      traverseMembers f members = some members' → KeyedMembers P members'
  | [], members', _, h => by
    obtain rfl := Option.some.inj h
    trivial
  | (key, v) :: members, members', hv, h => by
    obtain ⟨w, hw, hrest⟩ := Option.bind_eq_some_iff.mp h
    obtain ⟨rest, hmembers, rfl⟩ := Option.map_eq_some_iff.mp hrest
    exact ⟨keyed_traverse hv.1 hw, keyedMembers_traverse hv.2 hmembers⟩

end

section

variable [FloatDigits F]

/-- The text is read as the value, up to the order of members, if and only if the value is nested
less than 128 deep and its floats are read as themselves. -/
theorem fromStr_writeCanonicalJsonValue_iff {v : SerdeValue F} (hv : v.Keyed List.Nodup) :
    (∃ u, fromStr (writeCanonicalJsonValue v) = some u ∧ Reordered v u) ↔
      v.depth < 128 ∧ ∀ x ∈ v.floats, readBack x = some x := by
  have hsorted := reordered_canonicalize hv
  have hordered := ordered_canonicalize hv
  have hfloats :
      (∀ x ∈ v.floats, readBack x = some x) ↔ ∀ x ∈ v.canonicalize.floats, readBack x = some x :=
    forall_congr' fun x => imp_congr_left hsorted.mem_floats_iff
  rw [writeCanonicalJsonValue_eq, fromStr_compactText hordered, hsorted.depth_eq, hfloats,
    ← reread_eq_self_iff]
  constructor
  · rintro ⟨u, hu, hvu⟩
    -- what is read has the keys in order, so that it is the sorted value
    have hkeyed : u.Ordered := keyed_traverse hordered (reread_eq_some_iff.mp hu).2
    have hsame := (hsorted.symm.trans hvu).canonicalize_eq (hsorted.keyed hv)
    rw [canonicalize_eq_self hordered, canonicalize_eq_self hkeyed] at hsame
    rw [hu, hsame]
  · exact fun h => ⟨_, h, hsorted⟩

/-- **Canonical texts.** The command line hashes the bytes that the publication hashes. The text is
read as the value, up to the order of members, if and only if the value is nested less than 128 deep
and its floats are read as themselves. Two values have the same text if and only if they are equal
up to the order of members. -/
theorem canonical_iff (v w : JsonValue F) :
    utf8Bytes (writeCanonicalJsonValue v.1) = utf8Bytes (compactText v.1.canonicalize) ∧
      ((∃ u, fromStr (writeCanonicalJsonValue v.1) = some u ∧ Reordered v.1 u) ↔
        v.1.depth < 128 ∧ ∀ x ∈ v.1.floats, readBack x = some x) ∧
      (writeCanonicalJsonValue v.1 = writeCanonicalJsonValue w.1 ↔ Reordered v.1 w.1) := by
  refine ⟨by rw [writeCanonicalJsonValue_eq], fromStr_writeCanonicalJsonValue_iff v.2, ?_⟩
  rw [writeCanonicalJsonValue_eq, writeCanonicalJsonValue_eq, ← canonicalize_eq_iff v.2 w.2]
  constructor
  · exact compactText_injective (ordered_canonicalize v.2) (ordered_canonicalize w.2)
  · exact congrArg compactText

end

/-! ### A value that is not read back -/

/-- A value inside so many arrays. -/
def nested : ℕ → SerdeValue F
  | 0 => .null
  | n + 1 => .arr [nested n]

theorem depth_nested : ∀ n : ℕ, (nested n : SerdeValue F).depth = n
  | 0 => rfl
  | n + 1 => by rw [nested, depth, depthItems, depth_nested n, depthItems, Nat.max_zero]

theorem keyed_nested : ∀ n : ℕ, (nested n : SerdeValue F).Keyed List.Nodup
  | 0 => trivial
  | n + 1 => ⟨keyed_nested n, trivial⟩

instance emptyDigits : FloatDigits Empty where
  digits := Empty.elim
  readFloat _ := none
  digits_injective := fun x => x.elim
  digits_chars := fun x => x.elim
  digits_head := fun x => x.elim
  digits_mark := fun x => x.elim

/-- What is inside 128 arrays is not read. -/
theorem fromStr_nested :
    ¬ ∀ v : JsonValue Empty,
      ∃ u, fromStr (writeCanonicalJsonValue v.1) = some u ∧ Reordered v.1 u := by
  intro h
  have hdepth :=
    ((fromStr_writeCanonicalJsonValue_iff (keyed_nested 128)).mp (h ⟨_, keyed_nested 128⟩)).1
  rw [depth_nested] at hdepth
  exact absurd hdepth (by decide)

end Ao2
