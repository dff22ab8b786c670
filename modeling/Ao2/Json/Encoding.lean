import Ao2.Core
import Mathlib.Data.List.Nodup

/-!
# A digest without collisions

A `Platform` whose digests are the digested values themselves, spelled out as texts. It is what the
statements that assume injective digests are tried on: concrete runs are computed with it.

The spelling is prefix-free, which is what its injectivity is proved from: a text that starts with
the spelling of a value tells the value and where it ends.
-/

namespace Ao2

/-! ### Spelling -/

/-- A text with a mark before every character and another one at its end. -/
def spellChars : List Char → List Char
  | [] => ['.']
  | c :: cs => '-' :: c :: spellChars cs

namespace Json

mutual

/-- The spelling of a value. -/
def spell : Json → List Char
  | .null => ['n']
  | .bool true => ['t']
  | .bool false => ['f']
  | .num (.ofNat n) => '+' :: spellChars (List.replicate n '1')
  | .num (.negSucc n) => '~' :: spellChars (List.replicate n '1')
  | .str s => '"' :: spellChars s.toList
  | .arr items => '[' :: spellItems items
  | .obj members => '{' :: spellMembers members

/-- The spelling of the items of an array. -/
def spellItems : List Json → List Char
  | [] => [']']
  | item :: items => ',' :: (spell item ++ spellItems items)

/-- The spelling of the members of an object. -/
def spellMembers : List (String × Json) → List Char
  | [] => ['}']
  | (key, value) :: members => ',' :: (spellChars key.toList ++ (spell value ++ spellMembers members))

end

end Json

/-! ### Injectivity -/

theorem spellChars_append_inj {cs ds s t : List Char}
    (h : spellChars cs ++ s = spellChars ds ++ t) : cs = ds ∧ s = t := by
  induction cs generalizing ds with
  | nil =>
    cases ds with
    | nil => exact ⟨rfl, by simpa [spellChars] using h⟩
    | cons d ds => simp [spellChars] at h
  | cons c cs ih =>
    cases ds with
    | nil => simp [spellChars] at h
    | cons d ds =>
      simp only [spellChars, List.cons_append, List.cons.injEq, true_and] at h
      obtain ⟨hcs, hst⟩ := ih h.2
      exact ⟨by rw [h.1, hcs], hst⟩

theorem replicate_one_inj {m n : ℕ} (h : List.replicate m '1' = List.replicate n '1') : m = n := by
  simpa using congrArg List.length h

namespace Json

mutual

theorem spell_append_inj : ∀ {a b : Json} {s t : List Char},
    spell a ++ s = spell b ++ t → a = b ∧ s = t
  | .null, b, s, t, h => by rcases b with _ | (_ | _) | (_ | _) | _ | _ | _ <;> simp_all [spell]
  | .bool true, b, s, t, h => by rcases b with _ | (_ | _) | (_ | _) | _ | _ | _ <;> simp_all [spell]
  | .bool false, b, s, t, h => by rcases b with _ | (_ | _) | (_ | _) | _ | _ | _ <;> simp_all [spell]
  | .num (.ofNat m), b, s, t, h => by
    rcases b with _ | (_ | _) | (_ | _) | _ | _ | _ <;> simp_all [spell]
    obtain ⟨hmn, hst⟩ := spellChars_append_inj h
    exact ⟨by rw [replicate_one_inj hmn], hst⟩
  | .num (.negSucc m), b, s, t, h => by
    rcases b with _ | (_ | _) | (_ | _) | _ | _ | _ <;> simp_all [spell]
    obtain ⟨hmn, hst⟩ := spellChars_append_inj h
    exact ⟨replicate_one_inj hmn, hst⟩
  | .str x, b, s, t, h => by
    rcases b with _ | (_ | _) | (_ | _) | _ | _ | _ <;> simp_all [spell]
    obtain ⟨hxy, hst⟩ := spellChars_append_inj h
    exact ⟨String.toList_inj.mp hxy, hst⟩
  | .arr xs, b, s, t, h => by
    rcases b with _ | (_ | _) | (_ | _) | _ | _ | _ <;> simp_all [spell]
    exact spellItems_append_inj h
  | .obj xs, b, s, t, h => by
    rcases b with _ | (_ | _) | (_ | _) | _ | _ | _ <;> simp_all [spell]
    exact spellMembers_append_inj h

theorem spellItems_append_inj : ∀ {xs ys : List Json} {s t : List Char},
    spellItems xs ++ s = spellItems ys ++ t → xs = ys ∧ s = t
  | [], [], s, t, h => by simpa [spellItems] using h
  | [], y :: ys, s, t, h => by simp [spellItems] at h
  | x :: xs, [], s, t, h => by simp [spellItems] at h
  | x :: xs, y :: ys, s, t, h => by
    simp only [spellItems, List.cons_append, List.append_assoc, List.cons.injEq, true_and] at h
    obtain ⟨rfl, hrest⟩ := spell_append_inj h
    obtain ⟨rfl, rfl⟩ := spellItems_append_inj hrest
    exact ⟨rfl, rfl⟩

theorem spellMembers_append_inj : ∀ {xs ys : List (String × Json)} {s t : List Char},
    spellMembers xs ++ s = spellMembers ys ++ t → xs = ys ∧ s = t
  | [], [], s, t, h => by simpa [spellMembers] using h
  | [], y :: ys, s, t, h => by simp [spellMembers] at h
  | x :: xs, [], s, t, h => by simp [spellMembers] at h
  | (k, x) :: xs, (l, y) :: ys, s, t, h => by
    simp only [spellMembers, List.cons_append, List.append_assoc, List.cons.injEq, true_and] at h
    obtain ⟨hkl, hvalue⟩ := spellChars_append_inj h
    obtain ⟨rfl, hrest⟩ := spell_append_inj hvalue
    obtain ⟨rfl, rfl⟩ := spellMembers_append_inj hrest
    exact ⟨by rw [String.toList_inj.mp hkl], rfl⟩

end

/-- Values with the same spelling are the same. -/
theorem spell_injective : Function.Injective spell := by
  intro a b h
  have h : spell a ++ [] = spell b ++ [] := by rw [h]
  exact (spell_append_inj h).1

end Json

/-! ### The platform -/

/-- Digests are spellings, and dates are numbers. -/
@[reducible] def spellingPlatform : Platform where
  sha256Json j := .ofList j.spell
  sha256Pretty j := .ofList j.spell
  sha256Text s := s
  rfc3339 t := toString t
  parseRfc3339 s := s.toNat?
  prettyJson j := .ofList j.spell
  lowercase s := s
  observedCostUsd _ := "0.000000"

/-- The number of a value in a list, or its spelling if it has none. -/
def numberOrSpell (known : List Json) (j : Json) : List Char :=
  match known.findIdx? (· = j) with
  | some i => '#' :: List.replicate i '1'
  | none => '=' :: j.spell

theorem numberOrSpell_injective (known : List Json) : Function.Injective (numberOrSpell known) := by
  intro a b h
  have number {j : Json} {i : ℕ} (hj : known.findIdx? (· = j) = some i) : known[i]? = some j := by
    obtain ⟨hi, hj, -⟩ := List.findIdx?_eq_some_iff_getElem.mp hj
    rw [List.getElem?_eq_getElem hi, of_decide_eq_true hj]
  unfold numberOrSpell at h
  cases hi : known.findIdx? (· = a) <;> cases hj : known.findIdx? (· = b) <;> rw [hi, hj] at h
  case some.some i j =>
    have hij : i = j := replicate_one_inj (List.cons.inj h).2
    exact Option.some.inj ((number hi).symm.trans (hij ▸ number hj))
  case none.none => exact Json.spell_injective (List.cons.inj h).2
  all_goals exact absurd (List.cons.inj h).1 (by decide)

/-- Digests are spellings, but for the values of a list, whose digests are their numbers in it. Runs
in which the same values are digested again and again are computed with this one. -/
@[reducible] def numberingPlatform (known : List Json) : Platform :=
  { spellingPlatform with sha256Json := fun j => .ofList (numberOrSpell known j) }

theorem sha256Json_numbering_injective (known : List Json) :
    Function.Injective (numberingPlatform known).sha256Json :=
  fun _ _ h => numberOrSpell_injective known (String.ofList_injective h)

/-- The digest that a table has for a value, or the spelling of the value if it has none. -/
def tableOrSpell (table : List (Json × String)) (j : Json) : String :=
  match table.lookup j with
  | some digest => digest
  | none => .ofList ('=' :: j.spell)

theorem mem_of_lookup_eq_some {table : List (Json × String)} {j : Json} {digest : String}
    (h : table.lookup j = some digest) : (j, digest) ∈ table := by
  induction table with
  | nil => cases h
  | cons entry table ih =>
    rw [List.lookup_cons] at h
    split at h
    case h_1 heq =>
      cases h
      rw [eq_of_beq heq]
      exact List.mem_cons_self
    case h_2 => exact List.mem_cons_of_mem _ (ih h)

theorem tableOrSpell_injective {table : List (Json × String)}
    (hnodup : (table.map Prod.snd).Nodup)
    (hmark : ∀ entry ∈ table, entry.2.toList.head? ≠ some '=') :
    Function.Injective (tableOrSpell table) := by
  intro a b h
  have marked {j : Json} {digest : String} (hj : table.lookup j = some digest) (cs : List Char) :
      digest ≠ .ofList ('=' :: cs) := by
    rintro rfl
    exact hmark _ (mem_of_lookup_eq_some hj) (by simp)
  unfold tableOrSpell at h
  cases ha : table.lookup a <;> cases hb : table.lookup b <;> rw [ha, hb] at h
  case some.some d e =>
    have h : d = e := h
    subst h
    exact (Prod.mk.inj (List.inj_on_of_nodup_map hnodup (mem_of_lookup_eq_some ha)
      (mem_of_lookup_eq_some hb) rfl)).1
  case none.none =>
    exact Json.spell_injective (List.cons.inj (String.ofList_injective h)).2
  case some.none d => exact absurd h (marked ha _)
  case none.some d => exact absurd h.symm (marked hb _)

/-- Digests are the ones of a table and else spellings, and dates are the ones of another table. -/
@[reducible] def tablePlatform (table : List (Json × String)) (dates : List (String × DateTime)) :
    Platform :=
  { spellingPlatform with
    sha256Json := tableOrSpell table
    sha256Text := fun s => tableOrSpell table (.str s)
    parseRfc3339 := fun s => dates.lookup s }

end Ao2
