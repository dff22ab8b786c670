import Mathlib.Data.String.Basic

/-!
# Semantic versions

A version has three numbers, identifiers of a pre-release and identifiers of a build. Its precedence
leaves the build out; a version without a pre-release comes after those with one.
-/

namespace Ao2

namespace SemVer

/-! ### Versions -/

def isIdentifierChar (c : Char) : Bool := c.isAlphanum || c = '-'

/-- A text of letters, digits and hyphens, not of digits only. -/
def IsAlphanumeric (text : List Char) : Prop :=
  (∀ c ∈ text, isIdentifierChar c = true) ∧ ∃ c ∈ text, c.isDigit = false

/-- An identifier of a pre-release. -/
inductive Identifier where
  | numeric (n : ℕ)
  | alphanumeric (s : String) (h : IsAlphanumeric s.toList)

/-- An identifier of a build. -/
structure BuildIdentifier where
  text : List Char
  ne_nil : text ≠ []
  chars : ∀ c ∈ text, isIdentifierChar c = true

structure Core where
  major : ℕ
  minor : ℕ
  patch : ℕ

structure Version where
  core : Core
  prerelease : List Identifier
  build : List BuildIdentifier

/-! ### Texts -/

/-- A number without leading zeros. -/
def digits (n : ℕ) : List Char := Nat.toDigits 10 n

def Identifier.text : Identifier → List Char
  | numeric n => digits n
  | alphanumeric s _ => s.toList

def Core.text (c : Core) : List Char :=
  ['.'].intercalate [digits c.major, digits c.minor, digits c.patch]

/-- Texts behind a mark, with dots between them; nothing if there are none. -/
def marked (mark : Char) (texts : List (List Char)) : List Char :=
  if texts = [] then [] else mark :: ['.'].intercalate texts

def Version.text (v : Version) : List Char :=
  v.core.text ++ (marked '-' (v.prerelease.map Identifier.text) ++
    marked '+' (v.build.map BuildIdentifier.text))

/-! ### Precedence -/

def Core.precedence : Core → Core → Ordering :=
  compareLex (compareOn Core.major) (compareLex (compareOn Core.minor) (compareOn Core.patch))

def Identifier.precedence : Identifier → Identifier → Ordering
  | numeric m, numeric n => compare m n
  | numeric _, alphanumeric _ _ => .lt
  | alphanumeric _ _, numeric _ => .gt
  | alphanumeric s _, alphanumeric t _ => compare s t

/-- The precedence of pre-releases; none is after all others. -/
def prereleasePrecedence : List Identifier → List Identifier → Ordering
  | [], [] => .eq
  | [], _ :: _ => .gt
  | _ :: _, [] => .lt
  | a :: l, b :: l' => List.compareLex Identifier.precedence (a :: l) (b :: l')

def Version.precedence (v w : Version) : Ordering :=
  (v.core.precedence w.core).then (prereleasePrecedence v.prerelease w.prerelease)

/-- A version that is no pre-release. -/
def Version.Stable (v : Version) : Prop := v.prerelease = []

/-- An order of what a function gives. -/
theorem transCmp_on {α β : Type} {cmp : β → β → Ordering} [Std.TransCmp cmp] (f : α → β) :
    Std.TransCmp fun a b => cmp (f a) (f b) where
  eq_swap {a b} := @Std.OrientedCmp.eq_swap _ cmp _ (f a) (f b)
  isLE_trans {a b c} := @Std.TransCmp.isLE_trans _ cmp _ (f a) (f b) (f c)

/-- An order the other way round. -/
theorem transCmp_swap {α : Type} {cmp : α → α → Ordering} [Std.TransCmp cmp] :
    Std.TransCmp fun a b => cmp b a where
  eq_swap {a b} := @Std.OrientedCmp.eq_swap _ cmp _ b a
  isLE_trans {a b c} hab hbc := @Std.TransCmp.isLE_trans _ cmp _ c b a hbc hab

/-- Stable versions are ordered by their numbers. -/
theorem Version.precedence_of_stable {v w : Version} (hv : v.Stable) (hw : w.Stable) :
    v.precedence w = v.core.precedence w.core := by
  rw [precedence, hv, hw, prereleasePrecedence, Ordering.then_eq]

/-! ### Characters -/

variable {c : Char}

theorem isDigit_of_mem_digits {n : ℕ} (h : c ∈ digits n) : c.isDigit = true :=
  Nat.isDigit_of_mem_toDigits (by decide) (by decide) h

theorem digits_ne_nil (n : ℕ) : digits n ≠ [] := Nat.toDigits_ne_nil

theorem isIdentifierChar_of_isDigit (h : c.isDigit = true) : isIdentifierChar c = true := by
  rw [isIdentifierChar, Char.isAlphanum, h, Bool.or_true, Bool.true_or]

theorem isIdentifierChar_of_mem_text {i : Identifier} (h : c ∈ i.text) : isIdentifierChar c = true := by
  cases i with
  | numeric n => exact isIdentifierChar_of_isDigit (isDigit_of_mem_digits h)
  | alphanumeric s hs => exact hs.1 c h

/-- What is in a list of texts with dots between them. -/
theorem mem_intercalate {texts : List (List Char)} (h : c ∈ ['.'].intercalate texts) :
    c = '.' ∨ ∃ text ∈ texts, c ∈ text := by
  induction texts with
  | nil => cases h
  | cons text texts ih =>
    cases texts with
    | nil =>
      rw [List.intercalate_singleton] at h
      exact .inr ⟨text, List.mem_cons_self, h⟩
    | cons text' texts =>
      rw [List.intercalate_cons_of_ne_nil (List.cons_ne_nil _ _), List.append_assoc,
        List.mem_append, List.mem_append, List.mem_singleton] at h
      rcases h with h | h | h
      · exact .inr ⟨text, List.mem_cons_self, h⟩
      · exact .inl h
      · exact (ih h).imp_right fun ⟨t, ht, hc⟩ => ⟨t, List.mem_cons_of_mem _ ht, hc⟩

theorem mem_core_text {core : Core} (h : c ∈ core.text) : c = '.' ∨ c.isDigit = true := by
  refine (mem_intercalate h).imp_right fun ⟨text, htext, hc⟩ => ?_
  simp only [List.mem_cons, List.not_mem_nil, or_false] at htext
  rcases htext with rfl | rfl | rfl
  · exact isDigit_of_mem_digits hc
  · exact isDigit_of_mem_digits hc
  · exact isDigit_of_mem_digits hc

/-- What is in a marked list of identifiers. -/
theorem mem_marked {mark : Char} {texts : List (List Char)}
    (htexts : ∀ text ∈ texts, ∀ c ∈ text, isIdentifierChar c = true) (h : c ∈ marked mark texts) :
    c = mark ∨ c = '.' ∨ isIdentifierChar c = true := by
  rw [marked] at h
  split at h
  · cases h
  · rcases List.mem_cons.mp h with h | h
    · exact .inl h
    · exact .inr ((mem_intercalate h).imp_right fun ⟨text, htext, hc⟩ => htexts text htext c hc)

end SemVer

end Ao2
