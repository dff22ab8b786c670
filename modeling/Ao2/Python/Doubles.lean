import Ao2.Python.Values
import Mathlib.Data.Rat.Defs
import Mathlib.Algebra.Order.Field.Rat

/-!
# Floating point numbers as Python compares and adds them

A double is a rational number, an infinity, or no number at all. A comparison with what is no number is
false whichever way it is written, so that a value that is neither below a bound nor above another one
need not lie between them. How a rational number is rounded, and which texts are numbers, is left open.

## Main results

* `between_of_not_lt` — what is neither below a bound nor above another
-/

namespace Ao2

namespace Python

inductive Double where
  | nan
  | infinite (negative : Bool)
  | finite (q : ℚ)
  deriving DecidableEq

/-- `x < y`. -/
def Double.lt : Double → Double → Bool
  | .nan, _ | _, .nan => false
  | .infinite s, .infinite t => s && !t
  | .infinite s, .finite _ => s
  | .finite _, .infinite t => !t
  | .finite p, .finite q => p < q

/-- What doubles are rounded to, and the texts that stand for them. -/
class DoubleArithmetic where
  /-- The double that is nearest to a rational number. -/
  round : ℚ → Double
  /-- `float(text)`, unless it raises a `ValueError`. -/
  doubleOfText : PyStr → Option Double

export DoubleArithmetic (doubleOfText)

/-- `min(x, y)`: the first of them unless the second is smaller. -/
def minDouble (x y : Double) : Double := if y.lt x then y else x

section

variable [DoubleArithmetic]

/-- `x + y`. -/
def addDouble : Double → Double → Double
  | .nan, _ | _, .nan => .nan
  | .infinite s, .infinite t => if s = t then .infinite s else .nan
  | .infinite s, .finite _ | .finite _, .infinite s => .infinite s
  | .finite p, .finite q => DoubleArithmetic.round (p + q)

/-- How `float(v)` fails: with a `TypeError` or a `ValueError`, or with an `OverflowError`. -/
inductive FloatError where
  | noNumber
  | overflow
  deriving DecidableEq

/-- An integer as a double; one that is too large raises. -/
def doubleOfInt (n : ℤ) : Except FloatError Double :=
  match DoubleArithmetic.round n with
  | .finite q => .ok (.finite q)
  | _ => .error .overflow

/-- `float(v)`. A text may stand for a number, and so do the truth values. -/
def toFloat : PyJson Double → Except FloatError Double
  | .float x => .ok x
  | .int n => doubleOfInt n
  | .bool b => .ok (.finite (if b then 1 else 0))
  | .str s =>
    match doubleOfText s with
    | some x => .ok x
    | none => .error .noNumber
  | .null | .list _ | .dict _ => .error .noNumber

theorem exists_of_doubleOfInt {n : ℤ} {x : Double} (h : doubleOfInt n = .ok x) :
    ∃ q, x = .finite q ∧ DoubleArithmetic.round n = .finite q := by
  rw [doubleOfInt] at h
  cases hround : DoubleArithmetic.round (n : ℚ) with
  | finite q =>
    rw [hround] at h
    cases h
    exact ⟨q, rfl, rfl⟩
  | _ =>
    rw [hround] at h
    cases h

end

/-! ### Comparisons -/

theorem finite_lt_finite {p q : ℚ} : (Double.finite p).lt (.finite q) = true ↔ p < q := by
  simp [Double.lt]

/-- **What is neither below a bound nor above another** lies between them, or is no number. -/
theorem between_of_not_lt {x : Double} {low high : ℚ} (hlow : x.lt (.finite low) = false)
    (hhigh : (Double.finite high).lt x = false) : x = .nan ∨ ∃ q, x = .finite q ∧ low ≤ q ∧ q ≤ high := by
  cases x with
  | nan => exact .inl rfl
  | infinite negative => cases negative <;> simp [Double.lt] at hlow hhigh
  | finite q =>
    refine .inr ⟨q, rfl, ?_, ?_⟩
    · simpa [Double.lt] using hlow
    · simpa [Double.lt] using hhigh

theorem minDouble_finite (p q : ℚ) : minDouble (.finite p) (.finite q) = .finite (min p q) := by
  rw [minDouble]
  split_ifs with h
  · rw [finite_lt_finite] at h
    rw [min_eq_right h.le]
  · rw [finite_lt_finite, not_lt] at h
    rw [min_eq_left h]

end Python

end Ao2
