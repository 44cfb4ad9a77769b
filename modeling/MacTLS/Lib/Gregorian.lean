import Mathlib.Algebra.Order.Group.Nat

/-!
# Day numbers in the Gregorian calendar

The proleptic Gregorian calendar counted in whole days from 0000-01-01.

* `Gregorian.daysBefore` : the days before the first of January of a year;
* `Gregorian.daysBefore_eq` : the closed form, with a leap day in every fourth year but three in
  four hundred years.
-/

namespace Lib

namespace Gregorian

/-- The year has a 29th of February. -/
def leap (y : ℕ) : Bool := y % 4 = 0 ∧ (y % 100 ≠ 0 ∨ y % 400 = 0)

/-- The days from 0000-01-01 to the first of January of a year. -/
def daysBefore : ℕ → ℕ
  | 0 => 0
  | y + 1 => daysBefore y + if leap y then 366 else 365

theorem daysBefore_eq (y : ℕ) :
    daysBefore y = 365 * y + (y + 3) / 4 + (y + 399) / 400 - (y + 99) / 100 := by
  induction y with
  | zero => rfl
  | succ y ih =>
    rw [daysBefore, ih]
    simp only [leap, decide_eq_true_eq]
    split_ifs with h <;> omega

end Gregorian

end Lib
