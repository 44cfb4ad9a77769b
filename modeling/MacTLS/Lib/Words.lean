import Mathlib.Data.Nat.Basic
import Mathlib.Algebra.Group.Nat.Defs

/-!
# Wide arithmetic on wrapping words

Sums that do not fit a word are kept as a low word and a carry, and the carry is found by comparing
the wrapped sum with an operand.

* `toNat_add_addCarry` : the wrapped sum and its carry are the sum;
* `toNat_addPair` : adding pairs of words with the carry of the low ones is addition modulo the
  square of the word size.
-/

namespace Lib

variable {w : ℕ}

/-- The carry out of `x + y`: one when the sum wrapped. -/
def addCarry (x y : BitVec w) : BitVec w := if x + y < x then 1 else 0

/-- The number that a high and a low word stand for. -/
def pairNat (hi lo : BitVec w) : ℕ := hi.toNat * 2 ^ w + lo.toNat

theorem mod_lt_left_iff {n x y : ℕ} (hx : x < n) (hy : y < n) : (x + y) % n < x ↔ n ≤ x + y := by
  by_cases h : n ≤ x + y
  · rw [Nat.mod_eq_sub_mod h, Nat.mod_eq_of_lt (by omega)]
    omega
  · rw [Nat.mod_eq_of_lt (by omega)]
    omega

/-- The comparison finds the carry. -/
theorem toNat_addCarry (x y : BitVec w) :
    (addCarry x y).toNat = if 2 ^ w ≤ x.toNat + y.toNat then 1 else 0 := by
  have hx := x.isLt
  have hy := y.isLt
  have hw : 2 ^ w ≤ x.toNat + y.toNat → 1 % 2 ^ w = 1 := fun h => Nat.mod_eq_of_lt (by omega)
  unfold addCarry
  simp only [BitVec.lt_def, BitVec.toNat_add, mod_lt_left_iff hx hy]
  split_ifs with h
  · simpa using hw h
  · rfl

theorem toNat_add_addCarry (x y : BitVec w) :
    (x + y).toNat + 2 ^ w * (addCarry x y).toNat = x.toNat + y.toNat := by
  have hx := x.isLt
  have hy := y.isLt
  rw [toNat_addCarry, BitVec.toNat_add]
  split_ifs with h
  · rw [Nat.mod_eq_sub_mod h, Nat.mod_eq_of_lt (by omega)]
    omega
  · rw [Nat.mod_eq_of_lt (by omega)]
    omega

/-- Adding two pairs, low words first. -/
theorem toNat_addPair (xhi xlo yhi ylo : BitVec w) :
    pairNat (xhi + yhi + addCarry xlo ylo) (xlo + ylo) =
      (pairNat xhi xlo + pairNat yhi ylo) % (2 ^ w * 2 ^ w) := by
  have hlo := toNat_add_addCarry xlo ylo
  have hlt := (xlo + ylo).isLt
  have hsum : pairNat xhi xlo + pairNat yhi ylo =
      (xlo + ylo).toNat + 2 ^ w * (xhi.toNat + yhi.toNat + (addCarry xlo ylo).toNat) := by
    unfold pairNat
    rw [Nat.mul_add, Nat.mul_add, Nat.mul_comm xhi.toNat, Nat.mul_comm yhi.toNat]
    omega
  rw [hsum, Nat.mod_mul, Nat.add_mul_mod_self_left, Nat.mod_eq_of_lt hlt,
    Nat.add_mul_div_left _ _ (Nat.two_pow_pos w), Nat.div_eq_of_lt hlt, Nat.zero_add, pairNat,
    BitVec.toNat_add, BitVec.toNat_add, Nat.mod_add_mod, Nat.mul_comm, Nat.add_comm]

end Lib
