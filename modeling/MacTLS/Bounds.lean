import MacTLS.Wire
import MacTLS.Lib.Checked

/-!
# Checked reads of the wire format

The readers of the wire format with every byte they touch checked against the buffer.  Inside it
they read what the unchecked ones read.
-/

namespace MacTLS

open Lib

variable {ε : Type} {b : Bytes} {p i : ℕ}

/-- `get_u16` -/
def readU16 (b : Bytes) (p : ℕ) : Checked ε ℕ := do
  let x0 ← cell b p
  let x1 ← cell b (p + 1)
  return x0.toNat * 256 + x1.toNat

/-- `get_u24` -/
def readU24 (b : Bytes) (p : ℕ) : Checked ε ℕ := do
  let x0 ← cell b p
  let x1 ← cell b (p + 1)
  let x2 ← cell b (p + 2)
  return x0.toNat * 65536 + x1.toNat * 256 + x2.toNat

theorem cell_byteAt (h : i < b.length) : (cell b i : Checked ε UInt8) = .ok (byteAt b i) := by
  rw [cell_eq h, byteAt, List.getD_eq_getElem?_getD, List.getElem?_eq_getElem h]
  rfl

theorem readU16_eq (h : p + 2 ≤ b.length) : (readU16 b p : Checked ε ℕ) = .ok (getU16 b p) := by
  rw [readU16, cell_byteAt (by omega), cell_byteAt (by omega)]
  rfl

theorem readU24_eq (h : p + 3 ≤ b.length) : (readU24 b p : Checked ε ℕ) = .ok (getU24 b p) := by
  rw [readU24, cell_byteAt (by omega), cell_byteAt (by omega), cell_byteAt (by omega)]
  rfl

theorem readU16_outside (h : b.length < p + 2) :
    (readU16 b p : Checked ε ℕ) = .error .outside := by
  rw [readU16]
  by_cases hp : p < b.length
  · rw [cell_byteAt hp, cell_outside (by omega)]
    rfl
  · rw [cell_outside (by omega)]
    rfl

end MacTLS
