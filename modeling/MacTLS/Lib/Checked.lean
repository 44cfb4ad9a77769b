import MacTLS.Lib.Buffer
import Mathlib.Data.List.Infix

/-!
# Checked access to a buffer

A computation that reads a buffer by offset, with every access checked.  It ends with a value, with
a refusal of its own, or because it left the buffer; code that keeps to its bounds never does the
last.

* `Inside` : the computation does not leave the buffer, and the rules for it (`Inside.bind`,
  `inside_cell`, `inside_window`);
* `StandsAt` : what stands at an offset, and what is read there.
-/

namespace Lib

universe u

variable {α β : Type u} {ε : Type*} {b x y : List α} {p i : ℕ}

/-- Why a checked computation ended without a value. -/
inductive Stop (ε : Type*) where
  | outside
  | refused (e : ε)
  deriving DecidableEq

abbrev Checked (ε : Type*) (α : Type u) := Except (Stop ε) α

/-- Read one cell. -/
def cell (b : List α) (i : ℕ) : Checked ε α :=
  match b[i]? with
  | some a => .ok a
  | none => .error .outside

/-- Copy `len` cells out of the buffer. -/
def window (b : List α) (off len : ℕ) : Checked ε (List α) :=
  if off + len ≤ b.length then .ok (slice b off len) else .error .outside

/-- A copy of `n` cells fits a destination of `cap` cells. -/
def copyFits (n cap : ℕ) : Checked ε Unit := if n ≤ cap then .ok () else .error .outside

/-- The computation does not leave the buffer. -/
def Inside (c : Checked ε α) : Prop := c ≠ .error .outside

theorem inside_ok (a : α) : Inside (.ok a : Checked ε α) := by simp [Inside]

theorem inside_refused (e : ε) : Inside (.error (.refused e) : Checked ε α) := by simp [Inside]

/-- The sequence rule. -/
theorem Inside.bind {c : Checked ε α} {f : α → Checked ε β} (hc : Inside c)
    (hf : ∀ a, c = .ok a → Inside (f a)) : Inside (c >>= f) := by
  cases c with
  | ok a => exact hf a rfl
  | error e =>
    cases e with
    | outside => exact absurd rfl hc
    | refused e => exact inside_refused e

/-- A sequence that ends with a value went through its first part. -/
theorem bind_eq_ok {c : Checked ε α} {f : α → Checked ε β} {a : β} (h : c >>= f = .ok a) :
    ∃ v, c = .ok v ∧ f v = .ok a := by
  cases c with
  | ok v => exact ⟨v, rfl, h⟩
  | error e => cases h

theorem cell_eq (h : i < b.length) : (cell b i : Checked ε α) = .ok b[i] := by
  rw [cell, List.getElem?_eq_getElem h]

theorem cell_outside (h : b.length ≤ i) : (cell b i : Checked ε α) = .error .outside := by
  rw [cell, List.getElem?_eq_none h]

theorem inside_cell (h : i < b.length) : Inside (cell b i : Checked ε α) := by
  rw [cell_eq h]
  exact inside_ok _

theorem window_eq {off len : ℕ} (h : off + len ≤ b.length) :
    (window b off len : Checked ε (List α)) = .ok (slice b off len) := if_pos h

theorem copyFits_eq {n cap : ℕ} (h : n ≤ cap) : (copyFits n cap : Checked ε Unit) = .ok () :=
  if_pos h

/-! ### What stands at an offset -/

/-- `x` stands in `b` at the offset `p`. -/
def StandsAt (b : List α) (p : ℕ) (x : List α) : Prop := x <+: b.drop p

theorem standsAt_zero (x : List α) : StandsAt x 0 x := List.prefix_rfl

theorem StandsAt.left (h : StandsAt b p (x ++ y)) : StandsAt b p x :=
  (List.prefix_append x y).trans h

theorem StandsAt.right (h : StandsAt b p (x ++ y)) : StandsAt b (p + x.length) y := by
  obtain ⟨t, ht⟩ := h
  refine ⟨t, ?_⟩
  rw [← List.drop_drop, ← ht, List.append_assoc, List.drop_left]

theorem StandsAt.inside (h : StandsAt b p x) (hx : x ≠ []) : p + x.length ≤ b.length := by
  have hle := List.IsPrefix.length_le h
  have hpos := List.length_pos_of_ne_nil hx
  rw [List.length_drop] at hle
  omega

theorem StandsAt.getElem? (h : StandsAt b p x) (hi : i < x.length) : b[p + i]? = x[i]? := by
  obtain ⟨t, ht⟩ := h
  rw [← List.getElem?_drop, ← ht, List.getElem?_append_left hi]

theorem StandsAt.cell (h : StandsAt b p x) (hi : i < x.length) :
    (cell b (p + i) : Checked ε α) = .ok x[i] := by
  rw [Lib.cell, h.getElem? hi, List.getElem?_eq_getElem hi]

theorem StandsAt.slice (h : StandsAt b p x) : slice b p x.length = x := by
  obtain ⟨t, ht⟩ := h
  rw [Lib.slice, ← ht, List.take_left]

end Lib
