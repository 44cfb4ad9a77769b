import Mathlib.Data.List.Basic
import Mathlib.Data.List.TakeDrop

/-!
# Buffers written in place

A fixed array that a program fills and reads by offset is modelled as the list of its cells.
`blit b off src` is the array after `src` was copied to `b[off ..]` (a `memcpy` into the middle
of a buffer), and `slice b off len` is what a copy of `len` cells out of `b[off ..]` yields.

* `slice_blit_self` : reading back the cells just written gives the source;
* `slice_blit_before`, `slice_blit_after` : the cells around it are unchanged;
* `length_blit` : a copy that fits does not change the size of the buffer.
-/

namespace Lib

variable {α : Type*}

/-- The buffer `b` after `src` was copied to its cells `off, off + 1, …`. -/
def blit (b : List α) (off : ℕ) (src : List α) : List α :=
  b.take off ++ src ++ b.drop (off + src.length)

/-- The `len` cells of `b` from `off` on. -/
def slice (b : List α) (off len : ℕ) : List α := (b.drop off).take len

theorem length_blit {b src : List α} {off : ℕ} (h : off + src.length ≤ b.length) :
    (blit b off src).length = b.length := by
  simp only [blit, List.length_append, List.length_take, List.length_drop]
  omega

theorem length_slice {b : List α} {off len : ℕ} (h : off + len ≤ b.length) :
    (slice b off len).length = len := by
  simp only [slice, List.length_take, List.length_drop]
  omega

/-- The cells before the end of `b` do not depend on what follows it. -/
theorem slice_append {b t : List α} {off len : ℕ} (h : off + len ≤ b.length) :
    slice (b ++ t) off len = slice b off len := by
  rw [slice, slice, List.drop_append_of_le_length (by omega),
    List.take_append_of_le_length (by rw [List.length_drop]; omega)]

/-- The cells that stand behind `b`. -/
theorem slice_append_right (b x t : List α) : slice (b ++ (x ++ t)) b.length x.length = x := by
  rw [slice, List.drop_left, List.take_left]

/-- Reading on where the reading stopped. -/
theorem slice_split (b : List α) (off : ℕ) {n len : ℕ} (h : n ≤ len) :
    slice b off len = slice b off n ++ slice b (off + n) (len - n) := by
  have hlen : len = n + (len - n) := by omega
  conv_lhs => rw [slice, hlen, List.take_add, List.drop_drop]
  rfl

/-- The part of a window that is taken, and what is left of it. -/
theorem take_slice_append (b : List α) (off len n : ℕ) :
    (slice b off len).take n ++
      slice b (off + min n (slice b off len).length) (len - min n (slice b off len).length) =
        slice b off len := by
  have hlen : min n (slice b off len).length ≤ len := by
    rw [slice, List.length_take]
    omega
  have htake : (slice b off len).take n = slice b off (min n (slice b off len).length) := by
    rw [List.take_eq_take_min]
    generalize min n (slice b off len).length = m at hlen ⊢
    rw [slice, List.take_take, Nat.min_eq_left hlen]
    rfl
  rw [htake]
  exact (slice_split b off hlen).symm

theorem slice_take {b : List α} {off len n : ℕ} (h : off + len ≤ n) :
    slice (b.take n) off len = slice b off len := by
  rw [slice, slice, List.drop_take, List.take_take, Nat.min_eq_left (by omega)]

/-- What is read of what was read. -/
theorem slice_slice {b : List α} {off n i len : ℕ} (h : i + len ≤ n) :
    slice (slice b off n) i len = slice b (off + i) len := by
  rw [slice, slice, slice, List.drop_take, List.take_take, List.drop_drop,
    Nat.min_eq_left (by omega)]

@[simp] theorem blit_nil (b : List α) (off : ℕ) : blit b off [] = b := by simp [blit]

@[simp] theorem slice_zero_length (b : List α) : slice b 0 b.length = b := by simp [slice]

theorem slice_blit_self {b x : List α} {n : ℕ} (h : n ≤ b.length) :
    slice (blit b n x) n x.length = x := by
  have hlen : (b.take n).length = n := by simp [h]
  rw [slice, blit, List.append_assoc, List.drop_append, hlen]
  simp

/-- Reading the front of a buffer whose front was just written. -/
@[simp] theorem take_blit_zero (b src : List α) : (blit b 0 src).take src.length = src := by
  simp [blit]

theorem slice_blit_before {b src : List α} {off off' len : ℕ} (h : off ≤ b.length)
    (hb : off' + len ≤ off) : slice (blit b off src) off' len = slice b off' len := by
  apply List.ext_getElem?
  intro i
  simp only [slice, blit, List.getElem?_take, List.getElem?_drop, List.append_assoc]
  split_ifs with hi
  · rw [List.getElem?_append_left (by simp; omega), List.getElem?_take_of_lt (by omega)]
  · rfl

theorem slice_blit_after {b src : List α} {off off' len : ℕ} (h : off ≤ b.length)
    (ha : off + src.length ≤ off') : slice (blit b off src) off' len = slice b off' len := by
  have hlen : (b.take off ++ src).length = off + src.length := by simp [h]
  rw [slice, slice, blit, List.drop_append, List.drop_eq_nil_of_le (by omega), hlen,
    List.drop_drop, List.nil_append, Nat.add_sub_of_le ha]

end Lib
