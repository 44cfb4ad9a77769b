import MacTLS.Lib.Buffer

/-!
# Wire format helpers

Byte strings and the big-endian integers of the TLS wire format (`put_u16`, `get_u16`,
`put_u24`, `get_u24`).  A writer is the byte string it stores; a reader takes the buffer and
the offset.  Reads outside the buffer return zero, which no caller relies on: every caller
checks the length first.
-/

namespace MacTLS

open Lib

/-- Byte strings. -/
abbrev Bytes := List UInt8

/-- The byte of `b` at offset `i`. -/
def byteAt (b : Bytes) (i : ℕ) : UInt8 := b.getD i 0

/-- A 16-bit big-endian value; `v` is truncated as by a cast to `uint16_t`. -/
def putU16 (v : ℕ) : Bytes := [UInt8.ofNat (v / 256), UInt8.ofNat v]

/-- A 24-bit big-endian value (handshake message lengths). -/
def putU24 (v : ℕ) : Bytes := [UInt8.ofNat (v / 65536), UInt8.ofNat (v / 256), UInt8.ofNat v]

/-- A 32-bit big-endian value. -/
def putU32 (v : ℕ) : Bytes :=
  [UInt8.ofNat (v / 16777216), UInt8.ofNat (v / 65536), UInt8.ofNat (v / 256), UInt8.ofNat v]

/-- Read a 16-bit big-endian value at offset `p`. -/
def getU16 (b : Bytes) (p : ℕ) : ℕ := (byteAt b p).toNat * 256 + (byteAt b (p + 1)).toNat

/-- Read a 24-bit big-endian value at offset `p`. -/
def getU24 (b : Bytes) (p : ℕ) : ℕ :=
  (byteAt b p).toNat * 65536 + (byteAt b (p + 1)).toNat * 256 + (byteAt b (p + 2)).toNat

/-- Read a 32-bit big-endian value at offset `p`. -/
def getU32 (b : Bytes) (p : ℕ) : ℕ :=
  (byteAt b p).toNat * 16777216 + (byteAt b (p + 1)).toNat * 65536 +
    (byteAt b (p + 2)).toNat * 256 + (byteAt b (p + 3)).toNat

/-- The OR of the differences of the first `len` bytes: a constant-time comparison. -/
def byteDiff (a b : Bytes) (len : ℕ) : UInt8 :=
  (List.range len).foldl (fun acc i => acc ||| (byteAt a i ^^^ byteAt b i)) 0

@[simp] theorem length_putU16 (v : ℕ) : (putU16 v).length = 2 := rfl

@[simp] theorem length_putU24 (v : ℕ) : (putU24 v).length = 3 := rfl

@[simp] theorem length_putU32 (v : ℕ) : (putU32 v).length = 4 := rfl

theorem toNat_lt_256 (x : UInt8) : x.toNat < 256 := x.toNat_lt

theorem getU16_lt (b : Bytes) (p : ℕ) : getU16 b p < 65536 := by
  have h0 := toNat_lt_256 (byteAt b p)
  have h1 := toNat_lt_256 (byteAt b (p + 1))
  unfold getU16; omega

theorem getU24_lt (b : Bytes) (p : ℕ) : getU24 b p < 16777216 := by
  have h0 := toNat_lt_256 (byteAt b p)
  have h1 := toNat_lt_256 (byteAt b (p + 1))
  have h2 := toNat_lt_256 (byteAt b (p + 2))
  unfold getU24; omega

/-- The bytes before the end of `b` do not depend on what follows it. -/
theorem byteAt_append {b t : Bytes} {i : ℕ} (h : i < b.length) :
    byteAt (b ++ t) i = byteAt b i := by
  simp [byteAt, List.getElem?_append_left h]

theorem byteAt_append_right {b t : Bytes} {i : ℕ} (h : b.length ≤ i) :
    byteAt (b ++ t) i = byteAt t (i - b.length) := by
  simp [byteAt, List.getElem?_append_right h]

theorem byteAt_take {b : Bytes} {i n : ℕ} (h : i < n) : byteAt (b.take n) i = byteAt b i := by
  simp [byteAt, List.getElem?_take_of_lt h]

theorem byteAt_drop (b : Bytes) (n i : ℕ) : byteAt (b.drop n) i = byteAt b (n + i) := by
  simp [byteAt]

theorem getU16_append {b t : Bytes} {p : ℕ} (h : p + 2 ≤ b.length) :
    getU16 (b ++ t) p = getU16 b p := by
  rw [getU16, getU16, byteAt_append (by omega), byteAt_append (by omega)]

theorem getU24_append {b t : Bytes} {p : ℕ} (h : p + 3 ≤ b.length) :
    getU24 (b ++ t) p = getU24 b p := by
  rw [getU24, getU24, byteAt_append (by omega), byteAt_append (by omega),
    byteAt_append (by omega)]

theorem getU24_take {b : Bytes} {p n : ℕ} (h : p + 3 ≤ n) :
    getU24 (b.take n) p = getU24 b p := by
  rw [getU24, getU24, byteAt_take (by omega), byteAt_take (by omega), byteAt_take (by omega)]

theorem toNat_ofNat_of_lt {v : ℕ} (h : v < 256) : (UInt8.ofNat v).toNat = v := by
  simp [Nat.mod_eq_of_lt h]

/-- Reading back a 24-bit length field. -/
theorem getU24_cons_putU24 {x : UInt8} {v : ℕ} (t : Bytes) (h : v < 16777216) :
    getU24 (x :: (putU24 v ++ t)) 1 = v := by
  simp only [getU24, putU24, byteAt, List.cons_append, List.nil_append, List.getD_cons_succ,
    List.getD_cons_zero, UInt8.toNat_ofNat']
  omega

/-- The bytes behind `b`. -/
theorem byteAt_append_add (b t : Bytes) (i : ℕ) : byteAt (b ++ t) (b.length + i) = byteAt t i := by
  rw [byteAt_append_right (Nat.le_add_right _ _), Nat.add_sub_cancel_left]

theorem getU16_putU16 (b t : Bytes) {v : ℕ} (h : v < 65536) :
    getU16 (b ++ (putU16 v ++ t)) b.length = v := by
  have h0 := byteAt_append_add b (putU16 v ++ t) 0
  rw [Nat.add_zero] at h0
  rw [getU16, h0, byteAt_append_add]
  simp only [byteAt, putU16, List.cons_append, List.nil_append, List.getD_cons_zero,
    List.getD_cons_succ, UInt8.toNat_ofNat']
  omega

theorem getU24_putU24 (b t : Bytes) {v : ℕ} (h : v < 16777216) :
    getU24 (b ++ (putU24 v ++ t)) b.length = v := by
  have h0 := byteAt_append_add b (putU24 v ++ t) 0
  rw [Nat.add_zero] at h0
  rw [getU24, h0, byteAt_append_add, byteAt_append_add]
  simp only [byteAt, putU24, List.cons_append, List.nil_append, List.getD_cons_zero,
    List.getD_cons_succ, UInt8.toNat_ofNat']
  omega

/-- Writing back a 24-bit field gives the bytes it was read from. -/
theorem putU24_getU24 (b : Bytes) (p : ℕ) :
    putU24 (getU24 b p) = [byteAt b p, byteAt b (p + 1), byteAt b (p + 2)] := by
  have h0 := toNat_lt_256 (byteAt b p)
  have h1 := toNat_lt_256 (byteAt b (p + 1))
  have h2 := toNat_lt_256 (byteAt b (p + 2))
  have heq : ∀ (x : UInt8) (n : ℕ), n % 256 = x.toNat → UInt8.ofNat n = x := by
    intro x n hn
    apply UInt8.toNat_inj.1
    rw [UInt8.toNat_ofNat', hn]
  simp only [putU24, getU24, List.cons.injEq, and_true]
  exact ⟨heq _ _ (by omega), heq _ _ (by omega), heq _ _ (by omega)⟩

/-- Writing back a 16-bit field gives the bytes it was read from. -/
theorem putU16_getU16 (b : Bytes) (p : ℕ) : putU16 (getU16 b p) = [byteAt b p, byteAt b (p + 1)] := by
  have h0 := toNat_lt_256 (byteAt b p)
  have h1 := toNat_lt_256 (byteAt b (p + 1))
  have heq : ∀ (x : UInt8) (n : ℕ), n % 256 = x.toNat → UInt8.ofNat n = x := by
    intro x n hn
    apply UInt8.toNat_inj.1
    rw [UInt8.toNat_ofNat', hn]
  simp only [putU16, getU16, List.cons.injEq, and_true]
  exact ⟨heq _ _ (by omega), heq _ _ (by omega)⟩

theorem byteAt_slice {b : Bytes} {p n i : ℕ} (h : i < n) : byteAt (slice b p n) i = byteAt b (p + i) := by
  rw [slice, byteAt_take h, byteAt_drop]

theorem getU16_slice {b : Bytes} {p n i : ℕ} (h : i + 2 ≤ n) :
    getU16 (slice b p n) i = getU16 b (p + i) := by
  rw [getU16, getU16, byteAt_slice (by omega), byteAt_slice (by omega)]
  rfl

/-- A field of two bytes, as it was read. -/
theorem slice_two {b : Bytes} {p : ℕ} (h : p + 2 ≤ b.length) : slice b p 2 = putU16 (getU16 b p) := by
  have hcons : ∀ q, q < b.length → b.drop q = byteAt b q :: b.drop (q + 1) := by
    intro q hq
    rw [List.drop_eq_getElem_cons hq, byteAt, List.getD_eq_getElem?_getD, List.getElem?_eq_getElem hq]
    rfl
  rw [putU16_getU16, slice, hcons p (by omega), hcons (p + 1) (by omega)]
  rfl

/-- A string of at least four bytes starts with them. -/
theorem eq_cons_drop_four {b : Bytes} (h : 4 ≤ b.length) :
    b = byteAt b 0 :: byteAt b 1 :: byteAt b 2 :: byteAt b 3 :: b.drop 4 := by
  match b, h with
  | _ :: _ :: _ :: _ :: _, _ => rfl

theorem foldl_lor_eq_zero {f : ℕ → UInt8} {l : List ℕ} {d : UInt8} :
    l.foldl (fun diff i => diff ||| f i) d = 0 ↔ d = 0 ∧ ∀ i ∈ l, f i = 0 := by
  induction l generalizing d with
  | nil => simp
  | cons i l ih =>
    rw [List.foldl_cons, ih, UInt8.or_eq_zero_iff]
    simp only [List.mem_cons, forall_eq_or_imp, and_assoc]

/-- The comparison finds no difference exactly between equal strings. -/
theorem byteDiff_eq_zero_iff {a b : Bytes} {len : ℕ} (ha : a.length = len)
    (hb : b.length = len) : byteDiff a b len = 0 ↔ a = b := by
  rw [byteDiff, foldl_lor_eq_zero]
  constructor
  · rintro ⟨-, h⟩
    apply List.ext_getElem (ha.trans hb.symm)
    intro i h1 h2
    have hi := h i (List.mem_range.2 (ha ▸ h1))
    rw [UInt8.xor_eq_zero_iff] at hi
    simpa [byteAt, h1, h2] using hi
  · rintro rfl
    simp

end MacTLS
