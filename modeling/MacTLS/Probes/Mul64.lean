import MacTLS.Lib.Words
import Mathlib.Tactic.Ring

/-!
# The 64-bit multiply probe

`tools/probes/ppc_mul64`: the compiler's 64-bit multiply is compared with a schoolbook product that
uses 32-bit operations only.  The multiply under test is the parameter `mul`; additions and shifts
of 64-bit values are taken to be right.

* `schoolbook_exact` : the schoolbook product is the product;
* `pairNat_twoProductSum` : the sum of two of them, with its carry, is the sum modulo `2^64`;
* `probe_reference` : so a probe that fails has found a wrong product.
-/

namespace MacTLS

open Lib

abbrev ProbeU32 := BitVec 32
abbrev ProbeU64 := BitVec 64

/-! ### The reference -/

/-- The product of two words as a high and a low word. -/
def schoolbookMul32x32 (a b : ProbeU32) : ProbeU32 × ProbeU32 :=
  let al := a &&& 0xFFFF
  let ah := a >>> 16
  let bl := b &&& 0xFFFF
  let bh := b >>> 16
  let ll := al * bl
  let lh := al * bh
  let hl := ah * bl
  let hh := ah * bh
  let mid := lh + hl
  let midCarry : ProbeU32 := if mid < lh then 1 else 0
  let llHi := ll >>> 16
  let midPlusLlHi := mid + llHi
  let midCarry := if midPlusLlHi < mid then midCarry + 1 else midCarry
  let mid := midPlusLlHi
  let lo := (mid <<< 16) ||| (ll &&& 0xFFFF)
  let hi := hh + (mid >>> 16) + (midCarry <<< 16)
  (hi, lo)

/-- `((ProbeU64)hi << 32) | lo` -/
def probeJoin (hi lo : ProbeU32) : ProbeU64 := (hi.setWidth 64 <<< 32) ||| lo.setWidth 64

/-- The reference of the second family: two products added by their words. -/
def twoProductSum (a b c d : ProbeU32) : ProbeU64 :=
  let ab := schoolbookMul32x32 a b
  let cd := schoolbookMul32x32 c d
  let lo := ab.2 + cd.2
  let carry : ProbeU32 := if lo < ab.2 then 1 else 0
  let hi := ab.1 + cd.1 + carry
  probeJoin hi lo

/-! ### The three families -/

structure MulCase where
  a : ProbeU32
  b : ProbeU32
  deriving DecidableEq

def kCases : List MulCase :=
  [⟨0, 0⟩, ⟨1, 1⟩, ⟨1, 0xFFFFFFFF⟩, ⟨0xFFFFFFFF, 1⟩, ⟨0xFFFFFFFF, 0xFFFFFFFF⟩, ⟨131072, 1024⟩,
    ⟨1024, 131072⟩, ⟨0x12345678, 0x87654321⟩, ⟨0xDEADBEEF, 0xCAFEBABE⟩, ⟨0xFFFF, 0xFFFF⟩,
    ⟨0x80000000, 0x00000002⟩, ⟨0xAAAAAAAA, 0x55555555⟩]

section

variable (mul : ProbeU64 → ProbeU64 → ProbeU64)

/-- `(ProbeU64)a * (ProbeU64)b` as the compiler under test computes it. -/
def nativeMul (a b : ProbeU32) : ProbeU64 := mul (a.setWidth 64) (b.setWidth 64)

/-- The case fails in the first family: a straight product. -/
def failsA (k : MulCase) : Bool :=
  let z := nativeMul mul k.a k.b
  let nativeHi : ProbeU32 := (z >>> 32).setWidth 32
  let nativeLo : ProbeU32 := (z &&& 0xFFFFFFFF).setWidth 32
  let ref := schoolbookMul32x32 k.a k.b
  nativeHi != ref.1 || nativeLo != ref.2

/-- The case fails in the second family: a sum of two products. -/
def failsB (a b c d : ProbeU32) : Bool :=
  nativeMul mul a b + nativeMul mul c d != twoProductSum a b c d

/-- The case fails in the third family: the high word alone. -/
def failsC (k : MulCase) : Bool :=
  ((nativeMul mul k.a k.b) >>> 32).setWidth 32 != (schoolbookMul32x32 k.a k.b).1

def runFamilyA (cases : List MulCase) : ℕ := cases.countP (failsA mul)

/-- The second product of a case is made of two later cases. -/
def runFamilyB (cases : List MulCase) : ℕ :=
  (List.range cases.length).countP fun i =>
    let at' (j : ℕ) := cases.getD (j % cases.length) ⟨0, 0⟩
    failsB mul (at' i).a (at' i).b (at' (i + 3)).a (at' (i + 5)).b

def runFamilyC (cases : List MulCase) : ℕ := cases.countP (failsC mul)

/-- The number of mismatches the probe reports over these cases. -/
def ppcMul64RunProbe (cases : List MulCase) : ℕ :=
  runFamilyA mul cases + runFamilyB mul cases + runFamilyC mul cases

end

/-! ### The reference is right -/

theorem toNat_halves (a : ProbeU32) :
    (a &&& 0xFFFF).toNat < 65536 ∧ (a >>> 16).toNat < 65536 ∧
      a.toNat = (a >>> 16).toNat * 65536 + (a &&& 0xFFFF).toNat := by
  have h := a.isLt
  have hmask : (0xFFFF : ProbeU32).toNat = 2 ^ 16 - 1 := rfl
  rw [BitVec.toNat_and, hmask, Nat.and_two_pow_sub_one_eq_mod, BitVec.toNat_ushiftRight,
    Nat.shiftRight_eq_div_pow]
  omega

/-- A product of two halves does not wrap. -/
theorem toNat_mul_halves {x y : ProbeU32} (hx : x.toNat < 65536) (hy : y.toNat < 65536) :
    (x * y).toNat = x.toNat * y.toNat ∧ x.toNat * y.toNat ≤ 65535 * 65535 := by
  have h : x.toNat * y.toNat ≤ 65535 * 65535 := Nat.mul_le_mul (by omega) (by omega)
  refine ⟨?_, h⟩
  rw [BitVec.toNat_mul, Nat.mod_eq_of_lt (by omega)]

/-- A word put together from the low half of one and of another. -/
theorem toNat_join_halves (x y : ProbeU32) :
    ((x <<< 16) ||| (y &&& 0xFFFF)).toNat = x.toNat % 65536 * 65536 + y.toNat % 65536 := by
  have hmask : (0xFFFF : ProbeU32).toNat = 2 ^ 16 - 1 := rfl
  have hshift : x.toNat <<< 16 % 2 ^ 32 = 2 ^ 16 * (x.toNat % 65536) := by
    rw [Nat.shiftLeft_eq]
    omega
  rw [BitVec.toNat_or, BitVec.toNat_and, hmask, Nat.and_two_pow_sub_one_eq_mod,
    BitVec.toNat_shiftLeft, hshift, ← Nat.two_pow_add_eq_or_of_lt (Nat.mod_lt _ (by decide))]
  omega

/-- The two carries out of the middle sum are counted. -/
theorem toNat_midCarry (lh hl llHi : ProbeU32) :
    (if lh + hl + llHi < lh + hl then (if lh + hl < lh then (1 : ProbeU32) else 0) + 1
      else if lh + hl < lh then 1 else 0) = addCarry lh hl + addCarry (lh + hl) llHi := by
  unfold addCarry
  split_ifs <;> simp

theorem schoolbook_exact (a b : ProbeU32) :
    pairNat (schoolbookMul32x32 a b).1 (schoolbookMul32x32 a b).2 = a.toNat * b.toNat := by
  obtain ⟨hal, hah, ha⟩ := toNat_halves a
  obtain ⟨hbl, hbh, hb⟩ := toNat_halves b
  unfold schoolbookMul32x32 pairNat
  dsimp only
  rw [toNat_midCarry]
  generalize a &&& 0xFFFF = al at hal ha ⊢
  generalize a >>> 16 = ah at hah ha ⊢
  generalize b &&& 0xFFFF = bl at hbl hb ⊢
  generalize b >>> 16 = bh at hbh hb ⊢
  obtain ⟨hll, hll'⟩ := toNat_mul_halves hal hbl
  obtain ⟨hlh, hlh'⟩ := toNat_mul_halves hal hbh
  obtain ⟨hhl, hhl'⟩ := toNat_mul_halves hah hbl
  obtain ⟨hhh, hhh'⟩ := toNat_mul_halves hah hbh
  have hprod : a.toNat * b.toNat = ah.toNat * bh.toNat * 4294967296 +
      (al.toNat * bh.toNat + ah.toNat * bl.toNat) * 65536 + al.toNat * bl.toNat := by
    rw [ha, hb]
    ring
  rw [hprod, toNat_join_halves]
  rw [← hll] at hll' ⊢
  rw [← hlh] at hlh' ⊢
  rw [← hhl] at hhl' ⊢
  rw [← hhh] at hhh' ⊢
  generalize al * bl = ll at hll' ⊢
  generalize al * bh = lh at hlh' ⊢
  generalize ah * bl = hl at hhl' ⊢
  generalize ah * bh = hh at hhh' ⊢
  have hc1 := toNat_add_addCarry lh hl
  have hc2 := toNat_add_addCarry (lh + hl) (ll >>> 16)
  have hmid := (lh + hl + ll >>> 16).isLt
  have hllHi : (ll >>> 16).toNat = ll.toNat / 65536 := by
    rw [BitVec.toNat_ushiftRight, Nat.shiftRight_eq_div_pow]
  have hmidHi : ((lh + hl + ll >>> 16) >>> 16).toNat = (lh + hl + ll >>> 16).toNat / 65536 := by
    rw [BitVec.toNat_ushiftRight, Nat.shiftRight_eq_div_pow]
  generalize addCarry lh hl = c1 at hc1 ⊢
  generalize addCarry (lh + hl) (ll >>> 16) = c2 at hc2 ⊢
  generalize lh + hl + ll >>> 16 = mid at hc2 hmid hmidHi ⊢
  -- the middle sum and its carries, and what is left is linear
  have hcarry : c1.toNat + c2.toNat ≤ 1 := by omega
  have hshift : ((c1 + c2) <<< 16).toNat = (c1.toNat + c2.toNat) * 65536 := by
    rw [BitVec.toNat_shiftLeft, BitVec.toNat_add, Nat.shiftLeft_eq]
    omega
  rw [BitVec.toNat_add, BitVec.toNat_add, hshift, hmidHi]
  omega

theorem toNat_probeJoin (hi lo : ProbeU32) : (probeJoin hi lo).toNat = pairNat hi lo := by
  have hh := hi.isLt
  have hl := lo.isLt
  have hshift : (hi.toNat % 2 ^ 64) <<< 32 % 2 ^ 64 = 2 ^ 32 * hi.toNat := by
    rw [Nat.shiftLeft_eq]
    omega
  rw [probeJoin, BitVec.toNat_or, BitVec.toNat_shiftLeft, BitVec.toNat_setWidth,
    BitVec.toNat_setWidth, hshift, Nat.mod_eq_of_lt (by omega : lo.toNat < 2 ^ 64),
    ← Nat.two_pow_add_eq_or_of_lt hl, pairNat, Nat.mul_comm]

theorem toNat_twoProductSum (a b c d : ProbeU32) : (twoProductSum a b c d).toNat =
    (a.toNat * b.toNat + c.toNat * d.toNat) % 18446744073709551616 := by
  have h := toNat_addPair (schoolbookMul32x32 a b).1 (schoolbookMul32x32 a b).2
    (schoolbookMul32x32 c d).1 (schoolbookMul32x32 c d).2
  rw [schoolbook_exact, schoolbook_exact] at h
  rw [twoProductSum, toNat_probeJoin]
  exact h

/-! ### What a mismatch means -/

/-- The compiler multiplies these two words right. -/
def NativeRight (mul : ProbeU64 → ProbeU64 → ProbeU64) (a b : ProbeU32) : Prop :=
  (nativeMul mul a b).toNat = a.toNat * b.toNat

section

variable {mul : ProbeU64 → ProbeU64 → ProbeU64}

/-- A right product has the words of the reference. -/
theorem NativeRight.words {a b : ProbeU32} (h : NativeRight mul a b) :
    ((nativeMul mul a b) >>> 32).setWidth 32 = (schoolbookMul32x32 a b).1 ∧
      ((nativeMul mul a b) &&& 0xFFFFFFFF).setWidth 32 = (schoolbookMul32x32 a b).2 := by
  have href := (schoolbook_exact a b).trans h.symm
  have hlo := (schoolbookMul32x32 a b).2.isLt
  have hhi := (schoolbookMul32x32 a b).1.isLt
  have hmask : (0xFFFFFFFF : ProbeU64).toNat = 2 ^ 32 - 1 := rfl
  unfold pairNat at href
  constructor
  · apply BitVec.eq_of_toNat_eq
    rw [BitVec.toNat_setWidth, BitVec.toNat_ushiftRight, Nat.shiftRight_eq_div_pow, ← href]
    omega
  · apply BitVec.eq_of_toNat_eq
    rw [BitVec.toNat_setWidth, BitVec.toNat_and, hmask, Nat.and_two_pow_sub_one_eq_mod, ← href]
    omega

theorem NativeRight.sum {a b c d : ProbeU32} (hab : NativeRight mul a b)
    (hcd : NativeRight mul c d) :
    nativeMul mul a b + nativeMul mul c d = twoProductSum a b c d := by
  apply BitVec.eq_of_toNat_eq
  rw [BitVec.toNat_add, hab, hcd, toNat_twoProductSum]

/-- A compiler that multiplies right passes. -/
theorem ppcMul64RunProbe_eq_zero (h : ∀ a b, NativeRight mul a b) (cases : List MulCase) :
    ppcMul64RunProbe mul cases = 0 := by
  have hA : runFamilyA mul cases = 0 := by
    refine List.countP_eq_zero.2 fun k _ => ?_
    obtain ⟨hhi, hlo⟩ := (h k.a k.b).words
    simp only [failsA, hhi, hlo, bne_self_eq_false, Bool.or_self, Bool.false_eq_true,
      not_false_eq_true]
  have hB : runFamilyB mul cases = 0 := by
    refine List.countP_eq_zero.2 fun i _ => ?_
    simp [failsB, (h _ _).sum (h _ _)]
  have hC : runFamilyC mul cases = 0 := by
    refine List.countP_eq_zero.2 fun k _ => ?_
    simp [failsC, (h k.a k.b).words.1]
  rw [ppcMul64RunProbe, hA, hB, hC]

end

/-- **The probe's reference.**  For all words the schoolbook product is the product, and the sum of
two of them with its carry is the sum modulo `2^64`; so over any cases a mismatch reported by the
probe means that the compiler's multiply is wrong on some pair of words. -/
theorem probe_reference :
    (∀ a b : ProbeU32, (schoolbookMul32x32 a b).1.toNat * 4294967296 +
      (schoolbookMul32x32 a b).2.toNat = a.toNat * b.toNat) ∧
    (∀ a b c d : ProbeU32, (twoProductSum a b c d).toNat =
      (a.toNat * b.toNat + c.toNat * d.toNat) % 18446744073709551616) ∧
    ∀ (mul : ProbeU64 → ProbeU64 → ProbeU64) (cases : List MulCase),
      ppcMul64RunProbe mul cases ≠ 0 → ∃ a b, ¬NativeRight mul a b := by
  refine ⟨schoolbook_exact, toNat_twoProductSum, fun mul cases hfail => ?_⟩
  by_contra hall
  push Not at hall
  exact hfail (ppcMul64RunProbe_eq_zero hall cases)

example : ppcMul64RunProbe (· * ·) kCases = 0 := by decide +kernel

end MacTLS
