import MacTLS.Lib.Gregorian
import Mathlib.Data.Nat.Bitwise

/-!
# The clock

The conversion from the clock of the machine, local time in seconds since 1904, to the day and the
second that the X.509 validator takes as the present.

* `ostlsGetBearSSLTimeDetails` : the conversion on `UInt32` words, with the offset from GMT in
  the low 24 bits of its word;
* `bearSSLTime_exact` : it yields the exact instant from 2000-01-01 to the end of the clock, and
  refuses every other one.
-/

namespace MacTLS

open Lib

/-! ### The conversion -/

inductive OSTLSTimeResult where
  | ok
  | clockBefore2000
  deriving DecidableEq

/-- Seconds from 1904-01-01 to 1970-01-01. -/
def ostlsMacToUnixOffset : UInt32 := 2082844800

/-- The day number of 1970-01-01. -/
def ostlsBearSSLDaysUnixEpoch : UInt32 := 719528

/-- Seconds from 1970-01-01 to 2000-01-01. -/
def ostlsUnixTo2000Offset : UInt32 := 946684800

structure OSTLSTimeDetails where
  localMacSeconds : UInt32
  gmtDeltaSeconds : ℤ
  utcMacSeconds : UInt32
  unixSeconds : UInt32
  bearsslDays : UInt32
  bearsslSeconds : UInt32
  result : OSTLSTimeResult

/-- The signed offset in the low 24 bits of `u.gmtDelta`. -/
def gmtDelta (word : UInt32) : ℤ :=
  let low := word &&& 0x00FFFFFF
  if low &&& 0x00800000 ≠ 0 then (low.toNat : ℤ) - 0x01000000 else low.toNat

/-- Local time to GMT in unsigned arithmetic: an offset greater than the clock is left out. -/
def utcMacSeconds (localMac : UInt32) (delta : ℤ) : UInt32 :=
  if 0 ≤ delta then
    let east := UInt32.ofNat delta.toNat
    if localMac ≥ east then localMac - east else localMac
  else localMac + UInt32.ofNat (-delta).toNat

/-- `localMac` is what `GetDateTime` reads and `word` is `u.gmtDelta` of `ReadLocation`. -/
def ostlsGetBearSSLTimeDetails (localMac word : UInt32) : OSTLSTimeDetails :=
  let delta := gmtDelta word
  let mac := utcMacSeconds localMac delta
  let details : OSTLSTimeDetails := ⟨localMac, delta, mac, 0, 0, 0, .clockBefore2000⟩
  if mac < ostlsMacToUnixOffset then details
  else
    let unix := mac - ostlsMacToUnixOffset
    let details := { details with unixSeconds := unix }
    if unix < ostlsUnixTo2000Offset then details
    else
      { details with
        bearsslDays := unix / 86400 + ostlsBearSSLDaysUnixEpoch
        bearsslSeconds := unix % 86400
        result := .ok }

/-- Days, seconds and the result; the words are zero if the clock is refused. -/
def ostlsGetBearSSLTime (localMac word : UInt32) : UInt32 × UInt32 × OSTLSTimeResult :=
  let details := ostlsGetBearSSLTimeDetails localMac word
  (details.bearsslDays, details.bearsslSeconds, details.result)

/-! ### The instant -/

/-- The two's complement value of the low 24 bits. -/
def gmtOffset (word : UInt32) : ℤ := (word.toBitVec.setWidth 24).toInt

/-- The instant on the clock of the machine, in seconds since 1904-01-01 GMT. -/
def utc (localMac word : UInt32) : ℤ := localMac.toNat - gmtOffset word

/-- Seconds from 1904-01-01 to the first of January of a year. -/
def macSeconds (year : ℕ) : ℕ := (Gregorian.daysBefore year - Gregorian.daysBefore 1904) * 86400

theorem macSeconds_2000 : macSeconds 2000 = 3029529600 := by
  rw [macSeconds, Gregorian.daysBefore_eq, Gregorian.daysBefore_eq]

/-- The epoch of the validator's day numbers. -/
theorem daysBefore_1970 : Gregorian.daysBefore 1970 = ostlsBearSSLDaysUnixEpoch.toNat := by
  rw [Gregorian.daysBefore_eq]
  rfl

theorem toNat_low (word : UInt32) : (word &&& 0x00FFFFFF).toNat = word.toNat % 16777216 := by
  rw [UInt32.toNat_and]
  exact Nat.and_two_pow_sub_one_eq_mod word.toNat 24

theorem sign_iff {low : UInt32} (h : low.toNat < 16777216) :
    low &&& 0x00800000 ≠ 0 ↔ 8388608 ≤ low.toNat := by
  have hbit : (low &&& 0x00800000).toNat = (low.toNat / 8388608 % 2) * 8388608 := by
    rw [UInt32.toNat_and]
    rw [show (0x00800000 : UInt32).toNat = 2 ^ 23 from rfl, Nat.and_two_pow,
      Nat.toNat_testBit]
    rfl
  rw [ne_eq, ← UInt32.toNat_inj, hbit]
  change ¬low.toNat / 8388608 % 2 * 8388608 = 0 ↔ _
  omega

/-- The mask and the correction read the two's complement offset. -/
theorem gmtDelta_eq (word : UInt32) : gmtDelta word = gmtOffset word := by
  have hlow := toNat_low word
  have hlt : (word &&& 0x00FFFFFF).toNat < 16777216 := by omega
  have hset : (word.toBitVec.setWidth 24).toNat = word.toNat % 16777216 :=
    BitVec.toNat_setWidth ..
  rw [gmtDelta, gmtOffset, BitVec.toInt, hset]
  simp only [sign_iff hlt, hlow]
  split_ifs <;> omega

theorem gmtOffset_bounds (word : UInt32) : -8388608 ≤ gmtOffset word ∧ gmtOffset word < 8388608 :=
  ⟨BitVec.le_toInt _, BitVec.toInt_lt⟩

/-- The unsigned difference is the instant if that is on the clock, and else before 1970. -/
theorem utcMacSeconds_eq (localMac word : UInt32) :
    (0 ≤ utc localMac word ∧ utc localMac word < 4294967296 ∧
      ((utcMacSeconds localMac (gmtDelta word)).toNat : ℤ) = utc localMac word) ∨
    ((utc localMac word < 0 ∨ 4294967296 ≤ utc localMac word) ∧
      (utcMacSeconds localMac (gmtDelta word)).toNat < 8388608) := by
  obtain ⟨hlow, hhigh⟩ := gmtOffset_bounds word
  have hclock := localMac.toNat_lt
  rw [gmtDelta_eq, utc]
  generalize gmtOffset word = delta at hlow hhigh ⊢
  unfold utcMacSeconds
  by_cases hsign : 0 ≤ delta
  · have heast : (UInt32.ofNat delta.toNat).toNat = delta.toNat :=
      UInt32.toNat_ofNat_of_lt' (by show _ < 4294967296; omega)
    rw [if_pos hsign]
    dsimp only
    by_cases hle : UInt32.ofNat delta.toNat ≤ localMac
    · have hle' := UInt32.le_iff_toNat_le.1 hle
      rw [if_pos hle, UInt32.toNat_sub_of_le _ _ hle, heast]
      omega
    · have hlt : ¬delta.toNat ≤ localMac.toNat := fun h =>
        hle (UInt32.le_iff_toNat_le.2 (heast.trans_le h))
      rw [if_neg hle]
      omega
  · have hwest : (UInt32.ofNat (-delta).toNat).toNat = (-delta).toNat :=
      UInt32.toNat_ofNat_of_lt' (by show _ < 4294967296; omega)
    rw [if_neg hsign, UInt32.toNat_add, hwest]
    omega

/-! ### Exact or refused -/

/-- What the details say of the words they were computed from. -/
theorem details_cases (localMac word : UInt32) :
    let mac := utcMacSeconds localMac (gmtDelta word)
    let details := ostlsGetBearSSLTimeDetails localMac word
    (mac.toNat < 3029529600 ∧ details.result = .clockBefore2000) ∨
    (3029529600 ≤ mac.toNat ∧ details.result = .ok ∧
      details.bearsslDays.toNat = (mac.toNat - 2082844800) / 86400 + 719528 ∧
      details.bearsslSeconds.toNat = (mac.toNat - 2082844800) % 86400) := by
  unfold ostlsGetBearSSLTimeDetails
  dsimp only
  generalize utcMacSeconds localMac (gmtDelta word) = mac
  have hclock := mac.toNat_lt
  have hmac : ostlsMacToUnixOffset.toNat = 2082844800 := rfl
  have h2000 : ostlsUnixTo2000Offset.toNat = 946684800 := rfl
  by_cases hepoch : mac < ostlsMacToUnixOffset
  · have hlt := UInt32.lt_iff_toNat_lt.1 hepoch
    rw [if_pos hepoch]
    exact .inl ⟨by omega, rfl⟩
  · have hge : ostlsMacToUnixOffset ≤ mac := UInt32.not_lt.1 hepoch
    have hge' := UInt32.le_iff_toNat_le.1 hge
    have hunix : (mac - ostlsMacToUnixOffset).toNat = mac.toNat - 2082844800 := by
      rw [UInt32.toNat_sub_of_le _ _ hge, hmac]
    rw [if_neg hepoch]
    by_cases hold : mac - ostlsMacToUnixOffset < ostlsUnixTo2000Offset
    · have hlt := UInt32.lt_iff_toNat_lt.1 hold
      rw [if_pos hold]
      exact .inl ⟨by omega, rfl⟩
    · have hge2000 := UInt32.le_iff_toNat_le.1 (UInt32.not_lt.1 hold)
      rw [if_neg hold]
      refine .inr ⟨by omega, rfl, ?_, ?_⟩
      · rw [UInt32.toNat_add, UInt32.toNat_div, hunix]
        change ((mac.toNat - 2082844800) / 86400 + 719528) % 4294967296 = _
        omega
      · rw [UInt32.toNat_mod, hunix]
        rfl

/-- **The clock is converted exactly or refused.**  For every local time and every offset word the
conversion succeeds if and only if the instant is between 2000-01-01 and the end of the 32-bit
clock, and then it is the exact day and second. -/
theorem bearSSLTime_exact (localMac word : UInt32) :
    ((ostlsGetBearSSLTime localMac word).2.2 = .ok ↔
      macSeconds 2000 ≤ utc localMac word ∧ utc localMac word < 4294967296) ∧
    ((ostlsGetBearSSLTime localMac word).2.2 = .ok →
      (ostlsGetBearSSLTime localMac word).2.1.toNat < 86400 ∧
      ((ostlsGetBearSSLTime localMac word).1.toNat * 86400 +
        (ostlsGetBearSSLTime localMac word).2.1.toNat : ℤ) =
          utc localMac word + Gregorian.daysBefore 1904 * 86400) ∧
    ((ostlsGetBearSSLTime localMac word).2.2 ≠ .ok →
      (ostlsGetBearSSLTime localMac word).2.2 = .clockBefore2000) := by
  have hinstant := utcMacSeconds_eq localMac word
  have hcases := details_cases localMac word
  have hyear : Gregorian.daysBefore 1904 = 695421 := by rw [Gregorian.daysBefore_eq]
  rw [macSeconds_2000, hyear]
  dsimp only [ostlsGetBearSSLTime] at hcases ⊢
  generalize ostlsGetBearSSLTimeDetails localMac word = details at hcases ⊢
  generalize (utcMacSeconds localMac (gmtDelta word)).toNat = mac at hinstant hcases
  generalize utc localMac word = instant at hinstant ⊢
  obtain ⟨hearly, hresult⟩ | ⟨hlate, hresult, hdays, hseconds⟩ := hcases
  · rw [hresult]
    refine ⟨⟨fun h => (by cases h), fun h => ?_⟩, fun h => (by cases h), fun _ => rfl⟩
    omega
  · rw [hresult, hdays, hseconds]
    refine ⟨⟨fun _ => ?_, fun _ => rfl⟩, fun _ => ⟨?_, ?_⟩, fun h => absurd rfl h⟩
    all_goals omega

end MacTLS
