import MacTLS.Wire
import MacTLS.Lib.Memory
import MacTLS.Lib.Hkdf

/-!
# Strings and `sprintf`

A format string with its arguments is the list of its parts, each of which is written as it is or
by a conversion.  `sprintf` knows nothing of the buffer it writes to.

* `format` : the text of a format;
* `sprintf`, `sprintfResult` : the memory after the call, and its result;
* `keepsFrom_sprintf` : the text fits the capacity, or memory behind the buffer is changed.
-/

namespace MacTLS

open Lib Lib.Hkdf

/-- A string, without the zero that ends it. -/
structure CString where
  bytes : Bytes
  nul_free : (0 : UInt8) ∉ bytes

/-- A string literal. -/
def CString.lit (s : String) (h : (0 : UInt8) ∉ ascii s := by decide) : CString := ⟨ascii s, h⟩

/-- The digits `sprintf` writes for `%d` and `%u`. -/
def decimal (n : ℕ) : Bytes := (Nat.toDigits 10 n).map fun c => UInt8.ofNat c.toNat

/-- A part of a format: text, or a conversion with its argument. -/
inductive Conversion where
  | text (s : String)
  /-- `%s` -/
  | str (s : CString)
  /-- `%.ns` -/
  | strUpTo (n : ℕ) (s : CString)
  /-- `%u` and `%lu` -/
  | unsigned (n : ℕ)
  /-- `%ld` -/
  | signed (z : ℤ)

def Conversion.render : Conversion → Bytes
  | .text s => ascii s
  | .str s => s.bytes
  | .strUpTo n s => s.bytes.take n
  | .unsigned n => decimal n
  | .signed z => if z < 0 then 45 :: decimal z.natAbs else decimal z.natAbs

/-- The text of the format itself has no zero. -/
def Conversion.NulFree : Conversion → Prop
  | .text s => (0 : UInt8) ∉ ascii s
  | _ => True

/-- The text that is written. -/
def format (fmt : List Conversion) : Bytes := fmt.flatMap Conversion.render

/-- `INT_MAX` -/
def intMax : ℕ := 2147483647

/-- The result of `sprintf`: the length of the text, or negative where that is not an `int`. -/
def sprintfResult (fmt : List Conversion) : ℤ :=
  if (format fmt).length ≤ intMax then (format fmt).length else -1

/-- Memory after `sprintf` into the buffer it starts with. -/
def sprintf (m : Memory) (fmt : List Conversion) : Memory := m.write 0 (format fmt ++ [0])

variable {fmt : List Conversion} {m : Memory} {cap : ℕ}

theorem toNat_digit {n : ℕ} {c : Char} (hc : c ∈ Nat.toDigits 10 n) :
    48 ≤ c.toNat ∧ c.toNat ≤ 57 :=
  Char.isDigit_iff_toNat.1 (Nat.isDigit_of_mem_toDigits (by decide) (by decide) hc)

/-- What is written for a number are digits. -/
theorem mem_decimal {n : ℕ} {b : UInt8} (h : b ∈ decimal n) : 48 ≤ b.toNat ∧ b.toNat ≤ 57 := by
  obtain ⟨c, hc, rfl⟩ := List.mem_map.1 h
  obtain ⟨hge, hle⟩ := toNat_digit hc
  rw [UInt8.toNat_ofNat', Nat.mod_eq_of_lt (by omega)]
  exact ⟨hge, hle⟩

theorem nul_not_mem_render {c : Conversion} (h : c.NulFree) : (0 : UInt8) ∉ c.render := by
  have hdec : ∀ n, (0 : UInt8) ∉ decimal n := fun n h => absurd (mem_decimal h).1 (by decide)
  cases c with
  | text s => exact h
  | str s => exact s.nul_free
  | strUpTo n s => exact fun h => s.nul_free (List.mem_of_mem_take h)
  | unsigned n => exact hdec n
  | signed z =>
    rw [Conversion.render]
    split_ifs
    · exact fun h => (List.mem_cons.1 h).elim (by decide) (hdec _)
    · exact hdec _

/-- The text of a format has no zero in it. -/
theorem nul_not_mem_format (h : ∀ c ∈ fmt, c.NulFree) : (0 : UInt8) ∉ format fmt := by
  intro hmem
  obtain ⟨c, hc, hrender⟩ := List.mem_flatMap.1 hmem
  exact nul_not_mem_render (h c hc) hrender

theorem sprintf_at {i : ℕ} (h : i < (format fmt).length) : sprintf m fmt i = (format fmt)[i] := by
  have hlt : i < (format fmt ++ [0]).length := by
    rw [List.length_append]
    exact Nat.lt_add_right _ h
  have hat := @Memory.write_at m _ 0 i hlt
  rw [Nat.zero_add, List.getElem_append_left h] at hat
  exact hat

theorem sprintf_end : sprintf m fmt (format fmt).length = 0 := by
  have hat := @Memory.write_at m (format fmt ++ [0]) 0 (format fmt).length (by simp)
  rw [Nat.zero_add] at hat
  rw [sprintf, hat]
  simp

/-- The text is in the buffer. -/
theorem read_sprintf : (sprintf m fmt).read 0 (format fmt).length = format fmt :=
  Memory.read_eq fun i hi => by
    rw [Nat.zero_add]
    exact sprintf_at hi

/-- The text fits the capacity with the zero behind it, or memory behind the buffer is changed. -/
theorem keepsFrom_sprintf : KeepsFrom cap (sprintf · fmt) ↔ (format fmt).length < cap := by
  unfold sprintf
  rw [keepsFrom_write, List.length_append, List.length_singleton]
  exact Nat.succ_le_iff

end MacTLS
