import MacTLS.Http.Request

/-!
# The status text of `OSTLS_Fetch`

Every return of `OSTLS_Fetch` leaves a text in the caller's `out_msg`: `fetch_status` on the way out
of an error, and the negotiated suite with the size of the body at the end.  Both format first and
put a zero into the last byte of the buffer afterwards.

* `fetchStatus`, `fetchSuccess` : the two;
* `keepsFrom_fetchStatus`, `keepsFrom_fetchSuccess` : when they keep to the buffer;
* `text_capacity_iff` : the four places that format into a buffer of the caller;
* `status_recommended` : a buffer of the recommended size is large enough.
-/

namespace MacTLS

open Lib Lib.Hkdf

/-- The format of a status, by whether there is an error number. -/
def statusFormat (message : CString) (err : ℤ) : List Conversion :=
  if err = 0 then [.strUpTo 140 message]
  else [.strUpTo 110 message, .text " (err=", .signed err, .text ")"]

/-- `fetch_status` -/
def fetchStatus (m : Memory) (outLen : UInt32) (message : CString) (err : ℤ) : Memory :=
  if outLen < 4 then m
  else (sprintf m (statusFormat message err)).write (outLen - 1).toNat [0]

def fetchSuiteLabel (suite : ℕ) : CString :=
  if suite = 0xC02B then .lit "TLS1.2 ECDHE-ECDSA AES128-GCM"
  else if suite = 0xC02C then .lit "TLS1.2 ECDHE-ECDSA AES256-GCM"
  else if suite = 0xC02F then .lit "TLS1.2 ECDHE-RSA AES128-GCM"
  else if suite = 0xC030 then .lit "TLS1.2 ECDHE-RSA AES256-GCM"
  else if suite = 0xCCA8 then .lit "TLS1.2 ECDHE-RSA CHACHA20"
  else if suite = 0xCCA9 then .lit "TLS1.2 ECDHE-ECDSA CHACHA20"
  else .lit "TLS1.2"

def successFormat (suite : ℕ) (collected : UInt32) : List Conversion :=
  [.text "OK ", .str (fetchSuiteLabel suite), .text " ", .unsigned collected.toNat,
    .text "B body"]

/-- The text at the end of a fetch that succeeded.  The index of the last byte is a `UInt32`, which
wraps around for an empty buffer. -/
def fetchSuccess (m : Memory) (outLen : UInt32) (suite : ℕ) (collected : UInt32) : Memory :=
  (sprintf m (successFormat suite collected)).write (outLen - 1).toNat [0]

/-! ### The capacity -/

variable {outLen : UInt32} {message : CString} {err : ℤ} {suite : ℕ} {collected : UInt32}

theorem toNat_last (h : 0 < outLen.toNat) : (outLen - 1).toNat = outLen.toNat - 1 := by
  have hle : (1 : UInt32) ≤ outLen := UInt32.le_iff_toNat_le.2 h
  rw [UInt32.toNat_sub_of_le _ _ hle]
  rfl

/-- The zero goes into the buffer, if there is one. -/
theorem keepsFrom_terminated {fmt : List Conversion} (h : 0 < outLen.toNat) :
    KeepsFrom outLen.toNat (fun m => (sprintf m fmt).write (outLen - 1).toNat [0]) ↔
      (format fmt).length < outLen.toNat := by
  rw [keepsFrom_then (keepsFrom_store (by rw [toNat_last h]; omega) 0), keepsFrom_sprintf]

/-- The number of digits and sign that `%ld` writes. -/
def signedLength (z : ℤ) : ℕ := (Conversion.signed z).render.length

theorem length_statusFormat : (format (statusFormat message err)).length =
    if err = 0 then min 140 message.bytes.length
    else min 110 message.bytes.length + signedLength err + 7 := by
  have h1 : (ascii " (err=").length = 6 := by decide
  have h2 : (ascii ")").length = 1 := by decide
  unfold statusFormat signedLength
  split_ifs
  · simp only [format, List.flatMap_cons, List.flatMap_nil, Conversion.render, List.append_nil,
      List.length_take]
  · simp only [format, List.flatMap_cons, List.flatMap_nil, List.append_nil, List.length_append]
    simp only [Conversion.render, List.length_take]
    omega

theorem keepsFrom_fetchStatus : KeepsFrom outLen.toNat (fetchStatus · outLen message err) ↔
    outLen.toNat < 4 ∨ (format (statusFormat message err)).length < outLen.toNat := by
  have h4 : (4 : UInt32).toNat = 4 := rfl
  unfold fetchStatus
  by_cases hsmall : outLen < 4
  · have hlt := UInt32.lt_iff_toNat_lt.1 hsmall
    rw [h4] at hlt
    simp only [if_pos hsmall]
    exact ⟨fun _ => .inl hlt, fun _ _ _ _ => rfl⟩
  · have hge := mt UInt32.lt_iff_toNat_lt.2 hsmall
    rw [h4] at hge
    simp only [if_neg hsmall]
    rw [keepsFrom_terminated (by omega)]
    exact ⟨.inr, fun h => h.resolve_left hge⟩

theorem length_successFormat : (format (successFormat suite collected)).length =
    (fetchSuiteLabel suite).bytes.length + (decimal collected.toNat).length + 10 := by
  have h1 : (ascii "OK ").length = 3 := by decide
  have h2 : (ascii " ").length = 1 := by decide
  have h3 : (ascii "B body").length = 6 := by decide
  simp only [format, successFormat, List.flatMap_cons, List.flatMap_nil, Conversion.render,
    List.append_nil, List.length_append]
  omega

/-- An empty buffer is written to. -/
theorem keepsFrom_fetchSuccess : KeepsFrom outLen.toNat (fetchSuccess · outLen suite collected) ↔
    (format (successFormat suite collected)).length < outLen.toNat := by
  obtain hzero | hpos := Nat.eq_zero_or_pos outLen.toNat
  · obtain rfl : outLen = 0 := UInt32.toNat_inj.1 hzero
    refine ⟨fun h => ?_, fun h => absurd h (Nat.not_lt_zero _)⟩
    have hfirst : fetchSuccess (fun _ => 0) 0 suite collected 0 = 79 := by
      rw [fetchSuccess, Memory.write_before (by decide),
        sprintf_at (by rw [length_successFormat]; omega)]
      rfl
    exact absurd (hfirst.symm.trans (h (fun _ => 0) 0 (Nat.le_refl 0))) (by decide)
  · exact keepsFrom_terminated hpos

/-- A text of `n` bytes fits with the zero behind it, and `n` is an `int`. -/
def FitsText (cap : UInt32) (n : ℕ) : Prop := n < cap.toNat ∧ n ≤ intMax

/-- **Capacity.**  For every capacity and all arguments, a formatter of requests conforms exactly
when the request fits the capacity, and a status text of `OSTLS_Fetch` leaves the bytes at and
behind the capacity alone exactly when it fits, or when `fetch_status` finds no room at all. -/
theorem text_capacity_iff (cap : UInt32) (host path contentType : CString) (contentLength : UInt32)
    (outLen : UInt32) (message : CString) (err : ℤ) (suite : ℕ) (collected : UInt32) :
    (Conforms cap (format (getRequest host path)) (ostlsHttpFormatGet · cap host path) ↔
      FitsText cap (path.bytes.length + host.bytes.length + 81)) ∧
    (Conforms cap (format (postRequest host path contentType contentLength))
        (ostlsHttpFormatPost · cap host path contentType contentLength) ↔
      FitsText cap (path.bytes.length + host.bytes.length + contentType.bytes.length +
        (decimal contentLength.toNat).length + 103)) ∧
    (KeepsFrom outLen.toNat (fetchStatus · outLen message err) ↔
      outLen.toNat < 4 ∨ (if err = 0 then min 140 message.bytes.length
        else min 110 message.bytes.length + signedLength err + 7) < outLen.toNat) ∧
    (KeepsFrom outLen.toNat (fetchSuccess · outLen suite collected) ↔
      (fetchSuiteLabel suite).bytes.length + (decimal collected.toNat).length + 10 <
        outLen.toNat) := by
  refine ⟨?_, ?_, ?_, ?_⟩
  · rw [← length_getRequest]
    exact conforms_formatInto
  · rw [← length_postRequest]
    exact conforms_formatInto
  · rw [← length_statusFormat]
    exact keepsFrom_fetchStatus
  · rw [← length_successFormat]
    exact keepsFrom_fetchSuccess

/-- A GET of `/` from `a` does not fit sixteen bytes, and the byte behind them is overwritten. -/
theorem text_capacity_exceeded :
    ¬Conforms 16 (format (getRequest (.lit "a") (.lit "/")))
      (ostlsHttpFormatGet · 16 (.lit "a") (.lit "/")) := by
  intro h
  exact absurd (h.frame (fun _ => 0) 16 (Nat.le_refl 16)) (by decide +kernel)

/-! ### The recommended size -/

theorem length_decimal_le {n k : ℕ} (hk : 0 < k) (h : n < 10 ^ k) : (decimal n).length ≤ k := by
  rw [decimal, List.length_map, Nat.length_toDigits_le_iff (by decide) hk]
  exact h

theorem length_fetchSuiteLabel_le (suite : ℕ) : (fetchSuiteLabel suite).bytes.length ≤ 30 := by
  unfold fetchSuiteLabel
  split_ifs <;> decide

/-- The header recommends 180 bytes for `out_msg`: no status text needs more than 141, whatever the
message, since `err` is a `long`. -/
theorem status_recommended (h : 141 ≤ outLen.toNat) (herr : err.natAbs ≤ 2147483648) :
    KeepsFrom outLen.toNat (fetchStatus · outLen message err) ∧
      KeepsFrom outLen.toNat (fetchSuccess · outLen suite collected) := by
  have hsigned : signedLength err ≤ 11 := by
    have hdigits : (decimal err.natAbs).length ≤ 10 := length_decimal_le (by decide) (by omega)
    rw [signedLength, Conversion.render]
    split_ifs
    · rw [List.length_cons]
      omega
    · omega
  have hcount : (decimal collected.toNat).length ≤ 10 :=
    length_decimal_le (by decide) (by have := collected.toNat_lt; omega)
  have hlabel := length_fetchSuiteLabel_le suite
  rw [keepsFrom_fetchStatus, keepsFrom_fetchSuccess, length_statusFormat, length_successFormat]
  refine ⟨.inr ?_, by omega⟩
  split_ifs <;> omega

end MacTLS
