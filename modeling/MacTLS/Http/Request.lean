import MacTLS.Sprintf

/-!
# Formatting a request

`OSTLS_HTTP_FormatGet` and `OSTLS_HTTP_FormatPost` write the request into the caller's buffer and
compare its length with the capacity afterwards.

* `formatInto` : what the two have in common;
* `Conforms` : what a formatter owes its caller;
* `conforms_formatInto` : it does so exactly when the request fits.
-/

namespace MacTLS

open Lib Lib.Hkdf

/-- Format into the buffer, then look whether it fits: the memory and the returned length. -/
def formatInto (m : Memory) (cap : UInt32) (fmt : List Conversion) : Memory × UInt32 :=
  let n := sprintfResult fmt
  (sprintf m fmt, if n < 0 ∨ UInt32.ofNat n.toNat ≥ cap then 0 else UInt32.ofNat n.toNat)

/-- The GET request. -/
def getRequest (host path : CString) : List Conversion :=
  [.text "GET ", .str path, .text " HTTP/1.1\r\nHost: ", .str host,
    .text "\r\nUser-Agent: macTLS/0.3\r\nAccept: */*\r\nConnection: close\r\n\r\n"]

/-- The POST request. -/
def postRequest (host path contentType : CString) (contentLength : UInt32) : List Conversion :=
  [.text "POST ", .str path, .text " HTTP/1.1\r\nHost: ", .str host,
    .text "\r\nUser-Agent: macTLS/0.3\r\nContent-Type: ", .str contentType,
    .text "\r\nContent-Length: ", .unsigned contentLength.toNat,
    .text "\r\nConnection: close\r\n\r\n"]

/-- `OSTLS_HTTP_FormatGet` -/
def ostlsHttpFormatGet (m : Memory) (cap : UInt32) (host path : CString) : Memory × UInt32 :=
  formatInto m cap (getRequest host path)

/-- `OSTLS_HTTP_FormatPost` -/
def ostlsHttpFormatPost (m : Memory) (cap : UInt32) (host path contentType : CString)
    (contentLength : UInt32) : Memory × UInt32 :=
  formatInto m cap (postRequest host path contentType contentLength)

/-- What a formatter of `text` owes a caller whose buffer has room for `cap` bytes. -/
structure Conforms (cap : UInt32) (text : Bytes) (formatter : Memory → Memory × UInt32) :
    Prop where
  frame : KeepsFrom cap.toNat fun m => (formatter m).1
  /-- The request fits with the zero behind it. -/
  fits : text.length < cap.toNat → ∀ m,
    (formatter m).2.toNat = text.length ∧ (formatter m).1.read 0 text.length = text
  tooLong : cap.toNat ≤ text.length → ∀ m, (formatter m).2 = 0

variable {m : Memory} {cap : UInt32} {fmt : List Conversion}

/-- A text that fits and whose length is an `int` is all that is written and returned. -/
theorem formatInto_fits (hfits : (format fmt).length < cap.toNat)
    (hint : (format fmt).length ≤ intMax) :
    (formatInto m cap fmt).2.toNat = (format fmt).length := by
  have hlt : (format fmt).length < UInt32.size := hfits.trans cap.toNat_lt
  unfold formatInto sprintfResult
  dsimp only
  rw [if_pos hint, Int.toNat_natCast, if_neg, UInt32.toNat_ofNat_of_lt' hlt]
  rw [not_or, ge_iff_le, UInt32.le_iff_toNat_le, UInt32.toNat_ofNat_of_lt' hlt]
  omega

/-- The formatter conforms exactly when the request fits, and its length is an `int`. -/
theorem conforms_formatInto :
    Conforms cap (format fmt) (formatInto · cap fmt) ↔
      (format fmt).length < cap.toNat ∧ (format fmt).length ≤ intMax := by
  refine ⟨fun h => ?_, fun ⟨hfits, hint⟩ => ⟨keepsFrom_sprintf.2 hfits, fun _ m =>
    ⟨formatInto_fits hfits hint, read_sprintf⟩, fun hlong => absurd hlong (by omega)⟩⟩
  have hfits := keepsFrom_sprintf.1 h.frame
  refine ⟨hfits, ?_⟩
  by_contra hint
  -- the call reports failure of a text that fits
  have hzero : (formatInto (fun _ => 0) cap fmt).2 = 0 := by
    unfold formatInto sprintfResult
    dsimp only
    rw [if_neg hint, if_pos (.inl (by decide))]
  have hlen := (h.fits hfits fun _ => 0).1
  rw [hzero] at hlen
  rw [← hlen] at hint
  exact hint (Nat.zero_le _)

theorem length_getRequest (host path : CString) :
    (format (getRequest host path)).length = path.bytes.length + host.bytes.length + 81 := by
  have h1 : (ascii "GET ").length = 4 := by decide
  have h2 : (ascii " HTTP/1.1\r\nHost: ").length = 17 := by decide
  have h3 : (ascii
    "\r\nUser-Agent: macTLS/0.3\r\nAccept: */*\r\nConnection: close\r\n\r\n").length = 60 := by
    decide
  simp only [format, getRequest, List.flatMap_cons, List.flatMap_nil, Conversion.render,
    List.length_append, List.length_nil]
  omega

theorem length_postRequest (host path contentType : CString) (contentLength : UInt32) :
    (format (postRequest host path contentType contentLength)).length =
      path.bytes.length + host.bytes.length + contentType.bytes.length +
        (decimal contentLength.toNat).length + 103 := by
  have h1 : (ascii "POST ").length = 5 := by decide
  have h2 : (ascii " HTTP/1.1\r\nHost: ").length = 17 := by decide
  have h3 : (ascii "\r\nUser-Agent: macTLS/0.3\r\nContent-Type: ").length = 40 := by decide
  have h4 : (ascii "\r\nContent-Length: ").length = 18 := by decide
  have h5 : (ascii "\r\nConnection: close\r\n\r\n").length = 23 := by decide
  simp only [format, postRequest, List.flatMap_cons, List.flatMap_nil, Conversion.render,
    List.length_append, List.length_nil]
  omega

end MacTLS
