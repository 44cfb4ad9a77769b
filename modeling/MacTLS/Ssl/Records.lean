import MacTLS.Lib.Transducer
import MacTLS.Ssl.Engine

/-!
# Streams of TLS 1.2 records

What the record engine is for, without its buffers.  Coming in, a transducer reads the bytes one by
one and writes the payload, each byte with the type of its record; going out, a list of payloads is
sealed into a stream of records.

* `rxMachine` : the records that come in;
* `rx_header`, `rx_clear`, `rx_sealed` : what a part of a record becomes;
* `sealAll` : the records that go out.
-/

namespace MacTLS

open Lib

variable {I O : Type}

/-! ### Coming in -/

/-- How far into a record the stream is. -/
inductive RxPhase where
  | header (got : Bytes)
  /-- So many bytes of a record are left that is not encrypted. -/
  | clear (recordType : UInt8) (left : ℕ)
  | sealed (recordType : UInt8) (body : Bytes) (left : ℕ)
  | failed (err : ℕ)

/-- The stream has come to its end. -/
def RxPhase.isFailed : RxPhase → Bool
  | .failed _ => true
  | _ => false

/-- The state of the incoming stream. -/
structure RxState (I : Type) where
  crypt : Option I
  version : ℕ
  phase : RxPhase

/-- The state at the start of a stream. -/
def RxState.start : RxState I := ⟨none, 0, .header []⟩

/-- The error for a record of this length, if it is not accepted. -/
def refusal (RI : RecordIn I) (ibufLen : ℕ) (crypt : Option I) (rlen : ℕ) : Option ℕ :=
  match crypt with
  | some i =>
    if !RI.checkLength i rlen then some brErrBadLength
    else if rlen > ibufLen - 5 then some brErrTooLarge
    else none
  | none => if rlen > 16384 then some brErrBadLength else none

/-- What follows a header. -/
def rxHeader (RI : RecordIn I) (ibufLen : ℕ) (s : RxState I) (hdr : Bytes) : RxState I :=
  let version := getU16 hdr 1
  let rlen := getU16 hdr 3
  if version / 256 ≠ 3 then { s with phase := .failed brErrUnsupportedVersion }
  else if s.version ≠ 0 ∧ s.version ≠ version then { s with phase := .failed brErrBadVersion }
  else
    let s := { s with version }
    match refusal RI ibufLen s.crypt rlen with
    | some err => { s with phase := .failed err }
    | none =>
      if rlen = 0 then { s with phase := .header [] }
      else match s.crypt with
        | none => { s with phase := .clear (byteAt hdr 0) rlen }
        | some _ => { s with phase := .sealed (byteAt hdr 0) [] rlen }

/-- A record is opened. -/
def rxOpen (RI : RecordIn I) (s : RxState I) (recordType : UInt8) (body : Bytes) :
    RxState I × List (UInt8 × UInt8) :=
  match s.crypt with
  | none => ({ s with phase := .header [] }, [])
  | some i =>
    let r := RI.decrypt i recordType s.version body
    match r.2.2 with
    | none => ({ s with crypt := some r.1, phase := .failed brErrBadMac }, [])
    | some (off, n) =>
      ({ s with crypt := some r.1, phase := .header [] },
        ((r.2.1.drop off).take n).map (recordType, ·))

/-- One byte comes in. -/
def rxByte (RI : RecordIn I) (ibufLen : ℕ) (s : RxState I) (b : UInt8) :
    RxState I × List (UInt8 × UInt8) :=
  match s.phase with
  | .header got =>
    if got.length + 1 < 5 then ({ s with phase := .header (got ++ [b]) }, [])
    else (rxHeader RI ibufLen s (got ++ [b]), [])
  | .clear recordType left =>
    ({ s with phase := if left = 1 then .header [] else .clear recordType (left - 1) },
      [(recordType, b)])
  | .sealed recordType body left =>
    if left = 1 then rxOpen RI s recordType (body ++ [b])
    else ({ s with phase := .sealed recordType (body ++ [b]) (left - 1) }, [])
  | .failed _ => (s, [])

/-- The incoming stream. -/
def rxMachine (RI : RecordIn I) (ibufLen : ℕ) :
    Transducer (RxState I) (InSymbol I) (UInt8 × UInt8) where
  next s
    | .byte b => rxByte RI ibufLen s b
    | .switch i => ({ s with crypt := some i }, [])
    | .version v => ({ s with version := v }, [])
    | .fail err => ({ s with phase := .failed err }, [])
  stopped s := s.phase.isFailed

section

variable {RI : RecordIn I} {ibufLen : ℕ} {s : RxState I}

theorem rx_goes (hs : s.phase.isFailed = false) : (rxMachine RI ibufLen).stopped s = false := hs

/-- The bytes of a header. -/
theorem rx_header {got bytes : Bytes} (hs : s.phase = .header got)
    (hlen : got.length + bytes.length ≤ 5) (hgot : got.length < 5) :
    (rxMachine RI ibufLen).Reads s (bytes.map .byte) []
      (if got.length + bytes.length < 5 then { s with phase := .header (got ++ bytes) }
        else rxHeader RI ibufLen s (got ++ bytes)) := by
  induction bytes generalizing s got with
  | nil =>
    rw [List.length_nil, Nat.add_zero, if_pos hgot, List.append_nil, ← hs]
    exact .nil
  | cons b bytes ih =>
    rw [List.length_cons] at hlen
    have hstop : (rxMachine RI ibufLen).stopped s = false := rx_goes (by rw [hs]; rfl)
    have hnext : (rxMachine RI ibufLen).next s (.byte b) =
        if got.length + 1 < 5 then ({ s with phase := .header (got ++ [b]) }, [])
        else (rxHeader RI ibufLen s (got ++ [b]), []) := by
      show rxByte RI ibufLen s b = _
      rw [rxByte, hs]
    by_cases hmore : got.length + 1 < 5
    · rw [if_pos hmore] at hnext
      have hrest := @ih { s with phase := .header (got ++ [b]) } (got ++ [b]) rfl
        (by simp; omega) (by simpa using hmore)
      simp only [List.length_append, List.length_singleton, List.append_assoc,
        List.singleton_append] at hrest
      rw [List.length_cons, show got.length + (bytes.length + 1) = got.length + 1 + bytes.length by
        omega]
      exact .cons_of_next hstop hnext hrest
    · -- the header is complete, and nothing follows it
      rw [if_neg hmore] at hnext
      obtain rfl : bytes = [] := List.length_eq_zero_iff.1 (by omega)
      rw [List.length_singleton, if_neg hmore]
      exact .single hstop hnext

/-- Bytes of a record that is not encrypted. -/
theorem rx_clear {recordType : UInt8} {left : ℕ} {bytes : Bytes}
    (hs : s.phase = .clear recordType left) (hpos : 0 < left) (hlen : bytes.length ≤ left) :
    (rxMachine RI ibufLen).Reads s (bytes.map .byte) (bytes.map (recordType, ·))
      { s with phase := if bytes.length = left then .header []
        else .clear recordType (left - bytes.length) } := by
  induction bytes generalizing s left with
  | nil =>
    rw [List.length_nil, if_neg (by omega), Nat.sub_zero, ← hs]
    exact .nil
  | cons b bytes ih =>
    rw [List.length_cons] at hlen
    have hstop : (rxMachine RI ibufLen).stopped s = false := rx_goes (by rw [hs]; rfl)
    have hnext : (rxMachine RI ibufLen).next s (.byte b) =
        ({ s with phase := if left = 1 then .header [] else .clear recordType (left - 1) },
          [(recordType, b)]) := by
      show rxByte RI ibufLen s b = _
      rw [rxByte, hs]
    by_cases hlast : left = 1
    · obtain rfl : bytes = [] := List.length_eq_zero_iff.1 (by omega)
      rw [if_pos hlast] at hnext
      rw [List.length_singleton, if_pos hlast.symm]
      exact .single hstop hnext
    · rw [if_neg hlast] at hnext
      have hrest := @ih { s with phase := .clear recordType (left - 1) } (left - 1)
        rfl (by omega) (by omega)
      have hcond : bytes.length = left - 1 ↔ bytes.length + 1 = left := by omega
      rw [show left - 1 - bytes.length = left - (bytes.length + 1) by omega] at hrest
      simp only [hcond] at hrest
      exact .cons_of_next hstop hnext hrest

/-- Bytes of a record that is encrypted. -/
theorem rx_sealed {recordType : UInt8} {body : Bytes} {left : ℕ} {bytes : Bytes}
    (hs : s.phase = .sealed recordType body left) (hpos : 0 < left) (hlen : bytes.length ≤ left) :
    (rxMachine RI ibufLen).Reads s (bytes.map .byte)
      (if bytes.length = left then (rxOpen RI s recordType (body ++ bytes)).2 else [])
      (if bytes.length = left then (rxOpen RI s recordType (body ++ bytes)).1
        else { s with phase := .sealed recordType (body ++ bytes) (left - bytes.length) }) := by
  induction bytes generalizing s body left with
  | nil =>
    rw [List.length_nil, if_neg (by omega), if_neg (by omega), Nat.sub_zero, List.append_nil, ← hs]
    exact .nil
  | cons b bytes ih =>
    rw [List.length_cons] at hlen
    have hstop : (rxMachine RI ibufLen).stopped s = false := rx_goes (by rw [hs]; rfl)
    have hnext : (rxMachine RI ibufLen).next s (.byte b) =
        if left = 1 then rxOpen RI s recordType (body ++ [b])
        else ({ s with phase := .sealed recordType (body ++ [b]) (left - 1) }, []) := by
      show rxByte RI ibufLen s b = _
      rw [rxByte, hs]
    by_cases hlast : left = 1
    · obtain rfl : bytes = [] := List.length_eq_zero_iff.1 (by omega)
      rw [if_pos hlast] at hnext
      rw [List.length_singleton, if_pos hlast.symm, if_pos hlast.symm]
      exact .single hstop hnext
    · rw [if_neg hlast] at hnext
      have hrest := @ih { s with phase := .sealed recordType (body ++ [b]) (left - 1) }
        (body ++ [b]) (left - 1) rfl (by omega) (by omega)
      have hcond : bytes.length = left - 1 ↔ bytes.length + 1 = left := by omega
      have hopen : rxOpen RI { s with phase := .sealed recordType (body ++ [b]) (left - 1) }
          recordType (body ++ b :: bytes) = rxOpen RI s recordType (body ++ b :: bytes) := rfl
      rw [show left - 1 - bytes.length = left - (bytes.length + 1) by omega] at hrest
      simp only [hcond, List.append_assoc, List.singleton_append, hopen] at hrest
      exact .cons_of_next hstop hnext hrest

end

/-! ### Going out -/

/-- The context after these records, and the records. -/
def sealAll (RO : RecordOut O) : Option O → List (OutEvent O) → Option O × List Bytes
  | ctx, [] => (ctx, [])
  | _, .switch o :: events => sealAll RO (some o) events
  | ctx, .record recordType version data :: events =>
    let r := outEncrypt RO ctx recordType version data
    ((sealAll RO r.1 events).1, r.2.2 :: (sealAll RO r.1 events).2)

/-- The payload of an event. -/
def OutEvent.payload : OutEvent O → Bytes
  | .switch _ => []
  | .record _ _ data => data

/-- The payload that was sealed. -/
def sealedPayload (events : List (OutEvent O)) : Bytes := (events.map OutEvent.payload).flatten

theorem sealAll_append (RO : RecordOut O) (ctx : Option O) (events events' : List (OutEvent O)) :
    sealAll RO ctx (events ++ events') =
      ((sealAll RO (sealAll RO ctx events).1 events').1,
        (sealAll RO ctx events).2 ++ (sealAll RO (sealAll RO ctx events).1 events').2) := by
  induction events generalizing ctx with
  | nil => rfl
  | cons e events ih =>
    cases e with
    | switch o => exact ih _
    | record recordType version data =>
      rw [List.cons_append, sealAll, sealAll, ih]
      rfl

theorem sealedPayload_append (events events' : List (OutEvent O)) :
    sealedPayload (events ++ events') = sealedPayload events ++ sealedPayload events' := by
  rw [sealedPayload, List.map_append, List.flatten_append]
  rfl

end MacTLS
