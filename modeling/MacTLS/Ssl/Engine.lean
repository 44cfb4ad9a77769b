import MacTLS.Lib.Machine
import MacTLS.Lib.Memory
import MacTLS.Handshake.Basic

/-!
# The record engine of TLS 1.2

The I/O half of `ssl_engine_cw8.c`: one record comes in and one goes out at a time, each in a window
of the memory that the connection owns, under the registers `ixa`, `ixb`, `ixc` and `oxa`, `oxb`,
`oxc`.  How records are opened and sealed is the business of the cipher suites, and the handshake
processor is whoever calls these functions.

* `RecordIn`, `RecordOut` : what the engine relies on in a cipher suite;
* `RecEngine` : the registers and the memory;
* `recvrecAck`, `recvpldAck`, `sendpldAck`, `sendrecAck` : the four directions;
* `EngineOp`, `EngineRun.step` : the machine, with what went through it so far.
-/

namespace MacTLS

open Lib

/-! ### Cipher suites -/

/-- Opening the records of a cipher suite (`br_sslrec_in_class`). -/
structure RecordIn (I : Type) where
  checkLength : I → ℕ → Bool
  /-- In place: the context afterwards, what is left in the buffer, and the offset and the length of
  the plaintext in it, or `none` for `NULL`. -/
  decrypt : I → UInt8 → ℕ → Bytes → I × Bytes × Option (ℕ × ℕ)
  length_decrypt : ∀ i ct v data, (decrypt i ct v data).2.1.length = data.length
  decrypt_fits : ∀ i ct v data off n, checkLength i data.length = true →
    (decrypt i ct v data).2.2 = some (off, n) → off + n ≤ data.length

/-- Sealing the records of a cipher suite (`br_sslrec_out_class`). -/
structure RecordOut (O : Type) where
  /-- Where in a buffer the plaintext has to start, and where it has to end. -/
  maxPlaintext : O → ℕ → ℕ → ℕ × ℕ
  /-- In place: the context afterwards, how far before the plaintext the record starts, and the
  record. -/
  encrypt : O → UInt8 → ℕ → Bytes → O × ℕ × Bytes
  /-- A buffer that `br_ssl_engine_set_buffers_bidi` accepts has room for some plaintext. -/
  maxPlaintext_room : ∀ o stop, 592 ≤ stop → (maxPlaintext o 5 stop).1 < (maxPlaintext o 5 stop).2 ∧
    (maxPlaintext o 5 stop).2 ≤ stop
  /-- No record carries more than the protocol allows. -/
  maxPlaintext_le : ∀ o stop, 592 ≤ stop →
    (maxPlaintext o 5 stop).2 ≤ (maxPlaintext o 5 stop).1 + 16384
  /-- The record of such a plaintext fits in the buffer. -/
  encrypt_fits : ∀ o ct v data stop, 592 ≤ stop →
    (maxPlaintext o 5 stop).1 + data.length ≤ (maxPlaintext o 5 stop).2 →
    (encrypt o ct v data).2.1 ≤ (maxPlaintext o 5 stop).1 ∧ 0 < (encrypt o ct v data).2.2.length ∧
      (maxPlaintext o 5 stop).1 - (encrypt o ct v data).2.1 + (encrypt o ct v data).2.2.length ≤
        stop

/-- `clear_max_plaintext` -/
def clearMaxPlaintext (start stop : ℕ) : ℕ × ℕ :=
  (start, if stop - start > 16384 then start + 16384 else stop)

/-- `clear_encrypt`: a header before the plaintext. -/
def clearEncrypt (recordType : UInt8) (version : ℕ) (data : Bytes) : ℕ × Bytes :=
  (5, [recordType] ++ putU16 version ++ putU16 data.length ++ data)

/-! ### The engine -/

/-- `BR_IO_FAILED`, `BR_IO_IN`, `BR_IO_OUT` and `BR_IO_INOUT` -/
inductive IoMode where
  | failed | input | output | inout
  deriving DecidableEq

def brErrUnsupportedVersion : ℕ := 3
def brErrBadLength : ℕ := 5

/-- The engine, as far as records go. -/
structure RecEngine (I O : Type) where
  /-- The memory of the connection; the two buffers are windows of it. -/
  mem : Memory
  ibuf : ℕ
  ibufLen : ℕ
  obuf : ℕ
  obufLen : ℕ
  maxFragLen : ℕ
  ixa : ℕ
  ixb : ℕ
  ixc : ℕ
  oxa : ℕ
  oxb : ℕ
  oxc : ℕ
  iomode : IoMode
  /-- The context of `in` when `incrypt` is set. -/
  inCtx : Option I
  /-- The context of `out`, or `none` for `br_sslrec_out_clear_vtable`. -/
  outCtx : Option O
  err : ℕ
  versionIn : ℕ
  recordTypeIn : UInt8
  versionOut : ℕ
  recordTypeOut : UInt8
  shutdownRecv : Bool

/-- `out.vtable->max_plaintext` -/
def outMaxPlaintext {O : Type} (RO : RecordOut O) (ctx : Option O) (start stop : ℕ) : ℕ × ℕ :=
  match ctx with
  | none => clearMaxPlaintext start stop
  | some o => RO.maxPlaintext o start stop

/-- `out.vtable->encrypt` -/
def outEncrypt {O : Type} (RO : RecordOut O) (ctx : Option O) (recordType : UInt8) (version : ℕ)
    (data : Bytes) : Option O × ℕ × Bytes :=
  match ctx with
  | none => (none, clearEncrypt recordType version data)
  | some o => (some (RO.encrypt o recordType version data).1,
      (RO.encrypt o recordType version data).2)

namespace RecEngine

/-- `br_ssl_client_zero`, as far as records go. -/
def zeroed {I O : Type} : RecEngine I O where
  mem := fun _ => 0
  ibuf := 0
  ibufLen := 0
  obuf := 0
  obufLen := 0
  maxFragLen := 0
  ixa := 0
  ixb := 0
  ixc := 0
  oxa := 0
  oxb := 0
  oxc := 0
  iomode := .failed
  inCtx := none
  outCtx := none
  err := 0
  versionIn := 0
  recordTypeIn := 0
  versionOut := 0
  recordTypeOut := 0
  shutdownRecv := false

variable {I O : Type} (RI : RecordIn I) (RO : RecordOut O) (rc : RecEngine I O)

/-- `br_ssl_engine_fail` -/
def brSslEngineFail (err : ℕ) : RecEngine I O :=
  if rc.iomode ≠ .failed then { rc with iomode := .failed, err } else rc

/-- `make_ready_in` -/
def makeReadyIn : RecEngine I O :=
  { rc with
    ixa := 0
    ixb := 0
    ixc := 5
    iomode := if rc.iomode = .input then .inout else rc.iomode }

/-- `make_ready_out` -/
def makeReadyOut : RecEngine I O :=
  let r := outMaxPlaintext RO rc.outCtx 5 (rc.obufLen - 5)
  { rc with
    oxa := r.1
    oxb := if r.2 - r.1 > rc.maxFragLen then r.1 + rc.maxFragLen else r.2
    oxc := r.1
    iomode := if rc.iomode = .output then .inout else rc.iomode }

/-- `br_ssl_engine_new_max_frag_len` -/
def brSslEngineNewMaxFragLen (maxFragLen : ℕ) : RecEngine I O :=
  let nxb := rc.oxc + maxFragLen
  { rc with
    maxFragLen
    oxb := if rc.oxa < rc.oxb ∧ rc.oxb > nxb ∧ rc.oxa < nxb then nxb else rc.oxb }

/-- Whoever was offered a buffer writes to it. -/
def store (addr : ℕ) (bytes : Bytes) : RecEngine I O := { rc with mem := rc.mem.write addr bytes }

/-! ### Incoming records -/

/-- `recvrec_buf`: where bytes of the peer go, and how many. -/
def recvrecBuf : Option (ℕ × ℕ) :=
  if rc.shutdownRecv then none
  else match rc.iomode with
    | .input | .inout =>
      if rc.ixa = rc.ixb then some (rc.ibuf + rc.ixa, min rc.ixc (rc.ibufLen - rc.ixa)) else none
    | .failed | .output => none

/-- The 16-bit value at an address. -/
def dec16 (addr : ℕ) : ℕ := (rc.mem addr).toNat * 256 + (rc.mem (addr + 1)).toNat

/-- A record of this length is not accepted. -/
def refuses (rlen : ℕ) : Option ℕ :=
  match rc.inCtx with
  | some i =>
    if !RI.checkLength i rlen then some brErrBadLength
    else if rlen > rc.ibufLen - 5 then some brErrTooLarge
    else none
  | none => if rlen > 16384 then some brErrBadLength else none

/-- The header of a record is there. -/
def recvrecHeader : RecEngine I O :=
  let version := rc.dec16 (rc.ibuf + 1)
  let rc := { rc with recordTypeIn := rc.mem rc.ibuf }
  if version / 256 ≠ 3 then rc.brSslEngineFail brErrUnsupportedVersion
  else if rc.versionIn ≠ 0 ∧ rc.versionIn ≠ version then rc.brSslEngineFail brErrBadVersion
  else
    let rc := { rc with versionIn := version }
    let rlen := rc.dec16 (rc.ibuf + 3)
    match rc.refuses RI rlen with
    | some err => rc.brSslEngineFail err
    | none =>
      if rlen = 0 then rc.makeReadyIn else { rc with ixa := 5, ixb := 5, ixc := rlen }

/-- The encrypted record is complete. -/
def recvrecOpen (i : I) : RecEngine I O :=
  let r := RI.decrypt i rc.recordTypeIn rc.versionIn (rc.mem.read (rc.ibuf + 5) (rc.ixa - 5))
  let rc := { rc with inCtx := some r.1, mem := rc.mem.write (rc.ibuf + 5) r.2.1 }
  match r.2.2 with
  | none => rc.brSslEngineFail brErrBadMac
  | some (off, n) =>
    if n = 0 then rc.makeReadyIn else { rc with ixa := 5 + off, ixb := 5 + off + n }

/-- The engine when `len` more bytes of the peer are there.  While one buffer serves both
directions, it cannot send until the record is done with. -/
def received (len : ℕ) : RecEngine I O :=
  { rc with
    iomode := if rc.iomode = .inout ∧ rc.ibuf = rc.obuf then .input else rc.iomode
    ixa := rc.ixa + len
    ixb := rc.ixa + len
    ixc := rc.ixc - len }

/-- `recvrec_ack` -/
def recvrecAck (len : ℕ) : RecEngine I O :=
  let rc := rc.received len
  if rc.ixa < 5 then rc
  else if rc.ixa = 5 then rc.recvrecHeader RI
  else match rc.inCtx with
    | none => { rc with ixa := 5 }
    | some i => if rc.ixc ≠ 0 then rc else rc.recvrecOpen RI i

/-- `br_ssl_engine_recvrec_finished` -/
def brSslEngineRecvrecFinished : Bool :=
  match rc.iomode with
  | .input | .inout => decide (rc.ixc = 0 ∨ rc.ixa < 5)
  | .failed | .output => true

/-- `recvpld_buf` -/
def recvpldBuf : Option (ℕ × ℕ) :=
  match rc.iomode with
  | .input | .inout =>
    if rc.ixb - rc.ixa = 0 then none else some (rc.ibuf + rc.ixa, rc.ixb - rc.ixa)
  | .failed | .output => none

/-- `recvpld_ack` -/
def recvpldAck (len : ℕ) : RecEngine I O :=
  let rc := { rc with ixa := rc.ixa + len }
  if rc.ixa = rc.ixb then
    if rc.ixc = 0 then rc.makeReadyIn else { rc with ixa := 5, ixb := 5 }
  else rc

/-! ### Outgoing records -/

/-- `sendpld_buf` -/
def sendpldBuf : Option (ℕ × ℕ) :=
  match rc.iomode with
  | .output | .inout =>
    if rc.oxb - rc.oxa = 0 then none else some (rc.obuf + rc.oxa, rc.oxb - rc.oxa)
  | .failed | .input => none

/-- The payload that `sendpld_flush` puts in a record. -/
def flushed (force : Bool) : Option Bytes :=
  if rc.oxa = rc.oxb then none
  else if rc.oxa - rc.oxc = 0 ∧ force = false then none
  else some (rc.mem.read (rc.obuf + rc.oxc) (rc.oxa - rc.oxc))

/-- `sendpld_flush` -/
def sendpldFlush (force : Bool) : RecEngine I O :=
  match rc.flushed force with
  | none => rc
  | some data =>
    let r := outEncrypt RO rc.outCtx rc.recordTypeOut rc.versionOut data
    { rc with
      outCtx := r.1
      mem := rc.mem.write (rc.obuf + (rc.oxc - r.2.1)) r.2.2
      oxb := rc.oxc - r.2.1
      oxa := rc.oxc - r.2.1
      oxc := rc.oxc - r.2.1 + r.2.2.length }

/-- The engine when `len` more bytes of payload are there. -/
def gathered (len : ℕ) : RecEngine I O :=
  { rc with
    iomode := if rc.iomode = .inout ∧ rc.ibuf = rc.obuf then .output else rc.iomode
    oxa := rc.oxa + len
    -- `oxb` is set apart from `oxa`, so that the flush does not take the record for a finished one
    oxb := if rc.oxa + len ≥ rc.oxb then rc.oxa + len + 1 else rc.oxb }

/-- `sendpld_ack` -/
def sendpldAck (len : ℕ) : RecEngine I O :=
  if rc.oxa + len ≥ rc.oxb then (rc.gathered len).sendpldFlush RO false else rc.gathered len

/-- `sendrec_buf` -/
def sendrecBuf : Option (ℕ × ℕ) :=
  match rc.iomode with
  | .output | .inout => if rc.oxc > rc.oxa then some (rc.obuf + rc.oxa, rc.oxc - rc.oxa) else none
  | .failed | .input => none

/-- `sendrec_ack` -/
def sendrecAck (len : ℕ) : RecEngine I O :=
  let rc := { rc with oxa := rc.oxa + len, oxb := rc.oxa + len }
  if rc.oxa = rc.oxc then rc.makeReadyOut RO else rc

/-- `has_rec_tosend` -/
def hasRecTosend : Bool := decide (rc.oxa = rc.oxb ∧ rc.oxa ≠ rc.oxc)

/-! ### Buffers -/

/-- The largest overhead of a record that is sent, and of one that is received. -/
def maxOutOverhead : ℕ := 85

def maxInOverhead : ℕ := 325

/-- The logarithm of the largest fragment that fits in both buffers. -/
def fragLog (ibufLen obufLen : ℕ) : Option ℕ :=
  ([14, 13, 12, 11, 10, 9].find? fun u =>
    obufLen ≥ 2 ^ u + maxOutOverhead ∧ ibufLen ≥ 2 ^ u + maxInOverhead).map fun u =>
      if u = 13 then 12 else u

/-- `br_ssl_engine_set_buffers_bidi`.  Without a buffer for the input the ones set before are kept,
and without one for the output both directions share one. -/
def brSslEngineSetBuffersBidi (ibuf obuf : Option (ℕ × ℕ)) : RecEngine I O :=
  let rc := { rc with
    iomode := .inout
    inCtx := none
    err := 0
    versionIn := 0
    recordTypeIn := 0
    versionOut := 0
    recordTypeOut := 0 }
  let start := fun rc : RecEngine I O => ({ rc with outCtx := none }.makeReadyIn).makeReadyOut RO
  match ibuf with
  | none => start (if rc.ibufLen = 0 then rc.brSslEngineFail brErrBadParam else rc)
  | some (ibuf, ibufLen) =>
    let o := obuf.getD (ibuf, ibufLen)
    let rc := { rc with ibuf, ibufLen, obuf := o.1, obufLen := o.2 }
    match fragLog ibufLen o.2 with
    | none => rc.brSslEngineFail brErrBadParam
    | some u => start { rc with maxFragLen := 2 ^ u }

/-- How a buffer is split: where the output starts, which is also how long it is. -/
def bidiSplit (bufLen : ℕ) : Option ℕ :=
  if bufLen < 512 + maxInOverhead + 512 + maxOutOverhead then none
  else if bufLen < 16384 + maxInOverhead + 512 + maxOutOverhead then some (512 + maxOutOverhead)
  else some (bufLen - (16384 + maxInOverhead))

/-- `br_ssl_engine_set_buffer` -/
def brSslEngineSetBuffer (buf : Option ℕ) (bufLen : ℕ) (bidi : Bool) : RecEngine I O :=
  match buf with
  | none => rc.brSslEngineSetBuffersBidi RO none none
  | some buf =>
    if bidi then
      match bidiSplit bufLen with
      | none => { rc with iomode := .failed, err := brErrBadParam }
      | some w => rc.brSslEngineSetBuffersBidi RO (some (buf, bufLen - w)) (some (buf + w, w))
    else rc.brSslEngineSetBuffersBidi RO (some (buf, bufLen)) none

/-- `br_ssl_client_reset`, as far as records go: the buffers are kept. -/
def brSslClientReset : RecEngine I O :=
  { ((rc.brSslEngineSetBuffer RO none 0 false).makeReadyIn).makeReadyOut RO with
    shutdownRecv := false }

end RecEngine

/-! ### The machine -/

/-- What the transport, the application and the handshake processor do with the engine. -/
inductive EngineOp (I O : Type) where
  /-- The transport fills a part of `recvrec_buf`. -/
  | inject (bytes : Bytes)
  /-- The application or the handshake processor takes payload off `recvpld_buf`. -/
  | take (n : ℕ)
  /-- They fill a part of `sendpld_buf`. -/
  | put (bytes : Bytes)
  | flush (force : Bool)
  /-- The transport takes bytes off `sendrec_buf`. -/
  | send (n : ℕ)
  /-- The handshake processor turns encryption on. -/
  | switchIn (i : I)
  | switchOut (o : O)
  | newMaxFragLen (n : ℕ)
  /-- It sets the type and the version of the records to come. -/
  | setOut (recordType : UInt8) (version : ℕ)
  /-- It fixes the version of the records that come in. -/
  | setVersionIn (version : ℕ)
  | shutdownRecv
  | fail (err : ℕ)
  /-- The engine is used for another connection. -/
  | reset

/-- What comes into the engine, byte by byte, with what the handshake processor does about it. -/
inductive InSymbol (I : Type) where
  | byte (b : UInt8)
  | switch (i : I)
  | version (v : ℕ)
  | fail (err : ℕ)
  deriving DecidableEq

/-- What the engine has sealed. -/
inductive OutEvent (O : Type) where
  | switch (o : O)
  | record (recordType : UInt8) (version : ℕ) (data : Bytes)

/-- An engine with what went through it. -/
structure EngineRun (I O : Type) where
  rc : RecEngine I O
  /-- What came in, and the payload that was taken off, each byte with the type of its record. -/
  input : List (InSymbol I)
  taken : List (UInt8 × UInt8)
  /-- The payload that was put in, what was sealed of it, and the bytes that were sent. -/
  pushed : Bytes
  output : List (OutEvent O)
  sent : Bytes

namespace EngineRun

variable {I O : Type} (RI : RecordIn I) (RO : RecordOut O)

/-- A fresh run of an engine. -/
def start (rc : RecEngine I O) : EngineRun I O := ⟨rc, [], [], [], [], []⟩

/-- The record that is sealed with this payload. -/
def sealed (rc : RecEngine I O) : Option Bytes → List (OutEvent O)
  | none => []
  | some data => [.record rc.recordTypeOut rc.versionOut data]

/-- The effect of an operation. -/
def step (e : EngineRun I O) : EngineOp I O → EngineRun I O
  | .inject bytes => { e with
      rc := (e.rc.store (e.rc.ibuf + e.rc.ixa) bytes).recvrecAck RI bytes.length
      input := e.input ++ bytes.map .byte }
  | .take n => { e with
      rc := e.rc.recvpldAck n
      taken := e.taken ++ (e.rc.mem.read (e.rc.ibuf + e.rc.ixa) n).map (e.rc.recordTypeIn, ·) }
  | .put bytes =>
    let rc := e.rc.store (e.rc.obuf + e.rc.oxa) bytes
    { e with
      rc := rc.sendpldAck RO bytes.length
      pushed := e.pushed ++ bytes
      output := e.output ++ if rc.oxa + bytes.length ≥ rc.oxb then
        sealed rc ((rc.gathered bytes.length).flushed false) else [] }
  | .flush force => { e with
      rc := e.rc.sendpldFlush RO force
      output := e.output ++ sealed e.rc (e.rc.flushed force) }
  | .send n => { e with
      rc := e.rc.sendrecAck RO n
      sent := e.sent ++ e.rc.mem.read (e.rc.obuf + e.rc.oxa) n }
  | .switchIn i => { e with
      rc := { e.rc with inCtx := some i }, input := e.input ++ [.switch i] }
  | .switchOut o => { e with
      rc := { e.rc with outCtx := some o }, output := e.output ++ [.switch o] }
  | .newMaxFragLen n => { e with rc := e.rc.brSslEngineNewMaxFragLen n }
  | .setOut recordType version => { e with
      rc := { e.rc with recordTypeOut := recordType, versionOut := version } }
  | .setVersionIn version => { e with
      rc := { e.rc with versionIn := version }, input := e.input ++ [.version version] }
  | .shutdownRecv => { e with rc := { e.rc with shutdownRecv := true } }
  | .fail err => { e with
      rc := e.rc.brSslEngineFail err
      input := e.input ++ if e.rc.iomode = .failed then [] else [.fail err] }
  | .reset => start (e.rc.brSslClientReset RO)

/-- A part of a buffer that the engine offers, and not an empty one. -/
def Offered (buf : Option (ℕ × ℕ)) (n : ℕ) : Prop := 0 < n ∧ ∃ r ∈ buf, n ≤ r.2

instance (buf : Option (ℕ × ℕ)) (n : ℕ) : Decidable (Offered buf n) :=
  inferInstanceAs (Decidable (_ ∧ ∃ r ∈ buf, n ≤ r.2))

/-- What the rules of the interface allow.  The handshake processor turns encryption on where a
record has come in whole, or one has just been flushed.  Forcing an empty record takes two buffers:
in a shared one it would not keep the bytes of the peer out. -/
def Allowed (e : EngineRun I O) : EngineOp I O → Prop
  | .inject bytes => Offered e.rc.recvrecBuf bytes.length
  | .take n => Offered e.rc.recvpldBuf n
  | .put bytes => Offered e.rc.sendpldBuf bytes.length
  | .flush force => e.rc.iomode ≠ .failed ∧ (force = true → e.rc.ibuf ≠ e.rc.obuf)
  | .send n => Offered e.rc.sendrecBuf n
  | .switchIn _ => e.rc.iomode ≠ .failed ∧ e.rc.brSslEngineRecvrecFinished = true
  | .switchOut _ => e.rc.iomode ≠ .failed ∧ e.rc.hasRecTosend = true
  | .newMaxFragLen n => 0 < n ∧ n ≤ e.rc.maxFragLen
  | .setVersionIn _ => e.rc.iomode ≠ .failed
  | .setOut .. | .shutdownRecv | .fail _ | .reset => True

instance (e : EngineRun I O) : ∀ op, Decidable (e.Allowed op)
  | .inject bytes => inferInstanceAs (Decidable (Offered e.rc.recvrecBuf bytes.length))
  | .take n => inferInstanceAs (Decidable (Offered e.rc.recvpldBuf n))
  | .put bytes => inferInstanceAs (Decidable (Offered e.rc.sendpldBuf bytes.length))
  | .flush force => inferInstanceAs
      (Decidable (e.rc.iomode ≠ .failed ∧ (force = true → e.rc.ibuf ≠ e.rc.obuf)))
  | .send n => inferInstanceAs (Decidable (Offered e.rc.sendrecBuf n))
  | .switchIn _ => inferInstanceAs
      (Decidable (e.rc.iomode ≠ .failed ∧ e.rc.brSslEngineRecvrecFinished = true))
  | .switchOut _ => inferInstanceAs
      (Decidable (e.rc.iomode ≠ .failed ∧ e.rc.hasRecTosend = true))
  | .newMaxFragLen n => inferInstanceAs (Decidable (0 < n ∧ n ≤ e.rc.maxFragLen))
  | .setVersionIn _ => inferInstanceAs (Decidable (e.rc.iomode ≠ .failed))
  | .setOut .. => isTrue trivial
  | .shutdownRecv => isTrue trivial
  | .fail _ => isTrue trivial
  | .reset => isTrue trivial

end EngineRun

end MacTLS
