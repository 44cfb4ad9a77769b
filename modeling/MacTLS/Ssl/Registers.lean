import MacTLS.Ssl.Records

/-!
# What the registers of the record engine mean

The registers say how far into a record each direction is, and what of it is in the memory.

* `Apart` : the two windows do not get in each other's way;
* `Incoming`, `Outgoing`, `Modes` : the two directions, and how they share one buffer;
* `pending`, `waiting`, `unsent` : what has come in and was not taken, what was put in and is not
  sealed, and what is sealed and not sent;
* `SameInput`, `SameOutput` : one direction is left alone.
-/

namespace MacTLS

open Lib

variable {I O : Type}

/-! ### What the registers mean -/

namespace RecEngine

/-- Of the input window only the first `used` bytes are written, and the output window is the same
one or lies behind them. -/
structure Apart (RI : RecordIn I) (used : ℕ) (rc : RecEngine I O) : Prop where
  room : 837 ≤ rc.ibufLen
  outRoom : 597 ≤ rc.obufLen
  le : used ≤ rc.ibufLen
  clear : min rc.ibufLen 16389 ≤ used
  sealed : ∀ i n, RI.checkLength i n = true → 5 + n ≤ rc.ibufLen → 5 + n ≤ used
  apart : rc.ibuf = rc.obuf ∨ rc.ibuf + used ≤ rc.obuf

/-- The input registers, for a phase of the stream. -/
inductive Incoming (RI : RecordIn I) (used : ℕ) (rc : RecEngine I O) : RxPhase → Prop
  /-- A part of a header is there. -/
  | header {got : Bytes} (hlen : got.length < 5) (hxa : rc.ixa = got.length)
      (hxb : rc.ixb = got.length) (hxc : rc.ixc = 5 - got.length)
      (hmem : rc.mem.read rc.ibuf got.length = got) : Incoming RI used rc (.header got)
  /-- A record has come in, and its payload is not all taken. -/
  | payload (h5 : 5 ≤ rc.ixa) (hlt : rc.ixa < rc.ixb) (hle : rc.ixb ≤ used) (hxc : rc.ixc = 0) :
      Incoming RI used rc (.header [])
  | clear {left : ℕ} (hcrypt : rc.inCtx = none) (hpos : 0 < left) (hleft : left ≤ 16384)
      (hxc : rc.ixc = left) (h5 : 5 ≤ rc.ixa) (hxb : rc.ixa ≤ rc.ixb)
      (hwait : rc.ixa = rc.ixb → rc.ixa = 5) (hle : rc.ixb ≤ used) :
      Incoming RI used rc (.clear rc.recordTypeIn left)
  | sealed {i : I} {body : Bytes} {left : ℕ} (hcrypt : rc.inCtx = some i) (hpos : 0 < left)
      (hxc : rc.ixc = left) (hxa : rc.ixa = 5 + body.length) (hxb : rc.ixb = 5 + body.length)
      (hmem : rc.mem.read (rc.ibuf + 5) body.length = body)
      (hok : RI.checkLength i (body.length + left) = true)
      (hfits : 5 + (body.length + left) ≤ used) :
      Incoming RI used rc (.sealed rc.recordTypeIn body left)

/-- Where the payload of the next record starts and ends, in the output window. -/
def plaintextRoom (RO : RecordOut O) (rc : RecEngine I O) : ℕ × ℕ :=
  outMaxPlaintext RO rc.outCtx 5 (rc.obufLen - 5)

/-- The output registers: payload is gathered for a record, or a record is sent. -/
inductive Outgoing (RO : RecordOut O) (frag : ℕ) (rc : RecEngine I O) : Prop
  | gathering (hlt : rc.oxa < rc.oxb) (hstart : rc.oxc = (rc.plaintextRoom RO).1)
      (hle : rc.oxc ≤ rc.oxa) (hend : rc.oxb ≤ (rc.plaintextRoom RO).2)
      (hfrag : rc.oxb ≤ rc.oxc + frag)
  | sending (heq : rc.oxa = rc.oxb) (hlt : rc.oxa < rc.oxc) (hend : rc.oxc ≤ rc.obufLen - 5)

/-- While one buffer serves both directions, only one of them is in use; with two, both are. -/
structure Modes (rc : RecEngine I O) : Prop where
  both : rc.ibuf ≠ rc.obuf → rc.iomode = .inout
  input : rc.ibuf = rc.obuf → rc.iomode ≠ .input → rc.ixa = 0 ∧ rc.ixb = 0
  output : rc.ibuf = rc.obuf → rc.iomode ≠ .output → rc.oxa = rc.oxc ∧ rc.oxa < rc.oxb

/-- The payload that was received and not taken yet. -/
def pending (rc : RecEngine I O) : List (UInt8 × UInt8) :=
  (rc.mem.read (rc.ibuf + rc.ixa) (rc.ixb - rc.ixa)).map (rc.recordTypeIn, ·)

/-- The bytes of a record that are not sent yet. -/
def unsent (rc : RecEngine I O) : Bytes :=
  if rc.oxa = rc.oxb then rc.mem.read (rc.obuf + rc.oxa) (rc.oxc - rc.oxa) else []

/-- The payload that waits for its record. -/
def waiting (rc : RecEngine I O) : Bytes :=
  if rc.oxa = rc.oxb then [] else rc.mem.read (rc.obuf + rc.oxc) (rc.oxa - rc.oxc)

end RecEngine

open RecEngine

variable {RI : RecordIn I} {RO : RecordOut O} {used frag : ℕ} {rc rc' : RecEngine I O}
  {e : EngineRun I O}

theorem RecEngine.Incoming.goes {phase : RxPhase} (h : Incoming RI used rc phase) :
    phase.isFailed = false := by cases h <;> rfl

theorem RecEngine.Incoming.le {phase : RxPhase} (h : Incoming RI used rc phase) :
    rc.ixa ≤ rc.ixb := by
  cases h with
  | header hlen hxa hxb => omega
  | payload h5 hlt => omega
  | clear hcrypt hleft hmax hxc h5 hxb => exact hxb
  | sealed hcrypt hleft hxc hxa hxb => omega

theorem pending_of_eq (h : rc.ixa = rc.ixb) : rc.pending = [] := by
  rw [pending, h, Nat.sub_self]
  rfl

/-! ### Frames -/

/-- The input side is left alone. -/
structure SameInput (rc rc' : RecEngine I O) : Prop where
  ibuf : rc'.ibuf = rc.ibuf
  ibufLen : rc'.ibufLen = rc.ibufLen
  ixa : rc'.ixa = rc.ixa
  ixb : rc'.ixb = rc.ixb
  ixc : rc'.ixc = rc.ixc
  inCtx : rc'.inCtx = rc.inCtx
  versionIn : rc'.versionIn = rc.versionIn
  recordTypeIn : rc'.recordTypeIn = rc.recordTypeIn
  mem : ∀ i < rc.ixb, rc'.mem (rc.ibuf + i) = rc.mem (rc.ibuf + i)

/-- The output side is left alone. -/
structure SameOutput (rc rc' : RecEngine I O) : Prop where
  obuf : rc'.obuf = rc.obuf
  obufLen : rc'.obufLen = rc.obufLen
  oxa : rc'.oxa = rc.oxa
  oxb : rc'.oxb = rc.oxb
  oxc : rc'.oxc = rc.oxc
  outCtx : rc'.outCtx = rc.outCtx
  maxFragLen : rc'.maxFragLen = rc.maxFragLen
  mem : ∀ i, min rc.oxa rc.oxc ≤ i → i < max rc.oxa rc.oxc →
    rc'.mem (rc.obuf + i) = rc.mem (rc.obuf + i)

theorem SameInput.read (h : SameInput rc rc') {off n : ℕ} (hle : off + n ≤ rc.ixb) :
    rc'.mem.read (rc'.ibuf + off) n = rc.mem.read (rc.ibuf + off) n := by
  rw [h.ibuf]
  refine Memory.read_congr fun i hi => ?_
  rw [Nat.add_assoc]
  exact h.mem (off + i) (by omega)

theorem SameInput.pending (h : SameInput rc rc') : rc'.pending = rc.pending := by
  rw [RecEngine.pending, RecEngine.pending, h.recordTypeIn, h.ixa, h.ixb]
  by_cases hle : rc.ixa ≤ rc.ixb
  · rw [h.read (by omega)]
  · rw [Nat.sub_eq_zero_of_le (by omega)]
    rfl

theorem SameInput.incoming (h : SameInput rc rc') {phase : RxPhase}
    (hin : Incoming RI used rc phase) : Incoming RI used rc' phase := by
  cases hin with
  | header hlen hxa hxb hxc hmem =>
    have hread := h.read (show 0 + rc.ixb ≤ rc.ixb by omega)
    rw [Nat.add_zero, Nat.add_zero, hxb] at hread
    exact .header hlen (h.ixa.trans hxa) (h.ixb.trans hxb) (h.ixc.trans hxc) (hread.trans hmem)
  | payload h5 hlt hle hxc =>
    refine .payload ?_ ?_ ?_ (h.ixc.trans hxc)
    · rwa [h.ixa]
    · rwa [h.ixa, h.ixb]
    · rwa [h.ixb]
  | clear hcrypt hpos hleft hxc h5 hxb hwait hle =>
    rw [← h.recordTypeIn]
    refine .clear (h.inCtx.trans hcrypt) hpos hleft (h.ixc.trans hxc) ?_ ?_ ?_ ?_
    · rwa [h.ixa]
    · rwa [h.ixa, h.ixb]
    · rwa [h.ixa, h.ixb]
    · rwa [h.ixb]
  | @sealed i body left hcrypt hpos hxc hxa hxb hmem hok hfits =>
    rw [← h.recordTypeIn]
    have hread := h.read (show 5 + body.length ≤ rc.ixb by omega)
    exact .sealed (h.inCtx.trans hcrypt) hpos (h.ixc.trans hxc) (h.ixa.trans hxa) (h.ixb.trans hxb)
      (hread.trans hmem) hok hfits

theorem SameOutput.unsent (h : SameOutput rc rc') : rc'.unsent = rc.unsent := by
  rw [RecEngine.unsent, RecEngine.unsent, h.oxa, h.oxb, h.oxc, h.obuf]
  split_ifs
  · refine Memory.read_congr fun i hi => ?_
    rw [Nat.add_assoc]
    exact h.mem (rc.oxa + i) (by omega) (by omega)
  · rfl

theorem SameOutput.waiting (h : SameOutput rc rc') : rc'.waiting = rc.waiting := by
  rw [RecEngine.waiting, RecEngine.waiting, h.oxa, h.oxb, h.oxc, h.obuf]
  split_ifs
  · rfl
  · refine Memory.read_congr fun i hi => ?_
    rw [Nat.add_assoc]
    exact h.mem (rc.oxc + i) (by omega) (by omega)

theorem SameOutput.outgoing (h : SameOutput rc rc') (hout : Outgoing RO frag rc) :
    Outgoing RO frag rc' := by
  have hroom : rc'.plaintextRoom RO = rc.plaintextRoom RO := by
    rw [plaintextRoom, plaintextRoom, h.outCtx, h.obufLen]
  cases hout with
  | gathering hlt hstart hle hend hfrag =>
    refine .gathering ?_ ?_ ?_ ?_ ?_
    · rwa [h.oxa, h.oxb]
    · rwa [h.oxc, hroom]
    · rwa [h.oxa, h.oxc]
    · rwa [h.oxb, hroom]
    · rwa [h.oxb, h.oxc]
  | sending heq hlt hend =>
    refine .sending ?_ ?_ ?_
    · rwa [h.oxa, h.oxb]
    · rwa [h.oxa, h.oxc]
    · rwa [h.oxc, h.obufLen]

end MacTLS
