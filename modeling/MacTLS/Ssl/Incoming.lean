import MacTLS.Ssl.Registers

/-!
# Incoming records

The engine reads the bytes of the peer as the incoming stream reads them, however they are cut, and
gives out the payload.  Meanwhile it leaves the outgoing records alone.

* `InputFrame` : what the incoming direction may do to the engine;
* `took_header`, `took_open` : a header, and a record that is complete;
* `reads_inject` : bytes of the peer;
* `takes` : payload is taken off.
-/

namespace MacTLS

open Lib

open RecEngine

variable {I O : Type} {RI : RecordIn I} {RO : RecordOut O} {used : ℕ} {rc rc' : RecEngine I O}

/-! ### The frame of the incoming direction -/

/-- The engine takes bytes of the peer. -/
def RecEngine.Receives (rc : RecEngine I O) : Prop := rc.iomode = .input ∨ rc.iomode = .inout

theorem RecEngine.Receives.alive (h : rc.Receives) : rc.iomode ≠ .failed := fun hfail => by
  obtain h | h := h <;> rw [h] at hfail <;> cases hfail

/-- What the transport may do to the output side, and to the modes. -/
structure InputFrame (used : ℕ) (rc rc' : RecEngine I O) : Prop where
  ibuf : rc'.ibuf = rc.ibuf
  ibufLen : rc'.ibufLen = rc.ibufLen
  obuf : rc'.obuf = rc.obuf
  obufLen : rc'.obufLen = rc.obufLen
  oxa : rc'.oxa = rc.oxa
  oxb : rc'.oxb = rc.oxb
  oxc : rc'.oxc = rc.oxc
  outCtx : rc'.outCtx = rc.outCtx
  maxFragLen : rc'.maxFragLen = rc.maxFragLen
  mem : Memory.SameOutside rc.ibuf used rc.mem rc'.mem
  /-- One buffer for both directions turns to the input, and back when a record is done with. -/
  mode : rc'.iomode = .failed ∨ (rc.ibuf ≠ rc.obuf → rc'.iomode = .inout) ∧
    (rc.ibuf = rc.obuf → rc'.iomode = .input ∨ rc'.iomode = .inout ∧ rc'.ixa = 0 ∧ rc'.ixb = 0)

theorem InputFrame.modes (h : InputFrame used rc rc') (hm : Modes rc) (hr : rc.Receives)
    (halive : rc'.iomode ≠ .failed) : Modes rc' := by
  obtain hfail | ⟨hboth, hone⟩ := h.mode
  · exact absurd hfail halive
  refine ⟨fun hne => ?_, fun heq hmode => ?_, fun heq _ => ?_⟩
  · rw [h.ibuf, h.obuf] at hne
    exact hboth hne
  · rw [h.ibuf, h.obuf] at heq
    obtain hin | ⟨-, hidle⟩ := hone heq
    · exact absurd hin hmode
    · exact hidle
  · rw [h.ibuf, h.obuf] at heq
    rw [h.oxa, h.oxb, h.oxc]
    refine hm.output heq fun hout => ?_
    obtain hr | hr := hr <;> rw [hr] at hout <;> cases hout

theorem InputFrame.sameOutput (h : InputFrame used rc rc') (hap : Apart RI used rc) (hm : Modes rc)
    (hr : rc.Receives) : SameOutput rc rc' := by
  refine ⟨h.obuf, h.obufLen, h.oxa, h.oxb, h.oxc, h.outCtx, h.maxFragLen, fun i hlo hhi => ?_⟩
  obtain heq | hle := hap.apart
  · -- nothing is gathered, and nothing is to be sent
    have hidle := hm.output heq fun hout => by
      obtain hr | hr := hr <;> rw [hr] at hout <;> cases hout
    omega
  · exact h.mem _ (.inr (by omega))

/-- A fresh record is expected. -/
theorem InputFrame.ready (h : InputFrame used rc rc') : InputFrame used rc rc'.makeReadyIn := by
  refine ⟨h.ibuf, h.ibufLen, h.obuf, h.obufLen, h.oxa, h.oxb, h.oxc, h.outCtx, h.maxFragLen, h.mem,
    ?_⟩
  have hmode : rc'.makeReadyIn.iomode = if rc'.iomode = .input then .inout else rc'.iomode := rfl
  rw [hmode]
  obtain hfail | ⟨hboth, hone⟩ := h.mode
  · rw [hfail]
    exact .inl rfl
  · refine .inr ⟨fun hne => ?_, fun heq => .inr ⟨?_, rfl, rfl⟩⟩
    · rw [hboth hne]
      rfl
    · obtain hin | ⟨hinout, -⟩ := hone heq
      · rw [hin]
        rfl
      · rw [hinout]
        rfl

theorem InputFrame.fail (h : InputFrame used rc rc') (err : ℕ) :
    InputFrame used rc (rc'.brSslEngineFail err) := by
  unfold brSslEngineFail
  split_ifs with hmode
  · exact ⟨h.ibuf, h.ibufLen, h.obuf, h.obufLen, h.oxa, h.oxb, h.oxc, h.outCtx, h.maxFragLen, h.mem,
      .inl rfl⟩
  · exact h

/-- Bytes are put in the window, within the part that is used. -/
theorem inputFrame_received (hm : Modes rc) (hr : rc.Receives) {bytes : Bytes}
    (hle : rc.ixa + bytes.length ≤ used) :
    InputFrame used rc ((rc.store (rc.ibuf + rc.ixa) bytes).received bytes.length) := by
  refine ⟨rfl, rfl, rfl, rfl, rfl, rfl, rfl, rfl, rfl, Memory.sameOutside_write (by omega)
    (by omega), .inr ⟨fun hne => ?_, fun heq => .inl ?_⟩⟩
  · show (if rc.iomode = .inout ∧ rc.ibuf = rc.obuf then IoMode.input else rc.iomode) = .inout
    rw [if_neg fun h => hne h.2, hm.both hne]
  · show (if rc.iomode = .inout ∧ rc.ibuf = rc.obuf then IoMode.input else rc.iomode) = .input
    obtain hin | hinout := hr
    · rw [if_neg (fun h => by rw [hin] at h; cases h.1), hin]
    · rw [if_pos ⟨hinout, heq⟩]

/-- The registers of the input are set, while the engine is turned to the input. -/
theorem InputFrame.set (h : InputFrame used rc rc') (halive : rc'.iomode ≠ .failed)
    (hin : rc.ibuf = rc.obuf → rc'.iomode = .input) {mem : Memory} {ixa ixb ixc versionIn : ℕ}
    {inCtx : Option I} {recordTypeIn : UInt8} (hmem : Memory.SameOutside rc.ibuf used rc'.mem mem) :
    InputFrame used rc
      { rc' with mem, ixa, ixb, ixc, versionIn, inCtx, recordTypeIn } := by
  refine ⟨h.ibuf, h.ibufLen, h.obuf, h.obufLen, h.oxa, h.oxb, h.oxc, h.outCtx, h.maxFragLen,
    h.mem.trans hmem, ?_⟩
  obtain hfail | ⟨hboth, -⟩ := h.mode
  · exact absurd hfail halive
  · exact .inr ⟨hboth, fun heq => .inl (hin heq)⟩

/-- What the state of the stream says about an engine. -/
def Means (RI : RecordIn I) (used : ℕ) (rc : RecEngine I O) (s : RxState I) : Prop :=
  if rc.iomode = .failed then s.phase = .failed rc.err
  else s.crypt = rc.inCtx ∧ s.version = rc.versionIn ∧ Incoming RI used rc s.phase

theorem means_iff {s : RxState I} (halive : rc.iomode ≠ .failed) : Means RI used rc s ↔
    s.crypt = rc.inCtx ∧ s.version = rc.versionIn ∧ Incoming RI used rc s.phase := by
  rw [Means, if_neg halive]

/-- What the engine has after it was told of bytes of the peer. -/
def Took (RI : RecordIn I) (used : ℕ) (rc : RecEngine I O) (out : List (UInt8 × UInt8))
    (s : RxState I) : Prop := out = rc.pending ∧ Means RI used rc s

theorem took_fail {s : RxState I} {err : ℕ} (halive : rc.iomode ≠ .failed)
    (hxab : rc.ixa = rc.ixb) (hphase : s.phase = .failed err) :
    Took RI used (rc.brSslEngineFail err) [] s := by
  rw [brSslEngineFail, if_pos halive, Took, Means, if_pos rfl]
  exact ⟨(pending_of_eq hxab).symm, hphase⟩

theorem took_ready {s : RxState I} (halive : rc.iomode ≠ .failed) (hcrypt : s.crypt = rc.inCtx)
    (hversion : s.version = rc.versionIn) (hphase : s.phase = .header []) :
    Took RI used rc.makeReadyIn [] s := by
  have hmode : rc.makeReadyIn.iomode ≠ .failed := by
    show (if rc.iomode = .input then IoMode.inout else rc.iomode) ≠ .failed
    split_ifs
    · exact fun h => by cases h
    · exact halive
  rw [Took, Means, if_neg hmode, hphase]
  exact ⟨rfl, hcrypt, hversion, .header (by decide) rfl rfl rfl rfl⟩

/-- The bytes of a header, as the engine and as the stream read them. -/
theorem mem_of_read {m : Memory} {off : ℕ} {hdr : Bytes} (h : m.read off hdr.length = hdr) {i : ℕ}
    (hi : i < hdr.length) : m (off + i) = byteAt hdr i := by
  rw [byteAt, List.getD_eq_getElem _ _ hi]
  conv_rhs => rw [List.getElem_of_eq h.symm (by simpa using hi)]
  simp [Memory.read]

/-- A header, as the engine and as the stream take it. -/
theorem took_header {s : RxState I} {hdr : Bytes} (hlen : hdr.length = 5)
    (hmem : rc.mem.read rc.ibuf 5 = hdr) (halive : rc.iomode ≠ .failed) (hxab : rc.ixa = rc.ixb)
    (hap : Apart RI used rc) (hcrypt : s.crypt = rc.inCtx) (hversion : s.version = rc.versionIn) :
    Took RI used (rc.recvrecHeader RI) [] (rxHeader RI rc.ibufLen s hdr) := by
  have hbyte : ∀ i < 5, rc.mem (rc.ibuf + i) = byteAt hdr i := fun i hi =>
    mem_of_read (by rw [hlen, hmem]) (by omega)
  have htype : rc.mem rc.ibuf = byteAt hdr 0 := hbyte 0 (by decide)
  have h16 : ∀ i, i + 1 < 5 → rc.dec16 (rc.ibuf + i) = getU16 hdr i := fun i hi => by
    rw [dec16, Nat.add_assoc, hbyte i (by omega), hbyte (i + 1) hi]
    rfl
  -- neither the type nor the version of the record decides whether its length is refused
  have hrefuses : ∀ t v n, ({ rc with recordTypeIn := t, versionIn := v } :
      RecEngine I O).refuses RI n = refusal RI rc.ibufLen s.crypt n := fun t v n => by
    rw [hcrypt]
    rfl
  unfold recvrecHeader rxHeader
  rw [h16 1 (by decide), hversion, htype]
  dsimp only
  by_cases hmajor : getU16 hdr 1 / 256 ≠ 3
  · rw [if_pos hmajor, if_pos hmajor]
    exact took_fail halive hxab rfl
  rw [if_neg hmajor, if_neg hmajor]
  by_cases hother : rc.versionIn ≠ 0 ∧ rc.versionIn ≠ getU16 hdr 1
  · rw [if_pos hother, if_pos hother]
    exact took_fail halive hxab rfl
  rw [if_neg hother, if_neg hother, hrefuses]
  have hrlen : ∀ t v, ({ rc with recordTypeIn := t, versionIn := v } : RecEngine I O).dec16
      (rc.ibuf + 3) = getU16 hdr 3 := fun t v => h16 3 (by decide)
  rw [hrlen]
  rcases hr : refusal RI rc.ibufLen s.crypt (getU16 hdr 3) with _ | err
  · dsimp only
    by_cases hzero : getU16 hdr 3 = 0
    · rw [if_pos hzero, if_pos hzero]
      exact took_ready halive hcrypt rfl rfl
    · rw [if_neg hzero, if_neg hzero]
      have hpos : 0 < getU16 hdr 3 := Nat.pos_of_ne_zero hzero
      rw [Took, Means, if_neg halive]
      -- what was not refused fits in front of the window of the output
      cases hc : s.crypt with
      | none =>
        rw [hc, refusal] at hr
        have hmax : getU16 hdr 3 ≤ 16384 := Nat.not_lt.1 fun h => by
          rw [if_pos h] at hr
          cases hr
        have hused := hap.clear
        have hroom := hap.room
        exact ⟨rfl, hc.symm.trans hcrypt, rfl, .clear (hcrypt.symm.trans hc) hpos hmax rfl
          (Nat.le_refl 5) (Nat.le_refl 5) (fun _ => rfl) (by show 5 ≤ used; omega)⟩
      | some i =>
        rw [hc, refusal] at hr
        have hok : RI.checkLength i (getU16 hdr 3) = true := by
          by_contra hbad
          rw [if_pos (by simpa using hbad)] at hr
          cases hr
        have hfits : getU16 hdr 3 ≤ rc.ibufLen - 5 := Nat.not_lt.1 fun h => by
          rw [if_neg (by simp [hok]), if_pos h] at hr
          cases hr
        have hroom := hap.room
        exact ⟨rfl, hc.symm.trans hcrypt, rfl, .sealed (hcrypt.symm.trans hc) hpos rfl rfl rfl rfl
          (by rwa [List.length_nil, Nat.zero_add])
          (by
            rw [List.length_nil, Nat.zero_add]
            exact hap.sealed i _ hok (by omega))⟩
  · exact took_fail halive hxab rfl

/-- A record that is complete, as the engine and as the stream open it. -/
theorem took_open {s : RxState I} {i : I} {body : Bytes} (halive : rc.iomode ≠ .failed)
    (hxab : rc.ixa = rc.ixb) (hxa : rc.ixa = 5 + body.length) (hxc : rc.ixc = 0)
    (hmem : rc.mem.read (rc.ibuf + 5) body.length = body) (hi : s.crypt = some i)
    (hversion : s.version = rc.versionIn) (hok : RI.checkLength i body.length = true)
    (hfits : 5 + body.length ≤ used) :
    Took RI used (rc.recvrecOpen RI i) (rxOpen RI s rc.recordTypeIn body).2
      (rxOpen RI s rc.recordTypeIn body).1 := by
  have hbody : rc.mem.read (rc.ibuf + 5) (rc.ixa - 5) = body := by
    rw [hxa, Nat.add_sub_cancel_left, hmem]
  have hlen := RI.length_decrypt i rc.recordTypeIn rc.versionIn body
  have hbound := RI.decrypt_fits i rc.recordTypeIn rc.versionIn body
  unfold recvrecOpen rxOpen
  rw [hi, hversion, hbody]
  dsimp only
  rcases hd : (RI.decrypt i rc.recordTypeIn rc.versionIn body).2.2 with _ | ⟨off, n⟩
  · exact took_fail halive hxab rfl
  dsimp only
  have hin := hbound off n hok hd
  by_cases hzero : n = 0
  · rw [if_pos hzero, hzero, List.take_zero]
    exact took_ready halive rfl rfl rfl
  · rw [if_neg hzero, Took, Means, if_neg halive]
    refine ⟨?_, rfl, rfl, .payload ?_ ?_ ?_ hxc⟩
    · -- what was written over the record is read at its offset
      rw [pending]
      dsimp only
      rw [Nat.add_sub_cancel_left, ← Nat.add_assoc, ← Memory.take_drop_read (hlen.symm ▸ hin),
        Memory.read_write_self]
    all_goals dsimp only; omega

/-- The frame of a header. -/
theorem InputFrame.header (h : InputFrame used rc rc') (halive : rc'.iomode ≠ .failed)
    (hin : rc.ibuf = rc.obuf → rc'.iomode = .input) :
    InputFrame used rc (rc'.recvrecHeader RI) := by
  have hset := fun t v => (h.set halive hin .refl :
    InputFrame used rc { rc' with recordTypeIn := t, versionIn := v })
  unfold recvrecHeader
  dsimp only
  split_ifs
  · exact (hset _ _).fail _
  · exact (hset _ _).fail _
  all_goals rcases refuses RI _ _ with _ | err
  · exact (hset _ _).ready
  · exact (hset _ _).fail _
  · exact h.set halive hin .refl
  · exact (hset _ _).fail _

/-- The frame of a record that is opened. -/
theorem InputFrame.opened (h : InputFrame used rc rc') (halive : rc'.iomode ≠ .failed)
    (hin : rc.ibuf = rc.obuf → rc'.iomode = .input) (h5 : 5 ≤ rc'.ixa) (hle : rc'.ixa ≤ used)
    (i : I) : InputFrame used rc (rc'.recvrecOpen RI i) := by
  have hmem : Memory.SameOutside rc.ibuf used rc'.mem (rc'.mem.write (rc'.ibuf + 5) (RI.decrypt i
      rc'.recordTypeIn rc'.versionIn (rc'.mem.read (rc'.ibuf + 5) (rc'.ixa - 5))).2.1) := by
    refine Memory.sameOutside_write (by rw [h.ibuf]; omega) ?_
    rw [RI.length_decrypt, Memory.length_read, h.ibuf]
    omega
  have hset := fun i' => (h.set halive hin hmem : InputFrame used rc { rc' with
    inCtx := i', mem := rc'.mem.write (rc'.ibuf + 5) (RI.decrypt i rc'.recordTypeIn rc'.versionIn
      (rc'.mem.read (rc'.ibuf + 5) (rc'.ixa - 5))).2.1 })
  unfold recvrecOpen
  dsimp only
  rcases (RI.decrypt i rc'.recordTypeIn rc'.versionIn
    (rc'.mem.read (rc'.ibuf + 5) (rc'.ixa - 5))).2.2 with _ | ⟨off, n⟩
  · exact (hset _).fail _
  · dsimp only
    split_ifs
    · exact (hset _).ready
    · exact h.set halive hin hmem

/-- After less than a header. -/
theorem recvrecAck_short {len : ℕ} (h5 : rc.ixa + len < 5) :
    rc.recvrecAck RI len = rc.received len := if_pos h5

/-- After a header. -/
theorem recvrecAck_header {len : ℕ} (h5 : rc.ixa + len = 5) :
    rc.recvrecAck RI len = (rc.received len).recvrecHeader RI := by
  have hxa : (rc.received len).ixa = rc.ixa + len := rfl
  rw [recvrecAck, if_neg (by omega), if_pos (by omega)]

/-- After more than a header, without encryption. -/
theorem recvrecAck_clear {len : ℕ} (h5 : 5 < rc.ixa + len) (hi : rc.inCtx = none) :
    rc.recvrecAck RI len = { rc.received len with ixa := 5 } := by
  have hxa : (rc.received len).ixa = rc.ixa + len := rfl
  rw [recvrecAck, if_neg (by omega), if_neg (by omega)]
  split
  · rfl
  · next i h => exact absurd (h.symm.trans hi) (by simp)

/-- After more than a header, with encryption. -/
theorem recvrecAck_sealed {len : ℕ} {i : I} (h5 : 5 < rc.ixa + len) (hi : rc.inCtx = some i) :
    rc.recvrecAck RI len =
      if rc.ixc - len ≠ 0 then rc.received len else (rc.received len).recvrecOpen RI i := by
  have hxa : (rc.received len).ixa = rc.ixa + len := rfl
  rw [recvrecAck, if_neg (by omega), if_neg (by omega)]
  have hctx : (rc.received len).inCtx = some i := hi
  rw [hctx]
  rfl

/-- What the transport brings is read as the stream reads it. -/
theorem reads_inject (hap : Apart RI used rc) (hm : Modes rc) (hr : rc.Receives)
    {s : RxState I} (hcrypt : s.crypt = rc.inCtx) (hversion : s.version = rc.versionIn)
    (hin : Incoming RI used rc s.phase) {bytes : Bytes} (hpos : 0 < bytes.length)
    (hxab : rc.ixa = rc.ixb) (hlen : bytes.length ≤ rc.ixc)
    (hend : bytes.length ≤ rc.ibufLen - rc.ixa) :
    ∃ out s', (rxMachine RI rc.ibufLen).Reads s (bytes.map .byte) out s' ∧
      Took RI used ((rc.store (rc.ibuf + rc.ixa) bytes).recvrecAck RI bytes.length) out s' ∧
      InputFrame used rc ((rc.store (rc.ibuf + rc.ixa) bytes).recvrecAck RI bytes.length) := by
  have halive := hr.alive
  have hroom := hap.room
  have hclear := hap.clear
  set rs := rc.store (rc.ibuf + rc.ixa) bytes
  -- one buffer is turned to the input by the first byte of a record
  have hin₁ : rc.ibuf = rc.obuf → (rs.received bytes.length).iomode = .input := fun heq => by
    show (if rc.iomode = .inout ∧ rc.ibuf = rc.obuf then IoMode.input else rc.iomode) = .input
    split_ifs with h
    · rfl
    · exact hr.resolve_right fun hinout => h ⟨hinout, heq⟩
  have halive₁ : (rs.received bytes.length).iomode ≠ .failed := by
    show (if rc.iomode = .inout ∧ rc.ibuf = rc.obuf then IoMode.input else rc.iomode) ≠ .failed
    split_ifs with h
    · exact fun h => by cases h
    · exact halive
  have hxa₁ : rs.ixa = rc.ixa := rfl
  have hxc₁ : rs.ixc = rc.ixc := rfl
  have hframe : rc.ixa + bytes.length ≤ used → InputFrame used rc (rs.received bytes.length) :=
    fun h => inputFrame_received hm hr h
  -- by the phase the engine is in: what was offered never goes beyond the end of that phase
  generalize hphase : s.phase = phase at hin
  cases hin with
  | @header got hgot hxa hxb hxc hmem =>
    refine ⟨[], _, rx_header hphase (by omega) hgot, ?_⟩
    have hread : (rc.mem.write (rc.ibuf + rc.ixa) bytes).read rc.ibuf (got ++ bytes).length =
        got ++ bytes := by
      rw [List.length_append, Memory.read_add, Memory.read_write_before (by omega), hmem, hxa,
        Memory.read_write_self]
    have hframe := hframe (by omega)
    by_cases hmore : got.length + bytes.length < 5
    · rw [if_pos hmore, recvrecAck_short (show rs.ixa + bytes.length < 5 by omega)]
      refine ⟨?_, hframe⟩
      rw [Took, Means, if_neg halive₁]
      have hlen' : rc.ixa + bytes.length = (got ++ bytes).length := by
        rw [List.length_append, hxa]
      refine ⟨(pending_of_eq rfl).symm, hcrypt, hversion,
        .header (by rwa [List.length_append]) hlen' hlen' ?_ hread⟩
      show rs.ixc - bytes.length = _
      rw [List.length_append]
      omega
    · have hfive : rs.ixa + bytes.length = 5 := by omega
      rw [if_neg hmore, recvrecAck_header hfive]
      refine ⟨took_header (by rw [List.length_append]; omega) ?_ halive₁ rfl ?_ hcrypt hversion,
        hframe.header halive₁ hin₁⟩
      · rw [List.length_append, show got.length + bytes.length = 5 by omega] at hread
        exact hread
      · exact ⟨hap.room, hap.outRoom, hap.le, hap.clear, hap.sealed, hap.apart⟩
  -- `recvrec_buf` offers nothing while there is payload
  | payload h5 hlt hle hxc => exact absurd hxab (Nat.ne_of_lt hlt)
  | @clear left hi hleft hmax hxc h5 hxb hwait hle =>
    have hfive := hwait hxab
    refine ⟨_, _, rx_clear hphase hleft (by omega), ?_⟩
    have hframe := hframe (by omega)
    rw [recvrecAck_clear (show 5 < rs.ixa + bytes.length by omega) hi]
    refine ⟨?_, hframe.set halive₁ hin₁ .refl⟩
    rw [Took, Means, if_neg halive₁]
    have hpending : rs.mem.read (rs.ibuf + 5) (rs.ixa + bytes.length - 5) = bytes := by
      show (rc.mem.write (rc.ibuf + rc.ixa) bytes).read (rc.ibuf + 5) (rc.ixa + bytes.length - 5) =
        bytes
      rw [hfive, Nat.add_sub_cancel_left, Memory.read_write_self]
    refine ⟨by rw [pending]; exact (congrArg _ hpending).symm, hcrypt, hversion, ?_⟩
    by_cases hdone : bytes.length = left
    · rw [if_pos hdone]
      refine .payload (Nat.le_refl 5) (show 5 < rs.ixa + bytes.length by omega)
        (show rs.ixa + bytes.length ≤ used by omega) (show rs.ixc - bytes.length = 0 by omega)
    · rw [if_neg hdone]
      exact .clear hi (by omega) (by omega) (show rs.ixc - bytes.length = _ by omega)
        (Nat.le_refl 5) (show 5 ≤ rs.ixa + bytes.length by omega) (fun _ => rfl)
        (show rs.ixa + bytes.length ≤ used by omega)
  | @sealed i body left hi hleft hxc hxa hxb hmem hok hfits =>
    refine ⟨_, _, rx_sealed hphase hleft (by omega), ?_⟩
    have hread : (rc.mem.write (rc.ibuf + rc.ixa) bytes).read (rc.ibuf + 5)
        (body ++ bytes).length = body ++ bytes := by
      rw [List.length_append, Memory.read_add, Memory.read_write_before (by omega), hmem, hxa,
        ← Nat.add_assoc, Memory.read_write_self]
    have hframe := hframe (by omega)
    rw [recvrecAck_sealed (show 5 < rs.ixa + bytes.length by omega) hi]
    by_cases hdone : bytes.length = left
    · rw [if_pos hdone, if_pos hdone, if_neg (show ¬rs.ixc - bytes.length ≠ 0 by omega)]
      have hbody : body.length + bytes.length = (body ++ bytes).length := List.length_append.symm
      have hsum : body.length + left = (body ++ bytes).length := by omega
      refine ⟨took_open halive₁ rfl (show rs.ixa + bytes.length = _ by omega)
        (show rs.ixc - bytes.length = 0 by omega) hread (hcrypt.trans hi) hversion (hsum ▸ hok)
        (hsum ▸ hfits), hframe.opened halive₁ hin₁ (show 5 ≤ rs.ixa + bytes.length by omega)
        (show rs.ixa + bytes.length ≤ used by omega) i⟩
    · rw [if_neg hdone, if_neg hdone, if_pos (show rs.ixc - bytes.length ≠ 0 by omega)]
      refine ⟨?_, hframe⟩
      rw [Took, Means, if_neg halive₁]
      have hbody : (body ++ bytes).length = body.length + bytes.length := List.length_append
      have hsum : (body ++ bytes).length + (left - bytes.length) = body.length + left := by omega
      exact ⟨(pending_of_eq rfl).symm, hcrypt, hversion, .sealed hi (by omega)
        (show rs.ixc - bytes.length = _ by omega) (show rs.ixa + bytes.length = _ by omega)
        (show rs.ixa + bytes.length = _ by omega) hread (by rw [hsum]; exact hok)
        (by rw [hsum]; exact hfits)⟩

/-! ### Payload that is taken off -/

/-- Payload is only there while the engine is turned to the input. -/
theorem input_of_pending (hm : Modes rc) (hlt : rc.ixa < rc.ixb) (heq : rc.ibuf = rc.obuf) :
    rc.iomode = .input := by
  by_contra hmode
  have hidle := hm.input heq hmode
  omega

/-- The payload without its front. -/
theorem pending_front {n : ℕ} (hle : n ≤ rc.ixb - rc.ixa) :
    rc.pending = (rc.mem.read (rc.ibuf + rc.ixa) n).map (rc.recordTypeIn, ·) ++
      { rc with ixa := rc.ixa + n }.pending := by
  rw [pending, pending, ← List.map_append, ← Nat.add_assoc, ← Memory.read_add]
  congr 2
  show rc.ixb - rc.ixa = n + (rc.ixb - (rc.ixa + n))
  omega

/-- What is taken off is the front of the payload, and the registers still mean the same phase. -/
theorem takes (hm : Modes rc) (hr : rc.Receives) {phase : RxPhase}
    (hin : Incoming RI used rc phase) {n : ℕ} (hpos : 0 < n) (hle : n ≤ rc.ixb - rc.ixa) :
    (rc.recvpldAck n).iomode ≠ .failed ∧ (rc.recvpldAck n).inCtx = rc.inCtx ∧
      (rc.recvpldAck n).versionIn = rc.versionIn ∧
      rc.pending = (rc.mem.read (rc.ibuf + rc.ixa) n).map (rc.recordTypeIn, ·) ++
        (rc.recvpldAck n).pending ∧
      Incoming RI used (rc.recvpldAck n) phase ∧ InputFrame used rc (rc.recvpldAck n) := by
  have halive := hr.alive
  have hin₁ := input_of_pending hm (by omega)
  have hframe : InputFrame used rc { rc with ixa := rc.ixa + n } := ⟨rfl, rfl, rfl, rfl, rfl, rfl,
    rfl, rfl, rfl, .refl, .inr ⟨hm.both, fun heq => .inl (hin₁ heq)⟩⟩
  have hpending := pending_front hle
  by_cases hall : rc.ixa + n = rc.ixb
  · -- nothing of the payload is left
    rw [@pending_of_eq _ _ { rc with ixa := rc.ixa + n } hall] at hpending
    by_cases hxc : rc.ixc = 0
    · have hack : rc.recvpldAck n = { rc with ixa := rc.ixa + n }.makeReadyIn := by
        rw [recvpldAck, if_pos hall, if_pos hxc]
      have halive₁ : { rc with ixa := rc.ixa + n }.makeReadyIn.iomode ≠ .failed := by
        show (if rc.iomode = .input then IoMode.inout else rc.iomode) ≠ .failed
        split_ifs
        · exact fun h => by cases h
        · exact halive
      have hnone : (rc.recvpldAck n).pending = [] := pending_of_eq (by rw [hack]; rfl)
      rw [hnone, hack]
      refine ⟨halive₁, rfl, rfl, hpending, ?_, hframe.ready⟩
      cases hin with
      | header hlen hxa hxb => omega
      | payload => exact .header (by decide) rfl rfl rfl rfl
      | clear hcrypt hleft hmax hxc' => omega
      | sealed hcrypt hleft hxc' => omega
    · -- the rest of an unencrypted record goes where its front was
      have hack : rc.recvpldAck n = { rc with ixa := 5, ixb := 5 } := by
        rw [recvpldAck, if_pos hall, if_neg hxc]
      have hnone : (rc.recvpldAck n).pending = [] := pending_of_eq (by rw [hack])
      rw [hnone, hack]
      refine ⟨halive, rfl, rfl, hpending, ?_, hframe.set halive hin₁ .refl⟩
      cases hin with
      | header hlen hxa hxb => omega
      | payload h5 hlt hle hxc' => omega
      | clear hcrypt hleft hmax hxc' h5 hxb hwait hle =>
        exact .clear hcrypt hleft hmax hxc' (Nat.le_refl 5) (Nat.le_refl 5) (fun _ => rfl)
          (show 5 ≤ used by omega)
      | sealed hcrypt hleft hxc' hxa hxb => omega
  · have hack : rc.recvpldAck n = { rc with ixa := rc.ixa + n } := if_neg hall
    rw [hack]
    refine ⟨halive, rfl, rfl, hpending, ?_, hframe⟩
    cases hin with
    | header hlen hxa hxb => omega
    | payload h5 hlt hle hxc =>
      exact .payload (show 5 ≤ rc.ixa + n by omega) (show rc.ixa + n < rc.ixb by omega) hle hxc
    | clear hcrypt hleft hmax hxc h5 hxb hwait hle =>
      exact .clear hcrypt hleft hmax hxc (show 5 ≤ rc.ixa + n by omega)
        (show rc.ixa + n ≤ rc.ixb by omega) (fun h => absurd h hall) hle
    | sealed hcrypt hleft hxc hxa hxb => omega

end MacTLS
