import MacTLS.Ssl.Incoming

/-!
# Outgoing records

The engine gathers payload for a record, seals it, and sends it, however the payload is put in and
the record is taken off.  Meanwhile it leaves the incoming records alone.

* `OutputFrame` : what the outgoing direction may do to the engine;
* `seals` : a record is made of the payload that waits;
* `puts`, `flushes`, `sends` : what the operations do to the payload and to the bytes.
-/

namespace MacTLS

open Lib

open RecEngine

variable {I O : Type} {RI : RecordIn I} {RO : RecordOut O} {used frag : ℕ} {rc rc' : RecEngine I O}

/-! ### The frame of the outgoing direction -/

/-- The engine takes payload, or sends a record. -/
def RecEngine.Sends (rc : RecEngine I O) : Prop := rc.iomode = .output ∨ rc.iomode = .inout

theorem RecEngine.Sends.alive (h : rc.Sends) : rc.iomode ≠ .failed := fun hfail => by
  obtain h | h := h <;> rw [h] at hfail <;> cases hfail

/-- What the application may do to the input side, and to the modes. -/
structure OutputFrame (rc rc' : RecEngine I O) : Prop where
  ibuf : rc'.ibuf = rc.ibuf
  ibufLen : rc'.ibufLen = rc.ibufLen
  obuf : rc'.obuf = rc.obuf
  obufLen : rc'.obufLen = rc.obufLen
  ixa : rc'.ixa = rc.ixa
  ixb : rc'.ixb = rc.ixb
  ixc : rc'.ixc = rc.ixc
  inCtx : rc'.inCtx = rc.inCtx
  versionIn : rc'.versionIn = rc.versionIn
  recordTypeIn : rc'.recordTypeIn = rc.recordTypeIn
  maxFragLen : rc'.maxFragLen = rc.maxFragLen
  mem : Memory.SameOutside rc.obuf rc.obufLen rc.mem rc'.mem
  /-- One buffer for both directions turns to the output, and back when a record is sent. -/
  mode : (rc.ibuf ≠ rc.obuf → rc'.iomode = .inout) ∧ (rc.ibuf = rc.obuf →
    rc'.iomode = .output ∨ rc'.iomode = .inout ∧ rc'.oxa = rc'.oxc ∧ rc'.oxa < rc'.oxb)

theorem OutputFrame.alive (h : OutputFrame rc rc') : rc'.iomode ≠ .failed := fun hfail => by
  by_cases heq : rc.ibuf = rc.obuf
  · obtain hout | ⟨hinout, -⟩ := h.mode.2 heq
    · rw [hout] at hfail
      cases hfail
    · rw [hinout] at hfail
      cases hfail
  · rw [h.mode.1 heq] at hfail
    cases hfail

/-- Nothing has come in while the engine is turned to the output. -/
theorem idle_of_sends (hm : Modes rc) (hs : rc.Sends) (heq : rc.ibuf = rc.obuf) :
    rc.ixa = 0 ∧ rc.ixb = 0 :=
  hm.input heq fun hin => by obtain hs | hs := hs <;> rw [hs] at hin <;> cases hin

theorem OutputFrame.modes (h : OutputFrame rc rc') (hm : Modes rc) (hs : rc.Sends) : Modes rc' := by
  refine ⟨fun hne => ?_, fun heq _ => ?_, fun heq hmode => ?_⟩
  · rw [h.ibuf, h.obuf] at hne
    exact h.mode.1 hne
  · rw [h.ibuf, h.obuf] at heq
    rw [h.ixa, h.ixb]
    exact idle_of_sends hm hs heq
  · rw [h.ibuf, h.obuf] at heq
    obtain hout | ⟨-, hidle⟩ := h.mode.2 heq
    · exact absurd hout hmode
    · exact hidle

/-- The input registers stay within the part of the window that is used. -/
theorem RecEngine.Incoming.le_used {phase : RxPhase} (hin : Incoming RI used rc phase)
    (h5 : 5 ≤ used) : rc.ixb ≤ used := by
  cases hin with
  | header hlen hxa hxb => omega
  | payload h5 hlt hle => exact hle
  | clear hcrypt hleft hmax hxc h5 hxb hwait hle => exact hle
  | sealed hcrypt hleft hxc hxa hxb hmem hok hfits => omega

theorem OutputFrame.sameInput (h : OutputFrame rc rc') (hap : Apart RI used rc) (hm : Modes rc)
    (hs : rc.Sends) {phase : RxPhase} (hin : Incoming RI used rc phase) : SameInput rc rc' := by
  refine ⟨h.ibuf, h.ibufLen, h.ixa, h.ixb, h.ixc, h.inCtx, h.versionIn, h.recordTypeIn,
    fun i hi => ?_⟩
  have hroom := hap.room
  have hclear := hap.clear
  have hle := hin.le_used (by omega)
  obtain heq | hle := hap.apart
  · have hidle := idle_of_sends hm hs heq
    omega
  · exact h.mem _ (.inl (by omega))

/-! ### Records -/

/-- There is room for some plaintext, and for no more than the protocol allows. -/
theorem plaintextRoom_spec (RO : RecordOut O) (hroom : 597 ≤ rc.obufLen) :
    (rc.plaintextRoom RO).1 < (rc.plaintextRoom RO).2 ∧
      (rc.plaintextRoom RO).2 ≤ rc.obufLen - 5 ∧
      (rc.plaintextRoom RO).2 ≤ (rc.plaintextRoom RO).1 + 16384 := by
  unfold plaintextRoom outMaxPlaintext
  cases rc.outCtx with
  | none =>
    simp only [clearMaxPlaintext]
    split_ifs <;> omega
  | some o =>
    have hstop : 592 ≤ rc.obufLen - 5 := by omega
    exact ⟨(RO.maxPlaintext_room o _ hstop).1, (RO.maxPlaintext_room o _ hstop).2,
      RO.maxPlaintext_le o _ hstop⟩

/-- A record of the payload that there is room for fits in the window. -/
theorem outEncrypt_fits (RO : RecordOut O) (recordType : UInt8) (version : ℕ) {data : Bytes}
    (hroom : 597 ≤ rc.obufLen)
    (hle : (rc.plaintextRoom RO).1 + data.length ≤ (rc.plaintextRoom RO).2) :
    (outEncrypt RO rc.outCtx recordType version data).2.1 ≤ (rc.plaintextRoom RO).1 ∧
      0 < (outEncrypt RO rc.outCtx recordType version data).2.2.length ∧
      (rc.plaintextRoom RO).1 - (outEncrypt RO rc.outCtx recordType version data).2.1 +
        (outEncrypt RO rc.outCtx recordType version data).2.2.length ≤ rc.obufLen - 5 := by
  have hspec := plaintextRoom_spec RO hroom
  revert hle hspec
  unfold plaintextRoom outMaxPlaintext outEncrypt
  cases rc.outCtx with
  | none =>
    intro hle hspec
    simp only [clearEncrypt, clearMaxPlaintext] at hle hspec ⊢
    simp only [List.length_append, List.length_singleton, length_putU16]
    split_ifs at hle hspec <;> omega
  | some o =>
    intro hle hspec
    exact RO.encrypt_fits o recordType version data _ (by omega) hle

/-- There is room when the next record may be gathered. -/
theorem ready_lt (RO : RecordOut O) (hroom : 597 ≤ rc.obufLen) (hpos : 0 < rc.maxFragLen) :
    (rc.makeReadyOut RO).oxa < (rc.makeReadyOut RO).oxb := by
  obtain ⟨hlt, -, -⟩ := plaintextRoom_spec RO hroom
  show (rc.plaintextRoom RO).1 <
    if (rc.plaintextRoom RO).2 - (rc.plaintextRoom RO).1 > rc.maxFragLen then
      (rc.plaintextRoom RO).1 + rc.maxFragLen else (rc.plaintextRoom RO).2
  split_ifs <;> omega

/-- The registers when the next record may be gathered. -/
theorem outgoing_ready (hroom : 597 ≤ rc.obufLen) (hpos : 0 < rc.maxFragLen)
    (hfrag : rc.maxFragLen ≤ frag) : Outgoing RO frag (rc.makeReadyOut RO) := by
  have hoxb : (rc.makeReadyOut RO).oxb =
      if (rc.plaintextRoom RO).2 - (rc.plaintextRoom RO).1 > rc.maxFragLen then
        (rc.plaintextRoom RO).1 + rc.maxFragLen else (rc.plaintextRoom RO).2 := rfl
  have hoxc : (rc.makeReadyOut RO).oxc = (rc.plaintextRoom RO).1 := rfl
  have hsame : (rc.makeReadyOut RO).plaintextRoom RO = rc.plaintextRoom RO := rfl
  obtain ⟨hlt, -, -⟩ := plaintextRoom_spec RO hroom
  refine .gathering (ready_lt RO hroom hpos) hoxc (Nat.le_refl _) ?_ ?_
  · rw [hoxb, hsame]
    split_ifs <;> omega
  · rw [hoxb, hoxc]
    split_ifs <;> omega

/-- A record is made of the payload that waits. -/
theorem seals (frag : ℕ) (hroom : 597 ≤ rc.obufLen) (hlt : rc.oxa < rc.oxb)
    (hstart : rc.oxc = (rc.plaintextRoom RO).1) (hle : rc.oxc ≤ rc.oxa)
    (hend : rc.oxa ≤ (rc.plaintextRoom RO).2) {force : Bool} {data : Bytes}
    (hdata : rc.flushed force = some data) :
    data = rc.waiting ∧ Outgoing RO frag (rc.sendpldFlush RO force) ∧
      (rc.sendpldFlush RO force).outCtx =
        (outEncrypt RO rc.outCtx rc.recordTypeOut rc.versionOut data).1 ∧
      (rc.sendpldFlush RO force).unsent =
        (outEncrypt RO rc.outCtx rc.recordTypeOut rc.versionOut data).2.2 ∧
      (rc.sendpldFlush RO force).waiting = [] ∧
      Memory.SameOutside rc.obuf rc.obufLen rc.mem (rc.sendpldFlush RO force).mem := by
  have hread : data = rc.mem.read (rc.obuf + rc.oxc) (rc.oxa - rc.oxc) := by
    rw [flushed, if_neg (Nat.ne_of_lt hlt)] at hdata
    split_ifs at hdata with hempty
    exact (Option.some.inj hdata).symm
  have hlen : data.length = rc.oxa - rc.oxc := by rw [hread, Memory.length_read]
  obtain ⟨hbefore, hpos, hfits⟩ := outEncrypt_fits RO rc.recordTypeOut rc.versionOut hroom
    (show (rc.plaintextRoom RO).1 + data.length ≤ _ by omega)
  set r := outEncrypt RO rc.outCtx rc.recordTypeOut rc.versionOut data
  have hflush : rc.sendpldFlush RO force = { rc with
      outCtx := r.1
      mem := rc.mem.write (rc.obuf + (rc.oxc - r.2.1)) r.2.2
      oxb := rc.oxc - r.2.1
      oxa := rc.oxc - r.2.1
      oxc := rc.oxc - r.2.1 + r.2.2.length } := by
    rw [sendpldFlush, hdata]
  -- the record starts before the payload, which `outEncrypt_fits` leaves room for
  rw [hflush]
  refine ⟨?_, .sending rfl (show rc.oxc - r.2.1 < rc.oxc - r.2.1 + r.2.2.length by omega)
    (show rc.oxc - r.2.1 + r.2.2.length ≤ rc.obufLen - 5 by omega), rfl, ?_, if_pos rfl,
    Memory.sameOutside_write (by omega) (by omega)⟩
  · rw [waiting, if_neg (Nat.ne_of_lt hlt), hread]
  · rw [unsent, if_pos rfl]
    show (rc.mem.write (rc.obuf + (rc.oxc - r.2.1)) r.2.2).read (rc.obuf + (rc.oxc - r.2.1))
      (rc.oxc - r.2.1 + r.2.2.length - (rc.oxc - r.2.1)) = r.2.2
    rw [Nat.add_sub_cancel_left, Memory.read_write_self]

/-! ### What goes out -/

/-- From one state of the engine to another: payload is put in, records are made, bytes are sent. -/
structure Emits (RO : RecordOut O) (frag : ℕ) (rc rc' : RecEngine I O) (pushed : Bytes)
    (output : List (OutEvent O)) (sent : Bytes) : Prop where
  outCtx : (sealAll RO rc.outCtx output).1 = rc'.outCtx
  bytes : rc.unsent ++ (sealAll RO rc.outCtx output).2.flatten = sent ++ rc'.unsent
  payload : rc.waiting ++ pushed = sealedPayload output ++ rc'.waiting
  fragments : ∀ event ∈ output, event.payload.length ≤ frag

theorem Emits.trans {rc'' : RecEngine I O} {pushed pushed' sent sent' : Bytes}
    {output output' : List (OutEvent O)} (h : Emits RO frag rc rc' pushed output sent)
    (h' : Emits RO frag rc' rc'' pushed' output' sent') :
    Emits RO frag rc rc'' (pushed ++ pushed') (output ++ output') (sent ++ sent') := by
  have hctx := h'.outCtx
  have hbytes := h'.bytes
  rw [← h.outCtx] at hctx hbytes
  refine ⟨?_, ?_, ?_, fun event hmem => ?_⟩
  · rw [sealAll_append]
    exact hctx
  · rw [sealAll_append, List.flatten_append, ← List.append_assoc, h.bytes, List.append_assoc,
      hbytes, List.append_assoc]
  · rw [sealedPayload_append, ← List.append_assoc, h.payload, List.append_assoc, h'.payload,
      List.append_assoc]
  · exact (List.mem_append.1 hmem).elim (h.fragments event) (h'.fragments event)

/-- Nothing goes out. -/
theorem SameOutput.emits (h : SameOutput rc rc') : Emits RO frag rc rc' [] [] [] :=
  ⟨h.outCtx.symm, by rw [h.unsent]; exact List.append_nil _,
    by rw [h.waiting]; exact List.append_nil _, fun _ hmem => by cases hmem⟩

/-- The frame of a record that is sealed. -/
theorem OutputFrame.flush (h : OutputFrame rc rc') {force : Bool}
    (hmem : Memory.SameOutside rc'.obuf rc'.obufLen rc'.mem (rc'.sendpldFlush RO force).mem)
    (hout : rc.ibuf = rc.obuf → rc'.iomode = .output) :
    OutputFrame rc (rc'.sendpldFlush RO force) := by
  rw [h.obuf, h.obufLen] at hmem
  have hmem' := h.mem.trans hmem
  revert hmem'
  unfold sendpldFlush
  cases rc'.flushed force with
  | none => exact fun _ => h
  | some data =>
    exact fun hmem' => ⟨h.ibuf, h.ibufLen, h.obuf, h.obufLen, h.ixa, h.ixb, h.ixc, h.inCtx,
      h.versionIn, h.recordTypeIn, h.maxFragLen, hmem', h.mode.1, fun heq => .inl (hout heq)⟩

/-- Payload that is put in waits behind the payload that waits already. -/
theorem waiting_gathered (hlt : rc.oxa < rc.oxb) (hle : rc.oxc ≤ rc.oxa) (bytes : Bytes) :
    ((rc.store (rc.obuf + rc.oxa) bytes).gathered bytes.length).waiting = rc.waiting ++ bytes := by
  have hne : rc.oxa + bytes.length ≠
      if rc.oxa + bytes.length ≥ rc.oxb then rc.oxa + bytes.length + 1 else rc.oxb := by
    split_ifs <;> omega
  have hwaiting : rc.waiting = rc.mem.read (rc.obuf + rc.oxc) (rc.oxa - rc.oxc) :=
    if_neg (Nat.ne_of_lt hlt)
  rw [hwaiting]
  refine (if_neg hne).trans ?_
  show (rc.mem.write (rc.obuf + rc.oxa) bytes).read (rc.obuf + rc.oxc)
    (rc.oxa + bytes.length - rc.oxc) = _
  rw [show rc.oxa + bytes.length - rc.oxc = rc.oxa - rc.oxc + bytes.length by omega,
    Memory.read_add, Memory.read_write_before (by omega),
    show rc.obuf + rc.oxc + (rc.oxa - rc.oxc) = rc.obuf + rc.oxa by omega, Memory.read_write_self]

/-- A record that is sealed takes all the payload that waits. -/
theorem emits_flush (hroom : 597 ≤ rc.obufLen) (hlt : rc.oxa < rc.oxb)
    (hstart : rc.oxc = (rc.plaintextRoom RO).1) (hle : rc.oxc ≤ rc.oxa)
    (hend : rc.oxa ≤ (rc.plaintextRoom RO).2) (hfrag : rc.oxa ≤ rc.oxc + frag) {force : Bool}
    {data : Bytes} (hdata : rc.flushed force = some data) :
    Emits RO frag rc (rc.sendpldFlush RO force) [] (EngineRun.sealed rc (rc.flushed force)) [] := by
  obtain ⟨rfl, -, hctx, hunsent, hwaiting, -⟩ := seals frag hroom hlt hstart hle hend hdata
  have hnone : rc.unsent = [] := if_neg (Nat.ne_of_lt hlt)
  rw [hdata]
  refine ⟨hctx.symm, ?_, ?_, fun event hmem => ?_⟩
  · rw [hnone, hunsent]
    exact List.append_nil _
  · rw [hwaiting, List.append_nil, List.append_nil]
    exact (List.append_nil _).symm
  · obtain rfl := List.mem_singleton.1 hmem
    show rc.waiting.length ≤ frag
    rw [waiting, if_neg (Nat.ne_of_lt hlt), Memory.length_read]
    omega

/-- Payload is put in, and a record that is full is sealed. -/
theorem puts (hroom : 597 ≤ rc.obufLen) (hm : Modes rc) (hs : rc.Sends)
    (hout : Outgoing RO frag rc) {bytes : Bytes} (hpos : 0 < bytes.length)
    (hle : bytes.length ≤ rc.oxb - rc.oxa) :
    let rs := rc.store (rc.obuf + rc.oxa) bytes
    Emits RO frag rc (rs.sendpldAck RO bytes.length) bytes
      (if rs.oxa + bytes.length ≥ rs.oxb then
        EngineRun.sealed rs ((rs.gathered bytes.length).flushed false) else []) [] ∧
      Outgoing RO frag (rs.sendpldAck RO bytes.length) ∧
      OutputFrame rc (rs.sendpldAck RO bytes.length) := by
  intro rs
  cases hout with
  | sending heq hlt => omega
  | gathering hlt hstart hlow hend hfrag =>
    have hwaiting := waiting_gathered hlt hlow bytes
    have hxa : (rs.gathered bytes.length).oxa = rc.oxa + bytes.length := rfl
    have hxc : (rs.gathered bytes.length).oxc = rc.oxc := rfl
    have hxb : (rs.gathered bytes.length).oxb =
        if rs.oxa + bytes.length ≥ rs.oxb then rs.oxa + bytes.length + 1 else rs.oxb := rfl
    have hxa₀ : rs.oxa = rc.oxa := rfl
    have hxb₀ : rs.oxb = rc.oxb := rfl
    have hne : (rs.gathered bytes.length).oxa < (rs.gathered bytes.length).oxb := by
      rw [hxa, hxb]
      split_ifs <;> omega
    have hunsent : rc.unsent = [] := if_neg (Nat.ne_of_lt hlt)
    have hunsent₁ : (rs.gathered bytes.length).unsent = [] := if_neg (Nat.ne_of_lt hne)
    -- one buffer is turned to the output
    have hmode : rc.ibuf = rc.obuf → (rs.gathered bytes.length).iomode = .output := fun heq => by
      show (if rc.iomode = .inout ∧ rc.ibuf = rc.obuf then IoMode.output else rc.iomode) = .output
      split_ifs with h
      · rfl
      · exact hs.resolve_right fun hinout => h ⟨hinout, heq⟩
    have hframe : OutputFrame rc (rs.gathered bytes.length) := by
      have hinside := (plaintextRoom_spec RO hroom).2.1
      refine ⟨rfl, rfl, rfl, rfl, rfl, rfl, rfl, rfl, rfl, rfl, rfl,
        Memory.sameOutside_write (by omega) (by omega), fun hne => ?_, fun heq => .inl (hmode heq)⟩
      show (if rc.iomode = .inout ∧ rc.ibuf = rc.obuf then IoMode.output else rc.iomode) = .inout
      rw [if_neg (fun h => hne h.2), hm.both hne]
    have hgather : Emits RO frag rc (rs.gathered bytes.length) bytes [] [] :=
      ⟨rfl, by rw [hunsent, hunsent₁]; rfl, by rw [hwaiting]; rfl, fun _ hmem => by cases hmem⟩
    -- a full record is sealed at once; `oxb` is moved away so that this does not look like sending
    by_cases hfull : rs.oxa + bytes.length ≥ rs.oxb
    · have hack : rs.sendpldAck RO bytes.length =
          (rs.gathered bytes.length).sendpldFlush RO false := if_pos hfull
      have hdata : (rs.gathered bytes.length).flushed false =
          some (rs.gathered bytes.length).waiting := by
        rw [flushed, if_neg (Nat.ne_of_lt hne), if_neg (fun h => by omega), waiting,
          if_neg (Nat.ne_of_lt hne)]
      have hroom₁ : 597 ≤ (rs.gathered bytes.length).obufLen := hroom
      have hend₁ : (rs.gathered bytes.length).oxa ≤
          ((rs.gathered bytes.length).plaintextRoom RO).2 := by
        show rc.oxa + bytes.length ≤ (rc.plaintextRoom RO).2
        omega
      have hflush : Emits RO frag _ _ _ _ _ :=
        emits_flush hroom₁ hne hstart (by omega) hend₁ (by omega) hdata
      obtain ⟨-, hout', -, -, -, hmem⟩ := seals frag hroom₁ hne hstart (by omega) hend₁ hdata
      rw [if_pos hfull, hack]
      refine ⟨?_, hout', hframe.flush hmem hmode⟩
      have htrans := hgather.trans hflush
      rwa [List.append_nil] at htrans
    · have hack : rs.sendpldAck RO bytes.length = rs.gathered bytes.length := if_neg hfull
      rw [if_neg hfull, hack]
      refine ⟨hgather, .gathering hne hstart (by omega) ?_ ?_, hframe⟩
      · rw [hxb, if_neg hfull]
        exact hend
      · rw [hxb, if_neg hfull]
        exact hfrag

/-- A flush makes a record, or nothing. -/
theorem flushes (hroom : 597 ≤ rc.obufLen) (hm : Modes rc) (hout : Outgoing RO frag rc)
    {force : Bool} (hforce : force = true → rc.ibuf ≠ rc.obuf) :
    Emits RO frag rc (rc.sendpldFlush RO force) [] (EngineRun.sealed rc (rc.flushed force)) [] ∧
      (rc.sendpldFlush RO force = rc ∨ rc.Sends ∧ Outgoing RO frag (rc.sendpldFlush RO force) ∧
        OutputFrame rc (rc.sendpldFlush RO force)) := by
  rcases hdata : rc.flushed force with _ | data
  · have hflush : rc.sendpldFlush RO force = rc := by rw [sendpldFlush, hdata]
    rw [hflush]
    exact ⟨SameOutput.emits ⟨rfl, rfl, rfl, rfl, rfl, rfl, rfl, fun _ _ _ => rfl⟩, .inl rfl⟩
  · have hlt : rc.oxa ≠ rc.oxb := fun h => by
      rw [flushed, if_pos h] at hdata
      cases hdata
    have hsome : ¬(rc.oxa - rc.oxc = 0 ∧ force = false) := fun h => by
      rw [flushed, if_neg hlt, if_pos h] at hdata
      cases hdata
    -- in one buffer there is payload only while it is turned to the output
    have hmode : rc.ibuf = rc.obuf → rc.iomode = .output := fun heq => by
      by_contra hmode
      have hidle := hm.output heq hmode
      refine hsome ⟨by omega, ?_⟩
      rw [← Bool.not_eq_true]
      exact fun h => hforce h heq
    have hs : rc.Sends := by
      by_cases heq : rc.ibuf = rc.obuf
      · exact .inl (hmode heq)
      · exact .inr (hm.both heq)
    have hframe : OutputFrame rc rc := ⟨rfl, rfl, rfl, rfl, rfl, rfl, rfl, rfl, rfl, rfl, rfl,
      .refl, hm.both, fun heq => .inl (hmode heq)⟩
    cases hout with
    | sending heq => exact absurd heq hlt
    | gathering hlt hstart hlow hend hfrag =>
      obtain ⟨-, hout', -, -, -, hmem⟩ :=
        seals frag hroom hlt hstart hlow (by omega) hdata
      rw [← hdata]
      exact ⟨emits_flush hroom hlt hstart hlow (by omega) (by omega) hdata,
        .inr ⟨hs, hout', hframe.flush hmem hmode⟩⟩

/-- Bytes of a record are sent. -/
theorem sends (hroom : 597 ≤ rc.obufLen) (hpos : 0 < rc.maxFragLen) (hmax : rc.maxFragLen ≤ frag)
    (hm : Modes rc) (hout : Outgoing RO frag rc) {n : ℕ} (hn : 0 < n)
    (hle : n ≤ rc.oxc - rc.oxa) :
    Emits RO frag rc (rc.sendrecAck RO n) [] [] (rc.mem.read (rc.obuf + rc.oxa) n) ∧
      Outgoing RO frag (rc.sendrecAck RO n) ∧ OutputFrame rc (rc.sendrecAck RO n) := by
  cases hout with
  | gathering hlt hstart hlow => omega
  | sending heq hlt hend =>
    have hmode : rc.ibuf = rc.obuf → rc.iomode = .output := fun hone => by
      by_contra hmode
      have hidle := hm.output hone hmode
      omega
    set rs : RecEngine I O := { rc with oxa := rc.oxa + n, oxb := rc.oxa + n }
    have hframe : OutputFrame rc rs := ⟨rfl, rfl, rfl, rfl, rfl, rfl, rfl, rfl, rfl, rfl, rfl,
      .refl, hm.both, fun hone => .inl (hmode hone)⟩
    have hwaiting : rc.waiting = [] := if_pos heq
    -- what was sent is the front of the record
    have hsplit : rc.unsent = rc.mem.read (rc.obuf + rc.oxa) n ++
        rc.mem.read (rc.obuf + (rc.oxa + n)) (rc.oxc - (rc.oxa + n)) := by
      rw [unsent, if_pos heq, ← Nat.add_assoc, ← Memory.read_add]
      congr 1
      omega
    by_cases hall : rc.oxa + n = rc.oxc
    · have hack : rc.sendrecAck RO n = rs.makeReadyOut RO := if_pos hall
      have hlt₁ : (rs.makeReadyOut RO).oxa < (rs.makeReadyOut RO).oxb := ready_lt RO hroom hpos
      have hunsent : (rs.makeReadyOut RO).unsent = [] := if_neg (Nat.ne_of_lt hlt₁)
      have hnone : (rs.makeReadyOut RO).waiting = [] := by
        rw [waiting, if_neg (Nat.ne_of_lt hlt₁)]
        exact congrArg _ (Nat.sub_self _)
      rw [hack]
      refine ⟨⟨rfl, ?_, ?_, fun _ hmem => by cases hmem⟩, outgoing_ready hroom hpos hmax,
        ⟨rfl, rfl, rfl, rfl, rfl, rfl, rfl, rfl, rfl, rfl, rfl, .refl, fun hne => ?_,
          fun hone => .inr ⟨?_, rfl, hlt₁⟩⟩⟩
      · rw [hsplit, hunsent, hall, Nat.sub_self]
        exact List.append_nil _
      · rw [hwaiting, hnone]
        rfl
      · show (if rc.iomode = .output then IoMode.inout else rc.iomode) = .inout
        rw [hm.both hne]
        rfl
      · show (if rc.iomode = .output then IoMode.inout else rc.iomode) = .inout
        rw [if_pos (hmode hone)]
    · have hack : rc.sendrecAck RO n = rs := if_neg hall
      rw [hack]
      refine ⟨⟨rfl, ?_, ?_, fun _ hmem => by cases hmem⟩,
        .sending rfl (show rc.oxa + n < rc.oxc by omega) hend, hframe⟩
      · have hunsent : rs.unsent = _ := if_pos rfl
        rw [hsplit, hunsent]
        exact List.append_nil _
      · have hnone : rs.waiting = [] := if_pos rfl
        rw [hwaiting, hnone]
        rfl

end MacTLS
