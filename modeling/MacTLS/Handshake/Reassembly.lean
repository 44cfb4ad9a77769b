import MacTLS.Handshake.Finished
import MacTLS.Handshake.ReadHs
import MacTLS.Lib.Machine
import MacTLS.Record.Stream

/-!
# Reassembling handshake messages

Successive calls of `tls13_read_encrypted_hs` while bytes arrive in any portions.  What the calls
hand up, and what is left over in `plain_buf`, is the concatenation of the plaintexts decrypted so
far; what they leave in `recv_buf` is what was not consumed of the bytes received.

* `Reading` : the invariant, kept by `extractHs` (`Reading.extract`), by each record
  (`Reading.record`) and by a whole call (`Reading.call`);
* `reassembly` : the invariant of every run of calls, with what a call that wants more leaves.
-/

namespace MacTLS

open Lib

variable {C : Crypto}

/-! ### Whole messages and whole records -/

/-- The decrypted bytes that were not handed up yet. -/
def HsCtx.leftover (hs : HsCtx) : Bytes :=
  slice hs.plainBuf hs.plainOffset (hs.plainLen - hs.plainOffset)

/-- A handshake message: as long as its header says. -/
def Framed (msg : Bytes) : Prop := 4 ≤ msg.length ∧ msg.length = declaredLen msg

instance (msg : Bytes) : Decidable (Framed msg) := by
  unfold Framed
  infer_instance

/-- The bytes start with a whole handshake message. -/
def HasMessage (b : Bytes) : Prop := 4 ≤ b.length ∧ declaredLen b ≤ b.length

instance (b : Bytes) : Decidable (HasMessage b) := by
  unfold HasMessage
  infer_instance

/-- The bytes start with a whole record. -/
def HasRecord (b : Bytes) : Prop := 5 ≤ b.length ∧ 5 + getU16 b 3 ≤ b.length

instance (b : Bytes) : Decidable (HasRecord b) := by
  unfold HasRecord
  infer_instance

/-- A record of application data or a change of cipher spec, as long as its header says. -/
def IsRecord (record : Bytes) : Prop :=
  5 ≤ record.length ∧ record.length = 5 + getU16 record 3 ∧
    (byteAt record 0 = tls13CtChangeCipherSpec ∨ byteAt record 0 = tls13CtApplicationData)

/-- The payloads of the encrypted records. -/
def payloads (records : List Bytes) : List Bytes :=
  (records.filter fun r => byteAt r 0 = tls13CtApplicationData).map (List.drop 5)

theorem payloads_append (a b : List Bytes) : payloads (a ++ b) = payloads a ++ payloads b := by
  simp [payloads]

/-- The length a message declares depends on its header only. -/
theorem declaredLen_header {b : Bytes} (h : 4 ≤ b.length) (t : Bytes) :
    declaredLen (b ++ t) = declaredLen b := by
  rw [declaredLen, declaredLen, getU24_append (by omega)]

/-! ### The bounds of the buffers -/

/-- The cursors and the filled part of `plain_buf` are inside the buffer. -/
structure HsCtx.Bounded (hs : HsCtx) : Prop where
  offset : hs.plainOffset ≤ hs.plainLen
  len : hs.plainLen ≤ hs.plainBuf.length
  size : hs.plainBuf.length ≤ hsBufSize
  rewound : hs.plainOffset = hs.plainLen → hs.plainLen = 0

theorem HsCtx.Bounded.length_leftover {hs : HsCtx} (h : hs.Bounded) :
    hs.leftover.length = hs.plainLen - hs.plainOffset := by
  have h1 := h.offset
  have h2 := h.len
  exact length_slice (by omega)

/-- What the extraction does: it hands up the first whole message there is. -/
inductive Extracts (hs : HsCtx) : Extracted → HsCtx → Prop
  | message {msg : Bytes} {hs' : HsCtx} (hmsg : Framed msg) (hfits : msg.length ≤ hsBufSize)
      (hleft : hs.leftover = msg ++ hs'.leftover) (hctx : hs'.readCtx = hs.readCtx)
      (hb : hs'.Bounded) (hbuf : hs'.msgBuf = blit hs.msgBuf 0 msg) :
      Extracts hs (.message msg) hs'
  | tooLarge (hlen : 4 ≤ hs.leftover.length) (hlarge : hsBufSize < declaredLen hs.leftover) :
      Extracts hs .tooLarge hs
  | incomplete {hs' : HsCtx} (hnone : ¬HasMessage hs.leftover)
      (hleft : hs'.leftover = hs.leftover) (hctx : hs'.readCtx = hs.readCtx) (hb : hs'.Bounded)
      (hoff : hs'.plainOffset = 0) (hbuf : hs'.msgBuf = hs.msgBuf) :
      Extracts hs .incomplete hs'

theorem declaredLen_leftover {hs : HsCtx} (h : 4 ≤ hs.plainLen - hs.plainOffset) :
    declaredLen hs.leftover = 4 + getU24 hs.plainBuf (hs.plainOffset + 1) := by
  unfold HsCtx.leftover slice
  rw [declaredLen, getU24_take (by omega)]
  simp only [getU24, byteAt_drop, Nat.add_assoc]

theorem extracts_extractHs {hs : HsCtx} (hb : hs.Bounded) :
    Extracts hs (extractHs hs).1 (extractHs hs).2 := by
  have hlen := hb.length_leftover
  have hdecl := @declaredLen_leftover hs
  obtain ⟨h1, h2, h3, h4⟩ := id hb
  unfold extractHs
  dsimp only
  split_ifs with hmore hlarge hwhole hlast
  · rw [← hdecl hlarge.1] at hlarge
    exact .tooLarge (by omega) hlarge.2
  all_goals try rw [← hdecl hwhole.1] at hwhole ⊢
  · -- the message ends where the buffer does
    rw [← hdecl hwhole.1] at hlast
    have hall : declaredLen hs.leftover = hs.plainLen - hs.plainOffset := by omega
    have hself : slice hs.plainBuf hs.plainOffset (declaredLen hs.leftover) = hs.leftover := by
      rw [hall]
      rfl
    refine .message ?_ ?_ ?_ rfl ⟨Nat.zero_le _, Nat.zero_le _, h3, fun _ => rfl⟩ rfl
    · rw [hself]
      exact ⟨by omega, by omega⟩
    · rw [hself, hlen]
      omega
    · rw [hself]
      exact (List.append_nil _).symm
  · rw [← hdecl hwhole.1] at hlast
    have hmsg : (slice hs.plainBuf hs.plainOffset (declaredLen hs.leftover)).length =
        declaredLen hs.leftover := length_slice (by omega)
    have hsplit : hs.leftover = slice hs.plainBuf hs.plainOffset (declaredLen hs.leftover) ++
        slice hs.plainBuf (hs.plainOffset + declaredLen hs.leftover)
          (hs.plainLen - (hs.plainOffset + declaredLen hs.leftover)) := by
      rw [← Nat.sub_sub]
      exact slice_split _ _ hwhole.2
    have hfits : declaredLen hs.leftover ≤ hsBufSize := by
      rw [hdecl hwhole.1]
      exact Nat.le_of_not_lt fun h => hlarge ⟨hwhole.1, h⟩
    refine .message ?_ (Nat.le_trans (Nat.le_of_eq hmsg) hfits) hsplit rfl ⟨?_, h2, h3, fun h => ?_⟩ rfl
    · refine ⟨by rw [hmsg, hdecl hwhole.1]; omega, ?_⟩
      have hsame := declaredLen_header (by rw [hmsg, hdecl hwhole.1]; omega)
        (slice hs.plainBuf (hs.plainOffset + declaredLen hs.leftover)
          (hs.plainLen - (hs.plainOffset + declaredLen hs.leftover)))
      rw [← hsplit] at hsame
      rw [← hsame]
      exact hmsg
    · dsimp only
      omega
    · dsimp only at h
      omega
  · have hnone : ¬HasMessage hs.leftover := fun h => by
      obtain ⟨hfour, hle⟩ := h
      rw [hlen] at hfour hle
      exact hwhole ⟨hfour, (hdecl hfour) ▸ hle⟩
    have hcopy : (slice hs.plainBuf hs.plainOffset (hs.plainLen - hs.plainOffset)).length =
        hs.plainLen - hs.plainOffset := hlen
    refine .incomplete hnone ?_ rfl ⟨Nat.zero_le _, ?_, ?_, fun h => h.symm⟩ rfl rfl
    · have h := take_blit_zero hs.plainBuf hs.leftover
      rw [hlen] at h
      exact h
    · dsimp only
      rw [length_blit (by omega)]
      omega
    · dsimp only
      rw [length_blit (by omega)]
      exact h3
  · have hnil : hs.leftover = [] := List.eq_nil_of_length_eq_zero (by omega)
    have hzero := h4 (by omega)
    refine .incomplete ?_ rfl rfl hb (show hs.plainOffset = 0 by omega) rfl
    rw [hnil]
    exact fun h => absurd h.1 (by decide)

/-! ### One record -/

theorem length_tls13RecordDecrypt_buf_le (C : Crypto) (ctx : RecordCtx) (c : Bytes) :
    (tls13RecordDecrypt C ctx c).buf.length ≤ c.length := by
  by_cases h : 17 ≤ c.length
  · exact Nat.le_of_eq (length_tls13RecordDecrypt_buf C ctx h)
  · unfold tls13RecordDecrypt
    rw [if_pos (by simp only [tls13TagSize]; omega)]
    exact Nat.zero_le _

/-- A copy behind the filled part reaches no further than its own end. -/
theorem length_blit_max {b src : Bytes} {off : ℕ} (h : off ≤ b.length) :
    (blit b off src).length = max b.length (off + src.length) := by
  simp only [blit, List.length_append, List.length_take, List.length_drop]
  omega

/-- `hs'` is `hs` when `plaintext` was decrypted behind the leftover. -/
structure Appends (hs hs' : HsCtx) (ctx : RecordCtx) (plaintext : Bytes) : Prop where
  leftover : hs'.leftover = hs.leftover ++ plaintext
  readCtx : hs'.readCtx = ctx
  bounded : hs'.Bounded

/-- An encrypted record at the front of the received bytes, and what it decrypts to. -/
structure Decrypts (C : Crypto) (hs : HsCtx) (recv record recv' plaintext : Bytes) (ct : UInt8)
    (ctx : RecordCtx) : Prop where
  whole : IsRecord record
  type : byteAt record 0 = tls13CtApplicationData
  split : recv = record ++ recv'
  fits : hs.plainLen + (record.drop 5).length ≤ hsBufSize
  ret : (tls13RecordDecrypt C hs.readCtx (record.drop 5)).ret = some (plaintext.length, ct)
  buf : (tls13RecordDecrypt C hs.readCtx (record.drop 5)).buf.take plaintext.length = plaintext
  next : ctx = (tls13RecordDecrypt C hs.readCtx (record.drop 5)).ctx

/-- Why a record is refused: its length or its type, too little room behind the leftover, or its
tag. -/
def Refusal (C : Crypto) (hs : HsCtx) (recv : Bytes) : Prop :=
  hsBufSize < getU16 recv 3 ∨
    byteAt recv 0 ≠ tls13CtChangeCipherSpec ∧ (byteAt recv 0 ≠ tls13CtApplicationData ∨
      hsBufSize < hs.plainLen + getU16 recv 3 ∨
      (tls13RecordDecrypt C hs.readCtx (slice recv 5 (getU16 recv 3))).ret = none)

/-- What becomes of the record at the front of the received bytes. -/
inductive TakesRecord (C : Crypto) (hs : HsCtx) (recv : Bytes) : ReadOut ⊕ HsCtx × Bytes → Prop
  | wantRead (h : ¬HasRecord recv) : TakesRecord C hs recv (.inl ⟨.wantRead, hs, recv⟩)
  | refused {hs' : HsCtx} (hrec : HasRecord recv) (hwhy : Refusal C hs recv)
      (h : Appends hs hs' hs.readCtx []) : TakesRecord C hs recv (.inl ⟨.error, hs', recv⟩)
  | ccs {record recv' : Bytes} (hrec : IsRecord record) (hsplit : recv = record ++ recv')
      (htype : byteAt record 0 = tls13CtChangeCipherSpec) :
      TakesRecord C hs recv (.inr (hs, recv'))
  | unexpected {hs' : HsCtx} {record recv' plaintext : Bytes} {ct : UInt8} {ctx : RecordCtx}
      (hdec : Decrypts C hs recv record recv' plaintext ct ctx) (hct : ct ≠ tls13CtHandshake)
      (h : Appends hs hs' ctx plaintext) : TakesRecord C hs recv (.inl ⟨.error, hs', recv'⟩)
  | handshake {hs' : HsCtx} {record recv' plaintext : Bytes} {ctx : RecordCtx}
      (hdec : Decrypts C hs recv record recv' plaintext tls13CtHandshake ctx)
      (hoff : hs'.plainOffset = 0) (h : Appends hs hs' ctx plaintext) :
      TakesRecord C hs recv (.inr (hs', recv'))

/-- The front record as a part of the received bytes. -/
theorem take_record {recv : Bytes} (h : HasRecord recv) :
    (recv.take (5 + getU16 recv 3)).length = 5 + getU16 recv 3 ∧
      getU16 (recv.take (5 + getU16 recv 3)) 3 = getU16 recv 3 ∧
      byteAt (recv.take (5 + getU16 recv 3)) 0 = byteAt recv 0 ∧
      (recv.take (5 + getU16 recv 3)).drop 5 = slice recv 5 (getU16 recv 3) := by
  obtain ⟨h5, hle⟩ := h
  have hlen : (recv.take (5 + getU16 recv 3)).length = 5 + getU16 recv 3 := by
    rw [List.length_take]
    omega
  have hsplit := List.take_append_drop (5 + getU16 recv 3) recv
  refine ⟨hlen, ?_, ?_, ?_⟩
  · conv_rhs => rw [← hsplit, getU16_append (by omega)]
  · conv_rhs => rw [← hsplit, byteAt_append (by omega)]
  · rw [slice, List.drop_take, Nat.add_sub_cancel_left]

theorem takesRecord_readHsRecord {hs : HsCtx} {recv : Bytes} (hb : hs.Bounded)
    (hoff : hs.plainOffset = 0) : TakesRecord C hs recv (readHsRecord C hs recv) := by
  have hleft : hs.leftover = hs.plainBuf.take hs.plainLen := by
    unfold HsCtx.leftover slice
    rw [hoff, List.drop_zero, Nat.sub_zero]
  obtain ⟨h1, h2, h3, h4⟩ := id hb
  unfold readHsRecord
  dsimp only
  by_cases h5 : recv.length < 5
  · rw [if_pos h5]
    exact .wantRead fun h => absurd h.1 (by omega)
  rw [if_neg h5]
  by_cases htotal : recv.length < 5 + getU16 recv 3
  · rw [if_pos htotal]
    exact .wantRead fun h => absurd h.2 (by omega)
  rw [if_neg htotal]
  have hrec : HasRecord recv := ⟨by omega, by omega⟩
  obtain ⟨hlen, hfield, htype, hpay⟩ := take_record hrec
  have hsplit : recv = recv.take (5 + getU16 recv 3) ++ recv.drop (5 + getU16 recv 3) :=
    (List.take_append_drop _ _).symm
  -- the refusals that leave the buffer alone
  have hrefused : ∀ {hs' : HsCtx}, Refusal C hs recv → hs'.plainBuf = hs.plainBuf →
      hs'.plainLen = hs.plainLen → hs'.plainOffset = hs.plainOffset → hs'.readCtx = hs.readCtx →
      TakesRecord C hs recv (.inl ⟨.error, hs', recv⟩) := by
    intro hs' hwhy hbuf hl ho hctx
    refine .refused hrec hwhy ⟨?_, hctx, ?_⟩
    · unfold HsCtx.leftover
      rw [hbuf, hl, ho, List.append_nil]
    · exact ⟨by rw [ho, hl]; exact h1, by rw [hl, hbuf]; exact h2, by rw [hbuf]; exact h3,
        by rw [ho, hl]; exact h4⟩
  -- the checks of the header, in the order of the source
  by_cases hlarge : getU16 recv 3 > hsBufSize
  · rw [if_pos hlarge]
    exact hrefused (Or.inl hlarge) rfl rfl rfl rfl
  rw [if_neg hlarge]
  by_cases hccs : byteAt recv 0 = tls13CtChangeCipherSpec
  · rw [if_pos hccs]
    exact .ccs ⟨by omega, by omega, Or.inl (htype.trans hccs)⟩ hsplit (htype.trans hccs)
  rw [if_neg hccs]
  by_cases happ : byteAt recv 0 ≠ tls13CtApplicationData
  · rw [if_pos happ]
    exact hrefused (Or.inr ⟨hccs, Or.inl happ⟩) rfl rfl rfl rfl
  rw [if_neg happ]
  rw [not_not] at happ
  by_cases hfull : hs.plainLen + getU16 recv 3 > hsBufSize
  · rw [if_pos hfull]
    exact hrefused (Or.inr ⟨hccs, Or.inr (Or.inl hfull)⟩) rfl rfl rfl rfl
  rw [if_neg hfull]
  have hbuf := length_tls13RecordDecrypt_buf_le C hs.readCtx (slice recv 5 (getU16 recv 3))
  have hpayload : (slice recv 5 (getU16 recv 3)).length = getU16 recv 3 :=
    length_slice (by omega)
  -- a record that does not open was written behind `plain_len`, which stays
  cases hret : (tls13RecordDecrypt C hs.readCtx (slice recv 5 (getU16 recv 3))).ret with
  | none =>
    refine .refused hrec (Or.inr ⟨hccs, Or.inr (Or.inr hret)⟩)
      ⟨?_, tls13RecordDecrypt_ctx_of_none hret, ⟨h1, ?_, ?_, h4⟩⟩
    · rw [List.append_nil]
      unfold HsCtx.leftover
      dsimp only
      rw [hoff, slice_blit_before h2 (by omega)]
    · dsimp only
      rw [length_blit_max h2]
      omega
    · dsimp only
      rw [length_blit_max h2]
      omega
  | some r =>
    obtain ⟨n, ct⟩ := r
    dsimp only
    have hle := tls13RecordDecrypt_len_le hret
    have hbuflen := length_tls13RecordDecrypt_buf C hs.readCtx
      (by omega : 17 ≤ (slice recv 5 (getU16 recv 3)).length)
    rw [← hpay] at hret hle hbuflen hbuf
    obtain ⟨d, hd⟩ : ∃ d, d = tls13RecordDecrypt C hs.readCtx (slice recv 5 (getU16 recv 3)) :=
      ⟨_, rfl⟩
    rw [← hpay] at hd hpayload
    rw [← hpay, ← hd]
    rw [← hd] at hret hbuflen
    have htake : (d.buf.take n).length = n := by
      rw [List.length_take]
      omega
    have hdec : Decrypts C hs recv (recv.take (5 + getU16 recv 3))
        (recv.drop (5 + getU16 recv 3)) (d.buf.take n) ct d.ctx := by
      refine ⟨⟨by omega, by omega, Or.inr (htype.trans happ)⟩, htype.trans happ, hsplit, by omega,
        ?_, ?_, by rw [hd]⟩
      · rw [← hd, hret, htake]
      · rw [← hd, htake]
    -- its content stands right behind the leftover
    have happends : ∀ {hs' : HsCtx}, hs'.plainBuf = blit hs.plainBuf hs.plainLen d.buf →
        hs'.plainLen = hs.plainLen + n → hs'.plainOffset = hs.plainOffset →
        hs'.readCtx = d.ctx → Appends hs hs' d.ctx (d.buf.take n) := by
      intro hs' hbuf' hl ho hctx
      refine ⟨?_, hctx, ⟨by omega, ?_, ?_, fun h => by omega⟩⟩
      · rw [hleft]
        unfold HsCtx.leftover
        have hnew : slice (blit hs.plainBuf hs.plainLen d.buf) hs.plainLen n = d.buf.take n := by
          have h := slice_blit_self (x := d.buf) h2
          rw [slice_split _ _ (by omega : n ≤ d.buf.length)] at h
          have hn : (slice (blit hs.plainBuf hs.plainLen d.buf) hs.plainLen n).length = n :=
            length_slice (by rw [length_blit_max h2]; omega)
          have hcut := congrArg (List.take n) h
          rwa [List.take_left' hn] at hcut
        rw [hbuf', hl, ho, hoff, Nat.sub_zero, slice_split _ _ (Nat.le_add_right _ n),
          slice_blit_before h2 (by omega), Nat.zero_add, Nat.add_sub_cancel_left, hnew]
        rfl
      · rw [hl, hbuf', length_blit_max h2]
        omega
      · rw [hbuf', length_blit_max h2]
        omega
    by_cases hct : ct ≠ tls13CtHandshake
    · rw [if_pos hct]
      exact .unexpected hdec hct (happends rfl rfl rfl rfl)
    · rw [if_neg hct]
      rw [not_not] at hct
      rw [hct] at hdec
      exact .handshake hdec hoff (happends rfl rfl rfl rfl)

/-! ### The invariant -/

/-- `received` was taken apart into whole records and `recv`; what the encrypted ones decrypted to,
`decrypted`, was handed up as `messages` but for the leftover. -/
structure Reading (C : Crypto) (ctx : RecordCtx) (received : Bytes) (messages : List Bytes)
    (hs : HsCtx) (recv : Bytes) (decrypted : List (UInt8 × Bytes)) : Prop where
  consumed : ∃ records, (∀ r ∈ records, IsRecord r) ∧ received = records.flatten ++ recv ∧
    ∀ more, decryptStream C ctx (payloads records ++ more) =
      (decryptStream C hs.readCtx more).map (decrypted ++ ·)
  framing : (decrypted.map Prod.snd).flatten = messages.flatten ++ hs.leftover
  messages : ∀ m ∈ messages, Framed m ∧ m.length ≤ hsBufSize
  bounded : hs.Bounded

/-- A change that leaves the record layer and the plaintext alone. -/
theorem Reading.of_same {ctx : RecordCtx} {received : Bytes} {messages : List Bytes}
    {hs hs' : HsCtx} {recv : Bytes} {decrypted : List (UInt8 × Bytes)}
    (h : Reading C ctx received messages hs recv decrypted) (hctx : hs'.readCtx = hs.readCtx)
    (hbuf : hs'.plainBuf = hs.plainBuf) (hlen : hs'.plainLen = hs.plainLen)
    (hoff : hs'.plainOffset = hs.plainOffset) :
    Reading C ctx received messages hs' recv decrypted := by
  obtain ⟨hconsumed, hframing, hmessages, hb⟩ := h
  have hleft : hs'.leftover = hs.leftover := by
    unfold HsCtx.leftover
    rw [hbuf, hlen, hoff]
  exact ⟨by rw [hctx]; exact hconsumed, by rw [hleft]; exact hframing, hmessages,
    ⟨by rw [hoff, hlen]; exact hb.offset, by rw [hlen, hbuf]; exact hb.len,
      by rw [hbuf]; exact hb.size, by rw [hoff, hlen]; exact hb.rewound⟩⟩

/-- More bytes arrive. -/
theorem Reading.arrive {ctx : RecordCtx} {received : Bytes} {messages : List Bytes} {hs : HsCtx}
    {recv : Bytes} {decrypted : List (UInt8 × Bytes)}
    (h : Reading C ctx received messages hs recv decrypted) (bytes : Bytes) :
    Reading C ctx (received ++ bytes) messages hs (recv ++ bytes) decrypted := by
  obtain ⟨⟨records, hrecs, hrecv, hdec⟩, hframing, hmessages, hb⟩ := h
  refine ⟨⟨records, hrecs, ?_, hdec⟩, hframing, hmessages, hb⟩
  rw [hrecv, List.append_assoc]

/-- The messages that a call hands up. -/
def ReadResult.messages : ReadResult → List Bytes
  | .message msg => [msg]
  | _ => []

section

variable {ctx : RecordCtx} {received : Bytes} {messages : List Bytes} {hs hs' : HsCtx}
  {recv : Bytes} {decrypted : List (UInt8 × Bytes)}

theorem Reading.extract (h : Reading C ctx received messages hs recv decrypted) {e : Extracted}
    (he : Extracts hs e hs') :
    Reading C ctx received
      (messages ++ match e with | .message msg => [msg] | _ => []) hs' recv decrypted := by
  obtain ⟨⟨records, hrec, hrecv, hdec⟩, hframing, hmessages, hbounded⟩ := h
  cases he with
  | @message msg _ hmsg hfits hleft hctx hb hbuf =>
    refine ⟨⟨records, hrec, hrecv, by rw [hctx]; exact hdec⟩, ?_, fun m hm => ?_, hb⟩
    · rw [hframing, hleft, List.flatten_append]
      simp
    · rcases List.mem_append.mp hm with hm | hm
      · exact hmessages m hm
      · rw [List.mem_singleton.mp hm]
        exact ⟨hmsg, hfits⟩
  | tooLarge hlen hlarge =>
    rw [List.append_nil]
    exact ⟨⟨records, hrec, hrecv, hdec⟩, hframing, hmessages, hbounded⟩
  | incomplete hnone hleft hctx hb hoff hbuf =>
    rw [List.append_nil]
    exact ⟨⟨records, hrec, hrecv, by rw [hctx]; exact hdec⟩, by rw [hleft]; exact hframing,
      hmessages, hb⟩

/-- A record that decrypts goes from the received bytes to the leftover. -/
theorem Reading.decrypts (h : Reading C ctx received messages hs recv decrypted)
    {record recv' plaintext : Bytes} {ct : UInt8} {ctx' : RecordCtx}
    (hd : Decrypts C hs recv record recv' plaintext ct ctx') (ha : Appends hs hs' ctx' plaintext) :
    Reading C ctx received messages hs' recv' (decrypted ++ [(ct, plaintext)]) := by
  obtain ⟨⟨records, hrec, hrecv, hdec⟩, hframing, hmessages, hbounded⟩ := h
  refine ⟨⟨records ++ [record], fun r hr => ?_, ?_, fun more => ?_⟩, ?_, hmessages, ha.bounded⟩
  · rcases List.mem_append.mp hr with hr | hr
    · exact hrec r hr
    · rw [List.mem_singleton.mp hr]
      exact hd.whole
  · rw [hrecv, hd.split]
    simp
  · have hpay : payloads [record] = [record.drop 5] := by simp [payloads, hd.type]
    rw [payloads_append, hpay, List.append_assoc, hdec, List.singleton_append, decryptStream, hd.ret]
    dsimp only
    rw [hd.buf, ← hd.next, ha.readCtx, Option.map_map]
    congr 1
    funext rest
    simp
  · rw [List.map_append, List.flatten_append, hframing, ha.leftover]
    simp

/-- One record off the received bytes. -/
theorem Reading.record (h : Reading C ctx received messages hs recv decrypted)
    {r : ReadOut ⊕ HsCtx × Bytes} (ht : TakesRecord C hs recv r)
    (hall : ∀ p ∈ decrypted, p.1 = tls13CtHandshake) :
    ∃ decrypted', match r with
      | .inl o => Reading C ctx received messages o.hs o.recv decrypted' ∧
          ((∀ p ∈ decrypted', p.1 = tls13CtHandshake) ∨ o.res = .error) ∧
          (∀ msg, o.res ≠ .message msg) ∧
          (o.res = .wantRead → o.hs = hs ∧ ¬HasRecord o.recv)
      | .inr (hs', recv') => Reading C ctx received messages hs' recv' decrypted' ∧
          (∀ p ∈ decrypted', p.1 = tls13CtHandshake) ∧ recv'.length < recv.length := by
  have hshort : ∀ {record recv' : Bytes}, IsRecord record → recv = record ++ recv' →
      recv'.length < recv.length := by
    intro record recv' hrec hsplit
    have := hrec.1
    rw [hsplit, List.length_append]
    omega
  cases ht with
  | wantRead hno =>
    exact ⟨decrypted, h, Or.inl hall, fun _ h => (by cases h), fun _ => ⟨rfl, hno⟩⟩
  | refused hrec hwhy ha =>
    refine ⟨decrypted, ?_, Or.inl hall, fun _ h => (by cases h), fun h => by cases h⟩
    obtain ⟨⟨records, hrecs, hrecv, hdec⟩, hframing, hmessages, hbounded⟩ := h
    exact ⟨⟨records, hrecs, hrecv, by rw [ha.readCtx]; exact hdec⟩,
      by rw [ha.leftover, List.append_nil]; exact hframing, hmessages, ha.bounded⟩
  | @ccs record recv' hrec hsplit htype =>
    refine ⟨decrypted, ?_, hall, hshort hrec hsplit⟩
    obtain ⟨⟨records, hrecs, hrecv, hdec⟩, hframing, hmessages, hbounded⟩ := h
    refine ⟨⟨records ++ [record], fun r hr => ?_, ?_, fun more => ?_⟩, hframing, hmessages,
      hbounded⟩
    · rcases List.mem_append.mp hr with hr | hr
      · exact hrecs r hr
      · rw [List.mem_singleton.mp hr]
        exact hrec
    · rw [hrecv, hsplit]
      simp
    · have hpay : payloads [record] = [] := by
        simp [payloads, htype, tls13CtChangeCipherSpec, tls13CtApplicationData]
      rw [payloads_append, hpay, List.append_nil]
      exact hdec more
  | unexpected hd hct ha =>
    exact ⟨_, h.decrypts hd ha, Or.inr rfl, fun _ h => (by cases h), fun h => by cases h⟩
  | handshake hd hoff ha =>
    refine ⟨_, h.decrypts hd ha, fun p hp => ?_, hshort hd.whole hd.split⟩
    rcases List.mem_append.mp hp with hp | hp
    · exact hall p hp
    · rw [List.mem_singleton.mp hp]

/-- A whole call. -/
theorem Reading.loop {fuel : ℕ} (hfuel : recv.length < fuel)
    (h : Reading C ctx received messages hs recv decrypted)
    (hall : ∀ p ∈ decrypted, p.1 = tls13CtHandshake) :
    let o := readHsLoop C fuel hs recv
    ∃ decrypted', Reading C ctx received (messages ++ o.res.messages) o.hs o.recv decrypted' ∧
      ((∀ p ∈ decrypted', p.1 = tls13CtHandshake) ∨ o.res = .error) ∧
      (o.res = .wantRead → ¬HasMessage o.hs.leftover ∧ ¬HasRecord o.recv) := by
  induction fuel generalizing hs recv decrypted with
  | zero => omega
  | succ fuel ih =>
    have he := extracts_extractHs h.bounded
    unfold readHsLoop
    generalize extractHs hs = e at he ⊢
    obtain ⟨e, hs₁⟩ := e
    have h₁ := h.extract he
    cases e with
    | message msg => exact ⟨decrypted, h₁, Or.inl hall, fun h => by cases h⟩
    | tooLarge =>
      rw [List.append_nil] at h₁
      have h₂ : Reading C ctx received messages { hs₁ with error := brErrBadParam } recv
          decrypted := h₁.of_same rfl rfl rfl rfl
      refine ⟨decrypted, ?_, Or.inl hall, fun h => by cases h⟩
      rw [← List.append_nil messages] at h₂
      exact h₂
    | incomplete =>
      rw [List.append_nil] at h₁
      cases he with
      | incomplete hnone hleft hctx hb hoff hbuf =>
        have ht := @takesRecord_readHsRecord C _ recv hb hoff
        obtain ⟨decrypted', hr⟩ := h₁.record ht hall
        dsimp only
        generalize readHsRecord C hs₁ recv = r at hr ⊢
        cases r with
        | inl o =>
          obtain ⟨h₂, hty, hmsg, hwant⟩ := hr
          have hnil : o.res.messages = [] := by
            cases hres : o.res with
            | message msg => exact absurd hres (hmsg msg)
            | wantRead => rfl
            | error => rfl
          refine ⟨decrypted', ?_, hty, fun hw => ?_⟩
          · dsimp only
            rw [hnil, List.append_nil]
            exact h₂
          · obtain ⟨hsame, hno⟩ := hwant hw
            exact ⟨by rw [hsame, hleft]; exact hnone, hno⟩
        | inr p =>
          obtain ⟨h₂, hty, hlt⟩ := hr
          exact ih (by omega) h₂ hty

end

/-! ### Runs of calls -/

/-- A caller of `tls13_read_encrypted_hs`: its context and receive buffer, everything it received,
what was handed up to it, and whether a call has failed. -/
structure HsReader where
  hs : HsCtx
  recv : Bytes
  received : Bytes
  messages : List Bytes
  failed : Bool

/-- What can happen to a reader. -/
inductive HsReaderInput where
  /-- Bytes arrive. -/
  | arrive (bytes : Bytes)
  | call
  /-- A handler has processed a message; the context is this now. -/
  | process (hs : HsCtx)

def HsReader.step (C : Crypto) (r : HsReader) : HsReaderInput → HsReader
  | .arrive bytes => { r with recv := r.recv ++ bytes, received := r.received ++ bytes }
  | .call =>
    let o := tls13ReadEncryptedHs C r.hs r.recv
    { r with
      hs := o.hs
      recv := o.recv
      messages := r.messages ++ o.res.messages
      failed := match o.res with | .error => true | _ => false }
  | .process hs => { r with hs }

theorem HsReader.failed_of_error {C : Crypto} {r : HsReader}
    (h : (tls13ReadEncryptedHs C r.hs r.recv).res = .error) : (r.step C .call).failed = true := by
  simp only [HsReader.step, h]

theorem HsReader.failed_of_message {C : Crypto} {r : HsReader} {m : Bytes}
    (h : (tls13ReadEncryptedHs C r.hs r.recv).res = .message m) :
    (r.step C .call).failed = false := by
  simp only [HsReader.step, h]

/-- Reading stops at the first failure, and the handlers leave the record layer and the plaintext
to the reader. -/
def HsReader.Ok (r : HsReader) : HsReaderInput → Prop
  | .arrive _ => True
  | .call => r.failed = false
  | .process hs => hs.readCtx = r.hs.readCtx ∧ hs.plainBuf = r.hs.plainBuf ∧
      hs.plainLen = r.hs.plainLen ∧ hs.plainOffset = r.hs.plainOffset

instance (r : HsReader) (i : HsReaderInput) : Decidable (r.Ok i) := by
  cases i <;> unfold HsReader.Ok <;> infer_instance

/-- A reader that has received nothing. -/
def HsReader.start (hs : HsCtx) : HsReader := ⟨hs, [], [], [], false⟩

/-- The plaintext buffer holds nothing. -/
structure HsCtx.NothingRead (hs : HsCtx) : Prop where
  len : hs.plainLen = 0
  offset : hs.plainOffset = 0
  size : hs.plainBuf.length ≤ hsBufSize

theorem HsCtx.NothingRead.reading (C : Crypto) {hs : HsCtx} (h : hs.NothingRead) :
    Reading C hs.readCtx [] [] hs [] [] := by
  refine ⟨⟨[], fun _ h => absurd h List.not_mem_nil, rfl, fun more => ?_⟩, ?_,
    fun _ h => absurd h List.not_mem_nil, ?_⟩
  · simp [payloads]
  · simp [HsCtx.leftover, h.len, slice]
  · exact ⟨by rw [h.offset]; exact Nat.zero_le _, by rw [h.len]; exact Nat.zero_le _, h.size,
      fun _ => h.len⟩

theorem reading_of_reach {hs : HsCtx} (h₀ : hs.NothingRead) {r : HsReader}
    (h : Reach (HsReader.step C) HsReader.Ok (.start hs) r) :
    ∃ decrypted, Reading C hs.readCtx r.received r.messages r.hs r.recv decrypted ∧
      ((∀ p ∈ decrypted, p.1 = tls13CtHandshake) ∨ r.failed = true) := by
  refine h.invariant (P := fun r : HsReader => ∃ decrypted,
    Reading C hs.readCtx r.received r.messages r.hs r.recv decrypted ∧
      ((∀ p ∈ decrypted, p.1 = tls13CtHandshake) ∨ r.failed = true)) ?_ fun r i hr hi => ?_
  · exact ⟨[], h₀.reading C, Or.inl fun _ h => absurd h List.not_mem_nil⟩
  · obtain ⟨decrypted, hread, hty⟩ := hr
    cases i with
    | arrive bytes => exact ⟨decrypted, hread.arrive bytes, hty⟩
    | call =>
      have hall := hty.resolve_right (by rw [show r.failed = false from hi]; decide)
      obtain ⟨decrypted', hread', hty', -⟩ := hread.loop (Nat.lt_succ_self _) hall
      refine ⟨decrypted', hread', hty'.imp_right fun herr => ?_⟩
      show (match (tls13ReadEncryptedHs C r.hs r.recv).res with | .error => true | _ => false) = true
      rw [show (tls13ReadEncryptedHs C r.hs r.recv).res = .error from herr]
    | process hs' =>
      exact ⟨decrypted, hread.of_same hi.1 hi.2.1 hi.2.2.1 hi.2.2.2, hty⟩

/-- **Reassembly.**  In every run of calls of `tls13_read_encrypted_hs`, whatever bytes arrive and
in whatever portions: the bytes received are whole records and what is left in `recv_buf`; the
messages handed up are whole ones, and followed by the leftover they are the concatenation of the
plaintexts of the encrypted records; the cursors and every copy stay inside the two buffers; and a
call that wants more leaves neither a whole message nor a whole record behind. -/
theorem reassembly {hs : HsCtx} (h₀ : hs.NothingRead) {r : HsReader}
    (h : Reach (HsReader.step C) HsReader.Ok (.start hs) r) :
    (∃ records decrypted, (∀ x ∈ records, IsRecord x) ∧
      r.received = records.flatten ++ r.recv ∧
      decryptStream C hs.readCtx (payloads records) = some decrypted ∧
      ((∀ p ∈ decrypted, p.1 = tls13CtHandshake) ∨ r.failed = true) ∧
      (decrypted.map Prod.snd).flatten = r.messages.flatten ++ r.hs.leftover) ∧
    (∀ m ∈ r.messages, Framed m ∧ m.length ≤ hsBufSize) ∧
    (r.hs.plainOffset ≤ r.hs.plainLen ∧ r.hs.plainLen ≤ r.hs.plainBuf.length ∧
      r.hs.plainBuf.length ≤ hsBufSize) ∧
    (r.failed = false → (tls13ReadEncryptedHs C r.hs r.recv).res = .wantRead →
      ¬HasMessage (tls13ReadEncryptedHs C r.hs r.recv).hs.leftover ∧
        ¬HasRecord (tls13ReadEncryptedHs C r.hs r.recv).recv) := by
  obtain ⟨decrypted, hread, hty⟩ := reading_of_reach h₀ h
  obtain ⟨⟨records, hrecs, hrecv, hdec⟩, hframing, hmessages, hb⟩ := id hread
  refine ⟨⟨records, decrypted, hrecs, hrecv, ?_, hty, hframing⟩, hmessages,
    ⟨hb.offset, hb.len, hb.size⟩, fun hok hwant => ?_⟩
  · have h := hdec []
    rw [List.append_nil] at h
    rw [h, decryptStream, Option.map_some, List.append_nil]
  · have hall := hty.resolve_right (by rw [hok]; decide)
    obtain ⟨-, -, -, hnone⟩ := hread.loop (Nat.lt_succ_self _) hall
    exact hnone hwant

/-- The ChangeCipherSpec record of middlebox compatibility. -/
def ccsRecord : Bytes := [20, 3, 3, 0, 1, 1]

/-- An EncryptedExtensions message in two records, with a ChangeCipherSpec between them. -/
def splitExtensions : Bytes :=
  applicationRecord (protect .transparent .zero [8, 0, 0, 22]) ++ ccsRecord ++
    applicationRecord (protect .transparent RecordCtx.zero.next [2, 0, 0, 22])

theorem reassembly_splitExtensions :
    let r := play (HsReader.step .transparent) (.start tls13HandshakeInit)
      [fun _ => .arrive (splitExtensions.take 40), fun _ => .call,
        fun _ => .arrive (splitExtensions.drop 40), fun _ => .call]
    r.messages = [[8, 0, 0, 2, 0, 0]] ∧ ∀ m ∈ r.messages, Framed m ∧ m.length ≤ hsBufSize :=
  ⟨by decide +kernel, (reassembly ⟨rfl, rfl, by decide⟩ (reach_play (by decide +kernel))).2.1⟩

end MacTLS
