import MacTLS.Handshake.ServerHello

/-!
# Reading encrypted handshake messages

`tls13_read_encrypted_hs`: records are decrypted one by one to the end of `plain_buf`, and whole
handshake messages are handed up from its front, so a record may hold many messages and a message
may span many records.

* `readHsLoop_fuel` : one turn of the loop per received byte is enough;
* `tls13ReadEncryptedHs_spec` : reading touches the read sequence number, the two buffers and `error`,
  nothing else, and what it hands up is one whole message.
-/

namespace MacTLS

open Lib

/-- What the front of `plain_buf` holds. -/
inductive Extracted where
  | message (msg : Bytes)
  | tooLarge
  | incomplete

/-- Hand up the next message of `plain_buf`, or move a partial one to the front. -/
def extractHs (hs : HsCtx) : Extracted × HsCtx :=
  if hs.plainOffset < hs.plainLen then
    let remaining := hs.plainLen - hs.plainOffset
    let totalHs := 4 + getU24 hs.plainBuf (hs.plainOffset + 1)
    if remaining ≥ 4 ∧ totalHs > hsBufSize then (.tooLarge, hs)
    else if remaining ≥ 4 ∧ totalHs ≤ remaining then
      let msg := slice hs.plainBuf hs.plainOffset totalHs
      let hs := { hs with msgBuf := blit hs.msgBuf 0 msg }
      if hs.plainOffset + totalHs ≥ hs.plainLen then
        (.message msg, { hs with plainLen := 0, plainOffset := 0 })
      else (.message msg, { hs with plainOffset := hs.plainOffset + totalHs })
    else
      (.incomplete,
        { hs with
          plainBuf := blit hs.plainBuf 0 (slice hs.plainBuf hs.plainOffset remaining)
          plainLen := remaining
          plainOffset := 0 })
  else (.incomplete, hs)

/-- How reading one message ended. -/
inductive ReadResult where
  | message (msg : Bytes)
  | wantRead
  | error

structure ReadOut where
  res : ReadResult
  hs : HsCtx
  recv : Bytes

/-- Take one record off the received bytes: `inl` ends the reading, `inr` loops back. -/
def readHsRecord (C : Crypto) (hs : HsCtx) (recv : Bytes) : ReadOut ⊕ (HsCtx × Bytes) :=
  if recv.length < 5 then .inl ⟨.wantRead, hs, recv⟩
  else
    let recordType := byteAt recv 0
    let recordLen := getU16 recv 3
    let total := 5 + recordLen
    if recv.length < total then .inl ⟨.wantRead, hs, recv⟩
    else if recordLen > hsBufSize then .inl ⟨.error, { hs with error := brErrBadParam }, recv⟩
    else if recordType = tls13CtChangeCipherSpec then .inr (hs, recv.drop total)
    else if recordType ≠ tls13CtApplicationData then
      .inl ⟨.error, { hs with error := brErrUnexpected }, recv⟩
    else if hs.plainLen + recordLen > hsBufSize then
      .inl ⟨.error, { hs with error := brErrBadParam }, recv⟩
    else
      let d := tls13RecordDecrypt C hs.readCtx (slice recv 5 recordLen)
      let hs := { hs with readCtx := d.ctx, plainBuf := blit hs.plainBuf hs.plainLen d.buf }
      match d.ret with
      | none => .inl ⟨.error, { hs with error := brErrBadMac }, recv⟩
      | some (ptLen, innerCt) =>
        let hs := { hs with plainLen := hs.plainLen + ptLen }
        if innerCt ≠ tls13CtHandshake then
          .inl ⟨.error, { hs with error := brErrUnexpected }, recv.drop total⟩
        else .inr (hs, recv.drop total)

/-- The loop of `tls13_read_encrypted_hs`.  A turn that loops back has taken a record off
`recv`, so it ends within `recv.length + 1` turns. -/
def readHsLoop (C : Crypto) : ℕ → HsCtx → Bytes → ReadOut
  | 0, hs, recv => ⟨.wantRead, hs, recv⟩
  | fuel + 1, hs, recv =>
    match extractHs hs with
    | (.message msg, hs) => ⟨.message msg, hs, recv⟩
    | (.tooLarge, hs) => ⟨.error, { hs with error := brErrBadParam }, recv⟩
    | (.incomplete, hs) =>
      match readHsRecord C hs recv with
      | .inl out => out
      | .inr (hs, recv) => readHsLoop C fuel hs recv

/-- Read and decrypt one handshake message from the server. -/
def tls13ReadEncryptedHs (C : Crypto) (hs : HsCtx) (recv : Bytes) : ReadOut :=
  readHsLoop C (recv.length + 1) hs recv

/-- A handler of encrypted messages: read one message and process it. -/
def withMessage (C : Crypto) (hs : HsCtx) (recv : Bytes) (process : HsCtx → Bytes → Outcome) :
    HsOut :=
  match tls13ReadEncryptedHs C hs recv with
  | ⟨.message msg, hs, recv⟩ =>
    let o := process hs msg
    ⟨{ o with log := .received msg :: o.log }, recv⟩
  | ⟨.wantRead, hs, recv⟩ => ⟨⟨.wantRead, hs, []⟩, recv⟩
  | ⟨.error, hs, recv⟩ => ⟨⟨.error, hs, []⟩, recv⟩

/-! ### What one turn does -/

/-- `hs'` is `hs` but for the read sequence number, the message and plaintext buffers and
`error`. -/
def ReadFrame (hs hs' : HsCtx) : Prop :=
  hs' = { hs with
    readCtx := { hs.readCtx with seq := hs'.readCtx.seq }, msgBuf := hs'.msgBuf, plainBuf := hs'.plainBuf
    plainLen := hs'.plainLen, plainOffset := hs'.plainOffset, error := hs'.error }

theorem ReadFrame.refl (hs : HsCtx) : ReadFrame hs hs := rfl

theorem ReadFrame.trans {a b c : HsCtx} (hab : ReadFrame a b) (hbc : ReadFrame b c) :
    ReadFrame a c := by
  unfold ReadFrame at *
  rw [hbc, hab]

/-- The filled part of `plain_buf` lies inside the buffer. -/
def HsCtx.PlainOk (hs : HsCtx) : Prop := hs.plainLen ≤ hs.plainBuf.length

/-- A message as `msg_buf` holds it after a read: framed by its own length field. -/
structure HandedUp (hs : HsCtx) (msg : Bytes) : Prop where
  length : msg.length = declaredLen msg
  msgBuf : hs.msgBuf.take msg.length = msg

theorem extractHs_frame (hs : HsCtx) : ReadFrame hs (extractHs hs).2 := by
  unfold extractHs
  dsimp only
  split_ifs <;> rfl

theorem plainOk_extractHs {hs : HsCtx} (h : hs.PlainOk) : (extractHs hs).2.PlainOk := by
  unfold HsCtx.PlainOk at *
  unfold extractHs
  dsimp only
  split_ifs
  all_goals try exact h
  · exact Nat.zero_le _
  · rw [length_blit (by rw [length_slice (by omega)]; omega)]
    dsimp only
    omega

theorem handedUp_extractHs {hs hs' : HsCtx} {msg : Bytes} (hp : hs.PlainOk)
    (h : extractHs hs = (.message msg, hs')) : HandedUp hs' msg := by
  unfold HsCtx.PlainOk at hp
  unfold extractHs at h
  dsimp only at h
  split_ifs at h
  all_goals cases h
  all_goals
    have hm : (slice hs.plainBuf hs.plainOffset
        (4 + getU24 hs.plainBuf (hs.plainOffset + 1))).length =
        4 + getU24 hs.plainBuf (hs.plainOffset + 1) := length_slice (by omega)
    refine ⟨?_, take_blit_zero _ _⟩
    rw [hm, declaredLen, slice, getU24_take (by omega)]
    simp only [getU24, byteAt_drop, Nat.add_assoc]

/-- A decryption leaves at least the content it reports in `plain_buf`. -/
theorem plainLen_le_of_decrypt {C : Crypto} {hs : HsCtx} {c : Bytes} {n : ℕ} {ct : UInt8}
    (hp : hs.PlainOk) (h : (tls13RecordDecrypt C hs.readCtx c).ret = some (n, ct)) :
    hs.plainLen + n ≤
      (blit hs.plainBuf hs.plainLen (tls13RecordDecrypt C hs.readCtx c).buf).length := by
  have hle := tls13RecordDecrypt_len_le h
  have hlen := length_tls13RecordDecrypt_buf C hs.readCtx (c := c) (by omega)
  unfold HsCtx.PlainOk at hp
  simp only [blit, List.length_append, List.length_take, List.length_drop]
  omega

/-- One record: it hands up no message itself, and looping back has used up received bytes. -/
theorem readHsRecord_spec (C : Crypto) (hs : HsCtx) (recv : Bytes) :
    match readHsRecord C hs recv with
    | .inl out => ReadFrame hs out.hs ∧ (hs.PlainOk → out.hs.PlainOk) ∧
        ∀ msg, out.res ≠ .message msg
    | .inr (hs', recv') => ReadFrame hs hs' ∧ (hs.PlainOk → hs'.PlainOk) ∧
        recv'.length < recv.length := by
  have hdrop : ∀ n, ¬recv.length < 5 → (recv.drop (5 + n)).length < recv.length := by
    intro n h5
    rw [List.length_drop]
    omega
  have hblit : ∀ src : Bytes, hs.PlainOk →
      hs.plainLen ≤ (blit hs.plainBuf hs.plainLen src).length := by
    intro src hp
    unfold HsCtx.PlainOk at hp
    simp only [blit, List.length_append, List.length_take, List.length_drop]
    omega
  have hctx := tls13RecordDecrypt_ctx C hs.readCtx (slice recv 5 (getU16 recv 3))
  unfold readHsRecord
  dsimp only
  split_ifs with h5 _ _ _ _ _
  all_goals try exact ⟨rfl, id, fun _ h => by cases h⟩
  · exact ⟨rfl, id, hdrop _ h5⟩
  · cases hret : (tls13RecordDecrypt C hs.readCtx (slice recv 5 (getU16 recv 3))).ret with
    | none => exact ⟨by rw [hctx]; rfl, hblit _, fun _ h => by cases h⟩
    | some r =>
      obtain ⟨n, ct⟩ := r
      dsimp only
      split_ifs
      · exact ⟨by rw [hctx]; rfl, fun hp => plainLen_le_of_decrypt hp hret, fun _ h => by cases h⟩
      · exact ⟨by rw [hctx]; rfl, fun hp => plainLen_le_of_decrypt hp hret, hdrop _ h5⟩

/-! ### The whole loop -/

/-- Turns beyond one per received byte change nothing. -/
theorem readHsLoop_fuel (C : Crypto) {fuel : ℕ} {hs : HsCtx} {recv : Bytes}
    (hf : recv.length < fuel) : readHsLoop C fuel hs recv = tls13ReadEncryptedHs C hs recv := by
  suffices H : ∀ n m hs recv, recv.length < n → recv.length < m →
      readHsLoop C n hs recv = readHsLoop C m hs recv from
    H _ _ _ _ hf (Nat.lt_succ_self _)
  intro n
  induction n with
  | zero => intro m hs recv hn; omega
  | succ n ih =>
    intro m hs recv hn hm
    obtain ⟨m, rfl⟩ : ∃ k, m = k + 1 := ⟨m - 1, by omega⟩
    unfold readHsLoop
    split
    · rfl
    · rfl
    · rename_i hs' _
      have hrec := readHsRecord_spec C hs' recv
      cases hr : readHsRecord C hs' recv with
      | inl out => rfl
      | inr p =>
        rw [hr] at hrec
        have hlt : p.2.length < recv.length := hrec.2.2
        exact ih _ _ _ (by omega) (by omega)

theorem readHsLoop_spec (C : Crypto) (fuel : ℕ) (hs : HsCtx) (recv : Bytes) :
    let out := readHsLoop C fuel hs recv
    ReadFrame hs out.hs ∧ (hs.PlainOk → out.hs.PlainOk ∧
      ∀ msg, out.res = .message msg → HandedUp out.hs msg) := by
  induction fuel generalizing hs recv with
  | zero => exact ⟨rfl, fun hp => ⟨hp, fun _ h => by cases h⟩⟩
  | succ fuel ih =>
    have hfr := extractHs_frame hs
    have hpl := @plainOk_extractHs hs
    unfold readHsLoop
    split
    · rename_i h
      rw [h] at hfr hpl
      refine ⟨hfr, fun hp => ⟨hpl hp, ?_⟩⟩
      rintro m ⟨⟩
      exact handedUp_extractHs hp h
    · rename_i h
      rw [h] at hfr hpl
      exact ⟨hfr.trans rfl, fun hp => ⟨hpl hp, fun _ h => by cases h⟩⟩
    · rename_i hs₁ h
      rw [h] at hfr hpl
      have hrec := readHsRecord_spec C hs₁ recv
      cases hr : readHsRecord C hs₁ recv with
      | inl out =>
        rw [hr] at hrec
        exact ⟨hfr.trans hrec.1, fun hp =>
          ⟨hrec.2.1 (hpl hp), fun m h => absurd h (hrec.2.2 m)⟩⟩
      | inr p =>
        rw [hr] at hrec
        have := ih p.1 p.2
        exact ⟨hfr.trans (hrec.1.trans this.1), fun hp => this.2 (hrec.2.1 (hpl hp))⟩

/-- Reading a message changes only what `ReadFrame` lists, and a message handed up is whole. -/
theorem tls13ReadEncryptedHs_spec (C : Crypto) (hs : HsCtx) (recv : Bytes) :
    let out := tls13ReadEncryptedHs C hs recv
    ReadFrame hs out.hs ∧ (hs.PlainOk → out.hs.PlainOk ∧
      ∀ msg, out.res = .message msg → HandedUp out.hs msg) :=
  readHsLoop_spec C _ hs recv

end MacTLS
