import MacTLS.Handshake.Waiting

/-!
# The handshake settles

Calling `tls13_handshake_step` again and again on the same received bytes, with `msg_buf` sent in
between, ends: each call moves on in the sequence of states, takes a record, or changes nothing any
more.

* `readHs_ends` : the record loop of `tls13_read_encrypted_hs` ends;
* `readHs_again` : a read that wants more bytes is repeated without a change;
* `HsCtx.stepsLeft` : the states that are still ahead;
* `handshake_settles` : the calls settle, after no more than the received bytes and eleven.
-/

namespace MacTLS

open Lib

variable {C : Crypto} {hostname : Bytes} {hs hs' : HsCtx} {recv recv' : Bytes}

/-! ### The record loop -/

/-- One turn of the loop of `tls13_read_encrypted_hs`: `inl` ends it, `inr` loops back. -/
def readHsTurn (C : Crypto) (hs : HsCtx) (recv : Bytes) : ReadOut ⊕ HsCtx × Bytes :=
  match extractHs hs with
  | (.message msg, hs) => .inl ⟨.message msg, hs, recv⟩
  | (.tooLarge, hs) => .inl ⟨.error, { hs with error := brErrBadParam }, recv⟩
  | (.incomplete, hs) => readHsRecord C hs recv

/-- The loop loops back `n` times and then ends. -/
inductive ReadsIn (C : Crypto) : ℕ → HsCtx → Bytes → ReadOut → Prop
  | ends {out : ReadOut} {hs : HsCtx} {recv : Bytes} (h : readHsTurn C hs recv = .inl out) :
      ReadsIn C 0 hs recv out
  | loops {n : ℕ} {out : ReadOut} {hs hs' : HsCtx} {recv recv' : Bytes}
      (h : readHsTurn C hs recv = .inr (hs', recv')) (hrest : ReadsIn C n hs' recv' out) :
      ReadsIn C (n + 1) hs recv out

theorem readHsLoop_turn (fuel : ℕ) : readHsLoop C (fuel + 1) hs recv =
    (readHsTurn C hs recv).elim id fun p => readHsLoop C fuel p.1 p.2 := by
  unfold readHsTurn
  rw [readHsLoop]
  generalize extractHs hs = e
  obtain ⟨e, hs₁⟩ := e
  cases e with
  | message msg => rfl
  | tooLarge => rfl
  | incomplete =>
    dsimp only
    generalize readHsRecord C hs₁ recv = r
    cases r <;> rfl

/-- A turn that loops back has taken a record. -/
theorem length_lt_of_readHsTurn (h : readHsTurn C hs recv = .inr (hs', recv')) :
    recv'.length < recv.length := by
  unfold readHsTurn at h
  generalize extractHs hs = e at h
  obtain ⟨e, hs₁⟩ := e
  cases e with
  | message msg => cases h
  | tooLarge => cases h
  | incomplete =>
    have hrec := readHsRecord_spec C hs₁ recv
    dsimp only at h
    rw [h] at hrec
    exact hrec.2.2

theorem readsIn_loop {fuel : ℕ} (hfuel : recv.length < fuel) :
    ∃ n ≤ recv.length, ReadsIn C n hs recv (readHsLoop C fuel hs recv) := by
  induction fuel generalizing hs recv with
  | zero => omega
  | succ fuel ih =>
    rw [readHsLoop_turn]
    cases hturn : readHsTurn C hs recv with
    | inl out => exact ⟨0, Nat.zero_le _, .ends hturn⟩
    | inr p =>
      obtain ⟨hs', recv'⟩ := p
      have hlt := length_lt_of_readHsTurn hturn
      obtain ⟨n, hn, hreads⟩ := @ih hs' recv' (by omega)
      exact ⟨n + 1, Nat.lt_of_le_of_lt hn hlt, .loops hturn hreads⟩

/-- The loop ends, and takes no more turns than there are bytes received, and one. -/
theorem readHs_ends (C : Crypto) (hs : HsCtx) (recv : Bytes) :
    ∃ n ≤ recv.length, ReadsIn C n hs recv (tls13ReadEncryptedHs C hs recv) :=
  readsIn_loop (Nat.lt_succ_self _)

/-! ### Reading again -/

/-- A partial message at the front stays where it is. -/
theorem extractHs_again (hb : hs.Bounded) (h : extractHs hs = (.incomplete, hs')) :
    extractHs hs' = (.incomplete, hs') := by
  have hlen := hb.length_leftover
  have hdecl := @declaredLen_leftover hs
  unfold HsCtx.leftover at hlen hdecl
  unfold extractHs at h
  dsimp only at h
  split_ifs at h with hmore hlarge hwhole hlast
  · cases h
  · cases h
  · cases h
  · generalize hrem : slice hs.plainBuf hs.plainOffset (hs.plainLen - hs.plainOffset) = rem
      at h hlen hdecl
    have hself : slice (blit hs.plainBuf 0 rem) 0 (hs.plainLen - hs.plainOffset - 0) = rem := by
      rw [Nat.sub_zero, ← hlen]
      exact slice_blit_self (Nat.zero_le _)
    have htwice : blit (blit hs.plainBuf 0 rem) 0 rem = blit hs.plainBuf 0 rem := by simp [blit]
    -- the header is where the message is
    have hsame : 4 ≤ hs.plainLen - hs.plainOffset →
        getU24 (blit hs.plainBuf 0 rem) 1 = getU24 hs.plainBuf (hs.plainOffset + 1) := by
      intro hfour
      have hfront : getU24 (blit hs.plainBuf 0 rem) 1 = getU24 rem 1 := by
        unfold blit
        rw [List.take_zero, List.nil_append, getU24_append (by omega)]
      have h4 := hdecl hfour
      rw [declaredLen] at h4
      omega
    cases h
    unfold extractHs
    dsimp only
    rw [if_pos (by omega), if_neg, if_neg, hself, htwice]
    · rfl
    · rintro ⟨hfour, hle⟩
      rw [Nat.zero_add, hsame hfour] at hle
      exact hwhole ⟨hfour, hle⟩
    · rintro ⟨hfour, hgt⟩
      rw [Nat.zero_add, hsame hfour] at hgt
      exact hlarge ⟨hfour, hgt⟩
  · cases h
    unfold extractHs
    rw [if_neg hmore]

/-- A read that wants more bytes finds the same when it is repeated. -/
theorem readHsLoop_again {fuel : ℕ} (hfuel : recv.length < fuel) (hb : hs.Bounded)
    (h : (readHsLoop C fuel hs recv).res = .wantRead) :
    let out := readHsLoop C fuel hs recv
    tls13ReadEncryptedHs C out.hs out.recv = out := by
  induction fuel generalizing hs recv with
  | zero => omega
  | succ fuel ih =>
    have he := extracts_extractHs hb
    have hagain := @extractHs_again hs
    unfold readHsLoop at h ⊢
    generalize extractHs hs = e at he hagain h ⊢
    obtain ⟨e, hs₁⟩ := e
    cases he with
    | message => cases h
    | tooLarge => cases h
    | incomplete hnone hleft hctx hb₁ hoff hbuf =>
      have hagain := hagain hb rfl
      have ht := @takesRecord_readHsRecord C _ recv hb₁ hoff
      have hrec := readHsRecord_spec C hs₁ recv
      dsimp only at h ⊢
      generalize hr : readHsRecord C hs₁ recv = r at ht hrec h ⊢
      cases ht with
      | wantRead hno =>
        dsimp only
        rw [tls13ReadEncryptedHs, readHsLoop, hagain]
        dsimp only
        rw [hr]
      | refused => cases h
      | ccs _ _ _ => exact ih (Nat.lt_of_lt_of_le hrec.2.2 (Nat.le_of_lt_succ hfuel)) hb₁ h
      | unexpected => cases h
      | handshake hdec hoff' ha =>
        exact ih (Nat.lt_of_lt_of_le hrec.2.2 (Nat.le_of_lt_succ hfuel)) ha.bounded h

theorem readHs_again (hb : hs.Bounded) (h : (tls13ReadEncryptedHs C hs recv).res = .wantRead) :
    let out := tls13ReadEncryptedHs C hs recv
    tls13ReadEncryptedHs C out.hs out.recv = out :=
  readHsLoop_again (Nat.lt_succ_self _) hb h

/-! ### One call -/

/-- The states that are still ahead; a HelloRetryRequest leads back once. -/
def HsState.stepsLeft (hrrReceived : Bool) : HsState → ℕ
  | .sendClientHello | .sendCcs => if hrrReceived then 8 else 10
  | .recvServerHello => if hrrReceived then 7 else 9
  | .recvEncryptedExtensions => 6
  | .recvCertRequestOrCert => 5
  | .recvCertificate => 4
  | .recvCertificateVerify => 3
  | .recvFinished => 2
  | .sendFinished => 1
  | .complete => 0

def HsCtx.stepsLeft (hs : HsCtx) : ℕ := hs.state.stepsLeft hs.hrrReceived

theorem HsCtx.stepsLeft_le (hs : HsCtx) : hs.stepsLeft ≤ 10 := by
  unfold HsCtx.stepsLeft
  cases hs.hrrReceived <;> cases hs.state <;> decide

theorem stepsLeft_lt {a b : HsState} (ha : hs'.state = a) (hb : hs.state = b)
    (h : ∀ x y, a.stepsLeft x < b.stepsLeft y) : hs'.stepsLeft < hs.stepsLeft := by
  unfold HsCtx.stepsLeft
  rw [ha, hb]
  exact h _ _

/-- What a call makes of the sequence of states. -/
inductive Advances (C : Crypto) (hostname : Bytes) (hs : HsCtx) (recv : Bytes) (o : HsOut) : Prop
  | ends (h : o.res = .error ∨ o.res = .fallback12)
  | moves (h : o.hs.stepsLeft < hs.stepsLeft)
  /-- A change of cipher spec was taken off. -/
  | skips (hsame : o.hs = hs) (h : o.recv.length < recv.length)
  | waits (h : o.res = .wantRead)
      (hmsg : o.hs.msgLen = hs.msgLen ∧ o.hs.msgOffset = hs.msgOffset)
      (hagain : ∀ rnd, tls13HandshakeStep C hostname rnd o.hs o.recv =
        ⟨⟨.wantRead, o.hs, []⟩, o.recv⟩)
  | complete (h : hs.state = .complete)

/-- The handler of a state that reads encrypted messages. -/
theorem advances_withMessage {process : HsCtx → Bytes → Outcome} (hb : hs.Bounded)
    (hproc : ∀ hs₁ msg, (process hs₁ msg).res = .error ∨
      (process hs₁ msg).hs.stepsLeft < hs.stepsLeft)
    (hsame : ∀ hs₁, hs₁.state = hs.state → hs₁.pendingRecvMsgLen = hs.pendingRecvMsgLen →
      ∀ rnd recv', tls13HandshakeStep C hostname rnd hs₁ recv' = withMessage C hs₁ recv' process) :
    Advances C hostname hs recv (withMessage C hs recv process) := by
  have hframe := (tls13ReadEncryptedHs_spec C hs recv).1
  have hagain := @readHs_again C hs recv hb
  unfold withMessage
  generalize tls13ReadEncryptedHs C hs recv = r at hframe hagain ⊢
  obtain ⟨res, hs₁, recv'⟩ := r
  have hstate : hs₁.state = hs.state := (congrArg HsCtx.state hframe :)
  cases res with
  | message msg =>
    obtain herr | hlt := hproc hs₁ msg
    · exact .ends (.inl herr)
    · exact .moves hlt
  | wantRead =>
    refine .waits rfl ⟨(congrArg HsCtx.msgLen hframe :), (congrArg HsCtx.msgOffset hframe :)⟩
      fun rnd => ?_
    have hread : tls13ReadEncryptedHs C hs₁ recv' = ⟨.wantRead, hs₁, recv'⟩ := hagain rfl
    dsimp only
    rw [hsame hs₁ hstate (congrArg HsCtx.pendingRecvMsgLen hframe :), withMessage, hread]
  | error => exact .ends (.inl rfl)

/-- What the driver makes of the outcome of the ServerHello handler. -/
def HsOut.afterHello (o : HsOut) : HsOut :=
  if o.res = .ok then { o with hs := { o.hs with state := .recvEncryptedExtensions } }
  else if o.res = .wantRead ∧ o.hs.hrrPending then
    { o with res := .ok, hs := { o.hs with hrrPending := false, state := .sendClientHello } }
  else o

theorem step_recvServerHello (hst : hs.state = .recvServerHello) (rnd : ClientRandom)
    (recv : Bytes) : tls13HandshakeStep C hostname rnd hs recv =
      (tls13StateRecvServerHello C hs recv).afterHello := by
  unfold tls13HandshakeStep
  rw [hst]
  rfl

theorem advances_refusedHello {o : HsOut} (h : o.res = .error ∨ o.res = .fallback12) :
    Advances C hostname hs recv o.afterHello := by
  have hsame : o.afterHello = o := by
    obtain h | h := h <;> simp [HsOut.afterHello, h]
  rw [hsame]
  exact .ends h

/-- The ServerHello message: it is refused, or the next state is nearer to the end. -/
theorem advances_parsedHello {msg : Bytes} {o : Outcome} {log : List HsEvent}
    (hst : hs.state = .recvServerHello) (hp : Parsed C hs msg o) :
    Advances C hostname hs recv (HsOut.mk { o with log } recv').afterHello := by
  cases hp with
  | refused h hlog => exact advances_refusedHello (h.res.imp_right And.left)
  | retry hf hfirst hret =>
    have hread : HsResult.wantRead ≠ .ok := by decide
    refine .moves ?_
    unfold HsOut.afterHello
    rw [if_neg hread, if_pos ⟨rfl, rfl⟩]
    show HsState.stepsLeft true .sendClientHello < hs.state.stepsLeft hs.hrrReceived
    rw [hst, hfirst]
    decide
  | accepted h =>
    refine .moves (stepsLeft_lt (a := .recvEncryptedExtensions) ?_ hst (by decide))
    unfold HsOut.afterHello
    rw [if_pos rfl]

theorem advances_recvServerHello (rnd : ClientRandom) (hst : hs.state = .recvServerHello)
    (hw : hs.Wf) : Advances C hostname hs recv (tls13HandshakeStep C hostname rnd hs recv) := by
  -- a call that finds no whole record, or a change of cipher spec
  have hwants : ∀ {recv recv' : Bytes},
      tls13StateRecvServerHello C hs recv = ⟨⟨.wantRead, hs, []⟩, recv'⟩ →
      ∀ rnd, tls13HandshakeStep C hostname rnd hs recv = ⟨⟨.wantRead, hs, []⟩, recv'⟩ := by
    intro recv recv' h rnd
    rw [step_recvServerHello hst, h]
    simp [HsOut.afterHello, hw.hrrPending]
  by_cases hwhole : HasRecord recv
  · obtain ⟨h5, htotal⟩ := hwhole
    have hcall : tls13StateRecvServerHello C hs recv =
        if byteAt recv 0 = tls13CtChangeCipherSpec then
          ⟨⟨.wantRead, hs, []⟩, recv.drop (5 + getU16 recv 3)⟩
        else _ := (if_neg (Nat.not_lt.2 h5)).trans (if_neg (Nat.not_lt.2 htotal))
    by_cases hccs : byteAt recv 0 = tls13CtChangeCipherSpec
    · rw [hwants (hcall.trans (if_pos hccs))]
      refine .skips rfl ?_
      rw [List.length_drop]
      omega
    · rw [step_recvServerHello hst, hcall, if_neg hccs]
      dsimp only
      split_ifs
      · exact advances_refusedHello (.inr rfl)
      · exact advances_refusedHello (.inr rfl)
      · exact advances_refusedHello (.inl rfl)
      · exact advances_parsedHello hst (parsed_tls13ParseServerHello C hs _)
  · have hnone : tls13StateRecvServerHello C hs recv = ⟨⟨.wantRead, hs, []⟩, recv⟩ := by
      unfold tls13StateRecvServerHello HasRecord at *
      dsimp only
      by_cases h5 : recv.length < 5
      · rw [if_pos h5]
      · rw [if_neg h5, if_pos (by omega)]
    rw [hwants hnone]
    exact .waits rfl ⟨rfl, rfl⟩ (hwants hnone)

/-- The handler of the Certificate, which may be parked in `msg_buf`. -/
theorem advances_certificate (rnd : ClientRandom) (hst : hs.state = .recvCertificate)
    (hb : hs.Bounded) :
    Advances C hostname hs recv (tls13HandshakeStep C hostname rnd hs recv) := by
  have hproc : ∀ hs₁ msg, (processCertificate C hostname hs₁ msg).res = .error ∨
      (processCertificate C hostname hs₁ msg).hs.stepsLeft < hs.stepsLeft := by
    intro hs₁ msg
    obtain h | ⟨certs, pkey, -, h⟩ := processCertificate_cases C hostname hs₁ msg
    · exact .inl h.res
    · exact .inr (stepsLeft_lt (a := .recvCertificateVerify) (by rw [h]) hst (by decide))
  by_cases hpend : hs.pendingRecvMsgLen > 0
  · have hstep : tls13HandshakeStep C hostname rnd hs recv = ⟨processCertificate C hostname
        { hs with pendingRecvMsgLen := 0 } (hs.msgBuf.take hs.pendingRecvMsgLen), recv⟩ := by
      unfold tls13HandshakeStep
      rw [hst]
      exact if_pos hpend
    rw [hstep]
    obtain herr | hlt := hproc { hs with pendingRecvMsgLen := 0 }
      (hs.msgBuf.take hs.pendingRecvMsgLen)
    · exact .ends (.inl herr)
    · exact .moves hlt
  · have hsame : ∀ hs₁ : HsCtx, hs₁.state = hs.state →
        hs₁.pendingRecvMsgLen = hs.pendingRecvMsgLen → ∀ rnd recv',
        tls13HandshakeStep C hostname rnd hs₁ recv' =
          withMessage C hs₁ recv' (processCertificate C hostname) := by
      intro hs₁ h hp rnd recv'
      unfold tls13HandshakeStep
      rw [h, hst]
      exact if_neg (by rwa [hp])
    rw [hsame hs rfl rfl]
    exact advances_withMessage hb hproc hsame

theorem advances_step (C : Crypto) (hostname : Bytes) (rnd : ClientRandom) (recv : Bytes)
    (hw : hs.Wf) (hb : hs.Bounded) :
    Advances C hostname hs recv (tls13HandshakeStep C hostname rnd hs recv) := by
  -- a state whose handler is `withMessage`
  have hreads : ∀ process : HsCtx → Bytes → Outcome,
      (∀ hs₁ msg, (process hs₁ msg).res = .error ∨
        (process hs₁ msg).hs.stepsLeft < hs.stepsLeft) →
      (∀ hs₁ : HsCtx, hs₁.state = hs.state → ∀ rnd recv',
        tls13HandshakeStep C hostname rnd hs₁ recv' = withMessage C hs₁ recv' process) →
      Advances C hostname hs recv (tls13HandshakeStep C hostname rnd hs recv) := by
    intro process hproc hsame
    rw [hsame hs rfl]
    exact advances_withMessage hb hproc fun hs₁ h _ => hsame hs₁ h
  cases hst : hs.state with
  | sendClientHello =>
    have hstep : tls13HandshakeStep C hostname rnd hs recv =
        let o := tls13StateSendClientHello C hs hostname rnd
        if o.res = .wantWrite then ⟨{ o with hs := { o.hs with state := .recvServerHello } }, recv⟩
        else ⟨o, recv⟩ := by
      unfold tls13HandshakeStep
      rw [hst]
    rw [hstep]
    obtain ⟨hres, -⟩ | ⟨hs₁, msg, hbuilt, -, -, ho⟩ :=
      tls13StateSendClientHello_cases C hs hostname rnd
    · dsimp only
      rw [if_neg (by rw [hres]; simp)]
      exact .ends (.inl hres)
    · have hhrr : hs₁.hrrReceived = hs.hrrReceived :=
        (congrArg HsCtx.hrrReceived (HelloBuilt.ready hbuilt).frame :)
      rw [ho]
      refine .moves ?_
      show HsState.stepsLeft hs₁.hrrReceived .recvServerHello < hs.state.stepsLeft hs.hrrReceived
      rw [hst, hhrr]
      cases hs.hrrReceived <;> decide
  | sendCcs =>
    have hstep : (tls13HandshakeStep C hostname rnd hs recv).hs =
        { (tls13StateSendCcs hs).hs with state := .recvServerHello } := by
      unfold tls13HandshakeStep
      rw [hst]
      rfl
    refine .moves ?_
    rw [hstep]
    show HsState.stepsLeft hs.hrrReceived .recvServerHello < hs.state.stepsLeft hs.hrrReceived
    rw [hst]
    cases hs.hrrReceived <;> decide
  | recvServerHello => exact advances_recvServerHello rnd hst hw
  | recvEncryptedExtensions =>
    refine hreads processEncryptedExtensions (fun hs₁ msg => ?_) fun hs₁ h rnd recv' =>
      by unfold tls13HandshakeStep; rw [h, hst]
    obtain h | ⟨-, h⟩ := processEncryptedExtensions_cases hs₁ msg
    · exact .inl h.res
    · right
      cases hacc : hs₁.resumptionAccepted with
      | true => exact stepsLeft_lt (a := .recvFinished) (by rw [h, hacc]; rfl) hst (by decide)
      | false =>
        exact stepsLeft_lt (a := .recvCertRequestOrCert) (by rw [h, hacc]; rfl) hst (by decide)
  | recvCertRequestOrCert =>
    refine hreads processCertRequestOrCert (fun hs₁ msg => ?_) fun hs₁ h rnd recv' =>
      by unfold tls13HandshakeStep; rw [h, hst]
    obtain h | ⟨-, h⟩ | ⟨-, h⟩ := processCertRequestOrCert_cases hs₁ msg
    · exact .inl h.res
    · exact .inr (stepsLeft_lt (a := .recvCertificate) (by rw [h]) hst (by decide))
    · exact .inr (stepsLeft_lt (a := .recvCertificate) (by rw [h]) hst (by decide))
  | recvCertificate => exact advances_certificate rnd hst hb
  | recvCertificateVerify =>
    refine hreads (processCertificateVerify C) (fun hs₁ msg => ?_) fun hs₁ h rnd recv' =>
      by unfold tls13HandshakeStep; rw [h, hst]
    obtain h | ⟨key, -, -, h⟩ := processCertificateVerify_cases C hs₁ msg
    · exact .inl h.res
    · exact .inr (stepsLeft_lt (a := .recvFinished) (by rw [h]) hst (by decide))
  | recvFinished =>
    refine hreads (processFinished C) (fun hs₁ msg => ?_) fun hs₁ h rnd recv' =>
      by unfold tls13HandshakeStep; rw [h, hst]
    unfold processFinished
    dsimp only
    split_ifs
    · exact .inl rfl
    · exact .inl rfl
    · exact .inl rfl
    · exact .inl rfl
    · exact .inr (stepsLeft_lt (a := .sendFinished) rfl hst (by decide))
  | sendFinished =>
    have hstep : tls13HandshakeStep C hostname rnd hs recv =
        ⟨tls13StateSendFinished C hs, recv⟩ := by
      unfold tls13HandshakeStep
      rw [hst]
    rw [hstep, tls13StateSendFinished_eq]
    exact .moves (stepsLeft_lt (a := .complete) rfl hst (by decide))
  | complete => exact .complete hst

/-! ### Calls in a row -/

/-- The caller sends what is in `msg_buf`. -/
def HsCtx.flushed (hs : HsCtx) : HsCtx :=
  if hs.msgOffset < hs.msgLen then { hs with msgOffset := hs.msgLen } else hs

/-- A call after a call, on what it left of the received bytes. -/
def HsOut.call (C : Crypto) (hostname : Bytes) (o : HsOut) (rnd : ClientRandom) : HsOut :=
  tls13HandshakeStep C hostname rnd o.hs.flushed o.recv

/-- The handshake is over, or waits for bytes that no call will find. -/
def HsOut.Settled (C : Crypto) (hostname : Bytes) (o : HsOut) : Prop :=
  o.res = .error ∨ o.res = .fallback12 ∨ o.hs.state = .complete ∨
    o.res = .wantRead ∧ ∀ rnd, o.call C hostname rnd = ⟨⟨.wantRead, o.hs, []⟩, o.recv⟩

theorem HsCtx.flushed_frame (hs : HsCtx) : hs.flushed.plain = hs.plain ∧
    hs.flushed.stepsLeft = hs.stepsLeft ∧ hs.flushed.state = hs.state ∧
    hs.flushed.hrrPending = hs.hrrPending := by
  unfold HsCtx.flushed
  split_ifs <;> exact ⟨rfl, rfl, rfl, rfl⟩

theorem HsCtx.flushed_le (hs : HsCtx) : hs.flushed.msgLen ≤ hs.flushed.msgOffset := by
  unfold HsCtx.flushed
  split_ifs
  · exact Nat.le_refl _
  · exact Nat.le_of_not_lt ‹_›

theorem HsCtx.flushed_eq (h : hs.msgLen ≤ hs.msgOffset) : hs.flushed = hs :=
  if_neg (Nat.not_lt.2 h)

theorem HsCtx.Wf.flushed (hw : hs.Wf) : hs.flushed.Wf := by
  unfold HsCtx.flushed
  split_ifs
  · exact ⟨hw.hrrPending, hw.plainOk⟩
  · exact hw

/-- A call settles the handshake, or leaves less to do. -/
theorem settled_or_less (C : Crypto) (hostname : Bytes) (o : HsOut) (rnd : ClientRandom)
    (hw : o.hs.Wf) (hb : o.hs.Bounded) :
    let o' := o.call C hostname rnd
    o.Settled C hostname ∨ (o'.hs.Wf ∧ o'.hs.Bounded) ∧
      (o'.Settled C hostname ∨
        o'.hs.stepsLeft + o'.recv.length < o.hs.stepsLeft + o.recv.length) := by
  obtain ⟨hplain, hleft, hstate, -⟩ := o.hs.flushed_frame
  have hsent := o.hs.flushed_le
  have hw' := hw.flushed
  have hb' := hb.of_plain hplain
  dsimp only
  unfold HsOut.call
  generalize o.hs.flushed = hs at hplain hleft hstate hsent hw' hb' ⊢
  have hfront := front_step C hostname rnd o.recv hw' hb'
  have hwf := (transition_step C hostname rnd o.recv hw').wf hw'
  have hgoes := advances_step C hostname rnd o.recv hw' hb'
  generalize tls13HandshakeStep C hostname rnd hs o.recv = o' at hfront hwf hgoes ⊢
  have hlen : o'.recv.length ≤ o.recv.length := by
    obtain ⟨n, hn⟩ := hfront.drop
    rw [hn, List.length_drop]
    exact Nat.sub_le _ _
  cases hgoes with
  | ends h => exact .inr ⟨⟨hwf, hfront.bounded⟩, .inl (h.imp_right .inl)⟩
  | moves h => exact .inr ⟨⟨hwf, hfront.bounded⟩, .inr (by omega)⟩
  | skips hsame h =>
    refine .inr ⟨⟨hwf, hfront.bounded⟩, .inr ?_⟩
    rw [hsame]
    omega
  | waits h hmsg hagain =>
    refine .inr ⟨⟨hwf, hfront.bounded⟩, .inl (.inr (.inr (.inr ⟨h, fun rnd => ?_⟩)))⟩
    rw [HsOut.call, HsCtx.flushed_eq (by omega)]
    exact hagain rnd
  | complete h => exact .inl (.inr (.inr (.inl (hstate.symm.trans h))))

/-- A call that changes nothing is repeated by every further call. -/
theorem call_repeats {o : HsOut}
    (hagain : ∀ rnd, o.call C hostname rnd = ⟨⟨.wantRead, o.hs, []⟩, o.recv⟩)
    (rnds : ℕ → ClientRandom) (n : ℕ) :
    after (HsOut.call C hostname) o rnds (n + 1) = ⟨⟨.wantRead, o.hs, []⟩, o.recv⟩ := by
  induction n with
  | zero => exact hagain _
  | succ n ih =>
    show HsOut.call C hostname (after (HsOut.call C hostname) o rnds (n + 1)) _ = _
    rw [ih]
    exact hagain _

/-! ### Reached contexts -/

/-- What a caller of the driver does with a context. -/
inductive DriverInput
  | step (i : StepInput)
  /-- Bytes of `msg_buf` were sent. -/
  | sent (n : ℕ)

def HsCtx.drive (C : Crypto) (hostname : Bytes) (hs : HsCtx) : DriverInput → HsCtx
  | .step i => (tls13HandshakeStep C hostname i.rnd hs i.recv).hs
  | .sent n => { hs with msgOffset := hs.msgOffset + n }

theorem wf_bounded_of_reach {ok : HsCtx → DriverInput → Prop} {hs₀ : HsCtx}
    (h : Reach (HsCtx.drive C hostname) ok hs₀ hs) (hw : hs₀.Wf) (hb : hs₀.Bounded) :
    hs.Wf ∧ hs.Bounded := by
  refine h.invariant (P := fun hs => hs.Wf ∧ hs.Bounded) ⟨hw, hb⟩ ?_
  rintro hs (i | n) ⟨hw, hb⟩ -
  · exact ⟨(transition_step C hostname i.rnd i.recv hw).wf hw,
      (front_step C hostname i.rnd i.recv hw hb).bounded⟩
  · exact ⟨⟨hw.hrrPending, hw.plainOk⟩, hb.of_plain rfl⟩

/-- **The handshake settles.**  From every reached context and whatever was received, calls in a row
that get no more bytes come to an error, to the fallback, to a complete handshake, or to a wait that
every further call repeats without a change, within eleven calls and one for each byte received; and
the record loop in a call ends. -/
theorem handshake_settles (C : Crypto) (hostname : Bytes) (hasEngine resuming : Bool)
    (offerTicket : Option SessionTicket) (offerObfuscatedAge : ℕ) {hs : HsCtx}
    (h : Reach (HsCtx.drive C hostname) (fun _ _ => True)
      (Session.start hasEngine resuming offerTicket offerObfuscatedAge).hs hs)
    (recv : Bytes) (rnds : ℕ → ClientRandom) :
    let call := after (HsOut.call C hostname) ⟨⟨.ok, hs, []⟩, recv⟩ rnds
    (∃ k ≤ recv.length + 11,
      (call k).res = .error ∨ (call k).res = .fallback12 ∨ (call k).hs.state = .complete ∨
        (call k).res = .wantRead ∧
          ∀ j > k, call j = ⟨⟨.wantRead, (call k).hs, []⟩, (call k).recv⟩) ∧
      ∀ hs recv, ∃ n ≤ recv.length, ReadsIn C n hs recv (tls13ReadEncryptedHs C hs recv) := by
  obtain ⟨hw, hb⟩ := wf_bounded_of_reach h ⟨rfl, Nat.zero_le _⟩
    ⟨Nat.le_refl 0, Nat.zero_le _, Nat.zero_le _, fun _ => rfl⟩
  obtain ⟨k, hk, hsettled⟩ := settles_of_measure (s := (⟨⟨.ok, hs, []⟩, recv⟩ : HsOut))
    (P := fun o => o.hs.Wf ∧ o.hs.Bounded) (μ := fun o => o.hs.stepsLeft + o.recv.length)
    (fun o rnd hinv => settled_or_less C hostname o rnd hinv.1 hinv.2) rnds ⟨hw, hb⟩
  refine ⟨⟨k, ?_, ?_⟩, readHs_ends C⟩
  · have hleft := hs.stepsLeft_le
    have hk : k ≤ hs.stepsLeft + recv.length + 1 := hk
    omega
  · obtain herr | hfall | hdone | ⟨hread, hagain⟩ := hsettled
    · exact .inl herr
    · exact .inr (.inl hfall)
    · exact .inr (.inr (.inl hdone))
    · refine .inr (.inr (.inr ⟨hread, fun j hj => ?_⟩))
      obtain ⟨n, rfl⟩ := Nat.exists_eq_add_of_lt hj
      rw [Nat.add_assoc, after_add]
      exact call_repeats hagain _ n

/-- A change of cipher spec and a byte of a record behind the ClientHello: the second call waits. -/
theorem handshake_settles_ccs :
    let hs := HsCtx.drive .transparent [1] (Session.start true false none 0).hs
      (.step ⟨[], .zero⟩)
    let call := after (HsOut.call .transparent [1]) ⟨⟨.ok, hs, []⟩, [20, 3, 3, 0, 1, 1, 22]⟩
      fun _ => .zero
    (call 2).res = .wantRead ∧ (call 2).recv = [22] ∧ ∃ k ≤ 18,
      (call k).res = .error ∨ (call k).res = .fallback12 ∨ (call k).hs.state = .complete ∨
        (call k).res = .wantRead ∧
          ∀ j > k, call j = ⟨⟨.wantRead, (call k).hs, []⟩, (call k).recv⟩ :=
  ⟨by decide +kernel, by decide +kernel,
    (handshake_settles .transparent [1] true false none 0 (Reach.refl.tail trivial)
      [20, 3, 3, 0, 1, 1, 22] fun _ => .zero).1⟩

end MacTLS
