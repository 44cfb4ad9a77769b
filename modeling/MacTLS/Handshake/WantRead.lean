import MacTLS.Handshake.Settling

/-!
# What is left in the buffer when the handshake wants more

A driver answers `kTLS13_WantRead` by waiting for the network.  It waits for nothing it already has
when no whole record is left in the buffer.  The record loop of the encrypted states keeps to that;
the ServerHello state returns after the change of cipher spec it skips, whatever is behind it.

* `not_hasRecord_of_readHs` : the record loop;
* `ReturnsAtCcs` : the ServerHello state skips a change of cipher spec in front of a whole record;
* `wantRead_honest_iff` : where a step wants more with a whole record in the buffer.
-/

namespace MacTLS

open Lib

variable {C : Crypto} {hostname : Bytes} {hs : HsCtx} {recv : Bytes}

/-! ### The record loop -/

/-- The record at the front is only left alone while it is not whole. -/
theorem not_hasRecord_of_turn {out : ReadOut} (h : readHsTurn C hs recv = .inl out)
    (hw : out.res = .wantRead) : ¬HasRecord out.recv := by
  unfold readHsTurn at h
  generalize extractHs hs = e at h
  obtain ⟨e, hs₁⟩ := e
  cases e with
  | message msg => cases h; cases hw
  | tooLarge => cases h; cases hw
  | incomplete =>
    dsimp only at h
    unfold readHsRecord at h
    dsimp only at h
    split_ifs at h with h5 htotal
    · cases h
      exact fun hrec : HasRecord recv => absurd hrec.1 (by omega)
    · cases h
      exact fun hrec : HasRecord recv => absurd hrec.2 (by omega)
    · cases h; cases hw
    · cases h; cases hw
    · cases h; cases hw
    · split at h
      · cases h; cases hw
      · split_ifs at h
        cases h; cases hw

/-- A read that wants more has taken every whole record. -/
theorem not_hasRecord_of_readHs (h : (tls13ReadEncryptedHs C hs recv).res = .wantRead) :
    ¬HasRecord (tls13ReadEncryptedHs C hs recv).recv := by
  obtain ⟨n, -, hreads⟩ := readHs_ends C hs recv
  generalize tls13ReadEncryptedHs C hs recv = out at h hreads
  induction hreads with
  | ends hturn => exact not_hasRecord_of_turn hturn h
  | loops hturn hrest ih => exact ih h

/-- So has a handler of encrypted messages, since processing a message never waits. -/
theorem not_hasRecord_of_withMessage {process : HsCtx → Bytes → Outcome}
    (hproc : ∀ hs msg, Processes hs (process hs msg))
    (h : (withMessage C hs recv process).res = .wantRead) :
    ¬HasRecord (withMessage C hs recv process).recv := by
  have hread := @not_hasRecord_of_readHs C hs recv
  unfold withMessage at h ⊢
  generalize tls13ReadEncryptedHs C hs recv = r at h hread ⊢
  obtain ⟨res, hs₁, recv'⟩ := r
  cases res with
  | message msg => exact absurd h (hproc hs₁ msg).res
  | wantRead => exact hread rfl
  | error => cases h

/-! ### The ServerHello state -/

/-- The ServerHello state finds a change of cipher spec at the front of the received bytes, and a
whole record behind it. -/
def ReturnsAtCcs (hs : HsCtx) (recv : Bytes) : Prop :=
  hs.state = .recvServerHello ∧ HasRecord recv ∧ byteAt recv 0 = tls13CtChangeCipherSpec ∧
    HasRecord (recv.drop (5 + getU16 recv 3))

instance (hs : HsCtx) (recv : Bytes) : Decidable (ReturnsAtCcs hs recv) := by
  unfold ReturnsAtCcs
  infer_instance

/-- When the ServerHello handler wants more: before a record is whole, behind a change of cipher
spec, and for the retry. -/
theorem recvServerHello_wantRead (h : (tls13StateRecvServerHello C hs recv).res = .wantRead) :
    let o := tls13StateRecvServerHello C hs recv
    ¬HasRecord recv ∧ o.recv = recv ∨
      byteAt recv 0 = tls13CtChangeCipherSpec ∧ HasRecord recv ∧
        o.recv = recv.drop (5 + getU16 recv 3) ∨
      o.hs.hrrPending = true := by
  unfold tls13StateRecvServerHello at h ⊢
  dsimp only at h ⊢
  split_ifs at h ⊢ with h5 htotal hccs halert hhs
  · exact .inl ⟨fun hrec => absurd hrec.1 (by omega), rfl⟩
  · exact .inl ⟨fun hrec => absurd hrec.2 (by omega), rfl⟩
  · exact .inr (.inl ⟨hccs, ⟨by omega, by omega⟩, rfl⟩)
  · cases h
  · exact .inr (.inr ((plain_parseServerHello C hs _).2 h))

/-- A change of cipher spec is skipped by returning. -/
theorem recvServerHello_ccs (hrec : HasRecord recv)
    (hccs : byteAt recv 0 = tls13CtChangeCipherSpec) :
    tls13StateRecvServerHello C hs recv =
      ⟨⟨.wantRead, hs, []⟩, recv.drop (5 + getU16 recv 3)⟩ := by
  obtain ⟨h5, htotal⟩ := hrec
  unfold tls13StateRecvServerHello
  dsimp only
  rw [if_neg (by omega), if_neg (by omega), if_pos hccs]

/-! ### A step -/

theorem wantRead_of_ccs {rnd : ClientRandom} (hw : hs.Wf) (hst : hs.state = .recvServerHello)
    (hrec : HasRecord recv) (hccs : byteAt recv 0 = tls13CtChangeCipherSpec) :
    tls13HandshakeStep C hostname rnd hs recv =
      ⟨⟨.wantRead, hs, []⟩, recv.drop (5 + getU16 recv 3)⟩ := by
  unfold tls13HandshakeStep
  rw [hst]
  dsimp only
  rw [recvServerHello_ccs hrec hccs, if_neg (by simp), if_neg (by simp [hw.hrrPending])]

theorem not_hasRecord_of_step {rnd : ClientRandom}
    (h : (tls13HandshakeStep C hostname rnd hs recv).res = .wantRead)
    (hccs : ¬ReturnsAtCcs hs recv) :
    ¬HasRecord (tls13HandshakeStep C hostname rnd hs recv).recv := by
  unfold tls13HandshakeStep at h ⊢
  split at h <;> rename_i hst
  case h_1 =>
    dsimp only at h ⊢
    split_ifs at h with hres
    · exact absurd (hres.symm.trans h) (by decide)
    · obtain ⟨hres', -⟩ | ⟨hs₁, msg, -, -, -, ho⟩ := tls13StateSendClientHello_cases C hs hostname rnd
      · exact absurd (hres'.symm.trans h) (by decide)
      · exact absurd (by rw [ho]) hres
  case h_2 =>
    dsimp only [tls13StateSendCcs] at h
    rw [if_pos rfl] at h
    cases h
  case h_3 =>
    have hwant := @recvServerHello_wantRead C hs recv
    dsimp only at h hwant ⊢
    generalize tls13StateRecvServerHello C hs recv = o at h hwant ⊢
    split_ifs at h ⊢ with hok hretry
    · exact absurd (hok.symm.trans h) (by decide)
    · obtain ⟨hno, heq⟩ | ⟨hct, hrec, heq⟩ | hpend := hwant h
      · rw [heq]
        exact hno
      · rw [heq]
        exact fun hmore => hccs ⟨hst, hrec, hct, hmore⟩
      · exact absurd ⟨h, hpend⟩ hretry
  case h_4 => exact not_hasRecord_of_withMessage processes_encryptedExtensions h
  case h_5 => exact not_hasRecord_of_withMessage processes_certRequestOrCert h
  case h_6 =>
    dsimp only at h ⊢
    split_ifs at h ⊢ with hpend
    · exact absurd h (processes_certificate C hostname _ _).res
    · exact not_hasRecord_of_withMessage (processes_certificate C hostname) h
  case h_7 => exact not_hasRecord_of_withMessage (processes_certificateVerify C) h
  case h_8 => exact not_hasRecord_of_withMessage (processes_finished C) h
  case h_9 =>
    rw [tls13StateSendFinished_eq] at h
    cases h
  case h_10 => cases h

/-- **`kTLS13_WantRead`.**  In every reached context and for all received bytes, a step that wants
more leaves no whole record in the buffer, exactly unless the ServerHello state has found a change of
cipher spec with a whole record behind it. -/
theorem wantRead_honest_iff (C : Crypto) (hostname : Bytes) (hasEngine resuming : Bool)
    (offerTicket : Option SessionTicket) (offerObfuscatedAge : ℕ) {hs : HsCtx}
    (h : Reach (HsCtx.drive C hostname) (fun _ _ => True)
      (Session.start hasEngine resuming offerTicket offerObfuscatedAge).hs hs)
    (rnd : ClientRandom) (recv : Bytes) :
    let o := tls13HandshakeStep C hostname rnd hs recv
    (o.res = .wantRead → ¬HasRecord o.recv) ↔ ¬ReturnsAtCcs hs recv := by
  obtain ⟨hw, -⟩ := wf_bounded_of_reach h ⟨rfl, Nat.zero_le _⟩
    ⟨Nat.le_refl 0, Nat.zero_le _, Nat.zero_le _, fun _ => rfl⟩
  refine ⟨fun hhonest ⟨hst, hrec, hccs, hmore⟩ => ?_, fun hccs hres =>
    not_hasRecord_of_step hres hccs⟩
  rw [wantRead_of_ccs hw hst hrec hccs] at hhonest
  exact hhonest rfl hmore

/-- A context that has sent its ClientHello. -/
def awaitsServerHello : HsCtx :=
  HsCtx.drive .transparent [1] (Session.start true false none 0).hs (.step ⟨[], .zero⟩)

theorem reach_awaitsServerHello : Reach (HsCtx.drive .transparent [1]) (fun _ _ => True)
    (Session.start true false none 0).hs awaitsServerHello := by
  unfold awaitsServerHello
  exact Reach.refl.tail trivial

theorem wantRead_honest_iff_partial :
    let o := tls13HandshakeStep .transparent [1] .zero awaitsServerHello [20, 3, 3, 0, 1, 1, 22]
    (o.res = .wantRead → ¬HasRecord o.recv) ↔
      ¬ReturnsAtCcs awaitsServerHello [20, 3, 3, 0, 1, 1, 22] :=
  wantRead_honest_iff .transparent [1] true false none 0 reach_awaitsServerHello .zero
    [20, 3, 3, 0, 1, 1, 22]

/-- A ServerHello right behind a change of cipher spec: the step wants more, with the whole
ServerHello in the buffer. -/
theorem wantRead_dishonest :
    Reach (HsCtx.drive .transparent [1]) (fun _ _ => True) (Session.start true false none 0).hs
        awaitsServerHello ∧
      ¬(let o := tls13HandshakeStep .transparent [1] .zero awaitsServerHello
          ([20, 3, 3, 0, 1, 1] ++ helloX25519 [])
        o.res = .wantRead → ¬HasRecord o.recv) := by
  refine ⟨reach_awaitsServerHello, ?_⟩
  decide +kernel

end MacTLS
