import MacTLS.Handshake.Reassembly
import MacTLS.Handshake.Transition

/-!
# When the handshake waits for bytes

A step returns `kTLS13_WantRead` in a context that waits: there is no whole message left over.  Such a
context takes the record at the front of the received bytes, or refuses it, as soon as the record is
whole.

* `HsCtx.Waiting` : what a context is in that waits;
* `front_step` : what a step does to the received bytes.
-/

namespace MacTLS

open Lib

variable {C : Crypto} {hs hs' : HsCtx} {recv : Bytes}

/-! ### The plaintext buffer -/

/-- The plaintext buffer and its cursors. -/
def HsCtx.plain (hs : HsCtx) : Bytes × ℕ × ℕ := (hs.plainBuf, hs.plainLen, hs.plainOffset)

theorem HsCtx.Bounded.of_plain (hb : hs.Bounded) (h : hs'.plain = hs.plain) : hs'.Bounded := by
  have hbuf : hs'.plainBuf = hs.plainBuf := congrArg Prod.fst h
  have hlen : hs'.plainLen = hs.plainLen := congrArg (·.2.1) h
  have hoff : hs'.plainOffset = hs.plainOffset := congrArg (·.2.2) h
  refine ⟨?_, ?_, ?_, ?_⟩
  · rw [hoff, hlen]
    exact hb.offset
  · rw [hlen, hbuf]
    exact hb.len
  · rw [hbuf]
    exact hb.size
  · rw [hoff, hlen]
    exact hb.rewound

theorem leftover_of_plain (h : hs'.plain = hs.plain) : hs'.leftover = hs.leftover := by
  have hbuf : hs'.plainBuf = hs.plainBuf := congrArg Prod.fst h
  have hlen : hs'.plainLen = hs.plainLen := congrArg (·.2.1) h
  have hoff : hs'.plainOffset = hs.plainOffset := congrArg (·.2.2) h
  rw [HsCtx.leftover, HsCtx.leftover, hbuf, hlen, hoff]

/-! ### Reading a message -/

/-- The received bytes after at least the record at their front was taken off. -/
def Takes (recv recv' : Bytes) : Prop := ∃ n, 5 + getU16 recv 3 ≤ n ∧ recv' = recv.drop n

/-- What a call of the reader makes of the received bytes. -/
structure ReadFront (hs : HsCtx) (recv : Bytes) (o : ReadOut) : Prop where
  bounded : o.hs.Bounded
  drop : ∃ n, o.recv = recv.drop n
  waits : o.res = .wantRead → ¬HasMessage o.hs.leftover
  takes : ¬HasMessage hs.leftover → o.res = .error ∨ HasRecord recv ∧ Takes recv o.recv ∨
    ¬HasRecord recv ∧ o.res = .wantRead

/-- The rest behind a record at the front. -/
theorem eq_drop_of_isRecord {record rest : Bytes} (h : IsRecord record) :
    rest = (record ++ rest).drop (5 + getU16 (record ++ rest) 3) := by
  obtain ⟨h5, hlen, -⟩ := h
  rw [getU16_append (by omega), ← hlen, List.drop_left]

theorem hasRecord_of_isRecord {record rest : Bytes} (h : IsRecord record) :
    HasRecord (record ++ rest) := by
  obtain ⟨h5, hlen, -⟩ := h
  refine ⟨by rw [List.length_append]; omega, ?_⟩
  rw [getU16_append (by omega), List.length_append]
  omega

theorem readFront_loop {fuel : ℕ} (hfuel : recv.length < fuel) (hb : hs.Bounded) :
    ReadFront hs recv (readHsLoop C fuel hs recv) := by
  induction fuel generalizing hs recv with
  | zero => omega
  | succ fuel ih =>
    have he := extracts_extractHs hb
    unfold readHsLoop
    generalize extractHs hs = e at he ⊢
    obtain ⟨e, hs₁⟩ := e
    cases he with
    | message hmsg hfits hleft hctx hb₁ hbuf =>
      refine ⟨hb₁, ⟨0, rfl⟩, fun h => (by cases h), fun hnone => absurd ?_ hnone⟩
      rw [hleft, HasMessage, List.length_append, declaredLen_header hmsg.1, ← hmsg.2]
      exact ⟨by have := hmsg.1; omega, Nat.le_add_right _ _⟩
    | tooLarge => exact ⟨hb.of_plain rfl, ⟨0, rfl⟩, fun h => (by cases h), fun _ => .inl rfl⟩
    | incomplete hnone hleft hctx hb₁ hoff hbuf =>
      have hnone₁ : ¬HasMessage hs₁.leftover := by rw [hleft]; exact hnone
      have ht := @takesRecord_readHsRecord C _ recv hb₁ hoff
      dsimp only
      generalize readHsRecord C hs₁ recv = r at ht ⊢
      -- a record that was taken, and what the loop makes of the rest
      have hrest : ∀ {record recv' : Bytes} {hs₂ : HsCtx}, IsRecord record →
          recv = record ++ recv' → hs₂.Bounded →
          ReadFront hs recv (readHsLoop C fuel hs₂ recv') := by
        intro record recv' hs₂ hrec hsplit hb₂
        have h5 := hrec.1
        have hlt : recv'.length < fuel := by
          rw [hsplit, List.length_append] at hfuel
          omega
        have hloop := ih hlt hb₂
        obtain ⟨n, hn⟩ := hloop.drop
        have hdrop : recv' = recv.drop (5 + getU16 recv 3) := by
          rw [hsplit]
          exact eq_drop_of_isRecord hrec
        have hn : (readHsLoop C fuel hs₂ recv').recv = recv.drop (5 + getU16 recv 3 + n) :=
          hn.trans (by rw [hdrop, List.drop_drop])
        refine ⟨hloop.bounded, ⟨_, hn⟩, hloop.waits, fun _ => .inr (.inl ⟨?_, _, ?_, hn⟩)⟩
        · rw [hsplit]
          exact hasRecord_of_isRecord hrec
        · exact Nat.le_add_right _ _
      cases ht with
      | wantRead hno =>
        exact ⟨hb₁, ⟨0, rfl⟩, fun _ => hnone₁, fun _ => .inr (.inr ⟨hno, rfl⟩)⟩
      | refused hrec hwhy ha =>
        exact ⟨ha.bounded, ⟨0, rfl⟩, fun h => (by cases h), fun _ => .inl rfl⟩
      | ccs hrec hsplit htype => exact hrest hrec hsplit hb₁
      | @unexpected _ _ recv' _ _ _ hd hct ha =>
        have hdrop := @eq_drop_of_isRecord _ recv' hd.whole
        rw [← hd.split] at hdrop
        exact ⟨ha.bounded, ⟨_, hdrop⟩, fun h => (by cases h), fun _ => .inl rfl⟩
      | handshake hd hoff' ha => exact hrest hd.whole hd.split ha.bounded

/-! ### The handlers -/

/-- A context that waits for bytes: no whole message is left over. -/
def HsCtx.Waiting (hs : HsCtx) : Prop :=
  hs.state = .recvServerHello ∨ hs.state.reads = true ∧
    (hs.state = .recvCertificate → hs.pendingRecvMsgLen = 0) ∧ ¬HasMessage hs.leftover

/-- What a step makes of the received bytes. -/
structure StepFront (hs : HsCtx) (recv : Bytes) (o : HsOut) : Prop where
  bounded : o.hs.Bounded
  drop : ∃ n, o.recv = recv.drop n
  waiting : o.res = .wantRead → o.hs.Waiting
  takes : hs.Waiting → o.res = .error ∨ HasRecord recv ∧ Takes recv o.recv ∨
    ¬HasRecord recv ∧ o.res = .wantRead

/-- Processing a message leaves the plaintext buffer alone, and never waits. -/
structure Processes (hs : HsCtx) (o : Outcome) : Prop where
  plain : o.hs.plain = hs.plain
  res : o.res ≠ .wantRead

theorem Refused.processes {o : Outcome} (h : Refused hs o) : Processes hs o := by
  obtain ⟨err, he⟩ := h.hs
  exact ⟨by rw [he]; rfl, by rw [h.res]; decide⟩

theorem processes_encryptedExtensions (hs : HsCtx) (msg : Bytes) :
    Processes hs (processEncryptedExtensions hs msg) := by
  obtain h | ⟨-, h⟩ := processEncryptedExtensions_cases hs msg
  · exact h.processes
  · rw [h]
    exact ⟨rfl, by simp⟩

theorem processes_certRequestOrCert (hs : HsCtx) (msg : Bytes) :
    Processes hs (processCertRequestOrCert hs msg) := by
  obtain h | ⟨-, h⟩ | ⟨-, h⟩ := processCertRequestOrCert_cases hs msg
  · exact h.processes
  · rw [h]
    exact ⟨rfl, by simp⟩
  · rw [h]
    exact ⟨rfl, by simp⟩

theorem processes_certificate (C : Crypto) (hostname : Bytes) (hs : HsCtx) (msg : Bytes) :
    Processes hs (processCertificate C hostname hs msg) := by
  obtain h | ⟨certs, pkey, -, h⟩ := processCertificate_cases C hostname hs msg
  · exact h.processes
  · rw [h]
    exact ⟨rfl, by simp⟩

theorem processes_certificateVerify (C : Crypto) (hs : HsCtx) (msg : Bytes) :
    Processes hs (processCertificateVerify C hs msg) := by
  obtain h | ⟨key, -, -, h⟩ := processCertificateVerify_cases C hs msg
  · exact h.processes
  · rw [h]
    exact ⟨rfl, by simp⟩

theorem processes_finished (C : Crypto) (hs : HsCtx) (msg : Bytes) :
    Processes hs (processFinished C hs msg) := by
  unfold processFinished
  dsimp only
  split_ifs
  · exact ⟨rfl, by simp [HsCtx.fail]⟩
  · exact ⟨rfl, by simp [HsCtx.fail]⟩
  · exact ⟨rfl, by simp [HsCtx.fail]⟩
  · exact ⟨rfl, by simp [HsCtx.fail]⟩
  · exact ⟨rfl, by simp⟩

theorem front_withMessage {process : HsCtx → Bytes → Outcome} (hreads : hs.state.reads = true)
    (hpend : hs.state = .recvCertificate → hs.pendingRecvMsgLen = 0) (hb : hs.Bounded)
    (hproc : ∀ hs msg, Processes hs (process hs msg)) :
    StepFront hs recv (withMessage C hs recv process) := by
  have hframe := (tls13ReadEncryptedHs_spec C hs recv).1
  have hfront : ReadFront hs recv (tls13ReadEncryptedHs C hs recv) :=
    readFront_loop (Nat.lt_succ_self _) hb
  have hnot : hs.Waiting → ¬HasMessage hs.leftover := by
    rintro (h | ⟨-, -, h⟩)
    · rw [h] at hreads
      cases hreads
    · exact h
  unfold withMessage
  generalize tls13ReadEncryptedHs C hs recv = r at hframe hfront ⊢
  obtain ⟨res, hs₁, recv'⟩ := r
  have hstate : hs₁.state = hs.state := (congrArg HsCtx.state hframe :)
  have hpend₁ : hs₁.pendingRecvMsgLen = hs.pendingRecvMsgLen :=
    (congrArg HsCtx.pendingRecvMsgLen hframe :)
  cases res with
  | message msg =>
    have hp := hproc hs₁ msg
    refine ⟨hfront.bounded.of_plain hp.plain, hfront.drop, fun h => absurd h hp.res, fun hwait => ?_⟩
    obtain h | h | ⟨-, h⟩ := hfront.takes (hnot hwait)
    · cases h
    · exact .inr (.inl h)
    · cases h
  | wantRead =>
    refine ⟨hfront.bounded, hfront.drop, fun _ => .inr ⟨?_, ?_, hfront.waits rfl⟩, fun hwait => ?_⟩
    · rw [hstate]
      exact hreads
    · rw [hstate, hpend₁]
      exact hpend
    · obtain h | h | ⟨h, -⟩ := hfront.takes (hnot hwait)
      · cases h
      · exact .inr (.inl h)
      · exact .inr (.inr ⟨h, rfl⟩)
  | error => exact ⟨hfront.bounded, hfront.drop, fun h => (by cases h), fun _ => .inl rfl⟩

theorem plain_parseServerHello (C : Crypto) (hs : HsCtx) (msg : Bytes) :
    (tls13ParseServerHello C hs msg).hs.plain = hs.plain ∧
      ((tls13ParseServerHello C hs msg).res = .wantRead →
        (tls13ParseServerHello C hs msg).hs.hrrPending = true) := by
  have hp := parsed_tls13ParseServerHello C hs msg
  generalize tls13ParseServerHello C hs msg = o at hp ⊢
  cases hp with
  | refused h hlog =>
    refine ⟨?_, fun hres => ?_⟩
    · rw [HsCtx.plain, h.frame]
      rfl
    · obtain h | ⟨h, -⟩ := h.res <;> rw [h] at hres <;> cases hres
  | retry => exact ⟨rfl, fun _ => rfl⟩
  | accepted => exact ⟨rfl, fun h => by cases h⟩

theorem front_recvServerHello (hst : hs.state = .recvServerHello) :
    let o := tls13StateRecvServerHello C hs recv
    o.hs.plain = hs.plain ∧ (∃ n, o.recv = recv.drop n) ∧
      (o.res = .wantRead → o.hs.hrrPending = true ∨ o.hs.state = .recvServerHello) ∧
      (o.res = .error ∨ HasRecord recv ∧ Takes recv o.recv ∨ ¬HasRecord recv ∧ o.hs = hs ∧
        o.res = .wantRead) := by
  have hwhole : ¬recv.length < 5 → ¬recv.length < 5 + getU16 recv 3 → HasRecord recv :=
    fun h1 h2 => ⟨by omega, by omega⟩
  have htakes : Takes recv (recv.drop (5 + getU16 recv 3)) := ⟨_, Nat.le_refl _, rfl⟩
  unfold tls13StateRecvServerHello
  dsimp only
  split_ifs with h5 htotal hccs halert hhs
  · exact ⟨rfl, ⟨0, rfl⟩, fun _ => .inr hst, .inr (.inr ⟨fun h => by have := h.1; omega, rfl, rfl⟩)⟩
  · exact ⟨rfl, ⟨0, rfl⟩, fun _ => .inr hst, .inr (.inr ⟨fun h => by have := h.2; omega, rfl, rfl⟩)⟩
  · exact ⟨rfl, ⟨_, rfl⟩, fun _ => .inr hst, .inr (.inl ⟨hwhole h5 htotal, htakes⟩)⟩
  · exact ⟨rfl, ⟨_, rfl⟩, fun h => (by cases h), .inr (.inl ⟨hwhole h5 htotal, htakes⟩)⟩
  · exact ⟨rfl, ⟨_, rfl⟩, fun h => (by cases h), .inr (.inl ⟨hwhole h5 htotal, htakes⟩)⟩
  · exact ⟨rfl, ⟨0, rfl⟩, fun h => (by cases h), .inl rfl⟩
  · obtain ⟨hplain, hwant⟩ := plain_parseServerHello C hs (slice recv 5 (getU16 recv 3))
    exact ⟨hplain, ⟨_, rfl⟩, fun h => .inl (hwant h), .inr (.inl ⟨hwhole h5 htotal, htakes⟩)⟩

/-- A step of the state machine takes records off the front of the received bytes, and one that
waits takes the first as soon as it is whole. -/
theorem front_step (C : Crypto) (hostname : Bytes) (rnd : ClientRandom) (recv : Bytes) (hw : hs.Wf)
    (hb : hs.Bounded) : StepFront hs recv (tls13HandshakeStep C hostname rnd hs recv) := by
  -- a step that does not read
  have hother : ∀ {o : Outcome}, ¬hs.Waiting → o.hs.plain = hs.plain → o.res ≠ .wantRead →
      StepFront hs recv ⟨o, recv⟩ := by
    intro o hwait hplain hres
    exact ⟨hb.of_plain hplain, ⟨0, rfl⟩, fun h => absurd h hres, fun h => absurd h hwait⟩
  have hnot : ∀ {st : HsState}, hs.state = st → st ≠ .recvServerHello → st.reads = false →
      ¬hs.Waiting := by
    rintro st rfl hne hreads (h | ⟨h, -⟩)
    · exact hne h
    · rw [hreads] at h
      cases h
  unfold tls13HandshakeStep
  split <;> rename_i hst
  case h_1 =>
    have hwait := hnot hst (by decide) rfl
    have hready : ∀ {hs₁ : HsCtx}, HelloReady hs hs₁ → hs₁.plain = hs.plain := by
      intro hs₁ hr
      rw [HsCtx.plain, hr.frame]
      rfl
    obtain ⟨hres, -, hs₁, e, site, hr, ho⟩ | ⟨hs₁, msg, hr, -, -, ho⟩ :=
      tls13StateSendClientHello_cases C hs hostname rnd
    · have hplain : (tls13StateSendClientHello C hs hostname rnd).hs.plain = hs.plain := by
        rw [ho]
        show hs₁.plain = hs.plain
        obtain rfl | hr := hr
        · rfl
        · exact hready hr
      rw [if_neg (by rw [hres]; simp)]
      exact hother hwait hplain (by rw [hres]; decide)
    · have hplain := hready hr.ready
      rw [ho, if_pos rfl]
      exact hother hwait hplain (by simp)
  case h_2 =>
    dsimp only [tls13StateSendCcs]
    rw [if_pos rfl]
    exact hother (hnot hst (by decide) rfl) rfl (by simp)
  case h_3 =>
    obtain ⟨hplain, hdrop, hwant, htakes⟩ := @front_recvServerHello C _ recv hst
    dsimp only
    generalize tls13StateRecvServerHello C hs recv = o at hplain hdrop hwant htakes ⊢
    have hgoes : ∀ {o' : Outcome}, o'.hs.plain = o.hs.plain → o'.res = .ok →
        (∀ h : o.res = .error, False) → (o.hs = hs → o.res = .wantRead → False) →
        StepFront hs recv ⟨o', o.recv⟩ := by
      intro o' hp hres hne hnw
      refine ⟨hb.of_plain (hp.trans hplain), hdrop, fun h => (by rw [hres] at h; cases h),
        fun _ => ?_⟩
      obtain h | h | ⟨-, h, h'⟩ := htakes
      · exact (hne h).elim
      · exact .inr (.inl h)
      · exact (hnw h h').elim
    split_ifs with hok hretry
    · exact hgoes rfl hok (fun h => by rw [hok] at h; cases h) fun _ h => by rw [hok] at h; cases h
    · refine hgoes rfl rfl (fun h => by rw [hretry.1] at h; cases h) fun h _ => ?_
      have hpend := hretry.2
      rw [h, hw.hrrPending] at hpend
      cases hpend
    · refine ⟨hb.of_plain hplain, hdrop, fun h => .inl ((hwant h).resolve_left fun h' =>
        hretry ⟨h, h'⟩), fun _ => ?_⟩
      obtain h | h | ⟨h, -, h'⟩ := htakes
      · exact .inl h
      · exact .inr (.inl h)
      · exact .inr (.inr ⟨h, h'⟩)
  case h_4 =>
    exact front_withMessage (by rw [hst]; rfl) (by simp [hst]) hb processes_encryptedExtensions
  case h_5 =>
    exact front_withMessage (by rw [hst]; rfl) (by simp [hst]) hb processes_certRequestOrCert
  case h_6 =>
    split_ifs with hpend
    · have hp := processes_certificate C hostname { hs with pendingRecvMsgLen := 0 }
        (hs.msgBuf.take hs.pendingRecvMsgLen)
      refine hother ?_ hp.plain hp.res
      rintro (h | ⟨-, h, -⟩)
      · cases hst.symm.trans h
      · have := h hst
        omega
    · exact front_withMessage (by rw [hst]; rfl) (fun _ => by omega) hb
        (processes_certificate C hostname)
  case h_7 =>
    exact front_withMessage (by rw [hst]; rfl) (by simp [hst]) hb (processes_certificateVerify C)
  case h_8 =>
    exact front_withMessage (by rw [hst]; rfl) (by simp [hst]) hb (processes_finished C)
  case h_9 =>
    rw [tls13StateSendFinished_eq]
    exact hother (hnot hst (by decide) rfl) rfl (by simp)
  case h_10 => exact hother (hnot hst (by decide) rfl) rfl (by simp)

end MacTLS
