import MacTLS.Handshake.Messages

/-!
# Server authentication

A handshake that completes has authenticated the server by its certificate, or by a PSK that the
client itself offered.  The parser accepts a pre_shared_key extension without looking whether a
PSK was offered, so this holds of the runs in which no server selects one unasked
(`authenticated_of_reach`), and fails beyond them (`unauthenticated_complete`).

* `CertificateVerified` : the chain was validated for the host and its key signed the transcript;
* `PskOffered` : the last ClientHello offered the ticket and the keys come from its PSK;
* `AuthInv` : the invariant that links the parser's flag, the ClientHello and the key schedule.
-/

namespace MacTLS

open Lib

/-! ### What completing means -/

/-- The chain of a received Certificate message was validated under the host name, and the
resulting key signed the transcript up to and with that message. -/
def CertificateVerified (C : Crypto) (hostname : Bytes) (s : Session) : Prop :=
  ∃ certs pkey m before after, CertAccepted C hostname m certs pkey ∧ .received m ∈ s.log ∧
    .endChain hostname (fedChain certs) 0 ∈ s.log ∧
    .vrfy pkey (tls13BuildVerifyContent (C.hash .sha256 (before ++ m))) true ∈ s.log ∧
    s.hs.transcript.data = before ++ m ++ after

/-- A ClientHello with a pre_shared_key extension that names this ticket. -/
def OffersTicket (tk : SessionTicket) (age : ℕ) (m : Bytes) : Prop :=
  ∃ hs exts binder,
    m = clientHelloMessage hs (exts ++ (pskIdentities tk age ++ pskBinders binder))

/-- The ClientHello of an event, if it is one that was sent. -/
def HsEvent.clientHello : HsEvent → Option Bytes
  | .sent m => if byteAt m 0 = tls13HtClientHello then some m else none
  | _ => none

/-- The last ClientHello sent. -/
def lastClientHello (log : List HsEvent) : Option Bytes :=
  (log.filterMap HsEvent.clientHello).getLast?

/-- What an Early Secret was extracted from, if the event is an extraction. -/
def HsEvent.early : HsEvent → Option (Option Bytes)
  | .earlySecret psk => some psk
  | _ => none

/-- The inputs of all extractions of an Early Secret for handshake keys. -/
def earlySecrets (log : List HsEvent) : List (Option Bytes) := log.filterMap HsEvent.early

/-- The last ClientHello sent offered the ticket of the settings, and the one Early Secret ever
extracted for handshake keys comes from that ticket's PSK. -/
def PskOffered (offerTicket : Option SessionTicket) (age : ℕ) (s : Session) : Prop :=
  ∃ tk m, offerTicket = some tk ∧ lastClientHello s.log = some m ∧ OffersTicket tk age m ∧
    earlySecrets s.log = [some tk.psk]

/-- The server of a completed handshake is authenticated. -/
def Authenticated (C : Crypto) (hostname : Bytes) (offerTicket : Option SessionTicket) (age : ℕ)
    (s : Session) : Prop :=
  s.hs.state = .complete → CertificateVerified C hostname s ∨ PskOffered offerTicket age s

/-! ### When it holds -/

/-- The ticket a context offers in its ClientHello: it is resuming, one is set, and its PSK has
the length of a SHA-256 hash. -/
def HsCtx.offers (hs : HsCtx) : Option SessionTicket :=
  if hs.resuming then hs.offerTicket.filter fun tk => tk.psk.length = 32 else none

/-- No server selects a PSK unasked: a ServerHello or HelloRetryRequest in which the parser meets
a well-formed pre_shared_key extension only comes to a context that offers a PSK. -/
def PskSolicited (s : Session) (i : StepInput) : Prop :=
  s.hs.state = .recvServerHello → ∀ msg ∈ helloPayload i.recv,
    (shWalk msg).selectedPsk = true → s.hs.offers ≠ none

/-! ### The invariant -/

/-- The Certificate half of `CertificateVerified`, before the signature is checked. -/
def ChainValidated (C : Crypto) (hostname : Bytes) (s : Session) : Prop :=
  ∃ certs pkey m before, CertAccepted C hostname m certs pkey ∧ .received m ∈ s.log ∧
    .endChain hostname (fedChain certs) 0 ∈ s.log ∧ s.hs.serverPkey = some pkey ∧
    s.hs.transcript.data = before ++ m

/-- The states before a ServerHello is accepted. -/
def HsState.beforeKeys : HsState → Bool
  | .sendClientHello | .sendCcs | .recvServerHello => true
  | _ => false

structure AuthInv (C : Crypto) (hostname : Bytes) (s : Session) : Prop where
  wf : s.hs.Wf
  noCcs : s.hs.state ≠ .sendCcs
  hash : s.hs.transcript.hash = .sha256
  /-- A PSK is only accepted where one is on offer. -/
  solicited : s.hs.resumptionAccepted = true → s.hs.offers ≠ none
  /-- Where one is on offer, the last ClientHello names its ticket. -/
  offered : s.hs.state ≠ .sendClientHello → ∀ tk ∈ s.hs.offers,
    ∃ m, lastClientHello s.log = some m ∧ OffersTicket tk s.hs.offerObfuscatedAge m
  early : earlySecrets s.log = if s.hs.state.beforeKeys then [] else [s.hs.earlyPsk]
  parked : s.hs.pendingRecvMsgLen > 0 →
    .received (s.hs.msgBuf.take s.hs.pendingRecvMsgLen) ∈ s.log ∧
      s.hs.state = .recvCertificate ∧ (s.hs.msgBuf.take s.hs.pendingRecvMsgLen).length =
        declaredLen (s.hs.msgBuf.take s.hs.pendingRecvMsgLen)
  validated : s.hs.state = .recvCertificateVerify → ChainValidated C hostname s
  verified : s.hs.state = .recvFinished ∨ s.hs.state = .sendFinished ∨ s.hs.state = .complete →
    s.hs.resumptionAccepted = false → CertificateVerified C hostname s

theorem offers_eq_of_settings {hs hs' : HsCtx} (h : hs'.settings = hs.settings) :
    hs'.offers = hs.offers ∧ hs'.offerTicket = hs.offerTicket ∧
      hs'.offerObfuscatedAge = hs.offerObfuscatedAge := by
  simp only [HsCtx.settings, Prod.mk.injEq] at h
  obtain ⟨h1, h2, h3⟩ := h
  exact ⟨by rw [HsCtx.offers, HsCtx.offers, h1, h2], h2, h3⟩

/-! ### Steps -/

@[simp] theorem earlySecrets_append (l l' : List HsEvent) :
    earlySecrets (l ++ l') = earlySecrets l ++ earlySecrets l' :=
  List.filterMap_append

theorem lastClientHello_append {l l' : List HsEvent}
    (h : l'.filterMap HsEvent.clientHello = []) :
    lastClientHello (l ++ l') = lastClientHello l := by
  rw [lastClientHello, List.filterMap_append, h, List.append_nil, lastClientHello]

theorem earlyPsk_eq {hs hs' : HsCtx} (hset : hs'.settings = hs.settings)
    (hacc : hs'.resumptionAccepted = hs.resumptionAccepted) : hs'.earlyPsk = hs.earlyPsk := by
  rw [HsCtx.earlyPsk, HsCtx.earlyPsk, hacc, (offers_eq_of_settings hset).2.1]

/-- A refused message leaves neither a ClientHello nor an extraction in the log. -/
theorem Refused.log_filter {hs : HsCtx} {o : Outcome} (h : Refused hs o) :
    o.log.filterMap HsEvent.clientHello = [] ∧ earlySecrets o.log = [] := by
  constructor <;>
  · refine List.filterMap_eq_nil_iff.2 fun ev hev => ?_
    obtain ⟨_, _, _, rfl⟩ | ⟨_, _, rfl⟩ := h.log ev hev <;> rfl

section

variable {C : Crypto} {hostname : Bytes} {s : Session} {hs' : HsCtx} {new : List HsEvent}

theorem CertificateVerified.mono (h : CertificateVerified C hostname s) {m : Bytes}
    (hdata : hs'.transcript.data = s.hs.transcript.data ++ m) :
    CertificateVerified C hostname ⟨hs', s.log ++ new⟩ := by
  obtain ⟨certs, pkey, cert, before, after, hacc, hrec, hend, hvrfy, htr⟩ := h
  refine ⟨certs, pkey, cert, before, after ++ m, hacc, List.mem_append_left _ hrec,
    List.mem_append_left _ hend, List.mem_append_left _ hvrfy, ?_⟩
  rw [hdata, htr, List.append_assoc]

theorem ChainValidated.mono (h : ChainValidated C hostname s)
    (htr : hs'.transcript = s.hs.transcript) (hkey : hs'.serverPkey = s.hs.serverPkey) :
    ChainValidated C hostname ⟨hs', s.log ++ new⟩ := by
  obtain ⟨certs, pkey, cert, before, hacc, hrec, hend, hpk, hdata⟩ := h
  exact ⟨certs, pkey, cert, before, hacc, List.mem_append_left _ hrec,
    List.mem_append_left _ hend, hkey.trans hpk, by rw [htr]; exact hdata⟩

/-- What a step that stays on one side of the ServerHello carries over. -/
theorem AuthInv.carry (h : AuthInv C hostname s) (hwf : hs'.Wf) (hno : hs'.state ≠ .sendCcs)
    (hset : hs'.settings = s.hs.settings) (hkeys : hs'.state.beforeKeys = s.hs.state.beforeKeys)
    (hsent : s.hs.state ≠ .sendClientHello) (hhash : hs'.transcript.hash = s.hs.transcript.hash)
    (hacc : hs'.resumptionAccepted = s.hs.resumptionAccepted)
    (hcl : new.filterMap HsEvent.clientHello = []) (hes : earlySecrets new = [])
    (hpark : hs'.pendingRecvMsgLen > 0 →
      .received (hs'.msgBuf.take hs'.pendingRecvMsgLen) ∈ s.log ++ new ∧
        hs'.state = .recvCertificate ∧ (hs'.msgBuf.take hs'.pendingRecvMsgLen).length =
          declaredLen (hs'.msgBuf.take hs'.pendingRecvMsgLen))
    (hval : hs'.state = .recvCertificateVerify → ChainValidated C hostname ⟨hs', s.log ++ new⟩)
    (hver : hs'.state = .recvFinished ∨ hs'.state = .sendFinished ∨ hs'.state = .complete →
      hs'.resumptionAccepted = false → CertificateVerified C hostname ⟨hs', s.log ++ new⟩) :
    AuthInv C hostname ⟨hs', s.log ++ new⟩ := by
  obtain ⟨hoff, -, hage⟩ := offers_eq_of_settings hset
  refine ⟨hwf, hno, hhash.trans h.hash, ?_, ?_, ?_, hpark, hval, hver⟩
  · rw [hacc, hoff]; exact h.solicited
  · intro _ tk htk
    rw [hoff] at htk
    rw [hage, lastClientHello_append hcl]
    exact h.offered hsent tk htk
  · rw [earlySecrets_append, hes, List.append_nil, h.early, hkeys, earlyPsk_eq hset hacc]

/-- A step that changes nothing the invariant speaks about. -/
theorem AuthInv.frame (h : AuthInv C hostname s) (hwf : hs'.Wf)
    (hset : hs'.settings = s.hs.settings) (hst : hs'.state = s.hs.state)
    (hsent : s.hs.state ≠ .sendClientHello) (htr : hs'.transcript = s.hs.transcript)
    (hacc : hs'.resumptionAccepted = s.hs.resumptionAccepted)
    (hkey : hs'.serverPkey = s.hs.serverPkey)
    (hcl : new.filterMap HsEvent.clientHello = []) (hes : earlySecrets new = [])
    (hpark : hs'.pendingRecvMsgLen = 0) : AuthInv C hostname ⟨hs', s.log ++ new⟩ := by
  refine h.carry hwf (hst ▸ h.noCcs) hset (by rw [hst]) hsent (by rw [htr]) hacc hcl hes ?_ ?_ ?_
  · intro hp; exact absurd hpark (Nat.ne_of_gt hp)
  · intro hs; exact (h.validated (hst ▸ hs)).mono htr hkey
  · intro hs hf
    exact (h.verified (hst ▸ hs) (hacc ▸ hf)).mono (m := []) (by rw [htr, List.append_nil])

end

/-- The ClientHello of a context that offers a ticket carries it. -/
theorem offersTicket_clientHello {C : Crypto} {hs : HsCtx} {hostname : Bytes}
    {tk : SessionTicket} (hhash : hs.transcript.hash = .sha256) (htk : tk ∈ hs.offers) :
    OffersTicket tk hs.offerObfuscatedAge (clientHello C hs hostname) := by
  have hoff : hs.offeredTicket = some tk := by
    rw [HsCtx.offers] at htk
    rw [HsCtx.offeredTicket, Transcript.hashLen, hhash]
    exact htk
  unfold clientHello
  rw [hoff]
  exact ⟨hs, _, _, rfl⟩

/-- Before the keys nothing but the hash, the offer and the flag matters. -/
theorem authInv_beforeKeys {C : Crypto} {hostname : Bytes} {s : Session}
    (hst : s.hs.state = .sendClientHello ∨ s.hs.state = .recvServerHello) (hwf : s.hs.Wf)
    (hhash : s.hs.transcript.hash = .sha256)
    (hsol : s.hs.resumptionAccepted = true → s.hs.offers ≠ none)
    (hoff : s.hs.state ≠ .sendClientHello → ∀ tk ∈ s.hs.offers,
      ∃ m, lastClientHello s.log = some m ∧ OffersTicket tk s.hs.offerObfuscatedAge m)
    (hes : earlySecrets s.log = []) (hpark : s.hs.pendingRecvMsgLen = 0) :
    AuthInv C hostname s := by
  refine ⟨hwf, ?_, hhash, hsol, hoff, ?_, ?_, ?_, ?_⟩
  · obtain h | h := hst <;> simp [h]
  · rw [hes]; obtain h | h := hst <;> simp [h, HsState.beforeKeys]
  · intro hp; exact absurd hpark (Nat.ne_of_gt hp)
  · obtain h | h := hst <;> simp [h]
  · obtain h | h := hst <;> simp [h]

/-- One step in which no PSK is selected unasked keeps the invariant. -/
theorem authInv_step {C : Crypto} {hostname : Bytes} {s : Session} {i : StepInput}
    (h : AuthInv C hostname s) (hok : PskSolicited s i) :
    AuthInv C hostname (s.step C hostname i) := by
  have ht := transition_step C hostname i.rnd i.recv h.wf
  have hwf := ht.wf h.wf
  have hset := ht.settings
  -- a message is parked only where the certificate is awaited
  have hpend0 : s.hs.state ≠ .recvCertificate → s.hs.pendingRecvMsgLen = 0 := fun hne => by
    by_contra h0
    exact hne (h.parked (Nat.pos_of_ne_zero h0)).2.1
  have hearly : s.hs.state.beforeKeys = true → earlySecrets s.log = [] := fun hb => by
    rw [h.early, if_pos hb]
  unfold Session.step Session.out
  dsimp only
  generalize (tls13HandshakeStep C hostname i.rnd s.hs i.recv).toOutcome = o at ht hwf hset
  cases ht with
  | quiet hst hsame hpend hr hlog =>
    have h0 : s.hs.pendingRecvMsgLen = 0 := by
      by_cases hc : s.hs.state = .recvCertificate
      · exact hpend hc
      · exact hpend0 hc
    rw [hlog]
    exact h.frame hwf hset hr.state hst hr.transcript hr.resumptionAccepted hr.serverPkey rfl rfl
      (hr.pendingRecvMsgLen.trans h0)
  -- the hello was not built, or the send failed: nothing was recorded
  | notSent hst hres hr hlog =>
    have h0 := hpend0 (by simp [hst])
    obtain ⟨hoff, -, -⟩ := offers_eq_of_settings hset
    have hb := hearly (by rw [hst]; rfl)
    rw [hlog, List.append_nil]
    have hcore : o.hs.state = .sendClientHello ∧ o.hs.transcript.hash = .sha256 ∧
        o.hs.resumptionAccepted = s.hs.resumptionAccepted ∧ o.hs.pendingRecvMsgLen = 0 := by
      obtain ⟨hs₁, e, site, rfl | hr, ho⟩ := hr
      · rw [ho]; exact ⟨hst, h.hash, rfl, h0⟩
      · have h1 : hs₁.state = s.hs.state := (congrArg HsCtx.state hr.frame :)
        have h2 : hs₁.resumptionAccepted = s.hs.resumptionAccepted :=
          (congrArg HsCtx.resumptionAccepted hr.frame :)
        have h3 : hs₁.pendingRecvMsgLen = s.hs.pendingRecvMsgLen :=
          (congrArg HsCtx.pendingRecvMsgLen hr.frame :)
        have h4 : hs₁.transcript.hash = .sha256 := by
          rw [hr.transcript]; split_ifs
          · exact h.hash
          · rfl
        rw [ho]
        exact ⟨h1.trans hst, h4, h2, h3.trans h0⟩
    obtain ⟨h1, h2, h3, h4⟩ := hcore
    exact authInv_beforeKeys (.inl h1) hwf h2 (by rw [h3, hoff]; exact h.solicited)
      (fun hne => absurd h1 hne) hb h4
  -- the hello that went out offers the tickets it was built with
  | @clientHello hs₁ msg hst hr hmsg hfit =>
    have h0 := hpend0 (by simp [hst])
    obtain ⟨hoff, -, -⟩ := offers_eq_of_settings hset
    have hb := hearly (by rw [hst]; rfl)
    have hhash : hs₁.transcript.hash = .sha256 := by
      rw [hr.transcript]; split_ifs
      · exact h.hash
      · rfl
    have h2 : hs₁.resumptionAccepted = s.hs.resumptionAccepted :=
      (congrArg HsCtx.resumptionAccepted hr.frame :)
    have h3 : hs₁.pendingRecvMsgLen = 0 :=
      (congrArg HsCtx.pendingRecvMsgLen hr.frame :).trans h0
    subst hmsg
    refine authInv_beforeKeys (.inr rfl) hwf hhash ?_ ?_ ?_ h3
    · intro hacc
      rw [hoff]
      exact h.solicited (h2.symm.trans hacc)
    · intro _ tk htk
      have htk' : tk ∈ hs₁.offers := htk
      refine ⟨clientHello C hs₁ hostname, ?_, (offersTicket_clientHello hhash htk' :)⟩
      have htype : byteAt (clientHello C hs₁ hostname) 0 = tls13HtClientHello := by
        obtain ⟨body, -, hb⟩ := isMessage_clientHello hfit
        rw [hb]; rfl
      simp [lastClientHello, HsEvent.clientHello, htype]
    · rw [earlySecrets_append, hb]; rfl
  | ccs hst => exact absurd hst h.noCcs
  -- a ServerHello may be refused after its extensions set `resumption_accepted`
  | @helloRefused msg _ hst hpay hrf hlog =>
    have h0 := hpend0 (by simp [hst])
    obtain ⟨hoff, -, hage⟩ := offers_eq_of_settings hset
    have hb := hearly (by rw [hst]; rfl)
    have hst' : o.hs.state = .recvServerHello :=
      (congrArg HsCtx.state hrf.frame :).trans hst
    refine authInv_beforeKeys (.inr hst') hwf ?_ ?_ ?_ ?_
      ((congrArg HsCtx.pendingRecvMsgLen hrf.frame :).trans h0)
    · obtain htr | ⟨-, htr⟩ := hrf.transcript <;> rw [htr] <;> exact h.hash
    · dsimp only
      rw [hrf.accepted, hoff, Bool.or_eq_true]
      rintro (hacc | hsel)
      · exact h.solicited hacc
      · exact hok hst msg hpay hsel
    · intro _ tk htk
      dsimp only at htk ⊢
      rw [hoff] at htk
      rw [hlog, hage, lastClientHello_append rfl]
      exact h.offered (by simp [hst]) tk htk
    · rw [hlog, earlySecrets_append, hb]; rfl
  | @helloRetry msg suite group hst hpay hf hfirst =>
    have h0 := hpend0 (by simp [hst])
    have hb := hearly (by rw [hst]; rfl)
    refine authInv_beforeKeys (.inl rfl) hwf h.hash ?_ (fun hne => absurd rfl hne) ?_ h0
    · intro hacc
      obtain hacc | hsel := (Bool.or_eq_true _ _).mp hacc
      · exact h.solicited hacc
      · exact hok hst msg hpay hsel
    · rw [earlySecrets_append, hb]; rfl
  | @serverHello msg suite shared hst hpay hacc =>
    have h0 := hpend0 (by simp [hst])
    have hb := hearly (by rw [hst]; rfl)
    refine ⟨hwf, by simp, h.hash, ?_, ?_, ?_, ?_, by simp, by simp⟩
    · intro hra
      obtain hra | hsel := (Bool.or_eq_true _ _).mp hra
      · exact h.solicited hra
      · exact hok hst msg hpay hsel
    · intro _ tk htk
      dsimp only
      rw [lastClientHello_append rfl]
      exact h.offered (by simp [hst]) tk htk
    · rw [earlySecrets_append, hb]; rfl
    · intro hp; exact absurd h0 (Nat.ne_of_gt hp)
  -- a refused message changes the error only, whatever was awaited
  | @refused hs₁ msg q _ hst hpend hr hup hrf ho =>
    have h0 : s.hs.pendingRecvMsgLen = 0 := by
      by_cases hc : s.hs.state = .recvCertificate
      · exact hpend hc
      · exact hpend0 hc
    obtain ⟨e, he⟩ := hrf.hs
    obtain ⟨hcl, hes⟩ := hrf.log_filter
    have hq : o.hs = { hs₁ with error := e } := by rw [ho, ← he]
    have hlog : o.log = .received msg :: q.log := by rw [ho]
    rw [hlog]
    have hne : s.hs.state ≠ .sendClientHello := fun h => by simp [h, HsState.reads] at hst
    exact h.frame hwf hset (by rw [hq]; exact hr.state) hne (by rw [hq]; exact hr.transcript)
      (by rw [hq]; exact hr.resumptionAccepted) (by rw [hq]; exact hr.serverPkey) hcl hes
      (by rw [hq]; exact hr.pendingRecvMsgLen.trans h0)
  | parkedRefused hst hpend hrf =>
    obtain ⟨e, he⟩ := hrf.hs
    obtain ⟨hcl, hes⟩ := hrf.log_filter
    exact h.frame hwf hset (by rw [he]) (by simp [hst]) (by rw [he]) (by rw [he]) (by rw [he])
      hcl hes (by rw [he])
  -- with an accepted ticket the certificate is skipped, and `Finished` is awaited
  | @encryptedExtensions hs₁ msg hst hr hup htype =>
    have h0 := hr.pendingRecvMsgLen.trans (hpend0 (by simp [hst]))
    have hstate : ∀ b : Bool, (if b then HsState.recvFinished else .recvCertRequestOrCert) =
        .recvFinished ∧ b = true ∨ (if b then HsState.recvFinished else .recvCertRequestOrCert) =
        .recvCertRequestOrCert := by decide
    refine h.carry hwf ?_ hset ?_ (by simp [hst])
      (hr.update_hash hup) hr.resumptionAccepted rfl rfl
      (fun hp => absurd h0 (Nat.ne_of_gt hp)) ?_ ?_
    all_goals obtain ⟨hs, hb⟩ | hs := hstate hs₁.resumptionAccepted <;> dsimp only <;> rw [hs]
    all_goals try simp [hst, HsState.beforeKeys]
    intro hf
    have hf' : hs₁.resumptionAccepted = false := hf
    rw [hb] at hf'; cases hf'
  | @certificateRequest hs₁ msg hst hr hup htype =>
    have h0 := hr.pendingRecvMsgLen.trans (hpend0 (by simp [hst]))
    exact h.carry hwf (by simp) hset (by rw [hst]; rfl) (by simp [hst])
      (hr.update_hash hup) hr.resumptionAccepted rfl rfl
      (fun hp => absurd h0 (Nat.ne_of_gt hp)) (by simp) (by simp)
  -- no certificate request came: the certificate is kept for the next step
  | @certificateParked hs₁ msg hst hr hup htype =>
    refine h.carry hwf (by simp) hset (by rw [hst]; rfl) (by simp [hst])
      (congrArg Transcript.hash hr.transcript :) hr.resumptionAccepted rfl rfl ?_ (by simp) (by simp)
    intro _
    dsimp only
    rw [hup.msgBuf]
    exact ⟨by simp, rfl, hup.length⟩
  -- the parked message is recorded already, and ends the transcript from here on
  | @parkedCertificate certs pkey hst hpend hacc =>
    obtain ⟨hrec, -, hlen⟩ := h.parked hpend
    refine h.carry hwf (by simp) hset (by rw [hst]; rfl) (by simp [hst]) rfl rfl rfl rfl
      (by simp [HsCtx.update]) ?_ (by simp)
    intro _
    refine ⟨certs, pkey, _, s.hs.transcript.data, hacc, List.mem_append_left _ hrec, by simp, rfl, ?_⟩
    dsimp only
    rw [HsCtx.update, ← hlen, List.take_length]
    rfl
  | @certificate hs₁ msg certs pkey hst hpend hr hup hacc =>
    refine h.carry hwf (by simp) hset (by rw [hst]; rfl) (by simp [hst])
      (hr.update_hash hup) hr.resumptionAccepted rfl rfl
      (fun hp => absurd (hr.pendingRecvMsgLen.trans hpend) (Nat.ne_of_gt hp)) ?_ (by simp)
    intro _
    exact ⟨certs, pkey, msg, s.hs.transcript.data, hacc, by simp, by simp, rfl,
      hr.update_data hup⟩
  -- the key that verified is the one of the validated chain
  | @certificateVerify hs₁ msg key hst hr hup htype hkey =>
    have h0 := hr.pendingRecvMsgLen.trans (hpend0 (by simp [hst]))
    refine h.carry hwf (by simp) hset (by rw [hst]; rfl) (by simp [hst])
      (hr.update_hash hup) hr.resumptionAccepted rfl rfl
      (fun hp => absurd h0 (Nat.ne_of_gt hp)) (by simp) ?_
    intro _ _
    obtain ⟨certs, pkey, cert, before, hacc, hrec, hend, hpk, hdata⟩ := h.validated hst
    obtain rfl : key = pkey := by
      rw [hr.serverPkey, hpk] at hkey
      exact (Option.some.inj hkey).symm
    refine ⟨certs, key, cert, before, msg, hacc, List.mem_append_left _ hrec,
      List.mem_append_left _ hend, ?_, ?_⟩
    · rw [hr.transcript, tls13TranscriptSnapshot, h.hash, hdata]
      simp
    · exact (hr.update_data hup).trans (by rw [hdata])
  | @serverFinished hs₁ msg hst hr hup hmsg =>
    have h0 := hr.pendingRecvMsgLen.trans (hpend0 (by simp [hst]))
    refine h.carry hwf (by simp [installServerAppKeys]) hset (by rw [hst]; rfl) (by simp [hst])
      (hr.update_hash hup) hr.resumptionAccepted rfl rfl
      (fun hp => absurd h0 (Nat.ne_of_gt hp)) (by simp [installServerAppKeys]) ?_
    intro _ hf
    exact (h.verified (.inl hst) (hr.resumptionAccepted.symm.trans hf)).mono
      (hr.update_data hup)
  | clientFinished hst =>
    have h0 := hpend0 (by simp [hst])
    refine h.carry hwf (by simp [installClientAppKeys]) hset (by rw [hst]; rfl) (by simp [hst])
      rfl rfl rfl rfl (fun hp => absurd h0 (Nat.ne_of_gt hp)) (by simp [installClientAppKeys]) ?_
    intro _ hf
    exact (h.verified (.inr (.inl hst)) hf).mono (m := clientFinished C s.hs) rfl

/-! ### Runs -/

theorem authInv_start (C : Crypto) (hostname : Bytes) (hasEngine resuming : Bool)
    (offerTicket : Option SessionTicket) (age : ℕ) :
    AuthInv C hostname (Session.start hasEngine resuming offerTicket age) :=
  authInv_beforeKeys (.inl rfl) ⟨rfl, Nat.le_refl 0⟩ rfl (fun h => by cases h)
    (fun h => absurd rfl h) rfl rfl

/-- The settings at the end of a run are those it started with. -/
theorem settings_of_reach {C : Crypto} {hostname : Bytes} {s₀ s : Session} (hw : s₀.hs.Wf)
    (h : Reach (Session.step C hostname) (fun _ _ => True) s₀ s) :
    s.hs.Wf ∧ s.hs.settings = s₀.hs.settings := by
  refine h.invariant (P := fun s => s.hs.Wf ∧ s.hs.settings = s₀.hs.settings) ⟨hw, rfl⟩ ?_
  rintro s i ⟨hw, hset⟩ -
  have ht := transition_step C hostname i.rnd i.recv hw
  exact ⟨ht.wf hw, ht.settings.trans hset⟩

theorem authenticated_of_authInv {C : Crypto} {hostname : Bytes} {s : Session}
    (h : AuthInv C hostname s) :
    Authenticated C hostname s.hs.offerTicket s.hs.offerObfuscatedAge s := by
  intro hst
  cases hacc : s.hs.resumptionAccepted with
  | false => exact .inl (h.verified (.inr (.inr hst)) hacc)
  | true =>
    obtain ⟨tk, htk⟩ := Option.ne_none_iff_exists'.1 (h.solicited hacc)
    obtain ⟨m, hm, hoff⟩ := h.offered (by simp [hst]) tk htk
    have htick : s.hs.offerTicket = some tk := by
      rw [HsCtx.offers] at htk
      split_ifs at htk
      exact (Option.filter_eq_some_iff.1 htk).1
    refine .inr ⟨tk, m, htick, hm, hoff, ?_⟩
    rw [h.early, HsCtx.earlyPsk, if_pos hacc, htick, hst]
    rfl

/-- **Server authentication.**  In every run in which no server selects a PSK unasked, a completed
handshake verified the server's certificate and signature, or resumed with the PSK that the last
ClientHello offered.  The steps of the run are arbitrary: they may go on after errors, and get any
bytes. -/
theorem authenticated_of_reach (C : Crypto) (hostname : Bytes) (hasEngine resuming : Bool)
    (offerTicket : Option SessionTicket) (age : ℕ) {s : Session}
    (h : Reach (Session.step C hostname) PskSolicited
      (Session.start hasEngine resuming offerTicket age) s) :
    Authenticated C hostname offerTicket age s := by
  have hinv : AuthInv C hostname s :=
    h.invariant (authInv_start C hostname hasEngine resuming offerTicket age)
      fun _ _ => authInv_step
  obtain ⟨-, hset⟩ := @settings_of_reach _ hostname _ _
    (authInv_start C hostname hasEngine resuming offerTicket age).wf (h.mono fun _ _ _ => trivial)
  obtain ⟨-, h2, h3⟩ := offers_eq_of_settings hset
  have := authenticated_of_authInv hinv
  rwa [h2, h3] at this

/-! ### Two servers -/

/-- An encrypted record in which the server sends a message, under the key the session reads
with. -/
def serverSays (C : Crypto) (msg : Session → Bytes) (s : Session) : StepInput :=
  ⟨applicationRecord (tls13RecordEncrypt C s.hs.readCtx (msg s) tls13CtHandshake).2, .zero⟩

/-- A server with the one certificate, and the key that goes with it. -/
def certifiedServer (C : Crypto) (cert : Bytes) : List (Session → StepInput) :=
  [receive [], receive (helloX25519 []),
    serverSays C fun _ => hsMessage tls13HtEncryptedExtensions [0, 0],
    serverSays C fun _ => hsMessage tls13HtCertificate
      ([0] ++ putU24 (cert.length + 5) ++ putU24 cert.length ++ cert ++ [0, 0]),
    receive [],
    serverSays C fun s => hsMessage tls13HtCertificateVerify
      (let sig := C.hash .sha256
        (tls13BuildVerifyContent (tls13TranscriptSnapshot C s.hs.transcript))
       putU16s [tls13SigEcdsaSecp256r1Sha256, sig.length] ++ sig),
    serverSays C fun s => hsMessage tls13HtFinished (serverVerifyData C s.hs),
    receive []]

/-- A server that selects a PSK nobody offered, and goes on from EncryptedExtensions to its
Finished: it needs no certificate and knows no PSK. -/
def impostor (C : Crypto) : List (Session → StepInput) :=
  [receive [], receive (helloX25519 (extension tls13ExtPreSharedKey [0, 0])),
    serverSays C fun _ => hsMessage tls13HtEncryptedExtensions [0, 0],
    serverSays C fun s => hsMessage tls13HtFinished (serverVerifyData C s.hs),
    receive []]

instance (s : Session) (i : StepInput) : Decidable (PskSolicited s i) :=
  decidable_of_iff (s.hs.state = .recvServerHello → ((helloPayload i.recv).all fun msg =>
      !(shWalk msg).selectedPsk || s.hs.offers.isSome) = true) <| by
    unfold PskSolicited
    refine imp_congr_right fun _ => ?_
    cases helloPayload i.recv <;> cases s.hs.offers <;> simp

theorem authenticated_certifiedServer :
    let s := play (Session.step .transparent [1]) (Session.start true false none 0)
      (certifiedServer .transparent [1])
    s.hs.state = .complete ∧ Authenticated .transparent [1] none 0 s :=
  ⟨by decide +kernel, authenticated_of_reach .transparent [1] true false none 0
    (reach_play (by decide +kernel))⟩

/-- The events that vouch for a certificate. -/
def HsEvent.isEndChain : HsEvent → Bool
  | .endChain .. => true
  | _ => false

/-- The impostor completes a handshake: without the condition on the server's choice nothing is
authenticated. -/
theorem unauthenticated_complete :
    ¬∀ (C : Crypto) (hostname : Bytes) (hasEngine resuming : Bool)
      (offerTicket : Option SessionTicket) (age : ℕ) (s : Session),
      Reach (Session.step C hostname) (fun _ _ => True)
        (Session.start hasEngine resuming offerTicket age) s →
      Authenticated C hostname offerTicket age s := by
  intro h
  let s := play (Session.step .transparent [1]) (Session.start true false none 0)
    (impostor .transparent)
  have hs : Authenticated .transparent [1] none 0 s :=
    h .transparent [1] true false none 0 s (reach_play (by decide))
  have hcomplete : s.hs.state = .complete := by decide +kernel
  have hnone : s.log.any HsEvent.isEndChain = false := by decide +kernel
  obtain ⟨certs, pkey, m, before, after, -, -, hend, -⟩ | ⟨tk, m, htk, -⟩ := hs hcomplete
  · exact absurd (List.any_eq_true.2 ⟨_, hend, rfl⟩) (by rw [hnone]; simp)
  · cases htk

end MacTLS
