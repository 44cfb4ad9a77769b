import MacTLS.Handshake.Keys
import MacTLS.Handshake.Retry
import MacTLS.Handshake.Sending

/-!
# What was negotiated

The suite, the version and the group of a handshake are decided by up to two messages of the
server.  Once a ServerHello was accepted they agree with the last ClientHello and with each other.

* `Offers` : what a ClientHello offers, as a server reads it;
* `Negotiated` : the accepted ServerHello against the last ClientHello;
* `SuiteInUse` : everything that depends on the suite is that of one suite;
* `negotiated_of_reach` : in every run, from the accepted ServerHello on.
-/

namespace MacTLS

open Lib Lib.Hkdf

/-! ### The offer and the answer -/

/-- The groups of every ClientHello. -/
def offeredGroups : List ℕ := [tls13GroupX25519, tls13GroupSecp256r1, tls13GroupSecp384r1]

/-- A ClientHello offers the TLS 1.3 suites and the groups, with a share for one of them. -/
structure Offers (ch : Bytes) (group : ℕ) : Prop where
  offer : ∃ hello pub, rawClientHello ch = some hello ∧
    hello.suites = tls13CipherSuites ++ tls12CipherSuites ∧
    (tls13ExtSupportedGroups, putU16 6 ++ putU16s offeredGroups) ∈ hello.extensions ∧
    ∀ data, (tls13ExtKeyShare, data) ∈ hello.extensions ↔ data = keyShareData group pub
  group : group ∈ offeredGroups

/-- A ServerHello of TLS 1.3 was received for an offered suite, and for the group of the key share
in the last ClientHello. -/
structure Negotiated (s : Session) : Prop where
  suite : s.hs.cipherSuite ∈ tls13CipherSuites
  offers : ∃ ch, lastClientHello s.log = some ch ∧ Offers ch s.hs.ecdheGroup
  answer : ∃ p random es, .received (helloMessage p) ∈ s.log ∧ random ≠ hrrRandom ∧
    HelloPayload p random s.hs.cipherSuite es ∧
    (lastData tls13ExtSupportedVersions es).map (getU16 · 0) = some tls13Version ∧
    (lastData tls13ExtKeyShare es).map (getU16 · 0) = some s.hs.ecdheGroup

/-- The hashes, the keys and the record contexts are those of the suite. -/
structure SuiteInUse (hs : HsCtx) : Prop where
  keysched : hs.ks.hash = tls13HashForSuite hs.cipherSuite
  transcript : hs.transcript.hash = tls13HashForSuite hs.cipherSuite
  read : hs.readCtx.cipherSuite = hs.cipherSuite
  write : hs.writeCtx.cipherSuite = hs.cipherSuite
  readKey : hs.readCtx.key.length = tls13KeyLenForSuite hs.cipherSuite
  writeKey : hs.writeCtx.key.length = tls13KeyLenForSuite hs.cipherSuite

theorem mem_tls13CipherSuites {suite : ℕ} (h : SuiteOk suite) : suite ∈ tls13CipherSuites := by
  have hhash := h.hash
  have hkey := h.keyLen
  unfold tls13HashForSuite at hhash
  unfold tls13KeyLenForSuite at hkey
  split_ifs at hhash hkey with h1 h2 h3
  · simp [tls13CipherSuites, h2]
  · obtain rfl | rfl := h3
    · exact absurd rfl h1
    · simp [tls13CipherSuites]
  · simp at hkey

theorem mem_offeredGroups {group : ℕ} (h : tls13BrCurveForGroup group ≠ 0) :
    group ∈ offeredGroups := by
  unfold tls13BrCurveForGroup at h
  split_ifs at h <;> simp_all [offeredGroups]

/-- What a context offers in a ClientHello that fits. -/
theorem offers_clientHello {C : Crypto} {hostname : Bytes} {hs : HsCtx} (hcap : hs.Captured)
    (hhash : hs.transcript.hash = .sha256)
    (hfit : (clientHelloRecord (clientHello C hs hostname)).length ≤ hsBufSize)
    (hgroup : tls13BrCurveForGroup hs.ecdheGroup ≠ 0) :
    Offers (clientHello C hs hostname) hs.ecdheGroup := by
  refine ⟨⟨_, hs.ecdhePublic, rawClientHello_clientHello hcap hhash hfit, rfl, ?_,
    mem_keyShare C hs hostname⟩, mem_offeredGroups hgroup⟩
  simp [rawCommon, offeredGroups]

/-! ### The contexts -/

theorem length_trafficKey (C : Crypto) (secret : Bytes) {suite : ℕ} (h : SuiteOk suite) :
    (trafficCtx C secret suite).key.length = tls13KeyLenForSuite suite :=
  C.sha256Schedule.length_expandLabel h.keyLen_le

/-- At every stage the contexts are those of the suite. -/
theorem KeysAt.suiteInUse {C : Crypto} {psk : Option Bytes} {dhe hello : Bytes} {hs : HsCtx}
    (h : KeysAt C psk dhe hello hs) (hz : hs.Sized) (hks : hs.ks.hash = .sha256) :
    SuiteInUse hs := by
  have hctx : ∀ {ctx : RecordCtx} {secret : Bytes} {seq : ℕ}, SuiteOk hs.cipherSuite →
      ctx = { trafficCtx C secret hs.cipherSuite with seq } →
        ctx.cipherSuite = hs.cipherSuite ∧ ctx.key.length = tls13KeyLenForSuite hs.cipherSuite := by
    rintro _ secret seq hsuite rfl
    exact ⟨rfl, length_trafficKey C secret hsuite⟩
  have hall : SuiteOk hs.cipherSuite →
      (∃ secret seq, hs.readCtx = { trafficCtx C secret hs.cipherSuite with seq }) →
      (∃ secret seq, hs.writeCtx = { trafficCtx C secret hs.cipherSuite with seq }) →
        SuiteInUse hs := by
    rintro hsuite ⟨_, _, hread⟩ ⟨_, _, hwrite⟩
    obtain ⟨hr, hrk⟩ := hctx hsuite hread
    obtain ⟨hw, hwk⟩ := hctx hsuite hwrite
    exact ⟨hks.trans hsuite.hash.symm, hz.hash.trans hsuite.hash.symm, hr, hw, hrk, hwk⟩
  unfold KeysAt at h
  split at h
  · exact h.elim
  · exact h.elim
  · exact h.elim
  · obtain ⟨before, h⟩ := h
    exact hall h.suite ⟨_, 0, h.read⟩ ⟨_, 0, h.write⟩
  · obtain ⟨before, h⟩ := h
    exact hall h.suite ⟨_, 0, h.read⟩ ⟨_, 0, h.write⟩
  · exact hall h.suite ⟨_, _, h.read⟩ ⟨_, 0, h.write⟩

/-! ### Runs -/

/-- What every run keeps. -/
structure NegotiationInv (C : Crypto) (s : Session) : Prop where
  wf : s.hs.Wf
  sized : s.hs.Sized
  noCcs : s.hs.state ≠ .sendCcs
  captured : s.hs.state.beforeKeys = true → s.hs.Captured
  offered : s.hs.state = .recvServerHello →
    ∃ ch, lastClientHello s.log = some ch ∧ Offers ch s.hs.ecdheGroup
  agreed : s.hs.state.beforeKeys = false → Negotiated s ∧ s.hs.ks.hash = .sha256 ∧
    ∃ psk dhe hello, KeysAt C psk dhe hello s.hs

/-- What was agreed on stays. -/
theorem Negotiated.mono {s : Session} {hs' : HsCtx} {new : List HsEvent} (h : Negotiated s)
    (hsuite : hs'.cipherSuite = s.hs.cipherSuite) (hgroup : hs'.ecdheGroup = s.hs.ecdheGroup)
    (hlog : new.filterMap HsEvent.clientHello = []) : Negotiated ⟨hs', s.log ++ new⟩ := by
  obtain ⟨hmem, hoffers, p, random, es, hrec, hrandom, hpay, hversion, hshare⟩ := h
  refine ⟨hsuite ▸ hmem, ?_, p, random, es, List.mem_append_left _ hrec, hrandom, hsuite ▸ hpay,
    hversion, hgroup ▸ hshare⟩
  rw [lastClientHello_append hlog, hgroup]
  exact hoffers

/-- The ServerHello that is accepted agrees with the last ClientHello. -/
theorem HelloAccepted.negotiated {C : Crypto} {s : Session} {p : Bytes} {suite : ℕ} {shared : Bytes}
    {hs' : HsCtx} {new : List HsEvent} (h : HelloAccepted C s.hs p suite shared)
    (hoffers : ∃ ch, lastClientHello s.log = some ch ∧ Offers ch s.hs.ecdheGroup)
    (hhash : s.hs.transcript.hash = .sha256) (hsuite : hs'.cipherSuite = suite)
    (hgroup : hs'.ecdheGroup = s.hs.ecdheGroup) (hrec : .received (helloMessage p) ∈ new)
    (hlog : new.filterMap HsEvent.clientHello = []) : Negotiated ⟨hs', s.log ++ new⟩ := by
  obtain ⟨pos, e, hhead, hx⟩ := h.fields
  obtain ⟨hhrr, es, hpay, hread⟩ := helloPayload_of_shExtLoop hhead hx
  obtain ⟨hversion, hshare, -⟩ := readExtensions_fields hread
  refine ⟨?_, ?_, p, _, es, List.mem_append_right _ hrec, ?_, hsuite ▸ hpay, ?_, ?_⟩
  · rw [show hs'.cipherSuite = suite from hsuite]
    exact mem_tls13CipherSuites (suiteOk_of (h.hash.trans hhash) h.keyLen)
  · rw [lastClientHello_append hlog, hgroup]
    exact hoffers
  · intro heq
    cases hhrr.2 heq
  · rw [← hversion, h.version]
  · rw [← hshare, h.group, hgroup]

/-- Before the keys only what a ClientHello needs matters, and what the last one offered. -/
theorem negotiationInv_before {C : Crypto} {s : Session} (hwf : s.hs.Wf) (hsized : s.hs.Sized)
    (hst : s.hs.state = .sendClientHello ∨ s.hs.state = .recvServerHello) (hcap : s.hs.Captured)
    (hoffered : s.hs.state = .recvServerHello →
      ∃ ch, lastClientHello s.log = some ch ∧ Offers ch s.hs.ecdheGroup) : NegotiationInv C s := by
  refine ⟨hwf, hsized, ?_, fun _ => hcap, hoffered, ?_⟩
  · obtain h | h := hst <;> simp [h]
  · obtain h | h := hst <;> simp [h, HsState.beforeKeys]

section

variable {C : Crypto} {hostname : Bytes} {s : Session}

theorem negotiationInv_step (i : StepInput) (h : NegotiationInv C s) :
    NegotiationInv C (s.step C hostname i) := by
  have ht := transition_step C hostname i.rnd i.recv h.wf
  have hwf := ht.wf h.wf
  have hsized := ht.sized h.sized
  have hpast := ht.past
  have hstep : s.hs.state.beforeKeys = false → ∀ psk dhe hello, KeysAt C psk dhe hello s.hs →
      KeysAt C psk dhe hello (s.step C hostname i).hs :=
    fun _ _ _ _ => keysAt_step i h.wf h.sized
  have hccs : (s.out C hostname i).hs.state ≠ .sendCcs := by
    cases ht.dispatch h.noCcs with
    | nothing _ _ _ _ _ _ hccs => exact hccs
    | hello _ _ _ _ _ _ _ hst' => exact fun h => (by cases hst'.symm.trans h)
    | finished _ _ _ _ _ _ _ hst' => exact fun h => (by cases hst'.symm.trans h)
  -- before the keys the captured hello matters, behind them what was agreed
  cases hkeys : s.hs.state.beforeKeys with
  | false =>
    obtain ⟨hafter, ⟨hsuite, hgroup, hks⟩, hlog⟩ := hpast hkeys
    obtain ⟨hagreed, hhash, psk, dhe, hello, hk⟩ := h.agreed hkeys
    refine ⟨hwf, hsized, hccs, fun hb => ?_, fun hb => ?_, fun _ =>
      ⟨hagreed.mono hsuite hgroup hlog, hks.trans hhash, psk, dhe, hello, hstep hkeys _ _ _ hk⟩⟩
    · cases hafter.symm.trans hb
    · have hst : (tls13HandshakeStep C hostname i.rnd s.hs i.recv).hs.state = .recvServerHello := hb
      rw [hst] at hafter
      cases hafter
  | true =>
    have hcap := h.captured hkeys
    have hno : ∀ st, s.hs.state = st → st.beforeKeys = false → False := fun st h hb => by
      rw [h, hb] at hkeys
      cases hkeys
    unfold Session.step Session.out
    dsimp only
    generalize (tls13HandshakeStep C hostname i.rnd s.hs i.recv).toOutcome = o at ht hwf hsized
    cases ht with
    | quiet hst hsame _ hr hlog =>
      have hwait : s.hs.state = .recvServerHello := by
        have hccs := h.noCcs
        cases hs : s.hs.state <;> simp_all [HsState.beforeKeys]
      refine negotiationInv_before hwf hsized (.inr (hr.state.trans hwait)) ⟨?_, ?_⟩ fun _ => ?_
      · rw [show o.hs.chRandom = s.hs.chRandom from (congrArg HsCtx.chRandom hr.frame :)]
        exact hcap.random
      · rw [show o.hs.chSessionId = s.hs.chSessionId from (congrArg HsCtx.chSessionId hr.frame :)]
        exact hcap.sessionId
      · rw [hlog, lastClientHello_append rfl,
          show o.hs.ecdheGroup = s.hs.ecdheGroup from (congrArg HsCtx.ecdheGroup hr.frame :)]
        exact h.offered hwait
    -- still about to send: what was captured is the same or drawn anew
    | notSent hst _ hr hlog =>
      obtain ⟨hs₁, e, site, hready, ho⟩ := hr
      have hst₁ : hs₁.state = .sendClientHello := by
        obtain rfl | hready := hready
        · exact hst
        · exact (congrArg HsCtx.state hready.frame :).trans hst
      have hcap₁ : hs₁.Captured := by
        obtain rfl | hready := hready
        · exact hcap
        · exact hready.captured hcap
      have hst' : o.hs.state = .sendClientHello := by rw [ho]; exact hst₁
      refine negotiationInv_before hwf hsized (.inl hst') ?_ fun hwait => ?_
      · rw [ho]
        exact ⟨hcap₁.random, hcap₁.sessionId⟩
      · cases hst'.symm.trans hwait
    | @clientHello hs₁ msg hst hr hmsg hfit hbuilt =>
      obtain ⟨rnd, hbuilt⟩ := hbuilt
      have hcap₁ := hr.captured hcap
      have hhash₁ : hs₁.transcript.hash = .sha256 := by
        rw [hr.transcript]
        split_ifs
        · exact h.sized.hash
        · rfl
      have hgroup : tls13BrCurveForGroup hs₁.ecdheGroup ≠ 0 := by
        rw [hbuilt.keeps.2.2.1]
        exact hbuilt.eq.1
      have htype : byteAt msg 0 = tls13HtClientHello := by
        rw [hmsg] at hfit ⊢
        obtain ⟨body, -, hb⟩ := isMessage_clientHello hfit
        rw [hb]
        rfl
      refine negotiationInv_before hwf hsized (.inr rfl) ⟨hcap₁.random, hcap₁.sessionId⟩
        fun _ => ⟨msg, by simp [lastClientHello, HsEvent.clientHello, htype], ?_⟩
      rw [hmsg] at hfit ⊢
      exact offers_clientHello hcap₁ hhash₁ hfit hgroup
    | ccs hst => exact absurd hst h.noCcs
    | helloRefused hst _ hrf hlog =>
      have hst' : o.hs.state = .recvServerHello := (congrArg HsCtx.state hrf.frame :).trans hst
      refine negotiationInv_before hwf hsized (.inr hst') ⟨?_, ?_⟩ fun _ => ?_
      · rw [show o.hs.chRandom = s.hs.chRandom from (congrArg HsCtx.chRandom hrf.frame :)]
        exact hcap.random
      · rw [show o.hs.chSessionId = s.hs.chSessionId from (congrArg HsCtx.chSessionId hrf.frame :)]
        exact hcap.sessionId
      · rw [hlog, lastClientHello_append rfl,
          show o.hs.ecdheGroup = s.hs.ecdheGroup from (congrArg HsCtx.ecdheGroup hrf.frame :)]
        exact h.offered hst
    | helloRetry hst =>
      refine negotiationInv_before hwf hsized (.inl rfl) ⟨hcap.random, hcap.sessionId⟩ fun hwait => ?_
      cases hwait
    -- the one step that agrees: both sides of the invariant meet
    | @serverHello p suite shared hst hpay hacc =>
      have hsuite := suiteOk_of (hacc.hash.trans h.sized.hash) hacc.keyLen
      have hz : (afterServerHello s.hs p suite).Sized :=
        ⟨h.sized.client, h.sized.server, h.sized.resMaster, h.sized.hash⟩
      have hk := @handshakeKeys_installHandshakeKeys C _ shared hz hsuite
      refine ⟨hwf, hsized, by simp, fun hb => (by cases hb), fun hb => (by cases hb), fun _ =>
        ⟨hacc.negotiated (h.offered hst) h.sized.hash rfl rfl List.mem_cons_self rfl,
          hk.holds.hash, (afterServerHello s.hs p suite).earlyPsk, shared,
          (afterServerHello s.hs p suite).transcript.data, ?_⟩⟩
      exact hk.congr rfl rfl rfl rfl rfl rfl (List.prefix_refl _)
    -- no other state is before the keys
    | refused hreads =>
      cases hs : s.hs.state <;> simp [hs, HsState.reads, HsState.beforeKeys] at hreads hkeys
    | parkedRefused hst => exact (hno _ hst rfl).elim
    | encryptedExtensions hst => exact (hno _ hst rfl).elim
    | certificateRequest hst => exact (hno _ hst rfl).elim
    | certificateParked hst => exact (hno _ hst rfl).elim
    | parkedCertificate hst => exact (hno _ hst rfl).elim
    | certificate hst => exact (hno _ hst rfl).elim
    | certificateVerify hst => exact (hno _ hst rfl).elim
    | serverFinished hst => exact (hno _ hst rfl).elim
    | clientFinished hst => exact (hno _ hst rfl).elim

end

/-- **Negotiated parameters.**  In every run, from the moment a ServerHello is accepted, the suite
is one of the offered TLS 1.3 suites, the version was TLS 1.3, the group of the server's share is
that of the key share in the last ClientHello, and the hashes, the record contexts and their keys
are those of the suite. -/
theorem negotiated_of_reach (C : Crypto) (hostname : Bytes) (hasEngine resuming : Bool)
    (offerTicket : Option SessionTicket) (age : ℕ) {s : Session}
    (h : Reach (Session.step C hostname) (fun _ _ => True)
      (Session.start hasEngine resuming offerTicket age) s)
    (hst : s.hs.state.beforeKeys = false) : Negotiated s ∧ SuiteInUse s.hs := by
  have hinv : NegotiationInv C s := by
    refine h.invariant ?_ fun _ i hinv _ => negotiationInv_step i hinv
    exact negotiationInv_before (messagesInv_start C hasEngine resuming offerTicket age).wf
      (sized_start hasEngine resuming offerTicket age) (.inl rfl) ⟨rfl, rfl⟩ fun h => by cases h
  obtain ⟨hagreed, hhash, _, _, _, hk⟩ := hinv.agreed hst
  exact ⟨hagreed, hk.suiteInUse hinv.sized hhash⟩

theorem negotiated_certifiedServer :
    let s := play (Session.step .transparent [1]) (Session.start true false none 0)
      (certifiedServer .transparent [1])
    s.hs.state = .complete ∧ Negotiated s ∧ SuiteInUse s.hs :=
  ⟨by decide +kernel, negotiated_of_reach .transparent [1] true false none 0
    (reach_play (by decide +kernel)) (by decide +kernel)⟩

end MacTLS
