import MacTLS.Handshake.Authentication

/-!
# The hellos of a connection

How the ClientHellos of a run come about: what the second has from the first, and what it has from
the HelloRetryRequest between them.

* `HelloBuilt.eq` : the context that a ClientHello is built from;
* `FirstHello` : what a context keeps of the one its first ClientHello was built from;
* `HelloPhase` : how far the hellos have come;
* `helloInv_of_reach` : every run is in one of the phases;
* `sent_hello` : a step that sends a ClientHello.
-/

namespace MacTLS

open Lib

/-! ### The context of a ClientHello -/

/-- The context of a ClientHello with the given key pair. -/
def helloContext (hs : HsCtx) (rnd : ClientRandom) (x pub : Bytes) : HsCtx :=
  captureChFields { startTranscript hs with
    ecdheSecret := x, ecdhePublic := pub, ecdheGroup := hs.nextGroup } rnd

/-- A ClientHello is built from a fresh key pair for a group the client knows. -/
theorem HelloBuilt.eq {hs hs₁ : HsCtx} {rnd : ClientRandom} (h : HelloBuilt hs rnd hs₁) :
    tls13BrCurveForGroup hs.nextGroup ≠ 0 ∧
      ∃ x pub, rnd.keygen (tls13BrCurveForGroup hs.nextGroup) = some (x, pub) ∧
        0 < pub.length ∧ pub.length ≤ publicSize ∧ hs₁ = helloContext hs rnd x pub := by
  obtain ⟨hs₀, hk, rfl⟩ := h
  unfold tls13GenerateKeypair at hk
  dsimp only at hk
  split_ifs at hk with hcurve
  split at hk
  · cases hk
  · rename_i x pub hgen
    split_ifs at hk with hlen
    obtain rfl := Option.some.inj hk
    simp only [not_or, Nat.not_lt] at hlen
    exact ⟨hcurve, x, pub, hgen, Nat.pos_of_ne_zero hlen.1, hlen.2.2, rfl⟩

/-- The random values are captured once. -/
theorem captureChFields_eq (hs : HsCtx) (rnd : ClientRandom) : captureChFields hs rnd =
    { hs with
      chRandom := if hs.chFieldsValid then hs.chRandom else rnd.random
      chSessionId := if hs.chFieldsValid then hs.chSessionId else rnd.sessionId
      chFieldsValid := true } := by
  unfold captureChFields
  split_ifs with h
  · rw [← h]
  · rfl

theorem helloContext_eq (hs : HsCtx) (rnd : ClientRandom) (x pub : Bytes) :
    helloContext hs rnd x pub =
      { hs with
        transcript := if hs.hrrReceived then hs.transcript else tls13TranscriptInit .sha256
        ecdheSecret := x
        ecdhePublic := pub
        ecdheGroup := hs.nextGroup
        chRandom := if hs.chFieldsValid then hs.chRandom else rnd.random
        chSessionId := if hs.chFieldsValid then hs.chSessionId else rnd.sessionId
        chFieldsValid := true } := by
  rw [helloContext, captureChFields_eq, startTranscript]
  split_ifs <;> rfl

/-- What a ClientHello leaves alone. -/
theorem HelloBuilt.keeps {hs hs₁ : HsCtx} {rnd : ClientRandom} (h : HelloBuilt hs rnd hs₁) :
    hs₁.hrrReceived = hs.hrrReceived ∧ hs₁.cookie = hs.cookie ∧ hs₁.ecdheGroup = hs.nextGroup ∧
      hs₁.cipherSuite = hs.cipherSuite ∧ hs₁.hrrGroup = hs.hrrGroup := by
  obtain ⟨-, x, pub, -, -, -, rfl⟩ := h.eq
  rw [helloContext_eq]
  exact ⟨rfl, rfl, rfl, rfl, rfl⟩

/-! ### The phases -/

/-- What every hello of a connection has alike. -/
def HsCtx.replayed (hs : HsCtx) : (Bool × Option SessionTicket × ℕ) × Bool × Bytes × Bytes :=
  (hs.settings, hs.chFieldsValid, hs.chRandom, hs.chSessionId)

/-- The first ClientHello was built from `hs₁`. -/
structure FirstHello (C : Crypto) (hostname : Bytes) (hs hs₁ : HsCtx) : Prop where
  replayed : hs₁.replayed = hs.replayed
  valid : hs₁.chFieldsValid = true
  transcript : hs₁.transcript = tls13TranscriptInit .sha256
  cookie : hs₁.cookie = []
  group : hs₁.ecdheGroup = tls13GroupX25519
  captured : hs₁.Captured
  fit : (clientHelloRecord (clientHello C hs₁ hostname)).length ≤ hsBufSize

theorem FirstHello.congr {C : Crypto} {hostname : Bytes} {hs hs' hs₁ : HsCtx}
    (h : FirstHello C hostname hs hs₁) (hrep : hs'.replayed = hs.replayed) :
    FirstHello C hostname hs' hs₁ :=
  ⟨h.replayed.trans hrep.symm, h.valid, h.transcript, h.cookie, h.group, h.captured, h.fit⟩

theorem HelloBuilt.first {C : Crypto} {hostname : Bytes} {hs hs₁ : HsCtx} {rnd : ClientRandom}
    (h : HelloBuilt hs rnd hs₁) (hhrr : hs.hrrReceived = false) (hcookie : hs.cookie = [])
    (hcap : hs.Captured) (hfit : (clientHelloRecord (clientHello C hs₁ hostname)).length ≤ hsBufSize) :
    FirstHello C hostname hs₁ hs₁ := by
  have hcap₁ := h.ready.captured hcap
  obtain ⟨-, x, pub, -, -, -, heq⟩ := h.eq
  rw [helloContext_eq] at heq
  refine ⟨rfl, ?_, ?_, ?_, ?_, hcap₁, hfit⟩ <;> rw [heq]
  · simp [hhrr]
  · exact hcookie
  · simp [HsCtx.nextGroup, hhrr]

/-- The HelloRetryRequest of this payload was accepted. -/
structure Requested (hs : HsCtx) (p : Bytes) : Prop where
  framed : HelloFramed p
  retried : HelloRetried p hs.cipherSuite hs.hrrGroup
  cookie : hs.cookie = (shWalk p).cookie.getD []

/-- How far the hellos have come. -/
inductive HelloPhase (C : Crypto) (hostname : Bytes) (s : Session) : Prop
  | fresh (hst : s.hs.state = .sendClientHello) (hhrr : s.hs.hrrReceived = false)
      (hcookie : s.hs.cookie = []) (hcap : s.hs.Captured) (hmsgs : messages s.log = [])
  | waiting {hs₁ : HsCtx} (hst : s.hs.state = .recvServerHello) (hhrr : s.hs.hrrReceived = false)
      (hcookie : s.hs.cookie = []) (hgroup : s.hs.ecdheGroup = tls13GroupX25519)
      (hfirst : FirstHello C hostname s.hs hs₁)
      (hmsgs : messages s.log = [clientHello C hs₁ hostname])
  | asked {hs₁ : HsCtx} {p : Bytes} (hst : s.hs.state = .sendClientHello)
      (hhrr : s.hs.hrrReceived = true) (hreq : Requested s.hs p)
      (hfirst : FirstHello C hostname s.hs hs₁)
      (hmsgs : messages s.log = [clientHello C hs₁ hostname, helloMessage p])
  | resent {p ch1 ch2 : Bytes} (hst : s.hs.state = .recvServerHello)
      (hhrr : s.hs.hrrReceived = true) (hreq : Requested s.hs p)
      (hgroup : s.hs.ecdheGroup = s.hs.hrrGroup)
      (hmsgs : messages s.log = [ch1, helloMessage p, ch2])
  | past (hst : s.hs.state.beforeKeys = false)

/-- The phase of a run with the invariants that carry it. -/
structure HelloInv (C : Crypto) (hostname : Bytes) (s : Session) : Prop where
  ordered : MessagesInv C s
  phase : HelloPhase C hostname s

/-- While it waits for a ServerHello, a step that leaves the fields of the hellos alone leaves the
phase. -/
theorem HelloPhase.wait {C : Crypto} {hostname : Bytes} {s s' : Session}
    (h : HelloPhase C hostname s) (hwait : s.hs.state = .recvServerHello)
    (hst : s'.hs.state = s.hs.state) (hhrr : s'.hs.hrrReceived = s.hs.hrrReceived)
    (hcookie : s'.hs.cookie = s.hs.cookie) (hgroup : s'.hs.ecdheGroup = s.hs.ecdheGroup)
    (hrep : s'.hs.replayed = s.hs.replayed) (hsuite : s'.hs.cipherSuite = s.hs.cipherSuite)
    (hask : s'.hs.hrrGroup = s.hs.hrrGroup) (hlog : messages s'.log = messages s.log) :
    HelloPhase C hostname s' := by
  cases h with
  | fresh hsend => cases hwait.symm.trans hsend
  | waiting _ h1 h2 h3 hfirst h4 =>
    exact .waiting (hst.trans hwait) (hhrr.trans h1) (hcookie.trans h2) (hgroup.trans h3)
      (hfirst.congr hrep) (hlog.trans h4)
  | asked hsend => cases hwait.symm.trans hsend
  | @resent p _ _ _ h1 hreq h2 h3 =>
    have hreq' : Requested s'.hs p :=
      ⟨hreq.framed, by rw [hsuite, hask]; exact hreq.retried, hcookie.trans hreq.cookie⟩
    exact .resent (hst.trans hwait) (hhrr.trans h1) hreq' (by rw [hgroup, hask, h2])
      (hlog.trans h3)
  | past hpast => rw [hwait] at hpast; cases hpast

/-- Once a ServerHello was accepted the hellos are over, and what was negotiated stays. -/
theorem Transition.past {C : Crypto} {hostname : Bytes} {hs : HsCtx} {recv : Bytes} {o : Outcome}
    (h : Transition C hostname hs recv o) (hpast : hs.state.beforeKeys = false) :
    o.hs.state.beforeKeys = false ∧
      (o.hs.cipherSuite = hs.cipherSuite ∧ o.hs.ecdheGroup = hs.ecdheGroup ∧
        o.hs.ks.hash = hs.ks.hash) ∧
      o.log.filterMap HsEvent.clientHello = [] := by
  have hno : ∀ st, hs.state = st → st.beforeKeys = true → False := fun st h hb => by
    rw [h, hb] at hpast
    cases hpast
  have hread : ∀ {hs₁ : HsCtx}, Read hs hs₁ →
      hs₁.cipherSuite = hs.cipherSuite ∧ hs₁.ecdheGroup = hs.ecdheGroup ∧
        hs₁.ks.hash = hs.ks.hash := fun hr =>
    ⟨(congrArg HsCtx.cipherSuite hr.frame :), (congrArg HsCtx.ecdheGroup hr.frame :),
      (congrArg (·.ks.hash) hr.frame :)⟩
  cases h with
  | quiet _ _ _ hr hlog => exact ⟨by rw [hr.state]; exact hpast, (hread hr :), by rw [hlog]; rfl⟩
  | notSent hst => exact (hno _ hst rfl).elim
  | clientHello hst => exact (hno _ hst rfl).elim
  | ccs hst => exact (hno _ hst rfl).elim
  | helloRefused hst => exact (hno _ hst rfl).elim
  | helloRetry hst => exact (hno _ hst rfl).elim
  | serverHello hst => exact (hno _ hst rfl).elim
  | refused _ _ hr _ h ho =>
    have hlog := h.log_filter.1
    obtain ⟨e, he⟩ := h.hs
    rw [ho]
    refine ⟨?_, ?_, hlog⟩ <;> dsimp only <;> rw [he]
    · exact hr.state ▸ hpast
    · exact (hread hr :)
  | parkedRefused _ _ h =>
    have hlog := h.log_filter.1
    obtain ⟨e, he⟩ := h.hs
    refine ⟨?_, ?_, hlog⟩ <;> rw [he]
    · exact hpast
    · exact ⟨rfl, rfl, rfl⟩
  | encryptedExtensions _ hr =>
    refine ⟨?_, (hread hr :), rfl⟩
    dsimp only
    split_ifs <;> rfl
  | certificateRequest _ hr => exact ⟨rfl, (hread hr :), rfl⟩
  | certificateParked _ hr => exact ⟨rfl, (hread hr :), rfl⟩
  | parkedCertificate => exact ⟨rfl, ⟨rfl, rfl, rfl⟩, rfl⟩
  | certificate _ _ hr => exact ⟨rfl, (hread hr :), rfl⟩
  | certificateVerify _ hr => exact ⟨rfl, (hread hr :), rfl⟩
  | serverFinished _ hr => exact ⟨rfl, (hread hr :), rfl⟩
  | clientFinished => exact ⟨rfl, ⟨rfl, rfl, rfl⟩, rfl⟩

section

variable {C : Crypto} {hostname : Bytes} {s : Session}

theorem helloPhase_step (i : StepInput) (h : HelloInv C hostname s) (hl : Live C hostname s i) :
    HelloPhase C hostname (s.step C hostname i) := by
  have ht := transition_step C hostname i.rnd i.recv h.ordered.wf
  have hpast := ht.past
  unfold Live Session.out at hl
  unfold Session.step Session.out
  dsimp only at hl ⊢
  generalize (tls13HandshakeStep C hostname i.rnd s.hs i.recv).toOutcome = o at ht hl hpast ⊢
  cases hkeys : s.hs.state.beforeKeys with
  | false => exact .past (hpast hkeys).1
  | true =>
  have hno : ∀ st, s.hs.state = st → st.beforeKeys = false → False := fun st h hb => by
    rw [h, hb] at hkeys
    cases hkeys
  cases ht with
  -- nothing of the hellos moves while the ServerHello is awaited
  | quiet hst hsame _ hr hlog =>
    have hwait : s.hs.state = .recvServerHello := by
      have hccs := h.ordered.noCcs
      cases hs : s.hs.state <;> simp_all [HsState.beforeKeys]
    refine h.phase.wait hwait hr.state (congrArg HsCtx.hrrReceived hr.frame :)
      (congrArg HsCtx.cookie hr.frame :) (congrArg HsCtx.ecdheGroup hr.frame :)
      (congrArg HsCtx.replayed hr.frame :) (congrArg HsCtx.cipherSuite hr.frame :)
      (congrArg HsCtx.hrrGroup hr.frame :) ?_
    rw [hlog, List.append_nil]
  | notSent _ hres => exact absurd hres hl.1
  | @clientHello hs₁ msg hst _ hmsg hfit hbuilt =>
    obtain ⟨rnd, hbuilt⟩ := hbuilt
    have hlog : messages (s.log ++ [.sent msg]) = messages s.log ++ [msg] := messages_append _ _
    obtain ⟨hhrr₁, hcookie₁, hgroup₁, hsuite₁, hask₁⟩ := hbuilt.keeps
    cases h.phase with
    -- the first hello
    | fresh _ hhrr hcookie hcap hmsgs =>
      have hfirst : FirstHello C hostname _ hs₁ := hbuilt.first hhrr hcookie hcap (hmsg ▸ hfit)
      exact .waiting rfl (hhrr₁.trans hhrr) (hcookie₁.trans hcookie) hfirst.group
        (hfirst.congr rfl) (by rw [hlog, hmsgs, hmsg]; rfl)
    -- the second, for the group that was asked for
    | @asked _ p _ hhrr hreq hfirst hmsgs =>
      have hreq₁ : HelloRetried p hs₁.cipherSuite hs₁.hrrGroup := by
        rw [hsuite₁, hask₁]
        exact hreq.retried
      have hgroup : hs₁.ecdheGroup = hs₁.hrrGroup := by
        rw [hgroup₁, hask₁]
        simp [HsCtx.nextGroup, hhrr]
      exact .resent rfl (hhrr₁.trans hhrr) ⟨hreq.framed, hreq₁, hcookie₁.trans hreq.cookie⟩ hgroup
        (by rw [hlog, hmsgs]; rfl)
    | waiting hwait => cases hst.symm.trans hwait
    | resent hwait => cases hst.symm.trans hwait
    | past hpast => rw [hst] at hpast; cases hpast
  | helloRefused _ _ h =>
    obtain h | ⟨h, -⟩ := h.res
    · exact absurd h hl.1
    · exact absurd h hl.2
  | @helloRetry p suite group hst hpay hf hnone hret =>
    have hlog : messages (s.log ++ [.received (helloMessage p)]) =
        messages s.log ++ [helloMessage p] := messages_append _ _
    cases h.phase with
    | waiting _ _ hcookie _ hfirst hmsgs =>
      refine .asked rfl rfl ⟨hf, hret, ?_⟩ (hfirst.congr rfl) (by rw [hlog, hmsgs]; rfl)
      simp [afterHelloRetry, HsCtx.applyExts, hcookie]
    -- a second request is not accepted
    | resent _ hhrr => cases hnone.symm.trans hhrr
    | fresh hsend => cases hst.symm.trans hsend
    | asked hsend => cases hst.symm.trans hsend
    | past hpast => rw [hst] at hpast; cases hpast
  | serverHello => exact .past rfl
  -- the other transitions start behind the hellos
  | refused hreads =>
    cases hs : s.hs.state <;> simp [hs, HsState.reads, HsState.beforeKeys] at hreads hkeys
  | ccs hst => exact absurd hst h.ordered.noCcs
  | parkedRefused hst => exact (hno _ hst rfl).elim
  | encryptedExtensions hst => exact (hno _ hst rfl).elim
  | certificateRequest hst => exact (hno _ hst rfl).elim
  | certificateParked hst => exact (hno _ hst rfl).elim
  | parkedCertificate hst => exact (hno _ hst rfl).elim
  | certificate hst => exact (hno _ hst rfl).elim
  | certificateVerify hst => exact (hno _ hst rfl).elim
  | serverFinished hst => exact (hno _ hst rfl).elim
  | clientFinished hst => exact (hno _ hst rfl).elim

/-- Every live run is in one of the phases. -/
theorem helloInv_of_reach {hasEngine resuming : Bool} {offerTicket : Option SessionTicket} {age : ℕ}
    (h : Reach (Session.step C hostname) (Live C hostname)
      (Session.start hasEngine resuming offerTicket age) s) : HelloInv C hostname s :=
  h.invariant ⟨messagesInv_start C hasEngine resuming offerTicket age,
      .fresh rfl rfl rfl ⟨rfl, rfl⟩ rfl⟩
    fun _ i hinv hl => ⟨messagesInv_step hinv.ordered hl, helloPhase_step i hinv hl⟩

/-! ### Sending -/

/-- The messages before a ClientHello as its transcript has them: none, or the first ClientHello by
its hash and the HelloRetryRequest. -/
def beforeHello (C : Crypto) : List Bytes → Bytes
  | [] => []
  | ch1 :: rest => messageHash (C.hash .sha256 ch1) ++ rest.flatten

/-- Before a ClientHello there is nothing, or the first one and the HelloRetryRequest. -/
theorem HelloInv.before (h : HelloInv C hostname s) (hst : s.hs.state = .sendClientHello) :
    (messages s.log = [] ∨ ∃ ch1 hrr, messages s.log = [ch1, hrr]) ∧
      s.hs.transcript = ⟨.sha256, beforeHello C (messages s.log)⟩ := by
  obtain ⟨msgs, hmsgs, -, hdata⟩ := h.ordered.ok.messages
  have hparked : s.hs.parked = [] := by
    refine parked_eq_nil (Nat.eq_zero_of_not_pos fun hpos => ?_)
    cases hst.symm.trans (h.ordered.parked hpos).1
  rw [hparked, List.append_nil] at hmsgs
  have htranscript : ∀ data, s.hs.transcript.data = data → s.hs.transcript = ⟨.sha256, data⟩ := by
    rintro _ rfl
    rw [← h.ordered.ok.hash]
  rw [← hmsgs] at hdata
  cases h.phase with
  | fresh _ hhrr _ _ hnone =>
    rw [hnone, hhrr] at hdata
    exact ⟨.inl hnone, by rw [hnone]; exact htranscript _ hdata⟩
  | asked _ hhrr _ _ htwo =>
    rw [htwo, hhrr] at hdata
    exact ⟨.inr ⟨_, _, htwo⟩, by rw [htwo]; exact htranscript _ hdata⟩
  | waiting hwait => cases hst.symm.trans hwait
  | resent hwait => cases hst.symm.trans hwait
  | past hpast => rw [hst] at hpast; cases hpast

theorem HelloInv.captured (h : HelloInv C hostname s) (hst : s.hs.state = .sendClientHello) :
    s.hs.Captured := by
  cases h.phase with
  | fresh _ _ _ hcap => exact hcap
  | asked _ _ _ hfirst =>
    have hreplayed := hfirst.replayed
    simp only [HsCtx.replayed, Prod.mk.injEq] at hreplayed
    obtain ⟨-, -, hrandom, hsession⟩ := hreplayed
    exact ⟨hrandom ▸ hfirst.captured.random, hsession ▸ hfirst.captured.sessionId⟩
  | waiting hwait => cases hst.symm.trans hwait
  | resent hwait => cases hst.symm.trans hwait
  | past hpast => rw [hst] at hpast; cases hpast

/-- A step that sends from the first state sends the ClientHello of a context built in it. -/
theorem sent_hello (i : StepInput) {msg : Bytes} (hst : s.hs.state = .sendClientHello)
    (hsent : .sent msg ∈ (s.out C hostname i).log) :
    ∃ hs₁, HelloBuilt s.hs i.rnd hs₁ ∧ msg = clientHello C hs₁ hostname ∧
      (clientHelloRecord msg).length ≤ hsBufSize ∧ (s.out C hostname i).log = [.sent msg] ∧
      (s.out C hostname i).hs.ks = hs₁.ks ∧
      (s.out C hostname i).hs.transcript = tls13TranscriptUpdate hs₁.transcript msg := by
  unfold Session.out tls13HandshakeStep at hsent ⊢
  simp only [hst] at hsent ⊢
  obtain ⟨hres, hlog, -⟩ | ⟨hs₁, msg', hbuilt, hmsg, hfit, ho⟩ :=
    tls13StateSendClientHello_cases C s.hs hostname i.rnd
  · simp [hres, hlog] at hsent
  · rw [ho] at hsent ⊢
    obtain rfl : msg = msg' := by simpa using hsent
    exact ⟨hs₁, hbuilt, hmsg, hfit, rfl, rfl, rfl⟩

end

end MacTLS
