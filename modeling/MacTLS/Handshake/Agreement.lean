import MacTLS.Handshake.Keys
import MacTLS.Handshake.Messages

/-!
# What a handshake agrees on

A connection sends its message buffer between the steps of its handshake.  Whatever it sends when,
the keys at the end are those of the key schedule, for the ServerHello that this run accepted and
for the messages that it has logged.

* `Session.shake` : a step of the handshake, or bytes of the message buffer are sent;
* `HandshakeRun` : the sessions that a fresh context gets to without an error;
* `AcceptsHello` : where on the way to a session the ServerHello was accepted;
* `AgreedKeys` : the application keys for this ServerHello and for the transcript of the log;
* `agreedKeys_of_run` : every completed handshake has them.
-/

namespace MacTLS

open Lib

variable {C : Crypto} {hostname : Bytes} {s s₀ : Session} {i : StepInput} {msg dhe : Bytes}

/-! ### Runs -/

/-- What a connection does to its handshake. -/
inductive ShakeInput where
  | step (i : StepInput)
  /-- So much of the message buffer is sent. -/
  | sent (n : ℕ)

/-- Only `msg_offset` says what was sent. -/
def Session.sent (s : Session) (n : ℕ) : Session := ⟨{ s.hs with msgOffset := n }, s.log⟩

def Session.shake (C : Crypto) (hostname : Bytes) (s : Session) : ShakeInput → Session
  | .step i => s.step C hostname i
  | .sent n => s.sent n

/-- No step returns an error or the fallback to TLS 1.2. -/
def ShakeLive (C : Crypto) (hostname : Bytes) (s : Session) : ShakeInput → Prop
  | .step i => Live C hostname s i
  | .sent _ => True

/-- A fresh context comes to this session. -/
def HandshakeRun (C : Crypto) (hostname : Bytes) (s : Session) : Prop :=
  ∃ hasEngine resuming offerTicket age, Reach (Session.shake C hostname) (ShakeLive C hostname)
    (Session.start hasEngine resuming offerTicket age) s

theorem HandshakeRun.step (h : HandshakeRun C hostname s) (hl : Live C hostname s i) :
    HandshakeRun C hostname (s.step C hostname i) := by
  obtain ⟨hasEngine, resuming, offerTicket, age, h⟩ := h
  exact ⟨hasEngine, resuming, offerTicket, age,
    h.tail (show ShakeLive C hostname s (.step i) from hl)⟩

theorem HandshakeRun.sent (h : HandshakeRun C hostname s) (n : ℕ) :
    HandshakeRun C hostname (s.sent n) := by
  obtain ⟨hasEngine, resuming, offerTicket, age, h⟩ := h
  exact ⟨hasEngine, resuming, offerTicket, age,
    h.tail (show ShakeLive C hostname s (.sent n) from trivial)⟩

/-- On its way to `s` a handshake was in `s₀`, and accepted the ServerHello `msg` from the bytes
`i` there, with the shared secret `dhe`. -/
structure AcceptsHello (C : Crypto) (hostname : Bytes) (s₀ : Session) (i : StepInput)
    (msg dhe : Bytes) (s : Session) : Prop where
  run : HandshakeRun C hostname s₀
  state : s₀.hs.state = .recvServerHello
  payload : helloPayload i.recv = some msg
  shared : tls13EcdhShared C s₀.hs.ecdheGroup s₀.hs.ecdheSecret (shWalk msg).serverPublic = some dhe
  logged : s₀.log ++ [.received (helloMessage msg),
    .earlySecret (s₀.step C hostname i).hs.earlyPsk] <+: s.log
  rest : Reach (Session.shake C hostname) (ShakeLive C hostname) (s₀.step C hostname i) s

theorem AcceptsHello.step (h : AcceptsHello C hostname s₀ i msg dhe s) {j : StepInput}
    (hl : Live C hostname s j) : AcceptsHello C hostname s₀ i msg dhe (s.step C hostname j) :=
  ⟨h.run, h.state, h.payload, h.shared, h.logged.trans (List.prefix_append _ _),
    h.rest.tail (show ShakeLive C hostname s (.step j) from hl)⟩

theorem AcceptsHello.sent (h : AcceptsHello C hostname s₀ i msg dhe s) (n : ℕ) :
    AcceptsHello C hostname s₀ i msg dhe (s.sent n) :=
  ⟨h.run, h.state, h.payload, h.shared, h.logged,
    h.rest.tail (show ShakeLive C hostname s (.sent n) from trivial)⟩

/-- The keys of the schedule for the ServerHello that was accepted: for its shared secret, the PSK
of the Early Secret and the transcript up to it. -/
def KeysAgreed (C : Crypto) (hostname : Bytes) (s₀ : Session) (i : StepInput) (dhe : Bytes)
    (hs : HsCtx) : Prop :=
  KeysAt C (s₀.step C hostname i).hs.earlyPsk dhe (s₀.step C hostname i).hs.transcript.data hs

/-- The context has the application keys of the schedule for the ServerHello that its handshake
accepted, and the transcript is that of the messages in the log. -/
def AgreedKeys (C : Crypto) (hostname : Bytes) (s : Session) : Prop :=
  ∃ s₀ i msg dhe before, AcceptsHello C hostname s₀ i msg dhe s ∧
    ApplicationKeys C (s₀.step C hostname i).hs.earlyPsk dhe
      (s₀.step C hostname i).hs.transcript.data s.hs before ∧
    s.hs.transcript.data = transcriptBytes C s.hs.hrrReceived (messages s.log)

/-! ### The keys of a step -/

/-- Only the complete handshake has keys that speak of the message buffer. -/
theorem keysAt_of_offset {psk : Option Bytes} {dhe hello : Bytes} {hs : HsCtx} {n : ℕ}
    (h : KeysAt C psk dhe hello { hs with msgOffset := n }) (hst : hs.state ≠ .complete) :
    KeysAt C psk dhe hello hs := by
  cases hrd : hs.state.reads with
  | true =>
    have hkeys : HandshakeKeys C psk dhe hello { hs with msgOffset := n } :=
      (keysAt_of_reads (by exact hrd)).1 h
    exact (keysAt_of_reads hrd).2
      (hkeys.congr rfl rfl rfl rfl rfl rfl (List.prefix_refl _))
  | false =>
    cases hcase : hs.state with
    | complete => exact absurd hcase hst
    | sendFinished =>
      simp only [KeysAt, hcase] at h ⊢
      obtain ⟨before, h⟩ := h
      exact ⟨before, h.suite, h.holds, h.extends_hello, h.transcript, h.finishedKey, h.write,
        h.read, h.next⟩
    | sendClientHello | sendCcs | recvServerHello =>
      simp only [KeysAt, hcase] at h
    | _ =>
      rw [hcase] at hrd
      cases hrd

/-- Before the ServerHello is accepted, a step stays there or accepts it and installs the handshake
keys. -/
theorem Transition.accepts {hs : HsCtx} {recv : Bytes} {o : Outcome}
    (h : Transition C hostname hs recv o) (hz : hs.Sized) (hb : hs.state.beforeKeys = true) :
    o.hs.state.beforeKeys = true ∨ hs.state = .recvServerHello ∧ ∃ msg dhe,
      helloPayload recv = some msg ∧
      tls13EcdhShared C hs.ecdheGroup hs.ecdheSecret (shWalk msg).serverPublic = some dhe ∧
      o.log = [.received (helloMessage msg), .earlySecret o.hs.earlyPsk] ∧
      KeysAt C o.hs.earlyPsk dhe o.hs.transcript.data o.hs := by
  have hno : ∀ {st : HsState}, hs.state = st → st.beforeKeys = false → False := fun h hst => by
    rw [h, hst] at hb
    cases hb
  cases h with
  | quiet _ _ _ hr => exact .inl (by rw [hr.state]; exact hb)
  | notSent hst _ hr =>
    obtain ⟨hs₁, e, site, rfl | hr, ho⟩ := hr
    · exact .inl (by rw [ho]; exact hb)
    · refine .inl ?_
      rw [ho]
      show hs₁.state.beforeKeys = true
      rw [(congrArg HsCtx.state hr.frame :)]
      exact hb
  | clientHello => exact .inl rfl
  | ccs => exact .inl rfl
  | helloRefused _ _ h => exact .inl (by rw [(congrArg HsCtx.state h.frame :)]; exact hb)
  | helloRetry => exact .inl rfl
  | @serverHello msg suite shared hst hpay hacc =>
    have hsized : (afterServerHello hs msg suite).Sized :=
      ⟨hz.client, hz.server, hz.resMaster, hz.hash⟩
    have hsuite := suiteOk_of (hacc.hash.trans hz.hash) hacc.keyLen
    have hk := @handshakeKeys_installHandshakeKeys C _ shared hsized hsuite
    exact .inr ⟨hst, msg, shared, hpay, hacc.shared, rfl,
      hk.congr rfl rfl rfl rfl rfl rfl (List.prefix_refl _)⟩
  | refused hst =>
    have hreads : ∀ st : HsState, st.beforeKeys = true → st.reads = false := by
      intro st hst
      cases st with
      | sendClientHello | sendCcs | recvServerHello => rfl
      | _ => cases hst
    rw [hreads _ hb] at hst
    cases hst
  | parkedRefused h => exact (hno h rfl).elim
  | encryptedExtensions h => exact (hno h rfl).elim
  | certificateRequest h => exact (hno h rfl).elim
  | certificateParked h => exact (hno h rfl).elim
  | parkedCertificate h => exact (hno h rfl).elim
  | certificate h => exact (hno h rfl).elim
  | certificateVerify h => exact (hno h rfl).elim
  | serverFinished h => exact (hno h rfl).elim
  | clientFinished h => exact (hno h rfl).elim

/-- Nothing is left to do in a complete handshake. -/
theorem tls13HandshakeStep_complete {rnd : ClientRandom} {hs : HsCtx} {recv : Bytes}
    (h : hs.state = .complete) : (tls13HandshakeStep C hostname rnd hs recv).hs = hs ∧
      (tls13HandshakeStep C hostname rnd hs recv).res = .ok := by
  unfold tls13HandshakeStep
  rw [h]
  exact ⟨rfl, rfl⟩

/-- A step that completes the handshake is no error. -/
theorem live_of_complete (hw : s.hs.Wf) (hdone : (s.step C hostname i).hs.state = .complete) :
    Live C hostname s i := by
  by_cases hst : s.hs.state = .complete
  · obtain ⟨-, hres⟩ := @tls13HandshakeStep_complete C hostname i.rnd s.hs i.recv hst
    unfold Live Session.out
    rw [hres]
    exact ⟨by decide, by decide⟩
  · have ht := transition_step C hostname i.rnd i.recv hw
    unfold Session.step at hdone
    unfold Live
    unfold Session.out at hdone ⊢
    dsimp only at hdone
    have hkeep : ∀ {hs : HsCtx}, hs.state = s.hs.state → hs.state = .complete → False :=
      fun h hc => hst (h.symm.trans hc)
    generalize (tls13HandshakeStep C hostname i.rnd s.hs i.recv).toOutcome = o at ht hdone ⊢
    cases ht with
    | quiet _ _ _ hr => exact (hkeep hr.state hdone).elim
    | notSent _ _ hr =>
      obtain ⟨hs₁, e, site, rfl | hr, ho⟩ := hr
      · exact (hst (by rw [ho] at hdone; exact hdone)).elim
      · rw [ho] at hdone
        exact (hkeep (congrArg HsCtx.state hr.frame :) hdone).elim
    | helloRefused _ _ h => exact (hkeep (congrArg HsCtx.state h.frame :) hdone).elim
    | refused _ _ hr _ h ho =>
      obtain ⟨e, he⟩ := h.hs
      rw [ho] at hdone
      dsimp only at hdone
      rw [he] at hdone
      exact (hkeep hr.state hdone).elim
    | parkedRefused _ _ h =>
      obtain ⟨e, he⟩ := h.hs
      rw [he] at hdone
      exact (hst hdone).elim
    | clientFinished => exact ⟨by simp, by simp⟩
    | encryptedExtensions =>
      dsimp only at hdone
      split_ifs at hdone
    | _ => cases hdone

/-! ### The invariant -/

/-- How far a handshake run is. -/
structure Shaken (C : Crypto) (hostname : Bytes) (s : Session) : Prop where
  run : HandshakeRun C hostname s
  messages : MessagesInv C s
  sized : s.hs.Sized
  /-- From the ServerHello on the context has the keys, whatever was sent of its buffer. -/
  keys : s.hs.state.beforeKeys = true ∨ ∃ s₀ i msg dhe n, AcceptsHello C hostname s₀ i msg dhe s ∧
    KeysAgreed C hostname s₀ i dhe (s.sent n).hs

theorem MessagesInv.sent (h : MessagesInv C s) (n : ℕ) : MessagesInv C (s.sent n) :=
  ⟨⟨h.ok.hash, h.ok.messages⟩, ⟨h.wf.hrrPending, h.wf.plainOk⟩, h.noCcs, h.early, h.full, h.parked⟩

theorem Shaken.sent (h : Shaken C hostname s) (n : ℕ) : Shaken C hostname (s.sent n) where
  run := h.run.sent n
  messages := h.messages.sent n
  sized := ⟨h.sized.client, h.sized.server, h.sized.resMaster, h.sized.hash⟩
  keys := by
    obtain hb | ⟨s₀, i, msg, dhe, k, haccepts, hkeys⟩ := h.keys
    · exact .inl hb
    · exact .inr ⟨s₀, i, msg, dhe, k, haccepts.sent n, hkeys⟩

theorem Shaken.step (h : Shaken C hostname s) {j : StepInput} (hl : Live C hostname s j) :
    Shaken C hostname (s.step C hostname j) := by
  have hw := h.messages.wf
  have ht := transition_step C hostname j.rnd j.recv hw
  refine ⟨h.run.step hl, messagesInv_step h.messages hl, ht.sized h.sized, ?_⟩
  obtain hb | ⟨s₀, i, msg, dhe, n, haccepts, hkeys⟩ := h.keys
  · obtain hb | ⟨hst, msg, dhe, hpay, hshared, hlog, hkeys⟩ := ht.accepts h.sized hb
    · exact .inl hb
    · -- this step accepts the ServerHello
      have hlogged : (s.step C hostname j).log = s.log ++ [.received (helloMessage msg),
          .earlySecret (s.step C hostname j).hs.earlyPsk] := congrArg (s.log ++ ·) hlog
      exact .inr ⟨s, j, msg, dhe, _,
        ⟨h.run, hst, hpay, hshared, hlogged ▸ List.prefix_refl _, .refl⟩, hkeys⟩
  · refine .inr ?_
    by_cases hst : s.hs.state = .complete
    · have hsame : (s.step C hostname j).hs = s.hs := (tls13HandshakeStep_complete hst).1
      refine ⟨s₀, i, msg, dhe, n, haccepts.step hl, ?_⟩
      rw [Session.sent, hsame]
      exact hkeys
    · exact ⟨s₀, i, msg, dhe, _, haccepts.step hl,
        keysAt_step j hw h.sized (keysAt_of_offset hkeys hst)⟩

theorem shaken_of_run (h : HandshakeRun C hostname s) : Shaken C hostname s := by
  obtain ⟨hasEngine, resuming, offerTicket, age, h⟩ := h
  refine h.invariant (P := Shaken C hostname) ⟨⟨_, _, _, _, .refl⟩,
    messagesInv_start C hasEngine resuming offerTicket age,
    sized_start hasEngine resuming offerTicket age, .inl rfl⟩ fun s i hs hl => ?_
  cases i with
  | step i => exact hs.step hl
  | sent n => exact hs.sent n

/-- A completed handshake has the keys of the schedule for the ServerHello that it accepted and for
the messages that it logged. -/
theorem agreedKeys_of_run (h : HandshakeRun C hostname s) (hdone : s.hs.state = .complete) :
    ∃ n, AgreedKeys C hostname (s.sent n) := by
  have hs := shaken_of_run h
  obtain hb | ⟨s₀, i, msg, dhe, n, haccepts, hkeys⟩ := hs.keys
  · rw [hdone] at hb
    cases hb
  · obtain ⟨before, happ⟩ := KeysAt.complete hkeys hdone
    refine ⟨n, s₀, i, msg, dhe, before, haccepts.sent n, happ, ?_⟩
    obtain ⟨msgs, hmsgs, -, hdata⟩ := hs.messages.ok.messages
    -- nothing is parked at the end
    have hparked : s.hs.parked = [] := by
      refine parked_eq_nil (Nat.eq_zero_of_not_pos fun hpos => ?_)
      cases hdone.symm.trans (hs.messages.parked hpos).1
    rw [hparked, List.append_nil] at hmsgs
    show s.hs.transcript.data = transcriptBytes C s.hs.hrrReceived (messages s.log)
    rw [hmsgs]
    exact hdata

end MacTLS
