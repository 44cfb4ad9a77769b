import MacTLS.Handshake.Transition
import Mathlib.Data.List.Forall2

/-!
# The transcript and the order of messages

Which handshake messages a context has seen is decided by its state and three flags; the
transcript is the hash of exactly these messages.

* `prescribed` : the message types a context stands for, in order;
* `transcriptBytes` : the bytes hashed for a list of messages, with `message_hash` in place of the
  first ClientHello once a HelloRetryRequest was accepted;
* `TranscriptOk` : the log and the transcript of a session are those prescribed;
* `transcriptOk_of_reach` : so they are in every state that is reached without an error.
-/

namespace MacTLS

open Lib

/-! ### What a context prescribes -/

/-- The handshake message of an event, sent or received. -/
def HsEvent.message : HsEvent → Option Bytes
  | .sent msg => some msg
  | .received msg => some msg
  | _ => none

/-- The handshake messages of a log, in order. -/
def messages (log : List HsEvent) : List Bytes := log.filterMap HsEvent.message

/-- A complete handshake message of the given type: type, 24-bit length and body. -/
def IsMessage (type : UInt8) (msg : Bytes) : Prop :=
  ∃ body : Bytes, body.length < 16777216 ∧ msg = hsMessage type body

/-- A first ClientHello and the HelloRetryRequest that answered it. -/
def HsCtx.retried (hs : HsCtx) : List UInt8 :=
  if hs.hrrReceived then [tls13HtClientHello, tls13HtServerHello] else []

def HsCtx.request (hs : HsCtx) : List UInt8 :=
  if hs.certRequestReceived then [tls13HtCertificateRequest] else []

/-- The messages between EncryptedExtensions and the server Finished. -/
def HsCtx.authentication (hs : HsCtx) : List UInt8 :=
  if hs.resumptionAccepted then []
  else hs.request ++ [tls13HtCertificate, tls13HtCertificateVerify]

/-- The types of the messages in the transcript of a context. -/
def prescribed (hs : HsCtx) : List UInt8 :=
  let hello := hs.retried ++ [tls13HtClientHello]
  let extensions := hello ++ [tls13HtServerHello, tls13HtEncryptedExtensions]
  match hs.state with
  | .sendClientHello => hs.retried
  | .sendCcs | .recvServerHello => hello
  | .recvEncryptedExtensions => hello ++ [tls13HtServerHello]
  | .recvCertRequestOrCert => extensions
  | .recvCertificate => extensions ++ hs.request
  | .recvCertificateVerify => extensions ++ hs.request ++ [tls13HtCertificate]
  | .recvFinished => extensions ++ hs.authentication
  | .sendFinished => extensions ++ hs.authentication ++ [tls13HtFinished]
  | .complete => extensions ++ hs.authentication ++ [tls13HtFinished, tls13HtFinished]

/-- The bytes hashed for a list of messages: after a HelloRetryRequest the first ClientHello is
replaced by the synthetic `message_hash` of its hash. -/
def transcriptBytes (C : Crypto) (retried : Bool) (msgs : List Bytes) : Bytes :=
  match retried, msgs with
  | true, ch1 :: rest => messageHash (C.hash .sha256 ch1) ++ rest.flatten
  | _, msgs => msgs.flatten

/-- A Certificate received but not yet processed. -/
def HsCtx.parked (hs : HsCtx) : List Bytes :=
  if hs.pendingRecvMsgLen > 0 then [hs.msgBuf.take hs.pendingRecvMsgLen] else []

/-- The messages put on and taken off the wire are those prescribed, each once and whole, in
order, followed by a parked Certificate if there is one; and the transcript is their hash. -/
structure TranscriptOk (C : Crypto) (s : Session) : Prop where
  hash : s.hs.transcript.hash = .sha256
  messages : ∃ msgs, messages s.log = msgs ++ s.hs.parked ∧
    List.Forall₂ IsMessage (prescribed s.hs) msgs ∧
    s.hs.transcript.data = transcriptBytes C s.hs.hrrReceived msgs

/-- The types a state accepts; any other message is an error. -/
def HsState.expected : HsState → List UInt8
  | .recvServerHello => [tls13HtServerHello]
  | .recvEncryptedExtensions => [tls13HtEncryptedExtensions]
  | .recvCertRequestOrCert => [tls13HtCertificateRequest, tls13HtCertificate]
  | .recvCertificate => [tls13HtCertificate]
  | .recvCertificateVerify => [tls13HtCertificateVerify]
  | .recvFinished => [tls13HtFinished]
  | _ => []

/-! ### Messages and transcript bytes -/

theorem isMessage_of_length {msg : Bytes} (h : msg.length = declaredLen msg) :
    IsMessage (byteAt msg 0) msg := by
  refine ⟨msg.drop 4, ?_, eq_hsMessage h⟩
  have := getU24_lt msg 1
  rw [List.length_drop, h, declaredLen]
  omega

theorem HelloFramed.isMessage {msg : Bytes} (h : HelloFramed msg) :
    IsMessage tls13HtServerHello (helloMessage msg) := by
  have hdecl : declaredLen (helloMessage msg) = declaredLen msg := by
    rw [declaredLen, helloMessage, getU24_take (by rw [declaredLen]; omega), declaredLen]
  have hlen : (helloMessage msg).length = declaredLen (helloMessage msg) := by
    rw [hdecl, helloMessage, List.length_take, Nat.min_eq_left h.length]
  have htype : byteAt (helloMessage msg) 0 = tls13HtServerHello := by
    rw [helloMessage, byteAt_take (by rw [declaredLen]; omega), h.type]
  exact htype ▸ isMessage_of_length hlen

theorem transcriptBytes_append (C : Crypto) {retried : Bool} {msgs : List Bytes} (m : Bytes)
    (h : retried = true → msgs ≠ []) :
    transcriptBytes C retried (msgs ++ [m]) = transcriptBytes C retried msgs ++ m := by
  cases retried with
  | false => simp [transcriptBytes]
  | true =>
    cases msgs with
    | nil => exact absurd rfl (h rfl)
    | cons ch1 rest => simp [transcriptBytes]

/-- The messages of these types are in the transcript. -/
def Recorded (C : Crypto) (types : List UInt8) (hs : HsCtx) (msgs : List Bytes) : Prop :=
  List.Forall₂ IsMessage types msgs ∧
    hs.transcript.data = transcriptBytes C hs.hrrReceived msgs

/-- One more message at the end of the transcript. -/
theorem Recorded.append {C : Crypto} {types : List UInt8} {hs hs' : HsCtx} {msgs : List Bytes}
    {t : UInt8} {m : Bytes} (h : Recorded C types hs msgs) (ht : hs.hrrReceived = true → types ≠ [])
    (hm : IsMessage t m) (hhrr : hs'.hrrReceived = hs.hrrReceived)
    (hdata : hs'.transcript.data = hs.transcript.data ++ m) :
    Recorded C (types ++ [t]) hs' (msgs ++ [m]) := by
  refine ⟨List.rel_append h.1 (.cons hm .nil), ?_⟩
  rw [hdata, hhrr, transcriptBytes_append, h.2]
  rintro hr rfl
  exact ht hr (List.forall₂_nil_right_iff.1 h.1)

/-! ### The invariant -/

@[simp] theorem messages_append (l l' : List HsEvent) :
    messages (l ++ l') = messages l ++ messages l' :=
  List.filterMap_append

/-- `TranscriptOk` with what carries it through a step. -/
structure MessagesInv (C : Crypto) (s : Session) : Prop where
  ok : TranscriptOk C s
  wf : s.hs.Wf
  noCcs : s.hs.state ≠ .sendCcs
  /-- Before the Certificate no CertificateRequest was seen. -/
  early : s.hs.state = .sendClientHello ∨ s.hs.state = .recvServerHello ∨
    s.hs.state = .recvEncryptedExtensions ∨ s.hs.state = .recvCertRequestOrCert →
    s.hs.certRequestReceived = false
  /-- Certificates are only waited for on the full path. -/
  full : s.hs.state = .recvCertRequestOrCert ∨ s.hs.state = .recvCertificate ∨
    s.hs.state = .recvCertificateVerify → s.hs.resumptionAccepted = false
  parked : s.hs.pendingRecvMsgLen > 0 → s.hs.state = .recvCertificate ∧
    s.hs.certRequestReceived = false ∧
    (s.hs.msgBuf.take s.hs.pendingRecvMsgLen).length =
      declaredLen (s.hs.msgBuf.take s.hs.pendingRecvMsgLen)

/-- A step that returned neither an error nor the fallback to TLS 1.2. -/
def Live (C : Crypto) (hostname : Bytes) (s : Session) (i : StepInput) : Prop :=
  (s.out C hostname i).res ≠ .error ∧ (s.out C hostname i).res ≠ .fallback12

instance (C : Crypto) (hostname : Bytes) (s : Session) (i : StepInput) :
    Decidable (Live C hostname s i) :=
  inferInstanceAs (Decidable (_ ∧ _))

theorem parked_eq_nil {hs : HsCtx} (h : hs.pendingRecvMsgLen = 0) : hs.parked = [] := by
  rw [HsCtx.parked, if_neg (by omega)]

section

variable {C : Crypto} {s : Session} {hs' : HsCtx} {new : List HsEvent} {t : UInt8} {m : Bytes}

/-- A step that puts one more message into the transcript. -/
theorem TranscriptOk.advance (h : TranscriptOk C s) (hp : s.hs.parked = [])
    (hp' : hs'.parked = []) (hnew : MacTLS.messages new = [m])
    (hty : prescribed hs' = prescribed s.hs ++ [t])
    (hne : s.hs.hrrReceived = true → prescribed s.hs ≠ []) (hm : IsMessage t m)
    (hhrr : hs'.hrrReceived = s.hs.hrrReceived)
    (htr : hs'.transcript = tls13TranscriptUpdate s.hs.transcript m) :
    TranscriptOk C ⟨hs', s.log ++ new⟩ := by
  obtain ⟨msgs, hlog, hrec⟩ := h.messages
  refine ⟨by rw [htr]; exact h.hash, msgs ++ [m], ?_, ?_⟩
  · rw [messages_append, hnew, hlog, hp, hp', List.append_nil, List.append_nil]
  · rw [hty]
    exact Recorded.append hrec hne hm hhrr (by rw [htr]; rfl)

/-- A step that leaves messages, flags and transcript alone. -/
theorem TranscriptOk.frame (h : TranscriptOk C s) (hp : hs'.parked = s.hs.parked)
    (hnew : MacTLS.messages new = []) (hty : prescribed hs' = prescribed s.hs)
    (hhrr : hs'.hrrReceived = s.hs.hrrReceived) (htr : hs'.transcript = s.hs.transcript) :
    TranscriptOk C ⟨hs', s.log ++ new⟩ := by
  obtain ⟨msgs, hlog, hrec⟩ := h.messages
  refine ⟨by rw [htr]; exact h.hash, msgs, ?_, ?_⟩
  · rw [messages_append, hnew, hlog, hp, List.append_nil]
  · rw [hty, htr, hhrr]; exact hrec

/-- An accepted HelloRetryRequest: the transcript restarts with the hash of the ClientHello. -/
theorem TranscriptOk.retry (h : TranscriptOk C s) (hp : s.hs.parked = [])
    (hp' : hs'.parked = []) (hnew : MacTLS.messages new = [m])
    (hty : prescribed s.hs = [tls13HtClientHello])
    (hty' : prescribed hs' = [tls13HtClientHello, tls13HtServerHello])
    (hm : IsMessage tls13HtServerHello m) (hfirst : s.hs.hrrReceived = false)
    (hhrr : hs'.hrrReceived = true)
    (htr : hs'.transcript =
      tls13TranscriptUpdate (tls13TranscriptResetForHrr C s.hs.transcript) m) :
    TranscriptOk C ⟨hs', s.log ++ new⟩ := by
  obtain ⟨msgs, hlog, hall, hdata⟩ := h.messages
  rw [hty] at hall
  obtain ⟨ch1, rest, hch1, hrest, rfl⟩ := List.forall₂_cons_left_iff.1 hall
  obtain rfl := List.forall₂_nil_left_iff.1 hrest
  have hd : s.hs.transcript.data = ch1 := by simpa [hfirst, transcriptBytes] using hdata
  refine ⟨by rw [htr]; exact h.hash, [ch1, m], ?_, ?_, ?_⟩
  · rw [messages_append, hnew, hlog, hp, hp']
    rfl
  · rw [hty']
    exact .cons hch1 (.cons hm .nil)
  · dsimp only
    rw [htr, hhrr]
    simp [tls13TranscriptUpdate, tls13TranscriptResetForHrr, tls13TranscriptInit,
      tls13TranscriptSnapshot, transcriptBytes, hd, h.hash]

/-- A Certificate is received and parked. -/
theorem TranscriptOk.park (h : TranscriptOk C s) (hp : s.hs.parked = [])
    (hp' : hs'.parked = [m]) (hnew : MacTLS.messages new = [m])
    (hty : prescribed hs' = prescribed s.hs) (hhrr : hs'.hrrReceived = s.hs.hrrReceived)
    (htr : hs'.transcript = s.hs.transcript) : TranscriptOk C ⟨hs', s.log ++ new⟩ := by
  obtain ⟨msgs, hlog, hrec⟩ := h.messages
  refine ⟨by rw [htr]; exact h.hash, msgs, ?_, ?_⟩
  · rw [messages_append, hnew, hlog, hp, hp', List.append_nil]
  · rw [hty, htr, hhrr]; exact hrec

/-- The parked Certificate goes into the transcript. -/
theorem TranscriptOk.unpark (h : TranscriptOk C s) (hp : s.hs.parked = [m])
    (hp' : hs'.parked = []) (hnew : MacTLS.messages new = [])
    (hty : prescribed hs' = prescribed s.hs ++ [t])
    (hne : s.hs.hrrReceived = true → prescribed s.hs ≠ []) (hm : IsMessage t m)
    (hhrr : hs'.hrrReceived = s.hs.hrrReceived)
    (htr : hs'.transcript = tls13TranscriptUpdate s.hs.transcript m) :
    TranscriptOk C ⟨hs', s.log ++ new⟩ := by
  obtain ⟨msgs, hlog, hrec⟩ := h.messages
  refine ⟨by rw [htr]; exact h.hash, msgs ++ [m], ?_, ?_⟩
  · rw [messages_append, hnew, hlog, hp, hp', List.append_nil]
  · rw [hty]
    exact Recorded.append hrec hne hm hhrr (by rw [htr]; rfl)

end

theorem prescribed_read {hs hs' : HsCtx} (hr : Read hs hs') : prescribed hs' = prescribed hs := by
  simp only [prescribed, HsCtx.authentication, HsCtx.request, HsCtx.retried, hr.state,
    hr.hrrReceived, hr.certRequestReceived, hr.resumptionAccepted]

theorem IsMessage.ofBody {t : UInt8} {body : Bytes} (h : body.length < 16777216) :
    IsMessage t (hsMessage t body) :=
  ⟨body, h, rfl⟩

theorem isMessage_finished (C : Crypto) (t : Transcript) (key : Bytes) :
    IsMessage tls13HtFinished (hsMessage tls13HtFinished (finishedVerifyData C t key)) := by
  refine .ofBody ?_
  rw [length_finishedVerifyData, Transcript.hashLen]
  cases t.hash <;> decide

/-- A ClientHello that fits its record is a complete message. -/
theorem isMessage_clientHello {C : Crypto} {hs : HsCtx} {hostname : Bytes}
    (hfit : (clientHelloRecord (clientHello C hs hostname)).length ≤ hsBufSize) :
    IsMessage tls13HtClientHello (clientHello C hs hostname) := by
  have hbody : ∀ body, (clientHelloRecord (hsMessage tls13HtClientHello body)).length ≤ hsBufSize →
      IsMessage tls13HtClientHello (hsMessage tls13HtClientHello body) := by
    intro body h
    refine .ofBody ?_
    simp only [clientHelloRecord, List.length_append, length_hsMessage, hsBufSize] at h
    omega
  unfold clientHello at hfit ⊢
  dsimp only at hfit ⊢
  split at hfit <;> exact hbody _ hfit

/-- The transcript a ClientHello continues is the one there already was. -/
theorem HelloReady.transcript_eq {C : Crypto} {s : Session} {hs₁ : HsCtx}
    (h : TranscriptOk C s) (hst : s.hs.state = .sendClientHello) (hr : HelloReady s.hs hs₁) :
    hs₁.transcript = s.hs.transcript := by
  rw [hr.transcript]
  split_ifs with hhrr
  · rfl
  · obtain ⟨msgs, -, hall, hdata⟩ := h.messages
    have hnil : msgs = [] := by
      have hp : prescribed s.hs = [] := by simp [prescribed, hst, HsCtx.retried, hhrr]
      rw [hp] at hall
      exact List.forall₂_nil_left_iff.1 hall
    have hhash := h.hash
    subst hnil
    cases htr : s.hs.transcript with
    | mk hash data =>
      rw [htr] at hdata hhash
      simp only [Bool.not_eq_true] at hhrr
      simp only [hhrr, transcriptBytes] at hdata hhash
      rw [hdata, hhash]
      rfl

/-- One live step keeps the invariant. -/
theorem messagesInv_step {C : Crypto} {hostname : Bytes} {s : Session} {i : StepInput}
    (h : MessagesInv C s) (hl : Live C hostname s i) :
    MessagesInv C (s.step C hostname i) := by
  have ht := transition_step C hostname i.rnd i.recv h.wf
  have hwf := ht.wf h.wf
  -- nothing is parked elsewhere
  have hnot : ∀ st, s.hs.state = st → st ≠ .recvCertificate → s.hs.pendingRecvMsgLen = 0 := by
    intro st hst hne
    by_contra h0
    exact hne (hst.symm.trans (h.parked (Nat.pos_of_ne_zero h0)).1)
  obtain ⟨herr, hfb⟩ := hl
  unfold Session.out at herr hfb
  unfold Session.step Session.out
  dsimp only
  generalize (tls13HandshakeStep C hostname i.rnd s.hs i.recv).toOutcome = o at ht hwf herr hfb
  cases ht with
  | quiet hst hsame hpend hr hlog =>
    have h0 : s.hs.pendingRecvMsgLen = 0 := by
      by_contra h0
      exact h0 (hpend (h.parked (Nat.pos_of_ne_zero h0)).1)
    have h0' : o.hs.pendingRecvMsgLen = 0 := hr.pendingRecvMsgLen.trans h0
    refine ⟨?_, hwf, ?_, ?_, ?_, ?_⟩
    · exact h.ok.frame (by rw [parked_eq_nil h0, parked_eq_nil h0']) (by rw [hlog]; rfl)
        (prescribed_read hr) hr.hrrReceived hr.transcript
    · rw [hr.state]; exact h.noCcs
    · rw [hr.state, hr.certRequestReceived]; exact h.early
    · rw [hr.state, hr.resumptionAccepted]; exact h.full
    · intro hf; exact absurd h0' (Nat.ne_of_gt hf)
  -- the steps that end the handshake are excluded by `Live`
  | notSent hst hres hr hlog => exact absurd hres herr
  -- the two hellos are prescribed apart: the second follows the retry
  | @clientHello hs₁ msg hst hr hmsg hfit =>
    have h0 := hnot _ hst (by simp)
    have h0' : hs₁.pendingRecvMsgLen = 0 :=
      (congrArg HsCtx.pendingRecvMsgLen hr.frame).trans h0
    have hhrr : hs₁.hrrReceived = s.hs.hrrReceived := (congrArg HsCtx.hrrReceived hr.frame :)
    have htr := hr.transcript_eq h.ok hst
    subst hmsg
    refine ⟨?_, hwf, by simp, ?_, by simp, ?_⟩
    · refine h.ok.advance (parked_eq_nil h0) (parked_eq_nil h0') rfl ?_ ?_
        (isMessage_clientHello hfit) hhrr (by rw [htr])
      · simp [prescribed, hst, HsCtx.retried, hhrr]
      · intro hh; simp [prescribed, hst, HsCtx.retried, hh]
    · intro _
      exact (congrArg HsCtx.certRequestReceived hr.frame).trans (h.early (by simp [hst]))
    · intro hf; exact absurd h0' (Nat.ne_of_gt hf)
  | ccs hst => exact absurd hst h.noCcs
  | helloRefused hst hpay h hlog =>
    obtain h | h := h.res
    · exact absurd h herr
    · exact absurd h.1 hfb
  -- the transcript starts again from the hash of the first hello
  | @helloRetry msg suite group hst hpay hf hfirst =>
    have h0 := hnot _ hst (by simp)
    refine ⟨?_, hwf, by simp, ?_, by simp, ?_⟩
    · refine h.ok.retry (parked_eq_nil h0) (parked_eq_nil h0) rfl ?_ ?_ hf.isMessage hfirst rfl rfl
      · simp [prescribed, hst, HsCtx.retried, hfirst]
      · simp [prescribed, HsCtx.retried, afterHelloRetry]
    · intro _
      exact h.early (by simp [hst])
    · intro hf'; exact absurd h0 (Nat.ne_of_gt hf')
  | @serverHello msg suite shared hst hpay hacc =>
    have h0 := hnot _ hst (by simp)
    refine ⟨?_, hwf, by simp, ?_, by simp, ?_⟩
    · refine h.ok.advance (parked_eq_nil h0) (parked_eq_nil h0) rfl ?_ (by simp [prescribed, hst])
        hacc.framed.isMessage rfl rfl
      simp [prescribed, hst, HsCtx.retried, installHandshakeKeys, afterServerHello,
        HsCtx.applyExts]
    · intro _
      exact h.early (by simp [hst])
    · intro hf'; exact absurd h0 (Nat.ne_of_gt hf')
  | refused hst hpend hr hup h ho => exact absurd (by rw [ho]; exact h.res) herr
  | parkedRefused hst hpend h => exact absurd h.res herr
  | encryptedExtensions hst hr hup htype =>
    have h0 := hnot _ hst (by simp)
    refine ⟨?_, hwf, ?_, ?_, ?_, ?_⟩
    · refine h.ok.advance (parked_eq_nil h0)
        (parked_eq_nil (hr.pendingRecvMsgLen.trans h0)) rfl ?_ (by simp [prescribed, hst])
        (isMessage_of_length hup.length) hr.hrrReceived (hr.update_transcript hup)
      cases hacc : s.hs.resumptionAccepted <;>
        simp [prescribed, hst, HsCtx.update, hr.resumptionAccepted, hacc, HsCtx.retried,
          hr.hrrReceived, HsCtx.authentication, htype]
    · dsimp only; split_ifs <;> simp
    · intro _
      exact hr.certRequestReceived.trans (h.early (by simp [hst]))
    · intro hf
      dsimp only at hf ⊢
      split_ifs at hf with hacc
      · simp at hf
      · exact Bool.eq_false_iff.2 hacc
    · intro hf
      exact absurd (hr.pendingRecvMsgLen.trans h0) (Nat.ne_of_gt hf)
  | certificateRequest hst hr hup htype =>
    have h0 := hnot _ hst (by simp)
    refine ⟨?_, hwf, by simp, by simp, ?_, ?_⟩
    · refine h.ok.advance (parked_eq_nil h0)
        (parked_eq_nil (hr.pendingRecvMsgLen.trans h0)) rfl ?_ (by simp [prescribed, hst])
        (isMessage_of_length hup.length) hr.hrrReceived (hr.update_transcript hup)
      simp [prescribed, hst, HsCtx.update, HsCtx.retried, hr.hrrReceived, HsCtx.request, htype]
    · intro _
      exact hr.resumptionAccepted.trans (h.full (by simp [hst]))
    · intro hf
      exact absurd (hr.pendingRecvMsgLen.trans h0) (Nat.ne_of_gt hf)
  -- parked, the certificate is received but not in the transcript yet
  | @certificateParked hs₁ msg hst hr hup htype =>
    have h0 := hnot _ hst (by simp)
    have hreq : hs₁.certRequestReceived = false :=
      hr.certRequestReceived.trans (h.early (by simp [hst]))
    have hpos : msg.length > 0 := by rw [hup.length, declaredLen]; omega
    refine ⟨?_, hwf, by simp, by simp, ?_, ?_⟩
    · refine h.ok.park (m := msg) (parked_eq_nil h0) ?_ rfl ?_ hr.hrrReceived hr.transcript
      · simp only [HsCtx.parked, if_pos hpos, hup.msgBuf]
      · simp [prescribed, hst, HsCtx.retried, hr.hrrReceived, HsCtx.request, hreq]
    · intro _
      exact hr.resumptionAccepted.trans (h.full (by simp [hst]))
    · intro _
      refine ⟨rfl, hreq, ?_⟩
      dsimp only
      rw [hup.msgBuf]; exact hup.length
  -- and enters it here, with no message received
  | @parkedCertificate certs pkey hst hpend hacc =>
    obtain ⟨-, hreq, hlen⟩ := h.parked hpend
    refine ⟨?_, hwf, by simp, by simp, ?_, by simp [HsCtx.update]⟩
    · refine h.ok.unpark (by rw [HsCtx.parked, if_pos hpend]) (parked_eq_nil rfl) rfl ?_
        (by simp [prescribed, hst]) (hacc.type ▸ isMessage_of_length hlen) rfl ?_
      · simp [prescribed, hst, HsCtx.update, HsCtx.retried, HsCtx.request]
      · dsimp only
        rw [HsCtx.update, ← hlen, List.take_length]
    · intro _
      exact h.full (by simp [hst])
  | certificate hst hpend hr hup hacc =>
    have h0' := hr.pendingRecvMsgLen.trans hpend
    refine ⟨?_, hwf, by simp, by simp, ?_, ?_⟩
    · refine h.ok.advance (parked_eq_nil hpend) (parked_eq_nil h0') rfl ?_
        (by simp [prescribed, hst]) (hacc.type ▸ isMessage_of_length hup.length) hr.hrrReceived
        (hr.update_transcript hup)
      simp [prescribed, hst, HsCtx.update, HsCtx.retried, hr.hrrReceived, HsCtx.request,
        hr.certRequestReceived]
    · intro _
      exact hr.resumptionAccepted.trans (h.full (by simp [hst]))
    · intro hf; exact absurd h0' (Nat.ne_of_gt hf)
  | certificateVerify hst hr hup htype hkey =>
    have h0 := hnot _ hst (by simp)
    have h0' := hr.pendingRecvMsgLen.trans h0
    have hfull := hr.resumptionAccepted.trans (h.full (by simp [hst]))
    refine ⟨?_, hwf, by simp, by simp, by simp, ?_⟩
    · refine h.ok.advance (parked_eq_nil h0) (parked_eq_nil h0') rfl ?_
        (by simp [prescribed, hst]) (htype ▸ isMessage_of_length hup.length) hr.hrrReceived
        (hr.update_transcript hup)
      simp [prescribed, hst, HsCtx.update, HsCtx.retried, hr.hrrReceived, HsCtx.request,
        hr.certRequestReceived, HsCtx.authentication, hfull]
    · intro hf; exact absurd h0' (Nat.ne_of_gt hf)
  | serverFinished hst hr hup hmsg =>
    have h0 := hnot _ hst (by simp)
    have h0' := hr.pendingRecvMsgLen.trans h0
    refine ⟨?_, hwf, by simp [installServerAppKeys], by simp [installServerAppKeys],
      by simp [installServerAppKeys], ?_⟩
    · refine h.ok.advance (parked_eq_nil h0) (parked_eq_nil h0') rfl ?_
        (by simp [prescribed, hst]) (hmsg ▸ isMessage_finished _ _ _)
        hr.hrrReceived (hr.update_transcript hup)
      simp [prescribed, hst, HsCtx.update, installServerAppKeys, HsCtx.retried, hr.hrrReceived,
        HsCtx.request, hr.certRequestReceived, HsCtx.authentication, hr.resumptionAccepted]
    · intro hf; exact absurd h0' (Nat.ne_of_gt hf)
  | clientFinished hst =>
    have h0 := hnot _ hst (by simp)
    refine ⟨?_, hwf, by simp [installClientAppKeys], by simp [installClientAppKeys],
      by simp [installClientAppKeys], ?_⟩
    · refine h.ok.advance (parked_eq_nil h0) (parked_eq_nil h0) rfl ?_
        (by simp [prescribed, hst]) (isMessage_finished _ _ _) rfl rfl
      rw [prescribed, prescribed, hst]
      exact (List.append_assoc _ [tls13HtFinished] [tls13HtFinished]).symm
    · intro hf; exact absurd h0 (Nat.ne_of_gt hf)

/-! ### Runs -/

theorem messagesInv_start (C : Crypto) (hasEngine resuming : Bool)
    (offerTicket : Option SessionTicket) (age : ℕ) :
    MessagesInv C (Session.start hasEngine resuming offerTicket age) where
  ok := ⟨rfl, [], rfl, .nil, rfl⟩
  wf := ⟨rfl, Nat.le_refl 0⟩
  noCcs := by simp [Session.start, tls13HandshakeInit]
  early := fun _ => rfl
  full := by simp [Session.start, tls13HandshakeInit]
  parked := fun h => absurd h (Nat.lt_irrefl 0)

theorem messagesInv_of_reach {C : Crypto} {hostname : Bytes} {hasEngine resuming : Bool}
    {offerTicket : Option SessionTicket} {age : ℕ} {s : Session}
    (h : Reach (Session.step C hostname) (Live C hostname)
      (Session.start hasEngine resuming offerTicket age) s) : MessagesInv C s :=
  h.invariant (messagesInv_start C hasEngine resuming offerTicket age)
    fun _ _ => messagesInv_step

section

variable {C : Crypto} {hostname : Bytes} {s : Session}

/-- A message of a type the state does not expect is an error, and stays out of the
transcript. -/
theorem unexpected_message (h : MessagesInv C s) (i : StepInput) {m : Bytes}
    (hm : .received m ∈ (s.out C hostname i).log) (ht : byteAt m 0 ∉ s.hs.state.expected) :
    (s.out C hostname i).res = .error ∧
      (s.out C hostname i).hs.transcript = s.hs.transcript := by
  have htr := transition_step C hostname i.rnd i.recv h.wf
  unfold Session.out at hm ⊢
  generalize (tls13HandshakeStep C hostname i.rnd s.hs i.recv).toOutcome = o at htr hm ⊢
  have hfin : ∀ t : UInt8, ∀ body, byteAt (hsMessage t body) 0 = t := fun _ _ => rfl
  cases htr with
  | quiet hst hsame hpend hr hlog => rw [hlog] at hm; cases hm
  | notSent hst hres hr hlog => rw [hlog] at hm; cases hm
  | clientHello hst hr hmsg hfit => simp at hm
  | ccs hst => simp at hm
  | @helloRefused msg _ hst hpay h hlog =>
    rw [hlog, List.mem_singleton, HsEvent.received.injEq] at hm
    have htype : byteAt m 0 = byteAt msg 0 := by
      rw [hm, helloMessage, byteAt_take (by rw [declaredLen]; omega)]
    have hframed : ¬HelloFramed msg := fun hf => ht (by simp [hst, HsState.expected, htype, hf.type])
    exact ⟨h.res.resolve_right fun h => hframed h.2, h.transcript.resolve_right fun h => hframed h.1⟩
  | helloRetry hst hpay hf hfirst =>
    obtain rfl : m = _ := by simpa using hm
    have := hf.isMessage
    obtain ⟨body, -, hb⟩ := this
    rw [hb, hst, hfin] at ht
    simp [HsState.expected] at ht
  | serverHello hst hpay hacc =>
    obtain rfl : m = _ := by simpa using hm
    obtain ⟨body, -, hb⟩ := hacc.framed.isMessage
    rw [hb, hst, hfin] at ht
    simp [HsState.expected] at ht
  | refused hst hpend hr hup h ho =>
    obtain ⟨e, he⟩ := h.hs
    rw [ho]
    exact ⟨h.res, by dsimp only; rw [he]; exact hr.transcript⟩
  | parkedRefused hst hpend h =>
    obtain ⟨e, he⟩ := h.hs
    exact ⟨h.res, by rw [he]⟩
  | encryptedExtensions hst hr hup htype =>
    obtain rfl : m = _ := by simpa using hm
    simp [hst, HsState.expected, htype] at ht
  | certificateRequest hst hr hup htype =>
    obtain rfl : m = _ := by simpa using hm
    simp [hst, HsState.expected, htype] at ht
  | certificateParked hst hr hup htype =>
    obtain rfl : m = _ := by simpa using hm
    simp [hst, HsState.expected, htype] at ht
  | parkedCertificate hst hpend h => simp at hm
  | certificate hst hpend hr hup hacc =>
    obtain rfl : m = _ := by simpa using hm
    simp [hst, HsState.expected, hacc.type] at ht
  | certificateVerify hst hr hup htype hkey =>
    obtain rfl : m = _ := by simpa using hm
    simp [hst, HsState.expected, htype] at ht
  | serverFinished hst hr hup hmsg =>
    obtain rfl : m = _ := by simpa using hm
    rw [hmsg, hst, hfin] at ht
    simp [HsState.expected] at ht
  | clientFinished hst => simp at hm

/-- After one HelloRetryRequest no other is accepted. -/
theorem no_second_retry (h : MessagesInv C s) (i : StepInput) (hhrr : s.hs.hrrReceived = true)
    (hst : s.hs.state ≠ .sendClientHello) :
    (s.out C hostname i).hs.state ≠ .sendClientHello := by
  have htr := transition_step C hostname i.rnd i.recv h.wf
  unfold Session.out
  generalize (tls13HandshakeStep C hostname i.rnd s.hs i.recv).toOutcome = o at htr ⊢
  cases htr with
  | quiet _ _ _ hr _ => rw [hr.state]; exact hst
  | notSent hst' => exact absurd hst' hst
  | helloRefused hst' hpay h => rw [(congrArg HsCtx.state h.frame : _)]; exact hst
  | helloRetry hst' hpay hf hfirst => rw [hhrr] at hfirst; cases hfirst
  | refused _ _ hr _ h ho =>
    obtain ⟨e, he⟩ := h.hs
    rw [ho]; dsimp only; rw [he]; dsimp only; rw [hr.state]; exact hst
  | parkedRefused _ _ h => obtain ⟨e, he⟩ := h.hs; rw [he]; exact hst
  | encryptedExtensions => dsimp only; split_ifs <;> simp
  | _ => simp [installServerAppKeys, installClientAppKeys]

/-- An error leaves the transcript alone, but for a ServerHello whose key agreement fails: it was
added before the shared secret is computed. -/
theorem failed_step_transcript (h : MessagesInv C s) (i : StepInput)
    (herr : (s.out C hostname i).res = .error) :
    (s.out C hostname i).hs.transcript = s.hs.transcript ∨
      ∃ msg, s.hs.state = .recvServerHello ∧ HelloFramed msg ∧ (s.out C hostname i).hs.transcript =
        tls13TranscriptUpdate s.hs.transcript (helloMessage msg) := by
  have htr := transition_step C hostname i.rnd i.recv h.wf
  unfold Session.out at herr ⊢
  generalize (tls13HandshakeStep C hostname i.rnd s.hs i.recv).toOutcome = o at htr herr ⊢
  cases htr with
  | quiet _ _ _ hr _ => exact .inl hr.transcript
  | notSent hst hres hr hlog =>
    obtain ⟨hs₁, e, site, rfl | hr, ho⟩ := hr
    · rw [ho]; exact .inl rfl
    · have htr := hr.transcript_eq h.ok hst
      rw [ho]; exact .inl htr
  | helloRefused hst hpay h hlog =>
    exact h.transcript.imp id fun ⟨hf, htr⟩ => ⟨_, hst, hf, htr⟩
  | refused hst hpend hr hup h ho =>
    obtain ⟨e, he⟩ := h.hs
    rw [ho]; dsimp only; rw [he]
    exact .inl hr.transcript
  | parkedRefused _ _ h => obtain ⟨e, he⟩ := h.hs; rw [he]; exact .inl rfl
  | _ => cases herr

end

/-- **Transcript and message order.**  In every state reached by steps that returned neither an
error nor the fallback, the messages and the transcript are those the state prescribes.  From such
a state a message of any other type is an error and stays out of the transcript, a second
HelloRetryRequest is not accepted, and an error changes the transcript only where a ServerHello
was already hashed when its key agreement failed. -/
theorem handshake_transcript (C : Crypto) (hostname : Bytes) (hasEngine resuming : Bool)
    (offerTicket : Option SessionTicket) (age : ℕ) {s : Session}
    (h : Reach (Session.step C hostname) (Live C hostname)
      (Session.start hasEngine resuming offerTicket age) s) :
    TranscriptOk C s ∧ ∀ i,
      (∀ m, .received m ∈ (s.out C hostname i).log → byteAt m 0 ∉ s.hs.state.expected →
        (s.out C hostname i).res = .error ∧
          (s.out C hostname i).hs.transcript = s.hs.transcript) ∧
      (s.hs.hrrReceived = true → s.hs.state ≠ .sendClientHello →
        (s.out C hostname i).hs.state ≠ .sendClientHello) ∧
      ((s.out C hostname i).res = .error →
        (s.out C hostname i).hs.transcript = s.hs.transcript ∨
          ∃ msg, s.hs.state = .recvServerHello ∧ HelloFramed msg ∧
            (s.out C hostname i).hs.transcript =
              tls13TranscriptUpdate s.hs.transcript (helloMessage msg)) :=
  have hinv := messagesInv_of_reach h
  ⟨hinv.ok, fun i => ⟨fun _ hm ht => unexpected_message hinv i hm ht,
    no_second_retry hinv i, failed_step_transcript hinv i⟩⟩

/-- A run with a HelloRetryRequest for P-256: its record comes after a
ChangeCipherSpec record and in two pieces. -/
def retryScript : List (Session → StepInput) :=
  let hrr := serverHelloRecord hrrRandom tlsChacha20Poly1305Sha256
    (extension tls13ExtSupportedVersions (putU16 tls13Version) ++
      extension tls13ExtKeyShare (putU16 tls13GroupSecp256r1))
  [[], tls13BuildCcs ++ hrr.take 20, hrr.take 20, hrr, []].map receive

theorem handshake_transcript_retry :
    ∃ s : Session, s.hs.state = .recvServerHello ∧ s.hs.hrrReceived = true ∧
      TranscriptOk .transparent s :=
  ⟨play (Session.step .transparent []) (Session.start true false none 0) retryScript,
    by decide +kernel, by decide +kernel,
    (handshake_transcript .transparent [] true false none 0
      (reach_play (by decide +kernel))).1⟩

/-- A run whose ServerHello answers with a group the client did not share. -/
def groupMismatchScript : List (Session → StepInput) :=
  let sh := serverHelloRecord (List.replicate 32 0) tlsChacha20Poly1305Sha256
    (extension tls13ExtSupportedVersions (putU16 tls13Version) ++
      extension tls13ExtKeyShare (putU16s [tls13GroupSecp256r1, 1] ++ [0]))
  [[], sh].map receive

/-- After that error the context still waits for a ServerHello, but the transcript already holds
the refused one. -/
theorem transcript_after_error :
    ¬∀ (C : Crypto) (hostname : Bytes) (hasEngine resuming : Bool)
      (offerTicket : Option SessionTicket) (age : ℕ) (s : Session),
      Reach (Session.step C hostname) (fun _ _ => True)
        (Session.start hasEngine resuming offerTicket age) s → TranscriptOk C s := by
  intro h
  let s := play (Session.step .transparent []) (Session.start true false none 0)
    groupMismatchScript
  have hs : TranscriptOk .transparent s :=
    h .transparent [] true false none 0 s (reach_play (by decide))
  obtain ⟨msgs, -, hall, hdata⟩ := hs.messages
  have hstate : prescribed s.hs = [tls13HtClientHello] ∧ s.hs.hrrReceived = false := by
    decide +kernel
  -- one message is prescribed, and the bytes are not those of one message
  rw [hstate.1] at hall
  obtain ⟨m, rfl, body, hbody, rfl⟩ : ∃ m, msgs = [m] ∧ IsMessage tls13HtClientHello m := by
    cases hall with
    | cons hm hnil =>
      cases hnil
      exact ⟨_, rfl, hm⟩
  have hone : s.hs.transcript.data = hsMessage tls13HtClientHello body := by
    rw [hdata, hstate.2]
    exact List.append_nil _
  have hlen : s.hs.transcript.data.length ≠ declaredLen s.hs.transcript.data := by decide +kernel
  refine hlen ?_
  rw [hone, length_hsMessage, declaredLen, hsMessage, getU24_cons_putU24 _ hbody]

end MacTLS
