import MacTLS.Handshake.Step

/-!
# What one handshake step can do

`tls13_handshake_step` read once and for all: `Transition` lists the cases of a step with their
guards and their effects, and `transition_step` says that every step is one of them.  All results
about runs are case analyses on `Transition`; none looks into a handler again.

* `shWalk` : what the walk over a ServerHello's extensions meets, as a function of the record;
* `Read` : a context after a read of encrypted bytes that handed up a message;
* `transition_step`.
-/

namespace MacTLS

open Lib

/-! ### ServerHello -/

/-- What the parser meets in the extension list of a ServerHello record, up to the error that
ends the walk if there is one. -/
def shWalk (msg : Bytes) : ShExts :=
  match shHead msg with
  | .fields _ _ extPos extEnd => (shExtLoop msg extEnd extEnd extPos .empty).1
  | _ => .empty

/-- The payload of a complete plaintext handshake record at the front of the received bytes: what
the ServerHello handler parses. -/
def helloPayload (recv : Bytes) : Option Bytes :=
  if 5 ≤ recv.length ∧ 5 + getU16 recv 3 ≤ recv.length ∧ byteAt recv 0 = tls13CtHandshake then
    some (slice recv 5 (getU16 recv 3))
  else none

/-- The message a ServerHello record declares. -/
def helloMessage (msg : Bytes) : Bytes := msg.take (declaredLen msg)

/-- The guards of the fixed fields that a parsed ServerHello has passed. -/
structure HelloFramed (msg : Bytes) : Prop where
  type : byteAt msg 0 = tls13HtServerHello
  length : declaredLen msg ≤ msg.length

theorem helloFramed_of_shHead {msg : Bytes} (h : ∀ err, shHead msg ≠ .refused err) :
    HelloFramed msg := by
  have hlen : ¬msg.length < 44 := fun hlen => h _ (if_pos hlen)
  have htype : byteAt msg 0 = tls13HtServerHello := by
    by_contra htype
    exact h _ ((if_neg hlen).trans (if_pos htype))
  refine ⟨htype, Nat.le_of_not_lt fun hlong => ?_⟩
  exact h _ ((if_neg hlen).trans ((if_neg (not_not.2 htype)).trans (if_pos hlong)))

/-- What a refused ServerHello may leave changed. -/
def HelloFrame (hs hs' : HsCtx) : Prop :=
  hs' = { hs with
    cookie := hs'.cookie, resumptionAccepted := hs'.resumptionAccepted
    cipherSuite := hs'.cipherSuite, isTls13 := hs'.isTls13, hrrReceived := hs'.hrrReceived
    transcript := hs'.transcript, error := hs'.error, failSite := hs'.failSite }

/-- A ServerHello that is not accepted. -/
structure HelloRefused (hs : HsCtx) (msg : Bytes) (res : HsResult) (hs' : HsCtx) : Prop where
  res : res = .error ∨ res = .fallback12 ∧ HelloFramed msg
  frame : HelloFrame hs hs'
  accepted : hs'.resumptionAccepted = (hs.resumptionAccepted || (shWalk msg).selectedPsk)
  hrr : hs.hrrReceived = true → hs'.hrrReceived = true
  transcript : hs'.transcript = hs.transcript ∨
    HelloFramed msg ∧ hs'.transcript = tls13TranscriptUpdate hs.transcript (helloMessage msg)

/-- The context of an accepted HelloRetryRequest, before the ClientHello is sent again. -/
def afterHelloRetry (C : Crypto) (hs : HsCtx) (msg : Bytes) (suite group : ℕ) : HsCtx :=
  { hs.applyExts (shWalk msg) with
    cipherSuite := suite
    isTls13 := true
    hrrReceived := true
    hrrGroup := group
    hrrPending := true
    transcript :=
      tls13TranscriptUpdate (tls13TranscriptResetForHrr C hs.transcript) (helloMessage msg) }

/-- The context of an accepted ServerHello, before the keys are derived. -/
def afterServerHello (hs : HsCtx) (msg : Bytes) (suite : ℕ) : HsCtx :=
  { hs.applyExts (shWalk msg) with
    cipherSuite := suite
    isTls13 := true
    transcript := tls13TranscriptUpdate hs.transcript (helloMessage msg) }

/-- The guards of an accepted ServerHello. -/
structure HelloAccepted (C : Crypto) (hs : HsCtx) (msg : Bytes) (suite : ℕ) (shared : Bytes) :
    Prop where
  framed : HelloFramed msg
  fields : ∃ extPos extEnd, shHead msg = .fields false suite extPos extEnd ∧
    shExtLoop msg extEnd extEnd extPos .empty = (shWalk msg, none)
  version : (shWalk msg).version = some tls13Version
  keyLen : tls13KeyLenForSuite suite ≠ 0
  hash : tls13HashForSuite suite = hs.transcript.hash
  group : (shWalk msg).shareGroup = some hs.ecdheGroup
  shared :
    tls13EcdhShared C hs.ecdheGroup hs.ecdheSecret (shWalk msg).serverPublic = some shared

/-- The guards of an accepted HelloRetryRequest. -/
structure HelloRetried (msg : Bytes) (suite group : ℕ) : Prop where
  fields : ∃ extPos extEnd, shHead msg = .fields true suite extPos extEnd ∧
    shExtLoop msg extEnd extEnd extPos .empty = (shWalk msg, none)
  version : (shWalk msg).version = some tls13Version
  keyLen : tls13KeyLenForSuite suite ≠ 0
  share : (shWalk msg).shareGroup = some group
  supported : tls13BrCurveForGroup group ≠ 0

/-- The three ways `tls13_parse_server_hello` ends. -/
inductive Parsed (C : Crypto) (hs : HsCtx) (msg : Bytes) : Outcome → Prop
  | refused {o : Outcome} (h : HelloRefused hs msg o.res o.hs) (hlog : o.log = []) :
      Parsed C hs msg o
  | retry {suite group : ℕ} (h : HelloFramed msg) (hfirst : hs.hrrReceived = false)
      (hret : HelloRetried msg suite group) :
      Parsed C hs msg ⟨.wantRead, afterHelloRetry C hs msg suite group, []⟩
  | accepted {suite : ℕ} {shared : Bytes} (h : HelloAccepted C hs msg suite shared) :
      Parsed C hs msg
        ⟨.ok, installHandshakeKeys C (afterServerHello hs msg suite) suite shared,
          [.earlySecret (afterServerHello hs msg suite).earlyPsk]⟩

theorem parsed_helloRetryRequest {C : Crypto} {hs : HsCtx} {msg : Bytes} {suite : ℕ}
    (hf : HelloFramed msg) (hfields : ∃ p e, shHead msg = .fields true suite p e ∧
      shExtLoop msg e e p .empty = (shWalk msg, none))
    (hversion : (shWalk msg).version = some tls13Version)
    (hk : tls13KeyLenForSuite suite ≠ 0) :
    Parsed C hs msg
      (shHelloRetryRequest C { hs.applyExts (shWalk msg) with cipherSuite := suite, isTls13 := true }
        (helloMessage msg) (shWalk msg)) := by
  unfold shHelloRetryRequest
  dsimp only
  split_ifs with h1 h2
  · exact .refused ⟨.inl rfl, rfl, rfl, id, .inl rfl⟩ rfl
  · exact .refused ⟨.inl rfl, rfl, rfl, fun _ => rfl, .inl rfl⟩ rfl
  · refine .retry hf (by simpa [HsCtx.applyExts] using h1) ⟨hfields, hversion, hk, ?_, h2⟩
    cases hgroup : (shWalk msg).shareGroup with
    | none => exact absurd (by rw [hgroup]; rfl) h2
    | some group => rfl

theorem parsed_serverHello {C : Crypto} {hs : HsCtx} {msg : Bytes} {suite : ℕ}
    (hf : HelloFramed msg) (hfields : ∃ p e, shHead msg = .fields false suite p e ∧
      shExtLoop msg e e p .empty = (shWalk msg, none))
    (hversion : (shWalk msg).version = some tls13Version)
    (hk : tls13KeyLenForSuite suite ≠ 0) :
    Parsed C hs msg
      (shServerHello C { hs.applyExts (shWalk msg) with cipherSuite := suite, isTls13 := true }
        (helloMessage msg) suite (shWalk msg)) := by
  unfold shServerHello
  cases hshare : (shWalk msg).shareGroup with
  | none => exact .refused ⟨.inl rfl, rfl, rfl, id, .inl rfl⟩ rfl
  | some group =>
    dsimp only
    split_ifs with hhash hgroup
    · exact .refused ⟨.inl rfl, rfl, rfl, id, .inl rfl⟩ rfl
    · exact .refused ⟨.inl rfl, rfl, rfl, id, .inr ⟨hf, rfl⟩⟩ rfl
    · split
      · exact .refused ⟨.inl rfl, rfl, rfl, id, .inr ⟨hf, rfl⟩⟩ rfl
      · rename_i shared hs
        obtain rfl := not_not.1 hgroup
        exact .accepted ⟨hf, hfields, hversion, hk, not_not.1 hhash, hshare, hs⟩

theorem parsed_tls13ParseServerHello (C : Crypto) (hs : HsCtx) (msg : Bytes) :
    Parsed C hs msg (tls13ParseServerHello C hs msg) := by
  have hacc : ∀ b : Bool, b = (b || false) := fun b => by simp
  unfold tls13ParseServerHello
  cases hhead : shHead msg with
  | refused err =>
    refine .refused ⟨.inl rfl, rfl, ?_, id, .inl rfl⟩ rfl
    simp only [shWalk, hhead]; exact hacc _
  | noExtensions =>
    refine .refused ⟨.inr ⟨rfl, helloFramed_of_shHead (by simp [hhead])⟩, rfl, ?_, id, .inl rfl⟩ rfl
    simp only [shWalk, hhead]; exact hacc _
  | fields isHrr suite p e =>
    have hf := @helloFramed_of_shHead msg (by simp [hhead])
    rcases hx : shExtLoop msg e e p .empty with ⟨x, err⟩
    have hw : shWalk msg = x := by simp only [shWalk, hhead, hx]
    subst hw
    simp only [hx]
    cases err with
    | some err => exact .refused ⟨.inl rfl, rfl, rfl, id, .inl rfl⟩ rfl
    | none =>
      dsimp only
      unfold shNegotiate
      cases hv : (shWalk msg).version with
      | none => exact .refused ⟨.inr ⟨rfl, hf⟩, rfl, rfl, id, .inl rfl⟩ rfl
      | some version =>
        dsimp only
        split_ifs with h1 h2 h3 h4
        · exact .refused ⟨.inr ⟨rfl, hf⟩, rfl, rfl, id, .inl rfl⟩ rfl
        · exact .refused ⟨.inl rfl, rfl, rfl, id, .inl rfl⟩ rfl
        · exact .refused ⟨.inl rfl, rfl, rfl, id, .inl rfl⟩ rfl
        · exact parsed_helloRetryRequest hf ⟨p, e, by rw [hhead, h4], hx⟩
            (hv.trans (congrArg some (not_not.1 h2))) h3
        · exact parsed_serverHello hf ⟨p, e, by rw [hhead, eq_false_of_ne_true h4], hx⟩
            (hv.trans (congrArg some (not_not.1 h2))) h3

/-! ### Encrypted messages -/

/-- A message framed by its own length field is its type, that field and its body. -/
theorem eq_hsMessage {msg : Bytes} (h : msg.length = declaredLen msg) :
    msg = hsMessage (byteAt msg 0) (msg.drop 4) := by
  have hbody : (msg.drop 4).length = getU24 msg 1 := by
    rw [List.length_drop, h, declaredLen, Nat.add_sub_cancel_left]
  rw [hsMessage, hbody, putU24_getU24]
  exact eq_cons_drop_four (by rw [h, declaredLen]; omega)

/-- A context after a read: the frame of reading, and a well-formed plaintext buffer. -/
structure Read (hs hs' : HsCtx) : Prop where
  frame : ReadFrame hs hs'
  plainOk : hs'.PlainOk

namespace Read

variable {hs hs' : HsCtx} (h : Read hs hs')
include h

theorem state : hs'.state = hs.state :=
  (congrArg HsCtx.state h.frame :)

theorem transcript : hs'.transcript = hs.transcript :=
  (congrArg HsCtx.transcript h.frame :)

theorem hrrReceived : hs'.hrrReceived = hs.hrrReceived :=
  (congrArg HsCtx.hrrReceived h.frame :)

theorem hrrPending : hs'.hrrPending = hs.hrrPending :=
  (congrArg HsCtx.hrrPending h.frame :)

theorem certRequestReceived : hs'.certRequestReceived = hs.certRequestReceived :=
  (congrArg HsCtx.certRequestReceived h.frame :)

theorem resumptionAccepted : hs'.resumptionAccepted = hs.resumptionAccepted :=
  (congrArg HsCtx.resumptionAccepted h.frame :)

theorem pendingRecvMsgLen : hs'.pendingRecvMsgLen = hs.pendingRecvMsgLen :=
  (congrArg HsCtx.pendingRecvMsgLen h.frame :)

theorem serverPkey : hs'.serverPkey = hs.serverPkey :=
  (congrArg HsCtx.serverPkey h.frame :)

theorem update_transcript {msg : Bytes} (hup : HandedUp hs' msg) :
    (hs'.update msg).transcript = tls13TranscriptUpdate hs.transcript msg := by
  rw [HsCtx.update, ← hup.length, List.take_length, h.transcript]

theorem update_hash {msg : Bytes} (hup : HandedUp hs' msg) :
    (hs'.update msg).transcript.hash = hs.transcript.hash :=
  (congrArg Transcript.hash (h.update_transcript hup) :)

theorem update_data {msg : Bytes} (hup : HandedUp hs' msg) :
    (hs'.update msg).transcript.data = hs.transcript.data ++ msg :=
  (congrArg Transcript.data (h.update_transcript hup) :)

end Read

/-- A handler of encrypted messages either got no message, or processed one. -/
theorem withMessage_cases (C : Crypto) {hs : HsCtx} (recv : Bytes)
    (process : HsCtx → Bytes → Outcome) (hp : hs.PlainOk) :
    let out := withMessage C hs recv process
    (out.res ≠ .wantWrite ∧ Read hs out.hs ∧ out.log = []) ∨
      ∃ hs₁ msg, Read hs hs₁ ∧ HandedUp hs₁ msg ∧
        out.toOutcome = { process hs₁ msg with log := .received msg :: (process hs₁ msg).log } := by
  have hspec := tls13ReadEncryptedHs_spec C hs recv
  unfold withMessage
  rcases hr : tls13ReadEncryptedHs C hs recv with ⟨res, hs₁, recv'⟩
  rw [hr] at hspec
  obtain ⟨hfr, hpl⟩ := hspec
  obtain ⟨hpl, hmsg⟩ := hpl hp
  cases res with
  | message msg => exact .inr ⟨hs₁, msg, ⟨hfr, hpl⟩, hmsg msg rfl, rfl⟩
  | wantRead => exact .inl ⟨by simp, ⟨hfr, hpl⟩, rfl⟩
  | error => exact .inl ⟨by simp, ⟨hfr, hpl⟩, rfl⟩

/-- The outcome of a handler that refuses its message. -/
structure Refused (hs : HsCtx) (o : Outcome) : Prop where
  res : o.res = .error
  hs : ∃ err, o.hs = { hs with error := err }
  /-- A refused message leaves no successful check behind, and no key derivation. -/
  log : ∀ ev ∈ o.log, (∃ host certs err, ev = .endChain host certs err) ∨
    ∃ key content, ev = .vrfy key content false

theorem refused_fail (hs : HsCtx) (err : ℕ) : Refused hs (hs.fail err []) :=
  ⟨rfl, ⟨err, rfl⟩, fun _ h => by cases h⟩

theorem processEncryptedExtensions_cases (hs : HsCtx) (msg : Bytes) :
    Refused hs (processEncryptedExtensions hs msg) ∨
      byteAt msg 0 = tls13HtEncryptedExtensions ∧ processEncryptedExtensions hs msg =
        ⟨.ok, { hs.update msg with
          state := if hs.resumptionAccepted then .recvFinished else .recvCertRequestOrCert }, []⟩ := by
  unfold processEncryptedExtensions
  dsimp only
  generalize (if hs.resumptionAccepted = true then HsState.recvFinished else
    HsState.recvCertRequestOrCert) = next
  split_ifs with h1 h2 h3
  · exact .inl (refused_fail hs _)
  · exact .inl (refused_fail hs _)
  · exact .inl (refused_fail hs _)
  · exact .inr ⟨not_not.1 h1, rfl⟩

theorem processCertRequestOrCert_cases (hs : HsCtx) (msg : Bytes) :
    Refused hs (processCertRequestOrCert hs msg) ∨
      (byteAt msg 0 = tls13HtCertificateRequest ∧ processCertRequestOrCert hs msg =
        ⟨.ok, { hs.update msg with certRequestReceived := true, state := .recvCertificate }, []⟩) ∨
      byteAt msg 0 = tls13HtCertificate ∧ processCertRequestOrCert hs msg =
        ⟨.ok, { hs with pendingRecvMsgLen := msg.length, state := .recvCertificate }, []⟩ := by
  unfold processCertRequestOrCert
  split_ifs with h1 h2 h3
  · exact .inl (refused_fail hs _)
  · exact .inr (.inl ⟨h1, rfl⟩)
  · exact .inr (.inr ⟨h3, rfl⟩)
  · exact .inl (refused_fail hs _)

/-- A Certificate message that was accepted: its chain was fed to the validator, which found no
fault and yielded a key. -/
structure CertAccepted (C : Crypto) (hostname msg : Bytes) (certs : List Bytes) (pkey : PKey) :
    Prop where
  type : byteAt msg 0 = tls13HtCertificate
  list : certificateList msg = .ok certs
  valid : C.validate hostname (fedChain certs) = (0, some pkey)

theorem processCertificate_cases (C : Crypto) (hostname : Bytes) (hs : HsCtx) (msg : Bytes) :
    Refused hs (processCertificate C hostname hs msg) ∨
      ∃ certs pkey, CertAccepted C hostname msg certs pkey ∧
        processCertificate C hostname hs msg =
          ⟨.ok, { hs.update msg with
            serverPkey := some pkey, state := .recvCertificateVerify },
            [.endChain hostname (fedChain certs) 0]⟩ := by
  unfold processCertificate
  split_ifs with h1
  · exact .inl (refused_fail hs _)
  · cases hl : certificateList msg with
    | error err => exact .inl (refused_fail hs _)
    | ok certs =>
      rcases hv : C.validate hostname (fedChain certs) with ⟨err, pkey⟩
      simp only [hv]
      split_ifs with herr
      · refine .inl ⟨rfl, ⟨err, rfl⟩, fun ev hev => .inl ?_⟩
        exact ⟨_, _, _, List.mem_singleton.1 hev⟩
      · obtain rfl := not_not.1 herr
        cases pkey with
        | none =>
          refine .inl ⟨rfl, ⟨_, rfl⟩, fun ev hev => .inl ?_⟩
          exact ⟨_, _, _, List.mem_singleton.1 hev⟩
        | some pkey => exact .inr ⟨certs, pkey, ⟨not_not.1 h1, hl, hv⟩, rfl⟩

theorem processCertificateVerify_cases (C : Crypto) (hs : HsCtx) (msg : Bytes) :
    Refused hs (processCertificateVerify C hs msg) ∨
      ∃ key, byteAt msg 0 = tls13HtCertificateVerify ∧ hs.serverPkey = some key ∧
        processCertificateVerify C hs msg =
          ⟨.ok, { hs.update msg with state := .recvFinished },
            [.vrfy key (tls13BuildVerifyContent (tls13TranscriptSnapshot C hs.transcript))
              true]⟩ := by
  unfold processCertificateVerify
  dsimp only
  split_ifs with h1 h2 h3
  · exact .inl (refused_fail hs _)
  · exact .inl (refused_fail hs _)
  · exact .inl (refused_fail hs _)
  · cases hk : hs.serverPkey with
    | none => exact .inl (refused_fail hs _)
    | some key =>
      dsimp only
      split
      · exact .inl (refused_fail hs _)
      · refine .inl ⟨rfl, ⟨_, rfl⟩, fun ev hev => .inr ?_⟩
        exact ⟨_, _, List.mem_singleton.1 hev⟩
      · exact .inr ⟨key, not_not.1 h1, rfl, rfl⟩

/-- The verify data the server must send. -/
def serverVerifyData (C : Crypto) (hs : HsCtx) : Bytes :=
  finishedVerifyData C hs.transcript (tls13KsDeriveFinishedKey C hs.ks hs.serverHsSecret)

theorem processFinished_cases (C : Crypto) {hs : HsCtx} {msg : Bytes}
    (hm : msg.length = declaredLen msg) :
    Refused hs (processFinished C hs msg) ∨
      msg = hsMessage tls13HtFinished (serverVerifyData C hs) ∧
        processFinished C hs msg = ⟨.ok, installServerAppKeys C (hs.update msg), []⟩ := by
  unfold processFinished
  dsimp only
  split_ifs with h1 h2 h3 h4
  · exact .inl (refused_fail hs _)
  · exact .inl (refused_fail hs _)
  · exact .inl (refused_fail hs _)
  · exact .inl (refused_fail hs _)
  · refine .inr ⟨?_, rfl⟩
    have hlen : (msg.drop 4).length = hs.transcript.hashLen := by
      rw [List.length_drop, hm, declaredLen, not_not.1 h3, Nat.add_sub_cancel_left]
    have hslice : slice msg 4 hs.transcript.hashLen = msg.drop 4 := by
      rw [slice, List.take_of_length_le (Nat.le_of_eq hlen)]
    rw [hslice, not_not,
      tls13CtMemcmp_eq_zero_iff hlen (length_finishedVerifyData _ _ _)] at h4
    rw [serverVerifyData, ← h4, ← not_not.1 h1]
    exact eq_hsMessage hm

/-! ### The transitions -/

/-- Each of the values that a ClientHello captures takes 32 bytes. -/
structure HsCtx.Captured (hs : HsCtx) : Prop where
  random : hs.chRandom.length = 32
  sessionId : hs.chSessionId.length = 32

/-- The context in which the ClientHello is built: a fresh transcript unless a HelloRetryRequest
started one, a fresh key pair, and the random values of the first ClientHello. -/
structure HelloReady (hs hs' : HsCtx) : Prop where
  frame : hs' = { hs with
    transcript := hs'.transcript, ecdheSecret := hs'.ecdheSecret, ecdhePublic := hs'.ecdhePublic
    ecdheGroup := hs'.ecdheGroup, chRandom := hs'.chRandom, chSessionId := hs'.chSessionId
    chFieldsValid := hs'.chFieldsValid }
  transcript : hs'.transcript =
    if hs.hrrReceived then hs.transcript else tls13TranscriptInit .sha256
  captured : hs.Captured → hs'.Captured

/-- The group of the next ClientHello's key share. -/
def HsCtx.nextGroup (hs : HsCtx) : ℕ := if hs.hrrReceived then hs.hrrGroup else tls13GroupX25519

/-- The context that a ClientHello is built from: a key pair for the next group, and the random
values of the first ClientHello. -/
def HelloBuilt (hs : HsCtx) (rnd : ClientRandom) (hs₁ : HsCtx) : Prop :=
  ∃ hs₀, tls13GenerateKeypair (startTranscript hs) hs.nextGroup rnd = some hs₀ ∧
    hs₁ = captureChFields hs₀ rnd

/-- The states that read encrypted messages. -/
def HsState.reads : HsState → Bool
  | .recvEncryptedExtensions | .recvCertRequestOrCert | .recvCertificate
  | .recvCertificateVerify | .recvFinished => true
  | _ => false

/-- What one step can do to a context, given the received bytes. -/
inductive Transition (C : Crypto) (hostname : Bytes) (hs : HsCtx) (recv : Bytes) : Outcome → Prop
  /-- No message was processed. -/
  | quiet {o : Outcome} (hst : hs.state ≠ .sendClientHello)
      (hsame : hs.state.reads = false → hs.state = .recvServerHello ∨ o.hs = hs)
      (hpend : hs.state = .recvCertificate → hs.pendingRecvMsgLen = 0) (hr : Read hs o.hs)
      (hlog : o.log = []) (hres : o.res ≠ .wantWrite) : Transition C hostname hs recv o
  /-- The ClientHello could not be built. -/
  | notSent {o : Outcome} (hst : hs.state = .sendClientHello) (hres : o.res = .error)
      (hr : ∃ hs₁ e site, (hs₁ = hs ∨ HelloReady hs hs₁) ∧
        o.hs = { hs₁ with error := e, failSite := site })
      (hlog : o.log = []) : Transition C hostname hs recv o
  | clientHello {hs₁ : HsCtx} {msg : Bytes} (hst : hs.state = .sendClientHello)
      (hr : HelloReady hs hs₁) (hmsg : msg = clientHello C hs₁ hostname)
      (hfit : (clientHelloRecord msg).length ≤ hsBufSize)
      (hbuilt : ∃ rnd, HelloBuilt hs rnd hs₁) :
      Transition C hostname hs recv ⟨.wantWrite,
        { hs₁ with
          msgBuf := blit hs₁.msgBuf 0 (clientHelloRecord msg)
          msgLen := (clientHelloRecord msg).length
          msgOffset := 0
          transcript := tls13TranscriptUpdate hs₁.transcript msg
          state := .recvServerHello }, [.sent msg]⟩
  | ccs (hst : hs.state = .sendCcs) :
      Transition C hostname hs recv
        ⟨.wantWrite, { (tls13StateSendCcs hs).hs with state := .recvServerHello }, []⟩
  | helloRefused {msg : Bytes} {o : Outcome} (hst : hs.state = .recvServerHello)
      (hmsg : helloPayload recv = some msg) (h : HelloRefused hs msg o.res o.hs)
      (hlog : o.log = [.received (helloMessage msg)]) :
      Transition C hostname hs recv o
  | helloRetry {msg : Bytes} {suite group : ℕ} (hst : hs.state = .recvServerHello)
      (hmsg : helloPayload recv = some msg) (h : HelloFramed msg)
      (hfirst : hs.hrrReceived = false) (hret : HelloRetried msg suite group) :
      Transition C hostname hs recv ⟨.ok,
        { afterHelloRetry C hs msg suite group with
          hrrPending := false, state := .sendClientHello }, [.received (helloMessage msg)]⟩
  | serverHello {msg : Bytes} {suite : ℕ} {shared : Bytes} (hst : hs.state = .recvServerHello)
      (hmsg : helloPayload recv = some msg) (h : HelloAccepted C hs msg suite shared) :
      Transition C hostname hs recv ⟨.ok,
        { installHandshakeKeys C (afterServerHello hs msg suite) suite shared with
          state := .recvEncryptedExtensions },
        [.received (helloMessage msg), .earlySecret (afterServerHello hs msg suite).earlyPsk]⟩
  /-- An encrypted message was refused. -/
  | refused {hs₁ : HsCtx} {msg : Bytes} {o o' : Outcome} (hst : hs.state.reads = true)
      (hpend : hs.state = .recvCertificate → hs.pendingRecvMsgLen = 0) (hr : Read hs hs₁)
      (hup : HandedUp hs₁ msg) (h : Refused hs₁ o)
      (ho : o' = { o with log := .received msg :: o.log }) : Transition C hostname hs recv o'
  /-- The parked Certificate was refused. -/
  | parkedRefused {o : Outcome} (hst : hs.state = .recvCertificate)
      (hpend : hs.pendingRecvMsgLen > 0) (h : Refused { hs with pendingRecvMsgLen := 0 } o) :
      Transition C hostname hs recv o
  | encryptedExtensions {hs₁ : HsCtx} {msg : Bytes}
      (hst : hs.state = .recvEncryptedExtensions) (hr : Read hs hs₁) (hup : HandedUp hs₁ msg)
      (htype : byteAt msg 0 = tls13HtEncryptedExtensions) :
      Transition C hostname hs recv ⟨.ok, { hs₁.update msg with
        state := if hs₁.resumptionAccepted then .recvFinished else .recvCertRequestOrCert },
        [.received msg]⟩
  | certificateRequest {hs₁ : HsCtx} {msg : Bytes} (hst : hs.state = .recvCertRequestOrCert)
      (hr : Read hs hs₁) (hup : HandedUp hs₁ msg)
      (htype : byteAt msg 0 = tls13HtCertificateRequest) :
      Transition C hostname hs recv ⟨.ok, { hs₁.update msg with
        certRequestReceived := true, state := .recvCertificate }, [.received msg]⟩
  /-- A Certificate came where a CertificateRequest could: it is parked for the next step. -/
  | certificateParked {hs₁ : HsCtx} {msg : Bytes} (hst : hs.state = .recvCertRequestOrCert)
      (hr : Read hs hs₁) (hup : HandedUp hs₁ msg) (htype : byteAt msg 0 = tls13HtCertificate) :
      Transition C hostname hs recv ⟨.ok, { hs₁ with
        pendingRecvMsgLen := msg.length, state := .recvCertificate }, [.received msg]⟩
  | parkedCertificate {certs : List Bytes} {pkey : PKey} (hst : hs.state = .recvCertificate)
      (hpend : hs.pendingRecvMsgLen > 0)
      (h : CertAccepted C hostname (hs.msgBuf.take hs.pendingRecvMsgLen) certs pkey) :
      Transition C hostname hs recv ⟨.ok,
        { { hs with pendingRecvMsgLen := 0 }.update (hs.msgBuf.take hs.pendingRecvMsgLen) with
          serverPkey := some pkey, state := .recvCertificateVerify },
        [.endChain hostname (fedChain certs) 0]⟩
  | certificate {hs₁ : HsCtx} {msg : Bytes} {certs : List Bytes} {pkey : PKey}
      (hst : hs.state = .recvCertificate) (hpend : hs.pendingRecvMsgLen = 0) (hr : Read hs hs₁)
      (hup : HandedUp hs₁ msg) (h : CertAccepted C hostname msg certs pkey) :
      Transition C hostname hs recv ⟨.ok,
        { hs₁.update msg with serverPkey := some pkey, state := .recvCertificateVerify },
        [.received msg, .endChain hostname (fedChain certs) 0]⟩
  | certificateVerify {hs₁ : HsCtx} {msg : Bytes} {key : PKey}
      (hst : hs.state = .recvCertificateVerify) (hr : Read hs hs₁) (hup : HandedUp hs₁ msg)
      (htype : byteAt msg 0 = tls13HtCertificateVerify) (hkey : hs₁.serverPkey = some key) :
      Transition C hostname hs recv ⟨.ok, { hs₁.update msg with state := .recvFinished },
        [.received msg,
          .vrfy key (tls13BuildVerifyContent (tls13TranscriptSnapshot C hs₁.transcript)) true]⟩
  | serverFinished {hs₁ : HsCtx} {msg : Bytes} (hst : hs.state = .recvFinished)
      (hr : Read hs hs₁) (hup : HandedUp hs₁ msg)
      (hmsg : msg = hsMessage tls13HtFinished (serverVerifyData C hs₁)) :
      Transition C hostname hs recv
        ⟨.ok, installServerAppKeys C (hs₁.update msg), [.received msg]⟩
  | clientFinished (hst : hs.state = .sendFinished) :
      Transition C hostname hs recv
        ⟨.wantWrite, installClientAppKeys C hs, [.sent (clientFinished C hs)]⟩

/-- The settings callers make before the first step; no step changes them. -/
def HsCtx.settings (hs : HsCtx) : Bool × Option SessionTicket × ℕ :=
  (hs.resuming, hs.offerTicket, hs.offerObfuscatedAge)

theorem Transition.settings {C : Crypto} {hostname : Bytes} {hs : HsCtx} {recv : Bytes}
    {o : Outcome} (h : Transition C hostname hs recv o) : o.hs.settings = hs.settings := by
  have hread : ∀ {hs₁}, Read hs hs₁ → hs₁.settings = hs.settings :=
    fun hr => (congrArg HsCtx.settings hr.frame :)
  have hready : ∀ {hs₁}, HelloReady hs hs₁ → hs₁.settings = hs.settings :=
    fun hr => (congrArg HsCtx.settings hr.frame :)
  cases h with
  | quiet hst hsame hpend hr hlog => exact (hread hr :)
  | notSent hst hres hr hlog =>
    obtain ⟨hs₁, e, site, rfl | hr, ho⟩ := hr
    · rw [ho]; rfl
    · have := hready hr
      rw [ho]; exact this
  | clientHello hst hr hmsg hfit => exact (hready hr :)
  | ccs hst => rfl
  | helloRefused hst hpay h hlog => exact (congrArg HsCtx.settings h.frame :)
  | helloRetry => rfl
  | serverHello => rfl
  | refused hst hpend hr hup h ho =>
    obtain ⟨e, he⟩ := h.hs
    rw [ho]; dsimp only; rw [he]; exact (hread hr :)
  | parkedRefused hst hpend h => obtain ⟨e, he⟩ := h.hs; rw [he]; rfl
  | encryptedExtensions hst hr => exact (hread hr :)
  | certificateRequest hst hr => exact (hread hr :)
  | certificateParked hst hr => exact (hread hr :)
  | parkedCertificate => rfl
  | certificate hst hpend hr => exact (hread hr :)
  | certificateVerify hst hr => exact (hread hr :)
  | serverFinished hst hr => exact (hread hr :)
  | clientFinished => rfl

/-- What holds of the context between any two steps. -/
structure HsCtx.Wf (hs : HsCtx) : Prop where
  /-- `hrr_pending` is only set while a step runs. -/
  hrrPending : hs.hrrPending = false
  plainOk : hs.PlainOk

theorem tls13GenerateKeypair_ready {hs hs₁ hs' : HsCtx} {group : ℕ} {rnd : ClientRandom}
    (hr : HelloReady hs hs₁) (h : tls13GenerateKeypair hs₁ group rnd = some hs') :
    HelloReady hs hs' := by
  unfold tls13GenerateKeypair at h
  dsimp only at h
  split_ifs at h
  split at h
  · cases h
  · split_ifs at h
    cases h
    exact ⟨by rw [hr.frame], hr.transcript, fun h => ⟨(hr.captured h).1, (hr.captured h).2⟩⟩

theorem captureChFields_ready {hs hs₁ : HsCtx} {rnd : ClientRandom} (hr : HelloReady hs hs₁) :
    HelloReady hs (captureChFields hs₁ rnd) := by
  unfold captureChFields
  split_ifs
  · exact hr
  · exact ⟨by rw [hr.frame], hr.transcript, fun _ => ⟨rnd.random_length, rnd.sessionId_length⟩⟩

theorem startTranscript_ready (hs : HsCtx) : HelloReady hs (startTranscript hs) := by
  unfold startTranscript
  split_ifs with h
  · exact ⟨rfl, by rw [if_pos h], id⟩
  · exact ⟨rfl, by rw [if_neg h], fun h => ⟨h.1, h.2⟩⟩

theorem HelloBuilt.ready {hs hs₁ : HsCtx} {rnd : ClientRandom} (h : HelloBuilt hs rnd hs₁) :
    HelloReady hs hs₁ := by
  obtain ⟨hs₀, hk, rfl⟩ := h
  exact captureChFields_ready (tls13GenerateKeypair_ready (startTranscript_ready hs) hk)

/-- The ClientHello handler: it fails with the context as built so far, or sends. -/
theorem tls13StateSendClientHello_cases (C : Crypto) (hs : HsCtx) (hostname : Bytes)
    (rnd : ClientRandom) :
    let o := tls13StateSendClientHello C hs hostname rnd
    (o.res = .error ∧ o.log = [] ∧ ∃ hs₁ e site, (hs₁ = hs ∨ HelloReady hs hs₁) ∧
        o.hs = { hs₁ with error := e, failSite := site }) ∨
      ∃ hs₁ msg, HelloBuilt hs rnd hs₁ ∧ msg = clientHello C hs₁ hostname ∧
        (clientHelloRecord msg).length ≤ hsBufSize ∧
        o = ⟨.wantWrite, { hs₁ with
          msgBuf := blit hs₁.msgBuf 0 (clientHelloRecord msg)
          msgLen := (clientHelloRecord msg).length
          msgOffset := 0
          transcript := tls13TranscriptUpdate hs₁.transcript msg }, [.sent msg]⟩ := by
  have hinit := startTranscript_ready hs
  have hgroup : (if (startTranscript hs).hrrReceived then (startTranscript hs).hrrGroup
      else tls13GroupX25519) = hs.nextGroup := by
    rw [show (startTranscript hs).hrrReceived = hs.hrrReceived from
        (congrArg HsCtx.hrrReceived hinit.frame :),
      show (startTranscript hs).hrrGroup = hs.hrrGroup from (congrArg HsCtx.hrrGroup hinit.frame :)]
    rfl
  dsimp only
  rw [tls13StateSendClientHello]
  split
  · exact .inl ⟨rfl, rfl, hs, _, hs.failSite, .inl rfl, rfl⟩
  · dsimp only
    rw [hgroup]
    split
    · exact .inl ⟨rfl, rfl, _, _, _, .inr hinit, rfl⟩
    · rename_i hs₁ hk
      have hr := @captureChFields_ready _ _ rnd (tls13GenerateKeypair_ready hinit hk)
      unfold tls13BuildClientHello
      dsimp only
      by_cases hfit : (clientHelloRecord (clientHello C (captureChFields hs₁ rnd) hostname)).length >
          hsBufSize
      · simp only [if_pos hfit]
        exact .inl ⟨rfl, rfl, _, _, _, .inr hr, rfl⟩
      · simp only [if_neg hfit]
        exact .inr ⟨_, _, ⟨hs₁, hk, rfl⟩, rfl, Nat.le_of_not_lt hfit, rfl⟩

/-- The ServerHello handler: it waits or fails on the record header, or parses. -/
theorem tls13StateRecvServerHello_cases (C : Crypto) (hs : HsCtx) (recv : Bytes) :
    let o := tls13StateRecvServerHello C hs recv
    (o.res ≠ .ok ∧ o.res ≠ .wantWrite ∧ o.log = [] ∧ ∃ e, o.hs = { hs with error := e }) ∨
      ∃ msg, helloPayload recv = some msg ∧ o.toOutcome = { tls13ParseServerHello C hs msg with
        log := .received (helloMessage msg) :: (tls13ParseServerHello C hs msg).log } := by
  unfold tls13StateRecvServerHello
  dsimp only
  split_ifs with h1 h2 _ _ _ h3
  · exact .inl ⟨by simp, by simp, rfl, hs.error, rfl⟩
  · exact .inl ⟨by simp, by simp, rfl, hs.error, rfl⟩
  · exact .inl ⟨by simp, by simp, rfl, hs.error, rfl⟩
  · exact .inl ⟨by simp, by simp, rfl, _, rfl⟩
  · exact .inl ⟨by simp, by simp, rfl, _, rfl⟩
  · exact .inl ⟨by simp [HsCtx.fail], by simp [HsCtx.fail], rfl, _, rfl⟩
  · refine .inr ⟨_, if_pos ⟨?_, ?_, not_not.1 h3⟩, rfl⟩ <;> omega

/-- A handler of encrypted messages makes a transition, if processing a message does. -/
theorem transition_withMessage {C : Crypto} {hostname : Bytes} {hs : HsCtx} (recv : Bytes)
    {process : HsCtx → Bytes → Outcome} (hst : hs.state.reads = true)
    (hpend : hs.state = .recvCertificate → hs.pendingRecvMsgLen = 0) (hw : hs.Wf)
    (h : ∀ hs₁ msg, Read hs hs₁ → HandedUp hs₁ msg → Refused hs₁ (process hs₁ msg) ∨
      Transition C hostname hs recv
        { process hs₁ msg with log := .received msg :: (process hs₁ msg).log }) :
    Transition C hostname hs recv (withMessage C hs recv process).toOutcome := by
  obtain ⟨hres, hr, hlog⟩ | ⟨hs₁, msg, hr, hup, ho⟩ := withMessage_cases C recv process hw.plainOk
  · exact .quiet (fun h => by simp [h, HsState.reads] at hst) (fun h => by simp [h] at hst) hpend hr
      hlog hres
  · obtain href | ht := h hs₁ msg hr hup
    · exact .refused hst hpend hr hup href ho
    · rw [ho]; exact ht

/-- Every step of the state machine is one of the transitions. -/
theorem transition_step (C : Crypto) (hostname : Bytes) (rnd : ClientRandom) {hs : HsCtx}
    (recv : Bytes) (hw : hs.Wf) :
    Transition C hostname hs recv (tls13HandshakeStep C hostname rnd hs recv).toOutcome := by
  unfold tls13HandshakeStep
  split <;> rename_i hst
  case h_1 =>
    obtain ⟨hres, hlog, hr⟩ | ⟨hs₁, msg, hb, hmsg, hfit, ho⟩ :=
      tls13StateSendClientHello_cases C hs hostname rnd
    · rw [if_neg (by rw [hres]; simp)]
      exact .notSent hst hres hr hlog
    · rw [ho, if_pos rfl]
      exact .clientHello hst hb.ready hmsg hfit ⟨rnd, hb⟩
  case h_2 => exact .ccs hst
  case h_3 =>
    obtain ⟨hok, hwrite, hlog, e, ho⟩ | ⟨msg, hpay, ho⟩ := tls13StateRecvServerHello_cases C hs recv
    · have hpend : ¬(tls13StateRecvServerHello C hs recv).hs.hrrPending = true := by
        rw [ho]; simp [hw.hrrPending]
      dsimp only
      rw [if_neg hok, if_neg fun h => hpend h.2]
      exact .quiet (by simp [hst]) (fun _ => .inl hst) (by simp [hst])
        ⟨by rw [ho]; rfl, by rw [ho]; exact hw.plainOk⟩ hlog hwrite
    · have hp := parsed_tls13ParseServerHello C hs msg
      dsimp only
      generalize tls13StateRecvServerHello C hs recv = o at ho ⊢
      obtain ⟨⟨res, hs', log⟩, recv'⟩ := o
      generalize tls13ParseServerHello C hs msg = q at hp ho
      dsimp only at ho ⊢
      cases hp with
      | refused h hlog =>
        cases ho
        have h1 : q.res ≠ .ok := by obtain h | ⟨h, -⟩ := h.res <;> rw [h] <;> simp
        have h2 : ¬(q.res = .wantRead ∧ q.hs.hrrPending = true) := by
          obtain h | ⟨h, -⟩ := h.res <;> rw [h] <;> simp
        rw [if_neg h1, if_neg h2]
        exact .helloRefused hst hpay h (by rw [hlog])
      | retry hf hfirst hret =>
        cases ho
        rw [if_neg (by simp), if_pos ⟨rfl, rfl⟩]
        exact .helloRetry hst hpay hf hfirst hret
      | accepted h =>
        cases ho
        rw [if_pos rfl]
        exact .serverHello hst hpay h
  case h_4 =>
    refine transition_withMessage recv (by rw [hst]; rfl) (by simp [hst]) hw fun hs₁ msg hr hup => ?_
    obtain h | ⟨htype, h⟩ := processEncryptedExtensions_cases hs₁ msg
    · exact .inl h
    · rw [h]; exact .inr (.encryptedExtensions hst hr hup htype)
  case h_5 =>
    refine transition_withMessage recv (by rw [hst]; rfl) (by simp [hst]) hw fun hs₁ msg hr hup => ?_
    obtain h | ⟨htype, h⟩ | ⟨htype, h⟩ := processCertRequestOrCert_cases hs₁ msg
    · exact .inl h
    · rw [h]; exact .inr (.certificateRequest hst hr hup htype)
    · rw [h]; exact .inr (.certificateParked hst hr hup htype)
  case h_6 =>
    split_ifs with hpend
    · obtain h | ⟨certs, pkey, hacc, h⟩ := processCertificate_cases C hostname
        { hs with pendingRecvMsgLen := 0 } (hs.msgBuf.take hs.pendingRecvMsgLen)
      · exact .parkedRefused hst hpend h
      · dsimp only; rw [h]; exact .parkedCertificate hst hpend hacc
    · have h0 := Nat.eq_zero_of_not_pos hpend
      refine transition_withMessage recv (by rw [hst]; rfl) (fun _ => h0) hw fun hs₁ msg hr hup => ?_
      obtain h | ⟨certs, pkey, hacc, h⟩ := processCertificate_cases C hostname hs₁ msg
      · exact .inl h
      · rw [h]; exact .inr (.certificate hst h0 hr hup hacc)
  case h_7 =>
    refine transition_withMessage recv (by rw [hst]; rfl) (by simp [hst]) hw fun hs₁ msg hr hup => ?_
    obtain h | ⟨key, htype, hkey, h⟩ := processCertificateVerify_cases C hs₁ msg
    · exact .inl h
    · rw [h]; exact .inr (.certificateVerify hst hr hup htype hkey)
  case h_8 =>
    refine transition_withMessage recv (by rw [hst]; rfl) (by simp [hst]) hw fun hs₁ msg hr hup => ?_
    obtain h | ⟨hmsg, h⟩ := @processFinished_cases C hs₁ msg hup.length
    · exact .inl h
    · rw [h]; exact .inr (.serverFinished hst hr hup hmsg)
  case h_9 => rw [tls13StateSendFinished_eq]; exact .clientFinished hst
  case h_10 =>
    exact .quiet (by simp [hst]) (fun _ => .inr rfl) (by simp [hst]) ⟨rfl, hw.plainOk⟩ rfl (by simp)

/-- Every transition leaves a well-formed context. -/
theorem Transition.wf {C : Crypto} {hostname : Bytes} {hs : HsCtx} {recv : Bytes} {o : Outcome}
    (h : Transition C hostname hs recv o) (hw : hs.Wf) : o.hs.Wf := by
  have hread : ∀ {hs₁}, Read hs hs₁ → hs₁.Wf := fun hr =>
    ⟨hr.hrrPending.trans hw.hrrPending, hr.plainOk⟩
  have hready : ∀ {hs₁}, HelloReady hs hs₁ → hs₁.Wf := fun hr => by
    refine ⟨(congrArg HsCtx.hrrPending hr.frame).trans hw.hrrPending, ?_⟩
    have h1 := congrArg HsCtx.plainLen hr.frame
    have h2 := congrArg HsCtx.plainBuf hr.frame
    rw [HsCtx.PlainOk, h1, h2]
    exact hw.plainOk
  cases h with
  | quiet hst hsame hpend hr hlog => exact hread hr
  | notSent hst hres hr hlog =>
    obtain ⟨hs₁, e, site, rfl | hr, ho⟩ := hr
    · rw [ho]; exact ⟨hw.hrrPending, hw.plainOk⟩
    · rw [ho]; exact ⟨(hready hr).hrrPending, (hready hr).plainOk⟩
  | clientHello hst hr hmsg hfit => exact ⟨(hready hr).hrrPending, (hready hr).plainOk⟩
  | ccs hst => exact ⟨hw.hrrPending, hw.plainOk⟩
  | helloRefused hst hmsg h hlog =>
    refine ⟨(congrArg HsCtx.hrrPending h.frame).trans hw.hrrPending, ?_⟩
    have h1 := congrArg HsCtx.plainLen h.frame
    have h2 := congrArg HsCtx.plainBuf h.frame
    rw [HsCtx.PlainOk, h1, h2]
    exact hw.plainOk
  | helloRetry hst hmsg h hfirst => exact ⟨rfl, hw.plainOk⟩
  | serverHello hst hmsg h => exact ⟨hw.hrrPending, hw.plainOk⟩
  | refused hst hpend hr hup h ho =>
    obtain ⟨e, he⟩ := h.hs
    rw [ho]
    dsimp only
    rw [he]
    exact ⟨(hread hr).hrrPending, (hread hr).plainOk⟩
  | parkedRefused hst hpend h =>
    obtain ⟨e, he⟩ := h.hs
    rw [he]
    exact ⟨hw.hrrPending, hw.plainOk⟩
  | encryptedExtensions hst hr => exact ⟨(hread hr).hrrPending, (hread hr).plainOk⟩
  | certificateRequest hst hr => exact ⟨(hread hr).hrrPending, (hread hr).plainOk⟩
  | certificateParked hst hr => exact ⟨(hread hr).hrrPending, (hread hr).plainOk⟩
  | parkedCertificate hst hpend h => exact ⟨hw.hrrPending, hw.plainOk⟩
  | certificate hst hpend hr => exact ⟨(hread hr).hrrPending, (hread hr).plainOk⟩
  | certificateVerify hst hr => exact ⟨(hread hr).hrrPending, (hread hr).plainOk⟩
  | serverFinished hst hr => exact ⟨(hread hr).hrrPending, (hread hr).plainOk⟩
  | clientFinished hst => exact ⟨hw.hrrPending, hw.plainOk⟩

end MacTLS
