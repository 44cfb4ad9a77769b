import MacTLS.Handshake.Authentication

/-!
# The keys in use

The key schedule of a handshake as `MacTLS.Lib.Hkdf` has it, and the proof that the context holds
its values: from the ServerHello on every key, IV and secret is the one the schedule computes from
the shared secret, the PSK and the transcript, although the two secret buffers are reused for
other values on the way.

* `HandshakeKeys`, `FinishedKeys`, `ApplicationKeys` : the values of the three stages;
* `KeysAt` : the stage that goes with a state;
* `keySchedule_refines` : every run from a ServerHello on is at its stage.
-/

namespace MacTLS

open Lib Lib.Hkdf

/-! ### The values of the schedule -/

/-- The schedule of the SHA-256 suites. -/
abbrev Crypto.sha256Schedule (C : Crypto) : Schedule := C.schedule .sha256

/-- The record context a traffic secret gives, at sequence number zero. -/
def trafficCtx (C : Crypto) (secret : Bytes) (suite : ℕ) : RecordCtx :=
  tls13RecordInit (C.sha256Schedule.trafficKey secret (tls13KeyLenForSuite suite))
    (C.sha256Schedule.trafficIv secret) suite

section

variable (C : Crypto) (psk : Option Bytes) (dhe hello : Bytes)

/-- The handshake traffic secrets of a connection whose transcript through the ServerHello is
`hello`. -/
def clientHs : Bytes := C.sha256Schedule.clientHandshake psk dhe (C.hash .sha256 hello)

def serverHs : Bytes := C.sha256Schedule.serverHandshake psk dhe (C.hash .sha256 hello)

/-- The server Finished over a transcript. -/
def serverFinishedMsg (before : Bytes) : Bytes :=
  hsMessage tls13HtFinished
    (C.sha256Schedule.verifyData (serverHs C psk dhe hello) (C.hash .sha256 before))

/-- The client Finished over a transcript. -/
def clientFinishedMsg (before : Bytes) : Bytes :=
  hsMessage tls13HtFinished
    (C.sha256Schedule.verifyData (clientHs C psk dhe hello) (C.hash .sha256 before))

/-- The suite is one of the two with SHA-256, and with it the keys are 16 or 32 bytes. -/
structure SuiteOk (suite : ℕ) : Prop where
  hash : tls13HashForSuite suite = .sha256
  keyLen : tls13KeyLenForSuite suite = 16 ∨ tls13KeyLenForSuite suite = 32

/-- From the ServerHello to the server Finished: handshake keys both ways. -/
structure HandshakeKeys (hs : HsCtx) : Prop where
  suite : SuiteOk hs.cipherSuite
  holds : hs.ks.Holds C .sha256 (C.sha256Schedule.handshakeSecret psk dhe)
  client : hs.clientHsSecret.take 32 = clientHs C psk dhe hello
  server : hs.serverHsSecret.take 32 = serverHs C psk dhe hello
  write : hs.writeCtx = trafficCtx C (clientHs C psk dhe hello) hs.cipherSuite
  read : hs.readCtx =
    { trafficCtx C (serverHs C psk dhe hello) hs.cipherSuite with seq := hs.readCtx.seq }
  extends_hello : hello <+: hs.transcript.data

/-- Between the two Finished messages: the server's was the right one, its application keys are
installed, and the secret buffers hold the client finished key and the client application key and
IV. -/
structure FinishedKeys (hs : HsCtx) (before : Bytes) : Prop where
  suite : SuiteOk hs.cipherSuite
  holds : hs.ks.Holds C .sha256 (C.sha256Schedule.masterSecret psk dhe)
  extends_hello : hello <+: before
  transcript : hs.transcript.data = before ++ serverFinishedMsg C psk dhe hello before
  finishedKey :
    hs.serverHsSecret.take 32 = C.sha256Schedule.finishedKey (clientHs C psk dhe hello)
  write : hs.writeCtx = trafficCtx C (clientHs C psk dhe hello) hs.cipherSuite
  read : hs.readCtx = trafficCtx C (C.sha256Schedule.serverApplication psk dhe
    (C.hash .sha256 hs.transcript.data)) hs.cipherSuite
  /-- The write context the next handler will build from `client_hs_secret`. -/
  next : tls13RecordInit (slice hs.clientHsSecret 0 (tls13KeyLenForSuite hs.cipherSuite))
      (slice hs.clientHsSecret (tls13KeyLenForSuite hs.cipherSuite) 12) hs.cipherSuite =
    trafficCtx C (C.sha256Schedule.clientApplication psk dhe
      (C.hash .sha256 hs.transcript.data)) hs.cipherSuite

/-- After the client Finished: it was sent under the client handshake key at sequence number zero,
application keys are in use both ways, and the resumption master secret is there. -/
structure ApplicationKeys (hs : HsCtx) (before : Bytes) : Prop where
  suite : SuiteOk hs.cipherSuite
  extends_hello : hello <+: before
  transcript : hs.transcript.data = before ++ serverFinishedMsg C psk dhe hello before ++
    clientFinishedMsg C psk dhe hello (before ++ serverFinishedMsg C psk dhe hello before)
  sent : hs.msgOffset = 0 ∧ hs.msgBuf.take hs.msgLen =
    applicationRecord (tls13RecordEncrypt C
      (trafficCtx C (clientHs C psk dhe hello) hs.cipherSuite)
      (clientFinishedMsg C psk dhe hello (before ++ serverFinishedMsg C psk dhe hello before))
      tls13CtHandshake).2
  write : hs.writeCtx = trafficCtx C (C.sha256Schedule.clientApplication psk dhe
    (C.hash .sha256 (before ++ serverFinishedMsg C psk dhe hello before))) hs.cipherSuite
  read : hs.readCtx = trafficCtx C (C.sha256Schedule.serverApplication psk dhe
    (C.hash .sha256 (before ++ serverFinishedMsg C psk dhe hello before))) hs.cipherSuite
  resMaster : hs.resMasterValid = true ∧ hs.resMaster.take 32 =
    C.sha256Schedule.resumptionMaster psk dhe (C.hash .sha256 hs.transcript.data)

/-- The values that go with the state of a context, once the ServerHello was accepted. -/
def KeysAt (hs : HsCtx) : Prop :=
  match hs.state with
  | .sendClientHello | .sendCcs | .recvServerHello => False
  | .sendFinished => ∃ before, FinishedKeys C psk dhe hello hs before
  | .complete => ∃ before, ApplicationKeys C psk dhe hello hs before
  | _ => HandshakeKeys C psk dhe hello hs

end

/-- The secret buffers keep their size, and the transcript its hash. -/
structure HsCtx.Sized (hs : HsCtx) : Prop where
  client : hs.clientHsSecret.length = 64
  server : hs.serverHsSecret.length = 64
  resMaster : hs.resMaster.length = 64
  hash : hs.transcript.hash = .sha256

theorem sized_start (hasEngine resuming : Bool) (offerTicket : Option SessionTicket) (age : ℕ) :
    (Session.start hasEngine resuming offerTicket age).hs.Sized :=
  ⟨rfl, rfl, rfl, rfl⟩

theorem length_hkdfExpandLabel_le (C : Crypto) (h : HashClass) (secret label context : Bytes)
    (n : ℕ) : (hkdfExpandLabel C h secret label context n).length ≤ n ∧
      (hkdfExpandLabel C h secret label context n).length ≤ 48 := by
  have hsize : h.size ≤ 48 := by cases h <;> decide
  simp only [hkdfExpandLabel, List.length_take, C.hmac_length]
  omega

theorem tls13KeyLenForSuite_le (suite : ℕ) : tls13KeyLenForSuite suite ≤ 32 := by
  unfold tls13KeyLenForSuite
  split_ifs <;> decide

theorem length_blit_front {b src : Bytes} (hb : b.length = 64) (hsrc : src.length ≤ 48) :
    (blit b 0 src).length = 64 := by
  rw [length_blit (by omega), hb]

theorem sized_installHandshakeKeys {C : Crypto} {hs : HsCtx} {suite : ℕ} {shared : Bytes}
    (h : hs.Sized) : (installHandshakeKeys C hs suite shared).Sized where
  client := length_blit_front h.client (length_hkdfExpandLabel_le C _ _ _ _ _).2
  server := length_blit_front h.server (length_hkdfExpandLabel_le C _ _ _ _ _).2
  resMaster := h.resMaster
  hash := h.hash

theorem sized_installServerAppKeys {C : Crypto} {hs : HsCtx} (h : hs.Sized) :
    (installServerAppKeys C hs).Sized where
  client := by
    have hkl := tls13KeyLenForSuite_le hs.cipherSuite
    have hfit : ∀ key iv : Bytes, key.length ≤ 48 → iv.length ≤ 12 →
        (blit (blit hs.clientHsSecret 0 key) (tls13KeyLenForSuite hs.cipherSuite) iv).length =
          64 := by
      intro key iv hk hiv
      have h1 := length_blit_front h.client hk
      rw [length_blit (by omega), h1]
    exact hfit _ _ (length_hkdfExpandLabel_le C _ _ _ _ _).2 (length_hkdfExpandLabel_le C _ _ _ _ _).1
  server := by
    have hle : ∀ x : Bytes, x.length ≤ 48 → (x.take hs.transcript.hashLen).length ≤ 48 := by
      intro x hx
      rw [List.length_take]
      omega
    exact length_blit_front h.server (hle _ (length_hkdfExpandLabel_le C _ _ _ _ _).2)
  resMaster := h.resMaster
  hash := h.hash

theorem sized_installClientAppKeys {C : Crypto} {hs : HsCtx} (h : hs.Sized) :
    (installClientAppKeys C hs).Sized where
  client := List.length_replicate.trans h.client
  server := List.length_replicate.trans h.server
  resMaster := length_blit_front h.resMaster (length_hkdfExpandLabel_le C _ _ _ _ _).2
  hash := h.hash

/-- No transition resizes a secret buffer or changes the transcript hash. -/
theorem Transition.sized {C : Crypto} {hostname : Bytes} {hs : HsCtx} {recv : Bytes} {o : Outcome}
    (h : Transition C hostname hs recv o) (hz : hs.Sized) : o.hs.Sized := by
  have hcongr : ∀ hs' : HsCtx, hs'.clientHsSecret = hs.clientHsSecret →
      hs'.serverHsSecret = hs.serverHsSecret → hs'.resMaster = hs.resMaster →
      hs'.transcript.hash = .sha256 → hs'.Sized := fun hs' h1 h2 h3 h4 =>
    ⟨by rw [h1]; exact hz.client, by rw [h2]; exact hz.server, by rw [h3]; exact hz.resMaster, h4⟩
  -- reading a message and preparing a hello write none of the three
  have hread : ∀ {hs₁}, Read hs hs₁ → hs₁.Sized := fun hr =>
    hcongr _ (congrArg HsCtx.clientHsSecret hr.frame :) (congrArg HsCtx.serverHsSecret hr.frame :)
      (congrArg HsCtx.resMaster hr.frame :)
      ((congrArg Transcript.hash hr.transcript :).trans hz.hash)
  have hready : ∀ {hs₁}, HelloReady hs hs₁ → hs₁.Sized := fun hr => by
    refine hcongr _ (congrArg HsCtx.clientHsSecret hr.frame :)
      (congrArg HsCtx.serverHsSecret hr.frame :) (congrArg HsCtx.resMaster hr.frame :) ?_
    rw [hr.transcript]
    split_ifs
    · exact hz.hash
    · rfl
  have hupd : ∀ {hs₁ : HsCtx} (msg), hs₁.Sized → (hs₁.update msg).Sized :=
    fun _ h => ⟨h.client, h.server, h.resMaster, h.hash⟩
  cases h with
  | quiet hst hsame hpend hr hlog => exact hread hr
  | notSent hst hres hr hlog =>
    obtain ⟨hs₁, e, site, rfl | hr, ho⟩ := hr
    · rw [ho]; exact ⟨hz.client, hz.server, hz.resMaster, hz.hash⟩
    · obtain ⟨h1, h2, h3, h4⟩ := hready hr
      rw [ho]; exact ⟨h1, h2, h3, h4⟩
  | clientHello hst hr hmsg hfit =>
    obtain ⟨h1, h2, h3, h4⟩ := hready hr
    exact ⟨h1, h2, h3, h4⟩
  | ccs hst => exact ⟨hz.client, hz.server, hz.resMaster, hz.hash⟩
  | helloRefused hst hpay h hlog =>
    refine hcongr _ (congrArg HsCtx.clientHsSecret h.frame :)
      (congrArg HsCtx.serverHsSecret h.frame :) (congrArg HsCtx.resMaster h.frame :) ?_
    obtain htr | ⟨-, htr⟩ := h.transcript <;> rw [htr] <;> exact hz.hash
  | helloRetry => exact ⟨hz.client, hz.server, hz.resMaster, hz.hash⟩
  | @serverHello msg suite shared hst hpay hacc =>
    have hsized : (afterServerHello hs msg suite).Sized :=
      ⟨hz.client, hz.server, hz.resMaster, hz.hash⟩
    obtain ⟨h1, h2, h3, h4⟩ := @sized_installHandshakeKeys C _ suite shared hsized
    exact ⟨h1, h2, h3, h4⟩
  | refused hst hpend hr hup h ho =>
    obtain ⟨e, he⟩ := h.hs
    obtain ⟨h1, h2, h3, h4⟩ := hread hr
    rw [ho]; dsimp only; rw [he]; exact ⟨h1, h2, h3, h4⟩
  | parkedRefused hst hpend h =>
    obtain ⟨e, he⟩ := h.hs
    rw [he]; exact ⟨hz.client, hz.server, hz.resMaster, hz.hash⟩
  | encryptedExtensions hst hr =>
    obtain ⟨h1, h2, h3, h4⟩ := hread hr
    exact ⟨h1, h2, h3, h4⟩
  | certificateRequest hst hr =>
    obtain ⟨h1, h2, h3, h4⟩ := hread hr
    exact ⟨h1, h2, h3, h4⟩
  | certificateParked hst hr =>
    obtain ⟨h1, h2, h3, h4⟩ := hread hr
    exact ⟨h1, h2, h3, h4⟩
  | parkedCertificate => exact ⟨hz.client, hz.server, hz.resMaster, hz.hash⟩
  | certificate hst hpend hr =>
    obtain ⟨h1, h2, h3, h4⟩ := hread hr
    exact ⟨h1, h2, h3, h4⟩
  | certificateVerify hst hr =>
    obtain ⟨h1, h2, h3, h4⟩ := hread hr
    exact ⟨h1, h2, h3, h4⟩
  | serverFinished hst hr => exact sized_installServerAppKeys (hupd _ (hread hr))
  | clientFinished => exact sized_installClientAppKeys hz

/-! ### The three stages -/

theorem suiteOk_of {suite : ℕ} (hh : tls13HashForSuite suite = .sha256)
    (hk : tls13KeyLenForSuite suite ≠ 0) : SuiteOk suite := by
  refine ⟨hh, ?_⟩
  unfold tls13KeyLenForSuite at hk ⊢
  split_ifs at hk ⊢
  · exact .inl rfl
  · exact .inr rfl
  · exact absurd rfl hk

theorem SuiteOk.keyLen_le {suite : ℕ} (h : SuiteOk suite) : tls13KeyLenForSuite suite ≤ 32 := by
  obtain h | h := h.keyLen <;> omega

section

variable {C : Crypto} {psk : Option Bytes} {dhe hello : Bytes} {hs : HsCtx}

theorem holds_handshakeKeysched (C : Crypto) (psk : Option Bytes) (dhe : Bytes) :
    (handshakeKeysched C .sha256 psk dhe).Holds C .sha256
      (C.sha256Schedule.handshakeSecret psk dhe) := by
  cases psk with
  | none => exact holds_extractHandshake (holds_extractEarly (holds_tls13KsInit _)) dhe
  | some psk =>
    exact holds_extractHandshake (holds_extractEarlyPsk (holds_tls13KsInit _) psk) dhe

theorem length_clientHs : (clientHs C psk dhe hello).length = 32 :=
  C.sha256Schedule.length_deriveSecret _ _ _

theorem length_serverHs : (serverHs C psk dhe hello).length = 32 :=
  C.sha256Schedule.length_deriveSecret _ _ _

/-- Reading the front of a buffer into which a 32-byte secret was just copied. -/
theorem take_blit_secret {b x : Bytes} (h : x.length = 32) : (blit b 0 x).take 32 = x :=
  h ▸ take_blit_zero b x

/-- The ServerHello installs the handshake keys. -/
theorem handshakeKeys_installHandshakeKeys {shared : Bytes} (hz : hs.Sized)
    (hs' : SuiteOk hs.cipherSuite) :
    HandshakeKeys C hs.earlyPsk shared hs.transcript.data
      (installHandshakeKeys C hs hs.cipherSuite shared) := by
  have hth : (C.hash .sha256 hs.transcript.data).length = 32 := C.hash_length _ _
  have hkeys := deriveKeys_eq (a := "c hs traffic") (b := "s hs traffic")
    (holds_handshakeKeysched C hs.earlyPsk shared) hth hs'.keyLen_le
  have heq : installHandshakeKeys C hs hs.cipherSuite shared =
      { hs with
        ks := handshakeKeysched C .sha256 hs.earlyPsk shared
        clientHsSecret := blit hs.clientHsSecret 0
          (clientHs C hs.earlyPsk shared hs.transcript.data)
        serverHsSecret := blit hs.serverHsSecret 0
          (serverHs C hs.earlyPsk shared hs.transcript.data)
        readCtx := trafficCtx C (serverHs C hs.earlyPsk shared hs.transcript.data) hs.cipherSuite
        writeCtx := trafficCtx C (clientHs C hs.earlyPsk shared hs.transcript.data) hs.cipherSuite
        ecdheSecret := secureWipe hs.ecdheSecret } := by
    rw [installHandshakeKeys, hz.hash, tls13TranscriptSnapshot, hz.hash, tls13KsDeriveHandshakeKeys,
      hkeys]
    rfl
  rw [heq]
  exact {
    suite := hs'
    holds := holds_handshakeKeysched C hs.earlyPsk shared
    client := take_blit_secret length_clientHs
    server := take_blit_secret length_serverHs
    write := rfl
    read := rfl
    extends_hello := List.prefix_refl _ }

/-- What a step must keep for the handshake keys to stay in place. -/
theorem HandshakeKeys.congr {hs' : HsCtx} (h : HandshakeKeys C psk dhe hello hs)
    (hsuite : hs'.cipherSuite = hs.cipherSuite) (hks : hs'.ks = hs.ks)
    (hc : hs'.clientHsSecret = hs.clientHsSecret) (hv : hs'.serverHsSecret = hs.serverHsSecret)
    (hw : hs'.writeCtx = hs.writeCtx)
    (hr : hs'.readCtx = { hs.readCtx with seq := hs'.readCtx.seq })
    (ht : hs.transcript.data <+: hs'.transcript.data) : HandshakeKeys C psk dhe hello hs' where
  suite := hsuite ▸ h.suite
  holds := hks ▸ h.holds
  client := hc ▸ h.client
  server := hv ▸ h.server
  write := by rw [hw, hsuite]; exact h.write
  read := by rw [hr, hsuite, h.read]
  extends_hello := h.extends_hello.trans ht

/-- The verify data the context expects is that of the schedule. -/
theorem HandshakeKeys.serverVerifyData (h : HandshakeKeys C psk dhe hello hs) (hz : hs.Sized) :
    hsMessage tls13HtFinished (serverVerifyData C hs) =
      serverFinishedMsg C psk dhe hello hs.transcript.data := by
  have hkey := tls13KsDeriveFinishedKey_eq h.holds hs.serverHsSecret
  have hlen : (C.sha256Schedule.finishedKey (serverHs C psk dhe hello)).length ≤
      HashClass.sha256.size := Nat.le_of_eq (C.sha256Schedule.length_finishedKey _)
  rw [show (HashClass.sha256).size = 32 from rfl, h.server] at hkey
  rw [MacTLS.serverVerifyData, finishedVerifyData, hkey, Transcript.hashLen, hz.hash,
    List.take_of_length_le hlen, tls13TranscriptSnapshot, hz.hash]
  rfl

/-- The server Finished installs the server application keys and leaves the rest for the client
Finished in the two secret buffers. -/
theorem HandshakeKeys.finishedKeys {before : Bytes} (h : HandshakeKeys C psk dhe hello hs)
    (hz : hs.Sized) (hb : hello <+: before)
    (ht : hs.transcript.data = before ++ serverFinishedMsg C psk dhe hello before) :
    FinishedKeys C psk dhe hello (installServerAppKeys C hs) before := by
  set th := C.hash .sha256 hs.transcript.data with hth_def
  have hth : th.length = 32 := C.hash_length _ _
  have hmaster := holds_extractMaster h.holds
  have hkeys := deriveKeys_eq (a := "c ap traffic") (b := "s ap traffic") hmaster hth
    h.suite.keyLen_le
  have hfk := tls13KsDeriveFinishedKey_eq hmaster hs.clientHsSecret
  rw [show (HashClass.sha256).size = 32 from rfl, h.client] at hfk
  set S := C.sha256Schedule
  have hlen : (S.finishedKey (clientHs C psk dhe hello)).length = 32 := S.length_finishedKey _
  set ca := S.clientApplication psk dhe th
  set n := tls13KeyLenForSuite hs.cipherSuite
  have hkey : (S.trafficKey ca n).length = n := S.length_expandLabel h.suite.keyLen_le
  have hiv : (S.trafficIv ca).length = 12 := S.length_expandLabel (show 12 ≤ 32 by decide)
  have heq : installServerAppKeys C hs =
      { hs with
        ks := tls13KsExtractMaster C hs.ks
        readCtx := trafficCtx C (S.serverApplication psk dhe th) hs.cipherSuite
        serverHsSecret := blit hs.serverHsSecret 0 (S.finishedKey (clientHs C psk dhe hello))
        clientHsSecret :=
          blit (blit hs.clientHsSecret 0 (S.trafficKey ca n)) n (S.trafficIv ca)
        state := .sendFinished } := by
    rw [installServerAppKeys, tls13TranscriptSnapshot, hz.hash, ← hth_def, tls13KsDeriveAppKeys,
      hkeys, hfk, Transcript.hashLen, hz.hash,
      List.take_of_length_le (show _ ≤ HashClass.sha256.size from Nat.le_of_eq hlen)]
    rfl
  have hbuf : (blit hs.clientHsSecret 0 (S.trafficKey ca n)).length = 64 :=
    length_blit_front hz.client (by rw [hkey]; exact Nat.le_trans h.suite.keyLen_le (by decide))
  have hn := h.suite.keyLen_le
  rw [heq]
  refine ⟨h.suite, hmaster, hb, ht, take_blit_secret hlen, h.write, rfl, ?_⟩
  have h1 : slice (blit (blit hs.clientHsSecret 0 (S.trafficKey ca n)) n (S.trafficIv ca)) 0 n =
      S.trafficKey ca n := by
    rw [slice_blit_before (by omega) (by omega)]
    have := slice_blit_self (b := hs.clientHsSecret) (x := S.trafficKey ca n) (Nat.zero_le _)
    rwa [hkey] at this
  have h2 : slice (blit (blit hs.clientHsSecret 0 (S.trafficKey ca n)) n (S.trafficIv ca)) n 12 =
      S.trafficIv ca := by
    have := slice_blit_self (b := blit hs.clientHsSecret 0 (S.trafficKey ca n))
      (x := S.trafficIv ca) (n := n) (by omega)
    rwa [hiv] at this
  dsimp only
  rw [h1, h2]
  rfl

/-- The client Finished goes out under the handshake key and installs the application keys. -/
theorem FinishedKeys.applicationKeys {before : Bytes} (h : FinishedKeys C psk dhe hello hs before)
    (hz : hs.Sized) :
    ApplicationKeys C psk dhe hello (installClientAppKeys C hs) before := by
  have hmsg : clientFinished C hs =
      clientFinishedMsg C psk dhe hello (before ++ serverFinishedMsg C psk dhe hello before) := by
    rw [clientFinished, finishedVerifyData, Transcript.hashLen, hz.hash,
      show HashClass.sha256.size = 32 from rfl, h.finishedKey, tls13TranscriptSnapshot, hz.hash,
      h.transcript]
    rfl
  have hdata : (installClientAppKeys C hs).transcript.data = before ++
      serverFinishedMsg C psk dhe hello before ++ clientFinishedMsg C psk dhe hello
        (before ++ serverFinishedMsg C psk dhe hello before) := by
    rw [← hmsg, ← h.transcript]
    rfl
  refine ⟨h.suite, h.extends_hello, hdata, ⟨rfl, ?_⟩, ?_, ?_, rfl, ?_⟩
  · refine (take_blit_zero hs.msgBuf (clientFinishedRecord C hs)).trans ?_
    rw [clientFinishedRecord, hmsg, h.write]
    rfl
  · exact h.next.trans (by rw [h.transcript]; rfl)
  · exact h.read.trans (by rw [h.transcript]; rfl)
  · have hres := tls13KsDeriveResumptionMaster_eq h.holds
      (t := C.hash .sha256 (installClientAppKeys C hs).transcript.data) (C.hash_length _ _)
    have hlen : ((C.schedule .sha256).deriveSecret (C.sha256Schedule.masterSecret psk dhe)
        "res master" (C.hash .sha256 (installClientAppKeys C hs).transcript.data)).length = 32 :=
      C.sha256Schedule.length_deriveSecret _ _ _
    have hsnap : tls13TranscriptSnapshot C (tls13TranscriptUpdate hs.transcript
        (clientFinished C hs)) = C.hash .sha256 (installClientAppKeys C hs).transcript.data := by
      rw [← hz.hash]; rfl
    rw [← hres, ← hsnap] at hlen
    refine (take_blit_secret (b := hs.resMaster) hlen).trans ?_
    rw [hsnap, hres]
    rfl

end

/-! ### Runs -/

theorem keysAt_of_reads {C : Crypto} {psk : Option Bytes} {dhe hello : Bytes} {hs : HsCtx}
    (hst : hs.state.reads = true) :
    KeysAt C psk dhe hello hs ↔ HandshakeKeys C psk dhe hello hs := by
  revert hst
  unfold KeysAt
  cases hs.state <;> simp [HsState.reads]

/-- Reading leaves the handshake keys in place. -/
theorem HandshakeKeys.read_congr {C : Crypto} {psk : Option Bytes} {dhe hello : Bytes}
    {hs hs₁ : HsCtx} (h : HandshakeKeys C psk dhe hello hs) (hr : Read hs hs₁) :
    HandshakeKeys C psk dhe hello hs₁ :=
  h.congr (congrArg HsCtx.cipherSuite hr.frame :) (congrArg HsCtx.ks hr.frame :)
    (congrArg HsCtx.clientHsSecret hr.frame :) (congrArg HsCtx.serverHsSecret hr.frame :)
    (congrArg HsCtx.writeCtx hr.frame :) (congrArg HsCtx.readCtx hr.frame :)
    (hr.transcript ▸ List.prefix_refl _)

/-- So does a message that goes into the transcript. -/
theorem HandshakeKeys.update {C : Crypto} {psk : Option Bytes} {dhe hello : Bytes}
    {hs : HsCtx} (h : HandshakeKeys C psk dhe hello hs) (msg : Bytes) :
    HandshakeKeys C psk dhe hello (hs.update msg) :=
  h.congr rfl rfl rfl rfl rfl rfl (List.prefix_append _ _)

theorem keysAt_step {C : Crypto} {hostname : Bytes} {psk : Option Bytes} {dhe hello : Bytes}
    {s : Session} (i : StepInput) (hw : s.hs.Wf) (hz : s.hs.Sized)
    (h : KeysAt C psk dhe hello s.hs) : KeysAt C psk dhe hello (s.step C hostname i).hs := by
  have ht := transition_step C hostname i.rnd i.recv hw
  have hkeys : s.hs.state.reads = true → HandshakeKeys C psk dhe hello s.hs :=
    fun hst => (keysAt_of_reads hst).1 h
  unfold Session.step Session.out
  dsimp only
  generalize (tls13HandshakeStep C hostname i.rnd s.hs i.recv).toOutcome = o at ht
  cases ht with
  | quiet hst hsame hpend hr hlog =>
    -- where the state reads messages the keys are those of the handshake
    cases hrd : s.hs.state.reads with
    | true =>
      rw [keysAt_of_reads (by rw [hr.state]; exact hrd)]
      exact (hkeys hrd).read_congr hr
    | false =>
      obtain hsh | hsame := hsame hrd
      · simp [KeysAt, hsh] at h
      · rw [hsame]; exact h
  -- before the keys there is nothing to keep
  | notSent hst => simp [KeysAt, hst] at h
  | clientHello hst => simp [KeysAt, hst] at h
  | ccs hst => simp [KeysAt, hst] at h
  | helloRefused hst => simp [KeysAt, hst] at h
  | helloRetry hst => simp [KeysAt, hst] at h
  | serverHello hst => simp [KeysAt, hst] at h
  | @refused hs₁ msg q _ hst hpend hr hup hrf ho =>
    obtain ⟨e, he⟩ := hrf.hs
    rw [ho]; dsimp only; rw [he]
    rw [keysAt_of_reads (by dsimp only; rw [hr.state]; exact hst)]
    exact ((hkeys hst).read_congr hr).congr rfl rfl rfl rfl rfl rfl (List.prefix_refl _)
  | parkedRefused hst hpend hrf =>
    obtain ⟨e, he⟩ := hrf.hs
    have hrd : s.hs.state.reads = true := by rw [hst]; rfl
    rw [he, keysAt_of_reads (by exact hrd)]
    exact (hkeys hrd).congr rfl rfl rfl rfl rfl rfl (List.prefix_refl _)
  | @encryptedExtensions hs₁ msg hst hr hup htype =>
    rw [keysAt_of_reads (by dsimp only; split_ifs <;> rfl)]
    exact (((hkeys (by rw [hst]; rfl)).read_congr hr).update msg).congr rfl rfl rfl rfl rfl rfl
      (List.prefix_refl _)
  | @certificateRequest hs₁ msg hst hr hup htype =>
    exact (((hkeys (by rw [hst]; rfl)).read_congr hr).update msg).congr rfl rfl rfl rfl rfl rfl
      (List.prefix_refl _)
  | @certificateParked hs₁ msg hst hr hup htype =>
    exact ((hkeys (by rw [hst]; rfl)).read_congr hr).congr rfl rfl rfl rfl rfl rfl
      (List.prefix_refl _)
  | @parkedCertificate certs pkey hst hpend hacc =>
    exact ((hkeys (by rw [hst]; rfl)).update _).congr rfl rfl rfl rfl rfl rfl (List.prefix_refl _)
  | @certificate hs₁ msg certs pkey hst hpend hr hup hacc =>
    exact (((hkeys (by rw [hst]; rfl)).read_congr hr).update msg).congr rfl rfl rfl rfl rfl rfl
      (List.prefix_refl _)
  | @certificateVerify hs₁ msg key hst hr hup htype hkey =>
    exact (((hkeys (by rw [hst]; rfl)).read_congr hr).update msg).congr rfl rfl rfl rfl rfl rfl
      (List.prefix_refl _)
  -- the server's application keys come with its Finished
  | @serverFinished hs₁ msg hst hr hup hmsg =>
    have hk := (hkeys (by rw [hst]; rfl)).read_congr hr
    have hz₁ : hs₁.Sized :=
      ⟨(congrArg (·.clientHsSecret.length) hr.frame :).trans hz.client,
        (congrArg (·.serverHsSecret.length) hr.frame :).trans hz.server,
        (congrArg (·.resMaster.length) hr.frame :).trans hz.resMaster,
        (congrArg Transcript.hash hr.transcript :).trans hz.hash⟩
    refine ⟨hs₁.transcript.data, (hk.update msg).finishedKeys
      ⟨hz₁.client, hz₁.server, hz₁.resMaster, hz₁.hash⟩ hk.extends_hello ?_⟩
    rw [hr.update_data hup, ← hk.serverVerifyData hz₁, ← hmsg, hr.transcript]
  -- and the client's with ours
  | clientFinished hst =>
    simp only [KeysAt, hst] at h
    obtain ⟨before, h⟩ := h
    exact ⟨before, h.applicationKeys hz⟩

theorem KeysAt.complete {C : Crypto} {psk : Option Bytes} {dhe hello : Bytes} {hs : HsCtx}
    (h : KeysAt C psk dhe hello hs) (hst : hs.state = .complete) :
    ∃ before, ApplicationKeys C psk dhe hello hs before := by
  simpa only [KeysAt, hst] using h

/-- The one way from waiting for a ServerHello to the encrypted messages. -/
theorem Transition.accepted {C : Crypto} {hostname : Bytes} {hs : HsCtx} {recv : Bytes}
    {o : Outcome} (h : Transition C hostname hs recv o) (hst : hs.state = .recvServerHello)
    (hst' : o.hs.state = .recvEncryptedExtensions) :
    ∃ msg suite shared, helloPayload recv = some msg ∧ HelloAccepted C hs msg suite shared ∧
      o.hs = { installHandshakeKeys C (afterServerHello hs msg suite) suite shared with
        state := .recvEncryptedExtensions } := by
  have hno : ∀ st, hs.state = st → st ≠ .recvServerHello → False := fun st h hne =>
    hne (h.symm.trans hst)
  cases h with
  | quiet _ _ _ hr _ => rw [hr.state, hst] at hst'; cases hst'
  | helloRefused _ _ h _ =>
    have := (congrArg HsCtx.state h.frame :).trans hst
    rw [this] at hst'; cases hst'
  | helloRetry => cases hst'
  | serverHello _ hpay hacc => exact ⟨_, _, _, hpay, hacc, rfl⟩
  | refused hrd => rw [hst] at hrd; cases hrd
  | notSent h => exact (hno _ h (by simp)).elim
  | clientHello h => exact (hno _ h (by simp)).elim
  | ccs h => exact (hno _ h (by simp)).elim
  | parkedRefused h => exact (hno _ h (by simp)).elim
  | encryptedExtensions h => exact (hno _ h (by simp)).elim
  | certificateRequest h => exact (hno _ h (by simp)).elim
  | certificateParked h => exact (hno _ h (by simp)).elim
  | parkedCertificate h => exact (hno _ h (by simp)).elim
  | certificate h => exact (hno _ h (by simp)).elim
  | certificateVerify h => exact (hno _ h (by simp)).elim
  | serverFinished h => exact (hno _ h (by simp)).elim
  | clientFinished h => exact (hno _ h (by simp)).elim

section

variable {C : Crypto} {hostname : Bytes} {s₀ s : Session}

/-- Well-formedness and buffer sizes over a run. -/
theorem wf_sized_of_reach (hw : s₀.hs.Wf) (hz : s₀.hs.Sized)
    (h : Reach (Session.step C hostname) (fun _ _ => True) s₀ s) : s.hs.Wf ∧ s.hs.Sized := by
  refine h.invariant (P := fun s => s.hs.Wf ∧ s.hs.Sized) ⟨hw, hz⟩ fun s i ⟨hw, hz⟩ _ => ?_
  have ht := transition_step C hostname i.rnd i.recv hw
  exact ⟨ht.wf hw, ht.sized hz⟩

/-- Once at its stage, a run stays at its stages. -/
theorem keysAt_of_reach {psk : Option Bytes} {dhe hello : Bytes} (hw : s₀.hs.Wf)
    (hz : s₀.hs.Sized) (hk : KeysAt C psk dhe hello s₀.hs)
    (h : Reach (Session.step C hostname) (fun _ _ => True) s₀ s) :
    KeysAt C psk dhe hello s.hs := by
  refine (h.invariant (P := fun s => s.hs.Wf ∧ s.hs.Sized ∧ KeysAt C psk dhe hello s.hs)
    ⟨hw, hz, hk⟩ fun s i ⟨hw, hz, hk⟩ _ => ?_).2.2
  have ht := transition_step C hostname i.rnd i.recv hw
  exact ⟨ht.wf hw, ht.sized hz, keysAt_step i hw hz hk⟩

end

/-- **Key schedule refinement.**  When a ServerHello is accepted the keys of the schedule are
installed both ways at sequence number zero, for the shared secret of the key agreement and the
PSK of the Early Secret; and every state of every run from there on is at its stage: the server
Finished that was accepted, the client Finished and the key it went out under, the application
keys and the resumption master secret are those the schedule has for the transcript. -/
theorem keySchedule_refines (C : Crypto) (hostname : Bytes) (hasEngine resuming : Bool)
    (offerTicket : Option SessionTicket) (age : ℕ) {s₀ : Session} (i : StepInput)
    (h₀ : Reach (Session.step C hostname) (fun _ _ => True)
      (Session.start hasEngine resuming offerTicket age) s₀)
    (hst : s₀.hs.state = .recvServerHello)
    (hok : (s₀.step C hostname i).hs.state = .recvEncryptedExtensions) :
    let s₁ := s₀.step C hostname i
    ∃ msg dhe, helloPayload i.recv = some msg ∧
      tls13EcdhShared C s₀.hs.ecdheGroup s₀.hs.ecdheSecret (shWalk msg).serverPublic = some dhe ∧
      s₁.hs.readCtx.seq = 0 ∧ s₁.hs.writeCtx.seq = 0 ∧
      ∀ s, Reach (Session.step C hostname) (fun _ _ => True) s₁ s →
        KeysAt C s₁.hs.earlyPsk dhe s₁.hs.transcript.data s.hs := by
  obtain ⟨hw, hz⟩ := wf_sized_of_reach (authInv_start C hostname hasEngine resuming offerTicket age).wf
    (sized_start hasEngine resuming offerTicket age) h₀
  obtain ⟨hw₁, hz₁⟩ := wf_sized_of_reach hw hz (Reach.refl.tail (i := i) trivial)
  obtain ⟨msg, suite, dhe, hpay, hacc, heq⟩ :=
    (transition_step C hostname i.rnd i.recv hw).accepted hst hok
  have hsuite := suiteOk_of (hacc.hash.trans hz.hash) hacc.keyLen
  have hsized : (afterServerHello s₀.hs msg suite).Sized :=
    ⟨hz.client, hz.server, hz.resMaster, hz.hash⟩
  have hk := @handshakeKeys_installHandshakeKeys C _ dhe hsized hsuite
  have hstep : (s₀.step C hostname i).hs = _ := heq
  refine ⟨msg, dhe, hpay, hacc.shared, by rw [hstep]; rfl, by rw [hstep]; rfl, fun s hs => ?_⟩
  refine keysAt_of_reach hw₁ hz₁ ?_ hs
  rw [hstep]
  exact hk.congr rfl rfl rfl rfl rfl rfl (List.prefix_refl _)

/-- In a whole handshake with a certificate every secret is that of the schedule. -/
theorem keySchedule_refines_certifiedServer :
    let run := play (Session.step .transparent [1]) (Session.start true false none 0)
    ∃ dhe before, ApplicationKeys .transparent none dhe
      (run ((certifiedServer .transparent [1]).take 2)).hs.transcript.data
      (run (certifiedServer .transparent [1])).hs before := by
  have hbegin : Reach (Session.step .transparent [1]) (fun _ _ => True)
      (Session.start true false none 0)
      (play (Session.step .transparent [1]) (Session.start true false none 0) [receive []]) :=
    reach_play (by decide +kernel)
  obtain ⟨_, dhe, -, -, -, -, hkeys⟩ := keySchedule_refines .transparent [1] true false none 0
    ⟨helloX25519 [], .zero⟩ hbegin (by decide +kernel) (by decide +kernel)
  have hcomplete : (play (Session.step .transparent [1]) (Session.start true false none 0)
      (certifiedServer .transparent [1])).hs.state = .complete := by decide +kernel
  have hpsk : (play (Session.step .transparent [1]) (Session.start true false none 0)
      ((certifiedServer .transparent [1]).take 2)).hs.earlyPsk = none := by decide +kernel
  have htwo : play (Session.step .transparent [1]) (Session.start true false none 0)
      ((certifiedServer .transparent [1]).take 2) =
      Session.step .transparent [1] (play (Session.step .transparent [1])
        (Session.start true false none 0) [receive []]) ⟨helloX25519 [], .zero⟩ := by
    simp only [certifiedServer, List.take_succ_cons, List.take_zero, play, List.foldl_cons,
      List.foldl_nil, receive]
  rw [← htwo] at hkeys
  have hrest : Reach (Session.step .transparent [1]) (fun _ _ => True)
      (play (Session.step .transparent [1]) (Session.start true false none 0)
        ((certifiedServer .transparent [1]).take 2))
      (play (Session.step .transparent [1]) (Session.start true false none 0)
        (certifiedServer .transparent [1])) :=
    reach_play_drop 2 (by decide +kernel)
  rw [hpsk] at hkeys
  dsimp only
  generalize play (Session.step .transparent [1]) (Session.start true false none 0)
    (certifiedServer .transparent [1]) = s at hrest hcomplete ⊢
  exact ⟨dhe, (hkeys s hrest).complete hcomplete⟩

end MacTLS
