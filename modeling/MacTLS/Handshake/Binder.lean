import MacTLS.Handshake.Authentication
import MacTLS.Handshake.Hellos
import MacTLS.Handshake.OfferedHello

/-!
# Offered binders verify

A server that holds the PSK recomputes the binder of a ClientHello from the finished message and
the messages before it.  The client computes it while the message is under construction.

* `prescribedBinder` : the binder that a finished message is to carry;
* `clientHelloMessage_append` : what stands before the end of a message does not depend on the end;
* `pskBinder_eq` : the binder over a message under construction is the one prescribed for it;
* `offered_binders_verify` : in every run, every ClientHello with a ticket carries its binder.
-/

namespace MacTLS

open Lib Lib.Decoder Lib.Hkdf

/-! ### The verifier -/

/-- `identities` and `binders<33..2^16-1>`, binders of 32 to 255 bytes. -/
def identitiesAndBinders : Decoder UInt8 (Bytes × List Bytes) :=
  vector 2 0 65535 >>= fun identities =>
    listOf 2 33 65535 (vector 1 32 255) >>= fun binders => pure (identities, binders)

/-- The binders of a message that ends with pre_shared_key. -/
def offeredBinders (msg : Bytes) : Option (List Bytes) := do
  let hello ← rawClientHello msg
  let (type, data) ← hello.extensions.getLast?
  if type = tls13ExtPreSharedKey then (identitiesAndBinders.whole data).map (·.2) else none

/-- A message cut before the length of its binders list. -/
def cutBinders (msg : Bytes) (binders : List Bytes) : Bytes :=
  msg.take (msg.length - (2 + (binders.map fun b => 1 + b.length).sum))

/-- The binder for a PSK of SHA-256 in the message `msg` after the messages `before`: a Finished
MAC under the binder key of the PSK, over the message cut before its binders. -/
def prescribedBinder (C : Crypto) (psk before msg : Bytes) : Option Bytes :=
  (offeredBinders msg).map fun binders =>
    let S := C.schedule .sha256
    S.verifyData (S.deriveSecret (S.earlySecret (some psk)) "res binder" (S.hash []))
      (S.hash (before ++ cutBinders msg binders))

/-! ### The extensions as they are -/

/-- The data of the extension for a ticket. -/
def pskData (tk : SessionTicket) (age : ℕ) (binder : Bytes) : Bytes :=
  (putU16 (2 + tk.ticket.length + 4) ++ (putU16 tk.ticket.length ++ tk.ticket ++ putU32 age)) ++
    (putU16 (1 + binder.length) ++ ([UInt8.ofNat binder.length] ++ binder))

/-- The key_share extension. -/
def keyShareData (group : ℕ) (pub : Bytes) : Bytes :=
  putU16 (4 + pub.length) ++ putU16 group ++ putU16 pub.length ++ pub

/-- The cookie extension, if there is a cookie. -/
def rawCookie (cookie : Bytes) : List (ℕ × Bytes) :=
  if cookie.length > 0 then [(tls13ExtCookie, putU16 cookie.length ++ cookie)] else []

/-- The extensions before pre_shared_key, by type and data. -/
def rawCommon (hs : HsCtx) (hostname : Bytes) : List (ℕ × Bytes) :=
  [(tls13ExtServerName,
      putU16 (3 + hostname.length) ++ [0] ++ putU16 hostname.length ++ hostname),
    (tls13ExtSupportedGroups,
      putU16 6 ++ putU16s [tls13GroupX25519, tls13GroupSecp256r1, tls13GroupSecp384r1]),
    (tls13ExtSignatureAlgorithms, putU16 (sigAlgorithms.length * 2) ++ putU16s sigAlgorithms),
    (tls13ExtSupportedVersions, [4] ++ putU16s [tls13Version, tls12Version]),
    (tls13ExtKeyShare, keyShareData hs.ecdheGroup hs.ecdhePublic)] ++
    rawCookie hs.cookie ++
    [(tls13ExtAlpn, putU16 9 ++ [8] ++ ascii "http/1.1"), (tls13ExtPskKeyExchangeModes, [1, 1])]

/-- The extension for a ticket on offer. -/
def rawPsk (C : Crypto) (hs : HsCtx) (hostname : Bytes) : List (ℕ × Bytes) :=
  match hs.offeredTicket with
  | none => []
  | some tk =>
    [(tls13ExtPreSharedKey, pskData tk hs.offerObfuscatedAge (pskBinder C hs hostname tk))]

theorem clientHelloExtensions_eq (hs : HsCtx) (hostname : Bytes) :
    clientHelloExtensions hs hostname = encodeExtensions (rawCommon hs hostname) := by
  rw [clientHelloExtensions, encodeExtensions, rawCommon, rawCookie]
  split_ifs <;> simp [keyShareData]

theorem rawCommon_types (hs : HsCtx) (hostname : Bytes) :
    ∀ e ∈ rawCommon hs hostname, e.1 < 65536 := by
  rw [rawCommon, rawCookie]
  split_ifs <;> simp [tls13ExtServerName, tls13ExtSupportedGroups, tls13ExtSignatureAlgorithms,
    tls13ExtSupportedVersions, tls13ExtKeyShare, tls13ExtCookie, tls13ExtAlpn,
    tls13ExtPskKeyExchangeModes]

/-- A ticket is offered for a PSK of the size of the transcript hash. -/
theorem length_psk_of_offered {hs : HsCtx} {tk : SessionTicket} (h : hs.offeredTicket = some tk)
    (hhash : hs.transcript.hash = .sha256) : tk.psk.length = 32 := by
  rw [HsCtx.offeredTicket] at h
  split_ifs at h
  have hlen := of_decide_eq_true (Option.filter_eq_some_iff.1 h).2
  rw [hlen, Transcript.hashLen, hhash]
  rfl

theorem pskBytes_eq {C : Crypto} {hs : HsCtx} (hostname : Bytes)
    (hhash : hs.transcript.hash = .sha256) :
    pskBytes C hs hostname = encodeExtensions (rawPsk C hs hostname) := by
  rw [pskBytes, rawPsk]
  cases h : hs.offeredTicket with
  | none => rfl
  | some tk =>
    have hpsk := length_psk_of_offered h hhash
    have hlen := length_pskBinder C hs hostname hpsk
    dsimp only
    rw [pskIdentities_append_pskBinders _ (hlen.trans hpsk.symm)]
    exact (List.append_nil _).symm

theorem rawPsk_types (C : Crypto) (hs : HsCtx) (hostname : Bytes) :
    ∀ e ∈ rawPsk C hs hostname, e.1 < 65536 := by
  rw [rawPsk]
  cases hs.offeredTicket <;> simp [tls13ExtPreSharedKey]

/-- The bytes of all extensions. -/
theorem clientHello_eq_encode {C : Crypto} {hs : HsCtx} {hostname : Bytes}
    (hhash : hs.transcript.hash = .sha256) : clientHello C hs hostname =
      clientHelloMessage hs (encodeExtensions (rawCommon hs hostname ++ rawPsk C hs hostname)) := by
  rw [clientHello_eq, clientHelloExtensions_eq, pskBytes_eq hostname hhash, encodeExtensions,
    encodeExtensions, encodeExtensions, List.flatMap_append]

/-- The extensions of a message that fits its record. -/
theorem length_extensions_lt {hs : HsCtx} {exts : Bytes}
    (hfit : (clientHelloRecord (clientHelloMessage hs exts)).length ≤ hsBufSize) :
    exts.length < 65536 := by
  simp only [clientHelloRecord, clientHelloMessage, hsMessage, List.length_append,
    List.length_cons, hsBufSize] at hfit
  omega

/-- A message that fits its record, as a server reads it. -/
theorem rawClientHello_clientHello {C : Crypto} {hs : HsCtx} {hostname : Bytes}
    (hcap : hs.Captured) (hhash : hs.transcript.hash = .sha256)
    (hfit : (clientHelloRecord (clientHello C hs hostname)).length ≤ hsBufSize) :
    rawClientHello (clientHello C hs hostname) =
      some ⟨tls12Version, hs.chRandom, hs.chSessionId, tls13CipherSuites ++ tls12CipherSuites,
        [0], rawCommon hs hostname ++ rawPsk C hs hostname⟩ := by
  rw [clientHello_eq_encode hhash] at hfit ⊢
  have hlen := length_extensions_lt hfit
  have hlo : 8 ≤ (encodeExtensions (rawCommon hs hostname ++ rawPsk C hs hostname)).length := by
    simp [encodeExtensions, rawCommon, length_extension]
    omega
  refine (takes_clientHelloMessage hcap.random hcap.sessionId
    (takesAll_encodeExtensions ?_ hlen) hlo hlen).whole
  intro e he
  rcases List.mem_append.1 he with he | he
  · exact rawCommon_types hs hostname e he
  · exact rawPsk_types C hs hostname e he

theorem takes_identitiesAndBinders {tk : SessionTicket} {binder : Bytes} (age : ℕ)
    (hticket : tk.ticket.length < 65530) (hbinder : binder.length = 32) :
    identitiesAndBinders.Takes (pskData tk age binder)
      (putU16 tk.ticket.length ++ tk.ticket ++ putU32 age, [binder]) := by
  have hidlen : (putU16 tk.ticket.length ++ tk.ticket ++ putU32 age).length =
      2 + tk.ticket.length + 4 := by
    simp
    omega
  have hidentities : (vector 2 0 65535).Takes (putU16 (2 + tk.ticket.length + 4) ++
      (putU16 tk.ticket.length ++ tk.ticket ++ putU32 age))
      (putU16 tk.ticket.length ++ tk.ticket ++ putU32 age) := by
    rw [← hidlen]
    exact takes_vector16 0 65535 (Nat.zero_le _) (by omega) (by omega)
  have hbyte : (vector 1 32 255).Takes ([UInt8.ofNat binder.length] ++ binder) binder :=
    takes_vector rfl (bigEndian_byte (by omega)) (by omega) (by omega)
  have hblen : ([UInt8.ofNat binder.length] ++ binder).length = 1 + binder.length := by
    simp
    omega
  have hbinders := takes_listOf 2 33 65535 (.single hbyte (List.cons_ne_nil _ _))
    (length_putU16 _) ((bigEndian_putU16 (by omega)).trans hblen.symm) (by omega) (by omega)
  exact hidentities.bind hbinders.map

/-- A verifier finds the binder of the ticket on offer. -/
theorem offeredBinders_clientHello {C : Crypto} {hs : HsCtx} {hostname : Bytes}
    {tk : SessionTicket} (hcap : hs.Captured) (hhash : hs.transcript.hash = .sha256)
    (htk : hs.offeredTicket = some tk)
    (hfit : (clientHelloRecord (clientHello C hs hostname)).length ≤ hsBufSize) :
    offeredBinders (clientHello C hs hostname) = some [pskBinder C hs hostname tk] := by
  have hbinder := length_pskBinder C hs hostname (length_psk_of_offered htk hhash)
  have hraw : rawPsk C hs hostname = [(tls13ExtPreSharedKey,
      pskData tk hs.offerObfuscatedAge (pskBinder C hs hostname tk))] := by
    rw [rawPsk, htk]
  have hticket : tk.ticket.length < 65530 := by
    rw [clientHello_eq_encode hhash, hraw] at hfit
    have hlen := length_extensions_lt hfit
    simp [encodeExtensions, length_extension, pskData] at hlen
    omega
  have hlast : (rawCommon hs hostname ++ rawPsk C hs hostname).getLast? =
      some (tls13ExtPreSharedKey,
        pskData tk hs.offerObfuscatedAge (pskBinder C hs hostname tk)) := by
    rw [hraw]
    exact List.getLast?_concat
  have htake := (takes_identitiesAndBinders hs.offerObfuscatedAge hticket hbinder).whole
  simp only [offeredBinders, rawClientHello_clientHello hcap hhash hfit, Option.bind_eq_bind,
    Option.bind_some, hlast, if_true, htake]
  rfl

/-! ### The cut -/

/-- What stands before the end `tail` of a message does not depend on it, but for its length. -/
theorem clientHelloMessage_append (hs : HsCtx) (front : Bytes) {tail tail' : Bytes}
    (h : tail.length = tail'.length) :
    (clientHelloMessage hs (front ++ tail)).take
        ((clientHelloMessage hs (front ++ tail)).length - tail.length) =
      (clientHelloMessage hs (front ++ tail')).take
        ((clientHelloMessage hs (front ++ tail')).length - tail'.length) := by
  have hcut : ∀ t : Bytes, (clientHelloMessage hs (front ++ t)).take
      ((clientHelloMessage hs (front ++ t)).length - t.length) =
        tls13HtClientHello :: (putU24 ((clientHelloFields hs).length + 2 +
          (front.length + t.length)) ++ (clientHelloFields hs ++
            (putU16 (front.length + t.length) ++ front))) := by
    intro t
    have hsplit : clientHelloMessage hs (front ++ t) =
        (tls13HtClientHello :: (putU24 ((clientHelloFields hs).length + 2 +
          (front.length + t.length)) ++ (clientHelloFields hs ++
            (putU16 (front.length + t.length) ++ front)))) ++ t := by
      simp [clientHelloMessage, hsMessage, Nat.add_assoc]
    rw [hsplit]
    refine List.take_left' ?_
    simp
    omega
  rw [hcut, hcut, h]

theorem length_pskBinders (binder : Bytes) : (pskBinders binder).length = 3 + binder.length := by
  simp [pskBinders]
  omega

/-- A binder is a Finished MAC under the binder key of its PSK. -/
theorem tls13ComputeBinder_eq {C : Crypto} {psk ch : Bytes} {base : Transcript}
    (hhash : base.hash = .sha256) : tls13ComputeBinder C (tls13KsInit C .sha256) psk base ch =
      let S := C.schedule .sha256
      S.verifyData (S.deriveSecret (S.earlySecret (some psk)) "res binder" (S.hash []))
        (S.hash (base.data ++ ch)) := by
  have hearly := holds_extractEarlyPsk (holds_tls13KsInit (C := C) .sha256) psk
  have hkey : tls13KsDeriveBinderKey C (tls13KsExtractEarlyPsk C (tls13KsInit C .sha256) psk) =
      (C.schedule .sha256).deriveSecret ((C.schedule .sha256).earlySecret (some psk)) "res binder"
        (C.hash .sha256 []) := by
    rw [tls13KsDeriveBinderKey, hearly.emptyHash]
    exact deriveSecret_eq hearly (C.hash_length .sha256 [])
  have hlen : ((C.schedule .sha256).deriveSecret ((C.schedule .sha256).earlySecret (some psk))
      "res binder" (C.hash .sha256 [])).length = HashClass.sha256.size :=
    Schedule.length_deriveSecret ..
  have hth : (tls13TranscriptSnapshot C (tls13TranscriptUpdate base ch)).take
      HashClass.sha256.size = C.hash .sha256 (base.data ++ ch) := by
    rw [List.take_of_length_le]
    · rw [tls13TranscriptSnapshot, tls13TranscriptUpdate, hhash]
    · rw [tls13TranscriptSnapshot, C.hash_length, tls13TranscriptUpdate, hhash]
  rw [tls13ComputeBinder]
  dsimp only
  rw [hkey, tls13KsDeriveFinishedKey_eq hearly, List.take_of_length_le (Nat.le_of_eq hlen),
    hearly.hash, hearly.hashLen, hth]
  rfl

/-- The binder that the builder computes, over the message that it finishes. -/
theorem pskBinder_eq (C : Crypto) {hs : HsCtx} (hostname : Bytes) {tk : SessionTicket}
    (htk : hs.offeredTicket = some tk) (hpsk : tk.psk.length = 32)
    (hhash : hs.transcript.hash = .sha256) :
    pskBinder C hs hostname tk =
      let S := C.schedule .sha256
      S.verifyData (S.deriveSecret (S.earlySecret (some tk.psk)) "res binder" (S.hash []))
        (S.hash (hs.transcript.data ++
          cutBinders (clientHello C hs hostname) [pskBinder C hs hostname tk])) := by
  obtain ⟨binder, hbinder⟩ : ∃ b, b = pskBinder C hs hostname tk := ⟨_, rfl⟩
  have hlen : binder.length = 32 := hbinder ▸ length_pskBinder C hs hostname hpsk
  obtain ⟨front, hfront⟩ : ∃ f, f = clientHelloExtensions hs hostname ++
    pskIdentities tk hs.offerObfuscatedAge := ⟨_, rfl⟩
  have hmsg : clientHello C hs hostname =
      clientHelloMessage hs (front ++ pskBinders binder) := by
    rw [clientHello_eq, pskBytes, htk, hfront, hbinder, List.append_assoc]
  have hzeros : (pskBinders (List.replicate tk.psk.length 0)).length =
      (pskBinders binder).length := by
    rw [length_pskBinders, length_pskBinders, List.length_replicate, hpsk, hlen]
  -- the message under construction is cut where the finished one is
  have hcut : cutBinders (clientHello C hs hostname) [binder] =
      (clientHelloMessage hs (front ++ pskBinders (List.replicate tk.psk.length 0))).take
        ((clientHelloMessage hs (front ++ pskBinders (List.replicate tk.psk.length 0))).length -
          (2 + (1 + tk.psk.length))) := by
    have hsum : 2 + ([binder].map fun b => 1 + b.length).sum = (pskBinders binder).length := by
      rw [length_pskBinders]
      simp
      omega
    have hblen : 2 + (1 + tk.psk.length) =
        (pskBinders (List.replicate tk.psk.length 0)).length := by
      rw [length_pskBinders, List.length_replicate]
      omega
    rw [cutBinders, hsum, hblen, hmsg]
    exact clientHelloMessage_append hs front hzeros.symm
  rw [← hbinder, hcut, hbinder, pskBinder, ← List.append_assoc, ← hfront,
    if_neg (by rw [hpsk]; decide)]
  exact tls13ComputeBinder_eq hhash

/-! ### Runs -/

/-- **Offered binders verify.**  In every run of a client that offers a ticket with a PSK of
SHA-256, each ClientHello it sends, the first and the one after a HelloRetryRequest, ends with the
binder that a verifier computes from that message and the messages before it.  The transcript goes
on from those messages by the one ClientHello, and the key schedule stays as it was. -/
theorem offered_binders_verify (C : Crypto) (hostname : Bytes) (hasEngine : Bool)
    {tk : SessionTicket} (age : ℕ) {s : Session} (i : StepInput) {msg : Bytes}
    (hpsk : tk.psk.length = 32)
    (h : Reach (Session.step C hostname) (Live C hostname)
      (Session.start hasEngine true (some tk) age) s)
    (hst : s.hs.state = .sendClientHello) (hsent : .sent msg ∈ (s.out C hostname i).log) :
    (messages s.log = [] ∨ ∃ ch1 hrr, messages s.log = [ch1, hrr]) ∧
      (∃ binder, offeredBinders msg = some [binder] ∧
        prescribedBinder C tk.psk (beforeHello C (messages s.log)) msg = some binder) ∧
      (s.out C hostname i).hs.transcript = ⟨.sha256, beforeHello C (messages s.log) ++ msg⟩ ∧
      (s.out C hostname i).hs.ks = s.hs.ks := by
  have hinv := helloInv_of_reach h
  obtain ⟨hbefore, htranscript⟩ := hinv.before hst
  obtain ⟨-, hset⟩ := settings_of_reach (messagesInv_start C hasEngine true (some tk) age).wf
    (h.mono fun _ _ _ => trivial)
  obtain ⟨hs₁, hbuilt, rfl, hfit, -, hks, hdata⟩ := sent_hello i hst hsent
  have hready := hbuilt.ready
  have htranscript₁ : hs₁.transcript = ⟨.sha256, beforeHello C (messages s.log)⟩ :=
    (hready.transcript_eq hinv.ordered.ok hst).trans htranscript
  have hhash : hs₁.transcript.hash = .sha256 := by rw [htranscript₁]
  have hoffer : hs₁.offeredTicket = some tk := by
    have hset₁ : hs₁.settings = (true, some tk, age) :=
      (congrArg HsCtx.settings hready.frame :).trans hset
    simp only [HsCtx.settings, Prod.mk.injEq] at hset₁
    obtain ⟨hres, hticket, -⟩ := hset₁
    simp [HsCtx.offeredTicket, hres, hticket, hpsk, Transcript.hashLen, hhash, HashClass.size]
  have hbinders := offeredBinders_clientHello (hbuilt.ready.captured (hinv.captured hst)) hhash hoffer hfit
  refine ⟨hbefore, ⟨_, hbinders, ?_⟩, ?_, hks.trans (congrArg HsCtx.ks hready.frame :)⟩
  · rw [prescribedBinder, hbinders, Option.map_some]
    have hbinder := pskBinder_eq C hostname hoffer hpsk hhash
    rw [htranscript₁] at hbinder
    exact congrArg some hbinder.symm
  · rw [hdata, htranscript₁]
    rfl

/-- A ticket with a PSK of SHA-256. -/
def sampleTicket : SessionTicket :=
  ⟨true, List.replicate 32 7, tlsChacha20Poly1305Sha256, 0, 0, [1, 2, 3]⟩

/-- A client that offers it, after the HelloRetryRequest and before its second ClientHello. -/
def retriedWithTicket : Session :=
  play (Session.step .transparent [1]) (Session.start true true (some sampleTicket) 5)
    (retryScript.take 4)

theorem reach_retriedWithTicket : Reach (Session.step .transparent [1]) (Live .transparent [1])
    (Session.start true true (some sampleTicket) 5) retriedWithTicket :=
  reach_play (by decide +kernel)

theorem retriedWithTicket_sends : retriedWithTicket.hs.state = .sendClientHello ∧
    retriedWithTicket.hs.hrrReceived = true ∧
    ∃ msg, .sent msg ∈ (retriedWithTicket.out .transparent [1] ⟨[], .zero⟩).log :=
  ⟨by decide +kernel, by decide +kernel,
    (messages (retriedWithTicket.out .transparent [1] ⟨[], .zero⟩).log).headD [], by decide +kernel⟩

theorem offered_binders_verify_retried :
    ∃ msg binder, offeredBinders msg = some [binder] ∧
      prescribedBinder .transparent sampleTicket.psk
        (beforeHello .transparent (messages retriedWithTicket.log)) msg = some binder := by
  have hreach := reach_retriedWithTicket
  obtain ⟨hst, -, msg, hsent⟩ := retriedWithTicket_sends
  generalize retriedWithTicket = s at hreach hst hsent ⊢
  obtain ⟨-, ⟨binder, hbinder, hverify⟩, -, -⟩ := offered_binders_verify .transparent [1] true 5
    ⟨[], .zero⟩ List.length_replicate hreach hst hsent
  exact ⟨msg, binder, hbinder, hverify⟩

end MacTLS
