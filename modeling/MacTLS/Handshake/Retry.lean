import MacTLS.Handshake.Binder
import MacTLS.Handshake.HelloExtensions

/-!
# The second ClientHello repeats the first

The two ClientHellos of a run with a HelloRetryRequest, as a server reads them.  The parse of the
request, the new transcript, the new key pair and the random generator lie between them.

* `repeatedExtensions` : the extensions that are to be the same;
* `Repeats` : a ClientHello repeats another;
* `Requested.cookie_iff` : the cookie of the context is that of the request;
* `retried_hello_repeats`.
-/

namespace MacTLS

open Lib Lib.Hkdf

/-! ### The extensions of a ClientHello -/

/-- The extensions that a retry repeats, in order: all but the cookie, and key_share and
pre_shared_key without their data. -/
def repeatedExtensions (es : List (ℕ × Bytes)) : List (ℕ × Bytes) :=
  (es.filter fun e => e.1 ≠ tls13ExtCookie).map fun e =>
    if e.1 = tls13ExtKeyShare ∨ e.1 = tls13ExtPreSharedKey then (e.1, []) else e

/-- A ClientHello repeats another. -/
structure Repeats (h1 h2 : ClientHello (ℕ × Bytes)) : Prop where
  version : h2.version = h1.version
  random : h2.random = h1.random
  sessionId : h2.sessionId = h1.sessionId
  suites : h2.suites = h1.suites
  compression : h2.compression = h1.compression
  extensions : repeatedExtensions h2.extensions = repeatedExtensions h1.extensions
  /-- No extension comes twice. -/
  nodup : (h2.extensions.map Prod.fst).Nodup

section

variable (C : Crypto) (hs : HsCtx) (hostname : Bytes)

/-- The extensions of the ClientHello of a context. -/
def rawExtensions : List (ℕ × Bytes) := rawCommon hs hostname ++ rawPsk C hs hostname

theorem rawExtensions_types : (rawExtensions C hs hostname).map Prod.fst =
    offeredTypes (0 < hs.cookie.length) hs.offeredTicket.isSome := by
  rw [rawExtensions, rawCommon, rawCookie, rawPsk]
  by_cases hcookie : 0 < hs.cookie.length <;> cases hs.offeredTicket <;>
    simp [offeredTypes, hcookie]

theorem rawExtensions_nodup : ((rawExtensions C hs hostname).map Prod.fst).Nodup := by
  have hall : ∀ cookie psk : Bool, (offeredTypes cookie psk).Nodup := by decide
  rw [rawExtensions_types]
  exact hall _ _

/-- What is repeated depends on the host name, and on whether there is a ticket. -/
theorem repeatedExtensions_raw {hs hs' : HsCtx} (h : hs'.offeredTicket = hs.offeredTicket) :
    repeatedExtensions (rawExtensions C hs' hostname) =
      repeatedExtensions (rawExtensions C hs hostname) := by
  have hsame : ∀ hs : HsCtx, repeatedExtensions (rawExtensions C hs hostname) =
      [(tls13ExtServerName,
          putU16 (3 + hostname.length) ++ [0] ++ putU16 hostname.length ++ hostname),
        (tls13ExtSupportedGroups,
          putU16 6 ++ putU16s [tls13GroupX25519, tls13GroupSecp256r1, tls13GroupSecp384r1]),
        (tls13ExtSignatureAlgorithms,
          putU16 (sigAlgorithms.length * 2) ++ putU16s sigAlgorithms),
        (tls13ExtSupportedVersions, [4] ++ putU16s [tls13Version, tls12Version]),
        (tls13ExtKeyShare, []), (tls13ExtAlpn, putU16 9 ++ [8] ++ ascii "http/1.1"),
        (tls13ExtPskKeyExchangeModes, [1, 1])] ++
        if hs.offeredTicket.isSome then [(tls13ExtPreSharedKey, [])] else [] := by
    intro hs
    rw [rawExtensions, rawCommon, rawCookie, rawPsk]
    by_cases hcookie : 0 < hs.cookie.length <;> cases hs.offeredTicket <;>
      simp [repeatedExtensions, hcookie, tls13ExtServerName, tls13ExtSupportedGroups,
        tls13ExtSignatureAlgorithms, tls13ExtSupportedVersions, tls13ExtKeyShare, tls13ExtCookie,
        tls13ExtAlpn, tls13ExtPskKeyExchangeModes, tls13ExtPreSharedKey]
  rw [hsame, hsame, h]

theorem mem_keyShare (data : Bytes) : (tls13ExtKeyShare, data) ∈ rawExtensions C hs hostname ↔
    data = keyShareData hs.ecdheGroup hs.ecdhePublic := by
  rw [rawExtensions, rawCommon, rawCookie, rawPsk]
  by_cases hcookie : 0 < hs.cookie.length <;> cases hs.offeredTicket <;>
    simp [hcookie, tls13ExtServerName, tls13ExtSupportedGroups, tls13ExtSignatureAlgorithms,
      tls13ExtSupportedVersions, tls13ExtKeyShare, tls13ExtCookie, tls13ExtAlpn,
      tls13ExtPskKeyExchangeModes, tls13ExtPreSharedKey]

theorem mem_cookie (data : Bytes) : (tls13ExtCookie, data) ∈ rawExtensions C hs hostname ↔
    0 < hs.cookie.length ∧ data = putU16 hs.cookie.length ++ hs.cookie := by
  rw [rawExtensions, rawCommon, rawCookie, rawPsk]
  by_cases hcookie : 0 < hs.cookie.length <;> cases hs.offeredTicket <;>
    simp [hcookie, tls13ExtServerName, tls13ExtSupportedGroups, tls13ExtSignatureAlgorithms,
      tls13ExtSupportedVersions, tls13ExtKeyShare, tls13ExtCookie, tls13ExtAlpn,
      tls13ExtPskKeyExchangeModes, tls13ExtPreSharedKey]

theorem mem_preSharedKey (data : Bytes) :
    (tls13ExtPreSharedKey, data) ∈ rawExtensions C hs hostname ↔
      ∃ tk, hs.offeredTicket = some tk ∧
        data = pskData tk hs.offerObfuscatedAge (pskBinder C hs hostname tk) := by
  rw [rawExtensions, rawCommon, rawCookie, rawPsk]
  by_cases hcookie : 0 < hs.cookie.length <;> cases hs.offeredTicket <;>
    simp [hcookie, tls13ExtServerName, tls13ExtSupportedGroups, tls13ExtSignatureAlgorithms,
      tls13ExtSupportedVersions, tls13ExtKeyShare, tls13ExtCookie, tls13ExtAlpn,
      tls13ExtPskKeyExchangeModes, tls13ExtPreSharedKey]

end

/-! ### The request -/

/-- A cookie that was read is the rest of its extension. -/
theorem eq_cookie {data : Bytes} (h : AcceptedExt tls13ExtCookie data) :
    data = putU16 (data.drop 2).length ++ data.drop 2 := by
  have hdecl : getU16 data 0 + 2 = data.length := h.1
  have hlen : getU16 data 0 = (data.drop 2).length := by
    rw [List.length_drop]
    omega
  have htwo := slice_two (show 0 + 2 ≤ data.length by omega)
  rw [hlen] at htwo
  rw [← htwo]
  exact (List.take_append_drop 2 data).symm

/-- What an accepted HelloRetryRequest says, and what the context keeps of it. -/
theorem Requested.says {hs : HsCtx} {p : Bytes} (h : Requested hs p) :
    ∃ es, HelloPayload p hrrRandom hs.cipherSuite es ∧
      (∀ e ∈ es, AcceptedExt e.1 e.2) ∧
      (lastData tls13ExtSupportedVersions es).map (getU16 · 0) = some tls13Version ∧
      (lastData tls13ExtKeyShare es).map (getU16 · 0) = some hs.hrrGroup ∧
      hs.cookie = ((lastData tls13ExtCookie es).map (·.drop 2)).getD [] := by
  obtain ⟨pos, e, hhead, hx⟩ := h.retried.fields
  obtain ⟨hhrr, es, hpay, hread⟩ := helloPayload_of_shExtLoop hhead hx
  obtain ⟨hversion, hgroup, hcookie⟩ := readExtensions_fields hread
  rw [hhrr.1 rfl] at hpay
  refine ⟨es, hpay, (readExtensions_eq_ok.1 hread).1, ?_, ?_, ?_⟩
  · rw [← hversion, h.retried.version]
  · rw [← hgroup, h.retried.share]
  · rw [h.cookie, hcookie]

/-- The next ClientHello carries the cookie of the request, when it is not empty. -/
theorem cookie_iff {cookie data : Bytes} {es : List (ℕ × Bytes)}
    (hacc : ∀ e ∈ es, AcceptedExt e.1 e.2)
    (h : cookie = ((lastData tls13ExtCookie es).map (·.drop 2)).getD []) :
    0 < cookie.length ∧ data = putU16 cookie.length ++ cookie ↔
      lastData tls13ExtCookie es = some data ∧ 2 < data.length := by
  cases hlast : lastData tls13ExtCookie es with
  | none => simp [h, hlast]
  | some data' =>
    have heq : data' = putU16 (data'.drop 2).length ++ data'.drop 2 :=
      eq_cookie (hacc _ (mem_of_lastData hlast))
    have hcookie : cookie = data'.drop 2 := by rw [h, hlast]; rfl
    have hlen := congrArg List.length heq
    rw [List.length_append, length_putU16] at hlen
    rw [hcookie, ← heq, Option.some.injEq]
    constructor
    · rintro ⟨hpos, rfl⟩
      exact ⟨rfl, by omega⟩
    · rintro ⟨rfl, hlong⟩
      exact ⟨by omega, rfl⟩

/-- The context of the second ClientHello against that of the first. -/
theorem HelloBuilt.second {C : Crypto} {hostname : Bytes} {hs hs₁ hs₂ : HsCtx}
    {rnd : ClientRandom} (h : HelloBuilt hs rnd hs₂) (hfirst : FirstHello C hostname hs hs₁) :
    hs₂.chRandom = hs₁.chRandom ∧ hs₂.chSessionId = hs₁.chSessionId ∧
      hs₂.settings = hs₁.settings := by
  have hreplayed := hfirst.replayed
  simp only [HsCtx.replayed, Prod.mk.injEq] at hreplayed
  obtain ⟨hsettings, hvalid, hrandom, hsession⟩ := hreplayed
  rw [hfirst.valid] at hvalid
  obtain ⟨-, x, pub, -, -, -, heq⟩ := h.eq
  rw [helloContext_eq, ← hvalid] at heq
  rw [hrandom, hsession, hsettings, heq]
  exact ⟨rfl, rfl, rfl⟩

/-- Contexts with the same settings and the same hash offer the same ticket. -/
theorem offeredTicket_congr {hs hs' : HsCtx} (hset : hs'.settings = hs.settings)
    (hhash : hs'.transcript.hash = hs.transcript.hash) :
    hs'.offeredTicket = hs.offeredTicket ∧ hs'.offerObfuscatedAge = hs.offerObfuscatedAge := by
  simp only [HsCtx.settings, Prod.mk.injEq] at hset
  obtain ⟨hres, htk, hage⟩ := hset
  refine ⟨?_, hage⟩
  rw [HsCtx.offeredTicket, HsCtx.offeredTicket, hres, htk, Transcript.hashLen, Transcript.hashLen,
    hhash]

/-! ### Runs -/

/-- **The second ClientHello repeats the first.**  In every run in which a HelloRetryRequest was
accepted, the ClientHello that is sent next has the fields and the extensions of the first.  Its
key_share is a key pair of this step for the group that the request names, it carries the cookie
extension of the request if the cookie is not empty, and its ticket is that of the first with the
binder for the new transcript. -/
theorem retried_hello_repeats (C : Crypto) (hostname : Bytes) (hasEngine resuming : Bool)
    (offerTicket : Option SessionTicket) (age : ℕ) {s : Session} (i : StepInput) {ch2 : Bytes}
    (h : Reach (Session.step C hostname) (Live C hostname)
      (Session.start hasEngine resuming offerTicket age) s)
    (hst : s.hs.state = .sendClientHello) (hhrr : s.hs.hrrReceived = true)
    (hsent : .sent ch2 ∈ (s.out C hostname i).log) :
    ∃ ch1 p suite es h1 h2, messages s.log = [ch1, helloMessage p] ∧
      HelloPayload p hrrRandom suite es ∧
      rawClientHello ch1 = some h1 ∧ rawClientHello ch2 = some h2 ∧ Repeats h1 h2 ∧
      (∃ group x pub, (lastData tls13ExtKeyShare es).map (getU16 · 0) = some group ∧
        i.rnd.keygen (tls13BrCurveForGroup group) = some (x, pub) ∧
        ∀ data, (tls13ExtKeyShare, data) ∈ h2.extensions ↔ data = keyShareData group pub) ∧
      (∀ data, (tls13ExtCookie, data) ∉ h1.extensions) ∧
      (∀ data, (tls13ExtCookie, data) ∈ h2.extensions ↔
        lastData tls13ExtCookie es = some data ∧ 2 < data.length) ∧
      ∀ data, (tls13ExtPreSharedKey, data) ∈ h2.extensions →
        ∃ tk binder binder', offerTicket = some tk ∧
          (tls13ExtPreSharedKey, pskData tk age binder) ∈ h1.extensions ∧
          data = pskData tk age binder' ∧
          prescribedBinder C tk.psk (beforeHello C [ch1, helloMessage p]) ch2 = some binder' := by
  have hinv := helloInv_of_reach h
  obtain ⟨-, hset⟩ := settings_of_reach
    (messagesInv_start C hasEngine resuming offerTicket age).wf (h.mono fun _ _ _ => trivial)
  obtain ⟨hs₂, hbuilt, rfl, hfit, -, -, -⟩ := sent_hello i hst hsent
  have hcap := hbuilt.ready.captured (hinv.captured hst)
  have htranscript := (hbuilt.ready.transcript_eq hinv.ordered.ok hst).trans (hinv.before hst).2
  have hhash : hs₂.transcript.hash = .sha256 := by rw [htranscript]
  -- only behind an accepted request does a hello go out with `hrr_received`
  cases hinv.phase with
  | fresh _ hno => cases hhrr.symm.trans hno
  | waiting hwait => cases hst.symm.trans hwait
  | resent hwait => cases hst.symm.trans hwait
  | past hpast => rw [hst] at hpast; cases hpast
  | @asked hs₁ p _ _ hreq hfirst hmsgs =>
    obtain ⟨es, hpay, hacc, -, hgroup, hcookie⟩ := hreq.says
    obtain ⟨hrandom, hsession, hsettings⟩ := hbuilt.second hfirst
    have hhash₁ : hs₁.transcript.hash = .sha256 := by
      rw [hfirst.transcript]
      rfl
    obtain ⟨hoffer, hage⟩ := offeredTicket_congr hsettings (hhash.trans hhash₁.symm)
    obtain ⟨-, hcookie₂, hgroup₂, -, -⟩ := hbuilt.keeps
    obtain ⟨-, x, pub, hgen, -, -, heq⟩ := hbuilt.eq
    have hpub : hs₂.ecdhePublic = pub := by rw [heq, helloContext_eq]
    have hnext : s.hs.nextGroup = s.hs.hrrGroup := by simp [HsCtx.nextGroup, hhrr]
    rw [hnext] at hgroup₂ hgen
    refine ⟨_, p, _, es, _, _, hmsgs, hpay, rawClientHello_clientHello hfirst.captured hhash₁
      hfirst.fit, rawClientHello_clientHello hcap hhash hfit,
      ⟨rfl, hrandom, hsession, rfl, rfl, repeatedExtensions_raw C hostname hoffer,
        rawExtensions_nodup C hs₂ hostname⟩, ⟨_, x, pub, hgroup, hgen, ?_⟩, ?_, ?_, ?_⟩
    · intro data
      rw [← hgroup₂, ← hpub]
      exact mem_keyShare C hs₂ hostname data
    · intro data hmem
      have hpos := ((mem_cookie C hs₁ hostname data).1 hmem).1
      rw [hfirst.cookie] at hpos
      exact absurd hpos (Nat.lt_irrefl 0)
    · intro data
      exact (mem_cookie C hs₂ hostname data).trans (cookie_iff hacc (hcookie₂.trans hcookie))
    · intro data hmem
      obtain ⟨tk, htk, rfl⟩ := (mem_preSharedKey C hs₂ hostname data).1 hmem
      have hset₂ : hs₂.settings = (resuming, offerTicket, age) :=
        (congrArg HsCtx.settings hbuilt.ready.frame :).trans hset
      have hage₂ : hs₂.offerObfuscatedAge = age := (congrArg (·.2.2) hset₂ :)
      have hticket : offerTicket = some tk := by
        have := mem_offerTicket htk
        rwa [show hs₂.offerTicket = offerTicket from (congrArg (·.2.1) hset₂ :)] at this
      -- the ticket, first with its binder in the first hello, then in this one
      have hpsk := length_psk_of_offered htk hhash
      refine ⟨tk, pskBinder C hs₁ hostname tk, pskBinder C hs₂ hostname tk, hticket, ?_,
        by rw [hage₂], ?_⟩
      · refine (mem_preSharedKey C hs₁ hostname _).2 ⟨tk, hoffer ▸ htk, ?_⟩
        rw [← hage, hage₂]
      · have hbinder := pskBinder_eq C hostname htk hpsk hhash
        rw [htranscript, hmsgs] at hbinder
        rw [prescribedBinder, offeredBinders_clientHello hcap hhash htk hfit, Option.map_some]
        exact congrArg some hbinder.symm

theorem retried_hello_repeats_ticket :
    ∃ ch1 hrr ch2 h1 h2, messages retriedWithTicket.log = [ch1, hrr] ∧
      .sent ch2 ∈ (retriedWithTicket.out .transparent [1] ⟨[], .zero⟩).log ∧
      rawClientHello ch1 = some h1 ∧ rawClientHello ch2 = some h2 ∧ Repeats h1 h2 := by
  have hreach := reach_retriedWithTicket
  obtain ⟨hst, hhrr, ch2, hsent⟩ := retriedWithTicket_sends
  generalize retriedWithTicket = s at hreach hst hhrr hsent ⊢
  obtain ⟨ch1, p, -, -, h1, h2, hmsgs, -, hraw1, hraw2, hrep, -⟩ := retried_hello_repeats
    .transparent [1] true true (some sampleTicket) 5 ⟨[], .zero⟩ hreach hst hhrr hsent
  exact ⟨ch1, _, ch2, h1, h2, hmsgs, hsent, hraw1, hraw2, hrep⟩

end MacTLS
