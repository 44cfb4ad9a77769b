import MacTLS.Handshake.Basic

/-!
# Building the ClientHello

`tls13_build_client_hello` and what it needs: the key pair, the extensions in the order of the
source, and the PSK binder.  The source appends block by block to `msg_buf`, checks before each
block that it still fits, and patches the length fields at the end; the positions only grow, so
all those checks together say that the finished record fits, which is the one check made here.
-/

namespace MacTLS

open Lib Lib.Hkdf

/-- The random values of one ClientHello: what the DRBG and the key generation yield. -/
structure ClientRandom where
  /-- Private scalar and public point for a curve, unless generation fails. -/
  keygen : ℕ → Option (Bytes × Bytes)
  random : Bytes
  sessionId : Bytes
  random_length : random.length = 32
  sessionId_length : sessionId.length = 32

/-- The values of a generator that only yields zeros. -/
def ClientRandom.zero : ClientRandom where
  keygen _ := some (List.replicate 32 0, List.replicate 32 0)
  random := List.replicate 32 0
  sessionId := List.replicate 32 0
  random_length := rfl
  sessionId_length := rfl

/-- BearSSL curve for a TLS group; zero when unsupported. -/
def tls13BrCurveForGroup (group : ℕ) : ℕ :=
  if group = tls13GroupX25519 then 29
  else if group = tls13GroupSecp256r1 then 23
  else if group = tls13GroupSecp384r1 then 24
  else 0

/-- Length of the ECDHE shared secret of a group. -/
def tls13EcdhSecretLen (group : ℕ) : ℕ :=
  if group = tls13GroupX25519 then 32
  else if group = tls13GroupSecp256r1 then 32
  else if group = tls13GroupSecp384r1 then 48
  else 0

/-- Generate an ephemeral key pair for `group`; `none` for the return value `-1`. -/
def tls13GenerateKeypair (hs : HsCtx) (group : ℕ) (rnd : ClientRandom) : Option HsCtx :=
  let curve := tls13BrCurveForGroup group
  if curve = 0 then none
  else match rnd.keygen curve with
    | none => none
    | some (x, pub) =>
      if pub.length = 0 ∨ x.length > 64 ∨ pub.length > publicSize then none
      else some { hs with ecdheSecret := x, ecdhePublic := pub, ecdheGroup := group }

def tls12CipherSuites : List ℕ := [0xCCA9, 0xCCA8, 0xC02B, 0xC02F]

def tls13CipherSuites : List ℕ := [tlsChacha20Poly1305Sha256, tlsAes128GcmSha256]

def sigAlgorithms : List ℕ :=
  [tls13SigRsaPssRsaeSha256, tls13SigRsaPssRsaeSha384, tls13SigEcdsaSecp256r1Sha256,
    tls13SigEcdsaSecp384r1Sha384, tls13SigRsaPkcs1Sha256, tls13SigRsaPkcs1Sha384]

/-- One extension: type, length, data. -/
def extension (type : ℕ) (data : Bytes) : Bytes := putU16 type ++ putU16 data.length ++ data

/-- A list of 16-bit values. -/
def putU16s (vs : List ℕ) : Bytes := vs.flatMap putU16

/-- The fields before the extensions: version, random, session id, suites, compression. -/
def clientHelloFields (hs : HsCtx) : Bytes :=
  let suites := tls13CipherSuites ++ tls12CipherSuites
  putU16 tls12Version ++ hs.chRandom ++ [32] ++ hs.chSessionId ++
    putU16 (suites.length * 2) ++ putU16s suites ++ [1, 0]

/-- The extensions of every ClientHello, in the order they are written. -/
def clientHelloExtensions (hs : HsCtx) (hostname : Bytes) : Bytes :=
  extension tls13ExtServerName
      (putU16 (3 + hostname.length) ++ [0] ++ putU16 hostname.length ++ hostname) ++
    extension tls13ExtSupportedGroups
      (putU16 6 ++ putU16s [tls13GroupX25519, tls13GroupSecp256r1, tls13GroupSecp384r1]) ++
    extension tls13ExtSignatureAlgorithms
      (putU16 (sigAlgorithms.length * 2) ++ putU16s sigAlgorithms) ++
    extension tls13ExtSupportedVersions ([4] ++ putU16s [tls13Version, tls12Version]) ++
    extension tls13ExtKeyShare
      (putU16 (4 + hs.ecdhePublic.length) ++ putU16 hs.ecdheGroup ++
        putU16 hs.ecdhePublic.length ++ hs.ecdhePublic) ++
    (if hs.cookie.length > 0 then
      extension tls13ExtCookie (putU16 hs.cookie.length ++ hs.cookie)
    else []) ++
    extension tls13ExtAlpn (putU16 9 ++ [8] ++ ascii "http/1.1") ++
    extension tls13ExtPskKeyExchangeModes [1, 1]

/-- The pre_shared_key extension up to and with the identities: one identity, the ticket. -/
def pskIdentities (tk : SessionTicket) (obfuscatedAge : ℕ) : Bytes :=
  let idLen := tk.ticket.length
  let identitiesBlock := 2 + idLen + 4
  let bindersBlock := 1 + tk.psk.length
  putU16 tls13ExtPreSharedKey ++ putU16 (2 + identitiesBlock + 2 + bindersBlock) ++
    putU16 identitiesBlock ++ putU16 idLen ++ tk.ticket ++ putU32 obfuscatedAge

/-- The binders list: one binder. -/
def pskBinders (binder : Bytes) : Bytes :=
  putU16 (1 + binder.length) ++ [UInt8.ofNat binder.length] ++ binder

/-- The ClientHello message with the given extensions. -/
def clientHelloMessage (hs : HsCtx) (exts : Bytes) : Bytes :=
  hsMessage tls13HtClientHello (clientHelloFields hs ++ putU16 exts.length ++ exts)

/-- The ClientHello record around a message: handshake, TLS 1.0 on the record layer. -/
def clientHelloRecord (msg : Bytes) : Bytes :=
  [tls13CtHandshake, 0x03, 0x01] ++ putU16 msg.length ++ msg

/-- A PSK binder over a truncated ClientHello, continuing the transcript `base`.  The transcript
and the key schedule are private copies. -/
def tls13ComputeBinder (C : Crypto) (ks : Keysched) (psk : Bytes) (base : Transcript)
    (truncatedCh : Bytes) : Bytes :=
  let tmp := tls13TranscriptUpdate base truncatedCh
  let binderHash := tls13TranscriptSnapshot C tmp
  let bks := tls13KsExtractEarlyPsk C ks psk
  let binderKey := tls13KsDeriveBinderKey C bks
  let finishedKey := tls13KsDeriveFinishedKey C bks binderKey
  C.hmac bks.hash finishedKey (binderHash.take bks.hashLen)

/-- The ticket offered in the next ClientHello: one is set, and its PSK is as long as the
transcript hash. -/
def HsCtx.offeredTicket (hs : HsCtx) : Option SessionTicket :=
  if hs.resuming then
    hs.offerTicket.filter fun tk => tk.psk.length = hs.transcript.hashLen
  else none

/-- The random and session id of the first ClientHello are kept and replayed in the second. -/
def captureChFields (hs : HsCtx) (rnd : ClientRandom) : HsCtx :=
  if hs.chFieldsValid then hs
  else { hs with chRandom := rnd.random, chSessionId := rnd.sessionId, chFieldsValid := true }

/-- The ClientHello message of a context: with a ticket on offer, the pre_shared_key extension
comes last and its binder covers the message up to the binders list. -/
def clientHello (C : Crypto) (hs : HsCtx) (hostname : Bytes) : Bytes :=
  let exts := clientHelloExtensions hs hostname
  match hs.offeredTicket with
  | none => clientHelloMessage hs exts
  | some tk =>
    let blen := tk.psk.length
    let withBinder (binder : Bytes) :=
      clientHelloMessage hs
        (exts ++ (pskIdentities tk hs.offerObfuscatedAge ++ pskBinders binder))
    let placeholder := withBinder (List.replicate blen 0)
    let binderKs := tls13KsInit C (if blen = 48 then .sha384 else .sha256)
    let binder := tls13ComputeBinder C binderKs tk.psk hs.transcript
      (placeholder.take (placeholder.length - (2 + (1 + blen))))
    withBinder binder

/-- Build the ClientHello into `msg_buf` and feed it to the transcript; `none` with the context
left behind when the record does not fit. -/
def tls13BuildClientHello (C : Crypto) (hs : HsCtx) (hostname : Bytes) (rnd : ClientRandom) :
    HsCtx × Option Bytes :=
  let hs := captureChFields hs rnd
  let msg := clientHello C hs hostname
  let record := clientHelloRecord msg
  if record.length > hsBufSize then (hs, none)
  else
    ({ hs with
        msgBuf := blit hs.msgBuf 0 record
        msgLen := record.length
        msgOffset := 0
        transcript := tls13TranscriptUpdate hs.transcript msg }, some msg)

/-- The transcript starts with the first ClientHello; after a HelloRetryRequest it already holds
`message_hash` and the HelloRetryRequest. -/
def startTranscript (hs : HsCtx) : HsCtx :=
  if hs.hrrReceived then hs else { hs with transcript := tls13TranscriptInit .sha256 }

/-- The `kTLS13_SendClientHello` handler. -/
def tls13StateSendClientHello (C : Crypto) (hs : HsCtx) (hostname : Bytes) (rnd : ClientRandom) :
    Outcome :=
  if !hs.hasEngine then hs.fail brErrBadState []
  else
    let hs := startTranscript hs
    let group := if hs.hrrReceived then hs.hrrGroup else tls13GroupX25519
    match tls13GenerateKeypair hs group rnd with
    | none => hs.failAt brErrBadState tls13FailKeygen []
    | some hs =>
      match tls13BuildClientHello C hs hostname rnd with
      | (hs, none) => hs.failAt brErrTooLarge tls13FailChBuild []
      | (hs, some msg) => ⟨.wantWrite, hs, [.sent msg]⟩

/-- The ChangeCipherSpec record of the middlebox compatibility mode. -/
def tls13BuildCcs : Bytes := [tls13CtChangeCipherSpec, 0x03, 0x03, 0x00, 0x01, 0x01]

/-- The `kTLS13_SendCCS` handler. -/
def tls13StateSendCcs (hs : HsCtx) : Outcome :=
  ⟨.wantWrite, { hs with msgBuf := blit hs.msgBuf 0 tls13BuildCcs, msgLen := 6, msgOffset := 0 },
    []⟩

end MacTLS
