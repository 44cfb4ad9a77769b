import MacTLS.Record.Basic
import MacTLS.KeySched.Basic

/-!
# The TLS 1.3 handshake context

The data of `ostls_tls13_handshake.h`: the states and results of the state machine, the running
transcript, the session ticket and the handshake context, with the handshake message framing.

A buffer with a separate length field that is only ever set together with it (`cookie`,
`ecdhe_public`, `ticket`, …) is one byte string.  The two 16640-byte buffers `msgBuf` and
`plainBuf` are shared between uses, so they are kept as buffers with their own counters.
-/

namespace MacTLS

open Lib

/-! ### Constants -/

def tls13HtClientHello : UInt8 := 1
def tls13HtServerHello : UInt8 := 2
def tls13HtNewSessionTicket : UInt8 := 4
def tls13HtEncryptedExtensions : UInt8 := 8
def tls13HtCertificate : UInt8 := 11
def tls13HtCertificateRequest : UInt8 := 13
def tls13HtCertificateVerify : UInt8 := 15
def tls13HtFinished : UInt8 := 20
def tls13HtKeyUpdate : UInt8 := 24
def tls13HtMessageHash : UInt8 := 254

def tls13Version : ℕ := 0x0304
def tls12Version : ℕ := 0x0303

def tls13ExtServerName : ℕ := 0
def tls13ExtSupportedGroups : ℕ := 10
def tls13ExtSignatureAlgorithms : ℕ := 13
def tls13ExtAlpn : ℕ := 16
def tls13ExtPreSharedKey : ℕ := 41
def tls13ExtSupportedVersions : ℕ := 43
def tls13ExtCookie : ℕ := 44
def tls13ExtPskKeyExchangeModes : ℕ := 45
def tls13ExtKeyShare : ℕ := 51

def tls13SigRsaPssRsaeSha256 : ℕ := 0x0804
def tls13SigRsaPssRsaeSha384 : ℕ := 0x0805
def tls13SigEcdsaSecp256r1Sha256 : ℕ := 0x0403
def tls13SigEcdsaSecp384r1Sha384 : ℕ := 0x0503
def tls13SigRsaPkcs1Sha256 : ℕ := 0x0401
def tls13SigRsaPkcs1Sha384 : ℕ := 0x0501

def tls13GroupSecp256r1 : ℕ := 0x0017
def tls13GroupSecp384r1 : ℕ := 0x0018
def tls13GroupX25519 : ℕ := 0x001D

/-- BearSSL error codes (`BR_ERR_*`) the handshake sets itself. -/
def brErrBadParam : ℕ := 1
def brErrBadState : ℕ := 2
def brErrBadVersion : ℕ := 4
def brErrTooLarge : ℕ := 6
def brErrBadMac : ℕ := 7
def brErrUnexpected : ℕ := 10
def brErrBadCipherSuite : ℕ := 16
def brErrBadFinished : ℕ := 24
def brErrBadSignature : ℕ := 27
def brErrX509NotTrusted : ℕ := 62

/-- Markers of the place a handshake died (`fail_site`). -/
def tls13FailHrrGroupUnsupp : ℕ := 1
def tls13FailHrrDouble : ℕ := 2
def tls13FailShNoKeyshare : ℕ := 3
def tls13FailShHashMismatch : ℕ := 4
def tls13FailShGroupMismatch : ℕ := 5
def tls13FailEcdhCompute : ℕ := 6
def tls13FailKeygen : ℕ := 7
def tls13FailChBuild : ℕ := 8

/-- Size of `msg_buf` and of `plain_buf`. -/
def hsBufSize : ℕ := 16640

/-- Size of the cookie buffer. -/
def cookieSize : ℕ := 256

/-- Size of the buffers for a public point. -/
def publicSize : ℕ := 133

/-! ### States and results -/

/-- States of the handshake (`tls13_hs_state`). -/
inductive HsState where
  | sendClientHello
  | sendCcs
  | recvServerHello
  | recvEncryptedExtensions
  | recvCertRequestOrCert
  | recvCertificate
  | recvCertificateVerify
  | recvFinished
  | sendFinished
  | complete
  deriving DecidableEq, Repr

/-- Results of the state handlers (`tls13_hs_result`). -/
inductive HsResult where
  | ok
  | wantRead
  | wantWrite
  | fallback12
  | error
  deriving DecidableEq, Repr

/-! ### The transcript -/

/-- A running transcript hash: the hash function and the bytes fed to it so far. -/
structure Transcript where
  hash : HashClass
  data : Bytes
  deriving DecidableEq

/-- Output length of the transcript hash. -/
def Transcript.hashLen (t : Transcript) : ℕ := t.hash.size

def tls13TranscriptInit (h : HashClass) : Transcript := ⟨h, []⟩

def tls13TranscriptUpdate (t : Transcript) (data : Bytes) : Transcript :=
  { t with data := t.data ++ data }

/-- Hash of what was fed so far; the context goes on accumulating. -/
def tls13TranscriptSnapshot (C : Crypto) (t : Transcript) : Bytes := C.hash t.hash t.data

/-- The synthetic message that stands for a ClientHello1 with the given hash. -/
def messageHash (ch1Hash : Bytes) : Bytes :=
  [tls13HtMessageHash, 0, 0, UInt8.ofNat ch1Hash.length] ++ ch1Hash

/-- On a HelloRetryRequest the transcript restarts from `message_hash(Hash(CH1))`. -/
def tls13TranscriptResetForHrr (C : Crypto) (t : Transcript) : Transcript :=
  tls13TranscriptUpdate (tls13TranscriptInit t.hash) (messageHash (tls13TranscriptSnapshot C t))

/-! ### Tickets and the handshake context -/

/-- A session ticket ready for reuse (`tls13_session_ticket`). -/
structure SessionTicket where
  valid : Bool
  psk : Bytes
  cipherSuite : ℕ
  lifetime : ℕ
  ageAdd : ℕ
  ticket : Bytes
  deriving DecidableEq

/-- The zeroed ticket of a fresh context. -/
def SessionTicket.empty : SessionTicket := ⟨false, [], 0, 0, 0, []⟩

/-- The handshake context (`tls13_hs_ctx`). -/
structure HsCtx where
  state : HsState
  ks : Keysched
  transcript : Transcript
  /-- Decrypts incoming records. -/
  readCtx : RecordCtx
  /-- Encrypts outgoing records. -/
  writeCtx : RecordCtx
  ecdheSecret : Bytes
  ecdhePublic : Bytes
  ecdheGroup : ℕ
  /-- Group a HelloRetryRequest asked for. -/
  hrrGroup : ℕ
  /-- A HelloRetryRequest was just parsed; the ClientHello must be resent now. -/
  hrrPending : Bool
  chRandom : Bytes
  chSessionId : Bytes
  /-- Set once `chRandom` and `chSessionId` hold those of the first ClientHello. -/
  chFieldsValid : Bool
  /-- 64 bytes: the client handshake secret, later the client application key and IV. -/
  clientHsSecret : Bytes
  /-- 64 bytes: the server handshake secret, later the client finished key. -/
  serverHsSecret : Bytes
  /-- One handshake message: outgoing, or the incoming one being processed. -/
  msgBuf : Bytes
  msgLen : ℕ
  msgOffset : ℕ
  /-- Length of a Certificate message parked in `msgBuf` for the next step. -/
  pendingRecvMsgLen : ℕ
  /-- Decrypted handshake bytes not yet consumed lie at `plainOffset .. plainLen`. -/
  plainBuf : Bytes
  plainLen : ℕ
  plainOffset : ℕ
  cookie : Bytes
  cipherSuite : ℕ
  isTls13 : Bool
  hrrReceived : Bool
  certRequestReceived : Bool
  /-- `eng != NULL` -/
  hasEngine : Bool
  serverPkey : Option PKey
  error : ℕ
  failSite : ℕ
  resMaster : Bytes
  resMasterValid : Bool
  ticket : SessionTicket
  ticketValid : Bool
  resuming : Bool
  offerTicket : Option SessionTicket
  offerObfuscatedAge : ℕ
  resumptionAccepted : Bool
  deriving DecidableEq

/-- The key schedule of a zeroed context. -/
def Keysched.zero : Keysched := ⟨.sha256, 0, List.replicate 64 0, []⟩

/-- The record context of a zeroed context. -/
def RecordCtx.zero : RecordCtx := ⟨[], [], 0, 0⟩

/-- A zeroed context in its first state. -/
def tls13HandshakeInit : HsCtx where
  state := .sendClientHello
  ks := .zero
  transcript := ⟨.sha256, []⟩
  readCtx := .zero
  writeCtx := .zero
  ecdheSecret := []
  ecdhePublic := []
  ecdheGroup := 0
  hrrGroup := 0
  hrrPending := false
  chRandom := List.replicate 32 0
  chSessionId := List.replicate 32 0
  chFieldsValid := false
  clientHsSecret := List.replicate 64 0
  serverHsSecret := List.replicate 64 0
  msgBuf := []
  msgLen := 0
  msgOffset := 0
  pendingRecvMsgLen := 0
  plainBuf := []
  plainLen := 0
  plainOffset := 0
  cookie := []
  cipherSuite := 0
  isTls13 := false
  hrrReceived := false
  certRequestReceived := false
  hasEngine := false
  serverPkey := none
  error := 0
  failSite := 0
  resMaster := List.replicate 64 0
  resMasterValid := false
  ticket := .empty
  ticketValid := false
  resuming := false
  offerTicket := none
  offerObfuscatedAge := 0
  resumptionAccepted := false

/-- What a step did beyond changing the context: the handshake messages it put on the wire or
took off it, and its calls to the validator, the signature checks and the first extraction. -/
inductive HsEvent where
  /-- A handshake message was built for sending. -/
  | sent (msg : Bytes)
  /-- A handshake message was taken off the received records. -/
  | received (msg : Bytes)
  /-- `end_chain` gave this verdict on these certificates under this host name. -/
  | endChain (hostname : Bytes) (certs : List Bytes) (err : ℕ)
  /-- A signature over this content was checked under this key. -/
  | vrfy (key : PKey) (content : Bytes) (ok : Bool)
  /-- The Early Secret was extracted, from a PSK or from zeros. -/
  | earlySecret (psk : Option Bytes)
  deriving DecidableEq

/-- The outcome of processing one handshake message. -/
structure Outcome where
  res : HsResult
  hs : HsCtx
  log : List HsEvent

/-- The outcome of a state handler: it may also consume received bytes. -/
structure HsOut extends Outcome where
  recv : Bytes

/-- `hs->error = err; return kTLS13_Error;` -/
def HsCtx.fail (hs : HsCtx) (err : ℕ) (log : List HsEvent) : Outcome :=
  ⟨.error, { hs with error := err }, log⟩

/-- The same with a fail-site marker. -/
def HsCtx.failAt (hs : HsCtx) (err site : ℕ) (log : List HsEvent) : Outcome :=
  ⟨.error, { hs with error := err, failSite := site }, log⟩

/-- A handshake message: type, 24-bit body length, body. -/
def hsMessage (type : UInt8) (body : Bytes) : Bytes := type :: (putU24 body.length ++ body)

/-- Overwrite sensitive bytes with zeros. -/
def secureWipe (b : Bytes) : Bytes := List.replicate b.length 0

end MacTLS
