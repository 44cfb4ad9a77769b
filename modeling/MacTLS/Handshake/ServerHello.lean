import MacTLS.Handshake.ClientHello

/-!
# ServerHello and HelloRetryRequest

`tls13_parse_server_hello` and the handler around it.  The parser walks the fixed fields, then
the extension list, and only then negotiates.  Its bounds are those of the record it was given;
the transcript takes the declared length of the handshake message.

The walk over the extensions writes two fields of the context on its way, the cookie and
`resumption_accepted`; `ShExts` collects them with the local variables, and
`HsCtx.applyExts` stores them, also when the walk failed after having met them.
-/

namespace MacTLS

open Lib

/-! ### Suites and the shared secret -/

/-- Key length of a suite; zero when unsupported. -/
def tls13KeyLenForSuite (suite : ℕ) : ℕ :=
  if suite = tlsAes128GcmSha256 then 16
  else if suite = tlsAes256GcmSha384 ∨ suite = tlsChacha20Poly1305Sha256 then 32
  else 0

/-- Hash of a suite. -/
def tls13HashForSuite (suite : ℕ) : HashClass :=
  if suite = tlsAes256GcmSha384 then .sha384 else .sha256

/-- The ECDHE shared secret; `none` for the return value `-1`. -/
def tls13EcdhShared (C : Crypto) (group : ℕ) (priv peerPub : Bytes) : Option Bytes :=
  let curve := tls13BrCurveForGroup group
  let flen := tls13EcdhSecretLen group
  if curve = 0 ∨ flen = 0 ∨ peerPub.length = 0 ∨ peerPub.length > publicSize then none
  else match C.ecMul curve peerPub priv with
    | none => none
    | some point =>
      if group = tls13GroupX25519 then some (slice point 0 flen)
      else if peerPub.length < 1 + flen then none
      else some (slice point 1 flen)

/-! ### The extensions -/

/-- What the walk over the extensions of a ServerHello has met so far. -/
structure ShExts where
  /-- `negotiated_version`, once `found_supported_versions`. -/
  version : Option ℕ
  /-- `server_share_group`, once `found_key_share`. -/
  shareGroup : Option ℕ
  serverPublic : Bytes
  cookie : Option Bytes
  /-- A pre_shared_key extension was met: `resumption_accepted` is set. -/
  selectedPsk : Bool
  deriving DecidableEq

def ShExts.empty : ShExts := ⟨none, none, [], none, false⟩

/-- The fields of the context that the walk writes. -/
def HsCtx.applyExts (hs : HsCtx) (x : ShExts) : HsCtx :=
  { hs with
    cookie := x.cookie.getD hs.cookie
    resumptionAccepted := hs.resumptionAccepted || x.selectedPsk }

/-- The key_share extension: a group alone in a HelloRetryRequest, else a group and a point. -/
def shKeyShare (x : ShExts) (data : Bytes) : Except ℕ ShExts :=
  if data.length < 2 then .error brErrBadParam
  else
    let group := getU16 data 0
    if data.length = 2 then .ok { x with shareGroup := some group }
    else
      let keLen := getU16 data 2
      if tls13BrCurveForGroup group = 0 then .error brErrBadParam
      else if keLen = 0 ∨ data.length ≠ 4 + keLen ∨ keLen > publicSize then
        .error brErrBadParam
      else .ok { x with shareGroup := some group, serverPublic := slice data 4 keLen }

/-- The cookie extension of a HelloRetryRequest. -/
def shCookie (x : ShExts) (data : Bytes) : Except ℕ ShExts :=
  if data.length < 2 then .error brErrBadParam
  else
    let cookieLen := getU16 data 0
    if cookieLen + 2 ≠ data.length then .error brErrBadParam
    else if cookieLen > cookieSize then .error brErrTooLarge
    else .ok { x with cookie := some (slice data 2 cookieLen) }

/-- One extension of a ServerHello. -/
def shExtension (x : ShExts) (type : ℕ) (data : Bytes) : Except ℕ ShExts :=
  if type = tls13ExtSupportedVersions then
    if data.length ≠ 2 then .error brErrBadParam
    else .ok { x with version := some (getU16 data 0) }
  else if type = tls13ExtKeyShare then shKeyShare x data
  else if type = tls13ExtCookie then shCookie x data
  else if type = tls13ExtPreSharedKey then
    if data.length ≠ 2 then .error brErrBadParam
    else .ok { x with selectedPsk := true }
  else .ok x

/-- The walk over the extensions, from `pos` to `extEnd`: what it met, and the error that ended
it if any.  Every turn moves on by at least the four header bytes, so `fuel` turns are enough
from `extEnd - fuel` on. -/
def shExtLoop (msg : Bytes) (extEnd : ℕ) : ℕ → ℕ → ShExts → ShExts × Option ℕ
  | 0, _, x => (x, none)
  | fuel + 1, pos, x =>
    if pos + 4 ≤ extEnd then
      let extLen := getU16 msg (pos + 2)
      let data := pos + 4
      if data + extLen > extEnd then (x, some brErrBadParam)
      else match shExtension x (getU16 msg pos) (slice msg data extLen) with
        | .error err => (x, some err)
        | .ok x => shExtLoop msg extEnd fuel (data + extLen) x
    else (x, none)

/-! ### The parser -/

/-- The random value that marks a HelloRetryRequest. -/
def hrrRandom : Bytes :=
  [0xCF, 0x21, 0xAD, 0x74, 0xE5, 0x9A, 0x61, 0x11, 0xBE, 0x1D, 0x8C, 0x02, 0x1E, 0x65, 0xB8, 0x91,
    0xC2, 0xA2, 0x11, 0x16, 0x7A, 0xBB, 0x8C, 0x5E, 0x07, 0x9E, 0x09, 0xE2, 0xC8, 0xA8, 0x33, 0x9C]

/-- The fields of a ServerHello before its extensions. -/
inductive ShHead where
  | refused (err : ℕ)
  /-- No room for an extension list: a TLS 1.2 ServerHello. -/
  | noExtensions
  | fields (isHrr : Bool) (cipherSuite extPos extEnd : ℕ)
  deriving DecidableEq

/-- The declared length of a handshake message, its header included. -/
def declaredLen (msg : Bytes) : ℕ := 4 + getU24 msg 1

/-- Parse the fixed fields. -/
def shHead (msg : Bytes) : ShHead :=
  if msg.length < 44 then .refused brErrBadParam
  else if byteAt msg 0 ≠ tls13HtServerHello then .refused brErrUnexpected
  else if declaredLen msg > msg.length then .refused brErrBadParam
  else if getU16 msg 4 ≠ tls12Version then .refused brErrBadVersion
  else
    let isHrr : Bool := slice msg 6 32 = hrrRandom
    let suitePos := 39 + (byteAt msg 38).toNat
    if suitePos > msg.length then .refused brErrBadParam
    else if suitePos + 2 > msg.length then .refused brErrBadParam
    else
      let cipherSuite := getU16 msg suitePos
      if suitePos + 2 ≥ msg.length ∨ byteAt msg (suitePos + 2) ≠ 0 then .refused brErrBadParam
      else
        let extPos := suitePos + 5
        if extPos > msg.length then .noExtensions
        else
          let extEnd := extPos + getU16 msg (suitePos + 3)
          if extEnd > msg.length then .refused brErrBadParam
          else .fields isHrr cipherSuite extPos extEnd

/-- The HelloRetryRequest branch: the group for the retry, and the synthetic transcript. -/
def shHelloRetryRequest (C : Crypto) (hs : HsCtx) (body : Bytes) (x : ShExts) : Outcome :=
  if hs.hrrReceived then hs.failAt brErrUnexpected tls13FailHrrDouble []
  else
    let hs := { hs with hrrReceived := true }
    let group := x.shareGroup.getD 0
    if tls13BrCurveForGroup group = 0 then hs.failAt brErrBadParam tls13FailHrrGroupUnsupp []
    else
      ⟨.wantRead,
        { hs with
          hrrGroup := group
          hrrPending := true
          transcript := tls13TranscriptUpdate (tls13TranscriptResetForHrr C hs.transcript) body },
        []⟩

/-- The PSK of the Early Secret: that of the offered ticket once the server accepted. -/
def HsCtx.earlyPsk (hs : HsCtx) : Option Bytes :=
  if hs.resumptionAccepted then hs.offerTicket.map (·.psk) else none

/-- The Early and the Handshake Secret of a connection. -/
def handshakeKeysched (C : Crypto) (h : HashClass) (psk : Option Bytes) (shared : Bytes) :
    Keysched :=
  let ks := tls13KsInit C h
  let ks := match psk with
    | some psk => tls13KsExtractEarlyPsk C ks psk
    | none => tls13KsExtractEarly C ks
  tls13KsExtractHandshake C ks shared

/-- Derive and install the handshake keys; the private scalar is wiped. -/
def installHandshakeKeys (C : Crypto) (hs : HsCtx) (suite : ℕ) (shared : Bytes) : HsCtx :=
  let ks := handshakeKeysched C hs.transcript.hash hs.earlyPsk shared
  let keyLen := tls13KeyLenForSuite suite
  let keys := tls13KsDeriveHandshakeKeys C ks (tls13TranscriptSnapshot C hs.transcript) keyLen
  { hs with
    ks
    clientHsSecret := blit hs.clientHsSecret 0 keys.clientSecret
    serverHsSecret := blit hs.serverHsSecret 0 keys.serverSecret
    readCtx := tls13RecordInit keys.serverKey keys.serverIv suite
    writeCtx := tls13RecordInit keys.clientKey keys.clientIv suite
    ecdheSecret := secureWipe hs.ecdheSecret }

/-- The ServerHello branch: key agreement and the handshake keys. -/
def shServerHello (C : Crypto) (hs : HsCtx) (body : Bytes) (suite : ℕ) (x : ShExts) : Outcome :=
  match x.shareGroup with
  | none => hs.failAt brErrBadParam tls13FailShNoKeyshare []
  | some group =>
    if tls13HashForSuite suite ≠ hs.transcript.hash then
      hs.failAt brErrBadCipherSuite tls13FailShHashMismatch []
    else
      -- the message is in the transcript before the key agreement can fail
      let hs := { hs with transcript := tls13TranscriptUpdate hs.transcript body }
      if group ≠ hs.ecdheGroup then hs.failAt brErrBadParam tls13FailShGroupMismatch []
      else match tls13EcdhShared C hs.ecdheGroup hs.ecdheSecret x.serverPublic with
        | none => hs.failAt brErrBadParam tls13FailEcdhCompute []
        | some shared =>
          ⟨.ok, installHandshakeKeys C hs suite shared, [.earlySecret hs.earlyPsk]⟩

/-- Version and suite negotiation, once the extensions are known. -/
def shNegotiate (C : Crypto) (hs : HsCtx) (msg : Bytes) (isHrr : Bool) (suite : ℕ) (x : ShExts) :
    Outcome :=
  match x.version with
  | none => ⟨.fallback12, hs, []⟩
  | some version =>
    if version = tls12Version then ⟨.fallback12, hs, []⟩
    else if version ≠ tls13Version then hs.fail brErrBadVersion []
    else
      let hs := { hs with cipherSuite := suite, isTls13 := true }
      let body := msg.take (declaredLen msg)
      if tls13KeyLenForSuite suite = 0 then hs.fail brErrBadCipherSuite []
      else if isHrr then shHelloRetryRequest C hs body x
      else shServerHello C hs body suite x

/-- Parse a ServerHello or HelloRetryRequest: `msg` is the payload of its record. -/
def tls13ParseServerHello (C : Crypto) (hs : HsCtx) (msg : Bytes) : Outcome :=
  match shHead msg with
  | .refused err => hs.fail err []
  | .noExtensions => ⟨.fallback12, hs, []⟩
  | .fields isHrr suite extPos extEnd =>
    match shExtLoop msg extEnd extEnd extPos .empty with
    | (x, some err) => (hs.applyExts x).fail err []
    | (x, none) => shNegotiate C (hs.applyExts x) msg isHrr suite x

/-- The `kTLS13_RecvServerHello` handler. -/
def tls13StateRecvServerHello (C : Crypto) (hs : HsCtx) (recv : Bytes) : HsOut :=
  if recv.length < 5 then ⟨⟨.wantRead, hs, []⟩, recv⟩
  else
    let recordType := byteAt recv 0
    let recordLen := getU16 recv 3
    let total := 5 + recordLen
    if recv.length < total then ⟨⟨.wantRead, hs, []⟩, recv⟩
    else if recordType = tls13CtChangeCipherSpec then ⟨⟨.wantRead, hs, []⟩, recv.drop total⟩
    else if recordType = tls13CtAlert then
      let err := if recordLen ≥ 2 then
          0x10000 ||| ((byteAt recv 5).toNat <<< 8) ||| (byteAt recv 6).toNat
        else 0x1F000 ||| recordLen
      ⟨⟨.fallback12, { hs with error := err }, []⟩, recv.drop total⟩
    else if recordType ≠ tls13CtHandshake then
      ⟨hs.fail (0x2000 ||| recordType.toNat) [], recv⟩
    else
      let msg := slice recv 5 recordLen
      let o := tls13ParseServerHello C hs msg
      ⟨{ o with log := .received (msg.take (declaredLen msg)) :: o.log }, recv.drop total⟩

/-- A ServerHello record as a server sends it: no session id, and the given extensions. -/
def serverHelloRecord (random : Bytes) (suite : ℕ) (exts : Bytes) : Bytes :=
  let msg := hsMessage tls13HtServerHello
    (putU16 tls12Version ++ random ++ [0] ++ putU16 suite ++ [0] ++ putU16 exts.length ++ exts)
  [tls13CtHandshake, 0x03, 0x03] ++ putU16 msg.length ++ msg

/-- The extensions of a ServerHello that agrees on X25519, with the given public point. -/
def extsX25519 (point : Bytes) : Bytes :=
  extension tls13ExtSupportedVersions (putU16 tls13Version) ++
    extension tls13ExtKeyShare (putU16s [tls13GroupX25519, point.length] ++ point)

/-- A ServerHello that agrees on X25519, with some more extensions. -/
def helloX25519 (exts : Bytes) : Bytes :=
  serverHelloRecord (List.replicate 32 0) tlsChacha20Poly1305Sha256
    (extsX25519 (List.replicate 32 9) ++ exts)

end MacTLS
