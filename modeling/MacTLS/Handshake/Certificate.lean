import MacTLS.Handshake.ReadHs

/-!
# EncryptedExtensions, Certificate and CertificateVerify

The handlers between the ServerHello and the server Finished.  Each is a pure function of the
message handed up; the Certificate handler also reads the certificates out of their list, puts
the chain into issuer order and feeds it to the validator.
-/

namespace MacTLS

open Lib Lib.Hkdf

/-! ### EncryptedExtensions and CertificateRequest -/

/-- The message is what the transcript takes: header and declared body. -/
def HsCtx.update (hs : HsCtx) (msg : Bytes) : HsCtx :=
  { hs with transcript := tls13TranscriptUpdate hs.transcript (msg.take (declaredLen msg)) }

/-- `tls13_state_recv_encrypted_extensions`, once the message is read. -/
def processEncryptedExtensions (hs : HsCtx) (msg : Bytes) : Outcome :=
  if byteAt msg 0 ≠ tls13HtEncryptedExtensions then hs.fail brErrUnexpected []
  else
    let bodyLen := getU24 msg 1
    if 4 + bodyLen > msg.length then hs.fail brErrBadParam []
    else if bodyLen ≥ 2 ∧ getU16 msg 4 + 2 > bodyLen then hs.fail brErrBadParam []
    else
      -- no Certificate and no CertificateVerify follow on an accepted resumption
      let next := if hs.resumptionAccepted then HsState.recvFinished else .recvCertRequestOrCert
      ⟨.ok, { hs.update msg with state := next }, []⟩

/-- `tls13_state_recv_cert_request_or_cert`, once the message is read: a Certificate stays in
`msg_buf` for the next step. -/
def processCertRequestOrCert (hs : HsCtx) (msg : Bytes) : Outcome :=
  if byteAt msg 0 = tls13HtCertificateRequest then
    if 4 + getU24 msg 1 > msg.length then hs.fail brErrBadParam []
    else
      ⟨.ok, { hs.update msg with certRequestReceived := true, state := .recvCertificate }, []⟩
  else if byteAt msg 0 = tls13HtCertificate then
    ⟨.ok, { hs with pendingRecvMsgLen := msg.length, state := .recvCertificate }, []⟩
  else hs.fail brErrUnexpected []

/-! ### Putting the chain in order -/

/-- One DER element: its tag, the bytes it takes with its header, and its value. -/
structure DerTlv where
  tag : UInt8
  used : ℕ
  val : Bytes

/-- Read one DER element from the front of `b`. -/
def ostlsDerTlv (b : Bytes) : Option DerTlv :=
  let element (hdr len : ℕ) : Option DerTlv :=
    if len > b.length - hdr then none else some ⟨byteAt b 0, hdr + len, slice b hdr len⟩
  if b.length < 2 then none
  else
    let l := (byteAt b 1).toNat
    if l < 0x80 then element 2 l
    else
      let nb := l &&& 0x7F
      if nb = 0 ∨ nb > 4 ∨ 2 + nb > b.length then none
      else element (2 + nb) ((slice b 2 nb).foldl (fun len x => len * 256 + x.toNat) 0)

/-- Skip one DER element. -/
def ostlsDerSkip (p : Bytes) : Option Bytes := (ostlsDerTlv p).map fun t => p.drop t.used

/-- Read one Name: the whole element, and what follows it. -/
def ostlsDerName (p : Bytes) : Option (Bytes × Bytes) :=
  (ostlsDerTlv p).bind fun t =>
    if t.tag ≠ 0x30 then none else some (p.take t.used, p.drop t.used)

/-- The raw issuer and subject names of a certificate. -/
def ostlsCertDns (cert : Bytes) : Option (Bytes × Bytes) := do
  let outer ← ostlsDerTlv cert
  if outer.tag ≠ 0x30 then none
  let tbs ← ostlsDerTlv outer.val
  if tbs.tag ≠ 0x30 then none
  let p := tbs.val
  -- the version is explicit and optional
  let p ← if p.length > 0 ∧ byteAt p 0 = 0xA0 then ostlsDerSkip p else some p
  let p ← ostlsDerSkip p      -- serialNumber
  let p ← ostlsDerSkip p      -- signature
  let (issuer, p) ← ostlsDerName p
  let p ← ostlsDerSkip p      -- validity
  let (subject, _) ← ostlsDerName p
  return (issuer, subject)

def ostlsMaxChain : ℕ := 12

/-- Extend an order of indices, leaf first, by the certificate whose subject is the issuer of
the last one, as long as there is one; `none` when a certificate of the chain does not parse. -/
def orderChain (certs : List Bytes) : ℕ → List ℕ → Option (List ℕ)
  | 0, order => some order
  | fuel + 1, order =>
    match ostlsCertDns (certs.getD (order.getLastD 0) []) with
    | none => none
    | some (issuer, _) =>
      let issues (j : ℕ) : Bool :=
        !order.contains j && ((ostlsCertDns (certs.getD j [])).map (·.2) == some issuer)
      match (List.range certs.length).find? issues with
      | none => some order
      | some j =>
        if (order ++ [j]).length ≥ certs.length then some (order ++ [j])
        else orderChain certs fuel (order ++ [j])

/-- The certificates in the order they are fed to the validator: issuer order, or wire order
when that cannot be found. -/
def fedChain (certs : List Bytes) : List Bytes :=
  match orderChain certs certs.length [0] with
  | none => certs
  | some order =>
    if order.length = 1 ∧ certs.length > 1 then certs
    else order.map fun k => certs.getD k []

/-! ### Certificate -/

/-- Collect the certificates of the list that ends at `listEnd`; `none` on a framing error.
Every turn moves on by at least five bytes. -/
def collectCerts (msg : Bytes) (listEnd : ℕ) : ℕ → ℕ → List Bytes → Option (List Bytes)
  | 0, _, certs => some certs
  | fuel + 1, pos, certs =>
    if pos < listEnd then
      if pos + 3 > listEnd then none
      else
        let certDataLen := getU24 msg pos
        let data := pos + 3
        if data + certDataLen > listEnd then none
        else
          let certs :=
            if certs.length < ostlsMaxChain then certs ++ [slice msg data certDataLen] else certs
          let ext := data + certDataLen
          if ext + 2 > listEnd then none
          -- the extensions are skipped without a check against the end of the list
          else collectCerts msg listEnd fuel (ext + 2 + getU16 msg ext) certs
    else some certs

/-- The certificate list of a Certificate message, or the error it is refused with. -/
def certificateList (msg : Bytes) : Except ℕ (List Bytes) :=
  let bodyLen := getU24 msg 1
  if 4 + bodyLen > msg.length then .error brErrBadParam
  else if 4 ≥ 4 + bodyLen then .error brErrBadParam
  else
    let pos := 5 + (byteAt msg 4).toNat
    if pos + 3 > 4 + bodyLen then .error brErrBadParam
    else
      let certListLen := getU24 msg pos
      let listEnd := pos + 3 + certListLen
      if listEnd > 4 + bodyLen then .error brErrBadParam
      else if certListLen = 0 then .error brErrX509NotTrusted
      else match collectCerts msg listEnd listEnd (pos + 3) [] with
        | none => .error brErrBadParam
        | some [] => .error brErrX509NotTrusted
        | some certs => .ok certs

/-- `tls13_state_recv_certificate`, once the message is there. -/
def processCertificate (C : Crypto) (hostname : Bytes) (hs : HsCtx) (msg : Bytes) : Outcome :=
  if byteAt msg 0 ≠ tls13HtCertificate then hs.fail brErrUnexpected []
  else match certificateList msg with
    | .error err => hs.fail err []
    | .ok certs =>
      let fed := fedChain certs
      let (err, pkey) := C.validate hostname fed
      let log := [HsEvent.endChain hostname fed err]
      if err ≠ 0 then hs.fail err log
      else match pkey with
        | none => hs.fail brErrX509NotTrusted log
        | some pkey =>
          ⟨.ok, { hs.update msg with serverPkey := some pkey, state := .recvCertificateVerify },
            log⟩

/-! ### CertificateVerify -/

/-- The content a CertificateVerify signs. -/
def tls13BuildVerifyContent (transcriptHash : Bytes) : Bytes :=
  List.replicate 64 0x20 ++ ascii "TLS 1.3, server CertificateVerify" ++ [0] ++ transcriptHash

/-- Verify a signature with a scheme; `none` when the scheme is unsupported or does not go with
the key. -/
def verifySignature (C : Crypto) (scheme : ℕ) (key : PKey) (content sig : Bytes) : Option Bool :=
  let sigHash : HashClass :=
    if scheme = tls13SigRsaPssRsaeSha256 ∨ scheme = tls13SigEcdsaSecp256r1Sha256 then .sha256
    else .sha384
  let contentHash := C.hash sigHash content
  if scheme = tls13SigRsaPssRsaeSha256 ∨ scheme = tls13SigRsaPssRsaeSha384 then
    match key with
    | .rsa n e => some (C.rsaPssVrfy sigHash contentHash n e sig)
    | .ec .. => none
  else if scheme = tls13SigEcdsaSecp256r1Sha256 ∨ scheme = tls13SigEcdsaSecp384r1Sha384 then
    match key with
    | .ec curve q => some (C.ecdsaVrfy contentHash curve q sig)
    | .rsa .. => none
  else none

/-- `tls13_state_recv_certificate_verify`, once the message is read. -/
def processCertificateVerify (C : Crypto) (hs : HsCtx) (msg : Bytes) : Outcome :=
  if byteAt msg 0 ≠ tls13HtCertificateVerify then hs.fail brErrUnexpected []
  else
    let bodyLen := getU24 msg 1
    if 4 + bodyLen > msg.length ∨ bodyLen < 4 then hs.fail brErrBadParam []
    else
      let scheme := getU16 msg 4
      let sigLen := getU16 msg 6
      let sig := slice msg 8 sigLen
      if sigLen + 4 > bodyLen then hs.fail brErrBadParam []
      else
        let content := tls13BuildVerifyContent (tls13TranscriptSnapshot C hs.transcript)
        match hs.serverPkey with
        | none => hs.fail brErrBadParam []
        | some key =>
          match verifySignature C scheme key content sig with
          | none => hs.fail brErrBadParam []
          | some false => hs.fail brErrBadSignature [.vrfy key content false]
          | some true =>
            ⟨.ok, { hs.update msg with state := .recvFinished }, [.vrfy key content true]⟩

end MacTLS
