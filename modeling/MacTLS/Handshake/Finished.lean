import MacTLS.Handshake.Certificate

/-!
# The two Finished messages

`tls13_state_recv_finished` and `tls13_state_send_finished`.  Between the two, two buffers hold
other values than their names say: `server_hs_secret` the client finished key, and
`client_hs_secret` the client application key followed by its IV.
-/

namespace MacTLS

open Lib Lib.Hkdf

/-- Constant-time comparison; zero when equal. -/
def tls13CtMemcmp (a b : Bytes) (len : ℕ) : UInt8 := byteDiff a b len

/-- The verify data under a finished key, over the transcript as it stands. -/
def finishedVerifyData (C : Crypto) (t : Transcript) (finishedKey : Bytes) : Bytes :=
  C.hmac t.hash (finishedKey.take t.hashLen) (tls13TranscriptSnapshot C t)

/-- Extract the Master Secret, install the server application keys, and leave the client finished
key and the client application key and IV for the next handler. -/
def installServerAppKeys (C : Crypto) (hs : HsCtx) : HsCtx :=
  let ks := tls13KsExtractMaster C hs.ks
  let keyLen := tls13KeyLenForSuite hs.cipherSuite
  let keys := tls13KsDeriveAppKeys C ks (tls13TranscriptSnapshot C hs.transcript) keyLen
  let clientFinishedKey := tls13KsDeriveFinishedKey C ks hs.clientHsSecret
  { hs with
    ks
    readCtx := tls13RecordInit keys.serverKey keys.serverIv hs.cipherSuite
    serverHsSecret := blit hs.serverHsSecret 0 (clientFinishedKey.take hs.transcript.hashLen)
    clientHsSecret := blit (blit hs.clientHsSecret 0 keys.clientKey) keyLen keys.clientIv
    state := .sendFinished }

/-- `tls13_state_recv_finished`, once the message is read. -/
def processFinished (C : Crypto) (hs : HsCtx) (msg : Bytes) : Outcome :=
  if byteAt msg 0 ≠ tls13HtFinished then hs.fail brErrUnexpected []
  else
    let bodyLen := getU24 msg 1
    let hashLen := hs.transcript.hashLen
    if 4 + bodyLen > msg.length then hs.fail brErrBadParam []
    else if bodyLen ≠ hashLen then hs.fail brErrBadParam []
    else
      let finishedKey := tls13KsDeriveFinishedKey C hs.ks hs.serverHsSecret
      let expectedVerify := finishedVerifyData C hs.transcript finishedKey
      if tls13CtMemcmp (slice msg 4 hashLen) expectedVerify hashLen ≠ 0 then
        hs.fail brErrBadFinished []
      else ⟨.ok, installServerAppKeys C (hs.update msg), []⟩

/-- The record around an encrypted payload. -/
def applicationRecord (ciphertext : Bytes) : Bytes :=
  [tls13CtApplicationData, 0x03, 0x03] ++ putU16 ciphertext.length ++ ciphertext

/-- The client Finished message. -/
def clientFinished (C : Crypto) (hs : HsCtx) : Bytes :=
  hsMessage tls13HtFinished (finishedVerifyData C hs.transcript hs.serverHsSecret)

/-- Its record, under the client handshake key still in `write_ctx`. -/
def clientFinishedRecord (C : Crypto) (hs : HsCtx) : Bytes :=
  applicationRecord (tls13RecordEncrypt C hs.writeCtx (clientFinished C hs) tls13CtHandshake).2

/-- Queue the Finished record, derive the resumption master secret, and switch `write_ctx` to the
application key and IV left in `client_hs_secret`; both secret buffers are wiped. -/
def installClientAppKeys (C : Crypto) (hs : HsCtx) : HsCtx :=
  let keyLen := tls13KeyLenForSuite hs.cipherSuite
  let record := clientFinishedRecord C hs
  let transcript := tls13TranscriptUpdate hs.transcript (clientFinished C hs)
  { hs with
    msgBuf := blit hs.msgBuf 0 record
    msgLen := record.length
    msgOffset := 0
    transcript
    resMaster := blit hs.resMaster 0
      (tls13KsDeriveResumptionMaster C hs.ks (tls13TranscriptSnapshot C transcript))
    resMasterValid := true
    writeCtx := tls13RecordInit (slice hs.clientHsSecret 0 keyLen)
      (slice hs.clientHsSecret keyLen 12) hs.cipherSuite
    clientHsSecret := secureWipe hs.clientHsSecret
    serverHsSecret := secureWipe hs.serverHsSecret
    state := .complete }

/-- The `kTLS13_SendFinished` handler.  Encryption never fails. -/
def tls13StateSendFinished (C : Crypto) (hs : HsCtx) : Outcome :=
  if (clientFinishedRecord C hs).length > hsBufSize then
    ({ hs with writeCtx := hs.writeCtx.next }).fail brErrTooLarge []
  else ⟨.wantWrite, installClientAppKeys C hs, [.sent (clientFinished C hs)]⟩

theorem tls13CtMemcmp_eq_zero_iff {a b : Bytes} {len : ℕ} (ha : a.length = len)
    (hb : b.length = len) : tls13CtMemcmp a b len = 0 ↔ a = b :=
  byteDiff_eq_zero_iff ha hb

@[simp] theorem length_finishedVerifyData (C : Crypto) (t : Transcript) (key : Bytes) :
    (finishedVerifyData C t key).length = t.hashLen :=
  C.hmac_length _ _ _

@[simp] theorem length_hsMessage (type : UInt8) (body : Bytes) :
    (hsMessage type body).length = 4 + body.length := by
  simp [hsMessage]
  omega

theorem length_clientFinished (C : Crypto) (hs : HsCtx) :
    (clientFinished C hs).length = 4 + hs.transcript.hashLen := by
  simp [clientFinished]

/-- The client Finished record always fits the message buffer. -/
theorem tls13StateSendFinished_eq (C : Crypto) (hs : HsCtx) :
    tls13StateSendFinished C hs =
      ⟨.wantWrite, installClientAppKeys C hs, [.sent (clientFinished C hs)]⟩ := by
  have hsize : hs.transcript.hashLen ≤ 48 := by
    rw [Transcript.hashLen]; cases hs.transcript.hash <;> decide
  have hlen := length_clientFinished C hs
  have hrec : (clientFinishedRecord C hs).length = 5 + (4 + hs.transcript.hashLen + 17) := by
    simp only [clientFinishedRecord, applicationRecord, List.length_append,
      length_tls13RecordEncrypt, length_putU16, hlen, List.length_cons, List.length_nil]
  rw [tls13StateSendFinished, if_neg]
  rw [hrec, hsBufSize]
  omega

end MacTLS
