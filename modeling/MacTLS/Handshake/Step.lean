import MacTLS.Handshake.Finished
import MacTLS.Lib.Machine

/-!
# The handshake state machine

`tls13_handshake_step`, and runs of it.  A `Session` is the context with the log of all its
steps; one step takes the bytes the caller has received so far and the random values it would
draw.  Nothing is assumed about the bytes of one call and the next: chunking, retransmission and
injection are all runs.
-/

namespace MacTLS

open Lib

/-- The main driver: run the handler of the current state. -/
def tls13HandshakeStep (C : Crypto) (hostname : Bytes) (rnd : ClientRandom) (hs : HsCtx)
    (recv : Bytes) : HsOut :=
  match hs.state with
  | .sendClientHello =>
    let o := tls13StateSendClientHello C hs hostname rnd
    if o.res = .wantWrite then ⟨{ o with hs := { o.hs with state := .recvServerHello } }, recv⟩
    else ⟨o, recv⟩
  | .sendCcs =>
    let o := tls13StateSendCcs hs
    if o.res = .wantWrite then ⟨{ o with hs := { o.hs with state := .recvServerHello } }, recv⟩
    else ⟨o, recv⟩
  | .recvServerHello =>
    let o := tls13StateRecvServerHello C hs recv
    if o.res = .ok then
      { o with hs := { o.hs with state := .recvEncryptedExtensions } }
    else if o.res = .wantRead ∧ o.hs.hrrPending then
      -- a HelloRetryRequest was parsed: resend the ClientHello
      { o with res := .ok, hs := { o.hs with hrrPending := false, state := .sendClientHello } }
    else o
  | .recvEncryptedExtensions => withMessage C hs recv processEncryptedExtensions
  | .recvCertRequestOrCert => withMessage C hs recv processCertRequestOrCert
  | .recvCertificate =>
    if hs.pendingRecvMsgLen > 0 then
      -- the message was parked in msg_buf by the previous state
      let msg := hs.msgBuf.take hs.pendingRecvMsgLen
      ⟨processCertificate C hostname { hs with pendingRecvMsgLen := 0 } msg, recv⟩
    else withMessage C hs recv (processCertificate C hostname)
  | .recvCertificateVerify => withMessage C hs recv (processCertificateVerify C)
  | .recvFinished => withMessage C hs recv (processFinished C)
  | .sendFinished => ⟨tls13StateSendFinished C hs, recv⟩
  | .complete => ⟨⟨.ok, hs, []⟩, recv⟩

/-! ### Runs -/

/-- A context with the log of the steps that led to it. -/
structure Session where
  hs : HsCtx
  log : List HsEvent

/-- The input of one step. -/
structure StepInput where
  recv : Bytes
  rnd : ClientRandom

/-- The outcome of a step on a session. -/
def Session.out (C : Crypto) (hostname : Bytes) (s : Session) (i : StepInput) : HsOut :=
  tls13HandshakeStep C hostname i.rnd s.hs i.recv

/-- One step of a session. -/
def Session.step (C : Crypto) (hostname : Bytes) (s : Session) (i : StepInput) : Session :=
  let o := s.out C hostname i
  ⟨o.hs, s.log ++ o.log⟩

/-- A fresh context with the settings callers make before the first step. -/
def Session.start (hasEngine resuming : Bool) (offerTicket : Option SessionTicket)
    (offerObfuscatedAge : ℕ) : Session :=
  ⟨{ tls13HandshakeInit with hasEngine, resuming, offerTicket, offerObfuscatedAge }, []⟩

/-- The script of one step: these bytes are received, and all random values are zero. -/
def receive (recv : Bytes) (_ : Session) : StepInput := ⟨recv, .zero⟩

end MacTLS
