import MacTLS.Async.Connect

/-!
# The TLS 1.2 path

`pump_bearssl_step`: bytes are shuttled between Open Transport, BearSSL's engine and the
plaintext queues.  What both paths do with a peer that closes is here too.
-/

namespace MacTLS

open Lib

variable {E : Type}

/-- What a pump function returns: `1`, `0` or `-1`. -/
inductive Did where
  | progress
  | idle
  | failed
  deriving DecidableEq

/-- `T_DISCONNECT` -/
def tDisconnect : ℤ := 16

/-! ### The peer closes -/

/-- Consume an orderly release once. -/
def peerRelease (conn : Conn E) : Conn E := { conn with ordConsumed := true, peerClosed := true }

/-- Consume a disconnect, and fail. -/
def peerDisconnect (conn : Conn E) : Conn E :=
  ostlsFail { conn with discConsumed := true } asyncPeerClosed tDisconnect 0

/-- What an `OTRcv` that brought no bytes leads to. -/
def otRcvNothing (conn : Conn E) : RcvResult → Conn E × Did
  | .data _ => ({ peerRelease conn with nfDataPending := false }, .progress)
  | .noDataErr =>
    if conn.nfOrdRelease ∧ ¬conn.ordConsumed then (peerRelease conn, .progress)
    else ({ conn with nfDataPending := false }, .idle)
  | .lookErr .ordrel => ({ peerRelease conn with nfDataPending := false }, .progress)
  | .lookErr .disconnect => (peerDisconnect conn, .failed)
  | .lookErr (.other _) => (conn, .idle)
  | .err code => (ostlsFail conn asyncOtRcvFail code 0, .failed)

/-! ### Between Open Transport and the engine -/

def canReceive : EpState → Bool
  | .dataxfer | .outrel => true
  | _ => false

def canSend : EpState → Bool
  | .dataxfer | .outcon => true
  | _ => false

/-- The states in which application data flows. -/
def OstlsState.isUp : OstlsState → Bool
  | .open | .closing => true
  | _ => false

def pumpOtRecvIntoBearssl (G : Engine E) (conn : Conn E) (env : RecvEnv) : Conn E × Did :=
  let cap := G.recvrecLen conn.eng
  if cap = 0 then (conn, .idle)
  else if !canReceive env.epState then
    let eng := G.recvrecAck conn.eng []
    ({ conn with
      eng := if conn.state.isUp then G.close eng else eng
      nfDataPending := false }, .progress)
  else match env.result with
    | .data (x :: bytes) =>
      ({ conn with
        eng := G.recvrecAck conn.eng ((x :: bytes).take cap)
        nfDataPending := false }, .progress)
    | r => otRcvNothing conn r

def pumpOtSendFromBearssl (G : Engine E) (conn : Conn E) (env : SendEnv) : Conn E × Did :=
  let buf := G.sendrecBuf conn.eng
  if buf.length = 0 then (conn, .idle)
  else if !canSend env.epState then
    ({ conn with eng := G.sendrecAck conn.eng buf.length }, .progress)
  else match env.result with
    | .sent 0 => (conn, .idle)
    | .sent (n + 1) =>
      ({ conn with eng := G.sendrecAck conn.eng (min (n + 1) buf.length) }, .progress)
    | .flowErr => ({ conn with nfWantWrite := true }, .idle)
    | .lookErr .ordrel =>
      ({ peerRelease conn with eng := G.sendrecAck conn.eng buf.length }, .progress)
    | .lookErr .disconnect => (peerDisconnect conn, .failed)
    | .lookErr (.other _) => (conn, .idle)
    | .err code => (ostlsFail conn asyncOtSndFail code 0, .failed)

/-! ### Between the engine and the caller -/

def pumpBearsslRecvappToRing (G : Engine E) (conn : Conn E) : Conn E × Did :=
  let buf := G.recvappBuf conn.eng
  if buf.length = 0 then (conn, .idle)
  else if conn.readBuf.avail ≥ ostlsReadBufSize then (conn, .idle)
  else
    (eventBump { conn with
      eng := G.recvappAck conn.eng (conn.readBuf.accepts buf.length)
      readBuf := conn.readBuf.push buf } .readable, .progress)

def pumpRingToBearsslSendapp (G : Engine E) (conn : Conn E) : Conn E × Did :=
  if conn.writeBuf.avail = 0 then (conn, .idle)
  else
    let room := G.sendappLen conn.eng
    if room = 0 then (conn, .idle)
    else
      let n := min conn.writeBuf.avail room
      let conn := { conn with
        eng := G.sendappAck conn.eng (conn.writeBuf.toList.take n)
        writeBuf := conn.writeBuf.advance n }
      if conn.writeBuf.avail = 0 then
        (eventBump { conn with eng := G.flush conn.eng } .writable, .progress)
      else (conn, .progress)

/-! ### One step -/

/-- The engine is closed: cleanly, or with an error. -/
def bearsslClosed (G : Engine E) (conn : Conn E) : Conn E :=
  if G.lastError conn.eng = 0 then
    if conn.state.isUp then eventBump { conn with state := .closed } .closed
    else { ostlsFail conn asyncPeerClosed kOTNoError 0 with bestEvent := .failed }
  else
    { ostlsFail conn asyncBearsslError kOTNoError (G.lastError conn.eng) with bestEvent := .failed }

/-- The TLS 1.2 handshake is done: cache its session. -/
def bearsslOpened (G : Engine E) (p : Proc E) : Proc E :=
  let session := G.session p.conn.eng
  let p := p.onConn fun conn => eventBump { conn with
    handshakeDone := true, state := .open, cipherSuite := session.cipherSuite % 65536 } .handshakeDone
  let p := p.remember (.completed12 p.conn.serverName)
  { p with sessions :=
      sessCachePut p.sessions (sessCacheMakeKey p.conn.host p.conn.port) session }.remember
    (.storedSession p.conn.serverName session)

/-- Go on to the next part of a step when this one had nothing to do. -/
def orElse (r : Conn E × Did) (next : Conn E → Conn E × Did) : Conn E × Did :=
  if r.2 = .idle then next r.1 else r

/-- The moves of `pump_bearssl_step` once the handshake state is settled. -/
def bearsslMove (G : Engine E) (flags : EngineFlags) (conn : Conn E) (env : PumpEnv) :
    Conn E × Did :=
  orElse (if flags.sendrec then pumpOtSendFromBearssl G conn env.sendApp else (conn, .idle))
    fun conn =>
  orElse (if flags.recvrec ∧ ¬conn.peerClosed then pumpOtRecvIntoBearssl G conn env.recv
    else (conn, .idle)) fun conn =>
  orElse (if conn.state.isUp ∧ flags.recvapp then pumpBearsslRecvappToRing G conn
    else (conn, .idle)) fun conn =>
  orElse (if conn.state.isUp ∧ conn.writeBuf.avail > 0 ∧ flags.sendapp then
    pumpRingToBearsslSendapp G conn else (conn, .idle)) fun conn =>
  if conn.peerClosed ∧ conn.state ≠ .closed ∧ conn.state ≠ .failed then
    -- application data is still to be drained
    if flags.recvapp then (conn, .idle)
    else (eventBump { conn with state := .closed } .closed, .progress)
  else (conn, .idle)

/-- `pump_bearssl_step` -/
def pumpBearsslStep (G : Engine E) (p : Proc E) (env : PumpEnv) : Proc E × Did :=
  let flags := G.currentState p.conn.eng
  if flags.closed then (p.onConn (bearsslClosed G), .progress)
  else if ¬p.conn.handshakeDone ∧ p.conn.state = .handshaking ∧ (flags.sendapp ∨ flags.recvapp) then
    (bearsslOpened G p, .progress)
  else
    let r := bearsslMove G flags p.conn env
    ({ p with conn := r.1 }, r.2)

end MacTLS
