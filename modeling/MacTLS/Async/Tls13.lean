import MacTLS.Async.Tls12

/-!
# The TLS 1.3 path

`pump_tls13_step`: outgoing handshake bytes and records are flushed first, then the handshake
state machine or the record layer gets its turn.
-/

namespace MacTLS

open Lib

variable {E : Type}

/-! ### Raw bytes -/

/-- `ostls_send_raw`: how many bytes went, or `none` when the connection has failed. -/
def ostlsSendRaw (conn : Conn E) (buf : Bytes) (env : SendEnv) : Conn E × Option ℕ :=
  if buf.length = 0 then (conn, some 0)
  else if !canSend env.epState then (conn, some 0)
  else match env.result with
    | .sent n =>
      ({ conn with history := { conn.history with
          sent := conn.history.sent ++ [(conn.ep, buf.take n)] } }, some (min n buf.length))
    | .flowErr => ({ conn with nfWantWrite := true }, some 0)
    | .lookErr .ordrel => (peerRelease conn, some 0)
    | .lookErr .disconnect => (peerDisconnect conn, none)
    | .lookErr (.other _) => (conn, some 0)
    | .err code => (ostlsFail conn asyncOtSndFail code 0, none)

/-- `pump_ot_recv_tls13` -/
def pumpOtRecvTls13 (conn : Conn E) (env : RecvEnv) : Conn E × Did :=
  if conn.recvBuf.length ≥ sslIobufSize then (conn, .idle)
  else if !canReceive env.epState then ({ conn with nfDataPending := false }, .idle)
  else match env.result with
    | .data (x :: bytes) =>
      ({ conn with
        recvBuf := conn.recvBuf ++ (x :: bytes).take (sslIobufSize - conn.recvBuf.length)
        nfDataPending := false }, .progress)
    | r => otRcvNothing conn r

/-! ### Incoming records -/

/-- `pump_tls13_deliver_plain`: move staged plaintext into the read ring. -/
def pumpTls13DeliverPlain (conn : Conn E) (hs : HsCtx) : Conn E × Did :=
  let pending := conn.t13PlainLen - conn.t13PlainOff
  if pending = 0 then (conn, .idle)
  else if conn.readBuf.avail ≥ ostlsReadBufSize then (conn, .idle)
  else
    (eventBump { conn with
      readBuf := conn.readBuf.push (slice hs.plainBuf conn.t13PlainOff pending)
      t13PlainOff := conn.t13PlainOff + conn.readBuf.accepts pending } .readable, .progress)

/-- A record that ends the connection. -/
def recordFail (conn : Conn E) (brErr : ℤ) : Conn E :=
  { ostlsFail conn asyncBearsslError kOTNoError brErr with bestEvent := .failed }

/-- An application data record: stage its plaintext and deliver what fits. -/
def recordData (conn : Conn E) (hs : HsCtx) (plen : ℕ) : Conn E :=
  (pumpTls13DeliverPlain { conn with
    t13PlainLen := plen
    t13PlainOff := 0
    history := { conn.history with
      decrypted := conn.history.decrypted ++ [hs.plainBuf.take plen] } } hs).1

/-- An alert: close_notify closes the connection, anything else fails it. -/
def recordAlert (conn : Conn E) (hs : HsCtx) (plen : ℕ) : Conn E :=
  if plen ≥ 2 ∧ byteAt hs.plainBuf 1 = 0 then
    let conn := { conn with peerClosed := true }
    if conn.state.isUp then eventBump { conn with state := .closed } .closed else conn
  else recordFail conn (if plen ≥ 2 then (byteAt hs.plainBuf 1).toNat else -1)

/-- A handshake record after the handshake: a ticket goes to the cache, the rest is ignored. -/
def recordPostHandshake (C : Crypto) (p : Proc E) (hs : HsCtx) (plen now : ℕ) : Proc E :=
  let hs := (tls13HandlePostHandshake C hs (hs.plainBuf.take plen)).2
  if hs.ticketValid then
    { p.onConn fun conn => { conn with hs13 := some { hs with ticketValid := false } } with
      tickets := ostlsTicketCachePut p.tickets p.conn.host hs.ticket now }.remember
      (.storedTicket p.conn.serverName hs.ticket)
  else p.onConn fun conn => { conn with hs13 := some hs }

/-- `pump_tls13_consume_record`: whether a record was taken off the received bytes. -/
def pumpTls13ConsumeRecord (C : Crypto) (p : Proc E) (hs : HsCtx) (now : ℕ) : Proc E × Bool :=
  let buf := p.conn.recvBuf
  if buf.length < 5 then (p, false)
  else
    let reclen := getU16 buf 3
    if reclen > hsBufSize then (p.onConn (recordFail · brErrBadParam), true)
    else if buf.length < 5 + reclen then (p, false)
    else
      let d := tls13RecordDecrypt C hs.readCtx (slice buf 5 reclen)
      let hs := { hs with readCtx := d.ctx, plainBuf := blit hs.plainBuf 0 d.buf }
      let p := p.onConn fun conn => { conn with
        hs13 := some hs, recvBuf := buf.drop (5 + reclen) }
      match d.ret with
      | none => (p.onConn (recordFail · brErrBadMac), true)
      | some (plen, inner) =>
        if inner = tls13CtApplicationData then (p.onConn (recordData · hs plen), true)
        else if inner = tls13CtAlert then (p.onConn (recordAlert · hs plen), true)
        else if inner = tls13CtHandshake then (recordPostHandshake C p hs plen now, true)
        else (p, true)

/-- What a record does that was taken off and opened as `d`, with `rest` behind it. -/
def recordOpened (C : Crypto) (p : Proc E) (hs : HsCtx) (d : DecryptOut) (rest : Bytes)
    (now : ℕ) : Proc E × Bool :=
  let hs := { hs with readCtx := d.ctx, plainBuf := blit hs.plainBuf 0 d.buf }
  let p := p.onConn fun conn => { conn with hs13 := some hs, recvBuf := rest }
  match d.ret with
  | none => (p.onConn (recordFail · brErrBadMac), true)
  | some (plen, inner) =>
    if inner = tls13CtApplicationData then (p.onConn (recordData · hs plen), true)
    else if inner = tls13CtAlert then (p.onConn (recordAlert · hs plen), true)
    else if inner = tls13CtHandshake then (recordPostHandshake C p hs plen now, true)
    else (p, true)

/-- The framing of a record, apart from what it says. -/
theorem pumpTls13ConsumeRecord_eq (C : Crypto) (p : Proc E) (hs : HsCtx) (now : ℕ) :
    pumpTls13ConsumeRecord C p hs now =
      if p.conn.recvBuf.length < 5 then (p, false)
      else if getU16 p.conn.recvBuf 3 > hsBufSize then
        (p.onConn (recordFail · brErrBadParam), true)
      else if p.conn.recvBuf.length < 5 + getU16 p.conn.recvBuf 3 then (p, false)
      else recordOpened C p hs
        (tls13RecordDecrypt C hs.readCtx (slice p.conn.recvBuf 5 (getU16 p.conn.recvBuf 3)))
        (p.conn.recvBuf.drop (5 + getU16 p.conn.recvBuf 3)) now := rfl

/-! ### Outgoing records -/

/-- `pump_tls13_build_send`: encrypt the write queue into one record.  Encryption never fails. -/
def pumpTls13BuildSend (C : Crypto) (conn : Conn E) (hs : HsCtx) : Conn E × Bool :=
  if conn.t13SendOff < conn.t13SendLen then (conn, false)
  else if conn.writeBuf.avail = 0 then (conn, false)
  else
    let chunk := min conn.writeBuf.avail ostlsWriteBufSize
    let plaintext := conn.writeBuf.toList.take chunk
    let r := tls13RecordEncrypt C hs.writeCtx plaintext tls13CtApplicationData
    let record := applicationRecord r.2
    ({ conn with
      hs13 := some { hs with writeCtx := r.1 }
      t13SendRec := blit conn.t13SendRec 0 record
      t13SendLen := record.length
      t13SendOff := 0
      writeBuf := conn.writeBuf.advance chunk
      history := { conn.history with chunks := conn.history.chunks ++ [plaintext] } }, true)

/-- Flush outbound handshake bytes; the step ends here unless they are all sent. -/
def flushHandshake (conn : Conn E) (hs : HsCtx) (env : SendEnv) : Conn E × Option Did :=
  if hs.msgOffset < hs.msgLen then
    match ostlsSendRaw conn (slice hs.msgBuf hs.msgOffset (hs.msgLen - hs.msgOffset)) env with
    | (conn, none) => (conn, some .failed)
    | (conn, some sent) =>
      let hs := { hs with msgOffset := hs.msgOffset + sent }
      let conn := { conn with hs13 := some hs }
      if hs.msgOffset < hs.msgLen then (conn, some (if sent > 0 then .progress else .idle))
      else (conn, none)
  else (conn, none)

/-- Flush an application data record in flight; the step ends here if some of it went. -/
def flushRecord (conn : Conn E) (env : SendEnv) : Conn E × Option Did :=
  if conn.t13SendOff < conn.t13SendLen then
    match ostlsSendRaw conn
      (slice conn.t13SendRec conn.t13SendOff (conn.t13SendLen - conn.t13SendOff)) env with
    | (conn, none) => (conn, some .failed)
    | (conn, some sent) =>
      let conn := { conn with t13SendOff := conn.t13SendOff + sent }
      let conn := if conn.t13SendOff ≥ conn.t13SendLen then
          eventBump { conn with t13SendLen := 0, t13SendOff := 0 } .writable
        else conn
      (conn, if sent > 0 then some .progress else none)
  else (conn, none)

/-! ### One step -/

/-- The handshake is complete and its last message sent. -/
def tls13Opened (p : Proc E) (hs : HsCtx) : Proc E :=
  (p.onConn fun conn => eventBump { conn with
    handshakeDone := true
    state := .open
    tls13Mode := .open
    cipherSuite := hs.cipherSuite
    resumed := hs.resumptionAccepted
    history := { conn.history with appCtx := some hs.writeCtx } } .handshakeDone).remember
    (.completed13 p.conn.serverName hs p.conn.history.hsLog)

/-- The record that a step of the state machine left in `msg_buf`. -/
def queuedRecord (o : HsOut) : List Bytes :=
  if o.res = .wantWrite then [o.hs.msgBuf.take o.hs.msgLen] else []

/-- The handshake phase: one step of the state machine. -/
def pumpTls13Handshake (C : Crypto) (p : Proc E) (hs : HsCtx) (env : PumpEnv) : Proc E × Did :=
  let o := tls13HandshakeStep C p.conn.serverName env.rnd hs p.conn.recvBuf
  let p := p.onConn fun conn => { conn with
    hs13 := some o.hs
    recvBuf := o.recv
    history := { conn.history with
      hsLog := conn.history.hsLog ++ o.log
      hsRecords := conn.history.hsRecords ++ queuedRecord o } }
  if o.hs.state = .complete ∧ o.hs.msgOffset ≥ o.hs.msgLen then (tls13Opened p o.hs, .progress)
  else match o.res with
    | .wantRead =>
      let r := pumpOtRecvTls13 p.conn env.recv
      ({ p with conn := r.1 }, r.2)
    | .wantWrite | .ok => (p, .progress)
    | .fallback12 =>
      let r := ostlsFallbackToTls12 p.conn env
      ({ p with conn := if r.2 = .failed then { r.1 with bestEvent := .failed } else r.1 },
        .progress)
    | .error => (p.onConn (recordFail · o.hs.error), .progress)

/-- The last part of the open phase: receive, or close behind the peer. -/
def receiveOrClose (conn : Conn E) (env : RecvEnv) : Conn E × Did :=
  orElse (if conn.peerClosed then (conn, .idle) else pumpOtRecvTls13 conn env) fun conn =>
  if conn.peerClosed ∧ conn.t13PlainOff ≥ conn.t13PlainLen ∧ conn.recvBuf.length < 5 ∧
      conn.state ≠ .closed ∧ conn.state ≠ .failed then
    (eventBump { conn with state := .closed } .closed, .progress)
  else (conn, .idle)

/-- The open phase.  Staged plaintext is delivered before the next record is decrypted, since
`plain_buf` is where it is decrypted to. -/
def pumpTls13Open (C : Crypto) (p : Proc E) (hs : HsCtx) (env : PumpEnv) : Proc E × Did :=
  if p.conn.t13PlainOff < p.conn.t13PlainLen then
    let r := pumpTls13DeliverPlain p.conn hs
    ({ p with conn := r.1 }, r.2)
  else if p.conn.writeBuf.avail > 0 ∧ p.conn.t13SendOff ≥ p.conn.t13SendLen ∧
      (pumpTls13BuildSend C p.conn hs).2 then
    ({ p with conn := (pumpTls13BuildSend C p.conn hs).1 }, .progress)
  else
    let r := pumpTls13ConsumeRecord C p hs env.ticks
    if r.2 then (r.1, .progress)
    else
      let r := receiveOrClose p.conn env.recv
      ({ p with conn := r.1 }, r.2)

/-- The handshake phase or the open phase, once everything is flushed. -/
def pumpTls13Drive (C : Crypto) (p : Proc E) (env : PumpEnv) : Proc E × Did :=
  match p.conn.hs13 with
  | none => (p, .idle)
  | some hs =>
    if p.conn.state = .handshaking ∧ p.conn.tls13Mode = .trying then pumpTls13Handshake C p hs env
    else if p.conn.state.isUp then pumpTls13Open C p hs env
    else (p, .idle)

/-- `pump_tls13_step` -/
def pumpTls13Step (C : Crypto) (p : Proc E) (env : PumpEnv) : Proc E × Did :=
  match p.conn.hs13 with
  | none => (p, .idle)
  | some hs =>
    match flushHandshake p.conn hs env.sendHs with
    | (conn, some did) => ({ p with conn }, did)
    | (conn, none) =>
      match flushRecord conn env.sendApp with
      | (conn, some did) => ({ p with conn }, did)
      | (conn, none) => pumpTls13Drive C { p with conn } env

end MacTLS
