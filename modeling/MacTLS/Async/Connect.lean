import MacTLS.Async.Conn

/-!
# Connecting

`pump_connect_step` with `ostls_setup_bearssl`, and `ostls_fallback_to_tls12`, which starts the
connect over for TLS 1.2.
-/

namespace MacTLS

open Lib

variable {E : Type}

/-- Change the connection of a process. -/
def Proc.onConn (p : Proc E) (f : Conn E → Conn E) : Proc E := { p with conn := f p.conn }

/-- Add to the history of the caches. -/
def Proc.remember (p : Proc E) (ev : ResumeEvent) : Proc E :=
  { p with resumeLog := p.resumeLog ++ [ev] }

/-! ### Setting up TLS -/

/-- A fresh handshake context, which offers the cached ticket of the host if there is one. -/
def armTls13 (p : Proc E) (env : PumpEnv) : Proc E :=
  let hs := { tls13HandshakeInit with hasEngine := true }
  let trying (hs : HsCtx) (conn : Conn E) : Conn E := { conn with hs13 := hs, tls13Mode := .trying }
  match ostlsTicketCacheGet p.tickets p.conn.host env.ticks 60 with
  | (tickets, none) => { p with tickets, conn := trying hs p.conn }
  | (tickets, some (t, ageMs)) =>
    let hs := { hs with
      resuming := true
      offerTicket := some t
      offerObfuscatedAge := (ageMs + t.ageAdd) % 4294967296 }
    { p with tickets, conn := trying hs p.conn }.remember (.offeredTicket p.conn.serverName t)

/-- Inject the cached session of the host and port, if there is one. -/
def offerSession (G : Engine E) (p : Proc E) : Proc E × Bool :=
  match sessCacheGet p.sessions (sessCacheMakeKey p.conn.host p.conn.port) with
  | none => (p, false)
  | some cached =>
    ((p.onConn fun conn => { conn with eng := G.setSession conn.eng cached }).remember
      (.offeredSession p.conn.serverName cached), true)

/-- `ostls_setup_bearssl`: false when the connection has failed. -/
def ostlsSetupBearssl (G : Engine E) (p : Proc E) (env : PumpEnv) : Proc E × Bool :=
  if !env.timeOk then (p.onConn (ostlsFail · asyncClockBefore2000 kOTNoError 0), false)
  else
    let p := p.onConn fun conn => { conn with eng := G.init }
    if !env.entropyOk then (p.onConn (ostlsFail · asyncEntropyFail kOTNoError 0), false)
    else
      let p := p.onConn fun conn => { conn with
        bearsslInitialised := true
        handshakeStartTicks := env.ticks
        recvBuf := []
        t13PlainLen := 0
        t13PlainOff := 0
        t13SendLen := 0
        t13SendOff := 0 }
      if env.tryTls13 ∧ ¬p.conn.tls13Disabled ∧ (p.conn.hs13.isSome ∨ env.allocOk) then
        (armTls13 p env, true)
      else
        let (p, resume) := offerSession G (p.onConn fun conn => { conn with tls13Mode := .off })
        let (ok, eng) := G.reset p.conn.eng p.conn.serverName resume
        let p := p.onConn fun conn => { conn with eng }
        if ok then (p, true)
        else (p.onConn (ostlsFail · asyncClientResetFail kOTNoError (G.lastError eng)), false)

/-! ### Connect steps -/

/-- How a connect step went: the event it reports, and whether it counts as a step. -/
structure ConnectOut (E : Type) where
  proc : Proc E
  event : OstlsEvent
  progress : Bool

/-- Nothing to do until the next notifier event. -/
def connectWait (p : Proc E) : ConnectOut E := ⟨p, .none, false⟩

/-- `return ostls_fail(...)` -/
def connectFail (p : Proc E) (osErr : ℕ) (otErr : ℤ) : ConnectOut E :=
  ⟨p.onConn (ostlsFail · osErr otErr 0), .failed, false⟩

/-- `conn->connect_phase = phase; (*steps_used)++;` -/
def connectNext (p : Proc E) (phase : ConnectPhase) : ConnectOut E :=
  ⟨p.onConn fun conn => { conn with connectPhase := phase }, .none, true⟩

/-- The endpoint has arrived: adopt it. -/
def connectOpened (p : Proc E) : ConnectOut E :=
  if !p.conn.nfOpenComplete then connectWait p
  else
    let p := p.onConn fun conn => { conn with nfOpenComplete := false }
    if p.conn.nfLastResult ≠ kOTNoError then connectFail p asyncOtOpenFail p.conn.nfLastResult
    else if p.conn.ep = none then connectFail p asyncOtOpenFail (-1)
    else connectNext (p.onConn fun conn => { conn with epOpen := true }) .needsBind

/-- TCP is up: set up TLS. -/
def connectDone (G : Engine E) (p : Proc E) (env : PumpEnv) : ConnectOut E :=
  if !p.conn.nfConnectComplete then connectWait p
  else
    let p := p.onConn fun conn => { conn with nfConnectComplete := false }
    if p.conn.nfLastResult ≠ kOTNoError then connectFail p asyncOtConnectFail p.conn.nfLastResult
    else if env.rcvConnectErr ≠ kOTNoError then connectFail p asyncOtConnectFail env.rcvConnectErr
    else
      let p := p.onConn fun conn => { conn with connectPhase := .done, state := .handshaking }
      match ostlsSetupBearssl G p env with
      | (p, false) => ⟨p, .failed, false⟩
      | (p, true) => ⟨p, .connected, true⟩

/-- `pump_connect_step` -/
def pumpConnectStep (G : Engine E) (p : Proc E) (env : PumpEnv) : ConnectOut E :=
  if elapsed32 env.ticks p.conn.startTicks > p.conn.connectTimeoutTicks then
    connectFail p asyncConnectTimeout kOTNoError
  else if p.conn.nfDisconnect then
    connectFail (p.onConn fun conn => { conn with nfDisconnect := false }) asyncOtConnectFail
      p.conn.nfLastResult
  else match p.conn.connectPhase with
    | .openInFlight => connectOpened p
    | .needsBind =>
      if env.bindErr ≠ kOTNoError then connectFail p asyncOtBindFail env.bindErr
      else connectNext p .bindInFlight
    | .bindInFlight =>
      if !p.conn.nfBindComplete then connectWait p
      else
        let p := p.onConn fun conn => { conn with nfBindComplete := false }
        if p.conn.nfLastResult ≠ kOTNoError then connectFail p asyncOtBindFail p.conn.nfLastResult
        else connectNext p .needsConnect
    | .needsConnect =>
      if env.dnsLen ≤ 0 then connectFail p asyncOtConnectFail env.dnsLen
      else if env.connectErr ≠ kOTNoError ∧ env.connectErr ≠ kOTNoDataErr then
        connectFail p asyncOtConnectFail env.connectErr
      else connectNext p .connectInFlight
    | .connectInFlight => connectDone G p env
    | .needsOpen | .done => connectWait p

/-- Close the endpoint and forget the attempt at TLS 1.3. -/
def forgetTls13 (conn : Conn E) : Conn E :=
  { closeProvider conn with
    nfOpenComplete := false
    nfBindComplete := false
    nfConnectComplete := false
    nfDataPending := false
    nfOrdRelease := false
    nfDisconnect := false
    ordConsumed := false
    discConsumed := false
    peerClosed := false
    bearsslInitialised := false
    handshakeDone := false
    closeNotifySent := false
    tls13Mode := .off
    tls13Disabled := true
    recvBuf := []
    hs13 := none }

/-- `ostls_fallback_to_tls12`: start over with another endpoint. -/
def ostlsFallbackToTls12 (conn : Conn E) (env : PumpEnv) : Conn E × OstlsEvent :=
  let conn := forgetTls13 conn
  if !env.cfgOk then (ostlsFail conn asyncOtConfigFail kOTNoError 0, .failed)
  else if env.openErr ≠ kOTNoError then (ostlsFail conn asyncOtOpenFail env.openErr 0, .failed)
  else ({ openRequested conn with
    state := .connecting, connectPhase := .openInFlight, startTicks := env.ticks }, .none)

end MacTLS
