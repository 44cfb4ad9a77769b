import Mathlib.Data.Int.Notation
import MacTLS.Async.Cache
import MacTLS.Handshake.Step
import MacTLS.Lib.Fifo

/-!
# A connection of the asynchronous interface

The data of `ostls_async.c`: the connection, what Open Transport and BearSSL answer to it, and
what it shares with other connections; with the notifier, `OSTLS_New`, `OSTLS_Start` and
`OSTLS_Dispose`.

A connection also carries its `History`: what was asked of Open Transport, sent, received,
accepted and returned so far.  No function of the source reads it; the properties are about it.
-/

namespace MacTLS

open Lib

/-! ### Constants -/

def kOTNoError : ℤ := 0
def kOTNoDataErr : ℤ := -3162

def ostlsReadBufSize : ℕ := 16384
def ostlsWriteBufSize : ℕ := 4096
def ostlsDefaultTimeout : ℕ := 1800

/-- Size of `ssl_iobuf`, the raw receive buffer of the TLS 1.3 path. -/
def sslIobufSize : ℕ := 33178

/-- Result codes (`kOSTLSAsync_*`). -/
def asyncOk : ℕ := 0
def asyncBadArgs : ℕ := 2000
def asyncNoMemory : ℕ := 2001
def asyncClockBefore2000 : ℕ := 2002
def asyncOtConfigFail : ℕ := 2003
def asyncOtOpenFail : ℕ := 2004
def asyncOtBindFail : ℕ := 2005
def asyncOtConnectFail : ℕ := 2006
def asyncOtSndFail : ℕ := 2008
def asyncOtRcvFail : ℕ := 2009
def asyncEntropyFail : ℕ := 2010
def asyncClientResetFail : ℕ := 2011
def asyncBearsslError : ℕ := 2012
def asyncConnectTimeout : ℕ := 2013
def asyncHandshakeTimeout : ℕ := 2014
def asyncPeerClosed : ℕ := 2015
def asyncWrongState : ℕ := 2016
def asyncDisposed : ℕ := 2017

/-- States of a connection (`OSTLSState`). -/
inductive OstlsState where
  | idle
  | connecting
  | handshaking
  | open
  | closing
  | closed
  | failed
  deriving DecidableEq, Repr

/-- Events that `OSTLS_Pump` reports (`OSTLSEvent`). -/
inductive OstlsEvent where
  | none
  | connected
  | handshakeDone
  | readable
  | writable
  | closed
  | failed
  deriving DecidableEq, Repr

inductive ConnectPhase where
  | needsOpen
  | openInFlight
  | needsBind
  | bindInFlight
  | needsConnect
  | connectInFlight
  | done
  deriving DecidableEq, Repr

/-- Which protocol carries the connection (`kT13Mode_*`). -/
inductive T13Mode where
  | off
  | trying
  | open
  deriving DecidableEq, Repr

/-! ### What Open Transport answers -/

/-- An endpoint reference. -/
abbrev Endpoint := ℕ

/-- The endpoint states the source distinguishes (`OTGetEndpointState`). -/
inductive EpState where
  | dataxfer
  | outcon
  | outrel
  | other
  deriving DecidableEq

/-- What `OTLook` finds. -/
inductive Look where
  | ordrel
  | disconnect
  | other (code : ℤ)
  deriving DecidableEq

/-- Results of `OTSnd`.  The number sent is cut to the number of bytes it was given. -/
inductive SndResult where
  | sent (n : ℕ)
  | flowErr
  | lookErr (look : Look)
  | err (code : ℤ)
  deriving DecidableEq

/-- Results of `OTRcv`.  The bytes received are cut to the capacity it was given; no bytes at all
is a result of zero. -/
inductive RcvResult where
  | data (bytes : Bytes)
  | noDataErr
  | lookErr (look : Look)
  | err (code : ℤ)
  deriving DecidableEq

/-- An attempt to send, and one to receive. -/
structure SendEnv where
  epState : EpState
  result : SndResult

structure RecvEnv where
  epState : EpState
  result : RcvResult

/-- What the calls made in one turn of the pump answer. -/
structure PumpEnv where
  /-- `TickCount()` -/
  ticks : ℕ
  timeOk : Bool
  entropyOk : Bool
  /-- `NewPtrClear` for the handshake context. -/
  allocOk : Bool
  /-- `g_ostls_try_tls13` -/
  tryTls13 : Bool
  cfgOk : Bool
  openErr : ℤ
  bindErr : ℤ
  dnsLen : ℤ
  connectErr : ℤ
  rcvConnectErr : ℤ
  /-- Of the handshake bytes, and of the application data record. -/
  sendHs : SendEnv
  sendApp : SendEnv
  recv : RecvEnv
  rnd : ClientRandom

/-- What `OSTLS_Start` meets. -/
structure StartEnv where
  ticks : ℕ
  timeOk : Bool
  cfgOk : Bool
  openErr : ℤ

/-! ### BearSSL's TLS 1.2 engine -/

/-- The flags of `br_ssl_engine_current_state`. -/
structure EngineFlags where
  closed : Bool
  sendrec : Bool
  recvrec : Bool
  sendapp : Bool
  recvapp : Bool
  deriving DecidableEq

/-- The engine as the connection uses it.  The handshake of TLS 1.2 and its record layer are
BearSSL's; nothing is assumed about them. -/
structure Engine (E : Type) where
  /-- `br_ssl_client_init_full` with the settings made right after it. -/
  init : E
  currentState : E → EngineFlags
  lastError : E → ℕ
  recvrecLen : E → ℕ
  recvrecAck : E → Bytes → E
  sendrecBuf : E → Bytes
  sendrecAck : E → ℕ → E
  recvappBuf : E → Bytes
  recvappAck : E → ℕ → E
  sendappLen : E → ℕ
  sendappAck : E → Bytes → E
  flush : E → E
  close : E → E
  session : E → SessionParameters
  setSession : E → SessionParameters → E
  /-- `br_ssl_client_reset`, with whether it succeeded. -/
  reset : E → Bytes → Bool → Bool × E

/-! ### Connections -/

/-- What happened on a connection so far. -/
structure History where
  /-- Calls of `OTAsyncOpenEndpointInContext` that succeeded. -/
  opens : ℕ
  /-- `T_OPENCOMPLETE` events that were delivered. -/
  completions : ℕ
  /-- The endpoints that came with them. -/
  delivered : List Endpoint
  /-- The endpoints given to `OTCloseProvider`. -/
  closedEps : List Endpoint
  /-- What `OTSnd` took from the TLS 1.3 path, call by call, with the endpoint. -/
  sent : List (Option Endpoint × Bytes)
  /-- The events of the TLS 1.3 handshake. -/
  hsLog : List HsEvent
  /-- The handshake records it queued in `msg_buf`. -/
  hsRecords : List Bytes
  /-- The write context when the handshake was complete. -/
  appCtx : Option RecordCtx
  /-- The plaintexts of the application data records built. -/
  chunks : List Bytes
  /-- What `OSTLS_Write` accepted. -/
  accepted : Bytes
  /-- The plaintexts of the application data records decrypted. -/
  decrypted : List Bytes
  /-- What `OSTLS_Read` returned. -/
  returned : Bytes
  /-- What `accepted` and `sent` were when `OSTLS_Close` released the connection. -/
  release : Option (Bytes × List (Option Endpoint × Bytes))
  deriving DecidableEq

def History.empty : History where
  opens := 0
  completions := 0
  delivered := []
  closedEps := []
  sent := []
  hsLog := []
  hsRecords := []
  appCtx := none
  chunks := []
  accepted := []
  decrypted := []
  returned := []
  release := none

/-- A connection (`struct OSTLSConnection`). -/
structure Conn (E : Type) where
  state : OstlsState
  osErr : ℕ
  /-- `none` is the sentinel of an error not set yet. -/
  otErr : Option ℤ
  brErr : ℤ
  cipherSuite : ℕ
  resumed : Bool
  host : Bytes
  serverName : Bytes
  port : ℕ
  connectTimeoutTicks : ℕ
  handshakeTimeoutTicks : ℕ
  startTicks : ℕ
  handshakeStartTicks : ℕ
  connectPhase : ConnectPhase
  started : Bool
  disposed : Bool
  closeRequested : Bool
  peerClosed : Bool
  ep : Option Endpoint
  epOpen : Bool
  ordConsumed : Bool
  discConsumed : Bool
  nfOpenComplete : Bool
  nfBindComplete : Bool
  nfConnectComplete : Bool
  nfDataPending : Bool
  nfOrdRelease : Bool
  nfDisconnect : Bool
  nfWantWrite : Bool
  nfLastResult : ℤ
  eng : E
  bearsslInitialised : Bool
  handshakeDone : Bool
  closeNotifySent : Bool
  hs13 : Option HsCtx
  tls13Mode : T13Mode
  tls13Disabled : Bool
  /-- The first `tls13_recv_len` bytes of `ssl_iobuf`. -/
  recvBuf : Bytes
  t13PlainLen : ℕ
  t13PlainOff : ℕ
  t13SendRec : Bytes
  t13SendLen : ℕ
  t13SendOff : ℕ
  readBuf : Ring UInt8 ostlsReadBufSize
  writeBuf : Queue UInt8 ostlsWriteBufSize
  /-- The event the running `OSTLS_Pump` will report. -/
  bestEvent : OstlsEvent
  history : History

/-- What is remembered of a connection that offers or leaves something behind. -/
inductive ResumeEvent where
  /-- A cached ticket was offered. -/
  | offeredTicket (serverName : Bytes) (t : SessionTicket)
  /-- A ticket was cached. -/
  | storedTicket (serverName : Bytes) (t : SessionTicket)
  /-- A cached session was injected. -/
  | offeredSession (serverName : Bytes) (p : SessionParameters)
  /-- A session was cached. -/
  | storedSession (serverName : Bytes) (p : SessionParameters)
  /-- A TLS 1.3 handshake was completed, with this context and these events. -/
  | completed13 (serverName : Bytes) (hs : HsCtx) (log : List HsEvent)
  /-- A TLS 1.2 handshake was completed. -/
  | completed12 (serverName : Bytes)
  deriving DecidableEq

/-- A connection with the global variables its functions use, and the history of these. -/
structure Proc (E : Type) where
  conn : Conn E
  tickets : TicketCache
  sessions : SessCache
  resumeLog : List ResumeEvent

/-! ### Failure and events -/

/-- Enter the failed state, keeping the first codes. -/
def ostlsFail {E : Type} (conn : Conn E) (osErr : ℕ) (otErr brErr : ℤ) : Conn E :=
  { conn with
    osErr := if conn.osErr = asyncOk then osErr else conn.osErr
    otErr := if conn.otErr = none then some otErr else conn.otErr
    brErr := if brErr ≠ 0 ∧ conn.brErr = 0 then brErr else conn.brErr
    state := if conn.state = .failed ∨ conn.state = .closed then conn.state else .failed }

def eventPriority : OstlsEvent → ℕ
  | .failed => 7
  | .closed => 6
  | .handshakeDone => 5
  | .connected => 4
  | .readable => 3
  | .writable => 2
  | .none => 0

/-- Report an event if it has a higher priority than the one to be reported. -/
def eventBump {E : Type} (conn : Conn E) (candidate : OstlsEvent) : Conn E :=
  if eventPriority candidate > eventPriority conn.bestEvent then { conn with bestEvent := candidate }
  else conn

/-! ### The notifier -/

/-- The events of `ostls_notifier`; the codes it ignores are `other`. -/
inductive OtEvent where
  | openComplete (cookie : Option Endpoint)
  | bindComplete
  | connect
  | data
  | goData
  | ordrel
  | disconnect
  | other
  deriving DecidableEq

/-- The notifier: at interrupt time it only sets flags, and stores a new endpoint. -/
def ostlsNotifier {E : Type} (conn : Conn E) (event : OtEvent) (result : ℤ) : Conn E :=
  let conn := { conn with nfLastResult := result }
  match event with
  | .openComplete cookie => { conn with
      ep := cookie
      nfOpenComplete := true
      history := { conn.history with
        completions := conn.history.completions + 1
        delivered := conn.history.delivered ++ cookie.toList } }
  | .bindComplete => { conn with nfBindComplete := true }
  | .connect => { conn with nfConnectComplete := true }
  | .data => { conn with nfDataPending := true }
  | .goData => { conn with nfWantWrite := false, nfDataPending := true }
  | .ordrel => { conn with nfOrdRelease := true }
  | .disconnect => { conn with nfDisconnect := true }
  | .other => conn

/-! ### New, Start and Dispose -/

/-- The configuration of a connection (`OSTLSConfig`). -/
structure OstlsConfig where
  host : Bytes
  port : ℕ
  serverName : Bytes
  connectTimeoutTicks : ℕ
  handshakeTimeoutTicks : ℕ

/-- A cleared connection with the caller's settings. -/
def Conn.init {E : Type} (G : Engine E) (config : OstlsConfig) : Conn E where
  state := .idle
  osErr := asyncOk
  otErr := none
  brErr := 0
  cipherSuite := 0
  resumed := false
  host := config.host
  serverName := config.serverName
  port := config.port
  connectTimeoutTicks :=
    if config.connectTimeoutTicks > 0 then config.connectTimeoutTicks else ostlsDefaultTimeout
  handshakeTimeoutTicks :=
    if config.handshakeTimeoutTicks > 0 then config.handshakeTimeoutTicks else ostlsDefaultTimeout
  startTicks := 0
  handshakeStartTicks := 0
  connectPhase := .needsOpen
  started := false
  disposed := false
  closeRequested := false
  peerClosed := false
  ep := none
  epOpen := false
  ordConsumed := false
  discConsumed := false
  nfOpenComplete := false
  nfBindComplete := false
  nfConnectComplete := false
  nfDataPending := false
  nfOrdRelease := false
  nfDisconnect := false
  nfWantWrite := false
  nfLastResult := 0
  eng := G.init
  bearsslInitialised := false
  handshakeDone := false
  closeNotifySent := false
  hs13 := none
  tls13Mode := .off
  tls13Disabled := false
  recvBuf := []
  t13PlainLen := 0
  t13PlainOff := 0
  t13SendRec := []
  t13SendLen := 0
  t13SendOff := 0
  readBuf := .empty 0 (by decide)
  writeBuf := .empty 0
  bestEvent := .none
  history := .empty

/-- `OSTLS_New`: the result code, and the connection if there is one. -/
def ostlsNew {E : Type} (G : Engine E) (config : OstlsConfig) (allocOk : Bool) :
    ℕ × Option (Conn E) :=
  if config.port = 0 then (asyncBadArgs, none)
  else if config.host.length = 0 ∨ config.host.length ≥ 256 ∨ config.serverName.length = 0 ∨
      config.serverName.length ≥ 256 then (asyncBadArgs, none)
  else if !allocOk then (asyncNoMemory, none)
  else (asyncOk, some (.init G config))

section

variable {E : Type} (conn : Conn E)

/-- An open of a new endpoint is under way. -/
def openRequested : Conn E :=
  { conn with history := { conn.history with opens := conn.history.opens + 1 } }

/-- `OTSndOrderlyDisconnect(conn->ep); OTCloseProvider(conn->ep);` when there is an adopted
endpoint. -/
def closeProvider : Conn E :=
  if conn.epOpen then
    match conn.ep with
    | none => conn
    | some ep => { conn with
        ep := none
        epOpen := false
        history := { conn.history with closedEps := conn.history.closedEps ++ [ep] } }
  else conn

/-- `OSTLS_Dispose`.  The memory of the connection is freed: from here on it only stands for the
context that the notifier still has. -/
def ostlsDispose : Conn E :=
  if conn.disposed then conn
  else { closeProvider conn with hs13 := none, disposed := true }

/-- `OSTLS_Start`: the result code and the connection. -/
def ostlsStart (env : StartEnv) : ℕ × Conn E :=
  if conn.disposed then (asyncBadArgs, conn)
  else if conn.started then (asyncWrongState, conn)
  else if conn.state ≠ .idle then (asyncWrongState, conn)
  else if !env.timeOk then
    (asyncClockBefore2000, { conn with state := .failed, osErr := asyncClockBefore2000 })
  else if !env.cfgOk then
    (asyncOtConfigFail, { conn with state := .failed, osErr := asyncOtConfigFail })
  else if env.openErr ≠ kOTNoError then
    (asyncOtOpenFail,
      { conn with state := .failed, osErr := asyncOtOpenFail, otErr := some env.openErr })
  else
    (asyncOk, { openRequested conn with
      state := .connecting, connectPhase := .openInFlight, startTicks := env.ticks, started := true })

end

end MacTLS
