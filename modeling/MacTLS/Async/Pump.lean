import MacTLS.Async.Tls13

/-!
# The calls on a connection

`OSTLS_Pump`, `OSTLS_Write`, `OSTLS_Read` and `OSTLS_Close`, and the machine whose inputs are
these calls, `OSTLS_Start`, `OSTLS_Dispose`, the events Open Transport delivers, and whatever other
connections do to the two caches.

The machine takes single turns of the pump's loop, so that an event may come between any two of
them.  A whole `OSTLS_Pump` is a run of these (`reach_ostlsPump`).
-/

namespace MacTLS

open Lib

variable {E : Type}

/-! ### OSTLS_Pump -/

/-- `pump_handshake_or_open_pre`: false when the connection has failed. -/
def pumpHandshakeOrOpenPre (conn : Conn E) (env : PumpEnv) : Conn E × Bool :=
  if conn.state = .handshaking ∧
      elapsed32 env.ticks conn.handshakeStartTicks > conn.handshakeTimeoutTicks then
    (ostlsFail conn asyncHandshakeTimeout kOTNoError 0, false)
  else if conn.nfDisconnect ∧ ¬conn.discConsumed then
    (ostlsFail { conn with discConsumed := true } asyncOtSndFail conn.nfLastResult 0, false)
  else (conn, true)

/-- A step of the connection in its state, and whether the loop goes on. -/
def pumpStep (C : Crypto) (G : Engine E) (p : Proc E) (env : PumpEnv) : Proc E × Bool :=
  match p.conn.state with
  | .connecting =>
    let o := pumpConnectStep G p env
    (o.proc.onConn (eventBump · o.event), o.progress)
  | .handshaking | .open | .closing =>
    let r := if p.conn.tls13Mode ≠ .off then pumpTls13Step C p env else pumpBearsslStep G p env
    (r.1, r.2 = .progress)
  | .idle | .closed | .failed => (p, false)

/-- One turn of the loop in `OSTLS_Pump`, and whether the loop goes on. -/
def pumpTurn (C : Crypto) (G : Engine E) (p : Proc E) (env : PumpEnv) : Proc E × Bool :=
  if p.conn.state = .failed ∨ p.conn.state = .closed then (p, false)
  else
    let r := pumpHandshakeOrOpenPre p.conn env
    if r.2 then pumpStep C G { p with conn := r.1 } env
    else ({ p with conn := eventBump r.1 .failed }, false)

/-- The loop, of at most as many turns as there are answers. -/
def pumpLoop (C : Crypto) (G : Engine E) (p : Proc E) : List PumpEnv → Proc E
  | [] => p
  | env :: envs =>
    let r := pumpTurn C G p env
    if r.2 then pumpLoop C G r.1 envs else r.1

/-- `OSTLS_Pump` with `max_steps = envs.length`: the result code, the event and what it did. -/
def ostlsPump (C : Crypto) (G : Engine E) (p : Proc E) (envs : List PumpEnv) :
    ℕ × OstlsEvent × Proc E :=
  if p.conn.disposed then (asyncDisposed, .none, p)
  else if p.conn.state = .failed then (asyncOk, .failed, p)
  else if p.conn.state = .closed then
    (asyncOk, if p.conn.readBuf.avail > 0 then .readable else .closed, p)
  else
    let p := pumpLoop C G (p.onConn fun conn => { conn with bestEvent := .none }) envs
    (asyncOk, p.conn.bestEvent, p)

/-! ### OSTLS_Write, OSTLS_Read and OSTLS_Close -/

/-- `OSTLS_Write`: the result code, how many bytes were accepted, and the connection. -/
def ostlsWrite (conn : Conn E) (buf : Bytes) : ℕ × ℕ × Conn E :=
  if conn.disposed then (asyncDisposed, 0, conn)
  else if conn.state ≠ .open then (asyncWrongState, 0, conn)
  else if buf.length = 0 then (asyncOk, 0, conn)
  else
    let n := conn.writeBuf.room buf.length
    if n = 0 then (asyncOk, 0, { conn with writeBuf := conn.writeBuf.compact })
    else (asyncOk, n, { conn with
      writeBuf := conn.writeBuf.append buf
      history := { conn.history with accepted := conn.history.accepted ++ buf.take n } })

/-- `OSTLS_Read`: the result code, the bytes returned, and the connection. -/
def ostlsRead (conn : Conn E) (cap : ℕ) : ℕ × Bytes × Conn E :=
  if conn.disposed then (asyncDisposed, [], conn)
  else if ¬conn.state.isUp ∧ conn.state ≠ .closed then (asyncWrongState, [], conn)
  else if cap = 0 ∨ conn.readBuf.avail = 0 then (asyncOk, [], conn)
  else
    let r := conn.readBuf.pop cap
    (asyncOk, r.1, { conn with
      readBuf := r.2
      history := { conn.history with returned := conn.history.returned ++ r.1 } })

/-- `OSTLS_Close` on an open connection of the TLS 1.3 path: `OTSndOrderlyDisconnect`. -/
def releaseTls13 (conn : Conn E) : Conn E :=
  { conn with
    closeNotifySent := true
    state := .closing
    history := if conn.epOpen ∧ conn.ep.isSome then
        { conn.history with release := some (conn.history.accepted, conn.history.sent) }
      else conn.history }

/-- `OSTLS_Close` on an open connection. -/
def closeUp (G : Engine E) (conn : Conn E) : Conn E :=
  if conn.tls13Mode = .open then releaseTls13 conn
  else if conn.closeNotifySent then { conn with state := .closing }
  else { conn with eng := G.close conn.eng, closeNotifySent := true, state := .closing }

/-- `OSTLS_Close` -/
def ostlsClose (G : Engine E) (conn : Conn E) : Conn E :=
  if conn.disposed then conn
  else if conn.closeRequested then conn
  else
    let conn := { conn with closeRequested := true }
    match conn.state with
    | .closed | .failed | .idle => conn
    | .handshaking | .connecting => { conn with state := .failed, osErr := asyncWrongState }
    | .open | .closing => closeUp G conn

/-! ### The machine -/

/-- What can happen to a connection. -/
inductive Action where
  | start (env : StartEnv)
  /-- `OSTLS_Pump` is called. -/
  | enter
  /-- The pump takes a turn. -/
  | turn (env : PumpEnv)
  | write (buf : Bytes)
  | read (cap : ℕ)
  | close
  | dispose
  | notify (event : OtEvent) (result : ℤ)
  /-- Other connections leave the caches like this. -/
  | others (tickets : TicketCache) (sessions : SessCache) (resumeLog : List ResumeEvent)

/-- The effect of an action. -/
def Proc.step (C : Crypto) (G : Engine E) (p : Proc E) : Action → Proc E
  | .start env => p.onConn fun conn => (ostlsStart conn env).2
  | .enter =>
    if p.conn.disposed then p else p.onConn fun conn => { conn with bestEvent := .none }
  | .turn env => if p.conn.disposed then p else (pumpTurn C G p env).1
  | .write buf => p.onConn fun conn => (ostlsWrite conn buf).2.2
  | .read cap => p.onConn fun conn => (ostlsRead conn cap).2.2
  | .close => p.onConn (ostlsClose G)
  | .dispose => p.onConn ostlsDispose
  | .notify event result => p.onConn (ostlsNotifier · event result)
  | .others tickets sessions resumeLog => { p with tickets, sessions, resumeLog }

/-- A connection that `OSTLS_New` has just made, in whatever state the caches are. -/
def Proc.start (G : Engine E) (config : OstlsConfig) (tickets : TicketCache)
    (sessions : SessCache) (resumeLog : List ResumeEvent) : Proc E :=
  ⟨.init G config, tickets, sessions, resumeLog⟩

/-- What Open Transport may deliver to a connection: one `T_OPENCOMPLETE` for each open, with an
endpoint not seen before, and nothing for an endpoint that is closed. -/
def Deliverable (conn : Conn E) : OtEvent → Prop
  | .openComplete cookie => conn.history.completions < conn.history.opens ∧
      ∀ ep ∈ cookie, ep ∉ conn.history.delivered
  | _ => ∃ ep ∈ conn.history.delivered, ep ∉ conn.history.closedEps

instance (conn : Conn E) (event : OtEvent) : Decidable (Deliverable conn event) := by
  cases event <;> unfold Deliverable <;> infer_instance

/-- The actions that the application and Open Transport can take. -/
def OtLawful (p : Proc E) : Action → Prop
  | .notify event _ => Deliverable p.conn event
  | _ => True

instance (p : Proc E) (action : Action) : Decidable (OtLawful p action) := by
  cases action <;> unfold OtLawful <;> infer_instance

end MacTLS
