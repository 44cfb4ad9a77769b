import MacTLS.Async.Filling

/-!
# The calls of `OTSnd` and `OTRcv`

Which of the two `OSTLS_Pump` calls, turn by turn, and what they answer.  Each definition follows
the branches of the pump function it is named after.

* `turnCalls` : the calls of a turn;
* `pumpTurns` : the turns that a call of `OSTLS_Pump` takes, each with the process before it;
* `turns_invariant` : what holds of the process at the start and is kept by every turn holds before
  every turn.
-/

namespace MacTLS

open Lib

variable {E : Type} (C : Crypto) (G : Engine E)

/-- A call with its answer. -/
inductive OtCall where
  | snd (result : SndResult)
  | rcv (result : RcvResult)
  deriving DecidableEq

/-! ### The calls of a turn -/

/-- `OTSnd` is called with bytes to send, in an endpoint state that allows it. -/
def sndCalls (buf : Bytes) (env : SendEnv) : List OtCall :=
  if buf.length = 0 then [] else if !canSend env.epState then [] else [.snd env.result]

/-- `OTRcv` is called with room for the bytes, in an endpoint state that allows it. -/
def rcvCalls (room : ℕ) (env : RecvEnv) : List OtCall :=
  if room = 0 then [] else if !canReceive env.epState then [] else [.rcv env.result]

def otRecvTls13Calls (conn : Conn E) (env : RecvEnv) : List OtCall :=
  rcvCalls (sslIobufSize - conn.recvBuf.length) env

def flushHandshakeCalls (hs : HsCtx) (env : SendEnv) : List OtCall :=
  if hs.msgOffset < hs.msgLen then sndCalls hs.unsent env else []

def flushRecordCalls (conn : Conn E) (env : SendEnv) : List OtCall :=
  if conn.t13SendOff < conn.t13SendLen then sndCalls conn.link.unsent env else []

/-- The step of the handshake waits for bytes. -/
def AwaitsBytes (o : HsOut) : Prop :=
  ¬(o.hs.state = .complete ∧ o.hs.msgOffset ≥ o.hs.msgLen) ∧ o.res = .wantRead

instance (o : HsOut) : Decidable (AwaitsBytes o) := inferInstanceAs (Decidable (_ ∧ _))

def tls13HandshakeCalls (p : Proc E) (hs : HsCtx) (env : PumpEnv) : List OtCall :=
  let o := tls13HandshakeStep C p.conn.serverName env.rnd hs p.conn.recvBuf
  if AwaitsBytes o then rcvCalls (sslIobufSize - o.recv.length) env.recv else []

/-- The open phase has nothing to deliver, to build or to decrypt. -/
def OpenIdle (p : Proc E) (hs : HsCtx) (now : ℕ) : Prop :=
  ¬p.conn.t13PlainOff < p.conn.t13PlainLen ∧
    ¬(p.conn.writeBuf.avail > 0 ∧ p.conn.t13SendOff ≥ p.conn.t13SendLen ∧
      (pumpTls13BuildSend C p.conn hs).2 = true) ∧
    (pumpTls13ConsumeRecord C p hs now).2 = false

instance (p : Proc E) (hs : HsCtx) (now : ℕ) : Decidable (OpenIdle C p hs now) :=
  inferInstanceAs (Decidable (_ ∧ _ ∧ _))

def tls13OpenCalls (p : Proc E) (hs : HsCtx) (env : PumpEnv) : List OtCall :=
  if OpenIdle C p hs env.ticks ∧ ¬p.conn.peerClosed then otRecvTls13Calls p.conn env.recv else []

def tls13DriveCalls (p : Proc E) (env : PumpEnv) : List OtCall :=
  match p.conn.hs13 with
  | none => []
  | some hs =>
    if p.conn.state = .handshaking ∧ p.conn.tls13Mode = .trying then tls13HandshakeCalls C p hs env
    else if p.conn.state.isUp then tls13OpenCalls C p hs env
    else []

/-- The calls of a step from the record in flight on. -/
def tls13RecordCalls (p : Proc E) (env : PumpEnv) : List OtCall :=
  let record := flushRecord p.conn env.sendApp
  flushRecordCalls p.conn env.sendApp ++
    if record.2.isSome then [] else tls13DriveCalls C { p with conn := record.1 } env

def tls13StepCalls (p : Proc E) (env : PumpEnv) : List OtCall :=
  match p.conn.hs13 with
  | none => []
  | some hs =>
    let flush := flushHandshake p.conn hs env.sendHs
    flushHandshakeCalls hs env.sendHs ++
      if flush.2.isSome then [] else tls13RecordCalls C { p with conn := flush.1 } env

/-- The send of `pump_bearssl_step`. -/
def bearsslSend (flags : EngineFlags) (conn : Conn E) (env : SendEnv) : Conn E × Did :=
  if flags.sendrec then pumpOtSendFromBearssl G conn env else (conn, .idle)

def bearsslMoveCalls (flags : EngineFlags) (conn : Conn E) (env : PumpEnv) : List OtCall :=
  let send := bearsslSend G flags conn env.sendApp
  (if flags.sendrec then sndCalls (G.sendrecBuf conn.eng) env.sendApp else []) ++
    if send.2 = .idle ∧ flags.recvrec ∧ ¬send.1.peerClosed then
      rcvCalls (G.recvrecLen send.1.eng) env.recv
    else []

def bearsslStepCalls (p : Proc E) (env : PumpEnv) : List OtCall :=
  let flags := G.currentState p.conn.eng
  if flags.closed then []
  else if ¬p.conn.handshakeDone ∧ p.conn.state = .handshaking ∧
      (flags.sendapp ∨ flags.recvapp) then []
  else bearsslMoveCalls G flags p.conn env

def stepCalls (p : Proc E) (env : PumpEnv) : List OtCall :=
  match p.conn.state with
  | .handshaking | .open | .closing =>
    if p.conn.tls13Mode ≠ .off then tls13StepCalls C p env else bearsslStepCalls G p env
  | .idle | .connecting | .closed | .failed => []

/-- The calls that one turn of the loop makes. -/
def turnCalls (p : Proc E) (env : PumpEnv) : List OtCall :=
  if p.conn.state = .failed ∨ p.conn.state = .closed then []
  else
    let r := pumpHandshakeOrOpenPre p.conn env
    if r.2 then stepCalls C G { p with conn := r.1 } env else []

/-! ### The turns of a call -/

/-- The turns of the loop, each with the process before it. -/
def loopTurns (p : Proc E) : List PumpEnv → List (Proc E × PumpEnv)
  | [] => []
  | env :: envs =>
    let r := pumpTurn C G p env
    (p, env) :: if r.2 then loopTurns r.1 envs else []

/-- The turns that `OSTLS_Pump` takes. -/
def pumpTurns (p : Proc E) (envs : List PumpEnv) : List (Proc E × PumpEnv) :=
  if p.conn.disposed ∨ p.conn.state = .failed ∨ p.conn.state = .closed then []
  else loopTurns C G (p.onConn fun conn => { conn with bestEvent := .none }) envs

/-- The calls that `OSTLS_Pump` makes. -/
def pumpCalls (p : Proc E) (envs : List PumpEnv) : List OtCall :=
  (pumpTurns C G p envs).flatMap fun t => turnCalls C G t.1 t.2

variable {C G}

theorem length_loopTurns (p : Proc E) (envs : List PumpEnv) :
    (loopTurns C G p envs).length ≤ envs.length := by
  induction envs generalizing p with
  | nil => exact Nat.le_refl 0
  | cons env envs ih =>
    simp only [loopTurns, List.length_cons]
    split_ifs
    · exact Nat.succ_le_succ (ih _)
    · exact Nat.succ_le_succ (Nat.zero_le _)

/-- A call takes no more turns than it may. -/
theorem length_pumpTurns (p : Proc E) (envs : List PumpEnv) :
    (pumpTurns C G p envs).length ≤ envs.length := by
  unfold pumpTurns
  split_ifs
  · exact Nat.zero_le _
  · exact length_loopTurns _ envs

theorem loopTurns_invariant {P : Proc E → Prop} (hstep : ∀ p env, P p → P (pumpTurn C G p env).1)
    {envs : List PumpEnv} {p : Proc E} (hp : P p) : ∀ t ∈ loopTurns C G p envs, P t.1 := by
  induction envs generalizing p with
  | nil => exact fun t ht => absurd ht (List.not_mem_nil)
  | cons env envs ih =>
    simp only [loopTurns, List.mem_cons]
    rintro t (rfl | ht)
    · exact hp
    · split_ifs at ht
      · exact ih (hstep p env hp) t ht
      · exact absurd ht List.not_mem_nil

/-- What holds when the loop is entered and is kept by every turn, holds before every turn. -/
theorem turns_invariant {P : Proc E → Prop} (hstep : ∀ p env, P p → P (pumpTurn C G p env).1)
    {envs : List PumpEnv} {p : Proc E}
    (hp : P (p.onConn fun conn => { conn with bestEvent := .none })) :
    ∀ t ∈ pumpTurns C G p envs, P t.1 := by
  unfold pumpTurns
  split_ifs
  · exact fun t ht => absurd ht List.not_mem_nil
  · exact loopTurns_invariant hstep hp

end MacTLS
