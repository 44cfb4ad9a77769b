import MacTLS.Async.Calls

/-!
# What a turn offers

The calls of a turn, by the connection before it and by what Open Transport answers: which bytes are
offered to `OTSnd`, and whether `OTRcv` is called.

* `SendsHandshake`, `SendsData` : `OTSnd` is called for the handshake, or for what is queued;
* `Listens` : `OTRcv` is called;
* `turnCalls_eq` : these are the calls of a turn.
-/

namespace MacTLS

open Lib

variable {E : Type} {C : Crypto} {G : Engine E} {conn : Conn E} {p : Proc E} {hs : HsCtx}

/-! ### Offers -/

/-- There are bytes to send, in an endpoint state that allows it. -/
def SendEnv.Offered (env : SendEnv) (buf : Bytes) : Prop := buf ≠ [] ∧ canSend env.epState = true

/-- `OTSnd` is called with these bytes and takes none of them, and finds nothing of the peer. -/
def SendEnv.Refuses (env : SendEnv) (buf : Bytes) : Prop := buf ≠ [] ∧ env.waits buf = true

/-- `OTSnd` takes all that is left of `msg_buf`. -/
def SendEnv.takesRest (env : SendEnv) (hs : HsCtx) : Bool :=
  canSend env.epState && match env.result with
    | .sent n => hs.msgLen ≤ hs.msgOffset + min n hs.unsent.length
    | _ => false

/-- The handshake has bytes to send. -/
def OffersHandshake (hs : HsCtx) (env : SendEnv) : Prop :=
  hs.msgOffset < hs.msgLen ∧ env.Offered hs.unsent

/-- Nothing of the handshake's bytes is left to be sent. -/
def HandshakeGone (hs : HsCtx) (env : SendEnv) : Prop :=
  hs.msgOffset < hs.msgLen → env.takesRest hs = true

/-- A record is in flight, behind the bytes of the handshake. -/
def OffersRecord (conn : Conn E) (hs : HsCtx) (env : PumpEnv) : Prop :=
  HandshakeGone hs env.sendHs ∧ conn.t13SendOff < conn.t13SendLen ∧
    env.sendApp.Offered conn.link.unsent

/-- Nothing happens to the record in flight. -/
def RecordStays (conn : Conn E) (env : SendEnv) : Prop :=
  conn.t13SendOff < conn.t13SendLen → env.Offered conn.link.unsent → env.Refuses conn.link.unsent

/-- Nothing of the record in flight is sent. -/
def RecordPasses (conn : Conn E) (env : SendEnv) : Prop :=
  conn.t13SendOff < conn.t13SendLen → env.Offered conn.link.unsent →
    env.Refuses conn.link.unsent ∨ env.result = .lookErr .ordrel

/-- No record can be taken off the received bytes. -/
def NoRecord (buf : Bytes) : Prop :=
  buf.length < 5 ∨ getU16 buf 3 ≤ hsBufSize ∧ buf.length < 5 + getU16 buf 3

/-- The handshake waits for bytes, and there is room for them. -/
def ShakeAwaits (C : Crypto) (conn : Conn E) (hs : HsCtx) (rnd : ClientRandom) : Prop :=
  let o := tls13HandshakeStep C conn.serverName rnd hs conn.recvBuf
  conn.state = .handshaking ∧ conn.tls13Mode = .trying ∧ AwaitsBytes o ∧
    o.recv.length < sslIobufSize

/-- Nothing is left to be done with what was received or written, and there is room. -/
def OpenAwaits (conn : Conn E) : Prop :=
  conn.state.isUp = true ∧ conn.t13PlainLen ≤ conn.t13PlainOff ∧
    (conn.writeBuf.avail = 0 ∨ conn.t13SendOff < conn.t13SendLen) ∧ NoRecord conn.recvBuf ∧
    conn.peerClosed = false ∧ conn.recvBuf.length < sslIobufSize

/-- `OTRcv` is called on the TLS 1.3 path. -/
def ListensTls13 (C : Crypto) (conn : Conn E) (hs : HsCtx) (env : PumpEnv) : Prop :=
  canReceive env.recv.epState = true ∧ HandshakeGone hs env.sendHs ∧
    (RecordPasses conn env.sendApp ∧ ShakeAwaits C conn hs.allSent env.rnd ∨
      RecordStays conn env.sendApp ∧ OpenAwaits conn)

/-- The engine is left to move bytes: it is not closed, and does not open the connection. -/
def BearsslMoves (G : Engine E) (conn : Conn E) : Prop :=
  let flags := G.currentState conn.eng
  flags.closed = false ∧ ¬(¬conn.handshakeDone = true ∧ conn.state = .handshaking ∧
    (flags.sendapp = true ∨ flags.recvapp = true))

/-- The engine has bytes to send. -/
def OffersBearssl (G : Engine E) (conn : Conn E) (env : SendEnv) : Prop :=
  BearsslMoves G conn ∧ (G.currentState conn.eng).sendrec = true ∧
    env.Offered (G.sendrecBuf conn.eng)

/-- `OTRcv` is called on the TLS 1.2 path. -/
def ListensBearssl (G : Engine E) (conn : Conn E) (env : PumpEnv) : Prop :=
  let flags := G.currentState conn.eng
  let buf := G.sendrecBuf conn.eng
  canReceive env.recv.epState = true ∧ BearsslMoves G conn ∧
    (flags.sendrec = true → buf ≠ [] → env.sendApp.Refuses buf) ∧ flags.recvrec = true ∧
    conn.peerClosed = false ∧ G.recvrecLen conn.eng ≠ 0

/-- The turn gets to the step of a connection in use. -/
def Steps (conn : Conn E) (env : PumpEnv) : Prop :=
  (conn.state = .handshaking ∨ conn.state.isUp = true) ∧
    (pumpHandshakeOrOpenPre conn env).2 = true

/-- A turn calls `OTSnd` with bytes of the handshake. -/
def SendsHandshake (conn : Conn E) (env : PumpEnv) : Prop :=
  Steps conn env ∧ conn.tls13Mode ≠ .off ∧ ∃ hs ∈ conn.hs13, OffersHandshake hs env.sendHs

/-- A turn calls `OTSnd` with the record in flight, or with BearSSL's bytes. -/
def SendsData (G : Engine E) (conn : Conn E) (env : PumpEnv) : Prop :=
  Steps conn env ∧ (conn.tls13Mode ≠ .off ∧ (∃ hs ∈ conn.hs13, OffersRecord conn hs env) ∨
    conn.tls13Mode = .off ∧ OffersBearssl G conn env.sendApp)

/-- A turn calls `OTRcv`. -/
def Listens (C : Crypto) (G : Engine E) (conn : Conn E) (env : PumpEnv) : Prop :=
  Steps conn env ∧ (conn.tls13Mode ≠ .off ∧ (∃ hs ∈ conn.hs13, ListensTls13 C conn hs env) ∨
    conn.tls13Mode = .off ∧ ListensBearssl G conn env)

instance (env : SendEnv) (buf : Bytes) : Decidable (env.Offered buf) :=
  inferInstanceAs (Decidable (_ ∧ _))

instance (env : SendEnv) (buf : Bytes) : Decidable (env.Refuses buf) :=
  inferInstanceAs (Decidable (_ ∧ _))

instance (hs : HsCtx) (env : SendEnv) : Decidable (OffersHandshake hs env) :=
  inferInstanceAs (Decidable (_ ∧ _))

instance (hs : HsCtx) (env : SendEnv) : Decidable (HandshakeGone hs env) :=
  inferInstanceAs (Decidable (_ → _))

instance (conn : Conn E) (hs : HsCtx) (env : PumpEnv) : Decidable (OffersRecord conn hs env) :=
  inferInstanceAs (Decidable (_ ∧ _))

instance (conn : Conn E) (env : SendEnv) : Decidable (RecordStays conn env) :=
  inferInstanceAs (Decidable (_ → _))

instance (conn : Conn E) (env : SendEnv) : Decidable (RecordPasses conn env) :=
  inferInstanceAs (Decidable (_ → _))

instance (buf : Bytes) : Decidable (NoRecord buf) := inferInstanceAs (Decidable (_ ∨ _))

instance (C : Crypto) (conn : Conn E) (hs : HsCtx) (rnd : ClientRandom) :
    Decidable (ShakeAwaits C conn hs rnd) := inferInstanceAs (Decidable (_ ∧ _))

instance (conn : Conn E) : Decidable (OpenAwaits conn) := inferInstanceAs (Decidable (_ ∧ _))

instance (C : Crypto) (conn : Conn E) (hs : HsCtx) (env : PumpEnv) :
    Decidable (ListensTls13 C conn hs env) := inferInstanceAs (Decidable (_ ∧ _))

instance (G : Engine E) (conn : Conn E) : Decidable (BearsslMoves G conn) :=
  inferInstanceAs (Decidable (_ ∧ _))

instance (G : Engine E) (conn : Conn E) (env : SendEnv) : Decidable (OffersBearssl G conn env) :=
  inferInstanceAs (Decidable (_ ∧ _))

instance (G : Engine E) (conn : Conn E) (env : PumpEnv) : Decidable (ListensBearssl G conn env) :=
  inferInstanceAs (Decidable (_ ∧ _))

instance (conn : Conn E) (env : PumpEnv) : Decidable (Steps conn env) :=
  inferInstanceAs (Decidable (_ ∧ _))

instance (conn : Conn E) (env : PumpEnv) : Decidable (SendsHandshake conn env) :=
  inferInstanceAs (Decidable (_ ∧ _))

instance (G : Engine E) (conn : Conn E) (env : PumpEnv) : Decidable (SendsData G conn env) :=
  inferInstanceAs (Decidable (_ ∧ _))

instance (C : Crypto) (G : Engine E) (conn : Conn E) (env : PumpEnv) :
    Decidable (Listens C G conn env) := inferInstanceAs (Decidable (_ ∧ _))

/-! ### Single calls -/

/-- One call when the condition holds. -/
def callWhen (P : Prop) [Decidable P] (call : OtCall) : List OtCall := if P then [call] else []

variable {P Q : Prop} [Decidable P] [Decidable Q] {call : OtCall}

theorem callWhen_of (h : P) : callWhen P call = [call] := if_pos h

theorem callWhen_not (h : ¬P) : callWhen P call = [] := if_neg h

theorem callWhen_congr (h : P ↔ Q) : callWhen P call = callWhen Q call := by
  unfold callWhen
  simp only [h]

theorem sndCalls_eq (buf : Bytes) (env : SendEnv) :
    sndCalls buf env = callWhen (env.Offered buf) (.snd env.result) := by
  unfold sndCalls
  split_ifs with hbuf hcan
  · exact (callWhen_not fun h => h.1 (List.length_eq_zero_iff.1 hbuf)).symm
  · exact (callWhen_not fun h => by simp [h.2] at hcan).symm
  · exact (callWhen_of ⟨fun h => hbuf (by rw [h]; rfl), by simpa using hcan⟩).symm

theorem rcvCalls_eq (room : ℕ) (env : RecvEnv) :
    rcvCalls room env =
      callWhen (canReceive env.epState = true ∧ 0 < room) (.rcv env.result) := by
  unfold rcvCalls
  split_ifs with hroom hcan
  · exact (callWhen_not fun h => by omega).symm
  · exact (callWhen_not fun h => by simp [h.1] at hcan).symm
  · exact (callWhen_of ⟨by simpa using hcan, Nat.pos_of_ne_zero hroom⟩).symm

/-- What is refused was offered, and `OTSnd` did not take a byte of it. -/
theorem SendEnv.refuses_iff {env : SendEnv} {buf : Bytes} :
    env.Refuses buf ↔ env.Offered buf ∧
      (env.result = .sent 0 ∨ env.result = .flowErr ∨
        ∃ code, env.result = .lookErr (.other code)) := by
  unfold SendEnv.Refuses SendEnv.Offered SendEnv.waits
  cases buf with
  | nil => simp
  | cons x buf =>
    cases hres : env.result with
    | lookErr look => cases look <;> simp
    | _ => simp

/-- How an attempt to send goes. -/
inductive SendOutcome (conn : Conn E) (buf : Bytes) (env : SendEnv) : Conn E × Option ℕ → Prop
  | nothing (h : ¬env.Offered buf) : SendOutcome conn buf env (conn, some 0)
  | takes {m n : ℕ} (h : env.Offered buf) (hres : env.result = .sent m)
      (hn : n = min m buf.length) (hpos : 0 < n) {history : History} :
      SendOutcome conn buf env ({ conn with history }, some n)
  | refuses (h : env.Refuses buf) {history : History} {nfWantWrite : Bool} :
      SendOutcome conn buf env ({ conn with history, nfWantWrite }, some 0)
  | releases (h : env.Offered buf) (hres : env.result = .lookErr .ordrel) :
      SendOutcome conn buf env (peerRelease conn, some 0)
  | fails (h : env.Offered buf)
      (hres : env.result = .lookErr .disconnect ∨ ∃ code, env.result = .err code)
      {conn' : Conn E} : SendOutcome conn buf env (conn', none)

theorem sendOutcome_ostlsSendRaw (conn : Conn E) (buf : Bytes) (env : SendEnv) :
    SendOutcome conn buf env (ostlsSendRaw conn buf env) := by
  unfold ostlsSendRaw
  by_cases hbuf : buf.length = 0
  · rw [if_pos hbuf]
    exact .nothing fun h => h.1 (List.length_eq_zero_iff.1 hbuf)
  rw [if_neg hbuf]
  by_cases hcan : canSend env.epState = true
  · have hoff : env.Offered buf := ⟨fun h => hbuf (by rw [h]; rfl), hcan⟩
    rw [if_neg (by simp [hcan])]
    cases hres : env.result with
    | sent m =>
      cases m with
      | zero =>
        dsimp only
        rw [Nat.zero_min]
        exact .refuses (SendEnv.refuses_iff.2 ⟨hoff, .inl hres⟩)
      | succ m => exact .takes hoff hres rfl (by omega)
    | flowErr => exact .refuses (SendEnv.refuses_iff.2 ⟨hoff, .inr (.inl hres)⟩)
    | lookErr look =>
      cases look with
      | ordrel => exact .releases hoff hres
      | disconnect => exact .fails hoff (.inl hres)
      | other code => exact .refuses (SendEnv.refuses_iff.2 ⟨hoff, .inr (.inr ⟨code, hres⟩)⟩)
    | err code => exact .fails hoff (.inr ⟨code, hres⟩)
  · rw [if_pos (by simp [hcan])]
    exact .nothing fun h => hcan h.2

/-! ### The TLS 1.3 path -/

/-- The open phase takes no record where there is none. -/
theorem pumpTls13ConsumeRecord_eq_false (p : Proc E) (hs : HsCtx) (now : ℕ) :
    (pumpTls13ConsumeRecord C p hs now).2 = false ↔ NoRecord p.conn.recvBuf := by
  rw [pumpTls13ConsumeRecord_eq]
  unfold NoRecord
  split_ifs with hshort hlong hcut
  · simp [hshort]
  · simp only [false_iff]
    omega
  · simp [hshort, hcut]
    omega
  · have hno : ¬(p.conn.recvBuf.length < 5 ∨ getU16 p.conn.recvBuf 3 ≤ hsBufSize ∧
        p.conn.recvBuf.length < 5 + getU16 p.conn.recvBuf 3) := by omega
    unfold recordOpened
    dsimp only
    split
    · simp [hno]
    · split_ifs <;> simp [hno]

/-- A record is built of what is queued, unless one is in flight. -/
theorem pumpTls13BuildSend_snd (conn : Conn E) (hs : HsCtx) :
    (pumpTls13BuildSend C conn hs).2 = true ↔
      conn.t13SendLen ≤ conn.t13SendOff ∧ conn.writeBuf.avail ≠ 0 := by
  unfold pumpTls13BuildSend
  split_ifs with hlt hnone
  · simp [Nat.not_le.2 hlt]
  · simp [hnone]
  · simp [Nat.le_of_not_lt hlt, hnone]

theorem openIdle_iff (p : Proc E) (hs : HsCtx) (now : ℕ) :
    OpenIdle C p hs now ↔ p.conn.t13PlainLen ≤ p.conn.t13PlainOff ∧
      (p.conn.writeBuf.avail = 0 ∨ p.conn.t13SendOff < p.conn.t13SendLen) ∧
      NoRecord p.conn.recvBuf := by
  unfold OpenIdle
  rw [pumpTls13ConsumeRecord_eq_false, pumpTls13BuildSend_snd, Nat.not_lt]
  have hqueue : ¬(p.conn.writeBuf.avail > 0 ∧ p.conn.t13SendOff ≥ p.conn.t13SendLen ∧
      p.conn.t13SendLen ≤ p.conn.t13SendOff ∧ p.conn.writeBuf.avail ≠ 0) ↔
      p.conn.writeBuf.avail = 0 ∨ p.conn.t13SendOff < p.conn.t13SendLen := by omega
  rw [hqueue]

/-- The calls of the handshake phase or of the open phase. -/
theorem tls13DriveCalls_eq (h13 : p.conn.hs13 = some hs) (env : PumpEnv) :
    tls13DriveCalls C p env = callWhen (canReceive env.recv.epState = true ∧
      (ShakeAwaits C p.conn hs env.rnd ∨ OpenAwaits p.conn)) (.rcv env.recv.result) := by
  unfold tls13DriveCalls
  rw [h13]
  dsimp only
  by_cases hshake : p.conn.state = .handshaking ∧ p.conn.tls13Mode = .trying
  · have hnot : ¬OpenAwaits p.conn := by
      rintro ⟨hup, -⟩
      rw [hshake.1] at hup
      cases hup
    rw [if_pos hshake]
    unfold tls13HandshakeCalls
    dsimp only
    by_cases hwaits : AwaitsBytes
        (tls13HandshakeStep C p.conn.serverName env.rnd hs p.conn.recvBuf)
    · rw [if_pos hwaits, rcvCalls_eq]
      refine callWhen_congr ?_
      simp only [ShakeAwaits, hshake, hwaits, hnot, true_and, or_false, Nat.sub_pos_iff_lt]
    · rw [if_neg hwaits]
      refine (callWhen_not ?_).symm
      rintro ⟨-, h | h⟩
      · exact hwaits h.2.2.1
      · exact hnot h
  · have hnot : ¬ShakeAwaits C p.conn hs env.rnd := fun h => hshake ⟨h.1, h.2.1⟩
    rw [if_neg hshake]
    by_cases hup : p.conn.state.isUp = true
    · rw [if_pos hup]
      unfold tls13OpenCalls otRecvTls13Calls
      by_cases hidle : OpenIdle C p hs env.ticks ∧ ¬p.conn.peerClosed = true
      · rw [if_pos hidle, rcvCalls_eq]
        obtain ⟨hplain, hqueue, hrecord⟩ := (openIdle_iff p hs env.ticks).1 hidle.1
        refine callWhen_congr ?_
        simp only [OpenAwaits, hnot, hup, hplain, hqueue, hrecord, hidle.2, false_or, true_and,
          Nat.sub_pos_iff_lt]
      · rw [if_neg hidle]
        refine (callWhen_not ?_).symm
        rintro ⟨-, h | ⟨-, hplain, hqueue, hrecord, hpeer, -⟩⟩
        · exact hnot h
        · refine hidle ⟨(openIdle_iff p hs env.ticks).2 ⟨hplain, hqueue, hrecord⟩, ?_⟩
          rw [hpeer]
          decide
    · rw [if_neg hup]
      exact (callWhen_not fun h => h.2.elim hnot fun h => hup h.1).symm

/-- With a record in flight, the step goes on when none of it is sent. -/
theorem flushRecord_goesOn (hlt : conn.t13SendOff < conn.t13SendLen) (env : SendEnv) :
    ((flushRecord conn env).2.isSome = true ∧ ¬RecordPasses conn env) ∨
      ∃ conn', flushRecord conn env = (conn', none) ∧
        (RecordStays conn env ∧ (∃ history nfWantWrite,
            conn' = { conn with history, nfWantWrite }) ∨
          ¬RecordStays conn env ∧ RecordPasses conn env ∧ conn' = peerRelease conn) := by
  have hbuf : slice conn.t13SendRec conn.t13SendOff (conn.t13SendLen - conn.t13SendOff) =
      conn.link.unsent := rfl
  unfold flushRecord
  rw [if_pos hlt, hbuf]
  have hsend := sendOutcome_ostlsSendRaw conn conn.link.unsent env
  generalize ostlsSendRaw conn conn.link.unsent env = r at hsend ⊢
  have hstays : ∀ conn' : Conn E, conn'.t13SendOff = conn.t13SendOff →
      conn'.t13SendLen = conn.t13SendLen → ¬conn'.t13SendOff + 0 ≥ conn'.t13SendLen := by
    intro conn' hoff hlen
    omega
  cases hsend with
  | nothing h =>
    dsimp only
    rw [if_neg (Nat.lt_irrefl 0), if_neg (hstays _ rfl rfl)]
    exact .inr ⟨_, rfl, .inl ⟨fun _ hoff => absurd hoff h, _, _, rfl⟩⟩
  | @takes m n hoff hres hn hpos history =>
    refine .inl ⟨?_, fun hpass => ?_⟩
    · dsimp only
      rw [if_pos hpos]
      rfl
    · obtain h | h := hpass hlt hoff
      · obtain ⟨-, h | h | ⟨code, h⟩⟩ := SendEnv.refuses_iff.1 h
        · cases hres.symm.trans h
          rw [Nat.zero_min] at hn
          omega
        · cases hres.symm.trans h
        · cases hres.symm.trans h
      · cases hres.symm.trans h
  | refuses h =>
    dsimp only
    rw [if_neg (Nat.lt_irrefl 0), if_neg (hstays _ rfl rfl)]
    exact .inr ⟨_, rfl, .inl ⟨fun _ _ => h, _, _, rfl⟩⟩
  | releases hoff hres =>
    dsimp only
    rw [if_neg (Nat.lt_irrefl 0), if_neg (hstays (peerRelease conn) rfl rfl)]
    refine .inr ⟨_, rfl, .inr ⟨fun h => ?_, fun _ _ => .inr hres, rfl⟩⟩
    obtain ⟨-, h | h | ⟨code, h⟩⟩ := SendEnv.refuses_iff.1 (h hlt hoff) <;> cases hres.symm.trans h
  | fails hoff hres =>
    refine .inl ⟨rfl, fun hpass => ?_⟩
    obtain h | h := hpass hlt hoff
    · obtain ⟨-, h | h | ⟨code, h⟩⟩ := SendEnv.refuses_iff.1 h <;>
        obtain hres | ⟨code', hres⟩ := hres <;> cases hres.symm.trans h
    · obtain hres | ⟨code', hres⟩ := hres <;> cases hres.symm.trans h

/-- The calls of a step from the record in flight on. -/
theorem tls13RecordCalls_eq (h13 : p.conn.hs13 = some hs) (env : PumpEnv) :
    tls13RecordCalls C p env =
      callWhen (p.conn.t13SendOff < p.conn.t13SendLen ∧ env.sendApp.Offered p.conn.link.unsent)
          (.snd env.sendApp.result) ++
        callWhen (canReceive env.recv.epState = true ∧
          (RecordPasses p.conn env.sendApp ∧ ShakeAwaits C p.conn hs env.rnd ∨
            RecordStays p.conn env.sendApp ∧ OpenAwaits p.conn)) (.rcv env.recv.result) := by
  unfold tls13RecordCalls flushRecordCalls
  dsimp only
  by_cases hlt : p.conn.t13SendOff < p.conn.t13SendLen
  · have hfirst : callWhen (p.conn.t13SendOff < p.conn.t13SendLen ∧
        env.sendApp.Offered p.conn.link.unsent) (.snd env.sendApp.result) =
        sndCalls p.conn.link.unsent env.sendApp := by
      rw [sndCalls_eq]
      exact callWhen_congr (and_iff_right hlt)
    rw [if_pos hlt, hfirst]
    congr 1
    obtain ⟨hends, hnot⟩ | ⟨conn', hflush, hgoes⟩ := flushRecord_goesOn hlt env.sendApp
    · have hnot' : ¬RecordStays p.conn env.sendApp := fun h =>
        hnot fun hfly hoff => .inl (h hfly hoff)
      rw [if_pos hends]
      refine (callWhen_not ?_).symm
      rintro ⟨-, h | h⟩
      · exact hnot h.1
      · exact hnot' h.1
    · rw [hflush, Option.isSome_none, if_neg (by decide)]
      obtain ⟨hstays, history, want, rfl⟩ | ⟨hnot, hpasses, rfl⟩ := hgoes
      · have hpasses : RecordPasses p.conn env.sendApp := fun hfly hoff => .inl (hstays hfly hoff)
        refine (tls13DriveCalls_eq (p := { p with conn := { p.conn with
          history := history, nfWantWrite := want } }) h13 env).trans (callWhen_congr ?_)
        rw [and_iff_right hpasses, and_iff_right hstays]
        rfl
      · -- behind a peer that has closed only the handshake receives
        refine (tls13DriveCalls_eq (p := { p with conn := peerRelease p.conn }) h13 env).trans
          (callWhen_congr ?_)
        have hclosed : ¬OpenAwaits (peerRelease p.conn) := fun h => (by cases h.2.2.2.2.1)
        simp only [hclosed, hnot, hpasses, true_and, false_and, or_false]
        rfl
  · have hnone : flushRecord p.conn env.sendApp = (p.conn, none) := if_neg hlt
    rw [if_neg hlt, callWhen_not fun h => hlt h.1, hnone, Option.isSome_none, if_neg (by decide),
      tls13DriveCalls_eq h13]
    congr 1
    refine callWhen_congr ?_
    have hpasses : RecordPasses p.conn env.sendApp := fun h => absurd h hlt
    have hstays : RecordStays p.conn env.sendApp := fun h => absurd h hlt
    rw [and_iff_right hpasses, and_iff_right hstays]

/-- To take the rest, `OTSnd` must be offered it, and take something. -/
theorem SendEnv.sends_of_takesRest {env : SendEnv} (h : env.takesRest hs = true)
    (hlt : hs.msgOffset < hs.msgLen) :
    env.Offered hs.unsent ∧ ∃ n, env.result = .sent (n + 1) := by
  unfold SendEnv.takesRest at h
  obtain ⟨hcan, h⟩ := Bool.and_eq_true_iff.1 h
  cases hres : env.result with
  | sent n =>
    rw [hres] at h
    have htakes : hs.msgLen ≤ hs.msgOffset + min n hs.unsent.length := of_decide_eq_true h
    cases n with
    | zero => omega
    | succ n =>
      refine ⟨⟨fun hnone => ?_, hcan⟩, n, rfl⟩
      rw [hnone, List.length_nil, Nat.min_zero] at htakes
      omega
  | flowErr | lookErr | err =>
    rw [hres] at h
    cases h

/-- With handshake bytes to send, the step goes on when all of them are sent. -/
theorem flushHandshake_goesOn (conn : Conn E) (hlt : hs.msgOffset < hs.msgLen) (env : SendEnv) :
    ((flushHandshake conn hs env).2.isSome = true ∧ env.takesRest hs = false) ∨
      env.takesRest hs = true ∧ ∃ history,
        flushHandshake conn hs env = ({ conn with history, hs13 := some hs.allSent }, none) := by
  have hstill : hs.msgOffset + 0 < hs.msgLen := hlt
  have hno : (env.Offered hs.unsent → ¬∃ n, env.result = .sent (n + 1)) →
      env.takesRest hs = false := fun h => Bool.eq_false_iff.2 fun htakes =>
    h (SendEnv.sends_of_takesRest htakes hlt).1 (SendEnv.sends_of_takesRest htakes hlt).2
  unfold flushHandshake
  rw [if_pos hlt, ← HsCtx.unsent]
  have hsend := sendOutcome_ostlsSendRaw conn hs.unsent env
  generalize ostlsSendRaw conn hs.unsent env = r at hsend ⊢
  cases hsend with
  | nothing h =>
    dsimp only
    rw [if_pos hstill]
    exact .inl ⟨rfl, hno fun hoff _ => h hoff⟩
  | @takes m n hoff hres hn hpos history =>
    dsimp only
    have hlen : hs.unsent.length ≤ hs.msgLen - hs.msgOffset := List.length_take_le _ _
    by_cases hmore : hs.msgOffset + n < hs.msgLen
    · rw [if_pos hmore]
      refine .inl ⟨rfl, ?_⟩
      simp only [SendEnv.takesRest, hoff.2, hres, ← hn, Bool.true_and, decide_eq_false_iff_not]
      omega
    · have hgone : hs.msgOffset + n = max hs.msgOffset hs.msgLen := by omega
      rw [if_neg hmore, hgone]
      refine .inr ⟨?_, history, rfl⟩
      simp only [SendEnv.takesRest, hoff.2, hres, ← hn, Bool.true_and, decide_eq_true_eq]
      omega
  | refuses h =>
    dsimp only
    rw [if_pos hstill]
    refine .inl ⟨rfl, hno fun _ htook => ?_⟩
    obtain ⟨n, hres⟩ := htook
    obtain ⟨-, h | h | ⟨code, h⟩⟩ := SendEnv.refuses_iff.1 h <;> cases hres.symm.trans h
  | releases hoff h =>
    dsimp only
    rw [if_pos hstill]
    refine .inl ⟨rfl, hno fun _ htook => ?_⟩
    obtain ⟨n, hres⟩ := htook
    cases hres.symm.trans h
  | fails hoff h =>
    refine .inl ⟨rfl, hno fun _ htook => ?_⟩
    obtain ⟨n, hres⟩ := htook
    obtain h | ⟨code, h⟩ := h <;> cases hres.symm.trans h

/-- The calls that are left when nothing of the handshake's bytes is. -/
theorem HandshakeGone.calls {env : PumpEnv} (h : HandshakeGone hs env.sendHs) (conn : Conn E) :
    callWhen (OffersRecord conn hs env) (.snd env.sendApp.result) ++
        callWhen (ListensTls13 C conn hs env) (.rcv env.recv.result) =
      callWhen (conn.t13SendOff < conn.t13SendLen ∧ env.sendApp.Offered conn.link.unsent)
          (.snd env.sendApp.result) ++
        callWhen (canReceive env.recv.epState = true ∧
          (RecordPasses conn env.sendApp ∧ ShakeAwaits C conn hs.allSent env.rnd ∨
            RecordStays conn env.sendApp ∧ OpenAwaits conn)) (.rcv env.recv.result) := by
  unfold OffersRecord ListensTls13
  congr 1
  · exact callWhen_congr (and_iff_right h)
  · exact callWhen_congr (and_congr_right_iff.2 fun _ => and_iff_right h)

/-- The calls of a step of the TLS 1.3 path. -/
theorem tls13StepCalls_eq (h13 : p.conn.hs13 = some hs) (env : PumpEnv) :
    tls13StepCalls C p env =
      callWhen (OffersHandshake hs env.sendHs) (.snd env.sendHs.result) ++
        (callWhen (OffersRecord p.conn hs env) (.snd env.sendApp.result) ++
          callWhen (ListensTls13 C p.conn hs env) (.rcv env.recv.result)) := by
  unfold tls13StepCalls flushHandshakeCalls
  rw [h13]
  dsimp only
  by_cases hlt : hs.msgOffset < hs.msgLen
  · have hfirst : callWhen (OffersHandshake hs env.sendHs) (.snd env.sendHs.result) =
        sndCalls hs.unsent env.sendHs := by
      rw [sndCalls_eq]
      exact callWhen_congr (and_iff_right hlt)
    rw [if_pos hlt, hfirst]
    congr 1
    obtain ⟨hends, hnot⟩ | ⟨htakes, history, hflush⟩ :=
      flushHandshake_goesOn p.conn hlt env.sendHs
    · have hleft : ¬HandshakeGone hs env.sendHs := fun h => by simp [h hlt] at hnot
      rw [if_pos hends, callWhen_not fun h => hleft h.1, callWhen_not fun h => hleft h.2.1]
      rfl
    · have hgone : HandshakeGone hs env.sendHs := fun _ => htakes
      rw [hflush, Option.isSome_none, if_neg (by decide)]
      exact (tls13RecordCalls_eq (C := C) (p := { p with conn := { p.conn with
        history := history, hs13 := some hs.allSent } }) rfl env).trans (hgone.calls p.conn).symm
  · have hnone : flushHandshake p.conn hs env.sendHs = (p.conn, none) := if_neg hlt
    have hgone : HandshakeGone hs env.sendHs := fun h => absurd h hlt
    have hsame : hs.allSent = hs := by
      unfold HsCtx.allSent
      rw [Nat.max_eq_left (Nat.le_of_not_lt hlt)]
    rw [if_neg hlt, callWhen_not fun h => hlt h.1, hnone, Option.isSome_none, if_neg (by decide),
      tls13RecordCalls_eq h13, hgone.calls, hsame]

/-! ### The TLS 1.2 path -/

/-- Sending for BearSSL lets the step go on when there is nothing to send or it is refused. -/
theorem idle_pumpOtSendFromBearssl (conn : Conn E) (env : SendEnv) :
    let r := pumpOtSendFromBearssl G conn env
    let buf := G.sendrecBuf conn.eng
    (r.2 = .idle ∧ r.1.eng = conn.eng ∧ r.1.peerClosed = conn.peerClosed ∧
        (buf = [] ∨ env.Refuses buf)) ∨
      (r.2 ≠ .idle ∧ buf ≠ [] ∧ ¬env.Refuses buf) := by
  unfold pumpOtSendFromBearssl
  dsimp only
  generalize G.sendrecBuf conn.eng = buf
  by_cases hbuf : buf.length = 0
  · rw [if_pos hbuf]
    exact .inl ⟨rfl, rfl, rfl, .inl (List.length_eq_zero_iff.1 hbuf)⟩
  have hne : buf ≠ [] := fun h => hbuf (by rw [h]; rfl)
  rw [if_neg hbuf]
  by_cases hcan : canSend env.epState = true
  · have hoff : env.Offered buf := ⟨hne, hcan⟩
    have hsome : ∀ n, env.result = .sent (n + 1) → ¬env.Refuses buf := by
      rintro n hres h
      obtain ⟨-, h | h | ⟨code, h⟩⟩ := SendEnv.refuses_iff.1 h <;> cases hres.symm.trans h
    rw [if_neg (by simp [hcan])]
    cases hres : env.result with
    | sent n =>
      cases n with
      | zero => exact .inl ⟨rfl, rfl, rfl, .inr (SendEnv.refuses_iff.2 ⟨hoff, .inl hres⟩)⟩
      | succ n => exact .inr ⟨by simp, hne, hsome n hres⟩
    | flowErr => exact .inl ⟨rfl, rfl, rfl, .inr (SendEnv.refuses_iff.2 ⟨hoff, .inr (.inl hres)⟩)⟩
    | lookErr look =>
      cases look with
      | ordrel => exact .inr ⟨by simp, hne, fun h => by
          simp [SendEnv.refuses_iff, hres] at h⟩
      | disconnect => exact .inr ⟨by simp, hne, fun h => by
          simp [SendEnv.refuses_iff, hres] at h⟩
      | other code =>
        exact .inl ⟨rfl, rfl, rfl, .inr (SendEnv.refuses_iff.2 ⟨hoff, .inr (.inr ⟨code, hres⟩)⟩)⟩
    | err code => exact .inr ⟨by simp, hne, fun h => by simp [SendEnv.refuses_iff, hres] at h⟩
  · rw [if_pos (by simp [hcan])]
    exact .inr ⟨by simp, hne, fun h => hcan (SendEnv.refuses_iff.1 h).1.2⟩

/-- The calls that move the engine's bytes. -/
theorem bearsslMoveCalls_eq (conn : Conn E) (env : PumpEnv) :
    let flags := G.currentState conn.eng
    let buf := G.sendrecBuf conn.eng
    bearsslMoveCalls G flags conn env =
      callWhen (flags.sendrec = true ∧ env.sendApp.Offered buf) (.snd env.sendApp.result) ++
        callWhen (canReceive env.recv.epState = true ∧
          (flags.sendrec = true → buf ≠ [] → env.sendApp.Refuses buf) ∧ flags.recvrec = true ∧
          conn.peerClosed = false ∧ G.recvrecLen conn.eng ≠ 0) (.rcv env.recv.result) := by
  dsimp only
  generalize G.currentState conn.eng = flags
  have hreceive : ∀ conn' : Conn E, conn'.eng = conn.eng → conn'.peerClosed = conn.peerClosed →
      (if flags.recvrec = true ∧ ¬conn'.peerClosed = true then
        rcvCalls (G.recvrecLen conn'.eng) env.recv else []) =
      callWhen (canReceive env.recv.epState = true ∧ flags.recvrec = true ∧
        conn.peerClosed = false ∧ G.recvrecLen conn.eng ≠ 0) (.rcv env.recv.result) := by
    intro conn' heng hpeer
    rw [heng, hpeer]
    by_cases h : flags.recvrec = true ∧ ¬conn.peerClosed = true
    · rw [if_pos h, rcvCalls_eq]
      refine callWhen_congr ?_
      simp only [h, true_and, Nat.pos_iff_ne_zero]
    · rw [if_neg h]
      exact (callWhen_not fun h' => h ⟨h'.2.1, by simp [h'.2.2.1]⟩).symm
  unfold bearsslMoveCalls bearsslSend
  by_cases hsend : flags.sendrec = true
  · simp only [hsend, if_true, true_and, forall_const]
    rw [sndCalls_eq]
    congr 1
    obtain ⟨hidle, heng, hpeer, hbuf⟩ | ⟨hdid, hne, hnot⟩ :=
      idle_pumpOtSendFromBearssl (G := G) conn env.sendApp
    · rw [ite_cond_congr (and_iff_right hidle).eq, hreceive _ heng hpeer]
      have hrefuses : G.sendrecBuf conn.eng ≠ [] → env.sendApp.Refuses (G.sendrecBuf conn.eng) :=
        fun hne => hbuf.resolve_left hne
      exact callWhen_congr (and_congr_right_iff.2 fun _ => (and_iff_right hrefuses).symm)
    · rw [if_neg fun h => hdid h.1]
      exact (callWhen_not fun h => hnot (h.2.1 hne)).symm
  · simp only [hsend, Bool.false_eq_true, if_false, true_and, false_and, false_implies,
      List.nil_append]
    rw [hreceive conn rfl rfl, callWhen_not not_false]
    rfl

/-- The calls of a step of the TLS 1.2 path. -/
theorem bearsslStepCalls_eq (p : Proc E) (env : PumpEnv) :
    bearsslStepCalls G p env =
      callWhen (OffersBearssl G p.conn env.sendApp) (.snd env.sendApp.result) ++
        callWhen (ListensBearssl G p.conn env) (.rcv env.recv.result) := by
  unfold bearsslStepCalls
  dsimp only
  by_cases hmoves : BearsslMoves G p.conn
  · rw [if_neg (by simp [hmoves.1]), if_neg hmoves.2, bearsslMoveCalls_eq]
    unfold OffersBearssl ListensBearssl
    congr 1
    · exact callWhen_congr (and_iff_right hmoves).symm
    · exact callWhen_congr (and_congr_right_iff.2 fun _ => (and_iff_right hmoves).symm)
  · rw [callWhen_not fun h => hmoves h.1, callWhen_not fun h => hmoves h.2.1]
    split_ifs with hclosed hopened
    · rfl
    · rfl
    · exact absurd ⟨by simpa using hclosed, hopened⟩ hmoves

/-! ### Turns -/

theorem pumpHandshakeOrOpenPre_goes {env : PumpEnv}
    (h : (pumpHandshakeOrOpenPre conn env).2 = true) :
    (pumpHandshakeOrOpenPre conn env).1 = conn := by
  unfold pumpHandshakeOrOpenPre at h ⊢
  split_ifs at h ⊢
  rfl

/-- **The calls of a turn**, by the connection before it. -/
theorem turnCalls_eq (p : Proc E) (env : PumpEnv) :
    turnCalls C G p env =
      callWhen (SendsHandshake p.conn env) (.snd env.sendHs.result) ++
        (callWhen (SendsData G p.conn env) (.snd env.sendApp.result) ++
          callWhen (Listens C G p.conn env) (.rcv env.recv.result)) := by
  have hnone : ¬Steps p.conn env → [] =
      callWhen (SendsHandshake p.conn env) (.snd env.sendHs.result) ++
        (callWhen (SendsData G p.conn env) (.snd env.sendApp.result) ++
          callWhen (Listens C G p.conn env) (.rcv env.recv.result)) := by
    intro h
    rw [callWhen_not fun h' => h h'.1, callWhen_not fun h' => h h'.1, callWhen_not fun h' => h h'.1]
    rfl
  have hsteps : Steps p.conn env →
      (if p.conn.tls13Mode ≠ .off then tls13StepCalls C p env else bearsslStepCalls G p env) =
      callWhen (SendsHandshake p.conn env) (.snd env.sendHs.result) ++
        (callWhen (SendsData G p.conn env) (.snd env.sendApp.result) ++
          callWhen (Listens C G p.conn env) (.rcv env.recv.result)) := by
    intro h
    unfold SendsHandshake SendsData Listens
    simp only [h, true_and]
    by_cases hmode : p.conn.tls13Mode ≠ .off
    · rw [if_pos hmode]
      have hon : ¬p.conn.tls13Mode = .off := hmode
      simp only [ne_eq, hon, not_false_eq_true, true_and, false_and, or_false]
      cases h13 : p.conn.hs13 with
      | none =>
        unfold tls13StepCalls
        rw [h13]
        simp [callWhen]
      | some hs =>
        simp only [Option.mem_def, Option.some.injEq, exists_eq_left']
        exact tls13StepCalls_eq h13 env
    · have hoff : p.conn.tls13Mode = .off := not_not.1 hmode
      rw [if_neg hmode, callWhen_not fun h' => hmode h'.1, List.nil_append]
      simp only [hoff, ne_eq, not_true_eq_false, false_and, true_and, false_or]
      exact bearsslStepCalls_eq p env
  unfold turnCalls
  by_cases hover : p.conn.state = .failed ∨ p.conn.state = .closed
  · rw [if_pos hover]
    refine hnone fun h => ?_
    obtain h | h := h.1 <;> obtain hst | hst := hover <;> rw [hst] at h <;> cases h
  · rw [if_neg hover]
    dsimp only
    by_cases hpre : (pumpHandshakeOrOpenPre p.conn env).2 = true
    · rw [if_pos hpre, pumpHandshakeOrOpenPre_goes hpre]
      unfold stepCalls
      dsimp only
      cases hst : p.conn.state with
      | handshaking => exact hsteps ⟨.inl hst, hpre⟩
      | «open» => exact hsteps ⟨.inr (by rw [hst]; rfl), hpre⟩
      | closing => exact hsteps ⟨.inr (by rw [hst]; rfl), hpre⟩
      | idle | connecting | closed | failed =>
        refine hnone fun h => ?_
        obtain h | h := h.1 <;> rw [hst] at h <;> cases h
    · rw [if_neg hpre]
      exact hnone fun h => hpre h.2

end MacTLS
