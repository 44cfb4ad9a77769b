import MacTLS.Async.Link

/-!
# Calls are sequences of effects

Each function of the pump, and each call, is followed once through its branches.
-/

namespace MacTLS

open Lib

/-! ### When a connection is closed too early -/

/-- `OTSnd` takes nothing of these bytes, and the connection does not fail over it. -/
def SendEnv.takesNothing (env : SendEnv) (buf : Bytes) : Bool :=
  buf.isEmpty || !canSend env.epState || match env.result with
    | .sent n => n == 0
    | .flowErr => true
    | .lookErr look => look != .disconnect
    | .err _ => false

/-- An attempt to send finds that the peer has closed. -/
def SendEnv.findsRelease (env : SendEnv) : Bool :=
  canSend env.epState && env.result == .lookErr .ordrel

/-- The record at the front of the received bytes is a close_notify alert. -/
def frontCloseNotify (C : Crypto) (hs : HsCtx) (recvBuf : Bytes) : Bool :=
  let reclen := getU16 recvBuf 3
  let d := tls13RecordDecrypt C hs.readCtx (slice recvBuf 5 reclen)
  decide (5 ≤ recvBuf.length ∧ reclen ≤ hsBufSize ∧ 5 + reclen ≤ recvBuf.length) &&
    match d.ret with
    | none => false
    | some (plen, inner) =>
      inner == tls13CtAlert && plen ≥ 2 && byteAt (blit hs.plainBuf 0 d.buf) 1 == 0

/-- The open phase closes the connection behind the peer, unless it has something to send. -/
def Link.PeerEnds (C : Crypto) (s : Link) (hs : HsCtx) : Prop :=
  s.plainLen ≤ s.plainOff ∧
    (frontCloseNotify C hs s.recvBuf = true ∨ s.peerClosed = true ∧ s.recvBuf.length < 5)

variable {E : Type}

/-- A turn closes the connection behind the peer while a record is in flight of which `OTSnd`
takes nothing. -/
def ClosesInFlight (C : Crypto) (conn : Conn E) (env : PumpEnv) : Prop :=
  conn.link.Flowing ∧ ¬(conn.nfDisconnect = true ∧ conn.discConsumed = false) ∧
    conn.t13SendOff < conn.t13SendLen ∧ env.sendApp.takesNothing conn.link.unsent = true ∧
    ∃ hs, conn.hs13 = some hs ∧
      Link.PeerEnds C { conn.link with
        peerClosed := conn.peerClosed || env.sendApp.findsRelease } hs

/-- The connection is released while something is still to be sent. -/
def ReleasesUnsent (conn : Conn E) : Prop :=
  conn.closeRequested = false ∧ conn.state.isUp = true ∧ conn.tls13Mode = .open ∧ ¬conn.link.Idle

/-- An action that does not close or release a connection over unsent bytes. -/
def Drains (C : Crypto) (conn : Conn E) : Action → Prop
  | .turn env => ¬ClosesInFlight C conn env
  | .close => ¬ReleasesUnsent conn
  | _ => True

/-- `OSTLS_Start` gets as far as asking for an endpoint. -/
def StartEnv.succeeds (env : StartEnv) : Bool :=
  env.timeOk && env.cfgOk && env.openErr == kOTNoError

/-- A connection is started that was closed while it was idle. -/
def StartsClosed (conn : Conn E) : Action → Prop
  | .start env => conn.disposed = false ∧ conn.started = false ∧ conn.state = .idle ∧
      conn.closeRequested = true ∧ env.succeeds = true
  | _ => False

instance (conn : Conn E) (a : Action) : Decidable (StartsClosed conn a) :=
  match a with
  | .start _ => inferInstanceAs (Decidable (_ ∧ _))
  | .enter | .turn _ | .write _ | .read _ | .close | .dispose | .notify .. | .others .. =>
    instDecidableFalse

/-- `OTSnd` takes nothing of these bytes now, and reports nothing of the peer. -/
def SendEnv.waits (env : SendEnv) (buf : Bytes) : Bool :=
  buf.isEmpty || canSend env.epState && match env.result with
    | .sent n => n == 0
    | .flowErr => true
    | .lookErr (.other _) => true
    | _ => false

/-- The handshake has run out of time. -/
def HandshakeExpired (conn : Conn E) (env : PumpEnv) : Prop :=
  elapsed32 env.ticks conn.handshakeStartTicks > conn.handshakeTimeoutTicks

/-- A turn closes the connection behind the peer while the handshake of TLS 1.2 is not done: the
engine has nothing more to do, and the peer has closed. -/
def ClosesEarly (G : Engine E) (conn : Conn E) : Action → Prop
  | .turn env =>
    let flags := G.currentState conn.eng
    conn.state = .handshaking ∧ conn.tls13Mode = .off ∧ conn.handshakeDone = false ∧
      conn.peerClosed = true ∧ ¬HandshakeExpired conn env ∧
      ¬(conn.nfDisconnect = true ∧ conn.discConsumed = false) ∧
      flags.closed = false ∧ flags.sendapp = false ∧ flags.recvapp = false ∧
      (flags.sendrec = true → env.sendApp.waits (G.sendrecBuf conn.eng) = true)
  | _ => False

/-- `OTSnd` takes all of `n` bytes. -/
def SendEnv.takesAll (env : SendEnv) (n : ℕ) : Bool :=
  n == 0 || canSend env.epState && match env.result with
    | .sent m => n ≤ m
    | _ => false

/-- A turn completes the handshake although the peer has closed: the engine is open, or the last
bytes of the client's Finished are sent. -/
def OpensLate (G : Engine E) (conn : Conn E) : Action → Prop
  | .turn env =>
    let flags := G.currentState conn.eng
    conn.state = .handshaking ∧ conn.peerClosed = true ∧ ¬HandshakeExpired conn env ∧
      ¬(conn.nfDisconnect = true ∧ conn.discConsumed = false) ∧
      (conn.tls13Mode = .off ∧ flags.closed = false ∧
          (flags.sendapp = true ∨ flags.recvapp = true) ∨
        conn.tls13Mode = .trying ∧ ∃ hs ∈ conn.hs13, hs.state = .complete ∧
          env.sendHs.takesAll (hs.msgLen - hs.msgOffset) = true)
  | _ => False

/-- A turn falls back to TLS 1.2 on another endpoint although the peer has closed: nothing of
`msg_buf` is left, and the bytes received make the TLS 1.3 handshake give up. -/
def FallsBackLate (C : Crypto) (conn : Conn E) : Action → Prop
  | .turn env => conn.state = .handshaking ∧ conn.tls13Mode = .trying ∧ conn.peerClosed = true ∧
      ¬HandshakeExpired conn env ∧ ¬(conn.nfDisconnect = true ∧ conn.discConsumed = false) ∧
      env.cfgOk = true ∧ env.openErr = kOTNoError ∧
      ∃ hs ∈ conn.hs13, env.sendHs.takesAll (hs.msgLen - hs.msgOffset) = true ∧
        (tls13HandshakeStep C conn.serverName env.rnd hs.allSent conn.recvBuf).res = .fallback12
  | _ => False

instance (conn : Conn E) (env : PumpEnv) : Decidable (HandshakeExpired conn env) :=
  inferInstanceAs (Decidable (_ > _))

instance (G : Engine E) (conn : Conn E) (a : Action) : Decidable (ClosesEarly G conn a) :=
  match a with
  | .turn _ => inferInstanceAs (Decidable (_ ∧ _))
  | .start _ | .enter | .write _ | .read _ | .close | .dispose | .notify .. | .others .. =>
    instDecidableFalse

instance (G : Engine E) (conn : Conn E) (a : Action) : Decidable (OpensLate G conn a) :=
  match a with
  | .turn _ => inferInstanceAs (Decidable (_ ∧ _))
  | .start _ | .enter | .write _ | .read _ | .close | .dispose | .notify .. | .others .. =>
    instDecidableFalse

instance (C : Crypto) (conn : Conn E) (a : Action) : Decidable (FallsBackLate C conn a) :=
  match a with
  | .turn _ => inferInstanceAs (Decidable (_ ∧ _))
  | .start _ | .enter | .write _ | .read _ | .close | .dispose | .notify .. | .others .. =>
    instDecidableFalse

/-- An action that keeps to a policy. -/
structure Policy.Meets (C : Crypto) (G : Engine E) (π : Policy) (conn : Conn E) (a : Action) :
    Prop where
  drained : π.drained → Drains C conn a
  unclosed : π.unclosed → ¬StartsClosed conn a
  established : π.established →
    ¬ClosesEarly G conn a ∧ ¬OpensLate G conn a ∧ ¬FallsBackLate C conn a

theorem Policy.any_meets (C : Crypto) (G : Engine E) (conn : Conn E) (a : Action) :
    Policy.any.Meets C G conn a :=
  ⟨fun h => h.elim, fun h => h.elim, fun h => h.elim⟩

/-! ### Failing, receiving and sending -/

section

variable {C : Crypto} {π : Policy} {conn : Conn E}

theorem effects_eventBump (conn : Conn E) {e : OstlsEvent} (he : e ≠ .closed) :
    Effects C π conn.link (eventBump conn e).link := by
  unfold eventBump
  split_ifs
  · have h : Conn.link { conn with bestEvent := e } = { conn.link with told := false } :=
      congrArg (fun b => { conn.link with told := b }) (decide_eq_false he)
    rw [h]
    exact .single .untold
  · exact .refl

/-- Effects with an event reported at the end. -/
theorem Effects.bump {s : Link} (h : Effects C π s conn.link) {e : OstlsEvent}
    (he : e ≠ .closed) : Effects C π s (eventBump conn e).link :=
  h.trans (effects_eventBump conn he)

/-- Reporting a failure whatever was to be reported before. -/
theorem effects_reportFailed (conn : Conn E) :
    Effects C π conn.link (Conn.link { conn with bestEvent := .failed }) :=
  .single .untold

variable (conn) in
theorem effects_reportClosed (hst : conn.link.state.isUp = true ∨
      conn.link.state = .handshaking ∧ conn.link.mode = .off)
    (hd : π.drained → conn.link.mode ≠ .off → conn.link.Idle)
    (he : π.established → conn.link.state.isUp = true ∨ conn.link.handshakeDone = true) :
    Effects C π conn.link (eventBump { conn with state := .closed } .closed).link := by
  unfold eventBump
  split_ifs
  · exact .single (.closed hst hd he)
  · exact .single (.closed hst hd he)

theorem link_ostlsFail {osErr : ℕ} (otErr brErr : ℤ) (hst : conn.link.state ≠ .closed) :
    (ostlsFail conn osErr otErr brErr).link = conn.link.fail osErr := by
  have hst : conn.state ≠ .closed := hst
  have h : (ostlsFail conn osErr otErr brErr).link = { conn.link.fail osErr with
      state := if conn.state = .failed ∨ conn.state = .closed then conn.state else .failed } := rfl
  rw [h]
  split_ifs with hf
  · rw [hf.resolve_right hst]
    rfl
  · rfl

theorem effects_ostlsFail {osErr : ℕ} (otErr brErr : ℤ) (hst : conn.link.state ≠ .closed)
    (herr : osErr ≠ asyncOk) :
    Effects C π conn.link (ostlsFail conn osErr otErr brErr).link := by
  rw [link_ostlsFail otErr brErr hst]
  exact .single (.failed hst herr)

theorem effects_peerDisconnect (hst : conn.link.state ≠ .closed) :
    Effects C π conn.link (peerDisconnect conn).link :=
  let disconnected : Conn E := { conn with discConsumed := true }
  have hst' : disconnected.link.state ≠ .closed := hst
  effects_ostlsFail tDisconnect 0 hst' (by decide)

theorem effects_recordFail (brErr : ℤ) (hst : conn.link.state ≠ .closed) :
    Effects C π conn.link (recordFail conn brErr).link :=
  (effects_ostlsFail kOTNoError brErr hst (by decide)).trans (effects_reportFailed _)

/-- A part of a step: a sequence of effects, of none when it had nothing to do. -/
structure Part (C : Crypto) (π : Policy) (conn : Conn E) (r : Conn E × Did) : Prop where
  effects : Effects C π conn.link r.1.link
  idle : r.2 = .idle → r.1.link = conn.link

theorem Part.none : Part C π conn (conn, .idle) := ⟨.refl, fun _ => rfl⟩

/-- A part that only changes what is outside the link. -/
theorem Part.same {r : Conn E × Did} (h : r.1.link = conn.link) : Part C π conn r :=
  ⟨by rw [h], fun _ => h⟩

/-- A part that did something. -/
theorem Part.did {r : Conn E × Did} (h : Effects C π conn.link r.1.link)
    (hr : r.2 ≠ .idle) : Part C π conn r :=
  ⟨h, fun h => absurd h hr⟩

theorem Part.orElse {r : Conn E × Did} {next : Conn E → Conn E × Did} (h : Part C π conn r)
    (hnext : r.2 = .idle → ∀ conn', conn'.link = conn.link → Part C π conn' (next conn')) :
    Part C π conn (orElse r next) := by
  unfold MacTLS.orElse
  split_ifs with hr
  · have hsame := h.idle hr
    have hpart := hnext hr _ hsame
    exact ⟨hsame ▸ hpart.effects, fun hidle => (hpart.idle hidle).trans hsame⟩
  · exact h

theorem Link.Live.ne_closed {s : Link} (h : s.Live) : s.state ≠ .closed := by
  intro hst
  obtain h | h := h <;> rw [hst] at h <;> cases h

theorem part_otRcvNothing (r : RcvResult) (hst : conn.link.Live) :
    Part C π conn (otRcvNothing conn r) := by
  unfold otRcvNothing
  split
  · exact .did (.single (.peerCloses hst)) (by simp)
  · split_ifs
    · exact .did (.single (.peerCloses hst)) (by simp)
    · exact .same rfl
  · exact .did (.single (.peerCloses hst)) (by simp)
  · exact .did (effects_peerDisconnect hst.ne_closed) (by simp)
  · exact .none
  · exact .did (effects_ostlsFail _ _ hst.ne_closed (by decide)) (by simp)

theorem Link.Carried.ne_closed {s : Link} (h : s.Carried) : s.state ≠ .closed := h.2.ne_closed

theorem Link.Flowing.carried {s : Link} (h : s.Flowing) : s.Carried := ⟨h.1, .inr h.2⟩

variable (C π) in
/-- What is received fits the buffer. -/
theorem pumpOtRecvTls13_cases (env : RecvEnv) (hc : conn.link.Carried) :
    let r := pumpOtRecvTls13 conn env
    Part C π conn r ∨ ∃ bytes, r.2 = .progress ∧
      r.1.link = { conn.link with recvBuf := conn.recvBuf ++ bytes } ∧
      (conn.recvBuf ++ bytes).length ≤ sslIobufSize := by
  unfold pumpOtRecvTls13
  split_ifs with hfull
  · exact .inl .none
  · exact .inl (.same rfl)
  · split
    · refine .inr ⟨_, rfl, rfl, ?_⟩
      rw [List.length_append, List.length_take]
      omega
    · exact .inl (part_otRcvNothing _ hc.2)

theorem part_pumpOtRecvTls13 (env : RecvEnv) (hf : conn.link.Flowing) :
    Part C π conn (pumpOtRecvTls13 conn env) := by
  obtain h | ⟨bytes, hdid, hlink, hfit⟩ := pumpOtRecvTls13_cases C π env hf.carried
  · exact h
  · exact .did (by rw [hlink]; exact .single (.received hf hfit)) (by rw [hdid]; simp)

variable (C π) in
/-- What `ostls_send_raw` can do. -/
theorem ostlsSendRaw_cases (conn : Conn E) (buf : Bytes) (env : SendEnv) (hbuf : buf ≠ [])
    (hst : conn.link.state ≠ .closed) :
    let r := ostlsSendRaw conn buf env
    (r.2 = none ∧ Effects C π conn.link r.1.link) ∨
      (r.2 = some 0 ∧ env.takesNothing buf = true ∧ (r.1.link = conn.link ∨
        env.findsRelease = true ∧ r.1.link = { conn.link with peerClosed := true })) ∨
      ∃ n, canSend env.epState = true ∧ env.result = .sent n ∧ r.2 = some (min n buf.length) ∧
        r.1.link = conn.link.sends (buf.take n) := by
  have hlen : buf.length ≠ 0 := fun h => hbuf (List.length_eq_zero_iff.1 h)
  unfold ostlsSendRaw
  dsimp only
  rw [if_neg hlen]
  by_cases hcan : canSend env.epState = true
  · rw [if_neg (by simp [hcan])]
    cases hres : env.result with
    | sent n => exact .inr (.inr ⟨n, hcan, rfl, rfl, rfl⟩)
    | flowErr => exact .inr (.inl ⟨rfl, by simp [SendEnv.takesNothing, hres], .inl rfl⟩)
    | lookErr look =>
      cases look with
      | ordrel =>
        exact .inr (.inl ⟨rfl, by simp [SendEnv.takesNothing, hres],
          .inr ⟨by simp [SendEnv.findsRelease, hres, hcan], rfl⟩⟩)
      | disconnect => exact .inl ⟨rfl, effects_peerDisconnect hst⟩
      | other code => exact .inr (.inl ⟨rfl, by simp [SendEnv.takesNothing, hres], .inl rfl⟩)
    | err code => exact .inl ⟨rfl, effects_ostlsFail _ _ hst (by decide)⟩
  · rw [if_pos (by simp [hcan])]
    exact .inr (.inl ⟨rfl, by simp [SendEnv.takesNothing, hcan], .inl rfl⟩)

/-- With nothing to send, nothing happens. -/
theorem ostlsSendRaw_nil (conn : Conn E) (env : SendEnv) :
    ostlsSendRaw conn [] env = (conn, some 0) :=
  if_pos rfl

/-! ### Flushing -/

variable (C π) in
/-- Flushing handshake bytes changes their offset, and goes on only when all are sent. -/
theorem flushHandshake_cases (hc : conn.link.Carried) {hs : HsCtx} (h13 : conn.hs13 = some hs)
    (env : SendEnv) :
    let r := flushHandshake conn hs env
    Effects C π conn.link r.1.link ∧ (r.2 = none →
      env.takesAll (hs.msgLen - hs.msgOffset) = true ∧ ∃ sent, r.1.link = { conn.link with
        hs13 := some hs.allSent, history := { conn.history with sent := sent } }) := by
  unfold flushHandshake
  dsimp only
  split_ifs with hlt
  · have hslice : slice hs.msgBuf hs.msgOffset (hs.msgLen - hs.msgOffset) = hs.unsent := rfl
    -- nothing taken: the offset is written back as it was
    have hwait : ∀ {conn' : Conn E}, Effects C π conn.link conn'.link →
        conn'.link.hs13 = conn.link.hs13 →
        Effects C π conn.link (Conn.link { conn' with hs13 := some (hs.took 0) }) := by
      intro conn' heff hsame
      have hlink : Conn.link { conn' with hs13 := some (hs.took 0) } =
          { conn'.link with hs13 := some hs } := rfl
      rw [hlink, ← h13, show conn.hs13 = conn'.link.hs13 from hsame.symm]
      exact heff
    rw [hslice]
    by_cases hbuf : hs.unsent = []
    · -- not in a run: `msg_buf` holds at least `msg_len` bytes
      rw [hbuf, ostlsSendRaw_nil]
      dsimp only
      rw [if_pos (by omega)]
      exact ⟨hwait .refl rfl, fun h => by cases h⟩
    · obtain ⟨hnone, heff⟩ | ⟨hsome, -, hlink⟩ | ⟨n, hcan, hres, hsome, hlink⟩ :=
        ostlsSendRaw_cases C π conn hs.unsent env hbuf hc.ne_closed
      all_goals
        generalize ostlsSendRaw conn hs.unsent env = r at *
        obtain ⟨conn', sent⟩ := r
      · subst hnone
        exact ⟨heff, fun h => by cases h⟩
      · subst hsome
        dsimp only at hlink ⊢
        rw [if_pos (by omega)]
        refine ⟨?_, fun h => by cases h⟩
        obtain hlink | ⟨-, hlink⟩ := hlink
        · exact hwait (by rw [hlink]) (by rw [hlink])
        · exact hwait (by rw [hlink]; exact .single (.peerCloses hc.2)) (by rw [hlink])
      · subst hsome
        dsimp only at hlink ⊢
        have hto : Conn.link { conn' with hs13 := some (hs.took (min n hs.unsent.length)) } =
            { conn.link.sends (hs.unsent.take n) with
              hs13 := some (hs.took (min n hs.unsent.length)) } := by
          rw [← hlink]; rfl
        have heff : Effects C π conn.link
            (Conn.link { conn' with hs13 := some (hs.took (min n hs.unsent.length)) }) := by
          rw [hto]
          exact .single (.sentHandshake hc h13 hlt)
        -- a part went: it goes on only when that was the rest
        by_cases hmore : hs.msgOffset + min n hs.unsent.length < hs.msgLen
        · rw [if_pos hmore]
          exact ⟨heff, fun h => by cases h⟩
        · rw [if_neg hmore]
          have hall : env.takesAll (hs.msgLen - hs.msgOffset) = true := by
            have hle : hs.msgLen - hs.msgOffset ≤ n := by omega
            simp [SendEnv.takesAll, hcan, hres, hle]
          have hlen : hs.unsent.length ≤ hs.msgLen - hs.msgOffset := List.length_take_le _ _
          have hsame : hs.took (min n hs.unsent.length) = hs.allSent := by
            unfold HsCtx.took HsCtx.allSent
            congr 1
            omega
          exact ⟨heff, fun _ => ⟨hall, _, hto.trans (congrArg (fun hs' =>
            { conn.link.sends (hs.unsent.take n) with hs13 := some hs' }) hsame)⟩⟩
  · have hall : env.takesAll (hs.msgLen - hs.msgOffset) = true := by
      rw [Nat.sub_eq_zero_of_le (Nat.le_of_not_lt hlt)]
      rfl
    have hsame : hs.allSent = hs := by
      unfold HsCtx.allSent
      rw [Nat.max_eq_left (Nat.le_of_not_lt hlt)]
    refine ⟨.refl, fun _ => ⟨hall, conn.history.sent, ?_⟩⟩
    dsimp only
    rw [hsame, ← h13]
    rfl

variable (C π) in
/-- Flushing a record goes on when there was none, or `OTSnd` took nothing of it. -/
theorem flushRecord_cases (hc : conn.link.Carried) (env : SendEnv) :
    let r := flushRecord conn env
    Effects C π conn.link r.1.link ∧ (r.2 = none →
      (conn.t13SendOff < conn.t13SendLen → env.takesNothing conn.link.unsent = true) ∧
        ∃ sent pc, (pc = conn.peerClosed ∨
            conn.t13SendOff < conn.t13SendLen ∧ env.findsRelease = true ∧ pc = true) ∧
          r.1.link = { conn.link with
            peerClosed := pc, history := { conn.history with sent := sent } }) := by
  have hrefl : ∃ sent pc, (pc = conn.peerClosed ∨
        conn.t13SendOff < conn.t13SendLen ∧ env.findsRelease = true ∧ pc = true) ∧
      conn.link = { conn.link with
        peerClosed := pc, history := { conn.history with sent := sent } } :=
    ⟨conn.history.sent, conn.peerClosed, .inl rfl, rfl⟩
  unfold flushRecord
  dsimp only
  split_ifs with hlt
  · have hslice : slice conn.t13SendRec conn.t13SendOff (conn.t13SendLen - conn.t13SendOff) =
        conn.link.unsent := rfl
    rw [hslice]
    by_cases hbuf : conn.link.unsent = []
    · rw [hbuf, ostlsSendRaw_nil]
      dsimp only
      rw [if_neg (by omega), if_neg (Nat.lt_irrefl 0)]
      exact ⟨.refl, fun _ => ⟨fun _ => rfl, hrefl⟩⟩
    · obtain ⟨hnone, heff⟩ | ⟨hsome, hnothing, hlink⟩ | ⟨n, -, hres, hsome, hlink⟩ :=
        ostlsSendRaw_cases C π conn conn.link.unsent env hbuf hc.ne_closed
      all_goals
        generalize ostlsSendRaw conn conn.link.unsent env = r at *
        obtain ⟨conn', sent⟩ := r
      · subst hnone
        exact ⟨heff, fun h => by cases h⟩
      · subst hsome
        dsimp only at hlink ⊢
        have hoff : conn'.t13SendOff = conn.t13SendOff := by
          obtain hlink | ⟨-, hlink⟩ := hlink <;> exact (congrArg Link.sendOff hlink :)
        have hlen : conn'.t13SendLen = conn.t13SendLen := by
          obtain hlink | ⟨-, hlink⟩ := hlink <;> exact (congrArg Link.sendLen hlink :)
        rw [if_neg (by omega), if_neg (Nat.lt_irrefl 0)]
        have hsame : Conn.link { conn' with t13SendOff := conn'.t13SendOff + 0 } = conn'.link := rfl
        rw [hsame]
        obtain hlink | ⟨hrel, hlink⟩ := hlink <;> rw [hlink]
        · exact ⟨.refl, fun _ => ⟨fun _ => hnothing, hrefl⟩⟩
        · exact ⟨.single (.peerCloses hc.2),
            fun _ => ⟨fun _ => hnothing, conn.history.sent, true, .inr ⟨hlt, hrel, rfl⟩, rfl⟩⟩
      · subst hsome
        dsimp only at hlink ⊢
        have hlen : conn'.t13SendLen = conn.t13SendLen := (congrArg Link.sendLen hlink :)
        have hoff : conn'.t13SendOff = conn.t13SendOff := (congrArg Link.sendOff hlink :)
        have hto : Conn.link { conn' with
              t13SendOff := conn'.t13SendOff + min n conn.link.unsent.length } =
            { conn.link.sends (conn.link.unsent.take n) with
              sendOff := conn.link.sendOff + min n conn.link.unsent.length } := by
          rw [← hlink, show conn.link.sendOff = conn'.t13SendOff from hoff.symm]
          rfl
        have heff : Effects C π conn.link (Conn.link { conn' with
              t13SendOff := conn'.t13SendOff + min n conn.link.unsent.length }) := by
          rw [hto]
          exact .single (.sentRecord hc hlt)
        -- the rest of a record went: it is done, and the buffer is free for the next
        by_cases hall : conn'.t13SendOff + min n conn.link.unsent.length ≥ conn'.t13SendLen
        · rw [if_pos hall, if_pos (by omega)]
          refine ⟨heff.trans ?_, fun h => by cases h⟩
          have hc' : (Conn.link { conn' with
              t13SendOff := conn'.t13SendOff + min n conn.link.unsent.length }).Carried := by
            rw [hto]; exact hc
          exact Effects.bump (.single (.recordDone hc' hall)) (by decide)
        · rw [if_neg hall]
          refine ⟨heff, fun hnone => ⟨fun _ => ?_, ?_⟩⟩
          · -- nothing went, and the buffer is not empty
            have h0 : min n conn.link.unsent.length = 0 := by
              by_contra h
              rw [if_pos (Nat.pos_of_ne_zero h)] at hnone
              cases hnone
            have hpos : 0 < conn.link.unsent.length := List.length_pos_iff.2 hbuf
            have hn : n = 0 := by omega
            simp [SendEnv.takesNothing, hres, hn]
          · have h0 : min n conn.link.unsent.length = 0 := by
              by_contra h
              rw [if_pos (Nat.pos_of_ne_zero h)] at hnone
              cases hnone
            exact ⟨_, conn.peerClosed, .inl rfl, by rw [hto, h0]; rfl⟩
  · exact ⟨.refl, fun _ => ⟨fun h => absurd h hlt, hrefl⟩⟩

/-! ### The open phase -/

variable (conn) in
theorem effects_pumpTls13DeliverPlain (hf : conn.link.Flowing) {hs : HsCtx}
    (h13 : conn.hs13 = some hs) :
    Effects C π conn.link (pumpTls13DeliverPlain conn hs).1.link := by
  unfold pumpTls13DeliverPlain
  dsimp only
  split_ifs with hpend
  · exact .refl
  · exact .refl
  · exact Effects.bump (.single (.delivered hf h13 (Nat.lt_of_sub_ne_zero hpend))) (by decide)

theorem effects_recordData (hf : conn.link.Flowing) {hs : HsCtx} (h13 : conn.hs13 = some hs)
    (hle : conn.t13PlainLen ≤ conn.t13PlainOff) {plen : ℕ} (hplen : plen ≤ hs.plainBuf.length) :
    Effects C π conn.link (recordData conn hs plen).link :=
  .head (.dataStaged hf h13 hle hplen) (effects_pumpTls13DeliverPlain { conn with
    t13PlainLen := plen
    t13PlainOff := 0
    history := { conn.history with
      decrypted := conn.history.decrypted ++ [hs.plainBuf.take plen] } } hf h13)

theorem effects_recordAlert (hf : conn.link.Flowing) {hs : HsCtx} {plen : ℕ}
    (hd : π.drained → plen ≥ 2 ∧ byteAt hs.plainBuf 1 = 0 → conn.link.Idle) :
    Effects C π conn.link (recordAlert conn hs plen).link := by
  unfold recordAlert
  by_cases hnotify : plen ≥ 2 ∧ byteAt hs.plainBuf 1 = 0
  · rw [if_pos hnotify]
    have hup : conn.state.isUp = true := hf.2
    dsimp only
    rw [if_pos hup]
    exact .head (.peerCloses (.inr hup)) (effects_reportClosed { conn with peerClosed := true }
      (.inl hup) (fun h _ => hd h hnotify) fun _ => .inl hup)
  · rw [if_neg hnotify]
    exact effects_recordFail _ hf.carried.ne_closed

theorem effects_recordPostHandshake {p : Proc E} (hf : p.conn.link.Flowing) {hs : HsCtx}
    (h13 : p.conn.hs13 = some hs) (hle : p.conn.t13PlainLen ≤ p.conn.t13PlainOff) (plen now : ℕ) :
    Effects C π p.conn.link (recordPostHandshake C p hs plen now).conn.link := by
  have hframe : PostFrame hs (tls13HandlePostHandshake C hs (hs.plainBuf.take plen)).2 := by
    obtain ⟨ticket, ticketValid, error, h⟩ :=
      tls13HandlePostHandshake_frame C hs (hs.plainBuf.take plen)
    rw [h]
    rfl
  unfold recordPostHandshake
  dsimp only
  generalize (tls13HandlePostHandshake C hs (hs.plainBuf.take plen)).2 = hs' at hframe ⊢
  split_ifs
  · have hframe' : PostFrame hs { hs' with ticketValid := false } := by rw [PostFrame, hframe]
    exact .single (.recordTaken (n := 0) hf h13 hle hframe')
  · exact .single (.recordTaken (n := 0) hf h13 hle hframe)

/-- The content of a decrypted record lies in the buffer it was decrypted to. -/
theorem le_length_of_decrypt {ctx : RecordCtx} {c b : Bytes} {n : ℕ} {ct : UInt8}
    (h : (tls13RecordDecrypt C ctx c).ret = some (n, ct)) :
    n ≤ (blit b 0 (tls13RecordDecrypt C ctx c).buf).length := by
  have hle := tls13RecordDecrypt_len_le h
  have hlen := length_tls13RecordDecrypt_buf C ctx (c := c) (by omega)
  simp only [blit, List.length_append, List.length_take, List.length_drop]
  omega

theorem effects_pumpTls13ConsumeRecord {p : Proc E} (hf : p.conn.link.Flowing) {hs : HsCtx}
    (h13 : p.conn.hs13 = some hs) (hle : p.conn.t13PlainLen ≤ p.conn.t13PlainOff) (now : ℕ)
    (hd : π.drained → frontCloseNotify C hs p.conn.recvBuf = true → p.conn.link.Idle) :
    Effects C π p.conn.link (pumpTls13ConsumeRecord C p hs now).1.conn.link := by
  have hst := hf.carried.ne_closed
  rw [pumpTls13ConsumeRecord_eq]
  split_ifs with h5 hbig hwait
  · exact .refl
  · exact effects_recordFail _ hst
  · exact .refl
  · have hnotify : frontCloseNotify C hs p.conn.recvBuf =
        match (tls13RecordDecrypt C hs.readCtx
          (slice p.conn.recvBuf 5 (getU16 p.conn.recvBuf 3))).ret with
        | none => false
        | some (plen, inner) => inner == tls13CtAlert && plen ≥ 2 &&
          byteAt (blit hs.plainBuf 0 (tls13RecordDecrypt C hs.readCtx
            (slice p.conn.recvBuf 5 (getU16 p.conn.recvBuf 3))).buf) 1 == 0 := by
      unfold frontCloseNotify
      dsimp only
      rw [decide_eq_true ⟨by omega, by omega, by omega⟩, Bool.true_and]
    have hlen := @le_length_of_decrypt C hs.readCtx
      (slice p.conn.recvBuf 5 (getU16 p.conn.recvBuf 3)) hs.plainBuf
    generalize tls13RecordDecrypt C hs.readCtx
      (slice p.conn.recvBuf 5 (getU16 p.conn.recvBuf 3)) = d at hnotify hlen ⊢
    unfold recordOpened
    dsimp only
    -- the context behind the record, under one name
    obtain ⟨hs', hhs'⟩ :
        ∃ x : HsCtx, x = { hs with readCtx := d.ctx, plainBuf := blit hs.plainBuf 0 d.buf } :=
      ⟨_, rfl⟩
    rw [← hhs']
    have hbuf : hs'.plainBuf = blit hs.plainBuf 0 d.buf := by rw [hhs']
    have hframe : PostFrame hs hs' := by rw [hhs']; rfl
    rw [← hbuf] at hnotify hlen
    -- first the record leaves the buffer, then its content acts
    have htaken : Effect C π p.conn.link (p.onConn fun conn => { conn with
        hs13 := some hs', recvBuf := p.conn.recvBuf.drop (5 + getU16 p.conn.recvBuf 3) }).conn.link :=
      .recordTaken hf h13 hle hframe
    generalize hp' : (p.onConn fun conn => { conn with
      hs13 := some hs', recvBuf := p.conn.recvBuf.drop (5 + getU16 p.conn.recvBuf 3) }) = p'
      at htaken ⊢
    have hf' : p'.conn.link.Flowing := by rw [← hp']; exact hf
    have h13' : p'.conn.hs13 = some hs' := by rw [← hp']; rfl
    have hle' : p'.conn.t13PlainLen ≤ p'.conn.t13PlainOff := by rw [← hp']; exact hle
    have hidle : p.conn.link.Idle → p'.conn.link.Idle := by rw [← hp']; exact id
    refine .head htaken ?_
    cases hret : d.ret with
    | none => exact effects_recordFail _ hf'.carried.ne_closed
    | some r =>
      obtain ⟨plen, inner⟩ := r
      dsimp only
      split_ifs with hdata halert
      · exact effects_recordData hf' h13' hle' (hlen hret)
      · refine effects_recordAlert hf' fun hdr hn => hidle (hd hdr ?_)
        rw [hnotify, hret]
        simp [halert, hn]
      · exact effects_recordPostHandshake hf' h13' hle' _ _
      · exact .refl

/-- The write queue always fits one record. -/
theorem effects_pumpTls13BuildSend (hf : conn.link.Flowing) {hs : HsCtx}
    (h13 : conn.hs13 = some hs) :
    Effects C π conn.link (pumpTls13BuildSend C conn hs).1.link := by
  unfold pumpTls13BuildSend
  split_ifs with hfly
  · exact .refl
  · exact .refl
  · have hmin : min conn.writeBuf.avail ostlsWriteBufSize = conn.writeBuf.avail := by
      have := conn.writeBuf.fits
      omega
    have hall : conn.writeBuf.toList.take conn.writeBuf.avail = conn.writeBuf.toList :=
      List.take_of_length_le (Nat.le_of_eq conn.writeBuf.length_toList)
    dsimp only
    rw [hmin, hall]
    exact .single (.built hf h13 (Nat.le_of_not_lt hfly))

theorem part_receiveOrClose (hf : conn.link.Flowing) (env : RecvEnv)
    (hd : π.drained → conn.link.peerClosed = true ∧ conn.link.recvBuf.length < 5 → conn.link.Idle) :
    Part C π conn (receiveOrClose conn env) := by
  unfold receiveOrClose
  refine .orElse ?_ fun _ conn h => ?_
  · split_ifs
    · exact .none
    · exact part_pumpOtRecvTls13 env hf
  rw [← h] at hf hd
  split_ifs with hend
  · refine .did (effects_reportClosed _ (.inl hf.2) ?_ fun _ => .inl hf.2) (by simp)
    exact fun h _ => hd h ⟨hend.1, hend.2.2.1⟩
  · exact .none

theorem effects_pumpTls13Open {p : Proc E} (hf : p.conn.link.Flowing) {hs : HsCtx}
    (h13 : p.conn.hs13 = some hs) (env : PumpEnv)
    (hd : π.drained → p.conn.t13SendOff < p.conn.t13SendLen → ¬p.conn.link.PeerEnds C hs) :
    Effects C π p.conn.link (pumpTls13Open C p hs env).1.conn.link := by
  unfold pumpTls13Open
  dsimp only
  split_ifs with hplain hbuild hrec
  · exact effects_pumpTls13DeliverPlain _ hf h13
  · exact effects_pumpTls13BuildSend hf h13
  -- nothing is staged and nothing can be built: what closes the connection finds it idle
  all_goals
    have hle : p.conn.t13PlainLen ≤ p.conn.t13PlainOff := Nat.le_of_not_lt hplain
    have hidle : π.drained → frontCloseNotify C hs p.conn.recvBuf = true ∨
        p.conn.peerClosed = true ∧ p.conn.recvBuf.length < 5 → p.conn.link.Idle := by
      intro hdr hends
      have hfly : ¬p.conn.t13SendOff < p.conn.t13SendLen := fun h => hd hdr h ⟨hle, hends⟩
      refine ⟨?_, Nat.le_of_not_lt hfly⟩
      by_contra h
      have havail : p.conn.writeBuf.avail ≠ 0 := h
      refine hbuild ⟨Nat.pos_of_ne_zero havail, Nat.le_of_not_lt hfly, ?_⟩
      unfold pumpTls13BuildSend
      rw [if_neg hfly, if_neg havail]
  · exact effects_pumpTls13ConsumeRecord hf h13 hle _ fun hdr h => hidle hdr (.inl h)
  · exact (part_receiveOrClose hf _ fun hdr h => hidle hdr (.inr h)).effects

/-! ### The handshake phase -/

theorem link_closeProvider (conn : Conn E) : (closeProvider conn).link = conn.link.closeEp := by
  have h1 : conn.link.epOpen = conn.epOpen := rfl
  have h2 : conn.link.ep = conn.ep := rfl
  unfold closeProvider Link.closeEp
  rw [h1, h2]
  split_ifs
  · cases conn.ep <;> rfl
  · rfl

theorem link_forgetTls13 (conn : Conn E) : (forgetTls13 conn).link = conn.link.fellBack := by
  rw [Link.fellBack, ← link_closeProvider]
  rfl

/-- The fallback fails, or asks for another endpoint. -/
theorem link_ostlsFallbackToTls12 (env : PumpEnv) (hst : conn.link.state ≠ .closed) :
    (∃ osErr, osErr ≠ asyncOk ∧
        (ostlsFallbackToTls12 conn env).1.link = conn.link.fellBack.fail osErr) ∨
      env.cfgOk = true ∧ env.openErr = kOTNoError ∧
        (ostlsFallbackToTls12 conn env).1.link = conn.link.fellBack.opens := by
  have hst' : (forgetTls13 conn).link.state ≠ .closed := by
    rw [link_forgetTls13, Link.fellBack, Link.closeEp_state]
    exact hst
  unfold ostlsFallbackToTls12
  dsimp only
  split_ifs with hcfg hopen
  · exact .inl ⟨asyncOtConfigFail, by decide, by rw [link_ostlsFail _ _ hst', link_forgetTls13]⟩
  · exact .inl ⟨asyncOtOpenFail, by decide, by rw [link_ostlsFail _ _ hst', link_forgetTls13]⟩
  · exact .inr ⟨by simpa using hcfg, not_not.1 hopen, by rw [← link_forgetTls13]; rfl⟩

theorem effects_pumpTls13Handshake {p : Proc E} (hst : p.conn.state = .handshaking)
    (hmode : p.conn.tls13Mode = .trying) {hs : HsCtx} (h13 : p.conn.hs13 = some hs)
    (hflushed : hs.msgLen ≤ hs.msgOffset) (env : PumpEnv)
    (hp : π.established → hs.state = .complete → p.conn.peerClosed = true →
      p.conn.t13SendOff < p.conn.t13SendLen)
    (hb : π.established → env.cfgOk = true → env.openErr = kOTNoError →
      (tls13HandshakeStep C p.conn.serverName env.rnd hs p.conn.recvBuf).res = .fallback12 →
      p.conn.peerClosed = true → p.conn.t13SendOff < p.conn.t13SendLen) :
    Effects C π p.conn.link (pumpTls13Handshake C p hs env).1.conn.link := by
  unfold pumpTls13Handshake
  dsimp only
  have hh : Handshakes C p.conn.link hs
      (tls13HandshakeStep C p.conn.serverName env.rnd hs p.conn.recvBuf) :=
    ⟨hst, hmode, h13, hflushed, env.rnd, rfl⟩
  generalize tls13HandshakeStep C p.conn.serverName env.rnd hs p.conn.recvBuf = o at hh hb ⊢
  generalize hp' : (p.onConn fun conn => { conn with
    hs13 := some o.hs
    recvBuf := o.recv
    history := { conn.history with
      hsLog := conn.history.hsLog ++ o.log
      hsRecords := conn.history.hsRecords ++ queuedRecord o } }) = p'
  have hlink : p'.conn.link = p.conn.link.handshook o := by rw [← hp']; rfl
  have hc : p'.conn.link.Carried := by
    rw [hlink]
    exact ⟨fun h => (by cases hmode.symm.trans h), .inl hst⟩
  -- complete, and nothing of the flight left to send
  by_cases hdone : o.hs.state = .complete ∧ o.hs.msgOffset ≥ o.hs.msgLen
  · rw [if_pos hdone]
    unfold tls13Opened
    refine Effects.bump (Relation.ReflTransGen.single ?_) (by decide)
    have heff : Effect C π p.conn.link ((p.conn.link.handshook o).opened o.hs) :=
      .handshakeDone hh hdone.1 hdone.2 hp
    rw [← hlink] at heff
    exact heff
  · rw [if_neg hdone]
    have hnone : o.res ≠ .error ∧ o.res ≠ .fallback12 →
        Effect C π p.conn.link (p.conn.link.handshook o) := fun hres => by
      have heff := Effect.handshook (π := π) hh hres (.inl rfl)
      rwa [List.append_nil] at heff
    cases hres : o.res with
    | wantRead =>
      dsimp only
      -- more bytes come in, in the same turn
      obtain h | ⟨bytes, -, h, hfit⟩ := pumpOtRecvTls13_cases C π env.recv hc
      · refine .head (hnone (by simp [hres])) ?_
        rw [← hlink]
        exact h.effects
      · have hrecv : p'.conn.recvBuf = o.recv := by rw [← hp']; rfl
        rw [hrecv] at h hfit
        rw [h, hlink]
        exact .single (.handshook hh (by simp [hres]) (.inr ⟨hres, hfit⟩))
    | wantWrite => rw [hlink]; exact .single (hnone (by simp [hres]))
    | ok => rw [hlink]; exact .single (hnone (by simp [hres]))
    | fallback12 =>
      have hfb := link_ostlsFallbackToTls12 env hc.ne_closed
      have heff : Effects C π p.conn.link (ostlsFallbackToTls12 p'.conn env).1.link := by
        obtain ⟨e, he, hfb⟩ | ⟨hcfg, hopen, hfb⟩ := hfb <;> rw [hfb, hlink]
        · exact .single (.noFallback hh hres he)
        · exact .single (.fallback hh hres fun hπ => hb hπ hcfg hopen hres)
      dsimp only
      split_ifs
      · exact heff.trans (effects_reportFailed _)
      · exact heff
    | error =>
      have hfail : Effects C π p.conn.link
          (ostlsFail p'.conn asyncBearsslError kOTNoError o.hs.error).link := by
        rw [link_ostlsFail _ _ hc.ne_closed, hlink]
        exact .single (.handshakeFailed hh hres (by decide))
      exact hfail.trans (effects_reportFailed _)

/-- The phase after flushing. -/
theorem effects_pumpTls13Drive {p : Proc E} (hc : p.conn.link.Carried)
    (hflushed : ∀ hs, p.conn.hs13 = some hs → hs.msgLen ≤ hs.msgOffset) (env : PumpEnv)
    (hd : ∀ hs, p.conn.hs13 = some hs → π.drained → p.conn.link.Flowing →
      p.conn.t13SendOff < p.conn.t13SendLen → ¬p.conn.link.PeerEnds C hs)
    (hp : ∀ hs, p.conn.hs13 = some hs → π.established → hs.state = .complete →
      p.conn.state = .handshaking → p.conn.tls13Mode = .trying → p.conn.peerClosed = true →
      p.conn.t13SendOff < p.conn.t13SendLen)
    (hb : ∀ hs, p.conn.hs13 = some hs → π.established → p.conn.state = .handshaking →
      p.conn.tls13Mode = .trying → env.cfgOk = true → env.openErr = kOTNoError →
      (tls13HandshakeStep C p.conn.serverName env.rnd hs p.conn.recvBuf).res = .fallback12 →
      p.conn.peerClosed = true → p.conn.t13SendOff < p.conn.t13SendLen) :
    Effects C π p.conn.link (pumpTls13Drive C p env).1.conn.link := by
  unfold pumpTls13Drive
  split
  · exact .refl
  · rename_i hs h13
    split_ifs with hhs hup
    · refine effects_pumpTls13Handshake hhs.1 hhs.2 h13 (hflushed hs h13) env ?_ ?_
      · exact fun hπ hcomplete => hp hs h13 hπ hcomplete hhs.1 hhs.2
      · exact fun hπ => hb hs h13 hπ hhs.1 hhs.2
    · have hf : p.conn.link.Flowing := ⟨hc.1, hup⟩
      exact effects_pumpTls13Open hf h13 env fun hdr => hd hs h13 hdr hf
    · exact .refl

/-- `pump_tls13_step` is a sequence of effects; it only closes the connection over a record in flight
when `OTSnd` takes nothing of it. -/
theorem effects_pumpTls13Step {p : Proc E} (hc : p.conn.link.Carried) (env : PumpEnv)
    (hd : ∀ hs, p.conn.hs13 = some hs → π.drained → p.conn.link.Flowing →
      p.conn.t13SendOff < p.conn.t13SendLen →
      env.sendApp.takesNothing p.conn.link.unsent = true →
      ¬Link.PeerEnds C { p.conn.link with
        peerClosed := p.conn.peerClosed || env.sendApp.findsRelease } hs)
    (hp : ∀ hs, p.conn.hs13 = some hs → π.established → hs.state = .complete →
      p.conn.state = .handshaking → p.conn.tls13Mode = .trying → p.conn.peerClosed = true →
      env.sendHs.takesAll (hs.msgLen - hs.msgOffset) = false)
    (hb : ∀ hs, p.conn.hs13 = some hs → π.established → p.conn.state = .handshaking →
      p.conn.tls13Mode = .trying → env.cfgOk = true → env.openErr = kOTNoError →
      (tls13HandshakeStep C p.conn.serverName env.rnd hs.allSent p.conn.recvBuf).res = .fallback12 →
      p.conn.peerClosed = true → env.sendHs.takesAll (hs.msgLen - hs.msgOffset) = false) :
    Effects C π p.conn.link (pumpTls13Step C p env).1.conn.link := by
  unfold pumpTls13Step
  split
  · exact .refl
  · rename_i hs h13
    -- the handshake bytes
    have hflush := flushHandshake_cases C π hc h13 env.sendHs
    split <;> rename_i conn₁ h1 <;> rw [h1] at hflush
    · exact hflush.1
    · obtain ⟨heff₁, hnone⟩ := hflush
      obtain ⟨hall, sent, hlink₁⟩ := hnone rfl
      dsimp only at heff₁ hlink₁
      have hc₁ : conn₁.link.Carried := by rw [hlink₁]; exact hc
      -- then the record in flight
      have hflush := flushRecord_cases C π hc₁ env.sendApp
      split <;> rename_i conn₂ h2 <;> rw [h2] at hflush
      · exact heff₁.trans hflush.1
      · obtain ⟨heff₂, hnone⟩ := hflush
        obtain ⟨hnothing, sent', pc, hpc, hlink₂⟩ := hnone rfl
        dsimp only at heff₂ hlink₂
        refine (heff₁.trans heff₂).trans
          (effects_pumpTls13Drive (p := { p with conn := conn₂ }) ?_ ?_ env ?_ ?_ ?_)
        · show conn₂.link.Carried
          rw [hlink₂]; exact hc₁
        · intro hs' h13'
          have : conn₂.link.hs13 = some hs' := h13'
          rw [hlink₂, hlink₁] at this
          cases this
          exact Nat.le_max_right _ _
        · intro hs' h13' hdr hf hfly hends
          have h13' : conn₂.link.hs13 = some hs' := h13'
          have hfly : conn₂.link.sendOff < conn₂.link.sendLen := hfly
          change conn₂.link.Flowing at hf
          change conn₂.link.PeerEnds C hs' at hends
          -- seen from where the turn began: the flushes changed offsets and the peer's release only
          have hunsent : conn₁.link.unsent = p.conn.link.unsent := by rw [hlink₁]; rfl
          have hpc₁ : conn₁.peerClosed = p.conn.peerClosed := (congrArg Link.peerClosed hlink₁ :)
          rw [hlink₂, hlink₁] at h13' hfly hf hends
          have hnothing := hnothing (by
            change conn₁.link.sendOff < conn₁.link.sendLen
            rw [hlink₁]
            exact hfly)
          rw [hunsent] at hnothing
          cases h13'
          refine hd hs h13 hdr hf hfly hnothing ⟨hends.1, hends.2.imp id fun h => ⟨?_, h.2⟩⟩
          have hpc' : pc = true := h.1
          obtain hpc | ⟨-, hpc, -⟩ := hpc
          · rw [← hpc₁, ← hpc, hpc']
            rfl
          · show (p.conn.peerClosed || env.sendApp.findsRelease) = true
            rw [hpc, Bool.or_true]
        · intro hs' h13' hπ hcomplete hst hmode hpeer
          have h13' : conn₂.link.hs13 = some hs' := h13'
          have hst : conn₂.link.state = .handshaking := hst
          have hmode : conn₂.link.mode = .trying := hmode
          have hpeer : conn₂.link.peerClosed = true := hpeer
          show conn₂.link.sendOff < conn₂.link.sendLen
          rw [hlink₂] at hpeer
          obtain hpc | ⟨hfly, -⟩ := hpc
          · have hpc₁ : conn₁.peerClosed = p.conn.peerClosed := (congrArg Link.peerClosed hlink₁ :)
            rw [hlink₂, hlink₁] at h13' hst hmode
            cases h13'
            have hnot := hp hs h13 hπ hcomplete hst hmode (hpc₁ ▸ hpc ▸ hpeer)
            rw [hall] at hnot
            cases hnot
          · rw [hlink₂]
            exact hfly
        · intro hs' h13' hπ hst hmode hcfg hopen hres hpeer
          have h13' : conn₂.link.hs13 = some hs' := h13'
          have hst : conn₂.link.state = .handshaking := hst
          have hmode : conn₂.link.mode = .trying := hmode
          have hpeer : conn₂.link.peerClosed = true := hpeer
          have hres : (tls13HandshakeStep C conn₂.link.serverName env.rnd hs'
            conn₂.link.recvBuf).res = .fallback12 := hres
          show conn₂.link.sendOff < conn₂.link.sendLen
          rw [hlink₂] at hpeer
          obtain hpc | ⟨hfly, -⟩ := hpc
          · have hpc₁ : conn₁.peerClosed = p.conn.peerClosed := (congrArg Link.peerClosed hlink₁ :)
            rw [hlink₂, hlink₁] at h13' hst hmode hres
            cases h13'
            have hnot := hb hs h13 hπ hst hmode hcfg hopen hres (hpc₁ ▸ hpc ▸ hpeer)
            rw [hall] at hnot
            cases hnot
          · rw [hlink₂]
            exact hfly

/-! ### Connecting -/

section

variable {G : Engine E} {s : Link}

/-- Setting up TLS, from the moment TCP is up. -/
theorem effects_ostlsSetupBearssl {p : Proc E} (hst : s.state = .connecting)
    (hph : s.phase.adopted = true)
    (hlink : p.conn.link = { s with phase := .done, state := .handshaking }) (env : PumpEnv) :
    Effects C π s (ostlsSetupBearssl G p env).1.conn.link := by
  have hfail : ∀ {conn' : Conn E} {e : ℕ}, conn'.link = p.conn.link → e ≠ asyncOk →
      Effects C π s (ostlsFail conn' e kOTNoError 0).link := by
    intro conn' e h he
    rw [link_ostlsFail _ _ (by rw [h, hlink]; simp), h, hlink]
    exact .single (.setupFailed hst he)
  unfold ostlsSetupBearssl
  by_cases htime : env.timeOk = true
  · rw [if_neg (by simp [htime])]
    dsimp only
    by_cases hent : env.entropyOk = true
    · rw [if_neg (by simp [hent])]
      split <;> rename_i htry
      · -- TLS 1.3 is tried
        have hdis : s.disabled = false := by
          have h : p.conn.link.disabled = false := Bool.eq_false_iff.2 htry.2.1
          rw [hlink] at h
          exact h
        have hstart : ∀ {conn' : Conn E} (resuming : Bool) (offerTicket : Option SessionTicket)
            (age : ℕ), conn'.link = { p.conn.link with
              recvBuf := [], plainLen := 0, plainOff := 0, sendLen := 0, sendOff := 0
              mode := .trying, hs13 := some (Session.start true resuming offerTicket age).hs } →
            Effects C π s conn'.link := by
          intro conn' resuming offerTicket age h
          rw [h, hlink]
          exact .single (.tls13Starts hst hph hdis)
        unfold armTls13
        dsimp only
        split
        · exact hstart false none 0 rfl
        · exact hstart true _ _ rfl
      · have hoff : ∀ {conn' : Conn E}, conn'.link = { p.conn.link with
              recvBuf := [], plainLen := 0, plainOff := 0, sendLen := 0, sendOff := 0
              mode := .off } →
            Effects C π s conn'.link ∧ ∀ brErr, Effects C π s
              (ostlsFail conn' asyncClientResetFail kOTNoError brErr).link := by
          intro conn' h
          have heff : Effects C π s conn'.link := by
            rw [h, hlink]
            exact .single (.tls12Starts hst hph)
          have hst' : conn'.link.state ≠ .closed := by rw [h, hlink]; simp
          exact ⟨heff, fun brErr => heff.trans (effects_ostlsFail _ _ hst' (by decide))⟩
        have hoffer : ∀ q : Proc E, (offerSession G q).1.conn.link = q.conn.link := by
          intro q
          unfold offerSession
          split <;> rfl
        generalize hr : offerSession G _ = r
        have hoffered : r.1.conn.link = { p.conn.link with
            recvBuf := [], plainLen := 0, plainOff := 0, sendLen := 0, sendOff := 0
            mode := .off } := by
          rw [← hr]
          exact hoffer _
        split
        · exact (hoff hoffered).1
        · exact (hoff hoffered).2 (G.lastError (G.reset r.1.conn.eng r.1.conn.serverName r.2).2)
    · rw [if_pos (by simp [hent])]
      exact hfail rfl (by decide)
  · rw [if_pos (by simp [htime])]
    exact hfail rfl (by decide)

/-- A connect step fails, moves on, or waits. -/
theorem effects_pumpConnectStep {p : Proc E} (hst : p.conn.state = .connecting) (env : PumpEnv) :
    Effects C π p.conn.link (pumpConnectStep G p env).proc.conn.link ∧
      (pumpConnectStep G p env).event ≠ .closed := by
  -- the three ways out of most phases
  have hfail : ∀ {q : Proc E} {e : ℕ} {otErr : ℤ}, q.conn.link = p.conn.link → e ≠ asyncOk →
      Effects C π p.conn.link (connectFail q e otErr).proc.conn.link ∧
        (connectFail q e otErr).event ≠ .closed := by
    intro q e otErr h he
    refine ⟨?_, by simp [connectFail]⟩
    have hq : q.conn.link.state ≠ .closed := by
      rw [h]; exact fun h => by cases hst.symm.trans h
    rw [← h]
    exact effects_ostlsFail _ _ hq he
  have hnext : ∀ {q : Proc E} {ph : ConnectPhase}, q.conn.link = p.conn.link →
      p.conn.connectPhase.adopted = true → ph.adopted = true →
      Effects C π p.conn.link (connectNext q ph).proc.conn.link ∧
        (connectNext q ph).event ≠ .closed := by
    intro q ph h hph hph'
    refine ⟨?_, by simp [connectNext]⟩
    have hlink : (connectNext q ph).proc.conn.link = { p.conn.link with phase := ph } := by
      rw [← h]; rfl
    rw [hlink]
    exact .single (.bound hst hph hph')
  have hwait : Effects C π p.conn.link (connectWait p).proc.conn.link ∧
      (connectWait p).event ≠ .closed :=
    ⟨.refl, by simp [connectWait]⟩
  unfold pumpConnectStep
  split
  · exact hfail rfl (by decide)
  · split
    · exact hfail rfl (by decide)
    · split <;> rename_i hph
      · -- the open of the endpoint is complete, or failed
        unfold connectOpened
        split
        · exact hwait
        · rename_i harr
          have harr : p.conn.nfOpenComplete = true := by simpa using harr
          have hopen : ∀ {e : ℕ} {otErr : ℤ}, e ≠ asyncOk → Effects C π p.conn.link
              (connectFail (p.onConn fun conn => { conn with nfOpenComplete := false }) e
                otErr).proc.conn.link := by
            intro e otErr he
            obtain ⟨conn', hc⟩ : ∃ c : Conn E, c = { p.conn with nfOpenComplete := false } := ⟨_, rfl⟩
            have hst' : conn'.link.state ≠ .closed := by
              rw [hc]; exact fun h => by cases hst.symm.trans h
            have hlink : (connectFail (p.onConn fun conn => { conn with nfOpenComplete := false }) e
                otErr).proc.conn.link = Link.fail { p.conn.link with arrived := false } e :=
              Eq.trans (by rw [hc]; rfl) ((link_ostlsFail otErr 0 hst').trans (by rw [hc]; rfl))
            rw [hlink]
            exact .single (.notOpened hst he)
          dsimp only
          split
          · exact ⟨hopen (by decide), by simp [connectFail]⟩
          · split <;> rename_i hep
            · exact ⟨hopen (by decide), by simp [connectFail]⟩
            · exact ⟨.single (.adopted hst hph harr hep), by simp [connectNext]⟩
      · split
        · exact hfail rfl (by decide)
        · exact hnext rfl (by rw [hph]; rfl) rfl
      · split
        · exact hwait
        · dsimp only
          split
          · exact hfail rfl (by decide)
          · exact hnext rfl (by rw [hph]; rfl) rfl
      · split
        · exact hfail rfl (by decide)
        · split
          · exact hfail rfl (by decide)
          · exact hnext rfl (by rw [hph]; rfl) rfl
      · -- TCP is up, or the connect failed
        unfold connectDone
        split
        · exact hwait
        · dsimp only
          split
          · exact hfail rfl (by decide)
          · split
            · exact hfail rfl (by decide)
            · have hadopted : p.conn.link.phase.adopted = true := by
                rw [show p.conn.link.phase = _ from hph]; rfl
              have hsetup : Effects C π p.conn.link _ := effects_ostlsSetupBearssl (G := G)
                (p := (p.onConn fun conn => { conn with nfConnectComplete := false }).onConn
                  fun conn => { conn with connectPhase := .done, state := .handshaking })
                hst hadopted rfl env
              split <;> rename_i q h <;> rw [h] at hsetup
              · exact ⟨hsetup, by simp⟩
              · exact ⟨hsetup, by simp⟩
      · exact hwait
      · exact hwait

end

/-! ### The TLS 1.2 path -/

section

variable {G : Engine E}

theorem part_pumpOtSendFromBearssl (env : SendEnv) (hst : conn.link.Live) :
    Part C π conn (pumpOtSendFromBearssl G conn env) := by
  unfold pumpOtSendFromBearssl
  dsimp only
  split_ifs
  · exact .none
  · exact .same rfl
  · split
    · exact .none
    · exact .same rfl
    · exact .same rfl
    · exact .did (.single (.peerCloses hst)) (by simp)
    · exact .did (effects_peerDisconnect hst.ne_closed) (by simp)
    · exact .none
    · exact .did (effects_ostlsFail _ _ hst.ne_closed (by decide)) (by simp)

theorem part_pumpOtRecvIntoBearssl (env : RecvEnv) (hst : conn.link.Live) :
    Part C π conn (pumpOtRecvIntoBearssl G conn env) := by
  unfold pumpOtRecvIntoBearssl
  dsimp only
  split
  · exact .none
  · split
    · exact .same rfl
    · split
      · exact .same rfl
      · exact part_otRcvNothing _ hst

theorem part_pumpBearsslRecvappToRing (hup : conn.link.state.isUp = true)
    (hmode : conn.link.mode = .off) : Part C π conn (pumpBearsslRecvappToRing G conn) := by
  unfold pumpBearsslRecvappToRing
  dsimp only
  split_ifs
  · exact .none
  · exact .none
  · refine .did (Effects.bump (.single ?_) (by decide)) (by simp)
    exact .tls12Data (r := conn.readBuf.push (G.recvappBuf conn.eng)) (w := conn.writeBuf) hup hmode

theorem part_pumpRingToBearsslSendapp (hup : conn.link.state.isUp = true)
    (hmode : conn.link.mode = .off) : Part C π conn (pumpRingToBearsslSendapp G conn) := by
  have hdata : ∀ w, Effect C π conn.link { conn.link with writeBuf := w } :=
    fun w => .tls12Data (r := conn.readBuf) (w := w) hup hmode
  unfold pumpRingToBearsslSendapp
  dsimp only
  split_ifs
  · exact .none
  · exact .none
  · refine .did (Effects.bump (.single ?_) (by decide)) (by simp)
    exact hdata _
  · exact .did (.single (hdata _)) (by simp)

theorem waits_of_idle_pumpOtSendFromBearssl {env : SendEnv}
    (h : (pumpOtSendFromBearssl G conn env).2 = .idle) :
    env.waits (G.sendrecBuf conn.eng) = true := by
  unfold pumpOtSendFromBearssl at h
  unfold SendEnv.waits
  dsimp only at h
  split_ifs at h with hbuf hcan
  · simp [List.length_eq_zero_iff.1 hbuf]
  · split at h <;> simp_all

theorem part_bearsslMove (hst : conn.link.state.isUp = true ∨ conn.link.state = .handshaking)
    (hmode : conn.link.mode = .off) (flags : EngineFlags) (env : PumpEnv)
    (he : π.established → flags.recvapp = false → conn.link.peerClosed = true →
      (flags.sendrec = true → env.sendApp.waits (G.sendrecBuf conn.eng) = true) →
      conn.link.state.isUp = true ∨ conn.link.handshakeDone = true) :
    Part C π conn (bearsslMove G flags conn env) := by
  unfold bearsslMove
  refine .orElse ?_ fun hwait conn h => ?_
  · split_ifs
    · exact part_pumpOtSendFromBearssl _ hst.symm
    · exact .none
  replace he : π.established → flags.recvapp = false → conn.link.peerClosed = true →
      conn.link.state.isUp = true ∨ conn.link.handshakeDone = true := by
    rw [h]
    refine fun hπ hrecv hpeer => he hπ hrecv hpeer fun hsend => ?_
    rw [if_pos hsend] at hwait
    exact waits_of_idle_pumpOtSendFromBearssl hwait
  clear hwait
  rw [← h] at hst hmode
  refine .orElse ?_ fun _ conn h => ?_
  · split_ifs
    · exact part_pumpOtRecvIntoBearssl _ hst.symm
    · exact .none
  rw [← h] at hst hmode he
  refine .orElse ?_ fun _ conn h => ?_
  · split_ifs with hup
    · exact part_pumpBearsslRecvappToRing hup.1 hmode
    · exact .none
  rw [← h] at hst hmode he
  refine .orElse ?_ fun _ conn h => ?_
  · split_ifs with hup
    · exact part_pumpRingToBearsslSendapp hup.1 hmode
    · exact .none
  rw [← h] at hst hmode he
  split_ifs with hpeer hrecv
  · exact .none
  · refine .did (effects_reportClosed _ ?_ (fun _ h => absurd hmode h) fun hπ => ?_) (by simp)
    · exact hst.imp id fun h => ⟨h, hmode⟩
    · exact he hπ (by simpa using hrecv) hpeer.1
  · exact .none

theorem effects_bearsslClosed (hst : conn.link.state.isUp = true ∨ conn.link.state = .handshaking)
    (hmode : conn.link.mode = .off) :
    Effects C π conn.link (bearsslClosed G conn).link := by
  have hopen : conn.link.state ≠ .closed := by
    intro h
    obtain h' | h' := hst <;> rw [h] at h' <;> cases h'
  unfold bearsslClosed
  split_ifs with _ hup
  · exact effects_reportClosed _ (.inl hup) (fun _ h => absurd hmode h) fun _ => .inl hup
  · exact (effects_ostlsFail _ _ hopen (by decide)).trans (effects_reportFailed _)
  · exact (effects_ostlsFail _ _ hopen (by decide)).trans (effects_reportFailed _)

theorem effects_pumpBearsslStep {p : Proc E}
    (hst : p.conn.link.state.isUp = true ∨ p.conn.link.state = .handshaking)
    (hmode : p.conn.link.mode = .off) (env : PumpEnv)
    (hexp : ¬(p.conn.state = .handshaking ∧ HandshakeExpired p.conn env))
    (hpre : ¬(p.conn.nfDisconnect = true ∧ p.conn.discConsumed = false))
    (he : π.established → ¬ClosesEarly G p.conn (.turn env) ∧ ¬OpensLate G p.conn (.turn env) ∧
      ¬FallsBackLate C p.conn (.turn env)) :
    Effects C π p.conn.link (pumpBearsslStep G p env).1.conn.link := by
  unfold pumpBearsslStep
  dsimp only
  split
  · exact effects_bearsslClosed hst hmode
  · rename_i hclosed
    split
    · rename_i hdone
      unfold bearsslOpened
      refine Effects.bump (Relation.ReflTransGen.single ?_) (by decide)
      refine .tls12Opened hdone.2.1 hmode fun hπ => Bool.eq_false_iff.2 fun hpeer => (he hπ).2.1 ?_
      exact ⟨hdone.2.1, hpeer, fun h => hexp ⟨hdone.2.1, h⟩, hpre,
        .inl ⟨hmode, by simpa using hclosed, hdone.2.2⟩⟩
    · rename_i hdone
      refine (part_bearsslMove hst hmode _ env fun hπ hrecv hpeer hwait => ?_).effects
      refine hst.imp id fun hhs => ?_
      by_contra hnot
      have hnot : p.conn.handshakeDone = false := Bool.eq_false_iff.2 hnot
      refine (he hπ).1 ⟨hhs, hmode, hnot, hpeer, fun h => hexp ⟨hhs, h⟩, hpre, by simpa using hclosed,
        ?_, hrecv, hwait⟩
      by_contra hsend
      exact hdone ⟨by simp [hnot], hhs, .inl (by simpa using hsend)⟩

end

/-! ### Turns and calls -/

section

variable {G : Engine E}

theorem effects_pumpStep {p : Proc E} (env : PumpEnv)
    (hexp : ¬(p.conn.state = .handshaking ∧ HandshakeExpired p.conn env))
    (hpre : ¬(p.conn.nfDisconnect = true ∧ p.conn.discConsumed = false))
    (hπ : π.Meets C G p.conn (.turn env)) :
    Effects C π p.conn.link (pumpStep C G p env).1.conn.link := by
  have hmove : p.conn.link.state.isUp = true ∨ p.conn.link.state = .handshaking →
      Effects C π p.conn.link (if p.conn.tls13Mode ≠ .off then pumpTls13Step C p env
        else pumpBearsslStep G p env).1.conn.link := by
    intro hst
    split_ifs with hmode
    · refine effects_pumpTls13Step ⟨hmode, hst.symm⟩ env ?_ ?_ ?_
      · intro hs h13 hdr hf hfly htake hends
        exact hπ.drained hdr ⟨hf, hpre, hfly, htake, hs, h13, hends⟩
      · intro hs h13 hest hcomplete hhs htry hpeer
        refine Bool.eq_false_iff.2 fun hall => (hπ.established hest).2.1 ?_
        exact ⟨hhs, hpeer, fun h => hexp ⟨hhs, h⟩, hpre, .inr ⟨htry, hs, h13, hcomplete, hall⟩⟩
      · intro hs h13 hest hhs htry hcfg hopen hres hpeer
        refine Bool.eq_false_iff.2 fun hall => (hπ.established hest).2.2 ?_
        exact ⟨hhs, htry, hpeer, fun h => hexp ⟨hhs, h⟩, hpre, hcfg, hopen, hs, h13, hall, hres⟩
    · exact effects_pumpBearsslStep hst (not_not.1 hmode) env hexp hpre hπ.established
  unfold pumpStep
  split <;> rename_i hst
  · obtain ⟨heff, hevent⟩ := effects_pumpConnectStep (C := C) (G := G) hst env
    exact Effects.bump heff hevent
  · exact hmove (.inr hst)
  · exact hmove (.inl (by rw [show p.conn.link.state = _ from hst]; rfl))
  · exact hmove (.inl (by rw [show p.conn.link.state = _ from hst]; rfl))
  · exact .refl
  · exact .refl
  · exact .refl

/-- What a turn does before it takes a step. -/
inductive Turn (C : Crypto) (G : Engine E) (p : Proc E) (env : PumpEnv) : Proc E → Prop
  | ended (hst : p.conn.state = .failed ∨ p.conn.state = .closed) : Turn C G p env p
  | expired (hst : p.conn.state = .handshaking) (hexp : HandshakeExpired p.conn env) :
      Turn C G p env { p with
        conn := eventBump (ostlsFail p.conn asyncHandshakeTimeout kOTNoError 0) .failed }
  | disconnected (hst : ¬(p.conn.state = .failed ∨ p.conn.state = .closed))
      (hexp : ¬(p.conn.state = .handshaking ∧ HandshakeExpired p.conn env))
      (hdisc : p.conn.nfDisconnect = true ∧ p.conn.discConsumed = false) :
      Turn C G p env { p with
        conn := eventBump (ostlsFail { p.conn with discConsumed := true } asyncOtSndFail
          p.conn.nfLastResult 0) .failed }
  | steps (hst : ¬(p.conn.state = .failed ∨ p.conn.state = .closed))
      (hexp : ¬(p.conn.state = .handshaking ∧ HandshakeExpired p.conn env))
      (hdisc : ¬(p.conn.nfDisconnect = true ∧ p.conn.discConsumed = false)) :
      Turn C G p env (pumpStep C G p env).1

theorem turn_pumpTurn (p : Proc E) (env : PumpEnv) : Turn C G p env (pumpTurn C G p env).1 := by
  unfold pumpTurn
  by_cases hst : p.conn.state = .failed ∨ p.conn.state = .closed
  · rw [if_pos hst]
    exact .ended hst
  · rw [if_neg hst]
    dsimp only
    by_cases hexp : p.conn.state = .handshaking ∧ HandshakeExpired p.conn env
    · have hpre : pumpHandshakeOrOpenPre p.conn env = _ := if_pos hexp
      rw [hpre]
      exact .expired hexp.1 hexp.2
    · by_cases hdisc : p.conn.nfDisconnect = true ∧ ¬p.conn.discConsumed = true
      · have hpre : pumpHandshakeOrOpenPre p.conn env = _ := (if_neg hexp).trans (if_pos hdisc)
        rw [hpre]
        exact .disconnected hst hexp (by simpa using hdisc)
      · have hpre : pumpHandshakeOrOpenPre p.conn env = _ := (if_neg hexp).trans (if_neg hdisc)
        rw [hpre]
        exact .steps hst hexp (by simpa using hdisc)

/-- A turn of the pump is a sequence of effects. -/
theorem effects_pumpTurn {p : Proc E} (env : PumpEnv) (hπ : π.Meets C G p.conn (.turn env)) :
    Effects C π p.conn.link (pumpTurn C G p env).1.conn.link := by
  have hturn := turn_pumpTurn (C := C) (G := G) p env
  generalize (pumpTurn C G p env).1 = q at hturn ⊢
  cases hturn with
  | ended => exact .refl
  | expired hst =>
    have hopen : p.conn.link.state ≠ .closed := fun h => by cases hst.symm.trans h
    exact Effects.bump (effects_ostlsFail _ _ hopen (by decide)) (by decide)
  | disconnected hst =>
    refine Effects.bump ?_ (by decide)
    obtain ⟨conn', hc⟩ : ∃ c : Conn E, c = { p.conn with discConsumed := true } := ⟨_, rfl⟩
    have hlink : conn'.link = p.conn.link := by rw [hc]; rfl
    have hopen : conn'.link.state ≠ .closed := by rw [hlink]; exact fun h => hst (.inr h)
    rw [← hlink, ← hc]
    exact effects_ostlsFail _ _ hopen (by decide)
  | steps _ hexp hdisc => exact effects_pumpStep env hexp hdisc hπ

theorem effects_ostlsStart (env : StartEnv)
    (hu : π.unclosed → ¬StartsClosed conn (.start env)) :
    Effects C π conn.link (ostlsStart conn env).2.link := by
  unfold ostlsStart
  split_ifs with hdis hsta hst htime hcfg hopen
  · exact .refl
  · exact .refl
  · exact .refl
  · exact .single (.notStarted (not_not.1 hst) (show asyncClockBefore2000 ≠ asyncOk by decide))
  · exact .single (.notStarted (not_not.1 hst) (show asyncOtConfigFail ≠ asyncOk by decide))
  · exact .single (.notStarted (not_not.1 hst) (show asyncOtOpenFail ≠ asyncOk by decide))
  · refine .single (.started (not_not.1 hst) fun hπ => ?_)
    refine Bool.eq_false_iff.2 fun hreq => ?_
    refine hu hπ ⟨by simpa using hdis, by simpa using hsta, not_not.1 hst, hreq, ?_⟩
    simp_all [StartEnv.succeeds]

theorem effects_ostlsWrite (buf : Bytes) :
    Effects C π conn.link (ostlsWrite conn buf).2.2.link := by
  unfold ostlsWrite
  dsimp only
  split_ifs with _ hst hbuf hfull
  · exact .refl
  · exact .refl
  · exact .refl
  · have hsame : conn.writeBuf.compact = conn.writeBuf := by
      refine Queue.compact_of_full ?_
      rw [Queue.room] at hfull
      omega
    rw [hsame]
  · exact .single (.wrote (not_not.1 hst))

theorem effects_ostlsRead (cap : ℕ) :
    Effects C π conn.link (ostlsRead conn cap).2.2.link := by
  unfold ostlsRead
  dsimp only
  split_ifs with _ hst
  · exact .refl
  · exact .refl
  · exact .refl
  · refine .single (.read ?_)
    by_contra h
    exact hst ⟨fun hup => h (.inl hup), fun hcl => h (.inr hcl)⟩

theorem effects_ostlsClose (hd : π.drained → ¬ReleasesUnsent conn) :
    Effects C π conn.link (ostlsClose G conn).link := by
  unfold ostlsClose
  split_ifs with _ hreq
  · exact .refl
  · exact .refl
  · have hup : conn.state.isUp = true → Effects C π conn.link
        (closeUp G { conn with closeRequested := true }).link := by
      intro hup
      unfold closeUp
      dsimp only
      split_ifs with hmode
      · refine .single (.released hup hmode fun hdr => ?_)
        by_contra hidle
        exact hd hdr ⟨by simpa using hreq, hup, hmode, hidle⟩
      · exact .single (.closing hup hmode)
      · exact .single (.closing hup hmode)
    dsimp only
    split <;> rename_i hst
    · exact .single (.closeNoted (.inr (.inl hst)))
    · exact .single (.closeNoted (.inr (.inr hst)))
    · exact .single (.closeNoted (.inl hst))
    · exact .single (.aborted (.inr hst) (show asyncWrongState ≠ asyncOk by decide))
    · exact .single (.aborted (.inl hst) (show asyncWrongState ≠ asyncOk by decide))
    · exact hup (by rw [show conn.state = .open from hst]; rfl)
    · exact hup (by rw [show conn.state = .closing from hst]; rfl)

theorem link_ostlsDispose (conn : Conn E) : (ostlsDispose conn).link = conn.link.dispose := by
  have h : conn.link.disposed = conn.disposed := rfl
  unfold ostlsDispose Link.dispose
  rw [h]
  split_ifs
  · rfl
  · rw [← link_closeProvider]
    rfl

theorem link_ostlsNotifier (conn : Conn E) (event : OtEvent) (result : ℤ) :
    (ostlsNotifier conn event result).link = conn.link.notified event := by
  cases event <;> rfl

/-- What a call other than `OSTLS_Dispose` does to a connection in use. -/
theorem effects_step {p : Proc E} {a : Action} (ha : a ≠ .dispose)
    (hn : ∀ event result, a ≠ .notify event result) (hπ : π.Meets C G p.conn a) :
    Effects C π p.conn.link (Proc.step C G p a).conn.link := by
  cases a with
  | start env => exact effects_ostlsStart env hπ.unclosed
  | enter =>
    unfold Proc.step
    split_ifs
    · exact .refl
    · exact .single .untold
  | turn env =>
    unfold Proc.step
    dsimp only
    split_ifs
    · exact .refl
    · exact effects_pumpTurn env hπ
  | write buf => exact effects_ostlsWrite buf
  | read cap => exact effects_ostlsRead cap
  | close => exact effects_ostlsClose hπ.drained
  | dispose => exact absurd rfl ha
  | notify event result => exact absurd rfl (hn event result)
  | others => exact .refl

/-- A disposed connection is not touched any more, except by the notifier. -/
theorem link_step_of_disposed {p : Proc E} {a : Action} (hdis : p.conn.disposed = true)
    (hn : ∀ event result, a ≠ .notify event result) :
    (Proc.step C G p a).conn.link = p.conn.link := by
  cases a with
  | start env =>
    show (ostlsStart p.conn env).2.link = _
    rw [ostlsStart, if_pos hdis]
  | enter => rw [Proc.step, if_pos hdis]
  | turn env => rw [Proc.step, if_pos hdis]
  | write buf =>
    show (ostlsWrite p.conn buf).2.2.link = _
    rw [ostlsWrite, if_pos hdis]
  | read cap =>
    show (ostlsRead p.conn cap).2.2.link = _
    rw [ostlsRead, if_pos hdis]
  | close => exact congrArg Conn.link (if_pos hdis)
  | dispose => exact congrArg Conn.link (if_pos hdis)
  | notify event result => exact absurd rfl (hn event result)
  | others => rfl

/-- **Invariants of all runs.**  What holds of the link at the start and is kept by every effect, by
the notifier and by `OSTLS_Dispose`, holds in every reached state. -/
theorem link_invariant {ok : Proc E → Action → Prop} {P : Link → Prop} {p₀ p : Proc E}
    (h : Reach (Proc.step C G) ok p₀ p) (h₀ : P p₀.conn.link)
    (hmeets : ∀ p a, P p.conn.link → ok p a → π.Meets C G p.conn a)
    (heffect : ∀ {s s'}, s.disposed = false → P s → Effect C π s s' → P s')
    (hdispose : ∀ p, ok p .dispose → P p.conn.link → P p.conn.link.dispose)
    (hnotify : ∀ p event result, ok p (.notify event result) → P p.conn.link →
      P (p.conn.link.notified event)) : P p.conn.link := by
  refine h.invariant (P := fun p => P p.conn.link) h₀ fun p a hp hok => ?_
  by_cases hn : ∃ event result, a = .notify event result
  · obtain ⟨event, result, rfl⟩ := hn
    have hlink : (Proc.step C G p (.notify event result)).conn.link = p.conn.link.notified event :=
      link_ostlsNotifier ..
    rw [hlink]
    exact hnotify p event result hok hp
  · have hn : ∀ event result, a ≠ .notify event result := fun event result h => hn ⟨_, _, h⟩
    cases hdis : p.conn.disposed with
    | true =>
      rw [link_step_of_disposed hdis hn]
      exact hp
    | false =>
      by_cases ha : a = .dispose
      · subst ha
        have hlink : (Proc.step C G p .dispose).conn.link = p.conn.link.dispose :=
          link_ostlsDispose _
        rw [hlink]
        exact hdispose p hok hp
      · exact (effects_step ha hn (hmeets p a hp hok)).invariant hdis hp heffect

/-! ### Whole pumps -/

theorem disposed_pumpTurn {p : Proc E} (env : PumpEnv) :
    (pumpTurn C G p env).1.conn.disposed = p.conn.disposed :=
  (effects_pumpTurn env (Policy.any_meets C G _ _)).disposed

/-- A whole `OSTLS_Pump` is a run of single turns. -/
theorem reach_ostlsPump {ok : Proc E → Action → Prop} (henter : ∀ p, ok p .enter)
    (hturn : ∀ p env, ok p (.turn env)) (p : Proc E) (envs : List PumpEnv) :
    Reach (Proc.step C G) ok p (ostlsPump C G p envs).2.2 := by
  have hloop : ∀ p : Proc E, p.conn.disposed = false →
      Reach (Proc.step C G) ok p (pumpLoop C G p envs) := by
    induction envs with
    | nil => exact fun p _ => .refl
    | cons env envs ih =>
      intro p hdis
      have hstep : Proc.step C G p (.turn env) = (pumpTurn C G p env).1 := by
        unfold Proc.step
        dsimp only
        rw [hdis]
        rfl
      have hone : Reach (Proc.step C G) ok p (pumpTurn C G p env).1 := by
        rw [← hstep]
        exact Reach.refl.tail (hturn p env)
      unfold pumpLoop
      dsimp only
      split_ifs
      · exact hone.trans (ih _ (by rw [disposed_pumpTurn, hdis]))
      · exact hone
  unfold ostlsPump
  split_ifs with hdis
  · exact .refl
  · exact .refl
  · exact .refl
  · exact .refl
  · have hdis : p.conn.disposed = false := by simpa using hdis
    have hstep : Proc.step C G p .enter = p.onConn fun conn => { conn with bestEvent := .none } := by
      unfold Proc.step
      dsimp only
      rw [hdis]
      rfl
    have hone : Reach (Proc.step C G) ok p (p.onConn fun conn => { conn with bestEvent := .none }) := by
      rw [← hstep]
      exact Reach.refl.tail (henter p)
    refine hone.trans (hloop _ ?_)
    exact hdis

end

end

end MacTLS
