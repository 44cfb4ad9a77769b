import MacTLS.Async.Completions

/-!
# What a call does about resumption

A connection takes tickets and sessions from the caches when TLS starts, and puts some in when a
handshake is done or a ticket arrives.

* `TlsView`, `Keeps` : what resumption depends on, and what leaves it alone;
* `SetsUp`, `Tries13` : when a turn of the pump starts TLS, and which protocol it chooses;
* `Resumes` : the cases of a turn with what each offers, stores or completes;
* `resumes_pumpTurn`, `keeps_step` : every call is one of these.
-/

namespace MacTLS

open Lib

variable {E : Type} {C : Crypto} {G : Engine E} {conn conn' conn'' : Conn E}

/-! ### What resumption depends on -/

/-- The fields of a connection that say for whom it connects and how far its handshake is. -/
structure TlsView where
  host : Bytes
  serverName : Bytes
  port : ℕ
  mode : T13Mode
  disabled : Bool
  hsLog : List HsEvent

def Conn.tls (conn : Conn E) : TlsView where
  host := conn.host
  serverName := conn.serverName
  port := conn.port
  mode := conn.tls13Mode
  disabled := conn.tls13Disabled
  hsLog := conn.history.hsLog

/-- The states before TLS starts. -/
def OstlsState.early : OstlsState → Bool
  | .idle | .connecting => true
  | _ => false

/-- A change that neither starts nor advances nor completes a handshake. -/
structure Keeps (conn conn' : Conn E) : Prop where
  view : conn'.tls = conn.tls
  early : conn'.state.early = true → conn.state.early = true
  up : conn'.state.isUp = true → conn.state.isUp = true
  /-- During the handshake bytes of the context may be sent. -/
  handshaking : conn'.state = .handshaking → conn.state = .handshaking ∧
    ∀ hs', conn'.hs13 = some hs' → ∃ hs n, conn.hs13 = some hs ∧ hs' = { hs with msgOffset := n }

namespace Keeps

theorem refl (conn : Conn E) : Keeps conn conn :=
  ⟨rfl, id, id, fun h => ⟨h, fun hs h13 => ⟨hs, hs.msgOffset, h13, rfl⟩⟩⟩

theorem trans (h : Keeps conn conn') (h' : Keeps conn' conn'') : Keeps conn conn'' := by
  refine ⟨h'.view.trans h.view, fun hst => h.early (h'.early hst), fun hst => h.up (h'.up hst),
    fun hst => ?_⟩
  obtain ⟨hst', h13'⟩ := h'.handshaking hst
  obtain ⟨hst, h13⟩ := h.handshaking hst'
  refine ⟨hst, fun hs'' hs13 => ?_⟩
  obtain ⟨hs', n', hsome', rfl⟩ := h13' hs'' hs13
  obtain ⟨hs, n, hsome, rfl⟩ := h13 hs' hsome'
  exact ⟨hs, n', hsome, rfl⟩

/-- Only other fields change. -/
theorem of_same (hview : conn'.tls = conn.tls) (hst : conn'.state = conn.state)
    (h13 : conn'.hs13 = conn.hs13) : Keeps conn conn' := by
  refine ⟨hview, fun h => hst ▸ h, fun h => hst ▸ h, fun h => ⟨hst ▸ h, fun hs hs13 => ?_⟩⟩
  exact ⟨hs, hs.msgOffset, h13 ▸ hs13, rfl⟩

/-- The connection is failed or closed. -/
theorem of_ended (hview : conn'.tls = conn.tls)
    (hst : conn'.state = .failed ∨ conn'.state = .closed) : Keeps conn conn' := by
  refine ⟨hview, fun h => ?_, fun h => ?_, fun h => ?_⟩ <;>
    obtain hst | hst := hst <;> rw [hst] at h <;> cases h

/-- The handshake is over, and the connection stays up. -/
theorem of_up (hview : conn'.tls = conn.tls) (hup : conn.state.isUp = true)
    (hst : conn'.state.isUp = true) : Keeps conn conn' := by
  refine ⟨hview, fun h => ?_, fun _ => hup, fun h => ?_⟩
  · generalize conn'.state = st at h hst
    cases st with
    | idle => cases hst
    | connecting => cases hst
    | _ => cases h
  · rw [h] at hst
    cases hst

end Keeps

theorem keeps_eventBump (conn : Conn E) (e : OstlsEvent) : Keeps conn (eventBump conn e) := by
  unfold eventBump
  split_ifs
  · exact .of_same rfl rfl rfl
  · exact .refl _

theorem Keeps.bump (h : Keeps conn conn') (e : OstlsEvent) : Keeps conn (eventBump conn' e) :=
  h.trans (keeps_eventBump _ _)

/-- The connection fails, after whatever else. -/
theorem keeps_ostlsFail (hview : conn'.tls = conn.tls) (osErr : ℕ) (otErr brErr : ℤ) :
    Keeps conn (ostlsFail conn' osErr otErr brErr) := by
  refine .of_ended hview ?_
  unfold ostlsFail
  dsimp only
  split_ifs with h
  · exact h
  · exact .inl rfl

/-- The failure is also reported. -/
theorem keeps_reportFailed (conn : Conn E) (osErr : ℕ) (otErr brErr : ℤ) :
    Keeps conn { ostlsFail conn osErr otErr brErr with bestEvent := .failed } := by
  have h : Keeps conn (ostlsFail conn osErr otErr brErr) := keeps_ostlsFail rfl osErr otErr brErr
  exact h.trans (.of_same rfl rfl rfl)

theorem keeps_recordFail (conn : Conn E) (brErr : ℤ) : Keeps conn (recordFail conn brErr) :=
  keeps_reportFailed conn asyncBearsslError kOTNoError brErr

theorem keeps_peerDisconnect (conn : Conn E) : Keeps conn (peerDisconnect conn) := by
  refine keeps_ostlsFail ?_ _ _ _
  rfl

theorem keeps_otRcvNothing (conn : Conn E) (r : RcvResult) :
    Keeps conn (otRcvNothing conn r).1 := by
  unfold otRcvNothing
  split
  · exact .of_same rfl rfl rfl
  · split_ifs
    · exact .of_same rfl rfl rfl
    · exact .of_same rfl rfl rfl
  · exact .of_same rfl rfl rfl
  · exact keeps_peerDisconnect conn
  · exact .refl _
  · exact keeps_ostlsFail rfl ..

theorem Keeps.orElse {r : Conn E × Did} {next : Conn E → Conn E × Did} (h : Keeps conn r.1)
    (hnext : ∀ conn, Keeps conn (next conn).1) : Keeps conn (orElse r next).1 := by
  unfold MacTLS.orElse
  split_ifs
  · exact h.trans (hnext _)
  · exact h

theorem keeps_pumpOtRecvTls13 (conn : Conn E) (env : RecvEnv) :
    Keeps conn (pumpOtRecvTls13 conn env).1 := by
  unfold pumpOtRecvTls13
  split_ifs
  · exact .refl _
  · exact .of_same rfl rfl rfl
  · split
    · exact .of_same rfl rfl rfl
    · exact keeps_otRcvNothing conn _

/-! ### Flushing -/

/-- What sending leaves alone. -/
structure Flushes (conn conn' : Conn E) : Prop where
  keeps : Keeps conn conn'
  recvBuf : conn'.recvBuf = conn.recvBuf

theorem Flushes.trans (h : Flushes conn conn') (h' : Flushes conn' conn'') : Flushes conn conn'' :=
  ⟨h.keeps.trans h'.keeps, h'.recvBuf.trans h.recvBuf⟩

theorem Flushes.of_same (hview : conn'.tls = conn.tls) (hst : conn'.state = conn.state)
    (h13 : conn'.hs13 = conn.hs13) (hrecv : conn'.recvBuf = conn.recvBuf) : Flushes conn conn' :=
  ⟨.of_same hview hst h13, hrecv⟩

theorem flushes_ostlsSendRaw (conn : Conn E) (buf : Bytes) (env : SendEnv) :
    Flushes conn (ostlsSendRaw conn buf env).1 ∧
      (ostlsSendRaw conn buf env).1.hs13 = conn.hs13 := by
  unfold ostlsSendRaw
  split_ifs
  · exact ⟨⟨.refl _, rfl⟩, rfl⟩
  · exact ⟨⟨.refl _, rfl⟩, rfl⟩
  · split
    · exact ⟨.of_same rfl rfl rfl rfl, rfl⟩
    · exact ⟨.of_same rfl rfl rfl rfl, rfl⟩
    · exact ⟨.of_same rfl rfl rfl rfl, rfl⟩
    · exact ⟨⟨keeps_peerDisconnect conn, rfl⟩, rfl⟩
    · exact ⟨⟨.refl _, rfl⟩, rfl⟩
    · exact ⟨⟨keeps_ostlsFail rfl .., rfl⟩, rfl⟩

theorem flushes_flushHandshake {hs : HsCtx} (h13 : conn.hs13 = some hs) (env : SendEnv) :
    Flushes conn (flushHandshake conn hs env).1 := by
  have hraw := (flushes_ostlsSendRaw conn
    (slice hs.msgBuf hs.msgOffset (hs.msgLen - hs.msgOffset)) env)
  unfold flushHandshake
  split_ifs
  · generalize ostlsSendRaw conn (slice hs.msgBuf hs.msgOffset (hs.msgLen - hs.msgOffset)) env = r
      at hraw ⊢
    obtain ⟨conn', sent⟩ := r
    obtain ⟨hflush, hsame⟩ := hraw
    cases sent with
    | none => exact hflush
    | some sent =>
      -- the offset of the context moves on
      have hmoved : Flushes conn' { conn' with
          hs13 := some { hs with msgOffset := hs.msgOffset + sent } } := by
        refine ⟨⟨rfl, id, id, fun hst => ⟨hst, fun hs' hs13 => ?_⟩⟩, rfl⟩
        exact ⟨hs, _, hsame.trans h13, (Option.some.inj hs13).symm⟩
      dsimp only
      split_ifs
      · exact hflush.trans hmoved
      · exact hflush.trans hmoved
      · exact hflush.trans hmoved
  · exact ⟨.refl _, rfl⟩

theorem flushes_flushRecord (conn : Conn E) (env : SendEnv) :
    Flushes conn (flushRecord conn env).1 := by
  have hraw := (flushes_ostlsSendRaw conn
    (slice conn.t13SendRec conn.t13SendOff (conn.t13SendLen - conn.t13SendOff)) env).1
  unfold flushRecord
  split_ifs
  · generalize ostlsSendRaw conn
      (slice conn.t13SendRec conn.t13SendOff (conn.t13SendLen - conn.t13SendOff)) env = r at hraw ⊢
    obtain ⟨conn', sent⟩ := r
    cases sent with
    | none => exact hraw
    | some sent =>
      refine hraw.trans ?_
      dsimp only
      split_ifs
      · refine ⟨Keeps.bump ?_ _, ?_⟩
        · exact .of_same rfl rfl rfl
        · unfold eventBump
          split_ifs <;> rfl
      · exact .of_same rfl rfl rfl rfl
  · exact ⟨.refl _, rfl⟩

/-! ### The cases of a turn -/

/-- The turn gets through `ostls_setup_bearssl` to the caches. -/
structure SetsUp (conn : Conn E) (env : PumpEnv) : Prop where
  state : conn.state = .connecting
  phase : conn.connectPhase = .connectInFlight
  inTime : ¬ConnectExpired conn env
  connected : conn.nfDisconnect = false
  arrived : conn.nfConnectComplete = true
  result : conn.nfLastResult = kOTNoError
  rcvConnect : env.rcvConnectErr = kOTNoError
  time : env.timeOk = true
  entropy : env.entropyOk = true

/-- TLS 1.3 is tried. -/
def Tries13 (conn : Conn E) (env : PumpEnv) : Prop :=
  env.tryTls13 = true ∧ conn.tls13Disabled = false ∧ (conn.hs13.isSome = true ∨ env.allocOk = true)

instance (conn : Conn E) (env : PumpEnv) : Decidable (Tries13 conn env) :=
  inferInstanceAs (Decidable (_ ∧ _))

/-- The ticket that the cache has for the host of a connection. -/
def Proc.cachedTicket (p : Proc E) (env : PumpEnv) : Option (SessionTicket × ℕ) :=
  (ostlsTicketCacheGet p.tickets p.conn.host env.ticks 60).2

/-- The session that the cache has for the host and port of a connection. -/
def Proc.cachedSession (p : Proc E) : Option SessionParameters :=
  sessCacheGet p.sessions (sessCacheMakeKey p.conn.host p.conn.port)

/-- The handshake takes a step with the outcome `o`. -/
structure Shook (C : Crypto) (conn : Conn E) (env : PumpEnv) (hs : HsCtx) (o : HsOut) : Prop where
  state : conn.state = .handshaking
  mode : conn.tls13Mode = .trying
  out : ∃ hs₀ n, conn.hs13 = some hs₀ ∧ hs = { hs₀ with msgOffset := n } ∧
    o = tls13HandshakeStep C conn.serverName env.rnd hs conn.recvBuf

/-- The events of a connection after a step of its handshake. -/
def Conn.logAfter (conn : Conn E) (o : HsOut) : List HsEvent := conn.history.hsLog ++ o.log

/-- What a turn of the pump can do about resumption. -/
inductive Resumes (C : Crypto) (G : Engine E) (p : Proc E) (env : PumpEnv) : Proc E → Prop
  | keeps {conn' : Conn E} (h : Keeps p.conn conn') : Resumes C G p env { p with conn := conn' }
  /-- TLS 1.3 starts without a ticket. -/
  | tries13 {conn' : Conn E} (hset : SetsUp p.conn env) (htry : Tries13 p.conn env)
      (hmiss : p.cachedTicket env = none)
      (hview : conn'.tls = { p.conn.tls with mode := .trying }) (hst : conn'.state = .handshaking)
      (h13 : conn'.hs13 = some (Session.start true false none 0).hs) :
      Resumes C G p env { p with
        conn := conn'
        tickets := (ostlsTicketCacheGet p.tickets p.conn.host env.ticks 60).1 }
  /-- TLS 1.3 starts with the ticket of the host. -/
  | offers13 {conn' : Conn E} {t : SessionTicket} {age age' : ℕ} (hset : SetsUp p.conn env)
      (htry : Tries13 p.conn env) (hhit : p.cachedTicket env = some (t, age))
      (hview : conn'.tls = { p.conn.tls with mode := .trying }) (hst : conn'.state = .handshaking)
      (h13 : conn'.hs13 = some (Session.start true true (some t) age').hs) :
      Resumes C G p env { p with
        conn := conn'
        tickets := (ostlsTicketCacheGet p.tickets p.conn.host env.ticks 60).1
        resumeLog := p.resumeLog ++ [.offeredTicket p.conn.serverName t] }
  /-- TLS 1.2 starts without a session. -/
  | tries12 {conn' : Conn E} (hset : SetsUp p.conn env) (htry : ¬Tries13 p.conn env)
      (hmiss : p.cachedSession = none) (hview : conn'.tls = { p.conn.tls with mode := .off })
      (hst : conn'.state = .handshaking ∨ conn'.state = .failed) :
      Resumes C G p env { p with conn := conn' }
  /-- TLS 1.2 starts with the session of the host and port. -/
  | offers12 {conn' : Conn E} {s : SessionParameters} (hset : SetsUp p.conn env)
      (htry : ¬Tries13 p.conn env) (hhit : p.cachedSession = some s)
      (hview : conn'.tls = { p.conn.tls with mode := .off })
      (hst : conn'.state = .handshaking ∨ conn'.state = .failed) :
      Resumes C G p env { p with
        conn := conn', resumeLog := p.resumeLog ++ [.offeredSession p.conn.serverName s] }
  /-- A step of the TLS 1.3 handshake. -/
  | shakes {mid conn' : Conn E} {hs : HsCtx} {o : HsOut} (h : Shook C p.conn env hs o)
      (hview : mid.tls = { p.conn.tls with hsLog := p.conn.logAfter o })
      (hst : mid.state = .handshaking) (h13 : mid.hs13 = some o.hs) (hkeeps : Keeps mid conn') :
      Resumes C G p env { p with conn := conn' }
  /-- Its last one. -/
  | opens13 {conn' : Conn E} {hs : HsCtx} {o : HsOut} (h : Shook C p.conn env hs o)
      (hdone : o.hs.state = .complete)
      (hview : conn'.tls = { p.conn.tls with mode := .open, hsLog := p.conn.logAfter o })
      (hst : conn'.state = .open) :
      Resumes C G p env { p with
        conn := conn'
        resumeLog := p.resumeLog ++ [.completed13 p.conn.serverName o.hs (p.conn.logAfter o)] }
  /-- The fallback to TLS 1.2. -/
  | fallsBack {conn' : Conn E} {hs : HsCtx} {o : HsOut} (h : Shook C p.conn env hs o)
      (hview : conn'.tls =
        { p.conn.tls with mode := .off, disabled := true, hsLog := p.conn.logAfter o })
      (hst : conn'.state = .connecting ∨ conn'.state = .failed) :
      Resumes C G p env { p with conn := conn' }
  /-- A ticket arrives. -/
  | stores13 {conn' : Conn E} {t : SessionTicket} (hup : p.conn.state.isUp = true)
      (hmode : p.conn.tls13Mode ≠ .off) (h : Keeps p.conn conn') :
      Resumes C G p env { p with
        conn := conn'
        tickets := ostlsTicketCachePut p.tickets p.conn.host t env.ticks
        resumeLog := p.resumeLog ++ [.storedTicket p.conn.serverName t] }
  /-- The TLS 1.2 handshake is done. -/
  | opens12 {conn' : Conn E} {s : SessionParameters} (hst : p.conn.state = .handshaking)
      (hmode : p.conn.tls13Mode = .off) (hview : conn'.tls = p.conn.tls)
      (hst' : conn'.state = .open) :
      Resumes C G p env { p with
        conn := conn'
        sessions := sessCachePut p.sessions (sessCacheMakeKey p.conn.host p.conn.port) s
        resumeLog := p.resumeLog ++
          [.completed12 p.conn.serverName, .storedSession p.conn.serverName s] }

/-- Other fields do not matter. -/
theorem Resumes.of_same {p q : Proc E} {env : PumpEnv} (h : Resumes C G p env q)
    (hview' : conn''.tls = q.conn.tls) (hst' : conn''.state = q.conn.state)
    (h13' : conn''.hs13 = q.conn.hs13) : Resumes C G p env { q with conn := conn'' } := by
  cases h with
  | keeps h => exact .keeps (h.trans (.of_same hview' hst' h13'))
  | tries13 hset htry hmiss hview hst h13 =>
    exact .tries13 hset htry hmiss (hview'.trans hview) (hst'.trans hst) (h13'.trans h13)
  | offers13 hset htry hhit hview hst h13 =>
    exact .offers13 hset htry hhit (hview'.trans hview) (hst'.trans hst) (h13'.trans h13)
  | tries12 hset htry hmiss hview hst =>
    exact .tries12 hset htry hmiss (hview'.trans hview) (by rw [hst']; exact hst)
  | offers12 hset htry hhit hview hst =>
    exact .offers12 hset htry hhit (hview'.trans hview) (by rw [hst']; exact hst)
  | shakes h hview hst h13 hkeeps =>
    exact .shakes h hview hst h13 (hkeeps.trans (.of_same hview' hst' h13'))
  | opens13 h hdone hview hst => exact .opens13 h hdone (hview'.trans hview) (hst'.trans hst)
  | fallsBack h hview hst => exact .fallsBack h (hview'.trans hview) (by rw [hst']; exact hst)
  | stores13 hup hmode h => exact .stores13 hup hmode (h.trans (.of_same hview' hst' h13'))
  | opens12 hst hmode hview hst'' =>
    exact .opens12 hst hmode (hview'.trans hview) (hst'.trans hst'')

theorem eventBump_same (conn : Conn E) (e : OstlsEvent) : (eventBump conn e).tls = conn.tls ∧
    (eventBump conn e).state = conn.state ∧ (eventBump conn e).hs13 = conn.hs13 := by
  unfold eventBump
  split_ifs <;> exact ⟨rfl, rfl, rfl⟩

/-- What is reported does not matter. -/
theorem Resumes.bump {p q : Proc E} {env : PumpEnv} (h : Resumes C G p env q) (e : OstlsEvent) :
    Resumes C G p env (q.onConn (eventBump · e)) := by
  obtain ⟨hview, hst, h13⟩ := eventBump_same q.conn e
  exact h.of_same hview hst h13

/-! ### Setting up TLS -/

/-- TCP is up. -/
def connectedTcp (conn : Conn E) : Conn E :=
  { conn with nfConnectComplete := false, connectPhase := .done, state := .handshaking }

theorem resumes_ostlsSetupBearssl {p : Proc E} {env : PumpEnv}
    (hset : env.timeOk = true → env.entropyOk = true → SetsUp p.conn env) :
    Resumes C G p env (ostlsSetupBearssl G (p.onConn connectedTcp) env).1 := by
  unfold ostlsSetupBearssl
  by_cases htime : env.timeOk = true
  · rw [if_neg (by simp [htime])]
    dsimp only
    by_cases hent : env.entropyOk = true
    · rw [if_neg (by simp [hent])]
      have hset := hset htime hent
      split <;> rename_i htry
      · have htry : Tries13 p.conn env := ⟨htry.1, Bool.eq_false_iff.2 htry.2.1, htry.2.2⟩
        unfold armTls13
        dsimp only
        split <;> rename_i hget
        · obtain rfl := (congrArg Prod.fst hget :)
          exact .tries13 hset htry (congrArg Prod.snd hget) rfl rfl rfl
        · obtain rfl := (congrArg Prod.fst hget :)
          exact .offers13 hset htry (congrArg Prod.snd hget) rfl rfl rfl
      · have htry : ¬Tries13 p.conn env := fun h => htry ⟨h.1, Bool.eq_false_iff.1 h.2.1, h.2.2⟩
        unfold offerSession
        split <;> rename_i hget
        · split
          · exact .tries12 hset htry hget rfl (.inl rfl)
          · exact .tries12 hset htry hget rfl (.inr rfl)
        · split
          · exact .offers12 hset htry hget rfl (.inl rfl)
          · exact .offers12 hset htry hget rfl (.inr rfl)
    · rw [if_pos (by simp [hent])]
      refine .keeps (keeps_ostlsFail ?_ _ _ _)
      rfl
  · rw [if_pos (by simp [htime])]
    refine .keeps (keeps_ostlsFail ?_ _ _ _)
    rfl

theorem resumes_pumpConnectStep {p : Proc E} (hst : p.conn.state = .connecting) (env : PumpEnv) :
    Resumes C G p env (pumpConnectStep G p env).proc := by
  have hfail : ∀ {conn' : Conn E} (e : ℕ) (otErr : ℤ), conn'.tls = p.conn.tls →
      Resumes C G p env (connectFail { p with conn := conn' } e otErr).proc :=
    fun e otErr h => .keeps (keeps_ostlsFail h e otErr 0)
  have hnext : ∀ {conn' : Conn E} (ph : ConnectPhase), conn'.tls = p.conn.tls →
      conn'.state = p.conn.state → conn'.hs13 = p.conn.hs13 →
      Resumes C G p env (connectNext { p with conn := conn' } ph).proc :=
    fun ph hview hst h13 => .keeps (.of_same hview hst h13)
  have hwait : Resumes C G p env (connectWait p).proc := .keeps (.refl _)
  unfold pumpConnectStep
  by_cases hexp : elapsed32 env.ticks p.conn.startTicks > p.conn.connectTimeoutTicks
  · rw [if_pos hexp]
    exact hfail _ _ rfl
  rw [if_neg hexp]
  by_cases hdisc : p.conn.nfDisconnect = true
  · rw [if_pos hdisc]
    exact hfail _ _ rfl
  rw [if_neg hdisc]
  split <;> rename_i hph
  · unfold connectOpened
    dsimp only
    split_ifs
    · exact hwait
    · exact hfail _ _ rfl
    · exact hfail _ _ rfl
    · exact hnext _ rfl rfl rfl
  · split_ifs
    · exact hfail _ _ rfl
    · exact hnext _ rfl rfl rfl
  · split
    · exact hwait
    · dsimp only
      split_ifs
      · exact hfail _ _ rfl
      · exact hnext _ rfl rfl rfl
  · split_ifs
    · exact hfail _ _ rfl
    · exact hfail _ _ rfl
    · exact hnext _ rfl rfl rfl
  · unfold connectDone
    by_cases harr : p.conn.nfConnectComplete = true
    · rw [if_neg (by simp [harr])]
      dsimp only
      by_cases hres : p.conn.nfLastResult = kOTNoError
      · rw [if_neg (not_not.2 (by exact hres))]
        by_cases hrcv : env.rcvConnectErr = kOTNoError
        · rw [if_neg (not_not.2 hrcv)]
          -- every check of this turn was passed: they are the conditions of the setup
          have hsetup : Resumes C G p env (ostlsSetupBearssl G (p.onConn connectedTcp) env).1 :=
            resumes_ostlsSetupBearssl fun htime hent =>
              ⟨hst, hph, hexp, Bool.eq_false_iff.2 hdisc, harr, hres, hrcv, htime, hent⟩
          have heq : ∀ {q : Proc E} {ok : Bool},
              ostlsSetupBearssl G (p.onConn connectedTcp) env = (q, ok) →
              Resumes C G p env q := fun h => by
            rw [h] at hsetup
            exact hsetup
          split <;> rename_i q h
          · exact heq h
          · exact heq h
        · rw [if_pos hrcv]
          exact hfail _ _ rfl
      · rw [if_pos (by exact hres)]
        exact hfail _ _ rfl
    · rw [if_pos (by simpa using harr)]
      exact hwait
  · exact hwait
  · exact hwait

/-! ### The TLS 1.3 path -/

theorem closeProvider_same (conn : Conn E) : (closeProvider conn).tls = conn.tls ∧
    (closeProvider conn).state = conn.state ∧ (closeProvider conn).hs13 = conn.hs13 := by
  unfold closeProvider
  split_ifs
  · split <;> exact ⟨rfl, rfl, rfl⟩
  · exact ⟨rfl, rfl, rfl⟩

theorem ostlsFallbackToTls12_view (hst : conn.state = .handshaking) (env : PumpEnv) :
    (ostlsFallbackToTls12 conn env).1.tls = { conn.tls with mode := .off, disabled := true } ∧
      ((ostlsFallbackToTls12 conn env).1.state = .connecting ∨
        (ostlsFallbackToTls12 conn env).1.state = .failed) := by
  obtain ⟨hview, hstate, -⟩ := closeProvider_same conn
  have hforget : (forgetTls13 conn).tls = { conn.tls with mode := .off, disabled := true } := by
    rw [← hview]
    rfl
  have hfail : ∀ (osErr : ℕ) (otErr : ℤ),
      (ostlsFail (forgetTls13 conn) osErr otErr 0).state = .failed := fun osErr otErr => by
    have h : (forgetTls13 conn).state = .handshaking := hstate.trans hst
    unfold ostlsFail
    dsimp only
    rw [h]
    rfl
  unfold ostlsFallbackToTls12
  dsimp only
  split_ifs
  · exact ⟨hforget, .inr (hfail _ _)⟩
  · exact ⟨hforget, .inr (hfail _ _)⟩
  · exact ⟨hforget, .inl rfl⟩

/-- A step of the handshake, once everything is flushed. -/
theorem resumes_pumpTls13Handshake {p : Proc E} {hs : HsCtx} (h : Flushes p.conn conn')
    (hst : conn'.state = .handshaking) (hmode : conn'.tls13Mode = .trying)
    (h13 : conn'.hs13 = some hs) (env : PumpEnv) :
    Resumes C G p env (pumpTls13Handshake C { p with conn := conn' } hs env).1 := by
  obtain ⟨hst₀, hoffset⟩ := h.keeps.handshaking hst
  obtain ⟨hs₀, n, h13₀, hmoved⟩ := hoffset hs h13
  have hview := h.keeps.view
  have hmode₀ : p.conn.tls13Mode = .trying := (congrArg TlsView.mode hview).symm.trans hmode
  have hname : conn'.serverName = p.conn.serverName := congrArg TlsView.serverName hview
  have hlog : conn'.history.hsLog = p.conn.history.hsLog := congrArg TlsView.hsLog hview
  have hshook : Shook C p.conn env hs
      (tls13HandshakeStep C conn'.serverName env.rnd hs conn'.recvBuf) :=
    ⟨hst₀, hmode₀, hs₀, n, h13₀, hmoved, by rw [hname, h.recvBuf]⟩
  unfold pumpTls13Handshake
  dsimp only
  generalize tls13HandshakeStep C conn'.serverName env.rnd hs conn'.recvBuf = o at hshook ⊢
  -- the connection after the step
  obtain ⟨mid, hmid⟩ : ∃ mid : Conn E, mid = { conn' with
    hs13 := some o.hs
    recvBuf := o.recv
    history := { conn'.history with
      hsLog := conn'.history.hsLog ++ o.log
      hsRecords := conn'.history.hsRecords ++ queuedRecord o } } := ⟨_, rfl⟩
  have hviewMid : mid.tls = { p.conn.tls with hsLog := p.conn.logAfter o } := by
    rw [hmid, ← hview, Conn.logAfter, ← hlog]
    rfl
  have hstMid : mid.state = .handshaking := by rw [hmid]; exact hst
  have h13Mid : mid.hs13 = some o.hs := by rw [hmid]
  have hnameMid : mid.serverName = p.conn.serverName := congrArg TlsView.serverName hviewMid
  have hlogMid : mid.history.hsLog = p.conn.logAfter o := congrArg TlsView.hsLog hviewMid
  have hproc : (Proc.onConn { p with conn := conn' } fun conn => { conn with
      hs13 := some o.hs
      recvBuf := o.recv
      history := { conn.history with
        hsLog := conn.history.hsLog ++ o.log
        hsRecords := conn.history.hsRecords ++ queuedRecord o } }) = { p with conn := mid } := by
    rw [hmid]
    rfl
  rw [hproc]
  have hkeeps : ∀ {conn'' : Conn E}, Keeps mid conn'' →
      Resumes C G p env { p with conn := conn'' } := .shakes hshook hviewMid hstMid h13Mid
  by_cases hdone : o.hs.state = .complete ∧ o.hs.msgOffset ≥ o.hs.msgLen
  · rw [if_pos hdone]
    have hopen : Resumes C G p env { p with
        conn := { mid with
          handshakeDone := true
          state := .open
          tls13Mode := .open
          cipherSuite := o.hs.cipherSuite
          resumed := o.hs.resumptionAccepted
          history := { mid.history with appCtx := some o.hs.writeCtx } }
        resumeLog := p.resumeLog ++
          [.completed13 p.conn.serverName o.hs (p.conn.logAfter o)] } := by
      refine .opens13 hshook hdone.1 ?_ rfl
      rw [show ({ p.conn.tls with mode := .open, hsLog := p.conn.logAfter o } : TlsView) =
        { mid.tls with mode := .open } by rw [hviewMid]]
      rfl
    have hbumped := hopen.bump .handshakeDone
    unfold tls13Opened
    rw [show (Proc.remember _ (.completed13 mid.serverName o.hs mid.history.hsLog) : Proc E) = _ by
      rw [hnameMid, hlogMid]]
    exact hbumped
  · rw [if_neg hdone]
    split
    · exact hkeeps (keeps_pumpOtRecvTls13 mid env.recv)
    · exact hkeeps (.refl _)
    · exact hkeeps (.refl _)
    · obtain ⟨hfallback, hend⟩ := ostlsFallbackToTls12_view hstMid env
      rw [hviewMid] at hfallback
      refine .fallsBack hshook ?_ ?_
      · split_ifs <;> exact hfallback
      · split_ifs <;> exact hend
    · exact hkeeps (keeps_recordFail mid _)

theorem keeps_pumpTls13DeliverPlain (conn : Conn E) (hs : HsCtx) :
    Keeps conn (pumpTls13DeliverPlain conn hs).1 := by
  unfold pumpTls13DeliverPlain
  dsimp only
  split_ifs
  · exact .refl _
  · exact .refl _
  · refine Keeps.bump ?_ _
    exact .of_same rfl rfl rfl

theorem keeps_recordAlert (conn : Conn E) (hs : HsCtx) (plen : ℕ) :
    Keeps conn (recordAlert conn hs plen) := by
  have hpeer : Keeps conn { conn with peerClosed := true } := .of_same rfl rfl rfl
  unfold recordAlert
  dsimp only
  split_ifs
  · refine Keeps.bump (hpeer.trans (.of_ended ?_ (.inr ?_))) _ <;> rfl
  · exact hpeer
  · exact keeps_recordFail _ _
  · exact keeps_recordFail _ _

theorem keeps_recordData (conn : Conn E) (hs : HsCtx) (plen : ℕ) :
    Keeps conn (recordData conn hs plen) := by
  unfold recordData
  refine Keeps.trans (.of_same ?_ ?_ ?_) (keeps_pumpTls13DeliverPlain _ _) <;> rfl

theorem keeps_receiveOrClose (conn : Conn E) (env : RecvEnv) :
    Keeps conn (receiveOrClose conn env).1 := by
  unfold receiveOrClose
  refine Keeps.orElse ?_ fun conn => ?_
  · split_ifs
    · exact .refl _
    · exact keeps_pumpOtRecvTls13 conn env
  · split_ifs
    · refine Keeps.bump (.of_ended ?_ (.inr ?_)) _ <;> rfl
    · exact .refl _

section

variable {p : Proc E} {hs : HsCtx}

/-- A handshake record after the handshake. -/
theorem resumes_recordPostHandshake (h : Keeps p.conn conn') (hup : p.conn.state.isUp = true)
    (hup' : conn'.state.isUp = true) (hmode : p.conn.tls13Mode ≠ .off) (plen : ℕ)
    (env : PumpEnv) :
    Resumes C G p env (recordPostHandshake C { p with conn := conn' } hs plen env.ticks) := by
  have hhost : conn'.host = p.conn.host := congrArg TlsView.host h.view
  have hname : conn'.serverName = p.conn.serverName := congrArg TlsView.serverName h.view
  have hkeeps : ∀ hs' : HsCtx, Keeps p.conn { conn' with hs13 := some hs' } := fun hs' =>
    h.trans (.of_up rfl hup' hup')
  unfold recordPostHandshake
  dsimp only
  rw [hhost, hname]
  split_ifs
  · exact .stores13 hup hmode (hkeeps _)
  · exact .keeps (hkeeps _)

theorem resumes_pumpTls13ConsumeRecord (h : Keeps p.conn conn') (hup : p.conn.state.isUp = true)
    (hup' : conn'.state.isUp = true) (hmode : p.conn.tls13Mode ≠ .off) (env : PumpEnv) :
    Resumes C G p env (pumpTls13ConsumeRecord C { p with conn := conn' } hs env.ticks).1 := by
  rw [pumpTls13ConsumeRecord_eq]
  split_ifs
  · exact .keeps h
  · exact .keeps (h.trans (keeps_recordFail _ _))
  · exact .keeps h
  · -- the connection after the record was taken
    have htaken : ∀ (hs' : HsCtx) (recv : Bytes),
        Keeps p.conn { conn' with hs13 := some hs', recvBuf := recv } := fun hs' recv =>
      h.trans (.of_up rfl hup' hup')
    unfold recordOpened
    dsimp only [Proc.onConn]
    split
    · exact .keeps ((htaken _ _).trans (keeps_recordFail _ _))
    · split_ifs
      · exact .keeps ((htaken _ _).trans (keeps_recordData _ _ _))
      · exact .keeps ((htaken _ _).trans (keeps_recordAlert _ _ _))
      · exact resumes_recordPostHandshake (htaken _ _) hup hup' hmode _ env
      · exact .keeps (htaken _ _)

/-- The open phase. -/
theorem resumes_pumpTls13Open (h : Keeps p.conn conn') (hup' : conn'.state.isUp = true)
    (hmode : p.conn.tls13Mode ≠ .off) (env : PumpEnv) :
    Resumes C G p env (pumpTls13Open C { p with conn := conn' } hs env).1 := by
  have hup := h.up hup'
  unfold pumpTls13Open
  dsimp only
  split_ifs with hplain hbuild hrecord
  · exact .keeps (h.trans (keeps_pumpTls13DeliverPlain _ _))
  · refine .keeps (h.trans (.of_up ?_ hup' ?_))
    · unfold pumpTls13BuildSend
      dsimp only
      split_ifs <;> rfl
    · unfold pumpTls13BuildSend
      dsimp only
      split_ifs <;> exact hup'
  · exact resumes_pumpTls13ConsumeRecord h hup hup' hmode env
  · exact .keeps (h.trans (keeps_receiveOrClose _ _))

/-- What follows the flushing. -/
theorem resumes_pumpTls13Drive (h : Flushes p.conn conn') (hmode : p.conn.tls13Mode ≠ .off)
    (env : PumpEnv) : Resumes C G p env (pumpTls13Drive C { p with conn := conn' } env).1 := by
  unfold pumpTls13Drive
  dsimp only
  split
  · exact .keeps h.keeps
  · rename_i hs h13
    split_ifs with hhs hup
    · exact resumes_pumpTls13Handshake h hhs.1 hhs.2 h13 env
    · exact resumes_pumpTls13Open h.keeps hup hmode env
    · exact .keeps h.keeps

/-- `pump_tls13_step` -/
theorem resumes_pumpTls13Step (hmode : p.conn.tls13Mode ≠ .off) (env : PumpEnv) :
    Resumes C G p env (pumpTls13Step C p env).1 := by
  unfold pumpTls13Step
  split
  · exact .keeps (.refl _)
  · rename_i hs h13
    have hflush := flushes_flushHandshake h13 env.sendHs
    split <;> rename_i conn₁ h1 <;> rw [h1] at hflush
    · exact .keeps hflush.keeps
    · have hrecord := hflush.trans (flushes_flushRecord conn₁ env.sendApp)
      split <;> rename_i conn₂ h2 <;> rw [h2] at hrecord
      · exact .keeps hrecord.keeps
      · exact resumes_pumpTls13Drive hrecord hmode env

end

/-! ### The TLS 1.2 path -/

theorem keeps_bearsslClosed (conn : Conn E) : Keeps conn (bearsslClosed G conn) := by
  unfold bearsslClosed
  split_ifs
  · refine Keeps.bump (.of_ended ?_ (.inr ?_)) _ <;> rfl
  · exact keeps_reportFailed conn _ _ _
  · exact keeps_reportFailed conn _ _ _

theorem keeps_pumpOtRecvIntoBearssl (conn : Conn E) (env : RecvEnv) :
    Keeps conn (pumpOtRecvIntoBearssl G conn env).1 := by
  unfold pumpOtRecvIntoBearssl
  dsimp only
  split_ifs
  · exact .refl _
  · exact .of_same rfl rfl rfl
  · exact .of_same rfl rfl rfl
  · split
    · exact .of_same rfl rfl rfl
    · exact keeps_otRcvNothing conn _

theorem keeps_pumpOtSendFromBearssl (conn : Conn E) (env : SendEnv) :
    Keeps conn (pumpOtSendFromBearssl G conn env).1 := by
  unfold pumpOtSendFromBearssl
  dsimp only
  split_ifs
  · exact .refl _
  · exact .of_same rfl rfl rfl
  · split
    · exact .refl _
    · exact .of_same rfl rfl rfl
    · exact .of_same rfl rfl rfl
    · exact .of_same rfl rfl rfl
    · exact keeps_peerDisconnect conn
    · exact .refl _
    · exact keeps_ostlsFail rfl ..

theorem keeps_pumpBearsslRecvappToRing (conn : Conn E) :
    Keeps conn (pumpBearsslRecvappToRing G conn).1 := by
  unfold pumpBearsslRecvappToRing
  dsimp only
  split_ifs
  · exact .refl _
  · exact .refl _
  · refine Keeps.bump (.of_same ?_ ?_ ?_) _ <;> rfl

theorem keeps_pumpRingToBearsslSendapp (conn : Conn E) :
    Keeps conn (pumpRingToBearsslSendapp G conn).1 := by
  unfold pumpRingToBearsslSendapp
  dsimp only
  split_ifs
  · exact .refl _
  · exact .refl _
  · refine Keeps.bump (.of_same ?_ ?_ ?_) _ <;> rfl
  · exact .of_same rfl rfl rfl

theorem keeps_bearsslMove (flags : EngineFlags) (conn : Conn E) (env : PumpEnv) :
    Keeps conn (bearsslMove G flags conn env).1 := by
  unfold bearsslMove
  refine Keeps.orElse ?_ fun conn => Keeps.orElse ?_ fun conn => Keeps.orElse ?_ fun conn =>
    Keeps.orElse ?_ fun conn => ?_
  · split_ifs
    · exact keeps_pumpOtSendFromBearssl conn _
    · exact .refl _
  · split_ifs
    · exact keeps_pumpOtRecvIntoBearssl conn _
    · exact .refl _
  · split_ifs
    · exact keeps_pumpBearsslRecvappToRing conn
    · exact .refl _
  · split_ifs
    · exact keeps_pumpRingToBearsslSendapp conn
    · exact .refl _
  · split_ifs
    · exact .refl _
    · refine Keeps.bump (.of_ended ?_ (.inr ?_)) _ <;> rfl
    · exact .refl _

/-- `pump_bearssl_step` -/
theorem resumes_pumpBearsslStep {p : Proc E} (hmode : p.conn.tls13Mode = .off) (env : PumpEnv) :
    Resumes C G p env (pumpBearsslStep G p env).1 := by
  unfold pumpBearsslStep
  dsimp only
  split_ifs with hclosed hopen
  · exact .keeps (keeps_bearsslClosed _)
  · have hopened : Resumes C G p env { p with
        conn := { p.conn with
          handshakeDone := true
          state := .open
          cipherSuite := (G.session p.conn.eng).cipherSuite % 65536 }
        sessions := sessCachePut p.sessions (sessCacheMakeKey p.conn.host p.conn.port)
          (G.session p.conn.eng)
        resumeLog := p.resumeLog ++ [.completed12 p.conn.serverName,
          .storedSession p.conn.serverName (G.session p.conn.eng)] } :=
      .opens12 hopen.2.1 hmode rfl rfl
    have hbumped := hopened.bump .handshakeDone
    unfold bearsslOpened Proc.remember
    dsimp only [Proc.onConn]
    generalize hconn : ({ p.conn with
      handshakeDone := true
      state := .open
      cipherSuite := (G.session p.conn.eng).cipherSuite % 65536 } : Conn E) = conn at hbumped ⊢
    have hview := (eventBump_same conn .handshakeDone).1
    have hhost : (eventBump conn .handshakeDone).host = p.conn.host :=
      (congrArg TlsView.host hview).trans (by rw [← hconn]; rfl)
    have hname : (eventBump conn .handshakeDone).serverName = p.conn.serverName :=
      (congrArg TlsView.serverName hview).trans (by rw [← hconn]; rfl)
    have hport : (eventBump conn .handshakeDone).port = p.conn.port :=
      (congrArg TlsView.port hview).trans (by rw [← hconn]; rfl)
    rw [hhost, hname, hport, List.append_assoc]
    exact hbumped
  · exact .keeps (keeps_bearsslMove _ _ _)

/-! ### Turns and calls -/

/-- A turn of the pump. -/
theorem resumes_pumpTurn (p : Proc E) (env : PumpEnv) :
    Resumes C G p env (pumpTurn C G p env).1 := by
  have hturn := turn_pumpTurn (C := C) (G := G) p env
  generalize (pumpTurn C G p env).1 = q at hturn ⊢
  cases hturn with
  | ended => exact .keeps (.refl _)
  | expired => exact .keeps ((keeps_ostlsFail rfl ..).bump _)
  | disconnected => exact .keeps (Keeps.bump (keeps_ostlsFail (by rfl) ..) _)
  | steps hst =>
    have hup : Resumes C G p env
        (if p.conn.tls13Mode ≠ .off then pumpTls13Step C p env else pumpBearsslStep G p env).1 := by
      split_ifs with hmode
      · exact resumes_pumpTls13Step hmode env
      · exact resumes_pumpBearsslStep (not_not.1 hmode) env
    unfold pumpStep
    split <;> rename_i hstate
    · exact (resumes_pumpConnectStep hstate env).bump _
    · exact hup
    · exact hup
    · exact hup
    · exact .keeps (.refl _)
    · exact .keeps (.refl _)
    · exact .keeps (.refl _)

theorem keeps_ostlsStart (conn : Conn E) (env : StartEnv) : Keeps conn (ostlsStart conn env).2 := by
  unfold ostlsStart
  split_ifs with hdis hsta hst
  · exact .refl _
  · exact .refl _
  · exact .refl _
  · exact .of_ended rfl (.inl rfl)
  · exact .of_ended rfl (.inl rfl)
  · exact .of_ended rfl (.inl rfl)
  · refine ⟨rfl, fun _ => ?_, fun h => (by cases h), fun h => (by cases h)⟩
    rw [not_not.1 hst]
    rfl

theorem keeps_ostlsWrite (conn : Conn E) (buf : Bytes) : Keeps conn (ostlsWrite conn buf).2.2 := by
  unfold ostlsWrite
  dsimp only
  split_ifs
  · exact .refl _
  · exact .refl _
  · exact .refl _
  · exact .of_same rfl rfl rfl
  · exact .of_same rfl rfl rfl

theorem keeps_ostlsRead (conn : Conn E) (cap : ℕ) : Keeps conn (ostlsRead conn cap).2.2 := by
  unfold ostlsRead
  dsimp only
  split_ifs
  · exact .refl _
  · exact .refl _
  · exact .refl _
  · exact .of_same rfl rfl rfl

theorem keeps_closeUp (hup : conn.state.isUp = true) : Keeps conn (closeUp G conn) := by
  unfold closeUp releaseTls13
  split_ifs
  · exact .of_up rfl hup rfl
  · exact .of_up rfl hup rfl
  · exact .of_up rfl hup rfl
  · exact .of_up rfl hup rfl

theorem keeps_ostlsClose (conn : Conn E) : Keeps conn (ostlsClose G conn) := by
  have hnoted : Keeps conn { conn with closeRequested := true } := .of_same rfl rfl rfl
  unfold ostlsClose
  split_ifs
  · exact .refl _
  · exact .refl _
  · dsimp only
    split <;> rename_i hst
    · exact hnoted
    · exact hnoted
    · exact hnoted
    · exact .of_ended rfl (.inl rfl)
    · exact .of_ended rfl (.inl rfl)
    · exact hnoted.trans (keeps_closeUp (by rw [hst]; rfl))
    · exact hnoted.trans (keeps_closeUp (by rw [hst]; rfl))

theorem keeps_ostlsDispose (conn : Conn E) : Keeps conn (ostlsDispose conn) := by
  obtain ⟨hview, hst, -⟩ := closeProvider_same conn
  unfold ostlsDispose
  split_ifs
  · exact .refl _
  · exact ⟨hview, fun h => hst ▸ h, fun h => hst ▸ h, fun h => ⟨hst ▸ h, fun _ h13 => by cases h13⟩⟩

theorem keeps_ostlsNotifier (conn : Conn E) (event : OtEvent) (result : ℤ) :
    Keeps conn (ostlsNotifier conn event result) := by
  cases event <;> exact .of_same rfl rfl rfl

/-- Every other call leaves the caches alone. -/
theorem keeps_step {p : Proc E} {a : Action} (hturn : ∀ env, a ≠ .turn env)
    (hothers : ∀ tickets sessions log, a ≠ .others tickets sessions log) :
    ∃ conn', Keeps p.conn conn' ∧ Proc.step C G p a = { p with conn := conn' } := by
  cases a with
  | start env => exact ⟨_, keeps_ostlsStart p.conn env, rfl⟩
  | enter =>
    unfold Proc.step
    split_ifs
    · exact ⟨p.conn, .refl _, rfl⟩
    · exact ⟨{ p.conn with bestEvent := .none }, .of_same rfl rfl rfl, rfl⟩
  | turn env => exact absurd rfl (hturn env)
  | write buf => exact ⟨_, keeps_ostlsWrite p.conn buf, rfl⟩
  | read cap => exact ⟨_, keeps_ostlsRead p.conn cap, rfl⟩
  | close => exact ⟨_, keeps_ostlsClose p.conn, rfl⟩
  | dispose => exact ⟨_, keeps_ostlsDispose p.conn, rfl⟩
  | notify event result => exact ⟨_, keeps_ostlsNotifier p.conn event result, rfl⟩
  | others tickets sessions log => exact absurd rfl (hothers tickets sessions log)

end MacTLS
