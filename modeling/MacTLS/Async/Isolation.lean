import MacTLS.Async.Budget
import MacTLS.Async.Resumption

/-!
# Connections side by side

The calls on several connections may come in any order.  Connections share the two caches, and a
connection looks into these only where TLS starts.

* `Proc.look` : what the caches answer to a call;
* `conn_step_congr` : a call depends on the caches through these answers only;
* `noninterference` : two runs in which a connection gets the same calls and the same answers
  leave it the same, whatever the other connections do;
* `reach_of_world` : in any interleaving a connection goes through a run of its own;
* `Logged.of_world` : what each call keeps, with the events it logs, holds of every connection.
-/

namespace MacTLS

open Lib

variable {E : Type} {C : Crypto} {G : Engine E} {p q : Proc E}

/-! ### What a call asks of the caches -/

/-- A look into one of the caches, with what it brought. -/
inductive CacheLook where
  | ticket (hit : Option (SessionTicket × ℕ))
  | session (hit : Option SessionParameters)
  deriving DecidableEq

/-- The look of a call, if it is the turn of the pump in which TLS starts. -/
def Proc.look (p : Proc E) : Action → Option CacheLook
  | .turn env =>
    if p.conn.disposed = false ∧ SetsUp p.conn env then
      some (if Tries13 p.conn env then .ticket (p.cachedTicket env) else .session p.cachedSession)
    else none
  | _ => none

/-! ### A call depends on its look only -/

theorem onConn_conn (p : Proc E) (f : Conn E → Conn E) : (p.onConn f).conn = f p.conn := rfl

theorem onConn_congr (hconn : p.conn = q.conn) (f : Conn E → Conn E) :
    (p.onConn f).conn = (q.onConn f).conn := congrArg f hconn

theorem conn_armTls13_congr {env : PumpEnv} (hconn : p.conn = q.conn)
    (hlook : p.cachedTicket env = q.cachedTicket env) :
    (armTls13 p env).conn = (armTls13 q env).conn := by
  unfold Proc.cachedTicket at hlook
  unfold armTls13
  rw [hconn] at hlook ⊢
  generalize ostlsTicketCacheGet p.tickets q.conn.host env.ticks 60 = r at hlook ⊢
  generalize ostlsTicketCacheGet q.tickets q.conn.host env.ticks 60 = r' at hlook ⊢
  obtain ⟨_, hit⟩ := r
  obtain ⟨_, hit'⟩ := r'
  obtain rfl : hit = hit' := hlook
  cases hit <;> rfl

theorem conn_offerSession_congr (hconn : p.conn = q.conn)
    (hlook : p.cachedSession = q.cachedSession) :
    (offerSession G p).1.conn = (offerSession G q).1.conn ∧
      (offerSession G p).2 = (offerSession G q).2 := by
  unfold Proc.cachedSession at hlook
  unfold offerSession
  rw [hlook, hconn]
  cases sessCacheGet q.sessions (sessCacheMakeKey q.conn.host q.conn.port) with
  | none => exact ⟨hconn, rfl⟩
  | some cached =>
    refine ⟨?_, rfl⟩
    simp only [Proc.remember, Proc.onConn, hconn]

/-- The connection when `ostls_setup_bearssl` comes to the caches. -/
def readyForTls (G : Engine E) (env : PumpEnv) (conn : Conn E) : Conn E :=
  { conn with
    eng := G.init
    bearsslInitialised := true
    handshakeStartTicks := env.ticks
    recvBuf := []
    t13PlainLen := 0
    t13PlainOff := 0
    t13SendLen := 0
    t13SendOff := 0 }

/-- `br_ssl_client_reset`, after the session cache was asked. -/
def resetClient (G : Engine E) (r : Proc E × Bool) : Proc E × Bool :=
  let s := G.reset r.1.conn.eng r.1.conn.serverName r.2
  let p := r.1.onConn fun conn => { conn with eng := s.2 }
  if s.1 then (p, true)
  else (p.onConn (ostlsFail · asyncClientResetFail kOTNoError (G.lastError s.2)), false)

theorem ostlsSetupBearssl_of_ok {env : PumpEnv} (htime : env.timeOk = true)
    (hent : env.entropyOk = true) :
    ostlsSetupBearssl G p env =
      if Tries13 p.conn env then (armTls13 (p.onConn (readyForTls G env)) env, true)
      else resetClient G (offerSession G
        (p.onConn fun conn => { readyForTls G env conn with tls13Mode := .off })) := by
  unfold ostlsSetupBearssl
  simp only [htime, hent, Bool.not_true, Bool.false_eq_true, if_false]
  refine if_congr ?_ rfl rfl
  rw [Tries13, Bool.eq_false_iff]
  rfl

theorem conn_resetClient_congr {r r' : Proc E × Bool} (hconn : r.1.conn = r'.1.conn)
    (hresume : r.2 = r'.2) : (resetClient G r).1.conn = (resetClient G r').1.conn ∧
      (resetClient G r).2 = (resetClient G r').2 := by
  unfold resetClient
  simp only [hconn, hresume]
  split
  · exact ⟨onConn_congr hconn _, rfl⟩
  · exact ⟨onConn_congr (onConn_congr hconn _) _, rfl⟩

/-- The caches answer two processes alike. -/
def AnswersAlike (p q : Proc E) (env : PumpEnv) : Prop :=
  (Tries13 p.conn env → p.cachedTicket env = q.cachedTicket env) ∧
    (¬Tries13 p.conn env → p.cachedSession = q.cachedSession)

/-- TLS starts: the ticket matters where TLS 1.3 is tried, the session elsewhere. -/
theorem conn_ostlsSetupBearssl_congr {env : PumpEnv} (hconn : p.conn = q.conn)
    (hlook : env.timeOk = true → env.entropyOk = true → AnswersAlike p q env) :
    (ostlsSetupBearssl G p env).1.conn = (ostlsSetupBearssl G q env).1.conn ∧
      (ostlsSetupBearssl G p env).2 = (ostlsSetupBearssl G q env).2 := by
  obtain ⟨conn, tickets, sessions, log⟩ := p
  obtain ⟨conn', tickets', sessions', log'⟩ := q
  obtain rfl : conn = conn' := hconn
  cases htime : env.timeOk with
  | false =>
    unfold ostlsSetupBearssl
    simp only [htime]
    exact ⟨rfl, rfl⟩
  | true =>
    cases hent : env.entropyOk with
    | false =>
      unfold ostlsSetupBearssl
      simp only [htime, hent]
      exact ⟨rfl, rfl⟩
    | true =>
      obtain ⟨hticket, hsession⟩ := hlook htime hent
      rw [ostlsSetupBearssl_of_ok htime hent, ostlsSetupBearssl_of_ok htime hent]
      dsimp only
      split_ifs with htry
      · exact ⟨conn_armTls13_congr rfl (hticket htry), rfl⟩
      · obtain ⟨hoffer, hresume⟩ := conn_offerSession_congr (G := G)
          (p := (Proc.mk conn tickets sessions log).onConn
            fun conn => { readyForTls G env conn with tls13Mode := .off })
          (q := (Proc.mk conn tickets' sessions' log').onConn
            fun conn => { readyForTls G env conn with tls13Mode := .off })
          rfl (hsession htry)
        exact conn_resetClient_congr hoffer hresume

theorem conn_connectFail_congr (hconn : p.conn = q.conn) (osErr : ℕ) (otErr : ℤ) :
    (connectFail p osErr otErr).proc.conn = (connectFail q osErr otErr).proc.conn :=
  onConn_congr hconn _

/-- `connectDone`, with its conditions on the connection it starts from. -/
theorem connectDone_eq (env : PumpEnv) : connectDone G p env =
    if p.conn.nfConnectComplete = false then connectWait p
    else if p.conn.nfLastResult ≠ kOTNoError then
      connectFail (p.onConn fun conn => { conn with nfConnectComplete := false })
        asyncOtConnectFail p.conn.nfLastResult
    else if env.rcvConnectErr ≠ kOTNoError then
      connectFail (p.onConn fun conn => { conn with nfConnectComplete := false })
        asyncOtConnectFail env.rcvConnectErr
    else
      let r := ostlsSetupBearssl G (p.onConn connectedTcp) env
      ⟨r.1, if r.2 then .connected else .failed, r.2⟩ := by
  unfold connectDone
  cases p.conn.nfConnectComplete with
  | false => rfl
  | true =>
    have htcp : ((p.onConn fun conn => { conn with nfConnectComplete := false }).onConn
        fun conn => { conn with connectPhase := .done, state := .handshaking }) =
        p.onConn connectedTcp := rfl
    rw [if_neg (by decide)]
    dsimp only
    rw [htcp]
    generalize ostlsSetupBearssl G (p.onConn connectedTcp) env = r
    obtain ⟨p', ok⟩ := r
    cases ok <;> rfl

theorem conn_connectDone_congr {env : PumpEnv} (hconn : p.conn = q.conn)
    (hlook : p.conn.nfConnectComplete = true → p.conn.nfLastResult = kOTNoError →
      env.rcvConnectErr = kOTNoError → env.timeOk = true → env.entropyOk = true →
      AnswersAlike p q env) :
    (connectDone G p env).proc.conn = (connectDone G q env).proc.conn ∧
      (connectDone G p env).event = (connectDone G q env).event := by
  rw [connectDone_eq, connectDone_eq, ← hconn]
  split_ifs with harrived hresult hrcv
  · exact ⟨hconn, rfl⟩
  · exact ⟨conn_connectFail_congr (onConn_congr hconn _) _ _, rfl⟩
  · exact ⟨conn_connectFail_congr (onConn_congr hconn _) _ _, rfl⟩
  · have hsetup := conn_ostlsSetupBearssl_congr (G := G) (onConn_congr hconn connectedTcp)
      (hlook (Bool.eq_true_of_not_eq_false harrived) (not_not.1 hresult) (not_not.1 hrcv))
    exact ⟨hsetup.1, congrArg (fun ok => if ok = true then OstlsEvent.connected else .failed)
      hsetup.2⟩

/-- `connectOpened`, likewise. -/
theorem connectOpened_eq : connectOpened p =
    if p.conn.nfOpenComplete = false then connectWait p
    else
      let r := p.onConn fun conn => { conn with nfOpenComplete := false }
      if p.conn.nfLastResult ≠ kOTNoError then connectFail r asyncOtOpenFail p.conn.nfLastResult
      else if p.conn.ep = none then connectFail r asyncOtOpenFail (-1)
      else connectNext (r.onConn fun conn => { conn with epOpen := true }) .needsBind := by
  unfold connectOpened
  cases p.conn.nfOpenComplete <;> rfl

theorem conn_connectOpened_congr (hconn : p.conn = q.conn) :
    (connectOpened p).proc.conn = (connectOpened q).proc.conn ∧
      (connectOpened p).event = (connectOpened q).event := by
  rw [connectOpened_eq, connectOpened_eq, ← hconn]
  split_ifs
  · exact ⟨hconn, rfl⟩
  · exact ⟨conn_connectFail_congr (onConn_congr hconn _) _ _, rfl⟩
  · exact ⟨conn_connectFail_congr (onConn_congr hconn _) _ _, rfl⟩
  · exact ⟨onConn_congr (onConn_congr (onConn_congr hconn _) _) _, rfl⟩

/-- The rest of a connect step does not look into the caches. -/
theorem conn_pumpConnectStep_congr {env : PumpEnv} (hconn : p.conn = q.conn)
    (hlook : SetsUp p.conn env → AnswersAlike p q env) (hst : p.conn.state = .connecting) :
    (pumpConnectStep G p env).proc.conn = (pumpConnectStep G q env).proc.conn ∧
      (pumpConnectStep G p env).event = (pumpConnectStep G q env).event := by
  unfold pumpConnectStep
  rw [← hconn]
  by_cases hexp : elapsed32 env.ticks p.conn.startTicks > p.conn.connectTimeoutTicks
  · rw [if_pos hexp, if_pos hexp]
    exact ⟨conn_connectFail_congr hconn _ _, rfl⟩
  rw [if_neg hexp, if_neg hexp]
  by_cases hdisc : p.conn.nfDisconnect = true
  · rw [if_pos hdisc, if_pos hdisc]
    exact ⟨conn_connectFail_congr (onConn_congr hconn _) _ _, rfl⟩
  rw [if_neg hdisc, if_neg hdisc]
  split <;> rename_i hph
  · exact conn_connectOpened_congr hconn
  · split_ifs
    · exact ⟨conn_connectFail_congr hconn _ _, rfl⟩
    · exact ⟨onConn_congr hconn _, rfl⟩
  · split
    · exact ⟨hconn, rfl⟩
    have hsame : q.conn.nfLastResult = p.conn.nfLastResult := by rw [hconn]
    dsimp only
    by_cases hresult : p.conn.nfLastResult = kOTNoError
    · rw [if_neg (not_not.2 (by exact hresult)), if_neg (not_not.2 (by exact hsame.trans hresult))]
      exact ⟨onConn_congr (onConn_congr hconn _) _, rfl⟩
    · rw [if_pos (by exact hresult), if_pos (by exact hsame ▸ hresult)]
      refine ⟨?_, rfl⟩
      rw [onConn_conn, onConn_conn, hconn]
      exact conn_connectFail_congr (onConn_congr hconn _) _ _
  · split_ifs
    · exact ⟨conn_connectFail_congr hconn _ _, rfl⟩
    · exact ⟨conn_connectFail_congr hconn _ _, rfl⟩
    · exact ⟨onConn_congr hconn _, rfl⟩
  · exact conn_connectDone_congr hconn fun harrived hresult hrcv htime hent => hlook
      ⟨hst, hph, hexp, Bool.eq_false_iff.2 hdisc, harrived, hresult, hrcv, htime, hent⟩
  · exact ⟨hconn, rfl⟩
  · exact ⟨hconn, rfl⟩

/-! The other functions do not look into the caches at all. -/

section

variable (conn : Conn E) (tickets tickets' : TicketCache) (sessions sessions' : SessCache)
  (log log' : List ResumeEvent)

theorem conn_pumpBearsslStep (env : PumpEnv) :
    (pumpBearsslStep G ⟨conn, tickets, sessions, log⟩ env).1.conn =
      (pumpBearsslStep G ⟨conn, tickets', sessions', log'⟩ env).1.conn := by
  unfold pumpBearsslStep
  dsimp only
  split_ifs <;> rfl

theorem conn_recordPostHandshake (hs : HsCtx) (plen now : ℕ) :
    (recordPostHandshake C ⟨conn, tickets, sessions, log⟩ hs plen now).conn =
      (recordPostHandshake C ⟨conn, tickets', sessions', log'⟩ hs plen now).conn := by
  unfold recordPostHandshake
  dsimp only
  split_ifs <;> rfl

theorem conn_pumpTls13ConsumeRecord (hs : HsCtx) (now : ℕ) :
    (pumpTls13ConsumeRecord C ⟨conn, tickets, sessions, log⟩ hs now).1.conn =
        (pumpTls13ConsumeRecord C ⟨conn, tickets', sessions', log'⟩ hs now).1.conn ∧
      (pumpTls13ConsumeRecord C ⟨conn, tickets, sessions, log⟩ hs now).2 =
        (pumpTls13ConsumeRecord C ⟨conn, tickets', sessions', log'⟩ hs now).2 := by
  rw [pumpTls13ConsumeRecord_eq, pumpTls13ConsumeRecord_eq]
  dsimp only
  split_ifs
  · exact ⟨rfl, rfl⟩
  · exact ⟨rfl, rfl⟩
  · exact ⟨rfl, rfl⟩
  · generalize tls13RecordDecrypt C hs.readCtx _ = d
    unfold recordOpened
    dsimp only
    cases d.ret with
    | none => exact ⟨rfl, rfl⟩
    | some r =>
      dsimp only
      split_ifs
      · exact ⟨rfl, rfl⟩
      · exact ⟨rfl, rfl⟩
      · exact ⟨conn_recordPostHandshake .., rfl⟩
      · exact ⟨rfl, rfl⟩

theorem conn_pumpTls13Handshake (hs : HsCtx) (env : PumpEnv) :
    (pumpTls13Handshake C ⟨conn, tickets, sessions, log⟩ hs env).1.conn =
      (pumpTls13Handshake C ⟨conn, tickets', sessions', log'⟩ hs env).1.conn := by
  unfold pumpTls13Handshake
  dsimp only [onConn_conn]
  generalize tls13HandshakeStep C conn.serverName env.rnd hs conn.recvBuf = o
  split
  · rfl
  · cases o.res <;> rfl

theorem conn_pumpTls13Open (hs : HsCtx) (env : PumpEnv) :
    (pumpTls13Open C ⟨conn, tickets, sessions, log⟩ hs env).1.conn =
      (pumpTls13Open C ⟨conn, tickets', sessions', log'⟩ hs env).1.conn := by
  obtain ⟨hconsume, htook⟩ :=
    conn_pumpTls13ConsumeRecord (C := C) conn tickets tickets' sessions sessions' log log' hs env.ticks
  unfold pumpTls13Open
  dsimp only
  rw [htook]
  split_ifs
  · rfl
  · rfl
  · exact hconsume
  · rfl

theorem conn_pumpTls13Step (env : PumpEnv) :
    (pumpTls13Step C ⟨conn, tickets, sessions, log⟩ env).1.conn =
      (pumpTls13Step C ⟨conn, tickets', sessions', log'⟩ env).1.conn := by
  unfold pumpTls13Step
  cases h13 : conn.hs13 with
  | none => rfl
  | some hs =>
    dsimp only
    generalize flushHandshake conn hs env.sendHs = r
    obtain ⟨conn₁, did⟩ := r
    cases did with
    | some did => rfl
    | none =>
      dsimp only
      generalize flushRecord conn₁ env.sendApp = r
      obtain ⟨conn₂, did⟩ := r
      cases did with
      | some did => rfl
      | none =>
        dsimp only
        unfold pumpTls13Drive
        cases h13 : conn₂.hs13 with
        | none => rfl
        | some hs =>
          dsimp only
          split_ifs
          · exact conn_pumpTls13Handshake ..
          · exact conn_pumpTls13Open ..
          · rfl

end

/-- A turn looks into the caches only where TLS starts. -/
theorem conn_pumpStep_congr {env : PumpEnv} (hconn : p.conn = q.conn)
    (hlook : SetsUp p.conn env → AnswersAlike p q env) :
    (pumpStep C G p env).1.conn = (pumpStep C G q env).1.conn := by
  obtain ⟨conn, tickets, sessions, log⟩ := p
  obtain ⟨conn', tickets', sessions', log'⟩ := q
  obtain rfl : conn = conn' := hconn
  have htls : (if conn.tls13Mode ≠ .off then pumpTls13Step C ⟨conn, tickets, sessions, log⟩ env
        else pumpBearsslStep G ⟨conn, tickets, sessions, log⟩ env).1.conn =
      (if conn.tls13Mode ≠ .off then pumpTls13Step C ⟨conn, tickets', sessions', log'⟩ env
        else pumpBearsslStep G ⟨conn, tickets', sessions', log'⟩ env).1.conn := by
    split_ifs
    · exact conn_pumpTls13Step ..
    · exact conn_pumpBearsslStep ..
  unfold pumpStep
  cases hst : conn.state with
  | connecting =>
    obtain ⟨hstep, hevent⟩ := conn_pumpConnectStep_congr (G := G)
      (p := ⟨conn, tickets, sessions, log⟩) (q := ⟨conn, tickets', sessions', log'⟩) rfl hlook hst
    dsimp only
    rw [hevent]
    exact onConn_congr hstep _
  | handshaking =>
    exact htls
  | «open» =>
    exact htls
  | closing =>
    exact htls
  | _ => rfl

theorem conn_pumpTurn_congr {env : PumpEnv} (hconn : p.conn = q.conn)
    (hlook : SetsUp p.conn env → AnswersAlike p q env) :
    (pumpTurn C G p env).1.conn = (pumpTurn C G q env).1.conn := by
  unfold pumpTurn
  rw [← hconn]
  split_ifs with hover
  · exact hconn
  dsimp only
  split_ifs with hpre
  · -- a turn that goes on has left the connection as it is
    rw [pumpHandshakeOrOpenPre_goes hpre]
    have hsame : ({ q with conn := p.conn } : Proc E) = q := by rw [hconn]
    rw [hsame]
    exact conn_pumpStep_congr hconn hlook
  · rfl

theorem answersAlike_of_look {env : PumpEnv} (hconn : p.conn = q.conn)
    (hlook : p.look (.turn env) = q.look (.turn env)) (hdis : p.conn.disposed = false)
    (hset : SetsUp p.conn env) : AnswersAlike p q env := by
  rw [Proc.look, Proc.look, ← hconn, if_pos (And.intro hdis hset), if_pos (And.intro hdis hset),
    Option.some.injEq] at hlook
  constructor
  · intro htry
    rw [if_pos htry, if_pos htry] at hlook
    exact CacheLook.ticket.inj hlook
  · intro htry
    rw [if_neg htry, if_neg htry] at hlook
    exact CacheLook.session.inj hlook

/-- What a call does to a connection depends on the caches through its look only. -/
theorem conn_step_congr {a : Action} (hconn : p.conn = q.conn) (hlook : p.look a = q.look a) :
    (p.step C G a).conn = (q.step C G a).conn := by
  cases a with
  | turn env =>
    unfold Proc.step
    dsimp only
    rw [← hconn]
    split_ifs with hdis
    · exact hconn
    · exact conn_pumpTurn_congr hconn
        (answersAlike_of_look hconn hlook (Bool.eq_false_iff.2 hdis))
  | enter =>
    unfold Proc.step
    dsimp only
    rw [← hconn]
    split_ifs
    · exact hconn
    · exact onConn_congr hconn _
  | others tickets sessions log => exact hconn
  | _ => exact onConn_congr hconn _

/-- Whether a call looks into a cache depends on the connection only. -/
theorem isSome_look_congr {a : Action} (hconn : p.conn = q.conn) :
    (p.look a).isSome = (q.look a).isSome := by
  cases a with
  | turn env =>
    unfold Proc.look
    dsimp only
    rw [hconn]
    split_ifs <;> rfl
  | _ => rfl

/-! ### Any interleaving -/

/-- The state of the world after a run. -/
def World.run (C : Crypto) (G : Engine E) (w : World E) (is : List WorldInput) : World E :=
  is.foldl (World.step C G) w

/-- The calls of a run on the connection `k`. -/
def calls (k : ℕ) (is : List WorldInput) : List Action :=
  is.filterMap fun i => match i with
    | .new .. => none
    | .call j a => if j = k ∧ a.isCall then some a else none

/-- The looks of the connection `k` in a run. -/
def World.looks (C : Crypto) (G : Engine E) (k : ℕ) : World E → List WorldInput → List CacheLook
  | _, [] => []
  | w, .new config allocOk :: is => World.looks C G k (w.step C G (.new config allocOk)) is
  | w, .call j a :: is =>
    (if j = k ∧ a.isCall then w.conns[k]?.bind fun conn => (w.proc conn).look a else none).toList ++
      World.looks C G k (w.step C G (.call j a)) is

/-- A connection goes through these calls with these looks, whatever else is in the caches. -/
def Conn.ActsAll (C : Crypto) (G : Engine E) :
    Conn E → List Action → List CacheLook → Conn E → Prop
  | conn, [], looks, conn' => looks = [] ∧ conn' = conn
  | conn, a :: as, looks, conn' => ∃ p : Proc E, ∃ looks', p.conn = conn ∧
      looks = (p.look a).toList ++ looks' ∧ Conn.ActsAll C G (p.step C G a).conn as looks' conn'

variable {w w' : World E} {k k' : ℕ} {conn : Conn E}

theorem Conn.ActsAll.unique {as : List Action} {looks : List CacheLook}
    {conn conn' conn'' : Conn E} (h : Conn.ActsAll C G conn as looks conn')
    (h' : Conn.ActsAll C G conn as looks conn'') : conn' = conn'' := by
  induction as generalizing conn looks with
  | nil => rw [h.2, h'.2]
  | cons a as ih =>
    obtain ⟨p, rest, hp, hlooks, hall⟩ := h
    obtain ⟨q, rest', hq, hlooks', hall'⟩ := h'
    have hconn : p.conn = q.conn := hp.trans hq.symm
    -- either both look or none does, so the answers to this call are equal
    have hsplit : p.look a = q.look a ∧ rest = rest' := by
      have hlen := isSome_look_congr (a := a) hconn
      have heq := hlooks.symm.trans hlooks'
      cases hlook : p.look a with
      | none =>
        rw [hlook] at hlen heq
        have hlook' : q.look a = none := Option.isSome_eq_false_iff.1 hlen.symm |> Option.isNone_iff_eq_none.1
        rw [hlook'] at heq ⊢
        exact ⟨rfl, heq⟩
      | some look =>
        rw [hlook] at hlen heq
        obtain ⟨look', hlook'⟩ := Option.isSome_iff_exists.1 hlen.symm
        rw [hlook'] at heq ⊢
        obtain ⟨rfl, hrest⟩ := List.cons.inj heq
        exact ⟨rfl, hrest⟩
    obtain ⟨hlook, rfl⟩ := hsplit
    rw [conn_step_congr hconn hlook] at hall
    exact ih hall hall'

/-- A new connection comes after the others. -/
theorem conns_new (hk : w.conns[k]? = some conn) (config : OstlsConfig) (allocOk : Bool) :
    (w.step C G (.new config allocOk)).conns[k]? = some conn := by
  unfold World.step
  dsimp only
  split
  · exact hk
  · exact (List.getElem?_append_left (List.getElem?_eq_some_iff.1 hk).1).trans hk

/-- A call on another connection leaves this one as it is. -/
theorem conns_call_other (hk : w.conns[k]? = some conn) {j : ℕ} {a : Action}
    (hother : ¬(j = k ∧ a.isCall = true)) : (w.step C G (.call j a)).conns[k]? = some conn := by
  unfold World.step
  dsimp only
  split
  · exact hk
  · split_ifs with hcall
    · have hne : j ≠ k := fun h => hother ⟨h, hcall⟩
      exact (List.getElem?_set_ne hne).trans hk
    · exact hk

theorem conns_call_own (hk : w.conns[k]? = some conn) {a : Action} (hcall : a.isCall = true) :
    (w.step C G (.call k a)).conns[k]? = some ((w.proc conn).step C G a).conn := by
  unfold World.step
  dsimp only
  rw [hk]
  dsimp only
  rw [if_pos hcall]
  exact List.getElem?_set_self (List.getElem?_eq_some_iff.1 hk).1

/-- In a run a connection goes through its own calls. -/
theorem actsAll_of_run (is : List WorldInput) (hk : w.conns[k]? = some conn) :
    ∃ conn', (w.run C G is).conns[k]? = some conn' ∧
      Conn.ActsAll C G conn (calls k is) (w.looks C G k is) conn' := by
  induction is generalizing w conn with
  | nil => exact ⟨conn, hk, rfl, rfl⟩
  | cons i is ih =>
    cases i with
    | new config allocOk => exact ih (conns_new hk config allocOk)
    | call j a =>
      unfold World.looks calls
      by_cases hown : j = k ∧ a.isCall = true
      · rw [List.filterMap_cons_some (by exact if_pos hown), if_pos hown, hk]
        obtain ⟨rfl, hcall⟩ := hown
        obtain ⟨conn', hlast, hacts⟩ := ih (conns_call_own hk hcall)
        exact ⟨conn', hlast, w.proc conn, _, rfl, rfl, hacts⟩
      · rw [List.filterMap_cons_none (by exact if_neg hown), if_neg hown]
        exact ih (conns_call_other hk hown)

/-- **Noninterference.**  Take any two runs, of any number of connections.  If a connection gets the
same calls in both, in the same order, and where its TLS starts the caches answer the same, then it
ends up the same, with all that it sent, received and returned: whatever the others do in between
matters through these answers only. -/
theorem noninterference {is is' : List WorldInput} (hk : w.conns[k]? = some conn)
    (hk' : w'.conns[k']? = some conn) (hcalls : calls k is = calls k' is')
    (hlooks : w.looks C G k is = w'.looks C G k' is') :
    (w.run C G is).conns[k]? = (w'.run C G is').conns[k']? := by
  obtain ⟨conn₁, h₁, hacts₁⟩ := actsAll_of_run (C := C) (G := G) is hk
  obtain ⟨conn₂, h₂, hacts₂⟩ := actsAll_of_run (C := C) (G := G) is' hk'
  rw [hcalls, hlooks] at hacts₁
  rw [h₁, h₂, hacts₁.unique hacts₂]

/-- A connection that starts TLS alone, and the same one next to another that does so too. -/
theorem noninterference_two :
    let own := [Action.start startOk, .notify (.openComplete (some 7)) kOTNoError,
      .turn idleEnv, .turn idleEnv, .notify .bindComplete kOTNoError, .turn idleEnv, .turn idleEnv,
      .notify .connect kOTNoError, .turn idleEnv]
    let fresh := Conn.init waitingEngine ⟨[1], 443, [1], 0, 0⟩
    let w : World Unit := ⟨[fresh], .reset, [], []⟩
    let w' : World Unit := ⟨[fresh, fresh], .reset, [], []⟩
    w.looks .transparent waitingEngine 0 (own.map (.call 0)) = [.ticket none] ∧
    (w.run .transparent waitingEngine (own.map (.call 0))).conns[0]? =
      (w'.run .transparent waitingEngine
        (own.flatMap fun a => [.call 0 a, .call 1 a])).conns[1]? := by
  intro own fresh w w'
  exact ⟨by decide +kernel,
    noninterference (show w.conns[0]? = some fresh from rfl) rfl rfl (by decide +kernel)⟩

/-! ### How often a connection looks -/

/-- The looks that a connection has left: one into each cache before TLS starts, and one into the
session cache while TLS 1.3 is tried, since it may fall back. -/
def Conn.looksLeft (conn : Conn E) : ℕ :=
  if conn.state.early then (if conn.tls13Disabled then 1 else 2)
  else if conn.state = .handshaking ∧ conn.tls13Mode = .trying then 1 else 0

/-- At most this many looks, the session cache last. -/
def Within : ℕ → List CacheLook → Prop
  | _, [] => True
  | n, .ticket _ :: looks => n = 2 ∧ Within 1 looks
  | n, .session _ :: looks => 1 ≤ n ∧ looks = []

theorem Within.mono {m n : ℕ} {looks : List CacheLook} (h : Within m looks) (hle : m ≤ n)
    (hn : n ≤ 2) : Within n looks := by
  cases looks with
  | nil => trivial
  | cons look looks =>
    cases look with
    | ticket hit => exact ⟨by have := h.1; omega, h.2⟩
    | session hit => exact ⟨h.1.trans hle, h.2⟩

theorem looksLeft_le (conn : Conn E) : conn.looksLeft ≤ 2 := by
  unfold Conn.looksLeft
  split_ifs <;> omega

theorem looksLeft_keeps {conn conn' : Conn E} (h : Keeps conn conn') :
    conn'.looksLeft ≤ conn.looksLeft := by
  have hmode : conn'.tls13Mode = conn.tls13Mode := congrArg TlsView.mode h.view
  have hdis : conn'.tls13Disabled = conn.tls13Disabled := congrArg TlsView.disabled h.view
  unfold Conn.looksLeft
  rw [hmode, hdis]
  by_cases hearly : conn'.state.early = true
  · rw [if_pos hearly, if_pos (h.early hearly)]
  · rw [if_neg hearly]
    by_cases hshakes : conn'.state = .handshaking ∧ conn.tls13Mode = .trying
    · have hst := (h.handshaking hshakes.1).1
      rw [if_pos hshakes, if_neg (by rw [hst]; simp [OstlsState.early]), if_pos ⟨hst, hshakes.2⟩]
    · rw [if_neg hshakes]
      exact Nat.zero_le _

theorem looksLeft_eventBump (conn : Conn E) (e : OstlsEvent) :
    (eventBump conn e).looksLeft = conn.looksLeft := by
  unfold eventBump
  split_ifs <;> rfl

theorem looksLeft_of_up {conn : Conn E} (h : conn.state.isUp = true) : conn.looksLeft = 0 := by
  unfold Conn.looksLeft
  generalize conn.state = st at h
  cases st with
  | «open» => rfl
  | closing => rfl
  | _ => cases h

theorem looksLeft_ostlsFail (conn : Conn E) (osErr : ℕ) (otErr brErr : ℤ) :
    (ostlsFail conn osErr otErr brErr).looksLeft = 0 := by
  have hover : (ostlsFail conn osErr otErr brErr).state = .failed ∨
      (ostlsFail conn osErr otErr brErr).state = .closed := by
    unfold ostlsFail
    dsimp only
    split_ifs with h
    · exact h
    · exact .inl rfl
  unfold Conn.looksLeft
  obtain hst | hst := hover <;> rw [hst] <;> rfl

/-- Where TLS starts, TLS 1.3 is tried, or given up for good. -/
theorem looksLeft_ostlsSetupBearssl {env : PumpEnv} (htime : env.timeOk = true)
    (hent : env.entropyOk = true) (hst : p.conn.state = .handshaking) :
    (ostlsSetupBearssl G p env).1.conn.looksLeft = if Tries13 p.conn env then 1 else 0 := by
  have htried : ∀ conn : Conn E, conn.state = .handshaking → conn.tls13Mode = .trying →
      conn.looksLeft = 1 := fun conn hst hmode => by
    unfold Conn.looksLeft
    rw [hst, hmode]
    rfl
  have hoff : ∀ conn : Conn E, conn.state = .handshaking → conn.tls13Mode = .off →
      conn.looksLeft = 0 := fun conn hst hmode => by
    unfold Conn.looksLeft
    rw [hst, hmode]
    rfl
  rw [ostlsSetupBearssl_of_ok htime hent]
  split_ifs with htry
  · unfold armTls13
    dsimp only
    split <;> exact htried _ hst rfl
  · have hoffer : ∀ r : Proc E, r.conn.state = .handshaking → r.conn.tls13Mode = .off →
        (offerSession G r).1.conn.state = .handshaking ∧
          (offerSession G r).1.conn.tls13Mode = .off := fun r hst hmode => by
      unfold offerSession
      split <;> exact ⟨hst, hmode⟩
    obtain ⟨hst', hmode'⟩ := hoffer
      (p.onConn fun conn => { readyForTls G env conn with tls13Mode := .off }) hst rfl
    unfold resetClient
    dsimp only
    split
    · exact hoff _ hst' hmode'
    · exact looksLeft_ostlsFail ..

theorem looksLeft_setsUp {env : PumpEnv} (hset : SetsUp p.conn env) :
    (pumpTurn C G p env).1.conn.looksLeft = if Tries13 p.conn env then 1 else 0 := by
  have hpre : pumpHandshakeOrOpenPre p.conn env = (p.conn, true) := by
    unfold pumpHandshakeOrOpenPre
    rw [if_neg (by simp [hset.state]), if_neg (by simp [hset.connected])]
  unfold pumpTurn
  rw [if_neg (by simp [hset.state]), hpre]
  dsimp only
  rw [if_pos rfl]
  unfold pumpStep
  dsimp only
  rw [hset.state]
  dsimp only
  rw [onConn_conn, looksLeft_eventBump]
  unfold pumpConnectStep
  rw [if_neg (by exact hset.inTime), if_neg (by simp [hset.connected]), hset.phase]
  dsimp only
  rw [connectDone_eq, if_neg (by simp [hset.arrived]), if_neg (not_not.2 hset.result),
    if_neg (not_not.2 hset.rcvConnect)]
  exact looksLeft_ostlsSetupBearssl hset.time hset.entropy rfl

/-- A turn that does not start TLS gives no look back. -/
theorem looksLeft_turn {env : PumpEnv} (hset : ¬SetsUp p.conn env) :
    (pumpTurn C G p env).1.conn.looksLeft ≤ p.conn.looksLeft := by
  have hp := resumes_pumpTurn (C := C) (G := G) p env
  generalize (pumpTurn C G p env).1 = q at hp
  have hshaking : ∀ {hs : HsCtx} {o : HsOut}, Shook C p.conn env hs o → p.conn.looksLeft = 1 := by
    intro hs o h
    unfold Conn.looksLeft
    rw [h.state, h.mode]
    rfl
  cases hp with
  | keeps h => exact looksLeft_keeps h
  | tries13 h => exact absurd h hset
  | offers13 h => exact absurd h hset
  | tries12 h => exact absurd h hset
  | offers12 h => exact absurd h hset
  | @shakes mid _ _ _ h hview hst _ hkeeps =>
    have hmode : mid.tls13Mode = .trying := (congrArg TlsView.mode hview).trans h.mode
    have hmid : mid.looksLeft = 1 := by
      unfold Conn.looksLeft
      rw [hst, hmode]
      rfl
    exact (looksLeft_keeps hkeeps).trans (by rw [hmid, hshaking h])
  | opens13 _ _ _ hst => exact (looksLeft_of_up (by rw [hst]; rfl)).le.trans (Nat.zero_le _)
  | @fallsBack conn' _ _ h hview hst =>
    -- the fallback has ruled TLS 1.3 out
    have hdis : conn'.tls13Disabled = true := congrArg TlsView.disabled hview
    rw [hshaking h]
    unfold Conn.looksLeft
    obtain hst | hst := hst
    · rw [hst, hdis]
      exact Nat.le_refl 1
    · rw [hst]
      exact Nat.zero_le 1
  | stores13 _ _ h => exact looksLeft_keeps h
  | opens12 _ _ _ hst => exact (looksLeft_of_up (by rw [hst]; rfl)).le.trans (Nat.zero_le _)

/-- A call, with its look. -/
theorem within_step {a : Action} {looks : List CacheLook} (hcall : a.isCall = true)
    (h : Within (p.step C G a).conn.looksLeft looks) :
    Within p.conn.looksLeft ((p.look a).toList ++ looks) := by
  by_cases hturn : ∃ env, a = .turn env
  · obtain ⟨env, rfl⟩ := hturn
    unfold Proc.step at h
    unfold Proc.look
    dsimp only at h ⊢
    cases hdis : p.conn.disposed with
    | true =>
      rw [if_pos hdis] at h
      simpa using h
    | false =>
      rw [if_neg (by simp [hdis])] at h
      by_cases hset : SetsUp p.conn env
      · rw [if_pos ⟨rfl, hset⟩]
        rw [looksLeft_setsUp hset] at h
        have hleft : p.conn.looksLeft = if p.conn.tls13Disabled then 1 else 2 := by
          unfold Conn.looksLeft
          rw [hset.state]
          rfl
        by_cases htry : Tries13 p.conn env
        · rw [if_pos htry] at h ⊢
          rw [hleft, htry.2.1]
          exact ⟨rfl, h⟩
        · rw [if_neg htry] at h ⊢
          -- the session look was the last one left
          have hnil : looks = [] := by
            cases looks with
            | nil => rfl
            | cons look looks =>
              cases look with
              | ticket => exact absurd h.1 (by decide)
              | session => exact absurd h.1 (by decide)
          refine ⟨?_, hnil⟩
          rw [hleft]
          split_ifs <;> decide
      · rw [if_neg fun hboth => hset hboth.2]
        exact h.mono (looksLeft_turn hset) (looksLeft_le _)
  · have hothers : ∀ tickets sessions log, a ≠ .others tickets sessions log := by
      rintro tickets sessions log rfl
      cases hcall
    -- only a turn looks
    have hnone : p.look a = none := by
      cases a with
      | turn env => exact absurd ⟨env, rfl⟩ hturn
      | _ => rfl
    obtain ⟨conn', hkeep, hstep⟩ := keeps_step (p := p) (C := C) (G := G)
      (fun env heq => hturn ⟨env, heq⟩) hothers
    rw [hstep] at h
    rw [hnone]
    exact h.mono (looksLeft_keeps hkeep) (looksLeft_le _)

/-- The looks that the connection `k` has left, made or not. -/
def World.looksLeft (w : World E) (k : ℕ) : ℕ :=
  match w.conns[k]? with
  | none => 2
  | some conn => conn.looksLeft

theorem World.looksLeft_le (w : World E) (k : ℕ) : w.looksLeft k ≤ 2 := by
  unfold World.looksLeft
  split
  · exact Nat.le_refl 2
  · exact MacTLS.looksLeft_le _

theorem within_looks (k : ℕ) (w : World E) (is : List WorldInput) :
    Within (w.looksLeft k) (World.looks C G k w is) := by
  induction is generalizing w with
  | nil => trivial
  | cons i is ih =>
    have hrest := ih (w.step C G i)
    cases hk : w.conns[k]? with
    | none =>
      have hleft : w.looksLeft k = 2 := by rw [World.looksLeft, hk]
      rw [hleft]
      have hmore := hrest.mono (World.looksLeft_le _ k) (Nat.le_refl 2)
      cases i with
      | new config allocOk => exact hmore
      | call j a =>
        unfold World.looks
        rw [hk]
        split_ifs <;> exact hmore
    | some conn =>
      have hleft : ∀ w : World E, ∀ conn, w.conns[k]? = some conn →
          w.looksLeft k = conn.looksLeft := fun w conn hk => by rw [World.looksLeft, hk]
      rw [hleft w conn hk]
      cases i with
      | new config allocOk =>
        rw [hleft _ _ (conns_new hk config allocOk)] at hrest
        exact hrest
      | call j a =>
        unfold World.looks
        by_cases hown : j = k ∧ a.isCall = true
        · obtain ⟨rfl, hcall⟩ := hown
          rw [hleft _ _ (conns_call_own hk hcall)] at hrest
          rw [if_pos ⟨rfl, hcall⟩, hk]
          exact within_step hcall hrest
        · rw [hleft _ _ (conns_call_other hk hown)] at hrest
          rw [if_neg hown]
          exact hrest

/-- **Each cache is asked once.**  In every run, of any number of connections, a connection looks at
most once for a ticket, and after that at most once for a session. -/
theorem looks_once (C : Crypto) (G : Engine E) (k : ℕ) (is : List WorldInput) :
    ∃ (ticket : Option (Option (SessionTicket × ℕ))) (session : Option (Option SessionParameters)),
      World.looks C G k World.start is =
        (ticket.map .ticket).toList ++ (session.map .session).toList := by
  have h := within_looks (C := C) (G := G) k World.start is
  have hleft : (World.start : World E).looksLeft k = 2 := rfl
  rw [hleft] at h
  -- at most one session after at most one ticket
  cases hlooks : World.looks C G k World.start is with
  | nil => exact ⟨none, none, rfl⟩
  | cons look looks =>
    rw [hlooks] at h
    cases look with
    | session hit =>
      obtain rfl := h.2
      exact ⟨none, some hit, rfl⟩
    | ticket hit =>
      cases looks with
      | nil => exact ⟨some hit, none, rfl⟩
      | cons look looks =>
        cases look with
        | ticket => exact absurd h.2.1 (by decide)
        | session hit' =>
          obtain rfl := h.2.2
          exact ⟨some hit, some hit', rfl⟩

/-! ### Runs of one connection -/

/-- A condition on the calls on a connection, asked of every connection. -/
def Each (ok : Proc E → Action → Prop) (w : World E) : WorldInput → Prop
  | .new .. => True
  | .call k a => ∀ conn ∈ w.conns[k]?, ok (w.proc conn) a

instance (ok : Proc E → Action → Prop) [∀ p a, Decidable (ok p a)] (w : World E)
    (i : WorldInput) : Decidable (Each ok w i) :=
  match i with
  | .new .. => isTrue trivial
  | .call k a => inferInstanceAs (Decidable (∀ conn ∈ w.conns[k]?, ok (w.proc conn) a))

section

variable {ok : Proc E → Action → Prop}

/-- `OSTLS_New` gives a connection in one way. -/
theorem ostlsNew_eq_some {config : OstlsConfig} {allocOk : Bool}
    (h : (ostlsNew G config allocOk).2 = some conn) :
    (ostlsNew G config true).2 = some (.init G config) ∧ conn = .init G config := by
  unfold ostlsNew at h ⊢
  split_ifs at h with hport hlen halloc
  rw [if_neg hport, if_neg hlen]
  exact ⟨rfl, (Option.some.inj h).symm⟩

/-- What the others did to the caches comes as one more step. -/
theorem reach_others (hothers : ∀ p tickets sessions log, ok p (.others tickets sessions log))
    {p₀ p : Proc E} (h : Reach (Proc.step C G) ok p₀ p) (hconn : p.conn = conn) :
    Reach (Proc.step C G) ok p₀ (w.proc conn) := by
  subst hconn
  exact h.tail (hothers p w.tickets w.sessions [])

/-- The connection goes through a run of its own from where `OSTLS_New` made it. -/
def RunsAlone (C : Crypto) (G : Engine E) (ok : Proc E → Action → Prop) (w : World E)
    (conn : Conn E) : Prop :=
  ∃ config tickets sessions, (ostlsNew G config true).2 = some (.init G config) ∧
    Reach (Proc.step C G) ok (.start G config tickets sessions []) (w.proc conn)

/-- In any interleaving a connection goes through a run of its own, in which every step meets what
is asked of the calls.  So what is proved of the runs of one connection holds of all of them. -/
theorem reach_of_world (hothers : ∀ p tickets sessions log, ok p (.others tickets sessions log))
    (h : Reach (World.step C G) (Each ok) .start w) (hmem : conn ∈ w.conns) :
    RunsAlone C G ok w conn := by
  induction h generalizing conn with
  | refl => cases hmem
  | @tail w i _ hi ih =>
    -- a connection that is left alone
    have hkeep : ∀ w' : World E, conn ∈ w.conns → RunsAlone C G ok w' conn := fun w' hmem => by
      obtain ⟨config, tickets, sessions, hnew, hreach⟩ := ih hmem
      exact ⟨config, tickets, sessions, hnew, reach_others hothers hreach rfl⟩
    cases i with
    | new config allocOk =>
      unfold World.step at hmem ⊢
      dsimp only at hmem ⊢
      split at hmem <;> rename_i hnew
      · exact hkeep _ hmem
      · obtain hmem | hmem := List.mem_append.1 hmem
        · exact hkeep _ hmem
        · obtain rfl := List.mem_singleton.1 hmem
          obtain ⟨hnew', rfl⟩ := ostlsNew_eq_some hnew
          exact ⟨config, w.tickets, w.sessions, hnew', .refl⟩
    | call k a =>
      unfold World.step at hmem ⊢
      dsimp only at hmem ⊢
      split at hmem <;> rename_i hk
      · exact hkeep _ hmem
      · split_ifs at hmem ⊢ with hcall
        · obtain hmem | rfl := List.mem_or_eq_of_mem_set hmem
          · exact hkeep _ hmem
          · obtain ⟨config, tickets, sessions, hnew, hreach⟩ := ih (List.mem_of_getElem? hk)
            exact ⟨config, tickets, sessions, hnew,
              reach_others hothers (hreach.tail (hi _ hk)) rfl⟩
        · exact hkeep _ hmem

/-! ### What a connection logs -/

/-- What the connection `k` offered, stored and completed. -/
def World.eventsOf (w : World E) (k : ℕ) : List ResumeEvent :=
  (w.log.filter fun e => e.conn = k).map Entry.event

theorem mem_eventsOf {ev : ResumeEvent} :
    ev ∈ w.eventsOf k ↔ ∃ e ∈ w.log, e.conn = k ∧ e.event = ev := by
  simp [World.eventsOf, and_assoc]

theorem eventsOf_put (w : World E) (j k : ℕ) (p : Proc E) :
    (w.put j p).eventsOf k = w.eventsOf k ++ if j = k then p.resumeLog else [] := by
  unfold World.eventsOf World.put
  rw [List.filter_append, List.map_append]
  congr 1
  split_ifs with hjk
  · rw [List.filter_eq_self.2 fun e he => ?_, List.map_map]
    · exact List.map_id _
    · obtain ⟨_, -, rfl⟩ := List.mem_map.1 he
      exact decide_eq_true hjk
  · rw [List.filter_eq_nil_iff.2 fun e he => ?_, List.map_nil]
    obtain ⟨_, -, rfl⟩ := List.mem_map.1 he
    simpa using hjk

/-- A property of a connection and its events that holds of a new one, and is kept by every call. -/
structure Logged (C : Crypto) (G : Engine E) (ok : Proc E → Action → Prop)
    (P : List ResumeEvent → Conn E → Prop) : Prop where
  init : ∀ config, P [] (.init G config)
  keeps : ∀ {events conn conn'}, P events conn → Keeps conn conn' → P events conn'
  turn : ∀ {events p env q}, P events p.conn → ok p (.turn env) → p.conn.disposed = false →
    p.resumeLog = [] → Resumes C G p env q → P (events ++ q.resumeLog) q.conn

variable {P : List ResumeEvent → Conn E → Prop}

theorem Logged.step (h : Logged C G ok P) {events : List ResumeEvent} {a : Action}
    (hp : P events p.conn) (hok : ok p a) (hnil : p.resumeLog = []) (hcall : a.isCall = true) :
    P (events ++ (p.step C G a).resumeLog) (p.step C G a).conn := by
  by_cases hturn : ∃ env, a = .turn env
  · obtain ⟨env, rfl⟩ := hturn
    unfold Proc.step
    dsimp only
    split_ifs with hdis
    · rw [hnil, List.append_nil]
      exact hp
    · exact h.turn hp hok (Bool.eq_false_iff.2 hdis) hnil (resumes_pumpTurn p env)
  · have hothers : ∀ tickets sessions log, a ≠ .others tickets sessions log := by
      rintro tickets sessions log rfl
      cases hcall
    obtain ⟨conn', hkeep, hstep⟩ := keeps_step (p := p) (C := C) (G := G)
      (fun env heq => hturn ⟨env, heq⟩) hothers
    rw [hstep]
    dsimp only
    rw [hnil, List.append_nil]
    exact h.keeps hp hkeep

/-- Such a property holds of every connection of every run, with the events of this connection. -/
theorem Logged.of_world (hP : Logged C G ok P)
    (h : Reach (World.step C G) (Each ok) .start w) (hk : w.conns[k]? = some conn) :
    P (w.eventsOf k) conn := by
  suffices hall : (∀ e ∈ w.log, e.conn < w.conns.length) ∧
      ∀ (k : ℕ) conn, w.conns[k]? = some conn → P (w.eventsOf k) conn from hall.2 k conn hk
  clear hk
  refine h.invariant (P := fun w => (∀ e ∈ w.log, e.conn < w.conns.length) ∧
    ∀ (k : ℕ) conn, w.conns[k]? = some conn → P (w.eventsOf k) conn)
    ⟨fun e he => (by cases he), fun k conn hk => (by cases hk)⟩ ?_
  rintro w i ⟨howned, hw⟩ hi
  cases i with
  | new config allocOk =>
    unfold World.step
    dsimp only
    split <;> rename_i hnew
    · exact ⟨howned, hw⟩
    · rename_i conn'
      obtain ⟨-, rfl⟩ := ostlsNew_eq_some hnew
      refine ⟨fun e he => ?_, fun k conn hk => ?_⟩
      · rw [List.length_append]
        exact Nat.lt_add_right _ (howned e he)
      · obtain hlt | rfl | hgt := Nat.lt_trichotomy k w.conns.length
        · rw [List.getElem?_append_left hlt] at hk
          exact hw k conn hk
        · -- the new one, which has logged nothing
          rw [List.getElem?_concat_length] at hk
          have hnone : World.eventsOf { w with conns := w.conns ++ [.init G config] }
              w.conns.length = [] := by
            refine List.eq_nil_iff_forall_not_mem.2 fun ev hev => ?_
            obtain ⟨e, he, hconn, -⟩ := mem_eventsOf.1 hev
            exact Nat.ne_of_lt (howned e he) hconn
          rw [hnone, ← Option.some.inj hk]
          exact hP.init config
        · rw [List.getElem?_eq_none (by rw [List.length_append]; exact hgt)] at hk
          cases hk
  | call j a =>
    unfold World.step
    dsimp only
    split <;> rename_i hj
    · exact ⟨howned, hw⟩
    · rename_i old
      split_ifs with hcall
      · refine ⟨fun e he => ?_, fun k conn hk => ?_⟩
        · rw [World.put, List.length_set]
          obtain he | he := List.mem_append.1 he
          · exact howned e he
          · obtain ⟨_, -, rfl⟩ := List.mem_map.1 he
            exact (List.getElem?_eq_some_iff.1 hj).1
        · rw [eventsOf_put]
          by_cases hjk : j = k
          · subst hjk
            rw [World.put, List.getElem?_set_self (List.getElem?_eq_some_iff.1 hj).1] at hk
            rw [if_pos rfl, ← Option.some.inj hk]
            exact hP.step (hw j old hj) (hi old hj) rfl hcall
          · rw [World.put, List.getElem?_set_ne hjk] at hk
            rw [if_neg hjk, List.append_nil]
            exact hw k conn hk
      · exact ⟨howned, hw⟩

end

end MacTLS
