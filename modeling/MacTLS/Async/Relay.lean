import MacTLS.Async.Resuming

/-!
# The data of a TLS 1.2 connection

On the TLS 1.2 path the caller's data goes through the two buffers of the connection and through the
engine.  The engine is whatever it is: `Engine.traced` is the same engine, with what it was given to
encrypt and what was taken off it written down.

* `Relays` : where the data of a connection is;
* `relays_step` : what every call and every turn keep;
* `relays_exactly` : so nothing is lost, repeated or reordered between the caller and the engine.
-/

namespace MacTLS

open Lib

variable {E : Type} {C : Crypto} {G : Engine E}

/-! ### Engines that remember -/

/-- The application data that went through an engine. -/
structure Traffic where
  /-- What it decrypted and was taken off it. -/
  taken : Bytes
  /-- What it was given to encrypt. -/
  put : Bytes

def Traffic.none : Traffic := ⟨[], []⟩

/-- An engine that writes down the application data that goes through it. -/
def Engine.traced (G : Engine E) : Engine (E × Traffic) where
  init := (G.init, .none)
  currentState e := G.currentState e.1
  lastError e := G.lastError e.1
  recvrecLen e := G.recvrecLen e.1
  recvrecAck e bytes := (G.recvrecAck e.1 bytes, e.2)
  sendrecBuf e := G.sendrecBuf e.1
  sendrecAck e n := (G.sendrecAck e.1 n, e.2)
  recvappBuf e := G.recvappBuf e.1
  recvappAck e n :=
    (G.recvappAck e.1 n, { e.2 with taken := e.2.taken ++ (G.recvappBuf e.1).take n })
  sendappLen e := G.sendappLen e.1
  sendappAck e bytes := (G.sendappAck e.1 bytes, { e.2 with put := e.2.put ++ bytes })
  flush e := (G.flush e.1, e.2)
  close e := (G.close e.1, e.2)
  session e := G.session e.1
  setSession e session := (G.setSession e.1 session, e.2)
  reset e name resume :=
    let r := G.reset e.1 name resume
    (r.1, r.2, e.2)

/-! ### The data of a connection -/

/-- The data on its way: through the engine, and on both sides of the two buffers. -/
structure AppData where
  traffic : Traffic
  returned : Bytes
  readBuf : Bytes
  accepted : Bytes
  writeBuf : Bytes

def AppData.none : AppData := ⟨.none, [], [], [], []⟩

def Conn.data (conn : Conn (E × Traffic)) : AppData where
  traffic := conn.eng.2
  returned := conn.history.returned
  readBuf := conn.readBuf.toList
  accepted := conn.history.accepted
  writeBuf := conn.writeBuf.toList

/-- No data is there yet. -/
def OstlsState.unopened (st : OstlsState) : Prop := st.early = true ∨ st = .handshaking

/-- Nothing is lost between the caller and the engine.  There is no data before a connection is
open, and none goes through the engine while TLS 1.3 is tried or in use. -/
structure Relays (conn : Conn (E × Traffic)) : Prop where
  quiet : conn.state.unopened → conn.data = .none
  apart : conn.tls13Mode ≠ .off → conn.eng.2 = .none
  inward : conn.tls13Mode = .off →
    conn.history.returned ++ conn.readBuf.toList = conn.eng.2.taken
  outward : conn.tls13Mode = .off →
    conn.history.accepted = conn.eng.2.put ++ conn.writeBuf.toList

section

variable {conn conn' : Conn (E × Traffic)}

theorem relays_of_none (h : conn.data = .none) : Relays conn := by
  have heng : conn.eng.2 = .none := congrArg AppData.traffic h
  have hret : conn.history.returned = [] := congrArg AppData.returned h
  have hread : conn.readBuf.toList = [] := congrArg AppData.readBuf h
  have hacc : conn.history.accepted = [] := congrArg AppData.accepted h
  have hwrite : conn.writeBuf.toList = [] := congrArg AppData.writeBuf h
  refine ⟨fun _ => h, fun _ => heng, fun _ => ?_, fun _ => ?_⟩
  · rw [hret, hread, heng]
    rfl
  · rw [hacc, hwrite, heng]
    rfl

@[simp] theorem data_eventBump (conn : Conn (E × Traffic)) (e : OstlsEvent) :
    (eventBump conn e).data = conn.data := by
  unfold eventBump
  split_ifs <;> rfl

theorem unopened_of_keeps (hk : Keeps conn conn') (hst : conn'.state.unopened) :
    conn.state.unopened :=
  hst.imp hk.early fun h => (hk.handshaking h).1

theorem not_unopened_of_up (hup : conn.state.isUp = true) : ¬conn.state.unopened := by
  generalize conn.state = st at hup
  rintro (h | rfl)
  · cases st <;> cases hup <;> cases h
  · cases hup

namespace Relays

/-- No data moves. -/
theorem congr (h : Relays conn) (hst : conn'.state.unopened → conn.state.unopened)
    (hmode : conn'.tls13Mode = conn.tls13Mode) (hdata : conn'.data = conn.data) :
    Relays conn' := by
  have heng : conn'.eng.2 = conn.eng.2 := congrArg AppData.traffic hdata
  have hret : conn'.history.returned = conn.history.returned := congrArg AppData.returned hdata
  have hread : conn'.readBuf.toList = conn.readBuf.toList := congrArg AppData.readBuf hdata
  have hacc : conn'.history.accepted = conn.history.accepted := congrArg AppData.accepted hdata
  have hwrite : conn'.writeBuf.toList = conn.writeBuf.toList := congrArg AppData.writeBuf hdata
  refine ⟨fun h' => hdata.trans (h.quiet (hst h')), ?_, ?_, ?_⟩ <;> rw [hmode, heng]
  · exact h.apart
  · rw [hret, hread]
    exact h.inward
  · rw [hacc, hwrite]
    exact h.outward

theorem keeps (h : Relays conn) (hk : Keeps conn conn') (hdata : conn'.data = conn.data) :
    Relays conn' :=
  h.congr (unopened_of_keeps hk) (congrArg TlsView.mode hk.view) hdata

/-- Data moves on the TLS 1.3 path, which does not use the engine. -/
theorem moves13 (h : Relays conn) (hk : Keeps conn conn') (hst : ¬conn.state.unopened)
    (hmode : conn.tls13Mode ≠ .off) (heng : conn'.eng.2 = conn.eng.2) : Relays conn' := by
  have hmode' : conn'.tls13Mode = conn.tls13Mode := congrArg TlsView.mode hk.view
  exact ⟨fun hst' => absurd (unopened_of_keeps hk hst') hst,
    fun _ => heng.trans (h.apart hmode), fun hoff => absurd (hmode'.symm.trans hoff) hmode,
    fun hoff => absurd (hmode'.symm.trans hoff) hmode⟩

/-- Data moves on the TLS 1.2 path. -/
theorem moves12 (hk : Keeps conn conn') (hst : ¬conn.state.unopened)
    (hoff : conn.tls13Mode = .off)
    (hin : conn'.data.returned ++ conn'.data.readBuf = conn'.data.traffic.taken)
    (hout : conn'.data.accepted = conn'.data.traffic.put ++ conn'.data.writeBuf) :
    Relays conn' := by
  have hmode' : conn'.tls13Mode = conn.tls13Mode := congrArg TlsView.mode hk.view
  exact ⟨fun hst' => absurd (unopened_of_keeps hk hst') hst,
    fun hne => absurd (hmode'.trans hoff) hne, fun _ => hin, fun _ => hout⟩

theorem bump (h : Relays conn) (e : OstlsEvent) : Relays (eventBump conn e) :=
  h.keeps (keeps_eventBump conn e) (data_eventBump conn e)

end Relays

/-! ### What leaves the data alone -/

@[simp] theorem data_ostlsFail (conn : Conn (E × Traffic)) (osErr : ℕ) (otErr brErr : ℤ) :
    (ostlsFail conn osErr otErr brErr).data = conn.data := rfl

@[simp] theorem data_closeProvider (conn : Conn (E × Traffic)) :
    (closeProvider conn).data = conn.data := by
  unfold closeProvider
  split_ifs
  · split <;> rfl
  · rfl

@[simp] theorem data_forgetTls13 (conn : Conn (E × Traffic)) :
    (forgetTls13 conn).data = conn.data := data_closeProvider conn

theorem data_otRcvNothing (conn : Conn (E × Traffic)) (r : RcvResult) :
    (otRcvNothing conn r).1.data = conn.data := by
  unfold otRcvNothing
  split
  · rfl
  · split_ifs <;> rfl
  all_goals rfl

theorem data_pumpOtRecvTls13 (conn : Conn (E × Traffic)) (env : RecvEnv) :
    (pumpOtRecvTls13 conn env).1.data = conn.data := by
  unfold pumpOtRecvTls13
  split_ifs
  · rfl
  · rfl
  · split
    · rfl
    · exact data_otRcvNothing conn _

theorem data_ostlsSendRaw (conn : Conn (E × Traffic)) (buf : Bytes) (env : SendEnv) :
    (ostlsSendRaw conn buf env).1.data = conn.data := by
  unfold ostlsSendRaw
  split_ifs
  · rfl
  · rfl
  · split <;> rfl

theorem data_flushHandshake (conn : Conn (E × Traffic)) (hs : HsCtx) (env : SendEnv) :
    (flushHandshake conn hs env).1.data = conn.data := by
  have hraw := data_ostlsSendRaw conn
    (slice hs.msgBuf hs.msgOffset (hs.msgLen - hs.msgOffset)) env
  unfold flushHandshake
  split_ifs
  · generalize ostlsSendRaw conn (slice hs.msgBuf hs.msgOffset (hs.msgLen - hs.msgOffset)) env = r
      at hraw ⊢
    obtain ⟨conn', sent⟩ := r
    cases sent with
    | none => exact hraw
    | some sent =>
      dsimp only
      split_ifs <;> exact hraw
  · rfl

theorem data_flushRecord (conn : Conn (E × Traffic)) (env : SendEnv) :
    (flushRecord conn env).1.data = conn.data := by
  have hraw := data_ostlsSendRaw conn
    (slice conn.t13SendRec conn.t13SendOff (conn.t13SendLen - conn.t13SendOff)) env
  unfold flushRecord
  split_ifs
  · generalize ostlsSendRaw conn
      (slice conn.t13SendRec conn.t13SendOff (conn.t13SendLen - conn.t13SendOff)) env = r at hraw ⊢
    obtain ⟨conn', sent⟩ := r
    cases sent with
    | none => exact hraw
    | some sent =>
      dsimp only
      split_ifs
      · exact (data_eventBump _ _).trans hraw
      · exact hraw
  · rfl

theorem data_ostlsFallbackToTls12 (conn : Conn (E × Traffic)) (env : PumpEnv) :
    (ostlsFallbackToTls12 conn env).1.data = conn.data := by
  unfold ostlsFallbackToTls12
  dsimp only
  split_ifs
  · exact data_forgetTls13 conn
  · exact data_forgetTls13 conn
  · exact data_forgetTls13 conn

theorem data_pumpOtRecvIntoBearssl (conn : Conn (E × Traffic)) (env : RecvEnv) :
    (pumpOtRecvIntoBearssl G.traced conn env).1.data = conn.data := by
  unfold pumpOtRecvIntoBearssl
  dsimp only
  split_ifs
  · rfl
  · rfl
  · rfl
  · split
    · rfl
    · exact data_otRcvNothing conn _

theorem data_pumpOtSendFromBearssl (conn : Conn (E × Traffic)) (env : SendEnv) :
    (pumpOtSendFromBearssl G.traced conn env).1.data = conn.data := by
  unfold pumpOtSendFromBearssl
  dsimp only
  split_ifs
  · rfl
  · rfl
  · split <;> rfl

end

/-! ### Before a connection is open -/

section

variable {p : Proc (E × Traffic)}

theorem none_ite {c : Prop} [Decidable c] {r r' : Proc (E × Traffic) × Bool}
    (h : r.1.conn.data = .none) (h' : r'.1.conn.data = .none) :
    (if c then r else r').1.conn.data = .none := by
  split_ifs
  · exact h
  · exact h'

theorem none_ostlsSetupBearssl (h : p.conn.data = .none) (env : PumpEnv) :
    (ostlsSetupBearssl G.traced p env).1.conn.data = .none := by
  -- the engine starts over, and nothing went through it
  have hstart : ∀ conn' : Conn (E × Traffic), conn'.eng.2 = .none →
      conn'.history = p.conn.history → conn'.readBuf = p.conn.readBuf →
      conn'.writeBuf = p.conn.writeBuf → conn'.data = .none := by
    intro conn' heng hhistory hread hwrite
    rw [Conn.data, heng, hhistory, hread, hwrite]
    exact congrArg (fun d : AppData => { d with traffic := .none }) h
  unfold ostlsSetupBearssl
  split
  · exact h
  · dsimp only
    split
    · exact hstart _ rfl rfl rfl rfl
    · split
      · unfold armTls13
        dsimp only
        split <;> exact hstart _ rfl rfl rfl rfl
      · unfold offerSession
        split
        · refine none_ite ?_ ((data_ostlsFail _ _ _ _).trans ?_) <;>
            refine hstart _ rfl ?_ ?_ ?_ <;> dsimp only [Proc.onConn]
        · refine none_ite ?_ ((data_ostlsFail _ _ _ _).trans ?_) <;>
            refine hstart _ rfl ?_ ?_ ?_ <;> dsimp only [Proc.onConn, Proc.remember]

theorem none_pumpConnectStep (h : p.conn.data = .none) (env : PumpEnv) :
    (pumpConnectStep G.traced p env).proc.conn.data = .none := by
  unfold pumpConnectStep
  by_cases hexp : elapsed32 env.ticks p.conn.startTicks > p.conn.connectTimeoutTicks
  · rw [if_pos hexp]
    exact h
  rw [if_neg hexp]
  by_cases hdisc : p.conn.nfDisconnect = true
  · rw [if_pos hdisc]
    exact h
  rw [if_neg hdisc]
  split
  · unfold connectOpened
    dsimp only
    split_ifs <;> exact h
  · split_ifs <;> exact h
  · split
    · exact h
    · dsimp only
      split_ifs <;> exact h
  · split_ifs <;> exact h
  · have hsetup := none_ostlsSetupBearssl (G := G) (p := p.onConn connectedTcp) h env
    have heq : ∀ {q : Proc (E × Traffic)} {ok : Bool},
        ostlsSetupBearssl G.traced (p.onConn connectedTcp) env = (q, ok) →
          q.conn.data = .none := fun hq => by
      rw [hq] at hsetup
      exact hsetup
    unfold connectDone
    split
    · exact h
    · dsimp only
      split
      · exact h
      · split
        · exact h
        · split <;> rename_i q hq
          · exact heq hq
          · exact heq hq
  · exact h
  · exact h

theorem none_pumpTls13Handshake (h : p.conn.data = .none) (hs : HsCtx) (env : PumpEnv) :
    (pumpTls13Handshake C p hs env).1.conn.data = .none := by
  unfold pumpTls13Handshake
  dsimp only
  by_cases hdone : (tls13HandshakeStep C p.conn.serverName env.rnd hs p.conn.recvBuf).hs.state =
      .complete ∧
    (tls13HandshakeStep C p.conn.serverName env.rnd hs p.conn.recvBuf).hs.msgOffset ≥
      (tls13HandshakeStep C p.conn.serverName env.rnd hs p.conn.recvBuf).hs.msgLen
  · rw [if_pos hdone]
    exact (data_eventBump _ _).trans h
  · rw [if_neg hdone]
    split
    · exact (data_pumpOtRecvTls13 _ _).trans h
    · exact h
    · exact h
    · dsimp only
      split_ifs
      · exact (data_ostlsFallbackToTls12 _ _).trans h
      · exact (data_ostlsFallbackToTls12 _ _).trans h
    · exact h

end

/-! ### The TLS 1.3 path -/

section

variable {conn : Conn (E × Traffic)} {p : Proc (E × Traffic)} {hs : HsCtx}

theorem traffic_pumpTls13DeliverPlain (conn : Conn (E × Traffic)) (hs : HsCtx) :
    (pumpTls13DeliverPlain conn hs).1.eng.2 = conn.eng.2 := by
  unfold pumpTls13DeliverPlain
  dsimp only
  split_ifs
  · rfl
  · rfl
  · exact congrArg AppData.traffic (data_eventBump _ _)

theorem data_recordAlert (conn : Conn (E × Traffic)) (hs : HsCtx) (plen : ℕ) :
    (recordAlert conn hs plen).data = conn.data := by
  unfold recordAlert
  dsimp only
  split_ifs
  · exact data_eventBump _ _
  · rfl
  · rfl
  · rfl

theorem data_receiveOrClose (conn : Conn (E × Traffic)) (env : RecvEnv) :
    (receiveOrClose conn env).1.data = conn.data := by
  have hreceived : (if conn.peerClosed then (conn, Did.idle) else pumpOtRecvTls13 conn env).1.data =
      conn.data := by
    split_ifs
    · rfl
    · exact data_pumpOtRecvTls13 conn env
  unfold receiveOrClose orElse
  generalize (if conn.peerClosed then (conn, Did.idle) else pumpOtRecvTls13 conn env) = r
    at hreceived ⊢
  dsimp only
  split_ifs
  · exact (data_eventBump _ _).trans hreceived
  · exact hreceived
  · exact hreceived

theorem relays_pumpTls13ConsumeRecord (h : Relays p.conn) (hup : p.conn.state.isUp = true)
    (hmode : p.conn.tls13Mode ≠ .off) (now : ℕ) :
    Relays (pumpTls13ConsumeRecord C p hs now).1.conn := by
  have hst := not_unopened_of_up hup
  rw [pumpTls13ConsumeRecord_eq]
  split_ifs
  · exact h
  · exact h.keeps (keeps_recordFail _ _) rfl
  · exact h
  · -- the connection after the record was taken
    have htaken : ∀ (hs' : HsCtx) (recv : Bytes),
        Keeps p.conn { p.conn with hs13 := some hs', recvBuf := recv } := fun hs' recv =>
      .of_up rfl hup hup
    unfold recordOpened
    dsimp only [Proc.onConn]
    split
    · exact h.keeps ((htaken _ _).trans (keeps_recordFail _ _)) rfl
    · split_ifs
      · exact h.moves13 ((htaken _ _).trans (keeps_recordData _ _ _)) hst hmode
          (traffic_pumpTls13DeliverPlain _ _)
      · exact h.keeps ((htaken _ _).trans (keeps_recordAlert _ _ _)) (data_recordAlert _ _ _)
      · unfold recordPostHandshake
        dsimp only
        split_ifs
        · exact h.keeps (htaken _ _) rfl
        · exact h.keeps (htaken _ _) rfl
      · exact h.keeps (htaken _ _) rfl

theorem relays_pumpTls13Open (h : Relays p.conn) (hup : p.conn.state.isUp = true)
    (hmode : p.conn.tls13Mode ≠ .off) (env : PumpEnv) :
    Relays (pumpTls13Open C p hs env).1.conn := by
  have hst := not_unopened_of_up hup
  unfold pumpTls13Open
  dsimp only
  split_ifs
  · exact h.moves13 (keeps_pumpTls13DeliverPlain _ _) hst hmode
      (traffic_pumpTls13DeliverPlain _ _)
  · refine h.moves13 (.of_up ?_ hup ?_) hst hmode ?_ <;>
      (unfold pumpTls13BuildSend; dsimp only; split_ifs)
    all_goals first
      | rfl
      | exact hup
  · exact relays_pumpTls13ConsumeRecord h hup hmode env.ticks
  · exact h.keeps (keeps_receiveOrClose _ _) (data_receiveOrClose _ _)

theorem relays_pumpTls13Drive (h : Relays p.conn) (hmode : p.conn.tls13Mode ≠ .off)
    (env : PumpEnv) : Relays (pumpTls13Drive C p env).1.conn := by
  unfold pumpTls13Drive
  split
  · exact h
  · split_ifs with hhs hup
    · -- the mode may change in a step of the handshake, but no data is there yet
      exact relays_of_none (none_pumpTls13Handshake (h.quiet (.inr hhs.1)) _ env)
    · exact relays_pumpTls13Open h hup hmode env
    · exact h

theorem relays_pumpTls13Step (h : Relays p.conn) (hmode : p.conn.tls13Mode ≠ .off)
    (env : PumpEnv) : Relays (pumpTls13Step C p env).1.conn := by
  unfold pumpTls13Step
  split
  · exact h
  · rename_i hs h13
    have hflush := flushes_flushHandshake h13 env.sendHs
    have hdata := data_flushHandshake p.conn hs env.sendHs
    split <;> rename_i conn₁ h1 <;> rw [h1] at hflush hdata
    · exact h.keeps hflush.keeps hdata
    · have hrecord := hflush.trans (flushes_flushRecord conn₁ env.sendApp)
      have hdata' := (data_flushRecord conn₁ env.sendApp).trans hdata
      split <;> rename_i conn₂ h2 <;> rw [h2] at hrecord hdata'
      · exact h.keeps hrecord.keeps hdata'
      · have hmode₂ : conn₂.tls13Mode = p.conn.tls13Mode := congrArg TlsView.mode hrecord.keeps.view
        exact relays_pumpTls13Drive (p := { p with conn := conn₂ })
          (h.keeps hrecord.keeps hdata') (hmode₂ ▸ hmode) env

end

/-! ### The TLS 1.2 path -/

section

variable {conn : Conn (E × Traffic)} {p : Proc (E × Traffic)}

/-- Decrypted data goes into the read buffer, as much of it as the buffer takes. -/
theorem relays_pumpBearsslRecvappToRing (h : Relays conn) (hst : ¬conn.state.unopened)
    (hoff : conn.tls13Mode = .off) : Relays (pumpBearsslRecvappToRing G.traced conn).1 := by
  have hk := keeps_pumpBearsslRecvappToRing (G := G.traced) conn
  unfold pumpBearsslRecvappToRing at hk ⊢
  dsimp only at hk ⊢
  split_ifs at hk ⊢
  · exact h
  · exact h
  · refine Relays.moves12 hk hst hoff ?_ ?_ <;> rw [data_eventBump]
    · show conn.history.returned ++ (conn.readBuf.push (G.recvappBuf conn.eng.1)).toList =
        conn.eng.2.taken ++ (G.recvappBuf conn.eng.1).take
          (conn.readBuf.accepts (G.recvappBuf conn.eng.1).length)
      rw [Ring.toList_push, ← List.append_assoc, h.inward hoff]
    · exact h.outward hoff

/-- Data that was written goes into the engine, as much of it as there is room for. -/
theorem relays_pumpRingToBearsslSendapp (h : Relays conn) (hst : ¬conn.state.unopened)
    (hoff : conn.tls13Mode = .off) : Relays (pumpRingToBearsslSendapp G.traced conn).1 := by
  have hk := keeps_pumpRingToBearsslSendapp (G := G.traced) conn
  have hout : ∀ n, conn.history.accepted = (conn.eng.2.put ++ conn.writeBuf.toList.take n) ++
      (conn.writeBuf.advance n).toList := fun n => by
    rw [Queue.toList_advance, List.append_assoc, List.take_append_drop]
    exact h.outward hoff
  unfold pumpRingToBearsslSendapp at hk ⊢
  dsimp only at hk ⊢
  split_ifs at hk ⊢
  · exact h
  · exact h
  · refine Relays.moves12 hk hst hoff ?_ ?_ <;> rw [data_eventBump]
    · exact h.inward hoff
    · exact hout _
  · exact Relays.moves12 hk hst hoff (h.inward hoff) (hout _)

/-- What the parts of a step keep. -/
theorem orElse_of {P : Conn E → Prop} {r : Conn E × Did} {next : Conn E → Conn E × Did}
    (h : P r.1) (hnext : ∀ conn, P conn → P (next conn).1) : P (orElse r next).1 := by
  unfold orElse
  split_ifs
  · exact hnext _ h
  · exact h

theorem relays_bearsslMove (h : Relays conn) (hoff : conn.tls13Mode = .off) (flags : EngineFlags)
    (env : PumpEnv) : Relays (bearsslMove G.traced flags conn env).1 := by
  have hkeeps : ∀ {conn conn' : Conn (E × Traffic)}, Relays conn' → Keeps conn conn' →
      conn.tls13Mode = .off → Relays conn' ∧ conn'.tls13Mode = .off := fun h hk hoff =>
    ⟨h, (congrArg TlsView.mode hk.view).trans hoff⟩
  unfold bearsslMove
  refine (orElse_of (P := fun conn => Relays conn ∧ conn.tls13Mode = .off) ?_ fun conn h =>
    orElse_of (P := fun conn => Relays conn ∧ conn.tls13Mode = .off) ?_ fun conn h =>
    orElse_of (P := fun conn => Relays conn ∧ conn.tls13Mode = .off) ?_ fun conn h =>
    orElse_of (P := fun conn => Relays conn ∧ conn.tls13Mode = .off) ?_ fun conn h => ?_).1
  · split_ifs
    · have hk := keeps_pumpOtSendFromBearssl (G := G.traced) conn env.sendApp
      exact hkeeps (h.keeps hk (data_pumpOtSendFromBearssl _ _)) hk hoff
    · exact ⟨h, hoff⟩
  · split_ifs
    · have hk := keeps_pumpOtRecvIntoBearssl (G := G.traced) conn env.recv
      exact hkeeps (h.1.keeps hk (data_pumpOtRecvIntoBearssl _ _)) hk h.2
    · exact h
  · split_ifs with hup
    · exact hkeeps (relays_pumpBearsslRecvappToRing h.1 (not_unopened_of_up hup.1) h.2)
        (keeps_pumpBearsslRecvappToRing _) h.2
    · exact h
  · split_ifs with hup
    · exact hkeeps (relays_pumpRingToBearsslSendapp h.1 (not_unopened_of_up hup.1) h.2)
        (keeps_pumpRingToBearsslSendapp _) h.2
    · exact h
  · split_ifs
    · exact h
    · have hk : Keeps conn { conn with state := .closed } := .of_ended rfl (.inr rfl)
      exact hkeeps ((h.1.keeps hk rfl).bump _) (hk.bump _) h.2
    · exact h

theorem relays_pumpBearsslStep (h : Relays p.conn) (hoff : p.conn.tls13Mode = .off)
    (env : PumpEnv) : Relays (pumpBearsslStep G.traced p env).1.conn := by
  unfold pumpBearsslStep
  dsimp only
  split_ifs
  · unfold bearsslClosed Proc.onConn
    dsimp only
    split_ifs
    · have hk : Keeps p.conn { p.conn with state := .closed } := .of_ended rfl (.inr rfl)
      exact (h.keeps hk rfl).bump _
    · exact h.keeps (keeps_reportFailed _ _ _ _) rfl
    · exact h.keeps (keeps_reportFailed _ _ _ _) rfl
  · -- the handshake is complete, and the engine has not been given any data
    have hopened : ∀ suite, Relays { p.conn with
        handshakeDone := true, state := .open, cipherSuite := suite } := fun suite =>
      h.congr (fun hst => by rcases hst with hst | hst <;> cases hst) rfl rfl
    exact (hopened _).bump _
  · exact relays_bearsslMove h hoff _ env

/-! ### Turns and calls -/

theorem relays_pumpTurn (h : Relays p.conn) (env : PumpEnv) :
    Relays (pumpTurn C G.traced p env).1.conn := by
  have hturn := turn_pumpTurn (C := C) (G := G.traced) p env
  generalize (pumpTurn C G.traced p env).1 = q at hturn ⊢
  cases hturn with
  | ended => exact h
  | expired =>
    have hk : Keeps p.conn (ostlsFail p.conn asyncHandshakeTimeout kOTNoError 0) :=
      keeps_ostlsFail rfl ..
    exact (h.keeps hk rfl).bump _
  | disconnected =>
    have hk : Keeps p.conn (ostlsFail { p.conn with discConsumed := true } asyncOtSndFail
        p.conn.nfLastResult 0) := keeps_ostlsFail (by rfl) ..
    exact (h.keeps hk rfl).bump _
  | steps hst =>
    have hup : Relays (if p.conn.tls13Mode ≠ .off then pumpTls13Step C p env
        else pumpBearsslStep G.traced p env).1.conn := by
      split_ifs with hmode
      · exact relays_pumpTls13Step h hmode env
      · exact relays_pumpBearsslStep h (not_not.1 hmode) env
    unfold pumpStep
    split <;> rename_i hstate
    · -- where TLS starts, the path is chosen
      have hquiet : p.conn.data = .none := h.quiet (.inl (by rw [hstate]; rfl))
      exact (relays_of_none (none_pumpConnectStep hquiet env)).bump _
    · exact hup
    · exact hup
    · exact hup
    · exact h
    · exact h
    · exact h

theorem relays_ostlsWrite (h : Relays conn) (buf : Bytes) :
    Relays (ostlsWrite conn buf).2.2 := by
  have hk := keeps_ostlsWrite conn buf
  unfold ostlsWrite at hk ⊢
  dsimp only at hk ⊢
  split_ifs at hk ⊢ with hdis hopen hempty hfull
  · exact h
  · exact h
  · exact h
  · refine h.keeps hk ?_
    rw [Conn.data, Conn.data, Queue.toList_compact]
  · have hst : ¬conn.state.unopened := not_unopened_of_up (by rw [not_not.1 hopen]; rfl)
    by_cases hoff : conn.tls13Mode = .off
    · refine Relays.moves12 hk hst hoff (h.inward hoff) ?_
      show conn.history.accepted ++ buf.take (conn.writeBuf.room buf.length) =
        conn.eng.2.put ++ (conn.writeBuf.append buf).toList
      rw [Queue.toList_append, ← List.append_assoc, h.outward hoff]
    · exact h.moves13 hk hst hoff rfl

theorem relays_ostlsRead (h : Relays conn) (cap : ℕ) : Relays (ostlsRead conn cap).2.2 := by
  have hk := keeps_ostlsRead conn cap
  unfold ostlsRead at hk ⊢
  dsimp only at hk ⊢
  split_ifs at hk ⊢ with hdis hst hempty
  · exact h
  · exact h
  · exact h
  · -- data is read from a connection that is up or closed
    have hst' : ¬conn.state.unopened := by
      rintro (hearly | hhs)
      · generalize conn.state = st at hst hearly
        cases st <;> first | exact hst ⟨by decide, by decide⟩ | cases hearly
      · exact hst (by rw [hhs]; exact ⟨by decide, by decide⟩)
    by_cases hoff : conn.tls13Mode = .off
    · refine Relays.moves12 hk hst' hoff ?_ (h.outward hoff)
      show (conn.history.returned ++ (conn.readBuf.pop cap).1) ++ (conn.readBuf.pop cap).2.toList =
        conn.eng.2.taken
      rw [List.append_assoc, Ring.pop_append, h.inward hoff]
    · exact h.moves13 hk hst' hoff rfl

theorem relays_step (h : Relays p.conn) (a : Action) :
    Relays (Proc.step C G.traced p a).conn := by
  cases a with
  | start env =>
    refine h.keeps (keeps_ostlsStart p.conn env) (show (ostlsStart p.conn env).2.data = _ from ?_)
    unfold ostlsStart
    split_ifs <;> rfl
  | enter =>
    unfold Proc.step
    split_ifs
    · exact h
    · exact h.keeps (.of_same rfl rfl rfl) rfl
  | turn env =>
    unfold Proc.step
    split_ifs
    · exact h
    · exact relays_pumpTurn h env
  -- the two calls that move data besides the turns
  | write buf => exact relays_ostlsWrite h buf
  | read cap => exact relays_ostlsRead h cap
  | close =>
    refine h.keeps (keeps_ostlsClose p.conn) (show (ostlsClose _ p.conn).data = _ from ?_)
    unfold ostlsClose
    split_ifs
    · rfl
    · rfl
    · dsimp only
      split
      all_goals first
        | rfl
        | (unfold closeUp releaseTls13; split_ifs <;> rfl)
  | dispose =>
    refine h.keeps (keeps_ostlsDispose p.conn) (show (ostlsDispose p.conn).data = _ from ?_)
    unfold ostlsDispose
    split_ifs
    · rfl
    · exact data_closeProvider p.conn
  | notify event result =>
    refine h.keeps (keeps_ostlsNotifier p.conn event result) ?_
    cases event <;> rfl
  | others => exact h

/-- In every run of a connection, whatever the engine does: on the TLS 1.2 path, at once or after
the attempt at TLS 1.3, what `OSTLS_Read` returned and what waits in the read buffer is what was
taken off the engine, and what `OSTLS_Write` accepted is what the engine was given and what waits in
the write buffer.  While TLS 1.3 is tried or in use no data goes through the engine. -/
theorem relays_exactly {config : OstlsConfig} {tickets : TicketCache} {sessions : SessCache}
    {log : List ResumeEvent} {allowed : Proc (E × Traffic) → Action → Prop}
    (h : Reach (Proc.step C G.traced) allowed
      (Proc.start G.traced config tickets sessions log) p) :
    (p.conn.tls13Mode ≠ .off → p.conn.eng.2 = .none) ∧
    (p.conn.tls13Mode = .off →
      p.conn.history.returned ++ p.conn.readBuf.toList = p.conn.eng.2.taken ∧
        p.conn.history.accepted = p.conn.eng.2.put ++ p.conn.writeBuf.toList) := by
  have hstart : Relays (Proc.start G.traced config tickets sessions log).conn := by
    refine relays_of_none ?_
    show (⟨.none, [], (Ring.empty _ _).toList, [], (Queue.empty _).toList⟩ : AppData) = .none
    rw [Ring.toList_empty, Queue.toList_empty]
    rfl
  have hrun := h.invariant (P := fun p => Relays p.conn) hstart fun p a hp _ => relays_step hp a
  exact ⟨hrun.apart, fun hoff => ⟨hrun.inward hoff, hrun.outward hoff⟩⟩

end

/-! ### An echo -/

/-- An engine whose peer sends back what it gets. -/
def echoEngine : Engine Bytes where
  init := []
  currentState _ := ⟨false, false, false, true, true⟩
  lastError _ := 0
  recvrecLen _ := 0
  recvrecAck e _ := e
  sendrecBuf _ := []
  sendrecAck e _ := e
  recvappBuf e := e
  recvappAck e n := e.drop n
  sendappLen _ := 4
  sendappAck e bytes := e ++ bytes
  flush e := e
  close e := e
  session _ := ⟨[], 0, 0, []⟩
  setSession e _ := e
  reset e _ _ := (true, e)

/-- Six bytes are written, two turns of the pump move some of them, and three are read. -/
def echoes : List (Proc (Bytes × Traffic) → Action) :=
  let turn : Action := .turn { idleEnv with tryTls13 := false }
  [.start startOk, .notify (.openComplete (some 7)) kOTNoError, turn, turn,
    .notify .bindComplete kOTNoError, turn, turn, .notify .connect kOTNoError, turn, turn,
    .write [1, 2, 3, 4, 5, 6], turn, turn, .read 3].map fun a _ => a

def echoProc : Proc (Bytes × Traffic) :=
  .start echoEngine.traced ⟨[1], 443, [1], 0, 0⟩ .reset [] []

theorem relays_exactly_echo :
    let p := play (Proc.step .transparent echoEngine.traced) echoProc echoes
    p.conn.history.returned = [1, 2, 3] ∧ p.conn.history.accepted = [1, 2, 3, 4, 5, 6] ∧
      p.conn.history.returned ++ p.conn.readBuf.toList = p.conn.eng.2.taken := by
  have hreach : Reach (Proc.step .transparent echoEngine.traced) OtLawful echoProc
      (play (Proc.step .transparent echoEngine.traced) echoProc echoes) :=
    reach_play (by decide +kernel)
  exact ⟨by decide +kernel, by decide +kernel,
    ((relays_exactly hreach).2 (by decide +kernel)).1⟩

end MacTLS
