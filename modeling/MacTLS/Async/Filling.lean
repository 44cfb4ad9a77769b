import MacTLS.Async.CleanClose
import MacTLS.Async.Ending
import MacTLS.Handshake.Waiting

/-!
# A full receive buffer

`pump_ot_recv_tls13` receives nothing into a full `ssl_iobuf`, so only a step that takes a record off
its front makes room.

* `Filling` : what is received fits the buffer, and a handshake that has filled it waits for bytes;
* `Moves` : what a step achieves;
* `full_moves` : with a full buffer, every step achieves something;
* `full_unread` : it need not be a record that is taken.
-/

namespace MacTLS

open Lib

variable {E : Type} {C : Crypto} {G : Engine E} {π : Policy} {s s' : Link}

/-! ### The invariant -/

/-- The received bytes fit the buffer, and the handshake fills it only when it waits. -/
structure Filling (s : Link) : Prop where
  fits : s.recvBuf.length ≤ sslIobufSize
  trying : s.state = .handshaking → s.mode ≠ .open
  tried : s.mode = .trying → s.state = .handshaking ∨ s.state = .failed
  context : s.mode = .trying → ∀ hs, s.hs13 = some hs → hs.Wf ∧ hs.Bounded
  waiting : s.mode = .trying → s.recvBuf.length = sslIobufSize →
    ∀ hs, s.hs13 = some hs → hs.Waiting ∨ s.state = .failed

theorem filling_init (G : Engine E) (config : OstlsConfig) : Filling (Conn.init G config).link where
  fits := Nat.zero_le _
  trying h := by cases h
  tried h := by cases h
  context h := by cases h
  waiting h := by cases h

/-- A step of the handshake keeps the context in order, and makes room in a full buffer unless it
waits. -/
theorem Filling.handshook (hs : Filling s) {hs' : HsCtx} {o : HsOut} (hh : Handshakes C s hs' o) :
    o.hs.Wf ∧ StepFront hs' s.recvBuf o := by
  obtain ⟨rnd, ho⟩ := hh.out
  obtain ⟨hw, hb⟩ := hs.context hh.mode hs' hh.hs13
  rw [ho]
  exact ⟨(transition_step C s.serverName rnd s.recvBuf hw).wf hw, front_step C _ rnd _ hw hb⟩

theorem Filling.effect (h : Effect C π s s') (hl : Lifecycle s) (hs : Filling s) : Filling s' := by
  have hdrop : ∀ n, (s.recvBuf.drop n).length ≤ sslIobufSize := by
    intro n
    rw [List.length_drop]
    exact Nat.le_trans (Nat.sub_le _ _) hs.fits
  have hflow : s.Flowing → s.mode ≠ .trying := by
    rintro ⟨-, hup⟩ hmode
    obtain h | h := hs.tried hmode <;> rw [h] at hup <;> cases hup
  cases h
  case handshook hs' o bytes h hres hfit =>
    obtain ⟨hw, hf⟩ := hs.handshook h
    obtain ⟨n, hn⟩ := hf.drop
    refine ⟨?_, hs.trying, hs.tried, fun _ x hx => ?_, fun _ hfull x hx => .inl ?_⟩
    · obtain hbytes | ⟨-, hfit⟩ := hfit
      · show (o.recv ++ bytes).length ≤ _
        rw [hbytes, List.append_nil, hn]
        exact hdrop n
      · exact hfit
    · cases hx
      exact ⟨hw, hf.bounded⟩
    · cases hx
      by_cases hwait : o.res = .wantRead
      · exact hf.waiting hwait
      -- nothing was received, so the buffer was full before
      obtain hbytes | ⟨hread, -⟩ := hfit
      · have hlen : (o.recv ++ bytes).length = sslIobufSize := hfull
        rw [hbytes, List.append_nil, hn, List.length_drop] at hlen
        have hfits := hs.fits
        have hbefore : s.recvBuf.length = sslIobufSize := by omega
        obtain hw' | hst := hs.waiting h.mode hbefore hs' h.hs13
        · obtain herr | ⟨-, m, hm, htake⟩ | ⟨-, hread⟩ := hf.takes hw'
          · exact absurd herr hres.1
          · have hlen' := congrArg List.length (hn.symm.trans htake)
            have hpos : 0 < sslIobufSize := by decide
            rw [List.length_drop, List.length_drop] at hlen'
            omega
          · exact absurd hread hwait
        · cases hst.symm.trans h.state
      · exact absurd hread hwait
  case handshakeFailed hs' o osErr h hres herr =>
    obtain ⟨hw, hf⟩ := hs.handshook h
    obtain ⟨n, hn⟩ := hf.drop
    refine ⟨?_, fun h => (by cases h), fun _ => .inr rfl, fun _ x hx => ?_,
      fun _ _ _ _ => .inr rfl⟩
    · show o.recv.length ≤ _
      rw [hn]
      exact hdrop n
    · cases hx
      exact ⟨hw, hf.bounded⟩
  case handshakeDone hs' o h hdone hsent _ =>
    obtain ⟨n, hn⟩ := (hs.handshook h).2.drop
    refine ⟨?_, fun h => (by cases h), fun h => (by cases h), fun h => (by cases h),
      fun h => (by cases h)⟩
    show o.recv.length ≤ _
    rw [hn]
    exact hdrop n
  case noFallback | fallback =>
    exact ⟨Nat.zero_le _, fun _ => (by simp [Link.fail, Link.opens, Link.fellBack]),
      fun h => (by cases h), fun h => (by cases h), fun h => (by cases h)⟩
  case tls13Starts =>
    refine ⟨Nat.zero_le _, fun _ => (by simp [Link.connected]), fun _ => .inl rfl, fun _ x hx => ?_,
      fun _ h => (by cases h)⟩
    cases hx
    exact ⟨⟨rfl, Nat.le_refl 0⟩, ⟨Nat.le_refl 0, Nat.zero_le _, Nat.zero_le _, fun _ => rfl⟩⟩
  case tls12Starts =>
    exact ⟨Nat.zero_le _, fun _ => (by simp [Link.connected]), fun h => (by cases h),
      fun h => (by cases h), fun h => (by cases h)⟩
  case sentHandshake hs' n hc h13 hlt =>
    refine ⟨hs.fits, hs.trying, hs.tried, fun hmode x hx => ?_, fun hmode hfull x hx => ?_⟩
    · cases hx
      obtain ⟨hw, hb⟩ := hs.context hmode hs' h13
      exact ⟨⟨hw.hrrPending, hw.plainOk⟩, hb.of_plain rfl⟩
    · cases hx
      exact hs.waiting hmode hfull hs' h13
  case received bytes hf hfit =>
    exact ⟨hfit, hs.trying, hs.tried, hs.context, fun hmode => absurd hmode (hflow hf)⟩
  case recordTaken hs' hs'' n hf h13 hle hframe =>
    exact ⟨hdrop n, hs.trying, hs.tried, fun hmode => absurd hmode (hflow hf),
      fun hmode => absurd hmode (hflow hf)⟩
  case built hs' hf h13 hle =>
    exact ⟨hs.fits, hs.trying, hs.tried, fun hmode => absurd hmode (hflow hf),
      fun hmode => absurd hmode (hflow hf)⟩
  all_goals
    have hearly := hl.early
    obtain ⟨hfits, htrying, htried, hcontext, hwaiting⟩ := hs
    refine ⟨hfits, ?_, ?_, hcontext, ?_⟩
    all_goals grind -ring -linarith [Link.fail, Link.opens, Link.sends, Link.release,
      OstlsState.isUp]

theorem Filling.dispose (hs : Filling s) : Filling s.dispose := by
  unfold Link.dispose
  split_ifs
  · exact hs
  · obtain ⟨hfits, htrying, htried, hcontext, hwaiting⟩ := hs
    have hrecv : s.closeEp.recvBuf = s.recvBuf := s.closeEp_frame (·.recvBuf) fun _ _ _ => rfl
    constructor <;> grind -ring -linarith

theorem Filling.notified (hs : Filling s) (event : OtEvent) : Filling (s.notified event) := by
  cases event with
  | openComplete cookie => exact ⟨hs.fits, hs.trying, hs.tried, hs.context, hs.waiting⟩
  | _ => exact hs

theorem filling_of_reach {ok : Proc E → Action → Prop} {config : OstlsConfig}
    {tickets : TicketCache} {sessions : SessCache} {log : List ResumeEvent} {p : Proc E}
    (h : Reach (Proc.step C G) ok (Proc.start G config tickets sessions log) p) :
    Lifecycle p.conn.link ∧ Filling p.conn.link :=
  Lifecycle.keeps h (lifecycle_init G config) (filling_init G config)
    (fun p a _ => Policy.any_meets C G p.conn a) (fun hl hs he => hs.effect he hl)
    (fun hs => hs.dispose) fun event hs => hs.notified event

/-! ### A step with a full buffer -/

/-- What a step achieves. -/
inductive Moves (conn conn' : Conn E) : Prop
  | failed (h : conn'.state = .failed)
  /-- The record at the front is taken, and what is behind it may be taken or more be received. -/
  | takes {n : ℕ} {bytes : Bytes} (hrec : HasRecord conn.recvBuf)
      (hn : 5 + getU16 conn.recvBuf 3 ≤ n) (h : conn'.recvBuf = conn.recvBuf.drop n ++ bytes)
  /-- Bytes of an application data record in flight are sent. -/
  | sends {bytes : Bytes} (hfly : conn.t13SendOff < conn.t13SendLen) (hbytes : bytes ≠ [])
      (h : conn'.history.sentBytes = conn.history.sentBytes ++ bytes)
  /-- The write queue is encrypted. -/
  | builds (hfly : conn.t13SendLen ≤ conn.t13SendOff) (hqueue : 0 < conn.writeBuf.avail)
      (h : conn'.history.chunks = conn.history.chunks ++ [conn.writeBuf.toList])

theorem Moves.taken {conn conn' : Conn E} {recv : Bytes} (hrec : HasRecord conn.recvBuf)
    (ht : Takes conn.recvBuf recv) (h : ∃ n bytes, conn'.recvBuf = recv.drop n ++ bytes) :
    Moves conn conn' := by
  obtain ⟨m, hm, rfl⟩ := ht
  obtain ⟨n, bytes, h⟩ := h
  rw [List.drop_drop] at h
  exact .takes hrec (Nat.le_trans hm (Nat.le_add_right m n)) h

/-- What was changed by a flush that sent nothing does not matter. -/
theorem Moves.frame {conn conn' : Conn E} {sent : List (Option Endpoint × Bytes)}
    {want ord peer : Bool}
    (hsent : { conn.history with sent := sent }.sentBytes = conn.history.sentBytes)
    (h : Moves { conn with
      history := { conn.history with sent := sent }, nfWantWrite := want, ordConsumed := ord,
      peerClosed := peer } conn') : Moves conn conn' := by
  cases h with
  | failed h => exact .failed h
  | takes hrec hn h => exact .takes hrec hn h
  | sends hfly hbytes h => exact .sends hfly hbytes (h.trans (congrArg (· ++ _) hsent))
  | builds hfly hqueue h => exact .builds hfly hqueue h

theorem state_ostlsFail {conn : Conn E} (hst : conn.state ≠ .closed) (osErr : ℕ)
    (otErr brErr : ℤ) : (ostlsFail conn osErr otErr brErr).state = .failed := by
  show (if conn.state = .failed ∨ conn.state = .closed then conn.state else .failed) = _
  split_ifs with h
  · exact h.resolve_right hst
  · rfl

theorem state_recordFail {conn : Conn E} (hst : conn.state ≠ .closed) (brErr : ℤ) :
    (recordFail conn brErr).state = .failed :=
  state_ostlsFail hst asyncBearsslError kOTNoError brErr

theorem not_closed_of_up {conn : Conn E} (hup : conn.state.isUp = true) : conn.state ≠ .closed := by
  intro h
  rw [h] at hup
  cases hup

/-- Receiving adds to the received bytes. -/
theorem recvBuf_pumpOtRecvTls13 (conn : Conn E) (env : RecvEnv) :
    ∃ bytes, (pumpOtRecvTls13 conn env).1.recvBuf = conn.recvBuf ++ bytes := by
  have hsame : ∃ bytes, conn.recvBuf = conn.recvBuf ++ bytes := ⟨[], (List.append_nil _).symm⟩
  unfold pumpOtRecvTls13
  split_ifs
  · exact hsame
  · exact hsame
  · split
    · exact ⟨_, rfl⟩
    · unfold otRcvNothing
      split
      · exact hsame
      · split_ifs <;> exact hsame
      all_goals exact hsame

theorem recvBuf_ostlsFallbackToTls12 (conn : Conn E) (env : PumpEnv) :
    (ostlsFallbackToTls12 conn env).1.recvBuf = [] := by
  unfold ostlsFallbackToTls12
  dsimp only
  split_ifs <;> rfl

theorem recvBuf_recordAlert (conn : Conn E) (hs : HsCtx) (plen : ℕ) :
    (recordAlert conn hs plen).recvBuf = conn.recvBuf := by
  unfold recordAlert
  dsimp only
  split_ifs
  · obtain ⟨bestEvent, h⟩ := eventBump_frame
      { conn with peerClosed := true, state := .closed } .closed
    rw [h]
  · rfl
  all_goals rfl

variable {p : Proc E} {hs : HsCtx}

variable (C hs) in
/-- The open phase takes the record at the front of a full buffer, or refuses it. -/
theorem moves_pumpTls13ConsumeRecord (hup : p.conn.state.isUp = true)
    (hfull : p.conn.recvBuf.length = sslIobufSize) (now : ℕ) :
    let r := pumpTls13ConsumeRecord C p hs now
    r.2 = true ∧ Moves p.conn r.1.conn := by
  have hfits : 5 + hsBufSize ≤ sslIobufSize := by decide
  rw [pumpTls13ConsumeRecord_eq]
  split_ifs with hshort hlong hcut
  · omega
  · exact ⟨rfl, .failed (state_recordFail (not_closed_of_up hup) _)⟩
  · omega
  · have htakes : ∀ {conn' : Conn E},
        conn'.recvBuf = p.conn.recvBuf.drop (5 + getU16 p.conn.recvBuf 3) →
        Moves p.conn conn' := by
      intro conn' h
      have hrest := h.trans (List.append_nil _).symm
      exact .takes ⟨by omega, by omega⟩ (Nat.le_refl _) hrest
    generalize tls13RecordDecrypt C hs.readCtx (slice p.conn.recvBuf 5
      (getU16 p.conn.recvBuf 3)) = d
    obtain ⟨ctx, buf, ret⟩ := d
    unfold recordOpened
    cases ret with
    | none => exact ⟨rfl, htakes rfl⟩
    | some ret =>
      obtain ⟨plen, inner⟩ := ret
      dsimp only
      split_ifs
      · refine ⟨rfl, htakes ?_⟩
        obtain ⟨plainOff, readBuf, bestEvent, history, h⟩ := recordData_frame { p.conn with
          hs13 := some { hs with readCtx := ctx, plainBuf := blit hs.plainBuf 0 buf }
          recvBuf := p.conn.recvBuf.drop (5 + getU16 p.conn.recvBuf 3) }
          { hs with readCtx := ctx, plainBuf := blit hs.plainBuf 0 buf } plen
        exact congrArg Conn.recvBuf h
      · exact ⟨rfl, htakes (recvBuf_recordAlert ..)⟩
      · refine ⟨rfl, htakes ?_⟩
        obtain ⟨ticket, ticketValid, error, h⟩ := recordPostHandshake_frame C { p with
          conn := { p.conn with
            hs13 := some { hs with readCtx := ctx, plainBuf := blit hs.plainBuf 0 buf }
            recvBuf := p.conn.recvBuf.drop (5 + getU16 p.conn.recvBuf 3) } }
          { hs with readCtx := ctx, plainBuf := blit hs.plainBuf 0 buf } plen now
        exact congrArg Conn.recvBuf h
      · exact ⟨rfl, htakes rfl⟩

variable (C hs) in
/-- With queued data and no record in flight, the open phase builds a record, whatever has been
received. -/
theorem pumpTls13Open_builds (hstaged : p.conn.t13PlainLen ≤ p.conn.t13PlainOff)
    (hfly : p.conn.t13SendLen ≤ p.conn.t13SendOff) (hqueue : 0 < p.conn.writeBuf.avail)
    (env : PumpEnv) : ∃ hs' sendRec sendLen writeBuf,
      (pumpTls13Open C p hs env).1.conn = { p.conn with
        hs13 := some hs', t13SendRec := sendRec, t13SendLen := sendLen, t13SendOff := 0, writeBuf
        history := { p.conn.history with
          chunks := p.conn.history.chunks ++ [p.conn.writeBuf.toList] } } := by
  have hfull : p.conn.writeBuf.toList.take (min p.conn.writeBuf.avail ostlsWriteBufSize) =
      p.conn.writeBuf.toList := by
    have hfits := p.conn.writeBuf.fits
    refine List.take_of_length_le ?_
    rw [p.conn.writeBuf.length_toList]
    omega
  have hbuild : (pumpTls13BuildSend C p.conn hs).2 = true := by
    unfold pumpTls13BuildSend
    rw [if_neg (by omega), if_neg (by omega)]
  unfold pumpTls13Open
  rw [if_neg (by omega), if_pos ⟨hqueue, hfly, hbuild⟩]
  unfold pumpTls13BuildSend
  dsimp only
  rw [if_neg (by omega), if_neg (by omega), hfull]
  exact ⟨_, _, _, _, rfl⟩

theorem moves_pumpTls13Open (hup : p.conn.state.isUp = true)
    (hfull : p.conn.recvBuf.length = sslIobufSize)
    (hstaged : p.conn.t13PlainLen ≤ p.conn.t13PlainOff) (env : PumpEnv) :
    Moves p.conn (pumpTls13Open C p hs env).1.conn := by
  by_cases hbuild : 0 < p.conn.writeBuf.avail ∧ p.conn.t13SendLen ≤ p.conn.t13SendOff
  · obtain ⟨hs', sendRec, sendLen, writeBuf, h⟩ :=
      pumpTls13Open_builds C hs hstaged hbuild.2 hbuild.1 env
    rw [h]
    exact .builds hbuild.2 hbuild.1 rfl
  · obtain ⟨htaken, hmoves⟩ := moves_pumpTls13ConsumeRecord C hs hup hfull env.ticks
    unfold pumpTls13Open
    rw [if_neg (by omega), if_neg fun h => hbuild ⟨h.1, h.2.1⟩]
    dsimp only
    rw [if_pos htaken]
    exact hmoves

/-- The handshake takes the record at the front when it is whole, or refuses it. -/
theorem moves_pumpTls13Handshake (hst : p.conn.state = .handshaking) (hw : hs.Wf) (hb : hs.Bounded)
    (hwait : hs.Waiting) (hrec : HasRecord p.conn.recvBuf) (env : PumpEnv) :
    Moves p.conn (pumpTls13Handshake C p hs env).1.conn := by
  have hf := front_step C p.conn.serverName env.rnd p.conn.recvBuf hw hb
  have ht := transition_step C p.conn.serverName env.rnd p.conn.recvBuf hw
  unfold pumpTls13Handshake
  dsimp only
  generalize tls13HandshakeStep C p.conn.serverName env.rnd hs p.conn.recvBuf = o at hf ht ⊢
  have hopen : ∀ {conn' : Conn E}, conn'.state = p.conn.state → conn'.state ≠ .closed := by
    intro conn' h
    rw [h, hst]
    decide
  by_cases hdone : o.hs.state = .complete ∧ o.hs.msgOffset ≥ o.hs.msgLen
  · -- a context that waits is not complete
    have hcomplete := ht.complete_of_sent hdone.1 hdone.2
    obtain h | ⟨h, -⟩ := hwait <;> rw [hcomplete] at h <;> cases h
  · rw [if_neg hdone]
    obtain herr | ⟨-, htake⟩ | ⟨hno, -⟩ := hf.takes hwait
    · rw [herr]
      exact .failed (state_recordFail (hopen rfl) o.hs.error)
    · have htaken : ∀ {conn' : Conn E}, (∃ n bytes, conn'.recvBuf = o.recv.drop n ++ bytes) →
          Moves p.conn conn' := fun h => .taken hrec htake h
      cases hres : o.res with
      | wantRead =>
        refine htaken ?_
        obtain ⟨bytes, h⟩ := recvBuf_pumpOtRecvTls13 _ env.recv
        exact ⟨0, bytes, h⟩
      | wantWrite | ok => exact htaken ⟨0, [], (List.append_nil _).symm⟩
      | fallback12 =>
        refine htaken ⟨o.recv.length, [], ?_⟩
        rw [List.drop_length]
        dsimp only
        split_ifs <;> exact recvBuf_ostlsFallbackToTls12 _ env
      | error => exact .failed (state_recordFail (hopen rfl) o.hs.error)
    · exact absurd hrec hno

/-! ### Flushing -/

/-- Sending fails, or takes bytes off the front, and changes nothing that is received. -/
theorem ostlsSendRaw_sent {conn : Conn E} (hst : conn.state ≠ .closed) (buf : Bytes)
    (env : SendEnv) :
    let r := ostlsSendRaw conn buf env
    (r.2 = none ∧ r.1.state = .failed) ∨
      ∃ n sent nfWantWrite ordConsumed peerClosed, r.2 = some n ∧
        r.1 = { conn with
          history := { conn.history with sent }, nfWantWrite, ordConsumed, peerClosed } ∧
        r.1.history.sentBytes = conn.history.sentBytes ++ buf.take n ∧ n ≤ buf.length := by
  have hnone : ∀ history : History, history.sentBytes = history.sentBytes ++ buf.take 0 :=
    fun history => (List.append_nil _).symm
  unfold ostlsSendRaw
  split_ifs
  · exact .inr ⟨0, _, _, _, _, rfl, rfl, hnone _, Nat.zero_le _⟩
  · exact .inr ⟨0, _, _, _, _, rfl, rfl, hnone _, Nat.zero_le _⟩
  · split
    · rename_i n hres
      refine .inr ⟨min n buf.length, _, _, _, _, rfl, rfl, ?_, Nat.min_le_right _ _⟩
      simp [History.sentBytes, ← List.take_eq_take_min]
    · exact .inr ⟨0, _, _, _, _, rfl, rfl, hnone _, Nat.zero_le _⟩
    · exact .inr ⟨0, _, _, _, _, rfl, rfl, hnone _, Nat.zero_le _⟩
    · have hopen : { conn with discConsumed := true }.state ≠ .closed := hst
      exact .inl ⟨rfl, state_ostlsFail hopen ..⟩
    · exact .inr ⟨0, _, _, _, _, rfl, rfl, hnone _, Nat.zero_le _⟩
    · exact .inl ⟨rfl, state_ostlsFail hst ..⟩

/-- Flushing a record in flight fails, sends some of it, or leaves it as it is. -/
theorem moves_flushRecord {conn : Conn E} (hst : conn.state ≠ .closed) (env : SendEnv) :
    let r := flushRecord conn env
    (∃ did, r.2 = some did ∧ Moves conn r.1) ∨
      r.2 = none ∧ ∃ sent nfWantWrite ordConsumed peerClosed, r.1 = { conn with
        history := { conn.history with sent }, nfWantWrite, ordConsumed, peerClosed } ∧
        r.1.history.sentBytes = conn.history.sentBytes := by
  unfold flushRecord
  by_cases hfly : conn.t13SendOff < conn.t13SendLen
  · rw [if_pos hfly]
    generalize slice conn.t13SendRec conn.t13SendOff (conn.t13SendLen - conn.t13SendOff) = buf
    have hsend := ostlsSendRaw_sent hst buf env
    generalize ostlsSendRaw conn buf env = r at hsend ⊢
    obtain ⟨conn', n⟩ := r
    obtain ⟨hnone, hfailed⟩ | ⟨n, sent, want, ord, peer, hsome, hconn, hsent, hle⟩ := hsend
    · dsimp only at hnone
      subst hnone
      exact .inl ⟨_, rfl, .failed hfailed⟩
    · dsimp only at hsome hconn hsent
      subst hsome hconn
      dsimp only at hsent ⊢
      by_cases h0 : n = 0
      · subst h0
        have hleft : ¬conn.t13SendOff + 0 ≥ conn.t13SendLen := by omega
        rw [if_neg hleft]
        refine .inr ⟨if_neg (Nat.lt_irrefl 0), sent, want, ord, peer, rfl, ?_⟩
        exact hsent.trans (List.append_nil _)
      · have hbytes : buf.take n ≠ [] := by
          intro h
          have hlen := congrArg List.length h
          rw [List.length_take, List.length_nil] at hlen
          omega
        refine .inl ⟨.progress, if_pos (Nat.pos_of_ne_zero h0), .sends hfly hbytes ?_⟩
        · split_ifs
          · obtain ⟨bestEvent, hbump⟩ := eventBump_frame { conn with
              history := { conn.history with sent := sent }, nfWantWrite := want,
              ordConsumed := ord, peerClosed := peer, t13SendLen := 0, t13SendOff := 0 } .writable
            rw [hbump]
            exact hsent
          · exact hsent
  · rw [if_neg hfly]
    exact .inr ⟨rfl, conn.history.sent, conn.nfWantWrite, conn.ordConsumed, conn.peerClosed, rfl, rfl⟩

/-- A connection on the TLS 1.3 path whose buffer is full, with nothing staged. -/
structure Full (conn : Conn E) (hs : HsCtx) : Prop where
  hs13 : conn.hs13 = some hs
  full : conn.recvBuf.length = sslIobufSize
  staged : conn.t13PlainLen ≤ conn.t13PlainOff
  /-- The handshake waits, and the declared length is one that the buffer can hold. -/
  phase : conn.state.isUp = true ∨ conn.state = .handshaking ∧ conn.tls13Mode = .trying ∧
    hs.Wf ∧ hs.Bounded ∧ hs.Waiting ∧ HasRecord conn.recvBuf

theorem moves_pumpTls13Drive (h : Full p.conn hs) (env : PumpEnv) :
    Moves p.conn (pumpTls13Drive C p env).1.conn := by
  unfold pumpTls13Drive
  rw [h.hs13]
  dsimp only
  obtain hup | ⟨hst, hmode, hw, hb, hwait, hrec⟩ := h.phase
  · rw [if_neg, if_pos hup]
    · exact moves_pumpTls13Open hup h.full h.staged env
    · rintro ⟨hst, -⟩
      rw [hst] at hup
      cases hup
  · rw [if_pos ⟨hst, hmode⟩]
    exact moves_pumpTls13Handshake hst hw hb hwait hrec env

theorem moves_pumpTls13Step (h : Full p.conn hs) (hflushed : hs.msgLen ≤ hs.msgOffset)
    (env : PumpEnv) : Moves p.conn (pumpTls13Step C p env).1.conn := by
  have hopen : p.conn.state ≠ .closed := by
    obtain hup | ⟨hst, -⟩ := h.phase
    · exact not_closed_of_up hup
    · rw [hst]
      decide
  have hnone : flushHandshake p.conn hs env.sendHs = (p.conn, none) :=
    if_neg (Nat.not_lt.2 hflushed)
  unfold pumpTls13Step
  rw [h.hs13]
  dsimp only
  rw [hnone]
  dsimp only
  have hflush := moves_flushRecord hopen env.sendApp
  generalize flushRecord p.conn env.sendApp = r at hflush ⊢
  obtain ⟨conn', did⟩ := r
  obtain ⟨did', hdid, hmoves⟩ | ⟨hdid, sent, want, ord, peer, hconn, hsent⟩ := hflush
  · dsimp only at hdid
    subst hdid
    exact hmoves
  · dsimp only at hdid hconn
    subst hdid hconn
    have h' : Full { p.conn with
        history := { p.conn.history with sent := sent }, nfWantWrite := want, ordConsumed := ord,
        peerClosed := peer } hs := ⟨h.hs13, h.full, h.staged, h.phase⟩
    exact (moves_pumpTls13Drive (p := { p with conn := _ }) h' env).frame hsent

/-- **A full buffer never stops the connection.**  A step that finds `ssl_iobuf` full, with nothing
staged and no handshake bytes to send, fails, takes a record, or sends or encrypts application data
first. -/
theorem full_moves {ok : Proc E → Action → Prop} {config : OstlsConfig} {tickets : TicketCache}
    {sessions : SessCache} {log : List ResumeEvent}
    (h : Reach (Proc.step C G) ok (Proc.start G config tickets sessions log) p)
    (hdis : p.conn.disposed = false) (hmode : p.conn.tls13Mode ≠ .off)
    (hst : p.conn.state = .handshaking ∨ p.conn.state.isUp = true)
    (hstaged : p.conn.t13PlainLen ≤ p.conn.t13PlainOff)
    (hflushed : ∀ hs, p.conn.hs13 = some hs → hs.msgLen ≤ hs.msgOffset)
    (hfull : p.conn.recvBuf.length = sslIobufSize)
    (hfits : p.conn.state = .handshaking → 5 + getU16 p.conn.recvBuf 3 ≤ sslIobufSize)
    (env : PumpEnv) : Moves p.conn (pumpTls13Step C p env).1.conn := by
  obtain ⟨hl, hf⟩ := filling_of_reach h
  obtain ⟨hs, h13⟩ := Option.ne_none_iff_exists'.1 (hl.context hdis hmode)
  have h13 : p.conn.hs13 = some hs := h13
  refine moves_pumpTls13Step ⟨h13, hfull, hstaged, ?_⟩ (hflushed hs h13) env
  obtain hst | hup := hst
  · right
    have htry : p.conn.tls13Mode = .trying := by
      cases hm : p.conn.tls13Mode with
      | off => exact absurd hm hmode
      | trying => rfl
      | «open» => exact absurd hm (hf.trying hst)
    obtain ⟨hw, hb⟩ := hf.context htry hs h13
    obtain hwait | hfailed := hf.waiting htry hfull hs h13
    · refine ⟨hst, htry, hw, hb, hwait, ?_, ?_⟩
      · rw [hfull]
        decide
      · rw [hfull]
        exact hfits hst
    · cases hst.symm.trans hfailed
  · exact .inl hup

/-! ### Filling the buffer -/

/-- An open connection with nothing to flush goes straight to the open phase. -/
theorem pumpTls13Step_open (hst : p.conn.state = .open) (h13 : p.conn.hs13 = some hs)
    (hflushed : hs.msgLen ≤ hs.msgOffset) (hsent : p.conn.t13SendLen ≤ p.conn.t13SendOff)
    (env : PumpEnv) : pumpTls13Step C p env = pumpTls13Open C p hs env := by
  have hnone : flushHandshake p.conn hs env.sendHs = (p.conn, none) :=
    if_neg (Nat.not_lt.2 hflushed)
  have hnone' : flushRecord p.conn env.sendApp = (p.conn, none) := if_neg (Nat.not_lt.2 hsent)
  unfold pumpTls13Step
  rw [h13]
  dsimp only
  rw [hnone]
  dsimp only
  rw [hnone']
  show pumpTls13Drive C p env = _
  unfold pumpTls13Drive
  rw [h13]
  dsimp only
  rw [if_neg fun h => (by cases h.1.symm.trans hst), if_pos (by rw [hst]; rfl)]

/-- A turn on an open connection of the TLS 1.3 path is a step. -/
theorem pumpTurn_open (hmode : p.conn.tls13Mode ≠ .off) (hst : p.conn.state = .open)
    (hdue : ¬(p.conn.nfDisconnect = true ∧ ¬p.conn.discConsumed = true)) (env : PumpEnv) :
    pumpTurn C G p env =
      ((pumpTls13Step C p env).1, decide ((pumpTls13Step C p env).2 = .progress)) := by
  have hpre : pumpHandshakeOrOpenPre p.conn env = (p.conn, true) :=
    (if_neg fun h => by cases h.1.symm.trans hst).trans (if_neg hdue)
  unfold pumpTurn
  rw [if_neg (by rw [hst]; decide), hpre]
  dsimp only
  rw [if_pos rfl]
  unfold pumpStep
  rw [if_pos hmode, hst]

/-- An open connection on the TLS 1.3 path with nothing to deliver and nothing in flight. -/
structure Resting (conn : Conn E) (hs : HsCtx) : Prop where
  inUse : conn.disposed = false
  mode : conn.tls13Mode ≠ .off
  isOpen : conn.state = .open
  peer : conn.peerClosed = false
  hs13 : conn.hs13 = some hs
  flushed : hs.msgLen ≤ hs.msgOffset
  staged : conn.t13PlainLen ≤ conn.t13PlainOff
  sent : conn.t13SendLen ≤ conn.t13SendOff
  notDue : ¬(conn.nfDisconnect = true ∧ ¬conn.discConsumed = true)

theorem Resting.up {conn : Conn E} (hr : Resting conn hs) : conn.state.isUp = true := by
  rw [hr.isOpen]
  rfl

/-- Such a connection goes straight to the open phase. -/
theorem Resting.pumpTls13Step (hr : Resting p.conn hs) (env : PumpEnv) :
    pumpTls13Step C p env = pumpTls13Open C p hs env :=
  pumpTls13Step_open hr.isOpen hr.hs13 hr.flushed hr.sent env

/-- Queued data is encrypted before anything that was received is looked at. -/
theorem Resting.builds (hr : Resting p.conn hs) (hqueue : 0 < p.conn.writeBuf.avail)
    (env : PumpEnv) :
    let conn' := (MacTLS.pumpTls13Step C p env).1.conn
    conn'.state = .open ∧ conn'.recvBuf = p.conn.recvBuf := by
  obtain ⟨hs', sendRec, sendLen, writeBuf, h⟩ :=
    pumpTls13Open_builds C hs hr.staged hr.sent hqueue env
  dsimp only
  rw [hr.pumpTls13Step, h]
  exact ⟨hr.isOpen, rfl⟩

/-- With an empty queue and less than a header received, it receives. -/
theorem Resting.receives (hr : Resting p.conn hs) (hqueue : p.conn.writeBuf.avail = 0)
    (hshort : p.conn.recvBuf.length < 5) (env : PumpEnv) {x : UInt8} {bytes : Bytes}
    (hcan : canReceive env.recv.epState = true) (hres : env.recv.result = .data (x :: bytes)) :
    (Proc.step C G p (.turn env)).conn = { p.conn with
      recvBuf := p.conn.recvBuf ++ (x :: bytes).take (sslIobufSize - p.conn.recvBuf.length)
      nfDataPending := false } := by
  have hroom : ¬p.conn.recvBuf.length ≥ sslIobufSize := by
    have h5 : 5 ≤ sslIobufSize := by decide
    omega
  have hrecv : pumpOtRecvTls13 p.conn env.recv = ({ p.conn with
      recvBuf := p.conn.recvBuf ++ (x :: bytes).take (sslIobufSize - p.conn.recvBuf.length)
      nfDataPending := false }, .progress) := by
    unfold pumpOtRecvTls13
    rw [if_neg hroom, if_neg (by simp [hcan]), hres]
  have hconsume : pumpTls13ConsumeRecord C p hs env.ticks = (p, false) := if_pos hshort
  have hstep : MacTLS.pumpTls13Step C p env =
      ({ p with conn := (pumpOtRecvTls13 p.conn env.recv).1 }, .progress) := by
    have hstaged := hr.staged
    rw [hr.pumpTls13Step]
    unfold pumpTls13Open
    rw [if_neg (by omega), if_neg fun h => by omega, hconsume]
    dsimp only
    unfold receiveOrClose
    rw [if_neg (by decide), if_neg (by simp [hr.peer]), hrecv]
    rfl
  have hturn : Proc.step C G p (.turn env) = (pumpTurn C G p env).1 := by
    unfold Proc.step
    dsimp only
    rw [hr.inUse]
    rfl
  rw [hturn, pumpTurn_open hr.mode hr.isOpen hr.notDue, hstep, hrecv]

/-- What is written to an empty queue is queued. -/
theorem step_write (hdis : p.conn.disposed = false) (hst : p.conn.state = .open)
    (hqueue : p.conn.writeBuf.avail = 0) {buf : Bytes} (hbuf : buf ≠ []) :
    ∃ writeBuf history, (Proc.step C G p (.write buf)).conn = { p.conn with writeBuf, history } ∧
      0 < writeBuf.avail ∧ history.sent = p.conn.history.sent := by
  have hlen : buf.length ≠ 0 := fun h => hbuf (List.length_eq_zero_iff.1 h)
  have hroom : p.conn.writeBuf.room buf.length ≠ 0 := by
    have hsize : 0 < ostlsWriteBufSize := by decide
    rw [Queue.room]
    omega
  have hwrote : (Proc.step C G p (.write buf)).conn = { p.conn with
      writeBuf := p.conn.writeBuf.append buf
      history := { p.conn.history with accepted :=
        p.conn.history.accepted ++ buf.take (p.conn.writeBuf.room buf.length) } } := by
    show (ostlsWrite p.conn buf).2.2 = _
    unfold ostlsWrite
    rw [if_neg (by rw [hdis]; decide), if_neg (not_not.2 hst), if_neg hlen]
    dsimp only
    rw [if_neg hroom]
  exact ⟨_, _, hwrote, Nat.lt_of_lt_of_le (Nat.pos_of_ne_zero hroom) (Nat.le_add_left _ _), rfl⟩

/-- What is written to an empty queue is queued, and what was received stays. -/
theorem Resting.writes (hr : Resting p.conn hs) (hqueue : p.conn.writeBuf.avail = 0) {buf : Bytes}
    (hbuf : buf ≠ []) :
    let conn' := (Proc.step C G p (.write buf)).conn
    Resting conn' hs ∧ 0 < conn'.writeBuf.avail ∧ conn'.recvBuf = p.conn.recvBuf := by
  obtain ⟨writeBuf, history, hwrote, hpos, -⟩ :=
    step_write (C := C) (G := G) hr.inUse hr.isOpen hqueue hbuf
  dsimp only
  rw [hwrote]
  exact ⟨⟨hr.inUse, hr.mode, hr.isOpen, hr.peer, hr.hs13, hr.flushed, hr.staged, hr.sent, hr.notDue⟩,
    hpos, rfl⟩

/-! ### Two full buffers -/

/-- An open connection receives these bytes. -/
def opensAndReceives (bytes : Bytes) : List (Proc Unit → Action) :=
  opensTls13 ++ [fun _ => .turn { sendEnv with recv := ⟨.dataxfer, .data bytes⟩ }]

theorem resting_opensTls13 :
    let conn := (play (Proc.step .transparent waitingEngine) freshProc opensTls13).conn
    ∃ hs, Resting conn hs ∧ conn.writeBuf.avail = 0 ∧ conn.recvBuf = [] := by
  have hfacts : let conn := (play (Proc.step .transparent waitingEngine) freshProc opensTls13).conn
      (∃ hs, conn.hs13 = some hs ∧ hs.msgLen ≤ hs.msgOffset) ∧
        conn.disposed = false ∧ conn.tls13Mode ≠ .off ∧ conn.state = .open ∧ conn.peerClosed = false ∧
        conn.t13PlainLen ≤ conn.t13PlainOff ∧ conn.t13SendLen ≤ conn.t13SendOff ∧
        ¬(conn.nfDisconnect = true ∧ ¬conn.discConsumed = true) ∧
        conn.writeBuf.avail = 0 ∧ conn.recvBuf = [] := by
    decide +kernel
  obtain ⟨⟨hs, h13, hflushed⟩, hdis, hmode, hst, hpeer, hstaged, hsent, hdue, hqueue, hrecv⟩ := hfacts
  exact ⟨hs, ⟨hdis, hmode, hst, hpeer, h13, hflushed, hstaged, hsent, hdue⟩, hqueue, hrecv⟩

theorem resting_opensAndReceives {bytes : Bytes} (hlen : bytes.length = sslIobufSize) :
    let conn := (play (Proc.step .transparent waitingEngine) freshProc (opensAndReceives bytes)).conn
    ∃ hs, Resting conn hs ∧ conn.writeBuf.avail = 0 ∧ conn.recvBuf = bytes := by
  obtain ⟨hs, hr, hqueue, hrecv⟩ := resting_opensTls13
  cases bytes with
  | nil => cases hlen
  | cons x bytes =>
    rw [opensAndReceives, play_concat]
    generalize play (Proc.step .transparent waitingEngine) freshProc opensTls13 = p
      at hr hqueue hrecv ⊢
    have hfilled := hr.receives (C := .transparent) (G := waitingEngine) hqueue
      (by rw [hrecv]; decide) { sendEnv with recv := ⟨.dataxfer, .data (x :: bytes)⟩ } rfl rfl
    rw [hrecv, List.nil_append, List.length_nil, Nat.sub_zero,
      List.take_of_length_le (Nat.le_of_eq hlen)] at hfilled
    rw [hfilled]
    exact ⟨hs, ⟨hr.inUse, hr.mode, hr.isOpen, hr.peer, hr.hs13, hr.flushed, hr.staged, hr.sent,
      hr.notDue⟩, hqueue, rfl⟩

/-- What is received does not matter for what may come in. -/
theorem reach_opensAndReceives (bytes : Bytes) :
    Reach (Proc.step .transparent waitingEngine) OtLawful freshProc
      (play (Proc.step .transparent waitingEngine) freshProc (opensAndReceives bytes)) := by
  have hopens : Reach (Proc.step .transparent waitingEngine) OtLawful freshProc
      (play (Proc.step .transparent waitingEngine) freshProc opensTls13) :=
    reach_play (by decide +kernel)
  rw [opensAndReceives, play_concat]
  exact hopens.tail trivial

theorem full_moves_zeros :
    let p := play (Proc.step .transparent waitingEngine) freshProc
      (opensAndReceives (List.replicate sslIobufSize 0))
    Moves p.conn (pumpTls13Step .transparent p sendEnv).1.conn := by
  have hlen : (List.replicate sslIobufSize (0 : UInt8)).length = sslIobufSize :=
    List.length_replicate
  generalize List.replicate sslIobufSize (0 : UInt8) = bytes at hlen
  obtain ⟨hs, hr, -, hrecv⟩ := resting_opensAndReceives hlen
  refine full_moves (reach_opensAndReceives bytes) hr.inUse hr.mode (.inr hr.up) hr.staged
    (fun x hx => ?_) (by rw [hrecv, hlen]) (fun h => by cases h.symm.trans hr.isOpen) sendEnv
  cases hr.hs13.symm.trans hx
  exact hr.flushed

/-- With queued data, a full buffer is not looked at: a record is built from the queue. -/
theorem full_unread :
    ∃ p : Proc Unit, Reach (Proc.step .transparent waitingEngine) OtLawful freshProc p ∧
      p.conn.disposed = false ∧ p.conn.tls13Mode ≠ .off ∧ p.conn.state = .open ∧
      p.conn.t13PlainLen ≤ p.conn.t13PlainOff ∧
      (∀ hs, p.conn.hs13 = some hs → hs.msgLen ≤ hs.msgOffset) ∧
      p.conn.recvBuf.length = sslIobufSize ∧
      ∀ env, (pumpTls13Step .transparent p env).1.conn.state = .open ∧
        (pumpTls13Step .transparent p env).1.conn.recvBuf = p.conn.recvBuf := by
  have hlen : (List.replicate sslIobufSize (0 : UInt8)).length = sslIobufSize :=
    List.length_replicate
  generalize List.replicate sslIobufSize (0 : UInt8) = bytes at hlen
  obtain ⟨hs, hr, hqueue, hrecv⟩ := resting_opensAndReceives hlen
  have hreach := reach_opensAndReceives bytes
  generalize play (Proc.step .transparent waitingEngine) freshProc (opensAndReceives bytes) = p
    at hr hqueue hrecv hreach
  obtain ⟨hr', hqueue', hrecv'⟩ := hr.writes (C := .transparent) (G := waitingEngine) hqueue
    (List.cons_ne_nil (1 : UInt8) [])
  refine ⟨_, hreach.tail (show OtLawful p (.write [1]) from trivial), hr'.inUse, hr'.mode, hr'.isOpen,
    hr'.staged, fun x hx => ?_, ?_, fun env => hr'.builds hqueue' env⟩
  · cases hr'.hs13.symm.trans hx
    exact hr'.flushed
  · rw [hrecv', hrecv, hlen]

end MacTLS
