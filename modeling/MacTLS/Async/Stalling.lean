import MacTLS.Async.Filling

/-!
# A writer that waits for its reader

The open phase of the TLS 1.3 path delivers staged plaintext before it builds a record, and ends the
step when the ring is full.  So what was written is only sent when what is staged fits the ring.

* `Loaded` : an open connection with data to send and nothing on its way;
* `Loaded.handsOver` : with room for what is staged, a few turns send the front of a record;
* `Loaded.stuck` : without it, no turn sends anything;
* `sends_iff` : both, for one `OSTLS_Pump` of every reached connection.
-/

namespace MacTLS

open Lib

variable {E : Type} {C : Crypto} {G : Engine E} {π : Policy} {s s' : Link} {p : Proc E} {hs : HsCtx}

/-! ### What was sent stays sent -/

theorem Effect.sent_mono (h : Effect C π s s') : s.history.sent <+: s'.history.sent := by
  cases h
  case sentHandshake | sentRecord => exact List.prefix_append _ _
  case noFallback o _ _ _ _ | fallback o _ _ _ =>
    have hsame : (s.handshook o).closeEp.history.sent = s.history.sent := Link.closeEp_sent _
    exact ⟨[], (List.append_nil _).trans hsame.symm⟩
  case released =>
    obtain ⟨release, hhist⟩ := s.release_history
    exact ⟨[], (List.append_nil _).trans (congrArg History.sent hhist).symm⟩
  all_goals exact List.prefix_rfl

theorem Effects.sent_mono (h : Effects C π s s') : s.history.sent <+: s'.history.sent := by
  induction h with
  | refl => exact List.prefix_rfl
  | tail _ he ih => exact ih.trans he.sent_mono

theorem sent_mono_pumpTurn (p : Proc E) (env : PumpEnv) :
    p.conn.history.sent <+: (pumpTurn C G p env).1.conn.history.sent :=
  (effects_pumpTurn (C := C) (G := G) env (Policy.any_meets C G p.conn (.turn env))).sent_mono

theorem sent_mono_pumpLoop (p : Proc E) (envs : List PumpEnv) :
    p.conn.history.sent <+: (pumpLoop C G p envs).conn.history.sent := by
  induction envs generalizing p with
  | nil => exact List.prefix_rfl
  | cons env envs ih =>
    unfold pumpLoop
    dsimp only
    split_ifs
    · exact (sent_mono_pumpTurn p env).trans (ih _)
    · exact sent_mono_pumpTurn p env

/-- What the first turn sends is sent when the loop ends. -/
theorem sent_mono_pumpTurns (p : Proc E) (env : PumpEnv) (envs : List PumpEnv) :
    (pumpTurn C G p env).1.conn.history.sent <+:
      (pumpLoop C G p (env :: envs)).conn.history.sent := by
  unfold pumpLoop
  dsimp only
  split_ifs
  · exact sent_mono_pumpLoop _ envs
  · exact List.prefix_rfl

/-! ### Turns -/

/-- An open connection on the TLS 1.3 path with data to send and nothing on its way. -/
structure Loaded (conn : Conn E) (hs : HsCtx) : Prop where
  mode : conn.tls13Mode ≠ .off
  isOpen : conn.state = .open
  hs13 : conn.hs13 = some hs
  flushed : hs.msgLen ≤ hs.msgOffset
  sent : conn.t13SendLen ≤ conn.t13SendOff
  queue : 0 < conn.writeBuf.avail
  staged : conn.t13PlainOff < conn.t13PlainLen → conn.t13PlainLen ≤ hs.plainBuf.length
  notDue : ¬(conn.nfDisconnect = true ∧ ¬conn.discConsumed = true)

/-- `OTSnd` takes bytes, in `T_DATAXFER`. -/
def SendEnv.Accepts (env : SendEnv) : Prop :=
  env.epState = .dataxfer ∧ ∃ n, 0 < n ∧ env.result = .sent n

/-- The staged plaintext that is still to be delivered. -/
def Conn.pending (conn : Conn E) : ℕ := conn.t13PlainLen - conn.t13PlainOff

/-- The room in the ring. -/
def Conn.room (conn : Conn E) : ℕ := ostlsReadBufSize - conn.readBuf.avail

/-- The record that the write queue is encrypted to. -/
def nextRecord (C : Crypto) (conn : Conn E) (hs : HsCtx) : Bytes :=
  applicationRecord (tls13RecordEncrypt C hs.writeCtx conn.writeBuf.toList tls13CtApplicationData).2

/-- How much of what is staged the ring takes at once. -/
def Conn.delivered (conn : Conn E) : ℕ := conn.readBuf.accepts conn.pending

theorem Conn.delivered_le (conn : Conn E) :
    conn.delivered ≤ conn.pending ∧ conn.delivered ≤ conn.room := by
  unfold Conn.delivered Conn.room Ring.accepts
  omega

theorem Conn.delivered_pos {conn : Conn E} (hpending : 0 < conn.pending) (hroom : 0 < conn.room) :
    0 < conn.delivered := by
  have hidx : conn.readBuf.writeIdx < ostlsReadBufSize :=
    Nat.mod_lt _ (Nat.lt_of_le_of_lt (Nat.zero_le _) conn.readBuf.pos_lt)
  unfold Conn.room at hroom
  unfold Conn.delivered Ring.accepts
  omega

/-- Staged plaintext is moved to the ring, as much as it takes at once. -/
theorem deliverPlain_moves (conn : Conn E) (hs : HsCtx)
    (hstaged : conn.t13PlainOff < conn.t13PlainLen → conn.t13PlainLen ≤ hs.plainBuf.length) :
    ∃ readBuf bestEvent, pumpTls13DeliverPlain conn hs = ({ conn with
        readBuf, t13PlainOff := conn.t13PlainOff + conn.delivered, bestEvent },
          if 0 < conn.pending ∧ 0 < conn.room then .progress else .idle) ∧
      readBuf.avail = conn.readBuf.avail + conn.delivered := by
  by_cases hmoves : 0 < conn.pending ∧ 0 < conn.room
  · obtain ⟨hpending, hroom⟩ := hmoves
    have hoff : conn.t13PlainOff < conn.t13PlainLen := Nat.lt_of_sub_pos hpending
    have hlen : (slice hs.plainBuf conn.t13PlainOff conn.pending).length = conn.pending := by
      have hfits := hstaged hoff
      unfold Conn.pending
      exact length_slice (by omega)
    have hfull : ¬conn.readBuf.avail ≥ ostlsReadBufSize := Nat.not_le.2 (Nat.lt_of_sub_pos hroom)
    have hdeliver : pumpTls13DeliverPlain conn hs = (eventBump { conn with
        readBuf := conn.readBuf.push (slice hs.plainBuf conn.t13PlainOff conn.pending)
        t13PlainOff := conn.t13PlainOff + conn.delivered } .readable, .progress) :=
      (if_neg (Nat.ne_of_gt hpending)).trans (if_neg hfull)
    obtain ⟨bestEvent, hbump⟩ := eventBump_frame { conn with
        readBuf := conn.readBuf.push (slice hs.plainBuf conn.t13PlainOff conn.pending)
        t13PlainOff := conn.t13PlainOff + conn.delivered } .readable
    rw [hbump] at hdeliver
    refine ⟨_, bestEvent, hdeliver.trans (by rw [if_pos ⟨hpending, hroom⟩]), ?_⟩
    show conn.readBuf.avail + conn.readBuf.accepts _ = _
    rw [hlen]
    rfl
  · have hzero : conn.delivered = 0 := by
      have hle := conn.delivered_le
      omega
    have hidle : pumpTls13DeliverPlain conn hs = (conn, .idle) := by
      unfold Conn.pending Conn.room at hmoves
      unfold pumpTls13DeliverPlain
      dsimp only
      split_ifs
      · rfl
      · rfl
      · omega
    refine ⟨conn.readBuf, conn.bestEvent, ?_, by rw [hzero]; rfl⟩
    rw [hidle, if_neg hmoves, hzero]
    rfl

theorem Loaded.delivers (hl : Loaded p.conn hs) (hpending : 0 < p.conn.pending)
    (hroom : 0 < p.conn.room) (env : PumpEnv) :
    ∃ q : Proc E, pumpTurn C G p env = (q, true) ∧ Loaded q.conn hs ∧
      q.conn.writeBuf = p.conn.writeBuf ∧ q.conn.ep = p.conn.ep ∧
      q.conn.history = p.conn.history ∧ q.conn.pending = p.conn.pending - p.conn.delivered ∧
      q.conn.room = p.conn.room - p.conn.delivered := by
  have hlt : p.conn.t13PlainOff < p.conn.t13PlainLen := Nat.lt_of_sub_pos hpending
  obtain ⟨readBuf, bestEvent, hdeliver, havail⟩ := deliverPlain_moves p.conn hs hl.staged
  rw [if_pos ⟨hpending, hroom⟩] at hdeliver
  have hstep : pumpTls13Step C p env = ({ p with conn := { p.conn with
      readBuf, t13PlainOff := p.conn.t13PlainOff + p.conn.delivered, bestEvent } }, .progress) := by
    rw [pumpTls13Step_open hl.isOpen hl.hs13 hl.flushed hl.sent]
    unfold pumpTls13Open
    rw [if_pos hlt, hdeliver]
  rw [pumpTurn_open hl.mode hl.isOpen hl.notDue, hstep]
  refine ⟨_, rfl, ⟨hl.mode, hl.isOpen, hl.hs13, hl.flushed, hl.sent, hl.queue,
    fun _ => hl.staged hlt, hl.notDue⟩, rfl, rfl, rfl, ?_, ?_⟩
  · exact Nat.sub_add_eq ..
  · show ostlsReadBufSize - readBuf.avail = _
    rw [havail]
    exact Nat.sub_add_eq ..

/-- With a full ring, staged plaintext ends the step. -/
theorem Loaded.stalls (hl : Loaded p.conn hs) (hpending : 0 < p.conn.pending)
    (hfull : p.conn.room = 0) (env : PumpEnv) : pumpTurn C G p env = (p, false) := by
  have hidle : pumpTls13DeliverPlain p.conn hs = (p.conn, .idle) :=
    (if_neg (Nat.ne_of_gt hpending)).trans (if_pos (Nat.le_of_sub_eq_zero hfull))
  have hstep : pumpTls13Step C p env = (p, .idle) := by
    rw [pumpTls13Step_open hl.isOpen hl.hs13 hl.flushed hl.sent]
    unfold pumpTls13Open
    rw [if_pos (Nat.lt_of_sub_pos hpending), hidle]
  rw [pumpTurn_open hl.mode hl.isOpen hl.notDue, hstep]
  rfl

/-- With nothing staged, the write queue is encrypted. -/
theorem Loaded.builds (hl : Loaded p.conn hs) (hpending : p.conn.pending = 0) (env : PumpEnv) :
    ∃ hs' sendRec writeBuf history, pumpTurn C G p env = ({ p with conn := { p.conn with
        hs13 := some hs', t13SendRec := blit sendRec 0 (nextRecord C p.conn hs)
        t13SendLen := (nextRecord C p.conn hs).length, t13SendOff := 0
        writeBuf, history } }, true) ∧
      hs'.msgLen ≤ hs'.msgOffset ∧ history.sent = p.conn.history.sent := by
  unfold Conn.pending at hpending
  have hsent := hl.sent
  have hqueue := hl.queue
  have hwhole : p.conn.writeBuf.toList.take (min p.conn.writeBuf.avail ostlsWriteBufSize) =
      p.conn.writeBuf.toList := by
    have hfits := p.conn.writeBuf.fits
    refine List.take_of_length_le ?_
    rw [p.conn.writeBuf.length_toList]
    omega
  have hbuild : (pumpTls13BuildSend C p.conn hs).2 = true := by
    unfold pumpTls13BuildSend
    rw [if_neg (by omega), if_neg (by omega)]
  have hstep : pumpTls13Step C p env =
      ({ p with conn := (pumpTls13BuildSend C p.conn hs).1 }, .progress) := by
    rw [pumpTls13Step_open hl.isOpen hl.hs13 hl.flushed hl.sent]
    unfold pumpTls13Open
    rw [if_neg (by omega), if_pos ⟨hqueue, hsent, hbuild⟩]
  rw [pumpTurn_open hl.mode hl.isOpen hl.notDue, hstep]
  unfold pumpTls13BuildSend
  dsimp only
  rw [if_neg (by omega), if_neg (by omega), hwhole]
  exact ⟨_, _, _, _, rfl, hl.flushed, rfl⟩

/-- The front of the record in flight is sent. -/
theorem pumpTurn_sends (hmode : p.conn.tls13Mode ≠ .off) (hst : p.conn.state = .open)
    (hdue : ¬(p.conn.nfDisconnect = true ∧ ¬p.conn.discConsumed = true))
    (h13 : p.conn.hs13 = some hs) (hflushed : hs.msgLen ≤ hs.msgOffset)
    (hfly : p.conn.t13SendOff < p.conn.t13SendLen) (hne : p.conn.link.unsent ≠ []) {env : PumpEnv}
    (hacc : env.sendApp.Accepts) :
    ∃ bytes, bytes ≠ [] ∧ bytes <+: p.conn.link.unsent ∧
      (pumpTurn C G p env).1.conn.history.sent = p.conn.history.sent ++ [(p.conn.ep, bytes)] := by
  obtain ⟨hep, n, hn, hres⟩ := hacc
  have hlen : 0 < p.conn.link.unsent.length := List.length_pos_iff.2 hne
  -- `OTSnd` takes some of it
  have hraw : ostlsSendRaw p.conn p.conn.link.unsent env.sendApp = ({ p.conn with
      history := { p.conn.history with
        sent := p.conn.history.sent ++ [(p.conn.ep, p.conn.link.unsent.take n)] } },
      some (min n p.conn.link.unsent.length)) := by
    unfold ostlsSendRaw
    rw [if_neg (Nat.ne_of_gt hlen), if_neg (by rw [hep]; decide), hres]
  -- no handshake bytes are before it
  have hnone : flushHandshake p.conn hs env.sendHs = (p.conn, none) :=
    if_neg (Nat.not_lt.2 hflushed)
  have hflush : ∃ conn', flushRecord p.conn env.sendApp = (conn', some .progress) ∧
      conn'.history.sent =
        p.conn.history.sent ++ [(p.conn.ep, p.conn.link.unsent.take n)] := by
    have hbuf : slice p.conn.t13SendRec p.conn.t13SendOff
        (p.conn.t13SendLen - p.conn.t13SendOff) = p.conn.link.unsent := rfl
    unfold flushRecord
    rw [if_pos hfly, hbuf, hraw]
    have hpos : min n p.conn.link.unsent.length > 0 := by omega
    dsimp only
    rw [if_pos hpos]
    refine ⟨_, rfl, ?_⟩
    split_ifs
    · obtain ⟨bestEvent, hbump⟩ := eventBump_frame { p.conn with
        history := { p.conn.history with
          sent := p.conn.history.sent ++ [(p.conn.ep, p.conn.link.unsent.take n)] }
        t13SendLen := 0, t13SendOff := 0 } .writable
      rw [hbump]
    · rfl
  obtain ⟨conn', hflush, hsent⟩ := hflush
  -- so the step ends with the record
  have hstep : pumpTls13Step C p env = ({ p with conn := conn' }, .progress) := by
    unfold pumpTls13Step
    rw [h13]
    dsimp only
    rw [hnone]
    dsimp only
    rw [hflush]
  refine ⟨p.conn.link.unsent.take n, ?_, List.take_prefix _ _, ?_⟩
  · intro h
    have hzero := congrArg List.length h
    rw [List.length_take, List.length_nil] at hzero
    omega
  · rw [pumpTurn_open hmode hst hdue, hstep]
    exact hsent

/-! ### Whole calls -/

/-- Bytes off the front of this record were sent, and whatever else. -/
def HandsOver (record : Bytes) (conn conn' : Conn E) : Prop :=
  ∃ bytes rest, bytes ≠ [] ∧ bytes <+: record ∧
    conn'.history.sent = conn.history.sent ++ (conn.ep, bytes) :: rest

/-- Two turns build the record and send its front. -/
theorem Loaded.builds_and_sends (hl : Loaded p.conn hs) (hpending : p.conn.pending = 0)
    (env : PumpEnv) {env' : PumpEnv} (hacc : env'.sendApp.Accepts) (envs : List PumpEnv) :
    HandsOver (nextRecord C p.conn hs) p.conn (pumpLoop C G p (env :: env' :: envs)).conn := by
  obtain ⟨hs', sendRec, writeBuf, history, hturn, hflushed, hsent⟩ :=
    hl.builds (C := C) (G := G) hpending env
  have hpos : 0 < (nextRecord C p.conn hs).length := by
    unfold nextRecord applicationRecord
    simp
  have hne : nextRecord C p.conn hs ≠ [] := List.length_pos_iff.1 hpos
  have hunsent : slice (blit sendRec 0 (nextRecord C p.conn hs)) 0
      ((nextRecord C p.conn hs).length - 0) = nextRecord C p.conn hs :=
    slice_blit_self (Nat.zero_le _)
  generalize hq : ({ p with conn := { p.conn with
    hs13 := some hs', t13SendRec := blit sendRec 0 (nextRecord C p.conn hs)
    t13SendLen := (nextRecord C p.conn hs).length, t13SendOff := 0, writeBuf, history } } :
      Proc E) = q at hturn
  have hrec : q.conn.link.unsent = nextRecord C p.conn hs := by
    rw [← hq]
    exact hunsent
  obtain ⟨bytes, hbytes, hfront, hsends⟩ : ∃ bytes, bytes ≠ [] ∧ bytes <+: q.conn.link.unsent ∧
      (pumpTurn C G q env').1.conn.history.sent = p.conn.history.sent ++ [(p.conn.ep, bytes)] := by
    have h13 : q.conn.hs13 = some hs' := by rw [← hq]
    have hsends := pumpTurn_sends (C := C) (G := G) (p := q) (by rw [← hq]; exact hl.mode)
      (by rw [← hq]; exact hl.isOpen) (by rw [← hq]; exact hl.notDue) h13 hflushed
      (by rw [← hq]; exact hpos) (by rwa [hrec]) hacc
    have hbefore : q.conn.history.sent = p.conn.history.sent := by
      rw [← hq]
      exact hsent
    have hep : q.conn.ep = p.conn.ep := by rw [← hq]
    rwa [hbefore, hep] at hsends
  obtain ⟨rest, hrest⟩ := sent_mono_pumpTurns (C := C) (G := G) q env' envs
  refine ⟨bytes, rest, hbytes, hrec ▸ hfront, ?_⟩
  unfold pumpLoop
  rw [hturn]
  show (pumpLoop C G q (env' :: envs)).conn.history.sent = _
  rw [← hrest, hsends, List.append_assoc, List.singleton_append]

/-- With room for what is staged, enough turns send bytes of the next record. -/
theorem Loaded.handsOver (hl : Loaded p.conn hs) (hroom : p.conn.pending ≤ p.conn.room)
    {envs : List PumpEnv} (hacc : ∀ env ∈ envs, env.sendApp.Accepts)
    (hlen : p.conn.pending + 2 ≤ envs.length) :
    HandsOver (nextRecord C p.conn hs) p.conn (pumpLoop C G p envs).conn := by
  induction envs generalizing p with
  | nil => cases hlen
  | cons env envs ih =>
    have hacc' : ∀ env ∈ envs, env.sendApp.Accepts := fun env h => hacc env (.tail _ h)
    rw [List.length_cons] at hlen
    by_cases hpending : p.conn.pending = 0
    · cases envs with
      | nil => exact absurd hlen (by simp)
      | cons env' envs => exact hl.builds_and_sends hpending env (hacc' env' (.head _)) envs
    · have hpending' : 0 < p.conn.pending := Nat.pos_of_ne_zero hpending
      have hroom' : 0 < p.conn.room := Nat.lt_of_lt_of_le hpending' hroom
      have hpos := p.conn.delivered_pos hpending' hroom'
      have hle := p.conn.delivered_le
      obtain ⟨q, hturn, hq, hqueue, hep, hhist, hpend, hr⟩ :=
        hl.delivers (C := C) (G := G) hpending' hroom' env
      have hrec : nextRecord C q.conn hs = nextRecord C p.conn hs := by
        unfold nextRecord
        rw [hqueue]
      have hgoes := ih hq (by omega) hacc' (by omega)
      unfold pumpLoop HandsOver
      rw [hturn]
      rwa [hrec, HandsOver, hep, hhist] at hgoes

/-- Without room for what is staged, nothing is sent. -/
theorem Loaded.stuck (hl : Loaded p.conn hs) (hroom : p.conn.room < p.conn.pending)
    (envs : List PumpEnv) :
    (pumpLoop C G p envs).conn.history.sent = p.conn.history.sent := by
  induction envs generalizing p with
  | nil => rfl
  | cons env envs ih =>
    unfold pumpLoop
    by_cases hfull : p.conn.room = 0
    · rw [hl.stalls (C := C) (G := G) (by omega) hfull env]
      rfl
    · have hle := p.conn.delivered_le
      obtain ⟨q, hturn, hq, -, -, hhist, hpend, hr⟩ :=
        hl.delivers (C := C) (G := G) (by omega) (Nat.pos_of_ne_zero hfull) env
      rw [hturn]
      have hq' : q.conn.room < q.conn.pending := by omega
      exact (ih hq hq').trans (by rw [hhist])

/-- A `T_DISCONNECT` that was not looked at fails the connection first. -/
theorem sent_of_due (hst : p.conn.state = .open)
    (hdue : p.conn.nfDisconnect = true ∧ ¬p.conn.discConsumed = true) (envs : List PumpEnv) :
    (pumpLoop C G p envs).conn.history.sent = p.conn.history.sent := by
  cases envs with
  | nil => rfl
  | cons env envs =>
    obtain ⟨conn', hpre, hsame⟩ : ∃ conn', pumpHandshakeOrOpenPre p.conn env = (conn', false) ∧
        conn'.history.sent = p.conn.history.sent :=
      ⟨_, (if_neg fun h => by cases h.1.symm.trans hst).trans (if_pos hdue), rfl⟩
    have hturn : pumpTurn C G p env = ({ p with conn := eventBump conn' .failed }, false) := by
      unfold pumpTurn
      rw [if_neg (by rw [hst]; decide), hpre]
      rfl
    obtain ⟨bestEvent, hbump⟩ := eventBump_frame conn' .failed
    unfold pumpLoop
    rw [hturn, hbump]
    exact hsame

theorem ostlsPump_open (hdis : p.conn.disposed = false) (hst : p.conn.state = .open)
    (envs : List PumpEnv) : (ostlsPump C G p envs).2.2 =
      pumpLoop C G (p.onConn fun conn => { conn with bestEvent := .none }) envs := by
  unfold ostlsPump
  rw [if_neg (by rw [hdis]; decide), if_neg (by rw [hst]; decide), if_neg (by rw [hst]; decide)]

theorem HandsOver.sent_ne {record : Bytes} {conn conn' : Conn E} (h : HandsOver record conn conn') :
    conn'.history.sent ≠ conn.history.sent := by
  obtain ⟨bytes, rest, -, -, hsent⟩ := h
  intro heq
  have hlen := congrArg List.length (heq.symm.trans hsent)
  rw [List.length_append, List.length_cons] at hlen
  omega

/-- **A writer waits for its reader.**  `OSTLS_Pump` on an open connection of the TLS 1.3 path with
data to send and nothing in flight hands bytes of that data to `OTSnd`, given enough turns, exactly
when what is staged fits the ring and no `T_DISCONNECT` is waiting. -/
theorem sends_iff {ok : Proc E → Action → Prop} {config : OstlsConfig} {tickets : TicketCache}
    {sessions : SessCache} {log : List ResumeEvent}
    (h : Reach (Proc.step C G) ok (Proc.start G config tickets sessions log) p)
    (hdis : p.conn.disposed = false) (hmode : p.conn.tls13Mode ≠ .off)
    (hst : p.conn.state = .open) (hqueue : 0 < p.conn.writeBuf.avail)
    (hsent : p.conn.t13SendLen ≤ p.conn.t13SendOff) :
    (∃ n, ∀ envs : List PumpEnv, (∀ env ∈ envs, env.sendApp.Accepts) → n ≤ envs.length →
      ∃ hs, p.conn.hs13 = some hs ∧
        HandsOver (nextRecord C p.conn hs) p.conn (ostlsPump C G p envs).2.2.conn) ↔
    ¬(p.conn.nfDisconnect = true ∧ ¬p.conn.discConsumed = true) ∧
      p.conn.pending ≤ p.conn.room := by
  obtain ⟨hl, hf⟩ := filling_of_reach h
  obtain ⟨hs, h13⟩ := Option.ne_none_iff_exists'.1 (hl.context hdis hmode)
  have h13 : p.conn.hs13 = some hs := h13
  have hopen : p.conn.tls13Mode = .open := by
    cases hm : p.conn.tls13Mode with
    | off => exact absurd hm hmode
    | trying =>
      obtain htried | htried := hf.tried hm
      all_goals cases htried.symm.trans hst
    | «open» => rfl
  have hflushed : hs.msgLen ≤ hs.msgOffset := ((hl.opened hopen).2 hs h13).2
  have hstaged : p.conn.t13PlainOff < p.conn.t13PlainLen →
      p.conn.t13PlainLen ≤ hs.plainBuf.length :=
    fun hlt => (inbound_of_reach h hdis).staged hlt hmode hs h13
  have hloaded : ∀ hdue, Loaded (p.onConn fun conn => { conn with bestEvent := .none }).conn hs :=
    fun hdue => ⟨hmode, hst, h13, hflushed, hsent, hqueue, hstaged, hdue⟩
  constructor
  · rintro ⟨n, hsends⟩
    -- an endpoint that takes everything
    have hacc : ∀ env ∈ List.replicate n sendEnv, env.sendApp.Accepts := by
      intro env henv
      rw [List.eq_of_mem_replicate henv]
      exact ⟨rfl, 20000, by decide, rfl⟩
    obtain ⟨hs', -, hover⟩ := hsends _ hacc (Nat.le_of_eq List.length_replicate.symm)
    rw [ostlsPump_open hdis hst] at hover
    have hdue : ¬(p.conn.nfDisconnect = true ∧ ¬p.conn.discConsumed = true) := fun hdue =>
      hover.sent_ne (sent_of_due (p := p.onConn fun conn => { conn with bestEvent := .none })
        hst hdue _)
    refine ⟨hdue, ?_⟩
    by_contra hroom
    exact hover.sent_ne ((hloaded hdue).stuck (Nat.lt_of_not_le hroom) _)
  · rintro ⟨hdue, hroom⟩
    refine ⟨p.conn.pending + 2, fun envs hacc hlen => ⟨hs, h13, ?_⟩⟩
    rw [ostlsPump_open hdis hst]
    exact (hloaded hdue).handsOver hroom hacc hlen

/-- A byte is written to an open connection. -/
def writesTls13 : List (Proc Unit → Action) := opensTls13 ++ [fun _ => .write [1]]

theorem sends_written :
    let p := play (Proc.step .transparent waitingEngine) freshProc writesTls13
    ∃ n, ∀ envs : List PumpEnv, (∀ env ∈ envs, env.sendApp.Accepts) → n ≤ envs.length →
      ∃ hs, p.conn.hs13 = some hs ∧ HandsOver (nextRecord .transparent p.conn hs) p.conn
        (ostlsPump .transparent waitingEngine p envs).2.2.conn := by
  have hready : let p := play (Proc.step .transparent waitingEngine) freshProc writesTls13
      p.conn.disposed = false ∧ p.conn.tls13Mode ≠ .off ∧ p.conn.state = .open ∧
        0 < p.conn.writeBuf.avail ∧ p.conn.t13SendLen ≤ p.conn.t13SendOff ∧
        ¬(p.conn.nfDisconnect = true ∧ ¬p.conn.discConsumed = true) ∧
        p.conn.pending ≤ p.conn.room := by
    decide +kernel
  have hreach := reach_script writesTls13 (by decide +kernel)
  generalize play (Proc.step .transparent waitingEngine) freshProc writesTls13 = p
    at hready hreach ⊢
  obtain ⟨hdis, hmode, hst, hqueue, hsent, hgoes⟩ := hready
  exact (sends_iff hreach hdis hmode hst hqueue hsent).2 hgoes

/-! ### A full ring and a record behind it -/

/-- The server's record of these bytes. -/
def serverRecord (C : Crypto) (hs : HsCtx) (data : Bytes) : Bytes :=
  applicationRecord (tls13RecordEncrypt C hs.readCtx data tls13CtApplicationData).2

theorem getU16_applicationRecord {body : Bytes} (h : body.length < 65536) :
    getU16 (applicationRecord body) 3 = body.length :=
  (congrArg (getU16 · 3) (List.append_assoc ..)).trans
    (getU16_putU16 [tls13CtApplicationData, 0x03, 0x03] body h)

theorem length_applicationRecord (body : Bytes) :
    (applicationRecord body).length = 5 + body.length := by
  simp only [applicationRecord, List.length_append, List.length_cons, List.length_nil,
    length_putU16]

theorem slice_applicationRecord (body : Bytes) :
    slice (applicationRecord body) 5 body.length = body := by
  have hdrop : (applicationRecord body).drop 5 = body := rfl
  rw [slice, hdrop, List.take_length]

/-- The plaintext of a record is staged, and as much of it delivered as the ring takes at once. -/
theorem recordData_moves (conn : Conn E) (hs : HsCtx) {plen : ℕ}
    (hfits : plen ≤ hs.plainBuf.length) :
    ∃ readBuf bestEvent history, recordData conn hs plen = { conn with
        t13PlainLen := plen, t13PlainOff := conn.readBuf.accepts plen
        readBuf, bestEvent, history } ∧
      readBuf.avail = conn.readBuf.avail + conn.readBuf.accepts plen := by
  obtain ⟨readBuf, bestEvent, hdeliver, havail⟩ := deliverPlain_moves { conn with
      t13PlainLen := plen
      t13PlainOff := 0
      history := { conn.history with
        decrypted := conn.history.decrypted ++ [hs.plainBuf.take plen] } } hs fun _ => hfits
  have hoff : 0 + conn.readBuf.accepts (plen - 0) = conn.readBuf.accepts plen := Nat.zero_add _
  refine ⟨readBuf, bestEvent, { conn.history with
    decrypted := conn.history.decrypted ++ [hs.plainBuf.take plen] }, ?_, havail⟩
  unfold recordData
  rw [hdeliver, ← hoff]
  rfl

/-- The record at the front is decrypted, and its plaintext staged and delivered. -/
theorem pumpTls13ConsumeRecord_serverRecord {data : Bytes} (hlen : data.length + 17 ≤ hsBufSize)
    (hrecv : p.conn.recvBuf = serverRecord C hs data) (now : ℕ) :
    ∃ hs' readBuf bestEvent history,
      pumpTls13ConsumeRecord C p hs now = ({ p with conn := { p.conn with
        hs13 := some hs', recvBuf := [], t13PlainLen := data.length
        t13PlainOff := p.conn.readBuf.accepts data.length, readBuf, bestEvent, history } }, true) ∧
      hs'.msgLen = hs.msgLen ∧ hs'.msgOffset = hs.msgOffset ∧
      readBuf.avail = p.conn.readBuf.avail + p.conn.readBuf.accepts data.length := by
  obtain ⟨hctx, hret, hbuf⟩ := tls13RecordDecrypt_protect C hs.readCtx data
    (show tls13CtApplicationData ≠ 0 by decide) 0
  have hbody : (tls13RecordEncrypt C hs.readCtx data tls13CtApplicationData).2.length =
      data.length + 17 := length_tls13RecordEncrypt ..
  have hsize : data.length + 17 < 65536 := Nat.lt_of_le_of_lt hlen (by decide)
  have hdecrypt : ∃ d, tls13RecordDecrypt C hs.readCtx
      (tls13RecordEncrypt C hs.readCtx data tls13CtApplicationData).2 = d ∧
      d.ret = some (data.length, tls13CtApplicationData) ∧ d.buf.take data.length = data :=
    ⟨_, rfl, hret, hbuf⟩
  unfold serverRecord at hrecv
  generalize (tls13RecordEncrypt C hs.readCtx data tls13CtApplicationData).2 = body
    at hrecv hbody hdecrypt
  obtain ⟨d, hd, hret, hbuf⟩ := hdecrypt
  have hreclen : getU16 p.conn.recvBuf 3 = body.length := by
    rw [hrecv]
    exact getU16_applicationRecord (by omega)
  have hall : p.conn.recvBuf.length = 5 + body.length := by
    rw [hrecv, length_applicationRecord]
  have hpayload : slice p.conn.recvBuf 5 body.length = body := by
    rw [hrecv, slice_applicationRecord]
  have hfits : data.length ≤ (blit hs.plainBuf 0 d.buf).length := by
    have htake := congrArg List.length hbuf
    rw [List.length_take] at htake
    simp only [blit, List.length_append]
    omega
  obtain ⟨readBuf, bestEvent, history, hdata, havail⟩ := recordData_moves { p.conn with
      hs13 := some { hs with readCtx := d.ctx, plainBuf := blit hs.plainBuf 0 d.buf }
      recvBuf := [] } { hs with readCtx := d.ctx, plainBuf := blit hs.plainBuf 0 d.buf } hfits
  have hdrop : p.conn.recvBuf.drop (5 + body.length) = [] :=
    List.drop_eq_nil_of_le (Nat.le_of_eq hall)
  unfold pumpTls13ConsumeRecord
  dsimp only
  rw [if_neg (by omega), hreclen, if_neg (by omega), if_neg (by omega), hpayload, hd, hret, hdrop]
  dsimp only
  rw [if_pos rfl]
  refine ⟨{ hs with readCtx := d.ctx, plainBuf := blit hs.plainBuf 0 d.buf }, readBuf, bestEvent,
    history, ?_, rfl, rfl, havail⟩
  exact congrArg (fun conn' => (({ p with conn := conn' } : Proc E), true)) hdata

/-- A record behind a header is taken in a turn, and its bytes go to the ring. -/
theorem Resting.takesRecord (hr : Resting p.conn hs) (hqueue : p.conn.writeBuf.avail = 0)
    {data : Bytes} (hlen : data.length + 17 ≤ hsBufSize)
    (hrecv : p.conn.recvBuf = serverRecord C hs data) (env : PumpEnv) :
    ∃ hs' readBuf bestEvent history, (Proc.step C G p (.turn env)).conn = { p.conn with
        hs13 := some hs', recvBuf := [], t13PlainLen := data.length
        t13PlainOff := p.conn.readBuf.accepts data.length, readBuf, bestEvent, history } ∧
      hs'.msgLen ≤ hs'.msgOffset ∧
      readBuf.avail = p.conn.readBuf.avail + p.conn.readBuf.accepts data.length := by
  obtain ⟨hs', readBuf, bestEvent, history, hconsume, hmsg, hoff, havail⟩ :=
    @pumpTls13ConsumeRecord_serverRecord _ C p hs _ hlen hrecv env.ticks
  have hstaged := hr.staged
  have hstep : MacTLS.pumpTls13Step C p env =
      ((pumpTls13ConsumeRecord C p hs env.ticks).1, .progress) := by
    rw [hr.pumpTls13Step]
    unfold pumpTls13Open
    rw [if_neg (by omega), if_neg fun h => by omega, hconsume]
    rfl
  have hturn : Proc.step C G p (.turn env) = (pumpTurn C G p env).1 := by
    unfold Proc.step
    dsimp only
    rw [hr.inUse]
    rfl
  rw [hturn, pumpTurn_open hr.mode hr.isOpen hr.notDue, hstep, hconsume]
  refine ⟨hs', readBuf, bestEvent, history, rfl, ?_, havail⟩
  rw [hmsg, hoff]
  exact hr.flushed

/-- Two turns, in which a record comes in and is taken. -/
theorem Resting.served (hr : Resting p.conn hs) (hqueue : p.conn.writeBuf.avail = 0)
    (hempty : p.conn.recvBuf = []) (data : Bytes) (hlen : data.length + 17 ≤ hsBufSize) :
    ∃ q hs' readBuf bestEvent history, Reach (Proc.step C G) OtLawful p q ∧
      q.conn = { p.conn with
        nfDataPending := false, hs13 := some hs', recvBuf := [], t13PlainLen := data.length
        t13PlainOff := p.conn.readBuf.accepts data.length, readBuf, bestEvent, history } ∧
      hs'.msgLen ≤ hs'.msgOffset ∧
      readBuf.avail = p.conn.readBuf.avail + p.conn.readBuf.accepts data.length := by
  have hsize : (serverRecord C hs data).length = data.length + 22 := by
    rw [serverRecord, length_applicationRecord, length_tls13RecordEncrypt]
    omega
  have hroom : data.length + 22 ≤ sslIobufSize :=
    Nat.le_trans (Nat.add_le_add_right hlen 5) (by decide)
  obtain ⟨x, bytes, hbytes⟩ := List.exists_cons_of_length_pos
    (show 0 < (serverRecord C hs data).length by omega)
  have hreceived := hr.receives (C := C) (G := G) hqueue (by rw [hempty]; decide)
    { sendEnv with recv := ⟨.dataxfer, .data (serverRecord C hs data)⟩ } rfl (by rw [hbytes])
  rw [← hbytes, hempty, List.nil_append, List.length_nil, Nat.sub_zero,
    List.take_of_length_le (by omega)] at hreceived
  have hreach : Reach (Proc.step C G) OtLawful p (Proc.step C G p (.turn { sendEnv with
      recv := ⟨.dataxfer, .data (serverRecord C hs data)⟩ })) := Reach.refl.tail trivial
  generalize Proc.step C G p (.turn { sendEnv with
    recv := ⟨.dataxfer, .data (serverRecord C hs data)⟩ }) = q at hreceived hreach
  have hq : Resting q.conn hs := by
    rw [hreceived]
    exact ⟨hr.inUse, hr.mode, hr.isOpen, hr.peer, hr.hs13, hr.flushed, hr.staged, hr.sent,
      hr.notDue⟩
  obtain ⟨hs', readBuf, bestEvent, history, htakes, hflushed, havail⟩ :=
    hq.takesRecord (C := C) (G := G) (by rw [hreceived]; exact hqueue) hlen (by rw [hreceived])
      sendEnv
  rw [hreceived] at htakes havail
  exact ⟨_, hs', readBuf, bestEvent, history,
    hreach.tail (show OtLawful q (.turn sendEnv) from trivial), htakes, hflushed, havail⟩

/-- With a full ring and a byte behind it, nothing that is written is ever sent. -/
theorem writer_waits :
    ∃ p : Proc Unit, Reach (Proc.step .transparent waitingEngine) OtLawful freshProc p ∧
      p.conn.disposed = false ∧ p.conn.tls13Mode ≠ .off ∧ p.conn.state = .open ∧
      0 < p.conn.writeBuf.avail ∧ p.conn.t13SendLen ≤ p.conn.t13SendOff ∧
      (∀ hs, p.conn.hs13 = some hs → hs.msgLen ≤ hs.msgOffset) ∧
      ¬(p.conn.nfDisconnect = true ∧ ¬p.conn.discConsumed = true) ∧
      ∀ envs, (ostlsPump .transparent waitingEngine p envs).2.2.conn.history.sent =
        p.conn.history.sent := by
  obtain ⟨hs, hr, hqueue, hempty⟩ := resting_opensTls13
  have hring : let p := play (Proc.step .transparent waitingEngine) freshProc opensTls13
      p.conn.readBuf.avail = 0 ∧ p.conn.readBuf.pos = 0 := by
    decide +kernel
  have hreach : Reach (Proc.step .transparent waitingEngine) OtLawful freshProc
      (play (Proc.step .transparent waitingEngine) freshProc opensTls13) :=
    reach_play (by decide +kernel)
  generalize play (Proc.step .transparent waitingEngine) freshProc opensTls13 = p
    at hr hqueue hempty hring hreach
  obtain ⟨havail, hpos⟩ := hring
  -- a record that fills the ring
  have hlen : (List.replicate ostlsReadBufSize (0 : UInt8)).length = ostlsReadBufSize :=
    List.length_replicate
  generalize List.replicate ostlsReadBufSize (0 : UInt8) = data at hlen
  obtain ⟨q, hs₁, ring₁, _, _, hreach₁, hq, hflushed₁, havail₁⟩ := hr.served (C := .transparent)
    (G := waitingEngine) hqueue hempty data (by rw [hlen]; decide)
  have haccepts : p.conn.readBuf.accepts data.length = data.length := by
    unfold Ring.accepts Ring.writeIdx
    rw [havail, hpos, hlen]
    rfl
  rw [havail, haccepts, hlen, Nat.zero_add] at havail₁
  rw [haccepts] at hq
  have hr₁ : Resting q.conn hs₁ := by
    rw [hq]
    exact ⟨hr.inUse, hr.mode, hr.isOpen, hr.peer, rfl, hflushed₁, Nat.le_refl _, hr.sent, hr.notDue⟩
  -- a byte behind it
  obtain ⟨r, hs₂, ring₂, _, _, hreach₂, hr₂, hflushed₂, havail₂⟩ := hr₁.served (C := .transparent)
    (G := waitingEngine) (by rw [hq]; exact hqueue) (by rw [hq]) [1] (by decide)
  have hfull : q.conn.readBuf.accepts [(1 : UInt8)].length = 0 := by
    unfold Ring.accepts
    rw [hq, havail₁, Nat.sub_self]
    simp
  rw [hfull] at hr₂ havail₂
  rw [hq, havail₁] at havail₂
  -- and a byte to send
  obtain ⟨writeBuf, history, hwrote, hpos', -⟩ := step_write (C := .transparent)
    (G := waitingEngine) (p := r) (by rw [hr₂]; exact hr₁.inUse) (by rw [hr₂]; exact hr₁.isOpen)
    (by rw [hr₂, hq]; exact hqueue) (List.cons_ne_nil (1 : UInt8) [])
  have hreach₃ := ((hreach.trans hreach₁).trans hreach₂).tail
    (show OtLawful r (.write [1]) from trivial)
  generalize Proc.step .transparent waitingEngine r (.write [1]) = p' at hwrote hreach₃
  rw [hr₂, hq] at hwrote
  have hdis : p'.conn.disposed = false := by rw [hwrote]; exact hr.inUse
  have hmode : p'.conn.tls13Mode ≠ .off := by rw [hwrote]; exact hr.mode
  have hst : p'.conn.state = .open := by rw [hwrote]; exact hr.isOpen
  have h13 : p'.conn.hs13 = some hs₂ := by rw [hwrote]
  have hsent : p'.conn.t13SendLen ≤ p'.conn.t13SendOff := by rw [hwrote]; exact hr.sent
  have hwrite : 0 < p'.conn.writeBuf.avail := by rw [hwrote]; exact hpos'
  have hdue : ¬(p'.conn.nfDisconnect = true ∧ ¬p'.conn.discConsumed = true) := by
    rw [hwrote]
    exact hr.notDue
  have hroom : p'.conn.room = 0 := by
    rw [hwrote]
    show ostlsReadBufSize - ring₂.avail = 0
    rw [havail₂]
    rfl
  have hpending : p'.conn.pending = 1 := by
    rw [hwrote]
    rfl
  refine ⟨p', hreach₃, hdis, hmode, hst, hwrite, hsent, fun x hx => ?_, hdue, fun envs => ?_⟩
  · cases h13.symm.trans hx
    exact hflushed₂
  · rw [ostlsPump_open hdis hst]
    have hl : Loaded (p'.onConn fun conn => { conn with bestEvent := .none }).conn hs₂ :=
      ⟨hmode, hst, h13, hflushed₂, hsent, hwrite,
        fun hlt => (inbound_of_reach hreach₃ hdis).staged hlt hmode hs₂ h13, hdue⟩
    have hbehind : p'.conn.room < p'.conn.pending := by omega
    exact hl.stuck hbehind envs

end MacTLS
