import MacTLS.Async.Outbound

/-!
# Behind a peer that has closed

Nothing more is received then, and the open phase works off what there is: the staged plaintext, the
write queue, and the records that were received.

* `CutShort` : the received bytes stop in the middle of a record;
* `Ending.turn` : what a turn of the pump does;
* `drained_over_iff` : repeated pumps end in `closed` or `failed` exactly when the received bytes are
  not cut short, and there is no other state in which nothing happens any more;
* `stuck_in_record` : a connection whose peer closes in the middle of a record stays open for ever.
-/

namespace MacTLS

open Lib

variable {E : Type} {C : Crypto} {G : Engine E}

/-! ### The received bytes -/

/-- What the open phase finds in front of the received bytes. -/
inductive Front where
  /-- Less than a header, or a record that closes the connection or makes it fail. -/
  | ends
  /-- The beginning of a record. -/
  | cut
  /-- A record, with the length of the application data in it. -/
  | record (ctx : RecordCtx) (plen : ℕ) (rest : Bytes)
  deriving DecidableEq

def front (C : Crypto) (ctx : RecordCtx) (recv : Bytes) : Front :=
  let reclen := getU16 recv 3
  if recv.length < 5 ∨ reclen > hsBufSize then .ends
  else if recv.length < 5 + reclen then .cut
  else
    let d := tls13RecordDecrypt C ctx (slice recv 5 reclen)
    match d.ret with
    | none => .ends
    | some (plen, inner) =>
      if inner = tls13CtAlert then .ends
      else .record d.ctx (if inner = tls13CtApplicationData then plen else 0)
        (recv.drop (5 + reclen))

/-- The received bytes stop in the middle of a record, and nothing before it ends the connection. -/
inductive CutShort (C : Crypto) : RecordCtx → Bytes → Prop
  | cut {ctx : RecordCtx} {recv : Bytes} (h : front C ctx recv = .cut) : CutShort C ctx recv
  | record {ctx ctx' : RecordCtx} {recv rest : Bytes} {plen : ℕ}
      (h : front C ctx recv = .record ctx' plen rest) (hr : CutShort C ctx' rest) :
      CutShort C ctx recv

theorem not_cutShort_of_ends {ctx : RecordCtx} {recv : Bytes} (h : front C ctx recv = .ends) :
    ¬CutShort C ctx recv := by
  rintro (h' | ⟨h', -⟩) <;> cases h.symm.trans h'

theorem cutShort_of_record {ctx ctx' : RecordCtx} {recv rest : Bytes} {plen : ℕ}
    (h : front C ctx recv = .record ctx' plen rest) :
    CutShort C ctx' rest ↔ CutShort C ctx recv := by
  refine ⟨.record h, fun hcut => ?_⟩
  cases hcut with
  | cut h' => cases h.symm.trans h'
  | record h' hr =>
    cases h.symm.trans h'
    exact hr

/-- A record is longer than the application data in it. -/
theorem front_record_length {ctx ctx' : RecordCtx} {recv rest : Bytes} {plen : ℕ}
    (h : front C ctx recv = .record ctx' plen rest) : rest.length + plen < recv.length := by
  unfold front at h
  dsimp only at h
  split_ifs at h with hshort hcut
  split at h
  · cases h
  · rename_i plen' inner hret
    have hle := tls13RecordDecrypt_len_le hret
    have hslice : (slice recv 5 (getU16 recv 3)).length = getU16 recv 3 := length_slice (by omega)
    split_ifs at h <;> cases h <;> rw [List.length_drop] <;> omega

/-! ### The state -/

/-- A connection whose peer has closed, and whose handshake is behind. -/
structure Ending (conn : Conn E) (hs : HsCtx) : Prop where
  inUse : conn.disposed = false
  mode : conn.tls13Mode ≠ .off
  up : conn.state.isUp = true
  peer : conn.peerClosed = true
  hs13 : conn.hs13 = some hs
  flushed : hs.msgLen ≤ hs.msgOffset

/-- The connection is closed or has failed. -/
def Conn.Over (conn : Conn E) : Prop := conn.state = .closed ∨ conn.state = .failed

/-- A disconnect was noted that the pump has not looked at. -/
def Conn.disconnectDue (conn : Conn E) : Bool := conn.nfDisconnect && !conn.discConsumed

/-- How much there is still to do: bytes received, staged, queued and in flight.  A record is 22
bytes longer than what is in it. -/
def Conn.weight (conn : Conn E) : ℕ :=
  conn.recvBuf.length + (conn.t13PlainLen - conn.t13PlainOff) +
    (if conn.writeBuf.avail = 0 then 0 else conn.writeBuf.avail + 23) +
    (conn.t13SendLen - conn.t13SendOff)

/-- `conn'` is such a connection again, with the same verdict on the received bytes. -/
structure Goes (C : Crypto) (conn : Conn E) (hs : HsCtx) (conn' : Conn E) (hs' : HsCtx) : Prop where
  ending : Ending conn' hs'
  cutShort : CutShort C hs'.readCtx conn'.recvBuf ↔ CutShort C hs.readCtx conn.recvBuf
  due : conn'.disconnectDue = conn.disconnectDue

/-- What a step does; `still` says that `OTSnd` takes nothing. -/
inductive EndStep (C : Crypto) (still : Prop) (conn : Conn E) (hs : HsCtx) (conn' : Conn E) :
    Did → Prop
  | ended {did : Did} (hover : conn'.Over) (hdid : did ≠ .idle)
      (hcut : still → ¬CutShort C hs.readCtx conn.recvBuf) : EndStep C still conn hs conn' did
  | moves {hs' : HsCtx} (hg : Goes C conn hs conn' hs') (hw : conn'.weight < conn.weight) :
      EndStep C still conn hs conn' .progress
  | rests {hs' : HsCtx} (hg : Goes C conn hs conn' hs') (hw : conn'.weight = conn.weight)
      (hwhy : front C hs.readCtx conn.recvBuf = .cut ∨
        conn.t13PlainOff < conn.t13PlainLen ∧ ostlsReadBufSize ≤ conn.readBuf.avail) :
      EndStep C still conn hs conn' .idle

theorem eventBump_frame (conn : Conn E) (e : OstlsEvent) :
    ∃ bestEvent, eventBump conn e = { conn with bestEvent } := by
  unfold eventBump
  split_ifs
  · exact ⟨_, rfl⟩
  · exact ⟨_, rfl⟩

theorem over_ostlsFail (conn : Conn E) (osErr : ℕ) (otErr brErr : ℤ) :
    (ostlsFail conn osErr otErr brErr).Over := by
  by_cases h : conn.state = .failed ∨ conn.state = .closed
  · have hst : (ostlsFail conn osErr otErr brErr).state = conn.state := if_pos h
    exact h.symm.imp hst.trans hst.trans
  · exact .inr (if_neg h)

/-! ### Records -/

/-- Delivering staged plaintext makes room for more, unless the ring is full. -/
theorem deliverPlain_cases (conn : Conn E) (hs : HsCtx) :
    let r := pumpTls13DeliverPlain conn hs
    (r = (conn, .idle) ∧
        (conn.t13PlainLen ≤ conn.t13PlainOff ∨ ostlsReadBufSize ≤ conn.readBuf.avail)) ∨
      ∃ readBuf n bestEvent, r = ({ conn with
        readBuf, t13PlainOff := conn.t13PlainOff + n, bestEvent }, .progress) ∧
        0 < n ∧ conn.t13PlainOff < conn.t13PlainLen := by
  unfold pumpTls13DeliverPlain
  dsimp only
  split_ifs with hnone hfull
  · exact .inl ⟨rfl, .inl (by omega)⟩
  · exact .inl ⟨rfl, .inr hfull⟩
  · right
    obtain ⟨bestEvent, hbump⟩ := eventBump_frame { conn with
      readBuf := conn.readBuf.push
        (slice hs.plainBuf conn.t13PlainOff (conn.t13PlainLen - conn.t13PlainOff))
      t13PlainOff := conn.t13PlainOff +
        conn.readBuf.accepts (conn.t13PlainLen - conn.t13PlainOff) } .readable
    refine ⟨_, _, bestEvent, by rw [hbump], ?_, by omega⟩
    have hidx : conn.readBuf.writeIdx < ostlsReadBufSize :=
      Nat.mod_lt _ (Nat.lt_of_le_of_lt (Nat.zero_le _) conn.readBuf.pos_lt)
    rw [Ring.accepts]
    omega

theorem over_recordFail (conn : Conn E) (brErr : ℤ) : (recordFail conn brErr).Over :=
  over_ostlsFail conn asyncBearsslError kOTNoError brErr

theorem recordData_frame (conn : Conn E) (hs : HsCtx) (plen : ℕ) :
    ∃ plainOff readBuf bestEvent history, recordData conn hs plen = { conn with
      t13PlainLen := plen, t13PlainOff := plainOff, readBuf, bestEvent, history } := by
  unfold recordData
  generalize hconn : { conn with
    t13PlainLen := plen
    t13PlainOff := 0
    history := { conn.history with
      decrypted := conn.history.decrypted ++ [hs.plainBuf.take plen] } } = conn'
  obtain ⟨h, -⟩ | ⟨readBuf, n, bestEvent, h, -⟩ := deliverPlain_cases conn' hs
  · exact ⟨_, _, _, _, by rw [h, ← hconn]⟩
  · exact ⟨_, _, _, _, by rw [h, ← hconn]⟩

theorem over_recordAlert {conn : Conn E} (hup : conn.state.isUp = true) (hs : HsCtx) (plen : ℕ) :
    (recordAlert conn hs plen).Over := by
  unfold recordAlert
  by_cases hnotify : plen ≥ 2 ∧ byteAt hs.plainBuf 1 = 0
  · obtain ⟨bestEvent, h⟩ := eventBump_frame
      { conn with peerClosed := true, state := .closed } .closed
    rw [if_pos hnotify]
    dsimp only
    rw [if_pos hup, h]
    exact .inl rfl
  · rw [if_neg hnotify]
    exact over_recordFail ..

theorem recordPostHandshake_frame (C : Crypto) (p : Proc E) (hs : HsCtx) (plen now : ℕ) :
    ∃ ticket ticketValid error, (recordPostHandshake C p hs plen now).conn =
      { p.conn with hs13 := some { hs with ticket, ticketValid, error } } := by
  obtain ⟨ticket, ticketValid, error, h⟩ :=
    tls13HandlePostHandshake_frame C hs (hs.plainBuf.take plen)
  unfold recordPostHandshake
  dsimp only
  rw [h]
  split_ifs
  · exact ⟨ticket, false, error, rfl⟩
  · exact ⟨ticket, ticketValid, error, rfl⟩

variable {p : Proc E} {hs : HsCtx}

theorem consumeRecord_cases (he : Ending p.conn hs)
    (hstaged : p.conn.t13PlainLen ≤ p.conn.t13PlainOff) (now : ℕ) :
    let r := pumpTls13ConsumeRecord C p hs now
    (r = (p, false) ∧
        (p.conn.recvBuf.length < 5 ∨ front C hs.readCtx p.conn.recvBuf = .cut)) ∨
      (r.2 = true ∧ r.1.conn.Over ∧ front C hs.readCtx p.conn.recvBuf = .ends) ∨
      (r.2 = true ∧ ∃ hs', Goes C p.conn hs r.1.conn hs' ∧ r.1.conn.weight < p.conn.weight) := by
  dsimp only
  rw [pumpTls13ConsumeRecord_eq]
  split_ifs with hshort hlong hcut
  · exact .inl ⟨rfl, .inl hshort⟩
  · exact .inr (.inl ⟨rfl, over_recordFail .., if_pos (.inr hlong)⟩)
  · refine .inl ⟨rfl, .inr ?_⟩
    unfold front
    dsimp only
    rw [if_neg (by omega), if_pos hcut]
  · -- a whole record
    have hfront : front C hs.readCtx p.conn.recvBuf =
        match (tls13RecordDecrypt C hs.readCtx (slice p.conn.recvBuf 5
            (getU16 p.conn.recvBuf 3))).ret with
        | none => .ends
        | some (plen, inner) =>
          if inner = tls13CtAlert then .ends
          else .record (tls13RecordDecrypt C hs.readCtx (slice p.conn.recvBuf 5
            (getU16 p.conn.recvBuf 3))).ctx (if inner = tls13CtApplicationData then plen else 0)
            (p.conn.recvBuf.drop (5 + getU16 p.conn.recvBuf 3)) := by
      unfold front
      dsimp only
      rw [if_neg (by omega), if_neg hcut]
    generalize tls13RecordDecrypt C hs.readCtx (slice p.conn.recvBuf 5
      (getU16 p.conn.recvBuf 3)) = d at hfront ⊢
    generalize p.conn.recvBuf.drop (5 + getU16 p.conn.recvBuf 3) = rest at hfront ⊢
    obtain ⟨ctx, buf, ret⟩ := d
    unfold recordOpened
    dsimp only at hfront ⊢
    -- what goes on has the rest of the bytes, and no more than the record staged
    have hgoes : ∀ {conn' : Conn E} {hs' : HsCtx} {plen : ℕ},
        front C hs.readCtx p.conn.recvBuf = .record ctx plen rest →
        (∃ plainLen plainOff readBuf bestEvent history, plainLen - plainOff ≤ plen ∧
          conn' = { p.conn with
            hs13 := some hs', recvBuf := rest, t13PlainLen := plainLen, t13PlainOff := plainOff,
            readBuf, bestEvent, history }) →
        hs'.readCtx = ctx → hs'.msgLen = hs.msgLen → hs'.msgOffset = hs.msgOffset →
        ∃ hs', Goes C p.conn hs conn' hs' ∧ conn'.weight < p.conn.weight := by
      intro conn' hs' plen hrec hconn hctx hlen hoff
      obtain ⟨plainLen, plainOff, readBuf, bestEvent, history, hle, rfl⟩ := hconn
      refine ⟨hs', ⟨⟨he.inUse, he.mode, he.up, he.peer, rfl, ?_⟩, ?_, rfl⟩, ?_⟩
      · rw [hlen, hoff]
        exact he.flushed
      · rw [hctx]
        exact cutShort_of_record hrec
      · have hlen := front_record_length hrec
        simp only [Conn.weight]
        omega
    cases ret with
    | none => exact .inr (.inl ⟨rfl, over_recordFail .., hfront⟩)
    | some ret =>
      obtain ⟨plen, inner⟩ := ret
      dsimp only at hfront ⊢
      right
      split_ifs with hdata halert hpost
      · rw [if_neg (by rw [hdata]; decide), if_pos hdata] at hfront
        obtain ⟨plainOff, readBuf, bestEvent, history, hconn⟩ := recordData_frame { p.conn with
          hs13 := some { hs with readCtx := ctx, plainBuf := blit hs.plainBuf 0 buf }
          recvBuf := rest } { hs with readCtx := ctx, plainBuf := blit hs.plainBuf 0 buf } plen
        exact .inr ⟨rfl, hgoes hfront
          ⟨plen, plainOff, readBuf, bestEvent, history, Nat.sub_le _ _, hconn⟩ rfl rfl rfl⟩
      · rw [if_pos halert] at hfront
        refine .inl ⟨rfl, over_recordAlert ?_ _ _, hfront⟩
        exact he.up
      · rw [if_neg halert, if_neg hdata] at hfront
        obtain ⟨ticket, ticketValid, error, hconn⟩ := recordPostHandshake_frame C { p with
          conn := { p.conn with
            hs13 := some { hs with readCtx := ctx, plainBuf := blit hs.plainBuf 0 buf }
            recvBuf := rest } } { hs with readCtx := ctx, plainBuf := blit hs.plainBuf 0 buf } plen now
        exact .inr ⟨rfl, hgoes hfront ⟨p.conn.t13PlainLen, p.conn.t13PlainOff, p.conn.readBuf,
          p.conn.bestEvent, p.conn.history, by omega, hconn⟩ rfl rfl rfl⟩
      · rw [if_neg halert, if_neg hdata] at hfront
        exact .inr ⟨rfl, hgoes hfront ⟨p.conn.t13PlainLen, p.conn.t13PlainOff, p.conn.readBuf,
          p.conn.bestEvent, p.conn.history, by omega, rfl⟩ rfl rfl rfl⟩

/-! ### The open phase -/

theorem front_of_short {recv : Bytes} {ctx : RecordCtx} (h : recv.length < 5) :
    front C ctx recv = .ends :=
  if_pos (.inl h)

theorem Ending.not_handshaking {conn : Conn E} (he : Ending conn hs) :
    conn.state ≠ .handshaking := by
  intro h
  have hup := he.up
  rw [h] at hup
  cases hup

theorem Ending.receiveOrClose {conn : Conn E} (he : Ending conn hs)
    (hstaged : conn.t13PlainLen ≤ conn.t13PlainOff) (env : RecvEnv) :
    receiveOrClose conn env = if conn.recvBuf.length < 5 then
      (eventBump { conn with state := .closed } .closed, .progress) else (conn, .idle) := by
  have hlive : conn.state ≠ .closed ∧ conn.state ≠ .failed := by
    have hup := he.up
    constructor <;> intro h <;> rw [h] at hup <;> cases hup
  unfold MacTLS.receiveOrClose orElse
  rw [if_pos he.peer, if_pos rfl]
  dsimp only
  by_cases hshort : conn.recvBuf.length < 5
  · rw [if_pos hshort, if_pos ⟨he.peer, hstaged, hshort, hlive⟩]
  · rw [if_neg hshort, if_neg fun h => hshort h.2.2.1]

theorem Ending.pumpTls13Open (he : Ending p.conn hs) (env : PumpEnv) {still : Prop} :
    EndStep C still p.conn hs (pumpTls13Open C p hs env).1.conn (pumpTls13Open C p hs env).2 := by
  unfold MacTLS.pumpTls13Open
  dsimp only
  split_ifs with hstaged hbuild hrec
  · obtain ⟨h, hwhy⟩ | ⟨readBuf, n, bestEvent, h, hn, -⟩ := deliverPlain_cases p.conn hs
    · rw [h]
      exact .rests ⟨he, .rfl, rfl⟩ rfl (.inr ⟨hstaged, hwhy.resolve_left (by omega)⟩)
    · rw [h]
      refine .moves ⟨⟨he.inUse, he.mode, he.up, he.peer, he.hs13, he.flushed⟩, .rfl, rfl⟩ ?_
      simp only [Conn.weight]
      omega
  · obtain ⟨hqueue, hfly, -⟩ := hbuild
    unfold pumpTls13BuildSend
    dsimp only
    rw [if_neg (by omega), if_neg (by omega)]
    refine .moves ⟨⟨he.inUse, he.mode, he.up, he.peer, rfl, he.flushed⟩, .rfl, rfl⟩ ?_
    have hfits := p.conn.writeBuf.fits
    have hall : min p.conn.writeBuf.avail ostlsWriteBufSize = p.conn.writeBuf.avail := by omega
    have hlen : (applicationRecord (tls13RecordEncrypt C hs.writeCtx
        (p.conn.writeBuf.toList.take p.conn.writeBuf.avail) tls13CtApplicationData).2).length =
          p.conn.writeBuf.avail + 22 := by
      have hlist := p.conn.writeBuf.length_toList
      simp only [applicationRecord, List.length_append, List.length_cons, List.length_nil,
        length_putU16, length_tls13RecordEncrypt, List.length_take]
      omega
    have hempty : (p.conn.writeBuf.advance p.conn.writeBuf.avail).avail = 0 := Nat.sub_self _
    simp only [Conn.weight, hall, hlen, hempty, if_true]
    rw [if_neg (by omega)]
    omega
  · obtain ⟨h, -⟩ | ⟨-, hover, hends⟩ | ⟨-, hs', hg, hw⟩ :=
      consumeRecord_cases (C := C) he (by omega) env.ticks
    · rw [h] at hrec
      cases hrec
    · exact .ended hover (by simp) fun _ => not_cutShort_of_ends hends
    · exact .moves hg hw
  · obtain ⟨-, hwhy⟩ | ⟨htrue, -⟩ | ⟨htrue, -⟩ :=
      consumeRecord_cases (C := C) he (by omega) env.ticks
    · rw [he.receiveOrClose (by omega)]
      split_ifs with hshort
      · obtain ⟨bestEvent, h⟩ := eventBump_frame { p.conn with state := .closed } .closed
        rw [h]
        exact .ended (.inl rfl) (by simp) fun _ =>
          not_cutShort_of_ends (front_of_short hshort)
      · exact .rests ⟨he, .rfl, rfl⟩ rfl (.inl (hwhy.resolve_left hshort))
    · exact absurd htrue hrec
    · exact absurd htrue hrec

/-! ### Flushing -/

/-- Sending fails, or takes some bytes and changes nothing that matters here. -/
theorem ostlsSendRaw_frame (conn : Conn E) (buf : Bytes) (env : SendEnv) :
    let r := ostlsSendRaw conn buf env
    (r.2 = none ∧ r.1.Over ∧ canSend env.epState = true) ∨
      ∃ n history nfWantWrite ordConsumed peerClosed, r.2 = some n ∧
        r.1 = { conn with history, nfWantWrite, ordConsumed, peerClosed } ∧
        (conn.peerClosed = true → peerClosed = true) ∧ (canSend env.epState = false → n = 0) := by
  unfold ostlsSendRaw
  split_ifs with hbuf hcan
  · exact .inr ⟨0, _, _, _, _, rfl, rfl, id, fun _ => rfl⟩
  · exact .inr ⟨0, _, _, _, _, rfl, rfl, id, fun _ => rfl⟩
  · have hcan : canSend env.epState = true := by simpa using hcan
    have hno : ∀ {P : Prop}, canSend env.epState = false → P := by
      intro P h
      rw [hcan] at h
      cases h
    split
    · exact .inr ⟨_, _, _, _, _, rfl, rfl, id, hno⟩
    · exact .inr ⟨_, _, _, _, _, rfl, rfl, id, hno⟩
    · exact .inr ⟨_, _, _, _, _, rfl, rfl, fun _ => rfl, hno⟩
    · exact .inl ⟨rfl, over_ostlsFail .., hcan⟩
    · exact .inr ⟨_, _, _, _, _, rfl, rfl, id, hno⟩
    · exact .inl ⟨rfl, over_ostlsFail .., hcan⟩

/-- Flushing a record in flight fails, sends some of it, or leaves it as it is. -/
theorem Ending.flushRecord {conn : Conn E} (he : Ending conn hs) (env : SendEnv) :
    let r := flushRecord conn env
    (∃ did, r.2 = some did ∧ EndStep C (canSend env.epState = false) conn hs r.1 did) ∨
      r.2 = none ∧ ∃ history nfWantWrite ordConsumed peerClosed,
        r.1 = { conn with history, nfWantWrite, ordConsumed, peerClosed } ∧
          (conn.peerClosed = true → peerClosed = true) := by
  unfold MacTLS.flushRecord
  split_ifs with hfly
  · have hsend := ostlsSendRaw_frame conn
      (slice conn.t13SendRec conn.t13SendOff (conn.t13SendLen - conn.t13SendOff)) env
    generalize ostlsSendRaw conn
      (slice conn.t13SendRec conn.t13SendOff (conn.t13SendLen - conn.t13SendOff)) env = r at hsend ⊢
    obtain ⟨conn', sent⟩ := r
    obtain ⟨hnone, hover, hcan⟩ | ⟨n, history, want, ord, peer, hsome, hconn, hpeer, hn⟩ := hsend
    · dsimp only at hnone
      subst hnone
      refine .inl ⟨_, rfl, .ended hover (by simp) fun h => ?_⟩
      rw [hcan] at h
      cases h
    · dsimp only at hsome hconn
      subst hsome hconn
      dsimp only
      by_cases h0 : n = 0
      · subst h0
        have hleft : ¬conn.t13SendOff + 0 ≥ conn.t13SendLen := by omega
        rw [if_neg hleft]
        exact .inr ⟨if_neg (Nat.lt_irrefl 0), history, want, ord, peer, rfl, hpeer⟩
      · refine .inl ⟨.progress, if_pos (Nat.pos_of_ne_zero h0), ?_⟩
        split_ifs with hall
        · obtain ⟨bestEvent, hbump⟩ := eventBump_frame { conn with
            history := history, nfWantWrite := want, ordConsumed := ord, peerClosed := peer,
            t13SendLen := 0, t13SendOff := 0 } .writable
          rw [hbump]
          refine .moves ⟨⟨he.inUse, he.mode, he.up, hpeer he.peer, he.hs13, he.flushed⟩,
            .rfl, rfl⟩ ?_
          simp only [Conn.weight]
          omega
        · refine .moves ⟨⟨he.inUse, he.mode, he.up, hpeer he.peer, he.hs13, he.flushed⟩,
            .rfl, rfl⟩ ?_
          simp only [Conn.weight]
          omega
  · exact .inr ⟨rfl, conn.history, conn.nfWantWrite, conn.ordConsumed, conn.peerClosed, rfl, id⟩

/-! ### Turns -/

theorem Ending.pumpTls13Drive (he : Ending p.conn hs) (env : PumpEnv) {still : Prop} :
    EndStep C still p.conn hs (pumpTls13Drive C p env).1.conn (pumpTls13Drive C p env).2 := by
  unfold MacTLS.pumpTls13Drive
  rw [he.hs13]
  dsimp only
  rw [if_neg fun h => he.not_handshaking h.1, if_pos he.up]
  exact he.pumpTls13Open env

/-- What was changed by a flush does not matter. -/
theorem EndStep.frame {still : Prop} {conn conn' : Conn E} {did : Did} {history : History}
    {want ord peer : Bool} (h : EndStep C still { conn with
      history := history, nfWantWrite := want, ordConsumed := ord, peerClosed := peer } hs conn' did) :
    EndStep C still conn hs conn' did := by
  cases h with
  | ended hover hdid hcut => exact .ended hover hdid hcut
  | moves hg hw => exact .moves ⟨hg.ending, hg.cutShort, hg.due⟩ hw
  | rests hg hw hwhy => exact .rests ⟨hg.ending, hg.cutShort, hg.due⟩ hw hwhy

theorem Ending.pumpTls13Step (he : Ending p.conn hs) (env : PumpEnv) :
    EndStep C (canSend env.sendApp.epState = false) p.conn hs (pumpTls13Step C p env).1.conn
      (pumpTls13Step C p env).2 := by
  have hnone : flushHandshake p.conn hs env.sendHs = (p.conn, none) :=
    if_neg (Nat.not_lt.2 he.flushed)
  unfold MacTLS.pumpTls13Step
  rw [he.hs13]
  dsimp only
  rw [hnone]
  dsimp only
  have hflush := he.flushRecord (C := C) env.sendApp
  generalize MacTLS.flushRecord p.conn env.sendApp = r at hflush ⊢
  obtain ⟨conn', did⟩ := r
  obtain ⟨did', hdid, hstep⟩ | ⟨hdid, history, want, ord, peer, hconn, hpeer⟩ := hflush
  · dsimp only at hdid
    subst hdid
    exact hstep
  · dsimp only at hdid hconn
    subst hdid hconn
    dsimp only
    have he' : Ending { p.conn with
        history := history, nfWantWrite := want, ordConsumed := ord, peerClosed := peer } hs :=
      ⟨he.inUse, he.mode, he.up, hpeer he.peer, he.hs13, he.flushed⟩
    exact (Ending.pumpTls13Drive (p := { p with conn := _ }) he' env).frame

/-- A turn of the pump: besides what its step does, a disconnect that is due makes it fail. -/
theorem Ending.pumpTurn (he : Ending p.conn hs) (env : PumpEnv) :
    let r := pumpTurn C G p env
    (p.conn.disconnectDue = true → r.1.conn.Over) ∧ ∃ did : Did, r.2 = decide (did = .progress) ∧
      EndStep C (canSend env.sendApp.epState = false ∧ p.conn.disconnectDue = false) p.conn hs
        r.1.conn did := by
  have hst : p.conn.state = .open ∨ p.conn.state = .closing := by
    have hup := he.up
    cases h : p.conn.state <;> rw [h] at hup
    case «open» => exact .inl rfl
    case closing => exact .inr rfl
    all_goals cases hup
  have hlive : ¬(p.conn.state = .failed ∨ p.conn.state = .closed) := by
    obtain h | h := hst <;> rw [h] <;> decide
  unfold MacTLS.pumpTurn
  rw [if_neg hlive]
  dsimp only
  by_cases hdisc : p.conn.nfDisconnect = true ∧ ¬p.conn.discConsumed = true
  · have hpre : pumpHandshakeOrOpenPre p.conn env = _ :=
      (if_neg fun h => he.not_handshaking h.1).trans (if_pos hdisc)
    obtain ⟨bestEvent, hbump⟩ := eventBump_frame (ostlsFail { p.conn with discConsumed := true }
      asyncOtSndFail p.conn.nfLastResult 0) .failed
    have hover : (ostlsFail { p.conn with discConsumed := true } asyncOtSndFail
        p.conn.nfLastResult 0).Over := over_ostlsFail ..
    rw [hpre, if_neg (by simp)]
    dsimp only
    rw [hbump]
    refine ⟨fun _ => hover, .failed, rfl, .ended hover (by simp) fun h => ?_⟩
    simp [Conn.disconnectDue, hdisc] at h
  · have hpre : pumpHandshakeOrOpenPre p.conn env = _ :=
      (if_neg fun h => he.not_handshaking h.1).trans (if_neg hdisc)
    have hdue : p.conn.disconnectDue = false := by
      rw [Conn.disconnectDue]
      simpa using hdisc
    have hstep : pumpStep C G p env = ((MacTLS.pumpTls13Step C p env).1,
        decide ((MacTLS.pumpTls13Step C p env).2 = .progress)) := by
      unfold pumpStep
      rw [if_pos he.mode]
      obtain h | h := hst <;> rw [h]
    rw [hpre, if_pos rfl, hstep]
    refine ⟨fun h => (by rw [hdue] at h; cases h), _, rfl, ?_⟩
    have hend := he.pumpTls13Step (C := C) env
    generalize MacTLS.pumpTls13Step C p env = r at hend ⊢
    obtain ⟨q, did⟩ := r
    cases hend with
    | ended hover hdid hcut => exact .ended hover hdid fun h => hcut h.1
    | moves hg hw => exact .moves hg hw
    | rests hg hw hwhy => exact .rests hg hw hwhy

/-! ### Pumps -/

theorem Goes.refl {conn : Conn E} (he : Ending conn hs) : Goes C conn hs conn hs := ⟨he, .rfl, rfl⟩

theorem Goes.trans {conn conn₁ conn₂ : Conn E} {hs₁ hs₂ : HsCtx} (h : Goes C conn hs conn₁ hs₁)
    (h' : Goes C conn₁ hs₁ conn₂ hs₂) : Goes C conn hs conn₂ hs₂ :=
  ⟨h'.ending, h'.cutShort.trans h.cutShort, h'.due.trans h.due⟩

theorem pumpLoop_of_over (hover : p.conn.Over) (envs : List PumpEnv) :
    pumpLoop C G p envs = p := by
  cases envs with
  | nil => rfl
  | cons env envs =>
    have hturn : pumpTurn C G p env = (p, false) := if_pos (Or.symm hover)
    unfold pumpLoop
    dsimp only
    rw [hturn]
    rfl

/-- What a pump does: with an empty ring it gets on, unless the received bytes are cut short. -/
structure Pumped (C : Crypto) (conn : Conn E) (hs : HsCtx) (turned : Prop) (conn' : Conn E)
    (hs' : HsCtx) : Prop where
  goes : Goes C conn hs conn' hs'
  weight : conn'.weight ≤ conn.weight
  due : turned → conn.disconnectDue = false
  progress : turned → ¬CutShort C hs.readCtx conn.recvBuf → conn.readBuf.avail < ostlsReadBufSize →
    conn'.weight < conn.weight

theorem Ending.pumpLoop (he : Ending p.conn hs) (envs : List PumpEnv) :
    let q := pumpLoop C G p envs
    (q.conn.Over ∧ ((∀ env ∈ envs, canSend env.sendApp.epState = false) →
        p.conn.disconnectDue = false → ¬CutShort C hs.readCtx p.conn.recvBuf)) ∨
      ∃ hs', Pumped C p.conn hs (envs ≠ []) q.conn hs' := by
  induction envs generalizing p hs with
  | nil =>
    exact .inr ⟨hs, .refl he, Nat.le_refl _, fun h => absurd rfl h, fun h => absurd rfl h⟩
  | cons env envs ih =>
    unfold MacTLS.pumpLoop
    dsimp only
    obtain ⟨hdue, did, hdid, hstep⟩ := he.pumpTurn (C := C) (G := G) env
    generalize MacTLS.pumpTurn C G p env = r at hdue hdid hstep ⊢
    obtain ⟨q, goesOn⟩ := r
    dsimp only at hdue hdid hstep ⊢
    subst hdid
    have hnotDue : ∀ {hs' : HsCtx}, Ending q.conn hs' → p.conn.disconnectDue = false := by
      intro hs' he'
      by_contra h
      have hup := he'.up
      obtain hst | hst := hdue (by simpa using h) <;> rw [hst] at hup <;> cases hup
    cases hstep with
    | ended hover _ hcut =>
      left
      split_ifs
      · rw [pumpLoop_of_over hover]
        exact ⟨hover, fun hstill hnd => hcut ⟨hstill env (.head _), hnd⟩⟩
      · exact ⟨hover, fun hstill hnd => hcut ⟨hstill env (.head _), hnd⟩⟩
    | moves hg hw =>
      rw [if_pos (by simp)]
      obtain ⟨hover, hcut⟩ | ⟨hs', hp⟩ := ih hg.ending
      · exact .inl ⟨hover, fun hstill hnd h => hcut (fun env henv => hstill env (.tail _ henv))
          (hg.due.trans hnd) (hg.cutShort.2 h)⟩
      · exact .inr ⟨hs', hg.trans hp.goes, Nat.le_trans hp.weight (Nat.le_of_lt hw),
          fun _ => hnotDue hg.ending, fun _ _ _ => Nat.lt_of_le_of_lt hp.weight hw⟩
    | rests hg hw hwhy =>
      rw [if_neg (by simp)]
      refine .inr ⟨_, hg, Nat.le_of_eq hw, fun _ => hnotDue hg.ending, fun _ hcut hroom => ?_⟩
      obtain h | ⟨-, hfull⟩ := hwhy
      · exact absurd (.cut h) hcut
      · omega

/-! ### Repeated pumps -/

/-- `OSTLS_Read` of all there is, and `OSTLS_Pump` with `envs.length` as `max_steps`. -/
def drainedPump (C : Crypto) (G : Engine E) (p : Proc E) (envs : List PumpEnv) : Proc E :=
  (ostlsPump C G (p.onConn fun conn => (ostlsRead conn ostlsReadBufSize).2.2) envs).2.2

def drainedPumps (C : Crypto) (G : Engine E) (p : Proc E) (envss : List (List PumpEnv)) : Proc E :=
  envss.foldl (drainedPump C G) p

theorem ostlsPump_of_over (hover : p.conn.Over) (envs : List PumpEnv) :
    (ostlsPump C G p envs).2.2 = p := by
  unfold ostlsPump
  by_cases hdis : p.conn.disposed = true
  · rw [if_pos hdis]
  · rw [if_neg hdis]
    obtain h | h := hover
    · rw [if_neg (by rw [h]; decide), if_pos h]
    · rw [if_pos h]

theorem ostlsPump_of_up (hdis : p.conn.disposed = false) (hup : p.conn.state.isUp = true)
    (envs : List PumpEnv) : (ostlsPump C G p envs).2.2 =
      pumpLoop C G (p.onConn fun conn => { conn with bestEvent := .none }) envs := by
  unfold ostlsPump
  rw [if_neg (by rw [hdis]; decide), if_neg, if_neg]
  · intro h
    rw [h] at hup
    cases hup
  · intro h
    rw [h] at hup
    cases hup

/-- What is over stays so. -/
theorem over_drainedPump (hover : p.conn.Over) (envs : List PumpEnv) :
    (drainedPump C G p envs).conn.Over := by
  have hread : ((ostlsRead p.conn ostlsReadBufSize).2.2).Over := by
    unfold ostlsRead
    dsimp only
    split_ifs <;> exact hover
  unfold drainedPump
  rw [ostlsPump_of_over]
  · exact hread
  · exact hread

theorem over_drainedPumps (hover : p.conn.Over) (envss : List (List PumpEnv)) :
    (drainedPumps C G p envss).conn.Over := by
  induction envss generalizing p with
  | nil => exact hover
  | cons envs envss ih => exact ih (over_drainedPump hover envs)

/-- Reading empties the ring and changes nothing else that matters here. -/
theorem Ending.read {conn : Conn E} (he : Ending conn hs) :
    ∃ readBuf history, readBuf.avail = 0 ∧
      (ostlsRead conn ostlsReadBufSize).2.2 = { conn with readBuf, history } := by
  have havail := conn.readBuf.avail_le
  unfold ostlsRead
  rw [if_neg (by rw [he.inUse]; decide), if_neg fun h => h.1 he.up]
  by_cases hnone : ostlsReadBufSize = 0 ∨ conn.readBuf.avail = 0
  · rw [if_pos hnone]
    exact ⟨conn.readBuf, conn.history, hnone.resolve_left (by decide), rfl⟩
  · rw [if_neg hnone]
    exact ⟨_, _, show conn.readBuf.avail - min conn.readBuf.avail ostlsReadBufSize = 0 by omega, rfl⟩

theorem Ending.drainedPump (he : Ending p.conn hs) (envs : List PumpEnv) :
    let q := drainedPump C G p envs
    (q.conn.Over ∧ ((∀ env ∈ envs, canSend env.sendApp.epState = false) →
        p.conn.disconnectDue = false → ¬CutShort C hs.readCtx p.conn.recvBuf)) ∨
      ∃ hs', Goes C p.conn hs q.conn hs' ∧ (envs ≠ [] → p.conn.disconnectDue = false ∧
        (¬CutShort C hs.readCtx p.conn.recvBuf → q.conn.weight < p.conn.weight)) := by
  obtain ⟨readBuf, history, hempty, hread⟩ := he.read
  have he' : Ending { p.conn with readBuf, history, bestEvent := .none } hs :=
    ⟨he.inUse, he.mode, he.up, he.peer, he.hs13, he.flushed⟩
  have hpump : MacTLS.drainedPump C G p envs =
      MacTLS.pumpLoop C G { p with conn := { p.conn with readBuf, history, bestEvent := .none } }
        envs := by
    have hp : (p.onConn fun conn => (ostlsRead conn ostlsReadBufSize).2.2) =
        { p with conn := { p.conn with readBuf, history } } :=
      congrArg (fun conn => { p with conn }) hread
    unfold MacTLS.drainedPump
    rw [hp]
    exact ostlsPump_of_up (p := { p with conn := { p.conn with readBuf, history } }) he.inUse
      he.up envs
  rw [hpump]
  obtain hover | ⟨hs', hp⟩ := Ending.pumpLoop (C := C) (G := G) (p := { p with conn := _ }) he' envs
  · exact .inl hover
  · refine .inr ⟨hs', ⟨hp.goes.ending, hp.goes.cutShort, hp.goes.due⟩, fun hne => ⟨hp.due hne, ?_⟩⟩
    exact fun hcut => hp.progress hne hcut (by rw [hempty]; decide)

/-- The pumps come to an end, when nothing is cut short. -/
theorem Ending.over_of_not_cutShort (n : ℕ) (he : Ending p.conn hs)
    (hcut : ¬CutShort C hs.readCtx p.conn.recvBuf) (hw : p.conn.weight < n)
    {envss : List (List PumpEnv)} (hlen : n ≤ envss.length) (hne : ∀ envs ∈ envss, envs ≠ []) :
    (drainedPumps C G p envss).conn.Over := by
  induction n generalizing p hs envss with
  | zero => exact absurd hw (Nat.not_lt_zero _)
  | succ n ih =>
    cases envss with
    | nil => exact absurd hlen (Nat.not_succ_le_zero n)
    | cons envs envss =>
      obtain ⟨hover, -⟩ | ⟨hs', hg, hprog⟩ := he.drainedPump (C := C) (G := G) envs
      · exact over_drainedPumps hover envss
      · have hless := (hprog (hne envs (.head _))).2 hcut
        exact ih hg.ending (fun h => hcut (hg.cutShort.1 h)) (by omega)
          (Nat.le_of_succ_le_succ hlen) fun envs henvs => hne envs (.tail _ henvs)

/-- Pumps that can send nothing never come to an end in the middle of a record. -/
theorem Ending.not_over_of_cutShort (he : Ending p.conn hs)
    (hcut : CutShort C hs.readCtx p.conn.recvBuf) (hdue : p.conn.disconnectDue = false)
    {envss : List (List PumpEnv)}
    (hstill : ∀ envs ∈ envss, ∀ env ∈ envs, canSend env.sendApp.epState = false) :
    ¬(drainedPumps C G p envss).conn.Over := by
  induction envss generalizing p hs with
  | nil =>
    have hup := he.up
    rintro (h | h)
    · rw [show p.conn.state = _ from h] at hup
      cases hup
    · rw [show p.conn.state = _ from h] at hup
      cases hup
  | cons envs envss ih =>
    obtain ⟨-, hnot⟩ | ⟨hs', hg, -⟩ := he.drainedPump (C := C) (G := G) envs
    · exact absurd hcut (hnot (hstill envs (.head _)) hdue)
    · exact ih hg.ending (hg.cutShort.2 hcut) (hg.due.trans hdue)
        fun envs henvs => hstill envs (.tail _ henvs)

/-! ### No dead state -/

/-- Nothing staged is left, and nothing is queued or in flight. -/
def Conn.Quiet (conn : Conn E) : Prop :=
  conn.t13PlainLen ≤ conn.t13PlainOff ∧ conn.writeBuf.avail = 0 ∧ conn.t13SendLen ≤ conn.t13SendOff

/-- The received bytes are the beginning of a record of an admissible length. -/
def MidRecord (recv : Bytes) : Prop :=
  5 ≤ recv.length ∧ getU16 recv 3 ≤ hsBufSize ∧ recv.length < 5 + getU16 recv 3

theorem front_eq_cut_iff {ctx : RecordCtx} {recv : Bytes} :
    front C ctx recv = .cut ↔ MidRecord recv := by
  unfold front MidRecord
  dsimp only
  split_ifs with hends hcut
  · simp only [false_iff]
    omega
  · simp only [true_iff]
    omega
  · have hnot : ¬(5 ≤ recv.length ∧ getU16 recv 3 ≤ hsBufSize ∧
        recv.length < 5 + getU16 recv 3) := by omega
    simp only [hnot, iff_false]
    split
    · simp
    · split_ifs <;> simp

instance (conn : Conn E) : Decidable conn.Quiet := inferInstanceAs (Decidable (_ ∧ _))

instance (recv : Bytes) : Decidable (MidRecord recv) := inferInstanceAs (Decidable (_ ∧ _))

/-- A connection with nothing to do is stuck exactly in the middle of a record. -/
theorem Ending.stuck_iff (he : Ending p.conn hs) (hq : p.conn.Quiet) :
    (∃ env, MacTLS.pumpTls13Step C p env = (p, .idle)) ↔ MidRecord p.conn.recvBuf := by
  obtain ⟨hstaged, hqueue, hfly⟩ := hq
  rw [← @front_eq_cut_iff C hs.readCtx]
  constructor
  · rintro ⟨env, h⟩
    have hstep := he.pumpTls13Step (C := C) env
    rw [h] at hstep
    cases hstep with
    | ended _ hdid => exact absurd rfl hdid
    | rests _ _ hwhy => exact hwhy.resolve_right fun h => absurd h.1 (Nat.not_lt.2 hstaged)
  · intro hcut
    obtain ⟨hlong, hle, hshort⟩ := front_eq_cut_iff.1 hcut
    have hconsume : pumpTls13ConsumeRecord C p hs sendEnv.ticks = (p, false) := by
      unfold pumpTls13ConsumeRecord
      dsimp only
      rw [if_neg (by omega), if_neg (by omega), if_pos hshort]
    have hopen : MacTLS.pumpTls13Open C p hs sendEnv = (p, .idle) := by
      unfold MacTLS.pumpTls13Open
      rw [if_neg (by omega), if_neg fun h => by omega, hconsume]
      dsimp only
      rw [if_neg (by decide), he.receiveOrClose hstaged, if_neg (by omega)]
    have hdrive : MacTLS.pumpTls13Drive C p sendEnv = (p, .idle) := by
      unfold MacTLS.pumpTls13Drive
      rw [he.hs13]
      dsimp only
      rw [if_neg fun h => he.not_handshaking h.1, if_pos he.up, hopen]
    refine ⟨sendEnv, ?_⟩
    unfold MacTLS.pumpTls13Step
    rw [he.hs13]
    dsimp only
    rw [show MacTLS.flushHandshake p.conn hs sendEnv.sendHs = (p.conn, none) from
      if_neg (Nat.not_lt.2 he.flushed)]
    dsimp only
    rw [show MacTLS.flushRecord p.conn sendEnv.sendApp = (p.conn, none) from
      if_neg (Nat.not_lt.2 hfly)]
    exact hdrive

theorem ending_of_reach {config : OstlsConfig} {tickets : TicketCache} {sessions : SessCache}
    {log : List ResumeEvent}
    (h : Reach (Proc.step C G) OtLawful (Proc.start G config tickets sessions log) p)
    (hdis : p.conn.disposed = false) (hmode : p.conn.tls13Mode ≠ .off)
    (hup : p.conn.state.isUp = true) (hpeer : p.conn.peerClosed = true) :
    ∃ hs, Ending p.conn hs := by
  have hsends : Sends C p.conn.link := sends_of_reach h fun _ _ => id
  have hl := hsends.lifecycle
  have hopen := (hsends.outbound hdis).open_of_up hmode hup
  obtain ⟨hs, h13⟩ := Option.ne_none_iff_exists'.1 (hl.context hdis hmode)
  exact ⟨hs, hdis, hmode, hup, hpeer, h13, ((hl.opened hopen).2 hs h13).2⟩

/-- **No dead state behind a peer that has closed.**  In every reached state of the TLS 1.3 path that
is open or closing behind such a peer: a connection that has nothing staged, queued or in flight is
stuck exactly when it received the beginning of a record, and repeated pumps that drain the ring end
in `closed` or `failed` exactly when a disconnect is due or the received bytes are not cut short. -/
theorem drained_over_iff {config : OstlsConfig} {tickets : TicketCache} {sessions : SessCache}
    {log : List ResumeEvent}
    (h : Reach (Proc.step C G) OtLawful (Proc.start G config tickets sessions log) p)
    (hdis : p.conn.disposed = false) (hmode : p.conn.tls13Mode ≠ .off)
    (hup : p.conn.state.isUp = true) (hpeer : p.conn.peerClosed = true) :
    ∃ hs, p.conn.hs13 = some hs ∧
      (p.conn.Quiet → ((∃ env, MacTLS.pumpTls13Step C p env = (p, .idle)) ↔
        MidRecord p.conn.recvBuf)) ∧
      ((∃ n, ∀ envss : List (List PumpEnv), n ≤ envss.length → (∀ envs ∈ envss, envs ≠ []) →
          (drainedPumps C G p envss).conn.Over) ↔
        p.conn.disconnectDue = true ∨ ¬CutShort C hs.readCtx p.conn.recvBuf) := by
  obtain ⟨hs, he⟩ := ending_of_reach h hdis hmode hup hpeer
  refine ⟨hs, he.hs13, he.stuck_iff, ?_, ?_⟩
  · rintro ⟨n, hall⟩
    by_contra hnot
    obtain ⟨hdue, hcut⟩ := not_or.1 hnot
    refine he.not_over_of_cutShort (not_not.1 hcut) (by simpa using hdue) ?_
      (hall (List.replicate n [{ sendEnv with sendApp := ⟨.outrel, .flowErr⟩ }]) (by simp) ?_)
    · intro envs henvs env henv
      rw [List.eq_of_mem_replicate henvs, List.mem_singleton] at henv
      rw [henv]
      rfl
    · intro envs henvs
      rw [List.eq_of_mem_replicate henvs]
      simp
  · by_cases hdue : p.conn.disconnectDue = true
    · refine fun _ => ⟨1, fun envss hlen hne => ?_⟩
      cases envss with
      | nil => cases hlen
      | cons envs envss =>
        obtain ⟨hover, -⟩ | ⟨hs', hg, hprog⟩ := he.drainedPump (C := C) (G := G) envs
        · exact over_drainedPumps hover envss
        · rw [(hprog (hne envs (.head _))).1] at hdue
          cases hdue
    · exact fun hor => ⟨p.conn.weight + 1, fun envss hlen hne =>
        he.over_of_not_cutShort _ (hor.resolve_left hdue) (Nat.lt_succ_self _) hlen hne⟩

/-! ### Two runs -/

/-- An open connection receives some bytes, and then the orderly release of its peer. -/
def peerEnds (bytes : Bytes) : List (Proc Unit → Action) :=
  opensTls13 ++ [fun _ => .turn { sendEnv with recv := ⟨.dataxfer, .data bytes⟩ },
    fun _ => .turn { sendEnv with recv := ⟨.dataxfer, .lookErr .ordrel⟩ }]

theorem drained_over_shortHeader :
    ∃ n, ∀ envss : List (List PumpEnv), n ≤ envss.length → (∀ envs ∈ envss, envs ≠ []) →
      (drainedPumps .transparent waitingEngine (play (Proc.step .transparent waitingEngine) freshProc
        (peerEnds [23, 3, 3])) envss).conn.Over := by
  have hreach := reach_script (peerEnds [23, 3, 3]) (by decide +kernel)
  generalize hp : play (Proc.step .transparent waitingEngine) freshProc (peerEnds [23, 3, 3]) = p
    at hreach ⊢
  obtain ⟨hdis, hmode, hup, hpeer, hshort⟩ : p.conn.disposed = false ∧ p.conn.tls13Mode ≠ .off ∧
      p.conn.state.isUp = true ∧ p.conn.peerClosed = true ∧ p.conn.recvBuf.length < 5 := by
    rw [← hp]
    decide +kernel
  obtain ⟨hs, -, -, hover⟩ := drained_over_iff hreach hdis hmode hup hpeer
  exact hover.2 (.inr (not_cutShort_of_ends (front_of_short hshort)))

/-- The peer closes behind the first byte of a record: nothing happens any more. -/
theorem stuck_in_record :
    ∃ p : Proc Unit, Reach (Proc.step .transparent waitingEngine) OtLawful freshProc p ∧
      p.conn.state = .open ∧ p.conn.peerClosed = true ∧ p.conn.Quiet ∧
      (∃ env, pumpTls13Step .transparent p env = (p, .idle)) ∧
      ∀ n, ¬(drainedPumps .transparent waitingEngine p
        (List.replicate n [{ sendEnv with sendApp := ⟨.outrel, .flowErr⟩ }])).conn.Over := by
  have hreach := reach_script (peerEnds [23, 3, 3, 0, 30, 1]) (by decide +kernel)
  generalize hp : play (Proc.step .transparent waitingEngine) freshProc
    (peerEnds [23, 3, 3, 0, 30, 1]) = p at hreach
  obtain ⟨hdis, hmode, hst, hpeer, hquiet, hmid, hdue⟩ : p.conn.disposed = false ∧
      p.conn.tls13Mode ≠ .off ∧ p.conn.state = .open ∧ p.conn.peerClosed = true ∧ p.conn.Quiet ∧
      MidRecord p.conn.recvBuf ∧ p.conn.disconnectDue = false := by
    rw [← hp]
    decide +kernel
  obtain ⟨hs, he⟩ := ending_of_reach hreach hdis hmode (by rw [hst]; rfl) hpeer
  refine ⟨p, hreach, hst, hpeer, hquiet, (he.stuck_iff hquiet).2 hmid,
    fun n => he.not_over_of_cutShort (.cut (front_eq_cut_iff.2 hmid)) hdue ?_⟩
  intro envs henvs env henv
  rw [List.eq_of_mem_replicate henvs, List.mem_singleton] at henv
  rw [henv]
  rfl

end MacTLS
