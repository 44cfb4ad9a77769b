import MacTLS.Async.Channel
import MacTLS.Async.Trust

/-!
# What the application reads

A server that holds the secrets of a finished handshake protects a list of records.  Whatever the
network does to them, as long as it does not forge one, what an open connection has decrypted is the
application data of the first of these records, in order: nothing is replayed, dropped, reordered
or taken from elsewhere.

* `Reads` : what a turn does to the read context and to what was decrypted;
* `reads_pumpTurn` : each turn is one of these;
* `NoForgery` : the network forges no record;
* `receives_exactly` : what was decrypted, and what `OSTLS_Read` returned of it.
-/

namespace MacTLS

open Lib

variable {E : Type} {C : Crypto} {G : Engine E} {conn conn' : Conn E} {p q : Proc E}
  {env : PumpEnv}

/-! ### Records of a peer -/

/-- A record of a peer: its content type, its plaintext, and how many zero bytes pad it. -/
abbrev PeerRecord := (UInt8 × Bytes) × ℕ

/-- The context for the record with this number. -/
def RecordCtx.at (ctx : RecordCtx) (n : ℕ) : RecordCtx := { ctx with seq := n }

@[simp] theorem at_seq (ctx : RecordCtx) (n : ℕ) : (ctx.at n).seq = n := rfl

@[simp] theorem at_iv (ctx : RecordCtx) (n : ℕ) : (ctx.at n).iv = ctx.iv := rfl

@[simp] theorem at_at (ctx : RecordCtx) (n m : ℕ) : (ctx.at n).at m = ctx.at m := rfl

/-- The counter does not wrap before 2^64. -/
theorem next_at {ctx : RecordCtx} {n : ℕ} (h : n + 1 < 18446744073709551616) :
    (ctx.at n).next = ctx.at (n + 1) := by
  rw [RecordCtx.next, RecordCtx.at, RecordCtx.at, Nat.mod_eq_of_lt h]

/-- The application data in a list of records. -/
def contents (rs : List PeerRecord) : List Bytes :=
  (rs.filter fun r => r.1.1 = tls13CtApplicationData).map fun r => r.1.2

theorem contents_concat (rs : List PeerRecord) (r : PeerRecord) :
    contents (rs ++ [r]) = contents rs ++
      if r.1.1 = tls13CtApplicationData then [r.1.2] else [] := by
  unfold contents
  rw [List.filter_append, List.map_append]
  split_ifs with h
  · rw [List.filter_singleton]
    simp [h]
  · rw [List.filter_singleton]
    simp [h]

/-- The record with the number `n` is protected with the context for it. -/
theorem getElem?_peerStream (C : Crypto) {ctx : RecordCtx} {rs : List PeerRecord}
    (hfew : ctx.seq + rs.length ≤ 18446744073709551616) (n : ℕ) :
    (peerStream C ctx rs)[n]? = rs[n]?.map fun r =>
      protect C (ctx.at (ctx.seq + n)) (r.1.2 ++ r.1.1 :: List.replicate r.2 0) := by
  induction rs generalizing ctx n with
  | nil => rfl
  | cons r rs ih =>
    obtain ⟨⟨ct, pt⟩, pad⟩ := r
    rw [List.length_cons] at hfew
    cases n with
    | zero => rfl
    | succ n =>
      -- the counter does not wrap between two records of the list
      by_cases hlast : rs = []
      · subst hlast
        rfl
      · have hpos := List.length_pos_iff.2 hlast
        have hnext : ctx.next = ctx.at (ctx.seq + 1) := @next_at ctx ctx.seq (by omega)
        have hseq : (ctx.at (ctx.seq + 1)).seq + n = ctx.seq + (n + 1) := by
          rw [at_seq]
          omega
        rw [peerStream, List.getElem?_cons_succ, List.getElem?_cons_succ, hnext, ih, hseq]
        · rfl
        · show ctx.seq + 1 + rs.length ≤ _
          omega

/-! ### The read side of a connection -/

/-- The protocol in use, the read context, and what was decrypted. -/
def Conn.reader (conn : Conn E) : T13Mode × Option RecordCtx × List Bytes :=
  (conn.tls13Mode, conn.hs13.map HsCtx.readCtx, conn.history.decrypted)

/-- The application data of a decrypted record. -/
def DecryptOut.data (d : DecryptOut) : List Bytes :=
  match d.ret with
  | none => []
  | some (n, ct) => if ct = tls13CtApplicationData then [d.buf.take n] else []

/-- The read side once a record was decrypted. -/
def Conn.readerAfter (conn : Conn E) (d : DecryptOut) : T13Mode × Option RecordCtx × List Bytes :=
  (conn.tls13Mode, some d.ctx, conn.history.decrypted ++ d.data)

/-- The payload of the record at the front of the received bytes. -/
def frontPayload (recv : Bytes) : Bytes := slice recv 5 (getU16 recv 3)

/-- The pump takes the record at the front when it gets to it. -/
def TakesFront (recv : Bytes) : Prop := HasRecord recv ∧ getU16 recv 3 ≤ hsBufSize

instance (recv : Bytes) : Decidable (TakesFront recv) := inferInstanceAs (Decidable (_ ∧ _))

/-- What a turn does to the read side. -/
inductive Reads (C : Crypto) (conn : Conn E) (env : PumpEnv) : Conn E → Prop
  | same {conn' : Conn E} (h : conn'.reader = conn.reader) : Reads C conn env conn'
  /-- No TLS 1.3 connection is open. -/
  | shut {conn' : Conn E} (h : conn'.tls13Mode ≠ .open) : Reads C conn env conn'
  /-- A record is decrypted. -/
  | took {conn' : Conn E} {ctx : RecordCtx} (hctx : conn.hs13.map HsCtx.readCtx = some ctx)
      (hrec : TakesFront conn.recvBuf)
      (hret : (tls13RecordDecrypt C ctx (frontPayload conn.recvBuf)).ret ≠ none)
      (h : conn'.reader = conn.readerAfter
        (tls13RecordDecrypt C ctx (frontPayload conn.recvBuf))) : Reads C conn env conn'
  /-- The handshake is complete. -/
  | opened {conn' : Conn E} {hs : HsCtx} {o : HsOut} (hshook : Shook C conn env hs o)
      (hdone : o.hs.state = .complete)
      (hview : conn'.tls = { conn.tls with mode := .open, hsLog := conn.logAfter o })
      (h : conn'.reader = (.open, some o.hs.readCtx, conn.history.decrypted)) :
      Reads C conn env conn'

/-- What was sent before does not matter. -/
theorem Reads.after {mid : Conn E} (hflush : Flushes conn mid) (hread : mid.reader = conn.reader)
    (h : Reads C mid env conn') : Reads C conn env conn' := by
  have hmode : mid.tls13Mode = conn.tls13Mode := congrArg Prod.fst hread
  have hctx : mid.hs13.map HsCtx.readCtx = conn.hs13.map HsCtx.readCtx := congrArg (·.2.1) hread
  have hdec : mid.history.decrypted = conn.history.decrypted := congrArg (·.2.2) hread
  cases h with
  | same h => exact .same (h.trans hread)
  | shut h => exact .shut h
  | took hsome hrec hret h =>
    rw [hflush.recvBuf] at hrec hret h
    rw [Conn.readerAfter, hmode, hdec] at h
    exact .took (hctx.symm.trans hsome) hrec hret h
  | @opened _ o hshook hdone hview h =>
    -- bytes of the context may have been sent
    obtain ⟨hst, hmoved⟩ := hflush.keeps.handshaking hshook.state
    obtain ⟨hs₁, n, h13, hmove, hout⟩ := hshook.out
    obtain ⟨hs₀, n₀, h13₀, rfl⟩ := hmoved hs₁ h13
    have hname : mid.serverName = conn.serverName := congrArg TlsView.serverName hflush.keeps.view
    rw [hname, hflush.recvBuf] at hout
    rw [hdec] at h
    have hlog : mid.logAfter o = conn.logAfter o :=
      congrArg (· ++ o.log) (congrArg TlsView.hsLog hflush.keeps.view)
    rw [hflush.keeps.view, hlog] at hview
    exact .opened ⟨hst, hmode.symm.trans hshook.mode, hs₀, n, h13₀, hmove, hout⟩ hdone hview h

theorem reader_eventBump (conn : Conn E) (e : OstlsEvent) :
    (eventBump conn e).reader = conn.reader := by
  unfold eventBump
  split_ifs <;> rfl

theorem reader_ostlsSendRaw (conn : Conn E) (buf : Bytes) (env : SendEnv) :
    (ostlsSendRaw conn buf env).1.reader = conn.reader := by
  unfold ostlsSendRaw
  split_ifs
  · rfl
  · rfl
  · split <;> rfl

theorem reader_flushHandshake {hs : HsCtx} (h13 : conn.hs13 = some hs) (env : SendEnv) :
    (flushHandshake conn hs env).1.reader = conn.reader := by
  unfold flushHandshake
  split_ifs
  · have h := reader_ostlsSendRaw conn (slice hs.msgBuf hs.msgOffset (hs.msgLen - hs.msgOffset)) env
    generalize ostlsSendRaw conn (slice hs.msgBuf hs.msgOffset (hs.msgLen - hs.msgOffset)) env = r
      at h ⊢
    obtain ⟨conn', sent⟩ := r
    have hmap : conn'.hs13.map HsCtx.readCtx = some hs.readCtx := by
      have hsame : conn'.hs13.map HsCtx.readCtx = conn.hs13.map HsCtx.readCtx :=
        congrArg (·.2.1) h
      rw [hsame, h13]
      rfl
    cases sent with
    | none => exact h
    | some n =>
      rw [← h, Conn.reader, Conn.reader, hmap]
      dsimp only
      split_ifs <;> rfl
  · rfl

theorem reader_flushRecord (conn : Conn E) (env : SendEnv) :
    (flushRecord conn env).1.reader = conn.reader := by
  unfold flushRecord
  split_ifs
  · have h := reader_ostlsSendRaw conn
      (slice conn.t13SendRec conn.t13SendOff (conn.t13SendLen - conn.t13SendOff)) env
    generalize ostlsSendRaw conn
      (slice conn.t13SendRec conn.t13SendOff (conn.t13SendLen - conn.t13SendOff)) env = r at h ⊢
    obtain ⟨conn', sent⟩ := r
    rw [← show conn'.reader = conn.reader from h]
    cases sent with
    | none => rfl
    | some n =>
      dsimp only
      split_ifs
      · exact reader_eventBump ..
      · rfl
  · rfl

theorem reader_otRcvNothing (conn : Conn E) (r : RcvResult) :
    (otRcvNothing conn r).1.reader = conn.reader := by
  unfold otRcvNothing
  split
  · rfl
  · split_ifs <;> rfl
  all_goals rfl

theorem reader_pumpOtRecvTls13 (conn : Conn E) (env : RecvEnv) :
    (pumpOtRecvTls13 conn env).1.reader = conn.reader := by
  unfold pumpOtRecvTls13
  split_ifs
  · rfl
  · rfl
  · split
    · rfl
    · exact reader_otRcvNothing conn _

theorem reader_receiveOrClose (conn : Conn E) (env : RecvEnv) :
    (receiveOrClose conn env).1.reader = conn.reader := by
  have hrecv : (if conn.peerClosed then (conn, .idle) else pumpOtRecvTls13 conn env).1.reader =
      conn.reader := by
    split_ifs
    · rfl
    · exact reader_pumpOtRecvTls13 conn env
  unfold receiveOrClose orElse
  generalize (if conn.peerClosed then (conn, .idle) else pumpOtRecvTls13 conn env) = r at hrecv ⊢
  split_ifs
  · dsimp only
    split_ifs
    · exact (reader_eventBump ..).trans hrecv
    · exact hrecv
  · exact hrecv

theorem reader_pumpTls13DeliverPlain (conn : Conn E) (hs : HsCtx) :
    (pumpTls13DeliverPlain conn hs).1.reader = conn.reader := by
  unfold pumpTls13DeliverPlain
  dsimp only
  split_ifs
  · rfl
  · rfl
  · exact reader_eventBump ..

theorem reader_recordAlert (conn : Conn E) (hs : HsCtx) (plen : ℕ) :
    (recordAlert conn hs plen).reader = conn.reader := by
  unfold recordAlert
  dsimp only
  split_ifs
  · exact reader_eventBump ..
  · rfl
  · rfl
  · rfl

/-! ### The record at the front -/

theorem take_blit_of_le {b src : Bytes} {n : ℕ} (h : n ≤ src.length) :
    (blit b 0 src).take n = src.take n := by
  have hall : ((blit b 0 src).take src.length).take n = src.take n := by rw [take_blit_zero]
  rwa [List.take_take, Nat.min_eq_left h] at hall

/-- The plaintext of an accepted record is within the output buffer. -/
theorem tls13RecordDecrypt_fits {ctx : RecordCtx} {c : Bytes} {n : ℕ} {ct : UInt8}
    (h : (tls13RecordDecrypt C ctx c).ret = some (n, ct)) :
    n ≤ (tls13RecordDecrypt C ctx c).buf.length := by
  have hle := tls13RecordDecrypt_len_le h
  have hlen := @length_tls13RecordDecrypt_buf C ctx c (by omega)
  omega

theorem reads_pumpTls13ConsumeRecord {hs : HsCtx} (h13 : p.conn.hs13 = some hs) (now : ℕ) :
    Reads C p.conn env (pumpTls13ConsumeRecord C p hs now).1.conn := by
  have hctx : p.conn.hs13.map HsCtx.readCtx = some hs.readCtx := by rw [h13]; rfl
  rw [pumpTls13ConsumeRecord_eq]
  split_ifs with hshort hlong hcut
  · exact .same rfl
  · exact .same rfl
  · exact .same rfl
  · have hrec : TakesFront p.conn.recvBuf :=
      ⟨⟨Nat.le_of_not_lt hshort, Nat.le_of_not_lt hcut⟩, Nat.le_of_not_lt hlong⟩
    have hnone := @tls13RecordDecrypt_ctx_of_none C hs.readCtx (frontPayload p.conn.recvBuf)
    have hfits := @tls13RecordDecrypt_fits C hs.readCtx (frontPayload p.conn.recvBuf)
    have hslice : slice p.conn.recvBuf 5 (getU16 p.conn.recvBuf 3) = frontPayload p.conn.recvBuf :=
      rfl
    rw [hslice]
    generalize hd : tls13RecordDecrypt C hs.readCtx (frontPayload p.conn.recvBuf) = d at hnone hfits
    have htook : ∀ {conn' : Conn E}, d.ret ≠ none → conn'.reader = p.conn.readerAfter d →
        Reads C p.conn env conn' := fun hret h => by
      rw [← hd] at hret h
      exact .took hctx hrec hret h
    unfold recordOpened
    dsimp only
    cases hret : d.ret with
    | none =>
      -- a record that does not open leaves the context as it was
      have hsame := congrArg (fun ctx => (p.conn.tls13Mode, some ctx, p.conn.history.decrypted))
        (hnone hret)
      rw [← hctx] at hsame
      exact .same hsame
    | some r =>
      obtain ⟨plen, inner⟩ := r
      have htook := fun conn' => @htook conn' (by rw [hret]; exact Option.some_ne_none _)
      have hdata : d.data = if inner = tls13CtApplicationData then [d.buf.take plen] else [] := by
        unfold DecryptOut.data
        rw [hret]
      unfold Conn.readerAfter at htook
      dsimp only
      split_ifs with happ halert hhs
      · rw [hdata, if_pos happ, ← take_blit_of_le (b := hs.plainBuf) (hfits hret)] at htook
        exact htook _ (reader_pumpTls13DeliverPlain _ _)
      all_goals
        rw [hdata, if_neg happ, List.append_nil] at htook
      · exact htook _ (reader_recordAlert _ _ _)
      · refine htook _ ?_
        obtain ⟨ticket, ticketValid, error, hpost⟩ := recordPostHandshake_frame C
          (p.onConn fun conn => { conn with
            hs13 := some { hs with readCtx := d.ctx, plainBuf := blit hs.plainBuf 0 d.buf }
            recvBuf := p.conn.recvBuf.drop (5 + getU16 p.conn.recvBuf 3) })
          { hs with readCtx := d.ctx, plainBuf := blit hs.plainBuf 0 d.buf } plen now
        rw [hpost]
        rfl
      · exact htook _ rfl

/-! ### Turns -/

/-- A step of the handshake opens the connection, or there is none open. -/
theorem reads_pumpTls13Handshake {hs : HsCtx} (h13 : p.conn.hs13 = some hs)
    (hst : p.conn.state = .handshaking) (hmode : p.conn.tls13Mode = .trying) :
    Reads C p.conn env (pumpTls13Handshake C p hs env).1.conn := by
  have hshook : Shook C p.conn env hs
      (tls13HandshakeStep C p.conn.serverName env.rnd hs p.conn.recvBuf) :=
    ⟨hst, hmode, hs, hs.msgOffset, h13, rfl, rfl⟩
  unfold pumpTls13Handshake
  dsimp only
  generalize tls13HandshakeStep C p.conn.serverName env.rnd hs p.conn.recvBuf = o at hshook
  have hno : T13Mode.trying ≠ .open := by decide
  -- the connection after the step
  generalize hmid : (p.onConn fun conn => { conn with
    hs13 := some o.hs
    recvBuf := o.recv
    history := { conn.history with
      hsLog := conn.history.hsLog ++ o.log
      hsRecords := conn.history.hsRecords ++ queuedRecord o } }) = mid
  have hread : mid.conn.reader = (.trying, some o.hs.readCtx, p.conn.history.decrypted) := by
    rw [← hmid, ← hmode]
    rfl
  have hmode' : mid.conn.tls13Mode = .trying := congrArg Prod.fst hread
  have hst' : mid.conn.state = .handshaking := by
    rw [← hmid]
    exact hst
  by_cases hdone : o.hs.state = .complete ∧ o.hs.msgOffset ≥ o.hs.msgLen
  · rw [if_pos hdone]
    have hview : mid.conn.tls = { p.conn.tls with hsLog := p.conn.logAfter o } := by
      rw [← hmid]
      rfl
    refine .opened hshook hdone.1 ?_ ?_
    · refine (eventBump_same ..).1.trans ?_
      exact congrArg (fun view => { view with mode := T13Mode.open }) hview
    have hdec : mid.conn.history.decrypted = p.conn.history.decrypted := congrArg (·.2.2) hread
    have h13' : mid.conn.hs13.map HsCtx.readCtx = some o.hs.readCtx := congrArg (·.2.1) hread
    rw [← hdec, ← h13']
    exact reader_eventBump ..
  · rw [if_neg hdone]
    cases o.res with
    | wantRead =>
      have hrecv : (pumpOtRecvTls13 mid.conn env.recv).1.tls13Mode = mid.conn.tls13Mode :=
        congrArg Prod.fst (reader_pumpOtRecvTls13 mid.conn env.recv)
      exact .shut (by rw [hrecv, hmode']; exact hno)
    | wantWrite | ok => exact .shut (hmode' ▸ hno)
    | fallback12 =>
      have hoff : (ostlsFallbackToTls12 mid.conn env).1.tls13Mode = .off :=
        congrArg TlsView.mode (ostlsFallbackToTls12_view hst' env).1
      have hne : (ostlsFallbackToTls12 mid.conn env).1.tls13Mode ≠ .open := by
        rw [hoff]
        decide
      refine .shut ?_
      dsimp only
      by_cases hfailed : (ostlsFallbackToTls12 mid.conn env).2 = .failed
      · rw [if_pos hfailed]
        exact hne
      · rw [if_neg hfailed]
        exact hne
    | error => exact .shut (hmode' ▸ hno)

theorem reads_pumpTls13Open {hs : HsCtx} (h13 : p.conn.hs13 = some hs) :
    Reads C p.conn env (pumpTls13Open C p hs env).1.conn := by
  unfold pumpTls13Open
  dsimp only
  split_ifs
  · exact .same (reader_pumpTls13DeliverPlain _ _)
  · refine .same ?_
    unfold pumpTls13BuildSend Conn.reader
    dsimp only
    split_ifs
    · rfl
    · rfl
    · rw [h13]
      rfl
  · exact reads_pumpTls13ConsumeRecord h13 _
  · exact .same (reader_receiveOrClose _ _)

theorem reads_pumpTls13Step : Reads C p.conn env (pumpTls13Step C p env).1.conn := by
  unfold pumpTls13Step
  split
  · exact .same rfl
  · rename_i hs h13
    have hflush := flushes_flushHandshake h13 env.sendHs
    have hread := reader_flushHandshake h13 env.sendHs
    split <;> rename_i conn₁ h1 <;> rw [h1] at hflush hread
    · exact .same hread
    · have hflush₂ := hflush.trans (flushes_flushRecord conn₁ env.sendApp)
      have hread₂ := (reader_flushRecord conn₁ env.sendApp).trans hread
      split <;> rename_i conn₂ h2 <;> rw [h2] at hflush₂ hread₂
      · exact .same hread₂
      · refine .after hflush₂ hread₂ ?_
        unfold pumpTls13Drive
        dsimp only
        split
        · exact .same rfl
        · rename_i hs₂ h13₂
          split_ifs with hhs
          · exact reads_pumpTls13Handshake (p := { p with conn := conn₂ }) h13₂ hhs.1 hhs.2
          · exact reads_pumpTls13Open (p := { p with conn := conn₂ }) h13₂
          · exact .same rfl

/-- A turn of the pump, on a connection that uses no TLS 1.3 before it connects. -/
theorem reads_pumpTurn (hearly : p.conn.state = .connecting → p.conn.tls13Mode = .off) :
    Reads C p.conn env (pumpTurn C G p env).1.conn := by
  have hresumes := resumes_pumpTurn (C := C) (G := G) p env
  have hturn := turn_pumpTurn (C := C) (G := G) p env
  generalize (pumpTurn C G p env).1 = q at hturn hresumes ⊢
  -- without TLS 1.3 only a handshake opens it
  have hoff : p.conn.tls13Mode = .off → Reads C p.conn env q.conn := fun hmode => by
    have hno : p.conn.tls.mode ≠ .open := by
      rw [show p.conn.tls.mode = .off from hmode]
      decide
    have hshut : q.conn.tls.mode ≠ .open := by
      cases hresumes with
      | keeps h | stores13 _ _ h => exact h.view ▸ hno
      | tries13 _ _ _ hview | offers13 _ _ _ hview =>
        rw [hview]
        exact fun h => by cases h
      | tries12 _ _ _ hview | offers12 _ _ _ hview | fallsBack _ hview =>
        rw [hview]
        exact fun h => by cases h
      | shakes h | opens13 h => cases hmode.symm.trans h.mode
      | opens12 _ _ hview => exact hview ▸ hno
    exact .shut hshut
  cases hturn with
  | ended => exact .same rfl
  | expired => exact .same (reader_eventBump ..)
  | disconnected => exact .same (reader_eventBump ..)
  | steps =>
    by_cases hmode : p.conn.tls13Mode = .off
    · exact hoff hmode
    · unfold pumpStep
      rw [if_pos hmode]
      split <;> rename_i hst
      · exact absurd (hearly hst) hmode
      · exact reads_pumpTls13Step
      · exact reads_pumpTls13Step
      · exact reads_pumpTls13Step
      · exact .same rfl
      · exact .same rfl
      · exact .same rfl

/-- No other call reads anything, and only `OSTLS_Dispose` drops the context. -/
theorem reader_step {a : Action} (hturn : ∀ env, a ≠ .turn env) (hdispose : a ≠ .dispose) :
    (p.step C G a).conn.reader = p.conn.reader := by
  cases a with
  | start env =>
    show (ostlsStart p.conn env).2.reader = _
    unfold ostlsStart
    split_ifs <;> rfl
  | enter =>
    unfold Proc.step
    split_ifs <;> rfl
  | turn env => exact absurd rfl (hturn env)
  | write buf =>
    show (ostlsWrite p.conn buf).2.2.reader = _
    unfold ostlsWrite
    dsimp only
    split_ifs <;> rfl
  | read cap =>
    show (ostlsRead p.conn cap).2.2.reader = _
    unfold ostlsRead
    dsimp only
    split_ifs <;> rfl
  | close =>
    show (ostlsClose G p.conn).reader = _
    unfold ostlsClose closeUp releaseTls13
    dsimp only
    split_ifs
    · rfl
    · rfl
    all_goals split <;> rfl
  | dispose => exact absurd rfl hdispose
  | notify event result => cases event <;> rfl
  | others => rfl

/-! ### What is received -/

/-- The network forges no record: one that opens is the record that the peer protected under the
same nonce. -/
def NoForgery (C : Crypto) (rs : List PeerRecord) (p : Proc E) : Action → Prop
  | .turn _ => p.conn.disposed = false → p.conn.tls13Mode = .open →
      ∀ ctx ∈ p.conn.hs13.map HsCtx.readCtx, TakesFront p.conn.recvBuf →
      (tls13RecordDecrypt C ctx (frontPayload p.conn.recvBuf)).ret ≠ none →
      ∃ m < rs.length, (ctx.at m).nonce = ctx.nonce ∧
        (peerStream C (ctx.at 0) rs)[m]? = some (frontPayload p.conn.recvBuf)
  | _ => True

instance (C : Crypto) (rs : List PeerRecord) (p : Proc E) (a : Action) :
    Decidable (NoForgery C rs p a) :=
  match a with
  | .turn _ => inferInstanceAs (Decidable (_ → _ → ∀ ctx ∈ p.conn.hs13.map HsCtx.readCtx, _ → _ →
      ∃ m < rs.length, _ ∧ _))
  | .start .. | .enter | .write .. | .read .. | .close | .dispose | .notify .. | .others .. =>
    isTrue trivial

/-- The read context at the end of a handshake with this log, as `KeysFor` is the write context. -/
def ReadKeysFor (C : Crypto) (hostname : Bytes) (log : List HsEvent) (ctx : RecordCtx) : Prop :=
  ∃ hs, AgreedKeys C hostname ⟨hs, log⟩ ∧ ctx = hs.readCtx

section

variable {hostname : Bytes} {log : List HsEvent} {ctx : RecordCtx}

theorem ReadKeysFor.seq (h : ReadKeysFor C hostname log ctx) : ctx.seq = 0 := by
  obtain ⟨hs, ⟨s₀, i, msg, dhe, before, -, happ, -⟩, rfl⟩ := h
  rw [happ.read]
  rfl

theorem ReadKeysFor.at_zero (h : ReadKeysFor C hostname log ctx) : ctx.at 0 = ctx := by
  have hseq := h.seq
  obtain ⟨key, iv, seq, suite⟩ := ctx
  subst hseq
  rfl

theorem ReadKeysFor.iv (h : ReadKeysFor C hostname log ctx) : ctx.iv.length = 12 := by
  obtain ⟨hs, ⟨s₀, i, msg, dhe, before, -, happ, -⟩, rfl⟩ := h
  rw [happ.read]
  exact C.sha256Schedule.length_expandLabel (show 12 ≤ 32 by decide)

end

/-- An open connection has decrypted the first records of the peer. -/
def Received (C : Crypto) (rs : List PeerRecord) (conn : Conn E) : Prop :=
  conn.tls13Mode = .open → ∃ base n,
    ReadKeysFor C conn.serverName conn.history.hsLog base ∧ n ≤ rs.length ∧
    conn.reader = (.open, some (base.at n), contents (rs.take n))

/-- The record that is decrypted is the next one of the peer. -/
theorem Received.took {rs : List PeerRecord} {ctx : RecordCtx} {payload : Bytes} {base : RecordCtx}
    {n m : ℕ} (hiv : base.iv.length = 12) (hn : n ≤ rs.length) (hm : m < rs.length)
    (hfew : rs.length < 18446744073709551616) (hct : ∀ r ∈ rs, r.1.1 ≠ 0)
    (hctx : ctx = base.at n) (hnonce : (ctx.at m).nonce = ctx.nonce)
    (hpayload : (peerStream C (ctx.at 0) rs)[m]? = some payload) :
    n + 1 ≤ rs.length ∧ (tls13RecordDecrypt C ctx payload).ctx = base.at (n + 1) ∧
      contents (rs.take n) ++ (tls13RecordDecrypt C ctx payload).data =
        contents (rs.take (n + 1)) := by
  subst hctx
  -- nonces of different records differ
  obtain rfl : m = n := computeNonce_injective hiv (by omega) (by omega) hnonce
  rw [at_at, getElem?_peerStream C (by rw [at_seq]; omega), List.getElem?_eq_getElem hm, at_seq,
    at_at, Nat.zero_add] at hpayload
  obtain rfl := Option.some.inj hpayload
  obtain ⟨hnext, hret, hbuf⟩ := tls13RecordDecrypt_protect C (base.at m) rs[m].1.2
    (hct _ (List.getElem_mem hm)) rs[m].2
  refine ⟨hm, hnext.trans ?_, ?_⟩
  · exact next_at (by omega)
  · rw [← List.take_concat_get' rs m hm, contents_concat]
    unfold DecryptOut.data
    rw [hret]
    dsimp only
    rw [hbuf]

/-- An open connection keeps its name and the log of its handshake. -/
theorem Resumes.keeps_open (h : Resumes C G p env q) (hopen : p.conn.tls13Mode = .open)
    (hearly : p.conn.state = .connecting → p.conn.tls13Mode = .off) :
    q.conn.serverName = p.conn.serverName ∧ q.conn.history.hsLog = p.conn.history.hsLog := by
  have hkeeps : ∀ {conn' : Conn E}, Keeps p.conn conn' →
      conn'.serverName = p.conn.serverName ∧ conn'.history.hsLog = p.conn.history.hsLog :=
    fun hk => ⟨congrArg TlsView.serverName hk.view, congrArg TlsView.hsLog hk.view⟩
  have hnot : ∀ {mode : T13Mode}, mode ≠ .open → p.conn.tls13Mode = mode → False :=
    fun hne hmode => hne (hmode.symm.trans hopen)
  cases h with
  | keeps h | stores13 _ _ h => exact hkeeps h
  | tries13 hset | offers13 hset | tries12 hset | offers12 hset =>
    exact (hnot (by decide) (hearly hset.state)).elim
  | shakes h | opens13 h | fallsBack h => exact (hnot (by decide) h.mode).elim
  | opens12 _ hmode => exact (hnot (by decide) hmode).elim

/-- So does one on which something else is called. -/
theorem names_step {a : Action} (hturn : ∀ env, a ≠ .turn env) :
    (p.step C G a).conn.serverName = p.conn.serverName ∧
      (p.step C G a).conn.history.hsLog = p.conn.history.hsLog := by
  by_cases hothers : ∃ tickets sessions log, a = .others tickets sessions log
  · obtain ⟨tickets, sessions, log, rfl⟩ := hothers
    exact ⟨rfl, rfl⟩
  · obtain ⟨conn', hkeep, hstep⟩ := keeps_step (p := p) (C := C) (G := G) hturn
      fun tickets sessions log h => hothers ⟨tickets, sessions, log, h⟩
    rw [hstep]
    exact ⟨congrArg TlsView.serverName hkeep.view, congrArg TlsView.hsLog hkeep.view⟩

/-- A turn decrypts the next record of the peer, or none. -/
theorem received_turn {rs : List PeerRecord} (hfew : rs.length < 18446744073709551616)
    (hct : ∀ r ∈ rs, r.1.1 ≠ 0) (hlife : Lifecycle p.conn.link) (hsealed : Sealed C p.conn.link)
    (hnone : NoEarlyData p.conn.link) (hdis : p.conn.disposed = false)
    (hforge : NoForgery C rs p (.turn env)) (h : Received C rs p.conn) :
    Received C rs (pumpTurn C G p env).1.conn := by
  intro hopen'
  have hearly : p.conn.state = .connecting → p.conn.tls13Mode = .off := fun hst =>
    hlife.early (.inr hst)
  have hreads : Reads C p.conn env (pumpTurn C G p env).1.conn := reads_pumpTurn hearly
  have hlog : p.conn.tls13Mode = .open →
      (pumpTurn C G p env).1.conn.serverName = p.conn.serverName ∧
        (pumpTurn C G p env).1.conn.history.hsLog = p.conn.history.hsLog :=
    fun hopen => (resumes_pumpTurn (C := C) (G := G) p env).keeps_open hopen hearly
  generalize (pumpTurn C G p env).1 = q at hreads hlog hopen' ⊢
  cases hreads with
  | same hsame =>
    have hopen : p.conn.tls13Mode = .open := (congrArg Prod.fst hsame).symm.trans hopen'
    obtain ⟨base, n, hbase, hn, hread⟩ := h hopen
    obtain ⟨hname, hlog⟩ := hlog hopen
    exact ⟨base, n, by rw [hname, hlog]; exact hbase, hn, hsame.trans hread⟩
  | shut hno => exact absurd hopen' hno
  | @took ctx hctx hrec hret hafter =>
    have hopen : p.conn.tls13Mode = .open := (congrArg Prod.fst hafter).symm.trans hopen'
    obtain ⟨base, n, hbase, hn, hread⟩ := h hopen
    have hdec : p.conn.history.decrypted = contents (rs.take n) := congrArg (·.2.2) hread
    have hat : ctx = base.at n := Option.some.inj (hctx.symm.trans (congrArg (·.2.1) hread))
    obtain ⟨m, hm, hnonce, hpayload⟩ := hforge hdis hopen ctx hctx hrec hret
    obtain ⟨hn', hnext, hdata⟩ := Received.took hbase.iv hn hm hfew hct hat hnonce hpayload
    obtain ⟨hname, hlog⟩ := hlog hopen
    refine ⟨base, n + 1, by rw [hname, hlog]; exact hbase, hn', hafter.trans ?_⟩
    rw [Conn.readerAfter, hopen, hdec, hnext, hdata]
  | @opened hs o hshook hdone hview hafter =>
    -- a finished handshake leaves the keys of the schedule, and nothing was decrypted before it
    obtain ⟨hs₀, n, h13, rfl, rfl⟩ := hshook.out
    have hrun : HandshakeRun C p.conn.serverName
        ⟨{ hs₀ with msgOffset := n }, p.conn.history.hsLog⟩ :=
      (hsealed.trying hshook.state hshook.mode hs₀ h13).sent n
    obtain ⟨k, hkeys⟩ := hrun.completes hdone
    have hbase : ReadKeysFor C q.conn.serverName q.conn.history.hsLog
        (tls13HandshakeStep C p.conn.serverName env.rnd { hs₀ with msgOffset := n }
          p.conn.recvBuf).hs.readCtx := by
      rw [show q.conn.serverName = p.conn.serverName from congrArg TlsView.serverName hview,
        show q.conn.history.hsLog = p.conn.logAfter _ from congrArg TlsView.hsLog hview]
      exact ⟨_, hkeys, rfl⟩
    have hempty : p.conn.history.decrypted = [] := by
      refine (hnone ?_).2.1
      rw [show p.conn.link.mode = .trying from hshook.mode]
      decide
    refine ⟨_, 0, hbase, Nat.zero_le _, hafter.trans ?_⟩
    rw [hempty, hbase.at_zero]
    rfl

theorem received_of_reach {rs : List PeerRecord} (hfew : rs.length < 18446744073709551616)
    (hct : ∀ r ∈ rs, r.1.1 ≠ 0) {config : OstlsConfig} {tickets : TicketCache}
    {sessions : SessCache} {log : List ResumeEvent}
    (h : Reach (Proc.step C G) (fun p a => OtLawful p a ∧ NoForgery C rs p a)
      (Proc.start G config tickets sessions log) p) :
    p.conn.disposed = false → Received C rs p.conn := by
  induction h with
  | refl => exact fun _ hopen => by cases hopen
  | @tail p a hreach hok ih =>
    intro hdis'
    have hlife : Lifecycle p.conn.link := Lifecycle.reach hreach (lifecycle_init G config)
    have hsealed : Sealed C p.conn.link := sealed_of_reach hreach fun _ _ hok => hok.1
    have hnone : NoEarlyData p.conn.link := noEarlyData_of_reach hreach fun _ _ hok => hok.1
    have hdis : p.conn.disposed = false := by
      by_contra hno
      have hgone : p.conn.disposed = true := Bool.eq_true_of_not_eq_false hno
      by_cases hnotify : ∃ event result, a = .notify event result
      · obtain ⟨event, result, rfl⟩ := hnotify
        cases event <;> exact hno hdis'
      · have hsame := link_step_of_disposed (C := C) (G := G) (a := a) hgone
          fun event result h => hnotify ⟨_, _, h⟩
        exact hno ((congrArg Link.disposed hsame).symm.trans hdis')
    have hrec := ih hdis
    by_cases hturn : ∃ env, a = .turn env
    · obtain ⟨env, rfl⟩ := hturn
      have hstep : p.step C G (.turn env) = (pumpTurn C G p env).1 := if_neg (by simp [hdis])
      rw [hstep]
      exact received_turn hfew hct hlife hsealed hnone hdis hok.2 hrec
    · by_cases hdispose : a = .dispose
      · subst hdispose
        have hgone : (ostlsDispose p.conn).disposed = true := by
          unfold ostlsDispose
          split_ifs with h
          · exact h
          · rfl
        cases hgone.symm.trans hdis'
      · have hread : (p.step C G a).conn.reader = p.conn.reader :=
          reader_step (fun env h => hturn ⟨env, h⟩) hdispose
        intro hopen'
        have hopen : p.conn.tls13Mode = .open := (congrArg Prod.fst hread).symm.trans hopen'
        obtain ⟨base, n, hbase, hn, hsame⟩ := hrec hopen
        obtain ⟨hname, hlog⟩ := names_step (C := C) (G := G) (p := p) fun env h => hturn ⟨env, h⟩
        exact ⟨base, n, by rw [hname, hlog]; exact hbase, hn, hread.trans hsame⟩

/-- **The application reads what the peer sent.**  In every run of a connection in which no record
is forged, whatever the network repeats, drops, delays or mixes in, an open connection has decrypted
the application data of the first `n` records of its peer, each once and in order, under the keys of
its finished handshake; and what `OSTLS_Read` returned, with what still waits, is exactly these
bytes. -/
theorem receives_exactly {rs : List PeerRecord} (hfew : rs.length < 18446744073709551616)
    (hct : ∀ r ∈ rs, r.1.1 ≠ 0) {config : OstlsConfig} {tickets : TicketCache}
    {sessions : SessCache} {log : List ResumeEvent}
    (h : Reach (Proc.step C G) (fun p a => OtLawful p a ∧ NoForgery C rs p a)
      (Proc.start G config tickets sessions log) p)
    (hdis : p.conn.disposed = false) (hopen : p.conn.tls13Mode = .open) :
    ∃ hs base n, p.conn.hs13 = some hs ∧
      ReadKeysFor C p.conn.serverName p.conn.history.hsLog base ∧ n ≤ rs.length ∧
      hs.readCtx = base.at n ∧ p.conn.history.decrypted = contents (rs.take n) ∧
      p.conn.history.returned ++ p.conn.readBuf.toList ++ p.conn.link.staged hs =
        (contents (rs.take n)).flatten ∧
      p.conn.history.returned <+: (contents rs).flatten := by
  obtain ⟨base, n, hbase, hn, hread⟩ := received_of_reach hfew hct h hdis hopen
  have hdec : p.conn.history.decrypted = contents (rs.take n) := congrArg (·.2.2) hread
  have hctx : p.conn.hs13.map HsCtx.readCtx = some (base.at n) := congrArg (·.2.1) hread
  obtain ⟨hs, h13, hhs⟩ := Option.map_eq_some_iff.1 hctx
  have hmode : p.conn.link.mode ≠ .off := by
    rw [show p.conn.link.mode = .open from hopen]
    decide
  have hstream := (inbound_of_reach h hdis).stream hmode hs h13
  rw [show p.conn.link.history.decrypted = _ from hdec] at hstream
  refine ⟨hs, base, n, h13, hbase, hn, hhs, hdec, hstream, ?_⟩
  have hprefix : p.conn.history.returned <+: (contents (rs.take n)).flatten := by
    rw [← hstream, List.append_assoc]
    exact List.prefix_append _ _
  refine hprefix.trans ?_
  conv_rhs => rw [← List.take_append_drop n rs, contents, List.filter_append, List.map_append,
    List.flatten_append]
  exact List.prefix_append _ _

/-- One record of the server comes twice: the second time it does not open, the connection fails,
and what was read before stands. -/
theorem receives_exactly_replayed :
    let p := play (Proc.step .transparent waitingEngine) freshProc
      (opensTls13 ++ serves (fun s =>
        ⟨(serverSends [104, 105] s).recv ++ (serverSends [104, 105] s).recv, .zero⟩) ++
        [fun _ => .read 1, fun _ => .turn sendEnv])
    p.conn.state = .failed ∧ p.conn.history.returned = [104] ∧
      ∃ n ≤ 1, p.conn.history.decrypted =
        contents ([((tls13CtApplicationData, [104, 105]), 0)].take n) := by
  intro p
  obtain ⟨hst, hreturned, hdis, hopen⟩ : p.conn.state = .failed ∧
      p.conn.history.returned = [104] ∧ p.conn.disposed = false ∧ p.conn.tls13Mode = .open := by
    decide +kernel
  obtain ⟨hs, base, n, -, -, hn, -, hdec, -⟩ :=
    @receives_exactly _ .transparent waitingEngine p
      [((tls13CtApplicationData, [104, 105]), 0)] (by decide) (by decide) _ _ _ _
      (reach_play (by decide +kernel)) hdis hopen
  exact ⟨hst, hreturned, n, hn, hdec⟩

end MacTLS
