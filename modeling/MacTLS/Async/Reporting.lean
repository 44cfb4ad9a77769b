import MacTLS.Async.Offers

/-!
# The report of a failure

`OSTLS_Pump` reports `kOSTLSEventFailed` for every failure but those that a pump function passes up
as `-1`: an `OTSnd` or an `OTRcv` that fails, or behind which `OTLook` finds a disconnect.

* `PartEnds` : how a part of a step ends, by the calls it has made;
* `partEnds_pumpTls13Step`, `partEnds_pumpBearsslStep` : how the steps of the two paths end;
* `FatalTurn` : the turns in which Open Transport reports such a failure;
* `failure_reported_iff` : a failure is reported if and only if there is no such turn.
-/

namespace MacTLS

open Lib

variable {E : Type} {C : Crypto} {G : Engine E} {conn : Conn E}

/-! ### Fatal calls -/

/-- An error, or a disconnect that `OTLook` finds. -/
def OtCall.fatal : OtCall → Bool
  | .snd (.err _) | .snd (.lookErr .disconnect) => true
  | .rcv (.err _) | .rcv (.lookErr .disconnect) => true
  | _ => false

/-- One of the calls is fatal. -/
def Fatal (calls : List OtCall) : Prop := ∃ call ∈ calls, call.fatal = true

@[simp] theorem not_fatal_nil : ¬Fatal [] := by
  rintro ⟨_, h, -⟩
  cases h

@[simp] theorem fatal_append (l l' : List OtCall) : Fatal (l ++ l') ↔ Fatal l ∨ Fatal l' := by
  simp only [Fatal, List.mem_append]
  constructor
  · rintro ⟨call, h | h, hf⟩
    · exact .inl ⟨call, h, hf⟩
    · exact .inr ⟨call, h, hf⟩
  · rintro (⟨call, h, hf⟩ | ⟨call, h, hf⟩)
    · exact ⟨call, .inl h, hf⟩
    · exact ⟨call, .inr h, hf⟩

@[simp] theorem fatal_singleton (call : OtCall) : Fatal [call] ↔ call.fatal = true := by
  simp [Fatal]

/-! ### How a part of a step ends -/

/-- The connection is neither failed nor closed, and no failure is to be reported. -/
structure Well (conn : Conn E) : Prop where
  ne_failed : conn.state ≠ .failed
  ne_closed : conn.state ≠ .closed
  quiet : conn.bestEvent ≠ .failed

/-- A failure and the report of it go together. -/
def Told (conn : Conn E) : Prop := conn.state = .failed ↔ conn.bestEvent = .failed

/-- The connection has failed, and something else is to be reported. -/
def Hidden (conn : Conn E) : Prop := conn.state = .failed ∧ conn.bestEvent ≠ .failed

/-- How a part of a step that made these calls ends. -/
inductive PartEnds (calls : List OtCall) : Conn E × Did → Prop
  | idle {conn : Conn E} (h : Well conn) (hf : ¬Fatal calls) : PartEnds calls (conn, .idle)
  | progress {conn : Conn E} (h : Told conn) (hf : ¬Fatal calls) : PartEnds calls (conn, .progress)
  | failed {conn : Conn E} (h : Hidden conn) (hf : Fatal calls) : PartEnds calls (conn, .failed)

theorem Well.told (h : Well conn) : Told conn :=
  ⟨fun hst => absurd hst h.ne_failed, fun he => absurd he h.quiet⟩

/-- Only the state and the event matter. -/
theorem Well.of_eq {conn' : Conn E} (h : Well conn) (hst : conn'.state = conn.state)
    (he : conn'.bestEvent = conn.bestEvent) : Well conn' :=
  ⟨hst ▸ h.ne_failed, hst ▸ h.ne_closed, he ▸ h.quiet⟩

@[simp] theorem state_eventBump (conn : Conn E) (e : OstlsEvent) :
    (eventBump conn e).state = conn.state := by
  obtain ⟨bestEvent, h⟩ := eventBump_frame conn e
  rw [h]

/-- A failure is reported over everything else, and only a failure is reported as one. -/
@[simp] theorem bestEvent_eventBump (conn : Conn E) (e : OstlsEvent) :
    (eventBump conn e).bestEvent = .failed ↔ e = .failed ∨ conn.bestEvent = .failed := by
  unfold eventBump
  cases e <;> cases hb : conn.bestEvent <;> simp [eventPriority, hb]

theorem Well.bump (h : Well conn) {e : OstlsEvent} (he : e ≠ .failed) : Well (eventBump conn e) :=
  ⟨by simp [h.ne_failed], by simp [h.ne_closed], by simp [he, h.quiet]⟩

/-- What is not a failure may be reported. -/
theorem Told.bump (h : Told conn) {e : OstlsEvent} (he : e ≠ .failed) :
    Told (eventBump conn e) := by
  unfold Told
  rw [state_eventBump, bestEvent_eventBump]
  exact h.trans (or_iff_right he).symm

theorem Told.of_eq {conn' : Conn E} (h : Told conn) (hst : conn'.state = conn.state)
    (he : conn'.bestEvent = conn.bestEvent) : Told conn' := by
  unfold Told
  rw [hst, he]
  exact h

/-- The connection closes. -/
theorem Well.closes (h : Well conn) :
    Told (eventBump { conn with state := .closed } .closed) := by
  have hclosed : Told { conn with state := .closed } :=
    ⟨fun hst => (by cases hst), fun he => absurd he h.quiet⟩
  exact hclosed.bump (by decide)

theorem Well.hidden_fail (h : Well conn) (osErr : ℕ) (otErr brErr : ℤ) :
    Hidden (ostlsFail conn osErr otErr brErr) :=
  ⟨state_ostlsFail h.ne_closed .., h.quiet⟩

/-- A failure that is reported where it is noticed. -/
theorem told_reported (hst : conn.state ≠ .closed) (osErr : ℕ) (otErr brErr : ℤ) :
    Told { ostlsFail conn osErr otErr brErr with bestEvent := .failed } :=
  ⟨fun _ => rfl, fun _ => state_ostlsFail hst osErr otErr brErr⟩

theorem told_recordFail (hst : conn.state ≠ .closed) (brErr : ℤ) : Told (recordFail conn brErr) :=
  told_reported hst ..

theorem Well.hidden_disconnect (h : Well conn) : Hidden (peerDisconnect conn) :=
  (h.of_eq rfl rfl : Well { conn with discConsumed := true }).hidden_fail ..

/-- Calls that were made before it, and were not fatal. -/
theorem PartEnds.append {calls calls' : List OtCall} {r : Conn E × Did} (hf : ¬Fatal calls)
    (h : PartEnds calls' r) : PartEnds (calls ++ calls') r := by
  cases h with
  | idle hw hf' => exact .idle hw (by simp [hf, hf'])
  | progress ht hf' => exact .progress ht (by simp [hf, hf'])
  | failed hh hf' => exact .failed hh (by simp [hf'])

/-- The next part of a step runs when this one had nothing to do. -/
theorem PartEnds.orElse {calls calls' : List OtCall} {r : Conn E × Did}
    {next : Conn E → Conn E × Did} (h : PartEnds calls r)
    (hnext : r.2 = .idle → Well r.1 → PartEnds calls' (next r.1)) :
    PartEnds (calls ++ if r.2 = .idle then calls' else []) (orElse r next) := by
  cases h with
  | idle hw hf => exact (hnext rfl hw).append hf
  | progress ht hf => exact .progress ht (by simpa using hf)
  | failed hh hf => exact .failed hh (by simpa using hf)

/-- A part of a step that makes no calls. -/
theorem PartEnds.orElse_nil {calls : List OtCall} {r : Conn E × Did} {next : Conn E → Conn E × Did}
    (h : PartEnds calls r) (hnext : ∀ conn, Well conn → PartEnds [] (next conn)) :
    PartEnds calls (MacTLS.orElse r next) := by
  have hboth := h.orElse fun _ => hnext r.1
  rwa [ite_self, List.append_nil] at hboth

/-! ### Raw bytes -/

theorem partEnds_otRcvNothing (h : Well conn) {r : RcvResult}
    (hr : ∀ x bytes, r ≠ .data (x :: bytes)) : PartEnds [.rcv r] (otRcvNothing conn r) := by
  have hwell : ∀ {conn' : Conn E}, conn'.state = conn.state → conn'.bestEvent = conn.bestEvent →
      Well conn' := h.of_eq
  cases r with
  | data bytes => exact .progress (hwell rfl rfl).told (by simp [OtCall.fatal])
  | noDataErr =>
    unfold otRcvNothing
    dsimp only
    split_ifs
    · exact .progress (hwell rfl rfl).told (by simp [OtCall.fatal])
    · exact .idle (hwell rfl rfl) (by simp [OtCall.fatal])
  | lookErr look =>
    cases look with
    | ordrel => exact .progress (hwell rfl rfl).told (by simp [OtCall.fatal])
    | disconnect => exact .failed h.hidden_disconnect (by simp [OtCall.fatal])
    | other code => exact .idle h (by simp [OtCall.fatal])
  | err code => exact .failed (h.hidden_fail ..) (by simp [OtCall.fatal])

/-- Receiving on the TLS 1.3 path. -/
theorem partEnds_pumpOtRecvTls13 (h : Well conn) (env : RecvEnv) :
    PartEnds (otRecvTls13Calls conn env) (pumpOtRecvTls13 conn env) := by
  unfold otRecvTls13Calls rcvCalls pumpOtRecvTls13
  by_cases hfull : conn.recvBuf.length ≥ sslIobufSize
  · rw [if_pos hfull, if_pos (Nat.sub_eq_zero_of_le hfull)]
    exact .idle h not_fatal_nil
  · rw [if_neg hfull, if_neg (by omega)]
    by_cases hcan : canReceive env.epState = true
    · rw [if_neg (by simp [hcan]), if_neg (by simp [hcan])]
      generalize env.result = r
      cases r with
      | data bytes =>
        cases bytes with
        | nil => exact partEnds_otRcvNothing h (by simp)
        | cons x bytes => exact .progress (h.told.of_eq rfl rfl) (by simp [OtCall.fatal])
      | _ => exact partEnds_otRcvNothing h (by simp)
    · rw [if_pos (by simp [hcan]), if_pos (by simp [hcan])]
      exact .idle (h.of_eq rfl rfl) not_fatal_nil

/-- `ostls_send_raw` returns `-1` when its call was fatal, and only then. -/
theorem ostlsSendRaw_reports (h : Well conn) (buf : Bytes) (env : SendEnv) :
    (ostlsSendRaw conn buf env).2 = none ∧ Hidden (ostlsSendRaw conn buf env).1 ∧
        Fatal (sndCalls buf env) ∨
      ∃ n, (ostlsSendRaw conn buf env).2 = some n ∧ Well (ostlsSendRaw conn buf env).1 ∧
        ¬Fatal (sndCalls buf env) := by
  unfold ostlsSendRaw sndCalls
  split_ifs
  · exact .inr ⟨_, rfl, h, not_fatal_nil⟩
  · exact .inr ⟨_, rfl, h, not_fatal_nil⟩
  · generalize env.result = r
    cases r with
    | sent n => exact .inr ⟨_, rfl, h.of_eq rfl rfl, by simp [OtCall.fatal]⟩
    | flowErr => exact .inr ⟨_, rfl, h.of_eq rfl rfl, by simp [OtCall.fatal]⟩
    | lookErr look =>
      cases look with
      | ordrel => exact .inr ⟨_, rfl, h.of_eq rfl rfl, by simp [OtCall.fatal]⟩
      | disconnect => exact .inl ⟨rfl, h.hidden_disconnect, by simp [OtCall.fatal]⟩
      | other code => exact .inr ⟨_, rfl, h, by simp [OtCall.fatal]⟩
    | err code => exact .inl ⟨rfl, h.hidden_fail .., by simp [OtCall.fatal]⟩

/-! ### The TLS 1.3 path -/

/-- A flush ends the step, or lets it go on. -/
def FlushEnds (calls : List OtCall) (r : Conn E × Option Did) : Prop :=
  (r.2 = none ∧ Well r.1 ∧ ¬Fatal calls) ∨ ∃ did, r.2 = some did ∧ PartEnds calls (r.1, did)

theorem flushEnds_flushHandshake (h : Well conn) (hs : HsCtx) (env : SendEnv) :
    FlushEnds (flushHandshakeCalls hs env) (flushHandshake conn hs env) := by
  unfold flushHandshakeCalls flushHandshake
  split_ifs with hlt
  · have hraw := ostlsSendRaw_reports h hs.unsent env
    rw [← HsCtx.unsent]
    generalize ostlsSendRaw conn hs.unsent env = r at hraw ⊢
    obtain ⟨conn', sent⟩ := r
    obtain ⟨rfl, hh, hf⟩ | ⟨n, rfl, hw, hf⟩ := hraw
    · exact .inr ⟨_, rfl, .failed hh hf⟩
    · dsimp only
      split_ifs
      · exact .inr ⟨_, rfl, .progress (hw.told.of_eq rfl rfl) hf⟩
      · exact .inr ⟨_, rfl, .idle (hw.of_eq rfl rfl) hf⟩
      · exact .inl ⟨rfl, hw.of_eq rfl rfl, hf⟩
  · exact .inl ⟨rfl, h, not_fatal_nil⟩

theorem flushEnds_flushRecord (h : Well conn) (env : SendEnv) :
    FlushEnds (flushRecordCalls conn env) (flushRecord conn env) := by
  unfold flushRecordCalls flushRecord
  split_ifs with hlt
  · have hraw := ostlsSendRaw_reports h conn.link.unsent env
    have hbuf : slice conn.t13SendRec conn.t13SendOff (conn.t13SendLen - conn.t13SendOff) =
        conn.link.unsent := rfl
    rw [hbuf]
    generalize ostlsSendRaw conn conn.link.unsent env = r at hraw ⊢
    obtain ⟨conn', sent⟩ := r
    obtain ⟨rfl, hh, hf⟩ | ⟨n, rfl, hw, hf⟩ := hraw
    · exact .inr ⟨_, rfl, .failed hh hf⟩
    · dsimp only at hw ⊢
      have hrest : ∀ conn₂ : Conn E, Well conn₂ → FlushEnds (sndCalls conn.link.unsent env)
          (conn₂, if n > 0 then some .progress else none) := by
        intro conn₂ hw₂
        split_ifs
        · exact .inr ⟨_, rfl, .progress hw₂.told hf⟩
        · exact .inl ⟨rfl, hw₂, hf⟩
      refine hrest _ ?_
      split_ifs
      · refine Well.bump ?_ (by decide)
        exact hw.of_eq rfl rfl
      · exact hw.of_eq rfl rfl
  · exact .inl ⟨rfl, h, not_fatal_nil⟩

theorem Well.recordAlert (h : Well conn) (hs : HsCtx) (plen : ℕ) :
    Told (recordAlert conn hs plen) := by
  have hpeer : Well { conn with peerClosed := true } := h.of_eq rfl rfl
  unfold MacTLS.recordAlert
  dsimp only
  split_ifs
  · exact hpeer.closes
  · exact hpeer.told
  all_goals exact told_recordFail h.ne_closed _

theorem Well.deliverPlain (h : Well conn) (hs : HsCtx) :
    PartEnds [] (pumpTls13DeliverPlain conn hs) := by
  unfold pumpTls13DeliverPlain
  dsimp only
  split_ifs
  · exact .idle h not_fatal_nil
  · exact .idle h not_fatal_nil
  · refine .progress (Told.bump ?_ (by decide)) not_fatal_nil
    exact h.told.of_eq rfl rfl

/-- Without a fatal call, a failure and its report go together. -/
theorem PartEnds.told {calls : List OtCall} {r : Conn E × Did} (h : PartEnds calls r)
    (hf : ¬Fatal calls) : Told r.1 := by
  cases h with
  | idle hw _ => exact hw.told
  | progress ht _ => exact ht
  | failed _ hf' => exact absurd hf' hf

theorem Well.recordData (h : Well conn) (hs : HsCtx) (plen : ℕ) :
    Told (recordData conn hs plen) := by
  refine PartEnds.told (Well.deliverPlain ?_ hs) not_fatal_nil
  exact h.of_eq rfl rfl

theorem Well.recordPostHandshake {p : Proc E} (h : Well p.conn) (hs : HsCtx) (plen now : ℕ) :
    Told (recordPostHandshake C p hs plen now).conn := by
  obtain ⟨ticket, ticketValid, error, hpost⟩ := recordPostHandshake_frame C p hs plen now
  rw [hpost]
  exact h.told.of_eq rfl rfl

/-- Every record that is taken off leaves the failure and its report together. -/
theorem told_pumpTls13ConsumeRecord {p : Proc E} (h : Well p.conn) (hs : HsCtx) (now : ℕ) :
    Told (pumpTls13ConsumeRecord C p hs now).1.conn := by
  rw [pumpTls13ConsumeRecord_eq]
  split_ifs
  · exact h.told
  · exact told_recordFail h.ne_closed _
  · exact h.told
  · generalize tls13RecordDecrypt C hs.readCtx (slice p.conn.recvBuf 5
      (getU16 p.conn.recvBuf 3)) = d
    obtain ⟨ctx, buf, ret⟩ := d
    have htaken : Well { p.conn with
        hs13 := some { hs with readCtx := ctx, plainBuf := blit hs.plainBuf 0 buf }
        recvBuf := p.conn.recvBuf.drop (5 + getU16 p.conn.recvBuf 3) } := h.of_eq rfl rfl
    unfold recordOpened
    cases ret with
    | none => exact told_recordFail htaken.ne_closed _
    | some ret =>
      obtain ⟨plen, inner⟩ := ret
      dsimp only
      split_ifs
      · exact htaken.recordData _ plen
      · exact htaken.recordAlert _ plen
      · exact Well.recordPostHandshake (p := { p with conn := _ }) htaken _ plen now
      · exact htaken.told

theorem partEnds_receiveOrClose (h : Well conn) (env : RecvEnv) :
    PartEnds (if ¬conn.peerClosed then otRecvTls13Calls conn env else [])
      (receiveOrClose conn env) := by
  unfold receiveOrClose
  refine PartEnds.orElse_nil ?_ fun conn' hw => ?_
  · by_cases hpeer : conn.peerClosed = true
    · rw [if_pos hpeer, if_neg (not_not.2 hpeer)]
      exact .idle h not_fatal_nil
    · rw [if_neg hpeer, if_pos hpeer]
      exact partEnds_pumpOtRecvTls13 h env
  · split_ifs
    · exact .progress hw.closes not_fatal_nil
    · exact .idle hw not_fatal_nil

theorem partEnds_pumpTls13Open {p : Proc E} (h : Well p.conn) (hs : HsCtx) (env : PumpEnv) :
    PartEnds (tls13OpenCalls C p hs env)
      ((pumpTls13Open C p hs env).1.conn, (pumpTls13Open C p hs env).2) := by
  unfold tls13OpenCalls pumpTls13Open
  by_cases hstaged : p.conn.t13PlainOff < p.conn.t13PlainLen
  · rw [if_neg fun hcall => hcall.1.1 hstaged, if_pos hstaged]
    exact h.deliverPlain hs
  · rw [if_neg hstaged]
    by_cases hbuild : p.conn.writeBuf.avail > 0 ∧ p.conn.t13SendOff ≥ p.conn.t13SendLen ∧
        (pumpTls13BuildSend C p.conn hs).2 = true
    · rw [if_neg fun hcall => hcall.1.2.1 hbuild, if_pos hbuild]
      refine .progress ?_ not_fatal_nil
      unfold pumpTls13BuildSend
      dsimp only
      split_ifs
      · exact h.told
      · exact h.told
      · exact h.told.of_eq rfl rfl
    · rw [if_neg hbuild]
      dsimp only
      cases htaken : (pumpTls13ConsumeRecord C p hs env.ticks).2 with
      | true =>
        rw [if_neg fun hcall => (by simp [hcall.1.2.2] at htaken), if_pos rfl]
        exact .progress (told_pumpTls13ConsumeRecord h hs env.ticks) not_fatal_nil
      | false =>
        have hidle : OpenIdle C p hs env.ticks := ⟨hstaged, hbuild, htaken⟩
        have hends := partEnds_receiveOrClose h env.recv
        simp only [hidle, true_and]
        exact hends

/-! ### The handshake -/

/-- A fallback goes on with another endpoint, or reports that it cannot. -/
theorem Well.fallback (h : Well conn) (env : PumpEnv) :
    let r := ostlsFallbackToTls12 conn env
    Told (if r.2 = .failed then { r.1 with bestEvent := .failed } else r.1) := by
  have hforget : (forgetTls13 conn).state ≠ .closed ∧ (forgetTls13 conn).bestEvent ≠ .failed := by
    unfold forgetTls13 closeProvider
    split_ifs
    · split
      · exact ⟨h.ne_closed, h.quiet⟩
      · exact ⟨h.ne_closed, h.quiet⟩
    · exact ⟨h.ne_closed, h.quiet⟩
  unfold ostlsFallbackToTls12
  dsimp only
  by_cases hcfg : (!env.cfgOk) = true
  · rw [if_pos hcfg, if_pos rfl]
    exact told_reported hforget.1 ..
  · rw [if_neg hcfg]
    by_cases hopen : env.openErr ≠ kOTNoError
    · rw [if_pos hopen, if_pos rfl]
      exact told_reported hforget.1 ..
    · rw [if_neg hopen, if_neg (by simp)]
      exact ⟨fun hst => (by cases hst), fun he => absurd he hforget.2⟩

theorem Well.opened {p : Proc E} (h : Well p.conn) (hs : HsCtx) : Told (tls13Opened p hs).conn := by
  refine Told.bump ?_ (by decide)
  exact ⟨fun hst => (by cases hst), fun he => absurd he h.quiet⟩

theorem partEnds_pumpTls13Handshake {p : Proc E} (h : Well p.conn) (hs : HsCtx) (env : PumpEnv) :
    PartEnds (tls13HandshakeCalls C p hs env)
      ((pumpTls13Handshake C p hs env).1.conn, (pumpTls13Handshake C p hs env).2) := by
  unfold tls13HandshakeCalls pumpTls13Handshake
  dsimp only
  generalize tls13HandshakeStep C p.conn.serverName env.rnd hs p.conn.recvBuf = o
  have hshook : Well { p.conn with
      hs13 := some o.hs
      recvBuf := o.recv
      history := { p.conn.history with
        hsLog := p.conn.history.hsLog ++ o.log
        hsRecords := p.conn.history.hsRecords ++ queuedRecord o } } := h.of_eq rfl rfl
  by_cases hdone : o.hs.state = .complete ∧ o.hs.msgOffset ≥ o.hs.msgLen
  · rw [if_neg fun hw => hw.1 hdone, if_pos hdone]
    exact .progress (Well.opened (p := p.onConn fun _ => _) hshook o.hs) not_fatal_nil
  · rw [if_neg hdone]
    cases hres : o.res with
    | wantRead =>
      rw [if_pos ⟨hdone, hres⟩]
      exact partEnds_pumpOtRecvTls13 hshook env.recv
    | wantWrite | ok =>
      rw [if_neg fun hw => (by cases hw.2.symm.trans hres)]
      exact .progress hshook.told not_fatal_nil
    | fallback12 =>
      rw [if_neg fun hw => (by cases hw.2.symm.trans hres)]
      exact .progress (hshook.fallback env) not_fatal_nil
    | error =>
      rw [if_neg fun hw => (by cases hw.2.symm.trans hres)]
      exact .progress (told_recordFail hshook.ne_closed _) not_fatal_nil

theorem partEnds_pumpTls13Drive {p : Proc E} (h : Well p.conn) (env : PumpEnv) :
    PartEnds (tls13DriveCalls C p env)
      ((pumpTls13Drive C p env).1.conn, (pumpTls13Drive C p env).2) := by
  unfold tls13DriveCalls pumpTls13Drive
  cases p.conn.hs13 with
  | none => exact .idle h not_fatal_nil
  | some hs =>
    dsimp only
    split_ifs
    · exact partEnds_pumpTls13Handshake h hs env
    · exact partEnds_pumpTls13Open h hs env
    · exact .idle h not_fatal_nil

/-- A step of the TLS 1.3 path. -/
theorem partEnds_pumpTls13Step {p : Proc E} (h : Well p.conn) (env : PumpEnv) :
    PartEnds (tls13StepCalls C p env)
      ((pumpTls13Step C p env).1.conn, (pumpTls13Step C p env).2) := by
  unfold tls13StepCalls pumpTls13Step
  cases p.conn.hs13 with
  | none => exact .idle h not_fatal_nil
  | some hs =>
    dsimp only
    have hflush := flushEnds_flushHandshake h hs env.sendHs
    generalize flushHandshake p.conn hs env.sendHs = r at hflush ⊢
    obtain ⟨conn', did⟩ := r
    obtain ⟨rfl, hw, hf⟩ | ⟨did, rfl, hends⟩ := hflush
    · refine PartEnds.append hf ?_
      dsimp only at hw ⊢
      unfold tls13RecordCalls
      dsimp only
      have hrecord := flushEnds_flushRecord hw env.sendApp
      generalize flushRecord conn' env.sendApp = r at hrecord ⊢
      obtain ⟨conn'', did⟩ := r
      obtain ⟨rfl, hw', hf'⟩ | ⟨did, rfl, hends⟩ := hrecord
      · exact PartEnds.append hf' (partEnds_pumpTls13Drive (p := { p with conn := conn'' }) hw' env)
      · simpa using hends
    · simpa using hends

/-! ### The TLS 1.2 path -/

theorem partEnds_pumpOtRecvIntoBearssl (h : Well conn) (env : RecvEnv) :
    PartEnds (rcvCalls (G.recvrecLen conn.eng) env) (pumpOtRecvIntoBearssl G conn env) := by
  unfold rcvCalls pumpOtRecvIntoBearssl
  dsimp only
  split_ifs
  · exact .idle h not_fatal_nil
  · exact .progress (h.told.of_eq rfl rfl) not_fatal_nil
  · exact .progress (h.told.of_eq rfl rfl) not_fatal_nil
  · generalize env.result = r
    cases r with
    | data bytes =>
      cases bytes with
      | nil => exact partEnds_otRcvNothing h (by simp)
      | cons x bytes => exact .progress (h.told.of_eq rfl rfl) (by simp [OtCall.fatal])
    | _ => exact partEnds_otRcvNothing h (by simp)

theorem partEnds_pumpOtSendFromBearssl (h : Well conn) (env : SendEnv) :
    PartEnds (sndCalls (G.sendrecBuf conn.eng) env) (pumpOtSendFromBearssl G conn env) := by
  unfold sndCalls pumpOtSendFromBearssl
  dsimp only
  split_ifs
  · exact .idle h not_fatal_nil
  · exact .progress (h.told.of_eq rfl rfl) not_fatal_nil
  · generalize env.result = r
    cases r with
    | sent n =>
      cases n with
      | zero => exact .idle h (by simp [OtCall.fatal])
      | succ n => exact .progress (h.told.of_eq rfl rfl) (by simp [OtCall.fatal])
    | flowErr => exact .idle (h.of_eq rfl rfl) (by simp [OtCall.fatal])
    | lookErr look =>
      cases look with
      | ordrel => exact .progress (h.told.of_eq rfl rfl) (by simp [OtCall.fatal])
      | disconnect => exact .failed h.hidden_disconnect (by simp [OtCall.fatal])
      | other code => exact .idle h (by simp [OtCall.fatal])
    | err code => exact .failed (h.hidden_fail ..) (by simp [OtCall.fatal])

theorem partEnds_bearsslMove (h : Well conn) (flags : EngineFlags) (env : PumpEnv) :
    PartEnds (bearsslMoveCalls G flags conn env) (bearsslMove G flags conn env) := by
  have hsend : PartEnds (if flags.sendrec then sndCalls (G.sendrecBuf conn.eng) env.sendApp else [])
      (bearsslSend G flags conn env.sendApp) := by
    unfold bearsslSend
    split_ifs
    · exact partEnds_pumpOtSendFromBearssl h env.sendApp
    · exact .idle h not_fatal_nil
  have hreceive : ∀ conn : Conn E, Well conn →
      PartEnds (if flags.recvrec = true ∧ ¬conn.peerClosed = true then
        rcvCalls (G.recvrecLen conn.eng) env.recv else [])
        (if flags.recvrec = true ∧ ¬conn.peerClosed = true then
          pumpOtRecvIntoBearssl G conn env.recv else (conn, .idle)) := by
    intro conn hw
    split_ifs
    · exact partEnds_pumpOtRecvIntoBearssl hw env.recv
    · exact .idle hw not_fatal_nil
  unfold bearsslMoveCalls bearsslMove
  dsimp only
  rw [ite_and]
  refine hsend.orElse fun _ hw => (hreceive _ hw).orElse_nil fun conn hw => ?_
  -- what follows calls nothing
  refine PartEnds.orElse_nil ?_ fun conn hw => PartEnds.orElse_nil ?_ fun conn hw => ?_
  · unfold pumpBearsslRecvappToRing
    dsimp only
    split_ifs
    · exact .idle hw not_fatal_nil
    · exact .idle hw not_fatal_nil
    · refine .progress (Told.bump ?_ (by decide)) not_fatal_nil
      exact hw.told.of_eq rfl rfl
    · exact .idle hw not_fatal_nil
  · unfold pumpRingToBearsslSendapp
    dsimp only
    split_ifs
    · exact .idle hw not_fatal_nil
    · exact .idle hw not_fatal_nil
    · refine .progress (Told.bump ?_ (by decide)) not_fatal_nil
      exact hw.told.of_eq rfl rfl
    · exact .progress (hw.told.of_eq rfl rfl) not_fatal_nil
    · exact .idle hw not_fatal_nil
  · split_ifs
    · exact .idle hw not_fatal_nil
    · exact .progress hw.closes not_fatal_nil
    · exact .idle hw not_fatal_nil

/-- A step of the TLS 1.2 path. -/
theorem partEnds_pumpBearsslStep {p : Proc E} (h : Well p.conn) (env : PumpEnv) :
    PartEnds (bearsslStepCalls G p env)
      ((pumpBearsslStep G p env).1.conn, (pumpBearsslStep G p env).2) := by
  unfold bearsslStepCalls pumpBearsslStep
  dsimp only
  split_ifs
  · refine .progress ?_ not_fatal_nil
    show Told (bearsslClosed G p.conn)
    unfold bearsslClosed
    split_ifs
    · exact h.closes
    · exact told_reported h.ne_closed ..
    · exact told_reported h.ne_closed ..
  · refine .progress (Told.bump ?_ (by decide)) not_fatal_nil
    exact ⟨fun hst => (by cases hst), fun he => absurd he h.quiet⟩
  · exact partEnds_bearsslMove h _ env

/-! ### Connecting -/

/-- How a connect step ends. -/
inductive ConnectEnds (o : ConnectOut E) : Prop
  | failed (hst : o.proc.conn.state = .failed) (he : o.event = .failed)
  | goes (hw : Well o.proc.conn) (he : o.event ≠ .failed)

theorem ConnectEnds.told {o : ConnectOut E} (h : ConnectEnds o) :
    Told (eventBump o.proc.conn o.event) := by
  cases h with
  | failed hst he => exact ⟨fun _ => by simp [he], fun _ => by simp [hst]⟩
  | goes hw he => exact (hw.bump he).told

variable {p : Proc E}

/-- Setting up TLS fails, and says so, or goes well. -/
theorem Well.setup (h : Well p.conn) (env : PumpEnv) :
    let r := ostlsSetupBearssl G p env
    r.2 = false ∧ r.1.conn.state = .failed ∨ r.2 = true ∧ Well r.1.conn := by
  have hfail : ∀ {q : Proc E} {osErr : ℕ} {otErr brErr : ℤ}, q.conn.state = p.conn.state →
      (q.onConn (ostlsFail · osErr otErr brErr)).conn.state = .failed :=
    fun hst => state_ostlsFail (hst ▸ h.ne_closed) ..
  have harm : ∀ q : Proc E, Well q.conn → Well (armTls13 q env).conn := by
    intro q hq
    unfold armTls13
    dsimp only
    split <;> exact hq.of_eq rfl rfl
  have hoffer : ∀ q : Proc E, (offerSession G q).1.conn.state = q.conn.state ∧
      (offerSession G q).1.conn.bestEvent = q.conn.bestEvent := by
    intro q
    unfold offerSession
    split <;> exact ⟨rfl, rfl⟩
  unfold ostlsSetupBearssl
  by_cases htime : env.timeOk = true
  · rw [if_neg (by simp [htime])]
    dsimp only
    by_cases hent : env.entropyOk = true
    · rw [if_neg (by simp [hent])]
      split
      · exact .inr ⟨rfl, harm _ (h.of_eq rfl rfl)⟩
      · generalize hr : offerSession G _ = r
        have hoffered : r.1.conn.state = p.conn.state ∧ r.1.conn.bestEvent = p.conn.bestEvent := by
          rw [← hr]
          exact hoffer _
        split
        · exact .inr ⟨rfl, h.of_eq hoffered.1 hoffered.2⟩
        · exact .inl ⟨rfl, hfail hoffered.1⟩
    · rw [if_pos (by simp [hent])]
      exact .inl ⟨rfl, hfail rfl⟩
  · rw [if_pos (by simp [htime])]
    exact .inl ⟨rfl, hfail rfl⟩

theorem connectEnds_pumpConnectStep (h : Well p.conn) (env : PumpEnv) :
    ConnectEnds (pumpConnectStep G p env) := by
  have hfail : ∀ {q : Proc E} {osErr : ℕ} {otErr : ℤ}, q.conn.state = p.conn.state →
      ConnectEnds (connectFail q osErr otErr) :=
    fun hst => .failed (state_ostlsFail (hst ▸ h.ne_closed) ..) rfl
  have hnext : ∀ {q : Proc E} {phase : ConnectPhase}, q.conn.state = p.conn.state →
      q.conn.bestEvent = p.conn.bestEvent → ConnectEnds (connectNext q phase) :=
    fun hst he => .goes (h.of_eq hst he) (by simp [connectNext])
  have hwait : ConnectEnds (connectWait p) := .goes h (by simp [connectWait])
  unfold pumpConnectStep
  by_cases hlate : elapsed32 env.ticks p.conn.startTicks > p.conn.connectTimeoutTicks
  · rw [if_pos hlate]
    exact hfail rfl
  by_cases hdisc : p.conn.nfDisconnect = true
  · rw [if_neg hlate, if_pos hdisc]
    exact hfail rfl
  · rw [if_neg hlate, if_neg hdisc]
    cases p.conn.connectPhase with
    | openInFlight =>
      dsimp only
      unfold connectOpened
      dsimp only
      split_ifs
      · exact hwait
      · exact hfail rfl
      · exact hfail rfl
      · exact hnext rfl rfl
    | needsBind =>
      dsimp only
      split_ifs
      · exact hfail rfl
      · exact hnext rfl rfl
    | bindInFlight =>
      dsimp only
      split_ifs
      · exact hwait
      · exact hfail rfl
      · exact hnext rfl rfl
    | needsConnect =>
      dsimp only
      split_ifs
      · exact hfail rfl
      · exact hfail rfl
      · exact hnext rfl rfl
    | connectInFlight =>
      dsimp only
      unfold connectDone
      dsimp only
      split_ifs
      · exact hwait
      · exact hfail rfl
      · exact hfail rfl
      · generalize hq : Proc.onConn (p.onConn fun conn => { conn with nfConnectComplete := false })
          (fun conn => { conn with connectPhase := .done, state := .handshaking }) = q
        have hsetup := Well.setup (G := G) (p := q) (by
          subst hq
          exact ⟨by simp [Proc.onConn], by simp [Proc.onConn], h.quiet⟩) env
        generalize ostlsSetupBearssl G q env = r at hsetup
        obtain ⟨q', ok⟩ := r
        obtain ⟨rfl, hst⟩ | ⟨rfl, hw⟩ := hsetup
        · exact .failed hst rfl
        · exact .goes hw (by simp)
    | needsOpen | done => exact hwait

/-! ### A turn, and the whole loop -/

theorem partEnds_pumpStep (h : Well p.conn) (env : PumpEnv) :
    ¬Fatal (stepCalls C G p env) ∧ Told (pumpStep C G p env).1.conn ∨
      Fatal (stepCalls C G p env) ∧ Hidden (pumpStep C G p env).1.conn ∧
        (pumpStep C G p env).2 = false := by
  have htls : ∀ {calls : List OtCall} {r : Proc E × Did}, PartEnds calls (r.1.conn, r.2) →
      ¬Fatal calls ∧ Told r.1.conn ∨
        Fatal calls ∧ Hidden r.1.conn ∧ decide (r.2 = .progress) = false := by
    rintro calls ⟨q, did⟩ hends
    cases hends with
    | idle hw hf => exact .inl ⟨hf, hw.told⟩
    | progress ht hf => exact .inl ⟨hf, ht⟩
    | failed hh hf => exact .inr ⟨hf, hh, rfl⟩
  unfold stepCalls pumpStep
  cases p.conn.state with
  | connecting => exact .inl ⟨not_fatal_nil, (connectEnds_pumpConnectStep h env).told⟩
  | handshaking | «open» | closing =>
    dsimp only
    split_ifs
    · exact htls (partEnds_pumpTls13Step h env)
    · exact htls (partEnds_pumpBearsslStep h env)
  | idle | closed | failed => exact .inl ⟨not_fatal_nil, h.told⟩

/-- A turn leaves a failure and its report together, unless it makes a fatal call. -/
theorem told_pumpTurn (h : Told p.conn) (env : PumpEnv) :
    ¬Fatal (turnCalls C G p env) ∧ Told (pumpTurn C G p env).1.conn ∨
      Fatal (turnCalls C G p env) ∧ Hidden (pumpTurn C G p env).1.conn ∧
        (pumpTurn C G p env).2 = false := by
  unfold turnCalls pumpTurn
  by_cases hover : p.conn.state = .failed ∨ p.conn.state = .closed
  · rw [if_pos hover, if_pos hover]
    exact .inl ⟨not_fatal_nil, h⟩
  · rw [if_neg hover, if_neg hover]
    have hw : Well p.conn :=
      ⟨fun hst => hover (.inl hst), fun hst => hover (.inr hst), fun he => hover (.inl (h.2 he))⟩
    have hpre : (pumpHandshakeOrOpenPre p.conn env).2 = true ∧
          (pumpHandshakeOrOpenPre p.conn env).1 = p.conn ∨
        (pumpHandshakeOrOpenPre p.conn env).2 = false ∧
          (pumpHandshakeOrOpenPre p.conn env).1.state = .failed := by
      unfold pumpHandshakeOrOpenPre
      split_ifs
      · exact .inr ⟨rfl, state_ostlsFail hw.ne_closed ..⟩
      · have hopen : { p.conn with discConsumed := true }.state ≠ .closed := hw.ne_closed
        exact .inr ⟨rfl, state_ostlsFail hopen ..⟩
      · exact .inl ⟨rfl, rfl⟩
    dsimp only
    obtain ⟨hgoes, hsame⟩ | ⟨hends, hst⟩ := hpre
    · rw [if_pos hgoes, if_pos hgoes, hsame]
      exact partEnds_pumpStep hw env
    · rw [if_neg (by simp [hends]), if_neg (by simp [hends])]
      exact .inl ⟨not_fatal_nil, fun _ => by simp, fun _ => by simp [hst]⟩

/-- The loop ends as its turns do. -/
theorem told_pumpLoop (h : Told p.conn) (envs : List PumpEnv) :
    let calls := (loopTurns C G p envs).flatMap fun t => turnCalls C G t.1 t.2
    ¬Fatal calls ∧ Told (pumpLoop C G p envs).conn ∨
      Fatal calls ∧ Hidden (pumpLoop C G p envs).conn := by
  induction envs generalizing p with
  | nil => exact .inl ⟨not_fatal_nil, h⟩
  | cons env envs ih =>
    dsimp only
    unfold loopTurns pumpLoop
    dsimp only
    rw [List.flatMap_cons, fatal_append]
    obtain ⟨hf, ht⟩ | ⟨hf, hh, hstop⟩ := told_pumpTurn (C := C) (G := G) h env
    · split_ifs
      · simpa [hf] using ih ht
      · exact .inl ⟨by simp [hf], ht⟩
    · rw [if_neg (by simp [hstop]), if_neg (by simp [hstop])]
      exact .inr ⟨.inl hf, hh⟩

/-- A turn in which what is offered to `OTSnd`, or waited for from `OTRcv`, is answered by an error,
or by a disconnect that `OTLook` finds. -/
def FatalTurn (C : Crypto) (G : Engine E) (conn : Conn E) (env : PumpEnv) : Prop :=
  SendsHandshake conn env ∧ (OtCall.snd env.sendHs.result).fatal = true ∨
    SendsData G conn env ∧ (OtCall.snd env.sendApp.result).fatal = true ∨
    Listens C G conn env ∧ (OtCall.rcv env.recv.result).fatal = true

instance (C : Crypto) (G : Engine E) (conn : Conn E) (env : PumpEnv) :
    Decidable (FatalTurn C G conn env) := inferInstanceAs (Decidable (_ ∨ _))

theorem fatal_callWhen (P : Prop) [Decidable P] (call : OtCall) :
    Fatal (callWhen P call) ↔ P ∧ call.fatal = true := by
  unfold callWhen
  split_ifs with h <;> simp [h]

theorem fatal_turnCalls (p : Proc E) (env : PumpEnv) :
    Fatal (turnCalls C G p env) ↔ FatalTurn C G p.conn env := by
  rw [turnCalls_eq, fatal_append, fatal_append, fatal_callWhen, fatal_callWhen, fatal_callWhen]
  rfl

theorem fatal_pumpCalls (p : Proc E) (envs : List PumpEnv) :
    Fatal (pumpCalls C G p envs) ↔ ∃ t ∈ pumpTurns C G p envs, FatalTurn C G t.1.conn t.2 := by
  simp only [← fatal_turnCalls, pumpCalls, Fatal, List.mem_flatMap]
  constructor
  · rintro ⟨call, ⟨t, ht, hcall⟩, hf⟩
    exact ⟨t, ht, call, hcall, hf⟩
  · rintro ⟨t, ht, call, hcall, hf⟩
    exact ⟨call, ⟨t, ht, hcall⟩, hf⟩

/-- **A failure is reported, or a call was fatal.**  When `OSTLS_Pump` leaves a connection failed
that was not, it returns `kOSTLSEventFailed` if and only if in no turn an `OTSnd` or `OTRcv` fails
or is answered by a disconnect. -/
theorem failure_reported_iff (hst : p.conn.state ≠ .failed) (envs : List PumpEnv) :
    ((ostlsPump C G p envs).2.2.conn.state = .failed → (ostlsPump C G p envs).2.1 = .failed) ↔
      ∀ t ∈ pumpTurns C G p envs, ¬FatalTurn C G t.1.conn t.2 := by
  have hiff : (∀ t ∈ pumpTurns C G p envs, ¬FatalTurn C G t.1.conn t.2) ↔
      ¬Fatal (pumpCalls C G p envs) := by
    rw [fatal_pumpCalls]
    simp only [not_exists, not_and]
  rw [hiff]
  unfold pumpCalls pumpTurns ostlsPump
  by_cases hdis : p.conn.disposed = true
  · simp [hdis, hst]
  · by_cases hclosed : p.conn.state = .closed
    · simp [hdis, hclosed]
    · rw [if_neg hdis, if_neg hst, if_neg hclosed, if_neg (by tauto)]
      have hw : Told (p.onConn fun conn => { conn with bestEvent := .none }).conn :=
        ⟨fun h => absurd h hst, fun h => (by cases h)⟩
      obtain ⟨hf, ht⟩ | ⟨hf, hfailed, hquiet⟩ := told_pumpLoop (C := C) (G := G) hw envs
      · exact iff_of_true ht.1 hf
      · exact iff_of_false (fun h => hquiet (h hfailed)) (not_not.2 hf)

/-- The time for the handshake is up. -/
theorem failure_reported_expired :
    let r := ostlsPump .transparent waitingEngine
      (play (Proc.step .transparent waitingEngine) freshProc startsTls13)
      [{ idleEnv with ticks := 2000 }]
    r.2.2.conn.state = .failed ∧ r.2.1 = .failed := by
  have hfailed : (ostlsPump .transparent waitingEngine
      (play (Proc.step .transparent waitingEngine) freshProc startsTls13)
      [{ idleEnv with ticks := 2000 }]).2.2.conn.state = .failed := by decide +kernel
  refine ⟨hfailed, ?_⟩
  exact (failure_reported_iff (C := .transparent) (G := waitingEngine) (by decide +kernel) _).2
    (by decide +kernel) hfailed

/-- An `OTSnd` that fails leaves the connection failed, and nothing is reported. -/
theorem failure_hidden :
    ∃ (p : Proc Unit) (envs : List PumpEnv),
      Reach (Proc.step .transparent waitingEngine) OtLawful freshProc p ∧
      p.conn.disposed = false ∧ p.conn.state = .handshaking ∧ 1 ≤ envs.length ∧
      (ostlsPump .transparent waitingEngine p envs).2.2.conn.state = .failed ∧
      (ostlsPump .transparent waitingEngine p envs).2.1 = .none :=
  ⟨play (Proc.step .transparent waitingEngine) freshProc
      (startsTls13 ++ [fun _ => .turn idleEnv]),
    [{ idleEnv with sendHs := ⟨.dataxfer, .err (-3150)⟩ }],
    reach_script _ (by decide +kernel), by decide +kernel, by decide +kernel, by decide,
    by decide +kernel, by decide +kernel⟩

end MacTLS
