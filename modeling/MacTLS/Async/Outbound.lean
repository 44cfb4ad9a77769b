import MacTLS.Async.Endpoints
import MacTLS.Async.Inbound
import MacTLS.Handshake.Sending

/-!
# The bytes that go out

On the TLS 1.3 path, what `OTSnd` has taken is a prefix of the handshake records and the
application data records in the order they were built, and the plaintexts of these are what
`OSTLS_Write` accepted, but for what still waits in the write queue.

* `Outbound.effect` : every effect keeps that;
* `Effect.message_kept`, `Effect.record_kept` : a buffer is not written before it is sent;
* `outbound_exact` : all of it, for every reached state.
-/

namespace MacTLS

open Lib

variable {E : Type} {C : Crypto} {G : Engine E} {π : Policy} {s s' : Link}

/-! ### What there is to be sent -/

/-- The context and the payloads after a list of plaintexts was encrypted. -/
def appRecords (C : Crypto) (ctx : RecordCtx) (chunks : List Bytes) : RecordCtx × List Bytes :=
  encryptStream C ctx (chunks.map fun chunk => (tls13CtApplicationData, chunk))

theorem appRecords_concat (C : Crypto) (ctx : RecordCtx) (chunks : List Bytes) (chunk : Bytes) :
    appRecords C ctx (chunks ++ [chunk]) =
      let r := appRecords C ctx chunks
      let e := tls13RecordEncrypt C r.1 chunk tls13CtApplicationData
      (e.1, r.2 ++ [e.2]) := by
  rw [appRecords, List.map_append, List.map_singleton]
  exact encryptStream_concat ..

/-- What was queued so far: handshake records, then application data records. -/
def History.outStream (C : Crypto) (h : History) : Bytes :=
  h.hsRecords.flatten ++ match h.appCtx with
    | none => []
    | some ctx => ((appRecords C ctx h.chunks).2.map applicationRecord).flatten

/-- What `OTSnd` has taken. -/
def History.sentBytes (h : History) : Bytes := (h.sent.map Prod.snd).flatten

theorem sentBytes_sends (s : Link) (bytes : Bytes) :
    (s.sends bytes).history.sentBytes = s.history.sentBytes ++ bytes := by
  simp [Link.sends, History.sentBytes]

theorem HsCtx.unsent_eq_nil {hs : HsCtx} (h : hs.msgLen ≤ hs.msgOffset) : hs.unsent = [] := by
  rw [HsCtx.unsent, Nat.sub_eq_zero_of_le h]
  exact List.take_zero

theorem Link.unsent_eq_nil (h : s.sendLen ≤ s.sendOff) : s.unsent = [] := by
  rw [Link.unsent, Nat.sub_eq_zero_of_le h]
  exact List.take_zero

/-- Sending a part of `msg_buf` leaves the rest. -/
theorem HsCtx.take_unsent_append (hs : HsCtx) (n : ℕ) :
    hs.unsent.take n ++ (hs.took (min n hs.unsent.length)).unsent = hs.unsent := by
  have h := take_slice_append hs.msgBuf hs.msgOffset (hs.msgLen - hs.msgOffset) n
  rw [← Nat.sub_add_eq] at h
  exact h

theorem Link.take_unsent_append (s : Link) (n : ℕ) :
    s.unsent.take n ++
      Link.unsent { s.sends (s.unsent.take n) with
        sendOff := s.sendOff + min n s.unsent.length } = s.unsent := by
  have h := take_slice_append s.sendRec s.sendOff (s.sendLen - s.sendOff) n
  rw [← Nat.sub_add_eq] at h
  exact h

/-! ### The invariant -/

/-- The outbound stream of a connection. -/
structure Outbound (C : Crypto) (s : Link) : Prop where
  tried : s.mode = .trying → s.state = .handshaking ∨ s.state = .failed
  absent : s.mode = .off → s.hs13 = none ∧ s.history.sentBytes = s.history.hsRecords.flatten ∧
    (s.disabled = false → s.history.sent = [] ∧ s.history.hsLog = [] ∧ s.history.hsRecords = [])
  early : s.state = .idle ∨ s.state = .connecting ∨ s.state = .handshaking →
    s.writeBuf.toList = [] ∧ s.history.accepted = [] ∧ s.sendLen ≤ s.sendOff
  unopened : s.mode ≠ .open → s.history.chunks = [] ∧ s.history.appCtx = none
  trying : s.mode = .trying → ∀ hs, s.hs13 = some hs →
    s.history.sentBytes ++ hs.unsent = s.history.hsRecords.flatten ∧
      Sending C hs s.history.hsLog s.history.hsRecords
  opened : s.mode = .open → ∃ ctx, s.history.appCtx = some ctx ∧ ctx.seq = 0 ∧
    s.history.sentBytes ++ s.unsent = s.history.outStream C ∧
    ∀ hs, s.hs13 = some hs → hs.writeCtx = (appRecords C ctx s.history.chunks).1
  records : ∃ done, HandshakeRecords C (sentMessages s.history.hsLog) s.history.hsRecords done
  queue : s.mode ≠ .off → s.history.chunks.flatten ++ s.writeBuf.toList = s.history.accepted

theorem outbound_init (C : Crypto) (G : Engine E) (config : OstlsConfig) :
    Outbound C (Conn.init G config).link where
  tried h := by cases h
  absent _ := ⟨rfl, rfl, fun _ => ⟨rfl, rfl, rfl⟩⟩
  early _ := ⟨Queue.toList_empty _, rfl, Nat.le_refl 0⟩
  unopened _ := ⟨rfl, rfl⟩
  trying h := by cases h
  opened h := by cases h
  records := ⟨false, .hellos []⟩
  queue h := absurd rfl h

/-- Where data flows, or is in flight, the handshake is behind. -/
theorem Outbound.open_of_up (hs : Outbound C s) (hmode : s.mode ≠ .off)
    (hup : s.state.isUp = true) : s.mode = .open := by
  cases h : s.mode with
  | off => exact absurd h hmode
  | trying => obtain h | h := hs.tried h <;> rw [h] at hup <;> cases hup
  | «open» => rfl

theorem Outbound.open_of_inFlight (hs : Outbound C s) (hc : s.Carried)
    (hlt : s.sendOff < s.sendLen) : s.mode = .open := by
  obtain hst | hup := hc.2
  · exact absurd (hs.early (.inr (.inr hst))).2.2 (Nat.not_le.2 hlt)
  · exact hs.open_of_up hc.1 hup

/-- What was sent is a prefix of what was queued, and application data starts with a context that
has encrypted nothing. -/
theorem Outbound.prefix_seq (hs : Outbound C s) (hl : Lifecycle s) (hdis : s.disposed = false) :
    s.history.sentBytes <+: s.history.outStream C ∧ ∀ ctx ∈ s.history.appCtx, ctx.seq = 0 := by
  have hunopened : s.mode ≠ .open → s.history.outStream C = s.history.hsRecords.flatten ∧
      ∀ ctx ∈ s.history.appCtx, ctx.seq = 0 := by
    intro hmode
    have hnone := (hs.unopened hmode).2
    refine ⟨?_, fun ctx hctx => ?_⟩
    · rw [History.outStream, hnone]
      exact List.append_nil _
    · rw [hnone] at hctx
      cases hctx
  cases hmode : s.mode with
  | off =>
    obtain ⟨hout, hctx⟩ := hunopened (by rw [hmode]; decide)
    rw [hout, (hs.absent hmode).2.1]
    exact ⟨List.prefix_refl _, hctx⟩
  | trying =>
    obtain ⟨hout, hctx⟩ := hunopened (by rw [hmode]; decide)
    obtain ⟨hs', h13⟩ := Option.ne_none_iff_exists'.1 (hl.context hdis (by rw [hmode]; decide))
    rw [hout, ← (hs.trying hmode hs' h13).1]
    exact ⟨List.prefix_append _ _, hctx⟩
  | «open» =>
    obtain ⟨ctx, hctx, hseq, hstream, -⟩ := hs.opened hmode
    rw [← hstream, hctx]
    refine ⟨List.prefix_append _ _, fun x hx => ?_⟩
    cases hx
    exact hseq

/-! ### A step of the handshake -/

theorem Outbound.dispatch (hs : Outbound C s) {hs' : HsCtx} {o : HsOut}
    (hh : Handshakes C s hs' o) : o.hs.Wf ∧ Dispatch C hs' o.toOutcome := by
  obtain ⟨rnd, ho⟩ := hh.out
  have hsend := (hs.trying hh.mode hs' hh.hs13).2
  have htrans := transition_step C s.serverName rnd s.recvBuf hsend.wf
  rw [← ho] at htrans
  exact ⟨htrans.wf hsend.wf, htrans.dispatch hsend.noCcs⟩

/-- After a step of the handshake what was sent and what is left in `msg_buf` are the records. -/
theorem Outbound.handshook_trying (hs : Outbound C s) {hs' : HsCtx} {o : HsOut}
    (hh : Handshakes C s hs' o) :
    (s.handshook o).history.sentBytes ++ o.hs.unsent =
        (s.handshook o).history.hsRecords.flatten ∧
      Sending C o.hs (s.handshook o).history.hsLog (s.handshook o).history.hsRecords := by
  obtain ⟨hstream, hsend⟩ := hs.trying hh.mode hs' hh.hs13
  obtain ⟨hw, hd⟩ := hs.dispatch hh
  refine ⟨?_, hsend.dispatched hw hd⟩
  rw [HsCtx.unsent_eq_nil hh.flushed, List.append_nil] at hstream
  show s.history.sentBytes ++ o.hs.unsent = (s.history.hsRecords ++ queuedRecord o).flatten
  rw [List.flatten_append, ← hstream, queuedRecord]
  have hflushed := hh.flushed
  cases hd with
  | nothing hres hlog hlen hoff hseq hstate hccs =>
    rw [if_neg hres, HsCtx.unsent_eq_nil (by omega)]
    rfl
  | hello msg hres hlog hrec hoff | finished msg hres hlog hrec hoff =>
    rw [if_pos hres, HsCtx.unsent, hoff]
    simp [slice]

theorem Outbound.opens (hs : Outbound C s) {hs' : HsCtx} {o : HsOut} (hh : Handshakes C s hs' o)
    (hsent : o.hs.msgLen ≤ o.hs.msgOffset) : Outbound C ((s.handshook o).opened o.hs) := by
  obtain ⟨hstream, hsend⟩ := hs.handshook_trying hh
  obtain ⟨hwrite, hacc, hfly⟩ := hs.early (.inr (.inr hh.state))
  obtain ⟨hchunks, -⟩ := hs.unopened (by rw [hh.mode]; decide)
  rw [HsCtx.unsent_eq_nil hsent, List.append_nil] at hstream
  refine ⟨fun h => (by cases h), fun h => (by cases h), fun h => ?_, fun h => absurd rfl h,
    fun h => (by cases h), fun _ => ?_, ⟨_, hsend.records⟩, fun _ => ?_⟩
  · obtain h | h | h := h <;> cases h
  · refine ⟨o.hs.writeCtx, rfl, hsend.seq, ?_, ?_⟩
    · have hunsent : ((s.handshook o).opened o.hs).unsent = [] := Link.unsent_eq_nil hfly
      have hout : ((s.handshook o).opened o.hs).history.outStream C =
          (s.handshook o).history.hsRecords.flatten := by
        show (s.handshook o).history.hsRecords.flatten ++
          ((appRecords C o.hs.writeCtx s.history.chunks).2.map applicationRecord).flatten = _
        rw [hchunks]
        simp [appRecords, encryptStream]
      rw [hunsent, List.append_nil, hout]
      exact hstream
    · intro x hx
      cases hx
      show o.hs.writeCtx = (appRecords C o.hs.writeCtx s.history.chunks).1
      rw [hchunks]
      rfl
  · show s.history.chunks.flatten ++ s.writeBuf.toList = s.history.accepted
    rw [hchunks, hwrite, hacc]
    rfl

/-- The fallback finds everything sent that was queued. -/
theorem Outbound.falls (hs : Outbound C s) {hs' : HsCtx} {o : HsOut} (hh : Handshakes C s hs' o)
    (hres : o.res = .fallback12) {t : Link}
    (hmode : t.mode = .off) (h13 : t.hs13 = none) (hdis : t.disabled = true)
    (hwrite : t.writeBuf = s.writeBuf) (hlen : t.sendLen = s.sendLen) (hoff : t.sendOff = s.sendOff)
    (hhist : ∃ opens closedEps, t.history = { (s.handshook o).history with opens, closedEps }) :
    Outbound C t := by
  obtain ⟨opens, closedEps, hhist⟩ := hhist
  obtain ⟨hstream, hsend⟩ := hs.handshook_trying hh
  have hnone : o.hs.unsent = [] := by
    obtain ⟨-, hd⟩ := hs.dispatch hh
    have hflushed := hh.flushed
    cases hd with
    | nothing _ _ hlen hoff => exact HsCtx.unsent_eq_nil (by omega)
    | hello msg hw | finished msg hw => rw [hres] at hw; cases hw
  rw [hnone, List.append_nil] at hstream
  have hearly := hs.early (.inr (.inr hh.state))
  have hunopened := hs.unopened (by rw [hh.mode]; decide)
  refine ⟨fun h => ?_, fun _ => ⟨h13, ?_, fun h => ?_⟩, fun _ => ?_, fun _ => ?_, fun h => ?_,
    fun h => ?_, ?_, fun h => absurd hmode h⟩
  · rw [hmode] at h
    cases h
  · rw [hhist]
    exact hstream
  · rw [hdis] at h
    cases h
  · rw [hwrite, hlen, hoff, hhist]
    exact hearly
  · rw [hhist]
    exact hunopened
  · rw [hmode] at h
    cases h
  · rw [hmode] at h
    cases h
  · rw [hhist]
    exact ⟨_, hsend.records⟩

/-! ### All effects -/

/-- Where data flows, the connection is past the handshake. -/
theorem not_early_of_up (hup : s.state.isUp = true) :
    ¬(s.state = .idle ∨ s.state = .connecting ∨ s.state = .handshaking) := by
  rintro (h | h | h) <;> rw [h] at hup <;> cases hup

theorem Outbound.starts (hs : Outbound C s) (hl : Lifecycle s) (hst : s.state = .connecting)
    (hdis : s.disabled = false) {hasEngine resuming : Bool} {offerTicket : Option SessionTicket}
    {age : ℕ} : Outbound C
      (s.connected .trying (some (Session.start hasEngine resuming offerTicket age).hs)) := by
  have hoff := hl.early (.inr hst)
  obtain ⟨hchunks, hctx⟩ := hs.unopened (by rw [hoff]; decide)
  obtain ⟨hwrite, hacc, -⟩ := hs.early (.inr (.inl hst))
  obtain ⟨hsent, hlog, hrecords⟩ := (hs.absent hoff).2.2 hdis
  refine ⟨fun _ => .inl rfl, fun h => (by cases h), fun _ => ⟨hwrite, hacc, Nat.le_refl 0⟩,
    fun _ => ⟨hchunks, hctx⟩, fun _ x hx => ?_, fun h => (by cases h), hs.records, fun _ => ?_⟩
  · cases hx
    show s.history.sentBytes ++ _ = s.history.hsRecords.flatten ∧
      Sending C _ s.history.hsLog s.history.hsRecords
    rw [History.sentBytes, hsent, hlog, hrecords]
    exact ⟨HsCtx.unsent_eq_nil (Nat.le_refl 0), sending_start C _ _ _ _⟩
  · show s.history.chunks.flatten ++ s.writeBuf.toList = s.history.accepted
    rw [hchunks, hwrite, hacc]
    rfl

theorem Outbound.sentHandshake (hs : Outbound C s) (hl : Lifecycle s) (hc : s.Carried)
    {hs' : HsCtx} (h13 : s.hs13 = some hs') (hlt : hs'.msgOffset < hs'.msgLen) {n : ℕ} :
    Outbound C { s.sends (hs'.unsent.take n) with
      hs13 := some (hs'.took (min n hs'.unsent.length)) } := by
  have hmode : s.mode = .trying := by
    cases h : s.mode with
    | off => exact absurd h hc.1
    | trying => rfl
    | «open» => exact absurd ((hl.opened h).2 hs' h13).2 (Nat.not_le.2 hlt)
  obtain ⟨hstream, hsend⟩ := hs.trying hmode hs' h13
  refine ⟨hs.tried, fun h => absurd h hc.1, hs.early, hs.unopened, fun _ x hx => ?_, fun h => ?_,
    hs.records, hs.queue⟩
  · cases hx
    refine ⟨?_, ⟨hsend.wf.hrrPending, hsend.wf.plainOk⟩, hsend.noCcs, hsend.seq, hsend.records⟩
    show (s.sends (hs'.unsent.take n)).history.sentBytes ++ _ = s.history.hsRecords.flatten
    rw [sentBytes_sends, List.append_assoc, hs'.take_unsent_append, hstream]
  · cases hmode.symm.trans h

/-- A record is built from the whole queue, behind all that is queued already. -/
theorem Outbound.built (hs : Outbound C s) (hf : s.Flowing) {hs' : HsCtx}
    (h13 : s.hs13 = some hs') (hle : s.sendLen ≤ s.sendOff) : Outbound C (s.built C hs') := by
  have hmode := hs.open_of_up hf.1 hf.2
  obtain ⟨ctx, hctx, hseq, hstream, hwrite⟩ := hs.opened hmode
  have hctx' := hwrite hs' h13
  have hconcat := appRecords_concat C ctx s.history.chunks s.writeBuf.toList
  refine ⟨fun h => ?_, fun h => absurd h hf.1, fun h => absurd h (not_early_of_up hf.2),
    fun h => absurd hmode h, fun h => ?_, fun _ => ⟨ctx, hctx, hseq, ?_, fun x hx => ?_⟩,
    hs.records, fun _ => ?_⟩
  · cases hmode.symm.trans h
  · cases hmode.symm.trans h
  · have hunsent : (s.built C hs').unsent = applicationRecord
        (tls13RecordEncrypt C hs'.writeCtx s.writeBuf.toList tls13CtApplicationData).2 :=
      take_blit_zero _ _
    have hout : (s.built C hs').history.outStream C = s.history.outStream C ++ applicationRecord
        (tls13RecordEncrypt C hs'.writeCtx s.writeBuf.toList tls13CtApplicationData).2 := by
      rw [hctx', History.outStream, History.outStream]
      show s.history.hsRecords.flatten ++ (match s.history.appCtx with
        | none => []
        | some ctx => _) = _
      rw [hctx]
      dsimp only [Link.built]
      rw [hconcat, List.map_append, List.flatten_append, List.append_assoc]
      simp [appRecords]
    rw [Link.unsent_eq_nil hle, List.append_nil] at hstream
    rw [hunsent, hout, ← hstream]
    rfl
  · cases hx
    dsimp only [Link.built]
    rw [hconcat, hctx']
  · dsimp only [Link.built]
    rw [Queue.toList_advance, List.drop_eq_nil_of_le (by simp), List.append_nil, List.flatten_append,
      List.flatten_singleton]
    exact hs.queue hf.1

theorem Outbound.effect (h : Effect C π s s') (hl : Lifecycle s) (hs : Outbound C s) :
    Outbound C s' := by
  have hnotTrying : s.mode ≠ .off → s.state.isUp = true → s.mode ≠ .trying := by
    intro hmode hup h
    rw [hs.open_of_up hmode hup] at h
    cases h
  -- a failure keeps everything the invariant reads but the state
  have hfailed : ∀ t : Link, t.state = .failed → t.mode = s.mode → t.disabled = s.disabled →
      t.hs13 = s.hs13 → t.writeBuf = s.writeBuf → t.sendRec = s.sendRec → t.sendLen = s.sendLen →
      t.sendOff = s.sendOff → t.history = s.history → Outbound C t := by
    intro t hst hmode hdis h13 hwrite hrec hlen hoff hhist
    have hunsent : t.unsent = s.unsent := by rw [Link.unsent, Link.unsent, hrec, hlen, hoff]
    refine ⟨fun _ => .inr hst, ?_, fun h => ?_, ?_, ?_, ?_, ?_, ?_⟩
    · rw [hmode, h13, hhist, hdis]
      exact hs.absent
    · rw [hst] at h
      obtain h | h | h := h <;> cases h
    · rw [hmode, hhist]
      exact hs.unopened
    · rw [hmode, h13, hhist]
      exact hs.trying
    · rw [hmode, h13, hhist, hunsent]
      exact hs.opened
    · rw [hhist]
      exact hs.records
    · rw [hmode, hwrite, hhist]
      exact hs.queue
  cases h
  -- effects that fail the connection
  case failed | notStarted | notOpened | setupFailed | aborted =>
    exact hfailed _ rfl rfl rfl rfl rfl rfl rfl rfl rfl
  -- effects that touch nothing the invariant reads
  case adopted | bound | untold | peerCloses | received | closeNoted | delivered | dataStaged | read =>
    exact ⟨hs.tried, hs.absent, hs.early, hs.unopened, hs.trying, hs.opened, hs.records, hs.queue⟩
  case started hst _ =>
    refine ⟨fun h => ?_, hs.absent, fun _ => hs.early (.inl hst), hs.unopened, hs.trying, hs.opened,
      hs.records, hs.queue⟩
    obtain h | h := hs.tried h <;> cases hst.symm.trans h
  case tls13Starts hst _ hdis => exact hs.starts hl hst hdis
  case tls12Starts hst _ =>
    have hoff := hl.early (.inr hst)
    have hne : s.mode ≠ .open := by rw [hoff]; decide
    have hearly := hs.early (.inr (.inl hst))
    exact ⟨fun h => (by cases h), fun _ => hs.absent hoff,
      fun _ => ⟨hearly.1, hearly.2.1, Nat.le_refl 0⟩, fun _ => hs.unopened hne,
      fun h => (by cases h), fun h => (by cases h), hs.records, fun h => absurd rfl h⟩
  case tls12Opened hst hmode _ =>
    refine ⟨fun h => ?_, hs.absent, fun h => ?_, hs.unopened, hs.trying, hs.opened, hs.records,
      hs.queue⟩
    · cases hmode.symm.trans h
    · obtain h | h | h := h <;> cases h
  case tls12Data hup hmode =>
    refine ⟨hs.tried, hs.absent, fun h => ?_, hs.unopened, hs.trying, hs.opened, hs.records,
      fun h => absurd hmode h⟩
    exact absurd h (not_early_of_up hup)
  case sentHandshake hs' n hc h13 hlt => exact hs.sentHandshake hl hc h13 hlt
  -- what was taken moves from the unsent part to the sent bytes
  case sentRecord n hc hlt =>
    have hmode := hs.open_of_inFlight hc hlt
    refine ⟨hs.tried, fun h => ?_, fun h => ?_, hs.unopened, fun h => ?_, fun _ => ?_, hs.records,
      hs.queue⟩
    · cases hmode.symm.trans h
    · exact absurd (hs.early h).2.2 (Nat.not_le.2 hlt)
    · cases hmode.symm.trans h
    · obtain ⟨ctx, hctx, hseq, hstream, hwrite⟩ := hs.opened hmode
      refine ⟨ctx, hctx, hseq, ?_, hwrite⟩
      have hsent := sentBytes_sends s (s.unsent.take n)
      have hrest := s.take_unsent_append n
      show (s.sends (s.unsent.take n)).history.sentBytes ++ _ = s.history.outStream C
      rw [hsent, List.append_assoc, ← hstream]
      exact congrArg (s.history.sentBytes ++ ·) hrest
  -- the buffer counts as empty: nothing of it was unsent
  case recordDone hc hle =>
    refine ⟨hs.tried, hs.absent, fun h => ?_, hs.unopened, hs.trying, fun hmode => ?_, hs.records,
      hs.queue⟩
    · exact ⟨(hs.early h).1, (hs.early h).2.1, Nat.le_refl 0⟩
    · obtain ⟨ctx, hctx, hseq, hstream, hwrite⟩ := hs.opened hmode
      rw [Link.unsent_eq_nil hle] at hstream
      refine ⟨ctx, hctx, hseq, ?_, hwrite⟩
      rw [Link.unsent_eq_nil (Nat.le_refl 0)]
      exact hstream
  case handshook hs' o bytes h hres _ =>
    obtain ⟨hstream, hsend⟩ := hs.handshook_trying h
    refine ⟨hs.tried, fun hmode => ?_, hs.early, hs.unopened, fun _ x hx => ?_, fun hmode => ?_,
      ⟨_, hsend.records⟩, hs.queue⟩
    · cases h.mode.symm.trans hmode
    · cases hx
      exact ⟨hstream, hsend⟩
    · cases h.mode.symm.trans hmode
  case handshakeFailed hs' o osErr h hres herr =>
    obtain ⟨hstream, hsend⟩ := hs.handshook_trying h
    refine ⟨fun _ => .inr rfl, fun hmode => ?_, fun hst => ?_, hs.unopened, fun _ x hx => ?_,
      fun hmode => ?_, ⟨_, hsend.records⟩, hs.queue⟩
    · cases h.mode.symm.trans hmode
    · obtain h | h | h := hst <;> cases h
    · cases hx
      exact ⟨hstream, hsend⟩
    · cases h.mode.symm.trans hmode
  case handshakeDone h hdone hsent _ => exact hs.opens h hsent
  case noFallback o _ h hres _ =>
    obtain ⟨closedEps, hhist⟩ := (s.handshook o).closeEp_history
    exact hs.falls h hres rfl rfl rfl (Link.closeEp_writeBuf _) (Link.closeEp_sendLen _)
      (Link.closeEp_sendOff _) ⟨_, closedEps, hhist⟩
  case fallback o h hres _ =>
    obtain ⟨closedEps, hhist⟩ := (s.handshook o).closeEp_history
    exact hs.falls h hres rfl rfl rfl (Link.closeEp_writeBuf _) (Link.closeEp_sendLen _)
      (Link.closeEp_sendOff _)
      ⟨_, closedEps, congrArg (fun h => { h with opens := h.opens + 1 }) hhist⟩
  -- reading a record leaves the write context as it was
  case recordTaken hs' hs'' n hf h13 hle hframe =>
    have hmode := hs.open_of_up hf.1 hf.2
    have hwrite : hs''.writeCtx = hs'.writeCtx := by rw [hframe]
    refine ⟨hs.tried, fun h => ?_, hs.early, hs.unopened, fun h => ?_, fun _ => ?_, hs.records,
      hs.queue⟩
    · exact absurd h hf.1
    · cases hmode.symm.trans h
    · obtain ⟨ctx, hctx, hseq, hstream, hctx'⟩ := hs.opened hmode
      refine ⟨ctx, hctx, hseq, hstream, fun x hx => ?_⟩
      cases hx
      rw [hwrite]
      exact hctx' hs' h13
  case built hs' hf h13 hle => exact hs.built hf h13 hle
  case closed hst _ _ _ =>
    have hmode : s.mode ≠ .trying := by
      intro h
      obtain hup | ⟨-, hoff⟩ := hst
      · exact hnotTrying (by rw [h]; decide) hup h
      · cases hoff.symm.trans h
    refine ⟨fun h => absurd h hmode, hs.absent, fun h => ?_, hs.unopened, hs.trying, hs.opened,
      hs.records, hs.queue⟩
    obtain h | h | h := h <;> cases h
  case released hup hmode _ =>
    obtain ⟨release, hhist⟩ := s.release_history
    refine ⟨fun h => ?_, fun h => ?_, fun h => ?_, fun h => absurd hmode h, fun h => ?_, fun h => ?_,
      ?_, fun h => ?_⟩
    · cases hmode.symm.trans h
    · cases hmode.symm.trans h
    · obtain h | h | h := h <;> cases h
    · cases hmode.symm.trans h
    all_goals rw [hhist]
    · exact hs.opened hmode
    · exact hs.records
    · exact hs.queue h
  -- only the TLS 1.2 path closes in two steps
  case closing hup hmode =>
    have hoff : s.mode = .off := by
      by_contra h
      exact hmode (hs.open_of_up h hup)
    refine ⟨fun h => ?_, hs.absent, fun h => ?_, hs.unopened, hs.trying, hs.opened, hs.records,
      hs.queue⟩
    · cases hoff.symm.trans h
    · obtain h | h | h := h <;> cases h
  -- `OSTLS_Write`: the accepted bytes are the ones queued
  case wrote buf hst =>
    refine ⟨hs.tried, hs.absent, fun h => ?_, hs.unopened, hs.trying, hs.opened, hs.records,
      fun hmode => ?_⟩
    · exact absurd h (not_early_of_up (by rw [hst]; rfl))
    · show s.history.chunks.flatten ++ (s.writeBuf.append buf).toList = _
      rw [Queue.toList_append, ← List.append_assoc, hs.queue hmode]

/-! ### All runs -/

/-- All that was sent went to one endpoint, which a connection over TLS 1.3 keeps. -/
def OneEndpoint (s : Link) : Prop :=
  ∃ ep, (∀ x ∈ s.history.sent, x.1 = ep) ∧
    (s.mode ≠ .off → s.ep = ep ∧ s.history.opens = s.history.completions)

theorem OneEndpoint.effect (h : Effect C π s s') (hdis : s.disposed = false) (hl : Lifecycle s)
    (he : Endpoints s) (ho : Outbound C s) (hs : OneEndpoint s) : OneEndpoint s' := by
  obtain ⟨ep, hsent, hep⟩ := hs
  have hsends : ∀ bytes, s.Carried → ∀ x ∈ (s.sends bytes).history.sent, x.1 = ep := by
    intro bytes hc x hx
    obtain hx | hx := List.mem_append.1 hx
    · exact hsent x hx
    · rw [List.mem_singleton.1 hx]
      exact (hep hc.1).1
  have hearly : s.state = .idle ∨ s.state = .connecting → ¬s.mode ≠ .off :=
    fun h hne => hne (hl.early h)
  cases h
  case tls13Starts hst hph hdisabled =>
    have hnone := ((ho.absent (hl.early (.inr hst))).2.2 hdisabled).1
    refine ⟨s.ep, fun x hx => ?_, fun _ => ⟨rfl, (he.adopted hdis (.inl ⟨hst, hph⟩)).2⟩⟩
    rw [show (s.connected _ _).history.sent = [] from hnone] at hx
    cases hx
  case tls12Starts => exact ⟨ep, hsent, fun h => absurd rfl h⟩
  case started hst _ => exact ⟨ep, hsent, fun h => absurd h (hearly (.inl hst))⟩
  case sentHandshake hc _ _ | sentRecord hc _ => exact ⟨ep, hsends _ hc, hep⟩
  case noFallback o _ _ _ _ | fallback o _ _ _ =>
    refine ⟨ep, fun x hx => ?_, fun h => absurd rfl h⟩
    have hx : x ∈ (s.handshook o).closeEp.history.sent := hx
    rw [Link.closeEp_sent] at hx
    exact hsent x hx
  case handshakeDone h _ _ _ => exact ⟨ep, hsent, fun _ => hep (by rw [h.mode]; decide)⟩
  case released =>
    obtain ⟨release, hhist⟩ := s.release_history
    exact ⟨ep, by rw [hhist]; exact hsent, by rw [hhist]; exact hep⟩
  all_goals exact ⟨ep, hsent, hep⟩

/-- What holds of a connection in use. -/
structure Sends (C : Crypto) (s : Link) : Prop where
  lifecycle : Lifecycle s
  endpoints : Endpoints s
  outbound : s.disposed = false → Outbound C s
  oneEndpoint : s.disposed = false → OneEndpoint s

theorem Sends.effect (h : Effect C π s s') (hdis : s.disposed = false) (hs : Sends C s) :
    Sends C s' where
  lifecycle := hs.lifecycle.effect h
  endpoints := hs.endpoints.effect h hdis
  outbound _ := (hs.outbound hdis).effect h hs.lifecycle
  oneEndpoint _ := (hs.oneEndpoint hdis).effect h hdis hs.lifecycle hs.endpoints (hs.outbound hdis)

theorem Sends.dispose (hs : Sends C s) : Sends C s.dispose := by
  cases hdis : s.disposed with
  | true =>
    have hsame : s.dispose = s := if_pos hdis
    rw [hsame]
    exact hs
  | false =>
    have hfreed : s.dispose.disposed = true := by
      rw [Link.dispose, hdis]
      rfl
    exact ⟨hs.lifecycle.dispose, hs.endpoints.dispose, fun h => by simp [hfreed] at h,
      fun h => by simp [hfreed] at h⟩

theorem Sends.notified (hs : Sends C s) {cookie : Option Endpoint}
    (hdue : s.history.completions < s.history.opens)
    (hfresh : ∀ ep ∈ cookie, ep ∉ s.history.delivered) :
    Sends C (s.notified (.openComplete cookie)) where
  lifecycle := hs.lifecycle.notified _
  endpoints := hs.endpoints.notified hdue hfresh
  outbound hdis :=
    have h := hs.outbound hdis
    ⟨h.tried, h.absent, h.early, h.unopened, h.trying, h.opened, h.records, h.queue⟩
  oneEndpoint hdis := by
    obtain ⟨ep, hsent, hep⟩ := hs.oneEndpoint hdis
    -- over TLS 1.3 no open is in flight
    exact ⟨ep, hsent, fun hmode => absurd (hep hmode).2 (Nat.ne_of_gt hdue)⟩

theorem sends_init (C : Crypto) (G : Engine E) (config : OstlsConfig) :
    Sends C (Conn.init G config).link where
  lifecycle := lifecycle_init G config
  endpoints := endpoints_init G config
  outbound _ := outbound_init C G config
  oneEndpoint _ := ⟨none, fun _ h => (by cases h), fun h => absurd rfl h⟩

theorem sends_of_reach {ok : Proc E → Action → Prop} {config : OstlsConfig} {tickets : TicketCache}
    {sessions : SessCache} {log : List ResumeEvent} {p : Proc E}
    (h : Reach (Proc.step C G) ok (Proc.start G config tickets sessions log) p)
    (hok : ∀ p a, ok p a → OtLawful p a) : Sends C p.conn.link := by
  refine link_invariant h (sends_init C G config) (fun p a _ _ => Policy.any_meets C G p.conn a)
    (fun hdis hs he => hs.effect he hdis) (fun _ _ hs => hs.dispose) ?_
  intro p event result hlawful hs
  have hlawful := hok _ _ hlawful
  cases event with
  | openComplete cookie => exact hs.notified hlawful.1 hlawful.2
  | _ => exact hs

/-! ### A buffer is not written before it is sent -/

/-- The handshake context is as it was, and what was to be sent of `msg_buf` is sent or still
there. -/
structure MessageKept (s : Link) (hs : HsCtx) (t : Link) : Prop where
  context : ∃ hs', t.hs13 = some hs' ∧ hs' = { hs with msgOffset := hs'.msgOffset } ∧
    s.history.sentBytes ++ hs.unsent <+: t.history.sentBytes ++ hs'.unsent
  log : t.history.hsLog = s.history.hsLog
  records : t.history.hsRecords = s.history.hsRecords

/-- `t13_send_rec` holds what it held, and what was to be sent of it is sent or still there. -/
structure RecordKept (s t : Link) : Prop where
  buf : t.sendRec = s.sendRec
  chunks : t.history.chunks = s.history.chunks
  unsent : s.history.sentBytes ++ s.unsent <+: t.history.sentBytes ++ t.unsent

/-- On the way from `s` to `s'`, the two buffers are not written, and no step of the handshake is
taken, before all of them is sent. -/
def SentFirst (C : Crypto) (s s' : Link) : Prop :=
  (∀ hs, s.hs13 = some hs → MessageKept s hs s' ∨ ∃ t, Effects C .any s t ∧ MessageKept s hs t ∧
    s.history.sentBytes ++ hs.unsent <+: t.history.sentBytes ∧ Effects C .any t s') ∧
  (RecordKept s s' ∨ ∃ t, Effects C .any s t ∧ RecordKept s t ∧
    s.history.sentBytes ++ s.unsent <+: t.history.sentBytes ∧ Effects C .any t s')

theorem Effect.message_kept {t t' : Link} {hs : HsCtx} (h : Effect C π t t') (hl : Lifecycle t)
    (ho : Outbound C t) (hk : MessageKept s hs t) :
    MessageKept s hs t' ∨ s.history.sentBytes ++ hs.unsent <+: t.history.sentBytes := by
  obtain ⟨⟨hs', h13, hsame, hpre⟩, hlog, hrecords⟩ := hk
  have hflushed : hs'.msgLen ≤ hs'.msgOffset →
      s.history.sentBytes ++ hs.unsent <+: t.history.sentBytes := by
    intro h
    rw [HsCtx.unsent_eq_nil h, List.append_nil] at hpre
    exact hpre
  have hsteps : ∀ {x : HsCtx} {o : HsOut}, Handshakes C t x o →
      s.history.sentBytes ++ hs.unsent <+: t.history.sentBytes := by
    intro x o hh
    cases h13.symm.trans hh.hs13
    exact hflushed hh.flushed
  have hopen : t.mode = .open → s.history.sentBytes ++ hs.unsent <+: t.history.sentBytes :=
    fun hmode => hflushed ((hl.opened hmode).2 _ h13).2
  have hfirst : t.state = .connecting → False := by
    intro hst
    have hnone := (ho.absent (hl.early (.inr hst))).1
    rw [h13] at hnone
    cases hnone
  cases h
  case handshook h _ _ | handshakeFailed h _ _ | handshakeDone h _ _ _ | noFallback h _ _ |
      fallback h _ _ =>
    exact .inr (hsteps h)
  case tls13Starts hst _ _ | tls12Starts hst _ => exact (hfirst hst).elim
  case sentHandshake x n hc hx hlt =>
    cases h13.symm.trans hx
    refine .inl ⟨⟨_, rfl, ?_, ?_⟩, hlog, hrecords⟩
    · rw [hsame]
      rfl
    · show _ <+: (t.sends (hs'.unsent.take n)).history.sentBytes ++ _
      rw [sentBytes_sends, List.append_assoc, hs'.take_unsent_append]
      exact hpre
  case sentRecord hc hlt => exact .inr (hopen (ho.open_of_inFlight hc hlt))
  case recordTaken hf _ _ _ | built hf _ _ => exact .inr (hopen (ho.open_of_up hf.1 hf.2))
  case released hmode _ => exact .inr (hopen hmode)
  all_goals exact .inl ⟨⟨hs', h13, hsame, hpre⟩, hlog, hrecords⟩

theorem Effect.record_kept {t t' : Link} (h : Effect C π t t') (hl : Lifecycle t)
    (ho : Outbound C t) (hk : RecordKept s t) :
    RecordKept s t' ∨ s.history.sentBytes ++ s.unsent <+: t.history.sentBytes := by
  obtain ⟨hbuf, hchunks, hpre⟩ := hk
  have hsent : t.sendLen ≤ t.sendOff →
      s.history.sentBytes ++ s.unsent <+: t.history.sentBytes := by
    intro h
    rw [Link.unsent_eq_nil h, List.append_nil] at hpre
    exact hpre
  have hearly : t.state = .idle ∨ t.state = .connecting ∨ t.state = .handshaking →
      s.history.sentBytes ++ s.unsent <+: t.history.sentBytes := fun h => hsent (ho.early h).2.2
  cases h
  case tls13Starts hst _ _ | tls12Starts hst _ => exact .inr (hearly (.inr (.inl hst)))
  case sentHandshake x n hc hx hlt =>
    -- handshake bytes are left, so nothing else is
    have hnone := hearly (.inr (.inr (hc.2.resolve_right fun hup =>
      absurd ((hl.opened (ho.open_of_up hc.1 hup)).2 x hx).2 (Nat.not_le.2 hlt))))
    refine .inl ⟨hbuf, hchunks, ?_⟩
    show _ <+: (t.sends (x.unsent.take n)).history.sentBytes ++ _
    rw [sentBytes_sends, List.append_assoc]
    exact hnone.trans (List.prefix_append _ _)
  case sentRecord n hc hlt =>
    refine .inl ⟨hbuf, hchunks, ?_⟩
    show _ <+: (t.sends (t.unsent.take n)).history.sentBytes ++ _
    rw [sentBytes_sends, List.append_assoc]
    exact (t.take_unsent_append n).symm ▸ hpre
  case recordDone hc hle =>
    exact .inl ⟨hbuf, hchunks, (hsent hle).trans (List.prefix_append _ _)⟩
  case built hf hx hle => exact .inr (hsent hle)
  case noFallback h _ _ | fallback h _ _ => exact .inr (hearly (.inr (.inr h.state)))
  case released =>
    obtain ⟨release, hhist⟩ := t.release_history
    refine .inl ⟨hbuf, ?_, ?_⟩ <;> rw [hhist]
    · exact hchunks
    · exact hpre
  all_goals exact .inl ⟨hbuf, hchunks, hpre⟩

/-- Every sequence of effects writes the buffers only when they are sent. -/
theorem Effects.sentFirst (h : Effects C .any s s') (hs : Sends C s) (hdis : s.disposed = false) :
    SentFirst C s s' := by
  have hkeeps : ∀ {t}, Effects C .any s t → Lifecycle t ∧ Outbound C t := by
    intro t ht
    have hsends : Sends C t := ht.invariant hdis hs fun hdis hs he => hs.effect he hdis
    exact ⟨hsends.lifecycle, hsends.outbound (ht.disposed.trans hdis)⟩
  constructor
  · intro hs' h13
    exact h.until ⟨⟨_, h13, rfl, List.prefix_refl _⟩, rfl, rfl⟩
      fun ht hk he => he.message_kept (hkeeps ht).1 (hkeeps ht).2 hk
  · exact h.until ⟨rfl, rfl, List.prefix_refl _⟩
      fun ht hk he => he.record_kept (hkeeps ht).1 (hkeeps ht).2 hk

theorem sentFirst_step {p : Proc E} (hs : Sends C p.conn.link) (hdis : p.conn.disposed = false)
    {a : Action} (ha : a ≠ .dispose) : SentFirst C p.conn.link (p.step C G a).conn.link := by
  by_cases hn : ∃ event result, a = .notify event result
  · obtain ⟨event, result, rfl⟩ := hn
    have hlink : (p.step C G (.notify event result)).conn.link = p.conn.link.notified event :=
      link_ostlsNotifier ..
    rw [hlink]
    constructor
    · intro hs' h13
      cases event <;> exact .inl ⟨⟨_, h13, rfl, List.prefix_refl _⟩, rfl, rfl⟩
    · cases event <;> exact .inl ⟨rfl, rfl, List.prefix_refl _⟩
  · exact (effects_step ha (fun event result h => hn ⟨_, _, h⟩)
      (Policy.any_meets C G p.conn a)).sentFirst hs hdis

/-- **The outbound stream.**  In every reached state, what `OTSnd` has taken went to one endpoint and
is a prefix of the handshake records of the messages in the log, followed by the records of the
chunks taken from the write queue, encrypted in order from sequence number 0; on the TLS 1.3 path
these chunks and the queue are what `OSTLS_Write` accepted.  The queue is within its bounds, and
no buffer is written, and no step of the handshake taken, before what is in it is sent. -/
theorem outbound_exact {config : OstlsConfig} {tickets : TicketCache} {sessions : SessCache}
    {log : List ResumeEvent} {p : Proc E}
    (h : Reach (Proc.step C G) OtLawful (Proc.start G config tickets sessions log) p)
    (hdis : p.conn.disposed = false) :
    (∃ ep, ∀ x ∈ p.conn.history.sent, x.1 = ep) ∧
      p.conn.history.sentBytes <+: p.conn.history.outStream C ∧
      (∃ done, HandshakeRecords C (sentMessages p.conn.history.hsLog) p.conn.history.hsRecords done) ∧
      (∀ ctx ∈ p.conn.history.appCtx, ctx.seq = 0) ∧
      (p.conn.tls13Mode ≠ .off →
        p.conn.history.chunks.flatten ++ p.conn.writeBuf.toList = p.conn.history.accepted) ∧
      p.conn.writeBuf.pos + p.conn.writeBuf.avail ≤ ostlsWriteBufSize ∧
      (p.conn.writeBuf.avail = 0 → p.conn.writeBuf.pos = 0) ∧
      ∀ a, a ≠ .dispose → SentFirst C p.conn.link (p.step C G a).conn.link := by
  have hs : Sends C p.conn.link := sends_of_reach h fun _ _ => id
  have ho := hs.outbound hdis
  obtain ⟨ep, hep, -⟩ := hs.oneEndpoint hdis
  obtain ⟨hpref, hseq⟩ := ho.prefix_seq hs.lifecycle hdis
  exact ⟨⟨ep, hep⟩, hpref, ho.records, hseq, ho.queue, p.conn.writeBuf.fits,
    p.conn.writeBuf.rewound, fun a ha => sentFirst_step hs hdis ha⟩

/-- A connection writes two bytes, and `OTSnd` takes the first six bytes of the record. -/
theorem outbound_exact_opensTls13 :
    let p := play (Proc.step .transparent waitingEngine) freshProc (opensTls13 ++
      [fun _ => .write [104, 105], fun _ => .turn sendEnv,
        fun _ => .turn { sendEnv with sendApp := ⟨.dataxfer, .sent 6⟩ }])
    p.conn.history.chunks = [[104, 105]] ∧ p.conn.link.unsent.length = 18 ∧
      p.conn.history.sentBytes <+: p.conn.history.outStream .transparent := by
  intro p
  have hreach : Reach (Proc.step .transparent waitingEngine) OtLawful freshProc p :=
    reach_script _ (by decide +kernel)
  obtain ⟨hchunks, hunsent, hdis⟩ : p.conn.history.chunks = [[104, 105]] ∧
      p.conn.link.unsent.length = 18 ∧ p.conn.disposed = false := by decide +kernel
  exact ⟨hchunks, hunsent, (outbound_exact hreach hdis).2.1⟩

end MacTLS
