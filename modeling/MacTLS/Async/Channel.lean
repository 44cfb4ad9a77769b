import MacTLS.Async.Isolation
import MacTLS.Async.Outbound
import MacTLS.Handshake.Agreement
import MacTLS.Handshake.Flight
import MacTLS.Handshake.Ledger

/-!
# What the peer reads

A peer that knows the secrets of a finished handshake takes the bytes that `OTSnd` was given,
splits them into records and decrypts these in order.  It gets what the application wrote.

* `KeysFor` : the write context that the schedule has at the end of a logged handshake;
* `Sealed` : an open connection has encrypted with this one, behind its handshake records;
* `splitRecords_prefix` : the whole records in a part of a stream;
* `sends_exactly` : what the peer reads, for every connection of every run.
-/

namespace MacTLS

open Lib

variable {E : Type} {C : Crypto} {G : Engine E} {π : Policy} {s s' : Link}

/-! ### An open connection -/

/-- The write context at the end of a handshake with this log: the one that the key schedule has
for the ServerHello, the shared secret and the PSK of its run, and for the transcript of the log. -/
def KeysFor (C : Crypto) (hostname : Bytes) (log : List HsEvent) (ctx : RecordCtx) : Prop :=
  ∃ hs, AgreedKeys C hostname ⟨hs, log⟩ ∧ ctx = hs.writeCtx

/-- The handshake of a connection, its keys, and what it has sent by the end. -/
structure Sealed (C : Crypto) (s : Link) : Prop where
  trying : s.state = .handshaking → s.mode = .trying → ∀ hs, s.hs13 = some hs →
    HandshakeRun C s.serverName ⟨hs, s.history.hsLog⟩
  keys : s.mode = .open → ∃ ctx, s.history.appCtx = some ctx ∧
    KeysFor C s.serverName s.history.hsLog ctx
  flushed : s.mode = .open → s.history.hsRecords.flatten <+: s.history.sentBytes
  short : ∀ chunk ∈ s.history.chunks, chunk.length ≤ ostlsWriteBufSize

theorem sealed_init (C : Crypto) (G : Engine E) (config : OstlsConfig) :
    Sealed C (Conn.init G config).link where
  trying h := by cases h
  keys h := by cases h
  flushed h := by cases h
  short _ h := by cases h

theorem Sealed.sends (hs : Sealed C s) (bytes : Bytes) : Sealed C (s.sends bytes) := by
  refine ⟨hs.trying, hs.keys, fun hmode => ?_, hs.short⟩
  rw [sentBytes_sends]
  exact (hs.flushed hmode).trans (List.prefix_append _ _)

/-- A step of the handshake, from a run to a session. -/
theorem HandshakeRun.shook {serverName recv : Bytes} {rnd : ClientRandom} {hs : HsCtx}
    {log : List HsEvent} (h : HandshakeRun C serverName ⟨hs, log⟩)
    (hl : Live C serverName ⟨hs, log⟩ ⟨recv, rnd⟩) :
    HandshakeRun C serverName ⟨(tls13HandshakeStep C serverName rnd hs recv).hs,
      log ++ (tls13HandshakeStep C serverName rnd hs recv).log⟩ := h.step hl

/-- The last step of a run gives the keys. -/
theorem HandshakeRun.completes {serverName recv : Bytes} {rnd : ClientRandom} {hs : HsCtx}
    {log : List HsEvent} (h : HandshakeRun C serverName ⟨hs, log⟩)
    (hdone : (tls13HandshakeStep C serverName rnd hs recv).hs.state = .complete) :
    ∃ n, AgreedKeys C serverName
      ⟨{ (tls13HandshakeStep C serverName rnd hs recv).hs with msgOffset := n },
        log ++ (tls13HandshakeStep C serverName rnd hs recv).log⟩ := by
  have hw : hs.Wf := (shaken_of_run h).messages.wf
  have hlive : Live C serverName ⟨hs, log⟩ ⟨recv, rnd⟩ := live_of_complete hw hdone
  exact agreedKeys_of_run (h.step hlive) hdone

/-- The step with which a handshake is complete. -/
theorem Sealed.opens (hs : Sealed C s) (ho : Outbound C s) {hs' : HsCtx} {o : HsOut}
    (hh : Handshakes C s hs' o) (hdone : o.hs.state = .complete)
    (hsent : o.hs.msgLen ≤ o.hs.msgOffset) : Sealed C ((s.handshook o).opened o.hs) := by
  obtain ⟨hstream, -⟩ := ho.handshook_trying hh
  rw [HsCtx.unsent_eq_nil hsent, List.append_nil] at hstream
  refine ⟨fun h => (by cases h), fun _ => ⟨_, rfl, ?_⟩, fun _ => ?_, hs.short⟩
  · obtain ⟨rnd, rfl⟩ := hh.out
    obtain ⟨n, hkeys⟩ := (hs.trying hh.state hh.mode hs' hh.hs13).completes hdone
    exact ⟨_, hkeys, rfl⟩
  · exact (Eq.symm hstream) ▸ List.prefix_refl _

theorem Sealed.effect (h : Effect C π s s') (hl : Lifecycle s) (ho : Outbound C s)
    (hs : Sealed C s) : Sealed C s' := by
  cases h
  case tls13Starts hst _ hdis =>
    refine ⟨fun _ _ x hx => ?_, fun h => (by cases h), fun h => (by cases h), hs.short⟩
    cases hx
    -- no handshake was logged before
    obtain ⟨-, -, hfresh⟩ := ho.absent (hl.early (.inr hst))
    have hlog : s.history.hsLog = [] := (hfresh hdis).2.1
    show HandshakeRun C s.serverName ⟨_, s.history.hsLog⟩
    rw [hlog]
    exact ⟨_, _, _, _, .refl⟩
  case tls12Starts =>
    exact ⟨fun _ h => (by cases h), fun h => (by cases h), fun h => (by cases h), hs.short⟩
  case sentHandshake hs' n hc h13 hlt =>
    obtain ⟨-, hkeys, hflushed, hshort⟩ := hs.sends (hs'.unsent.take n)
    refine ⟨fun hst hmode x hx => ?_, hkeys, hflushed, hshort⟩
    cases hx
    exact (hs.trying hst hmode hs' h13).sent _
  case sentRecord n _ _ =>
    obtain ⟨htrying, hkeys, hflushed, hshort⟩ := hs.sends (s.unsent.take n)
    exact ⟨htrying, hkeys, hflushed, hshort⟩
  case handshook o bytes hh hlive _ =>
    have hmode := hh.mode
    obtain ⟨rnd, rfl⟩ := hh.out
    refine ⟨fun _ _ x hx => ?_, fun h => ?_, fun h => ?_, hs.short⟩
    · cases hx
      exact (hs.trying hh.state hmode _ hh.hs13).shook hlive
    · cases hmode.symm.trans h
    · cases hmode.symm.trans h
  case handshakeFailed o _ hh _ _ =>
    refine ⟨fun h => (by cases h), fun h => ?_, fun h => ?_, hs.short⟩
    · cases hh.mode.symm.trans h
    · cases hh.mode.symm.trans h
  case handshakeDone hh hdone hsent _ => exact hs.opens ho hh hdone hsent
  case noFallback hh _ _ | fallback hh _ _ =>
    refine ⟨fun h => (by cases h), fun h => (by cases h), fun h => (by cases h),
      fun chunk hmem => hs.short chunk ?_⟩
    exact (Link.closeEp_chunks (s.handshook _)) ▸ hmem
  case recordTaken hf _ _ _ =>
    refine ⟨fun _ h => ?_, hs.keys, hs.flushed, hs.short⟩
    cases (ho.open_of_up hf.1 hf.2).symm.trans h
  case built hf _ _ =>
    have hopen := ho.open_of_up hf.1 hf.2
    refine ⟨fun _ h => ?_, hs.keys, hs.flushed, fun chunk hmem => ?_⟩
    · cases hopen.symm.trans h
    · obtain hmem | hmem := List.mem_append.1 hmem
      · exact hs.short chunk hmem
      · rw [List.mem_singleton.1 hmem, Queue.length_toList]
        have := s.writeBuf.fits
        omega
  case released =>
    obtain ⟨release, hhist⟩ := s.release_history
    refine ⟨fun h => (by cases h), fun hmode => ?_, fun hmode => ?_, ?_⟩ <;> rw [hhist]
    · exact hs.keys hmode
    · exact hs.flushed hmode
    · exact hs.short
  -- the others leave the handshake as it is, or end it
  all_goals
    refine ⟨fun hst => ?_, hs.keys, hs.flushed, hs.short⟩
    first
    | exact hs.trying hst
    | cases hst

theorem Sealed.dispose (hs : Sealed C s) : Sealed C s.dispose := by
  unfold Link.dispose
  split_ifs
  · exact hs
  · have hhist := s.closeEp_history
    obtain ⟨closedEps, hhist⟩ := hhist
    refine ⟨fun _ _ _ h => (by cases h), fun hmode => ?_, fun hmode => ?_, ?_⟩
    · have hopen : s.mode = .open := s.closeEp_mode.symm.trans hmode
      have hname : s.closeEp.serverName = s.serverName :=
        s.closeEp_frame (·.serverName) fun _ _ _ => rfl
      dsimp only
      rw [hhist, hname]
      exact hs.keys hopen
    · have hopen : s.mode = .open := s.closeEp_mode.symm.trans hmode
      dsimp only
      rw [hhist]
      exact hs.flushed hopen
    · dsimp only
      rw [hhist]
      exact hs.short

theorem sealed_of_reach {ok : Proc E → Action → Prop} {config : OstlsConfig}
    {tickets : TicketCache} {sessions : SessCache} {log : List ResumeEvent} {p : Proc E}
    (h : Reach (Proc.step C G) ok (Proc.start G config tickets sessions log) p)
    (hok : ∀ p a, ok p a → OtLawful p a) : Sealed C p.conn.link := by
  have hboth : Sends C p.conn.link ∧ Sealed C p.conn.link := by
    refine link_invariant (P := fun s => Sends C s ∧ Sealed C s) h
      ⟨sends_init C G config, sealed_init C G config⟩
      (fun p a _ _ => Policy.any_meets C G p.conn a) ?_ ?_ ?_
    · rintro s s' hdis ⟨hsends, hs⟩ he
      exact ⟨hsends.effect he hdis, hs.effect he hsends.lifecycle (hsends.outbound hdis)⟩
    · rintro p - ⟨hsends, hs⟩
      exact ⟨hsends.dispose, hs.dispose⟩
    · rintro p event result hlawful ⟨hsends, hs⟩
      have hlawful := hok _ _ hlawful
      cases event with
      | openComplete cookie =>
        exact ⟨hsends.notified hlawful.1 hlawful.2, ⟨hs.trying, hs.keys, hs.flushed, hs.short⟩⟩
      | _ => exact ⟨hsends, hs⟩
  exact hboth.2

/-! ### Parts of a stream -/

theorem isRecord_applicationRecord {payload : Bytes} (h : payload.length < 65536) :
    IsRecord (applicationRecord payload) := by
  obtain ⟨hlen, htype, hfield, -⟩ := applicationRecord_fields h
  exact ⟨by omega, by rw [hlen, hfield], .inr htype⟩

theorem payloads_applicationRecords (cs : List Bytes) :
    payloads (cs.map applicationRecord) = cs := by
  induction cs with
  | nil => rfl
  | cons c cs ih =>
    have hcons : payloads ((c :: cs).map applicationRecord) =
        (applicationRecord c).drop 5 :: payloads (cs.map applicationRecord) := rfl
    rw [hcons, ih]
    rfl

/-- A part of a stream of records consists of the first of them, and a part of the next one. -/
theorem splitRecords_prefix {records : List Bytes} (h : ∀ r ∈ records, IsRecord r) {b : Bytes}
    (hb : b <+: records.flatten) {fuel : ℕ} (hfuel : b.length ≤ fuel) :
    ∃ k ≤ records.length, splitRecords fuel b = records.take k ∧
      (records.take k).flatten <+: b ∧
      ∀ r ∈ records[k]?, b.length < (records.take k).flatten.length + r.length := by
  induction records generalizing b fuel with
  | nil =>
    obtain rfl : b = [] := List.prefix_nil.1 hb
    refine ⟨0, Nat.le_refl 0, ?_, List.prefix_refl _, fun r hr => by cases hr⟩
    cases fuel with
    | zero => rfl
    | succ fuel => exact if_neg fun hrec => absurd hrec.1 (by decide)
  | cons r rs ih =>
    obtain ⟨hr, hrs⟩ := List.forall_mem_cons.1 h
    rw [List.flatten_cons] at hb
    by_cases hlen : r.length ≤ b.length
    · -- the first record is whole
      obtain ⟨rest, rfl⟩ := List.prefix_of_prefix_length_le (List.prefix_append r rs.flatten) hb hlen
      have hrest : rest <+: rs.flatten := (List.prefix_append_right_inj r).1 hb
      have h5 := hr.1
      rw [List.length_append] at hfuel
      obtain ⟨fuel, rfl⟩ : ∃ n, fuel = n + 1 := ⟨fuel - 1, by omega⟩
      have htake : 5 + getU16 (r ++ rest) 3 = r.length := by
        rw [getU16_append (by omega), hr.2.1]
      have hfuel' : rest.length ≤ fuel := by omega
      obtain ⟨k, hk, hsplit, hpref, hmore⟩ := ih hrs hrest hfuel'
      refine ⟨k + 1, Nat.succ_le_succ hk, ?_, ?_, fun x hx => ?_⟩
      · rw [splitRecords, if_pos (hasRecord_of_isRecord hr), htake, List.take_left, List.drop_left,
          hsplit, List.take_succ_cons]
      · rw [List.take_succ_cons, List.flatten_cons]
        exact (List.prefix_append_right_inj r).2 hpref
      · have := hmore x hx
        rw [List.take_succ_cons, List.flatten_cons, List.length_append, List.length_append]
        omega
    · -- it is not
      have hshort : b <+: r :=
        List.prefix_of_prefix_length_le hb (List.prefix_append r rs.flatten) (by omega)
      refine ⟨0, Nat.zero_le _, ?_, List.nil_prefix, fun x hx => ?_⟩
      · cases fuel with
        | zero => rfl
        | succ fuel =>
          refine if_neg fun hrec => ?_
          obtain ⟨t, rfl⟩ := hshort
          have hlen' := hr.2.1
          rw [getU16_append (by have := hrec.1; omega)] at hlen'
          have := hrec.2
          omega
      · cases hx
        simpa using hlen

/-- Records are encrypted one by one. -/
theorem encryptStream_take (ctx : RecordCtx) (rs : List (UInt8 × Bytes)) (k : ℕ) :
    (encryptStream C ctx (rs.take k)).2 = (encryptStream C ctx rs).2.take k := by
  induction rs generalizing ctx k with
  | nil => simp [encryptStream]
  | cons r rs ih =>
    obtain ⟨ct, pt⟩ := r
    cases k with
    | zero => rfl
    | succ k => simp [encryptStream, ih]

theorem decryptStream_encryptStream (ctx : RecordCtx) (rs : List (UInt8 × Bytes))
    (hct : ∀ r ∈ rs, r.1 ≠ 0) : decryptStream C ctx (encryptStream C ctx rs).2 = some rs := by
  rw [encryptStream_eq_peerStream, decryptStream_peerStream]
  · simp [Function.comp_def]
  · intro r hr
    obtain ⟨r', hr', rfl⟩ := List.mem_map.1 hr
    exact hct r' hr'

/-! ### The peer -/

/-- What a peer with this context makes of the bytes behind the handshake records: the contents of
the records that are there whole, or `none` when one of them does not open. -/
def History.peerReads (C : Crypto) (ctx : RecordCtx) (h : History) :
    Option (List (UInt8 × Bytes)) :=
  let b := h.sentBytes.drop h.hsRecords.flatten.length
  decryptStream C ctx (payloads (splitRecords b.length b))

/-- Application data records with these contents. -/
def appData (chunks : List Bytes) : List (UInt8 × Bytes) :=
  chunks.map fun chunk => (tls13CtApplicationData, chunk)

/-- A stream of application data records, cut off anywhere, gives its first contents. -/
theorem decrypt_appRecords_prefix {ctx : RecordCtx} {chunks : List Bytes}
    (hshort : ∀ chunk ∈ chunks, chunk.length ≤ ostlsWriteBufSize) {b : Bytes}
    (hb : b <+: ((appRecords C ctx chunks).2.map applicationRecord).flatten) :
    ∃ k, decryptStream C ctx (payloads (splitRecords b.length b)) = some (appData (chunks.take k)) ∧
      (b = ((appRecords C ctx chunks).2.map applicationRecord).flatten → k = chunks.length) := by
  have hlengths : (appRecords C ctx chunks).2.map List.length =
      (appData chunks).map fun r => r.2.length + 17 := length_encryptStream C ctx (appData chunks)
  have hcount : ((appRecords C ctx chunks).2.map applicationRecord).length = chunks.length := by
    have := congrArg List.length hlengths
    simpa [appData] using this
  have hrecords : ∀ r ∈ (appRecords C ctx chunks).2.map applicationRecord, IsRecord r := by
    intro r hr
    obtain ⟨c, hc, rfl⟩ := List.mem_map.1 hr
    have hlen : c.length ∈ (appData chunks).map fun r => r.2.length + 17 :=
      hlengths ▸ List.mem_map_of_mem hc
    obtain ⟨x, hx, hlen⟩ := List.mem_map.1 hlen
    obtain ⟨chunk, hchunk, rfl⟩ := List.mem_map.1 hx
    have := hshort chunk hchunk
    simp only [ostlsWriteBufSize] at this
    dsimp only at hlen
    exact isRecord_applicationRecord (by omega)
  obtain ⟨k, hk, hsplit, -, hmore⟩ := splitRecords_prefix hrecords hb (Nat.le_refl _)
  refine ⟨k, ?_, fun hall => ?_⟩
  · rw [hsplit, ← List.map_take, payloads_applicationRecords, appRecords, ← encryptStream_take,
      ← List.map_take]
    refine decryptStream_encryptStream ctx _ fun r hr => ?_
    obtain ⟨chunk, -, rfl⟩ := List.mem_map.1 hr
    exact (by decide : tls13CtApplicationData ≠ 0)
  · by_contra hne
    rw [hcount] at hk
    obtain ⟨r, hr⟩ : ∃ r, ((appRecords C ctx chunks).2.map applicationRecord)[k]? = some r := by
      exact ⟨_, List.getElem?_eq_getElem (by omega)⟩
    -- the next record would be there whole
    have hlt := hmore r hr
    have hnext : (((appRecords C ctx chunks).2.map applicationRecord).take (k + 1)).flatten <+:
        ((appRecords C ctx chunks).2.map applicationRecord).flatten := by
      conv_rhs => rw [← List.take_append_drop (k + 1) ((appRecords C ctx chunks).2.map _),
        List.flatten_append]
      exact List.prefix_append _ _
    have hle := hnext.length_le
    rw [← hall, List.take_add_one, hr, List.flatten_append, List.length_append] at hle
    simp only [Option.toList_some, List.flatten_singleton] at hle
    omega

/-- **The peer reads what was written.**  In every run of any number of connections, a peer that has
the keys of a finished handshake and reads what its connection sent so far finds only records that
open, with the first chunks of what the application wrote, in order: a prefix of what
`OSTLS_Write` accepted, and all of it once nothing waits.  No nonce is used twice in fewer than 2^64
records. -/
theorem sends_exactly {w : World E} {conn : Conn E}
    (h : Reach (World.step C G) WorldLawful .start w) (hmem : conn ∈ w.conns)
    (hdis : conn.disposed = false) (hopen : conn.tls13Mode = .open) :
    ∃ ctx k, conn.history.appCtx = some ctx ∧
      KeysFor C conn.serverName conn.history.hsLog ctx ∧
      conn.history.peerReads C ctx = some (appData (conn.history.chunks.take k)) ∧
      (conn.history.chunks.take k).flatten <+: conn.history.accepted ∧
      (conn.link.unsent = [] → conn.writeBuf.avail = 0 →
        (conn.history.chunks.take k).flatten = conn.history.accepted) ∧
      (conn.history.chunks.length < 18446744073709551616 →
        (noncesUsed C ctx (appData conn.history.chunks)).Nodup) := by
  have heach : Reach (World.step C G) (Each OtLawful) .start w :=
    h.mono fun w i hi => by cases i <;> exact hi
  obtain ⟨config, tickets, sessions, -, hreach⟩ :=
    reach_of_world (fun _ _ _ _ => trivial) heach hmem
  have hsends : Sends C conn.link := sends_of_reach hreach fun _ _ => id
  have hsealed : Sealed C conn.link := sealed_of_reach hreach fun _ _ => id
  have ho : Outbound C conn.link := hsends.outbound hdis
  obtain ⟨ctx, hctx, hkeys⟩ := hsealed.keys hopen
  obtain ⟨ctx', hctx', hseq, hstream, -⟩ := ho.opened hopen
  obtain rfl : ctx = ctx' := Option.some.inj (hctx.symm.trans hctx')
  -- behind the handshake records there are only application data records
  obtain ⟨b, hb⟩ : conn.history.hsRecords.flatten <+: conn.history.sentBytes :=
    hsealed.flushed hopen
  have hrest : b ++ conn.link.unsent =
      ((appRecords C ctx conn.history.chunks).2.map applicationRecord).flatten := by
    have hout : conn.history.outStream C = conn.history.hsRecords.flatten ++
        ((appRecords C ctx conn.history.chunks).2.map applicationRecord).flatten := by
      rw [History.outStream, show conn.history.appCtx = some ctx from hctx]
    have hall : conn.history.sentBytes ++ conn.link.unsent = conn.history.outStream C := hstream
    rw [hout, ← hb, List.append_assoc] at hall
    exact List.append_cancel_left hall
  obtain ⟨k, hread, hwhole⟩ := decrypt_appRecords_prefix (b := b) hsealed.short
    (hrest ▸ List.prefix_append b _)
  have hqueue : conn.history.chunks.flatten ++ conn.writeBuf.toList = conn.history.accepted :=
    ho.queue (by rw [show conn.link.mode = .open from hopen]; decide)
  refine ⟨ctx, k, hctx, hkeys, ?_, ?_, fun hsent hempty => ?_, fun hfew => ?_⟩
  · rw [History.peerReads, ← hb, List.drop_left]
    exact hread
  · rw [← hqueue]
    refine List.IsPrefix.trans ?_ (List.prefix_append _ _)
    conv_rhs => rw [← List.take_append_drop k conn.history.chunks, List.flatten_append]
    exact List.prefix_append _ _
  · rw [hsent, List.append_nil] at hrest
    have hnone : conn.writeBuf.toList = [] :=
      List.eq_nil_of_length_eq_zero ((Queue.length_toList _).trans hempty)
    obtain rfl : k = conn.history.chunks.length := hwhole hrest
    rw [List.take_length, ← hqueue, hnone, List.append_nil]
  · obtain ⟨hs, ⟨s₀, i, msg, dhe, before, -, happ, -⟩, rfl⟩ := hkeys
    refine nodup_noncesUsed C ?_ hseq (by simpa [appData] using hfew)
    rw [happ.write]
    exact C.sha256Schedule.length_expandLabel (show 12 ≤ 32 by decide)

/-- A connection writes twice; `OTSnd` takes the first record and a part of the second one. -/
theorem sends_exactly_twice :
    let w := play (World.step .transparent waitingEngine) .start
      ([connectAs [1]] ++ (opensTls13 ++
        [fun _ => Action.write [104, 105], fun _ => .turn sendEnv, fun _ => .turn sendEnv,
          fun _ => .write [33], fun _ => .turn sendEnv,
          fun _ => .turn { sendEnv with sendApp := ⟨.dataxfer, .sent 6⟩ }]).map (onConn 0))
    ∃ conn ∈ w.conns, conn.history.accepted = [104, 105, 33] ∧
      ∃ ctx k, conn.history.peerReads .transparent ctx =
        some (appData (conn.history.chunks.take k)) := by
  intro w
  have hreach : Reach (World.step .transparent waitingEngine) WorldLawful .start w :=
    reach_play (by decide +kernel)
  have hall : w.conns.map (fun conn => (conn.disposed, conn.tls13Mode, conn.history.accepted)) =
      [(false, T13Mode.open, [104, 105, 33])] := by decide +kernel
  obtain ⟨conn, hmem, hconn⟩ := List.mem_map.1
    (show (false, T13Mode.open, [104, 105, 33]) ∈ w.conns.map
      (fun conn => (conn.disposed, conn.tls13Mode, conn.history.accepted)) by rw [hall]; simp)
  simp only [Prod.mk.injEq] at hconn
  obtain ⟨hdis, hopen, haccepted⟩ := hconn
  obtain ⟨ctx, k, -, -, hread, -⟩ := sends_exactly hreach hmem hdis hopen
  exact ⟨conn, hmem, haccepted, ctx, k, hread⟩

end MacTLS
