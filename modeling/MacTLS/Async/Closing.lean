import MacTLS.Async.Outbound

/-!
# What is accepted is sent before the connection is closed

* `closed_sent` : on the TLS 1.3 path, a connection that is closed has sent all that it accepted,
  and a connection that was released had sent it before the release, unless it was released or
  closed while something was still to be sent;
* `released_unsent` : what was written just before `OSTLS_Close` is lost on a connection that reports
  a clean close.
-/

namespace MacTLS

open Lib

variable {E : Type} {C : Crypto} {G : Engine E} {π : Policy} {s s' : Link}

/-- What was accepted was encrypted, and `OTSnd` has taken all of it. -/
def History.HandedOver (C : Crypto) (h : History) (accepted : Bytes)
    (sent : List (Option Endpoint × Bytes)) : Prop :=
  ∃ ctx chunks, h.appCtx = some ctx ∧ chunks <+: h.chunks ∧ chunks.flatten = accepted ∧
    (sent.map Prod.snd).flatten =
      h.hsRecords.flatten ++ ((appRecords C ctx chunks).2.map applicationRecord).flatten

/-- When only handshake records were sent, nothing that was accepted was handed over. -/
theorem not_handedOver {h : History} {accepted : Bytes} {sent : List (Option Endpoint × Bytes)}
    (hne : accepted ≠ []) (hsent : (sent.map Prod.snd).flatten = h.hsRecords.flatten) :
    ¬h.HandedOver C accepted sent := by
  rintro ⟨ctx, chunks, -, -, rfl, hover⟩
  have hnone := List.append_right_eq_self.1 (hover.symm.trans hsent)
  cases chunks with
  | nil => exact hne rfl
  | cons chunk chunks => simp [appRecords, encryptStream, applicationRecord] at hnone

/-- Everything accepted is sent when nothing is queued or in flight. -/
theorem Outbound.handedOver (hs : Outbound C s) (hmode : s.mode = .open) (hidle : s.Idle) :
    s.history.HandedOver C s.history.accepted s.history.sent := by
  obtain ⟨ctx, hctx, -, hstream, -⟩ := hs.opened hmode
  have hqueue := hs.queue (by rw [hmode]; decide)
  have hempty : s.writeBuf.toList = [] :=
    List.length_eq_zero_iff.1 ((Queue.length_toList _).trans hidle.1)
  rw [hempty, List.append_nil] at hqueue
  rw [Link.unsent_eq_nil hidle.2, List.append_nil, History.outStream, hctx] at hstream
  exact ⟨ctx, s.history.chunks, hctx, List.prefix_refl _, hqueue, hstream⟩

/-- What was handed over stays so when more records are built. -/
theorem History.HandedOver.mono {h h' : History} {accepted : Bytes}
    {sent : List (Option Endpoint × Bytes)} (hd : h.HandedOver C accepted sent)
    (hctx : h'.appCtx = h.appCtx) (hrecords : h'.hsRecords = h.hsRecords)
    (hchunks : h.chunks <+: h'.chunks) : h'.HandedOver C accepted sent := by
  obtain ⟨ctx, chunks, happ, hpre, hacc, hsent⟩ := hd
  exact ⟨ctx, chunks, hctx.trans happ, hpre.trans hchunks, hacc, hrecords ▸ hsent⟩

instance (C : Crypto) (s : Link) (hs : HsCtx) : Decidable (s.PeerEnds C hs) :=
  inferInstanceAs (Decidable (_ ∧ _))

instance (C : Crypto) (conn : Conn E) (env : PumpEnv) : Decidable (ClosesInFlight C conn env) := by
  unfold ClosesInFlight Link.Flowing
  infer_instance

instance (conn : Conn E) : Decidable (ReleasesUnsent conn) := by
  unfold ReleasesUnsent Link.Idle
  infer_instance

instance (C : Crypto) (conn : Conn E) (a : Action) : Decidable (Drains C conn a) :=
  match a with
  | .turn _ => inferInstanceAs (Decidable (¬_))
  | .close => inferInstanceAs (Decidable (¬_))
  | .start _ | .enter | .write _ | .read _ | .dispose | .notify .. | .others .. =>
    instDecidableTrue

/-! ### The invariant -/

/-- A connection that is closed or released only when everything is sent. -/
structure Drained (C : Crypto) (s : Link) : Prop where
  closed : s.state = .closed → s.mode ≠ .off → s.Idle
  released : ∀ r ∈ s.history.release, s.mode = .open ∧ s.history.HandedOver C r.1 r.2

theorem drained_init (C : Crypto) (G : Engine E) (config : OstlsConfig) :
    Drained C (Conn.init G config).link where
  closed h := by cases h
  released _ h := by cases h

theorem Drained.effect (h : Effect C π s s') (hπ : π.drained) (hl : Lifecycle s)
    (ho : Outbound C s) (hs : Drained C s) : Drained C s' := by
  have hnone : s.mode ≠ .open → ∀ {r}, r ∈ s.history.release → False :=
    fun hmode _ hr => hmode (hs.released _ hr).1
  have htrying : ∀ {hs : HsCtx} {o : HsOut}, Handshakes C s hs o → s.mode ≠ .open := by
    intro hs o hh
    rw [hh.mode]
    decide
  have hoff : s.state = .connecting → s.mode ≠ .open := by
    intro hst
    rw [hl.early (.inr hst)]
    decide
  have hup : s.state = .closed → s.state.isUp = true → False := by
    intro hst hup
    rw [hst] at hup
    cases hup
  cases h
  case closed hst hd _ _ => exact ⟨fun _ hmode => hd hπ hmode, hs.released⟩
  case released hst hmode hd =>
    have hover := ho.handedOver hmode (hd hπ)
    refine ⟨fun h => (by cases h), fun r hr => ?_⟩
    refine ⟨hmode, ?_⟩
    obtain ⟨release, hhist⟩ := s.release_history
    have hcases : (r = (s.history.accepted, s.history.sent)) ∨ r ∈ s.history.release := by
      unfold Link.release at hr
      dsimp only at hr
      split_ifs at hr
      · cases hr
        exact .inl rfl
      · exact .inr hr
    rw [hhist]
    obtain rfl | hr := hcases
    · exact hover.mono rfl rfl (List.prefix_refl _)
    · exact (hs.released r hr).2.mono rfl rfl (List.prefix_refl _)
  case built hf _ _ =>
    refine ⟨fun h => (hup h hf.2).elim, fun r hr => ?_⟩
    obtain ⟨hmode, hover⟩ := hs.released r hr
    exact ⟨hmode, hover.mono rfl rfl (List.prefix_append _ _)⟩
  case handshook h _ _ | handshakeFailed h _ _ | handshakeDone h _ _ _ =>
    exact ⟨by grind -ring -linarith [Link.handshook, Link.fail, Link.opened, Handshakes],
      fun r hr => (hnone (htrying h) hr).elim⟩
  case noFallback o _ h _ _ | fallback o h _ _ =>
    refine ⟨by grind -ring -linarith [Link.fail, Link.fellBack, Link.opens], fun r hr => ?_⟩
    obtain ⟨closedEps, hhist⟩ := (s.handshook o).closeEp_history
    have hr : r ∈ (s.handshook o).closeEp.history.release := hr
    rw [hhist] at hr
    exact (hnone (htrying h) hr).elim
  case tls13Starts hst _ _ | tls12Starts hst _ =>
    exact ⟨fun h => (by cases h), fun r hr => (hnone (hoff hst) hr).elim⟩
  all_goals
    refine ⟨?_, hs.released⟩
    have hclosed := hs.closed
    grind -ring -linarith [Link.Idle, Link.fail, Link.opens, Link.sends, Link.Carried, Link.Flowing,
      Link.Live, OstlsState.isUp]

/-- **Nothing accepted is lost at a close.**  In every run whose steps release or close the connection
only when everything is sent, a connection that is closed on the TLS 1.3 path has encrypted and
sent all that `OSTLS_Write` accepted, and if it was released, it had done so before. -/
theorem closed_sent {config : OstlsConfig} {tickets : TicketCache} {sessions : SessCache}
    {log : List ResumeEvent} {p : Proc E}
    (h : Reach (Proc.step C G) (fun p a => OtLawful p a ∧ Drains C p.conn a)
      (Proc.start G config tickets sessions log) p)
    (hdis : p.conn.disposed = false) (hmode : p.conn.tls13Mode ≠ .off)
    (hst : p.conn.state = .closed) :
    p.conn.history.HandedOver C p.conn.history.accepted p.conn.history.sent ∧
      ∀ r ∈ p.conn.history.release, p.conn.history.HandedOver C r.1 r.2 := by
  have hboth : Sends C p.conn.link ∧ (p.conn.link.disposed = false → Drained C p.conn.link) := by
    refine link_invariant (P := fun s => Sends C s ∧ (s.disposed = false → Drained C s)) h
      ⟨sends_init C G config, fun _ => drained_init C G config⟩
      (π := ⟨True, False, False⟩) (fun p a _ hok => ⟨fun _ => hok.2, False.elim, False.elim⟩)
      ?_ ?_ ?_
    · intro s s' hdis hs he
      exact ⟨hs.1.effect he hdis,
        fun _ => (hs.2 hdis).effect he trivial hs.1.lifecycle (hs.1.outbound hdis)⟩
    · intro p _ hs
      refine ⟨hs.1.dispose, fun hdis => ?_⟩
      unfold Link.dispose at hdis ⊢
      split_ifs at hdis ⊢
      exact hs.2 hdis
    · intro p event result hok hs
      cases event with
      | openComplete cookie => exact ⟨hs.1.notified hok.1.1 hok.1.2, fun hdis =>
          ⟨(hs.2 hdis).closed, (hs.2 hdis).released⟩⟩
      | _ => exact hs
  obtain ⟨hs, hd⟩ := hboth
  have hd := hd hdis
  have ho := hs.outbound hdis
  have hopen : p.conn.link.mode = .open := by
    cases hm : p.conn.link.mode with
    | off => exact absurd hm hmode
    | trying => obtain h | h := ho.tried hm <;> cases h.symm.trans hst
    | «open» => rfl
  exact ⟨ho.handedOver hopen (hd.closed hst hmode), fun r hr => (hd.released r hr).2⟩

/-! ### Two runs -/

/-- `OSTLS_Close` on an endpoint that takes nothing after its release, and a peer that closes then. -/
def closes : List (Proc Unit → Action) :=
  (fun _ => .close) :: List.replicate 3 fun _ => .turn
    { sendEnv with sendApp := ⟨.outrel, .flowErr⟩, recv := ⟨.outrel, .lookErr .ordrel⟩ }

theorem closed_sent_opensTls13 :
    let p := play (Proc.step .transparent waitingEngine) freshProc (opensTls13 ++
      [fun _ => .write [104, 105], fun _ => .turn sendEnv, fun _ => .turn sendEnv] ++ closes)
    p.conn.history.release.isSome = true ∧ p.conn.history.accepted = [104, 105] ∧
      p.conn.history.HandedOver .transparent p.conn.history.accepted p.conn.history.sent := by
  intro p
  have hreach : Reach (Proc.step .transparent waitingEngine)
      (fun p a => OtLawful p a ∧ Drains .transparent p.conn a) freshProc p :=
    reach_play (by decide +kernel)
  obtain ⟨hrelease, haccepted, hdis, hmode, hst⟩ : p.conn.history.release.isSome = true ∧
      p.conn.history.accepted = [104, 105] ∧ p.conn.disposed = false ∧ p.conn.tls13Mode ≠ .off ∧
      p.conn.state = .closed := by decide +kernel
  exact ⟨hrelease, haccepted, (closed_sent hreach hdis hmode hst).1⟩

/-- Two bytes are written and the connection is released at once: it is closed cleanly, but no
record was sent. -/
theorem released_unsent :
    ∃ p : Proc Unit, Reach (Proc.step .transparent waitingEngine) OtLawful freshProc p ∧
      p.conn.disposed = false ∧ p.conn.tls13Mode = .open ∧ p.conn.state = .closed ∧
      p.conn.history.release = some ([104, 105], p.conn.history.sent) ∧
      ¬p.conn.history.HandedOver .transparent [104, 105] p.conn.history.sent := by
  have hreach := reach_script (opensTls13 ++ [fun _ => .write [104, 105]] ++ closes)
    (by decide +kernel)
  generalize hp : play (Proc.step .transparent waitingEngine) freshProc
    (opensTls13 ++ [fun _ => .write [104, 105]] ++ closes) = p at hreach
  obtain ⟨hdis, hmode, hst, hrelease, hsent⟩ : p.conn.disposed = false ∧
      p.conn.tls13Mode = .open ∧ p.conn.state = .closed ∧
      p.conn.history.release = some ([104, 105], p.conn.history.sent) ∧
      (p.conn.history.sent.map Prod.snd).flatten = p.conn.history.hsRecords.flatten := by
    rw [← hp]
    decide +kernel
  exact ⟨p, hreach, hdis, hmode, hst, hrelease, not_handedOver (by decide) hsent⟩

end MacTLS
