import MacTLS.Async.Isolation
import MacTLS.Async.Outbound

/-!
# No data before trust

Application data flows over TLS 1.3 only on a connection that has authenticated its server: by a
certificate for the `server_name`, or by a PSK that the connection had offered.  This is about
whole connections, in any interleaving with others; the handshake alone is
`MacTLS.Handshake.Authentication`.

* `Trusted` : how far a connection has authenticated its server;
* `NoEarlyData` : without a finished handshake nothing was encrypted, decrypted or returned;
* `trusted_data` : the two together, for every run of any number of connections.
-/

namespace MacTLS

open Lib

variable {E : Type} {C : Crypto} {G : Engine E} {p q : Proc E} {conn conn' : Conn E}
  {env : PumpEnv}

/-! ### The server of a connection -/

/-- In a turn of the handshake no server selects a PSK unasked. -/
def Asked (p : Proc E) : Action → Prop
  | .turn env => p.conn.disposed = false → p.conn.state = .handshaking →
      p.conn.tls13Mode = .trying → ∀ hs ∈ p.conn.hs13,
        PskSolicited ⟨hs, p.conn.history.hsLog⟩ ⟨p.conn.recvBuf, env.rnd⟩
  | _ => True

instance (p : Proc E) (a : Action) : Decidable (Asked p a) :=
  match a with
  | .turn _ => inferInstanceAs (Decidable (_ → _ → _ → ∀ hs ∈ p.conn.hs13, PskSolicited _ _))
  | .start .. | .enter | .write .. | .read .. | .close | .dispose | .notify .. | .others .. =>
    isTrue trivial

/-- With these events a connection has completed a handshake with this log, in which its server was
authenticated: by a certificate for the name, or by the PSK of a ticket that the connection had
offered. -/
def ServerTrusted (C : Crypto) (serverName : Bytes) (log : List HsEvent)
    (events : List ResumeEvent) : Prop :=
  ∃ hs, .completed13 serverName hs log ∈ events ∧ hs.state = .complete ∧
    (CertificateVerified C serverName ⟨hs, log⟩ ∨
      ∃ t, hs.offerTicket = some t ∧ .offeredTicket serverName t ∈ events ∧
        PskOffered (some t) hs.offerObfuscatedAge ⟨hs, log⟩)

/-- How far a connection with these events has authenticated its server. -/
structure Trusted (C : Crypto) (events : List ResumeEvent) (conn : Conn E) : Prop where
  early : conn.state.early = true → conn.tls13Mode = .off
  fresh : conn.tls13Mode = .off → conn.tls13Disabled = false → conn.history.hsLog = []
  trying : conn.state = .handshaking → conn.tls13Mode = .trying → ∀ hs, conn.hs13 = some hs →
    AuthInv C conn.serverName ⟨hs, conn.history.hsLog⟩ ∧
      ∀ t, hs.offerTicket = some t → .offeredTicket conn.serverName t ∈ events
  opened : conn.tls13Mode = .open →
    ServerTrusted C conn.serverName conn.history.hsLog events

variable {events es : List ResumeEvent}

theorem trusted_init (C : Crypto) (G : Engine E) (config : OstlsConfig) :
    Trusted C [] (Conn.init G config) where
  early _ := rfl
  fresh _ _ := rfl
  trying h := by cases h
  opened h := by cases h

theorem Trusted.keeps (h : Trusted C events conn) (hkeeps : Keeps conn conn') :
    Trusted C events conn' := by
  have hname : conn'.serverName = conn.serverName := congrArg TlsView.serverName hkeeps.view
  have hmode : conn'.tls13Mode = conn.tls13Mode := congrArg TlsView.mode hkeeps.view
  have hdis : conn'.tls13Disabled = conn.tls13Disabled := congrArg TlsView.disabled hkeeps.view
  have hlog : conn'.history.hsLog = conn.history.hsLog := congrArg TlsView.hsLog hkeeps.view
  refine ⟨?_, ?_, ?_, ?_⟩
  · rw [hmode]
    exact fun hst => h.early (hkeeps.early hst)
  · rw [hmode, hdis, hlog]
    exact h.fresh
  · rw [hmode, hname, hlog]
    intro hst hmode hs' h13
    -- bytes of the context may have been sent
    obtain ⟨hst, hctx⟩ := hkeeps.handshaking hst
    obtain ⟨hs, n, hsome, rfl⟩ := hctx hs' h13
    obtain ⟨hauth, hoffered⟩ := h.trying hst hmode hs hsome
    exact ⟨hauth.sent n, hoffered⟩
  · rw [hmode, hname, hlog]
    exact h.opened

/-- More events do not matter. -/
theorem Trusted.append (h : Trusted C events conn) (es : List ResumeEvent) :
    Trusted C (events ++ es) conn := by
  refine ⟨h.early, h.fresh, fun hst hmode hs h13 => ?_, fun hmode => ?_⟩
  · obtain ⟨hauth, hoffered⟩ := h.trying hst hmode hs h13
    exact ⟨hauth, fun t ht => List.mem_append_left _ (hoffered t ht)⟩
  · obtain ⟨hs, hev, hdone, htrust⟩ := h.opened hmode
    refine ⟨hs, List.mem_append_left _ hev, hdone, htrust.imp_right ?_⟩
    rintro ⟨t, ht, hoffered, hpsk⟩
    exact ⟨t, ht, List.mem_append_left _ hoffered, hpsk⟩

/-- TLS starts over TLS 1.3, with the ticket that is offered if there is one. -/
theorem Trusted.tries {resuming : Bool} {ticket : Option SessionTicket} {age : ℕ}
    (h : Trusted C events conn) (hset : SetsUp conn env) (htry : Tries13 conn env)
    (hview : conn'.tls = { conn.tls with mode := .trying }) (hst : conn'.state = .handshaking)
    (h13 : conn'.hs13 = some (Session.start true resuming ticket age).hs)
    (hes : ∀ t, ticket = some t → .offeredTicket conn.serverName t ∈ es) :
    Trusted C (events ++ es) conn' := by
  have hname : conn'.serverName = conn.serverName := congrArg TlsView.serverName hview
  have hmode : conn'.tls13Mode = .trying := congrArg TlsView.mode hview
  have hlog : conn'.history.hsLog = conn.history.hsLog := congrArg TlsView.hsLog hview
  have hoff : conn.tls13Mode = .off := h.early (by rw [hset.state]; rfl)
  refine ⟨?_, ?_, fun _ _ hs hsome => ?_, ?_⟩
  · rw [hst]
    exact fun hno => by cases hno
  · rw [hmode]
    exact fun hno => by cases hno
  · obtain rfl := Option.some.inj (h13.symm.trans hsome)
    rw [hlog, h.fresh hoff htry.2.1, hname]
    exact ⟨authInv_start .., fun t ht => List.mem_append_right _ (hes t ht)⟩
  · rw [hmode]
    exact fun hno => by cases hno

/-- TLS 1.3 is not used, or no longer. -/
theorem Trusted.off {log : List HsEvent} {disabled : Bool} (conn : Conn E)
    (hview : conn'.tls = { conn.tls with mode := .off, disabled := disabled, hsLog := log })
    (hfresh : disabled = false → log = []) : Trusted C events conn' := by
  have hmode : conn'.tls13Mode = .off := congrArg TlsView.mode hview
  have hdis : conn'.tls13Disabled = disabled := congrArg TlsView.disabled hview
  have hlog : conn'.history.hsLog = log := congrArg TlsView.hsLog hview
  refine ⟨fun _ => hmode, ?_, ?_, ?_⟩
  · rw [hdis, hlog]
    exact fun _ => hfresh
  · rw [hmode]
    exact fun _ hno => by cases hno
  · rw [hmode]
    exact fun hno => by cases hno

/-- A step of the handshake in which no PSK is selected unasked. -/
theorem Trusted.shook {hs : HsCtx} {o : HsOut} (h : Trusted C events conn)
    (hshook : Shook C conn env hs o) (hasked : ∀ hs ∈ conn.hs13,
      PskSolicited ⟨hs, conn.history.hsLog⟩ ⟨conn.recvBuf, env.rnd⟩) :
    AuthInv C conn.serverName ⟨o.hs, conn.logAfter o⟩ ∧
      ∀ t, o.hs.offerTicket = some t → .offeredTicket conn.serverName t ∈ events := by
  obtain ⟨hs₀, n, h13, rfl, rfl⟩ := hshook.out
  obtain ⟨hauth, hoffered⟩ := h.trying hshook.state hshook.mode hs₀ h13
  have hsent := hauth.sent n
  have hset := (transition_step C conn.serverName env.rnd conn.recvBuf hsent.wf).settings
  refine ⟨authInv_step (i := ⟨conn.recvBuf, env.rnd⟩) hsent (hasked hs₀ h13), fun t ht => ?_⟩
  rw [(offers_eq_of_settings hset).2.1] at ht
  exact hoffered t ht

theorem trusted_turn (h : Trusted C events p.conn)
    (hasked : p.conn.state = .handshaking → p.conn.tls13Mode = .trying → ∀ hs ∈ p.conn.hs13,
      PskSolicited ⟨hs, p.conn.history.hsLog⟩ ⟨p.conn.recvBuf, env.rnd⟩)
    (hnil : p.resumeLog = []) (hp : Resumes C G p env q) :
    Trusted C (events ++ q.resumeLog) q.conn := by
  cases hp with
  | keeps hkeeps => exact (h.keeps hkeeps).append _
  | tries13 hset htry _ hview hst h13 =>
    exact h.tries hset htry hview hst h13 fun t ht => by cases ht
  | offers13 hset htry _ hview hst h13 =>
    refine h.tries hset htry hview hst h13 fun t ht => ?_
    rw [← Option.some.inj ht]
    exact List.mem_append_right _ (List.mem_singleton_self _)
  | tries12 hset _ _ hview hst =>
    exact .off p.conn hview (h.fresh (h.early (by rw [hset.state]; rfl)))
  | offers12 hset _ _ hview hst =>
    exact .off p.conn hview (h.fresh (h.early (by rw [hset.state]; rfl)))
  | @shakes mid _ _ o hshook hview hst h13 hkeeps =>
    have hauth := h.shook hshook (hasked hshook.state hshook.mode)
    have hname : mid.serverName = p.conn.serverName := congrArg TlsView.serverName hview
    have hlog : mid.history.hsLog = p.conn.logAfter o := congrArg TlsView.hsLog hview
    have hmode : mid.tls13Mode = .trying := (congrArg TlsView.mode hview).trans hshook.mode
    dsimp only
    rw [hnil, List.append_nil]
    refine Trusted.keeps ⟨?_, ?_, fun _ _ hs hsome => ?_, ?_⟩ hkeeps
    · rw [hst]
      exact fun hno => by cases hno
    · rw [hmode]
      exact fun hno => by cases hno
    · obtain rfl := Option.some.inj (h13.symm.trans hsome)
      rw [hlog, hname]
      exact hauth
    · rw [hmode]
      exact fun hno => by cases hno
  | @opens13 conn' _ o hshook hdone hview hst =>
    obtain ⟨hauth, hoffered⟩ := h.shook hshook (hasked hshook.state hshook.mode)
    have hname : conn'.serverName = p.conn.serverName := congrArg TlsView.serverName hview
    have hlog : conn'.history.hsLog = p.conn.logAfter o := congrArg TlsView.hsLog hview
    have hmode : conn'.tls13Mode = .open := congrArg TlsView.mode hview
    refine ⟨?_, ?_, ?_, fun _ => ?_⟩
    · rw [hst]
      exact fun hno => by cases hno
    · rw [hmode]
      exact fun hno => by cases hno
    · rw [hst]
      exact fun hno => by cases hno
    · rw [hlog, hname]
      refine ⟨o.hs, ?_, hdone, ?_⟩
      · exact List.mem_append_right _ (List.mem_append_right _ (List.mem_singleton_self _))
      · obtain hverified | hpsk := authenticated_of_authInv hauth hdone
        · exact .inl hverified
        · -- the ticket of its settings is the one that it had offered
          obtain ⟨t, m, ht, hlast, hoffers, hearly⟩ := hpsk
          exact .inr ⟨t, ht, List.mem_append_left _ (hoffered t ht), t, m, rfl, hlast, hoffers,
            hearly⟩
  | fallsBack hshook hview hst =>
    exact .off p.conn hview fun hno => by cases hno
  | stores13 _ _ hkeeps => exact (h.keeps hkeeps).append _
  | @opens12 conn' _ hst hmode hview hst' =>
    have hview' : conn'.tls = { p.conn.tls with mode := .off } := by
      rw [hview, Conn.tls, hmode]
    exact .off p.conn hview' (h.fresh hmode)

/-- Every call keeps it. -/
theorem trusted_logged : Logged C G (fun p a => OtLawful p a ∧ Asked p a) (Trusted C) where
  init := trusted_init C G
  keeps := Trusted.keeps
  turn h hok hdis hnil hp := trusted_turn h (hok.2 hdis) hnil hp

/-! ### The data of a connection -/

/-- Without a finished TLS 1.3 handshake nothing was encrypted or decrypted, and while one is tried
nothing was returned. -/
def NoEarlyData (s : Link) : Prop :=
  s.mode ≠ .open → s.history.chunks = [] ∧ s.history.decrypted = [] ∧
    (s.mode ≠ .off → s.history.returned = [])

theorem NoEarlyData.effect {π : Policy} {s s' : Link} (h : Effect C π s s') (hs : NoEarlyData s)
    (hl : Lifecycle s) (ho : Outbound C s) (hi : Inbound s) : NoEarlyData s' := by
  -- a connection that is tried reads nothing
  have hup : s.state.isUp = true ∨ s.state = .closed → s.mode ≠ .open → s.mode = .off := by
    intro hst hmode
    by_contra hoff
    obtain hup | hclosed := hst
    · exact hmode (ho.open_of_up hoff hup)
    · have htrying : s.mode = .trying := by
        cases h : s.mode with
        | off => exact absurd h hoff
        | trying => rfl
        | «open» => exact absurd h hmode
      obtain hst | hst := ho.tried htrying <;> rw [hclosed] at hst <;> cases hst
  cases h
  case tls13Starts hst _ _ =>
    intro _
    obtain ⟨hchunks, hdecrypted, -⟩ := hs (by rw [hl.early (.inr hst)]; decide)
    exact ⟨hchunks, hdecrypted, fun _ => (hi.quiet (.inr (.inl hst))).1⟩
  case tls12Starts hst _ =>
    intro _
    obtain ⟨hchunks, hdecrypted, -⟩ := hs (by rw [hl.early (.inr hst)]; decide)
    exact ⟨hchunks, hdecrypted, fun hno => absurd rfl hno⟩
  case handshakeDone => exact fun hno => absurd rfl hno
  case noFallback h _ _ | fallback h _ _ =>
    intro _
    obtain ⟨hchunks, hdecrypted, -⟩ := hs (by rw [h.mode]; decide)
    -- closing the endpoint leaves the records alone
    refine ⟨?_, ?_, fun hno => absurd rfl hno⟩
    · exact (Link.closeEp_chunks _).trans hchunks
    · exact (Link.closeEp_decrypted _).trans hdecrypted
  case dataStaged hf _ _ _ | built hf _ _ =>
    exact fun hno => absurd (ho.open_of_up hf.1 hf.2) hno
  case read hst =>
    intro hmode
    obtain ⟨hchunks, hdecrypted, -⟩ := hs hmode
    exact ⟨hchunks, hdecrypted, fun hno => absurd (hup hst hmode) hno⟩
  case released hmode _ => exact fun hno => absurd hmode hno
  all_goals exact hs

theorem NoEarlyData.dispose {s : Link} (hs : NoEarlyData s) : NoEarlyData s.dispose := by
  unfold Link.dispose
  split_ifs with hdis
  · exact hs
  · intro hmode
    obtain ⟨hchunks, hdecrypted, hreturned⟩ := hs fun hopen => hmode (s.closeEp_mode.trans hopen)
    refine ⟨?_, s.closeEp_decrypted.trans hdecrypted, fun hoff => ?_⟩
    · exact s.closeEp_chunks.trans hchunks
    · exact s.closeEp_returned.trans (hreturned fun hno => hoff (s.closeEp_mode.trans hno))

theorem noEarlyData_of_reach {ok : Proc E → Action → Prop} {config : OstlsConfig}
    {tickets : TicketCache} {sessions : SessCache} {log : List ResumeEvent}
    (h : Reach (Proc.step C G) ok (Proc.start G config tickets sessions log) p)
    (hok : ∀ p a, ok p a → OtLawful p a) : NoEarlyData p.conn.link := by
  have hboth : (Sends C p.conn.link ∧ (p.conn.disposed = false → Inbound p.conn.link)) ∧
      NoEarlyData p.conn.link := by
    refine link_invariant (P := fun s => (Sends C s ∧ (s.disposed = false → Inbound s)) ∧
      NoEarlyData s) h ⟨⟨sends_init C G config, fun _ => inbound_init G config⟩, ?_⟩
      (fun p a _ _ => Policy.any_meets C G p.conn a) ?_ ?_ ?_
    · exact fun _ => ⟨rfl, rfl, fun hno => absurd rfl hno⟩
    · rintro s s' hdis ⟨⟨hsends, hin⟩, hnone⟩ he
      refine ⟨⟨hsends.effect he hdis, fun _ => (hin hdis).effect he⟩, ?_⟩
      exact hnone.effect he hsends.lifecycle (hsends.outbound hdis) (hin hdis)
    · rintro p - ⟨⟨hsends, hin⟩, hnone⟩
      refine ⟨⟨hsends.dispose, ?_⟩, hnone.dispose⟩
      unfold Link.dispose
      split_ifs with hdis
      · exact hin
      · exact fun hno => by cases hno
    · rintro p event result hlawful ⟨⟨hsends, hin⟩, hnone⟩
      have hlawful := hok _ _ hlawful
      cases event with
      | openComplete cookie =>
        exact ⟨⟨hsends.notified hlawful.1 hlawful.2, fun hdis =>
          ⟨(hin hdis).stream, (hin hdis).staged, (hin hdis).quiet, (hin hdis).clean⟩⟩, hnone⟩
      | _ => exact ⟨⟨hsends, hin⟩, hnone⟩
  exact hboth.2

/-! ### Every interleaving -/

/-- **No data before trust.**  In every run of any number of connections in which no server selects
a PSK unasked, a connection that has encrypted, decrypted or, over TLS 1.3, returned application
data has completed a handshake: its entry in the log has the handshake that this connection went
through, and in this one its server was authenticated for its own name by a certificate, or by the
PSK of a ticket that the connection has an entry of offering. -/
theorem trusted_data {w : World E} {k : ℕ}
    (h : Reach (World.step C G) (Each fun p a => OtLawful p a ∧ Asked p a) .start w)
    (hk : w.conns[k]? = some conn)
    (hdata : conn.history.chunks ≠ [] ∨ conn.history.decrypted ≠ [] ∨
      conn.tls13Mode ≠ .off ∧ conn.history.returned ≠ []) :
    ServerTrusted C conn.serverName conn.history.hsLog (w.eventsOf k) := by
  have htrusted : Trusted C (w.eventsOf k) conn := trusted_logged.of_world h hk
  obtain ⟨config, tickets, sessions, -, hreach⟩ :=
    reach_of_world (fun _ _ _ _ => ⟨trivial, trivial⟩) h (List.mem_of_getElem? hk)
  have hnone := noEarlyData_of_reach hreach fun _ _ hok => hok.1
  refine htrusted.opened ?_
  by_contra hmode
  obtain ⟨hchunks, hdecrypted, hreturned⟩ := hnone hmode
  obtain hdata | hdata | ⟨hoff, hdata⟩ := hdata
  · exact hdata hchunks
  · exact hdata hdecrypted
  · exact hdata (hreturned hoff)

/-- A connection gets through its handshake and sends two bytes, while another one starts. -/
theorem trusted_data_two :
    let w := play (World.step .transparent waitingEngine) .start
      ([connectAs [1], connectAs [2], fun _ => .call 1 (.start startOk)] ++
        (opensTls13 ++ [fun _ => Action.write [104, 105], fun _ => .turn sendEnv]).map (onConn 0))
    ∃ conn, w.conns[0]? = some conn ∧ conn.history.chunks = [[104, 105]] ∧
      ServerTrusted .transparent conn.serverName conn.history.hsLog (w.eventsOf 0) := by
  intro w
  have hreach : Reach (World.step .transparent waitingEngine)
      (Each fun p a => OtLawful p a ∧ Asked p a) .start w := reach_play (by decide +kernel)
  have hchunks : w.conns[0]?.map (fun conn => conn.history.chunks) = some [[104, 105]] := by
    decide +kernel
  obtain ⟨conn, hk, hconn⟩ := Option.map_eq_some_iff.1 hchunks
  exact ⟨conn, hk, hconn, trusted_data hreach hk (.inl (by rw [hconn]; simp))⟩

end MacTLS
