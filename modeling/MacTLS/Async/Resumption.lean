import MacTLS.Async.World
import MacTLS.Async.Inbound

/-!
# Resumption and names

The caches are keyed by the host to connect to, and a certificate is validated for the
`server_name`.  A resumed handshake validates no certificate, so it is only as good as the names
under which its ticket or session was stored.

* `Rests` : what an entry of the log needs before it;
* `worldInv_step` : every call within one name keeps the log grounded in that;
* `NeverCrosses`, `resumption_within_name` : what follows for the whole run.
-/

namespace MacTLS

open Lib

variable {E : Type} {C : Crypto} {G : Engine E} {w : World E}

/-! ### What resumption promises -/

/-- Some handshake of TLS 1.3 validated a certificate for the name. -/
def Vouched13 (C : Crypto) (name : Bytes) (log : List Entry) : Prop :=
  ∃ v ∈ log, ∃ hs evs, v.event = .completed13 name hs evs ∧ CertificateVerified C name ⟨hs, evs⟩

/-- Some handshake of TLS 1.2 for the name was a full one: its connection had offered no
session. -/
def Vouched12 (name : Bytes) (log : List Entry) : Prop :=
  ∃ before v after, log = before ++ v :: after ∧ v.event = .completed12 name ∧
    ∀ e ∈ before, e.conn = v.conn → ∀ s, e.event ≠ .offeredSession name s

/-- Resumption never crosses names. -/
structure NeverCrosses (C : Crypto) (w : World E) : Prop where
  /-- The names in the log are those of the connections. -/
  names : ∀ e ∈ w.log, ∃ conn, w.conns[e.conn]? = some conn ∧
    conn.serverName = e.event.serverName
  /-- A ticket that is offered was stored by an earlier connection of the name, after its
  handshake, and a certificate had been validated for the name. -/
  ticket : ∀ before e after name t, w.log = before ++ e :: after →
    e.event = .offeredTicket name t →
    ∃ s ∈ before, s.conn ≠ e.conn ∧ s.event = .storedTicket name t ∧
      (∃ c ∈ before, c.conn = s.conn ∧ ∃ hs evs, c.event = .completed13 name hs evs) ∧
      Vouched13 C name before
  session : ∀ before e after name p, w.log = before ++ e :: after →
    e.event = .offeredSession name p →
    ∃ s ∈ before, s.conn ≠ e.conn ∧ s.event = .storedSession name p ∧
      (∃ c ∈ before, c.conn = s.conn ∧ c.event = .completed12 name) ∧ Vouched12 name before
  /-- No handshake is completed for a name that was never validated. -/
  complete13 : ∀ before e after name hs evs, w.log = before ++ e :: after →
    e.event = .completed13 name hs evs → Vouched13 C name (before ++ [e])
  complete12 : ∀ before e after name, w.log = before ++ e :: after →
    e.event = .completed12 name → Vouched12 name (before ++ [e])

/-! ### When it holds -/

instance (conn : Conn E) (env : PumpEnv) : Decidable (SetsUp conn env) :=
  decidable_of_iff (conn.state = .connecting ∧ conn.connectPhase = .connectInFlight ∧
    elapsed32 env.ticks conn.startTicks ≤ conn.connectTimeoutTicks ∧ conn.nfDisconnect = false ∧
    conn.nfConnectComplete = true ∧ conn.nfLastResult = kOTNoError ∧
    env.rcvConnectErr = kOTNoError ∧ env.timeOk = true ∧ env.entropyOk = true)
    ⟨fun ⟨h1, h2, h3, h4, h5, h6, h7, h8, h9⟩ => ⟨h1, h2, Nat.not_lt.2 h3, h4, h5, h6, h7, h8, h9⟩,
      fun h => ⟨h.state, h.phase, Nat.not_lt.1 h.inTime, h.connected, h.arrived, h.result,
        h.rcvConnect, h.time, h.entropy⟩⟩

/-- The connections that share a key with this one have its name: for a ticket those to its host,
for a session those to its host and port. -/
def OneName (w : World E) (conn : Conn E) (env : PumpEnv) : Prop :=
  ∀ other ∈ w.conns, other.host = conn.host → Tries13 conn env ∨ other.port = conn.port →
    other.serverName = conn.serverName

instance (w : World E) (conn : Conn E) (env : PumpEnv) : Decidable (OneName w conn env) :=
  inferInstanceAs (Decidable (∀ other ∈ w.conns, _ → _ → _))

/-- A connection that starts TLS shares its key with connections of its own name only, and in the
handshake no server selects a PSK unasked. -/
def Guarded (w : World E) : WorldInput → Prop
  | .call k (.turn env) => ∀ conn ∈ w.conns[k]?, conn.disposed = false →
      (SetsUp conn env → OneName w conn env) ∧
        (conn.state = .handshaking → conn.tls13Mode = .trying → ∀ hs ∈ conn.hs13,
          PskSolicited ⟨hs, conn.history.hsLog⟩ ⟨conn.recvBuf, env.rnd⟩)
  | _ => True

instance (w : World E) (i : WorldInput) : Decidable (Guarded w i) :=
  match i with
  | .call k (.turn _) => inferInstanceAs (Decidable (∀ conn ∈ w.conns[k]?, _ → _ ∧ (_ → _ → _)))
  | .new .. | .call _ (.start _) | .call _ .enter | .call _ (.write _) | .call _ (.read _)
  | .call _ .close | .call _ .dispose | .call _ (.notify ..) | .call _ (.others ..) =>
    isTrue trivial

/-! ### What an entry rests on -/

/-- What an event of the connection `k` needs before it. -/
def Needs (C : Crypto) (before : List Entry) (k : ℕ) : ResumeEvent → Prop
  | .offeredTicket name t => ∃ e ∈ before, e.conn ≠ k ∧ e.event = .storedTicket name t
  | .storedTicket name _ =>
    ∃ e ∈ before, e.conn = k ∧ ∃ hs evs, e.event = .completed13 name hs evs
  | .offeredSession name s => ∃ e ∈ before, e.conn ≠ k ∧ e.event = .storedSession name s
  | .storedSession name _ => ∃ e ∈ before, e.conn = k ∧ e.event = .completed12 name
  | .completed13 name hs evs => CertificateVerified C name ⟨hs, evs⟩ ∨
      ∃ t, ∃ e ∈ before, e.conn = k ∧ e.event = .offeredTicket name t
  | .completed12 _ => True

structure Rests (C : Crypto) (before : List Entry) (e : Entry) : Prop where
  named : ∀ e' ∈ before, e'.conn = e.conn → e'.event.serverName = e.event.serverName
  needs : Needs C before e.conn e.event

section

variable {log before : List Entry} {e : Entry} {name : Bytes}

theorem Rests.of_event (h : Rests C before e) {ev : ResumeEvent} (hev : e.event = ev) :
    Needs C before e.conn ev := hev ▸ h.needs

/-- Whoever stored a ticket has completed a handshake. -/
theorem completed13_of_stored (h : Grounded (Rests C) log) (he : e ∈ log) {t : SessionTicket}
    (hev : e.event = .storedTicket name t) :
    ∃ c ∈ log, c.conn = e.conn ∧ ∃ hs evs, c.event = .completed13 name hs evs := by
  obtain ⟨before, hsub, -, hrests⟩ := h.of_mem he
  obtain ⟨c, hc, hcomplete⟩ := hrests.of_event hev
  exact ⟨c, hsub hc, hcomplete⟩

theorem completed12_of_stored (h : Grounded (Rests C) log) (he : e ∈ log) {s : SessionParameters}
    (hev : e.event = .storedSession name s) :
    ∃ c ∈ log, c.conn = e.conn ∧ c.event = .completed12 name := by
  obtain ⟨before, hsub, -, hrests⟩ := h.of_mem he
  obtain ⟨c, hc, hcomplete⟩ := hrests.of_event hev
  exact ⟨c, hsub hc, hcomplete⟩

/-- A completed handshake goes back to one that validated a certificate. -/
theorem vouched13_of_completed (h : Grounded (Rests C) log) (he : e ∈ log) {hs : HsCtx}
    {evs : List HsEvent} (hev : e.event = .completed13 name hs evs) : Vouched13 C name log := by
  have hrest : ∀ before e, Grounded (Rests C) before → Rests C before e →
      (∃ hs evs, e.event = .completed13 name hs evs) →
      (∃ hs evs, e.event = .completed13 name hs evs ∧ CertificateVerified C name ⟨hs, evs⟩) ∨
        ∃ c ∈ before, ∃ hs evs, c.event = .completed13 name hs evs := by
    rintro before e hground hrests ⟨hs, evs, hev⟩
    obtain hverified | ⟨t, o, ho, -, hoffer⟩ := hrests.of_event hev
    · exact .inl ⟨hs, evs, hev, hverified⟩
    · -- a PSK: its ticket was stored after a handshake of the same name
      obtain ⟨earlier, hsub, hground', hrests'⟩ := hground.of_mem ho
      obtain ⟨s, hs, -, hstore⟩ := hrests'.of_event hoffer
      obtain ⟨c, hc, -, hcomplete⟩ := completed13_of_stored hground' hs hstore
      exact .inr ⟨c, hsub hc, hcomplete⟩
  obtain ⟨before, v, after, rfl, -, hs', evs', hv, hverified⟩ := h.trace hrest he ⟨hs, evs, hev⟩
  exact ⟨v, by simp, hs', evs', hv, hverified⟩

theorem vouched12_of_completed (h : Grounded (Rests C) log) (he : e ∈ log)
    (hev : e.event = .completed12 name) : Vouched12 name log := by
  have hrest : ∀ before e, Grounded (Rests C) before → Rests C before e →
      e.event = .completed12 name →
      (∀ o ∈ before, o.conn = e.conn → ∀ s, o.event ≠ .offeredSession name s) ∨
        ∃ c ∈ before, c.event = .completed12 name := by
    intro before e hground hrests hev
    by_cases hfull : ∀ o ∈ before, o.conn = e.conn → ∀ s, o.event ≠ .offeredSession name s
    · exact .inl hfull
    · push Not at hfull
      obtain ⟨o, ho, -, s, hoffer⟩ := hfull
      obtain ⟨earlier, hsub, hground', hrests'⟩ := hground.of_mem ho
      obtain ⟨s, hs, -, hstore⟩ := hrests'.of_event hoffer
      obtain ⟨c, hc, -, hcomplete⟩ := completed12_of_stored hground' hs hstore
      exact .inr ⟨c, hsub hc, hcomplete⟩
  exact h.trace hrest he hev

end

/-- A log grounded in what its entries rest on keeps the promises of resumption. -/
theorem neverCrosses_of_grounded (h : Grounded (Rests C) w.log)
    (hnames : ∀ e ∈ w.log, ∃ conn, w.conns[e.conn]? = some conn ∧
      conn.serverName = e.event.serverName) : NeverCrosses C w := by
  have hat : ∀ {before e after}, w.log = before ++ e :: after →
      Grounded (Rests C) before ∧ Rests C before e ∧ Grounded (Rests C) (before ++ [e]) := by
    intro before e after heq
    rw [heq] at h
    have hrests := h before e after rfl
    exact ⟨h.initial, hrests, h.initial.concat hrests⟩
  refine ⟨hnames, ?_, ?_, ?_, ?_⟩
  · intro before e after name t heq hev
    obtain ⟨hground, hrests, -⟩ := hat heq
    obtain ⟨s, hs, hne, hstore⟩ := hrests.of_event hev
    obtain ⟨c, hc, hconn, hs', evs, hcomplete⟩ := completed13_of_stored hground hs hstore
    exact ⟨s, hs, hne, hstore, ⟨c, hc, hconn, hs', evs, hcomplete⟩,
      vouched13_of_completed hground hc hcomplete⟩
  · intro before e after name p heq hev
    obtain ⟨hground, hrests, -⟩ := hat heq
    obtain ⟨s, hs, hne, hstore⟩ := hrests.of_event hev
    obtain ⟨c, hc, hconn, hcomplete⟩ := completed12_of_stored hground hs hstore
    exact ⟨s, hs, hne, hstore, ⟨c, hc, hconn, hcomplete⟩,
      vouched12_of_completed hground hc hcomplete⟩
  · intro before e after name hs evs heq hev
    exact vouched13_of_completed (hat heq).2.2 (by simp) hev
  · intro before e after name heq hev
    exact vouched12_of_completed (hat heq).2.2 (by simp) hev

/-! ### The invariant -/

structure WorldInv (C : Crypto) (w : World E) : Prop where
  conns : ∀ (k : ℕ) conn, w.conns[k]? = some conn → ConnInv C w.log k conn
  owned : ∀ e ∈ w.log, e.conn < w.conns.length
  /-- Each entry has the host and port of its connection. -/
  placed : ∀ e ∈ w.log, ∀ conn, w.conns[e.conn]? = some conn →
    e.host = conn.host ∧ e.port = conn.port
  tickets : TicketsInv w.tickets w.log
  sessions : SessionsInv w.sessions w.log
  grounded : Grounded (Rests C) w.log

theorem worldInv_start : WorldInv C (.start : World E) where
  conns _ _ h := by cases h
  owned _ h := by cases h
  placed _ h := by cases h
  tickets := .start
  sessions := rfl
  grounded := .nil

/-- A new connection comes behind the others. -/
theorem worldInv_new (h : WorldInv C w) (config : OstlsConfig) (allocOk : Bool) :
    WorldInv C (w.step C G (.new config allocOk)) := by
  unfold World.step
  dsimp only
  split
  · exact h
  · rename_i conn hnew
    refine ⟨fun k conn' hk => ?_, fun e he => ?_, fun e he conn' hk => ?_, h.tickets, h.sessions,
      h.grounded⟩
    · by_cases hlt : k < w.conns.length
      · rw [List.getElem?_append_left hlt] at hk
        exact h.conns k conn' hk
      · rw [List.getElem?_append_right (Nat.not_lt.1 hlt)] at hk
        obtain rfl : conn = conn' := by
          cases hsub : k - w.conns.length with
          | zero =>
            rw [hsub] at hk
            exact Option.some.inj hk
          | succ n =>
            rw [hsub] at hk
            cases hk
        exact connInv_init hnew fun e he => by
          have := h.owned e he
          omega
    · rw [List.length_append]
      exact Nat.lt_add_right _ (h.owned e he)
    · rw [List.getElem?_append_left (h.owned e he)] at hk
      exact h.placed e he conn' hk

section

variable {k : ℕ} {conn conn' : Conn E} {p : Proc E} {env : PumpEnv}

/-- The invariant after a step of one connection, from what the step did. -/
theorem worldInv_put (h : WorldInv C w) (hk : w.conns[k]? = some conn)
    (hplace : p.conn.host = conn.host ∧ p.conn.port = conn.port) (es : List Entry)
    (hes : p.resumeLog.map (Entry.mk k p.conn.host p.conn.port) = es)
    (hconn : ConnInv C (w.log ++ es) k p.conn) (htickets : TicketsInv p.tickets (w.log ++ es))
    (hsessions : SessionsInv p.sessions (w.log ++ es))
    (hground : Grounded (Rests C) (w.log ++ es)) : WorldInv C (w.put k p) := by
  have hlt : k < w.conns.length := (List.getElem?_eq_some_iff.1 hk).1
  have hown : ∀ e ∈ es, e.conn = k := by
    rw [← hes]
    intro e he
    obtain ⟨_, -, rfl⟩ := List.mem_map.1 he
    rfl
  subst hes
  refine ⟨fun j conn' hj => ?_, fun e he => ?_, fun e he conn' hj => ?_, htickets, hsessions,
    hground⟩
  · by_cases hjk : k = j
    · subst hjk
      obtain rfl : p.conn = conn' := by
        rw [World.put, List.getElem?_set_self hlt] at hj
        exact Option.some.inj hj
      exact hconn
    · rw [World.put, List.getElem?_set_ne hjk] at hj
      exact (h.conns j conn' hj).append fun e he => hown e he ▸ hjk
  · rw [World.put, List.length_set]
    obtain he | he := List.mem_append.1 he
    · exact h.owned e he
    · exact hown e he ▸ hlt
  · have hself : e.conn = k → p.conn = conn' := by
      rintro rfl
      rw [World.put, List.getElem?_set_self hlt] at hj
      exact Option.some.inj hj
    obtain he | he := List.mem_append.1 he
    · by_cases hek : e.conn = k
      · obtain rfl := hself hek
        rw [hplace.1, hplace.2]
        exact h.placed e he conn (hek ▸ hk)
      · rw [World.put, List.getElem?_set_ne (Ne.symm hek)] at hj
        exact h.placed e he conn' hj
    · obtain rfl := hself (hown e he)
      obtain ⟨_, -, rfl⟩ := List.mem_map.1 he
      exact ⟨rfl, rfl⟩

/-- The step left nothing in the log. -/
theorem worldInv_put_nil (h : WorldInv C w) (hk : w.conns[k]? = some conn)
    (hplace : p.conn.host = conn.host ∧ p.conn.port = conn.port)
    (hes : p.resumeLog = []) (hconn : ConnInv C w.log k p.conn)
    (htickets : TicketsInv p.tickets w.log) (hsessions : p.sessions = w.sessions) :
    WorldInv C (w.put k p) := by
  refine worldInv_put h hk hplace [] (by rw [hes, List.map_nil]) ?_ ?_ ?_ ?_ <;> rw [List.append_nil]
  · exact hconn
  · exact htickets
  · rw [hsessions]
    exact h.sessions
  · exact h.grounded

/-! ### One turn -/

/-- The entries of a connection still carry its name when it adds more. -/
theorem ConnInv.named_append {log es : List Entry} (h : ConnInv C log k conn)
    (hes : ∀ e ∈ es, e.event.serverName = conn.serverName) :
    ∀ e ∈ log ++ es, e.conn = k → e.event.serverName = conn.serverName := by
  intro e he hk
  obtain he | he := List.mem_append.1 he
  · exact h.named e he hk
  · exact hes e he

/-- TLS 1.3 is tried, with the ticket that is offered if there is one. -/
theorem connInv_tries13 {log es : List Entry} {offer : Option SessionTicket} {resuming : Bool}
    {age : ℕ} (h : ConnInv C log k conn) (hset : SetsUp conn env) (htry : Tries13 conn env)
    (hview : conn'.tls = { conn.tls with mode := .trying }) (hst : conn'.state = .handshaking)
    (h13 : conn'.hs13 = some (Session.start true resuming offer age).hs)
    (hnames : ∀ e ∈ es, e.event.serverName = conn.serverName)
    (hstores : ∀ e ∈ es, e.event.isStore = false)
    (hoffer : ∀ t, offer = some t →
      ∃ e ∈ es, e.conn = k ∧ e.event = .offeredTicket conn.serverName t) :
    ConnInv C (log ++ es) k conn' := by
  have hearly : conn.state.early = true := by rw [hset.state]; rfl
  have hname : conn'.serverName = conn.serverName := congrArg TlsView.serverName hview
  have hhost : conn'.host = conn.host := congrArg TlsView.host hview
  have hmode : conn'.tls13Mode = .trying := congrArg TlsView.mode hview
  have hlog : conn'.history.hsLog = [] :=
    (congrArg TlsView.hsLog hview).trans (h.fresh (h.early hearly) htry.2.1)
  refine ⟨hhost ▸ h.fits, ?_, ?_, ?_, ?_, ?_, ?_⟩
  · rw [hname]
    exact h.named_append hnames
  · rw [hst]
    exact fun hno => by cases hno
  · rw [hmode]
    exact fun hno => by cases hno
  · intro _ _ hs hsome
    obtain rfl := Option.some.inj (h13.symm.trans hsome)
    rw [hlog, hname]
    refine ⟨authInv_start C conn.serverName true resuming offer age, fun t ht => ?_⟩
    obtain ⟨e, he, hentry⟩ := hoffer t ht
    exact ⟨e, List.mem_append_right _ he, hentry⟩
  · rw [hst]
    exact fun hno => by cases hno
  · intro _ e he hk
    obtain he | he := List.mem_append.1 he
    · exact h.settled (.inl hearly) e he hk
    · exact hstores e he

/-- TLS 1.2 starts. -/
theorem connInv_tries12 {log es : List Entry} (h : ConnInv C log k conn) (hset : SetsUp conn env)
    (hview : conn'.tls = { conn.tls with mode := .off })
    (hnames : ∀ e ∈ es, e.event.serverName = conn.serverName)
    (hstores : ∀ e ∈ es, e.event.isStore = false) : ConnInv C (log ++ es) k conn' := by
  have hearly : conn.state.early = true := by rw [hset.state]; rfl
  have hname : conn'.serverName = conn.serverName := congrArg TlsView.serverName hview
  have hhost : conn'.host = conn.host := congrArg TlsView.host hview
  have hmode : conn'.tls13Mode = .off := congrArg TlsView.mode hview
  have hdis : conn'.tls13Disabled = conn.tls13Disabled := congrArg TlsView.disabled hview
  have hlog : conn'.history.hsLog = conn.history.hsLog := congrArg TlsView.hsLog hview
  refine ⟨hhost ▸ h.fits, ?_, fun _ => hmode, ?_, ?_, fun _ hne => absurd hmode hne, ?_⟩
  · rw [hname]
    exact h.named_append hnames
  · rw [hdis, hlog]
    exact fun _ => h.fresh (h.early hearly)
  · rw [hmode]
    exact fun _ hno => by cases hno
  · intro _ e he hk
    obtain he | he := List.mem_append.1 he
    · exact h.settled (.inl hearly) e he hk
    · exact hstores e he

/-- A step of the handshake in which no PSK is selected unasked. -/
theorem authInv_shook {log : List Entry} {hs : HsCtx} {o : HsOut} (h : ConnInv C log k conn)
    (hshook : Shook C conn env hs o) (hasked : ∀ hs ∈ conn.hs13,
      PskSolicited ⟨hs, conn.history.hsLog⟩ ⟨conn.recvBuf, env.rnd⟩) :
    AuthInv C conn.serverName ⟨o.hs, conn.logAfter o⟩ ∧ ∀ t, o.hs.offerTicket = some t →
      ∃ e ∈ log, e.conn = k ∧ e.event = .offeredTicket conn.serverName t := by
  obtain ⟨hs₀, n, h13, rfl, rfl⟩ := hshook.out
  obtain ⟨hauth, hoffered⟩ := h.trying hshook.state hshook.mode hs₀ h13
  have hsent := hauth.sent n
  have hset := (transition_step C conn.serverName env.rnd conn.recvBuf hsent.wf).settings
  refine ⟨authInv_step (i := ⟨conn.recvBuf, env.rnd⟩) hsent (hasked hs₀ h13), fun t ht => ?_⟩
  rw [(offers_eq_of_settings hset).2.1] at ht
  exact hoffered t ht

/-- The handshake goes on. -/
theorem connInv_shakes {log : List Entry} {hs : HsCtx} {o : HsOut} (h : ConnInv C log k conn)
    (hshook : Shook C conn env hs o) (hasked : ∀ hs ∈ conn.hs13,
      PskSolicited ⟨hs, conn.history.hsLog⟩ ⟨conn.recvBuf, env.rnd⟩)
    (hview : conn'.tls = { conn.tls with hsLog := conn.logAfter o })
    (hst : conn'.state = .handshaking) (h13 : conn'.hs13 = some o.hs) :
    ConnInv C log k conn' := by
  have hname : conn'.serverName = conn.serverName := congrArg TlsView.serverName hview
  have hhost : conn'.host = conn.host := congrArg TlsView.host hview
  have hmode : conn'.tls13Mode = .trying := (congrArg TlsView.mode hview).trans hshook.mode
  have hlog : conn'.history.hsLog = conn.logAfter o := congrArg TlsView.hsLog hview
  refine ⟨hhost ▸ h.fits, hname ▸ h.named, ?_, ?_, ?_, ?_, fun _ => h.settled (.inr hshook.state)⟩
  · rw [hst]
    exact fun hno => by cases hno
  · rw [hmode]
    exact fun hno => by cases hno
  · intro _ _ hs' hsome
    obtain rfl := Option.some.inj (h13.symm.trans hsome)
    rw [hlog, hname]
    exact authInv_shook h hshook hasked
  · rw [hst]
    exact fun hno => by cases hno

/-- The handshake is done: the connection vouches for itself. -/
theorem connInv_opens13 {log : List Entry} {hs : HsCtx} {o : HsOut} {host : Bytes} {port : ℕ}
    (h : ConnInv C log k conn) (hview : conn'.tls =
      { conn.tls with mode := .open, hsLog := conn.logAfter o }) (hst : conn'.state = .open) :
    ConnInv C (log ++ [⟨k, host, port, .completed13 conn.serverName hs (conn.logAfter o)⟩]) k
      conn' := by
  have hname : conn'.serverName = conn.serverName := congrArg TlsView.serverName hview
  have hhost : conn'.host = conn.host := congrArg TlsView.host hview
  have hmode : conn'.tls13Mode = .open := congrArg TlsView.mode hview
  refine ⟨hhost ▸ h.fits, ?_, ?_, ?_, ?_, ?_, ?_⟩
  · rw [hname]
    exact h.named_append fun e he => by
      rw [List.mem_singleton.1 he]
      rfl
  · rw [hst]
    exact fun hno => by cases hno
  · rw [hmode]
    exact fun hno => by cases hno
  · rw [hst]
    exact fun hno => by cases hno
  · rw [hname]
    exact fun _ _ => ⟨_, List.mem_append_right _ (List.mem_singleton_self _), rfl, _, _, rfl⟩
  · rw [hst]
    exact fun hno => by simp [OstlsState.early] at hno

/-- From here on only TLS 1.2 is tried. -/
theorem connInv_fallsBack {log : List Entry} {hs : HsCtx} {o : HsOut} (h : ConnInv C log k conn)
    (hshook : Shook C conn env hs o) (hview : conn'.tls =
      { conn.tls with mode := .off, disabled := true, hsLog := conn.logAfter o }) :
    ConnInv C log k conn' := by
  have hname : conn'.serverName = conn.serverName := congrArg TlsView.serverName hview
  have hhost : conn'.host = conn.host := congrArg TlsView.host hview
  have hmode : conn'.tls13Mode = .off := congrArg TlsView.mode hview
  have hdis : conn'.tls13Disabled = true := congrArg TlsView.disabled hview
  refine ⟨hhost ▸ h.fits, hname ▸ h.named, fun _ => hmode, ?_, ?_, fun _ hne => absurd hmode hne,
    fun _ => h.settled (.inr hshook.state)⟩
  · rw [hdis]
    exact fun _ hno => by cases hno
  · rw [hmode]
    exact fun _ hno => by cases hno

/-- More entries of its own do not matter to a connection whose handshake is over. -/
theorem ConnInv.over {log es : List Entry} (h : ConnInv C log k conn)
    (hup : conn.state.isUp = true) (hnames : ∀ e ∈ es, e.event.serverName = conn.serverName) :
    ConnInv C (log ++ es) k conn := by
  have hover : ¬(conn.state.early = true ∨ conn.state = .handshaking) := by
    generalize conn.state = st at hup
    cases st with
    | idle => cases hup
    | connecting => cases hup
    | handshaking => cases hup
    | _ => simp [OstlsState.early]
  refine ⟨h.fits, h.named_append hnames, h.early, h.fresh,
    fun hst => absurd (.inr hst) hover, fun hup hmode => ?_, fun hst => absurd hst hover⟩
  obtain ⟨e, he, hentry⟩ := h.opened hup hmode
  exact ⟨e, List.mem_append_left _ he, hentry⟩

/-- The TLS 1.2 handshake is done. -/
theorem connInv_opens12 {log : List Entry} (h : ConnInv C log k conn)
    (hmode : conn.tls13Mode = .off) (hview : conn'.tls = conn.tls) (hst : conn'.state = .open) :
    ConnInv C log k conn' := by
  have hname : conn'.serverName = conn.serverName := congrArg TlsView.serverName hview
  have hhost : conn'.host = conn.host := congrArg TlsView.host hview
  have hmode' : conn'.tls13Mode = .off := (congrArg TlsView.mode hview).trans hmode
  have hdis : conn'.tls13Disabled = conn.tls13Disabled := congrArg TlsView.disabled hview
  have hlog : conn'.history.hsLog = conn.history.hsLog := congrArg TlsView.hsLog hview
  refine ⟨hhost ▸ h.fits, hname ▸ h.named, fun _ => hmode', ?_, ?_,
    fun _ hne => absurd hmode' hne, ?_⟩
  · rw [hdis, hlog]
    exact fun _ => h.fresh hmode
  · rw [hst]
    exact fun hno => by cases hno
  · rw [hst]
    exact fun hno => by simp [OstlsState.early] at hno

/-- What a connection with one name for its key has put into a cache, it has put there under that
name. -/
theorem serverName_of_entry (h : WorldInv C w) (hone : OneName w conn env) {e : Entry}
    (he : e ∈ w.log) (hhost : e.host = conn.host) (hport : Tries13 conn env ∨ e.port = conn.port) :
    e.event.serverName = conn.serverName := by
  have hother := List.getElem?_eq_getElem (h.owned e he)
  obtain ⟨hhost', hport'⟩ := h.placed e he _ hother
  rw [(h.conns _ _ hother).named e he rfl]
  refine hone _ (List.getElem_mem _) (hhost'.symm.trans hhost) (hport.imp_right fun hport => ?_)
  exact hport'.symm.trans hport

/-- A connection that starts TLS has put nothing into a cache. -/
theorem conn_ne_of_store (h : WorldInv C w) (hk : w.conns[k]? = some conn)
    (hset : SetsUp conn env) {e : Entry} (he : e ∈ w.log) (hstore : e.event.isStore = true) :
    e.conn ≠ k := by
  intro heq
  have hno := (h.conns k conn hk).settled (.inl (by rw [hset.state]; rfl)) e he heq
  rw [hstore] at hno
  cases hno

/-- What the ticket cache has under the host of a connection was stored by another one of its
name. -/
theorem storedTicket_of_hit (h : WorldInv C w) (hk : w.conns[k]? = some conn)
    (hset : SetsUp conn env) (htry : Tries13 conn env) (hone : OneName w conn env)
    {t : SessionTicket} {age : ℕ} (hhit : (w.proc conn).cachedTicket env = some (t, age)) :
    ∃ e ∈ w.log, e.conn ≠ k ∧ e.event = .storedTicket conn.serverName t := by
  have hticket := h.tickets.hit ⟨conn.host, (h.conns k conn hk).fits⟩ hhit
  obtain ⟨⟨name, t'⟩, hlatest, rfl⟩ := Option.map_eq_some_iff.1 hticket
  obtain ⟨e, he, hhost, hev⟩ := mem_of_ticketStores (FifoMap.mem_of_latest hlatest)
  have hname := serverName_of_entry h hone he hhost (.inl htry)
  rw [hev] at hname
  obtain rfl : name = conn.serverName := hname
  exact ⟨e, he, conn_ne_of_store h hk hset he (by rw [hev]; rfl), hev⟩

theorem storedSession_of_hit (h : WorldInv C w) (hk : w.conns[k]? = some conn)
    (hset : SetsUp conn env) (hone : OneName w conn env)
    {s : SessionParameters} (hhit : (w.proc conn).cachedSession = some s) :
    ∃ e ∈ w.log, e.conn ≠ k ∧ e.event = .storedSession conn.serverName s := by
  have hsession := h.sessions.hit hhit
  obtain ⟨⟨name, s'⟩, hlatest, rfl⟩ := Option.map_eq_some_iff.1 hsession
  obtain ⟨e, he, hkey, hne, hev⟩ := mem_of_sessionStores (FifoMap.mem_of_latest hlatest)
  obtain ⟨hhost, hport⟩ := eq_of_sessCacheMakeKey hkey (by rw [hkey]; exact hne)
  have hname := serverName_of_entry h hone he hhost (.inr hport)
  rw [hev] at hname
  obtain rfl : name = conn.serverName := hname
  exact ⟨e, he, conn_ne_of_store h hk hset he (by rw [hev]; rfl), hev⟩

/-- A turn leaves the host and the port of a connection as they are. -/
theorem Resumes.placed {q : Proc E} (h : Resumes C G p env q) :
    q.conn.host = p.conn.host ∧ q.conn.port = p.conn.port := by
  have hview : ∀ {conn' : Conn E} {mode : T13Mode} {disabled : Bool} {hsLog : List HsEvent},
      conn'.tls = { p.conn.tls with mode, disabled, hsLog } →
      conn'.host = p.conn.host ∧ conn'.port = p.conn.port := fun h =>
    ⟨congrArg TlsView.host h, congrArg TlsView.port h⟩
  cases h with
  | keeps h | stores13 _ _ h => exact hview h.view
  | tries13 _ _ _ h | offers13 _ _ _ h | tries12 _ _ _ h | offers12 _ _ _ h => exact hview h
  | shakes _ h _ _ hkeeps => exact hview (hkeeps.view.trans h)
  | opens13 _ _ h | fallsBack _ h | opens12 _ _ h => exact hview h

/-- A turn within one name keeps the invariant. -/
theorem worldInv_turn (h : WorldInv C w) (hk : w.conns[k]? = some conn)
    (hname : SetsUp conn env → OneName w conn env)
    (hasked : conn.state = .handshaking → conn.tls13Mode = .trying → ∀ hs ∈ conn.hs13,
      PskSolicited ⟨hs, conn.history.hsLog⟩ ⟨conn.recvBuf, env.rnd⟩)
    (hp : Resumes C G (w.proc conn) env p) : WorldInv C (w.put k p) := by
  have hinv := h.conns k conn hk
  have hplace : p.conn.host = conn.host ∧ p.conn.port = conn.port := hp.placed
  have hget := h.tickets.get ⟨conn.host, hinv.fits⟩ env.ticks 60
  -- one entry that stores nothing
  have hone : ∀ {host : Bytes} {port : ℕ} {ev : ResumeEvent}, ev.serverName = conn.serverName →
      Needs C w.log k ev → Grounded (Rests C) (w.log ++ [⟨k, host, port, ev⟩]) := by
    intro host port ev hname hneeds
    exact h.grounded.concat ⟨fun e he hconn => (hinv.named e he hconn).trans hname.symm, hneeds⟩
  cases hp with
  | keeps hkeeps => exact worldInv_put_nil h hk hplace rfl (hinv.keeps hkeeps) h.tickets rfl
  | @tries13 conn' hset htry hmiss hview hst h13 =>
    have hconn : ConnInv C (w.log ++ []) k conn' :=
      connInv_tries13 hinv hset htry hview hst h13 (by simp) (by simp) (by simp)
    rw [List.append_nil] at hconn
    exact worldInv_put_nil h hk hplace rfl hconn hget rfl
  | @offers13 conn' t age age' hset htry hhit hview hst h13 =>
    refine worldInv_put h hk hplace
      [⟨k, conn'.host, conn'.port, .offeredTicket conn.serverName t⟩] rfl ?_ ?_ ?_ ?_
    · refine connInv_tries13 hinv hset htry hview hst h13 ?_ ?_ ?_
      · simp [ResumeEvent.serverName]
      · simp [ResumeEvent.isStore]
      · simp
    · exact hget.append (by simp [Entry.ticketStore])
    · exact h.sessions.append (by simp [Entry.sessionStore])
    · exact hone rfl (storedTicket_of_hit h hk hset htry (hname hset) hhit)
  | @tries12 conn' hset htry hmiss hview hst =>
    have hconn : ConnInv C (w.log ++ []) k conn' :=
      connInv_tries12 hinv hset hview (by simp) (by simp)
    rw [List.append_nil] at hconn
    exact worldInv_put_nil h hk hplace rfl hconn h.tickets rfl
  | @offers12 conn' s hset htry hhit hview hst =>
    refine worldInv_put h hk hplace
      [⟨k, conn'.host, conn'.port, .offeredSession conn.serverName s⟩] rfl ?_ ?_ ?_ ?_
    · refine connInv_tries12 hinv hset hview ?_ ?_
      · simp [ResumeEvent.serverName]
      · simp [ResumeEvent.isStore]
    · exact h.tickets.append (by simp [Entry.ticketStore])
    · exact h.sessions.append (by simp [Entry.sessionStore])
    · exact hone rfl (storedSession_of_hit h hk hset (hname hset) hhit)
  | shakes hshook hview hst h13 hkeeps =>
    have hmid := connInv_shakes hinv hshook (hasked hshook.state hshook.mode) hview hst h13
    exact worldInv_put_nil h hk hplace rfl (hmid.keeps hkeeps) h.tickets rfl
  | @opens13 conn' hs o hshook hdone hview hst =>
    refine worldInv_put h hk hplace
      [⟨k, conn'.host, conn'.port, .completed13 conn.serverName o.hs (conn.logAfter o)⟩] rfl
      ?_ ?_ ?_ ?_
    · exact connInv_opens13 hinv hview hst
    · exact h.tickets.append (by simp [Entry.ticketStore])
    · exact h.sessions.append (by simp [Entry.sessionStore])
    · obtain ⟨hauth, hoffered⟩ := authInv_shook hinv hshook (hasked hshook.state hshook.mode)
      refine hone rfl ?_
      obtain hverified | ⟨t, m, ht, -⟩ := authenticated_of_authInv hauth hdone
      · exact .inl hverified
      · exact .inr ⟨t, hoffered t ht⟩
  | fallsBack hshook hview hst =>
    exact worldInv_put_nil h hk hplace rfl (connInv_fallsBack hinv hshook hview) h.tickets rfl
  | @stores13 conn' t hup hmode hkeeps =>
    have hhost : conn'.host = conn.host := congrArg TlsView.host hkeeps.view
    refine worldInv_put h hk hplace
      [⟨k, conn'.host, conn'.port, .storedTicket conn.serverName t⟩] rfl ?_ ?_ ?_ ?_
    · refine (hinv.over hup ?_).keeps hkeeps
      simp [ResumeEvent.serverName]
    · rw [hhost]
      exact h.tickets.put ⟨conn.host, hinv.fits⟩ k conn'.port env.ticks conn.serverName t
    · exact h.sessions.append (by simp [Entry.sessionStore])
    · exact hone rfl (hinv.opened hup hmode)
  | @opens12 conn' s hst hmode hview hst' =>
    have hhost : conn'.host = conn.host := congrArg TlsView.host hview
    have hport : conn'.port = conn.port := congrArg TlsView.port hview
    have hname : conn'.serverName = conn.serverName := congrArg TlsView.serverName hview
    refine worldInv_put h hk hplace [⟨k, conn'.host, conn'.port, .completed12 conn.serverName⟩,
      ⟨k, conn'.host, conn'.port, .storedSession conn.serverName s⟩] rfl ?_ ?_ ?_ ?_
    · refine (connInv_opens12 hinv hmode hview hst').over (by rw [hst']; rfl) ?_
      simp [ResumeEvent.serverName, hname]
    · exact h.tickets.append (by simp [Entry.ticketStore])
    · rw [hhost, hport, List.append_cons w.log]
      refine SessionsInv.put ?_ k conn.port conn.host conn.serverName s
      exact h.sessions.append (by simp [Entry.sessionStore])
    · have hcompleted : Grounded (Rests C)
          (w.log ++ [⟨k, conn'.host, conn'.port, .completed12 conn.serverName⟩]) :=
        hone rfl trivial
      rw [List.append_cons w.log]
      refine hcompleted.concat ⟨fun e he hconn => ?_, ?_⟩
      · refine hinv.named_append (fun e he => ?_) e he hconn
        rw [List.mem_singleton.1 he]
        rfl
      · exact ⟨_, List.mem_append_right _ (List.mem_singleton_self _), rfl, rfl⟩

end

/-- Every step within one name keeps the invariant. -/
theorem worldInv_step {i : WorldInput} (h : WorldInv C w) (hok : Guarded w i) :
    WorldInv C (w.step C G i) := by
  cases i with
  | new config allocOk => exact worldInv_new h config allocOk
  | call k a =>
    unfold World.step
    dsimp only
    split
    · exact h
    · rename_i conn hk
      have hkeeps : ∀ conn', Keeps conn conn' →
          WorldInv C (w.put k { w.proc conn with conn := conn' }) := fun conn' hkeep =>
        worldInv_put_nil h hk
          ⟨congrArg TlsView.host hkeep.view, congrArg TlsView.port hkeep.view⟩ rfl
          ((h.conns k conn hk).keeps hkeep) h.tickets rfl
      split_ifs with hcall
      · by_cases hturn : ∃ env, a = .turn env
        · obtain ⟨env, rfl⟩ := hturn
          unfold Proc.step
          dsimp only
          split_ifs with hdis
          · exact hkeeps conn (.refl conn)
          · obtain ⟨hname, hasked⟩ := hok conn hk (Bool.eq_false_iff.2 hdis)
            exact worldInv_turn h hk hname hasked (resumes_pumpTurn _ env)
        · -- a call that is no turn leaves the caches alone
          have hothers : ∀ tickets sessions log, a ≠ .others tickets sessions log := by
            rintro tickets sessions log rfl
            cases hcall
          obtain ⟨conn', hkeep, hstep⟩ := keeps_step (p := w.proc conn) (C := C) (G := G)
            (fun env heq => hturn ⟨env, heq⟩) hothers
          rw [hstep]
          exact hkeeps conn' hkeep
      · exact h

/-- **Resumption within names.**  In every run of any number of connections in which those to one
host (where TLS 1.2 is started, to one host and port) have one `server_name`, and no server selects
a PSK unasked, a ticket or session is only offered by a connection of the name it was stored under,
and no handshake is completed for a name that was never validated. -/
theorem resumption_within_name (h : Reach (World.step C G) Guarded .start w) :
    NeverCrosses C w := by
  have hinv : WorldInv C w := h.invariant worldInv_start fun _ _ => worldInv_step
  refine neverCrosses_of_grounded hinv.grounded fun e he => ?_
  have hlt := hinv.owned e he
  refine ⟨w.conns[e.conn], List.getElem?_eq_getElem hlt, ?_⟩
  exact ((hinv.conns e.conn _ (List.getElem?_eq_getElem hlt)).named e he rfl).symm

/-! ### Two connections to one host -/

/-- What happens to a connection, in the world. -/
def onConn (k : ℕ) (f : Proc E → Action) (w : World E) : WorldInput :=
  match w.conns[k]? with
  | some conn => .call k (f (w.proc conn))
  | none => .call k .enter

/-- A connection to the host `[1]` under a name. -/
def connectAs (name : Bytes) (_ : World E) : WorldInput := .new ⟨[1], 443, name, 0, 0⟩ true

/-- A handshake record in which the server sends a ticket. -/
def sendsTicket (s : Session) : StepInput :=
  ⟨applicationRecord
    (tls13RecordEncrypt .transparent s.hs.readCtx ticketMessage tls13CtHandshake).2, .zero⟩

/-- A connection that gets a ticket and is disposed of. -/
def getsTicket : List (Proc Unit → Action) :=
  opensTls13 ++ serves sendsTicket ++ [fun _ => .dispose]

/-- A connection whose server selects the PSK, and goes on from EncryptedExtensions to its
Finished. -/
def getsResumed : List (Proc Unit → Action) :=
  startsTls13 ++ (((impostor .transparent).zip [turns, serves, serves, serves, turns]).flatMap
    fun x => x.2 x.1) ++ [fun _ => .turn sendEnv]

/-- Two connections to one host, the second one under this name. -/
def twoConnections (name : Bytes) : List (World Unit → WorldInput) :=
  [connectAs [1]] ++ getsTicket.map (onConn 0) ++ [connectAs name] ++ getsResumed.map (onConn 1)

theorem resumption_within_name_twice :
    let w := play (World.step .transparent waitingEngine) .start (twoConnections [1])
    w.log.length = 4 ∧ NeverCrosses .transparent w :=
  ⟨by decide +kernel, resumption_within_name (reach_play (by decide +kernel))⟩

/-- The name of a completed TLS 1.3 handshake, and whether a certificate chain was gone through. -/
def ResumeEvent.chain13 : ResumeEvent → Option (Bytes × Bool)
  | .completed13 name _ evs => some (name, evs.any HsEvent.isEndChain)
  | _ => none

/-- A second connection to the same host is accepted under a name that no certificate was ever
validated for. -/
theorem resumption_crosses :
    ¬∀ (C : Crypto) (E : Type) (G : Engine E) (w : World E),
      Reach (World.step C G) WorldLawful .start w → NeverCrosses C w := by
  intro h
  let w := play (World.step .transparent waitingEngine) .start (twoConnections [2])
  have hw : NeverCrosses .transparent w :=
    h .transparent Unit waitingEngine w (reach_play (by decide +kernel))
  have hchains : w.log.filterMap (fun e => e.event.chain13) = [([1], true), ([2], false)] := by
    decide +kernel
  obtain ⟨e, he, hlast⟩ := List.mem_filterMap.1
    (show ([2], false) ∈ w.log.filterMap (fun e => e.event.chain13) by rw [hchains]; simp)
  obtain ⟨hs, evs, hev⟩ : ∃ hs evs, e.event = .completed13 [2] hs evs := by
    cases hcase : e.event with
    | completed13 name hs evs =>
      rw [hcase] at hlast
      obtain rfl : name = [2] := congrArg Prod.fst (Option.some.inj hlast)
      exact ⟨hs, evs, rfl⟩
    | _ =>
      rw [hcase] at hlast
      cases hlast
  obtain ⟨before, after, heq⟩ := List.append_of_mem he
  obtain ⟨v, hv, hs', evs', hcomplete, hverified⟩ := hw.complete13 before e after _ _ _ heq hev
  -- the certificate that was validated has its mark in the events
  have hmark : evs'.any HsEvent.isEndChain = true := by
    obtain ⟨certs, pkey, cert, before, after, -, -, hend, -⟩ := hverified
    exact List.any_eq_true.2 ⟨_, hend, rfl⟩
  have hvlog : v ∈ w.log := by
    rw [heq, List.append_cons]
    exact List.mem_append_left _ hv
  have hmem : ([2], true) ∈ w.log.filterMap (fun e => e.event.chain13) := by
    refine List.mem_filterMap.2 ⟨v, hvlog, ?_⟩
    rw [hcomplete, ResumeEvent.chain13, hmark]
  rw [hchains] at hmem
  simp at hmem

end MacTLS
