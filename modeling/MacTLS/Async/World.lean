import MacTLS.Async.Resuming
import MacTLS.Async.SessionCache
import MacTLS.Lib.Grounded

/-!
# The connections of an application

All connections share the two caches.  A run is any sequence of new connections and of calls on
the ones there are, and its log says which connection offered, stored or completed what.

* `World`, `World.step` : the connections with the caches, and what a call does to them;
* `TicketsInv`, `SessionsInv` : what is in a cache was stored last under its key;
* `ConnInv` : how far a connection is, in the terms of the log.
-/

namespace MacTLS

open Lib

variable {E : Type} {C : Crypto} {G : Engine E}

/-! ### The world -/

/-- A resumption event, with the connection it is of. -/
structure Entry where
  conn : ℕ
  host : Bytes
  port : ℕ
  event : ResumeEvent
  deriving DecidableEq

/-- The connections in the order in which they were made, and what they share. -/
structure World (E : Type) where
  conns : List (Conn E)
  tickets : TicketCache
  sessions : SessCache
  log : List Entry

/-- No connection, and empty caches. -/
def World.start : World E := ⟨[], .reset, [], []⟩

/-- A connection as the process its functions see. -/
def World.proc (w : World E) (conn : Conn E) : Proc E := ⟨conn, w.tickets, w.sessions, []⟩

inductive WorldInput where
  /-- `OSTLS_New` is called. -/
  | new (config : OstlsConfig) (allocOk : Bool)
  /-- Something happens to the connection of this number. -/
  | call (k : ℕ) (a : Action)

/-- Not just what the others do, which the world does itself. -/
def Action.isCall : Action → Bool
  | .others .. => false
  | _ => true

/-- The connection `k` has taken a step, and this is what it left behind. -/
def World.put (w : World E) (k : ℕ) (p : Proc E) : World E where
  conns := w.conns.set k p.conn
  tickets := p.tickets
  sessions := p.sessions
  log := w.log ++ p.resumeLog.map (Entry.mk k p.conn.host p.conn.port)

def World.step (C : Crypto) (G : Engine E) (w : World E) : WorldInput → World E
  | .new config allocOk =>
    match (ostlsNew G config allocOk).2 with
    | none => w
    | some conn => { w with conns := w.conns ++ [conn] }
  | .call k a =>
    match w.conns[k]? with
    | none => w
    | some conn => if a.isCall then w.put k ((w.proc conn).step C G a) else w

/-- What Open Transport may deliver to the connections. -/
def WorldLawful (w : World E) : WorldInput → Prop
  | .new .. => True
  | .call k a => ∀ conn ∈ w.conns[k]?, OtLawful (w.proc conn) a

instance (w : World E) (i : WorldInput) : Decidable (WorldLawful w i) :=
  match i with
  | .new .. => isTrue trivial
  | .call k a => inferInstanceAs (Decidable (∀ conn ∈ w.conns[k]?, OtLawful (w.proc conn) a))

/-! ### The log -/

/-- The `server_name` of the connection of an event. -/
def ResumeEvent.serverName : ResumeEvent → Bytes
  | .offeredTicket name _ | .storedTicket name _ | .offeredSession name _
  | .storedSession name _ | .completed13 name _ _ | .completed12 name => name

/-- Something was put into a cache. -/
def ResumeEvent.isStore : ResumeEvent → Bool
  | .storedTicket .. | .storedSession .. => true
  | _ => false

/-- What an entry puts into the ticket cache: the host, with the name of the connection and the
ticket. -/
def Entry.ticketStore (e : Entry) : Option (Bytes × Bytes × SessionTicket) :=
  match e.event with
  | .storedTicket name t => if t.Storable then some (e.host, name, t) else none
  | _ => none

/-- What an entry puts into the session cache: the key, with the name of the connection and the
session. -/
def Entry.sessionStore (e : Entry) : Option (Bytes × Bytes × SessionParameters) :=
  match e.event with
  | .storedSession name s =>
    if sessCacheMakeKey e.host e.port = [] then none
    else some (sessCacheMakeKey e.host e.port, name, s)
  | _ => none

def ticketStores (log : List Entry) : List (Bytes × Bytes × SessionTicket) :=
  log.filterMap Entry.ticketStore

def sessionStores (log : List Entry) : List (Bytes × Bytes × SessionParameters) :=
  log.filterMap Entry.sessionStore

/-- A ticket that was put into the cache has its entry. -/
theorem mem_of_ticketStores {log : List Entry} {host name : Bytes} {t : SessionTicket}
    (h : (host, name, t) ∈ ticketStores log) :
    ∃ e ∈ log, e.host = host ∧ e.event = .storedTicket name t := by
  obtain ⟨e, he, hstore⟩ := List.mem_filterMap.1 h
  refine ⟨e, he, ?_⟩
  unfold Entry.ticketStore at hstore
  split at hstore
  · rename_i hevent
    split_ifs at hstore
    cases hstore
    exact ⟨rfl, hevent⟩
  · cases hstore

theorem mem_of_sessionStores {log : List Entry} {key name : Bytes} {s : SessionParameters}
    (h : (key, name, s) ∈ sessionStores log) :
    ∃ e ∈ log, sessCacheMakeKey e.host e.port = key ∧ key ≠ [] ∧
      e.event = .storedSession name s := by
  obtain ⟨e, he, hstore⟩ := List.mem_filterMap.1 h
  refine ⟨e, he, ?_⟩
  unfold Entry.sessionStore at hstore
  split at hstore
  · rename_i hevent
    split_ifs at hstore with hkey
    cases hstore
    exact ⟨rfl, hkey, hevent⟩
  · cases hstore

/-! ### The caches -/

/-- The ticket of a host is the one that was stored for it last. -/
def TicketsInv (cache : TicketCache) (log : List Entry) : Prop :=
  ∃ latest, CacheInv cache latest ∧ ∀ host slot, latest host = some slot →
    (FifoMap.latest host.name (ticketStores log)).map Prod.snd = some slot.ticket

theorem TicketsInv.start : TicketsInv .reset [] :=
  ⟨fun _ => none, .reset, fun _ _ h => (by cases h)⟩

/-- Other entries do not matter. -/
theorem TicketsInv.append {cache : TicketCache} {log es : List Entry} (h : TicketsInv cache log)
    (hes : ∀ e ∈ es, e.ticketStore = none) : TicketsInv cache (log ++ es) := by
  obtain ⟨latest, hinv, hlast⟩ := h
  refine ⟨latest, hinv, fun host slot hslot => ?_⟩
  rw [ticketStores, List.filterMap_append, List.filterMap_eq_nil_iff.2 hes, List.append_nil]
  exact hlast host slot hslot

theorem TicketsInv.get {cache : TicketCache} {log : List Entry} (h : TicketsInv cache log)
    (host : Host) (now ticksPerSec : ℕ) :
    TicketsInv (ostlsTicketCacheGet cache host.name now ticksPerSec).1 log := by
  obtain ⟨latest, hinv, hlast⟩ := h
  exact ⟨latest, hinv.run (.get host now ticksPerSec), hlast⟩

theorem TicketsInv.put {cache : TicketCache} {log : List Entry} (h : TicketsInv cache log)
    (host : Host) (k port now : ℕ) (name : Bytes) (t : SessionTicket) :
    TicketsInv (ostlsTicketCachePut cache host.name t now)
      (log ++ [⟨k, host.name, port, .storedTicket name t⟩]) := by
  obtain ⟨latest, hinv, hlast⟩ := h
  refine ⟨_, hinv.run (.put host t now), fun host' slot hslot => ?_⟩
  rw [ticketStores, List.filterMap_append]
  change (if host = host' ∧ t.Storable then _ else latest host') = some slot at hslot
  by_cases ht : t.Storable
  · rw [show [(⟨k, host.name, port, .storedTicket name t⟩ : Entry)].filterMap Entry.ticketStore =
      [(host.name, name, t)] by simp [Entry.ticketStore, ht], FifoMap.latest_concat]
    by_cases hhost : host = host'
    · rw [if_pos ⟨hhost, ht⟩] at hslot
      cases hslot
      rw [if_pos (congrArg Host.name hhost)]
      rfl
    · rw [if_neg fun hboth => hhost hboth.1] at hslot
      rw [if_neg fun hname => hhost (Host.ext hname)]
      exact hlast host' slot hslot
  · rw [show [(⟨k, host.name, port, .storedTicket name t⟩ : Entry)].filterMap Entry.ticketStore =
      [] by simp [Entry.ticketStore, ht], List.append_nil]
    rw [if_neg fun hboth => ht hboth.2] at hslot
    exact hlast host' slot hslot

/-- A ticket that the cache has. -/
theorem TicketsInv.hit {cache : TicketCache} {log : List Entry} (h : TicketsInv cache log)
    (host : Host) {now ticksPerSec age : ℕ} {t : SessionTicket}
    (hget : (ostlsTicketCacheGet cache host.name now ticksPerSec).2 = some (t, age)) :
    (FifoMap.latest host.name (ticketStores log)).map Prod.snd = some t := by
  obtain ⟨latest, hinv, hlast⟩ := h
  have hlook := looked cache host.name now ticksPerSec
  generalize ostlsTicketCacheGet cache host.name now ticksPerSec = r at hlook hget
  cases hlook with
  | miss => cases hget
  | expired => cases hget
  | live slot hslot =>
    rw [Host.take_name] at hslot
    cases hget
    exact hlast host slot (hinv.latest host slot hslot)

/-- The session cache has the last stores, without their names. -/
def SessionsInv (cache : SessCache) (log : List Entry) : Prop :=
  cache = FifoMap.after ostlsSessMax ((sessionStores log).map fun x => (x.1, x.2.2))

theorem SessionsInv.append {cache : SessCache} {log es : List Entry} (h : SessionsInv cache log)
    (hes : ∀ e ∈ es, e.sessionStore = none) : SessionsInv cache (log ++ es) := by
  rw [SessionsInv, sessionStores, List.filterMap_append, List.filterMap_eq_nil_iff.2 hes,
    List.append_nil]
  exact h

/-- A key is either empty or fits its field. -/
theorem length_sessCacheMakeKey (host : Bytes) (port : ℕ) :
    (sessCacheMakeKey host port).length ≤ 279 := by
  unfold sessCacheMakeKey
  dsimp only
  split_ifs with hlen
  · exact Nat.zero_le _
  · exact Nat.le_of_lt_succ (Nat.not_le.1 hlen)

theorem SessionsInv.put {cache : SessCache} {log : List Entry} (h : SessionsInv cache log)
    (k port : ℕ) (host name : Bytes) (s : SessionParameters) :
    SessionsInv (sessCachePut cache (sessCacheMakeKey host port) s)
      (log ++ [⟨k, host, port, .storedSession name s⟩]) := by
  by_cases hkey : sessCacheMakeKey host port = []
  · rw [sessCachePut, if_pos hkey]
    exact h.append fun e he => by
      rw [List.mem_singleton.1 he]
      exact if_pos hkey
  · rw [SessionsInv, sessionStores, List.filterMap_append,
      show [(⟨k, host, port, .storedSession name s⟩ : Entry)].filterMap Entry.sessionStore =
        [(sessCacheMakeKey host port, name, s)] by simp [Entry.sessionStore, hkey],
      List.map_append, List.map_singleton, FifoMap.after_concat,
      sessCachePut_eq cache ⟨_, hkey, length_sessCacheMakeKey host port⟩, h]
    rfl

/-- A session that the cache has. -/
theorem SessionsInv.hit {cache : SessCache} {log : List Entry} (h : SessionsInv cache log)
    {host : Bytes} {port : ℕ} {s : SessionParameters}
    (hget : sessCacheGet cache (sessCacheMakeKey host port) = some s) :
    (FifoMap.latest (sessCacheMakeKey host port) (sessionStores log)).map Prod.snd = some s := by
  by_cases hkey : sessCacheMakeKey host port = []
  · rw [sessCacheGet, if_pos hkey] at hget
    cases hget
  · rw [sessCacheGet_eq cache ⟨_, hkey, length_sessCacheMakeKey host port⟩, h] at hget
    rw [← FifoMap.latest_map]
    exact FifoMap.latest_of_find (by decide) hget

/-! ### One connection -/

/-- How far a connection is, in the terms of the log. -/
structure ConnInv (C : Crypto) (log : List Entry) (k : ℕ) (conn : Conn E) : Prop where
  /-- `OSTLS_New` takes no longer host. -/
  fits : conn.host.length ≤ 255
  named : ∀ e ∈ log, e.conn = k → e.event.serverName = conn.serverName
  early : conn.state.early = true → conn.tls13Mode = .off
  /-- Before TLS 1.3 is tried. -/
  fresh : conn.tls13Mode = .off → conn.tls13Disabled = false → conn.history.hsLog = []
  /-- While it is tried. -/
  trying : conn.state = .handshaking → conn.tls13Mode = .trying → ∀ hs, conn.hs13 = some hs →
    AuthInv C conn.serverName ⟨hs, conn.history.hsLog⟩ ∧ ∀ t, hs.offerTicket = some t →
      ∃ e ∈ log, e.conn = k ∧ e.event = .offeredTicket conn.serverName t
  /-- After it was chosen. -/
  opened : conn.state.isUp = true → conn.tls13Mode ≠ .off →
    ∃ e ∈ log, e.conn = k ∧ ∃ hs evs, e.event = .completed13 conn.serverName hs evs
  /-- Only a connection whose handshake is over puts something into a cache. -/
  settled : conn.state.early = true ∨ conn.state = .handshaking →
    ∀ e ∈ log, e.conn = k → e.event.isStore = false

/-- The bytes that were sent do not matter to a handshake. -/
theorem AuthInv.sent {hostname : Bytes} {hs : HsCtx} {evs : List HsEvent}
    (h : AuthInv C hostname ⟨hs, evs⟩) (n : ℕ) :
    AuthInv C hostname ⟨{ hs with msgOffset := n }, evs⟩ :=
  ⟨⟨h.wf.hrrPending, h.wf.plainOk⟩, h.noCcs, h.hash, h.solicited, h.offered, h.early, h.parked,
    h.validated, h.verified⟩

section

variable {log es : List Entry} {k : ℕ} {conn conn' : Conn E}

/-- What the other connections do leaves a connection as it is. -/
theorem ConnInv.append (h : ConnInv C log k conn) (hes : ∀ e ∈ es, e.conn ≠ k) :
    ConnInv C (log ++ es) k conn := by
  refine ⟨h.fits, fun e he hk => ?_, h.early, h.fresh, fun hst hmode hs h13 => ?_,
    fun hup hmode => ?_, fun hst e he hk => ?_⟩
  · obtain he | he := List.mem_append.1 he
    · exact h.named e he hk
    · exact absurd hk (hes e he)
  · obtain ⟨hauth, hoffered⟩ := h.trying hst hmode hs h13
    refine ⟨hauth, fun t ht => ?_⟩
    obtain ⟨e, he, hentry⟩ := hoffered t ht
    exact ⟨e, List.mem_append_left _ he, hentry⟩
  · obtain ⟨e, he, hentry⟩ := h.opened hup hmode
    exact ⟨e, List.mem_append_left _ he, hentry⟩
  · obtain he | he := List.mem_append.1 he
    · exact h.settled hst e he hk
    · exact absurd hk (hes e he)

theorem ConnInv.keeps (h : ConnInv C log k conn) (hkeeps : Keeps conn conn') :
    ConnInv C log k conn' := by
  have hname : conn'.serverName = conn.serverName := congrArg TlsView.serverName hkeeps.view
  have hhost : conn'.host = conn.host := congrArg TlsView.host hkeeps.view
  have hmode : conn'.tls13Mode = conn.tls13Mode := congrArg TlsView.mode hkeeps.view
  have hdis : conn'.tls13Disabled = conn.tls13Disabled := congrArg TlsView.disabled hkeeps.view
  have hlog : conn'.history.hsLog = conn.history.hsLog := congrArg TlsView.hsLog hkeeps.view
  refine ⟨hhost ▸ h.fits, ?_, ?_, ?_, ?_, ?_, ?_⟩
  · rw [hname]
    exact h.named
  · rw [hmode]
    exact fun hst => h.early (hkeeps.early hst)
  · rw [hmode, hdis, hlog]
    exact h.fresh
  · rw [hmode, hname, hlog]
    intro hst hmode hs' h13
    obtain ⟨hst, hctx⟩ := hkeeps.handshaking hst
    obtain ⟨hs, n, hsome, rfl⟩ := hctx hs' h13
    obtain ⟨hauth, hoffered⟩ := h.trying hst hmode hs hsome
    exact ⟨hauth.sent n, hoffered⟩
  · rw [hmode, hname]
    exact fun hup => h.opened (hkeeps.up hup)
  · exact fun hst => h.settled (hst.imp hkeeps.early fun hst => (hkeeps.handshaking hst).1)

/-- A connection that `OSTLS_New` has just made. -/
theorem connInv_init {config : OstlsConfig} {allocOk : Bool}
    (hnew : (ostlsNew G config allocOk).2 = some conn) (hlog : ∀ e ∈ log, e.conn ≠ k) :
    ConnInv C log k conn := by
  unfold ostlsNew at hnew
  split_ifs at hnew with hport hlen halloc
  cases hnew
  refine ⟨?_, fun e he hk => absurd hk (hlog e he), fun _ => rfl, fun _ _ => rfl,
    fun hst => (by cases hst), fun hup => (by cases hup), fun _ e he hk => absurd hk (hlog e he)⟩
  have hhost : (Conn.init G config).host = config.host := rfl
  rw [hhost]
  omega

end

end MacTLS
