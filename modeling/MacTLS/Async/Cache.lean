import MacTLS.Handshake.Basic
import MacTLS.Sprintf

/-!
# Tickets and sessions across connections

What a connection leaves behind for later ones: the NewSessionTicket messages after a TLS 1.3
handshake with the ticket cache they go to, and the session cache of the TLS 1.2 path.

The ticket cache has six slots keyed by the host, the session cache sixteen entries keyed by
`host:port`; neither knows the server name that a connection was validated for.
-/

namespace MacTLS

open Lib

/-! ### NewSessionTicket -/

/-- Longest ticket that is kept. -/
def tls13MaxTicketLen : ℕ := 512

/-- Parse a NewSessionTicket into `out`: success, and the ticket as left behind, of which the
first two fields are also stored when a later check fails. -/
def tls13ParseNewSessionTicket (C : Crypto) (hs : HsCtx) (msg : Bytes) (out : SessionTicket) :
    Bool × SessionTicket :=
  if !hs.resMasterValid then (false, out)
  else if msg.length < 4 then (false, out)
  else if byteAt msg 0 ≠ tls13HtNewSessionTicket then (false, out)
  else
    let lim := 4 + getU24 msg 1
    if lim > msg.length then (false, out)
    else if 12 > lim then (false, out)
    else
      let out := { out with lifetime := getU32 msg 4, ageAdd := getU32 msg 8 }
      if 13 > lim then (false, out)
      else
        let nonceLen := (byteAt msg 12).toNat
        if 13 + nonceLen > lim then (false, out)
        else
          let off := 13 + nonceLen
          if off + 2 > lim then (false, out)
          else
            let tlen := getU16 msg off
            if tlen = 0 ∨ off + 2 + tlen > lim then (false, out)
            else if tlen > tls13MaxTicketLen then (false, out)
            else (true,
              { out with
                ticket := slice msg (off + 2) tlen
                cipherSuite := hs.cipherSuite
                psk := tls13KsDeriveResumptionPsk C hs.ks hs.resMaster (slice msg 13 nonceLen)
                valid := true })

/-- Handle a message after the handshake: a ticket is stashed in the context, anything else is an
error that the caller ignores. -/
def tls13HandlePostHandshake (C : Crypto) (hs : HsCtx) (data : Bytes) : HsResult × HsCtx :=
  if data.length < 1 then (.error, { hs with error := brErrBadParam })
  else if byteAt data 0 = tls13HtNewSessionTicket then
    match tls13ParseNewSessionTicket C hs data hs.ticket with
    | (true, ticket) => (.ok, { hs with ticket, ticketValid := true })
    | (false, ticket) => (.ok, { hs with ticket })
  else (.error, { hs with error := brErrUnexpected })

theorem tls13HandlePostHandshake_frame (C : Crypto) (hs : HsCtx) (data : Bytes) :
    ∃ ticket ticketValid error, (tls13HandlePostHandshake C hs data).2 =
      { hs with ticket, ticketValid, error } := by
  unfold tls13HandlePostHandshake
  split_ifs
  · exact ⟨_, _, _, rfl⟩
  · split <;> exact ⟨_, _, _, rfl⟩
  · exact ⟨_, _, _, rfl⟩

/-! ### The ticket cache -/

def ostlsTicketCacheSlots : ℕ := 6

/-- A slot in use. -/
structure TicketSlot where
  host : Bytes
  /-- The caller's clock when the ticket was stored. -/
  received : ℕ
  ticket : SessionTicket
  deriving DecidableEq

/-- The slots; `none` is a slot with `used = 0`. -/
abbrev TicketCache := List (Option TicketSlot)

def TicketCache.reset : TicketCache := List.replicate ostlsTicketCacheSlots none

/-- Hosts are compared over the size of the slot field. -/
def hostEq (a b : Bytes) : Bool := a.take 255 == b.take 255

/-- A slot in use for this host. -/
def slotFor (host : Bytes) : Option TicketSlot → Bool
  | none => false
  | some slot => hostEq slot.host host

/-- The slot stored first, the lowest index first among equals. -/
def oldestSlot (cache : TicketCache) : ℕ :=
  let received (i : ℕ) : ℕ := ((cache.getD i none).map (·.received)).getD 0
  (List.range cache.length).foldl (fun best i => if received i < received best then i else best) 0

/-- Store a ticket: over the one of the same host, else in an empty slot, else over the oldest. -/
def ostlsTicketCachePut (cache : TicketCache) (host : Bytes) (t : SessionTicket) (now : ℕ) :
    TicketCache :=
  if !t.valid ∨ t.ticket.length = 0 then cache
  else
    let target := match cache.findIdx? (slotFor host) with
      | some i => i
      | none => match cache.findIdx? Option.isNone with
        | some i => i
        | none => oldestSlot cache
    cache.set target (some ⟨host.take 255, now, t⟩)

/-- `a - b` on a `uint32_t` clock. -/
def elapsed32 (a b : ℕ) : ℕ := (a + 4294967296 - b % 4294967296) % 4294967296

/-- Look up a live ticket and its age in milliseconds; an expired one is freed. -/
def ostlsTicketCacheGet (cache : TicketCache) (host : Bytes) (now ticksPerSec : ℕ) :
    TicketCache × Option (SessionTicket × ℕ) :=
  if ticksPerSec = 0 then (cache, none)
  else match cache.findIdx? (slotFor host) with
    | none => (cache, none)
    | some i =>
      match cache.getD i none with
      | none => (cache, none)
      | some slot =>
        let elapsedTicks := elapsed32 now slot.received
        let elapsedSec := elapsedTicks / ticksPerSec
        if elapsedSec ≥ slot.ticket.lifetime then (cache.set i none, none)
        else (cache, some (slot.ticket, (elapsedSec * 1000 % 4294967296 +
          elapsedTicks % ticksPerSec * 1000 % 4294967296 / ticksPerSec) % 4294967296))

/-! ### The session cache -/

def ostlsSessMax : ℕ := 16

/-- Size of the key field, with its terminator. -/
def ostlsSessKeyLen : ℕ := 280

/-- The parameters of a TLS 1.2 session (`br_ssl_session_parameters`). -/
structure SessionParameters where
  sessionId : Bytes
  version : ℕ
  cipherSuite : ℕ
  masterSecret : Bytes
  deriving DecidableEq

/-- Keys and parameters, oldest entry first. -/
abbrev SessCache := List (Bytes × SessionParameters)

def sessCacheGet (cache : SessCache) (key : Bytes) : Option SessionParameters :=
  if key = [] then none else (cache.find? (·.1 == key)).map (·.2)

/-- Store a session: over the one of the same key, else behind the others, of which the oldest
goes when there is no room. -/
def sessCachePut (cache : SessCache) (key : Bytes) (p : SessionParameters) : SessCache :=
  if key = [] then cache
  else match cache.findIdx? (·.1 == key) with
    | some i => cache.set i (key, p)
    | none =>
      (if cache.length ≥ ostlsSessMax then cache.drop 1 else cache) ++
        [(key.take (ostlsSessKeyLen - 1), p)]

/-- The key `host:port`, empty if it does not fit its field. -/
def sessCacheMakeKey (host : Bytes) (port : ℕ) : Bytes :=
  let key := host ++ [58] ++ decimal port
  if key.length ≥ ostlsSessKeyLen then [] else key

/-! ### What the caches hold -/

/-- Every ticket in the cache belongs to a pair of host and ticket of the given kind. -/
def TicketCache.All (cache : TicketCache) (P : Bytes → SessionTicket → Prop) : Prop :=
  ∀ slot, some slot ∈ cache → P slot.host slot.ticket

theorem TicketCache.All.put {cache : TicketCache} {P : Bytes → SessionTicket → Prop}
    (h : cache.All P) {host : Bytes} {t : SessionTicket} (ht : P (host.take 255) t) (now : ℕ) :
    (ostlsTicketCachePut cache host t now).All P := by
  unfold ostlsTicketCachePut
  split_ifs
  · exact h
  · intro slot hslot
    obtain hmem | heq := List.mem_or_eq_of_mem_set hslot
    · exact h slot hmem
    · cases heq
      exact ht

/-- A ticket that is found was stored for this host. -/
theorem TicketCache.All.get {cache : TicketCache} {P : Bytes → SessionTicket → Prop}
    (h : cache.All P) (host : Bytes) (now ticksPerSec : ℕ) :
    (ostlsTicketCacheGet cache host now ticksPerSec).1.All P ∧
      ∀ t age, (ostlsTicketCacheGet cache host now ticksPerSec).2 = some (t, age) →
        ∃ host', host'.take 255 = host.take 255 ∧ P host' t := by
  unfold ostlsTicketCacheGet
  split_ifs with h0
  · exact ⟨h, fun _ _ h => by cases h⟩
  · split
    · exact ⟨h, fun _ _ h => by cases h⟩
    · rename_i i hi
      obtain ⟨hlt, hfor, -⟩ := List.findIdx?_eq_some_iff_getElem.1 hi
      split
      · exact ⟨h, fun _ _ h => by cases h⟩
      · rename_i slot hslot
        have hget : cache[i] = some slot := by
          rw [← hslot, List.getD_eq_getElem?_getD, List.getElem?_eq_getElem hlt]
          rfl
        have hmem : some slot ∈ cache := hget ▸ List.getElem_mem hlt
        rw [hget] at hfor
        dsimp only
        split_ifs
        · refine ⟨fun s hs => ?_, fun _ _ h => by cases h⟩
          obtain hmem | heq := List.mem_or_eq_of_mem_set hs
          · exact h s hmem
          · cases heq
        · refine ⟨h, fun t age heq => ?_⟩
          cases heq
          exact ⟨slot.host, beq_iff_eq.1 hfor, h slot hmem⟩

/-- A session that is found is one of the cache, under the key it was sought by. -/
theorem mem_of_sessCacheGet {cache : SessCache} {key : Bytes} {p : SessionParameters}
    (h : sessCacheGet cache key = some p) : (key, p) ∈ cache := by
  unfold sessCacheGet at h
  split_ifs at h
  obtain ⟨e, he, rfl⟩ := Option.map_eq_some_iff.1 h
  have hkey := List.find?_some he
  rw [← beq_iff_eq.1 hkey]
  exact List.mem_of_find?_eq_some he

theorem mem_sessCachePut {cache : SessCache} {key : Bytes} {p : SessionParameters}
    {e : Bytes × SessionParameters} (h : e ∈ sessCachePut cache key p) :
    e ∈ cache ∨ e = (key, p) ∨ e = (key.take (ostlsSessKeyLen - 1), p) := by
  have hroom : ∀ {e}, e ∈ (if cache.length ≥ ostlsSessMax then cache.drop 1 else cache) →
      e ∈ cache := fun hmem => by
    split_ifs at hmem
    · exact List.mem_of_mem_drop hmem
    · exact hmem
  unfold sessCachePut at h
  by_cases hkey : key = []
  · rw [if_pos hkey] at h
    exact .inl h
  · rw [if_neg hkey] at h
    split at h
    · obtain hmem | heq := List.mem_or_eq_of_mem_set h
      · exact .inl hmem
      · exact .inr (.inl heq)
    · obtain hmem | hmem := List.mem_append.1 h
      · exact .inl (hroom hmem)
      · exact .inr (.inr (List.mem_singleton.1 hmem))

end MacTLS
