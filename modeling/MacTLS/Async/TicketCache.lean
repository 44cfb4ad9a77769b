import MacTLS.Async.Ticket
import MacTLS.Lib.Slots
import Mathlib.Data.List.Induction

/-!
# The ticket cache as a map

Over any history of resets, stores and lookups the six slots are a map from hosts to tickets.

* `CacheOp`, `cacheAfter` : the calls of the cache and what a history of them leaves behind;
* `ticketCache_refines_map` : no host has two slots, a hit yields what was stored last, a store
  makes its host present and costs at most one other, a lookup only frees an expired entry.

The clock is a 32-bit counter, and two places of the cache do not treat it as one:

* `evicts_oldest_iff` : the entry that makes room is the oldest one exactly while all stamps lie
  on one side of the present;
* `age_exact_iff` : the age of a ticket is exact as long as it is below `2 ^ 32` milliseconds.
-/

namespace MacTLS

open Lib

/-! ### The slots -/

/-- The key of a slot: its host, over the size of the field. -/
def TicketSlot.key (slot : TicketSlot) : Bytes := slot.host.take 255

/-- The entry of a host. -/
def TicketCache.find (cache : TicketCache) (host : Bytes) : Option TicketSlot :=
  Slots.lookup TicketSlot.key cache host

/-- A ticket that is stored: valid and not empty. -/
def SessionTicket.Storable (t : SessionTicket) : Prop := t.valid = true ∧ t.ticket.length ≠ 0

instance (t : SessionTicket) : Decidable t.Storable := inferInstanceAs (Decidable (_ ∧ _))

theorem slotFor_eq (host : Bytes) : slotFor host = Slots.holds TicketSlot.key (host.take 255) := by
  funext slot
  cases slot with
  | none => rfl
  | some slot =>
    rw [Bool.eq_iff_iff, Slots.holds_some]
    exact beq_iff_eq

/-- Only a ticket that is storable changes the cache. -/
theorem ostlsTicketCachePut_of_not {cache : TicketCache} {t : SessionTicket} (h : ¬t.Storable)
    (host : Bytes) (now : ℕ) : ostlsTicketCachePut cache host t now = cache := by
  rw [ostlsTicketCachePut, if_pos]
  by_cases hv : t.valid = true
  · exact .inr (Decidable.of_not_not fun hlen => h ⟨hv, hlen⟩)
  · exact .inl (by simpa using hv)

theorem ostlsTicketCachePut_eq {t : SessionTicket} (h : t.Storable) (cache : TicketCache)
    (host : Bytes) (now : ℕ) :
    ostlsTicketCachePut cache host t now =
      Slots.store TicketSlot.key cache (oldestSlot cache) ⟨host.take 255, now, t⟩ := by
  have hkey : TicketSlot.key ⟨host.take 255, now, t⟩ = host.take 255 := by
    rw [TicketSlot.key, List.take_take, Nat.min_self]
  unfold ostlsTicketCachePut Slots.store Slots.target
  rw [if_neg (by simp [h.1, h.2]), hkey]
  exact slotFor_eq host ▸ rfl

/-- The search for a least value stays within the list and finds one. -/
theorem foldl_least (r : ℕ → ℕ) (l : List ℕ) (best : ℕ) :
    l.foldl (fun best i => if r i < r best then i else best) best ∈ best :: l ∧
      ∀ i ∈ best :: l, r (l.foldl (fun best i => if r i < r best then i else best) best) ≤ r i := by
  induction l generalizing best with
  | nil => simp
  | cons i l ih =>
    rw [List.foldl_cons]
    obtain ⟨hmem, hle⟩ := ih (if r i < r best then i else best)
    split_ifs at hmem hle ⊢ with hlt
    · refine ⟨List.mem_cons_of_mem _ hmem, fun j hj => ?_⟩
      obtain rfl | hj := List.mem_cons.1 hj
      · exact Nat.le_trans (hle i List.mem_cons_self) hlt.le
      · exact hle j hj
    · refine ⟨by simp only [List.mem_cons] at hmem ⊢; tauto, fun j hj => ?_⟩
      have hbest := hle best List.mem_cons_self
      obtain rfl | hj := List.mem_cons.1 hj
      · exact hbest
      obtain rfl | hj := List.mem_cons.1 hj
      · exact Nat.le_trans hbest (Nat.le_of_not_lt hlt)
      · exact hle j (List.mem_cons_of_mem _ hj)

/-- The policy names one of the slots. -/
theorem oldestSlot_lt {cache : TicketCache} (h : cache ≠ []) : oldestSlot cache < cache.length := by
  have hpos := List.length_pos_iff.2 h
  obtain hzero | hmem := List.mem_cons.1 (foldl_least _ (List.range cache.length) 0).1
  · rw [oldestSlot, hzero]
    exact hpos
  · exact List.mem_range.1 hmem

/-! ### One lookup -/

/-- The age in milliseconds as the lookup computes it on `uint32_t`. -/
def ticketAge (elapsed ticksPerSec : ℕ) : ℕ :=
  (elapsed / ticksPerSec * 1000 % 4294967296 +
    elapsed % ticksPerSec * 1000 % 4294967296 / ticksPerSec) % 4294967296

/-- An entry whose elapsed seconds have reached its lifetime. -/
def TicketSlot.Expired (slot : TicketSlot) (now ticksPerSec : ℕ) : Prop :=
  slot.ticket.lifetime ≤ elapsed32 now slot.received / ticksPerSec

/-- What a lookup can do. -/
inductive Looked (cache : TicketCache) (host : Bytes) (now ticksPerSec : ℕ) :
    TicketCache × Option (SessionTicket × ℕ) → Prop
  | miss (h : ticksPerSec = 0 ∨ cache.find (host.take 255) = none) :
      Looked cache host now ticksPerSec (cache, none)
  | live (slot : TicketSlot) (hslot : cache.find (host.take 255) = some slot)
      (hsec : ticksPerSec ≠ 0) (hlive : ¬slot.Expired now ticksPerSec) :
      Looked cache host now ticksPerSec
        (cache, some (slot.ticket, ticketAge (elapsed32 now slot.received) ticksPerSec))
  | expired (slot : TicketSlot) (i : ℕ) (hslot : cache.find (host.take 255) = some slot)
      (hi : cache[i]? = some (some slot)) (hsec : ticksPerSec ≠ 0)
      (hexp : slot.Expired now ticksPerSec) : Looked cache host now ticksPerSec
        (cache.set i none, none)

theorem looked (cache : TicketCache) (host : Bytes) (now ticksPerSec : ℕ) :
    Looked cache host now ticksPerSec (ostlsTicketCacheGet cache host now ticksPerSec) := by
  rw [ostlsTicketCacheGet]
  split_ifs with hsec
  · exact .miss (.inl hsec)
  rw [slotFor_eq]
  split
  · rename_i hnone
    exact .miss (.inr (Slots.lookup_eq_none.2 hnone))
  · rename_i i hi
    obtain ⟨slot, hslot, hkey⟩ := Slots.findIdx_eq_some hi
    have hget : cache.getD i none = some slot := by
      rw [List.getD_eq_getElem?_getD, hslot]
      rfl
    have hfind : cache.find (host.take 255) = some slot := by
      rw [TicketCache.find, Slots.lookup, hi, Option.bind_some, hget]
    rw [hget]
    dsimp only
    split_ifs with hexp
    · exact .expired slot i hfind hslot hsec hexp
    · exact .live slot hfind hsec hexp

/-! ### Histories -/

/-- A host name that fits the field of a slot. -/
@[ext] structure Host where
  name : Bytes
  fits : name.length ≤ 255
  deriving DecidableEq

@[simp] theorem Host.take_name (host : Host) : host.name.take 255 = host.name :=
  List.take_of_length_le host.fits

/-- The calls of the cache, with the clock of each. -/
inductive CacheOp where
  | reset
  | put (host : Host) (t : SessionTicket) (now : ℕ)
  | get (host : Host) (now ticksPerSec : ℕ)

def CacheOp.run (cache : TicketCache) : CacheOp → TicketCache
  | .reset => .reset
  | .put host t now => ostlsTicketCachePut cache host.name t now
  | .get host now ticksPerSec => (ostlsTicketCacheGet cache host.name now ticksPerSec).1

/-- The cache after a history of calls, which starts with the zeroed slots. -/
def cacheAfter (ops : List CacheOp) : TicketCache := ops.foldl CacheOp.run .reset

/-- The last entry that was stored for a host, after one more call. -/
def CacheOp.latest (host : Host) (last : Option TicketSlot) : CacheOp → Option TicketSlot
  | .reset => none
  | .put host' t now => if host' = host ∧ t.Storable then some ⟨host.name, now, t⟩ else last
  | .get .. => last

/-- The most recent storable ticket put under a host since the last reset. -/
def latestPut (host : Host) (ops : List CacheOp) : Option TicketSlot :=
  ops.foldl (CacheOp.latest host) none

/-- What holds of the slots after a history. -/
structure CacheInv (cache : TicketCache) (latest : Host → Option TicketSlot) : Prop where
  length : cache.length = ostlsTicketCacheSlots
  distinct : Slots.Distinct TicketSlot.key cache
  latest : ∀ host slot, cache.find host.name = some slot → latest host = some slot

theorem CacheInv.reset : CacheInv .reset fun _ => none where
  length := rfl
  distinct i _ e _ h := by
    have hmem := List.mem_of_getElem? h
    exact absurd (List.eq_of_mem_replicate hmem) (by simp)
  latest host slot h := by
    obtain ⟨-, i, -, hi⟩ := Slots.lookup_eq_some h
    have hmem := List.mem_of_getElem? hi
    exact absurd (List.eq_of_mem_replicate hmem) (by simp)

/-- A storable ticket goes into the map. -/
theorem inserted_put {cache : TicketCache} {latest : Host → Option TicketSlot}
    (h : CacheInv cache latest) {t : SessionTicket} (ht : t.Storable) (host : Host) (now : ℕ) :
    Slots.Distinct TicketSlot.key (ostlsTicketCachePut cache host.name t now) ∧
      Slots.Inserted TicketSlot.key (Slots.Full cache) cache.find ⟨host.name, now, t⟩
        (ostlsTicketCachePut cache host.name t now).find := by
  have hne : cache ≠ [] := List.ne_nil_of_length_pos (by rw [h.length]; decide)
  have hins := Slots.inserted_store h.distinct (oldestSlot_lt hne) ⟨host.name, now, t⟩
  rw [ostlsTicketCachePut_eq ht, Host.take_name]
  exact hins

/-- One call keeps the invariant. -/
theorem CacheInv.run {cache : TicketCache} {latest : Host → Option TicketSlot}
    (h : CacheInv cache latest) (op : CacheOp) :
    CacheInv (op.run cache) fun host => op.latest host (latest host) := by
  cases op with
  | reset => exact .reset
  | put host t now =>
    by_cases ht : t.Storable
    · obtain ⟨hdistinct, hins⟩ := inserted_put h ht host now
      refine ⟨?_, hdistinct, fun host' slot hslot => ?_⟩
      · rw [CacheOp.run, ostlsTicketCachePut_eq ht, Slots.store, List.length_set, h.length]
      have hkey : TicketSlot.key ⟨host.name, now, t⟩ = host.name := host.take_name
      rw [CacheOp.run] at hslot
      by_cases heq : host = host'
      · subst heq
        have hself := hins.self
        rw [hkey, hslot] at hself
        rw [CacheOp.latest, if_pos ⟨rfl, ht⟩, hself]
      · rw [CacheOp.latest, if_neg fun hh => heq hh.1]
        refine h.latest host' slot (hins.of_ne (fun hname => heq (Host.ext ?_)) hslot)
        exact (hname.trans hkey).symm
    · rw [CacheOp.run, ostlsTicketCachePut_of_not ht]
      refine ⟨h.length, h.distinct, fun host' slot hslot => ?_⟩
      rw [CacheOp.latest, if_neg fun hh => ht hh.2]
      exact h.latest host' slot hslot
  | get host now ticksPerSec =>
    rw [CacheOp.run]
    have hlook := looked cache host.name now ticksPerSec
    generalize ostlsTicketCacheGet cache host.name now ticksPerSec = r at hlook ⊢
    cases hlook with
    | miss => exact h
    | live => exact h
    | expired slot i hslot hi =>
      obtain ⟨hdistinct, hfree⟩ := Slots.lookup_free h.distinct hi
      refine ⟨by rw [List.length_set, h.length], hdistinct, fun host' slot' hslot' => ?_⟩
      refine h.latest host' slot' ?_
      rw [TicketCache.find, hfree] at hslot'
      by_cases hk : host'.name = slot.key
      · rw [hk, Function.update_self] at hslot'
        cases hslot'
      · rwa [Function.update_of_ne hk] at hslot'

theorem cacheInv_after (ops : List CacheOp) :
    CacheInv (cacheAfter ops) fun host => latestPut host ops := by
  induction ops using List.reverseRecOn with
  | nil => exact .reset
  | append_singleton ops op ih =>
    have hstep := ih.run op
    simp only [cacheAfter, latestPut, List.foldl_append, List.foldl_cons, List.foldl_nil]
    exact hstep

/-! ### The cache as a map -/

/-- What a cache with a given history of stores owes its callers. -/
structure CacheConforms (cache : TicketCache) (latest : Host → Option TicketSlot) : Prop where
  slots : cache.length = ostlsTicketCacheSlots
  /-- No host has two slots. -/
  distinct : ∀ (i j : ℕ) (s s' : TicketSlot), cache[i]? = some (some s) →
    cache[j]? = some (some s') → s.host = s'.host → i = j
  /-- A hit is the ticket that was stored last. -/
  hit : ∀ (host : Host) (now ticksPerSec age : ℕ) (t : SessionTicket),
    (ostlsTicketCacheGet cache host.name now ticksPerSec).2 = some (t, age) →
      (latest host).map TicketSlot.ticket = some t
  /-- A storable ticket makes its host present. -/
  put_present : ∀ (host : Host) (t : SessionTicket) (now : ℕ), t.Storable →
    (ostlsTicketCachePut cache host.name t now).find host.name = some ⟨host.name, now, t⟩
  /-- It costs at most one other host, and only in a full cache without this one. -/
  put_removes : ∀ (host : Host) (t : SessionTicket) (now : ℕ), t.Storable →
    Slots.Inserted TicketSlot.key (Slots.Full cache) cache.find ⟨host.name, now, t⟩
      (ostlsTicketCachePut cache host.name t now).find
  put_invalid : ∀ (host : Host) (t : SessionTicket) (now : ℕ), ¬t.Storable →
    ostlsTicketCachePut cache host.name t now = cache
  /-- A lookup of a host with a live ticket changes nothing. -/
  get_live : ∀ (host : Host) (now ticksPerSec : ℕ) (slot : TicketSlot),
    cache.find host.name = some slot → ¬slot.Expired now ticksPerSec →
      (ostlsTicketCacheGet cache host.name now ticksPerSec).1 = cache
  /-- What a lookup changes is that the expired entry of its host is gone. -/
  get_removes : ∀ (host : Host) (now ticksPerSec : ℕ),
    (ostlsTicketCacheGet cache host.name now ticksPerSec).1 ≠ cache →
      ∃ slot, cache.find host.name = some slot ∧ ticksPerSec ≠ 0 ∧ slot.Expired now ticksPerSec ∧
        (ostlsTicketCacheGet cache host.name now ticksPerSec).1.find =
          Function.update cache.find host.name none

/-- **The ticket cache is a bounded map.**  After any history of calls the slots hold at most one
entry for a host, a hit yields the ticket that was last stored for it, and stores and lookups
change the map only as announced. -/
theorem ticketCache_refines_map (ops : List CacheOp) :
    CacheConforms (cacheAfter ops) fun host => latestPut host ops := by
  have hinv := cacheInv_after ops
  generalize cacheAfter ops = cache at hinv
  refine ⟨hinv.length, ?_, ?_, ?_, ?_, ?_, ?_, ?_⟩
  · intro i j s s' hi hj heq
    exact hinv.distinct i j s s' hi hj (congrArg (List.take 255) heq)
  · intro host now ticksPerSec age t hget
    have hlook := looked cache host.name now ticksPerSec
    generalize ostlsTicketCacheGet cache host.name now ticksPerSec = r at hlook hget
    cases hlook with
    | miss => cases hget
    | expired => cases hget
    | live slot hslot =>
      rw [Host.take_name] at hslot
      cases hget
      rw [hinv.latest host slot hslot, Option.map_some]
  · intro host t now ht
    have hself := (inserted_put hinv ht host now).2.self
    rwa [show TicketSlot.key ⟨host.name, now, t⟩ = host.name from host.take_name] at hself
  · exact fun host t now ht => (inserted_put hinv ht host now).2
  · exact fun host t now ht => ostlsTicketCachePut_of_not ht host.name now
  · intro host now ticksPerSec slot hslot hlive
    have hlook := looked cache host.name now ticksPerSec
    generalize ostlsTicketCacheGet cache host.name now ticksPerSec = r at hlook
    cases hlook with
    | miss => rfl
    | live => rfl
    | expired slot' i hslot' _ _ hexp =>
      rw [Host.take_name, hslot] at hslot'
      cases hslot'
      exact absurd hexp hlive
  · intro host now ticksPerSec hne
    have hlook := looked cache host.name now ticksPerSec
    generalize ostlsTicketCacheGet cache host.name now ticksPerSec = r at hlook hne
    cases hlook with
    | miss => exact absurd rfl hne
    | live => exact absurd rfl hne
    | expired slot i hslot hi hsec hexp =>
      rw [Host.take_name] at hslot
      refine ⟨slot, hslot, hsec, hexp, ?_⟩
      have hkey : slot.key = host.name := (Slots.lookup_eq_some hslot).1
      exact hkey ▸ (Slots.lookup_free hinv.distinct hi).2

/-! ### Making room -/

/-- A full cache: six entries, stored at distinct times of the 32-bit clock. -/
structure Crowded (cache : TicketCache) : Prop where
  slots : cache.length = ostlsTicketCacheSlots
  full : Slots.Full cache
  distinct : ∀ (i j : ℕ) (s s' : TicketSlot), cache[i]? = some (some s) →
    cache[j]? = some (some s') → s.received = s'.received → i = j
  clock : ∀ s, some s ∈ cache → s.received < 4294967296

/-- A new ticket takes the place of the entry with the largest age. -/
def EvictsOldest (cache : TicketCache) (host : Host) (t : SessionTicket) (now : ℕ) : Prop :=
  ∃ (i : ℕ) (slot : TicketSlot), cache[i]? = some (some slot) ∧
    (∀ s, some s ∈ cache → elapsed32 now s.received ≤ elapsed32 now slot.received) ∧
    ostlsTicketCachePut cache host.name t now = cache.set i (some ⟨host.name, now, t⟩)

/-- The clock has not wrapped between the stores: either it has wrapped after all of them or after
none. -/
def SameSide (cache : TicketCache) (now : ℕ) : Prop :=
  (∀ s, some s ∈ cache → s.received ≤ now) ∨ ∀ s, some s ∈ cache → now < s.received

theorem elapsed32_eq {a b : ℕ} (ha : a < 4294967296) (hb : b < 4294967296) :
    elapsed32 a b = if b ≤ a then a - b else a + 4294967296 - b := by
  unfold elapsed32
  split_ifs <;> omega

/-- The slot with the least stamp. -/
theorem oldestSlot_least {cache : TicketCache} (h : Slots.Full cache) (hne : cache ≠ []) :
    ∃ slot, cache[oldestSlot cache]? = some (some slot) ∧
      ∀ s, some s ∈ cache → slot.received ≤ s.received := by
  have hused : ∀ i, i < cache.length → ∃ s, cache[i]? = some (some s) := fun i hi => by
    rw [List.getElem?_eq_getElem hi]
    cases hs : cache[i] with
    | none => exact absurd (hs ▸ List.getElem_mem hi) h
    | some s => exact ⟨s, rfl⟩
  have hreceived : ∀ (i : ℕ) (s : TicketSlot), cache[i]? = some (some s) →
      ((cache.getD i none).map TicketSlot.received).getD 0 = s.received := fun i s hi => by
    rw [List.getD_eq_getElem?_getD, hi]
    rfl
  obtain ⟨slot, hslot⟩ := hused _ (oldestSlot_lt hne)
  refine ⟨slot, hslot, fun s hs => ?_⟩
  obtain ⟨i, hi⟩ := List.mem_iff_getElem?.1 hs
  have hlt : i < cache.length := (List.getElem?_eq_some_iff.1 hi).1
  rw [← hreceived _ slot hslot, ← hreceived i s hi]
  have hle := (foldl_least (fun i => ((cache.getD i none).map TicketSlot.received).getD 0)
    (List.range cache.length) 0).2 i (List.mem_cons_of_mem _ (List.mem_range.2 hlt))
  exact hle

/-- **Eviction.**  In a full cache a new host takes the place of the oldest entry if and only if
the clock has not wrapped between the stores. -/
theorem evicts_oldest_iff {cache : TicketCache} (h : Crowded cache) {now : ℕ}
    (hnow : now < 4294967296) (host : Host) (hnew : cache.find host.name = none)
    {t : SessionTicket} (ht : t.Storable) :
    EvictsOldest cache host t now ↔ SameSide cache now := by
  have hne : cache ≠ [] := List.ne_nil_of_length_pos (by rw [h.slots]; decide)
  obtain ⟨slot, hslot, hleast⟩ := oldestSlot_least h.full hne
  have hmem : some slot ∈ cache := List.mem_of_getElem? hslot
  have hput : ostlsTicketCachePut cache host.name t now =
      cache.set (oldestSlot cache) (some ⟨host.name, now, t⟩) := by
    have hkey : TicketSlot.key ⟨host.name, now, t⟩ = host.name := host.take_name
    rw [ostlsTicketCachePut_eq ht, Host.take_name, Slots.store, hkey,
      Slots.target_of_full h.full hnew]
  have hage : ∀ s, some s ∈ cache → elapsed32 now s.received =
      if s.received ≤ now then now - s.received else now + 4294967296 - s.received :=
    fun s hs => elapsed32_eq hnow (h.clock s hs)
  constructor
  · rintro ⟨i, old, hi, holdest, hset⟩
    -- the new entry is seen where it went, so the oldest entry was in that slot
    have heq : i = oldestSlot cache := by
      by_contra hne'
      have hget : (cache.set (oldestSlot cache) (some ⟨host.name, now, t⟩))[i]? =
          (cache.set i (some ⟨host.name, now, t⟩))[i]? := by rw [← hput, hset]
      rw [List.getElem?_set_ne fun heq => hne' heq.symm, hi,
        List.getElem?_set_self (List.getElem?_eq_some_iff.1 hi).1] at hget
      cases hget
      exact Slots.findIdx_eq_none (Slots.lookup_eq_none.1 hnew) i _ hi host.take_name
    rw [heq, hslot] at hi
    cases hi
    by_contra hboth
    rw [SameSide, not_or] at hboth
    push Not at hboth
    obtain ⟨⟨s, hs, hlate⟩, s', hs', hearly⟩ := hboth
    have hle := holdest s hs
    have hleast' := hleast s' hs'
    have hclock := h.clock s hs
    rw [hage s hs, hage slot hmem, if_neg (Nat.not_le.2 hlate), if_pos (by omega)] at hle
    omega
  · intro hside
    refine ⟨_, slot, hslot, fun s hs => ?_, hput⟩
    have hle := hleast s hs
    have hclock := h.clock s hs
    rw [hage s hs, hage slot hmem]
    obtain hpast | hfuture := hside
    · rw [if_pos (hpast s hs), if_pos (hpast slot hmem)]
      omega
    · rw [if_neg (Nat.not_le.2 (hfuture s hs)), if_neg (Nat.not_le.2 (hfuture slot hmem))]
      omega

/-- A cache whose entries, of the hosts 0, 1 and so on, were stored at these times. -/
def cacheAt (stamps : List ℕ) : TicketCache :=
  stamps.mapIdx fun i received => some ⟨[UInt8.ofNat i], received, ⟨true, [], 0, 86400, 0, [1]⟩⟩

theorem getElem?_cacheAt {stamps : List ℕ} {i : ℕ} {s : TicketSlot}
    (h : (cacheAt stamps)[i]? = some (some s)) : stamps[i]? = some s.received := by
  rw [cacheAt, List.getElem?_mapIdx] at h
  obtain ⟨r, hr, heq⟩ := Option.map_eq_some_iff.1 h
  cases heq
  exact hr

theorem received_mem_stamps {stamps : List ℕ} {s : TicketSlot} (h : some s ∈ cacheAt stamps) :
    s.received ∈ stamps := by
  obtain ⟨i, hi⟩ := List.mem_iff_getElem?.1 h
  exact List.mem_of_getElem? (getElem?_cacheAt hi)

theorem crowded_cacheAt {stamps : List ℕ} (hlen : stamps.length = ostlsTicketCacheSlots)
    (hnodup : stamps.Nodup) (hclock : ∀ r ∈ stamps, r < 4294967296) :
    Crowded (cacheAt stamps) where
  slots := by rw [cacheAt, List.length_mapIdx, hlen]
  full hnone := by
    obtain ⟨i, hi, heq⟩ := List.mem_mapIdx.1 hnone
    cases heq
  distinct i j s s' hi hj heq := by
    have hi' := getElem?_cacheAt hi
    have hj' := getElem?_cacheAt hj
    rw [← heq] at hj'
    exact (List.getElem?_inj (List.getElem?_eq_some_iff.1 hi').1 hnodup).1 (hi'.trans hj'.symm)
  clock s hs := hclock _ (received_mem_stamps hs)

theorem evicts_oldest_steady : EvictsOldest (cacheAt [500, 501, 502, 503, 504, 505])
    ⟨[9], by decide⟩ ⟨true, [], 0, 86400, 0, [1]⟩ 600 :=
  (evicts_oldest_iff (crowded_cacheAt (by decide) (by decide) (by decide)) (by decide) _
    (by decide) ⟨rfl, by decide⟩).2
    (.inl fun _ hs => (by decide : ∀ r ∈ [500, 501, 502, 503, 504, 505], r ≤ 600) _
      (received_mem_stamps hs))

/-- Around the wrap the entry of tick 1 makes room, though the first entry is older. -/
theorem evicts_younger :
    ¬∀ (cache : TicketCache) (now : ℕ) (host : Host) (t : SessionTicket), Crowded cache →
      now < 4294967296 → cache.find host.name = none → t.Storable →
        EvictsOldest cache host t now := by
  intro h
  obtain ⟨i, slot, hi, holdest, hput⟩ := h (cacheAt [4294967290, 1, 2, 3, 4, 5]) 10
    ⟨[9], by decide⟩ ⟨true, [], 0, 86400, 0, [1]⟩
    (crowded_cacheAt (by decide) (by decide) (by decide)) (by decide) (by decide)
    ⟨rfl, by decide⟩
  have hold := holdest ⟨[0], 4294967290, ⟨true, [], 0, 86400, 0, [1]⟩⟩ (by decide)
  have hfirst := (by decide : ∀ r ∈ [4294967290, 1, 2, 3, 4, 5],
    elapsed32 10 4294967290 ≤ elapsed32 10 r → r = 4294967290) _
    (received_mem_stamps (List.mem_of_getElem? hi)) hold
  have hstamp := getElem?_cacheAt hi
  rw [hfirst] at hstamp
  have hzero : i = 0 := (List.getElem?_inj (List.getElem?_eq_some_iff.1 hstamp).1
    (by decide : [4294967290, 1, 2, 3, 4, 5].Nodup)).1 (hstamp.trans rfl)
  rw [hzero] at hput
  exact absurd hput (by decide)

/-! ### Ages -/

/-- No product and no sum of the age computation exceeds `uint32_t`. -/
def NoWrap (elapsed : ℕ) : Prop :=
  elapsed / 60 * 1000 < 4294967296 ∧ elapsed % 60 * 1000 < 4294967296 ∧
    elapsed / 60 * 1000 + elapsed % 60 * 1000 / 60 < 4294967296

/-- The outcome of a lookup at 60 ticks a second is the one that the elapsed ticks ask for. -/
structure ExpiryExact (found : Option (SessionTicket × ℕ)) (elapsed lifetime : ℕ) : Prop where
  hit : found.isSome = true ↔ elapsed / 60 < lifetime
  age : ∀ t age, found = some (t, age) → age = elapsed * 1000 / 60 ∧ NoWrap elapsed

theorem noWrap_iff {elapsed : ℕ} : NoWrap elapsed ↔ elapsed < 257698038 := by
  unfold NoWrap
  omega

/-- The clock at a lookup is the stamp moved on by the elapsed ticks. -/
theorem elapsed32_add {received elapsed : ℕ} (hr : received < 4294967296)
    (he : elapsed < 4294967296) :
    elapsed32 ((received + elapsed) % 4294967296) received = elapsed := by
  unfold elapsed32
  omega

/-- **Expiry and age.**  A ticket of any lifetime hits exactly within it, and its age in
milliseconds is exact if and only if it has expired or was stored less than 257698038 ticks
ago. -/
theorem age_exact_iff (cache : TicketCache) (host : Host) (slot : TicketSlot)
    (hslot : cache.find host.name = some slot) (hreceived : slot.received < 4294967296)
    (elapsed : ℕ) (helapsed : elapsed < 4294967296) :
    ExpiryExact (ostlsTicketCacheGet cache host.name ((slot.received + elapsed) % 4294967296) 60).2
        elapsed slot.ticket.lifetime ↔
      slot.ticket.lifetime ≤ elapsed / 60 ∨ elapsed < 257698038 := by
  have hlook := looked cache host.name ((slot.received + elapsed) % 4294967296) 60
  generalize ostlsTicketCacheGet cache host.name ((slot.received + elapsed) % 4294967296) 60 = r
    at hlook ⊢
  cases hlook with
  | miss h =>
    rw [Host.take_name, hslot] at h
    simp at h
  | expired slot' i hslot' _ _ hexp =>
    rw [Host.take_name, hslot] at hslot'
    cases hslot'
    rw [TicketSlot.Expired, elapsed32_add hreceived helapsed] at hexp
    refine ⟨fun _ => .inl hexp, fun _ => ⟨?_, fun _ _ h => by cases h⟩⟩
    simp [Nat.not_lt.2 hexp]
  | live slot' hslot' _ hlive =>
    rw [Host.take_name, hslot] at hslot'
    cases hslot'
    rw [TicketSlot.Expired, elapsed32_add hreceived helapsed, Nat.not_le] at hlive
    rw [elapsed32_add hreceived helapsed]
    constructor
    · intro h
      exact .inr (noWrap_iff.1 (h.age _ _ rfl).2)
    · rintro (hexp | hshort)
      · exact absurd hlive (Nat.not_lt.2 hexp)
      · refine ⟨by simp [hlive], fun t age h => ?_⟩
        cases h
        have hwrap := noWrap_iff.2 hshort
        obtain ⟨hsec, hrest, hsum⟩ := hwrap
        refine ⟨?_, hsec, hrest, hsum⟩
        rw [ticketAge, Nat.mod_eq_of_lt hsec, Nat.mod_eq_of_lt hrest, Nat.mod_eq_of_lt hsum]
        omega

/-- A ticket with the greatest lifetime. -/
def longTicketMessage : Bytes :=
  [0x04, 0x00, 0x00, 0x12] ++ putU32 4294967295 ++ putU32 0 ++ [0] ++ putU16 5 ++
    [0x11, 0x22, 0x33, 0x44, 0x55] ++ putU16 0

/-- The ticket of a message, stored at tick 100. -/
def cacheWith (msg : Bytes) : TicketCache :=
  ostlsTicketCachePut .reset [97]
    (tls13ParseNewSessionTicket .transparent ticketCtx msg .empty).2 100

/-- A ticket of a day, an hour later. -/
theorem age_exact_hour :
    ExpiryExact (ostlsTicketCacheGet (cacheWith ticketMessage) [97] 216100 60).2 216000 86400 :=
  (age_exact_iff (cacheWith ticketMessage) ⟨[97], by decide⟩
    ⟨[97], 100, (tls13ParseNewSessionTicket .transparent ticketCtx ticketMessage .empty).2⟩
    (by decide +kernel) (by decide) 216000 (by decide)).2 (.inr (by decide))

/-- A ticket that lives long enough is offered with a wrong age after 50 days. -/
theorem age_wraps :
    ¬∀ (C : Crypto) (hs : HsCtx) (msg : Bytes) (out : SessionTicket) (cache : TicketCache)
      (host : Host) (slot : TicketSlot) (elapsed : ℕ),
      (tls13ParseNewSessionTicket C hs msg out).1 = true →
      cache.find host.name = some slot →
      slot.ticket = (tls13ParseNewSessionTicket C hs msg out).2 → slot.received < 4294967296 →
      elapsed < 4294967296 →
        ExpiryExact (ostlsTicketCacheGet cache host.name
          ((slot.received + elapsed) % 4294967296) 60).2 elapsed slot.ticket.lifetime := by
  intro h
  have hexact := h .transparent ticketCtx longTicketMessage .empty (cacheWith longTicketMessage)
    ⟨[97], by decide⟩
    ⟨[97], 100, (tls13ParseNewSessionTicket .transparent ticketCtx longTicketMessage .empty).2⟩
    259200000 (by decide +kernel) (by decide +kernel) rfl (by decide) (by decide)
  obtain ⟨found, hfound⟩ := Option.isSome_iff_exists.1 (hexact.hit.2 (by decide +kernel))
  exact absurd (hexact.age found.1 found.2 hfound).2.1 (by decide)

end MacTLS
