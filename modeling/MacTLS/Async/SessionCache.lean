import MacTLS.Async.TicketCache
import MacTLS.Lib.FifoMap

/-!
# The session cache as a map

The session cache of the TLS 1.2 path keeps the last sixteen keys that were newly inserted.

* `sessCachePut_eq`, `sessCacheGet_eq` : the cache is a first-in first-out map;
* `sessCacheMakeKey_injective` : two connections with one key have the same host and port;
* `sessionCache_fifo` : what a history of calls leaves in the cache.
-/

namespace MacTLS

open Lib

/-! ### Keys -/

/-- A key that fits its field. -/
@[ext] structure SessKey where
  name : Bytes
  nonempty : name ≠ []
  fits : name.length ≤ 279
  deriving DecidableEq

theorem SessKey.take_name (key : SessKey) : key.name.take (ostlsSessKeyLen - 1) = key.name :=
  List.take_of_length_le key.fits

theorem sessCacheGet_eq (cache : SessCache) (key : SessKey) :
    sessCacheGet cache key.name = FifoMap.find cache key.name := by
  rw [sessCacheGet, if_neg key.nonempty, FifoMap.find]
  congr 2
  exact funext fun e => Bool.eq_iff_iff.2 (by simp)

theorem sessCachePut_eq (cache : SessCache) (key : SessKey) (p : SessionParameters) :
    sessCachePut cache key.name p = FifoMap.put ostlsSessMax cache key.name p := by
  have hkey : (fun e : Bytes × SessionParameters => e.1 == key.name) =
      fun e => decide (e.1 = key.name) := funext fun e => Bool.eq_iff_iff.2 (by simp)
  unfold sessCachePut FifoMap.put
  rw [if_neg key.nonempty, key.take_name]
  exact hkey ▸ rfl

/-- No digit is a colon. -/
theorem colon_not_mem_decimal (n : ℕ) : (58 : UInt8) ∉ decimal n := by
  intro h
  obtain ⟨c, hc, heq⟩ := List.mem_map.1 h
  obtain ⟨-, hle⟩ := toNat_digit hc
  have hval := congrArg UInt8.toNat heq
  rw [UInt8.toNat_ofNat'] at hval
  have hcolon : (58 : UInt8).toNat = 58 := rfl
  omega

theorem decimal_injective {a b : ℕ} (h : decimal a = decimal b) : a = b := by
  have hchars : ∀ n, (decimal n).map (fun d => Char.ofNat d.toNat) = Nat.toDigits 10 n := by
    intro n
    rw [decimal, List.map_map]
    refine (List.map_congr_left fun c hc => ?_).trans (List.map_id _)
    obtain ⟨-, hle⟩ := toNat_digit hc
    dsimp only [Function.comp, id]
    rw [UInt8.toNat_ofNat', Nat.mod_eq_of_lt (by omega), Char.ofNat_toNat]
  rw [← Nat.ofDigitChars_ten_toDigits (n := a), ← hchars, h, hchars,
    Nat.ofDigitChars_ten_toDigits]

theorem length_decimal_port (port : UInt16) : (decimal port.toNat).length ≤ 5 := by
  rw [decimal, List.length_map, Nat.length_toDigits_le_iff (by decide) (by decide)]
  exact Nat.lt_of_lt_of_le port.toNat_lt (by decide)

/-- The key of a connection, whose host fits its field and whose port is a `UInt16`. -/
theorem sessCacheMakeKey_eq (host : Host) (port : UInt16) :
    sessCacheMakeKey host.name port.toNat = host.name ++ 58 :: decimal port.toNat := by
  have hlen := length_decimal_port port
  have hfits := host.fits
  rw [sessCacheMakeKey, if_neg, List.append_assoc, List.singleton_append]
  simp only [List.length_append, List.length_singleton, ostlsSessKeyLen]
  omega

/-- A key that fits its field is that of one host and port, also when a host has a colon. -/
theorem eq_of_sessCacheMakeKey {host host' : Bytes} {port port' : ℕ}
    (h : sessCacheMakeKey host port = sessCacheMakeKey host' port')
    (hne : sessCacheMakeKey host port ≠ []) : host = host' ∧ port = port' := by
  have hkey : ∀ {host : Bytes} {port : ℕ}, sessCacheMakeKey host port ≠ [] →
      sessCacheMakeKey host port = host ++ 58 :: decimal port := by
    intro host port hne
    unfold sessCacheMakeKey at hne ⊢
    dsimp only at hne ⊢
    split_ifs at hne ⊢ with hlen
    · exact absurd rfl hne
    · rw [List.append_assoc, List.singleton_append]
  have hdigits : ∀ (a : Bytes) (n : ℕ),
      (a ++ 58 :: decimal n).rtakeWhile (· ≠ 58) = decimal n := by
    intro a n
    rw [List.rtakeWhile, List.reverse_append, List.reverse_cons, List.append_assoc,
      List.takeWhile_append_of_pos, List.singleton_append, List.takeWhile_cons_of_neg (by simp),
      List.append_nil, List.reverse_reverse]
    intro b hb
    simp only [ne_eq, decide_not, Bool.not_eq_true', decide_eq_false_iff_not]
    rintro rfl
    exact colon_not_mem_decimal n (List.mem_reverse.1 hb)
  have hne' := hne
  rw [h] at hne'
  rw [hkey hne, hkey hne'] at h
  have hport := congrArg (List.rtakeWhile fun b : UInt8 => b ≠ 58) h
  rw [hdigits, hdigits] at hport
  rw [hport] at h
  exact ⟨List.append_cancel_right h, decimal_injective hport⟩

/-- Two connections with one key have the same host and port. -/
theorem sessCacheMakeKey_injective {host host' : Host} {port port' : UInt16}
    (h : sessCacheMakeKey host.name port.toNat = sessCacheMakeKey host'.name port'.toNat) :
    host = host' ∧ port = port' := by
  have hne : sessCacheMakeKey host.name port.toNat ≠ [] := by
    rw [sessCacheMakeKey_eq]
    simp
  obtain ⟨hname, hport⟩ := eq_of_sessCacheMakeKey h hne
  exact ⟨Host.ext hname, UInt16.toNat_inj.1 hport⟩

/-! ### Histories -/

/-- The calls of the session cache. -/
inductive SessOp where
  | put (key : SessKey) (p : SessionParameters)
  | get (key : SessKey)

/-- A lookup changes nothing. -/
def SessOp.run (cache : SessCache) : SessOp → SessCache
  | .put key p => sessCachePut cache key.name p
  | .get _ => cache

/-- The cache after a history of calls, which starts with `s_sess_cache_count = 0`. -/
def sessionsAfter (ops : List SessOp) : SessCache := ops.foldl SessOp.run []

def SessOp.stored : SessOp → Option (Bytes × SessionParameters)
  | .put key p => some (key.name, p)
  | .get _ => none

/-- The puts of a history. -/
def SessOp.puts (ops : List SessOp) : List (Bytes × SessionParameters) :=
  ops.filterMap SessOp.stored

theorem sessionsAfter_eq (ops : List SessOp) :
    sessionsAfter ops = FifoMap.after ostlsSessMax (SessOp.puts ops) := by
  induction ops using List.reverseRecOn with
  | nil => rfl
  | append_singleton ops op ih =>
    rw [sessionsAfter, List.foldl_append, List.foldl_cons, List.foldl_nil, SessOp.puts,
      List.filterMap_append]
    change SessOp.run (sessionsAfter ops) op = FifoMap.after _ (SessOp.puts ops ++ _)
    cases op with
    | get key =>
      rw [List.filterMap_cons_none rfl, List.filterMap_nil, List.append_nil]
      exact ih
    | put key p =>
      rw [show List.filterMap SessOp.stored [SessOp.put key p] = [(key.name, p)] from rfl,
        FifoMap.after_concat, ← ih]
      exact sessCachePut_eq _ key p

/-- What the session cache owes its callers after a history of puts. -/
structure SessionsConform (cache : SessCache) (puts : List (Bytes × SessionParameters)) :
    Prop where
  count : cache.length ≤ ostlsSessMax
  distinct : (cache.map Prod.fst).Nodup
  /-- A key has its last parameters as long as fewer than sixteen different other keys were newly
  inserted since its own last insertion, and none after that. -/
  get : ∀ key : SessKey, sessCacheGet cache key.name =
    if (FifoMap.since key.name (FifoMap.arrivals ostlsSessMax puts)).toFinset.card < ostlsSessMax
    then FifoMap.latest key.name puts else none
  /-- A present key is updated in place. -/
  update : ∀ (key : SessKey) (p : SessionParameters), key.name ∈ cache.map Prod.fst →
    sessCachePut cache key.name p = cache.map fun e => if e.1 = key.name then (key.name, p) else e

/-- **The session cache keeps the last sixteen keys.**  After any history of puts and gets its
entries have distinct keys and are those of the last sixteen insertions; and the keys of two
connections are equal only if their hosts and ports are. -/
theorem sessionCache_fifo (ops : List SessOp) :
    SessionsConform (sessionsAfter ops) (SessOp.puts ops) ∧
      ∀ (host host' : Host) (port port' : UInt16),
        sessCacheMakeKey host.name port.toNat = sessCacheMakeKey host'.name port'.toNat →
          host = host' ∧ port = port' := by
  refine ⟨?_, fun _ _ _ _ => sessCacheMakeKey_injective⟩
  have hinv := FifoMap.inv_history (n := ostlsSessMax) (by decide) (SessOp.puts ops)
  rw [sessionsAfter_eq]
  refine ⟨hinv.length_le, hinv.nodup, fun key => ?_, fun key p hmem => ?_⟩
  · rw [sessCacheGet_eq]
    exact FifoMap.find_after (by decide) (SessOp.puts ops) key.name
  · rw [sessCachePut_eq]
    exact FifoMap.put_of_mem hinv.nodup hmem

end MacTLS
