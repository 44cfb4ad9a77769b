import Mathlib.Data.List.Nodup
import MacTLS.Record.Basic

/-!
# Streams of records

A whole direction of a connection at the record layer: the records encrypted in order with one
context, and decrypted in order with another that was initialised the same way.

* `computeNonce_injective` : under one IV, different sequence numbers give different nonces;
* `nodup_noncesUsed` : so a stream of fewer than 2^64 records never repeats a nonce;
* `decryptStream_peerStream` : every stream comes back, also from a peer that pads its records;
* `record_stream_roundTrip` : both, with the record lengths and the failure behaviour.
-/

namespace MacTLS

variable (C : Crypto)

/-- Encrypt records (content type and plaintext) in order; the context afterwards, and the
record payloads. -/
def encryptStream : RecordCtx → List (UInt8 × Bytes) → RecordCtx × List Bytes
  | ctx, [] => (ctx, [])
  | ctx, (ct, pt) :: rs =>
    let e := tls13RecordEncrypt C ctx pt ct
    let r := encryptStream e.1 rs
    (r.1, e.2 :: r.2)

/-- The nonces that encryption uses, in order. -/
def noncesUsed : RecordCtx → List (UInt8 × Bytes) → List Bytes
  | _, [] => []
  | ctx, (ct, pt) :: rs => ctx.nonce :: noncesUsed (tls13RecordEncrypt C ctx pt ct).1 rs

/-- The records of a peer that appends zero bytes after the content type. -/
def peerStream : RecordCtx → List ((UInt8 × Bytes) × ℕ) → List Bytes
  | _, [] => []
  | ctx, ((ct, pt), pad) :: rs =>
    protect C ctx (pt ++ ct :: List.replicate pad 0) :: peerStream ctx.next rs

/-- Decrypt record payloads in order; `none` as soon as one is refused. -/
def decryptStream : RecordCtx → List Bytes → Option (List (UInt8 × Bytes))
  | _, [] => some []
  | ctx, c :: cs =>
    let out := tls13RecordDecrypt C ctx c
    match out.ret with
    | none => none
    | some (n, ct) => (decryptStream out.ctx cs).map ((ct, out.buf.take n) :: ·)

/-- One more record. -/
theorem encryptStream_concat (ctx : RecordCtx) (rs : List (UInt8 × Bytes)) (ct : UInt8)
    (pt : Bytes) :
    encryptStream C ctx (rs ++ [(ct, pt)]) =
      let r := encryptStream C ctx rs
      let e := tls13RecordEncrypt C r.1 pt ct
      (e.1, r.2 ++ [e.2]) := by
  induction rs generalizing ctx with
  | nil => rfl
  | cons r rs ih =>
    obtain ⟨ct', pt'⟩ := r
    rw [List.cons_append, encryptStream, ih]
    rfl

/-! ### Nonces -/

theorem zipWith_xor_injective {a b c : Bytes} (hb : b.length = a.length)
    (hc : c.length = a.length)
    (h : List.zipWith (· ^^^ ·) a b = List.zipWith (· ^^^ ·) a c) : b = c := by
  induction a generalizing b c with
  | nil =>
    rw [List.length_eq_zero_iff.1 hb, List.length_eq_zero_iff.1 hc]
  | cons x a ih =>
    obtain ⟨y, b, rfl⟩ := List.exists_cons_of_length_eq_add_one hb
    obtain ⟨z, c, rfl⟩ := List.exists_cons_of_length_eq_add_one hc
    simp only [List.zipWith_cons_cons, List.cons.injEq, List.length_cons,
      Nat.add_right_cancel_iff] at h hb hc
    rw [ih hb hc h.2, UInt8.xor_right_inj x |>.1 h.1]

theorem putU32_injective {a b : ℕ} (h : putU32 a = putU32 b) :
    a % 4294967296 = b % 4294967296 := by
  simp only [putU32, List.cons.injEq, and_true] at h
  simp only [← UInt8.toNat_inj, UInt8.toNat_ofNat'] at h
  omega

theorem seqBytes_injective {s t : ℕ} (hs : s < 18446744073709551616)
    (ht : t < 18446744073709551616) (h : seqBytes s = seqBytes t) : s = t := by
  obtain ⟨h1, h2⟩ := List.append_inj h (by simp)
  have h1 := putU32_injective h1
  have h2 := putU32_injective h2
  omega

/-- Under one IV, two sequence numbers of 64 bits give the same nonce only if they are equal. -/
theorem computeNonce_injective {iv : Bytes} (hiv : iv.length = 12) {s t : ℕ}
    (hs : s < 18446744073709551616) (ht : t < 18446744073709551616)
    (h : computeNonce iv s = computeNonce iv t) : s = t := by
  have hmid : ((iv.drop 4).take 8).length = 8 := by simp [hiv]
  refine seqBytes_injective hs ht (zipWith_xor_injective ?_ ?_ (List.append_cancel_left h)) <;>
    rw [hmid] <;> rfl

theorem noncesUsed_eq (ctx : RecordCtx) (hseq : ctx.seq < 18446744073709551616)
    (rs : List (UInt8 × Bytes)) :
    noncesUsed C ctx rs = (List.range rs.length).map fun i =>
      computeNonce ctx.iv ((ctx.seq + i) % 18446744073709551616) := by
  induction rs generalizing ctx with
  | nil => rfl
  | cons r rs ih =>
    obtain ⟨ct, pt⟩ := r
    rw [noncesUsed, List.length_cons, List.range_succ_eq_map, List.map_cons, List.map_map,
      tls13RecordEncrypt_fst, ih ctx.next (Nat.mod_lt _ (by decide))]
    congr 1
    · rw [RecordCtx.nonce, Nat.add_zero, Nat.mod_eq_of_lt hseq]
    · refine List.map_congr_left fun i _ => ?_
      simp only [RecordCtx.next, Function.comp_apply]
      congr 1
      omega

/-- A stream of fewer than 2^64 records never repeats a nonce. -/
theorem nodup_noncesUsed {ctx : RecordCtx} (hiv : ctx.iv.length = 12) (h0 : ctx.seq = 0)
    {rs : List (UInt8 × Bytes)} (hlen : rs.length < 18446744073709551616) :
    (noncesUsed C ctx rs).Nodup := by
  rw [noncesUsed_eq C ctx (by omega)]
  refine List.Nodup.map_on (fun i hi j hj hij => ?_) List.nodup_range
  rw [List.mem_range] at hi hj
  have := computeNonce_injective hiv (Nat.mod_lt _ (by decide)) (Nat.mod_lt _ (by decide)) hij
  omega

/-! ### The round trip -/

/-- Every stream a peer protects comes back, whatever padding it adds. -/
theorem decryptStream_peerStream (ctx : RecordCtx) (rs : List ((UInt8 × Bytes) × ℕ))
    (hct : ∀ r ∈ rs, r.1.1 ≠ 0) :
    decryptStream C ctx (peerStream C ctx rs) = some (rs.map Prod.fst) := by
  induction rs generalizing ctx with
  | nil => rfl
  | cons r rs ih =>
    obtain ⟨⟨ct, pt⟩, pad⟩ := r
    obtain ⟨hctx, hret, hbuf⟩ := tls13RecordDecrypt_protect C ctx pt
      (hct _ List.mem_cons_self) pad
    rw [peerStream, decryptStream, hret]
    dsimp only
    rw [hctx, ih ctx.next fun r hr => hct r (List.mem_cons_of_mem _ hr), hbuf]
    rfl

/-- What the code encrypts is what a peer without padding sends. -/
theorem encryptStream_eq_peerStream (ctx : RecordCtx) (rs : List (UInt8 × Bytes)) :
    (encryptStream C ctx rs).2 = peerStream C ctx (rs.map fun r => (r, 0)) := by
  induction rs generalizing ctx with
  | nil => rfl
  | cons r rs ih =>
    obtain ⟨ct, pt⟩ := r
    rw [encryptStream, List.map_cons, peerStream, tls13RecordEncrypt_fst, ih ctx.next]
    rfl

theorem length_encryptStream (ctx : RecordCtx) (rs : List (UInt8 × Bytes)) :
    (encryptStream C ctx rs).2.map List.length = rs.map fun r => r.2.length + 17 := by
  induction rs generalizing ctx with
  | nil => rfl
  | cons r rs ih =>
    obtain ⟨ct, pt⟩ := r
    simp only [encryptStream, List.map_cons, ih, length_tls13RecordEncrypt]

/-- **The record layer round trip.**  For every key, IV and suite, fewer than 2^64 records
encrypted in order with one context and decrypted in order with another initialised the same way
come back unchanged, also from a peer that pads its records; every payload is 17 bytes longer than
its plaintext; the encrypting context never repeats a nonce; and a record is refused exactly when
it is too short, fails its tag check or decrypts to zeros only, which leaves the context as it
was. -/
theorem record_stream_roundTrip (key iv : Bytes) (hiv : iv.length = 12) (suite : ℕ)
    (rs : List (UInt8 × Bytes)) (hct : ∀ r ∈ rs, r.1 ≠ 0)
    (hlen : rs.length < 18446744073709551616) :
    let enc := tls13RecordInit key iv suite
    let dec := tls13RecordInit key iv suite
    decryptStream C dec (encryptStream C enc rs).2 = some rs ∧
    (∀ pads : List ℕ, pads.length = rs.length →
      decryptStream C dec (peerStream C enc (rs.zip pads)) = some rs) ∧
    (encryptStream C enc rs).2.map List.length = (rs.map fun r => r.2.length + 17) ∧
    (noncesUsed C enc rs).Nodup ∧
    ∀ (ctx : RecordCtx) (c : Bytes),
      ((tls13RecordDecrypt C ctx c).ret = none ↔
        c.length < 17 ∨
        (runAead C ctx false c.length (c.take (c.length - 16))).2 ≠ c.drop (c.length - 16) ∨
        ∀ x ∈ (runAead C ctx false c.length (c.take (c.length - 16))).1, x = 0) ∧
      ((tls13RecordDecrypt C ctx c).ret = none → (tls13RecordDecrypt C ctx c).ctx = ctx) := by
  refine ⟨?_, fun pads hpads => ?_, length_encryptStream C _ rs, nodup_noncesUsed C hiv rfl hlen,
    fun ctx c => ⟨tls13RecordDecrypt_ret_none_iff C ctx c, tls13RecordDecrypt_ctx_of_none⟩⟩
  · rw [encryptStream_eq_peerStream, decryptStream_peerStream]
    · simp [Function.comp_def]
    · intro r hr
      obtain ⟨r', hr', rfl⟩ := List.mem_map.1 hr
      exact hct r' hr'
  · rw [decryptStream_peerStream]
    · rw [List.map_fst_zip (Nat.le_of_eq hpads.symm)]
    · intro r hr
      exact hct r.1 (List.of_mem_zip hr).1

/-- Three records, one of them empty and one ending in zero bytes. -/
theorem record_stream_roundTrip_three :
    let rs : List (UInt8 × Bytes) := [(23, [1, 2, 0, 0]), (22, []), (21, [0])]
    decryptStream Crypto.transparent (tls13RecordInit [7] (List.replicate 12 1) 0x1301)
      (encryptStream Crypto.transparent
        (tls13RecordInit [7] (List.replicate 12 1) 0x1301) rs).2 = some rs :=
  (record_stream_roundTrip Crypto.transparent [7] (List.replicate 12 1) (by decide) 0x1301
    [(23, [1, 2, 0, 0]), (22, []), (21, [0])] (by decide) (by decide)).1

end MacTLS
