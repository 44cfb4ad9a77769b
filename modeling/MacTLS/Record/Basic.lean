import MacTLS.Crypto

/-!
# TLS 1.3 record encryption and decryption

The record layer of `ostls_tls13_record.c`: one `RecordCtx` per direction, with its key, base IV
and 64-bit sequence number.  The nonce is the IV with the sequence number XORed into its last
eight bytes; the additional data is the outer header rebuilt from the ciphertext length; the real
content type is the last non-zero byte of the decrypted payload.

* `length_tls13RecordEncrypt` : a record is 17 bytes longer than its plaintext;
* `tls13RecordDecrypt_protect` : decrypting what a peer protected with the same context gives
  content and type back, whatever zero padding the peer added;
* `tls13RecordDecrypt_ret_none_iff` : the three ways a record is refused;
* `tls13RecordDecrypt_ctx_of_none` : a refused record leaves the context as it was.
-/

namespace MacTLS

/-- AEAD tag size. -/
def tls13TagSize : ℕ := 16

def tlsAes128GcmSha256 : ℕ := 0x1301
def tlsAes256GcmSha384 : ℕ := 0x1302
def tlsChacha20Poly1305Sha256 : ℕ := 0x1303

/-- Record content types. -/
def tls13CtChangeCipherSpec : UInt8 := 20
def tls13CtAlert : UInt8 := 21
def tls13CtHandshake : UInt8 := 22
def tls13CtApplicationData : UInt8 := 23

/-- Record context, one per direction. -/
structure RecordCtx where
  /-- Encryption key (16 or 32 bytes). -/
  key : Bytes
  /-- Base IV (12 bytes). -/
  iv : Bytes
  /-- Record sequence number, a 64-bit counter. -/
  seq : ℕ
  cipherSuite : ℕ
  deriving DecidableEq, Repr

/-- The sequence number as eight big-endian bytes. -/
def seqBytes (seq : ℕ) : Bytes := putU32 (seq / 4294967296) ++ putU32 seq

/-- Per-record nonce: the IV with the sequence number XORed into its low eight bytes. -/
def computeNonce (iv : Bytes) (seq : ℕ) : Bytes :=
  iv.take 4 ++ List.zipWith (· ^^^ ·) ((iv.drop 4).take 8) (seqBytes seq)

/-- The additional data: the outer record header. -/
def buildAad (ciphertextLen : ℕ) : Bytes := [0x17, 0x03, 0x03] ++ putU16 ciphertextLen

/-- Constant-time comparison of two 16-byte tags (also what `br_gcm_check_tag` does). -/
def tagEqual (a b : Bytes) : Bool := byteDiff a b tls13TagSize == 0

/-- The construction a suite selects: anything but ChaCha20-Poly1305 runs AES-GCM. -/
def aeadFor (suite : ℕ) : Aead :=
  if suite = tlsChacha20Poly1305Sha256 then .chacha20Poly1305 else .aesGcm

/-- Initialise a record context. -/
def tls13RecordInit (key iv : Bytes) (cipherSuite : ℕ) : RecordCtx :=
  { key, iv, seq := 0, cipherSuite }

/-- The nonce the next record of this context uses. -/
def RecordCtx.nonce (ctx : RecordCtx) : Bytes := computeNonce ctx.iv ctx.seq

/-- The context after one record: `seq++` on a `uint64_t`. -/
def RecordCtx.next (ctx : RecordCtx) : RecordCtx :=
  { ctx with seq := (ctx.seq + 1) % 18446744073709551616 }

/-- The AEAD run of one record in place, for a record payload of `ctLen` bytes on the wire. -/
def runAead (C : Crypto) (ctx : RecordCtx) (encrypt : Bool) (ctLen : ℕ) (data : Bytes) :
    Bytes × Bytes :=
  C.aeadRun (aeadFor ctx.cipherSuite) encrypt ctx.key ctx.nonce (buildAad ctLen) data

/-- Seal a whole inner plaintext (content, type byte and any padding) under the context. -/
def protect (C : Crypto) (ctx : RecordCtx) (inner : Bytes) : Bytes :=
  let r := runAead C ctx true (inner.length + tls13TagSize) inner
  r.1 ++ r.2

/-- Encrypt one record: the content type byte is appended before sealing.  It never fails. -/
def tls13RecordEncrypt (C : Crypto) (ctx : RecordCtx) (plaintext : Bytes) (ct : UInt8) :
    RecordCtx × Bytes :=
  (ctx.next, protect C ctx (plaintext ++ [ct]))

/-- `while (i > 0 && buf[i - 1] == 0) i--` -/
def contentEnd (buf : Bytes) : ℕ → ℕ
  | 0 => 0
  | i + 1 => if byteAt buf i = 0 then contentEnd buf i else i + 1

/-- What `tls13_record_decrypt` leaves behind. -/
structure DecryptOut where
  ctx : RecordCtx
  /-- The bytes written to the output buffer: nothing for a record that is too short, else the
  decrypted payload followed by the received tag, also when the record is refused. -/
  buf : Bytes
  /-- Content length and content type, or `none` for the return value `-1`. -/
  ret : Option (ℕ × UInt8)

/-- Decrypt one record payload (the bytes after the 5-byte header). -/
def tls13RecordDecrypt (C : Crypto) (ctx : RecordCtx) (ciphertext : Bytes) : DecryptOut :=
  if ciphertext.length < 1 + tls13TagSize then ⟨ctx, [], none⟩
  else
    let payloadLen := ciphertext.length - tls13TagSize
    let r := runAead C ctx false ciphertext.length (ciphertext.take payloadLen)
    let decBuf := r.1 ++ ciphertext.drop payloadLen
    if tagEqual r.2 (decBuf.drop payloadLen) then
      match contentEnd decBuf payloadLen with
      | 0 => ⟨ctx, decBuf, none⟩
      | i + 1 => ⟨ctx.next, decBuf, some (i, byteAt decBuf i)⟩
    else ⟨ctx, decBuf, none⟩

@[simp] theorem next_key (ctx : RecordCtx) : ctx.next.key = ctx.key := rfl

@[simp] theorem next_iv (ctx : RecordCtx) : ctx.next.iv = ctx.iv := rfl

@[simp] theorem next_cipherSuite (ctx : RecordCtx) : ctx.next.cipherSuite = ctx.cipherSuite := rfl

@[simp] theorem tls13RecordEncrypt_fst (C : Crypto) (ctx : RecordCtx) (pt : Bytes) (ct : UInt8) :
    (tls13RecordEncrypt C ctx pt ct).1 = ctx.next := rfl

/-! ### Tags -/

/-- The tag comparison accepts exactly equal tags. -/
theorem tagEqual_iff {a b : Bytes} (ha : a.length = 16) (hb : b.length = 16) :
    tagEqual a b = true ↔ a = b := by
  rw [tagEqual, beq_iff_eq]
  exact byteDiff_eq_zero_iff ha hb

/-! ### Encryption -/

section

variable (C : Crypto) (ctx : RecordCtx)

@[simp] theorem length_runAead (b : Bool) (n : ℕ) (d : Bytes) :
    (runAead C ctx b n d).1.length = d.length := C.aeadRun_length ..

@[simp] theorem length_runAead_tag (b : Bool) (n : ℕ) (d : Bytes) :
    (runAead C ctx b n d).2.length = 16 := C.aeadRun_tag_length ..

@[simp] theorem runAead_open (n : ℕ) (d : Bytes) :
    runAead C ctx false n (runAead C ctx true n d).1 = (d, (runAead C ctx true n d).2) :=
  C.aeadRun_open ..

theorem length_protect (inner : Bytes) : (protect C ctx inner).length = inner.length + 16 := by
  simp [protect]

theorem length_tls13RecordEncrypt (pt : Bytes) (ct : UInt8) :
    (tls13RecordEncrypt C ctx pt ct).2.length = pt.length + 17 := by
  simp [tls13RecordEncrypt, length_protect]

end

/-! ### Finding the content type -/

theorem contentEnd_le (buf : Bytes) (n : ℕ) : contentEnd buf n ≤ n := by
  induction n with
  | zero => exact Nat.le_refl 0
  | succ n ih =>
    rw [contentEnd]
    split_ifs
    · exact Nat.le_succ_of_le ih
    · exact Nat.le_refl _

/-- The scan finds nothing exactly when every byte is zero. -/
theorem contentEnd_eq_zero_iff {buf : Bytes} {n : ℕ} :
    contentEnd buf n = 0 ↔ ∀ i < n, byteAt buf i = 0 := by
  induction n with
  | zero => simp [contentEnd]
  | succ n ih =>
    rw [contentEnd]
    split_ifs with h
    · rw [ih]
      constructor
      · intro hall i hi
        rcases Nat.lt_succ_iff_lt_or_eq.1 hi with hlt | rfl
        · exact hall i hlt
        · exact h
      · intro hall i hi
        exact hall i (Nat.lt_succ_of_lt hi)
    · simp only [false_iff, not_forall]
      exact ⟨n, Nat.lt_succ_self n, h⟩

/-- The scan skips the padding and stops behind the content type. -/
theorem contentEnd_padded {ct : UInt8} (hct : ct ≠ 0) (pt rest : Bytes) (pad : ℕ) :
    contentEnd (pt ++ ct :: List.replicate pad 0 ++ rest) (pt.length + 1 + pad) =
      pt.length + 1 := by
  induction pad generalizing rest with
  | zero => simp [contentEnd, byteAt, hct]
  | succ pad ih =>
    rw [← Nat.add_assoc, contentEnd, if_pos]
    · rw [List.replicate_succ', ← List.cons_append, ← List.append_assoc, List.append_assoc]
      exact ih ([0] ++ rest)
    · have h : pt.length + 1 + pad - pt.length = pad + 1 := by omega
      simp only [byteAt, List.append_assoc, List.getD_eq_getElem?_getD]
      rw [List.getElem?_append_right (by omega), h, List.cons_append, List.getElem?_cons_succ,
        List.getElem?_append_left (by simp)]
      simp

/-! ### Decryption -/

section

variable (C : Crypto) (ctx : RecordCtx)

/-- Decryption of a payload split into its body and its tag. -/
theorem tls13RecordDecrypt_append {body tag : Bytes} (hbody : 1 ≤ body.length)
    (htag : tag.length = 16) :
    tls13RecordDecrypt C ctx (body ++ tag) =
      let r := runAead C ctx false (body.length + 16) body
      if r.2 = tag then
        match contentEnd (r.1 ++ tag) body.length with
        | 0 => ⟨ctx, r.1 ++ tag, none⟩
        | i + 1 => ⟨ctx.next, r.1 ++ tag, some (i, byteAt (r.1 ++ tag) i)⟩
      else ⟨ctx, r.1 ++ tag, none⟩ := by
  have hlen : (body ++ tag).length = body.length + 16 := by simp [htag]
  have hpay : body.length + 16 - tls13TagSize = body.length := rfl
  have hdrop : ((runAead C ctx false (body.length + 16) body).1 ++ tag).drop body.length = tag :=
    List.drop_left' (length_runAead ..)
  rw [tls13RecordDecrypt, if_neg (by rw [hlen, tls13TagSize]; omega)]
  simp only [hlen, hpay, List.take_left, List.drop_left, hdrop,
    tagEqual_iff (length_runAead_tag ..) htag]

/-- Content, type and padding come back from a record protected under the same context. -/
theorem tls13RecordDecrypt_protect (pt : Bytes) {ct : UInt8} (hct : ct ≠ 0) (pad : ℕ) :
    let out := tls13RecordDecrypt C ctx (protect C ctx (pt ++ ct :: List.replicate pad 0))
    out.ctx = ctx.next ∧ out.ret = some (pt.length, ct) ∧ out.buf.take pt.length = pt := by
  have hil : (pt ++ ct :: List.replicate pad 0).length = pt.length + 1 + pad := by simp; omega
  simp only [protect, tls13TagSize]
  rw [tls13RecordDecrypt_append C ctx (by simp; omega) (by simp)]
  simp only [length_runAead, runAead_open, if_true, hil, contentEnd_padded hct]
  simp [byteAt]

/-- A record is refused when it is too short, its tag does not match, or it holds only zeros. -/
theorem tls13RecordDecrypt_ret_none_iff (c : Bytes) :
    (tls13RecordDecrypt C ctx c).ret = none ↔
      c.length < 17 ∨
      (runAead C ctx false c.length (c.take (c.length - 16))).2 ≠ c.drop (c.length - 16) ∨
      ∀ x ∈ (runAead C ctx false c.length (c.take (c.length - 16))).1, x = 0 := by
  by_cases hshort : c.length < 17
  · simp [tls13RecordDecrypt, tls13TagSize, hshort]
  · have hbody : (c.take (c.length - 16)).length = c.length - 16 := by simp
    have hlen : c.length - 16 + 16 = c.length := by omega
    have key := @tls13RecordDecrypt_append C ctx (c.take (c.length - 16))
      (c.drop (c.length - 16)) (by rw [hbody]; omega) (by simp; omega)
    rw [List.take_append_drop, hbody, hlen] at key
    have hr1 := length_runAead C ctx false c.length (c.take (c.length - 16))
    rw [hbody] at hr1
    generalize runAead C ctx false c.length (c.take (c.length - 16)) = r at key hr1 ⊢
    have hzero : contentEnd (r.1 ++ c.drop (c.length - 16)) (c.length - 16) = 0 ↔
        ∀ x ∈ r.1, x = 0 := by
      rw [contentEnd_eq_zero_iff, List.forall_mem_iff_getElem, ← hr1]
      refine forall₂_congr fun i hi => ?_
      rw [byteAt_append hi]
      simp [byteAt, hi]
    rw [key, ← hzero]
    dsimp only
    split_ifs with htag
    · split <;> simp_all
    · simp [htag]

variable {C ctx} in
/-- A refused record leaves the context unchanged. -/
theorem tls13RecordDecrypt_ctx_of_none {c : Bytes} (h : (tls13RecordDecrypt C ctx c).ret = none) :
    (tls13RecordDecrypt C ctx c).ctx = ctx := by
  unfold tls13RecordDecrypt at h ⊢
  split_ifs at h ⊢ with hshort
  · rfl
  · dsimp only at h ⊢
    split_ifs at h ⊢ with htag
    · split at h
      · rfl
      · cases h
    · rfl

variable {C ctx} in
/-- An accepted record advances the sequence number and nothing else. -/
theorem tls13RecordDecrypt_ctx_of_some {c : Bytes} {r : ℕ × UInt8}
    (h : (tls13RecordDecrypt C ctx c).ret = some r) :
    (tls13RecordDecrypt C ctx c).ctx = ctx.next := by
  unfold tls13RecordDecrypt at h ⊢
  split_ifs at h ⊢ with hshort
  dsimp only at h ⊢
  split_ifs at h ⊢ with htag
  split at h
  · cases h
  · rfl

/-- A decryption changes no more than the sequence number. -/
theorem tls13RecordDecrypt_ctx (c : Bytes) : (tls13RecordDecrypt C ctx c).ctx =
    { ctx with seq := (tls13RecordDecrypt C ctx c).ctx.seq } := by
  cases h : (tls13RecordDecrypt C ctx c).ret with
  | none => rw [tls13RecordDecrypt_ctx_of_none h]
  | some r => rw [tls13RecordDecrypt_ctx_of_some h]; rfl

/-- The content fits the payload: no more than `ct_len - 17` bytes are plaintext. -/
theorem tls13RecordDecrypt_len_le {C : Crypto} {ctx : RecordCtx} {c : Bytes} {n : ℕ} {ct : UInt8}
    (h : (tls13RecordDecrypt C ctx c).ret = some (n, ct)) : n + 17 ≤ c.length := by
  unfold tls13RecordDecrypt at h
  split_ifs at h with hshort
  dsimp only at h
  split_ifs at h with htag
  split at h
  · cases h
  · rename_i i hi
    simp only [Option.some.injEq, Prod.mk.injEq] at h
    have hle := contentEnd_le
      ((runAead C ctx false c.length (c.take (c.length - tls13TagSize))).1 ++
        c.drop (c.length - tls13TagSize)) (c.length - tls13TagSize)
    rw [hi] at hle
    simp only [tls13TagSize] at hshort hle
    omega

/-- A record that is not too short is decrypted whole into the output buffer, tag included. -/
theorem length_tls13RecordDecrypt_buf {c : Bytes} (h : 17 ≤ c.length) :
    (tls13RecordDecrypt C ctx c).buf.length = c.length := by
  have hbuf : ((runAead C ctx false c.length (c.take (c.length - tls13TagSize))).1 ++
      c.drop (c.length - tls13TagSize)).length = c.length := by
    simp only [List.length_append, length_runAead, List.length_take, List.length_drop]
    omega
  unfold tls13RecordDecrypt
  rw [if_neg (by simp only [tls13TagSize]; omega)]
  dsimp only
  split_ifs with htag
  · split <;> exact hbuf
  · exact hbuf

end

end MacTLS
