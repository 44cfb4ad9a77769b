import MacTLS.Record.Basic
import MacTLS.Ssl.Records

/-!
# The AEAD cipher suites of TLS 1.2

The records of `ssl_rec_gcm.c` and of `ssl_rec_chapol.c`, over the block cipher in counter mode,
GHASH, and the ChaCha20-Poly1305 of `Crypto`.

* `gcmDecrypt`, `gcmEncrypt`, `chapolDecrypt`, `chapolEncrypt` : one record, in place;
* `suiteIn`, `suiteOut` : what the engine relies on in them;
* `suite_opens` : a record that was sealed under a context is opened under the same one.
-/

namespace MacTLS

/-- The block cipher in counter mode (`br_block_ctr_class`), by its key stream, and GHASH. -/
structure CtrGhash where
  /-- The key stream under a key and an IV, from a counter on. -/
  keyStream : Bytes → Bytes → ℕ → ℕ → Bytes
  length_keyStream : ∀ k iv c n, (keyStream k iv c n).length = n
  /-- GHASH under `h` of the header, the data and the footer, from a tag of zeros. -/
  ghash : Bytes → Bytes → Bytes → Bytes → Bytes
  length_ghash : ∀ h header data footer, (ghash h header data footer).length = 16

/-- A transparent stand-in that keeps every law: the key stream is zero, and a tag keeps a prefix of
what it is computed from. -/
def CtrGhash.transparent : CtrGhash where
  keyStream _ _ _ n := List.replicate n 0
  length_keyStream _ _ _ _ := List.length_replicate ..
  ghash h header data _ := fitTo 16 (header.drop 7 ++ data ++ h)
  length_ghash _ _ _ _ := length_fitTo 16 _

/-- `bc.vtable->run` -/
def CtrGhash.run (P : CtrGhash) (key iv : Bytes) (cc : ℕ) (data : Bytes) : Bytes :=
  List.zipWith (· ^^^ ·) data (P.keyStream key iv cc data.length)

/-- The header that is authenticated with a record. -/
def recordHeader (seq : ℕ) (recordType : UInt8) (version len : ℕ) : Bytes :=
  seqBytes seq ++ [recordType] ++ putU16 version ++ putU16 len

/-- `seq ++` on a `uint64_t`. -/
def nextSeq (seq : ℕ) : ℕ := (seq + 1) % 18446744073709551616

/-! ### GCM -/

/-- `br_sslrec_gcm_context` -/
structure GcmContext where
  seq : ℕ
  key : Bytes
  iv : Bytes
  h : Bytes
  deriving DecidableEq

/-- `gen_gcm_init` -/
def genGcmInit (P : CtrGhash) (key iv : Bytes) : GcmContext :=
  { seq := 0, key, iv, h := P.run key (List.replicate 12 0) 0 (List.replicate 16 0) }

/-- `gcm_check_length` -/
def gcmCheckLength (rlen : ℕ) : Bool := rlen ≥ 24 && rlen ≤ 16384 + 24

/-- `do_tag` -/
def doTag (P : CtrGhash) (cc : GcmContext) (recordType : UInt8) (version : ℕ) (data : Bytes) :
    GcmContext × Bytes :=
  ({ cc with seq := nextSeq cc.seq },
    P.ghash cc.h (recordHeader cc.seq recordType version data.length) data
      (seqBytes (13 * 8) ++ seqBytes (data.length * 8)))

/-- `do_ctr`: the data, and what the tag is combined with. -/
def doCtr (P : CtrGhash) (cc : GcmContext) (nonce data xortag : Bytes) : Bytes × Bytes :=
  (P.run cc.key (cc.iv.take 4 ++ nonce) 2 data, P.run cc.key (cc.iv.take 4 ++ nonce) 1 xortag)

/-- `gcm_decrypt` -/
def gcmDecrypt (P : CtrGhash) (cc : GcmContext) (recordType : UInt8) (version : ℕ) (data : Bytes) :
    GcmContext × Bytes × Option (ℕ × ℕ) :=
  let len := data.length - 24
  let t := doTag P cc recordType version ((data.drop 8).take len)
  let r := doCtr P cc (data.take 8) ((data.drop 8).take len) t.2
  (t.1, data.take 8 ++ r.1 ++ data.drop (8 + len),
    if tagEqual r.2 (data.drop (8 + len)) then some (8, len) else none)

/-- `gcm_max_plaintext` -/
def gcmMaxPlaintext (start stop : ℕ) : ℕ × ℕ :=
  (start + 8, start + 8 + min (stop - (start + 8) - 16) 16384)

/-- `gcm_encrypt` -/
def gcmEncrypt (P : CtrGhash) (cc : GcmContext) (recordType : UInt8) (version : ℕ) (data : Bytes) :
    GcmContext × ℕ × Bytes :=
  let r := doCtr P cc (seqBytes cc.seq) data (List.replicate 16 0)
  let t := doTag P cc recordType version r.1
  (t.1, 13, [recordType] ++ putU16 version ++ putU16 (data.length + 24) ++ seqBytes cc.seq ++ r.1 ++
    List.zipWith (· ^^^ ·) t.2 r.2)

/-! ### ChaCha20-Poly1305 -/

/-- `br_sslrec_chapol_context` -/
structure ChapolContext where
  seq : ℕ
  key : Bytes
  iv : Bytes
  deriving DecidableEq

/-- `gen_chapol_init` -/
def genChapolInit (key iv : Bytes) : ChapolContext := { seq := 0, key, iv }

/-- `gen_chapol_process`: the context afterwards, the data and the tag. -/
def genChapolProcess (C : Crypto) (cc : ChapolContext) (recordType : UInt8) (version : ℕ)
    (data : Bytes) (encrypt : Bool) : ChapolContext × Bytes × Bytes :=
  ({ cc with seq := nextSeq cc.seq },
    C.aeadRun .chacha20Poly1305 encrypt cc.key (computeNonce cc.iv cc.seq)
      (recordHeader cc.seq recordType version data.length) data)

/-- `chapol_check_length` -/
def chapolCheckLength (rlen : ℕ) : Bool := rlen ≥ 16 && rlen ≤ 16384 + 16

/-- `chapol_decrypt` -/
def chapolDecrypt (C : Crypto) (cc : ChapolContext) (recordType : UInt8) (version : ℕ)
    (data : Bytes) : ChapolContext × Bytes × Option (ℕ × ℕ) :=
  let len := data.length - 16
  let r := genChapolProcess C cc recordType version (data.take len) false
  (r.1, r.2.1 ++ data.drop len, if tagEqual r.2.2 (data.drop len) then some (0, len) else none)

/-- `chapol_max_plaintext` -/
def chapolMaxPlaintext (start stop : ℕ) : ℕ × ℕ := (start, start + min (stop - start - 16) 16384)

/-- `chapol_encrypt` -/
def chapolEncrypt (C : Crypto) (cc : ChapolContext) (recordType : UInt8) (version : ℕ)
    (data : Bytes) : ChapolContext × ℕ × Bytes :=
  let r := genChapolProcess C cc recordType version data true
  (r.1, 5, [recordType] ++ putU16 version ++ putU16 (data.length + 16) ++ r.2.1 ++ r.2.2)

/-! ### The vtables -/

/-- The context of a record of one of these suites. -/
inductive SuiteContext where
  | gcm (cc : GcmContext)
  | chapol (cc : ChapolContext)
  deriving DecidableEq

/-- `in.vtable->check_length` -/
def suiteCheckLength : SuiteContext → ℕ → Bool
  | .gcm _ => gcmCheckLength
  | .chapol _ => chapolCheckLength

/-- `in.vtable->decrypt` -/
def suiteDecrypt (C : Crypto) (P : CtrGhash) (c : SuiteContext) (recordType : UInt8) (version : ℕ)
    (data : Bytes) : SuiteContext × Bytes × Option (ℕ × ℕ) :=
  match c with
  | .gcm cc => (.gcm (gcmDecrypt P cc recordType version data).1,
      (gcmDecrypt P cc recordType version data).2)
  | .chapol cc => (.chapol (chapolDecrypt C cc recordType version data).1,
      (chapolDecrypt C cc recordType version data).2)

/-- `out.vtable->max_plaintext` -/
def suiteMaxPlaintext : SuiteContext → ℕ → ℕ → ℕ × ℕ
  | .gcm _ => gcmMaxPlaintext
  | .chapol _ => chapolMaxPlaintext

/-- `out.vtable->encrypt` -/
def suiteEncrypt (C : Crypto) (P : CtrGhash) (c : SuiteContext) (recordType : UInt8) (version : ℕ)
    (data : Bytes) : SuiteContext × ℕ × Bytes :=
  match c with
  | .gcm cc => (.gcm (gcmEncrypt P cc recordType version data).1,
      (gcmEncrypt P cc recordType version data).2)
  | .chapol cc => (.chapol (chapolEncrypt C cc recordType version data).1,
      (chapolEncrypt C cc recordType version data).2)

section

variable (C : Crypto) (P : CtrGhash)

theorem length_run (key iv : Bytes) (cc : ℕ) (data : Bytes) :
    (P.run key iv cc data).length = data.length := by
  rw [CtrGhash.run, List.length_zipWith, P.length_keyStream, Nat.min_self]

theorem length_seqBytes (seq : ℕ) : (seqBytes seq).length = 8 := rfl

theorem length_suiteDecrypt (c : SuiteContext) (recordType : UInt8) (version : ℕ) (data : Bytes) :
    (suiteDecrypt C P c recordType version data).2.1.length = data.length := by
  cases c with
  | gcm cc =>
    simp only [suiteDecrypt, gcmDecrypt, doCtr, List.length_append, length_run, List.length_take,
      List.length_drop]
    omega
  | chapol cc =>
    simp only [suiteDecrypt, chapolDecrypt, genChapolProcess, List.length_append, C.aeadRun_length,
      List.length_take, List.length_drop]
    omega

theorem suiteDecrypt_fits (c : SuiteContext) (recordType : UInt8) (version : ℕ) (data : Bytes)
    (off n : ℕ) (hok : suiteCheckLength c data.length = true)
    (h : (suiteDecrypt C P c recordType version data).2.2 = some (off, n)) :
    off + n ≤ data.length := by
  cases c with
  | gcm cc =>
    simp only [suiteCheckLength, gcmCheckLength, Bool.and_eq_true, decide_eq_true_eq] at hok
    simp only [suiteDecrypt, gcmDecrypt, Option.ite_none_right_eq_some, Option.some.injEq,
      Prod.mk.injEq] at h
    omega
  | chapol cc =>
    simp only [suiteDecrypt, chapolDecrypt, Option.ite_none_right_eq_some, Option.some.injEq,
      Prod.mk.injEq] at h
    omega

/-- Opening records of these suites. -/
def suiteIn : RecordIn SuiteContext where
  checkLength := suiteCheckLength
  decrypt := suiteDecrypt C P
  length_decrypt := length_suiteDecrypt C P
  decrypt_fits := suiteDecrypt_fits C P

theorem suiteMaxPlaintext_room (c : SuiteContext) (stop : ℕ) (h : 592 ≤ stop) :
    (suiteMaxPlaintext c 5 stop).1 < (suiteMaxPlaintext c 5 stop).2 ∧
      (suiteMaxPlaintext c 5 stop).2 ≤ stop := by
  cases c <;> simp only [suiteMaxPlaintext, gcmMaxPlaintext, chapolMaxPlaintext] <;> omega

theorem suiteMaxPlaintext_le (c : SuiteContext) (stop : ℕ) (_ : 592 ≤ stop) :
    (suiteMaxPlaintext c 5 stop).2 ≤ (suiteMaxPlaintext c 5 stop).1 + 16384 := by
  cases c <;> simp only [suiteMaxPlaintext, gcmMaxPlaintext, chapolMaxPlaintext] <;> omega

/-- A record is its header and a body, and the body is longer than the plaintext by the overhead. -/
theorem suiteEncrypt_length (c : SuiteContext) (recordType : UInt8) (version : ℕ) (data : Bytes) :
    (suiteEncrypt C P c recordType version data).2.1 = (suiteMaxPlaintext c 5 0).1 ∧
      (suiteEncrypt C P c recordType version data).2.2.length =
        (suiteMaxPlaintext c 5 0).1 + data.length + 16 := by
  cases c with
  | gcm cc =>
    refine ⟨rfl, ?_⟩
    simp only [suiteEncrypt, gcmEncrypt, doCtr, doTag, suiteMaxPlaintext, gcmMaxPlaintext,
      List.length_append, length_run, length_putU16, length_seqBytes, List.length_singleton,
      List.length_zipWith, P.length_ghash, List.length_replicate]
    omega
  | chapol cc =>
    refine ⟨rfl, ?_⟩
    simp only [suiteEncrypt, chapolEncrypt, genChapolProcess, suiteMaxPlaintext, chapolMaxPlaintext,
      List.length_append, C.aeadRun_length, C.aeadRun_tag_length, length_putU16,
      List.length_singleton]

theorem suiteEncrypt_fits (c : SuiteContext) (recordType : UInt8) (version : ℕ) (data : Bytes)
    (stop : ℕ) (_ : 592 ≤ stop)
    (hle : (suiteMaxPlaintext c 5 stop).1 + data.length ≤ (suiteMaxPlaintext c 5 stop).2) :
    (suiteEncrypt C P c recordType version data).2.1 ≤ (suiteMaxPlaintext c 5 stop).1 ∧
      0 < (suiteEncrypt C P c recordType version data).2.2.length ∧
      (suiteMaxPlaintext c 5 stop).1 - (suiteEncrypt C P c recordType version data).2.1 +
        (suiteEncrypt C P c recordType version data).2.2.length ≤ stop := by
  obtain ⟨hbefore, hlen⟩ := suiteEncrypt_length C P c recordType version data
  rw [hbefore, hlen]
  cases c <;> simp only [suiteMaxPlaintext, gcmMaxPlaintext, chapolMaxPlaintext] at hle ⊢ <;> omega

/-- Sealing records of these suites. -/
def suiteOut : RecordOut SuiteContext where
  maxPlaintext := suiteMaxPlaintext
  encrypt := suiteEncrypt C P
  maxPlaintext_room := suiteMaxPlaintext_room
  maxPlaintext_le := suiteMaxPlaintext_le
  encrypt_fits := suiteEncrypt_fits C P

/-! ### Opening what was sealed -/

theorem zipWith_xor_cancel {a k : Bytes} (h : k.length = a.length) :
    List.zipWith (· ^^^ ·) (List.zipWith (· ^^^ ·) a k) k = a := by
  refine List.ext_getElem (by simp [h]) fun i hi hi' => ?_
  rw [List.getElem_zipWith, List.getElem_zipWith, UInt8.xor_assoc, UInt8.xor_self, UInt8.xor_zero]

theorem zipWith_xor_zeros (k : Bytes) :
    List.zipWith (· ^^^ ·) (List.replicate k.length 0) k = k := by
  induction k with
  | nil => rfl
  | cons x k ih =>
    rw [List.length_cons, List.replicate_succ, List.zipWith_cons_cons, ih, UInt8.zero_xor]

/-- Counter mode undoes itself. -/
theorem run_run (key iv : Bytes) (cc : ℕ) (data : Bytes) :
    P.run key iv cc (P.run key iv cc data) = data := by
  rw [CtrGhash.run, length_run, CtrGhash.run]
  exact zipWith_xor_cancel (P.length_keyStream ..)

/-- A tag is combined with what counter mode makes of zeros. -/
theorem run_eq_xor_zeros (key iv : Bytes) (cc : ℕ) (tag : Bytes) (h : tag.length = 16) :
    P.run key iv cc tag =
      List.zipWith (· ^^^ ·) tag (P.run key iv cc (List.replicate 16 0)) := by
  have hzeros : P.run key iv cc (List.replicate 16 0) = P.keyStream key iv cc 16 := by
    have hzeros := zipWith_xor_zeros (P.keyStream key iv cc 16)
    rw [P.length_keyStream] at hzeros
    rw [CtrGhash.run, List.length_replicate, hzeros]
  rw [hzeros, CtrGhash.run, h]

/-- A record that was sealed under a GCM context is opened under the same one. -/
theorem gcm_opens (cc : GcmContext) (recordType : UInt8) (version : ℕ) (data : Bytes) :
    ∃ body, (gcmEncrypt P cc recordType version data).2.2 =
        [recordType] ++ putU16 version ++ putU16 body.length ++ body ∧
      body.length = data.length + 24 ∧
      (gcmDecrypt P cc recordType version body).1 = (gcmEncrypt P cc recordType version data).1 ∧
      (gcmDecrypt P cc recordType version body).2.2 = some (8, data.length) ∧
      ((gcmDecrypt P cc recordType version body).2.1.drop 8).take data.length = data := by
  set nonce := seqBytes cc.seq
  set ct := P.run cc.key (cc.iv.take 4 ++ nonce) 2 data with hct
  set ghash := P.ghash cc.h (recordHeader cc.seq recordType version ct.length) ct
    (seqBytes (13 * 8) ++ seqBytes (ct.length * 8))
  set mask := P.run cc.key (cc.iv.take 4 ++ nonce) 1 (List.replicate 16 0)
  have hctlen : ct.length = data.length := length_run ..
  have hghash : ghash.length = 16 := P.length_ghash ..
  have hmask : mask.length = 16 := (length_run ..).trans (List.length_replicate ..)
  have htag : (List.zipWith (· ^^^ ·) ghash mask).length = 16 := by
    rw [List.length_zipWith, hghash, hmask, Nat.min_self]
  set tag := List.zipWith (· ^^^ ·) ghash mask
  have hnonce : nonce.length = 8 := rfl
  have hbody : (nonce ++ ct ++ tag).length = data.length + 24 := by
    rw [List.length_append, List.length_append, hnonce, htag, hctlen]
    omega
  -- the parts of the body
  have htake : (nonce ++ ct ++ tag).take 8 = nonce := by
    rw [List.append_assoc, List.take_left' hnonce]
  have hmiddle : ((nonce ++ ct ++ tag).drop 8).take data.length = ct := by
    rw [List.append_assoc, List.drop_left' hnonce, List.take_left' hctlen]
  have hdrop : (nonce ++ ct ++ tag).drop (8 + data.length) = tag :=
    List.drop_left' (by rw [List.length_append, hnonce, hctlen])
  have hdecrypt : gcmDecrypt P cc recordType version (nonce ++ ct ++ tag) =
      ({ cc with seq := nextSeq cc.seq },
        nonce ++ P.run cc.key (cc.iv.take 4 ++ nonce) 2 ct ++ tag,
        if tagEqual (P.run cc.key (cc.iv.take 4 ++ nonce) 1 ghash) tag then some (8, data.length)
        else none) := by
    rw [gcmDecrypt, hbody, Nat.add_sub_cancel, hmiddle, htake, hdrop]
    rfl
  rw [run_run, run_eq_xor_zeros _ _ _ _ _ hghash,
    if_pos ((tagEqual_iff htag htag).2 rfl)] at hdecrypt
  refine ⟨nonce ++ ct ++ tag, ?_, hbody, ?_, ?_, ?_⟩
  · rw [hbody]
    show [recordType] ++ putU16 version ++ putU16 (data.length + 24) ++ nonce ++ ct ++ tag = _
    simp only [List.append_assoc]
  · rw [hdecrypt]
    rfl
  · rw [hdecrypt]
  · rw [hdecrypt]
    show ((nonce ++ data ++ tag).drop 8).take data.length = data
    rw [List.append_assoc, List.drop_left' hnonce, List.take_left]

/-- A record that was sealed under a ChaCha20-Poly1305 context is opened under the same one. -/
theorem chapol_opens (cc : ChapolContext) (recordType : UInt8) (version : ℕ) (data : Bytes) :
    ∃ body, (chapolEncrypt C cc recordType version data).2.2 =
        [recordType] ++ putU16 version ++ putU16 body.length ++ body ∧
      body.length = data.length + 16 ∧
      (chapolDecrypt C cc recordType version body).1 =
        (chapolEncrypt C cc recordType version data).1 ∧
      (chapolDecrypt C cc recordType version body).2.2 = some (0, data.length) ∧
      ((chapolDecrypt C cc recordType version body).2.1.drop 0).take data.length = data := by
  set r := genChapolProcess C cc recordType version data true with hr
  have hctlen : r.2.1.length = data.length := C.aeadRun_length ..
  have htag : r.2.2.length = 16 := C.aeadRun_tag_length ..
  have hbody : (r.2.1 ++ r.2.2).length = data.length + 16 := by
    rw [List.length_append, htag, hctlen]
  have hopen : genChapolProcess C cc recordType version r.2.1 false = (r.1, data, r.2.2) := by
    rw [genChapolProcess, hctlen]
    exact congrArg _ (C.aeadRun_open ..)
  have hdecrypt : chapolDecrypt C cc recordType version (r.2.1 ++ r.2.2) =
      (r.1, data ++ r.2.2, some (0, data.length)) := by
    rw [chapolDecrypt, hbody, Nat.add_sub_cancel, List.take_left' hctlen, List.drop_left' hctlen,
      hopen]
    dsimp only
    rw [if_pos ((tagEqual_iff htag htag).2 rfl)]
  refine ⟨r.2.1 ++ r.2.2, ?_, hbody, ?_, ?_, ?_⟩
  · rw [hbody]
    show [recordType] ++ putU16 version ++ putU16 (data.length + 16) ++ r.2.1 ++ r.2.2 = _
    simp only [List.append_assoc]
  · rw [hdecrypt]
    rfl
  · rw [hdecrypt]
  · rw [hdecrypt]
    exact List.take_left

/-- A record that was sealed under a context is opened under the same one. -/
theorem suite_opens (c : SuiteContext) (recordType : UInt8) (version : ℕ) {data : Bytes}
    (hlen : data.length ≤ 16384) : ∃ body,
    (suiteEncrypt C P c recordType version data).2.2 =
        [recordType] ++ putU16 version ++ putU16 body.length ++ body ∧
      0 < body.length ∧ body.length ≤ 16408 ∧ suiteCheckLength c body.length = true ∧
      (suiteDecrypt C P c recordType version body).1 =
        (suiteEncrypt C P c recordType version data).1 ∧
      ∃ off, (suiteDecrypt C P c recordType version body).2.2 = some (off, data.length) ∧
        ((suiteDecrypt C P c recordType version body).2.1.drop off).take data.length = data := by
  cases c with
  | gcm cc =>
    obtain ⟨body, hrecord, hbody, hctx, hplain, hdata⟩ := gcm_opens P cc recordType version data
    refine ⟨body, hrecord, by omega, by omega, ?_, congrArg _ hctx, 8, hplain, hdata⟩
    simp only [suiteCheckLength, gcmCheckLength, Bool.and_eq_true, decide_eq_true_eq]
    omega
  | chapol cc =>
    obtain ⟨body, hrecord, hbody, hctx, hplain, hdata⟩ := chapol_opens C cc recordType version data
    refine ⟨body, hrecord, by omega, by omega, ?_, congrArg _ hctx, 0, hplain, hdata⟩
    simp only [suiteCheckLength, chapolCheckLength, Bool.and_eq_true, decide_eq_true_eq]
    omega

end

end MacTLS
