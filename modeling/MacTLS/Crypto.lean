import MacTLS.Wire

/-!
# The primitives taken from BearSSL

The handshake and the record layer call BearSSL for their primitives only.  `Crypto` is that
interface: hash and HMAC as functions of the bytes fed to them, the two AEAD constructions as
one in-place run that also yields the computed tag, point multiplication, the X.509 validator
and the two signature verifications.  Its laws are the documented behaviour the code relies on:
output lengths, and that running an AEAD forward and then backward under one key, nonce and AAD
gives the data and the tag back.
-/

namespace MacTLS

/-- The hash functions in use (`br_sha256_vtable`, `br_sha384_vtable`). -/
inductive HashClass where
  | sha256
  | sha384
  deriving DecidableEq, Repr

/-- Output length of a hash function. -/
def HashClass.size : HashClass → ℕ
  | .sha256 => 32
  | .sha384 => 48

/-- The two AEAD constructions of the record layer. -/
inductive Aead where
  | chacha20Poly1305
  | aesGcm
  deriving DecidableEq, Repr

/-- A public key as the validator returns it (`br_x509_pkey`). -/
inductive PKey where
  /-- An RSA key: modulus and exponent. -/
  | rsa (n e : Bytes)
  /-- An elliptic-curve key: curve and point. -/
  | ec (curve : ℕ) (q : Bytes)
  deriving DecidableEq, Repr

/-- The BearSSL primitives, with the laws the code relies on. -/
structure Crypto where
  /-- Hash of the bytes fed to a context. -/
  hash : HashClass → Bytes → Bytes
  hash_length : ∀ h m, (hash h m).length = h.size
  /-- HMAC under a key. -/
  hmac : HashClass → Bytes → Bytes → Bytes
  hmac_length : ∀ h k m, (hmac h k m).length = h.size
  /-- `aeadRun a encrypt key nonce aad data` is the data after the in-place run, and the tag. -/
  aeadRun : Aead → Bool → Bytes → Bytes → Bytes → Bytes → Bytes × Bytes
  aeadRun_length : ∀ a b k n aad d, (aeadRun a b k n aad d).1.length = d.length
  aeadRun_tag_length : ∀ a b k n aad d, (aeadRun a b k n aad d).2.length = 16
  /-- Opening undoes sealing, and computes the tag that sealing computed. -/
  aeadRun_open : ∀ a k n aad d,
    aeadRun a false k n aad (aeadRun a true k n aad d).1 = (d, (aeadRun a true k n aad d).2)
  /-- `ecMul curve point scalar`: the multiplied point, in place, or failure. -/
  ecMul : ℕ → Bytes → Bytes → Option Bytes
  ecMul_length : ∀ c p s q, ecMul c p s = some q → q.length = p.length
  /-- The X.509 validator: the verdict of `end_chain` on the certificates fed to it under a host
  name (zero is success), and the key `get_pkey` yields. -/
  validate : Bytes → List Bytes → ℕ × Option PKey
  /-- RSA-PSS verification of a hash under an RSA key. -/
  rsaPssVrfy : HashClass → Bytes → Bytes → Bytes → Bytes → Bool
  /-- ECDSA verification of a hash under a key on a curve. -/
  ecdsaVrfy : Bytes → ℕ → Bytes → Bytes → Bool

/-- `m` cut or filled with zeros to exactly `n` bytes. -/
def fitTo (n : ℕ) (m : Bytes) : Bytes := (m ++ List.replicate n 0).take n

@[simp] theorem length_fitTo (n : ℕ) (m : Bytes) : (fitTo n m).length = n := by simp [fitTo]

/-- A transparent stand-in for BearSSL that keeps every law: nothing is hidden and nothing is
unforgeable, but it runs.  Hashes and tags keep a prefix of their input, the ciphers are the
identity, a shared point is the peer's point, and the validator accepts exactly the chains whose
leaf is the host name itself, which is then also the key. -/
def Crypto.transparent : Crypto where
  hash h m := fitTo h.size m
  hash_length h m := length_fitTo h.size m
  hmac h k m := fitTo h.size (k.take 4 ++ m)
  hmac_length h k m := length_fitTo h.size _
  aeadRun _ _ k n aad d := (d, fitTo 16 (k.take 2 ++ n.drop 11 ++ aad.drop 3 ++ d))
  aeadRun_length _ _ _ _ _ _ := rfl
  aeadRun_tag_length _ _ _ _ _ _ := length_fitTo 16 _
  aeadRun_open _ _ _ _ _ := rfl
  ecMul _ point _ := some point
  ecMul_length := by rintro c p s q h; cases h; rfl
  validate host certs := if certs.head? = some host then (0, some (.ec 23 host)) else (62, none)
  rsaPssVrfy _ hash _ _ sig := hash == sig
  ecdsaVrfy hash _ _ sig := hash == sig

end MacTLS
