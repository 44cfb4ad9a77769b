import Mathlib.Data.List.Basic
import Mathlib.Data.List.TakeDrop

/-!
# HKDF and the TLS 1.3 key schedule

HKDF over an arbitrary keyed function `hmac` with outputs of `hashLen` bytes, and on top of it
the key schedule of TLS 1.3 as the mathematical function it is: every secret is a value, computed
from the inputs of the connection, with no state in between.

* `expand` is the full iterated HKDF-Expand; `expand_of_le` says that one block is enough when no
  more than `hashLen` bytes are asked for;
* `hkdfLabel`, `expandLabel`, `deriveSecret` are the labelled forms;
* `Schedule` holds the hash, the keyed function and their output length, and
  `Schedule.earlySecret`, `.handshakeSecret`, `.masterSecret` chain the three stages.
-/

namespace Lib.Hkdf

/-- Byte strings. -/
abbrev Octets := List UInt8

/-- The bytes of an ASCII string. -/
def ascii (s : String) : Octets := s.toList.map fun c => UInt8.ofNat c.toNat

/-- A hash function and an HMAC with outputs of the same fixed length, at least one byte. -/
structure Schedule where
  hash : Octets → Octets
  /-- `hmac key message`. -/
  hmac : Octets → Octets → Octets
  hashLen : ℕ
  hashLen_pos : 0 < hashLen
  hash_length : ∀ m, (hash m).length = hashLen
  hmac_length : ∀ k m, (hmac k m).length = hashLen

namespace Schedule

variable (S : Schedule)

/-- HKDF-Extract. -/
def extract (salt ikm : Octets) : Octets := S.hmac salt ikm

/-- The `i`-th output block of HKDF-Expand; block `0` is empty. -/
def block (prk info : Octets) : ℕ → Octets
  | 0 => []
  | i + 1 => S.hmac prk (block prk info i ++ info ++ [UInt8.ofNat (i + 1)])

/-- HKDF-Expand: as many blocks as `len` bytes need, cut to `len`. -/
def expand (prk info : Octets) (len : ℕ) : Octets :=
  ((List.range ((len + S.hashLen - 1) / S.hashLen)).flatMap fun i =>
    S.block prk info (i + 1)).take len

/-- Up to `hashLen` bytes come from the first block alone. -/
theorem expand_of_le {prk info : Octets} {len : ℕ} (h : len ≤ S.hashLen) :
    S.expand prk info len = (S.hmac prk (info ++ [1])).take len := by
  have hpos := S.hashLen_pos
  rcases Nat.eq_zero_or_pos len with rfl | hlen
  · simp [expand]
  · have hn : (len + S.hashLen - 1) / S.hashLen = 1 :=
      Nat.div_eq_of_lt_le (by omega) (by omega)
    simp [expand, hn, block]

/-- The `HkdfLabel` structure: output length, `"tls13 "` and the label, and the context. -/
def hkdfLabel (label context : Octets) (len : ℕ) : Octets :=
  [UInt8.ofNat (len / 256), UInt8.ofNat len] ++
    [UInt8.ofNat (6 + label.length)] ++ ascii "tls13 " ++ label ++
    [UInt8.ofNat context.length] ++ context

/-- HKDF-Expand-Label. -/
def expandLabel (secret : Octets) (label : String) (context : Octets) (len : ℕ) : Octets :=
  S.expand secret (hkdfLabel (ascii label) context len) len

/-- Derive-Secret, given the transcript hash of the messages. -/
def deriveSecret (secret : Octets) (label : String) (transcriptHash : Octets) : Octets :=
  S.expandLabel secret label transcriptHash S.hashLen

/-- `hashLen` zero bytes: the salt of the first stage, and the input where there is no secret. -/
def zeros : Octets := List.replicate S.hashLen 0

/-- The first stage; without a pre-shared key its input is zeros. -/
def earlySecret (psk : Option Octets) : Octets := S.extract S.zeros (psk.getD S.zeros)

/-- The second stage, from the (EC)DHE shared secret. -/
def handshakeSecret (psk : Option Octets) (dhe : Octets) : Octets :=
  S.extract (S.deriveSecret (S.earlySecret psk) "derived" (S.hash [])) dhe

/-- The third stage. -/
def masterSecret (psk : Option Octets) (dhe : Octets) : Octets :=
  S.extract (S.deriveSecret (S.handshakeSecret psk dhe) "derived" (S.hash [])) S.zeros

section

variable (psk : Option Octets) (dhe transcriptHash : Octets)

/-- The handshake traffic secrets, over the transcript through ServerHello. -/
def clientHandshake : Octets :=
  S.deriveSecret (S.handshakeSecret psk dhe) "c hs traffic" transcriptHash

def serverHandshake : Octets :=
  S.deriveSecret (S.handshakeSecret psk dhe) "s hs traffic" transcriptHash

/-- The application traffic secrets, over the transcript through the server Finished. -/
def clientApplication : Octets :=
  S.deriveSecret (S.masterSecret psk dhe) "c ap traffic" transcriptHash

def serverApplication : Octets :=
  S.deriveSecret (S.masterSecret psk dhe) "s ap traffic" transcriptHash

/-- The resumption master secret, over the transcript through the client Finished. -/
def resumptionMaster : Octets :=
  S.deriveSecret (S.masterSecret psk dhe) "res master" transcriptHash

end

/-- The write key of a traffic secret. -/
def trafficKey (secret : Octets) (keyLen : ℕ) : Octets := S.expandLabel secret "key" [] keyLen

/-- The write IV of a traffic secret. -/
def trafficIv (secret : Octets) : Octets := S.expandLabel secret "iv" [] 12

/-- The finished key of a base key. -/
def finishedKey (baseKey : Octets) : Octets := S.expandLabel baseKey "finished" [] S.hashLen

/-- The verify data of a Finished message. -/
def verifyData (baseKey transcriptHash : Octets) : Octets :=
  S.hmac (S.finishedKey baseKey) transcriptHash

@[simp] theorem length_expand {prk info : Octets} {len : ℕ} (h : len ≤ S.hashLen) :
    (S.expand prk info len).length = len := by
  rw [S.expand_of_le h]
  simp [S.hmac_length, h]

@[simp] theorem length_extract (salt ikm : Octets) : (S.extract salt ikm).length = S.hashLen :=
  S.hmac_length _ _

theorem length_expandLabel {secret context : Octets} {label : String} {len : ℕ}
    (h : len ≤ S.hashLen) : (S.expandLabel secret label context len).length = len :=
  S.length_expand h

@[simp] theorem length_deriveSecret (secret th : Octets) (label : String) :
    (S.deriveSecret secret label th).length = S.hashLen :=
  S.length_expandLabel (Nat.le_refl _)

@[simp] theorem length_finishedKey (baseKey : Octets) :
    (S.finishedKey baseKey).length = S.hashLen :=
  S.length_expandLabel (Nat.le_refl _)

@[simp] theorem length_zeros : S.zeros.length = S.hashLen := List.length_replicate

end Schedule

end Lib.Hkdf
