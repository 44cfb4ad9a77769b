import MacTLS.Crypto
import MacTLS.Lib.Hkdf

/-!
# The TLS 1.3 key schedule

The functions of `ostls_tls13_keysched.c`.  The code keeps one running secret in a 64-byte
buffer and overwrites it stage by stage; the results of a derivation are the bytes it stores.
`Crypto.schedule` is the key schedule of `MacTLS.Lib.Hkdf` for a hash class, and the lemmas here
say that each function computes the value of that schedule:

* `hkdfExpandLabel_eq` : the single-block HKDF-Expand-Label of the code is the iterated one;
* `Keysched.Holds` : the running secret is a given value of the schedule; every stage takes one
  such fact to the next (`holds_extractHandshake`, `holds_extractMaster`, …).
-/

namespace MacTLS

open Lib Lib.Hkdf

/-- The abstract key schedule of a hash class. -/
def Crypto.schedule (C : Crypto) (h : HashClass) : Schedule where
  hash := C.hash h
  hmac := C.hmac h
  hashLen := h.size
  hashLen_pos := by cases h <;> decide
  hash_length := C.hash_length h
  hmac_length := C.hmac_length h

/-- The running key schedule. -/
structure Keysched where
  hash : HashClass
  hashLen : ℕ
  /-- The running secret; a 64-byte buffer, of which the first `hashLen` bytes are in use. -/
  secret : Bytes
  /-- Precomputed hash of the empty string. -/
  emptyHash : Bytes
  deriving DecidableEq

/-- The keys of one traffic stage, as the derivations store them. -/
structure TrafficKeys where
  clientKey : Bytes
  clientIv : Bytes
  serverKey : Bytes
  serverIv : Bytes
  clientSecret : Bytes
  serverSecret : Bytes

variable (C : Crypto)

/-- HKDF-Expand-Label.  The code only ever needs one HMAC block: it writes the whole digest into
a scratch buffer and copies `outLen` bytes of it out. -/
def hkdfExpandLabel (h : HashClass) (secret label context : Bytes) (outLen : ℕ) : Bytes :=
  let tlsLabelLen := 6 + label.length
  let info := [UInt8.ofNat (outLen / 256), UInt8.ofNat outLen] ++ [UInt8.ofNat tlsLabelLen] ++
    ascii "tls13 " ++ label ++ [UInt8.ofNat context.length] ++ context
  (C.hmac h secret (info ++ [0x01])).take outLen

/-- Derive-Secret; the caller passes the transcript hash. -/
def deriveSecret (ks : Keysched) (secret label transcriptHash : Bytes) : Bytes :=
  hkdfExpandLabel C ks.hash (secret.take ks.hashLen) label (transcriptHash.take ks.hashLen)
    ks.hashLen

/-- HKDF-Extract, stored over the front of the running secret. -/
def hkdfExtract (ks : Keysched) (salt ikm : Bytes) : Keysched :=
  { ks with secret := blit ks.secret 0 (C.hmac ks.hash salt ikm) }

def tls13KsInit (h : HashClass) : Keysched :=
  { hash := h
    hashLen := if h = .sha256 then 32 else 48
    secret := List.replicate 64 0
    emptyHash := C.hash h [] }

/-- Early Secret without a PSK: salt and input are zeros. -/
def tls13KsExtractEarly (ks : Keysched) : Keysched :=
  let zeros := List.replicate ks.hashLen 0
  hkdfExtract C ks zeros zeros

/-- Early Secret from a resumption PSK. -/
def tls13KsExtractEarlyPsk (ks : Keysched) (psk : Bytes) : Keysched :=
  hkdfExtract C ks (List.replicate ks.hashLen 0) psk

/-- Handshake Secret from the ECDHE shared secret. -/
def tls13KsExtractHandshake (ks : Keysched) (sharedSecret : Bytes) : Keysched :=
  let derived := deriveSecret C ks ks.secret (ascii "derived") ks.emptyHash
  hkdfExtract C ks derived sharedSecret

/-- Master Secret. -/
def tls13KsExtractMaster (ks : Keysched) : Keysched :=
  let derived := deriveSecret C ks ks.secret (ascii "derived") ks.emptyHash
  hkdfExtract C ks derived (List.replicate ks.hashLen 0)

/-- Client and server secrets with the two labels, and a key and an IV from each. -/
def deriveKeys (ks : Keysched) (clientLabel serverLabel transcriptHash : Bytes) (keyLen : ℕ) :
    TrafficKeys :=
  let clientSecret := deriveSecret C ks ks.secret clientLabel transcriptHash
  let serverSecret := deriveSecret C ks ks.secret serverLabel transcriptHash
  { clientKey := hkdfExpandLabel C ks.hash clientSecret (ascii "key") [] keyLen
    clientIv := hkdfExpandLabel C ks.hash clientSecret (ascii "iv") [] 12
    serverKey := hkdfExpandLabel C ks.hash serverSecret (ascii "key") [] keyLen
    serverIv := hkdfExpandLabel C ks.hash serverSecret (ascii "iv") [] 12
    clientSecret, serverSecret }

/-- Handshake traffic keys, with the raw secrets kept for the Finished keys. -/
def tls13KsDeriveHandshakeKeys (ks : Keysched) (transcriptHash : Bytes) (keyLen : ℕ) :
    TrafficKeys :=
  deriveKeys C ks (ascii "c hs traffic") (ascii "s hs traffic") transcriptHash keyLen

/-- Application traffic keys. -/
def tls13KsDeriveAppKeys (ks : Keysched) (transcriptHash : Bytes) (keyLen : ℕ) : TrafficKeys :=
  deriveKeys C ks (ascii "c ap traffic") (ascii "s ap traffic") transcriptHash keyLen

/-- Finished key of a base key, of which `hashLen` bytes are read. -/
def tls13KsDeriveFinishedKey (ks : Keysched) (baseKey : Bytes) : Bytes :=
  hkdfExpandLabel C ks.hash (baseKey.take ks.hashLen) (ascii "finished") [] ks.hashLen

/-- Resumption master secret; the running secret must still be the Master Secret. -/
def tls13KsDeriveResumptionMaster (ks : Keysched) (transcriptHash : Bytes) : Bytes :=
  deriveSecret C ks ks.secret (ascii "res master") transcriptHash

/-- Resumption PSK of one ticket. -/
def tls13KsDeriveResumptionPsk (ks : Keysched) (resMaster ticketNonce : Bytes) : Bytes :=
  hkdfExpandLabel C ks.hash (resMaster.take ks.hashLen) (ascii "resumption") ticketNonce
    ks.hashLen

/-- Binder key; the running secret must be the Early Secret. -/
def tls13KsDeriveBinderKey (ks : Keysched) : Bytes :=
  deriveSecret C ks ks.secret (ascii "res binder") ks.emptyHash

/-! ### Agreement with the abstract schedule -/

variable {C}

theorem hashLen_schedule (h : HashClass) : (C.schedule h).hashLen = h.size := rfl

theorem hkdfExpandLabel_eq {h : HashClass} {label : String} {secret context : Bytes} {n : ℕ}
    (hn : n ≤ h.size) :
    hkdfExpandLabel C h secret (ascii label) context n =
      (C.schedule h).expandLabel secret label context n := by
  rw [Schedule.expandLabel, Schedule.expand_of_le _ hn]
  rfl

/-- The running secret of `ks` is `s`, and its other fields are those of its hash. -/
structure Keysched.Holds (C : Crypto) (ks : Keysched) (h : HashClass) (s : Bytes) : Prop where
  hash : ks.hash = h
  hashLen : ks.hashLen = h.size
  emptyHash : ks.emptyHash = C.hash h []
  size : h.size ≤ ks.secret.length
  secret : ks.secret.take h.size = s

theorem tls13KsInit_hashLen (h : HashClass) : (tls13KsInit C h).hashLen = h.size := by
  cases h <;> rfl

theorem length_of_holds {ks : Keysched} {h : HashClass} {s : Bytes} (H : ks.Holds C h s) :
    s.length = h.size := by
  rw [← H.secret, List.length_take, Nat.min_eq_left H.size]

theorem holds_hkdfExtract {ks : Keysched} {h : HashClass} {s : Bytes} (H : ks.Holds C h s)
    (salt ikm : Bytes) :
    (hkdfExtract C ks salt ikm).Holds C h ((C.schedule h).extract salt ikm) where
  hash := H.hash
  hashLen := H.hashLen
  emptyHash := H.emptyHash
  size := by
    rw [hkdfExtract, length_blit]
    · exact H.size
    · rw [C.hmac_length, H.hash, Nat.zero_add]; exact H.size
  secret := by
    have := take_blit_zero ks.secret (C.hmac ks.hash salt ikm)
    rw [C.hmac_length, H.hash] at this
    rw [hkdfExtract, H.hash, this]
    rfl

theorem holds_tls13KsInit (h : HashClass) :
    (tls13KsInit C h).Holds C h (List.replicate h.size 0) where
  hash := rfl
  hashLen := tls13KsInit_hashLen h
  emptyHash := rfl
  size := by cases h <;> simp [tls13KsInit, HashClass.size]
  secret := by cases h <;> simp [tls13KsInit, HashClass.size]

section

variable {ks : Keysched} {h : HashClass} {s : Bytes} (H : ks.Holds C h s)
include H

theorem deriveSecret_eq {label : String} {th : Bytes} (hth : th.length = h.size) :
    deriveSecret C ks ks.secret (ascii label) th = (C.schedule h).deriveSecret s label th := by
  rw [deriveSecret, H.hash, H.hashLen, H.secret, List.take_of_length_le (Nat.le_of_eq hth),
    hkdfExpandLabel_eq (Nat.le_refl _)]
  rfl

theorem holds_extractEarly :
    (tls13KsExtractEarly C ks).Holds C h ((C.schedule h).earlySecret none) := by
  have := holds_hkdfExtract H (List.replicate h.size 0) (List.replicate h.size 0)
  rw [tls13KsExtractEarly, H.hashLen]
  exact this

theorem holds_extractEarlyPsk (psk : Bytes) :
    (tls13KsExtractEarlyPsk C ks psk).Holds C h ((C.schedule h).earlySecret (some psk)) := by
  have := holds_hkdfExtract H (List.replicate h.size 0) psk
  rw [tls13KsExtractEarlyPsk, H.hashLen]
  exact this

theorem holds_extractHandshake (dhe : Bytes) :
    (tls13KsExtractHandshake C ks dhe).Holds C h ((C.schedule h).extract
      ((C.schedule h).deriveSecret s "derived" (C.hash h [])) dhe) := by
  rw [tls13KsExtractHandshake, H.emptyHash, deriveSecret_eq H (C.hash_length h [])]
  exact holds_hkdfExtract H _ _

theorem holds_extractMaster :
    (tls13KsExtractMaster C ks).Holds C h ((C.schedule h).extract
      ((C.schedule h).deriveSecret s "derived" (C.hash h [])) (C.schedule h).zeros) := by
  rw [tls13KsExtractMaster, H.emptyHash, deriveSecret_eq H (C.hash_length h []), H.hashLen]
  exact holds_hkdfExtract H _ _

/-- The traffic keys of the running secret are those of the schedule. -/
theorem deriveKeys_eq {a b : String} {th : Bytes} (hth : th.length = h.size) {keyLen : ℕ}
    (hk : keyLen ≤ h.size) :
    deriveKeys C ks (ascii a) (ascii b) th keyLen =
      let S := C.schedule h
      let c := S.deriveSecret s a th
      let v := S.deriveSecret s b th
      { clientKey := S.trafficKey c keyLen, clientIv := S.trafficIv c
        serverKey := S.trafficKey v keyLen, serverIv := S.trafficIv v
        clientSecret := c, serverSecret := v } := by
  have h12 : 12 ≤ h.size := by cases h <;> decide
  simp only [deriveKeys, deriveSecret_eq H hth, H.hash, hkdfExpandLabel_eq hk,
    hkdfExpandLabel_eq h12]
  rfl

theorem tls13KsDeriveFinishedKey_eq (baseKey : Bytes) :
    tls13KsDeriveFinishedKey C ks baseKey =
      (C.schedule h).finishedKey (baseKey.take h.size) := by
  rw [tls13KsDeriveFinishedKey, H.hash, H.hashLen, hkdfExpandLabel_eq (Nat.le_refl _)]
  rfl

theorem tls13KsDeriveResumptionMaster_eq {t : Bytes} (ht : t.length = h.size) :
    tls13KsDeriveResumptionMaster C ks t =
      (C.schedule h).deriveSecret s "res master" t :=
  deriveSecret_eq H ht

end

end MacTLS
