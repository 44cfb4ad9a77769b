import MacTLS.Handshake.ClientHello
import MacTLS.Lib.Decoder

/-!
# The syntax of a ClientHello

A parser of the ClientHello as a server reads it: the record, the message in it, the fields, and
the extensions by their type.  Every vector is within its bounds and its content is taken to the
end at every level.

* `parseClientHello` : the value of a record that holds a ClientHello and nothing else;
* `takes_helloExtension` : an extension is its type, and its data by this type;
* `takes_clientHelloMessage`, `takes_clientHelloRecord` : a message with its extensions, whatever
  they are, and the record around it.
-/

namespace MacTLS

open Lib Lib.Decoder

/-! ### Values -/

/-- An extension of a ClientHello. -/
inductive HelloExtension where
  /-- Names, with their types. -/
  | serverName (names : List (ℕ × Bytes))
  | supportedGroups (groups : List ℕ)
  | signatureAlgorithms (schemes : List ℕ)
  | supportedVersions (versions : List ℕ)
  /-- Shares, with their groups. -/
  | keyShare (shares : List (ℕ × Bytes))
  | cookie (cookie : Bytes)
  | alpn (protocols : List Bytes)
  | pskKeyExchangeModes (modes : List ℕ)
  /-- Identities, with their obfuscated ages, and a binder for each. -/
  | preSharedKey (identities : List (Bytes × ℕ)) (binders : List Bytes)
  | other (type : ℕ) (data : Bytes)
  deriving DecidableEq

def HelloExtension.type : HelloExtension → ℕ
  | .serverName _ => tls13ExtServerName
  | .supportedGroups _ => tls13ExtSupportedGroups
  | .signatureAlgorithms _ => tls13ExtSignatureAlgorithms
  | .supportedVersions _ => tls13ExtSupportedVersions
  | .keyShare _ => tls13ExtKeyShare
  | .cookie _ => tls13ExtCookie
  | .alpn _ => tls13ExtAlpn
  | .pskKeyExchangeModes _ => tls13ExtPskKeyExchangeModes
  | .preSharedKey .. => tls13ExtPreSharedKey
  | .other type _ => type

/-- A ClientHello, with its extensions read as values of `α`. -/
structure ClientHello (α : Type) where
  version : ℕ
  random : Bytes
  sessionId : Bytes
  suites : List ℕ
  compression : Bytes
  extensions : List α
  deriving DecidableEq

/-! ### The parser -/

/-- A number of `n` bytes, and a vector. -/
def numbered (n lo hi : ℕ) : Decoder UInt8 (ℕ × Bytes) :=
  number n >>= fun k => vector 2 lo hi >>= fun b => pure (k, b)

/-- `identity<1..2^16-1>` and `obfuscated_ticket_age`. -/
def pskIdentity : Decoder UInt8 (Bytes × ℕ) :=
  vector 2 1 65535 >>= fun identity => number 4 >>= fun age => pure (identity, age)

/-- `identities<7..2^16-1>` and `binders<33..2^16-1>`, binders of 32 to 255 bytes. -/
def offeredPsks : Decoder UInt8 HelloExtension :=
  listOf 2 7 65535 pskIdentity >>= fun identities =>
    listOf 2 33 65535 (vector 1 32 255) >>= fun binders =>
      pure (.preSharedKey identities binders)

/-- The data of an extension, by its type. -/
def extensionData (type : ℕ) (data : Bytes) : Option HelloExtension :=
  if type = tls13ExtServerName then
    ((listOf 2 1 65535 (numbered 1 1 65535)).whole data).map .serverName
  else if type = tls13ExtSupportedGroups then
    ((listOf 2 2 65535 (number 2)).whole data).map .supportedGroups
  else if type = tls13ExtSignatureAlgorithms then
    ((listOf 2 2 65534 (number 2)).whole data).map .signatureAlgorithms
  else if type = tls13ExtSupportedVersions then
    ((listOf 1 2 254 (number 2)).whole data).map .supportedVersions
  else if type = tls13ExtKeyShare then
    ((listOf 2 0 65535 (numbered 2 1 65535)).whole data).map .keyShare
  else if type = tls13ExtCookie then ((vector 2 1 65535).whole data).map .cookie
  else if type = tls13ExtAlpn then
    ((listOf 2 2 65535 (vector 1 1 255)).whole data).map .alpn
  else if type = tls13ExtPskKeyExchangeModes then
    ((listOf 1 1 255 (number 1)).whole data).map .pskKeyExchangeModes
  else if type = tls13ExtPreSharedKey then offeredPsks.whole data
  else some (.other type data)

def helloExtension : Decoder UInt8 HelloExtension :=
  number 2 >>= fun type => vector 2 0 65535 >>= fun data => ofOption (extensionData type data)

/-- An extension whose data is left as it is. -/
def rawExtension : Decoder UInt8 (ℕ × Bytes) := numbered 2 0 65535

section

variable {α : Type} (ext : Decoder UInt8 α)

/-- `legacy_version`, `random`, `legacy_session_id<0..32>`, `cipher_suites<2..2^16-2>`,
`legacy_compression_methods<1..2^8-1>`, `extensions<8..2^16-1>`. -/
def clientHelloBody : Decoder UInt8 (ClientHello α) :=
  number 2 >>= fun version => take 32 >>= fun random => vector 1 0 32 >>= fun sessionId =>
    listOf 2 2 65534 (number 2) >>= fun suites => vector 1 1 255 >>= fun compression =>
      listOf 2 8 65535 ext >>= fun extensions =>
        pure ⟨version, random, sessionId, suites, compression, extensions⟩

/-- The handshake message: its type, and its body behind three bytes of length. -/
def clientHelloMsg : Decoder UInt8 (ClientHello α) :=
  number 1 >>= fun type => require (type = 1) >>= fun _ =>
    inside 3 0 16777215 (clientHelloBody ext)

/-- A handshake record of the version of TLS 1.0, with one ClientHello in it. -/
def clientHelloRec : Decoder UInt8 (ClientHello α) :=
  number 1 >>= fun type => require (type = 22) >>= fun _ =>
    number 2 >>= fun version => require (version = 0x0301) >>= fun _ =>
      inside 2 1 16384 (clientHelloMsg ext)

end

/-- The ClientHello that a record holds. -/
def parseClientHello (record : Bytes) : Option (ClientHello HelloExtension) :=
  (clientHelloRec helloExtension).whole record

/-- The ClientHello that a handshake message is, with the data of its extensions as it is. -/
def rawClientHello (msg : Bytes) : Option (ClientHello (ℕ × Bytes)) :=
  (clientHelloMsg rawExtension).whole msg

/-! ### Encodings of the parts -/

theorem bigEndian_byte {v : ℕ} (h : v < 256) : bigEndian [UInt8.ofNat v] = v := by
  simp only [bigEndian, List.foldl_cons, List.foldl_nil, UInt8.toNat_ofNat']
  omega

theorem bigEndian_putU16 {v : ℕ} (h : v < 65536) : bigEndian (putU16 v) = v := by
  simp only [bigEndian, putU16, List.foldl_cons, List.foldl_nil, UInt8.toNat_ofNat']
  omega

theorem bigEndian_putU24 {v : ℕ} (h : v < 16777216) : bigEndian (putU24 v) = v := by
  simp only [bigEndian, putU24, List.foldl_cons, List.foldl_nil, UInt8.toNat_ofNat']
  omega

theorem bigEndian_putU32 {v : ℕ} (h : v < 4294967296) : bigEndian (putU32 v) = v := by
  simp only [bigEndian, putU32, List.foldl_cons, List.foldl_nil, UInt8.toNat_ofNat']
  omega

theorem takes_u16 {v : ℕ} (h : v < 65536) : (number 2).Takes (putU16 v) v := by
  have := takes_number (length_putU16 v)
  rwa [bigEndian_putU16 h] at this

/-- A vector behind two bytes of length. -/
theorem takes_vector16 (lo hi : ℕ) {b : Bytes} (hlo : lo ≤ b.length) (hhi : b.length ≤ hi)
    (h : b.length < 65536) : (vector 2 lo hi).Takes (putU16 b.length ++ b) b :=
  takes_vector (length_putU16 _) (bigEndian_putU16 h) hlo hhi

theorem takes_numbered {n lo hi k : ℕ} {num b : Bytes} (hnum : (number n).Takes num k)
    (hlo : lo ≤ b.length) (hhi : b.length ≤ hi) (h : b.length < 65536) :
    (numbered n lo hi).Takes (num ++ (putU16 b.length ++ b)) (k, b) :=
  hnum.bind (takes_vector16 lo hi hlo hhi h).map

theorem takesAll_putU16s {vs : List ℕ} (h : ∀ v ∈ vs, v < 65536) :
    (number 2).TakesAll (putU16s vs) vs := by
  induction vs with
  | nil => exact .nil
  | cons v vs ih =>
    exact .cons (takes_u16 (h v List.mem_cons_self)) (List.cons_ne_nil _ _)
      (ih fun v hv => h v (List.mem_cons_of_mem _ hv))

theorem length_putU16s (vs : List ℕ) : (putU16s vs).length = vs.length * 2 := by
  induction vs with
  | nil => rfl
  | cons v vs ih =>
    have hcons : putU16s (v :: vs) = putU16 v ++ putU16s vs := rfl
    rw [hcons, List.length_append, ih, length_putU16, List.length_cons]
    omega

/-- A list of numbers behind two bytes of length. -/
theorem takes_putU16s {vs : List ℕ} {hi : ℕ} (h : ∀ v ∈ vs, v < 65536) (hlo : vs ≠ [])
    (hhi : vs.length * 2 ≤ hi) (hmax : vs.length * 2 < 65536) :
    (listOf 2 2 hi (number 2)).Takes (putU16 (vs.length * 2) ++ putU16s vs) vs := by
  have hpos := List.length_pos_iff.2 hlo
  have hlen := length_putU16s vs
  exact takes_listOf 2 2 hi (takesAll_putU16s h) (length_putU16 _)
    ((bigEndian_putU16 hmax).trans hlen.symm) (by omega) (by omega)

/-- An extension is its type, the length of its data, and its data. -/
theorem takes_helloExtension {type : ℕ} {data : Bytes} {e : HelloExtension}
    (htype : type < 65536) (hlen : data.length < 65536) (h : extensionData type data = some e) :
    helloExtension.Takes (extension type data) e := by
  rw [extension, List.append_assoc]
  refine (takes_u16 htype).bind ?_
  have := (takes_vector16 0 65535 (Nat.zero_le _) (by omega) hlen).bind
    (f := fun data => ofOption (extensionData type data)) (takes_ofOption h)
  rwa [List.append_nil] at this

theorem length_extension (type : ℕ) (data : Bytes) :
    (extension type data).length = 4 + data.length := by
  simp [extension]
  omega

theorem extension_ne_nil (type : ℕ) (data : Bytes) : extension type data ≠ [] :=
  List.cons_ne_nil _ _

theorem takes_rawExtension {type : ℕ} {data : Bytes} (htype : type < 65536)
    (hlen : data.length < 65536) : rawExtension.Takes (extension type data) (type, data) := by
  rw [extension, List.append_assoc]
  exact takes_numbered (takes_u16 htype) (Nat.zero_le _) (by omega) hlen

/-- Extensions, one after the other. -/
def encodeExtensions (es : List (ℕ × Bytes)) : Bytes := es.flatMap fun e => extension e.1 e.2

theorem encodeExtensions_cons (e : ℕ × Bytes) (es : List (ℕ × Bytes)) :
    encodeExtensions (e :: es) = extension e.1 e.2 ++ encodeExtensions es := rfl

theorem takesAll_encodeExtensions {es : List (ℕ × Bytes)} (htype : ∀ e ∈ es, e.1 < 65536)
    (hlen : (encodeExtensions es).length < 65536) :
    rawExtension.TakesAll (encodeExtensions es) es := by
  induction es with
  | nil => exact .nil
  | cons e es ih =>
    rw [encodeExtensions_cons, List.length_append, length_extension] at hlen
    rw [encodeExtensions_cons]
    exact .cons (takes_rawExtension (htype e List.mem_cons_self) (by omega))
      (extension_ne_nil _ _) (ih (fun e he => htype e (List.mem_cons_of_mem _ he)) (by omega))

/-! ### The message and the record -/

section

variable {α : Type} {ext : Decoder UInt8 α}

/-- A message with its extensions. -/
theorem takes_clientHelloMessage {hs : HsCtx} {exts : Bytes} {as : List α}
    (hrandom : hs.chRandom.length = 32) (hsession : hs.chSessionId.length = 32)
    (hexts : ext.TakesAll exts as) (hlo : 8 ≤ exts.length) (hhi : exts.length < 65536) :
    (clientHelloMsg ext).Takes (clientHelloMessage hs exts)
      ⟨tls12Version, hs.chRandom, hs.chSessionId, tls13CipherSuites ++ tls12CipherSuites, [0],
        as⟩ := by
  have hsuites : (listOf 2 2 65534 (number 2)).Takes _ (tls13CipherSuites ++ tls12CipherSuites) :=
    takes_putU16s (by decide) (by decide) (by decide) (by decide)
  have hbody : (clientHelloBody ext).Takes (clientHelloFields hs ++ putU16 exts.length ++ exts)
      ⟨tls12Version, hs.chRandom, hs.chSessionId, tls13CipherSuites ++ tls12CipherSuites, [0],
        as⟩ := by
    have hrandom' := takes_take hs.chRandom
    rw [hrandom] at hrandom'
    have hsession' : (vector 1 0 32).Takes ([32] ++ hs.chSessionId) hs.chSessionId :=
      takes_vector rfl hsession.symm (Nat.zero_le _) (Nat.le_of_eq hsession)
    have hcompression : (vector 1 1 255).Takes ([1] ++ [0]) [0] :=
      takes_vector rfl rfl (by decide) (by decide)
    have hall := takes_listOf 2 8 65535 hexts (length_putU16 exts.length)
      (bigEndian_putU16 (by omega)) hlo (by omega)
    have hsplit : clientHelloFields hs ++ putU16 exts.length ++ exts = putU16 tls12Version ++
        (hs.chRandom ++ (([32] ++ hs.chSessionId) ++ ((putU16 ((tls13CipherSuites ++
          tls12CipherSuites).length * 2) ++ putU16s (tls13CipherSuites ++ tls12CipherSuites)) ++
            (([1] ++ [0]) ++ (putU16 exts.length ++ exts))))) := by
      simp only [clientHelloFields, List.append_assoc, List.cons_append, List.nil_append]
    rw [hsplit]
    refine (takes_u16 (by decide)).bind (hrandom'.bind (hsession'.bind (hsuites.bind
      (hcompression.bind ?_))))
    exact hall.map
  have hlen : (clientHelloFields hs ++ putU16 exts.length ++ exts).length < 16777216 := by
    simp [clientHelloFields, hrandom, hsession, length_putU16s, tls13CipherSuites,
      tls12CipherSuites]
    omega
  have hinside := takes_inside 3 0 16777215 hbody (length_putU24 _)
    (bigEndian_putU24 hlen) (Nat.zero_le _) (by omega)
  have htype : (number 1).Takes [tls13HtClientHello] 1 := takes_number rfl
  exact htype.bind ((takes_require rfl).bind_nil hinside)

/-- The record around a message. -/
theorem takes_clientHelloRecord {msg : Bytes} {hello : ClientHello α}
    (h : (clientHelloMsg ext).Takes msg hello) (hlo : 1 ≤ msg.length) (hhi : msg.length ≤ 16384) :
    (clientHelloRec ext).Takes (clientHelloRecord msg) hello := by
  have hinside := takes_inside 2 1 16384 h (length_putU16 _)
    (bigEndian_putU16 (by omega)) hlo hhi
  have htype : (number 1).Takes [tls13CtHandshake] 22 := takes_number rfl
  have hversion : (number 2).Takes [0x03, 0x01] 0x0301 := takes_number rfl
  exact htype.bind ((takes_require rfl).bind_nil
    (hversion.bind ((takes_require rfl).bind_nil hinside)))

end

end MacTLS
