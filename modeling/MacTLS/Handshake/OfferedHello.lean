import MacTLS.Handshake.HelloSyntax
import MacTLS.KeySched.Basic

/-!
# What a ClientHello says

The record that is built is read back with the parser of the syntax: it says what the context says,
field by field and extension by extension.

* `takesAll_offeredExtensions` : the extensions of a context, on both ways out of the builder;
* `tls13BuildClientHello_parses` : the builder succeeds, and its record parses to `offeredHello`;
* `offeredHello_wellFormed` : no extension comes twice, and an offered ticket comes last.
-/

namespace MacTLS

open Lib Lib.Decoder Lib.Hkdf

/-! ### The values -/

/-- The extensions before pre_shared_key, as values. -/
def commonExtensions (hs : HsCtx) (hostname : Bytes) : List HelloExtension :=
  [.serverName [(0, hostname)],
    .supportedGroups [tls13GroupX25519, tls13GroupSecp256r1, tls13GroupSecp384r1],
    .signatureAlgorithms sigAlgorithms,
    .supportedVersions [tls13Version, tls12Version],
    .keyShare [(hs.ecdheGroup, hs.ecdhePublic)]] ++
    (if hs.cookie.length > 0 then [.cookie hs.cookie] else []) ++
    [.alpn [ascii "http/1.1"], .pskKeyExchangeModes [1]]

/-- The binder of a ticket in the ClientHello of a context. -/
def pskBinder (C : Crypto) (hs : HsCtx) (hostname : Bytes) (tk : SessionTicket) : Bytes :=
  let placeholder := clientHelloMessage hs (clientHelloExtensions hs hostname ++
    (pskIdentities tk hs.offerObfuscatedAge ++ pskBinders (List.replicate tk.psk.length 0)))
  tls13ComputeBinder C (tls13KsInit C (if tk.psk.length = 48 then .sha384 else .sha256)) tk.psk
    hs.transcript (placeholder.take (placeholder.length - (2 + (1 + tk.psk.length))))

/-- The bytes of the extension for a ticket on offer. -/
def pskBytes (C : Crypto) (hs : HsCtx) (hostname : Bytes) : Bytes :=
  match hs.offeredTicket with
  | none => []
  | some tk =>
    pskIdentities tk hs.offerObfuscatedAge ++ pskBinders (pskBinder C hs hostname tk)

/-- The extension for a ticket on offer. -/
def pskExtensions (C : Crypto) (hs : HsCtx) (hostname : Bytes) : List HelloExtension :=
  match hs.offeredTicket with
  | none => []
  | some tk => [.preSharedKey [(tk.ticket, hs.offerObfuscatedAge)] [pskBinder C hs hostname tk]]

/-- What the ClientHello of a context says. -/
def offeredHello (C : Crypto) (hs : HsCtx) (hostname : Bytes) : ClientHello HelloExtension where
  version := tls12Version
  random := hs.chRandom
  sessionId := hs.chSessionId
  suites := tls13CipherSuites ++ tls12CipherSuites
  compression := [0]
  extensions := commonExtensions hs hostname ++ pskExtensions C hs hostname

/-- What the fields of a context hold by their types, and by how they are set: a generated key
share, a cookie that fit its buffer, a parsed ticket with the PSK of a SHA-256 schedule. -/
structure HelloContext (hs : HsCtx) : Prop where
  random : hs.chFieldsValid = true → hs.chRandom.length = 32 ∧ hs.chSessionId.length = 32
  group : hs.ecdheGroup < 65536
  share : 1 ≤ hs.ecdhePublic.length ∧ hs.ecdhePublic.length ≤ publicSize
  cookie : hs.cookie.length ≤ cookieSize
  ticket : ∀ tk ∈ hs.offerTicket, 1 ≤ tk.ticket.length ∧ tk.ticket.length ≤ 512 ∧
    tk.psk.length = 32
  age : hs.offerObfuscatedAge < 4294967296

/-! ### The extensions -/

section

variable {hs : HsCtx} {hostname : Bytes}

theorem takes_serverName (hlo : 1 ≤ hostname.length) (hhi : hostname.length ≤ 255) :
    helloExtension.Takes (extension tls13ExtServerName
      (putU16 (3 + hostname.length) ++ [0] ++ putU16 hostname.length ++ hostname))
      (.serverName [(0, hostname)]) := by
  have hname : (numbered 1 1 65535).Takes ([0] ++ (putU16 hostname.length ++ hostname))
      (0, hostname) :=
    takes_numbered (takes_number (show ([0] : Bytes).length = 1 from rfl)) hlo (by omega) (by omega)
  have hlen : ([0] ++ (putU16 hostname.length ++ hostname)).length = 3 + hostname.length := by
    simp
    omega
  have hnames := takes_listOf 2 1 65535 (.single hname (List.cons_ne_nil _ _))
    (length_putU16 _) ((bigEndian_putU16 (by omega)).trans hlen.symm) (by omega) (by omega)
  refine takes_helloExtension (by decide) (by simp; omega) ?_
  simp only [List.append_assoc] at hnames ⊢
  exact congrArg (Option.map _) hnames.whole

theorem takes_keyShare (hctx : HelloContext hs) :
    helloExtension.Takes (extension tls13ExtKeyShare
      (putU16 (4 + hs.ecdhePublic.length) ++ putU16 hs.ecdheGroup ++
        putU16 hs.ecdhePublic.length ++ hs.ecdhePublic))
      (.keyShare [(hs.ecdheGroup, hs.ecdhePublic)]) := by
  obtain ⟨hlo, hhi⟩ := hctx.share
  rw [publicSize] at hhi
  have hshare : (numbered 2 1 65535).Takes
      (putU16 hs.ecdheGroup ++ (putU16 hs.ecdhePublic.length ++ hs.ecdhePublic))
      (hs.ecdheGroup, hs.ecdhePublic) :=
    takes_numbered (takes_u16 hctx.group) hlo (by omega) (by omega)
  have hlen : (putU16 hs.ecdheGroup ++ (putU16 hs.ecdhePublic.length ++ hs.ecdhePublic)).length =
      4 + hs.ecdhePublic.length := by
    simp
    omega
  have hshares := takes_listOf 2 0 65535
    (.single hshare (List.cons_ne_nil _ _)) (length_putU16 _)
    ((bigEndian_putU16 (by omega)).trans hlen.symm) (by omega) (by omega)
  refine takes_helloExtension (by decide) (by simp; omega) ?_
  simp only [List.append_assoc] at hshares ⊢
  exact congrArg (Option.map _) hshares.whole

theorem takes_cookie (hctx : HelloContext hs) (hpos : 0 < hs.cookie.length) :
    helloExtension.Takes (extension tls13ExtCookie (putU16 hs.cookie.length ++ hs.cookie))
      (.cookie hs.cookie) := by
  have hhi := hctx.cookie
  rw [cookieSize] at hhi
  refine takes_helloExtension (by decide) (by simp; omega) ?_
  exact congrArg (Option.map _)
    (takes_vector16 1 65535 hpos (by omega) (by omega)).whole

/-- The extensions that every ClientHello has alike. -/
theorem takes_fixed :
    helloExtension.Takes (extension tls13ExtSupportedGroups
      (putU16 6 ++ putU16s [tls13GroupX25519, tls13GroupSecp256r1, tls13GroupSecp384r1]))
      (.supportedGroups [tls13GroupX25519, tls13GroupSecp256r1, tls13GroupSecp384r1]) ∧
    helloExtension.Takes (extension tls13ExtSignatureAlgorithms
      (putU16 (sigAlgorithms.length * 2) ++ putU16s sigAlgorithms))
      (.signatureAlgorithms sigAlgorithms) ∧
    helloExtension.Takes (extension tls13ExtSupportedVersions
      ([4] ++ putU16s [tls13Version, tls12Version]))
      (.supportedVersions [tls13Version, tls12Version]) ∧
    helloExtension.Takes (extension tls13ExtAlpn (putU16 9 ++ [8] ++ ascii "http/1.1"))
      (.alpn [ascii "http/1.1"]) ∧
    helloExtension.Takes (extension tls13ExtPskKeyExchangeModes [1, 1])
      (.pskKeyExchangeModes [1]) := by
  refine ⟨?_, ?_, ?_, ?_, ?_⟩ <;> exact takes_helloExtension (by decide) (by decide) (by decide +kernel)

/-! ### The ticket -/

theorem length_tls13ComputeBinder (C : Crypto) (ks : Keysched) (psk : Bytes) (base : Transcript)
    (ch : Bytes) : (tls13ComputeBinder C ks psk base ch).length = ks.hash.size :=
  C.hmac_length _ _ _

theorem length_pskBinder (C : Crypto) (hs : HsCtx) (hostname : Bytes) {tk : SessionTicket}
    (h : tk.psk.length = 32) : (pskBinder C hs hostname tk).length = 32 := by
  rw [pskBinder, length_tls13ComputeBinder, h]
  rfl

/-- The two parts of the extension are the extension. -/
theorem pskIdentities_append_pskBinders {tk : SessionTicket} {binder : Bytes} (age : ℕ)
    (h : binder.length = tk.psk.length) : pskIdentities tk age ++ pskBinders binder =
      extension tls13ExtPreSharedKey
        ((putU16 (2 + tk.ticket.length + 4) ++
            (putU16 tk.ticket.length ++ tk.ticket ++ putU32 age)) ++
          (putU16 (1 + binder.length) ++ ([UInt8.ofNat binder.length] ++ binder))) := by
  have hlen : ((putU16 (2 + tk.ticket.length + 4) ++
      (putU16 tk.ticket.length ++ tk.ticket ++ putU32 age)) ++
        (putU16 (1 + binder.length) ++ ([UInt8.ofNat binder.length] ++ binder))).length =
      2 + (2 + tk.ticket.length + 4) + 2 + (1 + tk.psk.length) := by
    simp [h]
    omega
  rw [extension, hlen, pskIdentities, pskBinders]
  simp only [List.append_assoc]

theorem takes_preSharedKey {tk : SessionTicket} {binder : Bytes} {age : ℕ}
    (hticket : 1 ≤ tk.ticket.length ∧ tk.ticket.length ≤ 512) (hpsk : tk.psk.length = 32)
    (hbinder : binder.length = 32) (hage : age < 4294967296) :
    helloExtension.Takes (pskIdentities tk age ++ pskBinders binder)
      (.preSharedKey [(tk.ticket, age)] [binder]) := by
  rw [pskIdentities_append_pskBinders age (hbinder.trans hpsk.symm)]
  obtain ⟨hlo, hhi⟩ := hticket
  have hage32 : (number 4).Takes (putU32 age) age := by
    have := takes_number (length_putU32 age)
    rwa [bigEndian_putU32 hage] at this
  have hidentity : pskIdentity.Takes (putU16 tk.ticket.length ++ tk.ticket ++ putU32 age)
      (tk.ticket, age) :=
    (takes_vector16 1 65535 hlo (by omega) (by omega)).bind hage32.map
  have hidlen : (putU16 tk.ticket.length ++ tk.ticket ++ putU32 age).length =
      2 + tk.ticket.length + 4 := by
    simp
    omega
  have hidentities := takes_listOf 2 7 65535
    (.single hidentity (List.cons_ne_nil _ _)) (length_putU16 _)
    ((bigEndian_putU16 (by omega)).trans hidlen.symm) (by omega) (by omega)
  have hbyte : (vector 1 32 255).Takes ([UInt8.ofNat binder.length] ++ binder) binder :=
    takes_vector rfl (bigEndian_byte (by omega)) (by omega) (by omega)
  have hblen : ([UInt8.ofNat binder.length] ++ binder).length = 1 + binder.length := by
    simp
    omega
  have hbinders := takes_listOf 2 33 65535
    (.single hbyte (List.cons_ne_nil _ _)) (length_putU16 _)
    ((bigEndian_putU16 (by omega)).trans hblen.symm) (by omega) (by omega)
  refine takes_helloExtension (by decide) (by simp; omega) ?_
  exact (hidentities.bind hbinders.map).whole

/-! ### The message -/

theorem takesAll_commonExtensions (hctx : HelloContext hs) (hlo : 1 ≤ hostname.length)
    (hhi : hostname.length ≤ 255) :
    helloExtension.TakesAll (clientHelloExtensions hs hostname)
      (commonExtensions hs hostname) := by
  obtain ⟨hgroups, hschemes, hversions, halpn, hmodes⟩ := takes_fixed
  have hone : ∀ {type : ℕ} {data : Bytes} {e : HelloExtension},
      helloExtension.Takes (extension type data) e →
        helloExtension.TakesAll (extension type data) [e] := fun h =>
    .single h (extension_ne_nil _ _)
  have hcookie : helloExtension.TakesAll
      (if hs.cookie.length > 0 then extension tls13ExtCookie (putU16 hs.cookie.length ++ hs.cookie)
        else []) (if hs.cookie.length > 0 then [.cookie hs.cookie] else []) := by
    split_ifs with hpos
    · exact hone (takes_cookie hctx hpos)
    · exact .nil
  have hfront := ((((hone (takes_serverName hlo hhi)).append (hone hgroups)).append
    (hone hschemes)).append (hone hversions)).append (hone (takes_keyShare hctx))
  have hall := ((hfront.append hcookie).append (hone halpn)).append (hone hmodes)
  rw [List.append_assoc (_ ++ _) [_] [_]] at hall
  exact hall

theorem length_clientHelloExtensions (hctx : HelloContext hs) (hhi : hostname.length ≤ 255) :
    8 ≤ (clientHelloExtensions hs hostname).length ∧
      (clientHelloExtensions hs hostname).length ≤ 740 := by
  have hshare := hctx.share.2
  have hcookie := hctx.cookie
  rw [publicSize] at hshare
  rw [cookieSize] at hcookie
  have hite : (if hs.cookie.length > 0 then
      extension tls13ExtCookie (putU16 hs.cookie.length ++ hs.cookie) else []).length ≤ 262 := by
    split_ifs
    · rw [length_extension]
      simp
      omega
    · exact Nat.zero_le _
  simp only [clientHelloExtensions, List.length_append, length_extension, length_putU16,
    length_putU16s, List.length_cons, List.length_nil] at hite ⊢
  have hsigs : sigAlgorithms.length = 6 := rfl
  have halpn : (ascii "http/1.1").length = 8 := by decide +kernel
  omega

/-! ### The builder -/

variable {C : Crypto}

/-- Both ways out of the builder. -/
theorem clientHello_eq (C : Crypto) (hs : HsCtx) (hostname : Bytes) :
    clientHello C hs hostname =
      clientHelloMessage hs (clientHelloExtensions hs hostname ++ pskBytes C hs hostname) := by
  rw [clientHello, pskBytes]
  cases hs.offeredTicket with
  | none => rw [List.append_nil]
  | some tk => rfl

theorem mem_offerTicket {tk : SessionTicket} (h : hs.offeredTicket = some tk) :
    tk ∈ hs.offerTicket := by
  rw [HsCtx.offeredTicket] at h
  split_ifs at h
  exact (Option.filter_eq_some_iff.1 h).1

theorem takesAll_pskBytes (C : Crypto) (hostname : Bytes) (hctx : HelloContext hs) :
    helloExtension.TakesAll (pskBytes C hs hostname) (pskExtensions C hs hostname) ∧
      (pskBytes C hs hostname).length ≤ 560 := by
  rw [pskBytes, pskExtensions]
  cases htk : hs.offeredTicket with
  | none => exact ⟨.nil, Nat.zero_le _⟩
  | some tk =>
    obtain ⟨hlo, hhi, hpsk⟩ := hctx.ticket tk (mem_offerTicket htk)
    have hbinder := length_pskBinder C hs hostname hpsk
    refine ⟨.single (takes_preSharedKey ⟨hlo, hhi⟩ hpsk hbinder hctx.age)
      (List.cons_ne_nil _ _), ?_⟩
    simp [pskIdentities, pskBinders, hbinder]
    omega

/-- The message of a context parses to what the context says. -/
theorem takes_clientHello (hctx : HelloContext hs) (hlo : 1 ≤ hostname.length)
    (hhi : hostname.length ≤ 255) (hvalid : hs.chFieldsValid = true) :
    (clientHelloMsg helloExtension).Takes (clientHello C hs hostname) (offeredHello C hs hostname) ∧
      1 ≤ (clientHello C hs hostname).length ∧ (clientHello C hs hostname).length ≤ 1500 := by
  obtain ⟨hrandom, hsession⟩ := hctx.random hvalid
  obtain ⟨hpsk, hpsklen⟩ := takesAll_pskBytes C hostname hctx
  obtain ⟨hextlo, hexthi⟩ := length_clientHelloExtensions hctx hhi
  have hlen : (clientHelloExtensions hs hostname ++ pskBytes C hs hostname).length =
      (clientHelloExtensions hs hostname).length + (pskBytes C hs hostname).length :=
    List.length_append
  rw [clientHello_eq]
  refine ⟨takes_clientHelloMessage hrandom hsession
    ((takesAll_commonExtensions hctx hlo hhi).append hpsk) (by omega) (by omega), ?_, ?_⟩
  · exact Nat.succ_pos _
  · simp [clientHelloMessage, hsMessage, clientHelloFields, hrandom, hsession, length_putU16s,
      tls13CipherSuites, tls12CipherSuites]
    omega

theorem captureChFields_valid (hs : HsCtx) (rnd : ClientRandom) :
    (captureChFields hs rnd).chFieldsValid = true := by
  rw [captureChFields]
  split_ifs with h
  · exact h
  · rfl

theorem HelloContext.capture (hctx : HelloContext hs) (rnd : ClientRandom) :
    HelloContext (captureChFields hs rnd) := by
  rw [captureChFields]
  split_ifs with h
  · exact hctx
  · exact ⟨fun _ => ⟨rnd.random_length, rnd.sessionId_length⟩, hctx.group, hctx.share,
      hctx.cookie, hctx.ticket, hctx.age⟩

/-- The types of the extensions, in order. -/
def offeredTypes (cookie psk : Bool) : List ℕ :=
  [tls13ExtServerName, tls13ExtSupportedGroups, tls13ExtSignatureAlgorithms,
    tls13ExtSupportedVersions, tls13ExtKeyShare] ++ (if cookie then [tls13ExtCookie] else []) ++
    [tls13ExtAlpn, tls13ExtPskKeyExchangeModes] ++ if psk then [tls13ExtPreSharedKey] else []

theorem offeredHello_types (C : Crypto) (hs : HsCtx) (hostname : Bytes) :
    (offeredHello C hs hostname).extensions.map HelloExtension.type =
      offeredTypes (0 < hs.cookie.length) hs.offeredTicket.isSome := by
  rw [offeredHello, commonExtensions, pskExtensions]
  by_cases hcookie : 0 < hs.cookie.length <;> cases hs.offeredTicket <;>
    simp [offeredTypes, hcookie, HelloExtension.type]

/-- No extension comes twice, a ticket comes last, and the cookie and the ticket are there when
the context has one. -/
theorem offeredHello_wellFormed (C : Crypto) (hs : HsCtx) (hostname : Bytes) :
    let types := (offeredHello C hs hostname).extensions.map HelloExtension.type
    types.Nodup ∧ tls13ExtPreSharedKey ∉ types.dropLast ∧
      (tls13ExtCookie ∈ types ↔ 0 < hs.cookie.length) ∧
      (tls13ExtPreSharedKey ∈ types ↔ hs.offeredTicket.isSome = true) := by
  have hall : ∀ cookie psk : Bool, (offeredTypes cookie psk).Nodup ∧
      tls13ExtPreSharedKey ∉ (offeredTypes cookie psk).dropLast ∧
      (tls13ExtCookie ∈ offeredTypes cookie psk ↔ cookie = true) ∧
      (tls13ExtPreSharedKey ∈ offeredTypes cookie psk ↔ psk = true) := by decide
  intro types
  obtain ⟨hnodup, hlast, hcookie, hpsk⟩ := hall (0 < hs.cookie.length) hs.offeredTicket.isSome
  rw [← offeredHello_types C hs hostname] at hnodup hlast hcookie hpsk
  exact ⟨hnodup, hlast, by rw [hcookie, decide_eq_true_eq], hpsk⟩

/-- The builder succeeds, and a server that reads its record reads what the context says. -/
theorem tls13BuildClientHello_parses (C : Crypto) {hs : HsCtx} {hostname : Bytes}
    (rnd : ClientRandom) (hctx : HelloContext hs) (hlo : 1 ≤ hostname.length)
    (hhi : hostname.length ≤ 255) :
    let hs₁ := captureChFields hs rnd
    let hello := offeredHello C hs₁ hostname
    ∃ hs' msg, tls13BuildClientHello C hs hostname rnd = (hs', some msg) ∧
      hs'.msgLen ≤ hsBufSize ∧
      parseClientHello (hs'.msgBuf.take hs'.msgLen) = some hello ∧
      (let types := hello.extensions.map HelloExtension.type
      types.Nodup ∧ tls13ExtPreSharedKey ∉ types.dropLast ∧
        (tls13ExtCookie ∈ types ↔ 0 < hs.cookie.length) ∧
        (tls13ExtPreSharedKey ∈ types ↔ hs₁.offeredTicket.isSome = true)) := by
  intro hs₁ hello
  have hctx₁ : HelloContext hs₁ := hctx.capture rnd
  obtain ⟨htakes, hpos, hlen⟩ :=
    takes_clientHello (C := C) hctx₁ hlo hhi (captureChFields_valid hs rnd)
  have hreclen : (clientHelloRecord (clientHello C hs₁ hostname)).length =
      5 + (clientHello C hs₁ hostname).length := by
    simp [clientHelloRecord]
    omega
  have hfits : ¬(clientHelloRecord (clientHello C hs₁ hostname)).length > hsBufSize := by
    rw [hreclen, hsBufSize]
    omega
  have hcookie : hs₁.cookie = hs.cookie := by
    change (captureChFields hs rnd).cookie = hs.cookie
    rw [captureChFields]
    split_ifs <;> rfl
  refine ⟨_, _, if_neg hfits, Nat.le_of_not_lt hfits, ?_, ?_⟩
  · dsimp only
    rw [take_blit_zero]
    exact (takes_clientHelloRecord htakes hpos (by omega)).whole
  · rw [← hcookie]
    exact offeredHello_wellFormed C hs₁ hostname

end

/-- A context that retries with a cookie and offers a ticket. -/
def retryingContext : HsCtx :=
  { tls13HandshakeInit with
    ecdheGroup := tls13GroupSecp256r1
    ecdhePublic := 4 :: List.replicate 64 7
    cookie := [1, 2, 3]
    resuming := true
    offerTicket := some ⟨true, List.replicate 32 5, tlsAes128GcmSha256, 7200, 9, [8, 8]⟩
    offerObfuscatedAge := 77 }

theorem retryingContext_helloContext : HelloContext retryingContext where
  random h := by cases h
  group := by decide
  share := by decide
  cookie := by decide
  ticket := by
    rintro _ ⟨⟩
    decide
  age := by decide

theorem tls13BuildClientHello_parses_retrying :
    let hs₁ := captureChFields retryingContext .zero
    let hello := offeredHello .transparent hs₁ [109, 97, 99]
    ∃ hs' msg, tls13BuildClientHello .transparent retryingContext [109, 97, 99] .zero =
        (hs', some msg) ∧ hs'.msgLen ≤ hsBufSize ∧
      parseClientHello (hs'.msgBuf.take hs'.msgLen) = some hello ∧
      (let types := hello.extensions.map HelloExtension.type
      types.Nodup ∧ tls13ExtPreSharedKey ∉ types.dropLast ∧
        (tls13ExtCookie ∈ types ↔ 0 < retryingContext.cookie.length) ∧
        (tls13ExtPreSharedKey ∈ types ↔ hs₁.offeredTicket.isSome = true)) :=
  tls13BuildClientHello_parses .transparent .zero retryingContext_helloContext (by decide)
    (by decide)

end MacTLS
