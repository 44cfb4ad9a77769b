import MacTLS.Handshake.Negotiation

/-!
# The rules for a HelloRetryRequest

A HelloRetryRequest may ask for another group, for its cookie to be sent back, or for both, and the
ServerHello after it is to keep to the suite that it named.  The parser that serves both messages
looks for a group in every request, and keeps the suite without looking at it again.

* `FirstRequest` : the first HelloRetryRequest of a run, in one record or in more;
* `Answered` : the ClientHello that it is to lead to;
* `HelloPayload.walk_iff` : the parser reads a payload to its end unless it refuses an extension;
* `answered_iff`, `accepts_iff` : which requests are answered, and which ServerHellos are accepted;
* `retry_rules_iff` : in every run, when the two rules are kept.
-/

namespace MacTLS

open Lib Lib.Decoder

/-! ### Requests and answers -/

/-- In this step the record of the first HelloRetryRequest `m` is complete, or the first of its
records. -/
structure FirstRequest (s : Session) (recv m : Bytes) (suite : ℕ) (es : List (ℕ × Bytes)) :
    Prop where
  waits : s.hs.state = .recvServerHello
  first : s.hs.hrrReceived = false
  message : HelloPayload m hrrRandom suite es
  length : m.length = declaredLen m
  received : ∃ p, helloPayload recv = some p ∧ (m <+: p ∨ p <+: m)

/-- The group that the extensions of a request name. -/
def namedGroup (es : List (ℕ × Bytes)) : Option ℕ := (lastData tls13ExtKeyShare es).map (getU16 · 0)

/-- The extensions of a request for TLS 1.3 are well formed, and they ask for another group on
offer or carry a cookie that the client has room for. -/
structure AsksForChange (es : List (ℕ × Bytes)) : Prop where
  wellFormed : ∀ e ∈ es, WellFormedExt e.1 e.2
  version : (lastData tls13ExtSupportedVersions es).map (getU16 · 0) = some tls13Version
  change : (∃ group ∈ offeredGroups, group ≠ tls13GroupX25519 ∧ namedGroup es = some group) ∨
    ∃ data, lastData tls13ExtCookie es = some data ∧ 2 < data.length ∧
      data.length ≤ cookieSize + 2

/-- The client sends its ClientHello again: with the cookie of the request, and with a share for the
group that it names, if it names one. -/
structure Answered (C : Crypto) (hostname : Bytes) (s : Session) (i next : StepInput)
    (es : List (ℕ × Bytes)) : Prop where
  resends : (s.step C hostname i).hs.state = .sendClientHello
  hello : ∃ ch hello pub, .sent ch ∈ ((s.step C hostname i).out C hostname next).log ∧
    rawClientHello ch = some hello ∧
    (∀ data, (tls13ExtKeyShare, data) ∈ hello.extensions ↔
      data = keyShareData ((namedGroup es).getD tls13GroupX25519) pub) ∧
    ∀ data, lastData tls13ExtCookie es = some data → 2 < data.length →
      (tls13ExtCookie, data) ∈ hello.extensions

/-- The requests that the client answers: the message is in one record, it names a group on offer,
and there is room for its cookie. -/
structure Answerable (recv m : Bytes) (es : List (ℕ × Bytes)) : Prop where
  whole : ∃ p, helloPayload recv = some p ∧ m <+: p
  group : ∃ group ∈ offeredGroups, namedGroup es = some group
  room : ∀ data, (tls13ExtCookie, data) ∈ es → data.length ≤ cookieSize + 2

/-- A ServerHello in which everything but the suite is in order. -/
structure InOrder (C : Crypto) (hs : HsCtx) (p : Bytes) (es : List (ℕ × Bytes)) : Prop where
  extensions : ∀ e ∈ es, AcceptedExt e.1 e.2
  version : (lastData tls13ExtSupportedVersions es).map (getU16 · 0) = some tls13Version
  group : namedGroup es = some hs.ecdheGroup
  shared : ∃ shared,
    tls13EcdhShared C hs.ecdheGroup hs.ecdheSecret (shWalk p).serverPublic = some shared

/-- What callers check about a connection before it starts, and how a ticket came about. -/
structure OfferBounded (hostname : Bytes) (offerTicket : Option SessionTicket) (age : ℕ) :
    Prop where
  hostname : 1 ≤ hostname.length ∧ hostname.length ≤ 255
  ticket : ∀ tk ∈ offerTicket, 1 ≤ tk.ticket.length ∧ tk.ticket.length ≤ 512 ∧ tk.psk.length = 32
  age : age < 4294967296

/-- Key generation succeeds for the curves on offer, and its results fit. -/
def ClientRandom.Generates (rnd : ClientRandom) : Prop :=
  ∀ group ∈ offeredGroups, ∃ x pub, rnd.keygen (tls13BrCurveForGroup group) = some (x, pub) ∧
    x.length ≤ 64 ∧ 1 ≤ pub.length ∧ pub.length ≤ publicSize

/-! ### One payload, one reading -/

theorem ListsExtensions.unique {b : Bytes} {es es' : List (ℕ × Bytes)} (h : ListsExtensions b es)
    (h' : ListsExtensions b es') : es = es' := by
  obtain ⟨hfits, slack, hslack, hb⟩ := h
  obtain ⟨hfits', slack', hslack', hb'⟩ := h'
  rw [hb] at hb'
  clear hb b
  have hshort : ∀ {e : ℕ × Bytes} {es : List (ℕ × Bytes)} {slack slack' : Bytes},
      slack.length < 4 → slack ≠ encodeExtensions (e :: es) ++ slack' := by
    rintro e es slack slack' hlen rfl
    rw [encodeExtensions_cons, List.length_append, List.length_append, length_extension] at hlen
    omega
  induction es generalizing es' with
  | nil =>
    cases es' with
    | nil => rfl
    | cons e' es' => exact absurd hb' (hshort hslack)
  | cons e es ih =>
    cases es' with
    | nil => exact absurd hb'.symm (hshort hslack')
    | cons e' es' =>
      obtain ⟨⟨htype, hdata⟩, hfits⟩ := List.forall_mem_cons.1 hfits
      obtain ⟨⟨htype', hdata'⟩, hfits'⟩ := List.forall_mem_cons.1 hfits'
      rw [encodeExtensions_cons, encodeExtensions_cons, List.append_assoc, List.append_assoc] at hb'
      obtain ⟨he, -, hrest⟩ :=
        (takes_rawExtension htype hdata).unique (takes_rawExtension htype' hdata') hb'
      rw [Prod.mk.eta, Prod.mk.eta] at he
      rw [he, ih hfits hfits' hrest]

section

variable {p random : Bytes} {suite : ℕ} {es : List (ℕ × Bytes)}

/-- A payload is read in one way. -/
theorem HelloPayload.unique {random' : Bytes} {suite' : ℕ} {es' : List (ℕ × Bytes)}
    (h : HelloPayload p random suite es) (h' : HelloPayload p random' suite' es') :
    random = random' ∧ suite = suite' ∧ es = es' :=
  ⟨h.random.symm.trans h'.random, h.suite.symm.trans h'.suite, h.extensions.unique h'.extensions⟩

/-- What stands behind a payload in its record does not matter. -/
theorem HelloPayload.append (h : HelloPayload p random suite es) (t : Bytes) :
    HelloPayload (p ++ t) random suite es := by
  have hle : extensionsPos p ≤ extensionsEnd p := Nat.le_add_right _ _
  have hpos : extensionsPos p = compressionPos p + 3 := rfl
  have hsid : compressionPos p = 41 + (byteAt p 38).toNat := rfl
  have hinside := h.inside
  have hext := extensionsPos_append (p := p) (by omega) t
  have hcomp := compressionPos_append (p := p) (by omega) t
  have hend : extensionsEnd (p ++ t) = extensionsEnd p := by
    rw [extensionsEnd, hext, hcomp, getU16_append (by omega), extensionsEnd]
  constructor
  · rw [byteAt_append (by omega), h.type]
  · rw [declaredLen, getU24_append (by omega), List.length_append]
    exact h.framed.trans (Nat.le_add_right _ _)
  · rw [getU16_append (by omega), h.version]
  · rw [slice_append (by omega), h.random]
  · rw [byteAt_append (by omega), getU16_append (by omega), h.suite]
  · rw [hcomp, byteAt_append (by omega), h.compression]
  · rw [hend, List.length_append]
    omega
  · rw [hext, hend, slice_append (by omega)]
    exact h.extensions

/-- The parser reads a payload to its end unless it refuses an extension. -/
theorem walk_iff (h : HelloPayload p random suite es) :
    shExtLoop p (extensionsEnd p) (extensionsEnd p) (extensionsPos p) .empty = (shWalk p, none) ↔
      ∀ e ∈ es, AcceptedExt e.1 e.2 := by
  constructor
  · intro hwalk
    obtain ⟨-, es', hpay, hread⟩ := helloPayload_of_shExtLoop h.shHead hwalk
    rw [(h.unique hpay).2.2]
    exact (readExtensions_eq_ok.1 hread).1
  · intro hacc
    have hwalk := h.shExtLoop (readExtensions_eq_ok.2 ⟨hacc, rfl⟩)
    rw [hwalk, shWalk, h.shHead]
    dsimp only
    rw [hwalk]

/-- What the walk over a payload meets. -/
theorem walk_fields (h : HelloPayload p random suite es) (hacc : ∀ e ∈ es, AcceptedExt e.1 e.2) :
    (shWalk p).version = (lastData tls13ExtSupportedVersions es).map (getU16 · 0) ∧
      (shWalk p).shareGroup = namedGroup es ∧
      (shWalk p).cookie = (lastData tls13ExtCookie es).map (·.drop 2) := by
  have hread : ∃ x, readExtensions .empty es = .ok x := ⟨_, readExtensions_eq_ok.2 ⟨hacc, rfl⟩⟩
  obtain ⟨x, hread⟩ := hread
  have hwalk := (walk_iff h).2 hacc
  rw [h.shExtLoop hread] at hwalk
  rw [← (Prod.mk.inj hwalk).1]
  exact readExtensions_fields hread

end

/-! ### Steps on a payload -/

section

variable {C : Crypto} {hs : HsCtx} {hostname p : Bytes} {suite : ℕ}

/-- A HelloRetryRequest is accepted once. -/
theorem tls13ParseServerHello_retried {group : ℕ} (hfirst : hs.hrrReceived = false)
    (h : HelloRetried p suite group) : tls13ParseServerHello C hs p =
      ⟨.wantRead, afterHelloRetry C hs p suite group, []⟩ := by
  obtain ⟨pos, e, hhead, hwalk⟩ := h.fields
  rw [tls13ParseServerHello, hhead]
  dsimp only
  rw [hwalk]
  dsimp only
  rw [shNegotiate, h.version]
  dsimp only
  rw [if_neg (by decide), if_neg (by decide), if_neg h.keyLen, if_pos rfl, shHelloRetryRequest]
  dsimp only
  rw [h.share, if_neg (by simp [HsCtx.applyExts, hfirst]), Option.getD_some, if_neg h.supported]
  rfl

/-- A ServerHello that passes its guards is accepted. -/
theorem tls13ParseServerHello_accepted {shared : Bytes} (h : HelloAccepted C hs p suite shared) :
    tls13ParseServerHello C hs p =
      ⟨.ok, installHandshakeKeys C (afterServerHello hs p suite) suite shared,
        [.earlySecret (afterServerHello hs p suite).earlyPsk]⟩ := by
  obtain ⟨pos, e, hhead, hwalk⟩ := h.fields
  rw [tls13ParseServerHello, hhead]
  dsimp only
  rw [hwalk]
  dsimp only
  rw [shNegotiate, h.version]
  dsimp only
  rw [if_neg (by decide), if_neg (by decide), if_neg h.keyLen, if_neg (by decide), shServerHello,
    h.group]
  have hhash : ¬tls13HashForSuite suite ≠ (hs.applyExts (shWalk p)).transcript.hash :=
    not_not.2 h.hash
  have hgroup : ¬hs.ecdheGroup ≠ (hs.applyExts (shWalk p)).ecdheGroup := not_not.2 rfl
  have hshared : tls13EcdhShared C (hs.applyExts (shWalk p)).ecdheGroup
      (hs.applyExts (shWalk p)).ecdheSecret (shWalk p).serverPublic = some shared := h.shared
  dsimp only
  rw [if_neg hhash, if_neg hgroup, hshared]
  rfl

/-- A handshake record at the front of what was received is parsed. -/
theorem tls13StateRecvServerHello_payload {recv : Bytes} (hpay : helloPayload recv = some p) :
    (tls13StateRecvServerHello C hs recv).toOutcome = { tls13ParseServerHello C hs p with
      log := .received (helloMessage p) :: (tls13ParseServerHello C hs p).log } := by
  unfold helloPayload at hpay
  split_ifs at hpay with hrec
  obtain ⟨hlen, htotal, htype⟩ := hrec
  obtain rfl := Option.some.inj hpay
  unfold tls13StateRecvServerHello
  dsimp only
  rw [if_neg (by omega), if_neg (by omega), htype, if_neg (by decide), if_neg (by decide),
    if_neg (by decide)]
  rfl

end

section

variable (C : Crypto) (hostname : Bytes) {s : Session} {i : StepInput} {p : Bytes} {suite : ℕ}

/-- What the handshake makes of a payload while it waits for a ServerHello. -/
theorem out_payload (hst : s.hs.state = .recvServerHello) (hpay : helloPayload i.recv = some p) :
    (s.out C hostname i).toOutcome =
      (let o := { tls13ParseServerHello C s.hs p with
        log := .received (helloMessage p) :: (tls13ParseServerHello C s.hs p).log }
      if o.res = .ok then { o with hs := { o.hs with state := .recvEncryptedExtensions } }
      else if o.res = .wantRead ∧ o.hs.hrrPending then
        { o with res := .ok, hs := { o.hs with hrrPending := false, state := .sendClientHello } }
      else o) := by
  have h := @tls13StateRecvServerHello_payload C s.hs _ _ hpay
  unfold Session.out tls13HandshakeStep
  simp only [hst]
  generalize tls13StateRecvServerHello C s.hs i.recv = o at h
  generalize tls13ParseServerHello C s.hs p = q at h ⊢
  obtain ⟨o, rest⟩ := o
  obtain rfl : o = _ := h
  dsimp only
  split_ifs <;> rfl

/-- The first HelloRetryRequest that passes its guards is accepted. -/
theorem out_retried {group : ℕ} (hst : s.hs.state = .recvServerHello)
    (hpay : helloPayload i.recv = some p) (hfirst : s.hs.hrrReceived = false)
    (h : HelloRetried p suite group) : (s.out C hostname i).toOutcome =
      ⟨.ok, { afterHelloRetry C s.hs p suite group with
        hrrPending := false, state := .sendClientHello }, [.received (helloMessage p)]⟩ := by
  rw [out_payload C hostname hst hpay, tls13ParseServerHello_retried hfirst h]
  rfl

/-- A ServerHello that passes its guards is accepted. -/
theorem out_accepted {shared : Bytes} (hst : s.hs.state = .recvServerHello)
    (hpay : helloPayload i.recv = some p) (h : HelloAccepted C s.hs p suite shared) :
    (s.out C hostname i).hs.state = .recvEncryptedExtensions := by
  have hout := congrArg (·.hs.state) (out_payload C hostname hst hpay)
  rw [tls13ParseServerHello_accepted h] at hout
  exact hout

/-- What becomes of a payload while the handshake waits for a ServerHello. -/
theorem out_cases (hst : s.hs.state = .recvServerHello) (hpay : helloPayload i.recv = some p) :
    ((s.out C hostname i).res = .error ∨ (s.out C hostname i).res = .fallback12) ∧
        (s.out C hostname i).hs.state = .recvServerHello ∨
      (∃ suite group, s.hs.hrrReceived = false ∧ HelloRetried p suite group) ∨
      ∃ suite shared, HelloAccepted C s.hs p suite shared := by
  have hp := parsed_tls13ParseServerHello C s.hs p
  have hout := out_payload C hostname hst hpay
  generalize tls13ParseServerHello C s.hs p = o at hp hout
  cases hp with
  | refused h =>
    have hres : o.res = .error ∨ o.res = .fallback12 := h.res.imp_right And.left
    have hstate : o.hs.state = s.hs.state := (congrArg HsCtx.state h.frame :)
    have hok : o.res ≠ .ok := by obtain hr | hr := hres <;> rw [hr] <;> decide
    have hwait : ¬(o.res = .wantRead ∧ o.hs.hrrPending = true) := by
      obtain hr | hr := hres <;> rw [hr] <;> simp
    dsimp only at hout
    rw [if_neg hok, if_neg hwait] at hout
    exact .inl ⟨by rw [hout]; exact hres, by rw [hout]; exact hstate.trans hst⟩
  | retry _ hfirst hret => exact .inr (.inl ⟨_, _, hfirst, hret⟩)
  | accepted h => exact .inr (.inr ⟨_, _, h⟩)

end

/-! ### What is accepted -/

theorem suite_of_mem : ∀ suite ∈ tls13CipherSuites,
    tls13KeyLenForSuite suite ≠ 0 ∧ tls13HashForSuite suite = .sha256 := by decide

theorem curve_of_mem : ∀ group ∈ offeredGroups, tls13BrCurveForGroup group ≠ 0 ∧ group < 65536 := by
  decide

section

variable {C : Crypto} {hs : HsCtx} {p : Bytes} {suite : ℕ} {es : List (ℕ × Bytes)}

/-- A HelloRetryRequest passes its guards when it names a group on offer. -/
theorem helloRetried_iff {group : ℕ} (h : HelloPayload p hrrRandom suite es) :
    HelloRetried p suite group ↔ (∀ e ∈ es, AcceptedExt e.1 e.2) ∧
      (lastData tls13ExtSupportedVersions es).map (getU16 · 0) = some tls13Version ∧
      tls13KeyLenForSuite suite ≠ 0 ∧ namedGroup es = some group ∧ group ∈ offeredGroups := by
  constructor
  · rintro ⟨⟨pos, e, hhead, hwalk⟩, hversion, hkey, hshare, hgroup⟩
    obtain ⟨-, -, rfl, rfl⟩ := ShHead.fields.inj (hhead.symm.trans h.shHead)
    have hacc := (walk_iff h).1 hwalk
    obtain ⟨hv, hg, -⟩ := walk_fields h hacc
    exact ⟨hacc, hv ▸ hversion, hkey, hg ▸ hshare, mem_offeredGroups hgroup⟩
  · rintro ⟨hacc, hversion, hkey, hname, hgroup⟩
    obtain ⟨hv, hg, -⟩ := walk_fields h hacc
    refine ⟨⟨_, _, h.shHead.trans ?_, (walk_iff h).2 hacc⟩, hv.trans hversion, hkey, hg.trans hname,
      (curve_of_mem group hgroup).1⟩
    rw [decide_eq_true rfl]

/-- A ServerHello passes its guards when it is in order and names a suite on offer. -/
theorem helloAccepted_iff {random : Bytes} (h : HelloPayload p random suite es)
    (hrandom : random ≠ hrrRandom) (hhash : hs.transcript.hash = .sha256) :
    (∃ shared, HelloAccepted C hs p suite shared) ↔
      InOrder C hs p es ∧ suite ∈ tls13CipherSuites := by
  constructor
  · rintro ⟨shared, hframed, ⟨pos, e, hhead, hwalk⟩, hversion, hkey, hh, hgroup, hshared⟩
    obtain ⟨-, -, rfl, rfl⟩ := ShHead.fields.inj (hhead.symm.trans h.shHead)
    have hacc := (walk_iff h).1 hwalk
    obtain ⟨hv, hg, -⟩ := walk_fields h hacc
    exact ⟨⟨hacc, hv ▸ hversion, hg ▸ hgroup, shared, hshared⟩,
      mem_tls13CipherSuites (suiteOk_of (hh.trans hhash) hkey)⟩
  · rintro ⟨⟨hacc, hversion, hgroup, shared, hshared⟩, hsuite⟩
    obtain ⟨hkey, hh⟩ := suite_of_mem suite hsuite
    obtain ⟨hv, hg, -⟩ := walk_fields h hacc
    refine ⟨shared, ⟨h.type, h.framed⟩, ⟨_, _, h.shHead.trans ?_, (walk_iff h).2 hacc⟩,
      hv.trans hversion, hkey, hh.trans hhash.symm, hg.trans hgroup, hshared⟩
    rw [decide_eq_false hrandom]

end

/-! ### Before the keys -/

section

variable {C : Crypto} {hostname : Bytes} {s : Session} {i : StepInput}

/-- Without an engine no ClientHello is sent. -/
theorem hasEngine_of_live (hst : s.hs.state = .sendClientHello) (hl : Live C hostname s i) :
    s.hs.hasEngine = true := by
  by_contra hno
  have hfail : tls13StateSendClientHello C s.hs hostname i.rnd = s.hs.fail brErrBadState [] :=
    if_pos (by simpa using hno)
  refine hl.1 ?_
  unfold Session.out tls13HandshakeStep
  simp only [hst]
  rw [hfail]
  rfl

/-- What a step keeps while the hellos are not over. -/
theorem before_step (h : HelloInv C hostname s) (hl : Live C hostname s i)
    (hbefore : (s.step C hostname i).hs.state.beforeKeys = true) :
    s.hs.state.beforeKeys = true ∧
      (s.step C hostname i).hs.hasEngine = s.hs.hasEngine ∧
      (s.hs.state = .recvServerHello ∨ s.hs.hasEngine = true) ∧
      (s.hs.hrrReceived = true → (s.step C hostname i).hs.hrrReceived = true ∧
        (s.step C hostname i).hs.cipherSuite = s.hs.cipherSuite) := by
  have ht := transition_step C hostname i.rnd i.recv h.ordered.wf
  have hkeys : s.hs.state.beforeKeys = true := by
    by_contra hpast
    have hafter : (s.step C hostname i).hs.state.beforeKeys = false :=
      (ht.past (Bool.eq_false_iff.2 hpast)).1
    cases hafter.symm.trans hbefore
  have hlive := hl
  have hengine : s.hs.state = .sendClientHello → s.hs.hasEngine = true :=
    fun hst => hasEngine_of_live hst hlive
  unfold Live Session.out at hl
  unfold Session.step Session.out at hbefore ⊢
  dsimp only at hl hbefore ⊢
  generalize (tls13HandshakeStep C hostname i.rnd s.hs i.recv).toOutcome = o at ht hl hbefore ⊢
  refine ⟨hkeys, ?_⟩
  cases ht with
  | quiet hst _ _ hr =>
    have hwait : s.hs.state = .recvServerHello := by
      have hccs := h.ordered.noCcs
      cases hs : s.hs.state <;> simp_all [HsState.beforeKeys]
    exact ⟨(congrArg HsCtx.hasEngine hr.frame :), .inl hwait, fun hhrr =>
      ⟨hr.hrrReceived.trans hhrr, (congrArg HsCtx.cipherSuite hr.frame :)⟩⟩
  | notSent _ hres => exact absurd hres hl.1
  | clientHello hst hr _ _ hbuilt =>
    obtain ⟨rnd, hbuilt⟩ := hbuilt
    obtain ⟨hhrr, -, -, hsuite, -⟩ := hbuilt.keeps
    exact ⟨(congrArg HsCtx.hasEngine hr.frame :), .inr (hengine hst), fun h =>
      ⟨hhrr.trans h, hsuite⟩⟩
  | helloRefused _ _ h =>
    obtain h | ⟨h, -⟩ := h.res
    · exact absurd h hl.1
    · exact absurd h hl.2
  | helloRetry hst _ _ hfirst => exact ⟨rfl, .inl hst, fun h => by cases hfirst.symm.trans h⟩
  | serverHello => cases hbefore
  | refused hreads =>
    cases hs : s.hs.state <;> simp [hs, HsState.reads, HsState.beforeKeys] at hreads hkeys
  | ccs hst => exact absurd hst h.ordered.noCcs
  | parkedRefused hst => simp [hst, HsState.beforeKeys] at hkeys
  | encryptedExtensions hst => simp [hst, HsState.beforeKeys] at hkeys
  | certificateRequest hst => simp [hst, HsState.beforeKeys] at hkeys
  | certificateParked hst => simp [hst, HsState.beforeKeys] at hkeys
  | parkedCertificate hst => simp [hst, HsState.beforeKeys] at hkeys
  | certificate hst => simp [hst, HsState.beforeKeys] at hkeys
  | certificateVerify hst => simp [hst, HsState.beforeKeys] at hkeys
  | serverFinished hst => simp [hst, HsState.beforeKeys] at hkeys
  | clientFinished hst => simp [hst, HsState.beforeKeys] at hkeys

theorem helloInv_step (h : HelloInv C hostname s) (hl : Live C hostname s i) :
    HelloInv C hostname (s.step C hostname i) :=
  ⟨messagesInv_step h.ordered hl, helloPhase_step i h hl⟩

/-- A client that waits for a ServerHello has sent its ClientHello with an engine. -/
theorem hasEngine_of_reach {hasEngine resuming : Bool} {offerTicket : Option SessionTicket}
    {age : ℕ}
    (h : Reach (Session.step C hostname) (Live C hostname)
      (Session.start hasEngine resuming offerTicket age) s)
    (hst : s.hs.state = .recvServerHello) : s.hs.hasEngine = true := by
  have hinv : HelloInv C hostname s ∧
      (s.hs.state = .recvServerHello → s.hs.hasEngine = true) := by
    refine h.invariant (P := fun s => HelloInv C hostname s ∧
      (s.hs.state = .recvServerHello → s.hs.hasEngine = true))
        ⟨helloInv_of_reach .refl, fun h => by cases h⟩ ?_
    rintro s i ⟨hinv, hengine⟩ hl
    refine ⟨helloInv_step hinv hl, fun hwait => ?_⟩
    obtain ⟨-, hsame, hor, -⟩ := before_step hinv hl (by rw [hwait]; rfl)
    exact hsame.trans (hor.elim hengine id)
  exact hinv.2 hst

/-- Until the ServerHello the context keeps the suite of the HelloRetryRequest. -/
theorem suite_of_reach {s' : Session} (hinv : HelloInv C hostname s)
    (hhrr : s.hs.hrrReceived = true)
    (h : Reach (Session.step C hostname) (Live C hostname) s s')
    (hst : s'.hs.state.beforeKeys = true) :
    s'.hs.hrrReceived = true ∧ s'.hs.cipherSuite = s.hs.cipherSuite := by
  have hkept : HelloInv C hostname s' ∧ (s'.hs.state.beforeKeys = true →
      s'.hs.hrrReceived = true ∧ s'.hs.cipherSuite = s.hs.cipherSuite) := by
    refine h.invariant (P := fun s' => HelloInv C hostname s' ∧ (s'.hs.state.beforeKeys = true →
      s'.hs.hrrReceived = true ∧ s'.hs.cipherSuite = s.hs.cipherSuite))
        ⟨hinv, fun _ => ⟨hhrr, rfl⟩⟩ ?_
    rintro s' i ⟨hinv, hkept⟩ hl
    refine ⟨helloInv_step hinv hl, fun hbefore => ?_⟩
    obtain ⟨hkeys, -, -, hsame⟩ := before_step hinv hl hbefore
    obtain ⟨hhrr', hsuite⟩ := hkept hkeys
    exact ⟨(hsame hhrr').1, (hsame hhrr').2.trans hsuite⟩
  exact hkept.2 hst

end

/-! ### The second ClientHello -/

section

variable {C : Crypto} {hostname : Bytes} {s : Session}

/-- A key pair for a group on offer makes the context of a ClientHello. -/
theorem helloBuilt_of_generates {hs : HsCtx} {rnd : ClientRandom} (hgen : rnd.Generates)
    (hgroup : hs.nextGroup ∈ offeredGroups) :
    ∃ x pub, 1 ≤ pub.length ∧ pub.length ≤ publicSize ∧
      HelloBuilt hs rnd (helloContext hs rnd x pub) := by
  obtain ⟨x, pub, hkey, hx, hlo, hhi⟩ := hgen _ hgroup
  refine ⟨x, pub, hlo, hhi, _, ?_, rfl⟩
  unfold tls13GenerateKeypair
  dsimp only
  rw [if_neg (curve_of_mem _ hgroup).1, hkey]
  dsimp only
  rw [if_neg (by omega)]

/-- A context whose key pair could be generated sends its ClientHello when it fits. -/
theorem tls13StateSendClientHello_sends {hs hs₁ : HsCtx} {rnd : ClientRandom}
    (hengine : hs.hasEngine = true) (hbuilt : HelloBuilt hs rnd hs₁)
    (hfit : (clientHelloRecord (clientHello C hs₁ hostname)).length ≤ hsBufSize) :
    (tls13StateSendClientHello C hs hostname rnd).res = .wantWrite ∧
      (tls13StateSendClientHello C hs hostname rnd).log = [.sent (clientHello C hs₁ hostname)] := by
  obtain ⟨hs₀, hkey, rfl⟩ := hbuilt
  have hgroup : (if (startTranscript hs).hrrReceived then (startTranscript hs).hrrGroup
      else tls13GroupX25519) = hs.nextGroup := by
    unfold startTranscript
    split_ifs <;> simp_all [HsCtx.nextGroup]
  unfold tls13StateSendClientHello
  dsimp only
  rw [if_neg (by simp [hengine]), hgroup, hkey]
  dsimp only
  unfold tls13BuildClientHello
  dsimp only
  rw [if_neg (Nat.not_lt.2 hfit)]
  exact ⟨rfl, rfl⟩

/-- The context of a retry holds what its ClientHello needs. -/
theorem helloContext_retry {hs : HsCtx} {rnd : ClientRandom} {x pub : Bytes}
    {resuming : Bool} {offerTicket : Option SessionTicket} {age : ℕ} (hcap : hs.Captured)
    (hset : hs.settings = (resuming, offerTicket, age))
    (hbound : OfferBounded hostname offerTicket age) (hgroup : hs.nextGroup ∈ offeredGroups)
    (hcookie : hs.cookie.length ≤ cookieSize) (hlo : 1 ≤ pub.length)
    (hhi : pub.length ≤ publicSize) : HelloContext (helloContext hs rnd x pub) := by
  simp only [HsCtx.settings, Prod.mk.injEq] at hset
  obtain ⟨-, hticket, hage⟩ := hset
  rw [helloContext_eq]
  refine ⟨fun _ => ?_, (curve_of_mem _ hgroup).2, ⟨hlo, hhi⟩, hcookie, ?_, ?_⟩
  · dsimp only
    split_ifs
    · exact ⟨hcap.random, hcap.sessionId⟩
    · exact ⟨rnd.random_length, rnd.sessionId_length⟩
  · rw [hticket]
    exact hbound.ticket
  · rw [hage]
    exact hbound.age

/-- A run that is to send its ClientHello sends it, for the group and with the cookie that the
context holds. -/
theorem sends_hello (next : StepInput) {resuming : Bool} {offerTicket : Option SessionTicket}
    {age : ℕ} (hinv : HelloInv C hostname s) (hst : s.hs.state = .sendClientHello)
    (hengine : s.hs.hasEngine = true) (hset : s.hs.settings = (resuming, offerTicket, age))
    (hbound : OfferBounded hostname offerTicket age) (hgen : next.rnd.Generates)
    (hgroup : s.hs.nextGroup ∈ offeredGroups) (hcookie : s.hs.cookie.length ≤ cookieSize) :
    ∃ ch hello pub, .sent ch ∈ (s.out C hostname next).log ∧ rawClientHello ch = some hello ∧
      (∀ data, (tls13ExtKeyShare, data) ∈ hello.extensions ↔
        data = keyShareData s.hs.nextGroup pub) ∧
      ∀ data, (tls13ExtCookie, data) ∈ hello.extensions ↔
        0 < s.hs.cookie.length ∧ data = putU16 s.hs.cookie.length ++ s.hs.cookie := by
  obtain ⟨x, pub, hlo, hhi, hbuilt⟩ := helloBuilt_of_generates hgen hgroup
  have hcap := hinv.captured hst
  have hctx : HelloContext (helloContext s.hs next.rnd x pub) :=
    helloContext_retry hcap hset hbound hgroup hcookie hlo hhi
  have hcap₁ := hbuilt.ready.captured hcap
  have htranscript := (hbuilt.ready.transcript_eq hinv.ordered.ok hst).trans (hinv.before hst).2
  obtain ⟨-, hcookie₁, hgroup₁, -, -⟩ := hbuilt.keeps
  have hpub : (helloContext s.hs next.rnd x pub).ecdhePublic = pub := by rw [helloContext_eq]
  have hvalid : (helloContext s.hs next.rnd x pub).chFieldsValid = true := by rw [helloContext_eq]
  generalize helloContext s.hs next.rnd x pub = hs₁ at *
  have hlen := (takes_clientHello (C := C) hctx hbound.hostname.1 hbound.hostname.2 hvalid).2.2
  have hfit : (clientHelloRecord (clientHello C hs₁ hostname)).length ≤ hsBufSize := by
    simp only [clientHelloRecord, List.length_append, List.length_cons, List.length_nil,
      length_putU16, hsBufSize]
    omega
  obtain ⟨hres, hlog⟩ := tls13StateSendClientHello_sends (C := C) hengine hbuilt hfit
  refine ⟨_, _, pub, ?_, rawClientHello_clientHello hcap₁ (by rw [htranscript]) hfit, ?_, ?_⟩
  · unfold Session.out tls13HandshakeStep
    simp only [hst]
    rw [if_pos hres]
    exact hlog ▸ List.mem_singleton.2 rfl
  · intro data
    rw [← hgroup₁, ← hpub]
    exact mem_keyShare C hs₁ hostname data
  · intro data
    rw [← hcookie₁]
    exact mem_cookie C hs₁ hostname data

end

/-! ### The two rules -/

section

variable {C : Crypto} {hostname : Bytes} {s : Session} {i : StepInput}

/-- While it waits for the first ServerHello a context holds no cookie. -/
theorem cookie_of_waiting (h : HelloInv C hostname s) (hst : s.hs.state = .recvServerHello)
    (hfirst : s.hs.hrrReceived = false) : s.hs.cookie = [] := by
  cases h.phase with
  | waiting _ _ hcookie => exact hcookie
  | fresh hsend => cases hst.symm.trans hsend
  | asked hsend => cases hst.symm.trans hsend
  | resent _ hhrr => cases hfirst.symm.trans hhrr
  | past hpast => rw [hst] at hpast; cases hpast

/-- The step after which the ClientHello is to be sent again has accepted the request. -/
theorem retried_of_resends {p : Bytes} (hst : s.hs.state = .recvServerHello)
    (hpay : helloPayload i.recv = some p)
    (hresends : (s.step C hostname i).hs.state = .sendClientHello) :
    ∃ suite group, HelloRetried p suite group := by
  have hresends : (s.out C hostname i).hs.state = .sendClientHello := hresends
  obtain ⟨-, hwait⟩ | ⟨suite, group, -, hret⟩ | ⟨suite, shared, hacc⟩ :=
    out_cases C hostname hst hpay
  · cases hwait.symm.trans hresends
  · exact ⟨suite, group, hret⟩
  · cases (out_accepted C hostname hst hpay hacc).symm.trans hresends

/-- A request for a change is answered when it is whole, names a group on offer, and there is room
for its cookie. -/
theorem answered_iff {m : Bytes} {suite : ℕ} {es : List (ℕ × Bytes)} {next : StepInput}
    {hasEngine resuming : Bool} {offerTicket : Option SessionTicket} {age : ℕ}
    (h : Reach (Session.step C hostname) (Live C hostname)
      (Session.start hasEngine resuming offerTicket age) s)
    (hreq : FirstRequest s i.recv m suite es) (hask : AsksForChange es)
    (hsuite : suite ∈ tls13CipherSuites) (hbound : OfferBounded hostname offerTicket age)
    (hgen : next.rnd.Generates) :
    Answered C hostname s i next es ↔ Answerable i.recv m es := by
  have hinv := helloInv_of_reach h
  obtain ⟨-, hset⟩ := settings_of_reach
    (messagesInv_start C hasEngine resuming offerTicket age).wf (h.mono fun _ _ _ => trivial)
  obtain ⟨p, hpay, hcut⟩ := hreq.received
  constructor
  · rintro ⟨hresends, -⟩
    obtain ⟨suite', group, hret⟩ := retried_of_resends hreq.waits hpay hresends
    obtain ⟨pos, e, hhead, hwalk⟩ := hret.fields
    obtain ⟨hrandom, es', hp, -⟩ := helloPayload_of_shExtLoop hhead hwalk
    rw [hrandom.1 rfl] at hp
    -- the record of an accepted request holds all of it
    have hwhole : m <+: p := by
      obtain hm | ⟨t, rfl⟩ := hcut
      · exact hm
      · have hdecl : declaredLen (p ++ t) = declaredLen p := by
          have := le_extensionsPos p
          have : extensionsPos p ≤ extensionsEnd p := Nat.le_add_right _ _
          have := hp.inside
          rw [declaredLen, getU24_append (by omega), declaredLen]
        have hlen := hreq.length
        rw [hdecl, List.length_append] at hlen
        have hframed := hp.framed
        obtain rfl : t = [] := List.eq_nil_of_length_eq_zero (by omega)
        exact (List.append_nil p).symm ▸ List.prefix_refl p
    obtain ⟨t, rfl⟩ := hwhole
    obtain ⟨-, rfl, rfl⟩ := (hreq.message.append t).unique hp
    obtain ⟨hacc, -, -, hname, hgroup⟩ := (helloRetried_iff hp).1 hret
    exact ⟨⟨_, hpay, List.prefix_append _ _⟩, ⟨group, hgroup, hname⟩,
      fun data hmem => (hacc _ hmem).2 rfl⟩
  · rintro ⟨⟨p', hpay', t, rfl⟩, ⟨group, hgroup, hname⟩, hroom⟩
    have hp := hreq.message.append t
    have hacc : ∀ e ∈ es, AcceptedExt e.1 e.2 := by
      rintro ⟨type, data⟩ hmem
      exact ⟨hask.wellFormed _ hmem, fun htype => hroom data (htype ▸ hmem)⟩
    have hret := (helloRetried_iff hp).2
      ⟨hacc, hask.version, (suite_of_mem suite hsuite).1, hname, hgroup⟩
    have hout := out_retried C hostname hreq.waits hpay' hreq.first hret
    have hhs : (s.step C hostname i).hs =
        { afterHelloRetry C s.hs (m ++ t) suite group with
          hrrPending := false, state := .sendClientHello } := congrArg Outcome.hs hout
    have hlive : Live C hostname s i := by
      have hres : (s.out C hostname i).res = .ok := congrArg Outcome.res hout
      rw [Live, hres]
      decide
    have hcookie : (s.step C hostname i).hs.cookie =
        ((lastData tls13ExtCookie es).map (·.drop 2)).getD [] := by
      rw [hhs, ← (walk_fields hp hacc).2.2, ← cookie_of_waiting hinv hreq.waits hreq.first]
      rfl
    have hcookielen : (s.step C hostname i).hs.cookie.length ≤ cookieSize := by
      rw [hcookie]
      cases hlast : lastData tls13ExtCookie es with
      | none => exact Nat.zero_le _
      | some data =>
        have := hroom data (mem_of_lastData hlast)
        simp only [Option.map_some, Option.getD_some, List.length_drop]
        omega
    have hnext : (s.step C hostname i).hs.nextGroup = group := by rw [hhs]; rfl
    obtain ⟨ch, hello, pub, hsent, hraw, hshare, hback⟩ := sends_hello (C := C) next
      (helloInv_step hinv hlive) (by rw [hhs])
      (by rw [hhs]; exact hasEngine_of_reach h hreq.waits)
      (by rw [hhs]; exact hset) hbound hgen (hnext.symm ▸ hgroup) hcookielen
    refine ⟨by rw [hhs], ch, hello, pub, hsent, hraw, ?_, ?_⟩
    · rw [hname, Option.getD_some, ← hnext]
      exact hshare
    · intro data hlast hlen
      exact (hback data).2 ((cookie_iff hacc hcookie).2 ⟨hlast, hlen⟩)

/-- The suite of an accepted request is that of the context. -/
theorem suite_of_retried {p : Bytes} {suite : ℕ} {es : List (ℕ × Bytes)}
    (hst : s.hs.state = .recvServerHello) (hpay : helloPayload i.recv = some p)
    (hreq : HelloPayload p hrrRandom suite es) (hl : Live C hostname s i) :
    (s.step C hostname i).hs.hrrReceived = true ∧ (s.step C hostname i).hs.cipherSuite = suite := by
  obtain ⟨hres, -⟩ | ⟨suite', group, hfirst, hret⟩ | ⟨suite', shared, hacc⟩ :=
    out_cases C hostname hst hpay
  · exact (hres.elim hl.1 hl.2).elim
  · obtain ⟨pos, e, hhead, -⟩ := hret.fields
    obtain ⟨-, rfl, -⟩ := ShHead.fields.inj (hhead.symm.trans hreq.shHead)
    have hout := out_retried C hostname hst hpay hfirst hret
    have hhs : (s.step C hostname i).hs = _ := congrArg Outcome.hs hout
    exact ⟨by rw [hhs]; rfl, by rw [hhs]; rfl⟩
  · obtain ⟨pos, e, hhead, -⟩ := hacc.fields
    obtain ⟨hno, -⟩ := ShHead.fields.inj (hhead.symm.trans hreq.shHead)
    exact absurd rfl (of_decide_eq_false hno.symm)

/-- A ServerHello is accepted when it is in order and names a suite on offer. -/
theorem accepts_iff {p random : Bytes} {suite : ℕ} {es : List (ℕ × Bytes)}
    (h : HelloInv C hostname s) (hst : s.hs.state = .recvServerHello)
    (hpay : helloPayload i.recv = some p) (hello : HelloPayload p random suite es)
    (hrandom : random ≠ hrrRandom) :
    (s.step C hostname i).hs.state = .recvEncryptedExtensions ↔
      InOrder C s.hs p es ∧ suite ∈ tls13CipherSuites := by
  rw [← helloAccepted_iff hello hrandom h.ordered.ok.hash]
  constructor
  · intro hnext
    have hnext : (s.out C hostname i).hs.state = .recvEncryptedExtensions := hnext
    obtain ⟨-, hwait⟩ | ⟨_, group, -, hret⟩ | ⟨suite', shared, hacc⟩ :=
      out_cases C hostname hst hpay
    · cases hwait.symm.trans hnext
    · obtain ⟨pos, e, hhead, -⟩ := hret.fields
      obtain ⟨hno, -⟩ := ShHead.fields.inj (hhead.symm.trans hello.shHead)
      exact absurd (of_decide_eq_true hno.symm) hrandom
    · obtain ⟨pos, e, hhead, -⟩ := hacc.fields
      obtain ⟨-, rfl, -⟩ := ShHead.fields.inj (hhead.symm.trans hello.shHead)
      exact ⟨shared, hacc⟩
  · rintro ⟨shared, hacc⟩
    exact out_accepted C hostname hst hpay hacc

end

/-- **The rules for a HelloRetryRequest.**  In every run, the first request for a change is answered
by a second ClientHello if and only if its message is in one record, it names a group on offer, and
there is room for its cookie.  After a request the context keeps its suite, and a ServerHello that
names another is kept out unless it is in order and names the other suite on offer. -/
theorem retry_rules_iff (C : Crypto) (hostname : Bytes) (hasEngine resuming : Bool)
    (offerTicket : Option SessionTicket) (age : ℕ) {s : Session}
    (h : Reach (Session.step C hostname) (Live C hostname)
      (Session.start hasEngine resuming offerTicket age) s) :
    (∀ (i next : StepInput) (m : Bytes) (suite : ℕ) (es : List (ℕ × Bytes)),
      FirstRequest s i.recv m suite es → AsksForChange es → suite ∈ tls13CipherSuites →
      OfferBounded hostname offerTicket age → next.rnd.Generates →
        (Answered C hostname s i next es ↔ Answerable i.recv m es)) ∧
      ∀ (i : StepInput) (p : Bytes) (suite : ℕ) (es : List (ℕ × Bytes)),
        s.hs.state = .recvServerHello → helloPayload i.recv = some p →
        HelloPayload p hrrRandom suite es → Live C hostname s i →
          ∀ s', Reach (Session.step C hostname) (Live C hostname) (s.step C hostname i) s' →
            s'.hs.state = .recvServerHello →
            s'.hs.cipherSuite = suite ∧
              ∀ (j : StepInput) (p' random : Bytes) (suite' : ℕ) (es' : List (ℕ × Bytes)),
                helloPayload j.recv = some p' → HelloPayload p' random suite' es' →
                random ≠ hrrRandom →
                  (((s'.step C hostname j).hs.state = .recvEncryptedExtensions → suite' = suite) ↔
                    ¬(InOrder C s'.hs p' es' ∧ suite' ∈ tls13CipherSuites ∧ suite' ≠ suite)) := by
  refine ⟨fun i next m suite es hreq hask hsuite hbound hgen =>
    answered_iff h hreq hask hsuite hbound hgen, ?_⟩
  intro i p suite es hst hpay hreq hl s' h' hst'
  have hinv := helloInv_of_reach h
  obtain ⟨hhrr, hsuite⟩ := suite_of_retried hst hpay hreq hl
  have hinv₁ := helloInv_step hinv hl
  have hinv' : HelloInv C hostname s' := h'.invariant hinv₁ fun _ _ => helloInv_step
  have hkept := suite_of_reach hinv₁ hhrr h' (by rw [hst']; rfl)
  refine ⟨hkept.2.trans hsuite, fun j p' random suite' es' hpay' hello hrandom => ?_⟩
  rw [accepts_iff hinv' hst' hpay' hello hrandom]
  tauto

/-! ### Two servers -/

/-- A client that has sent its first ClientHello. -/
def helloSent : Session := play (Session.step .transparent [1]) (Session.start true false none 0)
  [receive []]

example : helloSent.hs.state = .recvServerHello := by decide +kernel

theorem reach_helloSent : Reach (Session.step .transparent [1]) (Live .transparent [1])
    (Session.start true false none 0) helloSent :=
  reach_play (by decide +kernel)

/-- The message of a hello with the given extensions. -/
def helloWith (random : Bytes) (suite : ℕ) (es : List (ℕ × Bytes)) : Bytes :=
  (serverHelloRecord random suite (encodeExtensions es)).drop 5

/-- The step in which its record comes in. -/
def receiveHello (random : Bytes) (suite : ℕ) (es : List (ℕ × Bytes)) : StepInput :=
  ⟨serverHelloRecord random suite (encodeExtensions es), .zero⟩

/-- A request for P-256 with a cookie. -/
def p256Request : List (ℕ × Bytes) :=
  [(tls13ExtSupportedVersions, putU16 tls13Version),
    (tls13ExtKeyShare, putU16 tls13GroupSecp256r1), (tls13ExtCookie, putU16 2 ++ [7, 8])]

/-- A request that only carries a cookie. -/
def cookieRequest : List (ℕ × Bytes) :=
  [(tls13ExtSupportedVersions, putU16 tls13Version), (tls13ExtCookie, putU16 2 ++ [7, 8])]

/-- The answer to the second ClientHello of a client that was asked for P-256. -/
def p256Answer : List (ℕ × Bytes) :=
  [(tls13ExtSupportedVersions, putU16 tls13Version),
    (tls13ExtKeyShare, putU16s [tls13GroupSecp256r1, 65] ++ List.replicate 65 4)]

/-- A payload without slack, by its fields. -/
theorem helloPayload_of {p random : Bytes} {suite : ℕ} {es : List (ℕ × Bytes)}
    (h : byteAt p 0 = tls13HtServerHello ∧ declaredLen p ≤ p.length ∧ getU16 p 4 = tls12Version ∧
      slice p 6 32 = random ∧ getU16 p (39 + (byteAt p 38).toNat) = suite ∧
      byteAt p (compressionPos p) = 0 ∧ extensionsEnd p ≤ p.length ∧
      (∀ e ∈ es, e.1 < 65536 ∧ e.2.length < 65536) ∧
      slice p (extensionsPos p) (extensionsEnd p - extensionsPos p) = encodeExtensions es) :
    HelloPayload p random suite es := by
  obtain ⟨h1, h2, h3, h4, h5, h6, h7, hfits, hblock⟩ := h
  exact ⟨h1, h2, h3, h4, h5, h6, h7, hfits, [], by decide, hblock.trans (List.append_nil _).symm⟩

/-- Extensions that can be read were accepted. -/
theorem accepted_of_isOk {es : List (ℕ × Bytes)} (h : (readExtensions .empty es).isOk = true) :
    ∀ e ∈ es, AcceptedExt e.1 e.2 := by
  cases hread : readExtensions .empty es with
  | error err => rw [hread] at h; cases h
  | ok x => exact (readExtensions_eq_ok.1 hread).1

theorem generates_zero : ClientRandom.zero.Generates := fun _ _ =>
  ⟨_, _, rfl, by decide, by decide, by decide⟩

theorem offerBounded_none : OfferBounded [1] none 0 :=
  ⟨by decide, fun tk h => (by cases h), by decide⟩

theorem firstRequest_p256 : FirstRequest helloSent
    (receiveHello hrrRandom tlsChacha20Poly1305Sha256 p256Request).recv
    (helloWith hrrRandom tlsChacha20Poly1305Sha256 p256Request) tlsChacha20Poly1305Sha256
    p256Request :=
  ⟨by decide +kernel, by decide +kernel, helloPayload_of (by decide +kernel), by decide +kernel,
    _, by decide +kernel, .inl (List.prefix_refl _)⟩

theorem asksForChange_p256 : AsksForChange p256Request :=
  ⟨fun e he => (accepted_of_isOk (by decide) e he).1, by decide,
    .inl ⟨tls13GroupSecp256r1, by decide, by decide, by decide⟩⟩

theorem firstRequest_cookie : FirstRequest helloSent
    (receiveHello hrrRandom tlsChacha20Poly1305Sha256 cookieRequest).recv
    (helloWith hrrRandom tlsChacha20Poly1305Sha256 cookieRequest) tlsChacha20Poly1305Sha256
    cookieRequest :=
  ⟨by decide +kernel, by decide +kernel, helloPayload_of (by decide +kernel), by decide +kernel,
    _, by decide +kernel, .inl (List.prefix_refl _)⟩

theorem asksForChange_cookie : AsksForChange cookieRequest :=
  ⟨fun e he => (accepted_of_isOk (by decide) e he).1, by decide,
    .inr ⟨putU16 2 ++ [7, 8], by decide, by decide, by decide⟩⟩

/-- The client that was asked for P-256, when it has sent its second ClientHello. -/
def secondSent : Session := (helloSent.step .transparent [1]
  (receiveHello hrrRandom tlsChacha20Poly1305Sha256 p256Request)).step .transparent [1] ⟨[], .zero⟩

example : secondSent.hs.state = .recvServerHello := by decide +kernel

theorem live_p256 : Live .transparent [1] helloSent
    (receiveHello hrrRandom tlsChacha20Poly1305Sha256 p256Request) := by decide +kernel

theorem reach_secondSent : Reach (Session.step .transparent [1]) (Live .transparent [1])
    (helloSent.step .transparent [1]
      (receiveHello hrrRandom tlsChacha20Poly1305Sha256 p256Request)) secondSent :=
  Reach.refl.tail (by decide +kernel)

theorem retry_rules_p256 :
    Answered .transparent [1] helloSent
        (receiveHello hrrRandom tlsChacha20Poly1305Sha256 p256Request) ⟨[], .zero⟩ p256Request ∧
      secondSent.hs.cipherSuite = tlsChacha20Poly1305Sha256 := by
  obtain ⟨hanswered, hkept⟩ :=
    retry_rules_iff .transparent [1] true false none 0 reach_helloSent
  refine ⟨(hanswered _ ⟨[], .zero⟩ _ _ _ firstRequest_p256 asksForChange_p256 (by decide)
    offerBounded_none generates_zero).2 ⟨?_, ?_, ?_⟩, ?_⟩
  · exact ⟨_, by decide +kernel, List.prefix_refl _⟩
  · exact ⟨tls13GroupSecp256r1, by decide, by decide +kernel⟩
  · exact fun data hmem => (accepted_of_isOk (by decide +kernel) _ hmem).2 rfl
  · exact (hkept _ _ _ _ firstRequest_p256.waits (by decide +kernel) firstRequest_p256.message
      live_p256 _ reach_secondSent (by decide +kernel)).1

/-- A request that only carries a cookie is refused, and a ServerHello of another suite than that of
the request is accepted. -/
theorem retry_rules_broken :
    (¬∀ (C : Crypto) (hostname : Bytes) (hasEngine resuming : Bool)
      (offerTicket : Option SessionTicket) (age : ℕ) (s : Session) (i next : StepInput) (m : Bytes)
      (suite : ℕ) (es : List (ℕ × Bytes)),
      Reach (Session.step C hostname) (Live C hostname)
        (Session.start hasEngine resuming offerTicket age) s →
      FirstRequest s i.recv m suite es → AsksForChange es → suite ∈ tls13CipherSuites →
      OfferBounded hostname offerTicket age → next.rnd.Generates →
        Answered C hostname s i next es) ∧
    ¬∀ (C : Crypto) (hostname : Bytes) (hasEngine resuming : Bool)
      (offerTicket : Option SessionTicket) (age : ℕ) (s s' : Session) (i j : StepInput)
      (p p' random : Bytes) (suite suite' : ℕ) (es es' : List (ℕ × Bytes)),
      Reach (Session.step C hostname) (Live C hostname)
        (Session.start hasEngine resuming offerTicket age) s →
      s.hs.state = .recvServerHello → helloPayload i.recv = some p →
      HelloPayload p hrrRandom suite es → Live C hostname s i →
      Reach (Session.step C hostname) (Live C hostname) (s.step C hostname i) s' →
      s'.hs.state = .recvServerHello → helloPayload j.recv = some p' →
      HelloPayload p' random suite' es' → random ≠ hrrRandom →
      (s'.step C hostname j).hs.state = .recvEncryptedExtensions → suite' = suite := by
  constructor
  · intro h
    have hwait : (helloSent.step .transparent [1]
        (receiveHello hrrRandom tlsChacha20Poly1305Sha256 cookieRequest)).hs.state =
          .recvServerHello := by decide +kernel
    have hanswered := h .transparent [1] true false none 0 helloSent
      (receiveHello hrrRandom tlsChacha20Poly1305Sha256 cookieRequest) ⟨[], .zero⟩ _ _ _
      reach_helloSent firstRequest_cookie asksForChange_cookie (by decide) offerBounded_none
      generates_zero
    cases hwait.symm.trans hanswered.resends
  · intro h
    have hother := h .transparent [1] true false none 0 helloSent secondSent
      (receiveHello hrrRandom tlsChacha20Poly1305Sha256 p256Request)
      (receiveHello (List.replicate 32 0) tlsAes128GcmSha256 p256Answer) _
      (helloWith (List.replicate 32 0) tlsAes128GcmSha256 p256Answer) (List.replicate 32 0) _
      tlsAes128GcmSha256 _ p256Answer reach_helloSent firstRequest_p256.waits (by decide +kernel)
      firstRequest_p256.message live_p256 reach_secondSent (by decide +kernel) (by decide +kernel)
      (helloPayload_of (by decide +kernel)) (by decide) (by decide +kernel)
    cases hother

end MacTLS
