import MacTLS.Handshake.Reassembly

/-!
# Which flights are accepted

A flight of handshake messages, cut into encrypted records the way RFC 8446 allows.  The reader
makes room for a whole ciphertext behind what is left over of a message, so a flight is accepted
exactly when every record fits behind the message it cuts (`Fits`).

* `Underway` : where a reader is in a flight; a call keeps it and fails only when the flight does
  not fit (`Underway.loop`);
* `flight_accepted_iff` : no run on a flight fails, and all messages are delivered, if and only if
  the flight fits;
* `flight_refused` : a compliant flight of two messages that is refused.
-/

namespace MacTLS

open Lib

variable {C : Crypto}

/-! ### Flights -/

/-- A record of a flight: a ChangeCipherSpec, or content of handshake messages with zero bytes
behind its type. -/
inductive FlightRecord where
  | ccs
  | handshake (content : Bytes) (pad : ℕ)
  deriving DecidableEq

def FlightRecord.content : FlightRecord → Bytes
  | .ccs => []
  | .handshake content _ => content

/-- What is encrypted. -/
def innerPlaintext (content : Bytes) (pad : ℕ) : Bytes :=
  content ++ tls13CtHandshake :: List.replicate pad 0

/-- The limits of RFC 8446: some content, at most 2^14 bytes of it, and a ciphertext of at most
2^14 + 256 bytes. -/
def FlightRecord.Compliant : FlightRecord → Prop
  | .ccs => True
  | .handshake content pad => content ≠ [] ∧ content.length ≤ 16384 ∧
      content.length + 1 + pad + tls13TagSize ≤ hsBufSize

instance (r : FlightRecord) : Decidable r.Compliant := by
  cases r <;> unfold FlightRecord.Compliant <;> infer_instance

/-- The bytes of a flight, encrypted from the context `ctx` on. -/
def flightBytes (C : Crypto) : RecordCtx → List FlightRecord → Bytes
  | _, [] => []
  | ctx, .ccs :: rs => ccsRecord ++ flightBytes C ctx rs
  | ctx, .handshake content pad :: rs =>
    applicationRecord (protect C ctx (innerPlaintext content pad)) ++ flightBytes C ctx.next rs

/-! ### The message that is cut -/

/-- What is left when the whole messages at the front are taken off. -/
def dropMessages : ℕ → Bytes → Bytes
  | 0, b => b
  | fuel + 1, b => if HasMessage b then dropMessages fuel (b.drop (declaredLen b)) else b

/-- The start of a message behind the whole ones. -/
def partialMessage (b : Bytes) : Bytes := dropMessages b.length b

/-- Every record fits into the buffer behind the start of the message it goes on with. -/
def Fits : Bytes → List FlightRecord → Prop
  | _, [] => True
  | left, .ccs :: rs => Fits left rs
  | left, .handshake content pad :: rs =>
    left.length + (content.length + 1 + pad + tls13TagSize) ≤ hsBufSize ∧
      Fits (partialMessage (left ++ content)) rs

instance decidableFits : ∀ left rs, Decidable (Fits left rs)
  | _, [] => isTrue trivial
  | left, .ccs :: rs => decidableFits left rs
  | left, .handshake content pad :: rs =>
    have := decidableFits (partialMessage (left ++ content)) rs
    inferInstanceAs (Decidable (left.length + (content.length + 1 + pad + tls13TagSize) ≤
      hsBufSize ∧ Fits (partialMessage (left ++ content)) rs))

theorem dropMessages_fuel {b : Bytes} {fuel : ℕ} (h : b.length ≤ fuel) :
    dropMessages fuel b = partialMessage b := by
  suffices H : ∀ n m b, b.length ≤ n → b.length ≤ m → dropMessages n b = dropMessages m b from
    H _ _ _ h (Nat.le_refl _)
  intro n
  induction n with
  | zero =>
    intro m b hn _
    have hnil : b = [] := List.eq_nil_of_length_eq_zero (Nat.le_zero.mp hn)
    cases m with
    | zero => rfl
    | succ m =>
      rw [hnil]
      exact (if_neg fun h => absurd h.1 (by decide)).symm
  | succ n ih =>
    intro m b hn hm
    cases m with
    | zero =>
      have hnil : b = [] := List.eq_nil_of_length_eq_zero (Nat.le_zero.mp hm)
      rw [hnil]
      exact if_neg fun h => absurd h.1 (by decide)
    | succ m =>
      unfold dropMessages
      split_ifs with hb
      · have hlen : (b.drop (declaredLen b)).length ≤ b.length - 4 := by
          rw [List.length_drop]
          unfold declaredLen
          omega
        have h4 := hb.1
        exact ih _ _ (by omega) (by omega)
      · rfl

theorem partialMessage_of_not {b : Bytes} (h : ¬HasMessage b) : partialMessage b = b := by
  unfold partialMessage
  cases b.length with
  | zero => rfl
  | succ n => exact if_neg h

/-- Whole messages at the front do not count. -/
theorem partialMessage_append {msg : Bytes} (h : Framed msg) (b : Bytes) :
    partialMessage (msg ++ b) = partialMessage b := by
  obtain ⟨h4, hlen⟩ := h
  have hdecl : declaredLen (msg ++ b) = msg.length := by rw [declaredLen_header h4, ← hlen]
  have hhas : HasMessage (msg ++ b) := by
    refine ⟨?_, ?_⟩
    · rw [List.length_append]
      omega
    · rw [hdecl, List.length_append]
      omega
  obtain ⟨n, hn⟩ : ∃ n, (msg ++ b).length = n + 1 := ⟨(msg ++ b).length - 1, by
    rw [List.length_append]
    omega⟩
  have hb : b.length ≤ n := by
    rw [List.length_append] at hn
    omega
  rw [← dropMessages_fuel hb]
  unfold partialMessage
  rw [hn]
  unfold dropMessages
  rw [if_pos hhas, hdecl, List.drop_left]
  cases n <;> rfl

/-- The message at the front is determined by the bytes. -/
theorem message_unique {msg msg' b b' : Bytes} (h : Framed msg) (h' : Framed msg')
    (heq : msg ++ b = msg' ++ b') : msg = msg' ∧ b = b' := by
  refine List.append_inj heq ?_
  rw [h.2, h'.2, ← declaredLen_header h.1 b, ← declaredLen_header h'.1 b', heq]

/-! ### Records of a flight -/

theorem applicationRecord_fields {payload : Bytes} (h : payload.length < 65536) :
    (applicationRecord payload).length = 5 + payload.length ∧
      byteAt (applicationRecord payload) 0 = tls13CtApplicationData ∧
      getU16 (applicationRecord payload) 3 = payload.length ∧
      (applicationRecord payload).drop 5 = payload := by
  refine ⟨?_, rfl, ?_, rfl⟩
  · simp [applicationRecord]
    omega
  · have hsplit : applicationRecord payload = [tls13CtApplicationData, 0x03, 0x03] ++
        putU16 payload.length ++ payload := rfl
    rw [hsplit, getU16_append (by simp)]
    simp only [getU16, byteAt, putU16]
    simp
    omega

/-- The record at the front is determined by the bytes. -/
theorem record_unique {recv toCome record rest : Bytes} (hrec : HasRecord recv)
    (h5 : 5 ≤ record.length) (hlen : record.length = 5 + getU16 record 3)
    (heq : recv ++ toCome = record ++ rest) :
    ∃ recv', recv = record ++ recv' ∧ recv' ++ toCome = rest := by
  have hfield : getU16 recv 3 = getU16 record 3 := by
    have h1 := hrec.1
    rw [← getU16_append (t := toCome) (by omega : 3 + 2 ≤ recv.length), heq,
      getU16_append (by omega)]
  have hle := hrec.2
  refine ⟨recv.drop record.length, ?_, ?_⟩
  · have htake := congrArg (List.take record.length) heq
    rw [List.take_left, List.take_append_of_le_length (by omega)] at htake
    rw [← htake]
    conv_rhs => rw [htake]
    rw [← htake, List.length_take, Nat.min_eq_left (by omega), List.take_append_drop]
  · have hdrop := congrArg (List.drop record.length) heq
    rwa [List.drop_left, List.drop_append_of_le_length (by omega)] at hdrop

theorem flatten_ne_nil {msgs : List Bytes} {b b' : Bytes} (hmsgs : ∀ m ∈ msgs, Framed m)
    (h : b ++ b' = msgs.flatten) (hb : b ≠ []) :
    ∃ m rest, msgs = m :: rest ∧ Framed m := by
  cases msgs with
  | nil => exact absurd (List.append_eq_nil_iff.mp h).1 hb
  | cons m rest => exact ⟨m, rest, rfl, hmsgs m List.mem_cons_self⟩

/-! ### A reader in a flight -/

/-- Where a reader is: `rs` are the records not consumed, which begin in `recv` and end in what is
still to come, and `msgs` are the messages not handed up. -/
structure Underway (C : Crypto) (toCome : Bytes) (hs : HsCtx) (recv : Bytes)
    (rs : List FlightRecord) (msgs : List Bytes) : Prop where
  bytes : recv ++ toCome = flightBytes C hs.readCtx rs
  content : hs.leftover ++ rs.flatMap FlightRecord.content = msgs.flatten
  compliant : ∀ r ∈ rs, r.Compliant
  messages : ∀ m ∈ msgs, Framed m ∧ m.length ≤ hsBufSize
  bounded : hs.Bounded

section

variable {toCome : Bytes} {hs hs' : HsCtx} {recv : Bytes} {rs : List FlightRecord}
  {msgs : List Bytes}

/-- The extraction hands up the next message of the flight. -/
theorem Underway.extract (h : Underway C toCome hs recv rs msgs) {e : Extracted}
    (he : Extracts hs e hs') :
    (∃ msg msgs', e = .message msg ∧ msgs = msg :: msgs' ∧
      Underway C toCome hs' recv rs msgs' ∧
      partialMessage hs'.leftover = partialMessage hs.leftover) ∨
    (e = .incomplete ∧ Underway C toCome hs' recv rs msgs ∧ hs'.leftover = hs.leftover ∧
      hs'.plainOffset = 0 ∧ ¬HasMessage hs.leftover) := by
  obtain ⟨hbytes, hcontent, hcompliant, hmessages, hbounded⟩ := h
  cases he with
  | @message msg _ hmsg hfits hleft hctx hb hbuf =>
    have hne : hs.leftover ≠ [] := fun hnil => by
      have hlen := congrArg List.length (hleft.symm.trans hnil)
      rw [List.length_append, List.length_nil] at hlen
      exact absurd hmsg.1 (by omega)
    obtain ⟨m, msgs', rfl, hm⟩ :=
      flatten_ne_nil (fun m hm => (hmessages m hm).1) hcontent hne
    have hsplit := hcontent
    rw [hleft, List.append_assoc, List.flatten_cons] at hsplit
    obtain ⟨rfl, hrest⟩ := message_unique hmsg hm hsplit
    refine Or.inl ⟨msg, msgs', rfl, rfl, ⟨by rw [hctx]; exact hbytes, hrest, hcompliant,
      fun m hm => hmessages m (List.mem_cons_of_mem _ hm), hb⟩, ?_⟩
    rw [hleft, partialMessage_append hmsg]
  | tooLarge hlen hlarge =>
    have hne : hs.leftover ≠ [] := fun hnil => by
      rw [hnil] at hlen
      exact absurd hlen (by decide)
    obtain ⟨m, msgs', rfl, hm⟩ :=
      flatten_ne_nil (fun m hm => (hmessages m hm).1) hcontent hne
    -- the header in the buffer is that of a message that fits
    have hdecl : declaredLen hs.leftover = m.length := by
      rw [← declaredLen_header hlen (rs.flatMap FlightRecord.content), hcontent,
        List.flatten_cons, declaredLen_header hm.1, ← hm.2]
    have hle := (hmessages m List.mem_cons_self).2
    omega
  | incomplete hnone hleft hctx hb hoff hbuf =>
    exact Or.inr ⟨rfl, ⟨by rw [hctx]; exact hbytes, by rw [hleft]; exact hcontent, hcompliant,
      hmessages, hb⟩, hleft, hoff, hnone⟩

theorem length_innerPlaintext (content : Bytes) (pad : ℕ) :
    (innerPlaintext content pad).length = content.length + 1 + pad := by
  simp [innerPlaintext]
  omega

theorem length_payload (ctx : RecordCtx) (content : Bytes) (pad : ℕ) :
    (protect C ctx (innerPlaintext content pad)).length =
      content.length + 1 + pad + tls13TagSize := by
  rw [length_protect, length_innerPlaintext, tls13TagSize]

/-- The record at the front of the received bytes is the next of the flight. -/
theorem Underway.front (h : Underway C toCome hs recv rs msgs) (hrec : HasRecord recv) :
    (∃ rs' recv', rs = .ccs :: rs' ∧ recv = ccsRecord ++ recv' ∧
      recv' ++ toCome = flightBytes C hs.readCtx rs') ∨
    ∃ content pad rs' recv', rs = .handshake content pad :: rs' ∧
      recv = applicationRecord (protect C hs.readCtx (innerPlaintext content pad)) ++ recv' ∧
      recv' ++ toCome = flightBytes C hs.readCtx.next rs' := by
  have hbytes := h.bytes
  cases rs with
  | nil =>
    have hnil := (List.append_eq_nil_iff.mp hbytes).1
    rw [hnil] at hrec
    exact absurd hrec.1 (by decide)
  | cons r rs' =>
    cases r with
    | ccs =>
      obtain ⟨recv', h1, h2⟩ := record_unique hrec (by decide) (by decide) hbytes
      exact Or.inl ⟨rs', recv', rfl, h1, h2⟩
    | handshake content pad =>
      obtain ⟨-, -, hfits⟩ := h.compliant _ List.mem_cons_self
      have hlen := length_payload (C := C) hs.readCtx content pad
      obtain ⟨h1, -, h3, -⟩ := applicationRecord_fields
        (by rw [hlen]; exact Nat.lt_of_le_of_lt hfits (by decide) :
          (protect C hs.readCtx (innerPlaintext content pad)).length < 65536)
      obtain ⟨recv', h1, h2⟩ := record_unique hrec (by omega) (by omega) hbytes
      exact Or.inr ⟨content, pad, rs', recv', rfl, h1, h2⟩

theorem IsRecord.hasRecord {record recv' : Bytes} (h : IsRecord record) :
    HasRecord (record ++ recv') := by
  obtain ⟨h5, hlen, -⟩ := h
  refine ⟨?_, ?_⟩
  · rw [List.length_append]
    omega
  · rw [getU16_append (by omega), List.length_append]
    omega

/-- Two ways to see the record at the front. -/
theorem front_unique {record recv' front rest : Bytes} (h : IsRecord record)
    (h5 : 5 ≤ front.length) (hlen : front.length = 5 + getU16 front 3)
    (heq : record ++ recv' = front ++ rest) : record = front ∧ recv' = rest := by
  refine List.append_inj heq ?_
  have h5' := h.1
  rw [h.2.1, hlen, ← getU16_append (t := recv') (by omega : 3 + 2 ≤ record.length), heq,
    getU16_append (by omega)]

theorem ccsRecord_fields (recv' : Bytes) : getU16 (ccsRecord ++ recv') 3 = 1 ∧
    byteAt (ccsRecord ++ recv') 0 = tls13CtChangeCipherSpec := by
  rw [getU16_append (by decide), byteAt_append (by decide)]
  decide

/-- Taking a ChangeCipherSpec in a flight. -/
theorem Underway.takeCcs {rs' : List FlightRecord} {recv' : Bytes}
    (h : Underway C toCome hs (ccsRecord ++ recv') (.ccs :: rs') msgs)
    (hrest : recv' ++ toCome = flightBytes C hs.readCtx rs') {r : ReadOut ⊕ HsCtx × Bytes}
    (ht : TakesRecord C hs (ccsRecord ++ recv') r) :
    r = .inr (hs, recv') ∧ Underway C toCome hs recv' rs' msgs := by
  obtain ⟨hlen, htype⟩ := ccsRecord_fields recv'
  have happ : ∀ {record recv'' : Bytes}, IsRecord record → ccsRecord ++ recv' = record ++ recv'' →
      record = ccsRecord ∧ recv'' = recv' := fun hwhole hsplit =>
    front_unique hwhole (by decide) (by decide) hsplit.symm
  cases ht with
  | wantRead hno => exact absurd ⟨by rw [List.length_append]; exact Nat.le_add_right_of_le (by decide),
      by rw [hlen, List.length_append]; exact Nat.le_add_right_of_le (by decide)⟩ hno
  | refused hrec hwhy ha =>
    rcases hwhy with hlarge | ⟨hnot, -⟩
    · rw [hlen] at hlarge
      exact absurd hlarge (by decide)
    · exact absurd htype hnot
  | ccs hwhole hsplit hty =>
    obtain ⟨-, rfl⟩ := happ hwhole hsplit
    exact ⟨rfl, hrest, h.content, fun r hr => h.compliant r (List.mem_cons_of_mem _ hr), h.messages,
      h.bounded⟩
  | unexpected hdec hct ha =>
    obtain ⟨hrecord, -⟩ := happ hdec.whole hdec.split
    exact absurd hdec.type (by rw [hrecord]; decide)
  | handshake hdec hoff ha =>
    obtain ⟨hrecord, -⟩ := happ hdec.whole hdec.split
    exact absurd hdec.type (by rw [hrecord]; decide)

/-- Taking an encrypted record in a flight. -/
theorem Underway.takeHandshake {content recv' : Bytes} {pad : ℕ} {rs' : List FlightRecord}
    (h : Underway C toCome hs recv (.handshake content pad :: rs') msgs)
    (hfront : recv = applicationRecord (protect C hs.readCtx (innerPlaintext content pad)) ++ recv')
    (hrest : recv' ++ toCome = flightBytes C hs.readCtx.next rs') (hoff : hs.plainOffset = 0)
    {r : ReadOut ⊕ HsCtx × Bytes} (hrec : HasRecord recv) (ht : TakesRecord C hs recv r) :
    (∃ o, r = .inl o ∧ o.res = .error ∧
      ¬hs.leftover.length + (content.length + 1 + pad + tls13TagSize) ≤ hsBufSize) ∨
    ∃ hs', r = .inr (hs', recv') ∧ Underway C toCome hs' recv' rs' msgs ∧
      hs.leftover.length + (content.length + 1 + pad + tls13TagSize) ≤ hsBufSize ∧
      hs'.leftover = hs.leftover ++ content := by
  have hleft : hs.leftover.length = hs.plainLen := by
    rw [h.bounded.length_leftover, hoff, Nat.sub_zero]
  obtain ⟨-, -, hfits⟩ := h.compliant _ List.mem_cons_self
  have hpay := length_payload (C := C) hs.readCtx content pad
  obtain ⟨h1, h2, h3, h4⟩ := applicationRecord_fields
    (by rw [hpay]; exact Nat.lt_of_le_of_lt hfits (by decide) :
      (protect C hs.readCtx (innerPlaintext content pad)).length < 65536)
  obtain ⟨hctx, hret, hbuf⟩ := tls13RecordDecrypt_protect C hs.readCtx content
    (by decide : tls13CtHandshake ≠ 0) pad
  -- the record the reader took is the one that was sent
  have hsame : ∀ {record recv'' : Bytes}, IsRecord record → recv = record ++ recv'' →
      record = applicationRecord (protect C hs.readCtx (innerPlaintext content pad)) ∧
        recv'' = recv' := fun hwhole hsplit =>
    front_unique hwhole (by omega) (by omega) (hsplit.symm.trans hfront)
  cases ht with
  | wantRead hno => exact absurd hrec hno
  | refused _ hwhy ha =>
    refine Or.inl ⟨_, rfl, rfl, fun hle => ?_⟩
    have hfield : getU16 recv 3 = content.length + 1 + pad + tls13TagSize := by
      rw [hfront, getU16_append (by omega), h3, hpay]
    have htype : byteAt recv 0 = tls13CtApplicationData := by
      rw [hfront, byteAt_append (by omega), h2]
    have hslice : slice recv 5 (getU16 recv 3) =
        protect C hs.readCtx (innerPlaintext content pad) := by
      rw [hfield, hfront, ← hpay, slice_append (by omega), slice, h4, List.take_length]
    -- of the ways to refuse it only a full buffer is left
    rcases hwhy with hlarge | ⟨-, hnot | hfull | hnone⟩
    · omega
    · exact hnot htype
    · omega
    · rw [hslice] at hnone
      cases hnone.symm.trans hret
  | ccs hwhole hsplit hty =>
    obtain ⟨hrecord, -⟩ := hsame hwhole hsplit
    rw [hrecord, h2] at hty
    exact absurd hty (by decide)
  | unexpected hdec hct ha =>
    obtain ⟨hrecord, -⟩ := hsame hdec.whole hdec.split
    have hret' := hdec.ret
    rw [hrecord, h4] at hret'
    exact absurd (Prod.mk.inj (Option.some.inj (hret'.symm.trans hret))).2 hct
  | @handshake hs' record recv'' plaintext ctx hdec hoff' ha =>
    obtain ⟨hrecord, rfl⟩ := hsame hdec.whole hdec.split
    have hret' := hdec.ret
    have hbuf' := hdec.buf
    have hcap := hdec.fits
    have hnext := hdec.next
    rw [hrecord, h4] at hret' hbuf' hcap hnext
    have hlen : plaintext.length = content.length :=
      (Prod.mk.inj (Option.some.inj (hret'.symm.trans hret))).1
    have hplain : plaintext = content := by
      rw [hlen] at hbuf'
      exact hbuf'.symm.trans hbuf
    have hctx' : hs'.readCtx = hs.readCtx.next := ha.readCtx.trans (hnext.trans hctx)
    refine Or.inr ⟨hs', rfl, ⟨by rw [hctx']; exact hrest, ?_, fun r hr => h.compliant r
      (List.mem_cons_of_mem _ hr), h.messages, ha.bounded⟩, by omega, by rw [ha.leftover, hplain]⟩
    have hcontent := h.content
    rw [List.flatMap_cons] at hcontent
    rw [ha.leftover, hplain, List.append_assoc]
    exact hcontent

/-- A call in a flight hands up the next message, or waits for more, or fails because the flight
does not fit. -/
theorem Underway.loop {fuel : ℕ} (hfuel : recv.length < fuel)
    (h : Underway C toCome hs recv rs msgs) :
    let o := readHsLoop C fuel hs recv
    (∃ rs', Underway C toCome o.hs o.recv rs' (msgs.drop o.res.messages.length) ∧
      (Fits (partialMessage hs.leftover) rs ↔ Fits (partialMessage o.hs.leftover) rs') ∧
      o.res.messages <+: msgs ∧
      ((∃ m, o.res = .message m) ∨
        o.res = .wantRead ∧ ¬HasRecord o.recv ∧ ¬HasMessage o.hs.leftover)) ∨
    (o.res = .error ∧ ¬Fits (partialMessage hs.leftover) rs) := by
  induction fuel generalizing hs recv rs with
  | zero => omega
  | succ fuel ih =>
    -- first a message that is there already
    have he := extracts_extractHs h.bounded
    unfold readHsLoop
    generalize extractHs hs = e at he ⊢
    obtain ⟨e, hs₁⟩ := e
    rcases h.extract he with ⟨msg, msgs', heq, hmsgs, h₁, hpart⟩ | ⟨heq, h₁, hleft, hoff, hnone⟩
    · dsimp only at heq
      rw [heq]
      refine Or.inl ⟨rs, ?_, by rw [hpart], ?_, Or.inl ⟨msg, rfl⟩⟩
      · rw [hmsgs]
        exact h₁
      · rw [hmsgs]
        exact ⟨msgs', rfl⟩
    · dsimp only at heq hleft hoff h₁
      rw [heq]
      dsimp only
      -- then the next record of the flight, if it has come in whole
      have ht := @takesRecord_readHsRecord C _ recv h₁.bounded hoff
      rw [← hleft] at hnone ⊢
      have hpart := partialMessage_of_not hnone
      generalize readHsRecord C hs₁ recv = r at ht ⊢
      by_cases hrec : HasRecord recv
      · rcases h₁.front hrec with ⟨rs', recv', rfl, rfl, hrest⟩ |
          ⟨content, pad, rs', recv', rfl, hfront, hrest⟩
        · obtain ⟨rfl, h₂⟩ := h₁.takeCcs hrest ht
          rw [List.length_append] at hfuel
          have hlen : ccsRecord.length = 6 := rfl
          have hnext := ih (by omega) h₂
          exact hnext
        · have hshort : recv'.length < recv.length := by
            have := congrArg List.length hfront
            rw [List.length_append] at this
            have hpos : 0 < (applicationRecord (protect C hs₁.readCtx
              (innerPlaintext content pad))).length := by
              simp [applicationRecord]
            omega
          rcases h₁.takeHandshake hfront hrest hoff hrec ht with ⟨o, rfl, hres, hfit⟩ |
            ⟨hs₂, rfl, h₂, hfit, hleft₂⟩
          · refine Or.inr ⟨hres, fun hfits => hfit ?_⟩
            rw [hpart] at hfits
            exact hfits.1
          · have hiff : Fits (partialMessage hs₁.leftover) (.handshake content pad :: rs') ↔
                Fits (partialMessage hs₂.leftover) rs' := by
              rw [hpart, hleft₂]
              exact ⟨fun h => h.2, fun h => ⟨hfit, h⟩⟩
            have := ih (by omega) h₂
            rwa [← hiff] at this
      · cases ht with
        | wantRead =>
          exact Or.inl ⟨rs, h₁, Iff.rfl, List.nil_prefix, Or.inr ⟨rfl, hrec, hnone⟩⟩
        | refused h => exact absurd h hrec
        | ccs hwhole hsplit => exact absurd (hsplit ▸ hwhole.hasRecord) hrec
        | unexpected hdec => exact absurd (hdec.split ▸ hdec.whole.hasRecord) hrec
        | handshake hdec => exact absurd (hdec.split ▸ hdec.whole.hasRecord) hrec

end

/-! ### Runs on a flight -/

/-- What may happen while a flight arrives. -/
def FlightOk (wire : Bytes) (r : HsReader) (i : HsReaderInput) : Prop :=
  r.Ok i ∧ match i with
    | .arrive bytes => r.received ++ bytes <+: wire
    | _ => True

instance (wire : Bytes) (r : HsReader) (i : HsReaderInput) : Decidable (FlightOk wire r i) :=
  match i with
  | .arrive bytes => inferInstanceAs (Decidable (_ ∧ r.received ++ bytes <+: wire))
  | .call | .process _ => inferInstanceAs (Decidable (_ ∧ True))

/-- Where a reader is after a run on a flight. -/
inductive OnFlight (C : Crypto) (flight : List FlightRecord) (msgs : List Bytes) (wire : Bytes)
    (r : HsReader) : Prop
  | reading {toCome : Bytes} {rs : List FlightRecord} {rest : List Bytes}
      (hok : r.failed = false) (hwire : wire = r.received ++ toCome)
      (h : Underway C toCome r.hs r.recv rs rest) (hmsgs : r.messages ++ rest = msgs)
      (hfits : Fits [] flight ↔ Fits (partialMessage r.hs.leftover) rs) :
      OnFlight C flight msgs wire r
  | failed (hfailed : r.failed = true) (hfits : ¬Fits [] flight) : OnFlight C flight msgs wire r

section

variable {flight : List FlightRecord} {msgs : List Bytes} {wire : Bytes} {r : HsReader}

/-- What a call does to a reader on a flight. -/
theorem OnFlight.call {toCome : Bytes} {rs : List FlightRecord} {rest : List Bytes}
    (hwire : wire = r.received ++ toCome) (h : Underway C toCome r.hs r.recv rs rest)
    (hmsgs : r.messages ++ rest = msgs)
    (hfits : Fits [] flight ↔ Fits (partialMessage r.hs.leftover) rs) :
    OnFlight C flight msgs wire (r.step C .call) := by
  rcases h.loop (Nat.lt_add_one _) with ⟨rs', h', hiff, hpre, hres⟩ | ⟨herr, hnot⟩
  · have hok : (r.step C .call).failed = false := by
      unfold HsReader.step tls13ReadEncryptedHs
      rcases hres with ⟨m, hres⟩ | ⟨hres, -⟩
      all_goals
        dsimp only
        rw [hres]
    refine .reading hok hwire h' ?_ (hfits.trans hiff)
    have hsplit := List.prefix_iff_eq_append.mp hpre
    show r.messages ++ _ ++ _ = _
    rw [List.append_assoc]
    exact (congrArg (r.messages ++ ·) hsplit).trans hmsgs
  · refine .failed ?_ fun h => hnot (hfits.mp h)
    unfold HsReader.step tls13ReadEncryptedHs
    dsimp only
    rw [herr]

theorem onFlight_of_reach {hs : HsCtx} (h₀ : hs.NothingRead)
    (hmsgs : ∀ m ∈ msgs, Framed m ∧ m.length ≤ hsBufSize)
    (hcompliant : ∀ r ∈ flight, r.Compliant)
    (hcontent : flight.flatMap FlightRecord.content = msgs.flatten)
    (h : Reach (HsReader.step C) (FlightOk (flightBytes C hs.readCtx flight)) (.start hs) r) :
    OnFlight C flight msgs (flightBytes C hs.readCtx flight) r := by
  have hleft : hs.leftover = [] := by simp [HsCtx.leftover, h₀.len, slice]
  refine h.invariant (P := OnFlight C flight msgs _) ?_ fun r i hr hi => ?_
  · refine .reading rfl rfl ⟨rfl, ?_, hcompliant, hmsgs, ?_⟩ rfl ?_
    · show hs.leftover ++ _ = _
      rw [hleft]
      exact hcontent
    · exact ⟨by rw [HsReader.start, h₀.offset]; exact Nat.zero_le _,
        by rw [HsReader.start, h₀.len]; exact Nat.zero_le _, h₀.size, fun _ => h₀.len⟩
    · show _ ↔ Fits (partialMessage hs.leftover) _
      rw [hleft]
      exact Iff.rfl
  · obtain ⟨hok, hin⟩ := hi
    cases hr with
    | failed hfailed hfits =>
      cases i with
      | call => cases hfailed.symm.trans hok
      | arrive | process => exact .failed hfailed hfits
    | @reading toCome rs rest hnot hwire hread hmsgs' hfits =>
      cases i with
      | arrive bytes =>
        obtain ⟨more, hmore⟩ := hin
        have hcome : toCome = bytes ++ more := by
          rw [hwire, List.append_assoc] at hmore
          exact (List.append_cancel_left hmore).symm
        refine .reading hnot hmore.symm ⟨?_, hread.content, hread.compliant, hread.messages,
          hread.bounded⟩ hmsgs' hfits
        show r.recv ++ bytes ++ more = _
        rw [List.append_assoc, ← hcome]
        exact hread.bytes
      | call => exact .call hwire hread hmsgs' hfits
      | process hs' =>
        obtain ⟨hctx, hbuf, hlen, hoff⟩ := hok
        have hsame : hs'.leftover = r.hs.leftover := by
          unfold HsCtx.leftover
          rw [hbuf, hlen, hoff]
        refine .reading hnot hwire ⟨?_, ?_, hread.compliant, hread.messages, ?_⟩ hmsgs' ?_
        · show r.recv ++ toCome = flightBytes C hs'.readCtx rs
          rw [hctx]
          exact hread.bytes
        · show hs'.leftover ++ _ = _
          rw [hsame]
          exact hread.content
        · show hs'.Bounded
          have hb := hread.bounded
          exact ⟨by rw [hoff, hlen]; exact hb.offset, by rw [hlen, hbuf]; exact hb.len,
            by rw [hbuf]; exact hb.size, by rw [hoff, hlen]; exact hb.rewound⟩
        · show _ ↔ Fits (partialMessage hs'.leftover) rs
          rw [hsame]
          exact hfits

/-- No run on the flight fails; and once all of it has arrived, every call hands up the next
message until all are delivered. -/
def Accepted (C : Crypto) (hs : HsCtx) (flight : List FlightRecord) (msgs : List Bytes) : Prop :=
  ∀ r, Reach (HsReader.step C) (FlightOk (flightBytes C hs.readCtx flight)) (.start hs) r →
    r.failed = false ∧ (r.received = flightBytes C hs.readCtx flight →
      (∃ m, (tls13ReadEncryptedHs C r.hs r.recv).res = .message m ∧ r.messages ++ [m] <+: msgs) ∨
        (tls13ReadEncryptedHs C r.hs r.recv).res = .wantRead ∧ r.messages = msgs)

/-- A flight of which something is left starts with a whole record. -/
theorem hasRecord_flightBytes {ctx : RecordCtx} {rs : List FlightRecord}
    (hcompliant : ∀ r ∈ rs, r.Compliant) (hne : rs ≠ []) : HasRecord (flightBytes C ctx rs) := by
  cases rs with
  | nil => exact absurd rfl hne
  | cons r rs =>
    cases r with
    | ccs =>
      obtain ⟨hlen, -⟩ := ccsRecord_fields (flightBytes C ctx rs)
      show HasRecord (ccsRecord ++ flightBytes C ctx rs)
      refine ⟨?_, ?_⟩
      · rw [List.length_append]
        exact Nat.le_add_right_of_le (by decide)
      · rw [hlen, List.length_append]
        exact Nat.le_add_right_of_le (by decide)
    | handshake content pad =>
      obtain ⟨-, -, hfits⟩ := hcompliant _ List.mem_cons_self
      have hpay := length_payload (C := C) ctx content pad
      obtain ⟨h1, h2, h3, -⟩ := applicationRecord_fields
        (by rw [hpay]; exact Nat.lt_of_le_of_lt hfits (by decide) :
          (protect C ctx (innerPlaintext content pad)).length < 65536)
      exact IsRecord.hasRecord ⟨by omega, by omega, Or.inr h2⟩

/-- With everything received, a call that waits has seen the whole flight. -/
theorem nil_of_noRecord {hs : HsCtx} {recv : Bytes} {rs : List FlightRecord} {rest : List Bytes}
    (h : Underway C [] hs recv rs rest) (hno : ¬HasRecord recv) : rs = [] := by
  by_contra hne
  have hbytes := h.bytes
  rw [List.append_nil] at hbytes
  rw [hbytes] at hno
  exact hno (hasRecord_flightBytes h.compliant hne)

/-- When nothing is left of the flight and there is no whole message, all is delivered. -/
theorem delivered_of_nil {toCome : Bytes} {hs : HsCtx} {recv : Bytes} {rest : List Bytes}
    (h : Underway C toCome hs recv [] rest) (hno : ¬HasMessage hs.leftover) : rest = [] := by
  cases rest with
  | nil => rfl
  | cons m rest =>
    have hm := (h.messages m List.mem_cons_self).1
    have hcontent := h.content
    rw [List.flatMap_nil, List.append_nil, List.flatten_cons] at hcontent
    refine absurd ?_ hno
    rw [hcontent]
    refine ⟨?_, ?_⟩
    · rw [List.length_append]
      exact Nat.le_add_right_of_le hm.1
    · rw [declaredLen_header hm.1, ← hm.2, List.length_append]
      exact Nat.le_add_right _ _

/-- When all of a flight that does not fit is there, some call fails. -/
theorem exists_failed {hs : HsCtx} {wire : Bytes} {rs : List FlightRecord} {rest : List Bytes}
    (hreach : Reach (HsReader.step C) (FlightOk wire) (.start hs) r) (hok : r.failed = false)
    (h : Underway C [] r.hs r.recv rs rest) (hfits : ¬Fits (partialMessage r.hs.leftover) rs) :
    ∃ r', Reach (HsReader.step C) (FlightOk wire) (.start hs) r' ∧ r'.failed = true := by
  induction hn : rest.length using Nat.strongRecOn generalizing r rs rest with
  | _ n ih =>
    have hcall : Reach (HsReader.step C) (FlightOk wire) (.start hs) (r.step C .call) :=
      .tail hreach (show FlightOk wire r .call from ⟨hok, trivial⟩)
    rcases h.loop (Nat.lt_add_one _) with
      ⟨rs', h', hiff, hpre, ⟨m, hres⟩ | ⟨-, hno, -⟩⟩ | ⟨herr, -⟩
    · -- a message is handed up: go on with the next call
      have hlen : (readHsLoop C (r.recv.length + 1) r.hs r.recv).res.messages.length = 1 := by
        rw [hres]
        rfl
      have hle := hpre.length_le
      have hlt : rest.length - 1 < n := by omega
      refine ih (rest.length - 1) hlt hcall ?_ h' (fun hf => hfits (hiff.mpr hf)) ?_
      · exact HsReader.failed_of_message hres
      · rw [List.length_drop, hlen]
    · have hnil := nil_of_noRecord h' hno
      rw [hnil] at hiff
      exact absurd (hiff.mpr trivial) hfits
    · exact ⟨_, hcall, HsReader.failed_of_error herr⟩

theorem fits_of_accepted {hs : HsCtx} (h₀ : hs.NothingRead)
    (hmsgs : ∀ m ∈ msgs, Framed m ∧ m.length ≤ hsBufSize)
    (hcompliant : ∀ r ∈ flight, r.Compliant)
    (hcontent : flight.flatMap FlightRecord.content = msgs.flatten)
    (hacc : Accepted C hs flight msgs) : Fits [] flight := by
  by_contra hnot
  -- let all of it arrive at once
  have hreach : Reach (HsReader.step C) (FlightOk (flightBytes C hs.readCtx flight)) (.start hs)
      ((HsReader.start hs).step C (.arrive (flightBytes C hs.readCtx flight))) :=
    .tail .refl ⟨trivial, List.prefix_refl _⟩
  have hr := onFlight_of_reach h₀ hmsgs hcompliant hcontent hreach
  cases hr with
  | failed hfailed => cases hfailed
  | @reading toCome rs rest hok hwire h hmsgs' hfits =>
    have hall : flightBytes C hs.readCtx flight = flightBytes C hs.readCtx flight ++ toCome := hwire
    have hnil : toCome = [] := List.append_right_eq_self.mp hall.symm
    rw [hnil] at h
    obtain ⟨r', hr', hfailed⟩ := exists_failed hreach hok h fun hf => hnot (hfits.mpr hf)
    cases hfailed.symm.trans (hacc r' hr').1

theorem accepted_of_fits {hs : HsCtx} (h₀ : hs.NothingRead)
    (hmsgs : ∀ m ∈ msgs, Framed m ∧ m.length ≤ hsBufSize)
    (hcompliant : ∀ r ∈ flight, r.Compliant)
    (hcontent : flight.flatMap FlightRecord.content = msgs.flatten) (hfit : Fits [] flight) :
    Accepted C hs flight msgs := by
  intro r hreach
  have hr := onFlight_of_reach h₀ hmsgs hcompliant hcontent hreach
  cases hr with
  | failed _ hnot => exact absurd hfit hnot
  | @reading toCome rs rest hok hwire h hmsgs' hfits =>
    refine ⟨hok, fun hall => ?_⟩
    have hnil : toCome = [] := by
      rw [← hall] at hwire
      exact List.append_right_eq_self.mp hwire.symm
    rw [hnil] at h
    rcases h.loop (Nat.lt_add_one _) with
      ⟨rs', h', -, hpre, ⟨m, hres⟩ | ⟨hres, hno, hnone⟩⟩ | ⟨-, hnot⟩
    · refine Or.inl ⟨m, hres, ?_⟩
      rw [hres] at hpre
      rw [← hmsgs']
      exact (List.prefix_append_right_inj _).mpr hpre
    · have hrs := nil_of_noRecord h' hno
      rw [hrs, hres] at h'
      have hrest := delivered_of_nil h' hnone
      rw [show rest.drop (ReadResult.wantRead.messages.length) = rest from rfl] at hrest
      refine Or.inr ⟨hres, ?_⟩
      rw [← hmsgs', hrest, List.append_nil]
    · exact absurd (hfits.mp hfit) hnot

/-- **Which flights are accepted.**  For every sequence of messages of at most 16640 bytes and
every compliant division of them into encrypted records: however the bytes arrive, no call fails
and all messages are delivered, if and only if every record fits into the buffer behind the start
of the message it goes on with. -/
theorem flight_accepted_iff {hs : HsCtx} (h₀ : hs.NothingRead)
    (hmsgs : ∀ m ∈ msgs, Framed m ∧ m.length ≤ hsBufSize)
    (hcompliant : ∀ r ∈ flight, r.Compliant)
    (hcontent : flight.flatMap FlightRecord.content = msgs.flatten) :
    Accepted C hs flight msgs ↔ Fits [] flight :=
  ⟨fits_of_accepted h₀ hmsgs hcompliant hcontent, accepted_of_fits h₀ hmsgs hcompliant hcontent⟩

end

/-- EncryptedExtensions in two records, with a ChangeCipherSpec between them. -/
theorem flight_accepted_iff_extensions :
    Accepted .transparent tls13HandshakeInit
      [.handshake [8, 0, 0] 2, .ccs, .handshake [2, 0, 0] 0] [[8, 0, 0, 2, 0, 0]] := by
  have h₀ : tls13HandshakeInit.NothingRead := ⟨rfl, rfl, by decide⟩
  refine (flight_accepted_iff h₀ ?_ ?_ ?_).mpr ?_
  all_goals decide

/-- A Certificate message of 16640 bytes whose first record has 300 of them: the second record is
refused, since its 16357 bytes of ciphertext do not fit behind these. -/
theorem flight_refused :
    ¬∀ (C : Crypto) (hs : HsCtx) (msgs : List Bytes) (flight : List FlightRecord),
      hs.NothingRead → (∀ m ∈ msgs, Framed m ∧ m.length ≤ hsBufSize) →
      (∀ r ∈ flight, r.Compliant) → flight.flatMap FlightRecord.content = msgs.flatten →
      Accepted C hs flight msgs := by
  intro hall
  obtain ⟨first, hfirst⟩ : ∃ first : Bytes, first = [11, 0, 64, 252] ++ List.replicate 296 0 :=
    ⟨_, rfl⟩
  obtain ⟨second, hsecond⟩ : ∃ second : Bytes, second = List.replicate 16340 0 := ⟨_, rfl⟩
  have hlen : first.length = 300 := by rw [hfirst, List.length_append, List.length_replicate]; rfl
  have hlen' : second.length = 16340 := by rw [hsecond, List.length_replicate]
  have hdecl : declaredLen first = 16640 := by
    rw [hfirst, declaredLen_header (by decide)]
    decide
  have hmsgs : ∀ m ∈ [first ++ second], Framed m ∧ m.length ≤ hsBufSize := by
    intro m hm
    rw [List.mem_singleton.mp hm, Framed, declaredLen_header (by omega), hdecl,
      List.length_append, hlen, hlen', hsBufSize]
    omega
  have hcompliant : ∀ r ∈ [FlightRecord.handshake first 0, .handshake second 0],
      r.Compliant := by
    have hne : first ≠ [] ∧ second ≠ [] :=
      ⟨List.ne_nil_of_length_pos (by omega), List.ne_nil_of_length_pos (by omega)⟩
    intro r hr
    rcases List.mem_cons.mp hr with rfl | hr
    · exact ⟨hne.1, by omega, by rw [hlen]; decide⟩
    · rw [List.mem_singleton.mp hr]
      exact ⟨hne.2, by omega, by rw [hlen']; decide⟩
  have hcontent : [FlightRecord.handshake first 0, .handshake second 0].flatMap
      FlightRecord.content = [first ++ second].flatten := by
    simp [FlightRecord.content]
  have hfits := fits_of_accepted ⟨rfl, rfl, by decide⟩ hmsgs hcompliant hcontent
    (hall .transparent tls13HandshakeInit _ _ ⟨rfl, rfl, by decide⟩ hmsgs hcompliant hcontent)
  have hcut := hfits.2.1
  rw [List.nil_append, partialMessage_of_not fun h => by
    have := h.2
    omega, hlen, hlen'] at hcut
  exact absurd hcut (by decide)

end MacTLS
