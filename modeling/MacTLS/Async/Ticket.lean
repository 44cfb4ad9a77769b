import Mathlib.Data.List.Induction
import MacTLS.Async.Cache
import MacTLS.Handshake.ServerHello
import MacTLS.Lib.Decoder

/-!
# NewSessionTicket messages

The parser of NewSessionTicket against the format of the message, and what the messages after a
handshake leave in the stash of the context.

* `tls13ParseNewSessionTicket_eq` : the parser decodes the declared body, and nothing behind the
  ticket;
* `newSessionTicket_exact` : the verdict and the ticket are those of the encoded fields;
* `stash_whole` : while no message is torn, the stash holds the ticket of one message;
* `refused_unchanged_iff` : a refused message leaves the stash alone exactly when it is not torn;
* `stash_torn` : lifetime and age of one message with the ticket of another.
-/

namespace MacTLS

open Lib Lib.Decoder Lib.Hkdf

/-! ### The format -/

/-- The fields of a NewSessionTicket up to its ticket. -/
structure NewSessionTicket where
  lifetime : ℕ
  ageAdd : ℕ
  nonce : Bytes
  ticket : Bytes
  deriving DecidableEq

/-- `ticket_lifetime`, `ticket_age_add`, `ticket_nonce<0..255>`, `ticket<1..512>`. -/
def newSessionTicket : Decoder UInt8 NewSessionTicket :=
  number 4 >>= fun lifetime => number 4 >>= fun ageAdd => vector 1 0 255 >>= fun nonce =>
    vector 2 1 tls13MaxTicketLen >>= fun ticket => pure ⟨lifetime, ageAdd, nonce, ticket⟩

/-- The declared body of a handshake message. -/
def messageBody (msg : Bytes) : Bytes := slice msg 4 (getU24 msg 1)

/-- The fields that the body of a message starts with, if it does. -/
def ticketOf (msg : Bytes) : Option NewSessionTicket :=
  (newSessionTicket.read (messageBody msg)).map (·.1)

/-- A ticket message, with the declared body inside of it. -/
def IsTicketMessage (msg : Bytes) : Prop :=
  4 ≤ msg.length ∧ byteAt msg 0 = tls13HtNewSessionTicket ∧ declaredLen msg ≤ msg.length

instance (msg : Bytes) : Decidable (IsTicketMessage msg) := by
  unfold IsTicketMessage
  infer_instance

/-- The stash for a ticket, with the PSK minted from the resumption master secret. -/
def mintTicket (C : Crypto) (hs : HsCtx) (t : NewSessionTicket) : SessionTicket where
  valid := true
  psk := tls13KsDeriveResumptionPsk C hs.ks hs.resMaster t.nonce
  cipherSuite := hs.cipherSuite
  lifetime := t.lifetime
  ageAdd := t.ageAdd
  ticket := t.ticket

/-! ### Numbers at an offset -/

theorem bigEndian_slice_one {b : Bytes} {p : ℕ} (h : p + 1 ≤ b.length) :
    bigEndian (slice b p 1) = (byteAt b p).toNat := by
  obtain ⟨x, rest, hb⟩ : ∃ x rest, b.drop p = x :: rest :=
    List.exists_cons_of_ne_nil (List.ne_nil_of_length_pos (by rw [List.length_drop]; omega))
  have hx : byteAt b p = x := by
    have := byteAt_drop b p 0
    rw [hb] at this
    exact this.symm
  rw [slice, hb, hx]
  exact Nat.zero_add _

theorem bigEndian_slice_succ {b : Bytes} {p n : ℕ} (h : p + (n + 1) ≤ b.length) :
    bigEndian (slice b p (n + 1)) =
      (byteAt b p).toNat * 256 ^ n + bigEndian (slice b (p + 1) n) := by
  rw [slice_split b p (Nat.le_add_left 1 n), bigEndian_append, bigEndian_slice_one (by omega),
    Nat.add_sub_cancel, length_slice (by omega)]

theorem bigEndian_getU16 {b : Bytes} {p : ℕ} (h : p + 2 ≤ b.length) :
    bigEndian (slice b p 2) = getU16 b p := by
  rw [bigEndian_slice_succ h, bigEndian_slice_one (by omega)]
  rfl

theorem bigEndian_getU32 {b : Bytes} {p : ℕ} (h : p + 4 ≤ b.length) :
    bigEndian (slice b p 4) = getU32 b p := by
  rw [bigEndian_slice_succ h, bigEndian_slice_succ (by omega), bigEndian_slice_succ (by omega),
    bigEndian_slice_one (by omega), getU32]
  simp only [Nat.add_assoc]
  ring

/-! ### The parser -/

/-- What the decoder makes of a body, by offsets. -/
theorem read_newSessionTicket (b : Bytes) : newSessionTicket.read b =
    let nonceLen := (byteAt b 8).toNat
    let pos := 9 + nonceLen
    let tlen := getU16 b pos
    if 9 ≤ b.length ∧ pos + 2 ≤ b.length ∧ (1 ≤ tlen ∧ tlen ≤ tls13MaxTicketLen) ∧
        pos + 2 + tlen ≤ b.length then
      some (⟨getU32 b 0, getU32 b 4, slice b 9 nonceLen, slice b (pos + 2) tlen⟩,
        b.drop (pos + 2 + tlen))
    else none := by
  dsimp only
  rw [newSessionTicket, read_andThen, read_number]
  by_cases h9 : 9 ≤ b.length
  · have hlifetime : bigEndian (b.take 4) = getU32 b 0 :=
      (bigEndian_getU32 (b := b) (p := 0) (by omega) :)
    have hage : bigEndian ((b.drop 4).take 4) = getU32 b 4 := bigEndian_getU32 (by omega)
    have hnonce : bigEndian ((b.drop 8).take 1) = (byteAt b 8).toNat :=
      bigEndian_slice_one (by omega)
    have hbyte : (byteAt b 8).toNat ≤ 255 := Nat.le_of_lt_succ (toNat_lt_256 _)
    rw [if_pos (by omega), Option.bind_some, read_andThen, read_number]
    dsimp only
    rw [if_pos (by rw [List.length_drop]; omega), Option.bind_some, read_andThen, read_vector,
      List.drop_drop, hnonce, hlifetime, hage, List.length_drop, List.drop_drop, List.drop_drop]
    generalize (byteAt b 8).toNat = nonceLen at hbyte ⊢
    by_cases hpos : 9 + nonceLen + 2 ≤ b.length
    · have htlen : bigEndian ((b.drop (9 + nonceLen)).take 2) = getU16 b (9 + nonceLen) :=
        bigEndian_getU16 (by omega)
      rw [if_pos ⟨by omega, ⟨Nat.zero_le _, hbyte⟩, by omega⟩, Option.bind_some, read_andThen,
        read_vector]
      dsimp only
      rw [show 4 + 4 + (1 + nonceLen) = 9 + nonceLen by omega, htlen, List.length_drop,
        List.drop_drop, List.drop_drop]
      generalize getU16 b (9 + nonceLen) = tlen
      by_cases hfit : (1 ≤ tlen ∧ tlen ≤ tls13MaxTicketLen) ∧ 9 + nonceLen + 2 + tlen ≤ b.length
      · rw [if_pos ⟨by omega, hfit.1, by omega⟩, if_pos ⟨h9, hpos, hfit⟩, Option.bind_some,
          ← Nat.add_assoc]
        rfl
      · rw [if_neg (fun h => hfit ⟨h.2.1, by omega⟩), if_neg (fun h => hfit h.2.2)]
        rfl
    · by_cases hroom : 9 + nonceLen ≤ b.length
      · rw [if_pos ⟨by omega, ⟨Nat.zero_le _, hbyte⟩, by omega⟩, Option.bind_some, read_andThen,
          read_vector, if_neg (fun h => hpos (by have := h.1; rw [List.length_drop] at this; omega)),
          if_neg (fun h => hpos h.2.1)]
        rfl
      · rw [if_neg (fun h => hroom (by omega)), if_neg (fun h => hpos h.2.1)]
        rfl
  · rw [if_neg (c := 9 ≤ b.length ∧ _) (fun h => h9 h.1)]
    by_cases h4 : 4 ≤ b.length
    · rw [if_pos h4, Option.bind_some, read_andThen, read_number]
      dsimp only
      by_cases h8 : 4 ≤ (b.drop 4).length
      · rw [if_pos h8, Option.bind_some, read_andThen, read_vector, if_neg (fun h => h9 ?_)]
        · rfl
        · have := h.1
          rw [List.length_drop, List.length_drop] at this
          omega
      · rw [if_neg h8]
        rfl
    · rw [if_neg h4]
      rfl

theorem slice_messageBody {msg : Bytes} {p len : ℕ} (h : p + len ≤ getU24 msg 1) :
    slice (messageBody msg) p len = slice msg (4 + p) len := by
  rw [messageBody, slice, slice, List.drop_take, List.take_take, List.drop_drop,
    Nat.min_eq_left (by omega)]
  rfl

theorem byteAt_messageBody {msg : Bytes} {p : ℕ} (h : p < getU24 msg 1) :
    byteAt (messageBody msg) p = byteAt msg (4 + p) := by
  rw [messageBody, slice, byteAt_take h, byteAt_drop]

theorem getU16_messageBody {msg : Bytes} {p : ℕ} (h : p + 2 ≤ getU24 msg 1) :
    getU16 (messageBody msg) p = getU16 msg (4 + p) := by
  rw [getU16, getU16, byteAt_messageBody (by omega), byteAt_messageBody (by omega)]
  rfl

theorem getU32_messageBody {msg : Bytes} {p : ℕ} (h : p + 4 ≤ getU24 msg 1) :
    getU32 (messageBody msg) p = getU32 msg (4 + p) := by
  rw [getU32, getU32, byteAt_messageBody (by omega), byteAt_messageBody (by omega),
    byteAt_messageBody (by omega), byteAt_messageBody (by omega)]
  rfl

theorem length_messageBody {msg : Bytes} (h : declaredLen msg ≤ msg.length) :
    (messageBody msg).length = getU24 msg 1 := length_slice h

/-- The fields by their offsets in the message. -/
theorem ticketOf_eq {msg : Bytes} (h : declaredLen msg ≤ msg.length) : ticketOf msg =
    let pos := 13 + (byteAt msg 12).toNat
    let tlen := getU16 msg pos
    if 13 ≤ declaredLen msg ∧ pos + 2 ≤ declaredLen msg ∧ (1 ≤ tlen ∧ tlen ≤ tls13MaxTicketLen) ∧
        pos + 2 + tlen ≤ declaredLen msg then
      some ⟨getU32 msg 4, getU32 msg 8, slice msg 13 (byteAt msg 12).toNat,
        slice msg (pos + 2) tlen⟩
    else none := by
  have hlen := length_messageBody h
  have hdecl : declaredLen msg = 4 + getU24 msg 1 := rfl
  rw [ticketOf, read_newSessionTicket]
  dsimp only
  rw [hlen]
  by_cases h9 : 9 ≤ getU24 msg 1
  swap
  · rw [if_neg (fun h => h9 h.1), if_neg (fun h => by omega)]
    rfl
  rw [show byteAt (messageBody msg) 8 = byteAt msg 12 from byteAt_messageBody (by omega)]
  generalize (byteAt msg 12).toNat = nonceLen
  by_cases hpos : 9 + nonceLen + 2 ≤ getU24 msg 1
  swap
  · rw [if_neg (fun h => hpos h.2.1), if_neg (fun h => by omega)]
    rfl
  have htlen : getU16 (messageBody msg) (9 + nonceLen) = getU16 msg (13 + nonceLen) := by
    rw [show 13 + nonceLen = 4 + (9 + nonceLen) by omega]
    exact getU16_messageBody (by omega)
  rw [htlen]
  by_cases hfit : (1 ≤ getU16 msg (13 + nonceLen) ∧
      getU16 msg (13 + nonceLen) ≤ tls13MaxTicketLen) ∧
      9 + nonceLen + 2 + getU16 msg (13 + nonceLen) ≤ getU24 msg 1
  swap
  · rw [if_neg (fun h => hfit h.2.2), if_neg (fun h => hfit ⟨h.2.2.1, by omega⟩)]
    rfl
  rw [if_pos ⟨h9, hpos, hfit⟩, if_pos ⟨by omega, by omega, hfit.1, by omega⟩, Option.map_some,
    getU32_messageBody (by omega), getU32_messageBody (by omega), slice_messageBody (by omega),
    slice_messageBody (by omega), show 4 + (9 + nonceLen + 2) = 13 + nonceLen + 2 by omega]

/-- What a refused ticket message leaves behind of the ticket: its first two fields, once the body
has room for them. -/
def tornTicket (msg : Bytes) (out : SessionTicket) : SessionTicket :=
  if 12 ≤ declaredLen msg then { out with lifetime := getU32 msg 4, ageAdd := getU32 msg 8 }
  else out

theorem tls13ParseNewSessionTicket_eq (C : Crypto) (hs : HsCtx) (msg : Bytes)
    (out : SessionTicket) : tls13ParseNewSessionTicket C hs msg out =
      if hs.resMasterValid = true ∧ IsTicketMessage msg then
        match ticketOf msg with
        | some t => (true, mintTicket C hs t)
        | none => (false, tornTicket msg out)
      else (false, out) := by
  have hdecl : declaredLen msg = 4 + getU24 msg 1 := rfl
  unfold tls13ParseNewSessionTicket
  by_cases hok : hs.resMasterValid = true ∧ IsTicketMessage msg
  · obtain ⟨hmaster, hlen, htype, hlim⟩ := id hok
    rw [if_pos hok, ticketOf_eq hlim, tornTicket, if_neg (by simpa using hmaster),
      if_neg (by omega), if_neg (not_not.2 htype), ← hdecl, if_neg (by omega)]
    dsimp only
    generalize getU16 msg (13 + (byteAt msg 12).toNat) = tlen
    generalize (byteAt msg 12).toNat = nonceLen
    split_ifs <;> first | rfl | omega
  · rw [if_neg hok]
    by_cases hmaster : hs.resMasterValid = true
    swap
    · exact if_pos (by simpa using hmaster)
    by_cases hlen : msg.length < 4
    · rw [if_neg (by simpa using hmaster), if_pos hlen]
    by_cases htype : byteAt msg 0 = tls13HtNewSessionTicket
    swap
    · rw [if_neg (by simpa using hmaster), if_neg hlen, if_pos htype]
    have hlim : 4 + getU24 msg 1 > msg.length :=
      Nat.not_le.1 fun h => hok ⟨hmaster, Nat.not_lt.1 hlen, htype, h⟩
    rw [if_neg (by simpa using hmaster), if_neg hlen, if_neg (not_not.2 htype)]
    exact if_pos hlim

/-- Where the ticket of a message ends, or its body if that is shorter. -/
def ticketEnd (msg : Bytes) : ℕ :=
  let pos := 13 + (byteAt msg 12).toNat
  if declaredLen msg < 13 ∨ declaredLen msg < pos + 2 then declaredLen msg
  else min (declaredLen msg) (pos + 2 + getU16 msg pos)

theorem slice_congr {a b : Bytes} {off len : ℕ} (ha : off + len ≤ a.length)
    (hb : off + len ≤ b.length) (h : ∀ i < off + len, byteAt a i = byteAt b i) :
    slice a off len = slice b off len := by
  apply List.ext_getElem ((length_slice ha).trans (length_slice hb).symm)
  intro i h1 h2
  have hi : i < len := by rwa [length_slice ha] at h1
  have hbyte := h (off + i) (by omega)
  simp only [byteAt, List.getD_eq_getElem?_getD] at hbyte
  rw [List.getElem?_eq_getElem (by omega), List.getElem?_eq_getElem (by omega)] at hbyte
  simpa [slice] using hbyte

/-- `msg'` is the message `msg` up to the end of the ticket, and its body fits if that of `msg`
does. -/
structure AgreesUpToTicket (msg msg' : Bytes) : Prop where
  byte : ∀ i < ticketEnd msg, byteAt msg' i = byteAt msg i
  fits : declaredLen msg ≤ msg'.length ↔ declaredLen msg ≤ msg.length

/-- The ticket ends behind the first fields, if the body has room for them. -/
theorem le_ticketEnd (msg : Bytes) : min (declaredLen msg) 13 ≤ ticketEnd msg := by
  unfold ticketEnd
  dsimp only
  split_ifs <;> omega

section

variable {msg msg' : Bytes} (h : AgreesUpToTicket msg msg')
include h

theorem AgreesUpToTicket.getU16 {p : ℕ} (hp : p + 2 ≤ ticketEnd msg) :
    getU16 msg' p = MacTLS.getU16 msg p := by
  rw [MacTLS.getU16, MacTLS.getU16, h.byte p (by omega), h.byte (p + 1) (by omega)]

theorem AgreesUpToTicket.getU32 {p : ℕ} (hp : p + 4 ≤ ticketEnd msg) :
    getU32 msg' p = MacTLS.getU32 msg p := by
  rw [MacTLS.getU32, MacTLS.getU32, h.byte p (by omega), h.byte (p + 1) (by omega),
    h.byte (p + 2) (by omega), h.byte (p + 3) (by omega)]

theorem AgreesUpToTicket.declaredLen : declaredLen msg' = MacTLS.declaredLen msg := by
  have hlow := le_ticketEnd msg
  have hdecl : MacTLS.declaredLen msg = 4 + getU24 msg 1 := rfl
  rw [MacTLS.declaredLen, MacTLS.declaredLen, getU24, getU24, h.byte 1 (by omega),
    h.byte 2 (by omega), h.byte 3 (by omega)]

theorem AgreesUpToTicket.isTicketMessage : IsTicketMessage msg' ↔ IsTicketMessage msg := by
  have hlow := le_ticketEnd msg
  have hdecl : MacTLS.declaredLen msg = 4 + getU24 msg 1 := rfl
  have hfits := h.fits
  unfold IsTicketMessage
  rw [h.declaredLen, h.byte 0 (by omega)]
  exact ⟨fun h => ⟨by omega, h.2.1, by omega⟩, fun h => ⟨by omega, h.2.1, by omega⟩⟩

theorem AgreesUpToTicket.tornTicket (out : SessionTicket) :
    tornTicket msg' out = MacTLS.tornTicket msg out := by
  have hlow := le_ticketEnd msg
  rw [MacTLS.tornTicket, MacTLS.tornTicket, h.declaredLen]
  split_ifs
  · rw [h.getU32 (by omega), h.getU32 (by omega)]
  · rfl

theorem AgreesUpToTicket.ticketOf (hlim : MacTLS.declaredLen msg ≤ msg.length) :
    ticketOf msg' = MacTLS.ticketOf msg := by
  have hlow := le_ticketEnd msg
  have hlim' := h.fits.2 hlim
  rw [ticketOf_eq hlim, ticketOf_eq (h.declaredLen.trans_le hlim'), h.declaredLen]
  dsimp only
  by_cases h13 : 13 ≤ MacTLS.declaredLen msg
  swap
  · rw [if_neg (fun h => h13 h.1), if_neg (fun h => h13 h.1)]
  rw [h.byte 12 (by omega)]
  by_cases hpos : 13 + (byteAt msg 12).toNat + 2 ≤ MacTLS.declaredLen msg
  swap
  · rw [if_neg (fun h => hpos h.2.1), if_neg (fun h => hpos h.2.1)]
  have hend : ticketEnd msg = min (MacTLS.declaredLen msg) (13 + (byteAt msg 12).toNat + 2 +
      MacTLS.getU16 msg (13 + (byteAt msg 12).toNat)) := if_neg (by omega)
  rw [h.getU16 (by omega)]
  split_ifs with hfit
  · rw [h.getU32 (by omega), h.getU32 (by omega),
      slice_congr (by omega) (by omega) fun i hi => h.byte i (by omega),
      slice_congr (by omega) (by omega) fun i hi => h.byte i (by omega)]
  · rfl

/-- No byte behind the ticket matters. -/
theorem tls13ParseNewSessionTicket_congr (C : Crypto) (hs : HsCtx) (out : SessionTicket) :
    tls13ParseNewSessionTicket C hs msg' out = tls13ParseNewSessionTicket C hs msg out := by
  rw [tls13ParseNewSessionTicket_eq, tls13ParseNewSessionTicket_eq]
  by_cases hok : hs.resMasterValid = true ∧ IsTicketMessage msg
  · rw [if_pos hok, if_pos ⟨hok.1, h.isTicketMessage.2 hok.2⟩, h.ticketOf hok.2.2.2, h.tornTicket]
  · rw [if_neg hok, if_neg fun h' => hok ⟨h'.1, h.isTicketMessage.1 h'.2⟩]

end

/-! ### What is read -/

/-- A read of `n` bytes at `p`, which is stuck when they are not all inside of the buffer. -/
def readAt {α : Type} (b : Bytes) (p n : ℕ) (x : α) : Option α :=
  if p + n ≤ b.length then some x else none

theorem readAt_inside {α : Type} {b : Bytes} {p n : ℕ} (h : p + n ≤ b.length) (x : α) :
    readAt b p n x = some x := if_pos h

/-- `tls13_parse_new_session_ticket`, with every read checked. -/
def tls13ParseNewSessionTicketReads (C : Crypto) (hs : HsCtx) (msg : Bytes)
    (out : SessionTicket) : Option (Bool × SessionTicket) :=
  if !hs.resMasterValid then some (false, out)
  else if msg.length < 4 then some (false, out)
  else (readAt msg 0 1 (byteAt msg 0)).bind fun type =>
    if type ≠ tls13HtNewSessionTicket then some (false, out)
    else (readAt msg 1 3 (getU24 msg 1)).bind fun bodyLen =>
      let lim := 4 + bodyLen
      if lim > msg.length then some (false, out)
      else if 12 > lim then some (false, out)
      else (readAt msg 4 4 (getU32 msg 4)).bind fun lifetime =>
        (readAt msg 8 4 (getU32 msg 8)).bind fun ageAdd =>
          let out := { out with lifetime, ageAdd }
          if 13 > lim then some (false, out)
          else (readAt msg 12 1 (byteAt msg 12).toNat).bind fun nonceLen =>
            if 13 + nonceLen > lim then some (false, out)
            else
              let off := 13 + nonceLen
              if off + 2 > lim then some (false, out)
              else (readAt msg off 2 (getU16 msg off)).bind fun tlen =>
                if tlen = 0 ∨ off + 2 + tlen > lim then some (false, out)
                else if tlen > tls13MaxTicketLen then some (false, out)
                else (readAt msg (off + 2) tlen (slice msg (off + 2) tlen)).bind fun ticket =>
                  (readAt msg 13 nonceLen (slice msg 13 nonceLen)).bind fun nonce =>
                    some (true,
                      { out with
                        ticket
                        cipherSuite := hs.cipherSuite
                        psk := tls13KsDeriveResumptionPsk C hs.ks hs.resMaster nonce
                        valid := true })

/-- No read is stuck. -/
theorem tls13ParseNewSessionTicketReads_eq (C : Crypto) (hs : HsCtx) (msg : Bytes)
    (out : SessionTicket) : tls13ParseNewSessionTicketReads C hs msg out =
      some (tls13ParseNewSessionTicket C hs msg out) := by
  unfold tls13ParseNewSessionTicketReads tls13ParseNewSessionTicket
  by_cases hmaster : (!hs.resMasterValid) = true
  · rw [if_pos hmaster, if_pos hmaster]
  rw [if_neg hmaster, if_neg hmaster]
  by_cases hlen : msg.length < 4
  · rw [if_pos hlen, if_pos hlen]
  rw [if_neg hlen, if_neg hlen, readAt_inside (by omega), Option.bind_some]
  by_cases htype : byteAt msg 0 ≠ tls13HtNewSessionTicket
  · rw [if_pos htype, if_pos htype]
  rw [if_neg htype, if_neg htype, readAt_inside (by omega), Option.bind_some]
  dsimp only
  by_cases hlim : 4 + getU24 msg 1 > msg.length
  · rw [if_pos hlim, if_pos hlim]
  rw [if_neg hlim, if_neg hlim]
  by_cases h12 : 12 > 4 + getU24 msg 1
  · rw [if_pos h12, if_pos h12]
  rw [if_neg h12, if_neg h12, readAt_inside (by omega), Option.bind_some,
    readAt_inside (by omega), Option.bind_some]
  by_cases h13 : 13 > 4 + getU24 msg 1
  · rw [if_pos h13, if_pos h13]
  rw [if_neg h13, if_neg h13, readAt_inside (by omega), Option.bind_some]
  generalize (byteAt msg 12).toNat = nonceLen
  by_cases hnonce : 13 + nonceLen > 4 + getU24 msg 1
  · rw [if_pos hnonce, if_pos hnonce]
  rw [if_neg hnonce, if_neg hnonce]
  by_cases htlen : 13 + nonceLen + 2 > 4 + getU24 msg 1
  · rw [if_pos htlen, if_pos htlen]
  rw [if_neg htlen, if_neg htlen, readAt_inside (by omega), Option.bind_some]
  generalize getU16 msg (13 + nonceLen) = tlen
  by_cases hfit : tlen = 0 ∨ 13 + nonceLen + 2 + tlen > 4 + getU24 msg 1
  · rw [if_pos hfit, if_pos hfit]
  rw [if_neg hfit, if_neg hfit]
  by_cases hmax : tlen > tls13MaxTicketLen
  · rw [if_pos hmax, if_pos hmax]
  rw [if_neg hmax, if_neg hmax, readAt_inside (by omega), Option.bind_some,
    readAt_inside (by omega), Option.bind_some]

/-! ### The verdict and the ticket -/

/-- The parser accepts exactly the messages whose body starts with the fields of a ticket, once
there is a resumption master secret.  The outputs are those fields, with the PSK of their nonce;
nothing behind the ticket matters, and nothing outside of the message is read. -/
theorem newSessionTicket_exact (C : Crypto) (hs : HsCtx) (msg : Bytes) (out : SessionTicket) :
    let r := tls13ParseNewSessionTicket C hs msg out
    (r.1 = true ↔ hs.resMasterValid = true ∧ IsTicketMessage msg ∧ ticketOf msg ≠ none) ∧
    (r.1 = true → ∀ t ∈ ticketOf msg,
      r.2.lifetime = t.lifetime ∧ r.2.ageAdd = t.ageAdd ∧ r.2.ticket = t.ticket ∧
      r.2.cipherSuite = hs.cipherSuite ∧
      (hs.ks.hashLen = hs.ks.hash.size → r.2.psk.length = hs.ks.hashLen ∧
        r.2.psk = (C.schedule hs.ks.hash).expandLabel (hs.resMaster.take hs.ks.hashLen)
          "resumption" t.nonce hs.ks.hashLen)) ∧
    (∀ msg', AgreesUpToTicket msg msg' → tls13ParseNewSessionTicket C hs msg' out = r) ∧
    tls13ParseNewSessionTicketReads C hs msg out = some r := by
  dsimp only
  refine ⟨?_, ?_, fun msg' h => tls13ParseNewSessionTicket_congr h C hs out,
    tls13ParseNewSessionTicketReads_eq C hs msg out⟩
  · rw [tls13ParseNewSessionTicket_eq]
    split_ifs with hok
    · cases ht : ticketOf msg with
      | none => exact ⟨fun h => (by cases h), fun h => absurd rfl h.2.2⟩
      | some t => exact ⟨fun _ => ⟨hok.1, hok.2, by simp⟩, fun _ => rfl⟩
    · exact ⟨fun h => (by cases h), fun h => absurd ⟨h.1, h.2.1⟩ hok⟩
  · intro hr t ht
    rw [tls13ParseNewSessionTicket_eq] at hr ⊢
    split_ifs at hr ⊢ with hok
    rw [Option.mem_def.1 ht]
    refine ⟨rfl, rfl, rfl, rfl, fun hks => ?_⟩
    have hlen : hs.ks.hashLen ≤ hs.ks.hash.size := Nat.le_of_eq hks
    refine ⟨?_, hkdfExpandLabel_eq hlen⟩
    exact List.length_take_of_le (hlen.trans_eq (C.hmac_length ..).symm)

/-- A context that can mint PSKs. -/
def ticketCtx : HsCtx :=
  { tls13HandshakeInit with
    ks := tls13KsInit .transparent .sha256
    cipherSuite := tlsAes128GcmSha256
    resMaster := List.replicate 64 3
    resMasterValid := true }

/-- A lifetime of a day, a nonce of two bytes, a ticket of five, and no extensions. -/
def ticketMessage : Bytes :=
  [0x04, 0x00, 0x00, 0x14, 0x00, 0x01, 0x51, 0x80, 0xAA, 0xBB, 0xCC, 0xDD, 0x02, 0x00, 0x00,
    0x00, 0x05, 0x11, 0x22, 0x33, 0x44, 0x55, 0x00, 0x00]

theorem newSessionTicket_exact_day :
    let r := tls13ParseNewSessionTicket .transparent ticketCtx ticketMessage .empty
    r.1 = true ∧ r.2.lifetime = 86400 ∧ r.2.ticket = [0x11, 0x22, 0x33, 0x44, 0x55] := by
  obtain ⟨haccepted, hfields, -⟩ :=
    newSessionTicket_exact .transparent ticketCtx ticketMessage .empty
  have hr := haccepted.2 (by decide +kernel)
  obtain ⟨hlifetime, -, hticket, -⟩ := hfields hr
    ⟨86400, 0xAABBCCDD, [0, 0], [0x11, 0x22, 0x33, 0x44, 0x55]⟩ (by decide +kernel)
  exact ⟨hr, hlifetime, hticket⟩

/-! ### The stash -/

/-- The context after messages have been handled. -/
def afterMessages (C : Crypto) (hs : HsCtx) (msgs : List Bytes) : HsCtx :=
  msgs.foldl (fun hs msg => (tls13HandlePostHandshake C hs msg).2) hs

/-- The message is refused, but not before its lifetime and age were stored. -/
def Torn (msg : Bytes) : Prop :=
  IsTicketMessage msg ∧ 12 ≤ declaredLen msg ∧ ticketOf msg = none

/-- A torn message comes while there is a stash, with another lifetime or age than that of the
stash. -/
def Tears (hs : HsCtx) (msg : Bytes) : Prop :=
  hs.ticketValid = true ∧ hs.resMasterValid = true ∧ Torn msg ∧
    (getU32 msg 4 ≠ hs.ticket.lifetime ∨ getU32 msg 8 ≠ hs.ticket.ageAdd)

/-- If there is a stash, it is the ticket of one message that was accepted. -/
def StashFrom (C : Crypto) (hs₀ : HsCtx) (msgs : List Bytes) (hs : HsCtx) : Prop :=
  hs.ticketValid = true → ∃ msg ∈ msgs, IsTicketMessage msg ∧ ∃ t ∈ ticketOf msg,
    hs.ticket = mintTicket C hs₀ t

/-- The message is refused. -/
def RefusesTicket (C : Crypto) (hs : HsCtx) (msg : Bytes) : Prop :=
  (tls13ParseNewSessionTicket C hs msg hs.ticket).1 = false

theorem afterMessages_concat (C : Crypto) (hs : HsCtx) (msgs : List Bytes) (msg : Bytes) :
    afterMessages C hs (msgs ++ [msg]) =
      (tls13HandlePostHandshake C (afterMessages C hs msgs) msg).2 := by
  rw [afterMessages, List.foldl_append]
  rfl

theorem afterMessages_frame (C : Crypto) (hs : HsCtx) (msgs : List Bytes) :
    ∃ ticket ticketValid error, afterMessages C hs msgs = { hs with ticket, ticketValid, error } := by
  induction msgs using List.reverseRecOn with
  | nil => exact ⟨_, _, _, rfl⟩
  | append_singleton msgs msg ih =>
    obtain ⟨ticket, ticketValid, error, h⟩ := ih
    rw [afterMessages_concat, h]
    exact tls13HandlePostHandshake_frame C _ msg

/-- What the handler makes of the stash. -/
theorem tls13HandlePostHandshake_stash (C : Crypto) (hs : HsCtx) (msg : Bytes) :
    let hs' := (tls13HandlePostHandshake C hs msg).2
    let r := tls13ParseNewSessionTicket C hs msg hs.ticket
    hs'.ticket = r.2 ∧ hs'.ticketValid = (r.1 || hs.ticketValid) := by
  dsimp only
  unfold tls13HandlePostHandshake
  by_cases hok : hs.resMasterValid = true ∧ IsTicketMessage msg
  · obtain ⟨-, hlen, htype, -⟩ := hok
    rw [if_neg (by omega), if_pos htype]
    generalize tls13ParseNewSessionTicket C hs msg hs.ticket = r
    obtain ⟨_ | _, ticket⟩ := r
    · exact ⟨rfl, rfl⟩
    · exact ⟨rfl, rfl⟩
  · have hr : tls13ParseNewSessionTicket C hs msg hs.ticket = (false, hs.ticket) := by
      rw [tls13ParseNewSessionTicket_eq, if_neg hok]
    rw [hr]
    split_ifs
    · exact ⟨rfl, rfl⟩
    · exact ⟨rfl, rfl⟩
    · exact ⟨rfl, rfl⟩

/-- A refused message leaves the stash alone exactly when it does not tear it. -/
theorem refused_unchanged_iff (C : Crypto) {hs : HsCtx} {msg : Bytes}
    (hvalid : hs.ticketValid = true) (hrefused : RefusesTicket C hs msg) :
    (tls13HandlePostHandshake C hs msg).2.ticket = hs.ticket ↔ ¬Tears hs msg := by
  rw [(tls13HandlePostHandshake_stash C hs msg).1]
  unfold RefusesTicket at hrefused
  rw [tls13ParseNewSessionTicket_eq] at hrefused ⊢
  split_ifs at hrefused ⊢ with hok
  · cases ht : ticketOf msg with
    | some t =>
      rw [ht] at hrefused
      cases hrefused
    | none =>
      dsimp only
      unfold tornTicket
      split_ifs with h12
      · constructor
        · rintro heq ⟨-, -, -, hne⟩
          rw [← heq] at hne
          exact hne.elim (fun h => h rfl) fun h => h rfl
        · intro hno
          have hsame : getU32 msg 4 = hs.ticket.lifetime ∧ getU32 msg 8 = hs.ticket.ageAdd := by
            by_contra hne
            exact hno ⟨hvalid, hok.1, ⟨hok.2, h12, ht⟩, not_and_or.1 hne⟩
          rw [hsame.1, hsame.2]
      · exact ⟨fun _ h => h12 h.2.2.1.2.1, fun _ => rfl⟩
  · exact ⟨fun _ h => hok ⟨h.2.1, h.2.2.1.1⟩, fun _ => rfl⟩

theorem Torn.refuses {hs : HsCtx} {msg : Bytes} (C : Crypto) (h : Torn msg) :
    RefusesTicket C hs msg := by
  unfold RefusesTicket
  rw [tls13ParseNewSessionTicket_eq, h.2.2]
  split_ifs <;> rfl

/-- What an accepted message puts into the stash. -/
theorem accepted_of_parse {C : Crypto} {hs : HsCtx} {msg : Bytes} {out : SessionTicket}
    (h : (tls13ParseNewSessionTicket C hs msg out).1 = true) : IsTicketMessage msg ∧
      ∃ t ∈ ticketOf msg, (tls13ParseNewSessionTicket C hs msg out).2 = mintTicket C hs t := by
  rw [tls13ParseNewSessionTicket_eq] at h ⊢
  split_ifs at h ⊢ with hok
  cases ht : ticketOf msg with
  | none =>
    rw [ht] at h
    cases h
  | some t => exact ⟨hok.2, t, rfl, rfl⟩

/-- One message. -/
theorem StashFrom.handled {C : Crypto} {hs₀ : HsCtx} {msgs : List Bytes}
    (h : StashFrom C hs₀ msgs (afterMessages C hs₀ msgs)) {msg : Bytes}
    (hspares : ¬Tears (afterMessages C hs₀ msgs) msg) :
    StashFrom C hs₀ (msgs ++ [msg]) (afterMessages C hs₀ (msgs ++ [msg])) := by
  intro hvalid
  have hmint : ∀ t, mintTicket C (afterMessages C hs₀ msgs) t = mintTicket C hs₀ t := by
    obtain ⟨_, _, _, hframe⟩ := afterMessages_frame C hs₀ msgs
    intro t
    rw [hframe]
    rfl
  obtain ⟨hticket, hset⟩ := tls13HandlePostHandshake_stash C (afterMessages C hs₀ msgs) msg
  rw [afterMessages_concat] at hvalid ⊢
  cases hr : (tls13ParseNewSessionTicket C (afterMessages C hs₀ msgs) msg
      (afterMessages C hs₀ msgs).ticket).1 with
  | true =>
    obtain ⟨hmsg, t, ht, heq⟩ := accepted_of_parse hr
    exact ⟨msg, List.mem_append_right _ List.mem_cons_self, hmsg, t, ht,
      hticket.trans (heq.trans (hmint t))⟩
  | false =>
    have hold : (afterMessages C hs₀ msgs).ticketValid = true := by
      rwa [hset, hr, Bool.false_or] at hvalid
    obtain ⟨msg', hmem, hmsg, t, ht, heq⟩ := h hold
    exact ⟨msg', List.mem_append_left _ hmem, hmsg, t, ht,
      ((refused_unchanged_iff C hold hr).2 hspares).trans heq⟩

/-- At any time the stash is the ticket of one message, and refused messages leave it alone. -/
def StashWhole (C : Crypto) (hs : HsCtx) (msgs : List Bytes) : Prop :=
  (∀ pre, pre <+: msgs → StashFrom C hs pre (afterMessages C hs pre)) ∧
  ∀ pre msg, pre ++ [msg] <+: msgs → (afterMessages C hs pre).ticketValid = true →
    RefusesTicket C (afterMessages C hs pre) msg →
    (afterMessages C hs (pre ++ [msg])).ticket = (afterMessages C hs pre).ticket

/-- The stash is never mixed, and never touched by a refused message, exactly when no message tears
it. -/
theorem stashWhole_iff (C : Crypto) {hs : HsCtx} (hempty : hs.ticketValid = false)
    (msgs : List Bytes) : StashWhole C hs msgs ↔
      ∀ pre msg, pre ++ [msg] <+: msgs → ¬Tears (afterMessages C hs pre) msg := by
  constructor
  · rintro ⟨-, hkept⟩ pre msg hpre htears
    have hrefused : RefusesTicket C (afterMessages C hs pre) msg := htears.2.2.1.refuses C
    have hsame := hkept pre msg hpre htears.1 hrefused
    rw [afterMessages_concat] at hsame
    exact (refused_unchanged_iff C htears.1 hrefused).1 hsame htears
  · intro hspares
    refine ⟨fun pre hpre => ?_, fun pre msg hpre hvalid hrefused => ?_⟩
    · induction pre using List.reverseRecOn with
      | nil =>
        intro hvalid
        cases hempty.symm.trans hvalid
      | append_singleton pre msg ih =>
        exact (ih ((List.prefix_append pre [msg]).trans hpre)).handled (hspares pre msg hpre)
    · rw [afterMessages_concat]
      exact (refused_unchanged_iff C hvalid hrefused).2 (hspares pre msg hpre)

/-- Two tickets one after the other. -/
theorem stashWhole_iff_twice :
    StashWhole .transparent ticketCtx [ticketMessage, ticketMessage] := by
  refine (stashWhole_iff .transparent (by decide) _).2 fun pre msg hpre htears => ?_
  have hmsg : msg ∈ [ticketMessage, ticketMessage] :=
    hpre.subset (List.mem_append_right _ List.mem_cons_self)
  obtain rfl : msg = ticketMessage := by simpa using hmsg
  exact absurd htears.2.2.1.2.2 (by decide +kernel)

/-- A message of eight body bytes: a lifetime and an age, and no ticket. -/
def tornMessage : Bytes :=
  [0x04, 0x00, 0x00, 0x08, 0x00, 0x00, 0x00, 0x01, 0x00, 0x00, 0x00, 0x02]

/-- Behind a ticket, a message without one leaves its lifetime and age with that ticket. -/
theorem stash_torn : ¬∀ msgs : List Bytes, StashWhole .transparent ticketCtx msgs := by
  intro h
  have htorn := (h [ticketMessage, tornMessage]).2 [ticketMessage] tornMessage (by simp)
    (by decide +kernel) (by unfold RefusesTicket; decide +kernel)
  exact absurd (congrArg SessionTicket.lifetime htorn) (by decide +kernel)

end MacTLS
