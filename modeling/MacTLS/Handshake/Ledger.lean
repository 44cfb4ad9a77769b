import MacTLS.Handshake.Authentication
import MacTLS.Handshake.Waiting

/-!
# The bytes of the server's handshake records

A ledger over a run of the handshake: the payloads of the plaintext records and the encrypted
records as they were taken, and the bytes that stood behind a ServerHello in its record or behind
the server Finished in what was decrypted by then.  These are the bytes that no later step looks at.

* `gather` : the plaintext that is there when the next message is whole, from the records alone;
* `Ledger` : what was received of the server, and what was discarded of it;
* `Accounts` : payload bytes are messages or were discarded;
* `handshake_bytes_iff` : a complete handshake consists of whole messages exactly when nothing was
  discarded.
-/

namespace MacTLS

open Lib

/-! ### Records and their plaintext -/

/-- The records that the bytes are made of, as far as they are whole. -/
def splitRecords : ℕ → Bytes → List Bytes
  | 0, _ => []
  | fuel + 1, b =>
    if HasRecord b then
      b.take (5 + getU16 b 3) :: splitRecords fuel (b.drop (5 + getU16 b 3))
    else []

/-- The handshake bytes in encrypted records under the given key. -/
def decryptedPayload (C : Crypto) (ctx : RecordCtx) (cipher : Bytes) : Bytes :=
  let decrypted := (decryptStream C ctx (payloads (splitRecords cipher.length cipher))).getD []
  ((decrypted.filter fun p => p.1 = tls13CtHandshake).map Prod.snd).flatten

/-- The plaintext that is there when the next message is whole: what is left over, and the records
it takes to make it whole. -/
def gather (C : Crypto) : ℕ → RecordCtx → Bytes → Bytes → Bytes
  | 0, _, plain, _ => plain
  | fuel + 1, ctx, plain, recv =>
    if HasMessage plain then plain
    else if ¬HasRecord recv then plain
    else
      let rest := recv.drop (5 + getU16 recv 3)
      if byteAt recv 0 = tls13CtChangeCipherSpec then gather C fuel ctx plain rest
      else
        let d := tls13RecordDecrypt C ctx (slice recv 5 (getU16 recv 3))
        match d.ret with
        | none => plain
        | some (n, _) => gather C fuel d.ctx (plain ++ d.buf.take n) rest

/-- The bytes behind the message that `b` starts with. -/
def behindMessage (b : Bytes) : Bytes := b.drop (declaredLen b)

/-- The bytes that nothing will look at after this step: those behind a ServerHello in its record,
and those behind the server Finished. -/
def behind (C : Crypto) (hs : HsCtx) (recv : Bytes) : Bytes :=
  match hs.state with
  | .recvServerHello => ((helloPayload recv).map behindMessage).getD []
  | .recvFinished => behindMessage (gather C (recv.length + 1) hs.readCtx hs.leftover recv)
  | _ => []

/-! ### The ledger -/

/-- A session with what was received of the server's handshake records. -/
structure Ledger where
  session : Session
  /-- The payloads of the plaintext handshake records. -/
  plain : Bytes
  /-- The key of the encrypted records. -/
  ctx : RecordCtx
  /-- The encrypted records. -/
  cipher : Bytes
  discarded : Bytes

/-- The payload bytes of the handshake records. -/
def Ledger.payload (C : Crypto) (l : Ledger) : Bytes := l.plain ++ decryptedPayload C l.ctx l.cipher

def Ledger.start (s : Session) : Ledger := ⟨s, [], s.hs.readCtx, [], []⟩

/-- One step: what it takes off the received bytes is entered. -/
def Ledger.step (C : Crypto) (hostname : Bytes) (l : Ledger) (i : StepInput) : Ledger :=
  let o := l.session.out C hostname i
  let session := l.session.step C hostname i
  let discarded := l.discarded ++ behind C l.session.hs i.recv
  if l.session.hs.state = .recvServerHello then
    { session, discarded
      plain := l.plain ++ (helloPayload i.recv).getD []
      ctx := o.hs.readCtx
      cipher := l.cipher }
  else
    { session, discarded
      plain := l.plain
      ctx := l.ctx
      cipher := l.cipher ++ i.recv.take (i.recv.length - o.recv.length) }

def HsEvent.fromServer : HsEvent → Option Bytes
  | .received msg => some msg
  | _ => none

/-- The server's messages of a log. -/
def serverMessages (log : List HsEvent) : List Bytes := log.filterMap HsEvent.fromServer

/-- The payload is made of the messages, and where nothing was discarded of nothing else. -/
structure Accounts (payload : Bytes) (msgs : List Bytes) (discarded : Bytes) : Prop where
  length : payload.length = msgs.flatten.length + discarded.length
  exact : discarded = [] → payload = msgs.flatten

section

variable {C : Crypto} {hostname : Bytes} {payload payload' discarded discarded' : Bytes}
  {msgs msgs' : List Bytes}

theorem accounts_nil : Accounts [] [] [] := ⟨rfl, fun _ => rfl⟩

theorem Accounts.append (h : Accounts payload msgs discarded)
    (h' : Accounts payload' msgs' discarded') :
    Accounts (payload ++ payload') (msgs ++ msgs') (discarded ++ discarded') := by
  refine ⟨?_, fun hnil => ?_⟩
  · rw [List.flatten_append]
    simp only [List.length_append, h.length, h'.length]
    omega
  · obtain ⟨hd, hd'⟩ := List.append_eq_nil_iff.1 hnil
    rw [h.exact hd, h'.exact hd', List.flatten_append]

/-- Messages, and what is behind them. -/
theorem accounts_behind (msgs : List Bytes) (rest : Bytes) :
    Accounts (msgs.flatten ++ rest) msgs rest := by
  refine ⟨List.length_append, fun hnil => ?_⟩
  rw [hnil, List.append_nil]

/-- The payload is the messages exactly where nothing was discarded. -/
theorem Accounts.eq_iff (h : Accounts payload msgs discarded) :
    payload = msgs.flatten ↔ discarded = [] := by
  refine ⟨fun heq => ?_, h.exact⟩
  have hlen := h.length
  rw [heq] at hlen
  exact List.eq_nil_of_length_eq_zero (by omega)

theorem serverMessages_append (l l' : List HsEvent) :
    serverMessages (l ++ l') = serverMessages l ++ serverMessages l' := List.filterMap_append

/-! ### What the reader takes -/

theorem splitRecords_flatten {records : List Bytes} {fuel : ℕ} (h : ∀ r ∈ records, IsRecord r)
    (hfuel : records.flatten.length ≤ fuel) : splitRecords fuel records.flatten = records := by
  induction records generalizing fuel with
  | nil =>
    have hnone : ¬HasRecord [] := fun h => absurd h.1 (by decide)
    cases fuel with
    | zero => rfl
    | succ fuel =>
      rw [splitRecords]
      exact if_neg hnone
  | cons r rs ih =>
    obtain ⟨hr, hrs⟩ := List.forall_mem_cons.1 h
    rw [List.flatten_cons, List.length_append] at hfuel
    obtain ⟨fuel, rfl⟩ : ∃ k, fuel = k + 1 := ⟨fuel - 1, by have := hr.1; omega⟩
    have hlen : 5 + getU16 (r ++ rs.flatten) 3 = r.length := by
      rw [getU16_append (by have := hr.1; omega), hr.2.1]
    rw [List.flatten_cons, splitRecords, if_pos (hasRecord_of_isRecord hr), hlen, List.take_left,
      List.drop_left, ih hrs (by have := hr.1; omega)]

variable {ctx : RecordCtx} {cipher recv : Bytes} {hs : HsCtx} {decrypted : List (UInt8 × Bytes)}

/-- What was decrypted is the payload of the records taken. -/
theorem Reading.payload_eq (h : Reading C ctx cipher msgs hs [] decrypted)
    (hall : ∀ p ∈ decrypted, p.1 = tls13CtHandshake) :
    decryptedPayload C ctx cipher = msgs.flatten ++ hs.leftover := by
  obtain ⟨records, hrec, hcipher, hdec⟩ := h.consumed
  rw [List.append_nil] at hcipher
  have hstream := hdec []
  rw [List.append_nil, decryptStream, Option.map_some, List.append_nil] at hstream
  have hfilter : decrypted.filter (fun p => p.1 = tls13CtHandshake) = decrypted :=
    List.filter_eq_self.2 fun p hp => by simpa using hall p hp
  rw [decryptedPayload, hcipher, splitRecords_flatten hrec (Nat.le_refl _), hstream]
  dsimp only [Option.getD_some]
  rw [hfilter]
  exact h.framing

/-- What was not taken of them is put back. -/
theorem Reading.leave {n : ℕ} (h : Reading C ctx (cipher ++ recv) msgs hs (recv.drop n) decrypted) :
    Reading C ctx (cipher ++ recv.take (recv.length - (recv.drop n).length)) msgs hs []
      decrypted := by
  obtain ⟨⟨records, hrec, hcipher, hdec⟩, hframing, hmessages, hb⟩ := h
  refine ⟨⟨records, hrec, ?_, hdec⟩, hframing, hmessages, hb⟩
  have htake : recv.take (recv.length - (recv.drop n).length) = recv.take n := by
    rw [List.length_drop]
    obtain hle | hlt := Nat.le_total n recv.length
    · rw [Nat.sub_sub_self hle]
    · rw [Nat.sub_eq_zero_of_le hlt, Nat.sub_zero, List.take_length, List.take_of_length_le hlt]
  have hsplit : cipher ++ recv = (cipher ++ recv.take n) ++ recv.drop n := by
    rw [List.append_assoc, List.take_append_drop]
  rw [hsplit] at hcipher
  rw [htake, List.append_nil]
  exact List.append_cancel_right hcipher

theorem slice_record {record rest : Bytes} (h : IsRecord record) :
    slice (record ++ rest) 5 (getU16 (record ++ rest) 3) = record.drop 5 := by
  have hlen := h.2.1
  rw [getU16_append (by have := h.1; omega), slice_append (Nat.le_of_eq hlen.symm), slice,
    List.take_of_length_le (by rw [List.length_drop]; omega)]

/-- What the reader leaves behind the message it hands up is what was gathered behind it. -/
theorem gather_eq {fuel : ℕ} (hfuel : recv.length < fuel) (hb : hs.Bounded) :
    let o := readHsLoop C fuel hs recv
    (∀ m, o.res = .message m →
      Framed m ∧ gather C fuel hs.readCtx hs.leftover recv = m ++ o.hs.leftover) ∧
      (o.res = .wantRead → ¬HasMessage (gather C fuel hs.readCtx hs.leftover recv)) := by
  induction fuel generalizing hs recv with
  | zero => omega
  | succ fuel ih =>
    have he := extracts_extractHs hb
    unfold readHsLoop
    generalize extractHs hs = e at he ⊢
    obtain ⟨e, hs₁⟩ := e
    cases he with
    -- a whole message is there: the reader stops, and so does `gather`
    | message hmsg hfits hleft hctx hb₁ hbuf =>
      have hhas : HasMessage hs.leftover := by
        rw [hleft, HasMessage, List.length_append, declaredLen_header hmsg.1, ← hmsg.2]
        exact ⟨by have := hmsg.1; omega, Nat.le_add_right _ _⟩
      refine ⟨fun m hm => ?_, fun h => (by cases h)⟩
      obtain rfl := ReadResult.message.inj hm
      refine ⟨hmsg, ?_⟩
      rw [gather, if_pos hhas]
      exact hleft
    | tooLarge => exact ⟨fun m hm => (by cases hm), fun h => by cases h⟩
    | incomplete hnone hleft hctx hb₁ hoff hbuf =>
      have ht := @takesRecord_readHsRecord C _ recv hb₁ hoff
      dsimp only
      generalize readHsRecord C hs₁ recv = r at ht ⊢
      rw [← hleft] at hnone ⊢
      rw [← hctx, gather, if_neg hnone]
      cases ht with
      | wantRead hno =>
        refine ⟨fun m hm => (by cases hm), fun _ => ?_⟩
        rw [if_pos hno]
        exact hnone
      | refused => exact ⟨fun m hm => (by cases hm), fun h => by cases h⟩
      | unexpected => exact ⟨fun m hm => (by cases hm), fun h => by cases h⟩
      -- dropped by both
      | @ccs record recv' hrec hsplit htype =>
        have hlt : recv'.length < fuel := by
          have := hrec.1
          rw [hsplit, List.length_append] at hfuel
          omega
        have hdrop : recv.drop (5 + getU16 recv 3) = recv' := by
          rw [hsplit]
          exact (eq_drop_of_isRecord hrec).symm
        have hccs : byteAt recv 0 = tls13CtChangeCipherSpec := by
          rw [hsplit, byteAt_append (by have := hrec.1; omega), htype]
        have hhas : HasRecord recv := by
          rw [hsplit]
          exact hasRecord_of_isRecord hrec
        rw [if_neg (not_not.2 hhas)]
        dsimp only
        rw [if_pos hccs, hdrop]
        exact ih hlt hb₁
      -- both append what it decrypts to, and go on with the next context
      | @handshake hs₂ record recv' plaintext ctx' hd hoff' ha =>
        have hrec := hd.whole
        have hlt : recv'.length < fuel := by
          have := hrec.1
          rw [hd.split, List.length_append] at hfuel
          omega
        have hdrop : recv.drop (5 + getU16 recv 3) = recv' := by
          rw [hd.split]
          exact (eq_drop_of_isRecord hrec).symm
        have hct : byteAt recv 0 ≠ tls13CtChangeCipherSpec := by
          rw [hd.split, byteAt_append (by have := hrec.1; omega), hd.type]
          decide
        have hslice : slice recv 5 (getU16 recv 3) = record.drop 5 := by
          rw [hd.split]
          exact slice_record hrec
        have hhas : HasRecord recv := by
          rw [hd.split]
          exact hasRecord_of_isRecord hrec
        rw [if_neg (not_not.2 hhas)]
        dsimp only
        rw [if_neg hct, hslice, hd.ret]
        dsimp only
        rw [hd.buf, ← hd.next, hdrop, ← ha.readCtx, ← ha.leftover]
        exact ih hlt ha.bounded

/-- What was gathered when a read wants more has nothing behind a message. -/
theorem behindMessage_eq_nil {b : Bytes} (h : ¬HasMessage b) : behindMessage b = [] := by
  refine List.drop_eq_nil_of_le (Nat.le_of_lt ?_)
  by_contra hle
  exact h ⟨by rw [declaredLen] at hle; omega, Nat.le_of_not_lt hle⟩

theorem behindMessage_append {m rest : Bytes} (h : Framed m) :
    behindMessage (m ++ rest) = rest := by
  rw [behindMessage, declaredLen_header h.1, ← h.2, List.drop_left]

/-! ### The handlers -/

/-- Processing a message leaves the reader alone, and waits for the next one. -/
structure Continues (hs : HsCtx) (o : Outcome) : Prop where
  plain : o.hs.plain = hs.plain
  readCtx : o.hs.readCtx = hs.readCtx
  reads : o.hs.state.reads = true
  silent : serverMessages o.log = []

theorem continues_encryptedExtensions (hs : HsCtx) (msg : Bytes) :
    (processEncryptedExtensions hs msg).res = .error ∨
      Continues hs (processEncryptedExtensions hs msg) := by
  obtain h | ⟨-, h⟩ := processEncryptedExtensions_cases hs msg
  · exact .inl h.res
  · rw [h]
    refine .inr ⟨rfl, rfl, ?_, rfl⟩
    dsimp only
    split_ifs <;> rfl

theorem continues_certRequestOrCert (hs : HsCtx) (msg : Bytes) :
    (processCertRequestOrCert hs msg).res = .error ∨
      Continues hs (processCertRequestOrCert hs msg) := by
  obtain h | ⟨-, h⟩ | ⟨-, h⟩ := processCertRequestOrCert_cases hs msg
  · exact .inl h.res
  · rw [h]
    exact .inr ⟨rfl, rfl, rfl, rfl⟩
  · rw [h]
    exact .inr ⟨rfl, rfl, rfl, rfl⟩

theorem continues_certificate (C : Crypto) (hostname : Bytes) (hs : HsCtx) (msg : Bytes) :
    (processCertificate C hostname hs msg).res = .error ∨
      Continues hs (processCertificate C hostname hs msg) := by
  obtain h | ⟨certs, pkey, -, h⟩ := processCertificate_cases C hostname hs msg
  · exact .inl h.res
  · rw [h]
    exact .inr ⟨rfl, rfl, rfl, rfl⟩

theorem continues_certificateVerify (C : Crypto) (hs : HsCtx) (msg : Bytes) :
    (processCertificateVerify C hs msg).res = .error ∨
      Continues hs (processCertificateVerify C hs msg) := by
  obtain h | ⟨key, -, -, h⟩ := processCertificateVerify_cases C hs msg
  · exact .inl h.res
  · rw [h]
    exact .inr ⟨rfl, rfl, rfl, rfl⟩

theorem finishes_finished (C : Crypto) (hs : HsCtx) (msg : Bytes) :
    (processFinished C hs msg).res = .error ∨
      (processFinished C hs msg).hs.state = .sendFinished ∧
        serverMessages (processFinished C hs msg).log = [] := by
  unfold processFinished
  dsimp only
  split_ifs
  · exact .inl rfl
  · exact .inl rfl
  · exact .inl rfl
  · exact .inl rfl
  · exact .inr ⟨rfl, rfl⟩

/-- A read, as it is entered in the ledger. -/
theorem Reading.read (h : Reading C ctx cipher msgs hs [] decrypted)
    (hall : ∀ p ∈ decrypted, p.1 = tls13CtHandshake) (recv : Bytes)
    (hres : (tls13ReadEncryptedHs C hs recv).res ≠ .error) :
    let r := tls13ReadEncryptedHs C hs recv
    ∃ decrypted', Reading C ctx (cipher ++ recv.take (recv.length - r.recv.length))
      (msgs ++ r.res.messages) r.hs [] decrypted' ∧
        ∀ p ∈ decrypted', p.1 = tls13CtHandshake := by
  obtain ⟨n, hn⟩ := (@readFront_loop C hs recv _ (Nat.lt_succ_self _) h.bounded).drop
  have harrive : Reading C ctx (cipher ++ recv) msgs hs recv decrypted := h.arrive recv
  obtain ⟨decrypted', hread, hty, -⟩ := harrive.loop (Nat.lt_succ_self _) hall
  refine ⟨decrypted', ?_, hty.resolve_right hres⟩
  rw [hn] at hread
  rw [show (tls13ReadEncryptedHs C hs recv).recv = recv.drop n from hn]
  exact hread.leave

/-- A handler that goes on reading. -/
theorem Reading.continue {process : HsCtx → Bytes → Outcome}
    (h : Reading C ctx cipher msgs hs [] decrypted)
    (hall : ∀ p ∈ decrypted, p.1 = tls13CtHandshake) (hst : hs.state.reads = true)
    (hproc : ∀ hs msg, (process hs msg).res = .error ∨ Continues hs (process hs msg))
    (hres : (withMessage C hs recv process).res ≠ .error) :
    let o := withMessage C hs recv process
    o.hs.state.reads = true ∧ ∃ decrypted',
      Reading C ctx (cipher ++ recv.take (recv.length - o.recv.length))
        (msgs ++ serverMessages o.log) o.hs [] decrypted' ∧
          ∀ p ∈ decrypted', p.1 = tls13CtHandshake := by
  have hframe := (tls13ReadEncryptedHs_spec C hs recv).1
  have hread := h.read hall recv
  unfold withMessage at hres ⊢
  generalize tls13ReadEncryptedHs C hs recv = r at hframe hread hres ⊢
  obtain ⟨res, hs₁, recv'⟩ := r
  cases res with
  | message msg =>
    obtain ⟨decrypted', hread, hall'⟩ := hread (by simp)
    obtain herr | hc := hproc hs₁ msg
    · exact absurd herr hres
    · have hlog : serverMessages (.received msg :: (process hs₁ msg).log) = [msg] :=
        congrArg (msg :: ·) hc.silent
      refine ⟨hc.reads, decrypted', ?_, hall'⟩
      dsimp only
      rw [hlog]
      exact hread.of_same hc.readCtx (congrArg Prod.fst hc.plain) (congrArg (·.2.1) hc.plain)
        (congrArg (·.2.2) hc.plain)
  | wantRead =>
    obtain ⟨decrypted', hread, hall'⟩ := hread (by simp)
    exact ⟨(congrArg (HsState.reads ·.state) hframe).trans hst, decrypted', hread, hall'⟩
  | error => exact absurd rfl hres

/-- The handler of the server Finished: it goes on reading, or what is behind the message will not
be looked at. -/
theorem Reading.finish (h : Reading C ctx cipher msgs hs [] decrypted)
    (hall : ∀ p ∈ decrypted, p.1 = tls13CtHandshake) (hst : hs.state.reads = true)
    (hres : (withMessage C hs recv (processFinished C)).res ≠ .error) :
    let o := withMessage C hs recv (processFinished C)
    let rest := behindMessage (gather C (recv.length + 1) hs.readCtx hs.leftover recv)
    let cipher' := cipher ++ recv.take (recv.length - o.recv.length)
    (o.hs.state.reads = true ∧ rest = [] ∧ ∃ decrypted',
      Reading C ctx cipher' (msgs ++ serverMessages o.log) o.hs [] decrypted' ∧
        ∀ p ∈ decrypted', p.1 = tls13CtHandshake) ∨
      o.hs.state = .sendFinished ∧
        Accounts (decryptedPayload C ctx cipher') (msgs ++ serverMessages o.log) rest := by
  have hframe := (tls13ReadEncryptedHs_spec C hs recv).1
  have hread := h.read hall recv
  obtain ⟨hmessage, hwants⟩ := @gather_eq C recv hs _ (Nat.lt_succ_self _) h.bounded
  change (∀ m, (tls13ReadEncryptedHs C hs recv).res = .message m → _ ∧
    _ = m ++ (tls13ReadEncryptedHs C hs recv).hs.leftover) at hmessage
  change (tls13ReadEncryptedHs C hs recv).res = .wantRead → _ at hwants
  dsimp only
  unfold withMessage at hres ⊢
  generalize tls13ReadEncryptedHs C hs recv = r at hframe hread hmessage hwants hres ⊢
  obtain ⟨res, hs₁, recv'⟩ := r
  cases res with
  | message msg =>
    obtain ⟨decrypted', hread, hall'⟩ := hread (by simp)
    obtain ⟨hmsg, hgather⟩ := hmessage msg rfl
    obtain herr | ⟨hstate, hsilent⟩ := finishes_finished C hs₁ msg
    · exact absurd herr hres
    · have hlog : serverMessages (.received msg :: (processFinished C hs₁ msg).log) = [msg] :=
        congrArg (msg :: ·) hsilent
      refine .inr ⟨hstate, ?_⟩
      dsimp only at hgather ⊢
      rw [hlog, hgather, behindMessage_append hmsg, hread.payload_eq hall']
      exact accounts_behind _ _
  | wantRead =>
    obtain ⟨decrypted', hread, hall'⟩ := hread (by simp)
    exact .inl ⟨(congrArg (HsState.reads ·.state) hframe).trans hst,
      behindMessage_eq_nil (hwants rfl), decrypted', hread, hall'⟩
  | error => exact absurd rfl hres

/-- A live step of a state that reads. -/
theorem Reading.step (h : Reading C ctx cipher msgs hs [] decrypted)
    (hall : ∀ p ∈ decrypted, p.1 = tls13CtHandshake) (hst : hs.state.reads = true)
    (rnd : ClientRandom) (hres : (tls13HandshakeStep C hostname rnd hs recv).res ≠ .error) :
    let o := tls13HandshakeStep C hostname rnd hs recv
    let cipher' := cipher ++ recv.take (recv.length - o.recv.length)
    (o.hs.state.reads = true ∧ behind C hs recv = [] ∧ ∃ decrypted',
      Reading C ctx cipher' (msgs ++ serverMessages o.log) o.hs [] decrypted' ∧
        ∀ p ∈ decrypted', p.1 = tls13CtHandshake) ∨
      o.hs.state = .sendFinished ∧
        Accounts (decryptedPayload C ctx cipher') (msgs ++ serverMessages o.log)
          (behind C hs recv) := by
  -- only behind the server Finished is anything discarded
  have hnone : hs.state ≠ .recvFinished → behind C hs recv = [] := fun hne => by
    unfold behind
    split
    · rename_i hst'
      rw [hst'] at hst
      cases hst
    · rename_i hst'
      exact absurd hst' hne
    · rfl
  have hread := hst
  unfold tls13HandshakeStep at hres ⊢
  split at hres <;> rename_i hstate <;> rw [hstate] at hst
  case h_4 =>
    obtain ⟨hreads, hdec⟩ := h.continue hall hread continues_encryptedExtensions hres
    exact .inl ⟨hreads, hnone (by simp [hstate]), hdec⟩
  case h_5 =>
    obtain ⟨hreads, hdec⟩ := h.continue hall hread continues_certRequestOrCert hres
    exact .inl ⟨hreads, hnone (by simp [hstate]), hdec⟩
  case h_6 =>
    dsimp only at hres ⊢
    split_ifs at hres ⊢ with hpend
    · obtain herr | hc := continues_certificate C hostname { hs with pendingRecvMsgLen := 0 }
        (hs.msgBuf.take hs.pendingRecvMsgLen)
      · exact absurd herr hres
      · refine .inl ⟨hc.reads, hnone (by simp [hstate]), decrypted, ?_, hall⟩
        dsimp only
        rw [hc.silent, List.append_nil, Nat.sub_self, List.take_zero, List.append_nil]
        exact h.of_same hc.readCtx (congrArg Prod.fst hc.plain) (congrArg (·.2.1) hc.plain)
          (congrArg (·.2.2) hc.plain)
    · obtain ⟨hreads, hdec⟩ := h.continue hall hread (continues_certificate C hostname) hres
      exact .inl ⟨hreads, hnone (by simp [hstate]), hdec⟩
  case h_7 =>
    obtain ⟨hreads, hdec⟩ := h.continue hall hread (continues_certificateVerify C) hres
    exact .inl ⟨hreads, hnone (by simp [hstate]), hdec⟩
  case h_8 =>
    have hbehind : behind C hs recv =
        behindMessage (gather C (recv.length + 1) hs.readCtx hs.leftover recv) := by
      rw [behind, hstate]
    rw [hbehind]
    exact h.finish hall hread hres
  all_goals cases hst

/-! ### Before the keys -/

/-- A live step before the keys: nothing is read from the plaintext buffer, and what is taken is at
most one record with a message at its front. -/
structure HelloTaken (hs : HsCtx) (recv : Bytes) (o : HsOut) : Prop where
  plain : o.hs.plain = hs.plain
  state : o.hs.state.beforeKeys = true ∨
    hs.state = .recvServerHello ∧ o.hs.state = .recvEncryptedExtensions
  taken : serverMessages o.log = [] ∧ (hs.state = .recvServerHello → helloPayload recv = none) ∧
      (hs.state ≠ .recvServerHello → o.recv = recv) ∨
    hs.state = .recvServerHello ∧ ∃ msg, helloPayload recv = some msg ∧ HelloFramed msg ∧
      serverMessages o.log = [helloMessage msg]

/-- The handler waits for a record, drops one that is not a handshake record, or parses. -/
theorem taken_recvServerHello (C : Crypto) (hs : HsCtx) (recv : Bytes) :
    let o := tls13StateRecvServerHello C hs recv
    o.res = .error ∨ o.res = .fallback12 ∨
      o.res = .wantRead ∧ o.hs = hs ∧ o.log = [] ∧ helloPayload recv = none ∨
      ∃ msg, helloPayload recv = some msg ∧ o.toOutcome = { tls13ParseServerHello C hs msg with
        log := .received (helloMessage msg) :: (tls13ParseServerHello C hs msg).log } := by
  unfold tls13StateRecvServerHello
  dsimp only
  split_ifs with h5 htotal hccs halert _ hhs
  · exact .inr (.inr (.inl ⟨rfl, rfl, rfl, if_neg fun h => absurd h.1 (Nat.not_le.2 h5)⟩))
  · exact .inr (.inr (.inl ⟨rfl, rfl, rfl, if_neg fun h => absurd h.2.1 (Nat.not_le.2 htotal)⟩))
  · refine .inr (.inr (.inl ⟨rfl, rfl, rfl, if_neg fun h => ?_⟩))
    rw [hccs] at h
    exact absurd h.2.2 (by decide)
  · exact .inr (.inl rfl)
  · exact .inr (.inl rfl)
  · exact .inl rfl
  · refine .inr (.inr (.inr ⟨_, if_pos ⟨?_, ?_, not_not.1 hhs⟩, rfl⟩)) <;> omega

theorem helloTaken_step (hst : hs.state.beforeKeys = true) (hw : hs.Wf) (rnd : ClientRandom)
    (hlive : (tls13HandshakeStep C hostname rnd hs recv).res ≠ .error ∧
      (tls13HandshakeStep C hostname rnd hs recv).res ≠ .fallback12) :
    HelloTaken hs recv (tls13HandshakeStep C hostname rnd hs recv) := by
  unfold tls13HandshakeStep at hlive ⊢
  split at hlive <;> rename_i hstate <;> rw [hstate] at hst
  -- the hello is sent: nothing is read
  case h_1 =>
    dsimp only at hlive ⊢
    obtain ⟨hres, -⟩ | ⟨hs₁, msg, hr, -, -, ho⟩ := tls13StateSendClientHello_cases C hs hostname rnd
    · rw [if_neg (by rw [hres]; simp)] at hlive
      exact absurd hres hlive.1
    · rw [ho, if_pos rfl]
      refine ⟨?_, .inl rfl, .inl ⟨rfl, fun h => ?_, fun _ => rfl⟩⟩
      · show hs₁.plain = hs.plain
        rw [HsCtx.plain, hr.ready.frame]
        rfl
      · rw [hstate] at h
        cases h
  case h_2 =>
    refine ⟨rfl, .inl rfl, .inl ⟨rfl, fun h => ?_, fun _ => rfl⟩⟩
    rw [hstate] at h
    cases h
  -- the one state that reads before the keys
  case h_3 =>
    dsimp only at hlive ⊢
    have ht := taken_recvServerHello C hs recv
    generalize tls13StateRecvServerHello C hs recv = o at ht hlive ⊢
    obtain ⟨⟨res, hs', log⟩, recv'⟩ := o
    dsimp only at ht hlive ⊢
    obtain hres | hres | ⟨rfl, rfl, rfl, hnone⟩ | ⟨msg, hpay, ho⟩ := ht
    · rw [hres, if_neg (by simp), if_neg (by simp)] at hlive
      exact absurd rfl hlive.1
    · rw [hres, if_neg (by simp), if_neg (by simp)] at hlive
      exact absurd rfl hlive.2
    · rw [if_neg (by decide), if_neg fun h => by rw [hw.hrrPending] at h; cases h.2]
      exact ⟨rfl, .inl (by rw [hstate]; rfl), .inl ⟨rfl, fun _ => hnone, fun h => absurd hstate h⟩⟩
    · have hp := parsed_tls13ParseServerHello C hs msg
      generalize tls13ParseServerHello C hs msg = q at hp ho
      cases hp with
      | refused h hlog =>
        cases ho
        have hok : q.res ≠ .ok := by obtain h | ⟨h, -⟩ := h.res <;> rw [h] <;> decide
        have hretry : ¬(q.res = .wantRead ∧ q.hs.hrrPending = true) := by
          obtain h | ⟨h, -⟩ := h.res <;> rw [h] <;> simp
        rw [if_neg hok, if_neg hretry] at hlive
        exact absurd h.res (not_or.2 ⟨hlive.1, fun h => hlive.2 h.1⟩)
      | retry hf hfirst hret =>
        cases ho
        rw [if_neg (by simp), if_pos ⟨rfl, rfl⟩]
        exact ⟨rfl, .inl rfl, .inr ⟨hstate, msg, hpay, hf, rfl⟩⟩
      | accepted h =>
        cases ho
        rw [if_pos rfl]
        exact ⟨rfl, .inr ⟨hstate, rfl⟩, .inr ⟨hstate, msg, hpay, h.framed, rfl⟩⟩
  all_goals cases hst

/-- A ServerHello record is its message and what is behind it. -/
theorem accounts_helloRecord (msg : Bytes) :
    Accounts msg [helloMessage msg] (behindMessage msg) := by
  have h := accounts_behind [helloMessage msg] (behindMessage msg)
  rwa [List.flatten_singleton, helloMessage, behindMessage, List.take_append_drop] at h

/-! ### Runs -/

/-- Where the payload bytes are, by what the handshake is at. -/
inductive LedgerInv (C : Crypto) (l : Ledger) : Prop
  /-- Before the keys they are in the plaintext records. -/
  | hello (hst : l.session.hs.state.beforeKeys = true) (hnothing : l.session.hs.NothingRead)
      (hcipher : l.cipher = [])
      (hplain : Accounts l.plain (serverMessages l.session.log) l.discarded)
  /-- Then in the encrypted records too, and the leftover is still to be looked at. -/
  | reading {hellos msgs : List Bytes} {decrypted : List (UInt8 × Bytes)}
      (hst : l.session.hs.state.reads = true)
      (hlog : serverMessages l.session.log = hellos ++ msgs)
      (hplain : Accounts l.plain hellos l.discarded)
      (hread : Reading C l.ctx l.cipher msgs l.session.hs [] decrypted)
      (hall : ∀ p ∈ decrypted, p.1 = tls13CtHandshake)
  /-- After the server Finished nothing more is read. -/
  | done (hst : l.session.hs.state = .sendFinished ∨ l.session.hs.state = .complete)
      (h : Accounts (l.payload C) (serverMessages l.session.log) l.discarded)

theorem ledgerInv_start (C : Crypto) (hasEngine resuming : Bool)
    (offerTicket : Option SessionTicket) (age : ℕ) :
    LedgerInv C (.start (.start hasEngine resuming offerTicket age)) :=
  .hello rfl ⟨rfl, rfl, Nat.zero_le _⟩ rfl accounts_nil

variable {l : Ledger} {i : StepInput}

@[simp] theorem Ledger.step_session :
    (l.step C hostname i).session = l.session.step C hostname i := by
  unfold Ledger.step
  dsimp only
  split_ifs <;> rfl

@[simp] theorem Ledger.step_discarded :
    (l.step C hostname i).discarded = l.discarded ++ behind C l.session.hs i.recv := by
  unfold Ledger.step
  dsimp only
  split_ifs <;> rfl

/-- The entry of a step that does not wait for a ServerHello. -/
theorem Ledger.step_encrypted (h : l.session.hs.state ≠ .recvServerHello) :
    (l.step C hostname i).plain = l.plain ∧ (l.step C hostname i).ctx = l.ctx ∧
      (l.step C hostname i).cipher = l.cipher ++
        i.recv.take (i.recv.length - (l.session.out C hostname i).recv.length) := by
  unfold Ledger.step
  dsimp only
  rw [if_neg h]
  exact ⟨rfl, rfl, rfl⟩

/-- The entry of a step that waits for a ServerHello. -/
theorem Ledger.step_hello (h : l.session.hs.state = .recvServerHello) :
    (l.step C hostname i).plain = l.plain ++ (helloPayload i.recv).getD [] ∧
      (l.step C hostname i).ctx = (l.session.out C hostname i).hs.readCtx ∧
      (l.step C hostname i).cipher = l.cipher := by
  unfold Ledger.step
  dsimp only
  rw [if_pos h]
  exact ⟨rfl, rfl, rfl⟩

theorem LedgerInv.hello_step (hst : l.session.hs.state.beforeKeys = true)
    (hnothing : l.session.hs.NothingRead) (hcipher : l.cipher = [])
    (hplain : Accounts l.plain (serverMessages l.session.log) l.discarded)
    (hw : l.session.hs.Wf) (hlive : Live C hostname l.session i) :
    LedgerInv C (l.step C hostname i) := by
  have ht : HelloTaken l.session.hs i.recv (l.session.out C hostname i) :=
    helloTaken_step hst hw i.rnd hlive
  have hnothing' : (l.step C hostname i).session.hs.NothingRead := by
    rw [Ledger.step_session]
    refine ⟨?_, ?_, ?_⟩
    · exact (congrArg (·.2.1) ht.plain).trans hnothing.len
    · exact (congrArg (·.2.2) ht.plain).trans hnothing.offset
    · exact Nat.le_trans (Nat.le_of_eq (congrArg (·.1.length) ht.plain)) hnothing.size
  -- the record that was taken, if one was
  have hentry : Accounts (l.step C hostname i).plain
      (serverMessages (l.step C hostname i).session.log) (l.step C hostname i).discarded ∧
        (l.step C hostname i).cipher = [] := by
    rw [Ledger.step_session, Session.step, serverMessages_append, Ledger.step_discarded]
    obtain ⟨hsilent, hnone, hrecv⟩ | ⟨hwaits, msg, hpay, hf, hlog⟩ := ht.taken
    · rw [hsilent, List.append_nil]
      by_cases hwaits : l.session.hs.state = .recvServerHello
      · obtain ⟨hp, -, hc⟩ := @Ledger.step_hello C hostname l i hwaits
        have hbehind : behind C l.session.hs i.recv = [] := by
          rw [behind, hwaits, hnone hwaits]
          rfl
        rw [hp, hc, hnone hwaits, hbehind, List.append_nil, Option.getD_none, List.append_nil]
        exact ⟨hplain, hcipher⟩
      · obtain ⟨hp, -, hc⟩ := @Ledger.step_encrypted C hostname l i hwaits
        have hbehind : behind C l.session.hs i.recv = [] := by
          unfold behind
          split
          · rename_i h
            exact absurd h hwaits
          · rename_i h
            rw [h] at hst
            cases hst
          · rfl
        rw [hp, hc, hrecv hwaits, hbehind, List.append_nil, Nat.sub_self, List.take_zero,
          List.append_nil]
        exact ⟨hplain, hcipher⟩
    · obtain ⟨hp, -, hc⟩ := @Ledger.step_hello C hostname l i hwaits
      have hbehind : behind C l.session.hs i.recv = behindMessage msg := by
        rw [behind, hwaits, hpay]
        rfl
      rw [hp, hc, hlog, hpay, hbehind]
      exact ⟨hplain.append (accounts_helloRecord msg), hcipher⟩
  obtain hkeys | ⟨hwaits, hkeys⟩ := ht.state
  · exact .hello (by rw [Ledger.step_session]; exact hkeys) hnothing' hentry.2 hentry.1
  · obtain ⟨-, hctx, -⟩ := @Ledger.step_hello C hostname l i hwaits
    have hread : Reading C (l.step C hostname i).ctx (l.step C hostname i).cipher []
        (l.step C hostname i).session.hs [] [] := by
      rw [hentry.2, hctx]
      have hread := hnothing'.reading C
      rw [Ledger.step_session] at hread ⊢
      exact hread
    refine .reading ?_ (List.append_nil _).symm hentry.1 hread
      fun _ h => absurd h List.not_mem_nil
    rw [Ledger.step_session, Session.step, hkeys]
    rfl

theorem LedgerInv.reading_step {hellos : List Bytes} (hst : l.session.hs.state.reads = true)
    (hlog : serverMessages l.session.log = hellos ++ msgs)
    (hplain : Accounts l.plain hellos l.discarded)
    (hread : Reading C l.ctx l.cipher msgs l.session.hs [] decrypted)
    (hall : ∀ p ∈ decrypted, p.1 = tls13CtHandshake) (hlive : Live C hostname l.session i) :
    LedgerInv C (l.step C hostname i) := by
  obtain ⟨hp, hctx, hcipher⟩ := @Ledger.step_encrypted C hostname l i fun h => by
    rw [h] at hst
    cases hst
  have hlog' : serverMessages (l.step C hostname i).session.log =
      hellos ++ (msgs ++ serverMessages (l.session.out C hostname i).log) := by
    rw [Ledger.step_session, Session.step, serverMessages_append, hlog, List.append_assoc]
  have hok : (tls13HandshakeStep C hostname i.rnd l.session.hs i.recv).res ≠ .error := hlive.1
  obtain ⟨hreads, hnone, decrypted', hread', hall'⟩ | ⟨hsent, haccounts⟩ :=
    hread.step hall hst i.rnd hok
  · refine .reading (by rw [Ledger.step_session]; exact hreads) hlog' ?_ ?_ hall'
    · rw [hp, Ledger.step_discarded, hnone, List.append_nil]
      exact hplain
    · rw [hctx, hcipher, Ledger.step_session]
      exact hread'
  · refine .done (.inl (by rw [Ledger.step_session]; exact hsent)) ?_
    rw [Ledger.payload, hlog', hp, hctx, hcipher, Ledger.step_discarded]
    exact hplain.append haccounts

theorem LedgerInv.done_step
    (hst : l.session.hs.state = .sendFinished ∨ l.session.hs.state = .complete)
    (h : Accounts (l.payload C) (serverMessages l.session.log) l.discarded) :
    LedgerInv C (l.step C hostname i) := by
  obtain ⟨hp, hctx, hcipher⟩ := @Ledger.step_encrypted C hostname l i fun hwaits => by
    rw [hwaits] at hst
    simp at hst
  have hstep : (l.session.out C hostname i).recv = i.recv ∧
      serverMessages (l.session.out C hostname i).log = [] ∧
        (l.session.out C hostname i).hs.state = .complete := by
    unfold Session.out tls13HandshakeStep
    obtain hst | hst := hst <;> rw [hst] <;> dsimp only
    · rw [tls13StateSendFinished_eq]
      exact ⟨rfl, rfl, rfl⟩
    · exact ⟨rfl, rfl, hst⟩
  have hbehind : behind C l.session.hs i.recv = [] := by
    obtain hst | hst := hst <;> rw [behind, hst]
  refine .done (.inr (by rw [Ledger.step_session]; exact hstep.2.2)) ?_
  rw [Ledger.payload, hp, hctx, hcipher, hstep.1, Nat.sub_self, List.take_zero, List.append_nil,
    Ledger.step_session, Session.step, serverMessages_append, hstep.2.1, List.append_nil,
    Ledger.step_discarded, hbehind, List.append_nil]
  exact h

theorem LedgerInv.step (h : LedgerInv C l) (hw : l.session.hs.Wf)
    (hlive : Live C hostname l.session i) : LedgerInv C (l.step C hostname i) := by
  cases h with
  | hello hst hnothing hcipher hplain => exact .hello_step hst hnothing hcipher hplain hw hlive
  | reading hst hlog hplain hread hall => exact .reading_step hst hlog hplain hread hall hlive
  | done hst h => exact .done_step hst h

end

theorem ledgerInv_of_reach {C : Crypto} {hostname : Bytes} {hasEngine resuming : Bool}
    {offerTicket : Option SessionTicket} {age : ℕ} {l : Ledger}
    (h : Reach (Ledger.step C hostname) (fun l i => Live C hostname l.session i)
      (.start (.start hasEngine resuming offerTicket age)) l) :
    Reach (Session.step C hostname) (Live C hostname)
      (Session.start hasEngine resuming offerTicket age) l.session ∧ LedgerInv C l := by
  induction h with
  | refl => exact ⟨.refl, ledgerInv_start C hasEngine resuming offerTicket age⟩
  | tail _ hlive ih =>
    obtain ⟨hreach, hinv⟩ := ih
    refine ⟨?_, hinv.step (messagesInv_of_reach hreach).wf hlive⟩
    rw [Ledger.step_session]
    exact hreach.tail hlive

/-- Nothing is discarded in a run in which no step finds bytes behind a message that ends an
epoch. -/
theorem discarded_eq_nil {C : Crypto} {hostname : Bytes} {s : Session} {l : Ledger}
    (h : Reach (Ledger.step C hostname) (fun l i => behind C l.session.hs i.recv = [])
      (.start s) l) :
    l.discarded = [] := by
  refine h.invariant (P := fun l => l.discarded = []) rfl fun l i hnil hnone => ?_
  rw [Ledger.step_discarded, hnil, hnone, List.append_nil]

/-- **The bytes of the handshake.**  Where a handshake completes, its transcript is that of the
prescribed messages, and the payload bytes of the server's handshake records are the server's
messages exactly when no byte stood behind a ServerHello in its record or behind the server Finished
in what was decrypted by then. -/
theorem handshake_bytes_iff (C : Crypto) (hostname : Bytes) (hasEngine resuming : Bool)
    (offerTicket : Option SessionTicket) (age : ℕ) {l : Ledger}
    (h : Reach (Ledger.step C hostname) (fun l i => Live C hostname l.session i)
      (.start (.start hasEngine resuming offerTicket age)) l)
    (hst : l.session.hs.state = .complete) :
    TranscriptOk C l.session ∧
      (l.payload C = (serverMessages l.session.log).flatten ↔ l.discarded = []) := by
  obtain ⟨hreach, hinv⟩ := ledgerInv_of_reach h
  refine ⟨(messagesInv_of_reach hreach).ok, ?_⟩
  cases hinv with
  | hello hkeys =>
    rw [hst] at hkeys
    cases hkeys
  | reading hreads =>
    rw [hst] at hreads
    cases hreads
  | done _ haccounts => exact haccounts.eq_iff

/-- The run of a server, entered in the ledger. -/
def ledgerScript (script : List (Session → StepInput)) : List (Ledger → StepInput) :=
  script.map fun f l => f l.session

theorem handshake_bytes_certifiedServer :
    let l := play (Ledger.step .transparent [1]) (.start (.start true false none 0))
      (ledgerScript (certifiedServer .transparent [1]))
    TranscriptOk .transparent l.session ∧
      (l.payload .transparent = (serverMessages l.session.log).flatten ↔ l.discarded = []) :=
  handshake_bytes_iff .transparent [1] true false none 0 (reach_play (by decide +kernel))
    (by decide +kernel)

/-- A server that puts bytes behind its ServerHello, in the record, and behind its Finished. -/
def paddedServer (C : Crypto) (cert : Bytes) : List (Session → StepInput) :=
  let hello := (helloX25519 []).drop 5 ++ [1, 2, 3]
  let padded := [tls13CtHandshake, 0x03, 0x03] ++ putU16 hello.length ++ hello
  [receive [], receive padded] ++ ((certifiedServer C cert).drop 2).take 4 ++
    [serverSays C fun s => hsMessage tls13HtFinished (serverVerifyData C s.hs) ++ [4],
      receive []]

/-- Its handshake completes, and the bytes are gone. -/
theorem handshake_bytes_dropped :
    ¬∀ (C : Crypto) (hostname : Bytes) (hasEngine resuming : Bool)
      (offerTicket : Option SessionTicket) (age : ℕ) (l : Ledger),
      Reach (Ledger.step C hostname) (fun l i => Live C hostname l.session i)
        (.start (.start hasEngine resuming offerTicket age)) l →
      l.session.hs.state = .complete →
      l.payload C = (serverMessages l.session.log).flatten := by
  intro h
  let l := play (Ledger.step .transparent [1]) (.start (.start true false none 0))
    (ledgerScript (paddedServer .transparent [1]))
  obtain ⟨hdone, hne⟩ : l.session.hs.state = .complete ∧
      l.payload .transparent ≠ (serverMessages l.session.log).flatten := by decide +kernel
  exact hne (h .transparent [1] true false none 0 l (reach_play (by decide +kernel)) hdone)

end MacTLS
