import MacTLS.Handshake.Transition
import MacTLS.Record.Stream

/-!
# What the handshake sends

A step of the handshake that wants to write has left one record in `msg_buf`: a ClientHello, or
the client's Finished under the handshake key, which is the last one.

* `Dispatch` : what a step leaves to be sent, and what it keeps when it leaves nothing;
* `HandshakeRecords` : the records of a handshake against the messages in its log;
* `Sending.dispatched` : a step keeps the records in order.
-/

namespace MacTLS

open Lib

/-- The handshake messages a log says were sent. -/
def sentMessages (log : List HsEvent) : List Bytes :=
  log.filterMap fun ev => match ev with
    | .sent msg => some msg
    | _ => none

/-- The record of the client's Finished. -/
def finishedRecord (C : Crypto) (ctx : RecordCtx) (msg : Bytes) : Bytes :=
  applicationRecord (tls13RecordEncrypt C ctx msg tls13CtHandshake).2

/-- The records in which a client sends its handshake messages; at the end there may be a Finished,
the first record under its key. -/
inductive HandshakeRecords (C : Crypto) : List Bytes → List Bytes → Bool → Prop
  | hellos (msgs : List Bytes) : HandshakeRecords C msgs (msgs.map clientHelloRecord) false
  | finished (msgs : List Bytes) {ctx : RecordCtx} (msg : Bytes) (hseq : ctx.seq = 0) :
      HandshakeRecords C (msgs ++ [msg])
        (msgs.map clientHelloRecord ++ [finishedRecord C ctx msg]) true

/-- What a step leaves to be sent. -/
inductive Dispatch (C : Crypto) (hs : HsCtx) (o : Outcome) : Prop
  | nothing (hres : o.res ≠ .wantWrite) (hlog : sentMessages o.log = [])
      (hlen : o.hs.msgLen = hs.msgLen) (hoff : o.hs.msgOffset = hs.msgOffset)
      (hseq : hs.writeCtx.seq = 0 → o.hs.writeCtx.seq = 0)
      (hstate : o.hs.state = .complete ↔ hs.state = .complete) (hccs : o.hs.state ≠ .sendCcs)
  | hello (msg : Bytes) (hres : o.res = .wantWrite) (hlog : o.log = [.sent msg])
      (hrec : o.hs.msgBuf.take o.hs.msgLen = clientHelloRecord msg) (hoff : o.hs.msgOffset = 0)
      (hseq : hs.writeCtx.seq = 0 → o.hs.writeCtx.seq = 0)
      (hst : hs.state = .sendClientHello) (hst' : o.hs.state = .recvServerHello)
  | finished (msg : Bytes) (hres : o.res = .wantWrite) (hlog : o.log = [.sent msg])
      (hrec : o.hs.msgBuf.take o.hs.msgLen = finishedRecord C hs.writeCtx msg)
      (hoff : o.hs.msgOffset = 0) (hseq : o.hs.writeCtx.seq = 0)
      (hst : hs.state = .sendFinished) (hst' : o.hs.state = .complete)

theorem sentMessages_append (a b : List HsEvent) :
    sentMessages (a ++ b) = sentMessages a ++ sentMessages b :=
  List.filterMap_append ..

/-- Events that vouch for a peer are no messages. -/
theorem sentMessages_refused {hs : HsCtx} {o : Outcome} (h : Refused hs o) :
    sentMessages o.log = [] := by
  refine List.filterMap_eq_nil_iff.2 fun ev hev => ?_
  obtain ⟨host, certs, err, rfl⟩ | ⟨key, content, rfl⟩ := h.log ev hev <;> rfl

theorem Transition.dispatch {C : Crypto} {hostname : Bytes} {hs : HsCtx} {recv : Bytes}
    {o : Outcome} (h : Transition C hostname hs recv o) (hccs : hs.state ≠ .sendCcs) :
    Dispatch C hs o := by
  have hread : ∀ {hs₁ : HsCtx}, Read hs hs₁ → hs₁.msgLen = hs.msgLen ∧
      hs₁.msgOffset = hs.msgOffset ∧ hs₁.writeCtx = hs.writeCtx :=
    fun hr => ⟨(congrArg HsCtx.msgLen hr.frame :), (congrArg HsCtx.msgOffset hr.frame :),
      (congrArg HsCtx.writeCtx hr.frame :)⟩
  have hready : ∀ {hs₁ : HsCtx}, HelloReady hs hs₁ → hs₁.msgLen = hs.msgLen ∧
      hs₁.msgOffset = hs.msgOffset ∧ hs₁.writeCtx = hs.writeCtx ∧ hs₁.state = hs.state :=
    fun hr => ⟨(congrArg HsCtx.msgLen hr.frame :), (congrArg HsCtx.msgOffset hr.frame :),
      (congrArg HsCtx.writeCtx hr.frame :), (congrArg HsCtx.state hr.frame :)⟩
  -- a message was read and processed: the step goes on to a state that is not the last
  have hgoes : ∀ {o : Outcome} {st : HsState}, o.res = .ok → sentMessages o.log = [] →
      o.hs.msgLen = hs.msgLen → o.hs.msgOffset = hs.msgOffset → o.hs.writeCtx = hs.writeCtx →
      hs.state = st → st ≠ .complete → o.hs.state ≠ .complete ∧ o.hs.state ≠ .sendCcs →
      Dispatch C hs o := by
    intro o st hres hlog hlen hoff hctx hst hne hne'
    exact .nothing (by rw [hres]; decide) hlog hlen hoff (by rw [hctx]; exact id)
      ⟨fun h => absurd h hne'.1, fun h => absurd (hst.symm.trans h) hne⟩ hne'.2
  cases h with
  | quiet hst hsame hpend hr hlog hres =>
    obtain ⟨hlen, hoff, hctx⟩ := hread hr
    exact .nothing hres (by rw [hlog]; rfl) hlen hoff (by rw [hctx]; exact id) (by rw [hr.state])
      (by rw [hr.state]; exact hccs)
  | notSent hst hres hr hlog =>
    obtain ⟨hs₁, e, site, rfl | hr, ho⟩ := hr
    · refine .nothing (by rw [hres]; decide) (by rw [hlog]; rfl) ?_ ?_ ?_ ?_ ?_ <;> rw [ho]
      · exact id
      · exact hccs
    · obtain ⟨hlen, hoff, hctx, hstate⟩ := hready hr
      refine .nothing (by rw [hres]; decide) (by rw [hlog]; rfl) ?_ ?_ ?_ ?_ ?_ <;> rw [ho]
      · exact hlen
      · exact hoff
      · exact fun h => hctx ▸ h
      · rw [hstate]
      · rw [hstate]
        exact hccs
  | clientHello hst hr hmsg hfit =>
    refine .hello _ rfl rfl (take_blit_zero _ _) rfl (fun h => ?_) hst rfl
    exact (hready hr).2.2.1 ▸ h
  | ccs hst => exact absurd hst hccs
  | helloRefused hst hmsg h hlog =>
    have hres : o.res ≠ .wantWrite := by
      obtain h | ⟨h, -⟩ := h.res <;> rw [h] <;> decide
    refine .nothing hres (by rw [hlog]; rfl) (congrArg HsCtx.msgLen h.frame :)
      (congrArg HsCtx.msgOffset h.frame :) (fun hseq => ?_) ?_ ?_
    · exact (congrArg (fun hs => hs.writeCtx.seq) h.frame).trans hseq
    · rw [show o.hs.state = hs.state from (congrArg HsCtx.state h.frame :)]
    · rw [show o.hs.state = hs.state from (congrArg HsCtx.state h.frame :)]
      exact hccs
  | helloRetry hst hmsg h hfirst =>
    exact hgoes rfl rfl rfl rfl rfl hst (by decide) (by simp)
  | serverHello hst hmsg h =>
    exact .nothing (by simp) rfl rfl rfl (fun _ => rfl)
      ⟨fun h => (by cases h), fun h => (by cases hst.symm.trans h)⟩ (by simp)
  | refused hst hpend hr hup h ho =>
    obtain ⟨hlen, hoff, hctx⟩ := hread hr
    obtain ⟨e, he⟩ := h.hs
    rw [ho]
    refine .nothing (by rw [h.res]; decide)
      (show sentMessages ([.received _] ++ _) = [] from ?_) ?_ ?_ ?_ ?_ ?_
    · rw [sentMessages_append, sentMessages_refused h]
      rfl
    all_goals dsimp only; rw [he]
    · exact hlen
    · exact hoff
    · exact fun h => hctx ▸ h
    · rw [show hs.state = _ from hr.state.symm]
    · exact hr.state ▸ hccs
  | parkedRefused hst hpend h =>
    obtain ⟨e, he⟩ := h.hs
    refine .nothing (by rw [h.res]; decide) (sentMessages_refused h) ?_ ?_ ?_ ?_ ?_ <;> rw [he]
    · exact id
    · exact hccs
  | encryptedExtensions hst hr hup htype =>
    obtain ⟨hlen, hoff, hctx⟩ := hread hr
    refine hgoes rfl rfl hlen hoff hctx hst (by decide) ?_
    dsimp only
    split_ifs <;> decide
  | certificateParked hst hr | certificateRequest hst hr | certificate hst _ hr
  | certificateVerify hst hr | serverFinished hst hr =>
    obtain ⟨hlen, hoff, hctx⟩ := hread hr
    exact hgoes rfl rfl hlen hoff hctx hst (by decide) (by simp [installServerAppKeys])
  | parkedCertificate hst hpend h =>
    exact hgoes rfl rfl rfl rfl rfl hst (by decide) (by simp)
  | clientFinished hst =>
    exact .finished _ rfl rfl (take_blit_zero _ _) rfl rfl hst rfl

/-! ### Along a run -/

/-- What holds of a handshake between any two steps: the records it has queued are those of its
log. -/
structure Sending (C : Crypto) (hs : HsCtx) (log : List HsEvent) (records : List Bytes) : Prop where
  wf : hs.Wf
  noCcs : hs.state ≠ .sendCcs
  seq : hs.writeCtx.seq = 0
  records : HandshakeRecords C (sentMessages log) records (hs.state = .complete)

theorem sending_start (C : Crypto) (hasEngine resuming : Bool) (offerTicket : Option SessionTicket)
    (age : ℕ) : Sending C (Session.start hasEngine resuming offerTicket age).hs [] [] where
  wf := ⟨rfl, Nat.le_refl 0⟩
  noCcs h := by cases h
  seq := rfl
  records := .hellos []

/-- A step keeps the records in order, whether it leaves one to be sent or not. -/
theorem Sending.dispatched {C : Crypto} {hs : HsCtx} {log : List HsEvent} {records : List Bytes}
    (h : Sending C hs log records) {o : Outcome} (hw : o.hs.Wf) (hd : Dispatch C hs o) :
    Sending C o.hs (log ++ o.log)
      (records ++ if o.res = .wantWrite then [o.hs.msgBuf.take o.hs.msgLen] else []) := by
  have hrecords := h.records
  cases hd with
  | nothing hres hlog hlen hoff hseq hstate hccs =>
    refine ⟨hw, hccs, hseq h.seq, ?_⟩
    rw [if_neg hres, List.append_nil, sentMessages_append, hlog, List.append_nil,
      decide_eq_decide.2 hstate]
    exact hrecords
  | hello msg hres hlog hrec hoff hseq hst hst' =>
    refine ⟨hw, by rw [hst']; decide, hseq h.seq, ?_⟩
    rw [if_pos hres, hrec, sentMessages_append, hlog]
    rw [hst] at hrecords
    rw [hst']
    generalize sentMessages log = msgs at hrecords ⊢
    cases hrecords with
    | hellos =>
      have hall := HandshakeRecords.hellos (C := C) (msgs ++ [msg])
      rw [List.map_append] at hall
      exact hall
  | finished msg hres hlog hrec hoff hseq hst hst' =>
    refine ⟨hw, by rw [hst']; decide, hseq, ?_⟩
    rw [if_pos hres, hrec, sentMessages_append, hlog]
    rw [hst] at hrecords
    rw [hst']
    generalize sentMessages log = msgs at hrecords ⊢
    cases hrecords with
    | hellos => exact .finished msgs msg h.seq

end MacTLS
