import MacTLS.Handshake.Authentication
import MacTLS.Handshake.Sending
import Mathlib.Data.List.DropRight

/-!
# The client's second flight

What a client has to send after the server's flight: a ChangeCipherSpec record, an empty
Certificate if the server asked for one, and its Finished.  The client sends the Finished alone.

* `Client` : a session with the records it has handed to the transport;
* `MatchesFlight` : the second flight is the one that the server's flight asks for;
* `second_flight_incomplete` : no handshake that completes has sent such a flight.
-/

namespace MacTLS

open Lib

/-! ### Records that were sent -/

/-- A session with the records in `msg_buf` that its caller was told to send. -/
structure Client where
  session : Session
  records : List Bytes

/-- One step; a record that it leaves to be sent is sent. -/
def Client.step (C : Crypto) (hostname : Bytes) (c : Client) (i : StepInput) : Client :=
  let o := c.session.out C hostname i
  ⟨c.session.step C hostname i,
    c.records ++ if o.res = .wantWrite then [o.hs.msgBuf.take o.hs.msgLen] else []⟩

/-- The records after the last ClientHello. -/
def secondFlight (records : List Bytes) : List Bytes :=
  records.rtakeWhile fun r => byteAt r 0 ≠ tls13CtHandshake

theorem byteAt_finishedRecord (C : Crypto) (ctx : RecordCtx) (msg : Bytes) :
    byteAt (finishedRecord C ctx msg) 0 = 23 := rfl

/-! ### What is to be sent -/

/-- A Certificate message with no certificates. -/
def emptyCertificate (context : Bytes) : Bytes :=
  hsMessage tls13HtCertificate (UInt8.ofNat context.length :: (context ++ [0, 0, 0]))

/-- The Certificate that a client without certificates owes. -/
def owedCertificate (requested : Bool) (context : Bytes) : List Bytes :=
  if requested then [emptyCertificate context] else []

/-- The second flight is a ChangeCipherSpec record, the Certificate that is owed and the Finished,
and the transcript has the same messages behind the server's Finished. -/
structure MatchesFlight (C : Crypto) (c : Client) : Prop where
  flight : ∃ context finished serverFinished before ctx,
    let owed := owedCertificate c.session.hs.certRequestReceived context
    secondFlight c.records = tls13BuildCcs :: (owed.map (finishedRecord C ctx) ++
        [finishedRecord C (if owed = [] then ctx else ctx.next) finished]) ∧
      IsMessage tls13HtFinished serverFinished ∧ IsMessage tls13HtFinished finished ∧
      c.session.hs.transcript.data = before ++ serverFinished ++ owed.flatten ++ finished

/-! ### Runs -/

section

variable {C : Crypto} {hostname : Bytes} {c : Client}

theorem sending_step (i : StepInput) (h : Sending C c.session.hs c.session.log c.records) :
    Sending C (c.step C hostname i).session.hs (c.step C hostname i).session.log
      (c.step C hostname i).records := by
  have ht := transition_step C hostname i.rnd i.recv h.wf
  exact h.dispatched (ht.wf h.wf) (ht.dispatch h.noCcs)

/-- Behind the hellos, a handshake that completed has sent one record. -/
theorem secondFlight_eq (h : Sending C c.session.hs c.session.log c.records)
    (hst : c.session.hs.state = .complete) :
    ∃ ctx msg, ctx.seq = 0 ∧ secondFlight c.records = [finishedRecord C ctx msg] := by
  have hrecords := h.records
  rw [hst] at hrecords
  generalize sentMessages c.session.log = msgs at hrecords
  generalize c.records = records at hrecords
  cases hrecords with
  | @finished hellos ctx msg hseq =>
    refine ⟨ctx, msg, hseq, ?_⟩
    rw [secondFlight, List.rtakeWhile_concat_pos _ _ _ (by rw [byteAt_finishedRecord]; decide)]
    rcases List.eq_nil_or_concat hellos with rfl | ⟨hellos, last, rfl⟩
    · rfl
    · rw [List.concat_eq_append, List.map_append]
      exact congrArg (· ++ _)
        (List.rtakeWhile_concat_neg _ _ _ (by simp [clientHelloRecord, byteAt]))

end

/-- **The second flight.**  Whatever the server's flight was, a handshake that completes has sent
one record after its last ClientHello, the Finished: no ChangeCipherSpec before it, and no
Certificate when one was requested. -/
theorem second_flight_incomplete (C : Crypto) (hostname : Bytes) (hasEngine resuming : Bool)
    (offerTicket : Option SessionTicket) (age : ℕ) {c : Client}
    (h : Reach (Client.step C hostname) (fun _ _ => True)
      ⟨Session.start hasEngine resuming offerTicket age, []⟩ c)
    (hst : c.session.hs.state = .complete) :
    (∃ ctx msg, ctx.seq = 0 ∧ secondFlight c.records = [finishedRecord C ctx msg]) ∧
      ¬MatchesFlight C c := by
  have hsending : Sending C c.session.hs c.session.log c.records :=
    h.invariant (P := fun c => Sending C c.session.hs c.session.log c.records)
      (sending_start C hasEngine resuming offerTicket age) fun _ i hc _ => sending_step i hc
  have hone := secondFlight_eq hsending hst
  refine ⟨hone, fun hflight => ?_⟩
  obtain ⟨_, _, -, heq⟩ := hone
  obtain ⟨_, _, _, _, _, hmust, -⟩ := hflight.flight
  rw [heq, List.cons.injEq] at hmust
  -- an application data record is not a ChangeCipherSpec record
  have hbyte := congrArg (byteAt · 0) hmust.1
  rw [byteAt_finishedRecord] at hbyte
  exact absurd hbyte (by decide)

/-! ### A certified server -/

/-- A client after the flight of a server with a certificate. -/
def certifiedClient : Client :=
  play (Client.step .transparent [1]) ⟨Session.start true false none 0, []⟩
    ((certifiedServer .transparent [1]).map fun input c => input c.session)

theorem reach_certifiedClient : Reach (Client.step .transparent [1]) (fun _ _ => True)
    ⟨Session.start true false none 0, []⟩ certifiedClient :=
  reach_play (by decide +kernel)

theorem certifiedClient_complete : certifiedClient.session.hs.state = .complete := by
  decide +kernel

theorem second_flight_certifiedClient :
    (∃ ctx msg, ctx.seq = 0 ∧
      secondFlight certifiedClient.records = [finishedRecord .transparent ctx msg]) ∧
      ¬MatchesFlight .transparent certifiedClient :=
  second_flight_incomplete .transparent [1] true false none 0 reach_certifiedClient
    certifiedClient_complete

/-- The flight of a server with a certificate is not matched: the Finished goes first. -/
theorem second_flight_unmatched :
    ¬∀ (C : Crypto) (hostname : Bytes) (hasEngine resuming : Bool)
      (offerTicket : Option SessionTicket) (age : ℕ) (c : Client),
      Reach (Client.step C hostname) (fun _ _ => True)
        ⟨Session.start hasEngine resuming offerTicket age, []⟩ c →
      c.session.hs.state = .complete → MatchesFlight C c := by
  intro h
  have hflight := (h .transparent [1] true false none 0 certifiedClient reach_certifiedClient
    certifiedClient_complete).flight
  obtain ⟨_, _, _, _, _, hmust, -⟩ := hflight
  have hfirst : byteAt ((secondFlight certifiedClient.records).headD []) 0 = 20 := by
    rw [hmust]
    rfl
  exact absurd hfirst (by decide +kernel)

end MacTLS
