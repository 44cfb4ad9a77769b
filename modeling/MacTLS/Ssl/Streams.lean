import MacTLS.Ssl.Outgoing

/-!
# The streams of the record engine

Whatever the transport, the application and the handshake processor do, in whatever order and in
pieces of whatever sizes, the engine gives out the payload of the records that come in, and sends
the records of the payload that is put in.

* `Exact` : the invariant of a run;
* `exact_step` : every operation keeps it;
* `streams_exact` : every run of the engine.
-/

namespace MacTLS

open Lib

open RecEngine

variable {I O : Type} {RI : RecordIn I} {RO : RecordOut O} {used frag : ℕ} {rc rc' : RecEngine I O}
  {e : EngineRun I O}

/-- The streams are exact: what came in was taken or is pending, and what was put in was sealed or
waits; what was sealed was sent or is not sent yet. -/
structure Exact (RI : RecordIn I) (RO : RecordOut O) (used frag : ℕ) (e : EngineRun I O) :
    Prop where
  apart : Apart RI used e.rc
  fragPos : 0 < e.rc.maxFragLen
  fragLe : e.rc.maxFragLen ≤ frag
  working : e.rc.iomode ≠ .failed → Modes e.rc ∧ Outgoing RO frag e.rc
  input : ∃ s, (rxMachine RI e.rc.ibufLen).Reads .start e.input (e.taken ++ e.rc.pending) s ∧
    Means RI used e.rc s
  outCtx : (sealAll RO none e.output).1 = e.rc.outCtx
  bytes : (sealAll RO none e.output).2.flatten = e.sent ++ e.rc.unsent
  payload : sealedPayload e.output ++ e.rc.waiting = e.pushed
  fragments : ∀ event ∈ e.output, event.payload.length ≤ frag

/-! ### One direction at a time -/

theorem SameInput.means (h : SameInput rc rc') (hmode : rc'.iomode = rc.iomode)
    (herr : rc'.err = rc.err) {s : RxState I} (hmeans : Means RI used rc s) :
    Means RI used rc' s := by
  rw [Means] at hmeans ⊢
  rw [hmode, herr, h.inCtx, h.versionIn]
  split_ifs at hmeans ⊢ with hfail
  · exact hmeans
  · exact ⟨hmeans.1, hmeans.2.1, h.incoming hmeans.2.2⟩

theorem apart_congr (hap : Apart RI used rc) (hibuf : rc'.ibuf = rc.ibuf)
    (hibufLen : rc'.ibufLen = rc.ibufLen) (hobuf : rc'.obuf = rc.obuf)
    (hobufLen : rc'.obufLen = rc.obufLen) : Apart RI used rc' := by
  obtain ⟨hroom, hout, hle, hclear, hsealed, hap⟩ := hap
  constructor <;> simp only [hibuf, hibufLen, hobuf, hobufLen] <;> assumption

/-- Symbols come in, and payload is taken off. -/
theorem Exact.inward (h : Exact RI RO used frag e) (input : List (InSymbol I))
    (taken : List (UInt8 × UInt8)) (hap : Apart RI used rc') (hlen : rc'.ibufLen = e.rc.ibufLen)
    (hreads : ∀ s, Means RI used e.rc s → ∃ out s',
      (rxMachine RI e.rc.ibufLen).Reads s input out s' ∧
      e.rc.pending ++ out = taken ++ rc'.pending ∧ Means RI used rc' s')
    (hout : SameOutput e.rc rc')
    (hmodes : rc'.iomode ≠ .failed → e.rc.iomode ≠ .failed ∧ Modes rc') :
    Exact RI RO used frag
      { e with rc := rc', input := e.input ++ input, taken := e.taken ++ taken } := by
  obtain ⟨s, hs, hmeans⟩ := h.input
  obtain ⟨out, s', hs', hout', hmeans'⟩ := hreads s hmeans
  refine ⟨hap, hout.maxFragLen ▸ h.fragPos, hout.maxFragLen ▸ h.fragLe, fun halive => ?_,
    ⟨s', ?_, hmeans'⟩, h.outCtx.trans hout.outCtx.symm, ?_, ?_, h.fragments⟩
  · exact ⟨(hmodes halive).2, hout.outgoing (h.working (hmodes halive).1).2⟩
  · have htrans := hs.trans hs'
    rw [List.append_assoc, hout', ← List.append_assoc] at htrans
    show (rxMachine RI rc'.ibufLen).Reads _ _ _ _
    rw [hlen]
    exact htrans
  · rw [hout.unsent]
    exact h.bytes
  · rw [hout.waiting]
    exact h.payload

/-- Payload is put in, records are made, and bytes are sent. -/
theorem Exact.outward (h : Exact RI RO used frag e) {pushed sent : Bytes}
    {output : List (OutEvent O)} (hap : Apart RI used rc') (hin : SameInput e.rc rc')
    (halive : e.rc.iomode ≠ .failed) (halive' : rc'.iomode ≠ .failed)
    (hfrag : rc'.maxFragLen = e.rc.maxFragLen) (hmodes : Modes rc') (hout : Outgoing RO frag rc')
    (hemits : Emits RO frag e.rc rc' pushed output sent) :
    Exact RI RO used frag { e with
      rc := rc', pushed := e.pushed ++ pushed, output := e.output ++ output,
      sent := e.sent ++ sent } := by
  obtain ⟨s, hs, hmeans⟩ := h.input
  have hctx := hemits.outCtx
  have hbytes := hemits.bytes
  rw [← h.outCtx] at hctx hbytes
  refine ⟨hap, hfrag ▸ h.fragPos, hfrag ▸ h.fragLe, fun _ => ⟨hmodes, hout⟩, ⟨s, ?_, ?_⟩, ?_, ?_,
    ?_, fun event hmem => ?_⟩
  · show (rxMachine RI rc'.ibufLen).Reads _ _ (_ ++ rc'.pending) _
    rw [hin.ibufLen, hin.pending]
    exact hs
  · rw [Means, if_neg halive] at hmeans
    rw [Means, if_neg halive']
    exact ⟨hmeans.1.trans hin.inCtx.symm, hmeans.2.1.trans hin.versionIn.symm,
      hin.incoming hmeans.2.2⟩
  · rw [sealAll_append]
    exact hctx
  · rw [sealAll_append, List.flatten_append, h.bytes, List.append_assoc, hbytes, List.append_assoc]
  · rw [sealedPayload_append, List.append_assoc, ← hemits.payload, ← List.append_assoc, h.payload]
  · exact (List.mem_append.1 hmem).elim (h.fragments event) (hemits.fragments event)

/-! ### What is offered -/

theorem mem_recvrecBuf {r : ℕ × ℕ} : r ∈ rc.recvrecBuf ↔ rc.shutdownRecv = false ∧ rc.Receives ∧
    rc.ixa = rc.ixb ∧ r = (rc.ibuf + rc.ixa, min rc.ixc (rc.ibufLen - rc.ixa)) := by
  unfold recvrecBuf RecEngine.Receives
  by_cases h : rc.ixa = rc.ixb <;> cases rc.shutdownRecv <;> cases rc.iomode <;> simp [h, eq_comm]

theorem mem_recvpldBuf {r : ℕ × ℕ} : r ∈ rc.recvpldBuf ↔ rc.Receives ∧ rc.ixa < rc.ixb ∧
    r = (rc.ibuf + rc.ixa, rc.ixb - rc.ixa) := by
  unfold recvpldBuf RecEngine.Receives
  by_cases h : rc.ixb - rc.ixa = 0 <;> cases rc.iomode <;> simp [h, eq_comm] <;> omega

theorem mem_sendpldBuf {r : ℕ × ℕ} : r ∈ rc.sendpldBuf ↔ rc.Sends ∧ rc.oxa < rc.oxb ∧
    r = (rc.obuf + rc.oxa, rc.oxb - rc.oxa) := by
  unfold sendpldBuf RecEngine.Sends
  by_cases h : rc.oxb - rc.oxa = 0 <;> cases rc.iomode <;> simp [h, eq_comm] <;> omega

theorem mem_sendrecBuf {r : ℕ × ℕ} : r ∈ rc.sendrecBuf ↔ rc.Sends ∧ rc.oxa < rc.oxc ∧
    r = (rc.obuf + rc.oxa, rc.oxc - rc.oxa) := by
  unfold sendrecBuf RecEngine.Sends
  by_cases h : rc.oxc > rc.oxa <;> cases rc.iomode <;> simp [h, eq_comm]

/-! ### Operations -/

/-- The transport brings bytes: what the stream makes of them, and what else may change. -/
theorem Exact.inject (h : Exact RI RO used frag e) {bytes : Bytes}
    (hok : e.Allowed (.inject bytes)) :
    e.rc.Receives ∧ e.rc.ixa = e.rc.ixb ∧
      InputFrame used e.rc (e.step RI RO (.inject bytes)).rc ∧
      ∀ s, Means RI used e.rc s → ∃ out s',
        (rxMachine RI e.rc.ibufLen).Reads s (bytes.map .byte) out s' ∧
          Took RI used (e.step RI RO (.inject bytes)).rc out s' := by
  obtain ⟨hpos, r, hr, hle⟩ := hok
  obtain ⟨-, hrec, hxab, rfl⟩ := mem_recvrecBuf.1 hr
  obtain ⟨hm, -⟩ := h.working hrec.alive
  have hle := Nat.le_min.1 hle
  have hinject := fun (s : RxState I) (hs : Means RI used e.rc s) => by
    obtain ⟨hctx, hversion, hin⟩ := (means_iff hrec.alive).1 hs
    exact reads_inject h.apart hm hrec hctx hversion hin hpos hxab hle.1 hle.2
  obtain ⟨s, -, hs⟩ := h.input
  obtain ⟨-, -, -, -, hframe⟩ := hinject s hs
  refine ⟨hrec, hxab, hframe, fun s hs => ?_⟩
  obtain ⟨out, s', hreads, htook, -⟩ := hinject s hs
  exact ⟨out, s', hreads, htook⟩

/-- The transport brings bytes. -/
theorem exact_inject (h : Exact RI RO used frag e) {bytes : Bytes}
    (hok : e.Allowed (.inject bytes)) : Exact RI RO used frag (e.step RI RO (.inject bytes)) := by
  obtain ⟨hrec, hxab, hframe, hreads⟩ := h.inject hok
  obtain ⟨hm, -⟩ := h.working hrec.alive
  have hexact := h.inward (bytes.map .byte) [] (apart_congr h.apart hframe.ibuf hframe.ibufLen
    hframe.obuf hframe.obufLen) hframe.ibufLen (fun s hs => ?_)
    (hframe.sameOutput h.apart hm hrec) fun halive => ⟨hrec.alive, hframe.modes hm hrec halive⟩
  · rw [List.append_nil] at hexact
    exact hexact
  · obtain ⟨out, s', hreads, hout, hmeans⟩ := hreads s hs
    refine ⟨out, s', hreads, ?_, hmeans⟩
    rw [pending_of_eq hxab, hout]

/-- Payload is taken off. -/
theorem Exact.take (h : Exact RI RO used frag e) {n : ℕ} (hok : e.Allowed (.take n)) :
    e.rc.Receives ∧ InputFrame used e.rc (e.rc.recvpldAck n) ∧
      e.rc.pending = (e.rc.mem.read (e.rc.ibuf + e.rc.ixa) n).map (e.rc.recordTypeIn, ·) ++
        (e.rc.recvpldAck n).pending ∧
      ∀ s, Means RI used e.rc s → Means RI used (e.rc.recvpldAck n) s := by
  obtain ⟨hpos, r, hr, hle⟩ := hok
  obtain ⟨hrec, hlt, rfl⟩ := mem_recvpldBuf.1 hr
  obtain ⟨hm, -⟩ := h.working hrec.alive
  have htake := fun (s : RxState I) (hs : Means RI used e.rc s) =>
    takes hm hrec ((means_iff hrec.alive).1 hs).2.2 hpos hle
  obtain ⟨s, -, hs⟩ := h.input
  obtain ⟨-, -, -, hpending, -, hframe⟩ := htake s hs
  refine ⟨hrec, hframe, hpending, fun s hs => ?_⟩
  obtain ⟨halive, hctx, hversion, -, hin, -⟩ := htake s hs
  obtain ⟨hctx₀, hversion₀, -⟩ := (means_iff hrec.alive).1 hs
  exact (means_iff halive).2 ⟨hctx₀.trans hctx.symm, hversion₀.trans hversion.symm, hin⟩

theorem exact_take (h : Exact RI RO used frag e) {n : ℕ} (hok : e.Allowed (.take n)) :
    Exact RI RO used frag (e.step RI RO (.take n)) := by
  obtain ⟨hrec, hframe, hpending, hmeans⟩ := h.take hok
  obtain ⟨hm, -⟩ := h.working hrec.alive
  have hexact := h.inward [] ((e.rc.mem.read (e.rc.ibuf + e.rc.ixa) n).map (e.rc.recordTypeIn, ·))
    (apart_congr h.apart hframe.ibuf hframe.ibufLen hframe.obuf hframe.obufLen) hframe.ibufLen
    (fun s hs => ⟨[], s, .nil, by rw [List.append_nil, hpending], hmeans s hs⟩)
    (hframe.sameOutput h.apart hm hrec) fun halive => ⟨hrec.alive, hframe.modes hm hrec halive⟩
  rw [List.append_nil] at hexact
  exact hexact

/-- The outgoing direction makes a step within its frame. -/
theorem Exact.framed (h : Exact RI RO used frag e) {pushed sent : Bytes}
    {output : List (OutEvent O)} (hs : e.rc.Sends) (hframe : OutputFrame e.rc rc')
    (hout : Outgoing RO frag rc') (hemits : Emits RO frag e.rc rc' pushed output sent) :
    Exact RI RO used frag { e with
      rc := rc', pushed := e.pushed ++ pushed, output := e.output ++ output,
      sent := e.sent ++ sent } := by
  obtain ⟨hm, -⟩ := h.working hs.alive
  obtain ⟨s, -, hmeans⟩ := h.input
  exact h.outward (apart_congr h.apart hframe.ibuf hframe.ibufLen hframe.obuf hframe.obufLen)
    (hframe.sameInput h.apart hm hs ((means_iff hs.alive).1 hmeans).2.2) hs.alive hframe.alive
    hframe.maxFragLen (hframe.modes hm hs) hout hemits

/-- Payload is put in. -/
theorem Exact.put (h : Exact RI RO used frag e) {bytes : Bytes} (hok : e.Allowed (.put bytes)) :
    let e' := e.step RI RO (.put bytes)
    OutputFrame e.rc e'.rc ∧ Exact RI RO used frag e' := by
  obtain ⟨hpos, r, hr, hle⟩ := hok
  obtain ⟨hs, hlt, rfl⟩ := mem_sendpldBuf.1 hr
  obtain ⟨hm, hout⟩ := h.working hs.alive
  obtain ⟨hemits, hout', hframe⟩ := puts h.apart.outRoom hm hs hout hpos hle
  have hexact := h.framed hs hframe hout' hemits
  rw [List.append_nil] at hexact
  exact ⟨hframe, hexact⟩

/-- The payload that waits is sealed. -/
theorem Exact.flush (h : Exact RI RO used frag e) {force : Bool} (hok : e.Allowed (.flush force)) :
    let e' := e.step RI RO (.flush force)
    (e'.rc = e.rc ∨ OutputFrame e.rc e'.rc) ∧ Exact RI RO used frag e' := by
  obtain ⟨halive, hforce⟩ := hok
  obtain ⟨hm, hout⟩ := h.working halive
  obtain ⟨hemits, hflush | ⟨hs, hout', hframe⟩⟩ := flushes h.apart.outRoom hm hout hforce
  · refine ⟨.inl hflush, ?_⟩
    rw [hflush] at hemits
    have hexact := h.outward h.apart ⟨rfl, rfl, rfl, rfl, rfl, rfl, rfl, rfl, fun _ _ => rfl⟩ halive
      halive rfl hm hout hemits
    rw [List.append_nil, List.append_nil] at hexact
    rw [EngineRun.step, hflush]
    exact hexact
  · have hexact := h.framed hs hframe hout' hemits
    rw [List.append_nil, List.append_nil] at hexact
    exact ⟨.inr hframe, hexact⟩

/-- The transport takes bytes. -/
theorem Exact.send (h : Exact RI RO used frag e) {n : ℕ} (hok : e.Allowed (.send n)) :
    let e' := e.step RI RO (.send n)
    OutputFrame e.rc e'.rc ∧ Exact RI RO used frag e' := by
  obtain ⟨hpos, r, hr, hle⟩ := hok
  obtain ⟨hs, hlt, rfl⟩ := mem_sendrecBuf.1 hr
  obtain ⟨hm, hout⟩ := h.working hs.alive
  obtain ⟨hemits, hout', hframe⟩ := sends h.apart.outRoom h.fragPos h.fragLe hm hout hpos hle
  have hexact := h.framed hs hframe hout' hemits
  rw [List.append_nil, List.append_nil] at hexact
  exact ⟨hframe, hexact⟩

/-- The handshake processor does something to the stream that comes in. -/
theorem Exact.told (h : Exact RI RO used frag e) (x : InSymbol I)
    (halive : e.rc.iomode ≠ .failed)
    (hmeans : ∀ s, Means RI used e.rc s → ((rxMachine RI e.rc.ibufLen).next s x).2 = [] ∧
      Means RI used rc' ((rxMachine RI e.rc.ibufLen).next s x).1)
    (hap : Apart RI used rc') (hlen : rc'.ibufLen = e.rc.ibufLen)
    (hpending : rc'.pending = e.rc.pending)
    (hout : SameOutput e.rc rc') (hmodes : rc'.iomode ≠ .failed → Modes rc') :
    Exact RI RO used frag { e with rc := rc', input := e.input ++ [x] } := by
  have hexact := h.inward [x] [] hap hlen (fun s hs => ?_) hout
    fun halive' => ⟨halive, hmodes halive'⟩
  · rw [List.append_nil] at hexact
    exact hexact
  · have hgoes := ((means_iff halive).1 hs).2.2.goes
    obtain ⟨hnone, hnext⟩ := hmeans s hs
    exact ⟨[], _, .single (rx_goes hgoes) (Prod.ext rfl hnone),
      by rw [hpending]; exact List.append_nil _, hnext⟩

/-- Encryption is turned on for the records that come in. -/
theorem exact_switchIn (h : Exact RI RO used frag e) {i : I} (hok : e.Allowed (.switchIn i)) :
    Exact RI RO used frag (e.step RI RO (.switchIn i)) := by
  obtain ⟨halive, hfinished⟩ := hok
  obtain ⟨hm, hout⟩ := h.working halive
  have halive' : ({ e.rc with inCtx := some i } : RecEngine I O).iomode ≠ .failed := halive
  refine h.told (.switch i) halive (fun s hs => ⟨rfl, ?_⟩) (apart_congr h.apart rfl rfl rfl rfl) rfl
    rfl ⟨rfl, rfl, rfl, rfl, rfl, rfl, rfl, fun _ _ _ => rfl⟩
    fun _ => ⟨hm.both, hm.input, hm.output⟩
  obtain ⟨-, hversion, hin⟩ := (means_iff halive).1 hs
  refine (means_iff halive').2 ⟨rfl, hversion, ?_⟩
  show Incoming RI used _ s.phase
  -- no record is half way in
  have hheader : e.rc.ixc = 0 ∨ e.rc.ixa < 5 := by
    unfold brSslEngineRecvrecFinished at hfinished
    have hidle : e.rc.iomode = .output → e.rc.ixa = 0 := fun hmode => by
      by_cases heq : e.rc.ibuf = e.rc.obuf
      · exact (hm.input heq (by rw [hmode]; exact fun h => by cases h)).1
      · rw [hm.both heq] at hmode
        cases hmode
    cases hmode : e.rc.iomode with
    | failed => exact absurd hmode halive
    | input => simpa [hmode] using hfinished
    | inout => simpa [hmode] using hfinished
    | output => exact .inr (by rw [hidle hmode]; decide)
  generalize s.phase = phase at hin
  cases hin with
  | header hlen hxa hxb hxc hmem => exact .header hlen hxa hxb hxc hmem
  | payload h5 hlt hle hxc => exact .payload h5 hlt hle hxc
  | clear hcrypt hleft hmax hxc h5 => omega
  | sealed hcrypt hleft hxc hxa => omega

/-- The version of the records that come in is set. -/
theorem exact_setVersionIn (h : Exact RI RO used frag e) {version : ℕ}
    (hok : e.Allowed (.setVersionIn version)) :
    Exact RI RO used frag (e.step RI RO (.setVersionIn version)) := by
  have halive : e.rc.iomode ≠ .failed := hok
  obtain ⟨hm, hout⟩ := h.working halive
  have halive' : ({ e.rc with versionIn := version } : RecEngine I O).iomode ≠ .failed := halive
  refine h.told (.version version) halive (fun s hs => ⟨rfl, ?_⟩)
    (apart_congr h.apart rfl rfl rfl rfl) rfl rfl
    ⟨rfl, rfl, rfl, rfl, rfl, rfl, rfl, fun _ _ _ => rfl⟩ fun _ => ⟨hm.both, hm.input, hm.output⟩
  obtain ⟨hcrypt, -, hin⟩ := (means_iff halive).1 hs
  refine (means_iff halive').2 ⟨hcrypt, rfl, ?_⟩
  show Incoming RI used _ s.phase
  generalize s.phase = phase at hin
  cases hin with
  | header hlen hxa hxb hxc hmem => exact .header hlen hxa hxb hxc hmem
  | payload h5 hlt hle hxc => exact .payload h5 hlt hle hxc
  | clear hcrypt hleft hmax hxc h5 hxb hwait hle =>
    exact .clear hcrypt hleft hmax hxc h5 hxb hwait hle
  | sealed hcrypt hleft hxc hxa hxb hmem hok hfits =>
    exact .sealed hcrypt hleft hxc hxa hxb hmem hok hfits

/-- The engine is made to fail. -/
theorem exact_fail (h : Exact RI RO used frag e) (err : ℕ) :
    Exact RI RO used frag (e.step RI RO (.fail err)) := by
  by_cases halive : e.rc.iomode = .failed
  · have hstep : e.step RI RO (.fail err) = e := by
      rw [EngineRun.step, if_pos halive, List.append_nil, brSslEngineFail,
        if_neg (fun h => h halive)]
    rwa [hstep]
  · rw [EngineRun.step, if_neg halive, brSslEngineFail, if_pos halive]
    exact h.told (.fail err) halive (fun s _ => ⟨rfl, rfl⟩) (apart_congr h.apart rfl rfl rfl rfl)
      rfl rfl ⟨rfl, rfl, rfl, rfl, rfl, rfl, rfl, fun _ _ _ => rfl⟩ fun h => absurd rfl h

/-- Encryption is turned on for the records that go out. -/
theorem exact_switchOut (h : Exact RI RO used frag e) {o : O} (hok : e.Allowed (.switchOut o)) :
    Exact RI RO used frag (e.step RI RO (.switchOut o)) := by
  obtain ⟨halive, hsends⟩ := hok
  obtain ⟨hm, hout⟩ := h.working halive
  -- the record on its way was sealed before
  have hsending : e.rc.oxa = e.rc.oxb ∧ e.rc.oxa ≠ e.rc.oxc := of_decide_eq_true hsends
  have hnone : e.rc.waiting = [] := if_pos hsending.1
  have hout' : Outgoing RO frag ({ e.rc with outCtx := some o } : RecEngine I O) := by
    cases hout with
    | gathering hlt => omega
    | sending heq hlt hend => exact .sending heq hlt hend
  have hexact : Exact RI RO used frag { e with
      rc := { e.rc with outCtx := some o }
      pushed := e.pushed ++ []
      output := e.output ++ [.switch o]
      sent := e.sent ++ [] } :=
    h.outward (apart_congr h.apart rfl rfl rfl rfl)
      ⟨rfl, rfl, rfl, rfl, rfl, rfl, rfl, rfl, fun _ _ => rfl⟩ halive halive rfl
      ⟨hm.both, hm.input, hm.output⟩ hout'
      ⟨rfl, List.append_nil _, List.append_nil _, fun event hmem => ?_⟩
  · rw [List.append_nil, List.append_nil] at hexact
    exact hexact
  · obtain rfl := List.mem_singleton.1 hmem
    exact Nat.zero_le _

/-- Smaller fragments are agreed on. -/
theorem exact_newMaxFragLen (h : Exact RI RO used frag e) {n : ℕ}
    (hok : e.Allowed (.newMaxFragLen n)) :
    Exact RI RO used frag (e.step RI RO (.newMaxFragLen n)) := by
  obtain ⟨hpos, hle⟩ := hok
  have hfrag := h.fragLe
  set rc' := e.rc.brSslEngineNewMaxFragLen n
  have hxb : rc'.oxb =
      if e.rc.oxa < e.rc.oxb ∧ e.rc.oxb > e.rc.oxc + n ∧ e.rc.oxa < e.rc.oxc + n then
        e.rc.oxc + n else e.rc.oxb := rfl
  have hxa : rc'.oxa = e.rc.oxa := rfl
  have hxc : rc'.oxc = e.rc.oxc := rfl
  -- the end of the room may move closer, but never onto what was gathered
  have heq : rc'.oxa = rc'.oxb ↔ e.rc.oxa = e.rc.oxb := by
    rw [hxa, hxb]
    split_ifs <;> omega
  refine ⟨apart_congr h.apart rfl rfl rfl rfl, hpos, hle.trans hfrag, fun halive => ?_, ?_,
    h.outCtx, ?_, ?_, h.fragments⟩
  · obtain ⟨hm, hout⟩ := h.working halive
    refine ⟨⟨hm.both, hm.input, fun hone hmode => ?_⟩, ?_⟩
    · have hidle := hm.output hone hmode
      show rc'.oxa = rc'.oxc ∧ rc'.oxa < rc'.oxb
      rw [hxa, hxc, hxb]
      split_ifs <;> omega
    · cases hout with
      | sending heq' hlt hend => exact .sending (heq.2 heq') hlt hend
      | gathering hlt hstart hlow hend hfrag =>
        refine .gathering ?_ hstart hlow ?_ ?_
        · show rc'.oxa < rc'.oxb
          rw [hxa, hxb]
          split_ifs <;> omega
        · show rc'.oxb ≤ (e.rc.plaintextRoom RO).2
          rw [hxb]
          split_ifs <;> omega
        · show rc'.oxb ≤ rc'.oxc + frag
          rw [hxc, hxb]
          split_ifs <;> omega
  · obtain ⟨s, hreads, hmeans⟩ := h.input
    have hsame : SameInput e.rc rc' :=
      ⟨rfl, rfl, rfl, rfl, rfl, rfl, rfl, rfl, fun _ _ => rfl⟩
    exact ⟨s, hreads, hsame.means rfl rfl hmeans⟩
  · have hunsent : rc'.unsent = e.rc.unsent := by
      simp only [unsent, heq]
      rfl
    exact h.bytes.trans (congrArg _ hunsent.symm)
  · have hwaiting : rc'.waiting = e.rc.waiting := by
      simp only [waiting, heq]
      rfl
    exact (congrArg _ hwaiting).trans h.payload

/-- What has nothing to do with the streams. -/
theorem Exact.quiet (h : Exact RI RO used frag e) (hin : SameInput e.rc rc')
    (hout : SameOutput e.rc rc') (hmode : rc'.iomode = e.rc.iomode) (herr : rc'.err = e.rc.err) :
    Exact RI RO used frag { e with rc := rc' } := by
  have hexact := h.inward [] [] (apart_congr h.apart hin.ibuf hin.ibufLen hout.obuf hout.obufLen)
    hin.ibufLen (fun s hs => ⟨[], s, .nil, by rw [hin.pending, List.append_nil, List.nil_append],
      hin.means hmode herr hs⟩) hout fun halive => ?_
  · rw [List.append_nil, List.append_nil] at hexact
    exact hexact
  · rw [hmode] at halive
    obtain ⟨hm, -⟩ := h.working halive
    refine ⟨halive, ?_⟩
    obtain ⟨hboth, hinput, houtput⟩ := hm
    constructor <;> simp only [hin.ibuf, hout.obuf, hmode, hin.ixa, hin.ixb, hout.oxa, hout.oxb,
      hout.oxc] <;> assumption

/-- An engine where nothing has come in and nothing goes out. -/
structure Idle (RO : RecordOut O) (rc : RecEngine I O) : Prop where
  mode : rc.iomode = .inout
  input : rc.ixa = 0 ∧ rc.ixb = 0 ∧ rc.ixc = 5
  output : rc.oxa = rc.oxc ∧ rc.oxa < rc.oxb
  outgoing : Outgoing RO 16384 rc
  inCtx : rc.inCtx = none
  outCtx : rc.outCtx = none
  versionIn : rc.versionIn = 0
  fragPos : 0 < rc.maxFragLen
  fragLe : rc.maxFragLen ≤ 16384

/-- The streams of an idle engine are empty. -/
theorem Idle.exact (h : Idle RO rc) (hap : Apart RI used rc) :
    Exact RI RO used 16384 (.start rc) := by
  have halive : rc.iomode ≠ .failed := by
    rw [h.mode]
    exact fun h => by cases h
  have hnone : rc.waiting = [] := by
    rw [waiting, if_neg (Nat.ne_of_lt h.output.2), h.output.1, Nat.sub_self]
    rfl
  have hpending : rc.pending = [] := pending_of_eq (h.input.1.trans h.input.2.1.symm)
  refine ⟨hap, h.fragPos, h.fragLe, fun _ => ⟨⟨fun _ => h.mode, fun _ _ => ⟨h.input.1, h.input.2.1⟩,
    fun _ _ => h.output⟩, h.outgoing⟩, ⟨.start, ?_, ?_⟩, h.outCtx.symm, ?_, hnone, fun _ hmem => ?_⟩
  · show (rxMachine RI rc.ibufLen).Reads _ [] rc.pending _
    rw [hpending]
    exact .nil
  · exact (means_iff halive).2 ⟨h.inCtx.symm, h.versionIn.symm,
      .header (by decide) h.input.1 h.input.2.1 h.input.2.2 rfl⟩
  · exact (if_neg (Nat.ne_of_lt h.output.2)).symm
  · cases hmem

/-- The buffers of an engine are used again. -/
theorem idle_reset (hroom : 0 < rc.ibufLen) (hout : 597 ≤ rc.obufLen) (hpos : 0 < rc.maxFragLen)
    (hle : rc.maxFragLen ≤ 16384) : Idle RO (rc.brSslClientReset RO) := by
  have hset : rc.ibufLen ≠ 0 := Nat.ne_of_gt hroom
  have hready : Outgoing RO 16384 ({ rc with outCtx := none }.makeReadyOut RO) :=
    outgoing_ready hout hpos hle
  have hlt : ({ rc with outCtx := none }.makeReadyOut RO).oxa <
      ({ rc with outCtx := none }.makeReadyOut RO).oxb := ready_lt RO hout hpos
  unfold brSslClientReset brSslEngineSetBuffer brSslEngineSetBuffersBidi
  dsimp only
  rw [if_neg hset]
  refine ⟨rfl, ⟨rfl, rfl, rfl⟩, ⟨rfl, hlt⟩, SameOutput.outgoing ?_ hready, rfl, rfl, rfl, hpos, hle⟩
  exact ⟨rfl, rfl, rfl, rfl, rfl, rfl, rfl, fun _ _ _ => rfl⟩

/-- Another connection starts with empty streams. -/
theorem exact_reset (h : Exact RI RO used 16384 e) :
    Exact RI RO used 16384 (e.step RI RO .reset) := by
  have hset : e.rc.ibufLen ≠ 0 := Nat.ne_of_gt (Nat.lt_of_lt_of_le (by decide) h.apart.room)
  refine (idle_reset (Nat.pos_of_ne_zero hset) h.apart.outRoom h.fragPos h.fragLe).exact ?_
  unfold brSslClientReset brSslEngineSetBuffer brSslEngineSetBuffersBidi
  dsimp only
  rw [if_neg hset]
  exact apart_congr h.apart rfl rfl rfl rfl

/-- Every operation keeps the streams exact. -/
theorem exact_step (h : Exact RI RO used 16384 e) {op : EngineOp I O} (hok : e.Allowed op) :
    Exact RI RO used 16384 (e.step RI RO op) := by
  cases op with
  | inject bytes => exact exact_inject h hok
  | take n => exact exact_take h hok
  | put bytes => exact (h.put hok).2
  | flush force => exact (h.flush hok).2
  | send n => exact (h.send hok).2
  | switchIn i => exact exact_switchIn h hok
  | switchOut o => exact exact_switchOut h hok
  | newMaxFragLen n => exact exact_newMaxFragLen h hok
  | setVersionIn version => exact exact_setVersionIn h hok
  | fail err => exact exact_fail h err
  | reset => exact exact_reset h
  | setOut recordType version =>
    exact h.quiet ⟨rfl, rfl, rfl, rfl, rfl, rfl, rfl, rfl, fun _ _ => rfl⟩
      ⟨rfl, rfl, rfl, rfl, rfl, rfl, rfl, fun _ _ _ => rfl⟩ rfl rfl
  | shutdownRecv =>
    exact h.quiet ⟨rfl, rfl, rfl, rfl, rfl, rfl, rfl, rfl, fun _ _ => rfl⟩
      ⟨rfl, rfl, rfl, rfl, rfl, rfl, rfl, fun _ _ _ => rfl⟩ rfl rfl

end MacTLS
