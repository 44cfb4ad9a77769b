import MacTLS.Ssl.Streams
import MacTLS.Ssl.Suites

/-!
# The buffers of the record engine

Where `br_ssl_engine_set_buffer` puts the two windows, and when the streams are exact there.

* `started` : the engine after it was given a buffer;
* `streams_exact` : every run in such a buffer.
-/

namespace MacTLS

open Lib

open RecEngine

variable {I O : Type} {RI : RecordIn I} {RO : RecordOut O} {used frag : ℕ} {rc rc' : RecEngine I O}
  {e : EngineRun I O}

/-! ### Buffers that are accepted -/

/-- A fragment length that is chosen fits in both buffers. -/
theorem fragLog_spec {ibufLen obufLen u : ℕ} (h : fragLog ibufLen obufLen = some u) :
    9 ≤ u ∧ u ≤ 14 ∧ 2 ^ u + 325 ≤ ibufLen ∧ 2 ^ u + 85 ≤ obufLen := by
  unfold fragLog at h
  obtain ⟨v, hv, rfl⟩ := Option.map_eq_some_iff.1 h
  have hfits : obufLen ≥ 2 ^ v + 85 ∧ ibufLen ≥ 2 ^ v + 325 := by
    simpa [maxOutOverhead, maxInOverhead] using List.find?_some hv
  have hmem : 9 ≤ v ∧ v ≤ 14 := by
    have hmem := List.mem_of_find?_eq_some hv
    simp only [List.mem_cons, List.not_mem_nil, or_false] at hmem
    omega
  split_ifs with h13
  · subst h13
    omega
  · exact ⟨hmem.1, hmem.2, hfits.2, hfits.1⟩

/-- An engine that was given a window of `n` bytes at `i` for the input and one of `m` bytes at `o`
for the output. -/
structure Started (RO : RecordOut O) (i n o m : ℕ) (rc : RecEngine I O) : Prop where
  ibuf : rc.ibuf = i
  ibufLen : rc.ibufLen = n
  obuf : rc.obuf = o
  obufLen : rc.obufLen = m
  room : 837 ≤ rc.ibufLen
  outRoom : 597 ≤ rc.obufLen
  idle : Idle RO rc

/-- Two windows are accepted, or the engine fails. -/
theorem started_bidi (rc : RecEngine I O) (ibuf ibufLen : ℕ) (obuf : Option (ℕ × ℕ)) :
    (rc.brSslEngineSetBuffersBidi RO (some (ibuf, ibufLen)) obuf).iomode = .failed ∨
      Started RO ibuf ibufLen (obuf.getD (ibuf, ibufLen)).1 (obuf.getD (ibuf, ibufLen)).2
        (rc.brSslEngineSetBuffersBidi RO (some (ibuf, ibufLen)) obuf) := by
  unfold brSslEngineSetBuffersBidi
  dsimp only
  rcases hfrag : fragLog ibufLen (obuf.getD (ibuf, ibufLen)).2 with _ | u
  · exact .inl rfl
  · obtain ⟨hlow, hhigh, hin, hout⟩ := fragLog_spec hfrag
    have hmin : 2 ^ 9 ≤ 2 ^ u := Nat.pow_le_pow_right (by decide) hlow
    have hmax : 2 ^ u ≤ 2 ^ 14 := Nat.pow_le_pow_right (by decide) hhigh
    have hwindow : 597 ≤ (obuf.getD (ibuf, ibufLen)).2 := by omega
    have hpos : 0 < 2 ^ u := Nat.two_pow_pos u
    exact .inr ⟨rfl, rfl, rfl, rfl, show 837 ≤ ibufLen by omega, hwindow, rfl, ⟨rfl, rfl, rfl⟩,
      ⟨rfl, ready_lt RO hwindow hpos⟩, outgoing_ready hwindow hpos hmax, rfl, rfl, rfl, hpos, hmax⟩

/-- In the buffer of an engine that is used in both directions, no record that its cipher suites
accept reaches the window of the output. -/
def Separate (RI : RecordIn I) (bufLen : ℕ) : Prop :=
  33098 ≤ bufLen ∧ ∀ i n, RI.checkLength i n = true → n ≤ 16704 → n + 16714 ≤ bufLen

/-- How a buffer is split, when it is. -/
theorem bidiSplit_spec {bufLen w : ℕ} (h : bidiSplit bufLen = some w) :
    1434 ≤ bufLen ∧ (bufLen < 17306 ∧ w = 597 ∨ 17306 ≤ bufLen ∧ w = bufLen - 16709) := by
  unfold bidiSplit maxInOverhead maxOutOverhead at h
  split_ifs at h with hsmall hmiddle
  · exact ⟨by omega, .inl ⟨by omega, (Option.some.inj h).symm⟩⟩
  · exact ⟨by omega, .inr ⟨by omega, (Option.some.inj h).symm⟩⟩

/-- A buffer is accepted, or the engine fails. -/
theorem started_setBuffer {buf bufLen : ℕ} {bidi : Bool}
    (hset : (rc.brSslEngineSetBuffer RO (some buf) bufLen bidi).iomode ≠ .failed) :
    bidi = false ∧ Started RO buf bufLen buf bufLen
        (rc.brSslEngineSetBuffer RO (some buf) bufLen bidi) ∨
      bidi = true ∧ ∃ w, bidiSplit bufLen = some w ∧ Started RO buf (bufLen - w) (buf + w) w
        (rc.brSslEngineSetBuffer RO (some buf) bufLen bidi) := by
  cases bidi with
  | false => exact .inl ⟨rfl, (started_bidi rc buf bufLen none).resolve_left hset⟩
  | true =>
    unfold brSslEngineSetBuffer at hset ⊢
    cases hw : bidiSplit bufLen with
    | none =>
      rw [hw] at hset
      exact absurd rfl hset
    | some w =>
      rw [hw] at hset
      exact .inr ⟨rfl, w, rfl, (started_bidi rc buf _ (some (buf + w, w))).resolve_left hset⟩

/-- The windows do not get in each other's way. -/
theorem apart_setBuffer {buf bufLen : ℕ} {bidi : Bool}
    (hset : (rc.brSslEngineSetBuffer RO (some buf) bufLen bidi).iomode ≠ .failed)
    (hsep : bidi = true → Separate RI bufLen) :
    ∃ used, Apart RI used (rc.brSslEngineSetBuffer RO (some buf) bufLen bidi) := by
  obtain ⟨-, h⟩ | ⟨hbidi, w, hw, h⟩ := started_setBuffer hset
  · refine ⟨bufLen, h.room, h.outRoom, h.ibufLen.ge, ?_, fun i n _ hle => ?_,
      .inl (h.ibuf.trans h.obuf.symm)⟩
    · rw [h.ibufLen]
      omega
    · rwa [h.ibufLen] at hle
  · obtain ⟨hlarge, hsep⟩ := hsep hbidi
    obtain ⟨-, hw⟩ := bidiSplit_spec hw
    refine ⟨min (bufLen - w) w, h.room, h.outRoom, ?_, ?_, fun i n hok hle => ?_, .inr ?_⟩
    · rw [h.ibufLen]
      omega
    · rw [h.ibufLen]
      omega
    · rw [h.ibufLen] at hle
      have hn := hsep i n hok (by omega)
      omega
    · rw [h.ibuf, h.obuf]
      omega

/-- The output window starts at the length that is left for it, so the two windows share no byte
exactly in a buffer of at least 33418 bytes, and the second one ends inside exactly in one of at
most so many. -/
theorem windows_bidi {buf bufLen : ℕ} (hlarge : 17306 ≤ bufLen)
    (hset : (rc.brSslEngineSetBuffer RO (some buf) bufLen true).iomode ≠ .failed) :
    ((rc.brSslEngineSetBuffer RO (some buf) bufLen true).ibuf +
        (rc.brSslEngineSetBuffer RO (some buf) bufLen true).ibufLen ≤
          (rc.brSslEngineSetBuffer RO (some buf) bufLen true).obuf ↔ 33418 ≤ bufLen) ∧
      ((rc.brSslEngineSetBuffer RO (some buf) bufLen true).obuf +
        (rc.brSslEngineSetBuffer RO (some buf) bufLen true).obufLen ≤ buf + bufLen ↔
          bufLen ≤ 33418) := by
  obtain ⟨hno, -⟩ | ⟨-, w, hw, h⟩ := started_setBuffer hset
  · cases hno
  · obtain ⟨-, hw⟩ := bidiSplit_spec hw
    rw [h.ibuf, h.ibufLen, h.obuf, h.obufLen]
    omega

/-! ### Every run -/

/-- The invariant of a run holds where an engine was given a buffer. -/
theorem exact_of_reach {buf bufLen : ℕ} {bidi : Bool}
    (hset : (rc.brSslEngineSetBuffer RO (some buf) bufLen bidi).iomode ≠ .failed)
    (hsep : bidi = true → Separate RI bufLen)
    (h : Reach (EngineRun.step RI RO) EngineRun.Allowed
      (.start (rc.brSslEngineSetBuffer RO (some buf) bufLen bidi)) e) :
    ∃ used, Exact RI RO used 16384 e := by
  obtain ⟨used, hap⟩ := apart_setBuffer hset hsep
  have hstart : Exact RI RO used 16384
      (.start (rc.brSslEngineSetBuffer RO (some buf) bufLen bidi)) := by
    obtain ⟨-, hs⟩ | ⟨-, w, -, hs⟩ := started_setBuffer hset
    · exact hs.idle.exact hap
    · exact hs.idle.exact hap
  exact ⟨used, h.invariant hstart fun e op he hok => exact_step he hok⟩

/-- In a buffer that serves one direction at a time, or both in windows that no record gets across,
the streams are exact, in whatever order and in whatever pieces the engine is used: the payload that
was taken or is still in the buffer is that of the stream that came in, up to where the stream or
the engine failed; the bytes that were sent or are still in the buffer are the records of the
payload that was put in, and the rest of it waits for its record. -/
theorem streams_exact {buf bufLen : ℕ} {bidi : Bool}
    (hset : (rc.brSslEngineSetBuffer RO (some buf) bufLen bidi).iomode ≠ .failed)
    (hsep : bidi = true → Separate RI bufLen)
    (h : Reach (EngineRun.step RI RO) EngineRun.Allowed
      (.start (rc.brSslEngineSetBuffer RO (some buf) bufLen bidi)) e) :
    (∃ s, (rxMachine RI e.rc.ibufLen).Reads .start e.input (e.taken ++ e.rc.pending) s ∧
      if e.rc.iomode = .failed then s.phase = .failed e.rc.err else s.phase.isFailed = false) ∧
    (sealAll RO none e.output).2.flatten = e.sent ++ e.rc.unsent ∧
    sealedPayload e.output ++ e.rc.waiting = e.pushed ∧
    ∀ event ∈ e.output, event.payload.length ≤ 16384 := by
  obtain ⟨used, hexact⟩ := exact_of_reach hset hsep h
  obtain ⟨s, hreads, hmeans⟩ := hexact.input
  refine ⟨⟨s, hreads, ?_⟩, hexact.bytes, hexact.payload, hexact.fragments⟩
  split_ifs with hfail
  · rw [Means, if_pos hfail] at hmeans
    exact hmeans
  · exact ((means_iff hfail).1 hmeans).2.2.goes

/-- `BR_SSL_BUFSIZE_BIDI`, the size of the buffers of this library. -/
def brSslBufsizeBidi : ℕ := 33178

/-- The AEAD suites keep to their window in such a buffer. -/
theorem separate_suites (C : Crypto) (P : CtrGhash) : Separate (suiteIn C P) brSslBufsizeBidi := by
  refine ⟨by decide, fun c n hok _ => ?_⟩
  have hok : suiteCheckLength c n = true := hok
  unfold brSslBufsizeBidi
  cases c with
  | gcm cc =>
    simp only [suiteCheckLength, gcmCheckLength, Bool.and_eq_true, decide_eq_true_eq] at hok
    omega
  | chapol cc =>
    simp only [suiteCheckLength, chapolCheckLength, Bool.and_eq_true, decide_eq_true_eq] at hok
    omega

/-- The engine of a client, with its buffer. -/
def clientEngine : RecEngine SuiteContext SuiteContext :=
  zeroed.brSslEngineSetBuffer (suiteOut .transparent .transparent) (some 0) brSslBufsizeBidi true

/-- A record is sent in two parts while one comes in, and its first byte is taken. -/
def clientRun : EngineRun SuiteContext SuiteContext :=
  play (EngineRun.step (suiteIn .transparent .transparent) (suiteOut .transparent .transparent))
    (.start clientEngine)
    [fun _ => .setOut 22 0x0303, fun _ => .put [1, 2, 3], fun _ => .flush false, fun _ => .send 4,
      fun _ => .inject [22, 3, 3, 0], fun _ => .send 4, fun _ => .inject [2],
      fun _ => .inject [7, 8], fun _ => .take 1]

theorem streams_exact_client : clientRun.taken = [(22, 7)] ∧
    clientRun.sent = [22, 3, 3, 0, 3, 1, 2, 3] ∧
    sealedPayload clientRun.output ++ clientRun.rc.waiting = clientRun.pushed :=
  ⟨by decide +kernel, by decide +kernel,
    (@streams_exact _ _ (suiteIn .transparent .transparent) (suiteOut .transparent .transparent)
      zeroed clientRun 0 brSslBufsizeBidi true (by decide +kernel) (fun _ => separate_suites _ _)
      (reach_play (by decide +kernel))).2.2.1⟩

/-! ### Inside of the buffer -/

/-- The windows are inside of a buffer. -/
structure Windows (buf bufLen : ℕ) (rc : RecEngine I O) : Prop where
  low : buf ≤ rc.ibuf
  high : rc.ibuf + rc.ibufLen ≤ buf + bufLen
  outLow : buf ≤ rc.obuf
  outHigh : rc.obuf + rc.obufLen ≤ buf + bufLen

theorem InputFrame.inside {buf bufLen : ℕ} (h : InputFrame used rc rc') (hap : Apart RI used rc)
    (hw : Windows buf bufLen rc) :
    Windows buf bufLen rc' ∧ Memory.SameOutside buf bufLen rc.mem rc'.mem := by
  obtain ⟨hlow, hhigh, houtLow, houtHigh⟩ := hw
  have hle := hap.le
  refine ⟨?_, h.mem.mono hlow (by omega)⟩
  constructor <;> simp only [h.ibuf, h.ibufLen, h.obuf, h.obufLen] <;> assumption

theorem OutputFrame.inside {buf bufLen : ℕ} (h : OutputFrame rc rc') (hw : Windows buf bufLen rc) :
    Windows buf bufLen rc' ∧ Memory.SameOutside buf bufLen rc.mem rc'.mem := by
  obtain ⟨hlow, hhigh, houtLow, houtHigh⟩ := hw
  refine ⟨?_, h.mem.mono houtLow (by omega)⟩
  constructor <;> simp only [h.ibuf, h.ibufLen, h.obuf, h.obufLen] <;> assumption

/-- No operation touches the memory around the buffer. -/
theorem step_inside {buf bufLen : ℕ} (h : Exact RI RO used 16384 e) (hw : Windows buf bufLen e.rc)
    {op : EngineOp I O} (hok : e.Allowed op) :
    Windows buf bufLen (e.step RI RO op).rc ∧
      Memory.SameOutside buf bufLen e.rc.mem (e.step RI RO op).rc.mem := by
  cases op with
  | inject bytes => exact (h.inject hok).2.2.1.inside h.apart hw
  | take n => exact (h.take hok).2.1.inside h.apart hw
  | put bytes => exact (h.put hok).1.inside hw
  | flush force =>
    obtain ⟨hflush | hframe, -⟩ := h.flush hok
    · rw [hflush]
      exact ⟨hw, .refl⟩
    · exact hframe.inside hw
  | send n => exact (h.send hok).1.inside hw
  | fail err =>
    show Windows buf bufLen (e.rc.brSslEngineFail err) ∧
      Memory.SameOutside buf bufLen e.rc.mem (e.rc.brSslEngineFail err).mem
    unfold brSslEngineFail
    split_ifs
    · exact ⟨⟨hw.low, hw.high, hw.outLow, hw.outHigh⟩, .refl⟩
    · exact ⟨hw, .refl⟩
  | reset =>
    have hset : e.rc.ibufLen ≠ 0 := Nat.ne_of_gt (Nat.lt_of_lt_of_le (by decide) h.apart.room)
    show Windows buf bufLen (e.rc.brSslClientReset RO) ∧
      Memory.SameOutside buf bufLen e.rc.mem (e.rc.brSslClientReset RO).mem
    -- the buffers were set before, so that a reset keeps them
    unfold brSslClientReset brSslEngineSetBuffer brSslEngineSetBuffersBidi
    dsimp only
    rw [if_neg hset]
    exact ⟨⟨hw.low, hw.high, hw.outLow, hw.outHigh⟩, .refl⟩
  -- the rest sets registers, and no memory
  | switchIn i => exact ⟨⟨hw.low, hw.high, hw.outLow, hw.outHigh⟩, .refl⟩
  | switchOut o => exact ⟨⟨hw.low, hw.high, hw.outLow, hw.outHigh⟩, .refl⟩
  | newMaxFragLen n => exact ⟨⟨hw.low, hw.high, hw.outLow, hw.outHigh⟩, .refl⟩
  | setVersionIn version => exact ⟨⟨hw.low, hw.high, hw.outLow, hw.outHigh⟩, .refl⟩
  | setOut recordType version => exact ⟨⟨hw.low, hw.high, hw.outLow, hw.outHigh⟩, .refl⟩
  | shutdownRecv => exact ⟨⟨hw.low, hw.high, hw.outLow, hw.outHigh⟩, .refl⟩

/-- The transport always finds room while nothing is there to be taken. -/
theorem room_of_incoming (hap : Apart RI used rc) {phase : RxPhase}
    (hin : Incoming RI used rc phase) (hxab : rc.ixa = rc.ixb) :
    0 < rc.ixc ∧ rc.ixa < rc.ibufLen := by
  have hroom := hap.room
  have hle := hap.le
  cases hin with
  | header hlen hxa hxb hxc => omega
  | payload h5 hlt => omega
  | clear hcrypt hleft hmax hxc h5 hxb hwait => omega
  | sealed hcrypt hleft hxc hxa hxb hmem hok hfits => omega

/-- A buffer that is offered is not empty, and it is inside. -/
theorem offered_inside {buf bufLen : ℕ} (h : Exact RI RO used frag e) (hw : Windows buf bufLen e.rc)
    {r : ℕ × ℕ} (hr : r ∈ e.rc.recvrecBuf ∨ r ∈ e.rc.recvpldBuf ∨ r ∈ e.rc.sendpldBuf ∨
      r ∈ e.rc.sendrecBuf) : 0 < r.2 ∧ buf ≤ r.1 ∧ r.1 + r.2 ≤ buf + bufLen := by
  obtain ⟨hlow, hhigh, houtLow, houtHigh⟩ := hw
  have hle := h.apart.le
  have hroom := h.apart.room
  have hend := (plaintextRoom_spec RO h.apart.outRoom).2.1
  obtain ⟨s, -, hmeans⟩ := h.input
  obtain hr | hr | hr | hr := hr
  · obtain ⟨-, hrec, hxab, rfl⟩ := mem_recvrecBuf.1 hr
    have hin := room_of_incoming h.apart ((means_iff hrec.alive).1 hmeans).2.2 hxab
    refine ⟨?_, ?_, ?_⟩ <;> dsimp only <;> omega
  · obtain ⟨hrec, hlt, rfl⟩ := mem_recvpldBuf.1 hr
    have hclear := h.apart.clear
    have hin := ((means_iff hrec.alive).1 hmeans).2.2.le_used (by omega)
    refine ⟨?_, ?_, ?_⟩ <;> dsimp only <;> omega
  · obtain ⟨hs, hlt, rfl⟩ := mem_sendpldBuf.1 hr
    obtain ⟨-, hout⟩ := h.working hs.alive
    cases hout with
    | gathering hlt hstart hlow hend' => refine ⟨?_, ?_, ?_⟩ <;> dsimp only <;> omega
    | sending heq => omega
  · obtain ⟨hs, hlt, rfl⟩ := mem_sendrecBuf.1 hr
    obtain ⟨-, hout⟩ := h.working hs.alive
    cases hout with
    | gathering hlt hstart hlow => omega
    | sending heq hlt hend' => refine ⟨?_, ?_, ?_⟩ <;> dsimp only <;> omega

/-- Either there is payload to be taken, or room for bytes of the peer. -/
theorem offers_input (h : Exact RI RO used frag e) (hrec : e.rc.Receives)
    (hopen : e.rc.shutdownRecv = false) : e.rc.recvrecBuf = none ↔ e.rc.recvpldBuf ≠ none := by
  obtain ⟨s, -, hmeans⟩ := h.input
  have hin := ((means_iff hrec.alive).1 hmeans).2.2
  have hxab := hin.le
  rw [Option.eq_none_iff_forall_not_mem, Option.ne_none_iff_exists']
  constructor
  · intro hnone
    refine ⟨_, mem_recvpldBuf.2 ⟨hrec, Nat.lt_of_le_of_ne hxab fun heq => ?_, rfl⟩⟩
    exact hnone _ (mem_recvrecBuf.2 ⟨hopen, hrec, heq, rfl⟩)
  · rintro ⟨r, hr⟩ r' hr'
    have hlt := (mem_recvpldBuf.1 hr).2.1
    have heq := (mem_recvrecBuf.1 hr').2.2.1
    omega

/-- Either there is room for payload, or a record to be sent. -/
theorem offers_output (h : Exact RI RO used frag e) (hs : e.rc.Sends) :
    e.rc.sendpldBuf = none ↔ e.rc.sendrecBuf ≠ none := by
  obtain ⟨-, hout⟩ := h.working hs.alive
  have hcases : e.rc.oxa < e.rc.oxb ∧ e.rc.oxc ≤ e.rc.oxa ∨
      e.rc.oxa = e.rc.oxb ∧ e.rc.oxa < e.rc.oxc := by
    cases hout with
    | gathering hlt hstart hlow => exact .inl ⟨hlt, hlow⟩
    | sending heq hlt => exact .inr ⟨heq, hlt⟩
  rw [Option.eq_none_iff_forall_not_mem, Option.ne_none_iff_exists']
  constructor
  · intro hnone
    refine ⟨_, mem_sendrecBuf.2 ⟨hs, ?_, rfl⟩⟩
    by_contra hge
    exact hnone _ (mem_sendpldBuf.2 ⟨hs, by omega, rfl⟩)
  · rintro ⟨r, hr⟩ r' hr'
    have hlt := (mem_sendrecBuf.1 hr).2.1
    have hlt' := (mem_sendpldBuf.1 hr').2.1
    omega

/-- In every run the memory around the buffer is left alone, every buffer that is offered lies
inside of it and has room, and in each direction that the engine is turned to exactly one of the two
parties may go on: there is payload to be taken or room for bytes of the peer, and there is a record
to be sent or room for payload. -/
theorem stays_inside {buf bufLen : ℕ} {bidi : Bool}
    (hset : (rc.brSslEngineSetBuffer RO (some buf) bufLen bidi).iomode ≠ .failed)
    (hsep : bidi = true → Separate RI bufLen ∧ bufLen ≤ 33418)
    (h : Reach (EngineRun.step RI RO) EngineRun.Allowed
      (.start (rc.brSslEngineSetBuffer RO (some buf) bufLen bidi)) e) :
    Memory.SameOutside buf bufLen (rc.brSslEngineSetBuffer RO (some buf) bufLen bidi).mem e.rc.mem ∧
    (∀ r, r ∈ e.rc.recvrecBuf ∨ r ∈ e.rc.recvpldBuf ∨ r ∈ e.rc.sendpldBuf ∨ r ∈ e.rc.sendrecBuf →
      0 < r.2 ∧ buf ≤ r.1 ∧ r.1 + r.2 ≤ buf + bufLen) ∧
    (e.rc.Receives → e.rc.shutdownRecv = false →
      (e.rc.recvrecBuf = none ↔ e.rc.recvpldBuf ≠ none)) ∧
    (e.rc.Sends → (e.rc.sendpldBuf = none ↔ e.rc.sendrecBuf ≠ none)) := by
  obtain ⟨used, hap⟩ := apart_setBuffer hset fun hbidi => (hsep hbidi).1
  have hstart : Exact RI RO used 16384
        (.start (rc.brSslEngineSetBuffer RO (some buf) bufLen bidi)) ∧
      Windows buf bufLen (rc.brSslEngineSetBuffer RO (some buf) bufLen bidi) := by
    obtain ⟨-, hs⟩ | ⟨hbidi, w, hw, hs⟩ := started_setBuffer hset
    · refine ⟨hs.idle.exact hap, ?_⟩
      constructor <;> simp only [hs.ibuf, hs.ibufLen, hs.obuf, hs.obufLen, Nat.le_refl]
    · obtain ⟨hlow, hw⟩ := bidiSplit_spec hw
      have hhigh := (hsep hbidi).2
      refine ⟨hs.idle.exact hap, ?_⟩
      constructor <;> simp only [hs.ibuf, hs.ibufLen, hs.obuf, hs.obufLen] <;> omega
  have hrun := h.invariant (P := fun e => Exact RI RO used 16384 e ∧ Windows buf bufLen e.rc ∧
    Memory.SameOutside buf bufLen (rc.brSslEngineSetBuffer RO (some buf) bufLen bidi).mem e.rc.mem)
    ⟨hstart.1, hstart.2, .refl⟩ fun e op hinv hok =>
      ⟨exact_step hinv.1 hok, (step_inside hinv.1 hinv.2.1 hok).1,
        hinv.2.2.trans (step_inside hinv.1 hinv.2.1 hok).2⟩
  obtain ⟨hexact, hw, hmem⟩ := hrun
  exact ⟨hmem, fun r hr => offered_inside hexact hw hr, offers_input hexact, offers_output hexact⟩

theorem stays_inside_client : clientRun.rc.mem 40000 = clientEngine.mem 40000 ∧
    clientRun.rc.recvpldBuf = some (6, 1) ∧ clientRun.rc.recvrecBuf = none := by
  have h := @stays_inside _ _ (suiteIn .transparent .transparent)
    (suiteOut .transparent .transparent) zeroed clientRun 0 brSslBufsizeBidi true
    (by decide +kernel) (fun _ => ⟨separate_suites _ _, by decide⟩)
    (reach_play (by decide +kernel))
  have hbuf : clientRun.rc.recvpldBuf = some (6, 1) := by decide +kernel
  have hrec : clientRun.rc.Receives := .inr (by decide +kernel)
  refine ⟨h.1 40000 (.inr (by decide)), hbuf, (h.2.2.1 hrec (by decide +kernel)).2 ?_⟩
  rw [hbuf]
  exact fun h => by cases h

end MacTLS
