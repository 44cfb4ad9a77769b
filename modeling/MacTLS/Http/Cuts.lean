import MacTLS.Http.Chunked
import MacTLS.Lib.Machine
import MacTLS.Lib.Transducer

/-!
# Cutting a chunked body

Byte by byte, the decoder is a transducer with one more bit of state: whether it is inside a chunk
extension.  A call of the decoder is a run of this transducer that forgets the bit at its end, so
cuts matter only inside an extension.

* `reads_chunkDecoderProcess` : a call is a run of the scanner;
* `chunkDecoderProcess_stops` : a call ends at the end of its input, in the final state, or with
  the caller's buffer full;
* `feed_cuts_agree` : all ways to feed a stream that cut no extension agree, and a cut is harmless
  whatever follows exactly when it is not one of these;
* `feed_cut_extension` : a cut inside an extension makes a chunk of length 5 one of length 90.
-/

namespace MacTLS

open Lib

/-! ### The scanner -/

/-- A decoder in the middle of its input. -/
structure ChunkScan where
  decoder : ChunkDecoder
  /-- The bytes up to the next line feed are dropped. -/
  skipping : Bool
  deriving DecidableEq

/-- A byte of chunk data. -/
def chunkDataByte (d : ChunkDecoder) (ch : UInt8) : ChunkDecoder :=
  { d with
    remaining := d.remaining - 1
    state := if d.remaining - 1 = 0 then .crlf else .data
    history.current.data := d.history.current.data ++ [ch] }

/-- A byte of the trailer. -/
def chunkTrailerByte (d : ChunkDecoder) (ch : UInt8) : ChunkDecoder :=
  let d := d.sawTrailer ch
  if ch = cr then d
  else if ch = lf then
    if d.trailerJustAfterEol then { d with state := .done }
    else { d with trailerJustAfterEol := true }
  else { d with trailerJustAfterEol := false }

/-- One byte. -/
def ChunkScan.next (s : ChunkScan) (ch : UInt8) : ChunkScan × Bytes :=
  match s.decoder.state with
  | .size =>
    if s.skipping ∧ ch ≠ lf then (⟨s.decoder.sawLine ch, true⟩, [])
    else if ch = lf then (⟨chunkSizeLine s.decoder, false⟩, [])
    else if ch = cr then (⟨s.decoder.sawLine ch, false⟩, [])
    else if ch = semicolon then (⟨s.decoder.sawLine ch, true⟩, [])
    else (⟨chunkSizeDigit (s.decoder.sawLine ch) ch, false⟩, [])
  | .data => (⟨chunkDataByte s.decoder ch, false⟩, [ch])
  | .crlf => (⟨if ch = lf then chunkEnd s.decoder else s.decoder.sawGap ch, false⟩, [])
  | .trailer => (⟨chunkTrailerByte s.decoder ch, false⟩, [])
  | .done => (s, [])

/-- The scanner stops where the decoder stops consuming. -/
def chunkScanner : Transducer ChunkScan UInt8 UInt8 where
  next := ChunkScan.next
  stopped s := s.decoder.state = .done

theorem chunkScanner_stopped {s : ChunkScan} :
    chunkScanner.stopped s = false ↔ s.decoder.state ≠ .done := by simp [chunkScanner]

theorem ChunkScan.next_size {d : ChunkDecoder} (hd : d.state = .size) (skipping : Bool)
    (ch : UInt8) : (⟨d, skipping⟩ : ChunkScan).next ch =
      if skipping ∧ ch ≠ lf then (⟨d.sawLine ch, true⟩, [])
      else if ch = lf then (⟨chunkSizeLine d, false⟩, [])
      else if ch = cr then (⟨d.sawLine ch, false⟩, [])
      else if ch = semicolon then (⟨d.sawLine ch, true⟩, [])
      else (⟨chunkSizeDigit (d.sawLine ch) ch, false⟩, []) := by
  rw [next, hd]

theorem ChunkScan.next_data {d : ChunkDecoder} (hd : d.state = .data) (skipping : Bool)
    (ch : UInt8) : (⟨d, skipping⟩ : ChunkScan).next ch = (⟨chunkDataByte d ch, false⟩, [ch]) := by
  rw [next, hd]

theorem ChunkScan.next_crlf {d : ChunkDecoder} (hd : d.state = .crlf) (skipping : Bool)
    (ch : UInt8) : (⟨d, skipping⟩ : ChunkScan).next ch =
      (⟨if ch = lf then chunkEnd d else d.sawGap ch, false⟩, []) := by
  rw [next, hd]

theorem ChunkScan.next_trailer {d : ChunkDecoder} (hd : d.state = .trailer) (skipping : Bool)
    (ch : UInt8) : (⟨d, skipping⟩ : ChunkScan).next ch =
      (⟨chunkTrailerByte d ch, false⟩, []) := by
  rw [next, hd]

/-! ### A call is a run of the scanner -/

@[simp] theorem sawLine_state (d : ChunkDecoder) (ch : UInt8) :
    (d.sawLine ch).state = d.state := rfl

@[simp] theorem sawGap_state (d : ChunkDecoder) (ch : UInt8) : (d.sawGap ch).state = d.state := rfl

@[simp] theorem sawTrailer_state (d : ChunkDecoder) (ch : UInt8) :
    (d.sawTrailer ch).state = d.state := rfl

@[simp] theorem chunkSizeDigit_state (d : ChunkDecoder) (ch : UInt8) :
    (chunkSizeDigit d ch).state = d.state := by
  unfold chunkSizeDigit
  split_ifs <;> rfl

/-- A decoder with chunk data to come expects at least a byte of it. -/
def ChunkDecoder.Ready (d : ChunkDecoder) : Prop := d.state = .data → 0 < d.remaining

theorem strtol16_bounds (s : Bytes) : -2147483648 ≤ strtol16 s ∧ strtol16 s ≤ 2147483647 := by
  unfold strtol16
  dsimp only
  split_ifs <;> omega

theorem toUInt32_pos {v : ℤ} (h : v ≠ 0) (hlo : -2147483648 ≤ v) (hhi : v ≤ 2147483647) :
    0 < toUInt32 v := by
  unfold toUInt32
  omega

theorem chunkSizeLine_ready (d : ChunkDecoder) : (chunkSizeLine d).Ready := by
  unfold chunkSizeLine
  dsimp only
  split_ifs with h
  · intro hstate
    cases hstate
  · obtain ⟨hlo, hhi⟩ := strtol16_bounds d.sizeBuf
    exact fun _ => toUInt32_pos h hlo hhi

/-- The part of its input that a loop read, as the scanner reads it. -/
structure LoopReads (s : ChunkScan) (input out rest : Bytes) (s' : ChunkScan) : Prop where
  reads : ∃ read, input = read ++ rest ∧ chunkScanner.Reads s read out s'
  ready : s'.decoder.Ready
  shorter : input ≠ [] → rest.length < input.length
  skipping : s'.skipping = true → rest = []

/-- One byte before a loop. -/
theorem LoopReads.cons {s s' : ChunkScan} {ch : UInt8} {input out rest : Bytes}
    (hs : s.decoder.state ≠ .done) (hout : (s.next ch).2 = [])
    (h : LoopReads (s.next ch).1 input out rest s') : LoopReads s (ch :: input) out rest s' := by
  obtain ⟨⟨read, hread, hreads⟩, hready, hshort, hskip⟩ := h
  refine ⟨⟨ch :: read, by rw [hread, List.cons_append], ?_⟩, hready, fun _ => ?_, hskip⟩
  · have := Transducer.Reads.cons (chunkScanner_stopped.mpr hs) hreads
    rwa [show (chunkScanner.next s ch).2 = [] from hout] at this
  · by_cases hi : input = []
    · subst hi
      have hlen := congrArg List.length hread
      rw [List.length_append, List.length_nil] at hlen
      rw [List.length_cons, List.length_nil]
      omega
    · have := hshort hi
      rw [List.length_cons]
      omega

/-- A byte that ends a loop. -/
theorem LoopReads.last {s s' : ChunkScan} {ch : UInt8} {input : Bytes}
    (hs : s.decoder.state ≠ .done) (hnext : s.next ch = (s', [])) (hready : s'.decoder.Ready)
    (hskip : s'.skipping = false) : LoopReads s (ch :: input) [] input s' := by
  refine ⟨⟨[ch], rfl, ?_⟩, hready, fun _ => Nat.lt_succ_self _, fun h => ?_⟩
  · have := Transducer.Reads.cons (T := chunkScanner) (x := ch) (chunkScanner_stopped.mpr hs)
      (Transducer.Reads.nil (s := (s.next ch).1))
    rw [show chunkScanner.next s ch = (s', []) from hnext] at this
    rwa [hnext] at this
  · rw [hskip] at h
    cases h

theorem LoopReads.nil {s : ChunkScan} (hready : s.decoder.Ready) : LoopReads s [] [] [] s :=
  ⟨⟨[], rfl, .nil⟩, hready, fun h => absurd rfl h, fun _ => rfl⟩

theorem reads_chunkSizeLoop (d : ChunkDecoder) (skipping : Bool) (input : Bytes)
    (hd : d.state = .size) : ∃ skipping', LoopReads ⟨d, skipping⟩ input []
      (chunkSizeLoop d skipping input).2 ⟨(chunkSizeLoop d skipping input).1, skipping'⟩ := by
  induction input generalizing d skipping with
  | nil => exact ⟨skipping, .nil fun h => by cases hd.symm.trans h⟩
  | cons ch input ih =>
    have hs : d.state ≠ .done := by rw [hd]; decide
    have hnext := ChunkScan.next_size hd skipping ch
    rw [chunkSizeLoop]
    split_ifs at hnext ⊢ with h1 h2 h3 h4
    · obtain ⟨sk, h⟩ := ih (d.sawLine ch) true hd
      exact ⟨sk, .cons hs (by rw [hnext]) (by rw [hnext]; exact h)⟩
    · exact ⟨false, .last hs hnext (chunkSizeLine_ready d) rfl⟩
    · obtain ⟨sk, h⟩ := ih (d.sawLine ch) false hd
      exact ⟨sk, .cons hs (by rw [hnext]) (by rw [hnext]; exact h)⟩
    · obtain ⟨sk, h⟩ := ih (d.sawLine ch) true hd
      exact ⟨sk, .cons hs (by rw [hnext]) (by rw [hnext]; exact h)⟩
    · obtain ⟨sk, h⟩ := ih (chunkSizeDigit (d.sawLine ch) ch) false
        ((chunkSizeDigit_state _ _).trans hd)
      exact ⟨sk, .cons hs (by rw [hnext]) (by rw [hnext]; exact h)⟩

theorem reads_chunkCrlfLoop (d : ChunkDecoder) (input : Bytes) (hd : d.state = .crlf) :
    LoopReads ⟨d, false⟩ input [] (chunkCrlfLoop d input).2 ⟨(chunkCrlfLoop d input).1, false⟩ := by
  induction input generalizing d with
  | nil => exact .nil fun h => by cases hd.symm.trans h
  | cons ch input ih =>
    have hs : d.state ≠ .done := by rw [hd]; decide
    have hnext := ChunkScan.next_crlf hd false ch
    rw [chunkCrlfLoop]
    split_ifs at hnext ⊢ with h1
    · exact .last hs hnext (fun h => by cases h) rfl
    · exact .cons hs (by rw [hnext]) (by rw [hnext]; exact ih _ hd)

theorem reads_chunkTrailerLoop (d : ChunkDecoder) (input : Bytes) (hd : d.state = .trailer) :
    LoopReads ⟨d, false⟩ input [] (chunkTrailerLoop d input).2
      ⟨(chunkTrailerLoop d input).1, false⟩ := by
  induction input generalizing d with
  | nil => exact .nil fun h => by cases hd.symm.trans h
  | cons ch input ih =>
    have hs : d.state ≠ .done := by rw [hd]; decide
    have hnext := ChunkScan.next_trailer hd false ch
    rw [chunkTrailerLoop]
    unfold chunkTrailerByte at hnext
    dsimp only at hnext ⊢
    split_ifs at hnext ⊢ with h1 h2 h3
    · exact .cons hs (by rw [hnext]) (by rw [hnext]; exact ih _ hd)
    · exact .last hs hnext (fun h => by cases h) rfl
    · exact .cons hs (by rw [hnext]) (by rw [hnext]; exact ih _ hd)
    · exact .cons hs (by rw [hnext]) (by rw [hnext]; exact ih _ hd)

/-- The decoder when `data` of the chunk data was copied. -/
def chunkCopied (d : ChunkDecoder) (data : Bytes) : ChunkDecoder :=
  { d with
    remaining := d.remaining - data.length
    state := if d.remaining - data.length = 0 then .crlf else .data
    history.current.data := d.history.current.data ++ data }

theorem reads_chunkData (d : ChunkDecoder) (data : Bytes) (hd : d.state = .data)
    (hready : 0 < d.remaining) (hlen : data.length ≤ d.remaining) :
    chunkScanner.Reads ⟨d, false⟩ data data ⟨chunkCopied d data, false⟩ := by
  induction data generalizing d with
  | nil =>
    have h : chunkCopied d [] = d := by
      unfold chunkCopied
      rw [List.length_nil, Nat.sub_zero, if_neg (by omega), List.append_nil, ← hd]
    rw [h]
    exact .nil
  | cons ch data ih =>
    rw [List.length_cons] at hlen
    have hs : chunkScanner.stopped (⟨d, false⟩ : ChunkScan) = false :=
      chunkScanner_stopped.mpr (by rw [hd]; decide)
    have hnext : chunkScanner.next ⟨d, false⟩ ch = (⟨chunkDataByte d ch, false⟩, [ch]) :=
      ChunkScan.next_data hd false ch
    have hrest : chunkScanner.Reads ⟨chunkDataByte d ch, false⟩ data data
        ⟨chunkCopied d (ch :: data), false⟩ := by
      by_cases hlast : d.remaining - 1 = 0
      · have hnil : data = [] := List.eq_nil_of_length_eq_zero (by omega)
        subst hnil
        exact .nil
      · have hbyte : (chunkDataByte d ch).state = .data := if_neg hlast
        have hsplit : chunkCopied (chunkDataByte d ch) data = chunkCopied d (ch :: data) := by
          unfold chunkCopied chunkDataByte
          rw [List.length_cons, List.append_assoc, List.singleton_append, Nat.sub_sub,
            Nat.add_comm 1]
        rw [← hsplit]
        exact ih _ hbyte (Nat.pos_of_ne_zero hlast) (by unfold chunkDataByte; dsimp only; omega)
    have hcons := Transducer.Reads.cons (x := ch) hs (by rw [hnext]; exact hrest)
    rwa [hnext] at hcons

/-- The part of its input that a call read, as the scanner reads it. -/
structure CallReads (d : ChunkDecoder) (input : Bytes) (room : ℕ) (r : ChunkOut) : Prop where
  reads : ∃ read skipping, input = read ++ r.rest ∧
    chunkScanner.Reads ⟨d, false⟩ read r.out ⟨r.decoder, skipping⟩ ∧ (skipping = true → r.rest = [])
  ready : r.decoder.Ready
  fits : r.out.length ≤ room

theorem LoopReads.call {d d' : ChunkDecoder} {input rest : Bytes} {skipping : Bool} (room : ℕ)
    (h : LoopReads ⟨d, false⟩ input [] rest ⟨d', skipping⟩) :
    CallReads d input room ⟨d', [], rest, false⟩ := by
  obtain ⟨⟨read, hread, hreads⟩, hready, -, hskip⟩ := h
  exact ⟨⟨read, skipping, hread, hreads, hskip⟩, hready, Nat.zero_le _⟩

theorem callReads_chunkData {d : ChunkDecoder} (hd : d.state = .data) (hready : d.Ready)
    (input : Bytes) (room : ℕ) : CallReads d input room (chunkData d input room) := by
  obtain ⟨n, hn⟩ : ∃ n, n = min (min input.length d.remaining) room := ⟨_, rfl⟩
  have hlen : (input.take n).length = n := by rw [List.length_take]; omega
  have hreads := reads_chunkData d (input.take n) hd (hready hd) (by omega)
  have hdata : (chunkData d input room).decoder = chunkCopied d (input.take n) ∧
      (chunkData d input room).out = input.take n ∧
      (chunkData d input room).rest = input.drop n := by
    unfold chunkData chunkCopied
    dsimp only
    rw [hlen, ← hn]
    split_ifs
    · exact ⟨rfl, rfl, rfl⟩
    · exact ⟨by rw [← hd], rfl, rfl⟩
  obtain ⟨hdec, hout, hrest⟩ := hdata
  refine ⟨⟨input.take n, false, ?_, ?_, fun h => by cases h⟩, ?_, ?_⟩
  · rw [hrest, List.take_append_drop]
  · rw [hout, hdec]
    exact hreads
  · rw [hdec]
    intro hstate
    unfold chunkCopied at hstate ⊢
    dsimp only at hstate ⊢
    split_ifs at hstate with h
    exact Nat.pos_of_ne_zero h
  · rw [hout, hlen]
    omega

theorem callReads_chunkTurn {d : ChunkDecoder} (hready : d.Ready) (input : Bytes) (room : ℕ) :
    CallReads d input room (chunkTurn d input room) := by
  unfold chunkTurn
  split
  case h_1 hd =>
    obtain ⟨skipping, h⟩ := reads_chunkSizeLoop d false input hd
    exact h.call room
  case h_2 hd => exact callReads_chunkData hd hready input room
  case h_3 hd => exact (reads_chunkCrlfLoop d input hd).call room
  case h_4 hd => exact (reads_chunkTrailerLoop d input hd).call room
  case h_5 hd =>
    exact ⟨⟨[], false, rfl, .nil, fun h => by cases h⟩, hready, Nat.zero_le _⟩

/-- A loop with nothing to read ends at once. -/
theorem chunkLoop_nil (fuel : ℕ) (d : ChunkDecoder) (room : ℕ) :
    chunkLoop fuel d [] room = ⟨d, [], [], false⟩ := by
  cases fuel with
  | zero => rfl
  | succ fuel => exact if_pos (Or.inl rfl)

theorem CallReads.refl {d : ChunkDecoder} (hready : d.Ready) (input : Bytes) (room : ℕ) :
    CallReads d input room ⟨d, [], input, false⟩ :=
  ⟨⟨[], false, rfl, .nil, fun h => by cases h⟩, hready, Nat.zero_le _⟩

theorem callReads_chunkLoop {d : ChunkDecoder} (hready : d.Ready) (fuel : ℕ) (input : Bytes)
    (room : ℕ) : CallReads d input room (chunkLoop fuel d input room) := by
  induction fuel generalizing d input room with
  | zero => exact .refl hready input room
  | succ fuel ih =>
    rw [chunkLoop]
    dsimp only
    have ht := callReads_chunkTurn hready input room
    generalize chunkTurn d input room = t at ht ⊢
    split_ifs
    · exact .refl hready input room
    · exact ht
    · obtain ⟨⟨read, skipping, hread, hreads, hskip⟩, htready, htfits⟩ := ht
      cases skipping with
      | true =>
        -- the input ended inside an extension, and so does the loop
        rw [hskip rfl] at hread ⊢
        rw [chunkLoop_nil]
        exact ⟨⟨read, true, hread, by rwa [List.append_nil], fun _ => rfl⟩, htready,
          by rwa [List.append_nil]⟩
      | false =>
        have hr := ih htready t.rest (room - t.out.length)
        generalize chunkLoop fuel t.decoder t.rest (room - t.out.length) = r at hr ⊢
        obtain ⟨⟨read', skipping', hread', hreads', hskip'⟩, hready', hfits'⟩ := hr
        refine ⟨⟨read ++ read', skipping', ?_, hreads.trans hreads', hskip'⟩, hready', ?_⟩
        · rw [hread, hread', List.append_assoc]
        · rw [List.length_append]
          omega

/-- A call is a run of the scanner. -/
theorem reads_chunkDecoderProcess {d : ChunkDecoder} (hready : d.Ready) (input : Bytes)
    (outCap : ℕ) : CallReads d input outCap (chunkDecoderProcess d input outCap) :=
  callReads_chunkLoop hready _ input outCap

/-! ### A call goes as far as it can -/

/-- Nothing more can be read: there is no more input, the body is complete, or there is no more
room for the chunk data. -/
def ChunkOut.Stopped (r : ChunkOut) (room : ℕ) : Prop :=
  r.rest = [] ∨ r.decoder.state = .done ∨ r.decoder.state = .data ∧ r.out.length = room

/-- A turn reads something, unless there is no room for it. -/
theorem chunkTurn_progress {d : ChunkDecoder} (hready : d.Ready) {input : Bytes}
    (hinput : input ≠ []) (hd : d.state ≠ .done) (room : ℕ) :
    let t := chunkTurn d input room
    if t.full then t.decoder.state = .data ∧ t.out.length = room
    else t.rest.length < input.length := by
  have hpos : 0 < input.length := List.length_pos_iff.mpr hinput
  unfold chunkTurn
  cases hstate : d.state with
  | size =>
    obtain ⟨skipping, h⟩ := reads_chunkSizeLoop d false input hstate
    exact h.shorter hinput
  | data =>
    dsimp only
    have hr := hready hstate
    unfold chunkData
    dsimp only
    by_cases hlast : d.remaining - min (min input.length d.remaining) room = 0
    · rw [if_pos hlast, if_neg (by simp)]
      rw [List.length_drop]
      omega
    · rw [if_neg hlast]
      split
      case isTrue hfull =>
        rw [decide_eq_true_eq] at hfull
        refine ⟨hstate, ?_⟩
        rw [List.length_take]
        omega
      case isFalse hfull =>
        rw [decide_eq_true_eq] at hfull
        rw [List.length_drop]
        omega
  | crlf => exact (reads_chunkCrlfLoop d input hstate).shorter hinput
  | trailer => exact (reads_chunkTrailerLoop d input hstate).shorter hinput
  | done => exact absurd hstate hd

theorem chunkLoop_stops {d : ChunkDecoder} (hready : d.Ready) {fuel : ℕ} {input : Bytes}
    (hfuel : input.length ≤ fuel) (room : ℕ) : (chunkLoop fuel d input room).Stopped room := by
  induction fuel generalizing d input room with
  | zero => exact Or.inl (List.eq_nil_of_length_eq_zero (Nat.le_zero.mp hfuel))
  | succ fuel ih =>
    rw [chunkLoop]
    dsimp only
    split
    case isTrue h => exact h.imp_right Or.inl
    case isFalse h =>
      obtain ⟨hinput, hd⟩ := not_or.mp h
      have hprog := chunkTurn_progress hready hinput hd room
      have hreads := callReads_chunkTurn hready input room
      dsimp only at hprog
      generalize chunkTurn d input room = t at hprog hreads ⊢
      split
      case isTrue hfull =>
        rw [if_pos hfull] at hprog
        exact Or.inr (Or.inr hprog)
      case isFalse hfull =>
        rw [if_neg hfull] at hprog
        have hfits := hreads.fits
        refine (ih hreads.ready (by omega) (room - t.out.length)).imp_right
          (Or.imp_right fun h => ⟨h.1, ?_⟩)
        dsimp only
        rw [List.length_append, h.2]
        omega

/-- A call of the decoder goes as far as it can. -/
theorem chunkDecoderProcess_stops {d : ChunkDecoder} (hready : d.Ready) (input : Bytes)
    (outCap : ℕ) : (chunkDecoderProcess d input outCap).Stopped outCap :=
  chunkLoop_stops hready (by omega) outCap

/-! ### Inside an extension -/

/-- The decoder is inside a chunk extension, with room left for a digit. -/
def ChunkDecoder.InExtension (d : ChunkDecoder) : Prop :=
  d.state = .size ∧ semicolon ∈ d.history.current.line ∧ d.sizeBuf.length < sizeBufRoom

instance (d : ChunkDecoder) : Decidable d.InExtension := by
  unfold ChunkDecoder.InExtension
  infer_instance

/-- The scanner skips in size lines only, and behind a semicolon; and it skips there unless there
is no room for another digit. -/
structure ChunkScan.Tracks (s : ChunkScan) : Prop where
  inside : s.skipping = true → s.decoder.state = .size ∧ semicolon ∈ s.decoder.history.current.line
  skips : s.decoder.InExtension → s.skipping = true

theorem ChunkScan.Tracks.of_not {d : ChunkDecoder} (h : ¬d.InExtension) :
    (⟨d, false⟩ : ChunkScan).Tracks :=
  ⟨fun hskip => (by cases hskip), fun hin => absurd hin h⟩

theorem ChunkScan.Tracks.next {s : ChunkScan} (h : s.Tracks) (ch : UInt8) :
    (s.next ch).1.Tracks := by
  obtain ⟨d, skipping⟩ := s
  cases hstate : d.state with
  | size =>
    rw [next_size hstate]
    -- past the first two tests the scanner was not skipping
    have hread : ¬(skipping = true ∧ ch ≠ lf) → ¬ch = lf → skipping = false :=
      fun h1 h2 => eq_false_of_ne_true fun hsk => h1 ⟨hsk, h2⟩
    split_ifs with h1 h2 h3 h4
    · obtain ⟨hsk, hlf⟩ := h1
      exact ⟨fun _ => ⟨hstate, List.mem_append_left _ (h.inside hsk).2⟩, fun _ => rfl⟩
    · refine .of_not fun hin => ?_
      have hst := hin.1
      unfold chunkSizeLine at hst
      dsimp only at hst
      split_ifs at hst
    · refine .of_not fun hin => ?_
      have hmem : semicolon ∈ d.history.current.line ++ [ch] := hin.2.1
      rcases List.mem_append.mp hmem with hmem | hmem
      · have := h.skips ⟨hstate, hmem, hin.2.2⟩
        cases (hread h1 h2).symm.trans this
      · exact absurd (List.mem_singleton.mp hmem ▸ h3) (by decide)
    · exact ⟨fun _ => ⟨hstate, by rw [h4]; exact List.mem_append_right _ List.mem_cons_self⟩,
        fun _ => rfl⟩
    · refine .of_not fun hin => ?_
      unfold chunkSizeDigit at hin
      split_ifs at hin with hroom
      · have hmem : semicolon ∈ d.history.current.line ++ [ch] := hin.2.1
        rcases List.mem_append.mp hmem with hmem | hmem
        · have := h.skips ⟨hstate, hmem, hroom⟩
          cases (hread h1 h2).symm.trans this
        · exact h4 (List.mem_singleton.mp hmem).symm
      · exact hroom hin.2.2
  -- the other states read no size line, or go on to an empty one
  | data =>
    rw [next_data hstate]
    refine .of_not fun hin => ?_
    have hst : (chunkDataByte d ch).state = .size := hin.1
    unfold chunkDataByte at hst
    dsimp only at hst
    split_ifs at hst
  | crlf =>
    rw [next_crlf hstate]
    refine .of_not fun hin => ?_
    split_ifs at hin
    · exact absurd hin.2.1 List.not_mem_nil
    · cases hstate.symm.trans hin.1
  | trailer =>
    rw [next_trailer hstate]
    refine .of_not fun hin => ?_
    have hst : (chunkTrailerByte d ch).state = .size := hin.1
    have htrailer : (d.sawTrailer ch).state = .trailer := hstate
    unfold chunkTrailerByte at hst
    dsimp only at hst
    split_ifs at hst
    all_goals cases htrailer.symm.trans hst
  | done =>
    have hnext : (⟨d, skipping⟩ : ChunkScan).next ch = (⟨d, skipping⟩, []) := by
      rw [ChunkScan.next, hstate]
    rw [hnext]
    exact h

theorem ChunkScan.Tracks.of_reads {s s' : ChunkScan} {read out : Bytes} (h : s.Tracks)
    (hreads : chunkScanner.Reads s read out s') : s'.Tracks :=
  hreads.invariant (P := fun s _ _ => s.Tracks) h fun _ _ _ ch hs _ => hs.next ch

/-- When there is no room for a digit, it makes no difference whether the scanner skips. -/
theorem run_full {d : ChunkDecoder} (hd : d.state = .size)
    (hfull : sizeBufRoom ≤ d.sizeBuf.length) (input : Bytes) (b b' : Bool) :
    (chunkScanner.run ⟨d, b⟩ input).state.decoder =
        (chunkScanner.run ⟨d, b'⟩ input).state.decoder ∧
      (chunkScanner.run ⟨d, b⟩ input).out = (chunkScanner.run ⟨d, b'⟩ input).out ∧
      (chunkScanner.run ⟨d, b⟩ input).rest = (chunkScanner.run ⟨d, b'⟩ input).rest := by
  induction input generalizing d b b' with
  | nil => exact ⟨rfl, rfl, rfl⟩
  | cons ch input ih =>
    have hs : ∀ b, chunkScanner.stopped (⟨d, b⟩ : ChunkScan) = false := fun b =>
      chunkScanner_stopped.mpr (by rw [hd]; decide)
    have hnext : ∀ b, (ch = lf ∧ chunkScanner.next ⟨d, b⟩ ch = (⟨chunkSizeLine d, false⟩, [])) ∨
        ch ≠ lf ∧ ∃ b', chunkScanner.next ⟨d, b⟩ ch = (⟨d.sawLine ch, b'⟩, []) := by
      intro b
      have hdigit : chunkSizeDigit (d.sawLine ch) ch = d.sawLine ch :=
        if_neg (Nat.not_lt.mpr hfull)
      have hb := ChunkScan.next_size hd b ch
      rw [hdigit] at hb
      by_cases hlf : ch = lf
      · rw [if_neg fun h => h.2 hlf, if_pos hlf] at hb
        exact Or.inl ⟨hlf, hb⟩
      · refine Or.inr ⟨hlf, ?_⟩
        split_ifs at hb
        all_goals exact ⟨_, hb⟩
    rw [Transducer.run_cons (hs b), Transducer.run_cons (hs b')]
    rcases hnext b with ⟨hlf, hb⟩ | ⟨hlf, c, hb⟩
    · rcases hnext b' with ⟨-, hb'⟩ | ⟨hlf', -⟩
      · rw [hb, hb']
        exact ⟨rfl, rfl, rfl⟩
      · exact absurd hlf hlf'
    · rcases hnext b' with ⟨hlf', -⟩ | ⟨-, c', hb'⟩
      · exact absurd hlf' hlf
      · rw [hb, hb']
        exact ih (d := d.sawLine ch) hd hfull c c'

/-! ### Feeding a stream -/

/-- A stream being fed: the decoder, what it wrote, and what it has not consumed. -/
structure Feed where
  decoder : ChunkDecoder
  out : Bytes
  rest : Bytes
  deriving DecidableEq

/-- A call with up to `len` bytes of what is left, and room for `cap` bytes. -/
def Feed.call (f : Feed) (c : ℕ × ℕ) : Feed :=
  let r := chunkDecoderProcess f.decoder (f.rest.take c.1) c.2
  ⟨r.decoder, f.out ++ r.out, r.rest ++ f.rest.drop c.1⟩

/-- A stream fed to a fresh decoder. -/
def Feed.start (stream : Bytes) : Feed := ⟨chunkDecoderInit, [], stream⟩

/-- The stream is fed to its end, or to the end of the body. -/
def Feed.Complete (f : Feed) : Prop := f.rest = [] ∨ f.decoder.state = .done

instance (f : Feed) : Decidable f.Complete := by
  unfold Feed.Complete
  infer_instance

/-- No call with something left to feed starts inside a chunk extension. -/
def SparesExtensions (f : Feed) (_ : ℕ × ℕ) : Prop := f.rest ≠ [] → ¬f.decoder.InExtension

instance (f : Feed) (c : ℕ × ℕ) : Decidable (SparesExtensions f c) := by
  unfold SparesExtensions
  infer_instance

/-- Where the scanner came. -/
def Feed.ofOutput (o : Transducer.Output ChunkScan UInt8 UInt8) : Feed :=
  ⟨o.state.decoder, o.out, o.rest⟩

/-- What the uncut scanner makes of a stream is what it makes of the rest, behind what the calls
have written. -/
structure Feed.Owes (f : Feed) (whole : Feed) : Prop where
  ready : f.decoder.Ready
  rest : ∃ skipping, (⟨f.decoder, skipping⟩ : ChunkScan).Tracks ∧
    ofOutput ((chunkScanner.run ⟨f.decoder, skipping⟩ f.rest).after f.out) = whole

theorem Feed.Owes.call {f whole : Feed} (h : f.Owes whole) {c : ℕ × ℕ}
    (hok : SparesExtensions f c) : (f.call c).Owes whole := by
  obtain ⟨hready, skipping, htracks, hwhole⟩ := h
  have hcall := reads_chunkDecoderProcess hready (f.rest.take c.1) c.2
  obtain ⟨⟨read, skipping', hread, hreads, -⟩, hready', -⟩ := hcall
  have hrest : f.rest = read ++ (f.call c).rest := by
    have h := List.take_append_drop c.1 f.rest
    rw [hread, List.append_assoc] at h
    exact h.symm
  by_cases hnil : f.rest = []
  · -- nothing happens
    have hcall : f.call c = f := by
      obtain ⟨decoder, out, rest⟩ := f
      subst hnil
      unfold Feed.call chunkDecoderProcess
      rw [List.take_nil, List.drop_nil, chunkLoop_nil]
      dsimp only
      rw [List.append_nil, List.append_nil]
    rw [hcall]
    exact ⟨hready, skipping, htracks, hwhole⟩
  · have hnot := hok hnil
    refine ⟨hready', skipping', ChunkScan.Tracks.of_reads (.of_not hnot) hreads, ?_⟩
    have hskip : ofOutput ((chunkScanner.run ⟨f.decoder, skipping⟩ f.rest).after f.out) =
        ofOutput ((chunkScanner.run ⟨f.decoder, false⟩ f.rest).after f.out) := by
      cases skipping with
      | false => rfl
      | true =>
        obtain ⟨hstate, hmem⟩ := htracks.inside rfl
        have hfull : sizeBufRoom ≤ f.decoder.sizeBuf.length :=
          Nat.le_of_not_lt fun hroom => hnot ⟨hstate, hmem, hroom⟩
        obtain ⟨hdec, hout, hrest⟩ := run_full hstate hfull f.rest true false
        unfold ofOutput Transducer.Output.after
        rw [hdec, hout, hrest]
    rw [← hwhole, hskip, hrest, Transducer.run_of_reads hreads, Transducer.Output.after_after]
    rfl

/-- A stream that is fed completely came where the scanner comes. -/
theorem feed_eq_scan {d : ChunkDecoder} (hready : d.Ready) (hnot : ¬d.InExtension)
    {stream : Bytes} {f : Feed} (h : Reach Feed.call SparesExtensions ⟨d, [], stream⟩ f)
    (hcomplete : f.Complete) : f = .ofOutput (chunkScanner.run ⟨d, false⟩ stream) := by
  have howes : f.Owes (.ofOutput (chunkScanner.run ⟨d, false⟩ stream)) :=
    h.invariant (P := fun f : Feed => f.Owes _) ⟨hready, false, .of_not hnot, rfl⟩
      fun _ _ howes hok => howes.call hok
  obtain ⟨-, skipping, -, hwhole⟩ := howes
  rw [← hwhole]
  rcases hcomplete with hrest | hdone
  · obtain ⟨decoder, out, rest⟩ := f
    subst hrest
    simp only [Transducer.run_nil, Feed.ofOutput, Transducer.Output.after, List.append_nil]
  · rw [Transducer.run_stopped (by simp [chunkScanner, hdone])]
    simp only [Feed.ofOutput, Transducer.Output.after, List.append_nil]

/-- A call with all that is left and room for as much completes a stream. -/
theorem call_complete {f : Feed} (hready : f.decoder.Ready) {n : ℕ} (hn : f.rest.length ≤ n) :
    (f.call (n, n)).Complete := by
  have htake : f.rest.take n = f.rest := List.take_of_length_le hn
  have hdrop : f.rest.drop n = [] := List.drop_eq_nil_of_le hn
  have hstop := chunkDecoderProcess_stops hready f.rest n
  have hcall := reads_chunkDecoderProcess hready f.rest n
  unfold Feed.Complete Feed.call
  dsimp only
  rw [htake, hdrop, List.append_nil]
  generalize chunkDecoderProcess f.decoder f.rest n = r at hstop hcall ⊢
  rcases hstop with hrest | hdone | ⟨-, hout⟩
  · exact Or.inl hrest
  · exact Or.inr hdone
  · -- each byte written is a byte read, so all was read
    obtain ⟨⟨read, skipping, hread, hreads, -⟩, -⟩ := hcall
    have hle : r.out.length ≤ read.length :=
      hreads.invariant (P := fun _ xs out => out.length ≤ xs.length)
        (Nat.le_refl _) fun s xs out ch hle _ => by
          have hone : (s.next ch).2.length ≤ 1 := by
            unfold ChunkScan.next
            split
            · split_ifs <;> exact Nat.zero_le _
            all_goals simp
          rw [List.length_append, List.length_append]
          exact Nat.add_le_add hle hone
    have hlen := congrArg List.length hread
    rw [List.length_append] at hlen
    exact Or.inl (List.eq_nil_of_length_eq_zero (by omega))

/-- The stream `piece ++ next`, fed to `d` in one call. -/
def feedAtOnce (d : ChunkDecoder) (piece next : Bytes) : Feed :=
  Feed.call ⟨d, [], piece ++ next⟩ ((piece ++ next).length, (piece ++ next).length)

/-- The same stream in two calls, cut behind `piece`. -/
def feedCut (d : ChunkDecoder) (piece next : Bytes) : Feed :=
  (Feed.call ⟨d, [], piece ++ next⟩ (piece.length, piece.length)).call
    ((piece ++ next).length, (piece ++ next).length)

/-- The decoder at the cut. -/
def decoderAtCut (d : ChunkDecoder) (piece : Bytes) : ChunkDecoder :=
  (chunkDecoderProcess d piece piece.length).decoder

theorem feedAtOnce_complete {d : ChunkDecoder} (hready : d.Ready) (piece next : Bytes) :
    (feedAtOnce d piece next).Complete := call_complete hready (Nat.le_refl _)

theorem firstCall (d : ChunkDecoder) (piece next : Bytes) :
    Feed.call ⟨d, [], piece ++ next⟩ (piece.length, piece.length) =
      ⟨decoderAtCut d piece, (chunkDecoderProcess d piece piece.length).out,
        (chunkDecoderProcess d piece piece.length).rest ++ next⟩ := by
  unfold Feed.call decoderAtCut
  dsimp only
  rw [List.take_left, List.drop_left, List.nil_append]

theorem feedCut_complete {d : ChunkDecoder} (hready : d.Ready) (piece next : Bytes) :
    (feedCut d piece next).Complete := by
  obtain ⟨⟨read, skipping, hread, -⟩, hready', -⟩ :=
    reads_chunkDecoderProcess hready piece piece.length
  unfold feedCut
  rw [firstCall]
  refine call_complete (f := ⟨_, _, _⟩) hready' ?_
  dsimp only
  have hlen := congrArg List.length hread
  rw [List.length_append] at hlen ⊢
  rw [List.length_append]
  omega

/-- A cut that is not inside an extension is harmless. -/
theorem feedCut_eq {d : ChunkDecoder} (hready : d.Ready) (hnot : ¬d.InExtension) {piece : Bytes}
    (hcut : ¬(decoderAtCut d piece).InExtension) (next : Bytes) :
    feedCut d piece next = feedAtOnce d piece next := by
  have hfirst : Reach Feed.call SparesExtensions ⟨d, [], piece ++ next⟩
      (Feed.call ⟨d, [], piece ++ next⟩ (piece.length, piece.length)) :=
    Reach.refl.tail fun _ => hnot
  have hcutReach := hfirst.tail (i := ((piece ++ next).length, (piece ++ next).length)) fun _ => by
    rw [firstCall]
    exact hcut
  have honce : Reach Feed.call SparesExtensions ⟨d, [], piece ++ next⟩
      (feedAtOnce d piece next) := Reach.refl.tail fun _ => hnot
  calc feedCut d piece next
      = .ofOutput (chunkScanner.run ⟨d, false⟩ (piece ++ next)) :=
        feed_eq_scan hready hnot hcutReach (feedCut_complete hready piece next)
    _ = feedAtOnce d piece next :=
        (feed_eq_scan hready hnot honce (feedAtOnce_complete hready piece next)).symm

/-- In a size line, a call with a single digit takes it for one of the size. -/
theorem process_digit {d : ChunkDecoder} (hd : d.state = .size) (room : ℕ) :
    (chunkDecoderProcess d [49] room).decoder = chunkSizeDigit (d.sawLine 49) 49 := by
  have hloop : chunkSizeLoop d false [49] = (chunkSizeDigit (d.sawLine 49) 49, []) := by
    rw [chunkSizeLoop, if_neg (by simp), if_neg (by decide), if_neg (by decide),
      if_neg (by decide)]
    rfl
  have hturn : chunkTurn d [49] room = ⟨chunkSizeDigit (d.sawLine 49) 49, [], [], false⟩ := by
    rw [chunkTurn, hd]
    dsimp only
    rw [hloop]
  unfold chunkDecoderProcess
  rw [List.length_singleton, chunkLoop, if_neg (by rw [hd]; decide)]
  dsimp only
  rw [hturn, if_neg Bool.false_ne_true, chunkLoop_nil]

/-- A cut inside an extension shows as soon as a digit follows. -/
theorem feedCut_ne {d : ChunkDecoder} (hready : d.Ready) (hnot : ¬d.InExtension) {piece : Bytes}
    (hcut : (decoderAtCut d piece).InExtension) :
    feedCut d piece [49] ≠ feedAtOnce d piece [49] := by
  obtain ⟨⟨read, skipping, hread, hreads, -⟩, hready', -⟩ :=
    reads_chunkDecoderProcess hready piece piece.length
  have hstop := chunkDecoderProcess_stops hready piece piece.length
  have hdec : (chunkDecoderProcess d piece piece.length).decoder = decoderAtCut d piece := rfl
  have hfirst := firstCall d piece [49]
  rw [hdec] at hreads hready'
  obtain ⟨hstate, hmem, hroom⟩ := hcut
  have hrest : (chunkDecoderProcess d piece piece.length).rest = [] := by
    rcases hstop with hrest | hdone | ⟨hdata, -⟩
    · exact hrest
    · cases (hdec ▸ hdone).symm.trans hstate
    · cases (hdec ▸ hdata).symm.trans hstate
  rw [hrest] at hread hfirst
  rw [List.append_nil] at hread
  subst hread
  have hskip : skipping = true :=
    (ChunkScan.Tracks.of_reads (.of_not hnot) hreads).skips ⟨hstate, hmem, hroom⟩
  subst hskip
  have hs : ∀ b, chunkScanner.stopped (⟨decoderAtCut d piece, b⟩ : ChunkScan) = false := fun b =>
    chunkScanner_stopped.mpr (by rw [hstate]; decide)
  -- in one call the digit is part of the extension
  have honce : (feedAtOnce d piece [49]).decoder = (decoderAtCut d piece).sawLine 49 := by
    have hreach : Reach Feed.call SparesExtensions ⟨d, [], piece ++ [49]⟩
      (feedAtOnce d piece [49]) := Reach.refl.tail fun _ => hnot
    rw [feed_eq_scan hready hnot hreach (feedAtOnce_complete hready piece [49]),
      Transducer.run_of_reads hreads, Transducer.run_cons (hs true)]
    have hnext : chunkScanner.next ⟨decoderAtCut d piece, true⟩ 49 =
        (⟨(decoderAtCut d piece).sawLine 49, true⟩, []) :=
      (ChunkScan.next_size hstate true 49).trans (if_pos ⟨rfl, by decide⟩)
    rw [hnext]
    rfl
  -- in the second of two calls it is part of the size
  have htwo : (feedCut d piece [49]).decoder =
      chunkSizeDigit ((decoderAtCut d piece).sawLine 49) 49 := by
    unfold feedCut
    rw [hfirst, Feed.call, List.nil_append, List.take_of_length_le (by simp)]
    exact process_digit hstate _
  intro heq
  have hlen := congrArg (fun f => f.decoder.sizeBuf.length) heq
  rw [honce, htwo] at hlen
  have hdigit : chunkSizeDigit ((decoderAtCut d piece).sawLine 49) 49 =
      { (decoderAtCut d piece).sawLine 49 with
        sizeBuf := (decoderAtCut d piece).sizeBuf ++ [49] } := if_pos hroom
  rw [hdigit] at hlen
  dsimp only at hlen
  rw [List.length_append] at hlen
  have hsame : ((decoderAtCut d piece).sawLine 49).sizeBuf = (decoderAtCut d piece).sizeBuf := rfl
  rw [hsame] at hlen
  exact absurd hlen (by simp)

/-- Feeding a stream with no call that starts inside a chunk extension gives one result, which a
single call with enough room gives as well; and whatever follows, a cut is harmless exactly when
it is not inside an extension. -/
theorem feed_cuts_agree (stream : Bytes) :
    (∀ f₁ f₂, Reach Feed.call SparesExtensions (.start stream) f₁ →
      Reach Feed.call SparesExtensions (.start stream) f₂ → f₁.Complete → f₂.Complete →
      f₁ = f₂) ∧
    (∀ n, stream.length ≤ n →
      Reach Feed.call SparesExtensions (.start stream) ((Feed.start stream).call (n, n)) ∧
        ((Feed.start stream).call (n, n)).Complete) ∧
    ∀ d piece, d.Ready → ¬d.InExtension →
      ((∀ next, feedCut d piece next = feedAtOnce d piece next) ↔
        ¬(decoderAtCut d piece).InExtension) := by
  have hready : chunkDecoderInit.Ready := fun h => by cases h
  have hnot : ¬chunkDecoderInit.InExtension := fun h => absurd h.2.1 List.not_mem_nil
  refine ⟨fun f₁ f₂ h₁ h₂ hc₁ hc₂ => ?_, fun n hn => ⟨?_, ?_⟩,
    fun d piece hready hnot => ⟨fun h hcut => ?_, fun hcut next => ?_⟩⟩
  · rw [feed_eq_scan hready hnot h₁ hc₁, feed_eq_scan hready hnot h₂ hc₂]
  · exact Reach.refl.tail fun _ => hnot
  · exact call_complete hready hn
  · exact feedCut_ne hready hnot hcut (h [49])
  · exact feedCut_eq hready hnot hcut next

/-- A chunk of 5 bytes with an extension, and the last chunk: `5;a`, `hello`, `0`. -/
def helloStream : Bytes :=
  [53, 59, 97, 13, 10, 104, 101, 108, 108, 111, 13, 10, 48, 13, 10, 13, 10]

/-- Up to the end of the first size line, and then the rest. -/
def behindFirstLine : List (Feed → ℕ × ℕ) := [fun _ => (5, 1), fun _ => (12, 12)]

theorem feed_cuts_agree_hello :
    (Feed.start helloStream).call (17, 17) =
        play Feed.call (.start helloStream) behindFirstLine ∧
      feedCut chunkDecoderInit [53, 59, 97, 13, 10] [104] =
        feedAtOnce chunkDecoderInit [53, 59, 97, 13, 10] [104] :=
  ⟨(feed_cuts_agree helloStream).1 _ _ ((feed_cuts_agree helloStream).2.1 17 (by decide)).1
      (reach_play (by decide +kernel)) ((feed_cuts_agree helloStream).2.1 17 (by decide)).2
      (by decide +kernel),
    ((feed_cuts_agree helloStream).2.2 chunkDecoderInit [53, 59, 97, 13, 10]
      (fun h => by cases h) (by decide)).mpr (by decide +kernel) [104]⟩

/-- Cut between `5;` and `a`, the size is read as `5a`, and the line ends and the last chunk
become chunk data. -/
theorem feed_cut_extension :
    ¬∀ stream f₁ f₂, Reach Feed.call (fun _ c => 0 < c.2) (.start stream) f₁ →
      Reach Feed.call (fun _ c => 0 < c.2) (.start stream) f₂ → f₁.Complete → f₂.Complete →
      f₁.out = f₂.out := fun h =>
  absurd (h helloStream (play Feed.call (.start helloStream) [fun _ => (17, 17)])
    (play Feed.call (.start helloStream) [fun _ => (2, 2), fun _ => (15, 15)])
    (reach_play (by decide)) (reach_play (by decide)) (by decide +kernel) (by decide +kernel))
    (by decide +kernel)

end MacTLS
