import MacTLS.Http.Body

/-!
# Decoding undoes encoding

A body is encoded by its chunks, a last chunk and trailer lines.  The scanner reads each part to
its end, whatever the data looks like, and a call with room for the data is a run of the scanner.

* `reads_sizeLine`, `reads_chunk`, `reads_trailer` : the parts of a chunked body, as they are read;
* `call_eq_of_reads` : one call on a stream whose start completes the body;
* `chunkDecoderProcess_encode` : decoding undoes encoding.
-/

namespace MacTLS

open Lib

/-! ### Encodings -/

/-- A way to write the size `n` on a size line: at most 15 hexadecimal digits, and perhaps an
extension. -/
structure ChunkSize (n : ℕ) where
  digits : Bytes
  ext : Option Bytes
  token : SizeToken digits
  short : digits.length ≤ sizeBufRoom
  value : hexValue digits = n
  ext_lf : ∀ e ∈ ext, lf ∉ e

/-- What stands between the digits and the line feed. -/
def ChunkSize.tail {n : ℕ} (s : ChunkSize n) : Bytes :=
  match s.ext with
  | none => [cr]
  | some e => semicolon :: (e ++ [cr])

def ChunkSize.encode {n : ℕ} (s : ChunkSize n) : Bytes := s.digits ++ s.tail ++ [lf]

/-- A chunk, and how its size is written. -/
structure BodyChunk where
  data : Bytes
  size : ChunkSize data.length
  nonempty : data ≠ []
  short : data.length < 2147483648

def BodyChunk.encode (c : BodyChunk) : Bytes := c.size.encode ++ c.data ++ [cr, lf]

/-- A line of the trailer. -/
structure TrailerLine where
  text : Bytes
  line : lf ∉ text
  nonempty : text ≠ []

def TrailerLine.encode (l : TrailerLine) : Bytes := l.text ++ [cr, lf]

/-- The line does not look empty: the decoder skips carriage returns, so there is another byte. -/
def TrailerLine.Shows (l : TrailerLine) : Prop := ∃ ch ∈ l.text, ch ≠ cr

/-- A body to be sent. -/
structure EncodedBody where
  chunks : List BodyChunk
  last : ChunkSize 0
  trailers : List TrailerLine

namespace EncodedBody

variable (b : EncodedBody)

def encode : Bytes :=
  b.chunks.flatMap BodyChunk.encode ++ b.last.encode ++ b.trailers.flatMap TrailerLine.encode ++
    [cr, lf]

def data : Bytes := b.chunks.flatMap BodyChunk.data

/-- No line of the trailer looks empty. -/
def TrailersShow : Prop := ∀ l ∈ b.trailers, l.Shows

end EncodedBody

theorem ChunkSize.lineTail {n : ℕ} (s : ChunkSize n) : LineTail s.tail := by
  unfold ChunkSize.tail
  cases hext : s.ext with
  | none => exact ⟨by decide, fun ch hch => (by cases hch)⟩
  | some e =>
    refine ⟨?_, ?_⟩
    · intro hmem
      rcases List.mem_cons.1 hmem with heq | hmem
      · exact absurd heq (by decide)
      · exact not_mem_append_singleton (s.ext_lf e hext) (by decide) hmem
    · rw [List.dropWhile_cons_of_neg (by decide)]
      simp

theorem ChunkSize.taken {n : ℕ} (s : ChunkSize n) (hn : n < 2147483648) :
    takenSize (s.digits ++ s.tail) = n := by
  rw [takenSize_token s.token s.short s.lineTail, s.value]
  omega

/-! ### Size lines -/

/-- One byte of a size line, by what gets into `size_buf`. -/
theorem next_sizeByte {d : ChunkDecoder} {line : Bytes} {skipping : Bool} {ch : UInt8}
    (hd : d.state = .size) (hbuf : d.sizeBuf = sizeChars line)
    (hskip : skipping = true ↔ semicolon ∈ line) (hch : ch ≠ lf) :
    ∃ d' skipping', (⟨d, skipping⟩ : ChunkScan).next ch = (⟨d', skipping'⟩, []) ∧
      d'.state = .size ∧ d'.sizeBuf = sizeChars (line ++ [ch]) ∧
      (skipping' = true ↔ semicolon ∈ line ++ [ch]) := by
  rw [ChunkScan.next_size hd]
  by_cases hsemi : semicolon ∈ line
  · -- inside the extension
    rw [if_pos ⟨hskip.2 hsemi, hch⟩]
    exact ⟨_, _, rfl, hd, hbuf.trans (sizeChars_of_semicolon hsemi ch).symm,
      by simp [hsemi]⟩
  · have hno : ¬(skipping = true ∧ ch ≠ lf) := fun h => hsemi (hskip.1 h.1)
    rw [if_neg hno, if_neg hch]
    by_cases hcr : ch = cr
    · rw [if_pos hcr]
      refine ⟨_, _, rfl, hd, ?_, ?_⟩
      · rw [sizeChars_append hsemi, hcr]
        exact hbuf.trans (by simp [cr, semicolon, sizeChars_self hsemi])
      · exact ⟨fun h => (by cases h),
          fun hin => absurd hin (not_mem_append_singleton hsemi (by rw [hcr]; decide))⟩
    · rw [if_neg hcr]
      by_cases hsc : ch = semicolon
      · rw [if_pos hsc]
        refine ⟨_, _, rfl, hd, ?_, by simp [hsc]⟩
        rw [sizeChars_append hsemi, hsc]
        exact hbuf.trans (by simp [semicolon, sizeChars_self hsemi])
      · rw [if_neg hsc]
        refine ⟨_, _, rfl, (chunkSizeDigit_state _ _).trans hd, ?_, ?_⟩
        · rw [sizeChars_digit hsemi hcr hsc, ← hbuf, chunkSizeDigit]
          exact apply_ite ChunkDecoder.sizeBuf _ _ _
        · exact ⟨fun h => (by cases h), fun hin => absurd hin (not_mem_append_singleton hsemi hsc)⟩

/-- A size line is read to its end, and taken for what it is taken for. -/
theorem reads_line {d : ChunkDecoder} (before : Bytes) (skipping : Bool) {line : Bytes}
    (hd : d.state = .size) (hbuf : d.sizeBuf = sizeChars before)
    (hskip : skipping = true ↔ semicolon ∈ before) (hlf : lf ∉ line) :
    ∃ d', chunkScanner.Reads ⟨d, skipping⟩ (line ++ [lf]) [] ⟨chunkSizeLine d', false⟩ ∧
      d'.sizeBuf = sizeChars (before ++ line) := by
  have hs : ∀ skipping, chunkScanner.stopped ⟨d, skipping⟩ = false := fun _ =>
    chunkScanner_stopped.2 (by rw [hd]; decide)
  induction line generalizing d before skipping with
  | nil =>
    refine ⟨d, ?_, by rw [List.append_nil, hbuf]⟩
    have hnext : chunkScanner.next ⟨d, skipping⟩ lf = (⟨chunkSizeLine d, false⟩, []) := by
      refine (ChunkScan.next_size hd skipping lf).trans ?_
      rw [if_neg (fun h => h.2 rfl), if_pos rfl]
    exact .single (hs skipping) hnext
  | cons ch line ih =>
    obtain ⟨hch, hlf⟩ := not_or.1 (List.mem_cons.not.1 hlf)
    obtain ⟨d₁, skipping₁, hnext, hd₁, hbuf₁, hskip₁⟩ := next_sizeByte hd hbuf hskip (Ne.symm hch)
    have hs₁ : ∀ skipping, chunkScanner.stopped ⟨d₁, skipping⟩ = false := fun _ =>
      chunkScanner_stopped.2 (by rw [hd₁]; decide)
    obtain ⟨d', hreads, hbuf'⟩ := ih _ _ hd₁ hbuf₁ hskip₁ hlf hs₁
    refine ⟨d', ?_, by rw [hbuf', List.append_assoc, List.singleton_append]⟩
    exact .cons_of_next (hs skipping) hnext hreads

/-- A decoder that waits for a size line. -/
def ChunkDecoder.AtSize (d : ChunkDecoder) : Prop := d.state = .size ∧ d.sizeBuf = []

/-- A decoder that waits for a line of the trailer. -/
def ChunkDecoder.AtTrailer (d : ChunkDecoder) : Prop :=
  d.state = .trailer ∧ d.trailerJustAfterEol = true

theorem reads_sizeLine {d : ChunkDecoder} (hd : d.AtSize) {n : ℕ} (s : ChunkSize n)
    (hn : n < 2147483648) :
    ∃ d', chunkScanner.Reads ⟨d, false⟩ s.encode [] ⟨d', false⟩ ∧ d'.sizeBuf = [] ∧
      d'.remaining = n ∧ if n = 0 then d'.AtTrailer else d'.state = .data := by
  have hlf : lf ∉ s.digits ++ s.tail := lf_not_mem_line s.token s.lineTail
  obtain ⟨d', hreads, hbuf⟩ := reads_line [] false hd.1 hd.2
    ⟨fun h => (by cases h), fun h => absurd h List.not_mem_nil⟩ hlf
  have htaken : toUInt32 (strtol16 d'.sizeBuf) = n := by
    rw [hbuf]
    exact s.taken hn
  refine ⟨chunkSizeLine d', hreads, ?_⟩
  rw [chunkSizeLine]
  dsimp only
  by_cases hzero : strtol16 d'.sizeBuf = 0
  · have h0 : n = 0 := htaken.symm.trans (toUInt32_eq_zero.2 hzero)
    rw [if_pos hzero, if_pos h0]
    exact ⟨rfl, htaken, rfl, rfl⟩
  · have h0 : n ≠ 0 := fun h => hzero (toUInt32_eq_zero.1 (htaken.trans h))
    rw [if_neg hzero, if_neg h0]
    exact ⟨rfl, htaken, rfl⟩

/-! ### Chunks -/

/-- A chunk is read to its end, whatever its data looks like. -/
theorem reads_chunk {d : ChunkDecoder} (hd : d.AtSize) (c : BodyChunk) :
    ∃ d', chunkScanner.Reads ⟨d, false⟩ c.encode c.data ⟨d', false⟩ ∧ d'.AtSize := by
  have hpos : 0 < c.data.length := List.length_pos_iff.2 c.nonempty
  obtain ⟨d₁, hline, hbuf, hremaining, hstate⟩ := reads_sizeLine hd c.size c.short
  rw [if_neg (Nat.ne_of_gt hpos)] at hstate
  have hdata := reads_chunkData d₁ c.data hstate (hremaining ▸ hpos) (Nat.le_of_eq hremaining.symm)
  have hcrlf : (chunkCopied d₁ c.data).state = .crlf := if_pos (by rw [hremaining, Nat.sub_self])
  generalize hd₂ : chunkCopied d₁ c.data = d₂ at hdata hcrlf
  have hbuf₂ : d₂.sizeBuf = [] := by
    rw [← hd₂]
    exact hbuf
  have hs : chunkScanner.stopped ⟨d₂, false⟩ = false :=
    chunkScanner_stopped.2 (by rw [hcrlf]; decide)
  have hs' : chunkScanner.stopped ⟨d₂.sawGap cr, false⟩ = false :=
    chunkScanner_stopped.2 (by rw [sawGap_state, hcrlf]; decide)
  have hend : chunkScanner.Reads ⟨d₂, false⟩ [cr, lf] [] ⟨chunkEnd (d₂.sawGap cr), false⟩ :=
    .cons_of_next hs (ChunkScan.next_crlf hcrlf false cr)
      (.single hs' (ChunkScan.next_crlf (d := d₂.sawGap cr) hcrlf false lf))
  refine ⟨chunkEnd (d₂.sawGap cr), ?_, rfl, hbuf₂⟩
  have hall := (hline.trans hdata).trans hend
  rwa [List.nil_append, List.append_nil] at hall

theorem reads_chunks {d : ChunkDecoder} (hd : d.AtSize) (chunks : List BodyChunk) :
    ∃ d', chunkScanner.Reads ⟨d, false⟩ (chunks.flatMap BodyChunk.encode)
      (chunks.flatMap BodyChunk.data) ⟨d', false⟩ ∧ d'.AtSize := by
  induction chunks generalizing d with
  | nil => exact ⟨d, .nil, hd⟩
  | cons c chunks ih =>
    obtain ⟨d₁, hc, hd₁⟩ := reads_chunk hd c
    obtain ⟨d₂, hchunks, hd₂⟩ := ih hd₁
    rw [List.flatMap_cons, List.flatMap_cons]
    exact ⟨d₂, hc.trans hchunks, hd₂⟩

/-! ### The trailer -/

theorem reads_trailerText {d : ChunkDecoder} (hd : d.state = .trailer) {text : Bytes}
    (hlf : lf ∉ text) :
    ∃ d', chunkScanner.Reads ⟨d, false⟩ text [] ⟨d', false⟩ ∧ d'.state = .trailer ∧
      (d'.trailerJustAfterEol = true ↔ d.trailerJustAfterEol = true ∧ ∀ ch ∈ text, ch = cr) := by
  induction text generalizing d with
  | nil => exact ⟨d, .nil, hd, by simp⟩
  | cons ch text ih =>
    obtain ⟨hch, hlf⟩ := not_or.1 (List.mem_cons.not.1 hlf)
    have hs : chunkScanner.stopped ⟨d, false⟩ = false :=
      chunkScanner_stopped.2 (by rw [hd]; decide)
    have hnext := ChunkScan.next_trailer hd false ch
    simp only [chunkTrailerByte] at hnext
    by_cases hcr : ch = cr
    · rw [if_pos hcr] at hnext
      obtain ⟨d', hreads, hd', hflag⟩ := ih (d := d.sawTrailer ch) hd hlf
      refine ⟨d', .cons_of_next hs hnext hreads, hd', hflag.trans ?_⟩
      simp [hcr, ChunkDecoder.sawTrailer]
    · rw [if_neg hcr, if_neg (Ne.symm hch)] at hnext
      obtain ⟨d', hreads, hd', hflag⟩ :=
        ih (d := { d.sawTrailer ch with trailerJustAfterEol := false }) hd hlf
      refine ⟨d', .cons_of_next hs hnext hreads, hd', hflag.trans ?_⟩
      simp [hcr]

/-- The end of a trailer line: of the last one when nothing but carriage returns stands on it. -/
theorem reads_trailerEnd {d : ChunkDecoder} (hd : d.state = .trailer) :
    ∃ d', chunkScanner.Reads ⟨d, false⟩ [cr, lf] [] ⟨d', false⟩ ∧
      if d.trailerJustAfterEol then d'.state = .done else d'.AtTrailer := by
  have hs : chunkScanner.stopped ⟨d, false⟩ = false := chunkScanner_stopped.2 (by rw [hd]; decide)
  have hs' : chunkScanner.stopped ⟨d.sawTrailer cr, false⟩ = false :=
    chunkScanner_stopped.2 (by rw [sawTrailer_state, hd]; decide)
  refine ⟨_, .cons_of_next hs (ChunkScan.next_trailer hd false cr)
    (.single hs' (ChunkScan.next_trailer (d := d.sawTrailer cr) hd false lf)), ?_⟩
  have hbyte : chunkTrailerByte (d.sawTrailer cr) lf = if d.trailerJustAfterEol then
      { (d.sawTrailer cr).sawTrailer lf with state := .done }
      else { (d.sawTrailer cr).sawTrailer lf with trailerJustAfterEol := true } := rfl
  rw [hbyte]
  split_ifs
  · rfl
  · exact ⟨hd, rfl⟩

theorem reads_trailer {d : ChunkDecoder} (hd : d.AtTrailer) {lines : List TrailerLine}
    (hshow : ∀ l ∈ lines, l.Shows) :
    ∃ d', chunkScanner.Reads ⟨d, false⟩ (lines.flatMap TrailerLine.encode ++ [cr, lf]) []
      ⟨d', false⟩ ∧ d'.state = .done := by
  induction lines generalizing d with
  | nil =>
    obtain ⟨d', hreads, hdone⟩ := reads_trailerEnd hd.1
    rw [if_pos hd.2] at hdone
    exact ⟨d', hreads, hdone⟩
  | cons l lines ih =>
    obtain ⟨d₁, htext, hd₁, hflag⟩ := reads_trailerText hd.1 l.line
    have hflag₁ : ¬d₁.trailerJustAfterEol = true := by
      obtain ⟨ch, hch, hne⟩ := hshow l List.mem_cons_self
      exact fun h => hne ((hflag.1 h).2 ch hch)
    obtain ⟨d₂, hend, hd₂⟩ := reads_trailerEnd hd₁
    rw [if_neg hflag₁] at hd₂
    obtain ⟨d₃, hreads, hdone⟩ := ih hd₂ fun l hl => hshow l (List.mem_cons_of_mem _ hl)
    refine ⟨d₃, ?_, hdone⟩
    have hall := (htext.trans hend).trans hreads
    rw [List.flatMap_cons, List.append_assoc]
    exact hall

/-! ### One call -/

/-- An encoded body is read to its end and no sooner. -/
theorem reads_body {b : EncodedBody} (hshow : b.TrailersShow) :
    ∃ d, chunkScanner.Reads ⟨chunkDecoderInit, false⟩ b.encode b.data ⟨d, false⟩ ∧
      d.state = .done := by
  obtain ⟨d₁, hchunks, hd₁⟩ := reads_chunks (d := chunkDecoderInit) ⟨rfl, rfl⟩ b.chunks
  obtain ⟨d₂, hlast, -, -, hd₂⟩ := reads_sizeLine hd₁ b.last (by decide)
  rw [if_pos rfl] at hd₂
  obtain ⟨d₃, htrailer, hdone⟩ := reads_trailer hd₂ hshow
  refine ⟨d₃, ?_, hdone⟩
  have hall := (hchunks.trans hlast).trans htrailer
  rw [List.append_nil, List.append_nil] at hall
  rwa [EncodedBody.encode, List.append_assoc (_ ++ _)]

/-- A call on a stream whose start completes the body, with room for its data. -/
theorem call_eq_of_reads {d d' : ChunkDecoder} (hready : d.Ready) {read out : Bytes}
    (hreads : chunkScanner.Reads ⟨d, false⟩ read out ⟨d', false⟩) (hdone : d'.state = .done)
    (more : Bytes) {room : ℕ} (hroom : out.length ≤ room) :
    let r := chunkDecoderProcess d (read ++ more) room
    r.out = out ∧ r.decoder = d' ∧ r.rest = more := by
  have hwhole : chunkScanner.run ⟨d, false⟩ (read ++ more) = ⟨⟨d', false⟩, out, more⟩ := by
    rw [Transducer.run_of_reads hreads, Transducer.run_stopped (by simp [chunkScanner, hdone])]
    simp [Transducer.Output.after]
  have hstop := chunkDecoderProcess_stops hready (read ++ more) room
  obtain ⟨⟨read', skipping, hread', hreads', -⟩, hready', -⟩ :=
    reads_chunkDecoderProcess hready (read ++ more) room
  generalize chunkDecoderProcess d (read ++ more) room = r at hstop hread' hreads' hready' ⊢
  rw [hread', Transducer.run_of_reads hreads', Transducer.Output.after,
    Transducer.Output.mk.injEq] at hwhole
  obtain ⟨hstate, hout, hrest⟩ := hwhole
  rcases hstop with hnil | hstopped | ⟨hdata, hfull⟩
  · rw [hnil, Transducer.run_nil] at hstate hout hrest
    exact ⟨by simpa using hout, congrArg ChunkScan.decoder hstate, by rw [hnil, ← hrest]⟩
  · rw [Transducer.run_stopped (by simp [chunkScanner, hstopped])] at hstate hout hrest
    exact ⟨by simpa using hout, congrArg ChunkScan.decoder hstate, hrest⟩
  · -- the room holds all of the data, so the scanner could not have left the state
    exfalso
    have hnone : (chunkScanner.run ⟨r.decoder, skipping⟩ r.rest).out = [] := by
      have hlen := congrArg List.length hout
      rw [List.length_append, hfull] at hlen
      exact List.eq_nil_of_length_eq_zero (by omega)
    cases hrest' : r.rest with
    | nil =>
      rw [hrest', Transducer.run_nil] at hstate
      have hd := congrArg (fun s : ChunkScan => s.decoder.state) hstate
      cases hdata.symm.trans (hd.trans hdone)
    | cons ch rest =>
      have hs : chunkScanner.stopped ⟨r.decoder, skipping⟩ = false :=
        chunkScanner_stopped.2 (by rw [hdata]; decide)
      have hnext : chunkScanner.next ⟨r.decoder, skipping⟩ ch = _ :=
        ChunkScan.next_data hdata skipping ch
      rw [hrest', Transducer.run_cons hs, hnext] at hnone
      cases hnone

/-! ### Decoding undoes encoding -/

/-- One call on an encoded body in whose trailer no line looks empty, whatever stands behind it,
writes the data of its chunks and stops right behind it. -/
theorem chunkDecoderProcess_encode {b : EncodedBody} (hshow : b.TrailersShow) (more : Bytes)
    {outCap : ℕ} (hroom : b.data.length ≤ outCap) :
    let r := chunkDecoderProcess chunkDecoderInit (b.encode ++ more) outCap
    r.out = b.data ∧ r.decoder.state = .done ∧ r.rest = more := by
  obtain ⟨d, hreads, hdone⟩ := reads_body hshow
  obtain ⟨hout, hd, hrest⟩ :=
    call_eq_of_reads (d := chunkDecoderInit) (fun h => by cases h) hreads hdone more hroom
  exact ⟨hout, by rw [hd, hdone], hrest⟩

/-- Two chunks, of which one looks like the end of a body, and a trailer line. -/
def framedBody : EncodedBody where
  chunks := [
    ⟨[48, 13, 10, 13, 10], ⟨[48, 53], none, by decide, by decide, by decide,
      by simp⟩, by decide, by decide⟩,
    ⟨[10, 10, 10, 10, 10, 10, 10, 10, 10, 10], ⟨[97], some [13, 59],
      by decide, by decide, by decide, by decide⟩, by decide, by decide⟩]
  last := ⟨[48, 48, 48], none, by decide, by decide, by decide, by simp⟩
  trailers := [⟨[13, 58], by decide, by decide⟩]

theorem framedBody_trailersShow : framedBody.TrailersShow := by
  intro l hl
  rw [List.mem_singleton.1 hl]
  exact ⟨58, by decide, by decide⟩

theorem chunkDecoderProcess_encode_framed :
    let r := chunkDecoderProcess chunkDecoderInit (framedBody.encode ++ [48, 13, 10]) 15
    r.out = framedBody.data ∧ r.decoder.state = .done ∧ r.rest = [48, 13, 10] :=
  chunkDecoderProcess_encode framedBody_trailersShow [48, 13, 10] (by decide)

/-- No data, and a line of the trailer that is a carriage return. -/
def blankTrailer : EncodedBody where
  chunks := []
  last := ⟨[48], none, by decide, by decide, by decide, by simp⟩
  trailers := [⟨[13], by decide, by decide⟩]

/-- A line of carriage returns is taken for the last one: the decoder is done two bytes too soon. -/
theorem chunkDecoderProcess_blankTrailer :
    (chunkDecoderProcess chunkDecoderInit blankTrailer.encode 0).decoder.state = .done ∧
    (chunkDecoderProcess chunkDecoderInit blankTrailer.encode 0).rest = [cr, lf] ∧
    ¬∀ (b : EncodedBody) (more : Bytes) (outCap : ℕ), b.data.length ≤ outCap →
      let r := chunkDecoderProcess chunkDecoderInit (b.encode ++ more) outCap
      r.out = b.data ∧ r.decoder.state = .done ∧ r.rest = more := by
  have hrest : (chunkDecoderProcess chunkDecoderInit blankTrailer.encode 0).rest = [cr, lf] := by
    decide +kernel
  refine ⟨by decide +kernel, hrest, fun h => ?_⟩
  have hnone := (h blankTrailer [] 0 (by decide)).2.2
  rw [List.append_nil, hrest] at hnone
  cases hnone

end MacTLS
