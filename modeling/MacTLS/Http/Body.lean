import Mathlib.Data.List.TakeWhile
import MacTLS.Http.Cuts

/-!
# What the decoder takes for a complete body

Every byte the decoder consumes has its place in the decoder's history (`traced_of_reads`): size
lines, chunk data, what is skipped behind it, and the trailer.  From there it is a matter of single
size lines when a body that the decoder takes for complete is a chunked body.

* `takenSize_token` : the length a size line of up to 15 hexadecimal digits is taken for;
* `chunks_unique` : given the lengths, a byte string is a chunked body in one way only;
* `bodyLines` : the size lines of a body, and what stands behind the data of its chunks;
* `done_iff_chunkedBody` : when the decoder is done, it has read a chunked body with the lengths
  its size tokens denote exactly when these lines are plain;
* `done_emptyLine` : an empty size line is taken for the last chunk.
-/

namespace MacTLS

open Lib

/-! ### Chunked bodies -/

/-- One or more hexadecimal digits. -/
def SizeToken (token : Bytes) : Prop := token ≠ [] ∧ ∀ ch ∈ token, isHex ch = true

instance (token : Bytes) : Decidable (SizeToken token) :=
  decidable_of_iff (token ≠ [] ∧ token.all isHex) (and_congr_right' List.all_eq_true)

/-- What may stand between a size token and the line feed: carriage returns, and an extension. -/
def LineTail (tail : Bytes) : Prop :=
  lf ∉ tail ∧ ∀ ch ∈ (tail.dropWhile (· = cr)).head?, ch = semicolon

instance (tail : Bytes) : Decidable (LineTail tail) :=
  decidable_of_iff (lf ∉ tail ∧ (tail.dropWhile (· = cr)).head?.all (· = semicolon))
    (and_congr_right' (by cases (tail.dropWhile (· = cr)).head? <;> simp))

/-- A chunk: its size token, the rest of its size line, its data, and what ends the line the data
is on. -/
structure Chunk where
  token : Bytes
  tail : Bytes
  data : Bytes
  eol : Bytes

def Chunk.bytes (c : Chunk) : Bytes := c.token ++ c.tail ++ lf :: (c.data ++ c.eol ++ [lf])

/-- The data has the length that the token denotes. -/
structure Chunk.Valid (c : Chunk) : Prop where
  token : SizeToken c.token
  tail : LineTail c.tail
  data : c.data.length = hexValue c.token
  pos : 0 < hexValue c.token
  eol : ∀ ch ∈ c.eol, ch = cr

/-- The trailer: lines, and an empty line. -/
def Trailer (trailer : Bytes) : Prop :=
  ∃ lines : List Bytes, ∃ eol, (∀ line ∈ lines, lf ∉ line ∧ ∃ ch ∈ line, ch ≠ cr) ∧
    (∀ ch ∈ eol, ch = cr) ∧ trailer = lines.flatMap (· ++ [lf]) ++ eol ++ [lf]

/-- A chunked body of these chunks; `last` is the size token of the last chunk. -/
structure ChunkedBody (bytes : Bytes) (chunks : List Chunk) (last : Bytes) : Prop where
  valid : ∀ c ∈ chunks, c.Valid
  token : SizeToken last
  zero : hexValue last = 0
  bytes : ∃ tail trailer, LineTail tail ∧ Trailer trailer ∧
    bytes = chunks.flatMap Chunk.bytes ++ (last ++ tail ++ lf :: trailer)

/-! ### Size lines -/

/-- What of a size line gets into `size_buf`. -/
def sizeChars (line : Bytes) : Bytes :=
  ((line.takeWhile (· ≠ semicolon)).filter (· ≠ cr)).take sizeBufRoom

/-- The length a size line is taken for. -/
def takenSize (line : Bytes) : ℕ := toUInt32 (strtol16 (sizeChars line))

/-- A size line as it should be: 1 to 15 digits that denote less than 2^31, and then the line
end or an extension. -/
def PlainSizeLine (line : Bytes) : Prop :=
  line.takeWhile isHex ≠ [] ∧ (line.takeWhile isHex).length ≤ sizeBufRoom ∧
    hexValue (line.takeWhile isHex) < 2147483648 ∧ LineTail (line.dropWhile isHex)

instance (line : Bytes) : Decidable (PlainSizeLine line) := by
  unfold PlainSizeLine
  infer_instance

/-- The token of a plain size line, and the rest. -/
theorem PlainSizeLine.split {line : Bytes} (h : PlainSizeLine line) :
    ∃ token tail, line = token ++ tail ∧ SizeToken token ∧ token.length ≤ sizeBufRoom ∧
      LineTail tail ∧ hexValue token < 2147483648 := by
  obtain ⟨hne, hlen, hlt, htail⟩ := h
  exact ⟨_, _, List.takeWhile_append_dropWhile.symm,
    ⟨hne, fun _ hch => List.mem_takeWhile_imp hch⟩, hlen, htail, hlt⟩

theorem PlainSizeLine.of_split {token tail : Bytes} (htoken : SizeToken token)
    (hlen : token.length ≤ sizeBufRoom) (htail : LineTail tail)
    (hlt : hexValue token < 2147483648) : PlainSizeLine (token ++ tail) := by
  have hstart : tail.takeWhile isHex = [] ∧ tail.dropWhile isHex = tail := by
    cases tail with
    | nil => exact ⟨rfl, rfl⟩
    | cons ch tail =>
      have hch : isHex ch = false := by
        by_cases hcr : ch = cr
        · rw [hcr]
          decide
        · have hhead := htail.2
          rw [List.dropWhile_cons_of_neg (by simpa using hcr)] at hhead
          rw [hhead ch rfl]
          decide
      exact ⟨List.takeWhile_cons_of_neg (by simp [hch]),
        List.dropWhile_cons_of_neg (by simp [hch])⟩
  have htake : (token ++ tail).takeWhile isHex = token := by
    rw [List.takeWhile_append_of_pos htoken.2, hstart.1, List.append_nil]
  have hdrop : (token ++ tail).dropWhile isHex = tail := by
    rw [List.dropWhile_append_of_pos htoken.2, hstart.2]
  unfold PlainSizeLine
  rw [htake, hdrop]
  exact ⟨htoken.1, hlen, hlt, htail⟩

theorem not_mem_of_isHex {token : Bytes} (h : ∀ ch ∈ token, isHex ch = true) {ch : UInt8}
    (hch : isHex ch = false) : ch ∉ token := fun hmem => by
  cases hch.symm.trans (h ch hmem)

theorem sizeChars_of_semicolon {line : Bytes} (h : semicolon ∈ line) (ch : UInt8) :
    sizeChars (line ++ [ch]) = sizeChars line := by
  have hlen : (line.takeWhile (· ≠ semicolon)).length ≠ line.length := fun hlen => by
    have hall := List.takeWhile_eq_self_iff.mp
      ((List.takeWhile_sublist fun x => decide (x ≠ semicolon)).eq_of_length hlen)
    exact absurd (hall _ h) (by decide)
  unfold sizeChars
  rw [List.takeWhile_append, if_neg hlen]

theorem sizeChars_append {line : Bytes} (h : semicolon ∉ line) (more : Bytes) :
    sizeChars (line ++ more) = (line.filter (· ≠ cr) ++
      (more.takeWhile (· ≠ semicolon)).filter (· ≠ cr)).take sizeBufRoom := by
  have hall : ∀ ch ∈ line, decide (ch ≠ semicolon) = true := fun ch hch =>
    decide_eq_true fun heq => h (heq ▸ hch)
  unfold sizeChars
  rw [List.takeWhile_append_of_pos hall, List.filter_append]

theorem sizeChars_self {line : Bytes} (h : semicolon ∉ line) :
    sizeChars line = (line.filter (· ≠ cr)).take sizeBufRoom := by
  have := sizeChars_append h []
  rwa [List.append_nil, List.takeWhile_nil, List.filter_nil, List.append_nil] at this

/-- A byte that is neither a line end nor the start of an extension gets in if there is room. -/
theorem sizeChars_digit {line : Bytes} (h : semicolon ∉ line) {ch : UInt8} (hcr : ch ≠ cr)
    (hsemi : ch ≠ semicolon) : sizeChars (line ++ [ch]) =
      if (sizeChars line).length < sizeBufRoom then sizeChars line ++ [ch]
      else sizeChars line := by
  have hone : ([ch].takeWhile (· ≠ semicolon)).filter (· ≠ cr) = [ch] := by
    simp [hcr, hsemi]
  rw [sizeChars_append h, hone, sizeChars_self h]
  generalize line.filter (· ≠ cr) = kept
  rw [List.length_take]
  split_ifs with hroom
  · rw [List.take_of_length_le (by rw [List.length_append, List.length_singleton]; omega),
      List.take_of_length_le (by omega)]
  · rw [List.take_append_of_le_length (by omega)]

/-- What stands behind the token does not get into `size_buf`. -/
theorem sizeChars_token {token tail : Bytes} (htoken : SizeToken token)
    (hlen : token.length ≤ sizeBufRoom) (htail : LineTail tail) :
    sizeChars (token ++ tail) = token := by
  have hsemi : semicolon ∉ token := not_mem_of_isHex htoken.2 (by decide)
  have hcr : cr ∉ token := not_mem_of_isHex htoken.2 (by decide)
  have htoken' : token.filter (· ≠ cr) = token :=
    List.filter_eq_self.mpr fun ch hch => decide_eq_true fun heq => hcr (heq ▸ hch)
  have htail' : (tail.takeWhile (· ≠ semicolon)).filter (· ≠ cr) = [] := by
    have hsplit := List.takeWhile_append_dropWhile (p := fun ch => decide (ch = cr)) (l := tail)
    have hcrs : ∀ ch ∈ tail.takeWhile (fun ch => decide (ch = cr)), ch = cr := fun ch hch =>
      of_decide_eq_true (List.mem_takeWhile_imp (p := fun ch => decide (ch = cr)) hch)
    rw [← hsplit, List.takeWhile_append_of_pos fun ch hch => decide_eq_true
      (by rw [hcrs ch hch]; decide), List.filter_append]
    have hfirst : (tail.takeWhile (fun ch => decide (ch = cr))).filter (· ≠ cr) = [] :=
      List.filter_eq_nil_iff.mpr fun ch hch => by simp [hcrs ch hch]
    rw [hfirst, List.nil_append]
    have hhead := htail.2
    generalize tail.dropWhile (fun ch => decide (ch = cr)) = rest at hhead
    cases rest with
    | nil => rfl
    | cons ch rest =>
      have hch : ch = semicolon := hhead ch rfl
      rw [hch, List.takeWhile_cons_of_neg (by decide)]
      rfl
  rw [sizeChars_append hsemi, htoken', htail', List.append_nil, List.take_of_length_le hlen]

theorem not_isSpace_of_isHex {ch : UInt8} (h : isHex ch = true) : isSpace ch = false := by
  have hlow : 48 ≤ ch.toNat := by
    unfold isHex hexDigit at h
    split_ifs at h with h1 h2 h3
    · exact UInt8.le_iff_toNat_le.mp h1.1
    · exact Nat.le_trans (by decide) (UInt8.le_iff_toNat_le.mp h2.1)
    · exact Nat.le_trans (by decide) (UInt8.le_iff_toNat_le.mp h3.1)
    · cases h
  refine decide_eq_false fun hsp => ?_
  rcases hsp with heq | ⟨-, hle⟩
  · rw [heq] at hlow
    exact absurd hlow (by decide)
  · exact absurd (Nat.le_trans hlow (UInt8.le_iff_toNat_le.mp hle)) (by decide)

/-- `strtol` reads a string of hexadecimal digits as what it denotes, up to `LONG_MAX`. -/
theorem strtol16_token {token : Bytes} (h : SizeToken token) :
    strtol16 token = min (hexValue token) 2147483647 := by
  obtain ⟨hne, hhex⟩ := h
  obtain ⟨ch, rest, rfl⟩ := List.exists_cons_of_ne_nil hne
  have hch : isHex ch = true := hhex ch List.mem_cons_self
  have hspace : (ch :: rest).dropWhile isSpace = ch :: rest :=
    List.dropWhile_cons_of_neg (by rw [not_isSpace_of_isHex hch]; exact Bool.false_ne_true)
  have hsign : strtolSign (ch :: rest) = (false, ch :: rest) := by
    unfold strtolSign
    split
    case h_1 heq =>
      cases heq
      cases hch
    case h_2 heq =>
      cases heq
      cases hch
    case h_3 => rfl
  have hpref : strtolPrefix (ch :: rest) = ch :: rest := by
    unfold strtolPrefix
    split
    case h_1 heq =>
      cases heq
      exact absurd (hhex 120 (by simp)) (by decide)
    case h_2 heq =>
      cases heq
      exact absurd (hhex 88 (by simp)) (by decide)
    case h_3 => rfl
  unfold strtol16
  rw [hspace, hsign]
  dsimp only
  rw [hpref, List.takeWhile_eq_self_iff.mpr hhex, if_neg Bool.false_ne_true]
  omega

/-- The length a size line of up to 15 hexadecimal digits is taken for. -/
theorem takenSize_token {token tail : Bytes} (htoken : SizeToken token)
    (hlen : token.length ≤ sizeBufRoom) (htail : LineTail tail) :
    takenSize (token ++ tail) = min (hexValue token) 2147483647 := by
  rw [takenSize, sizeChars_token htoken hlen htail, strtol16_token htoken, toUInt32]
  omega

/-! ### The place of every byte -/

def ChunkRead.bytes (c : ChunkRead) : Bytes := c.line ++ lf :: (c.data ++ c.gap ++ [lf])

/-- A chunk that was read to its end. -/
structure ChunkRead.Sound (c : ChunkRead) : Prop where
  line : lf ∉ c.line
  gap : lf ∉ c.gap
  size : c.size = takenSize c.line
  data : c.data.length = c.size
  pos : 0 < c.size

/-- A trailer that has not ended: lines, and the start of another one. -/
def OpenTrailer (trailer : Bytes) (justAfterEol : Bool) : Prop :=
  ∃ lines : List Bytes, ∃ start, (∀ line ∈ lines, lf ∉ line ∧ ∃ ch ∈ line, ch ≠ cr) ∧
    lf ∉ start ∧ (justAfterEol = true ↔ ∀ ch ∈ start, ch = cr) ∧
    trailer = lines.flatMap (· ++ [lf]) ++ start

/-- Every byte read, and every byte written, has its place in the history. -/
inductive Traced : ChunkScan → Bytes → Bytes → Prop
  | size {chunks : List ChunkRead} {line : Bytes} {remaining : ℕ} {flag skipping : Bool}
      (hchunks : ∀ c ∈ chunks, c.Sound) (hline : lf ∉ line)
      (hskip : skipping = true ↔ semicolon ∈ line) :
      Traced
        ⟨⟨.size, remaining, sizeChars line, flag, ⟨chunks, ⟨line, 0, [], []⟩, []⟩⟩, skipping⟩
        (chunks.flatMap ChunkRead.bytes ++ line) (chunks.flatMap ChunkRead.data)
  | data {chunks : List ChunkRead} {line data : Bytes} {remaining : ℕ} {flag skipping : Bool}
      (hchunks : ∀ c ∈ chunks, c.Sound) (hline : lf ∉ line)
      (hsize : data.length + remaining = takenSize line) (hpos : 0 < remaining) :
      Traced
        ⟨⟨.data, remaining, [], flag, ⟨chunks, ⟨line, takenSize line, data, []⟩, []⟩⟩, skipping⟩
        (chunks.flatMap ChunkRead.bytes ++ (line ++ lf :: data))
        (chunks.flatMap ChunkRead.data ++ data)
  | crlf {chunks : List ChunkRead} {line data gap : Bytes} {remaining : ℕ} {flag skipping : Bool}
      (hchunks : ∀ c ∈ chunks, c.Sound) (hline : lf ∉ line) (hsize : data.length = takenSize line)
      (hpos : 0 < takenSize line) (hgap : lf ∉ gap) :
      Traced
        ⟨⟨.crlf, remaining, [], flag, ⟨chunks, ⟨line, takenSize line, data, gap⟩, []⟩⟩, skipping⟩
        (chunks.flatMap ChunkRead.bytes ++ (line ++ lf :: (data ++ gap)))
        (chunks.flatMap ChunkRead.data ++ data)
  | trailer {chunks : List ChunkRead} {line trailer : Bytes} {flag skipping : Bool}
      (hchunks : ∀ c ∈ chunks, c.Sound) (hline : lf ∉ line) (hzero : takenSize line = 0)
      (hopen : OpenTrailer trailer flag) :
      Traced ⟨⟨.trailer, 0, [], flag, ⟨chunks, ⟨line, 0, [], []⟩, trailer⟩⟩, skipping⟩
        (chunks.flatMap ChunkRead.bytes ++ (line ++ lf :: trailer)) (chunks.flatMap ChunkRead.data)
  | done {chunks : List ChunkRead} {line trailer : Bytes} {flag skipping : Bool}
      (hchunks : ∀ c ∈ chunks, c.Sound) (hline : lf ∉ line) (hzero : takenSize line = 0)
      (htrailer : Trailer trailer) :
      Traced ⟨⟨.done, 0, [], flag, ⟨chunks, ⟨line, 0, [], []⟩, trailer⟩⟩, skipping⟩
        (chunks.flatMap ChunkRead.bytes ++ (line ++ lf :: trailer)) (chunks.flatMap ChunkRead.data)

theorem traced_init : Traced ⟨chunkDecoderInit, false⟩ [] [] :=
  @Traced.size [] [] 0 false false (fun _ h => absurd h List.not_mem_nil) List.not_mem_nil
    ⟨fun h => (by cases h), fun h => absurd h List.not_mem_nil⟩

/-- With the scanner and the bytes given by equations. -/
theorem Traced.of_eq {s s' : ChunkScan} {read read' out out' : Bytes} (h : Traced s read out)
    (hs : s' = s) (hread : read' = read) (hout : out' = out) : Traced s' read' out' := by
  rw [hs, hread, hout]
  exact h

theorem not_mem_append_singleton {xs : Bytes} {x ch : UInt8} (h : x ∉ xs) (hch : ch ≠ x) :
    x ∉ xs ++ [ch] := fun hmem =>
  (List.mem_append.mp hmem).elim h fun hmem => hch (List.mem_singleton.mp hmem).symm

theorem toUInt32_eq_zero {s : Bytes} : toUInt32 (strtol16 s) = 0 ↔ strtol16 s = 0 := by
  obtain ⟨hlo, hhi⟩ := strtol16_bounds s
  unfold toUInt32
  omega

/-- A byte of a size line. -/
theorem Traced.next_size {chunks : List ChunkRead} {line : Bytes} {remaining : ℕ}
    {flag skipping : Bool} (hchunks : ∀ c ∈ chunks, c.Sound) (hline : lf ∉ line)
    (hskip : skipping = true ↔ semicolon ∈ line) (ch : UInt8) :
    let s : ChunkScan :=
      ⟨⟨.size, remaining, sizeChars line, flag, ⟨chunks, ⟨line, 0, [], []⟩, []⟩⟩, skipping⟩
    Traced (s.next ch).1 (chunks.flatMap ChunkRead.bytes ++ line ++ [ch])
      (chunks.flatMap ChunkRead.data ++ (s.next ch).2) := by
  dsimp only
  rw [ChunkScan.next_size rfl]
  have hread : ¬(skipping = true ∧ ch ≠ lf) → ¬ch = lf → semicolon ∉ line :=
    fun h1 h2 hmem => h1 ⟨hskip.mpr hmem, h2⟩
  -- the line goes on
  have hmore : ∀ {skipping' : Bool}, ch ≠ lf → sizeChars (line ++ [ch]) = sizeChars line →
      (skipping' = true ↔ semicolon ∈ line ++ [ch]) →
      Traced ⟨ChunkDecoder.sawLine
        ⟨.size, remaining, sizeChars line, flag, ⟨chunks, ⟨line, 0, [], []⟩, []⟩⟩ ch, skipping'⟩
        (chunks.flatMap ChunkRead.bytes ++ line ++ [ch]) (chunks.flatMap ChunkRead.data ++ []) :=
    fun hch hchars hskip' =>
      (Traced.size hchunks (not_mem_append_singleton hline hch) hskip').of_eq
        (by rw [hchars]; rfl) (List.append_assoc _ _ _) (List.append_nil _)
  split_ifs with h1 h2 h3 h4
  · have hsemi := hskip.mp h1.1
    exact hmore h1.2 (sizeChars_of_semicolon hsemi ch)
      ⟨fun _ => List.mem_append_left _ hsemi, fun _ => rfl⟩
  · subst h2
    have hzero : takenSize line = 0 ↔ strtol16 (sizeChars line) = 0 := toUInt32_eq_zero
    unfold chunkSizeLine
    dsimp only
    split_ifs with hsz
    · have htaken := hzero.mpr hsz
      refine (@Traced.trailer chunks line [] true false hchunks hline htaken ?_).of_eq ?_
        (List.append_assoc _ _ _) (List.append_nil _)
      · exact ⟨[], [], fun _ h => absurd h List.not_mem_nil, List.not_mem_nil,
          ⟨fun _ _ h => absurd h List.not_mem_nil, fun _ => rfl⟩, rfl⟩
      · rw [show toUInt32 (strtol16 (sizeChars line)) = 0 from htaken]
    · have hpos : 0 < takenSize line := Nat.pos_of_ne_zero fun h => hsz (hzero.mp h)
      exact (@Traced.data chunks line [] _ _ false hchunks hline (Nat.zero_add _) hpos).of_eq rfl
        (List.append_assoc _ _ _) rfl
  · have hsemi := hread h1 h2
    refine hmore h2 ?_ ⟨fun h => (by cases h), fun hin => ?_⟩
    · rw [sizeChars_append hsemi, sizeChars_self hsemi, h3]
      simp [cr, semicolon]
    · exact absurd hin (not_mem_append_singleton hsemi (by rw [h3]; decide))
  · have hsemi := hread h1 h2
    refine hmore h2 ?_ ⟨fun _ => List.mem_append_right _ (by rw [h4]; exact List.mem_cons_self),
      fun _ => rfl⟩
    rw [sizeChars_append hsemi, sizeChars_self hsemi, h4]
    simp [semicolon]
  · have hsemi := hread h1 h2
    refine (@Traced.size chunks (line ++ [ch]) remaining flag false hchunks
      (not_mem_append_singleton hline h2) ⟨fun h => (by cases h),
        fun hin => absurd hin (not_mem_append_singleton hsemi h4)⟩).of_eq ?_
      (List.append_assoc _ _ _) (List.append_nil _)
    rw [sizeChars_digit hsemi h3 h4]
    unfold chunkSizeDigit ChunkDecoder.sawLine
    dsimp only
    split_ifs <;> rfl

/-- A byte of the trailer. -/
theorem OpenTrailer.next {trailer : Bytes} {flag : Bool} (h : OpenTrailer trailer flag)
    (ch : UInt8) : if ch = cr then OpenTrailer (trailer ++ [ch]) flag
      else if ch = lf then if flag then Trailer (trailer ++ [ch]) else
        OpenTrailer (trailer ++ [ch]) true
      else OpenTrailer (trailer ++ [ch]) false := by
  obtain ⟨lines, start, hlines, hstart, hflag, rfl⟩ := h
  have hall : ∀ {x : UInt8}, x = cr → (∀ ch ∈ start, ch = cr) → ∀ ch ∈ start ++ [x], ch = cr :=
    fun hx hcrs ch hch => (List.mem_append.mp hch).elim (hcrs ch)
      fun hch => (List.mem_singleton.mp hch).trans hx
  split_ifs with h1 h2 h3
  · refine ⟨lines, start ++ [ch], hlines,
      not_mem_append_singleton hstart (by rw [h1]; decide), ?_, by rw [List.append_assoc]⟩
    exact ⟨fun hf => hall h1 (hflag.mp hf),
      fun hcrs => hflag.mpr fun ch hch => hcrs ch (List.mem_append_left _ hch)⟩
  · exact ⟨lines, start, hlines, hflag.mp h3, by rw [h2]⟩
  · have hnot : ∃ ch ∈ start, ch ≠ cr := by
      by_contra hno
      exact h3 (hflag.mpr fun ch hch => by_contra fun hne => hno ⟨ch, hch, hne⟩)
    refine ⟨lines ++ [start], [], ?_, List.not_mem_nil,
      ⟨fun _ _ h => absurd h List.not_mem_nil, fun _ => rfl⟩, ?_⟩
    · intro line hline
      rcases List.mem_append.mp hline with hline | hline
      · exact hlines line hline
      · rw [List.mem_singleton.mp hline]
        exact ⟨hstart, hnot⟩
    · rw [h2, List.flatMap_append, List.append_nil, List.append_assoc]
      simp
  · refine ⟨lines, start ++ [ch], hlines, not_mem_append_singleton hstart h2,
      ⟨fun hf => (by cases hf), fun hcrs => ?_⟩, by rw [List.append_assoc]⟩
    exact absurd (hcrs ch (List.mem_append_right _ List.mem_cons_self)) h1

theorem Traced.next {s : ChunkScan} {read out : Bytes} (h : Traced s read out)
    (hs : s.decoder.state ≠ .done) (ch : UInt8) :
    Traced (s.next ch).1 (read ++ [ch]) (out ++ (s.next ch).2) := by
  cases h with
  | size hchunks hline hskip => exact Traced.next_size hchunks hline hskip ch
  | @data chunks line data remaining flag skipping hchunks hline hsize hpos =>
    rw [ChunkScan.next_data rfl]
    have hread : chunks.flatMap ChunkRead.bytes ++ (line ++ lf :: data) ++ [ch] =
        chunks.flatMap ChunkRead.bytes ++ (line ++ lf :: (data ++ [ch])) := by simp
    have hlen : (data ++ [ch]).length = data.length + 1 := List.length_append
    unfold chunkDataByte
    dsimp only
    -- the last byte of a chunk, or one before it
    by_cases hlast : remaining - 1 = 0
    · rw [if_pos hlast]
      refine (@Traced.crlf chunks line (data ++ [ch]) [] (remaining - 1) flag false hchunks hline
        (by omega) (by omega) List.not_mem_nil).of_eq rfl ?_ (List.append_assoc _ _ _)
      rw [hread, List.append_nil]
    · rw [if_neg hlast]
      exact (@Traced.data chunks line (data ++ [ch]) (remaining - 1) flag false hchunks hline
        (by omega) (by omega)).of_eq rfl hread (List.append_assoc _ _ _)
  | @crlf chunks line data gap remaining flag skipping hchunks hline hsize hpos hgap =>
    rw [ChunkScan.next_crlf rfl]
    split_ifs with hch
    · subst hch
      -- the chunk is complete, and joins those before it
      have hsound : ∀ c ∈ chunks ++ [⟨line, takenSize line, data, gap⟩], c.Sound := by
        intro c hc
        rcases List.mem_append.mp hc with hc | hc
        · exact hchunks c hc
        · rw [List.mem_singleton.mp hc]
          exact ⟨hline, hgap, rfl, hsize, hpos⟩
      refine (@Traced.size _ [] remaining flag false hsound List.not_mem_nil
        ⟨fun h => (by cases h), fun h => absurd h List.not_mem_nil⟩).of_eq rfl ?_ ?_
      · simp [ChunkRead.bytes]
      · simp
    · refine (@Traced.crlf chunks line data (gap ++ [ch]) remaining flag false hchunks hline hsize
        hpos (not_mem_append_singleton hgap hch)).of_eq rfl ?_ (List.append_nil _)
      simp
  | @trailer chunks line trailer flag skipping hchunks hline hzero hopen =>
    rw [ChunkScan.next_trailer rfl]
    have hread : chunks.flatMap ChunkRead.bytes ++ (line ++ lf :: trailer) ++ [ch] =
        chunks.flatMap ChunkRead.bytes ++ (line ++ lf :: (trailer ++ [ch])) := by simp
    have hnext := hopen.next ch
    unfold chunkTrailerByte
    dsimp only
    -- an empty line ends the body, any other is skipped
    by_cases h1 : ch = cr
    · rw [if_pos h1] at hnext ⊢
      exact (Traced.trailer hchunks hline hzero hnext).of_eq rfl hread (List.append_nil _)
    · rw [if_neg h1] at hnext ⊢
      by_cases h2 : ch = lf
      · rw [if_pos h2] at hnext ⊢
        cases flag with
        | true => exact (Traced.done hchunks hline hzero hnext).of_eq rfl hread (List.append_nil _)
        | false =>
          exact (Traced.trailer hchunks hline hzero hnext).of_eq rfl hread (List.append_nil _)
      · rw [if_neg h2] at hnext ⊢
        exact (Traced.trailer hchunks hline hzero hnext).of_eq rfl hread (List.append_nil _)
  | done => exact absurd rfl hs

theorem traced_of_reads {read out : Bytes} {s : ChunkScan}
    (h : chunkScanner.Reads ⟨chunkDecoderInit, false⟩ read out s) : Traced s read out :=
  h.invariant (P := Traced) traced_init fun _ _ _ ch htraced hs =>
    htraced.next (chunkScanner_stopped.mp hs) ch

/-- A decoder that is done has read chunks, a last chunk, and a trailer. -/
structure Finished (d : ChunkDecoder) (read out : Bytes) : Prop where
  bytes : read = d.history.chunks.flatMap ChunkRead.bytes ++
    (d.history.current.line ++ lf :: d.history.trailer)
  out : out = d.history.chunks.flatMap ChunkRead.data
  chunks : ∀ c ∈ d.history.chunks, c.Sound
  line : lf ∉ d.history.current.line
  zero : takenSize d.history.current.line = 0
  trailer : Trailer d.history.trailer

theorem Traced.finished {s : ChunkScan} {read out : Bytes} (h : Traced s read out)
    (hs : s.decoder.state = .done) : Finished s.decoder read out := by
  cases h with
  | done hchunks hline hzero htrailer => exact ⟨rfl, rfl, hchunks, hline, hzero, htrailer⟩
  | _ => cases hs

/-- A decoder that one call on `input` leaves done. -/
theorem finished_of_done {input : Bytes} {n : ℕ}
    (h : (chunkDecoderProcess chunkDecoderInit input n).decoder.state = .done) :
    ∃ read, input = read ++ (chunkDecoderProcess chunkDecoderInit input n).rest ∧
      Finished (chunkDecoderProcess chunkDecoderInit input n).decoder read
        (chunkDecoderProcess chunkDecoderInit input n).out := by
  obtain ⟨⟨read, skipping, hread, hreads, -⟩, -⟩ :=
    reads_chunkDecoderProcess (d := chunkDecoderInit) (fun h => by cases h) input n
  exact ⟨read, hread, (traced_of_reads hreads).finished h⟩

/-! ### The body -/

/-- What a chunk that was read is as a chunk of a body. -/
theorem ChunkRead.Sound.valid {c : ChunkRead} (h : c.Sound) (hplain : PlainSizeLine c.line)
    (hgap : ∀ ch ∈ c.gap, ch = cr) : ∃ c' : Chunk, c'.Valid ∧ c'.token.length ≤ sizeBufRoom ∧
      c'.bytes = c.bytes ∧ c'.data = c.data ∧ hexValue c'.token = c.size := by
  obtain ⟨token, tail, hline, htoken, hlen, htail, hlt⟩ := hplain.split
  have hsize : c.size = hexValue token := by
    rw [h.size, hline, takenSize_token htoken hlen htail]
    omega
  refine ⟨⟨token, tail, c.data, c.gap⟩, ⟨htoken, htail, ?_, ?_, hgap⟩, hlen, ?_, rfl, hsize.symm⟩
  · exact h.data.trans hsize
  · exact hsize ▸ h.pos
  · unfold Chunk.bytes ChunkRead.bytes
    rw [hline]

theorem lf_not_mem_line {token tail : Bytes} (htoken : SizeToken token) (htail : LineTail tail) :
    lf ∉ token ++ tail := fun hmem =>
  (List.mem_append.mp hmem).elim (not_mem_of_isHex htoken.2 (by decide)) htail.1

/-- The line that comes first, when the bytes up to a line feed are given. -/
theorem line_unique {line line' rest rest' : Bytes} (h : lf ∉ line) (h' : lf ∉ line')
    (heq : line ++ lf :: rest = line' ++ lf :: rest') : line = line' ∧ rest = rest' := by
  induction line generalizing line' with
  | nil =>
    cases line' with
    | nil => exact ⟨rfl, (List.cons.inj heq).2⟩
    | cons ch line' => exact absurd (by rw [(List.cons.inj heq).1]; exact List.mem_cons_self) h'
  | cons ch line ih =>
    cases line' with
    | nil => exact absurd (by rw [← (List.cons.inj heq).1]; exact List.mem_cons_self) h
    | cons ch' line' =>
      obtain ⟨hch, htail⟩ := List.cons.inj heq
      obtain ⟨hline, hrest⟩ := ih (List.not_mem_of_not_mem_cons h)
        (List.not_mem_of_not_mem_cons h') htail
      exact ⟨by rw [hch, hline], hrest⟩

/-- Given the lengths, the bytes are those of chunks in one way only. -/
theorem chunks_unique {reads : List ChunkRead} {chunks : List Chunk} {line line' : Bytes}
    {rest rest' : Bytes} (hreads : ∀ c ∈ reads, c.Sound) (hvalid : ∀ c ∈ chunks, c.Valid)
    (hlengths : reads.map ChunkRead.size = chunks.map fun c => hexValue c.token)
    (hline : lf ∉ line) (hline' : lf ∉ line')
    (heq : reads.flatMap ChunkRead.bytes ++ (line ++ lf :: rest) =
      chunks.flatMap Chunk.bytes ++ (line' ++ lf :: rest')) :
    (∀ r ∈ reads, ∃ c ∈ chunks, r.line = c.token ++ c.tail ∧ r.gap = c.eol ∧ r.data = c.data) ∧
      line = line' := by
  induction reads generalizing chunks with
  | nil =>
    cases chunks with
    | nil => exact ⟨fun _ h => absurd h List.not_mem_nil, (line_unique hline hline' heq).1⟩
    | cons c chunks => cases hlengths
  | cons r reads ih =>
    cases chunks with
    | nil => cases hlengths
    | cons c chunks =>
      obtain ⟨hsize, hlengths⟩ := List.cons.inj hlengths
      have hr := hreads r List.mem_cons_self
      have hc := hvalid c List.mem_cons_self
      rw [List.flatMap_cons, List.flatMap_cons, ChunkRead.bytes, Chunk.bytes] at heq
      simp only [List.append_assoc, List.cons_append] at heq
      rw [← List.append_assoc c.token] at heq
      obtain ⟨hl, hrest⟩ := line_unique hr.line (lf_not_mem_line hc.token hc.tail) heq
      have hlen : r.data.length = c.data.length := by
        rw [hr.data, hc.data]
        exact hsize
      obtain ⟨hdata, hrest⟩ := List.append_inj hrest hlen
      have heol : lf ∉ c.eol := fun hmem => absurd (hc.eol lf hmem) (by decide)
      obtain ⟨hgap, hrest⟩ := line_unique hr.gap heol hrest
      obtain ⟨htail, hlast⟩ := ih (fun c hc => hreads c (List.mem_cons_of_mem _ hc))
        (fun c hc => hvalid c (List.mem_cons_of_mem _ hc)) hlengths hrest
      refine ⟨fun r' hr' => ?_, hlast⟩
      rcases List.mem_cons.mp hr' with rfl | hr'
      · exact ⟨c, List.mem_cons_self, hl, hgap, hdata⟩
      · obtain ⟨c', hc', heq⟩ := htail r' hr'
        exact ⟨c', List.mem_cons_of_mem _ hc', heq⟩

/-- What chunks that were read are as the chunks of a body. -/
theorem exists_chunks {reads : List ChunkRead} (hreads : ∀ c ∈ reads, c.Sound)
    (hplain : ∀ c ∈ reads, PlainSizeLine c.line ∧ ∀ ch ∈ c.gap, ch = cr) :
    ∃ chunks : List Chunk, (∀ c ∈ chunks, c.Valid ∧ c.token.length ≤ sizeBufRoom) ∧
      reads.flatMap ChunkRead.bytes = chunks.flatMap Chunk.bytes ∧
      reads.flatMap ChunkRead.data = chunks.flatMap Chunk.data ∧
      reads.map ChunkRead.size = chunks.map fun c => hexValue c.token := by
  induction reads with
  | nil => exact ⟨[], fun _ h => absurd h List.not_mem_nil, rfl, rfl, rfl⟩
  | cons r reads ih =>
    obtain ⟨chunks, hvalid, hbytes, hdata, hsizes⟩ :=
      ih (fun r hr => hreads r (List.mem_cons_of_mem _ hr))
        (fun r hr => hplain r (List.mem_cons_of_mem _ hr))
    obtain ⟨hline, hgap⟩ := hplain r List.mem_cons_self
    obtain ⟨c, hc, hlen, hcbytes, hcdata, hcsize⟩ :=
      (hreads r List.mem_cons_self).valid hline hgap
    refine ⟨c :: chunks, fun c' hc' => ?_, ?_, ?_, ?_⟩
    · rcases List.mem_cons.mp hc' with rfl | hc'
      · exact ⟨hc, hlen⟩
      · exact hvalid c' hc'
    · rw [List.flatMap_cons, List.flatMap_cons, hbytes, hcbytes]
    · rw [List.flatMap_cons, List.flatMap_cons, hdata, hcdata]
    · rw [List.map_cons, List.map_cons, hsizes, hcsize]

/-- A size line that is taken for what its token denotes is plain. -/
theorem plain_of_takenSize {token tail : Bytes} (htoken : SizeToken token)
    (hlen : token.length ≤ sizeBufRoom) (htail : LineTail tail)
    (h : takenSize (token ++ tail) = hexValue token) : PlainSizeLine (token ++ tail) := by
  rw [takenSize_token htoken hlen htail] at h
  exact .of_split htoken hlen htail (by omega)

/-- What the decoder read is a chunked body, whose size tokens have at most 15 digits and denote
the lengths they were taken for, and what it wrote are its data. -/
def ReadChunkedBody (d : ChunkDecoder) (read out : Bytes) : Prop :=
  ∃ chunks last, ChunkedBody read chunks last ∧ out = chunks.flatMap Chunk.data ∧
    (∀ c ∈ chunks, c.token.length ≤ sizeBufRoom) ∧ last.length ≤ sizeBufRoom ∧
    d.history.chunks.map ChunkRead.size = chunks.map fun c => hexValue c.token

/-- The size lines that were read are plain, and behind the data come carriage returns only. -/
def PlainReads (d : ChunkDecoder) : Prop :=
  (∀ c ∈ d.history.chunks, PlainSizeLine c.line ∧ ∀ ch ∈ c.gap, ch = cr) ∧
    PlainSizeLine d.history.current.line

theorem Finished.readChunkedBody_iff {d : ChunkDecoder} {read out : Bytes}
    (h : Finished d read out) : ReadChunkedBody d read out ↔ PlainReads d := by
  constructor
  · rintro ⟨chunks, last, ⟨hvalid, htoken, hzero, tail, trailer, htail, -, hbytes⟩, -, hlen,
      hlast, hlengths⟩
    rw [h.bytes] at hbytes
    obtain ⟨hall, hline⟩ := chunks_unique h.chunks hvalid hlengths h.line
      (lf_not_mem_line htoken htail) hbytes
    refine ⟨fun r hr => ?_, ?_⟩
    · obtain ⟨c, hc, hrline, hrgap, hrdata⟩ := hall r hr
      have hcv := hvalid c hc
      have hsize : takenSize r.line = hexValue c.token := by
        rw [← (h.chunks r hr).size, ← (h.chunks r hr).data, hrdata, hcv.data]
      refine ⟨?_, fun ch hch => hcv.eol ch (hrgap ▸ hch)⟩
      rw [hrline] at hsize ⊢
      exact plain_of_takenSize hcv.token (hlen c hc) hcv.tail hsize
    · have hsize := h.zero.trans hzero.symm
      rw [hline] at hsize ⊢
      exact plain_of_takenSize htoken hlast htail hsize
  · rintro ⟨hchunks, hline⟩
    obtain ⟨chunks, hvalid, hbytes, hdata, hsizes⟩ := exists_chunks h.chunks hchunks
    obtain ⟨last, tail, hlast, htoken, hlen, htail, hlt⟩ := hline.split
    have hzero : hexValue last = 0 := by
      have hz := h.zero
      rw [hlast, takenSize_token htoken hlen htail] at hz
      omega
    refine ⟨chunks, last, ⟨fun c hc => (hvalid c hc).1, htoken, hzero, tail, d.history.trailer,
      htail, h.trailer, ?_⟩, h.out.trans hdata, fun c hc => (hvalid c hc).2, hlen, hsizes⟩
    rw [h.bytes, hbytes, hlast]

/-- The size lines of a body up to the first one that is taken for zero, and what stands behind the
data of each chunk. -/
def bodyLines : ℕ → Bytes → List Bytes × List Bytes
  | 0, _ => ([], [])
  | fuel + 1, body =>
    let line := body.takeWhile (· ≠ lf)
    if takenSize line = 0 then ([line], [])
    else
      let behind := body.drop (line.length + 1 + takenSize line)
      let gap := behind.takeWhile (· ≠ lf)
      let lines := bodyLines fuel (behind.drop (gap.length + 1))
      (line :: lines.1, gap :: lines.2)

/-- The size lines of a body are plain, and behind the data come carriage returns only. -/
def PlainLines (body : Bytes) : Prop :=
  (∀ line ∈ (bodyLines body.length body).1, PlainSizeLine line) ∧
    ∀ gap ∈ (bodyLines body.length body).2, ∀ ch ∈ gap, ch = cr

instance (body : Bytes) : Decidable (PlainLines body) := inferInstanceAs (Decidable (_ ∧ _))

theorem takeWhile_line {line : Bytes} (h : lf ∉ line) (rest : Bytes) :
    (line ++ lf :: rest).takeWhile (· ≠ lf) = line := by
  rw [List.takeWhile_append_of_pos, List.takeWhile_cons_of_neg (by simp), List.append_nil]
  exact fun ch hch => decide_eq_true fun heq => h (heq ▸ hch)

theorem drop_line (line rest : Bytes) : (line ++ lf :: rest).drop (line.length + 1) = rest := by
  rw [← List.drop_drop, List.drop_left, List.drop_succ_cons, List.drop_zero]

/-- The lines of the bytes that a decoder has read. -/
theorem bodyLines_eq {reads : List ChunkRead} {line rest : Bytes} (hreads : ∀ c ∈ reads, c.Sound)
    (hline : lf ∉ line) (hzero : takenSize line = 0) {fuel : ℕ} (hfuel : reads.length < fuel) :
    bodyLines fuel (reads.flatMap ChunkRead.bytes ++ (line ++ lf :: rest)) =
      (reads.map ChunkRead.line ++ [line], reads.map ChunkRead.gap) := by
  induction reads generalizing fuel with
  | nil =>
    obtain ⟨fuel, rfl⟩ : ∃ n, fuel = n + 1 := ⟨fuel - 1, by simp at hfuel; omega⟩
    rw [List.flatMap_nil, List.nil_append, bodyLines, takeWhile_line hline]
    exact if_pos hzero
  | cons c reads ih =>
    obtain ⟨fuel, rfl⟩ : ∃ n, fuel = n + 1 := ⟨fuel - 1, by simp at hfuel; omega⟩
    obtain ⟨hc, hreads⟩ := List.forall_mem_cons.1 hreads
    have hpos : takenSize c.line ≠ 0 := by
      rw [← hc.size]
      exact Nat.ne_of_gt hc.pos
    have hlen : c.data.length = takenSize c.line := hc.data.trans hc.size
    have hbytes : (c :: reads).flatMap ChunkRead.bytes ++ (line ++ lf :: rest) =
        c.line ++ lf :: (c.data ++ (c.gap ++ lf :: (reads.flatMap ChunkRead.bytes ++
          (line ++ lf :: rest)))) := by
      simp [ChunkRead.bytes]
    have hbehind : ∀ rest, (c.line ++ lf :: (c.data ++ rest)).drop
        (c.line.length + 1 + takenSize c.line) = rest := fun rest => by
      rw [← List.drop_drop, drop_line, ← hlen, List.drop_left]
    rw [hbytes, bodyLines, takeWhile_line hc.line]
    dsimp only
    rw [if_neg hpos, hbehind, takeWhile_line hc.gap, drop_line,
      ih hreads (Nat.lt_of_succ_lt_succ hfuel)]
    rfl

theorem length_le_bytes (reads : List ChunkRead) :
    reads.length ≤ (reads.flatMap ChunkRead.bytes).length := by
  induction reads with
  | nil => exact Nat.le_refl 0
  | cons c reads ih =>
    rw [List.flatMap_cons, List.length_append, List.length_cons]
    simp only [ChunkRead.bytes, List.length_append, List.length_cons]
    omega

/-- What a decoder that is done has read is plain if the input is. -/
theorem Finished.plainReads_iff {d : ChunkDecoder} {read out : Bytes} (h : Finished d read out)
    (rest : Bytes) : PlainReads d ↔ PlainLines (read ++ rest) := by
  have hbytes : read ++ rest = d.history.chunks.flatMap ChunkRead.bytes ++
      (d.history.current.line ++ lf :: (d.history.trailer ++ rest)) := by
    rw [h.bytes]
    simp
  have hfuel : d.history.chunks.length < (read ++ rest).length := by
    have := length_le_bytes d.history.chunks
    rw [hbytes, List.length_append, List.length_append, List.length_cons]
    omega
  unfold PlainLines PlainReads
  rw [hbytes] at hfuel ⊢
  rw [bodyLines_eq h.chunks h.line h.zero hfuel]
  constructor
  · rintro ⟨hchunks, hline⟩
    refine ⟨fun line hmem => ?_, fun gap hmem => ?_⟩
    · obtain hmem | hmem := List.mem_append.1 hmem
      · obtain ⟨c, hc, rfl⟩ := List.mem_map.1 hmem
        exact (hchunks c hc).1
      · rw [List.mem_singleton.1 hmem]
        exact hline
    · obtain ⟨c, hc, rfl⟩ := List.mem_map.1 hmem
      exact (hchunks c hc).2
  · rintro ⟨hlines, hgaps⟩
    refine ⟨fun c hc => ⟨?_, ?_⟩, ?_⟩
    · exact hlines _ (List.mem_append_left _ (List.mem_map_of_mem hc))
    · exact hgaps _ (List.mem_map_of_mem hc)
    · exact hlines _ (List.mem_append_right _ (List.mem_singleton_self _))

/-- When one call on a fresh decoder, whatever the room, leaves the decoder done, then what it
consumed is a chunked body, with the lengths its size tokens denote, exactly when the size lines of
its input are plain, with only carriage returns behind the data of each chunk. -/
theorem done_iff_chunkedBody (input : Bytes) (n : ℕ) :
    let r := chunkDecoderProcess chunkDecoderInit input n
    r.decoder.state = .done →
      (ReadChunkedBody r.decoder (input.take (input.length - r.rest.length)) r.out ↔
        PlainLines input) := by
  intro r hdone
  obtain ⟨read, hread, hfin⟩ := finished_of_done hdone
  have htake : input.take (input.length - r.rest.length) = read := by
    have hlen := congrArg List.length hread
    rw [List.length_append] at hlen
    have hr : r.rest = (chunkDecoderProcess chunkDecoderInit input n).rest := rfl
    rw [hr, hlen, Nat.add_sub_cancel]
    conv_lhs => rw [hread]
    exact List.take_left
  have hplain : PlainReads r.decoder ↔ PlainLines input := by
    conv_rhs => rw [hread]
    exact hfin.plainReads_iff _
  rw [htake]
  exact hfin.readChunkedBody_iff.trans hplain

theorem done_iff_chunkedBody_hello :
    let r := chunkDecoderProcess chunkDecoderInit helloStream 17
    ReadChunkedBody r.decoder (helloStream.take (helloStream.length - r.rest.length)) r.out :=
  (done_iff_chunkedBody helloStream 17 (by decide +kernel)).mpr (by decide +kernel)

/-- An empty size line is taken for the last chunk: the decoder is done with a body that has no
size token at all. -/
theorem done_emptyLine :
    ¬∀ (input : Bytes) (n : ℕ), input.length ≤ n →
      let r := chunkDecoderProcess chunkDecoderInit input n
      r.decoder.state = .done →
        ReadChunkedBody r.decoder (input.take (input.length - r.rest.length)) r.out := by
  intro hall
  obtain ⟨chunks, last, ⟨-, htoken, -, tail, trailer, -, -, hbytes⟩, -, -, -, hlengths⟩ :=
    hall [13, 10, 13, 10] 4 (by decide) (by decide +kernel)
  have hnone : ([] : List ℕ) = chunks.map fun c => hexValue c.token := hlengths
  have hchunks : chunks = [] := List.map_eq_nil_iff.mp hnone.symm
  subst hchunks
  obtain ⟨ch, rest, rfl⟩ := List.exists_cons_of_ne_nil htoken.1
  have hread : ([13, 10, 13, 10] : Bytes) = ch :: (rest ++ tail ++ lf :: trailer) := hbytes
  have hhex := htoken.2 ch List.mem_cons_self
  rw [← (List.cons.inj hread).1] at hhex
  exact absurd hhex (by decide)

end MacTLS
