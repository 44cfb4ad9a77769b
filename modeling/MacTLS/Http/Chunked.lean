import Mathlib.Data.Int.Notation
import MacTLS.Wire

/-!
# The chunked transfer-coding decoder

`OSTLS_HTTP_ChunkDecoderProcess`, loop by loop.  The input of a call is the list of its bytes, and
a loop returns what it has not consumed.

A decoder also carries a `ChunkHistory`: what it took each byte it consumed for.  No function of
the source reads it; the properties are about it.
-/

namespace MacTLS

open Lib

/-! ### Sizes -/

/-- `'\n'` -/
def lf : UInt8 := 10

/-- `'\r'` -/
def cr : UInt8 := 13

/-- `';'` -/
def semicolon : UInt8 := 59

/-- `isspace` -/
def isSpace (ch : UInt8) : Bool := ch = 32 ∨ (9 ≤ ch ∧ ch ≤ 13)

/-- The value of a hexadecimal digit. -/
def hexDigit (ch : UInt8) : Option ℕ :=
  if 48 ≤ ch ∧ ch ≤ 57 then some (ch.toNat - 48)
  else if 65 ≤ ch ∧ ch ≤ 70 then some (ch.toNat - 55)
  else if 97 ≤ ch ∧ ch ≤ 102 then some (ch.toNat - 87)
  else none

def isHex (ch : UInt8) : Bool := (hexDigit ch).isSome

/-- What a string of hexadecimal digits denotes. -/
def hexValue (digits : Bytes) : ℕ :=
  digits.foldl (fun v ch => 16 * v + (hexDigit ch).getD 0) 0

/-- The sign `strtol` looks for behind leading white space, and the rest. -/
def strtolSign : Bytes → Bool × Bytes
  | 45 :: s => (true, s)
  | 43 :: s => (false, s)
  | s => (false, s)

/-- The prefix `strtol` skips for base 16. -/
def strtolPrefix : Bytes → Bytes
  | 48 :: 120 :: s => s
  | 48 :: 88 :: s => s
  | s => s

/-- `strtol(s, NULL, 16)` where `long` has 32 bits: it parses as much as it can, and a value out
of range becomes the nearest one in range. -/
def strtol16 (s : Bytes) : ℤ :=
  let (negative, s) := strtolSign (s.dropWhile isSpace)
  let v := hexValue ((strtolPrefix s).takeWhile isHex)
  if negative then max (-v) (-2147483648) else min v 2147483647

/-- The cast to `UInt32`. -/
def toUInt32 (v : ℤ) : ℕ := (v % 4294967296).toNat

/-! ### Decoders -/

/-- States of the decoder (`OSTLSChunkState`). -/
inductive ChunkState where
  | size
  | data
  | crlf
  | trailer
  | done
  deriving DecidableEq, Repr

/-- A chunk as it was read: its size line without the line feed, the length this was taken for,
its data, and what was skipped between the data and the next line feed. -/
structure ChunkRead where
  line : Bytes
  size : ℕ
  data : Bytes
  gap : Bytes
  deriving DecidableEq

def ChunkRead.empty : ChunkRead := ⟨[], 0, [], []⟩

/-- What a decoder has read so far. -/
structure ChunkHistory where
  chunks : List ChunkRead
  /-- The chunk being read. -/
  current : ChunkRead
  trailer : Bytes
  deriving DecidableEq

/-- A decoder (`OSTLSChunkDecoder`). -/
structure ChunkDecoder where
  state : ChunkState
  remaining : ℕ
  /-- The first `size_len` bytes of `size_buf`. -/
  sizeBuf : Bytes
  trailerJustAfterEol : Bool
  history : ChunkHistory
  deriving DecidableEq

/-- `sizeof size_buf - 1` -/
def sizeBufRoom : ℕ := 15

/-- `OSTLS_HTTP_ChunkDecoderInit` -/
def chunkDecoderInit : ChunkDecoder where
  state := .size
  remaining := 0
  sizeBuf := []
  trailerJustAfterEol := false
  history := ⟨[], .empty, []⟩

section

variable (d : ChunkDecoder)

/-- A byte of a size line was read. -/
def ChunkDecoder.sawLine (ch : UInt8) : ChunkDecoder :=
  { d with history.current.line := d.history.current.line ++ [ch] }

/-- A byte behind a chunk's data was skipped. -/
def ChunkDecoder.sawGap (ch : UInt8) : ChunkDecoder :=
  { d with history.current.gap := d.history.current.gap ++ [ch] }

/-- A byte of the trailer was read. -/
def ChunkDecoder.sawTrailer (ch : UInt8) : ChunkDecoder :=
  { d with history.trailer := d.history.trailer ++ [ch] }

/-- The line feed of a size line. -/
def chunkSizeLine : ChunkDecoder :=
  let sz := strtol16 d.sizeBuf
  let d := { d with
    sizeBuf := []
    remaining := toUInt32 sz
    history.current.size := toUInt32 sz }
  if sz = 0 then { d with state := .trailer, trailerJustAfterEol := true }
  else { d with state := .data }

/-- Another byte of a size, if there is room for it. -/
def chunkSizeDigit (ch : UInt8) : ChunkDecoder :=
  if d.sizeBuf.length < sizeBufRoom then { d with sizeBuf := d.sizeBuf ++ [ch] } else d

/-- The line feed behind a chunk's data. -/
def chunkEnd : ChunkDecoder :=
  { d with
    state := .size
    history := { d.history with
      chunks := d.history.chunks ++ [d.history.current], current := .empty } }

end

/-- The loop of a size line.  `skipping` is its inner loop, which drops a chunk extension. -/
def chunkSizeLoop (d : ChunkDecoder) (skipping : Bool) : Bytes → ChunkDecoder × Bytes
  | [] => (d, [])
  | ch :: input =>
    if skipping ∧ ch ≠ lf then chunkSizeLoop (d.sawLine ch) true input
    else if ch = lf then (chunkSizeLine d, input)
    else if ch = cr then chunkSizeLoop (d.sawLine ch) false input
    else if ch = semicolon then chunkSizeLoop (d.sawLine ch) true input
    else chunkSizeLoop (chunkSizeDigit (d.sawLine ch) ch) false input

/-- The loop behind a chunk's data. -/
def chunkCrlfLoop (d : ChunkDecoder) : Bytes → ChunkDecoder × Bytes
  | [] => (d, [])
  | ch :: input =>
    if ch = lf then (chunkEnd d, input) else chunkCrlfLoop (d.sawGap ch) input

/-- The loop of the trailer. -/
def chunkTrailerLoop (d : ChunkDecoder) : Bytes → ChunkDecoder × Bytes
  | [] => (d, [])
  | ch :: input =>
    let d := d.sawTrailer ch
    if ch = cr then chunkTrailerLoop d input
    else if ch = lf then
      if d.trailerJustAfterEol then ({ d with state := .done }, input)
      else chunkTrailerLoop { d with trailerJustAfterEol := true } input
    else chunkTrailerLoop { d with trailerJustAfterEol := false } input

/-- How far a call came: the decoder, what it wrote, what it has not consumed, and whether the
caller's buffer is full. -/
structure ChunkOut where
  decoder : ChunkDecoder
  out : Bytes
  rest : Bytes
  full : Bool
  deriving DecidableEq

/-- Chunk data is copied as far as the input and the room go. -/
def chunkData (d : ChunkDecoder) (input : Bytes) (room : ℕ) : ChunkOut :=
  let deliver := min (min input.length d.remaining) room
  let d := { d with
    remaining := d.remaining - deliver
    history.current.data := d.history.current.data ++ input.take deliver }
  if d.remaining = 0 then
    ⟨{ d with state := .crlf }, input.take deliver, input.drop deliver, false⟩
  else ⟨d, input.take deliver, input.drop deliver, deliver ≥ room⟩

/-- One turn of the outer loop. -/
def chunkTurn (d : ChunkDecoder) (input : Bytes) (room : ℕ) : ChunkOut :=
  match d.state with
  | .size => let r := chunkSizeLoop d false input; ⟨r.1, [], r.2, false⟩
  | .data => chunkData d input room
  | .crlf => let r := chunkCrlfLoop d input; ⟨r.1, [], r.2, false⟩
  | .trailer => let r := chunkTrailerLoop d input; ⟨r.1, [], r.2, false⟩
  | .done => ⟨d, [], input, false⟩

/-- The outer loop, of at most `fuel` turns. -/
def chunkLoop : ℕ → ChunkDecoder → Bytes → ℕ → ChunkOut
  | 0, d, input, _ => ⟨d, [], input, false⟩
  | fuel + 1, d, input, room =>
    if input = [] ∨ d.state = .done then ⟨d, [], input, false⟩
    else
      let t := chunkTurn d input room
      if t.full then t
      else
        let r := chunkLoop fuel t.decoder t.rest (room - t.out.length)
        { r with out := t.out ++ r.out }

/-- `OSTLS_HTTP_ChunkDecoderProcess`.  A turn that consumes nothing is followed by one that does,
so the turns suffice (`chunkDecoderProcess_stops`). -/
def chunkDecoderProcess (d : ChunkDecoder) (input : Bytes) (outCap : ℕ) : ChunkOut :=
  chunkLoop (2 * input.length + 1) d input outCap

end MacTLS
