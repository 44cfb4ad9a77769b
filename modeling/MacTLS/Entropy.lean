import MacTLS.Crypto
import MacTLS.Lib.Ratchet
import Mathlib.Data.Int.Notation

/-!
# The entropy pool

One SHA-256 context takes up every sample of the process, and seeds are extracted from it: for the
handshakes, for the seed file, for the self-test and for random bytes.

* `Entropy`, `EntropyCall` : the globals of the module and the calls of its interface;
* `entropyInv_run` : the pool is initialised once and is a hash ratchet from then on;
* `extractions_distinct` : no two extractions of a process have the same input.
-/

namespace MacTLS

open Lib

/-! ### The machine -/

structure Point where
  v : UInt16
  h : UInt16
  deriving DecidableEq

/-- What the machine answers at one moment: its clocks, the mouse, an address on the stack, and how
the File Manager treats the seed file. -/
structure Toolbox where
  ticks : UInt32
  usecHi : UInt32
  usecLo : UInt32
  mouse : Point
  stackaddr : UInt32
  /-- The path of the seed file resolves. -/
  seedSpec : Bool
  openErr : ℤ
  readErr : ℤ
  /-- The bytes that `FSRead` yields, of which it takes as many as it was asked for. -/
  readBytes : Bytes
  createErr : ℤ
  writeErr : ℤ

def eofErr : ℤ := -39

def ostlsSeedBytes : ℕ := 32

/-- The globals, with a log of what was done to the pool. -/
structure Entropy where
  /-- Everything that was fed to `g_pool`. -/
  pool : Bytes
  poolInit : Bool
  sampleCount : UInt32
  lastMouse : Point
  seedSaved : Bool
  /-- How often the machine was asked. -/
  asked : ℕ
  log : List (Ratchet.Event UInt8)
  /-- How often `g_pool` was initialised. -/
  inits : ℕ
  /-- The seeds that were written to the seed file. -/
  files : List Bytes

/-- The zeroed globals of a new process. -/
def Entropy.start : Entropy := ⟨[], false, 0, ⟨0, 0⟩, false, 0, [], 0, []⟩

section

variable (C : Crypto) (env : ℕ → Toolbox)

/-! ### The pool -/

/-- Ask the machine. -/
def Entropy.ask (s : Entropy) : Entropy := { s with asked := s.asked + 1 }

/-- Its next answer. -/
def Entropy.box (s : Entropy) : Toolbox := env s.asked

/-- `br_sha256_update` on the pool, by a sample. -/
def Entropy.stir (s : Entropy) (data : Bytes) : Entropy :=
  { s with pool := s.pool ++ data, log := s.log ++ [.stir data] }

mutual

def poolEnsureInit (s : Entropy) : Entropy :=
  if s.poolInit then s
  -- the flag is set before the seed is loaded, which comes back here
  else ostlsLoadSeed { s with pool := [], poolInit := true, inits := s.inits + 1 }
termination_by (if s.poolInit then 0 else 1, 0)
decreasing_by
  rename_i h
  simp [h, Prod.lex_def]

/-- Fold one source sample into the pool. -/
def poolUpdate (s : Entropy) (data : Bytes) : Entropy :=
  let s := poolEnsureInit s
  { s.stir data with sampleCount := s.sampleCount + 1 }
termination_by (if s.poolInit then 0 else 1, 1)

def ostlsLoadSeed (s : Entropy) : Entropy :=
  let box := s.box env
  if !box.seedSpec then s.ask
  else if box.openErr ≠ 0 then s.ask
  else
    let buf := box.readBytes.take ostlsSeedBytes
    if (box.readErr = 0 ∨ box.readErr = eofErr) ∧ buf.length > 0 then poolUpdate s.ask buf
    else s.ask
termination_by (if s.poolInit then 0 else 1, 2)

end

/-- Extract a 32-byte seed under a tag, and fold it back. -/
def poolExtract (s : Entropy) (tag : Bytes) : Entropy × Bytes :=
  let s := poolEnsureInit env s
  let input := s.pool ++ tag
  let out := C.hash .sha256 input
  ({ s with pool := s.pool ++ out, log := s.log ++ [.extract tag input out] }, out)

/-! ### Sources -/

def Entropy.usec (s : Entropy) : Bytes :=
  putU32 (s.box env).usecHi.toNat ++ putU32 (s.box env).usecLo.toNat

def Point.bytes (p : Point) : Bytes := putU16 p.v.toNat ++ putU16 p.h.toNat

/-- The mouse is folded in only when it moved. -/
def ostlsCollectEntropy (s : Entropy) : Entropy :=
  let box := s.box env
  let usec := s.usec env
  let s := poolUpdate env s.ask (putU32 box.ticks.toNat)
  let s := poolUpdate env s usec
  if box.mouse.h ≠ s.lastMouse.h ∨ box.mouse.v ≠ s.lastMouse.v then
    { poolUpdate env s box.mouse.bytes with lastMouse := box.mouse }
  else s

def ostlsStirTimer (s : Entropy) (hint : UInt32) : Entropy :=
  let box := s.box env
  let usec := s.usec env
  let s := poolUpdate env s.ask (putU32 box.ticks.toNat)
  let s := poolUpdate env s usec
  poolUpdate env s (putU32 hint.toNat)

/-- `data` is none for a NULL pointer, and else points to at least `len` bytes. -/
def ostlsStirEntropy (s : Entropy) (data : Option Bytes) (len : UInt32) : Entropy :=
  let s := match data with
    | some data => if len.toNat > 0 then poolUpdate env s (data.take len.toNat) else s
    | none => s
  ostlsStirTimer env s len

/-! ### Extractions -/

def seedTag : Bytes := [109, 97, 99, 83, 101, 101, 100, 0]

def testTag : Bytes := [109, 97, 99, 83, 116, 115, 116, 0]

def injectTag : Bytes := [109, 97, 99, 69, 120, 116, 114, 0]

def randTag : Bytes := [109, 97, 99, 69, 114, 110, 100, 0]

/-- Write a fresh seed to the seed file. -/
def ostlsSaveSeed (s : Entropy) : Entropy :=
  let box := s.box env
  if !box.seedSpec then s.ask
  else
    let (s, seed) := poolExtract C env s.ask seedTag
    if box.createErr ≠ 0 then s
    else if box.openErr ≠ 0 then s
    else if box.writeErr = 0 then { s with files := s.files ++ [seed] }
    else s

/-- The result, and the seed handed to the engine. -/
def ostlsInjectEntropy (s : Entropy) (hasEngine : Bool) : Entropy × ℤ × Option Bytes :=
  if !hasEngine then (s, -1, none)
  else
    let s := poolEnsureInit env s
    let box := s.box env
    let usec := s.usec env
    let s := poolUpdate env s.ask (putU32 box.stackaddr.toNat)
    let s := poolUpdate env s usec
    let s := poolUpdate env s (putU32 s.sampleCount.toNat)
    let (s, seed) := poolExtract C env s injectTag
    let s := if !s.seedSaved then { ostlsSaveSeed C env s with seedSaved := true } else s
    (s, 0, some seed)

/-- Extract `n` seeds under a tag. -/
def extractMany (tag : Bytes) (s : Entropy) : ℕ → Entropy × List Bytes
  | 0 => (s, [])
  | n + 1 =>
    let (s, seed) := poolExtract C env s tag
    let (s, seeds) := extractMany tag s n
    (s, seed :: seeds)

/-- How many seeds are equal to the one before. -/
def dups : List Bytes → ℕ
  | a :: b :: seeds => (if a = b then 1 else 0) + dups (b :: seeds)
  | _ => 0

/-- How many bytes have the value `v`. -/
def bucket (bytes : Bytes) (v : ℕ) : ℕ := bytes.count (UInt8.ofNat v)

def ones (bytes : Bytes) : ℕ :=
  bytes.foldl (fun n c => n + (List.range 8).countP fun b => c.toNat.testBit b) 0

/-- The checks on a batch of 64 seeds. -/
def selfTestPasses (seeds : List Bytes) : Bool :=
  let bytes := seeds.flatten
  let totalBits := seeds.length * ostlsSeedBytes * 8
  let half := totalBits / 2
  let tol := totalBits / 20
  dups seeds = 0 ∧ 250 ≤ (List.range 256).countP (fun v => bucket bytes v > 0) ∧
    (List.range 256).all (fun v => bucket bytes v ≤ 40) ∧
    half - tol ≤ ones bytes ∧ ones bytes ≤ half + tol

/-- The result and the fingerprint of the batch. -/
def ostlsEntropySelfTest (s : Entropy) : Entropy × ℤ × ℕ :=
  let s := poolEnsureInit env s
  let s := ostlsCollectEntropy env s
  let s := ostlsStirTimer env s 0x53454C46
  let (s, seeds) := extractMany C env testTag s 64
  (s, if selfTestPasses seeds then 0 else 1, getU32 (C.hash .sha256 seeds.flatten) 0)

/-- The loop of `OSTLS_RandomBytes`: the bytes that are written. -/
def randomBlocks (s : Entropy) (len : ℕ) : Entropy × Bytes :=
  if len > 0 then
    let (s, blk) := poolExtract C env s randTag
    let n := if len < ostlsSeedBytes then len else ostlsSeedBytes
    let (s, rest) := randomBlocks s (len - n)
    (s, blk.take n ++ rest)
  else (s, [])
termination_by len
decreasing_by
  clear n
  split
  · omega
  · exact Nat.sub_lt ‹_› (by decide)

def ostlsRandomBytes (s : Entropy) (hasOut : Bool) (len : UInt32) : Entropy × Bytes :=
  if !hasOut ∨ len.toNat = 0 then (s, [])
  else
    let s := poolEnsureInit env s
    let box := s.box env
    let usec := s.usec env
    let s := poolUpdate env s.ask (putU32 box.stackaddr.toNat)
    let s := poolUpdate env s usec
    randomBlocks C env s len.toNat

/-! ### Processes -/

/-- The calls of the interface. -/
inductive EntropyCall where
  | collectEntropy
  | stirTimer (hint : UInt32)
  | stirEntropy (data : Option Bytes) (len : UInt32)
  | loadSeed
  | saveSeed
  | injectEntropy (hasEngine : Bool)
  | selfTest
  | randomBytes (hasOut : Bool) (len : UInt32)

def EntropyCall.run (s : Entropy) : EntropyCall → Entropy
  | .collectEntropy => ostlsCollectEntropy env s
  | .stirTimer hint => ostlsStirTimer env s hint
  | .stirEntropy data len => ostlsStirEntropy env s data len
  | .loadSeed => ostlsLoadSeed env s
  | .saveSeed => ostlsSaveSeed C env s
  | .injectEntropy hasEngine => (ostlsInjectEntropy C env s hasEngine).1
  | .selfTest => (ostlsEntropySelfTest C env s).1
  | .randomBytes hasOut len => (ostlsRandomBytes C env s hasOut len).1

/-- The globals after a process has made these calls. -/
def entropyAfter (calls : List EntropyCall) : Entropy :=
  calls.foldl (EntropyCall.run C env) .start

/-! ### The pool is a ratchet -/

/-- What holds of the globals between calls: the pool is what its log says, and it was initialised
once if it was used. -/
structure EntropyInv (s : Entropy) : Prop where
  chain : Ratchet.Chain (C.hash .sha256) 8 s.pool s.log
  fresh : s.poolInit = false → s.log = [] ∧ s.inits = 0
  once : s.poolInit = true → s.inits = 1

theorem EntropyInv.start : EntropyInv C .start where
  chain := .start
  fresh _ := ⟨rfl, rfl⟩
  once h := by cases h

/-- The event is a stir. -/
def IsStir (e : Ratchet.Event UInt8) : Prop := ∃ data, e = .stir data

/-- Samples were folded into the pool on the way from `s` to `s'`, if anything was. -/
structure Mixed (s s' : Entropy) : Prop where
  inv : EntropyInv C s → EntropyInv C s'
  init : s.poolInit = true → s'.poolInit = true
  stirs : ∃ stirs, s'.log = s.log ++ stirs ∧ ∀ e ∈ stirs, IsStir e

variable {C env} {s s' s'' : Entropy}

theorem Mixed.trans (h : Mixed C s s') (h' : Mixed C s' s'') : Mixed C s s'' where
  inv hs := h'.inv (h.inv hs)
  init hinit := h'.init (h.init hinit)
  stirs := by
    obtain ⟨stirs, hlog, hall⟩ := h.stirs
    obtain ⟨stirs', hlog', hall'⟩ := h'.stirs
    refine ⟨stirs ++ stirs', by rw [hlog', hlog, List.append_assoc], fun e he => ?_⟩
    obtain he | he := List.mem_append.1 he
    · exact hall e he
    · exact hall' e he

/-- What the pool does not depend on may change. -/
theorem Mixed.congr (h : Mixed C s s') (hpool : s''.pool = s'.pool) (hlog : s''.log = s'.log)
    (hinit : s''.poolInit = s'.poolInit) (hinits : s''.inits = s'.inits) : Mixed C s s'' where
  inv hs := by
    have h' := h.inv hs
    exact ⟨hpool ▸ hlog ▸ h'.chain, hinit ▸ hlog ▸ hinits ▸ h'.fresh, hinit ▸ hinits ▸ h'.once⟩
  init hs := hinit.trans (h.init hs)
  stirs := hlog ▸ h.stirs

theorem Mixed.refl (s : Entropy) : Mixed C s s := ⟨id, id, [], by simp, by simp⟩

theorem mixed_ask (s : Entropy) : Mixed C s s.ask := (Mixed.refl s).congr rfl rfl rfl rfl

theorem mixed_stir (hinit : s.poolInit = true) (data : Bytes) : Mixed C s (s.stir data) where
  inv hs := ⟨hs.chain.stir data, fun h => absurd (hinit.symm.trans h) (by decide), hs.once⟩
  init := id
  stirs := ⟨[.stir data], rfl, fun e he => ⟨data, List.mem_singleton.1 he⟩⟩

theorem poolEnsureInit_of_init (hinit : s.poolInit = true) : poolEnsureInit env s = s := by
  rw [poolEnsureInit, if_pos hinit]

theorem poolUpdate_of_init (hinit : s.poolInit = true) (data : Bytes) :
    poolUpdate env s data = { s.stir data with sampleCount := s.sampleCount + 1 } := by
  rw [poolUpdate, poolEnsureInit_of_init hinit]

/-- With the flag set, loading the seed does not come back to the initialisation. -/
theorem mixed_loadSeed_of_init (hinit : s.poolInit = true) : Mixed C s (ostlsLoadSeed env s) := by
  rw [ostlsLoadSeed]
  dsimp only
  split_ifs
  · exact mixed_ask s
  · exact mixed_ask s
  · rw [poolUpdate_of_init (show s.ask.poolInit = true from hinit)]
    refine (mixed_ask s).trans ((mixed_stir ?_ _).congr rfl rfl rfl rfl)
    exact hinit
  · exact mixed_ask s

/-- The first use initialises the pool, once, and folds the seed file in. -/
theorem mixed_ensureInit (env : ℕ → Toolbox) (s : Entropy) :
    Mixed C s (poolEnsureInit env s) ∧ (poolEnsureInit env s).poolInit = true := by
  by_cases hinit : s.poolInit = true
  · rw [poolEnsureInit_of_init hinit]
    exact ⟨.refl s, hinit⟩
  · have hfirst : s.poolInit = false := by simpa using hinit
    rw [poolEnsureInit, if_neg hinit]
    have hload : Mixed C { s with pool := [], poolInit := true, inits := s.inits + 1 }
      (ostlsLoadSeed env { s with pool := [], poolInit := true, inits := s.inits + 1 }) :=
      mixed_loadSeed_of_init rfl
    refine ⟨Mixed.trans ⟨fun hs => ?_, fun _ => rfl, [], by simp, by simp⟩ hload, hload.init rfl⟩
    obtain ⟨hlog, hinits⟩ := hs.fresh hfirst
    refine ⟨?_, fun h => (by cases h), fun _ => by rw [hinits]⟩
    rw [hlog]
    exact .start

theorem mixed_poolUpdate (env : ℕ → Toolbox) (s : Entropy) (data : Bytes) :
    Mixed C s (poolUpdate env s data) ∧ (poolUpdate env s data).poolInit = true := by
  obtain ⟨hensure, hinit⟩ := mixed_ensureInit (C := C) env s
  rw [poolUpdate]
  exact ⟨hensure.trans ((mixed_stir hinit data).congr rfl rfl rfl rfl), hinit⟩

/-- A sample is logged when it is folded in. -/
theorem poolUpdate_log (s : Entropy) (data : Bytes) :
    ∃ loaded, (poolUpdate env s data).log = s.log ++ loaded ++ [.stir data] := by
  obtain ⟨loaded, hlog, -⟩ := (mixed_ensureInit (C := .transparent) env s).1.stirs
  refine ⟨loaded, ?_⟩
  rw [poolUpdate, ← hlog]
  rfl

/-! ### The calls that only stir -/

theorem mixed_loadSeed (s : Entropy) : Mixed C s (ostlsLoadSeed env s) := by
  rw [ostlsLoadSeed]
  dsimp only
  split_ifs
  · exact mixed_ask s
  · exact mixed_ask s
  · exact (mixed_ask s).trans (mixed_poolUpdate env _ _).1
  · exact mixed_ask s

theorem mixed_collectEntropy (s : Entropy) : Mixed C s (ostlsCollectEntropy env s) := by
  have htwo : ∀ a b, Mixed C s (poolUpdate env (poolUpdate env s.ask a) b) := fun a b =>
    ((mixed_ask s).trans (mixed_poolUpdate env _ a).1).trans (mixed_poolUpdate env _ b).1
  unfold ostlsCollectEntropy
  dsimp only
  split_ifs
  · exact ((htwo _ _).trans (mixed_poolUpdate env _ _).1).congr rfl rfl rfl rfl
  · exact htwo _ _

theorem mixed_stirTimer (s : Entropy) (hint : UInt32) : Mixed C s (ostlsStirTimer env s hint) :=
  (((mixed_ask s).trans (mixed_poolUpdate env _ _).1).trans (mixed_poolUpdate env _ _).1).trans
    (mixed_poolUpdate env _ _).1

theorem mixed_stirEntropy (s : Entropy) (data : Option Bytes) (len : UInt32) :
    Mixed C s (ostlsStirEntropy env s data len) := by
  unfold ostlsStirEntropy
  refine Mixed.trans ?_ (mixed_stirTimer _ len)
  cases data with
  | none => exact .refl s
  | some data =>
    dsimp only
    split_ifs
    · exact (mixed_poolUpdate env s _).1
    · exact .refl s

/-! ### The calls that extract -/

/-- An extraction under a tag of eight bytes from an initialised pool. -/
theorem EntropyInv.poolExtract (h : EntropyInv C s) {tag : Bytes} (htag : tag.length = 8) :
    EntropyInv C (poolExtract C env s tag).1 := by
  obtain ⟨hensure, hinit⟩ := mixed_ensureInit (C := C) env s
  have hinv := hensure.inv h
  unfold MacTLS.poolExtract
  exact ⟨hinv.chain.extract htag, fun h => absurd (hinit.symm.trans h) (by decide), hinv.once⟩

theorem EntropyInv.saveSeed (h : EntropyInv C s) : EntropyInv C (ostlsSaveSeed C env s) := by
  have hextract : EntropyInv C (MacTLS.poolExtract C env s.ask seedTag).1 :=
    ((mixed_ask s).inv h).poolExtract rfl
  unfold ostlsSaveSeed
  dsimp only
  split_ifs
  · exact (mixed_ask s).inv h
  · exact hextract
  · exact hextract
  · exact ⟨hextract.chain, hextract.fresh, hextract.once⟩
  · exact hextract

/-- The persisted seed is rolled once per process. -/
theorem EntropyInv.rollSeed (h : EntropyInv C s) : EntropyInv C
    (if !s.seedSaved then { ostlsSaveSeed C env s with seedSaved := true } else s) := by
  split_ifs
  · have hsaved : EntropyInv C (ostlsSaveSeed C env s) := h.saveSeed
    exact ⟨hsaved.chain, hsaved.fresh, hsaved.once⟩
  · exact h

/-- The noise that is folded in just before an extraction. -/
theorem mixed_noise (env : ℕ → Toolbox) (s : Entropy) (a b : Bytes) :
    Mixed C s (poolUpdate env (poolUpdate env (poolEnsureInit env s).ask a) b) :=
  (((mixed_ensureInit env s).1.trans (mixed_ask _)).trans (mixed_poolUpdate env _ a).1).trans
    (mixed_poolUpdate env _ b).1

theorem EntropyInv.injectEntropy (h : EntropyInv C s) (hasEngine : Bool) :
    EntropyInv C (ostlsInjectEntropy C env s hasEngine).1 := by
  unfold ostlsInjectEntropy
  split_ifs
  · exact h
  · have hnoise := fun a b c =>
      ((mixed_noise env s a b).trans (mixed_poolUpdate env _ c).1).inv h
    exact ((hnoise _ _ _).poolExtract (show injectTag.length = 8 from rfl)).rollSeed

theorem EntropyInv.extractMany (h : EntropyInv C s) {tag : Bytes} (htag : tag.length = 8) (n : ℕ) :
    EntropyInv C (extractMany C env tag s n).1 := by
  induction n generalizing s with
  | zero => exact h
  | succ n ih => exact ih (h.poolExtract htag)

theorem EntropyInv.selfTest (h : EntropyInv C s) :
    EntropyInv C (ostlsEntropySelfTest C env s).1 :=
  ((((mixed_ensureInit env s).1.trans (mixed_collectEntropy _)).trans (mixed_stirTimer _ _)).inv
    h).extractMany rfl 64

/-- What the loop writes: the seeds it extracts, cut to the length. -/
theorem randomBlocks_spec (hinit : s.poolInit = true) (len : ℕ) :
    let r := randomBlocks C env s len
    (EntropyInv C s → EntropyInv C r.1) ∧
      ∃ extracted, r.1.log = s.log ++ extracted ∧
        (∀ e ∈ extracted, ∃ input out, e = .extract randTag input out) ∧
        r.2 = (Ratchet.outputs extracted).flatten.take len ∧ r.2.length = len := by
  induction len using Nat.strongRecOn generalizing s with
  | ind len ih =>
    rw [randomBlocks]
    by_cases hpos : len > 0
    · rw [if_pos hpos]
      have hinv : EntropyInv C s → EntropyInv C (MacTLS.poolExtract C env s randTag).1 :=
        fun h => h.poolExtract rfl
      have hblock : MacTLS.poolExtract C env s randTag =
          ({ s with
              pool := s.pool ++ C.hash .sha256 (s.pool ++ randTag)
              log := s.log ++
                [.extract randTag (s.pool ++ randTag) (C.hash .sha256 (s.pool ++ randTag))] },
            C.hash .sha256 (s.pool ++ randTag)) := by
        rw [MacTLS.poolExtract, poolEnsureInit_of_init hinit]
      have hlen : (C.hash .sha256 (s.pool ++ randTag)).length = 32 := C.hash_length ..
      rw [hblock] at hinv ⊢
      dsimp only at hinv ⊢
      generalize C.hash .sha256 (s.pool ++ randTag) = blk at hlen hinv ⊢
      have hsize : ostlsSeedBytes = 32 := rfl
      obtain ⟨hrest, extracted, hlog, hall, hbytes, hcount⟩ := ih
        (len - if len < ostlsSeedBytes then len else ostlsSeedBytes) (by split_ifs <;> omega)
        (s := ⟨s.pool ++ blk, s.poolInit, s.sampleCount, s.lastMouse, s.seedSaved, s.asked,
          s.log ++ [.extract randTag (s.pool ++ randTag) blk], s.inits, s.files⟩) hinit
      refine ⟨fun h => hrest (hinv h), .extract randTag (s.pool ++ randTag) blk :: extracted,
        ?_, ?_, ?_, ?_⟩
      · rw [hlog, List.append_assoc, List.singleton_append]
      · intro e he
        obtain rfl | he := List.mem_cons.1 he
        · exact ⟨_, _, rfl⟩
        · exact hall e he
      · rw [hbytes, ← List.singleton_append (l := extracted), Ratchet.outputs_append,
          Ratchet.outputs_extract, List.flatten_append, List.flatten_singleton, List.take_append,
          hlen]
        split_ifs with hlast
        · rw [Nat.sub_self, Nat.sub_eq_zero_of_le (by omega)]
        · rw [List.take_of_length_le (i := len) (by omega), hsize, ← hlen, List.take_length]
      · rw [List.length_append, hcount, List.length_take, hlen]
        split_ifs <;> omega
    · obtain rfl : len = 0 := by omega
      rw [if_neg hpos]
      exact ⟨id, [], by simp, by simp, rfl, rfl⟩

theorem EntropyInv.randomBytes (h : EntropyInv C s) (hasOut : Bool) (len : UInt32) :
    EntropyInv C (ostlsRandomBytes C env s hasOut len).1 := by
  unfold ostlsRandomBytes
  split_ifs
  · exact h
  · exact (randomBlocks_spec (mixed_poolUpdate (C := C) env _ _).2 len.toNat).1
      ((mixed_noise env s _ _).inv h)

/-! ### Whole processes -/

/-- One call keeps the pool a ratchet. -/
theorem entropyInv_run (h : EntropyInv C s) (call : EntropyCall) :
    EntropyInv C (call.run C env s) := by
  cases call with
  | collectEntropy => exact (mixed_collectEntropy s).inv h
  | stirTimer hint => exact (mixed_stirTimer s hint).inv h
  | stirEntropy data len => exact (mixed_stirEntropy s data len).inv h
  | loadSeed => exact (mixed_loadSeed s).inv h
  | saveSeed => exact h.saveSeed
  | injectEntropy hasEngine => exact h.injectEntropy hasEngine
  | selfTest => exact h.selfTest
  | randomBytes hasOut len => exact h.randomBytes hasOut len

theorem entropyInv_after (C : Crypto) (env : ℕ → Toolbox) (calls : List EntropyCall) :
    EntropyInv C (entropyAfter C env calls) := by
  have hfold : ∀ s, EntropyInv C s → EntropyInv C (calls.foldl (EntropyCall.run C env) s) := by
    induction calls with
    | nil => exact fun _ h => h
    | cons call calls ih => exact fun s h => ih _ (entropyInv_run h call)
  exact hfold .start (.start C)

/-- What a process may rely on: from its extractions so far, and from the calls it makes next. -/
structure Unpredictable (C : Crypto) (env : ℕ → Toolbox) (s : Entropy) : Prop where
  /-- No two extractions have the same input, whatever their tags. -/
  distinct : (Ratchet.inputs s.log).Nodup
  /-- A hash that tells these inputs apart yields no seed twice. -/
  unrepeated : (∀ x ∈ Ratchet.inputs s.log, ∀ y ∈ Ratchet.inputs s.log,
    C.hash .sha256 x = C.hash .sha256 y → x = y) → (Ratchet.outputs s.log).Nodup
  /-- The input of an extraction is everything fed before it, with its tag behind. -/
  stirred : ∀ before tag input out after, s.log = before ++ .extract tag input out :: after →
    input = Ratchet.fed before ++ tag ∧ out = C.hash .sha256 input ∧
      ∀ data, .stir data ∈ before → data <:+: input
  /-- A sample is in the log once it is folded in. -/
  sampled : ∀ data, ∃ loaded, (poolUpdate env s data).log = s.log ++ loaded ++ [.stir data]
  /-- So is a seed once it is extracted. -/
  extracted : ∀ tag, ∃ loaded input, (poolExtract C env s tag).1.log =
    s.log ++ loaded ++ [.extract tag input (poolExtract C env s tag).2]
  /-- The initialisation comes to its end, and it has then happened once. -/
  initOnce : s.inits ≤ 1 ∧ (poolEnsureInit env s).poolInit = true ∧
    (poolEnsureInit env s).inits = 1
  /-- Random bytes are successive extractions, cut to the length that was asked for. -/
  random : ∀ len : UInt32, ∃ stirs extracted,
    (ostlsRandomBytes C env s true len).1.log = s.log ++ stirs ++ extracted ∧
    (∀ e ∈ stirs, IsStir e) ∧ (∀ e ∈ extracted, ∃ input out, e = .extract randTag input out) ∧
    (ostlsRandomBytes C env s true len).2 = (Ratchet.outputs extracted).flatten.take len.toNat ∧
    (ostlsRandomBytes C env s true len).2.length = len.toNat

/-- **No extraction repeats an input.**  Whatever calls a process makes in whatever order, and
whatever its clocks, mouse and seed file say. -/
theorem extractions_distinct (C : Crypto) (env : ℕ → Toolbox) (calls : List EntropyCall) :
    Unpredictable C env (entropyAfter C env calls) := by
  have hinv := entropyInv_after C env calls
  generalize entropyAfter C env calls = s at hinv
  have hlen : ∀ m, 0 < (C.hash .sha256 m).length := fun m => by
    rw [C.hash_length]
    decide
  obtain ⟨hensure, hinit⟩ := mixed_ensureInit (C := C) env s
  refine ⟨hinv.chain.inputs_nodup hlen, hinv.chain.outputs_nodup hlen, ?_, poolUpdate_log s, ?_,
    ⟨?_, hinit, (hensure.inv hinv).once hinit⟩, fun len => ?_⟩
  · intro before tag input out after hlog
    obtain ⟨hin, hout⟩ := hinv.chain.input_eq hlog
    refine ⟨hin, hout, fun data hdata => ?_⟩
    obtain ⟨a, b, rfl⟩ := List.append_of_mem hdata
    refine ⟨Ratchet.fed a, Ratchet.fed b ++ tag, ?_⟩
    rw [hin, Ratchet.fed_append, ← List.singleton_append, Ratchet.fed_append]
    simp [Ratchet.fed, Ratchet.Event.fed]
  · intro tag
    obtain ⟨loaded, hlog, -⟩ := hensure.stirs
    exact ⟨loaded, _, by rw [← hlog]; rfl⟩
  · cases hused : s.poolInit with
    | false => rw [(hinv.fresh hused).2]; decide
    | true => exact Nat.le_of_eq (hinv.once hused)
  · unfold ostlsRandomBytes
    by_cases hzero : len.toNat = 0
    · rw [if_pos (.inr hzero), hzero]
      exact ⟨[], [], by simp, by simp, by simp, rfl, rfl⟩
    · rw [if_neg (by simp [hzero])]
      dsimp only
      obtain ⟨stirs, hlog, hstirs⟩ := (mixed_noise (C := C) env s _ _).stirs
      obtain ⟨-, extracted, hlog', hall, hbytes⟩ :=
        randomBlocks_spec (C := C) (mixed_poolUpdate (C := C) env _ _).2 len.toNat
      exact ⟨stirs, extracted, by rw [hlog', hlog], hstirs, hall, hbytes⟩

end

end MacTLS
