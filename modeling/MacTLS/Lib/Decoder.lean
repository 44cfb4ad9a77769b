import Mathlib.Data.List.Basic
import Mathlib.Tactic.Ring

/-!
# Decoders

A decoder takes a value off the front of a stream.  It carries the proof that it only looks at
what it takes, so what stands behind that does not matter, and every decoder built from the
combinators has this property.

* `Decoder.Takes` : what a value may look like at the front of a stream;
* `Decoder.exists_takes` : what was taken is such a front;
* `Takes.bind`, `takes_vector`, `takes_listOf` : the combinators on encodings;
* `Takes.unique` : a stream starts with one encoding of one value only.
-/

namespace Lib

universe u v

/-- A decoder of `α` over streams of `τ`. -/
structure Decoder (τ : Type u) (α : Type v) where
  read : List τ → Option (α × List τ)
  /-- It only looks at what it takes. -/
  front : ∀ {b : List τ} {a : α} {rest : List τ}, read b = some (a, rest) →
    ∃ enc, b = enc ++ rest ∧ ∀ rest', read (enc ++ rest') = some (a, rest')

namespace Decoder

variable {τ : Type u} {α β γ : Type v}

/-- At the front of any stream, `d` takes `enc` for `a`. -/
def Takes (d : Decoder τ α) (enc : List τ) (a : α) : Prop :=
  ∀ rest, d.read (enc ++ rest) = some (a, rest)

theorem exists_takes {d : Decoder τ α} {b rest : List τ} {a : α}
    (h : d.read b = some (a, rest)) : ∃ enc, b = enc ++ rest ∧ d.Takes enc a :=
  d.front h

/-- A stream starts with one encoding of one value only. -/
theorem Takes.unique {d : Decoder τ α} {enc enc' rest rest' : List τ} {a a' : α}
    (h : d.Takes enc a) (h' : d.Takes enc' a') (heq : enc ++ rest = enc' ++ rest') :
    a = a' ∧ enc = enc' ∧ rest = rest' := by
  have hread := (h rest).symm.trans ((congrArg d.read heq).trans (h' rest'))
  obtain ⟨rfl, rfl⟩ : a = a' ∧ rest = rest' := by simpa using hread
  exact ⟨rfl, List.append_cancel_right heq, rfl⟩

/-! ### Combinators -/

/-- Take nothing. -/
def value (a : α) : Decoder τ α where
  read b := some (a, b)
  front := by
    rintro b a' rest ⟨⟩
    exact ⟨[], rfl, fun _ => rfl⟩

/-- Take a value, and then what depends on it. -/
def andThen (d : Decoder τ α) (f : α → Decoder τ β) : Decoder τ β where
  read b := (d.read b).bind fun r => (f r.1).read r.2
  front := by
    intro b c rest h
    obtain ⟨⟨a, mid⟩, hd, hf⟩ := Option.bind_eq_some_iff.1 h
    obtain ⟨enc, rfl, henc⟩ := d.front hd
    obtain ⟨enc', rfl, henc'⟩ := (f a).front hf
    refine ⟨enc ++ enc', (List.append_assoc ..).symm, fun rest' => ?_⟩
    rw [List.append_assoc, henc]
    exact henc' rest'

instance : Monad (Decoder τ) where
  pure := value
  bind := andThen

/-- What was computed, if anything. -/
def ofOption : Option α → Decoder τ α
  | some a => value a
  | none => ⟨fun _ => none, fun h => by cases h⟩

/-- Go on only if `p` holds. -/
def require (p : Prop) [Decidable p] : Decoder τ PUnit.{v + 1} :=
  ofOption (if p then some ⟨⟩ else none)

/-- Take `n` elements. -/
def take (n : ℕ) : Decoder τ (List τ) where
  read b := if n ≤ b.length then some (b.take n, b.drop n) else none
  front := by
    intro b a rest h
    split_ifs at h with hn
    cases h
    refine ⟨b.take n, (List.take_append_drop n b).symm, fun rest' => ?_⟩
    have hlen : (b.take n).length = n := List.length_take_of_le hn
    rw [if_pos (by rw [List.length_append, hlen]; exact Nat.le_add_right n _),
      List.take_left' hlen, List.drop_left' hlen]

/-- The value of a stream that holds it and nothing else. -/
def whole (d : Decoder τ α) (b : List τ) : Option α :=
  (d.read b).bind fun r => if r.2.isEmpty then some r.1 else none

/-- At most `fuel` values, as many as there are. -/
def many (d : Decoder τ α) : ℕ → List τ → Option (List α)
  | _, [] => some []
  | 0, _ :: _ => none
  | fuel + 1, b => (d.read b).bind fun r => (many d fuel r.2).map (r.1 :: ·)

/-- The values of a stream that holds values and nothing else.  No value takes nothing. -/
def all (d : Decoder τ α) (b : List τ) : Option (List α) := d.many b.length b

/-! ### On encodings -/

section

variable {d : Decoder τ α} {enc enc' : List τ} {a : α} {b : β}

theorem takes_pure (a : α) : (pure a : Decoder τ α).Takes [] a := fun _ => rfl

theorem takes_ofOption {o : Option α} (h : o = some a) : (ofOption o : Decoder τ α).Takes [] a := by
  subst h
  exact fun _ => rfl

theorem takes_require {p : Prop} [Decidable p] (h : p) :
    (require p : Decoder τ PUnit.{v + 1}).Takes [] ⟨⟩ := takes_ofOption (if_pos h)

theorem takes_take (l : List τ) : (take l.length).Takes l l := by
  intro rest
  have hle : l.length ≤ (l ++ rest).length := by
    rw [List.length_append]
    exact Nat.le_add_right _ _
  have hread : (take l.length).read (l ++ rest) = _ := if_pos hle
  rw [hread, List.take_left, List.drop_left]

theorem Takes.bind {f : α → Decoder τ β} (h : d.Takes enc a) (h' : (f a).Takes enc' b) :
    (d >>= f).Takes (enc ++ enc') b := by
  intro rest
  have hread : (d >>= f).read (enc ++ enc' ++ rest) =
      (d.read (enc ++ enc' ++ rest)).bind fun r => (f r.1).read r.2 := rfl
  rw [hread, List.append_assoc, h]
  exact h' rest

/-- What takes nothing before the rest. -/
theorem Takes.bind_nil {f : α → Decoder τ β} (h : d.Takes [] a) (h' : (f a).Takes enc' b) :
    (d >>= f).Takes enc' b := h.bind h'

/-- A value at the end. -/
theorem Takes.map {f : α → β} (h : d.Takes enc a) : (d >>= fun a => pure (f a)).Takes enc (f a) := by
  have := h.bind (f := fun a => pure (f a)) (takes_pure (f a))
  rwa [List.append_nil] at this

theorem Takes.whole (h : d.Takes enc a) : d.whole enc = some a := by
  have := h []
  rw [List.append_nil] at this
  rw [Decoder.whole, this]
  rfl

/-- A stream of encodings of `as`, none of which is empty. -/
inductive TakesAll (d : Decoder τ α) : List τ → List α → Prop
  | nil : TakesAll d [] []
  | cons {enc b : List τ} {a : α} {as : List α} (h : d.Takes enc a) (hne : enc ≠ [])
      (htail : TakesAll d b as) : TakesAll d (enc ++ b) (a :: as)

theorem TakesAll.single (h : d.Takes enc a) (hne : enc ≠ []) : d.TakesAll enc [a] := by
  have := TakesAll.cons h hne .nil
  rwa [List.append_nil] at this

theorem TakesAll.append {b b' : List τ} {as as' : List α} (h : d.TakesAll b as)
    (h' : d.TakesAll b' as') : d.TakesAll (b ++ b') (as ++ as') := by
  induction h with
  | nil => exact h'
  | cons henc hne _ ih =>
    rw [List.append_assoc]
    exact .cons henc hne ih

theorem TakesAll.many {b : List τ} {as : List α} (h : d.TakesAll b as) {fuel : ℕ}
    (hfuel : b.length ≤ fuel) : d.many fuel b = some as := by
  induction h generalizing fuel with
  | nil => cases fuel <;> rfl
  | @cons e b a as he hne _ ih =>
    obtain ⟨x, e', rfl⟩ := List.exists_cons_of_ne_nil hne
    rw [List.length_append, List.length_cons] at hfuel
    obtain ⟨fuel, rfl⟩ : ∃ n, fuel = n + 1 := ⟨fuel - 1, by omega⟩
    have hread : d.many (fuel + 1) ((x :: e') ++ b) =
        (d.read ((x :: e') ++ b)).bind fun r => (d.many fuel r.2).map (r.1 :: ·) := rfl
    rw [hread, he, Option.bind_some, ih (by omega)]
    rfl

/-- Values one after the other. -/
theorem TakesAll.all {b : List τ} {as : List α} (h : d.TakesAll b as) : d.all b = some as :=
  h.many (Nat.le_refl _)

end

/-! ### Big-endian numbers and vectors -/

/-- The number that bytes denote, the most significant byte first. -/
def bigEndian (b : List UInt8) : ℕ := b.foldl (fun v x => v * 256 + x.toNat) 0

theorem bigEndian_append (a b : List UInt8) :
    bigEndian (a ++ b) = bigEndian a * 256 ^ b.length + bigEndian b := by
  have hfold : ∀ (b : List UInt8) (v : ℕ), b.foldl (fun v x => v * 256 + x.toNat) v =
      v * 256 ^ b.length + b.foldl (fun v x => v * 256 + x.toNat) 0 := by
    intro b
    induction b with
    | nil => simp
    | cons x b ih =>
      intro v
      rw [List.foldl_cons, List.foldl_cons, ih, ih (0 * 256 + x.toNat), List.length_cons]
      ring
  rw [bigEndian, List.foldl_append, hfold]
  rfl

/-- A number of `n` bytes. -/
def number (n : ℕ) : Decoder UInt8 ℕ := take n >>= fun b => pure (bigEndian b)

/-- A vector of `lo` to `hi` bytes behind its length, which takes `n` bytes. -/
def vector (n lo hi : ℕ) : Decoder UInt8 (List UInt8) :=
  number n >>= fun len => require (lo ≤ len ∧ len ≤ hi) >>= fun _ => take len

/-- Values of `d`, `lo` to `hi` bytes of them, behind their length, which takes `n` bytes. -/
def listOf {α : Type} (n lo hi : ℕ) (d : Decoder UInt8 α) : Decoder UInt8 (List α) :=
  vector n lo hi >>= fun b => ofOption (d.all b)

/-- One value of `d`, which takes all of a vector. -/
def inside {α : Type} (n lo hi : ℕ) (d : Decoder UInt8 α) : Decoder UInt8 α :=
  vector n lo hi >>= fun b => ofOption (d.whole b)

theorem read_take (n : ℕ) (b : List τ) :
    (take n).read b = if n ≤ b.length then some (b.take n, b.drop n) else none := rfl

theorem read_andThen {d : Decoder τ α} {f : α → Decoder τ β} (b : List τ) :
    (d >>= f).read b = (d.read b).bind fun r => (f r.1).read r.2 := rfl

theorem read_number (n : ℕ) (b : List UInt8) : (number n).read b =
    if n ≤ b.length then some (bigEndian (b.take n), b.drop n) else none := by
  rw [number, read_andThen, read_take]
  split_ifs <;> rfl

theorem read_vector (n lo hi : ℕ) (b : List UInt8) : (vector n lo hi).read b =
    if n ≤ b.length ∧ (lo ≤ bigEndian (b.take n) ∧ bigEndian (b.take n) ≤ hi) ∧
        n + bigEndian (b.take n) ≤ b.length then
      some ((b.drop n).take (bigEndian (b.take n)), b.drop (n + bigEndian (b.take n)))
    else none := by
  rw [vector, read_andThen, read_number]
  generalize bigEndian (b.take n) = len
  by_cases hn : n ≤ b.length
  · rw [if_pos hn, Option.bind_some, read_andThen, require]
    by_cases hlen : lo ≤ len ∧ len ≤ hi
    · have hread : ((ofOption (some PUnit.unit) : Decoder UInt8 PUnit).read (b.drop n)) =
        some (PUnit.unit, b.drop n) := rfl
      rw [if_pos hlen, hread, Option.bind_some, read_take]
      dsimp only
      rw [List.length_drop, List.drop_drop]
      by_cases hroom : n + len ≤ b.length
      · rw [if_pos (by omega), if_pos ⟨hn, hlen, hroom⟩]
      · rw [if_neg (by omega), if_neg (fun h => hroom h.2.2)]
    · rw [if_neg hlen, if_neg (fun h => hlen h.2.1)]
      rfl
  · rw [if_neg hn, if_neg (fun h => hn h.1)]
    rfl

theorem takes_number {n : ℕ} {enc : List UInt8} (h : enc.length = n) :
    (number n).Takes enc (bigEndian enc) := by
  subst h
  exact (takes_take enc).map

theorem takes_vector {n lo hi : ℕ} {len v : List UInt8} (hn : len.length = n)
    (hlen : bigEndian len = v.length) (hlo : lo ≤ v.length) (hhi : v.length ≤ hi) :
    (vector n lo hi).Takes (len ++ v) v := by
  have hnumber := takes_number hn
  rw [hlen] at hnumber
  exact hnumber.bind ((takes_require ⟨hlo, hhi⟩).bind_nil (takes_take v))

theorem takes_listOf {α : Type} {d : Decoder UInt8 α} (n lo hi : ℕ) {len b : List UInt8}
    {as : List α} (h : d.TakesAll b as) (hn : len.length = n) (hlen : bigEndian len = b.length)
    (hlo : lo ≤ b.length) (hhi : b.length ≤ hi) : (listOf n lo hi d).Takes (len ++ b) as := by
  have := (takes_vector hn hlen hlo hhi).bind (f := fun b => ofOption (d.all b))
    (takes_ofOption h.all)
  rwa [List.append_nil] at this

theorem takes_inside {α : Type} {d : Decoder UInt8 α} (n lo hi : ℕ) {len b : List UInt8} {a : α}
    (h : d.Takes b a) (hn : len.length = n) (hlen : bigEndian len = b.length)
    (hlo : lo ≤ b.length) (hhi : b.length ≤ hi) : (inside n lo hi d).Takes (len ++ b) a := by
  have := (takes_vector hn hlen hlo hhi).bind (f := fun b => ofOption (d.whole b))
    (takes_ofOption h.whole)
  rwa [List.append_nil] at this

end Decoder

end Lib
