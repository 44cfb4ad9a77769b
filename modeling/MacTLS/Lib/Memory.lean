import Mathlib.Data.List.Basic
import Mathlib.Data.UInt
import Mathlib.Data.List.GetD

/-!
# Memory around a buffer

Memory as bytes addressed from the start of a buffer, with nothing at the end of the buffer to stop
a write.  A transformer of memory respects the capacity of the buffer when it leaves alone what lies
at or behind it.

* `Memory.write`, `Memory.read`, `Memory.strlen` : what C does to memory;
* `Memory.SameOutside` : nothing is changed but a window;
* `KeepsFrom` : nothing from an address on is changed;
* `keepsFrom_write` : a write keeps to the capacity exactly when it fits.
-/

namespace Lib

/-- Memory, from the start of a buffer on. -/
abbrev Memory := ℕ → UInt8

namespace Memory

variable {m : Memory} {b : List UInt8} {off cap i n : ℕ}

/-- Store the bytes `b` from `off` on. -/
def write (m : Memory) (off : ℕ) (b : List UInt8) : Memory := fun i =>
  if off ≤ i then b.getD (i - off) (m i) else m i

/-- The `n` bytes from `off` on. -/
def read (m : Memory) (off n : ℕ) : List UInt8 := (List.range n).map fun i => m (off + i)

/-- The length of the string that starts the buffer and ends within `cap` bytes. -/
def strlen (m : Memory) (cap : ℕ) : ℕ := (List.range cap).findIdx fun i => m i = 0

theorem write_before (h : i < off) : m.write off b i = m i := if_neg (Nat.not_le.2 h)

theorem write_behind (h : off + b.length ≤ i) : m.write off b i = m i := by
  rw [write, List.getD_eq_default _ _ (by omega), ite_self]

theorem write_at (h : i < b.length) : m.write off b (off + i) = b[i] := by
  rw [write, if_pos (Nat.le_add_right _ _), Nat.add_sub_cancel_left,
    List.getD_eq_getElem _ _ h]

@[simp] theorem length_read (m : Memory) (off n : ℕ) : (m.read off n).length = n := by
  simp [read]

@[simp] theorem read_zero (m : Memory) (off : ℕ) : m.read off 0 = [] := rfl

/-- A read in two parts. -/
theorem read_add (m : Memory) (off k n : ℕ) :
    m.read off (k + n) = m.read off k ++ m.read (off + k) n := by
  simp only [read, List.range_add, List.map_append, List.map_map, Function.comp_def, Nat.add_assoc]

/-- Reading depends on the bytes at the addresses only. -/
theorem read_congr {m' : Memory} (h : ∀ i < n, m (off + i) = m' (off + i)) :
    m.read off n = m'.read off n :=
  List.map_congr_left fun i hi => h i (List.mem_range.1 hi)

/-- A write behind what is read. -/
theorem read_write_before {off' : ℕ} (h : off + n ≤ off') :
    (m.write off' b).read off n = m.read off n :=
  read_congr fun _ hi => write_before (by omega)

/-- A write before what is read. -/
theorem read_write_behind {off' : ℕ} (h : off' + b.length ≤ off) :
    (m.write off' b).read off n = m.read off n :=
  read_congr fun _ _ => write_behind (by omega)

/-- What a read sees of the bytes at its addresses. -/
theorem read_eq {b : List UInt8} (h : ∀ i (hi : i < b.length), m (off + i) = b[i]) :
    m.read off b.length = b := by
  refine List.ext_getElem (by simp [read]) fun i hi hi' => ?_
  simp [read, h i hi']

/-- What was written is read back. -/
@[simp] theorem read_write_self (m : Memory) (off : ℕ) (b : List UInt8) :
    (m.write off b).read off b.length = b := read_eq fun _ hi => write_at hi

/-- A part of what is read. -/
theorem take_drop_read {off' k : ℕ} (h : off' + n ≤ k) :
    ((m.read off k).drop off').take n = m.read (off + off') n := by
  obtain ⟨r, rfl⟩ := Nat.exists_eq_add_of_le h
  rw [Nat.add_assoc, read_add, read_add, List.drop_left' (length_read _ _ _),
    List.take_left' (length_read _ _ _)]

/-- Nothing but the `len` bytes from `off` on is changed. -/
def SameOutside (off len : ℕ) (m m' : Memory) : Prop := ∀ i, i < off ∨ off + len ≤ i → m' i = m i

theorem SameOutside.refl {len : ℕ} : SameOutside off len m m := fun _ _ => rfl

theorem SameOutside.trans {len : ℕ} {m' m'' : Memory} (h : SameOutside off len m m')
    (h' : SameOutside off len m' m'') : SameOutside off len m m'' :=
  fun i hi => (h' i hi).trans (h i hi)

theorem SameOutside.mono {len off' len' : ℕ} {m' : Memory} (h : SameOutside off len m m')
    (hlo : off' ≤ off) (hhi : off + len ≤ off' + len') : SameOutside off' len' m m' :=
  fun i hi => h i (by omega)

theorem sameOutside_write {len off' : ℕ} (hlo : off ≤ off') (hhi : off' + b.length ≤ off + len) :
    SameOutside off len m (m.write off' b) := fun _ hi =>
  hi.elim (fun h => write_before (by omega)) fun h => write_behind (by omega)

/-- A string is as long as the bytes before its first zero. -/
theorem strlen_eq (hcap : n < cap) (hzero : m n = 0) (h : ∀ i < n, m i ≠ 0) :
    m.strlen cap = n := by
  refine (List.findIdx_eq (by simpa using hcap)).2 ⟨by simpa using hzero, fun i hi => ?_⟩
  simpa using h i hi

end Memory

variable {m : Memory} {b : List UInt8} {cap : ℕ} {f g : Memory → Memory}

/-- Nothing at or behind `cap` is changed. -/
def KeepsFrom (cap : ℕ) (f : Memory → Memory) : Prop := ∀ m i, cap ≤ i → f m i = m i

/-- A write from the start of the buffer keeps to the capacity exactly when it fits. -/
theorem keepsFrom_write : KeepsFrom cap (·.write 0 b) ↔ b.length ≤ cap := by
  refine ⟨fun h => ?_, fun h m i hi => Memory.write_behind (by omega)⟩
  by_contra hlt
  -- memory that differs from the byte written at the capacity
  have hkeep := h (fun _ => b[cap] + 1) cap (Nat.le_refl cap)
  have hat : Memory.write (fun _ => b[cap] + 1) 0 b (0 + cap) = b[cap] :=
    Memory.write_at (Nat.not_le.1 hlt)
  rw [Nat.zero_add] at hat
  exact absurd (hat.symm.trans hkeep) (by simp)

/-- What is done inside the buffer afterwards does not matter. -/
theorem keepsFrom_then (hg : KeepsFrom cap g) :
    KeepsFrom cap (fun m => g (f m)) ↔ KeepsFrom cap f :=
  forall_congr' fun m => forall_congr' fun i => imp_congr_right fun hi => by
    dsimp only
    rw [hg (f m) i hi]

theorem keepsFrom_store {j : ℕ} (h : j < cap) (v : UInt8) : KeepsFrom cap (·.write j [v]) :=
  fun _ _ hi => Memory.write_behind (by simp only [List.length_singleton]; omega)

end Lib
