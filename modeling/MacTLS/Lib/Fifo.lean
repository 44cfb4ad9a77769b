import MacTLS.Lib.Buffer

/-!
# Byte queues in fixed arrays

Two queues over an array of fixed size, with the bounds on their counters as fields, so that
every value is a state the program can be in.

* `Ring` : a ring buffer.  `push` fills the free cells up to the end of the array or the oldest
  element, `pop` may wrap around;
* `Queue` : a queue that stays linear.  `append` first moves its elements to the front,
  `advance` drops elements from the front;
* `toList_push`, `pop_fst`, `toList_pop`, `toList_append`, `toList_advance` : both are first in,
  first out.
-/

namespace Lib

variable {α : Type*} {size : ℕ}

/-- The cells of a buffer after a copy into it. -/
theorem getElem?_blit {b src : List α} {off : ℕ} (h : off + src.length ≤ b.length) (i : ℕ) :
    (blit b off src)[i]? = if off ≤ i ∧ i < off + src.length then src[i - off]? else b[i]? := by
  have htake : (b.take off).length = off := by rw [List.length_take]; omega
  rw [blit, List.append_assoc]
  by_cases h1 : i < off
  · rw [List.getElem?_append_left (by omega), List.getElem?_take_of_lt h1, if_neg (by omega)]
  · rw [List.getElem?_append_right (by omega), htake]
    by_cases h2 : i < off + src.length
    · rw [List.getElem?_append_left (by omega), if_pos (by omega)]
    · rw [List.getElem?_append_right (by omega), List.getElem?_drop, if_neg (by omega)]
      congr 1
      omega

theorem getElem?_slice (b : List α) (off len i : ℕ) :
    (slice b off len)[i]? = if i < len then b[off + i]? else none := by
  rw [slice, List.getElem?_take, List.getElem?_drop]

/-! ### Ring buffers -/

/-- A ring buffer of `size` cells: `avail` elements from cell `pos` on. -/
structure Ring (α : Type*) (size : ℕ) where
  cells : List α
  pos : ℕ
  avail : ℕ
  length_cells : cells.length = size
  pos_lt : pos < size
  avail_le : avail ≤ size

namespace Ring

/-- An empty ring, all cells alike. -/
def empty (x : α) (h : 0 < size) : Ring α size :=
  ⟨List.replicate size x, 0, 0, List.length_replicate, h, Nat.zero_le _⟩

/-- The elements, oldest first. -/
def toList (r : Ring α size) : List α :=
  (r.cells.drop r.pos ++ r.cells.take r.pos).take r.avail

/-- The cell behind the newest element. -/
def writeIdx (r : Ring α size) : ℕ := (r.pos + r.avail) % size

/-- How many of `n` new elements the ring takes at once: they must fit into the free cells before
the end of the array. -/
def accepts (r : Ring α size) (n : ℕ) : ℕ :=
  min n (min (size - r.writeIdx) (size - r.avail))

/-- Copy in as many elements as the ring takes at once. -/
def push (r : Ring α size) (xs : List α) : Ring α size where
  cells := blit r.cells r.writeIdx (xs.take (r.accepts xs.length))
  pos := r.pos
  avail := r.avail + r.accepts xs.length
  length_cells := by
    have h := r.length_cells
    have hlt : r.writeIdx < size := Nat.mod_lt _ (Nat.lt_of_le_of_lt (Nat.zero_le _) r.pos_lt)
    rw [length_blit, h]
    rw [List.length_take, accepts]
    omega
  pos_lt := r.pos_lt
  avail_le := by
    have h := r.avail_le
    rw [accepts]
    omega

/-- How many elements a read with room for `cap` gets. -/
def yields (r : Ring α size) (cap : ℕ) : ℕ := min r.avail cap

/-- Copy out up to `cap` elements, in two chunks when they wrap around. -/
def pop (r : Ring α size) (cap : ℕ) : List α × Ring α size :=
  let n := r.yields cap
  let first := min (size - r.pos) n
  (slice r.cells r.pos first ++ slice r.cells 0 (n - first),
    { r with
      pos := (r.pos + n) % size
      avail := r.avail - n
      pos_lt := Nat.mod_lt _ (Nat.lt_of_le_of_lt (Nat.zero_le _) r.pos_lt)
      avail_le := Nat.le_trans (Nat.sub_le _ _) r.avail_le })

/-- The elements by index. -/
theorem getElem?_toList (r : Ring α size) (i : ℕ) :
    r.toList[i]? = if i < r.avail then
      if r.pos + i < size then r.cells[r.pos + i]? else r.cells[r.pos + i - size]? else none := by
  have hlen := r.length_cells
  have hpos := r.pos_lt
  have havail := r.avail_le
  rw [toList, List.getElem?_take]
  split_ifs with h1 h2
  · rw [List.getElem?_append_left (by rw [List.length_drop]; omega), List.getElem?_drop]
  · rw [List.getElem?_append_right (by rw [List.length_drop]; omega), List.length_drop,
      List.getElem?_take_of_lt (by omega)]
    congr 1
    omega
  · rfl

@[simp] theorem toList_empty (x : α) (h : 0 < size) : (empty x h).toList = [] :=
  List.take_zero

@[simp] theorem length_toList (r : Ring α size) : r.toList.length = r.avail := by
  have hlen := r.length_cells
  have hpos := r.pos_lt
  have havail := r.avail_le
  rw [toList, List.length_take, List.length_append, List.length_drop, List.length_take]
  omega

/-- New elements come behind the old ones, in order. -/
theorem toList_push (r : Ring α size) (xs : List α) :
    (r.push xs).toList = r.toList ++ xs.take (r.accepts xs.length) := by
  have hlen := r.length_cells
  have hpos := r.pos_lt
  have havail := r.avail_le
  have hw : r.writeIdx = if r.pos + r.avail < size then r.pos + r.avail
      else r.pos + r.avail - size := by
    rw [writeIdx]
    split_ifs with h
    · exact Nat.mod_eq_of_lt h
    · rw [Nat.mod_eq_sub_mod (by omega), Nat.mod_eq_of_lt (by omega)]
  have hacc : r.accepts xs.length = min xs.length (min (size - r.writeIdx) (size - r.avail)) := rfl
  have htake : (xs.take (r.accepts xs.length)).length = r.accepts xs.length := by
    rw [List.length_take, hacc]; omega
  apply List.ext_getElem?
  intro i
  rw [getElem?_toList, push]
  dsimp only
  have hidx : ∀ j, (blit r.cells r.writeIdx (xs.take (r.accepts xs.length)))[j]? =
      if r.writeIdx ≤ j ∧ j < r.writeIdx + r.accepts xs.length
      then (xs.take (r.accepts xs.length))[j - r.writeIdx]? else r.cells[j]? := by
    intro j
    rw [getElem?_blit (by rw [htake]; split_ifs at hw <;> omega), htake]
  rw [hidx, hidx]
  by_cases h1 : i < r.avail
  · -- an old element: its cell is not written
    rw [List.getElem?_append_left (by rw [length_toList]; omega), getElem?_toList,
      if_pos (by omega : i < r.avail + r.accepts xs.length), if_pos h1]
    by_cases hwrap : r.pos + i < size
    · rw [if_pos hwrap, if_pos hwrap, if_neg (by split_ifs at hw <;> omega)]
    · rw [if_neg hwrap, if_neg hwrap, if_neg (by split_ifs at hw <;> omega)]
  · rw [List.getElem?_append_right (by rw [length_toList]; omega), length_toList]
    by_cases h2 : i < r.avail + r.accepts xs.length
    · rw [if_pos h2]
      by_cases hwrap : r.pos + i < size
      · rw [if_pos hwrap, if_pos (by split_ifs at hw <;> omega)]
        congr 1
        split_ifs at hw <;> omega
      · rw [if_neg hwrap, if_pos (by split_ifs at hw <;> omega)]
        congr 1
        split_ifs at hw <;> omega
    · rw [if_neg h2, List.getElem?_eq_none (by rw [htake]; omega)]

/-- A read gets the oldest elements. -/
theorem pop_fst (r : Ring α size) (cap : ℕ) : (r.pop cap).1 = r.toList.take (r.yields cap) := by
  have hlen := r.length_cells
  have hpos := r.pos_lt
  have havail := r.avail_le
  have hn : r.yields cap = min r.avail cap := rfl
  apply List.ext_getElem?
  intro i
  rw [pop]
  dsimp only
  have hfirst : (slice r.cells r.pos (min (size - r.pos) (r.yields cap))).length =
      min (size - r.pos) (r.yields cap) := length_slice (by omega)
  rw [List.getElem?_take, getElem?_toList]
  by_cases h1 : i < min (size - r.pos) (r.yields cap)
  · rw [List.getElem?_append_left (by omega), getElem?_slice, if_pos h1, if_pos (by omega),
      if_pos (by omega), if_pos (by omega)]
  · rw [List.getElem?_append_right (by omega), hfirst, getElem?_slice]
    by_cases h2 : i < r.yields cap
    · rw [if_pos (by omega), if_pos h2, if_pos (by omega), if_neg (by omega)]
      congr 1
      omega
    · rw [if_neg (by omega), if_neg h2]

/-- The rest stays. -/
theorem toList_pop (r : Ring α size) (cap : ℕ) :
    (r.pop cap).2.toList = r.toList.drop (r.yields cap) := by
  have hlen := r.length_cells
  have hpos := r.pos_lt
  have havail := r.avail_le
  have hn : r.yields cap = min r.avail cap := rfl
  apply List.ext_getElem?
  intro i
  have hmod : (r.pos + r.yields cap) % size = if r.pos + r.yields cap < size
      then r.pos + r.yields cap else r.pos + r.yields cap - size := by
    split_ifs with h
    · exact Nat.mod_eq_of_lt h
    · rw [Nat.mod_eq_sub_mod (by omega), Nat.mod_eq_of_lt (by omega)]
  have hrest : (r.pop cap).2.toList[i]? = if i < r.avail - r.yields cap then
      if (r.pos + r.yields cap) % size + i < size then r.cells[(r.pos + r.yields cap) % size + i]?
      else r.cells[(r.pos + r.yields cap) % size + i - size]? else none := getElem?_toList _ i
  rw [hrest, hmod, List.getElem?_drop, getElem?_toList]
  by_cases h1 : i < r.avail - r.yields cap
  · rw [if_pos h1, if_pos (by omega : r.yields cap + i < r.avail)]
    by_cases h2 : r.pos + r.yields cap < size
    · rw [if_pos h2, Nat.add_assoc]
    · rw [if_neg h2, if_pos (by omega), if_neg (by omega)]
      congr 1
      omega
  · rw [if_neg h1, if_neg (by omega : ¬r.yields cap + i < r.avail)]

/-- Nothing is lost or reordered by a read. -/
theorem pop_append (r : Ring α size) (cap : ℕ) :
    (r.pop cap).1 ++ (r.pop cap).2.toList = r.toList := by
  rw [pop_fst, toList_pop, List.take_append_drop]

end Ring

/-! ### Linear queues -/

/-- A queue of at most `size` elements in the cells from `pos` on; when it is empty it starts
over at the first cell. -/
structure Queue (α : Type*) (size : ℕ) where
  cells : List α
  pos : ℕ
  avail : ℕ
  length_cells : cells.length = size
  fits : pos + avail ≤ size
  rewound : avail = 0 → pos = 0

namespace Queue

/-- An empty queue, all cells alike. -/
def empty (x : α) : Queue α size :=
  ⟨List.replicate size x, 0, 0, List.length_replicate, Nat.zero_le _, fun _ => rfl⟩

/-- The elements, oldest first. -/
def toList (q : Queue α size) : List α := slice q.cells q.pos q.avail

/-- Move the elements to the front of the array. -/
def compact (q : Queue α size) : Queue α size :=
  if 0 < q.pos ∧ 0 < q.avail then
    { q with
      cells := blit q.cells 0 q.toList
      pos := 0
      length_cells := by
        have h1 := q.length_cells
        have h2 := q.fits
        have hlen : q.toList.length = q.avail := length_slice (by omega)
        rw [length_blit (by omega), h1]
      fits := by have := q.fits; omega
      rewound := fun _ => rfl }
  else q

/-- How many of `n` new elements there is room for. -/
def room (q : Queue α size) (n : ℕ) : ℕ := min n (size - q.avail)

@[simp] theorem toList_empty (x : α) : (empty x : Queue α size).toList = [] := by
  rw [empty, toList, slice, List.take_zero]

@[simp] theorem length_toList (q : Queue α size) : q.toList.length = q.avail := by
  have h1 := q.length_cells
  have h2 := q.fits
  exact length_slice (by omega)

theorem compact_avail (q : Queue α size) : q.compact.avail = q.avail := by
  unfold compact
  split_ifs <;> rfl

theorem compact_pos (q : Queue α size) : q.compact.pos = 0 := by
  unfold compact
  split_ifs with h
  · rfl
  · by_contra hpos
    exact hpos (q.rewound (by omega))

theorem toList_compact (q : Queue α size) : q.compact.toList = q.toList := by
  unfold compact
  split_ifs
  · have h : (blit q.cells 0 q.toList).take q.avail = q.toList := by
      conv_lhs => rw [← q.length_toList]
      exact take_blit_zero _ _
    exact h
  · rfl

/-- A full queue starts at the first cell already. -/
theorem compact_of_full {q : Queue α size} (h : size ≤ q.avail) : q.compact = q := by
  have hfits := q.fits
  exact if_neg fun hpos => by omega

/-- Copy in as many elements as there is room for. -/
def append (q : Queue α size) (xs : List α) : Queue α size where
  cells := blit q.compact.cells q.avail (xs.take (q.room xs.length))
  pos := 0
  avail := q.avail + q.room xs.length
  length_cells := by
    have h1 := q.compact.length_cells
    have h2 := q.fits
    rw [length_blit, h1]
    rw [List.length_take, room]
    omega
  fits := by
    have := q.fits
    rw [room]
    omega
  rewound := fun _ => rfl

theorem toList_append (q : Queue α size) (xs : List α) :
    (q.append xs).toList = q.toList ++ xs.take (q.room xs.length) := by
  have h1 := q.compact.length_cells
  have h2 := q.fits
  have hroom : q.room xs.length = min xs.length (size - q.avail) := rfl
  have htake : (xs.take (q.room xs.length)).length = q.room xs.length := by
    rw [List.length_take]; omega
  have hold : q.compact.cells.take q.avail = q.toList := by
    rw [← toList_compact, toList, compact_pos, compact_avail]
    rfl
  have hsplit : (q.append xs).toList = (blit q.compact.cells q.avail
      (xs.take (q.room xs.length))).take (q.avail + q.room xs.length) := rfl
  rw [hsplit, blit, hold, List.take_append_of_le_length, List.take_of_length_le]
  · exact Nat.le_of_eq (by rw [List.length_append, length_toList, htake])
  · exact Nat.le_of_eq (by rw [List.length_append, length_toList, htake])

/-- Drop up to `n` elements from the front. -/
def advance (q : Queue α size) (n : ℕ) : Queue α size where
  cells := q.cells
  pos := if q.avail - n = 0 then 0 else q.pos + n
  avail := q.avail - n
  length_cells := q.length_cells
  fits := by
    have := q.fits
    split_ifs <;> omega
  rewound := fun h => if_pos h

theorem toList_advance (q : Queue α size) (n : ℕ) :
    (q.advance n).toList = q.toList.drop n := by
  unfold advance toList slice
  dsimp only
  split_ifs with h
  · rw [h, List.take_zero, List.drop_eq_nil_of_le (by rw [List.length_take]; omega)]
  · rw [List.drop_take, List.drop_drop]

end Queue

end Lib
