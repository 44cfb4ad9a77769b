import Mathlib.Data.List.Basic
import Mathlib.Data.List.Induction
import Mathlib.Data.List.Nodup

/-!
# Hash ratchets

A pool is the string of everything that was fed to a running hash.  Samples are appended to it; an
extraction hashes the pool with a tag behind it and appends the result.

* `Ratchet.Chain` : a pool and the log of what was done to it;
* `Ratchet.Chain.pool_eq`, `Ratchet.Chain.input_eq` : the pool is all that was fed, and so is the
  input of an extraction, up to its tag;
* `Ratchet.Chain.inputs_nodup` : with tags of one length no two extractions have the same input.
-/

namespace Lib

namespace Ratchet

variable {α : Type*}

inductive Event (α : Type*) where
  | stir (data : List α)
  | extract (tag input out : List α)

/-- What an event feeds to the pool. -/
def Event.fed : Event α → List α
  | stir data => data
  | extract _ _ out => out

def Event.input? : Event α → Option (List α)
  | stir _ => none
  | extract _ input _ => some input

def Event.out? : Event α → Option (List α)
  | stir _ => none
  | extract _ _ out => some out

/-- Everything that was fed to the pool. -/
def fed (log : List (Event α)) : List α := log.flatMap Event.fed

/-- The inputs of the extractions, in order. -/
def inputs (log : List (Event α)) : List (List α) := log.filterMap Event.input?

/-- The results of the extractions, in order. -/
def outputs (log : List (Event α)) : List (List α) := log.filterMap Event.out?

@[simp] theorem fed_append (log log' : List (Event α)) : fed (log ++ log') = fed log ++ fed log' :=
  List.flatMap_append ..

@[simp] theorem inputs_append (log log' : List (Event α)) :
    inputs (log ++ log') = inputs log ++ inputs log' := List.filterMap_append ..

@[simp] theorem outputs_append (log log' : List (Event α)) :
    outputs (log ++ log') = outputs log ++ outputs log' := List.filterMap_append ..

@[simp] theorem inputs_stir (data : List α) : inputs [.stir data] = [] := rfl

@[simp] theorem inputs_extract (tag input out : List α) :
    inputs [.extract tag input out] = [input] := rfl

@[simp] theorem outputs_stir (data : List α) : outputs [.stir data] = [] := rfl

@[simp] theorem outputs_extract (tag input out : List α) :
    outputs [.extract tag input out] = [out] := rfl

/-- A pool that grew from the empty one by stirs, and by extractions with tags of length `t`. -/
inductive Chain (hash : List α → List α) (t : ℕ) : List α → List (Event α) → Prop
  | start : Chain hash t [] []
  | stir {pool : List α} {log : List (Event α)} (h : Chain hash t pool log) (data : List α) :
      Chain hash t (pool ++ data) (log ++ [.stir data])
  | extract {pool : List α} {log : List (Event α)} (h : Chain hash t pool log) {tag : List α}
      (htag : tag.length = t) : Chain hash t (pool ++ hash (pool ++ tag))
        (log ++ [.extract tag (pool ++ tag) (hash (pool ++ tag))])

namespace Chain

variable {hash : List α → List α} {t : ℕ} {pool : List α} {log : List (Event α)}

theorem pool_eq (h : Chain hash t pool log) : pool = fed log := by
  induction h with
  | start => rfl
  | stir _ _ ih => rw [fed_append, ← ih]; simp [fed, Event.fed]
  | extract _ _ ih => rw [fed_append, ← ih]; simp [fed, Event.fed]

/-- The input of an extraction is all that was fed before it, with its tag behind. -/
theorem input_eq (h : Chain hash t pool log) {before after : List (Event α)}
    {tag input out : List α} (hlog : log = before ++ .extract tag input out :: after) :
    input = fed before ++ tag ∧ out = hash input := by
  induction h generalizing after with
  | start => simp at hlog
  | stir _ _ ih =>
    obtain rfl | ⟨after, e, rfl⟩ := List.eq_nil_or_concat after
    · have hlast := (List.append_inj' hlog rfl).2
      cases hlast
    · rw [List.concat_eq_append, ← List.cons_append, ← List.append_assoc] at hlog
      exact ih (List.append_inj' hlog rfl).1
  | extract h _ ih =>
    obtain rfl | ⟨after, e, rfl⟩ := List.eq_nil_or_concat after
    · obtain ⟨rfl, hlast⟩ := List.append_inj' hlog rfl
      cases hlast
      exact ⟨by rw [← h.pool_eq], rfl⟩
    · rw [List.concat_eq_append, ← List.cons_append, ← List.append_assoc] at hlog
      exact ih (List.append_inj' hlog rfl).1

/-- The inputs so far are shorter than the next one. -/
theorem length_lt (h : Chain hash t pool log) (hlen : ∀ m, 0 < (hash m).length) :
    ∀ input ∈ inputs log, input.length < pool.length + t := by
  induction h with
  | start => simp [inputs]
  | stir _ data ih =>
    intro input hin
    rw [inputs_append, inputs_stir, List.append_nil] at hin
    have hlt := ih input hin
    rw [List.length_append]
    omega
  | @extract pool log _ tag htag ih =>
    intro input hin
    have hpos := hlen (pool ++ tag)
    rw [inputs_append, inputs_extract, List.mem_append, List.mem_singleton] at hin
    rw [List.length_append]
    obtain hin | rfl := hin
    · have hlt := ih input hin
      omega
    · rw [List.length_append, htag]
      omega

theorem inputs_nodup (h : Chain hash t pool log) (hlen : ∀ m, 0 < (hash m).length) :
    (inputs log).Nodup := by
  induction h with
  | start => exact List.nodup_nil
  | stir _ _ ih => simpa using ih
  | @extract pool log h tag htag ih =>
    rw [inputs_append, inputs_extract]
    refine List.nodup_append.2 ⟨ih, List.nodup_singleton _, ?_⟩
    rintro a ha b hb rfl
    have hlt := h.length_lt hlen a ha
    rw [List.mem_singleton.1 hb, List.length_append, htag] at hlt
    exact Nat.lt_irrefl _ hlt

theorem outputs_eq (h : Chain hash t pool log) : outputs log = (inputs log).map hash := by
  induction h with
  | start => rfl
  | stir _ _ ih => simpa using ih
  | extract _ _ ih => simp [ih]

/-- If the hash tells the inputs apart, no result is ever repeated. -/
theorem outputs_nodup (h : Chain hash t pool log) (hlen : ∀ m, 0 < (hash m).length)
    (hinj : ∀ x ∈ inputs log, ∀ y ∈ inputs log, hash x = hash y → x = y) :
    (outputs log).Nodup := by
  rw [h.outputs_eq]
  exact (h.inputs_nodup hlen).map_on hinj

end Chain

end Ratchet

end Lib
