import Mathlib.Data.List.Basic

/-!
# Deterministic machines and their runs

A machine is a step function `step : σ → ι → σ` on states and inputs.  Which inputs may come in
which state is a separate predicate `ok`, so one machine has many kinds of run: all of them, or
only those whose every step meets a condition.

* `Reach step ok s₀ s` : `s` is reached from `s₀` by steps on admissible inputs;
* `Reach.invariant` : what holds at the start and is kept by every admissible step holds in every
  reached state;
* `reach_play` : a concrete script of inputs is such a run when each input is admissible in turn;
* `settles_of_measure` : a run that lowers a measure until it settles does so within the measure.
-/

namespace Lib

variable {σ ι : Type*} {step : σ → ι → σ} {ok ok' : σ → ι → Prop} {s₀ s s' : σ}

/-- The states reached from `s₀` by steps on admissible inputs. -/
inductive Reach (step : σ → ι → σ) (ok : σ → ι → Prop) (s₀ : σ) : σ → Prop
  | refl : Reach step ok s₀ s₀
  | tail {s : σ} {i : ι} (h : Reach step ok s₀ s) (hi : ok s i) : Reach step ok s₀ (step s i)

namespace Reach

theorem trans (h : Reach step ok s₀ s) (h' : Reach step ok s s') : Reach step ok s₀ s' := by
  induction h' with
  | refl => exact h
  | tail _ hi ih => exact ih.tail hi

theorem mono (h : Reach step ok s₀ s) (himp : ∀ s i, ok s i → ok' s i) :
    Reach step ok' s₀ s := by
  induction h with
  | refl => exact .refl
  | tail _ hi ih => exact ih.tail (himp _ _ hi)

/-- The induction over a run, once and for all. -/
theorem invariant {P : σ → Prop} (h : Reach step ok s₀ s) (h₀ : P s₀)
    (hstep : ∀ s i, P s → ok s i → P (step s i)) : P s := by
  induction h with
  | refl => exact h₀
  | tail _ hi ih => exact hstep _ _ ih hi

end Reach

/-- Play a script: each of its inputs may depend on the state it comes in. -/
def play (step : σ → ι → σ) (s : σ) (script : List (σ → ι)) : σ :=
  script.foldl (fun s f => step s (f s)) s

/-- One more input. -/
theorem play_concat (script : List (σ → ι)) (f : σ → ι) :
    play step s (script ++ [f]) = step (play step s script) (f (play step s script)) := by
  rw [play, List.foldl_append]
  rfl

/-- Every input of the script is admissible in the state it comes in. -/
def Admissible (step : σ → ι → σ) (ok : σ → ι → Prop) : σ → List (σ → ι) → Prop
  | _, [] => True
  | s, f :: fs => ok s (f s) ∧ Admissible step ok (step s (f s)) fs

instance decidableAdmissible [∀ s i, Decidable (ok s i)] :
    ∀ (s : σ) (fs : List (σ → ι)), Decidable (Admissible step ok s fs)
  | _, [] => isTrue trivial
  | s, f :: fs =>
    have := decidableAdmissible (step s (f s)) fs
    inferInstanceAs (Decidable (ok s (f s) ∧ Admissible step ok (step s (f s)) fs))

theorem reach_play {script : List (σ → ι)} (h : Admissible step ok s script) :
    Reach step ok s (play step s script) := by
  induction script generalizing s with
  | nil => exact .refl
  | cons f fs ih => exact (Reach.refl.tail h.1).trans (ih h.2)

/-- The rest of a script is a run from where its first inputs led. -/
theorem reach_play_drop {script : List (σ → ι)} (n : ℕ)
    (h : Admissible step ok (play step s (script.take n)) (script.drop n)) :
    Reach step ok (play step s (script.take n)) (play step s script) := by
  have hplay : play step s script = play step (play step s (script.take n)) (script.drop n) := by
    unfold play
    rw [← List.foldl_append, List.take_append_drop]
  rw [hplay]
  exact reach_play h

/-! ### Runs that settle -/

/-- The state after `n` inputs of a stream. -/
def after (step : σ → ι → σ) (s : σ) (is : ℕ → ι) : ℕ → σ
  | 0 => s
  | n + 1 => step (after step s is n) (is n)

theorem after_add (s : σ) (is : ℕ → ι) (m n : ℕ) :
    after step s is (m + n) = after step (after step s is m) (fun i => is (m + i)) n := by
  induction n with
  | zero => rfl
  | succ n ih => exact congrArg (step · (is (m + n))) ih

/-- A run that lowers a measure until it settles does so within the measure. -/
theorem settles_of_measure {P Q : σ → Prop} {μ : σ → ℕ}
    (hstep : ∀ s i, P s → Q s ∨ P (step s i) ∧ (Q (step s i) ∨ μ (step s i) < μ s))
    (is : ℕ → ι) (h : P s) : ∃ n ≤ μ s + 1, Q (after step s is n) := by
  induction hμ : μ s using Nat.strongRecOn generalizing s is with
  | ind m ih =>
    obtain hs | ⟨hinv, hs | hlt⟩ := hstep s (is 0) h
    · exact ⟨0, Nat.zero_le _, hs⟩
    · exact ⟨1, Nat.le_add_left _ _, hs⟩
    · rw [hμ] at hlt
      obtain ⟨n, hn, hs⟩ := ih _ hlt (fun i => is (1 + i)) hinv rfl
      refine ⟨1 + n, by omega, ?_⟩
      rw [after_add]
      exact hs

end Lib
