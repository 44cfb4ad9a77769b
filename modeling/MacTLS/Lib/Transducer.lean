import Mathlib.Data.List.Basic

/-!
# Stream transducers

A transducer reads a stream element by element and writes another one, until it stops.  What it
makes of a stream does not depend on how the stream is cut.

* `run` : what becomes of a stream that is fed as a whole;
* `run_append` : feeding a stream in two parts;
* `run_of_reads` : a part that is read to its end can be left behind.
-/

namespace Lib

/-- A transducer with states `σ`, reading `α` and writing `β`. -/
structure Transducer (σ α β : Type*) where
  next : σ → α → σ × List β
  stopped : σ → Bool

namespace Transducer

variable {σ α β : Type*}

/-- How far a transducer came: its state, what it wrote, and what it left unread. -/
@[ext] structure Output (σ α β : Type*) where
  state : σ
  out : List β
  rest : List α

/-- The output when `pre` was written before. -/
def Output.after (o : Output σ α β) (pre : List β) : Output σ α β :=
  { o with out := pre ++ o.out }

@[simp] theorem Output.after_nil (o : Output σ α β) : o.after [] = o := rfl

@[simp] theorem Output.after_after (o : Output σ α β) (p q : List β) :
    (o.after p).after q = o.after (q ++ p) := by
  simp only [after, List.append_assoc]

variable (T : Transducer σ α β)

/-- Read a stream, up to its end or until the transducer stops. -/
def run (s : σ) : List α → Output σ α β
  | [] => ⟨s, [], []⟩
  | x :: xs => if T.stopped s then ⟨s, [], x :: xs⟩
    else (run (T.next s x).1 xs).after (T.next s x).2

/-- All of `xs` is read from `s`, which gives `out` and leads to `s'`. -/
def Reads (s : σ) (xs : List α) (out : List β) (s' : σ) : Prop := T.run s xs = ⟨s', out, []⟩

variable {T} {s s' s'' : σ} {xs ys : List α} {out out' : List β}

@[simp] theorem run_nil : T.run s [] = ⟨s, [], []⟩ := rfl

theorem run_cons {x : α} (h : T.stopped s = false) :
    T.run s (x :: xs) = (T.run (T.next s x).1 xs).after (T.next s x).2 := by
  rw [run, if_neg (by simp [h])]

theorem run_stopped (h : T.stopped s = true) : T.run s xs = ⟨s, [], xs⟩ := by
  cases xs with
  | nil => rfl
  | cons x xs => rw [run, if_pos h]

/-- Feeding a stream in two parts. -/
theorem run_append (s : σ) (xs ys : List α) : T.run s (xs ++ ys) =
    (T.run (T.run s xs).state ((T.run s xs).rest ++ ys)).after (T.run s xs).out := by
  induction xs generalizing s with
  | nil => rfl
  | cons x xs ih =>
    by_cases h : T.stopped s = true
    · rw [run_stopped h, run_stopped h, run_stopped h]
      rfl
    · have h := eq_false_of_ne_true h
      rw [List.cons_append, run_cons h, run_cons h, ih, Output.after_after]
      rfl

/-- A part that is read to its end can be left behind. -/
theorem run_of_reads (h : T.Reads s xs out s') (ys : List α) :
    T.run s (xs ++ ys) = (T.run s' ys).after out := by
  rw [run_append, h]
  rfl

theorem Reads.nil : T.Reads s [] [] s := rfl

theorem Reads.trans (h : T.Reads s xs out s') (h' : T.Reads s' ys out' s'') :
    T.Reads s (xs ++ ys) (out ++ out') s'' := by
  rw [Reads, run_of_reads h, h']
  rfl

theorem Reads.cons {x : α} (hs : T.stopped s = false) (h : T.Reads (T.next s x).1 xs out s') :
    T.Reads s (x :: xs) ((T.next s x).2 ++ out) s' := by
  rw [Reads, run_cons hs, h]
  rfl

/-- One element, by what it leads to. -/
theorem Reads.cons_of_next {x : α} {o : List β} (hs : T.stopped s = false)
    (hnext : T.next s x = (s', o)) (h : T.Reads s' xs out s'') :
    T.Reads s (x :: xs) (o ++ out) s'' := by
  have hcons := Reads.cons (x := x) hs (by rw [hnext]; exact h)
  rwa [hnext] at hcons

theorem Reads.single {x : α} {o : List β} (hs : T.stopped s = false)
    (hnext : T.next s x = (s', o)) : T.Reads s [x] o s' := by
  have hcons := Reads.cons_of_next hs hnext .nil
  rwa [List.append_nil] at hcons

/-- What is read in two parts is read up to some state in between. -/
theorem Reads.split (h : T.Reads s (xs ++ ys) out s') :
    ∃ mid out₁ out₂, T.Reads s xs out₁ mid ∧ T.Reads mid ys out₂ s' ∧ out = out₁ ++ out₂ := by
  induction xs generalizing s out with
  | nil => exact ⟨s, [], out, .nil, h, rfl⟩
  | cons x xs ih =>
    by_cases hs : T.stopped s = true
    · have heq := (run_stopped hs).symm.trans h
      cases heq
    · have hs := eq_false_of_ne_true hs
      have hrun := (run_cons hs).symm.trans h
      have hrest : T.Reads (T.next s x).1 (xs ++ ys) (T.run (T.next s x).1 (xs ++ ys)).out s' :=
        Output.ext (congrArg Output.state hrun :) rfl (congrArg Output.rest hrun :)
      have hout : (T.next s x).2 ++ (T.run (T.next s x).1 (xs ++ ys)).out = out :=
        congrArg Output.out hrun
      obtain ⟨mid, out₁, out₂, h₁, h₂, heq⟩ := ih hrest
      refine ⟨mid, _, out₂, .cons hs h₁, h₂, ?_⟩
      rw [← hout, heq, List.append_assoc]

theorem Reads.invariant_from {P : σ → List α → List β → Prop} (h : T.Reads s xs out s')
    {xs₀ : List α} {out₀ : List β} (h₀ : P s xs₀ out₀)
    (hstep : ∀ s xs out x, P s xs out → T.stopped s = false →
      P (T.next s x).1 (xs ++ [x]) (out ++ (T.next s x).2)) :
    P s' (xs₀ ++ xs) (out₀ ++ out) := by
  induction xs generalizing s out xs₀ out₀ with
  | nil =>
    have heq : (⟨s, [], []⟩ : Output σ α β) = ⟨s', out, []⟩ := h
    cases heq
    simpa using h₀
  | cons x xs ih =>
    by_cases hs : T.stopped s = true
    · have heq := (run_stopped hs).symm.trans h
      cases heq
    · have hs := eq_false_of_ne_true hs
      have hrun := (run_cons hs).symm.trans h
      have hrest : T.run (T.next s x).1 xs = ⟨s', (T.run (T.next s x).1 xs).out, []⟩ :=
        Output.ext (congrArg Output.state hrun :) rfl (congrArg Output.rest hrun :)
      have hout : (T.next s x).2 ++ (T.run (T.next s x).1 xs).out = out := congrArg Output.out hrun
      have := ih hrest (hstep _ _ _ x h₀ hs)
      rw [List.append_assoc, List.append_assoc, hout] at this
      exact this

/-- What every element read keeps, a whole part keeps. -/
theorem Reads.invariant {P : σ → List α → List β → Prop} (h : T.Reads s xs out s')
    (h₀ : P s [] []) (hstep : ∀ s xs out x, P s xs out → T.stopped s = false →
      P (T.next s x).1 (xs ++ [x]) (out ++ (T.next s x).2)) : P s' xs out :=
  h.invariant_from h₀ hstep

end Transducer

end Lib
