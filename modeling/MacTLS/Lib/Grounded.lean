import Mathlib.Data.List.Basic
import Mathlib.Data.List.Induction

/-!
# Grounded logs

A log is grounded in a relation when each of its entries has what it needs in the entries before
it: an answer has its question, a use has its definition.

* `Grounded.concat` : how a log grows;
* `Grounded.of_mem` : an entry with the entries before it;
* `Grounded.trace` : entries that only ever rest on entries of one kind rest on a first one.
-/

namespace Lib

variable {α : Type*} {P : List α → α → Prop} {log : List α}

/-- Each entry has what it needs in the entries before it. -/
def Grounded (P : List α → α → Prop) (log : List α) : Prop :=
  ∀ before e after, log = before ++ e :: after → P before e

namespace Grounded

theorem nil : Grounded P [] := by
  intro before e after h
  cases before <;> cases h

theorem concat {e : α} (h : Grounded P log) (he : P log e) : Grounded P (log ++ [e]) := by
  intro before e' after heq
  induction after using List.reverseRecOn with
  | nil =>
    obtain ⟨rfl, hlast⟩ := List.append_inj' heq rfl
    cases hlast
    exact he
  | append_singleton after x =>
    rw [← List.cons_append, ← List.append_assoc] at heq
    exact h before e' after (List.append_inj' heq rfl).1

/-- The log as it was before. -/
theorem initial {before after : List α} (h : Grounded P (before ++ after)) :
    Grounded P before := by
  intro before' e after' heq
  refine h before' e (after' ++ after) ?_
  rw [heq, List.append_assoc, List.cons_append]

/-- An entry stands behind the entries it rests on. -/
theorem of_mem {e : α} (h : Grounded P log) (he : e ∈ log) :
    ∃ before ⊆ log, Grounded P before ∧ P before e := by
  obtain ⟨before, after, rfl⟩ := List.append_of_mem he
  exact ⟨before, List.subset_append_left _ _, h.initial, h before e after rfl⟩

/-- When an entry of a kind is either a source or has another of its kind before it, there is a
source at it or before it. -/
theorem trace {A : α → Prop} {R : List α → α → Prop} (h : Grounded P log)
    (hrest : ∀ before e, Grounded P before → P before e → A e → R before e ∨ ∃ e' ∈ before, A e')
    {e : α} (he : e ∈ log) (ha : A e) :
    ∃ before e' after, log = before ++ e' :: after ∧ A e' ∧ R before e' := by
  induction log using List.reverseRecOn generalizing e with
  | nil => cases he
  | append_singleton log x ih =>
    -- an earlier one is a matter of the shorter log
    have hearlier : ∀ e' ∈ log, A e' →
        ∃ before e' after, log ++ [x] = before ++ e' :: after ∧ A e' ∧ R before e' := by
      intro e' he' ha'
      obtain ⟨before, e'', after, rfl, hsource⟩ := ih h.initial he' ha'
      exact ⟨before, e'', after ++ [x], by rw [List.append_assoc, List.cons_append], hsource⟩
    obtain he | he := List.mem_append.1 he
    · exact hearlier e he ha
    · obtain rfl := List.mem_singleton.1 he
      obtain hr | ⟨e', he', ha'⟩ := hrest log e h.initial (h log e [] rfl) ha
      · exact ⟨log, e, [], rfl, ha, hr⟩
      · exact hearlier e' he' ha'

end Grounded

end Lib
