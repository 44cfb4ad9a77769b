import Mathlib.Data.List.Chain
import Mathlib.Data.List.Nodup
import Mathlib.Data.List.Perm.Subperm

/-!
# Greedy walks

A walk starts from a path and goes on, as long as it can, to the first of its candidates that is
not on the path yet and that may follow the last one.

* `GreedyPath.walk` : the walk is a path without repetition, and with enough fuel nothing is
  left that could extend it;
* `isPrefix_walk` : candidates that already stand in the order of a path are taken in that order.
-/

namespace Lib

universe u

variable {α : Type u} [DecidableEq α]

/-- The first candidate off the path that may follow `a`. -/
def follower (r : α → α → Bool) (l path : List α) (a : α) : Option α :=
  l.find? fun b => !path.contains b && r a b

/-- Extend a path that ends in `a`, at most `fuel` times. -/
def greedyWalk (r : α → α → Bool) (l : List α) : ℕ → List α → α → List α
  | 0, path, _ => path
  | fuel + 1, path, a =>
    match follower r l path a with
    | none => path
    | some b => greedyWalk r l fuel (path ++ [b]) b

/-- A path through the candidates that ends in `a`. -/
structure GreedyPath (r : α → α → Bool) (l path : List α) (a : α) : Prop where
  ends : path.getLast? = some a
  nodup : path.Nodup
  inside : path ⊆ l
  linked : path.IsChain fun a b => r a b

variable {r : α → α → Bool} {l path : List α} {a b : α}

theorem follower_eq_none_iff :
    follower r l path a = none ↔ ∀ b ∈ l, b ∉ path → r a b = false := by
  simp [follower, List.find?_eq_none]

theorem follower_eq_some (h : follower r l path a = some b) :
    b ∈ l ∧ b ∉ path ∧ r a b = true := by
  have hp := List.find?_some h
  simp only [Bool.and_eq_true, Bool.not_eq_true', List.contains_eq_mem, decide_eq_false_iff_not]
    at hp
  exact ⟨List.mem_of_find?_eq_some h, hp⟩

/-- Behind candidates that are all on the path, the next one is the first off it. -/
theorem follower_append {rest : List α} (hb : b ∉ path) (hr : r a b = true) :
    follower r (path ++ b :: rest) path a = some b := by
  have hpath : path.find? (fun b => !path.contains b && r a b) = none := by
    rw [List.find?_eq_none]
    intro c hc
    simp [hc]
  rw [follower, List.find?_append, hpath, Option.none_or, List.find?_cons_of_pos]
  simp [hb, hr]

namespace GreedyPath

omit [DecidableEq α] in
theorem singleton (ha : a ∈ l) : GreedyPath r l [a] a :=
  ⟨rfl, List.nodup_singleton a, by simpa using ha, List.IsChain.singleton a⟩

omit [DecidableEq α] in
theorem length_le (h : GreedyPath r l path a) : path.length ≤ l.length :=
  (List.subperm_of_subset h.nodup h.inside).length_le

theorem append (h : GreedyPath r l path a) (hb : follower r l path a = some b) :
    GreedyPath r l (path ++ [b]) b := by
  obtain ⟨hmem, hoff, hr⟩ := follower_eq_some hb
  refine ⟨List.getLast?_concat .., ?_, ?_, ?_⟩
  · exact List.nodup_append.2 ⟨h.nodup, List.nodup_singleton b, by
      rintro c hc _ (⟨⟩ | ⟨_, ⟨⟩⟩) rfl
      exact hoff hc⟩
  · exact List.append_subset.2 ⟨h.inside, by simpa using hmem⟩
  · refine List.isChain_append.2 ⟨h.linked, List.IsChain.singleton b, ?_⟩
    rintro x hx y ⟨⟩
    rw [h.ends] at hx
    obtain rfl : a = x := by simpa using hx
    exact hr

/-- A path through all candidates cannot be extended. -/
theorem follower_of_full (h : GreedyPath r l path a) (hfull : l.length ≤ path.length) :
    follower r l path a = none := by
  rw [follower_eq_none_iff]
  intro b hb hoff
  have hsub := List.subperm_of_subset (List.nodup_cons.2 ⟨hoff, h.nodup⟩)
    (List.cons_subset.2 ⟨hb, h.inside⟩)
  have := hsub.length_le
  rw [List.length_cons] at this
  omega

theorem walk_of_full (h : GreedyPath r l path a) (hfull : l.length ≤ path.length) (fuel : ℕ) :
    greedyWalk r l fuel path a = path := by
  cases fuel with
  | zero => rfl
  | succ fuel => simp [greedyWalk, h.follower_of_full hfull]

/-- Where a walk ends: on a path, and with enough fuel on one that cannot be extended. -/
theorem walk (h : GreedyPath r l path a) (fuel : ℕ) :
    ∃ b, GreedyPath r l (greedyWalk r l fuel path a) b ∧
      (l.length < path.length + fuel →
        follower r l (greedyWalk r l fuel path a) b = none) := by
  induction fuel generalizing path a with
  | zero =>
    refine ⟨a, h, fun hlt => ?_⟩
    have := h.length_le
    omega
  | succ fuel ih =>
    rw [greedyWalk]
    cases hb : follower r l path a with
    | none => exact ⟨a, h, fun _ => hb⟩
    | some b =>
      obtain ⟨c, hc, hstuck⟩ := ih (h.append hb)
      refine ⟨c, hc, fun hlt => hstuck ?_⟩
      rw [List.length_append, List.length_singleton]
      omega

end GreedyPath

theorem isPrefix_walk_self (fuel : ℕ) : path <+: greedyWalk r l fuel path a := by
  induction fuel generalizing path a with
  | zero => exact List.prefix_refl path
  | succ fuel ih =>
    rw [greedyWalk]
    cases follower r l path a with
    | none => exact List.prefix_refl path
    | some b => exact (List.prefix_append path [b]).trans ih

/-- The first candidate off the path is the one that stands next, so a path that the candidates
start with is what the walk starts with. -/
theorem isPrefix_walk {more rest : List α} {fuel : ℕ} (hl : l = path ++ (more ++ rest))
    (hnodup : l.Nodup) (hchain : (a :: more).IsChain fun a b => r a b)
    (hfuel : more.length ≤ fuel) : path ++ more <+: greedyWalk r l fuel path a := by
  induction more generalizing path a fuel with
  | nil =>
    rw [List.append_nil]
    exact isPrefix_walk_self fuel
  | cons b more ih =>
    obtain ⟨fuel, rfl⟩ : ∃ n, fuel = n + 1 := ⟨fuel - 1, by rw [List.length_cons] at hfuel; omega⟩
    obtain ⟨hr, hchain⟩ := List.isChain_cons_cons.1 hchain
    have hoff : b ∉ path := by
      rw [hl] at hnodup
      intro hb
      exact (List.nodup_append.1 hnodup).2.2 b hb b List.mem_cons_self rfl
    have hnext : follower r l path a = some b := by
      rw [hl]
      exact follower_append hoff hr
    have hrest : path ++ [b] ++ more <+: greedyWalk r l fuel (path ++ [b]) b :=
      ih (by rw [hl]; simp) hchain (Nat.le_of_succ_le_succ hfuel)
    simpa [greedyWalk, hnext] using hrest

end Lib
