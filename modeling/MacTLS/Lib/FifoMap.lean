import Mathlib.Data.Finset.Card
import Mathlib.Data.List.DropRight
import Mathlib.Data.List.Induction

/-!
# First-in first-out maps

A map with room for `n` keys, kept as a list of entries with the oldest one first.  A key that is
present keeps its place when it is put again; a new one goes to the end, and the oldest one goes
when there is no room.

* `FifoMap.put_of_mem` : putting a present key only changes its value;
* `FifoMap.arrivals` : the keys that were newly inserted by a history of puts;
* `FifoMap.keys_after` : the keys in the map are the last `n` arrivals;
* `FifoMap.find_after` : a key is in the map while fewer than `n` others have arrived since;
* `FifoMap.latest_of_find`, `FifoMap.mem_of_latest` : what is in the map was put, and put last.
-/

namespace Lib

namespace FifoMap

variable {κ ν : Type*} [DecidableEq κ]

/-! ### The map -/

def keys (m : List (κ × ν)) : List κ := m.map Prod.fst

def find (m : List (κ × ν)) (k : κ) : Option ν := (m.find? (·.1 = k)).map (·.2)

def put (n : ℕ) (m : List (κ × ν)) (k : κ) (v : ν) : List (κ × ν) :=
  match m.findIdx? (·.1 = k) with
  | some i => m.set i (k, v)
  | none => (if n ≤ m.length then m.drop 1 else m) ++ [(k, v)]

variable {n : ℕ} {m : List (κ × ν)} {k : κ} {v : ν}

theorem find_of_not_mem (h : k ∉ keys m) : find m k = none := by
  rw [find, Option.map_eq_none_iff, List.find?_eq_none]
  intro e he hk
  exact h (List.mem_map.2 ⟨e, he, by simpa using hk⟩)

theorem find_of_mem (hnodup : (keys m).Nodup) (h : (k, v) ∈ m) : find m k = some v := by
  induction m with
  | nil => cases h
  | cons e m ih =>
    obtain ⟨hnotin, hnodup⟩ := List.nodup_cons.1 hnodup
    rw [find, List.find?_cons]
    obtain rfl | h := List.mem_cons.1 h
    · simp
    · have hne : e.1 ≠ k := fun heq => hnotin (heq ▸ List.mem_map.2 ⟨_, h, rfl⟩)
      rw [decide_eq_false hne]
      exact ih hnodup h

/-- A present key keeps its place, and every other entry its value. -/
theorem put_of_mem (hnodup : (keys m).Nodup) (h : k ∈ keys m) :
    put n m k v = m.map fun e => if e.1 = k then (k, v) else e := by
  unfold put
  split
  · rename_i i hi
    obtain ⟨hlt, hk, -⟩ := List.findIdx?_eq_some_iff_getElem.1 hi
    simp only [decide_eq_true_eq] at hk
    refine List.ext_getElem (by simp) fun j hj hj' => ?_
    rw [List.length_map] at hj'
    rw [List.getElem_set, List.getElem_map]
    have hij : m[j].1 = k ↔ i = j := by
      constructor
      · intro hjk
        have hlt' : i < (keys m).length := by rwa [keys, List.length_map]
        refine (List.getElem?_inj hlt' hnodup).1 ?_
        simp [keys, hk, hjk, hlt, hj']
      · rintro rfl
        exact hk
    simp only [hij]
  · rename_i hnone
    obtain ⟨e, he, rfl⟩ := List.mem_map.1 h
    simpa using List.findIdx?_eq_none_iff.1 hnone e he

theorem put_of_not_mem (h : k ∉ keys m) :
    put n m k v = (if n ≤ m.length then m.drop 1 else m) ++ [(k, v)] := by
  unfold put
  split
  · rename_i i hi
    obtain ⟨hlt, hk, -⟩ := List.findIdx?_eq_some_iff_getElem.1 hi
    exact absurd (List.mem_map.2 ⟨_, List.getElem_mem hlt, by simpa using hk⟩) h
  · rfl

theorem keys_put_of_mem (hnodup : (keys m).Nodup) (h : k ∈ keys m) :
    keys (put n m k v) = keys m := by
  rw [put_of_mem hnodup h, keys, keys, List.map_map]
  refine List.map_congr_left fun e he => ?_
  dsimp only [Function.comp]
  split_ifs with hk
  · exact hk.symm
  · rfl

/-- A new key goes to the end. -/
theorem put_of_not_mem_eq (hlen : m.length ≤ n) (h : k ∉ keys m) :
    put n m k v = m.drop (m.length + 1 - n) ++ [(k, v)] := by
  rw [put_of_not_mem h]
  split_ifs with hfull
  · rw [show m.length + 1 - n = 1 by omega]
  · rw [show m.length + 1 - n = 0 by omega, List.drop_zero]

/-! ### Histories -/

/-- One more put: the map, and the keys that were newly inserted, in order. -/
def record (n : ℕ) (s : List (κ × ν) × List κ) (e : κ × ν) : List (κ × ν) × List κ :=
  (put n s.1 e.1 e.2, if e.1 ∈ keys s.1 then s.2 else s.2 ++ [e.1])

def history (n : ℕ) (puts : List (κ × ν)) : List (κ × ν) × List κ :=
  puts.foldl (record n) ([], [])

/-- The map after a history of puts. -/
def after (n : ℕ) (puts : List (κ × ν)) : List (κ × ν) := (history n puts).1

/-- The keys that were newly inserted. -/
def arrivals (n : ℕ) (puts : List (κ × ν)) : List κ := (history n puts).2

theorem after_concat (puts : List (κ × ν)) (e : κ × ν) :
    after n (puts ++ [e]) = put n (after n puts) e.1 e.2 := by
  rw [after, history, List.foldl_append]
  rfl

/-- The value put last under a key. -/
def latest (k : κ) (puts : List (κ × ν)) : Option ν :=
  puts.foldl (fun last e => if e.1 = k then some e.2 else last) none

theorem latest_concat (puts : List (κ × ν)) (e : κ × ν) :
    latest k (puts ++ [e]) = if e.1 = k then some e.2 else latest k puts := by
  rw [latest, List.foldl_append]
  rfl

/-- The values may be put with something else about them. -/
theorem latest_map {ν' : Type*} (f : ν → ν') (puts : List (κ × ν)) :
    latest k (puts.map fun e => (e.1, f e.2)) = (latest k puts).map f := by
  induction puts using List.reverseRecOn with
  | nil => rfl
  | append_singleton puts e ih =>
    rw [List.map_append, List.map_singleton, latest_concat, latest_concat, ih]
    split_ifs <;> rfl

theorem mem_of_latest {puts : List (κ × ν)} (h : latest k puts = some v) : (k, v) ∈ puts := by
  induction puts using List.reverseRecOn with
  | nil => cases h
  | append_singleton puts e ih =>
    rw [latest_concat] at h
    split_ifs at h with hk
    · refine List.mem_append_right _ (List.mem_singleton.2 ?_)
      rw [← hk, ← Option.some.inj h]
    · exact List.mem_append_left _ (ih h)

/-- The arrivals behind the last one of `k`. -/
def since (k : κ) (arrived : List κ) : List κ := arrived.rtakeWhile (· ≠ k)

/-- What holds of the map, its arrivals and the values put last. -/
structure Inv (n : ℕ) (s : List (κ × ν) × List κ) (last : κ → Option ν) : Prop where
  keys_eq : keys s.1 = s.2.drop (s.2.length - n)
  nodup : (keys s.1).Nodup
  value : ∀ k v, (k, v) ∈ s.1 → last k = some v
  seen : ∀ k, last k ≠ none → k ∈ s.2

omit [DecidableEq κ] in
theorem Inv.length_le {s : List (κ × ν) × List κ} {last : κ → Option ν} (h : Inv n s last) :
    s.1.length ≤ n := by
  have hlen := congrArg List.length h.keys_eq
  rw [keys, List.length_map, List.length_drop] at hlen
  omega

/-- One put keeps the invariant. -/
theorem Inv.record {s : List (κ × ν) × List κ} {last : κ → Option ν} (h : Inv n s last)
    (hn : 0 < n) (e : κ × ν) :
    Inv n (record n s e) fun k => if e.1 = k then some e.2 else last k := by
  obtain ⟨k, v⟩ := e
  have hseen : ∀ arrived : List κ, k ∈ arrived → (∀ k', k' ∈ s.2 → k' ∈ arrived) →
      ∀ k', (if k = k' then some v else last k') ≠ none → k' ∈ arrived := by
    intro arrived hk hsub k' hlast
    split_ifs at hlast with heq
    · exact heq ▸ hk
    · exact hsub k' (h.seen k' hlast)
  unfold FifoMap.record
  by_cases hk : k ∈ keys s.1
  · rw [if_pos hk]
    have hput := keys_put_of_mem (n := n) (v := v) h.nodup hk
    refine ⟨hput.trans h.keys_eq, hput.symm ▸ h.nodup, fun k' v' hmem => ?_, ?_⟩
    · rw [put_of_mem h.nodup hk] at hmem
      obtain ⟨e, he, heq⟩ := List.mem_map.1 hmem
      split_ifs at heq with hek
      · cases heq
        exact if_pos rfl
      · subst heq
        exact (if_neg fun heq => hek heq.symm).trans (h.value k' v' he)
    · refine hseen s.2 ?_ fun _ => id
      rw [h.keys_eq] at hk
      exact List.mem_of_mem_drop hk
  · rw [if_neg hk]
    have hput := put_of_not_mem_eq (v := v) h.length_le hk
    have hkeys : keys (put n s.1 k v) = (keys s.1).drop (s.1.length + 1 - n) ++ [k] := by
      rw [hput, keys, List.map_append, List.map_drop]
      rfl
    refine ⟨?_, ?_, fun k' v' hmem => ?_, ?_⟩
    · have hlen := congrArg List.length h.keys_eq
      rw [keys, List.length_map, List.length_drop] at hlen
      rw [hkeys, h.keys_eq, List.drop_drop, List.drop_append_of_le_length (by simp; omega)]
      simp only [List.length_append, List.length_singleton]
      congr 2
      omega
    · rw [hkeys, List.nodup_append]
      refine ⟨h.nodup.sublist (List.drop_sublist ..), List.nodup_singleton k, ?_⟩
      rintro a ha b hb rfl
      rw [List.mem_singleton] at hb
      exact hk (hb ▸ List.mem_of_mem_drop ha)
    · rw [hput, List.mem_append, List.mem_singleton] at hmem
      obtain hmem | heq := hmem
      · have hold := List.mem_of_mem_drop hmem
        have hne : k ≠ k' := fun heq => hk (heq ▸ List.mem_map.2 ⟨_, hold, rfl⟩)
        exact (if_neg hne).trans (h.value k' v' hold)
      · cases heq
        exact if_pos rfl
    · exact hseen _ (by simp) fun k' hk' => List.mem_append_left _ hk'

theorem inv_history (hn : 0 < n) (puts : List (κ × ν)) :
    Inv n (history n puts) fun k => latest k puts := by
  induction puts using List.reverseRecOn with
  | nil =>
    exact ⟨by simp [history, keys], List.nodup_nil, fun _ _ h => (by cases h), fun _ h => absurd rfl h⟩
  | append_singleton puts e ih =>
    have hstep := ih.record hn e
    simp only [history, latest, List.foldl_append, List.foldl_cons, List.foldl_nil]
    exact hstep

/-- The keys in the map are the last `n` arrivals. -/
theorem keys_after (hn : 0 < n) (puts : List (κ × ν)) :
    keys (after n puts) = (arrivals n puts).drop ((arrivals n puts).length - n) :=
  (inv_history hn puts).keys_eq

/-- The last arrival of a key splits the arrivals. -/
theorem append_since {arrived : List κ} (h : k ∈ arrived) :
    ∃ before, arrived = before ++ k :: since k arrived := by
  induction arrived using List.reverseRecOn with
  | nil => cases h
  | append_singleton arrived a ih =>
    by_cases ha : a = k
    · subst ha
      refine ⟨arrived, ?_⟩
      rw [since, List.rtakeWhile_concat_neg _ _ _ (by simp)]
    · obtain ⟨before, heq⟩ := ih (by
        obtain h | h := List.mem_append.1 h
        · exact h
        · exact absurd (List.mem_singleton.1 h).symm ha)
      refine ⟨before, ?_⟩
      rw [since, List.rtakeWhile_concat_pos _ _ _ (by simpa using ha)]
      conv_lhs => rw [heq]
      rw [since, List.append_assoc, List.cons_append]

theorem not_mem_since {arrived : List κ} : k ∉ since k arrived := by
  intro h
  simpa using List.mem_rtakeWhile_imp h

/-- **What is still there.**  A key has its last value in the map as long as fewer than `n`
different keys have arrived since its own last arrival, and none after that. -/
theorem find_after (hn : 0 < n) (puts : List (κ × ν)) (k : κ) :
    find (after n puts) k =
      if (since k (arrivals n puts)).toFinset.card < n then latest k puts else none := by
  have h := inv_history hn puts
  change Inv n (after n puts, arrivals n puts) _ at h
  generalize after n puts = m at h ⊢
  generalize arrivals n puts = arrived at h ⊢
  have hkeys : keys m = arrived.drop (arrived.length - n) := h.keys_eq
  have hnodup : (keys m).Nodup := h.nodup
  by_cases hk : k ∈ arrived
  · obtain ⟨before, heq⟩ := append_since hk
    generalize hs : since k arrived = later at heq ⊢
    have hnotin : k ∉ later := hs ▸ not_mem_since
    have hlen : arrived.length = before.length + (later.length + 1) := by
      rw [heq, List.length_append, List.length_cons]
    by_cases hlater : later.length < n
    · have hdrop : keys m = before.drop (arrived.length - n) ++ k :: later := by
        rw [hkeys]
        conv_lhs => rw [heq]
        rw [List.drop_append_of_le_length (by simp; omega), ← heq]
      have hmem : k ∈ keys m := by simp [hdrop]
      obtain ⟨e, he, rfl⟩ := List.mem_map.1 hmem
      have hnodup' : later.Nodup := by
        rw [hdrop] at hnodup
        exact (List.nodup_cons.1 (List.nodup_append.1 hnodup).2.1).2
      rw [List.toFinset_card_of_nodup hnodup', if_pos hlater, find_of_mem hnodup he]
      exact (h.value e.1 e.2 he).symm
    · -- the keys in the map all arrived behind `k`, and there are `n` of them
      have hdrop : keys m = later.drop (later.length - n) := by
        rw [hkeys]
        conv_lhs => rw [heq]
        rw [List.drop_append, List.drop_eq_nil_of_le (by simp; omega), List.nil_append,
          show (before ++ k :: later).length - n - before.length = later.length - n + 1 by
            simp; omega, List.drop_succ_cons]
      have hcard : n ≤ later.toFinset.card := by
        have hkeysCard : (keys m).toFinset.card = n := by
          rw [List.toFinset_card_of_nodup hnodup, hdrop, List.length_drop]
          omega
        rw [← hkeysCard]
        refine Finset.card_le_card fun x hx => ?_
        rw [List.mem_toFinset, hdrop] at hx
        exact List.mem_toFinset.2 (List.mem_of_mem_drop hx)
      rw [if_neg (Nat.not_lt.2 hcard), find_of_not_mem]
      rw [hdrop]
      exact fun hmem => hnotin (List.mem_of_mem_drop hmem)
  · have hnone : latest k puts = none := by
      by_contra hne
      exact hk (h.seen k hne)
    rw [hnone, ite_self, find_of_not_mem]
    rw [hkeys]
    exact fun hmem => hk (List.mem_of_mem_drop hmem)

/-- What is there was put last. -/
theorem latest_of_find (hn : 0 < n) {puts : List (κ × ν)} (h : find (after n puts) k = some v) :
    latest k puts = some v := by
  rw [find_after hn] at h
  split_ifs at h
  exact h

end FifoMap

end Lib
