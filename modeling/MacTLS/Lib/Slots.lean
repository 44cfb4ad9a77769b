import Mathlib.Logic.Function.Basic
import Mathlib.Data.List.Basic

/-!
# Maps in a fixed number of slots

A store with a fixed number of slots, each empty or with an entry that is filed under the key
`key e`.  An entry goes over the one with its key, else into an empty slot, else over a slot that
a replacement policy names.

* `Slots.lookup` : the entry under a key, what the store is as a map;
* `Slots.Distinct` : no key is in two slots;
* `Slots.target_cases` : where an entry goes;
* `Slots.inserted_store` : as a map the store takes the entry up, and loses another one only when
  every slot was in use.
-/

namespace Lib

namespace Slots

variable {κ ε : Type*} [DecidableEq κ] (key : ε → κ)

/-! ### Looking up -/

/-- The slot has an entry under `k`. -/
def holds (k : κ) : Option ε → Bool
  | none => false
  | some e => key e = k

/-- The entry under `k`, of the first slot that has one. -/
def lookup (slots : List (Option ε)) (k : κ) : Option ε :=
  (slots.findIdx? (holds key k)).bind fun i => slots.getD i none

/-- No key is in two slots. -/
def Distinct (slots : List (Option ε)) : Prop :=
  ∀ (i j : ℕ) (e f : ε), slots[i]? = some (some e) → slots[j]? = some (some f) → key e = key f → i = j

variable {key} {slots : List (Option ε)}

@[simp] theorem holds_some {k : κ} {e : ε} : holds key k (some e) = true ↔ key e = k := by
  simp [holds]

theorem exists_of_holds {k : κ} {s : Option ε} (h : holds key k s = true) :
    ∃ e, s = some e ∧ key e = k := by
  cases s with
  | none => cases h
  | some e => exact ⟨e, rfl, holds_some.1 h⟩

/-- The slot that a search stops at. -/
theorem findIdx_eq_some {k : κ} {i : ℕ} (h : slots.findIdx? (holds key k) = some i) :
    ∃ e, slots[i]? = some (some e) ∧ key e = k := by
  obtain ⟨hlt, hholds, -⟩ := List.findIdx?_eq_some_iff_getElem.1 h
  obtain ⟨e, he, hk⟩ := exists_of_holds hholds
  exact ⟨e, by rw [List.getElem?_eq_getElem hlt, he], hk⟩

theorem findIdx_eq_none {k : κ} (h : slots.findIdx? (holds key k) = none) (i : ℕ) (e : ε)
    (he : slots[i]? = some (some e)) : key e ≠ k := fun hk => by
  have hmem := List.mem_of_getElem? he
  exact absurd (holds_some.2 hk) (by simp [List.findIdx?_eq_none_iff.1 h _ hmem])

theorem lookup_eq_none {k : κ} :
    lookup key slots k = none ↔ slots.findIdx? (holds key k) = none := by
  constructor
  · intro h
    by_contra hne
    obtain ⟨i, hi⟩ := Option.ne_none_iff_exists'.1 hne
    obtain ⟨e, he, -⟩ := findIdx_eq_some hi
    rw [lookup, hi, Option.bind_some, List.getD_eq_getElem?_getD, he] at h
    cases h
  · intro h
    rw [lookup, h]
    rfl

/-- What is found is in a slot, under the key it was sought by. -/
theorem lookup_eq_some {k : κ} {e : ε} (h : lookup key slots k = some e) :
    key e = k ∧ ∃ i : ℕ, slots.findIdx? (holds key k) = some i ∧ slots[i]? = some (some e) := by
  obtain ⟨i, hi, he⟩ := Option.bind_eq_some_iff.1 h
  obtain ⟨f, hf, hk⟩ := findIdx_eq_some hi
  rw [List.getD_eq_getElem?_getD, hf, Option.getD_some] at he
  cases he
  exact ⟨hk, i, hi, hf⟩

/-- With distinct keys, a map is read off its slots. -/
theorem Distinct.lookup_iff (h : Distinct key slots) {k : κ} {e : ε} :
    lookup key slots k = some e ↔ key e = k ∧ ∃ i : ℕ, slots[i]? = some (some e) := by
  constructor
  · intro he
    obtain ⟨hk, i, -, hi⟩ := lookup_eq_some he
    exact ⟨hk, i, hi⟩
  · rintro ⟨rfl, i, hi⟩
    cases hfind : slots.findIdx? (holds key (key e)) with
    | none => exact absurd rfl (findIdx_eq_none hfind i e hi)
    | some j =>
      obtain ⟨f, hj, hf⟩ := findIdx_eq_some hfind
      rw [h j i f e hj hi hf] at hfind
      rw [lookup, hfind, Option.bind_some, List.getD_eq_getElem?_getD, hi, Option.getD_some]

/-! ### Storing -/

/-- Where an entry under `k` goes. -/
def target (key : ε → κ) (slots : List (Option ε)) (victim : ℕ) (k : κ) : ℕ :=
  match slots.findIdx? (holds key k) with
  | some i => i
  | none => match slots.findIdx? Option.isNone with
    | some i => i
    | none => victim

/-- Store an entry. -/
def store (key : ε → κ) (slots : List (Option ε)) (victim : ℕ) (e : ε) : List (Option ε) :=
  slots.set (target key slots victim (key e)) (some e)

/-- Every slot is in use. -/
def Full (slots : List (Option ε)) : Prop := none ∉ slots

/-- The three places an entry can go to. -/
inductive Stored (key : ε → κ) (slots : List (Option ε)) (victim : ℕ) (k : κ) (i : ℕ) : Prop
  | present (f : ε) (hf : slots[i]? = some (some f)) (hk : key f = k)
  | room (hnone : slots[i]? = some none) (habsent : slots.findIdx? (holds key k) = none)
  | evicted (hfull : Full slots) (hi : i = victim)
    (habsent : slots.findIdx? (holds key k) = none)

theorem target_cases (slots : List (Option ε)) (victim : ℕ) (k : κ) :
    Stored key slots victim k (target key slots victim k) := by
  unfold target
  split
  · rename_i i hi
    obtain ⟨f, hf, hk⟩ := findIdx_eq_some hi
    exact .present f hf hk
  · rename_i habsent
    split
    · rename_i i hi
      obtain ⟨hlt, hnone, -⟩ := List.findIdx?_eq_some_iff_getElem.1 hi
      rw [Option.isNone_iff_eq_none] at hnone
      exact .room (by rw [List.getElem?_eq_getElem hlt, hnone]) habsent
    · rename_i hfull
      refine .evicted (fun hmem => ?_) rfl habsent
      exact absurd (List.findIdx?_eq_none_iff.1 hfull _ hmem) (by simp)

/-- In a full store a new key takes the slot that the policy names. -/
theorem target_of_full {victim : ℕ} {k : κ} (hfull : Full slots)
    (h : lookup key slots k = none) : target key slots victim k = victim := by
  have habsent := lookup_eq_none.1 h
  obtain ⟨f, hf, hk⟩ | ⟨hnone, -⟩ | ⟨-, hi, -⟩ := (target_cases slots victim k : Stored key slots victim k _)
  · exact absurd hk (findIdx_eq_none habsent _ f hf)
  · exact absurd (List.mem_of_getElem? hnone) hfull
  · exact hi

theorem Stored.lt {victim i : ℕ} {k : κ} (h : Stored key slots victim k i)
    (hvictim : victim < slots.length) : i < slots.length := by
  obtain ⟨f, hf, -⟩ | ⟨hnone, -⟩ | ⟨-, rfl, -⟩ := h
  · exact (List.getElem?_eq_some_iff.1 hf).1
  · exact (List.getElem?_eq_some_iff.1 hnone).1
  · exact hvictim

/-- No other slot has the key of the entry that is stored. -/
theorem Stored.only {victim i : ℕ} {k : κ} (h : Stored key slots victim k i)
    (hd : Distinct key slots) (j : ℕ) (f : ε) (hj : slots[j]? = some (some f)) (hk : key f = k) :
    j = i := by
  obtain ⟨g, hg, hgk⟩ | ⟨-, habsent⟩ | ⟨-, -, habsent⟩ := h
  · exact hd j i f g hj hg (hk.trans hgk.symm)
  all_goals exact absurd hk (findIdx_eq_none habsent j f hj)

/-! ### A slot that changes -/

section Set

variable {i : ℕ} {s : Option ε}

theorem getElem?_set_some {j : ℕ} {g : ε} (h : (slots.set i s)[j]? = some (some g)) :
    (j = i ∧ s = some g) ∨ (j ≠ i ∧ slots[j]? = some (some g)) := by
  rw [List.getElem?_set] at h
  split_ifs at h with hij hlt
  · exact .inl ⟨hij.symm, Option.some.inj h⟩
  · exact .inr ⟨fun hji => hij hji.symm, h⟩

omit [DecidableEq κ] in
/-- A slot may take an entry whose key no other slot has. -/
theorem Distinct.set (h : Distinct key slots)
    (honly : ∀ e j f, s = some e → slots[j]? = some (some f) → key f = key e → j = i) :
    Distinct key (slots.set i s) := by
  intro j j' e f he hf hkey
  obtain ⟨rfl, hse⟩ | ⟨-, hje⟩ := getElem?_set_some he
  · obtain ⟨rfl, -⟩ | ⟨-, hjf⟩ := getElem?_set_some hf
    · rfl
    · exact (honly e j' f hse hjf hkey.symm).symm
  · obtain ⟨rfl, hsf⟩ | ⟨-, hjf⟩ := getElem?_set_some hf
    · exact honly f j e hsf hje hkey
    · exact h j j' e f hje hjf hkey

theorem lookup_set_self {e : ε} (h : Distinct key (slots.set i (some e))) (hi : i < slots.length) :
    lookup key (slots.set i (some e)) (key e) = some e :=
  h.lookup_iff.2 ⟨rfl, i, by rw [List.getElem?_set_self hi]⟩

/-- A key that is neither the old nor the new one of the slot keeps its entry. -/
theorem lookup_set_of_ne {k : κ} (h : Distinct key slots) (hset : Distinct key (slots.set i s))
    (hnew : ∀ e, s = some e → key e ≠ k) (hold : ∀ f, slots[i]? = some (some f) → key f ≠ k) :
    lookup key (slots.set i s) k = lookup key slots k := by
  refine Option.ext fun g => ?_
  rw [hset.lookup_iff, h.lookup_iff]
  refine and_congr_right fun hk => ⟨?_, ?_⟩
  · rintro ⟨j, hj⟩
    obtain ⟨-, hs⟩ | ⟨-, hj⟩ := getElem?_set_some hj
    · exact absurd hk (hnew g hs)
    · exact ⟨j, hj⟩
  · rintro ⟨j, hj⟩
    have hij : i ≠ j := by
      rintro rfl
      exact hold g hj hk
    exact ⟨j, by rw [List.getElem?_set_ne hij, hj]⟩

/-- The key that the slot had is gone, unless it is also the new one. -/
theorem lookup_set_gone {f : ε} (h : Distinct key slots) (hset : Distinct key (slots.set i s))
    (hi : slots[i]? = some (some f)) (hnew : ∀ e, s = some e → key e ≠ key f) :
    lookup key (slots.set i s) (key f) = none := by
  refine Option.eq_none_iff_forall_ne_some.2 fun g hg => ?_
  obtain ⟨hk, j, hj⟩ := hset.lookup_iff.1 hg
  obtain ⟨-, hs⟩ | ⟨hji, hj⟩ := getElem?_set_some hj
  · exact hnew g hs hk
  · exact hji (h j i g f hj hi hk)

end Set

/-! ### The store as a map -/

/-- Freeing the slot of an entry takes its key out of the map. -/
theorem lookup_free {i : ℕ} {f : ε} (h : Distinct key slots) (hi : slots[i]? = some (some f)) :
    Distinct key (slots.set i none) ∧
      lookup key (slots.set i none) = Function.update (lookup key slots) (key f) none := by
  have hset : Distinct key (slots.set i none) := h.set fun _ _ _ he => by cases he
  refine ⟨hset, funext fun k => ?_⟩
  by_cases hk : k = key f
  · rw [hk, Function.update_self, lookup_set_gone h hset hi fun _ he => by cases he]
  · rw [Function.update_of_ne hk]
    refine lookup_set_of_ne h hset (fun _ he => by cases he) fun g hg hgk => hk ?_
    rw [hi] at hg
    cases hg
    exact hgk.symm

/-- What storing `e` does to a map: another key is lost only if the store is full and does not
have the key of `e`. -/
inductive Inserted (key : ε → κ) (full : Prop) (m : κ → Option ε) (e : ε) :
    (κ → Option ε) → Prop
  | kept (h : (m (key e)).isSome ∨ ¬full) : Inserted key full m e
      (Function.update m (key e) (some e))
  | evicted (f : ε) (hf : m (key f) = some f) (hne : key f ≠ key e) (habsent : m (key e) = none)
      (hfull : full) : Inserted key full m e
      (Function.update (Function.update m (key f) none) (key e) (some e))

namespace Inserted

variable {full : Prop} {m m' : κ → Option ε} {e : ε}

theorem self (h : Inserted key full m e m') : m' (key e) = some e := by
  cases h <;> exact Function.update_self ..

/-- Nothing else comes into the map. -/
theorem of_ne (h : Inserted key full m e m') {k : κ} (hk : k ≠ key e) {f : ε}
    (hf : m' k = some f) : m k = some f := by
  cases h with
  | kept => rwa [Function.update_of_ne hk] at hf
  | evicted g =>
    rw [Function.update_of_ne hk] at hf
    by_cases hg : k = key g
    · rw [hg, Function.update_self] at hf
      cases hf
    · rwa [Function.update_of_ne hg] at hf

end Inserted

theorem inserted_store {victim : ℕ} (h : Distinct key slots) (hvictim : victim < slots.length)
    (e : ε) :
    Distinct key (store key slots victim e) ∧
      Inserted key (Full slots) (lookup key slots) e (lookup key (store key slots victim e)) := by
  have hcase : Stored key slots victim (key e) _ := target_cases slots victim (key e)
  have hlt := hcase.lt hvictim
  have hset : Distinct key (store key slots victim e) :=
    h.set fun _ j f he hj hk => hcase.only h j f hj (by cases he; exact hk)
  refine ⟨hset, ?_⟩
  unfold store at hset ⊢
  generalize target key slots victim (key e) = i at hcase hlt hset
  have hself := lookup_set_self hset hlt
  -- a slot that had no other key leaves the rest of the map as it was
  have hkept : (∀ f, slots[i]? = some (some f) → key f = key e) →
      lookup key (slots.set i (some e)) =
        Function.update (lookup key slots) (key e) (some e) := by
    intro hold
    funext k
    by_cases hk : k = key e
    · rw [hk, Function.update_self, hself]
    · rw [Function.update_of_ne hk]
      refine lookup_set_of_ne h hset (fun g hg => ?_) fun f hf hfk => hk ?_
      · cases hg
        exact fun heq => hk heq.symm
      · rw [← hfk, hold f hf]
  obtain ⟨f, hf, hk⟩ | ⟨hnone, habsent⟩ | ⟨hfull, -, habsent⟩ := hcase
  · rw [hkept fun g hg => by rw [hf] at hg; cases hg; exact hk]
    exact .kept (.inl (by rw [h.lookup_iff.2 ⟨hk, i, hf⟩]; rfl))
  · rw [hkept fun g hg => by rw [hnone] at hg; cases hg]
    exact .kept (.inr fun hfull => hfull (List.mem_of_getElem? hnone))
  · obtain ⟨f, hf⟩ : ∃ f, slots[i]? = some (some f) := by
      rw [List.getElem?_eq_getElem hlt]
      cases hs : slots[i] with
      | none => exact absurd (hs ▸ List.getElem_mem hlt) hfull
      | some f => exact ⟨f, rfl⟩
    have hne : key f ≠ key e := findIdx_eq_none habsent i f hf
    have heq : lookup key (slots.set i (some e)) =
        Function.update (Function.update (lookup key slots) (key f) none) (key e) (some e) := by
      funext k
      by_cases hk : k = key e
      · rw [hk, Function.update_self, hself]
      rw [Function.update_of_ne hk]
      have hnew : ∀ g, some e = some g → key g ≠ k := fun g hg => by
        cases hg
        exact fun heq => hk heq.symm
      by_cases hkf : k = key f
      · subst hkf
        rw [Function.update_self, lookup_set_gone h hset hf hnew]
      · rw [Function.update_of_ne hkf]
        refine lookup_set_of_ne h hset hnew fun g hg hgk => hkf ?_
        rw [hf] at hg
        cases hg
        exact hgk.symm
    rw [heq]
    exact .evicted f (h.lookup_iff.2 ⟨rfl, i, hf⟩) hne (lookup_eq_none.2 habsent) hfull

end Slots

end Lib
