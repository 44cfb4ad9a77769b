import MacTLS.Handshake.ServerHello

/-!
# What of a ServerHello record is acted on

The transcript takes the declared length of a ServerHello, the parser's bounds are those of the
record.  Two records that agree up to the declared end are therefore negotiated alike only when
the parser needs nothing behind it, and that is a condition on the declared message alone.

* `WellFormedExt` : what an extension must look like;
* `Hopeless` : the walk meets, inside the message, an extension nothing behind it can mend;
* `SelfContained` : the extension list ends with the message, or every continuation is refused;
* `negotiation_contained_iff` : exactly these messages are negotiated alike in every record.
-/

namespace MacTLS

open Lib

/-! ### Extensions -/

/-- The form of a key share: a group alone, or a group and a point on it. -/
def WellFormedShare (data : Bytes) : Prop :=
  data.length = 2 ∨ 2 < data.length ∧ tls13BrCurveForGroup (getU16 data 0) ≠ 0 ∧
    0 < getU16 data 2 ∧ data.length = 4 + getU16 data 2 ∧ getU16 data 2 ≤ publicSize

/-- The form of the data of an extension of the given type. -/
def WellFormedExt (type : ℕ) (data : Bytes) : Prop :=
  if type = tls13ExtSupportedVersions then data.length = 2
  else if type = tls13ExtKeyShare then WellFormedShare data
  else if type = tls13ExtCookie then getU16 data 0 + 2 = data.length
  else if type = tls13ExtPreSharedKey then data.length = 2
  else True

/-- The types that change the context as they are met. -/
def StoredExt (type : ℕ) : Prop := type = tls13ExtCookie ∨ type = tls13ExtPreSharedKey

/-- The walk has stored nothing in the context so far. -/
def ShExts.Clean (x : ShExts) : Prop := x.cookie = none ∧ x.selectedPsk = false

theorem shKeyShare_malformed {x : ShExts} {data : Bytes} (h : ¬WellFormedShare data) :
    shKeyShare x data = .error brErrBadParam := by
  unfold shKeyShare
  dsimp only
  split_ifs with h1 h2 h3 h4
  · rfl
  · exact (h (.inl h2)).elim
  · rfl
  · rfl
  · rw [not_or, not_or] at h4
    exact (h (.inr ⟨by omega, h3, by omega, by omega, by omega⟩)).elim

theorem shKeyShare_wellFormed {x : ShExts} {data : Bytes} (h : WellFormedShare data) :
    ∃ x', shKeyShare x data = .ok x' := by
  unfold shKeyShare
  dsimp only
  obtain h2 | ⟨hlt, hgroup, hpos, hlen, hmax⟩ := h
  · rw [if_neg (by omega), if_pos h2]
    exact ⟨_, rfl⟩
  · rw [if_neg (by omega), if_neg (by omega), if_neg hgroup, if_neg (by omega)]
    exact ⟨_, rfl⟩

theorem shKeyShare_clean {x x' : ShExts} {data : Bytes} (h : shKeyShare x data = .ok x') :
    x'.Clean ↔ x.Clean := by
  unfold shKeyShare at h
  dsimp only at h
  split_ifs at h <;> cases h <;> rfl

theorem shCookie_malformed {x : ShExts} {data : Bytes} (h : getU16 data 0 + 2 ≠ data.length) :
    shCookie x data = .error brErrBadParam := by
  unfold shCookie
  dsimp only
  rw [if_pos h, ite_self]

theorem shExtension_malformed {x : ShExts} {type : ℕ} {data : Bytes}
    (h : ¬WellFormedExt type data) : shExtension x type data = .error brErrBadParam := by
  unfold WellFormedExt at h
  unfold shExtension
  by_cases hsv : type = tls13ExtSupportedVersions
  · rw [if_pos hsv] at h ⊢
    rw [if_pos h]
  rw [if_neg hsv] at h ⊢
  by_cases hks : type = tls13ExtKeyShare
  · rw [if_pos hks] at h ⊢
    exact shKeyShare_malformed h
  rw [if_neg hks] at h ⊢
  by_cases hcookie : type = tls13ExtCookie
  · rw [if_pos hcookie] at h ⊢
    exact shCookie_malformed h
  rw [if_neg hcookie] at h ⊢
  by_cases hpsk : type = tls13ExtPreSharedKey
  · rw [if_pos hpsk] at h ⊢
    rw [if_pos h]
  · rw [if_neg hpsk] at h
    exact (h trivial).elim

/-- Well-formed data is accepted, but for a cookie that is too large. -/
theorem shExtension_wellFormed (x : ShExts) {type : ℕ} {data : Bytes}
    (h : WellFormedExt type data) :
    (∃ x', shExtension x type data = .ok x') ∨
      StoredExt type ∧ shExtension x type data = .error brErrTooLarge := by
  unfold WellFormedExt at h
  unfold shExtension
  by_cases hsv : type = tls13ExtSupportedVersions
  · rw [if_pos hsv] at h ⊢
    exact .inl ⟨_, if_neg (not_not.2 h)⟩
  rw [if_neg hsv] at h ⊢
  by_cases hks : type = tls13ExtKeyShare
  · rw [if_pos hks] at h ⊢
    exact .inl (shKeyShare_wellFormed h)
  rw [if_neg hks] at h ⊢
  by_cases hcookie : type = tls13ExtCookie
  · rw [if_pos hcookie] at h ⊢
    unfold shCookie
    dsimp only
    rw [if_neg (by omega), if_neg (not_not.2 h)]
    split_ifs
    · exact .inr ⟨.inl hcookie, rfl⟩
    · exact .inl ⟨_, rfl⟩
  rw [if_neg hcookie] at h ⊢
  by_cases hpsk : type = tls13ExtPreSharedKey
  · rw [if_pos hpsk] at h ⊢
    exact .inl ⟨_, if_neg (not_not.2 h)⟩
  · rw [if_neg hpsk]
    exact .inl ⟨x, rfl⟩

/-- Only the two stored types leave a mark. -/
theorem shExtension_clean {x x' : ShExts} {type : ℕ} {data : Bytes}
    (h : shExtension x type data = .ok x') : x'.Clean ↔ x.Clean ∧ ¬StoredExt type := by
  unfold shExtension at h
  by_cases hsv : type = tls13ExtSupportedVersions
  · rw [if_pos hsv] at h
    split_ifs at h
    cases h
    simp [ShExts.Clean, StoredExt, hsv, tls13ExtSupportedVersions, tls13ExtCookie,
      tls13ExtPreSharedKey]
  rw [if_neg hsv] at h
  by_cases hks : type = tls13ExtKeyShare
  · rw [if_pos hks] at h
    rw [shKeyShare_clean h]
    simp [StoredExt, hks, tls13ExtKeyShare, tls13ExtCookie, tls13ExtPreSharedKey]
  rw [if_neg hks] at h
  by_cases hcookie : type = tls13ExtCookie
  · rw [if_pos hcookie] at h
    unfold shCookie at h
    dsimp only at h
    split_ifs at h
    cases h
    simp [ShExts.Clean, StoredExt, hcookie]
  rw [if_neg hcookie] at h
  by_cases hpsk : type = tls13ExtPreSharedKey
  · rw [if_pos hpsk] at h
    split_ifs at h
    cases h
    simp [ShExts.Clean, StoredExt, hpsk]
  · rw [if_neg hpsk] at h
    cases h
    simp [StoredExt, hcookie, hpsk]

/-! ### The walk -/

/-- The extension at `pos` ends by `extEnd`, and its data is well formed. -/
def GoodExtAt (msg : Bytes) (extEnd pos : ℕ) : Prop :=
  pos + 4 + getU16 msg (pos + 2) ≤ extEnd ∧
    WellFormedExt (getU16 msg pos) (slice msg (pos + 4) (getU16 msg (pos + 2)))

/-- From `pos` on the walk over the message `p`, whose extension list goes on to `extEnd`, meets
an extension that no continuation of `p` makes good, and before it no extension that is stored. -/
inductive Hopeless (p : Bytes) (extEnd : ℕ) : ℕ → Prop
  | malformed {pos : ℕ} (hroom : pos + 4 ≤ extEnd)
      (h : ∀ q, p <+: q → q.length = extEnd → ¬GoodExtAt q extEnd pos) : Hopeless p extEnd pos
  | next {pos : ℕ} (hin : pos + 4 + getU16 p (pos + 2) ≤ p.length)
      (htype : ¬StoredExt (getU16 p pos))
      (h : Hopeless p extEnd (pos + 4 + getU16 p (pos + 2))) : Hopeless p extEnd pos

/-- One turn of the walk. -/
theorem shExtLoop_succ (msg : Bytes) (extEnd fuel pos : ℕ) (x : ShExts) (h : pos + 4 ≤ extEnd) :
    shExtLoop msg extEnd (fuel + 1) pos x =
      if pos + 4 + getU16 msg (pos + 2) > extEnd then (x, some brErrBadParam)
      else match shExtension x (getU16 msg pos) (slice msg (pos + 4) (getU16 msg (pos + 2))) with
        | .error err => (x, some err)
        | .ok x => shExtLoop msg extEnd fuel (pos + 4 + getU16 msg (pos + 2)) x := by
  rw [shExtLoop]
  exact if_pos h

theorem shExtLoop_end {msg : Bytes} {extEnd pos : ℕ} (h : extEnd < pos + 4) (fuel : ℕ)
    (x : ShExts) : shExtLoop msg extEnd fuel pos x = (x, none) := by
  cases fuel with
  | zero => rfl
  | succ fuel => simp only [shExtLoop, if_neg (Nat.not_le.2 h)]

/-- A mark that the walk has left stays. -/
theorem clean_of_shExtLoop {msg : Bytes} {extEnd fuel pos : ℕ} {x x' : ShExts} {err : Option ℕ}
    (h : shExtLoop msg extEnd fuel pos x = (x', err)) (hc : x'.Clean) : x.Clean := by
  induction fuel generalizing pos x with
  | zero => cases h; exact hc
  | succ fuel ih =>
    by_cases hroom : pos + 4 ≤ extEnd
    · rw [shExtLoop_succ _ _ _ _ _ hroom] at h
      split_ifs at h
      · cases h; exact hc
      · split at h
        · cases h; exact hc
        · next hx => exact ((shExtension_clean hx).1 (ih h)).1
    · rw [shExtLoop_end (by omega)] at h
      cases h; exact hc

/-- Over zeros the walk meets empty extensions of an ignored type. -/
theorem shExtLoop_zeros {msg : Bytes} {extEnd pos : ℕ} (h : ∀ i, pos ≤ i → byteAt msg i = 0)
    (fuel : ℕ) (x : ShExts) : shExtLoop msg extEnd fuel pos x = (x, none) := by
  induction fuel generalizing pos with
  | zero => rfl
  | succ fuel ih =>
    by_cases hroom : pos + 4 ≤ extEnd
    · have hzero : ∀ i, pos ≤ i → getU16 msg i = 0 := fun i hi => by
        rw [getU16, h i hi, h (i + 1) (by omega)]; rfl
      rw [shExtLoop_succ _ _ _ _ _ hroom, hzero pos (Nat.le_refl pos), hzero (pos + 2) (by omega),
        if_neg (by omega)]
      exact ih fun i hi => h i (by omega)
    · exact shExtLoop_end (by omega) _ _

/-- A good extension is met, and the walk goes on behind it; a cookie may be too large. -/
theorem shExtLoop_good {msg : Bytes} {extEnd pos : ℕ} (fuel : ℕ) (x : ShExts)
    (h : GoodExtAt msg extEnd pos) :
    (∃ x', (x'.Clean → ¬StoredExt (getU16 msg pos)) ∧ shExtLoop msg extEnd (fuel + 1) pos x =
        shExtLoop msg extEnd fuel (pos + 4 + getU16 msg (pos + 2)) x') ∨
      shExtLoop msg extEnd (fuel + 1) pos x = (x, some brErrTooLarge) := by
  obtain ⟨hfit, hform⟩ := h
  rw [shExtLoop_succ _ _ _ _ _ (by omega), if_neg (by omega)]
  obtain ⟨x', hx⟩ | ⟨-, hx⟩ := shExtension_wellFormed x hform
  · exact .inl ⟨x', fun hc => ((shExtension_clean hx).1 hc).2, by rw [hx]⟩
  · exact .inr (by rw [hx])

/-- What lies before the end of the list is all the walk reads. -/
theorem goodExtAt_append {b t : Bytes} {extEnd pos : ℕ} (h : extEnd ≤ b.length)
    (hroom : pos + 4 ≤ extEnd) : GoodExtAt (b ++ t) extEnd pos ↔ GoodExtAt b extEnd pos := by
  unfold GoodExtAt
  rw [getU16_append (by omega), getU16_append (by omega)]
  refine and_congr_right fun hfit => ?_
  rw [slice_append (by omega)]

theorem shExtLoop_append {b t : Bytes} {extEnd : ℕ} (h : extEnd ≤ b.length) (fuel pos : ℕ)
    (x : ShExts) : shExtLoop (b ++ t) extEnd fuel pos x = shExtLoop b extEnd fuel pos x := by
  induction fuel generalizing pos x with
  | zero => rfl
  | succ fuel ih =>
    by_cases hroom : pos + 4 ≤ extEnd
    · rw [shExtLoop_succ _ _ _ _ _ hroom, shExtLoop_succ _ _ _ _ _ hroom,
        getU16_append (by omega), getU16_append (by omega)]
      by_cases hfit : pos + 4 + getU16 b (pos + 2) > extEnd
      · rw [if_pos hfit, if_pos hfit]
      · rw [if_neg hfit, if_neg hfit, slice_append (by omega)]
        split
        · rfl
        · exact ih _ _
    · rw [shExtLoop_end (by omega), shExtLoop_end (by omega)]

/-- From a hopeless place the walk is refused, and leaves no mark. -/
theorem Hopeless.refused {p t : Bytes} {extEnd pos fuel : ℕ} {x : ShExts}
    (h : Hopeless p extEnd pos) (hp : p.length ≤ extEnd) (ht : extEnd ≤ (p ++ t).length)
    (hfuel : extEnd ≤ pos + fuel) (hx : x.Clean) :
    ∃ x', shExtLoop (p ++ t) extEnd fuel pos x = (x', some brErrBadParam) ∧ x'.Clean := by
  induction h generalizing fuel x with
  | @malformed pos hroom h =>
    obtain ⟨fuel, rfl⟩ : ∃ k, fuel = k + 1 := ⟨fuel - 1, by omega⟩
    have hbad : ¬GoodExtAt (p ++ t) extEnd pos := by
      have hlen : ((p ++ t).take extEnd).length = extEnd := by
        rw [List.length_take]
        omega
      rw [← List.take_append_drop extEnd (p ++ t), goodExtAt_append (Nat.le_of_eq hlen.symm) hroom]
      exact h _ (List.prefix_take_iff.2 ⟨List.prefix_append _ _, hp⟩) hlen
    rw [shExtLoop_succ _ _ _ _ _ hroom]
    by_cases hfit : pos + 4 + getU16 (p ++ t) (pos + 2) > extEnd
    · exact ⟨x, if_pos hfit, hx⟩
    · have hmal := fun hw => hbad ⟨by omega, hw⟩
      rw [if_neg hfit, shExtension_malformed hmal]
      exact ⟨x, rfl, hx⟩
  | @next pos hin htype h ih =>
    obtain ⟨fuel, rfl⟩ : ∃ k, fuel = k + 1 := ⟨fuel - 1, by omega⟩
    rw [shExtLoop_succ _ _ _ _ _ (by omega), getU16_append (by omega), getU16_append (by omega),
      if_neg (by omega)]
    split
    · next err herr =>
      refine ⟨x, ?_, hx⟩
      by_cases hw : WellFormedExt (getU16 p pos) (slice (p ++ t) (pos + 4) (getU16 p (pos + 2)))
      · obtain ⟨x', hok⟩ | ⟨hst, -⟩ := shExtension_wellFormed x hw
        · rw [hok] at herr; cases herr
        · exact (htype hst).elim
      · rw [shExtension_malformed hw] at herr
        cases herr
        rfl
    · next x' hok =>
      exact ih (by omega) ((shExtension_clean hok).2 ⟨hx, htype⟩)

theorem byteAt_replicate_zero (n i : ℕ) : byteAt (List.replicate n 0) i = 0 := by
  simp only [byteAt, List.getD_eq_getElem?_getD, List.getElem?_replicate]
  split_ifs <;> rfl

/-- An extension that is good in one continuation, and not all inside the message, can be
followed by zeros alone. -/
theorem accepted_of_cut {p t : Bytes} {extEnd pos : ℕ} (hg : GoodExtAt (p ++ t) extEnd pos)
    (hcut : p.length < pos + 4 + getU16 (p ++ t) (pos + 2)) (hlen : (p ++ t).length = extEnd)
    (fuel : ℕ) (x : ShExts) :
    ∃ q, p <+: q ∧ q.length = extEnd ∧
      ∀ x', shExtLoop q extEnd (fuel + 1) pos x ≠ (x', some brErrBadParam) := by
  obtain ⟨e, he⟩ : ∃ e, e = pos + 4 + getU16 (p ++ t) (pos + 2) := ⟨_, rfl⟩
  have hfit : e ≤ extEnd := he ▸ hg.1
  have htake : ((p ++ t).take e).length = e := by rw [List.length_take]; omega
  have hhead : ∀ i, i + 2 ≤ e →
      getU16 ((p ++ t).take e ++ List.replicate (extEnd - e) 0) i = getU16 (p ++ t) i := by
    intro i hi
    conv_rhs => rw [← List.take_append_drop e (p ++ t)]
    rw [getU16_append (by omega), getU16_append (by omega)]
  refine ⟨(p ++ t).take e ++ List.replicate (extEnd - e) 0,
    (List.prefix_take_iff.2 ⟨List.prefix_append _ _, by omega⟩).trans (List.prefix_append _ _),
    by rw [List.length_append, htake, List.length_replicate]; omega, fun x' hx => ?_⟩
  have hgood : GoodExtAt ((p ++ t).take e ++ List.replicate (extEnd - e) 0) extEnd pos := by
    unfold GoodExtAt
    rw [hhead pos (by omega), hhead (pos + 2) (by omega), slice_append (by omega),
      slice_take (by omega)]
    exact hg
  obtain ⟨x₁, -, hx₁⟩ | hlarge := shExtLoop_good fuel x hgood
  · rw [hx₁, hhead (pos + 2) (by omega), ← he, shExtLoop_zeros] at hx
    · cases hx
    · intro i hi
      rw [byteAt_append_right (by omega), byteAt_replicate_zero]
  · rw [hlarge] at hx
    cases hx

/-- A walk that every continuation ends unmarked with a bad parameter is hopeless. -/
theorem hopeless_of_refused {p : Bytes} {extEnd pos fuel : ℕ} {x : ShExts}
    (hp : p.length ≤ extEnd)
    (h : ∀ q, p <+: q → q.length = extEnd →
      ∃ x', shExtLoop q extEnd fuel pos x = (x', some brErrBadParam) ∧ x'.Clean) :
    Hopeless p extEnd pos := by
  obtain ⟨q₀, hq₀, hlen₀⟩ : ∃ q₀, p <+: q₀ ∧ q₀.length = extEnd :=
    ⟨p ++ List.replicate (extEnd - p.length) 0, List.prefix_append _ _, by simp; omega⟩
  induction fuel generalizing pos x with
  | zero =>
    obtain ⟨x', hx, -⟩ := h q₀ hq₀ hlen₀
    cases hx
  | succ fuel ih =>
    by_cases hroom : pos + 4 ≤ extEnd
    · by_cases hgood : ∃ q, p <+: q ∧ q.length = extEnd ∧ GoodExtAt q extEnd pos
      · obtain ⟨_, ⟨t, rfl⟩, hq, hg⟩ := hgood
        by_cases hin : pos + 4 + getU16 (p ++ t) (pos + 2) ≤ p.length
        · -- the extension is part of the message, the same in every continuation
          rw [GoodExtAt, getU16_append (by omega), getU16_append (by omega),
            slice_append (by rwa [getU16_append (by omega)] at hin)] at hg
          rw [getU16_append (by omega)] at hin
          have hturn : ∀ q, p <+: q → shExtLoop q extEnd (fuel + 1) pos x =
              match shExtension x (getU16 p pos) (slice p (pos + 4) (getU16 p (pos + 2))) with
              | .error err => (x, some err)
              | .ok x => shExtLoop q extEnd fuel (pos + 4 + getU16 p (pos + 2)) x := by
            rintro _ ⟨u, rfl⟩
            rw [shExtLoop_succ _ _ _ _ _ hroom, getU16_append (by omega),
              getU16_append (by omega), if_neg (by omega), slice_append (by omega)]
          obtain ⟨x₁, hok⟩ | ⟨-, hlarge⟩ := shExtension_wellFormed x hg.2
          · rw [hok] at hturn
            obtain ⟨x', hx, hc⟩ := h q₀ hq₀ hlen₀
            have hrest : shExtLoop q₀ extEnd fuel (pos + 4 + getU16 p (pos + 2)) x₁ =
                (x', some brErrBadParam) := (hturn q₀ hq₀).symm.trans hx
            have hx₁ : x₁.Clean := clean_of_shExtLoop hrest hc
            refine .next hin ((shExtension_clean hok).1 hx₁).2 (ih (x := x₁) fun q hpq hlen => ?_)
            obtain ⟨x', hx, hc⟩ := h q hpq hlen
            exact ⟨x', (hturn q hpq).symm.trans hx, hc⟩
          · obtain ⟨x', hx, -⟩ := h q₀ hq₀ hlen₀
            rw [hturn q₀ hq₀, hlarge] at hx
            cases hx
        · obtain ⟨q, hpq, hlen, hne⟩ := accepted_of_cut hg (by omega) hq fuel x
          obtain ⟨x', hx, -⟩ := h q hpq hlen
          exact (hne x' hx).elim
      · exact .malformed hroom fun q hpq hq hg => hgood ⟨q, hpq, hq, hg⟩
    · obtain ⟨x', hx, -⟩ := h q₀ hq₀ hlen₀
      rw [shExtLoop_end (by omega)] at hx
      cases hx

/-! ### The fixed fields -/

/-- Offset of the compression method: behind the session id and the suite. -/
def compressionPos (p : Bytes) : ℕ := 41 + (byteAt p 38).toNat

/-- Offset of the first extension. -/
def extensionsPos (p : Bytes) : ℕ := compressionPos p + 3

/-- End of the extension list, as its length field says. -/
def extensionsEnd (p : Bytes) : ℕ := extensionsPos p + getU16 p (compressionPos p + 1)

/-- The parser's view of the fixed fields, once the record has room for them. -/
theorem shHead_eq {msg : Bytes} (hdecl : declaredLen msg ≤ msg.length)
    (hin : extensionsPos msg ≤ msg.length) :
    shHead msg =
      if byteAt msg 0 ≠ tls13HtServerHello then .refused brErrUnexpected
      else if getU16 msg 4 ≠ tls12Version then .refused brErrBadVersion
      else if byteAt msg (compressionPos msg) ≠ 0 then .refused brErrBadParam
      else if extensionsEnd msg > msg.length then .refused brErrBadParam
      else .fields (slice msg 6 32 = hrrRandom) (getU16 msg (39 + (byteAt msg 38).toNat))
        (extensionsPos msg) (extensionsEnd msg) := by
  unfold extensionsEnd extensionsPos compressionPos at *
  generalize hsid : (byteAt msg 38).toNat = sid at *
  unfold shHead
  dsimp only
  rw [hsid, if_neg (by omega), show 39 + sid + 2 = 41 + sid by omega,
    show 39 + sid + 5 = 41 + sid + 3 by omega, show 39 + sid + 3 = 41 + sid + 1 by omega]
  by_cases htype : byteAt msg 0 ≠ tls13HtServerHello
  · rw [if_pos htype, if_pos htype]
  rw [if_neg htype, if_neg htype, if_neg (by omega)]
  by_cases hversion : getU16 msg 4 ≠ tls12Version
  · rw [if_pos hversion, if_pos hversion]
  rw [if_neg hversion, if_neg hversion, if_neg (by omega), if_neg (by omega)]
  by_cases hcomp : byteAt msg (41 + sid) ≠ 0
  · rw [if_pos hcomp, if_pos (.inr hcomp)]
  · rw [if_neg hcomp, if_neg (by rw [not_or]; exact ⟨by omega, hcomp⟩), if_neg (by omega)]

section

variable {p : Bytes}

theorem declaredLen_append (hp : p.length = declaredLen p) (t : Bytes) :
    declaredLen (p ++ t) = p.length := by
  have h4 : 4 ≤ p.length := hp ▸ Nat.le_add_right 4 _
  rw [hp, declaredLen, getU24_append (by omega)]
  rfl

theorem take_declaredLen_append (hp : p.length = declaredLen p) (t : Bytes) :
    (p ++ t).take (declaredLen (p ++ t)) = p := by
  rw [declaredLen_append hp, List.take_left' rfl]

theorem compressionPos_append (h : 39 ≤ p.length) (t : Bytes) :
    compressionPos (p ++ t) = compressionPos p := by
  rw [compressionPos, byteAt_append (by omega)]
  rfl

theorem extensionsPos_append (h : 39 ≤ p.length) (t : Bytes) :
    extensionsPos (p ++ t) = extensionsPos p := by
  rw [extensionsPos, compressionPos_append h]
  rfl

theorem le_extensionsPos (p : Bytes) : 44 ≤ extensionsPos p := by
  unfold extensionsPos compressionPos
  omega

/-- The fixed fields when they all lie in the first bytes `p` of the record. -/
theorem shHead_append (hp : p.length = declaredLen p) (hin : extensionsPos p ≤ p.length)
    (t : Bytes) :
    shHead (p ++ t) =
      if byteAt p 0 ≠ tls13HtServerHello then .refused brErrUnexpected
      else if getU16 p 4 ≠ tls12Version then .refused brErrBadVersion
      else if byteAt p (compressionPos p) ≠ 0 then .refused brErrBadParam
      else if extensionsEnd p > (p ++ t).length then .refused brErrBadParam
      else .fields (slice p 6 32 = hrrRandom) (getU16 p (39 + (byteAt p 38).toNat))
        (extensionsPos p) (extensionsEnd p) := by
  have hlen : (p ++ t).length = p.length + t.length := List.length_append
  have h44 := le_extensionsPos p
  have hpos : extensionsPos p = compressionPos p + 3 := rfl
  have hsid : compressionPos p = 41 + (byteAt p 38).toNat := rfl
  have hend : extensionsEnd (p ++ t) = extensionsEnd p := by
    rw [extensionsEnd, extensionsPos_append (by omega), compressionPos_append (by omega),
      getU16_append (by omega)]
    rfl
  rw [shHead_eq (by rw [declaredLen_append hp]; omega)
    (by rw [extensionsPos_append (by omega)]; omega), hend, extensionsPos_append (by omega),
    compressionPos_append (by omega), byteAt_append (by omega), getU16_append (by omega),
    slice_append (by omega), byteAt_append (by omega), byteAt_append (by omega),
    getU16_append (by omega)]

/-- The fixed fields are refused in every record, or only for the end of the list. -/
theorem shHead_append_cases (hp : p.length = declaredLen p) (hin : extensionsPos p ≤ p.length) :
    (∃ err, ∀ t, shHead (p ++ t) = .refused err) ∨
      ∃ isHrr suite, ∀ t, shHead (p ++ t) =
        if extensionsEnd p > (p ++ t).length then .refused brErrBadParam
        else .fields isHrr suite (extensionsPos p) (extensionsEnd p) := by
  by_cases htype : byteAt p 0 ≠ tls13HtServerHello
  · exact .inl ⟨_, fun t => by rw [shHead_append hp hin, if_pos htype]⟩
  by_cases hversion : getU16 p 4 ≠ tls12Version
  · exact .inl ⟨_, fun t => by rw [shHead_append hp hin, if_neg htype, if_pos hversion]⟩
  by_cases hcomp : byteAt p (compressionPos p) ≠ 0
  · exact .inl ⟨_, fun t => by
      rw [shHead_append hp hin, if_neg htype, if_neg hversion, if_pos hcomp]⟩
  · exact .inr ⟨_, _, fun t => by
      rw [shHead_append hp hin, if_neg htype, if_neg hversion, if_neg hcomp]⟩

end

/-! ### Messages that carry all the parser acts on -/

/-- The largest payload a record header can announce. -/
def recordMax : ℕ := 65535

/-- The declared message `p` decides alone what becomes of a record that starts with it. -/
inductive SelfContained (p : Bytes) : Prop
  /-- A wrong type or version, in a message long enough for the parser to look at them. -/
  | header (hlen : 44 ≤ p.length)
      (h : byteAt p 0 ≠ tls13HtServerHello ∨ getU16 p 4 ≠ tls12Version)
  /-- A compression method that is not null. -/
  | compression (htype : byteAt p 0 = tls13HtServerHello) (hversion : getU16 p 4 = tls12Version)
      (hin : compressionPos p < p.length) (h : byteAt p (compressionPos p) ≠ 0)
  /-- The extension list ends inside the message. -/
  | contained (hin : extensionsPos p ≤ p.length) (h : extensionsEnd p ≤ p.length)
  /-- No record has room for the extension list. -/
  | tooLong (hin : extensionsPos p ≤ p.length) (h : recordMax < extensionsEnd p)
  /-- An extension inside the message is malformed whatever follows. -/
  | hopeless (hin : extensionsPos p ≤ p.length) (hcut : p.length < extensionsEnd p)
      (h : Hopeless p (extensionsEnd p) (extensionsPos p))

theorem parse_refused {C : Crypto} {hs : HsCtx} {msg : Bytes} {err : ℕ}
    (h : shHead msg = .refused err) : tls13ParseServerHello C hs msg = hs.fail err [] := by
  rw [tls13ParseServerHello, h]

theorem ShExts.Clean.applyExts {x : ShExts} (h : x.Clean) (hs : HsCtx) :
    hs.applyExts x = hs := by
  rw [HsCtx.applyExts, h.1, h.2, Bool.or_false]
  rfl

/-- A self-contained message is negotiated alike in every record. -/
theorem SelfContained.parse {p : Bytes} (h : SelfContained p) (hp : p.length = declaredLen p)
    (C : Crypto) (hs : HsCtx) :
    ∃ o, ∀ t, (p ++ t).length ≤ recordMax → tls13ParseServerHello C hs (p ++ t) = o := by
  have hlen : ∀ t : Bytes, (p ++ t).length = p.length + t.length := fun _ => List.length_append
  cases h with
  | header h44 hbad =>
    by_cases htype : byteAt p 0 ≠ tls13HtServerHello
    · refine ⟨hs.fail brErrUnexpected [], fun t _ => parse_refused ?_⟩
      rw [shHead, if_neg (by rw [hlen]; omega), byteAt_append (by omega), if_pos htype]
    · have hversion := hbad.resolve_left htype
      refine ⟨hs.fail brErrBadVersion [], fun t _ => parse_refused ?_⟩
      rw [shHead, if_neg (by rw [hlen]; omega), byteAt_append (by omega), if_neg htype,
        declaredLen_append hp, if_neg (by rw [hlen]; omega), getU16_append (by omega),
        if_pos hversion]
  | compression htype hversion hin hne =>
    refine ⟨hs.fail brErrBadParam [], fun t _ => parse_refused ?_⟩
    have hlt := hlen t
    unfold compressionPos at hin hne
    unfold shHead
    dsimp only
    rw [byteAt_append (by omega), declaredLen_append hp, getU16_append (by omega),
      byteAt_append (by omega : 38 < p.length), byteAt_append (by omega : 39 + _ + 2 < p.length),
      Nat.add_right_comm 39 _ 2, if_pos (c := _ ∨ _) (.inr hne),
      if_neg (not_not.2 htype),
      if_neg (c := p.length > _) (by omega), if_neg (not_not.2 hversion), ite_self, ite_self,
      ite_self]
  | contained hin hend =>
    obtain ⟨err, herr⟩ | ⟨isHrr, suite, hfields⟩ := shHead_append_cases hp hin
    · exact ⟨_, fun t _ => parse_refused (herr t)⟩
    · refine ⟨tls13ParseServerHello C hs (p ++ []), fun t _ => ?_⟩
      have hhead : ∀ t, shHead (p ++ t) =
          .fields isHrr suite (extensionsPos p) (extensionsEnd p) := fun t => by
        rw [hfields, if_neg (by rw [hlen]; omega)]
      rw [tls13ParseServerHello, tls13ParseServerHello, hhead, hhead]
      dsimp only
      rw [shExtLoop_append hend, shExtLoop_append hend]
      split
      · rfl
      · unfold shNegotiate
        rw [take_declaredLen_append hp, take_declaredLen_append hp]
  | tooLong hin hend =>
    obtain ⟨err, herr⟩ | ⟨isHrr, suite, hfields⟩ := shHead_append_cases hp hin
    · exact ⟨_, fun t _ => parse_refused (herr t)⟩
    · exact ⟨_, fun t ht => parse_refused (by rw [hfields, if_pos (by omega)])⟩
  | hopeless hin hcut h =>
    obtain ⟨err, herr⟩ | ⟨isHrr, suite, hfields⟩ := shHead_append_cases hp hin
    · exact ⟨_, fun t _ => parse_refused (herr t)⟩
    · refine ⟨hs.fail brErrBadParam [], fun t _ => ?_⟩
      by_cases hend : extensionsEnd p > (p ++ t).length
      · exact parse_refused (by rw [hfields, if_pos hend])
      · obtain ⟨x, hx, hclean⟩ := @Hopeless.refused _ t _ _ (extensionsEnd p) .empty h
          (by omega) (by omega) (by omega) ⟨rfl, rfl⟩
        rw [tls13ParseServerHello, hfields, if_neg hend]
        dsimp only
        rw [hx]
        dsimp only
        rw [hclean.applyExts]

/-! ### The other direction -/

/-- A record of zeros, but for the type and version of a ServerHello. -/
def blankHello : Bytes :=
  [tls13HtServerHello, 0, 0, 0] ++ putU16 tls12Version ++ List.replicate (recordMax - 6) 0

theorem byteAt_blankHello {i : ℕ} (h : 6 ≤ i) : byteAt blankHello i = 0 := by
  rw [blankHello, byteAt_append_right (by simpa using h), byteAt_replicate_zero]

theorem length_blankHello : blankHello.length = recordMax := by
  rw [blankHello, List.length_append, List.length_replicate]
  rfl

theorem fail_inj {hs : HsCtx} {err err' : ℕ} {log log' : List HsEvent}
    (h : hs.fail err log = hs.fail err' log') : err = err' :=
  congrArg (·.hs.error) h

/-- Once the version is agreed on, `is_tls13` stays set. -/
theorem isTls13_shHelloRetryRequest {C : Crypto} {hs : HsCtx} {body : Bytes} {x : ShExts} :
    (shHelloRetryRequest C hs body x).hs.isTls13 = hs.isTls13 := by
  unfold shHelloRetryRequest
  dsimp only
  split_ifs <;> rfl

theorem isTls13_shServerHello {C : Crypto} {hs : HsCtx} {body : Bytes} {suite : ℕ} {x : ShExts} :
    (shServerHello C hs body suite x).hs.isTls13 = hs.isTls13 := by
  unfold shServerHello
  split
  · rfl
  · dsimp only
    split_ifs
    · rfl
    · rfl
    · split <;> rfl

/-- A negotiation is never the refusal of a bad parameter that leaves `is_tls13` alone. -/
theorem shNegotiate_ne {C : Crypto} {hs hs' : HsCtx} {msg : Bytes} {isHrr : Bool} {suite : ℕ}
    {x : ShExts} (h : hs'.isTls13 = false) :
    shNegotiate C hs msg isHrr suite x ≠ hs'.fail brErrBadParam [] := by
  intro heq
  have hres := congrArg (·.res) heq
  have herr := congrArg (·.hs.error) heq
  have htls := (congrArg (·.hs.isTls13) heq).trans h
  unfold shNegotiate at hres herr htls
  split at hres
  · cases hres
  · next version hv =>
    rw [hv] at herr htls
    dsimp only at hres herr htls
    split_ifs at hres herr htls
    · cases hres
    · cases herr
    · cases htls
    · rw [isTls13_shHelloRetryRequest] at htls
      cases htls
    · rw [isTls13_shServerHello] at htls
      cases htls

/-- A record with null compression and nothing but zeros behind the length of its extension list
is a fallback to TLS 1.2. -/
theorem parse_zeros {C : Crypto} {hs : HsCtx} {msg : Bytes} (hdecl : declaredLen msg ≤ msg.length)
    (htype : byteAt msg 0 = tls13HtServerHello) (hversion : getU16 msg 4 = tls12Version)
    (hcomp : byteAt msg (compressionPos msg) = 0) (hend : extensionsEnd msg ≤ msg.length)
    (hzero : ∀ i, extensionsPos msg ≤ i → byteAt msg i = 0) :
    tls13ParseServerHello C hs msg = ⟨.fallback12, hs, []⟩ := by
  have hin : extensionsPos msg ≤ msg.length := Nat.le_trans (Nat.le_add_right _ _) hend
  rw [tls13ParseServerHello, shHead_eq hdecl hin, if_neg (not_not.2 htype),
    if_neg (not_not.2 hversion), if_neg (not_not.2 hcomp), if_neg (Nat.not_lt.2 hend)]
  dsimp only
  rw [shExtLoop_zeros hzero]
  dsimp only
  rw [ShExts.Clean.applyExts ⟨rfl, rfl⟩]
  rfl

section

variable {C : Crypto} {p : Bytes}

/-- What is refused in every record for a cut extension list is hopeless. -/
theorem hopeless_of_parse (hp : p.length = declaredLen p) (hin : extensionsPos p ≤ p.length)
    (htype : byteAt p 0 = tls13HtServerHello) (hversion : getU16 p 4 = tls12Version)
    (hcomp : byteAt p (compressionPos p) = 0) (hcut : p.length < extensionsEnd p)
    (hmax : extensionsEnd p ≤ recordMax)
    (h : ∀ hs t, (p ++ t).length ≤ recordMax →
      tls13ParseServerHello C hs (p ++ t) = tls13ParseServerHello C hs p) :
    Hopeless p (extensionsEnd p) (extensionsPos p) := by
  refine @hopeless_of_refused p _ _ (extensionsEnd p) .empty (Nat.le_of_lt hcut) ?_
  rintro _ ⟨t, rfl⟩ hlen
  have hself : ∀ hs, tls13ParseServerHello C hs p = hs.fail brErrBadParam [] := fun hs => by
    rw [← List.append_nil p]
    refine parse_refused ?_
    rw [shHead_append hp hin, if_neg (not_not.2 htype), if_neg (not_not.2 hversion),
      if_neg (not_not.2 hcomp), if_pos (by rwa [List.append_nil])]
  obtain ⟨x, err, hx⟩ : ∃ x err,
      shExtLoop (p ++ t) (extensionsEnd p) (extensionsEnd p) (extensionsPos p) .empty = (x, err) :=
    ⟨_, _, rfl⟩
  have hparse : ∀ hs : HsCtx, err.elim (shNegotiate C (hs.applyExts x) (p ++ t)
      (slice p 6 32 = hrrRandom) (getU16 p (39 + (byteAt p 38).toNat)) x)
        (fun err => (hs.applyExts x).fail err []) = hs.fail brErrBadParam [] := fun hs => by
    rw [← hself, ← h hs t (by omega), tls13ParseServerHello, shHead_append hp hin,
      if_neg (not_not.2 htype), if_neg (not_not.2 hversion), if_neg (not_not.2 hcomp),
      if_neg (by omega)]
    cases err <;> simp only [hx, Option.elim]
  cases err with
  | none => exact (shNegotiate_ne rfl (hparse tls13HandshakeInit)).elim
  | some err =>
    obtain rfl : err = brErrBadParam := congrArg (·.hs.error) (hparse tls13HandshakeInit)
    refine ⟨x, hx, ?_, ?_⟩
    · cases hc : x.cookie with
      | none => rfl
      | some c =>
        -- a context whose cookie is another one
        have := congrArg (·.hs.cookie) (hparse { tls13HandshakeInit with cookie := 0 :: c })
        simp [HsCtx.applyExts, HsCtx.fail, hc] at this
    · have := congrArg (·.hs.resumptionAccepted) (hparse tls13HandshakeInit)
      simpa [HsCtx.applyExts, HsCtx.fail, tls13HandshakeInit] using this

/-- The message `p` in a record of zeros. -/
def blanked (p : Bytes) : Bytes := p ++ blankHello.drop p.length

theorem length_blanked (h : p.length ≤ recordMax) : (blanked p).length = recordMax := by
  rw [blanked, List.length_append, List.length_drop, length_blankHello]
  omega

theorem byteAt_blanked {i : ℕ} (h : p.length ≤ i) (h6 : 6 ≤ i) : byteAt (blanked p) i = 0 := by
  rw [blanked, byteAt_append_right h, byteAt_drop, Nat.add_sub_of_le h, byteAt_blankHello h6]

theorem declaredLen_blanked (hp : p.length = declaredLen p) (hmax : p.length ≤ recordMax) :
    declaredLen (blanked p) ≤ (blanked p).length := by
  rw [length_blanked hmax, blanked, declaredLen_append hp]
  exact hmax

/-- The length field of the extension list, when at most its first byte is part of the message. -/
theorem extensionsEnd_blanked (h : p.length < extensionsPos (blanked p)) :
    extensionsEnd (blanked p) ≤ extensionsPos (blanked p) + 65280 ∧
      (p.length + 1 < extensionsPos (blanked p) →
        extensionsEnd (blanked p) = extensionsPos (blanked p)) := by
  have hpos : extensionsPos (blanked p) = compressionPos (blanked p) + 3 := rfl
  have h44 := le_extensionsPos (blanked p)
  have hlow : byteAt (blanked p) (compressionPos (blanked p) + 1 + 1) = 0 :=
    byteAt_blanked (by omega) (by omega)
  have hhigh := toNat_lt_256 (byteAt (blanked p) (compressionPos (blanked p) + 1))
  have hend : extensionsEnd (blanked p) = extensionsPos (blanked p) +
      (byteAt (blanked p) (compressionPos (blanked p) + 1)).toNat * 256 := by
    rw [extensionsEnd, getU16, hlow, UInt8.toNat_zero, Nat.add_zero]
  refine ⟨by omega, fun h2 => ?_⟩
  rw [hend, byteAt_blanked (by omega) (by omega), UInt8.toNat_zero, Nat.zero_mul, Nat.add_zero]

/-- Were the compression method not refused inside the message, zeros would be accepted. -/
theorem compression_of_refused (hp : p.length = declaredLen p) (hmax : p.length ≤ recordMax)
    (htype : byteAt (blanked p) 0 = tls13HtServerHello)
    (hversion : getU16 (blanked p) 4 = tls12Version)
    (hin : p.length ≤ extensionsPos (blanked p)) (hend : extensionsEnd (blanked p) ≤ recordMax)
    (h : tls13ParseServerHello C tls13HandshakeInit (blanked p) =
      tls13HandshakeInit.fail brErrBadParam []) :
    compressionPos p < p.length ∧ byteAt p (compressionPos p) ≠ 0 := by
  have hcomp : byteAt (blanked p) (compressionPos (blanked p)) ≠ 0 := fun hzero => by
    rw [parse_zeros (declaredLen_blanked hp hmax) htype hversion hzero
      (Nat.le_trans hend (Nat.le_of_eq (length_blanked hmax).symm))
      fun i hi => byteAt_blanked (by omega) (by have := le_extensionsPos (blanked p); omega)] at h
    cases congrArg (·.res) h
  have h41 : 41 ≤ compressionPos (blanked p) := Nat.le_add_right _ _
  have hlt : compressionPos (blanked p) < p.length := by
    by_contra hge
    exact hcomp (byteAt_blanked (by omega) (by omega))
  have hpos : compressionPos (blanked p) = compressionPos p := compressionPos_append (by omega) _
  rw [hpos] at hlt hcomp
  rw [blanked, byteAt_append hlt] at hcomp
  exact ⟨hlt, hcomp⟩

/-- A message too short for the parser. -/
theorem selfContained_of_parse_short (hp : p.length = declaredLen p) (h44 : p.length < 44)
    (h : ∀ hs t, (p ++ t).length ≤ recordMax →
      tls13ParseServerHello C hs (p ++ t) = tls13ParseServerHello C hs p) :
    SelfContained p := by
  have hmax : p.length ≤ recordMax := by unfold recordMax; omega
  have hlen := length_blanked hmax
  have h4 : 4 ≤ p.length := hp ▸ Nat.le_add_right 4 _
  -- it is refused when nothing follows, so it is with zeros behind it
  have hfail : tls13ParseServerHello C tls13HandshakeInit (blanked p) =
      tls13HandshakeInit.fail brErrBadParam [] := by
    rw [blanked, h _ _ (Nat.le_of_eq hlen)]
    exact parse_refused (by rw [shHead, if_pos h44])
  have hrefused : ∀ {err}, shHead (blanked p) = .refused err → err = brErrBadParam := fun herr =>
    @fail_inj _ _ _ [] [] ((parse_refused herr).symm.trans hfail)
  have h44' : ¬(blanked p).length < 44 := by rw [hlen]; decide
  have hdecl := declaredLen_blanked hp hmax
  have htype : byteAt (blanked p) 0 = tls13HtServerHello := by
    by_contra hne
    cases hrefused (by rw [shHead, if_neg h44', if_pos hne])
  have hversion : getU16 (blanked p) 4 = tls12Version := by
    by_contra hne
    cases hrefused (by
      rw [shHead, if_neg h44', if_neg (not_not.2 htype), if_neg (by omega), if_pos hne])
  have hpos := le_extensionsPos (blanked p)
  have hend : extensionsEnd (blanked p) ≤ recordMax := by
    obtain ⟨hle, heq⟩ := extensionsEnd_blanked (p := p) (by omega)
    have hpos : extensionsPos (blanked p) = 44 + (byteAt (blanked p) 38).toNat := by
      unfold extensionsPos compressionPos
      omega
    have hsid := toNat_lt_256 (byteAt (blanked p) 38)
    unfold recordMax
    omega
  obtain ⟨hin, hne⟩ := compression_of_refused hp hmax htype hversion (by omega) hend hfail
  have h41 : 41 ≤ compressionPos p := Nat.le_add_right _ _
  rw [blanked, byteAt_append (by omega)] at htype
  rw [blanked, getU16_append (by omega)] at hversion
  exact .compression htype hversion hin hne

/-- A message that ends between its compression method and its first extension is a fallback
alone, and refused when the length of a list follows that is not there. -/
theorem not_parse_of_cut_length (hp : p.length = declaredLen p) (h44 : 44 ≤ p.length)
    (htype : byteAt p 0 = tls13HtServerHello) (hversion : getU16 p 4 = tls12Version)
    (hcomp : byteAt p (compressionPos p) = 0) (hin : compressionPos p < p.length)
    (hcut : p.length < extensionsPos p)
    (h : ∀ hs t, (p ++ t).length ≤ recordMax →
      tls13ParseServerHello C hs (p ++ t) = tls13ParseServerHello C hs p) : False := by
  have hpos : extensionsPos p = 44 + (byteAt p 38).toNat := by
    unfold extensionsPos compressionPos
    omega
  have hsid := toNat_lt_256 (byteAt p 38)
  have hfallback : tls13ParseServerHello C tls13HandshakeInit p =
      ⟨.fallback12, tls13HandshakeInit, []⟩ := by
    have hhead : shHead p = .noExtensions := by
      have hcp : 39 + (byteAt p 38).toNat + 2 = compressionPos p := Nat.add_right_comm _ _ _
      unfold shHead
      dsimp only
      rw [if_neg (by omega), if_neg (not_not.2 htype), if_neg (by omega),
        if_neg (not_not.2 hversion), if_neg (by omega), if_neg (by omega), hcp,
        if_neg (by rw [not_or]; exact ⟨by omega, not_not.2 hcomp⟩), if_pos (by omega)]
    rw [tls13ParseServerHello, hhead]
  obtain ⟨t, ht⟩ : ∃ t : Bytes, t = List.replicate (extensionsPos p - p.length) 1 := ⟨_, rfl⟩
  have htlen : t.length = extensionsPos p - p.length := by rw [ht, List.length_replicate]
  have hlen : (p ++ t).length = extensionsPos p := by rw [List.length_append]; omega
  have hrefused : shHead (p ++ t) = .refused brErrBadParam := by
    have hlow : byteAt (p ++ t) (compressionPos p + 1 + 1) = 1 := by
      have hcp : extensionsPos p = compressionPos p + 3 := rfl
      rw [byteAt_append_right (by omega), ht, byteAt, List.getD_eq_getElem?_getD,
        List.getElem?_replicate_of_lt (by omega)]
      rfl
    have hend : extensionsEnd (p ++ t) > (p ++ t).length := by
      rw [extensionsEnd, extensionsPos_append (by omega), compressionPos_append (by omega), hlen,
        getU16, hlow, UInt8.toNat_one]
      omega
    rw [shHead_eq (by rw [declaredLen_append hp]; omega)
      (by rw [extensionsPos_append (by omega)]; omega), byteAt_append (by omega),
      getU16_append (by omega), compressionPos_append (by omega), byteAt_append hin,
      if_neg (not_not.2 htype), if_neg (not_not.2 hversion), if_neg (not_not.2 hcomp),
      if_pos hend]
  have heq := h tls13HandshakeInit t (by unfold recordMax; omega)
  rw [hfallback, parse_refused hrefused] at heq
  cases congrArg (·.res) heq

/-- Only self-contained messages are negotiated alike in every record. -/
theorem selfContained_of_parse (hp : p.length = declaredLen p) (hmax : p.length ≤ recordMax)
    (h : ∀ hs t, (p ++ t).length ≤ recordMax →
      tls13ParseServerHello C hs (p ++ t) = tls13ParseServerHello C hs p) :
    SelfContained p := by
  by_cases h44 : p.length < 44
  · exact selfContained_of_parse_short hp h44 h
  by_cases hbad : byteAt p 0 ≠ tls13HtServerHello ∨ getU16 p 4 ≠ tls12Version
  · exact .header (by omega) hbad
  rw [not_or, not_not, not_not] at hbad
  obtain ⟨htype, hversion⟩ := hbad
  by_cases hcp : compressionPos p < p.length ∧ byteAt p (compressionPos p) ≠ 0
  · exact .compression htype hversion hcp.1 hcp.2
  have hpos : extensionsPos p = compressionPos p + 3 := rfl
  have hzero : compressionPos p < p.length → byteAt p (compressionPos p) = 0 := fun hlt => by
    by_contra hne
    exact hcp ⟨hlt, hne⟩
  by_cases hin : extensionsPos p ≤ p.length
  · by_cases hend : extensionsEnd p ≤ p.length
    · exact .contained hin hend
    by_cases hlong : recordMax < extensionsEnd p
    · exact .tooLong hin hlong
    · exact .hopeless hin (by omega)
        (hopeless_of_parse hp hin htype hversion (hzero (by omega)) (by omega) (by omega) h)
  · exfalso
    by_cases hlt : compressionPos p < p.length
    · exact not_parse_of_cut_length hp (by omega) htype hversion (hzero hlt) hlt (by omega) h
    · -- without its compression method the message is refused, with zeros behind it accepted
      have hfail : tls13ParseServerHello C tls13HandshakeInit (blanked p) =
          tls13HandshakeInit.fail brErrBadParam [] := by
        rw [blanked, h _ _ (Nat.le_of_eq (length_blanked hmax))]
        apply parse_refused
        have hsuite : 39 + (byteAt p 38).toNat + 2 = compressionPos p := Nat.add_right_comm _ _ _
        unfold shHead
        dsimp only
        rw [if_neg h44, if_neg (not_not.2 htype), if_neg (by omega), if_neg (not_not.2 hversion),
          hsuite, if_pos (c := _ ∨ _) (.inl (by omega)), ite_self, ite_self]
      have hpos' : extensionsPos (blanked p) = extensionsPos p := extensionsPos_append (by omega) _
      have hend : extensionsEnd (blanked p) ≤ recordMax := by
        rw [(extensionsEnd_blanked (by omega)).2 (by omega), hpos', hpos, compressionPos]
        have hsid := toNat_lt_256 (byteAt p 38)
        unfold recordMax
        omega
      exact hlt (compression_of_refused hp hmax ((byteAt_append (by omega)).trans htype)
        ((getU16_append (by omega)).trans hversion) (by omega) hend hfail).1

end

/-! ### Negotiation and the declared message -/

/-- The record `r'` starts with the message that `r` declares. -/
def SameMessage (r r' : Bytes) : Prop :=
  declaredLen r ≤ r'.length ∧ r'.take (declaredLen r) = r.take (declaredLen r)

instance (r r' : Bytes) : Decidable (SameMessage r r') :=
  inferInstanceAs (Decidable (_ ∧ _))

/-- The declared message of a record, as the first part of it. -/
theorem declaredLen_take {r : Bytes} (h : declaredLen r ≤ r.length) :
    (r.take (declaredLen r)).length = declaredLen (r.take (declaredLen r)) := by
  have hlen : declaredLen (r.take (declaredLen r)) = declaredLen r := by
    unfold declaredLen
    rw [getU24_take (by omega)]
  rw [List.length_take, Nat.min_eq_left h, hlen]

/-- **What the negotiation depends on.**  All records that start with the same declared message
give the same result and the same context, in every context, exactly when that message is
self-contained. -/
theorem negotiation_contained_iff (C : Crypto) {r : Bytes} (hr : declaredLen r ≤ r.length)
    (hmax : r.length ≤ recordMax) :
    (∀ hs r', SameMessage r r' → r'.length ≤ recordMax →
      tls13ParseServerHello C hs r' = tls13ParseServerHello C hs r) ↔
    SelfContained (r.take (declaredLen r)) := by
  have hp := declaredLen_take hr
  have hplen : (r.take (declaredLen r)).length = declaredLen r := by
    rw [List.length_take, Nat.min_eq_left hr]
  constructor
  · intro h
    have hsame : ∀ t : Bytes, SameMessage r (r.take (declaredLen r) ++ t) := fun t =>
      ⟨by rw [List.length_append]; omega, by rw [List.take_append_of_le_length (by omega),
        List.take_of_length_le (by omega)]⟩
    refine selfContained_of_parse (C := C) hp (by omega) fun hs t ht => ?_
    have hself := h hs _ (hsame []) (by rw [List.append_nil]; omega)
    rw [List.append_nil] at hself
    rw [hself]
    exact h hs _ (hsame t) ht
  · intro h hs r' hsame hmax'
    obtain ⟨o, ho⟩ := h.parse hp C hs
    have hsplit : r.take (declaredLen r) ++ r'.drop (declaredLen r) = r' := by
      rw [← hsame.2, List.take_append_drop]
    have hr' := ho (r'.drop (declaredLen r)) (by rwa [hsplit])
    have hr := ho (r.drop (declaredLen r)) (by rwa [List.take_append_drop])
    rw [hsplit] at hr'
    rw [List.take_append_drop] at hr
    rw [hr, hr']

/-- The payload of a ServerHello record whose message ends with the length of its extension
list: the extensions follow, but they are not part of the message. -/
def openHello (exts : Bytes) : Bytes :=
  hsMessage tls13HtServerHello
    (putU16 tls12Version ++ List.replicate 32 0 ++ [0] ++ putU16 tlsChacha20Poly1305Sha256 ++ [0] ++
      putU16 exts.length) ++ exts

/-- A client that has offered a key share for X25519. -/
def sharedX25519 : HsCtx :=
  { tls13HandshakeInit with ecdheGroup := tls13GroupX25519, ecdheSecret := List.replicate 32 0 }

/-- With its extensions inside, a ServerHello is negotiated alike whatever follows it. -/
theorem negotiation_contained_x25519 :
    tls13ParseServerHello .transparent sharedX25519 ((helloX25519 []).drop 5 ++ [1, 2, 3]) =
      tls13ParseServerHello .transparent sharedX25519 ((helloX25519 []).drop 5) :=
  (negotiation_contained_iff .transparent (r := (helloX25519 []).drop 5) (by decide) (by decide)).2
    (.contained (by decide) (by decide)) _ _ (by decide) (by decide)

/-- Two records with one and the same declared message leave different Handshake Secrets: the
public point comes from behind the end of the message. -/
theorem negotiation_not_contained :
    ¬∀ (C : Crypto) (hs : HsCtx) (r r' : Bytes), declaredLen r ≤ r.length → r.length ≤ recordMax →
      SameMessage r r' → r'.length ≤ recordMax →
      tls13ParseServerHello C hs r' = tls13ParseServerHello C hs r := by
  intro h
  have heq := h .transparent sharedX25519 (openHello (extsX25519 (List.replicate 32 9)))
    (openHello (extsX25519 (List.replicate 32 7))) (by decide) (by decide) (by decide) (by decide)
  have hsecret := congrArg (·.hs.ks.secret) heq
  revert hsecret
  decide +kernel

end MacTLS
