import MacTLS.Handshake.Containment
import MacTLS.Handshake.HelloSyntax
import MacTLS.Handshake.Transition

/-!
# What the extensions of a ServerHello say

The parser walks the extension list of a ServerHello by offsets.  Here the list is what its bytes
encode, and the walk is read as one fold over it.

* `ListsExtensions` : a block of bytes is an encoding of these extensions;
* `shExtLoop_lists`, `lists_of_shExtLoop` : the walk is the fold over the list;
* `lastData` : the data of the last extension of a type;
* `readExtensions_eq` : what the fold has found at its end;
* `HelloPayload` : the fields of a ServerHello payload, and `shHead` on it.
-/

namespace MacTLS

open Lib

/-! ### Lists of extensions -/

/-- The bytes `b` are the extensions `es`; up to three bytes may be left over. -/
structure ListsExtensions (b : Bytes) (es : List (ℕ × Bytes)) : Prop where
  fits : ∀ e ∈ es, e.1 < 65536 ∧ e.2.length < 65536
  block : ∃ slack : Bytes, slack.length < 4 ∧ b = encodeExtensions es ++ slack

/-- The walk as a fold. -/
def readExtensions (x : ShExts) (es : List (ℕ × Bytes)) : Except ℕ ShExts :=
  es.foldlM (fun x e => shExtension x e.1 e.2) x

theorem readExtensions_cons (x : ShExts) (e : ℕ × Bytes) (es : List (ℕ × Bytes)) :
    readExtensions x (e :: es) = shExtension x e.1 e.2 >>= fun x => readExtensions x es := rfl

/-- The bytes of one extension, as they were read. -/
theorem slice_extension {msg : Bytes} {pos : ℕ}
    (h : pos + 4 + getU16 msg (pos + 2) ≤ msg.length) :
    slice msg pos (4 + getU16 msg (pos + 2)) =
      extension (getU16 msg pos) (slice msg (pos + 4) (getU16 msg (pos + 2))) := by
  have hlen : (slice msg (pos + 4) (getU16 msg (pos + 2))).length = getU16 msg (pos + 2) :=
    length_slice h
  rw [slice_split msg pos (show 2 ≤ 4 + getU16 msg (pos + 2) by omega),
    slice_split msg (pos + 2) (show 2 ≤ 4 + getU16 msg (pos + 2) - 2 by omega),
    slice_two (by omega), slice_two (by omega), extension, hlen, ← List.append_assoc,
    show 4 + getU16 msg (pos + 2) - 2 - 2 = getU16 msg (pos + 2) by omega]

/-- A walk that came to its end has read a list. -/
theorem lists_of_shExtLoop {msg : Bytes} {extEnd fuel pos : ℕ} {x y : ShExts}
    (hend : extEnd ≤ msg.length) (hfuel : extEnd ≤ pos + fuel)
    (h : shExtLoop msg extEnd fuel pos x = (y, none)) :
    ∃ es, ListsExtensions (slice msg pos (extEnd - pos)) es ∧ readExtensions x es = .ok y := by
  have hstop : ∀ {pos : ℕ} {x : ShExts}, extEnd < pos + 4 → (x, none) = (y, (none : Option ℕ)) →
      ∃ es, ListsExtensions (slice msg pos (extEnd - pos)) es ∧ readExtensions x es = .ok y := by
    intro pos x hroom hxy
    have hlen : (slice msg pos (extEnd - pos)).length < 4 := by
      rw [slice, List.length_take]
      omega
    cases hxy
    exact ⟨[], ⟨by simp, _, hlen, rfl⟩, rfl⟩
  induction fuel generalizing pos x with
  | zero => exact hstop (by omega) h
  | succ fuel ih =>
    by_cases hroom : pos + 4 ≤ extEnd
    · rw [shExtLoop_succ _ _ _ _ _ hroom] at h
      split_ifs at h with hfit
      · cases h
      split at h
      · cases h
      · next x₁ hx =>
        obtain ⟨es, ⟨hfits, slack, hslack, hblock⟩, hread⟩ := ih (by omega) h
        refine ⟨(getU16 msg pos, slice msg (pos + 4) (getU16 msg (pos + 2))) :: es,
          ⟨?_, slack, hslack, ?_⟩, ?_⟩
        · refine List.forall_mem_cons.2 ⟨⟨getU16_lt _ _, ?_⟩, hfits⟩
          have := getU16_lt msg (pos + 2)
          rw [length_slice (by omega)]
          exact this
        · rw [slice_split msg pos (show 4 + getU16 msg (pos + 2) ≤ extEnd - pos by omega),
            slice_extension (by omega), encodeExtensions_cons, List.append_assoc, ← hblock,
            ← Nat.add_assoc, Nat.sub_sub, ← Nat.add_assoc]
        · rw [readExtensions_cons, hx]
          exact hread
    · rw [shExtLoop_end (by omega)] at h
      exact hstop (by omega) h

/-- The walk over a list of extensions, when none of them is refused. -/
theorem shExtLoop_lists {msg : Bytes} {extEnd fuel pos : ℕ} {x y : ShExts}
    {es : List (ℕ × Bytes)} (hend : extEnd ≤ msg.length) (hpos : pos ≤ extEnd)
    (hfuel : extEnd ≤ pos + fuel) (hlists : ListsExtensions (slice msg pos (extEnd - pos)) es)
    (hread : readExtensions x es = .ok y) : shExtLoop msg extEnd fuel pos x = (y, none) := by
  obtain ⟨hfits, slack, hslack, hblock⟩ := hlists
  have hlen := congrArg List.length hblock
  rw [length_slice (by omega), List.length_append] at hlen
  induction es generalizing pos fuel x with
  | nil =>
    obtain rfl : x = y := Except.ok.inj hread
    rw [show encodeExtensions [] = [] from rfl, List.length_nil] at hlen
    exact shExtLoop_end (by omega) fuel x
  | cons e es ih =>
    obtain ⟨⟨htype, hdata⟩, hfits⟩ := List.forall_mem_cons.1 hfits
    rw [encodeExtensions_cons, List.length_append, length_extension] at hlen
    obtain ⟨fuel, rfl⟩ : ∃ k, fuel = k + 1 := ⟨fuel - 1, by omega⟩
    have hbytes : slice msg pos (extEnd - pos) =
        putU16 e.1 ++ (putU16 e.2.length ++ (e.2 ++ (encodeExtensions es ++ slack))) := by
      rw [hblock, encodeExtensions_cons, extension]
      simp only [List.append_assoc]
    have h0 : getU16 msg pos = e.1 := by
      have := getU16_putU16 [] (putU16 e.2.length ++ (e.2 ++ (encodeExtensions es ++ slack))) htype
      rwa [List.nil_append, ← hbytes, List.length_nil, getU16_slice (by omega)] at this
    have h2 : getU16 msg (pos + 2) = e.2.length := by
      have := getU16_putU16 (putU16 e.1) (e.2 ++ (encodeExtensions es ++ slack)) hdata
      rwa [← hbytes, length_putU16, getU16_slice (by omega)] at this
    have hhead := slice_extension (show pos + 4 + getU16 msg (pos + 2) ≤ msg.length by omega)
    have hrest := slice_split msg pos (show 4 + e.2.length ≤ extEnd - pos by omega)
    -- what the bytes say, cut behind the first extension
    obtain ⟨hfirst, hnext⟩ : slice msg pos (4 + e.2.length) = extension e.1 e.2 ∧
        slice msg (pos + (4 + e.2.length)) (extEnd - pos - (4 + e.2.length)) =
          encodeExtensions es ++ slack := by
      rw [hblock, encodeExtensions_cons, List.append_assoc] at hrest
      refine List.append_inj hrest.symm ?_
      rw [length_slice (by omega), length_extension]
    have hd : slice msg (pos + 4) e.2.length = e.2 := by
      rw [h2, hfirst, h0, extension, extension, List.append_assoc, List.append_assoc] at hhead
      have hlen' : (slice msg (pos + 4) e.2.length).length = e.2.length := length_slice (by omega)
      rw [hlen'] at hhead
      exact (List.append_cancel_left (List.append_cancel_left hhead)).symm
    rw [readExtensions_cons] at hread
    cases hx : shExtension x e.1 e.2 with
    | error err => rw [hx] at hread; cases hread
    | ok x₁ =>
      rw [hx] at hread
      rw [shExtLoop_succ _ _ _ _ _ (by omega), h2, if_neg (by omega), h0, hd, hx]
      refine ih (by omega) (by omega) hread hfits ?_ ?_
      · rw [← hnext]
        congr 1 <;> omega
      · omega

/-! ### What the walk finds -/

/-- The walk goes on behind an extension: it is well formed, and a cookie is not too large. -/
def AcceptedExt (type : ℕ) (data : Bytes) : Prop :=
  WellFormedExt type data ∧ (type = tls13ExtCookie → data.length ≤ cookieSize + 2)

/-- What an accepted extension adds. -/
def ShExts.meet (x : ShExts) (type : ℕ) (data : Bytes) : ShExts where
  version := if type = tls13ExtSupportedVersions then some (getU16 data 0) else x.version
  shareGroup := if type = tls13ExtKeyShare then some (getU16 data 0) else x.shareGroup
  serverPublic :=
    if type = tls13ExtKeyShare ∧ data.length ≠ 2 then slice data 4 (getU16 data 2)
    else x.serverPublic
  cookie := if type = tls13ExtCookie then some (data.drop 2) else x.cookie
  selectedPsk := x.selectedPsk || type = tls13ExtPreSharedKey

theorem shKeyShare_eq {x : ShExts} {data : Bytes} (h : WellFormedShare data) :
    shKeyShare x data = .ok (x.meet tls13ExtKeyShare data) := by
  unfold shKeyShare
  dsimp only
  obtain h2 | ⟨hlt, hgroup, hpos, hlen, hmax⟩ := h
  · rw [if_neg (by omega), if_pos h2]
    simp [ShExts.meet, h2, tls13ExtKeyShare, tls13ExtSupportedVersions, tls13ExtCookie,
      tls13ExtPreSharedKey]
  · rw [if_neg (by omega), if_neg (by omega), if_neg hgroup, if_neg (by omega)]
    simp [ShExts.meet, tls13ExtKeyShare, tls13ExtSupportedVersions, tls13ExtCookie,
      tls13ExtPreSharedKey, show data.length ≠ 2 by omega]

theorem shExtension_eq (x : ShExts) {type : ℕ} {data : Bytes} (h : AcceptedExt type data) :
    shExtension x type data = .ok (x.meet type data) := by
  obtain ⟨hform, hsize⟩ := h
  unfold WellFormedExt at hform
  unfold shExtension
  by_cases hsv : type = tls13ExtSupportedVersions
  · rw [if_pos hsv] at hform ⊢
    rw [if_neg (not_not.2 hform)]
    simp [ShExts.meet, hsv, tls13ExtKeyShare, tls13ExtSupportedVersions, tls13ExtCookie,
      tls13ExtPreSharedKey]
  rw [if_neg hsv] at hform ⊢
  by_cases hks : type = tls13ExtKeyShare
  · rw [if_pos hks] at hform ⊢
    rw [hks]
    exact shKeyShare_eq hform
  rw [if_neg hks] at hform ⊢
  by_cases hcookie : type = tls13ExtCookie
  · rw [if_pos hcookie] at hform ⊢
    have hlen := hsize hcookie
    have hslice : slice data 2 (getU16 data 0) = data.drop 2 := by
      rw [slice, List.take_of_length_le (by rw [List.length_drop]; omega)]
    unfold shCookie
    dsimp only
    rw [if_neg (by omega), if_neg (not_not.2 hform), if_neg (by omega), hslice]
    simp [ShExts.meet, hcookie, tls13ExtKeyShare, tls13ExtSupportedVersions, tls13ExtCookie,
      tls13ExtPreSharedKey]
  rw [if_neg hcookie] at hform ⊢
  by_cases hpsk : type = tls13ExtPreSharedKey
  · rw [if_pos hpsk] at hform ⊢
    rw [if_neg (not_not.2 hform)]
    simp [ShExts.meet, hpsk, tls13ExtKeyShare, tls13ExtSupportedVersions, tls13ExtCookie,
      tls13ExtPreSharedKey]
  · rw [if_neg hpsk]
    simp [ShExts.meet, hsv, hks, hcookie, hpsk]

theorem shExtension_refused (x : ShExts) {type : ℕ} {data : Bytes} (h : ¬AcceptedExt type data) :
    ∃ err, shExtension x type data = .error err := by
  by_cases hform : WellFormedExt type data
  · have hsize : type = tls13ExtCookie ∧ cookieSize + 2 < data.length := by
      rw [AcceptedExt, not_and, Classical.not_imp, Nat.not_le] at h
      exact h hform
    obtain ⟨rfl, hlen⟩ := hsize
    have hdecl : getU16 data 0 + 2 = data.length := hform
    refine ⟨brErrTooLarge, ?_⟩
    have hcookie : shExtension x tls13ExtCookie data = shCookie x data := rfl
    rw [hcookie, shCookie, if_neg (by omega)]
    dsimp only
    rw [if_neg (not_not.2 hdecl), if_pos (by omega)]
  · exact ⟨_, shExtension_malformed hform⟩

/-- The walk is not refused when every extension is accepted, and adds them all up. -/
theorem readExtensions_eq_ok {x y : ShExts} {es : List (ℕ × Bytes)} :
    readExtensions x es = .ok y ↔
      (∀ e ∈ es, AcceptedExt e.1 e.2) ∧ es.foldl (fun x e => x.meet e.1 e.2) x = y := by
  induction es generalizing x with
  | nil => exact ⟨fun h => ⟨by simp, Except.ok.inj h⟩, fun h => congrArg Except.ok h.2⟩
  | cons e es ih =>
    rw [readExtensions_cons, List.forall_mem_cons, List.foldl_cons]
    by_cases he : AcceptedExt e.1 e.2
    · rw [shExtension_eq x he]
      exact ih.trans ⟨fun h => ⟨⟨he, h.1⟩, h.2⟩, fun h => ⟨h.1.2, h.2⟩⟩
    · obtain ⟨err, herr⟩ := shExtension_refused x he
      rw [herr]
      exact ⟨fun h => (by cases h), fun h => absurd h.1.1 he⟩

/-- The data of the last extension of a type. -/
def lastData (type : ℕ) : List (ℕ × Bytes) → Option Bytes
  | [] => none
  | e :: es => (lastData type es).or (if e.1 = type then some e.2 else none)

theorem mem_of_lastData {type : ℕ} {es : List (ℕ × Bytes)} {data : Bytes}
    (h : lastData type es = some data) : (type, data) ∈ es := by
  induction es with
  | nil => cases h
  | cons e es ih =>
    rw [lastData, Option.or_eq_some_iff] at h
    obtain h | ⟨-, h⟩ := h
    · exact List.mem_cons_of_mem _ (ih h)
    · split_ifs at h with htype
      cases h
      rw [← htype]
      exact List.mem_cons_self

theorem lastData_eq_none {type : ℕ} {es : List (ℕ × Bytes)} :
    lastData type es = none ↔ type ∉ es.map Prod.fst := by
  induction es with
  | nil => simp [lastData]
  | cons e es ih =>
    rw [lastData, Option.or_eq_none_iff, ih, List.map_cons, List.mem_cons, not_or, and_comm]
    refine and_congr_left' ?_
    split_ifs with htype
    · simp [htype]
    · simp [Ne.symm htype]

/-- When no type comes twice, the last extension of a type is the only one. -/
theorem lastData_of_mem {type : ℕ} {es : List (ℕ × Bytes)} {data : Bytes}
    (hnodup : (es.map Prod.fst).Nodup) (h : (type, data) ∈ es) : lastData type es = some data := by
  induction es with
  | nil => cases h
  | cons e es ih =>
    rw [List.map_cons, List.nodup_cons] at hnodup
    rw [lastData]
    rcases List.mem_cons.1 h with rfl | h
    · rw [lastData_eq_none.2 hnodup.1]
      simp
    · rw [ih hnodup.2 h]
      rfl

/-- A field that the extensions of one type set holds what the last of them said. -/
theorem foldl_meet_eq {α : Type} (field : ShExts → Option α) {type : ℕ} {f : Bytes → α}
    (hfield : ∀ x t d, field (ShExts.meet x t d) = if t = type then some (f d) else field x)
    (x : ShExts) (es : List (ℕ × Bytes)) :
    field (es.foldl (fun x e => x.meet e.1 e.2) x) = ((lastData type es).map f).or (field x) := by
  induction es generalizing x with
  | nil => rfl
  | cons e es ih =>
    rw [List.foldl_cons, ih, hfield, lastData]
    cases lastData type es with
    | some d => rfl
    | none => split_ifs <;> rfl

/-- What the walk over `es` has found at its end. -/
theorem readExtensions_fields {x : ShExts} {es : List (ℕ × Bytes)}
    (h : readExtensions .empty es = .ok x) :
    x.version = (lastData tls13ExtSupportedVersions es).map (getU16 · 0) ∧
      x.shareGroup = (lastData tls13ExtKeyShare es).map (getU16 · 0) ∧
      x.cookie = (lastData tls13ExtCookie es).map (·.drop 2) := by
  obtain ⟨-, rfl⟩ := readExtensions_eq_ok.1 h
  refine ⟨?_, ?_, ?_⟩
  · exact (foldl_meet_eq ShExts.version (fun _ _ _ => rfl) .empty es).trans Option.or_none
  · exact (foldl_meet_eq ShExts.shareGroup (fun _ _ _ => rfl) .empty es).trans
      Option.or_none
  · exact (foldl_meet_eq ShExts.cookie (fun _ _ _ => rfl) .empty es).trans Option.or_none

/-! ### The payload -/

/-- A ServerHello payload: its fixed fields and its extension list. -/
structure HelloPayload (p random : Bytes) (suite : ℕ) (es : List (ℕ × Bytes)) : Prop where
  type : byteAt p 0 = tls13HtServerHello
  framed : declaredLen p ≤ p.length
  version : getU16 p 4 = tls12Version
  random : slice p 6 32 = random
  suite : getU16 p (39 + (byteAt p 38).toNat) = suite
  compression : byteAt p (compressionPos p) = 0
  inside : extensionsEnd p ≤ p.length
  extensions : ListsExtensions (slice p (extensionsPos p) (extensionsEnd p - extensionsPos p)) es

theorem HelloPayload.shHead {p random : Bytes} {suite : ℕ} {es : List (ℕ × Bytes)}
    (h : HelloPayload p random suite es) :
    shHead p = .fields (random = hrrRandom) suite (extensionsPos p) (extensionsEnd p) := by
  have hin : extensionsPos p ≤ extensionsEnd p := Nat.le_add_right _ _
  rw [shHead_eq h.framed (hin.trans h.inside), if_neg (not_not.2 h.type),
    if_neg (not_not.2 h.version), if_neg (not_not.2 h.compression),
    if_neg (Nat.not_lt.2 h.inside), h.random, h.suite]

/-- The walk over a payload is the fold over its list. -/
theorem HelloPayload.shExtLoop {p random : Bytes} {suite : ℕ} {es : List (ℕ × Bytes)} {x : ShExts}
    (h : HelloPayload p random suite es) (hread : readExtensions .empty es = .ok x) :
    shExtLoop p (extensionsEnd p) (extensionsEnd p) (extensionsPos p) .empty = (x, none) :=
  shExtLoop_lists h.inside (Nat.le_add_right _ _) (Nat.le_add_left _ _) h.extensions hread

/-- A guard that a parsed record has passed. -/
theorem ShHead.passed {c : Prop} [Decidable c] {x y : ShHead} {isHrr : Bool} {suite pos e : ℕ}
    (hx : ∀ isHrr suite pos e, x ≠ .fields isHrr suite pos e)
    (h : (if c then x else y) = .fields isHrr suite pos e) :
    ¬c ∧ y = .fields isHrr suite pos e := by
  by_cases hc : c
  · rw [if_pos hc] at h
    exact absurd h (hx _ _ _ _)
  · rw [if_neg hc] at h
    exact ⟨hc, h⟩

/-- Fixed fields that were parsed. -/
theorem shHead_fields {p : Bytes} {isHrr : Bool} {suite pos e : ℕ}
    (h : shHead p = .fields isHrr suite pos e) :
    byteAt p 0 = tls13HtServerHello ∧ declaredLen p ≤ p.length ∧ getU16 p 4 = tls12Version ∧
      (isHrr = true ↔ slice p 6 32 = hrrRandom) ∧
      getU16 p (39 + (byteAt p 38).toNat) = suite ∧ byteAt p (compressionPos p) = 0 ∧
      extensionsEnd p ≤ p.length ∧ pos = extensionsPos p ∧ e = extensionsEnd p := by
  have hrefused : ∀ {err : ℕ} isHrr suite pos e, ShHead.refused err ≠ .fields isHrr suite pos e :=
    fun _ _ _ _ h => by cases h
  unfold shHead at h
  obtain ⟨-, h⟩ := ShHead.passed hrefused h
  obtain ⟨htype, h⟩ := ShHead.passed hrefused h
  obtain ⟨hdecl, h⟩ := ShHead.passed hrefused h
  obtain ⟨hversion, h⟩ := ShHead.passed hrefused h
  obtain ⟨-, h⟩ := ShHead.passed hrefused h
  obtain ⟨-, h⟩ := ShHead.passed hrefused h
  obtain ⟨hcomp, h⟩ := ShHead.passed hrefused h
  obtain ⟨-, h⟩ := ShHead.passed (fun _ _ _ _ h => by cases h) h
  obtain ⟨hend, h⟩ := ShHead.passed hrefused h
  injection h with hhrr hsuite hpos hlast
  have hcompression : compressionPos p = 39 + (byteAt p 38).toNat + 2 := by
    rw [compressionPos]; omega
  have hext : extensionsPos p = 39 + (byteAt p 38).toNat + 5 := by
    rw [extensionsPos, hcompression]
  have hextEnd : extensionsEnd p =
      39 + (byteAt p 38).toNat + 5 + getU16 p (39 + (byteAt p 38).toNat + 3) := by
    rw [extensionsEnd, hext, hcompression]
  refine ⟨not_not.1 htype, Nat.le_of_not_lt hdecl, not_not.1 hversion, ?_, hsuite, ?_,
    hextEnd ▸ Nat.le_of_not_lt hend, hext ▸ hpos.symm, hextEnd ▸ hlast.symm⟩
  · rw [← hhrr, decide_eq_true_eq]
  · rw [hcompression]
    exact not_not.1 fun h => hcomp (.inr h)

/-- A payload that the parser read to its end lists extensions, and they say what it found. -/
theorem helloPayload_of_shExtLoop {p : Bytes} {isHrr : Bool} {suite pos e : ℕ} {x : ShExts}
    (h : shHead p = .fields isHrr suite pos e) (hx : shExtLoop p e e pos .empty = (x, none)) :
    (isHrr = true ↔ slice p 6 32 = hrrRandom) ∧
      ∃ es, HelloPayload p (slice p 6 32) suite es ∧ readExtensions .empty es = .ok x := by
  obtain ⟨htype, hframed, hversion, hhrr, hsuite, hcomp, hin, rfl, rfl⟩ := shHead_fields h
  obtain ⟨es, hlists, hread⟩ := lists_of_shExtLoop hin (Nat.le_add_left _ _) hx
  exact ⟨hhrr, es, ⟨htype, hframed, hversion, rfl, hsuite, hcomp, hin, hlists⟩, hread⟩

end MacTLS
