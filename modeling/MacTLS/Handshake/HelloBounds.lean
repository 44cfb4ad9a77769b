import MacTLS.Handshake.HelloExtensions
import MacTLS.Bounds

/-!
# The bounds of the ServerHello parser

`tls13_parse_server_hello` with every read of the record and every copy into a buffer checked.  It
keeps to its bounds but for one place: a key share of three bytes has no room for the length of a
point, which is read nevertheless, and the second byte of that length is outside a record that ends
with the extension.

* `tls13ParseServerHelloAt_eq` : inside its bounds it is the parser;
* `MeetsShortShare` : the walk comes to such a key share;
* `hello_bounds_iff` : the parser keeps to its bounds exactly on the records where it does not.
-/

namespace MacTLS

open Lib

variable {C : Crypto} {hs : HsCtx} {msg : Bytes}

/-! ### Every access checked -/

/-- The key_share extension of `len` bytes at `off`; the point is copied into `server_public`. -/
def shKeyShareAt (msg : Bytes) (off len : ℕ) (x : ShExts) : Checked Empty (Except ℕ ShExts) :=
  if len < 2 then .ok (.error brErrBadParam)
  else do
    let group ← readU16 msg off
    if len = 2 then .ok (.ok { x with shareGroup := some group })
    else do
      let keLen ← readU16 msg (off + 2)
      if tls13BrCurveForGroup group = 0 then .ok (.error brErrBadParam)
      else if keLen = 0 ∨ len ≠ 4 + keLen ∨ keLen > publicSize then .ok (.error brErrBadParam)
      else do
        copyFits keLen publicSize
        let serverPublic ← window msg (off + 4) keLen
        return .ok { x with shareGroup := some group, serverPublic }

/-- The cookie extension; the cookie is copied into the context. -/
def shCookieAt (msg : Bytes) (off len : ℕ) (x : ShExts) : Checked Empty (Except ℕ ShExts) :=
  if len < 2 then .ok (.error brErrBadParam)
  else do
    let cookieLen ← readU16 msg off
    if cookieLen + 2 ≠ len then .ok (.error brErrBadParam)
    else if cookieLen > cookieSize then .ok (.error brErrTooLarge)
    else do
      copyFits cookieLen cookieSize
      let cookie ← window msg (off + 2) cookieLen
      return .ok { x with cookie := some cookie }

def shExtensionAt (msg : Bytes) (type off len : ℕ) (x : ShExts) :
    Checked Empty (Except ℕ ShExts) :=
  if type = tls13ExtSupportedVersions then
    if len ≠ 2 then .ok (.error brErrBadParam)
    else do
      let version ← readU16 msg off
      return .ok { x with version := some version }
  else if type = tls13ExtKeyShare then shKeyShareAt msg off len x
  else if type = tls13ExtCookie then shCookieAt msg off len x
  else if type = tls13ExtPreSharedKey then
    if len ≠ 2 then .ok (.error brErrBadParam)
    else .ok (.ok { x with selectedPsk := true })
  else .ok (.ok x)

def shExtLoopAt (msg : Bytes) (extEnd : ℕ) :
    ℕ → ℕ → ShExts → Checked Empty (ShExts × Option ℕ)
  | 0, _, x => .ok (x, none)
  | fuel + 1, pos, x =>
    if pos + 4 ≤ extEnd then do
      let extType ← readU16 msg pos
      let extLen ← readU16 msg (pos + 2)
      let data := pos + 4
      if data + extLen > extEnd then .ok (x, some brErrBadParam)
      else do
        match ← shExtensionAt msg extType data extLen x with
        | .error err => .ok (x, some err)
        | .ok x => shExtLoopAt msg extEnd fuel (data + extLen) x
    else .ok (x, none)

def shHeadAt (msg : Bytes) : Checked Empty ShHead :=
  if msg.length < 44 then .ok (.refused brErrBadParam)
  else do
    let hsType ← cell msg 0
    if hsType ≠ tls13HtServerHello then .ok (.refused brErrUnexpected)
    else do
      let hsMsgLen ← readU24 msg 1
      if 4 + hsMsgLen > msg.length then .ok (.refused brErrBadParam)
      else do
        let version ← readU16 msg 4
        if version ≠ tls12Version then .ok (.refused brErrBadVersion)
        else do
          let random ← window msg 6 32
          let isHrr : Bool := random = hrrRandom
          let sessionIdLen ← cell msg 38
          let suitePos := 39 + sessionIdLen.toNat
          if suitePos > msg.length then .ok (.refused brErrBadParam)
          else if suitePos + 2 > msg.length then .ok (.refused brErrBadParam)
          else do
            let cipherSuite ← readU16 msg suitePos
            if suitePos + 2 ≥ msg.length then .ok (.refused brErrBadParam)
            else do
              let compression ← cell msg (suitePos + 2)
              if compression ≠ 0 then .ok (.refused brErrBadParam)
              else if suitePos + 5 > msg.length then .ok .noExtensions
              else do
                let extTotalLen ← readU16 msg (suitePos + 3)
                let extEnd := suitePos + 5 + extTotalLen
                if extEnd > msg.length then .ok (.refused brErrBadParam)
                else .ok (.fields isHrr cipherSuite (suitePos + 5) extEnd)

def tls13ParseServerHelloAt (C : Crypto) (hs : HsCtx) (msg : Bytes) : Checked Empty Outcome := do
  match ← shHeadAt msg with
  | .refused err => .ok (hs.fail err [])
  | .noExtensions => .ok ⟨.fallback12, hs, []⟩
  | .fields isHrr suite extPos extEnd => do
    match ← shExtLoopAt msg extEnd extEnd extPos .empty with
    | (x, some err) => .ok ((hs.applyExts x).fail err [])
    | (x, none) => do
      -- what the transcript takes
      let _ ← window (ε := Empty) msg 0 (declaredLen msg)
      .ok (shNegotiate C (hs.applyExts x) msg isHrr suite x)

/-! ### Inside the bounds -/

variable {x : ShExts} {off len extEnd pos : ℕ}

/-- A key share of `len` bytes at `off` has its point's length read outside the record. -/
def ShortShareAtEnd (msg : Bytes) (off len : ℕ) : Prop := len = 3 ∧ off + 3 = msg.length

theorem shKeyShareAt_eq (h : off + len ≤ msg.length) (hshort : ¬ShortShareAtEnd msg off len) :
    shKeyShareAt msg off len x = .ok (shKeyShare x (slice msg off len)) := by
  unfold ShortShareAtEnd at hshort
  unfold shKeyShareAt shKeyShare
  rw [length_slice h]
  by_cases h2 : len < 2
  · rw [if_pos h2, if_pos h2]
  have hgroup : getU16 (slice msg off len) 0 = getU16 msg off := getU16_slice (by omega)
  rw [if_neg h2, if_neg h2, readU16_eq (by omega), hgroup]
  dsimp only [bind, Except.bind]
  by_cases hgroupOnly : len = 2
  · rw [if_pos hgroupOnly, if_pos hgroupOnly]
  rw [if_neg hgroupOnly, if_neg hgroupOnly, readU16_eq (by omega)]
  dsimp only
  by_cases hcurve : tls13BrCurveForGroup (getU16 msg off) = 0
  · rw [if_pos hcurve, if_pos hcurve]
  rw [if_neg hcurve, if_neg hcurve]
  by_cases hthree : len = 3
  · -- whatever was read, three bytes are not a share
    rw [if_pos (by omega), if_pos (by omega)]
  rw [getU16_slice (by omega)]
  by_cases hform : getU16 msg (off + 2) = 0 ∨ len ≠ 4 + getU16 msg (off + 2) ∨
      getU16 msg (off + 2) > publicSize
  · rw [if_pos hform, if_pos hform]
  rw [if_neg hform, if_neg hform, copyFits_eq (by omega)]
  dsimp only
  rw [window_eq (by omega), slice_slice (by omega)]
  rfl

theorem shCookieAt_eq (h : off + len ≤ msg.length) :
    shCookieAt msg off len x = .ok (shCookie x (slice msg off len)) := by
  unfold shCookieAt shCookie
  rw [length_slice h]
  by_cases h2 : len < 2
  · rw [if_pos h2, if_pos h2]
  have hdecl : getU16 (slice msg off len) 0 = getU16 msg off := getU16_slice (by omega)
  rw [if_neg h2, if_neg h2, readU16_eq (by omega), hdecl]
  dsimp only [bind, Except.bind]
  by_cases hlen : getU16 msg off + 2 ≠ len
  · rw [if_pos hlen, if_pos hlen]
  rw [if_neg hlen, if_neg hlen]
  by_cases hlarge : getU16 msg off > cookieSize
  · rw [if_pos hlarge, if_pos hlarge]
  rw [if_neg hlarge, if_neg hlarge, copyFits_eq (by omega)]
  dsimp only
  rw [window_eq (by omega), slice_slice (by omega)]
  rfl

theorem shExtensionAt_eq {type : ℕ} (h : off + len ≤ msg.length)
    (hshort : ¬(type = tls13ExtKeyShare ∧ ShortShareAtEnd msg off len)) :
    shExtensionAt msg type off len x = .ok (shExtension x type (slice msg off len)) := by
  unfold shExtensionAt shExtension
  rw [length_slice h]
  by_cases hsv : type = tls13ExtSupportedVersions
  · rw [if_pos hsv, if_pos hsv]
    by_cases h2 : len ≠ 2
    · rw [if_pos h2, if_pos h2]
    · rw [if_neg h2, if_neg h2, readU16_eq (by omega), getU16_slice (by omega)]
      rfl
  rw [if_neg hsv, if_neg hsv]
  by_cases hks : type = tls13ExtKeyShare
  · rw [if_pos hks, if_pos hks]
    exact shKeyShareAt_eq h fun hs => hshort ⟨hks, hs⟩
  rw [if_neg hks, if_neg hks]
  by_cases hcookie : type = tls13ExtCookie
  · rw [if_pos hcookie, if_pos hcookie]
    exact shCookieAt_eq h
  rw [if_neg hcookie, if_neg hcookie]
  split_ifs <;> rfl

theorem shHeadAt_eq (msg : Bytes) : shHeadAt msg = .ok (shHead msg) := by
  unfold shHeadAt shHead declaredLen
  dsimp only
  by_cases h44 : msg.length < 44
  · rw [if_pos h44, if_pos h44]
  rw [if_neg h44, if_neg h44, cell_byteAt (by omega)]
  dsimp only [bind, Except.bind]
  by_cases htype : byteAt msg 0 ≠ tls13HtServerHello
  · rw [if_pos htype, if_pos htype]
  rw [if_neg htype, if_neg htype, readU24_eq (by omega)]
  dsimp only
  by_cases hdecl : 4 + getU24 msg 1 > msg.length
  · rw [if_pos hdecl, if_pos hdecl]
  rw [if_neg hdecl, if_neg hdecl, readU16_eq (by omega)]
  dsimp only
  by_cases hversion : getU16 msg 4 ≠ tls12Version
  · rw [if_pos hversion, if_pos hversion]
  rw [if_neg hversion, if_neg hversion, window_eq (by omega), cell_byteAt (by omega)]
  dsimp only
  generalize 39 + (byteAt msg 38).toNat = suitePos
  by_cases hsid : suitePos > msg.length
  · rw [if_pos hsid, if_pos hsid]
  rw [if_neg hsid, if_neg hsid]
  by_cases hsuite : suitePos + 2 > msg.length
  · rw [if_pos hsuite, if_pos hsuite]
  rw [if_neg hsuite, if_neg hsuite, readU16_eq (by omega)]
  dsimp only
  by_cases hroom : suitePos + 2 ≥ msg.length
  · rw [if_pos hroom, if_pos (.inl hroom)]
  rw [if_neg hroom, cell_byteAt (by omega)]
  dsimp only
  by_cases hcomp : byteAt msg (suitePos + 2) ≠ 0
  · rw [if_pos hcomp, if_pos (.inr hcomp)]
  rw [if_neg hcomp, if_neg (not_or.2 ⟨hroom, hcomp⟩)]
  by_cases hexts : suitePos + 5 > msg.length
  · rw [if_pos hexts, if_pos hexts]
  rw [if_neg hexts, if_neg hexts, readU16_eq (by omega)]
  dsimp only
  by_cases hend : suitePos + 5 + getU16 msg (suitePos + 3) > msg.length
  · rw [if_pos hend, if_pos hend]
  · rw [if_neg hend, if_neg hend]

/-- One turn of the walk. -/
theorem shExtLoopAt_succ (hend : extEnd ≤ msg.length) (hroom : pos + 4 ≤ extEnd) (fuel : ℕ)
    (x : ShExts) :
    shExtLoopAt msg extEnd (fuel + 1) pos x =
      if pos + 4 + getU16 msg (pos + 2) > extEnd then .ok (x, some brErrBadParam)
      else (shExtensionAt msg (getU16 msg pos) (pos + 4) (getU16 msg (pos + 2)) x).bind fun
        | .error err => .ok (x, some err)
        | .ok x => shExtLoopAt msg extEnd fuel (pos + 4 + getU16 msg (pos + 2)) x := by
  rw [shExtLoopAt, if_pos hroom, readU16_eq (by omega), readU16_eq (by omega)]
  rfl

/-! ### The short key share -/

/-- From `pos` on, the walk comes to a key share of three bytes that ends with the record; every
extension before it is accepted. -/
inductive MeetsShortShare (msg : Bytes) (extEnd : ℕ) : ℕ → Prop
  | here {pos : ℕ} (htype : getU16 msg pos = tls13ExtKeyShare) (hlen : getU16 msg (pos + 2) = 3)
      (hin : pos + 7 ≤ extEnd) (hlast : pos + 7 = msg.length) : MeetsShortShare msg extEnd pos
  | next {pos : ℕ} (hin : pos + 4 + getU16 msg (pos + 2) ≤ extEnd)
      (hacc : AcceptedExt (getU16 msg pos) (slice msg (pos + 4) (getU16 msg (pos + 2))))
      (h : MeetsShortShare msg extEnd (pos + 4 + getU16 msg (pos + 2))) :
      MeetsShortShare msg extEnd pos

theorem not_wellFormedShare_three {data : Bytes} (h : data.length = 3) :
    ¬WellFormedShare data := by
  unfold WellFormedShare
  omega

theorem shExtLoopAt_eq (hend : extEnd ≤ msg.length) (fuel : ℕ)
    (h : ¬MeetsShortShare msg extEnd pos) :
    shExtLoopAt msg extEnd fuel pos x = .ok (shExtLoop msg extEnd fuel pos x) := by
  induction fuel generalizing pos x with
  | zero => rfl
  | succ fuel ih =>
    by_cases hroom : pos + 4 ≤ extEnd
    · rw [shExtLoopAt_succ hend hroom, shExtLoop_succ _ _ _ _ _ hroom]
      by_cases hfit : pos + 4 + getU16 msg (pos + 2) > extEnd
      · rw [if_pos hfit, if_pos hfit]
      have hshort : ¬(getU16 msg pos = tls13ExtKeyShare ∧
          ShortShareAtEnd msg (pos + 4) (getU16 msg (pos + 2))) := by
        rintro ⟨htype, hlen, hlast⟩
        exact h (.here htype hlen (by omega) hlast)
      rw [if_neg hfit, if_neg hfit, shExtensionAt_eq (by omega) hshort]
      by_cases hacc : AcceptedExt (getU16 msg pos)
          (slice msg (pos + 4) (getU16 msg (pos + 2)))
      · rw [shExtension_eq x hacc]
        exact ih fun hm => h (.next (by omega) hacc hm)
      · obtain ⟨err, herr⟩ := shExtension_refused x hacc
        rw [herr]
        rfl
    · rw [shExtLoopAt, if_neg hroom, shExtLoop_end (by omega)]

/-- Where a short key share ends the record, the walk leaves it. -/
theorem shExtLoopAt_outside (hend : extEnd ≤ msg.length) {fuel : ℕ} (hfuel : extEnd ≤ pos + fuel)
    (h : MeetsShortShare msg extEnd pos) : shExtLoopAt msg extEnd fuel pos x = .error .outside := by
  induction h generalizing fuel x with
  | @here pos htype hlen hin hlast =>
    obtain ⟨fuel, rfl⟩ : ∃ k, fuel = k + 1 := ⟨fuel - 1, by omega⟩
    have hshare : shExtensionAt msg tls13ExtKeyShare (pos + 4) 3 x =
        shKeyShareAt msg (pos + 4) 3 x := rfl
    rw [shExtLoopAt_succ hend (by omega), hlen, if_neg (by omega), htype, hshare, shKeyShareAt,
      if_neg (by decide), readU16_eq (by omega)]
    dsimp only [bind, Except.bind]
    rw [if_neg (by decide), readU16_outside (by omega)]
  | @next pos hin hacc h ih =>
    obtain ⟨fuel, rfl⟩ : ∃ k, fuel = k + 1 := ⟨fuel - 1, by omega⟩
    have hshort : ¬(getU16 msg pos = tls13ExtKeyShare ∧
        ShortShareAtEnd msg (pos + 4) (getU16 msg (pos + 2))) := by
      rintro ⟨htype, hlen, -⟩
      rw [htype, hlen] at hacc
      exact not_wellFormedShare_three (length_slice (by omega)) hacc.1
    rw [shExtLoopAt_succ hend (by omega), if_neg (by omega), shExtensionAt_eq (by omega) hshort,
      shExtension_eq x hacc]
    exact ih (by omega)

/-- The fixed fields are accepted. -/
def HeadAccepted (msg : Bytes) : Prop :=
  byteAt msg 0 = tls13HtServerHello ∧ declaredLen msg ≤ msg.length ∧ getU16 msg 4 = tls12Version ∧
    byteAt msg (compressionPos msg) = 0 ∧ extensionsEnd msg ≤ msg.length

/-- The record of a ServerHello with acceptable fixed fields ends with a key share of three bytes,
and every extension before it is accepted. -/
def EndsInShortShare (msg : Bytes) : Prop :=
  HeadAccepted msg ∧ MeetsShortShare msg (extensionsEnd msg) (extensionsPos msg)

theorem tls13ParseServerHelloAt_eq (C : Crypto) (hs : HsCtx) (h : ¬EndsInShortShare msg) :
    tls13ParseServerHelloAt C hs msg = .ok (tls13ParseServerHello C hs msg) := by
  rw [tls13ParseServerHelloAt, tls13ParseServerHello, shHeadAt_eq]
  dsimp only [bind, Except.bind]
  cases hhead : shHead msg with
  | refused err => rfl
  | noExtensions => rfl
  | fields isHrr suite extPos extEnd =>
    obtain ⟨htype, hdecl, hversion, -, -, hcomp, hin, rfl, rfl⟩ := shHead_fields hhead
    dsimp only
    rw [shExtLoopAt_eq hin _ fun hm => h ⟨⟨htype, hdecl, hversion, hcomp, hin⟩, hm⟩]
    dsimp only
    cases shExtLoop msg (extensionsEnd msg) (extensionsEnd msg) (extensionsPos msg) .empty with
    | mk x err =>
      cases err with
      | some err => rfl
      | none =>
        dsimp only
        rw [window_eq (by omega)]

theorem tls13ParseServerHelloAt_outside (C : Crypto) (hs : HsCtx) (h : EndsInShortShare msg) :
    tls13ParseServerHelloAt C hs msg = .error .outside := by
  obtain ⟨⟨htype, hdecl, hversion, hcomp, hin⟩, hm⟩ := h
  have hle : extensionsPos msg ≤ extensionsEnd msg := Nat.le_add_right _ _
  rw [tls13ParseServerHelloAt, shHeadAt_eq, shHead_eq hdecl (hle.trans hin),
    if_neg (not_not.2 htype), if_neg (not_not.2 hversion), if_neg (not_not.2 hcomp),
    if_neg (Nat.not_lt.2 hin)]
  dsimp only [bind, Except.bind]
  rw [shExtLoopAt_outside hin (Nat.le_add_left _ _) hm]

/-- **Bounds of the ServerHello parser.**  For every context and every record payload, no read
leaves the payload and no copy its destination, exactly unless a key share of three bytes ends an
otherwise acceptable record. -/
theorem hello_bounds_iff (C : Crypto) (hs : HsCtx) (msg : Bytes) :
    Inside (tls13ParseServerHelloAt C hs msg) ↔ ¬EndsInShortShare msg := by
  refine ⟨fun hinside h => hinside (tls13ParseServerHelloAt_outside C hs h), fun h => ?_⟩
  rw [tls13ParseServerHelloAt_eq C hs h]
  exact inside_ok _

/-- A ServerHello without a session id whose only extension is a key share of three bytes. -/
def shortShareHello : Bytes :=
  hsMessage tls13HtServerHello
    (putU16 tls12Version ++ List.replicate 32 0 ++ [0] ++ putU16 tlsAes128GcmSha256 ++ [0] ++
      putU16 7 ++ extension tls13ExtKeyShare [0, 29, 0])

theorem hello_bounds_broken :
    ¬Inside (tls13ParseServerHelloAt .transparent tls13HandshakeInit shortShareHello) :=
  fun h => h (tls13ParseServerHelloAt_outside _ _
    ⟨by unfold HeadAccepted; decide, .here (by decide) (by decide) (by decide) (by decide)⟩)

end MacTLS
