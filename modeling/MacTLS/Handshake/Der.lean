import MacTLS.Handshake.Certificate
import MacTLS.Bounds
import MacTLS.Lib.Decoder
import Mathlib.Data.List.Induction

/-!
# Walking the DER of a certificate

`ostls_der_tlv` and `ostls_cert_dns` on offsets into the certificate, with every read checked
against it and with the arithmetic of `uint32_t`.  A refusal stands for the failure each function
returns, zero and `-1`.

* `derTlvAt_spec` : reading an element stays inside, and so does its value;
* `ostlsCertDnsAt_inside` : so does the walk to the names;
* `derTlvAt_standsAt` : an element that stands at an offset is read whole;
* `ostlsCertDns_eq` : the walk finds the names that `ostlsCertDns` finds on byte strings;
* `der_names` : and those of every certificate put together from elements.
-/

namespace MacTLS

open Lib Lib.Decoder

/-- The value of an expression of type `uint32_t`. -/
def u32 (n : ℕ) : ℕ := n % 4294967296

theorem u32_le (n : ℕ) : u32 n ≤ n := Nat.mod_le _ _

theorem u32_eq {n : ℕ} (h : n < 4294967296) : u32 n = n := Nat.mod_eq_of_lt h

/-! ### The walk -/

/-- What `ostls_der_tlv` sets and returns: the tag, the range of the value, and how many bytes the
element takes. -/
structure DerAt where
  tag : UInt8
  val : ℕ
  vlen : ℕ
  used : ℕ
  deriving DecidableEq

/-- The value must end before `stop`; every caller takes zero bytes for a failure. -/
def derValueAt (p stop : ℕ) (tag : UInt8) (hdr len : ℕ) : Checked Unit DerAt :=
  if len > u32 (stop - (p + hdr)) then .error (.refused ())
  else if u32 (hdr + len) = 0 then .error (.refused ())
  else .ok ⟨tag, p + hdr, len, u32 (hdr + len)⟩

/-- The first `n` length bytes that follow `p + 2`. -/
def derLenAt (b : Bytes) (p : ℕ) : ℕ → Checked Unit ℕ
  | 0 => .ok 0
  | n + 1 => do
    let len ← derLenAt b p n
    let x ← cell b (p + 2 + n)
    return u32 (len <<< 8) ||| x.toNat

/-- Read one element at `p`, bounded by `stop`. -/
def ostlsDerTlvAt (b : Bytes) (p stop : ℕ) : Checked Unit DerAt :=
  if p + 2 > stop then .error (.refused ())
  else do
    let tag ← cell b p
    let l ← cell b (p + 1)
    if l.toNat < 0x80 then derValueAt p stop tag 2 l.toNat
    else
      let nb := l.toNat &&& 0x7F
      if nb = 0 ∨ nb > 4 ∨ p + 2 + nb > stop then .error (.refused ())
      else do
        let len ← derLenAt b p nb
        derValueAt p stop tag (2 + nb) len

/-- Read one element that must be a SEQUENCE. -/
def derSequenceAt (b : Bytes) (p stop : ℕ) : Checked Unit DerAt := do
  let t ← ostlsDerTlvAt b p stop
  if t.tag ≠ 0x30 then .error (.refused ()) else .ok t

/-- Where the element after the one at `p` starts. -/
def derSkipAt (b : Bytes) (p stop : ℕ) : Checked Unit ℕ := do
  let t ← ostlsDerTlvAt b p stop
  return p + t.used

/-- Skip the version, which is explicit and optional. -/
def derVersionAt (b : Bytes) (p stop : ℕ) : Checked Unit ℕ :=
  if p < stop then do
    let x ← cell b p
    if x = 0xA0 then derSkipAt b p stop else .ok p
  else .ok p

/-- The ranges of the issuer and of the subject, as offset and length. -/
structure DnRanges where
  issuer : ℕ × ℕ
  subject : ℕ × ℕ
  deriving DecidableEq

def ostlsCertDnsAt (cert : Bytes) : Checked Unit DnRanges := do
  let outer ← derSequenceAt cert 0 (u32 cert.length)
  let tbs ← derSequenceAt cert outer.val (outer.val + outer.vlen)
  let tbsEnd := tbs.val + tbs.vlen
  let p ← derVersionAt cert tbs.val tbsEnd
  let p ← derSkipAt cert p tbsEnd      -- serialNumber
  let p ← derSkipAt cert p tbsEnd      -- signature
  let issuer ← derSequenceAt cert p tbsEnd
  let fs := p
  let p ← derSkipAt cert (p + issuer.used) tbsEnd      -- validity
  let subject ← derSequenceAt cert p tbsEnd
  return ⟨(fs, issuer.used), (p, subject.used)⟩

/-! ### It stays inside -/

section

variable {b : Bytes} {p stop : ℕ} {t : DerAt}

theorem derValueAt_ok {tag : UInt8} {hdr len : ℕ} (h : derValueAt p stop tag hdr len = .ok t) :
    len ≤ u32 (stop - (p + hdr)) ∧ u32 (hdr + len) ≠ 0 ∧
      t = ⟨tag, p + hdr, len, u32 (hdr + len)⟩ := by
  unfold derValueAt at h
  split_ifs at h with hlen hzero
  cases h
  exact ⟨Nat.le_of_not_lt hlen, hzero, rfl⟩

theorem inside_derValueAt (p stop : ℕ) (tag : UInt8) (hdr len : ℕ) :
    Inside (derValueAt p stop tag hdr len) := by
  unfold derValueAt
  split_ifs
  · exact inside_refused _
  · exact inside_refused _
  · exact inside_ok _

theorem inside_derLenAt {n : ℕ} (h : p + 2 + n ≤ b.length) : Inside (derLenAt b p n) := by
  induction n with
  | zero => exact inside_ok _
  | succ n ih =>
    refine (ih (by omega)).bind fun len _ => (inside_cell (by omega)).bind fun x _ => ?_
    exact inside_ok _

/-- What reading an element yields: it takes at least a byte and ends no later than its value. -/
structure DerAt.Within (t : DerAt) (p stop : ℕ) : Prop where
  starts : p + 2 ≤ t.val
  ends : t.val + t.vlen ≤ stop
  used : p + t.used ≤ t.val + t.vlen
  pos : 0 < t.used

theorem derValueAt_within {tag : UInt8} {hdr len : ℕ} (hhdr : 2 ≤ hdr) (hin : p + hdr ≤ stop)
    (h : derValueAt p stop tag hdr len = .ok t) : t.Within p stop := by
  obtain ⟨hlen, hzero, rfl⟩ := derValueAt_ok h
  have h1 := u32_le (stop - (p + hdr))
  have h2 := u32_le (hdr + len)
  exact ⟨by dsimp only; omega, by dsimp only; omega, by dsimp only; omega, Nat.pos_of_ne_zero hzero⟩

/-- Reading an element stays inside the bytes up to `stop`. -/
theorem derTlvAt_spec (hstop : stop ≤ b.length) :
    Inside (ostlsDerTlvAt b p stop) ∧ ∀ t, ostlsDerTlvAt b p stop = .ok t → t.Within p stop := by
  unfold ostlsDerTlvAt
  by_cases hp : p + 2 > stop
  · rw [if_pos hp]
    exact ⟨inside_refused _, fun t h => by cases h⟩
  rw [if_neg hp, cell_eq (show p < b.length by omega), cell_eq (show p + 1 < b.length by omega)]
  dsimp only [bind, Except.bind]
  split_ifs with hshort hlong
  · exact ⟨inside_derValueAt _ _ _ _ _, fun t h => derValueAt_within (Nat.le_refl 2) (by omega) h⟩
  · exact ⟨inside_refused _, fun t h => by cases h⟩
  · push Not at hlong
    refine ⟨(inside_derLenAt (by omega)).bind fun len _ => inside_derValueAt _ _ _ _ _,
      fun t h => ?_⟩
    obtain ⟨len, -, h⟩ := bind_eq_ok h
    exact derValueAt_within (by omega) (by omega) h

theorem derSequenceAt_spec (hstop : stop ≤ b.length) :
    Inside (derSequenceAt b p stop) ∧
      ∀ t, derSequenceAt b p stop = .ok t → t.tag = 0x30 ∧ t.Within p stop := by
  obtain ⟨hin, hok⟩ := @derTlvAt_spec b p stop hstop
  constructor
  · refine hin.bind fun t _ => ?_
    split_ifs
    · exact inside_refused _
    · exact inside_ok _
  · intro t h
    obtain ⟨t', ht', h⟩ := bind_eq_ok h
    split_ifs at h with htag
    cases h
    rw [not_not] at htag
    exact ⟨htag, hok _ ht'⟩

theorem derSkipAt_spec (hstop : stop ≤ b.length) :
    Inside (derSkipAt b p stop) ∧ ∀ q, derSkipAt b p stop = .ok q → p < q ∧ q ≤ stop := by
  obtain ⟨hin, hok⟩ := @derTlvAt_spec b p stop hstop
  refine ⟨hin.bind fun t _ => inside_ok _, fun q h => ?_⟩
  obtain ⟨t, ht, h⟩ := bind_eq_ok h
  cases h
  obtain ⟨-, hends, hused, hpos⟩ := hok t ht
  omega

theorem derVersionAt_spec (hstop : stop ≤ b.length) (hp : p ≤ stop) :
    Inside (derVersionAt b p stop) ∧ ∀ q, derVersionAt b p stop = .ok q → q ≤ stop := by
  obtain ⟨hin, hok⟩ := @derSkipAt_spec b p stop hstop
  unfold derVersionAt
  by_cases hlt : p < stop
  · rw [if_pos hlt, cell_eq (show p < b.length by omega)]
    dsimp only [bind, Except.bind]
    split_ifs
    · exact ⟨hin, fun q h => (hok q h).2⟩
    · exact ⟨inside_ok _, fun q h => by cases h; exact hp⟩
  · rw [if_neg hlt]
    exact ⟨inside_ok _, fun q h => by cases h; exact hp⟩

end

/-- The walk to the names stays inside the certificate, and so do the ranges it finds. -/
theorem ostlsCertDnsAt_inside (cert : Bytes) : Inside (ostlsCertDnsAt cert) ∧
    ∀ r, ostlsCertDnsAt cert = .ok r → r.issuer.1 + r.issuer.2 ≤ cert.length ∧
      r.subject.1 + r.subject.2 ≤ cert.length := by
  have hcert := u32_le cert.length
  obtain ⟨houter, houter'⟩ := @derSequenceAt_spec cert 0 _ hcert
  -- where each part of the walk may go, given where the last one ended
  have htbs : ∀ outer : DerAt, outer.Within 0 (u32 cert.length) →
      outer.val + outer.vlen ≤ cert.length := fun outer h => Nat.le_trans h.ends hcert
  have hend : ∀ outer tbs : DerAt, outer.Within 0 (u32 cert.length) →
      tbs.Within outer.val (outer.val + outer.vlen) → tbs.val + tbs.vlen ≤ cert.length :=
    fun outer tbs h h' => Nat.le_trans h'.ends (htbs outer h)
  constructor
  · refine houter.bind fun outer ho => ?_
    have hw := (houter' outer ho).2
    refine (derSequenceAt_spec (htbs outer hw)).1.bind fun tbs ht => ?_
    have hw' := ((derSequenceAt_spec (htbs outer hw)).2 tbs ht).2
    have hstop := hend outer tbs hw hw'
    refine (derVersionAt_spec hstop (Nat.le_add_right _ _)).1.bind fun p _ => ?_
    refine (derSkipAt_spec hstop).1.bind fun p _ => (derSkipAt_spec hstop).1.bind fun p _ => ?_
    refine (derSequenceAt_spec hstop).1.bind fun issuer _ => ?_
    refine (derSkipAt_spec hstop).1.bind fun p _ => ?_
    exact (derSequenceAt_spec hstop).1.bind fun subject _ => inside_ok _
  · intro r h
    obtain ⟨outer, ho, h⟩ := bind_eq_ok h
    have hw := (houter' outer ho).2
    obtain ⟨tbs, ht, h⟩ := bind_eq_ok h
    have hw' := ((derSequenceAt_spec (htbs outer hw)).2 tbs ht).2
    have hstop := hend outer tbs hw hw'
    obtain ⟨p, -, h⟩ := bind_eq_ok h
    obtain ⟨p, -, h⟩ := bind_eq_ok h
    obtain ⟨p, -, h⟩ := bind_eq_ok h
    obtain ⟨issuer, hi, h⟩ := bind_eq_ok h
    obtain ⟨q, -, h⟩ := bind_eq_ok h
    obtain ⟨subject, hs, h⟩ := bind_eq_ok h
    cases h
    have hi := ((derSequenceAt_spec hstop).2 issuer hi).2
    have hs := ((derSequenceAt_spec hstop).2 subject hs).2
    exact ⟨Nat.le_trans hi.used (Nat.le_trans hi.ends hstop),
      Nat.le_trans hs.used (Nat.le_trans hs.ends hstop)⟩

/-! ### Elements -/

/-- How the length of an element is written: in one byte, or in `n` bytes after a first one. -/
inductive LengthForm where
  | short
  | long (n : ℕ)
  deriving DecidableEq

/-- The form can hold this length. -/
def LengthForm.Holds : LengthForm → ℕ → Prop
  | .short, len => len < 128
  | .long n, len => 1 ≤ n ∧ n ≤ 4 ∧ len < 256 ^ n

instance : ∀ (form : LengthForm) (len : ℕ), Decidable (form.Holds len)
  | .short, len => inferInstanceAs (Decidable (len < 128))
  | .long n, len => inferInstanceAs (Decidable (1 ≤ n ∧ n ≤ 4 ∧ len < 256 ^ n))

/-- `v` in `n` bytes, the most significant one first. -/
def putBytes : ℕ → ℕ → Bytes
  | 0, _ => []
  | n + 1, v => putBytes n (v / 256) ++ [UInt8.ofNat v]

def LengthForm.encode : LengthForm → ℕ → Bytes
  | .short, len => [UInt8.ofNat len]
  | .long n, len => UInt8.ofNat (128 + n) :: putBytes n len

/-- A DER element whose length is written in a form that can hold it. -/
structure DerElement where
  tag : UInt8
  form : LengthForm
  value : Bytes
  holds : form.Holds value.length

def DerElement.header (e : DerElement) : Bytes := e.tag :: e.form.encode e.value.length

def DerElement.encode (e : DerElement) : Bytes := e.header ++ e.value

theorem DerElement.encode_ne_nil (e : DerElement) : e.encode ≠ [] := by
  simp [DerElement.encode, DerElement.header]

@[simp] theorem length_putBytes (n v : ℕ) : (putBytes n v).length = n := by
  induction n generalizing v with
  | zero => rfl
  | succ n ih => rw [putBytes, List.length_append, ih, List.length_singleton]

theorem bigEndian_singleton (x : UInt8) : bigEndian [x] = x.toNat := by simp [bigEndian]

theorem bigEndian_lt (b : Bytes) : bigEndian b < 256 ^ b.length := by
  induction b using List.reverseRecOn with
  | nil => decide
  | append_singleton b x ih =>
    have hx := toNat_lt_256 x
    rw [bigEndian_append, bigEndian_singleton, List.length_append, List.length_singleton,
      Nat.pow_succ, Nat.pow_zero, Nat.one_mul, Nat.pow_succ]
    omega

theorem bigEndian_putBytes {n v : ℕ} (h : v < 256 ^ n) : bigEndian (putBytes n v) = v := by
  induction n generalizing v with
  | zero =>
    rw [Nat.pow_zero] at h
    rw [putBytes, show v = 0 by omega]
    rfl
  | succ n ih =>
    rw [Nat.pow_succ] at h
    rw [putBytes, bigEndian_append, ih (by omega), bigEndian_singleton, List.length_singleton,
      Nat.pow_one, UInt8.toNat_ofNat']
    omega

section

variable {b : Bytes} {p stop : ℕ}

/-- The loop over the length bytes accumulates their value, which four of them keep below `2^32`. -/
theorem derLenAt_standsAt {bytes : Bytes} (h : StandsAt b (p + 2) bytes) {n : ℕ}
    (hn : n ≤ bytes.length) (h4 : n ≤ 4) :
    derLenAt b p n = .ok (bigEndian (bytes.take n)) := by
  induction n with
  | zero => rfl
  | succ n ih =>
    have hlt := bigEndian_lt (bytes.take n)
    have hpow : 256 ^ (bytes.take n).length ≤ 256 ^ 3 :=
      Nat.pow_le_pow_right (by decide) (by rw [List.length_take]; omega)
    have hin : n < bytes.length := by omega
    have hbyte := toNat_lt_256 bytes[n]
    rw [derLenAt, ih (by omega) (by omega), h.cell hin]
    dsimp only [bind, Except.bind, pure, Except.pure]
    rw [Nat.shiftLeft_eq, u32_eq (by omega), ← Nat.shiftLeft_eq,
      ← Nat.shiftLeft_add_eq_or_of_lt hbyte, Nat.shiftLeft_eq,
      ← List.take_concat_get' _ _ (by omega), bigEndian_append, List.length_singleton,
      Nat.pow_one, bigEndian_singleton]

/-- An element that stands at an offset is read whole. -/
theorem derTlvAt_standsAt {e : DerElement} (h : StandsAt b p e.encode)
    (hin : p + e.encode.length ≤ stop) (hsmall : stop < 4294967296) :
    ostlsDerTlvAt b p stop =
      .ok ⟨e.tag, p + e.header.length, e.value.length, e.encode.length⟩ := by
  have hlen : e.encode.length = e.header.length + e.value.length := List.length_append
  have hvalue : ∀ tag hdr, hdr = e.header.length → derValueAt p stop tag hdr e.value.length =
      .ok ⟨tag, p + e.header.length, e.value.length, e.encode.length⟩ := by
    rintro tag hdr rfl
    have hpos : 0 < e.header.length := Nat.succ_pos _
    rw [derValueAt, u32_eq (by omega), u32_eq (by omega), if_neg (by omega), if_neg (by omega),
      hlen]
  have hhead : StandsAt b p e.header := h.left
  have hp : ¬p + 2 > stop := by
    have htwo : 2 ≤ e.header.length := by
      unfold DerElement.header
      cases e.form <;> simp [LengthForm.encode]
    omega
  have htag : (cell b p : Checked Unit UInt8) = .ok e.tag := hhead.cell (Nat.succ_pos _)
  rw [ostlsDerTlvAt, if_neg hp, htag]
  dsimp only [bind, Except.bind]
  have hform : StandsAt b (p + 1) (e.form.encode e.value.length) :=
    StandsAt.right (x := [e.tag]) hhead
  have hholds := e.holds
  have hheader : e.header.length = (e.form.encode e.value.length).length + 1 := rfl
  generalize e.form = form at hform hholds hheader
  cases form with
  | short =>
    have hl : (cell b (p + 1) : Checked Unit UInt8) = .ok (UInt8.ofNat e.value.length) :=
      hform.cell (Nat.succ_pos _)
    have hnat : (UInt8.ofNat e.value.length).toNat = e.value.length :=
      toNat_ofNat_of_lt (Nat.lt_trans hholds (by decide))
    rw [hl]
    dsimp only
    rw [hnat, if_pos (show e.value.length < 0x80 from hholds)]
    exact hvalue _ _ hheader.symm
  | long n =>
    obtain ⟨hn1, hn4, hlt⟩ := hholds
    have hl : (cell b (p + 1) : Checked Unit UInt8) = .ok (UInt8.ofNat (128 + n)) :=
      hform.cell (Nat.succ_pos _)
    have hnat : (UInt8.ofNat (128 + n)).toNat = 128 + n := toNat_ofNat_of_lt (by omega)
    have hnb : (128 + n) &&& 0x7F = n := by
      rw [show (0x7F : ℕ) = 2 ^ 7 - 1 from rfl, Nat.and_two_pow_sub_one_eq_mod]
      omega
    have hbytes : StandsAt b (p + 2) (putBytes n e.value.length) :=
      StandsAt.right (x := [UInt8.ofNat (128 + n)]) hform
    have hlenAt : derLenAt b p n = .ok e.value.length := by
      rw [derLenAt_standsAt hbytes (by rw [length_putBytes]) hn4,
        List.take_of_length_le (by rw [length_putBytes]), bigEndian_putBytes hlt]
    have hhdr : e.header.length = 2 + n := by
      rw [hheader, LengthForm.encode, List.length_cons, length_putBytes]
      omega
    rw [hl]
    dsimp only
    rw [hnat, if_neg (by omega), hnb, if_neg (by omega), hlenAt]
    exact hvalue _ _ hhdr.symm

theorem derSequenceAt_standsAt {e : DerElement} (h : StandsAt b p e.encode) (htag : e.tag = 0x30)
    (hin : p + e.encode.length ≤ stop) (hsmall : stop < 4294967296) :
    derSequenceAt b p stop =
      .ok ⟨e.tag, p + e.header.length, e.value.length, e.encode.length⟩ := by
  rw [derSequenceAt, derTlvAt_standsAt h hin hsmall]
  dsimp only [bind, Except.bind]
  rw [if_neg (by simp [htag])]

theorem derSkipAt_standsAt {e : DerElement} (h : StandsAt b p e.encode)
    (hin : p + e.encode.length ≤ stop) (hsmall : stop < 4294967296) :
    derSkipAt b p stop = .ok (p + e.encode.length) := by
  rw [derSkipAt, derTlvAt_standsAt h hin hsmall]
  rfl

end

/-! ### The same walk on byte strings -/

section

variable {b : Bytes} {p stop : ℕ}

theorem drop_slice {off n k : ℕ} : (slice b off n).drop k = slice b (off + k) (n - k) := by
  rw [slice, slice, List.drop_take, List.drop_drop]

theorem take_slice {off n k : ℕ} (h : k ≤ n) : (slice b off n).take k = slice b off k := by
  rw [slice, slice, List.take_take, Nat.min_eq_left h]

theorem standsAt_slice {off n : ℕ} : StandsAt b off (slice b off n) := List.take_prefix _ _

/-- What an element is as bytes, given where it is. -/
def DerAt.bytes (b : Bytes) (t : DerAt) : DerTlv := ⟨t.tag, t.used, slice b t.val t.vlen⟩

theorem ostlsDerTlv_eq (hp : p ≤ stop) (hstop : stop ≤ b.length) (hsmall : stop < 4294967296) :
    ostlsDerTlv (slice b p (stop - p)) = (ostlsDerTlvAt b p stop).toOption.map (DerAt.bytes b) := by
  have hlen : (slice b p (stop - p)).length = stop - p := length_slice (by omega)
  -- the two ends agree on what is left for the value
  have hvalue : ∀ hdr len tag, 2 ≤ hdr → hdr ≤ stop - p →
      (if len > (slice b p (stop - p)).length - hdr then none
        else some (⟨tag, hdr + len, slice (slice b p (stop - p)) hdr len⟩ : DerTlv)) =
      (derValueAt p stop tag hdr len).toOption.map (DerAt.bytes b) := by
    intro hdr len tag h2 hle
    rw [hlen, derValueAt, u32_eq (by omega)]
    by_cases hgt : len > stop - (p + hdr)
    · rw [if_pos (by omega), if_pos hgt]
      rfl
    · rw [if_neg (by omega), if_neg hgt, u32_eq (by omega), if_neg (by omega)]
      simp only [Except.toOption, Option.map_some, DerAt.bytes, Option.some.injEq, DerTlv.mk.injEq,
        true_and]
      rw [slice, drop_slice, take_slice (by omega)]
  unfold ostlsDerTlv ostlsDerTlvAt
  dsimp only
  by_cases hshort : p + 2 > stop
  · rw [if_pos (by omega), if_pos hshort]
    rfl
  rw [if_neg (by omega), if_neg hshort, byteAt_slice (by omega), byteAt_slice (by omega)]
  rw [cell_byteAt (by omega), cell_byteAt (by omega)]
  dsimp only [bind, Except.bind]
  rw [Nat.add_zero]
  by_cases hform : (byteAt b (p + 1)).toNat < 0x80
  · rw [if_pos hform, if_pos hform]
    exact hvalue _ _ _ (Nat.le_refl 2) (by omega)
  rw [if_neg hform, if_neg hform]
  generalize (byteAt b (p + 1)).toNat &&& 0x7F = nb
  by_cases hlong : nb = 0 ∨ nb > 4 ∨ p + 2 + nb > stop
  · rw [if_pos (by omega), if_pos hlong]
    rfl
  rw [if_neg (by omega), if_neg hlong]
  push Not at hlong
  have hsub : slice (slice b p (stop - p)) 2 nb = slice b (p + 2) nb := by
    rw [slice, drop_slice, take_slice (by omega)]
  have hnb : (slice b (p + 2) nb).length = nb := length_slice (by omega)
  have hbytes : StandsAt b (p + 2) (slice b (p + 2) nb) := standsAt_slice
  have hloop := derLenAt_standsAt hbytes (Nat.le_of_eq hnb.symm) (by omega)
  rw [List.take_of_length_le (Nat.le_of_eq hnb)] at hloop
  rw [hsub, hloop]
  exact hvalue (2 + nb) _ _ (by omega) (by omega)

/-- The window that is left behind an element. -/
theorem ostlsDerSkip_eq (hp : p ≤ stop) (hstop : stop ≤ b.length) (hsmall : stop < 4294967296) :
    ostlsDerSkip (slice b p (stop - p)) =
      (derSkipAt b p stop).toOption.map fun q => slice b q (stop - q) := by
  rw [ostlsDerSkip, ostlsDerTlv_eq hp hstop hsmall, derSkipAt]
  cases h : ostlsDerTlvAt b p stop with
  | error e => rfl
  | ok t =>
    simp only [Except.toOption, Option.map_some, bind, Except.bind, pure, Except.pure, DerAt.bytes]
    rw [drop_slice, Nat.sub_sub]

theorem ostlsDerName_eq (hp : p ≤ stop) (hstop : stop ≤ b.length) (hsmall : stop < 4294967296) :
    ostlsDerName (slice b p (stop - p)) = (derSequenceAt b p stop).toOption.map fun t =>
      (slice b p t.used, slice b (p + t.used) (stop - (p + t.used))) := by
  rw [ostlsDerName, ostlsDerTlv_eq hp hstop hsmall, derSequenceAt]
  obtain ⟨-, hok⟩ := @derTlvAt_spec b p stop hstop
  cases h : ostlsDerTlvAt b p stop with
  | error e => rfl
  | ok t =>
    obtain ⟨-, hends, hused, -⟩ := hok t h
    simp only [Except.toOption, Option.map_some, Option.bind_some, bind, Except.bind, DerAt.bytes]
    split_ifs with htag
    · rfl
    · rw [Option.map_some, drop_slice, Nat.sub_sub, take_slice (by omega)]

theorem derVersion_eq (hp : p ≤ stop) (hstop : stop ≤ b.length) (hsmall : stop < 4294967296) :
    (if (slice b p (stop - p)).length > 0 ∧ byteAt (slice b p (stop - p)) 0 = 0xA0 then
      ostlsDerSkip (slice b p (stop - p)) else some (slice b p (stop - p))) =
      (derVersionAt b p stop).toOption.map fun q => slice b q (stop - q) := by
  have hlen : (slice b p (stop - p)).length = stop - p := length_slice (by omega)
  rw [hlen, derVersionAt]
  by_cases hlt : p < stop
  · rw [if_pos hlt, cell_byteAt (by omega), byteAt_slice (by omega), Nat.add_zero,
      ostlsDerSkip_eq hp hstop hsmall]
    dsimp only [bind, Except.bind]
    by_cases htag : byteAt b p = 0xA0
    · rw [if_pos ⟨by omega, htag⟩, if_pos htag]
    · rw [if_neg fun h => htag h.2, if_neg htag]
      rfl
  · rw [if_neg hlt, if_neg (by omega)]
    rfl

end

/-- One read after another, on both sides. -/
theorem toOption_bind {ι γ δ κ : Type} {c : Checked Unit ι} {f : ι → κ} {k : κ → Option γ}
    {k' : ι → Checked Unit δ} {g : δ → γ}
    (hk : ∀ a, c = .ok a → k (f a) = (k' a).toOption.map g) :
    (c.toOption.map f).bind k = (c >>= k').toOption.map g := by
  cases c with
  | error e => rfl
  | ok a => exact hk a rfl

theorem ostlsDerTlv_sequence {b : Bytes} {p stop : ℕ} {γ : Type} {k : DerTlv → Option γ}
    (hp : p ≤ stop) (hstop : stop ≤ b.length) (hsmall : stop < 4294967296) :
    ((ostlsDerTlv (slice b p (stop - p))).bind fun t => if t.tag ≠ 0x30 then none else k t) =
      ((derSequenceAt b p stop).toOption.map (DerAt.bytes b)).bind k := by
  rw [ostlsDerTlv_eq hp hstop hsmall, derSequenceAt]
  cases ostlsDerTlvAt b p stop with
  | error e => rfl
  | ok t =>
    simp only [Except.toOption, Option.map_some, Option.bind_some, bind, Except.bind, DerAt.bytes]
    split_ifs <;> rfl

/-- The steps of the walk, one after another. -/
theorem ostlsCertDns_steps (cert : Bytes) : ostlsCertDns cert =
    (ostlsDerTlv cert).bind fun outer => if outer.tag ≠ 0x30 then none else
    (ostlsDerTlv outer.val).bind fun tbs => if tbs.tag ≠ 0x30 then none else
    (if tbs.val.length > 0 ∧ byteAt tbs.val 0 = 0xA0 then ostlsDerSkip tbs.val
      else some tbs.val).bind fun p =>
    (ostlsDerSkip p).bind fun p => (ostlsDerSkip p).bind fun p =>
    (ostlsDerName p).bind fun issuer => (ostlsDerSkip issuer.2).bind fun p =>
    (ostlsDerName p).bind fun subject => some (issuer.1, subject.1) := by
  unfold ostlsCertDns
  cases ostlsDerTlv cert with
  | none => rfl
  | some outer =>
    by_cases h : outer.tag ≠ 0x30
    · simp [h]
    · simp only [Option.bind_eq_bind, Option.bind_some, if_neg h]
      cases ostlsDerTlv outer.val with
      | none => rfl
      | some tbs =>
        by_cases h' : tbs.tag ≠ 0x30
        · simp [h']
        · simp only [Option.bind_some, if_neg h']
          split_ifs <;> rfl

/-- On certificates that a `uint32_t` can count, the offsets are those of the names in bytes. -/
theorem ostlsCertDns_eq {cert : Bytes} (hsize : cert.length < 4294967296) :
    ostlsCertDns cert = (ostlsCertDnsAt cert).toOption.map fun r =>
      (slice cert r.issuer.1 r.issuer.2, slice cert r.subject.1 r.subject.2) := by
  have hself : slice cert 0 (cert.length - 0) = cert := slice_zero_length cert
  have houter := @derSequenceAt_spec cert 0 _ (Nat.le_refl _)
  rw [ostlsCertDns_steps, ostlsCertDnsAt, u32_eq hsize]
  conv_lhs => rw [← hself]
  rw [ostlsDerTlv_sequence (Nat.zero_le _) (Nat.le_refl _) hsize]
  refine toOption_bind fun outer ho => ?_
  obtain ⟨-, hwo⟩ := houter.2 outer ho
  have htbs : outer.val + outer.vlen ≤ cert.length := hwo.ends
  have hsub : slice cert outer.val outer.vlen =
      slice cert outer.val (outer.val + outer.vlen - outer.val) := by rw [Nat.add_sub_cancel_left]
  rw [DerAt.bytes]
  dsimp only
  rw [hsub, ostlsDerTlv_sequence (Nat.le_add_right _ _) htbs (by omega)]
  refine toOption_bind fun tbs ht => ?_
  obtain ⟨-, hwt⟩ := (derSequenceAt_spec htbs).2 tbs ht
  have hend : tbs.val + tbs.vlen ≤ cert.length := Nat.le_trans hwt.ends htbs
  have hval : slice cert tbs.val tbs.vlen =
      slice cert tbs.val (tbs.val + tbs.vlen - tbs.val) := by rw [Nat.add_sub_cancel_left]
  rw [DerAt.bytes]
  dsimp only
  rw [hval, derVersion_eq (Nat.le_add_right _ _) hend (by omega)]
  refine toOption_bind fun p hp => ?_
  have hp := (derVersionAt_spec hend (Nat.le_add_right _ _)).2 p hp
  rw [ostlsDerSkip_eq hp hend (by omega)]
  refine toOption_bind fun p hp => ?_
  have hp := ((derSkipAt_spec hend).2 p hp).2
  rw [ostlsDerSkip_eq hp hend (by omega)]
  refine toOption_bind fun p hp => ?_
  have hp := ((derSkipAt_spec hend).2 p hp).2
  rw [ostlsDerName_eq hp hend (by omega)]
  refine toOption_bind fun issuer hi => ?_
  obtain ⟨-, hwi⟩ := (derSequenceAt_spec hend).2 issuer hi
  dsimp only
  rw [ostlsDerSkip_eq (Nat.le_trans hwi.used hwi.ends) hend (by omega)]
  refine toOption_bind fun q hq => ?_
  have hq := ((derSkipAt_spec hend).2 q hq).2
  rw [ostlsDerName_eq hq hend (by omega)]
  exact toOption_bind fun subject _ => rfl

/-! ### Certificates -/

/-- A certificate put together from elements: its names are sequences, and the serial number
cannot be taken for a version. -/
structure DerCertificate where
  version : Option DerElement
  serial : DerElement
  signature : DerElement
  issuer : DerElement
  validity : DerElement
  subject : DerElement
  tbsRest : Bytes
  tbs : DerElement
  rest : Bytes
  outer : DerElement
  version_tag : ∀ v ∈ version, v.tag = 0xA0
  serial_tag : serial.tag ≠ 0xA0
  issuer_tag : issuer.tag = 0x30
  subject_tag : subject.tag = 0x30
  tbs_tag : tbs.tag = 0x30
  outer_tag : outer.tag = 0x30
  tbs_value : tbs.value = version.elim [] DerElement.encode ++ (serial.encode ++
    (signature.encode ++ (issuer.encode ++ (validity.encode ++ (subject.encode ++ tbsRest)))))
  outer_value : outer.value = tbs.encode ++ rest

namespace DerCertificate

variable (c : DerCertificate)

def encode : Bytes := c.outer.encode

/-- How many bytes stand in front of the issuer. -/
def issuerPos : ℕ :=
  c.outer.header.length + c.tbs.header.length + (c.version.elim [] DerElement.encode).length +
    c.serial.encode.length + c.signature.encode.length

/-- Where the issuer and the subject are. -/
def names : DnRanges :=
  ⟨(c.issuerPos, c.issuer.encode.length),
    (c.issuerPos + c.issuer.encode.length + c.validity.encode.length, c.subject.encode.length)⟩

end DerCertificate

/-- The version is skipped if there is one. -/
theorem derVersionAt_standsAt {b : Bytes} {p stop : ℕ} {version : Option DerElement}
    {serial : DerElement} {rest : Bytes} (hversion : ∀ v ∈ version, v.tag = 0xA0)
    (hserial : serial.tag ≠ 0xA0)
    (h : StandsAt b p (version.elim [] DerElement.encode ++ (serial.encode ++ rest)))
    (hin : p + (version.elim [] DerElement.encode ++ (serial.encode ++ rest)).length ≤ stop)
    (hsmall : stop < 4294967296) :
    derVersionAt b p stop = .ok (p + (version.elim [] DerElement.encode).length) := by
  have hne : ∀ e : DerElement, 0 < e.encode.length := fun e => Nat.succ_pos _
  have hpos := hne serial
  simp only [List.length_append] at hin
  rw [derVersionAt, if_pos (by omega)]
  cases version with
  | none =>
    have hstands : StandsAt b p (serial.encode ++ rest) := h
    have hcell : (cell b p : Checked Unit UInt8) = .ok serial.tag := hstands.left.cell (hne serial)
    rw [hcell]
    dsimp only [bind, Except.bind]
    rw [if_neg hserial]
    rfl
  | some v =>
    have hcell : (cell b p : Checked Unit UInt8) = .ok v.tag := h.left.cell (hne v)
    rw [hcell]
    dsimp only [bind, Except.bind]
    rw [if_pos (hversion v rfl)]
    exact derSkipAt_standsAt h.left (by simp only [Option.elim] at hin; omega) hsmall

theorem ostlsCertDnsAt_encode (c : DerCertificate) (hsize : c.encode.length < 16777216) :
    ostlsCertDnsAt c.encode = .ok c.names ∧
      StandsAt c.encode c.names.issuer.1 c.issuer.encode ∧
      StandsAt c.encode c.names.subject.1 c.subject.encode := by
  unfold DerCertificate.encode at *
  have hself := standsAt_zero c.outer.encode
  have houter : StandsAt c.outer.encode (0 + c.outer.header.length) (c.tbs.encode ++ c.rest) :=
    c.outer_value ▸ hself.right
  have hlen : c.outer.encode.length = c.outer.header.length + c.outer.value.length :=
    List.length_append
  have hval : c.outer.value.length = c.tbs.encode.length + c.rest.length := by
    rw [c.outer_value, List.length_append]
  have htlen : c.tbs.encode.length = c.tbs.header.length + c.tbs.value.length := List.length_append
  have htbs := houter.left.right
  rw [c.tbs_value] at htbs
  have htval := congrArg List.length c.tbs_value
  simp only [List.length_append] at htval
  have hserial := htbs.right
  have hsignature := hserial.right
  have hissuer := hsignature.right
  have hvalidity := hissuer.right
  have hsubject := hvalidity.right
  refine ⟨?_, by simpa [DerCertificate.names, DerCertificate.issuerPos] using hissuer.left,
    by simpa [DerCertificate.names, DerCertificate.issuerPos] using hsubject.left⟩
  rw [ostlsCertDnsAt, u32_eq (by omega),
    derSequenceAt_standsAt hself c.outer_tag (by omega) (by omega)]
  dsimp only [bind, Except.bind]
  rw [derSequenceAt_standsAt houter.left c.tbs_tag (by omega) (by omega)]
  dsimp only
  rw [derVersionAt_standsAt c.version_tag c.serial_tag htbs
    (by simp only [List.length_append]; omega) (by omega)]
  dsimp only
  rw [derSkipAt_standsAt hserial.left (by omega) (by omega)]
  dsimp only
  rw [derSkipAt_standsAt hsignature.left (by omega) (by omega)]
  dsimp only
  rw [derSequenceAt_standsAt hissuer.left c.issuer_tag (by omega) (by omega)]
  dsimp only
  rw [derSkipAt_standsAt hvalidity.left (by omega) (by omega)]
  dsimp only
  rw [derSequenceAt_standsAt hsubject.left c.subject_tag (by omega) (by omega)]
  simp only [DerCertificate.names, DerCertificate.issuerPos, Nat.zero_add]
  rfl

/-- **Walking a certificate.**  For every byte string the two functions read bytes inside it only,
and what they find on success lies inside it; and for every certificate put together from elements,
shorter than `2^24` bytes, the walk finds exactly the issuer and the subject. -/
theorem der_names :
    (∀ b : Bytes, Inside (ostlsDerTlvAt b 0 b.length) ∧
      ∀ t, ostlsDerTlvAt b 0 b.length = .ok t → t.val + t.vlen ≤ b.length ∧ t.used ≤ b.length) ∧
    (∀ cert : Bytes, Inside (ostlsCertDnsAt cert) ∧
      ∀ r, ostlsCertDnsAt cert = .ok r → r.issuer.1 + r.issuer.2 ≤ cert.length ∧
        r.subject.1 + r.subject.2 ≤ cert.length) ∧
    ∀ c : DerCertificate, c.encode.length < 16777216 →
      ostlsCertDnsAt c.encode = .ok c.names ∧
      slice c.encode c.names.issuer.1 c.names.issuer.2 = c.issuer.encode ∧
      slice c.encode c.names.subject.1 c.names.subject.2 = c.subject.encode := by
  refine ⟨fun b => ?_, ostlsCertDnsAt_inside, fun c hsize => ?_⟩
  · obtain ⟨hin, hok⟩ := @derTlvAt_spec b 0 _ (Nat.le_refl _)
    refine ⟨hin, fun t ht => ?_⟩
    obtain ⟨-, hends, hused, -⟩ := hok t ht
    omega
  · obtain ⟨hok, hissuer, hsubject⟩ := ostlsCertDnsAt_encode c hsize
    exact ⟨hok, hissuer.slice, hsubject.slice⟩

/-- A certificate with empty names, one of them with its length in two bytes. -/
def emptyNames : DerCertificate where
  version := none
  serial := ⟨0x02, .short, [1], by decide⟩
  signature := ⟨0x30, .short, [], by decide⟩
  issuer := ⟨0x30, .short, [], by decide⟩
  validity := ⟨0x30, .short, [], by decide⟩
  subject := ⟨0x30, .long 2, [], by decide⟩
  tbsRest := []
  tbs := ⟨0x30, .short, [0x02, 1, 1, 0x30, 0, 0x30, 0, 0x30, 0, 0x30, 0x82, 0, 0], by decide⟩
  rest := []
  outer := ⟨0x30, .long 1, [0x30, 13, 0x02, 1, 1, 0x30, 0, 0x30, 0, 0x30, 0, 0x30, 0x82, 0, 0],
    by decide⟩
  version_tag := by simp
  serial_tag := by decide
  issuer_tag := rfl
  subject_tag := rfl
  tbs_tag := rfl
  outer_tag := rfl
  tbs_value := rfl
  outer_value := rfl

example : ostlsCertDnsAt emptyNames.encode = .ok ⟨(10, 2), (14, 4)⟩ := by decide

end MacTLS
