import MacTLS.Handshake.ChainOrder
import MacTLS.Handshake.Der
import MacTLS.Handshake.Reassembly

/-!
# The framing of the certificate list

Which Certificate messages reach the validator.  The loop over the list checks every field of an
entry against the end of the list except its last one: the extensions of the entry are skipped
without a check, so a last entry may say that they go on behind the list.

* `Tiled`, `Overrun` : the list is made of whole entries, or of such and one whose extensions go on
  behind it;
* `listCollected_iff` : the loop comes through exactly these lists;
* `certificateFedAt_eq` : no access leaves the message;
* `certificate_framing_iff` : the framing is enforced unless the last entry overruns the list.
-/

namespace MacTLS

open Lib

variable {msg : Bytes} {pos listEnd fuel : ℕ}

/-! ### Entries -/

/-- The fields of the entry fit their length fields. -/
def CertificateEntry.Fits (e : CertificateEntry) : Prop :=
  e.data.length < 16777216 ∧ e.extensions.length < 65536

/-- The list is whole entries, one behind the other. -/
def Tiled (list : Bytes) : Prop :=
  ∃ entries : List CertificateEntry, (∀ e ∈ entries, e.Fits) ∧
    list = entries.flatMap CertificateEntry.encode

/-- The list is whole entries and one more, of whose extensions the end is missing. -/
def Overrun (list : Bytes) : Prop :=
  ∃ (entries : List CertificateEntry) (last : CertificateEntry) (missing : Bytes),
    (∀ e ∈ entries, e.Fits) ∧ last.Fits ∧ missing ≠ [] ∧
      missing.length ≤ last.extensions.length ∧
      list ++ missing = entries.flatMap CertificateEntry.encode ++ last.encode

/-! ### Where the loop ends -/

/-- The positions the loop goes through: where it ends. -/
def listWalk (msg : Bytes) (listEnd : ℕ) : ℕ → ℕ → Option ℕ
  | 0, pos => some pos
  | fuel + 1, pos =>
    if pos < listEnd then
      if pos + 3 > listEnd then none
      else
        let ext := pos + 3 + getU24 msg pos
        if ext > listEnd then none
        else if ext + 2 > listEnd then none
        else listWalk msg listEnd fuel (ext + 2 + getU16 msg ext)
    else some pos

theorem listWalk_isSome (fuel pos : ℕ) (certs : List Bytes) :
    (collectCerts msg listEnd fuel pos certs).isSome = (listWalk msg listEnd fuel pos).isSome := by
  induction fuel generalizing pos certs with
  | zero => rfl
  | succ fuel ih =>
    unfold collectCerts listWalk
    dsimp only
    split_ifs
    · rfl
    · rfl
    · rfl
    · exact ih _ _
    · exact ih _ _
    · rfl

theorem getU16_standsAt {x : Bytes} {v : ℕ} (h : StandsAt msg pos (putU16 v ++ x))
    (hv : v < 65536) : getU16 msg pos = v := by
  obtain ⟨t, ht⟩ := h
  have hread := getU16_putU16 [] (x ++ t) hv
  rw [List.nil_append, List.length_nil, ← List.append_assoc, ht] at hread
  rw [← hread, getU16, getU16, byteAt_drop, byteAt_drop]
  rfl

theorem getU24_standsAt {x : Bytes} {v : ℕ} (h : StandsAt msg pos (putU24 v ++ x))
    (hv : v < 16777216) : getU24 msg pos = v := by
  obtain ⟨t, ht⟩ := h
  have hread := getU24_putU24 [] (x ++ t) hv
  rw [List.nil_append, List.length_nil, ← List.append_assoc, ht] at hread
  rw [← hread, getU24, getU24, byteAt_drop, byteAt_drop, byteAt_drop]
  rfl

/-- One turn of the loop on an entry whose fixed fields stand in the list. -/
theorem listWalk_entry {data rest : Bytes} {extLen : ℕ} (hdata : data.length < 16777216)
    (hext : extLen < 65536)
    (h : StandsAt msg pos (putU24 data.length ++ (data ++ (putU16 extLen ++ rest))))
    (hin : pos + 5 + data.length ≤ listEnd) :
    listWalk msg listEnd (fuel + 1) pos =
      listWalk msg listEnd fuel (pos + 5 + data.length + extLen) := by
  have hlen := getU24_standsAt h hdata
  have hfield := h.right.right
  rw [length_putU24] at hfield
  have hlen' := getU16_standsAt hfield hext
  rw [listWalk]
  dsimp only
  rw [hlen, hlen', if_pos (by omega), if_neg (by omega), if_neg (by omega),
    if_neg (by omega)]
  congr 1
  omega

theorem listWalk_end (h : listEnd ≤ pos) : listWalk msg listEnd fuel pos = some pos := by
  cases fuel with
  | zero => rfl
  | succ fuel => rw [listWalk, if_neg (by omega)]

/-- The loop goes through whole entries one by one. -/
theorem listWalk_entries {entries : List CertificateEntry} {rest : Bytes}
    (hfits : ∀ e ∈ entries, e.Fits)
    (h : StandsAt msg pos (entries.flatMap CertificateEntry.encode ++ rest))
    (hin : pos + (entries.flatMap CertificateEntry.encode).length ≤ listEnd) :
    listWalk msg listEnd (fuel + entries.length) pos =
      listWalk msg listEnd fuel (pos + (entries.flatMap CertificateEntry.encode).length) := by
  induction entries generalizing pos with
  | nil => rfl
  | cons e entries ih =>
    rw [List.flatMap_cons, List.append_assoc] at h
    rw [List.flatMap_cons, List.length_append] at hin ⊢
    have hlen := length_encode e
    obtain ⟨hdata, hext⟩ := hfits e List.mem_cons_self
    have hfields := h.left
    unfold CertificateEntry.encode at hfields
    rw [List.length_cons, ← Nat.add_assoc, listWalk_entry hdata hext hfields (by omega)]
    have hnext : pos + 5 + e.data.length + e.extensions.length = pos + e.encode.length := by omega
    rw [hnext, ih (fun e' he' => hfits e' (List.mem_cons_of_mem _ he')) h.right (by omega),
      Nat.add_assoc]

/-- A list of whole entries ends the loop at its end. -/
theorem listWalk_of_tiled {list : Bytes} (ht : Tiled list) (h : StandsAt msg pos list)
    (hend : listEnd = pos + list.length) (hfuel : list.length < fuel) :
    listWalk msg listEnd fuel pos = some listEnd := by
  obtain ⟨entries, hfits, rfl⟩ := ht
  have hle := length_le_encoded entries
  obtain ⟨k, rfl⟩ : ∃ k, fuel = k + entries.length := ⟨fuel - entries.length, by omega⟩
  rw [listWalk_entries hfits (by rw [List.append_nil]; exact h) (by omega), ← hend]
  exact listWalk_end (Nat.le_refl _)

/-- The part of the last entry that is there. -/
theorem part_of_missing {list pre missing : Bytes} {last : CertificateEntry}
    (hlen : missing.length ≤ last.extensions.length)
    (h : list ++ missing = pre ++ last.encode) :
    ∃ part, last.extensions = part ++ missing ∧ list = pre ++ (putU24 last.data.length ++
      (last.data ++ (putU16 last.extensions.length ++ part))) := by
  have hsuffix : last.extensions <:+ pre ++ last.encode :=
    ⟨pre ++ (putU24 last.data.length ++ (last.data ++ putU16 last.extensions.length)),
      by simp [CertificateEntry.encode]⟩
  obtain ⟨part, hpart⟩ := List.suffix_of_suffix_length_le (h ▸ List.suffix_append list missing)
    hsuffix hlen
  refine ⟨part, hpart.symm, ?_⟩
  have hall : list ++ missing = pre ++ (putU24 last.data.length ++
      (last.data ++ (putU16 last.extensions.length ++ part))) ++ missing := by
    rw [h]
    simp only [CertificateEntry.encode, List.append_assoc, hpart]
  exact List.append_cancel_right hall

/-- An overrun list ends the loop behind its end. -/
theorem listWalk_of_overrun {list : Bytes} (ho : Overrun list) (h : StandsAt msg pos list)
    (hend : listEnd = pos + list.length) (hfuel : list.length < fuel) :
    ∃ q, listWalk msg listEnd fuel pos = some q ∧ listEnd < q := by
  obtain ⟨entries, last, missing, hfits, ⟨hdata, hext⟩, hne, hmissing, heq⟩ := ho
  have hpos := List.length_pos_of_ne_nil hne
  obtain ⟨part, hpart, rfl⟩ := part_of_missing hmissing heq
  have hle := length_le_encoded entries
  simp only [List.length_append, length_putU24, length_putU16] at hend hfuel
  obtain ⟨k, rfl⟩ : ∃ k, fuel = k + 1 + entries.length := ⟨fuel - 1 - entries.length, by omega⟩
  have hall := congrArg List.length hpart
  rw [List.length_append] at hall
  rw [listWalk_entries hfits h (by omega), listWalk_entry hdata hext h.right (by omega),
    listWalk_end (by omega)]
  exact ⟨_, rfl, by omega⟩

/-! ### What the loop goes through -/

theorem slice_three {b : Bytes} {p : ℕ} (h : p + 3 ≤ b.length) :
    slice b p 3 = putU24 (getU24 b p) := by
  have hcons : ∀ q, q < b.length → b.drop q = byteAt b q :: b.drop (q + 1) := by
    intro q hq
    rw [List.drop_eq_getElem_cons hq, byteAt, List.getD_eq_getElem?_getD,
      List.getElem?_eq_getElem hq]
    rfl
  rw [putU24_getU24, slice, hcons p (by omega), hcons (p + 1) (by omega), hcons (p + 2) (by omega)]
  rfl

/-- The fixed fields of the entry at the front of a list, and what follows them. -/
theorem slice_entry (hmsg : listEnd ≤ msg.length)
    (h : pos + 3 + getU24 msg pos + 2 ≤ listEnd) :
    slice msg pos (listEnd - pos) = putU24 (getU24 msg pos) ++
      (slice msg (pos + 3) (getU24 msg pos) ++ (putU16 (getU16 msg (pos + 3 + getU24 msg pos)) ++
        slice msg (pos + 3 + getU24 msg pos + 2) (listEnd - (pos + 3 + getU24 msg pos + 2)))) := by
  rw [slice_split msg pos (show 3 ≤ listEnd - pos by omega), slice_three (by omega),
    slice_split msg (pos + 3) (show getU24 msg pos ≤ listEnd - pos - 3 by omega),
    slice_split msg (pos + 3 + getU24 msg pos)
      (show 2 ≤ listEnd - pos - 3 - getU24 msg pos by omega), slice_two (by omega)]
  congr 4
  omega

theorem Tiled.entry {e : CertificateEntry} {rest : Bytes} (he : e.Fits) (h : Tiled rest) :
    Tiled (e.encode ++ rest) := by
  obtain ⟨entries, hall, rfl⟩ := h
  exact ⟨e :: entries, List.forall_mem_cons.2 ⟨he, hall⟩, by rw [List.flatMap_cons]⟩

theorem Overrun.entry {e : CertificateEntry} {rest : Bytes} (he : e.Fits) (h : Overrun rest) :
    Overrun (e.encode ++ rest) := by
  obtain ⟨entries, last, missing, hall, hlast, hne, hle, hrest⟩ := h
  refine ⟨e :: entries, last, missing, List.forall_mem_cons.2 ⟨he, hall⟩, hlast, hne, hle, ?_⟩
  rw [List.append_assoc, hrest, List.flatMap_cons, List.append_assoc]

/-- An entry whose extensions are longer than what is left of the list. -/
theorem overrun_last (data : Bytes) {part : Bytes} {extLen : ℕ} (hdata : data.length < 16777216)
    (hext : extLen < 65536) (hpart : part.length < extLen) :
    Overrun (putU24 data.length ++ (data ++ (putU16 extLen ++ part))) := by
  have hall : (part ++ List.replicate (extLen - part.length) 0).length = extLen := by
    rw [List.length_append, List.length_replicate]
    omega
  refine ⟨[], ⟨data, part ++ List.replicate (extLen - part.length) 0⟩,
    List.replicate (extLen - part.length) 0, by simp, ⟨hdata, by rw [hall]; exact hext⟩, ?_, ?_, ?_⟩
  · rw [Ne, List.replicate_eq_nil_iff]
    omega
  · dsimp only
    rw [hall, List.length_replicate]
    omega
  · simp only [CertificateEntry.encode, hall, List.flatMap_nil, List.nil_append,
      List.append_assoc]

theorem tiled_or_overrun {q : ℕ} (hmsg : listEnd ≤ msg.length) (hpos : pos ≤ listEnd)
    (hfuel : listEnd - pos < fuel) (h : listWalk msg listEnd fuel pos = some q) :
    q = listEnd ∧ Tiled (slice msg pos (listEnd - pos)) ∨
      listEnd < q ∧ Overrun (slice msg pos (listEnd - pos)) := by
  induction fuel generalizing pos with
  | zero => omega
  | succ fuel ih =>
    rw [listWalk] at h
    dsimp only at h
    split_ifs at h with hlt h3 hdata hext
    · have hd := getU24_lt msg pos
      have he := getU16_lt msg (pos + 3 + getU24 msg pos)
      rw [slice_entry hmsg (show pos + 3 + getU24 msg pos + 2 ≤ listEnd by omega)]
      generalize getU24 msg pos = dlen at *
      generalize getU16 msg (pos + 3 + dlen) = elen at *
      have hdatalen : (slice msg (pos + 3) dlen).length = dlen := length_slice (by omega)
      by_cases hin : pos + 3 + dlen + 2 + elen ≤ listEnd
      · -- the entry ends in the list, and the loop goes on behind it
        have hextlen : (slice msg (pos + 3 + dlen + 2) elen).length = elen :=
          length_slice (by omega)
        have hfits : CertificateEntry.Fits ⟨slice msg (pos + 3) dlen,
            slice msg (pos + 3 + dlen + 2) elen⟩ :=
          ⟨hdatalen.trans_lt hd, hextlen.trans_lt he⟩
        have hentry : putU24 dlen ++ (slice msg (pos + 3) dlen ++ (putU16 elen ++
            slice msg (pos + 3 + dlen + 2) (listEnd - (pos + 3 + dlen + 2)))) =
              CertificateEntry.encode ⟨slice msg (pos + 3) dlen,
                slice msg (pos + 3 + dlen + 2) elen⟩ ++
              slice msg (pos + 3 + dlen + 2 + elen) (listEnd - (pos + 3 + dlen + 2 + elen)) := by
          rw [slice_split msg (pos + 3 + dlen + 2)
            (show elen ≤ listEnd - (pos + 3 + dlen + 2) by omega), Nat.sub_sub]
          simp only [CertificateEntry.encode, hdatalen, hextlen, List.append_assoc]
        rw [hentry]
        obtain ⟨hq, hrest⟩ | ⟨hq, hrest⟩ := ih hin (by omega) h
        · exact .inl ⟨hq, hrest.entry hfits⟩
        · exact .inr ⟨hq, hrest.entry hfits⟩
      · -- the entry goes on behind the list
        have hpartlen : (slice msg (pos + 3 + dlen + 2)
            (listEnd - (pos + 3 + dlen + 2))).length = listEnd - (pos + 3 + dlen + 2) :=
          length_slice (by omega)
        rw [listWalk_end (by omega)] at h
        obtain rfl := Option.some.inj h
        have hlast := overrun_last (slice msg (pos + 3) dlen) (hdatalen.trans_lt hd) he
          (hpartlen.trans_lt (show listEnd - (pos + 3 + dlen + 2) < elen by omega))
        rw [hdatalen] at hlast
        exact .inr ⟨by omega, hlast⟩
    · obtain rfl := Option.some.inj h
      obtain rfl : pos = listEnd := by omega
      refine .inl ⟨rfl, [], by simp, ?_⟩
      rw [Nat.sub_self]
      rfl

/-! ### Every access checked -/

/-- The certificates as ranges of the message. -/
def collectCertsAt (msg : Bytes) (listEnd : ℕ) : ℕ → ℕ → List (ℕ × ℕ) → Checked ℕ (List (ℕ × ℕ))
  | 0, _, certs => .ok certs
  | fuel + 1, pos, certs =>
    if pos < listEnd then
      if pos + 3 > listEnd then .error (.refused brErrBadParam)
      else do
        let certDataLen ← readU24 msg pos
        let data := pos + 3
        if data + certDataLen > listEnd then .error (.refused brErrBadParam)
        else
          let certs :=
            if certs.length < ostlsMaxChain then certs ++ [(data, certDataLen)] else certs
          let ext := data + certDataLen
          if ext + 2 > listEnd then .error (.refused brErrBadParam)
          else do
            let certExtLen ← readU16 msg ext
            collectCertsAt msg listEnd fuel (ext + 2 + certExtLen) certs
    else .ok certs

def certificateListAt (msg : Bytes) : Checked ℕ (List (ℕ × ℕ)) := do
  let hsType ← cell msg 0
  if hsType ≠ tls13HtCertificate then .error (.refused brErrUnexpected)
  else do
    let bodyLen ← readU24 msg 1
    if 4 + bodyLen > msg.length then .error (.refused brErrBadParam)
    else if 4 ≥ 4 + bodyLen then .error (.refused brErrBadParam)
    else do
      let ctxLen ← cell msg 4
      let pos := 5 + ctxLen.toNat
      if pos + 3 > 4 + bodyLen then .error (.refused brErrBadParam)
      else do
        let certListLen ← readU24 msg pos
        let listEnd := pos + 3 + certListLen
        if listEnd > 4 + bodyLen then .error (.refused brErrBadParam)
        else if certListLen = 0 then .error (.refused brErrX509NotTrusted)
        else do
          let certs ← collectCertsAt msg listEnd listEnd (pos + 3) []
          if certs = [] then .error (.refused brErrX509NotTrusted) else .ok certs

/-- The names of a certificate of the message; the windows are what the comparison reads. -/
def certDnsIn (msg : Bytes) (cert : ℕ × ℕ) : Checked ℕ (Option (Bytes × Bytes)) := do
  let cert ← window msg cert.1 cert.2
  match ostlsCertDnsAt cert with
  | .error .outside => .error .outside
  | .error (.refused _) => .ok none
  | .ok d => do
    let issuer ← window cert d.issuer.1 d.issuer.2
    let subject ← window cert d.subject.1 d.subject.2
    return some (issuer, subject)

/-- The inner loop of the ordering over the candidates. -/
def firstLinkAt (msg : Bytes) (certs : List (ℕ × ℕ)) (order : List ℕ) (issuer : Bytes) :
    List ℕ → Checked ℕ (Option ℕ)
  | [] => .ok none
  | j :: js =>
    if order.contains j then firstLinkAt msg certs order issuer js
    else do
      let cert ← cell certs j
      match ← certDnsIn msg cert with
      | none => firstLinkAt msg certs order issuer js
      | some (_, subject) =>
        if subject = issuer then .ok (some j) else firstLinkAt msg certs order issuer js

def orderChainAt (msg : Bytes) (certs : List (ℕ × ℕ)) : ℕ → List ℕ → Checked ℕ (Option (List ℕ))
  | 0, order => .ok (some order)
  | fuel + 1, order => do
    let cert ← cell certs (order.getLastD 0)
    match ← certDnsIn msg cert with
    | none => .ok none
    | some (issuer, _) =>
      match ← firstLinkAt msg certs order issuer (List.range certs.length) with
      | none => .ok (some order)
      | some j =>
        if (order ++ [j]).length ≥ certs.length then .ok (some (order ++ [j]))
        else orderChainAt msg certs fuel (order ++ [j])

/-- Feed the certificates of these indices. -/
def feedAt (msg : Bytes) (certs : List (ℕ × ℕ)) : List ℕ → Checked ℕ (List Bytes)
  | [] => .ok []
  | k :: ks => do
    let cert ← cell certs k
    let data ← window msg cert.1 cert.2
    let rest ← feedAt msg certs ks
    return data :: rest

/-- What the handler feeds to the validator for a message. -/
def certificateFedAt (msg : Bytes) : Checked ℕ (List Bytes) := do
  let certs ← certificateListAt msg
  let order ← orderChainAt msg certs certs.length [0]
  let wire := List.range certs.length
  feedAt msg certs (match order with
    | none => wire
    | some order => if order.length = 1 ∧ certs.length > 1 then wire else order)

/-! ### No access leaves the message -/

/-- The bytes of a range. -/
def rangeBytes (msg : Bytes) (r : ℕ × ℕ) : Bytes := slice msg r.1 r.2

/-- The range lies in the message, and its length is that of a certificate. -/
def InMessage (msg : Bytes) (r : ℕ × ℕ) : Prop := r.1 + r.2 ≤ msg.length ∧ r.2 < 16777216

theorem getD_rangeBytes {certs : List (ℕ × ℕ)} {k : ℕ} (hk : k < certs.length) :
    (certs.map (rangeBytes msg)).getD k [] = rangeBytes msg certs[k] := by simp [hk]

theorem certDnsIn_eq {r : ℕ × ℕ} (h : InMessage msg r) :
    certDnsIn msg r = .ok (ostlsCertDns (rangeBytes msg r)) := by
  obtain ⟨hin, hsmall⟩ := h
  have hlen : (rangeBytes msg r).length = r.2 := length_slice hin
  obtain ⟨hinside, hranges⟩ := ostlsCertDnsAt_inside (rangeBytes msg r)
  rw [ostlsCertDns_eq (by omega), certDnsIn, window_eq hin]
  unfold rangeBytes at *
  dsimp only [bind, Except.bind]
  cases hd : ostlsCertDnsAt (slice msg r.1 r.2) with
  | error e =>
    cases e with
    | outside => exact absurd hd hinside
    | refused u => rfl
  | ok d =>
    obtain ⟨hi, hs⟩ := hranges d hd
    dsimp only
    rw [window_eq hi, window_eq hs]
    rfl

theorem firstLinkAt_eq {certs : List (ℕ × ℕ)} {order js : List ℕ} {issuer : Bytes}
    (hin : ∀ r ∈ certs, InMessage msg r) (hjs : ∀ j ∈ js, j < certs.length) :
    firstLinkAt msg certs order issuer js = .ok (js.find? fun j => !order.contains j &&
      ((ostlsCertDns ((certs.map (rangeBytes msg)).getD j [])).map (·.2) == some issuer)) := by
  induction js with
  | nil => rfl
  | cons j js ih =>
    have hj := hjs j List.mem_cons_self
    have ih := ih fun i hi => hjs i (List.mem_cons_of_mem _ hi)
    rw [firstLinkAt, List.find?_cons, getD_rangeBytes hj]
    cases order.contains j with
    | true => exact ih
    | false =>
      rw [if_neg (by simp), cell_eq hj]
      dsimp only [bind, Except.bind]
      rw [certDnsIn_eq (hin _ (List.getElem_mem hj))]
      dsimp only
      cases ostlsCertDns (rangeBytes msg certs[j]) with
      | none => exact ih
      | some dns =>
        by_cases h : dns.2 = issuer
        · simp [h]
        · have hbeq : (dns.2 == issuer) = false := beq_eq_false_iff_ne.2 h
          simp [h, hbeq, ih]

theorem orderChainAt_eq {certs : List (ℕ × ℕ)} (hin : ∀ r ∈ certs, InMessage msg r) (fuel : ℕ)
    {order : List ℕ} (hlast : order.getLastD 0 < certs.length) :
    orderChainAt msg certs fuel order =
      .ok (orderChain (certs.map (rangeBytes msg)) fuel order) := by
  induction fuel generalizing order with
  | zero => rfl
  | succ fuel ih =>
    rw [orderChainAt, orderChain, getD_rangeBytes hlast, cell_eq hlast]
    dsimp only [bind, Except.bind]
    rw [certDnsIn_eq (hin _ (List.getElem_mem hlast))]
    dsimp only
    cases ostlsCertDns (rangeBytes msg certs[order.getLastD 0]) with
    | none => rfl
    | some dns =>
      obtain ⟨issuer, subject⟩ := dns
      dsimp only
      rw [firstLinkAt_eq hin fun j hj => List.mem_range.1 hj, List.length_map]
      dsimp only
      cases hfind : (List.range certs.length).find? fun j => !order.contains j &&
          ((ostlsCertDns ((certs.map (rangeBytes msg)).getD j [])).map (·.2) == some issuer) with
      | none => rfl
      | some j =>
        have hj := List.mem_range.1 (List.mem_of_find?_eq_some hfind)
        dsimp only
        split_ifs
        · rfl
        · exact ih (by simpa using hj)

theorem feedAt_eq {certs : List (ℕ × ℕ)} (hin : ∀ r ∈ certs, InMessage msg r) {ks : List ℕ}
    (hks : ∀ k ∈ ks, k < certs.length) :
    feedAt msg certs ks = .ok (ks.map fun k => (certs.map (rangeBytes msg)).getD k []) := by
  induction ks with
  | nil => rfl
  | cons k ks ih =>
    have hk := hks k List.mem_cons_self
    rw [feedAt, cell_eq hk, ih fun i hi => hks i (List.mem_cons_of_mem _ hi), List.map_cons,
      getD_rangeBytes hk]
    dsimp only [bind, Except.bind]
    rw [window_eq (hin _ (List.getElem_mem hk)).1]
    rfl

/-- The loop over the list collects ranges of the message, and their bytes are the certificates. -/
theorem collectCertsAt_eq (hmsg : listEnd ≤ msg.length) (certs : List (ℕ × ℕ))
    (hin : ∀ r ∈ certs, InMessage msg r) :
    collectCerts msg listEnd fuel pos (certs.map (rangeBytes msg)) = none ∧
        collectCertsAt msg listEnd fuel pos certs = .error (.refused brErrBadParam) ∨
      ∃ rs, collectCerts msg listEnd fuel pos (certs.map (rangeBytes msg)) =
          some (rs.map (rangeBytes msg)) ∧
        collectCertsAt msg listEnd fuel pos certs = .ok rs ∧ ∀ r ∈ rs, InMessage msg r := by
  induction fuel generalizing pos certs with
  | zero => exact .inr ⟨certs, rfl, rfl, hin⟩
  | succ fuel ih =>
    rw [collectCerts, collectCertsAt]
    dsimp only
    by_cases hlt : pos < listEnd
    swap
    · rw [if_neg hlt, if_neg hlt]
      exact .inr ⟨certs, rfl, rfl, hin⟩
    rw [if_pos hlt, if_pos hlt]
    by_cases h3 : pos + 3 > listEnd
    · rw [if_pos h3, if_pos h3]
      exact .inl ⟨rfl, rfl⟩
    rw [if_neg h3, if_neg h3, readU24_eq (by omega)]
    dsimp only [bind, Except.bind]
    by_cases hdata : pos + 3 + getU24 msg pos > listEnd
    · rw [if_pos hdata, if_pos hdata]
      exact .inl ⟨rfl, rfl⟩
    rw [if_neg hdata, if_neg hdata]
    by_cases hext : pos + 3 + getU24 msg pos + 2 > listEnd
    · rw [if_pos hext, if_pos hext]
      exact .inl ⟨rfl, rfl⟩
    rw [if_neg hext, if_neg hext, readU16_eq (by omega), List.length_map]
    dsimp only
    split_ifs
    · have hnew : InMessage msg (pos + 3, getU24 msg pos) := ⟨by omega, getU24_lt _ _⟩
      have hin' : ∀ r ∈ certs ++ [(pos + 3, getU24 msg pos)], InMessage msg r := by
        intro r hr
        rcases List.mem_append.1 hr with hr | hr
        · exact hin r hr
        · rw [List.mem_singleton.1 hr]
          exact hnew
      have h := @ih (pos + 3 + getU24 msg pos + 2 + getU16 msg (pos + 3 + getU24 msg pos)) _ hin'
      rwa [List.map_append] at h
    · exact ih certs hin

theorem certificateListAt_eq (h4 : 4 ≤ msg.length) (htype : byteAt msg 0 = tls13HtCertificate) :
    (∃ err, certificateList msg = .error err ∧
        certificateListAt msg = .error (.refused err)) ∨
      ∃ rs, certificateList msg = .ok (rs.map (rangeBytes msg)) ∧
        certificateListAt msg = .ok rs ∧ rs ≠ [] ∧ ∀ r ∈ rs, InMessage msg r := by
  rw [certificateList, certificateListAt, cell_byteAt (by omega)]
  dsimp only [bind, Except.bind]
  rw [if_neg (not_not.2 htype), readU24_eq (by omega)]
  dsimp only
  by_cases hbody : 4 + getU24 msg 1 > msg.length
  · rw [if_pos hbody, if_pos hbody]
    exact .inl ⟨_, rfl, rfl⟩
  rw [if_neg hbody, if_neg hbody]
  by_cases hempty : 4 ≥ 4 + getU24 msg 1
  · rw [if_pos hempty, if_pos hempty]
    exact .inl ⟨_, rfl, rfl⟩
  rw [if_neg hempty, if_neg hempty, cell_byteAt (by omega)]
  dsimp only
  by_cases hctx : 5 + (byteAt msg 4).toNat + 3 > 4 + getU24 msg 1
  · rw [if_pos hctx, if_pos hctx]
    exact .inl ⟨_, rfl, rfl⟩
  rw [if_neg hctx, if_neg hctx, readU24_eq (by omega)]
  dsimp only
  generalize 5 + (byteAt msg 4).toNat = pos at *
  by_cases hend : pos + 3 + getU24 msg pos > 4 + getU24 msg 1
  · rw [if_pos hend, if_pos hend]
    exact .inl ⟨_, rfl, rfl⟩
  rw [if_neg hend, if_neg hend]
  by_cases hzero : getU24 msg pos = 0
  · rw [if_pos hzero, if_pos hzero]
    exact .inl ⟨_, rfl, rfl⟩
  rw [if_neg hzero, if_neg hzero]
  have hcollect := @collectCertsAt_eq msg (pos + 3) (pos + 3 + getU24 msg pos)
    (pos + 3 + getU24 msg pos) (by omega) [] (by simp)
  rw [List.map_nil] at hcollect
  obtain ⟨hnone, hat⟩ | ⟨rs, hsome, hat, hin⟩ := hcollect
  · rw [hnone, hat]
    exact .inl ⟨_, rfl, rfl⟩
  · rw [hsome, hat]
    cases rs with
    | nil => exact .inl ⟨_, rfl, rfl⟩
    | cons r rs => exact .inr ⟨r :: rs, rfl, rfl, List.cons_ne_nil _ _, hin⟩

/-- What is fed is found without leaving the message. -/
theorem certificateFedAt_eq (h4 : 4 ≤ msg.length) (htype : byteAt msg 0 = tls13HtCertificate) :
    (∃ err, certificateList msg = .error err ∧ certificateFedAt msg = .error (.refused err)) ∨
      ∃ certs, certificateList msg = .ok certs ∧ certificateFedAt msg = .ok (fedChain certs) := by
  rw [certificateFedAt]
  obtain ⟨err, hlist, hat⟩ | ⟨rs, hlist, hat, hne, hin⟩ := certificateListAt_eq h4 htype
  · exact .inl ⟨err, hlist, by rw [hat]; rfl⟩
  · refine .inr ⟨_, hlist, ?_⟩
    have hpos := List.length_pos_of_ne_nil hne
    have hlen : (rs.map (rangeBytes msg)).length = rs.length := List.length_map ..
    rw [hat]
    dsimp only [bind, Except.bind]
    rw [orderChainAt_eq hin _ (by simpa using hpos)]
    have hwire : feedAt msg rs (List.range rs.length) = .ok (rs.map (rangeBytes msg)) := by
      rw [feedAt_eq hin fun k hk => List.mem_range.1 hk, map_range_getD (Nat.le_of_eq hlen.symm),
        ← hlen, List.take_length]
    rw [fedChain, hlen]
    cases horder : orderChain (rs.map (rangeBytes msg)) rs.length [0] with
    | none => exact hwire
    | some order =>
      dsimp only
      split_ifs with hone
      · exact hwire
      · rw [← hlen] at horder
        refine feedAt_eq hin fun k hk => ?_
        have := (orderChain_issuerOrder (by rw [hlen]; exact hpos) horder).inRange k hk
        rwa [hlen] at this

/-! ### What reaches the validator -/

/-- Where the certificate list starts, behind the request context. -/
def certificateListPos (msg : Bytes) : ℕ := 5 + (byteAt msg 4).toNat + 3

def certificateListLen (msg : Bytes) : ℕ := getU24 msg (5 + (byteAt msg 4).toNat)

/-- The bytes of the certificate list. -/
def certificateEntries (msg : Bytes) : Bytes :=
  slice msg (certificateListPos msg) (certificateListLen msg)

/-- The list lies in the declared body. -/
def ListInBody (msg : Bytes) : Prop :=
  certificateListPos msg + certificateListLen msg ≤ declaredLen msg

/-- The loop over the list of the message comes through. -/
def ListCollected (msg : Bytes) : Prop :=
  (listWalk msg (certificateListPos msg + certificateListLen msg)
    (certificateListPos msg + certificateListLen msg) (certificateListPos msg)).isSome

theorem isPrefix_collectCerts {certs certs' : List Bytes}
    (h : collectCerts msg listEnd fuel pos certs = some certs') : certs <+: certs' := by
  induction fuel generalizing pos certs with
  | zero =>
    cases h
    exact List.prefix_rfl
  | succ fuel ih =>
    rw [collectCerts] at h
    dsimp only at h
    split_ifs at h
    · exact (List.prefix_append _ _).trans (ih h)
    · exact ih h
    · cases h
      exact List.prefix_rfl

/-- A list that is not empty yields a certificate. -/
theorem collectCerts_ne_nil (h : pos < listEnd) (hfuel : 0 < fuel) :
    collectCerts msg listEnd fuel pos [] ≠ some [] := by
  obtain ⟨fuel, rfl⟩ : ∃ n, fuel = n + 1 := ⟨fuel - 1, by omega⟩
  intro hnil
  rw [collectCerts, if_pos h] at hnil
  dsimp only at hnil
  rw [if_pos (show ([] : List Bytes).length < ostlsMaxChain by decide)] at hnil
  split_ifs at hnil
  have := List.IsPrefix.length_le (isPrefix_collectCerts hnil)
  simp at this

/-- Which messages have their chain validated. -/
theorem certificateList_ok_iff (h : Framed msg) : (∃ certs, certificateList msg = .ok certs) ↔
    ListInBody msg ∧ certificateListLen msg ≠ 0 ∧ ListCollected msg := by
  have hno : ∀ err, ¬∃ certs, (.error err : Except ℕ (List Bytes)) = .ok certs := by
    rintro err ⟨certs, hcerts⟩
    cases hcerts
  obtain ⟨h4, hlen⟩ := h
  rw [declaredLen] at hlen
  unfold ListInBody ListCollected certificateListPos certificateListLen
  rw [certificateList, declaredLen]
  dsimp only
  rw [if_neg (by omega)]
  by_cases hempty : 4 ≥ 4 + getU24 msg 1
  · rw [if_pos hempty]
    exact ⟨fun h => absurd h (hno _), fun h => absurd h.1 (by omega)⟩
  rw [if_neg hempty]
  by_cases hctx : 5 + (byteAt msg 4).toNat + 3 > 4 + getU24 msg 1
  · rw [if_pos hctx]
    exact ⟨fun h => absurd h (hno _), fun h => absurd h.1 (by omega)⟩
  rw [if_neg hctx]
  generalize 5 + (byteAt msg 4).toNat = pos at *
  by_cases hend : pos + 3 + getU24 msg pos > 4 + getU24 msg 1
  · rw [if_pos hend]
    exact ⟨fun h => absurd h (hno _), fun h => absurd h.1 (by omega)⟩
  rw [if_neg hend]
  by_cases hzero : getU24 msg pos = 0
  · rw [if_pos hzero]
    exact ⟨fun h => absurd h (hno _), fun h => absurd hzero h.2.1⟩
  rw [if_neg hzero, ← listWalk_isSome _ _ []]
  have hne : collectCerts msg (pos + 3 + getU24 msg pos) (pos + 3 + getU24 msg pos) (pos + 3) [] ≠
      some [] := collectCerts_ne_nil (by omega) (by omega)
  cases hcerts : collectCerts msg (pos + 3 + getU24 msg pos) (pos + 3 + getU24 msg pos)
      (pos + 3) [] with
  | none => exact ⟨fun h => absurd h (hno _), fun h => by cases h.2.2⟩
  | some certs =>
    cases certs with
    | nil => exact absurd hcerts hne
    | cons c certs => exact ⟨fun _ => ⟨by omega, hzero, rfl⟩, fun _ => ⟨_, rfl⟩⟩

theorem length_certificateEntries (h : Framed msg) (hin : ListInBody msg) :
    (certificateEntries msg).length = certificateListLen msg := by
  unfold ListInBody at hin
  exact length_slice (by rw [h.2]; exact hin)

/-- The loop comes through the lists that are tiled or overrun, and no list is both. -/
theorem listCollected_iff (h : Framed msg) (hin : ListInBody msg) :
    (ListCollected msg ↔ Tiled (certificateEntries msg) ∨ Overrun (certificateEntries msg)) ∧
      ¬(Tiled (certificateEntries msg) ∧ Overrun (certificateEntries msg)) := by
  have hlen := length_certificateEntries h hin
  have hpos : 8 ≤ certificateListPos msg := by
    unfold certificateListPos
    omega
  have hstands : StandsAt msg (certificateListPos msg) (certificateEntries msg) := standsAt_slice
  have hslice : slice msg (certificateListPos msg)
      (certificateListPos msg + certificateListLen msg - certificateListPos msg) =
        certificateEntries msg := by
    rw [Nat.add_sub_cancel_left]
    rfl
  unfold ListCollected
  obtain ⟨stop, hstop⟩ : ∃ n, n = certificateListPos msg + certificateListLen msg := ⟨_, rfl⟩
  rw [← hstop] at hslice ⊢
  have htiled : Tiled (certificateEntries msg) →
      listWalk msg stop stop (certificateListPos msg) = some stop :=
    fun ht => listWalk_of_tiled ht hstands (by omega) (by omega)
  have hover : Overrun (certificateEntries msg) →
      ∃ q, listWalk msg stop stop (certificateListPos msg) = some q ∧ stop < q :=
    fun ho => listWalk_of_overrun ho hstands (by omega) (by omega)
  refine ⟨⟨fun hsome => ?_, fun h => ?_⟩, fun ⟨ht, ho⟩ => ?_⟩
  · obtain ⟨q, hq⟩ := Option.isSome_iff_exists.1 hsome
    unfold ListInBody at hin
    have hcase := tiled_or_overrun (by rw [h.2, hstop]; exact hin) (by omega) (by omega) hq
    rw [hslice] at hcase
    exact hcase.imp And.right And.right
  · rcases h with ht | ho
    · rw [htiled ht]
      rfl
    · obtain ⟨q, hq, -⟩ := hover ho
      rw [hq]
      rfl
  · obtain ⟨q, hq, hlt⟩ := hover ho
    rw [htiled ht] at hq
    obtain rfl := Option.some.inj hq
    exact absurd hlt (Nat.lt_irrefl _)

theorem Overrun.ne_nil {list : Bytes} (h : Overrun list) : list.length ≠ 0 := by
  obtain ⟨entries, last, missing, -, -, -, hle, heq⟩ := h
  obtain ⟨part, -, rfl⟩ := part_of_missing hle heq
  simp

/-- The certificate list of the message is whole entries, inside the declared body. -/
def WellFramed (msg : Bytes) : Prop := ListInBody msg ∧ Tiled (certificateEntries msg)

/-- The list lies in the body, and its last entry goes on behind it. -/
def LastEntryOverruns (msg : Bytes) : Prop := ListInBody msg ∧ Overrun (certificateEntries msg)

/-- The chain is not fed, and the handler returns an error. -/
def RefusedUnfed (o : Outcome) : Prop := o.res = .error ∧ o.log = []

theorem refusedUnfed_iff (C : Crypto) (hostname : Bytes) (hs : HsCtx)
    (htype : byteAt msg 0 = tls13HtCertificate) :
    RefusedUnfed (processCertificate C hostname hs msg) ↔
      ¬∃ certs, certificateList msg = .ok certs := by
  rw [processCertificate, if_neg (not_not.2 htype)]
  cases certificateList msg with
  | error err =>
    refine ⟨fun _ => ?_, fun _ => ⟨rfl, rfl⟩⟩
    rintro ⟨certs, hcerts⟩
    cases hcerts
  | ok certs =>
    refine ⟨fun h => absurd h.2 ?_, fun h => absurd ⟨certs, rfl⟩ h⟩
    dsimp only
    split_ifs
    · exact List.cons_ne_nil _ _
    · cases (C.validate hostname (fedChain certs)).2 with
      | none => exact List.cons_ne_nil _ _
      | some pkey => exact List.cons_ne_nil _ _

/-- **Framing of the certificate list.**  For every Certificate message handed up, no access leaves
the message, and a message whose list is not tiled by whole entries is refused before the validator
is fed, exactly unless the last entry's extensions go on behind the list. -/
theorem certificate_framing_iff (C : Crypto) (hostname : Bytes) (hs : HsCtx) {msg : Bytes}
    (h : Framed msg) (htype : byteAt msg 0 = tls13HtCertificate) :
    (Inside (certificateFedAt msg) ∧
      (¬WellFramed msg → RefusedUnfed (processCertificate C hostname hs msg))) ↔
        ¬LastEntryOverruns msg := by
  have hinside : Inside (certificateFedAt msg) := by
    obtain ⟨err, -, hat⟩ | ⟨certs, -, hat⟩ := certificateFedAt_eq h.1 htype
    · rw [hat]
      exact inside_refused _
    · rw [hat]
      exact inside_ok _
  rw [refusedUnfed_iff C hostname hs htype, certificateList_ok_iff h]
  constructor
  · rintro ⟨-, hrefused⟩ ⟨hin, ho⟩
    obtain ⟨hiff, hnot⟩ := listCollected_iff h hin
    refine hrefused (fun hw => hnot ⟨hw.2, ho⟩) ⟨hin, ?_, hiff.2 (.inr ho)⟩
    rw [← length_certificateEntries h hin]
    exact ho.ne_nil
  · refine fun hno => ⟨hinside, fun hw => ?_⟩
    rintro ⟨hin, -, hcol⟩
    rcases (listCollected_iff h hin).1.1 hcol with ht | ho
    · exact hw ⟨hin, ht⟩
    · exact hno ⟨hin, ho⟩

theorem certificate_framing_iff_two :
    let msg := certificateMessage [7] [⟨[1], [2]⟩, ⟨[3, 4], []⟩]
    (Inside (certificateFedAt msg) ∧ (¬WellFramed msg → RefusedUnfed
      (processCertificate .transparent [104] tls13HandshakeInit msg))) ↔ ¬LastEntryOverruns msg :=
  certificate_framing_iff .transparent [104] tls13HandshakeInit (by decide) rfl

/-- A list of one entry that announces five bytes of extensions, of which none is there. -/
def overrunMessage : Bytes := [11, 0, 0, 10, 0, 0, 0, 6, 0, 0, 1, 1, 0, 5]

theorem overrunMessage_not_wellFramed : ¬WellFramed overrunMessage := by
  rintro ⟨hin, ht⟩
  have ho : Overrun (certificateEntries overrunMessage) :=
    ⟨[], ⟨[1], [0, 0, 0, 0, 0]⟩, [0, 0, 0, 0, 0], by simp, ⟨by decide, by decide⟩,
      by decide, by decide, by decide⟩
  exact (listCollected_iff (by decide) hin).2 ⟨ht, ho⟩

/-- Its only certificate reaches the validator. -/
theorem certificate_framing_broken :
    Framed overrunMessage ∧ byteAt overrunMessage 0 = tls13HtCertificate ∧
      ¬(¬WellFramed overrunMessage → RefusedUnfed
        (processCertificate .transparent [104] tls13HandshakeInit overrunMessage)) := by
  refine ⟨by decide, rfl, fun h => ?_⟩
  have hlog := (h overrunMessage_not_wellFramed).2
  exact absurd hlog (by decide +kernel)

end MacTLS
