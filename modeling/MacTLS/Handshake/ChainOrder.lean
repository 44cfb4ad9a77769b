import MacTLS.Handshake.Certificate
import MacTLS.Lib.Greedy
import Mathlib.Data.List.Range

/-!
# The order of the fed chain

The ordering loop is a greedy walk over the indices of the certificates: from the leaf, it goes
to the first unused certificate whose subject is the issuer of the last one.

* `orderChain_eq` : the loop is the walk, unless the leaf does not parse;
* `orderChainChecked_eq` : with every array access checked, the loop ends and finds the same;
* `collectCerts_encoded` : what is collected from an encoded list;
* `certificate_chain` : what is fed for a Certificate message.
-/

namespace MacTLS

open Lib

/-! ### Links between certificates -/

/-- Certificate `j` was issued under the name that certificate `i` has as its issuer. -/
def issuedBy (certs : List Bytes) (i j : ℕ) : Bool :=
  match ostlsCertDns (certs.getD i []), ostlsCertDns (certs.getD j []) with
  | some (issuer, _), some (_, subject) => subject == issuer
  | _, _ => false

theorem issuedBy_iff {certs : List Bytes} {i j : ℕ} :
    issuedBy certs i j = true ↔ ∃ name subject issuer,
      ostlsCertDns (certs.getD i []) = some (name, subject) ∧
      ostlsCertDns (certs.getD j []) = some (issuer, name) := by
  rw [issuedBy]
  generalize ostlsCertDns (certs.getD i []) = a
  generalize ostlsCertDns (certs.getD j []) = b
  cases a with
  | none => simp
  | some a =>
    cases b with
    | none => simp
    | some b =>
      constructor
      · intro h
        exact ⟨a.1, a.2, b.1, rfl, by rw [← beq_iff_eq.1 h]⟩
      · rintro ⟨name, subject, issuer, ⟨⟩, ⟨⟩⟩
        exact beq_self_eq_true name

/-- An order of the indices of `certs`: the leaf first, no index twice, every certificate
followed by one with its issuer's name, and none left that could be appended. -/
structure IssuerOrder (certs : List Bytes) (order : List ℕ) : Prop where
  leaf : order.head? = some 0
  nodup : order.Nodup
  inRange : ∀ k ∈ order, k < certs.length
  linked : order.IsChain fun i j => issuedBy certs i j
  complete : ∀ last ∈ order.getLast?, ∀ j < certs.length, j ∉ order →
    issuedBy certs last j = false

/-- The first `k + 1` certificates parse and are linked as they come. -/
def LinkedUpTo (certs : List Bytes) (k : ℕ) : Prop :=
  k < certs.length ∧ (∀ i ≤ k, (ostlsCertDns (certs.getD i [])).isSome) ∧
    ∀ i < k, issuedBy certs i (i + 1) = true

/-! ### The loop is a walk -/

/-- What the inner loop finds. -/
theorem find_eq_follower {certs : List Bytes} (order : List ℕ) {issuer subject : Bytes} {i : ℕ}
    (h : ostlsCertDns (certs.getD i []) = some (issuer, subject)) :
    ((List.range certs.length).find? fun j =>
      !order.contains j && ((ostlsCertDns (certs.getD j [])).map (·.2) == some issuer)) =
        follower (issuedBy certs) (List.range certs.length) order i := by
  unfold follower
  congr 1
  funext j
  rw [issuedBy, h]
  cases ostlsCertDns (certs.getD j []) with
  | none => simp
  | some dns => simp

/-- As long as the last certificate parses, the loop is the walk: those it goes to parse. -/
theorem orderChain_eq {certs : List Bytes} {order : List ℕ} {last : ℕ} (fuel : ℕ)
    (hpath : GreedyPath (issuedBy certs) (List.range certs.length) order last)
    (hparse : (ostlsCertDns (certs.getD last [])).isSome) :
    orderChain certs fuel order =
      some (greedyWalk (issuedBy certs) (List.range certs.length) fuel order last) := by
  induction fuel generalizing order last with
  | zero => rfl
  | succ fuel ih =>
    obtain ⟨⟨issuer, subject⟩, hdns⟩ := Option.isSome_iff_exists.1 hparse
    have hlast : order.getLastD 0 = last := by
      rw [List.getLastD_eq_getLast?, hpath.ends]
      rfl
    simp only [orderChain, hlast, hdns, find_eq_follower _ hdns, greedyWalk]
    cases hnext : follower (issuedBy certs) (List.range certs.length) order last with
    | none => rfl
    | some j =>
      obtain ⟨-, -, hlink⟩ := follower_eq_some hnext
      obtain ⟨name, subj, iss, -, hj⟩ := issuedBy_iff.1 hlink
      dsimp only
      split_ifs with hfull
      · -- all are used, so the walk ends here as well
        rw [(hpath.append hnext).walk_of_full (by rwa [List.length_range])]
      · exact ih (hpath.append hnext) (by rw [hj]; rfl)

theorem path_leaf {certs : List Bytes} (hpos : 0 < certs.length) :
    GreedyPath (issuedBy certs) (List.range certs.length) [0] 0 :=
  .singleton (List.mem_range.2 hpos)

theorem orderChain_leaf_none {certs : List Bytes} (hpos : 0 < certs.length)
    (h : ostlsCertDns (certs.getD 0 []) = none) : orderChain certs certs.length [0] = none := by
  obtain ⟨n, hn⟩ : ∃ n, certs.length = n + 1 := ⟨certs.length - 1, by omega⟩
  rw [hn, orderChain, show [0].getLastD 0 = 0 from rfl, h]

/-- What the loop finds. -/
theorem orderChain_issuerOrder {certs : List Bytes} {order : List ℕ} (hpos : 0 < certs.length)
    (h : orderChain certs certs.length [0] = some order) : IssuerOrder certs order := by
  cases hparse : ostlsCertDns (certs.getD 0 []) with
  | none => simp [orderChain_leaf_none hpos hparse] at h
  | some dns =>
    rw [orderChain_eq _ (path_leaf hpos) (by rw [hparse]; rfl)] at h
    obtain rfl := Option.some.inj h
    obtain ⟨last, hwalk, hstuck⟩ := (path_leaf hpos).walk certs.length
    have hleaf : [0] <+: greedyWalk (issuedBy certs) (List.range certs.length) certs.length [0] 0 :=
      isPrefix_walk_self _
    refine ⟨?_, hwalk.nodup, fun k hk => List.mem_range.1 (hwalk.inside hk), hwalk.linked, ?_⟩
    · obtain ⟨rest, hrest⟩ := hleaf
      rw [← hrest]
      rfl
    · intro i hi j hj hoff
      rw [hwalk.ends] at hi
      obtain rfl : last = i := by simpa using hi
      have hnone := hstuck (by rw [List.length_range, List.length_singleton]; omega)
      exact follower_eq_none_iff.1 hnone j (List.mem_range.2 hj) hoff

/-- Certificates linked as they come are taken as they come. -/
theorem isPrefix_orderChain {certs : List Bytes} {k : ℕ} (h : LinkedUpTo certs k) :
    ∃ order, orderChain certs certs.length [0] = some order ∧ List.range (k + 1) <+: order := by
  obtain ⟨hk, hparse, hlink⟩ := h
  have hpos : 0 < certs.length := Nat.zero_lt_of_lt hk
  refine ⟨_, orderChain_eq _ (path_leaf hpos) (hparse 0 (Nat.zero_le k)), ?_⟩
  have hrange : List.range (k + 1) = [0] ++ List.range' 1 k := by
    rw [List.range_eq_range', List.range'_succ]
    rfl
  have hsplit : List.range certs.length =
      [0] ++ (List.range' 1 k ++ List.range' (k + 1) (certs.length - (k + 1))) := by
    have hn : certs.length = (k + 1) + (certs.length - (k + 1)) := by omega
    rw [← List.append_assoc, ← hrange, List.range_eq_range', List.range_eq_range']
    conv_lhs => rw [hn, ← List.range'_append_1, Nat.zero_add]
  rw [hrange]
  refine isPrefix_walk hsplit List.nodup_range ?_ (by rw [List.length_range']; omega)
  rw [show 0 :: List.range' 1 k = List.range (k + 1) from hrange.symm, List.isChain_range_succ]
  exact hlink

/-! ### The loop with every access checked -/

/-- The inner loop over the candidates `js`: stuck at an index outside an array. -/
def firstUnused (certs : List Bytes) (used : List Bool) (issuer : Bytes) :
    List ℕ → Option (Option ℕ)
  | [] => some none
  | j :: js => do
    if ← used[j]? then firstUnused certs used issuer js
    else
      match ostlsCertDns (← certs[j]?) with
      | none => firstUnused certs used issuer js
      | some (_, subject) =>
        if subject == issuer then some (some j) else firstUnused certs used issuer js

/-- The ordering loop on its arrays `order` and `used_flag`.  It is stuck when an index is not
that of a collected certificate, when `order` has no room, or when its turns do not suffice. -/
def orderChainChecked (certs : List Bytes) :
    ℕ → List ℕ → List Bool → Option (Option (List ℕ))
  | 0, _, _ => none
  | fuel + 1, order, used => do
    match ostlsCertDns (← certs[← order.getLast?]?) with
    | none => some none
    | some (issuer, _) =>
      match ← firstUnused certs used issuer (List.range certs.length) with
      | none => some (some order)
      | some found =>
        if order.length < ostlsMaxChain ∧ found < used.length then
          let order := order ++ [found]
          if order.length ≥ certs.length then some (some order)
          else orderChainChecked certs fuel order (used.set found true)
        else none

/-- The flags of the certificates in use. -/
def usedFlag (n : ℕ) (order : List ℕ) : List Bool := (List.range n).map fun j => order.contains j

theorem usedFlag_append {n j : ℕ} {order : List ℕ} :
    (usedFlag n order).set j true = usedFlag n (order ++ [j]) := by
  apply List.ext_getElem (by simp [usedFlag])
  intro i hi hi'
  simp only [usedFlag, List.getElem_set, List.getElem_map, List.getElem_range]
  by_cases h : j = i <;> simp [h, eq_comm]

theorem firstUnused_eq {certs : List Bytes} {order js : List ℕ} {issuer : Bytes}
    (hjs : ∀ j ∈ js, j < certs.length) :
    firstUnused certs (usedFlag certs.length order) issuer js =
      some (js.find? fun j =>
        !order.contains j && ((ostlsCertDns (certs.getD j [])).map (·.2) == some issuer)) := by
  induction js with
  | nil => rfl
  | cons j js ih =>
    have hj := hjs j List.mem_cons_self
    have hused : (usedFlag certs.length order)[j]? = some (order.contains j) := by
      simp [usedFlag, hj]
    have hcert : certs[j]? = some (certs.getD j []) := by simp [hj]
    have ih := ih fun i hi => hjs i (List.mem_cons_of_mem _ hi)
    rw [firstUnused, hused, hcert, List.find?_cons]
    cases order.contains j with
    | true => exact ih
    | false =>
      simp only [Option.bind_eq_bind, Option.bind_some, Bool.false_eq_true, if_false,
        Bool.not_false, Bool.true_and]
      generalize ostlsCertDns (certs.getD j []) = dns
      cases dns with
      | none => exact ih
      | some dns =>
        by_cases h : dns.2 = issuer
        · simp [h]
        · have hbeq : (dns.2 == issuer) = false := beq_eq_false_iff_ne.2 h
          simp [hbeq, ih]

/-- The loop ends after at most as many turns as there are certificates, with every index in
range. -/
theorem orderChainChecked_eq {certs : List Bytes} {order : List ℕ} {last fuel : ℕ}
    (hmax : certs.length ≤ ostlsMaxChain)
    (hpath : GreedyPath (issuedBy certs) (List.range certs.length) order last)
    (hfuel : certs.length < order.length + fuel) :
    orderChainChecked certs fuel order (usedFlag certs.length order) =
      some (orderChain certs fuel order) := by
  induction fuel generalizing order last with
  | zero =>
    have := hpath.length_le
    rw [List.length_range] at this
    omega
  | succ fuel ih =>
    have hin := List.mem_range.1 (hpath.inside (List.mem_of_getLast? hpath.ends))
    have hlast : order.getLastD 0 = last := by
      rw [List.getLastD_eq_getLast?, hpath.ends]
      rfl
    have hcert : certs[last]? = some (certs.getD last []) := by simp [hin]
    simp only [orderChainChecked, orderChain, hpath.ends, hlast, Option.bind_eq_bind,
      Option.bind_some, hcert, firstUnused_eq fun _ => List.mem_range.1]
    cases hdns : ostlsCertDns (certs.getD last []) with
    | none => rfl
    | some dns =>
      have hfind := find_eq_follower order (show _ = some (dns.1, dns.2) from hdns)
      simp only [hfind]
      cases hnext : follower (issuedBy certs) (List.range certs.length) order last with
      | none => rfl
      | some j =>
        obtain ⟨hj, hoff, -⟩ := follower_eq_some hnext
        have hle := (hpath.append hnext).length_le
        rw [List.length_append, List.length_singleton, List.length_range] at hle
        have hlen : (usedFlag certs.length order).length = certs.length := by simp [usedFlag]
        dsimp only
        rw [if_pos ⟨by omega, by rw [hlen]; exact List.mem_range.1 hj⟩]
        split_ifs with hfull
        · rfl
        · rw [usedFlag_append]
          refine ih (hpath.append hnext) ?_
          rw [List.length_append, List.length_singleton]
          omega

/-! ### What is fed for a message -/

/-- What may be fed for the certificates of a message. -/
structure ChainFed (certs fed : List Bytes) : Prop where
  ordered : fed = certs ∨
    ∃ order, IssuerOrder certs order ∧ fed = order.map fun k => certs.getD k []
  kept : ∀ k, LinkedUpTo certs k → certs.take (k + 1) <+: fed
  leaf : ostlsCertDns (certs.getD 0 []) = none → fed = certs
  checked : orderChainChecked certs certs.length [0] (usedFlag certs.length [0]) =
    some (orderChain certs certs.length [0])

theorem map_range_getD {certs : List Bytes} {k : ℕ} (h : k ≤ certs.length) :
    ((List.range k).map fun i => certs.getD i []) = certs.take k := by
  apply List.ext_getElem (by simp [h])
  intro i hi hi'
  rw [List.length_map, List.length_range] at hi
  simp [Nat.lt_of_lt_of_le hi h]

theorem fedChain_fed {certs : List Bytes} (hpos : 0 < certs.length)
    (hmax : certs.length ≤ ostlsMaxChain) : ChainFed certs (fedChain certs) := by
  refine ⟨?_, ?_, ?_, orderChainChecked_eq hmax (path_leaf hpos) (by simp)⟩
  · rw [fedChain]
    cases horder : orderChain certs certs.length [0] with
    | none => exact .inl rfl
    | some order =>
      dsimp only
      split_ifs with hone
      · exact .inl rfl
      · exact .inr ⟨order, orderChain_issuerOrder hpos horder, rfl⟩
  · intro k hlinked
    obtain ⟨order, horder, hrange⟩ := isPrefix_orderChain hlinked
    rw [fedChain, horder]
    dsimp only
    split_ifs with hone
    · exact List.take_prefix _ _
    · rw [← map_range_getD hlinked.1]
      exact hrange.map _
  · intro hleaf
    rw [fedChain, orderChain_leaf_none hpos hleaf]

/-- One entry of a certificate list. -/
structure CertificateEntry where
  data : Bytes
  extensions : Bytes

def CertificateEntry.encode (e : CertificateEntry) : Bytes :=
  putU24 e.data.length ++ (e.data ++ (putU16 e.extensions.length ++ e.extensions))

/-- The Certificate message with a request context and a list of entries. -/
def certificateMessage (context : Bytes) (entries : List CertificateEntry) : Bytes :=
  let list := entries.flatMap CertificateEntry.encode
  let body := UInt8.ofNat context.length :: (context ++ (putU24 list.length ++ list))
  tls13HtCertificate :: (putU24 body.length ++ body)

theorem length_encode (e : CertificateEntry) :
    e.encode.length = 5 + e.data.length + e.extensions.length := by
  simp [CertificateEntry.encode]
  omega

/-- The first entry is collected, and reading goes on behind it. -/
theorem collectCerts_entry {b t : Bytes} {e : CertificateEntry} {listEnd fuel : ℕ}
    {certs : List Bytes} (hdata : e.data.length < 16777216) (hext : e.extensions.length < 65536)
    (hend : b.length + e.encode.length ≤ listEnd) (hroom : certs.length < ostlsMaxChain) :
    collectCerts (b ++ (e.encode ++ t)) listEnd (fuel + 1) b.length certs =
      collectCerts (b ++ (e.encode ++ t)) listEnd fuel (b ++ e.encode).length
        (certs ++ [e.data]) := by
  have hlen := length_encode e
  obtain ⟨data, ext⟩ := e
  have hdatalen : getU24 (b ++ (CertificateEntry.encode ⟨data, ext⟩ ++ t)) b.length =
      data.length := by
    rw [CertificateEntry.encode, List.append_assoc]
    exact getU24_putU24 _ _ hdata
  have hslice : slice (b ++ (CertificateEntry.encode ⟨data, ext⟩ ++ t)) (b.length + 3)
      data.length = data := by
    have := slice_append_right (b ++ putU24 data.length) data
      ((putU16 ext.length ++ ext) ++ t)
    rw [List.length_append, length_putU24] at this
    simpa [CertificateEntry.encode] using this
  have hextlen : getU16 (b ++ (CertificateEntry.encode ⟨data, ext⟩ ++ t))
      (b.length + 3 + data.length) = ext.length := by
    have := getU16_putU16 (b ++ (putU24 data.length ++ data)) (ext ++ t) hext
    rw [List.length_append, List.length_append, length_putU24, ← Nat.add_assoc] at this
    simpa [CertificateEntry.encode] using this
  rw [collectCerts]
  simp only [hdatalen, hslice, hextlen]
  dsimp only at hlen
  rw [if_pos (by omega), if_neg (by omega), if_neg (by omega), if_neg (by omega), if_pos hroom]
  congr 1
  rw [List.length_append, hlen]
  omega

/-- The certificates of an encoded list are collected as they come. -/
theorem collectCerts_encoded {entries : List CertificateEntry} {fuel : ℕ} (b : Bytes)
    (certs : List Bytes) (hdata : ∀ e ∈ entries, e.data.length < 16777216)
    (hext : ∀ e ∈ entries, e.extensions.length < 65536) (hfuel : entries.length < fuel)
    (hroom : certs.length + entries.length ≤ ostlsMaxChain) :
    collectCerts (b ++ entries.flatMap CertificateEntry.encode)
      (b ++ entries.flatMap CertificateEntry.encode).length fuel b.length certs =
        some (certs ++ entries.map (·.data)) := by
  induction entries generalizing b certs fuel with
  | nil =>
    obtain ⟨fuel, rfl⟩ : ∃ n, fuel = n + 1 := ⟨fuel - 1, by omega⟩
    simp [collectCerts]
  | cons e entries ih =>
    obtain ⟨fuel, rfl⟩ : ∃ n, fuel = n + 1 := ⟨fuel - 1, by omega⟩
    rw [List.length_cons] at hfuel hroom
    rw [List.flatMap_cons, collectCerts_entry (hdata e List.mem_cons_self)
      (hext e List.mem_cons_self) (by simp) (by omega), ← List.append_assoc]
    rw [ih _ _ (fun e' h => hdata e' (List.mem_cons_of_mem _ h))
      (fun e' h => hext e' (List.mem_cons_of_mem _ h)) (by omega) (by simp; omega)]
    simp

theorem length_le_encoded (entries : List CertificateEntry) :
    entries.length ≤ (entries.flatMap CertificateEntry.encode).length := by
  induction entries with
  | nil => exact Nat.le_refl 0
  | cons e entries ih =>
    rw [List.flatMap_cons, List.length_append, List.length_cons, length_encode]
    omega

theorem certificateList_certificateMessage {context : Bytes} {entries : List CertificateEntry}
    (hcontext : context.length < 256) (hext : ∀ e ∈ entries, e.extensions.length < 65536)
    (hsize : (certificateMessage context entries).length < 4 + 16777216)
    (hne : entries ≠ []) (hmax : entries.length ≤ ostlsMaxChain) :
    certificateList (certificateMessage context entries) = .ok (entries.map (·.data)) := by
  obtain ⟨list, hlist⟩ : ∃ list, list = entries.flatMap CertificateEntry.encode := ⟨_, rfl⟩
  obtain ⟨pre, hpre⟩ : ∃ pre, pre = tls13HtCertificate ::
    (putU24 (1 + context.length + 3 + list.length) ++ (UInt8.ofNat context.length :: context)) :=
      ⟨_, rfl⟩
  -- the message up to the length of the list, then the list
  have hmsg : certificateMessage context entries = pre ++ (putU24 list.length ++ list) := by
    simp only [certificateMessage, hpre, ← hlist, List.length_cons, List.length_append,
      length_putU24, List.cons_append, List.append_assoc, List.cons.injEq, true_and]
    congr 2
    omega
  have hprelen : pre.length = 5 + context.length := by
    simp [hpre]
    omega
  have hlen : (certificateMessage context entries).length = 8 + context.length + list.length := by
    rw [hmsg]
    simp [hprelen]
    omega
  have hbound : ∀ e ∈ entries, e.encode.length ≤ list.length := by
    intro e he
    rw [hlist]
    exact (List.infix_of_mem_flatten (List.mem_map_of_mem he)).length_le
  have hfuel : entries.length ≤ list.length := by
    rw [hlist]
    exact length_le_encoded entries
  have hpos : 0 < list.length := Nat.lt_of_lt_of_le (List.length_pos_iff.2 hne) hfuel
  -- the three lengths, read back
  have hdecl : getU24 (certificateMessage context entries) 1 = 4 + context.length + list.length := by
    rw [hmsg, hpre]
    have := getU24_cons_putU24 (x := tls13HtCertificate)
      ((UInt8.ofNat context.length :: context) ++ (putU24 list.length ++ list))
      (v := 1 + context.length + 3 + list.length) (by omega)
    rw [← List.append_assoc] at this
    rw [List.cons_append, this]
    omega
  have hcontextlen : (byteAt (certificateMessage context entries) 4).toNat = context.length := by
    rw [hmsg, hpre]
    simpa [byteAt, putU24] using hcontext
  have hlistlen : getU24 (certificateMessage context entries) (5 + context.length) =
      list.length := by
    rw [hmsg, ← hprelen]
    exact getU24_putU24 _ _ (by omega)
  -- and the entries behind them
  have hcollect : collectCerts (certificateMessage context entries)
      (8 + context.length + list.length) (8 + context.length + list.length)
        (8 + context.length) [] = some (entries.map (·.data)) := by
    have hdata : ∀ e ∈ entries, e.data.length < 16777216 := by
      intro e he
      have := hbound e he
      rw [length_encode] at this
      omega
    have hall := collectCerts_encoded (pre ++ putU24 list.length) [] hdata hext
      (Nat.lt_of_le_of_lt hfuel (show list.length < 8 + context.length + list.length by omega))
      (by simpa using hmax)
    have hstart : (pre ++ putU24 list.length).length = 8 + context.length := by
      rw [List.length_append, hprelen, length_putU24]
      omega
    rwa [← hlist, List.append_assoc, ← hmsg, hlen, hstart, List.nil_append] at hall
  rw [certificateList]
  simp only [hdecl, hcontextlen, hlistlen]
  rw [if_neg (by omega), if_neg (by omega), if_neg (by omega), if_neg (by omega),
    if_neg (by omega)]
  rw [show 5 + context.length + 3 + list.length = 8 + context.length + list.length by omega,
    show 5 + context.length + 3 = 8 + context.length by omega, hcollect]
  cases entries with
  | nil => exact absurd rfl hne
  | cons e entries => rfl

/-- Every Certificate message with one to twelve entries has its chain fed once, in wire order
or in issuer order; what stands in order already is fed as it stands. -/
theorem certificate_chain (C : Crypto) (hostname : Bytes) (hs : HsCtx) {context : Bytes}
    {entries : List CertificateEntry} (hcontext : context.length < 256)
    (hext : ∀ e ∈ entries, e.extensions.length < 65536)
    (hsize : (certificateMessage context entries).length < 4 + 16777216)
    (hne : entries ≠ []) (hmax : entries.length ≤ ostlsMaxChain) :
    ∃ fed err, (processCertificate C hostname hs (certificateMessage context entries)).log =
        [.endChain hostname fed err] ∧ ChainFed (entries.map (·.data)) fed := by
  have hlist := certificateList_certificateMessage hcontext hext hsize hne hmax
  have htype : byteAt (certificateMessage context entries) 0 = tls13HtCertificate := rfl
  refine ⟨fedChain (entries.map (·.data)), (C.validate hostname
    (fedChain (entries.map (·.data)))).1, ?_, fedChain_fed ?_ ?_⟩
  · rw [processCertificate, if_neg (not_not.2 htype), hlist]
    dsimp only
    split_ifs with herr
    · rfl
    · cases (C.validate hostname (fedChain (entries.map (·.data)))).2 with
      | none => rfl
      | some pkey => rfl
  · rw [List.length_map]
    exact List.length_pos_iff.2 hne
  · rwa [List.length_map]

/-- A certificate of the names alone. -/
def namesOnly (issuer subject : UInt8) : Bytes :=
  [0x30, 16, 0x30, 14, 2, 1, 1, 0x30, 0, 0x30, 1, issuer, 0x30, 0, 0x30, 1, subject, 0]

/-- The root stands before the certificate it issued. -/
def rootFirst : List CertificateEntry :=
  [⟨namesOnly 2 1, []⟩, ⟨namesOnly 3 3, []⟩, ⟨namesOnly 3 2, [0]⟩]

/-- Its chain is fed in the order of issue. -/
theorem certificate_chain_reordered :
    ∃ fed, (processCertificate .transparent [104] tls13HandshakeInit
        (certificateMessage [] rootFirst)).log = [.endChain [104] fed 62] ∧
      fed = [namesOnly 2 1, namesOnly 3 2, namesOnly 3 3] ∧
      ChainFed (rootFirst.map (·.data)) fed := by
  obtain ⟨fed, err, hlog, hfed⟩ := @certificate_chain .transparent [104] tls13HandshakeInit []
    rootFirst (by decide) (by decide) (by decide) (by decide) (by decide)
  have heval : (processCertificate .transparent [104] tls13HandshakeInit
      (certificateMessage [] rootFirst)).log =
      [.endChain [104] [namesOnly 2 1, namesOnly 3 2, namesOnly 3 3] 62] := by decide +kernel
  obtain ⟨rfl, rfl⟩ : fed = [namesOnly 2 1, namesOnly 3 2, namesOnly 3 3] ∧ err = 62 := by
    simpa using hlog.symm.trans heval
  exact ⟨_, heval, rfl, hfed⟩

end MacTLS
