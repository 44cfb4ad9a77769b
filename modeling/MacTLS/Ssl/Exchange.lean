import MacTLS.Ssl.Layout
import MacTLS.Ssl.Suites

/-!
# Two record engines

The bytes that one engine sends are what another one reads: with cipher suites that open what they
seal, the payload comes out as it was put in, each byte with the type of its record.

* `Paired` : cipher suites of two ends;
* `reads_wire` : the stream that comes in, for one that goes out;
* `engines_deliver` : every run of both engines.
-/

namespace MacTLS

open Lib

open RecEngine

variable {I O : Type} {RI : RecordIn I} {RO : RecordOut I} {ibufLen version : ℕ}

/-- A record that is sealed under a context is opened under the same one. -/
def Paired (RI : RecordIn I) (RO : RecordOut I) : Prop :=
  ∀ c recordType version data, data.length ≤ 16384 → ∃ body,
    (RO.encrypt c recordType version data).2.2 =
        [recordType] ++ putU16 version ++ putU16 body.length ++ body ∧
      0 < body.length ∧ body.length ≤ 16408 ∧ RI.checkLength c body.length = true ∧
      (RI.decrypt c recordType version body).1 = (RO.encrypt c recordType version data).1 ∧
      ∃ off, (RI.decrypt c recordType version body).2.2 = some (off, data.length) ∧
        ((RI.decrypt c recordType version body).2.1.drop off).take data.length = data

theorem suite_paired (C : Crypto) (P : CtrGhash) : Paired (suiteIn C P) (suiteOut C P) :=
  fun c recordType version _ hlen => suite_opens C P c recordType version hlen

/-- What the peer reads: the bytes of the records, and encryption turned on where it was. -/
def wire (RO : RecordOut I) : Option I → List (OutEvent I) → List (InSymbol I)
  | _, [] => []
  | _, .switch c :: events => .switch c :: wire RO (some c) events
  | ctx, .record recordType version data :: events =>
    let r := outEncrypt RO ctx recordType version data
    r.2.2.map .byte ++ wire RO r.1 events

/-- The payload of what went out, each byte with the type of its record. -/
def OutEvent.contents : OutEvent O → List (UInt8 × UInt8)
  | .switch _ => []
  | .record recordType _ data => data.map (recordType, ·)

/-- All records are of one version. -/
def OutEvent.OfVersion (version : ℕ) : OutEvent O → Prop
  | .switch _ => True
  | .record _ v _ => v = version

instance (version : ℕ) : ∀ event : OutEvent O, Decidable (event.OfVersion version)
  | .switch _ => isTrue trivial
  | .record _ v _ => inferInstanceAs (Decidable (v = version))

/-! ### One record -/

/-- A header is read back. -/
theorem rxHeader_record {s : RxState I} (recordType : UInt8) {len : ℕ}
    (hversion : version / 256 = 3) (hs : s.version = 0 ∨ s.version = version) (hlen : len < 65536)
    (hok : refusal RI ibufLen s.crypt len = none) :
    rxHeader RI ibufLen s ([recordType] ++ putU16 version ++ putU16 len) =
      ⟨s.crypt, version, if len = 0 then .header [] else
        if s.crypt.isNone then .clear recordType len else .sealed recordType [] len⟩ := by
  have hv : getU16 ([recordType] ++ putU16 version ++ putU16 len) 1 = version := by
    rw [List.append_assoc]
    exact getU16_putU16 [recordType] _ (by omega)
  have hl : getU16 ([recordType] ++ putU16 version ++ putU16 len) 3 = len := by
    have h := getU16_putU16 ([recordType] ++ putU16 version) [] hlen
    rwa [List.append_nil] at h
  have ht : byteAt ([recordType] ++ putU16 version ++ putU16 len) 0 = recordType := rfl
  have hsame : ¬(s.version ≠ 0 ∧ s.version ≠ version) := fun h => by
    obtain h0 | h0 := hs
    · exact h.1 h0
    · exact h.2 h0
  unfold rxHeader
  rw [hv, hl, ht, if_neg (by omega), if_neg hsame]
  dsimp only
  rw [hok]
  dsimp only
  split_ifs with hzero hnone
  · rfl
  · obtain ⟨crypt, v, phase⟩ := s
    obtain rfl := Option.isNone_iff_eq_none.1 hnone
    rfl
  · obtain ⟨_ | c, v, phase⟩ := s
    · exact absurd rfl hnone
    · rfl

/-- The state between two records. -/
def RxState.Between (version : ℕ) (ctx : Option I) (s : RxState I) : Prop :=
  s.phase = .header [] ∧ s.crypt = ctx ∧ (s.version = 0 ∨ s.version = version)

/-- The header of a record, between two records. -/
theorem reads_header {s : RxState I} {ctx : Option I} (recordType : UInt8) {len : ℕ}
    (hversion : version / 256 = 3) (hs : s.Between version ctx) (hlen : len < 65536)
    (hok : refusal RI ibufLen ctx len = none) :
    (rxMachine RI ibufLen).Reads s
      (([recordType] ++ putU16 version ++ putU16 len).map .byte) []
      ⟨ctx, version, if len = 0 then .header [] else
        if ctx.isNone then .clear recordType len else .sealed recordType [] len⟩ := by
  obtain ⟨hphase, rfl, hv⟩ := hs
  rw [← rxHeader_record recordType hversion hv hlen hok]
  have hheader : (rxMachine RI ibufLen).Reads s
      (([recordType] ++ putU16 version ++ putU16 len).map .byte) [] _ :=
    rx_header hphase (Nat.le_refl 5) (by decide)
  exact hheader

/-- A record that is not encrypted. -/
theorem reads_clear (RI : RecordIn I) (ibufLen : ℕ) {s : RxState I} (recordType : UInt8)
    {data : Bytes} (hversion : version / 256 = 3) (hs : s.Between version none)
    (hlen : data.length ≤ 16384) :
    ∃ s', (rxMachine RI ibufLen).Reads s
      (([recordType] ++ putU16 version ++ putU16 data.length ++ data).map .byte)
      (data.map (recordType, ·)) s' ∧ s'.Between version none := by
  have hheader : (rxMachine RI ibufLen).Reads s _ [] _ :=
    reads_header recordType hversion hs (show data.length < 65536 by omega) (if_neg (by omega))
  by_cases hzero : data.length = 0
  · obtain rfl := List.length_eq_zero_iff.1 hzero
    rw [if_pos hzero] at hheader
    rw [List.append_nil]
    exact ⟨_, hheader, rfl, rfl, .inr rfl⟩
  · rw [if_neg hzero, Option.isNone_none, if_pos rfl] at hheader
    have hbody : (rxMachine RI ibufLen).Reads
        ⟨none, version, .clear recordType data.length⟩ _ _ _ :=
      rx_clear rfl (Nat.pos_of_ne_zero hzero) (Nat.le_refl data.length)
    rw [if_pos rfl] at hbody
    rw [List.map_append]
    exact ⟨_, hheader.trans hbody, rfl, rfl, .inr rfl⟩

/-- A record that is encrypted. -/
theorem reads_sealed (hpair : Paired RI RO) (hroom : 16413 ≤ ibufLen) {s : RxState I} {c : I}
    (recordType : UInt8) {data : Bytes} (hversion : version / 256 = 3)
    (hs : s.Between version (some c)) (hlen : data.length ≤ 16384) :
    ∃ s', (rxMachine RI ibufLen).Reads s
      ((RO.encrypt c recordType version data).2.2.map .byte) (data.map (recordType, ·)) s' ∧
      s'.Between version (some (RO.encrypt c recordType version data).1) := by
  obtain ⟨body, hrecord, hpos, hbody, hok, hctx, off, hplain, hdata⟩ :=
    hpair c recordType version data hlen
  have hrefuse : refusal RI ibufLen (some c) body.length = none := by
    rw [refusal, if_neg (by simp [hok]), if_neg (by omega)]
  have hheader : (rxMachine RI ibufLen).Reads s _ [] _ :=
    reads_header recordType hversion hs (show body.length < 65536 by omega) hrefuse
  rw [if_neg (by omega), Option.isNone_some, if_neg (by decide)] at hheader
  have hsealed : (rxMachine RI ibufLen).Reads
      ⟨some c, version, .sealed recordType [] body.length⟩ _ _ _ :=
    rx_sealed rfl hpos (Nat.le_refl body.length)
  have hopen : rxOpen RI ⟨some c, version, .sealed recordType [] body.length⟩ recordType body =
      (⟨some (RO.encrypt c recordType version data).1, version, .header []⟩,
        data.map (recordType, ·)) := by
    rw [rxOpen]
    dsimp only
    rw [hplain, hctx]
    dsimp only
    rw [hdata]
  rw [if_pos rfl, if_pos rfl, List.nil_append, hopen] at hsealed
  rw [hrecord, List.map_append]
  exact ⟨_, hheader.trans hsealed, rfl, rfl, .inr rfl⟩

/-! ### A stream of records -/

/-- The stream that comes in, for one that goes out. -/
theorem reads_wire (hpair : Paired RI RO) (hroom : 16413 ≤ ibufLen) (hversion : version / 256 = 3)
    {ctx : Option I} {events : List (OutEvent I)}
    (hlen : ∀ event ∈ events, event.payload.length ≤ 16384)
    (hof : ∀ event ∈ events, event.OfVersion version) {s : RxState I}
    (hs : s.Between version ctx) :
    ∃ s', (rxMachine RI ibufLen).Reads s (wire RO ctx events)
        (events.map OutEvent.contents).flatten s' ∧
      s'.Between version (sealAll RO ctx events).1 := by
  induction events generalizing ctx s with
  | nil => exact ⟨s, .nil, hs⟩
  | cons event events ih =>
    have hlen' := fun e he => hlen e (List.mem_cons_of_mem event he)
    have hof' := fun e he => hof e (List.mem_cons_of_mem event he)
    cases event with
    | switch c =>
      obtain ⟨hphase, -, hv⟩ := hs
      have hgoes : (rxMachine RI ibufLen).stopped s = false := rx_goes (by rw [hphase]; rfl)
      obtain ⟨s', hreads, hbetween⟩ := ih hlen' hof'
        (show RxState.Between version (some c) { s with crypt := some c } from ⟨hphase, rfl, hv⟩)
      exact ⟨s', .cons hgoes hreads, hbetween⟩
    | record recordType v data =>
      obtain rfl : v = version := hof _ List.mem_cons_self
      have hdata : data.length ≤ 16384 := hlen _ List.mem_cons_self
      have hrecord : ∃ mid, (rxMachine RI ibufLen).Reads s
          ((outEncrypt RO ctx recordType v data).2.2.map .byte) (data.map (recordType, ·)) mid ∧
          mid.Between v (outEncrypt RO ctx recordType v data).1 := by
        cases ctx with
        | none => exact reads_clear RI ibufLen recordType hversion hs hdata
        | some c => exact reads_sealed hpair hroom recordType hversion hs hdata
      obtain ⟨mid, hreads, hmid⟩ := hrecord
      obtain ⟨s', hreads', hbetween⟩ := ih hlen' hof' hmid
      exact ⟨s', hreads.trans hreads', hbetween⟩

theorem contents_snd (events : List (OutEvent I)) :
    (events.map OutEvent.contents).flatten.map Prod.snd = sealedPayload events := by
  rw [List.map_flatten, List.map_map, sealedPayload]
  congr 1
  refine List.map_congr_left fun event _ => ?_
  cases event with
  | switch c => rfl
  | record recordType v data => simp [OutEvent.contents, OutEvent.payload]

/-! ### Both engines -/

/-- Two engines are used in any order and in any pieces, and what one sends the other is given, with
encryption turned on for it where it was for the first.  Then the second does not fail, and what was
taken off it is what was put in the first one, in its order and with the types of the records; and
all of it, once all that was put in is sealed and has come in. -/
theorem engines_deliver {rc rc' : RecEngine I I} {buf bufLen buf' bufLen' : ℕ} {bidi bidi' : Bool}
    {e e' : EngineRun I I} (hpair : Paired RI RO)
    (hset : (rc.brSslEngineSetBuffer RO (some buf) bufLen bidi).iomode ≠ .failed)
    (hsep : bidi = true → Separate RI bufLen)
    (hset' : (rc'.brSslEngineSetBuffer RO (some buf') bufLen' bidi').iomode ≠ .failed)
    (hsep' : bidi' = true → Separate RI bufLen')
    (h : Reach (EngineRun.step RI RO) EngineRun.Allowed
      (.start (rc.brSslEngineSetBuffer RO (some buf) bufLen bidi)) e)
    (h' : Reach (EngineRun.step RI RO) EngineRun.Allowed
      (.start (rc'.brSslEngineSetBuffer RO (some buf') bufLen' bidi')) e')
    (hroom : 16413 ≤ e'.rc.ibufLen) (hversion : version / 256 = 3)
    (hof : ∀ event ∈ e.output, event.OfVersion version)
    (hwire : e'.input <+: wire RO none e.output) :
    e'.rc.iomode ≠ .failed ∧
      e'.taken ++ e'.rc.pending <+: (e.output.map OutEvent.contents).flatten ∧
      e'.taken.map Prod.snd <+: e.pushed ∧
      (e'.input = wire RO none e.output → e.rc.waiting = [] →
        (e'.taken ++ e'.rc.pending).map Prod.snd = e.pushed) := by
  obtain ⟨used, hexact⟩ := exact_of_reach hset hsep h
  obtain ⟨used', hexact'⟩ := exact_of_reach hset' hsep' h'
  obtain ⟨s, hreads, hmeans⟩ := hexact'.input
  obtain ⟨rest, hrest⟩ := hwire
  -- what came in is the front of the whole stream, which is read to its end
  obtain ⟨s', hwhole, hbetween⟩ := reads_wire hpair hroom hversion hexact.fragments hof
    (show RxState.Between version none .start from ⟨rfl, rfl, .inl rfl⟩)
  have hfront := hwhole
  rw [← hrest] at hfront
  obtain ⟨mid, out, out', hmid, hafter, hout⟩ := hfront.split
  have hsame := hreads.symm.trans hmid
  obtain rfl : s = mid := congrArg Transducer.Output.state hsame
  have htaken : e'.taken ++ e'.rc.pending = out := congrArg Transducer.Output.out hsame
  have hprefix : e'.taken ++ e'.rc.pending <+: (e.output.map OutEvent.contents).flatten :=
    ⟨out', by rw [htaken, hout]⟩
  have hpayload : (e'.taken ++ e'.rc.pending).map Prod.snd <+: sealedPayload e.output := by
    rw [← contents_snd]
    exact hprefix.map _
  refine ⟨fun hfail => ?_, hprefix, ?_, fun hall hnone => ?_⟩
  · -- a stream that has failed is not read any further
    rw [Means, if_pos hfail] at hmeans
    have hstop : (rxMachine RI e'.rc.ibufLen).stopped s = true := by
      show s.phase.isFailed = true
      rw [hmeans]
      rfl
    have heq := (Transducer.run_stopped hstop).symm.trans hafter
    obtain rfl : s = s' := congrArg Transducer.Output.state heq
    rw [hbetween.1] at hmeans
    cases hmeans
  · refine List.IsPrefix.trans ?_ (hpayload.trans ⟨_, hexact.payload⟩)
    rw [List.map_append]
    exact List.prefix_append _ _
  · rw [hall] at hreads
    have heq : e'.taken ++ e'.rc.pending = (e.output.map OutEvent.contents).flatten :=
      congrArg Transducer.Output.out (hreads.symm.trans hwhole)
    rw [heq, contents_snd, ← hexact.payload, hnone, List.append_nil]

/-- A client that sends a record in the clear and one under GCM. -/
def sendingRun : EngineRun SuiteContext SuiteContext :=
  play (EngineRun.step (suiteIn .transparent .transparent) (suiteOut .transparent .transparent))
    (.start clientEngine)
    [fun _ => .setOut 22 0x0303, fun _ => .put [1, 2], fun _ => .flush false,
      fun _ => .switchOut (.gcm (genGcmInit .transparent [5] [6, 7, 8, 9])), fun _ => .send 7,
      fun _ => .setOut 23 0x0303, fun _ => .put [3, 4, 5], fun _ => .flush false, fun _ => .send 32]

/-- A peer, in one buffer for both directions, that reads them in other pieces. -/
def readingRun : EngineRun SuiteContext SuiteContext :=
  play (EngineRun.step (suiteIn .transparent .transparent) (suiteOut .transparent .transparent))
    (.start (zeroed.brSslEngineSetBuffer (suiteOut .transparent .transparent) (some 0) 16709 false))
    [fun _ => .inject (sendingRun.sent.take 5), fun _ => .inject ((sendingRun.sent.drop 5).take 2),
      fun _ => .take 2, fun _ => .switchIn (.gcm (genGcmInit .transparent [5] [6, 7, 8, 9])),
      fun _ => .inject ((sendingRun.sent.drop 7).take 3),
      fun _ => .inject ((sendingRun.sent.drop 10).take 2),
      fun _ => .inject (sendingRun.sent.drop 12), fun _ => .take 3]

theorem engines_deliver_both : readingRun.taken = [(22, 1), (22, 2), (23, 3), (23, 4), (23, 5)] ∧
    readingRun.rc.iomode ≠ .failed :=
  ⟨by decide +kernel,
    (@engines_deliver _ (suiteIn .transparent .transparent)
      (suiteOut .transparent .transparent) 0x0303 zeroed zeroed 0 brSslBufsizeBidi 0 16709 true
      false sendingRun readingRun (suite_paired _ _) (by decide +kernel)
      (fun _ => separate_suites _ _) (by decide +kernel) (fun h => by cases h)
      (reach_play (by decide +kernel)) (reach_play (by decide +kernel)) (by decide +kernel)
      (by decide) (by decide +kernel) ⟨[], by decide +kernel⟩).1⟩

end MacTLS
