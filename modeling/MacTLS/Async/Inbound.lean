import MacTLS.Async.Lifecycle
import MacTLS.Handshake.Authentication

/-!
# The bytes that come in

On the TLS 1.3 path, what `OSTLS_Read` has returned, the read ring and the staged plaintext are
together the plaintexts of all application data records decrypted so far.

* `Inbound.effect` : every effect keeps that;
* `inbound_exact` : it holds in every reached state, and no step touches the staged bytes.
-/

namespace MacTLS

open Lib

variable {E : Type} {C : Crypto} {G : Engine E} {π : Policy} {s s' : Link}

/-! ### The invariant -/

/-- The inbound stream of a connection. -/
structure Inbound (s : Link) : Prop where
  stream : s.mode ≠ .off → ∀ hs, s.hs13 = some hs →
    s.history.returned ++ s.readBuf.toList ++ s.staged hs = s.history.decrypted.flatten
  staged : s.plainOff < s.plainLen → s.mode ≠ .off → ∀ hs, s.hs13 = some hs →
    s.plainLen ≤ hs.plainBuf.length
  quiet : s.state = .idle ∨ s.state = .connecting ∨ s.state = .handshaking →
    s.history.returned = [] ∧ s.readBuf.toList = [] ∧ s.history.decrypted = []
  clean : s.state = .handshaking → s.plainLen = 0 ∧ s.plainOff = 0

theorem inbound_init (G : Engine E) (config : OstlsConfig) :
    Inbound (Conn.init G config).link where
  stream h := absurd rfl h
  staged h := by cases h
  quiet _ := ⟨rfl, Ring.toList_empty _ _, rfl⟩
  clean h := by cases h

/-- Nothing is staged when everything is delivered. -/
theorem Link.staged_eq_nil (s : Link) (hs : HsCtx) (h : s.plainLen ≤ s.plainOff) :
    s.staged hs = [] := by
  rw [Link.staged, Nat.sub_eq_zero_of_le h]
  exact List.take_zero

/-- A connection whose handshake is under way has an empty inbound stream. -/
theorem Inbound.stream_of_quiet (hs : Inbound s)
    (hst : s.state = .idle ∨ s.state = .connecting ∨ s.state = .handshaking)
    {plainBuf : Bytes} :
    s.history.returned ++ s.readBuf.toList ++ slice plainBuf 0 0 = s.history.decrypted.flatten := by
  obtain ⟨hret, hring, hdec⟩ := hs.quiet hst
  rw [hret, hring, hdec]
  simp [slice]

theorem Inbound.stream_of_clean (hs : Inbound s) (hst : s.state = .handshaking) (hs' : HsCtx) :
    s.history.returned ++ s.readBuf.toList ++ s.staged hs' = s.history.decrypted.flatten := by
  obtain ⟨hlen, hoff⟩ := hs.clean hst
  rw [Link.staged, hlen, hoff]
  exact hs.stream_of_quiet (.inr (.inr hst))

/-- Application data flows after the handshake. -/
theorem Link.Flowing.not_early {s : Link} (hf : s.Flowing) :
    ¬(s.state = .idle ∨ s.state = .connecting ∨ s.state = .handshaking) := by
  have hup := hf.2
  rintro (h | h | h) <;> rw [h] at hup <;> cases hup

theorem Inbound.delivered (hs : Inbound s) (hf : s.Flowing) {hs' : HsCtx} (h13 : s.hs13 = some hs')
    (hlt : s.plainOff < s.plainLen) :
    Inbound { s with
      readBuf := s.readBuf.push (s.staged hs')
      plainOff := s.plainOff + s.readBuf.accepts (s.plainLen - s.plainOff) } := by
  have hfit := hs.staged hlt hf.1 hs' h13
  have hlen : (s.staged hs').length = s.plainLen - s.plainOff := length_slice (by omega)
  have hacc : s.readBuf.accepts (s.plainLen - s.plainOff) ≤ s.plainLen - s.plainOff :=
    Nat.min_le_left _ _
  refine ⟨fun hmode hs'' h13' => ?_, fun _ hmode hs'' h13' => ?_, ?_, ?_⟩
  · cases h13.symm.trans h13'
    have hsplit : s.staged hs' = (s.staged hs').take (s.readBuf.accepts (s.plainLen - s.plainOff)) ++
        slice hs'.plainBuf (s.plainOff + s.readBuf.accepts (s.plainLen - s.plainOff))
          (s.plainLen - (s.plainOff + s.readBuf.accepts (s.plainLen - s.plainOff))) := by
      rw [Nat.sub_add_eq]
      have htake : (s.staged hs').take (s.readBuf.accepts (s.plainLen - s.plainOff)) =
          slice hs'.plainBuf s.plainOff (s.readBuf.accepts (s.plainLen - s.plainOff)) := by
        rw [Link.staged, slice, List.take_take, Nat.min_eq_left hacc, slice]
      rw [htake]
      exact slice_split _ _ hacc
    have hstream := hs.stream hmode hs' h13
    rw [hsplit, ← List.append_assoc] at hstream
    rw [← hstream]
    dsimp only
    rw [Ring.toList_push, hlen, ← List.append_assoc]
    rfl
  · cases h13.symm.trans h13'
    exact hfit
  · exact fun hst => absurd hst hf.not_early
  · exact fun hst => absurd (.inr (.inr hst)) hf.not_early

theorem Inbound.dataStaged (hs : Inbound s) (hf : s.Flowing) {hs' : HsCtx}
    (h13 : s.hs13 = some hs') (hle : s.plainLen ≤ s.plainOff) {plen : ℕ}
    (hplen : plen ≤ hs'.plainBuf.length) :
    Inbound { s with
      plainLen := plen
      plainOff := 0
      history := { s.history with
        decrypted := s.history.decrypted ++ [hs'.plainBuf.take plen] } } := by
  refine ⟨fun hmode hs'' h13' => ?_, fun _ hmode hs'' h13' => ?_, ?_, ?_⟩
  · cases h13.symm.trans h13'
    have hstream := hs.stream hmode hs' h13
    rw [s.staged_eq_nil _ hle, List.append_nil] at hstream
    have hstaged : slice hs'.plainBuf 0 (plen - 0) = hs'.plainBuf.take plen := rfl
    dsimp only [Link.staged]
    rw [hstream, hstaged, List.flatten_append, List.flatten_singleton]
  · cases h13.symm.trans h13'
    exact hplen
  · exact fun hst => absurd hst hf.not_early
  · exact fun hst => absurd (.inr (.inr hst)) hf.not_early

theorem Inbound.effect (h : Effect C π s s') (hs : Inbound s) : Inbound s' := by
  have hnone : s.state = .handshaking → ¬s.plainOff < s.plainLen := by
    intro hst
    have hclean := hs.clean hst
    omega
  cases h
  case delivered hf h13 hlt => exact hs.delivered hf h13 hlt
  case dataStaged hf h13 hle hplen => exact hs.dataStaged hf h13 hle hplen
  case recordTaken hs' hs'' n hf h13 hle hframe =>
    -- the plaintext buffer is written, but nothing of it is staged
    have hnone : ∀ x, s.staged x = [] := fun x => s.staged_eq_nil x hle
    refine ⟨fun hmode x hx => ?_, fun hlt => absurd hlt (Nat.not_lt.2 hle), hs.quiet, hs.clean⟩
    have hstream := hs.stream hmode hs' h13
    rw [hnone] at hstream
    show _ ++ s.staged x = _
    rw [hnone]
    exact hstream
  case read cap hup =>
    refine ⟨fun hmode x hx => ?_, hs.staged, fun hst => ?_, hs.clean⟩
    · have hstream := hs.stream hmode x hx
      rw [← Ring.pop_append s.readBuf cap, ← List.append_assoc] at hstream
      exact hstream
    · obtain hup | hcl := hup
      · obtain h | h | h := hst <;> rw [show s.state = _ from h] at hup <;> cases hup
      · obtain h | h | h := hst <;> exact absurd (hcl.symm.trans h) (by decide)
  case built hs' hf h13 _ =>
    refine ⟨fun hmode x hx => ?_, fun hlt hmode x hx => ?_, hs.quiet, hs.clean⟩
    · cases hx
      exact hs.stream hmode hs' h13
    · cases hx
      exact hs.staged hlt hmode hs' h13
  case sentHandshake hs' n hc h13 _ =>
    refine ⟨fun hmode x hx => ?_, fun hlt hmode x hx => ?_, hs.quiet, hs.clean⟩
    · cases hx
      exact hs.stream hmode hs' h13
    · cases hx
      exact hs.staged hlt hmode hs' h13
  case tls13Starts hst _ _ | tls12Starts hst _ =>
    refine ⟨fun _ _ _ => hs.stream_of_quiet (.inr (.inl hst)), fun hlt => ?_, fun _ => ?_,
      fun _ => ⟨rfl, rfl⟩⟩
    · exact absurd hlt (Nat.lt_irrefl 0)
    · exact hs.quiet (.inr (.inl hst))
  case handshook h _ _ =>
    exact ⟨fun _ x _ => hs.stream_of_clean h.state x, fun hlt => absurd hlt (hnone h.state),
      hs.quiet, hs.clean⟩
  case handshakeFailed h _ _ | handshakeDone h _ _ _ =>
    refine ⟨fun _ x _ => hs.stream_of_clean h.state x, fun hlt => absurd hlt (hnone h.state),
      fun hst => ?_, fun hst => (by cases hst)⟩
    obtain h | h | h := hst <;> cases h
  case noFallback h _ _ =>
    refine ⟨fun hmode => absurd rfl hmode, fun _ hmode => absurd rfl hmode, fun hst => ?_,
      fun hst => (by cases hst)⟩
    obtain h | h | h := hst <;> cases h
  case fallback h _ _ =>
    refine ⟨fun hmode => absurd rfl hmode, fun _ hmode => absurd rfl hmode, fun _ => ?_,
      fun hst => by cases hst⟩
    simpa [Link.opens, Link.fellBack, Link.handshook] using hs.quiet (.inr (.inr h.state))
  case tls12Data hup hmode =>
    refine ⟨fun h => absurd hmode h, fun _ h => absurd hmode h, fun hst => ?_, hs.clean⟩
    obtain h | h | h := hst <;> rw [show s.state = _ from h] at hup <;> cases hup
  case released hup _ _ =>
    have hhist : s.release.history.returned = s.history.returned ∧
        s.release.history.decrypted = s.history.decrypted := by
      unfold Link.release
      dsimp only
      split_ifs <;> exact ⟨rfl, rfl⟩
    refine ⟨fun hmode x hx => ?_, hs.staged, fun hst => ?_, fun hst => (by cases hst)⟩
    · rw [hhist.1, hhist.2]
      exact hs.stream hmode x hx
    · obtain h | h | h := hst <;> cases h
  all_goals
    refine ⟨hs.stream, hs.staged, ?_, ?_⟩ <;>
      grind -ring -linarith [hs.quiet, hs.clean, Link.opens, Link.fail, Link.sends, OstlsState.isUp]

theorem inbound_of_reach {ok : Proc E → Action → Prop} {config : OstlsConfig}
    {tickets : TicketCache} {sessions : SessCache} {log : List ResumeEvent} {p : Proc E}
    (h : Reach (Proc.step C G) ok (Proc.start G config tickets sessions log) p)
    (hdis : p.conn.disposed = false) : Inbound p.conn.link := by
  refine link_invariant (P := fun s => s.disposed = false → Inbound s) h
    (fun _ => inbound_init G config) (fun p a _ _ => Policy.any_meets C G p.conn a)
    (fun hdis hs he _ => (hs hdis).effect he) ?_ ?_ hdis
  · intro p _ hs hdis
    unfold Link.dispose at hdis ⊢
    split_ifs at hdis ⊢
    exact hs hdis
  · intro p event result _ hs
    cases event with
    | openComplete cookie => exact fun hdis =>
        ⟨(hs hdis).stream, (hs hdis).staged, (hs hdis).quiet, (hs hdis).clean⟩
    | _ => exact hs

/-! ### Staged plaintext is not overwritten -/

/-- The staged plaintext and the buffer it is in. -/
def Conn.plain (conn : Conn E) : Option Bytes × ℕ × ℕ :=
  (conn.hs13.map HsCtx.plainBuf, conn.t13PlainLen, conn.t13PlainOff)

theorem plain_ostlsFail (conn : Conn E) (osErr : ℕ) (otErr brErr : ℤ) :
    (ostlsFail conn osErr otErr brErr).plain = conn.plain := rfl

theorem plain_eventBump (conn : Conn E) (e : OstlsEvent) : (eventBump conn e).plain = conn.plain := by
  unfold eventBump
  split_ifs <;> rfl

theorem plain_ostlsSendRaw (conn : Conn E) (buf : Bytes) (env : SendEnv) :
    (ostlsSendRaw conn buf env).1.plain = conn.plain ∧
      (ostlsSendRaw conn buf env).1.hs13 = conn.hs13 := by
  unfold ostlsSendRaw
  split_ifs
  · exact ⟨rfl, rfl⟩
  · exact ⟨rfl, rfl⟩
  · split <;> exact ⟨rfl, rfl⟩

theorem plain_flushHandshake {conn : Conn E} {hs : HsCtx} (h13 : conn.hs13 = some hs)
    (env : SendEnv) : (flushHandshake conn hs env).1.plain = conn.plain := by
  unfold flushHandshake
  split_ifs
  · have h := plain_ostlsSendRaw conn (slice hs.msgBuf hs.msgOffset (hs.msgLen - hs.msgOffset)) env
    generalize ostlsSendRaw conn (slice hs.msgBuf hs.msgOffset (hs.msgLen - hs.msgOffset)) env = r
      at h ⊢
    obtain ⟨conn', sent⟩ := r
    obtain ⟨hplain, hsame⟩ := h
    have hmap : conn'.hs13.map HsCtx.plainBuf = some hs.plainBuf := by
      rw [show conn'.hs13 = conn.hs13 from hsame, h13]
      rfl
    cases sent with
    | none => exact hplain
    | some n =>
      rw [← hplain, Conn.plain, Conn.plain, hmap]
      dsimp only
      split_ifs <;> rfl
  · rfl

theorem plain_flushRecord (conn : Conn E) (env : SendEnv) :
    (flushRecord conn env).1.plain = conn.plain := by
  unfold flushRecord
  split_ifs
  · have h := plain_ostlsSendRaw conn
      (slice conn.t13SendRec conn.t13SendOff (conn.t13SendLen - conn.t13SendOff)) env
    generalize ostlsSendRaw conn
      (slice conn.t13SendRec conn.t13SendOff (conn.t13SendLen - conn.t13SendOff)) env = r at h ⊢
    obtain ⟨conn', sent⟩ := r
    rw [← show conn'.plain = conn.plain from h.1]
    cases sent with
    | none => rfl
    | some n =>
      dsimp only
      split_ifs
      · exact plain_eventBump ..
      · rfl
  · rfl

/-- While something is staged, the open phase only delivers. -/
theorem plain_pumpTls13Step {p : Proc E} {hs : HsCtx} (h13 : p.conn.hs13 = some hs)
    (hf : p.conn.link.Flowing) (hlt : p.conn.t13PlainOff < p.conn.t13PlainLen) (env : PumpEnv) :
    (pumpTls13Step C p env).1.conn.hs13.map HsCtx.plainBuf = some hs.plainBuf := by
  have hplain : p.conn.plain = (some hs.plainBuf, p.conn.t13PlainLen, p.conn.t13PlainOff) := by
    rw [Conn.plain, h13]
    rfl
  have hfst : ∀ {conn : Conn E}, conn.plain = p.conn.plain →
      conn.hs13.map HsCtx.plainBuf = some hs.plainBuf :=
    fun h => congrArg Prod.fst (h.trans hplain)
  unfold pumpTls13Step
  rw [h13]
  have hflush := flushHandshake_cases C .any hf.carried h13 env.sendHs
  have hplain₁ := plain_flushHandshake h13 env.sendHs
  split <;> rename_i hh
  · cases hh
  · cases hh
    split <;> rename_i conn₁ h1 <;> rw [h1] at hflush hplain₁
    · exact hfst hplain₁
    · obtain ⟨-, sent, hlink₁⟩ := hflush.2 rfl
      dsimp only at hlink₁
      have hf₁ : conn₁.link.Flowing := by rw [hlink₁]; exact hf
      have hflush := flushRecord_cases C .any hf₁.carried env.sendApp
      have hplain₂ := (plain_flushRecord conn₁ env.sendApp).trans hplain₁
      split <;> rename_i conn₂ h2 <;> rw [h2] at hflush hplain₂
      · exact hfst hplain₂
      · obtain ⟨-, sent', pc, -, hlink₂⟩ := hflush.2 rfl
        dsimp only at hlink₂ hplain₂
        have hf₂ : conn₂.link.Flowing := by rw [hlink₂]; exact hf₁
        -- neither flush touches the buffer or its bounds
        unfold pumpTls13Drive
        dsimp only
        split
        · exact hfst hplain₂
        · rename_i hs₂ h13₂
          have hnot : conn₂.state ≠ .handshaking := fun h => hf₂.not_early (.inr (.inr h))
          have hup : conn₂.state.isUp = true := hf₂.2
          rw [if_neg fun h => hnot h.1, if_pos hup]
          have hlt₂ : conn₂.t13PlainOff < conn₂.t13PlainLen := by
            have hlen : conn₂.t13PlainLen = p.conn.t13PlainLen := congrArg (·.2.1) hplain₂
            have hoff : conn₂.t13PlainOff = p.conn.t13PlainOff := congrArg (·.2.2) hplain₂
            omega
          unfold pumpTls13Open
          dsimp only
          rw [if_pos hlt₂]
          -- delivering moves the offset, and never the bytes
          have hsame := hfst hplain₂
          unfold pumpTls13DeliverPlain
          dsimp only
          split_ifs
          · exact hsame
          · exact hsame
          · unfold eventBump
            split_ifs <;> exact hsame

/-- No call but `OSTLS_Dispose` touches the buffer while something is staged in it. -/
theorem plainBuf_step {p : Proc E} {hs : HsCtx} (h13 : p.conn.hs13 = some hs)
    (hmode : p.conn.tls13Mode ≠ .off) (hl : Lifecycle p.conn.link) (hi : Inbound p.conn.link)
    (hlt : p.conn.t13PlainOff < p.conn.t13PlainLen) {a : Action} (ha : a ≠ .dispose) :
    (p.step C G a).conn.hs13.map HsCtx.plainBuf = some hs.plainBuf := by
  have hsame : p.conn.hs13.map HsCtx.plainBuf = some hs.plainBuf := by rw [h13]; rfl
  cases a with
  | start env =>
    show (ostlsStart p.conn env).2.hs13.map _ = _
    unfold ostlsStart
    split_ifs <;> exact hsame
  | enter =>
    unfold Proc.step
    split_ifs <;> exact hsame
  | turn env =>
    have hbump : ∀ (conn : Conn E) e, (eventBump conn e).hs13 = conn.hs13 := by
      intro conn e
      unfold eventBump
      split_ifs <;> rfl
    -- what is staged shows that the handshake is over
    have hnotHs : p.conn.state ≠ .handshaking := by
      intro hst
      have hlen : p.conn.t13PlainLen = 0 := (hi.clean hst).1
      omega
    have hnotConn : p.conn.state ≠ .connecting := fun hst => hmode (hl.early (.inr hst))
    have hup : p.conn.state.isUp = true →
        (pumpTls13Step C p env).1.conn.hs13.map HsCtx.plainBuf = some hs.plainBuf :=
      fun hup => plain_pumpTls13Step h13 ⟨hmode, hup⟩ hlt env
    unfold Proc.step
    dsimp only
    split_ifs
    · exact hsame
    · have hturn := turn_pumpTurn (C := C) (G := G) p env
      generalize (pumpTurn C G p env).1 = q at hturn ⊢
      cases hturn with
      | ended => exact hsame
      | expired hst => exact absurd hst hnotHs
      | disconnected =>
        rw [hbump]
        exact hsame
      -- the state decides which step runs; where the connection is up it only delivers
      | steps =>
        unfold pumpStep
        rw [if_pos hmode]
        split <;> rename_i hst
        · exact absurd hst hnotConn
        · exact absurd hst hnotHs
        · exact hup (by rw [hst]; rfl)
        · exact hup (by rw [hst]; rfl)
        · exact hsame
        · exact hsame
        · exact hsame
  | write buf =>
    show (ostlsWrite p.conn buf).2.2.hs13.map _ = _
    unfold ostlsWrite
    dsimp only
    split_ifs <;> exact hsame
  | read cap =>
    show (ostlsRead p.conn cap).2.2.hs13.map _ = _
    unfold ostlsRead
    dsimp only
    split_ifs <;> exact hsame
  | close =>
    show (ostlsClose G p.conn).hs13.map _ = _
    unfold ostlsClose closeUp releaseTls13
    dsimp only
    split_ifs
    · exact hsame
    · exact hsame
    all_goals split <;> exact hsame
  | dispose => exact absurd rfl ha
  | notify event result => cases event <;> exact hsame
  | others => exact hsame

/-- **The inbound stream.**  In every reached state of the TLS 1.3 path, what was returned, then the
ring, then the staged plaintext is what was decrypted; the ring is within its bounds, and the buffer
is not written while something is staged in it. -/
theorem inbound_exact {ok : Proc E → Action → Prop} {config : OstlsConfig} {tickets : TicketCache}
    {sessions : SessCache} {log : List ResumeEvent} {p : Proc E}
    (h : Reach (Proc.step C G) ok (Proc.start G config tickets sessions log) p)
    (hdis : p.conn.disposed = false) (hmode : p.conn.tls13Mode ≠ .off) :
    ∃ hs, p.conn.hs13 = some hs ∧
      p.conn.history.returned ++ p.conn.readBuf.toList ++
          slice hs.plainBuf p.conn.t13PlainOff (p.conn.t13PlainLen - p.conn.t13PlainOff) =
        p.conn.history.decrypted.flatten ∧
      p.conn.readBuf.pos < ostlsReadBufSize ∧ p.conn.readBuf.avail ≤ ostlsReadBufSize ∧
      (p.conn.t13PlainOff < p.conn.t13PlainLen → p.conn.t13PlainLen ≤ hs.plainBuf.length ∧
        ∀ a, a ≠ .dispose → (p.step C G a).conn.hs13.map HsCtx.plainBuf = some hs.plainBuf) := by
  have hl : Lifecycle p.conn.link := Lifecycle.reach h (lifecycle_init G config)
  have hi := inbound_of_reach h hdis
  obtain ⟨hs, h13⟩ := Option.ne_none_iff_exists'.1 (hl.context hdis hmode)
  exact ⟨hs, h13, hi.stream hmode hs h13, p.conn.readBuf.pos_lt, p.conn.readBuf.avail_le,
    fun hlt => ⟨hi.staged hlt hmode hs h13, fun a ha => plainBuf_step h13 hmode hl hi hlt ha⟩⟩

/-! ### A run with data -/

/-- The TLS 1.3 handshake of a connection. -/
def Proc.session (p : Proc E) : Session :=
  ⟨p.conn.hs13.getD tls13HandshakeInit, p.conn.history.hsLog⟩

/-- `OTSnd` takes everything. -/
def sendEnv : PumpEnv :=
  { idleEnv with sendHs := ⟨.dataxfer, .sent 20000⟩, sendApp := ⟨.dataxfer, .sent 20000⟩ }

/-- A turn in which the server's bytes come in, and one that looks at them. -/
def serves (f : Session → StepInput) : List (Proc Unit → Action) :=
  [fun p => .turn { sendEnv with recv := ⟨.dataxfer, .data (f p.session).recv⟩ },
    fun _ => .turn sendEnv]

/-- A turn in which nothing comes in. -/
def turns (_ : Session → StepInput) : List (Proc Unit → Action) := [fun _ => .turn sendEnv]

/-- A connection to the server with the one certificate, up to `kOSTLSStateOpen`. -/
def opensTls13 : List (Proc Unit → Action) :=
  startsTls13 ++ (((certifiedServer .transparent [1]).zip
    [turns, serves, serves, serves, turns, serves, serves, turns]).flatMap fun x => x.2 x.1) ++
    [fun _ => .turn sendEnv]

/-- An application data record of the server. -/
def serverSends (data : Bytes) (s : Session) : StepInput :=
  ⟨applicationRecord
    (tls13RecordEncrypt .transparent s.hs.readCtx data tls13CtApplicationData).2, .zero⟩

theorem inbound_exact_opensTls13 :
    let p := play (Proc.step .transparent waitingEngine) freshProc
      (opensTls13 ++ serves (serverSends [104, 105]) ++ [fun _ => .read 1])
    p.conn.history.decrypted = [[104, 105]] ∧ p.conn.history.returned = [104] ∧
      ∃ staged, p.conn.history.returned ++ p.conn.readBuf.toList ++ staged =
        p.conn.history.decrypted.flatten := by
  intro p
  have hreach : Reach (Proc.step .transparent waitingEngine) OtLawful freshProc p :=
    reach_script _ (by decide +kernel)
  obtain ⟨hdecrypted, hreturned, hdis, hmode⟩ : p.conn.history.decrypted = [[104, 105]] ∧
      p.conn.history.returned = [104] ∧ p.conn.disposed = false ∧ p.conn.tls13Mode ≠ .off := by
    decide +kernel
  obtain ⟨hs, -, hstream, -⟩ := inbound_exact hreach hdis hmode
  exact ⟨hdecrypted, hreturned, _, hstream⟩

end MacTLS
