import MacTLS.Async.Offers

/-!
# The step budget

A turn of the pump calls `OTSnd` and `OTRcv` at most once each, and it calls both when a send lets
it go on to receive.

* `BothWays`, `Silent` : the turns that call both, and those that call neither;
* `length_turnCalls` : how many calls a turn makes;
* `calls_le_iff` : when all the calls of an `OSTLS_Pump` stay within its budget.
-/

namespace MacTLS

open Lib

variable {E : Type} {C : Crypto} {G : Engine E} {conn : Conn E} {p : Proc E} {hs : HsCtx}

/-! ### Turns -/

/-- A turn that calls both `OTSnd` and `OTRcv`: the last handshake bytes are sent and the handshake
waits for others, or what is to be sent is refused and there is nothing else to be done. -/
def BothWays (C : Crypto) (G : Engine E) (conn : Conn E) (env : PumpEnv) : Prop :=
  (SendsHandshake conn env ∨ SendsData G conn env) ∧ Listens C G conn env

/-- A turn that calls neither. -/
def Silent (C : Crypto) (G : Engine E) (conn : Conn E) (env : PumpEnv) : Prop :=
  ¬SendsHandshake conn env ∧ ¬SendsData G conn env ∧ ¬Listens C G conn env

instance (C : Crypto) (G : Engine E) (conn : Conn E) (env : PumpEnv) :
    Decidable (BothWays C G conn env) := inferInstanceAs (Decidable (_ ∧ _))

instance (C : Crypto) (G : Engine E) (conn : Conn E) (env : PumpEnv) :
    Decidable (Silent C G conn env) := inferInstanceAs (Decidable (_ ∧ _))

/-- The two buffers of a connection are not used at the same time. -/
structure Ordered (conn : Conn E) : Prop where
  flushed : conn.state.isUp = true → conn.tls13Mode ≠ .off →
    ∀ hs, conn.hs13 = some hs → hs.msgLen ≤ hs.msgOffset
  landed : conn.state = .handshaking → conn.t13SendLen ≤ conn.t13SendOff

theorem Outbound.ordered (ho : Outbound C conn.link) (hl : Lifecycle conn.link) : Ordered conn where
  flushed hup hmode hs h13 := ((hl.opened (ho.open_of_up hmode hup)).2 hs h13).2
  landed hst := (ho.early (.inr (.inr hst))).2.2

/-- A turn does not send from both. -/
theorem Ordered.sends_once (ho : Ordered conn) {env : PumpEnv} (h : SendsHandshake conn env) :
    ¬SendsData G conn env := by
  obtain ⟨⟨hst, -⟩, hmode, hs, h13, hlt, -⟩ := h
  have hshake : conn.state = .handshaking :=
    hst.resolve_right fun hup => absurd (ho.flushed hup hmode hs h13) (Nat.not_le.2 hlt)
  rintro ⟨-, ⟨-, hs', -, -, hfly, -⟩ | ⟨hoff, -⟩⟩
  · exact absurd (ho.landed hshake) (Nat.not_le.2 hfly)
  · exact hmode hoff

/-- **A turn makes one call**, or two when a send lets it go on to receive, or none. -/
theorem length_turnCalls (ho : Ordered p.conn) (env : PumpEnv) :
    (turnCalls C G p env).length + (if Silent C G p.conn env then 1 else 0) =
      1 + if BothWays C G p.conn env then 1 else 0 := by
  have honce : SendsHandshake p.conn env → ¬SendsData G p.conn env := ho.sends_once
  rw [turnCalls_eq]
  unfold callWhen BothWays Silent
  by_cases hshake : SendsHandshake p.conn env <;> by_cases hdata : SendsData G p.conn env <;>
    by_cases hlisten : Listens C G p.conn env <;> simp_all

/-! ### A whole call -/

/-- The turns of the budget that are not taken, with those that call neither. -/
def spareTurns (C : Crypto) (G : Engine E) (p : Proc E) (envs : List PumpEnv) : ℕ :=
  (envs.length - (pumpTurns C G p envs).length) +
    (pumpTurns C G p envs).countP fun t => Silent C G t.1.conn t.2

/-- Before every turn the connection is in use, and reached. -/
theorem reach_pumpTurns {p₀ : Proc E} (h : Reach (Proc.step C G) OtLawful p₀ p)
    (envs : List PumpEnv) : ∀ t ∈ pumpTurns C G p envs,
      t.1.conn.disposed = false ∧ Reach (Proc.step C G) OtLawful p₀ t.1 := by
  by_cases hdis : p.conn.disposed = true
  · have hnone : pumpTurns C G p envs = [] := if_pos (.inl hdis)
    rw [hnone]
    exact fun t ht => absurd ht List.not_mem_nil
  · have hdis : p.conn.disposed = false := by simpa using hdis
    refine turns_invariant (P := fun q => q.conn.disposed = false ∧
      Reach (Proc.step C G) OtLawful p₀ q) (fun q env hq => ?_) ⟨hdis, ?_⟩
    · have hstep : q.step C G (.turn env) = (pumpTurn C G q env).1 := by
        unfold Proc.step
        dsimp only
        rw [hq.1]
        rfl
      refine ⟨(disposed_pumpTurn env).trans hq.1, ?_⟩
      rw [← hstep]
      exact hq.2.tail trivial
    · have hstep : p.step C G .enter = p.onConn fun conn => { conn with bestEvent := .none } := by
        unfold Proc.step
        dsimp only
        rw [hdis]
        rfl
      rw [← hstep]
      exact h.tail trivial

/-- The calls of some turns: one each, one more for each that calls both, and one less for each that
calls neither. -/
theorem length_flatMap_calls {turns : List (Proc E × PumpEnv)}
    (h : ∀ t ∈ turns, Ordered t.1.conn) :
    (turns.flatMap fun t => turnCalls C G t.1 t.2).length +
        turns.countP (fun t => Silent C G t.1.conn t.2) =
      turns.length + turns.countP fun t => BothWays C G t.1.conn t.2 := by
  induction turns with
  | nil => rfl
  | cons t turns ih =>
    have hturn := length_turnCalls (C := C) (G := G) (h t List.mem_cons_self) t.2
    have ih := ih fun t ht => h t (List.mem_cons_of_mem _ ht)
    simp only [List.flatMap_cons, List.length_append, List.countP_cons, List.length_cons,
      decide_eq_true_eq]
    omega

/-- **The calls stay within the budget when the turns that make two are paid for.**  An
`OSTLS_Pump` takes at most `max_steps` turns, and it makes at most `max_steps` calls of `OTSnd` and
`OTRcv` if and only if the turns that both send and receive are no more than the turns of the budget
that call neither. -/
theorem calls_le_iff {config : OstlsConfig} {tickets : TicketCache} {sessions : SessCache}
    {log : List ResumeEvent}
    (h : Reach (Proc.step C G) OtLawful (Proc.start G config tickets sessions log) p)
    (envs : List PumpEnv) :
    ((pumpTurns C G p envs).length ≤ envs.length ∧
        (pumpCalls C G p envs).length ≤ envs.length) ↔
      ((pumpTurns C G p envs).countP fun t => BothWays C G t.1.conn t.2) ≤
        spareTurns C G p envs := by
  have hordered : ∀ t ∈ pumpTurns C G p envs, Ordered t.1.conn := by
    intro t ht
    obtain ⟨hdis, hreach⟩ := reach_pumpTurns h envs t ht
    have hs : Sends C t.1.conn.link := sends_of_reach hreach fun _ _ => id
    exact (hs.outbound hdis).ordered hs.lifecycle
  have hlen := length_pumpTurns (C := C) (G := G) p envs
  have hcalls := length_flatMap_calls (C := C) (G := G) hordered
  unfold spareTurns pumpCalls
  omega

/-- A connection whose ClientHello is to be sent. -/
def hellos : List (Proc Unit → Action) := startsTls13 ++ [fun _ => .turn idleEnv]

/-- While the ClientHello is refused, one step makes one call. -/
theorem calls_le_hellos :
    (pumpCalls .transparent waitingEngine
      (play (Proc.step .transparent waitingEngine) freshProc hellos) [idleEnv]).length ≤ 1 := by
  have h := calls_le_iff (reach_script hellos (by decide +kernel)) [idleEnv]
  exact (h.2 (by decide +kernel)).2

/-- The step that sends the last byte of the ClientHello also receives. -/
theorem calls_exceed :
    ∃ (p : Proc Unit) (envs : List PumpEnv),
      Reach (Proc.step .transparent waitingEngine) OtLawful freshProc p ∧
      p.conn.disposed = false ∧ p.conn.state = .handshaking ∧ p.conn.tls13Mode = .trying ∧
      envs.length = 1 ∧
      pumpCalls .transparent waitingEngine p envs = [.snd (.sent 20000), .rcv .noDataErr] :=
  ⟨play (Proc.step .transparent waitingEngine) freshProc hellos, [sendEnv],
    reach_script hellos (by decide +kernel), by decide +kernel, by decide +kernel,
    by decide +kernel, by decide, by decide +kernel⟩

end MacTLS
