import MacTLS.Async.Lifecycle
import MacTLS.Handshake.Transition

/-!
# A clean close is only reported for an established connection

* `Orderly` : a turn does not close the connection early, and does not complete its handshake or
  fall back late;
* `established_or_failed` : in runs of such turns a connection is closed only after its handshake,
  and a peer that closes before that makes it fail;
* `closes_handshaking` : the TLS 1.2 path closes a connection whose handshake is not done.
-/

namespace MacTLS

open Lib

variable {E : Type} {C : Crypto} {G : Engine E} {π : Policy} {s s' : Link}

/-- Only a step in the state `complete` ends there with nothing to send. -/
theorem Transition.complete_of_sent {hostname : Bytes} {hs : HsCtx} {recv : Bytes} {o : Outcome}
    (h : Transition C hostname hs recv o) (hdone : o.hs.state = .complete)
    (hsent : o.hs.msgLen ≤ o.hs.msgOffset) : hs.state = .complete := by
  cases h with
  | quiet hst hsame hpend hr hlog => exact hr.state.symm.trans hdone
  | notSent hst hres hr hlog =>
    obtain ⟨hs₁, e, site, rfl | hr, ho⟩ := hr
    · rw [ho] at hdone
      exact hdone
    · rw [ho] at hdone
      exact (congrArg HsCtx.state hr.frame).symm.trans hdone
  | helloRefused hst hmsg h hlog => exact (congrArg HsCtx.state h.frame).symm.trans hdone
  | refused hst hpend hr hup h ho =>
    obtain ⟨e, he⟩ := h.hs
    rw [ho] at hdone
    dsimp only at hdone
    rw [he] at hdone
    exact hr.state.symm.trans hdone
  | parkedRefused hst hpend h =>
    obtain ⟨e, he⟩ := h.hs
    rw [he] at hdone
    exact hdone
  | encryptedExtensions =>
    dsimp only at hdone
    split_ifs at hdone
  | clientFinished hst =>
    -- the record it queued has at least a header
    simp [installClientAppKeys, clientFinishedRecord, applicationRecord] at hsent
  | _ => cases hdone

/-! ### The invariant -/

/-- How a connection stands to a peer that closes. -/
structure Peered (s : Link) : Prop where
  closed : s.state = .closed → s.handshakeDone = true
  told : s.told = true → s.state = .closed
  peer : s.peerClosed = true → s.state ≠ .idle ∧ s.state ≠ .connecting
  flushed : s.state = .handshaking → s.sendLen ≤ s.sendOff
  wf : s.state = .handshaking → s.mode = .trying → ∀ hs, s.hs13 = some hs → hs.Wf

theorem peered_init (G : Engine E) (config : OstlsConfig) : Peered (Conn.init G config).link where
  closed h := by cases h
  told h := by cases h
  peer h := by cases h
  flushed h := by cases h
  wf h := by cases h

theorem Peered.effect (h : Effect C π s s') (hπ : π.established) (hl : Lifecycle s)
    (hs : Peered s) : Peered s' := by
  obtain ⟨hclosed, htold, hpeer, hflushed, hwf⟩ := hs
  have hstep : ∀ {hs : HsCtx} {o : HsOut}, Handshakes C s hs o → o.hs.Wf := by
    intro hs o hh
    obtain ⟨rnd, ho⟩ := hh.out
    have hw := hwf hh.state hh.mode hs hh.hs13
    rw [ho]
    exact (transition_step C s.serverName rnd s.recvBuf hw).wf hw
  have hup := hl.up
  cases h
  case handshook h _ _ =>
    have hw := hstep h
    constructor <;> grind -ring -linarith [Link.handshook, Handshakes]
  case handshakeFailed h _ _ | handshakeDone h _ _ _ =>
    constructor <;> grind -ring -linarith [Link.handshook, Link.fail, Link.opened, Handshakes]
  case noFallback h _ _ | fallback h _ _ =>
    constructor <;> grind -ring -linarith [Link.handshook, Link.fellBack, Link.fail, Link.opens,
      Handshakes]
  case tls13Starts =>
    have hw : ∀ b r t a, (Session.start b r t a).hs.Wf := fun _ _ _ _ => ⟨rfl, Nat.le_refl 0⟩
    constructor <;> grind -ring -linarith [Link.connected]
  case sentHandshake =>
    constructor <;> grind -ring -linarith [Link.sends, HsCtx.took, HsCtx.Wf, HsCtx.PlainOk]
  case bound | tls12Data | received | delivered | dataStaged | closeNoted | wrote | read =>
    exact ⟨hclosed, htold, hpeer, hflushed, hwf⟩
  case failed | notStarted | notOpened | setupFailed | aborted =>
    -- no close was reported before
    refine ⟨by simp [Link.fail], ?_, by simp [Link.fail], by simp [Link.fail], by simp [Link.fail]⟩
    grind -ring -linarith [Link.fail]
  all_goals
    constructor <;> grind -ring -linarith [Link.opens, Link.connected, Link.release, Link.sends,
      Link.built, Link.Live, Link.Carried, Link.Flowing, OstlsState.isUp]

theorem Peered.dispose (hs : Peered s) : Peered s.dispose := by
  unfold Link.dispose
  split_ifs
  · exact hs
  · obtain ⟨hclosed, htold, hpeer, hflushed, hwf⟩ := hs
    exact ⟨by simpa using hclosed, by simpa using htold, by simpa using hpeer,
      by simpa using hflushed, fun _ _ _ h => by cases h⟩

theorem Peered.notified (hs : Peered s) (event : OtEvent) : Peered (s.notified event) := by
  cases event with
  | openComplete cookie => exact ⟨hs.closed, hs.told, hs.peer, hs.flushed, hs.wf⟩
  | _ => exact hs

/-! ### Behind a peer that has closed -/

/-- The peer has closed before the handshake was done, and the connection has failed or waits. -/
structure Behind (s : Link) : Prop where
  undone : s.handshakeDone = false
  waits : s.state = .failed ∨ s.state = .handshaking ∧ s.peerClosed = true

theorem Behind.effect (h : Effect C π s s') (hπ : π.established) (hp : Peered s)
    (hs : Behind s) : Behind s' := by
  obtain ⟨hundone, hwaits⟩ := hs
  have hnotUp : s.state.isUp = false := by
    obtain hst | ⟨hst, -⟩ := hwaits <;> rw [hst] <;> rfl
  have hpeer : s.state = .handshaking → s.peerClosed = true := by
    intro hst
    obtain hfailed | ⟨-, hpeer⟩ := hwaits
    · rw [hst] at hfailed
      cases hfailed
    · exact hpeer
  cases h
  case handshakeDone hs o hh hdone hsent hlate =>
    obtain ⟨rnd, ho⟩ := hh.out
    have hw := hp.wf hh.state hh.mode hs hh.hs13
    have hcomplete : hs.state = .complete :=
      (transition_step C s.serverName rnd s.recvBuf hw).complete_of_sent (ho ▸ hdone) (ho ▸ hsent)
    have hunsent := hlate hπ hcomplete (hpeer hh.state)
    have hflushed := hp.flushed hh.state
    omega
  case tls12Opened hst _ hlate =>
    have hopen : s.peerClosed = false := hlate hπ
    rw [hpeer hst] at hopen
    cases hopen
  case closed hearly _ =>
    obtain hup | hdone := hearly hπ
    · rw [hnotUp] at hup
      cases hup
    · rw [hundone] at hdone
      cases hdone
  case fallback h _ hlate =>
    have hunsent := hlate hπ (hpeer h.state)
    have hflushed := hp.flushed h.state
    omega
  all_goals
    constructor <;> grind -ring -linarith [Link.fail, Link.opens, Link.connected, Link.release,
      Link.sends, Link.built, Link.handshook, Link.fellBack, Link.Carried, Link.Flowing,
      OstlsState.isUp]

theorem Behind.dispose (hs : Behind s) : Behind s.dispose :=
  ⟨by simpa using hs.undone, by simpa using hs.waits⟩

theorem Behind.notified (hs : Behind s) (event : OtEvent) : Behind (s.notified event) :=
  ⟨by simpa using hs.undone, by simpa using hs.waits⟩

/-- A turn that closes no connection early, and neither completes a handshake nor falls back behind
a peer that has closed. -/
def Orderly (C : Crypto) (G : Engine E) (p : Proc E) (a : Action) : Prop :=
  ¬ClosesEarly G p.conn a ∧ ¬OpensLate G p.conn a ∧ ¬FallsBackLate C p.conn a

instance (C : Crypto) (G : Engine E) (p : Proc E) (a : Action) : Decidable (Orderly C G p a) :=
  inferInstanceAs (Decidable (_ ∧ _))

theorem Orderly.meets {p : Proc E} {a : Action} (h : Orderly C G p a) :
    Policy.Meets C G ⟨False, False, True⟩ p.conn a :=
  ⟨fun h => h.elim, fun h => h.elim, fun _ => h⟩

theorem peered_of_reach {p₀ p : Proc E} (h : Reach (Proc.step C G) (Orderly C G) p₀ p)
    (hl : Lifecycle p₀.conn.link) (hp : Peered p₀.conn.link) : Peered p.conn.link :=
  (Lifecycle.keeps h hl hp (fun _ _ => Orderly.meets) (fun hl hp he => hp.effect he trivial hl)
    Peered.dispose fun event hp => hp.notified event).2

theorem behind_of_reach {p₀ p : Proc E} (h : Reach (Proc.step C G) (Orderly C G) p₀ p)
    (hl : Lifecycle p₀.conn.link) (hp : Peered p₀.conn.link) (hb : Behind p₀.conn.link) :
    Behind p.conn.link :=
  (Lifecycle.keeps (Q := fun s => Peered s ∧ Behind s) h hl ⟨hp, hb⟩
    (fun _ _ => Orderly.meets)
    (fun hl hs he => ⟨hs.1.effect he trivial hl, hs.2.effect he trivial hs.1⟩)
    (fun hs => ⟨hs.1.dispose, hs.2.dispose⟩)
    fun event hs => ⟨hs.1.notified event, hs.2.notified event⟩).2.2

/-- A turn after the time for the handshake is up. -/
theorem turn_of_expired {p : Proc E} (hdis : p.conn.disposed = false)
    (hst : p.conn.state = .handshaking) {env : PumpEnv} (hexp : HandshakeExpired p.conn env) :
    (p.step C G (.turn env)).conn.state = .failed ∧
      (p.step C G (.turn env)).conn.osErr ≠ asyncOk := by
  have hturn : (p.step C G (.turn env)).conn =
      eventBump (ostlsFail p.conn asyncHandshakeTimeout kOTNoError 0) .failed := by
    unfold Proc.step
    dsimp only
    rw [if_neg (by simp [hdis])]
    have hpumped := turn_pumpTurn (C := C) (G := G) p env
    generalize (pumpTurn C G p env).1 = q at hpumped ⊢
    cases hpumped with
    | ended hover =>
      rw [hst] at hover
      obtain h | h := hover <;> cases h
    | expired => rfl
    | disconnected _ hnot | steps _ hnot => exact absurd ⟨hst, hexp⟩ hnot
  rw [hturn]
  unfold eventBump ostlsFail
  have herr : asyncHandshakeTimeout ≠ asyncOk := by decide
  grind -ring -linarith

/-- **A clean close needs a handshake.**  In a run of orderly turns a connection is closed, and
reported closed, only when its handshake is done; when the peer closes before that, the connection
fails with an error code, or waits in the handshake until the time for that is up. -/
theorem established_or_failed {config : OstlsConfig} {tickets : TicketCache}
    {sessions : SessCache} {log : List ResumeEvent} {p : Proc E}
    (h : Reach (Proc.step C G) (Orderly C G) (Proc.start G config tickets sessions log) p) :
    (p.conn.state = .closed ∨ p.conn.bestEvent = .closed → p.conn.handshakeDone = true) ∧
      (p.conn.peerClosed = true → p.conn.handshakeDone = false →
        ∀ p', Reach (Proc.step C G) (Orderly C G) p p' → p'.conn.disposed = false →
          p'.conn.handshakeDone = false ∧
            (p'.conn.state = .failed ∧ p'.conn.osErr ≠ asyncOk ∨
              p'.conn.state = .handshaking ∧ ∀ env, HandshakeExpired p'.conn env →
                (p'.step C G (.turn env)).conn.state = .failed ∧
                  (p'.step C G (.turn env)).conn.osErr ≠ asyncOk)) := by
  have hl₀ := lifecycle_init G config
  have hl : Lifecycle p.conn.link := Lifecycle.reach h hl₀
  have hp : Peered p.conn.link := peered_of_reach h hl₀ (peered_init G config)
  constructor
  · rintro (hst | htold)
    · exact hp.closed hst
    · exact hp.closed (hp.told (decide_eq_true htold))
  · intro hpeer hdone p' h' hdis
    have hwaits : p.conn.state = .failed ∨ p.conn.state = .handshaking := by
      have hidle : p.conn.state ≠ .idle ∧ p.conn.state ≠ .connecting := hp.peer hpeer
      have hup : p.conn.state.isUp = true → p.conn.handshakeDone = true := hl.up
      have hclosed : p.conn.state = .closed → p.conn.handshakeDone = true := hp.closed
      cases hst : p.conn.state <;> simp_all [OstlsState.isUp]
    have hb := behind_of_reach h' hl hp ⟨hdone, hwaits.imp_right fun hst => ⟨hst, hpeer⟩⟩
    obtain hst | ⟨hst, -⟩ := hb.waits
    · exact ⟨hb.undone, .inl ⟨hst, (Lifecycle.reach h' hl).failed.1 hst⟩⟩
    · exact ⟨hb.undone, .inr ⟨hst, fun env hexp => turn_of_expired hdis hst hexp⟩⟩

/-- The server answers the ClientHello by closing. -/
def refusesTls13 : List (Proc Unit → Action) :=
  startsTls13 ++ [.turn idleEnv, .turn { idleEnv with sendHs := ⟨.dataxfer, .lookErr .ordrel⟩ }].map
    fun a _ => a

theorem established_or_failed_refusesTls13 :
    let p := play (Proc.step .transparent waitingEngine) freshProc refusesTls13
    p.conn.state = .handshaking ∧ p.conn.peerClosed = true ∧
      (p.step .transparent waitingEngine (.turn { idleEnv with ticks := 2000 })).conn.state =
        .failed := by
  have hst : (play (Proc.step .transparent waitingEngine) freshProc refusesTls13).conn.state =
      .handshaking := by decide +kernel
  refine ⟨hst, by decide +kernel, ?_⟩
  have h := established_or_failed (C := .transparent) (G := waitingEngine)
    (p := play (Proc.step .transparent waitingEngine) freshProc refusesTls13)
    (reach_play (by decide +kernel))
  obtain ⟨-, hfailed | hwaits⟩ := h.2 (by decide +kernel) (by decide +kernel) _ .refl
    (by decide +kernel)
  · rw [hst] at hfailed
    cases hfailed.1
  · exact (hwaits.2 _ (by decide +kernel)).1

/-- The same answer on the TLS 1.2 path, found by an `OTRcv`. -/
def refusesTls12 : List (Proc Unit → Action) :=
  connects { idleEnv with tryTls13 := false } ++
    [.turn { idleEnv with recv := ⟨.dataxfer, .lookErr .ordrel⟩ }, .turn idleEnv].map fun a _ => a

/-- The TLS 1.2 path reports a clean close although its handshake is not done. -/
theorem closes_handshaking :
    ∃ p : Proc Unit, Reach (Proc.step .transparent waitingEngine) OtLawful freshProc p ∧
      p.conn.disposed = false ∧ p.conn.handshakeDone = false ∧ p.conn.state = .closed ∧
      p.conn.bestEvent = .closed ∧ p.conn.osErr = asyncOk :=
  ⟨play (Proc.step .transparent waitingEngine) freshProc refusesTls12,
    reach_play (by decide +kernel), by decide +kernel, by decide +kernel, by decide +kernel,
    by decide +kernel, by decide +kernel⟩

end MacTLS
