import MacTLS.Async.Effects

/-!
# The life of a connection

* `lifecycle` : the fields of a connection agree with its state, there is at most one fallback, and
  what is failed or closed stays so;
* `closed_stays` : a connection that was closed is not seen connecting, handshaking or open again,
  unless it was closed while idle and started then.
-/

namespace MacTLS

open Lib

variable {E : Type} {C : Crypto} {G : Engine E} {π : Policy} {s s' : Link}

/-! ### The invariant -/

/-- How the fields of a connection agree with its state. -/
structure Lifecycle (s : Link) : Prop where
  context : s.disposed = false → s.mode ≠ .off → s.hs13 ≠ none
  opened : s.mode = .open → s.handshakeDone = true ∧
    ∀ hs, s.hs13 = some hs → hs.state = .complete ∧ hs.msgLen ≤ hs.msgOffset
  up : s.state.isUp = true → s.handshakeDone = true
  early : s.state = .idle ∨ s.state = .connecting → s.mode = .off
  disabled : s.disabled = true → s.mode = .off
  opens : s.history.opens ≤ if s.disabled = true then 2 else 1
  idle : s.state = .idle → s.history.opens = 0 ∧ s.disabled = false
  failed : s.state = .failed ↔ s.osErr ≠ asyncOk

theorem lifecycle_init (G : Engine E) (config : OstlsConfig) :
    Lifecycle (Conn.init G config).link where
  context _ h := absurd rfl h
  opened h := by cases h
  up h := by cases h
  early _ := rfl
  disabled h := by cases h
  opens := Nat.zero_le _
  idle _ := ⟨rfl, rfl⟩
  failed := ⟨fun h => (by cases h), fun h => absurd rfl h⟩

/-- A connection that fails keeps its first code. -/
theorem Lifecycle.fail {osErr : ℕ} (hs : Lifecycle s) (herr : osErr ≠ asyncOk) :
    Lifecycle (s.fail osErr) where
  context := hs.context
  opened := hs.opened
  up h := by cases h
  early h := by obtain h | h := h <;> cases h
  disabled := hs.disabled
  opens := hs.opens
  idle h := by cases h
  failed := by
    refine ⟨fun _ => ?_, fun _ => rfl⟩
    unfold Link.fail
    dsimp only
    split_ifs with h
    · exact herr
    · exact h

theorem Lifecycle.handshook (hs : Lifecycle s) (hmode : s.mode = .trying) (o : HsOut) :
    Lifecycle (s.handshook o) :=
  ⟨fun _ _ h => (by cases h), fun h => absurd (hmode.symm.trans h) (by decide), hs.up, hs.early,
    hs.disabled, hs.opens, hs.idle, hs.failed⟩

/-- TLS 1.3 was not given up before. -/
theorem Lifecycle.not_disabled (hs : Lifecycle s) (hmode : s.mode = .trying) :
    s.disabled = false := by
  by_contra h
  have hoff := hs.disabled (by simpa using h)
  rw [hmode] at hoff
  cases hoff

theorem Lifecycle.fellBack (hs : Lifecycle s) (hst : s.state = .handshaking)
    (hmode : s.mode = .trying) : Lifecycle s.fellBack where
  context _ h := absurd rfl h
  opened h := by cases h
  up h := by
    rw [s.fellBack_state, hst] at h
    cases h
  early _ := rfl
  disabled _ := rfl
  opens := by
    have hopens := hs.opens
    rw [hs.not_disabled hmode] at hopens
    rw [s.fellBack_opens]
    exact Nat.le_succ_of_le hopens
  idle h := by
    rw [s.fellBack_state, hst] at h
    cases h
  failed := by
    rw [s.fellBack_state, s.fellBack_osErr]
    exact hs.failed

theorem Lifecycle.asks (hs : Lifecycle s) (hoff : s.mode = .off) (hst : s.state ≠ .failed)
    (hroom : s.history.opens < if s.disabled = true then 2 else 1) : Lifecycle s.opens where
  context _ h := absurd hoff h
  opened h := by cases hoff.symm.trans h
  up h := by cases h
  early _ := hoff
  disabled _ := hoff
  opens := hroom
  idle h := by cases h
  failed := ⟨fun h => (by cases h), fun h => absurd (hs.failed.2 h) hst⟩

theorem Lifecycle.effect (h : Effect C π s s') (hs : Lifecycle s) : Lifecycle s' := by
  obtain ⟨hcontext, hopened, hup, hearly, hdisabled, hopens, hidle, hfailed⟩ := id hs
  -- the context is replaced by one that is no less complete
  have hreplace : ∀ {hs hs' : HsCtx}, s.hs13 = some hs →
      (hs.state = .complete ∧ hs.msgLen ≤ hs.msgOffset →
        hs'.state = .complete ∧ hs'.msgLen ≤ hs'.msgOffset) →
      s.mode = .open → s.handshakeDone = true ∧
        ∀ h, some hs' = some h → h.state = .complete ∧ h.msgLen ≤ h.msgOffset := by
    intro hs hs' h13 hkeep hopen
    obtain ⟨hdone, hall⟩ := hopened hopen
    refine ⟨hdone, ?_⟩
    rintro _ ⟨⟩
    exact hkeep (hall hs h13)
  cases h
  -- what only moves bytes
  case untold | peerCloses | received | sentRecord | recordDone | tls12Data | delivered | dataStaged |
      closeNoted | wrote | read | adopted | bound =>
    exact ⟨hcontext, hopened, hup, hearly, hdisabled, hopens, hidle, hfailed⟩
  case sentHandshake h13 hlt =>
    refine ⟨fun _ _ h => (by cases h), hreplace h13 (fun h => ⟨h.1, ?_⟩), hup, hearly, hdisabled,
      hopens, hidle, hfailed⟩
    exact absurd h.2 (Nat.not_le.2 hlt)
  case recordTaken h13 _ hframe =>
    refine ⟨fun _ _ h => (by cases h), hreplace h13 (fun h => ?_), hup, hearly, hdisabled, hopens,
      hidle, hfailed⟩
    rw [hframe]
    exact h
  case built h13 _ =>
    exact ⟨fun _ _ h => (by cases h), hreplace h13 id, hup, hearly, hdisabled, hopens, hidle,
      hfailed⟩
  case handshook h _ _ =>
    obtain ⟨hcontext, hopened, -⟩ := hs.handshook h.mode _
    exact ⟨hcontext, hopened, hup, hearly, hdisabled, hopens, hidle, hfailed⟩
  -- what ends in a failure
  case failed _ herr => exact hs.fail herr
  case handshakeFailed h _ herr => exact (hs.handshook h.mode _).fail herr
  case noFallback h _ herr =>
    exact ((hs.handshook h.mode _).fellBack h.state h.mode).fail herr
  case notOpened herr =>
    exact Lifecycle.fail (s := { s with arrived := false })
      ⟨hcontext, hopened, hup, hearly, hdisabled, hopens, hidle, hfailed⟩ herr
  case setupFailed herr =>
    exact Lifecycle.fail (s := { s with phase := .done })
      ⟨hcontext, hopened, hup, hearly, hdisabled, hopens, hidle, hfailed⟩ herr
  case started hst _ =>
    obtain ⟨hnone, hdis⟩ := hidle hst
    refine hs.asks (hearly (.inl hst)) (by rw [hst]; decide) ?_
    rw [hnone, hdis]
    exact Nat.zero_lt_one
  case fallback o h _ _ =>
    -- this is the second endpoint
    refine ((hs.handshook h.mode o).fellBack h.state h.mode).asks rfl ?_ ?_
    · rw [Link.fellBack_state, show (s.handshook o).state = .handshaking from h.state]
      decide
    · rw [hs.not_disabled h.mode] at hopens
      rw [Link.fellBack_opens]
      exact Nat.lt_succ_of_le hopens
  case handshakeDone h _ _ _ =>
    obtain ⟨hst, hmode, -⟩ := h
    clear hreplace
    constructor <;> grind -ring -linarith [Link.handshook, Link.opened, OstlsState.isUp]
  all_goals
    clear hreplace
    constructor <;> grind -ring -linarith [Link.connected, Link.release, OstlsState.isUp]

theorem Lifecycle.dispose (hs : Lifecycle s) : Lifecycle s.dispose := by
  unfold Link.dispose
  split_ifs
  · exact hs
  · obtain ⟨hcontext, hopened, hup, hearly, hdisabled, hopens, hidle, hfailed⟩ := hs
    constructor <;> grind -ring -linarith

theorem Lifecycle.notified (hs : Lifecycle s) (event : OtEvent) : Lifecycle (s.notified event) := by
  cases event with
  | openComplete cookie =>
    obtain ⟨hcontext, hopened, hup, hearly, hdisabled, hopens, hidle, hfailed⟩ := hs
    exact ⟨hcontext, hopened, hup, hearly, hdisabled, hopens, hidle, hfailed⟩
  | _ => exact hs

/-- What every effect keeps of a connection in order, every run keeps. -/
theorem Lifecycle.keeps {ok : Proc E → Action → Prop} {Q : Link → Prop} {p₀ p : Proc E}
    (h : Reach (Proc.step C G) ok p₀ p) (h₀ : Lifecycle p₀.conn.link) (hQ : Q p₀.conn.link)
    (hmeets : ∀ p a, ok p a → π.Meets C G p.conn a)
    (heffect : ∀ {s s'}, Lifecycle s → Q s → Effect C π s s' → Q s')
    (hdispose : ∀ {s}, Q s → Q s.dispose) (hnotify : ∀ {s} event, Q s → Q (s.notified event)) :
    Lifecycle p.conn.link ∧ Q p.conn.link :=
  link_invariant (P := fun s => Lifecycle s ∧ Q s) h ⟨h₀, hQ⟩ (fun p a _ => hmeets p a)
    (fun _ hs he => ⟨hs.1.effect he, heffect hs.1 hs.2 he⟩)
    (fun _ _ hs => ⟨hs.1.dispose, hdispose hs.2⟩)
    fun _ event _ _ hs => ⟨hs.1.notified event, hnotify event hs.2⟩

theorem Lifecycle.reach {ok : Proc E → Action → Prop} {p₀ p : Proc E}
    (h : Reach (Proc.step C G) ok p₀ p) (h₀ : Lifecycle p₀.conn.link) : Lifecycle p.conn.link :=
  (Lifecycle.keeps (Q := fun _ => True) h h₀ trivial (fun p a _ => Policy.any_meets C G p.conn a)
    (fun _ _ _ => trivial) (fun _ => trivial) fun _ _ => trivial).1

/-! ### What stays -/

/-- A connection that failed stays failed, with its first code. -/
theorem Effect.failed_stays (h : Effect C π s s') (hs : Lifecycle s) (hst : s.state = .failed) :
    s'.state = .failed ∧ s'.osErr = s.osErr := by
  have herr := hs.failed.1 hst
  have hup : s.state.isUp ≠ true := by rw [hst]; decide
  cases h
  case failed | notOpened | setupFailed => exact ⟨rfl, if_neg herr⟩
  all_goals grind -ring -linarith [Link.Carried, Link.Live, Link.Flowing, Handshakes]

theorem Effect.closed_kept (h : Effect C π s s') (hst : s.state = .closed) :
    s'.state = .closed := by
  have hup : s.state.isUp ≠ true := by rw [hst]; decide
  cases h
  all_goals grind -ring -linarith [Link.Carried, Link.Live, Link.Flowing, Handshakes]

/-- TLS 1.3 is given up for good, and no endpoint is asked for after that. -/
theorem Effect.disabled_stays (h : Effect C π s s') (hs : Lifecycle s) (hdis : s.disabled = true) :
    s'.disabled = true ∧ s'.history.opens = s.history.opens := by
  have hoff := hs.disabled hdis
  have hidle := hs.idle
  cases h
  case noFallback => exact ⟨rfl, by simp [Link.fail, Link.handshook]⟩
  case fallback h _ _ => exact absurd hoff (by rw [h.mode]; decide)
  case started hst _ => exact absurd hdis (by rw [(hidle hst).2]; decide)
  case released =>
    refine ⟨hdis, ?_⟩
    unfold Link.release
    dsimp only
    split_ifs <;> rfl
  all_goals exact ⟨hdis, rfl⟩

section

variable {ok : Proc E → Action → Prop} {p₀ p : Proc E}

theorem failed_stays_of_reach (h : Reach (Proc.step C G) ok p₀ p) (h₀ : Lifecycle p₀.conn.link)
    (hst : p₀.conn.state = .failed) : p.conn.state = .failed ∧ p.conn.osErr = p₀.conn.osErr := by
  refine (Lifecycle.keeps (Q := fun s => s.state = .failed ∧ s.osErr = p₀.conn.osErr) h h₀
    ⟨hst, rfl⟩ (fun p a _ => Policy.any_meets C G p.conn a) ?_ (by simp) (by simp)).2
  intro s s' hs hQ he
  obtain ⟨hst', herr⟩ := he.failed_stays hs hQ.1
  exact ⟨hst', herr.trans hQ.2⟩

theorem closed_stays_of_reach (h : Reach (Proc.step C G) ok p₀ p) (h₀ : Lifecycle p₀.conn.link)
    (hst : p₀.conn.state = .closed) : p.conn.state = .closed :=
  (Lifecycle.keeps (Q := fun s => s.state = .closed) h h₀ hst
    (fun p a _ => Policy.any_meets C G p.conn a) (fun _ hQ he => he.closed_kept hQ) (by simp)
    (by simp)).2

theorem disabled_stays_of_reach (h : Reach (Proc.step C G) ok p₀ p) (h₀ : Lifecycle p₀.conn.link)
    (hdis : p₀.conn.tls13Disabled = true) :
    p.conn.tls13Disabled = true ∧ p.conn.history.opens = p₀.conn.history.opens := by
  refine (Lifecycle.keeps
    (Q := fun s => s.disabled = true ∧ s.history.opens = p₀.conn.history.opens) h h₀
    ⟨hdis, rfl⟩ (fun p a _ => Policy.any_meets C G p.conn a) ?_ (by simp) (by simp)).2
  intro s s' hs hQ he
  obtain ⟨hdis', hopens⟩ := he.disabled_stays hs hQ.1
  exact ⟨hdis', hopens.trans hQ.2⟩

end

/-- **The life of a connection.**  In every reached state the fields of a connection agree with its
state, and a failure, a close and the fallback are final. -/
theorem lifecycle {ok : Proc E → Action → Prop} {config : OstlsConfig} {tickets : TicketCache}
    {sessions : SessCache} {log : List ResumeEvent} {p : Proc E}
    (h : Reach (Proc.step C G) ok (Proc.start G config tickets sessions log) p)
    (hdis : p.conn.disposed = false) :
    (p.conn.tls13Mode ≠ .off → p.conn.hs13 ≠ none) ∧
      (p.conn.tls13Mode = .open → p.conn.handshakeDone = true ∧
        ∃ hs, p.conn.hs13 = some hs ∧ hs.state = .complete ∧ hs.msgOffset ≥ hs.msgLen) ∧
      (p.conn.state = .open ∨ p.conn.state = .closing → p.conn.handshakeDone = true) ∧
      (p.conn.tls13Disabled = true → p.conn.tls13Mode = .off) ∧
      p.conn.history.opens ≤ 2 ∧
      (p.conn.state = .failed → p.conn.osErr ≠ asyncOk) ∧
      ∀ p', Reach (Proc.step C G) ok p p' →
        (p.conn.tls13Disabled = true → p'.conn.tls13Disabled = true ∧ p'.conn.tls13Mode = .off ∧
          p'.conn.history.opens = p.conn.history.opens) ∧
        (p.conn.state = .failed → p'.conn.state = .failed ∧ p'.conn.osErr = p.conn.osErr) ∧
        (p.conn.state = .closed → p'.conn.state = .closed) := by
  have hp : Lifecycle p.conn.link := Lifecycle.reach h (lifecycle_init G config)
  have hcontext : p.conn.tls13Mode ≠ .off → p.conn.hs13 ≠ none := hp.context hdis
  refine ⟨hcontext, fun hmode => ?_, fun hst => ?_, hp.disabled, ?_, hp.failed.1, fun p' h' => ?_⟩
  · obtain ⟨hdone, hsent⟩ := hp.opened hmode
    obtain ⟨hs, h13⟩ := Option.ne_none_iff_exists'.1 (hcontext (by rw [hmode]; decide))
    exact ⟨hdone, hs, h13, hsent hs h13⟩
  · obtain hst | hst := hst
    · exact hp.up (show p.conn.state.isUp = true by rw [hst]; rfl)
    · exact hp.up (show p.conn.state.isUp = true by rw [hst]; rfl)
  · exact Nat.le_trans hp.opens (by split_ifs <;> decide)
  · have hp' : Lifecycle p'.conn.link := Lifecycle.reach h' hp
    refine ⟨fun hgiven => ?_, failed_stays_of_reach h' hp, closed_stays_of_reach h' hp⟩
    obtain ⟨hgiven', hopens⟩ := disabled_stays_of_reach h' hp hgiven
    exact ⟨hgiven', hp'.disabled hgiven', hopens⟩

/-! ### Runs to look at -/

/-- An engine that always waits for a record. -/
def waitingEngine : Engine Unit where
  init := ()
  currentState _ := ⟨false, false, true, false, false⟩
  lastError _ := 0
  recvrecLen _ := 5
  recvrecAck _ _ := ()
  sendrecBuf _ := []
  sendrecAck _ _ := ()
  recvappBuf _ := []
  recvappAck _ _ := ()
  sendappLen _ := 0
  sendappAck _ _ := ()
  flush _ := ()
  close _ := ()
  session _ := ⟨[], 0, 0, []⟩
  setSession _ _ := ()
  reset _ _ _ := (true, ())

/-- A connection to the host `[1]`, when the caches are empty. -/
def freshProc : Proc Unit :=
  .start waitingEngine ⟨[1], 443, [1], 0, 0⟩ .reset [] []

/-- All calls succeed, and no bytes come or go. -/
def idleEnv : PumpEnv where
  ticks := 0
  timeOk := true
  entropyOk := true
  allocOk := true
  tryTls13 := true
  cfgOk := true
  openErr := kOTNoError
  bindErr := kOTNoError
  dnsLen := 1
  connectErr := kOTNoDataErr
  rcvConnectErr := kOTNoError
  sendHs := ⟨.dataxfer, .flowErr⟩
  sendApp := ⟨.dataxfer, .flowErr⟩
  recv := ⟨.dataxfer, .noDataErr⟩
  rnd := .zero

def startOk : StartEnv := ⟨0, true, true, kOTNoError⟩

/-- Connect until TLS starts. -/
def connects (env : PumpEnv) : List (Proc Unit → Action) :=
  [.start startOk, .notify (.openComplete (some 7)) kOTNoError, .turn env, .turn env,
    .notify .bindComplete kOTNoError, .turn env, .turn env, .notify .connect kOTNoError,
    .turn env].map fun a _ => a

def startsTls13 : List (Proc Unit → Action) := connects idleEnv

/-- A script of lawful actions is a run. -/
theorem reach_script (script : List (Proc Unit → Action))
    (h : Admissible (Proc.step .transparent waitingEngine) OtLawful freshProc script) :
    Reach (Proc.step .transparent waitingEngine) OtLawful freshProc
      (play (Proc.step .transparent waitingEngine) freshProc script) := reach_play h

theorem lifecycle_handshaking :
    (play (Proc.step .transparent waitingEngine) freshProc startsTls13).conn.state = .handshaking ∧
      (play (Proc.step .transparent waitingEngine) freshProc startsTls13).conn.hs13 ≠ none := by
  have h := lifecycle (reach_script startsTls13 (by decide +kernel)) (by decide +kernel)
  exact ⟨by decide +kernel, h.1 (by decide +kernel)⟩

/-! ### OSTLS_Close takes effect -/

/-- A connection that was closed is not in use. -/
def Link.Withdrawn (s : Link) : Prop :=
  s.closeRequested = true → s.state ≠ .connecting ∧ s.state ≠ .handshaking ∧ s.state ≠ .open

theorem Effect.withdrawn (h : Effect C π s s') (hπ : π.unclosed) (hs : s.Withdrawn) :
    s'.Withdrawn := by
  unfold Link.Withdrawn at hs ⊢
  cases h
  case started hst hu =>
    intro hreq
    rw [show s.opens.closeRequested = s.closeRequested from rfl, hu hπ] at hreq
    cases hreq
  all_goals
    grind -ring -linarith [Link.fail, Link.opens, Link.connected, Link.release, Link.sends,
      Link.built, Link.handshook, Link.opened, Handshakes]

theorem withdrawn_of_reach {p₀ p : Proc E}
    (h : Reach (Proc.step C G) (fun p a => ¬StartsClosed p.conn a) p₀ p)
    (h₀ : p₀.conn.link.Withdrawn) : p.conn.link.Withdrawn := by
  have hmeets : ∀ (p : Proc E) a, ¬StartsClosed p.conn a →
      Policy.Meets C G ⟨False, True, False⟩ p.conn a :=
    fun p a hok => ⟨fun h => h.elim, fun _ => hok, fun h => h.elim⟩
  refine link_invariant (π := ⟨False, True, False⟩) h h₀ (fun p a _ => hmeets p a)
    (fun _ hs he => he.withdrawn trivial hs) ?_ ?_
  · intro p _ hs
    simpa [Link.Withdrawn] using hs
  · intro p event _ _ hs
    simpa [Link.Withdrawn] using hs

/-- Once `OSTLS_Close` was called, the request stays. -/
theorem closeRequested_of_reach {ok : Proc E → Action → Prop} {p₀ p : Proc E}
    (h : Reach (Proc.step C G) ok p₀ p) (h₀ : p₀.conn.closeRequested = true) :
    p.conn.closeRequested = true := by
  refine link_invariant (P := fun s => s.closeRequested = true) h h₀
    (fun p a _ _ => Policy.any_meets C G p.conn a) ?_ ?_ ?_
  · intro s s' _ hreq he
    cases he
    all_goals first | rfl | exact hreq | simpa [Link.fail, Link.opens, Link.handshook] using hreq
  · intro p _ hreq
    simpa using hreq
  · intro p event _ _ hreq
    simpa using hreq

/-- **`OSTLS_Close` takes effect.**  In a run in which no connection that was closed while idle is
started, a connection that was closed is not seen connecting, handshaking or open again, and accepts
no writes. -/
theorem closed_stays {config : OstlsConfig} {tickets : TicketCache} {sessions : SessCache}
    {log : List ResumeEvent} {p p' : Proc E}
    (h : Reach (Proc.step C G) (fun p a => ¬StartsClosed p.conn a)
      (Proc.start G config tickets sessions log) p)
    (hdis : p.conn.disposed = false)
    (h' : Reach (Proc.step C G) (fun p a => ¬StartsClosed p.conn a) (p.step C G .close) p') :
    p'.conn.state ≠ .connecting ∧ p'.conn.state ≠ .handshaking ∧ p'.conn.state ≠ .open ∧
      ∀ buf, (ostlsWrite p'.conn buf).1 ≠ asyncOk ∧ (ostlsWrite p'.conn buf).2.1 = 0 := by
  have hstart : (Conn.init G config).link.Withdrawn := fun h => by cases h
  have hreq : (p.step C G .close).conn.closeRequested = true := by
    show (ostlsClose G p.conn).closeRequested = true
    unfold ostlsClose closeUp releaseTls13
    grind -ring -linarith
  have hwith := withdrawn_of_reach ((h.tail (show ¬StartsClosed p.conn .close from id)).trans h')
    hstart
  obtain ⟨hconn, hhs, hopen⟩ := hwith (closeRequested_of_reach h' hreq)
  have hopen : p'.conn.state ≠ .open := hopen
  refine ⟨hconn, hhs, hopen, fun buf => ?_⟩
  unfold ostlsWrite
  rw [if_pos hopen]
  split_ifs
  · exact ⟨show asyncDisposed ≠ asyncOk by decide, rfl⟩
  · exact ⟨show asyncWrongState ≠ asyncOk by decide, rfl⟩

theorem closed_stays_handshaking :
    let p := play (Proc.step .transparent waitingEngine) freshProc startsTls13
    p.conn.state = .handshaking ∧
      (p.step .transparent waitingEngine .close).conn.state = .failed ∧
      ∀ buf, (ostlsWrite (p.step .transparent waitingEngine .close).conn buf).2.1 = 0 := by
  refine ⟨by decide +kernel, by decide +kernel, fun buf => ?_⟩
  have hreach : Reach (Proc.step .transparent waitingEngine) (fun p a => ¬StartsClosed p.conn a)
      freshProc (play (Proc.step .transparent waitingEngine) freshProc startsTls13) :=
    reach_play (by decide +kernel)
  exact ((closed_stays hreach (by decide +kernel) .refl).2.2.2 buf).2

/-- A connection that was closed while idle can still be started. -/
theorem starts_after_close :
    ∃ p p' : Proc Unit, Reach (Proc.step .transparent waitingEngine) OtLawful freshProc p ∧
      p.conn.disposed = false ∧
      Reach (Proc.step .transparent waitingEngine) OtLawful
        (p.step .transparent waitingEngine .close) p' ∧
      p'.conn.state = .connecting := by
  refine ⟨freshProc, _, .refl, rfl, .tail .refl (show OtLawful _ (.start startOk) from trivial), ?_⟩
  decide +kernel

end MacTLS
