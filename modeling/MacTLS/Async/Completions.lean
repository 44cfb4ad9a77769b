import Mathlib.Logic.Function.Basic
import MacTLS.Async.Ending

/-!
# Completions and their results

The notifier stores the result of every event in `nf_last_result`, and a connect step looks there for
the result of the completion it waited for.

* `Watched` : a connection with the result that came with each completion, and the turns of its pump;
* `Judged` : what is claimed of a turn, `Agreed` : the condition for it;
* `judged_iff_agreed` : a turn judges a completion by its own result exactly when the last event
  agrees with it, and a disconnect fails a connecting connection with another code in any case;
* `misjudged` : a failed bind passes for a good one.
-/

namespace MacTLS

open Lib

variable {E : Type} {C : Crypto} {G : Engine E}

/-! ### Watched connections -/

/-- The completions that the connect phase waits for. -/
inductive Completion where
  | opened
  | bound
  | connected
  deriving DecidableEq

/-- The phase that waits for a completion. -/
def Completion.phase : Completion → ConnectPhase
  | .opened => .openInFlight
  | .bound => .bindInFlight
  | .connected => .connectInFlight

/-- The code of a failure over a completion. -/
def Completion.failCode : Completion → ℕ
  | .opened => asyncOtOpenFail
  | .bound => asyncOtBindFail
  | .connected => asyncOtConnectFail

def OtEvent.completion : OtEvent → Option Completion
  | .openComplete _ => some .opened
  | .bindComplete => some .bound
  | .connect => some .connected
  | _ => none

/-- The flag that the notifier sets on a completion. -/
def Conn.noted (conn : Conn E) : Completion → Bool
  | .opened => conn.nfOpenComplete
  | .bound => conn.nfBindComplete
  | .connected => conn.nfConnectComplete

/-- A turn of the pump, with the results that the completions before it came with. -/
structure WatchedTurn (E : Type) where
  own : Completion → ℤ
  before : Conn E
  env : PumpEnv
  after : Conn E

/-- A connection, the result of the last completion of each kind, and the turns of the pump so
far. -/
structure Watched (E : Type) where
  proc : Proc E
  own : Completion → ℤ
  turns : List (WatchedTurn E)

/-- The machine of a connection, watched. -/
def Watched.step (C : Crypto) (G : Engine E) (s : Watched E) (a : Action) : Watched E :=
  let proc := s.proc.step C G a
  match a with
  | .notify event result => { s with
      proc
      own := match event.completion with
        | some c => Function.update s.own c result
        | none => s.own }
  | .turn env => { s with proc, turns := s.turns ++ [⟨s.own, s.proc.conn, env, proc.conn⟩] }
  | _ => { s with proc }

def Watched.start (p : Proc E) : Watched E := ⟨p, fun _ => kOTNoError, []⟩

/-! ### Turns -/

/-- The connection waits for a completion. -/
def Conn.Waits (conn : Conn E) (c : Completion) : Prop :=
  conn.disposed = false ∧ conn.state = .connecting ∧ conn.connectPhase = c.phase

/-- The connect phase has taken too long. -/
def ConnectExpired (conn : Conn E) (env : PumpEnv) : Prop :=
  elapsed32 env.ticks conn.startTicks > conn.connectTimeoutTicks

/-- Besides the result, something else makes a completion a failure. -/
def Amiss (conn : Conn E) (env : PumpEnv) : Completion → Prop
  | .opened => conn.ep = none
  | .bound => False
  | .connected => env.rcvConnectErr ≠ kOTNoError

/-- The turn comes down to the result of a completion. -/
structure Decides (conn : Conn E) (env : PumpEnv) (c : Completion) : Prop where
  waits : conn.Waits c
  noted : conn.noted c = true
  inTime : ¬ConnectExpired conn env
  connected : conn.nfDisconnect = false
  fine : ¬Amiss conn env c

/-- A turn judges completions by their own results, and a disconnect as a failure to connect. -/
structure Judged (t : WatchedTurn E) : Prop where
  advances : ∀ c, t.before.Waits c → t.after.connectPhase ≠ c.phase → t.own c = kOTNoError
  refuses : ∀ c, Decides t.before t.env c → t.after.state = .failed → t.after.osErr = c.failCode →
    t.own c ≠ kOTNoError
  disconnects : t.before.disposed = false → t.before.state = .connecting →
    t.before.disconnectDue = true → t.after.state = .failed ∧ t.after.osErr = asyncOtConnectFail

/-- No disconnect is due, and the last event has the result of the completion that is looked at. -/
structure Agreed (t : WatchedTurn E) : Prop where
  noDisconnect : t.before.disposed = false → t.before.state = .connecting →
    t.before.disconnectDue = false
  agrees : ∀ c, Decides t.before t.env c →
    (t.before.nfLastResult = kOTNoError ↔ t.own c = kOTNoError)

/-! ### The connect step -/

/-- What a connect step makes of a completion. -/
inductive Settles (conn : Conn E) (env : PumpEnv) (c : Completion) (conn' : Conn E) : Prop
  | early (h : ¬(conn.noted c = true ∧ ¬ConnectExpired conn env ∧ conn.nfDisconnect = false))
      (hph : conn'.connectPhase = c.phase)
  | amiss (h : Amiss conn env c) (hph : conn'.connectPhase = c.phase)
  | refused (hd : Decides conn env c) (hres : conn.nfLastResult ≠ kOTNoError)
      (hph : conn'.connectPhase = c.phase) (hst : conn'.state = .failed)
      (herr : conn'.osErr = c.failCode)
  | advanced (hd : Decides conn env c) (hres : conn.nfLastResult = kOTNoError)
      (hph : conn'.connectPhase ≠ c.phase)
      (hfine : conn'.state = .failed → conn'.osErr ≠ c.failCode)

theorem connectPhase_ostlsSetupBearssl (p : Proc E) (env : PumpEnv) :
    (ostlsSetupBearssl G p env).1.conn.connectPhase = p.conn.connectPhase := by
  have harm : ∀ q : Proc E, (armTls13 q env).conn.connectPhase = q.conn.connectPhase := by
    intro q
    unfold armTls13
    dsimp only
    split <;> rfl
  have hoffer : ∀ q : Proc E, (offerSession G q).1.conn.connectPhase = q.conn.connectPhase := by
    intro q
    unfold offerSession
    split <;> rfl
  unfold ostlsSetupBearssl
  split_ifs
  · rfl
  · rfl
  · dsimp only
    split
    · exact harm _
    · split <;> exact hoffer _

/-- `ostls_fail` in a connect step. -/
theorem connectFail_spec {p : Proc E} (hst : p.conn.state = .connecting)
    (hl : p.conn.osErr = asyncOk) (e : ℕ) (otErr : ℤ) :
    (connectFail p e otErr).proc.conn.state = .failed ∧
      (connectFail p e otErr).proc.conn.osErr = e ∧
      (connectFail p e otErr).proc.conn.connectPhase = p.conn.connectPhase := by
  refine ⟨?_, if_pos hl, rfl⟩
  show (if p.conn.state = .failed ∨ p.conn.state = .closed then p.conn.state else .failed) = _
  rw [hst]
  rfl

/-- A failure to set up TLS is not one to connect. -/
theorem osErr_ostlsSetupBearssl {p : Proc E} (hl : p.conn.osErr = asyncOk) (env : PumpEnv) :
    (ostlsSetupBearssl G p env).1.conn.osErr ≠ asyncOtConnectFail := by
  have hok : ∀ {q : Proc E}, q.conn.osErr = p.conn.osErr → q.conn.osErr ≠ asyncOtConnectFail := by
    intro q h
    rw [h, hl]
    decide
  have hfail : ∀ {q : Proc E} {e : ℕ} {otErr brErr : ℤ}, q.conn.osErr = p.conn.osErr →
      e ≠ asyncOtConnectFail →
      (q.onConn (ostlsFail · e otErr brErr)).conn.osErr ≠ asyncOtConnectFail := by
    intro q e otErr brErr h he
    have herr : (q.onConn (ostlsFail · e otErr brErr)).conn.osErr = e := if_pos (h.trans hl)
    rw [herr]
    exact he
  have harm : ∀ q : Proc E, (armTls13 q env).conn.osErr = q.conn.osErr := by
    intro q
    unfold armTls13
    dsimp only
    split <;> rfl
  have hoffer : ∀ q : Proc E, (offerSession G q).1.conn.osErr = q.conn.osErr := by
    intro q
    unfold offerSession
    split <;> rfl
  unfold ostlsSetupBearssl
  split_ifs
  · exact hfail rfl (by decide)
  · exact hfail rfl (by decide)
  · dsimp only
    split
    · exact hok (harm _)
    · split
      · exact hok (hoffer _)
      · exact hfail (hoffer _) (by decide)

theorem settles_pumpConnectStep {p : Proc E} {c : Completion} (hw : p.conn.Waits c)
    (hl : p.conn.osErr = asyncOk) (env : PumpEnv) :
    Settles p.conn env c (pumpConnectStep G p env).proc.conn := by
  obtain ⟨hdis, hst, hph⟩ := id hw
  have hfail : ∀ {q : Proc E} {e : ℕ} {otErr : ℤ}, q.conn.connectPhase = p.conn.connectPhase →
      (connectFail q e otErr).proc.conn.connectPhase = c.phase := fun h => h.trans hph
  unfold pumpConnectStep
  by_cases hexp : elapsed32 env.ticks p.conn.startTicks > p.conn.connectTimeoutTicks
  · rw [if_pos hexp]
    exact .early (fun h => h.2.1 hexp) (hfail rfl)
  rw [if_neg hexp]
  by_cases hdisc : p.conn.nfDisconnect = true
  · rw [if_pos hdisc]
    exact .early (fun h => by rw [hdisc] at h; cases h.2.2) (hfail rfl)
  rw [if_neg hdisc]
  have hdisc : p.conn.nfDisconnect = false := by simpa using hdisc
  have hdecides : p.conn.noted c = true → ¬Amiss p.conn env c → Decides p.conn env c :=
    fun hnoted hfine => ⟨hw, hnoted, hexp, hdisc, hfine⟩
  -- the result stored last is an error
  have hrefuse : ∀ {q : Proc E} {otErr : ℤ}, p.conn.noted c = true →
      p.conn.nfLastResult ≠ kOTNoError → q.conn.state = p.conn.state →
      q.conn.osErr = p.conn.osErr → q.conn.connectPhase = p.conn.connectPhase →
      Settles p.conn env c (connectFail q c.failCode otErr).proc.conn := by
    intro q otErr hnoted hres hq hq' hq''
    obtain ⟨h1, h2, h3⟩ := connectFail_spec (hq.trans hst) (hq'.trans hl) c.failCode otErr
    by_cases hfine : Amiss p.conn env c
    · exact .amiss hfine (h3.trans (hq''.trans hph))
    · exact .refused (hdecides hnoted hfine) hres (h3.trans (hq''.trans hph)) h1 h2
  rw [hph]
  cases c with
  | opened =>
    show Settles p.conn env .opened (connectOpened p).proc.conn
    unfold connectOpened
    by_cases hnoted : p.conn.nfOpenComplete = true
    · rw [if_neg (by simp [hnoted])]
      dsimp only
      by_cases hres : p.conn.nfLastResult = kOTNoError
      · rw [if_neg (not_not.2 (by exact hres))]
        by_cases hep : p.conn.ep = none
        · rw [if_pos (by exact hep)]
          exact .amiss hep (hfail rfl)
        · rw [if_neg (by exact hep)]
          exact .advanced (hdecides hnoted hep) hres (by simp [connectNext, Completion.phase, Proc.onConn])
            fun h => by cases h.symm.trans hst
      · rw [if_pos (by exact hres)]
        exact hrefuse hnoted hres rfl rfl rfl
    · rw [if_pos (by simpa using hnoted)]
      exact .early (fun h => hnoted h.1) hph
  | bound =>
    dsimp only [Completion.phase]
    by_cases hnoted : p.conn.nfBindComplete = true
    · rw [if_neg (by simp [hnoted])]
      by_cases hres : p.conn.nfLastResult = kOTNoError
      · rw [if_neg (not_not.2 (by exact hres))]
        exact .advanced (hdecides hnoted id) hres (by simp [connectNext, Completion.phase, Proc.onConn])
          fun h => by cases h.symm.trans hst
      · rw [if_pos (by exact hres)]
        exact hrefuse hnoted hres rfl rfl rfl
    · rw [if_pos (by simpa using hnoted)]
      exact .early (fun h => hnoted h.1) hph
  | connected =>
    show Settles p.conn env .connected (connectDone G p env).proc.conn
    unfold connectDone
    by_cases hnoted : p.conn.nfConnectComplete = true
    · rw [if_neg (by simp [hnoted])]
      dsimp only
      by_cases hres : p.conn.nfLastResult = kOTNoError
      · rw [if_neg (not_not.2 (by exact hres))]
        by_cases hrcv : env.rcvConnectErr = kOTNoError
        · rw [if_neg (not_not.2 hrcv)]
          generalize hq : ((p.onConn fun conn => { conn with nfConnectComplete := false }).onConn
            fun conn => { conn with connectPhase := .done, state := .handshaking }) = q
          have hdone : q.conn.connectPhase = .done ∧ q.conn.osErr = asyncOk := by
            rw [← hq]
            exact ⟨rfl, hl⟩
          have hphase := connectPhase_ostlsSetupBearssl (G := G) q env
          have herr := osErr_ostlsSetupBearssl (G := G) hdone.2 env
          generalize ostlsSetupBearssl G q env = r at hphase herr ⊢
          obtain ⟨q', ok⟩ := r
          have hset : Settles p.conn env .connected q'.conn :=
            .advanced (hdecides hnoted (not_not.2 hrcv)) hres
              (by rw [hphase, hdone.1]; decide) fun _ => herr
          cases ok <;> exact hset
        · rw [if_pos hrcv]
          exact .amiss hrcv (hfail rfl)
      · rw [if_pos (by exact hres)]
        exact hrefuse hnoted hres rfl rfl rfl
    · rw [if_pos (by simpa using hnoted)]
      exact .early (fun h => hnoted h.1) hph

/-! ### Turns and runs -/

/-- The event that is reported does not matter. -/
theorem Settles.bump {conn conn' : Conn E} {env : PumpEnv} {c : Completion}
    (h : Settles conn env c conn') (e : OstlsEvent) : Settles conn env c (eventBump conn' e) := by
  obtain ⟨bestEvent, hbump⟩ := eventBump_frame conn' e
  rw [hbump]
  cases h with
  | early h hph => exact .early h hph
  | amiss h hph => exact .amiss h hph
  | refused hd hres hph hst herr => exact .refused hd hres hph hst herr
  | advanced hd hres hph hfine => exact .advanced hd hres hph hfine

/-- A connection that is not connecting settles nothing. -/
theorem judged_agreed_of_not_connecting {t : WatchedTurn E}
    (h : ¬(t.before.disposed = false ∧ t.before.state = .connecting)) : Judged t ∧ Agreed t :=
  ⟨⟨fun _ hw => absurd ⟨hw.1, hw.2.1⟩ h, fun _ hd => absurd ⟨hd.waits.1, hd.waits.2.1⟩ h,
      fun hdis hst => absurd ⟨hdis, hst⟩ h⟩,
    ⟨fun hdis hst => absurd ⟨hdis, hst⟩ h, fun _ hd => absurd ⟨hd.waits.1, hd.waits.2.1⟩ h⟩⟩

theorem Completion.phase_inj {c c' : Completion} (h : c.phase = c'.phase) : c = c' := by
  cases c <;> cases c' <;> first | rfl | cases h

/-- A connect step judges a completion by its own result exactly when the last one agrees. -/
theorem Settles.judged_iff {t : WatchedTurn E}
    (hdue : t.before.disconnectDue = false)
    (h : ∀ c, t.before.Waits c → Settles t.before t.env c t.after) : Judged t ↔ Agreed t := by
  constructor
  · intro hj
    refine ⟨fun _ _ => hdue, fun c hd => ?_⟩
    cases h c hd.waits with
    | early hnot => exact absurd ⟨hd.noted, hd.inTime, hd.connected⟩ hnot
    | amiss hbad => exact absurd hbad hd.fine
    | refused _ hres _ hst herr => exact iff_of_false hres (hj.refuses c hd hst herr)
    | advanced _ hres hph => exact iff_of_true hres (hj.advances c hd.waits hph)
  · intro ha
    refine ⟨fun c hw hph => ?_, fun c hd hst herr => ?_, fun _ _ h => ?_⟩
    · cases h c hw with
      | early _ hph' | amiss _ hph' | refused _ _ hph' => exact absurd hph' hph
      | advanced hd hres => exact (ha.agrees c hd).1 hres
    · cases h c hd.waits with
      | early hnot => exact absurd ⟨hd.noted, hd.inTime, hd.connected⟩ hnot
      | amiss hbad => exact absurd hbad hd.fine
      | refused _ hres => exact fun hown => hres ((ha.agrees c hd).2 hown)
      | advanced _ _ _ hfine => exact absurd herr (hfine hst)
    · rw [hdue] at h
      cases h

theorem judged_iff_turn {p : Proc E} (hl : Lifecycle p.conn.link) (own : Completion → ℤ)
    (env : PumpEnv) :
    Judged ⟨own, p.conn, env, (p.step C G (.turn env)).conn⟩ ↔
      Agreed ⟨own, p.conn, env, (p.step C G (.turn env)).conn⟩ := by
  by_cases hlive : p.conn.disposed = false ∧ p.conn.state = .connecting
  swap
  · obtain ⟨hj, ha⟩ := judged_agreed_of_not_connecting (t := ⟨own, p.conn, env, _⟩) hlive
    exact iff_of_true hj ha
  obtain ⟨hdis, hst⟩ := hlive
  have herr : p.conn.osErr = asyncOk := by
    by_contra h
    have hfailed : p.conn.state = .failed := hl.failed.2 h
    cases hst.symm.trans hfailed
  have hstep : p.step C G (.turn env) = (pumpTurn C G p env).1 := by
    unfold Proc.step
    dsimp only
    rw [hdis]
    rfl
  have hturn := turn_pumpTurn (C := C) (G := G) p env
  rw [hstep]
  generalize (pumpTurn C G p env).1 = q at hturn ⊢
  cases hturn with
  | ended h => obtain h | h := h <;> cases hst.symm.trans h
  | expired h => cases hst.symm.trans h
  | disconnected _ _ hdisc =>
    -- the hook before the step fails the connection, with the code of a failed send
    have hdue : p.conn.disconnectDue = true := by
      simp [Conn.disconnectDue, hdisc]
    refine iff_of_false (fun hj => ?_) fun ha => ?_
    · have hcode := (hj.disconnects hdis hst hdue).2
      obtain ⟨bestEvent, hbump⟩ := eventBump_frame (ostlsFail { p.conn with discConsumed := true }
        asyncOtSndFail p.conn.nfLastResult 0) .failed
      dsimp only at hcode
      rw [hbump] at hcode
      have hsnd : (ostlsFail { p.conn with discConsumed := true } asyncOtSndFail
        p.conn.nfLastResult 0).osErr = asyncOtSndFail := if_pos herr
      exact absurd (hsnd.symm.trans hcode) (by decide)
    · rw [ha.noDisconnect hdis hst] at hdue
      cases hdue
  | steps _ _ hdisc =>
    have hdue : p.conn.disconnectDue = false := by
      rw [Conn.disconnectDue]
      simpa using hdisc
    refine Settles.judged_iff hdue fun c hw => ?_
    have hset := settles_pumpConnectStep (G := G) hw herr env
    have hpump : pumpStep C G p env = ((pumpConnectStep G p env).proc.onConn
        (eventBump · (pumpConnectStep G p env).event), (pumpConnectStep G p env).progress) := by
      unfold pumpStep
      rw [hst]
    dsimp only
    rw [hpump]
    exact hset.bump _

/-- **Completions and their results.**  In every run, with whatever events between the turns, all
turns judge the completions by their own results, and disconnects as failures to connect, exactly
when all of them find no disconnect due and a last result that agrees. -/
theorem judged_iff_agreed {ok : Watched E → Action → Prop} {config : OstlsConfig}
    {tickets : TicketCache} {sessions : SessCache} {log : List ResumeEvent} {s : Watched E}
    (h : Reach (Watched.step C G) ok (.start (Proc.start G config tickets sessions log)) s) :
    (∀ t ∈ s.turns, Judged t) ↔ ∀ t ∈ s.turns, Agreed t := by
  have hinv : Lifecycle s.proc.conn.link ∧ ∀ t ∈ s.turns, Judged t ↔ Agreed t := by
    refine h.invariant (P := fun s => Lifecycle s.proc.conn.link ∧
      ∀ t ∈ s.turns, Judged t ↔ Agreed t) ⟨lifecycle_init G config, fun t ht => by cases ht⟩ ?_
    rintro s a ⟨hl, ht⟩ -
    have hone : Reach (Proc.step C G) (fun _ _ => True) s.proc (s.proc.step C G a) :=
      Reach.refl.tail trivial
    have hl' : Lifecycle (s.proc.step C G a).conn.link := Lifecycle.reach hone hl
    cases a with
    | turn env =>
      refine ⟨hl', fun t hmem => ?_⟩
      obtain hmem | hmem := List.mem_append.1 hmem
      · exact ht t hmem
      · rw [List.mem_singleton.1 hmem]
        exact judged_iff_turn hl s.own env
    | _ => exact ⟨hl', ht⟩
  exact forall₂_congr hinv.2

/-! ### Two connects -/

instance (conn : Conn E) (c : Completion) : Decidable (conn.Waits c) :=
  inferInstanceAs (Decidable (_ ∧ _))

/-- The endpoint is opened and bound, with this result of the bind. -/
def binds (result : ℤ) : List (Watched Unit → Action) :=
  [.start startOk, .notify (.openComplete (some 7)) kOTNoError, .turn idleEnv, .turn idleEnv,
    .notify .bindComplete result].map fun a _ => a

theorem judged_iff_agreed_binds :
    let s := play (Watched.step .transparent waitingEngine) (.start freshProc)
      (binds kOTNoError ++ [fun _ => .turn idleEnv])
    s.turns.length = 3 ∧ ((∀ t ∈ s.turns, Judged t) ↔ ∀ t ∈ s.turns, Agreed t) := by
  have hreach : Reach (Watched.step .transparent waitingEngine) (fun s a => OtLawful s.proc a)
      (.start freshProc) (play (Watched.step .transparent waitingEngine) (.start freshProc)
        (binds kOTNoError ++ [fun _ => .turn idleEnv])) := reach_play (by decide +kernel)
  exact ⟨by decide +kernel, judged_iff_agreed hreach⟩

/-- A bind fails and another event comes before the pump looks: the connection is taken for bound.  A
disconnect after that fails it with the code of a failed send. -/
theorem misjudged :
    ∃ s : Watched Unit, Reach (Watched.step .transparent waitingEngine)
        (fun s a => OtLawful s.proc a) (.start freshProc) s ∧
      (∃ t ∈ s.turns, t.before.Waits .bound ∧ t.own .bound = -3150 ∧
        t.after.connectPhase = .needsConnect ∧ ¬Judged t) ∧
      ∃ t ∈ s.turns, t.before.state = .connecting ∧ t.before.disconnectDue = true ∧
        t.after.osErr = asyncOtSndFail ∧ ¬Judged t := by
  let script : List (Watched Unit → Action) := binds (-3150) ++
    [.notify .other kOTNoError, .turn idleEnv, .notify .disconnect kOTNoError,
      .turn idleEnv].map fun a _ => a
  refine ⟨play (Watched.step .transparent waitingEngine) (.start freshProc) script,
    reach_play (by decide +kernel), ?_, ?_⟩
  · have h : ∃ t ∈ (play (Watched.step .transparent waitingEngine) (.start freshProc) script).turns,
        t.before.Waits .bound ∧ t.own .bound = -3150 ∧ t.after.connectPhase = .needsConnect := by
      decide +kernel
    obtain ⟨t, ht, hw, hown, hph⟩ := h
    refine ⟨t, ht, hw, hown, hph, fun hj => ?_⟩
    have hnone := hj.advances .bound hw (by rw [hph]; decide)
    rw [hown] at hnone
    exact absurd hnone (by decide)
  · have h : ∃ t ∈ (play (Watched.step .transparent waitingEngine) (.start freshProc) script).turns,
        t.before.disposed = false ∧ t.before.state = .connecting ∧ t.before.disconnectDue = true ∧
          t.after.osErr = asyncOtSndFail := by
      decide +kernel
    obtain ⟨t, ht, hdis, hst, hdue, herr⟩ := h
    refine ⟨t, ht, hst, hdue, herr, fun hj => ?_⟩
    have hcode := (hj.disconnects hdis hst hdue).2
    exact absurd (herr.symm.trans hcode) (by decide)

end MacTLS
