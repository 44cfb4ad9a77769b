import Mathlib.Data.List.Nodup
import MacTLS.Async.Lifecycle

/-!
# Who owns the endpoints

The notifier stores an endpoint at interrupt time; it is adopted, and from then on closed by
`OSTLS_Dispose` or by the fallback, when the pump looks at it.

* `endpointsGone_iff` : after `OSTLS_Dispose` every endpoint is closed once and no event can come any
  more, exactly when no open was in flight and the endpoint that had arrived was adopted;
* `endpoint_after_dispose` : an endpoint arrives on a connection that is freed.
-/

namespace MacTLS

open Lib

variable {E : Type} {C : Crypto} {G : Engine E} {π : Policy} {s s' : Link}

/-! ### The invariant -/

/-- The endpoints of a connection: those that came were closed, but for the one it holds, and at
most one is still to come. -/
structure Endpoints (s : Link) : Prop where
  delivered : s.history.delivered = s.history.closedEps ++ s.ep.toList
  nodup : s.history.delivered.Nodup
  opens : s.history.opens = s.history.completions ∨
    s.history.opens = s.history.completions + 1 ∧ s.ep = none
  owned : s.epOpen = true → s.ep ≠ none
  idle : s.state = .idle → s.history.opens = 0 ∧ s.ep = none ∧ s.arrived = false
  arrived : s.state = .connecting → s.phase.adopted = false → s.arrived = true →
    s.history.opens = s.history.completions
  adopted : s.disposed = false → s.state = .connecting ∧ s.phase.adopted = true ∨ s.Live →
    s.epOpen = true ∧ s.history.opens = s.history.completions

theorem endpoints_init (G : Engine E) (config : OstlsConfig) :
    Endpoints (Conn.init G config).link where
  delivered := rfl
  nodup := .nil
  opens := .inl rfl
  owned h := by cases h
  idle _ := ⟨rfl, rfl, rfl⟩
  arrived h := by cases h
  adopted _ h := by
    obtain ⟨h, -⟩ | h | h := h <;> cases h

/-- Closing an adopted endpoint gives it back. -/
theorem Endpoints.closeEp (hs : Endpoints s) (hopen : s.epOpen = true) :
    ∃ ep, s.ep = some ep ∧ s.closeEp = { s with
      ep := none
      epOpen := false
      history := { s.history with closedEps := s.history.closedEps ++ [ep] } } := by
  obtain ⟨ep, hep⟩ := Option.ne_none_iff_exists'.1 (hs.owned hopen)
  refine ⟨ep, hep, ?_⟩
  unfold Link.closeEp
  rw [if_pos hopen, hep]

theorem Endpoints.handshook (hs : Endpoints s) (o : HsOut) : Endpoints (s.handshook o) :=
  ⟨hs.delivered, hs.nodup, hs.opens, hs.owned, hs.idle, hs.arrived, hs.adopted⟩

theorem Endpoints.effect (h : Effect C π s s') (hdis : s.disposed = false) (hs : Endpoints s) :
    Endpoints s' := by
  have hlive : s.Live → s.epOpen = true ∧ s.history.opens = s.history.completions :=
    fun h => hs.adopted hdis (.inr h)
  -- the fallback gives the endpoint back before it asks for another one
  have hback : ∀ {hs' : HsCtx} {o : HsOut}, Handshakes C s hs' o → ∃ ep, s.ep = some ep ∧
      (s.handshook o).closeEp = { s.handshook o with
        ep := none
        epOpen := false
        history := { (s.handshook o).history with closedEps := s.history.closedEps ++ [ep] } } :=
    fun hh => (hs.handshook _).closeEp (hlive (.inl hh.state)).1
  obtain ⟨hdelivered, hnodup, hopens, howned, hidle, harrived, hadopted⟩ := hs
  cases h
  case noFallback h _ _ =>
    obtain ⟨ep, hep, hclose⟩ := hback h
    obtain ⟨-, hall⟩ := hlive (.inl h.state)
    constructor <;> grind -ring -linarith [Link.handshook, Link.fellBack, Link.fail, Link.Live,
      OstlsState.isUp]
  case fallback h _ _ =>
    obtain ⟨ep, hep, hclose⟩ := hback h
    obtain ⟨-, hall⟩ := hlive (.inl h.state)
    constructor <;> grind -ring -linarith [Link.handshook, Link.fellBack, Link.opens, Link.Live,
      OstlsState.isUp, ConnectPhase.adopted]
  case started | adopted | released =>
    constructor <;> grind -ring -linarith [Link.opens, Link.release, Link.Live, OstlsState.isUp,
      ConnectPhase.adopted]
  -- bytes, records and data on their way change nothing here
  case untold | peerCloses | received | sentHandshake | sentRecord | recordDone | handshook |
      delivered | recordTaken | dataStaged | built | closeNoted | wrote | read | tls12Data =>
    exact ⟨hdelivered, hnodup, hopens, howned, hidle, harrived, hadopted⟩
  case failed | notStarted | notOpened | setupFailed | handshakeFailed | closed | aborted =>
    exact ⟨hdelivered, hnodup, hopens, howned, (by simp [Link.fail]), (by simp [Link.fail]),
      (by simp [Link.fail, Link.Live, OstlsState.isUp])⟩
  all_goals
    refine ⟨hdelivered, hnodup, hopens, howned, ?_, ?_, ?_⟩ <;>
      grind -ring -linarith [Link.connected, Link.handshook, Link.opened, Link.Live,
        OstlsState.isUp, ConnectPhase.adopted, Handshakes]

/-- What `OSTLS_Dispose` makes of the endpoint: it is closed if it was adopted. -/
theorem Endpoints.dispose_cases (hs : Endpoints s) (hdis : s.disposed = false) :
    (s.epOpen = false ∧ s.dispose = { s with hs13 := none, disposed := true }) ∨
      ∃ ep, s.epOpen = true ∧ s.ep = some ep ∧ s.dispose = { s with
        hs13 := none
        disposed := true
        ep := none
        epOpen := false
        history := { s.history with closedEps := s.history.closedEps ++ [ep] } } := by
  have hdispose : s.dispose = { s.closeEp with hs13 := none, disposed := true } :=
    if_neg (by simp [hdis])
  rw [hdispose]
  by_cases hopen : s.epOpen = true
  · obtain ⟨ep, hep, hclose⟩ := hs.closeEp hopen
    exact .inr ⟨ep, hopen, hep, by rw [hclose]⟩
  · have hclose : s.closeEp = s := if_neg hopen
    exact .inl ⟨by simpa using hopen, by rw [hclose]⟩

theorem Endpoints.dispose (hs : Endpoints s) : Endpoints s.dispose := by
  cases hdis : s.disposed with
  | true =>
    have hsame : s.dispose = s := if_pos hdis
    rw [hsame]
    exact hs
  | false =>
    obtain ⟨-, heq⟩ | ⟨ep, -, hep, heq⟩ := hs.dispose_cases hdis <;> rw [heq]
    · exact ⟨hs.delivered, hs.nodup, hs.opens, hs.owned, hs.idle, hs.arrived, fun h => by cases h⟩
    · obtain ⟨hdelivered, hnodup, hopens, howned, hidle, harrived, -⟩ := hs
      constructor <;> grind -ring -linarith

/-- An endpoint only comes when there is none. -/
theorem Endpoints.notified (hs : Endpoints s) {cookie : Option Endpoint}
    (hdue : s.history.completions < s.history.opens)
    (hfresh : ∀ ep ∈ cookie, ep ∉ s.history.delivered) :
    Endpoints (s.notified (.openComplete cookie)) := by
  obtain ⟨hdelivered, hnodup, hopens, howned, hidle, harrived, hadopted⟩ := hs
  obtain ⟨hone, hnone⟩ : s.history.opens = s.history.completions + 1 ∧ s.ep = none :=
    hopens.resolve_left (by omega)
  have hclosed : s.history.delivered = s.history.closedEps := by
    rw [hdelivered, hnone, Option.toList_none, List.append_nil]
  have hall : (s.history.delivered ++ cookie.toList).Nodup := by
    refine List.nodup_append.2 ⟨hnodup, by cases cookie <;> simp, ?_⟩
    rintro a ha b hb rfl
    exact hfresh a (by simpa using hb) ha
  exact {
    delivered := congrArg (· ++ cookie.toList) hclosed
    nodup := hall
    opens := .inl hone
    owned := fun h => absurd hnone (howned h)
    idle := fun h => absurd (hidle h).1 (by rw [hone]; exact Nat.succ_ne_zero _)
    arrived := fun _ _ _ => hone
    adopted := fun hdis h => ⟨(hadopted hdis h).1, hone⟩ }

theorem endpoints_of_reach {config : OstlsConfig} {tickets : TicketCache} {sessions : SessCache}
    {log : List ResumeEvent} {p : Proc E}
    (h : Reach (Proc.step C G) OtLawful (Proc.start G config tickets sessions log) p) :
    Endpoints p.conn.link := by
  refine link_invariant h (endpoints_init G config)
    (fun p a _ _ => Policy.any_meets C G p.conn a) (fun hdis hs he => hs.effect he hdis)
    (fun _ _ hs => hs.dispose) ?_
  intro p event result hok hs
  cases event with
  | openComplete cookie => exact hs.notified hok.1 hok.2
  | _ => exact hs

/-! ### After OSTLS_Dispose -/

/-- Nothing is left of a connection: every endpoint that came was closed once, none is still to
come, and no event can be delivered. -/
def EndpointsGone (conn : Conn E) : Prop :=
  (∀ ep ∈ conn.history.delivered, conn.history.closedEps.count ep = 1) ∧
    ∀ event, ¬Deliverable conn event

/-- No open is in flight, and an endpoint that has arrived is adopted. -/
def Conn.Settled (conn : Conn E) : Prop :=
  conn.history.opens = conn.history.completions ∧ (conn.ep = none ∨ conn.epOpen = true)

instance (conn : Conn E) : Decidable conn.Settled := inferInstanceAs (Decidable (_ ∧ _))

/-- A freed connection that has nothing more to come, and no endpoint. -/
structure Gone (s : Link) : Prop where
  disposed : s.disposed = true
  opens : s.history.opens = s.history.completions
  ep : s.ep = none

theorem Gone.endpointsGone {conn : Conn E} (hg : Gone conn.link) (hs : Endpoints conn.link) :
    EndpointsGone conn := by
  have hclosed : conn.history.delivered = conn.history.closedEps := by
    have h := hs.delivered
    rw [hg.ep, Option.toList_none, List.append_nil] at h
    exact h
  have hnodup : conn.history.closedEps.Nodup := hclosed ▸ hs.nodup
  constructor
  · intro ep hep
    rw [hclosed] at hep
    exact List.count_eq_one_of_mem hnodup hep
  · intro event h
    have hopens : conn.history.opens = conn.history.completions := hg.opens
    cases event with
    | openComplete cookie => exact absurd h.1 (by omega)
    | _ =>
      obtain ⟨ep, hep, hopen⟩ := h
      exact hopen (hclosed ▸ hep)

/-- A connection on which nothing can be delivered any more stays as it is. -/
theorem gone_of_reach {p₀ p : Proc E} (h : Reach (Proc.step C G) OtLawful p₀ p)
    (hs : Endpoints p₀.conn.link) (hg : Gone p₀.conn.link) :
    Endpoints p.conn.link ∧ Gone p.conn.link := by
  refine link_invariant (P := fun s => Endpoints s ∧ Gone s) h ⟨hs, hg⟩
    (fun p a _ _ => Policy.any_meets C G p.conn a) ?_ ?_ ?_
  · intro s s' hdis hs _
    exact absurd hs.2.disposed (by rw [hdis]; decide)
  · intro p _ hs
    have hsame : p.conn.link.dispose = p.conn.link := if_pos hs.2.disposed
    rw [hsame]
    exact hs
  · intro p event _ hok hs
    exact absurd hok ((hs.2.endpointsGone hs.1).2 event)

/-- **The endpoints after `OSTLS_Dispose`.**  In every run, when a connection is disposed of, every
endpoint is closed once and no event comes any more, exactly when no open was in flight and an
endpoint that had arrived was adopted. -/
theorem endpointsGone_iff {config : OstlsConfig} {tickets : TicketCache} {sessions : SessCache}
    {log : List ResumeEvent} {p : Proc E}
    (h : Reach (Proc.step C G) OtLawful (Proc.start G config tickets sessions log) p)
    (hdis : p.conn.disposed = false) :
    (∀ p', Reach (Proc.step C G) OtLawful (p.step C G .dispose) p' → EndpointsGone p'.conn) ↔
      p.conn.Settled := by
  have hs := endpoints_of_reach h
  have hlink : (p.step C G .dispose).conn.link = p.conn.link.dispose := link_ostlsDispose _
  have hhist : (p.step C G .dispose).conn.history = p.conn.link.dispose.history :=
    congrArg Link.history hlink
  constructor
  · intro hgone
    obtain ⟨hclosed, hnone⟩ := hgone _ .refl
    have hnone : ¬(p.step C G .dispose).conn.history.completions <
        (p.step C G .dispose).conn.history.opens :=
      fun h => hnone (.openComplete none) ⟨h, fun _ h => by cases h⟩
    rw [hhist, Link.dispose_completions, Link.dispose_opens] at hnone
    rw [hhist] at hclosed
    have hopens : p.conn.history.opens = p.conn.history.completions :=
      hs.opens.resolve_right fun h => hnone (by omega)
    refine ⟨hopens, ?_⟩
    obtain ⟨hep, heq⟩ | ⟨ep, hep, -, heq⟩ := hs.dispose_cases hdis
    · left
      rw [heq] at hclosed
      by_contra hne
      -- an endpoint that was never adopted is never closed
      obtain ⟨ep, hsome⟩ := Option.ne_none_iff_exists'.1 hne
      have hsome : p.conn.link.ep = some ep := hsome
      have hdelivered := hs.delivered
      have hnodup := hs.nodup
      rw [hsome] at hdelivered
      rw [hdelivered] at hnodup hclosed
      have hnot : ep ∉ p.conn.link.history.closedEps := by
        intro hmem
        exact (List.disjoint_of_nodup_append hnodup) hmem (by simp)
      have hone := hclosed ep (by simp)
      rw [List.count_eq_zero_of_not_mem hnot] at hone
      cases hone
    · exact .inr hep
  · rintro ⟨hopens, hep⟩ p' h'
    have hg : Gone p.conn.link.dispose := by
      obtain ⟨hopen, heq⟩ | ⟨ep, -, -, heq⟩ := hs.dispose_cases hdis <;> rw [heq]
      · refine ⟨rfl, hopens, hep.resolve_right ?_⟩
        rw [show p.conn.epOpen = false from hopen]
        decide
      · exact ⟨rfl, hopens, rfl⟩
    obtain ⟨hs', hg'⟩ := gone_of_reach h' (hlink ▸ hs.dispose) (hlink ▸ hg)
    exact hg'.endpointsGone hs'

/-- Disposing of a connection after its endpoint was adopted. -/
theorem endpointsGone_adopted :
    let p := play (Proc.step .transparent waitingEngine) freshProc startsTls13
    (p.step .transparent waitingEngine .dispose).conn.history.closedEps = [7] ∧
      EndpointsGone (p.step .transparent waitingEngine .dispose).conn := by
  refine ⟨by decide +kernel, ?_⟩
  refine (endpointsGone_iff (C := .transparent) (G := waitingEngine)
    (reach_script startsTls13 ?_) ?_).mpr ?_ _ .refl
  all_goals decide +kernel

/-- A connection is freed while its endpoint is being opened: the endpoint arrives on the freed
connection, and nothing closes it. -/
theorem endpoint_after_dispose :
    ∃ p : Proc Unit, Reach (Proc.step .transparent waitingEngine) OtLawful freshProc p ∧
      p.conn.disposed = true ∧ Deliverable p.conn (.openComplete (some 7)) ∧
      ¬EndpointsGone (p.step .transparent waitingEngine
        (.notify (.openComplete (some 7)) kOTNoError)).conn := by
  let script : List (Proc Unit → Action) := [.start startOk, .dispose].map fun a _ => a
  refine ⟨play (Proc.step .transparent waitingEngine) freshProc script,
    reach_play (by decide +kernel), by decide +kernel, by decide +kernel, fun h => ?_⟩
  exact absurd (h.1 7 (by decide +kernel)) (by decide +kernel)

end MacTLS
