import MacTLS.Async.Relay
import MacTLS.Fetch.Target

/-!
# The response of a fetch

What `OSTLS_Fetch` puts into `out_buf`, and what its result says about it.

* `answers_turn`, `answers_loop` : what a turn and the loop keep;
* `fetch_response` : the response is what the engine decrypted, up to the size of the buffer.
-/

namespace MacTLS

open Lib

variable {E : Type} {G : Engine E} {args : FetchArgs} {env : FetchEnv} {request : Bytes}
  {st : FetchState (E × Traffic)}

/-- What was collected is what was taken off the engine, and the engine was given the start of the
request. -/
structure FetchState.Answers (request : Bytes) (st : FetchState (E × Traffic)) : Prop where
  collected : st.collected = st.eng.2.taken
  put : st.eng.2.put = request.take st.requestSent

/-- How the loop stands: it goes on while there is room, a full buffer is a success, and so is what
was there when the engine was closed without an error. -/
def Concludes (G : Engine E) (args : FetchArgs) (st : FetchState (E × Traffic)) :
    Option FetchEnd → Prop
  | none => st.collected.length < args.outCap.toNat
  | some e => (e.code = .ok ∧ st.collected.length = args.outCap.toNat) ∨
      st.collected.length < args.outCap.toNat ∧
        (e.code = .ok → 0 < st.collected.length ∧ (G.currentState st.eng.1).closed = true ∧
          G.lastError st.eng.1 = 0)

/-- A failure, while there is room. -/
theorem concludes_fail (h : st.collected.length < args.outCap.toNat) {code : FetchCode}
    (hcode : code ≠ .ok) (message : CString) (err : ℤ) :
    Concludes G args st (some (fetchFail args env code message err)) :=
  .inr ⟨h, fun hok => absurd hok hcode⟩

theorem answers_push (h : st.Answers request) :
    (fetchPush G.traced request st).Answers request := by
  have hput : ∀ k, st.eng.2.put ++ slice request st.requestSent k =
      request.take (st.requestSent + k) := fun k => by
    rw [h.put, slice, List.take_add]
  unfold fetchPush
  dsimp only
  split_ifs
  · exact h
  · exact ⟨h.collected, hput _⟩
  · exact ⟨h.collected, hput _⟩

theorem answers_drain (h : st.Answers request) :
    (fetchDrain G.traced args st).Answers request :=
  ⟨congrArg (· ++ _) h.collected, h.put⟩

/-- No more is taken than there is room for. -/
theorem length_drain_le (h : st.collected.length < args.outCap.toNat) :
    (fetchDrain G.traced args st).collected.length ≤ args.outCap.toNat := by
  simp only [fetchDrain, List.length_append, List.length_take]
  omega

theorem push_collected : (fetchPush G.traced request st).collected = st.collected := by
  unfold fetchPush
  dsimp only
  split_ifs <;> rfl

/-- One turn of the loop. -/
theorem answers_turn (h : st.Answers request) (hroom : st.collected.length < args.outCap.toNat)
    (t : FetchTurn) :
    (fetchTurn G.traced args env request st t).1.Answers request ∧
      Concludes G args (fetchTurn G.traced args env request st t).1
        (fetchTurn G.traced args env request st t).2 := by
  unfold fetchTurn
  by_cases htime : t.ticks > env.startTicks + 3600
  · rw [if_pos htime]
    exact ⟨h, concludes_fail hroom (by decide) _ _⟩
  rw [if_neg htime]
  dsimp only
  by_cases hclosed : (G.traced.currentState st.eng).closed = true
  · rw [if_pos hclosed]
    -- closed without an error: the loop stops as a success if anything was collected
    split_ifs with herr hsome
    · exact ⟨h, .inr ⟨hroom, fun _ => ⟨hsome, hclosed, herr⟩⟩⟩
    · exact ⟨h, concludes_fail hroom (by decide) _ _⟩
    · exact ⟨h, concludes_fail hroom (by decide) _ _⟩
  rw [if_neg hclosed]
  -- only the flag of the handshake changes before the turn's own action
  split_ifs with hpush hdrain hempty hfull
  · -- the request
    refine ⟨answers_push ⟨h.collected, h.put⟩, ?_⟩
    rw [Concludes, push_collected]
    exact hroom
  · exact ⟨⟨h.collected, h.put⟩, hroom⟩
  -- the buffer is full: the loop stops here, whatever the engine still holds
  · exact ⟨answers_drain ⟨h.collected, h.put⟩,
      .inl ⟨rfl, Nat.le_antisymm (length_drain_le hroom) hfull⟩⟩
  · exact ⟨answers_drain ⟨h.collected, h.put⟩, Nat.lt_of_not_le hfull⟩
  · exact ⟨⟨h.collected, h.put⟩, hroom⟩
  · exact ⟨⟨h.collected, h.put⟩, concludes_fail hroom (by decide) _ _⟩
  · exact ⟨⟨h.collected, h.put⟩, hroom⟩
  · exact ⟨⟨h.collected, h.put⟩, hroom⟩
  · split
    · exact ⟨⟨h.collected, h.put⟩, concludes_fail hroom (by decide) _ _⟩
    · exact ⟨⟨h.collected, h.put⟩, hroom⟩
  · exact ⟨⟨h.collected, h.put⟩, hroom⟩

/-- The loop, by induction over its turns. -/
theorem answers_loop (h : st.Answers request) (hroom : st.collected.length < args.outCap.toNat)
    (turns : List FetchTurn) :
    (fetchLoop G.traced args env request st turns).1.Answers request ∧
      Concludes G args (fetchLoop G.traced args env request st turns).1
        (fetchLoop G.traced args env request st turns).2 := by
  induction turns generalizing st with
  | nil => exact ⟨h, hroom⟩
  | cons t ts ih =>
    have hturn := @answers_turn _ G _ env _ _ h hroom t
    rw [fetchLoop]
    generalize fetchTurn G.traced args env request st t = r at hturn ⊢
    obtain ⟨st', ended⟩ := r
    cases ended with
    | some e => exact hturn
    | none => exact ih hturn.1 hturn.2

/-- Whatever the engine and Open Transport do, `out_buf` holds exactly what was taken off the engine
in its order, never more than `out_cap` bytes, and the engine was given the start of the request.  A
fetch succeeds when the buffer is full, whatever is still to come, and else only when the engine was
closed without an error behind some bytes. -/
theorem fetch_response {eng : E × Traffic} (heng : eng.2 = .none) (hcap : 0 < args.outCap.toNat)
    (events : List FetchEvent) (turns : List FetchTurn) :
    let r := fetchLoop G.traced args env request ⟨eng, false, 0, [], events⟩ turns
    r.1.collected = r.1.eng.2.taken ∧ r.1.eng.2.put = request.take r.1.requestSent ∧
      r.1.collected.length ≤ args.outCap.toNat ∧
      ∀ e, r.2 = some e →
        (r.1.collected.length = args.outCap.toNat → e.code = .ok) ∧
        (e.code = .ok → 0 < r.1.collected.length ∧
          (r.1.collected.length = args.outCap.toNat ∨
            (G.currentState r.1.eng.1).closed = true ∧ G.lastError r.1.eng.1 = 0)) := by
  have hstart : FetchState.Answers request
      (⟨eng, false, 0, [], events⟩ : FetchState (E × Traffic)) := by
    refine ⟨?_, ?_⟩ <;> rw [heng] <;> rfl
  have hloop := @answers_loop _ G args env _ _ hstart hcap turns
  generalize fetchLoop G.traced args env request ⟨eng, false, 0, [], events⟩ turns = r at hloop
  obtain ⟨st, ended⟩ := r
  obtain ⟨hanswers, hend⟩ := hloop
  refine ⟨hanswers.collected, hanswers.put, ?_, ?_⟩
  · cases ended with
    | none => exact Nat.le_of_lt hend
    | some e => exact hend.elim (fun h => h.2.le) fun h => h.1.le
  · rintro e rfl
    obtain ⟨hok, hfull⟩ | ⟨hroom, hclosed⟩ := hend
    · exact ⟨fun _ => hok, fun _ => ⟨hfull ▸ hcap, .inl hfull⟩⟩
    · exact ⟨fun hfull => absurd hfull (Nat.ne_of_lt hroom),
        fun hok => ⟨(hclosed hok).1, .inr (hclosed hok).2⟩⟩

/-- An echo: the response is what fits of the request. -/
theorem fetch_response_echo :
    let r := fetchLoop echoEngine.traced { longPathArgs with outCap := 4 } eagerEnv
      [1, 2, 3, 4, 5, 6] ⟨echoEngine.traced.init, false, 0, [], []⟩
      (List.replicate 3 ⟨0, 0, .ok []⟩)
    r.1.collected = [1, 2, 3, 4] ∧ r.1.collected = r.1.eng.2.taken :=
  ⟨by decide +kernel, (fetch_response rfl (by decide) _ _).1⟩

end MacTLS
