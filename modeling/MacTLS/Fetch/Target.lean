import MacTLS.Fetch.Fetch
import Mathlib.Data.List.TakeWhile

/-!
# The target that was asked for

The host, the path and the server name go through formats with a precision.  A fetch does on the
network what its caller asked for as long as they are no longer than that, and so does the name
that `OSTLS_New` gives the resolver.

* `sends_fetch` : every run sends the formatted request to the formatted target, and nothing else;
* `Faithful` : what a run owes its caller;
* `eager_events` : a run in which everything succeeds at once;
* `target_exact_iff` : when the target and the request are those that were asked for.
-/

namespace MacTLS

open Lib Lib.Hkdf

section

variable {E : Type} (G : Engine E) (args : FetchArgs) (env : FetchEnv)

theorem length_target_lt : (format (targetFormat args)).length < 128 := by
  have hport : (decimal args.port.toNat).length ≤ 5 :=
    length_decimal_le (by decide) (by have := args.port.toNat_lt; omega)
  rw [length_targetFormat]
  omega

theorem length_request_lt : (format (requestFormat args)).length < 256 := by
  rw [length_requestFormat]
  omega

/-- A run that has not come to the network. -/
theorem sends_nil (target request : Bytes) : SendsRequest target request 0 [] :=
  ⟨fun _ h => absurd h List.not_mem_nil, by simp [sentBytes], Nat.zero_le _,
    fun h => absurd h List.not_mem_nil⟩

theorem sends_connect (target request : Bytes) : SendsRequest target request 0 [.connect target] :=
  ⟨fun t h => by simpa using h, by simp [sentBytes, FetchEvent.appBytes], Nat.zero_le _,
    fun h => by simp at h⟩

/-- Every run connects to the formatted target only, and sends the formatted request. -/
theorem sends_fetch (turns : List FetchTurn) :
    ∃ n, SendsRequest (format (targetFormat args)) (format (requestFormat args)) n
      (ostlsFetch G args env turns).events := by
  have hnil := sends_nil (format (targetFormat args)) (format (requestFormat args))
  have hconn := sends_connect (format (targetFormat args)) (format (requestFormat args))
  unfold ostlsFetch
  dsimp only
  rw [formatLocal_eq (length_target_lt args) (nulFree_targetFormat args),
    formatLocal_eq (length_request_lt args) (nulFree_requestFormat args)]
  -- one failure after the other, the last three of them behind the connection
  let Sends : FetchRun → Prop := fun run =>
    ∃ n, SendsRequest (format (targetFormat args)) (format (requestFormat args)) n run.events
  refine iteInduction (motive := Sends) (fun _ => ⟨0, hnil⟩) fun _ => ?_
  refine iteInduction (motive := Sends) (fun _ => ⟨0, hnil⟩) fun _ => ?_
  refine iteInduction (motive := Sends) (fun _ => ⟨0, hnil⟩) fun _ => ?_
  refine iteInduction (motive := Sends) (fun _ => ⟨0, hnil⟩) fun _ => ?_
  refine iteInduction (motive := Sends) (fun _ => ⟨0, hnil⟩) fun _ => ?_
  refine iteInduction (motive := Sends) (fun _ => ⟨0, hnil⟩) fun _ => ?_
  refine iteInduction (motive := Sends) (fun _ => ⟨0, hconn⟩) fun _ => ?_
  refine iteInduction (motive := Sends) (fun _ => ⟨0, hconn⟩) fun _ => ?_
  refine iteInduction (motive := Sends) (fun _ => ⟨0, hconn⟩) fun _ => ?_
  · have hstart : FetchState.SendsRequest _ _
        (⟨(G.reset G.init args.serverName.bytes false).2, false, 0, [],
          [.connect (format (targetFormat args))]⟩ : FetchState E) := hconn
    exact ⟨_, sends_loop hstart turns⟩

end

/-! ### What was asked for -/

/-- `host:port` -/
def FetchArgs.target (args : FetchArgs) : Bytes := args.host.bytes ++ 58 :: decimal args.port.toNat

/-- The request of the header: the complete path and the complete server name. -/
def FetchArgs.request (args : FetchArgs) : Bytes :=
  format [.text "GET ", .str args.path, .text " HTTP/1.0\r\nHost: ", .str args.serverName,
    .text "\r\nUser-Agent: macTLS/0.1\r\nConnection: close\r\n\r\n"]

/-- On the network a run has done nothing but what was asked for. -/
structure Faithful (args : FetchArgs) (events : List FetchEvent) : Prop where
  target : ∀ t, .connect t ∈ events → t = args.target
  request : sentBytes events <+: args.request
  complete : .flush ∈ events → sentBytes events = args.request

/-- The run was refused before any network activity. -/
def FetchRun.Refused (run : FetchRun) : Prop :=
  run.events = [] ∧ ∃ e, run.ended = some e ∧ (e.code = .badArgs ∨ e.code = .requestTooBig)

/-- The formatted target is the one asked for when the host is not longer than its precision. -/
theorem targetFormat_eq_iff (args : FetchArgs) :
    format (targetFormat args) = args.target ↔ args.host.bytes.length ≤ 80 := by
  have htext : format (targetFormat args) =
      args.host.bytes.take 80 ++ 58 :: decimal args.port.toNat := by
    simp only [format, targetFormat, List.flatMap_cons, List.flatMap_nil, Conversion.render,
      List.append_nil]
    rfl
  rw [htext, FetchArgs.target, List.append_cancel_right_eq, List.take_eq_self_iff]

theorem length_request (args : FetchArgs) : args.request.length =
    args.path.bytes.length + args.serverName.bytes.length + 68 := by
  have h1 : (ascii "GET ").length = 4 := by decide
  have h2 : (ascii " HTTP/1.0\r\nHost: ").length = 17 := by decide
  have h3 : (ascii "\r\nUser-Agent: macTLS/0.1\r\nConnection: close\r\n\r\n").length = 47 := by
    decide
  simp only [format, FetchArgs.request, List.flatMap_cons, List.flatMap_nil, Conversion.render,
    List.append_nil, List.length_append]
  omega

theorem requestFormat_eq_iff (args : FetchArgs) : format (requestFormat args) = args.request ↔
    args.path.bytes.length ≤ 80 ∧ args.serverName.bytes.length ≤ 80 := by
  refine ⟨fun h => ?_, fun ⟨hpath, hname⟩ => ?_⟩
  · have hlen := congrArg List.length h
    rw [length_requestFormat, length_request] at hlen
    omega
  · simp only [format, requestFormat, FetchArgs.request, List.flatMap_cons, Conversion.render,
      List.take_of_length_le hpath, List.take_of_length_le hname]

/-- An engine that takes the whole request at once. -/
def eagerEngine : Engine Unit where
  init := ()
  currentState _ := ⟨false, false, false, true, false⟩
  lastError _ := 0
  recvrecLen _ := 0
  recvrecAck _ _ := ()
  sendrecBuf _ := []
  sendrecAck _ _ := ()
  recvappBuf _ := []
  recvappAck _ _ := ()
  sendappLen _ := 256
  sendappAck _ _ := ()
  flush _ := ()
  close _ := ()
  session _ := ⟨[], 0, 0, []⟩
  setSession _ _ := ()
  reset _ _ _ := (true, ())

/-- Calls that all succeed. -/
def eagerEnv : FetchEnv where
  timeOk := true
  cfgOk := true
  openErr := kOTNoError
  epNull := false
  bindErr := kOTNoError
  dnsLen := 1
  connectErr := kOTNoError
  entropyOk := true
  startTicks := 0
  targetHostPort _ := 0
  requestLine _ := 0
  outMsg _ := 0

/-- With them the formatted request is sent to the formatted target in one turn. -/
theorem eager_events {args : FetchArgs} (h : ¬(args.outCap < 1 ∨ args.port = 0)) :
    (ostlsFetch eagerEngine args eagerEnv [⟨0, 0, .ok []⟩]).events =
      [.connect (format (targetFormat args)), .sendApp (format (requestFormat args)), .flush] := by
  have hlen := length_request_lt args
  have hpos : 0 < (format (requestFormat args)).length := by
    rw [length_requestFormat]
    omega
  unfold ostlsFetch
  dsimp only
  rw [if_neg h, formatLocal_eq (length_target_lt args) (nulFree_targetFormat args),
    formatLocal_eq hlen (nulFree_requestFormat args)]
  generalize format (targetFormat args) = target
  generalize format (requestFormat args) = request at hlen hpos ⊢
  have hmin : min (request.length - 0) 256 = request.length := by omega
  have hpush : fetchPush eagerEngine request
      ⟨(), true, 0, [], [.connect target]⟩ =
      ⟨(), true, request.length, [], [.connect target, .sendApp request, .flush]⟩ := by
    have hslice : slice request 0 request.length = request := slice_zero_length request
    unfold fetchPush
    simp only [eagerEngine, hmin, hslice, Nat.zero_add, ge_iff_le, Nat.le_refl, if_pos]
    rfl
  have hturn : fetchTurn eagerEngine args eagerEnv request
      ⟨(), false, 0, [], [.connect target]⟩ ⟨0, 0, .ok []⟩ =
      (⟨(), true, request.length, [], [.connect target, .sendApp request, .flush]⟩, none) := by
    rw [← hpush]
    unfold fetchTurn
    rw [if_neg (by decide)]
    dsimp only
    rw [if_neg (by decide), if_pos ⟨rfl, hpos, rfl⟩]
    rfl
  show (fetchLoop eagerEngine args eagerEnv request ⟨(), false, 0, [], [.connect target]⟩
    [⟨0, 0, .ok []⟩]).1.events = _
  rw [fetchLoop, hturn]
  rfl

/-! ### The name for the resolver -/

/-- The string in a character array. -/
def CString.ofBytes (b : Bytes) : CString where
  bytes := b.takeWhile (· ≠ 0)
  nul_free h := by simpa using List.mem_takeWhile_imp h

theorem CString.ofBytes_bytes (s : CString) : CString.ofBytes s.bytes = s := by
  have htake : s.bytes.takeWhile (· ≠ 0) = s.bytes := by
    rw [List.takeWhile_eq_self_iff]
    intro b hb
    simpa using fun hzero : b = 0 => s.nul_free (hzero ▸ hb)
  simp only [CString.ofBytes, htake]

/-- The field `host_port`, as `OSTLS_New` sets it. -/
def Conn.hostPort {E : Type} (conn : Conn E) : Bytes :=
  formatLocal (fun _ => 0) 280
    [.strUpTo 250 (.ofBytes conn.host), .text ":", .unsigned conn.port]

/-- The configuration with these settings. -/
def newConfig (host serverName : CString) (port : UInt16)
    (connectTimeoutTicks handshakeTimeoutTicks : ℕ) : OstlsConfig :=
  ⟨host.bytes, port.toNat, serverName.bytes, connectTimeoutTicks, handshakeTimeoutTicks⟩

theorem hostPort_eq {E : Type} {conn : Conn E} {host : CString} {port : UInt16}
    (hhost : conn.host = host.bytes) (hport : conn.port = port.toNat) :
    conn.hostPort = host.bytes.take 250 ++ 58 :: decimal port.toNat := by
  have hdigits : (decimal port.toNat).length ≤ 5 :=
    length_decimal_le (by decide) (by have := port.toNat_lt; omega)
  have htext : format [.strUpTo 250 host, .text ":", .unsigned port.toNat] =
      host.bytes.take 250 ++ 58 :: decimal port.toNat := by
    simp only [format, List.flatMap_cons, List.flatMap_nil, Conversion.render, List.append_nil]
    rfl
  rw [Conn.hostPort, hhost, hport, CString.ofBytes_bytes, formatLocal_eq, htext]
  · rw [htext, List.length_append, List.length_take, List.length_cons]
    omega
  · simp only [List.forall_mem_cons]
    exact ⟨trivial, by unfold Conversion.NulFree; decide, trivial, List.forall_mem_nil _⟩

/-- The arguments that `OSTLS_Fetch` refuses. -/
def BadFetchArgs (args : FetchArgs) : Prop := args.outCap < 1 ∨ args.port = 0

/-- A fetch with the engine and all calls at their best does what was asked for only if nothing of
it is cut. -/
theorem short_of_faithful {args : FetchArgs} (h : ¬BadFetchArgs args)
    (hf : Faithful args (ostlsFetch eagerEngine args eagerEnv [⟨0, 0, .ok []⟩]).events) :
    args.host.bytes.length ≤ 80 ∧ args.path.bytes.length ≤ 80 ∧
      args.serverName.bytes.length ≤ 80 := by
  obtain ⟨htarget, -, hcomplete⟩ := hf
  rw [eager_events h] at htarget hcomplete
  have hsent := hcomplete (by simp)
  rw [sentBytes, List.flatMap_cons, List.flatMap_cons, List.flatMap_cons, List.flatMap_nil] at hsent
  refine ⟨(targetFormat_eq_iff args).1 (htarget _ List.mem_cons_self),
    (requestFormat_eq_iff args).1 ?_⟩
  simpa [FetchEvent.appBytes] using hsent

theorem faithful_of_short {E : Type} (G : Engine E) {args : FetchArgs} (env : FetchEnv)
    (turns : List FetchTurn) (hhost : args.host.bytes.length ≤ 80)
    (hrest : args.path.bytes.length ≤ 80 ∧ args.serverName.bytes.length ≤ 80) :
    Faithful args (ostlsFetch G args env turns).events := by
  obtain ⟨n, hsends⟩ := sends_fetch G args env turns
  rw [(targetFormat_eq_iff args).2 hhost, (requestFormat_eq_iff args).2 hrest] at hsends
  refine ⟨hsends.target, ?_, fun hflush => ?_⟩
  · rw [hsends.sent]
    exact List.take_prefix _ _
  · rw [hsends.sent, hsends.flush hflush, List.take_length]

theorem refused_of_badArgs {E : Type} (G : Engine E) {args : FetchArgs} (env : FetchEnv)
    (turns : List FetchTurn) (h : BadFetchArgs args) : (ostlsFetch G args env turns).Refused := by
  unfold BadFetchArgs at h
  unfold ostlsFetch
  dsimp only
  rw [if_pos h]
  exact ⟨rfl, _, rfl, .inl rfl⟩

/-- The configurations that `OSTLS_New` refuses. -/
def RefusedConfig (config : OstlsConfig) : Prop :=
  config.port = 0 ∨ config.host.length = 0 ∨ config.host.length ≥ 256 ∨
    config.serverName.length = 0 ∨ config.serverName.length ≥ 256

theorem ostlsNew_eq {E : Type} (G : Engine E) (config : OstlsConfig) (allocOk : Bool)
    (conn : Conn E) : (ostlsNew G config allocOk).2 = some conn ↔
      ¬RefusedConfig config ∧ allocOk = true ∧ conn = .init G config := by
  by_cases hr : RefusedConfig config
  · have hnone : (ostlsNew G config allocOk).2 = none := by
      unfold ostlsNew
      obtain hport | hlen := hr
      · rw [if_pos hport]
      · rw [if_pos hlen, ite_self]
    rw [hnone]
    exact ⟨fun h => (by cases h), fun h => absurd hr h.1⟩
  · obtain ⟨hport, hlen⟩ := not_or.1 hr
    unfold ostlsNew
    rw [if_neg hport, if_neg hlen]
    cases allocOk with
    | false => exact ⟨fun h => (by cases h), fun h => by cases h.2.1⟩
    | true =>
      exact ⟨fun h => ⟨hr, rfl, (Option.some.inj h).symm⟩, fun h => congrArg some h.2.2.symm⟩

/-- **The target that was asked for.**  For all arguments: whatever the engine and the network do,
`OSTLS_Fetch` connects to `host:port` only and sends the request with the complete path and server
name, or is refused before any network activity, exactly when it refuses its arguments or host, path
and server name have at most 80 bytes; and a connection of `OSTLS_New` has `host:port` for the
resolver exactly when the host has at most 250 bytes or there is no connection. -/
theorem target_exact_iff (args : FetchArgs) (E : Type) (G : Engine E) (host serverName : CString)
    (port : UInt16) (connectTimeoutTicks handshakeTimeoutTicks : ℕ) (allocOk : Bool) :
    ((∀ (E : Type) (G : Engine E) (env : FetchEnv) (turns : List FetchTurn),
      Faithful args (ostlsFetch G args env turns).events ∨
        (ostlsFetch G args env turns).Refused) ↔
      BadFetchArgs args ∨ args.host.bytes.length ≤ 80 ∧ args.path.bytes.length ≤ 80 ∧
        args.serverName.bytes.length ≤ 80) ∧
    let config := newConfig host serverName port connectTimeoutTicks handshakeTimeoutTicks
    ((∀ conn, (ostlsNew G config allocOk).2 = some conn →
        conn.hostPort = host.bytes ++ 58 :: decimal port.toNat) ↔
      RefusedConfig config ∨ allocOk = false ∨ host.bytes.length ≤ 250) := by
  refine ⟨⟨fun h => ?_, fun h E G env turns => ?_⟩, ?_⟩
  · by_cases hbad : BadFetchArgs args
    · exact .inl hbad
    · refine .inr (short_of_faithful hbad ((h Unit eagerEngine eagerEnv _).resolve_right ?_))
      rintro ⟨hnil, -⟩
      rw [eager_events hbad] at hnil
      cases hnil
  · obtain hbad | ⟨hhost, hrest⟩ := h
    · exact .inr (refused_of_badArgs G env turns hbad)
    · exact .inl (faithful_of_short G env turns hhost hrest)
  · have heq : (Conn.init G (newConfig host serverName port connectTimeoutTicks
        handshakeTimeoutTicks)).hostPort = host.bytes.take 250 ++ 58 :: decimal port.toNat :=
      hostPort_eq rfl rfl
    simp only [ostlsNew_eq]
    constructor
    · intro h
      by_cases hr : RefusedConfig (newConfig host serverName port connectTimeoutTicks
          handshakeTimeoutTicks)
      · exact .inl hr
      cases hok : allocOk with
      | false => exact .inr (.inl rfl)
      | true =>
        have hexact := h _ ⟨hr, hok, rfl⟩
        rw [heq, List.append_cancel_right_eq, List.take_eq_self_iff] at hexact
        exact .inr (.inr hexact)
    · rintro h conn ⟨hr, hok, rfl⟩
      obtain hr' | hno | hshort := h
      · exact absurd hr' hr
      · rw [hok] at hno
        cases hno
      · rw [heq, List.take_of_length_le hshort]

/-- A fetch of a path of 81 bytes. -/
def longPathArgs : FetchArgs where
  host := .lit "a"
  port := 443
  serverName := .lit "a"
  path := ⟨List.replicate 81 47, by decide⟩
  outCap := 1024
  outMsgLen := 180

/-- The last byte of the path is missing from the request that is sent. -/
theorem target_altered :
    let run := ostlsFetch eagerEngine longPathArgs eagerEnv [⟨0, 0, .ok []⟩]
    ¬(Faithful longPathArgs run.events ∨ run.Refused) := by
  have hgood : ¬BadFetchArgs longPathArgs := by
    unfold BadFetchArgs
    decide
  rintro run (hf | hrefused)
  · exact absurd (short_of_faithful hgood hf).2.1 (by decide)
  · have hnil := hrefused.1
    rw [eager_events hgood] at hnil
    cases hnil

end MacTLS
