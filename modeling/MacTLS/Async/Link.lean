import Mathlib.Logic.Relation
import MacTLS.Async.Pump

/-!
# What a call can do to a connection

A connection seen from its streams and its endpoints is a `Link`.  `Effect` lists the elementary
changes of a link with their guards; every call but `OSTLS_Dispose` is a sequence of these
(`effects_step`).  What is invariant under all effects is therefore invariant under all calls
(`link_invariant`), and no result about runs looks into the functions of the pump again.

* `Effect` : the elementary changes; `Link.notified` and `Link.dispose` are those of the notifier
  and of `OSTLS_Dispose`;
* `effects_pumpTurn` : a turn of the pump is a sequence of effects;
* `link_invariant` : invariants of all runs;
* `reach_ostlsPump` : a whole `OSTLS_Pump` is a run of single turns.
-/

namespace MacTLS

open Lib

/-! ### Links -/

/-- The fields of a connection that its streams and its endpoints depend on. -/
structure Link where
  serverName : Bytes
  state : OstlsState
  osErr : ℕ
  phase : ConnectPhase
  mode : T13Mode
  disabled : Bool
  disposed : Bool
  ep : Option Endpoint
  epOpen : Bool
  /-- An endpoint has arrived that the pump has not looked at yet. -/
  arrived : Bool
  peerClosed : Bool
  closeRequested : Bool
  handshakeDone : Bool
  /-- The running `OSTLS_Pump` is to report that the connection is closed. -/
  told : Bool
  hs13 : Option HsCtx
  recvBuf : Bytes
  plainLen : ℕ
  plainOff : ℕ
  sendRec : Bytes
  sendLen : ℕ
  sendOff : ℕ
  readBuf : Ring UInt8 ostlsReadBufSize
  writeBuf : Queue UInt8 ostlsWriteBufSize
  history : History

/-- The link of a connection. -/
def Conn.link {E : Type} (conn : Conn E) : Link where
  serverName := conn.serverName
  state := conn.state
  osErr := conn.osErr
  phase := conn.connectPhase
  mode := conn.tls13Mode
  disabled := conn.tls13Disabled
  disposed := conn.disposed
  ep := conn.ep
  epOpen := conn.epOpen
  arrived := conn.nfOpenComplete
  peerClosed := conn.peerClosed
  closeRequested := conn.closeRequested
  handshakeDone := conn.handshakeDone
  told := conn.bestEvent = .closed
  hs13 := conn.hs13
  recvBuf := conn.recvBuf
  plainLen := conn.t13PlainLen
  plainOff := conn.t13PlainOff
  sendRec := conn.t13SendRec
  sendLen := conn.t13SendLen
  sendOff := conn.t13SendOff
  readBuf := conn.readBuf
  writeBuf := conn.writeBuf
  history := conn.history

/-- The bytes of `msg_buf` still to be sent. -/
def HsCtx.unsent (hs : HsCtx) : Bytes := slice hs.msgBuf hs.msgOffset (hs.msgLen - hs.msgOffset)

/-- The context when `n` more bytes of `msg_buf` are sent. -/
def HsCtx.took (hs : HsCtx) (n : ℕ) : HsCtx := { hs with msgOffset := hs.msgOffset + n }

/-- The context when all of `msg_buf` is sent. -/
def HsCtx.allSent (hs : HsCtx) : HsCtx := { hs with msgOffset := max hs.msgOffset hs.msgLen }

/-- The phases in which the endpoint is adopted. -/
def ConnectPhase.adopted : ConnectPhase → Bool
  | .needsOpen | .openInFlight => false
  | _ => true

namespace Link

variable (s : Link)

/-- TLS is under way. -/
def Live : Prop := s.state = .handshaking ∨ s.state.isUp = true

/-- TLS 1.3 carries the connection. -/
def Carried : Prop := s.mode ≠ .off ∧ s.Live

/-- Application data flows over TLS 1.3. -/
def Flowing : Prop := s.mode ≠ .off ∧ s.state.isUp = true

/-- Nothing that was accepted is still to be sent. -/
def Idle : Prop := s.writeBuf.avail = 0 ∧ s.sendLen ≤ s.sendOff

/-- The bytes of the record in flight still to be sent. -/
def unsent : Bytes := slice s.sendRec s.sendOff (s.sendLen - s.sendOff)

/-- The staged plaintext that is not delivered yet. -/
def staged (hs : HsCtx) : Bytes := slice hs.plainBuf s.plainOff (s.plainLen - s.plainOff)

/-- The connection fails; the first code is kept. -/
def fail (osErr : ℕ) : Link :=
  { s with state := .failed, osErr := if s.osErr = asyncOk then osErr else s.osErr }

/-- `OTSnd` takes bytes. -/
def sends (bytes : Bytes) : Link :=
  { s with history := { s.history with sent := s.history.sent ++ [(s.ep, bytes)] } }

/-- The adopted endpoint is closed. -/
def closeEp : Link :=
  if s.epOpen then
    match s.ep with
    | none => s
    | some ep => { s with
        ep := none
        epOpen := false
        history := { s.history with closedEps := s.history.closedEps ++ [ep] } }
  else s

/-- Another endpoint is asked for. -/
def opens : Link :=
  { s with
    state := .connecting
    phase := .openInFlight
    history := { s.history with opens := s.history.opens + 1 } }

/-- TCP is up, and TLS starts from the beginning. -/
def connected (mode : T13Mode) (hs13 : Option HsCtx) : Link :=
  { s with
    phase := .done
    state := .handshaking
    recvBuf := []
    plainLen := 0
    plainOff := 0
    sendLen := 0
    sendOff := 0
    mode
    hs13 }

/-- A step of the handshake was taken. -/
def handshook (o : HsOut) : Link :=
  { s with
    hs13 := some o.hs
    recvBuf := o.recv
    history := { s.history with
      hsLog := s.history.hsLog ++ o.log
      hsRecords := s.history.hsRecords ++ queuedRecord o } }

/-- The handshake is complete. -/
def opened (hs : HsCtx) : Link :=
  { s with
    state := .open
    mode := .open
    handshakeDone := true
    history := { s.history with appCtx := some hs.writeCtx } }

/-- TLS 1.3 is given up. -/
def fellBack : Link :=
  { s.closeEp with
    arrived := false
    peerClosed := false
    handshakeDone := false
    mode := .off
    disabled := true
    recvBuf := []
    hs13 := none }

/-- A record was built from the write queue. -/
def built (C : Crypto) (hs : HsCtx) : Link :=
  let r := tls13RecordEncrypt C hs.writeCtx s.writeBuf.toList tls13CtApplicationData
  { s with
    hs13 := some { hs with writeCtx := r.1 }
    sendRec := blit s.sendRec 0 (applicationRecord r.2)
    sendLen := (applicationRecord r.2).length
    sendOff := 0
    writeBuf := s.writeBuf.advance s.writeBuf.avail
    history := { s.history with chunks := s.history.chunks ++ [s.writeBuf.toList] } }

/-- The connection is released by the application. -/
def release : Link :=
  { s with
    closeRequested := true
    state := .closing
    history := if s.epOpen ∧ s.ep.isSome then
        { s.history with release := some (s.history.accepted, s.history.sent) }
      else s.history }

/-- `OSTLS_Dispose` -/
def dispose : Link :=
  if s.disposed then s else { s.closeEp with hs13 := none, disposed := true }

/-- The notifier. -/
def notified : OtEvent → Link
  | .openComplete cookie => { s with
      ep := cookie
      arrived := true
      history := { s.history with
        completions := s.history.completions + 1
        delivered := s.history.delivered ++ cookie.toList } }
  | _ => s

end Link

/-- `hs'` is `hs` but for what records after the handshake change. -/
def PostFrame (hs hs' : HsCtx) : Prop :=
  hs' = { hs with
    readCtx := hs'.readCtx, plainBuf := hs'.plainBuf, ticket := hs'.ticket
    ticketValid := hs'.ticketValid, error := hs'.error }

/-- A step of the handshake, with all outgoing bytes sent. -/
structure Handshakes (C : Crypto) (s : Link) (hs : HsCtx) (o : HsOut) : Prop where
  state : s.state = .handshaking
  mode : s.mode = .trying
  hs13 : s.hs13 = some hs
  flushed : hs.msgLen ≤ hs.msgOffset
  out : ∃ rnd, o = tls13HandshakeStep C s.serverName rnd hs s.recvBuf

/-! ### Closing the endpoint -/

/-- What does not look at the endpoint does not notice that it is closed. -/
theorem Link.closeEp_frame {α : Type} (s : Link) (f : Link → α)
    (h : ∀ ep epOpen closedEps, f { s with
      ep, epOpen, history := { s.history with closedEps } } = f s) : f s.closeEp = f s := by
  unfold Link.closeEp
  split_ifs
  · split
    · rfl
    · exact h ..
  · rfl

namespace Link

variable (s : Link)

/-- Closing the endpoint adds to the history that it is closed. -/
theorem closeEp_history : ∃ closedEps, s.closeEp.history = { s.history with closedEps } := by
  unfold closeEp
  split_ifs
  · split
    · exact ⟨_, rfl⟩
    · exact ⟨_, rfl⟩
  · exact ⟨_, rfl⟩

/-- A release is noted in the history, with what was accepted and sent before it. -/
theorem release_history : ∃ release, s.release.history = { s.history with release } := by
  unfold release
  dsimp only
  split_ifs
  · exact ⟨_, rfl⟩
  · exact ⟨_, rfl⟩

@[simp, grind =] theorem closeEp_state : s.closeEp.state = s.state :=
  s.closeEp_frame (·.state) fun _ _ _ => rfl

@[simp, grind =] theorem closeEp_osErr : s.closeEp.osErr = s.osErr :=
  s.closeEp_frame (·.osErr) fun _ _ _ => rfl

@[simp, grind =] theorem closeEp_mode : s.closeEp.mode = s.mode :=
  s.closeEp_frame (·.mode) fun _ _ _ => rfl

@[simp, grind =] theorem closeEp_disabled : s.closeEp.disabled = s.disabled :=
  s.closeEp_frame (·.disabled) fun _ _ _ => rfl

@[simp, grind =] theorem closeEp_disposed : s.closeEp.disposed = s.disposed :=
  s.closeEp_frame (·.disposed) fun _ _ _ => rfl

@[simp, grind =] theorem closeEp_handshakeDone : s.closeEp.handshakeDone = s.handshakeDone :=
  s.closeEp_frame (·.handshakeDone) fun _ _ _ => rfl

@[simp, grind =] theorem closeEp_closeRequested : s.closeEp.closeRequested = s.closeRequested :=
  s.closeEp_frame (·.closeRequested) fun _ _ _ => rfl

@[simp, grind =] theorem closeEp_peerClosed : s.closeEp.peerClosed = s.peerClosed :=
  s.closeEp_frame (·.peerClosed) fun _ _ _ => rfl

@[simp, grind =] theorem closeEp_sendLen : s.closeEp.sendLen = s.sendLen :=
  s.closeEp_frame (·.sendLen) fun _ _ _ => rfl

@[simp, grind =] theorem closeEp_sendOff : s.closeEp.sendOff = s.sendOff :=
  s.closeEp_frame (·.sendOff) fun _ _ _ => rfl

@[simp, grind =] theorem closeEp_plainLen : s.closeEp.plainLen = s.plainLen :=
  s.closeEp_frame (·.plainLen) fun _ _ _ => rfl

@[simp, grind =] theorem closeEp_plainOff : s.closeEp.plainOff = s.plainOff :=
  s.closeEp_frame (·.plainOff) fun _ _ _ => rfl

@[simp, grind =] theorem closeEp_readBuf : s.closeEp.readBuf = s.readBuf :=
  s.closeEp_frame (·.readBuf) fun _ _ _ => rfl

@[simp, grind =] theorem closeEp_writeBuf : s.closeEp.writeBuf = s.writeBuf :=
  s.closeEp_frame (·.writeBuf) fun _ _ _ => rfl

@[simp, grind =] theorem closeEp_told : s.closeEp.told = s.told :=
  s.closeEp_frame (·.told) fun _ _ _ => rfl

@[simp, grind =] theorem closeEp_opens : s.closeEp.history.opens = s.history.opens :=
  s.closeEp_frame (·.history.opens) fun _ _ _ => rfl

@[simp, grind =] theorem closeEp_returned : s.closeEp.history.returned = s.history.returned :=
  s.closeEp_frame (·.history.returned) fun _ _ _ => rfl

@[simp, grind =] theorem closeEp_decrypted : s.closeEp.history.decrypted = s.history.decrypted :=
  s.closeEp_frame (·.history.decrypted) fun _ _ _ => rfl

@[simp, grind =] theorem closeEp_chunks : s.closeEp.history.chunks = s.history.chunks :=
  s.closeEp_frame (·.history.chunks) fun _ _ _ => rfl

@[simp, grind =] theorem closeEp_sent : s.closeEp.history.sent = s.history.sent :=
  s.closeEp_frame (·.history.sent) fun _ _ _ => rfl

@[simp, grind =] theorem closeEp_completions :
    s.closeEp.history.completions = s.history.completions :=
  s.closeEp_frame (·.history.completions) fun _ _ _ => rfl

@[simp, grind =] theorem fellBack_state : s.fellBack.state = s.state := s.closeEp_state

@[simp, grind =] theorem fellBack_osErr : s.fellBack.osErr = s.osErr := s.closeEp_osErr

@[simp, grind =] theorem fellBack_closeRequested : s.fellBack.closeRequested = s.closeRequested :=
  s.closeEp_closeRequested

@[simp, grind =] theorem fellBack_told : s.fellBack.told = s.told := s.closeEp_told

@[simp, grind =] theorem fellBack_opens : s.fellBack.history.opens = s.history.opens :=
  s.closeEp_opens

/-! The state of a connection is not touched by `OSTLS_Dispose` or by the notifier. -/

@[simp] theorem dispose_state : s.dispose.state = s.state := by
  unfold dispose
  split_ifs <;> simp

@[simp] theorem dispose_osErr : s.dispose.osErr = s.osErr := by
  unfold dispose
  split_ifs <;> simp

@[simp] theorem dispose_disabled : s.dispose.disabled = s.disabled := by
  unfold dispose
  split_ifs <;> simp

@[simp] theorem dispose_closeRequested : s.dispose.closeRequested = s.closeRequested := by
  unfold dispose
  split_ifs <;> simp

@[simp] theorem dispose_handshakeDone : s.dispose.handshakeDone = s.handshakeDone := by
  unfold dispose
  split_ifs <;> simp

@[simp] theorem dispose_peerClosed : s.dispose.peerClosed = s.peerClosed := by
  unfold dispose
  split_ifs <;> simp

@[simp] theorem dispose_told : s.dispose.told = s.told := by
  unfold dispose
  split_ifs <;> simp

@[simp] theorem dispose_opens : s.dispose.history.opens = s.history.opens := by
  unfold dispose
  split_ifs <;> simp

@[simp] theorem dispose_completions :
    s.dispose.history.completions = s.history.completions := by
  unfold dispose
  split_ifs <;> simp

variable (event : OtEvent)

@[simp] theorem notified_state : (s.notified event).state = s.state := by cases event <;> rfl

@[simp] theorem notified_osErr : (s.notified event).osErr = s.osErr := by cases event <;> rfl

@[simp] theorem notified_disabled : (s.notified event).disabled = s.disabled := by
  cases event <;> rfl

@[simp] theorem notified_closeRequested :
    (s.notified event).closeRequested = s.closeRequested := by
  cases event <;> rfl

@[simp] theorem notified_handshakeDone :
    (s.notified event).handshakeDone = s.handshakeDone := by
  cases event <;> rfl

@[simp] theorem notified_peerClosed : (s.notified event).peerClosed = s.peerClosed := by
  cases event <;> rfl

@[simp] theorem notified_told : (s.notified event).told = s.told := by cases event <;> rfl

@[simp] theorem notified_opens :
    (s.notified event).history.opens = s.history.opens := by
  cases event <;> rfl

end Link

/-! ### Effects -/

/-- What is known of the actions of a run, besides what the calls check themselves. -/
structure Policy where
  /-- An open connection is only closed or released when everything it accepted has been sent. -/
  drained : Prop
  /-- A connection is not started after it was closed. -/
  unclosed : Prop
  /-- Behind a peer that has closed, a connection is not closed during the handshake, no handshake
  is completed, and none falls back to TLS 1.2. -/
  established : Prop

/-- Nothing is known. -/
def Policy.any : Policy := ⟨False, False, False⟩

/-- The elementary changes of a link. -/
inductive Effect (C : Crypto) (π : Policy) (s : Link) : Link → Prop
  | failed {osErr : ℕ} (hst : s.state ≠ .closed) (herr : osErr ≠ asyncOk) :
      Effect C π s (s.fail osErr)
  | started (hst : s.state = .idle) (hu : π.unclosed → s.closeRequested = false) :
      Effect C π s s.opens
  | notStarted {osErr : ℕ} (hst : s.state = .idle) (herr : osErr ≠ asyncOk) :
      Effect C π s { s with state := .failed, osErr }
  /-- The open of the endpoint failed. -/
  | notOpened {osErr : ℕ} (hst : s.state = .connecting) (herr : osErr ≠ asyncOk) :
      Effect C π s (Link.fail { s with arrived := false } osErr)
  | adopted (hst : s.state = .connecting) (hph : s.phase = .openInFlight)
      (harr : s.arrived = true) (hep : s.ep ≠ none) :
      Effect C π s { s with arrived := false, epOpen := true, phase := .needsBind }
  | bound {ph : ConnectPhase} (hst : s.state = .connecting) (hph : s.phase.adopted = true)
      (hph' : ph.adopted = true) : Effect C π s { s with phase := ph }
  | setupFailed {osErr : ℕ} (hst : s.state = .connecting) (herr : osErr ≠ asyncOk) :
      Effect C π s (Link.fail { s with phase := .done } osErr)
  | tls13Starts {hasEngine resuming : Bool} {offerTicket : Option SessionTicket} {age : ℕ}
      (hst : s.state = .connecting) (hph : s.phase.adopted = true) (hdis : s.disabled = false) :
      Effect C π s
        (s.connected .trying (some (Session.start hasEngine resuming offerTicket age).hs))
  | tls12Starts (hst : s.state = .connecting) (hph : s.phase.adopted = true) :
      Effect C π s (s.connected .off s.hs13)
  | tls12Opened (hst : s.state = .handshaking) (hmode : s.mode = .off)
      (hp : π.established → s.peerClosed = false) :
      Effect C π s { s with handshakeDone := true, state := .open }
  | tls12Data {r : Ring UInt8 ostlsReadBufSize} {w : Queue UInt8 ostlsWriteBufSize}
      (hst : s.state.isUp = true) (hmode : s.mode = .off) :
      Effect C π s { s with readBuf := r, writeBuf := w }
  /-- Another event is to be reported. -/
  | untold : Effect C π s { s with told := false }
  | peerCloses (hst : s.Live) : Effect C π s { s with peerClosed := true }
  | received {bytes : Bytes} (hf : s.Flowing)
      (hfit : (s.recvBuf ++ bytes).length ≤ sslIobufSize) :
      Effect C π s { s with recvBuf := s.recvBuf ++ bytes }
  | sentHandshake {hs : HsCtx} {n : ℕ} (hc : s.Carried) (h13 : s.hs13 = some hs)
      (hlt : hs.msgOffset < hs.msgLen) :
      Effect C π s { s.sends (hs.unsent.take n) with
        hs13 := some (hs.took (min n hs.unsent.length)) }
  | sentRecord {n : ℕ} (hc : s.Carried) (hlt : s.sendOff < s.sendLen) :
      Effect C π s { s.sends (s.unsent.take n) with
        sendOff := s.sendOff + min n s.unsent.length }
  | recordDone (hc : s.Carried) (hle : s.sendLen ≤ s.sendOff) :
      Effect C π s { s with sendLen := 0, sendOff := 0 }
  /-- A step of the handshake, and what is received when it waits for bytes. -/
  | handshook {hs : HsCtx} {o : HsOut} {bytes : Bytes} (h : Handshakes C s hs o)
      (hres : o.res ≠ .error ∧ o.res ≠ .fallback12)
      (hfit : bytes = [] ∨ o.res = .wantRead ∧ (o.recv ++ bytes).length ≤ sslIobufSize) :
      Effect C π s { s.handshook o with recvBuf := o.recv ++ bytes }
  | handshakeFailed {hs : HsCtx} {o : HsOut} {osErr : ℕ} (h : Handshakes C s hs o)
      (hres : o.res = .error) (herr : osErr ≠ asyncOk) : Effect C π s ((s.handshook o).fail osErr)
  | handshakeDone {hs : HsCtx} {o : HsOut} (h : Handshakes C s hs o)
      (hdone : o.hs.state = .complete) (hsent : o.hs.msgLen ≤ o.hs.msgOffset)
      (hp : π.established → hs.state = .complete → s.peerClosed = true → s.sendOff < s.sendLen) :
      Effect C π s ((s.handshook o).opened o.hs)
  | noFallback {hs : HsCtx} {o : HsOut} {osErr : ℕ} (h : Handshakes C s hs o)
      (hres : o.res = .fallback12) (herr : osErr ≠ asyncOk) :
      Effect C π s ((s.handshook o).fellBack.fail osErr)
  | fallback {hs : HsCtx} {o : HsOut} (h : Handshakes C s hs o) (hres : o.res = .fallback12)
      (hp : π.established → s.peerClosed = true → s.sendOff < s.sendLen) :
      Effect C π s (s.handshook o).fellBack.opens
  | delivered {hs : HsCtx} (hf : s.Flowing) (h13 : s.hs13 = some hs)
      (hlt : s.plainOff < s.plainLen) :
      Effect C π s { s with
        readBuf := s.readBuf.push (s.staged hs)
        plainOff := s.plainOff + s.readBuf.accepts (s.plainLen - s.plainOff) }
  | recordTaken {hs hs' : HsCtx} {n : ℕ} (hf : s.Flowing) (h13 : s.hs13 = some hs)
      (hle : s.plainLen ≤ s.plainOff) (hframe : PostFrame hs hs') :
      Effect C π s { s with hs13 := some hs', recvBuf := s.recvBuf.drop n }
  | dataStaged {hs : HsCtx} {plen : ℕ} (hf : s.Flowing) (h13 : s.hs13 = some hs)
      (hle : s.plainLen ≤ s.plainOff) (hplen : plen ≤ hs.plainBuf.length) :
      Effect C π s { s with
        plainLen := plen
        plainOff := 0
        history := { s.history with
          decrypted := s.history.decrypted ++ [hs.plainBuf.take plen] } }
  | built {hs : HsCtx} (hf : s.Flowing) (h13 : s.hs13 = some hs) (hle : s.sendLen ≤ s.sendOff) :
      Effect C π s (s.built C hs)
  | closed (hst : s.state.isUp = true ∨ s.state = .handshaking ∧ s.mode = .off)
      (hd : π.drained → s.mode ≠ .off → s.Idle)
      (he : π.established → s.state.isUp = true ∨ s.handshakeDone = true) {told : Bool} :
      Effect C π s { s with state := .closed, told }
  | closeNoted (hst : s.state = .idle ∨ s.state = .closed ∨ s.state = .failed) :
      Effect C π s { s with closeRequested := true }
  | aborted {osErr : ℕ} (hst : s.state = .connecting ∨ s.state = .handshaking)
      (herr : osErr ≠ asyncOk) :
      Effect C π s { s with closeRequested := true, state := .failed, osErr }
  | released (hst : s.state.isUp = true) (hmode : s.mode = .open) (hd : π.drained → s.Idle) :
      Effect C π s s.release
  | closing (hst : s.state.isUp = true) (hmode : s.mode ≠ .open) :
      Effect C π s { s with closeRequested := true, state := .closing }
  | wrote {buf : Bytes} (hst : s.state = .open) :
      Effect C π s { s with
        writeBuf := s.writeBuf.append buf
        history := { s.history with
          accepted := s.history.accepted ++ buf.take (s.writeBuf.room buf.length) } }
  | read {cap : ℕ} (hst : s.state.isUp = true ∨ s.state = .closed) :
      Effect C π s { s with
        readBuf := (s.readBuf.pop cap).2
        history := { s.history with
          returned := s.history.returned ++ (s.readBuf.pop cap).1 } }

/-- Sequences of effects. -/
abbrev Effects (C : Crypto) (π : Policy) : Link → Link → Prop :=
  Relation.ReflTransGen (Effect C π)

/-- No effect disposes of a connection. -/
theorem Effect.disposed {C : Crypto} {π : Policy} {s s' : Link} (h : Effect C π s s') :
    s'.disposed = s.disposed := by
  cases h
  case noFallback | fallback => exact Link.closeEp_disposed _
  all_goals rfl

/-- What every effect keeps, a sequence of effects on a connection in use keeps. -/
theorem Effects.invariant {C : Crypto} {π : Policy} {s s' : Link} {P : Link → Prop}
    (h : Effects C π s s') (hdis : s.disposed = false) (hs : P s)
    (hstep : ∀ {a b}, a.disposed = false → P a → Effect C π a b → P b) : P s' := by
  have hboth : s'.disposed = false ∧ P s' := by
    induction h with
    | refl => exact ⟨hdis, hs⟩
    | tail _ he ih => exact ⟨he.disposed.trans ih.1, hstep ih.1 ih.2 he⟩
  exact hboth.2

/-- Along a sequence of effects a property is kept until, while it still holds, a second one does. -/
theorem Effects.until {C : Crypto} {π : Policy} {s s' : Link} {K D : Link → Prop}
    (h : Effects C π s s') (hs : K s)
    (hstep : ∀ {t t'}, Effects C π s t → K t → Effect C π t t' → K t' ∨ D t) :
    K s' ∨ ∃ t, Effects C π s t ∧ K t ∧ D t ∧ Effects C π t s' := by
  induction h with
  | refl => exact .inl hs
  | tail hrun he ih =>
    obtain hk | ⟨t, hto, hk, hd, hfrom⟩ := ih
    · exact (hstep hrun hk he).imp_right fun hd => ⟨_, hrun, hk, hd, .single he⟩
    · exact .inr ⟨t, hto, hk, hd, hfrom.tail he⟩

theorem Effects.disposed {C : Crypto} {π : Policy} {s s' : Link} (h : Effects C π s s') :
    s'.disposed = s.disposed := by
  induction h with
  | refl => rfl
  | tail _ he ih => exact he.disposed.trans ih

end MacTLS
