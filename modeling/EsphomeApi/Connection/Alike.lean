/-
EsphomeApi.Connection.Alike — two connections side by side.

`Alike R before s t` says that `s` has done what `t` has done, after an earlier
history `before`: the members that decide anything are equal, the frame helpers
are related by `R`, and `s` may hold more: the `hello` of an earlier session,
which the machine does not read and `server_hello()` returns until the next one,
the ids of timers that are gone, and callbacks that the transport still owes.
When `R` is a bisimulation of the helpers and the surroundings do the same to
both, every function of the machine keeps `Alike`; for the callbacks of the
transport this takes that the same callback is there on both sides
(`SameHolders`).
-/
import EsphomeApi.Connection.Acts
import EsphomeApi.Connection.Timers

namespace EsphomeApi

open Proto Library

variable {σ τ : Type}

/-! ## Timers -/

/-- The same timer; or a timer that is gone against none. -/
def SameTimer (executor : Executor) (p q : TimerId) : Prop :=
  p < executor.nextId ∧ (p = q ∨ q = invalidTimer ∧ ∀ timer ∈ executor.timers, timer.id ≠ p)

theorem SameTimer.cleared {executor : Executor} {p q : TimerId} (h : SameTimer executor p q) :
    SameTimer executor invalidTimer invalidTimer :=
  ⟨Nat.lt_of_le_of_lt (Nat.zero_le p) h.1, .inl rfl⟩

/-- A timer more. -/
theorem SameTimer.scheduled {executor : Executor} {p q : TimerId} (h : SameTimer executor p q)
    (deadline : Int) (callback : TimerCallback) :
    SameTimer { executor with
      nextId := executor.nextId + 1
      timers := executor.timers ++ [⟨executor.nextId, deadline, callback⟩] } p q := by
  obtain ⟨hlt, hsame | ⟨hnone, hgone⟩⟩ := h
  · exact ⟨Nat.lt_succ_of_lt hlt, .inl hsame⟩
  · refine ⟨Nat.lt_succ_of_lt hlt, .inr ⟨hnone, fun timer htimer => ?_⟩⟩
    rcases List.mem_append.mp htimer with hold | hnew
    · exact hgone timer hold
    · rw [List.mem_singleton.mp hnew]
      exact Nat.ne_of_gt hlt

/-- The timer just scheduled. -/
theorem SameTimer.fresh (executor : Executor) (timers : List Timer) :
    SameTimer { executor with nextId := executor.nextId + 1, timers := timers }
      executor.nextId executor.nextId :=
  ⟨Nat.lt_succ_self _, .inl rfl⟩

/-- Fewer timers. -/
theorem SameTimer.filtered {executor : Executor} {p q : TimerId} (h : SameTimer executor p q)
    (keep : Timer → Bool) :
    SameTimer { executor with timers := executor.timers.filter keep } p q := by
  obtain ⟨hlt, hsame | ⟨hnone, hgone⟩⟩ := h
  · exact ⟨hlt, .inl hsame⟩
  · exact ⟨hlt, .inr ⟨hnone, fun timer htimer => hgone timer (List.mem_of_mem_filter htimer)⟩⟩

namespace Connection

/-- `s` has done what `t` has done, after an earlier history. -/
structure Alike (R : σ → τ → Prop) (before : List Output) (s : Connection σ)
    (t : Connection τ) : Prop where
  options : s.options = t.options
  frameHelper : R s.frameHelper t.frameHelper
  state : s.state = t.state
  handlers : s.handlers = t.handlers
  anyHandler : s.anyHandler = t.anyHandler
  rawHandler : s.rawHandler = t.rawHandler
  stateHandler : s.stateHandler = t.stateHandler
  errorHandler : s.errorHandler = t.errorHandler
  connectHandler : s.connectHandler = t.connectHandler
  lastError : s.lastError = t.lastError
  awaitingPong : s.awaitingPong = t.awaitingPong
  executor : s.executor = t.executor
  connectTimer : SameTimer s.executor s.connectTimer t.connectTimer
  pingTimer : SameTimer s.executor s.pingTimer t.pingTimer
  pongTimer : SameTimer s.executor s.pongTimer t.pongTimer
  connects : t.transport.connects ≤ s.transport.connects
  reading : t.transport.reading = true → s.transport.reading = true
  completions : t.transport.completions ≤ s.transport.completions
  log : s.log = before ++ t.log

/-- The callback that an event runs is there on both sides, or on none. -/
def SameHolders (s : Connection σ) (t : Connection τ) : Event → Prop
  | .connectResult _ => s.transport.connects = 0 ↔ t.transport.connects = 0
  | .bytes _ => s.transport.reading = t.transport.reading
  | .readError _ => s.transport.reading = t.transport.reading
  | .writeDone => s.transport.completions = 0 ↔ t.transport.completions = 0
  | _ => True

/-- Surroundings that do the same to two connections. -/
structure Parallel (E : Environment σ) (F : Environment τ) (R : σ → τ → Prop)
    (before : List Output) : Prop where
  helper : Bisimulation E.helper F.helper R
  registry : E.registry = F.registry
  calls : ∀ call {s t}, Alike R before s t → E.calls call s = F.calls call t
  inline : ∀ {s t}, Alike R before s t → E.inline s = F.inline t
  cancels : ∀ id {s t}, Alike R before s t → E.cancels s id = F.cancels t id

variable {E : Environment σ} {F : Environment τ} {R : σ → τ → Prop} {before : List Output}
  {s : Connection σ} {t : Connection τ}

/-- A change of state is the assignment, and a call where a handler is set. -/
theorem setStateWith_of_ne (E : Environment σ) (d : Connection σ → Connection σ)
    {state : ConnectionState} (hne : state ≠ s.state) :
    setStateWith E d state s = (assign state s).stateHandler.elim (assign state s)
      fun handler => invokeWith E d (.state handler state) (assign state s) := by
  unfold setStateWith
  rw [if_neg hne]
  dsimp only
  split
  · rename_i handler hset
    have hhandler : (assign state s).stateHandler = some handler := hset
    rw [hhandler]
    rfl
  · rename_i hset
    have hhandler : (assign state s).stateHandler = none := hset
    rw [hhandler]
    rfl

namespace Alike

theorem emit (o : Output) (h : Alike R before s t) : Alike R before (emit o s) (emit o t) :=
  { h with log := by rw [Connection.emit, Connection.emit, h.log, List.append_assoc] }

/-! ## Executor -/

theorem schedule (delay : Int) (callback : TimerCallback) (h : Alike R before s t) :
    Alike R before (schedule delay callback s) (schedule delay callback t) :=
  { h with
    executor := by rw [Connection.schedule, Connection.schedule, h.executor]
    connectTimer := h.connectTimer.scheduled _ _
    pingTimer := h.pingTimer.scheduled _ _
    pongTimer := h.pongTimer.scheduled _ _ }

/-- Timers are dropped on both sides. -/
theorem takeTimer (id : TimerId) (h : Alike R before s t) :
    Alike R before (takeTimer id s) (takeTimer id t) :=
  { h with
    executor := by rw [Connection.takeTimer, Connection.takeTimer, h.executor]
    connectTimer := h.connectTimer.filtered _
    pingTimer := h.pingTimer.filtered _
    pongTimer := h.pongTimer.filtered _ }

variable (hP : Parallel E F R before)

include hP

theorem cancel (id : TimerId) (h : Alike R before s t) :
    Alike R before (cancel E id s) (cancel F id t) := by
  unfold Connection.cancel
  rw [hP.cancels id h]
  split
  · exact h.takeTimer id
  · exact h

theorem cancelAny {p q : TimerId} (hsame : SameTimer s.executor p q) (h : Alike R before s t) :
    Alike R before (cancelAny E p s) (cancelAny F q t) := by
  unfold Connection.cancelAny
  obtain ⟨-, rfl | ⟨rfl, hgone⟩⟩ := hsame
  · split
    · exact h
    · exact h.cancel hP p
  · rw [if_pos rfl]
    split
    · exact h
    · rw [cancel_gone hgone]
      exact h

theorem cancelConnectTimer (h : Alike R before s t) :
    Alike R before (cancelConnectTimer E s) (cancelConnectTimer F t) := by
  have hcancelled := h.cancelAny hP h.connectTimer
  rw [cancelConnectTimer_eq, cancelConnectTimer_eq]
  exact { hcancelled with connectTimer := hcancelled.connectTimer.cleared }

theorem cancelPingTimer (h : Alike R before s t) :
    Alike R before (cancelPingTimer E s) (cancelPingTimer F t) := by
  have hcancelled := h.cancelAny hP h.pingTimer
  rw [cancelPingTimer_eq, cancelPingTimer_eq]
  exact { hcancelled with pingTimer := hcancelled.pingTimer.cleared }

theorem cancelPongTimer (h : Alike R before s t) :
    Alike R before (cancelPongTimer E s) (cancelPongTimer F t) := by
  have hcancelled := h.cancelAny hP h.pongTimer
  rw [cancelPongTimer_eq, cancelPongTimer_eq]
  exact { hcancelled with pongTimer := hcancelled.pongTimer.cleared }

theorem stopKeepalive (h : Alike R before s t) :
    Alike R before (stopKeepalive E s) (stopKeepalive F t) :=
  { (h.cancelPingTimer hP).cancelPongTimer hP with awaitingPong := rfl }

/-! ## Sending -/

theorem sendRaw (writer : Writer) (type : UInt32) (payload : Bytes) (h : Alike R before s t) :
    Alike R before (sendRaw E writer type payload s) (sendRaw F writer type payload t) := by
  obtain ⟨hwire, hhelper⟩ := hP.helper.encode type payload h.frameHelper
  unfold Connection.sendRaw
  dsimp only
  rw [hwire]
  exact Alike.emit _ { h with frameHelper := hhelper }

theorem send (type : UInt32) (fields : Fields) (v : fields.Value) (h : Alike R before s t) :
    Alike R before (send E type fields v s) (send F type fields v t) :=
  h.sendRaw hP _ _ _

theorem sendHello (h : Alike R before s t) :
    Alike R before (sendHello E s) (sendHello F t) := by
  unfold Connection.sendHello
  rw [h.options]
  have hsent := h.send hP MessageId.helloRequest HelloRequest
    (t.options.clientInfo, clientApiVersionMajor, clientApiVersionMinor, ())
  dsimp only
  rw [hsent.options]
  split
  · exact hsent.send hP _ _ _
  · exact hsent

omit hP in
theorem closeTransport (h : Alike R before s t) :
    Alike R before (closeTransport s) (closeTransport t) :=
  Alike.emit _ { h with }

/-! ## Handlers -/

theorem on (type : UInt32) (handler : Option HandlerId) (h : Alike R before s t) :
    Alike R before (on E type handler s) (on F type handler t) := by
  unfold Connection.on
  rw [hP.registry]
  split
  · exact { h with handlers := by rw [h.handlers] }
  · exact h

section Calls

variable {d : Connection σ → Connection σ} {d' : Connection τ → Connection τ}
  (hd : ∀ {s t}, Alike R before s t → Alike R before (d s) (d' t))

include hd

theorem perform (call : Call) (h : Alike R before s t) :
    Alike R before (perform E d call s) (perform F d' call t) := by
  cases call with
  | disconnect => exact hd h
  | sendRaw type payload => exact h.sendRaw hP _ _ _
  | on type handler => exact h.on hP type handler
  | onAny handler => exact { h with anyHandler := rfl }
  | onRaw handler => exact { h with rawHandler := rfl }
  | onState handler => exact { h with stateHandler := rfl }
  | onError handler => exact { h with errorHandler := rfl }

theorem foldl_perform (calls : List Call) (h : Alike R before s t) :
    Alike R before (calls.foldl (fun s c => Connection.perform E d c s) s)
      (calls.foldl (fun t c => Connection.perform F d' c t) t) := by
  induction calls generalizing s t with
  | nil => exact h
  | cons c calls ih => exact ih (h.perform hP hd c)

theorem invokeWith (call : Invocation) (h : Alike R before s t) :
    Alike R before (invokeWith E d call s) (invokeWith F d' call t) := by
  have hinvoked := h.emit (.invoked call)
  unfold Connection.invokeWith
  dsimp only
  rw [hP.calls call hinvoked]
  exact hinvoked.foldl_perform hP hd _

/-- A change of state, from states that may differ. -/
theorem assigned {state : ConnectionState} (hs : state ≠ s.state) (ht : state ≠ t.state)
    (h : Alike R before (assign state s) (assign state t)) :
    Alike R before (setStateWith E d state s) (setStateWith F d' state t) := by
  rw [setStateWith_of_ne E d hs, setStateWith_of_ne F d' ht, h.stateHandler]
  cases (assign state t).stateHandler with
  | some handler => exact h.invokeWith hP hd _
  | none => exact h

theorem setStateWith (state : ConnectionState) (h : Alike R before s t) :
    Alike R before (setStateWith E d state s) (setStateWith F d' state t) := by
  by_cases hstate : state = t.state
  · unfold Connection.setStateWith
    rw [if_pos (hstate.trans h.state.symm), if_pos hstate]
    exact h
  · exact assigned hP hd (h.state ▸ hstate) hstate (Alike.emit _ { h with state := rfl })

end Calls

/-! ## Closing -/

theorem finishDisconnect (h : Alike R before s t) :
    Alike R before (finishDisconnect E s) (finishDisconnect F t) :=
  h.closeTransport.setStateWith hP (fun h => h) _

theorem disconnect (h : Alike R before s t) :
    Alike R before (disconnect E s) (disconnect F t) := by
  unfold Connection.disconnect
  rw [h.state]
  split
  · exact h
  · have hsent := ((h.stopKeepalive hP).setStateWith hP (fun h => h) .closing).send hP
      MessageId.disconnectRequest EmptyMessage ()
    dsimp only
    rw [hP.inline h]
    split
    · exact hsent.finishDisconnect hP
    · exact { hsent with completions := Nat.succ_le_succ hsent.completions }

theorem invoke (call : Invocation) (h : Alike R before s t) :
    Alike R before (invoke E call s) (invoke F call t) :=
  h.invokeWith hP (fun h => h.disconnect hP) call

theorem setState (state : ConnectionState) (h : Alike R before s t) :
    Alike R before (setState E state s) (setState F state t) :=
  h.setStateWith hP (fun h => h.disconnect hP) state

theorem finishConnect (ec : Option ErrorCode) (h : Alike R before s t) :
    Alike R before (finishConnect E ec s) (finishConnect F ec t) := by
  unfold Connection.finishConnect
  rw [h.connectHandler]
  split
  · exact Alike.invoke hP _ { h with connectHandler := rfl }
  · exact h

theorem fail (ec : ErrorCode) (what : CString) (h : Alike R before s t) :
    Alike R before (fail E ec what s) (fail F ec what t) := by
  unfold Connection.fail
  rw [h.state]
  split
  · exact h
  · have hclosed := ((h.stopKeepalive hP).cancelConnectTimer hP).closeTransport
    have hfailed := hclosed.setState hP .failed
    dsimp only
    rw [hclosed.connectHandler]
    split
    · exact hfailed.finishConnect hP _
    · rw [hfailed.errorHandler]
      split
      · exact hfailed.invoke hP _
      · exact hfailed

/-! ## Messages -/

omit hP in
theorem startKeepalive (h : Alike R before s t) :
    Alike R before (startKeepalive s) (startKeepalive t) := by
  unfold Connection.startKeepalive
  rw [h.options]
  split
  · exact h
  · exact { h.schedule _ .ping with
      pingTimer := h.executor ▸ SameTimer.fresh _ _ }

theorem handleHelloResponse (v : HelloResponse.Value) (h : Alike R before s t) :
    Alike R before (handleHelloResponse E v s) (handleHelloResponse F v t) := by
  unfold Connection.handleHelloResponse
  rw [h.state, h.options]
  split
  · exact h
  · have hhello : Alike R before
        { s with options := t.options, state := t.state, hello := ServerHello.ofResponse v }
        { t with hello := ServerHello.ofResponse v } := { h with options := rfl, state := rfl }
    dsimp only
    split
    · exact hhello.fail hP _ _
    · split
      · exact hhello.fail hP _ _
      · exact (((hhello.cancelConnectTimer hP).setState hP .connected).startKeepalive).finishConnect
          hP none

theorem handleAuthenticationResponse (v : AuthenticationResponse.Value)
    (h : Alike R before s t) :
    Alike R before (handleAuthenticationResponse E v s) (handleAuthenticationResponse F v t) := by
  unfold Connection.handleAuthenticationResponse
  split
  · exact h.fail hP _ _
  · exact h

theorem handleDisconnectResponse (h : Alike R before s t) :
    Alike R before (handleDisconnectResponse E s) (handleDisconnectResponse F t) :=
  (h.stopKeepalive hP).closeTransport.setState hP .closed

theorem handleDisconnectRequest (h : Alike R before s t) :
    Alike R before (handleDisconnectRequest E s) (handleDisconnectRequest F t) := by
  have hsent := h.send hP MessageId.disconnectResponse EmptyMessage ()
  exact (hsent.handleDisconnectResponse hP).finishConnect hP _

theorem handlePingResponse (h : Alike R before s t) :
    Alike R before (handlePingResponse E s) (handlePingResponse F t) :=
  Alike.cancelPongTimer hP { h with awaitingPong := rfl }

theorem handleInternal (msg : ProtoMessage) (h : Alike R before s t) :
    Alike R before (handleInternal E msg s) (handleInternal F msg t) := by
  cases msg with
  | helloResponse v => exact h.handleHelloResponse hP v
  | authenticationResponse v => exact h.handleAuthenticationResponse hP v
  | disconnectRequest => exact h.handleDisconnectRequest hP
  | disconnectResponse => exact h.handleDisconnectResponse hP
  | pingRequest => exact h.send hP _ _ _
  | pingResponse => exact h.handlePingResponse hP
  | _ => exact h

/-! ## Inbound frames -/

theorem invokeRaw (frame : Frame) (h : Alike R before s t) :
    Alike R before (invokeRaw E frame s) (invokeRaw F frame t) := by
  unfold Connection.invokeRaw
  rw [h.rawHandler]
  split
  · exact h.invoke hP _
  · exact h

theorem invokeMessage (type : UInt32) (msg : ProtoMessage) (h : Alike R before s t) :
    Alike R before (invokeMessage E type msg s) (invokeMessage F type msg t) := by
  unfold Connection.invokeMessage
  rw [hP.registry, h.handlers]
  split
  · split
    · exact h.invoke hP _
    · exact h
  · exact h

theorem invokeAny (msg : ProtoMessage) (h : Alike R before s t) :
    Alike R before (invokeAny E msg s) (invokeAny F msg t) := by
  unfold Connection.invokeAny
  rw [h.anyHandler]
  split
  · exact h.invoke hP _
  · exact h

theorem handleMessage (type : UInt32) (msg : ProtoMessage) (h : Alike R before s t) :
    Alike R before (handleMessage E type msg s) (handleMessage F type msg t) := by
  have hinternal := h.handleInternal hP msg
  unfold Connection.handleMessage
  dsimp only
  rw [hinternal.state]
  split
  · exact hinternal
  · exact (hinternal.invokeMessage hP type msg).invokeAny hP msg

theorem handleFrame (frame : Frame) (h : Alike R before s t) :
    Alike R before (handleFrame E frame s) (handleFrame F frame t) := by
  have hraw := h.invokeRaw hP frame
  unfold Connection.handleFrame
  dsimp only
  rw [hP.registry]
  cases F.registry.create frame.type with
  | none => exact hraw
  | some parse =>
      dsimp only
      cases parse frame.payload with
      | none => exact hraw.fail hP _ _
      | some msg => exact hraw.handleMessage hP frame.type msg

theorem onReady (h : Alike R before s t) : Alike R before (onReady E s) (onReady F t) :=
  (h.sendHello hP).setState hP .helloSent

theorem onException (e : ApiException) (h : Alike R before s t) :
    Alike R before (onException E e s) (onException F e t) := by
  unfold Connection.onException
  split
  · exact Alike.fail hP _ _ { h with lastError := rfl }
  · exact h

/-- A turn of the loop keeps two connections alike, and both go on or stop. -/
theorem drainTurn (h : Alike R before s t) :
    Alike R before (drainTurn E s).1 (drainTurn F t).1 ∧ (drainTurn E s).2 = (drainTurn F t).2 := by
  obtain ⟨hout, hhelper⟩ := hP.helper.advance h.frameHelper
  have hadvanced : Alike R before { s with frameHelper := (E.helper.advance s.frameHelper).2 }
      { t with frameHelper := (F.helper.advance t.frameHelper).2 } :=
    { h with frameHelper := hhelper }
  unfold Connection.drainTurn
  dsimp only
  rw [hout]
  cases (F.helper.advance t.frameHelper).1 with
  | needMore => exact ⟨hadvanced, rfl⟩
  | throws e => exact ⟨hadvanced.onException hP e, rfl⟩
  | silent => exact ⟨hadvanced, rfl⟩
  | ready => exact ⟨hadvanced.onReady hP, rfl⟩
  | error what => exact ⟨Alike.fail hP _ _ { hadvanced with lastError := rfl }, rfl⟩
  | ok frame =>
      have hframe := hadvanced.handleFrame hP frame
      exact ⟨hframe, by dsimp only; rw [hframe.state]⟩

theorem drainFrames (h : Alike R before s t) :
    Alike R before (drainFrames E s) (drainFrames F t) := by
  unfold Connection.drainFrames
  rw [hP.helper.buffered h.frameHelper]
  exact loop_related (fun _ _ h => h.drainTurn hP) _ _ _ h

theorem onBytes (data : Bytes) (h : Alike R before s t) :
    Alike R before (onBytes E data s) (onBytes F data t) :=
  Alike.drainFrames hP { h with frameHelper := hP.helper.feed data h.frameHelper }

theorem onReadError (ec : ErrorCode) (h : Alike R before s t) :
    Alike R before (onReadError E ec s) (onReadError F ec t) := by
  unfold Connection.onReadError
  rw [h.state]
  split
  · exact h
  · exact h.fail hP _ _

/-! ## Connecting -/

omit hP in
/-- What `start` does once the state is `Connecting`. -/
theorem connect (host : CString) (port : UInt16) (h : Alike R before s t) :
    Alike R before
      (Connection.emit (.connect host port)
        { Connection.schedule s.options.connectTimeout .connectTimeout s with
          connectTimer := s.executor.nextId
          transport := { s.transport with
            connects := s.transport.connects + 1, closed := false } })
      (Connection.emit (.connect host port)
        { Connection.schedule t.options.connectTimeout .connectTimeout t with
          connectTimer := t.executor.nextId
          transport := { t.transport with
            connects := t.transport.connects + 1, closed := false } }) := by
  rw [h.options]
  have hscheduled := h.schedule t.options.connectTimeout .connectTimeout
  exact Alike.emit _ { hscheduled with
    connectTimer := h.executor ▸ SameTimer.fresh _ _
    connects := Nat.succ_le_succ h.connects }

theorem onConnectedTransport (ec : Option ErrorCode) (h : Alike R before s t) :
    Alike R before (onConnectedTransport E ec s) (onConnectedTransport F ec t) := by
  cases ec with
  | some ec => exact h.fail hP _ _
  | none =>
      have hreading : Alike R before (startRead s) (startRead t) :=
        Alike.emit _ { h with reading := fun _ => rfl }
      obtain ⟨hinitial, hhelper⟩ :=
        hP.helper.connectBytes (hP.helper.setHandshakeHandlers hreading.frameHelper)
      unfold Connection.onConnectedTransport
      dsimp only
      rw [hP.helper.needsHandshake, hinitial]
      split
      · split
        · exact { hreading with frameHelper := hhelper }
        · exact Alike.emit _ { hreading with frameHelper := hhelper }
      · exact hreading.onReady hP

/-! ## Timers -/

theorem sendPing (h : Alike R before s t) : Alike R before (sendPing E s) (sendPing F t) := by
  unfold Connection.sendPing
  rw [h.state]
  split
  · exact h
  · have hsent := h.send hP MessageId.pingRequest EmptyMessage ()
    have hawaiting : ∀ {s t}, Alike R before s t → Alike R before
        { Connection.schedule s.options.keepaliveInterval .ping s with
          pingTimer := s.executor.nextId }
        { Connection.schedule t.options.keepaliveInterval .ping t with
          pingTimer := t.executor.nextId } := by
      intro s t h
      rw [h.options]
      exact { h.schedule _ .ping with pingTimer := h.executor ▸ SameTimer.fresh _ _ }
    dsimp only
    refine hawaiting ?_
    rw [hsent.awaitingPong, hsent.options]
    split
    · exact hsent
    · exact { hsent.schedule _ .pongTimeout with
        awaitingPong := rfl
        pongTimer := hsent.executor ▸ SameTimer.fresh _ _ }

theorem runTimer (callback : TimerCallback) (h : Alike R before s t) :
    Alike R before (runTimer E callback s) (runTimer F callback t) := by
  unfold Connection.runTimer
  cases callback with
  | connectTimeout =>
      dsimp only
      rw [h.state]
      split
      · exact h.fail hP _ _
      · exact h
  | ping => exact h.sendPing hP
  | pongTimeout =>
      dsimp only
      rw [h.awaitingPong]
      have hcleared : Alike R before
          { s with awaitingPong := t.awaitingPong, pongTimer := invalidTimer }
          { t with pongTimer := invalidTimer } :=
        { h with awaitingPong := rfl, pongTimer := h.pongTimer.cleared }
      split
      · exact hcleared.fail hP _ _
      · exact hcleared

theorem onTimer (id : TimerId) (h : Alike R before s t) :
    Alike R before (onTimer E id s) (onTimer F id t) := by
  unfold Connection.onTimer
  rw [h.executor]
  split
  · exact (h.takeTimer id).runTimer hP _
  · exact h

/-! ## Events -/

theorem start (host : CString) (port : UInt16) (onDone : HandlerId) (h : Alike R before s t) :
    Alike R before (start E host port onDone s) (start F host port onDone t) := by
  have hstarted : Alike R before
      (Connection.emit .started { s with connectHandler := some onDone, lastError := none })
      (Connection.emit .started { t with connectHandler := some onDone, lastError := none }) :=
    Alike.emit _ { h with connectHandler := rfl, lastError := rfl }
  exact (hstarted.setState hP .connecting).connect host port

/-- An event keeps two connections alike, if the callback that it runs is
there on both sides or on none. -/
theorem step (e : Event) (h : Alike R before s t) (he : SameHolders s t e) :
    Alike R before (step E s e) (step F t e) := by
  cases e with
  | start host port onDone => exact h.start hP host port onDone
  | connectResult ec =>
      unfold Connection.step connectResult
      dsimp only
      rw [if_congr he rfl rfl]
      split
      · exact h
      · exact Alike.onConnectedTransport hP ec
          { h with connects := Nat.sub_le_sub_right h.connects 1 }
  | bytes data =>
      unfold Connection.step receive
      dsimp only
      rw [show s.transport.reading = t.transport.reading from he]
      split
      · exact h.onBytes hP data
      · exact h
  | readError ec =>
      unfold Connection.step readFailed
      dsimp only
      rw [show s.transport.reading = t.transport.reading from he]
      split
      · exact Alike.onReadError hP ec { h with reading := nofun }
      · exact h
  | writeDone =>
      unfold Connection.step writeDone
      dsimp only
      rw [if_congr he rfl rfl]
      split
      · exact h
      · exact Alike.finishDisconnect hP
          { h with completions := Nat.sub_le_sub_right h.completions 1 }
  | timer id => exact h.onTimer hP id
  | elapse ms =>
      refine { h with executor := ?_, connectTimer := ?_, pingTimer := ?_, pongTimer := ?_ }
      · rw [Connection.step, Connection.step, elapse, elapse, h.executor]
      · exact h.connectTimer
      · exact h.pingTimer
      · exact h.pongTimer
  | call call => exact h.perform hP (fun h => h.disconnect hP) call

end Alike

end Connection

end EsphomeApi
