/-
EsphomeApi.Connection.Acts — invariants that hold at every moment, in the
middle of an event too.

`KeptByActs I C` says that each single act of the code keeps `I`: one field for
each place where a member that matters is written, with what the code has
checked there. `disconnect` changes the state before it sends its request and
the state handler runs in between; `C` is what holds in that window. From this
every function of the machine keeps `I`, handlers that call `disconnect`
included. What a `HelloResponse` does is left to the invariant at hand
(`KeptByActs.handleHelloResponse`). If the messages of the connection and the
end of the handshake keep it too (`KeptBySends`), so does a turn of the loop.
-/
import EsphomeApi.Connection.Moves

namespace EsphomeApi

open Proto Library

/-- The call reports that the connect has succeeded. -/
def Invocation.Succeeds : Invocation → Prop
  | .done _ none => True
  | _ => False

/-- The ping timer has been scheduled in state `Connected` only. -/
def PingsInConnected (schedules : List Schedule) : Prop :=
  ∀ a ∈ schedules, a.callback = .ping → a.state = .connected

theorem pingsInConnected_append {schedules more : List Schedule} :
    PingsInConnected (schedules ++ more) ↔ PingsInConnected schedules ∧ PingsInConnected more :=
  List.forall_mem_append

namespace Connection

variable {σ : Type} {E : Environment σ} {I C : Connection σ → Prop} {s t : Connection σ}

/-- The state changes, before the state handler is called. -/
def assign (state : ConnectionState) (s : Connection σ) : Connection σ :=
  emit (.state state) { s with state := state }

/-- The handlers that are not kept by message id. -/
def slots (s : Connection σ) : List (Option HandlerId) :=
  [s.anyHandler, s.rawHandler, s.stateHandler, s.errorHandler]

/-- Only timers and the last error may differ. -/
structure Kept (s t : Connection σ) : Prop where
  options : t.options = s.options
  frameHelper : t.frameHelper = s.frameHelper
  state : t.state = s.state
  hello : t.hello = s.hello
  handlers : t.handlers = s.handlers
  slots : t.slots = s.slots
  connectHandler : t.connectHandler = s.connectHandler
  connects : t.transport.connects = s.transport.connects
  reading : t.transport.reading = s.transport.reading
  closed : t.transport.closed = s.transport.closed
  log : t.log = s.log

/-- Ping timers may have been scheduled too, in state `Connected`. -/
structure Calm (s t : Connection σ) : Prop extends Kept s t where
  pings : ∃ more, t.schedules = s.schedules ++ more ∧ PingsInConnected more

theorem Kept.trans {u : Connection σ} (h : Kept s t) (h' : Kept t u) : Kept s u :=
  ⟨h'.options.trans h.options, h'.frameHelper.trans h.frameHelper, h'.state.trans h.state,
    h'.hello.trans h.hello, h'.handlers.trans h.handlers, h'.slots.trans h.slots,
    h'.connectHandler.trans h.connectHandler, h'.connects.trans h.connects,
    h'.reading.trans h.reading, h'.closed.trans h.closed, h'.log.trans h.log⟩

theorem Kept.calm (h : Kept s t) (hschedules : t.schedules = s.schedules) : Calm s t :=
  ⟨h, [], by rw [hschedules, List.append_nil], nofun⟩

/-- A timer is scheduled that is no ping, or in state `Connected`. -/
theorem Kept.calm_of_schedule {a : Schedule} (h : Kept s t)
    (hschedules : t.schedules = s.schedules ++ [a])
    (ha : a.callback = .ping → a.state = .connected) : Calm s t :=
  ⟨h, [a], hschedules, by simpa [PingsInConnected] using ha⟩

theorem Calm.trans {u : Connection σ} (h : Calm s t) (h' : Calm t u) : Calm s u := by
  obtain ⟨more, hmore, hpings⟩ := h.pings
  obtain ⟨more', hmore', hpings'⟩ := h'.pings
  refine ⟨h.toKept.trans h'.toKept, more ++ more', ?_, ?_⟩
  · rw [hmore', hmore, List.append_assoc]
  · exact pingsInConnected_append.mpr ⟨hpings, hpings'⟩

theorem calm_cancel (id : TimerId) (s : Connection σ) : Calm s (cancel E id s) := by
  unfold cancel
  split <;> exact Kept.calm ⟨rfl, rfl, rfl, rfl, rfl, rfl, rfl, rfl, rfl, rfl, rfl⟩ rfl

theorem calm_cancelConnectTimer (s : Connection σ) : Calm s (cancelConnectTimer E s) := by
  unfold cancelConnectTimer
  split
  · exact Kept.calm ⟨rfl, rfl, rfl, rfl, rfl, rfl, rfl, rfl, rfl, rfl, rfl⟩ rfl
  · exact (calm_cancel s.connectTimer s).trans
      (Kept.calm ⟨rfl, rfl, rfl, rfl, rfl, rfl, rfl, rfl, rfl, rfl, rfl⟩ rfl)

theorem calm_cancelPingTimer (s : Connection σ) : Calm s (cancelPingTimer E s) := by
  unfold cancelPingTimer
  split
  · exact Kept.calm ⟨rfl, rfl, rfl, rfl, rfl, rfl, rfl, rfl, rfl, rfl, rfl⟩ rfl
  · exact (calm_cancel s.pingTimer s).trans
      (Kept.calm ⟨rfl, rfl, rfl, rfl, rfl, rfl, rfl, rfl, rfl, rfl, rfl⟩ rfl)

theorem calm_cancelPongTimer (s : Connection σ) : Calm s (cancelPongTimer E s) := by
  unfold cancelPongTimer
  split
  · exact Kept.calm ⟨rfl, rfl, rfl, rfl, rfl, rfl, rfl, rfl, rfl, rfl, rfl⟩ rfl
  · exact (calm_cancel s.pongTimer s).trans
      (Kept.calm ⟨rfl, rfl, rfl, rfl, rfl, rfl, rfl, rfl, rfl, rfl, rfl⟩ rfl)

theorem calm_stopKeepalive (s : Connection σ) : Calm s (stopKeepalive E s) :=
  ((calm_cancelPingTimer s).trans (calm_cancelPongTimer _)).trans
    (Kept.calm ⟨rfl, rfl, rfl, rfl, rfl, rfl, rfl, rfl, rfl, rfl, rfl⟩ rfl)

theorem kept_startKeepalive (s : Connection σ) : Kept s (startKeepalive s) := by
  unfold startKeepalive
  split <;> exact ⟨rfl, rfl, rfl, rfl, rfl, rfl, rfl, rfl, rfl, rfl, rfl⟩

/-- The ping timer is scheduled in whatever state the connection is in. -/
theorem startKeepalive_schedules (s : Connection σ) : (startKeepalive s).schedules =
    if 0 < s.options.keepaliveInterval then s.schedules ++ [⟨.ping, s.state⟩]
    else s.schedules := by
  unfold startKeepalive
  by_cases hinterval : 0 < s.options.keepaliveInterval
  · rw [if_neg (Int.not_le.mpr hinterval), if_pos hinterval]
    rfl
  · rw [if_pos (Int.not_lt.mp hinterval), if_neg hinterval]

theorem calm_handlePingResponse (s : Connection σ) : Calm s (handlePingResponse E s) := by
  have hflag : Calm s { s with awaitingPong := false } :=
    Kept.calm ⟨rfl, rfl, rfl, rfl, rfl, rfl, rfl, rfl, rfl, rfl, rfl⟩ rfl
  exact hflag.trans (calm_cancelPongTimer _)

/-! ## Handlers that do not disconnect -/

/-- Kept by bookkeeping and by whatever a handler calls, `disconnect` apart. -/
structure Undisturbed (E : Environment σ) (I : Connection σ → Prop) : Prop where
  kept : ∀ {s t}, Calm s t → I s → I t
  invoked : ∀ call s, ¬ call.Succeeds → I s → I (emit (.invoked call) s)
  calls : ∀ call s₀, ∀ c ∈ E.calls call s₀, c ≠ .disconnect → ∀ s, I s → I (perform E id c s)

namespace Undisturbed

variable (h : Undisturbed E I)

include h

theorem foldl_calls (call : Invocation) (s₀ : Connection σ) (hs : I s) :
    I ((E.calls call s₀).foldl (fun s c => perform E id c s) s) := by
  have hall : ∀ calls : List Call, (∀ c ∈ calls, c ∈ E.calls call s₀) → ∀ s, I s →
      I (calls.foldl (fun s c => perform E id c s) s) := by
    intro calls
    induction calls with
    | nil => exact fun _ _ hs => hs
    | cons c calls ih =>
        intro hmem s hs
        have hrest := ih fun c' hc' => hmem c' (by simp [hc'])
        rw [List.foldl_cons]
        by_cases hc : c = .disconnect
        · subst hc
          exact hrest s hs
        · exact hrest _ (h.calls call s₀ c (hmem c (by simp)) hc s hs)
  exact hall _ (fun _ hc => hc) s hs

/-- A change of state whose handler finds nothing to disconnect. -/
theorem setStateWith {state : ConnectionState} (hs : I s)
    (hassign : state ≠ s.state → I (assign state s)) : I (setStateWith E id state s) := by
  unfold Connection.setStateWith
  split
  · exact hs
  · next hne =>
      dsimp only
      split
      · exact h.foldl_calls _ _ (h.invoked _ _ id (hassign hne))
      · exact hassign hne

end Undisturbed

/-! ## All acts -/

/-- After the raw handler, a frame that decodes is handled as a message; one that
does not is ignored or ends the session. -/
theorem handleFrame_cases (frame : Frame) (s : Connection σ) :
    (parse E frame = none ∧
      (handleFrame E frame s = invokeRaw E frame s ∨
        handleFrame E frame s =
          fail E .protocolError (lit "failed to parse message payload") (invokeRaw E frame s))) ∨
    ∃ msg, parse E frame = some msg ∧
      handleFrame E frame s = handleMessage E frame.type msg (invokeRaw E frame s) := by
  unfold handleFrame parse
  dsimp only
  cases hcreate : E.registry.create frame.type with
  | none => exact Or.inl ⟨rfl, Or.inl rfl⟩
  | some create =>
      rw [Option.bind_some]
      cases hparse : create frame.payload with
      | none => exact Or.inl ⟨rfl, Or.inr (by simp only [hparse])⟩
      | some msg => exact Or.inr ⟨msg, rfl, by simp only [hparse]⟩

/-- Each act of the code keeps `I`. -/
structure KeptByActs (E : Environment σ) (I C : Connection σ → Prop) : Prop
    extends Undisturbed E I where
  window : Undisturbed E C
  completed : ∀ s, I s → I { s with connectHandler := none }
  close : ∀ s, I s → I (closeTransport s)
  closing : ∀ s, s.state = .connected ∨ s.state = .helloSent → I s → C (assign .closing s)
  request : ∀ s, s.state = .closing → C s →
    I (send E MessageId.disconnectRequest EmptyMessage () s)
  closed : ∀ s, s.transport.closed = true → I s → I (assign .closed s)
  failed : ∀ s, s.state.terminal = false → s.transport.closed = true → I s →
    I (assign .failed s)
  ping : ∀ s, s.state = .connected → I s → I (send E MessageId.pingRequest EmptyMessage () s)

namespace KeptByActs

variable (h : KeptByActs E I C)

include h

theorem finishDisconnect (hs : I s) : I (finishDisconnect E s) := by
  have hclosed := h.close s hs
  exact h.setStateWith hclosed fun _ => h.closed _ rfl hclosed

theorem disconnect (hs : I s) : I (disconnect E s) := by
  unfold Connection.disconnect
  split
  · exact hs
  · next hstate =>
      have hopen : s.state = .connected ∨ s.state = .helloSent := by
        by_cases hconnected : s.state = .connected
        · exact Or.inl hconnected
        · exact Or.inr (not_not.mp fun hhello => hstate ⟨hconnected, hhello⟩)
      have hstop := calm_stopKeepalive (E := E) s
      have hne : ConnectionState.closing ≠ (stopKeepalive E s).state := by
        rw [hstop.state]
        rcases hopen with hopen | hopen <;> simp [hopen]
      have hassign : C (assign .closing (stopKeepalive E s)) :=
        h.closing _ (hstop.state ▸ hopen) (h.kept hstop hs)
      have hwindow : C (setStateWith E id .closing (stopKeepalive E s)) := by
        unfold setStateWith
        rw [if_neg hne]
        dsimp only
        split
        · exact h.window.foldl_calls _ _ (h.window.invoked _ _ id hassign)
        · exact hassign
      have hsent := h.request _ (setStateWith_id_state _ _) hwindow
      dsimp only
      split
      · exact h.finishDisconnect hsent
      · refine h.kept ?_ hsent
        exact Kept.calm ⟨rfl, rfl, rfl, rfl, rfl, rfl, rfl, rfl, rfl, rfl, rfl⟩ rfl

/-- A call that a handler makes. -/
theorem performCall {call : Invocation} {s₀ : Connection σ} {c : Call}
    (hc : c ∈ E.calls call s₀) (hs : I s) : I (perform E (Connection.disconnect E) c s) := by
  by_cases hdisconnect : c = .disconnect
  · subst hdisconnect
    exact h.disconnect hs
  · have hcall := h.calls call s₀ c hc hdisconnect s hs
    cases c <;> first | exact absurd rfl hdisconnect | exact hcall

/-- A handler that has been called keeps `I`. -/
theorem invoke_of (call : Invocation) (hs : I (emit (.invoked call) s)) :
    I (Connection.invoke E call s) := by
  have hall : ∀ calls : List Call, (∀ c ∈ calls, c ∈ E.calls call (emit (.invoked call) s)) →
      ∀ s, I s → I (calls.foldl (fun s c => perform E (Connection.disconnect E) c s) s) := by
    intro calls
    induction calls with
    | nil => exact fun _ _ hs => hs
    | cons c calls ih =>
        intro hmem s hs
        rw [List.foldl_cons]
        exact ih (fun c' hc' => hmem c' (by simp [hc'])) _ (h.performCall (hmem c (by simp)) hs)
  exact hall _ (fun _ hc => hc) _ hs

theorem invoke (call : Invocation) (hcall : ¬ call.Succeeds) (hs : I s) : I (invoke E call s) :=
  h.invoke_of call (h.invoked _ _ hcall hs)

/-- A change of state, which may be needed for `I` to hold. -/
theorem setState_of {state : ConnectionState} (hsame : state = s.state → I s)
    (hassign : state ≠ s.state → I (assign state s)) : I (setState E state s) := by
  unfold Connection.setState Connection.setStateWith
  split
  · next heq => exact hsame heq
  · next hne =>
      dsimp only
      split
      · exact h.invoke _ id (hassign hne)
      · exact hassign hne

theorem setState {state : ConnectionState} (hs : I s)
    (hassign : state ≠ s.state → I (assign state s)) : I (setState E state s) :=
  h.setState_of (fun _ => hs) hassign

/-- The connect completes, if reporting a success keeps `I`. -/
theorem finishConnect (ec : Option ErrorCode) (hs : I s)
    (hdone : ec = none → ∀ handler, s.connectHandler = some handler →
      I (emit (.invoked (.done handler none)) { s with connectHandler := none })) :
    I (finishConnect E ec s) := by
  unfold Connection.finishConnect
  split
  · next handler hhandler =>
      cases ec with
      | none => exact h.invoke_of _ (hdone rfl handler hhandler)
      | some ec => exact h.invoke _ id (h.completed s hs)
  · exact hs

theorem fail (ec : ErrorCode) (what : CString) (hs : I s) : I (fail E ec what s) := by
  unfold Connection.fail
  split
  · exact hs
  · next hterminal =>
      have hquiet := (calm_stopKeepalive (E := E) s).trans (calm_cancelConnectTimer (E := E) _)
      have hclosed := h.close _ (h.kept hquiet hs)
      have hlive : (closeTransport (cancelConnectTimer E (stopKeepalive E s))).state.terminal =
          false := by
        rw [closeTransport_state, hquiet.state]
        exact Bool.eq_false_iff.mpr hterminal
      have hfailed := h.setState hclosed fun _ => h.failed _ hlive rfl hclosed
      dsimp only
      split
      · exact h.finishConnect _ hfailed nofun
      · split
        · exact h.invoke _ id hfailed
        · exact hfailed

/-! ### Messages -/

theorem handleAuthenticationResponse (v : AuthenticationResponse.Value) (hs : I s) :
    I (handleAuthenticationResponse E v s) := by
  unfold Connection.handleAuthenticationResponse
  split
  · exact h.fail _ _ hs
  · exact hs

theorem handleDisconnectResponse (hs : I s) : I (handleDisconnectResponse E s) := by
  have hclosed := h.close _ (h.kept (calm_stopKeepalive (E := E) s) hs)
  exact h.setState hclosed fun _ => h.closed _ rfl hclosed

/-- What follows the response to a `DisconnectRequest`. -/
theorem handleDisconnectRequest
    (hs : I (send E MessageId.disconnectResponse EmptyMessage () s)) :
    I (handleDisconnectRequest E s) :=
  h.finishConnect _ (h.handleDisconnectResponse hs) nofun

/-- A `HelloResponse`, if taking its values, becoming `Connected`, starting the
keepalive and reporting the success keep `I`. -/
theorem handleHelloResponse (v : HelloResponse.Value) (hs : I s)
    (hgreet : s.state = .helloSent → I { s with hello := ServerHello.ofResponse v })
    (hconnected : s.state = .helloSent → ∀ t : Connection σ, t.state = .helloSent →
      t.options = s.options → t.hello = ServerHello.ofResponse v →
      ¬ t.hello.apiVersionMajor > 2 →
      ¬ (t.options.expectedName ≠ [] ∧ t.hello.name ≠ [] ∧
        t.hello.name ≠ t.options.expectedName) →
      I t → I (assign .connected t))
    (harmed : ∀ t, I t → I (startKeepalive t))
    (hdone : ∀ handler t, I t →
      I (emit (.invoked (.done handler none)) { t with connectHandler := none })) :
    I (handleHelloResponse E v s) := by
  unfold Connection.handleHelloResponse
  split
  · exact hs
  · next hstate =>
      have hhello := not_not.mp hstate
      have hgreeted := hgreet hhello
      dsimp only
      split
      · exact h.fail _ _ hgreeted
      · next hmajor =>
          split
          · exact h.fail _ _ hgreeted
          · next hname =>
              have hcancel := calm_cancelConnectTimer (E := E)
                { s with hello := ServerHello.ofResponse v }
              have hready := h.kept hcancel hgreeted
              have hset : I (Connection.setState E .connected (cancelConnectTimer E
                  { s with hello := ServerHello.ofResponse v })) := by
                refine h.setState hready fun _ => hconnected hhello _
                  (hcancel.state.trans hhello) hcancel.options hcancel.hello ?_ ?_ hready
                · rw [hcancel.hello]
                  exact hmajor
                · rw [hcancel.hello, hcancel.options]
                  exact hname
              have hstarted := harmed _ hset
              exact h.finishConnect _ hstarted fun _ handler _ => hdone handler _ hstarted

/-! ### Frames, timers and the transport -/

theorem invokeRaw (frame : Frame) (hs : I s) : I (invokeRaw E frame s) := by
  unfold Connection.invokeRaw
  split
  · exact h.invoke _ id hs
  · exact hs

theorem invokeMessage (type : UInt32) (msg : ProtoMessage) (hs : I s) :
    I (invokeMessage E type msg s) := by
  unfold Connection.invokeMessage
  split
  · split
    · exact h.invoke _ id hs
    · exact hs
  · exact hs

theorem invokeAny (msg : ProtoMessage) (hs : I s) : I (invokeAny E msg s) := by
  unfold Connection.invokeAny
  split
  · exact h.invoke _ id hs
  · exact hs

theorem handleMessage (type : UInt32) (msg : ProtoMessage)
    (hs : I (handleInternal E msg s)) : I (handleMessage E type msg s) := by
  unfold Connection.handleMessage
  dsimp only
  split
  · exact hs
  · exact h.invokeAny _ (h.invokeMessage _ _ hs)

/-- A frame keeps `I` if the connection's own treatment of its message does. -/
theorem handleFrame (frame : Frame) (hs : I s)
    (hmessage : ∀ msg, parse E frame = some msg → I (Connection.invokeRaw E frame s) →
      I (handleInternal E msg (Connection.invokeRaw E frame s))) :
    I (handleFrame E frame s) := by
  have hraw := h.invokeRaw frame hs
  rcases handleFrame_cases (E := E) frame s with ⟨-, heq | heq⟩ | ⟨msg, hparse, heq⟩
  · rw [heq]
    exact hraw
  · rw [heq]
    exact h.fail _ _ hraw
  · rw [heq]
    exact h.handleMessage _ _ (hmessage msg hparse hraw)

theorem onHandshakeError (what : CString) (hs : I s) : I (onHandshakeError E what s) := by
  refine h.fail _ _ (h.kept ?_ hs)
  exact Kept.calm ⟨rfl, rfl, rfl, rfl, rfl, rfl, rfl, rfl, rfl, rfl, rfl⟩ rfl

theorem onException (e : ApiException) (hs : I s) : I (onException E e s) := by
  unfold Connection.onException
  split
  · refine h.fail _ _ (h.kept ?_ hs)
    exact Kept.calm ⟨rfl, rfl, rfl, rfl, rfl, rfl, rfl, rfl, rfl, rfl, rfl⟩ rfl
  · exact hs

theorem sendPing (hs : I s) : I (sendPing E s) := by
  unfold Connection.sendPing
  split
  · exact hs
  · next hstate =>
      have hconnected := not_not.mp hstate
      have hsent := h.ping s hconnected hs
      dsimp only
      split
      · refine h.kept (Kept.calm_of_schedule ?_ rfl fun _ => hconnected) hsent
        exact ⟨rfl, rfl, rfl, rfl, rfl, rfl, rfl, rfl, rfl, rfl, rfl⟩
      · refine h.kept (Kept.calm_of_schedule ?_ rfl fun _ => hconnected)
          (h.kept (Kept.calm_of_schedule ?_ rfl nofun) hsent)
        all_goals exact ⟨rfl, rfl, rfl, rfl, rfl, rfl, rfl, rfl, rfl, rfl, rfl⟩

theorem runTimer (callback : TimerCallback) (hs : I s) : I (runTimer E callback s) := by
  cases callback with
  | connectTimeout =>
      unfold Connection.runTimer
      dsimp only
      split
      · exact h.fail _ _ hs
      · exact hs
  | ping => exact h.sendPing hs
  | pongTimeout =>
      have htimer : I { s with pongTimer := invalidTimer } := by
        refine h.kept ?_ hs
        exact Kept.calm ⟨rfl, rfl, rfl, rfl, rfl, rfl, rfl, rfl, rfl, rfl, rfl⟩ rfl
      unfold Connection.runTimer
      dsimp only
      split
      · exact h.fail _ _ htimer
      · exact htimer

theorem onTimer (id : TimerId) (hs : I s) : I (onTimer E id s) := by
  unfold Connection.onTimer
  split
  · refine h.runTimer _ (h.kept ?_ hs)
    exact Kept.calm ⟨rfl, rfl, rfl, rfl, rfl, rfl, rfl, rfl, rfl, rfl, rfl⟩ rfl
  · exact hs

theorem onReadError (ec : ErrorCode) (hs : I s) : I (onReadError E ec s) := by
  unfold Connection.onReadError
  split
  · exact hs
  · exact h.fail _ _ hs

theorem writeDone (hs : I s) : I (writeDone E s) := by
  unfold Connection.writeDone
  split
  · exact hs
  · refine h.finishDisconnect (h.kept ?_ hs)
    exact Kept.calm ⟨rfl, rfl, rfl, rfl, rfl, rfl, rfl, rfl, rfl, rfl, rfl⟩ rfl

theorem elapse (ms : Nat) (hs : I s) : I (elapse ms s) := by
  refine h.kept ?_ hs
  exact Kept.calm ⟨rfl, rfl, rfl, rfl, rfl, rfl, rfl, rfl, rfl, rfl, rfl⟩ rfl

/-! ### Events -/

/-- An event keeps `I`, if what is left to the invariant at hand does. -/
theorem step (e : Event) (hs : I s)
    (hstart : ∀ host port onDone, e = .start host port onDone → I (start E host port onDone s))
    (htake : I (takeConnect s)) (hstop : I (stopReading s))
    (hconnect : e = .connectResult none → s.transport.connects ≠ 0 →
      I (onConnectedTransport E none (takeConnect s)))
    (hbytes : ∀ data, e = .bytes data → s.transport.reading = true → I (onBytes E data s))
    (hcall : ∀ call, e = .call call → call ≠ .disconnect → I (perform E id call s)) :
    I (step E s e) := by
  cases e with
  | start host port onDone => exact hstart host port onDone rfl
  | connectResult ec =>
      show I (connectResult E ec s)
      unfold connectResult
      split
      · exact hs
      · next hconnects =>
          cases ec with
          | none => exact hconnect rfl hconnects
          | some ec => exact h.fail _ _ htake
  | bytes data =>
      show I (receive E data s)
      unfold receive
      split
      · next hreading => exact hbytes data rfl hreading
      · exact hs
  | readError ec =>
      show I (readFailed E ec s)
      unfold readFailed
      split
      · exact h.onReadError _ hstop
      · exact hs
  | writeDone => exact h.writeDone hs
  | timer id => exact h.onTimer id hs
  | elapse ms => exact h.elapse ms hs
  | call call =>
      by_cases hdisconnect : call = .disconnect
      · subst hdisconnect
        exact h.disconnect hs
      · have hperform := hcall call rfl hdisconnect
        cases call <;> first | exact absurd rfl hdisconnect | exact hperform

/-- `start`, if its own outputs and becoming `Connecting` keep `I`; the connect
may lead to another invariant. -/
theorem start {K : Connection σ → Prop} (host : CString) (port : UInt16) (onDone : HandlerId)
    (hstarted : I (emit .started { s with connectHandler := some onDone, lastError := none }))
    (hassign : ∀ t, I t → I (assign .connecting t))
    (hconnect : ∀ t, t.state = .connecting → I t → K (emit (.connect host port)
      { t with transport :=
        { t.transport with connects := t.transport.connects + 1, closed := false } })) :
    K (start E host port onDone s) := by
  have hset := h.setState hstarted fun _ => hassign _ hstarted
  have hstate : (Connection.setState E .connecting
      (emit .started { s with connectHandler := some onDone, lastError := none })).state =
        .connecting := setState_state (by decide) (by decide) _
  unfold Connection.start
  refine hconnect _ hstate (h.kept (Kept.calm_of_schedule ?_ rfl nofun) hset)
  exact ⟨rfl, rfl, rfl, rfl, rfl, rfl, rfl, rfl, rfl, rfl, rfl⟩

end KeptByActs

/-- A family of invariants, when acts stay within each of them. -/
theorem KeptByActs.exists {ι : Type} {p : ι → Prop} {I C : ι → Connection σ → Prop}
    (h : ∀ i, KeptByActs E (I i) (C i)) :
    KeptByActs E (fun s => ∃ i, p i ∧ I i s) fun s => ∃ i, p i ∧ C i s where
  kept hk := fun ⟨i, hi, hs⟩ => ⟨i, hi, (h i).kept hk hs⟩
  invoked call s hcall := fun ⟨i, hi, hs⟩ => ⟨i, hi, (h i).invoked call s hcall hs⟩
  calls call s₀ c hc hne s := fun ⟨i, hi, hs⟩ => ⟨i, hi, (h i).calls call s₀ c hc hne s hs⟩
  window := {
    kept := fun hk ⟨i, hi, hs⟩ => ⟨i, hi, (h i).window.kept hk hs⟩
    invoked := fun call s hcall ⟨i, hi, hs⟩ => ⟨i, hi, (h i).window.invoked call s hcall hs⟩
    calls := fun call s₀ c hc hne s ⟨i, hi, hs⟩ =>
      ⟨i, hi, (h i).window.calls call s₀ c hc hne s hs⟩ }
  completed s := fun ⟨i, hi, hs⟩ => ⟨i, hi, (h i).completed s hs⟩
  close s := fun ⟨i, hi, hs⟩ => ⟨i, hi, (h i).close s hs⟩
  closing s hstate := fun ⟨i, hi, hs⟩ => ⟨i, hi, (h i).closing s hstate hs⟩
  request s hstate := fun ⟨i, hi, hs⟩ => ⟨i, hi, (h i).request s hstate hs⟩
  closed s hclosed := fun ⟨i, hi, hs⟩ => ⟨i, hi, (h i).closed s hclosed hs⟩
  failed s hlive hclosed := fun ⟨i, hi, hs⟩ => ⟨i, hi, (h i).failed s hlive hclosed hs⟩
  ping s hstate := fun ⟨i, hi, hs⟩ => ⟨i, hi, (h i).ping s hstate hs⟩

/-- Two invariants at a time. -/
theorem KeptByActs.and {I' C' : Connection σ → Prop} (h : KeptByActs E I C)
    (h' : KeptByActs E I' C') : KeptByActs E (fun s => I s ∧ I' s) fun s => C s ∧ C' s where
  kept hk hs := ⟨h.kept hk hs.1, h'.kept hk hs.2⟩
  invoked call s hcall hs := ⟨h.invoked call s hcall hs.1, h'.invoked call s hcall hs.2⟩
  calls call s₀ c hc hne s hs := ⟨h.calls call s₀ c hc hne s hs.1, h'.calls call s₀ c hc hne s hs.2⟩
  window := {
    kept := fun hk hs => ⟨h.window.kept hk hs.1, h'.window.kept hk hs.2⟩
    invoked := fun call s hcall hs =>
      ⟨h.window.invoked call s hcall hs.1, h'.window.invoked call s hcall hs.2⟩
    calls := fun call s₀ c hc hne s hs =>
      ⟨h.window.calls call s₀ c hc hne s hs.1, h'.window.calls call s₀ c hc hne s hs.2⟩ }
  completed s hs := ⟨h.completed s hs.1, h'.completed s hs.2⟩
  close s hs := ⟨h.close s hs.1, h'.close s hs.2⟩
  closing s hstate hs := ⟨h.closing s hstate hs.1, h'.closing s hstate hs.2⟩
  request s hstate hs := ⟨h.request s hstate hs.1, h'.request s hstate hs.2⟩
  closed s hclosed hs := ⟨h.closed s hclosed hs.1, h'.closed s hclosed hs.2⟩
  failed s hlive hclosed hs := ⟨h.failed s hlive hclosed hs.1, h'.failed s hlive hclosed hs.2⟩
  ping s hstate hs := ⟨h.ping s hstate hs.1, h'.ping s hstate hs.2⟩

theorem perform_id_log (call : Call) {o : Output} (hs : o ∈ s.log) :
    o ∈ (perform E id call s).log := by
  cases call with
  | sendRaw type payload => exact List.mem_append_left _ hs
  | on type handler =>
      show o ∈ (on E type handler s).log
      rw [(untouched_on type handler s).log]
      exact hs
  | _ => exact hs

theorem undisturbed_log (o : Output) : Undisturbed E fun s : Connection σ => o ∈ s.log where
  kept hk hs := hk.log ▸ hs
  invoked _ _ _ hs := List.mem_append_left _ hs
  calls _ _ call _ _ _ hs := perform_id_log call hs

/-- The log only grows. -/
theorem keptByActs_log (o : Output) :
    KeptByActs E (fun s : Connection σ => o ∈ s.log) fun s => o ∈ s.log where
  __ := undisturbed_log o
  window := undisturbed_log o
  completed _ hs := hs
  close _ hs := List.mem_append_left _ hs
  closing _ _ hs := List.mem_append_left _ hs
  request _ _ hs := List.mem_append_left _ hs
  closed _ _ hs := List.mem_append_left _ hs
  failed _ _ _ hs := List.mem_append_left _ hs
  ping _ _ hs := List.mem_append_left _ hs

/-! ## Turns of an event -/

/-- The connection once its frame helper has advanced. -/
def advanced (E : Environment σ) (s : Connection σ) : Connection σ :=
  { s with frameHelper := (E.helper.advance s.frameHelper).2 }

/-- The frame that a turn handles. -/
def turnFrame (E : Environment σ) (s : Connection σ) : Option Frame :=
  match (E.helper.advance s.frameHelper).1 with
  | .ok frame => some frame
  | _ => none

theorem advance_of_turnFrame {frame : Frame} (h : turnFrame E s = some frame) :
    (E.helper.advance s.frameHelper).1 = .ok frame := by
  unfold turnFrame at h
  split at h
  · next hok =>
      cases h
      exact hok
  · cases h

/-- An invariant that also every message of the connection keeps, and the end of
the handshake. -/
structure KeptBySends (E : Environment σ) (I C : Connection σ → Prop) : Prop
    extends KeptByActs E I C where
  send : ∀ (type : UInt32) (fields : Fields) (v : fields.Value) (s : Connection σ),
    I s → I (send E type fields v s)
  helloSent : ∀ s, I s → I (assign .helloSent s)

namespace KeptBySends

variable {I C : Connection σ → Prop} (h : KeptBySends E I C)

include h

theorem onReady (hs : I s) : I (onReady E s) := by
  have hsent := h.send MessageId.helloRequest HelloRequest
    (s.options.clientInfo, clientApiVersionMajor, clientApiVersionMinor, ()) s hs
  have hhello : I (sendHello E s) := by
    unfold sendHello
    dsimp only
    split
    · exact h.send _ _ _ _ hsent
    · exact hsent
  exact h.setState hhello fun _ => h.helloSent _ hhello

/-- The connect, if reading, hooking the frame helper and its first bytes keep `I`. -/
theorem onConnectedTransport (hs : I (startRead s))
    (hhooks : ∀ t, I t → I { t with
      frameHelper := (E.helper.connectBytes (E.helper.setHandshakeHandlers t.frameHelper)).2 })
    (hinitial : ∀ bs t, I t → I (emit (.writeInitial bs) t)) :
    I (onConnectedTransport E none s) := by
  unfold Connection.onConnectedTransport
  dsimp only
  split
  · split
    · exact hhooks _ hs
    · exact hinitial _ _ (hhooks _ hs)
  · exact h.onReady hs

/-- The connection's own treatment of a message, if that of a `HelloResponse`
keeps `I`. -/
theorem handleInternal (msg : ProtoMessage) (hs : I s)
    (hhello : ∀ v, msg = .helloResponse v → I (handleHelloResponse E v s)) :
    I (handleInternal E msg s) := by
  cases msg with
  | helloResponse v => exact hhello v rfl
  | authenticationResponse v => exact h.handleAuthenticationResponse v hs
  | disconnectRequest => exact h.handleDisconnectRequest (h.send _ _ _ s hs)
  | disconnectResponse => exact h.handleDisconnectResponse hs
  | pingRequest => exact h.send _ _ _ s hs
  | pingResponse => exact h.kept (calm_handlePingResponse s) hs
  | helloRequest v => exact hs
  | authenticationRequest v => exact hs
  | other type fields v => exact hs

/-- A turn, if its treatment of a `HelloResponse` keeps `I`. -/
theorem drainTurn (hs : I (advanced E s))
    (hhello : ∀ frame v, turnFrame E s = some frame → parse E frame = some (.helloResponse v) →
      I (invokeRaw E frame (advanced E s)) →
        I (handleHelloResponse E v (invokeRaw E frame (advanced E s)))) :
    I (drainTurn E s).1 := by
  unfold Connection.drainTurn
  dsimp only
  split
  · exact hs
  · exact h.onException _ hs
  · exact hs
  · exact h.onReady hs
  · exact h.onHandshakeError _ hs
  · next frame hok =>
      have hframe : turnFrame E s = some frame := by
        rw [turnFrame, hok]
      refine h.handleFrame frame hs fun msg hparse hraw => h.handleInternal msg hraw ?_
      rintro v rfl
      exact hhello frame v hframe hparse hraw

end KeptBySends

/-- The states in which the loop of `drain_frames` takes a turn in an event. -/
def turnsOf (E : Environment σ) (s : Connection σ) : Event → List (Connection σ)
  | .bytes data => if s.transport.reading then drainTurns E (feed E data s) else []
  | _ => []

/-- The message that a turn processes. -/
def turnMessage (E : Environment σ) (s : Connection σ) : Option ProtoMessage :=
  (turnFrame E s).bind (parse E)

/-- The messages that an event makes `handle_internal` process. -/
def processed (E : Environment σ) (s : Connection σ) (e : Event) : List ProtoMessage :=
  (turnsOf E s e).filterMap (turnMessage E)

/-- The rule for `on_bytes`: an invariant of the turns so far. -/
theorem onBytes_with_turns {J I : List (Connection σ) → Connection σ → Prop}
    {p : Connection σ → Prop} (hend : ∀ before s, J before s → I before s)
    (hturn : ∀ before s, J before s → p s → I (before ++ [s]) (drainTurn E s).1 ∧
      ((drainTurn E s).2 = true → J (before ++ [s]) (drainTurn E s).1))
    {data : Bytes} (hreading : s.transport.reading = true) (hs : J [] (feed E data s))
    (hok : ∀ t ∈ turnsOf E s (.bytes data), p t) :
    I (turnsOf E s (.bytes data)) (onBytes E data s) := by
  have hturns : turnsOf E s (.bytes data) = drainTurns E (feed E data s) := by
    simp [turnsOf, hreading]
  rw [hturns] at hok ⊢
  have hloop := loop_with_turns hend hturn (E.helper.buffered (feed E data s).frameHelper + 1) []
    (feed E data s) hs hok
  rw [List.nil_append] at hloop
  exact hloop

/-! ## A transport that delivers nothing after `close` -/

/-- What the transport held of the connection is dropped once it is closed. -/
def silence (s : Connection σ) : Connection σ :=
  if s.transport.closed then
    { s with transport :=
      { s.transport with connects := 0, reading := false, completions := 0 } }
  else s

/-- An event, with such a transport. -/
def stepClosing (E : Environment σ) (s : Connection σ) (e : Event) : Connection σ :=
  silence (step E s e)

theorem silence_cases (s : Connection σ) :
    (s.transport.closed = false ∧ silence s = s) ∨
      (s.transport.closed = true ∧ silence s = { s with transport :=
        { s.transport with connects := 0, reading := false, completions := 0 } }) := by
  unfold silence
  cases hclosed : s.transport.closed
  · exact Or.inl ⟨rfl, rfl⟩
  · exact Or.inr ⟨rfl, rfl⟩

end Connection

end EsphomeApi
