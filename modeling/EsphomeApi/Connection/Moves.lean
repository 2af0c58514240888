/-
EsphomeApi.Connection.Moves — what the functions of the connection do, as
sequences of elementary moves.

A move updates bookkeeping, queues a frame, calls a handler, changes the state
or completes the connect. `Moves ok` are sequences in which the moves that a
connection has no business to make once its session is over (`Loud`, a change
of state, a frame of its own) start only in states that satisfy `ok`. Each
function of the machine has one lemma here, for any `ok` that holds of the
states that are not terminal; what holds of every move then holds of every
function.
-/
import Mathlib.Logic.Relation
import EsphomeApi.Connection.Machine

namespace EsphomeApi

open Proto Library

/-- Calls that deliver an inbound frame. -/
def Invocation.Delivers : Invocation → Prop
  | .raw _ _ => True
  | .message _ _ _ => True
  | .any _ _ => True
  | _ => False

def Invocation.Completes : Invocation → Prop
  | .done _ _ => True
  | _ => False

/-- Outputs that a connection has no business to make after its session. -/
def Output.Loud : Output → Prop
  | .invoked call => call.Delivers
  | .write writer _ _ => writer = .connection
  | .writeInitial _ => True
  | _ => False

/-- Outputs that neither record a change of state nor complete the connect. -/
def Output.Plain : Output → Prop
  | .state _ => False
  | .started => False
  | .invoked call => ¬ call.Completes
  | _ => True

namespace Connection

variable {σ : Type} {E : Environment σ} {ok : ConnectionState → Prop} {s t : Connection σ}

/-- The members that invariants are about are as they were. -/
structure Untouched (s t : Connection σ) : Prop where
  state : t.state = s.state
  log : t.log = s.log
  connectHandler : t.connectHandler = s.connectHandler
  frameHelper : t.frameHelper = s.frameHelper

inductive Move (E : Environment σ) (ok : ConnectionState → Prop) :
    Connection σ → Connection σ → Prop where
  | update {s t : Connection σ} (h : Untouched s t) : Move E ok s t
  | note (o : Output) (s : Connection σ) (hplain : o.Plain) (hloud : o.Loud → ok s.state) :
      Move E ok s (emit o s)
  | write (writer : Writer) (type : UInt32) (payload : Bytes) (s : Connection σ)
      (hwriter : writer = .connection → ok s.state) :
      Move E ok s (sendRaw E writer type payload s)
  | assign (state : ConnectionState) (s : Connection σ) (hne : state ≠ s.state)
      (hok : ok s.state) : Move E ok s (emit (.state state) { s with state := state })
  | complete (handler : HandlerId) (ec : Option ErrorCode) (s : Connection σ)
      (hs : s.connectHandler = some handler) :
      Move E ok s (emit (.invoked (.done handler ec)) { s with connectHandler := none })

/-- Any number of moves. -/
abbrev Moves (E : Environment σ) (ok : ConnectionState → Prop) :
    Connection σ → Connection σ → Prop := Relation.ReflTransGen (Move E ok)

theorem Moves.refl (s : Connection σ) : Moves E ok s s := Relation.ReflTransGen.refl

theorem Move.moves (h : Move E ok s t) : Moves E ok s t := Relation.ReflTransGen.single h

theorem Untouched.moves (h : Untouched s t) : Moves E ok s t := (Move.update h).moves

theorem Untouched.trans {u : Connection σ} (h : Untouched s t) (h' : Untouched t u) :
    Untouched s u :=
  ⟨h'.state.trans h.state, h'.log.trans h.log, h'.connectHandler.trans h.connectHandler,
    h'.frameHelper.trans h.frameHelper⟩

/-! ## Bookkeeping -/

theorem untouched_cancel (id : TimerId) (s : Connection σ) : Untouched s (cancel E id s) := by
  unfold cancel
  split <;> exact ⟨rfl, rfl, rfl, rfl⟩

theorem untouched_cancelConnectTimer (s : Connection σ) :
    Untouched s (cancelConnectTimer E s) := by
  unfold cancelConnectTimer
  split
  · exact ⟨rfl, rfl, rfl, rfl⟩
  · exact (untouched_cancel s.connectTimer s).trans ⟨rfl, rfl, rfl, rfl⟩

theorem untouched_cancelPingTimer (s : Connection σ) : Untouched s (cancelPingTimer E s) := by
  unfold cancelPingTimer
  split
  · exact ⟨rfl, rfl, rfl, rfl⟩
  · exact (untouched_cancel s.pingTimer s).trans ⟨rfl, rfl, rfl, rfl⟩

theorem untouched_cancelPongTimer (s : Connection σ) : Untouched s (cancelPongTimer E s) := by
  unfold cancelPongTimer
  split
  · exact ⟨rfl, rfl, rfl, rfl⟩
  · exact (untouched_cancel s.pongTimer s).trans ⟨rfl, rfl, rfl, rfl⟩

theorem untouched_stopKeepalive (s : Connection σ) : Untouched s (stopKeepalive E s) :=
  ((untouched_cancelPingTimer s).trans (untouched_cancelPongTimer _)).trans ⟨rfl, rfl, rfl, rfl⟩

theorem untouched_handlePingResponse (s : Connection σ) :
    Untouched s (handlePingResponse E s) := by
  have hflag : Untouched s { s with awaitingPong := false } := ⟨rfl, rfl, rfl, rfl⟩
  exact hflag.trans (untouched_cancelPongTimer _)

theorem untouched_startKeepalive (s : Connection σ) : Untouched s (startKeepalive s) := by
  unfold startKeepalive
  split <;> exact ⟨rfl, rfl, rfl, rfl⟩

/-! ## Sending -/

@[simp] theorem sendRaw_state (writer : Writer) (type : UInt32) (payload : Bytes)
    (s : Connection σ) : (sendRaw E writer type payload s).state = s.state := rfl

@[simp] theorem send_state (type : UInt32) (fields : Fields) (v : fields.Value)
    (s : Connection σ) : (send E type fields v s).state = s.state := rfl

@[simp] theorem sendHello_state (s : Connection σ) : (sendHello E s).state = s.state := by
  unfold sendHello
  dsimp only
  split <;> rfl

@[simp] theorem sendHello_connectHandler (s : Connection σ) :
    (sendHello E s).connectHandler = s.connectHandler := by
  unfold sendHello
  dsimp only
  split <;> rfl

@[simp] theorem closeTransport_state (s : Connection σ) : (closeTransport s).state = s.state := rfl

theorem moves_send (type : UInt32) (fields : Fields) (v : fields.Value) (hok : ok s.state) :
    Moves E ok s (send E type fields v s) :=
  (Move.write .connection type _ s fun _ => hok).moves

theorem moves_sendHello (hok : ok s.state) : Moves E ok s (sendHello E s) := by
  unfold sendHello
  have hhello : Moves E ok s (send E MessageId.helloRequest HelloRequest
      (s.options.clientInfo, clientApiVersionMajor, clientApiVersionMinor, ()) s) :=
    moves_send _ _ _ hok
  dsimp only
  split
  · exact hhello.trans (moves_send _ _ _ hok)
  · exact hhello

theorem moves_closeTransport (s : Connection σ) : Moves E ok s (closeTransport s) := by
  have hflag : Untouched s { s with transport := { s.transport with closed := true } } :=
    ⟨rfl, rfl, rfl, rfl⟩
  exact hflag.moves.trans (Move.note .close _ trivial False.elim).moves

/-! ## Handlers -/

theorem untouched_on (type : UInt32) (handler : Option HandlerId) (s : Connection σ) :
    Untouched s (on E type handler s) := by
  unfold on
  split <;> exact ⟨rfl, rfl, rfl, rfl⟩

theorem moves_perform {disconnect : Connection σ → Connection σ}
    (hdisconnect : ∀ s, Moves E ok s (disconnect s)) (call : Call) (s : Connection σ) :
    Moves E ok s (perform E disconnect call s) := by
  cases call with
  | disconnect => exact hdisconnect s
  | sendRaw type payload => exact (Move.write .application type payload s nofun).moves
  | on type handler => exact (untouched_on type handler s).moves
  | onAny handler => exact Untouched.moves ⟨rfl, rfl, rfl, rfl⟩
  | onRaw handler => exact Untouched.moves ⟨rfl, rfl, rfl, rfl⟩
  | onState handler => exact Untouched.moves ⟨rfl, rfl, rfl, rfl⟩
  | onError handler => exact Untouched.moves ⟨rfl, rfl, rfl, rfl⟩

theorem moves_performAll {disconnect : Connection σ → Connection σ}
    (hdisconnect : ∀ s, Moves E ok s (disconnect s)) (calls : List Call) (s : Connection σ) :
    Moves E ok s (calls.foldl (fun s c => perform E disconnect c s) s) := by
  induction calls generalizing s with
  | nil => exact Moves.refl s
  | cons call calls ih => exact (moves_perform hdisconnect call s).trans (ih _)

theorem moves_invokeWith {disconnect : Connection σ → Connection σ}
    (hdisconnect : ∀ s, Moves E ok s (disconnect s)) (call : Invocation)
    (hplain : ¬ call.Completes) (hloud : call.Delivers → ok s.state) :
    Moves E ok s (invokeWith E disconnect call s) :=
  (Move.note (.invoked call) s hplain hloud).moves.trans
    (moves_performAll hdisconnect (E.calls call (emit (.invoked call) s)) _)

/-- A change of state, and the state handler's call. -/
theorem moves_setStateWith {disconnect : Connection σ → Connection σ}
    (hdisconnect : ∀ s, Moves E ok s (disconnect s)) (state : ConnectionState)
    (hok : state ≠ s.state → ok s.state) :
    Moves E ok s (setStateWith E disconnect state s) := by
  unfold setStateWith
  split
  · exact Moves.refl s
  · next hne =>
      have hassign := (Move.assign (E := E) state s hne (hok hne)).moves
      dsimp only
      split
      · exact hassign.trans (moves_invokeWith hdisconnect _ id False.elim)
      · exact hassign

/-! ## Disconnecting -/

@[simp] theorem perform_id_state (call : Call) (s : Connection σ) :
    (perform E id call s).state = s.state := by
  cases call <;> simp only [perform, id_eq, sendRaw_state]
  simp only [on, apply_ite Connection.state, ite_self]

@[simp] theorem performAll_id_state (calls : List Call) (s : Connection σ) :
    (calls.foldl (fun s c => perform E id c s) s).state = s.state := by
  induction calls generalizing s with
  | nil => rfl
  | cons call calls ih => rw [List.foldl_cons, ih, perform_id_state]

@[simp] theorem setStateWith_id_state (state : ConnectionState) (s : Connection σ) :
    (setStateWith E id state s).state = state := by
  unfold setStateWith
  split
  · next hsame => exact hsame.symm
  · dsimp only
    split
    · exact performAll_id_state _ _
    · rfl

/-- Within a change to any other state, a handler's `disconnect` returns. -/
theorem setStateWith_quiet {state : ConnectionState} (hconnected : state ≠ .connected)
    (hhelloSent : state ≠ .helloSent) (s : Connection σ) :
    setStateWith E (disconnect E) state s = setStateWith E id state s := by
  have hperform : ∀ (call : Call) (s : Connection σ), s.state = state →
      perform E (disconnect E) call s = perform E id call s := by
    intro call s hs
    cases call with
    | disconnect => exact if_pos (hs ▸ ⟨hconnected, hhelloSent⟩)
    | _ => rfl
  have hall : ∀ (calls : List Call) (s : Connection σ), s.state = state →
      calls.foldl (fun s c => perform E (disconnect E) c s) s =
        calls.foldl (fun s c => perform E id c s) s := by
    intro calls
    induction calls with
    | nil => exact fun _ _ => rfl
    | cons call calls ih =>
        intro s hs
        rw [List.foldl_cons, List.foldl_cons, hperform call s hs]
        exact ih _ ((perform_id_state call s).trans hs)
  unfold setStateWith
  split
  · rfl
  · dsimp only
    split
    · exact hall _ _ rfl
    · rfl

theorem setState_state {state : ConnectionState} (hconnected : state ≠ .connected)
    (hhelloSent : state ≠ .helloSent) (s : Connection σ) : (setState E state s).state = state := by
  rw [setState, setStateWith_quiet hconnected hhelloSent, setStateWith_id_state]

theorem moves_finishDisconnect (hok : s.state ≠ .closed → ok s.state) :
    Moves E ok s (finishDisconnect E s) :=
  (moves_closeTransport s).trans
    (moves_setStateWith Moves.refl .closed fun hne => hok fun heq => hne heq.symm)

section

variable (hok : ∀ state : ConnectionState, state.terminal = false → ok state)

include hok

theorem moves_disconnect (s : Connection σ) : Moves E ok s (disconnect E s) := by
  unfold disconnect
  split
  · exact Moves.refl s
  · next hstate =>
      have hlive : ok s.state := by
        refine hok _ ?_
        by_cases hconnected : s.state = .connected
        · rw [hconnected]
          rfl
        · have hhello : s.state = .helloSent := by
            by_contra hhello
            exact hstate ⟨hconnected, hhello⟩
          rw [hhello]
          rfl
      have hstop := untouched_stopKeepalive (E := E) s
      have hclosing : Moves E ok s (setStateWith E id .closing (stopKeepalive E s)) :=
        hstop.moves.trans (moves_setStateWith Moves.refl .closing fun _ => hstop.state ▸ hlive)
      have hlive' : ok (setStateWith E id .closing (stopKeepalive E s)).state := by
        rw [setStateWith_id_state]
        exact hok _ rfl
      have hsend := hclosing.trans (moves_send MessageId.disconnectRequest EmptyMessage () hlive')
      dsimp only
      split
      · refine hsend.trans (moves_finishDisconnect fun _ => ?_)
        rw [send_state, setStateWith_id_state]
        exact hok _ rfl
      · exact hsend.trans (Untouched.moves ⟨rfl, rfl, rfl, rfl⟩)

theorem moves_invoke (call : Invocation) (hplain : ¬ call.Completes)
    (hloud : call.Delivers → ok s.state) : Moves E ok s (invoke E call s) :=
  moves_invokeWith (moves_disconnect hok) call hplain hloud

theorem moves_setState (state : ConnectionState) (hstate : state ≠ s.state → ok s.state) :
    Moves E ok s (setState E state s) :=
  moves_setStateWith (moves_disconnect hok) state hstate

theorem moves_finishConnect (ec : Option ErrorCode) (s : Connection σ) :
    Moves E ok s (finishConnect E ec s) := by
  unfold finishConnect
  cases hhandler : s.connectHandler with
  | none => exact Moves.refl s
  | some handler =>
      exact (Move.complete (E := E) handler ec s hhandler).moves.trans
        (moves_performAll (moves_disconnect hok) _ _)

theorem moves_fail (ec : ErrorCode) (what : CString) (s : Connection σ) :
    Moves E ok s (fail E ec what s) := by
  unfold fail
  by_cases hterminal : s.state.terminal = true
  · rw [if_pos hterminal]
  · rw [if_neg hterminal]
    have hquiet := (untouched_stopKeepalive (E := E) s).trans
      (untouched_cancelConnectTimer (E := E) _)
    have hclose : Moves E ok s (closeTransport (cancelConnectTimer E (stopKeepalive E s))) :=
      hquiet.moves.trans (moves_closeTransport _)
    have hfailed := hclose.trans (moves_setState hok .failed fun _ => by
      rw [closeTransport_state, hquiet.state]
      exact hok _ (Bool.eq_false_iff.mpr hterminal))
    dsimp only
    split
    · exact hfailed.trans (moves_finishConnect hok (some ec) _)
    · split
      · exact hfailed.trans (moves_invoke hok _ id False.elim)
      · exact hfailed

/-! ## Messages of the connection itself -/

theorem moves_handleHelloResponse (v : HelloResponse.Value) (s : Connection σ) :
    Moves E ok s (handleHelloResponse E v s) := by
  unfold handleHelloResponse
  by_cases hstate : s.state = .helloSent
  · rw [if_neg (not_not_intro hstate)]
    have hhello : Untouched s { s with hello := ServerHello.ofResponse v } := ⟨rfl, rfl, rfl, rfl⟩
    dsimp only
    split
    · exact hhello.moves.trans (moves_fail hok _ _ _)
    · split
      · exact hhello.moves.trans (moves_fail hok _ _ _)
      · have hcancel := hhello.trans (untouched_cancelConnectTimer (E := E) _)
        have hconnected := hcancel.moves.trans (moves_setState (E := E) hok .connected fun _ => by
          rw [hcancel.state, hstate]
          exact hok _ rfl)
        exact (hconnected.trans (untouched_startKeepalive _).moves).trans
          (moves_finishConnect hok none _)
  · rw [if_pos hstate]

theorem moves_handleAuthenticationResponse (v : AuthenticationResponse.Value) (s : Connection σ) :
    Moves E ok s (handleAuthenticationResponse E v s) := by
  unfold handleAuthenticationResponse
  split
  · exact moves_fail hok _ _ _
  · exact Moves.refl s

theorem moves_handleDisconnectResponse (hs : s.state ≠ .closed → ok s.state) :
    Moves E ok s (handleDisconnectResponse E s) := by
  have hstop := untouched_stopKeepalive (E := E) s
  refine (hstop.moves.trans (moves_closeTransport _)).trans (moves_setState hok .closed ?_)
  rw [closeTransport_state, hstop.state]
  exact fun hne => hs fun heq => hne heq.symm

theorem moves_handleDisconnectRequest (hs : ok s.state) :
    Moves E ok s (handleDisconnectRequest E s) := by
  have hsend : Moves E ok s (send E MessageId.disconnectResponse EmptyMessage () s) :=
    moves_send _ _ _ hs
  exact (hsend.trans (moves_handleDisconnectResponse hok fun _ => hs)).trans
    (moves_finishConnect hok _ _)

theorem moves_handleInternal (msg : ProtoMessage) (hs : ok s.state) :
    Moves E ok s (handleInternal E msg s) := by
  cases msg with
  | helloResponse v => exact moves_handleHelloResponse hok v s
  | authenticationResponse v => exact moves_handleAuthenticationResponse hok v s
  | disconnectRequest => exact moves_handleDisconnectRequest hok hs
  | disconnectResponse => exact moves_handleDisconnectResponse hok fun _ => hs
  | pingRequest => exact moves_send _ _ _ hs
  | pingResponse => exact (untouched_handlePingResponse s).moves
  | helloRequest v => exact Moves.refl s
  | authenticationRequest v => exact Moves.refl s
  | other type fields v => exact Moves.refl s

/-! ## Inbound frames -/

theorem moves_invokeRaw (frame : Frame) (hs : s.rawHandler.isSome → ok s.state) :
    Moves E ok s (invokeRaw E frame s) := by
  unfold invokeRaw
  cases hhandler : s.rawHandler with
  | none => exact Moves.refl s
  | some handler =>
      rw [hhandler] at hs
      exact moves_invoke hok _ id fun _ => hs rfl

theorem moves_invokeMessage (type : UInt32) (msg : ProtoMessage) (hs : ok s.state) :
    Moves E ok s (invokeMessage E type msg s) := by
  unfold invokeMessage
  split
  · split
    · exact moves_invoke hok _ id fun _ => hs
    · exact Moves.refl s
  · exact Moves.refl s

theorem moves_invokeAny (msg : ProtoMessage) (hs : s.anyHandler.isSome → ok s.state) :
    Moves E ok s (invokeAny E msg s) := by
  unfold invokeAny
  cases hhandler : s.anyHandler with
  | none => exact Moves.refl s
  | some handler =>
      rw [hhandler] at hs
      exact moves_invoke hok _ id fun _ => hs rfl

/-- The handler of the message's id may end the session, unless the any handler
is called after it. -/
theorem moves_handleMessage (type : UInt32) (msg : ProtoMessage) (hs : ok s.state)
    (hany : (handleInternal E msg s).state.terminal = false →
      (invokeMessage E type msg (handleInternal E msg s)).anyHandler.isSome →
        ok (invokeMessage E type msg (handleInternal E msg s)).state) :
    Moves E ok s (handleMessage E type msg s) := by
  have hinternal := moves_handleInternal (E := E) hok msg hs
  unfold handleMessage
  dsimp only
  split
  · exact hinternal
  · next hterminal =>
      have hlive := Bool.eq_false_iff.mpr hterminal
      exact (hinternal.trans (moves_invokeMessage hok type msg (hok _ hlive))).trans
        (moves_invokeAny hok msg (hany hlive))

/-- A frame reaches the raw handler; what follows depends on the state in which
the handler leaves the connection. -/
theorem moves_handleFrame (frame : Frame) (hs : s.rawHandler.isSome → ok s.state)
    (hmessage : ∀ msg, parse E frame = some msg →
      Moves E ok (invokeRaw E frame s) (handleMessage E frame.type msg (invokeRaw E frame s))) :
    Moves E ok s (handleFrame E frame s) := by
  have hraw := moves_invokeRaw (E := E) hok frame hs
  unfold handleFrame
  dsimp only
  split
  · exact hraw
  · next create hcreate =>
      split
      · exact hraw.trans (moves_fail hok _ _ _)
      · next msg hparse =>
          refine hraw.trans (hmessage msg ?_)
          rw [parse, hcreate, Option.bind_some, hparse]

theorem moves_onReady (hs : ok s.state) : Moves E ok s (onReady E s) :=
  (moves_sendHello hs).trans (moves_setState hok .helloSent fun _ => by
    rw [sendHello_state]
    exact hs)

theorem moves_onHandshakeError (what : CString) (s : Connection σ) :
    Moves E ok s (onHandshakeError E what s) := by
  have herror : Untouched s { s with lastError := some ⟨.handshakeError, what⟩ } :=
    ⟨rfl, rfl, rfl, rfl⟩
  exact herror.moves.trans (moves_fail hok _ _ _)

theorem moves_onException (e : ApiException) (s : Connection σ) :
    Moves E ok s (onException E e s) := by
  unfold onException
  split
  · have herror : Untouched s { s with lastError := some e } := ⟨rfl, rfl, rfl, rfl⟩
    exact herror.moves.trans (moves_fail hok _ _ _)
  · exact Moves.refl s

/-! ## Timers and transport -/

theorem moves_sendPing (s : Connection σ) : Moves E ok s (sendPing E s) := by
  unfold sendPing
  by_cases hstate : s.state = .connected
  · rw [if_neg (not_not_intro hstate)]
    have hsend : Moves E ok s (send E MessageId.pingRequest EmptyMessage () s) :=
      moves_send _ _ _ (hstate ▸ hok _ rfl)
    refine hsend.trans (Untouched.moves ?_)
    dsimp only
    split <;> exact ⟨rfl, rfl, rfl, rfl⟩
  · rw [if_pos hstate]

theorem moves_runTimer (callback : TimerCallback) (s : Connection σ) :
    Moves E ok s (runTimer E callback s) := by
  cases callback with
  | connectTimeout =>
      unfold runTimer
      dsimp only
      split
      · exact moves_fail hok _ _ _
      · exact Moves.refl s
  | ping => exact moves_sendPing hok s
  | pongTimeout =>
      have htimer : Untouched s { s with pongTimer := invalidTimer } := ⟨rfl, rfl, rfl, rfl⟩
      unfold runTimer
      dsimp only
      split
      · exact htimer.moves.trans (moves_fail hok _ _ _)
      · exact htimer.moves

theorem moves_onTimer (id : TimerId) (s : Connection σ) : Moves E ok s (onTimer E id s) := by
  unfold onTimer
  split
  · next timer _ =>
      have htimers : Untouched s (takeTimer id s) := ⟨rfl, rfl, rfl, rfl⟩
      exact htimers.moves.trans (moves_runTimer hok timer.callback _)
  · exact Moves.refl s

/-- The handshake hooks may set the frame helper; the rest is moves. -/
theorem moves_onConnectedTransport (ec : Option ErrorCode) (hs : ec = none → ok s.state) :
    ∃ f, Moves E ok { s with frameHelper := f } (onConnectedTransport E ec s) := by
  have hstart : ∀ s : Connection σ, Moves E ok s (startRead s) := by
    intro s
    have hreading : Untouched s { s with transport := { s.transport with reading := true } } :=
      ⟨rfl, rfl, rfl, rfl⟩
    exact hreading.moves.trans (Move.note .startRead _ trivial False.elim).moves
  unfold onConnectedTransport
  cases ec with
  | some ec => exact ⟨s.frameHelper, moves_fail hok _ _ _⟩
  | none =>
      dsimp only
      split
      · have hlive := hs rfl
        have hmoves := hstart { s with frameHelper :=
          (E.helper.connectBytes (E.helper.setHandshakeHandlers s.frameHelper)).2 }
        refine ⟨(E.helper.connectBytes (E.helper.setHandshakeHandlers s.frameHelper)).2, ?_⟩
        split
        · exact hmoves
        · exact hmoves.tail (Move.note (.writeInitial _) _ trivial fun _ => hlive)
      · exact ⟨s.frameHelper, (hstart s).trans (moves_onReady hok (hs rfl))⟩

theorem moves_onReadError (ec : ErrorCode) (s : Connection σ) :
    Moves E ok s (onReadError E ec s) := by
  unfold onReadError
  split
  · exact Moves.refl s
  · exact moves_fail hok _ _ _

end

/-! ## The loop of `drain_frames` -/

/-- The states in which the loop of `drain_frames` takes a turn. -/
def drainTurns (E : Environment σ) (s : Connection σ) : List (Connection σ) :=
  turns (drainTurn E) (E.helper.buffered s.frameHelper + 1) s

/-- What the turns do, if each of them starts where `ok` holds, `drain_frames`
does. -/
theorem drainFrames_of_turns {R : Connection σ → Connection σ → Prop} {ok : Connection σ → Prop}
    (hrefl : ∀ s, R s s) (htrans : ∀ {s t u}, R s t → R t u → R s u)
    (hturn : ∀ s, ok s → R s (drainTurn E s).1) (h : ∀ t ∈ drainTurns E s, ok t) :
    R s (drainFrames E s) :=
  loop_of_turns hrefl htrans hturn _ s h

/-- Without a condition on the states. -/
abbrev AnyMoves (E : Environment σ) : Connection σ → Connection σ → Prop := Moves E fun _ => True

theorem Move.buffered (h : Move E ok s t) :
    E.helper.buffered t.frameHelper = E.helper.buffered s.frameHelper := by
  cases h with
  | update h => rw [h.frameHelper]
  | note o s => rfl
  | write writer type payload s => exact E.helper.encode_buffered type payload s.frameHelper
  | assign state s => rfl
  | complete handler ec s => rfl

theorem Moves.buffered (h : Moves E ok s t) :
    E.helper.buffered t.frameHelper = E.helper.buffered s.frameHelper := by
  induction h with
  | refl => rfl
  | tail _ hmove ih => exact hmove.buffered.trans ih

theorem anyMoves_handleFrame (frame : Frame) (s : Connection σ) :
    AnyMoves E s (handleFrame E frame s) := by
  have hok : ∀ state : ConnectionState, state.terminal = false → True := fun _ _ => trivial
  exact moves_handleFrame hok frame (fun _ => trivial) fun msg _ =>
    moves_handleMessage hok frame.type msg trivial fun _ _ => trivial

/-- What a turn of the loop does once the frame helper has advanced. -/
theorem moves_drainTurn (s : Connection σ) :
    AnyMoves E { s with frameHelper := (E.helper.advance s.frameHelper).2 } (drainTurn E s).1 := by
  have hok : ∀ state : ConnectionState, state.terminal = false → True := fun _ _ => trivial
  unfold drainTurn
  dsimp only
  split
  · exact Moves.refl _
  · exact moves_onException hok _ _
  · exact Moves.refl _
  · exact moves_onReady hok trivial
  · exact moves_onHandshakeError hok _ _
  · exact anyMoves_handleFrame _ _

theorem continues_of_drainTurn {s : Connection σ} (h : (drainTurn E s).2 = true) :
    (E.helper.advance s.frameHelper).1.continues = true := by
  unfold drainTurn at h
  cases hadvance : (E.helper.advance s.frameHelper).1 with
  | needMore => simp only [hadvance, Bool.false_eq_true] at h
  | throws e => simp only [hadvance, Bool.false_eq_true] at h
  | silent => rfl
  | ready => rfl
  | error what => rfl
  | ok frame => rfl

theorem drainTurn_decreases (E : Environment σ) :
    Decreases (drainTurn E) fun s => E.helper.buffered s.frameHelper := by
  intro s hgo
  have hadvance := E.helper.advance_buffered s.frameHelper (continues_of_drainTurn hgo)
  show E.helper.buffered (drainTurn E s).1.frameHelper < E.helper.buffered s.frameHelper
  rw [(moves_drainTurn s).buffered]
  exact hadvance

/-- `drain_frames` is the loop of the source: its bound is never reached. -/
theorem drainFrames_eq (s : Connection σ) : drainFrames E s =
    if (drainTurn E s).2 then drainFrames E (drainTurn E s).1 else (drainTurn E s).1 := by
  have hdec := drainTurn_decreases E
  rw [drainFrames, loop_eq hdec (Nat.lt_succ_self _)]
  split
  · next hgo =>
      have hlt : E.helper.buffered (drainTurn E s).1.frameHelper <
          E.helper.buffered s.frameHelper := hdec s hgo
      exact loop_congr hdec _ _ _ (by omega) (Nat.lt_succ_self _)
  · rfl

end Connection

end EsphomeApi
