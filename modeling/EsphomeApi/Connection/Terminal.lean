/-
EsphomeApi.Connection.Terminal — what a connection does once it is `Failed` or
`Closed`.

The log records every change of state, so "from then on, until `start` is
called again" can be read off it: `isOver` says whether a log ends in a session
that is over, and `SilentAfter` that nothing loud comes while it is. `fail` and
`disconnect` look at the state first; the connect result, inbound bytes, the
completion of a `DisconnectRequest` write and the end of the handshake do not.
`terminal_is_final` says that these are all that can break the silence.
-/
import EsphomeApi.Connection.Completion

namespace EsphomeApi

open Proto Library

/-- Outputs that must not come once the session is over. -/
def Output.Forbidden : Output → Prop
  | .state _ => True
  | o => o.Loud

/-- Whether the session is over after an output. -/
def Output.isOver (before : Bool) : Output → Bool
  | .started => false
  | .state after => after.terminal
  | _ => before

/-- The log tells the state. -/
def Output.stateAfter (before : ConnectionState) : Output → ConnectionState
  | .state after => after
  | _ => before

/-- From `Failed` or `Closed` on, until `start` is called again: no change of
state, no write of the connection's own, no call of a message, raw or any
handler. -/
def TerminalIsFinal (log : List Output) : Prop :=
  ∀ before state between o after, log = before ++ .state state :: (between ++ o :: after) →
    state.terminal = true → .started ∉ between → ¬ o.Forbidden

/-- `TerminalIsFinal`, with what came before given by whether the session is
over. -/
def SilentAfter : Bool → List Output → Prop
  | _, [] => True
  | before, o :: log => (before = true → ¬ o.Forbidden) ∧ SilentAfter (o.isOver before) log

theorem silentAfter_append : ∀ (before : Bool) (log more : List Output),
    SilentAfter before (log ++ more) ↔
      SilentAfter before log ∧ SilentAfter (log.foldl Output.isOver before) more
  | _, [], _ => by simp [SilentAfter]
  | before, o :: log, more => by
      simp [SilentAfter, silentAfter_append (o.isOver before) log more, and_assoc]

/-- The session stays over while nothing forbidden comes and `start` is not called. -/
theorem over_of_silent : ∀ {log : List Output}, SilentAfter true log → .started ∉ log →
    log.foldl Output.isOver true = true
  | [], _, _ => rfl
  | o :: log, h, hstart => by
      have hover : o.isOver true = true := by
        cases o with
        | started => exact absurd (List.mem_cons_self ..) hstart
        | state state => exact absurd trivial (h.1 rfl)
        | _ => rfl
      rw [List.foldl_cons, hover]
      have hrest := h.2
      rw [hover] at hrest
      exact over_of_silent hrest fun hmem => hstart (List.mem_cons_of_mem _ hmem)

theorem terminalIsFinal_of_silent {log : List Output} (h : SilentAfter false log) :
    TerminalIsFinal log := by
  intro before state between o after hlog hterminal hstart
  rw [hlog, silentAfter_append] at h
  have hrest := h.2.2
  rw [Output.isOver, hterminal, silentAfter_append] at hrest
  exact hrest.2.1 (over_of_silent hrest.1 hstart)

namespace Connection

variable {σ : Type} {E : Environment σ} {s t : Connection σ}

/-- Nothing forbidden has been done, and the log knows the state. -/
structure Silent (s : Connection σ) : Prop where
  silent : SilentAfter false s.log
  isOver : s.log.foldl Output.isOver false = s.state.terminal
  state : s.log.foldl Output.stateAfter .disconnected = s.state

/-- States in which the session is not over. -/
def Live (state : ConnectionState) : Prop := state.terminal = false

theorem live (state : ConnectionState) (h : state.terminal = false) : Live state := h

theorem Silent.emit {o : Output} (h : Silent s) (hstate : o.stateAfter s.state = t.state)
    (hover : o.isOver s.state.terminal = t.state.terminal) (hlog : t.log = s.log ++ [o])
    (hforbidden : s.state.terminal = true → ¬ o.Forbidden) : Silent t := by
  refine ⟨?_, ?_, ?_⟩
  · rw [hlog, silentAfter_append, h.isOver]
    exact ⟨h.silent, hforbidden, trivial⟩
  · rw [hlog, List.foldl_append, h.isOver]
    exact hover
  · rw [hlog, List.foldl_append, h.state]
    exact hstate

/-- A plain output changes no state. -/
theorem Silent.note {o : Output} (h : Silent s) (hplain : o.Plain) (hstate : t.state = s.state)
    (hlog : t.log = s.log ++ [o]) (hloud : o.Loud → Live s.state) : Silent t := by
  have hforbidden : o.Forbidden → o.Loud := by
    intro hforbidden
    cases o with
    | state state => exact hplain.elim
    | _ => exact hforbidden
  refine h.emit ?_ ?_ hlog fun hterminal hbad => ?_
  · rw [hstate]
    cases o with
    | state state => exact hplain.elim
    | _ => rfl
  · rw [hstate]
    cases o with
    | started => exact hplain.elim
    | state state => exact hplain.elim
    | _ => rfl
  · exact absurd (hloud (hforbidden hbad)) (by rw [Live, hterminal]; exact nofun)

theorem Silent.congr (h : Silent s) (hstate : t.state = s.state) (hlog : t.log = s.log) :
    Silent t :=
  ⟨hlog ▸ h.silent, by rw [hlog, hstate, h.isOver], by rw [hlog, hstate, h.state]⟩

theorem Move.silent (h : Move E Live s t) (hs : Silent s) : Silent t := by
  cases h with
  | update h => exact hs.congr h.state h.log
  | note o s hplain hloud => exact hs.note hplain rfl rfl hloud
  | write writer type payload s hwriter =>
      exact hs.note (o := .write writer ⟨type, payload⟩ _) trivial rfl rfl hwriter
  | assign state s hne hlive =>
      exact hs.emit rfl rfl rfl fun hterminal => absurd (hlive.symm.trans hterminal) nofun
  | complete handler ec s hhandler =>
      exact hs.emit rfl rfl rfl fun _ => id

theorem Moves.silent (h : Moves E Live s t) (hs : Silent s) : Silent t := by
  induction h with
  | refl => exact hs
  | tail _ hmove ih => exact hmove.silent ih

/-! ## Frames after the session -/

/-- A message that the connection passes over in a state that is terminal: it
is no request, nor a `DisconnectResponse` in `Failed`. -/
def PassesOver (state : ConnectionState) (msg : ProtoMessage) : Prop :=
  msg ≠ .disconnectRequest ∧ msg ≠ .pingRequest ∧ (msg = .disconnectResponse → state = .closed)

/-- A frame that does not stir a connection in `Failed` or `Closed`, be it so
from the start or by what a handler of the frame has done: there is no raw
handler to call, the message is passed over, there is no any handler to call. -/
structure SilentFrame (E : Environment σ) (s : Connection σ) (frame : Frame) : Prop where
  raw : s.state.terminal = true → s.rawHandler = none
  internal : ∀ msg, parse E frame = some msg → (invokeRaw E frame s).state.terminal = true →
    PassesOver (invokeRaw E frame s).state msg
  any : ∀ msg, parse E frame = some msg →
    let t := handleInternal E msg (invokeRaw E frame s)
    t.state.terminal = false → (invokeMessage E frame.type msg t).state.terminal = true →
      (invokeMessage E frame.type msg t).anyHandler = none

/-- A turn of `drain_frames` that does not stir a connection in `Failed` or
`Closed`: the handshake does not end, and a frame is silent. -/
def SilentTurn (E : Environment σ) (s : Connection σ) : Prop :=
  match (E.helper.advance s.frameHelper).1 with
  | .ready => s.state.terminal = false
  | .ok frame => SilentFrame E { s with frameHelper := (E.helper.advance s.frameHelper).2 } frame
  | _ => True

theorem fail_terminal (ec : ErrorCode) (what : CString) (hs : s.state.terminal = true) :
    fail E ec what s = s := if_pos hs

/-- In `Failed` or `Closed`, a message that is passed over changes nothing that
can be seen. -/
theorem handleInternal_over {msg : ProtoMessage} (hs : s.state.terminal = true)
    (hmsg : PassesOver s.state msg) :
    Moves E Live s (handleInternal E msg s) ∧
      (handleInternal E msg s).state.terminal = true := by
  obtain ⟨hrequest, hping, hresponse⟩ := hmsg
  cases msg with
  | helloResponse v =>
      have hstate : s.state ≠ .helloSent := by
        intro hhello
        rw [hhello] at hs
        exact nomatch hs
      have hsame : handleInternal E (.helloResponse v) s = s := if_pos hstate
      rw [hsame]
      exact ⟨Moves.refl s, hs⟩
  | authenticationResponse v =>
      have hsame : handleInternal E (.authenticationResponse v) s = s := by
        unfold handleInternal handleAuthenticationResponse
        dsimp only
        split
        · exact fail_terminal _ _ hs
        · rfl
      rw [hsame]
      exact ⟨Moves.refl s, hs⟩
  | disconnectRequest => exact absurd rfl hrequest
  | disconnectResponse =>
      refine ⟨moves_handleDisconnectResponse live fun hne => absurd (hresponse rfl) hne, ?_⟩
      show (setState E .closed _).state.terminal = true
      rw [setState_state (by decide) (by decide)]
      rfl
  | pingRequest => exact absurd rfl hping
  | pingResponse =>
      have huntouched := untouched_handlePingResponse (E := E) s
      exact ⟨huntouched.moves, by rw [← hs, ← huntouched.state]; rfl⟩
  | helloRequest v => exact ⟨Moves.refl s, hs⟩
  | authenticationRequest v => exact ⟨Moves.refl s, hs⟩
  | other type fields v => exact ⟨Moves.refl s, hs⟩

theorem moves_handleMessage_over (type : UInt32) {msg : ProtoMessage}
    (hs : s.state.terminal = true) (hmsg : PassesOver s.state msg) :
    Moves E Live s (handleMessage E type msg s) := by
  obtain ⟨hmoves, hterminal⟩ := handleInternal_over (E := E) hs hmsg
  unfold handleMessage
  dsimp only
  rw [if_pos hterminal]
  exact hmoves

theorem live_of_not_terminal {state : ConnectionState} (h : ¬ state.terminal = true) : Live state :=
  Bool.eq_false_iff.mpr h

theorem SilentFrame.moves {frame : Frame} (h : SilentFrame E s frame) :
    Moves E Live s (handleFrame E frame s) := by
  have hraw : s.rawHandler.isSome → Live s.state := by
    intro hhandler
    refine live_of_not_terminal fun hterminal => ?_
    rw [h.raw hterminal] at hhandler
    exact nomatch hhandler
  refine moves_handleFrame live frame hraw fun msg hparse => ?_
  by_cases hterminal : (invokeRaw E frame s).state.terminal = true
  · exact moves_handleMessage_over frame.type hterminal (h.internal msg hparse hterminal)
  · refine moves_handleMessage live frame.type msg (live_of_not_terminal hterminal) ?_
    intro hgoes hhandler
    refine live_of_not_terminal fun hover => ?_
    rw [h.any msg hparse hgoes hover] at hhandler
    exact nomatch hhandler

theorem silent_drainTurn (hturn : SilentTurn E s) (hs : Silent s) : Silent (drainTurn E s).1 := by
  have hadvance : Silent { s with frameHelper := (E.helper.advance s.frameHelper).2 } :=
    hs.congr rfl rfl
  unfold drainTurn
  dsimp only
  split
  · exact hadvance
  · exact (moves_onException live _ _).silent hadvance
  · exact hadvance
  · next hready =>
      rw [SilentTurn, hready] at hturn
      have hmoves : Moves E Live { s with frameHelper := (E.helper.advance s.frameHelper).2 }
          (onReady E { s with frameHelper := (E.helper.advance s.frameHelper).2 }) :=
        moves_onReady live hturn
      exact hmoves.silent hadvance
  · exact (moves_onHandshakeError live _ _).silent hadvance
  · next frame hok =>
      rw [SilentTurn, hok] at hturn
      exact hturn.moves.silent hadvance

/-! ## Handlers that disconnect -/

section

variable (hinline : ∀ t, E.inline t = false)

include hinline

theorem live_disconnect (hs : Live s.state) : Live (disconnect E s).state := by
  unfold disconnect
  split
  · exact hs
  · rw [hinline]
    show Live (setStateWith E id .closing (stopKeepalive E s)).state
    rw [setStateWith_id_state]
    rfl

theorem live_perform (call : Call) (hs : Live s.state) :
    Live (perform E (disconnect E) call s).state := by
  cases call with
  | disconnect => exact live_disconnect hinline hs
  | on type handler =>
      show Live (on E type handler s).state
      rw [(untouched_on type handler s).state]
      exact hs
  | sendRaw type payload => exact hs
  | onAny handler => exact hs
  | onRaw handler => exact hs
  | onState handler => exact hs
  | onError handler => exact hs

theorem live_invoke (call : Invocation) (hs : Live s.state) : Live (invoke E call s).state := by
  have hall : ∀ (calls : List Call) (s : Connection σ), Live s.state →
      Live (calls.foldl (fun s c => perform E (disconnect E) c s) s).state := by
    intro calls
    induction calls with
    | nil => exact fun _ hs => hs
    | cons call calls ih => exact fun s hs => ih _ (live_perform hinline call hs)
  exact hall _ _ hs

/-- With a transport that completes writes later, a frame that finds the session
going on is silent. -/
theorem silentFrame_of_live (frame : Frame) (hs : Live s.state) : SilentFrame E s frame := by
  have hraw : Live (invokeRaw E frame s).state := by
    unfold invokeRaw
    split
    · exact live_invoke hinline _ hs
    · exact hs
  have hmessage : ∀ (msg : ProtoMessage) (t : Connection σ), Live t.state →
      Live (invokeMessage E frame.type msg t).state := by
    intro msg t ht
    unfold invokeMessage
    split
    · split
      · exact live_invoke hinline _ ht
      · exact ht
    · exact ht
  refine ⟨?_, ?_, ?_⟩
  · intro hterminal
    exact nomatch hs.symm.trans hterminal
  · intro msg _ hterminal
    exact nomatch hraw.symm.trans hterminal
  · intro msg _ t ht hterminal
    exact nomatch (hmessage msg t ht).symm.trans hterminal

end

/-! ## Runs -/

/-- An event that does not stir a connection whose session is over. -/
def SilentEvent (E : Environment σ) (s : Connection σ) : Event → Prop
  | .connectResult none => s.transport.connects ≠ 0 → s.state.terminal = false
  | .bytes data => s.transport.reading = true → ∀ t ∈ drainTurns E (feed E data s), SilentTurn E t
  | .writeDone => s.transport.completions ≠ 0 → s.state ≠ .failed
  | _ => True

/-- `start` begins a new session. -/
theorem silent_start (host : CString) (port : UInt16) (onDone : HandlerId) (hs : Silent s) :
    Silent (start E host port onDone s) := by
  have hset : ∀ t : Connection σ, SilentAfter false t.log →
      t.log.foldl Output.isOver false = false →
      t.log.foldl Output.stateAfter .disconnected = t.state →
      Silent (setState E .connecting t) := by
    intro t hsilent hover hstate
    unfold setState setStateWith
    split
    · next hconnecting => exact ⟨hsilent, by rw [hover, ← hconnecting]; rfl, hstate⟩
    · have hassign : Silent (emit (.state .connecting) { t with state := .connecting }) := by
        refine ⟨?_, ?_, ?_⟩
        · show SilentAfter false (t.log ++ [Output.state .connecting])
          rw [silentAfter_append, hover]
          exact ⟨hsilent, nofun, trivial⟩
        · show (t.log ++ [Output.state .connecting]).foldl Output.isOver false = false
          rw [List.foldl_append]
          rfl
        · show (t.log ++ [Output.state .connecting]).foldl Output.stateAfter .disconnected =
            .connecting
          rw [List.foldl_append]
          rfl
      dsimp only
      split
      · exact (moves_invoke live _ id False.elim).silent hassign
      · exact hassign
  have hconnecting : Silent (setState E .connecting
      (emit .started { s with connectHandler := some onDone, lastError := none })) := by
    refine hset _ ?_ ?_ ?_
    · show SilentAfter false (s.log ++ [Output.started])
      rw [silentAfter_append]
      exact ⟨hs.silent, fun _ => id, trivial⟩
    · show (s.log ++ [Output.started]).foldl Output.isOver false = false
      rw [List.foldl_append]
      rfl
    · show (s.log ++ [Output.started]).foldl Output.stateAfter .disconnected = s.state
      rw [List.foldl_append, hs.state]
      rfl
  unfold start
  exact hconnecting.note (o := .connect host port) trivial rfl rfl False.elim

theorem silent_step (e : Event) (hs : Silent s)
    (he : SilentEvent E s e) : Silent (step E s e) := by
  cases e with
  | start host port onDone => exact silent_start host port onDone hs
  | connectResult ec =>
      show Silent (connectResult E ec s)
      unfold connectResult
      split
      · exact hs
      · next hconnects =>
          have hlive : ec = none → Live (takeConnect s).state := by
            intro hnone
            subst hnone
            exact he hconnects
          obtain ⟨f, hmoves⟩ := moves_onConnectedTransport (E := E) live ec hlive
          exact hmoves.silent (hs.congr rfl rfl)
  | bytes data =>
      show Silent (receive E data s)
      unfold receive
      split
      · next hreading =>
          exact drainFrames_of_turns (R := fun s t => Silent s → Silent t) (fun _ => id)
            (fun h h' => h' ∘ h) (fun t ht => silent_drainTurn ht) (he hreading)
            (hs.congr rfl rfl)
      · exact hs
  | readError ec =>
      show Silent (readFailed E ec s)
      unfold readFailed
      split
      · exact (moves_onReadError live ec (stopReading s)).silent (hs.congr rfl rfl)
      · exact hs
  | writeDone =>
      show Silent (writeDone E s)
      unfold writeDone
      split
      · exact hs
      · next hcompletions =>
          have hlive : (takeCompletion s).state ≠ .closed → Live (takeCompletion s).state := by
            intro hclosed
            have hfailed := he hcompletions
            show s.state.terminal = false
            cases hstate : s.state with
            | failed => exact absurd hstate hfailed
            | closed => exact absurd hstate hclosed
            | _ => rfl
          exact (moves_finishDisconnect hlive).silent (hs.congr rfl rfl)
  | timer id => exact (moves_onTimer live id s).silent hs
  | elapse ms => exact hs.congr rfl rfl
  | call call => exact (moves_perform (moves_disconnect live) call s).silent hs

/-- In every run of a connection whose events do not stir it once its session
is over, `Failed` and `Closed` are final; the log tells the state. -/
theorem terminal_is_final (frameHelper : σ) (options : ConnectionOptions)
    (events : List Event)
    (hevents : Guarded (step E) (SilentEvent E) (create frameHelper options) events) :
    ∀ t ∈ states (step E) (create frameHelper options) events,
      TerminalIsFinal t.log ∧ t.log.foldl Output.stateAfter .disconnected = t.state := by
  have hcreate : Silent (create frameHelper options) := ⟨trivial, rfl, rfl⟩
  have hinv : ∀ t ∈ states (step E) (create frameHelper options) events, Silent t :=
    states_of_guarded (fun s e hs he => silent_step e hs he) hcreate hevents
  intro t ht
  exact ⟨terminalIsFinal_of_silent (hinv t ht).silent, (hinv t ht).state⟩

/-- The deadline passes in the middle of the attempt, and the read that was
under way ends with an error. -/
theorem terminal_is_final_deadline :
    let t := run (step plaintextEnvironment) plaintext
      [.start (lit "device.local") 6053 7, .connectResult none, .elapse 30000, .timer 1,
        .readError (.transport 125)]
    t.state = .failed ∧ TerminalIsFinal t.log := by
  have hguard : Guarded (step plaintextEnvironment) (SilentEvent plaintextEnvironment) plaintext
      [.start (lit "device.local") 6053 7, .connectResult none, .elapse 30000, .timer 1,
        .readError (.transport 125)] :=
    ⟨trivial, fun _ => rfl, trivial, trivial, trivial, trivial⟩
  exact ⟨by decide +kernel,
    (terminal_is_final (E := plaintextEnvironment) {} {} _ hguard _ (run_mem_states ..)).1⟩

/-- The deadline passes while the connect result is on its way to the
connection: it goes from `Failed` to `HelloSent` and sends its hello. -/
theorem terminal_not_final :
    let s := run (step plaintextEnvironment) plaintext
      [.start (lit "device.local") 6053 7, .elapse 30000, .timer 1]
    let t := step plaintextEnvironment s (.connectResult none)
    s.state = .failed ∧ t.state = .helloSent ∧ ¬ TerminalIsFinal t.log := by
  refine ⟨by decide +kernel, by decide +kernel, fun hfinal => ?_⟩
  exact hfinal [.started, .state .connecting, .connect (lit "device.local") 6053, .close] .failed
    [.invoked (.done 7 (some .timedOut)), .startRead] _ _ rfl rfl (by simp) rfl

end Connection

end EsphomeApi
