/-
EsphomeApi.Connection.Completion — how often `on_done` is called after `start`.

Every move leaves the pending handler and the number of its calls alone, or
takes the handler away and calls it once (`Progress`), so `on_done` is never
called twice. Whether it has been called when the connection is `Connected`,
`Failed` or `Closed` is another matter: two branches close the connection
without completing the connect. `Settled` is the invariant that holds between
events as long as neither of them is taken while `on_done` is pending. One of
them depends on the transport, which is asked about the connections of the run
only: their logs are the beginnings of what the run logs (`SettledIn`).
-/
import EsphomeApi.Connection.Moves
import EsphomeApi.Frame.Helpers
import EsphomeApi.Library.GuardedRun

namespace EsphomeApi

open Proto Library

/-- `Connected`, `Failed` or `Closed`. -/
def ConnectionState.settled : ConnectionState → Bool
  | .connected => true
  | .closed => true
  | .failed => true
  | _ => false

/-- A call of a connect handler. -/
def Output.isDone (onDone : HandlerId) : Output → Bool
  | .invoked (.done handler _) => handler = onDone
  | _ => false

/-- The application starts an attempt. -/
def Event.isStart : Event → Bool
  | .start _ _ _ => true
  | _ => false

namespace Connection

variable {σ : Type} {E : Environment σ} {ok : ConnectionState → Prop} {s t u : Connection σ}
  {onDone : HandlerId}

/-- How often a connect handler has been called. -/
def doneCount (onDone : HandlerId) (s : Connection σ) : Nat :=
  s.log.countP (Output.isDone onDone)

/-! ## At most once -/

/-- The pending handler is still pending, or has been called once. -/
def Progress (onDone : HandlerId) (s t : Connection σ) : Prop :=
  t.connectHandler = s.connectHandler ∧ t.doneCount onDone = s.doneCount onDone ∨
    t.connectHandler = none ∧ ∃ handler, s.connectHandler = some handler ∧
      t.doneCount onDone = s.doneCount onDone + if handler = onDone then 1 else 0

theorem Progress.trans (h : Progress onDone s t) (h' : Progress onDone t u) :
    Progress onDone s u := by
  rcases h with ⟨hpending, hcount⟩ | ⟨hnone, handler, hsome, hcount⟩
  · rcases h' with ⟨hpending', hcount'⟩ | ⟨hnone', handler', hsome', hcount'⟩
    · exact .inl ⟨hpending'.trans hpending, hcount'.trans hcount⟩
    · exact .inr ⟨hnone', handler', hpending ▸ hsome', by rw [hcount', hcount]⟩
  · rcases h' with ⟨hpending', hcount'⟩ | ⟨-, handler', hsome', -⟩
    · exact .inr ⟨hpending'.trans hnone, handler, hsome, hcount'.trans hcount⟩
    · exact nomatch hnone.symm.trans hsome'

theorem doneCount_emit (o : Output) (s : Connection σ) : (emit o s).doneCount onDone =
    s.doneCount onDone + if o.isDone onDone then 1 else 0 := by
  rw [doneCount, emit, List.countP_append, List.countP_singleton, doneCount]

theorem isDone_of_plain {o : Output} (h : o.Plain) : o.isDone onDone = false := by
  cases o with
  | invoked call =>
      cases call with
      | done handler ec => exact absurd trivial h
      | _ => rfl
  | _ => rfl

theorem Move.progress (h : Move E ok s t) : Progress onDone s t := by
  cases h with
  | update h => exact .inl ⟨h.connectHandler, by rw [doneCount, doneCount, h.log]⟩
  | note o s hplain hloud =>
      refine .inl ⟨rfl, ?_⟩
      rw [doneCount_emit, isDone_of_plain hplain]
      rfl
  | write writer type payload s hwriter => exact .inl ⟨rfl, doneCount_emit _ _⟩
  | assign state s hne hok => exact .inl ⟨rfl, doneCount_emit _ _⟩
  | complete handler ec s hs =>
      refine .inr ⟨rfl, handler, hs, ?_⟩
      rw [doneCount_emit]
      simp only [doneCount, Output.isDone, decide_eq_true_eq]

theorem Moves.progress (h : Moves E ok s t) : Progress onDone s t := by
  induction h with
  | refl => exact .inl ⟨rfl, rfl⟩
  | tail _ hmove ih => exact ih.trans hmove.progress

theorem Moves.connectHandler_none (h : Moves E ok s t) (hs : s.connectHandler = none) :
    t.connectHandler = none := by
  have hprogress : Progress 0 s t := h.progress
  rcases hprogress with ⟨hpending, -⟩ | ⟨hnone, -⟩
  · exact hpending.trans hs
  · exact hnone

/-- Every function of the machine makes moves. -/
theorem always (state : ConnectionState) (_ : state.terminal = false) :
    (fun _ : ConnectionState => True) state := trivial

/-! ## Between events -/

/-- While `on_done` is pending the connection is not `Connected`, `Failed` or
`Closed`. -/
def Settled (s : Connection σ) : Prop := s.connectHandler.isSome → s.state.settled = false

theorem settled_of_none (h : s.connectHandler = none) : Settled s := by
  intro hpending
  rw [h] at hpending
  exact nomatch hpending

theorem Settled.congr (hs : Settled s) (hstate : t.state = s.state)
    (hconnect : t.connectHandler = s.connectHandler) : Settled t := by
  intro hpending
  rw [hstate]
  exact hs (hconnect ▸ hpending)

theorem Untouched.settled (h : Untouched s t) (hs : Settled s) : Settled t :=
  hs.congr h.state h.connectHandler

theorem Move.log_prefix (h : Move E ok s t) : s.log <+: t.log := by
  cases h with
  | update h => exact h.log ▸ List.prefix_rfl
  | note o s hplain hloud => exact List.prefix_append _ _
  | write writer type payload s hwriter => exact List.prefix_append _ _
  | assign state s hne hok => exact List.prefix_append _ _
  | complete handler ec s hs => exact List.prefix_append _ _

theorem Moves.log_prefix (h : Moves E ok s t) : s.log <+: t.log := by
  induction h with
  | refl => exact List.prefix_rfl
  | tail _ hmove ih => exact ih.trans hmove.log_prefix

/-- In a run with this log, `disconnect` in `HelloSent` does not complete before it
returns while `on_done` is pending. -/
def NotInline (E : Environment σ) (log : List Output) : Prop :=
  ∀ s : Connection σ, s.log <+: log → s.state = .helloSent → s.connectHandler.isSome →
    E.inline s = false

variable {log : List Output}

/-- `Settled`, in a run with this log. -/
def SettledIn (log : List Output) (s : Connection σ) : Prop := s.log <+: log → Settled s

theorem SettledIn.later (h : SettledIn log s) (hlog : s.log <+: t.log)
    (hnow : Settled s → Settled t) : SettledIn log t :=
  fun hrun => hnow (h (hlog.trans hrun))

theorem SettledIn.congr (h : SettledIn log s) (hlog : t.log = s.log) (hstate : t.state = s.state)
    (hconnect : t.connectHandler = s.connectHandler) : SettledIn log t :=
  h.later (hlog ▸ List.prefix_rfl) fun hs => hs.congr hstate hconnect

theorem finishConnect_none (ec : Option ErrorCode) (s : Connection σ) :
    (finishConnect E ec s).connectHandler = none := by
  unfold finishConnect
  cases hhandler : s.connectHandler with
  | none => exact hhandler
  | some handler =>
      exact (moves_performAll (moves_disconnect always) _ _).connectHandler_none rfl

theorem setStateWith_connectHandler (state : ConnectionState) (s : Connection σ) :
    (setStateWith E id state s).connectHandler = s.connectHandler := by
  have hperform : ∀ (calls : List Call) (s : Connection σ),
      (calls.foldl (fun s c => perform E id c s) s).connectHandler = s.connectHandler := by
    intro calls
    induction calls with
    | nil => exact fun _ => rfl
    | cons call calls ih =>
        intro s
        rw [List.foldl_cons, ih]
        cases call with
        | on type handler => exact (untouched_on type handler s).connectHandler
        | _ => rfl
  unfold setStateWith
  split
  · rfl
  · dsimp only
    split
    · exact hperform _ _
    · rfl

/-- A failure completes the connect, if the session is not over yet. -/
theorem settled_fail (ec : ErrorCode) (what : CString) (hs : Settled s) :
    Settled (fail E ec what s) := by
  by_cases hpending : s.connectHandler.isSome
  · unfold fail
    split
    · exact hs
    · have hconnect : (closeTransport (cancelConnectTimer E (stopKeepalive E s))).connectHandler =
          s.connectHandler :=
        ((untouched_stopKeepalive (E := E) s).trans
          (untouched_cancelConnectTimer (E := E) _)).connectHandler
      dsimp only
      rw [hconnect, if_pos hpending]
      exact settled_of_none (finishConnect_none _ _)
  · refine settled_of_none ((moves_fail always ec what s).connectHandler_none ?_)
    exact Option.not_isSome_iff_eq_none.mp hpending

theorem settledIn_fail (ec : ErrorCode) (what : CString) (hs : SettledIn log s) :
    SettledIn log (fail E ec what s) := by
  have hmoves : AnyMoves E s (fail E ec what s) := moves_fail always ec what s
  exact hs.later hmoves.log_prefix (settled_fail ec what)

theorem settled_handleHelloResponse (v : HelloResponse.Value) (hs : Settled s) :
    Settled (handleHelloResponse E v s) := by
  have hhello : Settled { s with hello := ServerHello.ofResponse v } := hs.congr rfl rfl
  unfold handleHelloResponse
  split
  · exact hs
  · dsimp only
    split
    · exact settled_fail _ _ hhello
    · split
      · exact settled_fail _ _ hhello
      · exact settled_of_none (finishConnect_none _ _)

theorem settled_runTimer (callback : TimerCallback) (hs : Settled s) :
    Settled (runTimer E callback s) := by
  unfold runTimer
  cases callback with
  | connectTimeout =>
      dsimp only
      split
      · exact settled_fail _ _ hs
      · exact hs
  | ping =>
      unfold sendPing
      dsimp only
      split
      · exact hs
      · split <;> exact hs.congr rfl rfl
  | pongTimeout =>
      dsimp only
      split
      · exact settled_fail _ _ (hs.congr rfl rfl)
      · exact hs.congr rfl rfl

/-- A message of the connection, other than a `DisconnectResponse` while
`on_done` is pending. -/
theorem settled_handleInternal (msg : ProtoMessage) (hs : Settled s)
    (hmsg : msg = .disconnectResponse → s.connectHandler = none) :
    Settled (handleInternal E msg s) := by
  cases msg with
  | helloResponse v => exact settled_handleHelloResponse v hs
  | authenticationResponse v =>
      unfold handleInternal handleAuthenticationResponse
      dsimp only
      split
      · exact settled_fail _ _ hs
      · exact hs
  | disconnectRequest => exact settled_of_none (finishConnect_none _ _)
  | disconnectResponse =>
      have hmoves : AnyMoves E s (handleDisconnectResponse E s) :=
        moves_handleDisconnectResponse always fun _ => trivial
      exact settled_of_none (hmoves.connectHandler_none (hmsg rfl))
  | pingRequest => exact hs.congr rfl rfl
  | pingResponse => exact (untouched_handlePingResponse s).settled hs
  | helloRequest v => exact hs
  | authenticationRequest v => exact hs
  | other type fields v => exact hs

section

variable (hinline : NotInline E log)

include hinline

theorem settled_disconnect (hs : SettledIn log s) : SettledIn log (disconnect E s) := by
  intro hrun
  have hmoves : AnyMoves E s (disconnect E s) := moves_disconnect always s
  have hbefore := hmoves.log_prefix.trans hrun
  by_cases hpending : s.connectHandler.isSome
  · have hstate : s.state ≠ .connected := by
      intro hconnected
      have hnot := hs hbefore hpending
      rw [hconnected] at hnot
      exact nomatch hnot
    unfold disconnect
    split
    · exact hs hbefore
    · next hguard =>
        have hhello : s.state = .helloSent := by
          by_contra hhello
          exact hguard ⟨hstate, hhello⟩
        rw [hinline s hbefore hhello hpending]
        intro _
        show (setStateWith E id .closing (stopKeepalive E s)).state.settled = false
        rw [setStateWith_id_state]
        rfl
  · refine settled_of_none (hmoves.connectHandler_none ?_)
    exact Option.not_isSome_iff_eq_none.mp hpending

theorem settled_perform (call : Call) (hs : SettledIn log s) :
    SettledIn log (perform E (disconnect E) call s) := by
  cases call with
  | disconnect => exact settled_disconnect hinline hs
  | sendRaw type payload => exact hs.later (List.prefix_append _ _) fun h => h.congr rfl rfl
  | on type handler =>
      have hon := untouched_on (E := E) type handler s
      exact hs.congr hon.log hon.state hon.connectHandler
  | onAny handler => exact hs.congr rfl rfl rfl
  | onRaw handler => exact hs.congr rfl rfl rfl
  | onState handler => exact hs.congr rfl rfl rfl
  | onError handler => exact hs.congr rfl rfl rfl

theorem settled_performAll (calls : List Call) (hs : SettledIn log s) :
    SettledIn log (calls.foldl (fun s c => perform E (disconnect E) c s) s) := by
  induction calls generalizing s with
  | nil => exact hs
  | cons call calls ih => exact ih (settled_perform hinline call hs)

theorem settled_invoke (call : Invocation) (hs : SettledIn log s) :
    SettledIn log (invoke E call s) := by
  unfold invoke invokeWith
  exact settled_performAll hinline _
    (hs.later (List.prefix_append _ _) fun h => h.congr rfl rfl)

theorem settled_setState {state : ConnectionState} (hstate : state.settled = false)
    (s : Connection σ) (hs : SettledIn log s) : SettledIn log (setState E state s) := by
  unfold setState setStateWith
  split
  · exact hs
  · dsimp only
    split
    · exact settled_invoke hinline _ fun _ _ => hstate
    · exact fun _ _ => hstate

theorem settled_invokeRaw (frame : Frame) (hs : SettledIn log s) :
    SettledIn log (invokeRaw E frame s) := by
  unfold invokeRaw
  split
  · exact settled_invoke hinline _ hs
  · exact hs

theorem settled_handleMessage (type : UInt32) (msg : ProtoMessage) (hs : SettledIn log s)
    (hmsg : msg = .disconnectResponse → s.connectHandler = none) :
    SettledIn log (handleMessage E type msg s) := by
  have hmoves : AnyMoves E s (handleInternal E msg s) := moves_handleInternal always msg trivial
  have hinternal : SettledIn log (handleInternal E msg s) :=
    hs.later hmoves.log_prefix fun h => settled_handleInternal msg h hmsg
  have hmessage : SettledIn log (invokeMessage E type msg (handleInternal E msg s)) := by
    unfold invokeMessage
    split
    · split
      · exact settled_invoke hinline _ hinternal
      · exact hinternal
    · exact hinternal
  unfold handleMessage invokeAny
  dsimp only
  split
  · exact hinternal
  · split
    · exact settled_invoke hinline _ hmessage
    · exact hmessage

theorem settled_handleFrame (frame : Frame) (hs : SettledIn log s)
    (hframe : parse E frame = some .disconnectResponse → s.connectHandler = none) :
    SettledIn log (handleFrame E frame s) := by
  have hraw := settled_invokeRaw hinline frame hs
  unfold handleFrame
  dsimp only
  split
  · exact hraw
  · next create hcreate =>
      split
      · exact settledIn_fail _ _ hraw
      · next msg hparse =>
          refine settled_handleMessage hinline _ _ hraw fun hmsg => ?_
          have hmoves : AnyMoves E s (invokeRaw E frame s) :=
            moves_invokeRaw always frame fun _ => trivial
          refine hmoves.connectHandler_none (hframe ?_)
          rw [parse, hcreate, Option.bind_some, hparse, hmsg]

/-- The frame that is about to be handled is not a `DisconnectResponse`, or
`on_done` is not pending. -/
def CompletesTurn (E : Environment σ) (s : Connection σ) : Prop :=
  ∀ frame, (E.helper.advance s.frameHelper).1 = .ok frame →
    parse E frame = some .disconnectResponse → s.connectHandler = none

theorem settled_onReady (hs : SettledIn log s) : SettledIn log (onReady E s) := by
  have hmoves : AnyMoves E s (sendHello E s) := moves_sendHello trivial
  exact settled_setState hinline rfl _ (hs.later hmoves.log_prefix fun h =>
    h.congr (sendHello_state s) (sendHello_connectHandler s))

theorem settled_drainTurn (hturn : CompletesTurn E s) (hs : SettledIn log s) :
    SettledIn log (drainTurn E s).1 := by
  have hadvance : SettledIn log { s with frameHelper := (E.helper.advance s.frameHelper).2 } :=
    hs.congr rfl rfl rfl
  unfold drainTurn
  dsimp only
  split
  · exact hadvance
  · unfold onException
    split
    · exact settledIn_fail _ _ (hadvance.congr rfl rfl rfl)
    · exact hadvance
  · exact hadvance
  · exact settled_onReady hinline hadvance
  · exact settledIn_fail _ _ (hadvance.congr rfl rfl rfl)
  · next frame hframe => exact settled_handleFrame hinline frame hadvance (hturn frame hframe)

theorem settled_onConnectedTransport (ec : Option ErrorCode) (hs : SettledIn log s) :
    SettledIn log (onConnectedTransport E ec s) := by
  have hreading : SettledIn log (startRead s) :=
    hs.later (List.prefix_append _ _) fun h => h.congr rfl rfl
  unfold onConnectedTransport
  cases ec with
  | some ec => exact settledIn_fail _ _ hs
  | none =>
      dsimp only
      split
      · split
        · exact hreading.congr rfl rfl rfl
        · exact hreading.later (List.prefix_append _ _) fun h => h.congr rfl rfl
      · exact settled_onReady hinline hreading

end

/-! ## Runs -/

/-- An event after `start` that does not close the connection while `on_done`
is pending: the write of `disconnect` does not complete, and no
`DisconnectResponse` is handled. -/
def CompletesEvent (E : Environment σ) (s : Connection σ) : Event → Prop
  | .start _ _ _ => False
  | .writeDone => s.transport.completions ≠ 0 → s.connectHandler = none
  | .bytes data => s.transport.reading = true →
      ∀ t ∈ drainTurns E (feed E data s), CompletesTurn E t
  | _ => True

theorem settled_step (hinline : NotInline E log) (e : Event) (hs : SettledIn log s)
    (he : CompletesEvent E s e) : SettledIn log (step E s e) := by
  cases e with
  | start host port handler => exact he.elim
  | connectResult ec =>
      show SettledIn log (connectResult E ec s)
      unfold connectResult
      split
      · exact hs
      · exact settled_onConnectedTransport hinline ec (hs.congr rfl rfl rfl)
  | bytes data =>
      show SettledIn log (receive E data s)
      unfold receive
      split
      · next hreading =>
          exact drainFrames_of_turns (R := fun s t => SettledIn log s → SettledIn log t)
            (fun _ => id) (fun h h' => h' ∘ h) (fun t ht => settled_drainTurn hinline ht)
            (he hreading) (hs.congr rfl rfl rfl)
      · exact hs
  | readError ec =>
      show SettledIn log (readFailed E ec s)
      unfold readFailed onReadError
      split
      · split
        · exact hs.congr rfl rfl rfl
        · exact settledIn_fail _ _ (hs.congr rfl rfl rfl)
      · exact hs
  | writeDone =>
      show SettledIn log (writeDone E s)
      unfold writeDone
      split
      · exact hs
      · next hcompletions =>
          have hmoves : AnyMoves E (takeCompletion s) (finishDisconnect E (takeCompletion s)) :=
            moves_finishDisconnect fun _ => trivial
          exact fun _ => settled_of_none (hmoves.connectHandler_none (he hcompletions))
  | timer id =>
      have hmoves : AnyMoves E s (onTimer E id s) := moves_onTimer always id s
      refine hs.later hmoves.log_prefix fun h => ?_
      show Settled (onTimer E id s)
      unfold onTimer
      split
      · exact settled_runTimer _ (h.congr rfl rfl)
      · exact h
  | elapse ms => exact hs.congr rfl rfl rfl
  | call call => exact settled_perform hinline call hs

/-- What holds of moves, and of a frame helper that is set, holds of every event
other than `start`. -/
theorem step_of_moves {R : Connection σ → Connection σ → Prop} (hrefl : ∀ s, R s s)
    (htrans : ∀ {s t u}, R s t → R t u → R s u) (hmoves : ∀ {s t}, AnyMoves E s t → R s t)
    (hhelper : ∀ f s, R s { s with frameHelper := f }) (s : Connection σ) (e : Event)
    (he : e.isStart = false) : R s (step E s e) := by
  have htransport (transport : Transport) (s : Connection σ) :
      AnyMoves E s { s with transport := transport } := Untouched.moves ⟨rfl, rfl, rfl, rfl⟩
  cases e with
  | start host port handler => exact nomatch he
  | connectResult ec =>
      show R s (connectResult E ec s)
      unfold connectResult
      split
      · exact hrefl s
      · obtain ⟨f, hconnected⟩ : ∃ f, AnyMoves E { takeConnect s with frameHelper := f }
            (onConnectedTransport E ec (takeConnect s)) :=
          moves_onConnectedTransport always ec fun _ => trivial
        have htaken : R s (takeConnect s) := hmoves (htransport _ s)
        exact htrans (htrans htaken (hhelper f _)) (hmoves hconnected)
  | bytes data =>
      show R s (receive E data s)
      unfold receive
      split
      · have hloop : R (feed E data s) (drainFrames E (feed E data s)) :=
          drainFrames_of_turns hrefl htrans
            (fun t (_ : True) => htrans (hhelper _ t) (hmoves (moves_drainTurn t)))
            fun _ _ => trivial
        exact htrans (hhelper _ s) hloop
      · exact hrefl s
  | readError ec =>
      show R s (readFailed E ec s)
      unfold readFailed
      split
      · have hstopped : AnyMoves E s (stopReading s) := htransport _ s
        exact hmoves (hstopped.trans (moves_onReadError always ec _))
      · exact hrefl s
  | writeDone =>
      show R s (writeDone E s)
      unfold writeDone
      split
      · exact hrefl s
      · have htaken : AnyMoves E s (takeCompletion s) := htransport _ s
        exact hmoves (htaken.trans (moves_finishDisconnect fun _ => trivial))
  | timer id => exact hmoves (moves_onTimer always id s)
  | elapse ms => exact hmoves (Untouched.moves ⟨rfl, rfl, rfl, rfl⟩)
  | call call => exact hmoves (moves_perform (moves_disconnect always) call s)

/-- An event other than `start` leaves `on_done` pending or calls it once. -/
theorem progress_step (e : Event) (he : e.isStart = false) : Progress onDone s (step E s e) :=
  step_of_moves (R := Progress onDone) (fun _ => .inl ⟨rfl, rfl⟩) Progress.trans
    Moves.progress (fun _ _ => .inl ⟨rfl, rfl⟩) s e he

theorem log_prefix_start (host : CString) (port : UInt16) (s : Connection σ) :
    s.log <+: (start E host port onDone s).log := by
  have hset : AnyMoves E (emit .started { s with connectHandler := some onDone, lastError := none })
      (setState E .connecting
        (emit .started { s with connectHandler := some onDone, lastError := none })) :=
    moves_setState always .connecting fun _ => trivial
  have hstarted : s.log <+: s.log ++ [.started] := List.prefix_append _ _
  exact (hstarted.trans hset.log_prefix).trans (List.prefix_append _ [Output.connect host port])

/-- What a run has logged, it has logged at its end. -/
theorem log_prefix_run (s : Connection σ) (events : List Event) :
    ∀ t ∈ states (step E) s events, t.log <+: (run (step E) s events).log := by
  refine states_run (R := fun s t : Connection σ => s.log <+: t.log) (fun _ => List.prefix_rfl)
    (fun h h' => h.trans h') (fun s e => ?_) events
  by_cases he : e.isStart = true
  · cases e with
    | start host port handler => exact log_prefix_start host port s
    | _ => exact nomatch he
  · exact step_of_moves (R := fun s t => s.log <+: t.log) (fun _ => List.prefix_rfl)
      (fun h h' => h.trans h') Moves.log_prefix (fun _ _ => List.prefix_rfl) s e
      (Bool.eq_false_iff.mpr he)

/-- What `start` leaves: the attempt is under way and `on_done` is pending. -/
theorem start_pending (host : CString) (port : UInt16) (onDone : HandlerId) (s : Connection σ) :
    (start E host port onDone s).state = .connecting ∧
      (start E host port onDone s).connectHandler = some onDone ∧
      (start E host port onDone s).doneCount onDone = s.doneCount onDone := by
  have hquiet : ∀ s : Connection σ, setState E .connecting s = setStateWith E id .connecting s :=
    setStateWith_quiet nofun nofun
  have hcount : ∀ s : Connection σ,
      (setStateWith E id .connecting s).doneCount onDone = s.doneCount onDone ∨
        (setStateWith E id .connecting s).connectHandler = none := by
    intro s
    have hmoves : AnyMoves E s (setStateWith E id .connecting s) :=
      moves_setStateWith Moves.refl .connecting fun _ => trivial
    have hprogress : Progress onDone s (setStateWith E id .connecting s) := hmoves.progress
    rcases hprogress with ⟨-, hcount⟩ | ⟨hnone, -⟩
    · exact .inl hcount
    · exact .inr hnone
  unfold start
  dsimp only
  rw [hquiet]
  refine ⟨setStateWith_id_state _ _, setStateWith_connectHandler _ _, ?_⟩
  rw [doneCount_emit]
  rcases hcount (emit .started { s with connectHandler := some onDone, lastError := none })
    with hcount | hnone
  · refine Eq.trans hcount ?_
    rw [doneCount_emit]
    rfl
  · rw [setStateWith_connectHandler] at hnone
    exact nomatch hnone

/-- In every run that begins with `start` and takes no step that closes the
connection while `on_done` is pending, `on_done` has been called exactly once
since that start whenever the connection is `Connected`, `Failed` or `Closed`. -/
theorem on_done_exactly_once (s : Connection σ) (host : CString) (port : UInt16)
    (onDone : HandlerId) (events : List Event)
    (hinline : NotInline E (run (step E) (start E host port onDone s) events).log)
    (hevents : Guarded (step E) (CompletesEvent E) (start E host port onDone s) events) :
    ∀ t ∈ states (step E) (start E host port onDone s) events, t.state.settled = true →
      t.doneCount onDone = s.doneCount onDone + 1 := by
  obtain ⟨hstate, hconnect, hcount⟩ := start_pending (E := E) host port onDone s
  have hinv : ∀ t ∈ states (step E) (start E host port onDone s) events,
      SettledIn (run (step E) (start E host port onDone s) events).log t ∧
        Progress onDone (start E host port onDone s) t := by
    refine states_of_guarded (fun t e ht he => ?_) ?_ hevents
    · have hstart : e.isStart = false := by
        cases e with
        | start => exact he.elim
        | _ => rfl
      exact ⟨settled_step hinline e ht.1 he, ht.2.trans (progress_step e hstart)⟩
    · exact ⟨fun _ _ => by rw [hstate]; rfl, .inl ⟨rfl, rfl⟩⟩
  intro t ht hsettled
  obtain ⟨hin, hprogress⟩ := hinv t ht
  have hpending := hin (log_prefix_run _ events t ht)
  rcases hprogress with ⟨hsame, -⟩ | ⟨-, handler, hhandler, hdone⟩
  · -- still pending, so not settled
    have hnot := hpending (by rw [hsame, hconnect]; rfl)
    rw [hsettled] at hnot
    exact nomatch hnot
  · obtain rfl := Option.some_inj.mp (hconnect.symm.trans hhandler)
    rw [hdone, hcount, if_pos rfl]

/-- A plaintext connection with the default options. -/
def plaintext : Connection PlaintextFrameHelper := create {} {}

def plaintextEnvironment : Environment PlaintextFrameHelper :=
  .quiet PlaintextFrameHelper.frameHelper .core

def started : Connection PlaintextFrameHelper :=
  start plaintextEnvironment (lit "device.local") 6053 7 plaintext

/-- `disconnect` in the middle of the attempt, and the deadline before the
write is done: `on_done` is called by the timer. -/
theorem on_done_exactly_once_deadline :
    let t := run (step plaintextEnvironment) started
      [.connectResult none, .call .disconnect, .elapse 30000, .timer 1]
    t.state = .failed ∧ t.doneCount 7 = plaintext.doneCount 7 + 1 := by
  have hguard : Guarded (step plaintextEnvironment) (CompletesEvent plaintextEnvironment) started
      [.connectResult none, .call .disconnect, .elapse 30000, .timer 1] :=
    ⟨trivial, trivial, trivial, trivial, trivial⟩
  have hfailed : (run (step plaintextEnvironment) started
      [.connectResult none, .call .disconnect, .elapse 30000, .timer 1]).state = .failed := by
    decide +kernel
  exact ⟨hfailed, on_done_exactly_once plaintext (lit "device.local") 6053 7 _ (fun _ _ _ _ => rfl)
    hguard _ (run_mem_states ..) (by rw [hfailed]; rfl)⟩

/-- Two runs that end in `Closed` without a call of `on_done`: the device sends
a `DisconnectResponse` instead of its `HelloResponse`; and the application
disconnects before the `HelloResponse` has come. -/
theorem on_done_never_called :
    let t := run (step plaintextEnvironment) started
      [.connectResult none, .bytes [0x00, 0x00, 0x06]]
    let u := run (step plaintextEnvironment) started
      [.connectResult none, .call .disconnect, .writeDone]
    t.state = .closed ∧ t.doneCount 7 = 0 ∧ u.state = .closed ∧ u.doneCount 7 = 0 := by
  decide +kernel

end Connection

end EsphomeApi
