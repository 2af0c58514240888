/-
EsphomeApi.Connection.LiveSession — what is reported of a session that the
application has ended while it was told of it.

The case `HelloResponse` changes the state to `Connected`, which calls the
state handler, and then starts the keepalive and completes the connect without
a look at the state. `announcements` are the connections in which an event is
about to make that change. A state handler that calls `disconnect` leaves the
state `Closing`, or `Closed` (`setState_connected_iff`), and nothing else does
(`LogInvariant.step`, used for three properties of the logs): success is
reported in state `Connected` only, and the ping timer scheduled in it only,
exactly when no state handler does that.
-/
import EsphomeApi.Connection.HelloGate
import EsphomeApi.Library.EventLog

namespace EsphomeApi

open Proto Library

/-! ## What the log says -/

/-- The state after an output. -/
def Output.after (state : ConnectionState) : Output → ConnectionState
  | .state next => next
  | _ => state

/-- A report of success. -/
def Output.isSuccess : Output → Bool
  | .invoked (.done _ none) => true
  | _ => false

/-- The state that a log leaves. -/
def loggedState (log : List Output) : ConnectionState := log.foldl Output.after .disconnected

/-- `on_done` has been called with an empty error code in state `Connected` only. -/
def SuccessInConnected (log : List Output) : Prop :=
  ∀ (k : Nat) (handler : HandlerId), log[k]? = some (.invoked (.done handler none)) →
    loggedState (log.take k) = .connected

variable {log : List Output}

@[simp] theorem loggedState_concat (o : Output) :
    loggedState (log ++ [o]) = o.after (loggedState log) := by
  simp [loggedState]

theorem loggedState_entry {state : ConnectionState} {o : Output} (ho : ∀ next, o ≠ .state next)
    (h : loggedState log = state) : loggedState (log ++ [o]) = state := by
  rw [loggedState_concat, h]
  cases o with
  | state next => exact absurd rfl (ho next)
  | _ => rfl

theorem successInConnected_concat {o : Output} :
    SuccessInConnected (log ++ [o]) ↔ SuccessInConnected log ∧
      ∀ handler, o = .invoked (.done handler none) → loggedState log = .connected := by
  constructor
  · intro h
    constructor
    · intro k handler hk
      have hlog := h k handler (getElem?_append_of_some hk _)
      rwa [List.take_append_of_le_length
        (Nat.le_of_lt (List.getElem?_eq_some_iff.mp hk).1)] at hlog
    · rintro handler rfl
      simpa using h log.length handler (by simp)
  · rintro ⟨hlog, hlast⟩ k handler hk
    rcases getElem?_concat_eq_some.mp hk with hold | ⟨rfl, heq⟩
    · rw [List.take_append_of_le_length (Nat.le_of_lt (List.getElem?_eq_some_iff.mp hold).1)]
      exact hlog k handler hold
    · simpa using hlast handler heq.symm

theorem not_successInConnected {k : Nat} (hk : log[k]?.any Output.isSuccess = true)
    (hstate : loggedState (log.take k) ≠ .connected) : ¬ SuccessInConnected log := by
  intro h
  cases ho : log[k]? with
  | none => simp [ho] at hk
  | some o =>
      rw [ho, Option.any_some] at hk
      unfold Output.isSuccess at hk
      split at hk
      · exact hstate (h k _ ho)
      · cases hk

namespace Connection

variable {σ : Type} {E : Environment σ} {s t : Connection σ}

/-! ## An accepted response -/

/-- The connection in which the case `HelloResponse` is about to change the state
to `Connected`, if it does. -/
def accepting (E : Environment σ) (v : HelloResponse.Value) (s : Connection σ) :
    Option (Connection σ) :=
  let t := { s with hello := ServerHello.ofResponse v }
  if s.state = .helloSent ∧ ¬ t.hello.apiVersionMajor > 2 ∧
      ¬ (t.options.expectedName ≠ [] ∧ t.hello.name ≠ [] ∧ t.hello.name ≠ t.options.expectedName)
  then some (cancelConnectTimer E t)
  else none

theorem handleHelloResponse_cases (v : HelloResponse.Value) (s : Connection σ) :
    (accepting E v s = none ∧ (handleHelloResponse E v s = s ∨
      ∃ what, handleHelloResponse E v s =
        fail E .protocolError what { s with hello := ServerHello.ofResponse v })) ∨
    ∃ t, accepting E v s = some t ∧ s.state = .helloSent ∧
      Calm { s with hello := ServerHello.ofResponse v } t ∧
      handleHelloResponse E v s =
        finishConnect E none (startKeepalive (setState E .connected t)) := by
  unfold handleHelloResponse accepting
  by_cases hstate : s.state = .helloSent
  · rw [if_neg (not_not_intro hstate)]
    dsimp only
    by_cases hmajor : (ServerHello.ofResponse v).apiVersionMajor > 2
    · rw [if_pos hmajor, if_neg fun h => h.2.1 hmajor]
      exact .inl ⟨rfl, .inr ⟨_, rfl⟩⟩
    · rw [if_neg hmajor]
      by_cases hname : s.options.expectedName ≠ [] ∧ (ServerHello.ofResponse v).name ≠ [] ∧
          (ServerHello.ofResponse v).name ≠ s.options.expectedName
      · rw [if_pos hname, if_neg fun h => h.2.2 hname]
        exact .inl ⟨rfl, .inr ⟨_, rfl⟩⟩
      · rw [if_neg hname, if_pos ⟨hstate, hmajor, hname⟩]
        exact .inr ⟨_, rfl, hstate, calm_cancelConnectTimer _, rfl⟩
  · rw [if_pos hstate]
    exact .inl ⟨if_neg fun h => hstate h.1, .inl rfl⟩

theorem handleHelloResponse_of_accepting {v : HelloResponse.Value}
    (h : accepting E v s = some t) :
    s.state = .helloSent ∧ Calm { s with hello := ServerHello.ofResponse v } t ∧
      handleHelloResponse E v s =
        finishConnect E none (startKeepalive (setState E .connected t)) := by
  rcases handleHelloResponse_cases (E := E) v s with ⟨hnone, -⟩ | ⟨u, hu, haccepted⟩
  · exact nomatch hnone.symm.trans h
  · obtain rfl := Option.some_inj.mp (hu.symm.trans h)
    exact haccepted

/-- The connection in which a turn is about to change the state to `Connected`. -/
def announcing (E : Environment σ) (s : Connection σ) : Option (Connection σ) :=
  match turnFrame E s with
  | some frame =>
      match parse E frame with
      | some (.helloResponse v) => accepting E v (invokeRaw E frame (advanced E s))
      | _ => none
  | none => none

theorem announcing_eq_some (h : announcing E s = some t) : ∃ frame v,
    turnFrame E s = some frame ∧ parse E frame = some (.helloResponse v) ∧
      accepting E v (invokeRaw E frame (advanced E s)) = some t := by
  unfold announcing at h
  cases hframe : turnFrame E s with
  | none => simp [hframe] at h
  | some frame =>
      simp only [hframe] at h
      split at h
      · next v hparse => exact ⟨frame, v, rfl, hparse, h⟩
      · cases h

theorem drainTurn_of_turnFrame {frame : Frame} (h : turnFrame E s = some frame) :
    (drainTurn E s).1 = handleFrame E frame (advanced E s) := by
  simp only [drainTurn, advance_of_turnFrame h, advanced]

theorem state_ne_of_announcing (h : announcing E s = some t) : t.state ≠ .connected := by
  obtain ⟨_, _, -, -, haccepting⟩ := announcing_eq_some h
  obtain ⟨hstate, hkept, -⟩ := handleHelloResponse_of_accepting haccepting
  rw [hkept.state.trans hstate]
  nofun

/-- The connections in which an event is about to change the state to `Connected`. -/
def announcements (E : Environment σ) (s : Connection σ) (e : Event) : List (Connection σ) :=
  (turnsOf E s e).filterMap (announcing E)

/-! ## The state handler -/

/-- The state handler, told of `Connected`, calls `disconnect`. -/
def Disconnects (E : Environment σ) (t : Connection σ) : Prop :=
  ∃ handler, t.stateHandler = some handler ∧
    .disconnect ∈ E.calls (.state handler .connected)
      (emit (.invoked (.state handler .connected)) (assign .connected t))

theorem disconnect_state_ne (s : Connection σ) : (disconnect E s).state ≠ .connected := by
  unfold disconnect
  split
  · next h => exact h.1
  · dsimp only
    split
    · show (setStateWith E id .closed _).state ≠ .connected
      rw [setStateWith_id_state]
      nofun
    · show (setStateWith E id .closing _).state ≠ .connected
      rw [setStateWith_id_state]
      nofun

theorem perform_state {call : Call} (hcall : call ≠ .disconnect) (s : Connection σ) :
    (perform E (disconnect E) call s).state = s.state := by
  have hsame := perform_id_state (E := E) call s
  cases call with
  | disconnect => exact absurd rfl hcall
  | _ => exact hsame

/-- Calls that leave `Connected` do so for good. -/
theorem performAll_state_iff (calls : List Call) (s : Connection σ) :
    (calls.foldl (fun s c => perform E (disconnect E) c s) s).state = .connected ↔
      s.state = .connected ∧ .disconnect ∉ calls := by
  induction calls generalizing s with
  | nil => simp
  | cons call calls ih =>
      rw [List.foldl_cons, ih]
      by_cases hcall : call = .disconnect
      · subst hcall
        simp [perform, disconnect_state_ne]
      · rw [perform_state hcall]
        simp [Ne.symm hcall]

/-- The state is still `Connected` after the state handler has been told of it,
unless the handler disconnects. -/
theorem setState_connected_iff (ht : t.state ≠ .connected) :
    (setState E .connected t).state = .connected ↔ ¬ Disconnects E t := by
  unfold setState setStateWith Disconnects
  rw [if_neg ht.symm]
  dsimp only
  cases hhandler : t.stateHandler with
  | none => simp [emit]
  | some handler =>
      simp only [emit, hhandler, invokeWith, performAll_state_iff, true_and, Option.some.injEq,
        exists_eq_left', assign]

/-- What no handler changes. -/
structure Steady (s t : Connection σ) : Prop where
  options : t.options = s.options
  connectHandler : t.connectHandler = s.connectHandler

theorem Steady.refl (s : Connection σ) : Steady s s := ⟨rfl, rfl⟩

theorem Steady.trans {u : Connection σ} (h : Steady s t) (h' : Steady t u) : Steady s u :=
  ⟨h'.options.trans h.options, h'.connectHandler.trans h.connectHandler⟩

theorem Kept.steady (h : Kept s t) : Steady s t := ⟨h.options, h.connectHandler⟩

section

variable {disconnect : Connection σ → Connection σ} (hdisconnect : ∀ s, Steady s (disconnect s))

include hdisconnect

theorem steady_perform (call : Call) (s : Connection σ) :
    Steady s (perform E disconnect call s) := by
  cases call with
  | disconnect => exact hdisconnect s
  | on type handler =>
      show Steady s (on E type handler s)
      unfold on
      split <;> exact ⟨rfl, rfl⟩
  | _ => exact ⟨rfl, rfl⟩

theorem steady_setStateWith (state : ConnectionState) (s : Connection σ) :
    Steady s (setStateWith E disconnect state s) := by
  have hall : ∀ (calls : List Call) (s : Connection σ),
      Steady s (calls.foldl (fun s c => perform E disconnect c s) s) := by
    intro calls
    induction calls with
    | nil => exact Steady.refl
    | cons call calls ih =>
        exact fun s => (steady_perform hdisconnect call s).trans (ih _)
  have hcalled (handler : HandlerId) :
      Steady s (emit (.invoked (.state handler state)) (assign state s)) := ⟨rfl, rfl⟩
  unfold setStateWith
  split
  · exact Steady.refl s
  · dsimp only
    split
    · exact (hcalled _).trans (hall _ _)
    · exact ⟨rfl, rfl⟩

end

theorem steady_disconnect (s : Connection σ) : Steady s (disconnect E s) := by
  have hclosing : Steady s (setStateWith E id .closing (stopKeepalive E s)) :=
    (calm_stopKeepalive s).steady.trans (steady_setStateWith Steady.refl .closing _)
  have hsent : Steady s (send E MessageId.disconnectRequest EmptyMessage ()
      (setStateWith E id .closing (stopKeepalive E s))) := hclosing.trans ⟨rfl, rfl⟩
  have hclosed (t : Connection σ) : Steady t (finishDisconnect E t) := by
    have hclose : Steady t (closeTransport t) := ⟨rfl, rfl⟩
    exact hclose.trans (steady_setStateWith Steady.refl .closed _)
  unfold disconnect
  split
  · exact Steady.refl s
  · dsimp only
    split
    · exact hsent.trans (hclosed _)
    · exact hsent.trans ⟨rfl, rfl⟩

theorem steady_setState (state : ConnectionState) (s : Connection σ) :
    Steady s (setState E state s) := steady_setStateWith steady_disconnect state s

/-! ## Properties of the logs and the state -/

/-- Kept by a change of state, by any other entry that reports no success, and by
timers that a live session may schedule. -/
structure LogInvariant (P : List Output → List Schedule → ConnectionState → Prop) : Prop where
  entry : ∀ {log schedules state} {o : Output}, (∀ next, o ≠ .state next) →
    (∀ handler, o ≠ .invoked (.done handler none)) → P log schedules state →
      P (log ++ [o]) schedules state
  change : ∀ {log schedules state} next, P log schedules state →
    P (log ++ [.state next]) schedules next
  calm : ∀ {log schedules state} more, PingsInConnected more → P log schedules state →
    P log (schedules ++ more) state

/-- The property, of a connection. -/
abbrev Recorded (P : List Output → List Schedule → ConnectionState → Prop) (s : Connection σ) :
    Prop := P s.log s.schedules s.state

/-- Starting the keepalive of the session that is about to begin, and reporting
its success then, keeps the property. -/
def Reportable (E : Environment σ) (P : List Output → List Schedule → ConnectionState → Prop)
    (t : Connection σ) : Prop :=
  Recorded P (setState E .connected t) →
    let u := startKeepalive (setState E .connected t)
    Recorded P u ∧ ∀ handler, t.connectHandler = some handler →
      Recorded P (emit (.invoked (.done handler none)) u)

namespace LogInvariant

variable {P : List Output → List Schedule → ConnectionState → Prop} (h : LogInvariant P)

include h

theorem perform_id (call : Call) (hs : Recorded P s) : Recorded P (perform E id call s) := by
  unfold Recorded
  rw [perform_id_state]
  cases call with
  | sendRaw type payload => exact h.entry nofun nofun hs
  | on type handler =>
      show P (on E type handler s).log (on E type handler s).schedules s.state
      unfold on
      split <;> exact hs
  | _ => exact hs

theorem undisturbed : Undisturbed E (Recorded P) where
  kept hk hs := by
    obtain ⟨more, hmore, hpings⟩ := hk.pings
    unfold Recorded
    rw [hk.log, hk.state, hmore]
    exact h.calm more hpings hs
  invoked call s hcall hs := h.entry nofun (fun handler heq => by cases heq; exact hcall trivial) hs
  calls _ _ call _ _ s hs := h.perform_id call hs

theorem keptByActs : KeptByActs E (Recorded P) (Recorded P) where
  __ := h.undisturbed
  window := h.undisturbed
  completed _ hs := hs
  close _ hs := h.entry nofun nofun hs
  closing _ _ hs := h.change .closing hs
  request _ _ hs := h.entry nofun nofun hs
  closed _ _ hs := h.change .closed hs
  failed _ _ _ hs := h.change .failed hs
  ping _ _ hs := h.entry nofun nofun hs

theorem keptBySends : KeptBySends E (Recorded P) (Recorded P) where
  __ := h.keptByActs
  send _ _ _ _ hs := h.entry nofun nofun hs
  helloSent _ hs := h.change .helloSent hs

/-- A `HelloResponse`, if reporting the success of an accepted one keeps the
property. -/
theorem handleHelloResponse (v : HelloResponse.Value) (hs : Recorded P s)
    (hdone : ∀ t, accepting E v s = some t → Reportable E P t) :
    Recorded P (handleHelloResponse E v s) := by
  have hacts : KeptByActs E (Recorded P) (Recorded P) := h.keptByActs
  rcases handleHelloResponse_cases (E := E) v s with
    ⟨-, heq | ⟨what, heq⟩⟩ | ⟨t, ht, -, hkept, heq⟩
  · rw [heq]
    exact hs
  · rw [heq]
    exact hacts.fail _ _ hs
  · have hready : Recorded P t := hacts.kept hkept hs
    have hset := hacts.setState hready fun _ => h.change .connected hready
    obtain ⟨hstarted, hreported⟩ := hdone t ht hset
    rw [heq]
    refine hacts.finishConnect none hstarted fun _ handler hhandler => hreported handler ?_
    rwa [(kept_startKeepalive _).connectHandler,
      (steady_setState .connected t).connectHandler] at hhandler

theorem drainTurn (hs : Recorded P s) (hdone : ∀ t, announcing E s = some t → Reportable E P t) :
    Recorded P (drainTurn E s).1 := by
  have hadvanced : Recorded P (advanced E s) := hs
  refine h.keptBySends.drainTurn hadvanced fun frame v hframe hparse hraw => ?_
  refine h.handleHelloResponse v hraw fun t haccepting => hdone t ?_
  simp only [announcing, hframe, hparse]
  exact haccepting

theorem step (e : Event) (hs : Recorded P s)
    (hdone : ∀ t ∈ announcements E s e, Reportable E P t) : Recorded P (step E s e) := by
  have hacts : KeptByActs E (Recorded P) (Recorded P) := h.keptByActs
  refine hacts.step e hs ?_ hs hs ?_ ?_ fun call _ _ => h.perform_id call hs
  · intro host port onDone _
    exact hacts.start (K := Recorded P) host port onDone (h.entry nofun nofun hs)
      (fun t ht => h.change .connecting ht) fun t _ ht => h.entry nofun nofun ht
  · intro _ _
    exact h.keptBySends.onConnectedTransport (h.entry nofun nofun hs) (fun _ ht => ht)
      fun _ _ ht => h.entry nofun nofun ht
  · rintro data rfl hreading
    have hturns : ∀ t ∈ drainTurns E (feed E data s), ∀ u, announcing E t = some u →
        Reportable E P u := by
      intro t ht u hu
      refine hdone u (List.mem_filterMap.mpr ⟨t, ?_, hu⟩)
      simpa [turnsOf, hreading] using ht
    exact drainFrames_of_turns (R := fun s t => Recorded P s → Recorded P t)
      (fun _ => id) (fun h h' => h' ∘ h) (fun t ht hP => h.drainTurn hP ht) hturns hs

/-- What holds when the state handler has been told of `Connected`. -/
theorem announced (ht : announcing E s = some t) (hs : Recorded P s) :
    Recorded P (setState E .connected t) := by
  have hacts : KeptByActs E (Recorded P) (Recorded P) := h.keptByActs
  obtain ⟨frame, v, -, -, haccepting⟩ := announcing_eq_some ht
  have hraw := hacts.invokeRaw frame (s := advanced E s) hs
  obtain ⟨-, hkept, -⟩ := handleHelloResponse_of_accepting haccepting
  have hready : Recorded P t := hacts.kept hkept hraw
  exact hacts.setState hready fun _ => h.change .connected hready

/-- What the rest of the case `HelloResponse` brings about, the turn leaves. -/
theorem drainTurn_of_reported (ht : announcing E s = some t)
    (hreported : Recorded P (finishConnect E none (startKeepalive (setState E .connected t)))) :
    Recorded P (Connection.drainTurn E s).1 := by
  have hacts : KeptByActs E (Recorded P) (Recorded P) := h.keptByActs
  obtain ⟨frame, v, hframe, hparse, haccepting⟩ := announcing_eq_some ht
  rw [drainTurn_of_turnFrame hframe]
  rcases handleFrame_cases (E := E) frame (advanced E s) with ⟨hnone, -⟩ | ⟨msg, hmsg, heq⟩
  · exact nomatch hnone.symm.trans hparse
  · obtain rfl := Option.some_inj.mp (hmsg.symm.trans hparse)
    rw [heq]
    refine hacts.handleMessage _ _ ?_
    show Recorded P (Connection.handleHelloResponse E v _)
    rw [(handleHelloResponse_of_accepting haccepting).2.2]
    exact hreported

end LogInvariant

theorem logInvariant_logged : LogInvariant fun log _ state => loggedState log = state where
  entry hstate _ h := loggedState_entry hstate h
  change next _ := loggedState_concat (.state next)
  calm _ _ h := h

/-- Nothing has been reported, and no ping timer scheduled, but in `Connected`. -/
theorem logInvariant_live : LogInvariant fun log schedules state =>
    loggedState log = state ∧ SuccessInConnected log ∧ PingsInConnected schedules where
  entry hstate hdone h := ⟨loggedState_entry hstate h.1,
    successInConnected_concat.mpr ⟨h.2.1, fun handler heq => absurd heq (hdone handler)⟩, h.2.2⟩
  change next h := ⟨loggedState_concat (.state next),
    successInConnected_concat.mpr ⟨h.2.1, nofun⟩, h.2.2⟩
  calm _ hmore h := ⟨h.1, h.2.1, pingsInConnected_append.mpr ⟨h.2.2, hmore⟩⟩

/-- A wrong report, or a wrong ping timer, stays in the logs. -/
theorem logInvariant_wrong : LogInvariant fun log schedules _ =>
    ¬ (SuccessInConnected log ∧ PingsInConnected schedules) where
  entry _ _ h := fun hall => h ⟨(successInConnected_concat.mp hall.1).1, hall.2⟩
  change _ h := fun hall => h ⟨(successInConnected_concat.mp hall.1).1, hall.2⟩
  calm _ _ h := fun hall => h ⟨hall.1, (pingsInConnected_append.mp hall.2).1⟩

theorem reportable_logged (t : Connection σ) :
    Reportable E (fun log _ state => loggedState log = state) t := by
  intro hset
  have hstarted := kept_startKeepalive (setState E .connected t)
  have hlogged : loggedState (startKeepalive (setState E .connected t)).log =
      (startKeepalive (setState E .connected t)).state := by
    rw [hstarted.log, hstarted.state]
    exact hset
  exact ⟨hlogged, fun handler _ => (loggedState_concat _).trans hlogged⟩

theorem pings_of_startKeepalive (h : PingsInConnected (startKeepalive s).schedules) :
    PingsInConnected s.schedules := by
  rw [startKeepalive_schedules] at h
  split at h
  · exact (pingsInConnected_append.mp h).1
  · exact h

theorem reportable_wrong (t : Connection σ) : Reportable E
    (fun log schedules _ => ¬ (SuccessInConnected log ∧ PingsInConnected schedules)) t := by
  intro hset
  have hstarted := kept_startKeepalive (setState E .connected t)
  have hwrong : ¬ (SuccessInConnected (startKeepalive (setState E .connected t)).log ∧
      PingsInConnected (startKeepalive (setState E .connected t)).schedules) := by
    rw [hstarted.log]
    exact fun hall => hset ⟨hall.1, pings_of_startKeepalive hall.2⟩
  exact ⟨hwrong, fun handler _ hall => hwrong ⟨(successInConnected_concat.mp hall.1).1, hall.2⟩⟩

/-! ## Runs -/

/-- Success has been reported, and the ping timer scheduled, for a live session only. -/
structure LiveOnly (s : Connection σ) : Prop where
  success : SuccessInConnected s.log
  keepalive : PingsInConnected s.schedules

/-- The connect is pending, or the keepalive wanted. -/
def Reports (t : Connection σ) : Prop :=
  t.connectHandler.isSome ∨ 0 < t.options.keepaliveInterval

/-- No state handler disconnects when it is told of a session that is to be
reported. -/
def HandlerStays (E : Environment σ) (s : Connection σ) (e : Event) : Prop :=
  ∀ t ∈ announcements E s e, Reports t → ¬ Disconnects E t

theorem state_ne_of_announced {e : Event} (h : t ∈ announcements E s e) :
    t.state ≠ .connected := by
  obtain ⟨r, -, hr⟩ := List.mem_filterMap.mp h
  exact state_ne_of_announcing hr

/-- After a turn whose state handler disconnects before the success is reported
or the ping timer scheduled, a log is wrong. -/
theorem wrong_drainTurn (hs : loggedState s.log = s.state) (ht : announcing E s = some t)
    (hreports : Reports t) (hleft : Disconnects E t) :
    ¬ (SuccessInConnected (drainTurn E s).1.log ∧ PingsInConnected (drainTurn E s).1.schedules) := by
  have hstate : (setState E .connected t).state ≠ .connected := fun hconnected =>
    (setState_connected_iff (state_ne_of_announcing ht)).mp hconnected hleft
  have hlogged : loggedState (setState E .connected t).log = (setState E .connected t).state :=
    logInvariant_logged.announced ht hs
  have hsteady := steady_setState (E := E) .connected t
  have hstarted := kept_startKeepalive (setState E .connected t)
  refine logInvariant_wrong.drainTurn_of_reported ht ?_
  rcases hreports with hpending | hinterval
  · obtain ⟨handler, hhandler⟩ := Option.isSome_iff_exists.mp hpending
    rw [finishConnect, hstarted.connectHandler, hsteady.connectHandler, hhandler]
    refine logInvariant_wrong.keptByActs.invoke_of _ fun hall => ?_
    have hconnected := (successInConnected_concat.mp hall.1).2 handler rfl
    rw [hstarted.log, hlogged] at hconnected
    exact hstate hconnected
  · have hwrong : ¬ PingsInConnected (startKeepalive (setState E .connected t)).schedules := by
      rw [startKeepalive_schedules, hsteady.options, if_pos hinterval, pingsInConnected_append]
      exact fun hpings => hstate (hpings.2 _ List.mem_cons_self rfl)
    refine logInvariant_wrong.keptByActs.finishConnect none (fun hall => hwrong hall.2) ?_
    exact fun _ handler _ hall => hwrong hall.2

theorem wrong_step (hs : loggedState s.log = s.state) (e : Event)
    (ht : t ∈ announcements E s e) (hreports : Reports t) (hleft : Disconnects E t) :
    ¬ (SuccessInConnected (step E s e).log ∧ PingsInConnected (step E s e).schedules) := by
  obtain ⟨r, hr, hannounced⟩ := List.mem_filterMap.mp ht
  cases e with
  | bytes data =>
      by_cases hreading : s.transport.reading = true
      · -- the turns so far have been logged, and one of them may have been wrong
        have hturn (before : List (Connection σ)) (u : Connection σ)
            (hu : loggedState u.log = u.state ∧
              (r ∈ before → ¬ (SuccessInConnected u.log ∧ PingsInConnected u.schedules))) :
            loggedState (drainTurn E u).1.log = (drainTurn E u).1.state ∧
              (r ∈ before ++ [u] → ¬ (SuccessInConnected (drainTurn E u).1.log ∧
                PingsInConnected (drainTurn E u).1.schedules)) := by
          refine ⟨logInvariant_logged.drainTurn hu.1 fun t _ => reportable_logged t, fun hmem => ?_⟩
          rcases List.mem_append.mp hmem with hold | hnew
          · exact logInvariant_wrong.drainTurn (hu.2 hold) fun t _ => reportable_wrong t
          · obtain rfl := List.mem_singleton.mp hnew
            exact wrong_drainTurn hu.1 hannounced hreports hleft
        have hloop : loggedState (onBytes E data s).log = (onBytes E data s).state ∧
            (r ∈ turnsOf E s (.bytes data) → ¬ (SuccessInConnected (onBytes E data s).log ∧
              PingsInConnected (onBytes E data s).schedules)) :=
          onBytes_with_turns
            (I := fun before u => loggedState u.log = u.state ∧
              (r ∈ before → ¬ (SuccessInConnected u.log ∧ PingsInConnected u.schedules)))
            (p := fun _ => True) (fun _ _ h => h)
            (fun before u hu _ => ⟨hturn before u hu, fun _ => hturn before u hu⟩)
            hreading ⟨hs, nofun⟩ fun _ _ => trivial
        show ¬ (SuccessInConnected (receive E data s).log ∧
          PingsInConnected (receive E data s).schedules)
        rw [receive, if_pos hreading]
        exact hloop.2 hr
      · simp [turnsOf, hreading] at hr
  | _ => exact absurd hr List.not_mem_nil

/-- What holds between the events of a guarded run. -/
def LiveSession (s : Connection σ) : Prop := loggedState s.log = s.state ∧ LiveOnly s

/-- A state handler that stays leaves a session to report. -/
theorem reportable_live (ht : t.state ≠ .connected) (hstays : Reports t → ¬ Disconnects E t) :
    Reportable E (fun log schedules state =>
      loggedState log = state ∧ SuccessInConnected log ∧ PingsInConnected schedules) t := by
  rintro ⟨hlogged, hsuccess, hpings⟩
  have hsteady := steady_setState (E := E) .connected t
  have hstarted := kept_startKeepalive (setState E .connected t)
  have hlive (hreports : Reports t) : (setState E .connected t).state = .connected :=
    (setState_connected_iff ht).mpr (hstays hreports)
  have hschedules : PingsInConnected (startKeepalive (setState E .connected t)).schedules := by
    rw [startKeepalive_schedules, hsteady.options]
    split
    · next hinterval =>
        exact pingsInConnected_append.mpr ⟨hpings, by simp [PingsInConnected, hlive (.inr hinterval)]⟩
    · exact hpings
  dsimp only [Recorded, emit]
  rw [hstarted.log, hstarted.state]
  refine ⟨⟨hlogged, hsuccess, hschedules⟩, fun handler hhandler => ?_⟩
  have hconnected := hlive (.inl (by rw [hhandler]; rfl))
  exact ⟨(loggedState_concat _).trans hlogged,
    successInConnected_concat.mpr ⟨hsuccess, fun _ _ => hlogged.trans hconnected⟩, hschedules⟩

theorem liveSession_step (s : Connection σ) (e : Event) (h : LiveSession s)
    (he : HandlerStays E s e) : LiveSession (step E s e) := by
  have hlive := logInvariant_live.step e ⟨h.1, h.2.success, h.2.keepalive⟩ fun t ht =>
    reportable_live (state_ne_of_announced ht) (he t ht)
  exact ⟨hlive.1, hlive.2.1, hlive.2.2⟩

theorem handlerStays_of_liveOnly (s : Connection σ) (e : Event) (h : LiveSession s)
    (hnext : LiveOnly (step E s e)) : HandlerStays E s e := by
  intro t ht hreports hleft
  exact wrong_step h.1 e ht hreports hleft ⟨hnext.success, hnext.keepalive⟩

/-- A plaintext connection whose state handler disconnects when it is told of
`Connected`, over a transport that completes the write at once or later. -/
def leavingEnvironment (inline : Bool) : Environment PlaintextFrameHelper :=
  { plaintextEnvironment with
    calls := fun call _ =>
      match call with
      | .state _ .connected => [.disconnect]
      | _ => []
    inline := fun _ => inline }

/-- The application sets its state handler, connects, and is greeted. -/
def leavingSession : List Event := .call (.onState (some 3)) :: helloSession [0x01]

end Connection

end EsphomeApi
