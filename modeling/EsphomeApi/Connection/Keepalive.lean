/-
EsphomeApi.Connection.Keepalive — the two timers of the keepalive.

The handlers of the application call nothing here and the executor cancels, so
what a function does to the keepalive can be said without the log: `Entered`
changes the state and none of the timers, `Stopped` is `stop_keepalive`. The
invariant is `Maintained`: the members name the timers that are pending, and
the pong timer runs out a keepalive timeout after the first ping that has not
been answered.
-/
import EsphomeApi.Connection.HelloGate
import EsphomeApi.Connection.Dispatch
import EsphomeApi.Connection.OutgoingOrder
import EsphomeApi.Connection.Timers

namespace EsphomeApi

open Proto Library

/-- Who asked for a `PingRequest`. -/
def Output.pingWriter : Output → Option Writer
  | .write writer frame _ => if frame.type = MessageId.pingRequest then some writer else none
  | _ => none

/-- A `PingResponse`. -/
def ProtoMessage.isPong : ProtoMessage → Bool
  | .pingResponse => true
  | _ => false

namespace Connection

variable {σ : Type} {E : Environment σ} {Q : σ → Prop} {s t u : Connection σ}

/-! ## What a function does to the keepalive -/

/-- The pings that are not answered once some messages have been processed. -/
def unanswered (pings : List Int) (msgs : List ProtoMessage) : List Int :=
  if msgs.any ProtoMessage.isPong then [] else pings

theorem unanswered_append (pings : List Int) (msgs more : List ProtoMessage) :
    unanswered pings (msgs ++ more) = unanswered (unanswered pings msgs) more := by
  unfold unanswered
  rw [List.any_append]
  cases msgs.any ProtoMessage.isPong <;> cases more.any ProtoMessage.isPong <;> rfl

/-- The `PingRequest`s written, by who asked for them. -/
def pingWriters (s : Connection σ) : List Writer := s.log.filterMap Output.pingWriter

/-- The state changes, perhaps, and neither the timers nor the transport do; a
frame may have been encoded, but no ping. -/
structure Entered (Q : σ → Prop) (state : ConnectionState) (s t : Connection σ) : Prop where
  state : t.state = state
  options : t.options = s.options
  helper : Q s.frameHelper → Q t.frameHelper
  transport : t.transport = s.transport
  executor : t.executor = s.executor
  pingTimer : t.pingTimer = s.pingTimer
  pongTimer : t.pongTimer = s.pongTimer
  awaitingPong : t.awaitingPong = s.awaitingPong
  pings : t.pingWriters = s.pingWriters

theorem Entered.trans {state state' : ConnectionState} (h : Entered Q state s t)
    (h' : Entered Q state' t u) : Entered Q state' s u :=
  ⟨h'.state, h'.options.trans h.options, h'.helper ∘ h.helper, h'.transport.trans h.transport,
    h'.executor.trans h.executor, h'.pingTimer.trans h.pingTimer, h'.pongTimer.trans h.pongTimer,
    h'.awaitingPong.trans h.awaitingPong, h'.pings.trans h.pings⟩

/-- What follows keeps the state. -/
theorem Entered.tail {state : ConnectionState} (h : Entered Q state s t)
    (h' : Entered Q t.state t u) : Entered Q state s u :=
  h.trans (h.state ▸ h')

theorem Entered.refl (s : Connection σ) : Entered Q s.state s s :=
  ⟨rfl, rfl, id, rfl, rfl, rfl, rfl, rfl, rfl⟩

theorem entered_emit {o : Output} (ho : o.pingWriter = none) (s : Connection σ) :
    Entered Q s.state s (emit o s) :=
  ⟨rfl, rfl, id, rfl, rfl, rfl, rfl, rfl, by simp [pingWriters, emit, ho]⟩

theorem entered_send (hQ : Lasting E.helper Q) {type : UInt32}
    (htype : type ≠ MessageId.pingRequest)
    (fields : Fields) (v : fields.Value) (s : Connection σ) :
    Entered Q s.state s (send E type fields v s) :=
  ⟨rfl, rfl, hQ.encode _ _ _, rfl, rfl, rfl, rfl, rfl, by
    simp [pingWriters, send, sendRaw, emit, Output.pingWriter, htype]⟩

theorem entered_sendHello (hQ : Lasting E.helper Q) (s : Connection σ) :
    Entered Q s.state s (sendHello E s) := by
  have hhello := entered_send hQ (show MessageId.helloRequest ≠ MessageId.pingRequest by decide)
    HelloRequest (s.options.clientInfo, clientApiVersionMajor, clientApiVersionMinor, ()) s
  unfold sendHello
  dsimp only
  split
  · exact hhello.tail (entered_send hQ
      (show MessageId.authenticationRequest ≠ MessageId.pingRequest by decide) _ _ _)
  · exact hhello

section

variable (hcalls : ∀ call (s : Connection σ), E.calls call s = [])

include hcalls

theorem entered_invoke (call : Invocation) (s : Connection σ) :
    Entered Q s.state s (invoke E call s) := by
  rw [invoke_eq hcalls]
  exact entered_emit rfl s

theorem entered_setStateWith (disconnect : Connection σ → Connection σ) (state : ConnectionState)
    (s : Connection σ) : Entered Q state s (setStateWith E disconnect state s) := by
  unfold setStateWith
  split
  · next hsame => exact hsame ▸ Entered.refl s
  · have hassign : Entered Q state s (emit (.state state) { s with state := state }) :=
      ⟨rfl, rfl, id, rfl, rfl, rfl, rfl, rfl, by simp [pingWriters, emit, Output.pingWriter]⟩
    dsimp only
    split
    · unfold invokeWith
      dsimp only
      rw [hcalls]
      exact hassign.tail (entered_emit rfl _)
    · exact hassign

theorem entered_finishConnect (ec : Option ErrorCode) (s : Connection σ) :
    Entered Q s.state s (finishConnect E ec s) := by
  unfold finishConnect
  split
  · have hslot : Entered Q s.state s { s with connectHandler := none } :=
      ⟨rfl, rfl, id, rfl, rfl, rfl, rfl, rfl, rfl⟩
    exact hslot.tail (entered_invoke hcalls _ _)
  · exact Entered.refl s

theorem entered_invokeRaw (frame : Frame) (s : Connection σ) :
    Entered Q s.state s (invokeRaw E frame s) := by
  unfold invokeRaw
  split
  · exact entered_invoke hcalls _ s
  · exact Entered.refl s

theorem entered_invokeMessage (type : UInt32) (msg : ProtoMessage) (s : Connection σ) :
    Entered Q s.state s (invokeMessage E type msg s) := by
  unfold invokeMessage
  split
  · split
    · exact entered_invoke hcalls _ s
    · exact Entered.refl s
  · exact Entered.refl s

theorem entered_invokeAny (msg : ProtoMessage) (s : Connection σ) :
    Entered Q s.state s (invokeAny E msg s) := by
  unfold invokeAny
  split
  · exact entered_invoke hcalls _ s
  · exact Entered.refl s

/-- What follows the connection's own treatment of a message. -/
theorem entered_handleMessage (type : UInt32) (msg : ProtoMessage) (s : Connection σ) :
    Entered Q (handleInternal E msg s).state (handleInternal E msg s)
      (handleMessage E type msg s) := by
  unfold handleMessage
  dsimp only
  split
  · exact Entered.refl _
  · exact (entered_invokeMessage hcalls type msg _).tail (entered_invokeAny hcalls msg _)

end

/-! ## The invariant -/

/-- No timer of the keepalive is pending. -/
structure Idle (s : Connection σ) : Prop where
  ids : Ids s
  ping : Holds .ping s.pingTimer none s
  pong : Holds .pongTimeout s.pongTimer none s
  awaitingPong : s.awaitingPong = false

/-- When the pong timer runs out: a keepalive timeout after the first ping that
is not answered. -/
def pongDeadline (pings : List Int) (s : Connection σ) : Option Int :=
  if s.awaitingPong then pings.head?.map fun sent => sent + s.options.keepaliveTimeout else none

/-- The timers, when pings have been sent at the given times and not answered. -/
structure Keepalive (pings : List Int) (s : Connection σ) : Prop where
  ids : Ids s
  ping : ∃ deadline, Holds .ping s.pingTimer deadline s ∧
    (deadline.isSome ↔ s.state = .connected ∧ 0 < s.options.keepaliveInterval)
  pong : Holds .pongTimeout s.pongTimer (pongDeadline pings s) s
  awaiting : s.awaitingPong = true → s.state = .connected ∧ pings ≠ []
  answered : s.awaitingPong = false →
    pings = [] ∨ s.state = .closing ∨ s.state.terminal = true
  sorted : pings.Pairwise (· ≤ ·)
  past : ∀ sent ∈ pings, sent ≤ s.executor.now

/-- What the transport holds, by the state. -/
structure Session (Q : σ → Prop) (s : Connection σ) : Prop where
  connects : s.transport.connects ≤ 1
  reading : s.transport.reading = true → s.transport.connects = 0
  active : s.state.active = true → s.transport.connects = 0 ∧ Q s.frameHelper
  ended : s.state.terminal = true → s.transport.closed = true
  completions : s.transport.completions ≠ 0 →
    (s.state = .closing ∨ s.state.terminal = true) ∧ Q s.frameHelper
  fresh : s.state = .disconnected → s.transport.connects = 0 ∧ s.transport.reading = false

/-- The invariant of every moment between two calls. -/
structure Maintained (Q : σ → Prop) (pings : List Int) (s : Connection σ) : Prop where
  keepalive : Keepalive pings s
  session : Session Q s
  served : pings ≠ [] → Q s.frameHelper

variable {pings : List Int}

@[simp] theorem pongDeadline_nil (s : Connection σ) : pongDeadline [] s = none := by
  unfold pongDeadline
  split <;> rfl

theorem Idle.congr (h : Idle s) (hexecutor : t.executor = s.executor)
    (hping : t.pingTimer = s.pingTimer) (hpong : t.pongTimer = s.pongTimer)
    (hawaiting : t.awaitingPong = s.awaitingPong) : Idle t :=
  ⟨h.ids.congr hexecutor, hping ▸ h.ping.congr hexecutor, hpong ▸ h.pong.congr hexecutor,
    hawaiting.trans h.awaitingPong⟩

/-- Without timers: in a state other than `Connected`, or without keepalive. -/
theorem Idle.keepalive (h : Idle s)
    (hstate : s.state = .connected → s.options.keepaliveInterval ≤ 0)
    (hanswered : pings = [] ∨ s.state = .closing ∨ s.state.terminal = true)
    (hsorted : pings.Pairwise (· ≤ ·)) (hpast : ∀ sent ∈ pings, sent ≤ s.executor.now) :
    Keepalive pings s where
  ids := h.ids
  ping := by
    refine ⟨none, h.ping, iff_of_false nofun fun ⟨hconnected, hpos⟩ => ?_⟩
    exact absurd (hstate hconnected) (Int.not_le.mpr hpos)
  pong := by
    have hnone : pongDeadline pings s = none := by simp [pongDeadline, h.awaitingPong]
    rw [hnone]
    exact h.pong
  awaiting hawaiting := absurd (h.awaitingPong.symm.trans hawaiting) nofun
  answered _ := hanswered
  sorted := hsorted
  past := hpast

theorem Keepalive.idle (h : Keepalive pings s) (hstate : s.state ≠ .connected) : Idle s := by
  have hawaiting : s.awaitingPong = false := by
    by_contra hawaiting
    exact hstate (h.awaiting (Bool.not_eq_false _ ▸ hawaiting)).1
  obtain ⟨deadline, hping, hiff⟩ := h.ping
  have hnone : pongDeadline pings s = none := by simp [pongDeadline, hawaiting]
  refine ⟨h.ids, ?_, hnone ▸ h.pong, hawaiting⟩
  cases deadline with
  | none => exact hping
  | some d => exact absurd (hiff.mp rfl).1 hstate

theorem Keepalive.congr (h : Keepalive pings s) (hstate : t.state = s.state)
    (hoptions : t.options = s.options) (hexecutor : t.executor = s.executor)
    (hping : t.pingTimer = s.pingTimer) (hpong : t.pongTimer = s.pongTimer)
    (hawaiting : t.awaitingPong = s.awaitingPong) : Keepalive pings t := by
  obtain ⟨deadline, hholds, hiff⟩ := h.ping
  have hdeadline : pongDeadline pings t = pongDeadline pings s := by
    simp only [pongDeadline, hawaiting, hoptions]
  exact {
    ids := h.ids.congr hexecutor
    ping := ⟨deadline, hping ▸ hholds.congr hexecutor, by rwa [hstate, hoptions]⟩
    pong := by
      rw [hpong, hdeadline]
      exact h.pong.congr hexecutor
    awaiting := by
      rw [hawaiting, hstate]
      exact h.awaiting
    answered := by
      rw [hawaiting, hstate]
      exact h.answered
    sorted := h.sorted
    past := hexecutor ▸ h.past }

theorem Session.congr (h : Session Q s) (hstate : t.state = s.state)
    (hhelper : Q s.frameHelper → Q t.frameHelper) (htransport : t.transport = s.transport) :
    Session Q t where
  connects := htransport ▸ h.connects
  reading := htransport ▸ h.reading
  active hactive := by
    rw [hstate] at hactive
    rw [htransport]
    exact ⟨(h.active hactive).1, hhelper (h.active hactive).2⟩
  ended := by
    rw [hstate, htransport]
    exact h.ended
  completions := by
    rw [hstate, htransport]
    exact fun hsome => ⟨(h.completions hsome).1, hhelper (h.completions hsome).2⟩
  fresh := by
    rw [hstate, htransport]
    exact h.fresh

theorem Maintained.entered (h : Maintained Q pings s) (ht : Entered Q s.state s t) :
    Maintained Q pings t :=
  ⟨h.keepalive.congr ht.state ht.options ht.executor ht.pingTimer ht.pongTimer ht.awaitingPong,
    h.session.congr ht.state ht.helper ht.transport, ht.helper ∘ h.served⟩

/-! ## Stopping the keepalive -/

/-- The keepalive is stopped; nothing else that matters is changed. -/
structure Stopped (s t : Connection σ) : Prop where
  idle : Idle t
  state : t.state = s.state
  options : t.options = s.options
  helper : t.frameHelper = s.frameHelper
  transport : t.transport = s.transport
  now : t.executor.now = s.executor.now
  pings : t.pingWriters = s.pingWriters

/-- The members name what is pending. -/
structure Stoppable (s : Connection σ) : Prop where
  ids : Ids s
  ping : ∃ deadline, Holds .ping s.pingTimer deadline s
  pong : ∃ deadline, Holds .pongTimeout s.pongTimer deadline s

theorem Keepalive.stoppable (h : Keepalive pings s) : Stoppable s := by
  obtain ⟨deadline, hping, -⟩ := h.ping
  exact ⟨h.ids, ⟨deadline, hping⟩, ⟨_, h.pong⟩⟩

/-- There is nothing to stop. -/
theorem Idle.stopped (h : Idle s) : Stopped s s := ⟨h, rfl, rfl, rfl, rfl, rfl, rfl⟩

section

variable (hcancels : ∀ (s : Connection σ) id, E.cancels s id = true)

include hcancels

/-- `stop_keepalive` -/
theorem Stoppable.stop (h : Stoppable s) : Stopped s (stopKeepalive E s) := by
  obtain ⟨hids, ⟨deadline, hping⟩, ⟨deadline', hpong⟩⟩ := h
  have hpong := hpong.dropTimer fun hsome => hpong.ne hids hping (by decide) hsome
  unfold stopKeepalive
  rw [cancelPingTimer_eq, cancelPongTimer_eq, cancelAny_eq hcancels, cancelAny_eq hcancels]
  exact {
    idle := {
      ids := ((hids.dropTimer s.pingTimer).dropTimer s.pongTimer).congr rfl
      ping := (hping.dropped.dropTimer_none s.pongTimer).congr rfl
      pong := hpong.dropped.congr rfl
      awaitingPong := rfl }
    state := rfl
    options := rfl
    helper := rfl
    transport := rfl
    now := rfl
    pings := rfl }

theorem Stopped.cancelConnectTimer (h : Stopped s t) : Stopped s (cancelConnectTimer E t) := by
  rw [cancelConnectTimer_eq, cancelAny_eq hcancels]
  exact {
    idle := {
      ids := (h.idle.ids.dropTimer t.connectTimer).congr rfl
      ping := (h.idle.ping.dropTimer_none t.connectTimer).congr rfl
      pong := (h.idle.pong.dropTimer_none t.connectTimer).congr rfl
      awaitingPong := h.idle.awaitingPong }
    state := h.state
    options := h.options
    helper := h.helper
    transport := h.transport
    now := h.now
    pings := h.pings }

end

/-! ## The end of a session -/

/-- The invariant is kept, and no ping is written. -/
structure Passes (Q : σ → Prop) (pings : List Int) (s t : Connection σ) : Prop where
  maintained : Maintained Q pings t
  pings : t.pingWriters = s.pingWriters
  reading : t.transport.reading = s.transport.reading

theorem Maintained.passes (h : Maintained Q pings s) : Passes Q pings s s := ⟨h, rfl, rfl⟩

theorem Passes.trans {pings' : List Int} (h : Passes Q pings s t) (h' : Passes Q pings' t u) :
    Passes Q pings' s u :=
  ⟨h'.maintained, h'.pings.trans h.pings, h'.reading.trans h.reading⟩

theorem Passes.entered (h : Passes Q pings s t) (hu : Entered Q t.state t u) :
    Passes Q pings s u :=
  ⟨h.maintained.entered hu, hu.pings.trans h.pings,
    (congrArg Transport.reading hu.transport).trans h.reading⟩

theorem inactive_of_terminal {state : ConnectionState} (h : state.terminal = true) :
    state.active = false ∧ state ≠ .disconnected ∧ state ≠ .connected := by
  cases state <;> simp [ConnectionState.terminal, ConnectionState.active] at h ⊢

/-- The transport is closed and the session is over. -/
theorem passes_over {state : ConnectionState} (hterminal : state.terminal = true)
    (hsession : Session Q s) (hserved : pings ≠ [] → Q s.frameHelper)
    (hsorted : pings.Pairwise (· ≤ ·)) (hpast : ∀ sent ∈ pings, sent ≤ s.executor.now)
    (hstop : Stopped s u)
    (ht : Entered Q state (closeTransport u) t) : Passes Q pings s t := by
  obtain ⟨hactive, hfresh, hconnected⟩ := inactive_of_terminal hterminal
  have htransport : t.transport = { s.transport with closed := true } := by
    rw [ht.transport, ← hstop.transport]
    rfl
  have hidle : Idle t := hstop.idle.congr ht.executor ht.pingTimer ht.pongTimer ht.awaitingPong
  have hnow : t.executor.now = s.executor.now :=
    (congrArg Executor.now ht.executor).trans hstop.now
  have hhelper : Q s.frameHelper → Q t.frameHelper := fun hs => ht.helper (hstop.helper ▸ hs)
  refine ⟨⟨?_, ?_, hhelper ∘ hserved⟩, ?_, by rw [htransport]⟩
  · refine hidle.keepalive (fun hstate => ?_) (Or.inr (Or.inr (ht.state ▸ hterminal))) hsorted ?_
    · exact absurd (ht.state.symm.trans hstate) hconnected
    · rw [hnow]
      exact hpast
  · exact {
      connects := by rw [htransport]; exact hsession.connects
      reading := by rw [htransport]; exact hsession.reading
      active := fun h => absurd ((ht.state ▸ h).symm.trans hactive) nofun
      ended := fun _ => by rw [htransport]
      completions := fun hsome => by
        rw [htransport] at hsome
        exact ⟨Or.inr (ht.state ▸ hterminal), hhelper (hsession.completions hsome).2⟩
      fresh := fun h => absurd (ht.state.symm.trans h) hfresh }
  · rw [ht.pings, ← hstop.pings]
    exact (entered_emit (Q := Q) (o := .close) rfl
      { u with transport := { u.transport with closed := true } }).pings

section

variable (hcalls : ∀ call (s : Connection σ), E.calls call s = [])
  (hcancels : ∀ (s : Connection σ) id, E.cancels s id = true)

include hcalls hcancels

theorem passes_failed (ec : ErrorCode) (what : CString) (hlive : s.state.terminal = false)
    (hstoppable : Stoppable s) (hsession : Session Q s)
    (hserved : pings ≠ [] → Q s.frameHelper) (hsorted : pings.Pairwise (· ≤ ·))
    (hpast : ∀ sent ∈ pings, sent ≤ s.executor.now) :
    Passes Q pings s (fail E ec what s) ∧ (fail E ec what s).state = .failed := by
  have hstop := (hstoppable.stop hcancels).cancelConnectTimer hcancels
  have hfailed : Entered Q .failed (closeTransport (cancelConnectTimer E (stopKeepalive E s)))
      (fail E ec what s) := by
    have hset : Entered Q .failed (closeTransport (cancelConnectTimer E (stopKeepalive E s)))
        (setState E .failed (closeTransport (cancelConnectTimer E (stopKeepalive E s)))) :=
      entered_setStateWith hcalls _ _ _
    unfold fail
    rw [if_neg (Bool.eq_false_iff.mp hlive)]
    dsimp only
    split
    · exact hset.tail (entered_finishConnect hcalls _ _)
    · split
      · exact hset.tail (entered_invoke hcalls _ _)
      · exact hset
  exact ⟨passes_over rfl hsession hserved hsorted hpast hstop hfailed, hfailed.state⟩

theorem passes_fail (ec : ErrorCode) (what : CString) (h : Maintained Q pings s) :
    Passes Q pings s (fail E ec what s) := by
  cases hterminal : s.state.terminal with
  | true =>
      unfold fail
      rw [if_pos hterminal]
      exact h.passes
  | false =>
      exact (passes_failed hcalls hcancels ec what hterminal h.keepalive.stoppable h.session
        h.served h.keepalive.sorted h.keepalive.past).1

omit hcancels in
theorem passes_finishDisconnect (hstate : s.state ≠ .connected) (h : Maintained Q pings s) :
    Passes Q pings s (finishDisconnect E s) :=
  passes_over rfl h.session h.served h.keepalive.sorted h.keepalive.past
    (h.keepalive.idle hstate).stopped (entered_setStateWith hcalls _ _ _)

theorem passes_handleDisconnectResponse (h : Maintained Q pings s) :
    Passes Q pings s (handleDisconnectResponse E s) :=
  passes_over rfl h.session h.served h.keepalive.sorted h.keepalive.past
    (h.keepalive.stoppable.stop hcancels) (entered_setStateWith hcalls _ _ _)

omit hcalls in
/-- `disconnect`, in a state in which it does something. -/
theorem maintained_closing (hopen : s.state = .connected ∨ s.state = .helloSent)
    (h : Maintained Q pings s) (ht : Entered Q .closing (stopKeepalive E s) t) :
    Passes Q pings s t := by
  have hstop := h.keepalive.stoppable.stop hcancels
  have hidle : Idle t := hstop.idle.congr ht.executor ht.pingTimer ht.pongTimer ht.awaitingPong
  have htransport : t.transport = s.transport := ht.transport.trans hstop.transport
  have hactive : s.state.active = true := by rcases hopen with hopen | hopen <;> rw [hopen] <;> rfl
  obtain ⟨hconnects, hserving⟩ := h.session.active hactive
  have hhelper : Q t.frameHelper := ht.helper (hstop.helper ▸ hserving)
  refine ⟨⟨?_, ?_, fun _ => hhelper⟩, ht.pings.trans hstop.pings,
    congrArg Transport.reading htransport⟩
  · refine hidle.keepalive (fun hstate => ?_) (Or.inr (Or.inl ht.state)) h.keepalive.sorted ?_
    · cases ht.state.symm.trans hstate
    · rw [(congrArg Executor.now ht.executor).trans hstop.now]
      exact h.keepalive.past
  · exact {
      connects := by rw [htransport]; exact h.session.connects
      reading := by rw [htransport]; exact h.session.reading
      active := fun _ => ⟨by rw [htransport]; exact hconnects, hhelper⟩
      ended := fun hended => by rw [ht.state] at hended; cases hended
      completions := fun _ => ⟨Or.inl ht.state, hhelper⟩
      fresh := fun hfresh => by cases ht.state.symm.trans hfresh }

theorem passes_disconnect (hQ : Lasting E.helper Q) (h : Maintained Q pings s) :
    Passes Q pings s (disconnect E s) := by
  unfold disconnect
  split
  · exact h.passes
  · next hstate =>
      have hopen : s.state = .connected ∨ s.state = .helloSent := by
        by_contra hneither
        rw [not_or] at hneither
        exact hstate hneither
      have hsent : Entered Q .closing (stopKeepalive E s)
          (send E MessageId.disconnectRequest EmptyMessage ()
            (setStateWith E id .closing (stopKeepalive E s))) :=
        (entered_setStateWith hcalls _ _ _).tail (entered_send hQ
          (show MessageId.disconnectRequest ≠ MessageId.pingRequest by decide) _ _ _)
      have hclosing := maintained_closing hcancels hopen h hsent
      dsimp only
      split
      · refine hclosing.trans (passes_finishDisconnect hcalls ?_ hclosing.maintained)
        rw [hsent.state]
        exact nofun
      · have hstays := hclosing.maintained
        have hactive := hstays.session.active (by rw [hsent.state]; rfl)
        refine ⟨⟨hstays.keepalive.congr rfl rfl rfl rfl rfl rfl, ?_, hstays.served⟩,
          hclosing.pings, hclosing.reading⟩
        exact { hstays.session with
          completions := fun _ => ⟨Or.inl hsent.state, hactive.2⟩ }

/-! ## Messages -/

omit hcalls hcancels in
/-- The connection is greeted: the keepalive starts. -/
theorem maintained_connected (hstate : s.state = .helloSent) (h : Maintained Q pings s)
    (hstop : Stopped s u) (ht : Entered Q .connected u t) :
    Passes Q pings s (startKeepalive t) := by
  have hidle : Idle t := hstop.idle.congr ht.executor ht.pingTimer ht.pongTimer ht.awaitingPong
  have htransport : t.transport = s.transport := ht.transport.trans hstop.transport
  obtain ⟨hconnects, hserving⟩ := h.session.active (by rw [hstate]; rfl)
  have hawaiting : s.awaitingPong = false :=
    (h.keepalive.idle (by rw [hstate]; decide)).awaitingPong
  obtain rfl : pings = [] := by
    have hanswered := h.keepalive.answered hawaiting
    simpa [hstate, ConnectionState.terminal] using hanswered
  have hhelper : Q t.frameHelper := ht.helper (hstop.helper ▸ hserving)
  have hsession : Session Q t := {
    connects := by rw [htransport]; exact h.session.connects
    reading := by rw [htransport]; exact h.session.reading
    active := fun _ => ⟨by rw [htransport]; exact hconnects, hhelper⟩
    ended := fun hended => by rw [ht.state] at hended; cases hended
    completions := by
      rw [htransport]
      intro hcompletions
      have hended := (h.session.completions hcompletions).1
      simp [hstate, ConnectionState.terminal] at hended
    fresh := fun hfresh => by cases ht.state.symm.trans hfresh }
  unfold startKeepalive
  split
  · next hinterval =>
      refine ⟨⟨?_, hsession, fun _ => hhelper⟩, ht.pings.trans hstop.pings,
        congrArg Transport.reading htransport⟩
      exact hidle.keepalive (fun _ => hinterval) (Or.inl rfl) .nil (by simp)
  · next hinterval =>
      refine ⟨⟨?_, hsession.congr rfl id rfl, fun _ => hhelper⟩, ht.pings.trans hstop.pings,
        congrArg Transport.reading htransport⟩
      exact {
        ids := (hidle.ids.schedule t.options.keepaliveInterval .ping).congr rfl
        ping := ⟨_, (holds_schedule hidle.ids hidle.ping.1 _).congr rfl,
          iff_of_true rfl ⟨ht.state, Int.not_le.mp hinterval⟩⟩
        pong := by
          have hne : TimerCallback.ping ≠ .pongTimeout := by decide
          rw [pongDeadline_nil]
          exact (hidle.pong.schedule t.options.keepaliveInterval hne).congr rfl
        awaiting := fun hawaits => by cases hidle.awaitingPong.symm.trans hawaits
        answered := fun _ => Or.inl rfl
        sorted := .nil
        past := by simp }

theorem passes_handleHelloResponse (v : HelloResponse.Value) (h : Maintained Q pings s) :
    Passes Q pings s (handleHelloResponse E v s) := by
  unfold handleHelloResponse
  split
  · exact h.passes
  · next hstate =>
      have hhello := not_not.mp hstate
      have hgreeted : Passes Q pings s { s with hello := ServerHello.ofResponse v } :=
        h.passes.entered ⟨rfl, rfl, id, rfl, rfl, rfl, rfl, rfl, rfl⟩
      dsimp only
      split
      · exact hgreeted.trans (passes_fail hcalls hcancels _ _ hgreeted.maintained)
      · split
        · exact hgreeted.trans (passes_fail hcalls hcancels _ _ hgreeted.maintained)
        · have hstate' : Connection.state { s with hello := ServerHello.ofResponse v } =
              .helloSent := hhello
          have hidle := hgreeted.maintained.keepalive.idle (by rw [hstate']; exact nofun)
          have hconnected := maintained_connected hstate' hgreeted.maintained
            (hidle.stopped.cancelConnectTimer hcancels)
            (entered_setStateWith hcalls (disconnect E) .connected _)
          exact (hgreeted.trans hconnected).entered (entered_finishConnect hcalls _ _)

theorem passes_handleAuthenticationResponse (v : AuthenticationResponse.Value)
    (h : Maintained Q pings s) : Passes Q pings s (handleAuthenticationResponse E v s) := by
  unfold handleAuthenticationResponse
  split
  · exact passes_fail hcalls hcancels _ _ h
  · exact h.passes

theorem passes_handleDisconnectRequest (hQ : Lasting E.helper Q) (h : Maintained Q pings s) :
    Passes Q pings s (handleDisconnectRequest E s) := by
  have hsent : Passes Q pings s (send E MessageId.disconnectResponse EmptyMessage () s) :=
    h.passes.entered (entered_send hQ (by decide) _ _ _)
  have hclosed := hsent.trans (passes_handleDisconnectResponse hcalls hcancels hsent.maintained)
  exact hclosed.entered (entered_finishConnect hcalls _ _)

omit hcalls in
/-- A `PingResponse` answers every ping. -/
theorem passes_handlePingResponse (h : Maintained Q pings s) :
    Passes Q [] s (handlePingResponse E s) := by
  obtain ⟨deadline, hping, hiff⟩ := h.keepalive.ping
  have hother : deadline.isSome → s.pingTimer ≠ s.pongTimer :=
    fun hsome => hping.ne h.keepalive.ids h.keepalive.pong (by decide) hsome
  unfold handlePingResponse
  rw [cancelPongTimer_eq, cancelAny_eq hcancels]
  refine ⟨⟨?_, h.session.congr rfl id rfl, nofun⟩, rfl, rfl⟩
  exact {
    ids := (h.keepalive.ids.dropTimer s.pongTimer).congr rfl
    ping := ⟨deadline, (hping.dropTimer hother).congr rfl, hiff⟩
    pong := by
      rw [pongDeadline_nil]
      exact h.keepalive.pong.dropped.congr rfl
    awaiting := nofun
    answered := fun _ => Or.inl rfl
    sorted := .nil
    past := by simp }

theorem passes_handleInternal (hQ : Lasting E.helper Q) (msg : ProtoMessage)
    (h : Maintained Q pings s) :
    Passes Q (if msg.isPong then [] else pings) s (handleInternal E msg s) := by
  cases msg with
  | helloResponse v => exact passes_handleHelloResponse hcalls hcancels v h
  | authenticationResponse v => exact passes_handleAuthenticationResponse hcalls hcancels v h
  | disconnectRequest => exact passes_handleDisconnectRequest hcalls hcancels hQ h
  | disconnectResponse => exact passes_handleDisconnectResponse hcalls hcancels h
  | pingRequest =>
      have hne : MessageId.pingResponse ≠ MessageId.pingRequest := by decide
      exact h.passes.entered (entered_send hQ hne EmptyMessage () s)
  | pingResponse => exact passes_handlePingResponse hcancels h
  | helloRequest v => exact h.passes
  | authenticationRequest v => exact h.passes
  | other type fields v => exact h.passes

/-! ## Turns -/

theorem passes_handleFrame (hQ : Lasting E.helper Q) (frame : Frame) (h : Maintained Q pings s) :
    Passes Q (unanswered pings (parse E frame).toList) s (handleFrame E frame s) := by
  have hraw : Passes Q pings s (invokeRaw E frame s) :=
    h.passes.entered (entered_invokeRaw hcalls frame s)
  rcases handleFrame_cases (E := E) frame s with ⟨hnone, heq | heq⟩ | ⟨msg, hmsg, heq⟩
  · rw [heq, hnone]
    exact hraw
  · rw [heq, hnone]
    exact hraw.trans (passes_fail hcalls hcancels _ _ hraw.maintained)
  · rw [heq, hmsg]
    have hinternal := hraw.trans (passes_handleInternal hcalls hcancels hQ msg hraw.maintained)
    have hpong : unanswered pings (some msg).toList = if msg.isPong then [] else pings := by
      simp [unanswered]
    rw [hpong]
    exact hinternal.entered (entered_handleMessage hcalls frame.type msg _)

end

/-- `Q` holds from the end of the handshake on. -/
structure Latched (H : FrameHelper σ) (Q : σ → Prop) : Prop where
  lasting : Lasting H Q
  ready : ∀ f, (H.advance f).1 = .ready → ¬ Q f ∧ Q (H.advance f).2
  plain : H.needsHandshake = false → ∀ f, Q f

theorem Maintained.helper (h : Maintained Q pings s) {f : σ} (hf : Q s.frameHelper → Q f) :
    Maintained Q pings { s with frameHelper := f } :=
  ⟨h.keepalive.congr rfl rfl rfl rfl rfl rfl, h.session.congr rfl hf rfl,
    hf ∘ h.served⟩

/-- Before the hello: no session is open and no ping is out. -/
structure Unopened (pings : List Int) (s : Connection σ) : Prop where
  state : s.state.active = false
  connects : s.transport.connects = 0
  completions : s.transport.completions = 0
  pings : pings = []

/-- A helper whose handshake is not complete serves no session. -/
theorem Maintained.unopened (h : Maintained Q pings s) (hf : ¬ Q s.frameHelper)
    (hconnects : s.transport.connects = 0) : Unopened pings s where
  state := by
    by_contra hactive
    exact hf (h.session.active (Bool.not_eq_false _ ▸ hactive)).2
  connects := hconnects
  completions := by
    by_contra hsome
    exact hf (h.session.completions hsome).2
  pings := by
    by_contra hsome
    exact hf (h.served hsome)

section

variable (hcalls : ∀ call (s : Connection σ), E.calls call s = [])
  (hcancels : ∀ (s : Connection σ) id, E.cancels s id = true)

include hcalls

/-- The end of the handshake. -/
theorem passes_onReady (hQ : Lasting E.helper Q) (hbefore : Unopened pings s)
    (h : Maintained Q pings s) {f : σ} (hf : Q f) :
    Passes Q pings s (onReady E { s with frameHelper := f }) := by
  have hset : Entered Q .helloSent { s with frameHelper := f }
      (onReady E { s with frameHelper := f }) :=
    (entered_sendHello hQ _).trans (entered_setStateWith hcalls _ _ _)
  have hidle := h.keepalive.idle (by
    intro hconnected
    have hinactive := hbefore.state
    rw [hconnected] at hinactive
    cases hinactive)
  have hidle' := hidle.congr hset.executor hset.pingTimer hset.pongTimer hset.awaitingPong
  refine ⟨⟨?_, ?_, fun _ => hset.helper hf⟩, hset.pings, congrArg Transport.reading hset.transport⟩
  · refine hidle'.keepalive (fun hstate => ?_) (Or.inl hbefore.pings) h.keepalive.sorted ?_
    · cases hset.state.symm.trans hstate
    · rw [hset.executor]
      exact h.keepalive.past
  · exact {
      connects := by rw [hset.transport]; exact h.session.connects
      reading := by rw [hset.transport]; exact h.session.reading
      active := fun _ => ⟨by rw [hset.transport]; exact hbefore.connects, hset.helper hf⟩
      ended := fun hended => by rw [hset.state] at hended; cases hended
      completions := fun hsome => by
        rw [hset.transport] at hsome
        exact absurd hbefore.completions hsome
      fresh := fun hfresh => by cases hset.state.symm.trans hfresh }

include hcancels

theorem passes_drainTurn (hL : Latched E.helper Q) (hreading : s.transport.reading = true)
    (h : Maintained Q pings s) :
    Passes Q (unanswered pings (turnMessage E s).toList) s (drainTurn E s).1 := by
  have hadvanced : Passes Q pings s (advanced E s) :=
    ⟨h.helper (hL.lasting.advance _), rfl, rfl⟩
  cases hout : (E.helper.advance s.frameHelper).1 with
  | needMore =>
      have hnone : turnMessage E s = none := by simp [turnMessage, turnFrame, hout]
      rw [hnone, drainTurn, hout]
      exact hadvanced
  | throws e =>
      have hnone : turnMessage E s = none := by simp [turnMessage, turnFrame, hout]
      rw [hnone, drainTurn, hout]
      show Passes Q pings s (onException E e (advanced E s))
      unfold onException
      split
      · have herror : Passes Q pings s { advanced E s with lastError := some e } :=
          hadvanced.entered ⟨rfl, rfl, id, rfl, rfl, rfl, rfl, rfl, rfl⟩
        exact herror.trans (passes_fail hcalls hcancels _ _ herror.maintained)
      · exact hadvanced
  | silent =>
      have hnone : turnMessage E s = none := by simp [turnMessage, turnFrame, hout]
      rw [hnone, drainTurn, hout]
      exact hadvanced
  | ready =>
      have hnone : turnMessage E s = none := by simp [turnMessage, turnFrame, hout]
      obtain ⟨hbefore, hafter⟩ := hL.ready _ hout
      rw [hnone, drainTurn, hout]
      exact passes_onReady hcalls hL.lasting
        (h.unopened hbefore (h.session.reading hreading)) h hafter
  | error what =>
      have hnone : turnMessage E s = none := by simp [turnMessage, turnFrame, hout]
      rw [hnone, drainTurn, hout]
      have herror : Passes Q pings s
          { advanced E s with lastError := some ⟨.handshakeError, what⟩ } :=
        hadvanced.entered ⟨rfl, rfl, id, rfl, rfl, rfl, rfl, rfl, rfl⟩
      exact herror.trans (passes_fail hcalls hcancels _ _ herror.maintained)
  | ok frame =>
      have hmsg : turnMessage E s = parse E frame := by simp [turnMessage, turnFrame, hout]
      rw [hmsg, drainTurn, hout]
      exact hadvanced.trans (passes_handleFrame hcalls hcancels hL.lasting frame
        hadvanced.maintained)

/-- A chunk of bytes. -/
theorem passes_onBytes (hL : Latched E.helper Q) (data : Bytes)
    (hreading : s.transport.reading = true) (h : Maintained Q pings s) :
    Passes Q (unanswered pings (processed E s (.bytes data))) s (onBytes E data s) := by
  have hkeeps : ∀ before t, (Passes Q (unanswered pings (before.filterMap (turnMessage E))) s t) →
      True → Passes Q (unanswered pings ((before ++ [t]).filterMap (turnMessage E))) s
        (drainTurn E t).1 := by
    intro before t ht _
    have hturn := passes_drainTurn hcalls hcancels hL (ht.reading.trans hreading) ht.maintained
    have hsplit : (before ++ [t]).filterMap (turnMessage E) =
        before.filterMap (turnMessage E) ++ (turnMessage E t).toList := by
      cases hmsg : turnMessage E t <;> simp [hmsg]
    rw [hsplit, unanswered_append]
    exact ht.trans hturn
  refine onBytes_with_turns
    (I := fun before t => Passes Q (unanswered pings (before.filterMap (turnMessage E))) s t)
    (fun _ _ ht => ht)
    (fun before t ht hp => ⟨hkeeps before t ht hp, fun _ => hkeeps before t ht hp⟩)
    hreading ?_ fun _ _ => trivial
  exact ⟨h.helper (hL.lasting.feed data _), rfl, rfl⟩

end

/-! ## The timers of the keepalive -/

/-- `send_ping`, after the ping is sent: the pong timer is set, if it was not. -/
def armPong (s : Connection σ) : Connection σ :=
  if s.awaitingPong then s
  else { schedule s.options.keepaliveTimeout .pongTimeout s with
    awaitingPong := true, pongTimer := s.executor.nextId }

/-- `send_ping`, at its end. -/
def schedulePing (s : Connection σ) : Connection σ :=
  { schedule s.options.keepaliveInterval .ping s with pingTimer := s.executor.nextId }

theorem armPong_fields (s : Connection σ) :
    (armPong s).state = s.state ∧ (armPong s).options = s.options ∧
      (armPong s).frameHelper = s.frameHelper ∧ (armPong s).transport = s.transport ∧
      (armPong s).log = s.log ∧ (armPong s).executor.now = s.executor.now := by
  unfold armPong
  split <;> exact ⟨rfl, rfl, rfl, rfl, rfl, rfl⟩

/-- What an event leaves: pings are written by some, and those of the
connection are out from now on. -/
def Follows (Q : σ → Prop) (pings : List Int) (s t : Connection σ) : Prop :=
  ∃ writers : List Writer, t.pingWriters = s.pingWriters ++ writers ∧
    Maintained Q (pings ++ (writers.filter (· = .connection)).map fun _ => s.executor.now) t

theorem Passes.follows (h : Passes Q pings s t) : Follows Q pings s t :=
  ⟨[], by rw [h.pings, List.append_nil], by simpa using h.maintained⟩

/-- A timer of another kind is taken. -/
theorem Maintained.takeTimer {timer : Timer} (h : Maintained Q pings s)
    (hmem : timer ∈ s.executor.timers) (hcallback : timer.callback = .connectTimeout) :
    Maintained Q pings (takeTimer timer.id s) := by
  obtain ⟨deadline, hping, hiff⟩ := h.keepalive.ping
  have hping' : deadline.isSome → s.pingTimer ≠ timer.id :=
    hping.ne_of_mem h.keepalive.ids hmem (by simp [hcallback])
  have hpong' : (pongDeadline pings s).isSome → s.pongTimer ≠ timer.id :=
    h.keepalive.pong.ne_of_mem h.keepalive.ids hmem (by simp [hcallback])
  refine ⟨?_, h.session.congr rfl id rfl, h.served⟩
  exact { h.keepalive with
    ids := h.keepalive.ids.takeTimer _
    ping := ⟨deadline, hping.takeTimer hping', hiff⟩
    pong := h.keepalive.pong.takeTimer hpong' }

/-- Once a ping is written the pong timer is set, if it was not. -/
theorem Keepalive.armPong (h : Keepalive pings s) (hstate : s.state = .connected)
    (ht : t = { takeTimer s.pingTimer s with frameHelper := t.frameHelper, log := t.log }) :
    Ids (armPong t) ∧ (armPong t).pending .ping = [] ∧ (armPong t).awaitingPong = true ∧
      Holds .pongTimeout (armPong t).pongTimer
        (pongDeadline (pings ++ [s.executor.now]) (armPong t)) (armPong t) := by
  obtain ⟨deadline, hping, -⟩ := h.ping
  have hexecutor : t.executor = (takeTimer s.pingTimer s).executor := by rw [ht]
  have hids : Ids t := (h.ids.takeTimer s.pingTimer).congr hexecutor
  have hnone : t.pending .ping = [] := by
    rw [pending, hexecutor]
    exact hping.taken
  have hpong : Holds .pongTimeout s.pongTimer (pongDeadline pings s) t :=
    (h.pong.takeTimer (h.pong.ne h.ids hping (by decide))).congr hexecutor
  have hawaits : t.awaitingPong = s.awaitingPong := by rw [ht]; rfl
  unfold Connection.armPong
  cases hawaiting : s.awaitingPong with
  | true =>
      have hdeadline : pongDeadline (pings ++ [s.executor.now]) t = pongDeadline pings s := by
        have hoptions : t.options = s.options := by rw [ht]; rfl
        cases pings with
        | nil => exact absurd rfl (h.awaiting hawaiting).2
        | cons first rest => simp [pongDeadline, hawaits, hawaiting, hoptions]
      have htimer : t.pongTimer = s.pongTimer := by rw [ht]; rfl
      rw [if_pos (hawaits.trans hawaiting), hdeadline, htimer]
      exact ⟨hids, hnone, hawaits.trans hawaiting, hpong⟩
  | false =>
      have hanswered := h.answered hawaiting
      obtain rfl : pings = [] := by simpa [hstate, ConnectionState.terminal] using hanswered
      have hclear : t.pending .pongTimeout = [] := by simpa [pongDeadline, hawaiting] using hpong.1
      have hnow : s.executor.now = t.executor.now := by rw [hexecutor]; rfl
      rw [if_neg (by rw [hawaits, hawaiting]; decide), hnow]
      refine ⟨(hids.schedule t.options.keepaliveTimeout .pongTimeout).congr rfl, ?_, rfl,
        (holds_schedule hids hclear t.options.keepaliveTimeout).congr rfl⟩
      show (schedule t.options.keepaliveTimeout .pongTimeout t).pending .ping = []
      rw [pending_schedule, hnone]
      rfl

theorem sendPing_eq (hstate : s.state = .connected) :
    sendPing E s = schedulePing (armPong (send E MessageId.pingRequest EmptyMessage () s)) := by
  unfold sendPing
  rw [if_neg (not_not_intro hstate)]
  rfl

/-! A ping that is sent now is the last. -/

theorem Keepalive.sorted_concat (h : Keepalive pings s) :
    (pings ++ [s.executor.now]).Pairwise (· ≤ ·) := by
  rw [List.pairwise_append]
  refine ⟨h.sorted, by simp, fun sent hsent now hmem => ?_⟩
  have hnow : now = s.executor.now := by simpa using hmem
  rw [hnow]
  exact h.past sent hsent

theorem Keepalive.past_concat (h : Keepalive pings s) :
    ∀ sent ∈ pings ++ [s.executor.now], sent ≤ s.executor.now := by
  intro sent hsent
  rcases List.mem_append.mp hsent with hsent | hsent
  · exact h.past sent hsent
  · have heq : sent = s.executor.now := by simpa using hsent
    exact le_of_eq heq

/-- The ping timer expires. -/
theorem follows_ping {timer : Timer} (hQ : Lasting E.helper Q) (h : Maintained Q pings s)
    (hmem : timer ∈ s.executor.timers) (hcallback : timer.callback = .ping) :
    Follows Q pings s (sendPing E (takeTimer timer.id s)) := by
  obtain ⟨deadline, hping, hiff⟩ := h.keepalive.ping
  obtain ⟨hdeadline, hid⟩ := Holds.eq_of_mem (hcallback ▸ hping) hmem
  obtain ⟨hstate, hinterval⟩ := hiff.mp (by rw [hdeadline]; rfl)
  have hserving := (h.session.active (by rw [hstate]; rfl)).2
  have htaken : (takeTimer s.pingTimer s).state = .connected := hstate
  rw [← hid, sendPing_eq htaken]
  obtain ⟨t, ht⟩ :
      ∃ t, t = send E MessageId.pingRequest EmptyMessage () (takeTimer s.pingTimer s) :=
    ⟨_, rfl⟩
  have hsame : t = { takeTimer s.pingTimer s with frameHelper := t.frameHelper, log := t.log } := by
    rw [ht]
    rfl
  have hwriters : t.pingWriters = s.pingWriters ++ [.connection] := by
    rw [ht]
    simp [pingWriters, send, sendRaw, emit, Output.pingWriter, takeTimer]
  have hhelper : Q t.frameHelper := by
    rw [ht]
    exact hQ.encode _ _ _ hserving
  obtain ⟨hids, hnone, hawaiting, hpong⟩ := h.keepalive.armPong hstate hsame
  obtain ⟨hstate', hoptions, hhelper', htransport, hlog, hnow⟩ := armPong_fields t
  have hconnected : (armPong t).state = .connected := by
    rw [hstate', hsame]
    exact hstate
  have htransport' : (armPong t).transport = s.transport := by
    rw [htransport, hsame]
    rfl
  have hnow' : (armPong t).executor.now = s.executor.now := by
    rw [hnow, hsame]
    rfl
  have hpositive : 0 < (armPong t).options.keepaliveInterval := by
    rw [hoptions, hsame]
    exact hinterval
  rw [← ht]
  refine ⟨[.connection], ?_, ⟨?_, ?_, fun _ => ?_⟩⟩
  · show (armPong t).log.filterMap Output.pingWriter = _
    rw [hlog]
    exact hwriters
  · exact {
      ids := (hids.schedule (armPong t).options.keepaliveInterval .ping).congr rfl
      ping := ⟨_, (holds_schedule hids hnone (armPong t).options.keepaliveInterval).congr rfl,
        iff_of_true rfl ⟨hconnected, hpositive⟩⟩
      pong := by
        have hne : TimerCallback.ping ≠ .pongTimeout := by decide
        exact (hpong.schedule (armPong t).options.keepaliveInterval hne).congr rfl
      awaiting := fun _ => ⟨hconnected, by simp⟩
      answered := fun hidle => by cases hidle.symm.trans hawaiting
      sorted := h.keepalive.sorted_concat
      past := by
        intro sent hsent
        show sent ≤ (armPong t).executor.now
        rw [hnow']
        exact h.keepalive.past_concat sent hsent }
  · refine h.session.congr (hconnected.trans hstate.symm) (fun _ => ?_) htransport'
    show Q (armPong t).frameHelper
    rw [hhelper']
    exact hhelper
  · show Q (armPong t).frameHelper
    rw [hhelper']
    exact hhelper

/-- When the pong timer expires, the first ping that is not answered is as old
as the keepalive timeout. -/
theorem Keepalive.pongTimer {timer : Timer} (h : Keepalive pings s)
    (hmem : timer ∈ s.executor.timers) (hcallback : timer.callback = .pongTimeout) :
    s.awaitingPong = true ∧ s.state = .connected ∧ s.pongTimer = timer.id ∧
      ∃ sent ∈ pings, timer.deadline = sent + s.options.keepaliveTimeout := by
  obtain ⟨hdeadline, hid⟩ := Holds.eq_of_mem (hcallback ▸ h.pong) hmem
  cases hawaiting : s.awaitingPong with
  | false => simp [pongDeadline, hawaiting] at hdeadline
  | true =>
      obtain ⟨hstate, hsome⟩ := h.awaiting hawaiting
      obtain ⟨first, rest, rfl⟩ := List.exists_cons_of_ne_nil hsome
      have hfirst : first + s.options.keepaliveTimeout = timer.deadline := by
        simpa [pongDeadline, hawaiting] using hdeadline
      exact ⟨rfl, hstate, hid, first, by simp, hfirst.symm⟩

section

variable (hcalls : ∀ call (s : Connection σ), E.calls call s = [])
  (hcancels : ∀ (s : Connection σ) id, E.cancels s id = true)

include hcalls hcancels

/-- The pong timer expires. -/
theorem passes_pong {timer : Timer} (h : Maintained Q pings s)
    (hmem : timer ∈ s.executor.timers) (hcallback : timer.callback = .pongTimeout) :
    Passes Q pings s (runTimer E .pongTimeout (takeTimer timer.id s)) := by
  obtain ⟨hawaiting, hstate, hid, -⟩ := h.keepalive.pongTimer hmem hcallback
  obtain ⟨deadline, hping, -⟩ := h.keepalive.ping
  have hother : deadline.isSome → s.pingTimer ≠ timer.id :=
    hping.ne_of_mem h.keepalive.ids hmem (by simp [hcallback])
  have hstoppable : Stoppable { takeTimer timer.id s with pongTimer := invalidTimer } := {
    ids := (h.keepalive.ids.takeTimer timer.id).congr rfl
    ping := ⟨deadline, (hping.takeTimer hother).congr rfl⟩
    pong := by
      refine ⟨none, ?_, iff_of_false nofun (not_not_intro rfl)⟩
      rw [← hid]
      exact h.keepalive.pong.taken }
  have hlive : Connection.state { takeTimer timer.id s with pongTimer := invalidTimer } =
      .connected := hstate
  have hfailed := passes_failed hcalls hcancels .timedOut (lit "keepalive pong timed out")
    (by rw [hlive]; rfl) hstoppable (h.session.congr rfl id rfl) h.served h.keepalive.sorted
    h.keepalive.past
  have hrun : runTimer E .pongTimeout (takeTimer timer.id s) =
      fail E .timedOut (lit "keepalive pong timed out")
        { takeTimer timer.id s with pongTimer := invalidTimer } := if_pos hawaiting
  rw [hrun]
  exact ⟨hfailed.1.maintained, hfailed.1.pings, hfailed.1.reading⟩

theorem follows_onTimer (hQ : Lasting E.helper Q) (id : TimerId) (h : Maintained Q pings s) :
    Follows Q pings s (onTimer E id s) := by
  unfold onTimer
  split
  · next timer hfind =>
      have hmem := List.mem_of_find?_eq_some hfind
      have hid : timer.id = id := by
        have hdue := List.find?_some hfind
        simp at hdue
        exact hdue.1
      rw [← hid]
      cases hcallback : timer.callback with
      | connectTimeout =>
          have htaken := h.takeTimer hmem hcallback
          have hpasses : Passes Q pings s (takeTimer timer.id s) := ⟨htaken, rfl, rfl⟩
          refine Passes.follows ?_
          unfold runTimer
          dsimp only
          split
          · exact hpasses.trans (passes_fail hcalls hcancels _ _ htaken)
          · exact hpasses
      | ping => exact follows_ping hQ h hmem hcallback
      | pongTimeout => exact (passes_pong hcalls hcancels h hmem hcallback).follows
  · exact h.passes.follows

end

end Connection

end EsphomeApi
