/-
EsphomeApi.Connection.OutgoingOrder — the order of the messages that a
connection writes.

Messages are written from six places. `Ordered` is what holds of the log at
every moment of an event: it knows how far the session has come (`Stage`), so
that the hello comes first and once, and what has been answered. A helper with
a handshake is described by two predicates of its state (`Staged`): callbacks
are installed, and frames may be written.
-/
import EsphomeApi.Connection.HelloGate
import EsphomeApi.Connection.Terminal

namespace EsphomeApi

open Proto Library

/-! ## The order -/

/-- The type of the message that an output writes. -/
def Output.written : Output → Option UInt32
  | .write _ frame _ => some frame.type
  | _ => none

/-- What `send_hello` writes. -/
def opening (options : ConnectionOptions) : List UInt32 :=
  MessageId.helloRequest :: if options.login then [MessageId.authenticationRequest] else []

/-- Starts with the hello, and does not repeat it. -/
def Opens (options : ConnectionOptions) (types : List UInt32) : Prop :=
  ∃ rest, types = opening options ++ rest ∧
    MessageId.helloRequest ∉ rest ∧ MessageId.authenticationRequest ∉ rest

/-- Pings are written in state `Connected`, and not after a `DisconnectRequest`. -/
def PingsInOrder (log : List Output) : Prop :=
  ∀ before o after, log = before ++ o :: after → o.written = some MessageId.pingRequest →
    before.foldl Output.stateAfter .disconnected = .connected ∧
      MessageId.disconnectRequest ∉ before.filterMap Output.written

/-- `HelloSent`, `Connected` or `Closing`. -/
def ConnectionState.active : ConnectionState → Bool
  | .helloSent => true
  | .connected => true
  | .closing => true
  | _ => false

/-- The type of the message that answers a request of the device. -/
def answer : ProtoMessage → Option UInt32
  | .pingRequest => some MessageId.pingResponse
  | .disconnectRequest => some MessageId.disconnectResponse
  | _ => none

def isAnswer (type : UInt32) : Bool :=
  type == MessageId.pingResponse || type == MessageId.disconnectResponse

/-- The order of what a connection writes, when it has processed some messages. -/
structure OutgoingOrder (options : ConnectionOptions) (processed : List ProtoMessage)
    (log : List Output) : Prop where
  opening : log.filterMap Output.written = [] ∨ Opens options (log.filterMap Output.written)
  pings : PingsInOrder log
  requests : (log.filterMap Output.written).count MessageId.disconnectRequest ≤ 1
  responses : (log.filterMap Output.written).count MessageId.disconnectResponse ≤ 1
  answers : (log.filterMap Output.written).filter isAnswer = processed.filterMap answer

theorem Opens.append {options : ConnectionOptions} {types : List UInt32} {type : UInt32}
    (h : Opens options types) (hhello : type ≠ MessageId.helloRequest)
    (hlogin : type ≠ MessageId.authenticationRequest) : Opens options (types ++ [type]) := by
  obtain ⟨rest, rfl, hno, hno'⟩ := h
  exact ⟨rest ++ [type], by simp, by simp [hno, hhello.symm], by simp [hno', hlogin.symm]⟩

theorem PingsInOrder.append {log : List Output} {o : Output} (h : PingsInOrder log)
    (ho : o.written = some MessageId.pingRequest →
      log.foldl Output.stateAfter .disconnected = .connected ∧
        MessageId.disconnectRequest ∉ log.filterMap Output.written) :
    PingsInOrder (log ++ [o]) := by
  intro before o' after hlog hping
  rcases List.eq_nil_or_concat after with rfl | ⟨after, last, rfl⟩
  · obtain ⟨rfl, rfl⟩ : log = before ∧ o = o' := by simpa using List.append_inj' hlog rfl
    exact ho hping
  · have hcut : log ++ [o] = (before ++ o' :: after) ++ [last] := by simpa using hlog
    exact h before o' after (List.append_inj' hcut rfl).1 hping

theorem PingsInOrder.write {log : List Output} {writer : Writer} {frame : Frame} {wire : Bytes}
    (h : PingsInOrder log) (htype : frame.type ≠ MessageId.pingRequest) :
    PingsInOrder (log ++ [.write writer frame wire]) :=
  h.append fun hping => absurd (Option.some.inj hping) htype

namespace Connection

variable {σ : Type} {E : Environment σ} {s t : Connection σ}

/-- The types of the messages written, oldest first. -/
def written (s : Connection σ) : List UInt32 := s.log.filterMap Output.written

@[simp] theorem written_emit (o : Output) (s : Connection σ) :
    (emit o s).written = s.written ++ o.written.toList := by
  cases ho : o.written <;> simp [written, emit, ho]

@[simp] theorem written_send (type : UInt32) (fields : Fields) (v : fields.Value)
    (s : Connection σ) : (send E type fields v s).written = s.written ++ [type] :=
  written_emit _ _

/-- The application sends nothing. -/
def NoSends (E : Environment σ) : Prop :=
  ∀ call s, ∀ c ∈ E.calls call s, ∀ type payload, c ≠ .sendRaw type payload

/-! ## Helpers with a handshake -/

/-- `hooked`: callbacks are installed. `serving`: frames may be written, which
is the case from the end of the handshake on. -/
structure Staged (H : FrameHelper σ) (hooked serving : σ → Prop) : Prop where
  lasting : Lasting H hooked
  hooks : ∀ f, hooked (H.connectBytes (H.setHandshakeHandlers f)).2 ∧
    (serving (H.connectBytes (H.setHandshakeHandlers f)).2 ↔ serving f)
  encode : ∀ type payload f, serving (H.encode type payload f).2 ↔ serving f
  feed : ∀ data f, serving (H.feed data f) ↔ serving f
  ready : ∀ f, (H.advance f).1 = .ready → ¬ serving f ∧ serving (H.advance f).2
  frame : ∀ f frame, (H.advance f).1 = .ok frame → serving f
  other : ∀ f, hooked f → (H.advance f).1 ≠ .ready → (serving (H.advance f).2 ↔ serving f)
  plain : H.needsHandshake = false → ∀ f, hooked f ∧ serving f

/-- How far the session has come: whether the transport delivers bytes, how
many connects are outstanding, and whether the hello has been written. -/
structure Stage where
  reading : Bool := false
  connects : Nat := 0
  opened : Bool := false

/-- The stages of a session with one `start`. -/
structure Possible (E : Environment σ) (stage : Stage) : Prop where
  connects : stage.connects ≤ 1
  opened : stage.opened = true → stage.connects = 0
  reading : stage.reading = true → stage.connects = 0
  plain : E.helper.needsHandshake = false → stage.opened = false → stage.reading = false

variable {hooked serving : σ → Prop} {options : ConnectionOptions} {stage : Stage}
  {answers : List UInt32}

/-- What has been written in a stage, with the answers to the device so far. -/
structure Ordered (E : Environment σ) (hooked serving : σ → Prop) (options : ConnectionOptions)
    (stage : Stage) (answers : List UInt32) (s : Connection σ) : Prop where
  configured : s.options = options
  told : s.log.foldl Output.stateAfter .disconnected = s.state
  closed : s.state.terminal = true → s.transport.closed = true
  reading : s.transport.reading = stage.reading
  connects : s.transport.connects = stage.connects
  started : .started ∉ s.log → stage = {}
  hooked : stage.reading = true → hooked s.frameHelper
  before : stage.opened = false → s.written = [] ∧ s.state.active = false ∧
    (E.helper.needsHandshake = true → ¬ serving s.frameHelper)
  opened : stage.opened = true → Opens options s.written ∧ serving s.frameHelper
  pings : PingsInOrder s.log
  requests : s.written.count MessageId.disconnectRequest ≤ 1
  leaving : MessageId.disconnectRequest ∈ s.written →
    s.state = .closing ∨ s.state.terminal = true
  answered : s.written.filter isAnswer = answers

/-- And a `DisconnectResponse` has ended the session. -/
structure Outgoing (E : Environment σ) (hooked serving : σ → Prop) (options : ConnectionOptions)
    (stage : Stage) (answers : List UInt32) (s : Connection σ) : Prop
    extends Ordered E hooked serving options stage answers s where
  left : MessageId.disconnectResponse ∈ answers → s.state = .closed

/-- Between the change to `Closing` and the `DisconnectRequest`. -/
structure Leaving (E : Environment σ) (hooked serving : σ → Prop) (options : ConnectionOptions)
    (stage : Stage) (answers : List UInt32) (s : Connection σ) : Prop
    extends Ordered E hooked serving options stage answers s where
  state : s.state = .closing
  session : stage.opened = true
  unasked : MessageId.disconnectRequest ∉ s.written
  unanswered : MessageId.disconnectResponse ∉ answers

/-! ## One act -/

theorem Ordered.congr (h : Ordered E hooked serving options stage answers s)
    (hoptions : t.options = s.options) (hhelper : t.frameHelper = s.frameHelper)
    (hstate : t.state = s.state) (hlog : t.log = s.log)
    (hreading : t.transport.reading = s.transport.reading)
    (hconnects : t.transport.connects = s.transport.connects)
    (hclosed : t.transport.closed = s.transport.closed) :
    Ordered E hooked serving options stage answers t where
  configured := hoptions.trans h.configured
  told := by rw [hlog, hstate, h.told]
  closed := by rw [hstate, hclosed]; exact h.closed
  reading := hreading.trans h.reading
  connects := hconnects.trans h.connects
  started := by rw [hlog]; exact h.started
  hooked := by rw [hhelper]; exact h.hooked
  before := by simpa only [written, hlog, hstate, hhelper] using h.before
  opened := by simpa only [written, hlog, hhelper] using h.opened
  pings := hlog ▸ h.pings
  requests := by simpa only [written, hlog] using h.requests
  leaving := by simpa only [written, hlog, hstate] using h.leaving
  answered := by simpa only [written, hlog] using h.answered

/-- One more output, which is no message. -/
theorem Ordered.note {o : Output} (h : Ordered E hooked serving options stage answers s)
    (hlog : t.log = s.log ++ [o]) (hwritten : o.written = none)
    (hstate : o.stateAfter s.state = t.state) (hoptions : t.options = s.options)
    (hhelper : t.frameHelper = s.frameHelper)
    (hreading : t.transport.reading = s.transport.reading)
    (hconnects : t.transport.connects = s.transport.connects)
    (hclosed : t.state.terminal = true → t.transport.closed = true)
    (hbefore : stage.opened = false → t.state.active = false)
    (hleaving : MessageId.disconnectRequest ∈ s.written →
      t.state = .closing ∨ t.state.terminal = true) :
    Ordered E hooked serving options stage answers t := by
  have hsame : t.written = s.written := by simp [written, hlog, hwritten]
  exact {
    configured := hoptions.trans h.configured
    told := by
      rw [hlog, List.foldl_append, h.told]
      exact hstate
    closed := hclosed
    reading := hreading.trans h.reading
    connects := hconnects.trans h.connects
    started := fun hnone => h.started fun hmem => hnone (by simp [hlog, hmem])
    hooked := hhelper ▸ h.hooked
    before := fun hopened => ⟨hsame.trans (h.before hopened).1, hbefore hopened,
      hhelper ▸ (h.before hopened).2.2⟩
    opened := by
      rw [hsame, hhelper]
      exact h.opened
    pings := by
      rw [hlog]
      exact h.pings.append fun hping => by simp [hwritten] at hping
    requests := hsame ▸ h.requests
    leaving := by
      rw [hsame]
      exact hleaving
    answered := hsame ▸ h.answered }

theorem Ordered.emit {o : Output} (h : Ordered E hooked serving options stage answers s)
    (hwritten : o.written = none) (hstate : o.stateAfter s.state = s.state) :
    Ordered E hooked serving options stage answers (emit o s) :=
  h.note rfl hwritten hstate rfl rfl rfl rfl h.closed (fun hopened => (h.before hopened).2.1)
    h.leaving

theorem Ordered.closeTransport (h : Ordered E hooked serving options stage answers s) :
    Ordered E hooked serving options stage answers (closeTransport s) :=
  h.note (o := .close) rfl rfl rfl rfl rfl rfl rfl (fun _ => rfl)
    (fun hopened => (h.before hopened).2.1) h.leaving

theorem Ordered.assign {state : ConnectionState}
    (h : Ordered E hooked serving options stage answers s)
    (hclosed : state.terminal = true → s.transport.closed = true)
    (hbefore : stage.opened = false → state.active = false)
    (hleaving : MessageId.disconnectRequest ∈ s.written →
      state = .closing ∨ state.terminal = true) :
    Ordered E hooked serving options stage answers (assign state s) :=
  h.note (o := .state state) rfl rfl rfl rfl rfl rfl rfl hclosed hbefore hleaving

/-- The answers, with one more message. -/
theorem Ordered.send (hK : Staged E.helper hooked serving)
    (h : Ordered E hooked serving options stage answers s) (hopened : stage.opened = true)
    (type : UInt32) (fields : Fields) (v : fields.Value)
    (hhello : type ≠ MessageId.helloRequest) (hlogin : type ≠ MessageId.authenticationRequest)
    (hping : type = MessageId.pingRequest →
      s.state = .connected ∧ MessageId.disconnectRequest ∉ s.written)
    (hrequest : type = MessageId.disconnectRequest →
      s.state = .closing ∧ MessageId.disconnectRequest ∉ s.written) :
    Ordered E hooked serving options stage (answers ++ [type].filter isAnswer)
      (send E type fields v s) where
  configured := h.configured
  told := by
    show (s.log ++ [_]).foldl Output.stateAfter .disconnected = s.state
    rw [List.foldl_append, h.told]
    rfl
  closed := h.closed
  reading := h.reading
  connects := h.connects
  started hnone := h.started fun hmem => hnone (List.mem_append_left _ hmem)
  hooked hreading := hK.lasting.encode _ _ _ (h.hooked hreading)
  before hclosed := absurd (hclosed.symm.trans hopened) nofun
  opened _ := by
    obtain ⟨hopens, hserving⟩ := h.opened hopened
    rw [written_send]
    exact ⟨hopens.append hhello hlogin, (hK.encode _ _ _).mpr hserving⟩
  pings := by
    refine h.pings.append fun hwritten => ?_
    rw [h.told]
    exact hping (Option.some.inj hwritten)
  requests := by
    rw [written_send, List.count_append]
    by_cases htype : type = MessageId.disconnectRequest
    · rw [List.count_eq_zero.mpr (hrequest htype).2, htype]
      decide
    · rw [List.count_singleton]
      simpa [htype] using h.requests
  leaving hmem := by
    rw [written_send, List.mem_append, List.mem_singleton] at hmem
    rcases hmem with hmem | heq
    · exact h.leaving hmem
    · exact Or.inl (hrequest heq.symm).1
  answered := by rw [written_send, List.filter_append, h.answered]

/-- A call that sends nothing leaves the order as it is. -/
theorem ordered_perform {c : Call} (hc : ∀ type payload, c ≠ .sendRaw type payload)
    (h : Ordered E hooked serving options stage answers s) :
    Ordered E hooked serving options stage answers (perform E id c s) := by
  cases c with
  | sendRaw type payload => exact absurd rfl (hc type payload)
  | on type handler =>
      show Ordered E hooked serving options stage answers (on E type handler s)
      unfold on
      split
      · exact h.congr rfl rfl rfl rfl rfl rfl rfl
      · exact h
  | _ => exact h.congr rfl rfl rfl rfl rfl rfl rfl

theorem perform_id_written {c : Call} (hc : ∀ type payload, c ≠ .sendRaw type payload)
    (s : Connection σ) : (perform E id c s).written = s.written := by
  cases c with
  | sendRaw type payload => exact absurd rfl (hc type payload)
  | on type handler =>
      show (on E type handler s).written = s.written
      unfold on
      split <;> rfl
  | _ => rfl

theorem Ordered.kept (h : Ordered E hooked serving options stage answers s) (hk : Kept s t) :
    Ordered E hooked serving options stage answers t :=
  h.congr hk.options hk.frameHelper hk.state hk.log hk.reading hk.connects hk.closed

theorem undisturbed_outgoing (hsends : NoSends E) :
    Undisturbed E (Outgoing E hooked serving options stage answers) where
  kept hk h := { h.toOrdered.kept hk.toKept with left := fun hleft => hk.state.trans (h.left hleft) }
  invoked _ _ _ h := { h.toOrdered.emit rfl rfl with left := h.left }
  calls call s₀ c hc _ s h := { ordered_perform (hsends call s₀ c hc) h.toOrdered with
    left := fun hleft => (perform_id_state c s).trans (h.left hleft) }

theorem undisturbed_leaving (hsends : NoSends E) :
    Undisturbed E (Leaving E hooked serving options stage answers) where
  kept hk h := { h.toOrdered.kept hk.toKept with
    state := hk.state.trans h.state
    session := h.session
    unasked := by simpa only [written, hk.log] using h.unasked
    unanswered := h.unanswered }
  invoked call s _ h := { h.toOrdered.emit rfl rfl with
    state := h.state
    session := h.session
    unasked := by simpa [Output.written] using h.unasked
    unanswered := h.unanswered }
  calls call s₀ c hc _ s h := { ordered_perform (hsends call s₀ c hc) h.toOrdered with
    state := (perform_id_state c s).trans h.state
    session := h.session
    unasked := by simpa only [perform_id_written (hsends call s₀ c hc)] using h.unasked
    unanswered := h.unanswered }

/-- In an active state the hello has been written. -/
theorem Ordered.opened_of_active (h : Ordered E hooked serving options stage answers s)
    (hactive : s.state.active = true) : stage.opened = true := by
  by_contra hopened
  rw [(h.before (Bool.eq_false_iff.mpr hopened)).2.1] at hactive
  cases hactive

theorem Ordered.unasked (h : Ordered E hooked serving options stage answers s)
    (hopen : s.state = .connected ∨ s.state = .helloSent) :
    MessageId.disconnectRequest ∉ s.written := by
  intro hmem
  have hleaving := h.leaving hmem
  rcases hopen with hopen | hopen <;> simp [hopen, ConnectionState.terminal] at hleaving

theorem keptByActs_outgoing (hK : Staged E.helper hooked serving) (hsends : NoSends E) :
    KeptByActs E (Outgoing E hooked serving options stage answers)
      (Leaving E hooked serving options stage answers) where
  __ := undisturbed_outgoing hsends
  window := undisturbed_leaving hsends
  completed _ h := { h.toOrdered.congr rfl rfl rfl rfl rfl rfl rfl with left := h.left }
  close _ h := { h.toOrdered.closeTransport with left := h.left }
  closing s hopen h := by
    have hunasked := h.unasked hopen
    have hsession : stage.opened = true := by
      refine h.opened_of_active ?_
      rcases hopen with hopen | hopen <;> simp [hopen, ConnectionState.active]
    have hordered : Ordered E hooked serving options stage answers (assign .closing s) :=
      h.toOrdered.assign nofun (fun hclosed => absurd (hclosed.symm.trans hsession) nofun)
        fun hmem => absurd hmem hunasked
    refine { hordered with state := rfl, session := hsession, unasked := ?_, unanswered := ?_ }
    · simpa [Connection.assign, written, emit, Output.written] using hunasked
    · intro hleft
      rcases hopen with hopen | hopen <;> cases hopen.symm.trans (h.left hleft)
  request s _ h := by
    have hsent := h.toOrdered.send hK h.session MessageId.disconnectRequest EmptyMessage ()
      (by decide) (by decide) (fun heq => absurd heq (by decide)) fun _ => ⟨h.state, h.unasked⟩
    rw [show [MessageId.disconnectRequest].filter isAnswer = [] by decide, List.append_nil] at hsent
    exact { hsent with left := fun hleft => absurd hleft h.unanswered }
  closed s hclosed h := by
    have hordered : Ordered E hooked serving options stage answers (assign .closed s) :=
      h.toOrdered.assign (fun _ => hclosed) (fun _ => rfl) fun _ => Or.inr rfl
    exact { hordered with left := fun _ => rfl }
  failed s hlive hclosed h := by
    have hordered : Ordered E hooked serving options stage answers (assign .failed s) :=
      h.toOrdered.assign (fun _ => hclosed) (fun _ => rfl) fun _ => Or.inr rfl
    refine { hordered with left := fun hleft => ?_ }
    rw [h.left hleft] at hlive
    cases hlive
  ping s hstate h := by
    have hsession : stage.opened = true := h.opened_of_active (by rw [hstate]; rfl)
    have hsent := h.toOrdered.send hK hsession MessageId.pingRequest EmptyMessage ()
      (by decide) (by decide) (fun _ => ⟨hstate, h.unasked (Or.inl hstate)⟩)
      fun heq => absurd heq (by decide)
    rw [show [MessageId.pingRequest].filter isAnswer = [] by decide, List.append_nil] at hsent
    exact { hsent with left := h.left }

/-! ## The end of the handshake -/

/-- What `send_hello` leaves. -/
structure HelloWritten (hooked serving : σ → Prop) (s t : Connection σ) : Prop where
  written : t.written = s.written ++ opening s.options
  options : t.options = s.options
  state : t.state = s.state
  transport : t.transport = s.transport
  hooked : hooked s.frameHelper → hooked t.frameHelper
  serving : serving t.frameHelper ↔ serving s.frameHelper
  log : ∀ o ∈ s.log, o ∈ t.log
  pings : PingsInOrder s.log → PingsInOrder t.log

theorem helloWritten (hK : Staged E.helper hooked serving) (s : Connection σ) :
    HelloWritten hooked serving s (sendHello E s) := by
  have hhello : MessageId.helloRequest ≠ MessageId.pingRequest := by decide
  have hauthentication : MessageId.authenticationRequest ≠ MessageId.pingRequest := by decide
  unfold sendHello
  dsimp only
  split
  · next hlogin =>
      have hopening : opening s.options =
          [MessageId.helloRequest] ++ [MessageId.authenticationRequest] := by
        simp only [opening, if_pos (show s.options.login = true from hlogin), List.cons_append,
          List.nil_append]
      exact {
        written := by rw [written_send, written_send, hopening, List.append_assoc]
        options := rfl
        state := rfl
        transport := rfl
        hooked := fun h => hK.lasting.encode _ _ _ (hK.lasting.encode _ _ _ h)
        serving := (hK.encode _ _ _).trans (hK.encode _ _ _)
        log := fun o ho => List.mem_append_left _ (List.mem_append_left _ ho)
        pings := fun h => (h.write hhello).write hauthentication }
  · next hlogin =>
      have hopening : opening s.options = [MessageId.helloRequest] := by
        simp only [opening, if_neg (show ¬ s.options.login = true from hlogin)]
      exact {
        written := by rw [written_send, hopening]
        options := rfl
        state := rfl
        transport := rfl
        hooked := hK.lasting.encode _ _ _
        serving := hK.encode _ _ _
        log := fun o ho => List.mem_append_left _ ho
        pings := fun h => h.write hhello }

/-- The hello opens the session, once frames may be written. -/
theorem outgoing_onReady (hK : Staged E.helper hooked serving) (hsends : NoSends E)
    {reading : Bool} {connects : Nat} {f : σ}
    (h : Ordered E hooked serving options ⟨reading, connects, false⟩ answers s)
    (hstarted : .started ∈ s.log) (hhooked : reading = true → hooked f) (hserving : serving f) :
    Outgoing E hooked serving options ⟨reading, connects, true⟩ answers
      (onReady E { s with frameHelper := f }) := by
  have hacts : KeptByActs E (Outgoing E hooked serving options ⟨reading, connects, true⟩ answers)
      (Leaving E hooked serving options ⟨reading, connects, true⟩ answers) :=
    keptByActs_outgoing hK hsends
  obtain ⟨hnothing, hinactive, -⟩ := h.before rfl
  have hsent := helloWritten hK { s with frameHelper := f }
  have hopening : (assign .helloSent (sendHello E { s with frameHelper := f })).written =
      opening options := by
    rw [Connection.assign, written_emit]
    show (sendHello E { s with frameHelper := f }).written ++ [] = opening options
    rw [hsent.written, List.append_nil, ← h.configured]
    show s.written ++ opening s.options = opening s.options
    rw [hnothing, List.nil_append]
  have hanswers : answers = [] := by rw [← h.answered, hnothing, List.filter_nil]
  refine hacts.setState_of ?_ ?_
  · intro hsame
    rw [hsent.state] at hsame
    rw [← hsame] at hinactive
    cases hinactive
  · intro _
    exact {
      configured := hsent.options.trans h.configured
      told := by
        show ((sendHello E { s with frameHelper := f }).log ++ [Output.state .helloSent]).foldl
          Output.stateAfter .disconnected = .helloSent
        rw [List.foldl_append]
        rfl
      closed := nofun
      reading := by
        rw [← h.reading]
        exact congrArg Transport.reading hsent.transport
      connects := by
        rw [← h.connects]
        exact congrArg Transport.connects hsent.transport
      started := fun hnone => absurd (List.mem_append_left _ (hsent.log _ hstarted)) hnone
      hooked := fun hreading => hsent.hooked (hhooked hreading)
      before := nofun
      opened := fun _ => ⟨⟨[], by rw [hopening, List.append_nil], by simp, by simp⟩,
        hsent.serving.mpr hserving⟩
      pings := (hsent.pings h.pings).append nofun
      requests := by
        rw [hopening]
        unfold opening
        split <;> decide
      leaving := by
        rw [hopening]
        unfold opening
        split <;> exact fun hmem => absurd hmem (by decide)
      answered := by
        rw [hopening, hanswers]
        unfold opening
        split <;> rfl
      left := by
        rw [hanswers]
        exact nofun }

/-! ## Messages -/

/-- What a message of the device is answered with. -/
def answerTo (msg : ProtoMessage) : List UInt32 := (answer msg).toList

theorem outgoing_handleDisconnectRequest (hK : Staged E.helper hooked serving)
    (hsends : NoSends E) (hopened : stage.opened = true)
    (h : Ordered E hooked serving options stage answers s) :
    Outgoing E hooked serving options stage (answers ++ [MessageId.disconnectResponse])
      (handleDisconnectRequest E s) := by
  have hacts : KeptByActs E
      (Outgoing E hooked serving options stage (answers ++ [MessageId.disconnectResponse]))
      (Leaving E hooked serving options stage (answers ++ [MessageId.disconnectResponse])) :=
    keptByActs_outgoing hK hsends
  have hsent : Ordered E hooked serving options stage (answers ++ [MessageId.disconnectResponse])
      (send E MessageId.disconnectResponse EmptyMessage () s) :=
    h.send hK hopened MessageId.disconnectResponse EmptyMessage () (by decide) (by decide)
      (fun heq => absurd heq (by decide)) fun heq => absurd heq (by decide)
  have hclosed := (hsent.kept (calm_stopKeepalive (E := E) _).toKept).closeTransport
  refine hacts.finishConnect _ (hacts.setState_of ?_ ?_) nofun
  · intro hsame
    exact { hclosed with left := fun _ => hsame.symm }
  · intro _
    exact { hclosed.assign (fun _ => rfl) (fun _ => rfl) (fun _ => Or.inr rfl) with
      left := fun _ => rfl }

theorem outgoing_unanswered {msg : ProtoMessage} (hnone : answer msg = none)
    (h : Outgoing E hooked serving options stage answers s) :
    Outgoing E hooked serving options stage (answers ++ answerTo msg) s := by
  rw [answerTo, hnone, Option.toList_none, List.append_nil]
  exact h

/-- The connection's own treatment of a message, once frames are returned. -/
theorem outgoing_handleInternal (hK : Staged E.helper hooked serving) (hsends : NoSends E)
    (hopened : stage.opened = true) (hleft : MessageId.disconnectResponse ∉ answers)
    (msg : ProtoMessage) (h : Outgoing E hooked serving options stage answers s) :
    Outgoing E hooked serving options stage (answers ++ answerTo msg)
      (handleInternal E msg s) := by
  have hacts : KeptByActs E (Outgoing E hooked serving options stage answers)
      (Leaving E hooked serving options stage answers) := keptByActs_outgoing hK hsends
  cases msg with
  | disconnectRequest => exact outgoing_handleDisconnectRequest hK hsends hopened h.toOrdered
  | pingRequest =>
      have hsent : Ordered E hooked serving options stage (answers ++ [MessageId.pingResponse])
          (handlePingRequest E s) :=
        h.toOrdered.send hK hopened MessageId.pingResponse EmptyMessage () (by decide) (by decide)
          (fun heq => absurd heq (by decide)) fun heq => absurd heq (by decide)
      refine { hsent with left := fun hmem => ?_ }
      have hold := (List.mem_append.mp hmem).resolve_right (by decide)
      exact absurd hold hleft
  | helloResponse v =>
      refine outgoing_unanswered rfl (hacts.handleHelloResponse v h ?_ ?_ ?_ ?_)
      · intro _
        exact { h.toOrdered.congr rfl rfl rfl rfl rfl rfl rfl with left := h.left }
      · intro _ t hstate _ _ _ _ ht
        have hunasked := ht.unasked (Or.inr hstate)
        have hassign : Ordered E hooked serving options stage answers (assign .connected t) :=
          ht.toOrdered.assign nofun (fun hclosed => absurd (hclosed.symm.trans hopened) nofun)
            fun hmem => absurd hmem hunasked
        exact { hassign with left := fun hmem => absurd hmem hleft }
      · intro t ht
        have hk := kept_startKeepalive t
        exact { ht.toOrdered.kept hk with left := fun hmem => hk.state.trans (ht.left hmem) }
      · intro _ _ ht
        have hnone := ht.toOrdered.congr rfl rfl rfl rfl rfl rfl rfl
        exact { hnone.emit rfl rfl with left := ht.left }
  | authenticationResponse v =>
      exact outgoing_unanswered rfl (hacts.handleAuthenticationResponse v h)
  | disconnectResponse =>
      exact outgoing_unanswered rfl (hacts.handleDisconnectResponse h)
  | pingResponse =>
      exact outgoing_unanswered rfl (hacts.kept (calm_handlePingResponse s) h)
  | helloRequest v =>
      exact outgoing_unanswered rfl h
  | authenticationRequest v =>
      exact outgoing_unanswered rfl h
  | other type fields v =>
      exact outgoing_unanswered rfl h

/-! ## Turns -/

/-- The helper moves on, and stays in the same part of its handshake. -/
theorem Outgoing.helper (h : Outgoing E hooked serving options stage answers s) {f : σ}
    (hhooked : stage.reading = true → hooked f) (hserving : serving f ↔ serving s.frameHelper) :
    Outgoing E hooked serving options stage answers { s with frameHelper := f } :=
  { h with
    hooked := hhooked
    before := fun hopened => ⟨(h.before hopened).1, (h.before hopened).2.1, fun hneeds hnow =>
      (h.before hopened).2.2 hneeds (hserving.mp hnow)⟩
    opened := fun hopened => ⟨(h.opened hopened).1, hserving.mpr (h.opened hopened).2⟩ }

/-- Frames are returned only after the hello. -/
theorem Ordered.opened_of_serving (h : Ordered E hooked serving options stage answers s)
    (hpossible : Possible E stage) (hreading : stage.reading = true)
    (hserving : serving s.frameHelper) : stage.opened = true := by
  by_contra hopened
  have hclosed := Bool.eq_false_iff.mpr hopened
  cases hneeds : E.helper.needsHandshake with
  | true => exact (h.before hclosed).2.2 hneeds hserving
  | false => exact absurd ((hpossible.plain hneeds hclosed).symm.trans hreading) nofun

/-- The answer of a turn. -/
def turnAnswer (E : Environment σ) (s : Connection σ) : List UInt32 :=
  (turnMessage E s).toList.flatMap answerTo

/-- A frame is answered as its message is. -/
theorem outgoing_handleFrame (hK : Staged E.helper hooked serving) (hsends : NoSends E)
    (hopened : stage.opened = true) (hleft : MessageId.disconnectResponse ∉ answers)
    (frame : Frame) (h : Outgoing E hooked serving options stage answers s) :
    Outgoing E hooked serving options stage (answers ++ (parse E frame).toList.flatMap answerTo)
      (handleFrame E frame s) := by
  have hacts : ∀ answers, KeptByActs E (Outgoing E hooked serving options stage answers)
      (Leaving E hooked serving options stage answers) := fun _ => keptByActs_outgoing hK hsends
  have hraw := (hacts answers).invokeRaw frame h
  rcases handleFrame_cases (E := E) frame s with ⟨hnone, heq | heq⟩ | ⟨msg, hmsg, heq⟩
  · rw [heq, hnone]
    simpa using hraw
  · rw [heq, hnone]
    simpa using (hacts answers).fail _ _ hraw
  · rw [heq, hmsg]
    have hinternal := outgoing_handleInternal hK hsends hopened hleft msg hraw
    simpa using (hacts _).handleMessage frame.type msg hinternal

/-- A turn may start: bytes are delivered, and the session is not over. -/
def Turning (E : Environment σ) (hooked serving : σ → Prop) (options : ConnectionOptions)
    (answers : List UInt32) (s : Connection σ) : Prop :=
  ∃ stage, (stage.reading = true ∧ Possible E stage) ∧
    Outgoing E hooked serving options stage answers s

/-- A turn without a frame answers nothing. -/
theorem turnAnswer_eq_nil (hout : ∀ frame, (E.helper.advance s.frameHelper).1 ≠ .ok frame) :
    turnAnswer E s = [] := by
  unfold turnAnswer turnMessage turnFrame
  cases hadvance : (E.helper.advance s.frameHelper).1 with
  | ok frame => exact absurd hadvance (hout frame)
  | _ => rfl

theorem turning_drainTurn (hK : Staged E.helper hooked serving) (hsends : NoSends E)
    (hleft : MessageId.disconnectResponse ∉ answers)
    (h : Turning E hooked serving options answers s) :
    Turning E hooked serving options (answers ++ turnAnswer E s) (drainTurn E s).1 ∧
      ((drainTurn E s).2 = true →
        MessageId.disconnectResponse ∉ answers ++ turnAnswer E s) := by
  obtain ⟨stage, ⟨hreading, hpossible⟩, hs⟩ := h
  have hacts : KeptByActs E (Outgoing E hooked serving options stage answers)
      (Leaving E hooked serving options stage answers) := keptByActs_outgoing hK hsends
  have hhooked : hooked (E.helper.advance s.frameHelper).2 :=
    hK.lasting.advance _ (hs.hooked hreading)
  have hsame : (E.helper.advance s.frameHelper).1 ≠ .ready →
      Outgoing E hooked serving options stage answers (advanced E s) := fun hout =>
    hs.helper (fun _ => hhooked) (hK.other _ (hs.hooked hreading) hout)
  cases hout : (E.helper.advance s.frameHelper).1 with
  | needMore =>
      rw [turnAnswer_eq_nil (by simp [hout]), List.append_nil, drainTurn, hout]
      exact ⟨⟨stage, ⟨hreading, hpossible⟩, hsame (by simp [hout])⟩, nofun⟩
  | throws e =>
      rw [turnAnswer_eq_nil (by simp [hout]), List.append_nil, drainTurn, hout]
      exact ⟨⟨stage, ⟨hreading, hpossible⟩, hacts.onException _ (hsame (by simp [hout]))⟩, nofun⟩
  | silent =>
      rw [turnAnswer_eq_nil (by simp [hout]), List.append_nil, drainTurn, hout]
      exact ⟨⟨stage, ⟨hreading, hpossible⟩, hsame (by simp [hout])⟩, fun _ => hleft⟩
  | error what =>
      rw [turnAnswer_eq_nil (by simp [hout]), List.append_nil, drainTurn, hout]
      exact ⟨⟨stage, ⟨hreading, hpossible⟩, hacts.onHandshakeError _ (hsame (by simp [hout]))⟩,
        fun _ => hleft⟩
  | ready =>
      obtain ⟨hbefore, hafter⟩ := hK.ready _ hout
      obtain ⟨reading, connects, opened⟩ := stage
      cases opened with
      | true => exact absurd (hs.opened rfl).2 hbefore
      | false =>
          have hstarted : .started ∈ s.log := by
            by_contra hnone
            exact absurd (hs.started hnone) (by simp [show reading = true from hreading])
          rw [turnAnswer_eq_nil (by simp [hout]), List.append_nil, drainTurn, hout]
          refine ⟨⟨⟨reading, connects, true⟩, ⟨hreading, ?_⟩, ?_⟩, fun _ => hleft⟩
          · exact { hpossible with opened := fun _ => hpossible.reading hreading, plain := nofun }
          · exact outgoing_onReady hK hsends hs.toOrdered hstarted (fun _ => hhooked) hafter
  | ok frame =>
      have hopened := hs.opened_of_serving hpossible hreading (hK.frame _ _ hout)
      have hframe := outgoing_handleFrame hK hsends hopened hleft frame (hsame (by simp [hout]))
      have hanswer : turnAnswer E s = (parse E frame).toList.flatMap answerTo := by
        simp [turnAnswer, turnMessage, turnFrame, hout]
      rw [hanswer, drainTurn, hout]
      refine ⟨⟨stage, ⟨hreading, hpossible⟩, hframe⟩, fun hgo hmem => ?_⟩
      have hclosed : (handleFrame E frame (advanced E s)).state = .closed := hframe.left hmem
      have hlive : (handleFrame E frame (advanced E s)).state.terminal = false := by
        simpa [advanced] using hgo
      rw [hclosed] at hlive
      cases hlive

/-! ## Events -/

/-- Outgoing, in a possible stage. -/
def InSession (E : Environment σ) (hooked serving : σ → Prop) (options : ConnectionOptions)
    (answers : List UInt32) (s : Connection σ) : Prop :=
  ∃ stage, Possible E stage ∧ Outgoing E hooked serving options stage answers s

theorem Ordered.unopened (h : Ordered E hooked serving options stage answers s)
    (hopened : stage.opened = false) : answers = [] := by
  rw [← h.answered, (h.before hopened).1, List.filter_nil]

theorem outgoing_start (hK : Staged E.helper hooked serving) (hsends : NoSends E)
    (host : CString) (port : UInt16) (onDone : HandlerId)
    (h : Outgoing E hooked serving options {} answers s) :
    Outgoing E hooked serving options ⟨false, 1, false⟩ answers (start E host port onDone s) := by
  have houtgoing : KeptByActs E (Outgoing E hooked serving options {} answers)
      (Leaving E hooked serving options {} answers) := keptByActs_outgoing hK hsends
  have hacts := houtgoing.and (keptByActs_log (E := E) .started)
  have hanswers := h.unopened rfl
  refine hacts.start (K := Outgoing E hooked serving options ⟨false, 1, false⟩ answers)
    host port onDone ?_ ?_ ?_
  · have hsame : Ordered E hooked serving options {} answers
        { s with connectHandler := some onDone, lastError := none } :=
      h.toOrdered.congr rfl rfl rfl rfl rfl rfl rfl
    exact ⟨{ hsame.emit rfl rfl with left := h.left }, by simp [emit]⟩
  · rintro t ⟨ht, hstarted⟩
    have hassign : Ordered E hooked serving options {} answers (assign .connecting t) := by
      refine ht.toOrdered.assign (fun hended => by cases hended) (fun _ => rfl) ?_
      rw [(ht.before rfl).1]
      exact fun hmem => by cases hmem
    exact ⟨{ hassign with left := fun hmem => by rw [hanswers] at hmem; cases hmem },
      List.mem_append_left _ hstarted⟩
  · rintro t hstate ⟨ht, hstarted⟩
    have hconnect : Ordered E hooked serving options ⟨false, 1, false⟩ answers { t with transport :=
        { t.transport with connects := t.transport.connects + 1, closed := false } } :=
      { ht with
        closed := fun hended => by rw [hstate] at hended; cases hended
        reading := ht.reading
        connects := congrArg (· + 1) ht.connects
        started := fun hnone => absurd hstarted hnone
        hooked := fun hread => by cases hread
        before := ht.before
        opened := fun hopened => by cases hopened }
    exact { hconnect.emit rfl rfl with left := fun hmem => by rw [hanswers] at hmem; cases hmem }

/-- Bytes are delivered from now on, to a helper that is ready for them. -/
theorem Ordered.startRead (h : Ordered E hooked serving options ⟨false, 1, false⟩ answers s) {f : σ}
    (hhooked : hooked f) (hserving : serving f ↔ serving s.frameHelper) :
    Ordered E hooked serving options ⟨true, 0, false⟩ answers
      { startRead (takeConnect s) with frameHelper := f } := by
  have hstarted : .started ∈ s.log := by
    by_contra hnone
    cases h.started hnone
  have htaken : Ordered E hooked serving options ⟨true, 0, false⟩ answers
      { s with
        frameHelper := f
        transport := { s.transport with connects := s.transport.connects - 1, reading := true } } :=
    { h with
      reading := rfl
      connects := by
        show s.transport.connects - 1 = 0
        rw [h.connects]
        rfl
      started := fun hnone => absurd hstarted hnone
      hooked := fun _ => hhooked
      before := fun hopened => ⟨(h.before hopened).1, (h.before hopened).2.1, fun hneeds hnow =>
        (h.before hopened).2.2 hneeds (hserving.mp hnow)⟩
      opened := nofun }
  exact htaken.emit (o := .startRead) rfl rfl

/-- A connect completes, for the first and last time. -/
theorem inSession_connected (hK : Staged E.helper hooked serving) (hsends : NoSends E)
    (hpossible : Possible E stage) (hconnects : s.transport.connects ≠ 0)
    (h : Outgoing E hooked serving options stage answers s) :
    InSession E hooked serving options answers (onConnectedTransport E none (takeConnect s)) := by
  obtain ⟨reading, connects, opened⟩ := stage
  have hsome : connects ≠ 0 := fun hzero => hconnects (h.connects.trans hzero)
  obtain rfl : opened = false := by
    by_contra hopened
    exact hsome (hpossible.opened (Bool.not_eq_false _ ▸ hopened))
  obtain rfl : reading = false := by
    by_contra hreading
    exact hsome (hpossible.reading (Bool.not_eq_false _ ▸ hreading))
  obtain rfl : connects = 1 := by
    have hle : connects ≤ 1 := hpossible.connects
    omega
  have hstarted : .started ∈ s.log := by
    by_contra hnone
    cases h.started hnone
  have hanswers := h.unopened rfl
  unfold onConnectedTransport
  dsimp only
  split
  · next hneeds =>
      have hhooks := hK.hooks s.frameHelper
      have hread := h.toOrdered.startRead hhooks.1 hhooks.2
      refine ⟨⟨true, 0, false⟩, ⟨by decide, nofun, fun _ => rfl, ?_⟩, ?_⟩
      · intro hplain
        rw [hplain] at hneeds
        cases hneeds
      · split
        · exact { hread with left := by rw [hanswers]; exact nofun }
        · exact { hread.emit rfl rfl with left := by rw [hanswers]; exact nofun }
  · next hneeds =>
      have hplain := hK.plain (Bool.eq_false_iff.mpr hneeds) s.frameHelper
      have hread := h.toOrdered.startRead hplain.1 Iff.rfl
      refine ⟨⟨true, 0, true⟩, ⟨by decide, fun _ => rfl, fun _ => rfl, nofun⟩, ?_⟩
      exact outgoing_onReady hK hsends hread (List.mem_append_left _ hstarted)
        (fun _ => hplain.1) hplain.2

/-- `start` is called once, and the application sends nothing. -/
def OneStart (s : Connection σ) : Event → Prop
  | .start _ _ _ => .started ∉ s.log
  | .call (.sendRaw _ _) => False
  | _ => True

/-- Any event but bytes. -/
theorem inSession_step (hK : Staged E.helper hooked serving) (hsends : NoSends E) (e : Event)
    (he : OneStart s e) (hbytes : ∀ data, e ≠ .bytes data)
    (h : InSession E hooked serving options answers s) :
    InSession E hooked serving options answers (step E s e) := by
  have hacts : KeptByActs E (InSession E hooked serving options answers)
      fun s => ∃ stage, Possible E stage ∧ Leaving E hooked serving options stage answers s :=
    .exists fun _ => keptByActs_outgoing hK hsends
  refine hacts.step e h ?_ ?_ ?_ ?_ (fun data heq => absurd heq (hbytes data)) ?_
  · rintro host port onDone rfl
    obtain ⟨stage, -, hs⟩ := h
    obtain rfl := hs.started he
    exact ⟨⟨false, 1, false⟩, ⟨by decide, nofun, nofun, fun _ _ => rfl⟩,
      outgoing_start hK hsends host port onDone hs⟩
  · obtain ⟨stage, hpossible, hs⟩ := h
    refine ⟨{ stage with connects := stage.connects - 1 }, ?_, ?_⟩
    · exact {
        connects := (Nat.sub_le _ _).trans hpossible.connects
        opened := fun hopened => by simp [hpossible.opened hopened]
        reading := fun hreading => by simp [hpossible.reading hreading]
        plain := hpossible.plain }
    · exact { hs with
        connects := congrArg (· - 1) hs.connects
        started := fun hnone => by rw [hs.started hnone]; rfl }
  · obtain ⟨stage, hpossible, hs⟩ := h
    refine ⟨{ stage with reading := false }, ?_, ?_⟩
    · exact { hpossible with reading := nofun, plain := fun _ _ => rfl }
    · exact { hs with
        reading := rfl
        started := fun hnone => by rw [hs.started hnone]
        hooked := nofun }
  · intro _ hconnects
    obtain ⟨stage, hpossible, hs⟩ := h
    exact inSession_connected hK hsends hpossible hconnects hs
  · rintro call rfl _
    obtain ⟨stage, hpossible, hs⟩ := h
    have hcall : ∀ type payload, call ≠ .sendRaw type payload := by
      rintro type payload rfl
      exact he
    exact ⟨stage, hpossible, { ordered_perform hcall hs.toOrdered with
      left := fun hleft => (perform_id_state call s).trans (hs.left hleft) }⟩

/-- Between events. -/
structure AtRest (E : Environment σ) (hooked serving : σ → Prop) (options : ConnectionOptions)
    (answers : List UInt32) (s : Connection σ) : Prop where
  session : InSession E hooked serving options answers s
  closed : s.transport.closed = true → s.transport.reading = false
  once : answers.count MessageId.disconnectResponse ≤ 1

theorem atRest_silence (h : InSession E hooked serving options answers s)
    (honce : answers.count MessageId.disconnectResponse ≤ 1) :
    AtRest E hooked serving options answers (silence s) := by
  rcases silence_cases s with ⟨hopen, heq⟩ | ⟨-, heq⟩
  · rw [heq]
    exact ⟨h, fun hclosed => absurd (hclosed.symm.trans hopen) nofun, honce⟩
  · rw [heq]
    obtain ⟨stage, hpossible, hs⟩ := h
    refine ⟨⟨{ stage with connects := 0, reading := false }, ?_, ?_⟩, fun _ => rfl, honce⟩
    · exact ⟨Nat.zero_le _, fun _ => rfl, nofun, fun _ _ => rfl⟩
    · exact { hs with
        reading := rfl
        connects := rfl
        started := fun hnone => by rw [hs.started hnone]
        hooked := nofun }

theorem turnAnswer_length (s : Connection σ) : (turnAnswer E s).length ≤ 1 := by
  unfold turnAnswer answerTo
  cases turnMessage E s with
  | none => simp
  | some msg => cases hanswer : answer msg <;> simp [hanswer]

/-- The answers of the turns of an event. -/
def turnAnswers (E : Environment σ) (turns : List (Connection σ)) : List UInt32 :=
  turns.flatMap (turnAnswer E)

/-- A helper that is not serving yet has let nothing through. -/
def Guarding (serving : σ → Prop) (s : Connection σ) : Prop :=
  ¬ serving s.frameHelper → s.written = []

theorem Ordered.guarding (h : Ordered E hooked serving options stage answers s) :
    Guarding serving s := by
  intro hserving
  cases hopened : stage.opened with
  | true => exact absurd (h.opened hopened).2 hserving
  | false => exact (h.before hopened).1

/-- A chunk of bytes. -/
theorem atRest_bytes (hK : Staged E.helper hooked serving) (hsends : NoSends E) (data : Bytes)
    (hreading : s.transport.reading = true) (h : AtRest E hooked serving options answers s) :
    (Turning E hooked serving options (answers ++ turnAnswers E (turnsOf E s (.bytes data)))
        (onBytes E data s) ∧
      (answers ++ turnAnswers E (turnsOf E s (.bytes data))).count
        MessageId.disconnectResponse ≤ 1) ∧
      ∀ t ∈ turnsOf E s (.bytes data), Guarding serving t := by
  have hnone : ∀ {l : List UInt32}, MessageId.disconnectResponse ∉ l →
      l.count MessageId.disconnectResponse ≤ 1 := fun hl => by simp [List.count_eq_zero.mpr hl]
  refine onBytes_with_turns
    (J := fun before t => Turning E hooked serving options (answers ++ turnAnswers E before) t ∧
      MessageId.disconnectResponse ∉ answers ++ turnAnswers E before ∧
      ∀ u ∈ before, Guarding serving u)
    (I := fun before t => (Turning E hooked serving options (answers ++ turnAnswers E before) t ∧
      (answers ++ turnAnswers E before).count MessageId.disconnectResponse ≤ 1) ∧
      ∀ u ∈ before, Guarding serving u)
    (p := fun _ => True)
    (fun before t ⟨ht, hleft, hguard⟩ => ⟨⟨ht, hnone hleft⟩, hguard⟩) ?_ hreading ?_
    fun _ _ => trivial
  · intro before t ⟨ht, hleft, hguard⟩ _
    obtain ⟨hnext, hgo⟩ := turning_drainTurn hK hsends hleft ht
    have hsplit : answers ++ turnAnswers E (before ++ [t]) =
        answers ++ turnAnswers E before ++ turnAnswer E t := by simp [turnAnswers]
    have hguard' : ∀ u ∈ before ++ [t], Guarding serving u := by
      intro u hu
      rcases List.mem_append.mp hu with hu | hu
      · exact hguard u hu
      · obtain ⟨stage, -, hout⟩ := ht
        exact List.mem_singleton.mp hu ▸ hout.guarding
    rw [hsplit]
    refine ⟨⟨⟨hnext, ?_⟩, hguard'⟩, fun hgoes => ⟨hnext, hgo hgoes, hguard'⟩⟩
    rw [List.count_append, List.count_eq_zero.mpr hleft, Nat.zero_add]
    exact List.count_le_length.trans (turnAnswer_length t)
  · obtain ⟨stage, hpossible, hs⟩ := h.session
    have hdelivers : stage.reading = true := hs.reading.symm.trans hreading
    refine ⟨⟨stage, ⟨hdelivers, hpossible⟩, ?_⟩, ?_, by simp⟩
    · rw [turnAnswers, List.flatMap_nil, List.append_nil]
      exact hs.helper (fun _ => hK.lasting.feed _ _ (hs.hooked hdelivers)) (hK.feed _ _)
    · rw [turnAnswers, List.flatMap_nil, List.append_nil]
      intro hmem
      have hstate := hs.left hmem
      have hclosed := h.closed (hs.closed (by rw [hstate]; rfl))
      exact absurd (hclosed.symm.trans hreading) nofun

/-- One event, with a transport that delivers nothing after `close`. -/
theorem atRest_step (hK : Staged E.helper hooked serving) (hsends : NoSends E) (e : Event)
    (he : OneStart s e) (h : AtRest E hooked serving options answers s) :
    AtRest E hooked serving options (answers ++ turnAnswers E (turnsOf E s e))
        (stepClosing E s e) ∧
      ∀ t ∈ turnsOf E s e, Guarding serving t := by
  by_cases hbytes : ∃ data, e = .bytes data ∧ s.transport.reading = true
  · obtain ⟨data, rfl, hreading⟩ := hbytes
    obtain ⟨⟨⟨stage, ⟨-, hpossible⟩, hs⟩, honce⟩, hguard⟩ := atRest_bytes hK hsends data hreading h
    have hstep : step E s (.bytes data) = onBytes E data s := if_pos hreading
    refine ⟨atRest_silence ⟨stage, hpossible, ?_⟩ honce, hguard⟩
    rw [hstep]
    exact hs
  · have hturns : turnsOf E s e = [] := by
      cases e with
      | bytes data => exact if_neg fun hreading => hbytes ⟨data, rfl, hreading⟩
      | _ => rfl
    rw [hturns, turnAnswers, List.flatMap_nil, List.append_nil]
    refine ⟨atRest_silence ?_ h.once, by simp⟩
    cases e with
    | bytes data =>
        have hstep : step E s (.bytes data) = s :=
          if_neg fun hreading => hbytes ⟨data, rfl, hreading⟩
        rw [hstep]
        exact h.session
    | _ => exact inSession_step hK hsends _ he nofun h.session

/-! ## Runs -/

/-- A connection with the turns that its read handler has taken. -/
structure Chronicle (σ : Type) where
  connection : Connection σ
  turns : List (Connection σ) := []

namespace Chronicle

/-- One event, with a transport that delivers nothing after `close`. -/
def step (E : Environment σ) (c : Chronicle σ) (e : Event) : Chronicle σ where
  connection := stepClosing E c.connection e
  turns := c.turns ++ turnsOf E c.connection e

/-- The messages that `handle_internal` has processed. -/
def processed (E : Environment σ) (c : Chronicle σ) : List ProtoMessage :=
  c.turns.filterMap (turnMessage E)

end Chronicle

theorem turnAnswers_eq (turns : List (Connection σ)) :
    turnAnswers E turns = (turns.filterMap (turnMessage E)).filterMap answer := by
  induction turns with
  | nil => rfl
  | cons t turns ih =>
      rw [turnAnswers, List.flatMap_cons, List.filterMap_cons]
      cases hmsg : turnMessage E t with
      | none => simpa [turnAnswer, hmsg, turnAnswers] using ih
      | some msg =>
          cases hanswer : answer msg <;>
            simpa [turnAnswer, hmsg, answerTo, hanswer, turnAnswers] using ih

theorem Ordered.outgoingOrder (h : Ordered E hooked serving options stage answers s)
    (honce : answers.count MessageId.disconnectResponse ≤ 1) {processed : List ProtoMessage}
    (hanswers : answers = processed.filterMap answer) : OutgoingOrder options processed s.log where
  opening := by
    cases hopened : stage.opened with
    | true => exact Or.inr (h.opened hopened).1
    | false => exact Or.inl (h.before hopened).1
  pings := h.pings
  requests := h.requests
  responses := by
    have hfilter : (s.written.filter isAnswer).count MessageId.disconnectResponse =
        s.written.count MessageId.disconnectResponse := List.count_filter (by decide)
    rw [h.answered] at hfilter
    exact hfilter ▸ honce
  answers := h.answered.trans hanswers

/-- Every state of a run with one `start`. -/
theorem states_outgoingOrder (hK : Staged E.helper hooked serving) (hsends : NoSends E)
    {f : σ} (hbefore : E.helper.needsHandshake = true → ¬ serving f) {events : List Event}
    (hguard : Guarded (Chronicle.step E) (fun c => OneStart c.connection) ⟨create f options, []⟩
      events) :
    ∀ c ∈ states (Chronicle.step E) ⟨create f options, []⟩ events,
      OutgoingOrder options (c.processed E) c.connection.log ∧
        ∀ s ∈ c.turns ++ [c.connection], Guarding serving s := by
  have hstart : AtRest E hooked serving options (turnAnswers E []) (create f options) := by
    refine ⟨⟨{}, ⟨Nat.zero_le _, fun _ => rfl, fun _ => rfl, fun _ _ => rfl⟩, ?_⟩,
      fun h => absurd h Bool.false_ne_true, by simp [turnAnswers]⟩
    exact {
      configured := rfl
      told := rfl
      closed := fun h => absurd h Bool.false_ne_true
      reading := rfl
      connects := rfl
      started := fun _ => rfl
      hooked := fun h => absurd h Bool.false_ne_true
      before := fun _ => ⟨rfl, rfl, hbefore⟩
      opened := fun h => absurd h Bool.false_ne_true
      pings := by intro before o after hlog; simp [create] at hlog
      requests := Nat.zero_le _
      leaving := by simp [written, create]
      answered := rfl
      left := by simp [turnAnswers] }
  have hstep : ∀ (c : Chronicle σ) (e : Event),
      (AtRest E hooked serving options (turnAnswers E c.turns) c.connection ∧
        ∀ s ∈ c.turns, Guarding serving s) → OneStart c.connection e →
      AtRest E hooked serving options (turnAnswers E (c.step E e).turns) (c.step E e).connection ∧
        ∀ s ∈ (c.step E e).turns, Guarding serving s := by
    rintro c e ⟨hrest, hguarding⟩ he
    obtain ⟨hnext, hturns⟩ := atRest_step hK hsends e he hrest
    refine ⟨?_, fun s hs => (List.mem_append.mp hs).elim (hguarding s) (hturns s)⟩
    rwa [Chronicle.step, turnAnswers, List.flatMap_append]
  intro c hc
  obtain ⟨hrest, hguarding⟩ := states_of_guarded hstep ⟨hstart, by simp⟩ hguard c hc
  obtain ⟨stage, -, hs⟩ := hrest.session
  refine ⟨hs.toOrdered.outgoingOrder hrest.once (turnAnswers_eq c.turns), fun s hmem => ?_⟩
  rcases List.mem_append.mp hmem with hmem | hmem
  · exact hguarding s hmem
  · exact List.mem_singleton.mp hmem ▸ hs.guarding

end Connection

/-! ## The two helpers -/

theorem PlaintextFrameHelper.staged :
    Connection.Staged PlaintextFrameHelper.frameHelper (fun _ => True) fun _ => True where
  lasting := ⟨fun _ _ _ => id, fun _ _ => id, fun _ => id, fun _ => id⟩
  hooks _ := ⟨trivial, Iff.rfl⟩
  encode _ _ _ := Iff.rfl
  feed _ _ := Iff.rfl
  ready f hready := by
    have hout : (PlaintextFrameHelper.advance f).1 = .ready := hready
    unfold PlaintextFrameHelper.advance at hout
    split at hout <;> cases hout
  frame _ _ _ := trivial
  other _ _ _ := Iff.rfl
  plain _ _ := ⟨trivial, trivial⟩

namespace NoiseFrameHelper

open Noise

variable {P : Primitives}

theorem staged : Connection.Staged (frameHelper P) (fun f => f.handlers = true)
    fun f => f.state = .ready where
  lasting := by
    refine ⟨fun _ _ _ => id, fun _ _ => id, fun f h => ?_, fun _ _ => rfl⟩
    show (advance P f).2.handlers = true
    rcases advance_dispatched P f with ⟨out, -, heq⟩ | ⟨raw, out, consumed, hcases, heq⟩
    · rw [heq]
      exact h
    · rw [heq]
      cases hcases with
      | reported what t _ hhandlers _ => exact hhandlers.trans h
      | accepted message accepted t _ _ _ _ hhandlers _ _ => exact hhandlers.trans h
      | _ => exact h
  hooks _ := ⟨rfl, Iff.rfl⟩
  encode _ _ _ := Iff.rfl
  feed _ _ := Iff.rfl
  ready f hready := by
    have hout : (advance P f).1 = .ready := hready
    show ¬ f.state = .ready ∧ (advance P f).2.state = .ready
    rcases advance_dispatched P f with ⟨out, hout', heq⟩ | ⟨raw, out, consumed, hcases, heq⟩
    · rw [heq] at hout
      rcases hout' with rfl | ⟨e, rfl⟩ <;> cases hout
    · rw [heq] at hout ⊢
      cases hcases with
      | accepted message accepted t hstate _ _ hafter _ _ _ => exact ⟨by simp [hstate], hafter⟩
      | reported what t _ _ _ =>
          simp only [reportError] at hout
          split at hout <;> cases hout
      | _ => cases hout
  frame f frame hok := (ready_of_ok hok).1
  other f hhandlers hne := by
    have hout : (advance P f).1 ≠ .ready := hne
    show (advance P f).2.state = .ready ↔ f.state = .ready
    rcases advance_dispatched P f with ⟨out, -, heq⟩ | ⟨raw, out, consumed, hcases, heq⟩
    · rw [heq]
      exact Iff.rfl
    · rw [heq] at hout ⊢
      cases hcases with
      | reported what t hstate _ _ =>
          rcases hstate with hstate | hstate <;> simp [reportError, rebuffer, hstate]
      | greeted hello hstate _ _ => simp [rebuffer, hstate]
      | accepted message accepted t _ _ _ _ _ _ _ => exact absurd (if_pos hhandlers) hout
      | _ => exact Iff.rfl
  plain hneeds := nomatch hneeds

theorem create_state {config : NoiseConfig} {random : Octets 32} {f : NoiseFrameHelper}
    (h : create P config random = .ok f) : f.state = .expectServerHello := by
  unfold create at h
  split at h
  · exact nomatch h
  · split at h
    · cases h
      rfl
    · exact nomatch h

end NoiseFrameHelper

namespace Connection

open Noise

/-- In every run with one `start` and no sends of the application, over a
transport that completes the connect once and delivers nothing after `close`,
the messages are written in order; and a Noise helper lets none through before
its handshake is complete. -/
theorem outgoing_order :
    (∀ E : Environment PlaintextFrameHelper, E.helper = PlaintextFrameHelper.frameHelper →
      NoSends E → ∀ (f : PlaintextFrameHelper) (options : ConnectionOptions) (events : List Event),
        Guarded (Chronicle.step E) (fun c => OneStart c.connection) ⟨create f options, []⟩ events →
          ∀ c ∈ states (Chronicle.step E) ⟨create f options, []⟩ events,
            OutgoingOrder options (c.processed E) c.connection.log) ∧
    ∀ (P : Primitives) (config : NoiseConfig) (random : Octets 32) (f : NoiseFrameHelper),
      NoiseFrameHelper.create P config random = .ok f →
        ∀ E : Environment NoiseFrameHelper, E.helper = NoiseFrameHelper.frameHelper P →
          NoSends E → ∀ (options : ConnectionOptions) (events : List Event),
            Guarded (Chronicle.step E) (fun c => OneStart c.connection) ⟨create f options, []⟩
              events →
              ∀ c ∈ states (Chronicle.step E) ⟨create f options, []⟩ events,
                OutgoingOrder options (c.processed E) c.connection.log ∧
                  ∀ s ∈ c.turns ++ [c.connection], s.frameHelper.state ≠ .ready →
                    s.written = [] := by
  refine ⟨?_, ?_⟩
  · intro E hhelper hsends f options events hguard c hc
    have hbefore : E.helper.needsHandshake = true → ¬ True := by
      rw [hhelper]
      exact nofun
    exact (states_outgoingOrder (hhelper ▸ PlaintextFrameHelper.staged) hsends hbefore hguard
      c hc).1
  · intro P config random f hcreate E hhelper hsends options events hguard c hc
    have hbefore : E.helper.needsHandshake = true → ¬ f.state = .ready := by
      intro _
      rw [NoiseFrameHelper.create_state hcreate]
      exact nofun
    exact states_outgoingOrder (hhelper ▸ NoiseFrameHelper.staged) hsends hbefore hguard c hc

/-- A session with a ping each way, ended by `disconnect`. -/
def pingSession : List Event :=
  [.start (lit "device.local") 6053 7, .connectResult none, .bytes [0x00, 0x02, 0x02, 0x08, 0x01],
    .elapse 20000, .timer 2, .bytes [0x00, 0x00, 0x07], .call .disconnect, .writeDone]

theorem oneStart_pingSession {E : Environment σ} {f : σ} :
    Guarded (Chronicle.step E) (fun c => OneStart c.connection) ⟨create f {}, []⟩ pingSession :=
  ⟨by simp [OneStart, create], trivial, trivial, trivial, trivial, trivial, trivial, trivial,
    trivial⟩

/-- The session over plaintext, and over a Noise connection that is not greeted. -/
theorem outgoing_order_pingSession :
    (let c := run (Chronicle.step plaintextEnvironment) ⟨create {} {}, []⟩ pingSession
     c.connection.written = [1, 3, 7, 8, 5] ∧
       OutgoingOrder {} (c.processed plaintextEnvironment) c.connection.log) ∧
    ∃ f, NoiseFrameHelper.create .toy NoiseFrameHelper.zeroConfig (Octets.zero 32) = .ok f ∧
      (let c := run (Chronicle.step (.quiet (NoiseFrameHelper.frameHelper .toy) .core))
        ⟨create f {}, []⟩ pingSession
       c.connection.frameHelper.state ≠ .ready → c.connection.written = []) := by
  have hquiet : ∀ {σ : Type} (H : FrameHelper σ), NoSends (.quiet H .core) := by
    intro σ H call s c hc
    cases hc
  refine ⟨⟨by decide +kernel, ?_⟩, ?_⟩
  · exact outgoing_order.1 plaintextEnvironment rfl (hquiet _) {} {} pingSession
      oneStart_pingSession _ (run_mem_states _ _ _)
  · obtain ⟨f, hf⟩ : ∃ f, NoiseFrameHelper.create .toy NoiseFrameHelper.zeroConfig
        (Octets.zero 32) = .ok f := ⟨_, rfl⟩
    refine ⟨f, hf, ?_⟩
    have hrun := outgoing_order.2 _ _ _ f hf (.quiet (NoiseFrameHelper.frameHelper .toy) .core) rfl
      (hquiet _) {} pingSession oneStart_pingSession _ (run_mem_states _ _ _)
    exact hrun.2 _ (by simp)

end Connection

end EsphomeApi
