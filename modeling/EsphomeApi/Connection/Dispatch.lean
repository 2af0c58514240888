/-
EsphomeApi.Connection.Dispatch — frames that arrive at a plaintext connection
reach its handlers, each once and in order.

Off the bytes received so far the frame helper reads the frames that are
complete, whatever the cuts between chunks (`drainFrames_dispatch`, by
induction on the frames still to come); a frame that decodes reaches the raw
handler, the handler of its id and the any handler, and changes nothing that
the next frame depends on (`Delivered`). The first frame of a known id that
does not decode ends the session (`Rejected`), and a transport that delivers
nothing after `close` ends the run with it.
-/
import EsphomeApi.Connection.Completion

namespace EsphomeApi

open Proto Library

/-- The calls by which frames reach the application. -/
def Output.delivery : Output → Option Invocation
  | .invoked (.raw handler frame) => some (.raw handler frame)
  | .invoked (.message handler type msg) => some (.message handler type msg)
  | .invoked (.any handler msg) => some (.any handler msg)
  | _ => none

namespace Connection

variable {σ : Type} {E : Environment σ} {s t u : Connection σ}

/-- All calls of raw, message and any handlers so far, in order. -/
def deliveries (s : Connection σ) : List Invocation := s.log.filterMap Output.delivery

/-! ## What a frame is expected to do -/

def rawCalls (s : Connection σ) (frame : Frame) : List Invocation :=
  s.rawHandler.toList.map fun handler => .raw handler frame

def messageCalls (s : Connection σ) (type : UInt32) (msg : ProtoMessage) : List Invocation :=
  (s.handlers type).toList.map fun handler => .message handler type msg

def anyCalls (s : Connection σ) (msg : ProtoMessage) : List Invocation :=
  s.anyHandler.toList.map fun handler => .any handler msg

/-- The raw handler; then, for a message of a known id, the handler of its id
and the any handler. -/
def dispatchOf (E : Environment σ) (s : Connection σ) (frame : Frame) : List Invocation :=
  rawCalls s frame ++
    match parse E frame with
    | some msg => messageCalls s frame.type msg ++ anyCalls s msg
    | none => []

/-- The id is unknown, or the payload decodes. -/
def accepts (E : Environment σ) (frame : Frame) : Bool :=
  (E.registry.create frame.type).isNone || (parse E frame).isSome

/-- The frame is no `DisconnectRequest`, no `DisconnectResponse` and no
rejection of the password. -/
structure Benign (E : Environment σ) (frame : Frame) : Prop where
  request : parse E frame ≠ some .disconnectRequest
  response : parse E frame ≠ some .disconnectResponse
  password : ∀ v, parse E frame = some (.authenticationResponse v) → v.1 = false

/-! ## Steps of a session that goes on -/

/-- The session goes on as it was, and the calls have been made. -/
structure Delivered (calls : List Invocation) (s t : Connection σ) : Prop where
  state : t.state = s.state
  rawHandler : t.rawHandler = s.rawHandler
  handlers : t.handlers = s.handlers
  anyHandler : t.anyHandler = s.anyHandler
  transport : t.transport = s.transport
  deliveries : t.deliveries = s.deliveries ++ calls

theorem Delivered.refl (s : Connection σ) : Delivered [] s s :=
  ⟨rfl, rfl, rfl, rfl, rfl, (List.append_nil _).symm⟩

theorem Delivered.trans {calls calls' : List Invocation} (h : Delivered calls s t)
    (h' : Delivered calls' t u) : Delivered (calls ++ calls') s u :=
  ⟨h'.state.trans h.state, h'.rawHandler.trans h.rawHandler, h'.handlers.trans h.handlers,
    h'.anyHandler.trans h.anyHandler, h'.transport.trans h.transport,
    by rw [h'.deliveries, h.deliveries, List.append_assoc]⟩

theorem deliveries_emit (o : Output) (s : Connection σ) :
    (emit o s).deliveries = s.deliveries ++ o.delivery.toList := by
  rw [deliveries, emit, List.filterMap_append, deliveries]
  cases hdelivery : o.delivery <;> simp [hdelivery]

theorem delivered_emit (o : Output) (s : Connection σ) :
    Delivered o.delivery.toList s (emit o s) :=
  ⟨rfl, rfl, rfl, rfl, rfl, deliveries_emit o s⟩

/-- The frame helper is not part of it. -/
theorem delivered_helper (f : σ) (s : Connection σ) : Delivered [] s { s with frameHelper := f } :=
  ⟨rfl, rfl, rfl, rfl, rfl, (List.append_nil _).symm⟩

theorem Delivered.dispatchOf {calls : List Invocation} (h : Delivered calls s t) (frame : Frame) :
    Connection.dispatchOf E t frame = Connection.dispatchOf E s frame := by
  unfold Connection.dispatchOf rawCalls messageCalls anyCalls
  rw [h.rawHandler, h.handlers, h.anyHandler]

/-! ## One frame -/

section

variable (hcalls : ∀ call (s : Connection σ), E.calls call s = [])

include hcalls

theorem invoke_eq (call : Invocation) (s : Connection σ) :
    invoke E call s = emit (.invoked call) s := by
  unfold invoke invokeWith
  dsimp only
  rw [hcalls]
  rfl

theorem delivered_invoke (call : Invocation) (s : Connection σ) :
    Delivered (Output.invoked call).delivery.toList s (invoke E call s) := by
  rw [invoke_eq hcalls]
  exact delivered_emit _ s

theorem delivered_invokeRaw (frame : Frame) (s : Connection σ) :
    Delivered (rawCalls s frame) s (invokeRaw E frame s) := by
  unfold invokeRaw rawCalls
  cases hhandler : s.rawHandler with
  | none => exact Delivered.refl s
  | some handler => exact delivered_invoke hcalls (.raw handler frame) s

theorem delivered_invokeAny (msg : ProtoMessage) (s : Connection σ) :
    Delivered (anyCalls s msg) s (invokeAny E msg s) := by
  unfold invokeAny anyCalls
  cases hhandler : s.anyHandler with
  | none => exact Delivered.refl s
  | some handler => exact delivered_invoke hcalls (.any handler msg) s

theorem delivered_invokeMessage {type : UInt32} (htype : (E.registry.create type).isSome)
    (msg : ProtoMessage) (s : Connection σ) :
    Delivered (messageCalls s type msg) s (invokeMessage E type msg s) := by
  unfold invokeMessage messageCalls
  rw [if_pos (E.registry.create_le htype)]
  cases hhandler : s.handlers type with
  | none => exact Delivered.refl s
  | some handler => exact delivered_invoke hcalls (.message handler type msg) s

omit hcalls in
/-- In `Connected` the connection only answers pings. -/
theorem delivered_handleInternal {msg : ProtoMessage} (hs : s.state = .connected)
    (hrequest : msg ≠ .disconnectRequest) (hresponse : msg ≠ .disconnectResponse)
    (hpassword : ∀ v, msg = .authenticationResponse v → v.1 = false) :
    Delivered [] s (handleInternal E msg s) := by
  cases msg with
  | helloResponse v =>
      have hsame : handleInternal E (.helloResponse v) s = s :=
        if_pos (by rw [hs]; exact nofun)
      rw [hsame]
      exact Delivered.refl s
  | authenticationResponse v =>
      have hsame : handleInternal E (.authenticationResponse v) s = s :=
        if_neg (by rw [hpassword v rfl]; exact nofun)
      rw [hsame]
      exact Delivered.refl s
  | disconnectRequest => exact absurd rfl hrequest
  | disconnectResponse => exact absurd rfl hresponse
  | pingRequest => exact (delivered_helper _ s).trans (delivered_emit (.write _ _ _) _)
  | pingResponse =>
      show Delivered [] s (handlePingResponse E s)
      unfold handlePingResponse cancelPongTimer cancel
      split
      · exact ⟨rfl, rfl, rfl, rfl, rfl, (List.append_nil _).symm⟩
      · split <;> exact ⟨rfl, rfl, rfl, rfl, rfl, (List.append_nil _).symm⟩
  | helloRequest v => exact Delivered.refl s
  | authenticationRequest v => exact Delivered.refl s
  | other type fields v => exact Delivered.refl s

/-- A frame that is accepted makes its calls, and the session goes on. -/
theorem delivered_handleFrame {frame : Frame} (hs : s.state = .connected)
    (hbenign : Benign E frame) (haccepts : accepts E frame = true) :
    Delivered (dispatchOf E s frame) s (handleFrame E frame s) := by
  have hraw := delivered_invokeRaw hcalls frame s
  unfold handleFrame dispatchOf
  cases hcreate : E.registry.create frame.type with
  | none =>
      have hparse : parse E frame = none := by
        rw [parse, hcreate]
        rfl
      rw [hparse, List.append_nil]
      exact hraw
  | some create =>
      have hparse : parse E frame = create frame.payload := by
        rw [parse, hcreate]
        rfl
      rw [accepts, hcreate, hparse] at haccepts
      obtain ⟨msg, hmsg⟩ := Option.isSome_iff_exists.mp haccepts
      rw [hmsg] at hparse
      rw [hparse]
      simp only [hmsg]
      have hinternal : Delivered [] (invokeRaw E frame s)
          (handleInternal E msg (invokeRaw E frame s)) :=
        delivered_handleInternal (hraw.state.trans hs) (fun heq => hbenign.request (heq ▸ hparse))
          (fun heq => hbenign.response (heq ▸ hparse))
          (fun v heq => hbenign.password v (heq ▸ hparse))
      have hlive : ¬ (handleInternal E msg (invokeRaw E frame s)).state.terminal = true := by
        rw [hinternal.state, hraw.state, hs]
        exact Bool.false_ne_true
      have hknown : (E.registry.create frame.type).isSome := by
        rw [hcreate]
        rfl
      have hmessage := delivered_invokeMessage hcalls hknown msg
        (handleInternal E msg (invokeRaw E frame s))
      have hany := delivered_invokeAny hcalls msg
        (invokeMessage E frame.type msg (handleInternal E msg (invokeRaw E frame s)))
      unfold handleMessage
      dsimp only
      rw [if_neg hlive]
      have hall := ((hraw.trans hinternal).trans hmessage).trans hany
      unfold messageCalls anyCalls at hall
      rw [hmessage.anyHandler, hinternal.anyHandler, hinternal.handlers, hraw.anyHandler,
        hraw.handlers, List.append_nil, List.append_assoc] at hall
      exact hall

/-- The session has failed, with the transport closed, and the calls have been
made. -/
structure Rejected (calls : List Invocation) (s t : Connection σ) : Prop where
  state : t.state = .failed
  closed : t.transport.closed = true
  deliveries : t.deliveries = s.deliveries ++ calls

omit hcalls in
theorem Delivered.rejected {calls calls' : List Invocation} (h : Delivered calls s t)
    (h' : Rejected calls' t u) : Rejected (calls ++ calls') s u :=
  ⟨h'.state, h'.closed, by rw [h'.deliveries, h.deliveries, List.append_assoc]⟩

theorem delivered_setState {state : ConnectionState} (hne : state ≠ s.state) :
    Delivered [] { s with state := state } (setState E state s) := by
  have hemit : Delivered [] { s with state := state }
      (emit (.state state) { s with state := state }) := delivered_emit (.state state) _
  unfold setState setStateWith
  rw [if_neg hne]
  dsimp only
  split
  · next handler _ => exact hemit.trans (delivered_invoke hcalls (.state handler state) _)
  · exact hemit

theorem delivered_finishConnect (ec : Option ErrorCode) (s : Connection σ) :
    Delivered [] s (finishConnect E ec s) := by
  unfold finishConnect
  cases hhandler : s.connectHandler with
  | none => exact Delivered.refl s
  | some handler =>
      have hnone : Delivered [] s { s with connectHandler := none } :=
        ⟨rfl, rfl, rfl, rfl, rfl, (List.append_nil _).symm⟩
      exact hnone.trans (delivered_invoke hcalls (.done handler ec) _)

/-- A failure in `Connected` is reported, and delivers nothing. -/
theorem rejected_fail (ec : ErrorCode) (what : CString) (hs : s.state = .connected) :
    Rejected [] s (fail E ec what s) := by
  have hquiet := (untouched_stopKeepalive (E := E) s).trans
    (untouched_cancelConnectTimer (E := E) _)
  have hne : ConnectionState.failed ≠
      (closeTransport (cancelConnectTimer E (stopKeepalive E s))).state := by
    rw [closeTransport_state, hquiet.state, hs]
    exact nofun
  have hset := delivered_setState hcalls hne
  have hrejected : Rejected [] s
      (setState E .failed (closeTransport (cancelConnectTimer E (stopKeepalive E s)))) := by
    refine ⟨hset.state, by rw [hset.transport]; rfl, ?_⟩
    rw [hset.deliveries, List.append_nil, List.append_nil]
    show (closeTransport (cancelConnectTimer E (stopKeepalive E s))).deliveries = s.deliveries
    rw [closeTransport, deliveries_emit]
    show List.filterMap _ _ ++ [] = List.filterMap _ _
    rw [List.append_nil, hquiet.log]
  have hend : ∀ t : Connection σ, Delivered [] (setState E .failed
      (closeTransport (cancelConnectTimer E (stopKeepalive E s)))) t → Rejected [] s t := by
    intro t ht
    exact ⟨ht.state.trans hrejected.state, by rw [ht.transport]; exact hrejected.closed,
      by rw [ht.deliveries, hrejected.deliveries, List.append_nil]⟩
  unfold fail
  rw [if_neg (by rw [hs]; exact nofun)]
  dsimp only
  split
  · exact hend _ (delivered_finishConnect hcalls _ _)
  · split
    · next handler _ => exact hend _ (delivered_invoke hcalls (.error handler ec what) _)
    · exact hrejected

/-- The first frame that is not accepted reaches the raw handler only, and
ends the session. -/
theorem rejected_handleFrame {frame : Frame} (hs : s.state = .connected)
    (haccepts : accepts E frame = false) :
    Rejected (rawCalls s frame) s (handleFrame E frame s) := by
  have hraw := delivered_invokeRaw hcalls frame s
  unfold handleFrame
  cases hcreate : E.registry.create frame.type with
  | none =>
      rw [accepts, hcreate] at haccepts
      exact nomatch haccepts
  | some create =>
      have hparse : create frame.payload = none := by
        rw [accepts, parse, hcreate] at haccepts
        exact Option.not_isSome_iff_eq_none.mp (Bool.eq_false_iff.mp haccepts)
      simp only [hparse]
      have hall := hraw.rejected (rejected_fail hcalls .protocolError
        (lit "failed to parse message payload") (hraw.state.trans hs))
      rw [List.append_nil] at hall
      exact hall

end

/-! ## A chunk -/

open PlaintextFrameHelper (parseFrame Encodable parseFrame_encode frameDecoder)

/-- The frames in plaintext framing, one after another. -/
def encodeAll (frames : List Frame) : Bytes :=
  frames.flatMap fun frame => PlaintextFrameHelper.encode frame.type frame.payload []

section

variable {E : Environment PlaintextFrameHelper} {s t : Connection PlaintextFrameHelper}
  (hhelper : E.helper = PlaintextFrameHelper.frameHelper)

include hhelper

theorem Move.plaintext {ok : ConnectionState → Prop} (h : Move E ok s t) :
    t.frameHelper = s.frameHelper := by
  cases h with
  | update h => exact h.frameHelper
  | write writer type payload s =>
      unfold sendRaw
      rw [hhelper]
      rfl
  | _ => rfl

/-- Sending does not touch the frame helper. -/
theorem Moves.plaintext {ok : ConnectionState → Prop} (h : Moves E ok s t) :
    t.frameHelper = s.frameHelper := by
  induction h with
  | refl => rfl
  | tail _ hmove ih => exact (hmove.plaintext hhelper).trans ih

/-- With no complete frame the loop waits. -/
theorem drainFrames_needMore (hparse : parseFrame s.frameHelper.unconsumed = .needMore) :
    drainFrames E s =
      { s with frameHelper := { buffer := s.frameHelper.unconsumed, consumed := 0 } } := by
  have hadvance : E.helper.advance s.frameHelper =
      (.needMore, { buffer := s.frameHelper.unconsumed, consumed := 0 }) := by
    rw [hhelper]
    exact PlaintextFrameHelper.advance_needMore hparse
  have hturn : drainTurn E s =
      ({ s with frameHelper := { buffer := s.frameHelper.unconsumed, consumed := 0 } }, false) := by
    unfold drainTurn
    rw [hadvance]
  rw [drainFrames_eq, hturn]
  rfl

/-- A complete frame is handled, and the loop goes on behind it. -/
theorem drainFrames_item {frame : Frame} {rest : Bytes}
    (hparse : parseFrame s.frameHelper.unconsumed = .item frame () rest) :
    ∃ h : PlaintextFrameHelper, h.unconsumed = rest ∧
      drainFrames E s = if (handleFrame E frame { s with frameHelper := h }).state.terminal then
          handleFrame E frame { s with frameHelper := h }
        else drainFrames E (handleFrame E frame { s with frameHelper := h }) := by
  obtain ⟨hadvance, hrest⟩ := PlaintextFrameHelper.advance_item hparse
  have hadvance' : (E.helper.advance s.frameHelper).1 = .ok frame := by
    rw [hhelper]
    exact hadvance
  have hturn : drainTurn E s =
      (handleFrame E frame { s with frameHelper := (E.helper.advance s.frameHelper).2 },
        !(handleFrame E frame
          { s with frameHelper := (E.helper.advance s.frameHelper).2 }).state.terminal) := by
    unfold drainTurn
    dsimp only
    rw [hadvance']
  refine ⟨(E.helper.advance s.frameHelper).2, ?_, ?_⟩
  · rw [hhelper]
    exact hrest
  · rw [drainFrames_eq, hturn]
    dsimp only
    cases (handleFrame E frame
      { s with frameHelper := (E.helper.advance s.frameHelper).2 }).state.terminal <;> rfl

end

/-- The frames are in the bytes not consumed yet and the bytes still to come,
and the first of them is not complete. -/
structure Waiting (frames : List Frame) (later : Bytes) (s : Connection PlaintextFrameHelper) :
    Prop where
  consumed : s.frameHelper.consumed ≤ s.frameHelper.buffer.length
  needMore : parseFrame s.frameHelper.unconsumed = .needMore
  bytes : s.frameHelper.unconsumed ++ later = encodeAll frames

/-- What a connection has done with the frames, when `later` are the bytes
still to come: it waits for the rest of them, or one has been rejected. -/
def Drained (E : Environment PlaintextFrameHelper) (frames : List Frame) (later : Bytes)
    (s t : Connection PlaintextFrameHelper) : Prop :=
  (∃ done rest, frames = done ++ rest ∧ (∀ frame ∈ done, accepts E frame = true) ∧
    Delivered (done.flatMap (dispatchOf E s)) s t ∧ Waiting rest later t) ∨
  ∃ done bad rest, frames = done ++ bad :: rest ∧ (∀ frame ∈ done, accepts E frame = true) ∧
    accepts E bad = false ∧ Rejected (done.flatMap (dispatchOf E s) ++ rawCalls s bad) s t

/-- Frames that have been delivered come before those of what follows. -/
theorem Drained.append {E : Environment PlaintextFrameHelper} {past frames : List Frame}
    {later : Bytes} {s t u : Connection PlaintextFrameHelper}
    (hpast : ∀ frame ∈ past, accepts E frame = true)
    (h : Delivered (past.flatMap (dispatchOf E s)) s t) (hu : Drained E frames later t u) :
    Drained E (past ++ frames) later s u := by
  have hdispatch : ∀ done : List Frame,
      done.flatMap (dispatchOf E t) = done.flatMap (dispatchOf E s) := by
    intro done
    exact List.flatMap_congr fun frame _ => h.dispatchOf frame
  have hall : ∀ done : List Frame, (∀ frame ∈ done, accepts E frame = true) →
      ∀ frame ∈ past ++ done, accepts E frame = true := by
    intro done hdone frame hframe
    rcases List.mem_append.mp hframe with hframe | hframe
    · exact hpast frame hframe
    · exact hdone frame hframe
  rcases hu with ⟨done, rest, rfl, hdone, hdelivered, hwaiting⟩ |
    ⟨done, bad, rest, rfl, hdone, hbad, hrejected⟩
  · refine .inl ⟨past ++ done, rest, (List.append_assoc ..).symm, hall done hdone, ?_, hwaiting⟩
    rw [List.flatMap_append, ← hdispatch done]
    exact h.trans hdelivered
  · refine .inr ⟨past ++ done, bad, rest, (List.append_assoc ..).symm, hall done hdone, hbad, ?_⟩
    have hraw : rawCalls s bad = rawCalls t bad := by
      rw [rawCalls, rawCalls, h.rawHandler]
    rw [List.flatMap_append, ← hdispatch done, List.append_assoc, hraw]
    exact h.rejected hrejected

section

variable {E : Environment PlaintextFrameHelper} {s t : Connection PlaintextFrameHelper}
  (hhelper : E.helper = PlaintextFrameHelper.frameHelper)
  (hcalls : ∀ call (s : Connection PlaintextFrameHelper), E.calls call s = [])

include hhelper

theorem drained_needMore {frames : List Frame} {later : Bytes}
    (hparse : parseFrame s.frameHelper.unconsumed = .needMore)
    (hbytes : s.frameHelper.unconsumed ++ later = encodeAll frames) :
    Drained E frames later s (drainFrames E s) := by
  rw [drainFrames_needMore hhelper hparse]
  exact .inl ⟨[], frames, rfl, nofun, delivered_helper _ s, Nat.zero_le _, hparse, hbytes⟩

include hcalls

/-- The loop of `drain_frames` dispatches the frames that are complete. -/
theorem drainFrames_dispatch (later : Bytes) : ∀ (frames : List Frame)
    (s : Connection PlaintextFrameHelper), s.state = .connected →
    (∀ frame ∈ frames, Encodable frame ∧ Benign E frame) →
    s.frameHelper.unconsumed ++ later = encodeAll frames →
    Drained E frames later s (drainFrames E s)
  | [], s, _, _, hbytes => by
      refine drained_needMore hhelper ?_ hbytes
      rw [(List.append_eq_nil_iff.mp hbytes).1]
      rfl
  | frame :: frames, s, hs, hframes, hbytes => by
      obtain ⟨hencodable, hbenign⟩ := hframes frame (List.mem_cons_self ..)
      have hfirst : parseFrame (s.frameHelper.unconsumed ++ later) =
          .item frame () (encodeAll frames) := by
        rw [hbytes]
        exact parseFrame_encode hencodable (encodeAll frames)
      rcases frameDecoder.step_of_append (t := ()) hfirst with hmore | ⟨rest, hitem, hrest⟩
      · exact drained_needMore hhelper hmore hbytes
      · obtain ⟨h, hunconsumed, hdrain⟩ := drainFrames_item hhelper hitem
        rw [hdrain]
        cases haccepts : accepts E frame with
        | true =>
            have hdelivered := (delivered_helper h s).trans
              (delivered_handleFrame hcalls (s := { s with frameHelper := h }) hs hbenign haccepts)
            have hstate := hdelivered.state.trans hs
            have hplaintext : (handleFrame E frame { s with frameHelper := h }).frameHelper = h :=
              (anyMoves_handleFrame frame _).plaintext hhelper
            rw [if_neg (by rw [hstate]; exact nofun)]
            have hrest' := drainFrames_dispatch later frames _ hstate
              (fun f hf => hframes f (List.mem_cons_of_mem _ hf))
              (by rw [hplaintext, hunconsumed, hrest])
            have hone : ∀ f ∈ [frame], accepts E f = true := by
              intro f hf
              rw [List.mem_singleton.mp hf]
              exact haccepts
            refine Drained.append hone ?_ hrest'
            rw [List.flatMap_singleton]
            exact hdelivered
        | false =>
            have hrejected := (delivered_helper h s).rejected
              (rejected_handleFrame hcalls (s := { s with frameHelper := h }) hs haccepts)
            rw [if_pos (by rw [hrejected.state]; rfl)]
            exact .inr ⟨[], frame, frames, rfl, nofun, haccepts, hrejected⟩

end

/-! ## A run of chunks -/

section

variable {E : Environment PlaintextFrameHelper} {s t : Connection PlaintextFrameHelper}

/-- The session is on, and the transport reads. -/
structure Listening (s : Connection PlaintextFrameHelper) : Prop where
  state : s.state = .connected
  reading : s.transport.reading = true
  closed : s.transport.closed = false

theorem Listening.delivered {calls : List Invocation} (hs : Listening s) (h : Delivered calls s t) :
    Listening t :=
  ⟨h.state.trans hs.state, by rw [h.transport]; exact hs.reading,
    by rw [h.transport]; exact hs.closed⟩

/-- A chunk arrives, by way of a transport that delivers nothing after
`close`. -/
def deliver (E : Environment PlaintextFrameHelper) (s : Connection PlaintextFrameHelper)
    (chunk : Bytes) : Connection PlaintextFrameHelper :=
  if s.transport.closed then s else step E s (.bytes chunk)

theorem deliver_listening (hs : Listening s) (chunk : Bytes) :
    deliver E s chunk = drainFrames E (feed E chunk s) := by
  unfold deliver
  rw [hs.closed, if_neg nofun]
  show receive E chunk s = drainFrames E (feed E chunk s)
  unfold receive
  rw [hs.reading, if_pos rfl]
  rfl

theorem foldl_deliver_closed (hclosed : s.transport.closed = true) (chunks : List Bytes) :
    chunks.foldl (deliver E) s = s := by
  induction chunks with
  | nil => rfl
  | cons chunk chunks ih =>
      rw [List.foldl_cons]
      have hsame : deliver E s chunk = s := if_pos hclosed
      rw [hsame]
      exact ih

/-- Everything that was fed has been consumed. -/
theorem waiting_of_consumed {frames : List Frame} {later : Bytes}
    (hconsumed : s.frameHelper.consumed = s.frameHelper.buffer.length)
    (hlater : later = encodeAll frames) : Waiting frames later s := by
  have hnil : s.frameHelper.unconsumed = [] := List.drop_eq_nil_of_le (Nat.le_of_eq hconsumed.symm)
  refine ⟨Nat.le_of_eq hconsumed, ?_, ?_⟩
  · rw [hnil]
    rfl
  · rw [hnil, hlater]
    rfl

/-- When all bytes have come, no frame is left. -/
theorem Waiting.eq_nil {frames : List Frame} (hs : Waiting frames [] s)
    (hframes : ∀ frame ∈ frames, Encodable frame) : frames = [] := by
  cases frames with
  | nil => rfl
  | cons frame frames =>
      have hbytes := hs.bytes
      have hmore := hs.needMore
      rw [List.append_nil] at hbytes
      rw [hbytes, encodeAll, List.flatMap_cons,
        parseFrame_encode (hframes frame (List.mem_cons_self ..))] at hmore
      exact nomatch hmore

variable (hhelper : E.helper = PlaintextFrameHelper.frameHelper)
  (hcalls : ∀ call (s : Connection PlaintextFrameHelper), E.calls call s = [])

include hhelper hcalls

/-- One chunk. -/
theorem deliver_drained {frames : List Frame} {chunk later : Bytes}
    (hframes : ∀ frame ∈ frames, Encodable frame ∧ Benign E frame) (hs : Listening s)
    (hwaiting : Waiting frames (chunk ++ later) s) :
    Drained E frames later s (deliver E s chunk) := by
  have hfed : (feed E chunk s).frameHelper.unconsumed = s.frameHelper.unconsumed ++ chunk := by
    rw [feed, hhelper]
    exact PlaintextFrameHelper.unconsumed_feed hwaiting.consumed chunk
  rw [deliver_listening hs]
  have hbytes : (feed E chunk s).frameHelper.unconsumed ++ later = encodeAll frames := by
    rw [hfed, List.append_assoc]
    exact hwaiting.bytes
  have hdrained : Drained E frames later (feed E chunk s) (drainFrames E (feed E chunk s)) :=
    drainFrames_dispatch hhelper hcalls later frames _ hs.state hframes hbytes
  have hnone : ∀ frame ∈ ([] : List Frame), accepts E frame = true := nofun
  exact Drained.append hnone (delivered_helper _ s) hdrained

/-- All chunks. -/
theorem foldl_deliver_drained : ∀ (chunks : List Bytes) (frames : List Frame)
    (s : Connection PlaintextFrameHelper),
    (∀ frame ∈ frames, Encodable frame ∧ Benign E frame) → Listening s →
    Waiting frames chunks.flatten s → Drained E frames [] s (chunks.foldl (deliver E) s)
  | [], frames, s, _, _, hwaiting =>
      .inl ⟨[], frames, rfl, nofun, Delivered.refl s, hwaiting⟩
  | chunk :: chunks, frames, s, hframes, hs, hwaiting => by
      rw [List.foldl_cons]
      rcases deliver_drained hhelper hcalls hframes hs hwaiting with
        ⟨done, rest, rfl, hdone, hdelivered, hrest⟩ |
        ⟨done, bad, rest, hsplit, hdone, hbad, hrejected⟩
      · refine Drained.append hdone hdelivered ?_
        exact foldl_deliver_drained chunks rest _
          (fun frame hframe => hframes frame (List.mem_append_right done hframe))
          (hs.delivered hdelivered) hrest
      · rw [foldl_deliver_closed hrejected.closed]
        exact .inr ⟨done, bad, rest, hsplit, hdone, hbad, hrejected⟩

omit hhelper hcalls in
/-- There is at most one first frame that is not accepted. -/
theorem first_rejected_unique {before before' after after' : List Frame} {bad bad' : Frame}
    (hbefore : ∀ frame ∈ before, accepts E frame = true) (hbad : accepts E bad = false)
    (hbefore' : ∀ frame ∈ before', accepts E frame = true) (hbad' : accepts E bad' = false)
    (heq : before ++ bad :: after = before' ++ bad' :: after') : before = before' ∧ bad = bad' := by
  have htake : ∀ (l rest : List Frame) (frame : Frame), (∀ f ∈ l, accepts E f = true) →
      accepts E frame = false → (l ++ frame :: rest).takeWhile (accepts E) = l := by
    intro l rest frame hl hframe
    rw [List.takeWhile_append_of_pos hl,
      List.takeWhile_cons_of_neg (by rw [hframe]; exact Bool.false_ne_true), List.append_nil]
  have hsame : before = before' := by
    rw [← htake before after bad hbefore hbad, heq, htake before' after' bad' hbefore' hbad']
  subst hsame
  exact ⟨rfl, (List.cons.inj (List.append_cancel_left heq)).1⟩

/-- Frames that arrive in chunks at a session that listens. If all of them are
accepted, each makes its calls, in order, and the session goes on. Otherwise
those before the first that is not accepted do, that one reaches the raw
handler, and the session has failed. -/
theorem dispatch_chunks (s : Connection PlaintextFrameHelper) (frames : List Frame)
    (chunks : List Bytes) (hs : Listening s)
    (hframes : ∀ frame ∈ frames, Encodable frame ∧ Benign E frame)
    (hwaiting : Waiting frames chunks.flatten s) :
    let t := chunks.foldl (deliver E) s
    ((∀ frame ∈ frames, accepts E frame = true) →
      t.deliveries = s.deliveries ++ frames.flatMap (dispatchOf E s) ∧ t.state = .connected) ∧
    ∀ before bad after, frames = before ++ bad :: after →
      (∀ frame ∈ before, accepts E frame = true) → accepts E bad = false →
      t.deliveries = s.deliveries ++ before.flatMap (dispatchOf E s) ++ rawCalls s bad ∧
        t.state = .failed := by
  intro t
  have hnot : ∀ (l : List Frame) (frame : Frame), frame ∈ l → accepts E frame = false →
      ¬ ∀ f ∈ l, accepts E f = true := by
    intro l frame hmem hframe hall
    rw [hall frame hmem] at hframe
    exact nomatch hframe
  rcases foldl_deliver_drained hhelper hcalls chunks frames s hframes hs hwaiting with
    ⟨done, rest, rfl, hdone, hdelivered, hrest⟩ | ⟨done, bad, rest, rfl, hdone, hbad, hrejected⟩
  · have hnil : rest = [] :=
      hrest.eq_nil fun frame hframe => (hframes frame (List.mem_append_right done hframe)).1
    subst hnil
    rw [List.append_nil]
    refine ⟨fun _ => ⟨hdelivered.deliveries, hdelivered.state.trans hs.state⟩, ?_⟩
    intro before bad after heq _ hbad
    have hmem : bad ∈ done := heq ▸ List.mem_append_right before (List.mem_cons_self ..)
    exact absurd hdone (hnot done bad hmem hbad)
  · refine ⟨?_, ?_⟩
    · intro hall
      exact absurd hall (hnot _ bad (List.mem_append_right done (List.mem_cons_self ..)) hbad)
    · intro before bad' after heq hbefore hbad'
      obtain ⟨rfl, rfl⟩ := first_rejected_unique hdone hbad hbefore hbad' heq
      refine ⟨?_, hrejected.state⟩
      rw [List.append_assoc]
      exact hrejected.deliveries

end

/-- A session with a raw handler, an any handler and a handler of
`PingRequest`. -/
def session : Connection PlaintextFrameHelper :=
  run (step plaintextEnvironment) started
    [.connectResult none, .bytes [0x00, 0x00, 0x02], .call (.onRaw (some 1)),
      .call (.on MessageId.pingRequest (some 2)), .call (.onAny (some 3))]

/-- A `PingRequest`, a frame of an unknown id and a `PingRequest` that does not
decode, cut inside the headers. -/
theorem dispatch_chunks_session :
    let t := [[0x00], [0x00, 0x07, 0x00, 0x01], [0x09, 0xAA, 0x00, 0x01, 0x07, 0x08]].foldl
      (deliver plaintextEnvironment) session
    t.deliveries = [.raw 1 ⟨7, []⟩, .message 2 7 .pingRequest, .any 3 .pingRequest,
      .raw 1 ⟨9, [0xAA]⟩, .raw 1 ⟨7, [0x08]⟩] ∧ t.state = .failed := by
  have hframes : ∀ frame ∈ ([⟨7, []⟩, ⟨9, [0xAA]⟩, ⟨7, [0x08]⟩] : List Frame),
      Encodable frame ∧ Benign plaintextEnvironment frame := by
    intro frame hframe
    simp only [List.mem_cons, List.not_mem_nil, or_false] at hframe
    rcases hframe with rfl | rfl | rfl
    · exact ⟨⟨by decide, by decide⟩, nofun, nofun, nofun⟩
    · exact ⟨⟨by decide, by decide⟩, nofun, nofun, nofun⟩
    · exact ⟨⟨by decide, by decide⟩, nofun, nofun, nofun⟩
  have hdispatch := dispatch_chunks (E := plaintextEnvironment) rfl (fun _ _ => rfl) session
    [⟨7, []⟩, ⟨9, [0xAA]⟩, ⟨7, [0x08]⟩]
    [[0x00], [0x00, 0x07, 0x00, 0x01], [0x09, 0xAA, 0x00, 0x01, 0x07, 0x08]]
    ⟨by decide +kernel, by decide +kernel, by decide +kernel⟩ hframes
    (waiting_of_consumed (by decide +kernel) (by decide +kernel))
  obtain ⟨hdeliveries, hstate⟩ := hdispatch.2 [⟨7, []⟩, ⟨9, [0xAA]⟩] ⟨7, [0x08]⟩ [] rfl
    (by decide +kernel) (by decide +kernel)
  have hnone : session.deliveries = [] := List.eq_nil_of_length_eq_zero (by decide +kernel)
  have hraw : session.rawHandler = some 1 := by decide +kernel
  have hmessage : session.handlers 7 = some 2 := by decide +kernel
  have hany : session.anyHandler = some 3 := by decide +kernel
  have hping : dispatchOf plaintextEnvironment session ⟨7, []⟩ =
      [.raw 1 ⟨7, []⟩, .message 2 7 .pingRequest, .any 3 .pingRequest] := by
    show rawCalls _ _ ++ (messageCalls _ 7 .pingRequest ++ anyCalls _ .pingRequest) = _
    rw [rawCalls, messageCalls, anyCalls, hraw, hmessage, hany]
    rfl
  have hunknown : dispatchOf plaintextEnvironment session ⟨9, [0xAA]⟩ = [.raw 1 ⟨9, [0xAA]⟩] := by
    show rawCalls _ _ ++ [] = _
    rw [rawCalls, hraw]
    rfl
  rw [hnone, List.flatMap_cons, List.flatMap_singleton, hping, hunknown, rawCalls, hraw]
    at hdeliveries
  exact ⟨hdeliveries, hstate⟩

end Connection

end EsphomeApi
