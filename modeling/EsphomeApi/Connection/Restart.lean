/-
EsphomeApi.Connection.Restart — a second `start` on a connection that is
`Failed` or `Closed`.

`start` sets the connect handler, the last error, the state and the connect
timer. It does not touch the frame helper, whose buffer may hold bytes of the
first session and whose handshake and ciphers may be used up, nor the timers
that the first session has left with the executor, nor `awaiting_pong_`.
`Renewed` says that there is nothing to touch; then the second session is the
session of a new connection (`restart_as_new`).
-/
import EsphomeApi.Connection.Alike
import EsphomeApi.Connection.Completion
import EsphomeApi.Transport.Resumption

namespace EsphomeApi

open Proto Library

/-- A frame helper as one that is newly constructed. -/
inductive AsNew : {σ : Type} → FrameHelper σ → σ → σ → Prop where
  /-- nothing is left to be read -/
  | plaintext {h : PlaintextFrameHelper} (hread : h.unconsumed = []) :
      AsNew PlaintextFrameHelper.frameHelper {} h
  /-- nothing has been done with it -/
  | noise (P : Noise.Primitives) (h : NoiseFrameHelper) :
      AsNew (NoiseFrameHelper.frameHelper P) h h

/-- What the surroundings of a connection look at. `server_hello()` is not among
it: until the next `HelloResponse` it returns the hello of an earlier session,
and the surroundings do not call it before. -/
structure Connection.SameOutside {σ : Type} (s t : Connection σ) : Prop where
  state : s.state = t.state
  handlers : s.handlers = t.handlers
  slots : s.slots = t.slots
  lastError : s.lastError = t.lastError
  executor : s.executor = t.executor
  log : s.log = t.log

namespace Environment

variable {σ : Type}

/-- Surroundings that act on what they see. -/
structure Outward (E : Environment σ) : Prop where
  calls : ∀ call {s t}, s.SameOutside t → E.calls call s = E.calls call t
  inline : ∀ {s t}, s.SameOutside t → E.inline s = E.inline t
  cancels : ∀ id {s t}, s.SameOutside t → E.cancels s id = E.cancels t id

/-- The same surroundings around a new connection, after an earlier history. -/
def after (before : List Output) (E : Environment σ) : Environment σ where
  helper := E.helper
  registry := E.registry
  calls call t := E.calls call { t with log := before ++ t.log }
  inline t := E.inline { t with log := before ++ t.log }
  cancels t id := E.cancels { t with log := before ++ t.log } id

end Environment

namespace Connection

variable {σ : Type} {E : Environment σ} {R : σ → σ → Prop} {before : List Output}
  {s t : Connection σ}

theorem Alike.sameOutside (h : Alike R before s t) :
    s.SameOutside { t with log := before ++ t.log } where
  state := h.state
  handlers := h.handlers
  slots := by rw [slots, slots, h.anyHandler, h.rawHandler, h.stateHandler, h.errorHandler]
  lastError := h.lastError
  executor := h.executor
  log := h.log

theorem parallel_after (hE : E.Outward) (hR : Bisimulation E.helper E.helper R)
    (before : List Output) : Parallel E (E.after before) R before where
  helper := hR
  registry := rfl
  calls call _ _ h := hE.calls call h.sameOutside
  inline h := hE.inline h.sameOutside
  cancels id _ _ h := hE.cancels id h.sameOutside

/-! ## The first session -/

theorem sameHolders_self (s : Connection σ) (e : Event) : SameHolders s s e := by
  cases e <;> simp [SameHolders]

theorem alike_create {f : σ} (hf : R f f) (options : ConnectionOptions) :
    Alike R [] (create f options) (create f options) where
  options := rfl
  frameHelper := hf
  state := rfl
  handlers := rfl
  anyHandler := rfl
  rawHandler := rfl
  stateHandler := rfl
  errorHandler := rfl
  connectHandler := rfl
  lastError := rfl
  awaitingPong := rfl
  executor := rfl
  connectTimer := ⟨Nat.zero_lt_one, .inl rfl⟩
  pingTimer := ⟨Nat.zero_lt_one, .inl rfl⟩
  pongTimer := ⟨Nat.zero_lt_one, .inl rfl⟩
  connects := Nat.le_refl _
  reading := id
  completions := Nat.le_refl _
  log := rfl

/-- The frame helper is related to itself, and the timer ids are old ones. -/
def AlikeItself (R : σ → σ → Prop) (s : Connection σ) : Prop := Alike R [] s s

theorem alikeItself_run (hE : E.Outward) (hR : Bisimulation E.helper E.helper R) {f : σ}
    (hf : R f f) (options : ConnectionOptions) (events : List Event) :
    AlikeItself R (run (step E) (create f options) events) := by
  have hP : Parallel E E R [] := parallel_after hE hR []
  have hstep : ∀ s e, AlikeItself R s → AlikeItself R (step E s e) := by
    intro s e h
    exact Alike.step hP e h (sameHolders_self s e)
  exact run_invariant hstep (alike_create hf options) events

/-! ## The second session -/

/-- Nothing is left of an earlier session that a later one reads. -/
structure Renewed (H : FrameHelper σ) (frameHelper : σ) (s : Connection σ) : Prop where
  frameHelper : AsNew H frameHelper s.frameHelper
  timers : s.executor.timers = []
  awaitingPong : s.awaitingPong = false

/-- A newly constructed connection with the options and the handlers of
another, on the same executor. -/
def anew (frameHelper : σ) (s : Connection σ) : Connection σ :=
  { create frameHelper s.options with
    handlers := s.handlers
    anyHandler := s.anyHandler
    rawHandler := s.rawHandler
    stateHandler := s.stateHandler
    errorHandler := s.errorHandler
    executor := { s.executor with timers := [] } }

/-- An event of the session at hand: the transport calls back what this
session has given it. -/
def Fresh (s : Connection σ) : Event → Prop
  | .connectResult _ => s.transport.connects ≠ 0
  | .bytes _ => s.transport.reading = true
  | .readError _ => s.transport.reading = true
  | .writeDone => s.transport.completions ≠ 0
  | _ => True

instance Fresh.decidable (s : Connection σ) : ∀ e : Event, Decidable (Fresh s e)
  | .connectResult _ => inferInstanceAs (Decidable (s.transport.connects ≠ 0))
  | .bytes _ => inferInstanceAs (Decidable (s.transport.reading = true))
  | .readError _ => inferInstanceAs (Decidable (s.transport.reading = true))
  | .writeDone => inferInstanceAs (Decidable (s.transport.completions ≠ 0))
  | .start _ _ _ => inferInstanceAs (Decidable True)
  | .timer _ => inferInstanceAs (Decidable True)
  | .elapse _ => inferInstanceAs (Decidable True)
  | .call _ => inferInstanceAs (Decidable True)

theorem Alike.sameHolders {e : Event} (h : Alike R before s t) (he : Fresh t e) :
    SameHolders s t e := by
  have hconnects := h.connects
  have hcompletions := h.completions
  cases e with
  | connectResult ec =>
      unfold Fresh at he
      unfold SameHolders
      omega
  | bytes data => exact (h.reading he).trans (Eq.symm he)
  | readError ec => exact (h.reading he).trans (Eq.symm he)
  | writeDone =>
      unfold Fresh at he
      unfold SameHolders
      omega
  | _ => trivial

/-- `start` makes a renewed connection and a new one alike. -/
theorem alike_start {F : Environment σ} {f : σ} (hP : Parallel E F R s.log)
    (hself : AlikeItself R s) (hterminal : s.state.terminal = true)
    (htimers : s.executor.timers = []) (hawaiting : s.awaitingPong = false)
    (hf : R s.frameHelper f) (host : CString) (port : UInt16) (onDone : HandlerId) :
    Alike R s.log (start E host port onDone s) (start F host port onDone (anew f s)) := by
  have hgone : ∀ {id : TimerId}, SameTimer s.executor id id →
      SameTimer s.executor id invalidTimer := by
    intro id hid
    exact ⟨hid.1, .inr ⟨rfl, by simp [htimers]⟩⟩
  have hassigned : Alike R s.log
      (assign .connecting
        (emit .started { s with connectHandler := some onDone, lastError := none }))
      (assign .connecting
        (emit .started { anew f s with connectHandler := some onDone, lastError := none })) :=
    { options := rfl
      frameHelper := hf
      state := rfl
      handlers := rfl
      anyHandler := rfl
      rawHandler := rfl
      stateHandler := rfl
      errorHandler := rfl
      connectHandler := rfl
      lastError := rfl
      awaitingPong := hawaiting
      executor := congrArg (fun timers => { s.executor with timers := timers }) htimers
      connectTimer := hgone hself.connectTimer
      pingTimer := hgone hself.pingTimer
      pongTimer := hgone hself.pongTimer
      connects := Nat.zero_le _
      reading := nofun
      completions := Nat.zero_le _
      log := List.append_assoc s.log [Output.started] [Output.state .connecting] }
  have hended : ConnectionState.connecting ≠
      (emit .started { s with connectHandler := some onDone, lastError := none }).state := by
    intro h
    rw [show s.state = .connecting from h.symm] at hterminal
    exact nomatch hterminal
  have hnew : ConnectionState.connecting ≠ .disconnected := nofun
  exact (hassigned.assigned hP (fun h => h.disconnect hP) hended hnew).connect host port

/-- A relation that no call tells apart, and that a new helper bears to one
that is as new. -/
theorem bisimulation_asNew {H : FrameHelper σ} {f g : σ} (h : AsNew H f g) :
    ∃ R : σ → σ → Prop, Bisimulation H H R ∧ R f f ∧ (R g g → R g f) := by
  cases h with
  | plaintext hread =>
      refine ⟨PlaintextFrameHelper.SameStream, PlaintextFrameHelper.bisimulation_stream,
        ⟨rfl, Nat.le_refl _, Nat.le_refl _⟩, fun h => ⟨hread, h.left, Nat.le_refl _⟩⟩
  | noise P => exact ⟨(· = ·), Bisimulation.refl _, rfl, id⟩

/-- After a first session of any events, a second one is the session of a new
connection, if nothing is left of the first; and a transport that is used again
sends what a new one sends, if nothing is left in it. -/
theorem restart_as_new (E : Environment σ) (hE : E.Outward) (frameHelper : σ)
    (options : ConnectionOptions) (events : List Event) (react : TcpTransport.Reactions)
    (earlier : List TcpTransport.Event) :
    let s := run (step E) (create frameHelper options) events
    let t := run (TcpTransport.step react) {} earlier
    (s.state.terminal = true → Renewed E.helper frameHelper s →
      ∀ (host : CString) (port : UInt16) (onDone : HandlerId) (again : List Event),
        Guarded (step (E.after s.log)) Fresh
          (start (E.after s.log) host port onDone (anew frameHelper s)) again →
        let restarted := run (step E) s (.start host port onDone :: again)
        let new := run (step (E.after s.log)) (anew frameHelper s)
          (.start host port onDone :: again)
        restarted.state = new.state ∧ restarted.log = s.log ++ new.log) ∧
    (t.Rested → ∀ later : List TcpTransport.Event,
      let restarted := run (TcpTransport.step react) t later
      let new := run (TcpTransport.step (react.after t)) {} later
      restarted.sent.map SentByte.byte = t.sent.map SentByte.byte ++ new.sent.map SentByte.byte ∧
        restarted.completed = t.completed ++ new.completed) := by
  intro s t
  constructor
  · intro hterminal hrenewed host port onDone again hfresh
    obtain ⟨R, hR, hf, hnew⟩ := bisimulation_asNew hrenewed.frameHelper
    have hself : AlikeItself R s := alikeItself_run hE hR hf options events
    have hP : Parallel E (E.after s.log) R s.log := parallel_after hE hR s.log
    have hstart := alike_start hP hself hterminal hrenewed.timers hrenewed.awaitingPong
      (hnew hself.frameHelper) host port onDone
    have hend := run_related (fun _ _ e h he => h.step hP e (h.sameHolders he)) hstart hfresh
    exact ⟨hend.state, hend.log⟩
  · intro hrested later
    have hrun := TcpTransport.run_of_rested react hrested later
    dsimp only
    rw [hrun]
    exact ⟨TcpTransport.onto_sent_bytes _ _, rfl⟩

theorem outward_quiet (helper : FrameHelper σ) (registry : Registry) :
    (Environment.quiet helper registry).Outward where
  calls _ _ _ _ := rfl
  inline _ := rfl
  cancels _ _ _ _ := rfl

/-- The device answers, and what follows. -/
def answered (what : List Event) : List Event :=
  .connectResult none :: .bytes [0x00, 0x00, 0x02] :: what

/-- A write, the socket open. -/
def oneWrite (byte : UInt8) : List TcpTransport.Event :=
  [.connected, .request (.asyncWrite ⟨[byte], none⟩), .transfer 0 1]

/-- The device disconnects, and the application connects again; a write is
completed before the transport is closed, and another follows. -/
theorem restart_as_new_disconnected :
    let s := run (step plaintextEnvironment) plaintext
      (.start (lit "device.local") 6053 7 :: answered [.bytes [0x00, 0x00, 0x05]])
    let restarted := run (step plaintextEnvironment) s
      (.start (lit "device.local") 6053 7 :: answered [])
    let new := run (step (plaintextEnvironment.after s.log)) (anew {} s)
      (.start (lit "device.local") 6053 7 :: answered [])
    let t := run (TcpTransport.step fun _ _ _ => []) {}
      (oneWrite 0x01 ++ [.complete 0 none, .request .close])
    (new.state = .connected ∧ restarted.state = new.state ∧ restarted.log = s.log ++ new.log) ∧
      (run (TcpTransport.step fun _ _ _ => []) t (oneWrite 0x03)).sent.map SentByte.byte =
        t.sent.map SentByte.byte ++ [0x03] := by
  obtain ⟨hconnection, htransport⟩ := restart_as_new plaintextEnvironment (outward_quiet _ _) {} {}
    (.start (lit "device.local") 6053 7 :: answered [.bytes [0x00, 0x00, 0x05]])
    (fun _ _ _ => []) (oneWrite 0x01 ++ [.complete 0 none, .request .close])
  refine ⟨⟨by decide +kernel, hconnection (by decide +kernel) ?_ _ _ _ _ (by decide +kernel)⟩, ?_⟩
  · exact ⟨.plaintext (by decide +kernel), List.eq_nil_of_length_eq_zero (by decide +kernel),
      by decide +kernel⟩
  · exact (htransport ⟨by decide, by decide, by decide, by decide⟩ (oneWrite 0x03)).1

/-- A first session that ends in the middle of a frame, and a second one in
which the device answers: the byte of the first session is read before the
answer. And a write left in the queue by a first session goes out before the
writes of the second. -/
theorem restart_not_as_new :
    let s := run (step plaintextEnvironment) plaintext
      [.start (lit "device.local") 6053 7, .connectResult none, .bytes [0x00],
        .readError (.transport 104)]
    let restarted := run (step plaintextEnvironment) s
      (.start (lit "device.local") 6053 7 :: answered [])
    let new := run (step (plaintextEnvironment.after s.log)) (anew {} s)
      (.start (lit "device.local") 6053 7 :: answered [])
    s.state = .failed ∧ restarted.state = .failed ∧ new.state = .connected ∧
      Guarded (step (plaintextEnvironment.after s.log)) Fresh
        (start (plaintextEnvironment.after s.log) (lit "device.local") 6053 7 (anew {} s))
        (answered []) ∧
    let t := run (TcpTransport.step fun _ _ _ => []) {}
      [.connected, .request (.asyncWrite ⟨[0x01], none⟩), .request (.asyncWrite ⟨[0x02], none⟩),
        .request .close, .complete 0 (some (.transport 125))]
    t.sent = [] ∧
      (run (TcpTransport.step fun _ _ _ => []) t (oneWrite 0x03)).sent.map SentByte.byte = [0x02] ∧
      (run (TcpTransport.step fun _ _ _ => []) {} (oneWrite 0x03)).sent.map SentByte.byte =
        [0x03] := by
  decide +kernel

end Connection

end EsphomeApi
