/-
EsphomeApi.Connection.Machine — the functions of `connection.cpp`, and what
one event does to a connection.

A handler may call members of the connection before it returns. The only such
call that can invoke a handler in turn is `disconnect`, and a call of
`disconnect` within `disconnect` finds the state `Closing` or `Closed` and
returns (`setStateWith_quiet`); so `setStateWith` is given what `disconnect`
does, `disconnect` itself gives it nothing, and everything else gives it
`disconnect`.
-/
import EsphomeApi.Connection.State
import EsphomeApi.Library.Loop

namespace EsphomeApi

open Proto Library

namespace Connection

variable {σ : Type} (E : Environment σ)

def emit (o : Output) (s : Connection σ) : Connection σ := { s with log := s.log ++ [o] }

/-! ## Executor -/

/-- `executor_.schedule_after`, without the id it returns. -/
def schedule (delay : Int) (callback : TimerCallback) (s : Connection σ) : Connection σ :=
  { s with
    executor := { s.executor with
      nextId := s.executor.nextId + 1
      timers := s.executor.timers ++ [⟨s.executor.nextId, s.executor.now + delay, callback⟩] }
    schedules := s.schedules ++ [⟨callback, s.state⟩] }

/-- `executor_.cancel`. -/
def cancel (id : TimerId) (s : Connection σ) : Connection σ :=
  if E.cancels s id then
    { s with executor := { s.executor with
        timers := s.executor.timers.filter fun timer => timer.id ≠ id } }
  else s

def cancelConnectTimer (s : Connection σ) : Connection σ :=
  if s.connectTimer = invalidTimer then s
  else { cancel E s.connectTimer s with connectTimer := invalidTimer }

def cancelPingTimer (s : Connection σ) : Connection σ :=
  if s.pingTimer = invalidTimer then s
  else { cancel E s.pingTimer s with pingTimer := invalidTimer }

def cancelPongTimer (s : Connection σ) : Connection σ :=
  if s.pongTimer = invalidTimer then s
  else { cancel E s.pongTimer s with pongTimer := invalidTimer }

/-- `stop_keepalive` -/
def stopKeepalive (s : Connection σ) : Connection σ :=
  { cancelPongTimer E (cancelPingTimer E s) with awaitingPong := false }

/-- `start_keepalive` -/
def startKeepalive (s : Connection σ) : Connection σ :=
  if s.options.keepaliveInterval ≤ 0 then s
  else { schedule s.options.keepaliveInterval .ping s with pingTimer := s.executor.nextId }

/-! ## Sending -/

/-- `send_raw`, called by the connection or by the application. -/
def sendRaw (writer : Writer) (type : UInt32) (payload : Bytes) (s : Connection σ) :
    Connection σ :=
  let out := E.helper.encode type payload s.frameHelper
  emit (.write writer ⟨type, payload⟩ out.1) { s with frameHelper := out.2 }

/-- `send` of a message of the connection's own. -/
def send (type : UInt32) (fields : Fields) (v : fields.Value) (s : Connection σ) : Connection σ :=
  sendRaw E .connection type (fields.encode v) s

/-- `client_api_version_major` -/
def clientApiVersionMajor : BitVec 32 := 1

/-- `client_api_version_minor` -/
def clientApiVersionMinor : BitVec 32 := 14

/-- `send_hello` -/
def sendHello (s : Connection σ) : Connection σ :=
  let s := send E MessageId.helloRequest HelloRequest
    (s.options.clientInfo, clientApiVersionMajor, clientApiVersionMinor, ()) s
  if s.options.login then
    send E MessageId.authenticationRequest AuthenticationRequest (s.options.password, ()) s
  else s

/-- `transport_->close()` -/
def closeTransport (s : Connection σ) : Connection σ :=
  emit .close { s with transport := { s.transport with closed := true } }

/-! ## Handlers -/

/-- `on` -/
def on (type : UInt32) (handler : Option HandlerId) (s : Connection σ) : Connection σ :=
  if type ≤ E.registry.messageIdMax then
    { s with handlers := fun id => if id = type then handler else s.handlers id }
  else s

/-- A call of the application, when `disconnect` does as given. -/
def perform (disconnect : Connection σ → Connection σ) : Call → Connection σ → Connection σ
  | .disconnect, s => disconnect s
  | .sendRaw type payload, s => sendRaw E .application type payload s
  | .on type handler, s => on E type handler s
  | .onAny handler, s => { s with anyHandler := handler }
  | .onRaw handler, s => { s with rawHandler := handler }
  | .onState handler, s => { s with stateHandler := handler }
  | .onError handler, s => { s with errorHandler := handler }

/-- A handler runs, and calls what it calls. -/
def invokeWith (disconnect : Connection σ → Connection σ) (call : Invocation) (s : Connection σ) :
    Connection σ :=
  let s := emit (.invoked call) s
  (E.calls call s).foldl (fun s c => perform E disconnect c s) s

/-- `set_state` -/
def setStateWith (disconnect : Connection σ → Connection σ) (state : ConnectionState)
    (s : Connection σ) : Connection σ :=
  if state = s.state then s
  else
    let s := emit (.state state) { s with state := state }
    match s.stateHandler with
    | some handler => invokeWith E disconnect (.state handler state) s
    | none => s

/-! ## Closing -/

/-- The completion that `disconnect` gives to its write. -/
def finishDisconnect (s : Connection σ) : Connection σ :=
  setStateWith E id .closed (closeTransport s)

/-- `disconnect` -/
def disconnect (s : Connection σ) : Connection σ :=
  if s.state ≠ .connected ∧ s.state ≠ .helloSent then s
  else
    let inline := E.inline s
    let s := setStateWith E id .closing (stopKeepalive E s)
    let s := send E MessageId.disconnectRequest EmptyMessage () s
    if inline then finishDisconnect E s
    else { s with transport := { s.transport with completions := s.transport.completions + 1 } }

def invoke (call : Invocation) (s : Connection σ) : Connection σ :=
  invokeWith E (disconnect E) call s

def setState (state : ConnectionState) (s : Connection σ) : Connection σ :=
  setStateWith E (disconnect E) state s

/-- `finish_connect` -/
def finishConnect (ec : Option ErrorCode) (s : Connection σ) : Connection σ :=
  match s.connectHandler with
  | some handler => invoke E (.done handler ec) { s with connectHandler := none }
  | none => s

/-- `fail` -/
def fail (ec : ErrorCode) (what : CString) (s : Connection σ) : Connection σ :=
  if s.state.terminal then s
  else
    let s := closeTransport (cancelConnectTimer E (stopKeepalive E s))
    let wasConnecting := s.connectHandler.isSome
    let s := setState E .failed s
    if wasConnecting then finishConnect E (some ec) s
    else
      match s.errorHandler with
      | some handler => invoke E (.error handler ec what) s
      | none => s

/-! ## Messages of the connection itself -/

def unsupportedMajor (major : Int) : CString :=
  lit "unsupported API major version " ++ toCString major

def unexpectedName (name expected : CString) : CString :=
  lit "connected to '" ++ name ++ lit "' but expected '" ++ expected ++ lit "'"

/-- `hello_`, from a response. `static_cast<int>` keeps the 32 bits. -/
def ServerHello.ofResponse (v : HelloResponse.Value) : ServerHello where
  apiVersionMajor := v.1.toInt
  apiVersionMinor := v.2.1.toInt
  serverInfo := v.2.2.1
  name := v.2.2.2.1

/-- The case `HelloResponse`. -/
def handleHelloResponse (v : HelloResponse.Value) (s : Connection σ) : Connection σ :=
  if s.state ≠ .helloSent then s
  else
    let s := { s with hello := ServerHello.ofResponse v }
    if s.hello.apiVersionMajor > 2 then
      fail E .protocolError (unsupportedMajor s.hello.apiVersionMajor) s
    else if s.options.expectedName ≠ [] ∧ s.hello.name ≠ [] ∧
        s.hello.name ≠ s.options.expectedName then
      fail E .protocolError (unexpectedName s.hello.name s.options.expectedName) s
    else
      finishConnect E none (startKeepalive (setState E .connected (cancelConnectTimer E s)))

/-- The case `AuthenticationResponse`. -/
def handleAuthenticationResponse (v : AuthenticationResponse.Value) (s : Connection σ) :
    Connection σ :=
  if v.1 then
    fail E .permissionDenied (lit "authentication rejected: invalid password") s
  else s

/-- The case `DisconnectRequest`. -/
def handleDisconnectRequest (s : Connection σ) : Connection σ :=
  let s := send E MessageId.disconnectResponse EmptyMessage () s
  let s := setState E .closed (closeTransport (stopKeepalive E s))
  finishConnect E (some .connectionAborted) s

/-- The case `DisconnectResponse`. -/
def handleDisconnectResponse (s : Connection σ) : Connection σ :=
  setState E .closed (closeTransport (stopKeepalive E s))

/-- The case `PingRequest`. -/
def handlePingRequest (s : Connection σ) : Connection σ :=
  send E MessageId.pingResponse EmptyMessage () s

/-- The case `PingResponse`. -/
def handlePingResponse (s : Connection σ) : Connection σ :=
  cancelPongTimer E { s with awaitingPong := false }

/-- `handle_internal` -/
def handleInternal (msg : ProtoMessage) (s : Connection σ) : Connection σ :=
  match msg with
  | .helloResponse v => handleHelloResponse E v s
  | .authenticationResponse v => handleAuthenticationResponse E v s
  | .disconnectRequest => handleDisconnectRequest E s
  | .disconnectResponse => handleDisconnectResponse E s
  | .pingRequest => handlePingRequest E s
  | .pingResponse => handlePingResponse E s
  | _ => s

/-! ## Inbound frames -/

def invokeRaw (frame : Frame) (s : Connection σ) : Connection σ :=
  match s.rawHandler with
  | some handler => invoke E (.raw handler frame) s
  | none => s

def invokeMessage (type : UInt32) (msg : ProtoMessage) (s : Connection σ) : Connection σ :=
  if type ≤ E.registry.messageIdMax then
    match s.handlers type with
    | some handler => invoke E (.message handler type msg) s
    | none => s
  else s

def invokeAny (msg : ProtoMessage) (s : Connection σ) : Connection σ :=
  match s.anyHandler with
  | some handler => invoke E (.any handler msg) s
  | none => s

/-- The part of `handle_frame` for a decoded message. -/
def handleMessage (type : UInt32) (msg : ProtoMessage) (s : Connection σ) : Connection σ :=
  let s := handleInternal E msg s
  if s.state.terminal then s else invokeAny E msg (invokeMessage E type msg s)

/-- The message that a frame decodes to, if it has one. -/
def parse (frame : Frame) : Option ProtoMessage :=
  (E.registry.create frame.type).bind fun parse => parse frame.payload

/-- `handle_frame` -/
def handleFrame (frame : Frame) (s : Connection σ) : Connection σ :=
  let s := invokeRaw E frame s
  match E.registry.create frame.type with
  | none => s
  | some parse =>
      match parse frame.payload with
      | none => fail E .protocolError (lit "failed to parse message payload") s
      | some msg => handleMessage E frame.type msg s

/-- The callback for a completed handshake; without a handshake, what follows
the connect. -/
def onReady (s : Connection σ) : Connection σ := setState E .helloSent (sendHello E s)

/-- The callback for a failed handshake. -/
def onHandshakeError (what : CString) (s : Connection σ) : Connection σ :=
  fail E .protocolError what { s with lastError := some ⟨.handshakeError, what⟩ }

/-- What `on_bytes` does with an exception that leaves `next`. -/
def onException (e : ApiException) (s : Connection σ) : Connection σ :=
  if e.kind.isProtocolError then
    fail E .protocolError e.what { s with lastError := some e }
  else s

/-- One iteration of the loop of `next` within the loop of `drain_frames`, and
whether they go on. -/
def drainTurn (s : Connection σ) : Connection σ × Bool :=
  let out := E.helper.advance s.frameHelper
  let s := { s with frameHelper := out.2 }
  match out.1 with
  | .needMore => (s, false)
  | .throws e => (onException E e s, false)
  | .silent => (s, true)
  | .ready => (onReady E s, true)
  | .error what => (onHandshakeError E what s, true)
  | .ok frame =>
      let s := handleFrame E frame s
      (s, !s.state.terminal)

/-- `drain_frames`, with the `catch` clause of `on_bytes` around it. -/
def drainFrames (s : Connection σ) : Connection σ :=
  loop (drainTurn E) (E.helper.buffered s.frameHelper + 1) s

/-- `frame_helper_->feed(data)` -/
def feed (data : Bytes) (s : Connection σ) : Connection σ :=
  { s with frameHelper := E.helper.feed data s.frameHelper }

/-- `on_bytes`, without an error code. -/
def onBytes (data : Bytes) (s : Connection σ) : Connection σ := drainFrames E (feed E data s)

/-- `on_bytes`, with an error code. -/
def onReadError (ec : ErrorCode) (s : Connection σ) : Connection σ :=
  if s.state = .closing ∨ s.state = .closed then s else fail E ec (lit "read failed") s

/-! ## Connecting -/

/-- `start` -/
def start (host : CString) (port : UInt16) (onDone : HandlerId) (s : Connection σ) :
    Connection σ :=
  let s := emit .started { s with connectHandler := some onDone, lastError := none }
  let s := setState E .connecting s
  let s := { schedule s.options.connectTimeout .connectTimeout s with
    connectTimer := s.executor.nextId }
  emit (.connect host port) { s with
    transport := { s.transport with connects := s.transport.connects + 1, closed := false } }

/-- `transport_->start_read` -/
def startRead (s : Connection σ) : Connection σ :=
  emit .startRead { s with transport := { s.transport with reading := true } }

/-- `on_connected_transport` -/
def onConnectedTransport (ec : Option ErrorCode) (s : Connection σ) : Connection σ :=
  match ec with
  | some ec => fail E ec (lit "tcp connect failed") s
  | none =>
      let s := startRead s
      if E.helper.needsHandshake then
        let out := E.helper.connectBytes (E.helper.setHandshakeHandlers s.frameHelper)
        let s := { s with frameHelper := out.2 }
        if out.1 = [] then s else emit (.writeInitial out.1) s
      else onReady E s

/-! ## Timers -/

/-- `send_ping` -/
def sendPing (s : Connection σ) : Connection σ :=
  if s.state ≠ .connected then s
  else
    let s := send E MessageId.pingRequest EmptyMessage () s
    let s :=
      if s.awaitingPong then s
      else { schedule s.options.keepaliveTimeout .pongTimeout s with
        awaitingPong := true, pongTimer := s.executor.nextId }
    { schedule s.options.keepaliveInterval .ping s with pingTimer := s.executor.nextId }

/-- A scheduled function runs. -/
def runTimer (callback : TimerCallback) (s : Connection σ) : Connection σ :=
  match callback with
  | .connectTimeout =>
      if s.state ≠ .connected then fail E .timedOut (lit "handshake timed out") s else s
  | .ping => sendPing E s
  | .pongTimeout =>
      let s := { s with pongTimer := invalidTimer }
      if s.awaitingPong then fail E .timedOut (lit "keepalive pong timed out") s else s

/-- The executor gives up a timer to run it. -/
def takeTimer (id : TimerId) (s : Connection σ) : Connection σ :=
  { s with executor := { s.executor with
      timers := s.executor.timers.filter fun timer => timer.id ≠ id } }

/-- A timer expires, if it is there and due. -/
def onTimer (id : TimerId) (s : Connection σ) : Connection σ :=
  match s.executor.timers.find? fun timer => timer.id = id ∧ timer.deadline ≤ s.executor.now with
  | some timer => runTimer E timer.callback (takeTimer id s)
  | none => s

/-! ## Events -/

/-- The transport gives up a connect handler to call it. -/
def takeConnect (s : Connection σ) : Connection σ :=
  { s with transport := { s.transport with connects := s.transport.connects - 1 } }

/-- The transport calls the connect handler, if it holds one. -/
def connectResult (ec : Option ErrorCode) (s : Connection σ) : Connection σ :=
  if s.transport.connects = 0 then s else onConnectedTransport E ec (takeConnect s)

/-- The transport calls the read handler with a chunk, if it holds one. -/
def receive (data : Bytes) (s : Connection σ) : Connection σ :=
  if s.transport.reading then onBytes E data s else s

/-- The read pump ends. -/
def stopReading (s : Connection σ) : Connection σ :=
  { s with transport := { s.transport with reading := false } }

/-- The transport calls the read handler with an error, for the last time. -/
def readFailed (ec : ErrorCode) (s : Connection σ) : Connection σ :=
  if s.transport.reading then onReadError E ec (stopReading s) else s

/-- The transport gives up the handler of a write to call it. -/
def takeCompletion (s : Connection σ) : Connection σ :=
  { s with transport := { s.transport with completions := s.transport.completions - 1 } }

/-- The transport calls the handler of a write, if it holds one. -/
def writeDone (s : Connection σ) : Connection σ :=
  if s.transport.completions = 0 then s else finishDisconnect E (takeCompletion s)

/-- Time passes. -/
def elapse (ms : Nat) (s : Connection σ) : Connection σ :=
  { s with executor := { s.executor with now := s.executor.now + ms } }

/-- What an event does. -/
def step (s : Connection σ) : Event → Connection σ
  | .start host port onDone => start E host port onDone s
  | .connectResult ec => connectResult E ec s
  | .bytes data => receive E data s
  | .readError ec => readFailed E ec s
  | .writeDone => writeDone E s
  | .timer id => onTimer E id s
  | .elapse ms => elapse ms s
  | .call call => perform E (disconnect E) call s

end Connection

/-- A connection as it is constructed. -/
def Connection.create {σ : Type} (frameHelper : σ) (options : ConnectionOptions) :
    Connection σ := { options := options, frameHelper := frameHelper }

end EsphomeApi
