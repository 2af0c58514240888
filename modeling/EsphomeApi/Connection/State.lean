/-
EsphomeApi.Connection.State — the data of a `Connection`, and what it is
surrounded by.

A `Connection` holds its members, the part of the executor and the transport
that calls it back (timers, outstanding completions), and logs of everything it
has done to the outside, oldest first: what it has had scheduled is a log of
its own (`schedules`), the rest is `log`. The rest of the world is an
`Environment`: the frame helper's class, the message registry, what the
application's handlers do, whether the transport completes a write while it is
being queued, and whether a timer can still be cancelled. Each of them may
depend on the connection as it is, log included.
-/
import EsphomeApi.Connection.Message
import EsphomeApi.Frame.FrameHelper

namespace EsphomeApi

/-! ## Values -/

/-- `connection_state.hpp` -/
inductive ConnectionState where
  | disconnected
  | connecting
  | helloSent
  | connected
  | closing
  | closed
  | failed
  deriving DecidableEq, Repr

/-- `Failed` or `Closed`. -/
def ConnectionState.terminal : ConnectionState → Bool
  | .closed => true
  | .failed => true
  | _ => false

/-- The `std::error_code`s that the connection makes itself, and those of the
transport. An empty code is `none`. -/
inductive ErrorCode where
  | timedOut
  | protocolError
  | permissionDenied
  | connectionAborted
  | transport (value : Nat)
  deriving DecidableEq, Repr

/-- `connection_options.hpp`, as far as the connection reads it. Durations are
milliseconds. -/
structure ConnectionOptions where
  clientInfo : CString := lit "esphome-api-client"
  expectedName : CString := []
  login : Bool := true
  password : CString := []
  connectTimeout : Int := 30000
  keepaliveInterval : Int := 20000
  keepaliveTimeout : Int := 90000

/-- `ServerHello` -/
structure ServerHello where
  apiVersionMajor : Int := 0
  apiVersionMinor : Int := 0
  serverInfo : CString := []
  name : CString := []

/-- A callable of the application. -/
abbrev HandlerId := Nat

abbrev TimerId := Nat

/-- `invalid_timer` -/
def invalidTimer : TimerId := 0

/-- The functions that the connection schedules. -/
inductive TimerCallback where
  | connectTimeout
  | ping
  | pongTimeout
  deriving DecidableEq, Repr

structure Timer where
  id : TimerId
  deadline : Int
  callback : TimerCallback

/-- A call of `schedule_after`: the function, and the state of the connection. -/
structure Schedule where
  callback : TimerCallback
  state : ConnectionState
  deriving DecidableEq, Repr

/-- The executor: a clock and the timers that have not run and are not
cancelled. -/
structure Executor where
  now : Int := 0
  nextId : TimerId := 1
  timers : List Timer := []

/-- What the transport holds of the connection: connect handlers that have not
been called, whether a read handler is installed, completions of
`DisconnectRequest` writes that have not been called (no other write has a
handler), and whether `close` has been called since the last connect. -/
structure Transport where
  connects : Nat := 0
  reading : Bool := false
  completions : Nat := 0
  closed : Bool := false

/-! ## What the outside sees -/

/-- A call of a handler of the application. -/
inductive Invocation where
  | state (handler : HandlerId) (state : ConnectionState)
  | done (handler : HandlerId) (ec : Option ErrorCode)
  | error (handler : HandlerId) (ec : ErrorCode) (what : CString)
  | raw (handler : HandlerId) (frame : Frame)
  | message (handler : HandlerId) (type : UInt32) (msg : ProtoMessage)
  | any (handler : HandlerId) (msg : ProtoMessage)

/-- Who asked for a write. -/
inductive Writer where
  | connection
  | application
  deriving DecidableEq, Repr

inductive Output where
  /-- `start` was called -/
  | started
  /-- `state_` changed -/
  | state (state : ConnectionState)
  | invoked (call : Invocation)
  | connect (host : CString) (port : UInt16)
  | startRead
  /-- a frame was encoded and given to `async_write` -/
  | write (writer : Writer) (frame : Frame) (wire : Bytes)
  /-- the bytes of `connect_bytes` were given to `async_write` -/
  | writeInitial (wire : Bytes)
  | close

/-! ## The connection -/

/-- The members of `Connection`, over the state of its frame helper. An empty
`std::function` is `none`. -/
structure Connection (σ : Type) where
  options : ConnectionOptions
  frameHelper : σ
  state : ConnectionState := .disconnected
  hello : ServerHello := {}
  handlers : UInt32 → Option HandlerId := fun _ => none
  anyHandler : Option HandlerId := none
  rawHandler : Option HandlerId := none
  stateHandler : Option HandlerId := none
  errorHandler : Option HandlerId := none
  connectHandler : Option HandlerId := none
  lastError : Option ApiException := none
  connectTimer : TimerId := invalidTimer
  pingTimer : TimerId := invalidTimer
  pongTimer : TimerId := invalidTimer
  awaitingPong : Bool := false
  executor : Executor := {}
  transport : Transport := {}
  log : List Output := []
  schedules : List Schedule := []

/-- The members that the application calls, other than `start`. -/
inductive Call where
  | disconnect
  | sendRaw (type : UInt32) (payload : Bytes)
  | on (type : UInt32) (handler : Option HandlerId)
  | onAny (handler : Option HandlerId)
  | onRaw (handler : Option HandlerId)
  | onState (handler : Option HandlerId)
  | onError (handler : Option HandlerId)

/-- What a connection is surrounded by. -/
structure Environment (σ : Type) where
  helper : FrameHelper σ
  registry : Registry
  /-- what a handler calls before it returns, when it is invoked -/
  calls : Invocation → Connection σ → List Call
  /-- whether the transport completes the write of `disconnect` before
  `async_write` returns, for the connection as `disconnect` finds it -/
  inline : Connection σ → Bool
  /-- whether a timer is still there to be cancelled -/
  cancels : Connection σ → TimerId → Bool

/-- Handlers that call nothing, a transport that completes writes later and an
executor that cancels. -/
def Environment.quiet {σ : Type} (helper : FrameHelper σ) (registry : Registry) :
    Environment σ where
  helper := helper
  registry := registry
  calls _ _ := []
  inline _ := false
  cancels _ _ := true

/-- What happens to a connection. -/
inductive Event where
  | start (host : CString) (port : UInt16) (onDone : HandlerId)
  | connectResult (ec : Option ErrorCode)
  | bytes (data : Bytes)
  | readError (ec : ErrorCode)
  | writeDone
  | timer (id : TimerId)
  | elapse (ms : Nat)
  | call (call : Call)

end EsphomeApi
