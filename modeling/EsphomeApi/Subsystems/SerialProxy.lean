/-
EsphomeApi.Subsystems.SerialProxy — the modem pins of `serial_proxy.cpp`: the
requests with their one-shot callbacks, and the lambda that
`ensure_modem_pins_handler` registers for the responses.

The lambda moves the callbacks that wait on the instance out of the map before
it invokes the first; what it then still has to do is `todo`, one entry for
each time the application gets control. `turn` is the next of them, and the
calls that the application makes there come with the event. A callback is known
by the position in `log` at which it was registered. The log, and `current`,
the position of the response being handled, are kept for the theorems: no
function of the source reads them.
-/
import Mathlib.Data.List.AList
import EsphomeApi.Library.GuardedRun

namespace EsphomeApi

/-! ## Data -/

structure SerialProxyLineStates where
  rts : Bool := false
  dtr : Bool := false
  deriving DecidableEq, Repr

namespace SerialProxyLineStates

def rtsBit : UInt32 := 1
def dtrBit : UInt32 := 2

/-- `from_bits` -/
def fromBits (bits : UInt32) : SerialProxyLineStates := ⟨bits &&& rtsBit ≠ 0, bits &&& dtrBit ≠ 0⟩

end SerialProxyLineStates

structure SerialProxyModemPins where
  instance_ : UInt32
  lines : SerialProxyLineStates
  deriving DecidableEq, Repr

namespace SerialProxy

/-- `SerialProxyGetModemPinsResponse` -/
structure Response where
  instance_ : UInt32
  lineStates : UInt32
  deriving DecidableEq, Repr

/-- What the handlers get. -/
def Response.pins (response : Response) : SerialProxyModemPins :=
  ⟨response.instance_, .fromBits response.lineStates⟩

/-- The application's name for a persistent handler. -/
abbrev Handler := Nat

/-- The calls of the application. `once` says whether a callback is passed. -/
inductive Call where
  | getModemPins (instance_ : UInt32) (once : Bool)
  | onModemPins (handler : Option Handler)
  deriving DecidableEq, Repr

/-- What the lambda still has to do. -/
inductive Work where
  /-- `cb(out)`, for the callback registered at a position -/
  | once (number : Nat) (pins : SerialProxyModemPins)
  /-- `if (modem_pins_handler_) modem_pins_handler_(out)` -/
  | handler (pins : SerialProxyModemPins)
  deriving DecidableEq, Repr

/-- What happens, as it is recorded. -/
inductive Occurrence where
  /-- a callback is put into the map -/
  | registered (instance_ : UInt32)
  /-- a `SerialProxyGetModemPinsRequest` is sent -/
  | sent (instance_ : UInt32)
  | installed (handler : Option Handler)
  | received (response : Response)
  /-- a callback is invoked, by the response at a position of the log -/
  | completed (cause number : Nat) (pins : SerialProxyModemPins)
  /-- the persistent handler is invoked, if there is one, by the response at a
  position of the log -/
  | handled (cause : Nat) (handler : Option Handler) (pins : SerialProxyModemPins)
  deriving DecidableEq, Repr

end SerialProxy

open SerialProxy in
/-- The members of `SerialProxy` that the modem pins use. -/
structure SerialProxy where
  modemPinsHandler : Option Handler := none
  modemPinsRegistered : Bool := false
  pendingModemPins : AList (fun _ : UInt32 => List Nat) := ∅
  todo : List Work := []
  current : Nat := 0
  log : List Occurrence := []

namespace SerialProxy

def record (o : Occurrence) (s : SerialProxy) : SerialProxy := { s with log := s.log ++ [o] }

/-- `ensure_modem_pins_handler` -/
def ensureModemPinsHandler (s : SerialProxy) : SerialProxy := { s with modemPinsRegistered := true }

/-- The callbacks that wait on an instance. -/
def pending (s : SerialProxy) (instance_ : UInt32) : List Nat :=
  (s.pendingModemPins.lookup instance_).getD []

/-- `pending_modem_pins_[instance].push_back(once)` -/
def push (instance_ : UInt32) (s : SerialProxy) : SerialProxy :=
  { s with
    pendingModemPins :=
      s.pendingModemPins.insert instance_ (s.pending instance_ ++ [s.log.length]) }

/-- `get_modem_pins` -/
def getModemPins (instance_ : UInt32) (once : Bool) (s : SerialProxy) : SerialProxy :=
  let s :=
    if once then (s.ensureModemPinsHandler.push instance_).record (.registered instance_) else s
  s.record (.sent instance_)

/-- `on_modem_pins` -/
def onModemPins (handler : Option Handler) (s : SerialProxy) : SerialProxy :=
  { s with modemPinsHandler := handler }.ensureModemPinsHandler.record (.installed handler)

def call (s : SerialProxy) : Call → SerialProxy
  | .getModemPins instance_ once => s.getModemPins instance_ once
  | .onModemPins handler => s.onModemPins handler

/-- A response arrives. The lambda, if it has been registered, takes the
callbacks of the instance out of the map; they are due, and the persistent
handler after them. -/
def receive (response : Response) (s : SerialProxy) : SerialProxy :=
  let arrived := { s with current := s.log.length, log := s.log ++ [.received response] }
  if s.modemPinsRegistered then
    let due := (s.pending response.instance_).map (Work.once · response.pins)
    { arrived with
      pendingModemPins := s.pendingModemPins.erase response.instance_
      todo := due ++ [.handler response.pins] }
  else arrived

/-- The next thing that the lambda does; `calls` are those of the callback that is
invoked, if one is. -/
def perform (calls : List Call) (s : SerialProxy) : Work → SerialProxy
  | .once number pins => calls.foldl call (s.record (.completed s.current number pins))
  | .handler pins =>
      let s' := s.record (.handled s.current s.modemPinsHandler pins)
      if s.modemPinsHandler = none then s' else calls.foldl call s'

/-! ## Runs -/

inductive Event where
  /-- the application calls the proxy, outside of its callbacks -/
  | call (c : Call)
  | receive (response : Response)
  /-- the lambda goes on -/
  | turn (calls : List Call)
  deriving DecidableEq, Repr

/-- One thread runs the application and the lambda: while the lambda has something
to do, nothing is called from outside and no response is handled. -/
def step (s : SerialProxy) : Event → SerialProxy
  | .call c => if s.todo = [] then s.call c else s
  | .receive response => if s.todo = [] then s.receive response else s
  | .turn calls =>
      match s.todo with
      | [] => s
      | work :: rest => perform calls { s with todo := rest } work

end SerialProxy

end EsphomeApi
