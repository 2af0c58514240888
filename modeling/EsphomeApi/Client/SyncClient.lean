/-
EsphomeApi.Client.SyncClient — the blocking calls of `sync_client.cpp`.

A call runs the event loop in slices of `run_for`. What happens in a slice is a
list of events of the connection, so a call is a function of the slices still
to come. A lambda of a call is a callable like any other, with a number of its
own; what it has written to the call's locals is read off the calls of that
number in the log.
-/
import EsphomeApi.Connection.Acts
import EsphomeApi.Connection.Completion

namespace EsphomeApi

open Library Connection

namespace MessageId

def deviceInfoRequest : UInt32 := 9
def deviceInfoResponse : UInt32 := 10
def listEntitiesRequest : UInt32 := 11
def listEntitiesDoneResponse : UInt32 := 19
def subscribeStatesRequest : UInt32 := 20

end MessageId

/-- What one `run_for` lets happen. -/
abbrev Slice := List Event

/-- How a call ends, if it does. -/
inductive Outcome (α : Type) where
  | returned (value : α)
  | threw (e : ApiException)
  /-- the slices are used up and the call still waits -/
  | waiting
  deriving DecidableEq

/-- A call as far as the slices take it, and the slices it has not used. -/
structure Ran (σ α : Type) where
  outcome : Outcome α
  connection : Connection σ
  slices : List Slice

/-- Go on after a part of a call that returned; its value is not used. -/
def Ran.andThen {σ α β : Type} (ran : Ran σ α) (next : List Slice → Connection σ → Ran σ β) :
    Ran σ β :=
  match ran.outcome with
  | .returned _ => next ran.slices ran.connection
  | .threw e => ⟨.threw e, ran.connection, ran.slices⟩
  | .waiting => ⟨.waiting, ran.connection, ran.slices⟩

section

variable {σ α β : Type} {next : List Slice → Connection σ → Ran σ β}

@[simp] theorem Ran.andThen_returned (value : α) (s : Connection σ) (slices : List Slice) :
    (Ran.mk (.returned value) s slices).andThen next = next slices s := rfl

@[simp] theorem Ran.andThen_threw (e : ApiException) (s : Connection σ) (slices : List Slice) :
    (Ran.mk (α := α) (.threw e) s slices).andThen next = ⟨.threw e, s, slices⟩ := rfl

theorem Ran.andThen_connection (ran : Ran σ α) :
    (ran.andThen fun slices s => ⟨.returned (), s, slices⟩).connection = ran.connection := by
  unfold andThen
  split <;> rfl

theorem Ran.andThen_waiting {ran : Ran σ α} (h : ran.outcome = .waiting) :
    (ran.andThen next).outcome = .waiting := by
  unfold andThen
  rw [h]

end

/-- The message of a reply that a callable was called with. -/
def Output.reply (callback : HandlerId) : Output → Option ProtoMessage
  | .invoked (.message handler _ msg) => if handler = callback then some msg else none
  | _ => none

/-- The result that a connect handler was called with. -/
def Output.result (callback : HandlerId) : Output → Option (Option ErrorCode)
  | .invoked (.done handler ec) => if handler = callback then some ec else none
  | _ => none

/-- The members of `SyncClient` and `ClientOptions` that the calls read; the
options of the connection are the connection's own. -/
structure SyncClient where
  host : CString
  port : UInt16 := 6053
  subscribeOnConnect : Bool := true
  requestTimeout : Int := 30000

namespace SyncClient

variable {σ : Type} (E : Environment σ)

/-- The connection after some slices. -/
def pumped (slices : List Slice) (s : Connection σ) : Connection σ :=
  run (run (step E)) s slices

/-! ## `pump_until` -/

def operationTimedOut (timeout : Int) : ApiException :=
  ⟨.timeoutError, lit "operation timed out after " ++ toCString timeout ++ lit "ms"⟩

/-- The loop of `pump_until`. -/
def pumpLoop (predicate : Connection σ → Bool) (timeout deadline : Int) (slices : List Slice)
    (s : Connection σ) : Ran σ Unit :=
  if predicate s then ⟨.returned (), s, slices⟩
  else if s.executor.now ≥ deadline then ⟨.threw (operationTimedOut timeout), s, slices⟩
  else
    match slices with
    | [] => ⟨.waiting, s, []⟩
    | slice :: slices => pumpLoop predicate timeout deadline slices (run (step E) s slice)

/-- `pump_until` -/
def pumpUntil (predicate : Connection σ → Bool) (timeout : Int) (slices : List Slice)
    (s : Connection σ) : Ran σ Unit :=
  pumpLoop E predicate timeout (s.executor.now + timeout) slices s

/-! ## Requests -/

/-- The replies that a lambda was called with. -/
def replies (callback : HandlerId) (s : Connection σ) : List ProtoMessage :=
  s.log.filterMap (Output.reply callback)

/-- `done`, set by the lambda of a request. -/
def replied (callback : HandlerId) (s : Connection σ) : Bool := !(replies callback s).isEmpty

def notConnected (call : String) : ApiException :=
  ⟨.apiError, lit call ++ lit " called while not connected"⟩

/-- The lambda is installed and the request, which has no fields, is sent. -/
def ask (callback : HandlerId) (request response : UInt32) (s : Connection σ) : Connection σ :=
  sendRaw E .application request [] (on E response (some callback) s)

/-- A call that sends a request, waits for a reply and makes its value of the
replies. -/
def roundTrip {α : Type} (call : String) (callback : HandlerId) (request response : UInt32)
    (timeout : Int) (value : List ProtoMessage → α) (slices : List Slice) (s : Connection σ) :
    Ran σ α :=
  if s.state ≠ .connected then ⟨.threw (notConnected call), s, slices⟩
  else
    (pumpUntil E (replied callback) timeout slices (ask E callback request response s)).andThen
      fun slices s => ⟨.returned (value (replies callback s)), on E response none s, slices⟩

/-- `device_info`. The value is the message that `info` was last made from. -/
def deviceInfo (client : SyncClient) (callback : HandlerId) :
    List Slice → Connection σ → Ran σ (Option ProtoMessage) :=
  roundTrip E "device_info()" callback MessageId.deviceInfoRequest MessageId.deviceInfoResponse
    client.requestTimeout List.getLast?

/-- `list_entities` -/
def listEntities (client : SyncClient) (callback : HandlerId) :
    List Slice → Connection σ → Ran σ Unit :=
  roundTrip E "list_entities()" callback MessageId.listEntitiesRequest
    MessageId.listEntitiesDoneResponse client.requestTimeout fun _ => ()

/-- What `subscribe_states` sends. -/
def subscribe (s : Connection σ) : Connection σ :=
  sendRaw E .application MessageId.subscribeStatesRequest [] s

/-- `subscribe_states` -/
def subscribeStates (slices : List Slice) (s : Connection σ) : Ran σ Unit :=
  if s.state ≠ .connected then ⟨.threw (notConnected "subscribe_states()"), s, slices⟩
  else ⟨.returned (), subscribe E s, slices⟩

/-! ## `connect` -/

/-- The results that the lambda of `connect` was called with. -/
def results (callback : HandlerId) (s : Connection σ) : List (Option ErrorCode) :=
  s.log.filterMap (Output.result callback)

/-- `done`, set by the lambda of `connect`. -/
def completed (callback : HandlerId) (s : Connection σ) : Bool := !(results callback s).isEmpty

/-- `result`, which starts out empty. -/
def result (callback : HandlerId) (s : Connection σ) : Option ErrorCode :=
  (results callback s).getLast?.join

/-- `std::error_code::message` is given. -/
def connectFailed (message : ErrorCode → CString) (ec : ErrorCode) : ApiException :=
  ⟨.connectionError, lit "connect failed: " ++ message ec⟩

/-- `connect_pump_timeout_` -/
def connectPumpTimeout (s : Connection σ) : Int := s.options.connectTimeout + 5000

/-- What `connect` does with a completed attempt. -/
def finish (message : ErrorCode → CString) (client : SyncClient) (onDone callback : HandlerId)
    (slices : List Slice) (s : Connection σ) : Ran σ Unit :=
  match result onDone s with
  | some ec =>
      match s.lastError with
      | some e => ⟨.threw e, s, slices⟩
      | none => ⟨.threw (connectFailed message ec), s, slices⟩
  | none =>
      if client.subscribeOnConnect then
        (subscribeStates E slices s).andThen (client.listEntities E callback)
      else ⟨.returned (), s, slices⟩

/-- `connect` -/
def connect (message : ErrorCode → CString) (client : SyncClient) (onDone callback : HandlerId)
    (slices : List Slice) (s : Connection σ) : Ran σ Unit :=
  (pumpUntil E (completed onDone) (connectPumpTimeout s) slices
    (start E client.host client.port onDone s)).andThen (client.finish E message onDone callback)

end SyncClient

end EsphomeApi
