/-
EsphomeApi.Transport.TcpTransport — the write side of `tcp_transport.cpp`.

`writeQueue` and `writing` are the members. Beside them stand the operations
that asio has not completed, and what the outside sees: every call of
`async_write`, every byte that left, with the call it belongs to, and every
completion, oldest first. A completion handler may call `async_write` and
`close` before it returns; what it calls is a parameter, `Reactions`, and may
depend on everything so far.
-/
import EsphomeApi.Connection.State

namespace EsphomeApi

/-- An entry of `write_queue_`. An empty `std::function` is `none`. -/
structure PendingWrite where
  data : Bytes
  handler : Option HandlerId
  deriving DecidableEq

/-- A byte on the wire, with the number of the call that it was given to. -/
structure SentByte where
  call : Nat
  byte : UInt8
  deriving DecidableEq

/-- An `asio::async_write` that has not completed: the call it was started for
and the bytes that it has still to send. -/
structure WriteOperation where
  call : Nat
  unsent : Bytes
  deriving DecidableEq

/-- A completion, and how many writes were queued behind the one completed. -/
structure WriteCompletion where
  write : PendingWrite
  ec : Option ErrorCode
  behind : Nat
  deriving DecidableEq

structure TcpTransport where
  isOpen : Bool := false
  writeQueue : List PendingWrite := []
  writing : Bool := false
  operations : List WriteOperation := []
  calls : List PendingWrite := []
  sent : List SentByte := []
  completed : List WriteCompletion := []
  deriving DecidableEq

namespace TcpTransport

/-- `do_write` -/
def doWrite (t : TcpTransport) : TcpTransport :=
  match t.writeQueue with
  | [] => { t with writing := false }
  | write :: _ =>
      { t with
        writing := true
        operations := t.operations ++ [⟨t.completed.length, write.data⟩] }

@[simp] theorem doWrite_writeQueue (t : TcpTransport) : (doWrite t).writeQueue = t.writeQueue := by
  unfold doWrite
  split
  · rename_i hqueue
    simp [hqueue]
  · simp

@[simp] theorem doWrite_calls (t : TcpTransport) : (doWrite t).calls = t.calls := by
  unfold doWrite
  split <;> rfl

@[simp] theorem doWrite_sent (t : TcpTransport) : (doWrite t).sent = t.sent := by
  unfold doWrite
  split <;> rfl

@[simp] theorem doWrite_completed (t : TcpTransport) : (doWrite t).completed = t.completed := by
  unfold doWrite
  split <;> rfl

/-- The member functions that a completion handler may call. -/
inductive Request where
  | asyncWrite (write : PendingWrite)
  | close
  deriving DecidableEq

/-- `write_queue_.push_back` -/
def push (write : PendingWrite) (t : TcpTransport) : TcpTransport :=
  { t with writeQueue := t.writeQueue ++ [write], calls := t.calls ++ [write] }

/-- `async_write` -/
def asyncWrite (write : PendingWrite) (t : TcpTransport) : TcpTransport :=
  let t := push write t
  if t.writing then t else doWrite t

/-- `close` -/
def close (t : TcpTransport) : TcpTransport := { t with isOpen := false }

def perform (t : TcpTransport) : Request → TcpTransport
  | .asyncWrite write => asyncWrite write t
  | .close => close t

/-- What a handler calls when it is invoked. -/
abbrev Reactions : Type := TcpTransport → HandlerId → Option ErrorCode → List Request

variable (react : Reactions)

/-- `write_queue_.pop_front()` -/
def pop (ec : Option ErrorCode) (write : PendingWrite) (rest : List PendingWrite)
    (t : TcpTransport) : TcpTransport :=
  { t with
    writeQueue := rest
    completed := t.completed ++ [⟨write, ec, rest.length⟩] }

/-- What the handler of a write calls; an empty handler is not invoked. -/
def reactions (write : PendingWrite) (ec : Option ErrorCode) (t : TcpTransport) : List Request :=
  match write.handler with
  | some handler => react t handler ec
  | none => []

/-- The completion that `do_write` gives to asio. The queue is not empty then
(`Serial.operations`). -/
def onWritten (ec : Option ErrorCode) (t : TcpTransport) : TcpTransport :=
  match t.writeQueue with
  | [] => t
  | write :: rest =>
      let t := pop ec write rest t
      let t := (reactions react write ec t).foldl perform t
      if ec.isSome then { t with writing := false } else doWrite t

/-! ## Runs -/

/-- What happens to the transport. An operation is named by its place among
those outstanding. -/
inductive Event where
  | connected
  | request (request : Request)
  /-- the socket takes bytes of an operation -/
  | transfer (operation : Nat) (count : Nat)
  /-- asio completes an operation -/
  | complete (operation : Nat) (ec : Option ErrorCode)

/-- The bytes that a transfer puts on the wire. -/
def moved (t : TcpTransport) (operation count : Nat) : List SentByte :=
  match t.operations[operation]? with
  | some op => if t.isOpen then (op.unsent.take count).map (⟨op.call, ·⟩) else []
  | none => []

/-- An operation sends from its front. -/
def transfer (operation count : Nat) (t : TcpTransport) : TcpTransport :=
  let out := moved t operation count
  { t with
    operations := t.operations.modify operation fun op =>
      { op with unsent := op.unsent.drop out.length }
    sent := t.sent ++ out }

/-- Whether asio can complete an operation so: without an error only when its
bytes are all sent. -/
def completes (operation : Nat) (ec : Option ErrorCode) (t : TcpTransport) : Bool :=
  match t.operations[operation]? with
  | some op => ec.isSome || op.unsent.isEmpty
  | none => false

def step (t : TcpTransport) : Event → TcpTransport
  | .connected => { t with isOpen := true }
  | .request request => perform t request
  | .transfer operation count => transfer operation count t
  | .complete operation ec =>
      if completes operation ec t then
        onWritten react ec { t with operations := t.operations.eraseIdx operation }
      else t

end TcpTransport

end EsphomeApi
