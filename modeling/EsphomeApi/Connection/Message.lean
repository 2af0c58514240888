/-
EsphomeApi.Connection.Message — the messages that `connection.cpp` sends or
looks into, and the registry of message ids.

The classes of these messages are those that `api.proto` declares. The other
classes of the registry are generated from the same file; the connection only
parses them and hands them on, so a registry may hold any of them.
-/
import EsphomeApi.Proto.Codec

namespace EsphomeApi

open Proto

/-! ## Message ids and classes -/

namespace MessageId

def helloRequest : UInt32 := 1
def helloResponse : UInt32 := 2
def authenticationRequest : UInt32 := 3
def authenticationResponse : UInt32 := 4
def disconnectRequest : UInt32 := 5
def disconnectResponse : UInt32 := 6
def pingRequest : UInt32 := 7
def pingResponse : UInt32 := 8

end MessageId

/-- `client_info`, `api_version_major`, `api_version_minor` -/
@[reducible] def HelloRequest : Fields :=
  .cons 1 .blob (.cons 2 (.scalar .uint32) (.cons 3 (.scalar .uint32) .nil))

/-- `api_version_major`, `api_version_minor`, `server_info`, `name` -/
@[reducible] def HelloResponse : Fields :=
  .cons 1 (.scalar .uint32) (.cons 2 (.scalar .uint32) (.cons 3 .blob (.cons 4 .blob .nil)))

/-- `password` -/
@[reducible] def AuthenticationRequest : Fields := .cons 1 .blob .nil

/-- `invalid_password` -/
@[reducible] def AuthenticationResponse : Fields := .cons 1 (.scalar .bool) .nil

/-- `DisconnectRequest`, `DisconnectResponse`, `PingRequest` and `PingResponse`
have no fields. -/
@[reducible] def EmptyMessage : Fields := .nil

/-- A decoded message. -/
inductive ProtoMessage where
  | helloRequest (v : HelloRequest.Value)
  | helloResponse (v : HelloResponse.Value)
  | authenticationRequest (v : AuthenticationRequest.Value)
  | authenticationResponse (v : AuthenticationResponse.Value)
  | disconnectRequest
  | disconnectResponse
  | pingRequest
  | pingResponse
  | other (type : UInt32) (fields : Fields) (v : fields.Value)

/-! ## The registry -/

/-- The registry: `message_id_max` and the classes of the ids that are not in
`MessageId`. No id is above `message_id_max`. -/
structure Registry where
  messageIdMax : UInt32
  others : UInt32 → Option Fields
  core_le : 8 ≤ messageIdMax
  others_le : ∀ id, (others id).isSome → id ≤ messageIdMax

/-- A registry of the connection's own messages only. -/
def Registry.core : Registry where
  messageIdMax := 8
  others _ := none
  core_le := by decide
  others_le _ h := nomatch h

/-- `ParseFromArray` of a message just created. -/
def parseFromArray (fields : Fields) (make : fields.Value → ProtoMessage) (payload : Bytes) :
    Option ProtoMessage :=
  (fields.decode payload fields.fresh).map make

/-- `MessageRegistry::create`, with the parser of the message it makes. -/
def Registry.create (registry : Registry) (id : UInt32) : Option (Bytes → Option ProtoMessage) :=
  if id = MessageId.helloRequest then some (parseFromArray HelloRequest .helloRequest)
  else if id = MessageId.helloResponse then some (parseFromArray HelloResponse .helloResponse)
  else if id = MessageId.authenticationRequest then
    some (parseFromArray AuthenticationRequest .authenticationRequest)
  else if id = MessageId.authenticationResponse then
    some (parseFromArray AuthenticationResponse .authenticationResponse)
  else if id = MessageId.disconnectRequest then
    some (parseFromArray EmptyMessage fun _ => .disconnectRequest)
  else if id = MessageId.disconnectResponse then
    some (parseFromArray EmptyMessage fun _ => .disconnectResponse)
  else if id = MessageId.pingRequest then some (parseFromArray EmptyMessage fun _ => .pingRequest)
  else if id = MessageId.pingResponse then some (parseFromArray EmptyMessage fun _ => .pingResponse)
  else (registry.others id).map fun fields => parseFromArray fields (.other id fields)

/-- Every id that the registry knows has a slot in the table of handlers. -/
theorem Registry.create_le (registry : Registry) {id : UInt32}
    (h : (registry.create id).isSome) : id ≤ registry.messageIdMax := by
  have hcore := registry.core_le
  by_cases hle : id ≤ 8
  · exact UInt32.le_trans hle hcore
  · have hne : ∀ n : UInt32, n ≤ 8 → id ≠ n := fun n hn heq => hle (heq ▸ hn)
    unfold create at h
    rw [if_neg (hne _ (by decide)), if_neg (hne _ (by decide)), if_neg (hne _ (by decide)),
      if_neg (hne _ (by decide)), if_neg (hne _ (by decide)), if_neg (hne _ (by decide)),
      if_neg (hne _ (by decide)), if_neg (hne _ (by decide)), Option.isSome_map] at h
    exact registry.others_le id h

end EsphomeApi
