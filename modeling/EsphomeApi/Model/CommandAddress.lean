/-
EsphomeApi.Model.CommandAddress — which entity a command reaches.

The key goes from the description of the entity through the store, the
registry, the handle, the command and `to_message` into the request
(`keyed_run`, `Obtained.stored`, `Operation.command_key`, `toMessage_key`). The
`device_id` ends in the store: no command has one, so every request carries 0
(`toMessage_deviceId`).
-/
import EsphomeApi.Connection.Completion
import EsphomeApi.Model.EntityHandles
import EsphomeApi.Model.EntityStoreTheorems
import EsphomeApi.Proto.Canonical

namespace EsphomeApi

open Proto Library

/-! ## From the description to the handle -/

namespace EntityStore

/-- An entity and its description have the key of their slot. -/
def Keyed (store : EntityStore) : Prop :=
  ∀ key e, store.find key = some e → e.key = key ∧ ∀ msg, e.info = some msg → msg.key = key

theorem Keyed.put {store : EntityStore} (hs : store.Keyed) {key : UInt32} {e : StoredEntity}
    (hkey : e.key = key) (hinfo : ∀ msg, e.info = some msg → msg.key = key) :
    (store.put key e).Keyed := by
  intro key' e' h'
  by_cases heq : key' = key
  · subst heq
    rw [find_put_self, Option.some_inj] at h'
    exact h' ▸ ⟨hkey, hinfo⟩
  · rw [find_put_ne store e heq] at h'
    exact hs key' e' h'

theorem Keyed.slot_info {store : EntityStore} (hs : store.Keyed) {key : UInt32}
    {msg : DecodedMessage} (h : (store.slot key).info = some msg) : msg.key = key := by
  unfold EntityStore.slot at h
  cases hfind : store.find key with
  | none =>
      rw [hfind] at h
      exact nomatch h
  | some e =>
      rw [hfind] at h
      exact (hs key e hfind).2 msg h

theorem keyed_empty : ({} : EntityStore).Keyed := by
  intro key e h
  rw [find_empty] at h
  exact nomatch h

/-- `ingest` writes under the key of the message. -/
theorem keyed_step (store : EntityStore) (call : Call) (hs : store.Keyed) :
    (store.step call).Keyed := by
  cases call with
  | clear => exact keyed_empty
  | ingest msg =>
      unfold step ingest
      dsimp only
      split
      · split
        · exact hs
        · refine hs.put rfl ?_
          intro msg' h'
          exact Option.some_inj.mp h' ▸ rfl
      · split
        · split
          · exact hs
          · exact hs.put rfl fun msg' h' => hs.slot_info h'
        · exact hs

theorem keyed_run (calls : List Call) : (run step {} calls).Keyed :=
  run_invariant keyed_step keyed_empty calls

theorem find_of_mem_list {store : EntityStore} {e : StoredEntity} (h : e ∈ store.list) :
    ∃ key, store.find key = some e := by
  obtain ⟨⟨key, e'⟩, hmem, rfl⟩ := List.mem_map.mp h
  exact ⟨key, AList.mem_lookup_iff.mpr hmem⟩

end EntityStore

theorem EntityRegistry.one_eq_some {type : EntityType} {e : Option StoredEntity} {entity : Entity}
    (h : one type e = some entity) :
    ∃ stored, e = some stored ∧ stored.type = type ∧ entity = Entity.ofStored stored := by
  unfold one at h
  cases e with
  | none => exact nomatch h
  | some stored =>
      dsimp only at h
      by_cases htype : stored.type = type
      · rw [if_neg (not_not.mpr htype)] at h
        exact ⟨stored, rfl, htype, (Option.some_inj.mp h).symm⟩
      · rw [if_pos htype] at h
        exact nomatch h

theorem EntityRegistry.mem_collect {type : EntityType} {store : EntityStore} {entity : Entity}
    (h : entity ∈ collect type store) :
    ∃ stored ∈ store.list, stored.type = type ∧ entity = Entity.ofStored stored := by
  obtain ⟨stored, hmem, rfl⟩ := List.mem_map.mp h
  obtain ⟨hlist, htype⟩ := List.mem_filter.mp hmem
  exact ⟨stored, hlist, of_decide_eq_true htype, rfl⟩

/-- A handle has the key of an entity of its domain. -/
theorem Obtained.stored {type : EntityType} {store : EntityStore} {entity : Entity}
    (h : Obtained type store entity) (hs : store.Keyed) :
    ∃ stored, store.find entity.key = some stored ∧ stored.type = type := by
  have hof : ∀ {key : UInt32} {stored : StoredEntity}, store.find key = some stored →
      stored.type = type → entity = Entity.ofStored stored →
      ∃ stored, store.find entity.key = some stored ∧ stored.type = type := by
    rintro key stored hfind htype rfl
    refine ⟨stored, ?_, htype⟩
    show store.find stored.key = some stored
    rw [(hs key stored hfind).1, hfind]
  have hlisted : entity ∈ EntityRegistry.collect type store →
      ∃ stored, store.find entity.key = some stored ∧ stored.type = type := by
    intro hmem
    obtain ⟨stored, hlist, htype, hentity⟩ := EntityRegistry.mem_collect hmem
    obtain ⟨key, hfind⟩ := EntityStore.find_of_mem_list hlist
    exact hof hfind htype hentity
  cases h with
  | listed h => exact hlisted h
  | found key h => exact hlisted (List.mem_of_find?_eq_some h)
  | foundById objectId h => exact hlisted (List.mem_of_find?_eq_some h)
  | byKey key h =>
      obtain ⟨stored, hfind, htype, hentity⟩ := EntityRegistry.one_eq_some h
      exact hof hfind htype hentity
  | byObjectId objectId h =>
      obtain ⟨stored, hfound, htype, hentity⟩ := EntityRegistry.one_eq_some h
      obtain ⟨key, hfind⟩ := EntityStore.find_of_mem_list (List.mem_of_find?_eq_some hfound)
      exact hof hfind htype hentity

/-! ## From the handle to the request -/

/-- Every method addresses the command with the key of the handle. -/
theorem Operation.command_key (entity : Entity) (isOn : Bool) {type : EntityType}
    (op : Operation type) : (op.command entity isOn).key = entity.key := by
  cases op <;> rfl

namespace Command

theorem toMessage_wellFormed (c : Command) : c.toMessage.fields.WellFormed := by
  cases c <;> simp [toMessage, Fields.WellFormed, Field.WellFormed, Fields.numbers]

/-- The key is the first member of every request. -/
theorem toMessage_key (c : Command) :
    c.toMessage.fields.word 1 c.toMessage.value = some c.key.toBitVec := by
  cases c <;> rfl

/-- No command sets the `device_id`. -/
theorem toMessage_deviceId (c : Command) :
    c.toMessage.fields.word c.toMessage.deviceIdNumber c.toMessage.value = some 0#32 := by
  cases c <;> rfl

end Command

/-! ## On the wire -/

/-- The payload is a request of this class with this key and `device_id`. -/
def CommandRequest.Carries (request : CommandRequest) (payload : Bytes) (key deviceId : UInt32) :
    Prop :=
  ∃ value, request.fields.decode payload request.fields.fresh = some value ∧
    request.fields.word 1 value = some key.toBitVec ∧
    request.fields.word request.deviceIdNumber value = some deviceId.toBitVec

theorem Command.carries_iff (c : Command)
    (hsize : (c.toMessage.fields.encode c.toMessage.value).length < 2 ^ 64)
    (key deviceId : UInt32) :
    c.toMessage.Carries (c.toMessage.fields.encode c.toMessage.value) key deviceId ↔
      key = c.key ∧ deviceId = 0 := by
  have hdecode := Fields.decode_encode_canonical c.toMessage.value c.toMessage_wellFormed hsize
  have hkey := c.toMessage_key
  have hdeviceId := c.toMessage_deviceId
  rw [← Fields.word_canonical] at hkey hdeviceId
  constructor
  · rintro ⟨value, hvalue, hkey', hdeviceId'⟩
    rw [hdecode, Option.some_inj] at hvalue
    subst hvalue
    rw [hkey, Option.some_inj, UInt32.toBitVec_inj] at hkey'
    rw [hdeviceId, Option.some_inj] at hdeviceId'
    exact ⟨hkey'.symm, UInt32.toBitVec_inj.mp hdeviceId'.symm⟩
  · rintro ⟨rfl, rfl⟩
    exact ⟨_, hdecode, hkey, hdeviceId⟩

/-- Whatever the store has taken in, a command that is issued through a handle
is written as one request with the key that the entity was listed with and no
`device_id`; so the request carries the listed `device_id` exactly if that is 0. -/
theorem command_addressed (calls : List EntityStore.Call) {type : EntityType} {entity : Entity}
    (hobtained : Obtained type (run EntityStore.step {} calls) entity) (op : Operation type)
    (isOn : Bool) {σ : Type} (E : Environment σ) (s : Connection σ)
    (hsize : ((op.command entity isOn).toMessage.fields.encode
      (op.command entity isOn).toMessage.value).length < 2 ^ 64) :
    ∃ stored payload wire, (run EntityStore.step {} calls).find entity.key = some stored ∧
      stored.type = type ∧
      (Connection.sendCommand E (op.command entity isOn) s).log =
        s.log ++ [.write .application ⟨(op.command entity isOn).toMessage.id, payload⟩ wire] ∧
      ∀ msg, stored.info = some msg →
        (op.command entity isOn).toMessage.Carries payload msg.key 0 ∧
        ((op.command entity isOn).toMessage.Carries payload msg.key msg.deviceId ↔
          msg.deviceId = 0) := by
  have hkeyed := EntityStore.keyed_run calls
  obtain ⟨stored, hfind, htype⟩ := hobtained.stored hkeyed
  refine ⟨stored, _, _, hfind, htype, rfl, fun msg hmsg => ?_⟩
  have hkey : msg.key = (op.command entity isOn).key := by
    rw [op.command_key entity isOn]
    exact (hkeyed entity.key stored hfind).2 msg hmsg
  rw [Command.carries_iff _ hsize, Command.carries_iff _ hsize]
  exact ⟨⟨hkey, rfl⟩, ⟨And.right, fun h => ⟨hkey, h⟩⟩⟩

/-- A light that is listed as part of sub-device 7. -/
def lampListing : DecodedMessage where
  cls := infoClass .light
  key := 1
  name := lit "lamp"
  deviceId := 7
  known := infoClass_light_known

/-- Its handle. -/
def lamp : Entity := ⟨1, lit "lamp", lit "lamp"⟩

def lampOn : Operation .light := .lightToggle .turnOn

theorem lamp_obtained : Obtained .light (run EntityStore.step {} [.ingest lampListing]) lamp :=
  .byKey 1 (by decide)

/-- The request that turns on the light of a sub-device. -/
theorem command_addressed_lamp :
    ∃ stored payload wire,
      (run EntityStore.step {} [.ingest lampListing]).find 1 = some stored ∧ stored.type = .light ∧
      (Connection.sendCommand Connection.plaintextEnvironment (lampOn.command lamp false)
          Connection.plaintext).log =
        Connection.plaintext.log ++
          [.write .application ⟨(lampOn.command lamp false).toMessage.id, payload⟩ wire] ∧
      ∀ msg, stored.info = some msg →
        (lampOn.command lamp false).toMessage.Carries payload msg.key 0 ∧
        ((lampOn.command lamp false).toMessage.Carries payload msg.key msg.deviceId ↔
          msg.deviceId = 0) :=
  command_addressed [.ingest lampListing] lamp_obtained lampOn false
    Connection.plaintextEnvironment Connection.plaintext (by decide)

/-- The light is listed with `device_id` 7; what turns it on carries its key and
`device_id` 0, which is another device's. -/
theorem lamp_on_other_device :
    let store := run EntityStore.step {} [.ingest lampListing]
    let request := (lampOn.command lamp false).toMessage
    let payload : Bytes := [0x0d, 0x01, 0x00, 0x00, 0x00, 0x10, 0x01, 0x18, 0x01]
    EntityRegistry.byKey .light store 1 = some lamp ∧
      EntityStore.lightInfo store 1 = .value (parseInfo lampListing) ∧
      (parseInfo lampListing).deviceId = 7 ∧
      (Connection.sendCommand Connection.plaintextEnvironment (lampOn.command lamp false)
          Connection.plaintext).log =
        [.write .application ⟨32, payload⟩ ([0x00, 0x09, 0x20] ++ payload)] ∧
      request.Carries payload 1 0 ∧ ¬ request.Carries payload 1 7 := by
  have hpayload : (lampOn.command lamp false).toMessage.fields.encode
      (lampOn.command lamp false).toMessage.value =
        [0x0d, 0x01, 0x00, 0x00, 0x00, 0x10, 0x01, 0x18, 0x01] := by
    decide
  have hcarries := fun deviceId =>
    (lampOn.command lamp false).carries_iff (by decide) 1 deviceId
  rw [hpayload] at hcarries
  refine ⟨by decide, by decide, rfl, ?_, (hcarries 0).mpr ⟨rfl, rfl⟩, ?_⟩
  · unfold Connection.sendCommand
    rw [hpayload]
    rfl
  · intro hseven
    exact absurd ((hcarries 7).mp hseven).2 (by decide)

end EsphomeApi
