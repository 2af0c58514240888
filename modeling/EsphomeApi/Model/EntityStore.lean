/-
EsphomeApi.Model.EntityStore — `EntityStore` of `entity_store.cpp`: one slot
per 32-bit key, filled by two branches of `ingest` that recognise a message by
its name, and read by typed accessors that check the slot's `type` tag and
then `static_cast` the stored message.

A `static_cast` to a class that is not the message's dynamic type is undefined
behaviour; the accessors return `undefinedCast` there.
-/
import Mathlib.Data.List.AList
import EsphomeApi.Model.EntityType

namespace EsphomeApi

/-- A decoded message, as the store and the parsers of the entity domains read
it: its class, the accessors that every `ListEntities*Response` has, and the
fields of its own domain, which the store only clones. A message without one of
the accessors has its default here, and nothing reads it. -/
structure DecodedMessage where
  cls : MessageClass
  key : UInt32 := 0
  objectId : CString := []
  name : CString := []
  icon : CString := []
  disabledByDefault : Bool := false
  entityCategory : Int := 0
  deviceId : UInt32 := 0
  ownFields : CString := []
  known : cls.Known := by decide
  deriving DecidableEq

/-! ## `entity_common.hpp` -/

/-- `std::tolower` in the "C" locale. -/
def tolower (ch : UInt8) : UInt8 := if 65 ≤ ch ∧ ch ≤ 90 then ch + 32 else ch

/-- One character of `object_id_from_name`; `none` is dropped. -/
def sanitizeChar (ch : UInt8) : Option UInt8 :=
  let c := tolower ch
  let c := if c = 32 then 95 else c
  if c = 45 ∨ c = 95 ∨ (48 ≤ c ∧ c ≤ 57) ∨ (97 ≤ c ∧ c ≤ 122) then some c else none

/-- `object_id_from_name`. -/
def objectIdFromName (name : CString) : CString := name.filterMap sanitizeChar

/-- A domain's `<X>Info`: the members of `EntityInfo` and the domain's own. -/
structure EntityInfo where
  key : UInt32
  objectId : CString
  name : CString
  icon : CString
  disabledByDefault : Bool
  entityCategory : Int
  deviceId : UInt32
  ownFields : CString
  deriving DecidableEq

/-- The `object_id` of the message, or one derived from its name. -/
def DecodedMessage.objectIdOrDerived (msg : DecodedMessage) : CString :=
  if msg.objectId.isEmpty then objectIdFromName msg.name else msg.objectId

/-- `parse_<x>_info`: `fill_entity_info`, then the domain's own metadata. -/
def parseInfo (msg : DecodedMessage) : EntityInfo where
  key := msg.key
  name := msg.name
  objectId := msg.objectIdOrDerived
  icon := msg.icon
  disabledByDefault := msg.disabledByDefault
  entityCategory := msg.entityCategory
  deviceId := msg.deviceId
  ownFields := msg.ownFields

/-- A domain's `<X>State`. -/
structure EntityState where
  key : UInt32
  ownFields : CString
  deriving DecidableEq

/-- `parse_<x>_state`. -/
def parseState (msg : DecodedMessage) : EntityState := ⟨msg.key, msg.ownFields⟩

/-! ## The store -/

structure StoredEntity where
  type : EntityType := .unknown
  key : UInt32 := 0
  objectId : CString := []
  name : CString := []
  info : Option DecodedMessage := none
  state : Option DecodedMessage := none

/-- `entities_`. The iteration order of the unordered map is the library's
own; the accessors by key do not depend on it. -/
structure EntityStore where
  entities : AList (fun _ : UInt32 => StoredEntity) := ∅

namespace EntityStore

def clear (_ : EntityStore) : EntityStore := {}

def size (store : EntityStore) : Nat := store.entities.keys.length

def find (store : EntityStore) (key : UInt32) : Option StoredEntity :=
  store.entities.lookup key

/-- `entities_[key]`, which inserts a default entity where there is none. -/
def slot (store : EntityStore) (key : UInt32) : StoredEntity := (store.find key).getD {}

/-- Writing through the reference that `entities_[key]` returns. -/
def put (store : EntityStore) (key : UInt32) (e : StoredEntity) : EntityStore :=
  ⟨store.entities.insert key e⟩

/-- `name.size() > n && name.substr(name.size() - n) == suffix`, `n` being the
length of the suffix. -/
def longSuffix (suffix name : CString) : Bool :=
  decide (name.length > suffix.length) &&
    name.drop (name.length - suffix.length) == suffix

def isList (name : CString) : Bool :=
  (lit "ListEntities").isPrefixOf name && longSuffix (lit "Response") name &&
    name != lit "ListEntitiesDoneResponse" && name != lit "ListEntitiesServicesResponse"

def isEvent (name : CString) : Bool := name == lit "EventResponse"

def isState (name : CString) : Bool := isEvent name || longSuffix (lit "StateResponse") name

/-- What the list branch writes into the slot. -/
def describe (type : EntityType) (msg : DecodedMessage) (e : StoredEntity) : StoredEntity :=
  { e with
    type := type
    key := msg.key
    name := msg.name
    objectId := msg.objectIdOrDerived
    info := some msg }

/-- What the state branch writes into the slot: the tag only if it is still
`Unknown`. -/
def observe (type : EntityType) (msg : DecodedMessage) (e : StoredEntity) : StoredEntity :=
  { e with
    type := if e.type = .unknown then type else e.type
    key := msg.key
    state := some msg }

/-- What a call to `ingest` does: its result, the arguments `state_cb_` is
called with (last, when one is installed), and the store it leaves. -/
structure Ingested where
  accepted : Bool
  fired : Option (EntityType × UInt32)
  store : EntityStore

def ingest (store : EntityStore) (msg : DecodedMessage) : Ingested :=
  let name := msg.cls.name
  if isList name then
    -- the `dynamic_cast` fails
    if msg.cls.base ≠ .infoResponseBase then ⟨false, none, store⟩
    else
      let token := (name.drop 12).take (name.length - 12 - 8)
      let type := entityTypeFromToken token
      ⟨true, none, store.put msg.key (describe type msg (store.slot msg.key))⟩
  else if isState name then
    if msg.cls.base ≠ .stateResponseBase then ⟨false, none, store⟩
    else
      let token := if isEvent name then lit "Event" else name.take (name.length - 13)
      let type := entityTypeFromToken token
      ⟨true, some (type, msg.key), store.put msg.key (observe type msg (store.slot msg.key))⟩
  else ⟨false, none, store⟩

/-! ## Typed accessors -/

/-- What a typed accessor returns. -/
inductive Accessed (α : Type) where
  | nullopt
  | value (a : α)
  | undefinedCast
  deriving DecidableEq

/-- `parse(static_cast<const cls&>(*msg))`. -/
def parseAs {α : Type} (cls : MessageClass) (parse : DecodedMessage → α)
    (msg : DecodedMessage) : Accessed α :=
  if msg.cls = cls then .value (parse msg) else .undefinedCast

/-- The common body of the accessors: the slot of the key, if its tag is `type`
and it holds the `info` or `state` asked for, cast to `cls` and parsed. -/
def accessor {α : Type} (type : EntityType) (part : StoredEntity → Option DecodedMessage)
    (cls : MessageClass) (parse : DecodedMessage → α) (store : EntityStore) (key : UInt32) :
    Accessed α :=
  match store.find key with
  | none => .nullopt
  | some e =>
      if e.type ≠ type then .nullopt
      else
        match part e with
        | none => .nullopt
        | some msg => parseAs cls parse msg

/-- The `info` accessor of a domain. -/
def infoAccessor (type : EntityType) : EntityStore → UInt32 → Accessed EntityInfo :=
  accessor type StoredEntity.info (infoClass type) parseInfo

/-- The `state` accessor of a domain. -/
def stateAccessor (type : EntityType) : EntityStore → UInt32 → Accessed EntityState :=
  accessor type StoredEntity.state (stateClass type) parseState

def binarySensorInfo := infoAccessor .binarySensor
def binarySensorState := stateAccessor .binarySensor
def sensorInfo := infoAccessor .sensor
def sensorState := stateAccessor .sensor
def textSensorInfo := infoAccessor .textSensor
def textSensorState := stateAccessor .textSensor
def switchInfo := infoAccessor .switch
def switchState := stateAccessor .switch
def lightInfo := infoAccessor .light
def lightState := stateAccessor .light
def coverInfo := infoAccessor .cover
def coverState := stateAccessor .cover
def fanInfo := infoAccessor .fan
def fanState := stateAccessor .fan
def climateInfo := infoAccessor .climate
def climateState := stateAccessor .climate
def numberInfo := infoAccessor .number
def numberState := stateAccessor .number
def selectInfo := infoAccessor .select
def selectState := stateAccessor .select
def textInfo := infoAccessor .text
def textState := stateAccessor .text
def buttonInfo := infoAccessor .button
def lockInfo := infoAccessor .lock
def lockState := stateAccessor .lock
def mediaPlayerInfo := infoAccessor .mediaPlayer
def mediaPlayerState := stateAccessor .mediaPlayer
def cameraInfo := infoAccessor .camera
def sirenInfo := infoAccessor .siren
def sirenState := stateAccessor .siren
def alarmControlPanelInfo := infoAccessor .alarmControlPanel
def alarmControlPanelState := stateAccessor .alarmControlPanel
def dateInfo := infoAccessor .date
def dateState := stateAccessor .date
def timeInfo := infoAccessor .time
def timeState := stateAccessor .time
def datetimeInfo := infoAccessor .dateTime
def datetimeState := stateAccessor .dateTime
def valveInfo := infoAccessor .valve
def valveState := stateAccessor .valve
def eventInfo := infoAccessor .event
def eventState := stateAccessor .event
def updateInfo := infoAccessor .update
def updateState := stateAccessor .update
def waterHeaterInfo := infoAccessor .waterHeater
def waterHeaterState := stateAccessor .waterHeater
def infraredInfo := infoAccessor .infrared
def radioFrequencyInfo := infoAccessor .radioFrequency

/-- The domains' `info` accessors, in the order of `entityDomains`. -/
def infoAccessors : List (EntityStore → UInt32 → Accessed EntityInfo) :=
  [binarySensorInfo, sensorInfo, textSensorInfo, switchInfo, lightInfo, coverInfo, fanInfo,
    climateInfo, numberInfo, selectInfo, textInfo, buttonInfo, lockInfo, mediaPlayerInfo,
    cameraInfo, sirenInfo, alarmControlPanelInfo, dateInfo, timeInfo, datetimeInfo, valveInfo,
    eventInfo, updateInfo, waterHeaterInfo, infraredInfo, radioFrequencyInfo]

/-- The domains' `state` accessors, in the order of `stateDomains`. -/
def stateAccessors : List (EntityStore → UInt32 → Accessed EntityState) :=
  [binarySensorState, sensorState, textSensorState, switchState, lightState, coverState,
    fanState, climateState, numberState, selectState, textState, lockState, mediaPlayerState,
    sirenState, alarmControlPanelState, dateState, timeState, datetimeState, valveState,
    eventState, updateState, waterHeaterState]

theorem infoAccessors_eq : infoAccessors = entityDomains.map infoAccessor := rfl

theorem stateAccessors_eq : stateAccessors = stateDomains.map stateAccessor := rfl

end EntityStore

end EsphomeApi
