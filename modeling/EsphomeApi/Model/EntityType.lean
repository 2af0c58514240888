/-
EsphomeApi.Model.EntityType — the entity domains of `entity_type.hpp`, the two
name conversions of `entity_type.cpp`, and the message classes of `api.proto`
that the entity store tells apart: their names and their `(base_class)`.
-/
import Mathlib.Data.List.Nodup
import EsphomeApi.Exception

namespace EsphomeApi

/-- One per entity domain. -/
inductive EntityType where
  | unknown
  | binarySensor
  | sensor
  | textSensor
  | switch
  | light
  | cover
  | fan
  | climate
  | number
  | select
  | text
  | button
  | lock
  | mediaPlayer
  | camera
  | siren
  | alarmControlPanel
  | date
  | time
  | dateTime
  | valve
  | event
  | update
  | waterHeater
  | infrared
  | radioFrequency
  deriving DecidableEq, Repr

/-- `entity_type_name`. -/
def entityTypeName : EntityType → CString
  | .binarySensor => lit "BinarySensor"
  | .sensor => lit "Sensor"
  | .textSensor => lit "TextSensor"
  | .switch => lit "Switch"
  | .light => lit "Light"
  | .cover => lit "Cover"
  | .fan => lit "Fan"
  | .climate => lit "Climate"
  | .number => lit "Number"
  | .select => lit "Select"
  | .text => lit "Text"
  | .button => lit "Button"
  | .lock => lit "Lock"
  | .mediaPlayer => lit "MediaPlayer"
  | .camera => lit "Camera"
  | .siren => lit "Siren"
  | .alarmControlPanel => lit "AlarmControlPanel"
  | .date => lit "Date"
  | .time => lit "Time"
  | .dateTime => lit "DateTime"
  | .valve => lit "Valve"
  | .event => lit "Event"
  | .update => lit "Update"
  | .waterHeater => lit "WaterHeater"
  | .infrared => lit "Infrared"
  | .radioFrequency => lit "RadioFrequency"
  | .unknown => lit "Unknown"

/-- Every domain but `Unknown`, in the order of the map in
`entity_type_from_token`. -/
def entityDomains : List EntityType :=
  [.binarySensor, .sensor, .textSensor, .switch, .light, .cover, .fan, .climate, .number,
    .select, .text, .button, .lock, .mediaPlayer, .camera, .siren, .alarmControlPanel, .date,
    .time, .dateTime, .valve, .event, .update, .waterHeater, .infrared, .radioFrequency]

/-- `entity_type_from_token`: the map takes each domain's name back to it. -/
def entityTypeFromToken (token : CString) : EntityType :=
  (entityDomains.find? fun t => entityTypeName t = token).getD .unknown

/-! ## Message classes -/

/-- The C++ base class of a generated message class. -/
inductive BaseClass where
  | protoMessage
  | infoResponseBase
  | stateResponseBase
  deriving DecidableEq, Repr

/-- A generated message class: `message_name()` and what a `dynamic_cast` to
the two intermediate bases sees. -/
structure MessageClass where
  name : CString
  base : BaseClass
  deriving DecidableEq, Repr

/-- `ListEntities<T>Response`. -/
def infoClass (t : EntityType) : MessageClass :=
  ⟨lit "ListEntities" ++ entityTypeName t ++ lit "Response", .infoResponseBase⟩

/-- The state message of domain `T`: `<T>StateResponse`, but `EventResponse`
for events. -/
def stateClass : EntityType → MessageClass
  | .event => ⟨lit "EventResponse", .stateResponseBase⟩
  | t => ⟨entityTypeName t ++ lit "StateResponse", .stateResponseBase⟩

/-- The domains that have a state message. -/
def stateDomains : List EntityType :=
  [.binarySensor, .sensor, .textSensor, .switch, .light, .cover, .fan, .climate, .number,
    .select, .text, .lock, .mediaPlayer, .siren, .alarmControlPanel, .date, .time, .dateTime,
    .valve, .event, .update, .waterHeater]

/-- Carries the base class of a state message, but not its name. -/
def cameraImageResponse : MessageClass := ⟨lit "CameraImageResponse", .stateResponseBase⟩

/-- The message classes of `api.proto` with a `(base_class)` of their own. -/
def entityClasses : List MessageClass :=
  entityDomains.map infoClass ++ stateDomains.map stateClass ++ [cameraImageResponse]

/-- A class of `api.proto`: one of the above, or one that derives from
`ProtoMessage` directly, whatever its name. -/
def MessageClass.Known (c : MessageClass) : Prop :=
  c.base = .protoMessage ∨ c ∈ entityClasses

instance (c : MessageClass) : Decidable c.Known :=
  inferInstanceAs (Decidable (_ ∨ _))

theorem mem_unknown_cons (t : EntityType) : t ∈ EntityType.unknown :: entityDomains := by
  cases t <;> decide

theorem entityTypeName_injective {t u : EntityType} (h : entityTypeName t = entityTypeName u) :
    t = u := by
  have hnodup : ((EntityType.unknown :: entityDomains).map entityTypeName).Nodup := by decide
  exact List.inj_on_of_nodup_map hnodup (mem_unknown_cons t) (mem_unknown_cons u) h

theorem infoClass_injective {t u : EntityType} (h : infoClass t = infoClass u) : t = u := by
  simp only [infoClass, MessageClass.mk.injEq, List.append_assoc, List.append_cancel_left_eq,
    List.append_cancel_right_eq, and_true] at h
  exact entityTypeName_injective h

theorem stateClass_injective {t u : EntityType} (h : stateClass t = stateClass u) : t = u := by
  have hnodup : ((EntityType.unknown :: entityDomains).map stateClass).Nodup := by decide
  exact List.inj_on_of_nodup_map hnodup (mem_unknown_cons t) (mem_unknown_cons u) h

theorem stateClass_base (t : EntityType) : (stateClass t).base = .stateResponseBase := by
  cases t <;> rfl

theorem infoClass_ne_stateClass (t u : EntityType) : infoClass t ≠ stateClass u := by
  intro h
  have hbase := congrArg MessageClass.base h
  rw [stateClass_base] at hbase
  exact nomatch hbase

theorem infoClass_unknown_not_known : ¬ (infoClass .unknown).Known := by decide

theorem infoClass_switch_known : (infoClass .switch).Known := by decide

theorem infoClass_light_known : (infoClass .light).Known := by decide

theorem stateClass_light_known : (stateClass .light).Known := by decide

end EsphomeApi
