/-
EsphomeApi.Model.EntityHandles — the handles of `entity_handles.hpp` and the
registry of `entity_registry.hpp` that makes them.

A handle is a copy of an entity's identity; its methods make a command from it
and send that. `Operation` lists the methods that send a `CommandRequest`, by
the domain of the handle; `Operation.command` is the command that each sends.
-/
import EsphomeApi.Connection.Machine
import EsphomeApi.Model.Commands
import EsphomeApi.Model.EntityStore

namespace EsphomeApi

open Proto

/-- `Entity`, without the client. -/
structure Entity where
  key : UInt32
  objectId : CString
  name : CString
  deriving DecidableEq

/-! ## The registry -/

namespace EntityStore

/-- `entities`, in the order of the map. -/
def list (store : EntityStore) : List StoredEntity := store.entities.entries.map Sigma.snd

/-- `find_by_object_id` -/
def findByObjectId (store : EntityStore) (objectId : CString) : Option StoredEntity :=
  store.list.find? fun e => e.objectId = objectId

end EntityStore

/-- The constructor of a handle, as the registry calls it. -/
def Entity.ofStored (e : StoredEntity) : Entity := ⟨e.key, e.objectId, e.name⟩

namespace EntityRegistry

/-- `collect` -/
def collect (type : EntityType) (store : EntityStore) : List Entity :=
  (store.list.filter fun e => e.type = type).map Entity.ofStored

/-- `one` -/
def one (type : EntityType) (e : Option StoredEntity) : Option Entity :=
  match e with
  | none => none
  | some e => if e.type ≠ type then none else some (Entity.ofStored e)

/-- The accessor of one entity of a domain, by its key. -/
def byKey (type : EntityType) (store : EntityStore) (key : UInt32) : Option Entity :=
  one type (store.find key)

/-- The accessor of one entity of a domain, by its `object_id`. -/
def byObjectId (type : EntityType) (store : EntityStore) (objectId : CString) : Option Entity :=
  one type (store.findByObjectId objectId)

/-- `size`: of all domains. -/
def size (store : EntityStore) : Nat := store.size

-- The two overloads of an accessor differ in their argument: a key or an `object_id`.
def binarySensors := collect .binarySensor
def binarySensor := byKey .binarySensor
def binarySensorByObjectId := byObjectId .binarySensor
def sensors := collect .sensor
def sensor := byKey .sensor
def sensorByObjectId := byObjectId .sensor
def textSensors := collect .textSensor
def textSensor := byKey .textSensor
def textSensorByObjectId := byObjectId .textSensor
def switches := collect .switch
def switch_ := byKey .switch
def switchByObjectId := byObjectId .switch
def lights := collect .light
def light := byKey .light
def lightByObjectId := byObjectId .light
def covers := collect .cover
def cover := byKey .cover
def coverByObjectId := byObjectId .cover
def fans := collect .fan
def fan := byKey .fan
def fanByObjectId := byObjectId .fan
def climates := collect .climate
def climate := byKey .climate
def climateByObjectId := byObjectId .climate
def numbers := collect .number
def number := byKey .number
def numberByObjectId := byObjectId .number
def selects := collect .select
def select := byKey .select
def selectByObjectId := byObjectId .select
def texts := collect .text
def text := byKey .text
def textByObjectId := byObjectId .text
def buttons := collect .button
def button := byKey .button
def buttonByObjectId := byObjectId .button
def locks := collect .lock
def lock := byKey .lock
def lockByObjectId := byObjectId .lock
def mediaPlayers := collect .mediaPlayer
def mediaPlayer := byKey .mediaPlayer
def mediaPlayerByObjectId := byObjectId .mediaPlayer
def cameras := collect .camera
def camera := byKey .camera
def cameraByObjectId := byObjectId .camera
def sirens := collect .siren
def siren := byKey .siren
def sirenByObjectId := byObjectId .siren
def alarmControlPanels := collect .alarmControlPanel
def alarmControlPanel := byKey .alarmControlPanel
def alarmControlPanelByObjectId := byObjectId .alarmControlPanel
def dates := collect .date
def date := byKey .date
def dateByObjectId := byObjectId .date
def times := collect .time
def time := byKey .time
def timeByObjectId := byObjectId .time
def datetimes := collect .dateTime
def datetime := byKey .dateTime
def datetimeByObjectId := byObjectId .dateTime
def valves := collect .valve
def valve := byKey .valve
def valveByObjectId := byObjectId .valve
def events := collect .event
def event := byKey .event
def eventByObjectId := byObjectId .event
def updates := collect .update
def update := byKey .update
def updateByObjectId := byObjectId .update
def waterHeaters := collect .waterHeater
def waterHeater := byKey .waterHeater
def waterHeaterByObjectId := byObjectId .waterHeater
def infrareds := collect .infrared
def infrared := byKey .infrared
def infraredByObjectId := byObjectId .infrared
def radioFrequencys := collect .radioFrequency
def radioFrequency := byKey .radioFrequency
def radioFrequencyByObjectId := byObjectId .radioFrequency

/-- The lists of the domains, in the order of `entityDomains`. -/
def lists : List (EntityStore → List Entity) :=
  [binarySensors, sensors, textSensors, switches, lights, covers, fans, climates, numbers,
    selects, texts, buttons, locks, mediaPlayers, cameras, sirens, alarmControlPanels, dates,
    times, datetimes, valves, events, updates, waterHeaters, infrareds, radioFrequencys]

/-- The accessors of the domains by key, in the same order. -/
def keyAccessors : List (EntityStore → UInt32 → Option Entity) :=
  [binarySensor, sensor, textSensor, switch_, light, cover, fan, climate, number, select, text,
    button, lock, mediaPlayer, camera, siren, alarmControlPanel, date, time, datetime, valve,
    event, update, waterHeater, infrared, radioFrequency]

/-- The accessors of the domains by `object_id`, in the same order. -/
def objectIdAccessors : List (EntityStore → CString → Option Entity) :=
  [binarySensorByObjectId, sensorByObjectId, textSensorByObjectId, switchByObjectId,
    lightByObjectId, coverByObjectId, fanByObjectId, climateByObjectId, numberByObjectId,
    selectByObjectId, textByObjectId, buttonByObjectId, lockByObjectId, mediaPlayerByObjectId,
    cameraByObjectId, sirenByObjectId, alarmControlPanelByObjectId, dateByObjectId,
    timeByObjectId, datetimeByObjectId, valveByObjectId, eventByObjectId, updateByObjectId,
    waterHeaterByObjectId, infraredByObjectId, radioFrequencyByObjectId]

theorem lists_eq : lists = entityDomains.map collect := rfl

theorem keyAccessors_eq : keyAccessors = entityDomains.map byKey := rfl

theorem objectIdAccessors_eq : objectIdAccessors = entityDomains.map byObjectId := rfl

end EntityRegistry

/-- `EntityList::find`, by key. -/
def EntityList.find (items : List Entity) (key : UInt32) : Option Entity :=
  items.find? fun e => e.key = key

/-- `EntityList::find`, by `object_id`. -/
def EntityList.findByObjectId (items : List Entity) (objectId : CString) : Option Entity :=
  items.find? fun e => e.objectId = objectId

/-- The registry hands out a handle: in a list of its domain, by a search of that
list, or for itself. -/
inductive Obtained (type : EntityType) (store : EntityStore) : Entity → Prop where
  | listed {e : Entity} (h : e ∈ EntityRegistry.collect type store) : Obtained type store e
  | found {e : Entity} (key : UInt32)
      (h : EntityList.find (EntityRegistry.collect type store) key = some e) : Obtained type store e
  | foundById {e : Entity} (objectId : CString)
      (h : EntityList.findByObjectId (EntityRegistry.collect type store) objectId = some e) :
      Obtained type store e
  | byKey {e : Entity} (key : UInt32) (h : EntityRegistry.byKey type store key = some e) :
      Obtained type store e
  | byObjectId {e : Entity} (objectId : CString)
      (h : EntityRegistry.byObjectId type store objectId = some e) : Obtained type store e

/-! ## Methods -/

/-- `1.0F` -/
def floatOne : CFloat := 0x3F800000#32

namespace SwitchEntity

def command (e : Entity) (c : SwitchCommand) : SwitchCommand := { c with key := e.key }
def setPower (e : Entity) (on : Bool) : SwitchCommand := { key := e.key, state := on }

end SwitchEntity

namespace LightEntity

def command (e : Entity) (c : LightCommand) : LightCommand := { c with key := e.key }
def setPower (e : Entity) (on : Bool) : LightCommand := { key := e.key, state := some on }

def setBrightness (e : Entity) (b : CFloat) : LightCommand :=
  { key := e.key, state := some true, brightness := some b }

def setRgb (e : Entity) (r g b : CFloat) : LightCommand :=
  { key := e.key, state := some true, rgb := some ⟨r, g, b⟩ }

end LightEntity

namespace CoverEntity

def command (e : Entity) (c : CoverCommand) : CoverCommand := { c with key := e.key }
def «open» (e : Entity) : CoverCommand := { key := e.key, position := some floatOne }
def close (e : Entity) : CoverCommand := { key := e.key, position := some 0#32 }
def stop (e : Entity) : CoverCommand := { key := e.key, stop := true }
def setPosition (e : Entity) (p : CFloat) : CoverCommand := { key := e.key, position := some p }

end CoverEntity

namespace FanEntity

def command (e : Entity) (c : FanCommand) : FanCommand := { c with key := e.key }
def setPower (e : Entity) (on : Bool) : FanCommand := { key := e.key, state := some on }

def setSpeed (e : Entity) (level : BitVec 32) : FanCommand :=
  { key := e.key, speedLevel := some level }

end FanEntity

namespace ClimateEntity

def command (e : Entity) (c : ClimateCommand) : ClimateCommand := { c with key := e.key }
def setMode (e : Entity) (m : CEnum) : ClimateCommand := { key := e.key, mode := some m }

def setTargetTemperature (e : Entity) (t : CFloat) : ClimateCommand :=
  { key := e.key, targetTemperature := some t }

end ClimateEntity

namespace NumberEntity

def command (e : Entity) (c : NumberCommand) : NumberCommand := { c with key := e.key }
def set (e : Entity) (v : CFloat) : NumberCommand := { key := e.key, state := v }

end NumberEntity

namespace SelectEntity

def command (e : Entity) (c : SelectCommand) : SelectCommand := { c with key := e.key }
def set (e : Entity) (v : CString) : SelectCommand := { key := e.key, state := v }

end SelectEntity

namespace TextEntity

def command (e : Entity) (c : TextCommand) : TextCommand := { c with key := e.key }
def set (e : Entity) (v : CString) : TextCommand := { key := e.key, state := v }

end TextEntity

namespace ButtonEntity

def command (e : Entity) (c : ButtonCommand) : ButtonCommand := { c with key := e.key }
def press (e : Entity) : ButtonCommand := { key := e.key }

end ButtonEntity

namespace LockEntity

def command (e : Entity) (c : LockCommandData) : LockCommandData := { c with key := e.key }
def lock (e : Entity) : LockCommandData := { key := e.key, command := LockCommand.lock }
def unlock (e : Entity) : LockCommandData := { key := e.key, command := LockCommand.unlock }
def «open» (e : Entity) : LockCommandData := { key := e.key, command := LockCommand.open }

end LockEntity

namespace MediaPlayerEntity

def command (e : Entity) (c : MediaPlayerControl) : MediaPlayerControl := { c with key := e.key }

def play (e : Entity) : MediaPlayerControl :=
  { key := e.key, command := some MediaPlayerCommand.play }

def pause (e : Entity) : MediaPlayerControl :=
  { key := e.key, command := some MediaPlayerCommand.pause }

def stop (e : Entity) : MediaPlayerControl :=
  { key := e.key, command := some MediaPlayerCommand.stop }

def setVolume (e : Entity) (v : CFloat) : MediaPlayerControl := { key := e.key, volume := some v }

end MediaPlayerEntity

namespace SirenEntity

def command (e : Entity) (c : SirenCommand) : SirenCommand := { c with key := e.key }
def setPower (e : Entity) (on : Bool) : SirenCommand := { key := e.key, state := some on }

end SirenEntity

namespace AlarmControlPanelEntity

def command (e : Entity) (c : AlarmControlPanelCommand) : AlarmControlPanelCommand :=
  { c with key := e.key }

def disarm (e : Entity) (code : CString) : AlarmControlPanelCommand :=
  { key := e.key, command := AlarmControlPanelStateCommand.disarm, code := code }

def armAway (e : Entity) (code : CString) : AlarmControlPanelCommand :=
  { key := e.key, command := AlarmControlPanelStateCommand.armAway, code := code }

def armHome (e : Entity) (code : CString) : AlarmControlPanelCommand :=
  { key := e.key, command := AlarmControlPanelStateCommand.armHome, code := code }

end AlarmControlPanelEntity

namespace DateEntity

def command (e : Entity) (c : DateCommand) : DateCommand := { c with key := e.key }

def set (e : Entity) (year month day : BitVec 32) : DateCommand :=
  { key := e.key, year := year, month := month, day := day }

end DateEntity

namespace TimeEntity

def command (e : Entity) (c : TimeCommand) : TimeCommand := { c with key := e.key }

def set (e : Entity) (hour minute second : BitVec 32) : TimeCommand :=
  { key := e.key, hour := hour, minute := minute, second := second }

end TimeEntity

namespace DateTimeEntity

def command (e : Entity) (c : DateTimeCommand) : DateTimeCommand := { c with key := e.key }

def set (e : Entity) (epochSeconds : BitVec 32) : DateTimeCommand :=
  { key := e.key, epochSeconds := epochSeconds }

end DateTimeEntity

namespace ValveEntity

def command (e : Entity) (c : ValveCommand) : ValveCommand := { c with key := e.key }
def «open» (e : Entity) : ValveCommand := { key := e.key, position := some floatOne }
def close (e : Entity) : ValveCommand := { key := e.key, position := some 0#32 }
def stop (e : Entity) : ValveCommand := { key := e.key, stop := true }

end ValveEntity

namespace UpdateEntity

def command (e : Entity) (c : UpdateControl) : UpdateControl := { c with key := e.key }
def install (e : Entity) : UpdateControl := { key := e.key, command := UpdateCommand.update }
def check (e : Entity) : UpdateControl := { key := e.key, command := UpdateCommand.check }

end UpdateEntity

namespace WaterHeaterEntity

def command (e : Entity) (c : WaterHeaterCommand) : WaterHeaterCommand := { c with key := e.key }

end WaterHeaterEntity

/-! ## All methods -/

/-- The methods of `ToggleEntity`. -/
inductive Toggle where
  | turnOn
  | turnOff
  | toggle

/-- The argument of `set_power`; `is_on` is what the handle reads in the store. -/
def Toggle.power (isOn : Bool) : Toggle → Bool
  | .turnOn => true
  | .turnOff => false
  | .toggle => !isOn

/-- The methods of a handle that send a `CommandRequest`. -/
inductive Operation : EntityType → Type where
  | switchCommand (c : SwitchCommand) : Operation .switch
  | switchSetPower (on : Bool) : Operation .switch
  | switchToggle (t : Toggle) : Operation .switch
  | lightCommand (c : LightCommand) : Operation .light
  | lightSetPower (on : Bool) : Operation .light
  | lightToggle (t : Toggle) : Operation .light
  | lightSetBrightness (b : CFloat) : Operation .light
  | lightSetRgb (r g b : CFloat) : Operation .light
  | coverCommand (c : CoverCommand) : Operation .cover
  | coverOpen : Operation .cover
  | coverClose : Operation .cover
  | coverStop : Operation .cover
  | coverSetPosition (p : CFloat) : Operation .cover
  | fanCommand (c : FanCommand) : Operation .fan
  | fanSetPower (on : Bool) : Operation .fan
  | fanToggle (t : Toggle) : Operation .fan
  | fanSetSpeed (level : BitVec 32) : Operation .fan
  | climateCommand (c : ClimateCommand) : Operation .climate
  | climateSetMode (m : CEnum) : Operation .climate
  | climateSetTargetTemperature (t : CFloat) : Operation .climate
  | numberCommand (c : NumberCommand) : Operation .number
  | numberSet (v : CFloat) : Operation .number
  | selectCommand (c : SelectCommand) : Operation .select
  | selectSet (v : CString) : Operation .select
  | textCommand (c : TextCommand) : Operation .text
  | textSet (v : CString) : Operation .text
  | buttonCommand (c : ButtonCommand) : Operation .button
  | buttonPress : Operation .button
  | lockCommand (c : LockCommandData) : Operation .lock
  | lockLock : Operation .lock
  | lockUnlock : Operation .lock
  | lockOpen : Operation .lock
  | mediaPlayerCommand (c : MediaPlayerControl) : Operation .mediaPlayer
  | mediaPlayerPlay : Operation .mediaPlayer
  | mediaPlayerPause : Operation .mediaPlayer
  | mediaPlayerStop : Operation .mediaPlayer
  | mediaPlayerSetVolume (v : CFloat) : Operation .mediaPlayer
  | sirenCommand (c : SirenCommand) : Operation .siren
  | sirenSetPower (on : Bool) : Operation .siren
  | sirenToggle (t : Toggle) : Operation .siren
  | alarmControlPanelCommand (c : AlarmControlPanelCommand) : Operation .alarmControlPanel
  | alarmControlPanelDisarm (code : CString) : Operation .alarmControlPanel
  | alarmControlPanelArmAway (code : CString) : Operation .alarmControlPanel
  | alarmControlPanelArmHome (code : CString) : Operation .alarmControlPanel
  | dateCommand (c : DateCommand) : Operation .date
  | dateSet (year month day : BitVec 32) : Operation .date
  | timeCommand (c : TimeCommand) : Operation .time
  | timeSet (hour minute second : BitVec 32) : Operation .time
  | dateTimeCommand (c : DateTimeCommand) : Operation .dateTime
  | dateTimeSet (epochSeconds : BitVec 32) : Operation .dateTime
  | valveCommand (c : ValveCommand) : Operation .valve
  | valveOpen : Operation .valve
  | valveClose : Operation .valve
  | valveStop : Operation .valve
  | updateCommand (c : UpdateControl) : Operation .update
  | updateInstall : Operation .update
  | updateCheck : Operation .update
  | waterHeaterCommand (c : WaterHeaterCommand) : Operation .waterHeater

/-- The command that a method sends; `isOn` is what `is_on` returns. -/
def Operation.command (e : Entity) (isOn : Bool) : {type : EntityType} → Operation type → Command
  | _, .switchCommand c => .switch (SwitchEntity.command e c)
  | _, .switchSetPower on => .switch (SwitchEntity.setPower e on)
  | _, .switchToggle t => .switch (SwitchEntity.setPower e (t.power isOn))
  | _, .lightCommand c => .light (LightEntity.command e c)
  | _, .lightSetPower on => .light (LightEntity.setPower e on)
  | _, .lightToggle t => .light (LightEntity.setPower e (t.power isOn))
  | _, .lightSetBrightness b => .light (LightEntity.setBrightness e b)
  | _, .lightSetRgb r g b => .light (LightEntity.setRgb e r g b)
  | _, .coverCommand c => .cover (CoverEntity.command e c)
  | _, .coverOpen => .cover (CoverEntity.open e)
  | _, .coverClose => .cover (CoverEntity.close e)
  | _, .coverStop => .cover (CoverEntity.stop e)
  | _, .coverSetPosition p => .cover (CoverEntity.setPosition e p)
  | _, .fanCommand c => .fan (FanEntity.command e c)
  | _, .fanSetPower on => .fan (FanEntity.setPower e on)
  | _, .fanToggle t => .fan (FanEntity.setPower e (t.power isOn))
  | _, .fanSetSpeed level => .fan (FanEntity.setSpeed e level)
  | _, .climateCommand c => .climate (ClimateEntity.command e c)
  | _, .climateSetMode m => .climate (ClimateEntity.setMode e m)
  | _, .climateSetTargetTemperature t => .climate (ClimateEntity.setTargetTemperature e t)
  | _, .numberCommand c => .number (NumberEntity.command e c)
  | _, .numberSet v => .number (NumberEntity.set e v)
  | _, .selectCommand c => .select (SelectEntity.command e c)
  | _, .selectSet v => .select (SelectEntity.set e v)
  | _, .textCommand c => .text (TextEntity.command e c)
  | _, .textSet v => .text (TextEntity.set e v)
  | _, .buttonCommand c => .button (ButtonEntity.command e c)
  | _, .buttonPress => .button (ButtonEntity.press e)
  | _, .lockCommand c => .lock (LockEntity.command e c)
  | _, .lockLock => .lock (LockEntity.lock e)
  | _, .lockUnlock => .lock (LockEntity.unlock e)
  | _, .lockOpen => .lock (LockEntity.open e)
  | _, .mediaPlayerCommand c => .mediaPlayer (MediaPlayerEntity.command e c)
  | _, .mediaPlayerPlay => .mediaPlayer (MediaPlayerEntity.play e)
  | _, .mediaPlayerPause => .mediaPlayer (MediaPlayerEntity.pause e)
  | _, .mediaPlayerStop => .mediaPlayer (MediaPlayerEntity.stop e)
  | _, .mediaPlayerSetVolume v => .mediaPlayer (MediaPlayerEntity.setVolume e v)
  | _, .sirenCommand c => .siren (SirenEntity.command e c)
  | _, .sirenSetPower on => .siren (SirenEntity.setPower e on)
  | _, .sirenToggle t => .siren (SirenEntity.setPower e (t.power isOn))
  | _, .alarmControlPanelCommand c => .alarmControlPanel (AlarmControlPanelEntity.command e c)
  | _, .alarmControlPanelDisarm code => .alarmControlPanel (AlarmControlPanelEntity.disarm e code)
  | _, .alarmControlPanelArmAway code => .alarmControlPanel (AlarmControlPanelEntity.armAway e code)
  | _, .alarmControlPanelArmHome code => .alarmControlPanel (AlarmControlPanelEntity.armHome e code)
  | _, .dateCommand c => .date (DateEntity.command e c)
  | _, .dateSet year month day => .date (DateEntity.set e year month day)
  | _, .timeCommand c => .time (TimeEntity.command e c)
  | _, .timeSet hour minute second => .time (TimeEntity.set e hour minute second)
  | _, .dateTimeCommand c => .dateTime (DateTimeEntity.command e c)
  | _, .dateTimeSet epochSeconds => .dateTime (DateTimeEntity.set e epochSeconds)
  | _, .valveCommand c => .valve (ValveEntity.command e c)
  | _, .valveOpen => .valve (ValveEntity.open e)
  | _, .valveClose => .valve (ValveEntity.close e)
  | _, .valveStop => .valve (ValveEntity.stop e)
  | _, .updateCommand c => .update (UpdateEntity.command e c)
  | _, .updateInstall => .update (UpdateEntity.install e)
  | _, .updateCheck => .update (UpdateEntity.check e)
  | _, .waterHeaterCommand c => .waterHeater (WaterHeaterEntity.command e c)

/-! ## Sending -/

namespace Connection

variable {σ : Type} (E : Environment σ)

/-- `send_command` -/
def sendCommand (c : Command) (s : Connection σ) : Connection σ :=
  sendRaw E .application c.toMessage.id (c.toMessage.fields.encode c.toMessage.value) s

/-- `request_camera_image`, which `CameraEntity::request_image` calls. -/
def requestCameraImage (single stream : Bool) (s : Connection σ) : Connection σ :=
  sendRaw E .application MessageId.cameraImageRequest
    (CameraImageRequest.encode (single, stream, ())) s

end Connection

end EsphomeApi
