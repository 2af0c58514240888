/-
EsphomeApi.Model.Commands — the command structs of the entity domains and the
`to_message` of each.

A message that `to_message` starts from is fresh, so a member that it does not
set is zero; a command member that is not there leaves its `has_` member and
its value as they are. An enumeration is the 32 bits of its value, and a
`float` its bits.
-/
import EsphomeApi.Model.CommandRequests

namespace EsphomeApi

open Proto

/-- The bits of a C++ `float`. -/
abbrev CFloat := BitVec 32

/-- An `enum class` with the underlying type `std::int32_t`, which has every
value of that type. -/
abbrev CEnum := BitVec 32

/-! ## Commands -/

structure LightRgb where
  red : CFloat := 0#32
  green : CFloat := 0#32
  blue : CFloat := 0#32

structure LightCommand where
  key : UInt32 := 0
  state : Option Bool := none
  brightness : Option CFloat := none
  colorMode : Option CEnum := none
  colorBrightness : Option CFloat := none
  rgb : Option LightRgb := none
  white : Option CFloat := none
  colorTemperature : Option CFloat := none
  coldWhite : Option CFloat := none
  warmWhite : Option CFloat := none
  transitionLength : Option (BitVec 32) := none
  flashLength : Option (BitVec 32) := none
  effect : Option CString := none

structure FanCommand where
  key : UInt32 := 0
  state : Option Bool := none
  oscillating : Option Bool := none
  direction : Option CEnum := none
  speedLevel : Option (BitVec 32) := none
  presetMode : Option CString := none

structure CoverCommand where
  key : UInt32 := 0
  position : Option CFloat := none
  tilt : Option CFloat := none
  stop : Bool := false

structure ValveCommand where
  key : UInt32 := 0
  position : Option CFloat := none
  stop : Bool := false

namespace LockCommand

def unlock : CEnum := 0
def lock : CEnum := 1
def «open» : CEnum := 2

end LockCommand

structure LockCommandData where
  key : UInt32 := 0
  command : CEnum := LockCommand.unlock
  code : Option CString := none

structure SirenCommand where
  key : UInt32 := 0
  state : Option Bool := none
  tone : Option CString := none
  duration : Option (BitVec 32) := none
  volume : Option CFloat := none

structure SwitchCommand where
  key : UInt32 := 0
  state : Bool := false

structure ButtonCommand where
  key : UInt32 := 0

structure NumberCommand where
  key : UInt32 := 0
  state : CFloat := 0#32

structure SelectCommand where
  key : UInt32 := 0
  state : CString := []

structure TextCommand where
  key : UInt32 := 0
  state : CString := []

structure ClimateCommand where
  key : UInt32 := 0
  mode : Option CEnum := none
  targetTemperature : Option CFloat := none
  targetTemperatureLow : Option CFloat := none
  targetTemperatureHigh : Option CFloat := none
  fanMode : Option CEnum := none
  swingMode : Option CEnum := none
  customFanMode : Option CString := none
  preset : Option CEnum := none
  customPreset : Option CString := none
  targetHumidity : Option CFloat := none

structure WaterHeaterCommand where
  key : UInt32 := 0
  mode : Option CEnum := none
  targetTemperature : Option CFloat := none
  targetTemperatureLow : Option CFloat := none
  targetTemperatureHigh : Option CFloat := none
  onState : Option Bool := none
  awayState : Option Bool := none

namespace MediaPlayerCommand

def play : CEnum := 0
def pause : CEnum := 1
def stop : CEnum := 2

end MediaPlayerCommand

structure MediaPlayerControl where
  key : UInt32 := 0
  command : Option CEnum := none
  volume : Option CFloat := none
  mediaUrl : Option CString := none
  announcement : Option Bool := none

namespace AlarmControlPanelStateCommand

def disarm : CEnum := 0
def armAway : CEnum := 1
def armHome : CEnum := 2

end AlarmControlPanelStateCommand

structure AlarmControlPanelCommand where
  key : UInt32 := 0
  command : CEnum := AlarmControlPanelStateCommand.disarm
  code : CString := []

structure DateCommand where
  key : UInt32 := 0
  year : BitVec 32 := 0#32
  month : BitVec 32 := 0#32
  day : BitVec 32 := 0#32

structure TimeCommand where
  key : UInt32 := 0
  hour : BitVec 32 := 0#32
  minute : BitVec 32 := 0#32
  second : BitVec 32 := 0#32

structure DateTimeCommand where
  key : UInt32 := 0
  epochSeconds : BitVec 32 := 0#32

namespace UpdateCommand

def none : CEnum := 0
def update : CEnum := 1
def check : CEnum := 2

end UpdateCommand

structure UpdateControl where
  key : UInt32 := 0
  command : CEnum := UpdateCommand.none

/-! ## `to_message` -/

/-- The number in an optional member, or zero. -/
def numberOr (v : Option (BitVec 32)) : BitVec 32 := v.getD 0#32

/-- The text in an optional member, or an empty one. -/
def textOr (v : Option CString) : CString := v.getD []

/-- The flag in an optional member, or `false`. -/
def flagOr (v : Option Bool) : Bool := v.getD false

def LightCommand.toMessage (c : LightCommand) : LightCommandRequest.Value :=
  let rgb := c.rgb.getD {}
  (c.key.toBitVec, c.state.isSome, flagOr c.state, c.brightness.isSome, numberOr c.brightness,
    c.rgb.isSome, rgb.red, rgb.green, rgb.blue, c.white.isSome, numberOr c.white,
    c.colorTemperature.isSome, numberOr c.colorTemperature,
    c.transitionLength.isSome, numberOr c.transitionLength,
    c.flashLength.isSome, numberOr c.flashLength, c.effect.isSome, textOr c.effect,
    c.colorBrightness.isSome, numberOr c.colorBrightness, c.colorMode.isSome, numberOr c.colorMode,
    c.coldWhite.isSome, numberOr c.coldWhite, c.warmWhite.isSome, numberOr c.warmWhite, 0#32, ())

def FanCommand.toMessage (c : FanCommand) : FanCommandRequest.Value :=
  (c.key.toBitVec, c.state.isSome, flagOr c.state, false, 0#32,
    c.oscillating.isSome, flagOr c.oscillating, c.direction.isSome, numberOr c.direction,
    c.speedLevel.isSome, numberOr c.speedLevel, c.presetMode.isSome, textOr c.presetMode, 0#32, ())

def CoverCommand.toMessage (c : CoverCommand) : CoverCommandRequest.Value :=
  (c.key.toBitVec, false, 0#32, c.position.isSome, numberOr c.position,
    c.tilt.isSome, numberOr c.tilt, c.stop, 0#32, ())

def ValveCommand.toMessage (c : ValveCommand) : ValveCommandRequest.Value :=
  (c.key.toBitVec, c.position.isSome, numberOr c.position, c.stop, 0#32, ())

def LockCommandData.toMessage (c : LockCommandData) : LockCommandRequest.Value :=
  (c.key.toBitVec, c.command, c.code.isSome, textOr c.code, 0#32, ())

def SirenCommand.toMessage (c : SirenCommand) : SirenCommandRequest.Value :=
  (c.key.toBitVec, c.state.isSome, flagOr c.state, c.tone.isSome, textOr c.tone,
    c.duration.isSome, numberOr c.duration, c.volume.isSome, numberOr c.volume, 0#32, ())

def SwitchCommand.toMessage (c : SwitchCommand) : SwitchCommandRequest.Value :=
  (c.key.toBitVec, c.state, 0#32, ())

def ButtonCommand.toMessage (c : ButtonCommand) : ButtonCommandRequest.Value :=
  (c.key.toBitVec, 0#32, ())

def NumberCommand.toMessage (c : NumberCommand) : NumberCommandRequest.Value :=
  (c.key.toBitVec, c.state, 0#32, ())

def SelectCommand.toMessage (c : SelectCommand) : SelectCommandRequest.Value :=
  (c.key.toBitVec, c.state, 0#32, ())

def TextCommand.toMessage (c : TextCommand) : TextCommandRequest.Value :=
  (c.key.toBitVec, c.state, 0#32, ())

def ClimateCommand.toMessage (c : ClimateCommand) : ClimateCommandRequest.Value :=
  (c.key.toBitVec, c.mode.isSome, numberOr c.mode,
    c.targetTemperature.isSome, numberOr c.targetTemperature,
    c.targetTemperatureLow.isSome, numberOr c.targetTemperatureLow,
    c.targetTemperatureHigh.isSome, numberOr c.targetTemperatureHigh, false, false,
    c.fanMode.isSome, numberOr c.fanMode, c.swingMode.isSome, numberOr c.swingMode,
    c.customFanMode.isSome, textOr c.customFanMode, c.preset.isSome, numberOr c.preset,
    c.customPreset.isSome, textOr c.customPreset,
    c.targetHumidity.isSome, numberOr c.targetHumidity, 0#32, ())

/-- A bit that is set if the test holds. -/
def bitIf (test : Bool) (bit : BitVec 32) : BitVec 32 := if test then bit else 0#32

/-- `WATER_HEATER_COMMAND_HAS_*` of the members that are there. -/
def WaterHeaterCommand.hasFields (c : WaterHeaterCommand) : BitVec 32 :=
  bitIf c.mode.isSome 1#32 ||| bitIf c.targetTemperature.isSome 2#32 |||
    bitIf c.targetTemperatureLow.isSome 8#32 ||| bitIf c.targetTemperatureHigh.isSome 16#32 |||
    bitIf c.onState.isSome 32#32 ||| bitIf c.awayState.isSome 64#32

def WaterHeaterCommand.toMessage (c : WaterHeaterCommand) : WaterHeaterCommandRequest.Value :=
  (c.key.toBitVec, c.hasFields, numberOr c.mode, numberOr c.targetTemperature, 0#32,
    bitIf (flagOr c.onState) 2#32 ||| bitIf (flagOr c.awayState) 1#32,
    numberOr c.targetTemperatureLow, numberOr c.targetTemperatureHigh, ())

def MediaPlayerControl.toMessage (c : MediaPlayerControl) : MediaPlayerCommandRequest.Value :=
  (c.key.toBitVec, c.command.isSome, numberOr c.command, c.volume.isSome, numberOr c.volume,
    c.mediaUrl.isSome, textOr c.mediaUrl, c.announcement.isSome, flagOr c.announcement, 0#32, ())

def AlarmControlPanelCommand.toMessage (c : AlarmControlPanelCommand) :
    AlarmControlPanelCommandRequest.Value :=
  (c.key.toBitVec, c.command, c.code, 0#32, ())

def DateCommand.toMessage (c : DateCommand) : DateCommandRequest.Value :=
  (c.key.toBitVec, c.year, c.month, c.day, 0#32, ())

def TimeCommand.toMessage (c : TimeCommand) : TimeCommandRequest.Value :=
  (c.key.toBitVec, c.hour, c.minute, c.second, 0#32, ())

def DateTimeCommand.toMessage (c : DateTimeCommand) : DateTimeCommandRequest.Value :=
  (c.key.toBitVec, c.epochSeconds, 0#32, ())

def UpdateControl.toMessage (c : UpdateControl) : UpdateCommandRequest.Value :=
  (c.key.toBitVec, c.command, 0#32, ())

/-! ## All of them -/

/-- What `send_command` takes. -/
inductive Command where
  | light (c : LightCommand)
  | fan (c : FanCommand)
  | cover (c : CoverCommand)
  | valve (c : ValveCommand)
  | lock (c : LockCommandData)
  | siren (c : SirenCommand)
  | switch (c : SwitchCommand)
  | button (c : ButtonCommand)
  | number (c : NumberCommand)
  | select (c : SelectCommand)
  | text (c : TextCommand)
  | climate (c : ClimateCommand)
  | waterHeater (c : WaterHeaterCommand)
  | mediaPlayer (c : MediaPlayerControl)
  | alarmControlPanel (c : AlarmControlPanelCommand)
  | date (c : DateCommand)
  | time (c : TimeCommand)
  | dateTime (c : DateTimeCommand)
  | update (c : UpdateControl)

/-- A request message: its id, its class, the number of the class's
`device_id`, and its members. -/
structure CommandRequest where
  id : UInt32
  fields : Fields
  deviceIdNumber : Nat
  value : fields.Value

namespace Command

def key : Command → UInt32
  | .light c => c.key
  | .fan c => c.key
  | .cover c => c.key
  | .valve c => c.key
  | .lock c => c.key
  | .siren c => c.key
  | .switch c => c.key
  | .button c => c.key
  | .number c => c.key
  | .select c => c.key
  | .text c => c.key
  | .climate c => c.key
  | .waterHeater c => c.key
  | .mediaPlayer c => c.key
  | .alarmControlPanel c => c.key
  | .date c => c.key
  | .time c => c.key
  | .dateTime c => c.key
  | .update c => c.key

/-- `to_message` -/
def toMessage : Command → CommandRequest
  | .light c => ⟨MessageId.lightCommandRequest, LightCommandRequest, 28, c.toMessage⟩
  | .fan c => ⟨MessageId.fanCommandRequest, FanCommandRequest, 14, c.toMessage⟩
  | .cover c => ⟨MessageId.coverCommandRequest, CoverCommandRequest, 9, c.toMessage⟩
  | .valve c => ⟨MessageId.valveCommandRequest, ValveCommandRequest, 5, c.toMessage⟩
  | .lock c => ⟨MessageId.lockCommandRequest, LockCommandRequest, 5, c.toMessage⟩
  | .siren c => ⟨MessageId.sirenCommandRequest, SirenCommandRequest, 10, c.toMessage⟩
  | .switch c => ⟨MessageId.switchCommandRequest, SwitchCommandRequest, 3, c.toMessage⟩
  | .button c => ⟨MessageId.buttonCommandRequest, ButtonCommandRequest, 2, c.toMessage⟩
  | .number c => ⟨MessageId.numberCommandRequest, NumberCommandRequest, 3, c.toMessage⟩
  | .select c => ⟨MessageId.selectCommandRequest, SelectCommandRequest, 3, c.toMessage⟩
  | .text c => ⟨MessageId.textCommandRequest, TextCommandRequest, 3, c.toMessage⟩
  | .climate c => ⟨MessageId.climateCommandRequest, ClimateCommandRequest, 24, c.toMessage⟩
  | .waterHeater c =>
      ⟨MessageId.waterHeaterCommandRequest, WaterHeaterCommandRequest, 5, c.toMessage⟩
  | .mediaPlayer c =>
      ⟨MessageId.mediaPlayerCommandRequest, MediaPlayerCommandRequest, 10, c.toMessage⟩
  | .alarmControlPanel c =>
      ⟨MessageId.alarmControlPanelCommandRequest, AlarmControlPanelCommandRequest, 4, c.toMessage⟩
  | .date c => ⟨MessageId.dateCommandRequest, DateCommandRequest, 5, c.toMessage⟩
  | .time c => ⟨MessageId.timeCommandRequest, TimeCommandRequest, 5, c.toMessage⟩
  | .dateTime c => ⟨MessageId.dateTimeCommandRequest, DateTimeCommandRequest, 3, c.toMessage⟩
  | .update c => ⟨MessageId.updateCommandRequest, UpdateCommandRequest, 3, c.toMessage⟩

end Command

end EsphomeApi
