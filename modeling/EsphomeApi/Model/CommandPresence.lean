/-
EsphomeApi.Model.CommandPresence — what a device reads of a command.

A value that is zero, `false` or empty is not written, so it is not on the wire
whether a member of a command is there. The request says it beside the value, in
a `has_` member of its own or, for a water heater, in a bit of `has_fields`.

`Carried` is what a flag and a value say of one member, and `CarriedBy` of each
command is that for all its members, by the place of each in the request. A
message is read back as its `canonical` (`Fields.decode_encode_canonical`), so
there is one lemma for each kind of member (`carried_flag`, `carried_number`,
`carried_float`, `carried_text`), and each request is put together from these.
-/
import EsphomeApi.Model.CommandAddress

namespace EsphomeApi

open Proto

/-! ## One member -/

/-- The bits of a zero, with either sign. -/
def IsFloatZero (v : CFloat) : Prop := v = 0x00000000#32 ∨ v = 0x80000000#32

/-- The two are numerically equal. -/
def FloatEq (v w : CFloat) : Prop := v = w ∨ IsFloatZero v ∧ IsFloatZero w

/-- The flag is set exactly if the member is there, and then the value is that of
the member, up to `same`. -/
def Carried {α : Type} (same : α → α → Prop) (has : Bool) (value : α) (member : Option α) :
    Prop :=
  has = member.isSome ∧ ∀ v, member = some v → same value v

theorem carried_flag (member : Option Bool) :
    Carried Eq member.isSome (flagOr member) member := by
  refine ⟨rfl, ?_⟩
  rintro v rfl
  rfl

theorem carried_number (member : Option (BitVec 32)) :
    Carried Eq member.isSome (numberOr member) member := by
  refine ⟨rfl, ?_⟩
  rintro v rfl
  rfl

theorem carried_text (member : Option CString) :
    Carried Eq member.isSome (textOr member) member := by
  refine ⟨rfl, ?_⟩
  rintro v rfl
  rfl

/-- The sign of a zero is what gets lost of a `float`. -/
theorem floatEq_canonical (v : CFloat) : FloatEq (ScalarType.float.canonical v) v := by
  show FloatEq (if v = 0x80000000#32 then 0#32 else v) v
  by_cases hv : v = 0x80000000#32
  · rw [if_pos hv]
    exact .inr ⟨.inl rfl, .inr hv⟩
  · rw [if_neg hv]
    exact .inl rfl

theorem carried_float (member : Option CFloat) :
    Carried FloatEq member.isSome (ScalarType.float.canonical (numberOr member)) member := by
  refine ⟨rfl, ?_⟩
  rintro v rfl
  exact floatEq_canonical v

/-! ## Commands with a `has_` member for each optional one -/

/-- The three channels, which share a flag. -/
def LightRgb.Same (rgb : LightRgb) (red green blue : CFloat) : Prop :=
  FloatEq red rgb.red ∧ FloatEq green rgb.green ∧ FloatEq blue rgb.blue

def LightCommand.CarriedBy (c : LightCommand) : LightCommandRequest.Value → Prop
  | (key, hasState, state, hasBrightness, brightness, hasRgb, red, green, blue, hasWhite, white,
      hasColorTemperature, colorTemperature, hasTransitionLength, transitionLength,
      hasFlashLength, flashLength, hasEffect, effect, hasColorBrightness, colorBrightness,
      hasColorMode, colorMode, hasColdWhite, coldWhite, hasWarmWhite, warmWhite, _, ()) =>
    key = c.key.toBitVec ∧
    Carried Eq hasState state c.state ∧
    Carried FloatEq hasBrightness brightness c.brightness ∧
    (hasRgb = c.rgb.isSome ∧ ∀ rgb, c.rgb = some rgb → rgb.Same red green blue) ∧
    Carried FloatEq hasWhite white c.white ∧
    Carried FloatEq hasColorTemperature colorTemperature c.colorTemperature ∧
    Carried Eq hasTransitionLength transitionLength c.transitionLength ∧
    Carried Eq hasFlashLength flashLength c.flashLength ∧
    Carried Eq hasEffect effect c.effect ∧
    Carried FloatEq hasColorBrightness colorBrightness c.colorBrightness ∧
    Carried Eq hasColorMode colorMode c.colorMode ∧
    Carried FloatEq hasColdWhite coldWhite c.coldWhite ∧
    Carried FloatEq hasWarmWhite warmWhite c.warmWhite

/-- `has_speed` is of a member that commands no longer have. -/
def FanCommand.CarriedBy (c : FanCommand) : FanCommandRequest.Value → Prop
  | (key, hasState, state, hasSpeed, _, hasOscillating, oscillating, hasDirection, direction,
      hasSpeedLevel, speedLevel, hasPresetMode, presetMode, _, ()) =>
    key = c.key.toBitVec ∧
    Carried Eq hasState state c.state ∧
    hasSpeed = false ∧
    Carried Eq hasOscillating oscillating c.oscillating ∧
    Carried Eq hasDirection direction c.direction ∧
    Carried Eq hasSpeedLevel speedLevel c.speedLevel ∧
    Carried Eq hasPresetMode presetMode c.presetMode

/-- `has_legacy_command` is of a member that commands no longer have. -/
def CoverCommand.CarriedBy (c : CoverCommand) : CoverCommandRequest.Value → Prop
  | (key, hasLegacyCommand, _, hasPosition, position, hasTilt, tilt, stop, _, ()) =>
    key = c.key.toBitVec ∧
    hasLegacyCommand = false ∧
    Carried FloatEq hasPosition position c.position ∧
    Carried FloatEq hasTilt tilt c.tilt ∧
    stop = c.stop

def ValveCommand.CarriedBy (c : ValveCommand) : ValveCommandRequest.Value → Prop
  | (key, hasPosition, position, stop, _, ()) =>
    key = c.key.toBitVec ∧ Carried FloatEq hasPosition position c.position ∧ stop = c.stop

def LockCommandData.CarriedBy (c : LockCommandData) : LockCommandRequest.Value → Prop
  | (key, command, hasCode, code, _, ()) =>
    key = c.key.toBitVec ∧ command = c.command ∧ Carried Eq hasCode code c.code

def SirenCommand.CarriedBy (c : SirenCommand) : SirenCommandRequest.Value → Prop
  | (key, hasState, state, hasTone, tone, hasDuration, duration, hasVolume, volume, _, ()) =>
    key = c.key.toBitVec ∧
    Carried Eq hasState state c.state ∧
    Carried Eq hasTone tone c.tone ∧
    Carried Eq hasDuration duration c.duration ∧
    Carried FloatEq hasVolume volume c.volume

/-- `unused_has_legacy_away` is of a member that commands no longer have. -/
def ClimateCommand.CarriedBy (c : ClimateCommand) : ClimateCommandRequest.Value → Prop
  | (key, hasMode, mode, hasTargetTemperature, targetTemperature, hasTargetTemperatureLow,
      targetTemperatureLow, hasTargetTemperatureHigh, targetTemperatureHigh,
      unusedHasLegacyAway, _, hasFanMode, fanMode, hasSwingMode, swingMode, hasCustomFanMode,
      customFanMode, hasPreset, preset, hasCustomPreset, customPreset, hasTargetHumidity,
      targetHumidity, _, ()) =>
    key = c.key.toBitVec ∧
    Carried Eq hasMode mode c.mode ∧
    Carried FloatEq hasTargetTemperature targetTemperature c.targetTemperature ∧
    Carried FloatEq hasTargetTemperatureLow targetTemperatureLow c.targetTemperatureLow ∧
    Carried FloatEq hasTargetTemperatureHigh targetTemperatureHigh c.targetTemperatureHigh ∧
    unusedHasLegacyAway = false ∧
    Carried Eq hasFanMode fanMode c.fanMode ∧
    Carried Eq hasSwingMode swingMode c.swingMode ∧
    Carried Eq hasCustomFanMode customFanMode c.customFanMode ∧
    Carried Eq hasPreset preset c.preset ∧
    Carried Eq hasCustomPreset customPreset c.customPreset ∧
    Carried FloatEq hasTargetHumidity targetHumidity c.targetHumidity

def MediaPlayerControl.CarriedBy (c : MediaPlayerControl) : MediaPlayerCommandRequest.Value → Prop
  | (key, hasCommand, command, hasVolume, volume, hasMediaUrl, mediaUrl, hasAnnouncement,
      announcement, _, ()) =>
    key = c.key.toBitVec ∧
    Carried Eq hasCommand command c.command ∧
    Carried FloatEq hasVolume volume c.volume ∧
    Carried Eq hasMediaUrl mediaUrl c.mediaUrl ∧
    Carried Eq hasAnnouncement announcement c.announcement

theorem LightCommand.carriedBy_canonical (c : LightCommand) :
    c.CarriedBy (LightCommandRequest.canonical c.toMessage) := by
  refine ⟨rfl, carried_flag _, carried_float _, ⟨rfl, ?_⟩, carried_float _, carried_float _,
    carried_number _, carried_number _, carried_text _, carried_float _, carried_number _,
    carried_float _, carried_float _⟩
  intro rgb hrgb
  rw [hrgb]
  exact ⟨floatEq_canonical _, floatEq_canonical _, floatEq_canonical _⟩

theorem FanCommand.carriedBy_canonical (c : FanCommand) :
    c.CarriedBy (FanCommandRequest.canonical c.toMessage) :=
  ⟨rfl, carried_flag _, rfl, carried_flag _, carried_number _, carried_number _, carried_text _⟩

theorem CoverCommand.carriedBy_canonical (c : CoverCommand) :
    c.CarriedBy (CoverCommandRequest.canonical c.toMessage) :=
  ⟨rfl, rfl, carried_float _, carried_float _, rfl⟩

theorem ValveCommand.carriedBy_canonical (c : ValveCommand) :
    c.CarriedBy (ValveCommandRequest.canonical c.toMessage) :=
  ⟨rfl, carried_float _, rfl⟩

theorem LockCommandData.carriedBy_canonical (c : LockCommandData) :
    c.CarriedBy (LockCommandRequest.canonical c.toMessage) :=
  ⟨rfl, rfl, carried_text _⟩

theorem SirenCommand.carriedBy_canonical (c : SirenCommand) :
    c.CarriedBy (SirenCommandRequest.canonical c.toMessage) :=
  ⟨rfl, carried_flag _, carried_text _, carried_number _, carried_float _⟩

theorem ClimateCommand.carriedBy_canonical (c : ClimateCommand) :
    c.CarriedBy (ClimateCommandRequest.canonical c.toMessage) :=
  ⟨rfl, carried_number _, carried_float _, carried_float _, carried_float _, rfl,
    carried_number _, carried_number _, carried_text _, carried_number _, carried_text _,
    carried_float _⟩

theorem MediaPlayerControl.carriedBy_canonical (c : MediaPlayerControl) :
    c.CarriedBy (MediaPlayerCommandRequest.canonical c.toMessage) :=
  ⟨rfl, carried_number _, carried_float _, carried_text _, carried_flag _⟩

/-! ## The command with a mask

`has_fields` has a bit for each member. The values of two members are bits as
well, of `state`.
-/

/-- Some bit of the mask is set. -/
def hasBit (word mask : BitVec 32) : Bool := word &&& mask != 0#32

/-- The bits are those of `WATER_HEATER_COMMAND_HAS_*`, and no other is set. -/
def WaterHeaterCommand.CarriedBy (c : WaterHeaterCommand) : WaterHeaterCommandRequest.Value → Prop
  | (key, hasFields, mode, targetTemperature, _, state, targetTemperatureLow,
      targetTemperatureHigh, ()) =>
    key = c.key.toBitVec ∧
    Carried Eq (hasBit hasFields 1#32) mode c.mode ∧
    Carried FloatEq (hasBit hasFields 2#32) targetTemperature c.targetTemperature ∧
    Carried FloatEq (hasBit hasFields 8#32) targetTemperatureLow c.targetTemperatureLow ∧
    Carried FloatEq (hasBit hasFields 16#32) targetTemperatureHigh c.targetTemperatureHigh ∧
    Carried Eq (hasBit hasFields 32#32) (hasBit state 2#32) c.onState ∧
    Carried Eq (hasBit hasFields 64#32) (hasBit state 1#32) c.awayState ∧
    hasBit hasFields (~~~(1#32 ||| 2#32 ||| 8#32 ||| 16#32 ||| 32#32 ||| 64#32)) = false

/-- The masks have no bit in common, so each is seen in the word as it was put
there, and nothing is outside of them. -/
theorem hasBit_hasFields (c : WaterHeaterCommand) :
    hasBit c.hasFields 1#32 = c.mode.isSome ∧
    hasBit c.hasFields 2#32 = c.targetTemperature.isSome ∧
    hasBit c.hasFields 8#32 = c.targetTemperatureLow.isSome ∧
    hasBit c.hasFields 16#32 = c.targetTemperatureHigh.isSome ∧
    hasBit c.hasFields 32#32 = c.onState.isSome ∧
    hasBit c.hasFields 64#32 = c.awayState.isSome ∧
    hasBit c.hasFields (~~~(1#32 ||| 2#32 ||| 8#32 ||| 16#32 ||| 32#32 ||| 64#32)) = false := by
  unfold WaterHeaterCommand.hasFields
  generalize c.mode.isSome = mode, c.targetTemperature.isSome = target,
    c.targetTemperatureLow.isSome = low, c.targetTemperatureHigh.isSome = high,
    c.onState.isSome = on, c.awayState.isSome = away
  revert mode target low high on away
  decide

theorem hasBit_state : ∀ on away : Bool,
    hasBit (bitIf on 2#32 ||| bitIf away 1#32) 2#32 = on ∧
    hasBit (bitIf on 2#32 ||| bitIf away 1#32) 1#32 = away := by
  decide

/-- Where the flag or the value is one by another expression. -/
theorem Carried.congr {α : Type} {same : α → α → Prop} {has has' : Bool} {value value' : α}
    {member : Option α} (h : Carried same has value member) (hhas : has' = has)
    (hvalue : value' = value) : Carried same has' value' member := by
  rw [hhas, hvalue]
  exact h

theorem WaterHeaterCommand.carriedBy_canonical (c : WaterHeaterCommand) :
    c.CarriedBy (WaterHeaterCommandRequest.canonical c.toMessage) := by
  obtain ⟨hmode, htarget, hlow, hhigh, hon, haway, hother⟩ := hasBit_hasFields c
  obtain ⟨honValue, hawayValue⟩ := hasBit_state (flagOr c.onState) (flagOr c.awayState)
  exact ⟨rfl, (carried_number c.mode).congr hmode rfl,
    (carried_float c.targetTemperature).congr htarget rfl,
    (carried_float c.targetTemperatureLow).congr hlow rfl,
    (carried_float c.targetTemperatureHigh).congr hhigh rfl,
    (carried_flag c.onState).congr hon honValue,
    (carried_flag c.awayState).congr haway hawayValue, hother⟩

/-! ## Commands whose members are all there -/

def SwitchCommand.CarriedBy (c : SwitchCommand) : SwitchCommandRequest.Value → Prop
  | (key, state, _, ()) => key = c.key.toBitVec ∧ state = c.state

def ButtonCommand.CarriedBy (c : ButtonCommand) : ButtonCommandRequest.Value → Prop
  | (key, _, ()) => key = c.key.toBitVec

def NumberCommand.CarriedBy (c : NumberCommand) : NumberCommandRequest.Value → Prop
  | (key, state, _, ()) => key = c.key.toBitVec ∧ FloatEq state c.state

def SelectCommand.CarriedBy (c : SelectCommand) : SelectCommandRequest.Value → Prop
  | (key, state, _, ()) => key = c.key.toBitVec ∧ state = c.state

def TextCommand.CarriedBy (c : TextCommand) : TextCommandRequest.Value → Prop
  | (key, state, _, ()) => key = c.key.toBitVec ∧ state = c.state

def AlarmControlPanelCommand.CarriedBy (c : AlarmControlPanelCommand) :
    AlarmControlPanelCommandRequest.Value → Prop
  | (key, command, code, _, ()) => key = c.key.toBitVec ∧ command = c.command ∧ code = c.code

def DateCommand.CarriedBy (c : DateCommand) : DateCommandRequest.Value → Prop
  | (key, year, month, day, _, ()) =>
    key = c.key.toBitVec ∧ year = c.year ∧ month = c.month ∧ day = c.day

def TimeCommand.CarriedBy (c : TimeCommand) : TimeCommandRequest.Value → Prop
  | (key, hour, minute, second, _, ()) =>
    key = c.key.toBitVec ∧ hour = c.hour ∧ minute = c.minute ∧ second = c.second

def DateTimeCommand.CarriedBy (c : DateTimeCommand) : DateTimeCommandRequest.Value → Prop
  | (key, epochSeconds, _, ()) => key = c.key.toBitVec ∧ epochSeconds = c.epochSeconds

def UpdateControl.CarriedBy (c : UpdateControl) : UpdateCommandRequest.Value → Prop
  | (key, command, _, ()) => key = c.key.toBitVec ∧ command = c.command

/-! ## All of them -/

namespace Command

/-- The request says what the command says. -/
def CarriedBy : (c : Command) → c.toMessage.fields.Value → Prop
  | .light c, value => c.CarriedBy value
  | .fan c, value => c.CarriedBy value
  | .cover c, value => c.CarriedBy value
  | .valve c, value => c.CarriedBy value
  | .lock c, value => c.CarriedBy value
  | .siren c, value => c.CarriedBy value
  | .switch c, value => c.CarriedBy value
  | .button c, value => c.CarriedBy value
  | .number c, value => c.CarriedBy value
  | .select c, value => c.CarriedBy value
  | .text c, value => c.CarriedBy value
  | .climate c, value => c.CarriedBy value
  | .waterHeater c, value => c.CarriedBy value
  | .mediaPlayer c, value => c.CarriedBy value
  | .alarmControlPanel c, value => c.CarriedBy value
  | .date c, value => c.CarriedBy value
  | .time c, value => c.CarriedBy value
  | .dateTime c, value => c.CarriedBy value
  | .update c, value => c.CarriedBy value

theorem carriedBy_canonical (c : Command) :
    c.CarriedBy (c.toMessage.fields.canonical c.toMessage.value) := by
  cases c with
  | light c => exact c.carriedBy_canonical
  | fan c => exact c.carriedBy_canonical
  | cover c => exact c.carriedBy_canonical
  | valve c => exact c.carriedBy_canonical
  | lock c => exact c.carriedBy_canonical
  | siren c => exact c.carriedBy_canonical
  | climate c => exact c.carriedBy_canonical
  | waterHeater c => exact c.carriedBy_canonical
  | mediaPlayer c => exact c.carriedBy_canonical
  | switch c => exact ⟨rfl, rfl⟩
  | button c => exact rfl
  | number c => exact ⟨rfl, floatEq_canonical _⟩
  | select c => exact ⟨rfl, rfl⟩
  | text c => exact ⟨rfl, rfl⟩
  | alarmControlPanel c => exact ⟨rfl, rfl, rfl⟩
  | date c => exact ⟨rfl, rfl, rfl, rfl⟩
  | time c => exact ⟨rfl, rfl, rfl, rfl⟩
  | dateTime c => exact ⟨rfl, rfl⟩
  | update c => exact ⟨rfl, rfl⟩

/-- A device that decodes the request of a command has its key, knows which
members were there, and has the values of these, the default ones too. The bound
is the largest length of a `std::string`. -/
theorem presence_survives (c : Command)
    (hsize : (c.toMessage.fields.encode c.toMessage.value).length < 2 ^ 64) :
    ∃ value, c.toMessage.fields.decode (c.toMessage.fields.encode c.toMessage.value)
        c.toMessage.fields.fresh = some value ∧ c.CarriedBy value :=
  ⟨_, Fields.decode_encode_canonical c.toMessage.value c.toMessage_wellFormed hsize,
    c.carriedBy_canonical⟩

/-- A light that is to go off, with the lowest brightness and without an effect. -/
def lightOff : Command :=
  .light { key := 7, state := some false, brightness := some 0x80000000#32, effect := some [] }

/-- None of the three values is on the wire. -/
theorem presence_survives_lightOff :
    lightOff.toMessage.fields.encode lightOff.toMessage.value =
      [0x0d, 7, 0, 0, 0, 0x10, 1, 0x20, 1, 0x90, 1, 1] ∧
    ∃ value, lightOff.toMessage.fields.decode
        (lightOff.toMessage.fields.encode lightOff.toMessage.value)
        lightOff.toMessage.fields.fresh = some value ∧ lightOff.CarriedBy value :=
  ⟨by decide, presence_survives lightOff (by decide)⟩

end Command

end EsphomeApi
