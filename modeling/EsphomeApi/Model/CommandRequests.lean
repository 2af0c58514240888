/-
EsphomeApi.Model.CommandRequests — the `*CommandRequest` classes of `api.proto`
that commands are sent in, with their members in ascending order of number.

Each class has the key of the entity as its member 1 and a `device_id`, whose
number differs. Members that nothing sets stay in the class: they have their
places on the wire.
-/
import EsphomeApi.Proto.Codec

namespace EsphomeApi

open Proto

/-! ## Message ids -/

namespace MessageId

def coverCommandRequest : UInt32 := 30
def fanCommandRequest : UInt32 := 31
def lightCommandRequest : UInt32 := 32
def switchCommandRequest : UInt32 := 33
def cameraImageRequest : UInt32 := 45
def climateCommandRequest : UInt32 := 48
def numberCommandRequest : UInt32 := 51
def selectCommandRequest : UInt32 := 54
def sirenCommandRequest : UInt32 := 57
def lockCommandRequest : UInt32 := 60
def buttonCommandRequest : UInt32 := 62
def mediaPlayerCommandRequest : UInt32 := 65
def alarmControlPanelCommandRequest : UInt32 := 96
def textCommandRequest : UInt32 := 99
def dateCommandRequest : UInt32 := 102
def timeCommandRequest : UInt32 := 105
def valveCommandRequest : UInt32 := 111
def dateTimeCommandRequest : UInt32 := 114
def updateCommandRequest : UInt32 := 118
def waterHeaterCommandRequest : UInt32 := 134

end MessageId

/-! ## Classes -/

/-- `key`, `has_legacy_command`, `legacy_command`, `has_position`, `position`,
`has_tilt`, `tilt`, `stop`, `device_id` -/
@[reducible] def CoverCommandRequest : Fields :=
  .cons 1 (.scalar .fixed32) (.cons 2 (.scalar .bool) (.cons 3 (.scalar .enum)
    (.cons 4 (.scalar .bool) (.cons 5 (.scalar .float) (.cons 6 (.scalar .bool)
      (.cons 7 (.scalar .float) (.cons 8 (.scalar .bool) (.cons 9 (.scalar .uint32) .nil))))))))

/-- `key`, `has_state`, `state`, `has_speed`, `speed`, `has_oscillating`,
`oscillating`, `has_direction`, `direction`, `has_speed_level`, `speed_level`,
`has_preset_mode`, `preset_mode`, `device_id` -/
@[reducible] def FanCommandRequest : Fields :=
  .cons 1 (.scalar .fixed32) (.cons 2 (.scalar .bool) (.cons 3 (.scalar .bool)
    (.cons 4 (.scalar .bool) (.cons 5 (.scalar .enum) (.cons 6 (.scalar .bool)
      (.cons 7 (.scalar .bool) (.cons 8 (.scalar .bool) (.cons 9 (.scalar .enum)
        (.cons 10 (.scalar .bool) (.cons 11 (.scalar .int32) (.cons 12 (.scalar .bool)
          (.cons 13 .blob (.cons 14 (.scalar .uint32) .nil)))))))))))))

/-- `key`, `has_state`, `state`, `has_brightness`, `brightness`, `has_rgb`,
`red`, `green`, `blue`, `has_white`, `white`, `has_color_temperature`,
`color_temperature`, `has_transition_length`, `transition_length`,
`has_flash_length`, `flash_length`, `has_effect`, `effect`,
`has_color_brightness`, `color_brightness`, `has_color_mode`, `color_mode`,
`has_cold_white`, `cold_white`, `has_warm_white`, `warm_white`, `device_id` -/
@[reducible] def LightCommandRequest : Fields :=
  .cons 1 (.scalar .fixed32) (.cons 2 (.scalar .bool) (.cons 3 (.scalar .bool)
    (.cons 4 (.scalar .bool) (.cons 5 (.scalar .float) (.cons 6 (.scalar .bool)
      (.cons 7 (.scalar .float) (.cons 8 (.scalar .float) (.cons 9 (.scalar .float)
        (.cons 10 (.scalar .bool) (.cons 11 (.scalar .float) (.cons 12 (.scalar .bool)
          (.cons 13 (.scalar .float) (.cons 14 (.scalar .bool) (.cons 15 (.scalar .uint32)
            (.cons 16 (.scalar .bool) (.cons 17 (.scalar .uint32) (.cons 18 (.scalar .bool)
              (.cons 19 .blob (.cons 20 (.scalar .bool) (.cons 21 (.scalar .float)
                (.cons 22 (.scalar .bool) (.cons 23 (.scalar .enum) (.cons 24 (.scalar .bool)
                  (.cons 25 (.scalar .float) (.cons 26 (.scalar .bool)
                    (.cons 27 (.scalar .float) (.cons 28 (.scalar .uint32)
                      .nil)))))))))))))))))))))))))))

/-- `key`, `state`, `device_id` -/
@[reducible] def SwitchCommandRequest : Fields :=
  .cons 1 (.scalar .fixed32) (.cons 2 (.scalar .bool) (.cons 3 (.scalar .uint32) .nil))

/-- `single`, `stream` -/
@[reducible] def CameraImageRequest : Fields :=
  .cons 1 (.scalar .bool) (.cons 2 (.scalar .bool) .nil)

/-- `key`, `has_mode`, `mode`, `has_target_temperature`, `target_temperature`,
`has_target_temperature_low`, `target_temperature_low`,
`has_target_temperature_high`, `target_temperature_high`,
`unused_has_legacy_away`, `unused_legacy_away`, `has_fan_mode`, `fan_mode`,
`has_swing_mode`, `swing_mode`, `has_custom_fan_mode`, `custom_fan_mode`,
`has_preset`, `preset`, `has_custom_preset`, `custom_preset`,
`has_target_humidity`, `target_humidity`, `device_id` -/
@[reducible] def ClimateCommandRequest : Fields :=
  .cons 1 (.scalar .fixed32) (.cons 2 (.scalar .bool) (.cons 3 (.scalar .enum)
    (.cons 4 (.scalar .bool) (.cons 5 (.scalar .float) (.cons 6 (.scalar .bool)
      (.cons 7 (.scalar .float) (.cons 8 (.scalar .bool) (.cons 9 (.scalar .float)
        (.cons 10 (.scalar .bool) (.cons 11 (.scalar .bool) (.cons 12 (.scalar .bool)
          (.cons 13 (.scalar .enum) (.cons 14 (.scalar .bool) (.cons 15 (.scalar .enum)
            (.cons 16 (.scalar .bool) (.cons 17 .blob (.cons 18 (.scalar .bool)
              (.cons 19 (.scalar .enum) (.cons 20 (.scalar .bool) (.cons 21 .blob
                (.cons 22 (.scalar .bool) (.cons 23 (.scalar .float)
                  (.cons 24 (.scalar .uint32) .nil)))))))))))))))))))))))

/-- `key`, `has_fields`, `mode`, `target_temperature`, `device_id`, `state`,
`target_temperature_low`, `target_temperature_high` -/
@[reducible] def WaterHeaterCommandRequest : Fields :=
  .cons 1 (.scalar .fixed32) (.cons 2 (.scalar .uint32) (.cons 3 (.scalar .enum)
    (.cons 4 (.scalar .float) (.cons 5 (.scalar .uint32) (.cons 6 (.scalar .uint32)
      (.cons 7 (.scalar .float) (.cons 8 (.scalar .float) .nil)))))))

/-- `key`, `state`, `device_id` -/
@[reducible] def NumberCommandRequest : Fields :=
  .cons 1 (.scalar .fixed32) (.cons 2 (.scalar .float) (.cons 3 (.scalar .uint32) .nil))

/-- `key`, `state`, `device_id` -/
@[reducible] def SelectCommandRequest : Fields :=
  .cons 1 (.scalar .fixed32) (.cons 2 .blob (.cons 3 (.scalar .uint32) .nil))

/-- `key`, `has_state`, `state`, `has_tone`, `tone`, `has_duration`, `duration`,
`has_volume`, `volume`, `device_id` -/
@[reducible] def SirenCommandRequest : Fields :=
  .cons 1 (.scalar .fixed32) (.cons 2 (.scalar .bool) (.cons 3 (.scalar .bool)
    (.cons 4 (.scalar .bool) (.cons 5 .blob (.cons 6 (.scalar .bool)
      (.cons 7 (.scalar .uint32) (.cons 8 (.scalar .bool) (.cons 9 (.scalar .float)
        (.cons 10 (.scalar .uint32) .nil)))))))))

/-- `key`, `command`, `has_code`, `code`, `device_id` -/
@[reducible] def LockCommandRequest : Fields :=
  .cons 1 (.scalar .fixed32) (.cons 2 (.scalar .enum) (.cons 3 (.scalar .bool)
    (.cons 4 .blob (.cons 5 (.scalar .uint32) .nil))))

/-- `key`, `device_id` -/
@[reducible] def ButtonCommandRequest : Fields :=
  .cons 1 (.scalar .fixed32) (.cons 2 (.scalar .uint32) .nil)

/-- `key`, `has_command`, `command`, `has_volume`, `volume`, `has_media_url`,
`media_url`, `has_announcement`, `announcement`, `device_id` -/
@[reducible] def MediaPlayerCommandRequest : Fields :=
  .cons 1 (.scalar .fixed32) (.cons 2 (.scalar .bool) (.cons 3 (.scalar .enum)
    (.cons 4 (.scalar .bool) (.cons 5 (.scalar .float) (.cons 6 (.scalar .bool)
      (.cons 7 .blob (.cons 8 (.scalar .bool) (.cons 9 (.scalar .bool)
        (.cons 10 (.scalar .uint32) .nil)))))))))

/-- `key`, `command`, `code`, `device_id` -/
@[reducible] def AlarmControlPanelCommandRequest : Fields :=
  .cons 1 (.scalar .fixed32) (.cons 2 (.scalar .enum) (.cons 3 .blob
    (.cons 4 (.scalar .uint32) .nil)))

/-- `key`, `state`, `device_id` -/
@[reducible] def TextCommandRequest : Fields :=
  .cons 1 (.scalar .fixed32) (.cons 2 .blob (.cons 3 (.scalar .uint32) .nil))

/-- `key`, `year`, `month`, `day`, `device_id` -/
@[reducible] def DateCommandRequest : Fields :=
  .cons 1 (.scalar .fixed32) (.cons 2 (.scalar .uint32) (.cons 3 (.scalar .uint32)
    (.cons 4 (.scalar .uint32) (.cons 5 (.scalar .uint32) .nil))))

/-- `key`, `hour`, `minute`, `second`, `device_id` -/
@[reducible] def TimeCommandRequest : Fields :=
  .cons 1 (.scalar .fixed32) (.cons 2 (.scalar .uint32) (.cons 3 (.scalar .uint32)
    (.cons 4 (.scalar .uint32) (.cons 5 (.scalar .uint32) .nil))))

/-- `key`, `has_position`, `position`, `stop`, `device_id` -/
@[reducible] def ValveCommandRequest : Fields :=
  .cons 1 (.scalar .fixed32) (.cons 2 (.scalar .bool) (.cons 3 (.scalar .float)
    (.cons 4 (.scalar .bool) (.cons 5 (.scalar .uint32) .nil))))

/-- `key`, `epoch_seconds`, `device_id` -/
@[reducible] def DateTimeCommandRequest : Fields :=
  .cons 1 (.scalar .fixed32) (.cons 2 (.scalar .fixed32) (.cons 3 (.scalar .uint32) .nil))

/-- `key`, `command`, `device_id` -/
@[reducible] def UpdateCommandRequest : Fields :=
  .cons 1 (.scalar .fixed32) (.cons 2 (.scalar .enum) (.cons 3 (.scalar .uint32) .nil))

end EsphomeApi
