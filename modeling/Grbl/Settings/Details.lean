import Grbl.Numbers.Ftoa
import Grbl.Settings.Setters

/-!
# The table of the core settings

`settings.c`: the details of the settings of the core with the options of the build, and when they are available. The settings of
drivers and plugins, which are in tables of their own, are left out.

* `Datatype`, `Value`, `SettingDetail` : `setting_detail_t`; a format that lists elements is the list of them;
* `removeElements` : `setting_remove_elements`; the formats after `settings_init`;
* `isSettingAvailable`, `settingDetail`, `settingGetDetails` : the table;
* `settingDetail_atomic`, `settingDetail_spindleInvert` : what holds of its entries.
-/

namespace Grbl.Settings.Global

/-- `setting_datatype_t`, those of the core. -/
inductive Datatype
  | bool | bitfield | xBitfield | radioButtons | axisMask | decimal | int8 | int16
  deriving DecidableEq

/-- The setting in memory, or the function that sets it. -/
inductive Value
  | uint8 (store : BitVec 8 → GlobalSettings → GlobalSettings)
  | uint16 (store : BitVec 16 → GlobalSettings → GlobalSettings)
  | float (store : FloatValue → GlobalSettings → GlobalSettings)
  | setInt (f : SetInt)
  | setFloat (f : SetFloat)

/-- `setting_detail_t`; `core` is `setting_is_core` of its type. -/
structure SettingDetail where
  id : ℕ
  datatype : Datatype
  value : Value
  format : List String := []
  minValue : Option (List Char) := none
  maxValue : Option (List Char) := none
  core : Bool := true
  isAvailable : Option (Hal → GlobalSettings → ℕ → Bool) := none
  allowNull : Bool := false

/-- What a value of the setting does when it is valid. -/
def Value.set (hal : Hal) (id : ℕ) (datatype : Datatype) (value : FloatValue) (intValue : BitVec 32) (m : Machine) : Value → Status × Machine
  | .uint8 store =>
      (.ok, m.write (store (if datatype = .axisMask then intValue.setWidth 8 &&& axesBitmask else intValue.setWidth 8)))
  | .uint16 store => (.ok, m.write (store (intValue.setWidth 16)))
  | .float store => (.ok, m.write (store value))
  | .setInt f => f hal id intValue m
  | .setFloat f => f hal id value m

/-! ## The elements of a format -/

/-- The elements without the `N/A`s at the end; the first one stays. -/
def trimElements : List String → List String
  | [] => []
  | e :: elements => e :: (elements.reverse.dropWhile (· = "N/A")).reverse

/-- `setting_remove_elements`, when it trims. -/
def removeElements (elements : List String) (mask : BitVec 32) : List String :=
  trimElements (elements.mapIdx fun i e => if mask.getLsbD i then e else "N/A")

def maskOf (bits : List Bool) : BitVec 32 := (bits.zipIdx.map fun (on, i) => setBit 0 i on).foldl (· ||| ·) 0

section
variable (hal : Hal)

def probeSignals : List String :=
  removeElements ["Probe", "Toolsetter", "Probe 2"] (maskOf [true, hal.toolsetter, hal.probe2])

def probingOptions : List String :=
  removeElements ["Allow feed override", "Apply soft limits", "N/A", "Auto select toolsetter", "Auto select probe 2", "Probe protection"]
    (maskOf [true, true, false, hal.probeSelect && hal.toolsetter, hal.probeSelect && hal.probe2])

def controlSignals : List String :=
  removeElements ["Reset", "Feed hold", "Cycle start", "Safety door", "Block delete", "Optional stop", "EStop", "Probe disconnected",
    "Motor fault", "Motor warning", "Limits override", "Single step blocks", "Toolsetter overtravel"]
    ((hal.signalsCap &&& ~~~limitsOverride).setWidth 32)

def spindleSignals : List String :=
  let signals := ["Spindle enable", "Spindle direction", "PWM"]
  let caps := hal.spindleCaps
  if caps.gpioControlled then removeElements signals (maskOf [true, caps.direction, caps.pwmInvert]) else signals

def coolantSignals : List String := removeElements ["Flood", "Mist"] (hal.coolantCap.setWidth 32)

def doorOptions : List String :=
  let door := hal.signalsCap.getLsbD 3
  removeElements ["Ignore when idle", "Keep coolant state on door open"] (maskOf [door, !hal.parkingAtInit || door])

def gangedAxes : List String :=
  match hal.getGanged with
  | some (ganged, _) => removeElements ["X-Axis", "Y-Axis", "Z-Axis"] (ganged.setWidth 32)
  | none => ["X-Axis", "Y-Axis", "Z-Axis"]

def homingOptions : List String :=
  let options := ["Enable", "Enable single axis commands", "Homing on startup required", "Set machine origin to 0",
    "Two switches shares one input", "Allow manual", "Override locks", "N/A", "Use limit switches", "Per axis feedrates",
    "Run startup scripts only on homing completed"]
  if hal.driverHoming then options else removeElements options (setBit 0xFFFF HomingFlag.useLimitSwitches false)

def fsOptions : List String :=
  removeElements ["Auto mount SD card", "Hide LittleFS", "Hierarchical listing"] (maskOf [hal.sdCard, hal.littlefs, true])

end

/-! ## Availability -/

def isSettingAvailable (hal : Hal) (s : GlobalSettings) : ℕ → Bool
  | Id.gangedDirInvertMask => hal.getGanged.any fun ganged => ganged.1 != 0
  | Id.invertProbePin | Id.probePullUpDisable | Id.probingFlags => hal.probeGetState
  | Id.spindlePWMBehaviour => false
  | Id.spindlePWMOptions => hal.pwmSpindle && hal.spindleCaps.laser
  | Id.controlInvertMask | Id.controlPullUpDisableMask => hal.signalsCap &&& ~~~setBit 0 14 true != 0
  | Id.spindleInvertMask => hal.spindleCaps.gpioControlled
  | Id.pwmFreq | Id.pwmOffValue | Id.pwmMinValue | Id.pwmMaxValue => hal.pwmSpindle
  | Id.spindleType => hal.spindleCount > 1
  | Id.spindlePPR => hal.spindleEncoder
  | Id.rpmMax | Id.rpmMin => hal.spindleCaps.variableSpeed
  | Id.homingCycle4 | Id.rotaryAxes | Id.rotaryWrap => hal.nAxis > 3
  | Id.sleepEnable => true
  | Id.toolChangeMode | Id.toolChangeProbingDistance | Id.toolChangeFeedRate | Id.toolChangeSeekRate | Id.toolChangePulloffRate |
      Id.toolChangeOptions => !hal.atc
  | Id.dualAxisLengthFailPercent | Id.dualAxisLengthFailMin | Id.dualAxisLengthFailMax | Id.axisAutoSquareOffset =>
      hal.getGanged.any fun ganged => ganged.2 != 0
  | Id.axisHomingFeedRate | Id.axisHomingSeekRate => s.homing.flags.getLsbD HomingFlag.perAxisFeedrates
  | Id.doorOptions => hal.signalsCap.getLsbD 3 || !s.parking.flags.getLsbD 0
  | Id.doorSpindleOnDelay => hal.spindleCount != 0 && !hal.spindleActiveCaps.atSpeed
  | Id.doorCoolantOnDelay | Id.coolantOnDelay => hal.coolantCap != 0
  | Id.spindleAtSpeedTolerance => hal.spindleActiveCaps.atSpeed || hal.spindleEncoder
  | Id.spindleOnDelay | Id.spindleOffDelay => hal.spindleCount != 0
  | Id.autoReportInterval => hal.getElapsedTicks
  | Id.unlockAfterEStop => hal.signalsCap.getLsbD 6
  | Id.encoderSpindle => hal.spindleEncoder && decide (hal.spindleCount > 1)
  | Id.rgbStripLength0 => hal.rgb0IsStrip
  | Id.rgbStripLength1 => hal.rgb1IsStrip
  | Id.fsOptions | Id.subroutineOptions => hal.sdCard || hal.littlefs
  | Id.homePinsInvertMask => hal.homingGetState && hal.homeCap != 0
  | Id.motorWarningsEnable | Id.motorWarningsInvert => hal.motorWarningCap != 0
  | Id.motorFaultsEnable | Id.motorFaultsInvert => hal.motorFaultCap != 0
  | _ => false

/-- `is_group_available`, for the group of the spindle synchronization. -/
def isGroupAvailable (hal : Hal) (_ : GlobalSettings) (_ : ℕ) : Bool := hal.spindleSync

/-! ## The table -/

def settingDetail (hal : Hal) : List SettingDetail :=
  [{ id := Id.pulseMicroseconds, datatype := .decimal, value := .setFloat setPulseWidth, minValue := some (Numbers.ftoa hal.stepUsMin 1).text },
    { id := Id.stepperIdleLockTime, datatype := .int16, value := .uint16 fun v s => { s with steppers.idleLockTime := v }
      maxValue := some "65535".toList },
    { id := Id.stepInvertMask, datatype := .axisMask, value := .setInt setAxisMask },
    { id := Id.dirInvertMask, datatype := .axisMask, value := .setInt setAxisMask },
    { id := Id.invertStepperEnable, datatype := .axisMask, value := .setInt setAxisMask },
    { id := Id.limitPinsInvertMask, datatype := .axisMask, value := .setInt setAxisMask },
    { id := Id.invertProbePin, datatype := .bitfield, value := .setInt setProbeInvert, format := probeSignals hal
      isAvailable := some isSettingAvailable },
    { id := Id.spindlePWMBehaviour, datatype := .bool, value := .setInt setPwmMode, isAvailable := some isSettingAvailable },
    { id := Id.gangedDirInvertMask, datatype := .bitfield, value := .setInt setGangedDirInvert, format := gangedAxes hal
      isAvailable := some isSettingAvailable },
    { id := Id.spindlePWMOptions, datatype := .xBitfield, value := .setInt setPwmOptions
      format := ["Enable", "RPM controls spindle enable signal", "Disable laser mode capability", "Enable ramping"]
      isAvailable := some isSettingAvailable },
    { id := Id.statusReportMask, datatype := .bitfield, value := .setInt setReportMask
      format := ["Position in machine coordinate", "Buffer state", "Line numbers", "Feed & speed", "Pin state", "Work coordinate offset",
        "Overrides", "Probe coordinates", "Buffer sync on WCO change", "Parser state", "Alarm substatus", "Run substatus",
        "Enable when homing", "Distance-to-go"] },
    { id := Id.junctionDeviation, datatype := .decimal, value := .float fun v s => { s with junctionDeviation := v } },
    { id := Id.arcTolerance, datatype := .decimal, value := .float fun v s => { s with arcTolerance := v } },
    { id := Id.reportInches, datatype := .bool, value := .setInt setReportInches },
    { id := Id.controlInvertMask, datatype := .bitfield, value := .setInt setControlInvert, format := controlSignals hal
      isAvailable := some isSettingAvailable },
    { id := Id.coolantInvertMask, datatype := .bitfield, value := .uint8 fun v s => { s with coolantInvert := v }, format := coolantSignals hal },
    { id := Id.spindleInvertMask, datatype := .bitfield, value := .setInt setSpindleInvert, format := spindleSignals hal
      isAvailable := some isSettingAvailable },
    { id := Id.controlPullUpDisableMask, datatype := .bitfield, value := .setInt setControlDisablePullup, format := controlSignals hal
      isAvailable := some isSettingAvailable },
    { id := Id.limitPullUpDisableMask, datatype := .axisMask, value := .setInt setAxisMask },
    { id := Id.probePullUpDisable, datatype := .bitfield, value := .setInt setProbeDisablePullup, format := probeSignals hal
      isAvailable := some isSettingAvailable },
    { id := Id.softLimitsEnable, datatype := .bool, value := .setInt setSoftLimitsEnable },
    { id := Id.hardLimitsEnable, datatype := .xBitfield, value := .setInt setHardLimitsEnable
      format := ["Enable", "Strict mode", "Disable for rotary axes"] },
    { id := Id.homingEnable, datatype := .xBitfield, value := .setInt setHomingEnable, format := homingOptions hal },
    { id := Id.homingDirMask, datatype := .axisMask, value := .setInt setAxisMask },
    { id := Id.homingFeedRate, datatype := .decimal, value := .setFloat setHomingFeedrates },
    { id := Id.homingSeekRate, datatype := .decimal, value := .setFloat setHomingFeedrates },
    { id := Id.homingDebounceDelay, datatype := .int16, value := .uint16 fun v s => { s with homing.debounceDelay := v } },
    { id := Id.homingPulloff, datatype := .decimal, value := .setFloat setHomingPulloff },
    { id := Id.g73Retract, datatype := .decimal, value := .float fun v s => { s with g73Retract := v } },
    { id := Id.pulseDelayMicroseconds, datatype := .decimal, value := .float fun v s => { s with steppers.pulseDelayMicroseconds := v }
      maxValue := some "20".toList },
    { id := Id.rpmMax, datatype := .decimal, value := .float fun v s => { s with pwmSpindle.rpmMax := v }
      isAvailable := some isSettingAvailable },
    { id := Id.rpmMin, datatype := .decimal, value := .float fun v s => { s with pwmSpindle.rpmMin := v }
      isAvailable := some isSettingAvailable },
    { id := Id.mode, datatype := .radioButtons, value := .setInt setMode, format := ["Normal", "Laser mode", "Lathe mode"] },
    { id := Id.pwmFreq, datatype := .decimal, value := .float fun v s => { s with pwmSpindle.pwmFreq := v }
      isAvailable := some isSettingAvailable },
    { id := Id.pwmOffValue, datatype := .decimal, value := .float fun v s => { s with pwmSpindle.pwmOffValue := v }
      maxValue := some "100".toList, isAvailable := some isSettingAvailable },
    { id := Id.pwmMinValue, datatype := .decimal, value := .float fun v s => { s with pwmSpindle.pwmMinValue := v }
      maxValue := some "100".toList, isAvailable := some isSettingAvailable },
    { id := Id.pwmMaxValue, datatype := .decimal, value := .float fun v s => { s with pwmSpindle.pwmMaxValue := v }
      maxValue := some "100".toList, isAvailable := some isSettingAvailable },
    { id := Id.steppersEnergize, datatype := .axisMask, value := .setInt setAxisMask },
    { id := Id.spindlePPR, datatype := .int16, value := .uint16 fun v s => { s with spindle.ppr := v }, isAvailable := some isSettingAvailable },
    { id := Id.enableLegacyRTCommands, datatype := .bool, value := .setInt setEnableLegacyRtCommands },
    { id := Id.jogSoftLimited, datatype := .bool, value := .setInt setJogSoftLimited },
    { id := Id.parkingEnable, datatype := .xBitfield, value := .setInt setParkingEnable
      format := ["Enable", "Deactivate upon init", "Enable parking override control"] },
    { id := Id.parkingAxis, datatype := .radioButtons, value := .uint8 fun v s => { s with parking.axis := v }, format := ["X", "Y", "Z"] },
    { id := Id.homingLocateCycles, datatype := .int8, value := .uint8 fun v s => { s with homing.locateCycles := v }
      minValue := some "1".toList, maxValue := some "128".toList },
    { id := Id.homingCycle1, datatype := .axisMask, value := .setInt setAxisMask },
    { id := Id.homingCycle2, datatype := .axisMask, value := .setInt setAxisMask },
    { id := Id.homingCycle3, datatype := .axisMask, value := .setInt setAxisMask },
    { id := Id.homingCycle4, datatype := .axisMask, value := .setInt setAxisMask, isAvailable := some isSettingAvailable },
    { id := Id.parkingPulloutIncrement, datatype := .decimal, value := .float fun v s => { s with parking.pulloutIncrement := v } },
    { id := Id.parkingPulloutRate, datatype := .decimal, value := .float fun v s => { s with parking.pulloutRate := v } },
    { id := Id.parkingTarget, datatype := .decimal, value := .float fun v s => { s with parking.target := v }
      minValue := some "-100000".toList },
    { id := Id.parkingFastRate, datatype := .decimal, value := .float fun v s => { s with parking.rate := v } },
    { id := Id.restoreOverrides, datatype := .bool, value := .setInt setRestoreOverrides },
    { id := Id.doorOptions, datatype := .bitfield, value := .uint8 fun v s => { s with safetyDoor.flags := v }, format := doorOptions hal
      isAvailable := some isSettingAvailable },
    { id := Id.sleepEnable, datatype := .bool, value := .setInt setSleepEnable, isAvailable := some isSettingAvailable },
    { id := Id.holdActions, datatype := .bitfield, value := .setInt setHoldActions
      format := ["Disable laser during hold", "Restore spindle and coolant state on resume"] },
    { id := Id.forceInitAlarm, datatype := .bool, value := .setInt setForceInitializationAlarm },
    { id := Id.probingFlags, datatype := .bitfield, value := .setInt setProbeFlags, format := probingOptions hal
      isAvailable := some isSettingAvailable },
    { id := Id.positionPGain, datatype := .decimal, value := .float fun v s => { s with positionPGain := v }
      isAvailable := some isGroupAvailable },
    { id := Id.positionIGain, datatype := .decimal, value := .float fun v s => { s with positionIGain := v }
      isAvailable := some isGroupAvailable },
    { id := Id.positionDGain, datatype := .decimal, value := .float fun v s => { s with positionDGain := v }
      isAvailable := some isGroupAvailable },
    { id := Id.positionIMaxError, datatype := .decimal, value := .float fun v s => { s with positionIMaxError := v }
      isAvailable := some isGroupAvailable },
    { id := Id.axisStepsPerMM, datatype := .decimal, value := .setFloat setAxisSetting },
    { id := Id.axisMaxRate, datatype := .decimal, value := .setFloat setAxisSetting },
    { id := Id.axisAcceleration, datatype := .decimal, value := .setFloat setAxisSetting },
    { id := Id.axisMaxTravel, datatype := .decimal, value := .setFloat setAxisSetting },
    { id := Id.axisAutoSquareOffset, datatype := .decimal, value := .setFloat setAxisSetting, minValue := some "-10".toList
      maxValue := some "10".toList, isAvailable := some isSettingAvailable },
    { id := Id.axisHomingFeedRate, datatype := .decimal, value := .setFloat setAxisSetting, core := false
      isAvailable := some isSettingAvailable },
    { id := Id.axisHomingSeekRate, datatype := .decimal, value := .setFloat setAxisSetting, core := false
      isAvailable := some isSettingAvailable },
    { id := Id.spindleAtSpeedTolerance, datatype := .decimal, value := .setFloat setFloat, isAvailable := some isSettingAvailable },
    { id := Id.toolChangeMode, datatype := .radioButtons, value := .setInt setToolChangeMode
      format := ["Normal", "Manual touch off", "Manual touch off @ G59.3", "Automatic touch off @ G59.3", "Ignore M6"]
      isAvailable := some isSettingAvailable },
    { id := Id.toolChangeProbingDistance, datatype := .decimal, value := .setFloat setToolChangeProbingDistance
      isAvailable := some isSettingAvailable },
    { id := Id.toolChangeFeedRate, datatype := .decimal, value := .float fun v s => { s with toolChange.feedRate := v }
      isAvailable := some isSettingAvailable },
    { id := Id.toolChangeSeekRate, datatype := .decimal, value := .float fun v s => { s with toolChange.seekRate := v }
      isAvailable := some isSettingAvailable },
    { id := Id.toolChangePulloffRate, datatype := .decimal, value := .float fun v s => { s with toolChange.pulloffRate := v }
      isAvailable := some isSettingAvailable },
    { id := Id.toolChangeOptions, datatype := .bitfield, value := .setInt setToolchangeFlags
      format := ["Restore position after M6", "Change tool at G30", "Fast probe pull off"], isAvailable := some isSettingAvailable },
    { id := Id.dualAxisLengthFailPercent, datatype := .decimal, value := .float fun v s => { s with homing.failLengthPercent := v }
      minValue := some "0".toList, maxValue := some "100".toList, isAvailable := some isSettingAvailable },
    { id := Id.dualAxisLengthFailMin, datatype := .decimal, value := .float fun v s => { s with homing.failDistanceMin := v }
      isAvailable := some isSettingAvailable },
    { id := Id.dualAxisLengthFailMax, datatype := .decimal, value := .float fun v s => { s with homing.failDistanceMax := v }
      isAvailable := some isSettingAvailable },
    { id := Id.disableG92Persistence, datatype := .bool, value := .setInt setG92DisablePersistence },
    { id := Id.rotaryAxes, datatype := .bitfield, value := .setInt setRotaryAxes, format := ["A-Axis"], isAvailable := some isSettingAvailable },
    { id := Id.doorSpindleOnDelay, datatype := .decimal, value := .float fun v s => { s with safetyDoor.spindleOnDelay := v }
      minValue := some "0.5".toList, maxValue := some "20".toList, allowNull := true },
    { id := Id.doorCoolantOnDelay, datatype := .decimal, value := .float fun v s => { s with safetyDoor.coolantOnDelay := v }
      minValue := some "0.5".toList, maxValue := some "20".toList, allowNull := true },
    { id := Id.spindleOnDelay, datatype := .decimal, value := .setFloat setFloat, minValue := some "0.5".toList
      maxValue := some "20".toList, isAvailable := some isSettingAvailable, allowNull := true },
    { id := Id.spindleType, datatype := .radioButtons, value := .setInt setDefaultSpindle, format := hal.spindleTypes
      isAvailable := some isSettingAvailable },
    { id := Id.plannerBlocks, datatype := .int16, value := .uint16 fun v s => { s with plannerBufferBlocks := v }
      minValue := some "30".toList, maxValue := some "1000".toList },
    { id := Id.autoReportInterval, datatype := .int16, value := .setInt setReportInterval, minValue := some "100".toList
      maxValue := some "1000".toList, allowNull := true },
    { id := Id.unlockAfterEStop, datatype := .bool, value := .setInt setEstopUnlock, isAvailable := some isSettingAvailable },
    { id := Id.enableToolPersistence, datatype := .bool, value := .setInt setPersistentTool },
    { id := Id.offsetLock, datatype := .bitfield, value := .uint8 fun v s => { s with offsetLock := v }, format := ["G59.1", "G59.2", "G59.3"] },
    { id := Id.encoderSpindle, datatype := .radioButtons, value := .setInt setEncoderSpindle, format := hal.spindleTypes
      isAvailable := some isSettingAvailable },
    { id := Id.rgbStripLength0, datatype := .int8, value := .uint8 fun v s => { s with rgbLength0 := v }, maxValue := some "255".toList
      core := false, isAvailable := some isSettingAvailable },
    { id := Id.rgbStripLength1, datatype := .int8, value := .uint8 fun v s => { s with rgbLength1 := v }, maxValue := some "255".toList
      core := false, isAvailable := some isSettingAvailable },
    { id := Id.rotaryWrap, datatype := .bitfield, value := .setInt setRotaryWrapAxes, format := ["A-Axis"]
      isAvailable := some isSettingAvailable },
    { id := Id.spindleOffDelay, datatype := .decimal, value := .setFloat setFloat, minValue := some "0.5".toList
      maxValue := some "20".toList, isAvailable := some isSettingAvailable, allowNull := true },
    { id := Id.fsOptions, datatype := .bitfield, value := .uint8 fun v s => { s with fsOptions := v }, format := fsOptions hal
      isAvailable := some isSettingAvailable },
    { id := Id.homePinsInvertMask, datatype := .axisMask, value := .setInt setAxisMask, isAvailable := some isSettingAvailable },
    { id := Id.coolantOnDelay, datatype := .decimal, value := .setFloat setFloat, minValue := some "0.5".toList
      maxValue := some "20".toList, isAvailable := some isSettingAvailable, allowNull := true },
    { id := Id.motorWarningsEnable, datatype := .axisMask, value := .setInt setAxisMask, isAvailable := some isSettingAvailable },
    { id := Id.motorWarningsInvert, datatype := .axisMask, value := .setInt setAxisMask, isAvailable := some isSettingAvailable },
    { id := Id.motorFaultsEnable, datatype := .axisMask, value := .setInt setAxisMask, isAvailable := some isSettingAvailable },
    { id := Id.motorFaultsInvert, datatype := .axisMask, value := .setInt setAxisMask, isAvailable := some isSettingAvailable },
    { id := Id.resetActions, datatype := .bitfield, value := .setInt setResetActions
      format := ["Clear homed status if position was lost", "Clear offsets (except G92)", "Clear rapids override", "Clear feed override"] },
    { id := Id.stepperEnableDelay, datatype := .int16, value := .uint16 fun v s => { s with stepperEnableDelay := v }
      maxValue := some "500".toList },
    { id := Id.subroutineOptions, datatype := .bitfield, value := .setInt setSuboptions, format := ["Prescan for internal M98 subroutines"]
      isAvailable := some isSettingAvailable }]

/-- `setting_get_details`; an identifier of an axis is that of the first one and the index of the axis. -/
def settingGetDetails (hal : Hal) (s : GlobalSettings) (id : ℕ) : Option SettingDetail :=
  let offset := id - normalizeId id
  match (settingDetail hal).find? fun d => d.id = normalizeId id ∧ d.isAvailable.all fun available => available hal s d.id with
  | some d => if offset ≠ 0 ∧ 4 ≤ offset then none else some d
  | none => none

/-! ## What is refused changes nothing -/

/-- The function of the setting, if it has one, is atomic. -/
def Value.Atomic : Value → Prop
  | .setInt f => f.Atomic
  | .setFloat f => f.Atomic
  | _ => True

theorem Value.Atomic.set {v : Value} (h : v.Atomic) (hal : Hal) (id : ℕ) (datatype : Datatype) (value : FloatValue)
    (intValue : BitVec 32) (m : Machine) : Global.Atomic m (v.set hal id datatype value intValue m) := by
  cases v with
  | uint8 store => exact .accept _
  | uint16 store => exact .accept _
  | float store => exact .accept _
  | setInt f => exact h hal id intValue m
  | setFloat f => exact h hal id value m

/-- The entry of the spindle signals, the one whose function is not. -/
structure IsSpindleInvert (hal : Hal) (d : SettingDetail) : Prop where
  id : d.id = Id.spindleInvertMask
  datatype : d.datatype = .bitfield
  value : d.value = .setInt setSpindleInvert
  format : d.format = spindleSignals hal
  isAvailable : d.isAvailable = some isSettingAvailable

theorem settingDetail_atomic (hal : Hal) : ∀ d ∈ settingDetail hal, d.value.Atomic ∨ IsSpindleInvert hal d := by
  simp only [settingDetail, List.forall_mem_cons, List.not_mem_nil, false_implies, implies_true, and_true, true_and, true_or,
    Value.Atomic, SetInt.accept_atomic, SetFloat.accept_atomic, setPulseWidth_atomic, setProbeInvert_atomic,
    setGangedDirInvert_atomic, setPwmOptions_atomic, setDefaultSpindle_atomic, setEncoderSpindle_atomic,
    setProbeDisablePullup_atomic, setSoftLimitsEnable_atomic, setEstopUnlock_atomic, setJogSoftLimited_atomic, setMode_atomic,
    setHomingFeedrates_atomic, setToolChangeMode_atomic, setToolChangeProbingDistance_atomic, setToolchangeFlags_atomic,
    setAxisSetting_atomic, setAxisMask, setReportInterval, setReportMask, setReportInches, setControlInvert, setPwmMode,
    setControlDisablePullup, setPersistentTool, setHardLimitsEnable, setEnableLegacyRtCommands, setSuboptions, setParkingEnable,
    setRestoreOverrides, setHomingPulloff, setHomingEnable, setSleepEnable, setHoldActions, setResetActions,
    setG92DisablePersistence, setForceInitializationAlarm, setProbeFlags, setRotaryAxes, setRotaryWrapAxes, setFloat]
  exact .inr ⟨rfl, rfl, rfl, rfl, rfl⟩

theorem spindleSignals_length {hal : Hal} (hgpio : hal.spindleCaps.gpioControlled = true) (hinvert : hal.spindleCaps.pwmInvert = false) :
    (spindleSignals hal).length ≤ 2 := by
  simp only [spindleSignals, hgpio, hinvert, if_true]
  cases hal.spindleCaps.direction <;> decide

/-- What `setting_get_details` finds is in the table and available. -/
theorem settingGetDetails_spec {hal : Hal} {s : GlobalSettings} {id : ℕ} {d : SettingDetail} (h : settingGetDetails hal s id = some d) :
    d ∈ settingDetail hal ∧ d.id = normalizeId id ∧ ∀ available ∈ d.isAvailable, available hal s d.id = true := by
  simp only [settingGetDetails] at h
  split at h
  · rename_i d' hfind
    have hd : d' = d := by
      split at h
      · cases h
      · exact Option.some.inj h
    subst hd
    have hp := List.find?_some hfind
    simp only [decide_eq_true_eq, Option.all_eq_true] at hp
    exact ⟨List.mem_of_find?_eq_some hfind, hp.1, hp.2⟩
  · cases h

theorem settingDetail_spindlePWMBehaviour {hal : Hal} {d : SettingDetail}
    (h : (settingDetail hal)[Id.spindlePWMBehaviour]? = some d) : d ∈ settingDetail hal ∧ d.id = Id.spindlePWMBehaviour :=
  ⟨List.mem_of_getElem? h, congrArg SettingDetail.id (Option.some.inj h).symm⟩

end Grbl.Settings.Global
