import Mathlib
import Grbl.Axis

/-!
# The global settings

`settings.h`, `system.h`: the fields that settings of the core write, with the widths of the source. The build has four axes and
one spindle; floats are exact, and `none` is `NAN`.

* `FloatValue` : floats; `setBit` : one bit of a bit field;
* `GlobalSettings` : `settings_t`; `Sys` : `sys`; `Call` : what is called of other files; `Machine` : all that `settings.c` writes;
* `SpindleCap`, `Hal` : what the driver supports;
* `Id` : `setting_id_t`; `Status` : `status_code_t`.
-/

namespace Grbl.Settings.Global

abbrev FloatValue := Option ℚ

namespace FloatValue

/-- `a < b` -/
def lt : FloatValue → FloatValue → Bool
  | some a, some b => a < b
  | _, _ => false

/-- `a <= b` -/
def le : FloatValue → FloatValue → Bool
  | some a, some b => a ≤ b
  | _, _ => false

/-- `a == b` -/
def eq : FloatValue → FloatValue → Bool
  | some a, some b => a = b
  | _, _ => false

def neg (a : FloatValue) : FloatValue := a.map (-·)

def mul (a b : FloatValue) : FloatValue := a.bind fun x => b.map (x * ·)

def div (a b : FloatValue) : FloatValue := a.bind fun x => b.map (x / ·)

/-- The conversion to an integer, which drops the fraction. -/
def toInt : FloatValue → ℤ
  | some a => a.num.tdiv a.den
  | none => 0

end FloatValue

/-- `if(on) v |= bit(i); else v &= ~bit(i)` -/
def setBit {w : ℕ} (v : BitVec w) (i : ℕ) (on : Bool) : BitVec w := if on then v ||| (1#w <<< i) else v &&& ~~~(1#w <<< i)

def axisIndex : Axis → ℕ
  | .x => 0
  | .y => 1
  | .z => 2
  | .a => 3

def axesBitmask {w : ℕ} : BitVec w := 0xF#w

def axesMask (p : Axis → Bool) : BitVec 8 := Axis.all.foldl (fun mask i => if p i then setBit mask (axisIndex i) true else mask) 0

/-! ## The settings -/

/-- `axis_settings_t` -/
structure AxisSettings where
  stepsPerMm : FloatValue
  maxRate : FloatValue
  acceleration : FloatValue
  maxTravel : FloatValue
  dualAxisOffset : FloatValue
  homingSeekRate : FloatValue
  homingFeedRate : FloatValue
  deriving DecidableEq, Inhabited

/-- `stepper_settings_t` -/
structure StepperSettings where
  stepInvert : BitVec 8
  dirInvert : BitVec 8
  gangedDirInvert : BitVec 8
  enableInvert : BitVec 8
  energize : BitVec 8
  isRotary : BitVec 8
  rotaryWrap : BitVec 8
  pulseMicroseconds : FloatValue
  pulseDelayMicroseconds : FloatValue
  idleLockTime : BitVec 16
  deriving DecidableEq, Inhabited

/-- `settingflags_t` -/
structure SettingFlags where
  reportInches : Bool
  restoreOverrides : Bool
  sleepEnable : Bool
  disableLaserDuringHold : Bool
  forceInitializationAlarm : Bool
  legacyRtCommands : Bool
  restoreAfterFeedHold : Bool
  g92IsVolatile : Bool
  compatibilityLevel : BitVec 4
  noRestorePositionAfterM6 : Bool
  noUnlockAfterEstop : Bool
  keepOffsetsOnReset : Bool
  toolChangeAtG30 : Bool
  toolChangeFastPulloff : Bool
  toolPersistent : Bool
  keepRapidsOverrideOnReset : Bool
  keepFeedOverrideOnReset : Bool
  m98PrescanEnable : Bool
  deriving DecidableEq, Inhabited

/-- `probeflags_t` -/
structure ProbeFlags where
  invertProbePin : Bool
  disableProbePullup : Bool
  allowFeedOverride : Bool
  enableProtection : Bool
  invertToolsetterInput : Bool
  disableToolsetterPullup : Bool
  softLimited : Bool
  toolsetterAutoSelect : Bool
  invertProbe2Input : Bool
  probe2AutoSelect : Bool
  deriving DecidableEq, Inhabited

/-- `homing_settings_t`; the bits of `flags` are those of `HomingFlag`. -/
structure HomingSettings where
  pulloff : FloatValue
  failLengthPercent : FloatValue
  failDistanceMax : FloatValue
  failDistanceMin : FloatValue
  debounceDelay : BitVec 16
  flags : BitVec 16
  dirMask : BitVec 8
  locateCycles : BitVec 8
  cycle : ℕ → BitVec 8
  deriving Inhabited

/-! The bits of `homing_settings_flags_t` that are read or written one by one. -/

namespace HomingFlag

abbrev enabled : ℕ := 0
abbrev twoSwitches : ℕ := 4
abbrev keepOnReset : ℕ := 7
abbrev useLimitSwitches : ℕ := 8
abbrev perAxisFeedrates : ℕ := 9

end HomingFlag

/-- `limit_settings_t` -/
structure LimitSettings where
  hardEnabled : Bool
  checkAtInit : Bool
  jogSoftLimited : Bool
  twoSwitches : Bool
  hardDisabledRotary : Bool
  invert : BitVec 8
  disablePullup : BitVec 8
  softEnabled : BitVec 8
  deriving DecidableEq, Inhabited

/-- `parking_settings_t`; the bits of `flags` are enabled, deactivated upon init and override control. -/
structure ParkingSettings where
  flags : BitVec 8
  axis : BitVec 8
  target : FloatValue
  rate : FloatValue
  pulloutRate : FloatValue
  pulloutIncrement : FloatValue
  deriving DecidableEq, Inhabited

/-- `safety_door_settings_t` -/
structure SafetyDoorSettings where
  flags : BitVec 8
  spindleOnDelay : FloatValue
  coolantOnDelay : FloatValue
  deriving DecidableEq, Inhabited

/-- `spindle_settings_t` -/
structure SpindleSettings where
  refId : BitVec 8
  encoderSpindle : BitVec 8
  ppr : BitVec 16
  onDelay : BitVec 16
  offDelay : BitVec 16
  atSpeedTolerance : FloatValue
  deriving DecidableEq, Inhabited

/-- `spindle_pwm_settings_t`; the bits of `invert` are those of `spindle_state_t`: on, counterclockwise and PWM. -/
structure SpindlePwmSettings where
  invert : BitVec 8
  enableRpmControlled : Bool
  laserModeDisable : Bool
  pwmDisable : Bool
  pwmRamped : Bool
  ignoreDelays : Bool
  rpmMax : FloatValue
  rpmMin : FloatValue
  pwmFreq : FloatValue
  pwmOffValue : FloatValue
  pwmMinValue : FloatValue
  pwmMaxValue : FloatValue
  atSpeedTolerance : FloatValue
  deriving DecidableEq, Inhabited

/-- `tool_change_settings_t` -/
structure ToolChangeSettings where
  mode : BitVec 32
  feedRate : FloatValue
  seekRate : FloatValue
  pulloffRate : FloatValue
  probingDistance : FloatValue
  deriving DecidableEq, Inhabited

/-- `settings_t` -/
structure GlobalSettings where
  junctionDeviation : FloatValue
  arcTolerance : FloatValue
  g73Retract : FloatValue
  reportInterval : BitVec 16
  plannerBufferBlocks : BitVec 16
  mode : BitVec 8
  toolChange : ToolChangeSettings
  axis : Axis → AxisSettings
  controlInvert : BitVec 16
  controlDisablePullup : BitVec 16
  homeInvert : BitVec 8
  coolantInvert : BitVec 8
  coolantOnDelay : BitVec 16
  spindle : SpindleSettings
  pwmSpindle : SpindlePwmSettings
  steppers : StepperSettings
  statusReport : BitVec 16
  flags : SettingFlags
  probe : ProbeFlags
  rgbLength0 : BitVec 8
  rgbLength1 : BitVec 8
  offsetLock : BitVec 8
  fsOptions : BitVec 8
  limits : LimitSettings
  parking : ParkingSettings
  safetyDoor : SafetyDoorSettings
  positionPGain : FloatValue
  positionIGain : FloatValue
  positionDGain : FloatValue
  positionIMaxError : FloatValue
  homing : HomingSettings
  motorWarningEnable : BitVec 8
  motorWarningInvert : BitVec 8
  motorFaultEnable : BitVec 8
  motorFaultInvert : BitVec 8
  stepperEnableDelay : BitVec 16
  deriving Inhabited

namespace Mode

@[match_pattern] abbrev standard : BitVec 8 := 0
@[match_pattern] abbrev laser : BitVec 8 := 1
@[match_pattern] abbrev lathe : BitVec 8 := 2

end Mode

/-- `toolchange_mode_t` -/
abbrev toolChangeIgnore : BitVec 32 := 4

/-! ## What else is written -/

structure Sys where
  position : Axis → ℤ
  homePosition : Axis → FloatValue
  probePosition : Axis → ℤ
  tloReference : Axis → ℤ
  homed : BitVec 8
  hardLimits : BitVec 8
  softLimits : BitVec 8
  travelChanged : Bool
  autoReporting : Bool
  deriving Inhabited

/-- The calls of functions of other files and of the driver. -/
inductive Call
  | ioportSettingChanged (id : ℕ)
  | probeConfigure
  | probeConnectedToggle
  | reportInit
  | flagWcoChange
  | initSwitches
  | spindleSelect (id : BitVec 8)
  | limitsEnable (on : Bool)
  | toolChangeInit
  | syncPosition
  | reportHomed
  | setHomingSource
  | settingsChanged (spindle : Bool)
  | stepperEnable (energize : BitVec 8)
  | setHomingAxes
  deriving DecidableEq

/-- All that `settings.c` writes: the settings and what is derived of them, the static variables, what is in non-volatile storage,
and the calls, last one first. -/
structure Machine where
  settings : GlobalSettings
  sys : Sys
  homingPulloff : Axis → FloatValue
  overrideValid : Bool
  overrideAcceleration : Axis → FloatValue
  diameterMode : Bool
  machineModeChanged : Bool
  spindleSettings : SpindleSettings
  spindlePwmSettings : SpindlePwmSettings
  nvs : GlobalSettings
  calls : List Call
  deriving Inhabited

namespace Machine

def write (m : Machine) (f : GlobalSettings → GlobalSettings) : Machine := { m with settings := f m.settings }

def call (m : Machine) (c : Call) : Machine := { m with calls := c :: m.calls }

end Machine

/-! ## The driver -/

/-- `spindle_cap_t` -/
structure SpindleCap where
  direction : Bool := false
  variableSpeed : Bool := false
  atSpeed : Bool := false
  laser : Bool := false
  pwmInvert : Bool := false
  gpioControlled : Bool := false
  deriving DecidableEq

/-- What is registered with the core before the settings are loaded. -/
structure Hal where
  /-- `hal.probe.configure`, `.get_state`, `.select` and `.connected_toggle`: whether they are set -/
  probeConfigure : Bool := false
  probeGetState : Bool := false
  probeSelect : Bool := false
  probeConnectedToggle : Bool := false
  /-- `hal.driver_cap` -/
  toolsetter : Bool := false
  probe2 : Bool := false
  pwmSpindle : Bool := false
  spindleEncoder : Bool := false
  spindleSync : Bool := false
  atc : Bool := false
  sdCard : Bool := false
  littlefs : Bool := false
  /-- `hal.stepper.get_ganged(false)` and `(true)`, when it is set -/
  getGanged : Option (BitVec 8 × BitVec 8) := none
  signalsCap : BitVec 16 := 0
  coolantCap : BitVec 8 := 0
  /-- `hal.homing.get_state`, and whether the driver has set it before the settings are loaded -/
  homingGetState : Bool := true
  driverHoming : Bool := false
  homeCap : BitVec 8 := 0
  motorWarningCap : BitVec 8 := 0
  motorFaultCap : BitVec 8 := 0
  suspendRead : Bool := false
  getElapsedTicks : Bool := false
  rgb0IsStrip : Bool := false
  rgb1IsStrip : Bool := false
  /-- `hal.step_us_min` -/
  stepUsMin : ℚ := 0
  /-- `system_n_axis()` -/
  nAxis : ℕ := 4
  /-- The identifiers and the reference identifiers of the spindles, and `spindle_get_count()`. -/
  spindles : List (BitVec 8 × BitVec 8) := []
  spindleCount : ℕ := 0
  spindleTypes : List String := []
  /-- `settings.parking.flags.enabled` when the settings are loaded -/
  parkingAtInit : Bool := false
  /-- `spindle_get_caps(false)` and `spindle_get_caps(true)` -/
  spindleCaps : SpindleCap := {}
  spindleActiveCaps : SpindleCap := {}

/-! ## Identifiers and statuses -/

namespace Id

@[match_pattern] abbrev pulseMicroseconds : ℕ := 0
@[match_pattern] abbrev stepperIdleLockTime : ℕ := 1
@[match_pattern] abbrev stepInvertMask : ℕ := 2
@[match_pattern] abbrev dirInvertMask : ℕ := 3
@[match_pattern] abbrev invertStepperEnable : ℕ := 4
@[match_pattern] abbrev limitPinsInvertMask : ℕ := 5
@[match_pattern] abbrev invertProbePin : ℕ := 6
@[match_pattern] abbrev spindlePWMBehaviour : ℕ := 7
@[match_pattern] abbrev gangedDirInvertMask : ℕ := 8
@[match_pattern] abbrev spindlePWMOptions : ℕ := 9
@[match_pattern] abbrev statusReportMask : ℕ := 10
@[match_pattern] abbrev junctionDeviation : ℕ := 11
@[match_pattern] abbrev arcTolerance : ℕ := 12
@[match_pattern] abbrev reportInches : ℕ := 13
@[match_pattern] abbrev controlInvertMask : ℕ := 14
@[match_pattern] abbrev coolantInvertMask : ℕ := 15
@[match_pattern] abbrev spindleInvertMask : ℕ := 16
@[match_pattern] abbrev controlPullUpDisableMask : ℕ := 17
@[match_pattern] abbrev limitPullUpDisableMask : ℕ := 18
@[match_pattern] abbrev probePullUpDisable : ℕ := 19
@[match_pattern] abbrev softLimitsEnable : ℕ := 20
@[match_pattern] abbrev hardLimitsEnable : ℕ := 21
@[match_pattern] abbrev homingEnable : ℕ := 22
@[match_pattern] abbrev homingDirMask : ℕ := 23
@[match_pattern] abbrev homingFeedRate : ℕ := 24
@[match_pattern] abbrev homingSeekRate : ℕ := 25
@[match_pattern] abbrev homingDebounceDelay : ℕ := 26
@[match_pattern] abbrev homingPulloff : ℕ := 27
@[match_pattern] abbrev g73Retract : ℕ := 28
@[match_pattern] abbrev pulseDelayMicroseconds : ℕ := 29
@[match_pattern] abbrev rpmMax : ℕ := 30
@[match_pattern] abbrev rpmMin : ℕ := 31
@[match_pattern] abbrev mode : ℕ := 32
@[match_pattern] abbrev pwmFreq : ℕ := 33
@[match_pattern] abbrev pwmOffValue : ℕ := 34
@[match_pattern] abbrev pwmMinValue : ℕ := 35
@[match_pattern] abbrev pwmMaxValue : ℕ := 36
@[match_pattern] abbrev steppersEnergize : ℕ := 37
@[match_pattern] abbrev spindlePPR : ℕ := 38
@[match_pattern] abbrev enableLegacyRTCommands : ℕ := 39
@[match_pattern] abbrev jogSoftLimited : ℕ := 40
@[match_pattern] abbrev parkingEnable : ℕ := 41
@[match_pattern] abbrev parkingAxis : ℕ := 42
@[match_pattern] abbrev homingLocateCycles : ℕ := 43
@[match_pattern] abbrev homingCycle1 : ℕ := 44
@[match_pattern] abbrev homingCycle2 : ℕ := 45
@[match_pattern] abbrev homingCycle3 : ℕ := 46
@[match_pattern] abbrev homingCycle4 : ℕ := 47
@[match_pattern] abbrev parkingPulloutIncrement : ℕ := 56
@[match_pattern] abbrev parkingPulloutRate : ℕ := 57
@[match_pattern] abbrev parkingTarget : ℕ := 58
@[match_pattern] abbrev parkingFastRate : ℕ := 59
@[match_pattern] abbrev restoreOverrides : ℕ := 60
@[match_pattern] abbrev doorOptions : ℕ := 61
@[match_pattern] abbrev sleepEnable : ℕ := 62
@[match_pattern] abbrev holdActions : ℕ := 63
@[match_pattern] abbrev forceInitAlarm : ℕ := 64
@[match_pattern] abbrev probingFlags : ℕ := 65
@[match_pattern] abbrev positionPGain : ℕ := 90
@[match_pattern] abbrev positionIGain : ℕ := 91
@[match_pattern] abbrev positionDGain : ℕ := 92
@[match_pattern] abbrev positionIMaxError : ℕ := 95
@[match_pattern] abbrev axisStepsPerMM : ℕ := 100
@[match_pattern] abbrev axisMaxRate : ℕ := 110
@[match_pattern] abbrev axisAcceleration : ℕ := 120
@[match_pattern] abbrev axisMaxTravel : ℕ := 130
@[match_pattern] abbrev axisBacklash : ℕ := 160
@[match_pattern] abbrev axisAutoSquareOffset : ℕ := 170
@[match_pattern] abbrev axisHomingFeedRate : ℕ := 180
@[match_pattern] abbrev axisHomingSeekRate : ℕ := 190
@[match_pattern] abbrev spindleAtSpeedTolerance : ℕ := 340
@[match_pattern] abbrev toolChangeMode : ℕ := 341
@[match_pattern] abbrev toolChangeProbingDistance : ℕ := 342
@[match_pattern] abbrev toolChangeFeedRate : ℕ := 343
@[match_pattern] abbrev toolChangeSeekRate : ℕ := 344
@[match_pattern] abbrev toolChangePulloffRate : ℕ := 345
@[match_pattern] abbrev toolChangeOptions : ℕ := 346
@[match_pattern] abbrev dualAxisLengthFailPercent : ℕ := 347
@[match_pattern] abbrev dualAxisLengthFailMin : ℕ := 348
@[match_pattern] abbrev dualAxisLengthFailMax : ℕ := 349
@[match_pattern] abbrev rotaryAxes : ℕ := 376
@[match_pattern] abbrev disableG92Persistence : ℕ := 384
@[match_pattern] abbrev doorSpindleOnDelay : ℕ := 392
@[match_pattern] abbrev doorCoolantOnDelay : ℕ := 393
@[match_pattern] abbrev spindleOnDelay : ℕ := 394
@[match_pattern] abbrev spindleType : ℕ := 395
@[match_pattern] abbrev plannerBlocks : ℕ := 398
@[match_pattern] abbrev autoReportInterval : ℕ := 481
@[match_pattern] abbrev unlockAfterEStop : ℕ := 484
@[match_pattern] abbrev enableToolPersistence : ℕ := 485
@[match_pattern] abbrev offsetLock : ℕ := 486
@[match_pattern] abbrev encoderSpindle : ℕ := 519
@[match_pattern] abbrev rgbStripLength0 : ℕ := 536
@[match_pattern] abbrev rgbStripLength1 : ℕ := 537
@[match_pattern] abbrev rotaryWrap : ℕ := 538
@[match_pattern] abbrev spindleOffDelay : ℕ := 539
@[match_pattern] abbrev fsOptions : ℕ := 650
@[match_pattern] abbrev homePinsInvertMask : ℕ := 671
@[match_pattern] abbrev coolantOnDelay : ℕ := 673
@[match_pattern] abbrev resetActions : ℕ := 676
@[match_pattern] abbrev stepperEnableDelay : ℕ := 680
@[match_pattern] abbrev subroutineOptions : ℕ := 700
@[match_pattern] abbrev motorWarningsEnable : ℕ := 742
@[match_pattern] abbrev motorWarningsInvert : ℕ := 743
@[match_pattern] abbrev motorFaultsEnable : ℕ := 744
@[match_pattern] abbrev motorFaultsInvert : ℕ := 745
/-- `Setting_SettingsMax` -/
@[match_pattern] abbrev settingsMax : ℕ := 895

end Id

/-- `status_code_t` -/
inductive Status
  | ok | badNumberFormat | invalidStatement | negativeValue | settingStepPulseMin | softLimitError | settingDisabledLaser
  | gcodeCommandValueNotInteger | settingValueOutOfRange | settingDisabled
  deriving DecidableEq, Repr

end Grbl.Settings.Global
