import Grbl.Settings.Global

/-!
# The functions that set a setting

`settings.c`, lines 589 to 1537. `uint_fast16_t` has 32 bits.

* `SetInt`, `SetFloat` : `setting_set_int_ptr`, `setting_set_float_ptr`; then the functions, in the order of the source;
* `Atomic`, `SetInt.Atomic`, `SetFloat.Atomic` : a value that is refused changes nothing; a lemma for each function that refuses;
* `setSpindleInvert_atomic` : when the function that writes before it refuses is atomic.
-/

namespace Grbl.Settings.Global
open Function

/-- `setting_set_int_ptr` -/
abbrev SetInt := Hal → ℕ → BitVec 32 → Machine → Status × Machine

/-- `setting_set_float_ptr` -/
abbrev SetFloat := Hal → ℕ → FloatValue → Machine → Status × Machine

/-- A setter that refuses nothing. -/
def SetInt.accept (f : Hal → ℕ → BitVec 32 → Machine → Machine) : SetInt := fun hal id value m => (.ok, f hal id value m)

def SetFloat.accept (f : Hal → ℕ → FloatValue → Machine → Machine) : SetFloat := fun hal id value m => (.ok, f hal id value m)

/-! ## Masks, probes and reports -/

def homingPulloffInit (m : Machine) (pulloff : FloatValue) : Machine := { m with homingPulloff := fun _ => pulloff }

def setAxisMask : SetInt := .accept fun _ id value m =>
  let value : BitVec 8 := (value &&& axesBitmask).setWidth 8
  m.write fun s => match id with
    | Id.stepInvertMask => { s with steppers.stepInvert := value }
    | Id.dirInvertMask => { s with steppers.dirInvert := value }
    | Id.invertStepperEnable => { s with steppers.enableInvert := value }
    | Id.limitPinsInvertMask => { s with limits.invert := value }
    | Id.limitPullUpDisableMask => { s with limits.disablePullup := value }
    | Id.homingDirMask => { s with homing.dirMask := value }
    | Id.steppersEnergize => { s with steppers.energize := value }
    | Id.homingCycle1 | Id.homingCycle2 | Id.homingCycle3 | Id.homingCycle4 =>
        { s with homing.cycle := update s.homing.cycle (id - Id.homingCycle1) value }
    | Id.homePinsInvertMask => { s with homeInvert := value }
    | Id.motorWarningsEnable => { s with motorWarningEnable := value }
    | Id.motorWarningsInvert => { s with motorWarningInvert := value }
    | Id.motorFaultsEnable => { s with motorFaultEnable := value }
    | Id.motorFaultsInvert => { s with motorFaultInvert := value }
    | _ => s

/-- `validate_pulse_width`; its check is commented out. -/
def validatePulseWidth (_maxRate _stepsPerMm _pulseWidth : FloatValue) : Status := .ok

def setPulseWidth : SetFloat := fun hal _ value m =>
  let s := m.settings
  let status := Axis.all.reverse.foldl (fun status i =>
    if status = .ok ∧ hal.nAxis > 3 ∧ s.steppers.isRotary.getLsbD (axisIndex i) = false then
      validatePulseWidth (s.axis i).maxRate (s.axis i).stepsPerMm value
    else status) .ok
  if status = .ok then (.ok, m.write fun s => { s with steppers.pulseMicroseconds := value }) else (status, m)

def setProbeInvert : SetInt := fun hal id value m =>
  if !hal.probeConfigure then (.settingDisabled, m)
  else
    let m := m.write fun s => { s with probe.invertProbePin := value.getLsbD 0 }
    let m := if hal.toolsetter then m.write fun s => { s with probe.invertToolsetterInput := value.getLsbD 1 } else m
    let m := if hal.probe2 then m.write fun s => { s with probe.invertProbe2Input := value.getLsbD 2 } else m
    (.ok, (m.call (.ioportSettingChanged id)).call .probeConfigure)

def setGangedDirInvert : SetInt := fun hal _ value m =>
  match hal.getGanged with
  | none => (.settingDisabled, m)
  | some (ganged, _) => (.ok, m.write fun s => { s with steppers.gangedDirInvert := value.setWidth 8 &&& ganged })

def setReportInterval : SetInt := .accept fun _ _ value m =>
  let m := m.write fun s => { s with reportInterval := value.setWidth 16 }
  if m.settings.reportInterval = 0 then { m with sys.autoReporting := false } else m

def setReportMask : SetInt := .accept fun _ _ value m => m.write fun s => { s with statusReport := value.setWidth 16 }

def setReportInches : SetInt := .accept fun _ _ value m =>
  ((m.write fun s => { s with flags.reportInches := value != 0 }).call .reportInit).call .flagWcoChange

/-- `limits_override.mask` -/
def limitsOverride : BitVec 16 := setBit 0 10 true

def setControlInvert : SetInt := .accept fun hal id value m =>
  let mask := (value.setWidth 16 &&& hal.signalsCap) ||| limitsOverride
  let pdChanged := hal.probeConnectedToggle && m.settings.controlInvert.getLsbD 7 != mask.getLsbD 7
  let m := ((m.write fun s => { s with controlInvert := mask }).call (.ioportSettingChanged id)).call .initSwitches
  if pdChanged then m.call .probeConnectedToggle else m

/-! ## Spindle -/

def setPwmMode : SetInt := .accept fun _ _ value m => m.write fun s => { s with pwmSpindle.enableRpmControlled := value != 0 }

def setPwmOptions : SetInt := fun _ _ value m =>
  if value.getLsbD 0 then
    if value > 0b01111 then (.settingValueOutOfRange, m)
    else
      (.ok, m.write fun s => { s with
        pwmSpindle.pwmDisable := false
        pwmSpindle.enableRpmControlled := value.getLsbD 1
        pwmSpindle.laserModeDisable := value.getLsbD 2
        pwmSpindle.pwmRamped := value.getLsbD 3 })
  else
    (.ok, m.write fun s => { s with
      pwmSpindle.pwmDisable := true
      pwmSpindle.enableRpmControlled := false
      pwmSpindle.laserModeDisable := false
      pwmSpindle.pwmRamped := false
      pwmSpindle.ignoreDelays := false })

/-- `spindle_enumerate_spindles(get_spindle_ref_id, ..)` -/
def spindleRefId (hal : Hal) (value : BitVec 32) : Option (BitVec 8) :=
  (hal.spindles.find? fun spindle => spindle.1 = value.setWidth 8).map (·.2)

def setDefaultSpindle : SetInt := fun hal _ value m =>
  match spindleRefId hal value with
  | none => (.settingValueOutOfRange, m)
  | some refId => (.ok, (m.write fun s => { s with spindle.refId := refId }).call (.spindleSelect (value.setWidth 8)))

def setEncoderSpindle : SetInt := fun hal _ value m =>
  match spindleRefId hal value with
  | none => (.settingValueOutOfRange, m)
  | some refId => (.ok, m.write fun s => { s with spindle.encoderSpindle := refId })

def setSpindleInvert : SetInt := fun hal _ value m =>
  let m := m.write fun s => { s with pwmSpindle.invert := value.setWidth 8 }
  if m.settings.pwmSpindle.invert.getLsbD 2 && !hal.spindleCaps.pwmInvert then
    (.settingDisabled, m.write fun s => { s with pwmSpindle.invert := setBit s.pwmSpindle.invert 2 false })
  else (.ok, m)

/-! ## Inputs, limits and modes -/

def setControlDisablePullup : SetInt := .accept fun hal id value m =>
  (m.write fun s => { s with controlDisablePullup := value.setWidth 16 &&& (hal.signalsCap &&& ~~~limitsOverride) }).call
    (.ioportSettingChanged id)

def setProbeDisablePullup : SetInt := fun hal id value m =>
  if !hal.probeConfigure then (.settingDisabled, m)
  else
    let m := m.write fun s => { s with probe.disableProbePullup := value.getLsbD 0 }
    let m := if hal.toolsetter then m.write fun s => { s with probe.disableToolsetterPullup := value.getLsbD 1 } else m
    (.ok, m.call (.ioportSettingChanged id))

def tmpSetSoftLimits (m : Machine) : Machine :=
  let s := m.settings
  { m with
    sys.softLimits :=
      if s.limits.softEnabled ≠ 0 then
        axesMask fun i => s.limits.softEnabled.getLsbD (axisIndex i) && (s.axis i).maxTravel.lt (some 0)
      else 0 }

def setSoftLimitsEnable : SetInt := fun _ _ value m =>
  if value ≠ 0 ∧ m.settings.homing.flags.getLsbD HomingFlag.enabled = false then (.softLimitError, m)
  else (.ok, tmpSetSoftLimits (m.write fun s => { s with limits.softEnabled := if value ≠ 0 then axesBitmask else 0 }))

def setEstopUnlock : SetInt := fun hal _ value m =>
  if !hal.signalsCap.getLsbD 6 then (.settingDisabled, m)
  else (.ok, m.write fun s => { s with flags.noUnlockAfterEstop := value == 0 })

def setPersistentTool : SetInt := .accept fun _ _ value m => m.write fun s => { s with flags.toolPersistent := value != 0 }

def tmpSetHardLimits (m : Machine) : Machine :=
  let mask : BitVec 8 := if m.settings.limits.hardEnabled then axesBitmask else 0
  { m with sys.hardLimits := if m.settings.limits.hardDisabledRotary then mask &&& ~~~m.settings.steppers.isRotary else mask }

def setHardLimitsEnable : SetInt := .accept fun _ _ value m =>
  let m := m.write fun s => { s with limits.hardEnabled := value.getLsbD 0 }
  let m := m.write fun s =>
    if s.limits.hardEnabled then { s with limits.checkAtInit := value.getLsbD 1, limits.hardDisabledRotary := value.getLsbD 2 }
    else { s with limits.checkAtInit := false, limits.hardDisabledRotary := false }
  let m := tmpSetHardLimits m
  m.call (.limitsEnable m.settings.limits.hardEnabled)

def setJogSoftLimited : SetInt := fun _ _ value m =>
  if value ≠ 0 ∧ m.settings.homing.flags.getLsbD HomingFlag.enabled = false then (.softLimitError, m)
  else (.ok, m.write fun s => { s with limits.jogSoftLimited := value != 0 })

def setEnableLegacyRtCommands : SetInt := .accept fun _ _ value m => m.write fun s => { s with flags.legacyRtCommands := value != 0 }

def setSuboptions : SetInt := .accept fun _ _ value m => m.write fun s => { s with flags.m98PrescanEnable := value != 0 }

/-- The end of `set_mode`. -/
def storeMode (value : BitVec 32) (m : Machine) : Machine :=
  { m with machineModeChanged := true }.write fun s => { s with mode := value.setWidth 8 }

def setMode : SetInt := fun hal _ value m =>
  match value.setWidth 8 with
  | Mode.standard => (.ok, storeMode value { m with diameterMode := false })
  | Mode.laser =>
      if !hal.spindleCaps.laser then (.settingDisabledLaser, m) else (.ok, storeMode value { m with diameterMode := false })
  | Mode.lathe => (.ok, storeMode value m)
  | _ => (.invalidStatement, m)

def setParkingEnable : SetInt := .accept fun _ _ value m =>
  let m := m.write fun s => { s with parking.flags := if value.getLsbD 0 then value.setWidth 8 &&& 0x07 else 0 }
  if m.settings.parking.flags.getLsbD 1 then m.write fun s => { s with parking.flags := setBit s.parking.flags 2 true } else m

def setRestoreOverrides : SetInt := .accept fun _ _ value m => m.write fun s => { s with flags.restoreOverrides := value != 0 }

/-! ## Homing -/

def setHomingPulloff : SetFloat := .accept fun _ _ value m =>
  homingPulloffInit (m.write fun s => { s with homing.pulloff := value }) value

/-- The loops of `set_homing_feedrates`. -/
def homingFeedrates (hal : Hal) (id : ℕ) (value : FloatValue) (s : GlobalSettings) : GlobalSettings :=
  match id with
  | Id.homingFeedRate =>
      { s with axis := fun i => if axisIndex i < hal.nAxis then { s.axis i with homingFeedRate := value } else s.axis i }
  | Id.homingSeekRate =>
      { s with axis := fun i => if axisIndex i < hal.nAxis then { s.axis i with homingSeekRate := value } else s.axis i }
  | _ => s

def setHomingFeedrates : SetFloat := fun hal id value m =>
  if m.settings.homing.flags.getLsbD HomingFlag.perAxisFeedrates = false then (.ok, m.write (homingFeedrates hal id value))
  else (.settingDisabled, m)

/-- The first part of `set_homing_enable`. -/
def homingFlags (hal : Hal) (value : BitVec 32) (m : Machine) : Machine :=
  let m := m.write fun s => { s with homing.flags := value.setWidth 16 }
  if m.settings.homing.flags.getLsbD HomingFlag.enabled then
    m.write fun s => { s with
      limits.twoSwitches := s.homing.flags.getLsbD HomingFlag.twoSwitches
      homing.flags := setBit s.homing.flags HomingFlag.twoSwitches false }
  else
    let m := m.write fun s => { s with homing.flags := setBit s.homing.flags HomingFlag.enabled true }
    let m := (setSoftLimitsEnable hal Id.softLimitsEnable 0 m).2
    m.write fun s => { s with homing.flags := 0, limits.jogSoftLimited := false }

def setHomingEnable : SetInt := .accept fun hal _ value m =>
  let flags := m.settings.homing.flags
  let resetFeeds := !flags.getLsbD HomingFlag.enabled || flags.getLsbD HomingFlag.perAxisFeedrates
  let m := homingFlags hal value m
  let flags := m.settings.homing.flags
  let m :=
    if flags.getLsbD HomingFlag.enabled && resetFeeds && !flags.getLsbD HomingFlag.perAxisFeedrates then
      let m := (setHomingFeedrates hal Id.homingFeedRate (m.settings.axis .x).homingFeedRate m).2
      (setHomingFeedrates hal Id.homingSeekRate (m.settings.axis .x).homingSeekRate m).2
    else m
  m.write fun s => { s with
    homing.flags := setBit s.homing.flags HomingFlag.useLimitSwitches
      (s.homing.flags.getLsbD HomingFlag.useLimitSwitches && hal.homingGetState) }

/-! ## Actions and tool changes -/

def setSleepEnable : SetInt := .accept fun _ _ value m => m.write fun s => { s with flags.sleepEnable := value != 0 }

def setHoldActions : SetInt := .accept fun _ _ value m =>
  m.write fun s => { s with flags.disableLaserDuringHold := value.getLsbD 0, flags.restoreAfterFeedHold := value.getLsbD 1 }

def setResetActions : SetInt := .accept fun _ _ value m =>
  m.write fun s => { s with
    homing.flags := setBit s.homing.flags HomingFlag.keepOnReset (!value.getLsbD 0)
    flags.keepOffsetsOnReset := !value.getLsbD 1
    flags.keepRapidsOverrideOnReset := !value.getLsbD 2
    flags.keepFeedOverrideOnReset := !value.getLsbD 3 }

def setG92DisablePersistence : SetInt := .accept fun _ _ value m => m.write fun s => { s with flags.g92IsVolatile := value != 0 }

def setForceInitializationAlarm : SetInt := .accept fun _ _ value m =>
  m.write fun s => { s with flags.forceInitializationAlarm := value != 0 }

def setProbeFlags : SetInt := .accept fun hal _ value m =>
  (m.write fun s => { s with
    probe.allowFeedOverride := value.getLsbD 0
    probe.softLimited := value.getLsbD 1
    probe.toolsetterAutoSelect := value.getLsbD 3 && hal.toolsetter && hal.probeSelect
    probe.probe2AutoSelect := value.getLsbD 4 && hal.probe2 && hal.probeSelect
    probe.enableProtection := value.getLsbD 5 }).call .probeConfigure

def setToolChangeMode : SetInt := fun hal _ value m =>
  if !hal.atc ∧ hal.suspendRead ∧ value ≤ toolChangeIgnore then
    (.ok, (m.write fun s => { s with toolChange.mode := value }).call .toolChangeInit)
  else (.invalidStatement, m)

def setToolChangeProbingDistance : SetFloat := fun hal _ value m =>
  if hal.atc then (.invalidStatement, m) else (.ok, m.write fun s => { s with toolChange.probingDistance := value })

def setToolchangeFlags : SetInt := fun hal _ value m =>
  if hal.atc then (.invalidStatement, m)
  else
    (.ok, m.write fun s => { s with
      flags.noRestorePositionAfterM6 := !value.getLsbD 0
      flags.toolChangeAtG30 := value.getLsbD 1
      flags.toolChangeFastPulloff := value.getLsbD 2 })

/-! ## Axes -/

def setRotaryAxes : SetInt := .accept fun _ _ value m =>
  m.write fun s => { s with steppers.isRotary := ((value <<< 3) &&& axesBitmask).setWidth 8 }

def setRotaryWrapAxes : SetInt := .accept fun _ _ value m =>
  m.write fun s => { s with steppers.rotaryWrap := ((value <<< 3) &&& axesBitmask).setWidth 8 }

/-- `normalize_id`; the number of encoder settings and the Modbus TCP settings come in tens. -/
def normalizeId (id : ℕ) : ℕ :=
  if 100 < id ∧ id ≤ 194 ∨ 800 < id ∧ id ≤ 894 ∨ 200 < id ∧ id ≤ 294 then id - id % 10
  else if 400 < id ∧ id ≤ 449 then 400 + id % 10
  else if 600 < id ∧ id ≤ 639 then 600 + id % 5
  else id

/-- `settings_get_axis_base`, and the axis of the index. -/
def settingsGetAxisBase (id : ℕ) : ℕ × Axis :=
  match Axis.all[id - normalizeId id]? with
  | some i => (normalizeId id, i)
  | none => (Id.settingsMax, .x)

/-- `(uint16_t)(value * 1000.0f)` -/
def milliseconds (value : FloatValue) : BitVec 16 := BitVec.ofInt 16 (value.mul (some 1000)).toInt

def setFloat : SetFloat := .accept fun _ id value m =>
  m.write fun s => match id with
    | Id.spindleAtSpeedTolerance => { s with spindle.atSpeedTolerance := value, pwmSpindle.atSpeedTolerance := value }
    | Id.spindleOnDelay => { s with spindle.onDelay := milliseconds value }
    | Id.spindleOffDelay => { s with spindle.offDelay := milliseconds value }
    | Id.coolantOnDelay => { s with coolantOnDelay := milliseconds value }
    | _ => s

/-- `settings.axis[idx]` is changed. -/
def Machine.writeAxis (m : Machine) (idx : Axis) (f : AxisSettings → AxisSettings) : Machine :=
  m.write fun s => { s with axis := update s.axis idx (f (s.axis idx)) }

/-- `position *= comp` -/
def scale (comp : FloatValue) (position : ℤ) : ℤ := (FloatValue.mul (some position) comp).toInt

/-- The positions are kept when the steps of an axis per millimetre change. -/
def compensate (m : Machine) (idx : Axis) (value : FloatValue) : Machine :=
  let stepsPerMm := (m.settings.axis idx).stepsPerMm
  if FloatValue.lt (some 0) stepsPerMm && !stepsPerMm.eq value then
    let comp := value.div stepsPerMm
    { m with
      sys.position := update m.sys.position idx (scale comp (m.sys.position idx))
      sys.homePosition := update m.sys.homePosition idx ((m.sys.homePosition idx).mul comp)
      sys.probePosition := update m.sys.probePosition idx (scale comp (m.sys.probePosition idx))
      sys.tloReference := update m.sys.tloReference idx (scale comp (m.sys.tloReference idx)) }.call .syncPosition
  else m

/-- `Setting_AxisMaxTravel` -/
def storeMaxTravel (m : Machine) (idx : Axis) (value : FloatValue) : Machine :=
  let m :=
    if !(m.settings.axis idx).maxTravel.eq value.neg then
      { m with sys.travelChanged := true, sys.homed := setBit m.sys.homed (axisIndex idx) false }.call .reportHomed
    else m
  tmpSetSoftLimits (m.writeAxis idx fun a => { a with maxTravel := value.neg })

def setAxisSetting : SetFloat := fun hal id value m =>
  let (base, idx) := settingsGetAxisBase id
  let axis := m.settings.axis idx
  match base with
  | Id.axisStepsPerMM =>
      let status := validatePulseWidth axis.maxRate value m.settings.steppers.pulseMicroseconds
      if status = .ok then (.ok, (compensate m idx value).writeAxis idx fun a => { a with stepsPerMm := value }) else (status, m)
  | Id.axisMaxRate =>
      let status := validatePulseWidth value axis.stepsPerMm m.settings.steppers.pulseMicroseconds
      if status = .ok then (.ok, m.writeAxis idx fun a => { a with maxRate := value }) else (status, m)
  | Id.axisAcceleration =>
      let acceleration := (value.mul (some 60)).mul (some 60)
      (.ok, { m with overrideAcceleration := update m.overrideAcceleration idx acceleration }.writeAxis idx
        fun a => { a with acceleration := acceleration })
  | Id.axisMaxTravel => (.ok, storeMaxTravel m idx value)
  | Id.axisBacklash => (.settingDisabled, m)
  | Id.axisAutoSquareOffset =>
      match hal.getGanged with
      | some (_, autoSquared) =>
          if autoSquared.getLsbD (axisIndex idx) then (.ok, m.writeAxis idx fun a => { a with dualAxisOffset := value })
          else (.settingDisabled, m)
      | none => (.settingDisabled, m)
  | Id.axisHomingFeedRate =>
      if m.settings.homing.flags.getLsbD HomingFlag.perAxisFeedrates then
        (.ok, m.writeAxis idx fun a => { a with homingFeedRate := value })
      else (.settingDisabled, m)
  | Id.axisHomingSeekRate =>
      if m.settings.homing.flags.getLsbD HomingFlag.perAxisFeedrates then
        (.ok, m.writeAxis idx fun a => { a with homingSeekRate := value })
      else (.settingDisabled, m)
  | _ => (.settingDisabled, m)

/-! ## What is refused changes nothing -/

/-- A result of a setter in `m`: unless the status is OK, all is as before. -/
def Atomic (m : Machine) (r : Status × Machine) : Prop := r.1 = .ok ∨ r.2 = m

def SetInt.Atomic (f : SetInt) : Prop := ∀ hal id value m, Global.Atomic m (f hal id value m)

def SetFloat.Atomic (f : SetFloat) : Prop := ∀ hal id value m, Global.Atomic m (f hal id value m)

namespace Atomic
variable {m : Machine}

theorem refuse (status : Status) : Atomic m (status, m) := .inr rfl

theorem accept (m' : Machine) : Atomic m (.ok, m') := .inl rfl

theorem ite_of {c : Prop} [Decidable c] {r s : Status × Machine} (hr : c → Atomic m r) (hs : ¬c → Atomic m s) :
    Atomic m (if c then r else s) := by
  split
  · exact hr ‹c›
  · exact hs ‹¬c›

theorem ite {c : Prop} [Decidable c] {r s : Status × Machine} (hr : Atomic m r) (hs : Atomic m s) : Atomic m (if c then r else s) :=
  ite_of (fun _ => hr) fun _ => hs

end Atomic

theorem SetInt.accept_atomic (f : Hal → ℕ → BitVec 32 → Machine → Machine) : (SetInt.accept f).Atomic := fun _ _ _ _ => .accept _

theorem SetFloat.accept_atomic (f : Hal → ℕ → FloatValue → Machine → Machine) : (SetFloat.accept f).Atomic := fun _ _ _ _ => .accept _

theorem setPulseWidth_atomic : setPulseWidth.Atomic := fun _ _ _ _ => .ite (.accept _) (.refuse _)

theorem setProbeInvert_atomic : setProbeInvert.Atomic := fun _ _ _ _ => .ite (.refuse _) (.accept _)

theorem setGangedDirInvert_atomic : setGangedDirInvert.Atomic := by
  intro hal _ _ _
  unfold setGangedDirInvert
  cases hal.getGanged with
  | none => exact .refuse _
  | some ganged => exact .accept _

theorem setPwmOptions_atomic : setPwmOptions.Atomic := fun _ _ _ _ => .ite (.ite (.refuse _) (.accept _)) (.accept _)

theorem setDefaultSpindle_atomic : setDefaultSpindle.Atomic := by
  intro hal _ value _
  unfold setDefaultSpindle
  cases spindleRefId hal value with
  | none => exact .refuse _
  | some refId => exact .accept _

theorem setEncoderSpindle_atomic : setEncoderSpindle.Atomic := by
  intro hal _ value _
  unfold setEncoderSpindle
  cases spindleRefId hal value with
  | none => exact .refuse _
  | some refId => exact .accept _

theorem setSpindleInvert_atomic {hal : Hal} {value : BitVec 32} (h : value.getLsbD 2 = true → hal.spindleCaps.pwmInvert = true)
    (id : ℕ) (m : Machine) : Atomic m (setSpindleInvert hal id value m) := by
  have hbit : ((value.setWidth 8).getLsbD 2 && !hal.spindleCaps.pwmInvert) = false := by
    rw [BitVec.getLsbD_setWidth]
    cases hvalue : value.getLsbD 2 with
    | false => simp
    | true => simp [h hvalue]
  refine .inl ?_
  simp only [setSpindleInvert, Machine.write, hbit]
  rfl

theorem setProbeDisablePullup_atomic : setProbeDisablePullup.Atomic := fun _ _ _ _ => .ite (.refuse _) (.accept _)

theorem setSoftLimitsEnable_atomic : setSoftLimitsEnable.Atomic := fun _ _ _ _ => .ite (.refuse _) (.accept _)

theorem setEstopUnlock_atomic : setEstopUnlock.Atomic := fun _ _ _ _ => .ite (.refuse _) (.accept _)

theorem setJogSoftLimited_atomic : setJogSoftLimited.Atomic := fun _ _ _ _ => .ite (.refuse _) (.accept _)

theorem setMode_atomic : setMode.Atomic := by
  intro _ _ _ _
  unfold setMode
  split
  · exact .accept _
  · exact .ite (.refuse _) (.accept _)
  · exact .accept _
  · exact .refuse _

theorem setHomingFeedrates_atomic : setHomingFeedrates.Atomic := fun _ _ _ _ => .ite (.accept _) (.refuse _)

theorem setToolChangeMode_atomic : setToolChangeMode.Atomic := fun _ _ _ _ => .ite (.accept _) (.refuse _)

theorem setToolChangeProbingDistance_atomic : setToolChangeProbingDistance.Atomic := fun _ _ _ _ => .ite (.refuse _) (.accept _)

theorem setToolchangeFlags_atomic : setToolchangeFlags.Atomic := fun _ _ _ _ => .ite (.refuse _) (.accept _)

theorem setAxisSetting_atomic : setAxisSetting.Atomic := by
  intro hal id value m
  unfold setAxisSetting
  generalize settingsGetAxisBase id = p
  obtain ⟨base, idx⟩ := p
  dsimp only
  split
  · exact .ite (.accept _) (.refuse _)
  · exact .ite (.accept _) (.refuse _)
  · exact .accept _
  · exact .accept _
  · exact .refuse _
  · cases hal.getGanged with
    | none => exact .refuse _
    | some ganged => exact .ite (.accept _) (.refuse _)
  · exact .ite (.accept _) (.refuse _)
  · exact .ite (.accept _) (.refuse _)
  · exact .refuse _

end Grbl.Settings.Global
