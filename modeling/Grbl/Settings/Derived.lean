import Mathlib
import Grbl.Settings.Store

/-!
# What is derived of the settings

`settings.c`: the masks of the soft and hard limits and the pull-off distances are kept outside of the settings, and so is the copy in
non-volatile storage.

* `softLimitsMask`, `hardLimitsMask` : the masks as the settings have them; `InStep` : what is derived is in step;
* `Same` : settings from which the same is derived; `SetInt.Keeps`, `SetFloat.Keeps`, `Value.Keeps` : in step before and after;
* `settingDetail_keeps`, `settingStored_inStep` : the table, and what follows a value that is accepted;
* `settings_stay_in_step`.
-/

namespace Grbl.Settings.Global
open Function

def softLimitsMask (s : GlobalSettings) : BitVec 8 :=
  if s.limits.softEnabled ≠ 0 then
    axesMask fun i => s.limits.softEnabled.getLsbD (axisIndex i) && (s.axis i).maxTravel.lt (some 0)
  else 0

def hardLimitsMask (s : GlobalSettings) : BitVec 8 :=
  let mask : BitVec 8 := if s.limits.hardEnabled then axesBitmask else 0
  if s.limits.hardDisabledRotary then mask &&& ~~~s.steppers.isRotary else mask

/-- The masks of the limits and the pull-off distances are those of the settings. `rotary` says whether the rotary axes may have been
changed since: the mask of the hard limits is not computed again then. -/
structure InStep (rotary : Bool) (m : Machine) : Prop where
  soft : m.sys.softLimits = softLimitsMask m.settings
  hard : rotary = false → m.sys.hardLimits = hardLimitsMask m.settings
  pulloff : ∀ i, m.homingPulloff i = m.settings.homing.pulloff

/-- Nothing that is derived of the settings is changed. -/
@[mk_iff]
structure Same (rotary : Bool) (s' s : GlobalSettings) : Prop where
  softEnabled : s'.limits.softEnabled = s.limits.softEnabled
  maxTravel : ∀ i, (s'.axis i).maxTravel = (s.axis i).maxTravel
  hardEnabled : s'.limits.hardEnabled = s.limits.hardEnabled
  hardDisabledRotary : s'.limits.hardDisabledRotary = s.limits.hardDisabledRotary
  pulloff : s'.homing.pulloff = s.homing.pulloff
  isRotary : rotary = false → s'.steppers.isRotary = s.steppers.isRotary

section
variable {rotary : Bool}

theorem Same.refl (s : GlobalSettings) : Same rotary s s := ⟨rfl, fun _ => rfl, rfl, rfl, rfl, fun _ => rfl⟩

theorem Same.softLimitsMask {s' s : GlobalSettings} (h : Same rotary s' s) : softLimitsMask s' = softLimitsMask s := by
  simp only [Global.softLimitsMask, h.softEnabled, h.maxTravel]

namespace InStep
variable {m : Machine}

theorem write (h : InStep rotary m) {f : GlobalSettings → GlobalSettings} (hf : Same rotary (f m.settings) m.settings) :
    InStep rotary (m.write f) where
  soft := h.soft.trans hf.softLimitsMask.symm
  hard hrotary := by
    simp only [Machine.write, h.hard hrotary, hardLimitsMask, hf.hardEnabled, hf.hardDisabledRotary, hf.isRotary hrotary]
  pulloff i := (h.pulloff i).trans hf.pulloff.symm

theorem call (h : InStep rotary m) (c : Call) : InStep rotary (m.call c) := ⟨h.soft, h.hard, h.pulloff⟩

theorem ite {c : Prop} [Decidable c] {m' : Machine} (h : InStep rotary m) (h' : InStep rotary m') :
    InStep rotary (if c then m else m') := by
  split
  · exact h
  · exact h'

theorem snd (h : InStep rotary m) (status : Status) : InStep rotary (status, m).2 := h

theorem ite_snd {c : Prop} [Decidable c] {r r' : Status × Machine} (h : InStep rotary r.2) (h' : InStep rotary r'.2) :
    InStep rotary (if c then r else r').2 := by
  split
  · exact h
  · exact h'

theorem tmpSetSoftLimits (hard : rotary = false → m.sys.hardLimits = hardLimitsMask m.settings)
    (pulloff : ∀ i, m.homingPulloff i = m.settings.homing.pulloff) : InStep rotary (tmpSetSoftLimits m) := ⟨rfl, hard, pulloff⟩

end InStep

/-! ## The functions -/

def SetInt.Keeps (rotary : Bool) (f : SetInt) : Prop := ∀ hal id value m, InStep rotary m → InStep rotary (f hal id value m).2

def SetFloat.Keeps (rotary : Bool) (f : SetFloat) : Prop := ∀ hal id value m, InStep rotary m → InStep rotary (f hal id value m).2

theorem SetInt.accept_keeps {f : Hal → ℕ → BitVec 32 → GlobalSettings → GlobalSettings}
    (h : ∀ hal id value s, Same rotary (f hal id value s) s) :
    SetInt.Keeps rotary (SetInt.accept fun hal id value m => m.write (f hal id value)) :=
  fun hal id value m hm => hm.write (h hal id value m.settings)

theorem setAxisMask_keeps : setAxisMask.Keeps rotary :=
  SetInt.accept_keeps fun _ id _ s => by
    dsimp only
    split <;> exact ⟨rfl, fun _ => rfl, rfl, rfl, rfl, fun _ => rfl⟩

theorem setPulseWidth_keeps : setPulseWidth.Keeps rotary := fun _ _ _ _ hm =>
  .ite_snd (.snd (hm.write ⟨rfl, fun _ => rfl, rfl, rfl, rfl, fun _ => rfl⟩) _) (.snd hm _)

theorem setProbeInvert_keeps : setProbeInvert.Keeps rotary := by
  intro hal id value m hm
  have hpin := hm.write (f := fun s => { s with probe.invertProbePin := value.getLsbD 0 }) ⟨rfl, fun _ => rfl, rfl, rfl, rfl, fun _ => rfl⟩
  have htoolsetter := (hpin.write (f := fun s => { s with probe.invertToolsetterInput := value.getLsbD 1 })
    ⟨rfl, fun _ => rfl, rfl, rfl, rfl, fun _ => rfl⟩).ite (c := hal.toolsetter = true) hpin
  have hprobe2 := (htoolsetter.write (f := fun s => { s with probe.invertProbe2Input := value.getLsbD 2 })
    ⟨rfl, fun _ => rfl, rfl, rfl, rfl, fun _ => rfl⟩).ite (c := hal.probe2 = true) htoolsetter
  exact .ite_snd (.snd hm _) (.snd ((hprobe2.call _).call _) _)

theorem setGangedDirInvert_keeps : setGangedDirInvert.Keeps rotary := by
  intro hal id value m hm
  unfold setGangedDirInvert
  cases hal.getGanged with
  | none => exact hm
  | some ganged => exact .snd (hm.write ⟨rfl, fun _ => rfl, rfl, rfl, rfl, fun _ => rfl⟩) _

theorem setReportInterval_keeps : setReportInterval.Keeps rotary := by
  intro hal id value m hm
  have hwrite := hm.write (f := fun s => { s with reportInterval := value.setWidth 16 }) ⟨rfl, fun _ => rfl, rfl, rfl, rfl, fun _ => rfl⟩
  unfold setReportInterval SetInt.accept
  dsimp only
  split
  · exact ⟨hwrite.soft, hwrite.hard, hwrite.pulloff⟩
  · exact hwrite

theorem setReportInches_keeps : setReportInches.Keeps rotary := fun _ _ _ _ hm =>
  .snd (((hm.write ⟨rfl, fun _ => rfl, rfl, rfl, rfl, fun _ => rfl⟩).call _).call _) _

theorem setControlInvert_keeps : setControlInvert.Keeps rotary := by
  intro hal id value m hm
  have hwrite := ((hm.write (f := fun s => { s with controlInvert := (value.setWidth 16 &&& hal.signalsCap) ||| limitsOverride })
    ⟨rfl, fun _ => rfl, rfl, rfl, rfl, fun _ => rfl⟩).call (.ioportSettingChanged id)).call .initSwitches
  exact .snd (.ite (hwrite.call _) hwrite) _

theorem setPwmOptions_keeps : setPwmOptions.Keeps rotary := fun _ _ _ _ hm =>
  .ite_snd (.ite_snd (.snd hm _) (.snd (hm.write ⟨rfl, fun _ => rfl, rfl, rfl, rfl, fun _ => rfl⟩) _))
    (.snd (hm.write ⟨rfl, fun _ => rfl, rfl, rfl, rfl, fun _ => rfl⟩) _)

theorem setDefaultSpindle_keeps : setDefaultSpindle.Keeps rotary := by
  intro hal id value m hm
  unfold setDefaultSpindle
  cases spindleRefId hal value with
  | none => exact hm
  | some refId => exact .snd ((hm.write ⟨rfl, fun _ => rfl, rfl, rfl, rfl, fun _ => rfl⟩).call _) _

theorem setEncoderSpindle_keeps : setEncoderSpindle.Keeps rotary := by
  intro hal id value m hm
  unfold setEncoderSpindle
  cases spindleRefId hal value with
  | none => exact hm
  | some refId => exact .snd (hm.write ⟨rfl, fun _ => rfl, rfl, rfl, rfl, fun _ => rfl⟩) _

theorem setSpindleInvert_keeps : setSpindleInvert.Keeps rotary := by
  intro hal id value m hm
  have hwrite := hm.write (f := fun s => { s with pwmSpindle.invert := value.setWidth 8 }) ⟨rfl, fun _ => rfl, rfl, rfl, rfl, fun _ => rfl⟩
  exact .ite_snd (.snd (hwrite.write ⟨rfl, fun _ => rfl, rfl, rfl, rfl, fun _ => rfl⟩) _) (.snd hwrite _)

theorem setControlDisablePullup_keeps : setControlDisablePullup.Keeps rotary := fun _ _ _ _ hm =>
  .snd ((hm.write ⟨rfl, fun _ => rfl, rfl, rfl, rfl, fun _ => rfl⟩).call _) _

theorem setProbeDisablePullup_keeps : setProbeDisablePullup.Keeps rotary := by
  intro hal id value m hm
  have hpin := hm.write (f := fun s => { s with probe.disableProbePullup := value.getLsbD 0 }) ⟨rfl, fun _ => rfl, rfl, rfl, rfl, fun _ => rfl⟩
  have htoolsetter := (hpin.write (f := fun s => { s with probe.disableToolsetterPullup := value.getLsbD 1 })
    ⟨rfl, fun _ => rfl, rfl, rfl, rfl, fun _ => rfl⟩).ite (c := hal.toolsetter = true) hpin
  exact .ite_snd (.snd hm _) (.snd (htoolsetter.call _) _)

theorem setSoftLimitsEnable_keeps : setSoftLimitsEnable.Keeps rotary := by
  intro hal id value m hm
  refine .ite_snd hm ?_
  exact InStep.tmpSetSoftLimits (m := m.write _) hm.hard hm.pulloff

theorem setEstopUnlock_keeps : setEstopUnlock.Keeps rotary := fun _ _ _ _ hm =>
  .ite_snd (.snd hm _) (.snd (hm.write ⟨rfl, fun _ => rfl, rfl, rfl, rfl, fun _ => rfl⟩) _)

theorem setHardLimitsEnable_keeps : setHardLimitsEnable.Keeps rotary := by
  intro hal id value m hm
  unfold setHardLimitsEnable SetInt.accept
  dsimp only
  refine .call ⟨?_, fun _ => ?_, ?_⟩ _
  · cases hvalue : value.getLsbD 0 <;> exact hm.soft
  · cases hvalue : value.getLsbD 0 <;> rfl
  · cases hvalue : value.getLsbD 0 <;> exact hm.pulloff

theorem setJogSoftLimited_keeps : setJogSoftLimited.Keeps rotary := fun _ _ _ _ hm =>
  .ite_snd (.snd hm _) (.snd (hm.write ⟨rfl, fun _ => rfl, rfl, rfl, rfl, fun _ => rfl⟩) _)

theorem storeMode_inStep {m : Machine} (hm : InStep rotary m) (value : BitVec 32) : InStep rotary (storeMode value m) :=
  ⟨hm.soft, hm.hard, hm.pulloff⟩

theorem setMode_keeps : setMode.Keeps rotary := by
  intro hal id value m hm
  have hdiameter : InStep rotary { m with diameterMode := false } := ⟨hm.soft, hm.hard, hm.pulloff⟩
  unfold setMode
  split
  · exact storeMode_inStep hdiameter value
  · exact .ite_snd hm (storeMode_inStep hdiameter value)
  · exact storeMode_inStep hm value
  · exact hm

theorem setParkingEnable_keeps : setParkingEnable.Keeps rotary := by
  intro hal id value m hm
  have hwrite := hm.write
    (f := fun s => { s with parking.flags := if value.getLsbD 0 then value.setWidth 8 &&& 0x07 else 0 })
    ⟨rfl, fun _ => rfl, rfl, rfl, rfl, fun _ => rfl⟩
  exact .snd (.ite (hwrite.write ⟨rfl, fun _ => rfl, rfl, rfl, rfl, fun _ => rfl⟩) hwrite) _

theorem setHomingPulloff_keeps : setHomingPulloff.Keeps rotary := fun _ _ _ _ hm => ⟨hm.soft, hm.hard, fun _ => rfl⟩

theorem homingFeedrates_same (hal : Hal) (id : ℕ) (value : FloatValue) (s : GlobalSettings) :
    Same rotary (homingFeedrates hal id value s) s := by
  unfold homingFeedrates
  split
  · exact ⟨rfl, fun i => by dsimp only; split <;> rfl, rfl, rfl, rfl, fun _ => rfl⟩
  · exact ⟨rfl, fun i => by dsimp only; split <;> rfl, rfl, rfl, rfl, fun _ => rfl⟩
  · exact .refl s

theorem setHomingFeedrates_keeps : setHomingFeedrates.Keeps rotary := fun hal id value m hm =>
  .ite_snd (.snd (hm.write (homingFeedrates_same hal id value m.settings)) _) (.snd hm _)

theorem homingFlags_inStep {m : Machine} (hm : InStep rotary m) (hal : Hal) (value : BitVec 32) :
    InStep rotary (homingFlags hal value m) := by
  have hwrite := hm.write (f := fun s => { s with homing.flags := value.setWidth 16 }) ⟨rfl, fun _ => rfl, rfl, rfl, rfl, fun _ => rfl⟩
  refine .ite (hwrite.write ⟨rfl, fun _ => rfl, rfl, rfl, rfl, fun _ => rfl⟩) ?_
  have hon := hwrite.write (f := fun s => { s with homing.flags := setBit s.homing.flags HomingFlag.enabled true })
    ⟨rfl, fun _ => rfl, rfl, rfl, rfl, fun _ => rfl⟩
  exact (setSoftLimitsEnable_keeps hal Id.softLimitsEnable 0 _ hon).write ⟨rfl, fun _ => rfl, rfl, rfl, rfl, fun _ => rfl⟩

theorem setHomingEnable_keeps : setHomingEnable.Keeps rotary := by
  intro hal id value m hm
  have hflags := homingFlags_inStep hm hal value
  refine .snd (.write (.ite ?_ hflags) ⟨rfl, fun _ => rfl, rfl, rfl, rfl, fun _ => rfl⟩) _
  exact setHomingFeedrates_keeps _ _ _ _ (setHomingFeedrates_keeps _ _ _ _ hflags)

theorem setProbeFlags_keeps : setProbeFlags.Keeps rotary := fun _ _ _ _ hm =>
  .snd ((hm.write ⟨rfl, fun _ => rfl, rfl, rfl, rfl, fun _ => rfl⟩).call _) _

theorem setToolChangeMode_keeps : setToolChangeMode.Keeps rotary := fun _ _ _ _ hm =>
  .ite_snd (.snd ((hm.write ⟨rfl, fun _ => rfl, rfl, rfl, rfl, fun _ => rfl⟩).call _) _) (.snd hm _)

theorem setToolChangeProbingDistance_keeps : setToolChangeProbingDistance.Keeps rotary := fun _ _ _ _ hm =>
  .ite_snd (.snd hm _) (.snd (hm.write ⟨rfl, fun _ => rfl, rfl, rfl, rfl, fun _ => rfl⟩) _)

theorem setToolchangeFlags_keeps : setToolchangeFlags.Keeps rotary := fun _ _ _ _ hm =>
  .ite_snd (.snd hm _) (.snd (hm.write ⟨rfl, fun _ => rfl, rfl, rfl, rfl, fun _ => rfl⟩) _)

theorem setRotaryAxes_keeps (h : rotary = true) : setRotaryAxes.Keeps rotary :=
  SetInt.accept_keeps fun _ _ _ _ => ⟨rfl, fun _ => rfl, rfl, rfl, rfl, fun hfalse => Bool.noConfusion (h.symm.trans hfalse)⟩

theorem setFloat_keeps : setFloat.Keeps rotary := by
  intro hal id value m hm
  refine .snd (.write hm ?_) _
  dsimp only
  split <;> exact ⟨rfl, fun _ => rfl, rfl, rfl, rfl, fun _ => rfl⟩

/-! ## The settings of the axes -/

theorem InStep.writeAxis {m : Machine} (hm : InStep rotary m) (idx : Axis) {f : AxisSettings → AxisSettings}
    (hf : ∀ a, (f a).maxTravel = a.maxTravel) : InStep rotary (m.writeAxis idx f) := by
  refine hm.write ⟨rfl, fun i => ?_, rfl, rfl, rfl, fun _ => rfl⟩
  by_cases hi : i = idx
  · subst hi
    simp only [update_self, hf]
  · simp only [update_of_ne hi]

theorem compensate_inStep {m : Machine} (hm : InStep rotary m) (idx : Axis) (value : FloatValue) :
    InStep rotary (compensate m idx value) := by
  unfold compensate
  dsimp only
  split
  · exact ⟨hm.soft, hm.hard, hm.pulloff⟩
  · exact hm

theorem storeMaxTravel_inStep {m : Machine} (hm : InStep rotary m) (idx : Axis) (value : FloatValue) :
    InStep rotary (storeMaxTravel m idx value) := by
  unfold storeMaxTravel
  dsimp only
  split
  · exact .tmpSetSoftLimits hm.hard hm.pulloff
  · exact .tmpSetSoftLimits hm.hard hm.pulloff

theorem setAxisSetting_keeps : setAxisSetting.Keeps rotary := by
  intro hal id value m hm
  unfold setAxisSetting
  generalize settingsGetAxisBase id = p
  obtain ⟨base, idx⟩ := p
  dsimp only
  split
  · exact .ite_snd (.snd ((compensate_inStep hm idx value).writeAxis idx fun _ => by rfl) _) hm
  · exact .ite_snd (.snd (hm.writeAxis idx fun _ => by rfl) _) hm
  · have hbackup : InStep rotary
        { m with overrideAcceleration := update m.overrideAcceleration idx ((value.mul (some 60)).mul (some 60)) } :=
      ⟨hm.soft, hm.hard, hm.pulloff⟩
    exact .snd (hbackup.writeAxis idx fun _ => by rfl) _
  · exact storeMaxTravel_inStep hm idx value
  · exact hm
  · cases hal.getGanged with
    | none => exact hm
    | some ganged => exact .ite_snd (.snd (hm.writeAxis idx fun _ => by rfl) _) hm
  · exact .ite_snd (.snd (hm.writeAxis idx fun _ => by rfl) _) hm
  · exact .ite_snd (.snd (hm.writeAxis idx fun _ => by rfl) _) hm
  · exact hm

/-! ## The table -/

/-- What the setting writes changes nothing that is derived, or its function keeps it in step. -/
def Value.Keeps (rotary : Bool) : Value → Prop
  | .uint8 store => ∀ v s, Same rotary (store v s) s
  | .uint16 store => ∀ v s, Same rotary (store v s) s
  | .float store => ∀ v s, Same rotary (store v s) s
  | .setInt f => f.Keeps rotary
  | .setFloat f => f.Keeps rotary

theorem Value.Keeps.set {v : Value} (h : v.Keeps rotary) {m : Machine} (hm : InStep rotary m) (hal : Hal) (id : ℕ)
    (datatype : Datatype) (value : FloatValue) (intValue : BitVec 32) : InStep rotary (v.set hal id datatype value intValue m).2 := by
  cases v with
  | uint8 store => exact hm.write (h _ _)
  | uint16 store => exact hm.write (h _ _)
  | float store => exact hm.write (h _ _)
  | setInt f => exact h hal id intValue m hm
  | setFloat f => exact h hal id value m hm

theorem settingDetail_keeps (hal : Hal) : ∀ d ∈ settingDetail hal, (d.id = Id.rotaryAxes → rotary = true) → d.value.Keeps rotary := by
  simp only [settingDetail, List.forall_mem_cons, List.not_mem_nil, false_implies, implies_true, and_true, true_and, Value.Keeps,
    same_iff, setAxisMask_keeps, setPulseWidth_keeps, setProbeInvert_keeps, setGangedDirInvert_keeps, setReportInterval_keeps,
    setReportInches_keeps, setControlInvert_keeps, setPwmOptions_keeps, setDefaultSpindle_keeps, setEncoderSpindle_keeps,
    setSpindleInvert_keeps, setControlDisablePullup_keeps, setProbeDisablePullup_keeps, setSoftLimitsEnable_keeps,
    setEstopUnlock_keeps, setHardLimitsEnable_keeps, setJogSoftLimited_keeps, setMode_keeps, setParkingEnable_keeps,
    setHomingPulloff_keeps, setHomingFeedrates_keeps, setHomingEnable_keeps, setProbeFlags_keeps, setToolChangeMode_keeps,
    setToolChangeProbingDistance_keeps, setToolchangeFlags_keeps, setFloat_keeps, setAxisSetting_keeps]
  refine ⟨?_, ?_, ?_, ?_, ?_, ?_, ?_, ?_, fun h => setRotaryAxes_keeps (h trivial), ?_, ?_, ?_, ?_⟩
  all_goals exact fun _ => SetInt.accept_keeps fun _ _ _ _ => ⟨rfl, fun _ => rfl, rfl, rfl, rfl, fun _ => rfl⟩

/-! ## Runs -/

theorem settingsWriteGlobal_inStep {m : Machine} (hm : InStep rotary m) : InStep rotary (settingsWriteGlobal m) := by
  have haxes : InStep rotary (if m.overrideValid then
      m.write fun s => { s with axis := fun i => { s.axis i with acceleration := m.overrideAcceleration i } } else m) :=
    .ite (hm.write ⟨rfl, fun _ => rfl, rfl, rfl, rfl, fun _ => rfl⟩) hm
  have hlevel := haxes.write (f := fun s => { s with flags.compatibilityLevel := 0 }) ⟨rfl, fun _ => rfl, rfl, rfl, rfl, fun _ => rfl⟩
  exact ⟨hlevel.soft, hlevel.hard, hlevel.pulloff⟩

/-- What follows a value that is accepted: the settings are copied to non-volatile storage, and in step still. -/
theorem settingStored_spec {m : Machine} (hm : InStep rotary m) (id : ℕ) :
    InStep rotary (settingStored id m) ∧ (settingStored id m).nvs = (settingStored id m).settings := by
  have hwrite := settingsWriteGlobal_inStep (hm.call .setHomingSource)
  unfold settingStored
  dsimp only
  split
  all_goals exact ⟨⟨hwrite.soft, hwrite.hard, hwrite.pulloff⟩, rfl⟩

/-- A result of storing a setting: in step still, and copied to non-volatile storage when the status is OK. -/
structure Stored (rotary : Bool) (r : Status × Machine) : Prop where
  inStep : InStep rotary r.2
  nvs : r.1 = .ok → r.2.nvs = r.2.settings

namespace Stored

theorem refuse {r : Status × Machine} (hr : InStep rotary r.2) (h : r.1 ≠ .ok) : Stored rotary r := ⟨hr, fun hok => absurd hok h⟩

theorem ite_of {c : Prop} [Decidable c] {r r' : Status × Machine} (h : c → Stored rotary r) (h' : ¬c → Stored rotary r') :
    Stored rotary (if c then r else r') := by
  split
  · exact h ‹c›
  · exact h' ‹¬c›

end Stored

theorem storeValue_stored {hal : Hal} {d : SettingDetail} (hd : d ∈ settingDetail hal) (hrotary : d.id = Id.rotaryAxes → rotary = true)
    (id : ℕ) (svalue : List Char) {m : Machine} (hm : InStep rotary m) : Stored rotary (storeValue hal d id svalue m) := by
  have hset := (settingDetail_keeps hal d hd hrotary).set hm hal id d.datatype
  unfold storeValue
  dsimp only
  refine .ite_of (fun _ => .refuse hm (by simp)) fun _ => .ite_of (fun hinvalid => .refuse hm hinvalid) fun _ => ?_
  refine .ite_of (fun _ => ?_) fun hrefused => .refuse (hset _ _) hrefused
  obtain ⟨hinStep, hnvs⟩ := settingStored_spec (hset _ _) d.id
  exact ⟨hinStep, fun _ => hnvs⟩

theorem eq_of_normalizeId {id : ℕ} (h : normalizeId id = Id.rotaryAxes) : id = Id.rotaryAxes := by
  unfold normalizeId Id.rotaryAxes at h
  unfold Id.rotaryAxes
  split_ifs at h <;> omega

theorem settingsStoreSetting_stored (hal : Hal) {id : ℕ} (hrotary : id = Id.rotaryAxes → rotary = true) (svalue : List Char) {m : Machine}
    (hm : InStep rotary m) : Stored rotary (settingsStoreSetting hal id svalue m) := by
  simp only [settingsStoreSetting]
  split
  · exact .refuse hm (by simp)
  · rename_i d hd
    cases hdetails : settingGetDetails hal m.settings id with
    | some d' =>
        obtain rfl : d' = d := by simpa [hdetails] using hd
        obtain ⟨hmem, hid, -⟩ := settingGetDetails_spec hdetails
        exact storeValue_stored hmem (fun h => hrotary (eq_of_normalizeId (hid.symm.trans h))) id svalue hm
    | none =>
        rw [hdetails, Option.none_or] at hd
        obtain ⟨hmem, hid⟩ := settingDetail_spindlePWMBehaviour (Option.ite_none_right_eq_some.1 hd).2
        exact storeValue_stored hmem (fun h => absurd (hid.symm.trans h) (by decide)) id svalue hm

end

/-- The settings sent one after the other; all of the statuses, and the machine at the end. -/
def storeAll (hal : Hal) : List (ℕ × List Char) → Machine → List Status × Machine
  | [], m => ([], m)
  | (id, svalue) :: sent, m =>
      let r := settingsStoreSetting hal id svalue m
      let rest := storeAll hal sent r.2
      (r.1 :: rest.1, rest.2)

def sendsRotary (sent : List (ℕ × List Char)) : Bool := sent.any fun setting => setting.1 = Id.rotaryAxes

/-- Whatever is sent, and whichever of it is refused: the masks of the limits and the pull-off distances are those of the settings
at the end, but for the mask of the hard limits when the rotary axes are sent. The copy in non-volatile storage is that of the settings
when one of these was accepted, and nothing is changed when none was. -/
theorem settings_stay_in_step (hal : Hal) (sent : List (ℕ × List Char)) (m : Machine) (hm : InStep (sendsRotary sent) m) :
    InStep (sendsRotary sent) (storeAll hal sent m).2 ∧
      (.ok ∈ (storeAll hal sent m).1 → (storeAll hal sent m).2.nvs = (storeAll hal sent m).2.settings) ∧
      (.ok ∉ (storeAll hal sent m).1 → (storeAll hal sent m).2 = m) := by
  have hrotary : ∀ setting ∈ sent, setting.1 = Id.rotaryAxes → sendsRotary sent = true :=
    fun setting hmem hid => List.any_eq_true.2 ⟨setting, hmem, decide_eq_true hid⟩
  generalize sendsRotary sent = rotary at hm hrotary
  induction sent generalizing m with
  | nil => exact ⟨hm, by simp [storeAll]⟩
  | cons setting sent ih =>
      obtain ⟨id, svalue⟩ := setting
      have hstored := settingsStoreSetting_stored hal (hrotary _ List.mem_cons_self) svalue hm
      obtain ⟨hinStep, haccepted, hrefused⟩ := ih _ hstored.inStep fun setting hmem => hrotary setting (List.mem_cons_of_mem _ hmem)
      refine ⟨hinStep, fun hok => ?_, fun hok => ?_⟩
      · by_cases hlater : .ok ∈ (storeAll hal sent (settingsStoreSetting hal id svalue m).2).1
        · exact haccepted hlater
        · have hfirst := (List.mem_cons.1 hok).resolve_right hlater
          simp only [storeAll]
          rw [hrefused hlater]
          exact hstored.nvs hfirst.symm
      · obtain ⟨hfirst, hlater⟩ := not_or.1 (mt List.mem_cons.2 hok)
        exact (hrefused hlater).trans ((settingsStoreSetting_atomic hal id svalue m).resolve_left (Ne.symm hfirst))

/-- Soft limits are refused before homing is enabled, and accepted after. -/
theorem settings_stay_in_step_homing :
    (storeAll {} [(20, ['1']), (27, ['2']), (22, ['1']), (20, ['1'])] default).1 = [.softLimitError, .ok, .ok, .ok] ∧
      (storeAll {} [(20, ['1']), (27, ['2']), (22, ['1']), (20, ['1'])] default).2.nvs =
        (storeAll {} [(20, ['1']), (27, ['2']), (22, ['1']), (20, ['1'])] default).2.settings := by
  have hstatuses : (storeAll {} [(20, ['1']), (27, ['2']), (22, ['1']), (20, ['1'])] default).1 = [.softLimitError, .ok, .ok, .ok] := by
    decide +kernel
  exact ⟨hstatuses, (settings_stay_in_step _ _ default ⟨by decide, fun _ => by decide, fun _ => rfl⟩).2.1 (by rw [hstatuses]; decide)⟩

end Grbl.Settings.Global
