import Grbl.Settings.Details

/-!
# Storing a setting

`settings.c`: `settings_store_setting`, from the text of the value to the copy in non-volatile storage.

* `validateValue`, `validateUintValue`, `settingValidateMe` : the checks of the table;
* `settingsWriteGlobal`, `settingStored` : what follows when the status is OK; `settingsStoreSetting`;
* `set_atomic` : a valid value that is refused changes nothing; `refused_changes_nothing`.
-/

namespace Grbl.Settings.Global
open Numbers (readUint readFloat)

/-- What `read_uint` returns. -/
def Status.ofRead : Numbers.Status → Status
  | .ok => .ok
  | .badNumberFormat => .badNumberFormat
  | .negativeValue => .negativeValue
  | .gcodeCommandValueNotInteger => .gcodeCommandValueNotInteger

/-! ## Validation -/

def validateValue (d : SettingDetail) (value : FloatValue) : Status :=
  let low := match d.minValue with
    | some text =>
        let r := readFloat text 0 0
        if !r.ok then .badNumberFormat
        else if !(FloatValue.le (some r.value) value || d.allowNull && value.eq (some 0)) then .settingValueOutOfRange
        else .ok
    | none => if value.lt (some 0) then .negativeValue else .ok
  if low ≠ .ok then low
  else match d.maxValue with
    | some text =>
        let r := readFloat text 0 0
        if !r.ok then .badNumberFormat else if FloatValue.lt (some r.value) value then .settingValueOutOfRange else .ok
    | none => .ok

def validateUintValue (d : SettingDetail) (value : ℕ) : Status :=
  let low := match d.minValue with
    | some text =>
        let r := readUint text 0 0
        if r.status ≠ .ok then .ofRead r.status
        else if !(r.value ≤ value || d.allowNull && value == 0) then .settingValueOutOfRange
        else .ok
    | none => .ok
  if low ≠ .ok then low
  else match d.maxValue with
    | some text =>
        let r := readUint text 0 0
        if r.status ≠ .ok then .badNumberFormat else if r.value < value then .settingValueOutOfRange else .ok
    | none => .ok

def settingValidateMeUint (hal : Hal) (d : SettingDetail) (svalue : List Char) : Status :=
  let r := readUint svalue 0 0
  if r.status ≠ .ok then .ofRead r.status
  else match d.datatype with
    | .bool => if r.value = 0 ∨ r.value = 1 then .ok else .settingValueOutOfRange
    | .bitfield | .xBitfield => if 2 ^ d.format.length ≤ r.value then .settingValueOutOfRange else .ok
    | .radioButtons => if d.format.length ≤ r.value then .settingValueOutOfRange else .ok
    | .axisMask => if 2 ^ hal.nAxis ≤ r.value then .settingValueOutOfRange else .ok
    | .int8 | .int16 => validateUintValue d r.value
    | .decimal => .ok

def settingValidateMe (hal : Hal) (d : SettingDetail) (value : FloatValue) (svalue : List Char) : Status :=
  match d.datatype with
  | .decimal => validateValue d value
  | _ => settingValidateMeUint hal d svalue

/-! ## Storing -/

def settingsWriteGlobal (m : Machine) : Machine :=
  let m := if m.overrideValid then
      m.write fun s => { s with axis := fun i => { s.axis i with acceleration := m.overrideAcceleration i } }
    else m
  let m := m.write fun s => { s with flags.compatibilityLevel := 0 }
  { m with nvs := m.settings }

def settingsChangedSpindle (m : Machine) : Bool × Machine :=
  (m.spindleSettings ≠ m.settings.spindle || m.spindlePwmSettings ≠ m.settings.pwmSpindle,
    { m with spindleSettings := m.settings.spindle, spindlePwmSettings := m.settings.pwmSpindle })

/-- The end of `settings_store_setting`, when the status is OK. -/
def settingStored (id : ℕ) (m : Machine) : Machine :=
  let m := settingsWriteGlobal (m.call .setHomingSource)
  let (spindle, m) := settingsChangedSpindle m
  let m := { m with machineModeChanged := false }.call (.settingsChanged (spindle || m.machineModeChanged))
  match id with
  | Id.steppersEnergize => m.call (.stepperEnable m.settings.steppers.energize)
  | Id.homingCycle1 | Id.homingCycle2 | Id.homingCycle3 | Id.homingCycle4 => m.call .setHomingAxes
  | _ => m

/-- `settings_store_setting`, once the details of the setting are known. -/
def storeValue (hal : Hal) (d : SettingDetail) (id : ℕ) (svalue : List Char) (m : Machine) : Status × Machine :=
  let svalue := svalue.dropWhile (· = ' ')
  let decimal := readFloat svalue 0 0
  let int := readUint svalue 0 0
  let read := if d.datatype = .decimal then decimal.ok else int.status = .ok
  let value : FloatValue := if d.datatype = .decimal ∧ decimal.ok then some decimal.value else none
  let intValue := if d.datatype = .decimal then 0 else BitVec.ofNat 32 int.value
  if !read && d.core then (.badNumberFormat, m)
  else
    let status := settingValidateMe hal d value svalue
    if status ≠ .ok then (status, m)
    else
      let r := d.value.set hal id d.datatype value intValue m
      if r.1 = .ok then (.ok, settingStored d.id r.2) else r

/-- `settings_store_setting`; the deprecated behaviour of the spindle is taken from the table although it is not available. -/
def settingsStoreSetting (hal : Hal) (id : ℕ) (svalue : List Char) (m : Machine) : Status × Machine :=
  match (settingGetDetails hal m.settings id).or (if id = Id.spindlePWMBehaviour then (settingDetail hal)[Id.spindlePWMBehaviour]? else none) with
  | none => (.settingDisabled, m)
  | some d => storeValue hal d id svalue m

/-! ## What is refused changes nothing -/

section
variable {hal : Hal} {d : SettingDetail} {m : Machine} {svalue : List Char}

theorem lt_of_settingValidateMe {value : FloatValue} (hdatatype : d.datatype = .bitfield)
    (h : settingValidateMe hal d value svalue = .ok) : (readUint svalue 0 0).value < 2 ^ d.format.length := by
  simp only [settingValidateMe, settingValidateMeUint, hdatatype] at h
  split at h
  · rename_i hread
    cases hstatus : (readUint svalue 0 0).status with
    | ok => exact absurd hstatus hread
    | badNumberFormat | negativeValue | gcodeCommandValueNotInteger => simp [hstatus, Status.ofRead] at h
  · by_contra hlt
    simp [Nat.le_of_not_lt hlt] at h

theorem set_atomic (hd : d ∈ settingDetail hal) (havailable : IsSpindleInvert hal d → hal.spindleCaps.gpioControlled = true)
    {value : FloatValue} {intValue : BitVec 32} (hvalid : settingValidateMe hal d value svalue = .ok)
    (hint : d.datatype ≠ .decimal → intValue = BitVec.ofNat 32 (readUint svalue 0 0).value) (id : ℕ) :
    Atomic m (d.value.set hal id d.datatype value intValue m) := by
  rcases settingDetail_atomic hal d hd with h | h
  · exact h.set hal id d.datatype value intValue m
  · have hgpio := havailable h
    have hlt := lt_of_settingValidateMe h.datatype hvalid
    rw [h.value]
    refine setSpindleInvert_atomic (fun hbit => ?_) id m
    by_contra hinvert
    have hlength := spindleSignals_length hgpio (Bool.eq_false_iff.2 hinvert)
    have hsmall : (readUint svalue 0 0).value < 2 ^ 2 :=
      hlt.trans_le (Nat.pow_le_pow_right (by decide) (h.format ▸ hlength))
    rw [hint (by simp [h.datatype]), BitVec.getLsbD_ofNat, Nat.testBit_lt_two_pow hsmall] at hbit
    simp at hbit

theorem storeValue_atomic (hd : d ∈ settingDetail hal) (havailable : IsSpindleInvert hal d → hal.spindleCaps.gpioControlled = true)
    (id : ℕ) (svalue : List Char) (m : Machine) : Atomic m (storeValue hal d id svalue m) := by
  unfold storeValue
  dsimp only
  refine .ite (.refuse _) (.ite_of (fun _ => .refuse _) fun hvalid => ?_)
  refine .ite_of (fun _ => .accept _) fun hstatus => .inr (Or.resolve_left ?_ hstatus)
  exact set_atomic hd havailable (not_not.1 hvalid) (fun hdecimal => if_neg hdecimal) id

end

theorem settingsStoreSetting_atomic (hal : Hal) (id : ℕ) (svalue : List Char) (m : Machine) :
    Atomic m (settingsStoreSetting hal id svalue m) := by
  simp only [settingsStoreSetting]
  split
  · exact .refuse _
  · rename_i d hd
    cases hdetails : settingGetDetails hal m.settings id with
    | some d' =>
        obtain rfl : d' = d := by simpa [hdetails] using hd
        obtain ⟨hmem, -, havailable⟩ := settingGetDetails_spec hdetails
        refine storeValue_atomic hmem (fun hinvert => ?_) id svalue m
        have hgpio := havailable _ hinvert.isAvailable
        rwa [hinvert.id] at hgpio
    | none =>
        obtain ⟨-, hd⟩ : id = Id.spindlePWMBehaviour ∧ (settingDetail hal)[Id.spindlePWMBehaviour]? = some d := by
          simpa [hdetails] using hd
        obtain ⟨hmem, hid⟩ := settingDetail_spindlePWMBehaviour hd
        exact storeValue_atomic hmem (fun h => absurd (hid.symm.trans h.id) (by decide)) id svalue m

/-- A setting that is refused, whatever it is and whatever its value, leaves the settings, all that is derived of them, the copy in
non-volatile storage and the driver as they are. -/
theorem refused_changes_nothing (hal : Hal) (id : ℕ) (svalue : List Char) (m : Machine)
    (h : (settingsStoreSetting hal id svalue m).1 ≠ .ok) : (settingsStoreSetting hal id svalue m).2 = m :=
  (settingsStoreSetting_atomic hal id svalue m).resolve_left h

/-- Without homing, soft limits are refused; the spindle cannot invert PWM, and its element is not in the format. -/
theorem refused_changes_nothing_softLimits :
    (settingsStoreSetting {} 20 ['1'] default).2 = default ∧
      (settingsStoreSetting { spindleCaps := { gpioControlled := true }, spindleCount := 1 } 16 ['4'] default).2 = default :=
  ⟨refused_changes_nothing _ _ _ _ (by decide +kernel), refused_changes_nothing _ _ _ _ (by decide +kernel)⟩

end Grbl.Settings.Global
