import Mathlib
import Grbl.Lib.AtLeastTwo
import Grbl.Lib.Run
import Grbl.Lib.OrderedField

/-!
# Ramping of a PWM spindle

`spindle_control.c` for one spindle, nothing aborts. Floats are exact.

* `Config`, `Output`, `Ramp`, `Machine` : the settings, what the driver keeps, the ramp of an override, the variables;
* `spindleGetRamp`, `spindleRamp`, `spindleRampTask`, `spindleSetOverride`, `spindleSetState`, `spindleAllOff` : the functions;
* `spindleRamp_exit` : the turns that the loop of a ramp is given are never what ends it;
* `Action`, `step` : calls and executions of the task; `Commanded` : the last command; `Follows` : what the output should be;
* `Fine` : when a step is fine; `follows_of_fine`; `ramped_zero_is_not_started` : how it fails.
-/

namespace Grbl.Spindle.Ramping
open Lib
open scoped Grbl.Lib.Literal Grbl.Lib.OrderedField

section
variable {K : Type*} [Field K] [LinearOrder K]

def constrain (val min max : K) : K := if val < min then min else if val > max then max else val

/-- The settings, the options of the spindle, and its `get_pwm`. -/
structure Config (K : Type*) [Field K] [LinearOrder K] where
  getPwm : K → ℕ
  rpmMin : K
  rpmMax : K
  rpmMax_pos : 0 < rpmMax
  laser : Bool := false
  rampUp : Bool
  rampDown : Bool
  overrideDisable : Bool := false
  onDelay : ℕ
  offDelay : ℕ

/-- The state that the driver was last set to, and its last PWM value. -/
structure Output where
  on : Bool := false
  ccw : Bool := false
  pwm : ℕ
  deriving DecidableEq

/-- `rpm_override_t` of an override. -/
structure Ramp (K : Type*) where
  rpm : K
  rpmDelta : K
  rpmTarget : K
  delay : ℕ

/-- `param`, the driver, the ramp of an override with its task, and `sys.step_control.update_spindle_rpm`. -/
structure Machine (K : Type*) where
  /-- `param->state` -/
  on : Bool := false
  ccw : Bool := false
  overrideDisabled : Bool := false
  rpm : K
  rpmOverridden : K
  overridePct : ℕ := 100
  output : Output
  ramp : Ramp K
  /-- `spindle_ramp_task` is to be executed. -/
  pending : Bool := false
  updateSpindleRpm : Bool := false

def dwellTimeStep : ℕ := 50

def minSpindleRpmOverride : ℕ := 10

def maxSpindleRpmOverride : ℕ := 200

variable (cfg : Config K)

/-- The speed that is left of a programmed one, with the override and the limits. -/
def Config.overridden (rpm : K) (overridePct : ℕ) : K :=
  let rpm := if overridePct ≠ 100 ∧ !cfg.overrideDisable then rpm * (overridePct / 100) else rpm
  if rpm ≤ 0 then 0 else constrain rpm cfg.rpmMin cfg.rpmMax

namespace Machine

/-- `spindle->set_state` -/
def setOutput (on ccw : Bool) (rpm : K) (m : Machine K) : Machine K :=
  { m with output := { on := on, ccw := ccw, pwm := cfg.getPwm rpm } }

/-- `spindle->update_pwm` with the value for this speed. -/
def updatePwm (rpm : K) (m : Machine K) : Machine K := { m with output := { m.output with pwm := cfg.getPwm rpm } }

def spindleSetRpm (rpm : K) (overridePct : ℕ) (m : Machine K) : Machine K := { m with
  rpmOverridden := cfg.overridden rpm overridePct
  overridePct := overridePct
  overrideDisabled := cfg.overrideDisable }

end Machine

variable [FloorSemiring K]

def spindleGetRamp (rpm targetRpm : K) (delayMs : ℕ) : ℕ × Ramp K :=
  let rpmDelta := targetRpm - rpm
  let dly := ⌊delayMs * |rpmDelta / cfg.rpmMax|⌋₊ % 2 ^ 16
  (dly, ⟨rpm, rpmDelta / (dly / dwellTimeStep + 1 : ℕ), targetRpm, dwellTimeStep⟩)

namespace Machine

/-- Another step of the ramp stays short of its end. -/
def more (rpmDelta targetRpm rpm : K) : Bool := if 0 < rpmDelta then rpm + rpmDelta < targetRpm else rpm + rpmDelta > targetRpm

/-- The loop of `spindle_ramp`, at most so many turns; a delay may be interrupted when the safety door is opened again. -/
def rampLoop (rpmDelta targetRpm : K) (interrupted : Option ℕ) : ℕ → ℕ → K → Machine K → Bool × K × Machine K
  | 0, _, rpm, m => (true, rpm, m)
  | n + 1, i, rpm, m =>
      if more rpmDelta targetRpm rpm then
        let m := m.updatePwm cfg (rpm + rpmDelta)
        if interrupted = some i then (false, rpm + rpmDelta, m)
        else rampLoop rpmDelta targetRpm interrupted n (i + 1) (rpm + rpmDelta) m
      else (true, rpm, m)

/-- `spindle_ramp` after the ramp. -/
def rampEnd (on ccw : Bool) (targetRpm : K) : Bool × K × Machine K → Machine K
  | (ok, rpm, m) =>
      if ok ∧ rpm ≠ targetRpm then
        if on = m.on then m.updatePwm cfg targetRpm else m.setOutput cfg on ccw targetRpm
      else m

def spindleRamp (on ccw : Bool) (rpm targetRpm : K) (delayMs : ℕ) (interrupted : Option ℕ) (m : Machine K) : Machine K :=
  if delayMs > dwellTimeStep then
    let m := { m with pending := false }
    let (dly, ramp) := spindleGetRamp cfg rpm targetRpm delayMs
    if dly > dwellTimeStep then
      let turns := dly / dwellTimeStep + 1
      if ramp.rpmDelta > 0 ∧ (m.on ≠ on ∨ ccw ≠ m.ccw) then
        rampEnd cfg on ccw targetRpm (rampLoop cfg ramp.rpmDelta targetRpm interrupted turns 0 (rpm + ramp.rpmDelta)
          ({ m with on := on }.setOutput cfg on ccw (rpm + ramp.rpmDelta)))
      else rampEnd cfg on ccw targetRpm (rampLoop cfg ramp.rpmDelta targetRpm interrupted turns 0 rpm m)
    else rampEnd cfg on ccw targetRpm (true, rpm, m)
  else rampEnd cfg on ccw targetRpm (true, rpm, m)

/-- `spindle_set_state`; the ramps down and up may be interrupted. -/
def spindleSetState (on ccw : Bool) (rpm : K) (down up : Option ℕ) (m : Machine K) : Machine K :=
  if on = false then
    let m := if cfg.rampDown then m.spindleRamp cfg m.on m.ccw m.rpmOverridden 0 cfg.offDelay down else m
    { m.setOutput cfg false false 0 with
      rpmOverridden := 0
      rpm := 0
      on := on
      ccw := ccw }
  else
    let rpm := if cfg.laser ∧ ccw then 0 else rpm
    let m :=
      if cfg.rampUp then
        let m :=
          if m.on ∧ m.ccw ≠ ccw then { m.spindleRamp cfg m.on m.ccw m.rpmOverridden 0 cfg.offDelay down with
            rpm := 0
            rpmOverridden := 0 }
          else m
        let arpm := m.rpmOverridden
        let m := m.spindleSetRpm cfg rpm m.overridePct
        m.spindleRamp cfg on ccw arpm m.rpmOverridden cfg.onDelay up
      else
        let m := m.spindleSetRpm cfg rpm m.overridePct
        m.setOutput cfg on ccw m.rpmOverridden
    { m with
      rpm := rpm
      on := on
      ccw := ccw }

def spindleAllOff (reset : Bool) (down : Option ℕ) (m : Machine K) : Machine K :=
  let m := if !reset ∧ cfg.rampDown then m.spindleSetState cfg false false 0 down none else m
  { m.setOutput cfg false false 0 with
    rpm := 0
    rpmOverridden := 0
    on := false
    ccw := false
    overrideDisabled := false }

/-- `spindle_ramp_override`, with the value it returns; there may be no room for the task. -/
def spindleRampOverride (rpm targetRpm : K) (room : Bool) (m : Machine K) : Bool × Machine K :=
  let rpm := if m.ramp.delay ≠ 0 then m.ramp.rpm else rpm
  let (dly, ramp) := spindleGetRamp cfg rpm targetRpm cfg.onDelay
  (dly ≠ 0 ∧ room, { m with ramp := ramp, pending := dly ≠ 0 ∧ room })

def spindleSetOverride (speedOverride : ℕ) (idle room : Bool) (m : Machine K) : Machine K :=
  let speedOverride :=
    if speedOverride = 0 then m.overridePct
    else if speedOverride < minSpindleRpmOverride then minSpindleRpmOverride
    else if speedOverride > maxSpindleRpmOverride then maxSpindleRpmOverride
    else speedOverride
  if speedOverride ≠ m.overridePct ∨ m.overrideDisabled ≠ cfg.overrideDisable then
    let rpm := m.rpmOverridden
    let m := m.spindleSetRpm cfg m.rpm speedOverride
    let (ramped, m) := if cfg.rampUp ∧ m.output.on then m.spindleRampOverride cfg rpm m.rpmOverridden room else (false, m)
    if ramped then m
    else if idle then m.updatePwm cfg m.rpmOverridden
    else { m with updateSpindleRpm := true }
  else m

/-- `spindle_ramp_task`, when it is to be executed. -/
def spindleRampTask (room : Bool) (m : Machine K) : Machine K :=
  if m.pending then
    let rpm := m.ramp.rpm + m.ramp.rpmDelta
    let ok := if m.ramp.rpmDelta > 0 then decide (rpm ≥ m.ramp.rpmTarget) else decide (rpm ≤ m.ramp.rpmTarget)
    let ramp := { m.ramp with
      rpm := if ok then m.ramp.rpmTarget else rpm
      delay := if ok then 0 else m.ramp.delay }
    { m with ramp := ramp, pending := !ok && room }.updatePwm cfg ramp.rpm
  else m

end Machine

/-! ## What is wanted -/

/-- The calls, and the execution of the task. -/
inductive Action (K : Type*)
  | setState (on ccw : Bool) (rpm : K) (down up : Option ℕ)
  | setOverride (speedOverride : ℕ) (idle room : Bool)
  | allOff (reset : Bool) (down : Option ℕ)
  | rampTask (room : Bool)

/-- What the last step commanded: a state just set, off since the last command, or anything. -/
inductive Commanded (K : Type*)
  | any
  | on (ccw : Bool) (rpm : K)
  | off

def Commanded.next (c : Commanded K) : Action K → Commanded K
  | .setState true ccw rpm _ _ => .on ccw rpm
  | .setState false _ _ _ _ => .off
  | .allOff _ _ => .off
  | .setOverride _ _ _ => if c matches .off then .off else .any
  | .rampTask _ => if c matches .off then .off else .any

def Machine.act (m : Machine K) : Action K → Machine K
  | .setState on ccw rpm down up => m.spindleSetState cfg on ccw rpm down up
  | .setOverride speedOverride idle room => m.spindleSetOverride cfg speedOverride idle room
  | .allOff reset down => m.spindleAllOff cfg reset down
  | .rampTask room => m.spindleRampTask cfg room

def step (s : Machine K × Commanded K) (a : Action K) : Option (Machine K × Commanded K) := some (s.1.act cfg a, s.2.next a)

/-- What the output should be. -/
def Follows (s : Machine K × Commanded K) : Prop :=
  match s.2 with
  | .any => True
  | .on ccw rpm => cfg.laser = false → 0 < rpm →
      s.1.output = { on := true, ccw := ccw, pwm := cfg.getPwm (cfg.overridden rpm s.1.overridePct) }
  | .off => s.1.output.on = false ∧ s.1.pending = false

/-- When a ramp up leads to the state. -/
def Reaches (ccw : Bool) (rpm : K) (up : Option ℕ) (m : Machine K) : Prop :=
  let targetRpm := cfg.overridden rpm m.overridePct
  up = none ∧ (m.on →
    if m.ccw = ccw then
      m.output.on ∧ m.output.ccw = ccw ∧ (targetRpm ≠ m.rpmOverridden ∨ m.output.pwm = cfg.getPwm targetRpm)
    else
      cfg.onDelay > dwellTimeStep ∧ (spindleGetRamp cfg 0 targetRpm cfg.onDelay).1 > dwellTimeStep ∨
        m.output.on ∧ m.output.ccw = ccw)

def Fine (s : Machine K × Commanded K) : Action K → Prop
  | .setState true ccw rpm _ up => cfg.laser ∨ rpm ≤ 0 ∨ cfg.rampUp = false ∨ Reaches cfg ccw rpm up s.1
  | .setState false _ _ _ _ => s.1.pending = false ∨ cfg.rampDown ∧ cfg.offDelay > dwellTimeStep
  | .allOff reset _ => s.1.pending = false ∨ !reset ∧ cfg.rampDown ∧ cfg.offDelay > dwellTimeStep
  | _ => True

instance Reaches.decidable (ccw : Bool) (rpm : K) (up : Option ℕ) (m : Machine K) : Decidable (Reaches cfg ccw rpm up m) :=
  inferInstanceAs (Decidable (up = none ∧ (m.on = true →
    if m.ccw = ccw then
      m.output.on = true ∧ m.output.ccw = ccw ∧ (cfg.overridden rpm m.overridePct ≠ m.rpmOverridden ∨
        m.output.pwm = cfg.getPwm (cfg.overridden rpm m.overridePct))
    else
      cfg.onDelay > dwellTimeStep ∧ (spindleGetRamp cfg 0 (cfg.overridden rpm m.overridePct) cfg.onDelay).1 > dwellTimeStep ∨
        m.output.on = true ∧ m.output.ccw = ccw)))

instance Fine.decidable (s : Machine K × Commanded K) : ∀ a, Decidable (Fine cfg s a)
  | .setState true _ _ _ _ => inferInstanceAs (Decidable (_ ∨ _))
  | .setState false _ _ _ _ => inferInstanceAs (Decidable (_ ∨ _))
  | .setOverride _ _ _ => isTrue trivial
  | .allOff _ _ => inferInstanceAs (Decidable (_ ∨ _))
  | .rampTask _ => isTrue trivial

end

/-! ## Ramps -/

section
variable {K : Type*} [Field K] [LinearOrder K] {cfg : Config K}

namespace Machine
variable {rpmDelta targetRpm : K} {interrupted : Option ℕ}

variable (cfg rpmDelta targetRpm interrupted) in
theorem rampLoop_pwm : ∀ (n i : ℕ) (rpm : K) (m : Machine K),
    ∃ p, (rampLoop cfg rpmDelta targetRpm interrupted n i rpm m).2.2 = { m with output := { m.output with pwm := p } }
  | 0, _, _, m => ⟨m.output.pwm, rfl⟩
  | n + 1, i, rpm, m => by
      rw [rampLoop]
      split
      · split
        · exact ⟨_, rfl⟩
        · obtain ⟨p, hp⟩ := rampLoop_pwm n (i + 1) (rpm + rpmDelta) (m.updatePwm cfg (rpm + rpmDelta))
          exact ⟨p, hp⟩
      · exact ⟨m.output.pwm, rfl⟩

theorem rampLoop_uninterrupted : ∀ (n i : ℕ) (rpm : K) (m : Machine K), (rampLoop cfg rpmDelta targetRpm none n i rpm m).1 = true
  | 0, _, _, _ => rfl
  | n + 1, i, rpm, m => by
      rw [rampLoop]
      split
      · rw [if_neg (Option.some_ne_none i).symm]
        exact rampLoop_uninterrupted n (i + 1) (rpm + rpmDelta) _
      · rfl

theorem rampLoop_ne : ∀ (n i : ℕ) (rpm : K) (m : Machine K), (if 0 < rpmDelta then rpm < targetRpm else rpm > targetRpm) →
    (rampLoop cfg rpmDelta targetRpm interrupted n i rpm m).2.1 ≠ targetRpm
  | 0, _, rpm, _, h => by
      rw [rampLoop]
      split at h
      · exact h.ne
      · exact h.ne'
  | n + 1, i, rpm, m, h => by
      rw [rampLoop]
      split
      · rename_i hmore
        have hnext : if 0 < rpmDelta then rpm + rpmDelta < targetRpm else rpm + rpmDelta > targetRpm := by
          rw [more] at hmore
          split at hmore <;> rename_i hdelta
          · rw [if_pos hdelta]
            exact of_decide_eq_true hmore
          · rw [if_neg hdelta]
            exact of_decide_eq_true hmore
        split
        · show rpm + rpmDelta ≠ targetRpm
          split at hnext
          · exact hnext.ne
          · exact hnext.ne'
        · exact rampLoop_ne n (i + 1) (rpm + rpmDelta) _ hnext
      · show rpm ≠ targetRpm
        split at h
        · exact h.ne
        · exact h.ne'

variable (cfg rpmDelta targetRpm interrupted) in
/-- The loop ends by itself: from `k` steps below its end, `k` turns are enough. -/
theorem rampLoop_exit : ∀ (n i k : ℕ) (m : Machine K), 0 < k → k ≤ n →
    (rampLoop cfg rpmDelta targetRpm interrupted n i (targetRpm - k * rpmDelta) m).1 = true →
      more rpmDelta targetRpm (rampLoop cfg rpmDelta targetRpm interrupted n i (targetRpm - k * rpmDelta) m).2.1 = false
  | 0, _, _, _, hk, hn, _ => absurd (hk.trans_le hn) (lt_irrefl 0)
  | n + 1, i, k, m, hk, hn, hok => by
      have hstep : targetRpm - k * rpmDelta + rpmDelta = targetRpm - (k - 1 : ℕ) * rpmDelta := by
        rw [Nat.cast_pred hk]
        ring
      by_cases hmore : more rpmDelta targetRpm (targetRpm - k * rpmDelta) = true
      · have hk' : 0 < k - 1 := by
          rcases Nat.eq_zero_or_pos (k - 1) with h0 | h0
          · rw [more, hstep, h0, Nat.cast_zero, zero_mul, sub_zero] at hmore
            simp at hmore
          · exact h0
        rw [rampLoop, if_pos hmore, hstep] at hok ⊢
        split at hok
        · exact absurd hok Bool.false_ne_true
        · rename_i hnot
          rw [if_neg hnot]
          exact rampLoop_exit n (i + 1) (k - 1) _ hk' (by omega) hok
      · rw [rampLoop, if_neg hmore]
        exact Bool.eq_false_iff.2 hmore

variable [FloorSemiring K]

variable (cfg) in
theorem start_eq (rpm targetRpm : K) (delayMs : ℕ) :
    rpm = targetRpm - ((spindleGetRamp cfg rpm targetRpm delayMs).1 / dwellTimeStep + 1 : ℕ) * (spindleGetRamp cfg rpm targetRpm delayMs).2.rpmDelta := by
  have hne : (((spindleGetRamp cfg rpm targetRpm delayMs).1 / dwellTimeStep + 1 : ℕ) : K) ≠ 0 := Nat.cast_ne_zero.2 (Nat.succ_ne_zero _)
  have hdelta : (spindleGetRamp cfg rpm targetRpm delayMs).2.rpmDelta =
      (targetRpm - rpm) / ((spindleGetRamp cfg rpm targetRpm delayMs).1 / dwellTimeStep + 1 : ℕ) := rfl
  rw [hdelta, mul_div_cancel₀ _ hne, sub_sub_cancel]

/-- The turns that `spindleRamp` allows are never what ends its loop. -/
theorem spindleRamp_exit {rpm targetRpm : K} {delayMs : ℕ} (hramp : (spindleGetRamp cfg rpm targetRpm delayMs).1 > dwellTimeStep) (m : Machine K) :
    let r := spindleGetRamp cfg rpm targetRpm delayMs
    ∀ start ∈ [rpm, rpm + r.2.rpmDelta],
      (rampLoop cfg r.2.rpmDelta targetRpm interrupted (r.1 / dwellTimeStep + 1) 0 start m).1 = true →
        more r.2.rpmDelta targetRpm (rampLoop cfg r.2.rpmDelta targetRpm interrupted (r.1 / dwellTimeStep + 1) 0 start m).2.1 = false := by
  intro r start hstart
  have heq := start_eq cfg rpm targetRpm delayMs
  have hturns : 0 < r.1 / dwellTimeStep := Nat.div_pos hramp.le (by decide)
  rcases List.mem_cons.1 hstart with rfl | hstart
  · have h := rampLoop_exit cfg r.2.rpmDelta targetRpm interrupted (r.1 / dwellTimeStep + 1) 0 (r.1 / dwellTimeStep + 1) m (Nat.succ_pos _) le_rfl
    rwa [← heq] at h
  · have hnext : start = targetRpm - (r.1 / dwellTimeStep : ℕ) * r.2.rpmDelta := by
      rw [List.mem_singleton.1 hstart]
      nth_rewrite 1 [heq]
      push_cast
      ring
    rw [hnext]
    exact rampLoop_exit cfg r.2.rpmDelta targetRpm interrupted _ 0 _ m hturns (Nat.le_succ _)

/-! ## `spindle_ramp` -/

variable [IsStrictOrderedRing K]

/-- Where the ramp is before its end: the state is set on the way when it is a new one and the ramp goes up, step by step. -/
structure Ramped (cfg : Config K) (on ccw : Bool) (rpm targetRpm : K) (delayMs : ℕ) (interrupted : Option ℕ) (m : Machine K)
    (r : Bool × K × Machine K) : Prop where
  overridePct : r.2.2.overridePct = m.overridePct
  pending : r.2.2.pending = if delayMs > dwellTimeStep then false else m.pending
  done : interrupted = none → r.1 = true
  short : rpm ≠ targetRpm → r.2.1 ≠ targetRpm
  direction : r.2.2.ccw = m.ccw
  state : r.2.2.on = on ∧ r.2.2.output.on = on ∧ r.2.2.output.ccw = ccw ∧ (m.on ≠ on ∨ ccw ≠ m.ccw) ∨
    r.2.2.on = m.on ∧ r.2.2.output.on = m.output.on ∧ r.2.2.output.ccw = m.output.ccw ∧
      ¬ (delayMs > dwellTimeStep ∧ (spindleGetRamp cfg rpm targetRpm delayMs).1 > dwellTimeStep ∧ rpm < targetRpm ∧ (m.on ≠ on ∨ ccw ≠ m.ccw))

variable (cfg) in
theorem rpmDelta_pos_iff (rpm targetRpm : K) (delayMs : ℕ) :
    0 < (spindleGetRamp cfg rpm targetRpm delayMs).2.rpmDelta ↔ rpm < targetRpm := by
  have hpos : (0 : K) < ((spindleGetRamp cfg rpm targetRpm delayMs).1 / dwellTimeStep + 1 : ℕ) := Nat.cast_pos.2 (Nat.succ_pos _)
  show 0 < (targetRpm - rpm) / ((spindleGetRamp cfg rpm targetRpm delayMs).1 / dwellTimeStep + 1 : ℕ) ↔ rpm < targetRpm
  rw [div_pos_iff_of_pos_right hpos, sub_pos]

theorem next_lt {rpm targetRpm : K} {delayMs : ℕ} (hramp : (spindleGetRamp cfg rpm targetRpm delayMs).1 > dwellTimeStep)
    (hlt : rpm < targetRpm) : rpm + (spindleGetRamp cfg rpm targetRpm delayMs).2.rpmDelta < targetRpm := by
  have hstart := start_eq cfg rpm targetRpm delayMs
  have hdelta := (rpmDelta_pos_iff cfg rpm targetRpm delayMs).2 hlt
  have hturns : 0 < (spindleGetRamp cfg rpm targetRpm delayMs).1 / dwellTimeStep := Nat.div_pos hramp.le (by decide)
  have hmore := mul_pos (show (0 : K) < _ from Nat.cast_pos.2 hturns) hdelta
  push_cast at hstart
  linarith

variable (cfg interrupted) in
theorem spindleRamp_ramped (on ccw : Bool) (rpm targetRpm : K) (delayMs : ℕ) (m : Machine K) :
    ∃ r, Ramped cfg on ccw rpm targetRpm delayMs interrupted m r ∧
      m.spindleRamp cfg on ccw rpm targetRpm delayMs interrupted = rampEnd cfg on ccw targetRpm r := by
  have hsign := rpmDelta_pos_iff cfg rpm targetRpm delayMs
  rw [spindleRamp]
  by_cases hdelay : delayMs > dwellTimeStep
  · rw [if_pos hdelay]
    simp only
    by_cases hramp : (spindleGetRamp cfg rpm targetRpm delayMs).1 > dwellTimeStep
    · rw [if_pos hramp]
      split
      · rename_i hset
        obtain ⟨p, hp⟩ := rampLoop_pwm cfg (spindleGetRamp cfg rpm targetRpm delayMs).2.rpmDelta targetRpm interrupted
          ((spindleGetRamp cfg rpm targetRpm delayMs).1 / dwellTimeStep + 1) 0
          (rpm + (spindleGetRamp cfg rpm targetRpm delayMs).2.rpmDelta)
          ({ m with pending := false, on := on }.setOutput cfg on ccw (rpm + (spindleGetRamp cfg rpm targetRpm delayMs).2.rpmDelta))
        have hnext := next_lt hramp (hsign.1 hset.1)
        refine ⟨_, ⟨by rw [hp]; rfl, by rw [hp, if_pos hdelay]; rfl, fun h => by rw [h]; exact rampLoop_uninterrupted _ _ _ _,
          fun _ => rampLoop_ne _ _ _ _ (by rwa [if_pos hset.1]), by rw [hp]; rfl,
          .inl ⟨by rw [hp]; rfl, by rw [hp]; rfl, by rw [hp]; rfl, hset.2⟩⟩, rfl⟩
      · rename_i hset
        obtain ⟨p, hp⟩ := rampLoop_pwm cfg (spindleGetRamp cfg rpm targetRpm delayMs).2.rpmDelta targetRpm interrupted
          ((spindleGetRamp cfg rpm targetRpm delayMs).1 / dwellTimeStep + 1) 0
          rpm { m with pending := false }
        refine ⟨_, ⟨by rw [hp], by rw [hp, if_pos hdelay], fun h => by rw [h]; exact rampLoop_uninterrupted _ _ _ _,
          fun hne => rampLoop_ne _ _ _ _ ?_, by rw [hp],
          .inr ⟨by rw [hp], by rw [hp], by rw [hp], fun h => hset ⟨hsign.2 h.2.2.1, h.2.2.2⟩⟩⟩, rfl⟩
        split
        · rename_i hdelta
          exact hsign.1 hdelta
        · rename_i hdelta
          exact lt_of_le_of_ne (not_lt.1 fun h => hdelta (hsign.2 h)) hne.symm
    · rw [if_neg hramp]
      exact ⟨_, ⟨rfl, (if_pos hdelay).symm, fun _ => rfl, fun h => h, rfl, .inr ⟨rfl, rfl, rfl, fun h => hramp h.2.1⟩⟩, rfl⟩
  · rw [if_neg hdelay]
    exact ⟨_, ⟨rfl, (if_neg hdelay).symm, fun _ => rfl, fun h => h, rfl, .inr ⟨rfl, rfl, rfl, fun h => hdelay h.1⟩⟩, rfl⟩

omit [IsStrictOrderedRing K] [FloorSemiring K] in
theorem output_updatePwm (rpm : K) (m : Machine K) :
    (m.updatePwm cfg rpm).output = { on := m.output.on, ccw := m.output.ccw, pwm := cfg.getPwm rpm } := rfl

variable (cfg interrupted) in
theorem spindleRamp_frame (on ccw : Bool) (rpm targetRpm : K) (delayMs : ℕ) (m : Machine K) :
    (m.spindleRamp cfg on ccw rpm targetRpm delayMs interrupted).overridePct = m.overridePct ∧
      (m.spindleRamp cfg on ccw rpm targetRpm delayMs interrupted).pending = if delayMs > dwellTimeStep then false else m.pending := by
  obtain ⟨⟨ok, rpm', m'⟩, hr, heq⟩ := spindleRamp_ramped cfg interrupted on ccw rpm targetRpm delayMs m
  rw [heq, rampEnd, ← hr.overridePct, ← hr.pending]
  split
  · split <;> exact ⟨rfl, rfl⟩
  · exact ⟨rfl, rfl⟩

variable (cfg interrupted) in
theorem spindleRamp_own (rpm targetRpm : K) (delayMs : ℕ) (m : Machine K) :
    (m.spindleRamp cfg m.on m.ccw rpm targetRpm delayMs interrupted).on = m.on ∧
      (m.spindleRamp cfg m.on m.ccw rpm targetRpm delayMs interrupted).ccw = m.ccw ∧
      (m.spindleRamp cfg m.on m.ccw rpm targetRpm delayMs interrupted).output.on = m.output.on ∧
      (m.spindleRamp cfg m.on m.ccw rpm targetRpm delayMs interrupted).output.ccw = m.output.ccw := by
  obtain ⟨⟨ok, rpm', m'⟩, hr, heq⟩ := spindleRamp_ramped cfg interrupted m.on m.ccw rpm targetRpm delayMs m
  have hdirection := hr.direction
  obtain ⟨-, -, -, hnew⟩ | ⟨hon, hout, hccw, -⟩ := hr.state
  · exact absurd hnew (by simp)
  · rw [heq, rampEnd, if_pos (show m.on = m'.on from hon.symm)]
    split <;> exact ⟨hon, hdirection, hout, hccw⟩

theorem spindleRamp_on (cfg : Config K) (ccw : Bool) {rpm targetRpm : K} (delayMs : ℕ) (m : Machine K) (hne : rpm ≠ targetRpm)
    (h : m.on = false ∨
      (m.ccw ≠ ccw ∧ rpm < targetRpm ∧ delayMs > dwellTimeStep ∧ (spindleGetRamp cfg rpm targetRpm delayMs).1 > dwellTimeStep) ∨
        m.output.on = true ∧ m.output.ccw = ccw) :
    (m.spindleRamp cfg true ccw rpm targetRpm delayMs none).output = { on := true, ccw := ccw, pwm := cfg.getPwm targetRpm } := by
  obtain ⟨⟨ok, rpm', m'⟩, hr, heq⟩ := spindleRamp_ramped cfg none true ccw rpm targetRpm delayMs m
  rw [heq, rampEnd, if_pos ⟨hr.done rfl, hr.short hne⟩]
  obtain ⟨hon, hout, hccw, -⟩ | ⟨hon, hout, hccw, hunset⟩ := hr.state
  · rw [if_pos (show true = m'.on from hon.symm), output_updatePwm, show m'.output.on = true from hout, show m'.output.ccw = ccw from hccw]
  · split
    · rename_i hstill
      rcases h with hoff | ⟨hother, hlt, hdelay, hramp⟩ | ⟨hout', hccw'⟩
      · exact absurd (hstill.trans (hon.trans hoff)) Bool.noConfusion
      · exact absurd ⟨hdelay, hramp, hlt, Or.inr (Ne.symm hother)⟩ hunset
      · rw [output_updatePwm, show m'.output.on = true from hout.trans hout', show m'.output.ccw = ccw from hccw.trans hccw']
    · rfl

variable (cfg interrupted) in
theorem spindleRamp_same (on ccw : Bool) (rpm : K) (delayMs : ℕ) (m : Machine K) :
    (m.spindleRamp cfg on ccw rpm rpm delayMs interrupted).output = m.output := by
  have hnone : (spindleGetRamp cfg rpm rpm delayMs).1 = 0 := by simp [spindleGetRamp]
  rw [spindleRamp]
  split
  · simp only
    rw [hnone, if_neg (by decide), rampEnd, if_neg fun h => h.2 rfl]
  · rw [rampEnd, if_neg fun h => h.2 rfl]

end Machine

/-! ## Runs -/

variable [IsStrictOrderedRing K] [FloorSemiring K]

/-- A spindle that is off has no speed. -/
structure Inv (s : Machine K × Commanded K) : Prop where
  off : s.1.on = false → s.1.rpm = 0 ∧ s.1.rpmOverridden = 0
  overridePct : 0 < s.1.overridePct

omit [Field K] [IsStrictOrderedRing K] [FloorSemiring K] in
theorem constrain_pos [Zero K] {val min max : K} (hval : 0 < val) (hmax : 0 < max) : 0 < constrain val min max := by
  rw [constrain]
  split
  · rename_i hmin
    exact hval.trans hmin
  · split
    · exact hmax
    · exact hval

omit [FloorSemiring K] in
theorem overridden_pos (cfg : Config K) {rpm : K} {overridePct : ℕ} (hrpm : 0 < rpm) (hpct : 0 < overridePct) : 0 < cfg.overridden rpm overridePct := by
  have hscaled : 0 < if overridePct ≠ 100 ∧ !cfg.overrideDisable then rpm * (overridePct / 100) else rpm := by
    split
    · have : (0 : K) < overridePct := Nat.cast_pos.2 hpct
      positivity
    · exact hrpm
  rw [Config.overridden, if_neg (not_le.2 hscaled)]
  exact constrain_pos hscaled cfg.rpmMax_pos

omit [IsStrictOrderedRing K] [FloorSemiring K] in
theorem overridden_zero (overridePct : ℕ) : cfg.overridden 0 overridePct = 0 := by
  rw [Config.overridden]
  simp

namespace Machine
variable {m : Machine K}

theorem spindleSetState_on (down : Option ℕ) (hinv : m.on = false → m.rpm = 0 ∧ m.rpmOverridden = 0) (hpct : 0 < m.overridePct) {ccw : Bool} {rpm : K}
    {up : Option ℕ} (hlaser : cfg.laser = false) (hrpm : 0 < rpm) (h : cfg.rampUp = false ∨ Reaches cfg ccw rpm up m) :
    (m.spindleSetState cfg true ccw rpm down up).output =
      { on := true, ccw := ccw, pwm := cfg.getPwm (cfg.overridden rpm m.overridePct) } := by
  have hpos := overridden_pos cfg hrpm hpct
  have hsame (m : Machine K) : (m.spindleSetRpm cfg rpm m.overridePct).rpmOverridden = cfg.overridden rpm m.overridePct := rfl
  rw [spindleSetState, if_neg Bool.noConfusion, hlaser]
  simp only [Bool.false_eq_true, false_and, if_false]
  cases hup : cfg.rampUp with
  | false => rfl
  | true =>
      obtain ⟨rfl, hstate⟩ := h.resolve_left fun h0 => Bool.noConfusion (hup.symm.trans h0)
      simp only [if_true]
      by_cases hturn : m.on = true ∧ m.ccw ≠ ccw
      · -- the spindle is stopped first
        rw [if_pos hturn, hsame]
        have hpct' := (spindleRamp_frame cfg down m.on m.ccw m.rpmOverridden 0 cfg.offDelay m).1
        obtain ⟨-, hccw', hout', hdir'⟩ := spindleRamp_own cfg down m.rpmOverridden 0 cfg.offDelay m
        have hreach := hstate hturn.1
        rw [if_neg hturn.2] at hreach
        generalize m.spindleRamp cfg m.on m.ccw m.rpmOverridden 0 cfg.offDelay down = m₁ at hpct' hccw' hout' hdir'
        have hramp := spindleRamp_on cfg ccw cfg.onDelay (spindleSetRpm cfg rpm m₁.overridePct { m₁ with rpm := 0, rpmOverridden := 0 }) hpos.ne
          (.inr (hreach.imp (fun h => ⟨by show m₁.ccw ≠ ccw; rw [hccw']; exact hturn.2, hpos, h⟩)
            fun h => ⟨hout'.trans h.1, hdir'.trans h.2⟩))
        rw [← hpct']
        rw [← hpct'] at hramp
        exact hramp
      · rw [if_neg hturn, hsame]
        cases hon : m.on with
        | false =>
            have hramp := spindleRamp_on cfg ccw cfg.onDelay (spindleSetRpm cfg rpm m.overridePct m) hpos.ne (.inl hon)
            rw [← (hinv hon).2] at hramp
            exact hramp
        | true =>
            have hccw : m.ccw = ccw := not_not.1 fun h => hturn ⟨hon, h⟩
            have hreach := hstate hon
            rw [if_pos hccw] at hreach
            obtain ⟨hout, hdir, hspeed⟩ := hreach
            by_cases hne : m.rpmOverridden = cfg.overridden rpm m.overridePct
            · have hidle := spindleRamp_same cfg none true ccw m.rpmOverridden cfg.onDelay
                (spindleSetRpm cfg rpm m.overridePct m)
              rw [← hne]
              rw [← hne] at hspeed
              refine hidle.trans ?_
              show m.output = _
              rw [← hspeed.resolve_left fun h => h rfl, ← hout, ← hdir]
            · exact spindleRamp_on cfg ccw cfg.onDelay (spindleSetRpm cfg rpm m.overridePct m) hne (.inr (.inr ⟨hout, hdir⟩))

theorem spindleSetState_off (ccw : Bool) (rpm : K) (down up : Option ℕ) (h : m.pending = false ∨ cfg.rampDown ∧ cfg.offDelay > dwellTimeStep) :
    (m.spindleSetState cfg false ccw rpm down up).output.on = false ∧ (m.spindleSetState cfg false ccw rpm down up).pending = false := by
  rw [spindleSetState, if_pos rfl]
  refine ⟨rfl, ?_⟩
  cases hdown : cfg.rampDown with
  | false => exact h.resolve_right fun h' => Bool.noConfusion (hdown.symm.trans h'.1)
  | true =>
      refine (spindleRamp_frame cfg down m.on m.ccw m.rpmOverridden 0 cfg.offDelay m).2.trans ?_
      split
      · rfl
      · rename_i hdelay
        exact h.resolve_right fun h' => hdelay h'.2

variable (cfg) in
theorem overridePct_spindleSetState (on ccw : Bool) (rpm : K) (down up : Option ℕ) (m : Machine K) :
    (m.spindleSetState cfg on ccw rpm down up).overridePct = m.overridePct := by
  rw [spindleSetState]
  split
  · simp only [setOutput]
    split
    · exact (spindleRamp_frame _ _ _ _ _ _ _ _).1
    · rfl
  · simp only
    split
    · refine (spindleRamp_frame _ _ _ _ _ _ _ _).1.trans ?_
      show (if _ then _ else _ : Machine K).overridePct = _
      split
      · exact (spindleRamp_frame _ _ _ _ _ _ _ _).1
      · rfl
    · rfl

omit [IsStrictOrderedRing K] in
variable (cfg) in
theorem spindleSetOverride_cases (hpct : 0 < m.overridePct) (speedOverride : ℕ) (idle room : Bool) :
    m.spindleSetOverride cfg speedOverride idle room = m ∨ ∃ m', m.spindleSetOverride cfg speedOverride idle room = m' ∧
      m'.on = m.on ∧ m'.rpm = m.rpm ∧ 0 < m'.overridePct ∧ m'.rpmOverridden = cfg.overridden m.rpm m'.overridePct ∧
        m'.output.on = m.output.on ∧ (m.output.on = false → m'.pending = m.pending) := by
  rw [spindleSetOverride]
  simp only
  generalize hnew : (if speedOverride = 0 then m.overridePct else if speedOverride < minSpindleRpmOverride then minSpindleRpmOverride
    else if speedOverride > maxSpindleRpmOverride then maxSpindleRpmOverride else speedOverride) = pct
  have hpos : 0 < pct := by
    rw [← hnew, minSpindleRpmOverride, maxSpindleRpmOverride]
    split_ifs <;> omega
  split
  · refine .inr ⟨_, rfl, ?_⟩
    by_cases hramp : cfg.rampUp = true ∧ m.output.on = true
    · rw [if_pos (show cfg.rampUp = true ∧ (m.spindleSetRpm cfg m.rpm pct).output.on = true from hramp)]
      have hon (h0 : m.output.on = false) : False := Bool.noConfusion (h0.symm.trans hramp.2)
      split
      · exact ⟨rfl, rfl, hpos, rfl, rfl, fun h0 => (hon h0).elim⟩
      · split
        · exact ⟨rfl, rfl, hpos, rfl, rfl, fun h0 => (hon h0).elim⟩
        · exact ⟨rfl, rfl, hpos, rfl, rfl, fun h0 => (hon h0).elim⟩
    · rw [if_neg (show ¬ (cfg.rampUp = true ∧ (m.spindleSetRpm cfg m.rpm pct).output.on = true) from hramp)]
      simp only [Bool.false_eq_true, if_false]
      split
      · exact ⟨rfl, rfl, hpos, rfl, rfl, fun _ => rfl⟩
      · exact ⟨rfl, rfl, hpos, rfl, rfl, fun _ => rfl⟩
  · exact .inl rfl

omit [IsStrictOrderedRing K] [FloorSemiring K] in
variable (cfg m) in
theorem spindleRampTask_cases (room : Bool) :
    m.spindleRampTask cfg room = m ∨ m.pending = true ∧ (m.spindleRampTask cfg room).on = m.on ∧ (m.spindleRampTask cfg room).rpm = m.rpm ∧
      (m.spindleRampTask cfg room).rpmOverridden = m.rpmOverridden ∧ (m.spindleRampTask cfg room).overridePct = m.overridePct := by
  rw [spindleRampTask]
  split
  · rename_i hpending
    exact .inr ⟨hpending, rfl, rfl, rfl, rfl⟩
  · exact .inl rfl

end Machine

theorem Inv.step {s s' : Machine K × Commanded K} {a : Action K} (h : Inv s) (hstep : Ramping.step cfg s a = some s') : Inv s' := by
  obtain rfl := Option.some.inj hstep
  obtain ⟨m, c⟩ := s
  cases a with
  | setState on ccw rpm down up =>
      refine ⟨fun hoff => ?_, (Machine.overridePct_spindleSetState cfg on ccw rpm down up m).symm ▸ h.overridePct⟩
      have hoff' : (m.spindleSetState cfg on ccw rpm down up).on = false := hoff
      show (m.spindleSetState cfg on ccw rpm down up).rpm = 0 ∧ (m.spindleSetState cfg on ccw rpm down up).rpmOverridden = 0
      cases on with
      | false =>
          rw [Machine.spindleSetState, if_pos rfl]
          exact ⟨rfl, rfl⟩
      | true =>
          rw [Machine.spindleSetState, if_neg Bool.noConfusion] at hoff'
          exact absurd hoff' Bool.noConfusion
  | setOverride speedOverride idle room =>
      rcases Machine.spindleSetOverride_cases cfg h.overridePct speedOverride idle room with heq | ⟨m', heq, hon, hrpm, hpct, hover, -, -⟩
      · have hsame : Machine.act cfg m (.setOverride speedOverride idle room) = m := heq
        exact ⟨fun hoff => by rw [hsame] at hoff ⊢; exact h.off hoff, by rw [hsame]; exact h.overridePct⟩
      · have hsame : Machine.act cfg m (.setOverride speedOverride idle room) = m' := heq
        refine ⟨fun hoff => ?_, by rw [hsame]; exact hpct⟩
        rw [hsame] at hoff ⊢
        have hzero := (h.off (hon.symm.trans hoff)).1
        rw [hzero] at hrpm hover
        exact ⟨hrpm, hover.trans (overridden_zero _)⟩
  | allOff reset down =>
      refine ⟨fun _ => ⟨rfl, rfl⟩, ?_⟩
      show 0 < (m.spindleAllOff cfg reset down).overridePct
      rw [Machine.spindleAllOff]
      simp only [Machine.setOutput]
      split
      · rw [Machine.overridePct_spindleSetState]
        exact h.overridePct
      · exact h.overridePct
  | rampTask room =>
      rcases Machine.spindleRampTask_cases cfg m room with heq | ⟨-, hon, hrpm, hover, hpct⟩
      · have hsame : Machine.act cfg m (.rampTask room) = m := heq
        exact ⟨fun hoff => by rw [hsame] at hoff ⊢; exact h.off hoff, by rw [hsame]; exact h.overridePct⟩
      · exact ⟨fun hoff => ⟨hrpm.trans (h.off (hon.symm.trans hoff)).1, hover.trans (h.off (hon.symm.trans hoff)).2⟩, hpct.symm ▸ h.overridePct⟩

theorem Follows.step {s s' : Machine K × Commanded K} {a : Action K} (hinv : Inv s) (h : Follows cfg s) (hfine : Fine cfg s a)
    (hstep : Ramping.step cfg s a = some s') : Follows cfg s' := by
  obtain rfl := Option.some.inj hstep
  obtain ⟨m, c⟩ := s
  cases a with
  | setState on ccw rpm down up =>
      cases on with
      | false => exact Machine.spindleSetState_off ccw rpm down up hfine
      | true =>
          intro hlaser hrpm
          have hreach := (hfine.resolve_left fun h0 => Bool.noConfusion (hlaser.symm.trans h0)).resolve_left (not_le.2 hrpm)
          have hset := Machine.spindleSetState_on down hinv.off hinv.overridePct hlaser hrpm hreach
          rw [← Machine.overridePct_spindleSetState cfg true ccw rpm down up m] at hset
          exact hset
  | setOverride speedOverride idle room =>
      cases c with
      | off =>
          rcases Machine.spindleSetOverride_cases cfg hinv.overridePct speedOverride idle room with
            heq | ⟨m', heq, -, -, -, -, hout, hpending⟩
          · have hsame : Machine.act cfg m (.setOverride speedOverride idle room) = m := heq
            show (Machine.act cfg m _).output.on = false ∧ _
            rw [hsame]
            exact h
          · have hsame : Machine.act cfg m (.setOverride speedOverride idle room) = m' := heq
            show (Machine.act cfg m _).output.on = false ∧ (Machine.act cfg m _).pending = false
            rw [hsame]
            exact ⟨hout.trans h.1, (hpending h.1).trans h.2⟩
      | any => exact trivial
      | on => exact trivial
  | allOff reset down =>
      refine ⟨rfl, ?_⟩
      show (m.spindleAllOff cfg reset down).pending = false
      rw [Machine.spindleAllOff]
      simp only [Machine.setOutput]
      split
      · rename_i hramp
        exact (Machine.spindleSetState_off false 0 down none (hfine.imp_right fun h' => h'.2)).2
      · rename_i hramp
        exact hfine.resolve_right fun h' => hramp ⟨h'.1, h'.2.1⟩
  | rampTask room =>
      cases c with
      | off =>
          rcases Machine.spindleRampTask_cases cfg m room with heq | ⟨hpending, -⟩
          · have hsame : Machine.act cfg m (.rampTask room) = m := heq
            show (Machine.act cfg m _).output.on = false ∧ _
            rw [hsame]
            exact h
          · exact absurd (hpending.symm.trans h.2) Bool.noConfusion
      | any => exact trivial
      | on => exact trivial

variable (cfg) in
/-- A spindle that has been configured: off, no speed, nothing pending. -/
def start : Machine K × Commanded K where
  fst := { rpm := 0, rpmOverridden := 0, output := { pwm := cfg.getPwm 0 }, ramp := ⟨0, 0, 0, 0⟩ }
  snd := .any

/-- The output follows the commands all along a run of fine steps. -/
theorem follows_of_fine (as : List (Action K)) (hfine : Along (step cfg) (Fine cfg) (start cfg) as) :
    ∀ p s, p <+: as → run (step cfg) (start cfg) p = some s → Follows cfg s := by
  have hstep : ∀ s a s', Inv s ∧ Follows cfg s → Fine cfg s a → step cfg s a = some s' → Inv s' ∧ Follows cfg s' :=
    fun s a s' h hf hs => ⟨h.1.step hs, h.2.step h.1 hf hs⟩
  rintro p s ⟨rest, rfl⟩ hrun
  exact (run_invariant_along hstep p (start cfg) s ⟨⟨fun _ => ⟨rfl, rfl⟩, Nat.succ_pos 99⟩, trivial⟩ (along_append.1 hfine).1 hrun).2

end

/-! ## Examples -/

/-- Ramps of a second for the whole range. -/
def ramping : Config ℚ where
  getPwm := fun rpm => ⌊rpm⌋₊
  rpmMin := 0
  rpmMax := 1000
  rpmMax_pos := by decide
  rampUp := true
  rampDown := true
  onDelay := 1000
  offDelay := 1000

/-- The spindle is started, turns faster by an override, slower by another command, and is stopped. -/
def exampleRun : List (Action ℚ) :=
  [.setState true false 500 none none, .setOverride 120 true true, .rampTask true, .rampTask true, .rampTask true,
    .setState true false 300 none none, .setState false false 0 none none]

theorem follows_of_fine_example :
    (run (step ramping) (start ramping) exampleRun).isSome = true ∧
      ∀ p s, p <+: exampleRun → run (step ramping) (start ramping) p = some s → Follows ramping s :=
  ⟨by decide +kernel, follows_of_fine exampleRun (by decide +kernel)⟩

/-- A state that is set with no speed is taken to be set, and the next one only changes the PWM value: the spindle is not switched on. -/
theorem zero_speed_is_not_started :
    ∃ s, run (step ramping) (start ramping) [.setState true false 0 none none, .setState true false 1000 none none] = some s ∧
      ¬ Follows ramping s := by
  refine ⟨_, rfl, fun h => ?_⟩
  have hout := congrArg Output.on (h rfl (by decide))
  exact absurd hout (by decide +kernel)

end Grbl.Spindle.Ramping
