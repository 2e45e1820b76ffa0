import Mathlib

/-!
# The secondary stepper

`stepper2.c`. Integers have the widths of the source; a floating point number that does not fit into an unsigned integer becomes the
nearest one that does. The function for the end of a move is registered and there is room for its task. The timer and the time of the
next step are left out: a motor that is not idle is run again and again.

* `State`, `PositionType`, `Motor` : the data;
* `wrap32`, `int32`, `toUInt32`, `accelC64`, `decelC64`, `roundDelay` : arithmetic, and the ramp;
* `Motor.stop`, `Motor.setSpeed`, `motorMove`, `Motor.run` : the functions.
-/

namespace Grbl.Stepper2

/-- `st2_state_t` -/
inductive State
  | idle | accel | run | runInfinite | decelTo | decel
  deriving DecidableEq, Repr

/-- `position_t` -/
inductive PositionType
  | steps | infiniteSteps | mm
  deriving DecidableEq, Repr

/-- `st2_motor_t`, with the maximum rate of its axis, the number of steps that have been output, and how often it has been reported to have
stopped. -/
structure Motor where
  ptype : PositionType
  state : State
  position : ℤ
  move : ℕ
  stepNo : ℕ
  stepRun : ℕ
  stepDown : ℕ
  c64 : ℕ
  delay : ℕ
  firstDelay : ℕ
  minDelay : ℕ
  denom : ℤ
  n : ℕ
  speed : ℚ
  prevSpeed : ℚ
  stepsPerMm : ℚ
  acceleration : ℚ
  maxRate : ℚ
  /-- the negative direction -/
  dir : Bool
  output : ℕ
  stopped : ℕ

/-! ## Arithmetic -/

/-- The value of an unsigned integer of 32 bits. -/
def wrap32 (x : ℤ) : ℕ := (x % 2 ^ 32).toNat

theorem wrap32_of_lt {x : ℕ} (h : x < 2 ^ 32) : wrap32 x = x := by
  unfold wrap32
  omega

/-- The value of a signed integer of 32 bits. -/
def int32 (x : ℤ) : ℤ := (x + 2 ^ 31) % 2 ^ 32 - 2 ^ 31

/-- A floating point number as an unsigned integer of 32 bits. -/
def toUInt32 (x : ℚ) : ℕ := min ⌊x⌋₊ (2 ^ 32 - 1)

/-- The change of a step of the ramp; a negative denominator is taken for an unsigned one. -/
def rampChange (c64 : ℕ) (denom : ℤ) : ℕ := 2 * c64 % 2 ^ 64 / (denom % 2 ^ 64).toNat

def accelC64 (c64 : ℕ) (denom : ℤ) : ℕ := (c64 + (2 ^ 64 - rampChange c64 denom)) % 2 ^ 64

def decelC64 (c64 : ℕ) (denom : ℤ) : ℕ := (c64 + rampChange c64 denom) % 2 ^ 64

def roundDelay (c64 : ℕ) : ℕ := (c64 + 32768) % 2 ^ 64 / 2 ^ 16

/-! ## The motor -/

namespace Motor

/-- Cruising, for the type of the motion. -/
def cruise (m : Motor) : State := if m.ptype = .infiniteSteps then .runInfinite else .run

/-- `st2_motor_stop` -/
def stop (m : Motor) : Motor :=
  match m.state with
  | .accel => { m with stepNo := wrap32 (m.stepDown - 1), stepRun := m.stepDown }
  | .run => { m with stepNo := wrap32 (m.stepDown - 1) }
  | .runInfinite | .decelTo => { m with state := .decel }
  | .idle | .decel => m

/-- `st2_motor_set_speed`: the speed in steps per second. -/
def limited (m : Motor) (speed : ℚ) : ℚ := (if speed > m.maxRate then m.maxRate else speed) * (m.stepsPerMm / 60)

/-- `st2_motor_set_speed`: the delay and the length of the ramp. -/
def configured (m : Motor) (speed : ℚ) : Motor :=
  let n := toUInt32 (m.limited speed * m.limited speed / (2 * m.acceleration))
  { m with
    speed := m.limited speed
    minDelay := toUInt32 (1000000 / m.limited speed) % 2 ^ 16
    n := if n = 0 then 1 else n }

/-- `st2_motor_set_speed`: the steps from the place in the ramp to the end of it. -/
def pn (m : Motor) : ℤ := int32 (m.n - (m.denom - 1) / 4)

/-- `st2_motor_set_speed`: its end. -/
def accepted (m : Motor) : Motor := { m with prevSpeed := m.speed, firstDelay := max m.firstDelay m.minDelay }

/-- `st2_motor_set_speed` -/
def setSpeed (m : Motor) (speed : ℚ) : Motor :=
  if speed = 0 then m.stop
  else if m.limited speed = m.prevSpeed then { m with speed := m.limited speed }
  else
    let m := m.configured speed
    if m.state = .idle then m.accepted
    else if m.pn = 0 then m
    else if m.speed > m.prevSpeed then
      if m.state = .accel then accepted { m with stepRun := wrap32 (m.stepRun + m.pn) }
      else accepted { m with stepRun := wrap32 (m.stepNo + m.pn), state := .accel }
    else
      let m := if m.speed = 0 then { m with state := .decel } else m
      if m.state ≠ .decel then accepted { m with stepRun := wrap32 (m.stepNo - m.pn), state := .decelTo } else m.accepted

def outputStep (m : Motor) : Motor :=
  { m with position := if m.dir then m.position - 1 else m.position + 1, output := m.output + 1 }

/-- `st2_motor_move`: its end. -/
def started (m : Motor) : Motor :=
  { m with state := .accel, delay := m.firstDelay, c64 := m.firstDelay * 2 ^ 16, denom := 1, stepNo := 0 }

/-- `_motor_run`: what it does before the step. -/
def advance (m : Motor) : Motor :=
  match m.state with
  | .accel =>
      if m.stepNo ≠ m.stepRun then
        let denom := int32 (m.denom + 4)
        let c64 := accelC64 m.c64 denom
        if roundDelay c64 < m.minDelay then
          { m with denom := denom, c64 := c64, state := m.cruise, stepDown := wrap32 (m.move - m.stepNo), delay := m.minDelay }
        else { m with denom := denom, c64 := c64, delay := roundDelay c64 }
      else if m.stepRun = m.stepDown then { m with state := .decel }
      else { m with state := m.cruise, delay := m.minDelay }
  | .run => if m.stepNo = m.stepDown then { m with state := .decel } else m
  | .decel =>
      if m.denom < 2 then { m with state := .idle, prevSpeed := 0, n := 0 }
      else
        let c64 := decelC64 m.c64 m.denom
        { m with c64 := c64, delay := (c64 + (2 ^ 64 - 32768)) % 2 ^ 64 / 2 ^ 16, denom := int32 (m.denom - 4) }
  | .decelTo =>
      if m.stepNo ≠ m.stepRun then
        let denom := int32 (m.denom - 4)
        let c64 := decelC64 m.c64 denom
        { m with denom := denom, c64 := c64, delay := roundDelay c64 }
      else { m with delay := m.minDelay, state := m.cruise }
  | .idle | .runInfinite => m

/-- `_motor_run` -/
def run (m : Motor) : Motor :=
  let m' := m.advance.outputStep
  let m' := { m' with stepNo := wrap32 (m'.stepNo + 1) }
  if m'.state = .idle ∧ m.state ≠ .idle then { m' with stopped := m'.stopped + 1 } else m'

section
variable {m : Motor}

theorem setSpeed_idle {speed : ℚ} (hidle : m.state = .idle) (hspeed : speed ≠ 0) :
    (m.setSpeed speed).state = .idle ∧ (m.setSpeed speed).ptype = m.ptype ∧ (m.setSpeed speed).move = m.move := by
  unfold setSpeed
  rw [if_neg hspeed]
  split
  · exact ⟨hidle, rfl, rfl⟩
  · dsimp only
    rw [if_pos (show (m.configured speed).state = .idle from hidle)]
    exact ⟨hidle, rfl, rfl⟩

end

section
variable (m : Motor)

@[simp] theorem run_state : m.run.state = m.advance.state := by unfold run; dsimp only; split <;> rfl

@[simp] theorem run_stepNo : m.run.stepNo = wrap32 (m.advance.stepNo + 1) := by unfold run; dsimp only; split <;> rfl

@[simp] theorem run_stepRun : m.run.stepRun = m.advance.stepRun := by unfold run; dsimp only; split <;> rfl

@[simp] theorem run_stepDown : m.run.stepDown = m.advance.stepDown := by unfold run; dsimp only; split <;> rfl

@[simp] theorem run_c64 : m.run.c64 = m.advance.c64 := by unfold run; dsimp only; split <;> rfl

@[simp] theorem run_delay : m.run.delay = m.advance.delay := by unfold run; dsimp only; split <;> rfl

@[simp] theorem run_minDelay : m.run.minDelay = m.advance.minDelay := by unfold run; dsimp only; split <;> rfl

@[simp] theorem run_denom : m.run.denom = m.advance.denom := by unfold run; dsimp only; split <;> rfl

@[simp] theorem run_move : m.run.move = m.advance.move := by unfold run; dsimp only; split <;> rfl

@[simp] theorem run_ptype : m.run.ptype = m.advance.ptype := by unfold run; dsimp only; split <;> rfl

@[simp] theorem run_output : m.run.output = m.advance.output + 1 := by unfold run; dsimp only; split <;> rfl

end

/-- An idle motor with 1000 steps/s² and at most 60000 steps/min. -/
def idleMotor : Motor where
  ptype := .steps
  state := .idle
  position := 0
  move := 0
  stepNo := 0
  stepRun := 0
  stepDown := 0
  c64 := 0
  delay := 0
  firstDelay := 30232
  minDelay := 0
  denom := 0
  n := 0
  speed := 0
  prevSpeed := 0
  stepsPerMm := 1
  acceleration := 1000
  maxRate := 60000
  dir := false
  output := 0
  stopped := 0

end Motor

/-- `st2_motor_move`: the length of the move. -/
def moveSteps (m : Motor) (move : ℚ) : PositionType → ℕ
  | .steps | .infiniteSteps => toUInt32 |move|
  | .mm => toUInt32 (⌊|move * m.stepsPerMm| + 1 / 2⌋₊ : ℕ)

/-- `st2_motor_move` -/
def motorMove (m : Motor) (move speed : ℚ) (type : PositionType) : Motor × Bool :=
  if speed = 0 then (m, false)
  else
    let m := { m with ptype := type, dir := decide (move < 0), move := moveSteps m move type }
    let m := m.setSpeed speed
    if m.move = 1 ∧ type = .steps then (if m.state = .idle then m.outputStep else m, decide (m.state = .idle))
    else if type = .infiniteSteps then (Motor.started { m with stepRun := m.n, stepDown := wrap32 (m.n + 1) }, true)
    else if m.move ≠ 0 then
      let half := (m.move - m.move % 2) / 2
      let stepRun := if half > m.n then m.n else half
      (Motor.started { m with stepRun := stepRun, stepDown := m.move - stepRun }, true)
    else (m, false)

end Grbl.Stepper2
