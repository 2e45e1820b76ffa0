import Mathlib
import Grbl.Segments.Profile
import Grbl.Lib.Run

/-!
# The segment generator over one block

The loop of `st_prep_buffer` is taken pass by pass. A feed hold, its end and new plans come between two segments.

* `Work`, `Seg`, `State` : the working variables of the loop, what is pushed to the ring, the machine;
* `decelOverrideRamp`, `accelRamp`, `cruiseRamp`, `decelRamp`, `ramp`, `pass` : a pass of the loop;
* `State.begin`, `State.finish` : what comes before the loop and behind it;
* `updatePlanBlockParameters`, `hold`, `resume`, `step` : the machine.
-/

namespace Grbl.Segments
open Lib
open scoped Grbl.Lib.Literal

/-- The working variables of the segment loop. -/
structure Work (K : Type*) where
  dtMax : K
  dt : K
  timeVar : K
  mmRemaining : K
  minimumMm : K

/-- A step segment, its step count before it is scaled by the smoothing level. -/
structure Seg (K : Type*) where
  nStep : ℕ
  invRate : K
  currentRate : K
  rampType : RampType
  /-- the divisor of `invRate`, the time of the loop, and the state the loop was entered and left in: nothing reads them -/
  divisor : K
  dt : K
  start : Prep K
  startMm : K
  stop : Prep K
  stopMm : K

/-- The state of the segment generator. -/
structure State (K : Type*) where
  ctl : StepControl := {}
  /-- `pl_block` is not `NULL` -/
  loaded : Bool := false
  /-- the current block of the planner; `none` once it has been discarded -/
  block : Option (Block K)
  prep : Prep K
  /-- the loop that is being executed, and `prep` when it was entered, which nothing reads -/
  work : Option (Work K × Prep K) := none
  segments : List (Seg K) := []

/-- What happens to the segment generator. -/
inductive Action (K : Type*)
  | begin (plan : Plan K)
  | pass
  | update
  | hold
  | resume

section
variable {K : Type*} [Field K] [LinearOrder K]

/-- `DT_SEGMENT`, in minutes. -/
def dtSegment : K := 1 / (100 * 60)

/-- `case Ramp_DecelOverride` -/
def decelOverrideRamp (b : Block K) (p : Prep K) (w : Work K) : Prep K × Work K :=
  let speedVar := b.acceleration * w.timeVar
  if p.currentSpeed - p.maximumSpeed ≤ speedVar then
    ({ p with rampType := .cruise, currentSpeed := p.maximumSpeed },
      { w with
        mmRemaining := p.accelerateUntil
        timeVar := 2 * (b.millimeters - p.accelerateUntil) / (p.currentSpeed + p.maximumSpeed) })
  else
    ({ p with currentSpeed := p.currentSpeed - speedVar },
      { w with mmRemaining := w.mmRemaining - w.timeVar * (p.currentSpeed - 1 / 2 * speedVar) })

/-- `case Ramp_Accel` -/
def accelRamp (b : Block K) (p : Prep K) (w : Work K) : Prep K × Work K :=
  let speedVar := b.acceleration * w.timeVar
  let mmRemaining := w.mmRemaining - w.timeVar * (p.currentSpeed + 1 / 2 * speedVar)
  if mmRemaining < p.accelerateUntil then
    ({ p with
        rampType := if p.accelerateUntil = p.decelerateAfter then .decel else .cruise
        currentSpeed := p.maximumSpeed },
      { w with
        mmRemaining := p.accelerateUntil
        timeVar := 2 * (b.millimeters - p.accelerateUntil) / (p.currentSpeed + p.maximumSpeed) })
  else ({ p with currentSpeed := p.currentSpeed + speedVar }, { w with mmRemaining := mmRemaining })

/-- `case Ramp_Cruise` -/
def cruiseRamp (p : Prep K) (w : Work K) : Prep K × Work K :=
  let mmVar := w.mmRemaining - p.maximumSpeed * w.timeVar
  if mmVar < p.decelerateAfter then
    ({ p with rampType := .decel },
      { w with
        timeVar := (w.mmRemaining - p.decelerateAfter) / p.maximumSpeed
        mmRemaining := p.decelerateAfter })
  else (p, { w with mmRemaining := mmVar })

/-- `case Ramp_Decel` -/
def decelRamp (b : Block K) (p : Prep K) (w : Work K) : Prep K × Work K :=
  let speedVar := b.acceleration * w.timeVar
  let mmVar := w.mmRemaining - w.timeVar * (p.currentSpeed - 1 / 2 * speedVar)
  if p.currentSpeed > speedVar ∧ mmVar > p.mmComplete then
    ({ p with currentSpeed := p.currentSpeed - speedVar }, { w with mmRemaining := mmVar })
  else
    ({ p with currentSpeed := p.exitSpeed },
      { w with
        timeVar := 2 * (w.mmRemaining - p.mmComplete) / (p.currentSpeed + p.exitSpeed)
        mmRemaining := p.mmComplete })

/-- The `switch` over the ramps. -/
def ramp (b : Block K) (p : Prep K) (w : Work K) : Prep K × Work K :=
  match p.rampType with
  | .decelOverride => decelOverrideRamp b p w
  | .accel => accelRamp b p w
  | .cruise => cruiseRamp p w
  | .decel => decelRamp b p w

/-- What follows the `switch`, and whether the loop goes on. -/
def account (p : Prep K) (w : Work K) : Work K × Bool :=
  let w := { w with dt := w.dt + w.timeVar }
  if w.dt < w.dtMax then
    ({ w with timeVar := w.dtMax - w.dt }, decide (w.mmRemaining > p.mmComplete))
  else if w.mmRemaining > w.minimumMm then
    ({ w with dtMax := w.dtMax + dtSegment, timeVar := w.dtMax + dtSegment - w.dt }, decide (w.mmRemaining > p.mmComplete))
  else (w, false)

/-- A pass of the loop, and whether there is another one. -/
def pass (b : Block K) (p : Prep K) (w : Work K) : Prep K × Work K × Bool :=
  let r := ramp b p w
  (r.1, account r.1 r.2)

/-- The block is loaded, or only its profile is to be computed again. -/
def loadBlock [Sqrt K] (parkingEnabled : Bool) (ctl : StepControl) (b : Block K) (p : Prep K) : Block K × Prep K :=
  if p.recalculate.velocityProfile then
    (b, { p with
      recalculate :=
        if parkingEnabled && p.recalculate.parking then { p.recalculate with velocityProfile := false } else {} })
  else
    let p := { p with
      stepsPerMm := b.stepEventCount / b.millimeters
      stepsRemaining := b.stepEventCount
      reqMmIncrement := 125 / 100 / (b.stepEventCount / b.millimeters)
      dtRemainder := 0
      targetPosition := 0 }
    if ctl.executeHold || p.recalculate.decelOverride then
      ({ b with entrySpeedSqr := p.exitSpeed * p.exitSpeed },
        { p with currentSpeed := p.exitSpeed, recalculate := { p.recalculate with decelOverride := false } })
    else (b, { p with currentSpeed := sqrtf b.entrySpeedSqr })

/-- The working variables when the loop is entered. -/
def Work.start (b : Block K) (p : Prep K) : Work K where
  dtMax := dtSegment
  dt := 0
  timeVar := dtSegment
  mmRemaining := b.millimeters
  minimumMm := if b.millimeters - p.reqMmIncrement < 0 then 0 else b.millimeters - p.reqMmIncrement

/-- `st_prep_buffer` up to the loop. -/
def State.begin [Sqrt K] (parkingEnabled : Bool) (plan : Plan K) (s : State K) : Option (State K) :=
  match s.work, s.block with
  | none, some b =>
      if s.ctl.endMotion then none
      else if s.loaded then some { s with work := some (.start b s.prep, s.prep) }
      else
        let r := loadBlock parkingEnabled s.ctl b s.prep
        let p := velocityProfile s.ctl plan r.1 r.2
        some { s with loaded := true, block := some r.1, prep := p, work := some (.start r.1 p, p) }
  | _, _ => none

/-- Unsigned subtraction of 32 bit values. -/
def subU32 (x y : ℕ) : ℕ := (x + (2 ^ 32 - y % 2 ^ 32)) % 2 ^ 32

def State.endMotion (parkingEnabled : Bool) (s : State K) : State K :=
  { s with
    ctl := { s.ctl with endMotion := true }
    prep :=
      if parkingEnabled && !s.prep.recalculate.parking then
        { s.prep with recalculate := { s.prep.recalculate with holdPartialBlock := true } }
      else s.prep }

/-- `st_prep_buffer` behind the loop. -/
def State.finish [FloorSemiring K] (parkingEnabled : Bool) (b : Block K) (w : Work K) (start : Prep K) (s : State K) : State K :=
  let s := { s with work := none }
  let p := s.prep
  let stepDistRemaining := p.stepsPerMm * w.mmRemaining
  let nStepsRemaining := ⌈stepDistRemaining⌉₊
  let nStep := subU32 p.stepsRemaining nStepsRemaining
  if nStep = 0 ∧ s.ctl.executeHold then s.endMotion parkingEnabled
  else
    let dt := w.dt + p.dtRemainder
    let divisor := p.stepsRemaining - stepDistRemaining
    let invRate := dt / divisor
    let s := { s with
      segments := s.segments ++ [⟨nStep, invRate, p.currentSpeed, p.rampType, divisor, w.dt, start, b.millimeters, p, w.mmRemaining⟩]
      block := some { b with millimeters := w.mmRemaining }
      prep := { p with
        targetPosition := if b.synchronized && !b.condition.unitsPerRev then p.targetPosition + dt * p.targetFeed else p.targetPosition
        stepsRemaining := nStepsRemaining
        dtRemainder := (nStepsRemaining - stepDistRemaining) * invRate } }
    if w.mmRemaining ≤ p.mmComplete then
      if w.mmRemaining > 0 then s.endMotion parkingEnabled
      else if s.ctl.executeSysMotion then { s with ctl := { s.ctl with endMotion := true } }
      else { s with loaded := false, block := none }
    else s

/-- A pass of the loop, and what follows the last one. -/
def State.pass [FloorSemiring K] (parkingEnabled : Bool) (s : State K) : Option (State K) :=
  match s.work, s.block with
  | some (w, start), some b =>
      let r := Segments.pass b s.prep w
      let s := { s with prep := r.1, work := some (r.2.1, start) }
      some (if r.2.2 then s else s.finish parkingEnabled b r.2.1 start)
  | _, _ => none

/-- `st_update_plan_block_parameters(false)` -/
def State.updatePlanBlockParameters (s : State K) : State K :=
  if s.loaded then
    { s with
      prep := { s.prep with recalculate := { s.prep.recalculate with velocityProfile := true } }
      block := s.block.map fun b => { b with entrySpeedSqr := s.prep.currentSpeed * s.prep.currentSpeed }
      loaded := false }
  else s

/-- A feed hold is requested. -/
def State.hold (s : State K) : State K :=
  let s := s.updatePlanBlockParameters
  { s with ctl := { s.ctl with executeHold := true } }

/-- The feed hold has ended: `plan_cycle_reinitialize`, and the flags of `sys.step_control` are cleared. -/
def State.resume (s : State K) : State K := { s.updatePlanBlockParameters with ctl := {} }

/-- The machine. Nothing comes between two passes of a loop. -/
def step [Sqrt K] [FloorSemiring K] (parkingEnabled : Bool) (s : State K) : Action K → Option (State K)
  | .begin plan => s.begin parkingEnabled plan
  | .pass => s.pass parkingEnabled
  | .update => if s.work.isSome then none else some s.updatePlanBlockParameters
  | .hold => if s.work.isSome then none else some s.hold
  | .resume => if s.work.isSome then none else some s.resume

end

section
variable {K : Type*} [Field K] [LinearOrder K] {s : State K} {b : Block K} {w : Work K} {start : Prep K} {parkingEnabled : Bool}

theorem begin_working [Sqrt K] (hwork : s.work = some (w, start)) (plan : Plan K) : s.begin parkingEnabled plan = none := by
  rw [State.begin, hwork]

theorem begin_discarded [Sqrt K] (hblock : s.block = none) (plan : Plan K) : s.begin parkingEnabled plan = none := by
  rw [State.begin, hblock]
  cases s.work <;> rfl

theorem begin_loaded [Sqrt K] (hwork : s.work = none) (hblock : s.block = some b) (hloaded : s.loaded = true) (plan : Plan K) :
    s.begin parkingEnabled plan = if s.ctl.endMotion then none else some { s with work := some (.start b s.prep, s.prep) } := by
  rw [State.begin, hwork, hblock, hloaded]
  rfl

theorem begin_unloaded [Sqrt K] (hwork : s.work = none) (hblock : s.block = some b) (hloaded : s.loaded = false) (plan : Plan K) :
    s.begin parkingEnabled plan =
      if s.ctl.endMotion then none
      else
        let r := loadBlock parkingEnabled s.ctl b s.prep
        let p := velocityProfile s.ctl plan r.1 r.2
        some { s with loaded := true, block := some r.1, prep := p, work := some (.start r.1 p, p) } := by
  rw [State.begin, hwork, hblock, hloaded]
  rfl

theorem pass_idle [FloorSemiring K] (hwork : s.work = none) : s.pass parkingEnabled = none := by
  rw [State.pass, hwork]

theorem pass_working [FloorSemiring K] (hwork : s.work = some (w, start)) (hblock : s.block = some b) :
    s.pass parkingEnabled =
      let r := Segments.pass b s.prep w
      let s' := { s with prep := r.1, work := some (r.2.1, start) }
      some (if r.2.2 then s' else s'.finish parkingEnabled b r.2.1 start) := by
  rw [State.pass, hwork, hblock]

end

theorem endMotion_prep {K : Type*} (parkingEnabled : Bool) (s : State K) : ∃ f, (s.endMotion parkingEnabled).prep = { s.prep with recalculate := f } := by
  rw [State.endMotion]
  by_cases h : (parkingEnabled && !s.prep.recalculate.parking) = true
  · exact ⟨_, if_pos h⟩
  · exact ⟨_, if_neg h⟩

end Grbl.Segments
