import Grbl.Planner.Recalculate

/-!
# Adding, discarding and replanning blocks

* `LineData` : what a caller of `plan_buffer_line` passes (`plan_line_data_t`);
* `Geometry` : the length, the limits and the junction speed of a motion, which
  `plan_buffer_line` computes from the unit vectors of the motion and of the one before it;
* `planBufferLine`, `planDiscardCurrentBlock`, `planFeedOverride` : the operations;
* `prepTail` : what the segment generator writes to the block it works on;
* `PlanOp`, `planStep` : one operation of a run, `none` when its caller would not make the call.
-/

namespace Grbl

open Lib

/-- The data of a motion passed to the planner (`plan_line_data_t`). -/
structure LineData where
  feedRate : ℚ
  condition : PlannerCond
  synchronized : Bool
  outputCommands : List ℕ

/-- Length, limits and junction speed of a motion that has a length. -/
structure Geometry where
  millimeters : ℚ
  acceleration : ℚ
  rapidRate : ℚ
  maxJunctionSpeedSqr : ℚ
  millimeters_pos : 0 < millimeters
  acceleration_pos : 0 < acceleration
  maxJunctionSpeedSqr_nonneg : 0 ≤ maxJunctionSpeedSqr

namespace Planner

/-- `plan_reset`: an empty buffer over whatever the allocated memory holds. -/
def planReset (size : ℕ) (memory : ℕ → PlanBlock) (ov : Override) : Planner where
  size := size
  blocks := memory
  tail := 0
  head := 0
  nextHead := ringNext size 0
  planned := 0
  position := fun _ => 0
  previousNominalSpeed := 0
  override := ov
  direction := fun _ => false
  currentSpeed := none
  velocityProfile := false

def planCheckFullBuffer (s : Planner) : Bool := s.tail = s.nextHead

def planGetCurrentBlock (s : Planner) : Option ℕ := if s.head = s.tail then none else some s.tail

/-- `plan_discard_current_block`. The segment generator is done with the block, and has set `pl_block` to `NULL`. -/
def planDiscardCurrentBlock (s : Planner) : Planner :=
  if s.tail ≠ s.head then
    let s := { s with currentSpeed := none, velocityProfile := false }
    let s := if s.tail = s.planned then { s with planned := s.next s.tail } else s
    { s with tail := s.next s.tail }
  else s

/-- The block `plan_buffer_line` writes at the head before it knows whether the motion has any
length: condition and commands are copied, the steps are set, all other values are zero. -/
def newBlock (s : Planner) (targetSteps positionSteps : Axis → ℤ) (d : LineData) : PlanBlock where
  steps := fun i => (targetSteps i - positionSteps i).natAbs
  stepEventCount := maxSteps fun i => (targetSteps i - positionSteps i).natAbs
  direction := fun i =>
    if targetSteps i - positionSteps i < 0 then true
    else if targetSteps i - positionSteps i = 0 then s.direction i else false
  condition := d.condition
  synchronized := d.synchronized
  entrySpeedSqr := 0
  maxEntrySpeedSqr := 0
  acceleration := 0
  millimeters := 0
  maxJunctionSpeedSqr := 0
  rapidRate := 0
  programmedRate := 0
  outputCommands := d.outputCommands

/-- The rest of the block of a motion that has a length. -/
def finishBlock (s : Planner) (b : PlanBlock) (d : LineData) (g : Geometry) : PlanBlock :=
  { b with
    millimeters := g.millimeters
    acceleration := g.acceleration
    rapidRate := g.rapidRate
    programmedRate :=
      if b.condition.rapidMotion then g.rapidRate
      else if b.condition.inverseTime then d.feedRate * g.millimeters else d.feedRate
    maxJunctionSpeedSqr :=
      if s.head = s.tail ∨ b.condition.systemMotion = true then 0 else g.maxJunctionSpeedSqr }

/-- A new block takes the head slot and the head moves on. -/
def pushBlock (s : Planner) (b : PlanBlock) : Planner :=
  { s.setBlock s.head b with head := s.nextHead, nextHead := s.next s.nextHead }

/-- The block as it is queued, with its maximum entry speed. -/
def queuedBlock (s : Planner) (b : PlanBlock) (rpm : ℚ) : PlanBlock :=
  planComputeProfileParameters b (planComputeProfileNominalSpeed s.override rpm b)
    s.previousNominalSpeed

/-- The planner variables after the block `b` to `targetSteps`. -/
def advance (s : Planner) (b : PlanBlock) (targetSteps : Axis → ℤ) (rpm : ℚ) : Planner :=
  { s with
    previousNominalSpeed := planComputeProfileNominalSpeed s.override rpm b
    position := if b.condition.backlashMotion then s.position else targetSteps }

/-- `plan_buffer_line` with the recalculation of the plan as a parameter; `sysPosition` is the
machine position, `rpm` the spindle speed read. -/
def planBufferLineWith (recalculate : Planner → Planner) (s : Planner)
    (targetSteps sysPosition : Axis → ℤ) (d : LineData) (g : Geometry) (rpm : ℚ) :
    Planner × LineData × Bool :=
  let positionSteps := if d.condition.systemMotion then sysPosition else s.position
  let b := s.newBlock targetSteps positionSteps d
  let s := { s with direction := b.direction }
  if b.stepEventCount = 0 then (s.setBlock s.head b, d, false)
  else
    let d := { d with outputCommands := [] }
    let b := s.finishBlock b d g
    if b.condition.systemMotion then (s.setBlock s.head b, d, true)
    else (recalculate ((s.advance b targetSteps rpm).pushBlock (s.queuedBlock b rpm)), d, true)

def planBufferLine : Planner → (Axis → ℤ) → (Axis → ℤ) → LineData → Geometry → ℚ →
    Planner × LineData × Bool :=
  planBufferLineWith plannerRecalculate

/-- `plan_cycle_reinitialize` -/
def planCycleReinit (s : Planner) : Planner :=
  let s := s.stUpdatePlanBlockParameters
  let s := { s with planned := s.tail }
  if s.planned ≠ s.head then s.plannerRecalculate else s

/-- The loop of `plan_update_velocity_profile_parameters`; `rpm i` is the spindle speed read for
the block in slot `i`. -/
def updateProfiles (rpm : ℕ → ℚ) : ℕ → Planner → ℕ → ℚ → Planner
  | 0, s, _, _ => s
  | fuel + 1, s, block, prevNominalSpeed =>
      if block = s.head then { s with previousNominalSpeed := prevNominalSpeed }
      else
        let nominalSpeed :=
          planComputeProfileNominalSpeed s.override (rpm block) (s.blocks block)
        let s := s.setBlock block
          (planComputeProfileParameters (s.blocks block) nominalSpeed prevNominalSpeed)
        updateProfiles rpm fuel s (s.next block) nominalSpeed

/-- `plan_update_velocity_profile_parameters`, with its result. -/
def planUpdateVelocityProfileParameters (s : Planner) (rpm : ℕ → ℚ) : Planner × Bool :=
  if s.tail ≠ s.head then (updateProfiles rpm (s.size + 1) s s.tail someLargeValue, true)
  else (s, false)

/-- `_plan_feed_override` -/
def planFeedOverrideCore (s : Planner) (ov : Override) (rpm : ℕ → ℚ) : Planner :=
  if ov.feedRate ≠ s.override.feedRate ∨ ov.rapidRate ≠ s.override.rapidRate then
    let s := { s with override := ov }
    let r := s.planUpdateVelocityProfileParameters rpm
    if r.2 then r.1.planCycleReinit else r.1
  else s

end Planner

def constrain (val lo hi : ℕ) : ℕ := if val < lo then lo else if val > hi then hi else val

/-- The override values `plan_feed_override` settles on: the current ones for zero, else the
requested ones within `MIN_FEED_RATE_OVERRIDE` (10) to `MAX_FEED_RATE_OVERRIDE` (200) and 5 to 100. -/
def sysOverride (current requested : Override) : Override where
  feedRate :=
    if requested.feedRate = 0 then current.feedRate else constrain requested.feedRate 10 200
  rapidRate :=
    if requested.rapidRate = 0 then current.rapidRate else constrain requested.rapidRate 5 100

/-- The override values handed to the planner: `DEFAULT_FEED_OVERRIDE` and
`DEFAULT_RAPID_OVERRIDE` while `sys.override.control.feed_rates_disable` is set. -/
def effectiveOverride (current requested : Override) (disable : Bool) : Override :=
  if disable then ⟨100, 100⟩ else sysOverride current requested

/-- `plan_feed_override`: the new `sys.override` and the planner. -/
def planFeedOverride (s : Planner) (current requested : Override) (disable : Bool)
    (rpm : ℕ → ℚ) : Override × Planner :=
  (sysOverride current requested,
    s.planFeedOverrideCore (effectiveOverride current requested disable) rpm)

/-- What the segment generator writes while it works on the tail block: the entry speed when it
loads the block while decelerating, the remaining length, and its own current speed. -/
def Planner.prepTail (s : Planner) (entrySpeedSqr millimeters currentSpeed : ℚ) : Planner :=
  { s.setBlock s.tail
      { s.blocks s.tail with entrySpeedSqr := entrySpeedSqr, millimeters := millimeters } with
    currentSpeed := some currentSpeed
    velocityProfile := false }

/-- One operation on the planner. -/
inductive PlanOp
  | line (targetSteps sysPosition : Axis → ℤ) (d : LineData) (g : Geometry) (rpm : ℚ)
  | discard
  | feedOverride (current requested : Override) (disable : Bool) (rpm : ℕ → ℚ)
  | prep (entrySpeedSqr millimeters currentSpeed : ℚ)

/-- One operation; lines are only added while the buffer is not full, and the segment generator
only shortens a queued block. -/
def planStep (s : Planner) : PlanOp → Option Planner
  | .line targetSteps sysPosition d g rpm =>
      if s.planCheckFullBuffer then none
      else some (s.planBufferLine targetSteps sysPosition d g rpm).1
  | .discard => some s.planDiscardCurrentBlock
  | .feedOverride current requested disable rpm =>
      some (planFeedOverride s current requested disable rpm).2
  | .prep entrySpeedSqr millimeters currentSpeed =>
      match s.planGetCurrentBlock with
      | none => none
      | some i =>
          if 0 ≤ millimeters ∧ millimeters ≤ (s.blocks i).millimeters then
            some (s.prepTail entrySpeedSqr millimeters currentSpeed)
          else none

end Grbl
