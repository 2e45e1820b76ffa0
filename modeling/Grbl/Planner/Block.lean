import Mathlib
import Grbl.Axis

/-!
# Planner blocks

Speeds, accelerations and lengths are exact rationals; speeds enter the plan squared.

* `PlannerCond` : the condition bits of a motion the planner looks at;
* `PlanBlock` : a block of the planner buffer;
* `Override` : the override percentages the planner works with;
* `planComputeProfileNominalSpeed`, `planComputeProfileParameters` : the nominal speed of a block
  and the maximum speed at which it may be entered.
-/

namespace Grbl

/-- The condition bits read by the planner (`planner_cond_t`). -/
structure PlannerCond where
  rapidMotion : Bool
  systemMotion : Bool
  backlashMotion : Bool
  noFeedOverride : Bool
  inverseTime : Bool
  unitsPerRev : Bool
  deriving DecidableEq, Repr

/-- A block of the planner buffer (`plan_block_t`). -/
structure PlanBlock where
  steps : Axis → ℕ
  stepEventCount : ℕ
  direction : Axis → Bool
  condition : PlannerCond
  /-- `spindle.state.synchronized` -/
  synchronized : Bool
  entrySpeedSqr : ℚ
  maxEntrySpeedSqr : ℚ
  acceleration : ℚ
  /-- the remaining length; the segment generator shortens it while the block executes -/
  millimeters : ℚ
  maxJunctionSpeedSqr : ℚ
  rapidRate : ℚ
  programmedRate : ℚ
  /-- the nodes of the list `output_commands` points at -/
  outputCommands : List ℕ

/-- The override percentages the planner works with (`pl.override`). -/
@[ext] structure Override where
  feedRate : ℕ
  rapidRate : ℕ
  deriving DecidableEq, Repr

/-- `MINIMUM_FEED_RATE`, in mm/min. -/
def minimumFeedRate : ℚ := 1

def someLargeValue : ℚ := 10 ^ 38

/-- `2 * acceleration * millimeters`: what the squared speed can change by over the block. -/
def PlanBlock.gain (b : PlanBlock) : ℚ := 2 * b.acceleration * b.millimeters

/-- The nominal speed of a block under the overrides; `rpm` is the spindle speed read for it. -/
def planComputeProfileNominalSpeed (ov : Override) (rpm : ℚ) (block : PlanBlock) : ℚ :=
  let nominalSpeed :=
    if block.condition.unitsPerRev || block.synchronized then block.programmedRate * rpm
    else block.programmedRate
  let nominalSpeed :=
    if block.condition.rapidMotion then nominalSpeed * (1 / 100 * ov.rapidRate)
    else
      let nominalSpeed :=
        if ov.feedRate ≠ 100 ∧ block.condition.noFeedOverride = false then
          (if nominalSpeed > block.rapidRate then block.rapidRate else nominalSpeed)
            * (1 / 100 * ov.feedRate)
        else nominalSpeed
      if nominalSpeed > block.rapidRate then block.rapidRate else nominalSpeed
  if nominalSpeed > minimumFeedRate then nominalSpeed else minimumFeedRate

/-- The maximum entry speed of a block: the smallest of the junction speed and the nominal speeds
on both sides of the junction. -/
def profileMaxEntrySpeedSqr (maxJunctionSpeedSqr nominalSpeed prevNominalSpeed : ℚ) : ℚ :=
  let v := if nominalSpeed > prevNominalSpeed then prevNominalSpeed * prevNominalSpeed
    else nominalSpeed * nominalSpeed
  if v > maxJunctionSpeedSqr then maxJunctionSpeedSqr else v

/-- Updates the maximum entry speed of the block. -/
def planComputeProfileParameters (block : PlanBlock) (nominalSpeed prevNominalSpeed : ℚ) :
    PlanBlock :=
  { block with
    maxEntrySpeedSqr :=
      profileMaxEntrySpeedSqr block.maxJunctionSpeedSqr nominalSpeed prevNominalSpeed }

theorem profileMaxEntrySpeedSqr_nonneg {junction : ℚ} (hj : 0 ≤ junction) (v w : ℚ) :
    0 ≤ profileMaxEntrySpeedSqr junction v w := by
  unfold profileMaxEntrySpeedSqr
  dsimp only
  split_ifs
  · exact hj
  · exact mul_self_nonneg w
  · exact hj
  · exact mul_self_nonneg v

theorem PlanBlock.gain_nonneg {b : PlanBlock} (ha : 0 < b.acceleration)
    (hm : 0 ≤ b.millimeters) : 0 ≤ b.gain :=
  mul_nonneg (mul_nonneg (by norm_num) ha.le) hm

theorem PlanBlock.gain_pos {b : PlanBlock} (ha : 0 < b.acceleration)
    (hm : 0 < b.millimeters) : 0 < b.gain :=
  mul_pos (mul_pos (by norm_num) ha) hm

end Grbl
