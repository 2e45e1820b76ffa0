import Mathlib
import Grbl.Planner.Block
import Grbl.Lib.Ramp

/-!
# The velocity profile of a block

`st_prep_buffer` computes a profile from the squared entry and exit speeds, the nominal speed and what is left of the block.

* `Block`, `Plan`, `Prep`, `StepControl` : the executing block, what the planner answers, the data of the segment generator;
* `Block.nominalSpeed`, `Plan.exitSpeedSqr`, `nominalSpeed_planBlock` : the answers of the planner;
* `holdProfile`, `normalProfile`, `velocityProfile` : the profile;
* `Feasible` : the planned speeds fit the block; `Prep.Joins`, `Prep.OnlyFalls`, `normalProfile_shape` : the shapes of a profile;
* `profile_continuous` : the ramps join and end at the planned exit speed.
-/

namespace Grbl.Segments
open Lib
open scoped Grbl.Lib.Literal Grbl.Lib.OrderedField

/-- `ramp_type_t` -/
inductive RampType
  | accel | cruise | decel | decelOverride
  deriving DecidableEq, Repr

/-- `prep_flags_t` -/
structure PrepFlags where
  velocityProfile : Bool := false
  holdPartialBlock : Bool := false
  parking : Bool := false
  decelOverride : Bool := false
  deriving DecidableEq, Repr

/-- The flags of `sys.step_control` that the segment generator reads. -/
structure StepControl where
  endMotion : Bool := false
  executeHold : Bool := false
  executeSysMotion : Bool := false
  deriving DecidableEq, Repr

/-- The executing block (`plan_block_t`). -/
structure Block (K : Type*) where
  stepEventCount : ℕ
  condition : PlannerCond
  /-- `spindle.state.synchronized` -/
  synchronized : Bool
  entrySpeedSqr : K
  acceleration : K
  /-- what is left of the block -/
  millimeters : K
  rapidRate : K
  programmedRate : K

/-- What the planner knows besides the executing block. -/
structure Plan (K : Type*) where
  /-- `entry_speed_sqr` of the next block -/
  nextEntrySpeedSqr : Option K
  override : Override
  /-- the spindle speed -/
  rpm : K

/-- The data of the segment generator (`prep`). -/
structure Prep (K : Type*) where
  recalculate : PrepFlags
  rampType : RampType
  dtRemainder : K
  stepsRemaining : ℕ
  stepsPerMm : K
  reqMmIncrement : K
  /-- where the profile ends, from the end of the block -/
  mmComplete : K
  currentSpeed : K
  maximumSpeed : K
  exitSpeed : K
  /-- where the first ramp ends, from the end of the block -/
  accelerateUntil : K
  /-- where the last ramp starts, from the end of the block -/
  decelerateAfter : K
  targetPosition : K
  targetFeed : K

section
variable {K : Type*} [Field K] [LinearOrder K]

/-- `plan_get_exec_block_exit_speed_sqr` -/
def Plan.exitSpeedSqr (plan : Plan K) : K := plan.nextEntrySpeedSqr.getD 0

/-- `plan_compute_profile_nominal_speed` -/
def Block.nominalSpeed (b : Block K) (plan : Plan K) : K :=
  let nominalSpeed :=
    if b.condition.unitsPerRev || b.synchronized then b.programmedRate * plan.rpm else b.programmedRate
  let nominalSpeed :=
    if b.condition.rapidMotion then nominalSpeed * (1 / 100 * plan.override.rapidRate)
    else
      let nominalSpeed :=
        if plan.override.feedRate ≠ 100 ∧ b.condition.noFeedOverride = false then
          (if nominalSpeed > b.rapidRate then b.rapidRate else nominalSpeed) * (1 / 100 * plan.override.feedRate)
        else nominalSpeed
      if nominalSpeed > b.rapidRate then b.rapidRate else nominalSpeed
  if nominalSpeed > 1 then nominalSpeed else 1

def holdProfile [Sqrt K] (b : Block K) (p : Prep K) : Prep K :=
  let decelDist := b.millimeters - 1 / 2 / b.acceleration * b.entrySpeedSqr
  let p := { p with rampType := .decel, mmComplete := 0 }
  if decelDist < -(1 / 10000) then
    { p with exitSpeed := sqrtf (b.entrySpeedSqr - 2 * b.acceleration * b.millimeters) }
  else { p with mmComplete := if decelDist < 1 / 10000 then 0 else decelDist, exitSpeed := 0 }

/-- The profile in normal operation. What a shape does not use keeps its value from earlier blocks. -/
def normalProfile [Sqrt K] (ctl : StepControl) (plan : Plan K) (b : Block K) (p : Prep K) : Prep K :=
  let inv2Accel := 1 / 2 / b.acceleration
  let exitSpeedSqr := if ctl.executeSysMotion then 0 else plan.exitSpeedSqr
  let nominalSpeed := b.nominalSpeed plan
  let nominalSpeedSqr := nominalSpeed * nominalSpeed
  let intersectDistance := 1 / 2 * (b.millimeters + inv2Accel * (b.entrySpeedSqr - exitSpeedSqr))
  let p := { p with
    mmComplete := 0
    rampType := .accel
    accelerateUntil := b.millimeters
    exitSpeed := if ctl.executeSysMotion then 0 else sqrtf exitSpeedSqr
    targetFeed := nominalSpeed }
  if b.entrySpeedSqr > nominalSpeedSqr then
    let p := { p with accelerateUntil := b.millimeters - inv2Accel * (b.entrySpeedSqr - nominalSpeedSqr) }
    if p.accelerateUntil ≤ 0 then
      { p with
        rampType := .decel
        exitSpeed := sqrtf (b.entrySpeedSqr - 2 * b.acceleration * b.millimeters)
        recalculate := { p.recalculate with decelOverride := true } }
    else
      { p with
        decelerateAfter := inv2Accel * (nominalSpeedSqr - exitSpeedSqr)
        maximumSpeed := nominalSpeed
        rampType := .decelOverride }
  else if intersectDistance > 0 then
    if intersectDistance < b.millimeters then
      let p := { p with decelerateAfter := inv2Accel * (nominalSpeedSqr - exitSpeedSqr) }
      if p.decelerateAfter < intersectDistance then
        let p := { p with maximumSpeed := nominalSpeed }
        if b.entrySpeedSqr = nominalSpeedSqr then { p with rampType := .cruise }
        else { p with accelerateUntil := p.accelerateUntil - inv2Accel * (nominalSpeedSqr - b.entrySpeedSqr) }
      else
        { p with
          accelerateUntil := intersectDistance
          decelerateAfter := intersectDistance
          maximumSpeed := sqrtf (2 * b.acceleration * intersectDistance + exitSpeedSqr) }
    else { p with rampType := .decel }
  else { p with accelerateUntil := 0, maximumSpeed := p.exitSpeed }

/-- The profile that `st_prep_buffer` computes. -/
def velocityProfile [Sqrt K] (ctl : StepControl) (plan : Plan K) (b : Block K) (p : Prep K) : Prep K :=
  if ctl.executeHold then holdProfile b p else normalProfile ctl plan b p

theorem one_le_nominalSpeed (b : Block K) (plan : Plan K) : 1 ≤ b.nominalSpeed plan := by
  have h (x : K) : 1 ≤ if x > 1 then x else 1 := by
    split
    · next hx => exact hx.le
    · exact le_rfl
  exact h _

theorem normalProfile_targetFeed [Sqrt K] (ctl : StepControl) (plan : Plan K) (b : Block K) (p : Prep K) :
    (normalProfile ctl plan b p).targetFeed = b.nominalSpeed plan := by
  unfold normalProfile
  extract_lets
  split_ifs <;> rfl

end

/-- A block of the planner as the segment generator sees it. -/
def ofPlanBlock (b : PlanBlock) : Block ℚ where
  stepEventCount := b.stepEventCount
  condition := b.condition
  synchronized := b.synchronized
  entrySpeedSqr := b.entrySpeedSqr
  acceleration := b.acceleration
  millimeters := b.millimeters
  rapidRate := b.rapidRate
  programmedRate := b.programmedRate

theorem nominalSpeed_planBlock (b : PlanBlock) (plan : Plan ℚ) :
    (ofPlanBlock b).nominalSpeed plan = planComputeProfileNominalSpeed plan.override plan.rpm b := rfl

section
variable {K : Type*} [Field K] [LinearOrder K] [IsStrictOrderedRing K] {b : Block K} {plan : Plan K} {ctl : StepControl} {p : Prep K}

/-- The planned speeds fit the block: they differ by no more than the block can make up, and the exit is not above the nominal speed. -/
structure Feasible (b : Block K) (exitSpeedSqr nominalSpeed : K) : Prop where
  acceleration_pos : 0 < b.acceleration
  millimeters_pos : 0 < b.millimeters
  entry_nonneg : 0 ≤ b.entrySpeedSqr
  exit_nonneg : 0 ≤ exitSpeedSqr
  gain : |b.entrySpeedSqr - exitSpeedSqr| ≤ 2 * b.acceleration * b.millimeters
  exit_le : exitSpeedSqr ≤ nominalSpeed ^ 2

/-- Where the last ramp starts. An acceleration up to the end of the block has none, and `decelerateAfter` is left over. -/
def Prep.lastRamp (p : Prep K) : K :=
  if p.rampType = .accel ∧ p.accelerateUntil = 0 then 0 else p.decelerateAfter

/-- The ramps of the profile of a block that is entered at the squared speed `e` join, and end at the squared speed `x`. -/
structure Prep.Joins (p : Prep K) (b : Block K) (x nominalSpeed : K) : Prop where
  exit : p.exitSpeed ^ 2 = x
  lastRamp_nonneg : 0 ≤ p.lastRamp
  lastRamp_le : p.lastRamp ≤ p.accelerateUntil
  until_le : p.accelerateUntil ≤ b.millimeters
  top : p.maximumSpeed ^ 2 = x + 2 * b.acceleration * p.lastRamp
  first : |p.maximumSpeed ^ 2 - b.entrySpeedSqr| = 2 * b.acceleration * (b.millimeters - p.accelerateUntil)
  maximum_le : p.maximumSpeed ≤ nominalSpeed
  maximum_pos : 0 < p.maximumSpeed
  rise : p.rampType = .accel → b.entrySpeedSqr ≤ p.maximumSpeed ^ 2
  fall : p.rampType = .decelOverride → p.maximumSpeed ^ 2 ≤ b.entrySpeedSqr
  level : p.rampType = .cruise → p.maximumSpeed ^ 2 = b.entrySpeedSqr

/-- The profile is a deceleration over the whole block. -/
structure Prep.OnlyFalls (p : Prep K) (b : Block K) : Prop where
  decel : p.rampType = .decel
  exit : p.exitSpeed ^ 2 = b.entrySpeedSqr - 2 * b.acceleration * b.millimeters

theorem two_mul_inv (a x : K) (ha : 0 < a) : 2 * a * (1 / 2 / a * x) = x := by
  field_simp

theorem Prep.Joins.of_lengths {x n : K} (ha : 0 < b.acceleration) (hexit : p.exitSpeed ^ 2 = x)
    (hlast : 2 * b.acceleration * p.lastRamp = p.maximumSpeed ^ 2 - x) (htop : x ≤ p.maximumSpeed ^ 2)
    (hfirst : 2 * b.acceleration * (b.millimeters - p.accelerateUntil) = |p.maximumSpeed ^ 2 - b.entrySpeedSqr|)
    (hroom : p.maximumSpeed ^ 2 - x + |p.maximumSpeed ^ 2 - b.entrySpeedSqr| ≤ 2 * b.acceleration * b.millimeters)
    (hmax : p.maximumSpeed ≤ n) (hpos : 0 < p.maximumSpeed) (hrise : p.rampType = .accel → b.entrySpeedSqr ≤ p.maximumSpeed ^ 2)
    (hfall : p.rampType = .decelOverride → p.maximumSpeed ^ 2 ≤ b.entrySpeedSqr)
    (hlevel : p.rampType = .cruise → p.maximumSpeed ^ 2 = b.entrySpeedSqr) : p.Joins b x n := by
  have h2a : 0 < 2 * b.acceleration := by linarith
  have hle {y z : K} (hyz : 2 * b.acceleration * y ≤ 2 * b.acceleration * z) : y ≤ z := le_of_mul_le_mul_left hyz h2a
  refine ⟨hexit, hle ?_, hle ?_, hle ?_, by linarith, hfirst.symm, hmax, hpos, hrise, hfall, hlevel⟩
  · linarith
  · linarith
  · have := abs_nonneg (p.maximumSpeed ^ 2 - b.entrySpeedSqr)
    linarith

variable [Sqrt K] [LawfulSqrt K]

theorem normalProfile_shape (hctl : ctl.executeSysMotion = false) (h : Feasible b plan.exitSpeedSqr (b.nominalSpeed plan)) :
    let q := normalProfile ctl plan b p
    q.mmComplete = 0 ∧ 0 ≤ q.exitSpeed ∧ q.exitSpeed ^ 2 = plan.exitSpeedSqr ∧
      (q.OnlyFalls b ∨ q.rampType ≠ .decel ∧ q.Joins b plan.exitSpeedSqr (b.nominalSpeed plan)) := by
  have ha := h.acceleration_pos
  have hmm := h.millimeters_pos
  have hexit := h.exit_le
  obtain ⟨hgain, hgain'⟩ := abs_le.1 h.gain
  have hpos : 0 < b.nominalSpeed plan := lt_of_lt_of_le one_pos (one_le_nominalSpeed b plan)
  have hx := h.exit_nonneg
  have hsq := sq_sqrtf _ h.exit_nonneg
  generalize hq : normalProfile ctl plan b p = q
  simp only [normalProfile, hctl, Bool.false_eq_true, if_false, ← sq] at hq
  generalize b.nominalSpeed plan = n at *
  generalize plan.exitSpeedSqr = x at *
  have hk (y : K) := two_mul_inv b.acceleration y ha
  have hmul {y z : K} (hyz : y ≤ z) := mul_le_mul_of_nonneg_left hyz (show 0 ≤ 2 * b.acceleration by linarith)
  have hmul' {y z : K} (hyz : y < z) := mul_lt_mul_of_pos_left hyz (show 0 < 2 * b.acceleration by linarith)
  have hlast := hk (n ^ 2 - x)
  have hintersect : 2 * b.acceleration * (1 / 2 * (b.millimeters + 1 / 2 / b.acceleration * (b.entrySpeedSqr - x))) =
      1 / 2 * (2 * b.acceleration * b.millimeters + (b.entrySpeedSqr - x)) := by
    have := hk (b.entrySpeedSqr - x)
    linarith
  split_ifs at hq with h1 h2 h3 h4 h5 h6 <;> subst hq
  · -- the nominal speed is not reached before the end of the block
    have hfall := hk (b.entrySpeedSqr - n ^ 2)
    have hstop := hmul (sub_nonpos.1 h2)
    have hn : 0 ≤ n ^ 2 := sq_nonneg n
    have hend := sq_sqrtf (b.entrySpeedSqr - 2 * b.acceleration * b.millimeters) (by linarith)
    -- the planned speeds leave no room for more than that
    exact ⟨rfl, sqrtf_nonneg _, hend.trans (by linarith), .inl ⟨rfl, hend⟩⟩
  · -- down to the nominal speed
    have hfall := hk (b.entrySpeedSqr - n ^ 2)
    have habs : |n ^ 2 - b.entrySpeedSqr| = b.entrySpeedSqr - n ^ 2 := by
      rw [abs_sub_comm, abs_of_pos (sub_pos.2 h1)]
    refine ⟨rfl, sqrtf_nonneg _, hsq, .inr ⟨by simp, .of_lengths ha hsq ?_ hexit ?_ ?_ le_rfl hpos (by simp) (fun _ => h1.le) (by simp)⟩⟩
    · simpa [Prep.lastRamp] using hlast
    · simp only [sub_sub_cancel, hfall, habs]
    · simp only [habs]
      linarith
  · -- cruise from the start
    have hlt := hmul' h5
    have habs : |n ^ 2 - b.entrySpeedSqr| = 0 := by rw [h6, sub_self, abs_zero]
    refine ⟨rfl, sqrtf_nonneg _, hsq, .inr ⟨by simp, .of_lengths ha hsq ?_ hexit ?_ ?_ le_rfl hpos (by simp) (by simp) fun _ => h6.symm⟩⟩
    · simpa [Prep.lastRamp] using hlast
    · simp only [sub_self, mul_zero, habs]
    · simp only [habs]
      linarith
  · -- a trapezoid
    have hlt := hmul' h5
    have hrise := hk (n ^ 2 - b.entrySpeedSqr)
    have hle : b.entrySpeedSqr ≤ n ^ 2 := not_lt.1 h1
    have habs : |n ^ 2 - b.entrySpeedSqr| = n ^ 2 - b.entrySpeedSqr := abs_of_nonneg (sub_nonneg.2 hle)
    have huntil : b.millimeters - 1 / 2 / b.acceleration * (n ^ 2 - b.entrySpeedSqr) ≠ 0 := by
      intro hzero
      have := congrArg (2 * b.acceleration * ·) hzero
      simp only [mul_sub] at this hlt hrise hintersect
      linarith
    refine ⟨rfl, sqrtf_nonneg _, hsq, .inr ⟨by simp, .of_lengths ha hsq ?_ hexit ?_ ?_ le_rfl hpos (fun _ => hle) (by simp) (by simp)⟩⟩
    · rw [Prep.lastRamp, if_neg fun hzero => huntil hzero.2]
      exact hlast
    · simp only [sub_sub_cancel, hrise, habs]
    · simp only [habs]
      linarith
  · -- a triangle
    have hge := hmul (not_lt.1 h5)
    have hdist := hmul h4.le
    have hpeak := hmul' h3
    generalize 1 / 2 * (b.millimeters + 1 / 2 / b.acceleration * (b.entrySpeedSqr - x)) = i at *
    have hmax := sq_sqrtf (2 * b.acceleration * i + x) (by linarith)
    have habs : |2 * b.acceleration * i + x - b.entrySpeedSqr| = 2 * b.acceleration * i + x - b.entrySpeedSqr :=
      abs_of_nonneg (by linarith)
    have hle : sqrtf (2 * b.acceleration * i + x) ≤ n := sqrtf_le (by linarith) hpos.le (by linarith)
    have hpos' : 0 < sqrtf (2 * b.acceleration * i + x) := sqrtf_pos (by linarith)
    refine ⟨rfl, sqrtf_nonneg _, hsq, .inr ⟨by simp, .of_lengths ha hsq ?_ ?_ ?_ ?_ hle hpos' (fun _ => ?_) (by simp) (by simp)⟩⟩
    · simp [Prep.lastRamp, h3.ne', hmax]
    · simp only [hmax]
      linarith
    · simp only [hmax, habs]
      linarith
    · simp only [hmax, habs]
      linarith
    · simp only [hmax]
      linarith
  · -- only down
    have hge := hmul (not_lt.1 h4)
    refine ⟨rfl, sqrtf_nonneg _, hsq, .inl ⟨rfl, ?_⟩⟩
    simp only [hsq]
    linarith
  · -- only up
    have hge := hmul (not_lt.1 h3)
    have habs : |x - b.entrySpeedSqr| = x - b.entrySpeedSqr := abs_of_nonneg (by linarith)
    have hentry := h.entry_nonneg
    have hgain := hmul' hmm
    have hle : sqrtf x ≤ n := sqrtf_le hx hpos.le hexit
    have hpos' : 0 < sqrtf x := sqrtf_pos (by linarith)
    refine ⟨rfl, sqrtf_nonneg _, hsq, .inr ⟨by simp, .of_lengths ha hsq ?_ ?_ ?_ ?_ hle hpos' (fun _ => ?_) (by simp) (by simp)⟩⟩
    · simp [Prep.lastRamp, hsq]
    · exact hsq.ge
    · simp only [hsq, habs]
      linarith
    · simp only [hsq, habs]
      linarith
    · simp only [hsq]
      linarith

end

/-- A pure deceleration, or ramps that join; both end at the planned exit speed. -/
def Prep.Continuous (q : Prep ℝ) (b : Block ℝ) (x nominalSpeed : ℝ) : Prop :=
  q.mmComplete = 0 ∧ q.targetFeed = nominalSpeed ∧ 0 ≤ q.exitSpeed ∧ q.exitSpeed ^ 2 = x ∧
    (q.rampType = .decel ∧ q.exitSpeed ^ 2 = max 0 (b.entrySpeedSqr - 2 * b.acceleration * b.millimeters) ∨
      0 ≤ q.lastRamp ∧ q.lastRamp ≤ q.accelerateUntil ∧ q.accelerateUntil ≤ b.millimeters ∧
        q.maximumSpeed ^ 2 = x + 2 * b.acceleration * q.lastRamp ∧
        |q.maximumSpeed ^ 2 - b.entrySpeedSqr| = 2 * b.acceleration * (b.millimeters - q.accelerateUntil) ∧
        q.maximumSpeed ≤ nominalSpeed)

theorem profile_continuous {ctl : StepControl} (plan : Plan ℝ) (b : Block ℝ) (p : Prep ℝ) (hhold : ctl.executeHold = false)
    (hsys : ctl.executeSysMotion = false) (hacc : 0 < b.acceleration) (hmm : 0 < b.millimeters) (hentry : 0 ≤ b.entrySpeedSqr)
    (hexit : 0 ≤ plan.exitSpeedSqr) (hgain : |b.entrySpeedSqr - plan.exitSpeedSqr| ≤ 2 * b.acceleration * b.millimeters)
    (hle : plan.exitSpeedSqr ≤ b.nominalSpeed plan ^ 2) :
    (velocityProfile ctl plan b p).Continuous b plan.exitSpeedSqr (b.nominalSpeed plan) := by
  rw [velocityProfile, hhold, if_neg Bool.false_ne_true]
  obtain ⟨hcomplete, hnonneg, hend, hshape⟩ := normalProfile_shape (p := p) hsys ⟨hacc, hmm, hentry, hexit, hgain, hle⟩
  refine ⟨hcomplete, normalProfile_targetFeed ctl plan b p, hnonneg, hend, ?_⟩
  rcases hshape with hfalls | ⟨-, hjoins⟩
  · left
    have hsq := sq_nonneg (normalProfile ctl plan b p).exitSpeed
    rw [hfalls.exit] at hsq
    exact ⟨hfalls.decel, hfalls.exit.trans (max_eq_right hsq).symm⟩
  · right
    exact ⟨hjoins.lastRamp_nonneg, hjoins.lastRamp_le, hjoins.until_le, hjoins.top, hjoins.first, hjoins.maximum_le⟩

/-- One millimeter from rest to rest. -/
def Example.block : Block ℝ where
  stepEventCount := 100
  condition := ⟨false, false, false, false, false, false⟩
  synchronized := false
  entrySpeedSqr := 0
  acceleration := 1
  millimeters := 1
  rapidRate := 10
  programmedRate := 10

def Example.plan : Plan ℝ := ⟨none, ⟨100, 100⟩, 0⟩

def Example.prep : Prep ℝ := ⟨{}, .accel, 0, 100, 100, 1, 0, 0, 0, 0, 0, 0, 0, 0⟩

theorem profile_continuous_rest : (velocityProfile {} Example.plan Example.block Example.prep).Continuous Example.block
    Example.plan.exitSpeedSqr (Example.block.nominalSpeed Example.plan) := by
  have hexit : Example.plan.exitSpeedSqr = 0 := rfl
  refine profile_continuous Example.plan Example.block Example.prep rfl rfl one_pos one_pos le_rfl hexit.ge ?_ ?_
  · rw [hexit]
    norm_num [Example.block]
  · rw [hexit]
    exact sq_nonneg _

end Grbl.Segments
