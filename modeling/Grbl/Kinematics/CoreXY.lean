import Mathlib
import Grbl.Lib.Ramp
import Grbl.Motion.Backlash

/-!
# Feed rates on a CoreXY machine

`mc_line` with the CoreXY kinematics. The distance that the motors move replaces the Cartesian one, and the feed rate is
scaled by the ratio of the two. Arithmetic is exact; what `limits_soft_check` leads to shows in the next
`protocol_execute_realtime`.

* `transformFromCartesian`, `transformToCartesian`, `getDistance`, `Segment` : `corexy.c`;
* `planBufferLine` : what the planner stores of a line; `Environment`, `mcLine` : the call;
* `OnTime` : it takes the programmed time, and the feed rate is what it was;
* `Regular` : when; `onTime_iff`.
-/

namespace Grbl.Kinematics.CoreXY
open Lib Function
open Motion (lround)
open scoped Grbl.Lib.Literal Grbl.Lib.OrderedField

section
variable {K : Type*} [Field K]

def transformFromCartesian (position : Axis → K) : Axis → K :=
  update (update position .x (position .x + position .y)) .y (position .x - position .y)

def transformToCartesian (position : Axis → K) : Axis → K :=
  update (update position .x ((position .x + position .y) * (1 / 2))) .y ((position .x - position .y) * (1 / 2))

/-- The length of a vector, as in `convert_delta_vector_to_unit_vector`. -/
def magnitude [Sqrt K] (v : Axis → K) : K := sqrtf (v .a * v .a + v .z * v .z + v .y * v .y + v .x * v .x)

def getDistance [Sqrt K] (p0 p1 : Axis → K) : K := magnitude fun i => p0 i - p1 i

/-- The fields of `plan_line_data_t` that decide the rate of a line. -/
structure LineData (K : Type*) where
  feedRate : K
  rapidMotion : Bool := false
  inverseTime : Bool := false
  rateMultiplier : K

/-- The static variables of `kinematics_segment_line`. -/
structure Segment (K : Type*) where
  iterations : ℕ
  trsf : Axis → K

/-- Whether there is a line left: `iterations-- == 0 ? NULL : trsf`. -/
def Segment.next (s : Segment K) : Bool × Segment K := (s.iterations != 0, { s with iterations := s.iterations - 1 })

variable [LinearOrder K]

/-- The first call of `kinematics_segment_line` for a line, and whether it has divided by zero. -/
def segmentLine [Sqrt K] (target position : Axis → K) (d : LineData K) : Segment K × LineData K × Bool :=
  let trsf := transformFromCartesian target
  let cpos := transformToCartesian position
  let s := (⟨2, trsf⟩ : Segment K).next.2
  if d.rapidMotion then (s, d, false)
  else
    (s, { d with feedRate := d.feedRate * (getDistance trsf position / getDistance target cpos) },
      decide (getDistance target cpos = 0))

/-! ## The planner -/

structure Config (K : Type*) [Zero K] [LT K] where
  stepsPerMm : Axis → K
  maxRate : Axis → K
  stepsPerMm_pos : ∀ i, 0 < stepsPerMm i

/-- What a block has of the rate; the steps have their sign. -/
structure Block (K : Type*) where
  steps : Axis → ℤ
  millimeters : K
  programmedRate : K
  rateMultiplier : K

variable [FloorRing K] (cfg : Config K)

def Config.toSteps (target : Axis → K) (i : Axis) : ℤ := lround (target i * cfg.stepsPerMm i)

def Config.planGetPosition (position : Axis → ℤ) (i : Axis) : K := position i / cfg.stepsPerMm i

/-- `limit_max_rate_by_axis_maximum` -/
def Config.limitMaxRate (unitVec : Axis → K) : K :=
  Axis.all.reverse.foldl (fun limit i => if unitVec i ≠ 0 then min limit |cfg.maxRate i / unitVec i| else limit) (10 ^ 38)

def Config.vector (target : Axis → K) (position : Axis → ℤ) (i : Axis) : K :=
  ((cfg.toSteps target i - position i : ℤ) : K) / cfg.stepsPerMm i

/-- `plan_buffer_line`: the block and the new `pl.position`; none when there is no step. -/
def planBufferLine [Sqrt K] (target : Axis → K) (d : LineData K) (position : Axis → ℤ) : Option (Block K × (Axis → ℤ)) :=
  if ∀ i, cfg.toSteps target i = position i then none
  else
    let millimeters := magnitude (cfg.vector target position)
    let rapidRate := cfg.limitMaxRate fun i => cfg.vector target position i * (1 / millimeters)
    some ({
      steps := fun i => cfg.toSteps target i - position i
      millimeters := millimeters
      programmedRate :=
        if d.rapidMotion then rapidRate else if d.inverseTime then d.feedRate * millimeters else d.feedRate
      rateMultiplier := d.rateMultiplier }, cfg.toSteps target)

/-! ## mc_line -/

/-- What a call of `mc_line` meets: if the state is check mode, what `protocol_execute_realtime` returns first, and then, in
each turn of the loop that waits for room, together with `plan_check_full_buffer`. -/
structure Environment where
  checkMode : Bool
  realtime : Bool
  waits : List (Bool × Bool)

/-- The loop that waits for room in the planner buffer: if there is some in the end. -/
def waitForRoom : List (Bool × Bool) → Option (Bool × List (Bool × Bool))
  | [] => none
  | (realtime, full) :: waits => if !realtime then some (false, waits) else if full then waitForRoom waits else some (true, waits)

/-- What is different after a call: `pl.position`, the line data, the blocks queued, and if it has divided by zero. -/
structure Result (K : Type*) where
  position : Axis → ℤ
  data : LineData K
  blocks : List (Block K)
  divided : Bool

namespace Result
variable [Sqrt K] (r : Result K)

/-- The call of `plan_buffer_line`. -/
def plan (target : Axis → K) : Result K :=
  match planBufferLine cfg target r.data r.position with
  | none => r
  | some (block, position) => { r with position := position, blocks := r.blocks ++ [block] }

/-- `pl_data->feed_rate = feed_rate` -/
def restore (feedRate : K) : Result K := { r with data := { r.data with feedRate := feedRate } }

end Result

variable [Sqrt K]

/-- The loop over the lines that `kinematics.segment_line` returns. -/
def mcLines (feedRate : K) (trsf : Axis → K) : ℕ → List (Bool × Bool) → Result K → Option (Result K)
  | 0, _, r => some (r.restore feedRate)
  | n + 1, waits, r =>
      match waitForRoom waits with
      | none => none
      | some (false, _) => some r
      | some (true, waits) => mcLines feedRate trsf n waits ((r.plan cfg trsf).restore feedRate)

/-- `mc_line`; none when it goes on waiting. -/
def mcLine (env : Environment) (position : Axis → ℤ) (target : Axis → K) (d : LineData K) : Option (Result K) :=
  let (s, data, divided) := segmentLine target (cfg.planGetPosition position) { d with rateMultiplier := 1 }
  let r : Result K := ⟨position, data, [], divided⟩
  if !env.checkMode && env.realtime then mcLines cfg d.feedRate s.trsf s.iterations env.waits r else some r

/-! ## What is to hold -/

def Config.start (position : Axis → ℤ) : Axis → K := transformToCartesian (cfg.planGetPosition position)

/-- There is no division by zero, what has been queued takes the programmed time, and the feed rate is what it was. -/
structure OnTime (position : Axis → ℤ) (target : Axis → K) (d : LineData K) (r : Result K) : Prop where
  undivided : r.divided = false
  time : ∀ b ∈ r.blocks, b.millimeters / b.programmedRate =
    if d.inverseTime then 1 / d.feedRate else getDistance target (cfg.start position) / d.feedRate
  restored : r.data.feedRate = d.feedRate

/-- The call gets to `plan_buffer_line`. -/
def Environment.Plans (env : Environment) : Prop :=
  env.checkMode = false ∧ env.realtime = true ∧ (waitForRoom env.waits).map Prod.fst = some true

/-- Neither X nor Y moves. -/
def Straight (position : Axis → ℤ) (target : Axis → K) : Prop :=
  target .x = cfg.start position .x ∧ target .y = cfg.start position .y

/-- A line that is not of length zero, and is planned if X or Y moves; with a step, it does not move them in inverse-time
mode, and otherwise the distance in whole steps is that of the motors. -/
structure Regular (env : Environment) (position : Axis → ℤ) (target : Axis → K) (d : LineData K) : Prop where
  moves : target ≠ cfg.start position
  planned : env.Plans ∨ Straight cfg position target
  queued : env.Plans → (∃ i, cfg.toSteps (transformFromCartesian target) i ≠ position i) →
    if d.inverseTime then Straight cfg position target
    else magnitude (cfg.vector (transformFromCartesian target) position) =
      getDistance (transformFromCartesian target) (cfg.planGetPosition position)

/-! ## Distances -/

section
variable [IsStrictOrderedRing K] [LawfulSqrt K] {v : Axis → K}

theorem getDistance_nonneg (p q : Axis → K) : 0 ≤ getDistance p q := sqrtf_nonneg _

theorem sq_magnitude (v : Axis → K) : magnitude v ^ 2 = v .a * v .a + v .z * v .z + v .y * v .y + v .x * v .x :=
  sq_sqrtf _ (add_nonneg (add_nonneg (add_nonneg (mul_self_nonneg _) (mul_self_nonneg _)) (mul_self_nonneg _))
    (mul_self_nonneg _))

theorem magnitude_eq_zero_iff : magnitude v = 0 ↔ v = 0 := by
  rw [← pow_eq_zero_iff two_ne_zero, sq_magnitude]
  constructor
  · intro h
    have ha := mul_self_nonneg (v .a)
    have hz := mul_self_nonneg (v .z)
    have hy := mul_self_nonneg (v .y)
    have hx := mul_self_nonneg (v .x)
    funext i
    cases i <;> exact mul_self_eq_zero.1 (by linarith)
  · rintro rfl
    simp

theorem getDistance_eq_zero_iff {p q : Axis → K} : getDistance p q = 0 ↔ p = q := by
  rw [getDistance, magnitude_eq_zero_iff]
  constructor
  · intro h
    funext i
    exact sub_eq_zero.1 (congrFun h i)
  · rintro rfl
    funext i
    exact sub_self _

theorem sq_getDistance (target position : Axis → K) :
    getDistance (transformFromCartesian target) position ^ 2 =
      getDistance target (transformToCartesian position) ^ 2 +
        ((target .x - transformToCartesian position .x) ^ 2 + (target .y - transformToCartesian position .y) ^ 2) := by
  rw [getDistance, getDistance, sq_magnitude, sq_magnitude]
  show (target .a - position .a) * (target .a - position .a) + (target .z - position .z) * (target .z - position .z) +
      (target .x - target .y - position .y) * (target .x - target .y - position .y) +
        (target .x + target .y - position .x) * (target .x + target .y - position .x) =
    (target .a - position .a) * (target .a - position .a) + (target .z - position .z) * (target .z - position .z) +
      (target .y - (position .x - position .y) * (1 / 2)) * (target .y - (position .x - position .y) * (1 / 2)) +
        (target .x - (position .x + position .y) * (1 / 2)) * (target .x - (position .x + position .y) * (1 / 2)) +
      ((target .x - (position .x + position .y) * (1 / 2)) ^ 2 + (target .y - (position .x - position .y) * (1 / 2)) ^ 2)
  ring

theorem getDistance_eq_iff (target position : Axis → K) :
    getDistance (transformFromCartesian target) position = getDistance target (transformToCartesian position) ↔
      target .x = transformToCartesian position .x ∧ target .y = transformToCartesian position .y := by
  have hsq := sq_getDistance target position
  rw [← pow_left_inj₀ (getDistance_nonneg _ _) (getDistance_nonneg _ _) two_ne_zero, hsq, add_eq_left]
  constructor
  · intro h
    have hx := sq_nonneg (target .x - transformToCartesian position .x)
    have hy := sq_nonneg (target .y - transformToCartesian position .y)
    exact ⟨sub_eq_zero.1 (pow_eq_zero_iff two_ne_zero |>.1 (by linarith)),
      sub_eq_zero.1 (pow_eq_zero_iff two_ne_zero |>.1 (by linarith))⟩
  · rintro ⟨hx, hy⟩
    rw [hx, hy]
    ring

end

/-! ## The call -/

section
variable {cfg} {env : Environment} {position : Axis → ℤ} {target : Axis → K} {d : LineData K} {r : Result K}

def motorFeed (cfg : Config K) (position : Axis → ℤ) (target : Axis → K) (feedRate : K) : K :=
  feedRate * (getDistance (transformFromCartesian target) (cfg.planGetPosition position) / getDistance target (cfg.start position))

def motorData (cfg : Config K) (position : Axis → ℤ) (target : Axis → K) (d : LineData K) : LineData K :=
  { d with rateMultiplier := 1, feedRate := motorFeed cfg position target d.feedRate }

theorem mcLine_eq (hfeed : d.rapidMotion = false) :
    mcLine cfg env position target d =
      (let r : Result K := ⟨position, motorData cfg position target d, [], decide (getDistance target (cfg.start position) = 0)⟩
      if !env.checkMode && env.realtime then mcLines cfg d.feedRate (transformFromCartesian target) 1 env.waits r else some r) := by
  have hsegment : segmentLine target (cfg.planGetPosition position) { d with rateMultiplier := 1 } =
      (⟨1, transformFromCartesian target⟩, motorData cfg position target d,
        decide (getDistance target (cfg.start position) = 0)) := by
    refine if_neg ?_
    show ¬ d.rapidMotion = true
    rw [hfeed]
    exact Bool.false_ne_true
  rw [mcLine, hsegment]

variable (cfg position target d) in
/-- A call that plans: at most one block, and the feed rate is restored. -/
theorem mcLine_of_plans (hfeed : d.rapidMotion = false) (h : env.Plans) :
    ∃ r, mcLine cfg env position target d = some r ∧
      r.divided = decide (getDistance target (cfg.start position) = 0) ∧ r.data.feedRate = d.feedRate ∧
        r.blocks = ((planBufferLine cfg (transformFromCartesian target) (motorData cfg position target d) position).map
          Prod.fst).toList := by
  obtain ⟨hcheck, hrealtime, hwaits⟩ := h
  rw [mcLine_eq hfeed, hcheck, hrealtime]
  obtain ⟨⟨ok, waits⟩, hwait, hok⟩ := Option.map_eq_some_iff.1 hwaits
  cases hok
  have hready : (!false && true) = true := rfl
  dsimp only
  rw [if_pos hready, mcLines, hwait]
  refine ⟨_, rfl, ?_, rfl, ?_⟩
  · rw [Result.plan]
    split <;> rfl
  · rw [Result.plan]
    split
    · rename_i hnone
      rw [hnone]
      rfl
    · rename_i b p hsome
      rw [hsome]
      rfl

/-- A call that does not: nothing is queued, and the feed rate stays that for the motors. -/
theorem mcLine_of_not_plans (hfeed : d.rapidMotion = false) (h : ¬ env.Plans) (hrun : mcLine cfg env position target d = some r) :
    r.divided = decide (getDistance target (cfg.start position) = 0) ∧
      r.data.feedRate = motorFeed cfg position target d.feedRate ∧ r.blocks = [] := by
  rw [mcLine_eq hfeed] at hrun
  dsimp only at hrun
  split at hrun
  · rename_i hready
    obtain ⟨hcheck, hrealtime⟩ := Bool.and_eq_true_iff.1 hready
    rw [mcLines] at hrun
    split at hrun
    · cases hrun
    · cases hrun
      exact ⟨rfl, rfl, rfl⟩
    · rename_i waits hwait
      exact absurd ⟨(Bool.not_eq_true' _).mp hcheck, hrealtime, by rw [hwait]; rfl⟩ h
  · cases hrun
    exact ⟨rfl, rfl, rfl⟩

end

/-! ## When a line takes the programmed time -/

section
variable [IsStrictOrderedRing K] [LawfulSqrt K] {cfg} {env : Environment} {position p : Axis → ℤ} {target : Axis → K}
  {d : LineData K} {r : Result K} {b : Block K}

theorem getDistance_motors_ne_zero (hmoves : target ≠ cfg.start position) :
    getDistance (transformFromCartesian target) (cfg.planGetPosition position) ≠ 0 := by
  have hcart : getDistance target (cfg.start position) ≠ 0 := fun h => hmoves (getDistance_eq_zero_iff.1 h)
  have hsq := sq_getDistance target (cfg.planGetPosition position)
  have hpos := pow_pos (lt_of_le_of_ne (getDistance_nonneg _ _) hcart.symm) 2
  rw [Config.start] at hpos
  have hx := sq_nonneg (target .x - transformToCartesian (cfg.planGetPosition position) .x)
  have hy := sq_nonneg (target .y - transformToCartesian (cfg.planGetPosition position) .y)
  intro hzero
  rw [hzero] at hsq
  linarith

theorem motorFeed_eq_iff (hF : 0 < d.feedRate) (hmoves : target ≠ cfg.start position) :
    motorFeed cfg position target d.feedRate = d.feedRate ↔ Straight cfg position target := by
  have hcart : getDistance target (cfg.start position) ≠ 0 := fun h => hmoves (getDistance_eq_zero_iff.1 h)
  rw [motorFeed, mul_eq_left₀ hF.ne', div_eq_one_iff_eq hcart]
  exact getDistance_eq_iff target (cfg.planGetPosition position)

theorem magnitude_vector_ne_zero (hqueued : ∃ i, cfg.toSteps target i ≠ position i) :
    magnitude (cfg.vector target position) ≠ 0 := by
  obtain ⟨i, hi⟩ := hqueued
  rw [Ne, magnitude_eq_zero_iff]
  intro hzero
  have hvector : ((cfg.toSteps target i - position i : ℤ) : K) / cfg.stepsPerMm i = 0 := congrFun hzero i
  rw [div_eq_zero_iff, or_iff_left (cfg.stepsPerMm_pos i).ne', Int.cast_eq_zero] at hvector
  exact hi (sub_eq_zero.1 hvector)

theorem planBufferLine_eq_some (h : planBufferLine cfg target d position = some (b, p)) (hfeed : d.rapidMotion = false) :
    (∃ i, cfg.toSteps target i ≠ position i) ∧ b.millimeters = magnitude (cfg.vector target position) ∧
      b.programmedRate = if d.inverseTime then d.feedRate * b.millimeters else d.feedRate := by
  rw [planBufferLine] at h
  split at h
  · cases h
  · rename_i hsteps
    cases h
    refine ⟨not_forall.1 hsteps, rfl, if_neg ?_⟩
    rw [hfeed]
    exact Bool.false_ne_true

theorem time_iff (hF : 0 < d.feedRate) (hfeed : d.rapidMotion = false) (hmoves : target ≠ cfg.start position)
    (hb : planBufferLine cfg (transformFromCartesian target) (motorData cfg position target d) position = some (b, p)) :
    b.millimeters / b.programmedRate = (if d.inverseTime then 1 / d.feedRate else getDistance target (cfg.start position) / d.feedRate) ↔
      if d.inverseTime then Straight cfg position target
      else magnitude (cfg.vector (transformFromCartesian target) position) =
        getDistance (transformFromCartesian target) (cfg.planGetPosition position) := by
  obtain ⟨hqueued, hlength, hrate⟩ := planBufferLine_eq_some hb hfeed
  have hmm := magnitude_vector_ne_zero hqueued
  have hcart : getDistance target (cfg.start position) ≠ 0 := fun h => hmoves (getDistance_eq_zero_iff.1 h)
  have hmotors := getDistance_motors_ne_zero hmoves
  have hratio := div_ne_zero hmotors hcart
  have hfeedRate : (motorData cfg position target d).feedRate = motorFeed cfg position target d.feedRate := rfl
  have hne : motorFeed cfg position target d.feedRate ≠ 0 := mul_ne_zero hF.ne' hratio
  rw [hrate, hfeedRate, hlength, show (motorData cfg position target d).inverseTime = d.inverseTime from rfl]
  cases d.inverseTime with
  | true =>
      rw [if_pos rfl, if_pos rfl, if_pos rfl, ← motorFeed_eq_iff hF hmoves, div_mul_cancel_right₀ hmm, inv_eq_one_div,
        div_eq_div_iff hne hF.ne', one_mul, one_mul, eq_comm]
  | false =>
      rw [if_neg Bool.false_ne_true, if_neg Bool.false_ne_true, if_neg Bool.false_ne_true, div_eq_div_iff hne hF.ne', motorFeed]
      have hcancel : getDistance target (cfg.start position) *
          (d.feedRate * (getDistance (transformFromCartesian target) (cfg.planGetPosition position) / getDistance target (cfg.start position))) =
          getDistance (transformFromCartesian target) (cfg.planGetPosition position) * d.feedRate := by
        field_simp
      rw [hcancel, mul_left_inj' hF.ne']

/-- A line is on time exactly if it is regular. -/
theorem onTime_iff (hF : 0 < d.feedRate) (hfeed : d.rapidMotion = false) (hrun : mcLine cfg env position target d = some r) :
    OnTime cfg position target d r ↔ Regular cfg env position target d := by
  by_cases hmoves : target = cfg.start position
  · refine iff_of_false (fun h => ?_) (fun h => h.moves hmoves)
    have hzero := getDistance_eq_zero_iff.2 hmoves
    have hdivided : r.divided = decide (getDistance target (cfg.start position) = 0) := by
      by_cases hplans : env.Plans
      · obtain ⟨r', hrun', hdivided, -⟩ := mcLine_of_plans cfg position target d hfeed hplans
        cases hrun'.symm.trans hrun
        exact hdivided
      · exact (mcLine_of_not_plans hfeed hplans hrun).1
    rw [decide_eq_true hzero] at hdivided
    cases hdivided.symm.trans h.undivided
  have hcart : getDistance target (cfg.start position) ≠ 0 := fun h => hmoves (getDistance_eq_zero_iff.1 h)
  by_cases hplans : env.Plans
  · obtain ⟨r', hrun', hdivided, hrestored, hblocks⟩ :=
      mcLine_of_plans cfg position target d hfeed hplans
    cases hrun'.symm.trans hrun
    rw [decide_eq_false hcart] at hdivided
    constructor
    · intro h
      refine ⟨hmoves, .inl hplans, fun _ hqueued => ?_⟩
      cases hline : planBufferLine cfg (transformFromCartesian target) (motorData cfg position target d) position with
      | none =>
          rw [planBufferLine] at hline
          split at hline
          · rename_i hsteps
            exact absurd hqueued (not_exists.2 fun i => not_not.2 (hsteps i))
          · cases hline
      | some bp =>
          refine (time_iff hF hfeed hmoves hline).1 (h.time bp.1 ?_)
          rw [hblocks, hline]
          exact List.mem_singleton_self _
    · intro h
      refine ⟨hdivided, fun b hb => ?_, hrestored⟩
      rw [hblocks, Option.mem_toList] at hb
      obtain ⟨⟨b', p⟩, hline, rfl⟩ := Option.map_eq_some_iff.1 hb
      exact (time_iff hF hfeed hmoves hline).2 (h.queued hplans (planBufferLine_eq_some hline hfeed).1)
  · obtain ⟨hdivided, hfeedRate, hblocks⟩ := mcLine_of_not_plans hfeed hplans hrun
    rw [decide_eq_false hcart] at hdivided
    constructor
    · intro h
      refine ⟨hmoves, .inr ((motorFeed_eq_iff hF hmoves).1 (hfeedRate.symm.trans h.restored)), fun h => absurd h hplans⟩
    · intro h
      refine ⟨hdivided, fun b hb => ?_, hfeedRate.trans ((motorFeed_eq_iff hF hmoves).2 (h.planned.resolve_left hplans))⟩
      rw [hblocks] at hb
      cases hb

end

end

/-! ## Lines from zero -/

namespace Example

/-- One step for a millimeter. -/
def cfg : Config ℝ := ⟨fun _ => 1, fun _ => 1000, fun _ => one_pos⟩

/-- There is room in the planner; check mode. -/
def ready : Environment := ⟨false, true, [(true, false)]⟩
def checked : Environment := ⟨true, true, []⟩

def perMinute : LineData ℝ := { feedRate := 100, rateMultiplier := 1 }
def inverse : LineData ℝ := { feedRate := 100, inverseTime := true, rateMultiplier := 1 }

def zero : Axis → ℤ := fun _ => 0

theorem ready_plans : ready.Plans := ⟨rfl, rfl, rfl⟩

theorem start_zero : cfg.start zero = fun _ => 0 := by
  funext i
  cases i <;> simp [Config.start, transformToCartesian, Config.planGetPosition, zero]

end Example

open Example

/-- Z5 in inverse-time mode. -/
theorem onTime_iff_z : ∃ r, mcLine cfg ready zero (update (fun _ => 0) .z 5) inverse = some r ∧
    OnTime cfg zero (update (fun _ => 0) .z 5) inverse r := by
  obtain ⟨r, hrun, -⟩ := mcLine_of_plans cfg zero (update (fun _ => 0) .z 5) inverse rfl ready_plans
  have hpos : (0 : ℝ) < 100 := by norm_num
  refine ⟨r, hrun, (onTime_iff hpos rfl hrun).2 ⟨?_, .inl ready_plans, fun _ _ => ?_⟩⟩
  · rw [start_zero]
    intro h
    have hz := congrFun h .z
    rw [update_self] at hz
    norm_num at hz
  · show Straight cfg zero _
    rw [Straight, start_zero]
    exact ⟨rfl, rfl⟩

/-- X3 in inverse-time mode, X3 in check mode, and a line to where the machine is. -/
theorem lines_not_on_time :
    (∃ r, mcLine cfg ready zero (update (fun _ => 0) .x 3) inverse = some r ∧
      ¬ OnTime cfg zero (update (fun _ => 0) .x 3) inverse r) ∧
    (∃ r, mcLine cfg checked zero (update (fun _ => 0) .x 3) perMinute = some r ∧
      ¬ OnTime cfg zero (update (fun _ => 0) .x 3) perMinute r) ∧
    ∃ r, mcLine cfg ready zero (fun _ => 0) perMinute = some r ∧ ¬ OnTime cfg zero (fun _ => 0) perMinute r := by
  have hpos : (0 : ℝ) < 100 := by norm_num
  have hx : ¬ Straight cfg zero (update (fun _ => 0) .x 3) := by
    rw [Straight, start_zero]
    rintro ⟨hx, -⟩
    rw [update_self] at hx
    norm_num at hx
  have hmoves : (update (fun _ => 0) .x 3 : Axis → ℝ) ≠ cfg.start zero := fun h => hx (by rw [h]; exact ⟨rfl, rfl⟩)
  refine ⟨?_, ?_, ?_⟩
  · obtain ⟨r, hrun, -, -, hblocks⟩ :=
      mcLine_of_plans cfg zero (update (fun _ => 0) .x 3) inverse rfl ready_plans
    refine ⟨r, hrun, fun h => ?_⟩
    cases hline : planBufferLine cfg (transformFromCartesian (update (fun _ => 0) .x 3)) (motorData cfg zero (update (fun _ => 0) .x 3) inverse) zero with
    | none =>
        have hsteps : cfg.toSteps (transformFromCartesian (update (fun _ => 0) .x 3)) .x = 3 := by
          have hthree : transformFromCartesian (update (fun _ => 0) .x 3) .x * cfg.stepsPerMm .x = (3 : ℝ) := by
            simp [transformFromCartesian, cfg]
          rw [Config.toSteps, hthree, lround, if_pos (by norm_num), Int.floor_eq_iff]
          norm_num
        rw [planBufferLine] at hline
        split at hline
        · rename_i hnone
          exact absurd (hsteps.symm.trans (hnone .x)) (by decide)
        · cases hline
    | some bp =>
        refine hx ((time_iff hpos rfl hmoves hline).1 (h.time bp.1 ?_))
        rw [hblocks, hline]
        exact List.mem_singleton_self _
  · refine ⟨_, mcLine_eq rfl, fun h => hx ((motorFeed_eq_iff hpos hmoves).1 h.restored)⟩
  · obtain ⟨r, hrun, hdivided, -⟩ :=
      mcLine_of_plans cfg zero (fun _ => 0) perMinute rfl ready_plans
    refine ⟨r, hrun, fun h => ?_⟩
    rw [decide_eq_true (getDistance_eq_zero_iff.2 start_zero.symm)] at hdivided
    cases hdivided.symm.trans h.undivided

end Grbl.Kinematics.CoreXY
