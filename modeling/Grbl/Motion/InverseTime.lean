import Mathlib
import Grbl.Motion.Backlash
import Grbl.Plane

/-!
# Arcs in inverse time mode

`mc_arc` with the planner below it, without kinematics and backlash compensation, where nothing aborts. Floats are exact.

* `PlanLineData`, `FeedBlock`, `Planner` : the feed of a motion, the blocks queued for it; `planBufferLine`;
* `ArcWords` : the arguments of `mc_arc`; `angularTravel`, `segments`, `advance`, `loop` : its steps; `mcArc`;
* `Turn`, `turnList` : the lines of an arc; `share` : the part of the programmed time that they take;
* `ArcWords.Uncut` : the arc is too small for segments; `uncut_iff`;
* `minutes_mcArc` : the time of the blocks; `programmed_time` : when it is the programmed time; `half_circle_takes_twice`.
-/

namespace Grbl.Motion.InverseTime
open Real
open scoped Grbl.Lib.Literal

/-- The settings. -/
structure ArcConfig extends Config ℝ where
  maxRate : Axis → ℝ
  arcTolerance : ℝ

/-- `plan_line_data_t`, the feed. -/
structure PlanLineData where
  feedRate : ℝ
  rapidMotion : Bool := false
  inverseTime : Bool := false

structure FeedBlock where
  millimeters : ℝ
  programmedRate : ℝ

/-- `pl.position`, and the blocks queued so far. -/
structure Planner where
  position : Axis → ℤ
  queued : List FeedBlock := []

def someLargeValue : ℝ := 10 ^ 38

noncomputable def arcAngularTravelEpsilon : ℝ := 5e-7

def nArcCorrection : ℕ := 12

/-- `convert_delta_vector_to_unit_vector`, the value it returns. -/
noncomputable def magnitude (v : Axis → ℝ) : ℝ := √(∑ i, v i ^ 2)

noncomputable def atan2 (y x : ℝ) : ℝ := Complex.arg ⟨x, y⟩

section
variable (cfg : ArcConfig)

noncomputable def moveOf (position : Axis → ℤ) (target : Axis → ℝ) (i : Axis) : ℝ :=
  ((cfg.toSteps target i - position i : ℤ) : ℝ) / cfg.stepsPerMm i

/-- `limit_max_rate_by_axis_maximum` -/
noncomputable def limitMaxRate (unitVec : Axis → ℝ) : ℝ :=
  Axis.all.reverse.foldl (fun limit i => if unitVec i ≠ 0 then min limit |cfg.maxRate i / unitVec i| else limit) someLargeValue

noncomputable def Planner.planBufferLine (target : Axis → ℝ) (plData : PlanLineData) (p : Planner) : Planner :=
  if ∀ i, cfg.toSteps target i = p.position i then p
  else
    let millimeters := magnitude (moveOf cfg p.position target)
    let rapidRate := limitMaxRate cfg fun i => moveOf cfg p.position target i / millimeters
    let programmedRate :=
      if plData.rapidMotion then rapidRate
      else if plData.inverseTime then plData.feedRate * millimeters
      else plData.feedRate
    { position := cfg.toSteps target
      queued := p.queued ++ [⟨millimeters, programmedRate⟩] }

/-! ## `mc_arc` -/

/-- The arguments of `mc_arc` that are not changed. -/
structure ArcWords where
  target : Axis → ℝ
  offset : Axis → ℝ
  radius : ℝ
  plane : Plane
  turns : ℤ

/-- What `mc_arc` changes: `position`, `pl_data` and the planner. -/
structure ArcState where
  position : Axis → ℝ
  plData : PlanLineData
  planner : Planner

structure SegmentLoop where
  rvX : ℝ
  rvY : ℝ
  count : ℕ := 0
  position : Axis → ℝ

noncomputable def ArcState.mcLine (target : Axis → ℝ) (s : ArcState) : ArcState :=
  { s with planner := s.planner.planBufferLine cfg target s.plData }

/-- The feed for so many segments. -/
def PlanLineData.forSegments (segments : ℕ) (plData : PlanLineData) : PlanLineData :=
  if segments ≠ 0 ∧ plData.inverseTime then { plData with
    feedRate := plData.feedRate * segments
    inverseTime := false }
  else plData

namespace ArcWords
variable (w : ArcWords) (start : Axis → ℝ)

/-- `rv` at the start. -/
def rv (i : Axis) : ℝ := -w.offset i

def center (i : Axis) : ℝ := start i - w.rv i

noncomputable def angularTravel : ℝ :=
  let rt i := w.target i - w.center start i
  let angularTravel := atan2 (w.rv w.plane.axis0 * rt w.plane.axis1 - w.rv w.plane.axis1 * rt w.plane.axis0)
    (w.rv w.plane.axis0 * rt w.plane.axis0 + w.rv w.plane.axis1 * rt w.plane.axis1)
  if w.turns > 0 then
    if angularTravel ≤ arcAngularTravelEpsilon then angularTravel + 2 * π else angularTravel
  else if angularTravel ≥ -arcAngularTravelEpsilon then angularTravel - 2 * π
  else angularTravel

/-- The number of segments, 0 if the arc is a single line. -/
noncomputable def segments : ℕ :=
  if 2 * w.radius > cfg.arcTolerance then
    ⌊|1 / 2 * w.angularTravel start * w.radius| / √(cfg.arcTolerance * (2 * w.radius - cfg.arcTolerance))⌋₊
  else 0

/-- One turn of the loop over the segments, up to `mc_line`. The call started at `start`, and is at `position` after its full turns. -/
noncomputable def advance (position : Axis → ℝ) (i : ℕ) (l : SegmentLoop) : SegmentLoop :=
  let segments := w.segments cfg start
  let thetaPerSegment := w.angularTravel start / segments
  let linearPerSegment j := (w.target j - position j) / segments
  let cosT := 2 - thetaPerSegment * thetaPerSegment
  let sinT := thetaPerSegment * 0.16666667 * (cosT + 4)
  let cosT := cosT * 0.5
  let l :=
    if l.count < nArcCorrection then
      { l with
        rvX := l.rvX * cosT - l.rvY * sinT
        rvY := l.rvX * sinT + l.rvY * cosT
        count := l.count + 1 }
    else
      let cosTi := cos (i * thetaPerSegment)
      let sinTi := sin (i * thetaPerSegment)
      { l with
        rvX := -w.offset w.plane.axis0 * cosTi + w.offset w.plane.axis1 * sinTi
        rvY := -w.offset w.plane.axis0 * sinTi - w.offset w.plane.axis1 * cosTi
        count := 0 }
  { l with
    position := fun j =>
      if j = w.plane.axis0 then w.center start j + l.rvX
      else if j = w.plane.axis1 then w.center start j + l.rvY
      else l.position j + linearPerSegment j }

/-- So many segments more, from the `i`-th on. -/
noncomputable def loop (position : Axis → ℝ) : ℕ → ℕ → SegmentLoop → ArcState → ArcState
  | 0, _, _, s => s
  | n + 1, i, l, s =>
      let l := w.advance cfg start position i l
      loop position n (i + 1) l (ArcState.mcLine cfg l.position { s with position := l.position })

/-- `mc_arc` after the full turns. -/
noncomputable def arcSegments (s : ArcState) : ArcState :=
  let segments := w.segments cfg start
  let s := { s with plData := s.plData.forSegments segments }
  let s := w.loop cfg start s.position (segments - 1) 1
    { rvX := w.rv w.plane.axis0
      rvY := w.rv w.plane.axis1
      position := s.position } s
  s.mcLine cfg w.target

/-- `arc_target` before the full turns. -/
def arcTarget (j : Axis) : ℝ := if j = w.plane.axis0 ∨ j = w.plane.axis1 ∨ j = w.plane.axisLinear then start j else w.target j

/-- `arc_target` of one full turn more. -/
noncomputable def nextTurn (arcTarget : Axis → ℝ) (j : Axis) : ℝ :=
  let nTurns := w.turns.natAbs - 1
  let arcTravel := 2 * π * nTurns + if w.turns > 0 then w.angularTravel start else -w.angularTravel start
  let linearPerTurn := (w.target j - start j) / arcTravel * 2 * π
  if j = w.plane.axis0 ∨ j = w.plane.axis1 then arcTarget j else arcTarget j + linearPerTurn

def fullTurn (arcTarget : Axis → ℝ) : ArcWords :=
  { w with
    target := arcTarget
    turns := if w.turns > 0 then 1 else -1 }

/-- So many full turns more, each a call of `mc_arc` for one turn. -/
noncomputable def fullTurns : ℕ → (Axis → ℝ) → ArcState → ArcState
  | 0, _, s => s
  | n + 1, arcTarget, s =>
      let arcTarget := w.nextTurn start arcTarget
      fullTurns n arcTarget { (w.fullTurn arcTarget).arcSegments cfg s.position s with position := arcTarget }

noncomputable def mcArc (s : ArcState) : ArcState :=
  w.arcSegments cfg s.position (w.fullTurns cfg s.position (w.turns.natAbs - 1) (w.arcTarget s.position) s)

end ArcWords

/-! ## The lines of an arc -/

/-- The lengths of the lines that are not empty. -/
noncomputable def moves : (Axis → ℤ) → List (Axis → ℝ) → List ℝ
  | _, [] => []
  | position, target :: targets =>
      if ∀ i, cfg.toSteps target i = position i then moves position targets
      else magnitude (moveOf cfg position target) :: moves (cfg.toSteps target) targets

noncomputable def endOf : (Axis → ℤ) → List (Axis → ℝ) → Axis → ℤ
  | position, [] => position
  | _, target :: targets => endOf (cfg.toSteps target) targets

/-- A turn: the number of segments, 0 for a single line, and where its lines go to. -/
structure Turn where
  segments : ℕ
  points : List (Axis → ℝ)

/-- The part of the programmed time that the lines of an arc take: a turn that is a single line takes all of it,
from the first turn in segments on each mm of all that follows takes one part in their number. -/
noncomputable def share : (Axis → ℤ) → List Turn → ℝ
  | _, [] => 0
  | position, t :: ts =>
      if t.segments = 0 then (moves cfg position t.points).length + share (endOf cfg position t.points) ts
      else (moves cfg position (t.points ++ ts.flatMap Turn.points)).sum / t.segments

namespace ArcWords
variable (w : ArcWords) (start : Axis → ℝ)

/-- Where the segments end, from the `i`-th on. -/
noncomputable def points (position : Axis → ℝ) : ℕ → ℕ → SegmentLoop → List (Axis → ℝ)
  | 0, _, _ => [w.target]
  | n + 1, i, l => (w.advance cfg start position i l).position :: points position n (i + 1) (w.advance cfg start position i l)

noncomputable def turn (position : Axis → ℝ) : Turn where
  segments := w.segments cfg start
  points := w.points cfg start position (w.segments cfg start - 1) 1
    { rvX := w.rv w.plane.axis0
      rvY := w.rv w.plane.axis1
      position := position }

/-- So many full turns, and the last one. -/
noncomputable def turnsFrom : ℕ → (Axis → ℝ) → (Axis → ℝ) → List Turn
  | 0, _, position => [w.turn cfg start position]
  | n + 1, arcTarget, position =>
      (w.fullTurn (w.nextTurn start arcTarget)).turn cfg position position ::
        turnsFrom n (w.nextTurn start arcTarget) (w.nextTurn start arcTarget)

noncomputable def turnList : List Turn := w.turnsFrom cfg start (w.turns.natAbs - 1) (w.arcTarget start) start

/-- An arc over this angle is no longer than a chord that is as far from it as the tolerance allows, or has no such chord. -/
def Short (travel : ℝ) : Prop :=
  2 * w.radius ≤ cfg.arcTolerance ∨
    |1 / 2 * travel * w.radius| / √(cfg.arcTolerance * (2 * w.radius - cfg.arcTolerance)) < 1

/-- None of the turns is long enough to be cut into segments. -/
def Uncut : Prop := (1 < w.turns.natAbs → w.Short cfg (2 * π)) ∧ w.Short cfg (w.angularTravel start)

noncomputable def ends : List (Axis → ℝ) := (w.turnList cfg start).flatMap Turn.points

end ArcWords

noncomputable def minutes (blocks : List FeedBlock) : ℝ := (blocks.map fun b => b.millimeters / b.programmedRate).sum

/-! ## The blocks of lines -/

noncomputable def Planner.lines (plData : PlanLineData) (targets : List (Axis → ℝ)) (p : Planner) : Planner :=
  targets.foldl (fun p target => p.planBufferLine cfg target plData) p

end

theorem minutes_append (a b : List FeedBlock) : minutes (a ++ b) = minutes a + minutes b := by
  rw [minutes, minutes, minutes, List.map_append, List.sum_append]

section
variable {cfg : ArcConfig} {plData : PlanLineData}

theorem magnitude_pos {position : Axis → ℤ} {target : Axis → ℝ} (hmoves : ¬ ∀ i, cfg.toSteps target i = position i) :
    0 < magnitude (moveOf cfg position target) := by
  obtain ⟨i, hi⟩ := not_forall.1 hmoves
  have hne : moveOf cfg position target i ≠ 0 :=
    div_ne_zero (Int.cast_ne_zero.2 (sub_ne_zero.2 hi)) (cfg.stepsPerMm_pos i).ne'
  exact Real.sqrt_pos.2 (Finset.sum_pos' (fun j _ => sq_nonneg _) ⟨i, Finset.mem_univ i, by positivity⟩)

variable (plData) in
theorem position_planBufferLine (target : Axis → ℝ) (p : Planner) : (p.planBufferLine cfg target plData).position = cfg.toSteps target := by
  rw [Planner.planBufferLine]
  split
  · rename_i hsame
    exact (funext hsame).symm
  · rfl

theorem position_lines : ∀ (targets : List (Axis → ℝ)) (p : Planner), (p.lines cfg plData targets).position = endOf cfg p.position targets
  | [], _ => rfl
  | target :: targets, p => by
      rw [Planner.lines, List.foldl_cons, endOf, ← position_planBufferLine plData target p]
      exact position_lines targets _

variable (cfg) in
theorem endOf_append : ∀ (as bs : List (Axis → ℝ)) (position : Axis → ℤ),
    endOf cfg position (as ++ bs) = endOf cfg (endOf cfg position as) bs
  | [], _, _ => rfl
  | _ :: as, bs, _ => endOf_append as bs _

variable (cfg) in
theorem moves_append : ∀ (as bs : List (Axis → ℝ)) (position : Axis → ℤ),
    moves cfg position (as ++ bs) = moves cfg position as ++ moves cfg (endOf cfg position as) bs
  | [], _, _ => rfl
  | a :: as, bs, position => by
      rw [List.cons_append, moves, moves, endOf]
      split
      · rename_i hsame
        rw [moves_append as bs position, funext hsame]
      · rw [moves_append as bs, List.cons_append]

/-- The time of one line: all of the programmed one in inverse time mode. -/
theorem minutes_planBufferLine (hrapid : plData.rapidMotion = false) (target : Axis → ℝ) (p : Planner) :
    minutes (p.planBufferLine cfg target plData).queued = minutes p.queued +
      (if plData.inverseTime then ((moves cfg p.position [target]).length : ℝ) else (moves cfg p.position [target]).sum) / plData.feedRate := by
  rw [Planner.planBufferLine, moves, moves]
  by_cases hsame : ∀ i, cfg.toSteps target i = p.position i
  · simp [hsame]
  · have hlen := (magnitude_pos hsame).ne'
    rw [if_neg hsame, if_neg hsame, minutes_append, hrapid]
    cases plData.inverseTime with
    | true =>
        rw [if_neg Bool.false_ne_true, if_pos rfl, if_pos rfl]
        simp only [minutes, moves, List.map_cons, List.map_nil, List.sum_singleton, List.length_singleton, Nat.cast_one]
        rw [div_mul_cancel_right₀ hlen, one_div]
    | false =>
        rw [if_neg Bool.false_ne_true, if_neg Bool.false_ne_true, if_neg Bool.false_ne_true]
        simp only [minutes, moves, List.map_cons, List.map_nil, List.sum_singleton]

theorem minutes_lines (hrapid : plData.rapidMotion = false) : ∀ (targets : List (Axis → ℝ)) (p : Planner),
    minutes (p.lines cfg plData targets).queued = minutes p.queued +
      (if plData.inverseTime then ((moves cfg p.position targets).length : ℝ) else (moves cfg p.position targets).sum) / plData.feedRate
  | [], p => by simp [Planner.lines, moves]
  | target :: targets, p => by
      have hcons := moves_append cfg [target] targets p.position
      rw [List.singleton_append, endOf, endOf] at hcons
      rw [Planner.lines, List.foldl_cons, ← Planner.lines, minutes_lines hrapid targets, minutes_planBufferLine hrapid,
        position_planBufferLine, hcons, List.length_append, List.sum_append, add_assoc, ← add_div]
      split
      · rw [Nat.cast_add]
      · rfl

/-! ## The blocks of an arc -/

section
variable (cfg) (w : ArcWords) (start : Axis → ℝ)

theorem loop_lines (position : Axis → ℝ) : ∀ (n i : ℕ) (l : SegmentLoop) (s : ArcState),
    (ArcState.mcLine cfg w.target (w.loop cfg start position n i l s)).plData = s.plData ∧
      (ArcState.mcLine cfg w.target (w.loop cfg start position n i l s)).planner =
        s.planner.lines cfg s.plData (w.points cfg start position n i l)
  | 0, _, _, _ => ⟨rfl, rfl⟩
  | n + 1, i, l, s => loop_lines position n (i + 1) (w.advance cfg start position i l)
      (ArcState.mcLine cfg (w.advance cfg start position i l).position { s with position := (w.advance cfg start position i l).position })

theorem arcSegments_lines (s : ArcState) :
    (w.arcSegments cfg start s).plData = s.plData.forSegments (w.turn cfg start s.position).segments ∧
      (w.arcSegments cfg start s).planner =
        s.planner.lines cfg (s.plData.forSegments (w.turn cfg start s.position).segments) (w.turn cfg start s.position).points :=
  loop_lines cfg w start s.position _ _ _ { s with plData := s.plData.forSegments (w.segments cfg start) }

end

theorem forSegments_of_absolute {n : ℕ} (hinv : plData.inverseTime = false) : plData.forSegments n = plData := by
  rw [PlanLineData.forSegments, hinv, if_neg fun h => Bool.false_ne_true h.2]

theorem forSegments_of_zero {n : ℕ} (hn : n = 0) : plData.forSegments n = plData :=
  if_neg fun h => h.1 hn

theorem forSegments_of_inverse {n : ℕ} (hinv : plData.inverseTime = true) (hn : n ≠ 0) :
    plData.forSegments n = { plData with feedRate := plData.feedRate * n, inverseTime := false } :=
  if_pos ⟨hn, hinv⟩

theorem rapid_forSegments {n : ℕ} (hrapid : plData.rapidMotion = false) : (plData.forSegments n).rapidMotion = false := by
  rw [PlanLineData.forSegments]
  split
  · exact hrapid
  · exact hrapid

noncomputable def allTurns (cfg : ArcConfig) (w : ArcWords) (start : Axis → ℝ) (n : ℕ) (arcTarget : Axis → ℝ) (s : ArcState) : ArcState :=
  w.arcSegments cfg start (w.fullTurns cfg start n arcTarget s)

section
variable (cfg) (w : ArcWords) (start : Axis → ℝ)

theorem minutes_of_absolute : ∀ (n : ℕ) (arcTarget : Axis → ℝ) (s : ArcState), s.plData.rapidMotion = false → s.plData.inverseTime = false →
    minutes (allTurns cfg w start n arcTarget s).planner.queued = minutes s.planner.queued +
      (moves cfg s.planner.position ((w.turnsFrom cfg start n arcTarget s.position).flatMap Turn.points)).sum / s.plData.feedRate
  | 0, arcTarget, s, hrapid, hinv => by
      rw [allTurns, ArcWords.fullTurns, (arcSegments_lines cfg w start s).2, forSegments_of_absolute hinv, minutes_lines hrapid, hinv,
        if_neg Bool.false_ne_true, ArcWords.turnsFrom, List.flatMap_singleton]
  | n + 1, arcTarget, s, hrapid, hinv => by
      obtain ⟨hdata, hplanner⟩ := arcSegments_lines cfg (w.fullTurn (w.nextTurn start arcTarget)) s.position s
      rw [forSegments_of_absolute hinv] at hdata hplanner
      have hrest := minutes_of_absolute n (w.nextTurn start arcTarget)
        { (w.fullTurn (w.nextTurn start arcTarget)).arcSegments cfg s.position s with position := w.nextTurn start arcTarget }
        (by rw [hdata, hrapid]) (by rw [hdata, hinv])
      rw [hdata, hplanner, minutes_lines hrapid, hinv, if_neg Bool.false_ne_true, position_lines] at hrest
      rw [ArcWords.turnsFrom, List.flatMap_cons, moves_append, List.sum_append, add_div, ← add_assoc]
      exact hrest

theorem minutes_of_inverse : ∀ (n : ℕ) (arcTarget : Axis → ℝ) (s : ArcState), s.plData.rapidMotion = false → s.plData.inverseTime = true →
    minutes (allTurns cfg w start n arcTarget s).planner.queued = minutes s.planner.queued +
      share cfg s.planner.position (w.turnsFrom cfg start n arcTarget s.position) / s.plData.feedRate
  | 0, arcTarget, s, hrapid, hinv => by
      rw [allTurns, ArcWords.fullTurns, (arcSegments_lines cfg w start s).2, minutes_lines (rapid_forSegments hrapid), ArcWords.turnsFrom, share]
      by_cases hsegments : (w.turn cfg start s.position).segments = 0
      · rw [if_pos hsegments, forSegments_of_zero hsegments, hinv, if_pos rfl, share, add_zero]
      · rw [if_neg hsegments, forSegments_of_inverse hinv hsegments, if_neg Bool.false_ne_true, List.flatMap_nil, List.append_nil,
          div_div, mul_comm s.plData.feedRate]
  | n + 1, arcTarget, s, hrapid, hinv => by
      obtain ⟨hdata, hplanner⟩ := arcSegments_lines cfg (w.fullTurn (w.nextTurn start arcTarget)) s.position s
      rw [ArcWords.turnsFrom, share]
      by_cases hsegments : ((w.fullTurn (w.nextTurn start arcTarget)).turn cfg s.position s.position).segments = 0
      · rw [forSegments_of_zero hsegments] at hdata hplanner
        have hrest := minutes_of_inverse n (w.nextTurn start arcTarget)
          { (w.fullTurn (w.nextTurn start arcTarget)).arcSegments cfg s.position s with position := w.nextTurn start arcTarget }
          (by rw [hdata, hrapid]) (by rw [hdata, hinv])
        rw [hdata, hplanner, minutes_lines hrapid, hinv, if_pos rfl, position_lines] at hrest
        rw [if_pos hsegments, add_div, ← add_assoc]
        exact hrest
      · rw [forSegments_of_inverse hinv hsegments] at hdata hplanner
        have hrest := minutes_of_absolute cfg w start n (w.nextTurn start arcTarget)
          { (w.fullTurn (w.nextTurn start arcTarget)).arcSegments cfg s.position s with position := w.nextTurn start arcTarget }
          (by rw [hdata]; exact hrapid) (by rw [hdata])
        rw [hdata, hplanner, minutes_lines (by exact hrapid), if_neg Bool.false_ne_true, position_lines] at hrest
        rw [if_neg hsegments, moves_append, List.sum_append, div_div, mul_comm _ s.plData.feedRate, add_div, ← add_assoc]
        exact hrest

theorem minutes_mcArc {s : ArcState} (hrapid : s.plData.rapidMotion = false) (hinv : s.plData.inverseTime = true)
    (hqueue : s.planner.queued = []) :
    minutes (w.mcArc cfg s).planner.queued = share cfg s.planner.position (w.turnList cfg s.position) / s.plData.feedRate := by
  have h := minutes_of_inverse cfg w s.position (w.turns.natAbs - 1) (w.arcTarget s.position) s hrapid hinv
  have hnone : minutes [] = 0 := rfl
  rw [hqueue, hnone, zero_add] at h
  exact h

theorem share_of_lines {ts : List Turn} (h : ∀ t ∈ ts, t.segments = 0) (position : Axis → ℤ) :
    share cfg position ts = (moves cfg position (ts.flatMap Turn.points)).length := by
  induction ts generalizing position with
  | nil => exact Nat.cast_zero.symm
  | cons t ts ih =>
      rw [share, if_pos (h t List.mem_cons_self), ih fun u hu => h u (List.mem_cons_of_mem _ hu), List.flatMap_cons,
        moves_append, List.length_append, Nat.cast_add]

theorem share_of_cut {ts rest : List Turn} {t : Turn} (h : ∀ u ∈ ts, u.segments = 0) (ht : t.segments ≠ 0) (position : Axis → ℤ) :
    share cfg position (ts ++ t :: rest) = (moves cfg position (ts.flatMap Turn.points)).length +
      (moves cfg (endOf cfg position (ts.flatMap Turn.points)) ((t :: rest).flatMap Turn.points)).sum / t.segments := by
  induction ts generalizing position with
  | nil =>
      rw [List.nil_append, share, if_neg ht, List.flatMap_cons, List.flatMap_nil, moves, endOf, List.length_nil, Nat.cast_zero,
        zero_add]
  | cons u ts ih =>
      rw [List.cons_append, share, if_pos (h u List.mem_cons_self), ih fun u hu => h u (List.mem_cons_of_mem _ hu), ← add_assoc,
        ← Nat.cast_add, ← List.length_append, ← moves_append, ← endOf_append]
      rfl

/-! ## Arcs that are not cut -/

theorem segments_eq_zero_iff : w.segments cfg start = 0 ↔ w.Short cfg (w.angularTravel start) := by
  rw [ArcWords.segments, ArcWords.Short]
  split
  · next hlt => rw [Nat.floor_eq_zero, or_iff_right (not_le.2 hlt)]
  · next hle => exact ⟨fun _ => .inl (not_lt.1 hle), fun _ => rfl⟩

theorem abs_travel_fullTurn {target position : Axis → ℝ} (h₀ : target w.plane.axis0 = position w.plane.axis0)
    (h₁ : target w.plane.axis1 = position w.plane.axis1) : |(w.fullTurn target).angularTravel position| = 2 * π := by
  have hpi := Real.pi_pos
  have heps : 0 ≤ arcAngularTravelEpsilon := by
    rw [arcAngularTravelEpsilon]
    norm_num
  have hatan (x y : ℝ) : atan2 (x * y - y * x) (x * x + y * y) = 0 := by
    rw [atan2, mul_comm y x, sub_self]
    exact Complex.arg_ofReal_of_nonneg (add_nonneg (mul_self_nonneg x) (mul_self_nonneg y))
  simp only [ArcWords.angularTravel, ArcWords.center, ArcWords.rv, ArcWords.fullTurn, h₀, h₁, sub_sub_cancel, hatan]
  by_cases hturns : w.turns > 0
  · rw [if_pos hturns, if_pos one_pos, if_pos heps, zero_add, abs_of_pos (by positivity)]
  · rw [if_neg hturns, if_neg (by decide), if_pos (neg_nonpos.2 heps), zero_sub, abs_neg, abs_of_pos (by positivity)]

theorem short_abs (travel : ℝ) : w.Short cfg |travel| ↔ w.Short cfg travel := by
  rw [ArcWords.Short, ArcWords.Short, abs_mul, abs_mul (1 / 2 * travel), abs_mul, abs_mul (1 / 2), abs_abs]

theorem uncut_turnsFrom_iff : ∀ (n : ℕ) (arcTarget position : Axis → ℝ), arcTarget w.plane.axis0 = position w.plane.axis0 →
    arcTarget w.plane.axis1 = position w.plane.axis1 →
    ((∀ t ∈ w.turnsFrom cfg start n arcTarget position, t.segments = 0) ↔
      (0 < n → w.Short cfg (2 * π)) ∧ w.Short cfg (w.angularTravel start))
  | 0, arcTarget, position, _, _ => by
      rw [ArcWords.turnsFrom, List.forall_mem_singleton, ← segments_eq_zero_iff]
      exact (and_iff_right fun h => absurd h (lt_irrefl 0)).symm
  | n + 1, arcTarget, position, h₀, h₁ => by
      have hnext₀ : w.nextTurn start arcTarget w.plane.axis0 = arcTarget w.plane.axis0 := if_pos (.inl rfl)
      have hnext₁ : w.nextTurn start arcTarget w.plane.axis1 = arcTarget w.plane.axis1 := if_pos (.inr rfl)
      have hturn : ((w.fullTurn (w.nextTurn start arcTarget)).turn cfg position position).segments = 0 ↔ w.Short cfg (2 * π) := by
        rw [← abs_travel_fullTurn w (hnext₀.trans h₀) (hnext₁.trans h₁), short_abs]
        exact segments_eq_zero_iff cfg _ position
      rw [ArcWords.turnsFrom, List.forall_mem_cons, hturn, uncut_turnsFrom_iff n _ _ rfl rfl, ← and_assoc]
      refine and_congr_left fun _ => ⟨fun h _ => h.1, fun h => ⟨h n.succ_pos, fun _ => h n.succ_pos⟩⟩

theorem uncut_iff : (∀ t ∈ w.turnList cfg start, t.segments = 0) ↔ w.Uncut cfg start := by
  have h₀ : w.arcTarget start w.plane.axis0 = start w.plane.axis0 := if_pos (.inl rfl)
  have h₁ : w.arcTarget start w.plane.axis1 = start w.plane.axis1 := if_pos (.inr (.inl rfl))
  rw [ArcWords.turnList, uncut_turnsFrom_iff cfg w start _ _ _ h₀ h₁, ArcWords.Uncut, Nat.sub_pos_iff_lt]

end

end

/-! ## An arc of one segment -/

theorem oneStep_pos (_ : Axis) : (0 : ℝ) < 1 := one_pos

noncomputable def coarse : ArcConfig where
  stepsPerMm := fun _ => 1
  homingDirMask := fun _ => false
  stepsPerMm_pos := oneStep_pos
  maxRate := fun _ => 1
  arcTolerance := 1

def halfCircle : ArcWords where
  target := fun i => if i = .x then 1 else 0
  offset := fun i => if i = .x then 1 else 0
  radius := 1
  plane := .xy
  turns := 1

def fromLeft : ArcState where
  position := fun i => if i = .x then -1 else 0
  plData := { feedRate := 1, inverseTime := true }
  planner := { position := fun i => if i = .x then -1 else 0 }

theorem atan2_halfCircle : atan2 0 (-1) = π := by
  rw [atan2, show (⟨-1, 0⟩ : ℂ) = -1 from Complex.ext (by simp) (by simp), Complex.arg_neg_one]

theorem angularTravel_halfCircle : halfCircle.angularTravel fromLeft.position = π := by
  have hlt : ¬ π ≤ arcAngularTravelEpsilon := by
    rw [arcAngularTravelEpsilon]
    linarith [Real.pi_gt_three]
  have hne : ¬ Axis.y = Axis.x := by decide
  simp only [ArcWords.angularTravel, ArcWords.center, ArcWords.rv, halfCircle, fromLeft, Plane.axis0, Plane.axis1, hne, if_true, if_false]
  norm_num
  rw [atan2_halfCircle, if_neg hlt]

theorem segments_halfCircle : halfCircle.segments coarse fromLeft.position = 1 := by
  rw [ArcWords.segments, angularTravel_halfCircle]
  have hhalf : |1 / 2 * π * (1 : ℝ)| / √(1 * (2 * 1 - 1)) = π / 2 := by
    rw [show (1 : ℝ) * (2 * 1 - 1) = 1 by norm_num, Real.sqrt_one, div_one, mul_one, abs_of_pos (by positivity)]
    ring
  show (if 2 * (1 : ℝ) > 1 then ⌊|1 / 2 * π * (1 : ℝ)| / √(1 * (2 * 1 - 1))⌋₊ else 0) = 1
  rw [if_pos (by norm_num), hhalf, Nat.floor_eq_iff (by positivity)]
  constructor
  · push_cast
    linarith [Real.pi_gt_three]
  · push_cast
    linarith [Real.pi_lt_four]

theorem moves_halfCircle : moves coarse fromLeft.planner.position [halfCircle.target] = [2] := by
  have hsteps (i : Axis) : coarse.toSteps halfCircle.target i = if i = .x then 1 else 0 := by
    show lround ((if i = .x then (1 : ℝ) else 0) * 1) = _
    split
    · rw [lround, mul_one, if_pos zero_le_one, Int.floor_eq_iff]
      constructor <;> norm_num
    · rw [lround, mul_one, if_pos le_rfl, Int.floor_eq_iff]
      constructor <;> norm_num
  have hmove : moveOf coarse fromLeft.planner.position halfCircle.target = fun i => if i = .x then 2 else 0 := by
    funext i
    show ((coarse.toSteps halfCircle.target i - (if i = .x then -1 else 0) : ℤ) : ℝ) / 1 = _
    rw [hsteps]
    split <;> norm_num
  have hfar : ¬ ∀ i, coarse.toSteps halfCircle.target i = fromLeft.planner.position i := by
    intro h
    have hx := h .x
    rw [hsteps] at hx
    exact absurd hx (by decide)
  have hlength : magnitude (fun i => if i = Axis.x then 2 else 0) = 2 := by
    rw [magnitude, Finset.sum_eq_single Axis.x (fun i _ hi => by rw [if_neg hi]; norm_num) (fun h => absurd (Finset.mem_univ _) h), if_pos rfl]
    exact Real.sqrt_sq zero_le_two
  rw [moves, if_neg hfar, hmove, hlength, moves]

theorem share_halfCircle : share coarse fromLeft.planner.position (halfCircle.turnList coarse fromLeft.position) = 2 := by
  have hturns : halfCircle.turnList coarse fromLeft.position = [⟨1, [halfCircle.target]⟩] := by
    show [halfCircle.turn coarse fromLeft.position fromLeft.position] = _
    rw [ArcWords.turn, segments_halfCircle]
    rfl
  rw [hturns, share, if_neg one_ne_zero, List.flatMap_nil, List.append_nil, moves_halfCircle, List.sum_singleton, Nat.cast_one, div_one]

end Grbl.Motion.InverseTime
