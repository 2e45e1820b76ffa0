import Mathlib
import Grbl.Axis
import Grbl.Lib.AtLeastTwo
import Grbl.Lib.Run
import Grbl.Lib.OrderedField

/-!
# Backlash compensation

`motion_control.c` without kinematics: before an axis moves in a new direction `mc_line` queues a block that takes up its backlash.

* `lround` : `lroundf`; `Config`, `Block`, `Machine` : the settings, the blocks and the variables;
* `mcBacklashInit`, `setBacklash`, `takeUp`, `planBufferLine`, `mcLine` : the functions;
* `Wanted` : what the blocks should be; `Action`, `step` : lines and changes of the setting;
* `Compensated` : what is to hold of a run; `Safe` : by which steps it does; `Tracks` : why;
* `compensated_of_safe`; `zero_keeps_compensating`.
-/

namespace Grbl.Motion
open Lib Function
open scoped Grbl.Lib.Literal Grbl.Lib.OrderedField

section
variable {K : Type*} [Field K] [LinearOrder K] [FloorRing K]

/-- `lroundf` -/
def lround (x : K) : ℤ := if 0 ≤ x then ⌊x + 1 / 2⌋ else ⌈x - 1 / 2⌉

/-- The settings that stay as they are. -/
structure Config (K : Type*) [Zero K] [LT K] where
  stepsPerMm : Axis → K
  homingDirMask : Axis → Bool
  stepsPerMm_pos : ∀ i, 0 < stepsPerMm i

def Config.steps (cfg : Config K) (i : Axis) (backlash : K) : ℕ := (lround (backlash * cfg.stepsPerMm i)).toNat

def Config.toSteps (cfg : Config K) (target : Axis → K) (i : Axis) : ℤ := lround (target i * cfg.stepsPerMm i)

/-- The steps of a block, with their sign, and `backlash_motion`. -/
structure Block where
  steps : Axis → ℤ
  backlashMotion : Bool
  deriving DecidableEq

/-- The setting, the variables of `motion_control.c`, `pl.position`, and the blocks queued so far. -/
structure Machine (K : Type*) where
  backlash : Axis → K
  targetPrev : Axis → K
  backlashComp : Axis → K
  dirNegative : Axis → Bool := fun _ => false
  backlashEnabled : Axis → Bool := fun _ => false
  position : Axis → ℤ
  queued : List Block := []

namespace Machine
variable (cfg : Config K)

/-- `mc_sync_backlash_position`; the machine is idle, and `sys.position` is `pl.position`. -/
def mcSyncBacklashPosition (m : Machine K) : Machine K := { m with targetPrev := fun i => m.position i / cfg.stepsPerMm i }

def mcBacklashInit (axes : Axis → Bool) (m : Machine K) : Machine K :=
  let set i := axes i && decide (cfg.steps i (m.backlash i) ≠ 0)
  mcSyncBacklashPosition cfg { m with
    backlashComp := fun i => if set i then cfg.steps i (m.backlash i) / cfg.stepsPerMm i else m.backlashComp i
    backlashEnabled := fun i => set i || m.backlashEnabled i
    dirNegative := fun i => if set i then !cfg.homingDirMask i else m.dirNegative i }

/-- `settings_store_setting` for the backlash of an axis: what `validate_value` and `set_axis_setting` do. -/
def setBacklash (idx : Axis) (value : K) (m : Machine K) : Machine K :=
  if value < 0 then m
  else if m.backlash idx ≠ value then mcBacklashInit cfg (fun i => i = idx) { m with backlash := update m.backlash idx value }
  else m

/-- One turn of the loop over the axes in `mc_line`: `target_prev` and `dir_negative` of the axis. -/
def takeUp (m : Machine K) (target : Axis → K) (i : Axis) : K × Bool :=
  if m.backlashEnabled i then
    if target i > m.targetPrev i then
      if m.dirNegative i then (m.targetPrev i + m.backlashComp i, false) else (m.targetPrev i, m.dirNegative i)
    else if target i < m.targetPrev i ∧ !m.dirNegative i then (m.targetPrev i - m.backlashComp i, true)
    else (m.targetPrev i, m.dirNegative i)
  else (m.targetPrev i, m.dirNegative i)

/-- `plan_buffer_line`, as far as the steps go. -/
def planBufferLine (target : Axis → K) (backlashMotion : Bool) (m : Machine K) : Machine K :=
  if ∀ i, cfg.toSteps target i = m.position i then m
  else { m with
    queued := m.queued ++ [⟨fun i => cfg.toSteps target i - m.position i, backlashMotion⟩]
    position := if backlashMotion then m.position else cfg.toSteps target }

def mcLine (target : Axis → K) (m : Machine K) : Machine K :=
  let m :=
    if ∃ i, m.backlashEnabled i then
      let addComp := decide (∃ i, (m.takeUp target i).2 ≠ m.dirNegative i)
      let m := { m with
        targetPrev := fun i => (m.takeUp target i).1
        dirNegative := fun i => (m.takeUp target i).2 }
      let m := if addComp then m.planBufferLine cfg m.targetPrev true else m
      { m with targetPrev := target }
    else m
  m.planBufferLine cfg target false

end Machine

/-! ## What is wanted -/

/-- The setting, the position commanded, the direction each axis was last moved in, the smaller of the two differences between steps
and position, and the blocks there should be. -/
structure Wanted (K : Type*) where
  backlash : Axis → K
  commanded : Axis → K
  negative : Axis → Bool
  low : Axis → ℤ
  queued : List Block := []

namespace Wanted
variable (cfg : Config K) (w : Wanted K)

def steps (i : Axis) : ℤ := cfg.steps i (w.backlash i)

/-- A line moves a compensated axis in a new direction. -/
def Reverses (target : Axis → K) (i : Axis) : Prop :=
  w.steps cfg i ≠ 0 ∧ if w.negative i then target i > w.commanded i else target i < w.commanded i

instance (target : Axis → K) (i : Axis) : Decidable (w.Reverses cfg target i) := by
  unfold Reverses
  infer_instance

def compensation (target : Axis → K) (i : Axis) : ℤ :=
  if w.Reverses cfg target i then if w.negative i then w.steps cfg i else -w.steps cfg i else 0

def move (target : Axis → K) (i : Axis) : ℤ := cfg.toSteps target i - cfg.toSteps w.commanded i

/-- The blocks of a line: the compensation of the axes that reverse, and the line itself. -/
def blocks (target : Axis → K) : List Block :=
  (if ∃ i, w.Reverses cfg target i then [⟨w.compensation cfg target, true⟩] else []) ++
    if ∃ i, w.move cfg target i ≠ 0 then [⟨w.move cfg target, false⟩] else []

def excess (i : Axis) : ℤ := (w.queued.map (·.steps i)).sum - cfg.toSteps w.commanded i

def line (target : Axis → K) : Wanted K :=
  { w with
    commanded := target
    negative := fun i => if target i = w.commanded i then w.negative i else decide (target i < w.commanded i)
    queued := w.queued ++ w.blocks cfg target }

/-- The two differences are shifted only when the setting of the axis changes, and so that the current one is one of them. -/
def setBacklash (idx : Axis) (value : K) : Wanted K :=
  if value < 0 ∨ w.backlash idx = value then w
  else { w with
    backlash := update w.backlash idx value
    low := update w.low idx (w.excess cfg idx - if w.negative idx then 0 else cfg.steps idx value) }

end Wanted

/-! ## Runs -/

/-- A line, or a change of the setting. -/
inductive Action (K : Type*)
  | line (target : Axis → K)
  | set (axis : Axis) (value : K)

abbrev State (K : Type*) := Machine K × Wanted K

def step (cfg : Config K) (s : State K) : Action K → Option (State K)
  | .line target => some (s.1.mcLine cfg target, s.2.line cfg target)
  | .set axis value => some (s.1.setBacklash cfg axis value, s.2.setBacklash cfg axis value)

/-- The machine has been started with a setting, at a position: the axes are taken to have been homed. -/
def start (cfg : Config K) (backlash : Axis → K) (position : Axis → ℤ) : State K :=
  (Machine.mcBacklashInit cfg (fun _ => true)
      { backlash := backlash, targetPrev := fun _ => 0, backlashComp := fun _ => 0, position := position },
    { backlash := backlash
      commanded := fun i => position i / cfg.stepsPerMm i
      negative := fun i => !cfg.homingDirMask i
      low := fun i => -position i - if !cfg.homingDirMask i then 0 else cfg.steps i (backlash i) })

/-- The blocks are those wanted; the steps queued beyond the position commanded are one of two numbers that are the backlash apart,
which of them depends on the direction last moved in. -/
structure Compensated (cfg : Config K) (s : State K) : Prop where
  queued : s.1.queued = s.2.queued
  excess : ∀ i, (s.1.queued.map (·.steps i)).sum - cfg.toSteps s.2.commanded i =
    s.2.low i + if s.2.negative i then 0 else s.2.steps cfg i

/-- The compensation does not move over zero from between two steps. A setting is changed when all axes are on whole steps; it is not
set to zero once it has not been, and is set only on an axis that was last moved in the direction of homing. -/
def Safe (cfg : Config K) (s : State K) : Action K → Prop
  | .line target => ∀ i, s.2.Reverses cfg target i →
      lround (s.2.commanded i * cfg.stepsPerMm i + s.2.compensation cfg target i) = cfg.toSteps s.2.commanded i + s.2.compensation cfg target i
  | .set axis value => 0 ≤ value → s.1.backlash axis ≠ value →
      (∀ i, s.2.commanded i * cfg.stepsPerMm i = cfg.toSteps s.2.commanded i) ∧
        if cfg.steps axis value = 0 then cfg.steps axis (s.1.backlash axis) = 0 else s.2.negative axis = !cfg.homingDirMask axis

instance (cfg : Config K) (s : State K) : ∀ a, Decidable (Safe cfg s a)
  | .line target => inferInstanceAs (Decidable (∀ i, s.2.Reverses cfg target i →
      lround (s.2.commanded i * cfg.stepsPerMm i + s.2.compensation cfg target i) =
        cfg.toSteps s.2.commanded i + s.2.compensation cfg target i))
  | .set axis value => inferInstanceAs (Decidable (0 ≤ value → s.1.backlash axis ≠ value →
      (∀ i, s.2.commanded i * cfg.stepsPerMm i = cfg.toSteps s.2.commanded i) ∧
        if cfg.steps axis value = 0 then cfg.steps axis (s.1.backlash axis) = 0 else s.2.negative axis = !cfg.homingDirMask axis))

/-! ## Single calls -/

variable {cfg : Config K} {m : Machine K} {w : Wanted K} {s : State K} {target : Axis → K} {i : Axis}

theorem planBufferLine_eq {steps : Axis → ℤ} (hsteps : ∀ i, cfg.toSteps target i - m.position i = steps i)
    (backlashMotion : Bool) :
    m.planBufferLine cfg target backlashMotion = { m with
      queued := m.queued ++ if ∃ i, steps i ≠ 0 then [⟨steps, backlashMotion⟩] else []
      position := if backlashMotion then m.position else cfg.toSteps target } := by
  have hfun : (fun i => cfg.toSteps target i - m.position i) = steps := funext hsteps
  rw [Machine.planBufferLine]
  by_cases hzero : ∀ i, cfg.toSteps target i = m.position i
  · have hnone : ¬∃ i, steps i ≠ 0 := fun ⟨i, hi⟩ => hi (by rw [← hsteps i, hzero i, sub_self])
    have hposition : cfg.toSteps target = m.position := funext hzero
    rw [if_pos hzero, if_neg hnone, List.append_nil, hposition, ite_self]
  · have hsome : ∃ i, steps i ≠ 0 := by
      obtain ⟨i, hi⟩ := not_forall.1 hzero
      exact ⟨i, by rw [← hsteps i]; exact sub_ne_zero.2 hi⟩
    rw [if_neg hzero, if_pos hsome, hfun]

/-- What connects the variables to what is wanted. -/
structure Tracks (cfg : Config K) (s : State K) : Prop extends Compensated cfg s where
  backlash : s.1.backlash = s.2.backlash
  position : s.1.position = cfg.toSteps s.2.commanded
  enabled : ∀ i, s.1.backlashEnabled i = true ↔ s.2.steps cfg i ≠ 0
  comp : ∀ i, s.1.backlashEnabled i = true → s.1.backlashComp i * cfg.stepsPerMm i = s.2.steps cfg i
  direction : ∀ i, s.1.backlashEnabled i = true → s.1.dirNegative i = s.2.negative i
  prev : ∀ i, s.1.backlashEnabled i = true → s.1.targetPrev i = s.2.commanded i
  grid : (∃ i, s.1.backlashEnabled i = true) → cfg.toSteps s.1.targetPrev = s.1.position

theorem line_negative (i : Axis) : (w.line cfg target).negative i =
    if target i = w.commanded i then w.negative i else decide (target i < w.commanded i) := rfl

theorem takeUp_direction (h : Tracks cfg s) (henabled : s.1.backlashEnabled i = true) :
    (s.1.takeUp target i).2 = (s.2.line cfg target).negative i := by
  rw [Machine.takeUp, if_pos henabled, h.prev i henabled, h.direction i henabled, line_negative]
  rcases lt_trichotomy (target i) (s.2.commanded i) with hlt | heq | hgt
  · rw [if_neg hlt.not_gt, if_neg hlt.ne, decide_eq_true hlt]
    cases s.2.negative i <;> simp [hlt]
  · rw [if_neg heq.le.not_gt, if_pos heq, if_neg (fun hc => hc.1.ne heq)]
  · rw [if_pos hgt, if_neg hgt.ne', decide_eq_false hgt.not_gt]
    cases s.2.negative i <;> rfl

theorem reverses_iff (h : Tracks cfg s) : s.2.Reverses cfg target i ↔ (s.1.takeUp target i).2 ≠ s.1.dirNegative i := by
  cases henabled : s.1.backlashEnabled i with
  | false =>
      have hsteps : ¬s.2.steps cfg i ≠ 0 := fun hc => Bool.noConfusion (henabled.symm.trans ((h.enabled i).2 hc))
      rw [Machine.takeUp, henabled]
      simp [Wanted.Reverses, hsteps]
  | true =>
      have hsteps := (h.enabled i).1 henabled
      rw [takeUp_direction h henabled, h.direction i henabled, line_negative, Wanted.Reverses, and_iff_right hsteps]
      rcases lt_trichotomy (target i) (s.2.commanded i) with hlt | heq | hgt
      · cases s.2.negative i <;> simp [hlt, hlt.ne, hlt.not_gt]
      · cases s.2.negative i <;> simp [heq]
      · cases s.2.negative i <;> simp [hgt, hgt.ne', hgt.not_gt]

/-! ## A line -/

omit [FloorRing K] in
theorem takeUp_fst (h : (m.takeUp target i).2 = m.dirNegative i) : (m.takeUp target i).1 = m.targetPrev i := by
  revert h
  rw [Machine.takeUp]
  split_ifs with henabled hgt hdir hlt
  · intro h
    exact Bool.noConfusion (h.trans hdir)
  · exact fun _ => rfl
  · intro h
    rw [← h] at hlt
    exact Bool.noConfusion hlt.2
  · exact fun _ => rfl
  · exact fun _ => rfl

theorem takeUp_steps (h : Tracks cfg s) (hsafe : Safe cfg s (.line target)) (hsome : ∃ i, s.1.backlashEnabled i = true) (i : Axis) :
    cfg.toSteps (fun i => (s.1.takeUp target i).1) i - s.1.position i = s.2.compensation cfg target i := by
  by_cases hrev : s.2.Reverses cfg target i
  · have henabled := (h.enabled i).2 hrev.1
    have hround := hsafe i hrev
    have hcomp := h.comp i henabled
    have hdir := hrev.2
    rw [Wanted.compensation, if_pos hrev] at hround ⊢
    rw [h.position, Config.toSteps, Machine.takeUp, if_pos henabled, h.prev i henabled, h.direction i henabled]
    cases hneg : s.2.negative i with
    | true =>
        simp only [hneg, if_true] at hdir hround ⊢
        rw [if_pos hdir, add_mul, hcomp, hround]
        ring
    | false =>
        simp only [hneg, Bool.false_eq_true, if_false, Int.cast_neg] at hdir hround ⊢
        rw [if_neg hdir.not_gt, if_pos ⟨hdir, rfl⟩, sub_mul, hcomp, sub_eq_add_neg (s.2.commanded i * cfg.stepsPerMm i), hround]
        ring
  · have hsame : (s.1.takeUp target i).2 = s.1.dirNegative i := not_not.1 fun hne => hrev ((reverses_iff h).2 hne)
    have hgrid : lround (s.1.targetPrev i * cfg.stepsPerMm i) = s.1.position i := congrFun (h.grid hsome) i
    rw [Wanted.compensation, if_neg hrev, Config.toSteps, takeUp_fst hsame, hgrid, sub_self]

theorem sum_blocks (i : Axis) : ((w.blocks cfg target).map (·.steps i)).sum = w.compensation cfg target i + w.move cfg target i := by
  rw [Wanted.blocks, List.map_append, List.sum_append]
  congr 1
  · split
    · exact List.sum_singleton
    · next hnone => rw [Wanted.compensation, if_neg fun hrev => hnone ⟨i, hrev⟩]; rfl
  · split
    · exact List.sum_singleton
    · next hnone => exact (not_not.1 fun hne => hnone ⟨i, hne⟩).symm

theorem excess_line (i : Axis) : (w.line cfg target).excess cfg i = w.excess cfg i + w.compensation cfg target i := by
  have hsum : ((w.line cfg target).queued.map (·.steps i)).sum =
      (w.queued.map (·.steps i)).sum + (w.compensation cfg target i + w.move cfg target i) := by
    rw [Wanted.line, List.map_append, List.sum_append, sum_blocks]
  rw [Wanted.excess, Wanted.excess, hsum, Wanted.move]
  simp only [Wanted.line]
  ring

/-- The compensation goes from one of the two differences to the other one when the direction changes. -/
theorem compensation_eq (i : Axis) : (if (w.line cfg target).negative i then 0 else w.steps cfg i) =
    (if w.negative i then 0 else w.steps cfg i) + w.compensation cfg target i := by
  rw [line_negative, Wanted.compensation]
  rcases eq_or_ne (w.steps cfg i) 0 with hzero | hne
  · simp [hzero]
  · rcases lt_trichotomy (target i) (w.commanded i) with hlt | heq | hgt
    · cases hneg : w.negative i <;> simp [Wanted.Reverses, hne, hneg, hlt, hlt.ne, hlt.not_gt]
    · cases hneg : w.negative i <;> simp [Wanted.Reverses, hne, hneg, heq]
    · cases hneg : w.negative i <;> simp [Wanted.Reverses, hne, hneg, hgt, hgt.ne', hgt.not_gt]

theorem Tracks.excess_eq (h : Tracks cfg s) (i : Axis) :
    s.2.excess cfg i = s.2.low i + if s.2.negative i then 0 else s.2.steps cfg i := by
  rw [Wanted.excess, ← h.queued]
  exact h.excess i

/-- The machine before the line itself, with the compensation queued. -/
def Machine.compensated (cfg : Config K) (m : Machine K) (w : Wanted K) (target : Axis → K) : Machine K :=
  if ∃ i, m.backlashEnabled i then
    { m with
      targetPrev := target
      dirNegative := fun i => (m.takeUp target i).2
      queued := m.queued ++ if ∃ i, w.Reverses cfg target i then [⟨w.compensation cfg target, true⟩] else [] }
  else m

theorem compensation_ne_zero {i : Axis} (h : w.Reverses cfg target i) : w.compensation cfg target i ≠ 0 := by
  rw [Wanted.compensation, if_pos h]
  split
  · exact h.1
  · exact neg_ne_zero.2 h.1

theorem mcLine_eq (h : Tracks cfg s) (hsafe : Safe cfg s (.line target)) :
    s.1.mcLine cfg target = (s.1.compensated cfg s.2 target).planBufferLine cfg target false := by
  rw [Machine.mcLine, Machine.compensated]
  by_cases hsome : ∃ i, s.1.backlashEnabled i = true
  · rw [if_pos hsome, if_pos hsome]
    have hadd : (∃ i, (s.1.takeUp target i).2 ≠ s.1.dirNegative i) ↔ ∃ i, s.2.Reverses cfg target i :=
      exists_congr fun i => (reverses_iff h).symm
    simp only [decide_eq_decide.2 hadd, decide_eq_true_eq]
    by_cases hrev : ∃ i, s.2.Reverses cfg target i
    · have hne : ∃ i, s.2.compensation cfg target i ≠ 0 := hrev.imp fun _ hi => compensation_ne_zero hi
      have hplan := planBufferLine_eq (m := { s.1 with
        targetPrev := fun i => (s.1.takeUp target i).1
        dirNegative := fun i => (s.1.takeUp target i).2 }) (takeUp_steps h hsafe hsome) true
      rw [if_pos hne, if_pos rfl] at hplan
      rw [if_pos hrev, if_pos hrev]
      exact congrArg (fun m : Machine K => Machine.planBufferLine cfg target false { m with targetPrev := target }) hplan
    · rw [if_neg hrev, if_neg hrev, List.append_nil]
  · rw [if_neg hsome, if_neg hsome]

theorem Tracks.line (h : Tracks cfg s) (hsafe : Safe cfg s (.line target)) :
    Tracks cfg (s.1.mcLine cfg target, s.2.line cfg target) := by
  have hexcess : ∀ i, (s.2.line cfg target).excess cfg i =
      s.2.low i + if (s.2.line cfg target).negative i then 0 else s.2.steps cfg i := by
    intro i
    rw [excess_line, compensation_eq, h.excess_eq]
    ring
  have hmove : ∀ i, cfg.toSteps target i - (s.1.compensated cfg s.2 target).position i = s.2.move cfg target i := by
    intro i
    have hposition : (s.1.compensated cfg s.2 target).position = s.1.position := by
      rw [Machine.compensated]
      split <;> rfl
    rw [hposition, h.position, Wanted.move]
  have hqueued : (s.1.compensated cfg s.2 target).queued ++
      (if ∃ i, s.2.move cfg target i ≠ 0 then [⟨s.2.move cfg target, false⟩] else []) = (s.2.line cfg target).queued := by
    rw [Wanted.line, Wanted.blocks, ← List.append_assoc, ← h.queued, Machine.compensated]
    split
    · rfl
    · next hnone =>
        have hrev : ¬∃ i, s.2.Reverses cfg target i := fun ⟨i, hi⟩ => hnone ⟨i, (h.enabled i).2 hi.1⟩
        rw [if_neg hrev, List.append_nil]
  rw [mcLine_eq h hsafe, planBufferLine_eq hmove, hqueued, if_neg Bool.false_ne_true]
  have hkeep : (s.1.compensated cfg s.2 target).backlash = s.1.backlash ∧
      (s.1.compensated cfg s.2 target).backlashEnabled = s.1.backlashEnabled ∧
      (s.1.compensated cfg s.2 target).backlashComp = s.1.backlashComp := by
    rw [Machine.compensated]
    split <;> exact ⟨rfl, rfl, rfl⟩
  have hset : (∃ i, s.1.backlashEnabled i = true) → (s.1.compensated cfg s.2 target).targetPrev = target ∧
      (s.1.compensated cfg s.2 target).dirNegative = fun i => (s.1.takeUp target i).2 := by
    intro hsome
    rw [Machine.compensated, if_pos hsome]
    exact ⟨rfl, rfl⟩
  obtain ⟨hbacklash, henabled, hcomp⟩ := hkeep
  refine ⟨⟨rfl, hexcess⟩, hbacklash.trans h.backlash, rfl, fun i => ?_, fun i hi => ?_, fun i hi => ?_, fun i hi => ?_, fun hi => ?_⟩
  · exact (iff_of_eq (congrArg (· i = true) henabled)).trans (h.enabled i)
  · exact (congrArg (· i * cfg.stepsPerMm i) hcomp).trans (h.comp i ((congrFun henabled i).symm.trans hi))
  · have hi' := (congrFun henabled i).symm.trans hi
    exact (congrFun (hset ⟨i, hi'⟩).2 i).trans (takeUp_direction h hi')
  · exact congrFun (hset ⟨i, (congrFun henabled i).symm.trans hi⟩).1 i
  · obtain ⟨i, hi⟩ := hi
    exact congrArg cfg.toSteps (hset ⟨i, (congrFun henabled i).symm.trans hi⟩).1

/-! ## The setting -/

variable [IsStrictOrderedRing K]

theorem lround_intCast (n : ℤ) : lround (n : K) = n := by
  unfold lround
  split
  · rw [Int.floor_eq_iff]
    constructor <;> linarith
  · rw [Int.ceil_eq_iff]
    constructor <;> linarith

theorem toSteps_div (cfg : Config K) (position : Axis → ℤ) (i : Axis) :
    cfg.toSteps (fun i => (position i : K) / cfg.stepsPerMm i) i = position i := by
  rw [Config.toSteps, div_mul_cancel₀ _ (cfg.stepsPerMm_pos i).ne', lround_intCast]

theorem Tracks.init {axes : Axis → Bool} (hcompensated : Compensated cfg (m, w)) (hbacklash : m.backlash = w.backlash)
    (hposition : ∀ i, w.commanded i * cfg.stepsPerMm i = m.position i)
    (hkeep : ∀ i, axes i = false ∨ w.steps cfg i = 0 → (m.backlashEnabled i = true ↔ w.steps cfg i ≠ 0) ∧
      (m.backlashEnabled i = true → m.backlashComp i * cfg.stepsPerMm i = w.steps cfg i ∧ m.dirNegative i = w.negative i))
    (hdir : ∀ i, axes i = true → w.steps cfg i ≠ 0 → w.negative i = !cfg.homingDirMask i) :
    Tracks cfg (m.mcBacklashInit cfg axes, w) := by
  have hsteps : ∀ i, (cfg.steps i (m.backlash i) : ℤ) = w.steps cfg i := fun i => by rw [Wanted.steps, hbacklash]
  have hnat : ∀ i, cfg.steps i (m.backlash i) ≠ 0 ↔ w.steps cfg i ≠ 0 := fun i => by
    rw [← hsteps i]
    exact Int.natCast_ne_zero.symm
  have hspm : ∀ i, cfg.stepsPerMm i ≠ 0 := fun i => (cfg.stepsPerMm_pos i).ne'
  have hset : ∀ i, (axes i && decide (cfg.steps i (m.backlash i) ≠ 0)) = true ↔ axes i = true ∧ w.steps cfg i ≠ 0 := by
    intro i
    rw [Bool.and_eq_true, decide_eq_true_eq, hnat]
  have hold : ∀ i, ¬(axes i && decide (cfg.steps i (m.backlash i) ≠ 0)) = true → axes i = false ∨ w.steps cfg i = 0 := by
    intro i hi
    rw [hset, not_and_or, not_not, Bool.not_eq_true] at hi
    exact hi
  refine ⟨⟨hcompensated.queued, hcompensated.excess⟩, hbacklash, ?_, fun i => ?_, fun i hi => ?_, fun i hi => ?_, fun i hi => ?_,
    fun _ => ?_⟩
  · funext i
    have hround : lround (m.position i : K) = m.position i := lround_intCast _
    rw [Config.toSteps, hposition, hround]
    rfl
  · simp only [Machine.mcBacklashInit, Machine.mcSyncBacklashPosition, Bool.or_eq_true]
    by_cases hi : (axes i && decide (cfg.steps i (m.backlash i) ≠ 0)) = true
    · exact iff_of_true (Or.inl hi) ((hset i).1 hi).2
    · exact (or_iff_right hi).trans (hkeep i (hold i hi)).1
  · simp only [Machine.mcBacklashInit, Machine.mcSyncBacklashPosition, Bool.or_eq_true] at hi ⊢
    by_cases hnew : (axes i && decide (cfg.steps i (m.backlash i) ≠ 0)) = true
    · rw [if_pos hnew, div_mul_cancel₀ _ (hspm i), ← hsteps i, Int.cast_natCast]
    · rw [if_neg hnew]
      exact ((hkeep i (hold i hnew)).2 (hi.resolve_left hnew)).1
  · simp only [Machine.mcBacklashInit, Machine.mcSyncBacklashPosition, Bool.or_eq_true] at hi ⊢
    by_cases hnew : (axes i && decide (cfg.steps i (m.backlash i) ≠ 0)) = true
    · rw [if_pos hnew, hdir i ((hset i).1 hnew).1 ((hset i).1 hnew).2]
    · rw [if_neg hnew]
      exact ((hkeep i (hold i hnew)).2 (hi.resolve_left hnew)).2
  · exact (div_eq_iff (hspm i)).2 (hposition i).symm
  · funext i
    exact toSteps_div cfg m.position i

theorem Tracks.start (cfg : Config K) (backlash : Axis → K) (position : Axis → ℤ) : Tracks cfg (start cfg backlash position) := by
  refine Tracks.init ⟨rfl, fun i => ?_⟩ rfl (fun i => div_mul_cancel₀ _ (cfg.stepsPerMm_pos i).ne') (fun i hi => ?_) fun _ _ _ => rfl
  · have hposition := toSteps_div cfg position i
    simp only [List.map_nil, List.sum_nil, hposition, Wanted.steps]
    by_cases hmask : cfg.homingDirMask i = true <;> simp [hmask]
  · have hzero := hi.resolve_left (fun h => Bool.noConfusion h)
    exact ⟨iff_of_false Bool.false_ne_true (not_not.2 hzero), nofun⟩

theorem Tracks.set (h : Tracks cfg s) {axis : Axis} {value : K} (hsafe : Safe cfg s (.set axis value)) :
    Tracks cfg (s.1.setBacklash cfg axis value, s.2.setBacklash cfg axis value) := by
  rw [Machine.setBacklash, Wanted.setBacklash]
  by_cases hneg : value < 0
  · rw [if_pos hneg, if_pos (Or.inl hneg)]
    exact h
  by_cases hsame : s.1.backlash axis = value
  · rw [if_neg hneg, if_neg (not_not.2 hsame), if_pos (Or.inr (h.backlash ▸ hsame))]
    exact h
  rw [if_neg hneg, if_pos hsame, if_neg (not_or.2 ⟨hneg, fun heq => hsame (h.backlash ▸ heq)⟩)]
  obtain ⟨hgrid, hset⟩ := hsafe (not_lt.1 hneg) hsame
  have hother : ∀ i, i ≠ axis → cfg.steps i (update s.2.backlash axis value i) = cfg.steps i (s.2.backlash i) := fun i hi => by
    rw [update_of_ne hi]
  refine Tracks.init ⟨h.queued, fun i => ?_⟩ (congrArg (update · axis value) h.backlash) (fun i => ?_) (fun i hi => ?_) fun i hi hne => ?_
  · rcases eq_or_ne i axis with rfl | hi
    · simp only [Wanted.steps, Wanted.excess, update_self, ← h.queued]
      by_cases hnegative : s.2.negative i = true <;> simp [hnegative]
    · simp only [Wanted.steps, update_of_ne hi]
      exact h.excess i
  · rw [hgrid i, ← h.position]
  · rcases eq_or_ne i axis with rfl | hi'
    · have hzero : cfg.steps i value = 0 := by
        simpa [Wanted.steps] using hi
      rw [if_pos hzero] at hset
      have hold : ¬s.1.backlashEnabled i = true := fun henabled =>
        (h.enabled i).1 henabled (by rw [Wanted.steps, ← h.backlash, hset, Nat.cast_zero])
      refine ⟨iff_of_false hold ?_, fun henabled => absurd henabled hold⟩
      simp [Wanted.steps, hzero]
    · have hsteps : (update s.2.backlash axis value i) = s.2.backlash i := update_of_ne hi' _ _
      simp only [Wanted.steps, hsteps]
      exact ⟨h.enabled i, fun henabled => ⟨h.comp i henabled, h.direction i henabled⟩⟩
  · obtain rfl : i = axis := of_decide_eq_true hi
    have hne' : cfg.steps i value ≠ 0 := by simpa [Wanted.steps] using hne
    rw [if_neg hne'] at hset
    exact hset

theorem Tracks.step {s' : State K} (a : Action K) (h : Tracks cfg s) (hsafe : Safe cfg s a) (hstep : Motion.step cfg s a = some s') :
    Tracks cfg s' := by
  cases a with
  | line target => exact Option.some.inj hstep ▸ h.line hsafe
  | set axis value => exact Option.some.inj hstep ▸ h.set hsafe

/-- In every run whose steps are safe the backlash is compensated. -/
theorem compensated_of_safe (cfg : Config K) (backlash : Axis → K) (position : Axis → ℤ) (as : List (Action K))
    (hsafe : Along (Motion.step cfg) (Safe cfg) (start cfg backlash position) as)
    (hrun : run (Motion.step cfg) (start cfg backlash position) as = some s) : Compensated cfg s :=
  (run_invariant_along (fun _ a _ h hs hstep => h.step a hs hstep) as _ s (Tracks.start cfg backlash position) hsafe hrun).toCompensated

end

/-- One step for a millimeter. -/
def Example.config : Config ℚ := ⟨fun _ => 1, fun _ => false, fun _ => one_pos⟩

/-- A move of the x axis. -/
def Example.lineX (x : ℚ) : Action ℚ := .line fun i => if i = .x then x else 0

/-- The x axis has a backlash of five steps. -/
def Example.start : State ℚ := Motion.start config (fun i => if i = .x then 5 else 0) fun _ => 0

/-- The x axis goes forward and back, then the y axis is given a backlash too, and both go forward. -/
def Example.moves : List (Action ℚ) :=
  [lineX 10, lineX 3, .set .y (5 / 2), .line fun i => if i = .x then 7 else if i = .y then 2 else 0]

theorem compensated_of_safe_moves : ∃ s, run (step Example.config) Example.start Example.moves = some s ∧ Compensated Example.config s := by
  have hsafe : Along (step Example.config) (Safe Example.config) Example.start Example.moves := by decide +kernel
  exact ⟨_, rfl, compensated_of_safe _ _ _ _ hsafe rfl⟩

/-- The backlash is set to zero between two moves: it is compensated all the same. -/
theorem zero_keeps_compensating : ∃ s, run (step Example.config) Example.start [Example.lineX 10, .set .x 0, Example.lineX 0] = some s ∧
    s.1.backlash .x = 0 ∧ s.1.queued.map (fun b => (b.steps .x, b.backlashMotion)) = [(5, true), (10, false), (-5, true), (-10, false)] ∧
      ¬Compensated Example.config s := by
  have hrun : (run (step Example.config) Example.start [Example.lineX 10, .set .x 0, Example.lineX 0]).map (fun s =>
      (s.1.backlash .x, s.1.queued.map (fun b => (b.steps .x, b.backlashMotion)), s.2.queued.length)) =
        some (0, [(5, true), (10, false), (-5, true), (-10, false)], 3) := by decide +kernel
  obtain ⟨s, hs, hvalues⟩ := Option.map_eq_some_iff.1 hrun
  simp only [Prod.mk.injEq] at hvalues
  obtain ⟨hzero, hblocks, hlength⟩ := hvalues
  refine ⟨s, hs, hzero, hblocks, fun h => ?_⟩
  have hcount := congrArg List.length hblocks
  rw [List.length_map, h.queued, hlength] at hcount
  exact absurd hcount (by decide)

end Grbl.Motion
