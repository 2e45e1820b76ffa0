import Mathlib
import Grbl.Motion.Backlash

/-!
# Homing of a cycle

`machine_limits.c`: `homing_cycle` without kinematics and auto squaring. Floats are exact.

* `HomingConfig`, `Motion`, `Sys`, `CycleVars` : the settings, a motion that is planned, the state, the variables;
* `approach`, `runPhase`, `homingLoop`, `limitsSetMachinePositions`, `homingCycle` : the function, phase by phase;
* `Completed` : what is promised of the axes; `PhaseDone`, `runPhase_done` : what a phase does;
* `homingLoop_steady` : the phases when no axis drops out any more; `completed_iff`; `no_locate_rate_not_homed`.
-/

namespace Grbl.Limits.Homing
open Motion (lround)
open scoped Grbl.Lib.Literal Grbl.Lib.OrderedField

/-- `homing_mode_t` -/
inductive HomingMode
  | seek | locate | pulloff
  deriving DecidableEq

section
variable {K : Type*} [Field K] [LinearOrder K] [FloorRing K]

/-- The settings, `hal.homing.get_feedrate` and `homing_pulloff`. -/
structure HomingConfig (K : Type*) where
  getFeedrate : Axis → HomingMode → K
  homingPulloff : Axis → K
  maxTravel : Axis → K
  stepsPerMm : Axis → K
  isRotary : Axis → Bool
  dirMask : Axis → Bool
  forceSetOrigin : Bool
  locateCycles : ℕ

structure Motion (K : Type*) where
  axes : Axis → Bool
  mode : HomingMode
  target : Axis → K
  feedRateSqr : K

/-- `sys`, and the motions that have been made, last one first. -/
structure Sys (K : Type*) where
  position : Axis → ℤ
  homePosition : Axis → K
  homed : Axis → Bool
  motions : List (Motion K) := []

/-- What one turn of the loop that waits for the end of a motion finds, and the switches 2 ms after an event. -/
structure Poll where
  homingState : Axis → Bool
  reset : Bool := false
  safetyDoor : Bool := false
  cycleComplete : Bool := false
  engaged : Axis → Bool := fun _ => false

/-- What a phase meets: the turns of the loop, and where the axes are when an approach ends. -/
structure Phase where
  polls : List Poll
  reached : Axis → ℤ

/-- The variables of `homing_cycle`. -/
structure CycleVars (K : Type*) where
  cycle : Axis → Bool
  mode : HomingMode
  distance : Axis → K
  homingRate : Axis → K
  homingRateSqr : K
  homed : Axis → Bool := fun _ => false
  sys : Sys K

def homingAxisSearchScalar : K := 3 / 2

def homingAxisLocateScalar : K := 10

variable (cfg : HomingConfig K)

/-- The loop that waits for the end of a motion, with `axislock`; `false` when an alarm is raised. -/
def approach (cycle : Axis → Bool) (mode : HomingMode) : (Axis → Bool) → List Poll → Bool
  | _, [] => false
  | axislock, p :: ps =>
      let axislock := if mode = .pulloff then axislock else fun i => axislock i && !p.homingState i
      if p.reset ∨ p.safetyDoor ∨ p.cycleComplete then
        !(p.reset || p.safetyDoor || decide (mode = .pulloff ∧ ∃ i, p.engaged i && cycle i) || decide (mode ≠ .pulloff ∧ p.cycleComplete))
      else if ∃ i, axislock i then approach cycle mode axislock ps
      else true

namespace CycleVars

/-- The target as it is set up first. -/
def setUp (l : CycleVars K) (i : Axis) : K :=
  if l.cycle i then
    if cfg.dirMask i then (if l.mode = .pulloff then l.distance i else -l.distance i)
    else if l.mode = .pulloff then -l.distance i else l.distance i
  else l.sys.position i / cfg.stepsPerMm i

def cycleTime (l : CycleVars K) : K :=
  Axis.all.reverse.foldl (fun t i => if l.cycle i then max t (|l.setUp cfg i| / l.homingRate i) else t) 0

def target (l : CycleVars K) (i : Axis) : K :=
  if l.mode ≠ .pulloff ∧ l.cycle i then
    if l.setUp cfg i ≥ 0 then l.homingRate i * l.cycleTime cfg else -(l.homingRate i * l.cycleTime cfg)
  else l.setUp cfg i

/-- The motion of a phase: a pull-off is completed, an approach is stopped somewhere. -/
def move (p : Phase) (l : CycleVars K) : Sys K :=
  { l.sys with
    position := fun i =>
      if l.cycle i then if l.mode = .pulloff then lround (l.target cfg i * cfg.stepsPerMm i) else p.reached i
      else l.sys.position i
    motions := ⟨l.cycle, l.mode, l.target cfg, l.homingRateSqr⟩ :: l.sys.motions }

/-- One turn of the loop over the phases; `none` when it returns false. -/
def runPhase (p : Phase) (l : CycleVars K) : Option (CycleVars K) :=
  if approach l.cycle l.mode l.cycle p.polls then
    let mode := if l.mode = .pulloff then .locate else .pulloff
    some {
      cycle := fun i => l.cycle i && decide (cfg.getFeedrate i mode ≠ 0)
      mode := mode
      distance := fun i =>
        if l.cycle i then cfg.homingPulloff i * (if mode = .locate then homingAxisLocateScalar else 1) else l.distance i
      homingRate := fun i => if l.cycle i then cfg.getFeedrate i mode else l.homingRate i
      homingRateSqr := ∑ i, if l.cycle i then cfg.getFeedrate i mode * cfg.getFeedrate i mode else 0
      homed := l.cycle
      sys := l.move cfg p }
  else none

end CycleVars

/-- The loop over the phases, with `n_cycle`. -/
def homingLoop : ℕ → CycleVars K → List Phase → Option (CycleVars K)
  | _, _, [] => none
  | nCycle, l, p :: ps =>
      (l.runPhase cfg p).bind fun l =>
        if l.homingRateSqr > 0 ∧ ∃ i, l.cycle i then
          match nCycle with
          | 0 => some l
          | nCycle + 1 => homingLoop nCycle l ps
        else some l

/-- `sys.home_position` as it is set for an axis. -/
def machinePosition (i : Axis) : K :=
  if cfg.forceSetOrigin then 0
  else if cfg.dirMask i then cfg.maxTravel i + cfg.homingPulloff i
  else -cfg.homingPulloff i

/-- `sys.position` as it is set. -/
def machineSteps (i : Axis) : ℤ := if cfg.forceSetOrigin then 0 else lround (machinePosition cfg i * cfg.stepsPerMm i)

/-- `limits_set_machine_positions` with the pull-off. -/
def limitsSetMachinePositions (cycle : Axis → Bool) (s : Sys K) : Sys K :=
  { s with
    homePosition := fun i => if cycle i then machinePosition cfg i else s.homePosition i
    position := fun i => if cycle i then machineSteps cfg i else s.position i }

/-- How far the switches are looked for. -/
def searchDistance (i : Axis) : K :=
  (if cfg.isRotary i then if cfg.maxTravel i < 0 then cfg.maxTravel i else -360 else cfg.maxTravel i) * -homingAxisSearchScalar

def maxTravel (cycle : Axis → Bool) : K :=
  Axis.all.reverse.foldl (fun t i => if cycle i then max t (searchDistance cfg i) else t) 0

/-- The variables before the first phase. -/
def startHoming (cycle : Axis → Bool) (s : Sys K) : CycleVars K where
  cycle := cycle
  mode := .seek
  distance := searchDistance cfg
  homingRate := fun i => cfg.getFeedrate i .seek
  homingRateSqr := ∑ i, if cycle i then cfg.getFeedrate i .seek * cfg.getFeedrate i .seek else 0
  sys := s

/-- `homing_cycle`; `none` when it returns false. -/
def homingCycle (cycle : Axis → Bool) (phases : List Phase) (s : Sys K) : Option (Sys K) :=
  if ∃ i, cycle i ∧ cfg.getFeedrate i .seek = 0 then none
  else if maxTravel cfg cycle = 0 then some s
  else
    (homingLoop cfg (2 * cfg.locateCycles + 1) (startHoming cfg cycle s) phases).map fun l =>
      { limitsSetMachinePositions cfg l.cycle l.sys with homed := fun i => s.homed i || l.homed i }

/-! ## What is promised -/

def Sys.lastMotion (s : Sys K) (i : Axis) : Option (Motion K) := s.motions.find? fun m => m.axes i

/-- The way of the pull-off, away from the switch. -/
def pullOff (i : Axis) : K := if cfg.dirMask i then cfg.homingPulloff i else -cfg.homingPulloff i

def PulledOff (s : Sys K) (i : Axis) : Prop :=
  ∃ m, s.lastMotion i = some m ∧ m.mode = .pulloff ∧ m.target i = pullOff cfg i

/-- Where the pull-off ends the axis is where it should be, and the home position is set. -/
def AlreadySet (s : Sys K) (i : Axis) : Prop :=
  lround (pullOff cfg i * cfg.stepsPerMm i) = machineSteps cfg i ∧ s.homePosition i = machinePosition cfg i

structure Completed (cycle : Axis → Bool) (s s' : Sys K) : Prop where
  homed : ∀ i, s'.homed i = (s.homed i || cycle i)
  position : ∀ i, s'.position i = if cycle i then machineSteps cfg i else s.position i
  homePosition : ∀ i, s'.homePosition i = if cycle i then machinePosition cfg i else s.homePosition i
  pulledOff : ∀ i, cycle i → PulledOff cfg s' i

end

section
variable {K : Type*} [Field K] [LinearOrder K] [IsStrictOrderedRing K] [FloorRing K] {cfg : HomingConfig K}

/-! ## One phase -/

structure PhaseDone (cfg : HomingConfig K) (l l' : CycleVars K) : Prop where
  homed : l'.homed = l.cycle
  mode : l'.mode = if l.mode = .pulloff then .locate else .pulloff
  cycle : ∀ i, l'.cycle i = (l.cycle i && decide (cfg.getFeedrate i l'.mode ≠ 0))
  distance : l'.mode = .pulloff → ∀ i, l.cycle i → l'.distance i = cfg.homingPulloff i
  more : l'.homingRateSqr > 0 ↔ ∃ i, l'.cycle i
  homePosition : l'.sys.homePosition = l.sys.homePosition
  others : ∀ i, l.cycle i = false → l'.sys.position i = l.sys.position i ∧ l'.sys.lastMotion i = l.sys.lastMotion i
  motion : ∀ i, l.cycle i → ∃ m, l'.sys.lastMotion i = some m ∧ m.mode = l.mode
  pulledOff : l.mode = .pulloff → ∀ i, l.cycle i → l.distance i = cfg.homingPulloff i →
    PulledOff cfg l'.sys i ∧ l'.sys.position i = lround (pullOff cfg i * cfg.stepsPerMm i)

omit [Field K] [LinearOrder K] [IsStrictOrderedRing K] [FloorRing K] in
theorem lastMotion_cons (s : Sys K) (m : Motion K) (p : Axis → ℤ) (i : Axis) :
    Sys.lastMotion { s with position := p, motions := m :: s.motions } i = if m.axes i then some m else s.lastMotion i := by
  rw [Sys.lastMotion, List.find?_cons]
  cases m.axes i <;> rfl

omit [FloorRing K] in
/-- The rates are squared and added up: the sum tells whether one is left. -/
theorem sum_rates_pos (rate : Axis → K) (cycle : Axis → Bool) :
    (∑ i, if cycle i then rate i * rate i else 0) > 0 ↔ ∃ i, (cycle i && decide (rate i ≠ 0)) = true := by
  have hnonneg : ∀ i ∈ Finset.univ, (0 : K) ≤ if cycle i then rate i * rate i else 0 := by
    intro i _
    split
    · exact mul_self_nonneg _
    · exact le_rfl
  rw [gt_iff_lt, Finset.sum_pos_iff_of_nonneg hnonneg]
  constructor
  · rintro ⟨i, -, hi⟩
    split at hi
    · rename_i hcycle
      exact ⟨i, by rw [hcycle, Bool.true_and, decide_eq_true_eq]; exact fun h0 => by simp [h0] at hi⟩
    · exact absurd hi (lt_irrefl 0)
  · rintro ⟨i, hi⟩
    obtain ⟨hcycle, hrate⟩ := Bool.and_eq_true_iff.1 hi
    exact ⟨i, Finset.mem_univ i, by rw [if_pos hcycle]; exact mul_self_pos.2 (of_decide_eq_true hrate)⟩

omit [IsStrictOrderedRing K] [FloorRing K] in
theorem target_pulloff {l : CycleVars K} {i : Axis} (hmode : l.mode = .pulloff) (hcycle : l.cycle i = true)
    (hdistance : l.distance i = cfg.homingPulloff i) : l.target cfg i = pullOff cfg i := by
  rw [CycleVars.target, if_neg fun h => h.1 hmode, CycleVars.setUp, if_pos hcycle, if_pos hmode, if_pos hmode, hdistance, pullOff]

theorem runPhase_done {p : Phase} {l l' : CycleVars K} (h : l.runPhase cfg p = some l') : PhaseDone cfg l l' := by
  rw [CycleVars.runPhase] at h
  split at h
  · obtain rfl := Option.some.inj h
    refine ⟨rfl, rfl, fun _ => rfl, fun hmode i hcycle => ?_,
      sum_rates_pos (fun i => cfg.getFeedrate i (if l.mode = .pulloff then .locate else .pulloff)) l.cycle, rfl, fun i hi => ⟨if_neg (by simp [hi]), ?_⟩,
      fun i hi => ⟨_, (lastMotion_cons _ _ _ _).trans (if_pos hi), rfl⟩, fun hmode i hi hdistance => ?_⟩
    · have hne : ¬ (if l.mode = .pulloff then HomingMode.locate else .pulloff) = .locate := by
        rw [show (if l.mode = .pulloff then HomingMode.locate else .pulloff) = .pulloff from hmode]
        exact HomingMode.noConfusion
      simp only [hcycle, if_true, hne, if_false, mul_one]
    · exact (lastMotion_cons _ _ _ _).trans (if_neg (by simp [hi]))
    · refine ⟨⟨_, (lastMotion_cons _ _ _ _).trans (if_pos hi), hmode, target_pulloff hmode hi hdistance⟩, ?_⟩
      show (if l.cycle i then if l.mode = .pulloff then _ else _ else _ : ℤ) = _
      rw [if_pos hi, if_pos hmode, target_pulloff hmode hi hdistance]
  · exact absurd h (by simp)

/-! ## The phases -/

/-- The loop when all the axes left have rates: they stay, and are homed after the last pull-off. -/
theorem homingLoop_steady : ∀ (phases : List Phase) (n : ℕ) (l l' : CycleVars K),
    (∃ i, l.cycle i) → (∀ i, l.cycle i → cfg.getFeedrate i .pulloff ≠ 0 ∧ cfg.getFeedrate i .locate ≠ 0) →
    l.mode = .locate ∧ n % 2 = 1 ∨ l.mode = .pulloff ∧ n % 2 = 0 ∧ (∀ i, l.cycle i → l.distance i = cfg.homingPulloff i) →
    homingLoop cfg n l phases = some l' →
      l'.homed = l.cycle ∧ l'.cycle = l.cycle ∧ l'.sys.homePosition = l.sys.homePosition ∧
        (∀ i, l.cycle i = false → l'.sys.position i = l.sys.position i ∧ l'.sys.lastMotion i = l.sys.lastMotion i) ∧
          ∀ i, l.cycle i → PulledOff cfg l'.sys i
  | [], n, l, l', _, _, _, h => by
      rw [homingLoop] at h
      exact absurd h (by simp)
  | p :: ps, n, l, l', hne, hrates, hphase, h => by
      rw [homingLoop] at h
      obtain ⟨l₁, hrun, hrest⟩ := Option.bind_eq_some_iff.1 h
      have hd := runPhase_done hrun
      have hcycle : l₁.cycle = l.cycle := by
        funext i
        rw [hd.cycle, hd.mode]
        cases hi : l.cycle i with
        | false => rfl
        | true =>
            obtain ⟨hpulloff, hlocate⟩ := hrates i hi
            split
            · simp [hlocate]
            · simp [hpulloff]
      have hmore : l₁.homingRateSqr > 0 ∧ ∃ i, l₁.cycle i := ⟨hd.more.2 (by rwa [hcycle]), by rwa [hcycle]⟩
      rw [if_pos hmore] at hrest
      rcases hphase with ⟨hmode, hodd⟩ | ⟨hmode, heven, hdistance⟩
      · -- an approach is followed by a pull-off
        obtain ⟨k, rfl⟩ : ∃ k, n = k + 1 := ⟨n - 1, by omega⟩
        have hmode₁ : l₁.mode = .pulloff := by rw [hd.mode, hmode]; rfl
        obtain ⟨hhomed, hcyc, hhome, hothers, hpulled⟩ := homingLoop_steady ps k l₁ l' (by rwa [hcycle]) (by rwa [hcycle])
          (.inr ⟨hmode₁, by omega, fun i hi => hd.distance hmode₁ i (by rwa [← hcycle])⟩) hrest
        rw [hcycle] at hhomed hcyc hothers hpulled
        exact ⟨hhomed, hcyc, hhome.trans hd.homePosition,
          fun i hi => ⟨(hothers i hi).1.trans (hd.others i hi).1, (hothers i hi).2.trans (hd.others i hi).2⟩, hpulled⟩
      · have hmode₁ : l₁.mode = .locate := by rw [hd.mode, if_pos hmode]
        cases n with
        | zero =>
            obtain rfl := Option.some.inj hrest
            exact ⟨hd.homed, hcycle, hd.homePosition, hd.others, fun i hi => (hd.pulledOff hmode i hi (hdistance i hi)).1⟩
        | succ k =>
            obtain ⟨hhomed, hcyc, hhome, hothers, hpulled⟩ := homingLoop_steady ps k l₁ l' (by rwa [hcycle]) (by rwa [hcycle])
              (.inl ⟨hmode₁, by omega⟩) hrest
            rw [hcycle] at hhomed hcyc hothers hpulled
            exact ⟨hhomed, hcyc, hhome.trans hd.homePosition,
              fun i hi => ⟨(hothers i hi).1.trans (hd.others i hi).1, (hothers i hi).2.trans (hd.others i hi).2⟩, hpulled⟩

/-- What the phases make of the axes of a cycle: those without a rate for the pull-off are approached only, those without one
for locating drop out after the first pull-off. -/
structure Outcome (cfg : HomingConfig K) (cycle : Axis → Bool) (s : Sys K) (l : CycleVars K) : Prop where
  homePosition : l.sys.homePosition = s.homePosition
  others : ∀ i, cycle i = false → l.cycle i = false ∧ l.homed i = false ∧ l.sys.position i = s.position i
  approached : ∀ i, cycle i → cfg.getFeedrate i .pulloff = 0 → ¬ PulledOff cfg l.sys i
  located : ∀ i, cycle i → cfg.getFeedrate i .pulloff ≠ 0 → cfg.getFeedrate i .locate ≠ 0 →
    l.cycle i = true ∧ l.homed i = true ∧ PulledOff cfg l.sys i
  dropped : ∀ i, cycle i → cfg.getFeedrate i .pulloff ≠ 0 → cfg.getFeedrate i .locate = 0 →
    l.cycle i = false ∧ PulledOff cfg l.sys i ∧ l.sys.position i = lround (pullOff cfg i * cfg.stepsPerMm i) ∧
      ((∀ j, cycle j → cfg.getFeedrate j .pulloff ≠ 0) →
        (l.homed i = true ↔ cfg.locateCycles = 0 ∨ ∀ j, cycle j → cfg.getFeedrate j .locate = 0))

omit [LinearOrder K] [IsStrictOrderedRing K] [FloorRing K] in
theorem pulledOff_congr {s s' : Sys K} {i : Axis} (h : s'.lastMotion i = s.lastMotion i) : PulledOff cfg s' i ↔ PulledOff cfg s i := by
  rw [PulledOff, PulledOff, h]

/-- After the first approach and the first pull-off. -/
structure FirstPhases (cfg : HomingConfig K) (cycle : Axis → Bool) (s : Sys K) (l : CycleVars K) : Prop where
  mode : l.mode = .locate
  active : ∀ i, l.cycle i = (cycle i && decide (cfg.getFeedrate i .pulloff ≠ 0) && decide (cfg.getFeedrate i .locate ≠ 0))
  homed : ∀ i, l.homed i = (cycle i && decide (cfg.getFeedrate i .pulloff ≠ 0))
  more : l.homingRateSqr > 0 ↔ ∃ i, l.cycle i
  homePosition : l.sys.homePosition = s.homePosition
  others : ∀ i, cycle i = false → l.sys.position i = s.position i
  approached : ∀ i, cycle i → cfg.getFeedrate i .pulloff = 0 → ¬ PulledOff cfg l.sys i
  pulledOff : ∀ i, cycle i → cfg.getFeedrate i .pulloff ≠ 0 →
    PulledOff cfg l.sys i ∧ l.sys.position i = lround (pullOff cfg i * cfg.stepsPerMm i)

omit [IsStrictOrderedRing K] in
theorem PhaseDone.firstPhases {cycle : Axis → Bool} {s : Sys K} {l₁ l₂ : CycleVars K} (h₁ : PhaseDone cfg (startHoming cfg cycle s) l₁)
    (h₂ : PhaseDone cfg l₁ l₂) : FirstPhases cfg cycle s l₂ := by
  have hmode₁ : l₁.mode = .pulloff := h₁.mode
  have hmode₂ : l₂.mode = .locate := by rw [h₂.mode, if_pos hmode₁]
  have hcycle₁ (i : Axis) : l₁.cycle i = (cycle i && decide (cfg.getFeedrate i .pulloff ≠ 0)) := by rw [h₁.cycle, hmode₁]; rfl
  refine ⟨hmode₂, fun i => by rw [h₂.cycle, hmode₂, hcycle₁], fun i => by rw [h₂.homed, hcycle₁], h₂.more,
    h₂.homePosition.trans h₁.homePosition, fun i hi => ?_, fun i hi hrate => ?_, fun i hi hrate => ?_⟩
  · have hout : l₁.cycle i = false := by rw [hcycle₁, hi]; rfl
    exact (h₂.others i hout).1.trans (h₁.others i hi).1
  · have hout : l₁.cycle i = false := by rw [hcycle₁, hi, hrate]; simp
    obtain ⟨m, hlast, hseek⟩ := h₁.motion i hi
    rw [pulledOff_congr (h₂.others i hout).2]
    rintro ⟨m', hlast', hpulloff, -⟩
    obtain rfl := Option.some.inj (hlast.symm.trans hlast')
    exact HomingMode.noConfusion (hseek.symm.trans hpulloff)
  · have hin : l₁.cycle i = true := by rw [hcycle₁, hi, decide_eq_true hrate]; rfl
    exact h₂.pulledOff hmode₁ i hin (h₁.distance hmode₁ i hi)

omit [IsStrictOrderedRing K] in
theorem FirstPhases.outcome {cycle : Axis → Bool} {s : Sys K} {l : CycleVars K} (h : FirstPhases cfg cycle s l)
    (hend : cfg.locateCycles = 0 ∨ ¬ ∃ i, l.cycle i) : Outcome cfg cycle s l := by
  refine ⟨h.homePosition, fun i hi => ⟨by rw [h.active, hi]; rfl, by rw [h.homed, hi]; rfl, h.others i hi⟩, h.approached,
    fun i hi hpulloff hlocate => ⟨by simp [h.active, hi, hpulloff, hlocate], by simp [h.homed, hi, hpulloff], (h.pulledOff i hi hpulloff).1⟩,
    fun i hi hpulloff hlocate => ⟨by simp [h.active, hlocate], (h.pulledOff i hi hpulloff).1, (h.pulledOff i hi hpulloff).2,
      fun hall => iff_of_true (by simp [h.homed, hi, hpulloff]) (hend.imp_right fun hnone j hj => ?_)⟩⟩
  by_contra hne
  exact hnone ⟨j, by simp [h.active, hj, hall j hj, hne]⟩

theorem FirstPhases.steady {cycle : Axis → Bool} {s : Sys K} {l l' : CycleVars K} (h : FirstPhases cfg cycle s l) {phases : List Phase} {k : ℕ}
    (hk : cfg.locateCycles = k + 1) (hmore : ∃ i, l.cycle i) (hrest : homingLoop cfg (2 * k + 1) l phases = some l') :
    Outcome cfg cycle s l' := by
  have hcycle (i : Axis) : l.cycle i = true ↔ cycle i = true ∧ cfg.getFeedrate i .pulloff ≠ 0 ∧ cfg.getFeedrate i .locate ≠ 0 := by
    rw [h.active, Bool.and_eq_true, Bool.and_eq_true, decide_eq_true_eq, decide_eq_true_eq, and_assoc]
  obtain ⟨hhomed, hcyc, hhome, hothers, hpulled⟩ := homingLoop_steady phases (2 * k + 1) l l' hmore (fun i hi => ((hcycle i).1 hi).2)
    (.inl ⟨h.mode, by omega⟩) hrest
  have hout {i : Axis} (hi : ¬ (cycle i = true ∧ cfg.getFeedrate i .pulloff ≠ 0 ∧ cfg.getFeedrate i .locate ≠ 0)) : l.cycle i = false :=
    Bool.eq_false_iff.2 fun h0 => hi ((hcycle i).1 h0)
  refine ⟨hhome.trans h.homePosition, fun i hi => ?_, fun i hi hpulloff => ?_, fun i hi hpulloff hlocate => ?_,
    fun i hi hpulloff hlocate => ?_⟩
  · have hi' : l.cycle i = false := hout fun h0 => Bool.noConfusion (hi.symm.trans h0.1)
    exact ⟨by rw [hcyc, hi'], by rw [hhomed, hi'], (hothers i hi').1.trans (h.others i hi)⟩
  · rw [pulledOff_congr (hothers i (hout fun h0 => h0.2.1 hpulloff)).2]
    exact h.approached i hi hpulloff
  · have hi' := (hcycle i).2 ⟨hi, hpulloff, hlocate⟩
    exact ⟨by rw [hcyc, hi'], by rw [hhomed, hi'], hpulled i hi'⟩
  · have hi' : l.cycle i = false := hout fun h0 => h0.2.2 hlocate
    refine ⟨by rw [hcyc, hi'], (pulledOff_congr (hothers i hi').2).2 (h.pulledOff i hi hpulloff).1,
      (hothers i hi').1.trans (h.pulledOff i hi hpulloff).2, fun _ => iff_of_false (by rw [hhomed, hi']; exact Bool.noConfusion) ?_⟩
    rintro (h0 | hall)
    · omega
    · obtain ⟨j, hj⟩ := hmore
      exact ((hcycle j).1 hj).2.2 (hall j ((hcycle j).1 hj).1)

theorem homingLoop_outcome {cycle : Axis → Bool} {s : Sys K} {phases : List Phase} {l : CycleVars K}
    (h : homingLoop cfg (2 * cfg.locateCycles + 1) (startHoming cfg cycle s) phases = some l) : Outcome cfg cycle s l := by
  cases phases with
  | nil =>
      rw [homingLoop] at h
      exact absurd h (by simp)
  | cons p₁ ps₁ =>
      rw [homingLoop] at h
      obtain ⟨l₁, hrun₁, hrest₁⟩ := Option.bind_eq_some_iff.1 h
      have h₁ := runPhase_done hrun₁
      have hmode₁ : l₁.mode = .pulloff := h₁.mode
      split at hrest₁
      · cases ps₁ with
        | nil =>
            have hnone : homingLoop cfg (2 * cfg.locateCycles) l₁ [] = some l := hrest₁
            rw [homingLoop] at hnone
            exact absurd hnone (by simp)
        | cons p₂ ps₂ =>
            have hrest₂ : homingLoop cfg (2 * cfg.locateCycles) l₁ (p₂ :: ps₂) = some l := hrest₁
            rw [homingLoop] at hrest₂
            obtain ⟨l₂, hrun₂, hrest₂⟩ := Option.bind_eq_some_iff.1 hrest₂
            have hfirst := h₁.firstPhases (runPhase_done hrun₂)
            split at hrest₂
            · rename_i hmore
              cases hL : cfg.locateCycles with
              | zero =>
                  rw [hL] at hrest₂
                  obtain rfl := Option.some.inj hrest₂
                  exact hfirst.outcome (.inl hL)
              | succ k =>
                  rw [hL] at hrest₂
                  exact hfirst.steady hL hmore.2 hrest₂
            · rename_i hmore
              obtain rfl := Option.some.inj hrest₂
              exact hfirst.outcome (.inr fun h0 => hmore ⟨hfirst.more.2 h0, h0⟩)
      · -- no axis can be pulled off
        rename_i hmore
        obtain rfl := Option.some.inj hrest₁
        have hnone (i : Axis) (hi : cycle i = true) : cfg.getFeedrate i .pulloff = 0 := by
          by_contra hne
          have hin : l₁.cycle i = true := by rw [h₁.cycle, hmode₁, decide_eq_true hne, Bool.and_true]; exact hi
          exact hmore ⟨h₁.more.2 ⟨i, hin⟩, ⟨i, hin⟩⟩
        refine ⟨h₁.homePosition, fun i hi => ⟨?_, ?_, (h₁.others i hi).1⟩, fun i hi _ => ?_, fun i hi hne => absurd (hnone i hi) hne,
          fun i hi hne => absurd (hnone i hi) hne⟩
        · rw [h₁.cycle]
          exact Bool.and_eq_false_iff.2 (.inl hi)
        · rw [h₁.homed]
          exact hi
        · obtain ⟨m, hlast, hseek⟩ := h₁.motion i hi
          rintro ⟨m', hlast', hpulloff, -⟩
          obtain rfl := Option.some.inj (hlast.symm.trans hlast')
          exact HomingMode.noConfusion (hseek.symm.trans hpulloff)

/-! ## The cycle -/

/-- A cycle that ends well is as promised exactly if all the rates are there, or the positions are right without being set. -/
theorem completed_iff {cycle : Axis → Bool} {phases : List Phase} {s s' : Sys K} (htravel : maxTravel cfg cycle ≠ 0)
    (h : homingCycle cfg cycle phases s = some s') :
    Completed cfg cycle s s' ↔ ∀ i, cycle i → cfg.getFeedrate i .pulloff ≠ 0 ∧ (cfg.getFeedrate i .locate ≠ 0 ∨
      (s.homed i ∨ cfg.locateCycles = 0 ∨ ∀ j, cycle j → cfg.getFeedrate j .locate = 0) ∧ AlreadySet cfg s i) := by
  rw [homingCycle] at h
  by_cases hseek : ∃ i, cycle i ∧ cfg.getFeedrate i .seek = 0
  · rw [if_pos hseek] at h
    exact absurd h (by simp)
  · rw [if_neg hseek, if_neg htravel] at h
    obtain ⟨l, hloop, rfl⟩ := Option.map_eq_some_iff.1 h
    have ho := homingLoop_outcome hloop
    constructor
    · intro hc
      have hpulloff (i : Axis) (hi : cycle i) : cfg.getFeedrate i .pulloff ≠ 0 := fun h0 => ho.approached i hi h0 (hc.pulledOff i hi)
      refine fun i hi => ⟨hpulloff i hi, or_iff_not_imp_left.2 fun hlocate => ?_⟩
      obtain ⟨hactive, -, hposition, hhomed⟩ := ho.dropped i hi (hpulloff i hi) (not_not.1 hlocate)
      have hset := hc.homed i
      have hpos := hc.position i
      have hhome := hc.homePosition i
      rw [limitsSetMachinePositions, hi, if_pos rfl] at hpos hhome
      simp only [hactive, Bool.false_eq_true, if_false] at hpos hhome
      refine ⟨?_, hposition.symm.trans hpos, ?_⟩
      · rw [hi, Bool.or_true, Bool.or_eq_true] at hset
        exact hset.imp_right (hhomed hpulloff).1
      · rw [← hhome, ho.homePosition]
    · intro hall
      have hpulloff (i : Axis) (hi : cycle i) := (hall i hi).1
      -- an axis that is homed, or that drops out where it should be
      have haxis (i : Axis) (hi : cycle i) : (s.homed i || l.homed i) = true ∧
          (if l.cycle i then machineSteps cfg i else l.sys.position i) = machineSteps cfg i ∧
            (if l.cycle i then machinePosition cfg i else l.sys.homePosition i) = machinePosition cfg i ∧ PulledOff cfg l.sys i := by
        by_cases hlocate : cfg.getFeedrate i .locate = 0
        · obtain ⟨hactive, hpulled, hposition, hhomed⟩ := ho.dropped i hi (hpulloff i hi) hlocate
          obtain ⟨hflag, hsteps, hhome⟩ := (hall i hi).2.resolve_left (not_not.2 hlocate)
          rw [hactive, if_neg Bool.noConfusion, if_neg Bool.noConfusion, hposition, ho.homePosition, Bool.or_eq_true]
          exact ⟨hflag.imp_right (hhomed hpulloff).2, hsteps, hhome, hpulled⟩
        · obtain ⟨hactive, hhomed, hpulled⟩ := ho.located i hi (hpulloff i hi) hlocate
          rw [hactive, hhomed, Bool.or_true, if_pos rfl, if_pos rfl]
          exact ⟨rfl, rfl, rfl, hpulled⟩
      refine ⟨fun i => ?_, fun i => ?_, fun i => ?_, fun i hi => (haxis i hi).2.2.2⟩
      · show (s.homed i || l.homed i) = _
        cases hi : cycle i with
        | true => rw [(haxis i hi).1, Bool.or_true]
        | false => rw [(ho.others i hi).2.1]
      · show (if l.cycle i then machineSteps cfg i else l.sys.position i) = _
        cases hi : cycle i with
        | true => exact (haxis i hi).2.1
        | false => rw [(ho.others i hi).1, (ho.others i hi).2.2]
      · show (if l.cycle i then machinePosition cfg i else l.sys.homePosition i) = _
        cases hi : cycle i with
        | true => exact (haxis i hi).2.2.1
        | false => rw [(ho.others i hi).1, ho.homePosition]

end

/-! ## Examples -/

/-- Travels of 100 mm, a pull-off of 1 mm, 10 steps a mm. -/
def machine (locateRate : Axis → ℚ) : HomingConfig ℚ where
  getFeedrate := fun i mode => if mode = .locate then locateRate i else 600
  homingPulloff := fun _ => 1
  maxTravel := fun _ => -100
  stepsPerMm := fun _ => 10
  isRotary := fun _ => false
  dirMask := fun i => i = .x
  forceSetOrigin := false
  locateCycles := 1

def unhomed : Sys ℚ where
  position := fun _ => 0
  homePosition := fun _ => 0
  homed := fun _ => false

/-- X and Y reach their switches one after the other. -/
def approached : Phase where
  polls := [⟨fun i => i = .y, false, false, false, fun _ => false⟩, ⟨fun i => i = .x, false, false, false, fun _ => false⟩]
  reached := fun _ => 0

def backedOff : Phase where
  polls := [⟨fun _ => false, false, false, true, fun _ => false⟩]
  reached := fun _ => 0

def onlyXY (i : Axis) : Bool := i = .x ∨ i = .y

theorem completed_iff_xy :
    ∃ s', homingCycle (machine fun _ => 60) onlyXY [approached, backedOff, approached, backedOff] unhomed = some s' ∧
      Completed (machine fun _ => 60) onlyXY unhomed s' := by
  have hends : (homingCycle (machine fun _ => 60) onlyXY [approached, backedOff, approached, backedOff] unhomed).isSome := by
    decide +kernel
  obtain ⟨s', hs'⟩ := Option.isSome_iff_exists.1 hends
  have hpulloff : (600 : ℚ) ≠ 0 := by decide
  have hlocate : (60 : ℚ) ≠ 0 := by decide
  exact ⟨s', hs', (completed_iff (by decide +kernel) hs').2 fun _ _ => ⟨hpulloff, .inl hlocate⟩⟩

/-- Without a locate rate for X the cycle ends well, and X, which has been pulled off, is not homed. -/
theorem no_locate_rate_not_homed :
    ∃ s', homingCycle (machine fun i => if i = .x then 0 else 60) onlyXY
        [approached, backedOff, { approached with polls := [⟨fun i => i = .y, false, false, false, fun _ => false⟩] }, backedOff]
        unhomed = some s' ∧
      s'.homed .x = false ∧ ¬ Completed (machine fun i => if i = .x then 0 else 60) onlyXY unhomed s' := by
  have hhomed : (homingCycle (machine fun i => if i = .x then 0 else 60) onlyXY
      [approached, backedOff, { approached with polls := [⟨fun i => i = .y, false, false, false, fun _ => false⟩] }, backedOff]
      unhomed).map (fun s' => s'.homed .x) = some false := by decide +kernel
  obtain ⟨s', hs', hx⟩ := Option.map_eq_some_iff.1 hhomed
  refine ⟨s', hs', hx, fun hc => ?_⟩
  exact Bool.noConfusion (hx.symm.trans (hc.homed .x))

end Grbl.Limits.Homing
