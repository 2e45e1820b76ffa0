import Mathlib
import Grbl.Stepper2.Motor

/-!
# Finite moves

Every tick outputs a step, also the ones that only change the state: a finite move makes two steps more than commanded, and another one
where it cruises early.

* `decelTicks` : how many steps are left of the ramp down;
* `Progress` : where a move is after so many steps; `Progress.run` : a tick keeps it;
* `Exact`, `never_exact`; `two_steps_make_four`.
-/

namespace Grbl.Stepper2

/-- The ticks of the ramp down before the last one. -/
def decelTicks (denom : ℤ) : ℕ := if denom < 2 then 0 else ((denom - 1) / 4).toNat

/-- The denominator after so many steps up. -/
def denomAt (k : ℕ) : ℤ := int32 (4 * k + 1)

theorem denomAt_zero : denomAt 0 = 1 := by decide

theorem int32_denomAt (k : ℕ) : int32 (denomAt k + 4) = denomAt (k + 1) := by
  unfold denomAt int32
  push_cast
  omega

theorem decelTicks_denomAt {k : ℕ} (hk : k ≤ 2 ^ 31) : ∃ lost, decelTicks (denomAt k) + lost = k ∧ (lost = 0 ∨ 2 ^ 29 ≤ lost) := by
  have hle : decelTicks (denomAt k) ≤ k ∧ (decelTicks (denomAt k) = k ∨ decelTicks (denomAt k) + 2 ^ 29 ≤ k) := by
    unfold decelTicks denomAt int32
    split <;> omega
  exact ⟨k - decelTicks (denomAt k), by omega, by omega⟩

theorem denomAt_mod (k : ℕ) : denomAt k % 4 = 1 ∧ denomAt k < 2 ^ 31 := by
  unfold denomAt int32
  omega

theorem decelTicks_sub {denom : ℤ} (hmod : denom % 4 = 1) (hlow : ¬denom < 2) (hhigh : denom < 2 ^ 31) :
    decelTicks (int32 (denom - 4)) + 1 = decelTicks denom ∧ int32 (denom - 4) % 4 = 1 ∧ int32 (denom - 4) < 2 ^ 31 := by
  unfold decelTicks int32
  rw [if_neg hlow]
  split <;> omega

namespace Motor

section
variable {m : Motor} {n o : ℕ}

/-- Where a move of `n` steps is after `o` steps. Up to three more may be made, unless the denominator overflows: then many are lost. -/
inductive Progress (n o : ℕ) (m : Motor) : Prop
  | accel (state : m.state = .accel) (stepNo : m.stepNo = o) (denom : m.denom = denomAt o) (le : o ≤ m.stepRun) (half : 2 * m.stepRun ≤ n)
      (down : m.stepDown + m.stepRun = n)
  | run (state : m.state = .run) (k early : ℕ) (stepNo : m.stepNo = o) (denom : m.denom = denomAt k) (le : o ≤ m.stepDown)
      (down : m.stepDown + k = n + early) (early_le : early ≤ 1) (early_le_k : early ≤ k) (k_le : k ≤ 2 ^ 31)
  | decel (state : m.state = .decel) (lost early : ℕ) (mod : m.denom % 4 = 1) (lt : m.denom < 2 ^ 31)
      (left : o + decelTicks m.denom + 1 + lost = n + 2 + early) (early_le : early ≤ 1) (lost_iff : lost = 0 ∨ 2 ^ 29 ≤ lost)
  | idle (state : m.state = .idle) (lost early : ℕ) (left : o + lost = n + 2 + early) (early_le : early ≤ 1)
      (lost_iff : lost = 0 ∨ 2 ^ 29 ≤ lost)

/-- A finite move of `n` steps. -/
structure Finite (n : ℕ) (m : Motor) : Prop where
  ptype : m.ptype ≠ .infiniteSteps
  move : m.move = n

theorem Finite.cruise (h : Finite n m) : m.cruise = .run := if_neg h.ptype

theorem wrap32_succ (h : o + 1 < 2 ^ 32) : wrap32 ((o : ℤ) + 1) = o + 1 := wrap32_of_lt h

theorem Progress.accelTick (hm : Finite n m) (hn : n < 2 ^ 32) (hstate : m.state = .accel) (hno : m.stepNo = o) (hdenom : m.denom = denomAt o)
    (hle : o ≤ m.stepRun) (hhalf : 2 * m.stepRun ≤ n) (hdown : m.stepDown + m.stepRun = n) : Progress n (o + 1) m.run := by
  have hmove := hm.move
  have hnext : wrap32 ((o : ℤ) + 1) = o + 1 := wrap32_succ (by omega)
  by_cases hrun : m.stepNo = m.stepRun
  · by_cases hdecel : m.stepRun = m.stepDown
    · have hadvance : m.advance = { m with state := .decel } := by simp only [advance, hstate, hrun, hdecel, ne_eq, not_true, if_true, if_false]
      obtain ⟨lost, hticks, hlost⟩ := decelTicks_denomAt (k := o) (by omega)
      obtain ⟨hmod, hlt⟩ := denomAt_mod o
      have hdenom' : m.run.denom = denomAt o := by rw [run_denom, hadvance, hdenom]
      refine .decel (by rw [run_state, hadvance]) lost 0 (hdenom' ▸ hmod) (hdenom' ▸ hlt) ?_ (by decide) hlost
      rw [hdenom']
      omega
    · have hadvance : m.advance = { m with state := .run, delay := m.minDelay } := by
        simp only [advance, hstate, hrun, hdecel, hm.cruise, ne_eq, not_true, if_false]
      refine .run (by rw [run_state, hadvance]) o 0 ?_ (by rw [run_denom, hadvance, hdenom]) ?_ ?_ (by decide) (Nat.zero_le _) (by omega)
      · rw [run_stepNo, hadvance, hno, hnext]
      · rw [run_stepDown, hadvance]
        dsimp only
        omega
      · rw [run_stepDown, hadvance]
        dsimp only
        omega
  · have hup : int32 (m.denom + 4) = denomAt (o + 1) := by rw [hdenom, int32_denomAt]
    by_cases hearly : roundDelay (accelC64 m.c64 (int32 (m.denom + 4))) < m.minDelay
    · have hadvance : m.advance = { m with
          denom := int32 (m.denom + 4)
          c64 := accelC64 m.c64 (int32 (m.denom + 4))
          state := .run
          stepDown := wrap32 (m.move - m.stepNo)
          delay := m.minDelay } := by
        simp only [advance, hstate, hrun, hearly, hm.cruise, ne_eq, not_false_eq_true, if_true]
      have hdown' : wrap32 ((m.move : ℤ) - m.stepNo) = n - o := by
        rw [hmove, hno]
        unfold wrap32
        omega
      refine .run (by rw [run_state, hadvance]) (o + 1) 1 ?_ (by rw [run_denom, hadvance, hup]) ?_ ?_ le_rfl (Nat.succ_pos o) (by omega)
      · rw [run_stepNo, hadvance, hno, hnext]
      · rw [run_stepDown, hadvance]
        dsimp only
        omega
      · rw [run_stepDown, hadvance]
        dsimp only
        omega
    · have hadvance : m.advance = { m with
          denom := int32 (m.denom + 4)
          c64 := accelC64 m.c64 (int32 (m.denom + 4))
          delay := roundDelay (accelC64 m.c64 (int32 (m.denom + 4))) } := by
        simp only [advance, hstate, hrun, hearly, ne_eq, not_false_eq_true, if_true, if_false]
      refine .accel (by rw [run_state, hadvance, hstate]) ?_ (by rw [run_denom, hadvance, hup]) ?_ ?_ ?_
      · rw [run_stepNo, hadvance, hno, hnext]
      · rw [run_stepRun, hadvance]
        exact Nat.lt_of_le_of_ne hle (hno ▸ hrun)
      · rw [run_stepRun, hadvance]
        exact hhalf
      · rw [run_stepRun, run_stepDown, hadvance]
        exact hdown

theorem Progress.runTick (hn : n < 2 ^ 32) {k early : ℕ} (hstate : m.state = .run) (hno : m.stepNo = o) (hdenom : m.denom = denomAt k)
    (hle : o ≤ m.stepDown) (hdown : m.stepDown + k = n + early) (hearly : early ≤ 1) (hearlyk : early ≤ k)
    (hk : k ≤ 2 ^ 31) : Progress n (o + 1) m.run := by
  by_cases hdecel : m.stepNo = m.stepDown
  · have hadvance : m.advance = { m with state := .decel } := by simp only [advance, hstate, hdecel, if_true]
    obtain ⟨lost, hticks, hlost⟩ := decelTicks_denomAt hk
    obtain ⟨hmod, hlt⟩ := denomAt_mod k
    have hdenom' : m.run.denom = denomAt k := by rw [run_denom, hadvance, hdenom]
    refine .decel (by rw [run_state, hadvance]) lost early (hdenom' ▸ hmod) (hdenom' ▸ hlt) ?_ hearly hlost
    rw [hdenom']
    omega
  · have hadvance : m.advance = m := by simp only [advance, hstate, hdecel, if_false]
    have hnext : wrap32 ((o : ℤ) + 1) = o + 1 := wrap32_succ (by omega)
    refine .run (by rw [run_state, hadvance, hstate]) k early ?_ (by rw [run_denom, hadvance, hdenom]) ?_ ?_ hearly hearlyk hk
    · rw [run_stepNo, hadvance, hno, hnext]
    · rw [run_stepDown, hadvance]
      omega
    · rw [run_stepDown, hadvance]
      exact hdown

theorem Progress.decelTick {lost early : ℕ} (hstate : m.state = .decel) (hmod : m.denom % 4 = 1) (hlt : m.denom < 2 ^ 31)
    (hleft : o + decelTicks m.denom + 1 + lost = n + 2 + early) (hearly : early ≤ 1) (hlost : lost = 0 ∨ 2 ^ 29 ≤ lost) :
    Progress n (o + 1) m.run := by
  by_cases hlow : m.denom < 2
  · have hidle : m.run.state = .idle := by
      rw [run_state]
      simp only [advance, hstate, hlow, if_true]
    refine .idle hidle lost early ?_ hearly hlost
    rw [decelTicks, if_pos hlow] at hleft
    omega
  · obtain ⟨hticks, hmod', hlt'⟩ := decelTicks_sub hmod hlow hlt
    have hstate' : m.run.state = .decel := by
      rw [run_state]
      simp only [advance, hstate, hlow, if_false]
    have hdenom' : m.run.denom = int32 (m.denom - 4) := by
      rw [run_denom]
      simp only [advance, hstate, hlow, if_false]
    refine .decel hstate' lost early (hdenom' ▸ hmod') (hdenom' ▸ hlt') ?_ hearly hlost
    rw [hdenom']
    omega

theorem Progress.tick (h : Progress n o m) (hm : Finite n m) (hn : n < 2 ^ 32) (hidle : m.state ≠ .idle) : Progress n (o + 1) m.run := by
  cases h with
  | accel state stepNo denom le half down => exact .accelTick hm hn state stepNo denom le half down
  | run state k early stepNo denom le down early_le early_le_k k_le =>
      exact .runTick hn state stepNo denom le down early_le early_le_k k_le
  | decel state lost early mod lt left early_le lost_iff => exact .decelTick state mod lt left early_le lost_iff
  | idle state => exact absurd state hidle

theorem advance_same (m : Motor) : m.advance.ptype = m.ptype ∧ m.advance.move = m.move ∧ m.advance.output = m.output := by
  unfold advance
  split
  · split
    · dsimp only
      split <;> exact ⟨rfl, rfl, rfl⟩
    · split <;> exact ⟨rfl, rfl, rfl⟩
  · split <;> exact ⟨rfl, rfl, rfl⟩
  · split <;> exact ⟨rfl, rfl, rfl⟩
  · split <;> exact ⟨rfl, rfl, rfl⟩
  · exact ⟨rfl, rfl, rfl⟩
  · exact ⟨rfl, rfl, rfl⟩

theorem Finite.tick (h : Finite n m) : Finite n m.run := by
  obtain ⟨hptype, hmove, -⟩ := advance_same m
  exact ⟨by rw [run_ptype, hptype]; exact h.ptype, by rw [run_move, hmove]; exact h.move⟩

theorem Progress.ticks (h : Progress n 0 m) (hm : Finite n m) (hn : n < 2 ^ 32) (k : ℕ) : (∀ j < k, (Motor.run^[j] m).state ≠ .idle) →
    Progress n k (Motor.run^[k] m) ∧ Finite n (Motor.run^[k] m) ∧ (Motor.run^[k] m).output = m.output + k := by
  induction k with
  | zero => exact fun _ => ⟨h, hm, rfl⟩
  | succ k ih =>
      intro hidle
      obtain ⟨hprogress, hfinite, houtput⟩ := ih fun j hj => hidle j (Nat.lt_succ_of_lt hj)
      rw [Function.iterate_succ_apply']
      refine ⟨hprogress.tick hfinite hn (hidle k (Nat.lt_succ_self k)), hfinite.tick, ?_⟩
      rw [run_output, (advance_same _).2.2, houtput]
      rfl

end

/-! ## Moves -/

section
variable {m : Motor} {move speed : ℚ} {type : PositionType}

/-- The move outputs as many steps as it is long, in its direction, and then the motor is idle and reported to have stopped, once. -/
def Exact (m : Motor) (move speed : ℚ) (type : PositionType) : Prop :=
  let s := (motorMove m move speed type).1
  let n := moveSteps m move type
  ∃ k, (run^[k] s).state = .idle ∧ (∀ j < k, (run^[j] s).state ≠ .idle) ∧ (run^[k] s).output = s.output + n ∧
    (run^[k] s).position = m.position + (if move < 0 then -(n : ℤ) else n) ∧ (run^[k] s).stopped = s.stopped + 1

theorem moveSteps_lt (m : Motor) (move : ℚ) (type : PositionType) : moveSteps m move type < 2 ^ 32 := by
  have hlt (x : ℚ) : toUInt32 x < 2 ^ 32 := (Nat.min_le_right _ _).trans_lt (by decide)
  cases type <;> exact hlt _

/-- A move that is not a single step: where it starts. -/
theorem started_progress (s : Motor) {n : ℕ} (hs : Finite n s) (half : ℕ) (hhalf : 2 * half ≤ n) :
    Progress n 0 (started { s with stepRun := half, stepDown := s.move - half }) ∧
      Finite n (started { s with stepRun := half, stepDown := s.move - half }) := by
  refine ⟨.accel rfl rfl denomAt_zero.symm (Nat.zero_le _) hhalf ?_, hs.ptype, hs.move⟩
  have hmove := hs.move
  change s.move - half + half = n
  omega

theorem motorMove_eq (hspeed : speed ≠ 0) (htype : type ≠ .infiniteSteps) (hidle : m.state = .idle) (hn : 1 ≤ moveSteps m move type) :
    (motorMove m move speed type).1.state = .idle ∨
      Progress (moveSteps m move type) 0 (motorMove m move speed type).1 ∧ Finite (moveSteps m move type) (motorMove m move speed type).1 := by
  obtain ⟨hstate, hptype, hmove⟩ := setSpeed_idle (m := { m with ptype := type, dir := decide (move < 0), move := moveSteps m move type })
    hidle hspeed
  unfold motorMove
  rw [if_neg hspeed]
  dsimp only at hptype hmove ⊢
  generalize setSpeed _ speed = s at hstate hptype hmove ⊢
  split
  · exact .inl hstate
  · rw [if_pos (by omega)]
    have hs : Finite (moveSteps m move type) s := ⟨hptype ▸ htype, hmove⟩
    refine .inr (started_progress s hs _ ?_)
    split <;> omega

/-- No finite move is exact. -/
theorem never_exact (hidle : m.state = .idle) (hspeed : speed ≠ 0) (htype : type ≠ .infiniteSteps) (hn : 1 ≤ moveSteps m move type) :
    ¬Exact m move speed type := by
  rintro ⟨k, hstop, hbefore, houtput, -, -⟩
  rcases motorMove_eq hspeed htype hidle hn with hsingle | ⟨hprogress, hfinite⟩
  · -- a single step is output at once: there is nothing to run
    cases k with
    | zero => exact absurd houtput (by rw [Function.iterate_zero_apply]; omega)
    | succ k => exact hbefore 0 (Nat.succ_pos k) hsingle
  · obtain ⟨hprogress', -, houtput'⟩ := hprogress.ticks hfinite (moveSteps_lt m move type) k hbefore
    have hk : k = moveSteps m move type := by omega
    cases hprogress' with
    | idle _ lost early left early_le lost_iff => omega
    | accel state => exact absurd (state.symm.trans hstop) (by decide)
    | run state => exact absurd (state.symm.trans hstop) (by decide)
    | decel state => exact absurd (state.symm.trans hstop) (by decide)

end

theorem never_exact_idleMotor : ¬Exact idleMotor 2 6000 .steps :=
  never_exact rfl (by norm_num) (by decide) (by decide +kernel)

/-- A move of two steps makes four. -/
theorem two_steps_make_four : let s := (motorMove idleMotor 2 6000 .steps).1
    (∀ j < 4, (run^[j] s).state ≠ .idle) ∧ (run^[4] s).state = .idle ∧ (run^[4] s).output = 4 ∧ (run^[4] s).position = 4 ∧
      ¬Exact idleMotor 2 6000 .steps := by
  have hbefore : ∀ j < 4, (run^[j] (motorMove idleMotor 2 6000 .steps).1).state ≠ .idle := by decide +kernel
  have hidle : (run^[4] (motorMove idleMotor 2 6000 .steps).1).state = .idle := by decide +kernel
  refine ⟨hbefore, hidle, by decide +kernel, by decide +kernel, ?_⟩
  rintro ⟨k, hstop, hrunning, houtput, -, -⟩
  rcases Nat.lt_trichotomy k 4 with hlt | rfl | hgt
  · exact hbefore k hlt hstop
  · exact absurd houtput (by decide +kernel)
  · exact hrunning 4 hgt hidle

end Motor

end Grbl.Stepper2
