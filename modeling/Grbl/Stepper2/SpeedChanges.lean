import Mathlib
import Grbl.Lib.Run
import Grbl.Stepper2.Motor

/-!
# Speed changes

A motor in infinite motion, with changes of its speed and stops at any moments.

* `Motor.tick`, `Action`, `Spindle.step` : what can happen;
* `Settles` : the denominators are as they should be, the motor comes to its speed after a change and comes to rest after a stop;
* `RampEnds`, `SafeSpeed`, `SafeStop`, `Safe` : when it does;
* `Based`, `Speeding`, `Halting` : where the motor is after the last command; a tick keeps it, and comes closer to the end;
* `settles_of_safe`; `slower_in_the_ramp`.
-/

namespace Grbl.Stepper2
open Lib

def Motor.tick (m : Motor) : Motor := if m.state = .idle then m else m.run

/-- What can happen to a motor. -/
inductive Action
  | tick
  | setSpeed (speed : ℚ)
  | stop

/-- A motor, and if the last command was a stop. -/
structure Spindle where
  motor : Motor
  halt : Bool

/-- A speed change is to a speed that is not zero. -/
def Spindle.step (s : Spindle) : Action → Option Spindle
  | .tick => some { s with motor := s.motor.tick }
  | .setSpeed speed => if speed = 0 then none else some ⟨s.motor.setSpeed speed, false⟩
  | .stop => some ⟨s.motor.stop, true⟩

def Spindle.start (m : Motor) (move speed : ℚ) : Spindle := ⟨(motorMove m move speed .infiniteSteps).1, false⟩

/-- The ramp does not divide by zero or a negative number; the motor comes to its speed, or to rest. -/
structure Settles (s : Spindle) : Prop where
  denom : ∃ k : ℕ, s.motor.denom = 4 * k + 1
  speed : s.halt = false → ∃ t, (Motor.tick^[t] s.motor).state = .runInfinite ∧ (Motor.tick^[t] s.motor).delay = (Motor.tick^[t] s.motor).minDelay
  rest : s.halt = true → ∃ t, (Motor.tick^[t] s.motor).state = .idle

/-- The ramp up ends, with as many steps left or by its delay, before its denominator overflows. -/
def RampEnds (minDelay : ℕ) : ℕ → ℕ → ℤ → Prop
  | 0, _, _ => True
  | left + 1, c64, denom =>
      denom + 4 < 2 ^ 31 ∧
        (roundDelay (accelC64 c64 (denom + 4)) < minDelay ∨ RampEnds minDelay left (accelC64 c64 (denom + 4)) (denom + 4))

instance RampEnds.decidable (minDelay : ℕ) : ∀ left c64 denom, Decidable (RampEnds minDelay left c64 denom)
  | 0, _, _ => instDecidableTrue
  | left + 1, c64, denom =>
      have := RampEnds.decidable minDelay left (accelC64 c64 (denom + 4)) (denom + 4)
      inferInstanceAs (Decidable (_ ∧ (_ ∨ _)))

namespace Motor

/-- The steps to the end of the ramp. -/
def left (m : Motor) : ℕ := wrap32 (m.stepRun - m.stepNo)

/-- The motor is on its way to rest. -/
def Stopping (m : Motor) : Prop := m.state = .decel ∨ m.state = .accel ∧ m.stepRun = m.stepDown

instance (m : Motor) : Decidable m.Stopping := inferInstanceAs (Decidable (_ ∨ _ ∧ _))

/-- A change of the speed that comes to its end: a faster one must not end where the motor would stop, and its ramp must end; a slower one must
be to a place below in the ramp, of a motor that is not slowing down to rest; one to the place where the motor is, or to the same speed, must
not be meant to keep it from stopping, and when the motor is at its speed, the delay must be the same. -/
def SafeSpeed (m : Motor) (speed : ℚ) : Prop :=
  let c := m.configured speed
  m.state ≠ .idle ∧
    if m.limited speed = m.prevSpeed then ¬m.Stopping
    else if c.pn = 0 then
      ¬m.Stopping ∧ (m.state = .accel → RampEnds c.minDelay m.left m.c64 m.denom) ∧ (m.state = .runInfinite → m.delay = c.minDelay)
    else if m.limited speed > m.prevSpeed then
      let target := wrap32 ((if m.state = .accel then m.stepRun else m.stepNo) + c.pn)
      target ≠ m.stepDown ∧ RampEnds c.minDelay (wrap32 (target - m.stepNo)) m.c64 m.denom
    else m.state ≠ .decel ∧ m.limited speed ≠ 0 ∧ c.pn < 0 ∧ -c.pn ≤ (m.denom - 1) / 4

/-- A stop that comes to its end: the next step of a ramp up must not be the last one. -/
def SafeStop (m : Motor) : Prop :=
  m.state = .accel → m.denom + 4 < 2 ^ 31 ∧ ¬roundDelay (accelC64 m.c64 (m.denom + 4)) < m.minDelay

instance (m : Motor) (speed : ℚ) : Decidable (m.SafeSpeed speed) := inferInstanceAs (Decidable (_ ∧ ite _ _ _))

instance (m : Motor) : Decidable m.SafeStop := inferInstanceAs (Decidable (_ → _))

end Motor

/-- The steps of a run that settles. -/
def Safe (s : Spindle) : Action → Prop
  | .tick => True
  | .setSpeed speed => s.motor.SafeSpeed speed
  | .stop => s.motor.SafeStop

instance (s : Spindle) : ∀ a, Decidable (Safe s a)
  | .tick => instDecidableTrue
  | .setSpeed speed => inferInstanceAs (Decidable (s.motor.SafeSpeed speed))
  | .stop => inferInstanceAs (Decidable s.motor.SafeStop)

/-! ## Ticks -/

namespace Motor

section
variable {m : Motor}

/-- What holds of a motor in infinite motion after any commands. -/
structure Based (m : Motor) : Prop where
  ptype : m.ptype = .infiniteSteps
  stepNo : m.stepNo < 2 ^ 32
  stepRun : m.stepRun < 2 ^ 32
  stepDown : m.stepDown < 2 ^ 32
  denom : m.denom % 4 = 1 ∧ 0 < m.denom ∧ m.denom < 2 ^ 31

/-- After a speed change. -/
inductive Speeding (m : Motor) : Prop
  | accel (state : m.state = .accel) (ends : RampEnds m.minDelay m.left m.c64 m.denom) (ne : m.stepRun ≠ m.stepDown)
  | decelTo (state : m.state = .decelTo) (le : (m.left : ℤ) ≤ (m.denom - 1) / 4)
  | infinite (state : m.state = .runInfinite) (delay : m.delay = m.minDelay)

/-- After a stop. -/
inductive Halting (m : Motor) : Prop
  | accel (state : m.state = .accel) (eq : m.stepRun = m.stepDown) (le : m.left ≤ 1)
      (next : m.left = 1 → m.denom + 4 < 2 ^ 31 ∧ ¬roundDelay (accelC64 m.c64 (m.denom + 4)) < m.minDelay)
  | decel (state : m.state = .decel)
  | idle (state : m.state = .idle)

theorem int32_of {x : ℤ} (hlow : -2 ^ 31 ≤ x) (hhigh : x < 2 ^ 31) : int32 x = x := by
  unfold int32
  omega

theorem wrap32_lt (x : ℤ) : wrap32 x < 2 ^ 32 := by
  unfold wrap32
  omega

theorem Based.left_eq_zero (h : Based m) : m.left = 0 ↔ m.stepNo = m.stepRun := by
  have hno := h.stepNo
  have hrun := h.stepRun
  unfold left wrap32
  omega

theorem left_next (hne : m.left ≠ 0) : wrap32 ((m.stepRun : ℤ) - wrap32 (m.stepNo + 1)) + 1 = m.left := by
  unfold left wrap32 at *
  omega

/-- A step up. -/
def climbed (m : Motor) : Motor :=
  { m with denom := m.denom + 4, c64 := accelC64 m.c64 (m.denom + 4), delay := roundDelay (accelC64 m.c64 (m.denom + 4)) }

theorem Based.advance_accel (h : Based m) (hstate : m.state = .accel) (hleft : m.left ≠ 0) (hdenom : m.denom + 4 < 2 ^ 31)
    (hslow : ¬roundDelay (accelC64 m.c64 (m.denom + 4)) < m.minDelay) : m.advance = m.climbed := by
  have hne : m.stepNo ≠ m.stepRun := fun heq => hleft (h.left_eq_zero.2 heq)
  have hwide : int32 (m.denom + 4) = m.denom + 4 := int32_of (by have := h.denom; omega) hdenom
  simp only [advance, hstate, if_pos hne, hwide, if_neg hslow]
  rw [climbed, ← hstate]

theorem Based.advance_early (h : Based m) (hstate : m.state = .accel) (hleft : m.left ≠ 0) (hdenom : m.denom + 4 < 2 ^ 31)
    (hfast : roundDelay (accelC64 m.c64 (m.denom + 4)) < m.minDelay) : m.advance = { m with
      denom := m.denom + 4
      c64 := accelC64 m.c64 (m.denom + 4)
      state := .runInfinite
      stepDown := wrap32 (m.move - m.stepNo)
      delay := m.minDelay } := by
  have hne : m.stepNo ≠ m.stepRun := fun heq => hleft (h.left_eq_zero.2 heq)
  have hwide : int32 (m.denom + 4) = m.denom + 4 := int32_of (by have := h.denom; omega) hdenom
  have hcruise : m.cruise = .runInfinite := if_pos h.ptype
  simp only [advance, hstate, if_pos hne, hwide, if_pos hfast, hcruise]

theorem Based.denom_up (h : Based m) (hdenom : m.denom + 4 < 2 ^ 31) :
    (m.denom + 4) % 4 = 1 ∧ 0 < m.denom + 4 ∧ m.denom + 4 < 2 ^ 31 := by
  have := h.denom
  omega

theorem left_run (hrun : m.advance.stepRun = m.stepRun) (hno : m.advance.stepNo = m.stepNo) (hleft : m.left ≠ 0) : m.run.left + 1 = m.left := by
  rw [left, run_stepRun, run_stepNo, hrun, hno]
  exact left_next hleft

theorem tick_of_ne (h : m.state ≠ .idle) : m.tick = m.run := if_neg h

theorem Based.run (h : Based m) (hptype : m.advance.ptype = m.ptype) (hrun : m.advance.stepRun = m.stepRun)
    (hdown : m.advance.stepDown < 2 ^ 32) (hdenom : m.advance.denom % 4 = 1 ∧ 0 < m.advance.denom ∧ m.advance.denom < 2 ^ 31) : Based m.run where
  ptype := by rw [run_ptype, hptype, h.ptype]
  stepNo := by
    rw [run_stepNo]
    exact wrap32_lt _
  stepRun := by
    rw [run_stepRun, hrun]
    exact h.stepRun
  stepDown := by
    rw [run_stepDown]
    exact hdown
  denom := by
    rw [run_denom]
    exact hdenom

/-- A step closer to the end of the ramp. -/
def Closer (m m' : Motor) : Prop := m'.state = .runInfinite ∨ m'.left < m.left

theorem accel_tick (h : Based m) (hstate : m.state = .accel) (hends : RampEnds m.minDelay m.left m.c64 m.denom) (hne : m.stepRun ≠ m.stepDown) :
    Based m.run ∧ Speeding m.run ∧ Closer m m.run := by
  have hcruise : m.cruise = .runInfinite := if_pos h.ptype
  by_cases hleft : m.left = 0
  · have heq := h.left_eq_zero.1 hleft
    have hadvance : m.advance = { m with state := .runInfinite, delay := m.minDelay } := by
      simp only [advance, hstate, heq, ne_eq, not_true, if_false, if_neg hne, hcruise]
    have hinf : m.run.state = .runInfinite := by rw [run_state, hadvance]
    refine ⟨h.run (by rw [hadvance]) (by rw [hadvance]) ?_ ?_, .infinite hinf ?_, .inl hinf⟩
    · rw [hadvance]
      exact h.stepDown
    · rw [hadvance]
      exact h.denom
    · rw [run_delay, run_minDelay, hadvance]
  · obtain ⟨left, hsucc⟩ := Nat.exists_eq_succ_of_ne_zero hleft
    rw [hsucc] at hends
    obtain ⟨hdenom, hnext⟩ := hends
    by_cases hfast : roundDelay (accelC64 m.c64 (m.denom + 4)) < m.minDelay
    · have hadvance := h.advance_early hstate hleft hdenom hfast
      have hinf : m.run.state = .runInfinite := by rw [run_state, hadvance]
      refine ⟨h.run (by rw [hadvance]) (by rw [hadvance]) ?_ ?_, .infinite hinf ?_, .inl hinf⟩
      · rw [hadvance]
        exact wrap32_lt _
      · rw [hadvance]
        exact h.denom_up hdenom
      · rw [run_delay, run_minDelay, hadvance]
    · have hadvance := h.advance_accel hstate hleft hdenom hfast
      have hleft' : m.run.left + 1 = m.left := left_run (by rw [hadvance]; rfl) (by rw [hadvance]; rfl) hleft
      refine ⟨h.run (by rw [hadvance]; rfl) (by rw [hadvance]; rfl) ?_ ?_, .accel ?_ ?_ ?_, .inr (by omega)⟩
      · rw [hadvance]
        exact h.stepDown
      · rw [hadvance]
        exact h.denom_up hdenom
      · rw [run_state, hadvance]
        exact hstate
      · have heq : m.run.left = left := by omega
        rw [heq, run_minDelay, run_c64, run_denom, hadvance]
        exact hnext.resolve_left hfast
      · rw [run_stepRun, run_stepDown, hadvance]
        exact hne

theorem decelTo_tick (h : Based m) (hstate : m.state = .decelTo) (hle : (m.left : ℤ) ≤ (m.denom - 1) / 4) :
    Based m.run ∧ Speeding m.run ∧ Closer m m.run := by
  have hcruise : m.cruise = .runInfinite := if_pos h.ptype
  have hdenom := h.denom
  by_cases hleft : m.left = 0
  · have heq := h.left_eq_zero.1 hleft
    have hadvance : m.advance = { m with delay := m.minDelay, state := .runInfinite } := by
      simp only [advance, hstate, heq, ne_eq, not_true, if_false, hcruise]
    have hinf : m.run.state = .runInfinite := by rw [run_state, hadvance]
    refine ⟨h.run (by rw [hadvance]) (by rw [hadvance]) ?_ ?_, .infinite hinf ?_, .inl hinf⟩
    · rw [hadvance]
      exact h.stepDown
    · rw [hadvance]
      exact hdenom
    · rw [run_delay, run_minDelay, hadvance]
  · have hne : m.stepNo ≠ m.stepRun := fun heq => hleft (h.left_eq_zero.2 heq)
    have hdown : int32 (m.denom - 4) = m.denom - 4 := int32_of (by omega) (by omega)
    have hadvance : m.advance = { m with
        denom := m.denom - 4
        c64 := decelC64 m.c64 (m.denom - 4)
        delay := roundDelay (decelC64 m.c64 (m.denom - 4)) } := by
      simp only [advance, hstate, if_pos hne, hdown]
    have hleft' : m.run.left + 1 = m.left := left_run (by rw [hadvance]) (by rw [hadvance]) hleft
    refine ⟨h.run (by rw [hadvance]) (by rw [hadvance]) ?_ ?_, .decelTo ?_ ?_, .inr (by omega)⟩
    · rw [hadvance]
      exact h.stepDown
    · rw [hadvance]
      dsimp only
      omega
    · rw [run_state, hadvance, hstate]
    · rw [run_denom, hadvance]
      dsimp only
      omega

theorem infinite_tick (h : Based m) (hstate : m.state = .runInfinite) (hdelay : m.delay = m.minDelay) : Based m.run ∧ Speeding m.run := by
  have hadvance : m.advance = m := by simp only [advance, hstate]
  refine ⟨h.run (by rw [hadvance]) (by rw [hadvance]) ?_ ?_, .infinite ?_ ?_⟩
  · rw [hadvance]
    exact h.stepDown
  · rw [hadvance]
    exact h.denom
  · rw [run_state, hadvance, hstate]
  · rw [run_delay, run_minDelay, hadvance, hdelay]

theorem Speeding.ne_idle (h : Speeding m) : m.state ≠ .idle := by
  cases h with
  | accel state => exact state ▸ State.noConfusion
  | decelTo state => exact state ▸ State.noConfusion
  | infinite state => exact state ▸ State.noConfusion

theorem Speeding.tick (h : Speeding m) (hm : Based m) : Based m.tick ∧ Speeding m.tick ∧ (m.state ≠ .runInfinite → Closer m m.tick) := by
  rw [tick_of_ne h.ne_idle]
  cases h with
  | accel state ends ne =>
      obtain ⟨hbased, hspeeding, hcloser⟩ := accel_tick hm state ends ne
      exact ⟨hbased, hspeeding, fun _ => hcloser⟩
  | decelTo state le =>
      obtain ⟨hbased, hspeeding, hcloser⟩ := decelTo_tick hm state le
      exact ⟨hbased, hspeeding, fun _ => hcloser⟩
  | infinite state delay =>
      obtain ⟨hbased, hspeeding⟩ := infinite_tick hm state delay
      exact ⟨hbased, hspeeding, fun hne => absurd state hne⟩

/-- The motor comes to its speed: the ramp gets shorter with every tick. -/
theorem Speeding.settles (n : ℕ) : ∀ m : Motor, Speeding m → Based m → m.left ≤ n →
    ∃ t, (Motor.tick^[t] m).state = .runInfinite ∧ (Motor.tick^[t] m).delay = (Motor.tick^[t] m).minDelay := by
  have hdone (m : Motor) (h : Speeding m) (hstate : m.state = .runInfinite) :
      ∃ t, (Motor.tick^[t] m).state = .runInfinite ∧ (Motor.tick^[t] m).delay = (Motor.tick^[t] m).minDelay := by
    cases h with
    | accel state => exact absurd (state.symm.trans hstate) State.noConfusion
    | decelTo state => exact absurd (state.symm.trans hstate) State.noConfusion
    | infinite state delay => exact ⟨0, state, delay⟩
  have hlater (m : Motor) (h : ∃ t, (Motor.tick^[t] m.tick).state = .runInfinite ∧ (Motor.tick^[t] m.tick).delay = (Motor.tick^[t] m.tick).minDelay) :
      ∃ t, (Motor.tick^[t] m).state = .runInfinite ∧ (Motor.tick^[t] m).delay = (Motor.tick^[t] m).minDelay := by
    obtain ⟨t, ht⟩ := h
    exact ⟨t + 1, ht⟩
  induction n with
  | zero =>
      intro m h hm hle
      by_cases hinf : m.state = .runInfinite
      · exact hdone m h hinf
      · obtain ⟨-, hspeeding, hcloser⟩ := h.tick hm
        refine hlater m (hdone m.tick hspeeding ?_)
        exact (hcloser hinf).resolve_right (by omega)
  | succ n ih =>
      intro m h hm hle
      by_cases hinf : m.state = .runInfinite
      · exact hdone m h hinf
      · obtain ⟨hbased, hspeeding, hcloser⟩ := h.tick hm
        rcases hcloser hinf with hstate | hlt
        · exact hlater m (hdone m.tick hspeeding hstate)
        · exact hlater m (ih m.tick hspeeding hbased (by omega))

/-- A tick on the way to rest: how far it is. -/
def toRest (m : Motor) : ℕ :=
  match m.state with
  | .accel => m.left + (m.denom / 4).toNat + 2 + m.left
  | .decel => (m.denom / 4).toNat + 1
  | _ => 0

theorem halting_accel_tick (h : Based m) (hstate : m.state = .accel) (heq : m.stepRun = m.stepDown) (hle : m.left ≤ 1)
    (hnext : m.left = 1 → m.denom + 4 < 2 ^ 31 ∧ ¬roundDelay (accelC64 m.c64 (m.denom + 4)) < m.minDelay) :
    Based m.run ∧ Halting m.run ∧ m.run.toRest < m.toRest := by
  have hrest : m.toRest = m.left + (m.denom / 4).toNat + 2 + m.left := by rw [toRest, hstate]
  have hpos := h.denom
  by_cases hleft : m.left = 0
  · have hend := h.left_eq_zero.1 hleft
    have hadvance : m.advance = { m with state := .decel } := by
      simp only [advance, hstate, hend, heq, ne_eq, not_true, if_true, if_false]
    have hdecel : m.run.state = .decel := by rw [run_state, hadvance]
    refine ⟨h.run (by rw [hadvance]) (by rw [hadvance]) ?_ ?_, .decel hdecel, ?_⟩
    · rw [hadvance]
      exact h.stepDown
    · rw [hadvance]
      exact h.denom
    · rw [hrest, toRest, hdecel, run_denom, hadvance]
      dsimp only
      omega
  · obtain ⟨hdenom, hslow⟩ := hnext (by omega)
    have hadvance := h.advance_accel hstate hleft hdenom hslow
    have hleft' : m.run.left + 1 = m.left := left_run (by rw [hadvance]; rfl) (by rw [hadvance]; rfl) hleft
    have haccel : m.run.state = .accel := by
      rw [run_state, hadvance]
      exact hstate
    refine ⟨h.run (by rw [hadvance]; rfl) (by rw [hadvance]; rfl) ?_ ?_, .accel haccel ?_ (by omega) (fun hone => ?_), ?_⟩
    · rw [hadvance]
      exact h.stepDown
    · rw [hadvance]
      exact h.denom_up hdenom
    · rw [run_stepRun, run_stepDown, hadvance]
      exact heq
    · omega
    · have hup : m.run.denom = m.denom + 4 := by
        rw [run_denom, hadvance]
        rfl
      rw [hrest, toRest, haccel, hup]
      dsimp only
      omega

theorem halting_decel_tick (h : Based m) (hstate : m.state = .decel) : Based m.run ∧ Halting m.run ∧ m.run.toRest < m.toRest := by
  have hrest : m.toRest = (m.denom / 4).toNat + 1 := by rw [toRest, hstate]
  have hpos := h.denom
  by_cases hlow : m.denom < 2
  · have hadvance : m.advance = { m with state := .idle, prevSpeed := 0, n := 0 } := by simp only [advance, hstate, if_pos hlow]
    have hidle : m.run.state = .idle := by rw [run_state, hadvance]
    refine ⟨h.run (by rw [hadvance]) (by rw [hadvance]) ?_ ?_, .idle hidle, ?_⟩
    · rw [hadvance]
      exact h.stepDown
    · rw [hadvance]
      exact hpos
    · rw [hrest, toRest, hidle]
      exact Nat.succ_pos _
  · have hdown : int32 (m.denom - 4) = m.denom - 4 := int32_of (by omega) (by omega)
    have hadvance : m.advance = { m with
        c64 := decelC64 m.c64 m.denom
        delay := (decelC64 m.c64 m.denom + (2 ^ 64 - 32768)) % 2 ^ 64 / 2 ^ 16
        denom := m.denom - 4 } := by
      simp only [advance, hstate, if_neg hlow, hdown]
    have hdecel : m.run.state = .decel := by
      rw [run_state, hadvance]
      exact hstate
    refine ⟨h.run (by rw [hadvance]) (by rw [hadvance]) ?_ ?_, .decel hdecel, ?_⟩
    · rw [hadvance]
      exact h.stepDown
    · rw [hadvance]
      dsimp only
      omega
    · rw [hrest, toRest, hdecel, run_denom, hadvance]
      dsimp only
      omega

theorem Halting.tick (h : Halting m) (hm : Based m) : Based m.tick ∧ Halting m.tick ∧ (m.state ≠ .idle → m.tick.toRest < m.toRest) := by
  cases h with
  | accel state eq le next =>
      rw [tick_of_ne (state ▸ State.noConfusion)]
      obtain ⟨hbased, hhalting, hlt⟩ := halting_accel_tick hm state eq le next
      exact ⟨hbased, hhalting, fun _ => hlt⟩
  | decel state =>
      rw [tick_of_ne (state ▸ State.noConfusion)]
      obtain ⟨hbased, hhalting, hlt⟩ := halting_decel_tick hm state
      exact ⟨hbased, hhalting, fun _ => hlt⟩
  | idle state =>
      have htick : m.tick = m := if_pos state
      exact ⟨htick.symm ▸ hm, htick.symm ▸ .idle state, fun hne => absurd state hne⟩

theorem Halting.settles (n : ℕ) : ∀ m : Motor, Halting m → Based m → m.toRest ≤ n → ∃ t, (Motor.tick^[t] m).state = .idle := by
  induction n with
  | zero =>
      intro m h hm hle
      by_contra hrunning
      obtain ⟨-, -, hlt⟩ := h.tick hm
      have hcloser := hlt fun hidle => hrunning ⟨0, hidle⟩
      omega
  | succ n ih =>
      intro m h hm hle
      by_cases hidle : m.state = .idle
      · exact ⟨0, hidle⟩
      · obtain ⟨hbased, hhalting, hlt⟩ := h.tick hm
        have hcloser := hlt hidle
        obtain ⟨t, ht⟩ := ih m.tick hhalting hbased (by omega)
        exact ⟨t + 1, ht⟩

/-! ## Commands -/

theorem Based.stop (h : Based m) : Based m.stop := by
  unfold Motor.stop
  split
  · exact ⟨h.ptype, wrap32_lt _, h.stepDown, h.stepDown, h.denom⟩
  · exact ⟨h.ptype, wrap32_lt _, h.stepRun, h.stepDown, h.denom⟩
  · exact ⟨h.ptype, h.stepNo, h.stepRun, h.stepDown, h.denom⟩
  · exact ⟨h.ptype, h.stepNo, h.stepRun, h.stepDown, h.denom⟩
  · exact h
  · exact h

theorem halting_stop (hrun : m.state ≠ .run) (hdown : m.stepDown < 2 ^ 32) (hsafe : m.SafeStop) : Halting m.stop := by
  unfold Motor.stop
  split
  next state =>
    have hone : wrap32 ((m.stepDown : ℤ) - wrap32 (m.stepDown - 1)) = 1 := by
      unfold wrap32
      omega
    exact .accel state rfl hone.le fun _ => hsafe state
  next state => exact absurd state hrun
  · exact .decel rfl
  · exact .decel rfl
  next state => exact .idle state
  next state => exact .decel state

theorem Based.configured (h : Based m) (speed : ℚ) : Based (m.configured speed) := ⟨h.ptype, h.stepNo, h.stepRun, h.stepDown, h.denom⟩

/-- A speed change, if the motor is not idle: a stop is only followed where the motor has not been stopping. -/
theorem speeding_setSpeed {speed : ℚ} (hm : Based m) (h : Speeding m ∨ Halting m) (hspeed : speed ≠ 0) (hsafe : m.SafeSpeed speed) :
    Based (m.setSpeed speed) ∧ Speeding (m.setSpeed speed) := by
  obtain ⟨hidle, hsafe⟩ := hsafe
  have hrunning (hnot : ¬m.Stopping) : Speeding m := by
    rcases h with h | h
    · exact h
    · cases h with
      | accel state eq => exact absurd (.inr ⟨state, eq⟩) hnot
      | decel state => exact absurd (.inl state) hnot
      | idle state => exact absurd state hidle
  unfold setSpeed
  rw [if_neg hspeed]
  split at hsafe
  next hsame =>
    rw [if_pos hsame]
    refine ⟨⟨hm.ptype, hm.stepNo, hm.stepRun, hm.stepDown, hm.denom⟩, ?_⟩
    cases hrunning hsafe with
    | accel state ends ne => exact .accel state ends ne
    | decelTo state le => exact .decelTo state le
    | infinite state delay => exact .infinite state delay
  next hother =>
    rw [if_neg hother]
    dsimp only
    rw [if_neg (show (m.configured speed).state ≠ .idle from hidle)]
    have hc := hm.configured speed
    split at hsafe
    next hplace =>
      rw [if_pos hplace]
      refine ⟨hc, ?_⟩
      cases hrunning hsafe.1 with
      | accel state ends ne => exact .accel state (hsafe.2.1 state) ne
      | decelTo state le => exact .decelTo state le
      | infinite state delay => exact .infinite state (hsafe.2.2 state)
    next hplace =>
      rw [if_neg hplace]
      split at hsafe
      next hfaster =>
        obtain ⟨hne, hends⟩ := hsafe
        rw [if_pos (show (m.configured speed).speed > (m.configured speed).prevSpeed from hfaster)]
        by_cases haccel : m.state = .accel
        · rw [if_pos haccel] at hne hends
          rw [if_pos (show (m.configured speed).state = .accel from haccel)]
          exact ⟨⟨hc.ptype, hc.stepNo, wrap32_lt _, hc.stepDown, hc.denom⟩, .accel haccel hends hne⟩
        · rw [if_neg haccel] at hne hends
          rw [if_neg (show (m.configured speed).state ≠ .accel from haccel)]
          exact ⟨⟨hc.ptype, hc.stepNo, wrap32_lt _, hc.stepDown, hc.denom⟩, .accel rfl hends hne⟩
      next hslower =>
        obtain ⟨hdecel, hzero, hneg, hle⟩ := hsafe
        rw [if_neg (show ¬(m.configured speed).speed > (m.configured speed).prevSpeed from hslower),
          if_neg (show (m.configured speed).speed ≠ 0 from hzero), if_pos (show (m.configured speed).state ≠ .decel from hdecel)]
        refine ⟨⟨hc.ptype, hc.stepNo, wrap32_lt _, hc.stepDown, hc.denom⟩, .decelTo rfl ?_⟩
        have hdenom := hm.denom
        have hno := hm.stepNo
        have hleft : wrap32 ((wrap32 (m.stepNo - (m.configured speed).pn) : ℤ) - m.stepNo) = (-(m.configured speed).pn).toNat := by
          generalize (m.configured speed).pn = pn at hneg hle ⊢
          unfold wrap32
          omega
        change (wrap32 ((wrap32 (m.stepNo - (m.configured speed).pn) : ℤ) - m.stepNo) : ℤ) ≤ (m.denom - 1) / 4
        omega

end

end Motor

/-! ## Runs -/

open Motor

def Spindle.Tracks (s : Spindle) : Prop := Based s.motor ∧ if s.halt then Halting s.motor else Speeding s.motor

theorem Spindle.Tracks.settles {s : Spindle} (h : s.Tracks) : Settles s where
  denom := by
    have hdenom := h.1.denom
    refine ⟨((s.motor.denom - 1) / 4).toNat, ?_⟩
    omega
  speed := by
    intro hhalt
    have hspeeding := h.2
    rw [hhalt] at hspeeding
    exact Speeding.settles _ s.motor hspeeding h.1 le_rfl
  rest := by
    intro hhalt
    have hhalting := h.2
    rw [hhalt] at hhalting
    exact Halting.settles _ s.motor hhalting h.1 le_rfl

theorem Spindle.Tracks.step {s s' : Spindle} {a : Action} (h : s.Tracks) (hsafe : Safe s a) (hstep : s.step a = some s') : s'.Tracks := by
  obtain ⟨hm, hlast⟩ := h
  cases a with
  | tick =>
      obtain rfl := Option.some.inj hstep
      unfold Tracks
      dsimp only
      split at hlast
      next hhalt =>
        rw [if_pos hhalt]
        obtain ⟨hbased, hhalting, -⟩ := hlast.tick hm
        exact ⟨hbased, hhalting⟩
      next hhalt =>
        rw [if_neg hhalt]
        obtain ⟨hbased, hspeeding, -⟩ := hlast.tick hm
        exact ⟨hbased, hspeeding⟩
  | setSpeed speed =>
      rw [Spindle.step] at hstep
      split at hstep
      · cases hstep
      next hspeed =>
        obtain rfl := Option.some.inj hstep
        refine speeding_setSpeed hm ?_ hspeed hsafe
        split at hlast
        · exact .inr hlast
        · exact .inl hlast
  | stop =>
      obtain rfl := Option.some.inj hstep
      refine ⟨hm.stop, halting_stop ?_ hm.stepDown hsafe⟩
      split at hlast
      · cases hlast with
        | accel state => exact state ▸ State.noConfusion
        | decel state => exact state ▸ State.noConfusion
        | idle state => exact state ▸ State.noConfusion
      · cases hlast with
        | accel state => exact state ▸ State.noConfusion
        | decelTo state => exact state ▸ State.noConfusion
        | infinite state => exact state ▸ State.noConfusion

/-- The first ramp ends before its denominator overflows. -/
def SafeStart (s : Spindle) : Prop := s.motor.n < 2 ^ 32 ∧ RampEnds s.motor.minDelay s.motor.n s.motor.c64 1

instance (s : Spindle) : Decidable (SafeStart s) := inferInstanceAs (Decidable (_ ∧ _))

theorem start_tracks {m : Motor} {move speed : ℚ} (hidle : m.state = .idle) (hspeed : speed ≠ 0) (hsafe : SafeStart (.start m move speed)) :
    (Spindle.start m move speed).Tracks := by
  unfold Spindle.start at hsafe ⊢
  obtain ⟨-, hptype, -⟩ := setSpeed_idle (m := { m with
    ptype := .infiniteSteps, dir := decide (move < 0), move := moveSteps m move .infiniteSteps }) hidle hspeed
  unfold motorMove at hsafe ⊢
  rw [if_neg hspeed] at hsafe ⊢
  dsimp only at hptype hsafe ⊢
  generalize setSpeed _ speed = s at hptype hsafe ⊢
  rw [if_neg (fun h => nomatch h.2), if_pos rfl] at hsafe ⊢
  obtain ⟨hn, hends⟩ := hsafe
  have hne : wrap32 (s.n + 1) ≠ s.n := by
    unfold wrap32
    change s.n < 2 ^ 32 at hn
    omega
  have hdown : wrap32 ((s.n : ℤ) + 1) < 2 ^ 32 := wrap32_lt _
  have hdenom : (1 : ℤ) % 4 = 1 ∧ (0 : ℤ) < 1 ∧ (1 : ℤ) < 2 ^ 31 := by decide
  refine ⟨⟨hptype, Nat.two_pow_pos 32, hn, hdown, hdenom⟩, .accel rfl ?_ hne.symm⟩
  have hleft : wrap32 ((s.n : ℤ) - (0 : ℕ)) = s.n := by
    rw [Nat.cast_zero, sub_zero]
    exact wrap32_of_lt hn
  change RampEnds s.minDelay (wrap32 ((s.n : ℤ) - (0 : ℕ))) _ 1
  rw [hleft]
  exact hends

/-- In every run of a motor in infinite motion whose commands come to their ends, it settles. -/
theorem settles_of_safe {m : Motor} {move speed : ℚ} {as : List Action} {s : Spindle} (hidle : m.state = .idle) (hspeed : speed ≠ 0)
    (hstart : SafeStart (.start m move speed)) (hrun : run Spindle.step (.start m move speed) as = some s)
    (hsafe : Along Spindle.step Safe (.start m move speed) as) : Settles s :=
  (run_invariant_along (fun _ _ _ h hs => h.step hs) as _ s (start_tracks hidle hspeed hstart) hsafe hrun).settles

/-- Faster on the way up, slower at that speed, and stopped. -/
def upAndDown : List Action :=
  [.tick, .tick, .setSpeed 9000, .tick, .tick, .tick, .tick, .tick, .tick, .tick, .tick, .tick, .tick, .tick, .tick, .setSpeed 6000, .tick, .stop]

theorem settles_of_safe_upAndDown : ∃ s, run Spindle.step (.start idleMotor 1 6000) upAndDown = some s ∧ Settles s := by
  have hsafe : Along Spindle.step Safe (.start idleMotor 1 6000) upAndDown := by decide +kernel
  have hrun : (run Spindle.step (.start idleMotor 1 6000) upAndDown).isSome := by decide +kernel
  obtain ⟨s, hs⟩ := Option.isSome_iff_exists.1 hrun
  exact ⟨s, hs, settles_of_safe rfl (by norm_num) (by decide +kernel) hs hsafe⟩

/-- A little slower at the foot of the ramp: the end of the ramp lies below zero, and the denominator becomes negative. -/
theorem slower_in_the_ramp : ∃ s, run Spindle.step (.start idleMotor 1 6000) [.tick, .setSpeed 5940, .tick, .tick] = some s ∧
    s.motor.denom = -3 ∧ ¬Settles s := by
  have hrun : ((run Spindle.step (.start idleMotor 1 6000) [.tick, .setSpeed 5940, .tick, .tick]).map fun s => s.motor.denom) = some (-3) := by
    decide +kernel
  obtain ⟨s, hs, hdenom⟩ := Option.map_eq_some_iff.1 hrun
  refine ⟨s, hs, hdenom, fun h => ?_⟩
  obtain ⟨k, hk⟩ := h.denom
  omega

end Grbl.Stepper2
