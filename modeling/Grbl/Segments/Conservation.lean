import Grbl.Segments.Steps

/-!
# The steps of a block are conserved

* `Starts` : a block that is not loaded yet; `inv_start`;
* `Conserves` : what is asked of the loops, the distance and the steps; `TimeLeft`, `conserves_iff` : when it holds;
* `NoOverrun`, `conserves_of_safe` : runs;
* `overrun_goes_back` : a run with an overrun.
-/

namespace Grbl.Segments
open Lib
open scoped Grbl.Lib.Literal Grbl.Lib.OrderedField

section
variable {K : Type*} [Field K] [LinearOrder K] [FloorSemiring K] {n : ℕ} {s s' : State K} {b : Block K} {parkingEnabled : Bool}

/-- A block that is not loaded yet, of `n` steps. -/
structure Starts (s : State K) (b : Block K) : Prop where
  block : s.block = some b
  ok : b.Ok
  count_pos : 0 < b.stepEventCount
  count_lt : b.stepEventCount < 2 ^ 32
  sys : s.ctl.executeSysMotion = false
  loaded : s.loaded = false
  profile : s.prep.recalculate.velocityProfile = false
  work : s.work = none
  segments : s.segments = []
  exit_nonneg : 0 ≤ s.prep.exitSpeed

theorem inv_start (h : Starts s b) : Inv b.stepEventCount s :=
  ⟨h.sys, h.count_pos, h.count_lt, by simp [h.segments],
    .fresh b h.block h.ok h.loaded h.profile h.work h.segments rfl h.exit_nonneg⟩

/-- Every loop ends; a pass neither adds distance nor goes beyond the end of the profile; the steps that are left never become more;
every segment has a step and a positive divisor; the segments of a block that has been discarded have all its steps. -/
def Conserves [Sqrt K] (parkingEnabled : Bool) (n : ℕ) (s : State K) : Prop :=
  (s.work.isSome → ∃ k s', run (step parkingEnabled) s (List.replicate k .pass) = some s' ∧ s'.work = none) ∧
    (∀ b w start, s.block = some b → s.work = some (w, start) →
      (pass b s.prep w).2.1.mmRemaining ≤ w.mmRemaining ∧ s.prep.mmComplete ≤ (pass b s.prep w).2.1.mmRemaining ∧
        ((pass b s.prep w).2.2 = false → ⌈s.prep.stepsPerMm * (pass b s.prep w).2.1.mmRemaining⌉₊ ≤ s.prep.stepsRemaining)) ∧
    (∀ g ∈ s.segments, 1 ≤ g.nStep ∧ 0 < g.divisor) ∧
    (s.block = none → (s.segments.map Seg.nStep).sum = n)

/-- No pass ends the first ramp with a time that reaches more than `DT_SEGMENT` beyond the end of a segment without a step. -/
def NoOverrun (s : State K) : Action K → Prop
  | .pass => ∀ b w start, s.block = some b → s.work = some (w, start) → ¬Overruns b s.prep w
  | _ => True

/-- The time that the next pass of a loop gets is not negative. -/
def TimeLeft (s : State K) : Prop := ∀ w start, s.work = some (w, start) → 0 ≤ w.timeVar

theorem Inv.looping {w : Work K} {start : Prep K} (h : Inv n s) (hwork : s.work = some (w, start)) :
    ∃ b, s.block = some b ∧ b.Ok ∧ Progress n b s ∧ InLoop b s.prep w ∧ w.minimumMm = (Work.start b s.prep).minimumMm ∧
      s.prep.mmComplete ≤ b.millimeters := by
  cases h.stage with
  | fresh b' hblock' hok hloaded hvp hwork' => exact absurd (hwork'.symm.trans hwork) (by simp)
  | pending b' hblock' hok hloaded hvp hwork' => exact absurd (hwork'.symm.trans hwork) (by simp)
  | ready b' hblock' hok hloaded hwork' => exact absurd (hwork'.symm.trans hwork) (by simp)
  | done hblock' hwork' => exact absurd (hwork'.symm.trans hwork) (by simp)
  | looping b w' start' hblock hok hloaded hwork' hprogress hloop hmin hle =>
      obtain ⟨rfl, rfl⟩ := Prod.mk.inj (Option.some.inj (hwork'.symm.trans hwork))
      exact ⟨b, hblock, hok, hprogress, hloop, hmin, hle⟩

variable [IsStrictOrderedRing K] [Sqrt K] [LawfulSqrt K]

omit [LawfulSqrt K] in
/-- What is asked but for the direction of the passes holds in every run; they do not go back as long as time is left. -/
theorem conserves_iff (h : Inv n s) : Conserves parkingEnabled n s ↔ TimeLeft s := by
  constructor
  · rintro ⟨-, hpasses, -⟩ w start hwork
    obtain ⟨b, hblock, hok, hprogress, hloop, hmin, hle⟩ := h.looping hwork
    obtain ⟨hback, -⟩ := hpasses b w start hblock hwork
    have hmm : (pass b s.prep w).2.1.mmRemaining = (ramp b s.prep w).2.mmRemaining := account_mmRemaining _ _
    rw [hmm] at hback
    exact (hloop.profile.le_iff hok.1 hloop.mm_pos hloop.time_pos (ramp_passes b s.prep w)).1 hback
  · intro htime
    refine ⟨fun hsome => ?_, fun b w start hblock hwork => ?_, h.segments, fun hnone => ?_⟩
    · obtain ⟨⟨w, start⟩, hwork⟩ := Option.isSome_iff_exists.1 hsome
      obtain ⟨b, hblock, -⟩ := h.looping hwork
      exact loop_ends _ s b w start h hblock hwork rfl
    · obtain ⟨b', hblock', hok, hprogress, hloop, hmin, hle⟩ := h.looping hwork
      obtain rfl : b' = b := Option.some.inj (hblock'.symm.trans hblock)
      have hpass := ramp_passes b' s.prep w
      have hmm : (pass b' s.prep w).2.1.mmRemaining = (ramp b' s.prep w).2.mmRemaining := account_mmRemaining _ _
      have hprofile := hloop.profile.passes hok.1 hloop.mm_pos hloop.time_pos hpass
      rw [hmm]
      refine ⟨(hloop.profile.le_iff hok.1 hloop.mm_pos hloop.time_pos hpass).2 (htime w start hwork), ?_, fun hend => ?_⟩
      · rw [← hpass.decel.1]
        exact hprofile.complete_le
      · have hover : (ramp b' s.prep w).2.mmRemaining ≤ (ramp b' s.prep w).2.minimumMm ∨
            (ramp b' s.prep w).2.mmRemaining ≤ (ramp b' s.prep w).1.mmComplete := by
          rcases account_cases (ramp b' s.prep w).1 (ramp b' s.prep w).2 with ⟨-, hover, -⟩ | ⟨hagain, -⟩
          · exact hover
          · exact absurd (hagain.symm.trans hend) (by simp)
        rw [hprogress.steps]
        refine Nat.ceil_mono (mul_le_mul_of_nonneg_left ?_ hprogress.spm_pos.le)
        refine mm_le_of_end hok.2 hprogress.req_nonneg (hpass.minimumMm_eq.trans hmin) ?_ hover
        rw [hpass.decel.1]
        exact hle
    · cases h.stage with
      | fresh b hblock => exact absurd (hblock.symm.trans hnone) (by simp)
      | pending b hblock => exact absurd (hblock.symm.trans hnone) (by simp)
      | ready b hblock => exact absurd (hblock.symm.trans hnone) (by simp)
      | looping b w start hblock => exact absurd (hblock.symm.trans hnone) (by simp)
      | done hblock hwork hloaded htotal => exact htotal

omit [FloorSemiring K] [IsStrictOrderedRing K] [LawfulSqrt K] in
/-- A loop is entered with a whole `DT_SEGMENT`. -/
theorem begin_work {plan : Plan K} (hstep : s.begin parkingEnabled plan = some s') :
    ∃ b p, s'.block = some b ∧ s'.prep = p ∧ s'.work = some (.start b p, p) := by
  simp only [State.begin] at hstep
  split at hstep
  · next b hwork hblock =>
      split_ifs at hstep
      · cases hstep
        exact ⟨b, s.prep, hblock, rfl, rfl⟩
      · cases hstep
        exact ⟨_, _, rfl, rfl, rfl⟩
  · cases hstep

omit [LinearOrder K] [FloorSemiring K] [IsStrictOrderedRing K] [Sqrt K] [LawfulSqrt K] in
theorem updatePlanBlockParameters_work (s : State K) : s.updatePlanBlockParameters.work = s.work := by
  simp only [State.updatePlanBlockParameters]
  split <;> rfl

omit [LawfulSqrt K] in
theorem TimeLeft.step {a : Action K} (h : Inv n s) (hnot : NoOverrun s a) (hstep : step parkingEnabled s a = some s') :
    TimeLeft s' := by
  have hnone {t : State K} {w : Work K} {start : Prep K} (hs : (if s.work.isSome then none else some t) = some s')
      (ht : t.work = s.work) (hw : s'.work = some (w, start)) : False := by
    split at hs
    · cases hs
    · next hnot =>
        cases hs
        rw [ht] at hw
        simp [hw] at hnot
  intro w' start' hwork'
  cases a with
  | begin plan =>
      obtain ⟨b, p, -, -, hwork⟩ := begin_work hstep
      obtain ⟨rfl, -⟩ := Prod.mk.inj (Option.some.inj (hwork.symm.trans hwork'))
      exact dtSegment_pos.le
  | pass =>
      have hstep' : s.pass parkingEnabled = some s' := hstep
      rw [State.pass] at hstep'
      split at hstep'
      · next w start b hwork hblock =>
          obtain ⟨b', hblock', hok, -, hloop, -⟩ := h.looping hwork
          obtain rfl : b' = b := Option.some.inj (hblock'.symm.trans hblock)
          simp only [Option.some.injEq] at hstep'
          split at hstep'
          · next hagain =>
              subst hstep'
              obtain ⟨rfl, -⟩ := Prod.mk.inj (Option.some.inj hwork')
              exact hloop.timeVar_nonneg (hnot b' w start hblock hwork) hagain
          · subst hstep'
            rw [finish_work] at hwork'
            cases hwork'
      · cases hstep'
  | update => exact (hnone hstep (updatePlanBlockParameters_work s) hwork').elim
  | hold => exact (hnone hstep (updatePlanBlockParameters_work s) hwork').elim
  | resume => exact (hnone hstep (updatePlanBlockParameters_work s) hwork').elim

end

theorem conserves_of_safe {parkingEnabled : Bool} {s₀ s : State ℝ} {b : Block ℝ} {as : List (Action ℝ)} (hstart : Starts s₀ b)
    (hfits : Along (step parkingEnabled) (Fits parkingEnabled) s₀ as) (hsafe : Along (step parkingEnabled) NoOverrun s₀ as)
    (hrun : run (step parkingEnabled) s₀ as = some s) : Conserves parkingEnabled b.stepEventCount s := by
  have htime : TimeLeft s₀ := fun w start hwork => by simp [hstart.work] at hwork
  obtain ⟨hinv, htime'⟩ := run_invariant_along (I := fun s => Inv b.stepEventCount s ∧ TimeLeft s)
    (fun s a s' ⟨h, _⟩ ⟨hf, hn⟩ hstep => ⟨h.step hf hstep, TimeLeft.step h hn hstep⟩) as s₀ s ⟨inv_start hstart, htime⟩
    (hfits.and hsafe) hrun
  exact (conserves_iff hinv).2 htime'

/-- One step over one millimeter, with the speed of 39 mm/min reached shortly before the end of the fourth `DT_SEGMENT`. -/
def Example.slow : Block ℝ where
  stepEventCount := 1
  condition := ⟨false, false, false, false, false, false⟩
  synchronized := false
  entrySpeedSqr := 0
  acceleration := 60000
  millimeters := 1
  rapidRate := 39
  programmedRate := 39

def Example.fresh : State ℝ where
  block := some Example.slow
  prep := Example.prep

theorem Example.nominalSpeed_slow : Example.slow.nominalSpeed Example.plan = 39 := by
  norm_num [Block.nominalSpeed, Example.slow, Example.plan]

/-- The ramp up after `k` passes. -/
noncomputable def Example.rising (k : ℝ) : Prep ℝ :=
  { Example.prep with
    stepsPerMm := 1, stepsRemaining := 1, reqMmIncrement := 125 / 100, dtRemainder := 0, targetPosition := 0, rampType := .accel
    mmComplete := 0, exitSpeed := 0, targetFeed := 39, maximumSpeed := 39, accelerateUntil := 1 - 1521 / 120000
    decelerateAfter := 1521 / 120000, currentSpeed := 10 * k }

noncomputable def Example.passed (k : ℝ) : Work ℝ := ⟨(k + 1) * dtSegment, k * dtSegment, dtSegment, 1 - k ^ 2 / 1200, 0⟩

theorem Example.begin_slow : Example.fresh.begin false Example.plan =
    some { Example.fresh with loaded := true, prep := Example.rising 0, work := some (Example.passed 0, Example.rising 0) } := by
  have hsqrt : (sqrtf (0 : ℝ)) = 0 := Real.sqrt_zero
  have hload : loadBlock false {} Example.slow Example.prep = (Example.slow, { Example.prep with
      stepsPerMm := 1, stepsRemaining := 1, reqMmIncrement := 125 / 100, dtRemainder := 0, targetPosition := 0, currentSpeed := 0 }) := by
    norm_num [loadBlock, Example.slow, Example.prep, hsqrt]
  have hprofile : velocityProfile {} Example.plan Example.slow { Example.prep with
      stepsPerMm := 1, stepsRemaining := 1, reqMmIncrement := 125 / 100, dtRemainder := 0, targetPosition := 0, currentSpeed := 0 } =
      Example.rising 0 := by
    simp only [velocityProfile, normalProfile, Example.nominalSpeed_slow]
    norm_num [Example.slow, Example.plan, Example.rising, Plan.exitSpeedSqr, hsqrt]
  have hstart : Work.start Example.slow (Example.rising 0) = Example.passed 0 := by
    norm_num [Work.start, Example.passed, Example.slow, Example.rising]
  simp [State.begin, Example.fresh, hload, hprofile, hstart]

theorem Example.pass_slow {k : ℝ} (h0 : 0 ≤ k) (h2 : k ≤ 2) :
    pass Example.slow (Example.rising k) (Example.passed k) = (Example.rising (k + 1), Example.passed (k + 1), true) := by
  have hk : (k + 1) ^ 2 ≤ 9 := by nlinarith
  have hT : (dtSegment : ℝ) = 1 / 6000 := by norm_num [dtSegment]
  have hmm : 1 - k ^ 2 / 1200 - dtSegment * (10 * k + 1 / 2 * (60000 * dtSegment)) = 1 - (k + 1) ^ 2 / 1200 := by
    rw [hT]
    ring
  have hspeed : 10 * k + 60000 * dtSegment = 10 * (k + 1) := by
    rw [hT]
    ring
  have hstay : ¬1 - (k + 1) ^ 2 / 1200 < 1 - 1521 / 120000 := by linarith
  have hramp : ramp Example.slow (Example.rising k) (Example.passed k) =
      (Example.rising (k + 1), { Example.passed k with mmRemaining := 1 - (k + 1) ^ 2 / 1200 }) := by
    simp only [ramp, accelRamp, Example.rising, Example.passed, Example.slow, hmm, hspeed, if_neg hstay]
  have hdt : k * dtSegment + dtSegment = ((k + 1) * dtSegment : ℝ) := by ring
  have hpos : 0 < 1 - (k + 1) ^ 2 / 1200 := by linarith
  rw [pass, hramp]
  simp only [account, Example.passed, hdt, lt_irrefl, if_false, gt_iff_lt, hpos, if_true]
  refine Prod.ext rfl (Prod.ext ?_ ?_)
  · have hnext : (k + 1) * dtSegment + dtSegment = ((k + 1 + 1) * dtSegment : ℝ) := by ring
    simp only [hnext, Work.mk.injEq, true_and, and_true]
    ring
  · simpa [Example.rising] using hpos

/-- After the pass that ends the ramp. -/
noncomputable def Example.overrun : Prep ℝ × Work ℝ :=
  ({ Example.rising 3 with rampType := .cruise, currentSpeed := 39 },
    ⟨5 * dtSegment, 3 * dtSegment + 3042 / 8280000, 5 * dtSegment - (3 * dtSegment + 3042 / 8280000), 1 - 1521 / 120000, 0⟩)

theorem Example.ramp_ends : ramp Example.slow (Example.rising 3) (Example.passed 3) =
    (Example.overrun.1, { Example.passed 3 with mmRemaining := 1 - 1521 / 120000, timeVar := 3042 / 8280000 }) := by
  have hT : (dtSegment : ℝ) = 1 / 6000 := by norm_num [dtSegment]
  norm_num [ramp, accelRamp, Example.rising, Example.passed, Example.slow, Example.overrun, hT]

theorem Example.pass_ends : pass Example.slow (Example.rising 3) (Example.passed 3) = (Example.overrun.1, Example.overrun.2, true) := by
  have hT : (dtSegment : ℝ) = 1 / 6000 := by norm_num [dtSegment]
  rw [pass, Example.ramp_ends]
  norm_num [account, Example.passed, Example.overrun, Example.rising, hT]

/-- The loop with these variables. -/
noncomputable def Example.inLoop (p : Prep ℝ) (w : Work ℝ) : State ℝ :=
  { Example.fresh with loaded := true, prep := p, work := some (w, Example.rising 0) }

theorem Example.step_pass {p p' : Prep ℝ} {w w' : Work ℝ} (h : pass Example.slow p w = (p', w', true)) :
    step false (Example.inLoop p w) .pass = some (Example.inLoop p' w') := by
  simp [step, State.pass, Example.inLoop, Example.fresh, h]

theorem Example.run_overrun : run (step false) Example.fresh [.begin Example.plan, .pass, .pass, .pass, .pass] =
    some (Example.inLoop Example.overrun.1 Example.overrun.2) := by
  have h0 := Example.pass_slow (k := 0) le_rfl (by norm_num)
  have h1 := Example.pass_slow (k := 1) (by norm_num) (by norm_num)
  have h2 := Example.pass_slow (k := 2) (by norm_num) (by norm_num)
  norm_num at h0 h1 h2
  refine run_cons_eq_some.2 ⟨_, Example.begin_slow, ?_⟩
  refine run_cons_eq_some.2 ⟨_, Example.step_pass h0, ?_⟩
  refine run_cons_eq_some.2 ⟨_, Example.step_pass h1, ?_⟩
  refine run_cons_eq_some.2 ⟨_, Example.step_pass h2, ?_⟩
  exact run_cons_eq_some.2 ⟨_, Example.step_pass Example.pass_ends, rfl⟩

theorem Example.starts : Starts Example.fresh Example.slow where
  block := rfl
  ok := ⟨by norm_num [Example.slow], one_pos, le_rfl⟩
  count_pos := one_pos
  count_lt := by norm_num [Example.slow]
  sys := rfl
  loaded := rfl
  profile := rfl
  work := rfl
  segments := rfl
  exit_nonneg := le_rfl

theorem Example.fits : Fits false Example.fresh (.begin Example.plan) := by
  intro b hblock _ _
  obtain rfl : Example.slow = b := Option.some.inj hblock
  have hload : (loadBlock false Example.fresh.ctl Example.slow Example.fresh.prep).1 = Example.slow := rfl
  have hexit : Example.plan.exitSpeedSqr = 0 := rfl
  rw [hload, hexit]
  refine ⟨by norm_num [Example.slow], one_pos, le_rfl, le_rfl, ?_, sq_nonneg _⟩
  norm_num [Example.slow]

/-- The same block up to the first pass. -/
theorem conserves_of_safe_slow : Conserves false 1 (Example.inLoop (Example.rising (0 + 1)) (Example.passed (0 + 1))) := by
  have hpass := Example.pass_slow (k := 0) le_rfl (by norm_num)
  have hrun : run (step false) Example.fresh [.begin Example.plan, .pass] =
      some (Example.inLoop (Example.rising (0 + 1)) (Example.passed (0 + 1))) :=
    run_cons_eq_some.2 ⟨_, Example.begin_slow, run_cons_eq_some.2 ⟨_, Example.step_pass hpass, rfl⟩⟩
  have hfits : Along (step false) (Fits false) Example.fresh [.begin Example.plan, .pass] :=
    ⟨Example.fits, fun _ _ => ⟨trivial, fun _ _ => trivial⟩⟩
  refine conserves_of_safe (b := Example.slow) Example.starts hfits ⟨trivial, fun s hs => ⟨?_, fun _ _ => trivial⟩⟩ hrun
  obtain rfl : _ = s := Option.some.inj (Example.begin_slow.symm.trans hs)
  intro b w start hblock hwork hover
  obtain rfl : Example.slow = b := Option.some.inj hblock
  obtain ⟨rfl, -⟩ := Prod.mk.inj (Option.some.inj hwork)
  rcases hover.1 with ⟨-, hlt⟩ | ⟨hramp, -⟩
  · norm_num [Example.rising, Example.passed, Example.slow, dtSegment] at hlt
  · cases hramp

/-- The ramp up ends in the fourth pass of a loop, with the time from the start of the loop added to that of the first three; the fifth
pass goes back. -/
theorem overrun_goes_back : ∃ s w start,
    Starts Example.fresh Example.slow ∧
      Along (step false) (Fits false) Example.fresh [.begin Example.plan, .pass, .pass, .pass, .pass] ∧
      run (step false) Example.fresh [.begin Example.plan, .pass, .pass, .pass, .pass] = some s ∧ s.work = some (w, start) ∧
      w.mmRemaining < (pass Example.slow s.prep w).2.1.mmRemaining ∧ ¬Conserves false 1 s := by
  have hback : Example.overrun.2.mmRemaining < (pass Example.slow Example.overrun.1 Example.overrun.2).2.1.mmRemaining := by
    have hmm : (pass Example.slow Example.overrun.1 Example.overrun.2).2.1.mmRemaining =
        (ramp Example.slow Example.overrun.1 Example.overrun.2).2.mmRemaining := account_mmRemaining _ _
    rw [hmm]
    norm_num [ramp, cruiseRamp, Example.overrun, Example.rising, dtSegment]
  refine ⟨_, _, _, Example.starts, ⟨Example.fits, fun _ _ => ⟨trivial, fun _ _ => ⟨trivial, fun _ _ => ⟨trivial, fun _ _ => ⟨trivial,
    fun _ _ => trivial⟩⟩⟩⟩⟩, Example.run_overrun, rfl, hback, fun h => ?_⟩
  exact absurd (h.2.1 Example.slow _ _ rfl rfl).1 hback.not_ge

end Grbl.Segments
