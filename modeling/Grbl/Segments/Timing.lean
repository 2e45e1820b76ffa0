import Grbl.Segments.Conservation

/-!
# The time of the segments

* `Exact` : a pass takes its distance over the mean of its speeds, and the speed changes by the acceleration times that time;
* `Fitting`, `exact_iff` : when a pass is exact;
* `Prep.timeLeft` : the time that the rest of the profile takes; `time_of_exact` : what a pass takes of it;
* `timing_exact_iff` : runs; `late_end_is_not_exact` : a run with a late end of the first ramp.
-/

namespace Grbl.Segments
open Lib
open scoped Grbl.Lib.Literal Grbl.Lib.OrderedField

section
variable {K : Type*} [Field K] [LinearOrder K] {b : Block K} {p p' : Prep K} {w w' : Work K}

/-- The time of the pass is its distance over the mean of the speeds before and after it; the speed changes by the acceleration times that
time, and not at all between the ramps. -/
structure Exact (b : Block K) (p : Prep K) (w : Work K) (p' : Prep K) (w' : Work K) : Prop where
  time : w'.timeVar = (w.mmRemaining - w'.mmRemaining) / ((p.currentSpeed + p'.currentSpeed) / 2)
  dist : w.mmRemaining - w'.mmRemaining = w'.timeVar * ((p.currentSpeed + p'.currentSpeed) / 2)
  speed : p'.currentSpeed =
    match p.rampType with
    | .accel => p.currentSpeed + b.acceleration * w'.timeVar
    | .cruise => p.currentSpeed
    | .decel => p.currentSpeed - b.acceleration * w'.timeVar
    | .decelOverride => p.currentSpeed - b.acceleration * w'.timeVar

def LastRampEnds (b : Block K) (p : Prep K) (w : Work K) : Prop :=
  p.rampType = .decel ∧ ¬(b.acceleration * w.timeVar < p.currentSpeed ∧
    p.mmComplete < w.mmRemaining - travel p.currentSpeed (-b.acceleration) w.timeVar)

/-- The first ramp ends in a pass that starts where the segment does, and the last one where the speed has come down to the exit speed. -/
def Fitting (b : Block K) (p : Prep K) (w : Work K) : Prop :=
  (FirstRampEnds b p w → w.mmRemaining = b.millimeters) ∧
    (LastRampEnds b p w → p.currentSpeed ^ 2 = p.exitSpeed ^ 2 + 2 * b.acceleration * (w.mmRemaining - p.mmComplete))

variable [IsStrictOrderedRing K]

theorem time_of_dist {d t v : K} (hv : 0 < v) (h : d = t * (v / 2)) : t = d / (v / 2) := by
  rw [h, mul_div_cancel_right₀]
  linarith

/-- A ramp between two speeds takes twice the distance over their sum only if the squares of the speeds fit the distance. -/
theorem speed_iff {a d v x : K} (hv : 0 ≤ v) (hx : 0 ≤ x) (ha : 0 < a) :
    (2 * d / (v + x) = d / ((v + x) / 2) ∧ d = 2 * d / (v + x) * ((v + x) / 2) ∧ x = v - a * (2 * d / (v + x))) ↔
      v ^ 2 = x ^ 2 + 2 * a * d := by
  constructor
  · rintro ⟨-, hdist, hspeed⟩
    generalize 2 * d / (v + x) = t at *
    have hsum : (v - x) * (v + x) = 2 * a * d := by
      rw [hdist, hspeed]
      ring
    linarith
  · intro h
    have hneg : x ^ 2 = v ^ 2 + 2 * -a * d := by linarith
    have hspeed := speed_after hv hx hneg
    exact ⟨by rw [div_div_eq_mul_div, mul_comm], dist_of_mean hv hx (neg_ne_zero.2 ha.ne') hneg, by linarith⟩

/-- When the speeds fit the distance `d`, a ramp takes twice the distance `d'` over their sum only if `d'` is the distance. -/
theorem dist_iff {a d v x : K} (d' : K) (hv : 0 ≤ v) (hx : 0 < x) (ha : a ≠ 0) (h : x ^ 2 = v ^ 2 + 2 * a * d) :
    (2 * d' / (v + x) = d / ((v + x) / 2) ∧ d = 2 * d' / (v + x) * ((v + x) / 2) ∧ x = v + a * (2 * d' / (v + x))) ↔ d = d' := by
  have hsum : v + x ≠ 0 := by linarith
  constructor
  · rintro ⟨-, hdist, -⟩
    rw [hdist]
    field_simp
  · rintro rfl
    exact ⟨by rw [div_div_eq_mul_div, mul_comm], dist_of_mean hv hx.le ha h, speed_after hv hx.le h⟩

theorem exact_iff (h : InLoop b p w) (ha : 0 < b.acceleration) (hpass : Passes b p w p' w') : Exact b p w p' w' ↔ Fitting b p w := by
  have hspeed := h.profile.speed_nonneg
  have hfirst (hne : p.rampType ≠ .accel) (hne' : p.rampType ≠ .decelOverride) : ¬FirstRampEnds b p w := by
    rintro (⟨hramp, -⟩ | ⟨hramp, -⟩)
    · exact hne hramp
    · exact hne' hramp
  have hlast (hne : p.rampType ≠ .decel) : ¬LastRampEnds b p w := fun hend => hne hend.1
  cases hpass with
  | rise hramp hle =>
      have htime := h.time_pos (.inl hramp)
      have hat := mul_pos ha htime
      have hdist : w.mmRemaining - (w.mmRemaining - travel p.currentSpeed b.acceleration w.timeVar) =
          w.timeVar * ((p.currentSpeed + (p.currentSpeed + b.acceleration * w.timeVar)) / 2) := by
        rw [sub_sub_cancel, travel_eq_mean]
      refine iff_of_true ⟨time_of_dist (by simp only; linarith) hdist, hdist, by simp [hramp]⟩ ⟨?_, fun hend => absurd hend (hlast (by simp [hramp]))⟩
      rintro (⟨-, hlt⟩ | ⟨hramp', -⟩)
      · exact absurd hle (not_le.2 hlt)
      · simp [hramp] at hramp'
  | riseEnds hramp hlt =>
      have hrise := h.profile.rising hramp
      have hends : FirstRampEnds b p w := .inl ⟨hramp, hlt⟩
      have hdist := dist_iff (b.millimeters - p.accelerateUntil) hspeed (h.profile.maximum_pos (by simp [hramp])) ha.ne' hrise.speed
      rw [sub_left_inj] at hdist
      rw [Fitting, imp_iff_right hends, and_iff_left fun hend => absurd hend (hlast (by simp [hramp])), ← hdist]
      constructor
      · rintro ⟨htime, hdist', hspeed'⟩
        exact ⟨htime, hdist', by simpa [hramp] using hspeed'⟩
      · rintro ⟨htime, hdist', hspeed'⟩
        exact ⟨htime, hdist', by simpa [hramp] using hspeed'⟩
  | slow hramp hlt =>
      have hpos := h.profile.maximum_pos (by simp [hramp])
      have hdist : w.mmRemaining - (w.mmRemaining - travel p.currentSpeed (-b.acceleration) w.timeVar) =
          w.timeVar * ((p.currentSpeed + (p.currentSpeed - b.acceleration * w.timeVar)) / 2) := by
        rw [sub_sub_cancel, travel_eq_mean]
        ring
      refine iff_of_true ⟨time_of_dist (by simp only; linarith) hdist, hdist, by simp [hramp]⟩ ⟨?_, fun hend => absurd hend (hlast (by simp [hramp]))⟩
      rintro (⟨hramp', -⟩ | ⟨-, hle⟩)
      · simp [hramp] at hramp'
      · exact absurd hlt (not_lt.2 hle)
  | slowEnds hramp hle =>
      have hslow := h.profile.slowing hramp
      have hends : FirstRampEnds b p w := .inr ⟨hramp, hle⟩
      have hsq : p.maximumSpeed ^ 2 = p.currentSpeed ^ 2 + 2 * -b.acceleration * (w.mmRemaining - p.accelerateUntil) := by
        rw [hslow.speed]
        ring
      have hdist := dist_iff (b.millimeters - p.accelerateUntil) hspeed (h.profile.maximum_pos (by simp [hramp]))
        (neg_ne_zero.2 ha.ne') hsq
      rw [sub_left_inj] at hdist
      rw [Fitting, imp_iff_right hends, and_iff_left fun hend => absurd hend (hlast (by simp [hramp])), ← hdist]
      constructor
      · rintro ⟨htime, hdist', hspeed'⟩
        exact ⟨htime, hdist', by simpa [hramp, sub_eq_add_neg] using hspeed'⟩
      · rintro ⟨htime, hdist', hspeed'⟩
        exact ⟨htime, hdist', by simpa [hramp, sub_eq_add_neg] using hspeed'⟩
  | cruise hramp hle =>
      have hpos := h.profile.maximum_pos (by simp [hramp])
      have heq := (h.profile.cruising hramp).eq
      have hdist : w.mmRemaining - (w.mmRemaining - p.maximumSpeed * w.timeVar) = w.timeVar * ((p.currentSpeed + p.currentSpeed) / 2) := by
        rw [heq]
        ring
      exact iff_of_true ⟨time_of_dist (by rw [heq]; linarith) hdist, hdist, by simp [hramp]⟩
        ⟨fun hend => absurd hend (hfirst (by simp [hramp]) (by simp [hramp])), fun hend => absurd hend (hlast (by simp [hramp]))⟩
  | cruiseEnds hramp hlt =>
      have hpos := h.profile.maximum_pos (by simp [hramp])
      have heq := (h.profile.cruising hramp).eq
      have hdist : w.mmRemaining - p.decelerateAfter =
          (w.mmRemaining - p.decelerateAfter) / p.maximumSpeed * ((p.currentSpeed + p.currentSpeed) / 2) := by
        rw [heq]
        field_simp
        ring
      exact iff_of_true ⟨time_of_dist (by rw [heq]; linarith) hdist, hdist, by simp [hramp]⟩
        ⟨fun hend => absurd hend (hfirst (by simp [hramp]) (by simp [hramp])), fun hend => absurd hend (hlast (by simp [hramp]))⟩
  | fall hramp hlt hle =>
      have hdist : w.mmRemaining - (w.mmRemaining - travel p.currentSpeed (-b.acceleration) w.timeVar) =
          w.timeVar * ((p.currentSpeed + (p.currentSpeed - b.acceleration * w.timeVar)) / 2) := by
        rw [sub_sub_cancel, travel_eq_mean]
        ring
      refine iff_of_true ⟨time_of_dist (by simp only; linarith) hdist, hdist, by simp [hramp]⟩
        ⟨fun hend => absurd hend (hfirst (by simp [hramp]) (by simp [hramp])), fun hend => absurd ⟨hlt, hle⟩ hend.2⟩
  | fallEnds hramp hend =>
      have hlast : LastRampEnds b p w := ⟨hramp, hend⟩
      rw [Fitting, and_iff_right fun hend => absurd hend (hfirst (by simp [hramp]) (by simp [hramp])), imp_iff_right hlast,
        ← speed_iff hspeed h.profile.exit_nonneg ha]
      constructor
      · rintro ⟨htime, hdist, hspeed'⟩
        exact ⟨htime, hdist, by simpa [hramp] using hspeed'⟩
      · rintro ⟨htime, hdist, hspeed'⟩
        exact ⟨htime, hdist, by simpa [hramp] using hspeed'⟩

/-- The time that the profile takes behind the first ramp. -/
def Prep.timeBehind (p : Prep K) (a : K) : K :=
  if p.accelerateUntil = 0 then 0
  else (p.accelerateUntil - p.decelerateAfter) / p.maximumSpeed + (p.maximumSpeed - p.exitSpeed) / a

/-- The time that the rest of the profile takes, from the speed `p.currentSpeed` with the distance `mm` left. -/
def Prep.timeLeft (p : Prep K) (a mm : K) : K :=
  match p.rampType with
  | .accel => (p.maximumSpeed - p.currentSpeed) / a + p.timeBehind a
  | .decelOverride => (p.currentSpeed - p.maximumSpeed) / a + p.timeBehind a
  | .cruise => if mm ≤ 0 then 0 else (mm - p.decelerateAfter) / p.maximumSpeed + (p.maximumSpeed - p.exitSpeed) / a
  | .decel => (p.currentSpeed - p.exitSpeed) / a

theorem Prep.Tops.maximum_eq {a : K} (h : p.Tops a) (hzero : p.decelerateAfter = 0) (hmax : 0 < p.maximumSpeed)
    (hexit : 0 ≤ p.exitSpeed) : p.maximumSpeed = p.exitSpeed := by
  have hsq := h.2.2
  rw [hzero, mul_zero, add_zero] at hsq
  exact (sq_eq_sq₀ hmax.le hexit).1 hsq

theorem timeLeft_until {a : K} {q : Prep K} (hmax : 0 < p.maximumSpeed) (hexit : 0 ≤ p.exitSpeed) (huntil : 0 ≤ p.accelerateUntil)
    (htops : p.Tops a ∨ p.accelerateUntil = 0 ∧ p.maximumSpeed = p.exitSpeed)
    (hq : q = { p with rampType := if p.accelerateUntil = p.decelerateAfter then .decel else .cruise, currentSpeed := p.maximumSpeed } ∨
      q = { p with rampType := .cruise, currentSpeed := p.maximumSpeed }) : q.timeLeft a p.accelerateUntil = p.timeBehind a := by
  have hcruise : (if p.accelerateUntil ≤ 0 then (0 : K)
      else (p.accelerateUntil - p.decelerateAfter) / p.maximumSpeed + (p.maximumSpeed - p.exitSpeed) / a) = p.timeBehind a := by
    rw [Prep.timeBehind]
    by_cases hzero : p.accelerateUntil = 0
    · rw [if_pos hzero, if_pos hzero.le]
    · rw [if_neg hzero, if_neg fun hle => hzero (le_antisymm hle huntil)]
  rcases hq with rfl | rfl
  · by_cases heq : p.accelerateUntil = p.decelerateAfter
    · simp only [Prep.timeLeft, if_pos heq, Prep.timeBehind]
      split
      · next hzero =>
          have hmax' : p.maximumSpeed = p.exitSpeed := by
            rcases htops with htops | ⟨-, hmax'⟩
            · exact htops.maximum_eq (heq.symm.trans hzero) hmax hexit
            · exact hmax'
          rw [hmax', sub_self, zero_div]
      · rw [heq, sub_self, zero_div, zero_add]
    · simp only [Prep.timeLeft, if_neg heq]
      exact hcruise
  · exact hcruise

theorem time_of_exact (h : InLoop b p w) (ha : 0 < b.acceleration) (hpass : Passes b p w p' w') (hexact : Exact b p w p' w') :
    w'.timeVar = p.timeLeft b.acceleration w.mmRemaining - p'.timeLeft b.acceleration w'.mmRemaining := by
  have hexit := h.profile.exit_nonneg
  have hspeed := hexact.speed
  have hne := ha.ne'
  cases hpass with
  | rise hramp hle =>
      simp only [Prep.timeLeft, hramp, Prep.timeBehind]
      field_simp
      ring
  | riseEnds hramp hlt =>
      have hrise := h.profile.rising hramp
      rw [timeLeft_until (h.profile.maximum_pos (by simp [hramp])) hexit hrise.until_nonneg hrise.tops (.inl rfl)]
      simp only [hramp] at hspeed
      simp only [Prep.timeLeft, hramp, add_sub_cancel_right]
      rw [eq_div_iff hne]
      linarith
  | slow hramp hlt =>
      simp only [Prep.timeLeft, hramp, Prep.timeBehind]
      field_simp
      ring
  | slowEnds hramp hle =>
      have hslow := h.profile.slowing hramp
      rw [timeLeft_until (h.profile.maximum_pos (by simp [hramp])) hexit hslow.tops.until_nonneg (.inl hslow.tops) (.inr rfl)]
      simp only [hramp] at hspeed
      simp only [Prep.timeLeft, hramp, add_sub_cancel_right]
      rw [eq_div_iff hne]
      linarith
  | cruise hramp hle =>
      have hmax := h.profile.maximum_pos (by simp [hramp])
      rcases (h.profile.cruising hramp).tops with hzero | ⟨htops, -⟩
      · exact absurd hzero h.mm_pos.ne'
      · simp only [Prep.timeLeft, hramp, if_neg h.mm_pos.not_ge]
        split
        · next hend =>
            have hlast : p.decelerateAfter = 0 := le_antisymm (hle.trans hend) htops.1
            have hmm : w.mmRemaining = p.maximumSpeed * w.timeVar := by linarith
            rw [htops.maximum_eq hlast hmax hexit, hlast, hmm, htops.maximum_eq hlast hmax hexit]
            rw [htops.maximum_eq hlast hmax hexit] at hmax
            field_simp
            ring
        · field_simp
          ring
  | cruiseEnds hramp hlt =>
      simp only [Prep.timeLeft, hramp, if_neg h.mm_pos.not_ge, (h.profile.cruising hramp).eq]
      ring
  | fall hramp hlt hle =>
      simp only [Prep.timeLeft, hramp]
      field_simp
      ring
  | fallEnds hramp hend =>
      simp only [hramp] at hspeed
      simp only [Prep.timeLeft, hramp, sub_self, zero_div, sub_zero]
      rw [eq_div_iff hne]
      linarith

/-! ## Runs -/

variable {a : K} {n : ℕ} {s s' : State K} {parkingEnabled : Bool}

def PassExact (s : State K) : Action K → Prop
  | .pass => ∀ b w start, s.block = some b → s.work = some (w, start) →
      Exact b s.prep w (ramp b s.prep w).1 (ramp b s.prep w).2
  | _ => True

/-- The ramps end where a pass can be exact. -/
def PassFits (s : State K) : Action K → Prop
  | .pass => ∀ b w start, s.block = some b → s.work = some (w, start) → Fitting b s.prep w
  | _ => True

/-- The loops and the segments take the time that the profile takes for their distance. -/
structure Timed (a : K) (s : State K) : Prop where
  acceleration : ∀ b, s.block = some b → b.acceleration = a
  work : ∀ b w start, s.block = some b → s.work = some (w, start) →
    w.dt = start.timeLeft a b.millimeters - s.prep.timeLeft a w.mmRemaining
  segments : ∀ g ∈ s.segments, g.dt = g.start.timeLeft a g.startMm - g.stop.timeLeft a g.stopMm

variable [FloorSemiring K]

omit [IsStrictOrderedRing K] in
theorem finish_cases (parkingEnabled : Bool) (b : Block K) (w : Work K) (start : Prep K) (s : State K) :
    ((s.finish parkingEnabled b w start).segments = s.segments ∧ (s.finish parkingEnabled b w start).block = s.block ∧
        (s.finish parkingEnabled b w start).ctl.endMotion = true) ∨
      (∃ g, (s.finish parkingEnabled b w start).segments = s.segments ++ [g] ∧ g.dt = w.dt ∧ g.start = start ∧
          g.startMm = b.millimeters ∧ g.stop = s.prep ∧ g.stopMm = w.mmRemaining) ∧
        ((s.finish parkingEnabled b w start).block = none ∨
          (s.finish parkingEnabled b w start).block = some { b with millimeters := w.mmRemaining }) := by
  simp only [State.finish]
  split
  · exact .inl ⟨rfl, rfl, rfl⟩
  · right
    split
    · split
      · exact ⟨⟨_, rfl, rfl, rfl, rfl, rfl, rfl⟩, .inr rfl⟩
      · split
        · exact ⟨⟨_, rfl, rfl, rfl, rfl, rfl, rfl⟩, .inr rfl⟩
        · exact ⟨⟨_, rfl, rfl, rfl, rfl, rfl, rfl⟩, .inl rfl⟩
    · exact ⟨⟨_, rfl, rfl, rfl, rfl, rfl, rfl⟩, .inr rfl⟩

theorem Timed.of_pass (ht : Timed a s) (h : Inv n s) (hexact : PassExact s .pass) (hstep : s.pass parkingEnabled = some s') :
    Timed a s' := by
  rw [State.pass] at hstep
  split at hstep
  · next w start b hwork hblock =>
      obtain ⟨b', hblock', hok, -, hloop, -⟩ := h.looping hwork
      obtain rfl : b' = b := Option.some.inj (hblock'.symm.trans hblock)
      have hacc := ht.acceleration b' hblock
      have htime := time_of_exact hloop hok.1 (ramp_passes b' s.prep w) (hexact b' w start hblock hwork)
      have hdt : (pass b' s.prep w).2.1.dt = start.timeLeft a b'.millimeters -
          (pass b' s.prep w).1.timeLeft a (pass b' s.prep w).2.1.mmRemaining := by
        have hnext : (pass b' s.prep w).2.1.dt = (ramp b' s.prep w).2.dt + (ramp b' s.prep w).2.timeVar := account_dt _ _
        have hmm : (pass b' s.prep w).2.1.mmRemaining = (ramp b' s.prep w).2.mmRemaining := account_mmRemaining _ _
        rw [hnext, hmm, (ramp_passes b' s.prep w).dt_eq.1, ht.work b' w start hblock hwork, htime, hacc]
        exact sub_add_sub_cancel _ _ _
      simp only [Option.some.injEq] at hstep
      split at hstep
      · subst hstep
        refine ⟨fun b'' hb => ht.acceleration b'' hb, fun b'' w'' start'' hb hw => ?_, ht.segments⟩
        obtain rfl : b' = b'' := Option.some.inj (hblock.symm.trans hb)
        obtain ⟨rfl, rfl⟩ := Prod.mk.inj (Option.some.inj hw)
        exact hdt
      · subst hstep
        refine ⟨fun b'' hb => ?_, fun b'' w'' start'' _ hw => ?_, ?_⟩
        · rcases finish_cases parkingEnabled b' (pass b' s.prep w).2.1 start { s with
              prep := (pass b' s.prep w).1, work := some ((pass b' s.prep w).2.1, start) } with ⟨-, hsame, -⟩ | ⟨-, hnone | hsome⟩
          · exact ht.acceleration b'' (hsame.symm.trans hb)
          · exact absurd (hnone.symm.trans hb) (by simp)
          · obtain rfl := Option.some.inj (hsome.symm.trans hb)
            exact hacc
        · rw [finish_work] at hw
          cases hw
        · rcases finish_cases parkingEnabled b' (pass b' s.prep w).2.1 start { s with
              prep := (pass b' s.prep w).1, work := some ((pass b' s.prep w).2.1, start) } with ⟨hsegs, -⟩ | ⟨⟨g, hsegs, hgdt, hgstart, hgmm, hgstop, hgmm'⟩, -⟩
          · rw [hsegs]
            exact ht.segments
          · rw [hsegs]
            intro g' hg'
            rcases List.mem_append.1 hg' with hold | hnew
            · exact ht.segments g' hold
            · obtain rfl := List.mem_singleton.1 hnew
              rw [hgdt, hgstart, hgmm, hgstop, hgmm']
              exact hdt
  · cases hstep

variable [Sqrt K] [LawfulSqrt K]

omit [IsStrictOrderedRing K] [FloorSemiring K] [LawfulSqrt K] in
theorem begin_acceleration {plan : Plan K} (hstep : s.begin parkingEnabled plan = some s') :
    (∃ b b', s.block = some b ∧ s'.block = some b' ∧ b'.acceleration = b.acceleration) ∧ s'.segments = s.segments := by
  simp only [State.begin] at hstep
  split at hstep
  · next b hwork hblock =>
      split_ifs at hstep
      · cases hstep
        exact ⟨⟨b, b, hblock, hblock, rfl⟩, rfl⟩
      · cases hstep
        refine ⟨⟨b, _, hblock, rfl, ?_⟩, rfl⟩
        simp only [loadBlock]
        split_ifs <;> rfl
  · cases hstep

omit [IsStrictOrderedRing K] [FloorSemiring K] [Sqrt K] [LawfulSqrt K] in
theorem Timed.update (ht : Timed a s) (hwork : ¬s.work.isSome = true) {ctl : StepControl} :
    Timed a { s.updatePlanBlockParameters with ctl := ctl } := by
  have hnone (b : Block K) (w : Work K) (start : Prep K) (hw : s.work = some (w, start)) : False := by simp [hw] at hwork
  rw [State.updatePlanBlockParameters]
  split
  · refine ⟨fun b hb => ?_, fun b w start _ hw => (hnone b w start hw).elim, ht.segments⟩
    obtain ⟨b', hb', rfl⟩ := Option.map_eq_some_iff.1 hb
    exact ht.acceleration b' hb'
  · exact ⟨ht.acceleration, fun b w start _ hw => (hnone b w start hw).elim, ht.segments⟩

omit [LawfulSqrt K] in
theorem Timed.step {x : Action K} (ht : Timed a s) (h : Inv n s) (hexact : PassExact s x) (hstep : step parkingEnabled s x = some s') :
    Timed a s' := by
  cases x with
  | begin plan =>
      obtain ⟨⟨b, b', hb, hb', hacc⟩, hsegs⟩ := begin_acceleration hstep
      refine ⟨fun b'' hb'' => ?_, fun b'' w start hb'' hw => ?_, by rw [hsegs]; exact ht.segments⟩
      · obtain rfl := Option.some.inj (hb'.symm.trans hb'')
        exact hacc.trans (ht.acceleration b hb)
      · obtain ⟨b₁, p, hb₁, hp, hwork⟩ := begin_work hstep
        obtain rfl := Option.some.inj (hb₁.symm.trans hb'')
        obtain ⟨rfl, rfl⟩ := Prod.mk.inj (Option.some.inj (hwork.symm.trans hw))
        rw [hp]
        exact (sub_self _).symm
  | pass => exact ht.of_pass h hexact hstep
  | update =>
      rw [Segments.step] at hstep
      split at hstep
      · cases hstep
      · next hnone => cases hstep; exact ht.update hnone
  | hold =>
      rw [Segments.step] at hstep
      split at hstep
      · cases hstep
      · next hnone => cases hstep; exact ht.update hnone
  | resume =>
      rw [Segments.step] at hstep
      split at hstep
      · cases hstep
      · next hnone => cases hstep; exact ht.update hnone

theorem along_exact_iff : ∀ (as : List (Action K)) (s : State K), Inv n s → Along (step parkingEnabled) (Fits parkingEnabled) s as →
    (Along (step parkingEnabled) PassExact s as ↔ Along (step parkingEnabled) PassFits s as) := by
  intro as
  induction as with
  | nil => intro _ _ _; exact Iff.rfl
  | cons x as ih =>
      intro s h hfits
      have hhead : PassExact s x ↔ PassFits s x := by
        cases x with
        | pass =>
            refine forall_congr' fun b => forall_congr' fun w => forall_congr' fun start => ?_
            refine imp_congr_right fun hblock => imp_congr_right fun hwork => ?_
            obtain ⟨b', hblock', hok, -, hloop, -⟩ := h.looping hwork
            obtain rfl : b' = b := Option.some.inj (hblock'.symm.trans hblock)
            exact exact_iff hloop hok.1 (ramp_passes b' s.prep w)
        | begin | update | hold | resume => exact Iff.rfl
      refine and_congr hhead (forall_congr' fun t => imp_congr_right fun hstep => ih t (h.step hfits.1 hstep) (hfits.2 t hstep))

/-! ## Feed holds -/

/-- The end of a feed hold is not planned near the end of the block unless it is the end of the block. -/
def HoldsExactly (parkingEnabled : Bool) (s : State K) : Action K → Prop
  | .begin _ => ∀ b, s.block = some b → s.loaded = false → s.ctl.executeHold = true →
      let r := loadBlock parkingEnabled s.ctl b s.prep
      let decelDist := r.1.millimeters - 1 / 2 / r.1.acceleration * r.1.entrySpeedSqr
      decelDist < -(1 / 10000) ∨ decelDist = 0 ∨ 1 / 10000 ≤ decelDist
  | _ => True

/-- The first ramp ends in a pass that starts where the segment does. -/
def FirstRampsFit (s : State K) : Action K → Prop
  | .pass => ∀ b w start, s.block = some b → s.work = some (w, start) → FirstRampEnds b s.prep w → w.mmRemaining = b.millimeters
  | _ => True

/-- On the last ramp the speed fits what is left, in a loop and before the next one. -/
structure Falling (s : State K) : Prop where
  work : ∀ b w start, s.block = some b → s.work = some (w, start) → s.prep.FallsTo b.acceleration w.mmRemaining
  ready : ∀ b, s.block = some b → s.work = none → s.loaded = true → s.ctl.endMotion = false →
    s.prep.FallsTo b.acceleration b.millimeters

theorem fallsTo_hold {b : Block K} {p : Prep K} (ha : 0 < b.acceleration) (hentry : p.currentSpeed ^ 2 = b.entrySpeedSqr)
    (h : b.millimeters - 1 / 2 / b.acceleration * b.entrySpeedSqr < -(1 / 10000) ∨
      b.millimeters - 1 / 2 / b.acceleration * b.entrySpeedSqr = 0 ∨
      1 / 10000 ≤ b.millimeters - 1 / 2 / b.acceleration * b.entrySpeedSqr) :
    (holdProfile b p).FallsTo b.acceleration b.millimeters := by
  intro _
  have hk := two_mul_inv b.acceleration b.entrySpeedSqr ha
  have hpos : (0 : K) < 1 / 10000 := by positivity
  generalize hd : b.millimeters - 1 / 2 / b.acceleration * b.entrySpeedSqr = d at *
  have hentry' : b.entrySpeedSqr = 2 * b.acceleration * (b.millimeters - d) := by
    rw [← hd, sub_sub_cancel, hk]
  simp only [holdProfile, hd]
  rcases h with hneg | hzero | hge
  · have hsq : 0 ≤ b.entrySpeedSqr - 2 * b.acceleration * b.millimeters := by
      have := mul_neg_of_pos_of_neg ha (show d < 0 by linarith)
      rw [hentry']
      linarith
    simp only [if_pos hneg, hentry, sq_sqrtf _ hsq]
    ring
  · rw [hzero, sub_zero] at hentry'
    have h1 : ¬(0 : K) < -(1 / 10000) := by linarith
    simp only [hzero, if_neg h1, if_pos hpos, hentry, hentry']
    ring
  · have h1 : ¬d < -(1 / 10000) := by linarith
    simp only [if_neg h1, if_neg (not_lt.2 hge), hentry, hentry']
    ring

omit [IsStrictOrderedRing K] [Sqrt K] [LawfulSqrt K] in
theorem finish_fallsTo {b b' : Block K} {w : Work K} {start : Prep K} (hfalls : s.prep.FallsTo b.acceleration w.mmRemaining)
    (hb : (s.finish parkingEnabled b w start).block = some b') (hend : (s.finish parkingEnabled b w start).ctl.endMotion = false) :
    (s.finish parkingEnabled b w start).prep.FallsTo b'.acceleration b'.millimeters := by
  simp only [State.finish] at hb hend ⊢
  split at hb
  · next hbail => simp [hbail, State.endMotion] at hend
  · next hpush =>
      simp only [if_neg hpush] at hend ⊢
      split at hb
      · next hcomplete =>
          simp only [if_pos hcomplete] at hend ⊢
          split at hb
          · next hmm => simp [hmm, State.endMotion] at hend
          · next hmm =>
              simp only [if_neg hmm] at hend ⊢
              split at hb
              · next hsys => simp [hsys] at hend
              · cases hb
      · next hcomplete =>
          obtain rfl := Option.some.inj hb
          simp only [if_neg hcomplete]
          exact hfalls

theorem Falling.begin {plan : Plan K} (hf : Falling s) (h : Inv n s) (hfits : Fits parkingEnabled s (.begin plan))
    (hholds : HoldsExactly parkingEnabled s (.begin plan)) (hstep : s.begin parkingEnabled plan = some s') : Falling s' := by
  have hwork' := begin_work hstep
  refine ⟨fun b w start hb hw => ?_, fun b _ hw => ?_⟩
  · have hprofile {r : Block K × Prep K} (hok : r.1.Ok) (hentry : r.2.currentSpeed ^ 2 = r.1.entrySpeedSqr) (hcur : 0 ≤ r.2.currentSpeed)
        (hfeas : s.ctl.executeHold = false → Feasible r.1 plan.exitSpeedSqr (r.1.nominalSpeed plan))
        (hexact : s.ctl.executeHold = true →
          r.1.millimeters - 1 / 2 / r.1.acceleration * r.1.entrySpeedSqr < -(1 / 10000) ∨
            r.1.millimeters - 1 / 2 / r.1.acceleration * r.1.entrySpeedSqr = 0 ∨
            1 / 10000 ≤ r.1.millimeters - 1 / 2 / r.1.acceleration * r.1.entrySpeedSqr) :
        (velocityProfile s.ctl plan r.1 r.2).FallsTo r.1.acceleration r.1.millimeters := by
      rw [velocityProfile]
      cases hhold : s.ctl.executeHold with
      | true => exact fallsTo_hold hok.1 hentry (hexact hhold)
      | false => exact (onProfile_normal h.sys (hfeas hhold) hcur hentry).2
    cases h.stage with
    | fresh b' hblock hok hloaded hvp hwork hsegments hcount hexit =>
        rw [begin_unloaded hwork hblock hloaded] at hstep
        split at hstep
        · cases hstep
        · cases hstep
          obtain rfl := Option.some.inj hb
          obtain ⟨rfl, -⟩ := Prod.mk.inj (Option.some.inj hw)
          have hloads : Loads b' (loadBlock parkingEnabled s.ctl b' s.prep) := loadBlock_fresh hvp hok hexit
          exact hprofile hloads.ok hloads.speed hloads.speed_nonneg (hfits b' hblock hloaded) (hholds b' hblock hloaded)
    | pending b' hblock hok hloaded hvp hwork hprogress hcur hentry =>
        rw [begin_unloaded hwork hblock hloaded] at hstep
        split at hstep
        · cases hstep
        · cases hstep
          obtain rfl := Option.some.inj hb
          obtain ⟨rfl, -⟩ := Prod.mk.inj (Option.some.inj hw)
          obtain ⟨hfst, hsnd, hcur'⟩ := loadBlock_pending b' s.ctl parkingEnabled hvp
          refine hprofile ?_ ?_ ?_ (hfits b' hblock hloaded) (hholds b' hblock hloaded)
          · rwa [hfst]
          · rwa [hcur', hfst]
          · rwa [hcur']
    | ready b' hblock hok hloaded hwork hprogress hprofile' hhold hcomplete =>
        rw [begin_loaded hwork hblock hloaded] at hstep
        split at hstep
        · cases hstep
        · next hend =>
            cases hstep
            obtain rfl := Option.some.inj (hblock.symm.trans hb)
            obtain ⟨rfl, -⟩ := Prod.mk.inj (Option.some.inj hw)
            exact hf.ready b' hblock hwork hloaded (by simpa using hend)
    | looping b' w' start' hblock hok hloaded hwork =>
        rw [begin_working hwork] at hstep
        cases hstep
    | done hblock hwork =>
        rw [begin_discarded hblock] at hstep
        cases hstep
  · obtain ⟨b', p, -, -, hw'⟩ := hwork'
    exact absurd (hw'.symm.trans hw) (by simp)

omit [Sqrt K] [LawfulSqrt K] in
theorem Falling.of_pass (hf : Falling s) (h : Inv n s) (hstep : s.pass parkingEnabled = some s') : Falling s' := by
  rw [State.pass] at hstep
  split at hstep
  · next w start b hwork hblock =>
      obtain ⟨b', hblock', hok, -, hloop, -⟩ := h.looping hwork
      obtain rfl : b' = b := Option.some.inj (hblock'.symm.trans hblock)
      have hmm : (pass b' s.prep w).2.1.mmRemaining = (ramp b' s.prep w).2.mmRemaining := account_mmRemaining _ _
      have hfalls : (pass b' s.prep w).1.FallsTo b'.acceleration (pass b' s.prep w).2.1.mmRemaining := by
        rw [hmm]
        exact (hf.work b' w start hblock hwork).passes hloop.profile hloop.mm_pos (ramp_passes b' s.prep w)
      simp only [Option.some.injEq] at hstep
      split at hstep
      · subst hstep
        refine ⟨fun b'' w'' start'' hb hw => ?_, fun b'' _ hw => by simp at hw⟩
        obtain rfl : b' = b'' := Option.some.inj (hblock.symm.trans hb)
        obtain ⟨rfl, -⟩ := Prod.mk.inj (Option.some.inj hw)
        exact hfalls
      · subst hstep
        refine ⟨fun b'' w'' start'' _ hw => ?_, fun b'' hb _ _ hend => finish_fallsTo hfalls hb hend⟩
        rw [finish_work] at hw
        cases hw
  · cases hstep

omit [LinearOrder K] [IsStrictOrderedRing K] [FloorSemiring K] [Sqrt K] [LawfulSqrt K] in
theorem Falling.update (hwork : ¬s.work.isSome = true) {ctl : StepControl} : Falling { s.updatePlanBlockParameters with ctl := ctl } := by
  have hnone (w : Work K) (start : Prep K) (hw : s.work = some (w, start)) : False := by simp [hw] at hwork
  rw [State.updatePlanBlockParameters]
  split
  · exact ⟨fun b w start _ hw => (hnone w start hw).elim, (by rintro _ _ _ ⟨⟩)⟩
  · next hloaded => exact ⟨fun b w start _ hw => (hnone w start hw).elim, fun b _ _ hl => absurd hl hloaded⟩

theorem Falling.step {x : Action K} (hf : Falling s) (h : Inv n s) (hfits : Fits parkingEnabled s x)
    (hholds : HoldsExactly parkingEnabled s x) (hstep : step parkingEnabled s x = some s') : Falling s' := by
  cases x with
  | begin plan => exact hf.begin h hfits hholds hstep
  | pass => exact hf.of_pass h hstep
  | update =>
      rw [Segments.step] at hstep
      split at hstep
      · cases hstep
      · next hnone => cases hstep; exact Falling.update hnone
  | hold =>
      rw [Segments.step] at hstep
      split at hstep
      · cases hstep
      · next hnone => cases hstep; exact Falling.update hnone
  | resume =>
      rw [Segments.step] at hstep
      split at hstep
      · cases hstep
      · next hnone => cases hstep; exact Falling.update hnone

theorem along_passFits : ∀ (as : List (Action K)) (s : State K), Inv n s → Falling s →
    Along (step parkingEnabled) (Fits parkingEnabled) s as → Along (step parkingEnabled) FirstRampsFit s as →
    Along (step parkingEnabled) (HoldsExactly parkingEnabled) s as → Along (step parkingEnabled) PassFits s as := by
  intro as
  induction as with
  | nil => intro _ _ _ _ _ _; trivial
  | cons x as ih =>
      intro s h hf hfits hfirst hholds
      refine ⟨?_, fun t hstep => ih t (h.step hfits.1 hstep) (hf.step h hfits.1 hholds.1 hstep) (hfits.2 t hstep) (hfirst.2 t hstep)
        (hholds.2 t hstep)⟩
      cases x with
      | pass =>
          intro b w start hblock hwork
          exact ⟨hfirst.1 b w start hblock hwork, fun hlast => hf.work b w start hblock hwork hlast.1⟩
      | begin | update | hold | resume => trivial

end

theorem timing_exact_iff {parkingEnabled : Bool} {s₀ s : State ℝ} {b : Block ℝ} {as : List (Action ℝ)} (hstart : Starts s₀ b)
    (hfits : Along (step parkingEnabled) (Fits parkingEnabled) s₀ as) (hrun : run (step parkingEnabled) s₀ as = some s) :
    (Along (step parkingEnabled) PassExact s₀ as ↔ Along (step parkingEnabled) PassFits s₀ as) ∧
      (Along (step parkingEnabled) PassFits s₀ as → ∀ g ∈ s.segments,
        g.dt = g.start.timeLeft b.acceleration g.startMm - g.stop.timeLeft b.acceleration g.stopMm) ∧
      (Along (step parkingEnabled) FirstRampsFit s₀ as → Along (step parkingEnabled) (HoldsExactly parkingEnabled) s₀ as →
        Along (step parkingEnabled) PassFits s₀ as) := by
  have hinv := inv_start hstart
  have hnowork {w : Work ℝ} {start : Prep ℝ} (hw : s₀.work = some (w, start)) : False := by simp [hstart.work] at hw
  have hiff := along_exact_iff as s₀ hinv hfits
  refine ⟨hiff, fun hpasses => ?_, fun hfirst hholds => ?_⟩
  · have htimed : Timed b.acceleration s₀ := by
      refine ⟨fun b' hb' => ?_, fun _ _ _ _ hw => (hnowork hw).elim, by simp [hstart.segments]⟩
      rw [Option.some.inj (hstart.block.symm.trans hb')]
    obtain ⟨-, htimed'⟩ := run_invariant_along (I := fun s => Inv b.stepEventCount s ∧ Timed b.acceleration s)
      (fun s a s' ⟨h, ht⟩ ⟨hf, he⟩ hstep => ⟨h.step hf hstep, ht.step h he hstep⟩) as s₀ s ⟨hinv, htimed⟩
      (hfits.and (hiff.2 hpasses)) hrun
    exact htimed'.segments
  · refine along_passFits as s₀ hinv ⟨fun _ _ _ _ hw => (hnowork hw).elim, fun _ _ _ hl => ?_⟩ hfits hfirst hholds
    exact absurd (hstart.loaded.symm.trans hl) Bool.false_ne_true

/-- The passes of the same block up to the first one. -/
theorem timing_exact_iff_slow : Along (step false) PassExact Example.fresh [.begin Example.plan, .pass] := by
  have hrun : run (step false) Example.fresh [.begin Example.plan, .pass] = some _ :=
    run_cons_eq_some.2 ⟨_, Example.begin_slow, run_cons_eq_some.2 ⟨_, Example.step_pass (Example.pass_slow le_rfl (by norm_num)), rfl⟩⟩
  have hfits : Along (step false) (Fits false) Example.fresh [.begin Example.plan, .pass] :=
    ⟨Example.fits, fun _ _ => ⟨trivial, fun _ _ => trivial⟩⟩
  obtain ⟨hiff, -, hfirst⟩ := timing_exact_iff (b := Example.slow) Example.starts hfits hrun
  refine hiff.2 (hfirst ⟨trivial, fun s hs => ⟨?_, fun _ _ => trivial⟩⟩ ⟨fun _ _ _ hhold => (nomatch hhold), fun _ _ => ⟨trivial, fun _ _ => trivial⟩⟩)
  obtain rfl : _ = s := Option.some.inj (Example.begin_slow.symm.trans hs)
  intro b w start hblock hwork _
  obtain rfl : Example.slow = b := Option.some.inj hblock
  obtain ⟨rfl, -⟩ := Prod.mk.inj (Option.some.inj hwork)
  norm_num [Example.passed, Example.slow]

/-- The pass that ends the ramp up after three others takes the time of the whole ramp for the rest of it. -/
theorem late_end_is_not_exact : Starts Example.fresh Example.slow ∧
    (∃ s, run (step false) Example.fresh [.begin Example.plan, .pass, .pass, .pass, .pass] = some s) ∧
      Along (step false) (Fits false) Example.fresh [.begin Example.plan, .pass, .pass, .pass, .pass] ∧
      ¬Along (step false) PassExact Example.fresh [.begin Example.plan, .pass, .pass, .pass, .pass] := by
  refine ⟨Example.starts, ⟨_, Example.run_overrun⟩, ⟨Example.fits, fun _ _ => ⟨trivial, fun _ _ => ⟨trivial, fun _ _ => ⟨trivial,
    fun _ _ => ⟨trivial, fun _ _ => trivial⟩⟩⟩⟩⟩, fun h => ?_⟩
  have h0 := Example.pass_slow (k := 0) le_rfl (by norm_num)
  have h1 := Example.pass_slow (k := 1) (by norm_num) (by norm_num)
  have h2 := Example.pass_slow (k := 2) (by norm_num) (by norm_num)
  norm_num at h0 h1 h2
  obtain ⟨-, h⟩ := h
  obtain ⟨-, h⟩ := h _ Example.begin_slow
  obtain ⟨-, h⟩ := h _ (Example.step_pass h0)
  obtain ⟨-, h⟩ := h _ (Example.step_pass h1)
  obtain ⟨hexact, -⟩ := h _ (Example.step_pass h2)
  have hdist := (hexact Example.slow _ _ rfl rfl).dist
  have hramp : ramp Example.slow (Example.rising 3) (Example.passed 3) =
      (Example.overrun.1, { Example.passed 3 with mmRemaining := 1 - 1521 / 120000, timeVar := 3042 / 8280000 }) := Example.ramp_ends
  simp only [Example.inLoop, hramp] at hdist
  norm_num [Example.passed, Example.rising, Example.overrun] at hdist

end Grbl.Segments
