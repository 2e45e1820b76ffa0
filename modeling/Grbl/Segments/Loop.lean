import Grbl.Segments.Machine

/-!
# Passes of the segment loop

* `Prep.Tops`, `OnProfile`, `Prep.FallsTo` : the speed fits what is left of the block, ramp by ramp;
* `FirstRampEnds`, `Overruns` : the pass ends the ramp up or down to the maximum speed, and gets more time than there is;
* `Passes`, `ramp_passes` : what the `switch` does; `account_cases` : what follows it;
* `OnProfile.passes`, `Prep.FallsTo.passes` : the speed keeps fitting;
* `OnProfile.le_iff` : when a pass does not increase the distance that remains;
* `InLoop`, `InLoop.again`, `InLoop.timeVar_nonneg` : what a loop keeps between two passes;
* `rank`, `InLoop.rank_lt` : the loop ends.
-/

namespace Grbl.Segments
open Lib
open scoped Grbl.Lib.Literal Grbl.Lib.OrderedField

section
variable {K : Type*} [Field K] [LinearOrder K] {b : Block K} {p : Prep K} {w : Work K} {a mm : K}

/-- The last ramp starts at the maximum speed and not before the first one has ended. -/
def Prep.Tops (p : Prep K) (a : K) : Prop :=
  0 ≤ p.decelerateAfter ∧ p.decelerateAfter ≤ p.accelerateUntil ∧ p.maximumSpeed ^ 2 = p.exitSpeed ^ 2 + 2 * a * p.decelerateAfter

/-- The speed on the ramp up. Without a last ramp it ends at the end of the block. -/
structure Prep.Rising (p : Prep K) (a mm : K) : Prop where
  le : p.currentSpeed ≤ p.maximumSpeed
  speed : p.maximumSpeed ^ 2 = p.currentSpeed ^ 2 + 2 * a * (mm - p.accelerateUntil)
  tops : p.Tops a ∨ p.accelerateUntil = 0 ∧ p.maximumSpeed = p.exitSpeed

structure Prep.Slowing (p : Prep K) (a mm : K) : Prop where
  le : p.maximumSpeed ≤ p.currentSpeed
  speed : p.currentSpeed ^ 2 = p.maximumSpeed ^ 2 + 2 * a * (mm - p.accelerateUntil)
  tops : p.Tops a

/-- The speed between the ramps. -/
structure Prep.Cruising (p : Prep K) (a mm : K) : Prop where
  eq : p.currentSpeed = p.maximumSpeed
  tops : mm = 0 ∨ p.Tops a ∧ p.decelerateAfter ≤ mm

/-- The speed fits what is left of the block. On the last ramp nothing is asked, see `Prep.FallsTo`. -/
structure OnProfile (a : K) (p : Prep K) (mm : K) : Prop where
  speed_nonneg : 0 ≤ p.currentSpeed
  exit_nonneg : 0 ≤ p.exitSpeed
  complete_nonneg : 0 ≤ p.mmComplete
  complete_le : p.mmComplete ≤ mm
  complete : p.rampType ≠ .decel → p.mmComplete = 0
  maximum_pos : p.rampType ≠ .decel → 0 < p.maximumSpeed
  rising : p.rampType = .accel → p.Rising a mm
  slowing : p.rampType = .decelOverride → p.Slowing a mm
  cruising : p.rampType = .cruise → p.Cruising a mm

theorem OnProfile.congr {q : Prep K} (h : OnProfile a p mm) (hramp : q.rampType = p.rampType)
    (hcomplete : q.mmComplete = p.mmComplete) (hcur : q.currentSpeed = p.currentSpeed) (hmax : q.maximumSpeed = p.maximumSpeed)
    (hexit : q.exitSpeed = p.exitSpeed) (huntil : q.accelerateUntil = p.accelerateUntil)
    (hafter : q.decelerateAfter = p.decelerateAfter) : OnProfile a q mm := by
  have htops : q.Tops a ↔ p.Tops a := by rw [Prep.Tops, Prep.Tops, hafter, huntil, hmax, hexit]
  obtain ⟨h1, h2, h3, h4, h5, h6, h7, h8, h9⟩ := h
  rw [← hramp] at h5 h6 h7 h8 h9
  refine ⟨by rwa [hcur], by rwa [hexit], by rwa [hcomplete], by rwa [hcomplete], by rwa [hcomplete], by rwa [hmax], fun hq => ?_,
    fun hq => ?_, fun hq => ?_⟩
  · obtain ⟨hle, hspeed, htop⟩ := h7 hq
    exact ⟨by rwa [hcur, hmax], by rwa [hcur, hmax, huntil], by rwa [htops, huntil, hmax, hexit]⟩
  · obtain ⟨hle, hspeed, htop⟩ := h8 hq
    exact ⟨by rwa [hcur, hmax], by rwa [hcur, hmax, huntil], htops.2 htop⟩
  · obtain ⟨heq, htop⟩ := h9 hq
    exact ⟨by rwa [hcur, hmax], by rwa [htops, hafter]⟩

theorem OnProfile.decel (h : OnProfile a p mm) (hdecel : p.rampType = .decel) {mm' : K} (hle : p.mmComplete ≤ mm') :
    OnProfile a p mm' :=
  ⟨h.speed_nonneg, h.exit_nonneg, h.complete_nonneg, hle, h.complete, h.maximum_pos, fun habs => by simp [hdecel] at habs,
    fun habs => by simp [hdecel] at habs, fun habs => by simp [hdecel] at habs⟩

/-- On the last ramp the speed reaches the exit speed where the profile ends. -/
def Prep.FallsTo (p : Prep K) (a mm : K) : Prop :=
  p.rampType = .decel → p.currentSpeed ^ 2 = p.exitSpeed ^ 2 + 2 * a * (mm - p.mmComplete)

/-- The pass ends the ramp up or down to the maximum speed. -/
def FirstRampEnds (b : Block K) (p : Prep K) (w : Work K) : Prop :=
  p.rampType = .accel ∧ w.mmRemaining - w.timeVar * (p.currentSpeed + 1 / 2 * (b.acceleration * w.timeVar)) < p.accelerateUntil ∨
    p.rampType = .decelOverride ∧ p.currentSpeed - p.maximumSpeed ≤ b.acceleration * w.timeVar

/-- What the `switch` does to the distance, the speed and the time. -/
inductive Passes (b : Block K) (p : Prep K) (w : Work K) : Prep K → Work K → Prop
  | rise (hramp : p.rampType = .accel) (hle : p.accelerateUntil ≤ w.mmRemaining - travel p.currentSpeed b.acceleration w.timeVar) :
      Passes b p w { p with currentSpeed := p.currentSpeed + b.acceleration * w.timeVar }
        { w with mmRemaining := w.mmRemaining - travel p.currentSpeed b.acceleration w.timeVar }
  | riseEnds (hramp : p.rampType = .accel) (hlt : w.mmRemaining - travel p.currentSpeed b.acceleration w.timeVar < p.accelerateUntil) :
      Passes b p w
        { p with
          rampType := if p.accelerateUntil = p.decelerateAfter then .decel else .cruise
          currentSpeed := p.maximumSpeed }
        { w with
          mmRemaining := p.accelerateUntil
          timeVar := 2 * (b.millimeters - p.accelerateUntil) / (p.currentSpeed + p.maximumSpeed) }
  | slow (hramp : p.rampType = .decelOverride) (hlt : b.acceleration * w.timeVar < p.currentSpeed - p.maximumSpeed) :
      Passes b p w { p with currentSpeed := p.currentSpeed - b.acceleration * w.timeVar }
        { w with mmRemaining := w.mmRemaining - travel p.currentSpeed (-b.acceleration) w.timeVar }
  | slowEnds (hramp : p.rampType = .decelOverride) (hle : p.currentSpeed - p.maximumSpeed ≤ b.acceleration * w.timeVar) :
      Passes b p w { p with rampType := .cruise, currentSpeed := p.maximumSpeed }
        { w with
          mmRemaining := p.accelerateUntil
          timeVar := 2 * (b.millimeters - p.accelerateUntil) / (p.currentSpeed + p.maximumSpeed) }
  | cruise (hramp : p.rampType = .cruise) (hle : p.decelerateAfter ≤ w.mmRemaining - p.maximumSpeed * w.timeVar) :
      Passes b p w p { w with mmRemaining := w.mmRemaining - p.maximumSpeed * w.timeVar }
  | cruiseEnds (hramp : p.rampType = .cruise) (hlt : w.mmRemaining - p.maximumSpeed * w.timeVar < p.decelerateAfter) :
      Passes b p w { p with rampType := .decel }
        { w with
          timeVar := (w.mmRemaining - p.decelerateAfter) / p.maximumSpeed
          mmRemaining := p.decelerateAfter }
  | fall (hramp : p.rampType = .decel) (hlt : b.acceleration * w.timeVar < p.currentSpeed)
      (hle : p.mmComplete < w.mmRemaining - travel p.currentSpeed (-b.acceleration) w.timeVar) :
      Passes b p w { p with currentSpeed := p.currentSpeed - b.acceleration * w.timeVar }
        { w with mmRemaining := w.mmRemaining - travel p.currentSpeed (-b.acceleration) w.timeVar }
  | fallEnds (hramp : p.rampType = .decel)
      (hend : ¬(b.acceleration * w.timeVar < p.currentSpeed ∧
        p.mmComplete < w.mmRemaining - travel p.currentSpeed (-b.acceleration) w.timeVar)) :
      Passes b p w { p with currentSpeed := p.exitSpeed }
        { w with
          timeVar := 2 * (w.mmRemaining - p.mmComplete) / (p.currentSpeed + p.exitSpeed)
          mmRemaining := p.mmComplete }

theorem ramp_passes (b : Block K) (p : Prep K) (w : Work K) : Passes b p w (ramp b p w).1 (ramp b p w).2 := by
  rw [ramp]
  cases hramp : p.rampType with
  | decelOverride =>
      simp only [decelOverrideRamp, ← travel_neg]
      split
      · next h => exact .slowEnds hramp h
      · next h => exact .slow hramp (not_le.1 h)
  | accel =>
      simp only [accelRamp]
      split
      · next h => exact .riseEnds hramp h
      · next h => exact .rise hramp (not_lt.1 h)
  | cruise =>
      simp only [cruiseRamp]
      split
      · next h => exact .cruiseEnds hramp h
      · next h => exact .cruise hramp (not_lt.1 h)
  | decel =>
      simp only [decelRamp, ← travel_neg]
      split
      · next h => exact .fall hramp h.1 h.2
      · next h => exact .fallEnds hramp h

variable {p' : Prep K} {w' : Work K}

theorem Passes.timeVar_eq (h : Passes b p w p' w') (hramp : p'.rampType = p.rampType) (hmm : p'.mmComplete < w'.mmRemaining) :
    w'.timeVar = w.timeVar := by
  cases h with
  | rise | slow | cruise | fall => rfl
  | riseEnds hramp' =>
      simp only [hramp'] at hramp
      split at hramp <;> cases hramp
  | slowEnds hramp' => rw [hramp'] at hramp; cases hramp
  | cruiseEnds hramp' => rw [hramp'] at hramp; cases hramp
  | fallEnds => exact absurd hmm (lt_irrefl _)

@[simp] theorem account_mmRemaining (p : Prep K) (w : Work K) : (account p w).1.mmRemaining = w.mmRemaining := by
  simp only [account]
  split_ifs <;> rfl

@[simp] theorem account_dt (p : Prep K) (w : Work K) : (account p w).1.dt = w.dt + w.timeVar := by
  simp only [account]
  split_ifs <;> rfl

/-- The order in which the ramps follow each other. -/
def RampType.phase : RampType → ℕ
  | .accel => 2
  | .decelOverride => 2
  | .cruise => 1
  | .decel => 0

theorem Passes.phase (h : Passes b p w p' w') :
    p'.rampType = p.rampType ∨ p'.rampType.phase < p.rampType.phase ∧ (p'.rampType = .cruise ∨ p'.rampType = .decel) := by
  cases h with
  | rise | slow | cruise | fall | fallEnds => exact .inl rfl
  | riseEnds hramp =>
      right
      rw [hramp]
      simp only
      split
      · exact ⟨by decide, .inr rfl⟩
      · exact ⟨by decide, .inl rfl⟩
  | slowEnds hramp => exact .inr ⟨by simp [hramp, RampType.phase], .inl rfl⟩
  | cruiseEnds hramp => exact .inr ⟨by simp [hramp, RampType.phase], .inr rfl⟩

theorem Passes.minimumMm_eq (h : Passes b p w p' w') : w'.minimumMm = w.minimumMm := by
  cases h <;> rfl

theorem Passes.dt_eq (h : Passes b p w p' w') : w'.dt = w.dt ∧ w'.dtMax = w.dtMax := by
  cases h <;> exact ⟨rfl, rfl⟩

/-- What follows the `switch`: the loop ends, or the next pass gets the time up to `dtMax`. -/
theorem account_cases (p : Prep K) (w : Work K) :
    ((account p w).2 = false ∧ (w.mmRemaining ≤ w.minimumMm ∨ w.mmRemaining ≤ p.mmComplete) ∧
        (account p w).1.mmRemaining = w.mmRemaining ∧ (account p w).1.minimumMm = w.minimumMm) ∨
      ((account p w).2 = true ∧ p.mmComplete < w.mmRemaining ∧
        ∃ dtMax, (account p w).1 = { w with dtMax := dtMax, dt := w.dt + w.timeVar, timeVar := dtMax - (w.dt + w.timeVar) } ∧
          (w.dt + w.timeVar < w.dtMax ∧ dtMax = w.dtMax ∨
            w.dtMax ≤ w.dt + w.timeVar ∧ w.minimumMm < w.mmRemaining ∧ dtMax = w.dtMax + dtSegment)) := by
  simp only [account]
  split
  · next hlt =>
      by_cases hmm : p.mmComplete < w.mmRemaining
      · exact .inr ⟨by simpa using hmm, hmm, _, rfl, .inl ⟨hlt, rfl⟩⟩
      · exact .inl ⟨by simpa using hmm, .inr (not_lt.1 hmm), rfl, rfl⟩
  · next hle =>
      split
      · next hmin =>
          by_cases hmm : p.mmComplete < w.mmRemaining
          · exact .inr ⟨by simpa using hmm, hmm, _, rfl, .inr ⟨not_lt.1 hle, hmin, rfl⟩⟩
          · exact .inl ⟨by simpa using hmm, .inr (not_lt.1 hmm), rfl, rfl⟩
      · next hmin => exact .inl ⟨rfl, .inl (not_lt.1 hmin), rfl, rfl⟩

/-- A pass over a whole `DT_SEGMENT` covers at least this distance. -/
def quantum (b : Block K) (p : Prep K) : K :=
  if p.rampType = .cruise then p.maximumSpeed * dtSegment else 1 / 2 * (b.acceleration * (dtSegment * dtSegment))

theorem Passes.quantum_eq (h : Passes b p w p' w') (hramp : p'.rampType = p.rampType) : quantum b p' = quantum b p := by
  have hmax : p'.maximumSpeed = p.maximumSpeed := by cases h <;> rfl
  rw [quantum, quantum, hramp, hmax]

theorem Prep.Tops.until_nonneg (h : p.Tops a) : 0 ≤ p.accelerateUntil := h.1.trans h.2.1

theorem Prep.Rising.until_nonneg (h : p.Rising a mm) : 0 ≤ p.accelerateUntil := by
  rcases h.tops with htops | ⟨hzero, -⟩
  · exact htops.until_nonneg
  · exact hzero.ge

variable [IsStrictOrderedRing K]

theorem OnProfile.passes (h : OnProfile b.acceleration p w.mmRemaining) (ha : 0 < b.acceleration) (hmm : 0 < w.mmRemaining)
    (ht : p.rampType = .accel ∨ p.rampType = .decelOverride → 0 < w.timeVar) (hpass : Passes b p w p' w') :
    OnProfile b.acceleration p' w'.mmRemaining := by
  cases hpass with
  | rise hramp hle =>
      have htime := ht (.inl hramp)
      have hrise := h.rising hramp
      have hsq := sq_after p.currentSpeed b.acceleration w.timeVar
      have hspeed : 0 ≤ p.currentSpeed + b.acceleration * w.timeVar := by
        have := mul_pos ha htime
        have := h.speed_nonneg
        linarith
      have hne : p.rampType ≠ .decel := by simp [hramp]
      have hgain := mul_le_mul_of_nonneg_left hle (show 0 ≤ 2 * b.acceleration by linarith)
      have hzero := h.complete hne
      refine ⟨hspeed, h.exit_nonneg, h.complete_nonneg, ?_, fun _ => hzero, fun _ => h.maximum_pos hne, fun _ => ⟨?_, ?_, hrise.tops⟩,
        by simp [hramp], by simp [hramp]⟩
      · have := hrise.until_nonneg
        simp only
        linarith
      · rw [← pow_le_pow_iff_left₀ hspeed (h.maximum_pos hne).le two_ne_zero, hsq, hrise.speed]
        linarith
      · simp only [hsq, hrise.speed]
        ring
  | riseEnds hramp hlt =>
      have hrise := h.rising hramp
      have hne : p.rampType ≠ .decel := by simp [hramp]
      have hpos := h.maximum_pos hne
      have hzero := h.complete hne
      refine ⟨hpos.le, h.exit_nonneg, h.complete_nonneg, hzero.le.trans hrise.until_nonneg, fun _ => hzero, fun _ => hpos, ?_, ?_, fun _ => ⟨rfl, ?_⟩⟩
      · intro habs
        simp only at habs
        split at habs <;> cases habs
      · intro habs
        simp only at habs
        split at habs <;> cases habs
      · rcases hrise.tops with htops | ⟨hzero', -⟩
        · exact .inr ⟨htops, htops.2.1⟩
        · exact .inl hzero'
  | slow hramp hlt =>
      have htime := ht (.inr hramp)
      have hslow := h.slowing hramp
      have hsq := sq_after p.currentSpeed (-b.acceleration) w.timeVar
      have hne : p.rampType ≠ .decel := by simp [hramp]
      have hpos := h.maximum_pos hne
      have hzero := h.complete hne
      have hspeed : p.currentSpeed + -b.acceleration * w.timeVar = p.currentSpeed - b.acceleration * w.timeVar := by ring
      rw [hspeed] at hsq
      have hsq' : (p.currentSpeed - b.acceleration * w.timeVar) ^ 2 = p.maximumSpeed ^ 2 +
          2 * b.acceleration * (w.mmRemaining - travel p.currentSpeed (-b.acceleration) w.timeVar - p.accelerateUntil) := by
        rw [hsq, hslow.speed]
        ring
      have hle : p.accelerateUntil ≤ w.mmRemaining - travel p.currentSpeed (-b.acceleration) w.timeVar := by
        have hgt : p.maximumSpeed ^ 2 < (p.currentSpeed - b.acceleration * w.timeVar) ^ 2 :=
          (pow_lt_pow_iff_left₀ hpos.le (by linarith) two_ne_zero).2 (by linarith)
        have h2a : 0 < 2 * b.acceleration := by linarith
        refine le_of_mul_le_mul_left ?_ h2a
        linarith
      refine ⟨(by simp only; linarith), h.exit_nonneg, h.complete_nonneg, ?_, fun _ => hzero, fun _ => hpos, by simp [hramp],
        fun _ => ⟨(by simp only; linarith), hsq', hslow.tops⟩, by simp [hramp]⟩
      exact (hzero.le.trans hslow.tops.until_nonneg).trans hle
  | slowEnds hramp hle =>
      have hslow := h.slowing hramp
      have hne : p.rampType ≠ .decel := by simp [hramp]
      have hpos := h.maximum_pos hne
      have hzero := h.complete hne
      exact ⟨hpos.le, h.exit_nonneg, h.complete_nonneg, hzero.le.trans hslow.tops.until_nonneg, fun _ => hzero, fun _ => hpos,
        fun habs => (nomatch habs), fun habs => (nomatch habs), fun _ => ⟨rfl, .inr ⟨hslow.tops, hslow.tops.2.1⟩⟩⟩
  | cruise hramp hle =>
      have hcruise := h.cruising hramp
      have hne : p.rampType ≠ .decel := by simp [hramp]
      have hzero := h.complete hne
      rcases hcruise.tops with hmm' | ⟨htops, -⟩
      · exact absurd hmm' hmm.ne'
      · exact ⟨h.speed_nonneg, h.exit_nonneg, h.complete_nonneg, hzero.le.trans (htops.1.trans hle), fun _ => hzero,
          h.maximum_pos, by simp [hramp], by simp [hramp], fun _ => ⟨hcruise.eq, .inr ⟨htops, hle⟩⟩⟩
  | cruiseEnds hramp hlt =>
      have hcruise := h.cruising hramp
      have hne : p.rampType ≠ .decel := by simp [hramp]
      have hzero := h.complete hne
      rcases hcruise.tops with hmm' | ⟨htops, -⟩
      · exact absurd hmm' hmm.ne'
      · exact ⟨h.speed_nonneg, h.exit_nonneg, h.complete_nonneg, hzero.le.trans htops.1, fun _ => hzero,
          fun habs => absurd rfl habs, fun habs => (nomatch habs), fun habs => (nomatch habs), fun habs => (nomatch habs)⟩
  | fall hramp hlt hle =>
      exact ⟨(by simp only; linarith), h.exit_nonneg, h.complete_nonneg, hle.le, fun habs => absurd hramp habs,
        fun habs => absurd hramp habs, by simp [hramp], by simp [hramp], by simp [hramp]⟩
  | fallEnds hramp hend =>
      exact ⟨h.exit_nonneg, h.exit_nonneg, h.complete_nonneg, le_rfl, fun habs => absurd hramp habs,
        fun habs => absurd hramp habs, by simp [hramp], by simp [hramp], by simp [hramp]⟩

theorem Prep.FallsTo.passes (hfalls : p.FallsTo b.acceleration w.mmRemaining) (h : OnProfile b.acceleration p w.mmRemaining)
    (hmm : 0 < w.mmRemaining) (hpass : Passes b p w p' w') : p'.FallsTo b.acceleration w'.mmRemaining := by
  cases hpass with
  | rise hramp hle => intro habs; simp [hramp] at habs
  | riseEnds hramp hlt =>
      intro hdecel
      have heq : p.accelerateUntil = p.decelerateAfter := by
        by_contra hne
        simp [hne] at hdecel
      have hzero := h.complete (by simp [hramp])
      simp only [hzero, sub_zero]
      rcases (h.rising hramp).tops with htops | ⟨huntil, hmax⟩
      · rw [heq]
        exact htops.2.2
      · rw [huntil, hmax]
        ring
  | slow hramp hlt => intro habs; simp [hramp] at habs
  | slowEnds hramp hle => intro habs; cases habs
  | cruise hramp hle => intro habs; simp [hramp] at habs
  | cruiseEnds hramp hlt =>
      intro _
      have hcruise := h.cruising hramp
      have hzero := h.complete (by simp [hramp])
      rcases hcruise.tops with hmm' | ⟨htops, -⟩
      · exact absurd hmm' hmm.ne'
      · simp only [hcruise.eq, hzero, sub_zero]
        exact htops.2.2
  | fall hramp hlt hle =>
      intro _
      have hsq := sq_after p.currentSpeed (-b.acceleration) w.timeVar
      have hspeed : p.currentSpeed + -b.acceleration * w.timeVar = p.currentSpeed - b.acceleration * w.timeVar := by ring
      simp only [← hspeed, hsq, hfalls hramp]
      ring
  | fallEnds hramp hend =>
      intro _
      simp

/-! ## Distance -/

theorem travel_fall_neg_iff (ha : 0 < a) {v t : K} (hv : 0 ≤ v) (ht : a * t < v) : travel v (-a) t < 0 ↔ t < 0 := by
  rw [travel_neg]
  constructor
  · intro h
    by_contra hnonneg
    have ht' := not_lt.1 hnonneg
    have hat := mul_nonneg ha.le ht'
    have := mul_nonneg ht' (show 0 ≤ v - 1 / 2 * (a * t) by linarith)
    linarith
  · intro h
    have hat := mul_neg_of_pos_of_neg ha h
    exact mul_neg_of_neg_of_pos h (by linarith)

theorem OnProfile.le_iff (h : OnProfile b.acceleration p w.mmRemaining) (ha : 0 < b.acceleration) (hmm : 0 < w.mmRemaining)
    (ht : p.rampType = .accel ∨ p.rampType = .decelOverride → 0 < w.timeVar) (hpass : Passes b p w p' w') :
    w'.mmRemaining ≤ w.mmRemaining ↔ 0 ≤ w.timeVar := by
  cases hpass with
  | rise hramp hle =>
      have htime := ht (.inl hramp)
      have hat := mul_pos ha htime
      have := mul_nonneg htime.le (show 0 ≤ p.currentSpeed + 1 / 2 * (b.acceleration * w.timeVar) by linarith [h.speed_nonneg])
      exact iff_of_true (by simp only [travel]; linarith) htime.le
  | riseEnds hramp hlt =>
      have hrise := h.rising hramp
      have hgain : p.currentSpeed ^ 2 ≤ p.maximumSpeed ^ 2 := pow_le_pow_left₀ h.speed_nonneg hrise.le 2
      have hdist : 2 * b.acceleration * p.accelerateUntil ≤ 2 * b.acceleration * w.mmRemaining := by linarith [hrise.speed]
      exact iff_of_true (le_of_mul_le_mul_left hdist (by linarith)) (ht (.inl hramp)).le
  | slow hramp hlt =>
      have htime := ht (.inr hramp)
      have hpos := h.maximum_pos (by simp [hramp])
      have hneg := (travel_fall_neg_iff ha h.speed_nonneg (t := w.timeVar) (by linarith)).not.2 htime.le.not_gt
      exact iff_of_true (by simp only; linarith) htime.le
  | slowEnds hramp hle =>
      have hslow := h.slowing hramp
      have hpos := h.maximum_pos (by simp [hramp])
      have hgain : p.maximumSpeed ^ 2 ≤ p.currentSpeed ^ 2 := pow_le_pow_left₀ hpos.le hslow.le 2
      have hdist : 2 * b.acceleration * p.accelerateUntil ≤ 2 * b.acceleration * w.mmRemaining := by linarith [hslow.speed]
      exact iff_of_true (le_of_mul_le_mul_left hdist (by linarith)) (ht (.inr hramp)).le
  | cruise hramp hle =>
      have hpos := h.maximum_pos (by simp [hramp])
      simp only [sub_le_self_iff]
      exact mul_nonneg_iff_of_pos_left hpos
  | cruiseEnds hramp hlt =>
      have hpos := h.maximum_pos (by simp [hramp])
      rcases (h.cruising hramp).tops with hmm' | ⟨-, hle⟩
      · exact absurd hmm' hmm.ne'
      · have hprod : 0 < p.maximumSpeed * w.timeVar := by linarith
        exact iff_of_true hle ((mul_pos_iff_of_pos_left hpos).1 hprod).le
  | fall hramp hlt hle =>
      simp only [sub_le_self_iff]
      rw [← not_lt, ← not_lt, travel_fall_neg_iff ha h.speed_nonneg hlt]
  | fallEnds hramp hend =>
      refine iff_of_true h.complete_le (not_lt.1 fun hneg => hend ⟨?_, ?_⟩)
      · linarith [mul_neg_of_pos_of_neg ha hneg, h.speed_nonneg]
      · have hat := mul_neg_of_pos_of_neg ha hneg
        have := (travel_fall_neg_iff ha h.speed_nonneg (t := w.timeVar) (by linarith [h.speed_nonneg])).2 hneg
        linarith [h.complete_le]

/-! ## Time -/

theorem dtSegment_pos : (0 : K) < dtSegment := by
  unfold dtSegment
  positivity

/-- What a loop keeps between two passes. The time of a pass is negative only behind the first ramp. -/
structure InLoop (b : Block K) (p : Prep K) (w : Work K) : Prop where
  profile : OnProfile b.acceleration p w.mmRemaining
  mm_pos : 0 < w.mmRemaining
  time : w.timeVar = w.dtMax - w.dt
  time_pos : p.rampType = .accel ∨ p.rampType = .decelOverride → 0 < w.timeVar

theorem InLoop.again (h : InLoop b p w) (ha : 0 < b.acceleration) (hagain : (pass b p w).2.2 = true) :
    InLoop b (pass b p w).1 (pass b p w).2.1 := by
  have hpass := ramp_passes b p w
  have hprofile := h.profile.passes ha h.mm_pos h.time_pos hpass
  rcases account_cases (ramp b p w).1 (ramp b p w).2 with ⟨hend, -⟩ | ⟨-, hmm, dtMax, heq, hdt⟩
  · exact absurd (hend.symm.trans hagain) Bool.false_ne_true
  · have hnext : (pass b p w).2.1 = { (ramp b p w).2 with
        dtMax := dtMax, dt := (ramp b p w).2.dt + (ramp b p w).2.timeVar, timeVar := dtMax - ((ramp b p w).2.dt + (ramp b p w).2.timeVar) } := heq
    rw [hnext]
    refine ⟨hprofile, hprofile.complete_nonneg.trans_lt hmm, rfl, fun hramp => ?_⟩
    rcases hpass.phase with hsame | ⟨-, hother⟩
    · have htime := hpass.timeVar_eq hsame hmm
      obtain ⟨hdt', hdtMax⟩ := hpass.dt_eq
      rw [htime, hdt', hdtMax, h.time] at hdt
      simp only [htime, hdt', h.time]
      rcases hdt with ⟨hlt, -⟩ | ⟨-, -, hdtMax'⟩
      · linarith
      · rw [hdtMax']
        linarith [dtSegment_pos (K := K)]
    · rcases hramp with hramp | hramp <;> rcases hother with hother | hother <;> exact absurd (hramp.symm.trans hother) (by decide)

/-- The time computed for the end of the first ramp is more than `DT_SEGMENT` beyond the end of the segment, which still lacks a step. -/
def Overruns (b : Block K) (p : Prep K) (w : Work K) : Prop :=
  FirstRampEnds b p w ∧ p.mmComplete < p.accelerateUntil ∧ w.minimumMm < p.accelerateUntil ∧
    w.dtMax + dtSegment < w.dt + 2 * (b.millimeters - p.accelerateUntil) / (p.currentSpeed + p.maximumSpeed)

theorem InLoop.timeVar_nonneg (h : InLoop b p w) (hnot : ¬Overruns b p w) (hagain : (pass b p w).2.2 = true) :
    0 ≤ (pass b p w).2.1.timeVar := by
  have hpass := ramp_passes b p w
  have hT := dtSegment_pos (K := K)
  have htime := h.time
  rcases account_cases (ramp b p w).1 (ramp b p w).2 with ⟨hend, -⟩ | ⟨-, hmm, dtMax, heq, hdt⟩
  · exact absurd (hend.symm.trans hagain) Bool.false_ne_true
  · have hnext : (pass b p w).2.1.timeVar = dtMax - ((ramp b p w).2.dt + (ramp b p w).2.timeVar) := congrArg Work.timeVar heq
    rw [hnext]
    rcases hdt with ⟨hlt, hdtMax⟩ | ⟨-, hmin, hdtMax⟩
    · linarith
    · rw [hdtMax]
      generalize (ramp b p w).1 = p' at *
      generalize (ramp b p w).2 = w' at *
      cases hpass with
      | rise | slow | cruise | fall => simp only; linarith
      | riseEnds hramp hlt =>
          have hover := not_lt.1 fun hover => hnot ⟨.inl ⟨hramp, hlt⟩, hmm, hmin, hover⟩
          simp only
          linarith
      | slowEnds hramp hle =>
          have hover := not_lt.1 fun hover => hnot ⟨.inr ⟨hramp, hle⟩, hmm, hmin, hover⟩
          simp only
          linarith
      | cruiseEnds hramp hlt =>
          have hpos := h.profile.maximum_pos (by simp [hramp])
          have hdiv : (w.mmRemaining - p.decelerateAfter) / p.maximumSpeed ≤ w.timeVar := by
            rw [div_le_iff₀ hpos]
            linarith
          simp only
          linarith
      | fallEnds => exact absurd hmm (lt_irrefl _)

/-! ## The loop ends -/

theorem OnProfile.quantum_pos (h : OnProfile b.acceleration p mm) (ha : 0 < b.acceleration) : 0 < quantum b p := by
  have hT := dtSegment_pos (K := K)
  rw [quantum]
  split
  · next hramp => exact mul_pos (h.maximum_pos (by simp [hramp])) hT
  · have := mul_pos ha (mul_pos hT hT)
    linarith

theorem InLoop.add_quantum_le (h : InLoop b p w) (ha : 0 < b.acceleration) (hpass : Passes b p w p' w')
    (hramp : p'.rampType = p.rampType) (hmm : p'.mmComplete < w'.mmRemaining) (ht : w.timeVar = dtSegment) :
    w'.mmRemaining + quantum b p ≤ w.mmRemaining := by
  have hT := dtSegment_pos (K := K)
  have hspeed := h.profile.speed_nonneg
  have hat := mul_pos ha hT
  cases hpass with
  | rise hramp' hle =>
      have := mul_nonneg hT.le hspeed
      simp only [travel, quantum, hramp', ht, reduceCtorEq, if_false]
      linarith
  | riseEnds hramp' =>
      simp only [hramp'] at hramp
      split at hramp <;> cases hramp
  | slow hramp' hlt =>
      have hpos := h.profile.maximum_pos (by simp [hramp'])
      have := mul_nonneg hT.le (show 0 ≤ p.currentSpeed - b.acceleration * dtSegment by rw [ht] at hlt; linarith)
      simp only [travel, quantum, hramp', ht, reduceCtorEq, if_false]
      linarith
  | slowEnds hramp' => rw [hramp'] at hramp; cases hramp
  | cruise hramp' hle =>
      simp only [quantum, hramp', ht, if_true]
      linarith
  | cruiseEnds hramp' => rw [hramp'] at hramp; cases hramp
  | fall hramp' hlt hle =>
      have := mul_nonneg hT.le (show 0 ≤ p.currentSpeed - b.acceleration * dtSegment by rw [ht] at hlt; linarith)
      simp only [travel, quantum, hramp', ht, reduceCtorEq, if_false]
      linarith
  | fallEnds => exact absurd hmm (lt_irrefl _)

/-- It falls from pass to pass: the ramp, whether the time is not a whole `DT_SEGMENT`, and the distance in quanta. -/
def rank [FloorSemiring K] (b : Block K) (p : Prep K) (w : Work K) : ℕ ×ₗ ℕ ×ₗ ℕ :=
  toLex (p.rampType.phase, toLex (if w.timeVar = dtSegment then 0 else 1, ⌈w.mmRemaining / quantum b p⌉₊))

theorem InLoop.rank_lt [FloorSemiring K] (h : InLoop b p w) (ha : 0 < b.acceleration) (hagain : (pass b p w).2.2 = true) :
    rank b (pass b p w).1 (pass b p w).2.1 < rank b p w := by
  have hpass := ramp_passes b p w
  rcases account_cases (ramp b p w).1 (ramp b p w).2 with ⟨hend, -⟩ | ⟨-, hmm, dtMax, heq, hdt⟩
  · exact absurd (hend.symm.trans hagain) Bool.false_ne_true
  · have hp : (pass b p w).1 = (ramp b p w).1 := rfl
    have hnext : (pass b p w).2.1 = { (ramp b p w).2 with
        dtMax := dtMax, dt := (ramp b p w).2.dt + (ramp b p w).2.timeVar, timeVar := dtMax - ((ramp b p w).2.dt + (ramp b p w).2.timeVar) } := heq
    rw [hp, hnext, rank, rank, Prod.Lex.toLex_lt_toLex]
    rcases hpass.phase with hsame | ⟨hphase, -⟩
    · right
      have htime := hpass.timeVar_eq hsame hmm
      obtain ⟨hdt', hdtMax⟩ := hpass.dt_eq
      have hfull : dtMax - ((ramp b p w).2.dt + (ramp b p w).2.timeVar) = dtSegment := by
        rw [htime, hdt', hdtMax, h.time] at hdt
        rw [htime, hdt', h.time]
        rcases hdt with ⟨hlt, -⟩ | ⟨-, -, hdtMax'⟩
        · linarith
        · linarith
      refine ⟨by rw [hsame], ?_⟩
      rw [Prod.Lex.toLex_lt_toLex]
      by_cases hT : w.timeVar = dtSegment
      · right
        refine ⟨by simp only [hfull, hT, if_true], ?_⟩
        have hq := h.profile.quantum_pos ha
        have hle := h.add_quantum_le ha hpass hsame hmm hT
        have hpos : 0 < (ramp b p w).2.mmRemaining := (h.profile.passes ha h.mm_pos h.time_pos hpass).complete_nonneg.trans_lt hmm
        rw [hpass.quantum_eq hsame]
        have hdiv : (ramp b p w).2.mmRemaining / quantum b p + 1 ≤ w.mmRemaining / quantum b p := by
          rw [div_add_one hq.ne']
          gcongr
        refine Nat.lt_of_succ_le ?_
        calc ⌈(ramp b p w).2.mmRemaining / quantum b p⌉₊ + 1
            = ⌈(ramp b p w).2.mmRemaining / quantum b p + 1⌉₊ := (Nat.ceil_add_one (div_nonneg hpos.le hq.le)).symm
          _ ≤ ⌈w.mmRemaining / quantum b p⌉₊ := Nat.ceil_mono hdiv
      · left
        simp only [hfull, if_true, if_neg hT]
        exact Nat.one_pos
    · exact .inl hphase

/-! ## Around the loop -/

structure Block.Ok (b : Block K) : Prop where
  acceleration_pos : 0 < b.acceleration
  millimeters_pos : 0 < b.millimeters
  entry_nonneg : 0 ≤ b.entrySpeedSqr

theorem inLoop_start (hok : b.Ok) (h : OnProfile b.acceleration p b.millimeters) : InLoop b p (Work.start b p) :=
  ⟨h, hok.millimeters_pos, (sub_zero _).symm, fun _ => dtSegment_pos⟩

theorem mm_le_of_end {q : Prep K} {w : Work K} (hmm : 0 < b.millimeters) (hreq : 0 ≤ p.reqMmIncrement)
    (hmin : w.minimumMm = (Work.start b p).minimumMm) (hle : q.mmComplete ≤ b.millimeters)
    (hend : w.mmRemaining ≤ w.minimumMm ∨ w.mmRemaining ≤ q.mmComplete) : w.mmRemaining ≤ b.millimeters := by
  rcases hend with hend | hend
  · refine hend.trans ?_
    rw [hmin, Work.start]
    simp only
    split
    · exact hmm.le
    · linarith
  · exact hend.trans hle

end

end Grbl.Segments
