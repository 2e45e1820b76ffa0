import Grbl.Limits.ArcBounds

/-!
# Is an arc inside the envelope?

What `check_arc_travel_limits` says of an arc against the points of the arc.

* `Arc` : the arguments of the check, an arc of a circle with a number of turns; `Arc.point` : its points;
* `Box`, `Tested` : the bounds of an arc on an axis, and the values that are tested on the second axis; `tested_iff`;
* `forall_point_iff` : the points of an arc lie inside if its bounds do;
* `MissedAbove`, `MissedBelow`, `Seen` : when the check misses a part of the arc;
* `arc_check_iff` : the check is right exactly if it misses nothing; `arc_check_misses_top`.
-/

namespace Grbl.Limits
open Complex Set Lib.Arc
open scoped Grbl.Lib.Literal

/-- The envelope with the upper bound of an axis raised to `y`. -/
noncomputable def WorkEnvelope.raise (e : WorkEnvelope ℝ) (i : Axis) (y : ℝ) : WorkEnvelope ℝ :=
  { e with max := Function.update e.max i (e.max i ⊔ y) }

/-- The envelope with the lower bound of an axis lowered to `y`. -/
noncomputable def WorkEnvelope.lower (e : WorkEnvelope ℝ) (i : Axis) (y : ℝ) : WorkEnvelope ℝ :=
  { e with min := Function.update e.min i (e.min i ⊓ y) }

section
variable (e : WorkEnvelope ℝ) {i j : Axis} (y : ℝ)

theorem raise_max_self : (e.raise i y).max i = max (e.max i) y := Function.update_self ..

theorem raise_max_of_ne (h : j ≠ i) : (e.raise i y).max j = e.max j := Function.update_of_ne h ..

theorem raise_min : (e.raise i y).min j = e.min j := rfl

theorem lower_min_self : (e.lower i y).min i = min (e.min i) y := Function.update_self ..

theorem lower_min_of_ne (h : j ≠ i) : (e.lower i y).min j = e.min j := Function.update_of_ne h ..

theorem lower_max : (e.lower i y).max j = e.max j := rfl

theorem le_raise : e.max j ≤ (e.raise i y).max j := by
  by_cases h : j = i
  · rw [h, raise_max_self]
    exact le_max_left _ _
  · rw [raise_max_of_ne e y h]

theorem lower_le : (e.lower i y).min j ≤ e.min j := by
  by_cases h : j = i
  · rw [h, lower_min_self]
    exact min_le_left _ _
  · rw [lower_min_of_ne e y h]

end

/-- An arc around a center. The ends lie on the circle; a negative number of turns is clockwise. -/
structure Arc where
  position : Axis → ℝ
  target : Axis → ℝ
  centerX : ℝ
  centerY : ℝ
  radius : ℝ
  plane : Plane
  turns : ℤ
  radius_nonneg : 0 ≤ radius
  position_on : (position plane.axis0 - centerX) ^ 2 + (position plane.axis1 - centerY) ^ 2 = radius ^ 2
  target_on : (target plane.axis0 - centerX) ^ 2 + (target plane.axis1 - centerY) ^ 2 = radius ^ 2
  turns_ne : turns ≠ 0

namespace Arc
variable (m : Arc)

def vector (p : Axis → ℝ) : ℂ := ⟨p m.plane.axis0 - m.centerX, p m.plane.axis1 - m.centerY⟩

/-- The angle from the start to the end, clockwise ones are negative. -/
noncomputable def angularTravel : ℝ :=
  if m.turns > 0 then 2 * Real.pi * (m.turns - 1) + sweep (m.vector m.position) (m.vector m.target)
  else 2 * Real.pi * (m.turns + 1) - sweep (m.vector m.target) (m.vector m.position)

/-- The point at the part `s` of the way; the axes outside the plane move along a line. -/
noncomputable def point (s : ℝ) (i : Axis) : ℝ :=
  let z := m.vector m.position * exp ((s * m.angularTravel : ℝ) * I)
  if i = m.plane.axis0 then m.centerX + z.re
  else if i = m.plane.axis1 then m.centerY + z.im
  else m.position i + s * (m.target i - m.position i)

/-- The same arc without full turns. -/
def oneTurn : Arc :=
  { m with
    turns := if m.turns > 0 then 1 else -1
    turns_ne := by split <;> decide }

/-- The end from which the arc runs counterclockwise. -/
def first : ℂ := m.vector (if m.turns > 0 then m.position else m.target)

/-- The end to which the arc runs counterclockwise. -/
def last : ℂ := m.vector (if m.turns > 0 then m.target else m.position)

/-- The angle between the ends, without full turns. -/
noncomputable def angle : ℝ := sweep m.first m.last

theorem angle_pos : 0 < m.angle := (sweep_mem _ _).1

theorem angle_le : m.angle ≤ 2 * Real.pi := (sweep_mem _ _).2

theorem norm_position : ‖m.vector m.position‖ = m.radius := by
  rw [← abs_norm, ← abs_of_nonneg m.radius_nonneg, ← sq_eq_sq_iff_abs_eq_abs, ← normSq_eq_norm_sq, normSq_apply, ← m.position_on]
  simp only [vector]
  ring

theorem norm_target : ‖m.vector m.target‖ = m.radius := by
  rw [← abs_norm, ← abs_of_nonneg m.radius_nonneg, ← sq_eq_sq_iff_abs_eq_abs, ← normSq_eq_norm_sq, normSq_apply, ← m.target_on]
  simp only [vector]
  ring

theorem norm_first : ‖m.first‖ = m.radius := by
  unfold first
  split
  · exact m.norm_position
  · exact m.norm_target

theorem norm_last : ‖m.last‖ = m.radius := by
  unfold last
  split
  · exact m.norm_target
  · exact m.norm_position

theorem first_mul_exp : m.first * exp (m.angle * I) = m.last := mul_exp_sweep (m.norm_first.trans m.norm_last.symm)

/-- The number of full turns before the end is met. -/
def fullTurns : ℕ := m.turns.natAbs - 1

theorem vector_mul_exp (s : ℝ) :
    m.vector m.position * exp ((s * m.angularTravel : ℝ) * I) =
      m.first * exp ((((if m.turns > 0 then s else 1 - s) * (2 * Real.pi * m.fullTurns + m.angle) : ℝ) : ℂ) * I) := by
  by_cases hccw : m.turns > 0
  · have hturns : ((m.turns : ℝ) - 1) = m.fullTurns := by
      rw [fullTurns, Nat.cast_sub (by omega), Nat.cast_natAbs, abs_of_pos hccw]
      norm_num
    simp only [angularTravel, angle, first, last, if_pos hccw, hturns]
  · have hneg : m.turns < 0 := lt_of_le_of_ne (not_lt.1 hccw) m.turns_ne
    have hturns : ((m.turns : ℝ) + 1) = -m.fullTurns := by
      rw [fullTurns, Nat.cast_sub (by omega), Nat.cast_natAbs, abs_of_neg hneg]
      push_cast
      ring
    have hpos : m.vector m.position = m.first * exp (m.angle * I) := by rw [m.first_mul_exp, last, if_neg hccw]
    have hangle : m.angularTravel = -(2 * Real.pi * m.fullTurns + m.angle) := by
      simp only [angularTravel, angle, first, last, if_neg hccw, hturns]
      ring
    rw [hpos, mul_assoc, ← Complex.exp_add, ← add_mul, ← ofReal_add, hangle, if_neg hccw]
    rw [← exp_add_zsmul (m.angle + s * -(2 * Real.pi * m.fullTurns + m.angle)) m.fullTurns]
    congr 4
    rw [zsmul_eq_mul]
    push_cast
    ring

theorem forall_vector_iff (P : ℂ → Prop) :
    (∀ s ∈ Icc (0 : ℝ) 1, P (m.vector m.position * exp ((s * m.angularTravel : ℝ) * I))) ↔
      ∀ ψ ∈ Icc 0 (2 * Real.pi * m.fullTurns + m.angle), P (m.first * exp (ψ * I)) := by
  have hpos : 0 < 2 * Real.pi * m.fullTurns + m.angle := by
    have hangle := m.angle_pos
    have hpi := Real.pi_pos
    positivity
  constructor
  · rintro h ψ ⟨hψ0, hψ1⟩
    have hs0 : 0 ≤ ψ / (2 * Real.pi * m.fullTurns + m.angle) := div_nonneg hψ0 hpos.le
    have hs1 : ψ / (2 * Real.pi * m.fullTurns + m.angle) ≤ 1 := (div_le_one hpos).2 hψ1
    by_cases hccw : m.turns > 0
    · have hP := h _ ⟨hs0, hs1⟩
      rwa [m.vector_mul_exp, if_pos hccw, div_mul_cancel₀ _ hpos.ne'] at hP
    · have hP := h (1 - ψ / (2 * Real.pi * m.fullTurns + m.angle)) ⟨by linarith, by linarith⟩
      rwa [m.vector_mul_exp, if_neg hccw, sub_sub_cancel, div_mul_cancel₀ _ hpos.ne'] at hP
  · rintro h s ⟨hs0, hs1⟩
    rw [m.vector_mul_exp]
    refine h _ ⟨mul_nonneg ?_ hpos.le, mul_le_of_le_one_left hpos.le ?_⟩
    · split <;> linarith
    · split <;> linarith

/-! ## The bounds of an arc -/

/-- The extreme points between the ends of the arc, as the check takes them. -/
noncomputable def crossed : Crossings := crossings m.first.re m.first.im m.last.re m.last.im

/-- The arc stays inside the envelope along an axis of the plane. -/
def Bounded (envelope : WorkEnvelope ℝ) (i : Axis) (center : ℝ) (neg pos : Bool) : Prop :=
  envelope.min i ≤ (if neg then center - m.radius else min (m.position i) (m.target i)) ∧
    (if pos then center + m.radius else max (m.position i) (m.target i)) ≤ envelope.max i

/-- What the check tests on the second axis: where an extreme point is not passed it takes the other end of the arc. -/
def Tested (envelope : WorkEnvelope ℝ) (i : Axis) (center : ℝ) (neg pos : Bool) : Prop :=
  (envelope.min i ≤ (if neg then center - m.radius else max (m.position i) (m.target i)) ∧
      (if neg then center - m.radius else max (m.position i) (m.target i)) ≤ envelope.max i) ∧
    envelope.min i ≤ (if pos then center + m.radius else min (m.position i) (m.target i)) ∧
      (if pos then center + m.radius else min (m.position i) (m.target i)) ≤ envelope.max i

theorem angle_mem_Icc (h : m.fullTurns = 0) : 2 * Real.pi * m.fullTurns + m.angle = m.angle := by
  rw [h, Nat.cast_zero, mul_zero, zero_add]

theorem turn_le (h : m.fullTurns ≠ 0) : 2 * Real.pi ≤ 2 * Real.pi * m.fullTurns + m.angle := by
  have hone : (1 : ℝ) ≤ m.fullTurns := by exact_mod_cast Nat.one_le_iff_ne_zero.2 h
  nlinarith [m.angle_pos, Real.pi_pos]

theorem re_first_last (f : ℝ → ℝ → ℝ) (hcomm : ∀ a b, f a b = f b a) :
    f (m.centerX + m.first.re) (m.centerX + m.last.re) = f (m.position m.plane.axis0) (m.target m.plane.axis0) := by
  unfold first last vector
  split
  · simp only [add_sub_cancel]
  · simp only [add_sub_cancel]
    exact hcomm _ _

theorem im_first_last (f : ℝ → ℝ → ℝ) (hcomm : ∀ a b, f a b = f b a) :
    f (m.centerY + m.first.im) (m.centerY + m.last.im) = f (m.position m.plane.axis1) (m.target m.plane.axis1) := by
  unfold first last vector
  split
  · simp only [add_sub_cancel]
  · simp only [add_sub_cancel]
    exact hcomm _ _

theorem forall_re_iff (envelope : WorkEnvelope ℝ) :
    (∀ ψ ∈ Icc 0 (2 * Real.pi * m.fullTurns + m.angle), envelope.min m.plane.axis0 ≤ m.centerX + (m.first * exp (ψ * I)).re ∧
        m.centerX + (m.first * exp (ψ * I)).re ≤ envelope.max m.plane.axis0) ↔
      if m.fullTurns = 0 then m.Bounded envelope m.plane.axis0 m.centerX m.crossed.negX m.crossed.posX
      else m.Bounded envelope m.plane.axis0 m.centerX true true := by
  by_cases hone : m.fullTurns = 0
  · have hposX := posX_iff (u := m.first) m.angle_pos m.angle_le
    have hnegX := negX_iff (u := m.first) m.angle_pos m.angle_le
    rw [m.first_mul_exp] at hposX hnegX
    have h := forall_between_iff (u := m.first) (w := 1) (envelope.min m.plane.axis0) (envelope.max m.plane.axis0) m.centerX
      m.crossed.negX m.crossed.posX norm_one m.angle_pos.le
      (fun hc => (hposX.1 hc).mono Ioc_subset_Icc_self) (fun hc hmeets => by
        have htrue := hposX.2 (hmeets.mono Ioo_subset_Ioc_self)
        exact Bool.false_ne_true (hc.symm.trans htrue))
      (fun hc => (hnegX.1 hc).mono Ico_subset_Icc_self) (fun hc hmeets => by
        have htrue := hnegX.2 (hmeets.mono Ioo_subset_Ico_self)
        exact Bool.false_ne_true (hc.symm.trans htrue))
    rw [if_pos hone, m.angle_mem_Icc hone, Bounded]
    simp only [map_one, mul_one] at h
    rw [h, m.first_mul_exp, m.norm_first, m.re_first_last min min_comm, m.re_first_last max max_comm]
  · have h := forall_between_iff (u := m.first) (w := 1) (envelope.min m.plane.axis0) (envelope.max m.plane.axis0) m.centerX
      true true norm_one (Real.two_pi_pos.le.trans (m.turn_le hone))
      (fun _ => meets_of_turn norm_one (m.turn_le hone)) (fun hc => absurd hc Bool.true_eq_false_eq_False)
      (fun _ => meets_of_turn (by rw [norm_neg, norm_one]) (m.turn_le hone)) (fun hc => absurd hc Bool.true_eq_false_eq_False)
    rw [if_neg hone, Bounded]
    simp only [map_one, mul_one] at h
    rw [h, m.norm_first]
    rfl

theorem forall_im_iff (envelope : WorkEnvelope ℝ) :
    (∀ ψ ∈ Icc 0 (2 * Real.pi * m.fullTurns + m.angle), envelope.min m.plane.axis1 ≤ m.centerY + (m.first * exp (ψ * I)).im ∧
        m.centerY + (m.first * exp (ψ * I)).im ≤ envelope.max m.plane.axis1) ↔
      if m.fullTurns = 0 then m.Bounded envelope m.plane.axis1 m.centerY m.crossed.negY m.crossed.posY
      else m.Bounded envelope m.plane.axis1 m.centerY true true := by
  have him (z : ℂ) : (z * starRingEnd ℂ I).re = z.im := by simp
  by_cases hone : m.fullTurns = 0
  · have hposY := posY_iff (u := m.first) m.angle_pos m.angle_le
    have hnegY := negY_iff (u := m.first) m.angle_pos m.angle_le
    rw [m.first_mul_exp] at hposY hnegY
    have h := forall_between_iff (u := m.first) (w := I) (envelope.min m.plane.axis1) (envelope.max m.plane.axis1) m.centerY
      m.crossed.negY m.crossed.posY norm_I m.angle_pos.le
      (fun hc => (hposY.1 hc).mono Ioc_subset_Icc_self) (fun hc hmeets => by
        have htrue := hposY.2 (hmeets.mono Ioo_subset_Ioc_self)
        exact Bool.false_ne_true (hc.symm.trans htrue))
      (fun hc => by
        rcases hnegY.1 hc with hmeets | ⟨hend, -, -⟩
        · exact hmeets.mono Ioo_subset_Icc_self
        · exact ⟨_, ⟨m.angle_pos.le, le_rfl⟩, m.first_mul_exp.trans hend⟩)
      (fun hc hmeets => by
        have htrue := hnegY.2 (.inl hmeets)
        exact Bool.false_ne_true (hc.symm.trans htrue))
    rw [if_pos hone, m.angle_mem_Icc hone, Bounded]
    simp only [him] at h
    rw [h, m.first_mul_exp, m.norm_first, m.im_first_last min min_comm, m.im_first_last max max_comm]
  · have h := forall_between_iff (u := m.first) (w := I) (envelope.min m.plane.axis1) (envelope.max m.plane.axis1) m.centerY
      true true norm_I (Real.two_pi_pos.le.trans (m.turn_le hone))
      (fun _ => meets_of_turn norm_I (m.turn_le hone)) (fun hc => absurd hc Bool.true_eq_false_eq_False)
      (fun _ => meets_of_turn (by rw [norm_neg, norm_I]) (m.turn_le hone)) (fun hc => absurd hc Bool.true_eq_false_eq_False)
    rw [if_neg hone, Bounded]
    simp only [him] at h
    rw [h, m.norm_first]
    rfl

/-! ## The points of an arc -/

section
variable (homed softLimits : Axis → Bool) (envelope : WorkEnvelope ℝ)

/-- Every point of the arc lies inside the envelope, on the axes that are homed and limited. -/
def Inside : Prop :=
  ∀ s ∈ Icc (0 : ℝ) 1, ∀ i, homed i = true → softLimits i = true → envelope.Inside (m.point s) i

/-- The end of the arc lies inside on the axes outside the plane. -/
def LinearInside : Prop :=
  ∀ i, i ≠ m.plane.axis0 → i ≠ m.plane.axis1 → homed i = true → softLimits i = true → envelope.Inside m.target i

end

theorem point_axis0 (s : ℝ) :
    m.point s m.plane.axis0 = m.centerX + (m.vector m.position * exp ((s * m.angularTravel : ℝ) * I)).re := by
  rw [point, if_pos rfl]

theorem point_axis1 (s : ℝ) :
    m.point s m.plane.axis1 = m.centerY + (m.vector m.position * exp ((s * m.angularTravel : ℝ) * I)).im := by
  rw [point, if_neg m.plane.axis0_ne_axis1.symm, if_pos rfl]

theorem point_linear {i : Axis} (h0 : i ≠ m.plane.axis0) (h1 : i ≠ m.plane.axis1) (s : ℝ) :
    m.point s i = m.position i + s * (m.target i - m.position i) := by
  rw [point, if_neg h0, if_neg h1]

variable {m} {homed softLimits : Axis → Bool} {envelope : WorkEnvelope ℝ}

theorem inside_iff (hhomed : ∀ i, i ≠ .a → homed i = true ∧ softLimits i = true)
    (hstart : ∀ i, homed i = true → softLimits i = true → envelope.Inside m.position i) :
    m.Inside homed softLimits envelope ↔ m.LinearInside homed softLimits envelope ∧
      (if m.fullTurns = 0 then m.Bounded envelope m.plane.axis0 m.centerX m.crossed.negX m.crossed.posX
        else m.Bounded envelope m.plane.axis0 m.centerX true true) ∧
      (if m.fullTurns = 0 then m.Bounded envelope m.plane.axis1 m.centerY m.crossed.negY m.crossed.posY
        else m.Bounded envelope m.plane.axis1 m.centerY true true) := by
  rw [← m.forall_re_iff, ← m.forall_im_iff,
    ← m.forall_vector_iff fun z => envelope.min m.plane.axis0 ≤ m.centerX + z.re ∧ m.centerX + z.re ≤ envelope.max m.plane.axis0,
    ← m.forall_vector_iff fun z => envelope.min m.plane.axis1 ≤ m.centerY + z.im ∧ m.centerY + z.im ≤ envelope.max m.plane.axis1]
  simp only [← m.point_axis0, ← m.point_axis1]
  have ha0 := hhomed m.plane.axis0 (by cases m.plane <;> decide)
  have ha1 := hhomed m.plane.axis1 (by cases m.plane <;> decide)
  constructor
  · intro h
    refine ⟨fun i h0 h1 hh hs => ?_, fun s hs => h s hs _ ha0.1 ha0.2, fun s hs => h s hs _ ha1.1 ha1.2⟩
    have hend := h 1 ⟨zero_le_one, le_rfl⟩ i hh hs
    rwa [WorkEnvelope.Inside, m.point_linear h0 h1, one_mul, add_sub_cancel] at hend
  · rintro ⟨hlinear, hx, hy⟩ s hs i hhi hsi
    by_cases h0 : i = m.plane.axis0
    · rw [h0]
      exact hx s hs
    by_cases h1 : i = m.plane.axis1
    · rw [h1]
      exact hy s hs
    obtain ⟨hlo, hhi'⟩ := hlinear i h0 h1 hhi hsi
    obtain ⟨hlo', hhi''⟩ := hstart i hhi hsi
    rw [WorkEnvelope.Inside, m.point_linear h0 h1]
    obtain ⟨hs0, hs1⟩ := hs
    constructor <;> nlinarith

/-! ## What is tested -/

variable (m homed softLimits envelope) in
/-- `check_arc_travel_limits` of the arc. -/
noncomputable def check : Bool :=
  checkArcTravelLimits homed softLimits m.target m.position m.centerX m.centerY m.radius m.plane m.turns envelope

variable (m) in
/-- The extreme points the check works with. -/
noncomputable def checkedCrossings : Crossings := if m.turns > 1 then .ofBits 0b1111 else m.crossed

theorem arcCrossings_eq : arcCrossings m.position m.target m.centerX m.centerY m.plane m.turns = m.checkedCrossings := by
  unfold arcCrossings checkedCrossings crossed first last
  split_ifs <;> rfl

theorem position_axis0_mem : m.centerX - m.radius ≤ m.position m.plane.axis0 ∧ m.position m.plane.axis0 ≤ m.centerX + m.radius := by
  have habs := abs_le.1 ((abs_re_le_norm (m.vector m.position)).trans_eq m.norm_position)
  simp only [vector] at habs
  constructor <;> linarith

theorem position_axis1_mem : m.centerY - m.radius ≤ m.position m.plane.axis1 ∧ m.position m.plane.axis1 ≤ m.centerY + m.radius := by
  have habs := abs_le.1 ((abs_im_le_norm (m.vector m.position)).trans_eq m.norm_position)
  simp only [vector] at habs
  constructor <;> linarith

theorem target_axis0_mem : m.centerX - m.radius ≤ m.target m.plane.axis0 ∧ m.target m.plane.axis0 ≤ m.centerX + m.radius := by
  have habs := abs_le.1 ((abs_re_le_norm (m.vector m.target)).trans_eq m.norm_target)
  simp only [vector] at habs
  constructor <;> linarith

theorem target_axis1_mem : m.centerY - m.radius ≤ m.target m.plane.axis1 ∧ m.target m.plane.axis1 ≤ m.centerY + m.radius := by
  have habs := abs_le.1 ((abs_im_le_norm (m.vector m.target)).trans_eq m.norm_target)
  simp only [vector] at habs
  constructor <;> linarith

theorem check_iff (hhomed : ∀ i, i ≠ .a → homed i = true ∧ softLimits i = true)
    (hstart : ∀ i, homed i = true → softLimits i = true → envelope.Inside m.position i) :
    m.check homed softLimits envelope = true ↔ m.LinearInside homed softLimits envelope ∧
      m.Bounded envelope m.plane.axis0 m.centerX m.checkedCrossings.negX m.checkedCrossings.posX ∧
      m.Tested envelope m.plane.axis1 m.centerY m.checkedCrossings.negY m.checkedCrossings.posY := by
  have hsoft : ¬(!softLimits .x && !softLimits .y && !softLimits .z) = true := by
    rw [(hhomed .x (by decide)).2]
    exact Bool.false_ne_true
  have ha0 := hhomed m.plane.axis0 (by cases m.plane <;> decide)
  have ha1 := hhomed m.plane.axis1 (by cases m.plane <;> decide)
  have hmem := m.position_axis0_mem
  have hne := m.plane.axis0_ne_axis1
  unfold check checkArcTravelLimits
  rw [if_neg hsoft, arcCrossings_eq]
  generalize m.checkedCrossings = x
  simp only [Bool.not_eq_true', ite_eq_iff, Bool.false_eq_true, and_false, false_or, Bool.not_eq_false, checkTravelLimits_iff]
  constructor
  · rintro ⟨h1, h2⟩
    have h1x := h1 _ ha0.1 ha0.2
    have h1y := h1 _ ha1.1 ha1.2
    have h2x := h2 _ ha0.1 ha0.2
    have h2y := h2 _ ha1.1 ha1.2
    simp only [WorkEnvelope.Inside, Function.update_self, Function.update_of_ne hne] at h1x h1y h2x h2y
    refine ⟨fun i h0 h1' hh hs => ?_, ⟨h1x.1, h2x.2⟩, h1y, h2y⟩
    have hc1 := h1 i hh hs
    have hc2 := h2 i hh hs
    simp only [WorkEnvelope.Inside, Function.update_of_ne h0, Function.update_of_ne h1'] at hc1 hc2
    split at hc1
    · next hccw => rwa [if_pos hccw] at hc2
    · exact hc1
  · rintro ⟨hlinear, ⟨hlo, hhi⟩, h1y, h2y⟩
    -- the two corners are in order on the first axis
    have hle : (if x.negX then m.centerX - m.radius else min (m.position m.plane.axis0) (m.target m.plane.axis0)) ≤
        if x.posX then m.centerX + m.radius else max (m.position m.plane.axis0) (m.target m.plane.axis0) := by
      refine le_trans (?_ : _ ≤ m.position m.plane.axis0) ?_
      · split
        · exact hmem.1
        · exact min_le_left _ _
      · split
        · exact hmem.2
        · exact le_max_left _ _
    have hcorner (p : Axis → ℝ) (hp : p = m.position ∨ p = m.target) (a b : ℝ)
        (ha : envelope.min m.plane.axis0 ≤ a ∧ a ≤ envelope.max m.plane.axis0)
        (hb : envelope.min m.plane.axis1 ≤ b ∧ b ≤ envelope.max m.plane.axis1) (i : Axis) (hh : homed i = true) (hs : softLimits i = true) :
        envelope.Inside (Function.update (Function.update p m.plane.axis0 a) m.plane.axis1 b) i := by
      by_cases h1 : i = m.plane.axis1
      · rwa [h1, WorkEnvelope.Inside, Function.update_self]
      by_cases h0 : i = m.plane.axis0
      · rwa [h0, WorkEnvelope.Inside, Function.update_of_ne hne, Function.update_self]
      rw [WorkEnvelope.Inside, Function.update_of_ne h1, Function.update_of_ne h0]
      rcases hp with rfl | rfl
      · exact hstart i hh hs
      · exact hlinear i h0 h1 hh hs
    refine ⟨hcorner _ ?_ _ _ ⟨hlo, hle.trans hhi⟩ h1y, hcorner _ ?_ _ _ ⟨hlo.trans hle, hhi⟩ h2y⟩
    · split
      · exact .inl rfl
      · exact .inr rfl
    · split
      · exact .inr rfl
      · exact .inl rfl

/-- What is tested on the second axis, against the bounds of the arc: too little if only one of its extreme points is passed. -/
theorem tested_iff {neg pos : Bool} (hstart : envelope.Inside m.position m.plane.axis1) :
    m.Tested envelope m.plane.axis1 m.centerY neg pos ↔ m.Bounded envelope m.plane.axis1 m.centerY neg pos ∨
      (neg = true ∧ pos = false ∧ envelope.max m.plane.axis1 < m.target m.plane.axis1 ∧
        envelope.min m.plane.axis1 ≤ m.centerY - m.radius) ∨
      (neg = false ∧ pos = true ∧ m.target m.plane.axis1 < envelope.min m.plane.axis1 ∧
        m.centerY + m.radius ≤ envelope.max m.plane.axis1) := by
  obtain ⟨hp0, hp1⟩ := m.position_axis1_mem
  obtain ⟨ht0, ht1⟩ := m.target_axis1_mem
  obtain ⟨hlo, hhi⟩ := hstart
  have hr := m.radius_nonneg
  unfold Tested Bounded
  generalize m.position m.plane.axis1 = p, m.target m.plane.axis1 = t, envelope.min m.plane.axis1 = lo,
    envelope.max m.plane.axis1 = hi, m.centerY = c, m.radius = r at *
  cases neg <;> cases pos <;> simp only [if_true, if_false, Bool.false_eq_true, true_and, false_and, and_false, reduceCtorEq, or_false,
    false_or, le_min_iff, max_le_iff, le_max_iff, min_le_iff]
  · constructor
    · rintro ⟨⟨-, hmax⟩, hmin, -⟩
      exact ⟨hmin, hmax⟩
    · rintro ⟨hmin, hmax⟩
      exact ⟨⟨.inl hlo, hmax⟩, hmin, .inl hhi⟩
  · constructor
    · rintro ⟨-, -, htop⟩
      rcases le_or_gt lo t with ht | ht
      · exact .inl ⟨⟨hlo, ht⟩, htop⟩
      · exact .inr ⟨ht, htop⟩
    · rintro (⟨⟨-, -⟩, htop⟩ | ⟨-, htop⟩)
      · exact ⟨⟨.inl hlo, hhi, by linarith⟩, by linarith, htop⟩
      · exact ⟨⟨.inl hlo, hhi, by linarith⟩, by linarith, htop⟩
  · constructor
    · rintro ⟨⟨hbottom, -⟩, -, -⟩
      rcases le_or_gt t hi with ht | ht
      · exact .inl ⟨hbottom, hhi, ht⟩
      · exact .inr ⟨ht, hbottom⟩
    · rintro (⟨hbottom, -⟩ | ⟨-, hbottom⟩)
      · exact ⟨⟨hbottom, by linarith⟩, ⟨hlo, by linarith⟩, .inl hhi⟩
      · exact ⟨⟨hbottom, by linarith⟩, ⟨hlo, by linarith⟩, .inl hhi⟩
  · constructor
    · rintro ⟨⟨hbottom, -⟩, -, htop⟩
      exact ⟨hbottom, htop⟩
    · rintro ⟨hbottom, htop⟩
      exact ⟨⟨hbottom, by linarith⟩, by linarith, htop⟩

/-! ## What the check misses -/

variable (m homed softLimits envelope)

/-- The whole circle lies inside, as far as its plane goes. -/
def CircleInside : Prop :=
  (envelope.min m.plane.axis0 ≤ m.centerX - m.radius ∧ m.centerX + m.radius ≤ envelope.max m.plane.axis0) ∧
    envelope.min m.plane.axis1 ≤ m.centerY - m.radius ∧ m.centerY + m.radius ≤ envelope.max m.plane.axis1

/-- The target is above the envelope on the second axis, and nothing else of the arc without its full turns lies outside: counterclockwise it
passes the lowest point of the circle, and the highest one lies neither between its ends nor is it its end. -/
structure MissedAbove : Prop where
  above : envelope.max m.plane.axis1 < m.target m.plane.axis1
  lowest : Meets m.first (-I) (Ioo 0 m.angle)
  highest : ¬Meets m.first I (Ioc 0 m.angle)
  rest : m.oneTurn.Inside homed softLimits (envelope.raise m.plane.axis1 (m.centerY + m.radius))

/-- The target is below the envelope on the second axis, and nothing else of the arc without its full turns lies outside: counterclockwise the
highest point of the circle lies between its ends or is its end, and the lowest one is not passed, nor met by the end of an arc that starts to
the right of it. -/
structure MissedBelow : Prop where
  below : m.target m.plane.axis1 < envelope.min m.plane.axis1
  highest : Meets m.first I (Ioc 0 m.angle)
  lowest : ¬Meets m.first (-I) (Ioo 0 m.angle)
  notEnd : ¬(m.last = ‖m.first‖ * -I ∧ 0 ≤ m.first.re ∧ m.first.im < 0)
  rest : m.oneTurn.Inside homed softLimits (envelope.lower m.plane.axis1 (m.centerY - m.radius))

/-- The check misses nothing. -/
def Seen : Prop :=
  (m.turns < -1 → m.oneTurn.Inside homed softLimits envelope → m.CircleInside envelope) ∧
    (m.turns ≤ 1 → ¬m.MissedAbove homed softLimits envelope ∧ ¬m.MissedBelow homed softLimits envelope)

variable {m homed softLimits envelope}

theorem oneTurn_turns_pos : m.oneTurn.turns > 0 ↔ m.turns > 0 := by
  simp only [oneTurn]
  split
  · next h => exact ⟨fun _ => h, fun _ => by decide⟩
  · next h => exact ⟨fun h' => absurd h' (by decide), fun h' => absurd h' h⟩

theorem oneTurn_first : m.oneTurn.first = m.first := by
  unfold first
  simp only [oneTurn_turns_pos]
  rfl

theorem oneTurn_last : m.oneTurn.last = m.last := by
  unfold last
  simp only [oneTurn_turns_pos]
  rfl

theorem oneTurn_crossed : m.oneTurn.crossed = m.crossed := by
  rw [crossed, oneTurn_first, oneTurn_last]
  rfl

theorem oneTurn_fullTurns : m.oneTurn.fullTurns = 0 := by
  unfold fullTurns oneTurn
  split <;> rfl

theorem oneTurn_inside_iff (hhomed : ∀ i, i ≠ .a → homed i = true ∧ softLimits i = true)
    (hstart : ∀ i, homed i = true → softLimits i = true → envelope.Inside m.position i) :
    m.oneTurn.Inside homed softLimits envelope ↔ m.LinearInside homed softLimits envelope ∧
      m.Bounded envelope m.plane.axis0 m.centerX m.crossed.negX m.crossed.posX ∧
      m.Bounded envelope m.plane.axis1 m.centerY m.crossed.negY m.crossed.posY := by
  have h := inside_iff (m := m.oneTurn) hhomed hstart
  rwa [if_pos oneTurn_fullTurns, if_pos oneTurn_fullTurns, oneTurn_crossed] at h

theorem onlyNegY_iff :
    (m.crossed.negY = true ∧ m.crossed.posY = false) ↔ Meets m.first (-I) (Ioo 0 m.angle) ∧ ¬Meets m.first I (Ioc 0 m.angle) := by
  have hposY := posY_iff (u := m.first) m.angle_pos m.angle_le
  have hnegY := negY_iff (u := m.first) m.angle_pos m.angle_le
  rw [m.first_mul_exp] at hposY hnegY
  rw [← Bool.not_eq_true, crossed, hposY, hnegY]
  constructor
  · rintro ⟨hlow | ⟨hend, hright, hbelow⟩, hhigh⟩
    · exact ⟨hlow, hhigh⟩
    · exact absurd (meets_top_of_end m.angle_pos m.angle_le (m.first_mul_exp.trans hend) hright hbelow) hhigh
  · rintro ⟨hlow, hhigh⟩
    exact ⟨.inl hlow, hhigh⟩

theorem onlyPosY_iff :
    (m.crossed.negY = false ∧ m.crossed.posY = true) ↔ Meets m.first I (Ioc 0 m.angle) ∧ ¬Meets m.first (-I) (Ioo 0 m.angle) ∧
      ¬(m.last = ‖m.first‖ * -I ∧ 0 ≤ m.first.re ∧ m.first.im < 0) := by
  have hposY := posY_iff (u := m.first) m.angle_pos m.angle_le
  have hnegY := negY_iff (u := m.first) m.angle_pos m.angle_le
  rw [m.first_mul_exp] at hposY hnegY
  rw [← Bool.not_eq_true, crossed, hposY, hnegY, not_or, and_comm]

theorem missedAbove_iff (hhomed : ∀ i, i ≠ .a → homed i = true ∧ softLimits i = true)
    (hstart : ∀ i, homed i = true → softLimits i = true → envelope.Inside m.position i) :
    m.MissedAbove homed softLimits envelope ↔ m.LinearInside homed softLimits envelope ∧
      m.Bounded envelope m.plane.axis0 m.centerX m.crossed.negX m.crossed.posX ∧
      m.crossed.negY = true ∧ m.crossed.posY = false ∧ envelope.max m.plane.axis1 < m.target m.plane.axis1 ∧
        envelope.min m.plane.axis1 ≤ m.centerY - m.radius := by
  have hstart' (i : Axis) (hh : homed i = true) (hs : softLimits i = true) :
      (envelope.raise m.plane.axis1 (m.centerY + m.radius)).Inside m.position i :=
    ⟨(hstart i hh hs).1, (hstart i hh hs).2.trans (le_raise envelope _)⟩
  have hlinear : m.LinearInside homed softLimits (envelope.raise m.plane.axis1 (m.centerY + m.radius)) ↔
      m.LinearInside homed softLimits envelope := by
    refine forall₃_congr fun i h0 h1 => ?_
    rw [WorkEnvelope.Inside, raise_max_of_ne envelope _ h1, raise_min, WorkEnvelope.Inside]
  have hzero (neg pos : Bool) : m.Bounded (envelope.raise m.plane.axis1 (m.centerY + m.radius)) m.plane.axis0 m.centerX neg pos ↔
      m.Bounded envelope m.plane.axis0 m.centerX neg pos := by
    rw [Bounded, raise_max_of_ne envelope _ m.plane.axis0_ne_axis1, raise_min, Bounded]
  constructor
  · rintro ⟨habove, hlow, hhigh, hrest⟩
    obtain ⟨hneg, hpos⟩ := onlyNegY_iff.2 ⟨hlow, hhigh⟩
    obtain ⟨hlin, hx, hy⟩ := (oneTurn_inside_iff hhomed hstart').1 hrest
    refine ⟨hlinear.1 hlin, (hzero _ _).1 hx, hneg, hpos, habove, ?_⟩
    have hmin := hy.1
    rwa [hneg, if_pos rfl] at hmin
  · rintro ⟨hlin, hx, hneg, hpos, habove, hbottom⟩
    obtain ⟨hlow, hhigh⟩ := onlyNegY_iff.1 ⟨hneg, hpos⟩
    refine ⟨habove, hlow, hhigh, (oneTurn_inside_iff hhomed hstart').2 ⟨hlinear.2 hlin, (hzero _ _).2 hx, ?_, ?_⟩⟩
    · rw [hneg, if_pos rfl]
      exact hbottom
    · rw [hpos, if_neg Bool.false_ne_true, raise_max_self]
      exact (max_le m.position_axis1_mem.2 m.target_axis1_mem.2).trans (le_max_right _ _)

theorem missedBelow_iff (hhomed : ∀ i, i ≠ .a → homed i = true ∧ softLimits i = true)
    (hstart : ∀ i, homed i = true → softLimits i = true → envelope.Inside m.position i) :
    m.MissedBelow homed softLimits envelope ↔ m.LinearInside homed softLimits envelope ∧
      m.Bounded envelope m.plane.axis0 m.centerX m.crossed.negX m.crossed.posX ∧
      m.crossed.negY = false ∧ m.crossed.posY = true ∧ m.target m.plane.axis1 < envelope.min m.plane.axis1 ∧
        m.centerY + m.radius ≤ envelope.max m.plane.axis1 := by
  have hstart' (i : Axis) (hh : homed i = true) (hs : softLimits i = true) :
      (envelope.lower m.plane.axis1 (m.centerY - m.radius)).Inside m.position i :=
    ⟨(lower_le envelope _).trans (hstart i hh hs).1, (hstart i hh hs).2⟩
  have hlinear : m.LinearInside homed softLimits (envelope.lower m.plane.axis1 (m.centerY - m.radius)) ↔
      m.LinearInside homed softLimits envelope := by
    refine forall₃_congr fun i h0 h1 => ?_
    rw [WorkEnvelope.Inside, lower_min_of_ne envelope _ h1, lower_max, WorkEnvelope.Inside]
  have hzero (neg pos : Bool) : m.Bounded (envelope.lower m.plane.axis1 (m.centerY - m.radius)) m.plane.axis0 m.centerX neg pos ↔
      m.Bounded envelope m.plane.axis0 m.centerX neg pos := by
    rw [Bounded, lower_min_of_ne envelope _ m.plane.axis0_ne_axis1, lower_max, Bounded]
  constructor
  · rintro ⟨hbelow, hhigh, hlow, hend, hrest⟩
    obtain ⟨hneg, hpos⟩ := onlyPosY_iff.2 ⟨hhigh, hlow, hend⟩
    obtain ⟨hlin, hx, hy⟩ := (oneTurn_inside_iff hhomed hstart').1 hrest
    refine ⟨hlinear.1 hlin, (hzero _ _).1 hx, hneg, hpos, hbelow, ?_⟩
    have hmax := hy.2
    rwa [hpos, if_pos rfl] at hmax
  · rintro ⟨hlin, hx, hneg, hpos, hbelow, htop⟩
    obtain ⟨hhigh, hlow, hend⟩ := onlyPosY_iff.1 ⟨hneg, hpos⟩
    refine ⟨hbelow, hhigh, hlow, hend, (oneTurn_inside_iff hhomed hstart').2 ⟨hlinear.2 hlin, (hzero _ _).2 hx, ?_, ?_⟩⟩
    · rw [hneg, if_neg Bool.false_ne_true, lower_min_self]
      exact (min_le_right _ _).trans (le_min m.position_axis1_mem.1 m.target_axis1_mem.1)
    · rw [hpos, if_pos rfl]
      exact htop

variable (m envelope) in
/-- An arc inside lies inside along both axes; where the whole circle is passed it lies inside with it. -/
theorem bounded_of_circle {i : Axis} {center : ℝ} (neg pos : Bool) (hp : center - m.radius ≤ m.position i ∧ m.position i ≤ center + m.radius)
    (ht : center - m.radius ≤ m.target i ∧ m.target i ≤ center + m.radius) (h : m.Bounded envelope i center true true) :
    m.Bounded envelope i center neg pos := by
  obtain ⟨hmin, hmax⟩ := h
  rw [if_pos rfl] at hmin hmax
  constructor
  · split
    · exact hmin
    · exact le_min (hmin.trans hp.1) (hmin.trans ht.1)
  · split
    · exact hmax
    · exact max_le (hp.2.trans hmax) (ht.2.trans hmax)

/-- The check is right exactly if it misses nothing. -/
theorem arc_check_iff (hhomed : ∀ i, i ≠ .a → homed i = true ∧ softLimits i = true)
    (hstart : ∀ i, homed i = true → softLimits i = true → envelope.Inside m.position i) :
    (m.check homed softLimits envelope = true ↔ m.Inside homed softLimits envelope) ↔ m.Seen homed softLimits envelope := by
  have haxis1 := hstart m.plane.axis1 (hhomed _ (by cases m.plane <;> decide)).1 (hhomed _ (by cases m.plane <;> decide)).2
  have hcircle : m.CircleInside envelope ↔
      m.Bounded envelope m.plane.axis0 m.centerX true true ∧ m.Bounded envelope m.plane.axis1 m.centerY true true := by
    simp only [Bounded, if_true]
    rfl
  have hsub0 := bounded_of_circle m envelope m.crossed.negX m.crossed.posX m.position_axis0_mem m.target_axis0_mem
  have hsub1 := bounded_of_circle m envelope m.crossed.negY m.crossed.posY m.position_axis1_mem m.target_axis1_mem
  -- where the target is missed the arc does not lie inside
  have habove : (m.crossed.negY = true ∧ m.crossed.posY = false ∧ envelope.max m.plane.axis1 < m.target m.plane.axis1 ∧
      envelope.min m.plane.axis1 ≤ m.centerY - m.radius) → ¬m.Bounded envelope m.plane.axis1 m.centerY m.crossed.negY m.crossed.posY := by
    rintro ⟨-, hpos, ht, -⟩ ⟨-, hmax⟩
    rw [hpos, if_neg Bool.false_ne_true] at hmax
    exact ht.not_ge ((le_max_right _ _).trans hmax)
  have hbelow : (m.crossed.negY = false ∧ m.crossed.posY = true ∧ m.target m.plane.axis1 < envelope.min m.plane.axis1 ∧
      m.centerY + m.radius ≤ envelope.max m.plane.axis1) → ¬m.Bounded envelope m.plane.axis1 m.centerY m.crossed.negY m.crossed.posY := by
    rintro ⟨hneg, -, ht, -⟩ ⟨hmin, -⟩
    rw [hneg, if_neg Bool.false_ne_true] at hmin
    exact ht.not_ge (hmin.trans (min_le_right _ _))
  unfold Seen
  rw [check_iff hhomed hstart, tested_iff haxis1, inside_iff hhomed hstart, oneTurn_inside_iff hhomed hstart,
    missedAbove_iff hhomed hstart, missedBelow_iff hhomed hstart, hcircle]
  by_cases hccw : m.turns > 1
  · -- more than one counterclockwise turn: the whole circle is tested
    have hfull : m.fullTurns ≠ 0 := by
      unfold fullTurns
      omega
    have hchecked : m.checkedCrossings = ⟨true, true, true, true⟩ := if_pos hccw
    simp only [hchecked, if_neg hfull, show ¬m.turns < -1 by omega, show ¬m.turns ≤ 1 by omega, false_implies, and_self, iff_true,
      Bool.true_eq_false, false_and, and_false, or_false]
  · have hchecked : m.checkedCrossings = m.crossed := if_neg hccw
    have hle : m.turns ≤ 1 := not_lt.1 hccw
    rw [hchecked]
    simp only [hle, true_implies]
    generalize m.Bounded envelope m.plane.axis0 m.centerX m.crossed.negX m.crossed.posX = B0,
      m.Bounded envelope m.plane.axis1 m.centerY m.crossed.negY m.crossed.posY = B1,
      m.Bounded envelope m.plane.axis0 m.centerX true true = C0, m.Bounded envelope m.plane.axis1 m.centerY true true = C1,
      m.LinearInside homed softLimits envelope = L at *
    generalize (m.crossed.negY = true ∧ m.crossed.posY = false ∧ envelope.max m.plane.axis1 < m.target m.plane.axis1 ∧
      envelope.min m.plane.axis1 ≤ m.centerY - m.radius) = A at *
    generalize (m.crossed.negY = false ∧ m.crossed.posY = true ∧ m.target m.plane.axis1 < envelope.min m.plane.axis1 ∧
      m.centerY + m.radius ≤ envelope.max m.plane.axis1) = C at *
    by_cases hcw : m.turns < -1
    · -- more than one clockwise turn: the arc without its full turns is tested
      have hfull : m.fullTurns ≠ 0 := by
        unfold fullTurns
        omega
      simp only [if_neg hfull, hcw, true_implies]
      constructor
      · intro h
        refine ⟨fun ⟨hl, h0, h1⟩ => (h.1 ⟨hl, h0, .inl h1⟩).2, fun ⟨hl, h0, ha⟩ => ?_, fun ⟨hl, h0, hc⟩ => ?_⟩
        · exact habove ha (hsub1 (h.1 ⟨hl, h0, .inr (.inl ha)⟩).2.2)
        · exact hbelow hc (hsub1 (h.1 ⟨hl, h0, .inr (.inr hc)⟩).2.2)
      · rintro ⟨hdirect, ha, hc⟩
        constructor
        · rintro ⟨hl, h0, h1 | h1 | h1⟩
          · exact ⟨hl, hdirect ⟨hl, h0, h1⟩⟩
          · exact absurd ⟨hl, h0, h1⟩ ha
          · exact absurd ⟨hl, h0, h1⟩ hc
        · rintro ⟨hl, h0, h1⟩
          exact ⟨hl, hsub0 h0, .inl (hsub1 h1)⟩
    · have hfull : m.fullTurns = 0 := by
        have hne := m.turns_ne
        unfold fullTurns
        omega
      simp only [if_pos hfull, hcw, false_implies, true_and]
      constructor
      · intro h
        refine ⟨fun ⟨hl, h0, ha⟩ => ?_, fun ⟨hl, h0, hc⟩ => ?_⟩
        · exact habove ha (h.1 ⟨hl, h0, .inr (.inl ha)⟩).2.2
        · exact hbelow hc (h.1 ⟨hl, h0, .inr (.inr hc)⟩).2.2
      · rintro ⟨ha, hc⟩
        constructor
        · rintro ⟨hl, h0, h1 | h1 | h1⟩
          · exact ⟨hl, h0, h1⟩
          · exact absurd ⟨hl, h0, h1⟩ ha
          · exact absurd ⟨hl, h0, h1⟩ hc
        · rintro ⟨hl, h0, h1⟩
          exact ⟨hl, h0, .inl h1⟩

end Arc

/-! ## Examples -/

section

noncomputable def pointXY (x y : ℝ) : Axis → ℝ
  | .x => x
  | .y => y
  | .z => -1
  | .a => 0

/-- A half circle of radius 5 below the start, from X-4 Y-3 to X4 Y3. -/
noncomputable def halfCircle : Arc where
  position := pointXY (-4) (-3)
  target := pointXY 4 3
  centerX := 0
  centerY := 0
  radius := 5
  plane := .xy
  turns := 1
  radius_nonneg := by norm_num
  position_on := by norm_num [Plane.axis0, Plane.axis1, pointXY]
  target_on := by norm_num [Plane.axis0, Plane.axis1, pointXY]
  turns_ne := by decide

/-- A clockwise arc over the top, from X-3 Y4 to X3 Y4, and once around. -/
noncomputable def overTheTop : Arc where
  position := pointXY (-3) 4
  target := pointXY 3 4
  centerX := 0
  centerY := 0
  radius := 5
  plane := .xy
  turns := -2
  radius_nonneg := by norm_num
  position_on := by norm_num [Plane.axis0, Plane.axis1, pointXY]
  target_on := by norm_num [Plane.axis0, Plane.axis1, pointXY]
  turns_ne := by decide

/-- An envelope from `lo` to `hi` in Y, and 10 mm in the other directions. -/
noncomputable def envelopeY (lo hi : ℝ) : WorkEnvelope ℝ where
  min := fun
    | .y => lo
    | _ => -10
  max := fun
    | .y => hi
    | _ => 10

theorem halfCircle_start (i : Axis) : (envelopeY (-10) 0).Inside halfCircle.position i := by
  cases i <;> norm_num [WorkEnvelope.Inside, envelopeY, halfCircle, pointXY]

theorem overTheTop_start (i : Axis) : (envelopeY 0 10).Inside overTheTop.position i := by
  cases i <;> norm_num [WorkEnvelope.Inside, envelopeY, overTheTop, pointXY]

theorem arc_check_iff_halfCircle :
    (halfCircle.check (fun i => i != .a) (fun i => i != .a) (envelopeY (-10) 0) = true ↔
      halfCircle.Inside (fun i => i != .a) (fun i => i != .a) (envelopeY (-10) 0)) ↔
      halfCircle.Seen (fun i => i != .a) (fun i => i != .a) (envelopeY (-10) 0) :=
  Arc.arc_check_iff (by decide) fun i _ _ => halfCircle_start i

/-- The end of the half circle is 3 mm outside, and the check passes; so it does for the clockwise arc, whose full turn goes 5 mm outside. -/
theorem arc_check_misses_top :
    (halfCircle.check (fun i => i != .a) (fun i => i != .a) (envelopeY (-10) 0) = true ∧
      ¬halfCircle.Inside (fun i => i != .a) (fun i => i != .a) (envelopeY (-10) 0)) ∧
    overTheTop.check (fun i => i != .a) (fun i => i != .a) (envelopeY 0 10) = true ∧
      ¬overTheTop.Inside (fun i => i != .a) (fun i => i != .a) (envelopeY 0 10) := by
  have hhalf : halfCircle.checkedCrossings = ⟨false, false, true, true⟩ := by
    norm_num [Arc.checkedCrossings, Arc.crossed, Arc.first, Arc.last, Arc.vector, crossings, Crossings.ofBits, Nat.testBit, Nat.shiftRight_eq_div_pow, halfCircle, pointXY,
      Plane.axis0, Plane.axis1]
  have hover : overTheTop.checkedCrossings = ⟨true, false, false, false⟩ := by
    norm_num [Arc.checkedCrossings, Arc.crossed, Arc.first, Arc.last, Arc.vector, crossings, Crossings.ofBits, Nat.testBit, Nat.shiftRight_eq_div_pow, overTheTop, pointXY,
      Plane.axis0, Plane.axis1]
  have hhalfTurns : halfCircle.fullTurns = 0 := rfl
  have hoverTurns : overTheTop.fullTurns ≠ 0 := one_ne_zero
  refine ⟨⟨?_, fun h => ?_⟩, ?_, fun h => ?_⟩
  · rw [Arc.check_iff (by decide) fun i _ _ => halfCircle_start i, hhalf]
    refine ⟨fun i h0 h1 _ _ => ?_, ?_, ?_⟩
    · cases i with
      | x => exact absurd rfl h0
      | y => exact absurd rfl h1
      | z | a => norm_num [WorkEnvelope.Inside, envelopeY, halfCircle, pointXY]
    · norm_num [Arc.Bounded, envelopeY, halfCircle, pointXY, Plane.axis0]
    · norm_num [Arc.Tested, envelopeY, halfCircle, pointXY, Plane.axis1]
  · obtain ⟨-, -, hy⟩ := (Arc.inside_iff (by decide) fun i _ _ => halfCircle_start i).1 h
    rw [if_pos hhalfTurns] at hy
    have hmax := hy.2
    split at hmax <;> norm_num [halfCircle, pointXY, envelopeY, Plane.axis1] at hmax
  · rw [Arc.check_iff (by decide) fun i _ _ => overTheTop_start i, hover]
    refine ⟨fun i h0 h1 _ _ => ?_, ?_, ?_⟩
    · cases i with
      | x => exact absurd rfl h0
      | y => exact absurd rfl h1
      | z | a => norm_num [WorkEnvelope.Inside, envelopeY, overTheTop, pointXY]
    · norm_num [Arc.Bounded, envelopeY, overTheTop, pointXY, Plane.axis0]
    · norm_num [Arc.Tested, envelopeY, overTheTop, pointXY, Plane.axis1]
  · obtain ⟨-, -, hy⟩ := (Arc.inside_iff (by decide) fun i _ _ => overTheTop_start i).1 h
    rw [if_neg hoverTurns] at hy
    have hmin := hy.1
    norm_num [overTheTop, pointXY, envelopeY, Plane.axis1] at hmin

end

end Grbl.Limits
