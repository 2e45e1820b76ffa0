import Mathlib
import Grbl.Lib.AtLeastTwo
import Grbl.Lib.OrderedField

/-!
# Uniformly accelerated motion

* `Sqrt`, `LawfulSqrt` : a square root on a field, exact on the nonnegative elements; `sqrtf_pos`, `sqrtf_le`;
* `travel v a t` : the distance covered in the time `t` from the speed `v` under the acceleration `a`;
* `sq_after` : squared speeds change by `2 * a * travel`;
* `travel_eq_mean`, `dist_of_mean`, `speed_after` : a ramp takes its distance over the mean of the two speeds.
-/

namespace Grbl.Lib
open scoped Grbl.Lib.Literal Grbl.Lib.OrderedField

/-- A square root. -/
class Sqrt (K : Type*) where
  sqrtf : K → K

export Sqrt (sqrtf)

/-- The square root is exact. -/
class LawfulSqrt (K : Type*) [Field K] [LinearOrder K] [Sqrt K] : Prop where
  sqrtf_nonneg (x : K) : 0 ≤ sqrtf x
  sq_sqrtf (x : K) : 0 ≤ x → sqrtf x ^ 2 = x

export LawfulSqrt (sqrtf_nonneg sq_sqrtf)

noncomputable instance : Sqrt ℝ := ⟨Real.sqrt⟩

instance : LawfulSqrt ℝ := ⟨Real.sqrt_nonneg, fun _ h => Real.sq_sqrt h⟩

section
variable {K : Type*} [Field K]

/-- The distance covered in the time `t`. -/
def travel (v a t : K) : K := t * (v + 1 / 2 * (a * t))

theorem travel_neg (v a t : K) : travel v (-a) t = t * (v - 1 / 2 * (a * t)) := by
  unfold travel
  ring

end

section
variable {K : Type*} [Field K] [LinearOrder K] [IsStrictOrderedRing K] {v w a d t x : K}

theorem sqrtf_pos [Sqrt K] [LawfulSqrt K] (hx : 0 < x) : 0 < sqrtf x := by
  refine lt_of_le_of_ne (sqrtf_nonneg x) fun hzero => hx.ne' ?_
  rw [← sq_sqrtf x hx.le, ← hzero, sq, zero_mul]

theorem sqrtf_le [Sqrt K] [LawfulSqrt K] (hx : 0 ≤ x) (hw : 0 ≤ w) (h : x ≤ w ^ 2) : sqrtf x ≤ w := by
  rw [← pow_le_pow_iff_left₀ (sqrtf_nonneg x) hw two_ne_zero, sq_sqrtf x hx]
  exact h

theorem sq_after (v a t : K) : (v + a * t) ^ 2 = v ^ 2 + 2 * a * travel v a t := by
  unfold travel
  ring

theorem travel_eq_mean (v a t : K) : travel v a t = t * ((v + (v + a * t)) / 2) := by
  unfold travel
  ring

/-- Over the time that the distance takes at the mean speed, the speed changes by the acceleration times that time. -/
theorem speed_after (hv : 0 ≤ v) (hw : 0 ≤ w) (h : w ^ 2 = v ^ 2 + 2 * a * d) : w = v + a * (2 * d / (v + w)) := by
  have hprod : (w - v) * (v + w) = a * (2 * d) := by linarith
  rcases eq_or_ne (v + w) 0 with hzero | hne
  · have hv' : v = 0 := by linarith
    have hw' : w = 0 := by linarith
    simp [hv', hw']
  · have := mul_div_assoc a (2 * d) (v + w)
    rw [← hprod, mul_div_cancel_right₀ _ hne] at this
    linarith

theorem dist_of_mean (hv : 0 ≤ v) (hw : 0 ≤ w) (ha : a ≠ 0) (h : w ^ 2 = v ^ 2 + 2 * a * d) :
    d = 2 * d / (v + w) * ((v + w) / 2) := by
  rcases eq_or_ne (v + w) 0 with hzero | hne
  · have hv' : v = 0 := by linarith
    have hw' : w = 0 := by linarith
    have hd : a * d = 0 := by
      rw [hv', hw'] at h
      linarith
    rcases mul_eq_zero.1 hd with ha' | hd'
    · exact absurd ha' ha
    · simp [hd']
  · field_simp

end

end Grbl.Lib
