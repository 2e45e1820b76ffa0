import Mathlib
import Grbl.Axis
import Grbl.Lib.OrderedField

/-!
# Polar robots

`kinematics/polar.c`: the arm turns to the angle of a point by the shorter way.

* `fmod`, `absAngle`, `unwrap`, `transformFromCartesian` : the functions; `turns` : the full turns of an angle;
* `absAngle_eq`, `unwrap_congruent`, `unwrap_near`, `unwrap_self` : what they compute;
* `Unwraps`, `NoFullTurn`, `AlongPath` : what is expected of a point, and along a path;
* `unwraps_iff`; `center_turns_on`.
-/

namespace Grbl.Kinematics
open scoped Grbl.Lib.OrderedField

section
variable {K : Type*} [Field K] [LinearOrder K] [FloorRing K]

/-- `fmodf` -/
def fmod (x y : K) : K := x - (if 0 ≤ x / y then ⌊x / y⌋ else ⌈x / y⌉ : ℤ) * y

def absAngle (ang : K) : K :=
  let ang := fmod ang 360
  if ang < 0 then 360 + ang else ang

/-- The end of `transform_from_cartesian`: the angle as it is approached from the last one. -/
def unwrap (last target : K) : K :=
  let deltaAng := target - absAngle last
  if |deltaAng| ≤ 180 then last + deltaAng else last + if deltaAng > 0 then -(360 - deltaAng) else deltaAng + 360

variable (sqrtf : K → K) (atan2f : K → K → K)

def hypotf (x y : K) : K := sqrtf (x * x + y * y)

/-- `transform_from_cartesian`; `atan2f` is in degrees. -/
def transformFromCartesian (lastPos position : Axis → K) : Axis → K
  | .x => hypotf sqrtf (position .x) (position .y)
  | .y =>
      unwrap (lastPos .y)
        (if hypotf sqrtf (position .x) (position .y) = 0 then lastPos .y else absAngle (atan2f (position .y) (position .x)))
  | .z => position .z
  | .a => position .a

/-! ## Angles -/

variable [IsStrictOrderedRing K] {last θ : K}

/-- The full turns of an angle. -/
def turns (θ : K) : ℤ := ⌊θ / 360⌋

theorem turns_eq {k : ℤ} (hle : 360 * k ≤ θ) (hlt : θ < 360 * (k + 1)) : turns θ = k := by
  rw [turns, Int.floor_eq_iff, le_div_iff₀ (by norm_num), div_lt_iff₀ (by norm_num)]
  constructor <;> linarith

theorem turns_mul_le (θ : K) : 360 * (turns θ : K) ≤ θ := by
  have h := Int.floor_le (θ / 360)
  rw [le_div_iff₀ (by norm_num)] at h
  rw [turns]
  linarith

theorem lt_turns_mul (θ : K) : θ < 360 * (turns θ + 1) := by
  have h := Int.lt_floor_add_one (θ / 360)
  rw [div_lt_iff₀ (by norm_num)] at h
  rw [turns]
  linarith

theorem absAngle_eq (θ : K) : absAngle θ = θ - 360 * turns θ := by
  have hmod : ∀ k : ℤ, θ - k * 360 = θ - 360 * k := fun k => by ring
  unfold absAngle fmod
  dsimp only
  by_cases hpos : 0 ≤ θ / 360
  · have hle := turns_mul_le θ
    rw [if_pos hpos, hmod, ← turns, if_neg (by linarith)]
  · have hceil := Int.ceil_lt_add_one (θ / 360)
    have hle := Int.le_ceil (θ / 360)
    rw [if_neg hpos, hmod]
    generalize ⌈θ / 360⌉ = c at hceil hle
    rw [← sub_lt_iff_lt_add, lt_div_iff₀ (by norm_num)] at hceil
    rw [div_le_iff₀ (by norm_num)] at hle
    split
    · have hturns : turns θ = c - 1 := turns_eq (by push_cast; linarith) (by push_cast; linarith)
      rw [hturns]
      push_cast
      ring
    · rw [turns_eq (k := c) (by linarith) (by linarith)]

theorem absAngle_nonneg (θ : K) : 0 ≤ absAngle θ := by
  rw [absAngle_eq]
  linarith [turns_mul_le θ]

theorem absAngle_lt (θ : K) : absAngle θ < 360 := by
  rw [absAngle_eq]
  linarith [lt_turns_mul θ]

theorem unwrap_congruent (last θ : K) : ∃ k : ℤ, unwrap last θ = θ + 360 * k := by
  unfold unwrap
  dsimp only
  rw [absAngle_eq]
  split_ifs
  · exact ⟨turns last, by ring⟩
  · exact ⟨turns last - 1, by push_cast; ring⟩
  · exact ⟨turns last + 1, by push_cast; ring⟩

theorem unwrap_near (last : K) (hnonneg : 0 ≤ θ) (hlt : θ < 360) : |unwrap last θ - last| ≤ 180 := by
  have h0 := absAngle_nonneg last
  have h1 := absAngle_lt last
  unfold unwrap
  dsimp only
  generalize absAngle last = a at h0 h1
  split_ifs with hnear hpos
  · rwa [add_sub_cancel_left]
  · rw [add_sub_cancel_left, abs_le]
    rw [abs_of_pos hpos, not_le] at hnear
    constructor <;> linarith
  · rw [add_sub_cancel_left, abs_le]
    rw [abs_of_nonpos (not_lt.1 hpos), not_le] at hnear
    constructor <;> linarith

/-- At the center the last angle itself is lifted: it is not reduced before. -/
theorem unwrap_self (last : K) : unwrap last last = last + 360 * (turns last - (turns last).sign : ℤ) := by
  have hdelta : last - absAngle last = 360 * turns last := by
    rw [absAngle_eq]
    ring
  unfold unwrap
  rw [hdelta]
  dsimp only
  generalize turns last = k
  rcases lt_trichotomy k 0 with hneg | rfl | hpos
  · have hk : (k : K) ≤ -1 := by exact_mod_cast Int.le_sub_one_of_lt hneg
    rw [Int.sign_eq_neg_one_of_neg hneg, if_neg, if_neg]
    · push_cast
      ring
    · linarith
    · rw [abs_of_nonpos (by linarith), not_le]
      linarith
  · simp
  · have hk : (1 : K) ≤ k := by exact_mod_cast Int.add_one_le_of_lt hpos
    rw [Int.sign_eq_one_of_pos hpos, if_neg, if_pos]
    · push_cast
      ring
    · linarith
    · rw [abs_of_nonneg (by linarith), not_le]
      linarith

/-- Within a turn of the first one. -/
def InTurn (last : K) : Prop := -360 ≤ last ∧ last < 720

theorem inTurn_iff : InTurn last ↔ turns last - (turns last).sign = 0 := by
  have hlow : -360 ≤ last ↔ -1 ≤ turns last := by
    rw [turns, Int.le_floor, le_div_iff₀ (by norm_num)]
    norm_num
  have hhigh : last < 720 ↔ turns last < 2 := by
    rw [turns, Int.floor_lt, div_lt_iff₀ (by norm_num)]
    norm_num
  rw [InTurn, hlow, hhigh]
  generalize turns last = k
  rcases lt_trichotomy k 0 with hneg | rfl | hpos
  · rw [Int.sign_eq_neg_one_of_neg hneg]
    omega
  · simp
  · rw [Int.sign_eq_one_of_pos hpos]
    omega

theorem unwrap_self_of_inTurn (h : InTurn last) : unwrap last last = last := by
  rw [unwrap_self, inTurn_iff.1 h, Int.cast_zero, mul_zero, add_zero]

theorem turn_le_of_not_inTurn (h : ¬InTurn last) : 360 ≤ |unwrap last last - last| := by
  rw [inTurn_iff] at h
  rw [unwrap_self, add_sub_cancel_left, abs_mul, ← Int.cast_abs, abs_of_pos (by norm_num : (0 : K) < 360)]
  have hone : (1 : K) ≤ (|turns last - (turns last).sign| : ℤ) := by exact_mod_cast Int.one_le_abs h
  linarith

end

/-! ## Points and paths -/

section
variable {K : Type*} [Field K] [LinearOrder K] [FloorRing K] (sqrtf : K → K) (atan2f : K → K → K)

/-- The point lies on the axis of the arm. -/
def Center (position : Axis → K) : Prop := position .x = 0 ∧ position .y = 0

/-- The arm is turned to the point, by at most half a turn; at the center it stays. -/
structure Unwraps (lastPos position : Axis → K) : Prop where
  congruent : ¬Center position →
    ∃ k : ℤ, transformFromCartesian sqrtf atan2f lastPos position .y = atan2f (position .y) (position .x) + 360 * k
  center : Center position → transformFromCartesian sqrtf atan2f lastPos position .y = lastPos .y
  near : |transformFromCartesian sqrtf atan2f lastPos position .y - lastPos .y| ≤ 180

def NoFullTurn (lastPos position : Axis → K) : Prop := |transformFromCartesian sqrtf atan2f lastPos position .y - lastPos .y| < 360

/-- Of every point of a path and the last position before it. -/
def AlongPath (P : (Axis → K) → (Axis → K) → Prop) : (Axis → K) → List (Axis → K) → Prop
  | _, [] => True
  | lastPos, position :: path => P lastPos position ∧ AlongPath P (transformFromCartesian sqrtf atan2f lastPos position) path

/-- The center is not reached from more than a turn away from the first one. -/
def Reducible (lastPos position : Axis → K) : Prop := Center position → InTurn (lastPos .y)

theorem alongPath_congr {P Q : (Axis → K) → (Axis → K) → Prop} (h : ∀ lastPos position, P lastPos position ↔ Q lastPos position)
    (path : List (Axis → K)) : ∀ lastPos, AlongPath sqrtf atan2f P lastPos path ↔ AlongPath sqrtf atan2f Q lastPos path := by
  induction path with
  | nil => exact fun _ => Iff.rfl
  | cons position path ih => exact fun lastPos => and_congr (h lastPos position) (ih _)

variable {sqrtf} [IsStrictOrderedRing K] {lastPos position : Axis → K}

omit [IsStrictOrderedRing K] in
theorem polar_center (hsqrt : ∀ x, 0 ≤ x → (sqrtf x = 0 ↔ x = 0)) (h : Center position) :
    transformFromCartesian sqrtf atan2f lastPos position .y = unwrap (lastPos .y) (lastPos .y) := by
  have hzero : hypotf sqrtf (position .x) (position .y) = 0 := by
    rw [hypotf, h.1, h.2, mul_zero, add_zero]
    exact (hsqrt 0 le_rfl).2 rfl
  rw [transformFromCartesian, if_pos hzero]

theorem polar_point (hsqrt : ∀ x, 0 ≤ x → (sqrtf x = 0 ↔ x = 0)) (h : ¬Center position) :
    transformFromCartesian sqrtf atan2f lastPos position .y = unwrap (lastPos .y) (absAngle (atan2f (position .y) (position .x))) := by
  have hne : hypotf sqrtf (position .x) (position .y) ≠ 0 := by
    intro hzero
    rw [hypotf, hsqrt _ (add_nonneg (mul_self_nonneg _) (mul_self_nonneg _)),
      add_eq_zero_iff_of_nonneg (mul_self_nonneg _) (mul_self_nonneg _)] at hzero
    exact h ⟨mul_self_eq_zero.1 hzero.1, mul_self_eq_zero.1 hzero.2⟩
  rw [transformFromCartesian, if_neg hne]

theorem unwraps_of_point (hsqrt : ∀ x, 0 ≤ x → (sqrtf x = 0 ↔ x = 0)) (h : ¬Center position) : Unwraps sqrtf atan2f lastPos position where
  congruent := by
    intro _
    obtain ⟨k, hk⟩ := unwrap_congruent (lastPos .y) (absAngle (atan2f (position .y) (position .x)))
    refine ⟨k - turns (atan2f (position .y) (position .x)), ?_⟩
    rw [polar_point atan2f hsqrt h, hk, absAngle_eq]
    push_cast
    ring
  center := fun hcenter => absurd hcenter h
  near := by
    rw [polar_point atan2f hsqrt h]
    exact unwrap_near _ (absAngle_nonneg _) (absAngle_lt _)

theorem unwraps_of_center (hsqrt : ∀ x, 0 ≤ x → (sqrtf x = 0 ↔ x = 0)) (h : Center position) (hturn : InTurn (lastPos .y)) :
    Unwraps sqrtf atan2f lastPos position := by
  have hsame : transformFromCartesian sqrtf atan2f lastPos position .y = lastPos .y :=
    (polar_center atan2f hsqrt h).trans (unwrap_self_of_inTurn hturn)
  refine ⟨fun hpoint => absurd h hpoint, fun _ => hsame, ?_⟩
  rw [hsame, sub_self, abs_zero]
  norm_num

theorem unwraps_of_reducible (hsqrt : ∀ x, 0 ≤ x → (sqrtf x = 0 ↔ x = 0)) (h : Reducible lastPos position) :
    Unwraps sqrtf atan2f lastPos position := by
  by_cases hcenter : Center position
  · exact unwraps_of_center atan2f hsqrt hcenter (h hcenter)
  · exact unwraps_of_point atan2f hsqrt hcenter

theorem noFullTurn_iff (hsqrt : ∀ x, 0 ≤ x → (sqrtf x = 0 ↔ x = 0)) (lastPos position : Axis → K) :
    NoFullTurn sqrtf atan2f lastPos position ↔ Reducible lastPos position := by
  constructor
  · intro h hcenter
    by_contra hturn
    rw [NoFullTurn, polar_center atan2f hsqrt hcenter] at h
    exact absurd (turn_le_of_not_inTurn hturn) h.not_ge
  · intro h
    refine (unwraps_of_reducible atan2f hsqrt h).near.trans_lt ?_
    norm_num

/-- A point is approached as it should be, and the arm makes no full turn between the points of a path, exactly if the center is not reached
from more than a turn away from the first one. -/
theorem unwraps_iff (hsqrt : ∀ x, 0 ≤ x → (sqrtf x = 0 ↔ x = 0)) :
    (∀ lastPos position, Unwraps sqrtf atan2f lastPos position ↔ Reducible lastPos position) ∧
      ∀ lastPos path, AlongPath sqrtf atan2f (NoFullTurn sqrtf atan2f) lastPos path ↔ AlongPath sqrtf atan2f Reducible lastPos path := by
  refine ⟨fun lastPos position => ⟨fun h => (noFullTurn_iff atan2f hsqrt _ _).1 ?_, unwraps_of_reducible atan2f hsqrt⟩,
    fun lastPos path => alongPath_congr sqrtf atan2f (noFullTurn_iff atan2f hsqrt) path lastPos⟩
  refine h.near.trans_lt ?_
  norm_num

end

section

/-- `atan2` in degrees. -/
noncomputable def atan2Degrees (y x : ℝ) : ℝ := Complex.arg ⟨x, y⟩ * (180 / Real.pi)

/-- The arm two turns on, at 30 degrees. -/
def twoTurns : Axis → ℝ
  | .x => 10
  | .y => 750
  | _ => 0

theorem unwraps_iff_twoTurns : Unwraps Real.sqrt atan2Degrees twoTurns twoTurns := by
  refine ((unwraps_iff atan2Degrees fun x hx => Real.sqrt_eq_zero hx).1 twoTurns twoTurns).2 fun hcenter => ?_
  exact absurd hcenter.1 (by norm_num [twoTurns])

/-- Two turns on, the arm makes another one at the center. -/
theorem center_turns_on : transformFromCartesian Real.sqrt atan2Degrees twoTurns (fun _ => 0) .y = 1110 ∧
    ¬Unwraps Real.sqrt atan2Degrees twoTurns fun _ => 0 := by
  have hturns : turns (750 : ℝ) = 2 := turns_eq (by norm_num) (by norm_num)
  have htarget : transformFromCartesian Real.sqrt atan2Degrees twoTurns (fun _ => 0) .y = 1110 := by
    rw [polar_center atan2Degrees (fun x hx => Real.sqrt_eq_zero hx) ⟨rfl, rfl⟩, unwrap_self, twoTurns, hturns,
      Int.sign_eq_one_of_pos two_pos]
    norm_num
  refine ⟨htarget, fun h => ?_⟩
  have hstays := h.center ⟨rfl, rfl⟩
  rw [htarget] at hstays
  norm_num [twoTurns] at hstays

end

end Grbl.Kinematics
