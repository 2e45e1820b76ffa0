import Mathlib
import Grbl.Lib.Arc
import Grbl.Limits.ArcCheck

/-!
# The quadrants of an arc

What the quadrant analysis of `check_arc_travel_limits` says of an arc by its angles.

* `sin_nonneg_iff`, `cos_pos_iff`, `cos_neg_iff`, `cos_le_cos_iff`, `cos_le_cos_iff'` : the signs by which the quadrants are told apart;
* `crossings_eq` : the extreme points that are taken to be passed by an arc from `a` to `a + θ`;
* `posX_iff`, `posY_iff`, `negX_iff`, `negY_iff` : the same as points the arc meets.
-/

namespace Grbl.Limits
open Complex Set Lib.Arc

section
variable {a c r : ℝ}

theorem sin_nonneg_iff (hc0 : 0 ≤ c) (hc : c < 2 * Real.pi) : 0 ≤ Real.sin c ↔ c ≤ Real.pi := by
  constructor
  · intro h
    by_contra hgt
    have hneg := Real.sin_neg_of_neg_of_neg_pi_lt (x := c - 2 * Real.pi) (by linarith) (by linarith)
    rw [Real.sin_sub_two_pi] at hneg
    linarith
  · exact Real.sin_nonneg_of_nonneg_of_le_pi hc0

theorem cos_pos_iff (hc0 : 0 ≤ c) (hc : c < 2 * Real.pi) : 0 < Real.cos c ↔ c < Real.pi / 2 ∨ 3 * (Real.pi / 2) < c := by
  constructor
  · intro h
    by_contra hmid
    rw [not_or, not_lt, not_lt] at hmid
    have hneg := Real.cos_nonpos_of_pi_div_two_le_of_le hmid.1 (by linarith)
    linarith
  · rintro (h | h)
    · exact Real.cos_pos_of_mem_Ioo ⟨by linarith [Real.pi_pos], h⟩
    · rw [← Real.cos_two_pi_sub]
      exact Real.cos_pos_of_mem_Ioo ⟨by linarith, by linarith⟩

theorem cos_neg_iff (hc0 : 0 ≤ c) (hc : c < 2 * Real.pi) : Real.cos c < 0 ↔ Real.pi / 2 < c ∧ c < 3 * (Real.pi / 2) := by
  constructor
  · intro h
    by_contra hout
    rw [not_and_or, not_lt, not_lt] at hout
    rcases hout with hle | hle
    · have hpos := Real.cos_nonneg_of_neg_pi_div_two_le_of_le (x := c) (by linarith [Real.pi_pos]) hle
      linarith
    · have hpos := Real.cos_nonneg_of_neg_pi_div_two_le_of_le (x := 2 * Real.pi - c) (by linarith) (by linarith)
      rw [Real.cos_two_pi_sub] at hpos
      linarith
  · rintro ⟨hlo, hhi⟩
    exact Real.cos_neg_of_pi_div_two_lt_of_lt hlo (by linarith)

theorem cos_le_cos_iff (ha0 : 0 ≤ a) (ha : a ≤ Real.pi) (hc0 : 0 ≤ c) (hc : c ≤ Real.pi) : Real.cos a ≤ Real.cos c ↔ c ≤ a :=
  Real.strictAntiOn_cos.le_iff_ge ⟨ha0, ha⟩ ⟨hc0, hc⟩

theorem cos_le_cos_iff' (ha : Real.pi ≤ a) (ha2 : a ≤ 2 * Real.pi) (hc : Real.pi ≤ c) (hc2 : c ≤ 2 * Real.pi) :
    Real.cos c ≤ Real.cos a ↔ c ≤ a := by
  rw [← Real.cos_two_pi_sub c, ← Real.cos_two_pi_sub a, cos_le_cos_iff (by linarith) (by linarith) (by linarith) (by linarith)]
  constructor <;> intro h <;> linarith

/-- The quadrant analysis by angles: the start is at `a`, the end at `c`, which lies behind `a` or a turn further on. -/
theorem crossings_eq {b : ℝ} (hr : 0 < r) (ha0 : 0 ≤ a) (ha : a < 2 * Real.pi) (hc0 : 0 ≤ c) (hc : c < 2 * Real.pi)
    (hb : b = if a < c then c else c + 2 * Real.pi) :
    crossings (r * Real.cos a) (r * Real.sin a) (r * Real.cos c) (r * Real.sin c) =
      ⟨decide (a < Real.pi / 2 ∧ Real.pi / 2 ≤ b ∨ 5 * (Real.pi / 2) ≤ b), decide (a ≤ Real.pi ∧ Real.pi < b ∨ 3 * Real.pi < b),
        decide (a < 3 * (Real.pi / 2) ∧ 3 * (Real.pi / 2) < b ∨ 7 * (Real.pi / 2) ≤ b), decide (2 * Real.pi ≤ b)⟩ := by
  have hpi := Real.pi_pos
  -- the conditions of the analysis as bounds of the angles
  have hy {x : ℝ} (hx0 : 0 ≤ x) (hx : x < 2 * Real.pi) : 0 ≤ r * Real.sin x ↔ x ≤ Real.pi := by
    rw [mul_nonneg_iff_of_pos_left hr, sin_nonneg_iff hx0 hx]
  have hpos {x : ℝ} (hx0 : 0 ≤ x) (hx : x < 2 * Real.pi) : 0 < r * Real.cos x ↔ x < Real.pi / 2 ∨ 3 * (Real.pi / 2) < x := by
    rw [mul_pos_iff_of_pos_left hr, cos_pos_iff hx0 hx]
  have hneg {x : ℝ} (hx0 : 0 ≤ x) (hx : x < 2 * Real.pi) : r * Real.cos x < 0 ↔ Real.pi / 2 < x ∧ x < 3 * (Real.pi / 2) := by
    rw [← not_le, mul_nonneg_iff_of_pos_left hr, not_le, cos_neg_iff hx0 hx]
  have hupper (h1 : a ≤ Real.pi) (h2 : c ≤ Real.pi) : r * Real.cos a ≤ r * Real.cos c ↔ c ≤ a := by
    rw [mul_le_mul_iff_right₀ hr, cos_le_cos_iff ha0 h1 hc0 h2]
  have hlower (h1 : Real.pi < a) (h2 : Real.pi < c) : r * Real.cos c ≤ r * Real.cos a ↔ c ≤ a := by
    rw [mul_le_mul_iff_right₀ hr, cos_le_cos_iff' h1.le ha.le h2.le hc.le]
  unfold crossings
  have hyneg : r * Real.sin c < 0 ↔ Real.pi < c := by rw [← not_le, hy hc0 hc, not_le]
  have hnonpos : r * Real.cos c ≤ 0 ↔ ¬(c < Real.pi / 2 ∨ 3 * (Real.pi / 2) < c) := by rw [← not_lt, hpos hc0 hc]
  simp only [ge_iff_le, gt_iff_lt, hpos ha0 ha, hpos hc0 hc, hneg ha0 ha, hneg hc0 hc, hnonpos, hy ha0 ha, hy hc0 hc, hyneg]
  clear hy hpos hneg hyneg hnonpos
  generalize r * Real.cos a = u, r * Real.cos c = v, Real.pi = p at *
  -- one quadrant after the other, linear in the angles
  rw [Crossings.ofBits, Crossings.mk.injEq]
  split_ifs at hb ⊢ <;> simp only [Nat.testBit] <;> grind

theorem crossings_arc {u : ℂ} {θ : ℝ} (hu : u ≠ 0) (hθ0 : 0 < θ) (hθ : θ ≤ 2 * Real.pi) :
    crossings u.re u.im (u * exp (θ * I)).re (u * exp (θ * I)).im =
      ⟨decide (turn u < Real.pi / 2 ∧ Real.pi / 2 ≤ turn u + θ ∨ 5 * (Real.pi / 2) ≤ turn u + θ),
        decide (turn u ≤ Real.pi ∧ Real.pi < turn u + θ ∨ 3 * Real.pi < turn u + θ),
        decide (turn u < 3 * (Real.pi / 2) ∧ 3 * (Real.pi / 2) < turn u + θ ∨ 7 * (Real.pi / 2) ≤ turn u + θ),
        decide (2 * Real.pi ≤ turn u + θ)⟩ := by
  have hturn := turn_mem u
  have hre : u.re = ‖u‖ * Real.cos (turn u) := by simpa using mul_exp_re u 0
  have him : u.im = ‖u‖ * Real.sin (turn u) := by simpa using mul_exp_im u 0
  rw [mul_exp_re, mul_exp_im, hre, him]
  by_cases hwrap : turn u + θ < 2 * Real.pi
  · exact crossings_eq (norm_pos_iff.2 hu) hturn.1 hturn.2 (by linarith) hwrap (by rw [if_pos (by linarith)])
  · rw [← Real.cos_sub_two_pi (turn u + θ), ← Real.sin_sub_two_pi (turn u + θ)]
    exact crossings_eq (norm_pos_iff.2 hu) hturn.1 hturn.2 (by linarith) (by linarith) (by rw [if_neg (by linarith)]; ring)

theorem crossings_zero : crossings (0 : ℝ) 0 0 0 = ⟨true, true, true, true⟩ := by
  simp [crossings, Crossings.ofBits, Nat.testBit]

theorem meets_zero {w : ℂ} {s : Set ℝ} : Meets 0 w s ↔ s.Nonempty := by
  simp [Meets, Set.Nonempty]

theorem exp_quarter : exp ((Real.pi / 2 : ℝ) * I) = I := by
  push_cast
  exact exp_pi_div_two_mul_I

theorem exp_half : exp ((Real.pi : ℝ) * I) = -1 := exp_pi_mul_I

theorem exp_threeQuarters : exp ((3 * (Real.pi / 2) : ℝ) * I) = -I := by
  rw [show (3 * (Real.pi / 2) : ℝ) = Real.pi + Real.pi / 2 by ring, ofReal_add, add_mul, Complex.exp_add, exp_half, exp_quarter, neg_one_mul]

variable {u : ℂ} {θ : ℝ}

theorem posX_iff (hθ0 : 0 < θ) (hθ : θ ≤ 2 * Real.pi) :
    (crossings u.re u.im (u * exp (θ * I)).re (u * exp (θ * I)).im).posX = true ↔ Meets u 1 (Ioc 0 θ) := by
  by_cases hu : u = 0
  · subst hu
    simp [crossings_zero, meets_zero, hθ0]
  · have h := meets_exp_iff (δ := 0) hu ⟨le_rfl, Real.two_pi_pos⟩ (Ioc_subset_Icc_self.trans (Icc_subset_Icc_right hθ))
    have hturn := turn_mem u
    rw [ofReal_zero, zero_mul, Complex.exp_zero] at h
    rw [crossings_arc hu hθ0 hθ, h, decide_eq_true_iff]
    constructor
    · intro hle
      exact .inr ⟨by linarith, by linarith⟩
    · rintro (⟨hlo, -⟩ | ⟨-, hhi⟩) <;> linarith

theorem posY_iff (hθ0 : 0 < θ) (hθ : θ ≤ 2 * Real.pi) :
    (crossings u.re u.im (u * exp (θ * I)).re (u * exp (θ * I)).im).posY = true ↔ Meets u I (Ioc 0 θ) := by
  by_cases hu : u = 0
  · subst hu
    simp [crossings_zero, meets_zero, hθ0]
  · have hpi := Real.pi_pos
    have h := meets_exp_iff (δ := Real.pi / 2) hu ⟨by linarith, by linarith⟩ (Ioc_subset_Icc_self.trans (Icc_subset_Icc_right hθ))
    have hturn := turn_mem u
    rw [exp_quarter] at h
    rw [crossings_arc hu hθ0 hθ, h, decide_eq_true_iff]
    constructor
    · rintro (⟨hlo, hhi⟩ | hle)
      · exact .inl ⟨by linarith, by linarith⟩
      · exact .inr ⟨by linarith, by linarith⟩
    · rintro (⟨hlo, hhi⟩ | ⟨hlo, hhi⟩)
      · exact .inl ⟨by linarith, by linarith⟩
      · exact .inr (by linarith)

theorem negX_iff (hθ0 : 0 < θ) (hθ : θ ≤ 2 * Real.pi) :
    (crossings u.re u.im (u * exp (θ * I)).re (u * exp (θ * I)).im).negX = true ↔ Meets u (-1) (Ico 0 θ) := by
  by_cases hu : u = 0
  · subst hu
    simp [crossings_zero, meets_zero, hθ0]
  · have hpi := Real.pi_pos
    have h := meets_exp_iff (δ := Real.pi) hu ⟨by linarith, by linarith⟩ (Ico_subset_Icc_self.trans (Icc_subset_Icc_right hθ))
    have hturn := turn_mem u
    rw [exp_half] at h
    rw [crossings_arc hu hθ0 hθ, h, decide_eq_true_iff]
    constructor
    · rintro (⟨hlo, hhi⟩ | hlt)
      · exact .inl ⟨by linarith, by linarith⟩
      · exact .inr ⟨by linarith, by linarith⟩
    · rintro (⟨hlo, hhi⟩ | ⟨hlo, hhi⟩)
      · exact .inl ⟨by linarith, by linarith⟩
      · exact .inr (by linarith)

/-- The lowest point: passed between the ends, or met by the end of an arc that starts right of it. -/
theorem negY_iff (hθ0 : 0 < θ) (hθ : θ ≤ 2 * Real.pi) :
    (crossings u.re u.im (u * exp (θ * I)).re (u * exp (θ * I)).im).negY = true ↔
      Meets u (-I) (Ioo 0 θ) ∨ (u * exp (θ * I) = ‖u‖ * -I ∧ 0 ≤ u.re ∧ u.im < 0) := by
  by_cases hu : u = 0
  · subst hu
    simp [crossings_zero, meets_zero, hθ0]
  · have hpi := Real.pi_pos
    have h := meets_exp_iff (δ := 3 * (Real.pi / 2)) hu ⟨by linarith, by linarith⟩ (Ioo_subset_Icc_self.trans (Icc_subset_Icc_right hθ))
    have hend := meets_exp_iff (δ := 3 * (Real.pi / 2)) (s := {θ}) hu ⟨by linarith, by linarith⟩
      (singleton_subset_iff.2 ⟨hθ0.le, hθ⟩)
    have hturn := turn_mem u
    have hre : 0 ≤ u.re ↔ ¬(Real.pi / 2 < turn u ∧ turn u < 3 * (Real.pi / 2)) := by
      have heq : u.re = ‖u‖ * Real.cos (turn u) := by simpa using mul_exp_re u 0
      rw [← cos_neg_iff hturn.1 hturn.2, not_lt, heq, mul_nonneg_iff_of_pos_left (norm_pos_iff.2 hu)]
    have him : u.im < 0 ↔ Real.pi < turn u := by
      have heq : u.im = ‖u‖ * Real.sin (turn u) := by simpa using mul_exp_im u 0
      rw [← not_le, heq, mul_nonneg_iff_of_pos_left (norm_pos_iff.2 hu), sin_nonneg_iff hturn.1 hturn.2, not_le]
    have hbottom : u * exp (θ * I) = ‖u‖ * -I ↔ Meets u (-I) {θ} := by simp [Meets]
    rw [exp_threeQuarters] at h hend
    rw [crossings_arc hu hθ0 hθ, h, hbottom, hend, hre, him, decide_eq_true_iff]
    simp only [mem_Ioo, mem_singleton_iff]
    constructor
    · rintro (⟨hlo, hhi⟩ | hle)
      · exact .inl (.inl ⟨by linarith, by linarith⟩)
      · rcases hle.lt_or_eq with hlt | heq
        · exact .inl (.inr ⟨by linarith, by linarith⟩)
        · exact .inr ⟨.inr (by linarith), fun hmid => by linarith [hmid.2], by linarith⟩
    · rintro ((⟨hlo, hhi⟩ | ⟨hlo, hhi⟩) | ⟨hmeets | hmeets, hright, hlow⟩)
      · exact .inl ⟨by linarith, by linarith⟩
      · exact .inr (by linarith)
      · exact absurd ⟨by linarith, by linarith⟩ hright
      · exact .inr (by linarith)

theorem meets_top_of_end (hθ0 : 0 < θ) (hθ : θ ≤ 2 * Real.pi) (hend : u * exp (θ * I) = ‖u‖ * -I) (hright : 0 ≤ u.re) (hlow : u.im < 0) :
    Meets u I (Ioc 0 θ) := by
  have hneg := (negY_iff hθ0 hθ).2 (.inr ⟨hend, hright, hlow⟩)
  have hu : u ≠ 0 := by
    rintro rfl
    exact lt_irrefl _ hlow
  have hpi := Real.pi_pos
  have hturn := turn_mem u
  rw [crossings_arc hu hθ0 hθ, decide_eq_true_iff] at hneg
  rw [← posY_iff hθ0 hθ, crossings_arc hu hθ0 hθ, decide_eq_true_iff]
  rcases hneg with ⟨hlo, -⟩ | hle
  · -- the fourth quadrant is left
    have hre : u.re = ‖u‖ * Real.cos (turn u) := by simpa using mul_exp_re u 0
    have him : u.im = ‖u‖ * Real.sin (turn u) := by simpa using mul_exp_im u 0
    rw [hre, mul_nonneg_iff_of_pos_left (norm_pos_iff.2 hu), ← not_lt, cos_neg_iff hturn.1 hturn.2] at hright
    rw [← not_le, him, mul_nonneg_iff_of_pos_left (norm_pos_iff.2 hu), sin_nonneg_iff hturn.1 hturn.2, not_le] at hlow
    exact absurd ⟨by linarith, hlo⟩ hright
  · exact .inr (by linarith)

end

end Grbl.Limits
