import Mathlib
import Grbl.Lib.AtLeastTwo

/-!
# Arcs of a circle

Vectors of the plane are complex numbers, an arc is the vectors `u * exp (ψ * I)` for `ψ` in an interval.

* `sweep u v` : the counterclockwise angle from `u` to `v`, in `(0, 2π]`; `mul_exp_sweep`;
* `turn u` : the direction of `u`, in `[0, 2π)`;
* `Meets u w s` : the arc over `s` meets the direction `w`; `meets_exp_iff`;
* `cos_le_max` : between two angles of a full turn the cosine is largest at one of them;
* `forall_re_le_iff`, `forall_coord_le_iff` : how far an arc extends in a direction.
-/

namespace Grbl.Lib.Arc
open Complex Set
open scoped Grbl.Lib.Literal

/-- The counterclockwise angle from `u` to `v`. -/
noncomputable def sweep (u v : ℂ) : ℝ := toIocMod (show (0 : ℝ) < 2 * Real.pi from Real.two_pi_pos) 0 (v.arg - u.arg)

/-- The counterclockwise angle from the first axis. -/
noncomputable def turn (u : ℂ) : ℝ := toIcoMod (show (0 : ℝ) < 2 * Real.pi from Real.two_pi_pos) 0 u.arg

/-- The arc from `u` on meets the direction `w`. -/
def Meets (u w : ℂ) (s : Set ℝ) : Prop := ∃ ψ ∈ s, u * exp (ψ * I) = ‖u‖ * w

theorem Meets.mono {u w : ℂ} {s t : Set ℝ} (h : Meets u w s) (hst : s ⊆ t) : Meets u w t :=
  let ⟨ψ, hψ, heq⟩ := h
  ⟨ψ, hst hψ, heq⟩

theorem sweep_mem (u v : ℂ) : 0 < sweep u v ∧ sweep u v ≤ 2 * Real.pi := by
  have h := toIocMod_mem_Ioc Real.two_pi_pos 0 (v.arg - u.arg)
  rwa [zero_add] at h

theorem turn_mem (u : ℂ) : 0 ≤ turn u ∧ turn u < 2 * Real.pi := toIcoMod_mem_Ico' Real.two_pi_pos u.arg

theorem exp_add_zsmul (x : ℝ) (n : ℤ) : exp ((x + n • (2 * Real.pi) : ℝ) * I) = exp (x * I) := by
  rw [zsmul_eq_mul, exp_eq_exp_iff_exists_int]
  exact ⟨n, by push_cast; ring⟩

theorem mul_exp_sweep {u v : ℂ} (h : ‖u‖ = ‖v‖) : u * exp (sweep u v * I) = v := by
  have hsweep : exp (sweep u v * I) = exp ((v.arg - u.arg : ℝ) * I) := by
    rw [← exp_add_zsmul (sweep u v) (toIocDiv Real.two_pi_pos 0 (v.arg - u.arg)), sweep, toIocMod_add_toIocDiv_zsmul]
  calc u * exp (sweep u v * I) = ‖u‖ * exp (u.arg * I) * exp ((v.arg - u.arg : ℝ) * I) := by rw [norm_mul_exp_arg_mul_I, hsweep]
    _ = ‖v‖ * exp (v.arg * I) := by
        rw [h, mul_assoc, ← Complex.exp_add]
        push_cast
        ring_nf
    _ = v := norm_mul_exp_arg_mul_I v

theorem norm_mul_exp_turn (u : ℂ) : ‖u‖ * exp (turn u * I) = u := by
  have hturn : exp (turn u * I) = exp (u.arg * I) := by
    rw [← exp_add_zsmul (turn u) (toIcoDiv Real.two_pi_pos 0 u.arg), turn, toIcoMod_add_toIcoDiv_zsmul]
  rw [hturn, norm_mul_exp_arg_mul_I]

theorem mul_exp_eq (u : ℂ) (ψ : ℝ) : u * exp (ψ * I) = ‖u‖ * exp ((turn u + ψ : ℝ) * I) := by
  conv_lhs => rw [← norm_mul_exp_turn u, mul_assoc, ← Complex.exp_add, ← add_mul, ← ofReal_add]

theorem mul_exp_re (u : ℂ) (ψ : ℝ) : (u * exp (ψ * I)).re = ‖u‖ * Real.cos (turn u + ψ) := by
  rw [mul_exp_eq, re_ofReal_mul, exp_ofReal_mul_I_re]

theorem mul_exp_im (u : ℂ) (ψ : ℝ) : (u * exp (ψ * I)).im = ‖u‖ * Real.sin (turn u + ψ) := by
  rw [mul_exp_eq, im_ofReal_mul, exp_ofReal_mul_I_im]

theorem norm_mul_exp (u : ℂ) (ψ : ℝ) : ‖u * exp (ψ * I)‖ = ‖u‖ := by
  rw [norm_mul, norm_exp_ofReal_mul_I, mul_one]

/-! ## How far an arc extends -/

theorem cos_le_max {a x b : ℝ} (ha : 0 ≤ a) (hax : a ≤ x) (hxb : x ≤ b) (hb : b ≤ 2 * Real.pi) :
    Real.cos x ≤ max (Real.cos a) (Real.cos b) := by
  rcases le_total x Real.pi with hx | hx
  · exact le_max_of_le_left (Real.cos_le_cos_of_nonneg_of_le_pi ha hx hax)
  · refine le_max_of_le_right ?_
    rw [← Real.cos_two_pi_sub x, ← Real.cos_two_pi_sub b]
    exact Real.cos_le_cos_of_nonneg_of_le_pi (by linarith) (by linarith) (by linarith)

theorem re_le_max {u : ℂ} {θ ψ : ℝ} (h : ¬Meets u 1 (Ioo 0 θ)) (hψ : ψ ∈ Icc 0 θ) :
    (u * exp (ψ * I)).re ≤ max u.re (u * exp (θ * I)).re := by
  obtain ⟨hψ0, hψθ⟩ := hψ
  have hturn := turn_mem u
  have hle : turn u + θ ≤ 2 * Real.pi := by
    by_contra hgt
    refine h ⟨2 * Real.pi - turn u, ⟨by linarith, by linarith⟩, ?_⟩
    rw [mul_exp_eq, add_sub_cancel]
    simp
  have hu : u.re = ‖u‖ * Real.cos (turn u) := by simpa using mul_exp_re u 0
  rw [hu, mul_exp_re, mul_exp_re, ← mul_max_of_nonneg _ _ (norm_nonneg u)]
  exact mul_le_mul_of_nonneg_left (cos_le_max hturn.1 (by linarith) (by linarith) hle) (norm_nonneg u)

/-- How far an arc extends along the first axis; whether it meets the axis need only be known up to its ends. -/
theorem forall_re_le_iff {u : ℂ} {θ X : ℝ} {crosses : Bool} (hθ : 0 ≤ θ) (hmeets : crosses = true → Meets u 1 (Icc 0 θ))
    (hmisses : crosses = false → ¬Meets u 1 (Ioo 0 θ)) :
    (∀ ψ ∈ Icc 0 θ, (u * exp (ψ * I)).re ≤ X) ↔ (if crosses then ‖u‖ else max u.re (u * exp (θ * I)).re) ≤ X := by
  constructor
  · intro h
    cases crosses with
    | true =>
        obtain ⟨ψ, hψ, heq⟩ := hmeets rfl
        have hX := h ψ hψ
        rwa [heq, mul_one, ofReal_re] at hX
    | false =>
        refine max_le ?_ (h θ ⟨hθ, le_rfl⟩)
        simpa using h 0 ⟨le_rfl, hθ⟩
  · intro h ψ hψ
    refine le_trans ?_ h
    cases crosses with
    | true => exact (re_le_norm _).trans_eq (norm_mul_exp u ψ)
    | false => exact re_le_max (hmisses rfl) hψ

theorem forall_coord_le_iff {u w : ℂ} {θ X : ℝ} {crosses : Bool} (hw : ‖w‖ = 1) (hθ : 0 ≤ θ)
    (hmeets : crosses = true → Meets u w (Icc 0 θ)) (hmisses : crosses = false → ¬Meets u w (Ioo 0 θ)) :
    (∀ ψ ∈ Icc 0 θ, (u * exp (ψ * I) * starRingEnd ℂ w).re ≤ X) ↔
      (if crosses then ‖u‖ else max (u * starRingEnd ℂ w).re (u * exp (θ * I) * starRingEnd ℂ w).re) ≤ X := by
  have hcomm (ψ : ℝ) : u * exp (ψ * I) * starRingEnd ℂ w = u * starRingEnd ℂ w * exp (ψ * I) := mul_right_comm _ _ _
  have hww : w * starRingEnd ℂ w = 1 := by rw [mul_conj, normSq_eq_norm_sq, hw]; norm_num
  have hnorm : ‖u * starRingEnd ℂ w‖ = ‖u‖ := by rw [norm_mul, norm_conj, hw, mul_one]
  have hiff (s : Set ℝ) : Meets (u * starRingEnd ℂ w) 1 s ↔ Meets u w s := by
    refine exists_congr fun ψ => and_congr_right fun _ => ?_
    rw [hnorm, mul_one, ← hcomm]
    constructor
    · intro h
      rw [← h, mul_assoc, mul_comm _ w, hww, mul_one]
    · intro h
      rw [h, mul_assoc, hww, mul_one]
  simp only [hcomm]
  have h := forall_re_le_iff (u := u * starRingEnd ℂ w) (X := X) hθ (fun hc => (hiff _).2 (hmeets hc))
    (fun hc => mt (hiff _).1 (hmisses hc))
  rwa [hnorm] at h

theorem forall_between_iff {u w : ℂ} {θ : ℝ} (lo hi c : ℝ) (neg pos : Bool) (hw : ‖w‖ = 1) (hθ : 0 ≤ θ)
    (hpos : pos = true → Meets u w (Icc 0 θ)) (hpos' : pos = false → ¬Meets u w (Ioo 0 θ))
    (hneg : neg = true → Meets u (-w) (Icc 0 θ)) (hneg' : neg = false → ¬Meets u (-w) (Ioo 0 θ)) :
    (∀ ψ ∈ Icc 0 θ, lo ≤ c + (u * exp (ψ * I) * starRingEnd ℂ w).re ∧ c + (u * exp (ψ * I) * starRingEnd ℂ w).re ≤ hi) ↔
      lo ≤ (if neg then c - ‖u‖ else min (c + (u * starRingEnd ℂ w).re) (c + (u * exp (θ * I) * starRingEnd ℂ w).re)) ∧
        (if pos then c + ‖u‖ else max (c + (u * starRingEnd ℂ w).re) (c + (u * exp (θ * I) * starRingEnd ℂ w).re)) ≤ hi := by
  have hhigh := forall_coord_le_iff (X := hi - c) hw hθ hpos hpos'
  have hlow := forall_coord_le_iff (X := c - lo) ((norm_neg w).trans hw) hθ hneg hneg'
  simp only [map_neg, mul_neg, neg_re] at hlow
  rw [max_neg_neg] at hlow
  have hsplit : (∀ ψ ∈ Icc 0 θ, lo ≤ c + (u * exp (ψ * I) * starRingEnd ℂ w).re ∧ c + (u * exp (ψ * I) * starRingEnd ℂ w).re ≤ hi) ↔
      (∀ ψ ∈ Icc 0 θ, -(u * exp (ψ * I) * starRingEnd ℂ w).re ≤ c - lo) ∧
        ∀ ψ ∈ Icc 0 θ, (u * exp (ψ * I) * starRingEnd ℂ w).re ≤ hi - c := by
    rw [← forall₂_and]
    refine forall₂_congr fun ψ _ => and_congr ?_ ?_
    · constructor <;> intro h <;> linarith
    · constructor <;> intro h <;> linarith
  rw [hsplit, hlow, hhigh, min_add_add_left, max_add_add_left]
  refine and_congr ?_ ?_
  · split
    · constructor <;> intro h <;> linarith
    · constructor <;> intro h <;> linarith
  · split
    · constructor <;> intro h <;> linarith
    · constructor <;> intro h <;> linarith

theorem meets_of_turn {u w : ℂ} {T : ℝ} (hw : ‖w‖ = 1) (hT : 2 * Real.pi ≤ T) : Meets u w (Icc 0 T) := by
  have hsweep := sweep_mem u (‖u‖ * w)
  exact ⟨_, ⟨hsweep.1.le, hsweep.2.trans hT⟩, mul_exp_sweep (by simp [hw])⟩

theorem meets_exp_iff {u : ℂ} {δ : ℝ} {s : Set ℝ} (hu : u ≠ 0) (hδ : 0 ≤ δ ∧ δ < 2 * Real.pi) (hs : s ⊆ Icc 0 (2 * Real.pi)) :
    Meets u (exp (δ * I)) s ↔ δ - turn u ∈ s ∨ δ + 2 * Real.pi - turn u ∈ s := by
  have hnorm : (‖u‖ : ℂ) ≠ 0 := ofReal_ne_zero.2 (norm_ne_zero_iff.2 hu)
  have hturn := turn_mem u
  constructor
  · rintro ⟨ψ, hψ, heq⟩
    rw [mul_exp_eq, mul_right_inj' hnorm, exp_eq_exp_iff_exists_int] at heq
    obtain ⟨n, hn⟩ := heq
    have hangle : turn u + ψ = δ + n * (2 * Real.pi) := by
      have hmul : ((turn u + ψ : ℝ) : ℂ) * I = ((δ + n * (2 * Real.pi) : ℝ) : ℂ) * I := by
        rw [hn]
        push_cast
        ring
      exact_mod_cast mul_right_cancel₀ I_ne_zero hmul
    obtain ⟨hψ0, hψ1⟩ := hs hψ
    have hpi := Real.pi_pos
    have hn0 : -1 < (n : ℝ) := by nlinarith
    have hn2 : (n : ℝ) < 2 := by nlinarith
    have hn0' : -1 < n := by exact_mod_cast hn0
    have hn2' : n < 2 := by exact_mod_cast hn2
    obtain rfl | rfl : n = 0 ∨ n = 1 := by omega
    · left
      rwa [show δ - turn u = ψ by push_cast at hangle; linarith]
    · right
      rwa [show δ + 2 * Real.pi - turn u = ψ by push_cast at hangle; linarith]
  · rintro (h | h)
    · exact ⟨_, h, by rw [mul_exp_eq, add_sub_cancel]⟩
    · refine ⟨_, h, ?_⟩
      rw [mul_exp_eq, add_sub_cancel, ← exp_add_zsmul δ 1, one_smul]

end Grbl.Lib.Arc
