import Mathlib
import Grbl.Lib.OrderedField

/-!
# Cutting a move off at a box

* `reach lo hi p d` : the part of the move from `p` to `p + d` that lies in `[lo, hi]`, as a fraction of the move;
* `le_reach_iff` : the points of the move in the interval are those up to `reach`;
* `add_reach_mul` : the last of them is the clamped end;
* `reach_of_below`, `reach_of_above` : where a point of the move lies outside, `reach` is the point where the bound is met;
* `travel` : the least `reach` over a list of coordinates.
-/

namespace Grbl.Lib.Clip
open scoped Grbl.Lib.OrderedField

section
variable {K : Type*} [Field K] [LinearOrder K]

/-- How far the move from `p` to `p + d` stays in the interval, as a fraction of the move. -/
def reach (lo hi p d : K) : K :=
  if p + d < lo then (lo - p) / d
  else if hi < p + d then (hi - p) / d
  else 1

/-- How far the move stays in the intervals of all the coordinates. -/
def travel {ι : Type*} (lo hi p d : ι → K) (is : List ι) : K :=
  is.foldr (fun i t => min (reach (lo i) (hi i) (p i) (d i)) t) 1

theorem le_travel_iff {ι : Type*} {lo hi p d : ι → K} {is : List ι} {t : K} :
    t ≤ travel lo hi p d is ↔ t ≤ 1 ∧ ∀ i ∈ is, t ≤ reach (lo i) (hi i) (p i) (d i) := by
  induction is with
  | nil => simp [travel]
  | cons i is ih =>
      have hcons : travel lo hi p d (i :: is) = min (reach (lo i) (hi i) (p i) (d i)) (travel lo hi p d is) := rfl
      rw [hcons, le_min_iff, ih, List.forall_mem_cons]
      tauto

theorem travel_le_one {ι : Type*} (lo hi p d : ι → K) (is : List ι) : travel lo hi p d is ≤ 1 := (le_travel_iff.1 le_rfl).1

theorem travel_le_reach {ι : Type*} {lo hi p d : ι → K} {is : List ι} {i : ι} (h : i ∈ is) :
    travel lo hi p d is ≤ reach (lo i) (hi i) (p i) (d i) :=
  (le_travel_iff.1 le_rfl).2 i h

variable [IsStrictOrderedRing K] {lo hi p d t : K}

variable (hi) in
/-- A point of the move is below the interval: the lower bound has been met before. -/
theorem reach_of_below (hlo : lo ≤ p) (ht0 : 0 ≤ t) (ht1 : t ≤ 1) (h : p + t * d < lo) :
    d < 0 ∧ reach lo hi p d = (lo - p) / d ∧ (lo - p) / d < t := by
  have hd : d < 0 := by
    by_contra hneg
    have hmul := mul_nonneg ht0 (not_lt.1 hneg)
    linarith
  have hmul : d ≤ t * d := by nlinarith
  refine ⟨hd, if_pos (by linarith), ?_⟩
  rw [div_lt_iff_of_neg hd]
  linarith

/-- A point of the move is above the interval: the upper bound has been met before. -/
theorem reach_of_above (hlo : lo ≤ p) (hhi : p ≤ hi) (ht0 : 0 ≤ t) (ht1 : t ≤ 1) (h : hi < p + t * d) :
    0 < d ∧ reach lo hi p d = (hi - p) / d ∧ (hi - p) / d < t := by
  have hd : 0 < d := by
    by_contra hpos
    have hmul := mul_nonneg ht0 (neg_nonneg.2 (not_lt.1 hpos))
    linarith
  have hmul : t * d ≤ d := by nlinarith
  refine ⟨hd, ?_, ?_⟩
  · rw [reach, if_neg (by linarith), if_pos (by linarith)]
  · rw [div_lt_iff₀ hd]
    linarith

theorem reach_nonneg (hlo : lo ≤ p) (hhi : p ≤ hi) : 0 ≤ reach lo hi p d := by
  unfold reach
  split_ifs with hbelow habove
  · exact div_nonneg_of_nonpos (by linarith) (by linarith)
  · exact div_nonneg (by linarith) (by linarith)
  · exact zero_le_one

theorem reach_le_one (hlo : lo ≤ p) (hhi : p ≤ hi) : reach lo hi p d ≤ 1 := by
  unfold reach
  split_ifs with hbelow habove
  · rw [div_le_one_of_neg (by linarith)]
    linarith
  · rw [div_le_one (by linarith)]
    linarith
  · exact le_rfl

theorem add_reach_mul (hlo : lo ≤ p) (hhi : p ≤ hi) : p + reach lo hi p d * d = max (min (p + d) hi) lo := by
  unfold reach
  split_ifs with hbelow habove
  · have hd : d ≠ 0 := by
      rintro rfl
      linarith
    rw [div_mul_cancel₀ _ hd, min_eq_left (by linarith), max_eq_right hbelow.le]
    ring
  · have hd : d ≠ 0 := by
      rintro rfl
      linarith
    rw [div_mul_cancel₀ _ hd, min_eq_right habove.le, max_eq_left (by linarith)]
    ring
  · rw [min_eq_left (not_lt.1 habove), max_eq_left (not_lt.1 hbelow), one_mul]

/-- The points of the move that lie in the interval are those up to `reach`. -/
theorem le_reach_iff (hlo : lo ≤ p) (hhi : p ≤ hi) (ht0 : 0 ≤ t) (ht1 : t ≤ 1) :
    t ≤ reach lo hi p d ↔ lo ≤ p + t * d ∧ p + t * d ≤ hi := by
  constructor
  · intro h
    constructor
    · by_contra hout
      obtain ⟨-, heq, hlt⟩ := reach_of_below hi hlo ht0 ht1 (not_le.1 hout)
      exact absurd h (heq ▸ hlt.not_ge)
    · by_contra hout
      obtain ⟨-, heq, hlt⟩ := reach_of_above hlo hhi ht0 ht1 (not_le.1 hout)
      exact absurd h (heq ▸ hlt.not_ge)
  · rintro ⟨hge, hle⟩
    unfold reach
    split_ifs with hbelow habove
    · have hd : d < 0 := by linarith
      rw [le_div_iff_of_neg hd]
      linarith
    · have hd : 0 < d := by linarith
      rw [le_div_iff₀ hd]
      linarith
    · exact ht1

theorem travel_nonneg {ι : Type*} {lo hi p d : ι → K} {is : List ι} (h : ∀ i ∈ is, lo i ≤ p i ∧ p i ≤ hi i) :
    0 ≤ travel lo hi p d is :=
  le_travel_iff.2 ⟨zero_le_one, fun i hi => reach_nonneg (h i hi).1 (h i hi).2⟩

end

end Grbl.Lib.Clip
