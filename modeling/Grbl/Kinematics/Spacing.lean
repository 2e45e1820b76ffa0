import Mathlib
import Grbl.Kinematics.SegmentLine
import Grbl.Lib.AtLeastTwo

/-!
# The points of a segmented line

* `LineMove.count`, `Delivered` : how many points are expected, and where;
* `Reachable`, `Reachable.delta_a` : the variables after any lines: the delta of the last axis is never set;
* `segments_eq` : the loop ends after as many points as the counter has been set to;
* `Segmenter.Point` : the points that are transformed; `Regular`, `delivered_iff`;
* `polar_inverse`, `wallPlotter_points` : the transforms of both machines are inverse there; `checked_for_last_line`.
-/

namespace Grbl.Kinematics
open Function (update)
open scoped Grbl.Lib.Literal Grbl.Lib.OrderedField

section
variable {K : Type*} [Field K] [LinearOrder K] [IsStrictOrderedRing K] [FloorRing K] {r : Robot K} {m : LineMove K} {s s' : Segmenter K} {rapid : Bool}

/-- From where the line starts to its target, but for the last axis. -/
def LineMove.delta (r : Robot K) (m : LineMove K) (i : Axis) : K := m.target i - r.toCartesian m.position i

/-- Its length. -/
def LineMove.distance (r : Robot K) (m : LineMove K) : K := r.distance (update (m.delta r) .a 0)

/-- The number of points of a line: as few as the longest segment allows. -/
def LineMove.count (r : Robot K) (m : LineMove K) : ℕ := if m.rapid then 1 else max 1 ⌈m.distance r / r.maxSegLength⌉₊

/-- The points lie on the line at equal distances, the last one is the target; the target is checked. -/
structure Delivered (r : Robot K) (m : LineMove K) (checked : Axis → K) (points : List ((Axis → K) × K)) : Prop where
  count : points.length = m.count r
  spaced : ∀ (j : ℕ) (p : (Axis → K) × K), points[j]? = some p →
    ∀ i, r.toCartesian p.1 i = r.toCartesian m.position i + ((j : K) + 1) / m.count r * m.delta r i
  checked : checked = m.target

/-! ## The calls -/

/-- The point of a call: the one at an index, of so many. -/
def Segmenter.target (s : Segmenter K) (n j : ℕ) : Axis → K :=
  if s.segmented = true ∧ j + 1 < n then fun i => s.segmentTarget i + ((j : K) + 1) * s.delta i else s.finalTarget

/-- As it is handed to the kinematics. -/
def Segmenter.shifted (s : Segmenter K) (target : Axis → K) : Axis → K := update target .x (target .x - s.rOffset)

omit [IsStrictOrderedRing K] in
theorem next_cpos (rapid : Bool) (s : Segmenter K) {n : ℕ} (hs : s.iterations = n + 2) :
    (s.next r rapid).cpos = r.fromCartesian s.lastPos (s.shifted (s.target (n + 1) 0)) := by
  unfold Segmenter.next Segmenter.shifted Segmenter.target
  simp [hs]

omit [IsStrictOrderedRing K] [FloorRing K] in
theorem next_target (s : Segmenter K) {n j : ℕ} (hs : s.iterations = n + 2) (hj : j < n) :
    (s.next r rapid).target n j = s.target (n + 1) (j + 1) := by
  have hn : 0 < n := by omega
  unfold Segmenter.next Segmenter.target
  cases s.segmented with
  | false => simp
  | true =>
      simp only [hs, Nat.add_lt_add_iff_right]
      split
      · funext i
        simp [hn]
        ring
      · rfl

omit [IsStrictOrderedRing K] in
theorem segments_eq (rapid : Bool) (n : ℕ) : ∀ s : Segmenter K, s.iterations = n + 1 →
    ∃ points s', segments r rapid (n + 1) s = some (points, s') ∧ points.length = n ∧ s'.delta = s.delta ∧
      ∀ (j : ℕ) (p : (Axis → K) × K), points[j]? = some p → ∃ last, p.1 = r.fromCartesian last (s.shifted (s.target n j)) := by
  induction n with
  | zero =>
      intro s hs
      have hzero : (s.next r rapid).iterations = 0 := by simp [Segmenter.next, hs]
      refine ⟨[], s.next r rapid, ?_, rfl, rfl, fun _ _ h => (nomatch h)⟩
      rw [segments]
      exact if_pos hzero
  | succ n ih =>
      intro s hs
      have hleft : (s.next r rapid).iterations = n + 1 := by simp [Segmenter.next, hs]
      obtain ⟨points, s', hsegments, hlength, hdelta, hpoints⟩ := ih (s.next r rapid) hleft
      refine ⟨((s.next r rapid).cpos, (s.next r rapid).rate) :: points, s', ?_, congrArg (· + 1) hlength, hdelta, ?_⟩
      · rw [segments, if_neg (by omega), hsegments]
        rfl
      · intro j p hp
        cases j with
        | zero =>
            obtain rfl := Option.some.inj hp
            exact ⟨s.lastPos, next_cpos rapid s hs⟩
        | succ j =>
            obtain ⟨last, hlast⟩ := hpoints j p hp
            refine ⟨last, hlast.trans ?_⟩
            have hj : j + 1 < points.length + 1 := (List.getElem?_eq_some_iff.1 hp).1
            rw [next_target s hs (by omega)]
            rfl

/-! ## The first call -/

def LineMove.Cut (r : Robot K) (m : LineMove K) : Prop :=
  m.rapid = false ∧ m.distance r > r.maxSegLength ∧ ¬(m.delta r .x = 0 ∧ m.delta r .y = 0)

instance (r : Robot K) (m : LineMove K) : Decidable (m.Cut r) :=
  inferInstanceAs (Decidable (_ ∧ _ ∧ ¬(_ ∧ _)))

def Segmenter.first (r : Robot K) (m : LineMove K) (s : Segmenter K) : Axis → K :=
  if r.setsAll then r.toCartesian m.position else update (r.toCartesian m.position) .a (s.segmentTarget .a)

omit [IsStrictOrderedRing K] [FloorRing K] in
theorem first_eq {i : Axis} (hi : i ≠ .a) : s.first r m i = r.toCartesian m.position i := by
  unfold Segmenter.first
  split
  · rfl
  · exact Function.update_of_ne hi _ _

omit [IsStrictOrderedRing K] [FloorRing K] in
theorem start_delta (ha : s.delta .a = 0) : update (fun i => m.target i - s.first r m i) .a (s.delta .a) = update (m.delta r) .a 0 := by
  funext i
  by_cases hi : i = .a
  · rw [hi, Function.update_self, Function.update_self, ha]
  · rw [Function.update_of_ne hi, Function.update_of_ne hi, first_eq hi]
    rfl

/-- The number of calls that deliver a point. -/
def LineMove.calls (r : Robot K) (m : LineMove K) : ℕ := if m.Cut r then m.count r else 1

/-- The variables after the first call. -/
structure Started (r : Robot K) (m : LineMove K) (s s' : Segmenter K) : Prop where
  iterations : s'.iterations = m.calls r + 1
  segmented : s'.segmented = true ↔ m.Cut r
  cpos : s'.cpos = s.cpos
  rOffset : s'.rOffset = r.rOffset m.offset
  finalTarget : s'.finalTarget = m.target
  delta_a : s'.delta .a = 0
  cut : m.Cut r → s'.segmentTarget = s.first r m ∧ s'.delta = fun i => update (m.delta r) .a 0 i / m.calls r

theorem count_of_cut (h : m.Cut r) : m.count r = ⌈m.distance r / r.maxSegLength⌉₊ ∧ 2 ≤ m.count r := by
  have htwo : 1 < ⌈m.distance r / r.maxSegLength⌉₊ := by
    rw [Nat.lt_ceil, Nat.cast_one, lt_div_iff₀ r.maxSegLength_pos, one_mul]
    exact h.2.1
  have hcount : m.count r = ⌈m.distance r / r.maxSegLength⌉₊ := by
    rw [LineMove.count, h.1]
    exact max_eq_right htwo.le
  exact ⟨hcount, hcount ▸ htwo⟩

theorem start_started (r : Robot K) (m : LineMove K) (ha : s.delta .a = 0) : Started r m s (s.start r m) := by
  have hcalls : m.calls r = if m.Cut r then ⌈m.distance r / r.maxSegLength⌉₊ else 1 := by
    rw [LineMove.calls]
    split
    next h => exact (count_of_cut h).1
    · rfl
  have hstart : s.start r m =
      if m.Cut r then
        { s with
          iterations := m.calls r + 1
          segmented := true
          distance := m.distance r / m.calls r
          rOffset := r.rOffset m.offset
          delta := fun i => update (m.delta r) .a 0 i / m.calls r
          segmentTarget := s.first r m
          finalTarget := m.target
          rate := 1 }
      else
        { s with
          iterations := 2
          segmented := false
          distance := m.distance r
          rOffset := r.rOffset m.offset
          delta := update (m.delta r) .a 0
          segmentTarget := m.target
          finalTarget := m.target
          rate := 1 } := by
    have hdelta := start_delta (r := r) (m := m) ha
    unfold Segmenter.start
    rw [← Segmenter.first]
    dsimp only
    rw [hdelta, ← LineMove.distance]
    by_cases h : m.Cut r
    · rw [if_pos h, hcalls, if_pos h, if_pos]
      obtain ⟨hrapid, hdist, hplane⟩ := h
      simpa [hrapid, hdist, imp_iff_not_or] using hplane
    · rw [if_neg h, if_neg]
      simpa [LineMove.Cut] using h
  rw [hstart]
  by_cases h : m.Cut r
  · rw [if_pos h]
    exact ⟨rfl, ⟨fun _ => h, fun _ => rfl⟩, rfl, rfl, rfl, by simp, fun _ => ⟨rfl, rfl⟩⟩
  · rw [if_neg h]
    refine ⟨?_, ⟨nofun, fun hcut => absurd hcut h⟩, rfl, rfl, rfl, ?_, fun hcut => absurd hcut h⟩
    · rw [hcalls, if_neg h]
    · exact Function.update_self .a 0 (m.delta r)

/-! ## Lines -/

/-- The variables after any lines. -/
inductive Reachable (r : Robot K) : Segmenter K → Prop
  | init : Reachable r .init
  | line {s s' : Segmenter K} {m : LineMove K} {fuel : ℕ} {checked : Axis → K} {points : List ((Axis → K) × K)} :
      Reachable r s → mcLine r m fuel s = some (checked, points, s') → Reachable r s'

omit [IsStrictOrderedRing K] [FloorRing K] in
theorem segments_delta {fuel : ℕ} : ∀ {s s' : Segmenter K} {points : List ((Axis → K) × K)},
    segments r rapid fuel s = some (points, s') → s'.delta = s.delta := by
  induction fuel with
  | zero => exact fun h => (nomatch h)
  | succ fuel ih =>
      intro s s' points h
      rw [segments] at h
      split at h
      · obtain ⟨-, rfl⟩ := Prod.mk.inj (Option.some.inj h)
        rfl
      · obtain ⟨rest, hrest, heq⟩ := Option.map_eq_some_iff.1 h
        obtain ⟨-, rfl⟩ := Prod.mk.inj heq
        exact (ih hrest).trans rfl

omit [IsStrictOrderedRing K] [FloorRing K] in
theorem segments_unique (fuel : ℕ) : ∀ {fuel' : ℕ} {s : Segmenter K} {x y : List ((Axis → K) × K) × Segmenter K},
    segments r rapid fuel s = some x → segments r rapid fuel' s = some y → x = y := by
  induction fuel with
  | zero => exact fun h => (nomatch h)
  | succ fuel ih =>
      intro fuel' s x y hx hy
      cases fuel' with
      | zero => cases hy
      | succ fuel' =>
          rw [segments] at hx hy
          split at hx
          next hzero =>
            rw [if_pos hzero] at hy
            exact Option.some.inj (hx.symm.trans hy)
          next hmore =>
            rw [if_neg hmore] at hy
            obtain ⟨x', hx', rfl⟩ := Option.map_eq_some_iff.1 hx
            obtain ⟨y', hy', rfl⟩ := Option.map_eq_some_iff.1 hy
            rw [ih hx' hy']

theorem Reachable.delta_a (h : Reachable r s) : s.delta .a = 0 := by
  induction h with
  | init => rfl
  | @line s s' m fuel checked points _ hline ih =>
      obtain ⟨rest, hrest, heq⟩ := Option.map_eq_some_iff.1 hline
      obtain ⟨-, -, rfl⟩ : _ ∧ _ ∧ rest.2 = s' := by simpa only [Prod.mk.injEq] using (Prod.mk.inj heq).imp id Prod.mk.inj
      rw [segments_delta hrest]
      exact (start_started r m ih).delta_a

/-- When a line is delivered: the last point of the line before is its target, its radius is not shifted, a line that is to be cut leaves its
place in the plane, and the last axis, which is only set at the end, would be where it is all the way. -/
structure Regular (r : Robot K) (m : LineMove K) (s : Segmenter K) : Prop where
  checked : s.cpos = m.target
  offset : r.rOffset m.offset = 0
  plane : 2 ≤ m.count r → ¬(m.delta r .x = 0 ∧ m.delta r .y = 0)
  last : ∀ j : ℕ, 0 < j → j < m.count r → s.first r m .a = r.toCartesian m.position .a + (j : K) / m.count r * m.delta r .a

/-- What the calls hand to the kinematics. -/
def Segmenter.Point (r : Robot K) (m : LineMove K) (s : Segmenter K) (p : Axis → K) : Prop :=
  ∃ j < m.calls r, p = (s.start r m).shifted ((s.start r m).target (m.calls r) j)

/-- What `mc_line` does. -/
theorem mcLine_eq (m : LineMove K) (hinv : ∀ last p, s.Point r m p → r.toCartesian (r.fromCartesian last p) = p) (ha : s.delta .a = 0) :
    ∃ points s', mcLine r m (m.calls r + 1) s = some (s.cpos, points, s') ∧ points.length = m.calls r ∧
      ∀ (j : ℕ) (p : (Axis → K) × K), points[j]? = some p → r.toCartesian p.1 = (s.start r m).shifted ((s.start r m).target (m.calls r) j) := by
  have hstarted := start_started r m ha
  obtain ⟨points, s', hsegments, hlength, -, hpoints⟩ := segments_eq (r := r) m.rapid (m.calls r) _ hstarted.iterations
  refine ⟨points, s', ?_, hlength, fun j p hp => ?_⟩
  · rw [mcLine, hsegments, hstarted.cpos]
    rfl
  · obtain ⟨last, hlast⟩ := hpoints j p hp
    have hj : j < m.calls r := hlength ▸ (List.getElem?_eq_some_iff.1 hp).1
    rw [hlast, hinv last _ ⟨j, hj, rfl⟩]

theorem calls_eq (hplane : 2 ≤ m.count r → ¬(m.delta r .x = 0 ∧ m.delta r .y = 0)) : m.calls r = m.count r := by
  rw [LineMove.calls]
  split
  · rfl
  next hcut =>
    have hone : 1 ≤ m.count r := by
      rw [LineMove.count]
      split
      · exact le_rfl
      · exact le_max_left _ _
    by_contra hne
    have htwo : 2 ≤ m.count r := by omega
    refine hcut ⟨?_, ?_, hplane htwo⟩
    · by_contra hrapid
      rw [LineMove.count, if_pos (Bool.eq_true_of_not_eq_false hrapid)] at htwo
      exact absurd htwo (by decide)
    · by_contra hshort
      have hceil : ⌈m.distance r / r.maxSegLength⌉₊ ≤ 1 := by
        rw [Nat.ceil_le, Nat.cast_one, div_le_one r.maxSegLength_pos]
        exact not_lt.1 hshort
      rw [LineMove.count, max_eq_left hceil] at htwo
      split at htwo <;> exact absurd htwo (by decide)

omit [IsStrictOrderedRing K] in
theorem shifted_last (hstarted : Started r m s s') {j : ℕ} (hj : j + 1 = m.calls r) :
    s'.shifted (s'.target (m.calls r) j) = update m.target .x (m.target .x - r.rOffset m.offset) := by
  rw [Segmenter.target, if_neg (fun h => h.2.ne hj), Segmenter.shifted, hstarted.finalTarget, hstarted.rOffset]

omit [IsStrictOrderedRing K] in
theorem shifted_cut (hstarted : Started r m s s') {j : ℕ} (hj : j + 1 < m.calls r) :
    s'.shifted (s'.target (m.calls r) j) = s'.shifted fun i => s.first r m i + ((j : K) + 1) * (update (m.delta r) .a 0 i / m.calls r) := by
  have hcut : m.Cut r := by
    by_contra hnot
    rw [LineMove.calls, if_neg hnot] at hj
    omega
  obtain ⟨hfirst, hdelta⟩ := hstarted.cut hcut
  rw [Segmenter.target, if_pos ⟨hstarted.segmented.2 hcut, hj⟩, hfirst, hdelta]

theorem spaced_of_regular (hregular : Regular r m s) (hstarted : Started r m s s') {j : ℕ} (hj : j < m.calls r) (i : Axis) :
    s'.shifted (s'.target (m.calls r) j) i = r.toCartesian m.position i + ((j : K) + 1) / m.count r * m.delta r i := by
  have hcalls := calls_eq hregular.plane
  have hpos : (m.count r : K) ≠ 0 := Nat.cast_ne_zero.2 (by omega)
  rcases Nat.lt_or_eq_of_le (Nat.succ_le_of_lt hj) with hlt | hlast
  · rw [shifted_cut hstarted hlt, Segmenter.shifted, hstarted.rOffset, hregular.offset, sub_zero, Function.update_eq_self, hcalls]
    by_cases hi : i = .a
    · have ha := hregular.last (j + 1) (Nat.succ_pos j) (hcalls ▸ hlt)
      rw [hi, Function.update_self, zero_div, mul_zero, add_zero, ha]
      push_cast
      rfl
    · rw [Function.update_of_ne hi, first_eq hi]
      ring
  · rw [shifted_last hstarted hlast, hregular.offset, sub_zero, Function.update_eq_self, ← hcalls, ← hlast]
    have hj0 : ((j + 1 : ℕ) : K) ≠ 0 := Nat.cast_ne_zero.2 (Nat.succ_ne_zero j)
    rw [← Nat.cast_succ, div_self hj0, one_mul, LineMove.delta, add_sub_cancel]

theorem delivered_iff (hs : Reachable r s) (m : LineMove K)
    (hinv : ∀ last p, s.Point r m p → r.toCartesian (r.fromCartesian last p) = p) :
    (∃ fuel checked points s', mcLine r m fuel s = some (checked, points, s') ∧ Delivered r m checked points) ↔ Regular r m s := by
  have hstarted := start_started r m hs.delta_a
  obtain ⟨points, s', hline, hlength, hpoints⟩ := mcLine_eq m hinv hs.delta_a
  constructor
  · rintro ⟨fuel, checked, points', s'', hline', hdelivered⟩
    obtain ⟨rest, hrest, heq⟩ := Option.map_eq_some_iff.1 hline
    obtain ⟨rest', hrest', heq'⟩ := Option.map_eq_some_iff.1 hline'
    obtain rfl := segments_unique _ hrest hrest'
    obtain ⟨rfl, hsame⟩ := Prod.mk.inj (heq.symm.trans heq')
    obtain ⟨rfl, rfl⟩ := Prod.mk.inj hsame
    have hcalls : m.calls r = m.count r := hlength.symm.trans hdelivered.count
    have hplace (j : ℕ) (hj : j < m.calls r) (i : Axis) : (s.start r m).shifted ((s.start r m).target (m.calls r) j) i =
        r.toCartesian m.position i + ((j : K) + 1) / m.count r * m.delta r i := by
      have hget := List.getElem?_eq_getElem (hlength.symm ▸ hj : j < points.length)
      rw [← hpoints j _ hget]
      exact hdelivered.spaced j _ hget i
    have hone : 1 ≤ m.calls r := by
      rw [LineMove.calls]
      split
      next hcut => exact le_trans (by decide) (count_of_cut hcut).2
      · exact le_rfl
    refine ⟨hdelivered.checked, ?_, fun htwo hplane => ?_, fun j hj hlt => ?_⟩
    · have hlast := hplace (m.calls r - 1) (by omega) .x
      have hn : ((m.calls r - 1 : ℕ) : K) + 1 = m.count r := by
        rw [← hcalls, ← Nat.cast_succ]
        congr 1
        omega
      have hcount : (m.count r : K) ≠ 0 := Nat.cast_ne_zero.2 (by omega)
      rw [shifted_last hstarted (by omega), Function.update_self, hn, div_self hcount, one_mul, LineMove.delta, add_sub_cancel] at hlast
      exact sub_eq_self.1 hlast
    · have hcut : m.Cut r := by
        by_contra hnot
        rw [LineMove.calls, if_neg hnot] at hcalls
        omega
      exact hcut.2.2 hplane
    · obtain ⟨j, rfl⟩ : ∃ i, j = i + 1 := ⟨j - 1, by omega⟩
      have hplaced := hplace j (by omega) .a
      rw [shifted_cut hstarted (by omega), Segmenter.shifted, Function.update_of_ne (by decide), Function.update_self, zero_div, mul_zero,
        add_zero] at hplaced
      rw [hplaced]
      push_cast
      rfl
  · intro hregular
    refine ⟨_, _, points, s', hline, hlength.trans (calls_eq hregular.plane), fun j p hp i => ?_, hregular.checked⟩
    have hj : j < m.calls r := hlength ▸ (List.getElem?_eq_some_iff.1 hp).1
    rw [hpoints j p hp]
    exact spaced_of_regular hregular hstarted hj i

theorem point_y (ha : s.delta .a = 0) {p : Axis → K} (hp : s.Point r m p) :
    ∃ t, 0 ≤ t ∧ t ≤ 1 ∧ p .y = (1 - t) * r.toCartesian m.position .y + t * m.target .y := by
  obtain ⟨j, hj, rfl⟩ := hp
  have hstarted := start_started r m ha
  rcases Nat.lt_or_eq_of_le (Nat.succ_le_of_lt hj) with hlt | hlast
  · have hcalls : (0 : K) < m.calls r := Nat.cast_pos.2 (by omega)
    have hle : (j : K) + 1 ≤ m.calls r := by exact_mod_cast hlt.le
    refine ⟨((j : K) + 1) / m.calls r, by positivity, (div_le_one hcalls).2 hle, ?_⟩
    rw [shifted_cut hstarted hlt, Segmenter.shifted, Function.update_of_ne (by decide), Function.update_of_ne (by decide),
      first_eq (by decide), LineMove.delta]
    ring
  · refine ⟨1, zero_le_one, le_rfl, ?_⟩
    rw [shifted_last hstarted hlast, Function.update_of_ne (by decide), sub_self, zero_mul, zero_add, one_mul]

end

/-! ## The wall plotter over the reals -/

section
variable {width : ℝ} {m : LineMove ℝ} {s : Segmenter ℝ}

noncomputable def realWallPlotter (width : ℝ) : Robot ℝ := wallPlotter Real.sqrt width

theorem wallPlotter_inverse (hwidth : width ≠ 0) (last : Axis → ℝ) {p : Axis → ℝ} (hy : 0 ≤ p .y) :
    (realWallPlotter width).toCartesian ((realWallPlotter width).fromCartesian last p) = p := by
  have ha := Real.mul_self_sqrt (add_nonneg (mul_self_nonneg (p .x)) (mul_self_nonneg (p .y)))
  have hb := Real.mul_self_sqrt (add_nonneg (mul_self_nonneg (width - p .x)) (mul_self_nonneg (p .y)))
  have hx : (realWallPlotter width).toCartesian ((realWallPlotter width).fromCartesian last p) .x = p .x := by
    simp only [realWallPlotter, wallPlotter, Function.update_self, ne_eq, reduceCtorEq, not_false_eq_true, Function.update_of_ne, ha, hb]
    field_simp
    ring
  funext i
  cases i with
  | x => exact hx
  | y =>
      simp only [realWallPlotter, wallPlotter, Function.update_self, ne_eq, reduceCtorEq, not_false_eq_true, Function.update_of_ne] at hx ⊢
      rw [hx, hb, add_sub_cancel_left, Real.sqrt_mul_self hy]
  | z => rfl
  | a => rfl

theorem wallPlotter_points (hwidth : width ≠ 0) (hy : 0 ≤ m.target .y) (ha : s.delta .a = 0) (last p : Axis → ℝ)
    (hp : s.Point (realWallPlotter width) m p) :
    (realWallPlotter width).toCartesian ((realWallPlotter width).fromCartesian last p) = p := by
  obtain ⟨t, ht0, ht1, hpy⟩ := point_y ha hp
  have hstart : 0 ≤ (realWallPlotter width).toCartesian m.position .y := Real.sqrt_nonneg _
  refine wallPlotter_inverse hwidth last ?_
  rw [hpy]
  exact add_nonneg (mul_nonneg (sub_nonneg.2 ht1) hstart) (mul_nonneg ht0 hy)

/-- From X0 Y6 to the left motor, eight from the other one. -/
def upward : LineMove ℝ := ⟨update (update (fun _ => 0) .x 6) .y 10, fun _ => 0, false, 0⟩

theorem upward_start : (realWallPlotter 8).toCartesian upward.position = update (fun _ => 0) .y 6 := by
  have hroot : √(36 : ℝ) = 6 := by
    rw [show (36 : ℝ) = 6 * 6 by norm_num, Real.sqrt_mul_self (by norm_num)]
  funext i
  cases i <;> simp [realWallPlotter, wallPlotter, upward] <;> norm_num [hroot]

end

/-! ## The polar robot over the reals -/

section
open Real

noncomputable def realPolar : Robot ℝ := polar Real.sqrt (fun θ => cos (θ * (π / 180))) (fun θ => sin (θ * (π / 180))) atan2Degrees

theorem degrees_turns (θ : ℝ) (k : ℤ) : (θ * (180 / π) + 360 * k) * (π / 180) = θ + k * (2 * π) := by
  field_simp
  ring

theorem polar_inverse (last p : Axis → ℝ) : realPolar.toCartesian (realPolar.fromCartesian last p) = p := by
  have hnorm : hypotf Real.sqrt (p .x) (p .y) = ‖(⟨p .x, p .y⟩ : ℂ)‖ := by
    rw [Complex.norm_def, Complex.normSq_mk, hypotf]
  by_cases hzero : hypotf Real.sqrt (p .x) (p .y) = 0
  · have hz : (⟨p .x, p .y⟩ : ℂ) = 0 := norm_eq_zero.1 (hnorm.symm.trans hzero)
    have hx : p .x = 0 := congrArg Complex.re hz
    have hy : p .y = 0 := congrArg Complex.im hz
    funext i
    cases i with
    | x => exact (congrArg (cos _ * ·) hzero).trans ((mul_zero _).trans hx.symm)
    | y => exact (congrArg (sin _ * ·) hzero).trans ((mul_zero _).trans hy.symm)
    | z => rfl
    | a => rfl
  · obtain ⟨k, hk⟩ : ∃ k : ℤ, transformFromCartesian Real.sqrt atan2Degrees last p .y = Complex.arg ⟨p .x, p .y⟩ * (180 / π) + 360 * k := by
      obtain ⟨k, hk⟩ := unwrap_congruent (last .y) (absAngle (atan2Degrees (p .y) (p .x)))
      refine ⟨k - turns (atan2Degrees (p .y) (p .x)), ?_⟩
      rw [transformFromCartesian, if_neg hzero, hk, absAngle_eq]
      push_cast
      rw [atan2Degrees]
      ring
    have hangle : transformFromCartesian Real.sqrt atan2Degrees last p .y * (π / 180) = Complex.arg ⟨p .x, p .y⟩ + k * (2 * π) := by
      rw [hk, degrees_turns]
    funext i
    cases i with
    | x =>
        have hre := Complex.norm_mul_cos_arg ⟨p .x, p .y⟩
        change cos (transformFromCartesian Real.sqrt atan2Degrees last p .y * (π / 180)) * hypotf Real.sqrt (p .x) (p .y) = p .x
        rw [hangle, cos_add_int_mul_two_pi, hnorm, mul_comm]
        exact hre
    | y =>
        have him := Complex.norm_mul_sin_arg ⟨p .x, p .y⟩
        change sin (transformFromCartesian Real.sqrt atan2Degrees last p .y * (π / 180)) * hypotf Real.sqrt (p .x) (p .y) = p .y
        rw [hangle, sin_add_int_mul_two_pi, hnorm, mul_comm]
        exact him
    | z => rfl
    | a => rfl

/-- From X10 to the center. -/
noncomputable def inward : LineMove ℝ := ⟨update (fun _ => 0) .x 10, fun _ => 0, false, 0⟩

theorem delivered_iff_inward :
    (∃ fuel checked points s', mcLine realPolar inward fuel .init = some (checked, points, s') ∧
      Delivered realPolar inward checked points) ∧
    ∃ fuel checked points s', mcLine (realWallPlotter 8) upward fuel .init = some (checked, points, s') ∧
      Delivered (realWallPlotter 8) upward checked points := by
  constructor
  · refine (delivered_iff .init inward fun last p _ => polar_inverse last p).2 ⟨rfl, zero_mul 2, fun _ hplane => ?_, fun j _ _ => ?_⟩
    · have hx : inward.delta realPolar .x = -10 := by simp [LineMove.delta, inward, realPolar, polar]
      norm_num [hx] at hplane
    · simp [Segmenter.first, LineMove.delta, inward, realPolar, polar]
  · refine (delivered_iff .init upward (wallPlotter_points (by norm_num) le_rfl rfl)).2 ⟨rfl, rfl, fun _ hplane => ?_, fun j _ _ => ?_⟩
    · have hy : upward.delta (realWallPlotter 8) .y = -6 := by
        rw [LineMove.delta, upward_start]
        simp [upward]
      norm_num [hy] at hplane
    · simp [Segmenter.first, Segmenter.init, LineMove.delta, upward, realWallPlotter, wallPlotter]

/-- From the center to X10. -/
noncomputable def outward : LineMove ℝ := ⟨fun _ => 0, update (fun _ => 0) .x 10, false, 0⟩

/-- The first line is checked for the center, which is what the variables are set to at first. -/
theorem checked_for_last_line : (∃ fuel points s', mcLine realPolar outward fuel .init = some (fun _ => 0, points, s')) ∧
    outward.target .x = 10 ∧
    ¬∃ fuel checked points s', mcLine realPolar outward fuel .init = some (checked, points, s') ∧ Delivered realPolar outward checked points := by
  obtain ⟨points, s', hline, -, -⟩ := mcLine_eq (s := .init) outward (fun last p _ => polar_inverse last p) rfl
  refine ⟨⟨_, points, s', hline⟩, by simp [outward], ?_⟩
  rintro ⟨fuel, checked, points', s'', hline', hdelivered⟩
  obtain ⟨rest, -, heq⟩ := Option.map_eq_some_iff.1 hline'
  have hchecked : checked = fun _ => 0 := (congrArg Prod.fst heq).symm.trans (start_started realPolar outward rfl).cpos
  have hzero : (0 : ℝ) = 10 := congrFun (hchecked.symm.trans hdelivered.checked) .x
  norm_num at hzero

end

end Grbl.Kinematics
