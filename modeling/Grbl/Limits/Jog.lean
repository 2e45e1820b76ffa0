import Mathlib
import Grbl.Lib.Clip
import Grbl.Limits.Envelope

/-!
# Jog targets are cut off at the envelope

`machine_limits.c`: `apply_travel_limits` brings the target of a jog into the envelope; a move of two or more of X, Y and Z
is cut off where it leaves it.

* `div?` : the division, which fails for a divisor of 0;
* `clipAxis`, `clip3dTarget`, `countAxes`, `applyTravelLimits` : the functions of the source;
* `OnMove` : the point a move has come to; `clipAxis_onMove`, `clip3dTarget_onMove`;
* `Clipped` : what the target owes; `Unrestricted` : when it is paid; `clipped_iff`;
* `limitless_axis_stops_jog` : it is not paid on every input.
-/

namespace Grbl.Limits
open Function (update)
open Lib.Clip
open scoped Grbl.Lib.OrderedField

section
variable {K : Type*} [Field K] [LinearOrder K]

/-- A division. -/
def div? (a b : K) : Option K := if b = 0 then none else some (a / b)

theorem div?_eq {a b : K} (h : b ≠ 0) : div? a b = some (a / b) := if_neg h

/-- One of the three steps of `clip_3d_target`: where the axis `i` leaves the envelope the other two follow with their slopes. -/
def clipAxis (i j k : Axis) (position d : Axis → K) (envelope : WorkEnvelope K) (target : Axis → K) : Option (Axis → K) :=
  let meet bound := do
    let u ← div? (d j) (d i)
    let v ← div? (d k) (d i)
    let target := update target j (u * (bound - position i) + position j)
    let target := update target k (v * (bound - position i) + position k)
    some (update target i bound)
  if target i < envelope.min i then meet (envelope.min i)
  else if target i > envelope.max i then meet (envelope.max i)
  else some target

def clip3dTarget (position target : Axis → K) (envelope : WorkEnvelope K) : Option (Axis → K) := do
  let d i := target i - position i
  let target ← clipAxis .x .y .z position d envelope target
  let target ← clipAxis .y .x .z position d envelope target
  clipAxis .z .x .y position d envelope target

/-- The count of the axes that move, which stops at two. -/
def countAxes (position target : Axis → K) (threshold : K) : List Axis → ℕ → ℕ
  | [], n => n
  | i :: is, n =>
      let n := if |target i - position i| > threshold then n + 1 else n
      if n < 2 then countAxes position target threshold is n else n

def clamp (settings : Settings K) (homed : Axis → Bool) (target : Axis → K) (envelope : WorkEnvelope K) (i : Axis) : K :=
  if homed i && decide (settings.maxTravel i < 0) then max (min (target i) (envelope.max i)) (envelope.min i) else target i

/-- `apply_travel_limits`; without a position the target is only clamped. -/
def applyTravelLimits (settings : Settings K) (homed : Axis → Bool) (target : Axis → K) (position : Option (Axis → K))
    (envelope : WorkEnvelope K) : Option (Axis → K) :=
  if Axis.all.all fun i => !homed i then some target
  else do
    let target ←
      match position with
      | some position =>
          if homed .x && homed .y && homed .z && decide (countAxes position target (1 / 1000) [.z, .y, .x] 0 > 1) then
            clip3dTarget position target envelope
          else some target
      | none => some target
    some (clamp settings homed target envelope)

end

section
variable {K : Type*} [Field K] [LinearOrder K] {position target d r : Axis → K} {envelope : WorkEnvelope K} {settings : Settings K}
  {homed : Axis → Bool} {t : K}

/-- The linear axes. -/
def xyz : List Axis := [.x, .y, .z]

theorem mem_xyz {i : Axis} : i ∈ xyz ↔ i ≠ .a := by cases i <;> decide

/-- The point has come along the part `t` of the move. -/
def OnMove (position d : Axis → K) (t : K) (p : Axis → K) : Prop := ∀ i ∈ xyz, p i = position i + t * d i

/-- How far an axis goes inside the envelope, as a part of the move. -/
def reachOf (envelope : WorkEnvelope K) (position d : Axis → K) (i : Axis) : K :=
  reach (envelope.min i) (envelope.max i) (position i) (d i)

/-- How far the move goes inside the envelope on these axes. -/
def travelOf (envelope : WorkEnvelope K) (position d : Axis → K) (is : List Axis) : K :=
  travel envelope.min envelope.max position d is

variable [IsStrictOrderedRing K]

theorem clipAxis_onMove {i j k : Axis} (hj : j ≠ i) (hk : k ≠ i) (hjk : j ≠ k) (hi : i ∈ xyz) (hall : ∀ l ∈ xyz, l = i ∨ l = j ∨ l = k)
    (hja : j ≠ .a) (hka : k ≠ .a) (hin : envelope.Inside position i) (ht0 : 0 ≤ t) (ht1 : t ≤ 1) (h : OnMove position d t target) :
    ∃ r, clipAxis i j k position d envelope target = some r ∧ OnMove position d (min t (reachOf envelope position d i)) r ∧
      r .a = target .a := by
  have hia : i ≠ .a := mem_xyz.1 hi
  -- the point where the bound is met
  have hmeet (bound : K) (hd : d i ≠ 0) :
      OnMove position d ((bound - position i) / d i)
        (update (update (update target j (d j / d i * (bound - position i) + position j)) k
          (d k / d i * (bound - position i) + position k)) i bound) := by
    intro l hl
    rcases hall l hl with rfl | rfl | rfl
    · rw [Function.update_self, div_mul_cancel₀ _ hd]
      ring
    · rw [Function.update_of_ne hj, Function.update_of_ne hjk, Function.update_self]
      ring
    · rw [Function.update_of_ne hk, Function.update_self]
      ring
  have hrest (u v bound : K) : update (update (update target j u) k v) i bound .a = target .a := by
    rw [Function.update_of_ne hia.symm, Function.update_of_ne hka.symm, Function.update_of_ne hja.symm]
  obtain ⟨hlo, hhi⟩ := hin
  unfold clipAxis
  rw [h i hi]
  split_ifs with hbelow habove
  · obtain ⟨hd, heq, hlt⟩ := reach_of_below (envelope.max i) hlo ht0 ht1 hbelow
    refine ⟨_, by rw [div?_eq hd.ne, div?_eq hd.ne]; rfl, ?_, hrest _ _ _⟩
    rw [reachOf, heq, min_eq_right hlt.le]
    exact hmeet _ hd.ne
  · obtain ⟨hd, heq, hlt⟩ := reach_of_above hlo hhi ht0 ht1 habove
    refine ⟨_, by rw [div?_eq hd.ne', div?_eq hd.ne']; rfl, ?_, hrest _ _ _⟩
    rw [reachOf, heq, min_eq_right hlt.le]
    exact hmeet _ hd.ne'
  · refine ⟨target, rfl, ?_, rfl⟩
    rwa [min_eq_left]
    exact (le_reach_iff hlo hhi ht0 ht1).2 ⟨not_lt.1 hbelow, not_lt.1 habove⟩

theorem min_reach_mem {i : Axis} (hin : envelope.Inside position i) (ht0 : 0 ≤ t) (ht1 : t ≤ 1) :
    0 ≤ min t (reachOf envelope position d i) ∧ min t (reachOf envelope position d i) ≤ 1 :=
  ⟨le_min ht0 (reach_nonneg hin.1 hin.2), min_le_of_left_le ht1⟩

variable (target) in
/-- The clipping: the point stops where the first of the three axes leaves the envelope. -/
theorem clip3dTarget_onMove (hin : ∀ i ∈ xyz, envelope.Inside position i) :
    ∃ r, clip3dTarget position target envelope = some r ∧
      OnMove position (fun i => target i - position i) (travelOf envelope position (fun i => target i - position i) xyz) r ∧
      r .a = target .a := by
  have hstart : OnMove position (fun i => target i - position i) 1 target := by
    intro i _
    ring
  have hx : (0 : K) ≤ _ ∧ _ ≤ (1 : K) := min_reach_mem (d := fun i => target i - position i) (hin .x (by decide)) zero_le_one le_rfl
  have hy := min_reach_mem (d := fun i => target i - position i) (hin .y (by decide)) hx.1 hx.2
  obtain ⟨rx, hrx, honx, hax⟩ := clipAxis_onMove (i := .x) (j := .y) (k := .z) (by decide) (by decide) (by decide) (by decide) (by decide)
    (by decide) (by decide) (hin .x (by decide)) zero_le_one le_rfl hstart
  obtain ⟨ry, hry, hony, hay⟩ := clipAxis_onMove (i := .y) (j := .x) (k := .z) (by decide) (by decide) (by decide) (by decide) (by decide)
    (by decide) (by decide) (hin .y (by decide)) hx.1 hx.2 honx
  obtain ⟨rz, hrz, honz, haz⟩ := clipAxis_onMove (i := .z) (j := .x) (k := .y) (by decide) (by decide) (by decide) (by decide) (by decide)
    (by decide) (by decide) (hin .z (by decide)) hy.1 hy.2 hony
  refine ⟨rz, ?_, ?_, by rw [haz, hay, hax]⟩
  · unfold clip3dTarget
    simp only [hrx, hry, hrz, Option.bind_eq_bind, Option.bind_some]
  · convert honz using 1
    simp only [travelOf, reachOf, travel, xyz, List.foldr_cons, List.foldr_nil]
    ac_rfl

/-- Two of the linear axes differ by more than the threshold. -/
def MovesTwo (position target : Axis → K) (threshold : K) : Prop :=
  ∃ i ∈ xyz, ∃ j ∈ xyz, i ≠ j ∧ threshold < |target i - position i| ∧ threshold < |target j - position j|

instance (threshold : K) : Decidable (MovesTwo position target threshold) := inferInstanceAs (Decidable (∃ i ∈ xyz, _))

omit [IsStrictOrderedRing K] in
theorem countAxes_iff (threshold : K) : countAxes position target threshold [.z, .y, .x] 0 > 1 ↔ MovesTwo position target threshold := by
  have hxyz : MovesTwo position target threshold ↔
      (threshold < |target .x - position .x| ∧ threshold < |target .y - position .y|) ∨
      (threshold < |target .x - position .x| ∧ threshold < |target .z - position .z|) ∨
      (threshold < |target .y - position .y| ∧ threshold < |target .z - position .z|) := by
    simp only [MovesTwo, xyz, List.mem_cons, List.not_mem_nil, or_false, exists_eq_or_imp, exists_eq_left, ne_eq, reduceCtorEq,
      not_false_eq_true, not_true, true_and, false_and, false_or, or_false]
    tauto
  rw [hxyz]
  by_cases hx : threshold < |target .x - position .x| <;> by_cases hy : threshold < |target .y - position .y| <;>
    by_cases hz : threshold < |target .z - position .z| <;> simp [countAxes, hx, hy, hz]

/-! ## What a clipped target owes -/

/-- The point at the part `t` of the move from the position to the target. -/
def pointAt (position target : Axis → K) (t : K) (i : Axis) : K := position i + t * (target i - position i)

/-- The jog ends inside the envelope; a move of two or more of X, Y and Z ends in the last point of the segment to the target that lies
inside it; a target that lies inside is kept, and so is the coordinate of an axis without limits. -/
structure Clipped (settings : Settings K) (homed : Axis → Bool) (position target : Axis → K) (envelope : WorkEnvelope K) (r : Axis → K) :
    Prop where
  inside : ∀ i, Limited settings homed i → envelope.Inside r i
  straight : MovesTwo position target 0 → ∃ t, 0 ≤ t ∧ t ≤ 1 ∧ (∀ i ∈ xyz, r i = pointAt position target t i) ∧
    ∀ s, t < s → s ≤ 1 → ∃ i ∈ xyz, Limited settings homed i ∧ ¬envelope.Inside (pointAt position target s) i
  unchanged : (∀ i, Limited settings homed i → envelope.Inside target i) → r = target
  free : ∀ i, ¬Limited settings homed i → i = .a ∨ ¬MovesTwo position target 0 → r i = target i

/-- How far the axis goes until it is clamped. -/
def clampReach (settings : Settings K) (homed : Axis → Bool) (position target : Axis → K) (envelope : WorkEnvelope K) (i : Axis) : K :=
  if Limited settings homed i then reachOf envelope position (fun i => target i - position i) i else 1

/-- In a move of two axes by more than the threshold of the source no axis without limits leaves its bounds before one that has limits;
otherwise, if two axes differ at all, all that differ are clamped at the same point of the move. -/
def Unrestricted (settings : Settings K) (homed : Axis → Bool) (position target : Axis → K) (envelope : WorkEnvelope K) : Prop :=
  if MovesTwo position target (1 / 1000) then
    ∀ i ∈ xyz, ¬Limited settings homed i →
      travelOf envelope position (fun i => target i - position i) (xyz.filter fun i => Limited settings homed i) ≤
        reachOf envelope position (fun i => target i - position i) i
  else
    MovesTwo position target 0 → ∀ i ∈ xyz, ∀ j ∈ xyz, target i ≠ position i → target j ≠ position j →
      clampReach settings homed position target envelope i = clampReach settings homed position target envelope j

instance : Decidable (Unrestricted settings homed position target envelope) := by
  unfold Unrestricted
  infer_instance

omit [IsStrictOrderedRing K] in
theorem clamp_limited {i : Axis} (h : Limited settings homed i) :
    clamp settings homed target envelope i = max (min (target i) (envelope.max i)) (envelope.min i) := by
  obtain ⟨hhomed, hmax⟩ := h
  rw [clamp, hhomed, decide_eq_true hmax]
  rfl

omit [IsStrictOrderedRing K] in
theorem clamp_limitless {i : Axis} (h : ¬Limited settings homed i) : clamp settings homed target envelope i = target i := by
  rw [clamp, if_neg]
  simpa [Limited] using h

omit [IsStrictOrderedRing K] in
theorem clamp_of_inside {i : Axis} (h : Limited settings homed i → envelope.Inside target i) :
    clamp settings homed target envelope i = target i := by
  by_cases hlim : Limited settings homed i
  · rw [clamp_limited hlim, min_eq_left (h hlim).2, max_eq_left (h hlim).1]
  · exact clamp_limitless hlim

omit [IsStrictOrderedRing K] in
theorem inside_clamp {i : Axis} (h : Limited settings homed i) (hle : envelope.min i ≤ envelope.max i) :
    envelope.Inside (clamp settings homed target envelope) i := by
  rw [WorkEnvelope.Inside, clamp_limited h]
  exact ⟨le_max_right _ _, max_le (min_le_right _ _) hle⟩

variable (target settings homed) in
theorem clamp_eq_pointAt {i : Axis} (hin : envelope.Inside position i) :
    clamp settings homed target envelope i = pointAt position target (clampReach settings homed position target envelope i) i := by
  by_cases hlim : Limited settings homed i
  · rw [clamp_limited hlim, clampReach, if_pos hlim, pointAt, reachOf, add_reach_mul hin.1 hin.2, add_sub_cancel]
  · rw [clamp_limitless hlim, clampReach, if_neg hlim, pointAt]
    ring

theorem le_reachOf_iff {i : Axis} (hin : envelope.Inside position i) (ht0 : 0 ≤ t) (ht1 : t ≤ 1) :
    t ≤ reachOf envelope position (fun i => target i - position i) i ↔ envelope.Inside (pointAt position target t) i :=
  le_reach_iff hin.1 hin.2 ht0 ht1

theorem pointAt_inj {i : Axis} {u : K} (hne : target i ≠ position i) (h : pointAt position target t i = pointAt position target u i) :
    t = u :=
  mul_right_cancel₀ (sub_ne_zero.2 hne) (add_left_cancel h)

omit [IsStrictOrderedRing K] in
theorem applyTravelLimits_eq (hhomed : ∀ i ∈ xyz, homed i = true) :
    applyTravelLimits settings homed target (some position) envelope =
      (if MovesTwo position target (1 / 1000) then clip3dTarget position target envelope else some target).map
        fun r => clamp settings homed r envelope := by
  have hany : ¬(Axis.all.all fun i => !homed i) = true := by
    intro hall
    have hx := List.all_eq_true.1 hall .x (Axis.mem_all _)
    rw [hhomed .x (by decide)] at hx
    exact Bool.false_ne_true hx
  unfold applyTravelLimits
  rw [if_neg hany]
  simp only [hhomed .x (by decide), hhomed .y (by decide), hhomed .z (by decide), countAxes_iff, Bool.and_self, Bool.true_and, decide_eq_true_eq]
  split_ifs
  · cases clip3dTarget position target envelope <;> rfl
  · rfl

theorem clipped_clip_iff (hin : ∀ i, Limited settings homed i ∨ i ∈ xyz → envelope.Inside position i)
    (hfar : MovesTwo position target (1 / 1000)) (hr : OnMove position (fun i => target i - position i)
      (travelOf envelope position (fun i => target i - position i) xyz) r) (ha : r .a = target .a) :
    Clipped settings homed position target envelope (clamp settings homed r envelope) ↔ Unrestricted settings homed position target envelope := by
  have htwo : MovesTwo position target 0 := by
    obtain ⟨i, hi, j, hj, hne, hdi, hdj⟩ := hfar
    exact ⟨i, hi, j, hj, hne, lt_trans (by norm_num) hdi, lt_trans (by norm_num) hdj⟩
  rw [Unrestricted, if_pos hfar]
  set d : Axis → K := fun i => target i - position i with hd
  set m := travelOf envelope position d xyz with hm
  set limited := xyz.filter fun i => Limited settings homed i with hlimited
  have hmem {i : Axis} : i ∈ limited ↔ i ∈ xyz ∧ Limited settings homed i := by simp [hlimited]
  have hm0 : 0 ≤ m := travel_nonneg fun i hi => hin i (.inr hi)
  have hm1 : m ≤ 1 := travel_le_one _ _ _ _ _
  have hinside (i : Axis) (hi : i ∈ xyz) : envelope.Inside r i := by
    rw [WorkEnvelope.Inside, hr i hi]
    exact (le_reachOf_iff (hin i (.inr hi)) hm0 hm1).1 (travel_le_reach hi)
  -- the clamp has nothing left to do on the linear axes
  have hclamp (i : Axis) (hi : i ∈ xyz) : clamp settings homed r envelope i = pointAt position target m i := by
    rw [clamp_of_inside fun _ => hinside i hi, hr i hi, pointAt]
  constructor
  · rintro ⟨-, hstraight, -, -⟩ i hi hlim
    obtain ⟨t, ht0, ht1, heq, hlast⟩ := hstraight htwo
    obtain ⟨j, hj, -, -, -, hdj, -⟩ := hfar
    have hne : target j ≠ position j := by
      intro heq
      rw [heq, sub_self, abs_zero] at hdj
      linarith
    have htm : t = m := pointAt_inj hne ((heq j hj).symm.trans (hclamp j hj))
    refine le_trans (not_lt.1 fun hlt => ?_) (travel_le_reach (i := i) hi)
    obtain ⟨l, hl, hlimited, hout⟩ := hlast (travelOf envelope position d limited) (htm ▸ hlt) (travel_le_one _ _ _ _ _)
    refine hout ((le_reachOf_iff (hin l (.inr hl)) ?_ (travel_le_one _ _ _ _ _)).1 (travel_le_reach (hmem.2 ⟨hl, hlimited⟩)))
    exact travel_nonneg fun i hi => hin i (.inr (hmem.1 hi).1)
  · intro hfree
    -- the axes that have limits decide how far the move goes
    have hle : travelOf envelope position d limited ≤ m := by
      refine le_travel_iff.2 ⟨travel_le_one _ _ _ _ _, fun i hi => ?_⟩
      by_cases hlim : Limited settings homed i
      · exact travel_le_reach (hmem.2 ⟨hi, hlim⟩)
      · exact hfree i hi hlim
    refine ⟨fun i hlim => inside_clamp hlim ((hin i (.inl hlim)).1.trans (hin i (.inl hlim)).2), fun _ => ⟨m, hm0, hm1, hclamp, ?_⟩, ?_, ?_⟩
    · intro s hs hs1
      by_contra hall
      refine absurd (hle.trans_lt hs) (not_lt.2 (le_travel_iff.2 ⟨hs1, fun i hi => ?_⟩))
      refine (le_reachOf_iff (hin i (.inr (hmem.1 hi).1)) (hm0.trans hs.le) hs1).2 ?_
      by_contra hout
      exact hall ⟨i, (hmem.1 hi).1, (hmem.1 hi).2, hout⟩
    · intro htarget
      have hone : m = 1 := by
        refine le_antisymm hm1 (le_trans (le_travel_iff.2 ⟨le_rfl, fun i hi => ?_⟩) hle)
        refine (le_reachOf_iff (hin i (.inl (hmem.1 hi).2)) zero_le_one le_rfl).2 ?_
        rw [WorkEnvelope.Inside, pointAt, one_mul, add_sub_cancel]
        exact htarget i (hmem.1 hi).2
      funext i
      by_cases hi : i ∈ xyz
      · rw [hclamp i hi, hone, pointAt]
        ring
      · obtain rfl : i = .a := by simpa [mem_xyz] using hi
        rw [clamp_of_inside, ha]
        intro hlim
        rw [WorkEnvelope.Inside, ha]
        exact htarget .a hlim
    · rintro i hlim (rfl | hnot)
      · rw [clamp_limitless hlim, ha]
      · exact absurd htwo hnot

theorem clipped_clamp_iff (hin : ∀ i, Limited settings homed i ∨ i ∈ xyz → envelope.Inside position i)
    (hnear : ¬MovesTwo position target (1 / 1000)) :
    Clipped settings homed position target envelope (clamp settings homed target envelope) ↔
      Unrestricted settings homed position target envelope := by
  rw [Unrestricted, if_neg hnear]
  have hreach (i : Axis) (hi : i ∈ xyz) := clamp_eq_pointAt target settings homed (hin i (.inr hi))
  constructor
  · rintro ⟨-, hstraight, -, -⟩ htwo i hi j hj hdi hdj
    obtain ⟨t, -, -, heq, -⟩ := hstraight htwo
    rw [← pointAt_inj hdi ((heq i hi).symm.trans (hreach i hi)), ← pointAt_inj hdj ((heq j hj).symm.trans (hreach j hj))]
  · intro hequal
    refine ⟨fun i hlim => inside_clamp hlim ((hin i (.inl hlim)).1.trans (hin i (.inl hlim)).2), fun htwo => ?_, fun htarget => ?_, ?_⟩
    · obtain ⟨j, hj, -, -, -, hdj, -⟩ := id htwo
      have hne : target j ≠ position j := sub_ne_zero.1 (abs_pos.1 hdj)
      have hcommon (i : Axis) (hi : i ∈ xyz) (hdi : target i ≠ position i) := hequal htwo i hi j hj hdi hne
      have hbounds : 0 ≤ clampReach settings homed position target envelope j ∧ clampReach settings homed position target envelope j ≤ 1 := by
        obtain ⟨hlo, hhi⟩ := hin j (.inr hj)
        unfold clampReach
        split_ifs
        · exact ⟨reach_nonneg hlo hhi, reach_le_one hlo hhi⟩
        · exact ⟨zero_le_one, le_rfl⟩
      refine ⟨clampReach settings homed position target envelope j, hbounds.1, hbounds.2, fun i hi => ?_, fun s hs hs1 => ?_⟩
      · rw [hreach i hi]
        by_cases hdi : target i = position i
        · simp only [pointAt, hdi, sub_self, mul_zero]
        · rw [hcommon i hi hdi]
      · have hlim : Limited settings homed j := by
          by_contra hlim
          rw [clampReach, if_neg hlim] at hs
          exact hs.not_ge hs1
        rw [clampReach, if_pos hlim] at hs hbounds
        refine ⟨j, hj, hlim, fun hinside => ?_⟩
        exact hs.not_ge ((le_reachOf_iff (hin j (.inr hj)) (hbounds.1.trans hs.le) hs1).2 hinside)
    · funext i
      exact clamp_of_inside (htarget i)
    · intro i hlim _
      exact clamp_limitless hlim

/-- Jog targets are clipped as they should be exactly if no axis without a travel limit gets in the way. -/
theorem clipped_iff (hhomed : ∀ i ∈ xyz, homed i = true) (hin : ∀ i, homed i = true → envelope.Inside position i) :
    (∃ r, applyTravelLimits settings homed target (some position) envelope = some r ∧
      Clipped settings homed position target envelope r) ↔ Unrestricted settings homed position target envelope := by
  have hin' (i : Axis) (h : Limited settings homed i ∨ i ∈ xyz) : envelope.Inside position i := by
    rcases h with hlim | hi
    · exact hin i hlim.1
    · exact hin i (hhomed i hi)
  rw [applyTravelLimits_eq hhomed]
  by_cases hfar : MovesTwo position target (1 / 1000)
  · obtain ⟨r, hclip, hr, ha⟩ := clip3dTarget_onMove target fun i hi => hin' i (.inr hi)
    rw [if_pos hfar, hclip, Option.map_some, ← clipped_clip_iff hin' hfar hr ha]
    exact ⟨fun ⟨_, heq, h⟩ => Option.some.inj heq ▸ h, fun h => ⟨_, rfl, h⟩⟩
  · rw [if_neg hfar, Option.map_some, ← clipped_clamp_iff hin' hfar]
    exact ⟨fun ⟨_, heq, h⟩ => Option.some.inj heq ▸ h, fun h => ⟨_, rfl, h⟩⟩

end

section

/-- X has no travel limit, Y and Z have 200 mm. -/
def limitlessX : Settings ℚ where
  maxTravel i := if i = .x then 0 else -200
  homingPulloff _ := 1
  hardEnabled := false
  forceSetOrigin := false
  dirMask _ := false

def atHome (i : Axis) : ℚ := if i = .y ∨ i = .z then -10 else 0

/-- A jog of Y and Z beyond the envelope, which is cut off halfway. -/
theorem clipped_iff_diagonal :
    (∃ r, applyTravelLimits limitlessX (fun i => i != .a) (fun i => if i = .y ∨ i = .z then 10 else 0) (some atHome)
        (limitsSetWorkEnvelope limitlessX (fun i => i != .a) (fun _ => true)) = some r ∧
      Clipped limitlessX (fun i => i != .a) atHome (fun i => if i = .y ∨ i = .z then 10 else 0)
        (limitsSetWorkEnvelope limitlessX (fun i => i != .a) (fun _ => true)) r) ↔
      Unrestricted limitlessX (fun i => i != .a) atHome (fun i => if i = .y ∨ i = .z then 10 else 0)
        (limitsSetWorkEnvelope limitlessX (fun i => i != .a) (fun _ => true)) :=
  clipped_iff (by decide) (by decide +kernel)

/-- A jog of X and Y to X10 Y-20: Y is far from its limits, X has none, and the machine does not move at all. -/
theorem limitless_axis_stops_jog :
    let envelope := limitsSetWorkEnvelope limitlessX (fun i => i != .a) (fun _ => true)
    let target : Axis → ℚ := fun i => if i = .x then 10 else if i = .y then -20 else atHome i
    (∀ i, (i != .a) = true → envelope.Inside atHome i) ∧
      (applyTravelLimits limitlessX (fun i => i != .a) target (some atHome) envelope).map (fun r => Axis.all.map r) =
        some (Axis.all.map atHome) ∧
      ¬∃ r, applyTravelLimits limitlessX (fun i => i != .a) target (some atHome) envelope = some r ∧
        Clipped limitlessX (fun i => i != .a) atHome target envelope r := by
  intro envelope target
  have hstay : (applyTravelLimits limitlessX (fun i => i != .a) target (some atHome) envelope).map (fun r => Axis.all.map r) =
      some (Axis.all.map atHome) := by decide +kernel
  refine ⟨by decide +kernel, hstay, ?_⟩
  rintro ⟨r, hr, hclipped⟩
  rw [hr, hclipped.unchanged (by decide +kernel)] at hstay
  exact absurd hstay (by decide +kernel)

end

end Grbl.Limits
