import Mathlib
import Grbl.Lib.OrderedField

/-!
# Speed profiles over a chain of segments

A chain is a sequence of segments, each with a bound `cap i` on the value at which it may be
entered and a bound `gain i` on how far the value can change along it. After the last segment the
value is zero. (For motions the values are squared speeds and `gain` is twice the acceleration
times the length.)

* `stopFrom`, `Chain.stop c i` : the largest value at segment `i` from which the chain can still
  come to rest within all later caps;
* `reachFrom`, `Chain.reach c v i` : the largest value attainable at segment `i` when segment `0`
  is entered at `v`;
* `Chain.Optimal c e` : every later value is as large as `stop` and the gain before it allow;
* `Chain.reverse`, `Chain.forward`, `Chain.replan`, `Chain.mark` : a two-pass planner that starts
  at a marked segment, leaves a segment alone in the reverse pass when it is already at its cap,
  and moves the mark;
* `Planned c e p` : the invariant under which the values up to the mark are final;
* `Planned.replan`, `Planned.replan_eq_full` : appending a segment and replanning from the mark
  keeps the invariant, and gives what replanning from segment `0` gives;
* `replan_feasible_iff` : after an arbitrary change of the caps, replanning is feasible exactly
  when no segment left alone is entered faster than the chain can stop from.
-/

namespace Grbl.Lib
open scoped Grbl.Lib.OrderedField

/-! ## Stopping values -/

section
variable {K : Type*} [Add K] [LinearOrder K]

/-- The largest stopping value at segment `i` when `m` segments follow it. -/
def stopFrom (cap gain : ℕ → K) : ℕ → ℕ → K
  | 0, i => min (cap i) (gain i)
  | m + 1, i => min (cap i) (stopFrom cap gain m (i + 1) + gain i)

/-- The largest value attainable at segment `i` after entering segment `0` at `v`. -/
def reachFrom (cap gain : ℕ → K) (v : K) : ℕ → K
  | 0 => v
  | i + 1 => min (cap (i + 1)) (reachFrom cap gain v i + gain i)

end

/-- Segments with an entry cap and a bound on the change along each of them. -/
structure Chain (K : Type*) [AddCommGroup K] [LinearOrder K] where
  len : ℕ
  cap : ℕ → K
  gain : ℕ → K
  cap_nonneg : ∀ i < len, 0 ≤ cap i
  gain_nonneg : ∀ i < len, 0 ≤ gain i

namespace Chain

variable {K : Type*} [AddCommGroup K] [LinearOrder K]

/-- The largest value at segment `i` from which the chain can come to rest at its end. -/
def stop (c : Chain K) (i : ℕ) : K := stopFrom c.cap c.gain (c.len - 1 - i) i

/-- The largest value attainable at segment `i` after entering segment `0` at `v`. -/
def reach (c : Chain K) (v : K) (i : ℕ) : K := reachFrom c.cap c.gain v i

/-- Every value after the first is as large as the stopping value and the gain before it allow. -/
def Optimal (c : Chain K) (e : ℕ → K) : Prop :=
  ∀ i, i + 1 < c.len → e (i + 1) = min (c.stop (i + 1)) (e i + c.gain i)

theorem stop_last (c : Chain K) {i : ℕ} (hi : i + 1 = c.len) :
    c.stop i = min (c.cap i) (c.gain i) := by
  have h : c.len - 1 - i = 0 := by omega
  rw [stop, h, stopFrom]

theorem stop_succ (c : Chain K) {i : ℕ} (hi : i + 1 < c.len) :
    c.stop i = min (c.cap i) (c.stop (i + 1) + c.gain i) := by
  have h : c.len - 1 - i = (c.len - 1 - (i + 1)) + 1 := by omega
  rw [stop, h, stopFrom, stop]

theorem stop_le_cap (c : Chain K) {i : ℕ} (hi : i < c.len) : c.stop i ≤ c.cap i := by
  rcases Nat.eq_or_lt_of_le (Nat.succ_le_of_lt hi) with h | h
  · rw [stop_last c h]
    exact min_le_left _ _
  · rw [stop_succ c h]
    exact min_le_left _ _

theorem stop_le_add_gain (c : Chain K) {i : ℕ} (hi : i + 1 < c.len) :
    c.stop i ≤ c.stop (i + 1) + c.gain i := by
  rw [stop_succ c hi]
  exact min_le_right _ _

/-- Induction from the last segment back to the first. -/
theorem backward_induction (c : Chain K) {P : ℕ → Prop}
    (last : ∀ i, i + 1 = c.len → P i) (step : ∀ i, i + 1 < c.len → P (i + 1) → P i) :
    ∀ i < c.len, P i := by
  intro i hi
  obtain ⟨m, hm⟩ : ∃ m, i + 1 + m = c.len := ⟨c.len - (i + 1), by omega⟩
  induction m generalizing i with
  | zero => exact last i hm
  | succ m ih => exact step i (by omega) (ih (i + 1) (by omega) (by omega))

theorem optimal_unique (c : Chain K) {e f : ℕ → K} (he : c.Optimal e) (hf : c.Optimal f)
    (h : e 0 = f 0) : ∀ i < c.len, e i = f i := by
  intro i
  induction i with
  | zero => intro _; exact h
  | succ i ih =>
      intro hi
      rw [he i hi, hf i hi, ih (by omega)]

section Ordered
variable [IsOrderedAddMonoid K]

theorem stop_nonneg (c : Chain K) : ∀ i < c.len, 0 ≤ c.stop i := by
  refine c.backward_induction (fun i hi => ?_) (fun i hi ih => ?_)
  · rw [stop_last c hi]
    exact le_min (c.cap_nonneg i (by omega)) (c.gain_nonneg i (by omega))
  · rw [stop_succ c hi]
    exact le_min (c.cap_nonneg i (by omega)) (add_nonneg ih (c.gain_nonneg i (by omega)))

end Ordered

/-! ## The two passes -/

/-- Reverse pass at segment `i` with `m` segments after it: a segment at its cap is left alone. -/
def reverseFrom (c : Chain K) (e : ℕ → K) : ℕ → ℕ → K
  | 0, i => min (c.cap i) (c.gain i)
  | m + 1, i =>
      if e i = c.cap i then e i else min (c.cap i) (reverseFrom c e m (i + 1) + c.gain i)

/-- The value the reverse pass gives segment `i`. -/
def reverse (c : Chain K) (e : ℕ → K) (i : ℕ) : K := c.reverseFrom e (c.len - 1 - i) i

/-- The forward pass cuts the next value `w` to what is attainable from `v`. -/
def Cuts (c : Chain K) (i : ℕ) (v w : K) : Prop := v < w ∧ v + c.gain i < w

instance (c : Chain K) (i : ℕ) (v w : K) : Decidable (c.Cuts i v w) :=
  inferInstanceAs (Decidable (_ ∧ _))

/-- Forward pass over the values `r`, started at segment `p` with value `v`: the value `k`
segments later. -/
def forward (c : Chain K) (r : ℕ → K) (p : ℕ) (v : K) : ℕ → K
  | 0 => v
  | k + 1 =>
      let f := forward c r p v k
      if c.Cuts (p + k) f (r (p + k + 1)) then f + c.gain (p + k) else r (p + k + 1)

/-- Where the forward pass leaves the mark after `k` segments: the last segment it cut or found
at its cap. -/
def markFrom (c : Chain K) (r : ℕ → K) (p : ℕ) (v : K) : ℕ → ℕ
  | 0 => p
  | k + 1 =>
      if c.Cuts (p + k) (c.forward r p v k) (r (p + k + 1)) ∨
          c.forward r p v (k + 1) = c.cap (p + k + 1)
      then p + k + 1 else markFrom c r p v k

/-- Both passes from the mark `p` on. -/
def replan (c : Chain K) (e : ℕ → K) (p : ℕ) (i : ℕ) : K :=
  if i ≤ p then e i else c.forward (c.reverse e) p (e p) (i - p)

/-- The mark after both passes from the mark `p` on. -/
def mark (c : Chain K) (e : ℕ → K) (p : ℕ) : ℕ :=
  c.markFrom (c.reverse e) p (e p) (c.len - 1 - p)

theorem reverse_last (c : Chain K) (e : ℕ → K) {i : ℕ} (hi : i + 1 = c.len) :
    c.reverse e i = min (c.cap i) (c.gain i) := by
  have h : c.len - 1 - i = 0 := by omega
  rw [reverse, h, reverseFrom]

theorem reverse_succ (c : Chain K) (e : ℕ → K) {i : ℕ} (hi : i + 1 < c.len) :
    c.reverse e i =
      if e i = c.cap i then e i else min (c.cap i) (c.reverse e (i + 1) + c.gain i) := by
  have h : c.len - 1 - i = (c.len - 1 - (i + 1)) + 1 := by omega
  rw [reverse, h, reverseFrom, reverse]

theorem reverse_le_cap (c : Chain K) (e : ℕ → K) {i : ℕ} (hi : i < c.len) :
    c.reverse e i ≤ c.cap i := by
  rcases Nat.eq_or_lt_of_le (Nat.succ_le_of_lt hi) with h | h
  · rw [reverse_last c e h]
    exact min_le_left _ _
  · rw [reverse_succ c e h]
    split
    · next h => exact le_of_eq h
    · exact min_le_left _ _

theorem replan_of_le (c : Chain K) (e : ℕ → K) {p i : ℕ} (hi : i ≤ p) : c.replan e p i = e i :=
  if_pos hi

theorem replan_add (c : Chain K) (e : ℕ → K) (p k : ℕ) :
    c.replan e p (p + k) = c.forward (c.reverse e) p (e p) k := by
  cases k with
  | zero => rw [Nat.add_zero, replan_of_le c e le_rfl, forward]
  | succ k =>
      have h : ¬ p + (k + 1) ≤ p := by omega
      rw [replan, if_neg h, Nat.add_sub_cancel_left]

/-- When a segment left alone is already at its stopping value, the reverse pass computes the
stopping values. -/
theorem reverse_eq_stop (c : Chain K) {e : ℕ → K} {p : ℕ}
    (h : ∀ i, p < i → i + 1 < c.len → e i = c.cap i → c.stop i = c.cap i) :
    ∀ i < c.len, p < i → c.reverse e i = c.stop i := by
  refine c.backward_induction (fun i hi _ => ?_) (fun i hi ih hp => ?_)
  · rw [reverse_last c e hi, stop_last c hi]
  · rw [reverse_succ c e hi]
    split
    · next he => rw [he, h i hp hi he]
    · rw [ih (by omega), stop_succ c hi]

theorem markFrom_spec (c : Chain K) (r : ℕ → K) (p : ℕ) (v : K) (k : ℕ) :
    ∃ j ≤ k, c.markFrom r p v k = p + j ∧
      (j = 0 ∨ c.forward r p v j = c.cap (p + j) ∨ c.forward r p v j < r (p + j)) := by
  induction k with
  | zero => exact ⟨0, le_rfl, rfl, Or.inl rfl⟩
  | succ k ih =>
      rw [markFrom]
      split
      · next h =>
          refine ⟨k + 1, le_rfl, by omega, Or.inr ?_⟩
          rcases h with hcut | hcap
          · right
            rw [forward, if_pos hcut]
            exact hcut.2
          · exact Or.inl hcap
      · obtain ⟨j, hj, hm⟩ := ih
        exact ⟨j, by omega, hm⟩

section Ordered
variable [IsOrderedAddMonoid K]

theorem forward_succ (c : Chain K) (r : ℕ → K) {p : ℕ} (v : K) {k : ℕ} (hk : p + k < c.len) :
    c.forward r p v (k + 1) = min (r (p + k + 1)) (c.forward r p v k + c.gain (p + k)) := by
  have hg := c.gain_nonneg (p + k) hk
  rw [forward]
  split
  · next h => exact (min_eq_right h.2.le).symm
  · next h =>
      refine (min_eq_left ?_).symm
      by_contra hlt
      have hlt := not_le.1 hlt
      exact h ⟨lt_of_le_of_lt (le_add_of_nonneg_right hg) hlt, hlt⟩

theorem replan_succ (c : Chain K) (e : ℕ → K) {p i : ℕ} (hp : p ≤ i) (hi : i < c.len) :
    c.replan e p (i + 1) = min (c.reverse e (i + 1)) (c.replan e p i + c.gain i) := by
  obtain ⟨k, rfl⟩ := Nat.exists_eq_add_of_le hp
  rw [Nat.add_assoc, replan_add, replan_add, forward_succ c _ _ hi, Nat.add_assoc]

end Ordered

end Chain

/-! ## The incremental planner -/

variable {K : Type*} [AddCommGroup K] [LinearOrder K]

/-- The values are optimal after an admissible first one, and the marked segment can not be
entered faster: it is the first, or at its cap, or was reached with the whole gain before it. -/
structure Planned (c : Chain K) (e : ℕ → K) (p : ℕ) : Prop where
  mark_lt : p < c.len
  first : e 0 ≤ c.stop 0
  optimal : c.Optimal e
  pinned : p = 0 ∨ e p = c.cap p ∨ e p < c.stop p

/-- `d` is `c` with one more segment at the end. -/
structure Extends (c d : Chain K) : Prop where
  len : d.len = c.len + 1
  cap : ∀ i < c.len, d.cap i = c.cap i
  gain : ∀ i < c.len, d.gain i = c.gain i

/-- `d` is `c` without its first segment. -/
structure Drops (c d : Chain K) : Prop where
  len : c.len = d.len + 1
  cap : ∀ i < d.len, d.cap i = c.cap (i + 1)
  gain : ∀ i < d.len, d.gain i = c.gain (i + 1)

/-- The chain with one more segment at the end. -/
def Chain.snoc (c : Chain K) (x g : K) (hx : 0 ≤ x) (hg : 0 ≤ g) : Chain K where
  len := c.len + 1
  cap := fun i => if i < c.len then c.cap i else x
  gain := fun i => if i < c.len then c.gain i else g
  cap_nonneg := fun i _ => by
    split
    · next h => exact c.cap_nonneg i h
    · exact hx
  gain_nonneg := fun i _ => by
    split
    · next h => exact c.gain_nonneg i h
    · exact hg

theorem Chain.extends_snoc (c : Chain K) {x g : K} (hx : 0 ≤ x) (hg : 0 ≤ g) :
    Extends c (c.snoc x g hx hg) := ⟨rfl, fun _ h => if_pos h, fun _ h => if_pos h⟩

/-- The chain without its first segment. -/
def Chain.tail (c : Chain K) : Chain K where
  len := c.len - 1
  cap := fun i => c.cap (i + 1)
  gain := fun i => c.gain (i + 1)
  cap_nonneg := fun i h => c.cap_nonneg (i + 1) (by omega)
  gain_nonneg := fun i h => c.gain_nonneg (i + 1) (by omega)

theorem Chain.drops_tail (c : Chain K) (h : 0 < c.len) : Drops c c.tail :=
  ⟨by simp only [Chain.tail]; omega, fun _ _ => rfl, fun _ _ => rfl⟩

namespace Planned

variable {c d : Chain K} {e : ℕ → K} {p : ℕ}

theorem le_stop (h : Planned c e p) : ∀ i < c.len, e i ≤ c.stop i := by
  intro i hi
  cases i with
  | zero => exact h.first
  | succ i =>
      rw [h.optimal i hi]
      exact min_le_left _ _

theorem le_cap (h : Planned c e p) {i : ℕ} (hi : i < c.len) : e i ≤ c.cap i :=
  (h.le_stop i hi).trans (c.stop_le_cap hi)

theorem congr (h : Planned c e p) {f : ℕ → K} (hf : ∀ i < c.len, f i = e i) : Planned c f p where
  mark_lt := h.mark_lt
  first := by
    rw [hf 0 (by have := h.mark_lt; omega)]
    exact h.first
  optimal := by
    intro i hi
    rw [hf _ hi, hf i (by omega), h.optimal i hi]
  pinned := by
    rw [hf p h.mark_lt]
    exact h.pinned

theorem succ_le (h : Planned c e p) {i : ℕ} (hi : i + 1 < c.len) : e (i + 1) ≤ e i + c.gain i := by
  rw [h.optimal i hi]
  exact min_le_right _ _

theorem last_le (h : Planned c e p) {i : ℕ} (hi : i + 1 = c.len) : e i ≤ c.gain i := by
  refine (h.le_stop i (by omega)).trans ?_
  rw [c.stop_last hi]
  exact min_le_right _ _

section Ordered
variable [IsOrderedAddMonoid K]

theorem le_succ (h : Planned c e p) {i : ℕ} (hi : i + 1 < c.len) : e i ≤ e (i + 1) + c.gain i := by
  have hg := c.gain_nonneg i (by omega)
  rw [h.optimal i hi]
  rcases min_choice (c.stop (i + 1)) (e i + c.gain i) with hm | hm <;> rw [hm]
  · exact (h.le_stop i (by omega)).trans (c.stop_le_add_gain hi)
  · rw [add_assoc]
    exact le_add_of_nonneg_right (add_nonneg hg hg)

theorem single (c : Chain K) (hlen : c.len = 1) (he : e 0 = 0) : Planned c e 0 where
  mark_lt := by omega
  first := by
    rw [he]
    exact c.stop_nonneg 0 (by omega)
  optimal := by
    intro i hi
    omega
  pinned := Or.inl rfl

end Ordered

/-! ## Appending a segment -/

section Append
variable [IsOrderedAddMonoid K]

theorem stop_le_of_extends (hx : Extends c d) : ∀ i < c.len, c.stop i ≤ d.stop i := by
  have hlen := hx.len
  refine c.backward_induction (fun i hi => ?_) (fun i hi ih => ?_)
  · rw [c.stop_last hi, d.stop_succ (by omega), hx.cap i (by omega), hx.gain i (by omega)]
    exact min_le_min le_rfl (le_add_of_nonneg_left (d.stop_nonneg (i + 1) (by omega)))
  · rw [c.stop_succ hi, d.stop_succ (by omega), hx.cap i (by omega), hx.gain i (by omega)]
    exact min_le_min le_rfl (add_le_add_left ih _)

/-- Below the mark, a stopping value that is met stays the stopping value: the mark is pinned,
and the deceleration towards it ends at a cap. -/
theorem stop_eq_of_met (h : Planned c e p) (hx : Extends c d) :
    ∀ k i, i + k = p → 0 < p → e i = c.stop i → d.stop i = c.stop i := by
  have hlen := hx.len
  have hp := h.mark_lt
  intro k
  induction k with
  | zero =>
      intro i hi h0 he
      obtain rfl : i = p := by omega
      rcases h.pinned with h | hcap | hlt
      · omega
      · have hle := stop_le_of_extends hx i hp
        have hcap' := d.stop_le_cap (i := i) (by omega)
        rw [hx.cap i hp, ← hcap, he] at hcap'
        exact le_antisymm hcap' hle
      · exact absurd he hlt.ne
  | succ k ih =>
      intro i hi h0 he
      have hg := c.gain_nonneg i (by omega)
      rw [d.stop_succ (by omega), hx.cap i (by omega), hx.gain i (by omega)]
      rcases min_choice (c.cap i) (c.stop (i + 1) + c.gain i) with hm | hm
      · -- the segment is at its cap
        have hs := c.stop_succ (i := i) (by omega)
        rw [hm] at hs
        have hle : c.cap i ≤ d.stop (i + 1) + c.gain i := by
          calc c.cap i ≤ c.stop (i + 1) + c.gain i := hm ▸ min_le_right _ _
            _ ≤ d.stop (i + 1) + c.gain i :=
                add_le_add_left (stop_le_of_extends hx (i + 1) (by omega)) _
        rw [min_eq_left hle, hs]
      · -- the chain decelerates along the segment, so the next value is met as well
        have hs := c.stop_succ (i := i) (by omega)
        rw [hm] at hs
        have hnext : e (i + 1) = c.stop (i + 1) := by
          rw [h.optimal i (by omega), he, hs]
          refine min_eq_left ?_
          rw [add_assoc]
          exact le_add_of_nonneg_right (add_nonneg hg hg)
        rw [ih (i + 1) (by omega) h0 hnext, hm, hs]

theorem prefix_optimal (h : Planned c e p) (hx : Extends c d) {i : ℕ} (hi : i + 1 ≤ p) :
    e (i + 1) = min (d.stop (i + 1)) (e i + d.gain i) := by
  have hp := h.mark_lt
  rw [hx.gain i (by omega)]
  have ho := h.optimal i (by omega)
  rcases min_choice (c.stop (i + 1)) (e i + c.gain i) with hm | hm
  · rw [hm] at ho
    rw [h.stop_eq_of_met hx (p - (i + 1)) (i + 1) (by omega) (by omega) ho]
    exact h.optimal i (by omega)
  · rw [hm] at ho
    have hle := stop_le_of_extends hx (i + 1) (by omega)
    rw [ho]
    refine (min_eq_right (le_trans ?_ hle)).symm
    exact hm ▸ min_le_left _ _

theorem kept_eq_stop (h : Planned c e p) (hx : Extends c d) {i : ℕ} (hi : i + 1 < d.len)
    (he : e i = d.cap i) : d.stop i = d.cap i := by
  have hlen := hx.len
  refine le_antisymm (d.stop_le_cap (by omega)) ?_
  rw [← he]
  exact (h.le_stop i (by omega)).trans (stop_le_of_extends hx i (by omega))

theorem replan_optimal (h : Planned c e p) (hx : Extends c d) {q : ℕ} (hq : q ≤ p) :
    d.Optimal (d.replan e q) := by
  have hp := h.mark_lt
  have hlen := hx.len
  intro i hi
  rcases Nat.lt_or_ge i q with hiq | hiq
  · rw [d.replan_of_le e hiq, d.replan_of_le e hiq.le]
    exact h.prefix_optimal hx (by omega)
  · rw [d.replan_succ e hiq (by omega),
      d.reverse_eq_stop (p := q) (fun j _ hj => h.kept_eq_stop hx hj) (i + 1) hi (by omega)]

theorem replan (h : Planned c e p) (hx : Extends c d) :
    Planned d (d.replan e p) (d.mark e p) := by
  have hp := h.mark_lt
  have hlen := hx.len
  obtain ⟨j, hj, hm, hpin⟩ := d.markFrom_spec (d.reverse e) p (e p) (d.len - 1 - p)
  have hmark : d.mark e p = p + j := hm
  have hlt : p + j < d.len := by omega
  refine ⟨by omega, ?_, h.replan_optimal hx le_rfl, ?_⟩
  · rw [d.replan_of_le e (Nat.zero_le p)]
    exact h.first.trans (stop_le_of_extends hx 0 (by omega))
  · rw [hmark, d.replan_add]
    rcases Nat.eq_zero_or_pos j with rfl | hj0
    · rw [Nat.add_zero, Chain.forward]
      rcases h.pinned with h0 | hcap | hstop
      · exact Or.inl h0
      · exact Or.inr (Or.inl (hcap.trans (hx.cap p hp).symm))
      · exact Or.inr (Or.inr (hstop.trans_le (stop_le_of_extends hx p hp)))
    · rcases hpin with h0 | hcap | hcut
      · omega
      · exact Or.inr (Or.inl hcap)
      · rw [d.reverse_eq_stop (p := p) (fun i _ hi => h.kept_eq_stop hx hi) (p + j) hlt
          (by omega)] at hcut
        exact Or.inr (Or.inr hcut)

theorem replan_eq_full (h : Planned c e p) (hx : Extends c d) :
    ∀ i < d.len, d.replan e p i = d.replan e 0 i :=
  d.optimal_unique (h.replan_optimal hx le_rfl) (h.replan_optimal hx (Nat.zero_le p))
    (by rw [d.replan_of_le e (Nat.zero_le p), d.replan_of_le e le_rfl])

end Append

theorem replan_self [IsOrderedAddMonoid K] (h : Planned c e p) :
    ∀ i < c.len, c.replan e 0 i = e i := by
  refine c.optimal_unique (fun i hi => ?_) h.optimal (c.replan_of_le e le_rfl)
  rw [c.replan_succ e (Nat.zero_le i) (by omega),
    c.reverse_eq_stop (p := 0) (fun j _ hj he => ?_) (i + 1) hi (by omega)]
  exact le_antisymm (c.stop_le_cap (by omega)) (he ▸ h.le_stop j (by omega))

/-! ## Dropping the first segment -/

theorem stop_of_drops (hx : Drops c d) : ∀ i < d.len, d.stop i = c.stop (i + 1) := by
  have hlen := hx.len
  refine d.backward_induction (fun i hi => ?_) (fun i hi ih => ?_)
  · rw [d.stop_last hi, c.stop_last (by omega), hx.cap i (by omega), hx.gain i (by omega)]
  · rw [d.stop_succ hi, c.stop_succ (by omega), hx.cap i (by omega), hx.gain i (by omega), ih]

/-- Dropping the first segment keeps the invariant; a mark on it moves to the next one. -/
theorem drop (h : Planned c e p) (hx : Drops c d) (hd : 0 < d.len) :
    Planned d (fun i => e (i + 1)) (p - 1) := by
  have hlen := hx.len
  have hp := h.mark_lt
  refine ⟨by omega, ?_, ?_, ?_⟩
  · rw [stop_of_drops hx 0 hd]
    exact h.le_stop 1 (by omega)
  · intro i hi
    rw [stop_of_drops hx (i + 1) hi, hx.gain i (by omega)]
    exact h.optimal (i + 1) (by omega)
  · rcases Nat.eq_zero_or_pos p with rfl | hp0
    · exact Or.inl rfl
    · obtain ⟨q, rfl⟩ : ∃ q, p = q + 1 := ⟨p - 1, by omega⟩
      rw [Nat.add_sub_cancel, hx.cap q (by omega), stop_of_drops hx q (by omega)]
      rcases h.pinned with h0 | hpin
      · omega
      · exact Or.inr hpin

end Planned

/-! ## Replanning after the caps have changed -/

namespace Chain

/-- A segment before the last that the reverse pass leaves alone; the first one counts if it is `free`. -/
def Kept (c : Chain K) (free : Prop) (e : ℕ → K) (i : ℕ) : Prop :=
  i + 1 < c.len ∧ (i = 0 ∧ free ∨ 0 < i ∧ e i = c.cap i)

/-- Segment `i` is entered within its cap, and the gain along it suffices in both directions. -/
structure FeasibleAt (c : Chain K) (f : ℕ → K) (i : ℕ) : Prop where
  le_cap : f i ≤ c.cap i
  le_succ : f i ≤ f (i + 1) + c.gain i
  succ_le : f (i + 1) ≤ f i + c.gain i

/-- Every pair of neighbours is feasible; the first one counts if it is `free`. -/
def Feasible (c : Chain K) (free : Prop) (f : ℕ → K) : Prop := ∀ i, (i = 0 → free) → i + 1 < c.len → c.FeasibleAt f i

theorem reach_succ (c : Chain K) (v : K) (i : ℕ) :
    c.reach v (i + 1) = min (c.cap (i + 1)) (c.reach v i + c.gain i) := rfl

theorem replan_zero (c : Chain K) (e : ℕ → K) : c.replan e 0 0 = e 0 := c.replan_of_le e le_rfl

variable [IsOrderedAddMonoid K] {c : Chain K} {free : Prop} {e : ℕ → K}

theorem stop_le_reverse (c : Chain K) (e : ℕ → K) : ∀ i < c.len, c.stop i ≤ c.reverse e i := by
  refine c.backward_induction (fun i hi => ?_) (fun i hi ih => ?_)
  · rw [c.stop_last hi, c.reverse_last e hi]
  · rw [c.reverse_succ e hi]
    split
    · next he =>
        rw [he]
        exact c.stop_le_cap (by omega)
    · rw [c.stop_succ hi]
      exact min_le_min le_rfl (add_le_add_left ih _)

theorem replan_le_reverse (c : Chain K) (e : ℕ → K) {i : ℕ} (hi : i + 1 < c.len) :
    c.replan e 0 (i + 1) ≤ c.reverse e (i + 1) := by
  rw [c.replan_succ e (Nat.zero_le i) (by omega)]
  exact min_le_left _ _

theorem replan_le_reach (c : Chain K) (e : ℕ → K) :
    ∀ i < c.len, c.replan e 0 i ≤ c.reach (e 0) i := by
  intro i
  induction i with
  | zero =>
      intro _
      rw [replan_zero]
      exact le_rfl
  | succ i ih =>
      intro hi
      rw [c.replan_succ e (Nat.zero_le i) (by omega), reach_succ]
      exact min_le_min (c.reverse_le_cap e hi) (add_le_add_left (ih (by omega)) _)

theorem reach_le_replan_or (hpos : ∀ i, 0 < i → i + 1 < c.len → 0 < c.gain i) :
    ∀ i < c.len, c.reach (e 0) i ≤ c.replan e 0 i ∨ 0 < i ∧ c.replan e 0 i = c.reverse e i := by
  intro i
  induction i with
  | zero =>
      intro _
      rw [replan_zero]
      exact Or.inl le_rfl
  | succ i ih =>
      intro hi
      rw [c.replan_succ e (Nat.zero_le i) (by omega)]
      rcases min_choice (c.reverse e (i + 1)) (c.replan e 0 i + c.gain i) with hm | hm
      · exact Or.inr ⟨Nat.succ_pos i, hm⟩
      · rw [hm]
        left
        have hle : c.replan e 0 i + c.gain i ≤ c.reverse e (i + 1) := hm ▸ min_le_left _ _
        rw [reach_succ]
        rcases ih (by omega) with hr | ⟨h0, hr⟩
        · exact (min_le_right _ _).trans (add_le_add_left hr _)
        · -- the reverse pass did not brake along segment `i`, so it left the segment at its cap
          have hcap : c.replan e 0 i = c.cap i := by
            rw [c.reverse_succ e hi] at hr
            split at hr
            · next he => rw [hr, he]
            · rw [hr]
              refine min_eq_left (le_of_not_ge fun hge => ?_)
              rw [hr, min_eq_right hge] at hle
              have hg := hpos i h0 hi
              have hlt : c.reverse e (i + 1) < c.reverse e (i + 1) + c.gain i + c.gain i := by
                rw [add_assoc]
                exact lt_add_of_pos_right _ (add_pos hg hg)
              exact absurd hle (not_le.2 hlt)
          obtain ⟨k, rfl⟩ : ∃ k, i = k + 1 := ⟨i - 1, by omega⟩
          refine (min_le_right _ _).trans (add_le_add_left ?_ _)
          rw [hcap, reach_succ]
          exact min_le_left _ _

theorem replan_le_stop_of_feasible (hf : c.Feasible free (c.replan e 0)) :
    ∀ i < c.len, (i = 0 → free ∧ 1 < c.len) → c.replan e 0 i ≤ c.stop i := by
  refine c.backward_induction (fun i hi h0 => ?_) (fun i hi ih h0 => ?_)
  · obtain ⟨k, rfl⟩ : ∃ k, i = k + 1 := ⟨i - 1, by by_contra hne; have := (h0 (by omega)).2; omega⟩
    rw [c.stop_last hi, ← c.reverse_last e hi, c.replan_succ e (Nat.zero_le k) (by omega)]
    exact min_le_left _ _
  · rw [c.stop_succ hi]
    have h := hf i (fun hi => (h0 hi).1) hi
    exact le_min h.le_cap (h.le_succ.trans (add_le_add_left (ih (fun hne => absurd hne i.succ_ne_zero)) _))

theorem replan_le_succ {i : ℕ} (hi : i + 1 < c.len) (h : c.replan e 0 i ≤ c.reverse e (i + 1) + c.gain i) :
    c.replan e 0 i ≤ c.replan e 0 (i + 1) + c.gain i := by
  have hg := c.gain_nonneg i (by omega)
  rw [c.replan_succ e (Nat.zero_le i) (by omega)]
  rcases min_choice (c.reverse e (i + 1)) (c.replan e 0 i + c.gain i) with hm | hm <;> rw [hm]
  · exact h
  · rw [add_assoc]
    exact le_add_of_nonneg_right (add_nonneg hg hg)

/-- Replanning the whole chain from arbitrary old values is feasible exactly when every segment it
leaves alone can be stopped from at the value attainable there. -/
theorem replan_feasible_iff (hpos : ∀ i, 0 < i → i + 1 < c.len → 0 < c.gain i) :
    c.Feasible free (c.replan e 0) ↔ ∀ i, c.Kept free e i → c.reach (e 0) i ≤ c.stop i := by
  constructor
  · rintro hf i ⟨hi, hk⟩
    rcases hk with ⟨rfl, hfree⟩ | ⟨h0, hcap⟩
    · have hstop := replan_le_stop_of_feasible hf 0 (by omega) fun _ => ⟨hfree, hi⟩
      rw [replan_zero] at hstop
      exact hstop
    have hstop := replan_le_stop_of_feasible hf i (by omega) fun hne => absurd hne h0.ne'
    rcases reach_le_replan_or (e := e) hpos i (by omega) with hr | ⟨_, hr⟩
    · exact hr.trans hstop
    · obtain ⟨k, rfl⟩ : ∃ k, i = k + 1 := ⟨i - 1, by omega⟩
      rw [c.reverse_succ e hi, if_pos hcap, hcap] at hr
      refine le_trans ?_ hstop
      rw [hr, reach_succ]
      exact min_le_left _ _
  · intro h i hfree hi
    have hkept : c.reach (e 0) i ≤ c.stop i → c.replan e 0 i ≤ c.reverse e (i + 1) + c.gain i := fun hle =>
      calc c.replan e 0 i ≤ c.reach (e 0) i := c.replan_le_reach e i (by omega)
        _ ≤ c.stop i := hle
        _ ≤ c.stop (i + 1) + c.gain i := c.stop_le_add_gain hi
        _ ≤ c.reverse e (i + 1) + c.gain i := add_le_add_left (c.stop_le_reverse e (i + 1) hi) _
    have hsucc : c.replan e 0 (i + 1) ≤ c.replan e 0 i + c.gain i := by
      rw [c.replan_succ e (Nat.zero_le i) (by omega)]
      exact min_le_right _ _
    cases i with
    | zero =>
        have hle := h 0 ⟨hi, .inl ⟨rfl, hfree rfl⟩⟩
        refine ⟨?_, replan_le_succ hi (hkept hle), hsucc⟩
        rw [replan_zero]
        exact hle.trans (c.stop_le_cap (by omega))
    | succ k =>
        have hrev := c.replan_le_reverse e (i := k) (by omega)
        refine ⟨hrev.trans (c.reverse_le_cap e (by omega)), replan_le_succ hi ?_, hsucc⟩
        have hbrake := hrev
        rw [c.reverse_succ e hi] at hbrake
        split at hbrake
        · next he => exact hkept (h (k + 1) ⟨hi, .inr ⟨k.succ_pos, he⟩⟩)
        · exact hbrake.trans (min_le_right _ _)

end Chain

end Grbl.Lib
