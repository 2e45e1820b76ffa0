import Grbl.Planner.Recalculate
import Grbl.Lib.SpeedProfile

/-!
# The planner buffer as a chain of segments

* `Planner.slotAt s k` : the slot of the `k`-th queued block;
* `Planner.Ring s n p` : the buffer holds `n` blocks and the planned pointer is at the `p`-th;
* `Planner.View s c e p` : the queued blocks are the segments of the chain `c`, with entry speeds
  `e` and the mark `p`;
* `Planner.OnlySpeeds s t` : `t` differs from `s` in entry speeds and the planned pointer only;
* `View.plannerRecalculate` : `planner_recalculate` is `Chain.replan` and `Chain.mark`;
* `Ring.plannerRecalculate`, `OnlySpeeds.plannerRecalculate` : what it leaves alone in any state.
-/

namespace Grbl.Planner

open Lib

/-- The slot of the `k`-th queued block, counted from the tail. -/
def slotAt (s : Planner) (k : ℕ) : ℕ := slot s.size s.tail k

/-- The buffer holds `n` blocks, and the planned pointer is at the `p`-th of them. -/
structure Ring (s : Planner) (n p : ℕ) : Prop where
  tail_lt : s.tail < s.size + 1
  le_size : n ≤ s.size
  head : s.head = s.slotAt n
  nextHead : s.nextHead = s.slotAt (n + 1)
  planned : s.planned = s.slotAt p
  planned_lt : p < n ∨ n = 0 ∧ p = 0

/-- The queued blocks are the segments of `c`, entered at `e`, with the planned pointer at `p`. -/
structure View (s : Planner) (c : Chain ℚ) (e : ℕ → ℚ) (p : ℕ) : Prop where
  ring : Ring s c.len p
  cap : ∀ k < c.len, s.maxEntry (s.slotAt k) = c.cap k
  gain : ∀ k < c.len, s.gain (s.slotAt k) = c.gain k
  entry : ∀ k < c.len, s.entry (s.slotAt k) = e k

/-- Only entry speeds, the planned pointer and the stepper's reload flag differ. -/
structure OnlySpeeds (s t : Planner) : Prop where
  size : t.size = s.size
  tail : t.tail = s.tail
  head : t.head = s.head
  nextHead : t.nextHead = s.nextHead
  position : t.position = s.position
  previousNominalSpeed : t.previousNominalSpeed = s.previousNominalSpeed
  override : t.override = s.override
  direction : t.direction = s.direction
  idle : s.currentSpeed = none → t.currentSpeed = none
  executing : t.executing = s.executing
  block : ∀ i, t.blocks i = { s.blocks i with entrySpeedSqr := (t.blocks i).entrySpeedSqr }

namespace OnlySpeeds

theorem refl (s : Planner) : OnlySpeeds s s :=
  ⟨rfl, rfl, rfl, rfl, rfl, rfl, rfl, rfl, id, rfl, fun _ => rfl⟩

theorem trans {s t u : Planner} (h₁ : OnlySpeeds s t) (h₂ : OnlySpeeds t u) : OnlySpeeds s u where
  size := h₂.size.trans h₁.size
  tail := h₂.tail.trans h₁.tail
  head := h₂.head.trans h₁.head
  nextHead := h₂.nextHead.trans h₁.nextHead
  position := h₂.position.trans h₁.position
  previousNominalSpeed := h₂.previousNominalSpeed.trans h₁.previousNominalSpeed
  override := h₂.override.trans h₁.override
  direction := h₂.direction.trans h₁.direction
  idle := fun h => h₂.idle (h₁.idle h)
  executing := h₂.executing.trans h₁.executing
  block := fun i => by
    have hu := h₂.block i
    rw [h₁.block i] at hu
    exact hu

theorem setEntry (s : Planner) (i : ℕ) (v : ℚ) : OnlySpeeds s (s.setEntry i v) := by
  refine ⟨rfl, rfl, rfl, rfl, rfl, rfl, rfl, rfl, id, rfl, fun j => ?_⟩
  by_cases h : j = i
  · subst h
    simp [Planner.setEntry, setBlock]
  · simp [Planner.setEntry, setBlock, h]

theorem setPlanned (s : Planner) (i : ℕ) : OnlySpeeds s { s with planned := i } :=
  ⟨rfl, rfl, rfl, rfl, rfl, rfl, rfl, rfl, id, rfl, fun _ => rfl⟩

theorem reload {s : Planner} {v : ℚ} (h : s.currentSpeed = some v) :
    OnlySpeeds s { s with currentSpeed := none, velocityProfile := true } :=
  ⟨rfl, rfl, rfl, rfl, rfl, rfl, rfl, rfl, fun _ => rfl, by simp [Planner.executing, h], fun _ => rfl⟩

theorem stUpdate (s : Planner) : OnlySpeeds s s.stUpdatePlanBlockParameters := by
  unfold stUpdatePlanBlockParameters
  split
  · exact refl s
  · next v hv => exact (setEntry s s.tail (v * v)).trans (reload (s := s.setEntry s.tail (v * v)) hv)

theorem slotAt {s t : Planner} (h : OnlySpeeds s t) (k : ℕ) : t.slotAt k = s.slotAt k := by
  rw [Planner.slotAt, Planner.slotAt, h.size, h.tail]

theorem updateTail (s : Planner) (i : ℕ) : OnlySpeeds s (s.updateTail i) := by
  unfold Planner.updateTail
  split
  · exact stUpdate s
  · exact refl s

theorem reverseStep (s : Planner) (i j : ℕ) : OnlySpeeds s (s.reverseStep i j) := by
  unfold Planner.reverseStep
  split
  · exact setEntry s _ _
  · exact refl s

theorem cutNext (s : Planner) (i j : ℕ) : OnlySpeeds s (s.cutNext i j) := by
  unfold Planner.cutNext
  dsimp only
  split_ifs
  · exact (setEntry s _ _).trans (setPlanned _ _)
  · exact refl s
  · exact refl s

theorem markNext (s : Planner) (i : ℕ) : OnlySpeeds s (s.markNext i) := by
  unfold Planner.markNext
  split
  · exact setPlanned s _
  · exact refl s

theorem reversePass (fuel : ℕ) : ∀ s i j, OnlySpeeds s (reversePass fuel s i j) := by
  induction fuel with
  | zero => intro s i j; exact refl s
  | succ fuel ih =>
      intro s i j
      rw [Planner.reversePass]
      split
      · exact refl s
      · exact ((updateTail s _).trans (reverseStep _ _ _)).trans (ih _ _ _)

theorem forwardPass (fuel : ℕ) : ∀ s i j, OnlySpeeds s (forwardPass fuel s i j) := by
  induction fuel with
  | zero => intro s i j; exact refl s
  | succ fuel ih =>
      intro s i j
      rw [Planner.forwardPass]
      split
      · exact refl s
      · exact ((cutNext s _ _).trans (markNext _ _)).trans (ih _ _ _)

theorem planReverse (s : Planner) (i : ℕ) : OnlySpeeds s (s.planReverse i) := by
  unfold Planner.planReverse
  dsimp only
  split
  · exact updateTail s _
  · exact reversePass _ s _ _

theorem plannerRecalculate (s : Planner) : OnlySpeeds s s.plannerRecalculate := by
  unfold Planner.plannerRecalculate
  dsimp only
  split
  · exact refl s
  · exact ((setEntry s _ _).trans (planReverse _ _)).trans (forwardPass _ _ _ _)

end OnlySpeeds

/-! ## Walking the ring -/

namespace Ring

variable {s : Planner} {n p : ℕ}

theorem planned_le (h : Ring s n p) : p ≤ n := by
  rcases h.planned_lt with hp | hp <;> omega

theorem prev_head (h : Ring s n p) (hn : 0 < n) : s.prev s.head = s.slotAt (n - 1) := by
  obtain ⟨m, rfl⟩ : ∃ m, n = m + 1 := ⟨n - 1, by omega⟩
  rw [prev, h.head, Planner.slotAt, ringPrev_slot, Planner.slotAt, Nat.add_sub_cancel]

theorem slotAt_inj (h : Ring s n p) {j k : ℕ} (hj : j ≤ n) (hk : k ≤ n) :
    s.slotAt j = s.slotAt k ↔ j = k := by
  have hn := h.le_size
  exact slot_eq_iff (by omega) (by omega)

theorem slotAt_zero (h : Ring s n p) : s.slotAt 0 = s.tail := slot_zero h.tail_lt

theorem eq_planned (h : Ring s n p) {k : ℕ} (hk : k ≤ n) : s.slotAt k = s.planned ↔ k = p := by
  rw [h.planned]
  exact h.slotAt_inj hk h.planned_le

theorem eq_tail (h : Ring s n p) {k : ℕ} (hk : k ≤ n) : s.slotAt k = s.tail ↔ k = 0 := by
  rw [← h.slotAt_zero]
  exact h.slotAt_inj hk (Nat.zero_le n)

theorem eq_head (h : Ring s n p) {k : ℕ} (hk : k ≤ n) : s.slotAt k = s.head ↔ k = n := by
  rw [h.head]
  exact h.slotAt_inj hk le_rfl

theorem head_eq_tail (h : Ring s n p) : s.head = s.tail ↔ n = 0 := by
  rw [h.head]
  exact h.eq_tail le_rfl

theorem full_iff (h : Ring s n p) : s.tail = s.nextHead ↔ n = s.size := by
  have hn := h.le_size
  have ht := h.tail_lt
  rw [h.nextHead]
  constructor
  · intro heq
    by_contra hne
    have hz : slot s.size s.tail 0 = slot s.size s.tail (n + 1) := (slot_zero ht).trans heq
    have := slot_inj (by omega) (by omega) hz
    omega
  · rintro rfl
    rw [Planner.slotAt, ← slot_add, slot]
    simp only [slot, Nat.mod_add_mod]
    rw [Nat.add_assoc, Nat.add_mod_right, Nat.mod_eq_of_lt ht]

theorem onlySpeeds {t : Planner} (h : Ring s n p) (hs : OnlySpeeds s t) {q : ℕ}
    (hp : t.planned = s.slotAt q) (hq : q < n ∨ n = 0 ∧ q = 0) : Ring t n q where
  tail_lt := by rw [hs.size, hs.tail]; exact h.tail_lt
  le_size := by rw [hs.size]; exact h.le_size
  head := by rw [hs.head, hs.slotAt, h.head]
  nextHead := by rw [hs.nextHead, hs.slotAt, h.nextHead]
  planned := by rw [hs.slotAt, hp]
  planned_lt := hq

end Ring

theorem slotAt_next (s : Planner) (k : ℕ) : s.next (s.slotAt k) = s.slotAt (k + 1) :=
  ringNext_slot s.size s.tail k

theorem slotAt_prev (s : Planner) (k : ℕ) : s.prev (s.slotAt (k + 1)) = s.slotAt k :=
  ringPrev_slot s.size s.tail k

/-! ## The passes over a view -/

theorem entry_setEntry (s : Planner) (i j : ℕ) (v : ℚ) :
    (s.setEntry i v).entry j = if j = i then v else s.entry j := by
  by_cases h : j = i
  · subst h
    simp [entry, setEntry, setBlock]
  · simp [entry, setEntry, setBlock, h]

theorem maxEntry_of_onlySpeeds {s t : Planner} (h : OnlySpeeds s t) (i : ℕ) :
    t.maxEntry i = s.maxEntry i := by
  rw [maxEntry, h.block i, maxEntry]

theorem gain_of_onlySpeeds {s t : Planner} (h : OnlySpeeds s t) (i : ℕ) :
    t.gain i = s.gain i := by
  rw [gain, h.block i, gain, PlanBlock.gain, PlanBlock.gain]

namespace View

variable {s t : Planner} {c : Chain ℚ} {e : ℕ → ℚ} {p : ℕ}

theorem onlySpeeds (h : View s c e p) (hs : OnlySpeeds s t) {f : ℕ → ℚ} {q : ℕ}
    (hp : t.planned = s.slotAt q) (hq : q < c.len ∨ c.len = 0 ∧ q = 0)
    (hf : ∀ k < c.len, t.entry (s.slotAt k) = f k) : View t c f q where
  ring := h.ring.onlySpeeds hs hp hq
  cap := fun k hk => by rw [hs.slotAt, maxEntry_of_onlySpeeds hs, h.cap k hk]
  gain := fun k hk => by rw [hs.slotAt, gain_of_onlySpeeds hs, h.gain k hk]
  entry := fun k hk => by rw [hs.slotAt, hf k hk]

theorem congr (h : View s c e p) {f : ℕ → ℚ} (hf : ∀ k < c.len, f k = e k) : View s c f p where
  ring := h.ring
  cap := h.cap
  gain := h.gain
  entry := fun k hk => (h.entry k hk).trans (hf k hk).symm

theorem setEntry (h : View s c e p) {k : ℕ} (hk : k < c.len) (v : ℚ) :
    View (s.setEntry (s.slotAt k) v) c (Function.update e k v) p := by
  refine h.onlySpeeds (OnlySpeeds.setEntry s _ v) h.ring.planned h.ring.planned_lt fun j hj => ?_
  rw [entry_setEntry, Function.update_apply]
  by_cases hjk : j = k
  · rw [if_pos (by rw [hjk]), if_pos hjk]
  · rw [if_neg (fun he => hjk ((h.ring.slotAt_inj hj.le hk.le).1 he)), if_neg hjk, h.entry j hj]

theorem setPlanned (h : View s c e p) {q i : ℕ} (hi : i = s.slotAt q) (hq : q < c.len) :
    View { s with planned := i } c e q :=
  h.onlySpeeds (OnlySpeeds.setPlanned s i) hi (Or.inl hq) h.entry

theorem updateTail (h : View s c e p) (hc : s.currentSpeed = none) (i : ℕ) :
    View (s.updateTail i) c e p := by
  have hs : s.updateTail i = s := by
    unfold Planner.updateTail stUpdatePlanBlockParameters
    rw [hc, ite_self]
  rw [hs]
  exact h

theorem reverseStep (h : View s c e p) {k : ℕ} (hk : k + 1 < c.len) :
    View (s.reverseStep (s.slotAt (k + 1)) (s.slotAt k)) c
      (Function.update e k (if e k = c.cap k then e k else min (c.cap k) (e (k + 1) + c.gain k)))
      p := by
  unfold Planner.reverseStep
  rw [h.entry k (by omega), h.cap k (by omega), h.gain k (by omega), h.entry (k + 1) hk]
  by_cases he : e k = c.cap k
  · rw [if_neg (not_not.2 he), if_pos he, Function.update_eq_self]
    exact h
  · rw [if_pos he, if_neg he]
    have hmin : (if e (k + 1) + c.gain k < c.cap k then e (k + 1) + c.gain k else c.cap k)
        = min (c.cap k) (e (k + 1) + c.gain k) := by
      split
      · next hlt => exact (min_eq_right hlt.le).symm
      · next hge => exact (min_eq_left (not_lt.1 hge)).symm
    dsimp only
    rw [hmin]
    exact h.setEntry (by omega) _

theorem reversePass {e₀ : ℕ → ℚ} (m : ℕ) : ∀ (fuel k : ℕ) (s : Planner) (e : ℕ → ℚ),
    m < fuel → k = p + m → View s c e p → s.currentSpeed = none → k + 1 < c.len →
    (∀ j ≤ k, e j = e₀ j) → (∀ j < c.len, k < j → e j = c.reverse e₀ j) →
    View (reversePass fuel s (s.slotAt (k + 1)) (s.slotAt k)) c
      (fun j => if p < j then c.reverse e₀ j else e₀ j) p := by
  induction m with
  | zero =>
      intro fuel k s e hfuel hk h _ hlt hlo hhi
      obtain ⟨fuel, rfl⟩ : ∃ f, fuel = f + 1 := ⟨fuel - 1, by omega⟩
      rw [Planner.reversePass, if_pos ((h.ring.eq_planned (by omega)).2 hk)]
      refine h.congr fun j hj => ?_
      split
      · next hpj => exact (hhi j hj (by omega)).symm
      · next hpj => exact (hlo j (by omega)).symm
  | succ m ih =>
      intro fuel k s e hfuel hk h hc hlt hlo hhi
      obtain ⟨fuel, rfl⟩ : ∃ f, fuel = f + 1 := ⟨fuel - 1, by omega⟩
      obtain ⟨l, rfl⟩ : ∃ l, k = l + 1 := ⟨k - 1, by omega⟩
      have hne : ¬ s.slotAt (l + 1) = s.planned := by
        rw [h.ring.eq_planned (by omega)]
        omega
      rw [Planner.reversePass, if_neg hne, slotAt_prev]
      dsimp only
      have hts := OnlySpeeds.updateTail s (s.slotAt l)
      have hs := hts.trans (OnlySpeeds.reverseStep _ (s.slotAt (l + 1 + 1)) (s.slotAt (l + 1)))
      have hr := (h.updateTail hc (s.slotAt l)).reverseStep hlt
      rw [hts.slotAt, hts.slotAt] at hr
      have key := ih fuel l _ _ (by omega) (by omega) hr (hs.idle hc) (by omega) ?_ ?_
      · rw [hs.slotAt, hs.slotAt] at key
        exact key
      · intro j hj
        rw [Function.update_of_ne (by omega), hlo j (by omega)]
      · intro j hj hlj
        by_cases hjl : j = l + 1
        · subst hjl
          rw [Function.update_self, hlo _ le_rfl, hhi _ hlt (by omega), c.reverse_succ e₀ hlt]
        · rw [Function.update_of_ne hjl]
          exact hhi j hj (by omega)

theorem cutNext (h : View s c e p) {k : ℕ} (hk : k + 1 < c.len) :
    View (s.cutNext (s.slotAt k) (s.slotAt (k + 1))) c
      (Function.update e (k + 1)
        (if c.Cuts k (e k) (e (k + 1)) then e k + c.gain k else e (k + 1)))
      (if c.Cuts k (e k) (e (k + 1)) then k + 1 else p) := by
  unfold Planner.cutNext
  rw [h.entry k (by omega), h.gain k (by omega), h.entry (k + 1) hk]
  by_cases hlt : e k < e (k + 1)
  · by_cases hcut : e k + c.gain k < e (k + 1)
    · rw [if_pos hlt, if_pos hcut, if_pos ⟨hlt, hcut⟩, if_pos ⟨hlt, hcut⟩]
      exact (h.setEntry hk _).setPlanned rfl hk
    · rw [if_pos hlt, if_neg hcut, if_neg (fun hc => hcut hc.2), if_neg (fun hc => hcut hc.2),
        Function.update_eq_self]
      exact h
  · rw [if_neg hlt, if_neg (fun hc => hlt hc.1), if_neg (fun hc => hlt hc.1),
      Function.update_eq_self]
    exact h

theorem markNext (h : View s c e p) {k : ℕ} (hk : k < c.len) :
    View (s.markNext (s.slotAt k)) c e (if e k = c.cap k then k else p) := by
  unfold Planner.markNext
  rw [h.entry k hk, h.cap k hk]
  split
  · exact h.setPlanned rfl hk
  · exact h

theorem forwardStep (h : View s c e p) {k : ℕ} (hk : k + 1 < c.len) :
    View ((s.cutNext (s.slotAt k) (s.slotAt (k + 1))).markNext (s.slotAt (k + 1))) c
      (Function.update e (k + 1)
        (if c.Cuts k (e k) (e (k + 1)) then e k + c.gain k else e (k + 1)))
      (if c.Cuts k (e k) (e (k + 1)) ∨
        (if c.Cuts k (e k) (e (k + 1)) then e k + c.gain k else e (k + 1)) = c.cap (k + 1)
        then k + 1 else p) := by
  have hm := (h.cutNext hk).markNext hk
  rw [(OnlySpeeds.cutNext s (s.slotAt k) (s.slotAt (k + 1))).slotAt, Function.update_self] at hm
  convert hm using 1
  split_ifs <;> first | rfl | (exfalso; simp_all)

/-- The forward pass gives every block after the planned pointer its forward value, and moves the
planned pointer to the mark. -/
theorem forwardPass {e₀ r : ℕ → ℚ} (m : ℕ) : ∀ (fuel k : ℕ) (s : Planner) (e : ℕ → ℚ),
    m < fuel → p + k + 1 + m = c.len →
    View s c e (c.markFrom r p (e₀ p) k) →
    (∀ j ≤ p, e j = e₀ j) → (∀ j ≤ k, e (p + j) = c.forward r p (e₀ p) j) →
    (∀ j < c.len, p + k < j → e j = r j) →
    View (forwardPass fuel s (s.slotAt (p + k)) (s.slotAt (p + k + 1))) c
      (fun j => if j ≤ p then e₀ j else c.forward r p (e₀ p) (j - p))
      (c.markFrom r p (e₀ p) (c.len - 1 - p)) := by
  induction m with
  | zero =>
      intro fuel k s e hfuel hlen h hlo hmid hhi
      obtain ⟨fuel, rfl⟩ : ∃ f, fuel = f + 1 := ⟨fuel - 1, by omega⟩
      rw [Planner.forwardPass, if_pos ((h.ring.eq_head (by omega)).2 (by omega)),
        show c.len - 1 - p = k by omega]
      refine h.congr fun j hj => ?_
      split
      · next hjp => exact (hlo j hjp).symm
      · next hjp =>
          rw [← hmid (j - p) (by omega)]
          congr 1
          omega
  | succ m ih =>
      intro fuel k s e hfuel hlen h hlo hmid hhi
      obtain ⟨fuel, rfl⟩ : ∃ f, fuel = f + 1 := ⟨fuel - 1, by omega⟩
      have hne : ¬ s.slotAt (p + k + 1) = s.head := by
        rw [h.ring.eq_head (by omega)]
        omega
      rw [Planner.forwardPass, if_neg hne]
      dsimp only
      have hf := h.forwardStep (k := p + k) (by omega)
      have hs := ((OnlySpeeds.cutNext s (s.slotAt (p + k)) (s.slotAt (p + k + 1))).trans
        (OnlySpeeds.markNext _ (s.slotAt (p + k + 1)))).slotAt
      have hek : e (p + k) = c.forward r p (e₀ p) k := hmid k le_rfl
      have her : e (p + k + 1) = r (p + k + 1) := hhi _ (by omega) (by omega)
      have hfwd : (if c.Cuts (p + k) (e (p + k)) (e (p + k + 1)) then e (p + k) + c.gain (p + k)
          else e (p + k + 1)) = c.forward r p (e₀ p) (k + 1) := by
        rw [hek, her, Chain.forward]
      rw [hfwd, hek, her, ← Chain.markFrom] at hf
      generalize (s.cutNext (s.slotAt (p + k)) (s.slotAt (p + k + 1))).markNext
        (s.slotAt (p + k + 1)) = t at hf hs ⊢
      have key := ih fuel (k + 1) t _ (by omega) (by omega) hf ?_ ?_ ?_
      · rw [← hs, slotAt_next]
        exact key
      · intro j hj
        rw [Function.update_of_ne (by omega), hlo j hj]
      · intro j hj
        by_cases hjk : j = k + 1
        · subst hjk
          exact Function.update_self _ _ _
        · rw [Function.update_of_ne (by omega)]
          exact hmid j (by omega)
      · intro j hj hkj
        rw [Function.update_of_ne (by omega)]
        exact hhi j hj (by omega)

theorem planLast (h : View s c e p) {k : ℕ} (hk : k + 1 = c.len) :
    View (s.planLast (s.slotAt k)) c (Function.update e k (c.reverse e k)) p := by
  unfold Planner.planLast
  rw [h.cap k (by omega), h.gain k (by omega), c.reverse_last e hk]
  exact h.setEntry (by omega) _

theorem planReverse (h : View s c e p) (hc : s.currentSpeed = none) {e₀ : ℕ → ℚ} {k : ℕ}
    (hk : k + 2 = c.len) (hpk : p ≤ k) (hlo : ∀ j ≤ k, e j = e₀ j)
    (hhi : e (k + 1) = c.reverse e₀ (k + 1)) :
    View (s.planReverse (s.slotAt (k + 1))) c (fun j => if p < j then c.reverse e₀ j else e₀ j)
      p := by
  have hhi : ∀ j < c.len, k < j → e j = c.reverse e₀ j := by
    intro j hj hkj
    obtain rfl : j = k + 1 := by omega
    exact hhi
  have hsize := h.ring.le_size
  unfold Planner.planReverse
  rw [slotAt_prev]
  dsimp only
  split
  · next hkp =>
      obtain rfl : k = p := (h.ring.eq_planned (by omega)).1 hkp
      refine (h.updateTail hc (s.slotAt k)).congr fun j hj => ?_
      split
      · next hkj => exact (hhi j hj hkj).symm
      · next hkj => exact (hlo j (by omega)).symm
  · exact reversePass (k - p) (s.size + 1) k s e (by omega) (by omega) h hc (by omega) hlo hhi

theorem planForward {e₀ : ℕ → ℚ} (hp : p < c.len)
    (h : View s c (fun j => if p < j then c.reverse e₀ j else e₀ j) p) :
    View s.planForward c (c.replan e₀ p) (c.mark e₀ p) := by
  have hsize := h.ring.le_size
  unfold Planner.planForward
  rw [h.ring.planned, slotAt_next]
  exact forwardPass (r := c.reverse e₀) (c.len - (p + 1)) (s.size + 1) 0 s _ (by omega) (by omega)
    h (fun j hj => if_neg (by omega))
    (fun j hj => by
      obtain rfl : j = 0 := by omega
      exact if_neg (by omega))
    (fun j _ hpj => if_pos (by omega))

/-- `planner_recalculate` is replanning from the planned pointer. -/
theorem plannerRecalculate (h : View s c e p) (hn : 0 < c.len) (hc : s.currentSpeed = none) :
    View s.plannerRecalculate c (c.replan e p) (c.mark e p) := by
  have hp : p < c.len := by rcases h.ring.planned_lt with hp | hp <;> omega
  unfold Planner.plannerRecalculate
  rw [h.ring.prev_head hn]
  dsimp only
  by_cases hlast : c.len - 1 = p
  · rw [if_pos ((h.ring.eq_planned (by omega)).2 hlast), Chain.mark, hlast, Nat.sub_self,
      Chain.markFrom]
    exact h.congr fun j hj => c.replan_of_le e (by omega)
  · obtain ⟨k, hk⟩ : ∃ k, k + 2 = c.len := ⟨c.len - 2, by omega⟩
    rw [if_neg (fun he => hlast ((h.ring.eq_planned (by omega)).1 he)),
      show c.len - 1 = k + 1 by omega]
    have hlastv := h.planLast (k := k + 1) hk
    rw [← (OnlySpeeds.setEntry s (s.slotAt (k + 1)) _).slotAt (k + 1)]
    refine planForward hp (hlastv.planReverse hc hk (by omega) ?_ (Function.update_self _ _ _))
    intro j hj
    exact Function.update_of_ne (by omega) _ _

end View

/-! ## The planned pointer stays in the buffer -/

theorem planned_forwardPass {n : ℕ} (fuel : ℕ) : ∀ (k i : ℕ) (s : Planner), k ≤ n →
    (∃ p, Ring s n p) →
    (forwardPass fuel s i (s.slotAt k)).planned = s.planned ∨
      ∃ j < n, (forwardPass fuel s i (s.slotAt k)).planned = s.slotAt j := by
  induction fuel with
  | zero => intro k i s _ _; exact Or.inl rfl
  | succ fuel ih =>
      rintro k i s hk ⟨p, hr⟩
      rw [forwardPass]
      split
      · exact Or.inl rfl
      · next hne =>
          have hkn : k < n := by
            have : k ≠ n := fun h => hne ((hr.eq_head hk).2 h)
            omega
          have hs := (OnlySpeeds.cutNext s i (s.slotAt k)).trans
            (OnlySpeeds.markNext _ (s.slotAt k))
          have hp : ((s.cutNext i (s.slotAt k)).markNext (s.slotAt k)).planned = s.planned ∨
              ((s.cutNext i (s.slotAt k)).markNext (s.slotAt k)).planned = s.slotAt k := by
            unfold markNext
            split
            · exact Or.inr rfl
            · unfold cutNext
              dsimp only
              split_ifs
              · exact Or.inr rfl
              · exact Or.inl rfl
              · exact Or.inl rfl
          dsimp only
          generalize (s.cutNext i (s.slotAt k)).markNext (s.slotAt k) = t at hs hp ⊢
          have hrt : ∃ q, Ring t n q := by
            rcases hp with hp | hp
            · exact ⟨p, hr.onlySpeeds hs (hp.trans hr.planned) hr.planned_lt⟩
            · exact ⟨k, hr.onlySpeeds hs hp (Or.inl hkn)⟩
          have hnext : t.next (s.slotAt k) = t.slotAt (k + 1) := by
            rw [← hs.slotAt, slotAt_next]
          rw [hnext]
          rcases ih (k + 1) (s.slotAt k) t hkn hrt with h | ⟨j, hj, h⟩
          · rw [h]
            rcases hp with hp | hp
            · exact Or.inl hp
            · exact Or.inr ⟨k, hkn, hp⟩
          · rw [h, hs.slotAt]
            exact Or.inr ⟨j, hj, rfl⟩

theorem planned_updateTail (s : Planner) (i : ℕ) : (s.updateTail i).planned = s.planned := by
  unfold updateTail stUpdatePlanBlockParameters
  split_ifs
  · split <;> rfl
  · rfl

theorem planned_reversePass (fuel : ℕ) : ∀ (s : Planner) (i j : ℕ),
    (reversePass fuel s i j).planned = s.planned := by
  induction fuel with
  | zero => intro s i j; rfl
  | succ fuel ih =>
      intro s i j
      rw [reversePass]
      split
      · rfl
      · rw [ih]
        unfold reverseStep
        split
        · exact planned_updateTail s _
        · exact planned_updateTail s _

theorem planned_planReverse (s : Planner) (i : ℕ) : (s.planReverse i).planned = s.planned := by
  unfold planReverse
  dsimp only
  split
  · exact planned_updateTail s _
  · exact planned_reversePass _ s _ _

theorem Ring.plannerRecalculate {s : Planner} {n p : ℕ} (h : Ring s n p) (hn : 0 < n) :
    ∃ q, Ring s.plannerRecalculate n q := by
  have hp : p < n := by rcases h.planned_lt with hp | hp <;> omega
  unfold Planner.plannerRecalculate
  dsimp only
  split
  · exact ⟨p, h⟩
  · have hs := (OnlySpeeds.setEntry s (s.prev s.head)
      (min (s.maxEntry (s.prev s.head)) (s.gain (s.prev s.head)))).trans
      (OnlySpeeds.planReverse _ (s.prev s.head))
    have hpl := planned_planReverse (s.planLast (s.prev s.head)) (s.prev s.head)
    change OnlySpeeds s ((s.planLast (s.prev s.head)).planReverse (s.prev s.head)) at hs
    generalize (s.planLast (s.prev s.head)).planReverse (s.prev s.head) = u at hs hpl ⊢
    have hru := h.onlySpeeds hs (hpl.trans h.planned) h.planned_lt
    have hf : u.planForward = forwardPass (u.size + 1) u (u.slotAt p) (u.slotAt (p + 1)) := by
      rw [planForward, hru.planned, slotAt_next]
    rw [hf]
    rcases planned_forwardPass (u.size + 1) (p + 1) (u.slotAt p) u hp ⟨p, hru⟩ with hq | ⟨q, hq, he⟩
    · exact ⟨p, hru.onlySpeeds (OnlySpeeds.forwardPass _ _ _ _) (hq.trans hru.planned)
        (Or.inl hp)⟩
    · exact ⟨q, hru.onlySpeeds (OnlySpeeds.forwardPass _ _ _ _) he (Or.inl hq)⟩

end Grbl.Planner
