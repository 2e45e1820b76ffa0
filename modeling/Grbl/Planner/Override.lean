import Grbl.Planner.Plan

/-!
# Plans after an override change

* `Planner.Buffered` : what holds of the buffer in every reachable state, executing or not;
* `updateProfiles_spec` : the maximum entry speeds after an override change;
* `Planner.newMaxEntry`, `Planner.tailEntry` : these maxima and the entry speed of the tail block,
  in terms of the state before;
* `Planner.KeptStoppable` : no block whose entry speed is left as it is can be reached faster than
  the plan can slow down from it;
* `feasible_after_override_iff` : replanning after an override change is feasible exactly then.
-/

namespace Grbl

open Lib

namespace Planner

/-! ## Reachable buffers -/

/-- A queued block has limits and a length; only the executing one can be used up. -/
structure SoundAt (k : ℕ) (b : PlanBlock) : Prop where
  acceleration : 0 < b.acceleration
  millimeters : 0 ≤ b.millimeters
  millimeters_pos : 0 < k → 0 < b.millimeters
  junction : 0 ≤ b.maxJunctionSpeedSqr
  maxEntry : 0 ≤ b.maxEntrySpeedSqr

def Sound (s : Planner) (n : ℕ) : Prop := ∀ k < n, SoundAt k (s.blocks (s.slotAt k))

/-- The pointers form a ring of sound blocks. -/
def Buffered (s : Planner) : Prop := ∃ n p, Ring s n p ∧ Sound s n

theorem Fresh.soundAt {b : PlanBlock} (h : Fresh b) (k : ℕ) : SoundAt k b :=
  ⟨h.acceleration, h.millimeters.le, fun _ => h.millimeters, h.junction, h.maxEntry⟩

namespace Sound

variable {s t : Planner} {n : ℕ}

theorem gain_nonneg (h : Sound s n) : ∀ k < n, 0 ≤ s.gain (s.slotAt k) := fun k hk =>
  PlanBlock.gain_nonneg (h k hk).acceleration (h k hk).millimeters

theorem gain_pos (h : Sound s n) {k : ℕ} (hk : k < n) (h0 : 0 < k) : 0 < s.gain (s.slotAt k) :=
  PlanBlock.gain_pos (h k hk).acceleration ((h k hk).millimeters_pos h0)

/-- The queued blocks as a chain. -/
def chain (h : Sound s n) : Chain ℚ where
  len := n
  cap := fun k => s.maxEntry (s.slotAt k)
  gain := fun k => s.gain (s.slotAt k)
  cap_nonneg := fun k hk => (h k hk).maxEntry
  gain_nonneg := h.gain_nonneg

theorem view (h : Sound s n) {p : ℕ} (hr : Ring s n p) :
    View s h.chain (fun k => s.entry (s.slotAt k)) p :=
  ⟨hr, fun _ _ => rfl, fun _ _ => rfl, fun _ _ => rfl⟩

theorem onlySpeeds (h : Sound s n) (hs : OnlySpeeds s t) : Sound t n := by
  intro k hk
  have hb := h k hk
  rw [hs.slotAt, hs.block]
  exact ⟨hb.acceleration, hb.millimeters, hb.millimeters_pos, hb.junction, hb.maxEntry⟩

theorem of_blocks (h : Sound s n) (hslot : ∀ k, t.slotAt k = s.slotAt k)
    (hb : ∀ k < n, t.blocks (s.slotAt k) = s.blocks (s.slotAt k)) : Sound t n := by
  intro k hk
  rw [hslot, hb k hk]
  exact h k hk

end Sound

theorem Buffered.reset (size : ℕ) (memory : ℕ → PlanBlock) (ov : Override) :
    Buffered (planReset size memory ov) := by
  obtain ⟨c, e, p, hv, hplan⟩ := (Streamed.reset size memory ov).view
  have hlen : c.len = 0 := by
    rw [← hv.ring.queued_eq]
    rfl
  exact ⟨c.len, p, hv.ring, fun k hk => by omega⟩

theorem Buffered.recalculate {s : Planner} {n p : ℕ} (hr : Ring s n p) (hs : Sound s n)
    (hn : 0 < n) : Buffered s.plannerRecalculate := by
  obtain ⟨q, hq⟩ := hr.plannerRecalculate hn
  exact ⟨n, q, hq, hs.onlySpeeds (OnlySpeeds.plannerRecalculate s)⟩

theorem Buffered.line {s : Planner} (h : Buffered s) (hf : s.planCheckFullBuffer = false)
    (targetSteps sysPosition : Axis → ℤ) (d : LineData) (g : Geometry) (rpm : ℚ) :
    Buffered (s.planBufferLine targetSteps sysPosition d g rpm).1 := by
  obtain ⟨n, p, hr, hs⟩ := h
  rcases planBufferLineWith_cases s targetSteps sysPosition d g rpm with
    ⟨t, b, d', ok, hst, hres⟩ | ⟨t, b, hst, hb, hres⟩
  all_goals
    rw [planBufferLine, hres]
    have hslot : ∀ k, t.slotAt k = s.slotAt k := fun k => by
      rw [slotAt, slotAt, hst.size, hst.tail]
    have ht : Sound t n := hs.of_blocks hslot fun _ _ => by rw [hst.blocks]
    have hv : View t ht.chain (fun k => t.entry (t.slotAt k)) p :=
      ht.view ((hs.view hr).sameBuffer hst).ring
  · exact ⟨n, p, (hv.setBlock_head b).ring,
      ht.of_blocks (fun _ => rfl) fun k hk => hv.block_setBlock_head b hk⟩
  · have htf : t.planCheckFullBuffer = false := by
      rw [← hf, planCheckFullBuffer, planCheckFullBuffer, hst.tail, hst.nextHead]
    have hpush := hv.pushBlock (hv.ring.not_full htf) b hb.maxEntry hb.gain_pos.le
    refine Buffered.recalculate hpush.ring (fun k hk => ?_) (Nat.succ_pos n)
    rw [show (t.pushBlock b).slotAt k = t.slotAt k from rfl]
    by_cases hlt : k < n
    · rw [show (t.pushBlock b).blocks (t.slotAt k) = t.blocks (t.slotAt k) from
        hv.block_setBlock_head b hlt]
      exact ht k hlt
    · obtain rfl : k = n := by
        change k < n + 1 at hk
        omega
      rw [show t.slotAt k = t.head from hv.ring.head.symm]
      simp only [pushBlock, setBlock, Function.update_self]
      exact hb.soundAt k

theorem Buffered.discard {s : Planner} (h : Buffered s) : Buffered s.planDiscardCurrentBlock := by
  obtain ⟨n, p, hr, hs⟩ := h
  rcases Nat.eq_zero_or_pos n with rfl | hpos
  · have he : s.planDiscardCurrentBlock = s := if_neg (not_not.2 (hr.head_eq_tail.2 rfl).symm)
    rw [he]
    exact ⟨0, p, hr, hs⟩
  · refine ⟨n - 1, p - 1, ((hs.view hr).discard hpos).ring, fun k hk => ?_⟩
    have hb := hs (k + 1) (by omega)
    rw [hr.slotAt_discard hpos, discard_eq (hr.tail_ne_head hpos)]
    exact ⟨hb.acceleration, hb.millimeters, fun _ => hb.millimeters_pos (Nat.succ_pos k),
      hb.junction, hb.maxEntry⟩

theorem Buffered.prepTail {s : Planner} (h : Buffered s) (v mm w : ℚ) (hmm : 0 ≤ mm) :
    Buffered (s.prepTail v mm w) := by
  obtain ⟨n, p, hr, hs⟩ := h
  refine ⟨n, p, ⟨hr.tail_lt, hr.le_size, hr.head, hr.nextHead, hr.planned, hr.planned_lt⟩,
    fun k hk => ?_⟩
  have hb := hs k hk
  change SoundAt k ((s.setBlock s.tail _).blocks (s.slotAt k))
  by_cases h0 : k = 0
  · subst h0
    rw [hr.slotAt_zero] at hb ⊢
    simp only [setBlock, Function.update_self]
    exact ⟨hb.acceleration, hmm, fun h => absurd h (lt_irrefl 0), hb.junction, hb.maxEntry⟩
  · have hne : s.slotAt k ≠ s.tail := fun he => h0 ((hr.eq_tail hk.le).1 he)
    simp only [setBlock, Function.update_of_ne hne]
    exact hb

/-! ## New maximum entry speeds -/

/-- The nominal speed of the `k`-th queued block under the overrides `ov`. -/
def newNominal (s : Planner) (ov : Override) (rpm : ℕ → ℚ) (k : ℕ) : ℚ :=
  planComputeProfileNominalSpeed ov (rpm (s.slotAt k)) (s.blocks (s.slotAt k))

/-- The maximum entry speed of the `k`-th queued block under the overrides `ov`. -/
def newMaxEntry (s : Planner) (ov : Override) (rpm : ℕ → ℚ) (k : ℕ) : ℚ :=
  profileMaxEntrySpeedSqr (s.blocks (s.slotAt k)).maxJunctionSpeedSqr (s.newNominal ov rpm k)
    (if k = 0 then someLargeValue else s.newNominal ov rpm (k - 1))

/-- The loop over the blocks from the `k`-th on. -/
theorem updateProfiles_spec {n p : ℕ} (rpm : ℕ → ℚ) (m : ℕ) : ∀ (fuel k : ℕ) (s : Planner) (v : ℚ),
    m < fuel → k + m = n → Ring s n p →
    ∃ b w, updateProfiles rpm fuel s (s.slotAt k) v =
      { s with blocks := b, previousNominalSpeed := w } ∧
      (∀ j < k, b (s.slotAt j) = s.blocks (s.slotAt j)) ∧
      ∀ j < n, k ≤ j → b (s.slotAt j) = planComputeProfileParameters (s.blocks (s.slotAt j))
        (s.newNominal s.override rpm j)
        (if j = k then v else s.newNominal s.override rpm (j - 1)) := by
  induction m with
  | zero =>
      intro fuel k s v hfuel hk hr
      obtain ⟨fuel, rfl⟩ : ∃ f, fuel = f + 1 := ⟨fuel - 1, by omega⟩
      refine ⟨s.blocks, v, ?_, fun _ _ => rfl, fun j hj hkj => by omega⟩
      rw [updateProfiles, if_pos ((hr.eq_head (by omega)).2 (by omega))]
  | succ m ih =>
      intro fuel k s v hfuel hk hr
      obtain ⟨fuel, rfl⟩ : ∃ f, fuel = f + 1 := ⟨fuel - 1, by omega⟩
      have hne : ¬ s.slotAt k = s.head := by
        rw [hr.eq_head (by omega)]
        omega
      set b₁ := planComputeProfileParameters (s.blocks (s.slotAt k))
        (s.newNominal s.override rpm k) v with hb₁
      have hother : ∀ j ≤ n, j ≠ k → (s.setBlock (s.slotAt k) b₁).blocks (s.slotAt j) =
          s.blocks (s.slotAt j) := by
        intro j hj hjk
        have : s.slotAt j ≠ s.slotAt k := fun he => hjk ((hr.slotAt_inj hj (by omega)).1 he)
        simp [setBlock, this]
      have hself : (s.setBlock (s.slotAt k) b₁).blocks (s.slotAt k) = b₁ := by simp [setBlock]
      have hr' : Ring (s.setBlock (s.slotAt k) b₁) n p :=
        ⟨hr.tail_lt, hr.le_size, hr.head, hr.nextHead, hr.planned, hr.planned_lt⟩
      obtain ⟨b, w, hres, hlo, hhi⟩ := ih fuel (k + 1) (s.setBlock (s.slotAt k) b₁)
        (s.newNominal s.override rpm k) (by omega) (by omega) hr'
      have hslot : ∀ j, (s.setBlock (s.slotAt k) b₁).slotAt j = s.slotAt j := fun _ => rfl
      have hnom : ∀ j ≤ n, (s.setBlock (s.slotAt k) b₁).newNominal s.override rpm j =
          s.newNominal s.override rpm j := by
        intro j hj
        rw [newNominal, newNominal, hslot]
        by_cases hjk : j = k
        · rw [hjk, hself]
          rfl
        · rw [hother j hj hjk]
      refine ⟨b, w, ?_, fun j hj => ?_, fun j hj hkj => ?_⟩
      · rw [updateProfiles, if_neg hne]
        dsimp only
        rw [show (s.setBlock (s.slotAt k) _).next (s.slotAt k) = s.slotAt (k + 1) from
          slotAt_next s k]
        exact hres
      · rw [← hslot j, hlo j (by omega), hslot, hother j (by omega) (by omega)]
      · by_cases hjk : j = k
        · rw [hjk, if_pos rfl, ← hslot k, hlo k (by omega), hslot, hself]
        · rw [if_neg hjk, ← hslot j, hhi j hj (by omega), hslot, hother j hj.le hjk,
            show (s.setBlock (s.slotAt k) b₁).override = s.override from rfl, hnom j hj.le,
            hnom (j - 1) (by omega)]
          split
          · next hj1 => rw [hj1, Nat.add_sub_cancel]
          · rfl

/-! ## Replanning -/

/-- The entry speed the tail block is given before replanning: the current speed, when it is
executing. -/
def tailEntry (s : Planner) : ℚ :=
  match s.currentSpeed with
  | none => s.entry s.tail
  | some v => v * v

def startEntry (s : Planner) (k : ℕ) : ℚ := if k = 0 then s.tailEntry else s.entry (s.slotAt k)

/-- The queued blocks under the overrides `ov`, as a chain. -/
def Sound.overrideChain {s : Planner} {n : ℕ} (h : Sound s n) (ov : Override) (rpm : ℕ → ℚ) :
    Chain ℚ where
  len := n
  cap := s.newMaxEntry ov rpm
  gain := fun k => s.gain (s.slotAt k)
  cap_nonneg := fun k hk => profileMaxEntrySpeedSqr_nonneg (h k hk).junction _ _
  gain_nonneg := h.gain_nonneg

theorem stUpdate_view {s : Planner} {c : Chain ℚ} {e : ℕ → ℚ} {p : ℕ} (h : View s c e p)
    (hn : 0 < c.len) :
    View ({ s.stUpdatePlanBlockParameters with planned := s.tail } : Planner) c
      (fun k => if k = 0 then s.tailEntry else e k) 0 := by
  have hs := (OnlySpeeds.stUpdate s).trans (OnlySpeeds.setPlanned _ s.tail)
  refine h.onlySpeeds hs h.ring.slotAt_zero.symm (Or.inl hn) fun k hk => ?_
  have he := h.entry k hk
  change s.stUpdatePlanBlockParameters.entry (s.slotAt k) = _
  by_cases h0 : k = 0
  · rw [if_pos h0, h0, h.ring.slotAt_zero]
    cases hc : s.currentSpeed with
    | none => rw [stUpdatePlanBlockParameters, tailEntry, hc]
    | some v =>
        rw [stUpdatePlanBlockParameters, tailEntry, hc]
        exact (entry_setEntry s s.tail s.tail (v * v)).trans (if_pos rfl)
  · rw [if_neg h0, ← he]
    cases hc : s.currentSpeed with
    | none => rw [stUpdatePlanBlockParameters, hc]
    | some v =>
        rw [stUpdatePlanBlockParameters, hc]
        refine (entry_setEntry s s.tail (s.slotAt k) (v * v)).trans (if_neg ?_)
        rw [h.ring.eq_tail hk.le]
        exact h0

theorem planFeedOverrideCore_view {s : Planner} {n p : ℕ} (hr : Ring s n p) (hs : Sound s n)
    (hn : 0 < n) {ov : Override} (hov : ov ≠ s.override) (rpm : ℕ → ℚ) :
    View (s.planFeedOverrideCore ov rpm) (hs.overrideChain ov rpm)
      ((hs.overrideChain ov rpm).replan s.startEntry 0)
      ((hs.overrideChain ov rpm).mark s.startEntry 0) ∧
    Sound (s.planFeedOverrideCore ov rpm) n ∧
    (s.planFeedOverrideCore ov rpm).executing = s.executing := by
  have hne := hr.tail_ne_head hn
  have hchg : ov.feedRate ≠ s.override.feedRate ∨ ov.rapidRate ≠ s.override.rapidRate := by
    rw [Ne, Ne, ← not_and_or]
    rintro ⟨hf, hrap⟩
    exact hov (Override.ext hf hrap)
  have hr₁ : Ring ({ s with override := ov } : Planner) n p :=
    ⟨hr.tail_lt, hr.le_size, hr.head, hr.nextHead, hr.planned, hr.planned_lt⟩
  obtain ⟨b, w, hres, -, hhi⟩ := updateProfiles_spec rpm n (s.size + 1) 0
    ({ s with override := ov } : Planner) someLargeValue (by have := hr.le_size; omega) (by omega) hr₁
  set u : Planner := { s with override := ov, blocks := b, previousNominalSpeed := w } with hu
  have hb : ∀ k < n, b (s.slotAt k) = planComputeProfileParameters (s.blocks (s.slotAt k))
      (s.newNominal ov rpm k) (if k = 0 then someLargeValue else s.newNominal ov rpm (k - 1)) :=
    fun k hk => hhi k hk (Nat.zero_le k)
  have hcore : s.planFeedOverrideCore ov rpm = u.planCycleReinit := by
    rw [planFeedOverrideCore, if_pos hchg]
    have hupd : ({ s with override := ov } : Planner).planUpdateVelocityProfileParameters rpm =
        (u, true) := by
      rw [planUpdateVelocityProfileParameters, if_pos hne]
      rw [show ({ s with override := ov } : Planner).slotAt 0 = s.tail from hr.slotAt_zero] at hres
      exact congrArg (·, true) hres
    dsimp only
    rw [hupd]
    rfl
  have hsu : Sound u n := by
    intro k hk
    have hk' := hs k hk
    change SoundAt k (b (s.slotAt k))
    rw [hb k hk]
    exact ⟨hk'.acceleration, hk'.millimeters, hk'.millimeters_pos, hk'.junction,
      profileMaxEntrySpeedSqr_nonneg hk'.junction _ _⟩
  have hvu : View u (hs.overrideChain ov rpm) (fun k => s.entry (s.slotAt k)) p := by
    refine ⟨⟨hr.tail_lt, hr.le_size, hr.head, hr.nextHead, hr.planned, hr.planned_lt⟩,
      fun k hk => ?_, fun k hk => ?_, fun k hk => ?_⟩
    · change (b (s.slotAt k)).maxEntrySpeedSqr = _
      rw [hb k hk]
      rfl
    · change (b (s.slotAt k)).gain = _
      rw [hb k hk]
      rfl
    · change (b (s.slotAt k)).entrySpeedSqr = _
      rw [hb k hk]
      rfl
  have hvt := stUpdate_view hvu hn
  have hidle : u.stUpdatePlanBlockParameters.currentSpeed = none := by
    unfold stUpdatePlanBlockParameters
    split
    · assumption
    · rfl
  have hst := OnlySpeeds.stUpdate u
  have hcycle : u.planCycleReinit =
      ({ u.stUpdatePlanBlockParameters with planned := u.tail } : Planner).plannerRecalculate := by
    unfold planCycleReinit
    dsimp only
    rw [hst.tail, hst.head, if_pos hne]
  have htail : u.tailEntry = s.tailEntry := by
    have h0 := hvu.entry 0 hn
    rw [hvu.ring.slotAt_zero] at h0
    unfold tailEntry
    rw [h0, ← hr.slotAt_zero]
  rw [hcore, hcycle]
  have hall := (hst.trans (OnlySpeeds.setPlanned _ u.tail)).trans (OnlySpeeds.plannerRecalculate _)
  refine ⟨?_, hsu.onlySpeeds hall, hall.executing⟩
  rw [htail] at hvt
  exact hvt.plannerRecalculate hn hidle

theorem Ring.planFeedOverrideCore_empty {s : Planner} {p : ℕ} (hr : Ring s 0 p) (ov : Override)
    (rpm : ℕ → ℚ) : Ring (s.planFeedOverrideCore ov rpm) 0 p := by
  have he : s.tail = s.head := (hr.head_eq_tail.2 rfl).symm
  have hupd : ({ s with override := ov } : Planner).planUpdateVelocityProfileParameters rpm =
      ({ s with override := ov }, false) := if_neg (not_not.2 he)
  unfold Planner.planFeedOverrideCore
  split
  · dsimp only
    rw [hupd]
    exact ⟨hr.tail_lt, hr.le_size, hr.head, hr.nextHead, hr.planned, hr.planned_lt⟩
  · exact hr

theorem Buffered.planFeedOverrideCore {s : Planner} (h : Buffered s) (ov : Override)
    (rpm : ℕ → ℚ) : Buffered (s.planFeedOverrideCore ov rpm) := by
  obtain ⟨n, p, hr, hs⟩ := h
  by_cases hov : ov = s.override
  · subst hov
    rw [Planner.planFeedOverrideCore, if_neg (by simp)]
    exact ⟨n, p, hr, hs⟩
  rcases Nat.eq_zero_or_pos n with rfl | hpos
  · exact ⟨0, p, hr.planFeedOverrideCore_empty ov rpm, fun k hk => absurd hk (Nat.not_lt_zero k)⟩
  · obtain ⟨hv, hsound, -⟩ := planFeedOverrideCore_view hr hs hpos hov rpm
    exact ⟨n, _, hv.ring, hsound⟩

/-! ## Feasibility -/

/-- Neighbouring blocks can be joined within the acceleration of the first, unless it is the executing tail block. -/
def FeasibleJunctions (s : Planner) : Prop :=
  ∀ k, (k = 0 → s.executing = false) → k + 1 < s.queued →
    s.entry (s.slotAt k) ≤ s.maxEntry (s.slotAt k) ∧
    s.entry (s.slotAt k) ≤ s.entry (s.slotAt (k + 1)) + s.gain (s.slotAt k) ∧
    s.entry (s.slotAt (k + 1)) ≤ s.entry (s.slotAt k) + s.gain (s.slotAt k)

/-- Every block before the last one whose entry speed is left as it is is reached, at most, at a speed from which its new
maximum and the later ones can be kept. The entry speed is left if it already is the new maximum, and on a tail block that is
not executing. -/
def KeptStoppable (s : Planner) (ov : Override) (rpm : ℕ → ℚ) : Prop :=
  ∀ k, k + 1 < s.queued → (if k = 0 then s.executing = false else s.entry (s.slotAt k) = s.newMaxEntry ov rpm k) →
    reachFrom (s.newMaxEntry ov rpm) (fun j => s.gain (s.slotAt j)) s.tailEntry k ≤
      stopFrom (s.newMaxEntry ov rpm) (fun j => s.gain (s.slotAt j)) (s.queued - 1 - k) k

theorem feasibleJunctions_iff {s : Planner} (h : Buffered s) {ov : Override} (hov : ov ≠ s.override)
    (rpm : ℕ → ℚ) : FeasibleJunctions (s.planFeedOverrideCore ov rpm) ↔ s.KeptStoppable ov rpm := by
  obtain ⟨n, p, hr, hs⟩ := h
  rcases Nat.eq_zero_or_pos n with rfl | hpos
  · have hq := (hr.planFeedOverrideCore_empty ov rpm).queued_eq
    exact ⟨fun _ k hk => by rw [hr.queued_eq] at hk; omega,
      fun _ k _ hk => by rw [hq] at hk; omega⟩
  · obtain ⟨hv, -, hexec⟩ := planFeedOverrideCore_view hr hs hpos hov rpm
    set t := s.planFeedOverrideCore ov rpm
    set c := hs.overrideChain ov rpm
    have hlen : c.len = n := rfl
    have hiff : c.Feasible (s.executing = false) (c.replan s.startEntry 0) ↔ _ :=
      Chain.replan_feasible_iff fun k h0 hk => hs.gain_pos (by omega) h0
    have hleft : t.FeasibleJunctions ↔ c.Feasible (s.executing = false) (c.replan s.startEntry 0) := by
      unfold FeasibleJunctions
      rw [hv.ring.queued_eq, hexec]
      refine forall_congr' fun k => forall_congr' fun h0 => forall_congr' fun hk => ?_
      rw [hv.entry k (by omega), hv.entry (k + 1) hk, hv.cap k (by omega), hv.gain k (by omega)]
      exact ⟨fun ⟨h1, h2, h3⟩ => ⟨h1, h2, h3⟩, fun h => ⟨h.le_cap, h.le_succ, h.succ_le⟩⟩
    have hright : s.KeptStoppable ov rpm ↔
        ∀ k, c.Kept (s.executing = false) s.startEntry k → c.reach (s.startEntry 0) k ≤ c.stop k := by
      unfold KeptStoppable
      rw [hr.queued_eq]
      constructor
      · rintro h k ⟨hk, ⟨rfl, hfree⟩ | ⟨h0, he⟩⟩
        · exact h 0 hk (by rw [if_pos rfl]; exact hfree)
        · rw [startEntry, if_neg h0.ne'] at he
          exact h k hk (by rw [if_neg h0.ne']; exact he)
      · intro h k hk he
        refine h k ⟨hk, ?_⟩
        split at he
        · next h0 => exact .inl ⟨h0, he⟩
        · next h0 =>
            rw [startEntry, if_neg h0]
            exact .inr ⟨Nat.pos_of_ne_zero h0, he⟩
    rw [hleft, hright]
    exact hiff

end Planner

/-! ## Runs -/

theorem buffered_planStep {s t : Planner} {o : PlanOp} (h : s.Buffered)
    (hst : planStep s o = some t) : t.Buffered := by
  cases o with
  | line targetSteps sysPosition d g rpm =>
      rw [planStep] at hst
      split at hst
      · cases hst
      · next hf =>
          cases hst
          exact h.line (Bool.not_eq_true _ ▸ hf) targetSteps sysPosition d g rpm
  | discard =>
      cases hst
      exact h.discard
  | feedOverride current requested disable rpm =>
      cases hst
      exact h.planFeedOverrideCore _ rpm
  | prep v mm w =>
      rw [planStep] at hst
      split at hst
      · cases hst
      · split at hst
        · next hmm =>
            cases hst
            exact h.prepTail v mm w hmm.1
        · cases hst

theorem buffered_of_run {size : ℕ} {memory : ℕ → PlanBlock} {ov : Override} {ops : List PlanOp}
    {s : Planner} (hrun : run planStep (Planner.planReset size memory ov) ops = some s) :
    s.Buffered :=
  run_invariant (fun _ _ _ hs hst => buffered_planStep hs hst) ops _ s
    (Planner.Buffered.reset size memory ov) hrun

/-- After every run, a changed override leaves feasible junctions exactly when every block that keeps its entry speed can be
slowed down from. -/
theorem feasible_after_override_iff (size : ℕ) (memory : ℕ → PlanBlock) (ov : Override)
    (ops : List PlanOp) (s : Planner)
    (hrun : run planStep (Planner.planReset size memory ov) ops = some s)
    (current requested : Override) (disable : Bool) (rpm : ℕ → ℚ)
    (hov : effectiveOverride current requested disable ≠ s.override) :
    (planFeedOverride s current requested disable rpm).2.FeasibleJunctions ↔
      s.KeptStoppable (effectiveOverride current requested disable) rpm :=
  Planner.feasibleJunctions_iff (buffered_of_run hrun) hov rpm

/-- A line that needs its whole length to reach 100 mm/min, a short one at that speed, and a rapid
motion. -/
def feedThenRapid : List PlanOp :=
  let g (mm : ℚ) (hmm : 0 < mm) : Geometry :=
    ⟨mm, 5, 500, 10000, hmm, exampleGeometry.acceleration_pos, by norm_num⟩
  let d (rapid : Bool) : LineData := ⟨200, ⟨rapid, false, false, false, false, false⟩, false, []⟩
  [.line (fun _ => 1000) (fun _ => 0) (d false) (g 1000 (by norm_num)) 0,
    .line (fun _ => 1010) (fun _ => 0) (d false) (g 10 exampleGeometry.millimeters_pos) 0,
    .line (fun _ => 2010) (fun _ => 0) (d true) (g 1000 (by norm_num)) 0]

/-- Cutting the rapid override to 5 % leaves the short line entered at 100 mm/min, from which it
can not slow down to the 25 mm/min of the rapid motion. -/
theorem rapid_override_leaves_infeasible_junction :
    ∃ s, run planStep (Planner.planReset 8 exampleMemory ⟨100, 100⟩) feedThenRapid = some s ∧
      ¬ (planFeedOverride s ⟨100, 100⟩ ⟨0, 5⟩ false fun _ => 0).2.FeasibleJunctions := by
  have h : (run planStep (Planner.planReset 8 exampleMemory ⟨100, 100⟩) feedThenRapid).map (fun s =>
      let t := (planFeedOverride s ⟨100, 100⟩ ⟨0, 5⟩ false fun _ => 0).2
      (t.queued, t.entry (t.slotAt 1), t.entry (t.slotAt 2), t.gain (t.slotAt 1))) =
      some (3, 10000, 625, 100) := by decide +kernel
  obtain ⟨s, hs, hval⟩ := Option.map_eq_some_iff.1 h
  refine ⟨s, hs, fun hf => ?_⟩
  simp only [Prod.mk.injEq] at hval
  have hdecel := (hf 1 (fun h => absurd h one_ne_zero) (by omega)).2.1
  rw [hval.2.1, hval.2.2.1, hval.2.2.2] at hdecel
  norm_num at hdecel

theorem feasible_after_override_iff_feedThenRapid :
    ∃ s, run planStep (Planner.planReset 8 exampleMemory ⟨100, 100⟩) feedThenRapid = some s ∧
      ((planFeedOverride s ⟨100, 100⟩ ⟨0, 5⟩ false fun _ => 0).2.FeasibleJunctions ↔
        s.KeptStoppable (effectiveOverride ⟨100, 100⟩ ⟨0, 5⟩ false) fun _ => 0) := by
  have h : (run planStep (Planner.planReset 8 exampleMemory ⟨100, 100⟩) feedThenRapid).map
      Planner.override = some ⟨100, 100⟩ := by decide +kernel
  obtain ⟨s, hs, hval⟩ := Option.map_eq_some_iff.1 h
  refine ⟨s, hs, feasible_after_override_iff 8 exampleMemory ⟨100, 100⟩ feedThenRapid s hs
    ⟨100, 100⟩ ⟨0, 5⟩ false (fun _ => 0) ?_⟩
  rw [hval]
  decide

end Grbl
