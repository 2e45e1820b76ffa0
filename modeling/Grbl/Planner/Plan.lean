import Grbl.Planner.Buffer
import Grbl.Planner.View
import Grbl.Lib.Run

/-!
# Velocity plans of streamed blocks

* `View.setBlock_head`, `View.pushBlock`, `View.discard` : the operations on the chain of queued
  blocks;
* `Planner.Streamed` : the invariant while blocks are only added and discarded;
* `Planner.Feasible` : the plan can be executed within the accelerations of its blocks;
* `feasible_of_streaming` : it holds in every run that only adds and discards blocks;
* `Planner.Streamed.planCycleReinit` : initializing the plan again changes none of its speeds;
* `recalculate_eq_full` : the plan is the one a recalculation of the whole buffer gives.
-/

namespace Grbl

open Lib

namespace Planner

/-- The number of queued blocks. -/
def queued (s : Planner) : ℕ := count s.size s.tail s.head

theorem Ring.queued_eq {s : Planner} {n p : ℕ} (h : Ring s n p) : s.queued = n := by
  have hn := h.le_size
  rw [queued, h.head]
  exact count_slot h.tail_lt (by omega)

theorem Ring.not_full {s : Planner} {n p : ℕ} (h : Ring s n p)
    (hf : s.planCheckFullBuffer = false) : n < s.size := by
  have hn := h.le_size
  have hne : n ≠ s.size := fun he => by
    have := h.full_iff.2 he
    simp [planCheckFullBuffer, this] at hf
  omega

theorem Ring.tail_ne_head {s : Planner} {n p : ℕ} (h : Ring s n p) (hn : 0 < n) :
    s.tail ≠ s.head := fun he => by
  have := h.head_eq_tail.1 he.symm
  omega

theorem discard_eq {s : Planner} (hne : s.tail ≠ s.head) :
    s.planDiscardCurrentBlock =
      { s with
        currentSpeed := none
        velocityProfile := false
        planned := if s.tail = s.planned then s.next s.tail else s.planned
        tail := s.next s.tail } := by
  unfold planDiscardCurrentBlock
  rw [if_pos hne]
  dsimp only
  split <;> rfl

theorem Ring.slotAt_discard {s : Planner} {n p : ℕ} (h : Ring s n p) (hn : 0 < n) (k : ℕ) :
    s.planDiscardCurrentBlock.slotAt k = s.slotAt (k + 1) := by
  rw [discard_eq (h.tail_ne_head hn)]
  change slot s.size (s.next s.tail) k = s.slotAt (k + 1)
  rw [← h.slotAt_zero, slotAt_next, slotAt, slotAt, slot_add, Nat.add_comm 1 k]

namespace View

variable {s t : Planner} {c : Chain ℚ} {e : ℕ → ℚ} {p : ℕ}

theorem same (h : View s c e p) (hsize : t.size = s.size) (htail : t.tail = s.tail)
    (hhead : t.head = s.head) (hnext : t.nextHead = s.nextHead) (hplanned : t.planned = s.planned)
    (hb : ∀ k < c.len, t.blocks (s.slotAt k) = s.blocks (s.slotAt k)) : View t c e p := by
  have hs : ∀ k, t.slotAt k = s.slotAt k := fun k => by rw [slotAt, slotAt, hsize, htail]
  refine ⟨⟨?_, ?_, ?_, ?_, ?_, h.ring.planned_lt⟩, ?_, ?_, ?_⟩
  · rw [hsize, htail]; exact h.ring.tail_lt
  · rw [hsize]; exact h.ring.le_size
  · rw [hhead, hs, h.ring.head]
  · rw [hnext, hs, h.ring.nextHead]
  · rw [hplanned, hs, h.ring.planned]
  · intro k hk
    rw [hs, maxEntry, hb k hk]
    exact h.cap k hk
  · intro k hk
    rw [hs, Planner.gain, hb k hk]
    exact h.gain k hk
  · intro k hk
    rw [hs, Planner.entry, hb k hk]
    exact h.entry k hk

theorem block_setBlock_head (h : View s c e p) (b : PlanBlock) {k : ℕ} (hk : k < c.len) :
    (s.setBlock s.head b).blocks (s.slotAt k) = s.blocks (s.slotAt k) := by
  have hne : s.slotAt k ≠ s.head := fun he => by
    have := (h.ring.eq_head hk.le).1 he
    omega
  simp [Planner.setBlock, hne]

theorem setBlock_head (h : View s c e p) (b : PlanBlock) : View (s.setBlock s.head b) c e p :=
  h.same rfl rfl rfl rfl rfl fun _ hk => h.block_setBlock_head b hk

theorem pushBlock (h : View s c e p) (hn : c.len < s.size) (b : PlanBlock)
    (hx : 0 ≤ b.maxEntrySpeedSqr) (hg : 0 ≤ b.gain) :
    View (s.pushBlock b) (c.snoc b.maxEntrySpeedSqr b.gain hx hg)
      (fun i => if i < c.len then e i else b.entrySpeedSqr) p := by
  have hval : ∀ (f : PlanBlock → ℚ) (g : ℕ → ℚ), (∀ k < c.len, f (s.blocks (s.slotAt k)) = g k) →
      ∀ k < c.len + 1, f ((s.pushBlock b).blocks (s.slotAt k)) = if k < c.len then g k else f b := by
    intro f g hf k hk
    split
    · next hlt =>
        rw [← hf k hlt]
        exact congrArg f (h.block_setBlock_head b hlt)
    · next hge =>
        obtain rfl : k = c.len := by omega
        rw [← h.ring.head]
        simp [Planner.pushBlock, Planner.setBlock]
  have hp := h.ring.planned_lt
  refine ⟨⟨h.ring.tail_lt, hn, h.ring.nextHead, ?_, h.ring.planned, ?_⟩, ?_, ?_, ?_⟩
  · change s.next s.nextHead = s.slotAt (c.len + 1 + 1)
    rw [h.ring.nextHead, slotAt_next]
  · change p < c.len + 1 ∨ _
    omega
  · exact hval (·.maxEntrySpeedSqr) c.cap h.cap
  · exact hval PlanBlock.gain c.gain h.gain
  · exact hval (·.entrySpeedSqr) e h.entry

theorem discard (h : View s c e p) (hn : 0 < c.len) :
    View s.planDiscardCurrentBlock c.tail (fun i => e (i + 1)) (p - 1) := by
  have hlen : c.tail.len = c.len - 1 := rfl
  have hp := h.ring.planned_lt
  have hsize := h.ring.le_size
  have hs := h.ring.slotAt_discard hn
  have hd := discard_eq (h.ring.tail_ne_head hn)
  have hb : ∀ i, s.planDiscardCurrentBlock.blocks i = s.blocks i := fun i => by rw [hd]
  refine ⟨⟨?_, ?_, ?_, ?_, ?_, by omega⟩, ?_, ?_, ?_⟩
  · rw [hd]
    exact ringNext_lt h.ring.tail_lt
  · rw [hd]
    exact Nat.le_trans (Nat.sub_le _ _) hsize
  · rw [hs, hlen, Nat.sub_add_cancel hn, ← h.ring.head, hd]
  · rw [hs, hlen, Nat.sub_add_cancel hn, ← h.ring.nextHead, hd]
  · rw [hs, hd]
    dsimp only
    split
    · next heq =>
        rw [← h.ring.slotAt_zero, h.ring.eq_planned (Nat.zero_le _)] at heq
        rw [← h.ring.slotAt_zero, slotAt_next, ← heq]
    · next hne =>
        rw [← h.ring.slotAt_zero, h.ring.eq_planned (Nat.zero_le _)] at hne
        rw [h.ring.planned]
        congr 1
        omega
  · intro k hk
    rw [hs, maxEntry, hb]
    exact h.cap (k + 1) (by omega)
  · intro k hk
    rw [hs, Planner.gain, hb]
    exact h.gain (k + 1) (by omega)
  · intro k hk
    rw [hs, Planner.entry, hb]
    exact h.entry (k + 1) (by omega)

end View

/-! ## Streaming -/

/-- The invariant while blocks are only added and discarded: nothing executes, and the queued
blocks are planned up to the planned pointer. -/
structure Streamed (s : Planner) : Prop where
  idle : s.currentSpeed = none
  view : ∃ c e p, View s c e p ∧ (c.len = 0 ∨ Planned c e p)

/-- The plan can be executed within the accelerations of its blocks, and ends at rest. -/
structure Feasible (s : Planner) : Prop where
  le_max : ∀ k < s.queued, s.entry (s.slotAt k) ≤ s.maxEntry (s.slotAt k)
  accel : ∀ k, k + 1 < s.queued →
    s.entry (s.slotAt (k + 1)) ≤ s.entry (s.slotAt k) + s.gain (s.slotAt k)
  decel : ∀ k, k + 1 < s.queued →
    s.entry (s.slotAt k) ≤ s.entry (s.slotAt (k + 1)) + s.gain (s.slotAt k)
  stop : ∀ k, k + 1 = s.queued → s.entry (s.slotAt k) ≤ s.gain (s.slotAt k)

theorem Streamed.feasible {s : Planner} (h : Streamed s) : Feasible s := by
  obtain ⟨c, e, p, hv, hplan⟩ := h.view
  have hq := hv.ring.queued_eq
  rcases hplan with h0 | hplan
  · rw [h0] at hq
    refine ⟨fun k hk => ?_, fun k hk => ?_, fun k hk => ?_, fun k hk => ?_⟩ <;> omega
  · refine ⟨fun k hk => ?_, fun k hk => ?_, fun k hk => ?_, fun k hk => ?_⟩ <;> rw [hq] at hk
    · rw [hv.entry k hk, hv.cap k hk]
      exact hplan.le_cap hk
    · rw [hv.entry k (by omega), hv.entry (k + 1) hk, hv.gain k (by omega)]
      exact hplan.succ_le hk
    · rw [hv.entry k (by omega), hv.entry (k + 1) hk, hv.gain k (by omega)]
      exact hplan.le_succ hk
    · rw [hv.entry k (by omega), hv.gain k (by omega)]
      exact hplan.last_le hk

theorem Streamed.reset (size : ℕ) (memory : ℕ → PlanBlock) (ov : Override) :
    Streamed (planReset size memory ov) := by
  refine ⟨rfl, ⟨0, fun _ => 0, fun _ => 0, by simp, by simp⟩, fun _ => 0, 0, ?_, Or.inl rfl⟩
  have h0 : slot size 0 0 = 0 := slot_zero (Nat.succ_pos size)
  have h1 : ringNext size 0 = slot size 0 1 := ringNext_eq (Nat.succ_pos size)
  exact ⟨⟨Nat.succ_pos size, Nat.zero_le size, h0.symm, h1, h0.symm, Or.inr ⟨rfl, rfl⟩⟩,
    fun k hk => absurd hk (Nat.not_lt_zero k), fun k hk => absurd hk (Nat.not_lt_zero k),
    fun k hk => absurd hk (Nat.not_lt_zero k)⟩

theorem Streamed.discard {s : Planner} (h : Streamed s) : Streamed s.planDiscardCurrentBlock := by
  obtain ⟨c, e, p, hv, hplan⟩ := h.view
  rcases Nat.eq_zero_or_pos c.len with h0 | hpos
  · have he : s.planDiscardCurrentBlock = s :=
      if_neg (not_not.2 (hv.ring.head_eq_tail.2 h0).symm)
    rw [he]
    exact h
  · have hplan : Planned c e p := hplan.resolve_left (by omega)
    have hidle : s.planDiscardCurrentBlock.currentSpeed = none := by
      unfold planDiscardCurrentBlock
      dsimp only
      split_ifs
      · rfl
      · rfl
      · exact h.idle
    refine ⟨hidle, c.tail, _, _, hv.discard hpos, ?_⟩
    rcases Nat.eq_zero_or_pos c.tail.len with h0 | hpos'
    · exact Or.inl h0
    · exact Or.inr (hplan.drop (c.drops_tail hpos) hpos')

/-! ## Adding a line -/

/-- A block as `plan_buffer_line` queues it: entered at rest for now, with a length. -/
structure Fresh (b : PlanBlock) : Prop where
  entry : b.entrySpeedSqr = 0
  junction : 0 ≤ b.maxJunctionSpeedSqr
  maxEntry : 0 ≤ b.maxEntrySpeedSqr
  acceleration : 0 < b.acceleration
  millimeters : 0 < b.millimeters

theorem Fresh.gain_pos {b : PlanBlock} (h : Fresh b) : 0 < b.gain :=
  PlanBlock.gain_pos h.acceleration h.millimeters

/-- The planner before a new block is pushed: buffer and reload flag as they were. -/
structure SameBuffer (s t : Planner) : Prop where
  size : t.size = s.size
  tail : t.tail = s.tail
  head : t.head = s.head
  nextHead : t.nextHead = s.nextHead
  planned : t.planned = s.planned
  blocks : t.blocks = s.blocks
  currentSpeed : t.currentSpeed = s.currentSpeed

theorem View.sameBuffer {s t : Planner} {c : Chain ℚ} {e : ℕ → ℚ} {p : ℕ} (h : View s c e p)
    (hs : SameBuffer s t) : View t c e p :=
  h.same hs.size hs.tail hs.head hs.nextHead hs.planned fun _ _ => by rw [hs.blocks]

/-- A line either leaves the queue alone (it has no length, or it is a system motion), or it is
pushed as a fresh block and the plan is recalculated. -/
theorem planBufferLineWith_cases (s : Planner) (targetSteps sysPosition : Axis → ℤ) (d : LineData)
    (g : Geometry) (rpm : ℚ) :
    (∃ t b d' ok, SameBuffer s t ∧ ∀ r, planBufferLineWith r s targetSteps sysPosition d g rpm =
      (t.setBlock t.head b, d', ok)) ∨
    (∃ t b, SameBuffer s t ∧ Fresh b ∧ ∀ r, planBufferLineWith r s targetSteps sysPosition d g rpm =
      (r (t.pushBlock b), { d with outputCommands := [] }, true)) := by
  set b := s.newBlock targetSteps (if d.condition.systemMotion then sysPosition else s.position) d
  set t : Planner := { s with direction := b.direction } with ht
  have hst : SameBuffer s t := ⟨rfl, rfl, rfl, rfl, rfl, rfl, rfl⟩
  set b' := t.finishBlock b { d with outputCommands := [] } g
  have hunfold : ∀ r, planBufferLineWith r s targetSteps sysPosition d g rpm =
      if b.stepEventCount = 0 then (t.setBlock t.head b, d, false)
      else if b'.condition.systemMotion then
        (t.setBlock t.head b', { d with outputCommands := [] }, true)
      else
        (r ((t.advance b' targetSteps rpm).pushBlock (t.queuedBlock b' rpm)),
          { d with outputCommands := [] }, true) := fun _ => rfl
  by_cases h0 : b.stepEventCount = 0
  · exact Or.inl ⟨t, b, _, _, hst, fun r => by rw [hunfold, if_pos h0]⟩
  · by_cases hsys : b'.condition.systemMotion = true
    · exact Or.inl ⟨t, b', _, _, hst, fun r => by rw [hunfold, if_neg h0, if_pos hsys]⟩
    · have hj : 0 ≤ b'.maxJunctionSpeedSqr := by
        unfold b' finishBlock
        dsimp only
        split
        · exact le_rfl
        · exact g.maxJunctionSpeedSqr_nonneg
      exact Or.inr ⟨t.advance b' targetSteps rpm, t.queuedBlock b' rpm,
        ⟨rfl, rfl, rfl, rfl, rfl, rfl, rfl⟩,
        ⟨rfl, hj, profileMaxEntrySpeedSqr_nonneg hj _ _, g.acceleration_pos, g.millimeters_pos⟩,
        fun r => by rw [hunfold, if_neg h0, if_neg hsys]⟩

/-- Pushing a fresh block onto a streamed buffer and recalculating keeps the invariant, and it does
not matter whether the recalculation begins at the planned pointer or at the tail. -/
theorem Streamed.push {s : Planner} (h : Streamed s) (hf : s.planCheckFullBuffer = false)
    {b : PlanBlock} (hb : Fresh b) :
    Streamed (s.pushBlock b).plannerRecalculate ∧
    ∀ k < (s.pushBlock b).plannerRecalculate.queued,
      (s.pushBlock b).plannerRecalculate.entry ((s.pushBlock b).slotAt k) =
        ({ s.pushBlock b with planned := (s.pushBlock b).tail } : Planner).plannerRecalculate.entry
          ((s.pushBlock b).slotAt k) := by
  obtain ⟨c, e, p, hv, hplan⟩ := h.view
  have hn := hv.ring.not_full hf
  have hpush := hv.pushBlock hn b hb.maxEntry hb.gain_pos.le
  set d := c.snoc b.maxEntrySpeedSqr b.gain hb.maxEntry hb.gain_pos.le with hd
  set e' : ℕ → ℚ := fun i => if i < c.len then e i else b.entrySpeedSqr with he'
  have hlen : d.len = c.len + 1 := rfl
  have hrec := hpush.plannerRecalculate (by omega) h.idle
  have hz : (s.pushBlock b).tail = (s.pushBlock b).slotAt 0 := hpush.ring.slotAt_zero.symm
  have hfull := (hpush.setPlanned hz (by omega : 0 < d.len)).plannerRecalculate (by omega) h.idle
  have hslot := (OnlySpeeds.plannerRecalculate (s.pushBlock b)).slotAt
  have hslot' := (OnlySpeeds.plannerRecalculate
    ({ s.pushBlock b with planned := (s.pushBlock b).tail } : Planner)).slotAt
  have hidle := (OnlySpeeds.plannerRecalculate (s.pushBlock b)).idle h.idle
  have hboth : Planned d (d.replan e' p) (d.mark e' p) ∧
      ∀ k < d.len, d.replan e' p k = d.replan e' 0 k := by
    rcases hplan with h0 | hplan
    · obtain rfl : p = 0 := by
        rcases hv.ring.planned_lt with hp | hp <;> omega
      have hm : d.mark e' 0 = 0 := by
        rw [Chain.mark, show d.len - 1 - 0 = 0 by omega, Chain.markFrom]
      rw [hm]
      refine ⟨Planned.single d (by omega) ?_, fun _ _ => rfl⟩
      rw [d.replan_of_le e' le_rfl, he']
      dsimp only
      rw [if_neg (by omega), hb.entry]
    · have hplan' : Planned c e' p := hplan.congr fun i hi => if_pos hi
      have hx : Extends c d := c.extends_snoc hb.maxEntry hb.gain_pos.le
      exact ⟨hplan'.replan hx, hplan'.replan_eq_full hx⟩
  refine ⟨⟨hidle, d, _, _, hrec, Or.inr hboth.1⟩, fun k hk => ?_⟩
  rw [hrec.ring.queued_eq] at hk
  have h1 := hrec.entry k hk
  have h2 := hfull.entry k hk
  rw [hslot] at h1
  rw [hslot', show ({ s.pushBlock b with planned := (s.pushBlock b).tail } : Planner).slotAt k
    = (s.pushBlock b).slotAt k from rfl] at h2
  rw [h1, h2, hboth.2 k hk]

theorem Streamed.line {s : Planner} (h : Streamed s) (hf : s.planCheckFullBuffer = false)
    (targetSteps sysPosition : Axis → ℤ) (d : LineData) (g : Geometry) (rpm : ℚ) :
    Streamed (s.planBufferLine targetSteps sysPosition d g rpm).1 := by
  obtain ⟨c, e, p, hv, hplan⟩ := h.view
  rcases planBufferLineWith_cases s targetSteps sysPosition d g rpm with
    ⟨t, b, d', ok, hst, hr⟩ | ⟨t, b, hst, hb, hr⟩
  · rw [planBufferLine, hr]
    exact ⟨hst.currentSpeed.trans h.idle, c, e, p, (hv.sameBuffer hst).setBlock_head b, hplan⟩
  · have ht : Streamed t := ⟨hst.currentSpeed.trans h.idle, c, e, p, hv.sameBuffer hst, hplan⟩
    have htf : t.planCheckFullBuffer = false := by
      rw [← hf, planCheckFullBuffer, planCheckFullBuffer, hst.tail, hst.nextHead]
    rw [planBufferLine, hr]
    exact (ht.push htf hb).1

theorem Streamed.planCycleReinit {s : Planner} (h : Streamed s) :
    ∀ k < s.queued, s.planCycleReinit.entry (s.slotAt k) = s.entry (s.slotAt k) := by
  obtain ⟨c, e, p, hv, hplan⟩ := h.view
  intro k hk
  rw [hv.ring.queued_eq] at hk
  have hplan : Planned c e p := hplan.resolve_left (by omega)
  have hst : s.stUpdatePlanBlockParameters = s := by
    rw [stUpdatePlanBlockParameters, h.idle]
  have hne := hv.ring.tail_ne_head (by omega)
  have hz := hv.ring.slotAt_zero.symm
  have hfull := (hv.setPlanned hz (by omega : 0 < c.len)).plannerRecalculate (by omega) h.idle
  have hr : s.planCycleReinit =
      ({ s with planned := s.tail } : Planner).plannerRecalculate := by
    unfold Planner.planCycleReinit
    rw [hst]
    exact if_pos hne
  have hslot : s.planCycleReinit.slotAt k = s.slotAt k := by
    rw [hr, (OnlySpeeds.plannerRecalculate _).slotAt]
    rfl
  rw [hv.entry k hk, ← hslot, hr, hfull.entry k hk, hplan.replan_self k hk]

/-- `plan_buffer_line` with the passes run over the whole buffer. -/
def planBufferLineFull : Planner → (Axis → ℤ) → (Axis → ℤ) → LineData → Geometry → ℚ →
    Planner × LineData × Bool :=
  planBufferLineWith fun s => ({ s with planned := s.tail } : Planner).plannerRecalculate

end Planner

/-! ## Runs -/

/-- The operations of a stream of motions: lines and discards. -/
def PlanOp.Streams : PlanOp → Prop
  | .line _ _ _ _ _ => True
  | .discard => True
  | .feedOverride _ _ _ _ => False
  | .prep _ _ _ => False

theorem streamed_planStep {s t : Planner} {o : PlanOp} (h : s.Streamed) (ho : o.Streams)
    (hst : planStep s o = some t) : t.Streamed := by
  cases o with
  | line targetSteps sysPosition d g rpm =>
      rw [planStep] at hst
      split at hst
      · cases hst
      · next hf =>
          cases hst
          exact h.line (Bool.not_eq_true _ ▸ hf) targetSteps sysPosition d g rpm
  | discard =>
      cases hst
      exact h.discard
  | feedOverride => exact absurd ho id
  | prep => exact absurd ho id

theorem streamed_of_run {size : ℕ} {memory : ℕ → PlanBlock} {ov : Override} {ops : List PlanOp}
    {s : Planner} (hops : ∀ o ∈ ops, o.Streams)
    (hrun : run planStep (Planner.planReset size memory ov) ops = some s) : s.Streamed :=
  run_invariant_along (P := fun _ o => o.Streams)
    (fun _ _ _ hs ho hst => streamed_planStep hs ho hst) ops _ s
    (Planner.Streamed.reset size memory ov) (along_of_forall ops _ hops) hrun

/-- A motion of 10 mm with a junction speed of 20 mm/min. -/
def exampleGeometry : Geometry where
  millimeters := 10
  acceleration := 5
  rapidRate := 60
  maxJunctionSpeedSqr := 400
  millimeters_pos := by norm_num
  acceleration_pos := by norm_num
  maxJunctionSpeedSqr_nonneg := by norm_num

/-- A feed motion at 30 mm/min. -/
def exampleLine : LineData where
  feedRate := 30
  condition := ⟨false, false, false, false, false, false⟩
  synchronized := false
  outputCommands := []

/-- The memory of the buffer before its first use. -/
def exampleMemory : ℕ → PlanBlock := fun _ =>
  ⟨fun _ => 0, 0, fun _ => false, exampleLine.condition, false, 0, 0, 0, 0, 0, 0, 0, []⟩

/-- A line to `n` steps on every axis. -/
def exampleOp (n : ℤ) : PlanOp := .line (fun _ => n) (fun _ => 0) exampleLine exampleGeometry 0

/-- After every run of lines and discards the plan is feasible. -/
theorem feasible_of_streaming (size : ℕ) (memory : ℕ → PlanBlock) (ov : Override)
    (ops : List PlanOp) (s : Planner) (hops : ∀ o ∈ ops, o.Streams)
    (hrun : run planStep (Planner.planReset size memory ov) ops = some s) : s.Feasible :=
  (streamed_of_run hops hrun).feasible

theorem feasible_of_streaming_three_lines :
    ∃ s, run planStep (Planner.planReset 3 exampleMemory ⟨100, 100⟩)
      [exampleOp 8, exampleOp 16, .discard, exampleOp 24] = some s ∧ s.Feasible := by
  obtain ⟨s, hs⟩ := Option.isSome_iff_exists.1 (show (run planStep
    (Planner.planReset 3 exampleMemory ⟨100, 100⟩)
      [exampleOp 8, exampleOp 16, .discard, exampleOp 24]).isSome by decide +kernel)
  exact ⟨s, hs, feasible_of_streaming 3 _ _ _ s (by simp [exampleOp, PlanOp.Streams]) hs⟩

/-- After every run of lines and discards, adding a line gives every queued block the entry speed
that both passes over the whole buffer give it. -/
theorem entry_eq_full_recalculation (size : ℕ) (memory : ℕ → PlanBlock) (ov : Override)
    (ops : List PlanOp) (s : Planner) (hops : ∀ o ∈ ops, o.Streams)
    (hrun : run planStep (Planner.planReset size memory ov) ops = some s)
    (hf : s.planCheckFullBuffer = false) (targetSteps sysPosition : Axis → ℤ) (d : LineData)
    (g : Geometry) (rpm : ℚ) :
    let t := (s.planBufferLine targetSteps sysPosition d g rpm).1
    let u := (s.planBufferLineFull targetSteps sysPosition d g rpm).1
    ∀ k < t.queued, t.entry (t.slotAt k) = u.entry (t.slotAt k) := by
  have h := streamed_of_run hops hrun
  obtain ⟨c, e, p, hv, hplan⟩ := h.view
  rcases Planner.planBufferLineWith_cases s targetSteps sysPosition d g rpm with
    ⟨t, b, d', ok, hst, hr⟩ | ⟨t, b, hst, hb, hr⟩
  · rw [Planner.planBufferLine, Planner.planBufferLineFull, hr, hr]
    exact fun _ _ => rfl
  · have ht : t.Streamed := ⟨hst.currentSpeed.trans h.idle, c, e, p, hv.sameBuffer hst, hplan⟩
    have htf : t.planCheckFullBuffer = false := by
      rw [← hf, Planner.planCheckFullBuffer, Planner.planCheckFullBuffer, hst.tail, hst.nextHead]
    rw [Planner.planBufferLine, Planner.planBufferLineFull, hr, hr]
    intro t' u' k hk
    have hslot := (Planner.OnlySpeeds.plannerRecalculate (t.pushBlock b)).slotAt k
    rw [hslot]
    exact (ht.push htf hb).2 k hk

theorem entry_eq_full_recalculation_fourth_line :
    ∃ s, run planStep (Planner.planReset 3 exampleMemory ⟨100, 100⟩)
      [exampleOp 8, exampleOp 16, .discard, exampleOp 24] = some s ∧
      ∀ k < (s.planBufferLine (fun _ => 32) (fun _ => 0) exampleLine exampleGeometry 0).1.queued,
        (s.planBufferLine (fun _ => 32) (fun _ => 0) exampleLine exampleGeometry 0).1.entry
          ((s.planBufferLine (fun _ => 32) (fun _ => 0) exampleLine exampleGeometry 0).1.slotAt k) =
        (s.planBufferLineFull (fun _ => 32) (fun _ => 0) exampleLine exampleGeometry 0).1.entry
          ((s.planBufferLine (fun _ => 32) (fun _ => 0) exampleLine exampleGeometry 0).1.slotAt k) := by
  obtain ⟨s, hs⟩ := Option.isSome_iff_exists.1 (show (run planStep
    (Planner.planReset 3 exampleMemory ⟨100, 100⟩)
      [exampleOp 8, exampleOp 16, .discard, exampleOp 24]).isSome by decide +kernel)
  have hf : (run planStep (Planner.planReset 3 exampleMemory ⟨100, 100⟩)
      [exampleOp 8, exampleOp 16, .discard, exampleOp 24]).map Planner.planCheckFullBuffer =
      some false := by decide +kernel
  rw [hs, Option.map_some, Option.some_inj] at hf
  exact ⟨s, hs, entry_eq_full_recalculation 3 _ _ _ s (by simp [exampleOp, PlanOp.Streams]) hs hf
    (fun _ => 32) (fun _ => 0) exampleLine exampleGeometry 0⟩

end Grbl
