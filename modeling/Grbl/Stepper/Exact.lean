import Grbl.Stepper.Tracing

/-!
# Exactness of the line tracer

* `Exact.pulseStart`, `Exact.fetchSegment`, `Exact.endTick`, `Exact.goIdle` : the parts of a tick;
* `exact_step`, `exact_of_run` : every step keeps the invariant, and so does every run in which the
  segment buffer does not run empty inside a block;
* `traced_exactly_of_no_underrun` : then every block gets exactly its pulses;
* `underrun_loses_step` : a block that is interrupted may lose steps.
-/

namespace Grbl

open Lib

namespace Machine

/-! ## The interrupt -/

section
variable {m : Machine}

theorem Exact.pulseStart (h : Exact m m.pending) : Exact m.pulseStart fun _ => 0 := by
  unfold Machine.pulseStart
  split
  · next hn => exact { h with active := fun he => absurd hn he }
  · next e he =>
    have hcome : Machine.toCome { m with st := { m.st with
        execSegment := if m.st.stepCount = 0 then none else m.st.execSegment } } = m.toCome := by
      unfold toCome
      by_cases hz : m.st.stepCount = 0
      · simp [hz, uncut]
      · simp [hz, uncut]
    have hother : ∀ (b : ℕ) (x : Axis → ℕ), b ≠ m.history.started →
        Function.update m.history.emitted m.history.started x b = m.history.emitted b :=
      fun b x hb => Function.update_of_ne hb _ _
    refine { h with
      unstarted := fun b hb i => ?_
      complete := fun b hb hbs i => ?_
      idle := fun hn => ?_
      active := fun hn => ?_
      increment := fun hs hc => h.increment ?_ hc }
    · change Function.update m.history.emitted _ _ b i = 0
      rw [hother b _ (Nat.ne_of_gt hb)]
      exact h.unstarted b hb i
    · change Function.update m.history.emitted _ _ b i = _ ∧ _
      rw [hother b _ (Nat.ne_of_lt hbs)]
      exact h.complete b hb hbs i
    · cases he.symm.trans hn
    · obtain ⟨hpos, a, ha, ht⟩ := h.active (by rw [he]; exact Option.some_ne_none e)
      refine ⟨hpos, a, by rw [← hcome] at ha; exact ha, ?_⟩
      have hself : (fun i => Function.update m.history.emitted m.history.started
          (fun j => m.history.emitted m.history.started j + if m.st.stepOut j then 1 else 0)
            m.history.started i + 0) =
          fun i => m.history.emitted m.history.started i + m.pending i := by
        funext i
        rw [Function.update_self]
        rfl
      change Tracing _ _ _ _ (fun i => Function.update m.history.emitted m.history.started
        (fun j => m.history.emitted m.history.started j + if m.st.stepOut j then 1 else 0)
            m.history.started i + 0) a
      rw [hself]
      exact { ht with }
    · change (if m.st.stepCount = 0 then none else m.st.execSegment) ≠ none at hs
      rwa [if_neg hc] at hs

theorem Exact.started_cases (hs : Sound m) {out : Axis → ℕ} (h : Exact m out)
    (hseg : m.st.execSegment = none)
    {q : ℕ × Segment} {l : List (ℕ × Segment)} (hfifo : m.history.fifo = q :: l) :
    m.st.execBlock = some q.2.execBlock ∧ q.1 = m.history.started ∨
      m.st.execBlock ≠ some q.2.execBlock ∧ q.1 = m.history.started + 1 ∧ m.toCome = 0 := by
  have hiff := hs.ne_execBlock_iff hfifo
  have hsteady := hs.order.steady
  have hload := hs.order.loaded
  rw [hfifo] at hsteady
  have htail := hsteady.2.le
  have hcome : m.toCome = queuedWeight m.history.started m.history.fifo +
      m.uncut m.history.started := by
    rw [toCome, if_neg fun hl => hl.1 hseg]
  by_cases he : m.st.execBlock = some q.2.execBlock
  · refine Or.inl ⟨he, ?_⟩
    by_contra hq
    exact hiff.2 (Or.inr hq) he
  · refine Or.inr ⟨he, ?_⟩
    have hnext : q.1 = m.history.started + 1 := by
      refine hsteady.1.resolve_left fun hq => ?_
      -- a block that was left has nothing queued
      have hz := (h.idle ((hiff.1 he).resolve_right fun hne => hne hq)).1
      have hn := (h.segments q (by rw [hfifo]; exact List.mem_cons_self)).1
      have hw : 0 < q.2.weight := Nat.mul_pos hn (Nat.pow_pos (by decide))
      rw [hcome, hfifo, queuedWeight_cons, if_pos hq] at hz
      omega
    refine ⟨hnext, ?_⟩
    rw [hcome, uncut, if_neg (by omega), queuedWeight_eq_zero fun p hp => ?_]
    have hmem := hs.order.steady.mem p hp
    rw [hfifo] at hp
    rcases List.mem_cons.1 hp with rfl | hp
    · omega
    · have := hsteady.2.mem p hp
      omega

theorem Exact.startBlock (hs : Sound m) (h : Exact m fun _ => 0) (hseg : m.st.execSegment = none)
    {q : ℕ × Segment} {l : List (ℕ × Segment)} (hfifo : m.history.fifo = q :: l)
    (hnext : q.1 = m.history.started + 1) (hz : m.toCome = 0) :
    Exact (m.startBlock q.2.execBlock q.1) fun _ => 0 := by
  obtain ⟨-, hpos, hentry⟩ := hs.tail hfifo
  have huse : m.InUse q.1 := ⟨hpos, Or.inr ⟨q, by rw [hfifo]; exact List.mem_cons_self, rfl⟩⟩
  have hbounds := hs.inUse_bounds huse
  have hdata : m.stBlocks q.2.execBlock = StBlock.ofMotion (m.history.motion q.1) := by
    rw [hentry, hs.data.data q.1 huse, blockData]
    exact if_neg (by omega)
  have hreg := h.motions q.1 hpos (hbounds.2.1.trans hs.data.queued)
  obtain ⟨hevent, -⟩ := hreg.ofMotion
  have hsecpos := hreg.pos
  have hprev : 0 < m.history.started → m.Complete m.history.started m.position := by
    intro hp
    by_cases he : m.st.execBlock = none
    · exact (h.idle he).2 hp
    · exact h.complete_of_toCome hs he hz
  have hother : ∀ b, b ≠ q.1 → Function.update m.history.startPosition q.1 m.position b =
      m.history.startPosition b := fun b hb => Function.update_of_ne hb _ _
  refine { h with
    future := fun b hb hbl => h.future b ?_ hbl
    unstarted := fun b hb i => h.unstarted b ?_ i
    complete := fun b hb hbs i => ?_
    idle := fun he => by cases he
    active := fun _ => ⟨hpos, 0, ?_, ?_⟩
    increment := fun he => absurd hseg he }
  · have hb' : q.1 < b := hb
    omega
  · have hb' : q.1 < b := hb
    omega
  · have hbs' : b < q.1 := hbs
    change _ ∧ Function.update m.history.startPosition q.1 m.position (b + 1) i =
      Function.update m.history.startPosition q.1 m.position b i + _
    rw [hother b (by omega)]
    by_cases hlast : b = m.history.started
    · rw [hlast, ← hnext, Function.update_self]
      exact hprev (by omega) i
    · rw [hother (b + 1) (by omega)]
      exact h.complete b hb (by omega) i
  · have hf := h.future q.1 (by omega) hbounds.2.1
    have hcome : (m.startBlock q.2.execBlock q.1).toCome =
        queuedWeight q.1 m.history.fifo + m.uncut q.1 := by
      rw [toCome, if_neg fun hl => hl.1 hseg]
      rfl
    rw [hcome, Nat.zero_add]
    exact hf
  · exact {
      stepEventCount := by
        change (m.stBlocks q.2.execBlock).stepEventCount = _
        rw [hdata, hevent]
        rfl
      direction := by
        change (m.stBlocks q.2.execBlock).direction = _
        rw [hdata]
        rfl
      counter := fun i => by
        change Traced (8 * (m.history.motion q.1).stepEventCount)
          (4 * (m.history.motion q.1).stepEventCount)
          ((m.stBlocks q.2.execBlock).stepEventCount >>> 1) (m.history.emitted q.1 i + 0) _
        have hhalf : (8 * (m.history.motion q.1).stepEventCount) >>> 1 =
            4 * (m.history.motion q.1).stepEventCount := by
          rw [Nat.shiftRight_eq_div_pow]
          omega
        rw [hdata, hevent, hhalf, h.unstarted q.1 (by omega) i, Nat.mul_zero]
        exact Traced.start (by omega) (by omega)
      position := fun i => by
        change m.position i = Function.update m.history.startPosition q.1 m.position q.1 i +
          travel _ (m.history.emitted q.1 i + 0)
        rw [Function.update_self, h.unstarted q.1 (by omega) i]
        cases (m.startBlock q.2.execBlock q.1).current.direction i <;> simp [travel] }

theorem enterBlock_execSegment (m : Machine) (seg : Segment) :
    (m.enterBlock seg).st.execSegment = m.st.execSegment := by
  unfold enterBlock
  split <;> rfl

theorem Exact.enterBlock (hs : Sound m) (h : Exact m fun _ => 0) (hseg : m.st.execSegment = none)
    {q : ℕ × Segment} {l : List (ℕ × Segment)} (hfifo : m.history.fifo = q :: l) :
    Exact (m.enterBlock q.2) fun _ => 0 := by
  have hnumber : m.tailNumber = q.1 := by rw [tailNumber, hfifo]
  rw [Machine.enterBlock, hnumber]
  rcases h.started_cases hs hseg hfifo with ⟨he, -⟩ | ⟨he, hnext, hz⟩
  · rw [if_neg (not_not.2 he)]
    exact h
  · rw [if_pos he]
    exact h.startBlock hs hseg hfifo hnext hz

theorem Exact.popSegment (hs : Sound m) (h : Exact m fun _ => 0) (hseg : m.st.execSegment = none)
    (hne : m.segmentBufferTail ≠ m.segmentBufferHead) :
    Exact m.popSegment (fun _ => 0) ∧ m.popSegment.st.stepCount ≠ 0 := by
  obtain ⟨q, l, hfifo⟩ := hs.fifo_ne_nil hne
  obtain ⟨hs', hexec, hstart, hfifo', -⟩ := hs.enterBlock hseg hfifo
  have h' := h.enterBlock hs hseg hfifo
  have hseg' := (enterBlock_execSegment m q.2).trans hseg
  obtain ⟨hslot, hpos, hentry⟩ := hs'.tail hfifo'
  obtain ⟨hn, hl⟩ := h.segments q (by rw [hfifo]; exact List.mem_cons_self)
  have hmem : q ∈ (m.enterBlock q.2).history.fifo := by rw [hfifo']; exact List.mem_cons_self
  have huse : (m.enterBlock q.2).InUse q.1 := ⟨hpos, Or.inr ⟨q, hmem, rfl⟩⟩
  have hreg := h'.motions q.1 hpos ((hs'.inUse_bounds huse).2.1.trans hs'.data.queued)
  have hsteps : ((m.enterBlock q.2).stBlocks q.2.execBlock).steps =
      (StBlock.ofMotion ((m.enterBlock q.2).history.motion q.1)).steps := by
    rw [hentry, hs'.data.data q.1 huse, blockData]
    split <;> rfl
  rw [Machine.popSegment, (hs.tail hfifo).1]
  have hnz : q.2.nStep ≠ 0 := Nat.pos_iff_ne_zero.1 hn
  refine ⟨?_, hnz⟩
  have hcome : Machine.toCome { m.enterBlock q.2 with
      st := { (m.enterBlock q.2).st with
        execSegment := some m.segmentBufferTail
        stepCount := q.2.nStep
        amassLevel := q.2.amassLevel
        steps := fun i =>
          ((m.enterBlock q.2).stBlocks q.2.execBlock).steps i >>> q.2.amassLevel } } =
      (m.enterBlock q.2).toCome := by
    rw [toCome, toCome, if_pos ⟨Option.some_ne_none _, hnz⟩, if_neg fun hlive => hlive.1 hseg', hfifo',
      queuedWeight_cons, if_pos hstart.symm]
    rfl
  refine { h' with
    idle := fun he => ?_
    active := fun he => ?_
    increment := fun _ _ => ⟨hl, fun i => ?_⟩ }
  · cases hexec.symm.trans he
  · obtain ⟨hp, a, ha, ht⟩ := h'.active he
    exact ⟨hp, a, by rw [hcome]; exact ha, { ht with }⟩
  · change ((m.enterBlock q.2).stBlocks q.2.execBlock).steps i >>> q.2.amassLevel =
      ((m.enterBlock q.2).history.motion (m.enterBlock q.2).history.started).steps i *
        tickWeight q.2.amassLevel
    rw [hsteps, hreg.ofMotion.2 i, hstart, shift_level hl]

theorem Exact.fetchSegment (hs : Sound m) (h : Exact m m.pending) {m₁ : Machine}
    (hf : m.pulseStart.fetchSegment = some m₁) :
    Exact m₁ (fun _ => 0) ∧ m₁.st.stepCount ≠ 0 := by
  have hp := h.pulseStart
  rcases fetchSegment_cases hf with ⟨⟨t, ht⟩, rfl⟩ | ⟨hseg, hne, rfl⟩
  · exact ⟨hp, hs.stepCount_ne_zero ht⟩
  · exact hp.popSegment hs.pulseStart hseg hne

/-- Within 32 bits an axis is traced as by `advance`. -/
theorem traceAxes_eq {s : Stepper} {i : Axis} (hlt : s.counter i + s.steps i < 2 ^ 32)
    (hle : s.counter i ≤ s.stepEventCount) :
    traceAxes s i = advance s.stepEventCount (s.steps i) (s.counter i) := by
  unfold traceAxes
  split
  · next hz =>
    rw [advance, hz.2, Nat.add_zero, if_neg (not_lt.2 hle)]
  · rw [traceAxis, u32_of_lt hlt, advance]

/-- What a tick finds: increments no larger than the threshold, counters that fit. -/
theorem Exact.increment_le (hs : Sound m) (h : Exact m fun _ => 0) (hexec : Executing m)
    (hc : m.st.stepCount ≠ 0) (i : Axis) :
    m.st.steps i ≤ m.st.stepEventCount ∧ m.st.counter i ≤ m.st.stepEventCount ∧
      m.st.counter i + m.st.steps i < 2 ^ 32 := by
  obtain ⟨hpos, a, -, ht⟩ := h.active hexec.2.1
  have hreg := h.regular hs hpos
  have hsteps := (h.increment (by rw [hexec.1]; exact Option.some_ne_none _) hc).2 i
  have hle := hreg.steps i
  have hlt := hreg.lt
  have hcount := (ht.counter i).le
  have hw : m.st.steps i ≤ 8 * m.current.stepEventCount := by
    rw [hsteps, Nat.mul_comm]
    exact Nat.mul_le_mul (tickWeight_le _) hle
  rw [ht.stepEventCount]
  exact ⟨hw, hcount, by omega⟩

theorem Exact.traceLine (hs : Sound m) (h : Exact m fun _ => 0) (hexec : Executing m)
    (hc : m.st.stepCount ≠ 0) :
    ∃ a, a + m.toCome = 8 * m.current.stepEventCount ∧
      Tracing m.traceLine.st m.current (m.history.startPosition m.history.started)
        m.traceLine.position
        (fun i => m.history.emitted m.history.started i + m.traceLine.pending i)
        (a + tickWeight m.st.amassLevel) := by
  obtain ⟨-, a, ha, ht⟩ := h.active hexec.2.1
  refine ⟨a, ha, ?_⟩
  have hinc := (h.increment (by rw [hexec.1]; exact Option.some_ne_none _) hc).2
  have haxis : ∀ i, traceAxes m.st i =
      advance m.st.stepEventCount (m.st.steps i) (m.st.counter i) := fun i =>
    traceAxes_eq (h.increment_le hs hexec hc i).2.2 (h.increment_le hs hexec hc i).2.1
  have hpend : ∀ i, m.traceLine.pending i = if (traceAxes m.st i).2 then 1 else 0 := by
    intro i
    change (if ((traceAxes m.st i).2 && (!m.isHoming || m.homingAxisLock i)) then 1 else 0) = _
    rw [h.isHoming]
    simp
  exact {
    stepEventCount := ht.stepEventCount
    direction := ht.direction
    counter := fun i => by
      have hadv := (ht.counter i).advance (d := m.st.steps i)
        (by rw [← ht.stepEventCount]; exact (h.increment_le hs hexec hc i).1)
      rw [← ht.stepEventCount, ← haxis i, ← hpend i, Nat.add_zero, hinc i, ← Nat.mul_add,
        ht.stepEventCount] at hadv
      exact hadv
    position := fun i => by
      have hposn := ht.position i
      rw [hpend i]
      change (if (traceAxes m.st i).2 then m.position i + (if m.st.dirOut i then -1 else 1)
        else m.position i) = m.history.startPosition m.history.started i +
          travel (m.current.direction i) _
      rw [Nat.add_zero] at hposn
      cases (traceAxes m.st i).2 with
      | true =>
          simp only [if_true]
          rw [travel_add_one, hposn, ht.direction]
          ring
      | false =>
          simp only [Bool.false_eq_true, if_false, Nat.add_zero]
          exact hposn }

theorem toCome_endTick (hexec : Executing m) (hc : m.st.stepCount ≠ 0) :
    m.toCome = tickWeight m.st.amassLevel + m.endTick.toCome := by
  obtain ⟨hseg, -, q, l, hfifo, -⟩ := hexec
  have hsome : m.st.execSegment ≠ none := by rw [hseg]; exact Option.some_ne_none _
  rw [toCome, if_pos ⟨hsome, hc⟩]
  unfold Machine.endTick
  split
  · next hlast =>
    have hone : m.st.stepCount = 1 := by omega
    rw [hone, Nat.one_mul, toCome, if_neg fun hl => hl.2 rfl, Nat.add_assoc]
    rfl
  · next hmore =>
    obtain ⟨k, hk⟩ : ∃ k, m.st.stepCount = k + 2 := ⟨m.st.stepCount - 2, by omega⟩
    rw [toCome, if_pos ⟨hsome, by change m.st.stepCount - 1 ≠ 0; omega⟩]
    change _ = tickWeight m.st.amassLevel + ((m.st.stepCount - 1) * tickWeight m.st.amassLevel +
      queuedWeight m.history.started m.history.fifo.tail + m.uncut m.history.started)
    rw [hk, show k + 2 - 1 = k + 1 by omega]
    ring

theorem Exact.endTick (hs : Sound m) (h : Exact m fun _ => 0) (hexec : Executing m)
    (hc : m.st.stepCount ≠ 0) : Exact m.traceLine.endTick m.traceLine.endTick.pending := by
  obtain ⟨a, ha, ht⟩ := h.traceLine hs hexec hc
  have hcome := toCome_endTick (m := m.traceLine) hexec hc
  have hcome' : m.traceLine.toCome = m.toCome := rfl
  obtain ⟨-, hblock, q, l, hfifo, hq⟩ := hexec
  have hpos := (h.active hblock).1
  have hbal : a + tickWeight m.st.amassLevel + m.traceLine.endTick.toCome =
      8 * m.current.stepEventCount := by
    have hw : m.traceLine.st.amassLevel = m.st.amassLevel := rfl
    rw [← ha, ← hcome', hcome, hw]
    omega
  revert hbal
  unfold Machine.endTick
  split
  · intro hbal
    exact { h with
      segments := fun p hp => h.segments p (List.mem_of_mem_tail hp)
      future := fun b hb hbl => by
        have hf := h.future b hb hbl
        have hb' : m.history.started < b := hb
        rw [hfifo, queuedWeight_cons, if_neg (by omega), Nat.zero_add] at hf
        change queuedWeight b m.history.fifo.tail + _ = _
        rw [hfifo]
        exact hf
      idle := fun he => absurd he hblock
      active := fun _ => ⟨hpos, _, hbal, { ht with }⟩
      increment := fun _ hz => absurd rfl hz }
  · intro hbal
    exact { h with
      idle := fun he => absurd he hblock
      active := fun _ => ⟨hpos, _, hbal, { ht with }⟩
      increment := fun hsome _ => h.increment hsome hc }

/-- The interrupt finds no segment although the block it executes is still being prepared. -/
def Underrun (m : Machine) : Prop :=
  (m.st.execSegment = none ∨ m.st.stepCount = 0) ∧ m.segmentBufferTail = m.segmentBufferHead ∧
    m.st.execBlock = some m.stPrepBlock ∧ 0 < m.stepsRemaining

instance (m : Machine) : Decidable m.Underrun := inferInstanceAs (Decidable (_ ∧ _))

theorem Exact.toCome_eq_zero (hs : Sound m) (hno : ¬m.Underrun)
    (hf : m.pulseStart.fetchSegment = none) (hblock : m.pulseStart.st.execBlock ≠ none) :
    m.pulseStart.toCome = 0 := by
  have hs' := hs.pulseStart
  obtain ⟨hseg, hring⟩ := fetchSegment_none hf
  have hfifo : m.pulseStart.history.fifo = [] := by
    rw [← List.length_eq_zero_iff, ← hs'.queuedSegments_eq, queuedSegments,
      count_eq_zero hs'.ring.tail_lt]
    exact hring
  have hrest : m.pulseStart.st.execBlock = some m.pulseStart.stPrepBlock →
      m.pulseStart.stepsRemaining = 0 := by
    intro he
    by_contra hr
    refine hno ?_
    revert hseg hring he hr
    unfold Machine.pulseStart
    split
    · exact fun hseg hring he hr => ⟨Or.inl hseg, hring, he, Nat.pos_of_ne_zero hr⟩
    · intro hseg hring he hr
      change (if m.st.stepCount = 0 then none else m.st.execSegment) = none at hseg
      refine ⟨?_, hring, he, Nat.pos_of_ne_zero hr⟩
      by_cases hz : m.st.stepCount = 0
      · exact Or.inr hz
      · rw [if_neg hz] at hseg
        exact Or.inl hseg
  rw [toCome, if_neg fun hl => hl.1 hseg, hfifo, queuedWeight_nil, Nat.zero_add, uncut]
  split
  · next hlast =>
    obtain ⟨e, he⟩ := Option.ne_none_iff_exists'.1 hblock
    have hmod := hs'.data.exec e he
    rw [hlast, ← hs'.data.prep] at hmod
    rw [hrest (by rw [he, hmod])]
  · rfl

theorem Exact.goIdle (hs : Sound m) (h : Exact m m.pending) (hno : ¬m.Underrun)
    (hf : m.pulseStart.fetchSegment = none) (hblock : m.pulseStart.st.execBlock ≠ none) :
    Exact m.pulseStart.goIdle m.pulseStart.goIdle.pending := by
  have hp := h.pulseStart
  have hz := toCome_eq_zero hs hno hf hblock
  have hcomplete := hp.complete_of_toCome hs.pulseStart hblock hz
  exact { hp with
    idle := fun _ => ⟨hz, fun _ => hcomplete⟩
    active := fun he => absurd rfl he }

end

end Machine

/-! ## Runs -/

open Machine

/-- Motions with at most one step of an axis for a step event, segments with a step. -/
def StepperOp.InScope : StepperOp → Prop
  | .segment n _ => 0 < n
  | .motion _ steps sec _ => (∀ i, steps i ≤ sec) ∧ sec < 2 ^ 28
  | _ => True

instance : DecidablePred StepperOp.InScope
  | .segment .. => inferInstanceAs (Decidable (_ < _))
  | .motion .. => inferInstanceAs (Decidable (_ ∧ _))
  | .load | .bail | .endSegment _ | .replan | .resume | .tick | .addCommand | .exit => isTrue trivial

/-- The step is not an interrupt that finds the buffer empty inside a block. -/
def NoUnderrun (m : Machine) : StepperOp → Prop
  | .tick => ¬m.Underrun
  | _ => True

instance (m : Machine) : DecidablePred (NoUnderrun m)
  | .tick => inferInstanceAs (Decidable ¬_)
  | .load | .segment .. | .bail | .endSegment _ | .replan | .resume | .addCommand | .motion .. |
    .exit => isTrue trivial

theorem exact_step {m m' : Machine} {op : StepperOp} (hs : Sound m) (h : Exact m m.pending)
    (hscope : op.InScope) (hno : NoUnderrun m op) (hstep : stepperStep m op = some m') :
    Exact m' m'.pending := by
  cases op with
  | load =>
      obtain ⟨-, -, ⟨-, rfl⟩ | ⟨hpl, b, l, hq, ⟨-, rfl⟩ | ⟨hvp, rfl⟩⟩⟩ := prepLoad_cases hstep
      · exact { h with }
      · exact { h with prepared := fun hp => by cases hp }
      · exact h.loadBlock hs hpl hvp hq
  | segment n level =>
      obtain ⟨hphase, hn, hl, rfl⟩ := prepSegment_cases hstep
      exact h.pushSegment hs hphase hscope hn hl
  | bail =>
      obtain ⟨-, rfl⟩ := prepBail_cases hstep
      exact { h with }
  | endSegment hold =>
      obtain ⟨-, ⟨hz, rfl⟩ | ⟨-, rfl⟩⟩ := prepEnd_cases hstep
      · exact { h with prepared := fun _ _ => hz }
      · exact { h with }
  | replan =>
      obtain ⟨-, ⟨-, rfl⟩ | ⟨-, rfl⟩⟩ := replan_cases hstep
      · exact { h with prepared := fun _ hv => by cases hv }
      · exact h
  | resume =>
      obtain ⟨-, rfl⟩ := resume_cases hstep
      exact { h with }
  | tick =>
      rcases tick_cases hstep with ⟨m₁, hf, rfl⟩ | ⟨hf, hblock, rfl⟩
      · obtain ⟨h₁, hc⟩ := h.fetchSegment hs hf
        obtain ⟨hs₁, hexec⟩ := hs.fetchSegment hf
        exact h₁.endTick hs₁ hexec hc
      · exact h.goIdle hs hno hf hblock
  | addCommand =>
      cases hstep
      exact { h with }
  | motion handsOver steps sec dir =>
      cases hstep
      rcases queueMotion_cases m handsOver steps sec dir with ⟨-, hm⟩ | ⟨hsec, ⟨-, hm⟩ | ⟨-, hm⟩⟩ <;> rw [hm]
      · exact h
      · exact h.pushMotion hs ⟨hscope.1, Nat.pos_of_ne_zero hsec, hscope.2⟩ _
      · exact h.pushMotion hs ⟨hscope.1, Nat.pos_of_ne_zero hsec, hscope.2⟩ _
  | exit =>
      cases hstep
      exact { h with }

theorem exact_of_run {m m' : Machine} {ops : List StepperOp} (hs : Sound m) (h : Exact m m.pending)
    (hscope : ∀ o ∈ ops, o.InScope) (hno : Along stepperStep NoUnderrun m ops)
    (hrun : run stepperStep m ops = some m') : Sound m' ∧ Exact m' m'.pending := by
  induction ops generalizing m with
  | nil =>
      cases hrun
      exact ⟨hs, h⟩
  | cons op ops ih =>
      obtain ⟨t, hstep, hrest⟩ := run_cons_eq_some.1 hrun
      exact ih (sound_step hs hstep)
        (exact_step hs h (hscope op List.mem_cons_self) hno.1 hstep)
        (fun o ho => hscope o (List.mem_cons_of_mem _ ho)) (hno.2 t hstep) hrest

namespace Machine

/-- What the line tracer did up to now and what it computes next. -/
structure TracedExactly (m : Machine) : Prop where
  /-- a block that was followed by another one got exactly its pulses, and moved accordingly -/
  left : ∀ b, 0 < b → b < m.history.started → m.Complete b (m.history.startPosition (b + 1))
  /-- so did the last one when the interrupt ended the cycle -/
  last : m.st.execBlock = none → 0 < m.history.started →
    m.Complete m.history.started m.position
  /-- a tick outputs at most one pulse of an axis -/
  pulse : ∀ m', m.tick = some m' → ∀ i,
    m'.history.emitted m.history.started i ≤ m.history.emitted m.history.started i + 1 ∧
      ∀ b, b ≠ m.history.started → m'.history.emitted b i = m.history.emitted b i
  /-- the counters of a tick fit -/
  counters : ∀ m₁, m.pulseStart.fetchSegment = some m₁ → ∀ i,
    m₁.st.counter i + m₁.st.steps i < 2 ^ 32
  /-- so do the data of a block and the steps of a segment when they are shifted -/
  shifts : ∀ b, 0 < b → b ≤ m.history.queued →
    (m.history.motion b).stepEventCount <<< maxAmassLevel < 2 ^ 32 ∧
      ∀ i, (m.history.motion b).steps i <<< maxAmassLevel < 2 ^ 32
  cut : ∀ n level m', m.prepSegment n level = some m' → n <<< level < 2 ^ 32

section
variable {m m' : Machine}

theorem enterBlock_emitted (m : Machine) (seg : Segment) :
    (m.enterBlock seg).history.emitted = m.history.emitted := by
  unfold enterBlock
  split <;> rfl

theorem endTick_emitted (m : Machine) : m.endTick.history.emitted = m.history.emitted := by
  unfold endTick
  split <;> rfl

theorem tick_emitted (hstep : m.tick = some m') :
    m'.history.emitted = m.pulseStart.history.emitted := by
  rcases tick_cases hstep with ⟨m₁, hf, rfl⟩ | ⟨-, -, rfl⟩
  · have hfetch : m₁.history.emitted = m.pulseStart.history.emitted := by
      rcases fetchSegment_cases hf with ⟨-, rfl⟩ | ⟨-, -, rfl⟩
      · rfl
      · exact enterBlock_emitted m.pulseStart _
    exact (endTick_emitted m₁.traceLine).trans hfetch
  · rfl

theorem tick_pulse (hstep : m.tick = some m') (i : Axis) :
    m'.history.emitted m.history.started i ≤ m.history.emitted m.history.started i + 1 ∧
      ∀ b, b ≠ m.history.started → m'.history.emitted b i = m.history.emitted b i := by
  rw [tick_emitted hstep]
  unfold pulseStart
  split
  · exact ⟨Nat.le_succ _, fun _ _ => rfl⟩
  · refine ⟨?_, fun b hb => ?_⟩
    · change Function.update m.history.emitted _ _ _ i ≤ _
      rw [Function.update_self]
      split
      · exact le_rfl
      · exact Nat.le_succ _
    · change Function.update m.history.emitted _ _ _ i = _
      rw [Function.update_of_ne hb]

theorem Exact.tracedExactly (hs : Sound m) (h : Exact m m.pending) : m.TracedExactly where
  left := h.complete
  last := fun he hpos => (h.idle he).2 hpos
  pulse := fun _ hstep => tick_pulse hstep
  counters := fun m₁ hf i => by
    obtain ⟨h₁, hc⟩ := h.fetchSegment hs hf
    obtain ⟨hs₁, hexec⟩ := hs.fetchSegment hf
    exact (h₁.increment_le hs₁ hexec hc i).2.2
  shifts := fun b hb hbq => by
    have hreg := h.motions b hb hbq
    have hlt := hreg.lt
    refine ⟨by rw [Nat.shiftLeft_eq, maxAmassLevel]; omega, fun i => ?_⟩
    have hle := hreg.steps i
    rw [Nat.shiftLeft_eq, maxAmassLevel]
    omega
  cut := fun n level m' hstep => by
    obtain ⟨-, hn, hl, -⟩ := prepSegment_cases hstep
    have hlt := h.stepsRemaining_lt hs
    have hle : 2 ^ level ≤ 8 := Nat.pow_le_pow_right (by decide) hl
    rw [Nat.shiftLeft_eq]
    nlinarith

end

end Machine

/-- As long as no interrupt finds the segment buffer empty inside a block, every block gets exactly
its pulses, whatever its segments and their AMASS levels. -/
theorem traced_exactly_of_no_underrun (size : ℕ) (segments : ℕ → Segment) (stBlocks : ℕ → StBlock)
    (position : Axis → ℤ) (lock : Axis → Bool) (ops : List StepperOp) (m : Machine)
    (hsize : 3 ≤ size) (hscope : ∀ o ∈ ops, o.InScope)
    (hno : Along stepperStep NoUnderrun (stReset size segments stBlocks position false lock) ops)
    (hrun : run stepperStep (stReset size segments stBlocks position false lock) ops = some m) :
    m.TracedExactly := by
  have hreset := Exact.stReset size segments stBlocks position lock
  obtain ⟨hs, h⟩ := exact_of_run (Sound.stReset hsize segments stBlocks position false lock)
    (hreset _) hscope hno hrun
  exact h.tracedExactly hs

/-- A motion of one step in two step events, cut into two segments. -/
def twoSegments (between : List StepperOp) : List StepperOp :=
  [StepperOp.motion true (fun _ => 1) 2 fun _ => false, .load, .segment 1 1, .endSegment false] ++ between ++
    [StepperOp.load, .segment 1 0, .endSegment false, .tick, .tick]

theorem traced_exactly_of_no_underrun_twoSegments :
    ∃ m, run stepperStep exampleMachine (twoSegments [.tick, .tick]) = some m ∧ m.TracedExactly := by
  obtain ⟨m, hm⟩ := Option.isSome_iff_exists.1 (show (run stepperStep exampleMachine
    (twoSegments [.tick, .tick])).isSome by decide +kernel)
  refine ⟨m, hm, traced_exactly_of_no_underrun 10 _ _ _ _ _ m (by decide) ?_ ?_ hm⟩
  · decide
  · change Along stepperStep NoUnderrun exampleMachine (twoSegments [.tick, .tick])
    decide +kernel

/-- When an interrupt comes in between the two segments, the counters begin anew: no pulse. -/
theorem underrun_loses_step :
    (∀ o ∈ twoSegments [.tick, .tick, .tick], o.InScope) ∧
      ∃ m, run stepperStep exampleMachine (twoSegments [.tick, .tick, .tick]) = some m ∧
        ¬m.TracedExactly := by
  have h : (run stepperStep exampleMachine (twoSegments [.tick, .tick, .tick])).map (fun m =>
      (m.st.execBlock, m.history.started, m.history.emitted 1 .x, (m.history.motion 1).steps .x)) =
      some (none, 1, 0, 1) := by decide +kernel
  obtain ⟨m, hm, hval⟩ := Option.map_eq_some_iff.1 h
  simp only [Prod.mk.injEq] at hval
  obtain ⟨hexec, hstarted, hemitted, hsteps⟩ := hval
  refine ⟨by decide, m, hm, fun ht => ?_⟩
  have hx := (ht.last hexec (by rw [hstarted]; exact Nat.one_pos) .x).1
  rw [hstarted, hemitted, hsteps] at hx
  cases hx

end Grbl
