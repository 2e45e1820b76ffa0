import Grbl.Stepper.Invariant

/-!
# The two rings of the stepper

* `Executing` : the active segment is the first of the buffer;
* `Sound.startBlock`, …, `Sound.tick` : the interrupt keeps the invariant;
* `sound_step`, `sound_of_run` : so does every step, and every run;
* `stepper_rings_safe` : a block that is loaded takes an element no queued segment refers to, and
  the interrupt detects every change of block.
-/

namespace Grbl

open Lib

namespace Machine

/-! ## The interrupt -/

section
variable {m : Machine}

/-- The active segment is the first one of the buffer. -/
def Executing (m : Machine) : Prop :=
  m.st.execSegment = some m.segmentBufferTail ∧ m.st.execBlock ≠ none ∧
    ∃ q l, m.history.fifo = q :: l ∧ q.1 = m.history.started

theorem Sound.pulseStart (h : Sound m) : Sound m.pulseStart := by
  unfold Machine.pulseStart
  split
  · exact h
  · next e he =>
    refine ⟨{ h.ring with }, ?_, { h.data with }⟩
    refine { h.order with
      exec := fun hn => ?_
      active := fun t ht hc => h.order.active t ?_ hc }
    · cases he.symm.trans hn
    · change (if m.st.stepCount = 0 then none else m.st.execSegment) = some t at ht
      rwa [if_neg hc] at ht

theorem Sound.stepCount_ne_zero (h : Sound m) {t : ℕ}
    (ht : m.pulseStart.st.execSegment = some t) : m.pulseStart.st.stepCount ≠ 0 := by
  intro hc
  revert ht hc
  unfold Machine.pulseStart
  split
  · next hn =>
    intro ht
    rw [h.order.exec hn] at ht
    cases ht
  · intro ht hc
    change (if m.st.stepCount = 0 then none else m.st.execSegment) = some t at ht
    change m.st.stepCount = 0 at hc
    rw [if_pos hc] at ht
    cases ht

theorem Sound.executing_pulseStart (h : Sound m) {t : ℕ}
    (ht : m.pulseStart.st.execSegment = some t) : Executing m.pulseStart := by
  have hs := h.pulseStart
  obtain ⟨rfl, hq⟩ := hs.order.active t ht (h.stepCount_ne_zero ht)
  refine ⟨ht, fun hn => ?_, hq⟩
  rw [hs.order.exec hn] at ht
  cases ht

theorem Sound.tail (h : Sound m) {q : ℕ × Segment} {l : List (ℕ × Segment)}
    (hfifo : m.history.fifo = q :: l) :
    m.segments m.segmentBufferTail = q.2 ∧ 0 < q.1 ∧ q.2.execBlock = q.1 % (m.size - 1) := by
  have hslot := h.ring.slots 0 q (by rw [hfifo]; rfl)
  rw [slot_zero h.ring.tail_lt] at hslot
  have hentry := h.data.entry q (by rw [hfifo]; exact List.mem_cons_self)
  exact ⟨hslot, hentry⟩

/-- The interrupt sees a new block exactly when the segment belongs to another block than the one
last started, or none is being executed. -/
theorem Sound.ne_execBlock_iff (h : Sound m) {q : ℕ × Segment} {l : List (ℕ × Segment)}
    (hfifo : m.history.fifo = q :: l) :
    m.st.execBlock ≠ some q.2.execBlock ↔ m.st.execBlock = none ∨ q.1 ≠ m.history.started := by
  obtain ⟨-, -, hentry⟩ := h.tail hfifo
  have hone := h.ring.one_lt
  have hsteady := h.order.steady
  rw [hfifo] at hsteady
  cases he : m.st.execBlock with
  | none => simp
  | some e =>
      have hmod := h.data.exec e he
      rw [hentry, hmod]
      constructor
      · intro hne
        refine Or.inr fun hq => hne ?_
        rw [hq]
      · rintro (hn | hq) heq
        · cases hn
        · have hnext := hsteady.1.resolve_left hq
          rw [Option.some.injEq, hnext] at heq
          exact mod_ne (Nat.lt_succ_self _) (by omega) heq

theorem Sound.tail_le (h : Sound m) {q : ℕ × Segment} {l : List (ℕ × Segment)}
    (hfifo : m.history.fifo = q :: l) {b : ℕ} (hb : m.InUse b) :
    m.history.started ≤ q.1 ∧ q.1 ≤ b ∧ b < q.1 + (m.size - 1) := by
  have hsteady := h.order.steady
  rw [hfifo] at hsteady
  have hq : m.InUse q.1 := by
    refine ⟨(h.tail hfifo).2.1, Or.inr ⟨q, ?_, rfl⟩⟩
    rw [hfifo]
    exact List.mem_cons_self
  have hqb := h.inUse_bounds hq
  have hbb := h.inUse_bounds hb
  have hle := hsteady.2.le
  have hload := h.order.loaded
  obtain ⟨-, rfl | ⟨p, hp, rfl⟩⟩ := hb
  · omega
  · rw [hfifo] at hp
    rcases List.mem_cons.1 hp with rfl | hp
    · omega
    · have := hsteady.2.mem p hp
      omega

theorem Sound.startBlock (h : Sound m) (hseg : m.st.execSegment = none) {q : ℕ × Segment}
    {l : List (ℕ × Segment)} (hfifo : m.history.fifo = q :: l) :
    Sound (m.startBlock q.2.execBlock q.1) := by
  obtain ⟨-, -, hentry⟩ := h.tail hfifo
  have hsteady := h.order.steady
  rw [hfifo] at hsteady
  refine ⟨{ h.ring with }, ?_, ?_⟩
  · refine { h.order with
      steady := ?_
      exec := fun hn => by cases hn
      active := fun t ht => ?_ }
    · change Steady q.1 m.history.fifo m.history.pushed
      rw [hfifo]
      exact ⟨Or.inl rfl, hsteady.2⟩
    · change m.st.execSegment = some t at ht
      rw [hseg] at ht
      cases ht
  · refine { h.data with
      exec := ?_
      data := ?_ }
    · intro e he
      rw [← Option.some.inj he]
      exact hentry
    · intro b hb
      have hb' : m.InUse b := hb
      obtain ⟨hstart, hle, hlt⟩ := h.tail_le hfifo hb'
      change Function.update m.stBlocks _ _ (b % (m.size - 1)) = _
      rw [hentry]
      rcases Nat.eq_or_lt_of_le hle with rfl | hgt
      · rw [Function.update_self, h.data.data _ hb']
        have hself : (m.startBlock (q.1 % (m.size - 1)) q.1).blockData q.1 =
            (StBlock.ofMotion (m.history.motion q.1)).withoutCommands := if_pos le_rfl
        rw [hself, blockData]
        split <;> rfl
      · have hnew : (m.startBlock (q.1 % (m.size - 1)) q.1).blockData b =
            StBlock.ofMotion (m.history.motion b) := if_neg (not_le.2 hgt)
        rw [Function.update_of_ne (mod_ne hgt hlt).symm, h.data.data _ hb', hnew, blockData]
        exact if_neg (by omega)

theorem Sound.fifo_ne_nil (h : Sound m) (hne : m.segmentBufferTail ≠ m.segmentBufferHead) :
    ∃ q l, m.history.fifo = q :: l := by
  cases hfifo : m.history.fifo with
  | nil =>
      refine absurd ?_ hne
      rw [h.ring.head, hfifo, List.length_nil, slot_zero h.ring.tail_lt]
  | cons q l => exact ⟨q, l, rfl⟩

theorem Sound.enterBlock (h : Sound m) (hseg : m.st.execSegment = none) {q : ℕ × Segment}
    {l : List (ℕ × Segment)} (hfifo : m.history.fifo = q :: l) :
    Sound (m.enterBlock q.2) ∧ (m.enterBlock q.2).st.execBlock = some q.2.execBlock ∧
      (m.enterBlock q.2).history.started = q.1 ∧ (m.enterBlock q.2).history.fifo = q :: l ∧
      (m.enterBlock q.2).segmentBufferTail = m.segmentBufferTail := by
  have hnumber : m.tailNumber = q.1 := by rw [tailNumber, hfifo]
  rw [Machine.enterBlock, hnumber]
  by_cases hne : m.st.execBlock ≠ some q.2.execBlock
  · rw [if_pos hne]
    exact ⟨h.startBlock hseg hfifo, rfl, rfl, hfifo, rfl⟩
  · have hiff := h.ne_execBlock_iff hfifo
    rw [if_neg hne]
    simp only [hne, false_iff, not_or, not_not] at hiff
    exact ⟨h, not_not.1 hne, hiff.2.symm, hfifo, rfl⟩

theorem Sound.popSegment (h : Sound m) (hseg : m.st.execSegment = none)
    (hne : m.segmentBufferTail ≠ m.segmentBufferHead) :
    Sound m.popSegment ∧ Executing m.popSegment := by
  obtain ⟨q, l, hfifo⟩ := h.fifo_ne_nil hne
  obtain ⟨hpop, hexec, hstart, hfifo', htail⟩ := h.enterBlock hseg hfifo
  rw [Machine.popSegment, (h.tail hfifo).1]
  refine ⟨⟨{ hpop.ring with }, ?_, { hpop.data with }⟩, congrArg some htail.symm, ?_, q, l, hfifo',
    hstart.symm⟩
  · refine { hpop.order with
      exec := fun hn => ?_
      active := fun t ht _ => ⟨?_, q, l, hfifo', hstart.symm⟩ }
    · rw [hexec] at hn
      cases hn
    · rw [← Option.some.inj ht]
      exact htail.symm
  · change (m.enterBlock q.2).st.execBlock ≠ none
    rw [hexec]
    exact Option.some_ne_none _

theorem Sound.traceLine (h : Sound m) : Sound m.traceLine :=
  ⟨{ h.ring with }, { h.order with }, { h.data with }⟩

theorem Sound.releaseSegment (h : Sound m) {q : ℕ × Segment} {l : List (ℕ × Segment)}
    (hfifo : m.history.fifo = q :: l) (hq : q.1 = m.history.started) :
    Sound { m with
      st := { m.st with stepCount := 0 }
      segmentBufferTail := m.nextSegment m.segmentBufferTail
      history := { m.history with fifo := m.history.fifo.tail } } := by
  have hlen := h.ring.length
  have ht := h.ring.tail_lt
  have hnext := ringNext_eq ht
  have hsteady := h.order.steady
  have hmem : ∀ p ∈ m.history.fifo.tail, p ∈ m.history.fifo := fun p => List.mem_of_mem_tail
  rw [hfifo, List.length_cons] at hlen
  rw [hfifo] at hsteady
  refine ⟨?_, ?_, ?_⟩
  · refine { h.ring with
      tail_lt := ringNext_lt ht
      length := ?_
      head := ?_
      slots := ?_ }
    · change m.history.fifo.tail.length ≤ m.size - 1
      rw [hfifo, List.tail_cons]
      omega
    · change m.segmentBufferHead = slot _ (m.nextSegment _) m.history.fifo.tail.length
      rw [nextSegment, hnext, slot_add, h.ring.head, hfifo, List.length_cons, List.tail_cons,
        Nat.add_comm 1]
    · intro k p hp
      change m.segments (slot (m.size - 1) (m.nextSegment _) k) = p.2
      rw [nextSegment, hnext, slot_add, Nat.add_comm 1]
      refine h.ring.slots (k + 1) p ?_
      change m.history.fifo.tail[k]? = some p at hp
      rw [hfifo] at hp ⊢
      exact hp
  · refine { h.order with
      steady := ?_
      ready := fun hp => ⟨(h.order.ready hp).1, ?_⟩
      active := fun _ _ hc => absurd rfl hc }
    · change Steady m.history.started m.history.fifo.tail m.history.pushed
      rw [hfifo, ← hq]
      exact hsteady.2
    · change m.history.fifo.tail.length < m.size - 1
      rw [hfifo, List.tail_cons]
      omega
  · refine { h.data with
      room := fun _ => ?_
      entry := fun p hp => h.data.entry p (hmem p hp)
      data := ?_ }
    · change m.history.fifo.tail.length < m.size - 1
      rw [hfifo, List.tail_cons]
      omega
    · rintro b ⟨hb, hu⟩
      refine h.data.data b ⟨hb, hu.imp_right ?_⟩
      rintro ⟨p, hp, hpb⟩
      exact ⟨p, hmem p hp, hpb⟩

theorem Sound.endTick (h : Sound m) (hexec : Executing m) : Sound m.endTick := by
  obtain ⟨hseg, -, q, l, hfifo, hq⟩ := hexec
  unfold Machine.endTick
  split
  · exact h.releaseSegment hfifo hq
  · refine ⟨{ h.ring with }, ?_, { h.data with }⟩
    refine { h.order with active := fun t ht _ => ⟨?_, q, l, hfifo, hq⟩ }
    exact Option.some.inj (ht.symm.trans hseg)

theorem Executing.traceLine (h : Executing m) : Executing m.traceLine := h

theorem Sound.fetchSegment (h : Sound m) {m₁ : Machine}
    (hf : m.pulseStart.fetchSegment = some m₁) : Sound m₁ ∧ Executing m₁ := by
  have hp := h.pulseStart
  rcases fetchSegment_cases hf with ⟨⟨t, ht⟩, rfl⟩ | ⟨hseg, hne, rfl⟩
  · exact ⟨hp, h.executing_pulseStart ht⟩
  · exact hp.popSegment hseg hne

theorem Sound.tick (h : Sound m) {m' : Machine} (hstep : m.tick = some m') : Sound m' := by
  have hp := h.pulseStart
  rcases tick_cases hstep with ⟨m₁, hf, rfl⟩ | ⟨hf, -, rfl⟩
  · obtain ⟨h₁, hexec⟩ := h.fetchSegment hf
    exact h₁.traceLine.endTick hexec.traceLine
  · refine ⟨{ hp.ring with }, ?_, { hp.data with exec := fun e he => by cases he }⟩
    exact { hp.order with exec := fun _ => (fetchSegment_none hf).1 }

end

/-! ## The parser -/

section
variable {m : Machine}

theorem Sound.addOutputCommand (h : Sound m) : Sound m.addOutputCommand :=
  ⟨{ h.ring with }, { h.order with }, { h.data with }⟩

theorem Sound.gcAtExit (h : Sound m) : Sound m.gcAtExit :=
  ⟨{ h.ring with }, { h.order with }, { h.data with }⟩

theorem Sound.pushMotion (h : Sound m) (x : Motion) (rest : List ℕ) : Sound (m.pushMotion x rest) := by
  have hqueued := h.data.queued
  have hended : m.ended ≤ m.history.queued := (Nat.sub_le _ _).trans hqueued
  refine ⟨{ h.ring with }, { h.order with }, ?_⟩
  refine { h.data with
    queued := hqueued.trans (Nat.le_succ _)
    queue := ?_
    data := ?_ }
  · change m.queue ++ [x] = (List.range' (m.ended + 1) (m.history.queued + 1 - m.ended)).map
      (m.pushMotion x rest).history.motion
    rw [Nat.succ_sub hended, List.range'_concat, List.map_append, h.data.queue]
    congr 1
    · refine List.map_congr_left fun b hb => ?_
      have hb' := (List.mem_range'_1.1 hb).2
      rw [pushMotion_motion (by omega)]
    · rw [List.map_singleton, show m.ended + 1 + 1 * (m.history.queued - m.ended) =
        m.history.queued + 1 by omega, pushMotion_motion_self]
  · intro b hb
    have hb' : m.InUse b := hb
    have hle := (h.inUse_bounds hb').2.1
    have hold := pushMotion_motion (m := m) (hle.trans hqueued) x rest
    rw [blockData, hold]
    exact h.data.data b hb'

end

end Machine

/-! ## Runs -/

open Machine

theorem sound_step {m m' : Machine} {op : StepperOp} (h : Sound m)
    (hstep : stepperStep m op = some m') : Sound m' := by
  cases op with
  | load => exact h.prepLoad hstep
  | segment n level =>
      obtain ⟨hphase, -, -, rfl⟩ := prepSegment_cases hstep
      exact h.pushSegment hphase n _ level
  | bail =>
      obtain ⟨-, rfl⟩ := prepBail_cases hstep
      exact ⟨{ h.ring with },
        { h.order with
          ready := fun hp => by cases hp
          pushed := fun hp => by cases hp },
        { h.data with }⟩
  | endSegment hold => exact h.prepEnd hstep
  | replan => exact h.replan hstep
  | resume =>
      obtain ⟨-, rfl⟩ := resume_cases hstep
      exact ⟨{ h.ring with }, { h.order with }, { h.data with }⟩
  | tick => exact h.tick hstep
  | addCommand =>
      cases hstep
      exact h.addOutputCommand
  | motion handsOver steps sec dir =>
      cases hstep
      rcases queueMotion_cases m handsOver steps sec dir with ⟨-, hm⟩ | ⟨-, ⟨-, hm⟩ | ⟨-, hm⟩⟩ <;> rw [hm]
      · exact h
      · exact h.pushMotion _ _
      · exact h.pushMotion _ _
  | exit =>
      cases hstep
      exact h.gcAtExit

theorem sound_of_run {m m' : Machine} {ops : List StepperOp} (h : Sound m)
    (hrun : run stepperStep m ops = some m') : Sound m' :=
  run_invariant (fun _ _ _ => sound_step) ops m m' h hrun

namespace Machine

/-- Number of segments between the tail and the head of the buffer. -/
def queuedSegments (m : Machine) : ℕ :=
  count (m.size - 1) m.segmentBufferTail m.segmentBufferHead

/-- The segment `k` places after the tail. -/
def queuedSegment (m : Machine) (k : ℕ) : Segment :=
  m.segments (slot (m.size - 1) m.segmentBufferTail k)

/-- The number of the block this segment was prepared for. -/
def segmentNumber (m : Machine) (k : ℕ) : ℕ := ((m.history.fifo.map Prod.fst)[k]?).getD 0

/-- What the segment generator and the interrupt may rely on. -/
structure RingsSafe (m : Machine) : Prop where
  /-- the segment generator does not rewrite an element that a queued segment refers to -/
  rewrite : ∀ m', m.prepLoad = some m' → m.plBlock = false → m.velocityProfile = false →
    ∀ k < m.queuedSegments, (m.queuedSegment k).execBlock ≠ m'.stPrepBlock
  /-- segments of different blocks, one after the other, refer to different elements -/
  consecutive : ∀ k, k + 1 < m.queuedSegments → m.segmentNumber k ≠ m.segmentNumber (k + 1) →
    (m.queuedSegment k).execBlock ≠ (m.queuedSegment (k + 1)).execBlock
  /-- the test of the interrupt tells whether the next segment starts a block -/
  detect : m.segmentBufferTail ≠ m.segmentBufferHead →
    (m.st.execBlock ≠ some (m.queuedSegment 0).execBlock ↔
      m.st.execBlock = none ∨ m.segmentNumber 0 ≠ m.history.started)
  /-- the elements that queued segments refer to hold the data of their blocks -/
  data : ∀ k < m.queuedSegments,
    (m.stBlocks (m.queuedSegment k).execBlock).withoutCommands =
      (StBlock.ofMotion (m.history.motion (m.segmentNumber k))).withoutCommands

section
variable {m : Machine}

theorem Sound.queuedSegments_eq (h : Sound m) : m.queuedSegments = m.history.fifo.length := by
  have hlen := h.ring.length
  rw [queuedSegments, h.ring.head, count_slot h.ring.tail_lt (by omega)]

/-- The segment at place `k` of the queue, with its number. -/
theorem Sound.queuedSegment_eq (h : Sound m) {k : ℕ} (hk : k < m.queuedSegments) :
    ∃ q ∈ m.history.fifo, m.history.fifo[k]? = some q ∧ m.queuedSegment k = q.2 ∧
      m.segmentNumber k = q.1 := by
  rw [h.queuedSegments_eq] at hk
  have hget := List.getElem?_eq_getElem hk
  refine ⟨_, List.getElem_mem hk, hget, h.ring.slots k _ hget, ?_⟩
  rw [segmentNumber, List.getElem?_map, hget]
  rfl

theorem Sound.ringsSafe (h : Sound m) : RingsSafe m where
  rewrite := by
    intro m' hload hpl hvp k hk
    obtain ⟨q, hq, -, hseg, -⟩ := h.queuedSegment_eq hk
    obtain ⟨hpos, hentry⟩ := h.data.entry q hq
    obtain ⟨-, hfull, ⟨hpl', -⟩ | ⟨-, b, l, -, ⟨hvp', -⟩ | ⟨-, rfl⟩⟩⟩ := prepLoad_cases hload
    · rw [hpl] at hpl'
      cases hpl'
    · rw [hvp] at hvp'
      cases hvp'
    · rw [hseg, hentry]
      exact h.load_ne hfull hpl hvp ⟨hpos, Or.inr ⟨q, hq, rfl⟩⟩
  consecutive := by
    intro k hk hne
    obtain ⟨q, hq, hgetq, hsegq, hnumq⟩ := h.queuedSegment_eq (Nat.lt_of_succ_lt hk)
    obtain ⟨r, hr, hgetr, hsegr, hnumr⟩ := h.queuedSegment_eq hk
    have hone := h.ring.one_lt
    rw [hsegq, hsegr, (h.data.entry q hq).2, (h.data.entry r hr).2]
    rw [hnumq, hnumr] at hne
    have hnext := (h.order.steady.consecutive k q r hgetq hgetr).resolve_left (Ne.symm hne)
    exact mod_ne (by omega) (by omega)
  detect := by
    intro hne
    obtain ⟨q, l, hfifo⟩ := h.fifo_ne_nil hne
    have hseg : m.queuedSegment 0 = q.2 := h.ring.slots 0 q (by rw [hfifo]; rfl)
    have hnum : m.segmentNumber 0 = q.1 := by simp [segmentNumber, hfifo]
    rw [hseg, hnum]
    exact h.ne_execBlock_iff hfifo
  data := by
    intro k hk
    obtain ⟨q, hq, -, hseg, hnum⟩ := h.queuedSegment_eq hk
    obtain ⟨hpos, hentry⟩ := h.data.entry q hq
    rw [hseg, hnum, hentry, h.data.data q.1 ⟨hpos, Or.inr ⟨q, hq, rfl⟩⟩, blockData]
    split <;> rfl

end

end Machine

/-- In every reachable state the elements of `st_block_buffer` that queued segments refer to are
safe, and the interrupt detects every change of block. -/
theorem stepper_rings_safe (size : ℕ) (segments : ℕ → Segment) (stBlocks : ℕ → StBlock)
    (position : Axis → ℤ) (isHoming : Bool) (lock : Axis → Bool) (ops : List StepperOp)
    (m : Machine) (hsize : 3 ≤ size)
    (hrun : run stepperStep (stReset size segments stBlocks position isHoming lock) ops = some m) :
    RingsSafe m :=
  (sound_of_run (Sound.stReset hsize segments stBlocks position isHoming lock) hrun).ringsSafe

def exampleMachine : Machine :=
  stReset 10 (fun _ => ⟨0, 0, 0⟩) (fun _ => ⟨fun _ => 0, 0, fun _ => false, []⟩) (fun _ => 0) false
    fun _ => false

/-- Two motions; the second is being prepared while the first is executed. -/
def twoMotions : List StepperOp :=
  [.motion true (fun _ => 1) 1 fun _ => false, .motion true (fun _ => 2) 2 fun _ => false, .load,
    .segment 1 0, .endSegment false, .load, .tick, .segment 1 1]

theorem stepper_rings_safe_twoMotions :
    ∃ m, run stepperStep exampleMachine twoMotions = some m ∧ RingsSafe m := by
  obtain ⟨m, hm⟩ := Option.isSome_iff_exists.1
    (show (run stepperStep exampleMachine twoMotions).isSome by decide +kernel)
  exact ⟨m, hm, stepper_rings_safe 10 _ _ _ _ _ _ m (by decide) hm⟩

end Grbl
