import Grbl.Planner.Override

/-!
# The pointers of the block buffer

* `planGetBlockBufferAvailable`, `planResetBuffer` : the functions; `tailToHead` : the slots along the `next` links;
* `acceptedBlock` : the block that `plan_buffer_line` queues; `BufferOp`, `bufferStep` : runs, with the blocks that should be queued;
* `Bookkeeping` : what the pointers say of these blocks; `Untouched` : what a motion that is not queued leaves alone;
* `bookkeeping_of_run`.
-/

namespace Grbl
open Lib

/-- What of a block stays as it was added, while it is queued. -/
def PlanBlock.added (b : PlanBlock) : PlanBlock :=
  { b with
    entrySpeedSqr := 0
    maxEntrySpeedSqr := 0
    millimeters := 0 }

namespace Planner

def planGetBlockBufferAvailable (s : Planner) : ℕ := if s.head ≥ s.tail then s.size - (s.head - s.tail) else s.tail - s.head - 1

/-- `plan_reset_buffer`, with or without new links. The segment generator has been reset before. -/
def planResetBuffer (s : Planner) : Planner :=
  { s with
    planned := 0
    tail := 0
    head := 0
    nextHead := s.next 0
    currentSpeed := none
    velocityProfile := false }

/-- The slots from `i` up to the head. -/
def slotsFrom (s : Planner) : ℕ → ℕ → List ℕ
  | 0, _ => []
  | fuel + 1, i => if i = s.head then [] else i :: slotsFrom s fuel (s.next i)

/-- The slots from the tail up to the head, along the links. -/
def tailToHead (s : Planner) : List ℕ := s.slotsFrom (s.size + 1) s.tail

/-- The block that `plan_buffer_line` queues: that of a motion that has a length and is not a system motion. -/
def acceptedBlock (s : Planner) (targetSteps sysPosition : Axis → ℤ) (d : LineData) (g : Geometry) : Option PlanBlock :=
  let b := s.newBlock targetSteps (if d.condition.systemMotion then sysPosition else s.position) d
  if b.stepEventCount = 0 ∨ d.condition.systemMotion then none
  else some (finishBlock { s with direction := b.direction } b { d with outputCommands := [] } g)

/-- What the pointers say of the blocks that are queued. -/
structure Bookkeeping (s : Planner) (queue : List PlanBlock) : Prop where
  blocks : s.tailToHead.map (fun i => (s.blocks i).added) = queue
  fits : queue.length ≤ s.size
  available : s.planGetBlockBufferAvailable = s.size - queue.length
  full : s.planCheckFullBuffer = true ↔ s.planGetBlockBufferAvailable = 0
  current : s.planGetCurrentBlock = s.tailToHead.head?
  planned : s.planned ∈ s.tailToHead ∨ s.planned = s.head
  nextHead : s.nextHead = s.next s.head

/-- The pointers are the same, and so are the blocks from the tail to the head. -/
structure Untouched (s t : Planner) : Prop where
  size : t.size = s.size
  tail : t.tail = s.tail
  head : t.head = s.head
  nextHead : t.nextHead = s.nextHead
  planned : t.planned = s.planned
  blocks : ∀ i ∈ s.tailToHead, t.blocks i = s.blocks i

end Planner

/-- A call; `prep` is what the segment generator writes. -/
inductive BufferOp
  | plan (op : PlanOp)
  | getCurrent
  | reinit
  | reset

/-- The blocks that are added and not yet discarded after an operation. -/
def queueAfter (s : Planner) (queue : List PlanBlock) : PlanOp → List PlanBlock
  | .line targetSteps sysPosition d g _ => queue ++ ((s.acceptedBlock targetSteps sysPosition d g).map PlanBlock.added).toList
  | .discard => queue.tail
  | .feedOverride .. => queue
  | .prep .. => queue

/-- A call, with the blocks that are added and not yet discarded. -/
def bufferStep (s : Planner × List PlanBlock) : BufferOp → Option (Planner × List PlanBlock)
  | .plan op => (planStep s.1 op).map fun t => (t, queueAfter s.1 s.2 op)
  | .getCurrent => some s
  | .reinit => some (s.1.planCycleReinit, s.2)
  | .reset => some (s.1.planResetBuffer, [])

namespace Planner

variable {s t : Planner} {n p : ℕ}

/-! ## The slots along the links -/

theorem Ring.slotsFrom (h : Ring s n p) (m : ℕ) : ∀ fuel k, m < fuel → k + m = n →
    s.slotsFrom fuel (s.slotAt k) = (List.range' k m).map s.slotAt := by
  induction m with
  | zero =>
      intro fuel k hfuel hk
      obtain ⟨fuel, rfl⟩ : ∃ f, fuel = f + 1 := ⟨fuel - 1, by omega⟩
      rw [Planner.slotsFrom, if_pos ((h.eq_head (by omega)).2 (by omega))]
      rfl
  | succ m ih =>
      intro fuel k hfuel hk
      obtain ⟨fuel, rfl⟩ : ∃ f, fuel = f + 1 := ⟨fuel - 1, by omega⟩
      have hne : s.slotAt k ≠ s.head := fun he => by
        have := (h.eq_head (by omega)).1 he
        omega
      rw [Planner.slotsFrom, if_neg hne, slotAt_next, ih fuel (k + 1) (by omega) (by omega), List.range'_succ, List.map_cons]

theorem Ring.tailToHead (h : Ring s n p) : s.tailToHead = (List.range n).map s.slotAt := by
  have hsize := h.le_size
  rw [Planner.tailToHead, ← h.slotAt_zero, h.slotsFrom n _ 0 (by omega) (by omega), List.range_eq_range']

theorem Ring.mem_tailToHead (h : Ring s n p) {i : ℕ} : i ∈ s.tailToHead ↔ ∃ k < n, s.slotAt k = i := by
  simp only [h.tailToHead, List.mem_map, List.mem_range]

theorem Ring.available (h : Ring s n p) : s.planGetBlockBufferAvailable = s.size - n := by
  have hcount := h.queued_eq
  have hsize := h.le_size
  have htail := h.tail_lt
  rw [queued, count] at hcount
  rw [planGetBlockBufferAvailable]
  split at hcount
  · rw [if_pos ‹_›, hcount]
  · rw [if_neg ‹_›]
    omega

/-! ## The blocks that are queued -/

def entries (s : Planner) : List PlanBlock := (List.range s.queued).map fun k => (s.blocks (s.slotAt k)).added

theorem Ring.entries (h : Ring s n p) : s.entries = (List.range n).map fun k => (s.blocks (s.slotAt k)).added := by
  rw [Planner.entries, h.queued_eq]

theorem entries_congr (hsize : t.size = s.size) (htail : t.tail = s.tail) (hhead : t.head = s.head)
    (hblocks : ∀ k < s.queued, (t.blocks (s.slotAt k)).added = (s.blocks (s.slotAt k)).added) : t.entries = s.entries := by
  have hqueued : t.queued = s.queued := by rw [queued, queued, hsize, htail, hhead]
  have hslot : t.slotAt = s.slotAt := by
    funext k
    rw [slotAt, slotAt, hsize, htail]
  rw [Planner.entries, Planner.entries, hqueued, hslot]
  exact List.map_congr_left fun k hk => hblocks k (List.mem_range.1 hk)

theorem OnlySpeeds.added (h : OnlySpeeds s t) (i : ℕ) : (t.blocks i).added = (s.blocks i).added := by
  rw [h.block i]
  rfl

theorem OnlySpeeds.entries (h : OnlySpeeds s t) : t.entries = s.entries :=
  entries_congr h.size h.tail h.head fun _ _ => h.added _

theorem Ring.entries_push (h : Ring s n p) (hn : n < s.size) (b : PlanBlock) :
    (s.pushBlock b).entries = s.entries ++ [b.added] := by
  have hring : Ring (s.pushBlock b) (n + 1) p := by
    refine ⟨h.tail_lt, hn, h.nextHead, ?_, h.planned, ?_⟩
    · change s.next s.nextHead = s.slotAt (n + 1 + 1)
      rw [h.nextHead, slotAt_next]
    · have hp := h.planned_lt
      omega
  have hnew : (s.pushBlock b).blocks (s.slotAt n) = b := by
    rw [← h.head]
    exact Function.update_self ..
  have hold : ∀ k ∈ List.range n, ((s.pushBlock b).blocks (s.slotAt k)).added = (s.blocks (s.slotAt k)).added := by
    intro k hk
    have hk := List.mem_range.1 hk
    have hne : s.slotAt k ≠ s.head := fun he => by
      have := (h.eq_head hk.le).1 he
      omega
    exact congrArg PlanBlock.added (Function.update_of_ne hne _ _)
  rw [hring.entries, h.entries, List.range_succ, List.map_append, List.map_singleton]
  change (List.range n).map (fun k => ((s.pushBlock b).blocks (s.slotAt k)).added) ++
    [((s.pushBlock b).blocks (s.slotAt n)).added] = _
  rw [List.map_congr_left hold, hnew]

theorem entries_discard (h : Ring s n p) : s.planDiscardCurrentBlock.entries = s.entries.tail := by
  rcases Nat.eq_zero_or_pos n with rfl | hpos
  · have hsame : s.planDiscardCurrentBlock = s := if_neg (not_not.2 (h.head_eq_tail.2 rfl).symm)
    rw [hsame, h.entries]
    rfl
  · have hne := h.tail_ne_head hpos
    obtain ⟨m, rfl⟩ : ∃ m, n = m + 1 := ⟨n - 1, by omega⟩
    have hqueued : s.planDiscardCurrentBlock.queued = m := by
      have hcount := h.le_size
      have htail := h.tail_lt
      have hslot := h.slotAt_discard hpos m
      have hlt : s.next s.tail < s.size + 1 := ringNext_lt htail
      rw [queued, discard_eq hne]
      rw [discard_eq hne] at hslot
      change count s.size (s.next s.tail) s.head = m
      rw [h.head, ← hslot]
      exact count_slot hlt (by omega)
    have hblocks : s.planDiscardCurrentBlock.blocks = s.blocks := by rw [discard_eq hne]
    rw [entries, hqueued, hblocks, h.entries, List.range_succ_eq_map, List.map_cons, List.tail_cons, List.map_map]
    refine List.map_congr_left fun k _ => ?_
    rw [h.slotAt_discard hpos]
    rfl

theorem updateProfiles_added (rpm : ℕ → ℚ) (fuel : ℕ) : ∀ (s : Planner) (i : ℕ) (v : ℚ),
    (updateProfiles rpm fuel s i v).size = s.size ∧ (updateProfiles rpm fuel s i v).tail = s.tail ∧
      (updateProfiles rpm fuel s i v).head = s.head ∧
        ∀ j, ((updateProfiles rpm fuel s i v).blocks j).added = (s.blocks j).added := by
  induction fuel with
  | zero => exact fun s i v => ⟨rfl, rfl, rfl, fun _ => rfl⟩
  | succ fuel ih =>
      intro s i v
      rw [updateProfiles]
      split
      · exact ⟨rfl, rfl, rfl, fun _ => rfl⟩
      · obtain ⟨hsize, htail, hhead, hblocks⟩ := ih (s.setBlock i (planComputeProfileParameters (s.blocks i)
          (planComputeProfileNominalSpeed s.override (rpm i) (s.blocks i)) v)) (s.next i)
          (planComputeProfileNominalSpeed s.override (rpm i) (s.blocks i))
        refine ⟨hsize, htail, hhead, fun j => (hblocks j).trans ?_⟩
        by_cases hj : j = i
        · subst hj
          rw [setBlock]
          dsimp only
          rw [Function.update_self]
          rfl
        · exact congrArg PlanBlock.added (Function.update_of_ne hj _ _)

theorem onlySpeeds_planCycleReinit (s : Planner) : OnlySpeeds s s.planCycleReinit := by
  have h := (OnlySpeeds.stUpdate s).trans (OnlySpeeds.setPlanned _ s.stUpdatePlanBlockParameters.tail)
  rw [planCycleReinit]
  dsimp only
  split
  · exact h.trans (OnlySpeeds.plannerRecalculate _)
  · exact h

theorem entries_feedOverride (s : Planner) (ov : Override) (rpm : ℕ → ℚ) : (s.planFeedOverrideCore ov rpm).entries = s.entries := by
  rw [planFeedOverrideCore]
  split
  · have hupdate : (planUpdateVelocityProfileParameters { s with override := ov } rpm).1.entries = s.entries := by
      rw [planUpdateVelocityProfileParameters]
      split
      · obtain ⟨hsize, htail, hhead, hblocks⟩ := updateProfiles_added rpm (s.size + 1) { s with override := ov } s.tail someLargeValue
        exact entries_congr hsize htail hhead fun k _ => hblocks _
      · rfl
    dsimp only
    split
    · exact (onlySpeeds_planCycleReinit _).entries.trans hupdate
    · exact hupdate
  · rfl

/-! ## The calls -/

/-- The pointers form a ring, and it holds the blocks that were added and not discarded. -/
structure Queues (s : Planner × List PlanBlock) : Prop where
  buffered : Buffered s.1
  entries : s.1.entries = s.2

/-- The three ways of `plan_buffer_line`. -/
theorem planBufferLine_eq (s : Planner) (targetSteps sysPosition : Axis → ℤ) (d : LineData) (g : Geometry) (rpm : ℚ) :
    let b := s.newBlock targetSteps (if d.condition.systemMotion then sysPosition else s.position) d
    let t : Planner := { s with direction := b.direction }
    let b' := t.finishBlock b { d with outputCommands := [] } g
    (b.stepEventCount = 0 → s.planBufferLine targetSteps sysPosition d g rpm = (t.setBlock s.head b, d, false)) ∧
      (b.stepEventCount ≠ 0 → d.condition.systemMotion = true →
        s.planBufferLine targetSteps sysPosition d g rpm = (t.setBlock s.head b', { d with outputCommands := [] }, true)) ∧
      (b.stepEventCount ≠ 0 → d.condition.systemMotion ≠ true → s.planBufferLine targetSteps sysPosition d g rpm =
        (((t.advance b' targetSteps rpm).pushBlock (t.queuedBlock b' rpm)).plannerRecalculate, { d with outputCommands := [] }, true)) := by
  intro b t b'
  have hline : s.planBufferLine targetSteps sysPosition d g rpm =
      if b.stepEventCount = 0 then (t.setBlock s.head b, d, false)
      else if b'.condition.systemMotion then (t.setBlock s.head b', { d with outputCommands := [] }, true)
      else (((t.advance b' targetSteps rpm).pushBlock (t.queuedBlock b' rpm)).plannerRecalculate,
        { d with outputCommands := [] }, true) := rfl
  refine ⟨fun hsteps => hline.trans (if_pos hsteps), fun hsteps hsys => ?_, fun hsteps hsys => ?_⟩
  · exact (hline.trans (if_neg hsteps)).trans (if_pos hsys)
  · exact (hline.trans (if_neg hsteps)).trans (if_neg hsys)

theorem line_untouched (h : Ring s n p) {targetSteps sysPosition : Axis → ℤ} {d : LineData} {g : Geometry} (rpm : ℚ)
    (hnone : s.acceptedBlock targetSteps sysPosition d g = none) :
    Untouched s (s.planBufferLine targetSteps sysPosition d g rpm).1 := by
  have hwrite : ∀ (dir : Axis → Bool) (b : PlanBlock), Untouched s (({ s with direction := dir } : Planner).setBlock s.head b) := by
    intro dir b
    refine ⟨rfl, rfl, rfl, rfl, rfl, fun i hi => ?_⟩
    obtain ⟨k, hk, rfl⟩ := h.mem_tailToHead.1 hi
    refine Function.update_of_ne (fun he => ?_) _ _
    have := (h.eq_head hk.le).1 he
    omega
  obtain ⟨hzero, hsystem, -⟩ := planBufferLine_eq s targetSteps sysPosition d g rpm
  by_cases hsteps : (s.newBlock targetSteps (if d.condition.systemMotion then sysPosition else s.position) d).stepEventCount = 0
  · rw [hzero hsteps]
    exact hwrite _ _
  · by_cases hsys : d.condition.systemMotion = true
    · rw [hsystem hsteps hsys]
      exact hwrite _ _
    · rw [acceptedBlock, if_neg (fun hor => hor.elim hsteps hsys)] at hnone
      cases hnone

theorem line_entries (h : Ring s n p) (hfull : s.planCheckFullBuffer = false) {targetSteps sysPosition : Axis → ℤ} {d : LineData}
    {g : Geometry} (rpm : ℚ) {b : PlanBlock} (hsome : s.acceptedBlock targetSteps sysPosition d g = some b) :
    (s.planBufferLine targetSteps sysPosition d g rpm).1.entries = s.entries ++ [b.added] := by
  rw [acceptedBlock] at hsome
  by_cases hor : (s.newBlock targetSteps (if d.condition.systemMotion then sysPosition else s.position) d).stepEventCount = 0 ∨
      d.condition.systemMotion = true
  · rw [if_pos hor] at hsome
    cases hsome
  · rw [if_neg hor] at hsome
    rw [not_or] at hor
    obtain ⟨hsteps, hsys⟩ := hor
    obtain rfl := Option.some.inj hsome
    obtain ⟨-, -, hline⟩ := planBufferLine_eq s targetSteps sysPosition d g rpm
    rw [hline hsteps hsys]
    refine (OnlySpeeds.plannerRecalculate _).entries.trans ?_
    have hring : ∀ dir b, Ring (advance { s with direction := dir } b targetSteps rpm) n p := fun _ _ =>
      ⟨h.tail_lt, h.le_size, h.head, h.nextHead, h.planned, h.planned_lt⟩
    exact (hring _ _).entries_push (h.not_full hfull) _

theorem Untouched.entries (h : Untouched s t) (hr : Ring s n p) : t.entries = s.entries := by
  refine entries_congr h.size h.tail h.head fun k hk => congrArg PlanBlock.added (h.blocks _ (hr.mem_tailToHead.2 ⟨k, ?_, rfl⟩))
  rwa [hr.queued_eq] at hk

theorem Queues.plan {queue : List PlanBlock} (h : Queues (s, queue)) {op : PlanOp} (hstep : planStep s op = some t) :
    t.entries = queueAfter s queue op := by
  obtain ⟨⟨n, p, hr, -⟩, hentries⟩ := h
  replace hentries : s.entries = queue := hentries
  cases op with
  | line targetSteps sysPosition d g rpm =>
      rw [planStep] at hstep
      split at hstep
      · cases hstep
      · rename_i hfull
        obtain rfl := Option.some.inj hstep
        cases hblock : s.acceptedBlock targetSteps sysPosition d g with
        | none =>
            rw [(line_untouched hr rpm hblock).entries hr, hentries, queueAfter, hblock]
            exact (List.append_nil queue).symm
        | some b =>
            rw [line_entries hr (Bool.not_eq_true _ ▸ hfull) rpm hblock, hentries, queueAfter, hblock]
            rfl
  | discard =>
      obtain rfl := Option.some.inj hstep
      rw [entries_discard hr, hentries]
      rfl
  | feedOverride current requested disable rpm =>
      obtain rfl := Option.some.inj hstep
      exact (entries_feedOverride s _ rpm).trans hentries
  | prep v mm w =>
      rw [planStep] at hstep
      split at hstep
      · cases hstep
      · split at hstep
        · obtain rfl := Option.some.inj hstep
          refine Eq.trans (entries_congr (s := s) rfl rfl rfl fun k _ => ?_) hentries
          by_cases hk : s.slotAt k = s.tail
          · have hself : (s.prepTail v mm w).blocks s.tail = { s.blocks s.tail with entrySpeedSqr := v, millimeters := mm } :=
              Function.update_self ..
            rw [hk, hself]
            rfl
          · exact congrArg PlanBlock.added (Function.update_of_ne hk _ _)
        · cases hstep

theorem Buffered.reinit (h : Buffered s) : Buffered s.planCycleReinit := by
  obtain ⟨n, p, hr, hs⟩ := h
  have hspeeds := (OnlySpeeds.stUpdate s).trans (OnlySpeeds.setPlanned _ s.stUpdatePlanBlockParameters.tail)
  have htail : s.stUpdatePlanBlockParameters.tail = s.slotAt 0 := (OnlySpeeds.stUpdate s).tail.trans hr.slotAt_zero.symm
  have hring : Ring { s.stUpdatePlanBlockParameters with planned := s.stUpdatePlanBlockParameters.tail } n 0 :=
    hr.onlySpeeds hspeeds htail (by omega)
  rw [planCycleReinit]
  dsimp only
  split
  · rename_i hne
    have hpos : 0 < n := by
      refine Nat.pos_of_ne_zero fun hzero => hne ?_
      exact (hring.head_eq_tail.2 hzero).symm
    exact Buffered.recalculate hring (hs.onlySpeeds hspeeds) hpos
  · exact ⟨n, 0, hring, hs.onlySpeeds hspeeds⟩

theorem Buffered.resetBuffer (s : Planner) : Ring s.planResetBuffer 0 0 := by
  have hslot : ∀ k, s.planResetBuffer.slotAt k = slot s.size 0 k := fun _ => rfl
  refine ⟨Nat.succ_pos _, Nat.zero_le _, ?_, ?_, ?_, .inr ⟨rfl, rfl⟩⟩
  · rw [hslot, slot_zero (Nat.succ_pos _)]
    rfl
  · rw [hslot]
    exact ringNext_eq (Nat.succ_pos _)
  · rw [hslot, slot_zero (Nat.succ_pos _)]
    rfl

theorem Queues.step {s t : Planner × List PlanBlock} {op : BufferOp} (h : Queues s) (hstep : bufferStep s op = some t) :
    Queues t := by
  cases op with
  | plan op =>
      obtain ⟨u, hplan, rfl⟩ := Option.map_eq_some_iff.1 hstep
      exact ⟨buffered_planStep h.buffered hplan, h.plan hplan⟩
  | getCurrent =>
      obtain rfl := Option.some.inj hstep
      exact h
  | reinit =>
      obtain rfl := Option.some.inj hstep
      exact ⟨h.buffered.reinit, (onlySpeeds_planCycleReinit _).entries.trans h.entries⟩
  | reset =>
      obtain rfl := Option.some.inj hstep
      have hring := Buffered.resetBuffer s.1
      exact ⟨⟨0, 0, hring, fun k hk => absurd hk (Nat.not_lt_zero k)⟩, by rw [hring.entries]; rfl⟩

theorem Ring.bookkeeping (h : Ring s n p) : Bookkeeping s s.entries where
  blocks := by
    rw [h.tailToHead, h.entries, List.map_map]
    rfl
  fits := by
    rw [h.entries, List.length_map, List.length_range]
    exact h.le_size
  available := by rw [h.available, h.entries, List.length_map, List.length_range]
  full := by
    have hsize := h.le_size
    rw [planCheckFullBuffer, decide_eq_true_iff, h.full_iff, h.available]
    omega
  current := by
    rw [planGetCurrentBlock, h.tailToHead]
    by_cases hn : n = 0
    · rw [if_pos (h.head_eq_tail.2 hn), hn]
      rfl
    · obtain ⟨m, rfl⟩ := Nat.exists_eq_succ_of_ne_zero hn
      rw [if_neg (fun he => hn (h.head_eq_tail.1 he)), List.range_succ_eq_map, List.map_cons, List.head?_cons, h.slotAt_zero]
  planned := by
    rw [h.mem_tailToHead, h.planned, h.head]
    rcases h.planned_lt with hp | ⟨rfl, rfl⟩
    · exact .inl ⟨p, hp, rfl⟩
    · exact .inr rfl
  nextHead := by rw [h.nextHead, h.head, slotAt_next]

end Planner

/-- After every run the pointers say which blocks are queued, and a system motion or a motion without length changes none of them. -/
theorem bookkeeping_of_run (size : ℕ) (memory : ℕ → PlanBlock) (ov : Override) (ops : List BufferOp) (s : Planner)
    (queue : List PlanBlock) (hrun : run bufferStep (Planner.planReset size memory ov, []) ops = some (s, queue)) :
    s.Bookkeeping queue ∧ ∀ targetSteps sysPosition d g rpm, s.acceptedBlock targetSteps sysPosition d g = none →
      s.Untouched (s.planBufferLine targetSteps sysPosition d g rpm).1 := by
  have hstart : Planner.Queues (Planner.planReset size memory ov, []) := ⟨.reset size memory ov, rfl⟩
  have hqueues : Planner.Queues (s, queue) := run_invariant (fun _ _ _ h hstep => h.step hstep) ops _ _ hstart hrun
  obtain ⟨⟨n, p, hring, -⟩, hentries⟩ := hqueues
  obtain rfl : s.entries = queue := hentries
  exact ⟨hring.bookkeeping, fun _ _ _ _ rpm hnone => Planner.line_untouched hring rpm hnone⟩

/-- Two lines, of which the first is discarded before the plan is made again. -/
theorem bookkeeping_of_run_two_lines : ∃ s queue,
    run bufferStep (Planner.planReset 1 exampleMemory ⟨100, 100⟩, [])
      [.plan (exampleOp 1), .plan .discard, .plan (exampleOp 2), .reinit] = some (s, queue) ∧ s.Bookkeeping queue := by
  cases hrun : run bufferStep (Planner.planReset 1 exampleMemory ⟨100, 100⟩, [])
      [.plan (exampleOp 1), .plan .discard, .plan (exampleOp 2), .reinit] with
  | none => exact absurd (congrArg Option.isSome hrun) (by decide +kernel)
  | some s => exact ⟨s.1, s.2, rfl, (bookkeeping_of_run _ _ _ _ _ _ hrun).1⟩

end Grbl
