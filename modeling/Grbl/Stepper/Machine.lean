import Mathlib
import Grbl.Axis
import Grbl.Lib.Ring
import Grbl.Lib.Heap

/-!
# The segment generator, the stepper interrupt and the synchronised output commands

One machine holds what the parser, the planner queue, `st_prep_buffer` and the stepper interrupt
share. An iteration of the loop of `st_prep_buffer` is split where the interrupt can come in between:
loading a block, pushing a segment, ending the block.

* `Motion`, `StBlock`, `Segment`, `Stepper` : the data;
* `History` : variables nothing reads, which number the blocks and record what was done for them;
* `prepLoad`, `prepSegment`, `prepBail`, `prepEnd`, `replan`, `resume` : the segment generator;
* `pulseStart`, `fetchSegment`, `traceLine`, `endTick`, `goIdle`, `tick` : the interrupt;
* `addOutputCommand`, `queueMotion`, `gcAtExit` : the parser;
* `StepperOp`, `stepperStep` : one step of any of them; `prepLoad_cases` … `tick_cases` : what a
  step can do.
-/

namespace Grbl

open Lib

/-- What the stepper takes from a planner block. -/
structure Motion where
  steps : Axis → ℕ
  stepEventCount : ℕ
  direction : Axis → Bool
  /-- the nodes of the list `output_commands` points at -/
  outputCommands : List ℕ

/-- Bresenham data of a planner block (`st_block_t`). -/
structure StBlock where
  steps : Axis → ℕ
  stepEventCount : ℕ
  direction : Axis → Bool
  outputCommands : List ℕ

/-- A step segment (`segment_t`); `execBlock` is an entry of `st_block_buffer`. -/
structure Segment where
  execBlock : ℕ
  nStep : ℕ
  amassLevel : ℕ

/-- The data of the interrupt (`stepper_t`); `execSegment` is a slot of `segment_buffer`. -/
structure Stepper where
  stepOut : Axis → Bool
  dirOut : Axis → Bool
  amassLevel : ℕ
  stepCount : ℕ
  stepEventCount : ℕ
  steps : Axis → ℕ
  counter : Axis → ℕ
  execBlock : Option ℕ
  execSegment : Option ℕ

/-- A 32 bit unsigned value. -/
def u32 (x : ℕ) : ℕ := x % 2 ^ 32

def maxAmassLevel : ℕ := 3

/-- The Bresenham data of a block, multiplied by the largest AMASS level. -/
def StBlock.ofMotion (b : Motion) : StBlock where
  steps := fun i => u32 (b.steps i <<< maxAmassLevel)
  stepEventCount := u32 (b.stepEventCount <<< maxAmassLevel)
  direction := b.direction
  outputCommands := b.outputCommands

/-- The commands of a block that has been started are gone. -/
def StBlock.withoutCommands (b : StBlock) : StBlock := { b with outputCommands := [] }

def gcClearOutputCommands (h : Heap) (ns : List ℕ) : Heap := h.freeAll ns

/-! ## The machine -/

/-- Where `st_prep_buffer` is in an iteration of its loop: before the check of the buffer, with a
block loaded, or with the segment pushed. -/
inductive PrepPhase
  | idle | ready | pushed
  deriving DecidableEq, Repr

/-- Variables that nothing reads. Queued blocks are numbered from 1. -/
structure History where
  /-- number of motions queued -/
  queued : ℕ
  motion : ℕ → Motion
  /-- number of the block last loaded by the segment generator -/
  loaded : ℕ
  /-- number of the block of the segment last pushed -/
  pushed : ℕ
  /-- number of the block last started by the interrupt -/
  started : ℕ
  /-- the segments in the buffer with the numbers of their blocks -/
  fifo : List (ℕ × Segment)
  /-- step pulses output for each block -/
  emitted : ℕ → Axis → ℕ
  /-- position at the start of each block -/
  startPosition : ℕ → Axis → ℤ
  /-- commands executed, with the number of the block being started -/
  executed : List (ℕ × ℕ)
  /-- number of motions queued when a command was accepted -/
  accepted : ℕ → ℕ
  /-- commands freed by the parser -/
  dropped : List ℕ

/-- The state shared by parser, planner queue, segment generator and interrupt. -/
structure Machine where
  /-- `SEGMENT_BUFFER_SIZE` -/
  size : ℕ
  /-- the planner buffer, from its tail -/
  queue : List Motion
  segments : ℕ → Segment
  segmentBufferTail : ℕ
  segmentBufferHead : ℕ
  stBlocks : ℕ → StBlock
  stPrepBlock : ℕ
  /-- `pl_block` is not `NULL` (it is the tail of the planner buffer) -/
  plBlock : Bool
  /-- `prep.recalculate.velocity_profile` -/
  velocityProfile : Bool
  /-- `prep.steps_remaining` -/
  stepsRemaining : ℕ
  /-- `sys.step_control.end_motion` -/
  endMotion : Bool
  phase : PrepPhase
  st : Stepper
  position : Axis → ℤ
  /-- `sys.flags.is_homing` -/
  isHoming : Bool
  /-- `sys.homing_axis_lock` -/
  homingAxisLock : Axis → Bool
  /-- the parser's `output_commands` -/
  outputCommands : List ℕ
  heap : Heap
  history : History

namespace Machine

/-- `segment_buffer` has `size` elements. -/
def nextSegment (m : Machine) (i : ℕ) : ℕ := ringNext (m.size - 1) i

/-- `st_block_buffer` has one element less than `segment_buffer`. -/
def nextBlock (m : Machine) (i : ℕ) : ℕ := ringNext (m.size - 2) i

/-- `st_reset`, with nothing queued. -/
def stReset (size : ℕ) (segments : ℕ → Segment) (stBlocks : ℕ → StBlock) (position : Axis → ℤ)
    (isHoming : Bool) (homingAxisLock : Axis → Bool) : Machine where
  size := size
  queue := []
  segments := segments
  segmentBufferTail := 0
  segmentBufferHead := 0
  stBlocks := stBlocks
  stPrepBlock := 0
  plBlock := false
  velocityProfile := false
  stepsRemaining := 0
  endMotion := false
  phase := .idle
  st := ⟨fun _ => false, fun _ => false, 0, 0, 0, fun _ => 0, fun _ => 0, none, none⟩
  position := position
  isHoming := isHoming
  homingAxisLock := homingAxisLock
  outputCommands := []
  heap := ⟨0, [], []⟩
  history := ⟨0, fun _ => ⟨fun _ => 0, 0, fun _ => false, []⟩, 0, 0, 0, [], fun _ _ => 0,
    fun _ _ => 0, [], fun _ => 0, []⟩

/-! ## `st_prep_buffer` -/

def segmentBufferFull (m : Machine) : Bool :=
  m.nextSegment m.segmentBufferHead = m.segmentBufferTail

/-- Loading a new planner block into the next element of `st_block_buffer`. -/
def loadBlock (m : Machine) (b : Motion) : Machine :=
  let e := m.nextBlock m.stPrepBlock
  { m with
    plBlock := true
    phase := .ready
    stPrepBlock := e
    stBlocks := Function.update m.stBlocks e (StBlock.ofMotion b)
    stepsRemaining := b.stepEventCount
    history := { m.history with loaded := m.history.loaded + 1 } }

/-- A partially completed block whose velocity profile is computed again. -/
def reloadBlock (m : Machine) : Machine :=
  { m with plBlock := true, velocityProfile := false, phase := .ready }

/-- The check of the buffer and the part under `if (pl_block == NULL)`. -/
def prepLoad (m : Machine) : Option Machine :=
  if m.endMotion ∨ m.phase ≠ .idle ∨ m.segmentBufferFull then none
  else if m.plBlock then some { m with phase := .ready }
  else
    match m.queue with
    | [] => none
    | b :: _ => some (if m.velocityProfile then m.reloadBlock else m.loadBlock b)

/-- A new segment at the head of the buffer. -/
def pushSegment (m : Machine) (n : ℕ) (seg : Segment) : Machine :=
  { m with
    phase := .pushed
    segments := Function.update m.segments m.segmentBufferHead seg
    segmentBufferHead := m.nextSegment m.segmentBufferHead
    stepsRemaining := m.stepsRemaining - n
    history := { m.history with
      pushed := m.history.loaded
      fifo := m.history.fifo ++ [(m.history.loaded, seg)] } }

/-- Pushing a segment of `n` whole steps at AMASS level `level`. -/
def prepSegment (m : Machine) (n level : ℕ) : Option Machine :=
  if m.phase = .ready ∧ n ≤ m.stepsRemaining ∧ level ≤ maxAmassLevel then
    some (m.pushSegment n ⟨m.stPrepBlock, u32 (n <<< level), level⟩)
  else none

/-- No step left to execute at the end of a feed hold: no segment is pushed. -/
def prepBail (m : Machine) : Option Machine :=
  if m.phase = .ready then some { m with phase := .idle, endMotion := true } else none

/-- `plan_discard_current_block`, at the end of a block. -/
def discardBlock (m : Machine) : Machine :=
  { m with
    phase := .idle
    plBlock := false
    queue := m.queue.tail
    heap := match m.queue with
      | [] => m.heap
      | b :: _ => gcClearOutputCommands m.heap b.outputCommands }

/-- After a segment: the end of the planner block; the end of a feed hold (`hold`); or another
iteration. -/
def prepEnd (m : Machine) (hold : Bool) : Option Machine :=
  if m.phase = .pushed then
    if m.stepsRemaining = 0 then some m.discardBlock
    else some { m with phase := .idle, endMotion := m.endMotion || hold }
  else none

/-- `st_update_plan_block_parameters(false)`, called from the planner. -/
def replan (m : Machine) : Option Machine :=
  if m.phase = .idle then
    if m.plBlock then some { m with velocityProfile := true, plBlock := false } else some m
  else none

/-- The motion is resumed after the end of a feed hold. -/
def resume (m : Machine) : Option Machine :=
  if m.phase = .idle then some { m with endMotion := false } else none

/-! ## The interrupt -/

/-- `hal.stepper.pulse_start` outputs the pulses of the previous tick; a completed segment is
discarded. -/
def pulseStart (m : Machine) : Machine :=
  match m.st.execBlock with
  | none => m
  | some _ =>
      { m with
        st := { m.st with
          execSegment := if m.st.stepCount = 0 then none else m.st.execSegment }
        history := { m.history with
          emitted := Function.update m.history.emitted m.history.started fun i =>
            m.history.emitted m.history.started i + if m.st.stepOut i then 1 else 0 } }

/-- A segment of a new planner block: its commands are executed, the counters initialised. -/
def startBlock (m : Machine) (e number : ℕ) : Machine :=
  let b := m.stBlocks e
  { m with
    st := { m.st with
      dirOut := b.direction
      execBlock := some e
      stepEventCount := b.stepEventCount
      counter := fun _ => b.stepEventCount >>> 1 }
    stBlocks := Function.update m.stBlocks e b.withoutCommands
    heap := m.heap.readAll b.outputCommands
    history := { m.history with
      started := number
      startPosition := Function.update m.history.startPosition number m.position
      executed := m.history.executed ++ b.outputCommands.map fun n => (n, number) } }

/-- The number of the block the tail segment belongs to. -/
def tailNumber (m : Machine) : ℕ :=
  match m.history.fifo with
  | [] => 0
  | q :: _ => q.1

/-- `st.exec_block != st.exec_segment->exec_block`: the segment starts a new block. -/
def enterBlock (m : Machine) (seg : Segment) : Machine :=
  if m.st.execBlock ≠ some seg.execBlock then m.startBlock seg.execBlock m.tailNumber else m

def popSegment (m : Machine) : Machine :=
  let seg := m.segments m.segmentBufferTail
  let m' := m.enterBlock seg
  { m' with
    st := { m'.st with
      execSegment := some m.segmentBufferTail
      stepCount := seg.nStep
      amassLevel := seg.amassLevel
      steps := fun i => (m'.stBlocks seg.execBlock).steps i >>> seg.amassLevel } }

/-- One axis of the Bresenham algorithm: the new counter, and whether the axis steps. -/
def traceAxis (s : Stepper) (i : Axis) : ℕ × Bool :=
  let counter := u32 (s.counter i + s.steps i)
  if counter > s.stepEventCount then (counter - s.stepEventCount, true) else (counter, false)

/-- All axes; the Z axis is skipped when it has no steps. -/
def traceAxes (s : Stepper) (i : Axis) : ℕ × Bool :=
  if i = .z ∧ s.steps i = 0 then (s.counter i, false) else traceAxis s i

/-- The Bresenham algorithm, the positions and the pulses for the next tick. -/
def traceLine (m : Machine) : Machine :=
  let stepOut := fun i => (traceAxes m.st i).2
  { m with
    st := { m.st with
      counter := fun i => (traceAxes m.st i).1
      stepOut := fun i => stepOut i && (!m.isHoming || m.homingAxisLock i) }
    position := fun i =>
      if stepOut i then m.position i + (if m.st.dirOut i then -1 else 1) else m.position i }

/-- Counts the step; a completed segment is released. -/
def endTick (m : Machine) : Machine :=
  if m.st.stepCount = 0 ∨ m.st.stepCount - 1 = 0 then
    { m with
      st := { m.st with stepCount := 0 }
      segmentBufferTail := m.nextSegment m.segmentBufferTail
      history := { m.history with fifo := m.history.fifo.tail } }
  else { m with st := { m.st with stepCount := m.st.stepCount - 1 } }

/-- No segment left: the cycle ends. -/
def goIdle (m : Machine) : Machine := { m with st := { m.st with execBlock := none } }

/-- With no active segment, one is popped if there is one. -/
def fetchSegment (m : Machine) : Option Machine :=
  match m.st.execSegment with
  | some _ => some m
  | none => if m.segmentBufferTail ≠ m.segmentBufferHead then some m.popSegment else none

/-- `stepper_driver_interrupt_handler`; `none` while the timer is idle. -/
def tick (m : Machine) : Option Machine :=
  let m := m.pulseStart
  match m.fetchSegment with
  | some m => some m.traceLine.endTick
  | none =>
      match m.st.execBlock with
      | none => none
      | some _ => some m.goIdle

/-! ## The parser -/

/-- `add_output_command`: the new node is appended at the end of the list. -/
def addOutputCommand (m : Machine) : Machine :=
  { m with
    outputCommands := m.outputCommands ++ [m.heap.allocated]
    heap := (m.heap.readAll m.outputCommands).alloc
    history := { m.history with
      accepted := Function.update m.history.accepted m.heap.allocated m.history.queued } }

/-- A planner block is queued; `rest` is what is left in `output_commands`. -/
def pushMotion (m : Machine) (b : Motion) (rest : List ℕ) : Machine :=
  { m with
    queue := m.queue ++ [b]
    outputCommands := rest
    history := { m.history with
      queued := m.history.queued + 1
      motion := Function.update m.history.motion (m.history.queued + 1) b } }

/-- A motion: `plan_buffer_line` queues nothing when it has no length. The motion modes hand the commands to it, and it takes
them over; jogs, G28, G30 and the compensation of backlash hand over `NULL`. -/
def queueMotion (m : Machine) (handsOver : Bool) (steps : Axis → ℕ) (stepEventCount : ℕ) (direction : Axis → Bool) :
    Machine :=
  if stepEventCount = 0 then m
  else if handsOver then m.pushMotion ⟨steps, stepEventCount, direction, m.outputCommands⟩ []
  else m.pushMotion ⟨steps, stepEventCount, direction, []⟩ m.outputCommands

/-- `gc_at_exit` with an error status, at the end of a program and from `gc_init`. -/
def gcAtExit (m : Machine) : Machine :=
  { m with
    -- `output_commands` keeps its value
    heap := gcClearOutputCommands m.heap m.outputCommands
    history := { m.history with dropped := m.history.dropped ++ m.outputCommands } }

end Machine

/-! ## Steps -/

inductive StepperOp
  | load
  | segment (n level : ℕ)
  | bail
  | endSegment (hold : Bool)
  | replan
  | resume
  | tick
  | addCommand
  | motion (handsOver : Bool) (steps : Axis → ℕ) (stepEventCount : ℕ) (direction : Axis → Bool)
  | exit

/-- One step; `none` when it is not enabled. -/
def stepperStep (m : Machine) : StepperOp → Option Machine
  | .load => m.prepLoad
  | .segment n level => m.prepSegment n level
  | .bail => m.prepBail
  | .endSegment hold => m.prepEnd hold
  | .replan => m.replan
  | .resume => m.resume
  | .tick => m.tick
  | .addCommand => some m.addOutputCommand
  | .motion handsOver steps stepEventCount direction => some (m.queueMotion handsOver steps stepEventCount direction)
  | .exit => some m.gcAtExit

/-! ## What the steps can do -/

namespace Machine

variable {m m' : Machine}

theorem pushMotion_motion {b : ℕ} (hb : b ≤ m.history.queued) (x : Motion) (rest : List ℕ) :
    (m.pushMotion x rest).history.motion b = m.history.motion b :=
  Function.update_of_ne (by omega) _ _

theorem pushMotion_motion_self (x : Motion) (rest : List ℕ) :
    (m.pushMotion x rest).history.motion (m.history.queued + 1) = x :=
  Function.update_self _ _ _

theorem queueMotion_cases (m : Machine) (handsOver : Bool) (steps : Axis → ℕ) (sec : ℕ) (direction : Axis → Bool) :
    sec = 0 ∧ m.queueMotion handsOver steps sec direction = m ∨ sec ≠ 0 ∧
      (handsOver = true ∧
          m.queueMotion handsOver steps sec direction = m.pushMotion ⟨steps, sec, direction, m.outputCommands⟩ [] ∨
        handsOver = false ∧
          m.queueMotion handsOver steps sec direction = m.pushMotion ⟨steps, sec, direction, []⟩ m.outputCommands) := by
  rw [queueMotion]
  split
  · next hsec => exact .inl ⟨hsec, rfl⟩
  · next hsec =>
      cases handsOver with
      | true => exact .inr ⟨hsec, .inl ⟨rfl, rfl⟩⟩
      | false => exact .inr ⟨hsec, .inr ⟨rfl, rfl⟩⟩

theorem prepLoad_cases (h : m.prepLoad = some m') :
    m.phase = .idle ∧ m.segmentBufferFull = false ∧
      (m.plBlock = true ∧ m' = { m with phase := .ready } ∨
        m.plBlock = false ∧ ∃ b l, m.queue = b :: l ∧
          (m.velocityProfile = true ∧ m' = m.reloadBlock ∨
            m.velocityProfile = false ∧ m' = m.loadBlock b)) := by
  rw [prepLoad] at h
  split at h
  · cases h
  · next h1 =>
    simp only [not_or, not_not, Bool.not_eq_true] at h1
    refine ⟨h1.2.1, h1.2.2, ?_⟩
    split at h
    · next h2 => exact Or.inl ⟨h2, (Option.some.inj h).symm⟩
    · next h2 =>
      refine Or.inr ⟨by simpa using h2, ?_⟩
      cases hq : m.queue with
      | nil => simp [hq] at h
      | cons b l =>
          refine ⟨b, l, rfl, ?_⟩
          simp only [hq, Option.some.injEq] at h
          cases hv : m.velocityProfile with
          | true => exact Or.inl ⟨rfl, by simpa [hv] using h.symm⟩
          | false => exact Or.inr ⟨rfl, by simpa [hv] using h.symm⟩

theorem prepSegment_cases {n level : ℕ} (h : m.prepSegment n level = some m') :
    m.phase = .ready ∧ n ≤ m.stepsRemaining ∧ level ≤ maxAmassLevel ∧
      m' = m.pushSegment n ⟨m.stPrepBlock, u32 (n <<< level), level⟩ := by
  simp only [prepSegment] at h
  split_ifs at h with h1
  exact ⟨h1.1, h1.2.1, h1.2.2, (Option.some.inj h).symm⟩

theorem prepBail_cases (h : m.prepBail = some m') :
    m.phase = .ready ∧ m' = { m with phase := .idle, endMotion := true } := by
  simp only [prepBail] at h
  split_ifs at h with h1
  exact ⟨h1, (Option.some.inj h).symm⟩

theorem prepEnd_cases {hold : Bool} (h : m.prepEnd hold = some m') :
    m.phase = .pushed ∧ (m.stepsRemaining = 0 ∧ m' = m.discardBlock ∨
      m.stepsRemaining ≠ 0 ∧ m' = { m with phase := .idle, endMotion := m.endMotion || hold }) := by
  simp only [prepEnd] at h
  split_ifs at h with h1 h2
  · exact ⟨h1, Or.inl ⟨h2, (Option.some.inj h).symm⟩⟩
  · exact ⟨h1, Or.inr ⟨h2, (Option.some.inj h).symm⟩⟩

theorem replan_cases (h : m.replan = some m') :
    m.phase = .idle ∧ (m.plBlock = true ∧ m' = { m with velocityProfile := true, plBlock := false } ∨
      m.plBlock = false ∧ m' = m) := by
  simp only [replan] at h
  split_ifs at h with h1 h2
  · exact ⟨h1, Or.inl ⟨h2, (Option.some.inj h).symm⟩⟩
  · exact ⟨h1, Or.inr ⟨by simpa using h2, (Option.some.inj h).symm⟩⟩

theorem resume_cases (h : m.resume = some m') :
    m.phase = .idle ∧ m' = { m with endMotion := false } := by
  simp only [resume] at h
  split_ifs at h with h1
  exact ⟨h1, (Option.some.inj h).symm⟩

theorem fetchSegment_cases {m₁ : Machine} (h : m.fetchSegment = some m₁) :
    (∃ t, m.st.execSegment = some t) ∧ m₁ = m ∨
      m.st.execSegment = none ∧ m.segmentBufferTail ≠ m.segmentBufferHead ∧ m₁ = m.popSegment := by
  rw [fetchSegment] at h
  cases hs : m.st.execSegment with
  | some t =>
      simp only [hs, Option.some.injEq] at h
      exact Or.inl ⟨⟨t, rfl⟩, h.symm⟩
  | none =>
      simp only [hs] at h
      split_ifs at h with hne
      exact Or.inr ⟨rfl, hne, (Option.some.inj h).symm⟩

theorem fetchSegment_none (h : m.fetchSegment = none) :
    m.st.execSegment = none ∧ m.segmentBufferTail = m.segmentBufferHead := by
  rw [fetchSegment] at h
  cases hs : m.st.execSegment with
  | some t => simp [hs] at h
  | none => simpa [hs] using h

theorem tick_cases (h : m.tick = some m') :
    (∃ m₁, m.pulseStart.fetchSegment = some m₁ ∧ m' = m₁.traceLine.endTick) ∨
      m.pulseStart.fetchSegment = none ∧ m.pulseStart.st.execBlock ≠ none ∧
        m' = m.pulseStart.goIdle := by
  simp only [tick] at h
  cases hf : m.pulseStart.fetchSegment with
  | some m₁ =>
      simp only [hf, Option.some.injEq] at h
      exact Or.inl ⟨m₁, rfl, h.symm⟩
  | none =>
      simp only [hf] at h
      cases hb : m.pulseStart.st.execBlock with
      | none => simp [hb] at h
      | some e =>
          simp only [hb, Option.some.injEq] at h
          exact Or.inr ⟨rfl, by simp, h.symm⟩

end Machine

end Grbl
