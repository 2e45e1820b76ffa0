import Grbl.Planner.Block
import Grbl.Lib.Ring

/-!
# The planner buffer and `planner_recalculate`

The buffer is a ring of `size + 1` blocks, addressed by slot.

* `Planner` : the block buffer with its four pointers and the planner's own variables;
* `Planner.executing` : the segment generator has begun with the tail block;
* `Planner.stUpdatePlanBlockParameters` : what the stepper does to the tail block when it is
  executing;
* `reverseStep`, `reversePass` : the reverse pass, one block and all blocks;
* `cutNext`, `markNext`, `forwardPass` : the forward pass;
* `planLast`, `planReverse`, `planForward`, `plannerRecalculate` : both passes from the planned pointer on.
-/

namespace Grbl

open Lib

/-- The block buffer (`block_buffer_t`) and the planner variables (`planner_t`). -/
structure Planner where
  /-- number of blocks in the buffer minus 1 -/
  size : ℕ
  blocks : ℕ → PlanBlock
  tail : ℕ
  head : ℕ
  nextHead : ℕ
  planned : ℕ
  /-- `pl.position`, in steps -/
  position : Axis → ℤ
  previousNominalSpeed : ℚ
  /-- `pl.override` -/
  override : Override
  /-- the static `direction` of `plan_buffer_line` -/
  direction : Axis → Bool
  /-- the segment generator's `prep.current_speed` while its `pl_block` is the tail block, `none`
  while `pl_block` is `NULL` -/
  currentSpeed : Option ℚ
  /-- `prep.recalculate.velocity_profile`: the tail block is loaded again, and not as a new one -/
  velocityProfile : Bool

namespace Planner

def next (s : Planner) (i : ℕ) : ℕ := ringNext s.size i

def prev (s : Planner) (i : ℕ) : ℕ := ringPrev s.size i

def setBlock (s : Planner) (i : ℕ) (b : PlanBlock) : Planner :=
  { s with blocks := Function.update s.blocks i b }

def entry (s : Planner) (i : ℕ) : ℚ := (s.blocks i).entrySpeedSqr

def maxEntry (s : Planner) (i : ℕ) : ℚ := (s.blocks i).maxEntrySpeedSqr

def gain (s : Planner) (i : ℕ) : ℚ := (s.blocks i).gain

def setEntry (s : Planner) (i : ℕ) (v : ℚ) : Planner :=
  s.setBlock i { s.blocks i with entrySpeedSqr := v }

/-- The tail block is being executed. -/
def executing (s : Planner) : Bool := s.currentSpeed.isSome || s.velocityProfile

/-- `st_update_plan_block_parameters(false)`: the executing block gets the current speed as its
entry speed, and the segment generator is made to reload it. -/
def stUpdatePlanBlockParameters (s : Planner) : Planner :=
  match s.currentSpeed with
  | none => s
  | some v => { s.setEntry s.tail (v * v) with currentSpeed := none, velocityProfile := true }

/-- When the reverse pass comes to the tail the stepper updates the parameters of the block. -/
def updateTail (s : Planner) (block : ℕ) : Planner :=
  if block = s.tail then s.stUpdatePlanBlockParameters else s

/-- The maximum entry speed of `current` decelerating to the entry speed of `next`. -/
def reverseStep (s : Planner) (next current : ℕ) : Planner :=
  if s.entry current ≠ s.maxEntry current then
    let entrySpeedSqr := s.entry next + s.gain current
    s.setEntry current
      (if entrySpeedSqr < s.maxEntry current then entrySpeedSqr else s.maxEntry current)
  else s

/-- The reverse pass: `current` has been computed, `block` is the block before it. -/
def reversePass : ℕ → Planner → ℕ → ℕ → Planner
  | 0, s, _, _ => s
  | fuel + 1, s, current, block =>
      if block = s.planned then s
      else
        let next := current
        let current := block
        let block := s.prev block
        let s := s.updateTail block
        let s := s.reverseStep next current
        reversePass fuel s current block

/-- Cuts the entry speed of `next` to what is attainable over `current`; when it does, the plan up
to `next` is optimal. -/
def cutNext (s : Planner) (current next : ℕ) : Planner :=
  if s.entry current < s.entry next then
    let entrySpeedSqr := s.entry current + s.gain current
    if entrySpeedSqr < s.entry next then
      { s.setEntry next entrySpeedSqr with planned := next }
    else s
  else s

/-- A block at its maximum entry speed also makes the plan up to it optimal. -/
def markNext (s : Planner) (next : ℕ) : Planner :=
  if s.entry next = s.maxEntry next then { s with planned := next } else s

/-- The forward pass: `next` has been computed, `block` is the block after it. -/
def forwardPass : ℕ → Planner → ℕ → ℕ → Planner
  | 0, s, _, _ => s
  | fuel + 1, s, next, block =>
      if block = s.head then s
      else
        let current := next
        let next := block
        let s := s.cutNext current next
        let s := s.markNext next
        forwardPass fuel s next (s.next block)

/-- The maximum entry speed of the last block in the buffer, where the exit speed is zero. -/
def planLast (s : Planner) (block : ℕ) : Planner :=
  s.setEntry block (min (s.maxEntry block) (s.gain block))

/-- The reverse pass from the last block, `current`, to the planned pointer. -/
def planReverse (s : Planner) (current : ℕ) : Planner :=
  let block := s.prev current
  if block = s.planned then s.updateTail block
  else reversePass (s.size + 1) s current block

/-- The forward pass from the planned pointer to the head. -/
def planForward (s : Planner) : Planner :=
  forwardPass (s.size + 1) s s.planned (s.next s.planned)

/-- `planner_recalculate`. Each pass visits every slot of the ring at most once. -/
def plannerRecalculate (s : Planner) : Planner :=
  let block := s.prev s.head
  if block = s.planned then s
  else
    let s := s.planLast block
    let s := s.planReverse block
    s.planForward

end Planner
end Grbl
