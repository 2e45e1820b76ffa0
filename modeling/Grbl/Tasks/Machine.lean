import Grbl.Lib.Run
import Grbl.Tasks.Pool

/-!
# Rounds of tasks

* `Frame`, `Scheduler` : how far the foreground has got in `task_execute` and `task_execute_on_startup`, and what has
  been called so far;
* `taskAddImmediate`, `taskAddDelayed`, `taskRunOnReset`, `Scheduler.delete` : the calls, from anywhere;
* `Scheduler.go` : the foreground goes on, up to the next moment interrupts are enabled;
* `Action`, `Scheduler.step`;
* `Delivered` : every task is executed once, in order, and not before it is due.
-/

namespace Grbl.CoreTask
open Lib

/-- What has been accepted, executed and deleted. -/
structure History (F D : Type) where
  immediate : List (Call F D)
  immediateRun : List (Call F D)
  onReset : List (Call F D)
  onResetRun : List (Call F D)
  delayed : List (Call F D × ℕ)
  /-- with the time of its execution -/
  delayedRun : List ((Call F D × ℕ) × ℕ)
  deleted : List (Call F D × ℕ)

/-- Where the foreground is. -/
inductive Frame
  /-- `task_execute`: `if(tasks.immediate && sys.driver_started)` -/
  | entered
  /-- the list is taken over -/
  | detach
  /-- `do {} while((task = task_run(task)))`: what is left of the list -/
  | immediate (task : Option ℕ)
  /-- `if(lock) return;` -/
  | locking
  /-- `now = hal.get_elapsed_ticks()` -/
  | clock
  /-- `if(!(now == last_ms || tasks.delayed == tasks.systick))` -/
  | check (now : ℕ)
  /-- `task = tasks.delayed` -/
  | head (now : ℕ)
  /-- `(int32_t)(task->time - now) <= 0` -/
  | due (now task : ℕ)
  /-- the body of the loop, up to `fn(data)` -/
  | take (now task : ℕ)
  /-- `lock = false` -/
  | unlock
  /-- `task_execute_on_startup`: `if(tasks.on_reset)` -/
  | startup
  /-- `task_run(tasks.on_reset)` -/
  | resetRun (task : ℕ)
  /-- `tasks.on_reset = ` what `task_run` returns -/
  | resetNext (task : Option ℕ)
  /-- the function of a task -/
  | running
  deriving DecidableEq

/-- The tasks, the clock, the static variables of `task_execute`, `sys.cold_start`, and the foreground, innermost call
first. The driver has been started. -/
structure Scheduler (F D : Type) where
  tasks : Tasks F D
  ticks : ℕ
  lastMs : ℕ
  lock : Bool
  coldStart : Bool
  frames : List Frame
  history : History F D

variable {F D : Type}

namespace Scheduler

def init (ticks : ℕ) (coldStart : Bool) : Scheduler F D :=
  ⟨.init, ticks, 0, false, coldStart, [], ⟨[], [], [], [], [], [], []⟩⟩

/-! ## Calls -/

/-- `if(fn && (task = task_alloc())) ...` -/
def withSlot (s : Scheduler F D) (fn : Option F) (use : Tasks F D → ℕ → F → Scheduler F D) : Bool × Scheduler F D :=
  match fn with
  | none => (false, s)
  | some f =>
      match taskAlloc s.tasks with
      | (none, _) => (false, s)
      | (some task, t) => (true, use t task f)

def taskAddImmediate (s : Scheduler F D) (fn : Option F) (data : Option D) : Bool × Scheduler F D :=
  s.withSlot fn fun t task f =>
    let t := t.fill task f data
    let r := linkLast t.next t.immediate task
    { s with
      tasks := { t with immediate := r.1, next := r.2 }
      history := { s.history with immediate := s.history.immediate ++ [⟨some f, data⟩] } }

def taskAddDelayed (s : Scheduler F D) (fn : Option F) (data : Option D) (delay : ℕ) : Bool × Scheduler F D :=
  s.withSlot fn fun t task f =>
    let time := s.ticks + delay
    let t := { t.fill task f data with time := Function.update t.time task time }
    { s with
      tasks := insertDelayed t task
      history := { s.history with delayed := s.history.delayed ++ [(⟨some f, data⟩, time)] } }

def taskRunOnReset (s : Scheduler F D) (fn : Option F) (data : Option D) : Bool × Scheduler F D :=
  if s.coldStart then (false, s)
  else
    s.withSlot fn fun t task f =>
      let t := t.fill task f data
      let r := linkLast t.next t.onReset task
      { s with
        tasks := { t with onReset := r.1, next := r.2 }
        history := { s.history with onReset := s.history.onReset ++ [⟨some f, data⟩] } }

/-- `task_delete` -/
def delete [DecidableEq F] [DecidableEq D] (s : Scheduler F D) (fn : Option F) (data : Option D) : Scheduler F D :=
  { s with
    tasks := taskDelete s.tasks fn data
    history := { s.history with
      deleted := s.history.deleted ++ (findDelayed s.tasks fn data).1.toList.map s.tasks.timed } }

/-! ## Rounds -/

/-- The next thing the foreground does in the round it is in. -/
def go (s : Scheduler F D) : Frame → List Frame → Option (Scheduler F D)
  | .entered, rest =>
      some { s with frames := (if s.tasks.immediate.isSome then .detach else .locking) :: rest }
  | .detach, rest =>
      some { s with
        tasks := { s.tasks with immediate := none }
        frames := .immediate s.tasks.immediate :: rest }
  | .immediate none, rest => some { s with frames := .locking :: rest }
  | .immediate (some task), rest =>
      some { s with
        tasks := taskFree s.tasks task
        frames := .running :: .immediate (s.tasks.next task) :: rest
        history := { s.history with immediateRun := s.history.immediateRun ++ [s.tasks.call task] } }
  | .locking, rest =>
      if s.lock then some { s with frames := rest } else some { s with lock := true, frames := .clock :: rest }
  | .clock, rest => some { s with frames := .check s.ticks :: rest }
  | .check now, rest =>
      if now % 2 ^ 32 = s.lastMs % 2 ^ 32 ∨ s.tasks.delayed = none then some { s with frames := .unlock :: rest }
      else some { s with lastMs := now, frames := .head now :: rest }
  | .head now, rest =>
      match s.tasks.delayed with
      | none => some { s with frames := .unlock :: rest }
      | some task => some { s with frames := .due now task :: rest }
  | .due now task, rest =>
      some { s with frames := (if signedDiff (s.tasks.time task) now ≤ 0 then .take now task else .unlock) :: rest }
  | .take now task, rest =>
      some { s with
        tasks := taskFree (unlinkDelayed s.tasks task) task
        frames := .running :: .head now :: rest
        history := { s.history with
          delayedRun := s.history.delayedRun ++ [((unlinkDelayed s.tasks task).timed task, s.ticks)] } }
  | .unlock, rest => some { s with lock := false, frames := rest }
  | .startup, rest =>
      match s.tasks.onReset with
      | none => some { s with frames := rest }
      | some task => some { s with frames := .resetRun task :: rest }
  | .resetRun task, rest =>
      some { s with
        tasks := taskFree s.tasks task
        frames := .running :: .resetNext (s.tasks.next task) :: rest
        history := { s.history with onResetRun := s.history.onResetRun ++ [s.tasks.call task] } }
  | .resetNext task, rest =>
      let t := { s.tasks with onReset := task }
      match task with
      | none => some { s with tasks := t, frames := rest }
      | some task => some { s with tasks := t, frames := .resetRun task :: rest }
  | .running, _ => none

/-- The foreground can make calls: it is in the function of a task, or in no round at all. -/
def calling (s : Scheduler F D) : Bool :=
  match s.frames with
  | [] => true
  | .running :: _ => true
  | _ => false

end Scheduler

/-- What can happen while interrupts are enabled. The calls come from interrupts or from the foreground. -/
inductive Action (F D : Type)
  | addImmediate (fn : Option F) (data : Option D)
  | addDelayed (fn : Option F) (data : Option D) (delay : ℕ)
  | runOnReset (fn : Option F) (data : Option D)
  | delete (fn : Option F) (data : Option D)
  | tick
  /-- `sys.cold_start = false` -/
  | warm
  | execute
  | executeOnStartup
  /-- the foreground goes on in its round -/
  | go
  /-- the function of a task returns -/
  | finish

namespace Scheduler

def step [DecidableEq F] [DecidableEq D] (s : Scheduler F D) : Action F D → Option (Scheduler F D)
  | .addImmediate fn data => some (s.taskAddImmediate fn data).2
  | .addDelayed fn data delay => some (s.taskAddDelayed fn data delay).2
  | .runOnReset fn data => some (s.taskRunOnReset fn data).2
  | .delete fn data => some (s.delete fn data)
  | .tick => some { s with ticks := s.ticks + 1 }
  | .warm => some { s with coldStart := false }
  | .execute => if s.calling then some { s with frames := .entered :: s.frames } else none
  | .executeOnStartup => if s.calling then some { s with frames := .startup :: s.frames } else none
  | .go =>
      match s.frames with
      | [] => none
      | f :: rest => s.go f rest
  | .finish =>
      match s.frames with
      | .running :: rest => some { s with frames := rest }
      | _ => none

end Scheduler

/-! ## What the scheduler is for -/

/-- Nobody makes a call. -/
def Action.Quiet : Action F D → Prop
  | .tick | .execute | .executeOnStartup | .go | .finish => True
  | _ => False

/-- The immediate tasks a round has taken over and not yet executed. -/
def Frame.detached : Frame → Option ℕ
  | .immediate task => task
  | _ => none

/-- The tasks to be run on reset that are left while one of them is executed. -/
def Frame.resetLeft : Frame → Option (Option ℕ)
  | .resetNext task => some task
  | _ => none

namespace Scheduler

variable (s : Scheduler F D)

def detached : List ℕ := s.frames.flatMap fun f => s.tasks.chain f.detached

def resetList : List ℕ := s.tasks.chain ((s.frames.findSome? Frame.resetLeft).getD s.tasks.onReset)

/-- The slots of all tasks that have been accepted and not yet been executed. -/
def pending : List ℕ :=
  s.detached ++ s.tasks.chain s.tasks.immediate ++ s.tasks.chain s.tasks.delayed ++ s.resetList

/-- The slots the head of a list leads to that is not the one of a list above: `tasks.on_reset` while a task of it is
executed. -/
def stale : List ℕ := if (s.frames.findSome? Frame.resetLeft).isSome then s.tasks.chain s.tasks.onReset else []

/-- Every accepted call leads to one execution unless it has been deleted, or is pending; immediate tasks and tasks
to be run on reset are executed in order, delayed tasks when they are due; no slot is in two lists, and the slots in
use are those of the pending tasks. -/
structure Delivered : Prop where
  immediate : s.history.immediate =
    s.history.immediateRun ++ (s.detached ++ s.tasks.chain s.tasks.immediate).map s.tasks.call
  onReset : s.history.onReset = s.history.onResetRun ++ s.resetList.map s.tasks.call
  delayed : s.history.delayed.Perm
    (s.history.delayedRun.map Prod.fst ++ s.history.deleted ++ (s.tasks.chain s.tasks.delayed).map s.tasks.timed)
  notEarly : ∀ r ∈ s.history.delayedRun, r.1.2 ≤ r.2
  nodup : (s.pending ++ s.stale).Nodup
  live : ∀ i, i ∈ s.pending ↔ i < coreTaskPoolSize ∧ s.tasks.fn i ≠ none
  handsOut : ∀ i, (taskAlloc s.tasks).1 = some i → i ∉ s.pending

/-- Functions that return, further rounds and some time lead to a state in which every task has been executed. -/
def CanDeliver [DecidableEq F] [DecidableEq D] : Prop :=
  ∃ as s', (∀ a ∈ as, a.Quiet) ∧ run step s as = some s' ∧ s'.pending = [] ∧
    s.history.immediate.Perm s'.history.immediateRun ∧ s.history.onReset = s'.history.onResetRun ∧
    s.history.delayed.Perm (s'.history.delayedRun.map Prod.fst ++ s.history.deleted)

/-! ## When it works -/

end Scheduler

namespace Frame

/-- The time a round has read from the clock. -/
def now : Frame → Option ℕ
  | check now | head now | due now _ | take now _ => some now
  | _ => none

/-- The task a round has read from the list of delayed tasks, and is about to take out. -/
def taking : Frame → Option (ℕ × ℕ)
  | due now task | take now task => some (now, task)
  | _ => none

end Frame

namespace Scheduler

/-- The function of a task to be run on reset is being executed. -/
def Resetting (s : Scheduler F D) : Prop := ∃ f ∈ s.frames, f.resetLeft.isSome

def Accepts (s : Scheduler F D) (fn : Option F) : Prop := fn.isSome ∧ (taskAlloc s.tasks).1.isSome

/-- The slot that is handed out next is the one `tasks.on_reset` points to, whose task is being executed. -/
def Reuses (s : Scheduler F D) : Prop := s.Resetting ∧ (taskAlloc s.tasks).1 = s.tasks.onReset

/-- * while the function of a task to be run on reset is executed, no further one is added, no slot is handed out that
  `tasks.on_reset` points to, and no `task_execute_on_startup` is entered;
* no round looks at a delayed task that is due `2^31` ms or more after the round has read the clock (which takes a delay
  close to `2^31` ms, and a round that has lasted for some time when the task is added);
* `task_delete` does not delete the task that a round has read and is about to take out;
* a round within a round does not take over immediate tasks while some of those taken over before are left. -/
def Safe [DecidableEq F] [DecidableEq D] (s : Scheduler F D) : Action F D → Prop
  | .addImmediate fn _ => s.Accepts fn → ¬s.Reuses
  | .addDelayed fn _ _ => s.Accepts fn → ¬s.Reuses
  | .runOnReset fn _ => s.coldStart = false → s.Accepts fn → ¬s.Resetting
  | .delete fn data => ∀ task ∈ (findDelayed s.tasks fn data).1, ∀ f ∈ s.frames, ∀ r ∈ f.taking,
      r.2 = task → ¬signedDiff (s.tasks.time task) r.1 ≤ 0
  | .executeOnStartup => ¬s.Resetting
  | .go => (s.frames.head? = some .detach → s.tasks.immediate ≠ none → ∀ f ∈ s.frames.tail, f.detached = none) ∧
      ∀ r ∈ s.frames.head?.bind Frame.taking, s.tasks.time r.2 < r.1 + 2 ^ 31
  | .tick | .warm | .execute | .finish => True

instance (s : Scheduler F D) : Decidable s.Resetting := inferInstanceAs (Decidable (∃ f ∈ s.frames, _))

instance (s : Scheduler F D) (fn : Option F) : Decidable (s.Accepts fn) := inferInstanceAs (Decidable (_ ∧ _))

instance (s : Scheduler F D) : Decidable s.Reuses := inferInstanceAs (Decidable (_ ∧ _))

instance [DecidableEq F] [DecidableEq D] (s : Scheduler F D) : (a : Action F D) → Decidable (s.Safe a)
  | .addImmediate _ _ | .addDelayed _ _ _ => inferInstanceAs (Decidable (_ → _))
  | .runOnReset _ _ => inferInstanceAs (Decidable (_ → _ → _))
  | .delete fn data => inferInstanceAs (Decidable (∀ task ∈ (findDelayed s.tasks fn data).1, ∀ f ∈ s.frames,
      ∀ r ∈ f.taking, _ → _))
  | .executeOnStartup => inferInstanceAs (Decidable (¬_))
  | .go => inferInstanceAs (Decidable ((_ → _ → ∀ f ∈ s.frames.tail, _) ∧ ∀ r ∈ s.frames.head?.bind Frame.taking, _))
  | .tick | .warm | .execute | .finish => isTrue trivial

end Scheduler

end Grbl.CoreTask
