import Mathlib

/-!
# The main state machine

The handlers are called through a function pointer. Restoring spindle and coolant may wait; while it
waits, further events are handled by nested calls, so an activation of the restoring code is a frame
that is resumed when its delay ends.

* `SysState`, `Handler`, `RtExec`, `Inputs`, `Settings` : states, handlers, flags and what is read;
* `Wait`, `Frame` : the delays, and the activations that wait for them;
* `Sys` : the state; `Effect` : what the interlock is about;
* `initiateHold`, `stateSet` : state changes;
* `awaitHoldComplete`, `awaitWaypointRetractComplete`, … : what the handlers do on `EXEC_CYCLE_COMPLETE`;
* `stateIdle`, …, `stateAwaitResumed` : the handlers;
* `stateUpdate`, `StateEvent`, `stateStep` : one event.
-/

namespace Grbl

/-- `sys_state_t` -/
inductive SysState
  | idle | alarm | checkMode | homing | cycle | hold | jog | safetyDoor | sleep | estop | toolChange
  deriving DecidableEq, Repr

/-- The functions `stateHandler` may point at. -/
inductive Handler
  | idle | cycle | awaitHold | noop | awaitMotionCancel | awaitResume | awaitToolchanged
  | awaitWaypointRetract | restore | awaitResumed | awaitRestartRetract
  deriving DecidableEq, Repr

/-- The realtime flags of an event, without `EXEC_RESET` and `EXEC_STOP`. -/
structure RtExec where
  cycleStart : Bool := false
  cycleComplete : Bool := false
  feedHold : Bool := false
  safetyDoor : Bool := false
  doorClosed : Bool := false
  motionCancel : Bool := false
  toolChange : Bool := false
  sleep : Bool := false
  deriving DecidableEq, Repr

structure Spindle where
  on : Bool
  rpm : ℚ
  deriving DecidableEq, Repr

def Spindle.off : Spindle := ⟨false, 0⟩

/-- The four parking motions: slow and fast retract, fast restore and slow plunge. -/
inductive ParkingMotion
  | pullOut | retract | restore | plunge
  deriving DecidableEq, Repr

/-- What the handlers read from outside the state machine. -/
structure Inputs where
  /-- `hal.control.get_state().safety_door_ajar` -/
  ajar : Bool
  /-- spindle and coolant of the current planner block -/
  block : Option (Spindle × ℕ)
  /-- spindle and coolant of the parser -/
  modalSpindle : Spindle
  modalCoolant : ℕ
  /-- `gc_state.tool_change` -/
  toolChange : Bool
  /-- `sys.override.control` -/
  feedHoldDisable : Bool
  sync : Bool
  parkingDisable : Bool
  /-- the parking axis is homed -/
  homed : Bool
  /-- position of the parking axis -/
  position : ℚ
  /-- `plan_buffer_line` accepts the motion -/
  planned : ParkingMotion → Bool

structure Settings where
  parkingEnabled : Bool
  parkingTarget : ℚ
  pulloutIncrement : ℚ
  /-- `cap.laser` of the spindle -/
  laser : Bool
  keepCoolantOn : Bool
  restoreAfterFeedHold : Bool
  /-- the delays after the spindle and the coolant have been switched on are not zero -/
  spindleDelay : Bool
  coolantDelay : Bool
  /-- the options of the spindle that make ramps of the delays -/
  rampUp : Bool
  rampDown : Bool
  /-- a ramp from a speed to another one has a delay between its steps -/
  rampWaits : ℚ → ℚ → Bool

structure ParkFlags where
  active : Bool := false
  motion : Bool := false
  restart : Bool := false
  restoring : Bool := false
  deriving DecidableEq, Repr

/-- A delay: in `spindle_ramp` to this spindle state, or after the spindle or the coolant has been
restored. -/
inductive Wait
  | ramp (s : Spindle)
  | spindle
  | coolant
  deriving DecidableEq, Repr

/-- What is left to do of the calls below: an activation that waits for the end of a delay; or the last
part of `state_await_resume`. -/
inductive Frame
  | hold (w : Wait)
  | restore (w : Wait)
  | restartCycle
  deriving DecidableEq, Repr

/-- What happens to the machine. -/
inductive Effect
  | spindleOn
  | parking (motion : ParkingMotion)
  | cycle
  deriving DecidableEq, Repr

structure Sys where
  sysState : SysState
  pendingState : SysState
  stateHandler : Handler
  /-- `sys.step_control.execute_sys_motion` -/
  executeSysMotion : Bool
  /-- `sys.flags` -/
  feedHoldPending : Bool
  softLimit : Bool
  isParking : Bool
  /-- `park`: the coordinates of the parking axis -/
  flags : ParkFlags
  restoreTarget : ℚ
  target : ℚ
  retractWaypoint : ℚ
  /-- `restore_condition` -/
  restoreSpindle : Spindle
  restoreCoolant : ℕ
  /-- outputs -/
  spindle : Spindle
  coolant : ℕ
  /-- the steppers are running; they will flag `EXEC_CYCLE_COMPLETE` -/
  stepping : Bool
  frames : List Frame
  log : List Effect

namespace Sys

variable (c : Settings) (i : Inputs)

/-! ## Outputs -/

/-- A spindle that is switched off has the speed 0. -/
def setSpindle (m : Sys) (s : Spindle) : Sys :=
  if s.on then { m with spindle := s, log := .spindleOn :: m.log } else { m with spindle := .off }

/-- `spindle_all_off`, with the coolant as the safety door settings say; a ramp down to the end is one
step -/
def deenergize (m : Sys) : Sys :=
  { m with
    spindle := .off
    coolant := if m.isParking ∨ m.sysState = .sleep ∨ !c.keepCoolantOn then 0 else m.coolant }

/-- `mc_parking_motion`, and whether there is a motion to wait for -/
def mcParkingMotion (m : Sys) (p : ParkingMotion) : Sys × Bool :=
  if i.planned p then
    ({ m with executeSysMotion := true, stepping := true, log := .parking p :: m.log }, true)
  else (m, false)

def enterSleep (m : Sys) : Sys :=
  { m with stepping := false, spindle := .off, coolant := 0, stateHandler := .noop }

/-! ## Retracting -/

/-- `state_await_resume` on `EXEC_CYCLE_COMPLETE` -/
def awaitResumeComplete (m : Sys) : Sys :=
  if c.parkingEnabled then
    let m := { m with executeSysMotion := false }
    if m.sysState = .sleep then m.enterSleep else m
  else m

/-- `state_await_waypoint_retract` on `EXEC_CYCLE_COMPLETE` -/
def awaitWaypointRetractComplete (m : Sys) : Sys :=
  let m := { m with
    executeSysMotion := false
    spindle := .off
    coolant := if c.keepCoolantOn then m.coolant else 0
    stateHandler := .awaitResume }
  if m.flags.motion ∧ m.target < c.parkingTarget then
    let (m, awaitMotion) := m.mcParkingMotion i .retract
    if awaitMotion then m else m.awaitResumeComplete c
  else m.awaitResumeComplete c

/-- `state_set(STATE_IDLE)` -/
def setIdle (m : Sys) : Sys :=
  if m.sysState = .idle then m
  else
    { m with
      executeSysMotion := false
      sysState := .idle
      pendingState := if m.feedHoldPending then .hold else .idle
      flags := {}
      stateHandler := .idle }

/-- The end of `state_await_hold` unless a retract motion has been started. -/
def holdComplete (m : Sys) : Sys :=
  if m.softLimit then m.setIdle else { m with stateHandler := .awaitResume }

/-- Target and waypoint of the slow retract motion; the target stays when the retract is restarted. -/
def setRetract (m : Sys) : Sys :=
  if m.flags.restart then
    { m with stateHandler := .awaitWaypointRetract, target := i.position }
  else
    { m with
      stateHandler := .awaitWaypointRetract
      target := m.restoreTarget
      retractWaypoint := min (c.pulloutIncrement + m.restoreTarget) c.parkingTarget }

/-- The slow retract motion, and whether there is one to wait for. -/
def pullOut (m : Sys) : Sys × Bool :=
  if m.target < m.retractWaypoint then
    { m with target := m.retractWaypoint }.mcParkingMotion i .pullOut
  else (m, false)

def startRetract (m : Sys) : Sys :=
  let (m, awaitMotion) := (m.setRetract c i).pullOut i
  let m := if m.flags.restart then m else { m with flags := { m.flags with motion := awaitMotion } }
  if awaitMotion then m else m.awaitWaypointRetractComplete c i

/-- No parking motion is possible. -/
def stayParked (m : Sys) : Sys := { m.deenergize c with isParking := false }.holdComplete

/-- The restore location is stored once. -/
def activate (m : Sys) : Sys :=
  if m.flags.active then m
  else { m with flags := { m.flags with active := true }, restoreTarget := i.position }

/-- The parking manager of `state_await_hold`. -/
def park (m : Sys) : Sys :=
  if c.parkingEnabled ∧ !i.parkingDisable ∧ c.laser then
    let m := m.activate i
    if i.homed ∧ m.restoreTarget < c.parkingTarget then
      { m.startRetract c i with isParking := false }
    else m.stayParked c
  else m.stayParked c

/-- `state_await_hold` on `EXEC_CYCLE_COMPLETE` -/
def awaitHoldComplete (m : Sys) : Sys :=
  let m := { m with executeSysMotion := false }
  match m.sysState with
  | .toolChange => { m with spindle := .off, coolant := 0 }.holdComplete
  | .sleep | .safetyDoor => m.park c i
  | _ => m.holdComplete

/-! ## Changes of state -/

/-- `initiate_hold`, and whether the machine was in a cycle -/
def initiateHold (m : Sys) (new : SysState) : Sys × Bool :=
  ({ m with
    restoreSpindle := (i.block.map Prod.fst).getD i.modalSpindle
    restoreCoolant := (i.block.map Prod.snd).getD (i.modalCoolant ||| m.coolant)
    stateHandler := if m.sysState = .cycle ∨ m.sysState = .jog then .awaitHold else m.stateHandler
    flags := if new = .hold then m.flags else {}
    pendingState := if m.sysState = .jog then new else .idle }, m.sysState = .cycle)

/-- `state_set(STATE_CYCLE)` -/
def setCycle (m : Sys) : Sys :=
  if m.sysState = .idle ∧ i.block.isSome then
    { m with
      sysState := .cycle, stateHandler := .cycle, stepping := true, log := .cycle :: m.log }
  else m

/-- `state_set(STATE_HOLD)` -/
def setHold (m : Sys) : Sys :=
  if m.sysState = .hold then m
  else if !(m.sysState = .jog ∨ i.feedHoldDisable) ∨ m.pendingState = .hold ∧ m.feedHoldPending then
    let (m, inCycle) := m.initiateHold i .hold
    let m := if inCycle then m else { m with stateHandler := .awaitResume }
    { m with sysState := .hold, feedHoldPending := false }
  else if i.sync ∧ i.feedHoldDisable then { m with feedHoldPending := true }
  else m

/-- `state_set(STATE_TOOL_CHANGE)` -/
def setToolChange (m : Sys) : Sys :=
  if m.sysState = .toolChange then m
  else { m with sysState := .toolChange, stateHandler := .awaitToolchanged }

/-- `state_set(STATE_SAFETY_DOOR)` and `state_set(STATE_SLEEP)`; a cycle stop is simulated when the
machine is not in a cycle -/
def setParked (m : Sys) (new : SysState) : Sys :=
  let (m, inCycle) := m.initiateHold i new
  let m :=
    if inCycle then { m with sysState := new }
    else if m.pendingState ≠ new then { m with sysState := new }.awaitHoldComplete c i
    else m
  if m.sysState = .sleep ∧ m.stateHandler ≠ .awaitWaypointRetract then m.enterSleep else m

def setSafetyDoor (m : Sys) : Sys :=
  if m.sysState = .safetyDoor then m
  else if m.sysState = .alarm ∨ m.sysState = .estop ∨ m.sysState = .sleep ∨ m.sysState = .checkMode
    then m
  else m.setParked c i .safetyDoor

def setSleep (m : Sys) : Sys := if m.sysState = .sleep then m else m.setParked c i .sleep

/-- `state_set(STATE_JOG)` -/
def setJog (m : Sys) : Sys :=
  if m.sysState = .jog then m
  else
    { m with
      pendingState := if m.sysState = .toolChange then .toolChange else m.pendingState
      sysState := .jog
      stateHandler := .cycle }

/-- `state_set` to a state whose handler does nothing -/
def setNoop (m : Sys) (new : SysState) : Sys :=
  if m.sysState = new then m else { m with sysState := new, stateHandler := .noop }

def stateSet (m : Sys) (new : SysState) : Sys :=
  match new with
  | .idle => m.setIdle
  | .cycle => m.setCycle i
  | .jog => m.setJog
  | .toolChange => m.setToolChange
  | .hold => m.setHold i
  | .safetyDoor => m.setSafetyDoor c i
  | .sleep => m.setSleep c i
  | .alarm | .estop | .homing | .checkMode => m.setNoop new

/-! ## Resuming -/

/-- `state_await_restart_retract` on `EXEC_CYCLE_COMPLETE` -/
def awaitRestartRetractComplete (m : Sys) : Sys :=
  { m with executeSysMotion := false, stateHandler := .awaitHold }.awaitHoldComplete c i

def restartRetract (m : Sys) : Sys :=
  let m := { m with
    stateHandler := .awaitRestartRetract, flags := { m.flags with restart := true } }
  if m.executeSysMotion then m else m.awaitRestartRetractComplete c i

/-- `state_await_resumed` on `EXEC_CYCLE_COMPLETE` -/
def awaitResumedComplete (m : Sys) : Sys :=
  ({ m with flags := {}, executeSysMotion := false }.setIdle).setCycle i

/-- `spindle_ramp` up to its first delay, and the delay; a ramp upwards starts the spindle. -/
def spindleRamp (m : Sys) (s : Spindle) : Sys × Option Wait :=
  if c.rampWaits m.spindle.rpm (if s.on then s.rpm else 0) then
    (if s.on ∧ !m.spindle.on ∧ m.spindle.rpm < s.rpm then m.setSpindle { s with rpm := m.spindle.rpm }
      else m, some (.ramp s))
  else (m.setSpindle s, none)

/-- The end of `spindle_ramp`, which is given up when the safety door is opened again. Otherwise a
spindle that has been switched off meanwhile is switched on; after a ramp down it is then switched off. -/
def rampEnd (s : Spindle) (m : Sys) : Sys :=
  if c.parkingEnabled ∧ m.flags.restart then
    if s.on then { m with spindle := { m.spindle with rpm := s.rpm } } else m.setSpindle s
  else (if s.on ∨ m.spindle.on then m else m.setSpindle ⟨true, 0⟩).setSpindle s

/-- `state_spindle_restore`, and the delay it has to wait for -/
def spindleRestore (m : Sys) : Sys × Option Wait :=
  if c.laser then (m.setSpindle m.restoreSpindle, none)
  else if m.spindle = m.restoreSpindle then (m, none)
  else if (if m.restoreSpindle.on then c.rampUp else c.rampDown) then m.spindleRamp c m.restoreSpindle
  else (m.setSpindle m.restoreSpindle, if c.spindleDelay then some .spindle else none)

/-- `coolant_restore`, and whether it has to wait -/
def coolantRestore (m : Sys) : Sys × Bool :=
  if m.restoreCoolant = m.coolant then (m, false)
  else ({ m with coolant := m.restoreCoolant }, m.restoreCoolant ≠ 0 ∧ c.coolantDelay)

/-- The cycle is restarted at the end of `state_await_resume`. -/
def restartCycle (m : Sys) : Sys :=
  if m.sysState = .sleep ∨ m.sysState = .safetyDoor then m
  else { m.setIdle with executeSysMotion := m.executeSysMotion }.setCycle i

/-- What `state_restore` does when the conditions have been restored; `next` is the handler. -/
def restoreEnd (next : Sys → Sys) (m : Sys) : Sys :=
  let m := { m with flags := { m.flags with restoring := false } }
  if m.flags.restart then m.restartRetract c i
  else if m.flags.motion then
    let (m, awaitMotion) := m.mcParkingMotion i .plunge
    if awaitMotion then m else next m
  else next m

/-- The coolant part of `state_restore_conditions`. -/
def restoreCoolantPart (next : Sys → Sys) (m : Sys) : Sys :=
  let (m, wait) := if i.modalCoolant ≠ m.coolant then m.coolantRestore c else (m, false)
  if wait then { m with frames := .restore .coolant :: m.frames } else m.restoreEnd c i next

/-- `state_restore` on `EXEC_CYCLE_COMPLETE` -/
def restoreComplete (m : Sys) : Sys :=
  let m := { m with
    executeSysMotion := false
    flags := { m.flags with restart := false, restoring := true }
    stateHandler := .awaitResumed }
  match m.spindleRestore c with
  | (m, some w) => { m with frames := .restore w :: m.frames }
  | (m, none) => m.restoreCoolantPart c i (awaitResumedComplete i)

/-- The last part of `state_await_resume`, when nothing above it is left to do. -/
def unwind (m : Sys) : Sys :=
  match m.frames with
  | .restartCycle :: fs => { m with frames := fs }.restartCycle i
  | _ => m

/-! ## Handlers -/

def stateIdle (rt : RtExec) (m : Sys) : Sys :=
  let m := if rt.cycleStart then m.setCycle i else m
  let m := if rt.feedHold then m.setHold i else m
  let m := if rt.toolChange then m.setToolChange else m
  if rt.sleep then m.setSleep c i else m

def stateCycle (rt : RtExec) (m : Sys) : Sys :=
  if rt = { cycleStart := true } then m
  else
    let m := if rt.cycleComplete then if i.toolChange then m.setToolChange else m.setIdle else m
    let m := if rt.motionCancel then { m with stateHandler := .awaitMotionCancel } else m
    if rt.feedHold then m.setHold i else m

def stateAwaitToolchanged (rt : RtExec) (m : Sys) : Sys :=
  if rt.cycleStart then
    { m with pendingState := if i.toolChange then .toolChange else .idle }.setIdle.setCycle i
  else m

def awaitMotionCancelComplete (m : Sys) : Sys :=
  let m :=
    if m.sysState = .jog then { m with executeSysMotion := false, stepping := false } else m
  let m := m.stateSet c i m.pendingState
  if i.toolChange then m.setToolChange else m

def holdCoolantPart (m : Sys) : Sys :=
  let (m, wait) := if m.restoreCoolant ≠ m.coolant then m.coolantRestore c else (m, false)
  if wait then { m with frames := .hold .coolant :: m.frames } else m.restartCycle i

/-- `EXEC_CYCLE_START` at the end of a feed hold -/
def resumeHold (m : Sys) : Sys :=
  if !c.restoreAfterFeedHold then
    (if m.spindle.on then m else { m with spindle := .off }).restartCycle i
  else
    match if m.restoreSpindle.on ≠ m.spindle.on then m.spindleRestore c else (m, none) with
    | (m, some w) => { m with frames := .hold w :: m.frames }
    | (m, none) => m.holdCoolantPart c i

/-- `EXEC_CYCLE_START` in `STATE_SAFETY_DOOR` -/
def resumeDoor (m : Sys) : Sys :=
  if m.flags.restart ∨ !i.ajar then
    let m := { m with stateHandler := .restore }
    if m.flags.motion then
      let m := { m with flags := { m.flags with restart := false } }
      let (m, awaitMotion) :=
        if m.restoreTarget ≤ c.parkingTarget then m.mcParkingMotion i .restore else (m, false)
      if awaitMotion then m else m.restoreComplete c i
    else m.restoreComplete c i
  else m

def resume (m : Sys) : Sys :=
  match m.sysState with
  | .toolChange => m.restartCycle i
  | .sleep => m
  | .safetyDoor => ({ m with frames := .restartCycle :: m.frames }.resumeDoor c i).unwind i
  | _ => m.resumeHold c i

def stateAwaitResume (rt : RtExec) (m : Sys) : Sys :=
  let asleep := rt.cycleComplete ∧ c.parkingEnabled ∧ m.sysState = .sleep
  let m := if rt.cycleComplete then m.awaitResumeComplete c else m
  if asleep then m
  else
    let m := if rt.sleep then m.setSleep c i else m
    -- a safety door event changes the substate only
    if rt.safetyDoor then m
    else if rt.cycleStart then m.resume c i
    else m

def stateRestore (rt : RtExec) (m : Sys) : Sys :=
  if rt.safetyDoor then
    if m.flags.restoring then { m with flags := { m.flags with restart := true } }
    else m.restartRetract c i
  else if rt.cycleComplete then m.restoreComplete c i
  else m

def stateAwaitResumed (rt : RtExec) (m : Sys) : Sys :=
  if rt.safetyDoor then m.restartRetract c i
  else if rt.cycleComplete then m.awaitResumedComplete i
  else m

/-- `stateHandler(rt_exec)` -/
def dispatch (rt : RtExec) (m : Sys) : Sys :=
  match m.stateHandler with
  | .idle => m.stateIdle c i rt
  | .cycle => m.stateCycle i rt
  | .noop => m
  | .awaitToolchanged => m.stateAwaitToolchanged i rt
  | .awaitMotionCancel => if rt.cycleComplete then m.awaitMotionCancelComplete c i else m
  | .awaitHold => if rt.cycleComplete then m.awaitHoldComplete c i else m
  | .awaitResume => m.stateAwaitResume c i rt
  | .awaitRestartRetract => if rt.cycleComplete then m.awaitRestartRetractComplete c i else m
  | .awaitWaypointRetract => if rt.cycleComplete then m.awaitWaypointRetractComplete c i else m
  | .restore => m.stateRestore c i rt
  | .awaitResumed => m.stateAwaitResumed c i rt

def stateUpdate (rt : RtExec) (m : Sys) : Sys :=
  let m := if rt.safetyDoor then m.setSafetyDoor c i else m
  m.dispatch c i rt

/-- The end of the delay an activation is waiting for. -/
def delayEnd (f : Frame) (m : Sys) : Sys :=
  let next := dispatch c i { cycleComplete := true }
  match f with
  | .hold (.ramp s) => (m.rampEnd c s).holdCoolantPart c i
  | .hold .spindle => m.holdCoolantPart c i
  | .hold .coolant => m.restartCycle i
  | .restore (.ramp s) => ((m.rampEnd c s).restoreCoolantPart c i next).unwind i
  | .restore .spindle => (m.restoreCoolantPart c i next).unwind i
  | .restore .coolant => (m.restoreEnd c i next).unwind i
  | .restartCycle => m.restartCycle i

end Sys

/-! ## Events -/

inductive StateEvent
  | exec (rt : RtExec) (i : Inputs)
  | delayEnd (i : Inputs)

/-- One event; the end of a motion is only flagged when the steppers are running. -/
def stateStep (c : Settings) (m : Sys) : StateEvent → Option Sys
  | .exec rt i =>
      if rt.cycleComplete ∧ !m.stepping then none
      else some ({ m with stepping := m.stepping && !rt.cycleComplete }.stateUpdate c i rt)
  | .delayEnd i =>
      match m.frames with
      | [] => none
      | f :: fs => some ({ m with frames := fs }.delayEnd c i f)

end Grbl
