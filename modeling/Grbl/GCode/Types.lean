import Mathlib
import Grbl.Axis

/-!
# Blocks of the parser

`gcode.h`: the commands of the modal groups, and what the words of a block leave in `gc_block` and in the local variables of
`gc_execute_block`. Floats are exact, and `none` is `NAN`.

* `MotionMode`, `NonModal`, … : the commands; `Group` : the modal groups; `Letter` : the letters of words;
* `Modal` : `gc_modal_t`, as far as words write it; `Block` : `parser_block_t` with the bit fields that track the words;
* `Env` : the settings, the driver and the plugins, and `gc_state` as far as words read it.
-/

namespace Grbl.GCode

inductive MotionMode
  | seek | linear | cwArc | ccwArc | cubicSpline | quadraticSpline | spindleSynchronized | drillChipBreak | threading
  | cannedCycle81 | cannedCycle82 | cannedCycle83 | cannedCycle84 | cannedCycle85 | cannedCycle86 | cannedCycle89
  | probeToward | probeTowardNoError | probeAway | probeAwayNoError | none
  deriving DecidableEq, Repr

inductive NonModal
  | noAction | dwell | settings | goHome0 | setHome0 | goHome1 | setHome1 | absoluteOverride
  | setCoordinateOffset | resetCoordinateOffset | clearCoordinateOffset | restoreCoordinateOffset
  deriving DecidableEq, Repr

inductive AxisCommand
  | none | nonModal | motionMode | toolLengthOffset | scaling
  deriving DecidableEq, Repr

inductive PlaneSelect
  | xy | zx | yz
  deriving DecidableEq, Repr

inductive FeedMode
  | unitsPerMin | inverseTime | unitsPerRev
  deriving DecidableEq, Repr

inductive ToolOffsetMode
  | cancel | enable | enableDynamic | applyAdditional
  deriving DecidableEq, Repr

inductive RetractMode
  | previous | rPos
  deriving DecidableEq, Repr

inductive SpindleSpeedMode
  | rpm | css
  deriving DecidableEq, Repr

/-- The work coordinate systems. -/
inductive CoordSystemId
  | g54 | g55 | g56 | g57 | g58 | g59 | g59_1 | g59_2 | g59_3
  deriving DecidableEq, Repr

inductive ProgramFlow
  | running | paused | optionalStop | completedM2 | completedM30 | completedM60 | return
  deriving DecidableEq, Repr

inductive ToolAction
  | none | change | set
  deriving DecidableEq, Repr

/-- `macro_call_t`; `none` is `MacroCall_End`, and `other` are the numbers between G66 and G66.1 that are not refused. -/
inductive MacroCall
  | none | nonModal | modal | modal1 | nonModal98 | other (code : ℕ)
  deriving DecidableEq, Repr

inductive ModalStateAction
  | none | save | invalidate | restore | saveAutoRestore
  deriving DecidableEq, Repr

inductive OverrideMode
  | none | feedSpeedEnable | feedSpeedDisable | feedRate | spindleSpeed | feedHold | parking
  deriving DecidableEq, Repr

/-- `io_mcode_t`, M62 to M68 -/
inductive IoMCode
  | none | outputOnSynced | outputOffSynced | outputOnImmediate | outputOffImmediate | waitOnInput | analogOutSynced | analogOutImmediate
  deriving DecidableEq, Repr

inductive UserMCodeType
  | unsupported | normal | noValueWords
  deriving DecidableEq, Repr

inductive AtcStatus
  | none | offline | online
  deriving DecidableEq, Repr

/-- `modal_groups_t` -/
inductive Group
  | g0 | g1 | g2 | g3 | g4 | g5 | g6 | g7 | g8 | g10 | g11 | g12 | g13 | g14 | g15 | g16 | m4 | m5 | m6 | m7 | m8 | m9 | m10
  deriving DecidableEq, Repr

/-- The letters of words; the bits of `parameter_words_t` are those of all but `g`. -/
inductive Letter
  | dollar | a | b | c | d | e | f | g | h | i | j | k | l | m | n | o | p | q | r | s | t | u | v | w | x | y | z
  deriving DecidableEq, Repr

structure SpindleState where
  on : Bool := false
  ccw : Bool := false
  deriving DecidableEq, Repr

structure Coolant where
  mist : Bool := false
  flood : Bool := false
  deriving DecidableEq, Repr

/-- `gc_modal_t`, the groups that words of a block write. -/
structure Modal where
  motion : MotionMode := .seek
  cannedCycleActive : Bool := false
  planeSelect : PlaneSelect := .xy
  distanceIncremental : Bool := false
  feedMode : FeedMode := .unitsPerMin
  unitsImperial : Bool := false
  toolOffsetMode : ToolOffsetMode := .cancel
  retractMode : RetractMode := .previous
  scalingActive : Bool := false
  g5xOffset : CoordSystemId := .g54
  diameterMode : Bool := false
  programFlow : ProgramFlow := .running
  coolant : Coolant := {}
  deriving DecidableEq, Repr

/-- `gc_block`, and `axis_command`, `port_command`, `axis_words`, `ijk_words`, `command_words` and `gc_parser_flags`. -/
structure Block where
  modal : Modal := {}
  rpmMode : SpindleSpeedMode := .rpm
  spindleState : SpindleState := {}
  nonModalCommand : NonModal := .noAction
  toolAction : ToolAction := .none
  overrideCommand : OverrideMode := .none
  userMCode : ℕ := 0
  stateAction : ModalStateAction := .none
  macroCall : MacroCall := .none
  /-- `values`, the floats -/
  values : Letter → Option ℚ := fun _ => some 0
  spindleId : ℤ := 0
  n : ℤ := 0
  o : ℕ := 0
  l : ℕ := 0
  words : Finset Letter := ∅
  axisCommand : AxisCommand := .none
  portCommand : IoMCode := .none
  axisWords : Finset Axis := ∅
  ijkWords : Finset Letter := ∅
  commandWords : Finset Group := ∅
  setCoolant : Bool := false
  cannedCycleChange : Bool := false

/-- What does not change while the words are read. -/
structure Env where
  /-- `settings.mode == Mode_Lathe` -/
  lathe : Bool := false
  /-- `gc_state.modal.motion` -/
  motion : MotionMode := .seek
  /-- `gc_state.g66_args`: whether it is set, and whether it is of a G66.1 at this call level -/
  g66Args : Bool := false
  modal1 : Bool := false
  probeGetState : Bool := false
  /-- `grbl.tool_table.n_tools` -/
  nTools : ℕ := 0
  onMacroExecute : Bool := false
  onMacroReturn : Bool := false
  streamFile : Bool := false
  /-- `hal.signals_cap.stop_disable`, its state, and `sys.flags.optional_stop_disable` -/
  stopDisableCap : Bool := false
  stopDisable : Bool := false
  optionalStopDisable : Bool := false
  atcState : AtcStatus := .none
  /-- `settings.tool_change.mode == ToolChange_Ignore` -/
  toolChangeIgnore : Bool := false
  suspendRead : Bool := false
  toolChange : Bool := false
  mistCap : Bool := false
  /-- `settings.parking.flags.enable_override_control` -/
  overrideControl : Bool := false
  /-- `ioports_can_do()` and `ioports_unclaimed` -/
  canDigitalOut : Bool := false
  canWaitOnInput : Bool := false
  canAnalogOut : Bool := false
  unclaimedDigitalOut : ℕ := 0
  unclaimedDigitalIn : ℕ := 0
  unclaimedAnalogIn : ℕ := 0
  unclaimedAnalogOut : ℕ := 0
  userMCodeCheck : ℕ → UserMCodeType := fun _ => .unsupported
  /-- `hal.stream.state.m98_macro_prescan` and `macro_find` -/
  macroPrescan : Bool := false
  macroFind : ℕ → Bool := fun _ => false

end Grbl.GCode
