import Mathlib
import Grbl.GCode.Types
import Grbl.Numbers.Ftoa

/-!
# The words of a block

`gc_execute_block`, step 2: the words of the block are imported, in a build without expressions. Conversions out of range saturate.

* `Status`, `Stop` : how the import ends before the end of the block; `Scratch` : the variables that outlive a word;
* `Update`, `Update.group`, `Update.apply` : what a command writes, and its modal group;
* `Command`, `gCommand`, `gMacro`, `mCommand` : the cases of the switches;
* `assign` : the letters that assign a value; `importWord`, `importLine`.
-/

namespace Grbl.GCode
open Function Numbers

inductive Status
  | expectedCommandLetter | badNumberFormat | negativeValue | settingReadFail | gcodeUnsupportedCommand | gcodeModalGroupViolation
  | gcodeUndefinedFeedRate | gcodeCommandValueNotInteger | gcodeAxisCommandConflict | gcodeWordRepeated | gcodeNoAxisWords
  | gcodeValueWordMissing | gcodeUnsupportedCoordSys | gcodeG53InvalidMotionMode | gcodeAxisWordsExist | gcodeUnusedWords
  | gcodeG43DynamicAxisError | gcodeIllegalToolTableEntry | gCodeCoordSystemLocked
  deriving DecidableEq, Repr

/-- Either an error, or `Status_OK` after a macro of the file has been found, the block being left there. -/
inductive Stop
  | status (s : Status)
  | macroFound (id : ℕ)
  deriving DecidableEq, Repr

/-- `int_value`, `mantissa` and `user_mcode`, which a word without a value finds as the word before has left them. -/
structure Scratch where
  intValue : ℕ := 0
  mantissa : ℕ := 0
  userMCode : UserMCodeType := .unsupported
  deriving DecidableEq, Repr

/-- `(int32_t)truncf(value)` -/
def toInt32 (value : Option ℚ) : ℤ :=
  match value with
  | some v => max (-2 ^ 31) (min (v.num.tdiv v.den) (2 ^ 31 - 1))
  | none => 0

/-! ## Commands -/

/-- What a command writes in the block. -/
inductive Update
  | nonModal (c : NonModal)
  | motion (m : MotionMode) (canned : Bool)
  | plane (p : PlaneSelect)
  | distance (incremental : Bool)
  | arcDistance
  | feedMode (m : FeedMode)
  | units (imperial : Bool)
  | cutterComp
  | toolOffset (m : ToolOffsetMode)
  | retract (m : RetractMode)
  | scaling (active : Bool)
  | coordSystem (id : CoordSystemId)
  | control
  | rpmMode (m : SpindleSpeedMode)
  | diameter (active : Bool)
  | subprogram
  | programFlow (flow : Option ProgramFlow)
  | port (c : IoMCode)
  | tool (a : ToolAction)
  | spindle (s : SpindleState)
  | coolant (mist flood : Bool)
  | overrideControl (m : OverrideMode)
  | state (a : ModalStateAction)
  | nothing
  | user (code : ℕ)
  deriving DecidableEq, Repr

/-- `word_bit.modal_group`; no bit is set for M70 to M73, and for an M6 that is ignored. -/
def Update.group : Update → Option Group
  | nonModal _ => some .g0
  | motion .. => some .g1
  | plane _ => some .g2
  | distance _ => some .g3
  | arcDistance => some .g4
  | feedMode _ => some .g5
  | units _ => some .g6
  | cutterComp => some .g7
  | toolOffset _ => some .g8
  | retract _ => some .g10
  | scaling _ => some .g11
  | coordSystem _ => some .g12
  | control => some .g13
  | rpmMode _ => some .g14
  | diameter _ => some .g15
  | subprogram => some .g16
  | programFlow _ => some .m4
  | port _ => some .m5
  | tool _ => some .m6
  | spindle _ => some .m7
  | coolant .. => some .m8
  | overrideControl _ => some .m9
  | state _ | nothing => none
  | user _ => some .m10

/-- The assignments of the cases of the switches, in `gc_block` and in the local variables. -/
def Update.apply (env : Env) : Update → Block → Block
  | nonModal c, b => { b with nonModalCommand := c }
  | motion m canned, b =>
      { b with
        modal.motion := m
        modal.cannedCycleActive := canned
        cannedCycleChange := if canned then m ≠ env.motion else b.cannedCycleChange }
  | plane p, b => { b with modal.planeSelect := p }
  | distance incremental, b => { b with modal.distanceIncremental := incremental }
  | arcDistance, b | cutterComp, b | control, b | nothing, b => b
  | feedMode m, b => { b with modal.feedMode := m }
  | units imperial, b => { b with modal.unitsImperial := imperial }
  | toolOffset m, b => { b with modal.toolOffsetMode := m }
  | retract m, b => { b with modal.retractMode := m }
  | scaling active, b => { b with modal.scalingActive := active }
  | coordSystem id, b => { b with modal.g5xOffset := id }
  | rpmMode m, b => { b with rpmMode := m }
  | diameter active, b => { b with modal.diameterMode := active }
  | subprogram, b => { b with macroCall := .nonModal98 }
  | programFlow flow, b => { b with modal.programFlow := flow.getD b.modal.programFlow }
  | port c, b => { b with portCommand := c }
  | tool a, b => { b with toolAction := a }
  | spindle s, b => { b with spindleState := s }
  | coolant mist flood, b =>
      { b with
        setCoolant := true
        modal.coolant := if mist ∨ flood then ⟨b.modal.coolant.mist || mist, b.modal.coolant.flood || flood⟩ else {} }
  | overrideControl m, b => { b with overrideCommand := m }
  | state a, b => { b with stateAction := a }
  | user code, b => { b with userMCode := code }

/-- `command_words.mask |= word_bit.modal_group.mask` -/
def Block.addGroup (b : Block) (g : Option Group) : Block := { b with commandWords := g.toFinset ∪ b.commandWords }

/-- The end of both switches: one command of a modal group. -/
def addCommand (env : Env) (b : Block) (u : Update) : Except Stop Block :=
  if ∀ g ∈ u.group, g ∉ b.commandWords then .ok ((u.apply env b).addGroup u.group)
  else .error (.status .gcodeModalGroupViolation)

/-- A case of the switch of `G`: the axis command that it claims comes before everything else, and `mantissa` is what is left of it
in the end. -/
structure Command where
  claim : AxisCommand := .none
  update : Except Status Update
  mantissa : ℕ := 0

/-- `if (axis_command) RETURN(Status_GcodeAxisCommandConflict)`; G50 and G51 do not check. -/
def AxisCommand.refused (claim : AxisCommand) (b : Block) : Bool := claim ≠ none && claim ≠ scaling && b.axisCommand ≠ none

/-- `axis_command`, once it has been claimed. -/
def AxisCommand.claimed (claim : AxisCommand) (b : Block) : Block := if claim = none then b else { b with axisCommand := claim }

def Command.run (c : Command) (env : Env) (b : Block) : Except Stop Block :=
  if c.claim.refused b then .error (.status .gcodeAxisCommandConflict)
  else match c.update with
    | .error s => .error (.status s)
    | .ok u =>
        if 0 < c.mantissa then .error (.status .gcodeCommandValueNotInteger)
        else addCommand env (c.claim.claimed b) u

/-! ## G -/

def motionCommand (m : MotionMode) (canned : Bool) (mantissa : ℕ) : Command :=
  { claim := .motionMode, update := .ok (.motion m canned), mantissa }

/-- A case that does not claim `axis_command`, and leaves the mantissa. -/
def plainCommand (u : Update) (mantissa : ℕ) : Command := { update := .ok u, mantissa }

def refuse (s : Status) : Command := { update := .error s }

/-- The switch of `G` but G65, G66 and G67. `int_value` of G38 is not used again: no word without a value follows. -/
def gCommand (env : Env) (intValue mantissa : ℕ) : Command :=
  match intValue with
  | 7 | 8 => if env.lathe then plainCommand (.diameter (intValue = 7)) mantissa else refuse .gcodeUnsupportedCommand
  | 10 =>
      { claim := if mantissa = 0 then .nonModal else .none
        update := .ok (.nonModal .settings)
        mantissa }
  | 28 | 30 =>
      { claim := if mantissa = 0 then .nonModal else .none
        update :=
          if mantissa = 0 then .ok (.nonModal (if intValue = 28 then .goHome0 else .goHome1))
          else if mantissa = 10 then .ok (.nonModal (if intValue = 28 then .setHome0 else .setHome1))
          else .error .gcodeUnsupportedCommand }
  | 92 =>
      { claim := if mantissa = 0 then .nonModal else .none
        update :=
          match mantissa with
          | 0 => .ok (.nonModal .setCoordinateOffset)
          | 10 => .ok (.nonModal .resetCoordinateOffset)
          | 20 => .ok (.nonModal .clearCoordinateOffset)
          | 30 => .ok (.nonModal .restoreCoordinateOffset)
          | _ => .error .gcodeUnsupportedCommand }
  | 4 => plainCommand (.nonModal .dwell) mantissa
  | 53 => plainCommand (.nonModal .absoluteOverride) mantissa
  | 33 => if mantissa ≠ 0 then refuse .gcodeUnsupportedCommand else motionCommand .spindleSynchronized false 0
  | 76 => if mantissa ≠ 0 then refuse .gcodeUnsupportedCommand else motionCommand .threading false 0
  | 38 =>
      if !env.probeGetState then refuse .gcodeUnsupportedCommand
      else match mantissa with
        | 20 => motionCommand .probeToward false 0
        | 30 => motionCommand .probeTowardNoError false 0
        | 40 => motionCommand .probeAway false 0
        | 50 => motionCommand .probeAwayNoError false 0
        | _ => refuse .gcodeUnsupportedCommand
  | 0 => motionCommand .seek false mantissa
  | 1 => motionCommand .linear false mantissa
  | 2 => motionCommand .cwArc false mantissa
  | 3 => motionCommand .ccwArc false mantissa
  | 5 =>
      match mantissa with
      | 0 => motionCommand .cubicSpline false 0
      | 10 => motionCommand .quadraticSpline false 0
      | _ => { claim := .motionMode, update := .error .gcodeUnsupportedCommand }
  | 80 => plainCommand (.motion .none false) mantissa
  | 73 => motionCommand .drillChipBreak true mantissa
  | 81 => motionCommand .cannedCycle81 true mantissa
  | 82 => motionCommand .cannedCycle82 true mantissa
  | 83 => motionCommand .cannedCycle83 true mantissa
  | 84 => motionCommand .cannedCycle84 true mantissa
  | 85 => motionCommand .cannedCycle85 true mantissa
  | 86 => motionCommand .cannedCycle86 true mantissa
  | 89 => motionCommand .cannedCycle89 true mantissa
  | 17 => plainCommand (.plane .xy) mantissa
  | 18 => plainCommand (.plane .zx) mantissa
  | 19 => plainCommand (.plane .yz) mantissa
  | 90 | 91 =>
      if mantissa = 0 then plainCommand (.distance (intValue = 91)) 0
      else if mantissa ≠ 10 ∨ intValue = 90 then refuse .gcodeUnsupportedCommand
      else plainCommand .arcDistance 0
  | 93 => plainCommand (.feedMode .inverseTime) mantissa
  | 94 => plainCommand (.feedMode .unitsPerMin) mantissa
  | 95 => plainCommand (.feedMode .unitsPerRev) mantissa
  | 20 | 21 => plainCommand (.units (intValue = 20)) mantissa
  | 40 => plainCommand .cutterComp mantissa
  | 49 => plainCommand (.toolOffset .cancel) 0
  | 43 =>
      if mantissa = 0 ∧ env.nTools ≠ 0 then plainCommand (.toolOffset .enable) 0
      else if mantissa = 20 ∧ env.nTools ≠ 0 then plainCommand (.toolOffset .applyAdditional) 0
      else if mantissa = 10 then { claim := .toolLengthOffset, update := .ok (.toolOffset .enableDynamic) }
      else refuse .gcodeUnsupportedCommand
  | 54 => plainCommand (.coordSystem .g54) mantissa
  | 55 => plainCommand (.coordSystem .g55) mantissa
  | 56 => plainCommand (.coordSystem .g56) mantissa
  | 57 => plainCommand (.coordSystem .g57) mantissa
  | 58 => plainCommand (.coordSystem .g58) mantissa
  | 59 =>
      match mantissa with
      | 0 => plainCommand (.coordSystem .g59) 0
      | 10 => plainCommand (.coordSystem .g59_1) 0
      | 20 => plainCommand (.coordSystem .g59_2) 0
      | 30 => plainCommand (.coordSystem .g59_3) 0
      | _ => refuse .gcodeUnsupportedCommand
  | 61 => if mantissa ≠ 0 then refuse .gcodeUnsupportedCommand else plainCommand .control 0
  | 96 | 97 =>
      if env.lathe then plainCommand (.rpmMode (if intValue = 96 then .css else .rpm)) mantissa
      else refuse .gcodeUnsupportedCommand
  | 98 => plainCommand (.retract .previous) mantissa
  | 99 => plainCommand (.retract .rPos) mantissa
  | 50 | 51 => { claim := .scaling, update := .ok (.scaling (intValue = 51)), mantissa }
  | _ => refuse .gcodeUnsupportedCommand

/-- The groups of M-codes, `m_groups`. -/
def mGroups : Finset Group := {.m4, .m5, .m6, .m7, .m8, .m9, .m10}

def MacroCall.ofCode : ℕ → MacroCall
  | 65 => nonModal
  | 66 => modal
  | 166 => modal1
  | code => other code

/-- G65, G66 and G67: an M-code before a macro call is an argument. -/
def gMacro (env : Env) (intValue mantissa : ℕ) (b : Block) : Except Stop Block :=
  if intValue = 67 then
    if !env.onMacroExecute then .error (.status .gcodeUnsupportedCommand)
    else if 0 < mantissa then .error (.status .gcodeCommandValueNotInteger)
    else if .g16 ∈ b.commandWords ∧ env.g66Args then .ok { b with macroCall := .none }
    else if .g16 ∈ b.commandWords then .error (.status .gcodeModalGroupViolation)
    else .ok ({ b with macroCall := .none }.addGroup (some .g16))
  else
    let b := if (b.commandWords ∩ mGroups).Nonempty then
        { b with words := insert .m b.words, commandWords := b.commandWords \ mGroups }
      else b
    if env.onMacroExecute ∧ mantissa ≤ (if intValue = 66 then 10 else 0) then
      if .g16 ∈ b.commandWords then .error (.status .gcodeModalGroupViolation)
      else .ok ({ b with macroCall := .ofCode (intValue + mantissa * 10) }.addGroup (some .g16))
    else .error (.status .gcodeUnsupportedCommand)

/-! ## M -/

/-- M62 to M68 -/
def portCommand (supported : Bool) (c : IoMCode) : Except Status Update :=
  if supported then .ok (.port c) else .error .gcodeUnsupportedCommand

/-- The switch of `M`, but for user M-codes. -/
def mCommand (env : Env) (intValue : ℕ) : Option (Except Status Update) :=
  match intValue with
  | 0 => some (.ok (.programFlow (some .paused)))
  | 1 =>
      let active := if env.stopDisableCap then !env.stopDisable else !env.optionalStopDisable
      some (.ok (.programFlow (if active then some .optionalStop else none)))
  | 2 => some (.ok (.programFlow (some .completedM2)))
  | 30 => some (.ok (.programFlow (some .completedM30)))
  | 60 => some (.ok (.programFlow (some .completedM60)))
  | 3 => some (.ok (.spindle ⟨true, false⟩))
  | 4 => some (.ok (.spindle ⟨true, true⟩))
  | 5 => some (.ok (.spindle ⟨false, false⟩))
  | 6 =>
      if env.atcState = .none ∧ env.toolChangeIgnore then some (.ok .nothing)
      else if if env.atcState = .none then env.suspendRead else env.atcState = .online ∧ env.toolChange then
        some (.ok (.tool .change))
      else some (.error .gcodeUnsupportedCommand)
  | 7 => some (if env.mistCap then .ok (.coolant true false) else .error .gcodeUnsupportedCommand)
  | 8 => some (.ok (.coolant false true))
  | 9 => some (.ok (.coolant false false))
  | 56 => some (if env.overrideControl then .ok (.overrideControl .parking) else .error .gcodeUnsupportedCommand)
  | 48 => some (.ok (.overrideControl .feedSpeedEnable))
  | 49 => some (.ok (.overrideControl .feedSpeedDisable))
  | 50 => some (.ok (.overrideControl .feedRate))
  | 51 => some (.ok (.overrideControl .spindleSpeed))
  | 53 => some (.ok (.overrideControl .feedHold))
  | 61 => some (.ok (.tool .set))
  | 62 => some (portCommand (env.canDigitalOut && env.unclaimedDigitalOut ≠ 0) .outputOnSynced)
  | 63 => some (portCommand (env.canDigitalOut && env.unclaimedDigitalOut ≠ 0) .outputOffSynced)
  | 64 => some (portCommand (env.canDigitalOut && env.unclaimedDigitalOut ≠ 0) .outputOnImmediate)
  | 65 => some (portCommand (env.canDigitalOut && env.unclaimedDigitalOut ≠ 0) .outputOffImmediate)
  | 66 =>
      some (portCommand (env.canWaitOnInput && (env.unclaimedDigitalIn ≠ 0 || env.unclaimedAnalogIn ≠ 0)) .waitOnInput)
  | 67 => some (portCommand (env.canAnalogOut && env.unclaimedAnalogOut ≠ 0) .analogOutSynced)
  | 68 => some (portCommand (env.canAnalogOut && env.unclaimedAnalogOut ≠ 0) .analogOutImmediate)
  | 70 => some (.ok (.state .save))
  | 71 => some (.ok (.state .invalidate))
  | 72 => some (.ok (.state .restore))
  | 73 => some (.ok (.state .saveAutoRestore))
  | 98 => some (if env.onMacroExecute then .ok .subprogram else .error .gcodeUnsupportedCommand)
  | 99 => some (if env.streamFile || env.onMacroReturn then .ok (.programFlow (some .return)) else .error .gcodeUnsupportedCommand)
  | _ => none

/-- The number of a user M-code. -/
def userMCode (intValue mantissa : ℕ) : ℕ := if mantissa = 0 then intValue else (intValue * 100 + mantissa) % 2 ^ 32

/-- `gc_block.macro_call` is a call that takes an M word as its argument. -/
def MacroCall.takesM (c : MacroCall) : Bool := c = nonModal ∨ c = modal ∨ c = modal1

/-! ## Words -/

/-- The letters that stand for an axis of the build. -/
def Letter.axis : Letter → Option Axis
  | x => some .x
  | y => some .y
  | z => some .z
  | a => some .a
  | _ => none

/-- `word_bit.parameter`, and the bits of the axes and of `I`, `J` and `K`. -/
def Block.addWord (b : Block) (letter : Letter) : Block :=
  { b with
    words := insert letter b.words
    axisWords := letter.axis.toFinset ∪ b.axisWords
    ijkWords := if letter = .i ∨ letter = .j ∨ letter = .k then insert letter b.ijkWords else b.ijkWords }

/-- `gc_block.values`; `L` without a value is all ones. -/
def Block.setValue (b : Block) (letter : Letter) (value : Option ℚ) (intValue : ℕ) : Block :=
  match letter with
  | .l => { b with l := if value = none then 0xFF else intValue % 2 ^ 8 }
  | .n => { b with n := toInt32 value }
  | .o => { b with o := intValue }
  | .dollar => { b with spindleId := toInt32 value }
  | _ => { b with values := update b.values letter value }

def Letter.integer (letter : Letter) : Bool := letter = .l ∨ letter = .o ∨ letter = .dollar

/-- `uint_words` -/
def Letter.unsigned (letter : Letter) : Bool := letter = .l ∨ letter = .n ∨ letter = .o

def assign (env : Env) (b : Block) (letter : Letter) (value : Option ℚ) (s : Scratch) : Except Stop Block :=
  if letter.integer ∧ 0 < s.mantissa then .error (.status .gcodeCommandValueNotInteger)
  else if letter = .o ∧ env.macroPrescan ∧ env.macroFind s.intValue then .error (.macroFound s.intValue)
  else if letter ∈ b.words then .error (.status .gcodeWordRepeated)
  else if letter.unsigned ∧ ∃ v ∈ value, v < 0 then .error (.status .negativeValue)
  else .ok ((b.setValue letter value s.intValue).addWord letter)

/-- `(uint_fast16_t)roundf(100.0f * (value - int_value))` -/
def mantissaOf (v : ℚ) : ℕ := toUint32 (100 * (v - toUint32 v) + 1 / 2)

def Scratch.split (s : Scratch) (value : Option ℚ) : Scratch :=
  match value with
  | some v => { s with intValue := toUint32 v, mantissa := mantissaOf v }
  | none => s

/-- A `G` word. -/
def importG (env : Env) (s : Scratch) (b : Block) : Except Stop (Scratch × Block) :=
  let r := if 65 ≤ s.intValue ∧ s.intValue ≤ 67 then gMacro env s.intValue s.mantissa b
    else (gCommand env s.intValue s.mantissa).run env b
  r.map ({ s with mantissa := 0, userMCode := .unsupported }, ·)

/-- An `M` word. -/
def importM (env : Env) (s : Scratch) (b : Block) : Except Stop (Scratch × Block) :=
  if b.macroCall.takesM then
    if .m ∈ b.words then .error (.status .gcodeWordRepeated) else .ok (s, { b with words := insert .m b.words })
  else if s.intValue ≤ 99 ∧ 0 < s.mantissa then .error (.status .gcodeCommandValueNotInteger)
  else match mCommand env s.intValue with
    | some (.ok u) => (addCommand env b u).map ({ s with userMCode := .unsupported }, ·)
    | some (.error status) => .error (.status status)
    | none =>
        match env.userMCodeCheck (userMCode s.intValue s.mantissa) with
        | .unsupported => .error (.status .gcodeUnsupportedCommand)
        | check => (addCommand env b (.user (userMCode s.intValue s.mantissa))).map ({ s with userMCode := check }, ·)

def importWord (env : Env) (letter : Letter) (value : Option ℚ) (s : Scratch) (b : Block) : Except Stop (Scratch × Block) :=
  let s := s.split value
  let b := if env.modal1 then { b with macroCall := .modal1 }.addGroup (some .g16) else b
  match letter with
  | .g => importG env s b
  | .m => importM env s { b with values := update b.values .m value }
  | letter => (assign env b letter value s).map (s, ·)

def letterOf : Char → Option Letter
  | '$' => some .dollar
  | 'A' => some .a
  | 'B' => some .b
  | 'C' => some .c
  | 'D' => some .d
  | 'E' => some .e
  | 'F' => some .f
  | 'G' => some .g
  | 'H' => some .h
  | 'I' => some .i
  | 'J' => some .j
  | 'K' => some .k
  | 'L' => some .l
  | 'M' => some .m
  | 'N' => some .n
  | 'O' => some .o
  | 'P' => some .p
  | 'Q' => some .q
  | 'R' => some .r
  | 'S' => some .s
  | 'T' => some .t
  | 'U' => some .u
  | 'V' => some .v
  | 'W' => some .w
  | 'X' => some .x
  | 'Y' => some .y
  | 'Z' => some .z
  | _ => none

/-- `read_uint` for `O` and `read_float` for the other letters: the value, and where it ends. -/
def readValue (line : List Char) (pos : ℕ) (letter : Letter) (s : Scratch) : Except Stop (Option ℚ × Scratch × ℕ) :=
  if letter = .o then
    let r := readUint line pos s.intValue
    match r.status with
    | .ok => .ok (none, { s with intValue := r.value }, r.charCounter)
    | .badNumberFormat => .error (.status .badNumberFormat)
    | .negativeValue => .error (.status .negativeValue)
    | .gcodeCommandValueNotInteger => .error (.status .gcodeCommandValueNotInteger)
  else
    let r := readFloat line pos 0
    if r.ok then .ok (some r.value, s, r.charCounter)
    else if s.userMCode = .noValueWords then .ok (none, s, r.charCounter)
    else .error (.status .badNumberFormat)

/-- The loop over the words, from a position of the line; every turn is a letter further. -/
def importFrom (env : Env) (text : List Char) : ℕ → ℕ → Scratch → Block → Except Stop Block
  | 0, _, _, b => .ok b
  | turns + 1, pos, s, b =>
      match text[pos]? with
      | none => .ok b
      | some c =>
          match letterOf c with
          | none => .error (.status .expectedCommandLetter)
          | some letter =>
              match readValue text (pos + 1) letter s with
              | .error stop => .error stop
              | .ok (value, s, pos) =>
                  match importWord env letter value s b with
                  | .error stop => .error stop
                  | .ok (s, b) => importFrom env text turns pos s b

/-- The words of a line; those of a jog begin after `$J=`. -/
def importLine (env : Env) (line : List Char) (jog : Bool) (b : Block) : Except Stop Block :=
  importFrom env line (line.length + 1) (if jog then 3 else 0) {} b

end Grbl.GCode
