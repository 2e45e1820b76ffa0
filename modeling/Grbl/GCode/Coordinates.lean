import Grbl.GCode.Parser
import Grbl.Lib.Outcome

/-!
# Coordinates in a block

`gc_execute_block`, steps 3 and 4, as far as positions and offsets go: units, scaling, tool length offsets, coordinate systems, offsets
and targets. Blocks are those without jogs, macro calls, tools, ports, overrides, modal state actions and user M-codes; spindle and
coolant change nothing here.

* `Result` : an error, or a value, with the parser; `Checked` : the block while it is checked; `Modes` : the motion modes that
  are not written out, and the data they keep for later blocks;
* `checkFeedRate`, `checkDwell`, `convertUnits`, `checkScaling`, `scaleWords`, `checkToolOffset`, `selectCoordSystem`, `checkNonModal`,
  `checkMotion` : the parts of step 3; `checkBlock`;
* `executeModal`, `executeNonModal`, `executeMotion`, `programFlow` : the parts of step 4; `executeBlock`;
* `executeLine` : the block of a line.
-/

namespace Grbl.GCode
open Function Numbers Lib

/-- An error leaves what has been written before it. -/
abbrev Result (α : Type) := Outcome Status Parser α

def mmPerInch : ℚ := 127 / 5

def axisLetter : Axis → Letter
  | .x => .x
  | .y => .y
  | .z => .z
  | .a => .a

/-- `gc_block` and the local variables, while the block is checked. -/
structure Checked where
  block : Block
  /-- `gc_block.values.xyz`, `.f` and `.h` -/
  xyz : Coord
  f : ℚ
  h : ℚ
  /-- `gc_block.modal.g5x_offset.data` -/
  g5xData : Coord
  coordSystem : CoordId × Coord

namespace Checked
variable (c : Checked)

/-- A float of the block; there are none without a value. -/
def value (letter : Letter) : ℚ := (c.block.values letter).getD 0

/-- The words are not used any more. -/
def drop (letters : Finset Letter) : Checked := { c with block.words := c.block.words \ letters }

end Checked

/-- `axis_words_mask` -/
def axisLetters : Finset Letter := {.x, .y, .z, .a}

def Checked.start (b : Block) (p : Parser) : Checked where
  block := b
  xyz i := (b.values (axisLetter i)).getD 0
  f := (b.values .f).getD 0
  h := (b.values .h).getD 0
  g5xData := p.g5xData
  coordSystem := (.g28, 0)

/-- A target for `mc_line`, with `plan_data.offset_id`, `condition.rapid_motion` and `feed_rate`. -/
structure Move where
  target : Coord
  offsetId : Fin 4
  rapid : Bool
  feedRate : ℚ

/-- The motion modes that are not written out, and the spindle: whether their checks refuse the block, what they have written then or at
the end, and the words they use; whether a synchronized motion starts, the moves, and the position and the data after them. -/
structure Modes where
  refuses : Checked → Parser → Option Status
  checkedCycles : Checked → Parser → CycleData
  used : Checked → Parser → Finset Letter
  syncMotion : Checked → Parser → Option Status
  moves : Checked → Parser → List Move
  position : Checked → Parser → Coord
  executedCycles : Checked → Parser → CycleData

/-- A canned cycle, G5 or G76: the checks keep data for later blocks. -/
def Block.KeepsCycles (b : Block) : Prop := b.modal.cannedCycleActive ∨ b.modal.motion = .cubicSpline ∨ b.modal.motion = .threading

instance (b : Block) : Decidable b.KeepsCycles := inferInstanceAs (Decidable (_ ∨ _))

/-! ## Step 3 -/

def implicitMotion (c : Checked) : Checked :=
  if c.block.axisWords ≠ ∅ ∧ c.block.axisCommand = .none then { c with block.axisCommand := .motionMode } else c

def checkFeedRate (c : Checked) (p : Parser) : Result Checked :=
  let p := if c.block.modal.feedMode ≠ p.modal.feedMode then { p with feedRate := 0 } else p
  if .f ∈ c.block.words then
    if c.f < 0 then .error .negativeValue p
    else if c.block.modal.feedMode ≠ .inverseTime ∧ c.block.modal.unitsImperial then .ok { c with f := c.f * mmPerInch } p
    else .ok c p
  else if c.block.modal.feedMode = .inverseTime then
    if c.block.axisCommand = .motionMode ∧ c.block.modal.motion ≠ .none ∧ c.block.modal.motion ≠ .seek ∧
        c.block.modal.motion ≠ .spindleSynchronized then .error .gcodeUndefinedFeedRate p
    else .ok c p
  else .ok { c with f := p.feedRate } p

def checkDwell (c : Checked) (p : Parser) : Result Checked :=
  if c.block.nonModalCommand = .dwell then
    if .p ∉ c.block.words then .error .gcodeValueWordMissing p
    else if c.value .p < 0 then .error .negativeValue p
    else .ok (c.drop {.p}) p
  else .ok c p

/-- [12], the axis words in mm. -/
def convertUnits (settings : Settings) (c : Checked) : Checked :=
  let xyz : Coord := fun i =>
    if c.block.modal.unitsImperial ∧ i ∈ c.block.axisWords ∧ settings.isRotary i = false then c.xyz i * mmPerInch else c.xyz i
  { c with
    xyz := if c.block.modal.diameterMode ∧ .x ∈ c.block.axisWords then update xyz .x (xyz .x / 2) else xyz }

def scaleLetter : Axis → Option Letter
  | .x => some .i
  | .y => some .j
  | .z => some .k
  | .a => none

def scaleFactors (c : Checked) (p : Parser) : Coord := fun i =>
  match scaleLetter i with
  | some letter => if .p ∈ c.block.words then c.value .p else if letter ∈ c.block.ijkWords then c.value letter else p.scaleIjk i
  | none => p.scaleIjk i

/-- [12], G50 and G51. -/
def checkScaling (c : Checked) (p : Parser) : Result Checked :=
  if c.block.axisCommand = .scaling then
    if c.block.modal.scalingActive then
      if .p ∉ c.block.words ∧ c.block.ijkWords = ∅ then .error .gcodeNoAxisWords p
      else
        let scaleIjk := scaleFactors c p
        let active : Bool := scaleIjk .x ≠ 1 ∨ scaleIjk .y ≠ 1 ∨ scaleIjk .z ≠ 1
        let p := { p with
          scaleXyz := fun i => if i ∈ c.block.axisWords then c.xyz i else p.position i
          scaleIjk
          modal.scalingActive := active }
        let c := { c with block.modal.scalingActive := active }
        .ok (c.drop (axisLetters ∪ if .p ∈ c.block.words then {.p} else {.i, .j, .k})) p
    else .ok c (p.setScaling 1)
  else .ok c p

def scaleWords (c : Checked) (p : Parser) : Checked :=
  if p.modal.scalingActive then
    { c with
      xyz := fun i =>
        if i ∈ c.block.axisWords then
          if c.block.modal.distanceIncremental then c.xyz i * p.scaleIjk i
          else (c.xyz i - p.scaleXyz i) * p.scaleIjk i + p.scaleXyz i
        else c.xyz i }
  else c

def isIntf (v : ℚ) : Bool := |v - v.num.tdiv v.den| < 1 / 1000

def toolId (v : ℚ) : ℕ := (toInt32 (some v)).toNat

/-- `H`, at the start of step 3. -/
def checkH (c : Checked) (p : Parser) : Result Checked :=
  if .h ∈ c.block.words then
    if !isIntf c.h then .error .gcodeCommandValueNotInteger p else if c.h < 0 then .error .negativeValue p else .ok c p
  else .ok c p

/-- [14], the tool length offset; without a `T` word its value is `tool_pending`. -/
def checkToolOffset (settings : Settings) (c : Checked) (p : Parser) : Result Checked :=
  if .g8 ∉ c.block.commandWords then .ok c p
  else match c.block.modal.toolOffsetMode with
    | .cancel => .ok c p
    | .enableDynamic => if c.block.axisWords = ∅ then .error .gcodeG43DynamicAxisError p else .ok c p
    | .enable =>
        if settings.nTools = 0 then .error .gcodeUnsupportedCommand p
        else if .h ∈ c.block.words then
          let h := if c.h = 0 ∧ settings.randomToolchanger = false then (p.toolPending : ℚ) else c.h
          if p.toolOffset (toolId h) = none then .error .gcodeIllegalToolTableEntry p
          else .ok (({ c with h } : Checked).drop {.h}) p
        else .ok { c with h := p.tool } p
    | .applyAdditional =>
        if settings.nTools = 0 then .error .gcodeUnsupportedCommand p
        else if .h ∉ c.block.words then .error .gcodeValueWordMissing p
        else if c.h = 0 ∨ p.toolOffset (toolId c.h) = none then .error .gcodeIllegalToolTableEntry p
        else .ok (c.drop {.h}) p

/-- [15], the coordinate system, when it is another one. -/
def selectCoordSystem (c : Checked) (p : Parser) : Result Checked :=
  if .g12 ∈ c.block.commandWords then
    if c.block.modal.g5xOffset ≠ p.modal.g5xOffset then
      let (ok, g5xData, p) := p.readCoordData (.work c.block.modal.g5xOffset)
      if ok then .ok { c with g5xData } p else .error .settingReadFail p
    else .ok { c with block.commandWords := c.block.commandWords.erase .g12 } p
  else .ok c p

/-- `gc_get_block_offset` -/
def blockOffset (c : Checked) (p : Parser) : Coord := fun i => c.g5xData i + p.g92 i + p.toolLengthOffset i

/-- The coordinate system of a `P` value, which is converted to eight bits. -/
def coordSystemOf (active : CoordSystemId) : ℕ → Option CoordSystemId
  | 0 => some active
  | 1 => some .g54
  | 2 => some .g55
  | 3 => some .g56
  | 4 => some .g57
  | 5 => some .g58
  | 6 => some .g59
  | 7 => some .g59_1
  | 8 => some .g59_2
  | 9 => some .g59_3
  | _ => none

/-- G10 L2 and L20 -/
def checkSetCoordSystem (settings : Settings) (c : Checked) (p : Parser) : Result Checked :=
  if c.block.l = 2 ∧ .r ∈ c.block.words then .error .gcodeUnsupportedCommand p
  else match coordSystemOf c.block.modal.g5xOffset (toUint32 (c.value .p) % 2 ^ 8) with
    | none => .error .gcodeUnsupportedCoordSys p
    | some id =>
        let (ok, data, p) := p.readCoordData (.work id)
        if !ok then .error .settingReadFail p
        else if settings.locked (.work id) then .error .gCodeCoordSystemLocked p
        else
          -- L20: WPos = MPos - WCS - G92 - TLO
          let data : Coord := fun i =>
            if i ∈ c.block.axisWords then
              if c.block.l = 20 then p.position i - c.xyz i - p.g92 i - p.toolLengthOffset i else c.xyz i
            else data i
          .ok (({ c with coordSystem := (.work id, data) } : Checked).drop {.l, .p}) p

/-- The offset of a tool after a G10 L1, L10 or L11. -/
def toolOffsetOf (l : ℕ) (c : Checked) (p : Parser) (g59_3 offset : Coord) : Coord := fun i =>
  if i ∈ c.block.axisWords then
    if l = 1 then c.xyz i
    else if l = 10 then p.position i - p.g5xData i - p.g92 i - c.xyz i
    else g59_3 i - c.xyz i
  else if l = 1 then offset i
  else p.toolLengthOffset i

/-- G10 L1, L10 and L11, which write to the tool table at once. -/
def checkSetTool (settings : Settings) (c : Checked) (p : Parser) : Result Checked :=
  if settings.nTools = 0 then .error .gcodeUnsupportedCommand p
  else
    let tool := toUint32 (c.value .p) % 2 ^ 8
    match p.toolOffset tool with
    | none => .error .gcodeIllegalToolTableEntry p
    | some offset =>
        let (ok, g59_3, p) := if c.block.l = 11 then p.readCoordData (.work .g59_3) else (true, 0, p)
        if !ok then .error .settingReadFail p
        else
          let p := { p with toolOffset := update p.toolOffset tool (some (toolOffsetOf c.block.l c p g59_3 offset)) }
          .ok (c.drop {.l, .p, .r}) p

/-- G10; without an `L` word it is L0, which the core does not support. -/
def checkSettings (settings : Settings) (c : Checked) (p : Parser) : Result Checked :=
  if c.block.l = 0 then .error .gcodeUnsupportedCommand p
  else if c.block.axisWords = ∅ ∧ (c.block.l = 20 ∨ .r ∉ c.block.words) then .error .gcodeNoAxisWords p
  else if c.value .p < 0 then .error .negativeValue p
  else if c.block.l = 2 ∨ c.block.l = 20 then checkSetCoordSystem settings c p
  else if c.block.l = 1 ∨ c.block.l = 10 ∨ c.block.l = 11 then checkSetTool settings c p
  else .error .gcodeUnsupportedCommand p

/-- The target in machine coordinates. -/
def target (c : Checked) (p : Parser) : Coord := fun i =>
  if i ∉ c.block.axisWords then p.position i
  else if c.block.nonModalCommand = .absoluteOverride then c.xyz i
  else if c.block.modal.distanceIncremental then c.xyz i + p.position i
  else c.xyz i + blockOffset c p i

/-- The axis words are the target, unless they are a tool length offset; an arc may have none. -/
def withTarget (c : Checked) (p : Parser) : Checked :=
  if (c.block.axisWords ≠ ∅ ∨ c.block.modal.motion = .cwArc ∨ c.block.modal.motion = .ccwArc) ∧
      c.block.axisCommand ≠ .toolLengthOffset then { c with xyz := target c p } else c

/-- G28 and G30: without axis words there is no intermediate motion. -/
def checkGoHome (id : CoordId) (c : Checked) (p : Parser) : Result Checked :=
  let (ok, data, p) := p.readCoordData id
  if !ok then .error .settingReadFail p
  else if c.block.axisWords ≠ ∅ then
    .ok { c with coordSystem := (id, fun i => if i ∈ c.block.axisWords then data i else p.position i) } p
  else .ok { c with coordSystem := (id, data), block.axisCommand := .none } p

/-- [19], the commands that are not modal, and the target. -/
def checkNonModal (settings : Settings) (c : Checked) (p : Parser) : Result Checked :=
  match c.block.nonModalCommand with
  | .settings => checkSettings settings c p
  | .setCoordinateOffset =>
      if c.block.axisWords = ∅ then .error .gcodeNoAxisWords p
      else .ok { c with xyz := fun i =>
        -- WPos = MPos - WCS - G92 - TLO
        if i ∈ c.block.axisWords then p.position i - c.g5xData i - c.xyz i - p.toolLengthOffset i else p.g92 i } p
  | command =>
      let c := withTarget c p
      match command with
      | .goHome0 => checkGoHome .g28 c p
      | .goHome1 => checkGoHome .g30 c p
      | .absoluteOverride =>
          if c.block.modal.motion = .seek ∨ c.block.modal.motion = .linear then .ok c p else .error .gcodeG53InvalidMotionMode p
      | _ => .ok c p

def checkMotion (modes : Modes) (c : Checked) (p : Parser) : Result Checked :=
  if c.block.modal.motion = .none then
    if c.block.axisWords ≠ ∅ ∧ c.block.axisCommand ≠ .nonModal then .error .gcodeAxisWordsExist p
    else .ok { c with block.modal.retractMode := .previous } p
  else if c.block.axisCommand = .motionMode then
    let command := if c.block.axisWords = ∅ then .none else c.block.axisCommand
    match c.block.modal.motion with
    | .seek => .ok { c with block.axisCommand := command } p
    | motion =>
        let c := if c.block.modal.cannedCycleActive then c else { c with block.modal.retractMode := .previous }
        -- the data of a cycle is written as it is checked, and stays when the block is refused
        let q := if c.block.KeepsCycles then { p with cycles := modes.checkedCycles c p } else p
        match modes.refuses c p with
        | some s => .error s q
        | none =>
            if motion = .linear then
              if c.f = 0 then .error .gcodeUndefinedFeedRate q else .ok { c with block.axisCommand := command } q
            else .ok (c.drop (modes.used c p)) q
  else .ok c p

/-- No word is left over. -/
def checkUnused (c : Checked) (p : Parser) : Result Checked :=
  let c := c.drop ({.n, .f, .s, .t} ∪ if c.block.axisCommand ≠ .none then axisLetters else ∅)
  if c.block.words ≠ ∅ then .error .gcodeUnusedWords p else .ok c p

/-- Step 3. -/
def checkBlock (settings : Settings) (modes : Modes) (b : Block) (p : Parser) : Result Checked :=
  (checkH (implicitMotion (.start b p)) p).bind fun c p =>
  (checkFeedRate c p).bind fun c p =>
  (checkDwell c p).bind fun c p =>
  (checkScaling (convertUnits settings c) p).bind fun c p =>
  (checkToolOffset settings (scaleWords c p) p).bind fun c p =>
  (selectCoordSystem c p).bind fun c p =>
  (checkNonModal settings c p).bind fun c p =>
  (checkMotion modes c p).bind checkUnused

/-! ## Step 4 -/

/-- `STATE_CHECK_MODE` and `sys.flags.single_block` -/
structure Mode where
  checkMode : Bool := false
  singleBlock : Bool := false

/-- [2] to [18] -/
def executeModal (c : Checked) (p : Parser) : Parser :=
  let commanded (group : Group) : Bool := group ∈ c.block.commandWords
  let p := { p with
    modal.feedMode := if commanded .g5 then c.block.modal.feedMode else p.modal.feedMode
    feedRate := c.f
    modal.planeSelect := if commanded .g2 then c.block.modal.planeSelect else p.modal.planeSelect
    modal.unitsImperial := if commanded .g6 then c.block.modal.unitsImperial else p.modal.unitsImperial }
  let p := if commanded .g8 then p.toolOffsetApply c.block.modal.toolOffsetMode (toolId c.h) c.xyz c.block.axisWords else p
  let p := if commanded .g12 then { p with modal.g5xOffset := c.block.modal.g5xOffset, g5xData := c.g5xData } else p
  { p with
    modal.distanceIncremental := if commanded .g3 then c.block.modal.distanceIncremental else p.modal.distanceIncremental
    modal.diameterMode := if commanded .g15 then c.block.modal.diameterMode else p.modal.diameterMode
    modal.retractMode := if commanded .g10 then c.block.modal.retractMode else p.modal.retractMode }

/-- A new G92 offset. -/
def setG92 (offset : Coord) (p : Parser) : Parser :=
  { p.addOffset offset with g92 := offset, g92Applied := offset ≠ 0 }

/-- `fmodf`, of degrees -/
def fmodTurn (v : ℚ) : ℚ := v - 360 * (v / 360).num.tdiv (v / 360).den

/-- `wrap_target`: a position of a G28 that turns the way that is left to the same angle. -/
def wrapTarget (v : ℚ) : ℚ := if fmodTurn v < 0 then 360 + fmodTurn v else fmodTurn v

/-- `gc_block.rotary_wrap`: an axis of an incremental G28 without an intermediate motion. -/
def rotaryWrap (settings : Settings) (c : Checked) (p : Parser) (i : Axis) : Bool :=
  c.block.nonModalCommand = .goHome0 ∧ p.modal.distanceIncremental ∧ i ∈ c.block.axisWords ∧ settings.wraps i ∧ c.xyz i = p.position i

def executeNonModal (settings : Settings) (c : Checked) (offsetId : Fin 4) (p : Parser) : List Move × Parser :=
  let rapid (target : Coord) : Move := ⟨target, offsetId, true, p.feedRate⟩
  match c.block.nonModalCommand with
  | .settings =>
      if c.block.l = 2 ∨ c.block.l = 20 then
        let p := p.writeCoordData c.coordSystem.1 c.coordSystem.2
        ([], if CoordId.work p.modal.g5xOffset = c.coordSystem.1 then { p with g5xData := c.coordSystem.2 } else p)
      else ([], p)
  | .goHome0 | .goHome1 =>
      ((if c.block.axisCommand ≠ .none then [rapid c.xyz] else []) ++
          [rapid fun i => if rotaryWrap settings c p i then wrapTarget (c.coordSystem.2 i) else c.coordSystem.2 i],
        { p with position := c.coordSystem.2 }.setScaling 1)
  | .setHome0 => ([], p.writeCoordData .g28 p.position)
  | .setHome1 => ([], p.writeCoordData .g30 p.position)
  | .setCoordinateOffset =>
      let p := setG92 c.xyz p
      ([], if settings.g92IsVolatile then p else p.writeCoordData .g92 p.g92)
  | .resetCoordinateOffset => ([], setG92 0 (if settings.g92IsVolatile then p else p.writeCoordData .g92 0))
  | .clearCoordinateOffset => ([], setG92 0 p)
  | .restoreCoordinateOffset =>
      let (_, offset, p) := p.readCoordData .g92
      ([], setG92 offset p)
  | _ => ([], p)

/-- [20], the motion modes; G33 and G76 may not start. -/
def executeMotion (modes : Modes) (c : Checked) (offsetId : Fin 4) (p : Parser) : List Move × Result Unit :=
  let p := { p with modal.motion := c.block.modal.motion, modal.cannedCycleActive := c.block.modal.cannedCycleActive }
  if c.block.modal.motion ≠ .none ∧ c.block.axisCommand = .motionMode then
    match c.block.modal.motion with
    | .seek => ([⟨c.xyz, offsetId, true, p.feedRate⟩], .ok () { p with position := c.xyz })
    | .linear => ([⟨c.xyz, offsetId, false, p.feedRate⟩], .ok () { p with position := c.xyz })
    | motion =>
        match if motion = .spindleSynchronized ∨ motion = .threading then modes.syncMotion c p else none with
        | some s => ([], .error s p)
        | none => (modes.moves c p, .ok () { p with position := modes.position c p, cycles := modes.executedCycles c p })
  else ([], .ok () p)

/-- The end of a program; in check mode the data of G54 is not loaded. -/
def programEnd (settings : Settings) (checkMode : Bool) (p : Parser) : Result Unit :=
  let p := { p with
    modal.motion := .linear
    modal.planeSelect := .xy
    modal.distanceIncremental := false
    modal.feedMode := .unitsPerMin
    modal.g5xOffset := .g54
    modal.coolant := {} }
  if checkMode then .ok () p
  else
    let (ok, g5xData, p) := p.readCoordData (.work .g54)
    let p := { p with g5xData }
    if !ok then .error .settingReadFail p
    else if settings.g92IsVolatile then .ok () p
    else
      let (ok, stored, p) := p.readCoordData .g92
      .ok () (if ok ∧ stored ≠ p.g92 then p.writeCoordData .g92 p.g92 else p)

/-- [21], the program flow; a single block holds the feed instead. -/
def programFlow (settings : Settings) (mode : Mode) (flow : ProgramFlow) (p : Parser) : Result Unit :=
  if (flow = .completedM2 ∨ flow = .completedM30) ∧ mode.singleBlock = false then
    (programEnd settings mode.checkMode { p with modal.programFlow := flow }).bind fun _ p =>
      .ok () { p with modal.programFlow := .running }
  else .ok () { p with modal.programFlow := .running }

/-- Steps 3 and 4: the moves, and the outcome; a read that fails at the end of the program leaves `program_flow`. -/
def executeBlock (settings : Settings) (modes : Modes) (mode : Mode) (b : Block) (p : Parser) : List Move × Result Unit :=
  match checkBlock settings modes b p with
  | .error s p => ([], .error s p)
  | .ok c p =>
      let offsetId := p.offsetId
      let (homing, p) := executeNonModal settings c offsetId (executeModal c p)
      let (motion, r) := executeMotion modes c offsetId p
      (homing ++ motion, r.bind fun _ p => programFlow settings mode c.block.modal.programFlow p)

/-- A line: its words, and the block; `Stop` is of the words. -/
def executeLine (env : Env) (settings : Settings) (modes : Modes) (mode : Mode) (line : List Char) (p : Parser) :
    Except Stop (List Move × Result Unit) :=
  (importLine { env with motion := p.modal.motion } line false { modal := p.modal }).map fun b => executeBlock settings modes mode b p

end Grbl.GCode
