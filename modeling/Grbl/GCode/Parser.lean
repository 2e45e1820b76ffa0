import Mathlib
import Grbl.Cycles.Threading
import Grbl.GCode.Words

/-!
# Positions and offsets of the parser

`gc_state` as far as positions and offsets go, with the coordinate systems in non-volatile storage.

* `Coord`, `CoordId` : positions, and the coordinate systems that are stored; `Settings`; `CycleData` : the data of cycles and splines;
* `Parser` : `gc_state` and `scale_factor`; `Parser.offset`, `Parser.workPosition`;
* `readCoordData`, `writeCoordData` : the storage;
* `addOffset`, `toolOffsetApply`, `setScaling`, `clearOffset`, `gcInit` : functions of `gcode.c`.
-/

namespace Grbl.GCode
open Function

/-- `coord_data_t` -/
abbrev Coord := Axis → ℚ

/-- `coord_system_id_t` -/
inductive CoordId
  | work (id : CoordSystemId)
  | g28
  | g30
  | g92
  deriving DecidableEq, Repr

/-- What does not change. -/
structure Settings where
  /-- `settings.steppers.is_rotary` -/
  isRotary : Axis → Bool := fun _ => false
  /-- `settings.steppers.rotary_wrap` -/
  rotaryWrap : Axis → Bool := fun _ => false
  /-- `settings.flags.g92_is_volatile` -/
  g92IsVolatile : Bool := false
  /-- `settings.offset_lock`, of G59.1 to G59.3 -/
  offsetLock : CoordSystemId → Bool := fun _ => false
  /-- `settings.macro_atc_flags.random_toolchanger` -/
  randomToolchanger : Bool := false
  /-- `settings.tool_id`, when `settings.flags.tool_persistent` is set -/
  persistentTool : Option ℕ := none
  /-- `grbl.tool_table.n_tools` -/
  nTools : ℕ := 0
  /-- `settings.status_report.machine_position` and `.sync_on_wco_change` -/
  machinePosition : Bool := true
  syncOnWcoChange : Bool := true

/-- The axes that G28 may turn to the end of their way by less than a turn. -/
def Settings.wraps (settings : Settings) (i : Axis) : Bool := i = .a ∧ settings.isRotary i ∧ settings.rotaryWrap i

/-- The coordinate systems that are locked. -/
def Settings.locked (settings : Settings) : CoordId → Bool
  | .work id => (id = .g59_1 ∨ id = .g59_2 ∨ id = .g59_3) ∧ settings.offsetLock id
  | .g28 | .g30 | .g92 => false

/-- `offset_queue`, by the two bits of `offset_id`. -/
abbrev OffsetQueue := Fin 4 → Coord

/-- `gc_state.canned`, `gc_state.modal.spline_pq` and `thread`, with the fields of it that no move depends on. -/
structure CycleData where
  canned : Cycles.Canned ℚ := ⟨0, 0, 0, 0, 0, 0, false, false, .previous⟩
  splinePq : ℚ × ℚ := 0
  thread : Cycles.ThreadData ℚ := ⟨0, 0, 0, 0, 0, 0, 0, 0, 0, .none⟩
  threadPitch : ℚ := 0
  mainTaperHeight : ℚ := 0

/-- `gc_state` and `scale_factor`, with the coordinate systems that are stored. A stored one that cannot be read is `none`. -/
structure Parser where
  modal : Modal := {}
  feedRate : ℚ := 0
  position : Coord := 0
  g5xData : Coord := 0
  g92 : Coord := 0
  g92Applied : Bool := false
  toolLengthOffset : Coord := 0
  offsetId : Fin 4 := 0
  offsetQueue : OffsetQueue := fun _ => 0
  scaleIjk : Coord := fun _ => 1
  scaleXyz : Coord := 0
  tool : ℕ := 0
  toolPending : ℕ := 0
  /-- `grbl.tool_table.get_tool(id)->data->offset` -/
  toolOffset : ℕ → Option Coord := fun _ => none
  nvs : CoordId → Option Coord := fun _ => some 0
  cycles : CycleData := {}

namespace Parser
variable (p : Parser)

/-- `gc_get_offset`, when no block is being executed. -/
def offset : Coord := fun i => p.g5xData i + p.g92 i + p.toolLengthOffset i

/-- WPos = MPos - WCS - G92 - TLO -/
def workPosition : Coord := fun i => p.position i - p.offset i

/-- `settings_write_coord_data` -/
def writeCoordData (id : CoordId) (data : Coord) : Parser := { p with nvs := update p.nvs id (some data) }

/-- `settings_read_coord_data`: whether it was read, and what; else it is reset. -/
def readCoordData (id : CoordId) : Bool × Coord × Parser :=
  match p.nvs id with
  | some data => (true, data, p)
  | none => (false, 0, p.writeCoordData id 0)

def addOffset (offset : Coord) : Parser :=
  { p with offsetId := p.offsetId + 1, offsetQueue := update p.offsetQueue (p.offsetId + 1) offset }

def setScaling (factor : ℚ) : Parser := { p with scaleIjk := fun _ => factor, modal.scalingActive := factor ≠ 1 }

def toolOffsetApply (mode : ToolOffsetMode) (tool : ℕ) (values : Coord) (axisWords : Finset Axis) : Parser :=
  let data := (p.toolOffset tool).getD p.toolLengthOffset
  { p with
    modal.toolOffsetMode := mode
    toolLengthOffset :=
      match mode with
      | .cancel => 0
      | .enable => data
      | .applyAdditional => fun i => p.toolLengthOffset i + data i
      | .enableDynamic => fun i => if i ∈ axisWords then values i else p.toolLengthOffset i }

/-- `gc_clear_offset` -/
def clearOffset (settings : Settings) (id : CoordId) : Parser :=
  if id = .g92 then
    let p := { p with g92Applied := false, g92 := 0 }
    if settings.g92IsVolatile then p else p.writeCoordData .g92 0
  else if settings.locked id then p
  else { p with g5xData := if id = CoordId.work p.modal.g5xOffset then 0 else p.g5xData }.writeCoordData id 0

/-- `memset(&gc_state, 0, ...)`: all of it in a cold start, else all but the G92 offset, the tool and the tool length offset. The data of
G76 is not of `gc_state`. -/
def cleared (settings : Settings) (coldStart stop : Bool) : Parser :=
  let cycles := { p.cycles with canned := ({} : CycleData).canned, splinePq := 0 }
  if coldStart then
    let tool := match settings.persistentTool with
      | some id => if settings.nTools = 0 ∨ (p.toolOffset id).isSome then id else 0
      | none => 0
    { tool, toolOffset := p.toolOffset, nvs := p.nvs, cycles }
  else
    { modal := if stop then { g5xOffset := p.modal.g5xOffset, toolOffsetMode := p.modal.toolOffsetMode } else {}
      g92 := p.g92
      toolLengthOffset := p.toolLengthOffset
      tool := p.tool
      toolPending := p.tool
      toolOffset := p.toolOffset
      nvs := p.nvs
      cycles }

/-- `gc_init`; the position is set by the caller. -/
def gcInit (settings : Settings) (coldStart stop : Bool) : Parser :=
  let p := (p.cleared settings coldStart stop).setScaling 1
  let (_, g5xData, p) := p.readCoordData (CoordId.work p.modal.g5xOffset)
  let p := { p with g5xData }
  if coldStart ∧ settings.g92IsVolatile = false then
    let (ok, g92, p) := p.readCoordData .g92
    { p with g92, offsetQueue := if ok then update p.offsetQueue p.offsetId g92 else p.offsetQueue }
  else p

end Parser

end Grbl.GCode
