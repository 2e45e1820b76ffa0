import Mathlib

/-!
# The RAM buffer for non-volatile storage

* `Layout` : where the records are, with the proof that they do not overlap;
* `target` : the table from addresses to dirty flags;
* `ramPutByte`, `memcpyToRam` : what `hal.nvs.memcpy_to_nvs` does on the buffer;
* `syncPhysical` : `nvs_buffer_sync_physical` for storage with `memcpy_to_nvs`.

The physical storage is EEPROM or FRAM. A write to it may fail, and then leaves any bytes behind.
-/

namespace Grbl.Nvs

abbrev Byte := UInt8

def nvsCrcBytes : ℕ := 2

def nCoordinateSystems : ℕ := 12

def nStartupLine : ℕ := 2

/-- The sizes of the records and the addresses the configuration gives; the last three fields say
that the core records fit where the configuration puts them. -/
structure Layout where
  sizeofSettings : ℕ
  sizeofCoordSystemData : ℕ
  sizeofStoredLine : ℕ
  sizeofToolData : ℕ
  nTools : ℕ
  /-- `NVS_ADDR_PARAMETERS` -/
  nvsAddrParameters : ℕ
  /-- `GRBL_NVS_END` -/
  grblNvsEnd : ℕ
  /-- `hal.nvs.driver_area.address` -/
  driverAddress : ℕ
  /-- `hal.nvs.driver_area.size` -/
  driverSize : ℕ
  nTools_le : nTools ≤ 32
  settings_fit : 1 + (sizeofSettings + nvsCrcBytes) ≤ nvsAddrParameters
  lines_fit : nvsAddrParameters + nCoordinateSystems * (sizeofCoordSystemData + nvsCrcBytes) + 1 +
    (nStartupLine + 1) * (sizeofStoredLine + nvsCrcBytes) ≤ grblNvsEnd
  driver_area : driverAddress = 0 ∧ driverSize = 0 ∨
    driverAddress = grblNvsEnd + 1 + nTools * (sizeofToolData + nvsCrcBytes)

namespace Layout
variable (L : Layout)

def nvsAddrGlobal (_ : Layout) : ℕ := 1

def nvsAddrBuildInfo : ℕ := L.grblNvsEnd - (L.sizeofStoredLine + nvsCrcBytes)

def nvsAddrStartupBlock : ℕ := L.nvsAddrBuildInfo - nStartupLine * (L.sizeofStoredLine + nvsCrcBytes) - 1

def nvsAddrToolTable : ℕ := L.grblNvsEnd + 1

/-- `PARAMETER_ADDR(n)` -/
def parameterAddr (n : ℕ) : ℕ := L.nvsAddrParameters + n * (L.sizeofCoordSystemData + nvsCrcBytes)

/-- `STARTLINE_ADDR(n)` -/
def startlineAddr (n : ℕ) : ℕ := L.nvsAddrStartupBlock + n * (L.sizeofStoredLine + nvsCrcBytes)

/-- `TOOL_ADDR(n)` -/
def toolAddr (n : ℕ) : ℕ := L.nvsAddrToolTable + n * (L.sizeofToolData + nvsCrcBytes)

end Layout

/-- `NVS_GROUP_...` -/
inductive Group
  | global | tools | parameters | startup | build
  deriving DecidableEq, Repr

/-- `emap_t` -/
structure EMap where
  addr : ℕ
  type : Group
  offset : ℕ
  deriving DecidableEq, Repr

def toolEntries (nTools : ℕ) : ℕ :=
  if nTools = 0 then 0 else if 16 < nTools then 32 else if 8 < nTools then 16 else 8

/-- The table `target`, without its terminator. -/
def target (L : Layout) : List EMap :=
  [⟨L.nvsAddrGlobal, .global, 0⟩] ++
    (List.range nCoordinateSystems).map (fun n => ⟨L.parameterAddr n, .parameters, n⟩) ++
    (List.range nStartupLine).map (fun n => ⟨L.startlineAddr n, .startup, n⟩) ++
    [⟨L.nvsAddrBuildInfo, .build, 0⟩] ++
    (List.range (toolEntries L.nTools)).map (fun n => ⟨L.toolAddr n, .tools, n⟩)

/-- The width of `tool_data`. -/
def toolBits (nTools : ℕ) : ℕ := if 16 < nTools then 32 else 16

/-- `settings_dirty_t` -/
structure SettingsDirty (nTools : ℕ) where
  isDirty : Bool := false
  version : Bool := false
  globalSettings : Bool := false
  buildInfo : Bool := false
  driverSettings : Bool := false
  startupLines : BitVec 8 := 0
  coordData : BitVec 16 := 0
  toolData : BitVec (toolBits nTools) := 0
  deriving DecidableEq, Repr

/-- `bit(n)` as a mask. -/
def bit (w n : ℕ) : BitVec w := 1#w <<< n

/-- The buffer, the physical storage and the flags. -/
structure Buffer (L : Layout) where
  ram : ℕ → Byte
  physical : ℕ → Byte
  settingsDirty : SettingsDirty L.nTools := {}
  dirty : Bool := false

/-- How a write to the physical storage ends; when it fails, what it leaves behind. -/
inductive Transfer
  | ok
  | failed (bytes : ℕ → Byte)

def Transfer.isOk : Transfer → Bool
  | ok => true
  | failed _ => false

/-- The outcome of the writes to the physical storage, by destination. -/
abbrev Outcomes := ℕ → Transfer

/-- `modbus_crc16x`: one bit, one byte and the whole buffer. -/
def crcBit (crc : UInt16) : UInt16 := if crc &&& 1 = 1 then (crc >>> 1) ^^^ 0xA001 else crc >>> 1

def crcByte (crc : UInt16) (b : Byte) : UInt16 := crcBit^[8] (crc ^^^ b.toUInt16)

def calcChecksum (source : List Byte) : UInt16 := source.foldl crcByte 0xFFFF

/-- What follows the bytes of a record. -/
def checksumBytes (source : List Byte) (withChecksum : Bool) : List Byte :=
  if withChecksum then [(calcChecksum source &&& 0xFF).toUInt8, (calcChecksum source >>> 8).toUInt8] else []

namespace Buffer
variable {L : Layout}

def ramPutByte (b : Buffer L) (offset : ℕ) (newValue : Byte) : Buffer L :=
  { b with
    settingsDirty := if offset = 0 then { b.settingsDirty with version := true } else b.settingsDirty
    dirty := b.dirty || decide (b.ram offset ≠ newValue) || decide (offset = 0)
    ram := fun a => if a = offset then newValue else b.ram a }

/-- The loop over the bytes of the source. -/
def putBytes (b : Buffer L) (dest : ℕ) : List Byte → Buffer L
  | [] => b
  | v :: source => putBytes (b.ramPutByte dest v) (dest + 1) source

/-- `physical_nvs.memcpy_to_nvs`: the storage afterwards and whether the transfer was `NVS_TransferResult_OK`. -/
def physicalMemcpy (b : Buffer L) (o : Outcomes) (destination : ℕ) (source : ℕ → Byte) (size : ℕ) : Buffer L × Bool :=
  ({ b with physical := fun a =>
      if destination ≤ a ∧ a < destination + size then
        match o destination with
        | .ok => source a
        | .failed bytes => bytes a
      else b.physical a }, (o destination).isOk)

/-- The `switch` on the group of a table entry. -/
def markEntry (d : SettingsDirty L.nTools) (e : EMap) : SettingsDirty L.nTools :=
  match e.type with
  | .global => { d with globalSettings := true }
  | .tools => { d with toolData := d.toolData ||| bit _ e.offset }
  | .parameters => { d with coordData := d.coordData ||| bit _ e.offset }
  | .startup => { d with startupLines := d.startupLines ||| bit _ e.offset }
  | .build => { d with buildInfo := true }

/-- The flags that are set for a record that has changed. -/
def markDirty (d : SettingsDirty L.nTools) (destination : ℕ) : SettingsDirty L.nTools :=
  let d := { d with isDirty := true }
  if L.driverAddress ≠ 0 ∧ L.driverAddress ≤ destination then { d with driverSettings := true }
  else
    match (target L).find? fun e => e.addr = destination with
    | some e => markEntry d e
    | none => d

/-- `memcpy_to_ram`. `atMemAddress` says that the source pointer, which the loop over its bytes has
moved, equals `hal.nvs.driver_area.mem_address`. -/
def memcpyToRam (b : Buffer L) (o : Outcomes) (destination : ℕ) (source : List Byte) (atMemAddress withChecksum : Bool) :
    Buffer L :=
  let bytes := source ++ checksumBytes source withChecksum
  if L.driverAddress ≠ 0 ∧ L.driverAddress + L.driverSize < destination then
    (b.physicalMemcpy o destination (fun a => bytes.getD (a - destination) 0) bytes.length).1
  else
    let b := { b with dirty := false }.putBytes destination bytes
    let b := { b with dirty := b.dirty || b.settingsDirty.version || atMemAddress }
    if b.dirty then { b with settingsDirty := markDirty b.settingsDirty destination } else b

/-! ## `nvs_buffer_sync_physical` -/

/-- `physical_nvs.memcpy_to_nvs(destination, nvsbuffer.addr + destination, size, false)` -/
def writeBack (b : Buffer L) (o : Outcomes) (destination size : ℕ) : Buffer L × Bool :=
  b.physicalMemcpy o destination b.ram size

def syncVersion (o : Outcomes) (b : Buffer L) : Buffer L :=
  if b.settingsDirty.version then
    let r := b.writeBack o 0 1
    { r.1 with settingsDirty := { r.1.settingsDirty with version := !r.2 } }
  else b

def syncGlobalSettings (o : Outcomes) (b : Buffer L) : Buffer L :=
  if b.settingsDirty.globalSettings then
    let r := b.writeBack o L.nvsAddrGlobal (L.sizeofSettings + nvsCrcBytes)
    { r.1 with settingsDirty := { r.1.settingsDirty with globalSettings := !r.2 } }
  else b

def syncBuildInfo (o : Outcomes) (b : Buffer L) : Buffer L :=
  if b.settingsDirty.buildInfo then
    let r := b.writeBack o L.nvsAddrBuildInfo (L.sizeofStoredLine + nvsCrcBytes)
    { r.1 with settingsDirty := { r.1.settingsDirty with buildInfo := !r.2 } }
  else b

/-- `bit_false(settings_dirty.startup_lines, bit(idx))` -/
def clearStartupLine (idx : ℕ) (b : Buffer L) : Buffer L :=
  { b with settingsDirty := { b.settingsDirty with startupLines := b.settingsDirty.startupLines &&& ~~~bit _ idx } }

/-- One turn of the loop over the startup lines: the bit is cleared before the line is written. -/
def syncStartupLine (o : Outcomes) (idx : ℕ) (b : Buffer L) : Buffer L :=
  if b.settingsDirty.startupLines.getLsbD idx then
    let r := (b.clearStartupLine idx).writeBack o (L.startlineAddr idx) (L.sizeofStoredLine + nvsCrcBytes)
    if r.2 then r.1.clearStartupLine idx else r.1
  else b

/-- One turn of the loop over the coordinate systems. -/
def syncCoordSystem (o : Outcomes) (idx : ℕ) (b : Buffer L) : Buffer L :=
  if b.settingsDirty.coordData.getLsbD idx then
    let r := b.writeBack o (L.parameterAddr idx) (L.sizeofCoordSystemData + nvsCrcBytes)
    if r.2 then
      { r.1 with settingsDirty := { r.1.settingsDirty with coordData := r.1.settingsDirty.coordData &&& ~~~bit _ idx } }
    else r.1
  else b

def syncDriverSettings (o : Outcomes) (b : Buffer L) : Buffer L :=
  if b.settingsDirty.driverSettings then
    if 0 < L.driverSize then
      let r := b.writeBack o L.driverAddress L.driverSize
      { r.1 with settingsDirty := { r.1.settingsDirty with driverSettings := !r.2 } }
    else { b with settingsDirty := { b.settingsDirty with driverSettings := false } }
  else b

/-- One turn of the loop over the tools. -/
def syncTool (o : Outcomes) (idx : ℕ) (b : Buffer L) : Buffer L :=
  if b.settingsDirty.toolData.getLsbD idx then
    let r := b.writeBack o (L.toolAddr idx) (L.sizeofToolData + nvsCrcBytes)
    if r.2 then
      { r.1 with settingsDirty := { r.1.settingsDirty with toolData := r.1.settingsDirty.toolData &&& ~~~bit _ idx } }
    else r.1
  else b

/-- A loop with `idx` running down from `n - 1` to 0. -/
def downFrom (turn : ℕ → Buffer L → Buffer L) : ℕ → Buffer L → Buffer L
  | 0, b => b
  | n + 1, b => downFrom turn n (turn n b)

def syncStartupLines (o : Outcomes) (b : Buffer L) : Buffer L :=
  if b.settingsDirty.startupLines ≠ 0 then downFrom (syncStartupLine o) nStartupLine b else b

/-- This loop starts with `idx = N_CoordinateSystems`. -/
def syncCoordSystems (o : Outcomes) (b : Buffer L) : Buffer L :=
  if b.settingsDirty.coordData ≠ 0 then downFrom (syncCoordSystem o) (nCoordinateSystems + 1) b else b

def syncTools (o : Outcomes) (b : Buffer L) : Buffer L :=
  if b.settingsDirty.toolData ≠ 0 then downFrom (syncTool o) L.nTools b else b

/-- `is_dirty`, computed from the other flags. -/
def anyDirty (d : SettingsDirty L.nTools) : Bool :=
  decide (d.coordData ≠ 0) || d.globalSettings || d.driverSettings || decide (d.startupLines ≠ 0) ||
    decide (d.toolData ≠ 0) || d.buildInfo

def syncPhysical (b : Buffer L) (o : Outcomes) : Buffer L :=
  if b.settingsDirty.isDirty then
    let b := syncVersion o b
    let b := syncGlobalSettings o b
    let b := syncBuildInfo o b
    let b := syncStartupLines o b
    let b := syncCoordSystems o b
    let b := syncDriverSettings o b
    let b := syncTools o b
    { b with settingsDirty := { b.settingsDirty with isDirty := anyDirty b.settingsDirty } }
  else b

end Buffer

end Grbl.Nvs
