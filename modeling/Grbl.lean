import Grbl.Planner.Buffer
import Grbl.Planner.Override
import Grbl.Stepper.Rings
import Grbl.Stepper.Exact
import Grbl.Stepper.Commands
import Grbl.State.Machine
import Grbl.State.Door
import Grbl.GCode.Types
import Grbl.Lib.Run
import Grbl.Lib.Ring
import Grbl.Lib.SpeedProfile
import Grbl.Lib.Bresenham
import Grbl.Lib.Heap
import Grbl.Stream.Receive
import Grbl.Stream.Suspend
import Grbl.Stream.UsbTransmit
import Grbl.Tasks.Delivery
import Grbl.Protocol.Responses
import Grbl.Nvs.WriteBack
import Grbl.Vfs.Resolution
import Grbl.Ymodem.Reception
import Grbl.Ngc.Scopes
import Grbl.Ngc.ExprSpec
import Grbl.Ngc.FlowReset
import Grbl.Ngc.MacroRuns
import Grbl.Modbus.Machine
import Grbl.Modbus.Line
import Grbl.Lib.Ledger
import Grbl.Lib.Placement
import Grbl.Lib.StableSort
import Grbl.Modbus.History
import Grbl.Modbus.Progress
import Grbl.Ngc.Arguments
import Grbl.Ngc.Names
import Grbl.Ngc.Substitute
import Grbl.Ports.Exclusive
import Grbl.Stream.UsbGiveUp
import Grbl.Tasks.DueOrder
import Grbl.Tasks.Systick
import Grbl.Cycles.Canned
import Grbl.Cycles.Drilling
import Grbl.Cycles.ThreadPasses
import Grbl.Kinematics.Polar
import Grbl.Kinematics.SegmentLine
import Grbl.Kinematics.Spacing
import Grbl.Laser.Coolant
import Grbl.Lib.Arc
import Grbl.Lib.Clip
import Grbl.Lib.Ramp
import Grbl.Limits.ArcBounds
import Grbl.Limits.ArcSound
import Grbl.Limits.Jog
import Grbl.Segments.Conservation
import Grbl.Segments.Timing
import Grbl.Stepper2.FiniteMove
import Grbl.Stepper2.SpeedChanges
import Grbl.Modbus.Agreement
import Grbl.Modbus.Framing
import Grbl.Motion.Backlash
import Grbl.Numbers.ReadUint
import Grbl.Nvs.Eeprom
import Grbl.Settings.Acceleration
import Grbl.Kinematics.CoreXY
import Grbl.Laser.ClusterSafety
import Grbl.Lib.Paths
import Grbl.Ngc.Identifiers
import Grbl.Spindle.Huanyang
import Grbl.Spindle.Offset
import Grbl.Vfs.Littlefs
import Grbl.Vfs.SameEntry
import Grbl.Protocol.LineEditing
import Grbl.Lib.Json
import Grbl.Numbers.Ftoa
import Grbl.Planner.Bookkeeping
import Grbl.Stream.JsonWriter
import Grbl.Ngc.Positions
import Grbl.Ngc.Unwritten
import Grbl.Nvs.Alloc
import Grbl.Motion.InverseTime
import Grbl.Spindle.Ramping
import Grbl.Limits.Homing
import Grbl.GCode.Accepted
import Grbl.GCode.Checks
import Grbl.GCode.CoordinateRuns
import Grbl.GCode.OffsetReports
import Grbl.Settings.Derived
