import Grbl.Axis

/-!
# Planes

`plane_t` as `gc_get_plane_data` sets it: the plane selected by G17, G18 and G19.

* `Plane` : the three planes, with `axis0`, `axis1` and `axisLinear`.
-/

namespace Grbl

/-- `plane_select_t` -/
inductive Plane
  | xy | zx | yz
  deriving DecidableEq, Repr

namespace Plane

def axis0 : Plane → Axis
  | xy => .x
  | zx => .z
  | yz => .y

def axis1 : Plane → Axis
  | xy => .y
  | zx => .x
  | yz => .z

def axisLinear : Plane → Axis
  | xy => .z
  | zx => .y
  | yz => .x

theorem axis0_ne_axis1 (p : Plane) : p.axis0 ≠ p.axis1 := by cases p <;> decide

theorem axisLinear_ne_axis0 (p : Plane) : p.axisLinear ≠ p.axis0 := by cases p <;> decide

theorem axisLinear_ne_axis1 (p : Plane) : p.axisLinear ≠ p.axis1 := by cases p <;> decide

end Plane

end Grbl
