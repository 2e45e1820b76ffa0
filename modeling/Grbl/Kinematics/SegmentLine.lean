import Mathlib
import Grbl.Kinematics.Polar

/-!
# Segmented lines

`wp_segment_line` and `polar_segment_line`: a line is cut into short segments, one for each call. `mc_line` calls for the first time
with the target, and then until there are no more. Its counter is taken to be large enough, jogs are not cancelled, and the motion is
neither checked only nor aborted.

* `Robot`, `wallPlotter`, `polar` : what the two differ in;
* `LineMove`, `Segmenter` : a move, and the variables the segmenter keeps from call to call;
* `Segmenter.start`, `Segmenter.next`, `segments`, `mcLine` : the calls, and the loop over them.
-/

namespace Grbl.Kinematics
open Function (update)
open scoped Grbl.Lib.OrderedField

section
variable {K : Type*} [Field K] [LinearOrder K] [FloorRing K]

/-- The kinematics of a machine. -/
structure Robot (K : Type*) [Field K] [LinearOrder K] where
  maxSegLength : K
  maxSegLength_pos : 0 < maxSegLength
  /-- `transform_to_cartesian` -/
  toCartesian : (Axis → K) → Axis → K
  /-- if it sets all of the axes -/
  setsAll : Bool
  /-- `transform_from_cartesian`, with the last position -/
  fromCartesian : (Axis → K) → (Axis → K) → Axis → K
  /-- the length that is compared with the longest one of a segment -/
  distance : (Axis → K) → K
  /-- what the radius is shifted by, for an offset -/
  rOffset : K → K
  /-- the factor of the feed rate, for the last position, the next one, and the length of a segment -/
  rateMultiplier : (Axis → K) → (Axis → K) → K → K

def wallPlotter [IsStrictOrderedRing K] (sqrtf : K → K) (width : K) : Robot K where
  maxSegLength := 2
  maxSegLength_pos := two_pos
  toCartesian := fun position =>
    let x := (width * width + position .x * position .x - position .y * position .y) / (2 * width)
    let len := width - x
    update (update position .x x) .y (sqrtf (position .y * position .y - len * len))
  setsAll := false
  fromCartesian := fun _ position =>
    let xpos := width - position .x
    update (update position .x (sqrtf (position .x * position .x + position .y * position .y))) .y
      (sqrtf (xpos * xpos + position .y * position .y))
  distance := fun delta => sqrtf (delta .x * delta .x + delta .y * delta .y)
  rOffset := fun _ => 0
  rateMultiplier := fun _ _ _ => 1

/-- The polar robot; the functions of angles are in degrees. -/
def polar [IsStrictOrderedRing K] (sqrtf cosf sinf : K → K) (atan2f : K → K → K) : Robot K where
  maxSegLength := 1 / 2
  maxSegLength_pos := one_half_pos
  toCartesian := fun position => update (update position .x (cosf (position .y) * position .x)) .y (sinf (position .y) * position .x)
  setsAll := true
  fromCartesian := transformFromCartesian sqrtf atan2f
  distance := fun delta => sqrtf (delta .x * delta .x + delta .y * delta .y + delta .z * delta .z)
  rOffset := fun offset => offset * 2
  rateMultiplier := fun lastPos cpos distance =>
    let moved (i : Axis) := (lastPos i - cpos i) * (lastPos i - cpos i)
    let rate := sqrtf (moved .a + moved .z + moved .y + moved .x) / distance
    if rate = 0 then 1 else if rate < 1 / 2 then 1 / 2 else rate

/-- A line: from a position of the motors to a point. -/
structure LineMove (K : Type*) where
  position : Axis → K
  target : Axis → K
  rapid : Bool
  offset : K

/-- The variables of the segmenter, with the factor of the feed rate. -/
structure Segmenter (K : Type*) where
  iterations : ℕ
  segmented : Bool
  distance : K
  rOffset : K
  delta : Axis → K
  segmentTarget : Axis → K
  finalTarget : Axis → K
  cpos : Axis → K
  lastPos : Axis → K
  rate : K

namespace Segmenter

/-- As they are set at first. -/
def init : Segmenter K := ⟨0, false, 0, 0, fun _ => 0, fun _ => 0, fun _ => 0, fun _ => 0, fun _ => 0, 1⟩

/-- The first call for a line. -/
def start (r : Robot K) (m : LineMove K) (s : Segmenter K) : Segmenter K :=
  let segmentTarget := if r.setsAll then r.toCartesian m.position else update (r.toCartesian m.position) .a (s.segmentTarget .a)
  -- the delta of the last axis is not set
  let delta := update (fun i => m.target i - segmentTarget i) .a (s.delta .a)
  let distance := r.distance delta
  if !m.rapid && decide (distance > r.maxSegLength) && !(decide (delta .x = 0) && decide (delta .y = 0)) then
    let iterations := ⌈distance / r.maxSegLength⌉₊
    { s with
      iterations := iterations + 1
      segmented := true
      distance := distance / iterations
      rOffset := r.rOffset m.offset
      delta := fun i => delta i / iterations
      segmentTarget := segmentTarget
      finalTarget := m.target
      rate := 1 }
  else
    { s with
      iterations := 2
      segmented := false
      distance := distance
      rOffset := r.rOffset m.offset
      delta := delta
      segmentTarget := m.target
      finalTarget := m.target
      rate := 1 }

/-- The calls after the first one. -/
def next (r : Robot K) (rapid : Bool) (s : Segmenter K) : Segmenter K :=
  let iterations := s.iterations - 1
  let segmentTarget := if s.segmented && decide (iterations > 1) then fun i => s.segmentTarget i + s.delta i else s.finalTarget
  let cpos := r.fromCartesian s.lastPos (update segmentTarget .x (segmentTarget .x - s.rOffset))
  { s with
    iterations := iterations
    segmentTarget := segmentTarget
    cpos := cpos
    lastPos := cpos
    rate := if !rapid && s.segmented then r.rateMultiplier s.lastPos cpos s.distance else s.rate }

end Segmenter

/-- The loop of `mc_line`: what is planned, with the factor of the feed rate. -/
def segments (r : Robot K) (rapid : Bool) : ℕ → Segmenter K → Option (List ((Axis → K) × K) × Segmenter K)
  | 0, _ => none
  | fuel + 1, s =>
      let s := s.next r rapid
      if s.iterations = 0 then some ([], s) else (segments r rapid fuel s).map fun rest => ((s.cpos, s.rate) :: rest.1, rest.2)

/-- `mc_line`: the point the soft limits are checked for, and what is planned. -/
def mcLine (r : Robot K) (m : LineMove K) (fuel : ℕ) (s : Segmenter K) :
    Option ((Axis → K) × List ((Axis → K) × K) × Segmenter K) :=
  let s := s.start r m
  (segments r m.rapid fuel s).map fun rest => (s.cpos, rest)

end

end Grbl.Kinematics
