import Mathlib
import Grbl.Plane

/-!
# Canned cycles

`gcode.c`: the checks of a block with a canned cycle, which fill in the data of the cycle; `motion_control.c`: `mc_canned_drill`.

* `Canned` : `gc_canned_t`, which is modal and is changed by blocks that are rejected afterwards, too;
* `CycleBlock`, `cannedCycle` : a block and its checks;
* `Event` : what a cycle does; `pecks`, `holes`, `mcCannedDrill` : the loops of the cycle.
-/

namespace Grbl.Cycles
open Function (update)

/-- The motion modes of canned cycles, G73 and G81 to G89. -/
inductive CycleMode
  | drillChipBreak | cannedCycle81 | cannedCycle82 | cannedCycle83 | cannedCycle84 | cannedCycle85 | cannedCycle86 | cannedCycle89
  deriving DecidableEq, Repr

/-- `cc_retract_mode_t`: G98 and G99. -/
inductive RetractMode
  | previous | rPos
  deriving DecidableEq, Repr

/-- The statuses the checks of canned and threading cycles return. -/
inductive Status
  | invalidStatement | gcodeValueWordMissing | gcodeAxisCommandConflict | nonPositiveValue | gcodeInvalidRetractPosition
  | gcodeUnsupportedCommand | negativeValue | gcodeIllegalPlane | gcodeUnusedWords | gcodeValueOutOfRange | gcodeRPMOutOfRange
  deriving DecidableEq, Repr

/-- `gc_canned_t` -/
structure Canned (K : Type*) where
  x : K
  y : K
  z : K
  delta : K
  dwell : K
  retractPosition : K
  rapidRetract : Bool
  spindleOff : Bool
  retractMode : RetractMode

namespace Canned
variable {K : Type*}

/-- `xyz[i]`. The array has three elements, what follows it is `delta`. -/
def xyz (c : Canned K) : Axis → K
  | .x => c.x
  | .y => c.y
  | .z => c.z
  | .a => c.delta

/-- The store to `xyz[i]`. -/
def setXyz (c : Canned K) (i : Axis) (v : K) : Canned K :=
  match i with
  | .x => { c with x := v }
  | .y => { c with y := v }
  | .z => { c with z := v }
  | .a => { c with delta := v }

end Canned

/-- A block with a canned cycle, with what its checks read of the parser. The coordinates are those of the machine, `change` says that the
motion mode is not the one before. -/
structure CycleBlock (K : Type*) where
  motion : CycleMode
  plane : Plane
  change : Bool
  inverseTime : Bool
  wordR : Bool
  wordL : Bool
  wordP : Bool
  wordQ : Bool
  r : K
  p : K
  q : K
  l : ℕ
  axisWords : Axis → Bool
  xyz : Axis → K
  unitsImperial : Bool
  distanceIncremental : Bool
  blockOffset : Axis → K
  isRotary : Axis → Bool
  atSpeed : Bool

section
variable {K : Type*} [Field K] [LinearOrder K]

def CycleBlock.units (b : CycleBlock K) : K := if b.unitsImperial then 127 / 5 else 1

/-- A new cycle: nothing is left of the one before but the peck depth. -/
def Canned.start (c : Canned K) (plane : Plane) : Canned K :=
  { ({ c with dwell := 0 }.setXyz plane.axis0 0).setXyz plane.axis1 0 with rapidRetract := true, spindleOff := false }

def Canned.retract (c : Canned K) (b : CycleBlock K) (position : Axis → K) : Canned K :=
  if b.wordR then
    { c with
      retractPosition := b.r * b.units +
        (if b.distanceIncremental then position b.plane.axisLinear else b.blockOffset b.plane.axisLinear) }
  else c

/-- An axis word: a distance in the plane, the bottom of the hole across it. -/
def Canned.axisWord (b : CycleBlock K) (position : Axis → K) (c : Canned K) (i : Axis) : Canned K :=
  if b.axisWords i then
    let c := c.setXyz i (b.xyz i)
    if i ≠ b.plane.axisLinear then c.setXyz i (c.xyz i - position i)
    else if b.distanceIncremental then c.setXyz i (c.retractPosition + (c.xyz i - position i))
    else c
  else c

/-- The data of the cycles without pecks: a hole is drilled in one go. -/
def Canned.single (c : Canned K) (b : CycleBlock K) : Canned K :=
  let c := { c with delta := -c.xyz b.plane.axisLinear + c.retractPosition }
  if b.motion = .cannedCycle85 then { c with rapidRetract := false } else c

/-- The dwell of G82, G84, G86 and G89. -/
def dwellWord (b : CycleBlock K) (c : Canned K) : Canned K × Except Status ℕ → Canned K × Except Status ℕ :=
  fun next =>
    if b.wordP then if b.p < 0 then (c, .error .negativeValue) else next
    else if b.change then (c, .error .gcodeValueWordMissing)
    else next

def cycleWords (b : CycleBlock K) (c : Canned K) (l : ℕ) : Canned K × Except Status ℕ :=
  match b.motion with
  | .cannedCycle86 | .cannedCycle89 | .cannedCycle82 | .cannedCycle84 =>
      let c :=
        if b.motion = .cannedCycle86 ∨ b.motion = .cannedCycle89 then
          { c with spindleOff := b.motion = .cannedCycle86, rapidRetract := b.motion = .cannedCycle86 }
        else c
      if b.motion = .cannedCycle84 ∧ b.atSpeed = false then (c, .error .gcodeUnsupportedCommand)
      else
        let c := if b.motion = .cannedCycle84 then { c with rapidRetract := false } else c
        dwellWord b c ((if b.wordP then { c with dwell := b.p } else c).single b, .ok l)
  | .cannedCycle85 | .cannedCycle81 => (c.single b, .ok l)
  | .drillChipBreak | .cannedCycle83 =>
      if b.wordQ then
        if b.q ≤ 0 then (c, .error .negativeValue)
        else ({ c with delta := b.q * b.units, dwell := 1 / 4 }, .ok l)
      else if b.change then (c, .error .gcodeValueWordMissing)
      else ({ c with dwell := 1 / 4 }, .ok l)

/-- The checks of a block with a canned cycle: the data of the cycle, and the status or the number of repeats. -/
def cannedCycle (b : CycleBlock K) (position : Axis → K) (c : Canned K) : Canned K × Except Status ℕ :=
  if b.change && b.inverseTime then (c, .error .invalidStatement)
  else if b.change && !b.wordR then (c, .error .gcodeValueWordMissing)
  else if b.change && !b.axisWords b.plane.axisLinear then (c, .error .gcodeValueWordMissing)
  else
    let c := if b.change then c.start b.plane else c
    if Axis.all.any fun i => b.axisWords i && b.isRotary i then (c, .error .gcodeAxisCommandConflict)
    else if b.wordL && decide (b.l = 0) then (c, .error .nonPositiveValue)
    else
      let c := c.retract b position
      let c := Axis.all.reverse.foldl (Canned.axisWord b position) c
      if c.retractPosition < c.xyz b.plane.axisLinear then (c, .error .gcodeInvalidRetractPosition)
      else cycleWords b c (if b.wordL then b.l else 1)

/-! ## What the checks leave -/

section
variable {b : CycleBlock K} {position : Axis → K} {c c' : Canned K} {l l' : ℕ}

omit [LinearOrder K] [Field K] in
theorem setXyz_delta {i : Axis} (h : i ≠ .a) (v : K) : (c.setXyz i v).delta = c.delta := by
  cases i <;> first | rfl | exact absurd rfl h

omit [LinearOrder K] in
theorem start_delta (plane : Plane) : (c.start plane).delta = c.delta := by cases plane <;> rfl

omit [LinearOrder K] in
theorem retract_delta : (c.retract b position).delta = c.delta := by
  unfold Canned.retract
  split <;> rfl

omit [LinearOrder K] in
theorem axisWord_delta {i : Axis} (h : i ≠ .a) : (c.axisWord b position i).delta = c.delta := by
  unfold Canned.axisWord
  split_ifs <;> simp only [setXyz_delta h]

omit [LinearOrder K] in
theorem axisWord_delta_a : (c.axisWord b position .a).delta = if b.axisWords .a then b.xyz .a - position .a else c.delta := by
  have hlinear : Axis.a ≠ b.plane.axisLinear := by cases b.plane <;> decide
  unfold Canned.axisWord
  rw [if_pos hlinear]
  split_ifs <;> rfl

/-- The peck depth is left over, or the distance of the fourth axis. -/
def leftOver (b : CycleBlock K) (position : Axis → K) (c : Canned K) : K := if b.axisWords .a then b.xyz .a - position .a else c.delta

omit [LinearOrder K] in
theorem axisWords_delta : (Axis.all.reverse.foldl (Canned.axisWord b position) c).delta = leftOver b position c := by
  simp only [Axis.all, List.reverse_cons, List.reverse_nil, List.nil_append, List.cons_append, List.foldl_cons, List.foldl_nil]
  rw [axisWord_delta (by decide), axisWord_delta (by decide), axisWord_delta (by decide), axisWord_delta_a, leftOver]

/-- The motion modes that drill: G73, G81, G82 and G83. -/
def CycleMode.Drills : CycleMode → Prop
  | .drillChipBreak | .cannedCycle81 | .cannedCycle82 | .cannedCycle83 => True
  | _ => False

/-- The motion modes that drill in pecks: G73 and G83. -/
def CycleMode.Pecks : CycleMode → Prop
  | .drillChipBreak | .cannedCycle83 => True
  | _ => False

omit [LinearOrder K] in
theorem single_xyz : (c.single b).xyz b.plane.axisLinear = c.xyz b.plane.axisLinear ∧ (c.single b).retractPosition = c.retractPosition ∧
    (c.single b).delta = -c.xyz b.plane.axisLinear + c.retractPosition := by
  unfold Canned.single
  cases b.plane <;> split_ifs <;> exact ⟨rfl, rfl, rfl⟩

theorem cycleWords_pecks (hpecks : b.motion.Pecks) (h : cycleWords b c l = (c', .ok l')) :
    l' = l ∧ c'.xyz b.plane.axisLinear = c.xyz b.plane.axisLinear ∧ c'.retractPosition = c.retractPosition ∧
      c'.delta = (if b.wordQ then b.q * b.units else c.delta) ∧ (b.wordQ = true → 0 < b.q) := by
  have heq : cycleWords b c l =
      if b.wordQ then
        if b.q ≤ 0 then (c, .error .negativeValue)
        else ({ c with delta := b.q * b.units, dwell := 1 / 4 }, .ok l)
      else if b.change then (c, .error .gcodeValueWordMissing)
      else ({ c with dwell := 1 / 4 }, .ok l) := by
    unfold cycleWords
    revert hpecks
    cases b.motion <;> intro hpecks <;> first | rfl | exact hpecks.elim
  rw [heq] at h
  split_ifs at h with hq hneg hchange
  · cases h
  · cases h
    exact ⟨rfl, by cases b.plane <;> rfl, rfl, (if_pos hq).symm, fun _ => not_le.1 hneg⟩
  · cases h
  · cases h
    exact ⟨rfl, by cases b.plane <;> rfl, rfl, (if_neg hq).symm, fun hq' => absurd hq' hq⟩

theorem cycleWords_single (hdrills : b.motion.Drills) (hpecks : ¬b.motion.Pecks) (h : cycleWords b c l = (c', .ok l')) :
    l' = l ∧ c'.xyz b.plane.axisLinear = c.xyz b.plane.axisLinear ∧ c'.retractPosition = c.retractPosition ∧
      c'.delta = -c.xyz b.plane.axisLinear + c.retractPosition := by
  have hdwell (dwell : K) : ({ c with dwell := dwell } : Canned K).xyz b.plane.axisLinear = c.xyz b.plane.axisLinear := by
    cases b.plane <;> rfl
  have heq : cycleWords b c l = (c.single b, .ok l) ∨
      cycleWords b c l = dwellWord b c ((if b.wordP then { c with dwell := b.p } else c).single b, .ok l) := by
    unfold cycleWords
    revert hdrills hpecks
    cases b.motion <;> intro hdrills hpecks <;>
      first | exact hdrills.elim | exact absurd trivial hpecks | exact .inl rfl | exact .inr rfl
  rcases heq with heq | heq
  · rw [heq] at h
    cases h
    exact ⟨rfl, single_xyz⟩
  · rw [heq, dwellWord] at h
    split_ifs at h with hp hneg hchange
    · cases h
    · cases h
      have hsingle := single_xyz (b := b) (c := { c with dwell := b.p })
      rw [hdwell] at hsingle
      exact ⟨rfl, hsingle⟩
    · cases h
    · cases h
      exact ⟨rfl, single_xyz⟩

/-- What the checks of a drilling cycle leave: a bottom that is not above the retract plane, at least one repeat, and a peck depth. -/
theorem cannedCycle_ok (hdrills : b.motion.Drills) (h : cannedCycle b position c = (c', .ok l)) :
    c'.xyz b.plane.axisLinear ≤ c'.retractPosition ∧ l ≠ 0 ∧
      (b.motion.Pecks → c'.delta = (if b.wordQ then b.q * b.units else leftOver b position c) ∧ (b.wordQ = true → 0 < b.q)) ∧
      (¬b.motion.Pecks → c'.delta = -c'.xyz b.plane.axisLinear + c'.retractPosition) := by
  have hlast (c1 : Canned K) (n : ℕ) (hn : n ≠ 0) (hdelta : c1.delta = leftOver b position c)
      (h : (if c1.retractPosition < c1.xyz b.plane.axisLinear then (c1, .error .gcodeInvalidRetractPosition) else cycleWords b c1 n) =
        (c', Except.ok l)) : c'.xyz b.plane.axisLinear ≤ c'.retractPosition ∧ l ≠ 0 ∧
        (b.motion.Pecks → c'.delta = (if b.wordQ then b.q * b.units else leftOver b position c) ∧ (b.wordQ = true → 0 < b.q)) ∧
        (¬b.motion.Pecks → c'.delta = -c'.xyz b.plane.axisLinear + c'.retractPosition) := by
    split_ifs at h with hretract
    · cases h
    by_cases hpecks : b.motion.Pecks
    · obtain ⟨hl, hxyz, hr, hd, hq⟩ := cycleWords_pecks hpecks h
      rw [hxyz, hr, hl, hd, hdelta]
      exact ⟨not_lt.1 hretract, hn, fun _ => ⟨rfl, hq⟩, fun hnot => absurd hpecks hnot⟩
    · obtain ⟨hl, hxyz, hr, hd⟩ := cycleWords_single hdrills hpecks h
      rw [hxyz, hr, hl, hd]
      exact ⟨not_lt.1 hretract, hn, fun h' => absurd h' hpecks, fun _ => rfl⟩
  have hstart : (if b.change then c.start b.plane else c).delta = c.delta := by
    split
    · exact start_delta _
    · rfl
  have hleft : (Axis.all.reverse.foldl (Canned.axisWord b position) ((if b.change then c.start b.plane else c).retract b position)).delta =
      leftOver b position c := by
    rw [axisWords_delta, leftOver, retract_delta, hstart, leftOver]
  unfold cannedCycle at h
  split at h
  · cases h
  split at h
  · cases h
  split at h
  · cases h
  dsimp only at h
  split at h
  · cases h
  split at h
  · cases h
  next hl =>
    refine hlast _ _ ?_ hleft h
    split
    · next hword =>
        rw [hword, Bool.true_and, decide_eq_true_eq] at hl
        exact hl
    · exact one_ne_zero

end

/-! ## The cycle -/

/-- What a cycle does: a line from one point to another, rapid or with the feed rate, a dwell, or a command for the spindle. -/
inductive Event (K : Type*)
  | line (src dst : Axis → K) (rapid : Bool)
  | dwell (seconds : K)
  | spindleStop
  | spindleReverse
  | spindleRestore

/-- What is done at the bottom of a peck. -/
def atBottom (motion : CycleMode) (canned : Canned K) : List (Event K) :=
  (if motion = .cannedCycle84 then [Event.spindleStop, .spindleReverse] else []) ++
    (if canned.dwell > 0 then [Event.dwell canned.dwell] else []) ++ (if canned.spindleOff then [Event.spindleStop] else [])

def afterRetract (motion : CycleMode) (canned : Canned K) : List (Event K) :=
  if canned.spindleOff ∨ motion = .cannedCycle84 then [.spindleRestore] else []

/-- The peck loop of `mc_canned_drill`, with the position and the depth reached. -/
def pecks (g73Retract : K) (motion : CycleMode) (plane : Plane) (canned : Canned K) (retractTo : K) :
    ℕ → (Axis → K) → K → Option (List (Event K) × (Axis → K))
  | 0, position, positionLinear => if positionLinear > canned.xyz plane.axisLinear then none else some ([], position)
  | fuel + 1, position, positionLinear =>
      if positionLinear > canned.xyz plane.axisLinear then
        let positionLinear := positionLinear - canned.delta
        let positionLinear := if positionLinear < canned.xyz plane.axisLinear then canned.xyz plane.axisLinear else positionLinear
        let drilled := update position plane.axisLinear positionLinear
        let retracted := update drilled plane.axisLinear
          (if motion = .drillChipBreak then
            if drilled plane.axisLinear = canned.xyz plane.axisLinear then retractTo else drilled plane.axisLinear + g73Retract
          else retractTo)
        (pecks g73Retract motion plane canned retractTo fuel retracted positionLinear).map fun rest =>
          ([.line position drilled false] ++ atBottom motion canned ++ [.line drilled retracted canned.rapidRetract] ++
            afterRetract motion canned ++ rest.1, rest.2)
      else some ([], position)

/-- The loop over the holes, with the events of each round. -/
def holes (g73Retract : K) (motion : CycleMode) (plane : Plane) (canned : Canned K) (distanceIncremental : Bool) (retractTo : K) (fuel : ℕ) :
    ℕ → (Axis → K) → Option (List (List (Event K)) × (Axis → K))
  | 0, position => some ([], position)
  | repeats + 1, position => do
      let atR := if position plane.axisLinear > canned.retractPosition then update position plane.axisLinear canned.retractPosition else position
      let toR := if position plane.axisLinear > canned.retractPosition then [.line position atR true] else []
      let (drilling, drilled) ← pecks g73Retract motion plane canned retractTo fuel atR (atR plane.axisLinear)
      let moves := repeats ≠ 0 ∧ distanceIncremental = true
      let next :=
        if moves then
          update (update drilled plane.axis0 (drilled plane.axis0 + canned.xyz plane.axis0)) plane.axis1
            (drilled plane.axis1 + canned.xyz plane.axis1)
        else drilled
      let toNext := if moves then [.line drilled next true] else []
      let (rest, last) ← holes g73Retract motion plane canned distanceIncremental retractTo fuel repeats next
      some ((toR ++ drilling ++ toNext) :: rest, last)

/-- `mc_canned_drill`, every `mc_line` returning true: the moves to the first hole, the rounds, and the last position. -/
def mcCannedDrill (g73Retract : K) (motion : CycleMode) (target position : Axis → K) (plane : Plane) (repeats : ℕ) (canned : Canned K)
    (distanceIncremental : Bool) (fuel : ℕ) : Option (List (Event K) × List (List (Event K)) × (Axis → K)) := do
  let raised :=
    if position plane.axisLinear < canned.retractPosition then update position plane.axisLinear canned.retractPosition else position
  let raise := if position plane.axisLinear < canned.retractPosition then [.line position raised true] else []
  let positionLinear := raised plane.axisLinear
  let retractTo := if canned.retractMode = .rPos then canned.retractPosition else positionLinear
  let above := update target plane.axisLinear positionLinear
  let (rounds, last) ← holes g73Retract motion plane canned distanceIncremental retractTo fuel repeats above
  some (raise ++ [.line raised above true], rounds, last)

end

end Grbl.Cycles
