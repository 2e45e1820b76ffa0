import Mathlib
import Grbl.Cycles.Canned
import Grbl.Cycles.Moves
import Grbl.Lib.AtLeastTwo

/-!
# Threading

`gcode.c`: the checks of G76; `motion_control.c`: `mc_thread`. The pitch, and the height of the main taper, which no move depends on,
are left out; the counters of the passes have 32 bits.

* `ThreadData`, `ThreadBlock`, `threading` : the data of the cycle, which are modal, and the checks of a block that fill them in;
* `calcThreadDoc`, `countPasses`, `threadPass`, `threadLoop`, `mcThread` : the functions of the source.
-/

namespace Grbl.Cycles
open Function (update)
open scoped Grbl.Lib.Literal

/-- `gc_taper_type` -/
inductive Taper
  | none | entry | exit | both
  deriving DecidableEq, Repr

namespace Taper

def hasEntry : Taper → Bool
  | entry | both => true
  | _ => false

def hasExit : Taper → Bool
  | exit | both => true
  | _ => false

/-- The type of an L word, which is not above 3. -/
def ofWord : ℕ → Taper
  | 0 => none
  | 1 => entry
  | 2 => exit
  | _ => both

end Taper

/-- `gc_thread_data` -/
structure ThreadData (K : Type*) where
  zFinal : K
  peak : K
  initialDepth : K
  depth : K
  depthDegression : K
  endTaperLength : K
  infeedAngle : K
  cutDirection : K
  springPasses : UInt32
  endTaperType : Taper

/-- A block with G76, with what its checks read of the parser. -/
structure ThreadBlock (K : Type*) where
  hasData : Bool
  plane : Plane
  change : Bool
  axisWords : Axis → Bool
  wordI : Bool
  wordJ : Bool
  wordK : Bool
  wordP : Bool
  wordR : Bool
  wordH : Bool
  wordL : Bool
  wordE : Bool
  wordQ : Bool
  i : K
  j : K
  k : K
  p : K
  r : K
  h : UInt32
  l : ℕ
  e : K
  q : K
  z : K
  rpm : K
  rpmMin : K
  rpmMax : K
  unitsImperial : Bool
  diameterMode : Bool

section
variable {K : Type*} [Field K] [LinearOrder K]

/-- The factor of the depths: inches, and diameters. -/
def ThreadBlock.units (b : ThreadBlock K) : K := (if b.unitsImperial then 127 / 5 else 1) / if b.diameterMode then 2 else 1

/-- What is set to zero for a new cycle. -/
def ThreadData.start : ThreadData K := ⟨0, 0, 0, 0, 1, 0, 0, 0, 0, .none⟩

def ThreadData.words (th : ThreadData K) (b : ThreadBlock K) : ThreadData K :=
  let th := { th with
    zFinal := b.z
    cutDirection := if b.i < 0 then -1 else 1
    peak := |b.i| * b.units
    initialDepth := b.j * b.units
    depth := b.k * b.units }
  let th := if b.wordH then { th with springPasses := b.h } else th
  let th := if b.wordL then { th with endTaperType := .ofWord b.l } else th
  let th := if b.wordE then { th with endTaperLength := b.e } else th
  if th.endTaperLength ≤ 0 ∨ th.endTaperType = .none then { th with endTaperLength := 0, endTaperType := .none } else th

/-- The checks of G76: the data of the cycle, and the status. -/
def threading (b : ThreadBlock K) (position : Axis → K) (th : ThreadData K) : ThreadData K × Except Status Unit :=
  if !b.hasData then (th, .error .gcodeUnsupportedCommand)
  else if b.plane ≠ .zx then (th, .error .gcodeIllegalPlane)
  else if b.axisWords .y || b.axisWords .a then (th, .error .gcodeUnusedWords)
  else if b.wordR && decide (b.r < 1) then (th, .error .gcodeValueOutOfRange)
  else if !b.axisWords .z || !(b.wordI || b.wordJ || b.wordK || b.wordP) then (th, .error .gcodeValueWordMissing)
  else if b.p < 0 ∨ b.j < 0 ∨ b.k < 0 then (th, .error .negativeValue)
  else if b.i = 0 ∨ b.j = 0 ∨ b.k ≤ b.j ∨ (b.wordL = true ∧ b.l > 3) then (th, .error .gcodeValueOutOfRange)
  else if b.rpm < b.rpmMin ∨ b.rpm > b.rpmMax then (th, .error .gcodeRPMOutOfRange)
  else
    let th := if b.change then .start else th
    let th := th.words b
    if th.endTaperType ≠ .none ∧ th.endTaperLength > |th.zFinal - position .z| / 2 then (th, .error .gcodeValueOutOfRange)
    else
      let th := if b.wordR then { th with depthDegression := b.r } else th
      let th := if b.wordQ then { th with infeedAngle := b.q } else th
      (th, .ok ())

/-! ## The cycle -/

/-- A pass: to the depth of the cut, the cut, and back. -/
structure Pass (K : Type*) where
  enter : List (Move K)
  cut : List (Move K)
  leave : List (Move K)

def counterMod : ℕ := 2 ^ 32

variable (powf : K → K → K) (tanf : K → K)

def calcThreadDoc (pass : ℕ) (cutDepth invDegression : K) : K := cutDepth * powf pass invDegression

def raddeg : K := 174532925 / 10000000000

/-- The number of passes down to the full depth. -/
def countPasses (th : ThreadData K) : ℕ → ℕ → Option ℕ
  | 0, _ => none
  | fuel + 1, passes =>
      let passes := (passes + 1) % counterMod
      if calcThreadDoc powf passes th.initialDepth (1 / th.depthDegression) < th.depth then countPasses th fuel passes else some passes

/-- What the passes share: the offset of the slide, and the signed lengths of the thread and its tapers. -/
structure Setup (K : Type*) where
  infeedFactor : K
  startZ : K
  threadLength : K
  entryTaperLength : K
  exitTaperLength : K

/-- The lengths, and the start of the compound slide. -/
def setup (th : ThreadData K) (position : Axis → K) : Setup K :=
  let infeedFactor := tanf (th.infeedAngle * raddeg)
  let entry := if th.endTaperType.hasEntry then th.endTaperLength else 0
  let exit := if th.endTaperType.hasExit then th.endTaperLength else 0
  let length := th.zFinal - position .z
  let entry := if length > 0 then if th.endTaperType.hasEntry then -entry else entry else entry
  let exit := if length > 0 then if th.endTaperType.hasExit then -exit else exit else exit
  { infeedFactor := infeedFactor
    startZ := position .z + th.depth * infeedFactor
    threadLength := length + (entry + exit)
    entryTaperLength := entry
    exitTaperLength := exit }

/-- A pass of the loop, with the depth of the cut and, if it is not the last one, of the next. -/
def threadPass (th : ThreadData K) (position : Axis → K) (s : Setup K) (doc : K) (next : Option K) (target : Axis → K) : Pass K × (Axis → K) :=
  let entered := update target .x
    (if th.endTaperType.hasEntry then position .x + (th.peak + doc - th.depth) * th.cutDirection
    else position .x + (th.peak + doc) * th.cutDirection)
  let tapered :=
    if th.endTaperType.hasEntry then
      update (update entered .x (entered .x + th.depth * th.cutDirection)) .z (entered .z - s.entryTaperLength)
    else entered
  let cut := update tapered .z (tapered .z + s.threadLength)
  let ended :=
    if th.endTaperType.hasExit then update (update cut .x (cut .x - th.depth * th.cutDirection)) .z (cut .z - s.exitTaperLength) else cut
  let cuts := (if th.endTaperType.hasEntry then [⟨entered, tapered, false⟩] else []) ++ [⟨tapered, cut, false⟩] ++
    if th.endTaperType.hasExit then [⟨cut, ended, false⟩] else []
  match next with
  | some doc =>
      let retracted := update ended .x (position .x + (doc - th.depth) * th.cutDirection)
      let back := update retracted .z (s.startZ - if s.infeedFactor ≠ 0 then doc * s.infeedFactor else 0)
      (⟨[⟨target, entered, true⟩], cuts, [⟨ended, retracted, true⟩, ⟨retracted, back, true⟩]⟩, back)
  | none =>
      let retracted := update ended .x (position .x)
      (⟨[⟨target, entered, true⟩], cuts, [⟨ended, retracted, true⟩]⟩, retracted)

/-- The loop over the passes; the first argument is the number of passes that are left. -/
def threadLoop (th : ThreadData K) (position : Axis → K) (s : Setup K) : ℕ → ℕ → K → (Axis → K) → List (Pass K) × (Axis → K)
  | 0, _, _, target => ([], target)
  | passes + 1, pass, doc, target =>
      if passes + 1 > 1 then
        let pass := (pass + 1) % counterMod
        let next := min (calcThreadDoc powf pass th.initialDepth (1 / th.depthDegression)) th.depth
        let r := threadPass th position s doc (some next) target
        let rest := threadLoop th position s passes pass next r.2
        (r.1 :: rest.1, rest.2)
      else
        let r := threadPass th position s doc none target
        let rest := threadLoop th position s passes pass th.depth r.2
        (r.1 :: rest.1, rest.2)

/-- `mc_thread`, not aborted: the move that sets the slide, the passes, and the last target. -/
def mcThread (th : ThreadData K) (position : Axis → K) (fuel : ℕ) : Option (List (Move K) × List (Pass K) × (Axis → K)) :=
  (countPasses powf th fuel 0).map fun passes =>
    let passes := (passes + (th.springPasses.toNat + 1)) % counterMod
    let s := setup tanf th position
    let offset := update position .z (s.startZ - th.initialDepth * s.infeedFactor)
    let target := if s.infeedFactor ≠ 0 then offset else position
    let first : List (Move K) := if s.infeedFactor ≠ 0 then [⟨position, offset, true⟩] else []
    let r := threadLoop powf th position s ((passes + (counterMod - 1)) % counterMod) 1 th.initialDepth target
    (first, r)

end

end Grbl.Cycles
