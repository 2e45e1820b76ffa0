import Mathlib

/-!
# Axes

The build has four motion axes (`N_AXIS` is 4).

* `Axis`, `Axis.all` : the axes and their list in index order;
* `maxSteps` : the largest of the step counts of the axes.
-/

namespace Grbl

/-- The motion axes, `X_AXIS` to `A_AXIS`. -/
inductive Axis
  | x | y | z | a
  deriving DecidableEq, Repr

namespace Axis

/-- The axes in index order. -/
def all : List Axis := [x, y, z, a]

theorem mem_all (i : Axis) : i ∈ all := by cases i <;> decide

instance : Fintype Axis := ⟨⟨(all : Multiset Axis), by decide⟩, mem_all⟩

end Axis

/-- The largest step count over all axes. -/
def maxSteps (steps : Axis → ℕ) : ℕ := Axis.all.foldl (fun m i => max m (steps i)) 0

end Grbl
