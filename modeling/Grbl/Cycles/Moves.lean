import Grbl.Axis

/-!
# Moves

What a cycle sends to the planner.

* `Move` : a line from one point to another, rapid or with the feed rate;
* `Path` : moves that lead from one point to another; `path_append`.
-/

namespace Grbl.Cycles

section
variable {K : Type*}

/-- A line from one point to another. -/
structure Move (K : Type*) where
  src : Axis → K
  dst : Axis → K
  rapid : Bool

/-- The lines lead from one point to another. -/
def Path : (Axis → K) → List (Move K) → (Axis → K) → Prop
  | p, [], q => p = q
  | p, m :: ms, q => m.src = p ∧ Path m.dst ms q

theorem path_append {p q r : Axis → K} {ms ns : List (Move K)} (h : Path p ms q) (h' : Path q ns r) : Path p (ms ++ ns) r := by
  induction ms generalizing p with
  | nil =>
      obtain rfl : p = q := h
      exact h'
  | cons m ms ih => exact ⟨h.1, ih h.2⟩

end

end Grbl.Cycles
