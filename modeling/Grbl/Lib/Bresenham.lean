import Mathlib

/-!
# Error accumulation of a Bresenham line

A counter is advanced by increments of at most `E`; whenever it exceeds `E`, a pulse is output and
`E` is taken off. The increments may vary from tick to tick.

* `advance` : one tick;
* `Traced E h c p a` : from the counter `h`, after increments of `a` in all, the counter is `c` and
  `p` pulses have been output;
* `Traced.finish` : increments of `n * E` in all give exactly `n` pulses.
-/

namespace Grbl.Lib

/-- The counter after an increment, and whether a pulse is output. -/
def advance (E d c : ℕ) : ℕ × Bool := if c + d > E then (c + d - E, true) else (c + d, false)

/-- The counter accounts for the increments and the pulses so far. -/
structure Traced (E h c p a : ℕ) : Prop where
  pos : 0 < c
  le : c ≤ E
  balance : c + E * p = h + a

namespace Traced

variable {E h c p a d : ℕ}

theorem start (hpos : 0 < h) (hle : h ≤ E) : Traced E h h 0 0 := ⟨hpos, hle, rfl⟩

theorem advance (t : Traced E h c p a) (hd : d ≤ E) :
    Traced E h (advance E d c).1 (p + if (Lib.advance E d c).2 then 1 else 0) (a + d) := by
  have hb := t.balance
  have hpos := t.pos
  have hle := t.le
  unfold Lib.advance
  split
  · refine ⟨by dsimp only; omega, by dsimp only; omega, ?_⟩
    dsimp only
    rw [if_pos rfl, Nat.mul_add, Nat.mul_one]
    omega
  · refine ⟨by dsimp only; omega, by dsimp only; omega, ?_⟩
    simp only [Bool.false_eq_true, if_false, Nat.add_zero]
    omega

theorem finish {n : ℕ} (t : Traced E h c p (n * E)) (hpos : 0 < h) (hle : h ≤ E) :
    p = n ∧ c = h := by
  have hb := t.balance
  have hcpos := t.pos
  have hcle := t.le
  have hp : p = n := by
    rcases lt_trichotomy p n with hlt | heq | hgt
    · have : E * (p + 1) ≤ E * n := Nat.mul_le_mul_left E hlt
      rw [Nat.mul_add, Nat.mul_one, Nat.mul_comm E n] at this
      omega
    · exact heq
    · have : E * (n + 1) ≤ E * p := Nat.mul_le_mul_left E hgt
      rw [Nat.mul_add, Nat.mul_one, Nat.mul_comm E n] at this
      omega
  refine ⟨hp, ?_⟩
  rw [hp, Nat.mul_comm E n] at hb
  omega

end Traced

end Grbl.Lib
