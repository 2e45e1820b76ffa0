import Mathlib

/-!
# Index arithmetic of a ring buffer

Slots are numbered `0 .. top`. The entry `k` places after slot `t` is `slot top t k`.

* `ringNext`, `ringPrev` : the neighbour links of a circular list;
* `slot_lt`, `slot_zero`, `ringNext_slot`, `ringPrev_slot` : walking the ring;
* `slot_inj` : fewer than `top + 1` consecutive entries are distinct;
* `count`, `slot_count` : the number of entries from one slot to another.
-/

namespace Grbl.Lib

/-- The slot after `i` in a ring whose last slot is `top`. -/
def ringNext (top i : ℕ) : ℕ := if i = top then 0 else i + 1

/-- The slot before `i` in a ring whose last slot is `top`. -/
def ringPrev (top i : ℕ) : ℕ := if i = 0 then top else i - 1

/-- The slot `k` places after slot `t`. -/
def slot (top t k : ℕ) : ℕ := (t + k) % (top + 1)

/-- The number of entries from slot `t` up to slot `h`. -/
def count (top t h : ℕ) : ℕ := if t ≤ h then h - t else top + 1 + h - t

theorem slot_lt (top t k : ℕ) : slot top t k < top + 1 := Nat.mod_lt _ (Nat.succ_pos top)

theorem slot_zero {top t : ℕ} (ht : t < top + 1) : slot top t 0 = t := Nat.mod_eq_of_lt ht

theorem slot_of_lt {top t k : ℕ} (h : t + k < top + 1) : slot top t k = t + k :=
  Nat.mod_eq_of_lt h

theorem slot_of_wrap {top t k : ℕ} (h : top + 1 ≤ t + k) (h' : t + k < 2 * (top + 1)) :
    slot top t k = t + k - (top + 1) := by
  rw [slot, Nat.mod_eq_sub_mod h, Nat.mod_eq_of_lt (by omega)]

theorem slot_add (top t j k : ℕ) : slot top (slot top t j) k = slot top t (j + k) := by
  rw [slot, slot, Nat.mod_add_mod, Nat.add_assoc, slot]

theorem ringNext_lt {top i : ℕ} (hi : i < top + 1) : ringNext top i < top + 1 := by
  unfold ringNext
  split <;> omega

theorem ringNext_eq {top i : ℕ} (hi : i < top + 1) : ringNext top i = slot top i 1 := by
  unfold ringNext
  split
  · next h => rw [slot_of_wrap (by omega) (by omega)]; omega
  · next h => rw [slot_of_lt (by omega)]

theorem ringNext_slot (top t k : ℕ) : ringNext top (slot top t k) = slot top t (k + 1) := by
  rw [ringNext_eq (slot_lt top t k), slot_add]

theorem ringPrev_ringNext (top i : ℕ) : ringPrev top (ringNext top i) = i := by
  unfold ringPrev ringNext
  split <;> split at * <;> omega

theorem ringPrev_slot (top t k : ℕ) : ringPrev top (slot top t (k + 1)) = slot top t k := by
  rw [← ringNext_slot, ringPrev_ringNext]

theorem slot_inj {top t j k : ℕ} (hj : j < top + 1) (hk : k < top + 1)
    (h : slot top t j = slot top t k) : j = k := by
  have hmod : t + j ≡ t + k [MOD top + 1] := h
  have hjk : j ≡ k [MOD top + 1] := Nat.ModEq.add_left_cancel' t hmod
  exact Nat.ModEq.eq_of_lt_of_lt hjk hj hk

theorem slot_ne {top t j k : ℕ} (hj : j < top + 1) (hk : k < top + 1) (h : j ≠ k) :
    slot top t j ≠ slot top t k := fun he => h (slot_inj hj hk he)

theorem slot_eq_iff {top t j k : ℕ} (hj : j < top + 1) (hk : k < top + 1) :
    slot top t j = slot top t k ↔ j = k := ⟨slot_inj hj hk, fun h => h ▸ rfl⟩

theorem count_lt {top t h : ℕ} (ht : t < top + 1) (hh : h < top + 1) :
    count top t h < top + 1 := by
  unfold count
  split <;> omega

theorem slot_count {top t h : ℕ} (ht : t < top + 1) (hh : h < top + 1) :
    slot top t (count top t h) = h := by
  unfold count
  split
  · rw [slot_of_lt (by omega)]; omega
  · rw [slot_of_wrap (by omega) (by omega)]; omega

theorem count_slot {top t k : ℕ} (ht : t < top + 1) (hk : k < top + 1) :
    count top t (slot top t k) = k :=
  slot_inj (count_lt ht (slot_lt top t k)) hk (slot_count ht (slot_lt top t k))

theorem count_eq_zero {top t h : ℕ} (ht : t < top + 1) :
    count top t h = 0 ↔ t = h := by
  unfold count
  split <;> omega

end Grbl.Lib
