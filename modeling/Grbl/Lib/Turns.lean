import Mathlib

/-!
# Entries written in turn

`n` entries, of which the one after the last written one is written every time.

* `Turns`, `Turns.write`;
* `writes_last` : the last written entry after some writes;
* `writes_entry` : an entry keeps its value until `n` values have been written; then it is every `n`-th of them.
-/

namespace Grbl.Lib
open Function

structure Turns (n : ℕ) (α : Type*) where
  last : Fin n
  entries : Fin n → α

namespace Turns
variable {n : ℕ} [NeZero n] {α : Type*}

/-- The next entry is written. -/
def write (t : Turns n α) (v : α) : Turns n α := ⟨t.last + 1, update t.entries (t.last + 1) v⟩

theorem writes_last (t : Turns n α) (vs : List α) : ((vs.foldl write t).last : ℕ) = (t.last + vs.length) % n := by
  induction vs generalizing t with
  | nil => exact (Nat.mod_eq_of_lt t.last.isLt).symm
  | cons v vs ih =>
      rw [List.foldl_cons, ih, List.length_cons]
      dsimp only [write]
      rw [Fin.val_add, Fin.val_one', Nat.add_mod_mod, Nat.mod_add_mod]
      congr 1
      omega

theorem writes_last_eq (t : Turns n α) (vs : List α) : (vs.foldl write t).last = t.last ↔ n ∣ vs.length := by
  rw [Fin.ext_iff, writes_last]
  constructor
  · intro h
    have hmod : t.last + vs.length ≡ t.last + 0 [MOD n] := by
      rw [Nat.ModEq, h, Nat.add_zero, Nat.mod_eq_of_lt t.last.isLt]
    exact Nat.modEq_zero_iff_dvd.1 (Nat.ModEq.add_left_cancel' _ hmod)
  · rintro ⟨k, hk⟩
    rw [hk, Nat.add_mul_mod_self_left, Nat.mod_eq_of_lt t.last.isLt]

theorem writes_entry (t : Turns n α) (vs : List α) :
    (vs.foldl write t).entries t.last = if vs.length < n then t.entries t.last else vs.getD (n * (vs.length / n) - 1) (t.entries t.last) := by
  have hn : 0 < n := Nat.pos_of_neZero n
  induction vs using List.reverseRecOn with
  | nil => simp [hn]
  | append_singleton vs v ih =>
      have hlast := writes_last_eq t (vs ++ [v])
      rw [List.foldl_append, List.foldl_cons, List.foldl_nil] at hlast ⊢
      generalize vs.foldl write t = u at ih hlast ⊢
      rw [List.length_append, List.length_singleton] at hlast ⊢
      by_cases hdvd : n ∣ vs.length + 1
      · have heq : u.last + 1 = t.last := hlast.2 hdvd
        have hlong : ¬vs.length + 1 < n := fun h => absurd (Nat.le_of_dvd (Nat.succ_pos _) hdvd) (Nat.not_le.2 h)
        rw [if_neg hlong, Nat.mul_div_cancel' hdvd, Nat.add_sub_cancel]
        simp [write, heq]
      · have hne : t.last ≠ u.last + 1 := fun h => hdvd (hlast.1 h.symm)
        have hdiv : (vs.length + 1) / n = vs.length / n := Nat.succ_div_of_not_dvd hdvd
        dsimp only [write]
        rw [update_of_ne hne, ih, hdiv]
        by_cases hshort : vs.length < n
        · have hshort' : vs.length + 1 < n := by
            rcases Nat.lt_or_ge (vs.length + 1) n with h | h
            · exact h
            · exact absurd ⟨1, by omega⟩ hdvd
          rw [if_pos hshort, if_pos hshort']
        · have hpos : 0 < n * (vs.length / n) := Nat.mul_pos hn (Nat.div_pos (Nat.not_lt.1 hshort) hn)
          have hle : n * (vs.length / n) ≤ vs.length := Nat.mul_div_le ..
          rw [if_neg hshort, if_neg (by omega), List.getD_append _ _ _ _ (by omega)]

end Turns

end Grbl.Lib
