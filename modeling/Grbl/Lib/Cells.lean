import Mathlib

/-!
# Lists in consecutive cells

* `load f i n` : the `n` cells from `i` on; `store f i l` : the cells from `i` on hold `l`;
* `load_add`, `load_succ`, `load_take` : a load in parts;
* `load_store`, `load_store_before`, `load_store_behind`, `load_store_prefix` : what is loaded after a store;
* `store_of_not_mem` : the other cells; `store_load` : a copy; `store_cons`, `store_append` : a store in parts.
-/

namespace Grbl.Lib

variable {α : Type*} {f : ℕ → α} {i n : ℕ} {l : List α}

/-- The contents of `n` cells. -/
def load (f : ℕ → α) (i n : ℕ) : List α := (List.range n).map fun k => f (i + k)

/-- A list is written to the cells from `i` on. -/
def store (f : ℕ → α) (i : ℕ) (l : List α) : ℕ → α := fun k => if i ≤ k then l.getD (k - i) (f k) else f k

@[simp] theorem length_load : (load f i n).length = n := by rw [load, List.length_map, List.length_range]

@[simp] theorem load_zero : load f i 0 = [] := rfl

theorem load_add (m n : ℕ) : load f i (m + n) = load f i m ++ load f (i + m) n := by
  rw [load, List.range_add, List.map_append, List.map_map]
  refine congrArg _ (List.map_congr_left fun k _ => ?_)
  rw [Function.comp_apply, Nat.add_assoc]

theorem load_succ (n : ℕ) : load f i (n + 1) = f i :: load f (i + 1) n := by
  rw [Nat.add_comm, load_add]
  rfl

theorem load_take {m : ℕ} (h : m ≤ n) : (load f i n).take m = load f i m := by
  rw [← Nat.add_sub_cancel' h, load_add, List.take_left' length_load]

theorem load_congr {f g : ℕ → α} (h : ∀ k < n, f (i + k) = g (i + k)) : load f i n = load g i n :=
  List.map_congr_left fun k hk => h k (List.mem_range.1 hk)

theorem load_store : load (store f i l) i l.length = l := by
  refine List.ext_getElem length_load fun k _ hk => ?_
  simp only [load, store, List.getElem_map, List.getElem_range, Nat.le_add_right, if_true, Nat.add_sub_cancel_left]
  rw [List.getD_eq_getElem?_getD, List.getElem?_eq_getElem hk, Option.getD_some]

theorem load_store_before {j : ℕ} (h : j + n ≤ i) : load (store f i l) j n = load f j n :=
  load_congr fun k hk => if_neg (by omega)

theorem load_store_behind : load (store f (i + n) l) i (n + l.length) = load f i n ++ l := by
  rw [load_add, load_store_before (Nat.le_refl _), load_store]

theorem load_store_prefix (h : l.length ≤ n) :
    load (store f i l) i n = l ++ load (store f i l) (i + l.length) (n - l.length) := by
  rw [← Nat.add_sub_cancel' h, load_add, load_store, Nat.add_sub_cancel_left]

theorem store_nil : store f i [] = f := by
  funext k
  unfold store
  split <;> rfl

theorem store_cons (c : α) (l : List α) : store f i (c :: l) = store (Function.update f i c) (i + 1) l := by
  funext k
  unfold store
  rcases Nat.lt_trichotomy k i with hlt | rfl | hgt
  · rw [if_neg (by omega), if_neg (by omega), Function.update_of_ne (by omega)]
  · rw [if_pos (Nat.le_refl _), if_neg (by omega), Function.update_self, Nat.sub_self]
    rfl
  · rw [if_pos (by omega), if_pos (by omega), Function.update_of_ne (by omega),
      show k - i = (k - (i + 1)) + 1 by omega, List.getD_cons_succ]

theorem store_of_not_mem {k : ℕ} (h : k < i ∨ i + l.length ≤ k) : store f i l k = f k := by
  unfold store
  split
  · rw [List.getD_eq_getElem?_getD, List.getElem?_eq_none (by omega), Option.getD_none]
  · rfl

theorem store_load {g : ℕ → α} {k : ℕ} (hi : i ≤ k) (hn : k < i + n) : store f i (load g i n) k = g k := by
  obtain ⟨j, rfl⟩ := Nat.exists_eq_add_of_le hi
  have hj : j < (load g i n).length := by
    rw [length_load]
    omega
  rw [store, if_pos hi, Nat.add_sub_cancel_left, List.getD_eq_getElem?_getD, List.getElem?_eq_getElem hj, Option.getD_some]
  simp only [load, List.getElem_map, List.getElem_range]

theorem store_append (l l' : List α) : store (store f i l) (i + l.length) l' = store f i (l ++ l') := by
  induction l generalizing f i with
  | nil => rw [store_nil, List.length_nil, Nat.add_zero, List.nil_append]
  | cons c l ih =>
      rw [store_cons, List.cons_append, store_cons, ← ih, List.length_cons, Nat.add_assoc, Nat.add_comm 1]

end Grbl.Lib
