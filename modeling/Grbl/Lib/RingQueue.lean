import Mathlib
import Grbl.Lib.Ring

/-!
# A queue in a ring buffer

The slots from `tail` up to `head` hold the queue, oldest entry first.

* `contents` : the queue, `length_contents` : its length;
* `contents_self`, `contents_eq_nil` : the empty queue;
* `contents_push`, `ringNext_ne_of_lt` : an entry is added while a slot stays free;
* `contents_pop` : the oldest entry is taken;
* `contents_congr`, `contents_update` : only the slots of the queue matter;
* `Free` : the slots that are not of the queue.
-/

namespace Grbl.Lib

variable {α : Type*} {top tail head : ℕ} {data data' : ℕ → α}

/-- The entries of the slots from `tail` up to `head`. -/
def contents (top : ℕ) (data : ℕ → α) (tail head : ℕ) : List α :=
  (List.range (count top tail head)).map fun k => data (slot top tail k)

@[simp] theorem length_contents : (contents top data tail head).length = count top tail head := by
  rw [contents, List.length_map, List.length_range]

@[simp] theorem contents_self : contents top data tail tail = [] := by
  rw [contents, count, if_pos le_rfl, Nat.sub_self]
  rfl

theorem contents_eq_nil (ht : tail < top + 1) : contents top data tail head = [] ↔ tail = head := by
  rw [← List.length_eq_zero_iff, length_contents, count_eq_zero ht]

theorem contents_congr (h : ∀ k < count top tail head, data' (slot top tail k) = data (slot top tail k)) :
    contents top data' tail head = contents top data tail head := by
  refine List.map_congr_left fun k hk => ?_
  exact h k (List.mem_range.1 hk)

/-- A slot at or behind `head` is not one of the queue. -/
theorem contents_update (ht : tail < top + 1) (hh : head < top + 1) (x : α) :
    contents top (Function.update data head x) tail head = contents top data tail head := by
  refine contents_congr fun k hk => Function.update_of_ne ?_ _ _
  intro he
  have hcount := count_lt ht hh
  rw [← slot_count ht hh] at he
  exact absurd (slot_inj (by omega) hcount he) (by omega)

/-- There is a free slot behind `head` as long as the queue has fewer than `top` entries. -/
theorem ringNext_ne_iff (ht : tail < top + 1) (hh : head < top + 1) :
    ringNext top head ≠ tail ↔ count top tail head < top := by
  unfold ringNext count
  split <;> split <;> omega

theorem count_push (ht : tail < top + 1) (hh : head < top + 1) (hfree : ringNext top head ≠ tail) :
    count top tail (ringNext top head) = count top tail head + 1 := by
  have hlt := (ringNext_ne_iff ht hh).1 hfree
  have hnext : ringNext top head = slot top tail (count top tail head + 1) := by
    rw [← ringNext_slot, slot_count ht hh]
  rw [hnext, count_slot ht (by omega)]

theorem contents_push (ht : tail < top + 1) (hh : head < top + 1) (hfree : ringNext top head ≠ tail) (x : α) :
    contents top (Function.update data head x) tail (ringNext top head) = contents top data tail head ++ [x] := by
  rw [← contents_update ht hh x, contents, contents, count_push ht hh hfree, List.range_succ, List.map_append,
    List.map_singleton, slot_count ht hh, Function.update_self]

theorem count_pop (ht : tail < top + 1) (hh : head < top + 1) (hne : tail ≠ head) :
    count top tail head = count top (ringNext top tail) head + 1 := by
  unfold ringNext count
  split <;> split <;> split <;> omega

theorem contents_pop (ht : tail < top + 1) (hh : head < top + 1) (hne : tail ≠ head) :
    contents top data tail head = data tail :: contents top data (ringNext top tail) head := by
  rw [contents, count_pop ht hh hne, List.range_succ_eq_map, List.map_cons, slot_zero ht, List.map_map]
  refine congrArg _ (List.map_congr_left fun k _ => ?_)
  rw [Function.comp_apply, ringNext_eq ht, slot_add, Nat.add_comm 1 k]

def Free (top tail head i : ℕ) : Prop := ∀ k < count top tail head, slot top tail k ≠ i

theorem contents_update_of_free {i : ℕ} (h : Free top tail head i) (x : α) :
    contents top (Function.update data i x) tail head = contents top data tail head :=
  contents_congr fun k hk => Function.update_of_ne (h k hk) _ _

theorem free_self (ht : tail < top + 1) (i : ℕ) : Free top tail tail i := by
  intro k hk
  rw [(count_eq_zero ht).2 rfl] at hk
  exact absurd hk (Nat.not_lt_zero k)

theorem free_pop (ht : tail < top + 1) (hh : head < top + 1) (hne : tail ≠ head) :
    Free top (ringNext top tail) head tail := by
  intro k hk he
  have hlt := count_lt ht hh
  rw [count_pop ht hh hne] at hlt
  rw [ringNext_eq ht, slot_add] at he
  have hzero : 1 + k = 0 := slot_inj (t := tail) (by omega) (by omega) (he.trans (slot_zero ht).symm)
  omega

theorem Free.push {i : ℕ} (h : Free top tail head i) (ht : tail < top + 1) (hh : head < top + 1)
    (hfree : ringNext top head ≠ tail) (hne : i ≠ head) : Free top tail (ringNext top head) i := by
  intro k hk
  rw [count_push ht hh hfree] at hk
  by_cases hlast : k = count top tail head
  · rw [hlast, slot_count ht hh]
    exact hne.symm
  · exact h k (by omega)

end Grbl.Lib
