import Mathlib

/-!
# A heap of nodes

Nodes are numbered in the order of their allocation. A node that is read or freed after it has been
freed is recorded as a fault.

* `Live`, `read`, `free`, `alloc`, `readAll`, `freeAll` : the heap;
* `readAll_of_live` : reading live nodes leaves the heap as it is;
* `freeAll_of_live` : freeing live nodes, each once, is no fault.
-/

namespace Grbl.Lib

/-- The number of nodes allocated, those freed, and those used after that. -/
structure Heap where
  allocated : ℕ
  freed : List ℕ
  faults : List ℕ

namespace Heap

def Live (h : Heap) (n : ℕ) : Prop := n < h.allocated ∧ n ∉ h.freed

instance (h : Heap) (n : ℕ) : Decidable (h.Live n) := inferInstanceAs (Decidable (_ ∧ _))

def read (h : Heap) (n : ℕ) : Heap := if h.Live n then h else { h with faults := n :: h.faults }

/-- The node is read first, for the one that follows it. -/
def free (h : Heap) (n : ℕ) : Heap := { h.read n with freed := n :: h.freed }

/-- The new node is the one numbered `allocated`. -/
def alloc (h : Heap) : Heap := { h with allocated := h.allocated + 1 }

def readAll (h : Heap) (ns : List ℕ) : Heap := ns.foldl read h

def freeAll (h : Heap) (ns : List ℕ) : Heap := ns.foldl free h

variable {h : Heap} {n : ℕ} {ns : List ℕ}

theorem read_of_live (hn : h.Live n) : h.read n = h := if_pos hn

theorem readAll_of_live (hns : ∀ n ∈ ns, h.Live n) : h.readAll ns = h := by
  induction ns with
  | nil => rfl
  | cons n ns ih =>
      rw [readAll, List.foldl_cons, read_of_live (hns n List.mem_cons_self)]
      exact ih fun k hk => hns k (List.mem_cons_of_mem _ hk)

theorem freeAll_of_live : ∀ {h : Heap} {ns : List ℕ}, ns.Nodup → (∀ n ∈ ns, h.Live n) →
    h.freeAll ns = { h with freed := ns.reverse ++ h.freed } := by
  intro h ns
  induction ns generalizing h with
  | nil => exact fun _ _ => rfl
  | cons n ns ih =>
      intro hnd hlive
      obtain ⟨hn, hnd⟩ := List.nodup_cons.1 hnd
      have hfree : h.free n = { h with freed := n :: h.freed } := by
        rw [free, read_of_live (hlive n List.mem_cons_self)]
      have hrest : ∀ k ∈ ns, (h.free n).Live k := by
        intro k hk
        obtain ⟨hlt, hnot⟩ := hlive k (List.mem_cons_of_mem _ hk)
        rw [hfree]
        refine ⟨hlt, fun hmem => ?_⟩
        rcases List.mem_cons.1 hmem with rfl | hmem
        · exact hn hk
        · exact hnot hmem
      have hih := ih hnd hrest
      rw [freeAll, List.foldl_cons]
      rw [freeAll] at hih
      rw [hih, hfree, List.reverse_cons, List.append_assoc]
      rfl

end Heap

end Grbl.Lib
