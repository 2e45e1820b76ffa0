import Mathlib

/-!
# Requests and what has become of them

Requests are numbered as they come. Some are being worked on; all others have been settled.

* `Ledger` : what is known of them;
* `Ledger.start` : nothing has been requested; `Ledger.open`, `Ledger.reject` : a request comes, and is taken or settled;
* `Ledger.advance`, `Ledger.settle` : a request is worked on, and settled.
-/

namespace Grbl.Lib

variable {φ : Type*}

/-- Of `n` requests those of `live` are being worked on, in the phases given there. -/
structure Ledger (Settled : φ → Prop) (unknown : φ) (n : ℕ) (live : List (ℕ × φ)) (phase : ℕ → φ) : Prop where
  nodup : (live.map Prod.fst).Nodup
  lt : ∀ x ∈ live, x.1 < n
  phase_eq : ∀ x ∈ live, phase x.1 = x.2
  unknown_of_le : ∀ i, n ≤ i → phase i = unknown
  settled : ∀ i < n, i ∉ live.map Prod.fst → Settled (phase i)

namespace Ledger

variable {Settled : φ → Prop} {unknown x y : φ} {n i : ℕ} {live front rest : List (ℕ × φ)} {phase : ℕ → φ}

theorem start : Ledger Settled unknown 0 [] fun _ => unknown where
  nodup := List.nodup_nil
  lt := nofun
  phase_eq := nofun
  unknown_of_le _ _ := rfl
  settled _ h := absurd h (Nat.not_lt_zero _)

theorem notMem (h : Ledger Settled unknown n (front ++ (i, x) :: rest) phase) : i ∉ (front ++ rest).map Prod.fst := by
  have hnodup := h.nodup
  rw [List.map_append, List.map_cons] at hnodup
  rw [List.map_append]
  exact (List.nodup_middle.1 hnodup).notMem

theorem advance (h : Ledger Settled unknown n (front ++ (i, x) :: rest) phase) (y : φ) :
    Ledger Settled unknown n (front ++ (i, y) :: rest) (Function.update phase i y) := by
  have hmap : (front ++ (i, y) :: rest).map Prod.fst = (front ++ (i, x) :: rest).map Prod.fst := by simp
  have hi : i < n := h.lt (i, x) (by simp)
  have hother : ∀ z ∈ front ++ rest, z.1 ≠ i := by
    intro z hz he
    exact h.notMem (he ▸ List.mem_map_of_mem hz)
  have hmem : ∀ z ∈ front ++ (i, y) :: rest, z = (i, y) ∨ z ∈ front ++ rest := by
    intro z hz
    simp only [List.mem_append, List.mem_cons] at hz ⊢
    tauto
  have hold : ∀ z ∈ front ++ rest, z ∈ front ++ (i, x) :: rest := by
    intro z hz
    simp only [List.mem_append, List.mem_cons] at hz ⊢
    tauto
  exact
    { nodup := hmap ▸ h.nodup
      lt := by
        intro z hz
        obtain rfl | hz := hmem z hz
        · exact hi
        · exact h.lt z (hold z hz)
      phase_eq := by
        intro z hz
        obtain rfl | hz := hmem z hz
        · exact Function.update_self ..
        · rw [Function.update_of_ne (hother z hz)]
          exact h.phase_eq z (hold z hz)
      unknown_of_le := by
        intro j hj
        rw [Function.update_of_ne (by omega)]
        exact h.unknown_of_le j hj
      settled := by
        intro j hj hnot
        rw [hmap] at hnot
        have hne : j ≠ i := by
          rintro rfl
          exact hnot (by simp)
        rw [Function.update_of_ne hne]
        exact h.settled j hj hnot }

theorem settle (h : Ledger Settled unknown n (front ++ (i, x) :: rest) phase) (hy : Settled y) :
    Ledger Settled unknown n (front ++ rest) (Function.update phase i y) := by
  have ha := h.advance y
  have hi : i < n := h.lt (i, x) (by simp)
  have hsub : (front ++ rest).Sublist (front ++ (i, y) :: rest) := (List.sublist_cons_self _ _).append_left front
  exact
    { nodup := ha.nodup.sublist (hsub.map _)
      lt := fun z hz => ha.lt z (hsub.subset hz)
      phase_eq := fun z hz => ha.phase_eq z (hsub.subset hz)
      unknown_of_le := ha.unknown_of_le
      settled := by
        intro j hj hnot
        by_cases hji : j = i
        · rw [hji, Function.update_self]
          exact hy
        · refine ha.settled j hj ?_
          simp only [List.map_append, List.map_cons, List.mem_append, List.mem_cons] at hnot ⊢
          tauto }

theorem «open» (h : Ledger Settled unknown n (front ++ rest) phase) (y : φ) :
    Ledger Settled unknown (n + 1) (front ++ (n, y) :: rest) (Function.update phase n y) := by
  have hnot : n ∉ (front ++ rest).map Prod.fst := by
    intro hn
    obtain ⟨z, hz, he⟩ := List.mem_map.1 hn
    exact absurd (h.lt z hz) (by omega)
  have hmem : ∀ z ∈ front ++ (n, y) :: rest, z = (n, y) ∨ z ∈ front ++ rest := by
    intro z hz
    simp only [List.mem_append, List.mem_cons] at hz ⊢
    tauto
  exact
    { nodup := by
        rw [List.map_append, List.map_cons]
        refine List.nodup_middle.2 (List.nodup_cons.2 ⟨?_, ?_⟩)
        · rwa [← List.map_append]
        · rw [← List.map_append]
          exact h.nodup
      lt := by
        intro z hz
        obtain rfl | hz := hmem z hz
        · exact Nat.lt_succ_self n
        · exact Nat.lt_succ_of_lt (h.lt z hz)
      phase_eq := by
        intro z hz
        obtain rfl | hz := hmem z hz
        · exact Function.update_self ..
        · rw [Function.update_of_ne (by have := h.lt z hz; omega)]
          exact h.phase_eq z hz
      unknown_of_le := by
        intro j hj
        rw [Function.update_of_ne (by omega)]
        exact h.unknown_of_le j (by omega)
      settled := by
        intro j hj hout
        simp only [List.map_append, List.map_cons, List.mem_append, List.mem_cons, not_or] at hout
        rw [Function.update_of_ne hout.2.1]
        refine h.settled j (by omega) ?_
        simp only [List.map_append, List.mem_append, not_or]
        exact ⟨hout.1, hout.2.2⟩ }

theorem reject (h : Ledger Settled unknown n live phase) (hy : Settled y) :
    Ledger Settled unknown (n + 1) live (Function.update phase n y) := by
  have hnil : Ledger Settled unknown n ([] ++ live) phase := h
  have ho : Ledger Settled unknown (n + 1) ([] ++ (n, y) :: live) (Function.update phase n y) := hnil.open y
  have hs := ho.settle hy
  rwa [Function.update_idem] at hs

end Ledger

end Grbl.Lib
