import Mathlib

/-!
# Elements in the order of their keys

* `StableSorted key l s` : `s` are the elements of `l` in the order of their keys, and those of one key in the order of `l`;
* `StableSorted.perm`, `StableSorted.insert`, `StableSorted.remove`.
-/

namespace Grbl.Lib

variable {α β : Type*} [LinearOrder β] {key : α → β} {l s₁ s₂ : List α} {a : α}

/-- `s` are the elements of `l` in the order of their keys, and those of one key in the order of `l`. -/
structure StableSorted (key : α → β) (l s : List α) : Prop where
  sorted : s.Pairwise (key · ≤ key ·)
  stable : ∀ k, s.filter (key · = k) = l.filter (key · = k)

namespace StableSorted

theorem nil : StableSorted key [] [] := ⟨.nil, fun _ => rfl⟩

theorem perm (h : StableSorted key l s₁) : s₁.Perm l := by
  classical
  rw [List.perm_iff_count]
  intro a
  have hcount : ∀ m : List α, (m.filter (key · = key a)).count a = m.count a := fun m => List.count_filter (by simp)
  rw [← hcount s₁, h.stable, hcount]

theorem insert (h : StableSorted key l (s₁ ++ s₂)) (hle : ∀ b ∈ s₁, key b ≤ key a) (hlt : ∀ b ∈ s₂, key a < key b) :
    StableSorted key (l ++ [a]) (s₁ ++ a :: s₂) := by
  obtain ⟨h₁, h₂, h₁₂⟩ := List.pairwise_append.1 h.sorted
  refine ⟨List.pairwise_append.2 ⟨h₁, List.pairwise_cons.2 ⟨fun b hb => (hlt b hb).le, h₂⟩, ?_⟩, fun k => ?_⟩
  · intro b hb c hc
    obtain rfl | hc := List.mem_cons.1 hc
    · exact hle b hb
    · exact h₁₂ b hb c hc
  · rw [List.filter_append, List.filter_append, ← h.stable k, List.filter_append]
    by_cases hk : key a = k
    · have hnone : s₂.filter (key · = k) = [] := by
        rw [List.filter_eq_nil_iff]
        intro b hb
        simpa [← hk] using (hlt b hb).ne'
      rw [List.filter_cons_of_pos (by simpa using hk), hnone, List.append_nil]
      simp [hk]
    · rw [List.filter_cons_of_neg (by simpa using hk)]
      simp [hk]

/-- An element is taken out: `l` has it too. -/
theorem remove (h : StableSorted key l (s₁ ++ a :: s₂)) : ∃ l₁ l₂, l = l₁ ++ a :: l₂ ∧ StableSorted key (l₁ ++ l₂) (s₁ ++ s₂) := by
  have hfilter := h.stable (key a)
  rw [List.filter_append, List.filter_cons_of_pos (by simp)] at hfilter
  obtain ⟨l₁, l', rfl, h₁, h'⟩ := List.filter_eq_append_iff.1 hfilter.symm
  obtain ⟨l₂, l₃, rfl, hnone, ha, h₃⟩ := List.filter_eq_cons_iff.1 h'
  refine ⟨l₁ ++ l₂, l₃, (List.append_assoc ..).symm, ?_, fun k => ?_⟩
  · exact h.sorted.sublist ((List.Sublist.refl s₁).append (List.sublist_cons_self a s₂))
  · by_cases hk : key a = k
    · subst hk
      have hnone : l₂.filter (key · = key a) = [] := List.filter_eq_nil_iff.2 hnone
      rw [List.filter_append, List.filter_append, List.filter_append, h₁, h₃, hnone, List.append_nil]
    · have hnot : ∀ m, (a :: m).filter (key · = k) = m.filter (key · = k) := fun m => List.filter_cons_of_neg (by simpa using hk)
      have hother := h.stable k
      simp only [List.filter_append, hnot] at hother ⊢
      rw [hother, List.append_assoc]

end StableSorted

end Grbl.Lib
