import Mathlib

/-!
# Things in slots

* `Placed` : each thing of a set is in one of the slots below a bound, and nothing else is in them;
* `Placed.comp` : the slots are permuted; `rotate`, `Placed.rotate` : one thing goes behind others;
  `Placed.swap` : two slots are exchanged;
* `fill`, `Placed.fill` : further things are put into empty slots.
-/

namespace Grbl.Lib

variable {α : Type*} {empty : α} {n i j : ℕ} {S : Set α} {map : ℕ → α}

structure Placed (empty : α) (n : ℕ) (S : Set α) (map : ℕ → α) : Prop where
  lt : ∀ i, map i ≠ empty → i < n
  mem : ∀ i, map i ≠ empty → map i ∈ S
  somewhere : ∀ x ∈ S, ∃ i, map i = x
  injective : ∀ i j, map i ≠ empty → map i = map j → i = j
  empty_notMem : empty ∉ S

namespace Placed

theorem ne_empty (h : Placed empty n S map) {x : α} (hx : x ∈ S) : x ≠ empty := by
  rintro rfl
  exact h.empty_notMem hx

theorem existsUnique (h : Placed empty n S map) {x : α} (hx : x ∈ S) : ∃! i, i < n ∧ map i = x := by
  obtain ⟨i, rfl⟩ := h.somewhere x hx
  have hne := h.ne_empty hx
  exact ⟨i, ⟨h.lt i hne, rfl⟩, fun j hj => (h.injective i j hne hj.2.symm).symm⟩

theorem comp (h : Placed empty n S map) (σ : Equiv.Perm ℕ) (hσ : ∀ i, σ i < n → i < n) : Placed empty n S (map ∘ σ) where
  lt i hi := hσ i (h.lt _ hi)
  mem i hi := h.mem _ hi
  somewhere x hx := by
    obtain ⟨i, hi⟩ := h.somewhere x hx
    exact ⟨σ.symm i, by rw [Function.comp_apply, Equiv.apply_symm_apply, hi]⟩
  injective i j hi hij := σ.injective (h.injective _ _ hi hij)
  empty_notMem := h.empty_notMem

theorem swap (h : Placed empty n S map) (hi : i < n) (hj : j < n) :
    Placed empty n S (Function.update (Function.update map i (map j)) j (map i)) := by
  have heq : Function.update (Function.update map i (map j)) j (map i) = map ∘ Equiv.swap i j := by
    funext k
    by_cases hkj : k = j
    · subst hkj
      rw [Function.update_self, Function.comp_apply, Equiv.swap_apply_right]
    · by_cases hki : k = i
      · subst hki
        rw [Function.update_of_ne hkj, Function.update_self, Function.comp_apply, Equiv.swap_apply_left]
      · rw [Function.update_of_ne hkj, Function.update_of_ne hki, Function.comp_apply, Equiv.swap_apply_of_ne_of_ne hki hkj]
  rw [heq]
  refine h.comp _ fun k hk => ?_
  by_cases hkj : k = j
  · exact hkj ▸ hj
  · by_cases hki : k = i
    · exact hki ▸ hi
    · rwa [Equiv.swap_apply_of_ne_of_ne hki hkj] at hk

end Placed

/-! ## One thing goes behind others -/

/-- Slot `i` goes to `j`, and those in between come one nearer. -/
def rotation (h : i ≤ j) : Equiv.Perm ℕ where
  toFun k := if k < i ∨ j < k then k else if k = j then i else k + 1
  invFun k := if k < i ∨ j < k then k else if k = i then j else k - 1
  left_inv k := by
    dsimp only
    split_ifs <;> omega
  right_inv k := by
    dsimp only
    split_ifs <;> omega

def rotate (map : ℕ → α) (i j : ℕ) (k : ℕ) : α :=
  if k < i ∨ j < k then map k else if k = j then map i else map (k + 1)

theorem rotate_eq (map : ℕ → α) (h : i ≤ j) : rotate map i j = map ∘ rotation h := by
  funext k
  rw [rotate, Function.comp_apply, rotation, Equiv.coe_fn_mk]
  split_ifs <;> rfl

theorem Placed.rotate (h : Placed empty n S map) (hij : i ≤ j) (hj : j < n) : Placed empty n S (rotate map i j) := by
  rw [rotate_eq map hij]
  refine h.comp _ fun k hk => ?_
  rw [rotation, Equiv.coe_fn_mk] at hk
  split_ifs at hk <;> omega

theorem rotate_of_lt (map : ℕ → α) {k : ℕ} (h : j < k) : rotate map i j k = map k := if_pos (.inr h)

theorem rotate_last (map : ℕ → α) (h : i ≤ j) : rotate map i j j = map i := by
  rw [rotate, if_neg (by omega), if_pos rfl]

/-! ## Further things -/

/-- `k` things are put into the slots from `i` on. -/
def fill (map : ℕ → α) (new : ℕ → α) (i k : ℕ) (j : ℕ) : α := if i ≤ j ∧ j < i + k then new (j - i) else map j

theorem fill_zero (map new : ℕ → α) (i : ℕ) : fill map new i 0 = map := by
  funext j
  rw [fill, if_neg (by omega)]

theorem fill_succ (map new : ℕ → α) (i k : ℕ) : fill map new i (k + 1) = Function.update (fill map new i k) (i + k) (new k) := by
  funext j
  by_cases hj : j = i + k
  · subst hj
    rw [Function.update_self, fill, if_pos (by omega), Nat.add_sub_cancel_left]
  · rw [Function.update_of_ne hj, fill, fill]
    by_cases h : i ≤ j ∧ j < i + k
    · rw [if_pos h, if_pos (by omega)]
    · rw [if_neg h, if_neg (by omega)]

theorem Placed.fill (h : Placed empty n S map) {new : ℕ → α} {k : ℕ} (hempty : ∀ j < k, i + j < n ∧ map (i + j) = empty)
    (hnew : ∀ j < k, new j ∉ S ∧ new j ≠ empty) (hinj : ∀ j < k, ∀ j' < k, new j = new j' → j = j') :
    Placed empty n {x | x ∈ S ∨ ∃ j < k, new j = x} (fill map new i k) := by
  have hin : ∀ j < k, Lib.fill map new i k (i + j) = new j := fun j hj => by
    rw [Lib.fill, if_pos (by omega), Nat.add_sub_cancel_left]
  have hout : ∀ j, ¬ (i ≤ j ∧ j < i + k) → Lib.fill map new i k j = map j := fun j hj => if_neg hj
  have hsplit : ∀ j, (∃ l < k, j = i + l) ∨ ¬ (i ≤ j ∧ j < i + k) := by
    intro j
    by_cases hj : i ≤ j ∧ j < i + k
    · exact .inl ⟨j - i, by omega, by omega⟩
    · exact .inr hj
  have hold : ∀ x ∈ S, ∃ j, ¬ (i ≤ j ∧ j < i + k) ∧ map j = x := by
    intro x hx
    obtain ⟨j, rfl⟩ := h.somewhere x hx
    refine ⟨j, fun hj => h.ne_empty hx ?_, rfl⟩
    have := (hempty (j - i) (by omega)).2
    rwa [Nat.add_sub_cancel' hj.1] at this
  exact
    { lt := by
        intro j hj
        obtain ⟨l, hl, rfl⟩ | hj' := hsplit j
        · exact (hempty l hl).1
        · exact h.lt j (hout j hj' ▸ hj)
      mem := by
        intro j hj
        obtain ⟨l, hl, rfl⟩ | hj' := hsplit j
        · exact .inr ⟨l, hl, (hin l hl).symm⟩
        · rw [hout j hj'] at hj ⊢
          exact .inl (h.mem j hj)
      somewhere := by
        rintro x (hx | ⟨l, hl, rfl⟩)
        · obtain ⟨j, hj, rfl⟩ := hold x hx
          exact ⟨j, hout j hj⟩
        · exact ⟨i + l, hin l hl⟩
      injective := by
        intro j j' hj heq
        obtain ⟨l, hl, rfl⟩ | hj₁ := hsplit j <;> obtain ⟨l', hl', rfl⟩ | hj₂ := hsplit j'
        · rw [hin l hl, hin l' hl'] at heq
          rw [hinj l hl l' hl' heq]
        · rw [hin l hl] at hj heq
          rw [hout j' hj₂] at heq
          exact absurd (heq ▸ h.mem j' (heq ▸ hj)) (hnew l hl).1
        · rw [hout j hj₁] at hj heq
          rw [hin l' hl'] at heq
          exact absurd (heq ▸ h.mem j hj) (hnew l' hl').1
        · rw [hout j hj₁] at hj heq
          rw [hout j' hj₂] at heq
          exact h.injective j j' hj heq
      empty_notMem := by
        rintro (hx | ⟨l, hl, hl'⟩)
        · exact h.empty_notMem hx
        · exact (hnew l hl).2 hl' }

end Grbl.Lib
