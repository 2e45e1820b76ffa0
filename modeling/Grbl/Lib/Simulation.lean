import Mathlib

/-!
# Steps of a partial function, and forward simulation

* `steps f n s` : the state after `n` steps, when all of them are possible;
* `steps_add`, `steps_of_le`, `steps_stops` : runs compose, are cut short, and stop;
* `steps_simulation` : when every step of one machine is simulated by at least one step of another, every run
  of the first is simulated by a run of the second that is at least as long.
-/

namespace Grbl.Lib

variable {σ τ : Type*}

def steps (f : σ → Option σ) : ℕ → σ → Option σ
  | 0, s => some s
  | n + 1, s => (f s).bind (steps f n)

section
variable {f : σ → Option σ} {g : τ → Option τ}

@[simp] theorem steps_zero (s : σ) : steps f 0 s = some s := rfl

theorem steps_succ (n : ℕ) (s : σ) : steps f (n + 1) s = (f s).bind (steps f n) := rfl

@[simp] theorem steps_one (s : σ) : steps f 1 s = f s := by
  rw [steps_succ]
  cases f s <;> rfl

theorem steps_succ_of_some {n : ℕ} {s t : σ} (h : f s = some t) : steps f (n + 1) s = steps f n t := by
  rw [steps_succ, h, Option.bind_some]

theorem steps_add (m n : ℕ) (s : σ) : steps f (m + n) s = (steps f m s).bind (steps f n) := by
  induction m generalizing s with
  | zero => rw [Nat.zero_add, steps_zero, Option.bind_some]
  | succ m ih =>
      rw [Nat.succ_add, steps_succ, steps_succ]
      cases f s with
      | none => rfl
      | some t => exact ih t

theorem steps_trans {m n : ℕ} {s t u : σ} (hm : steps f m s = some t) (hn : steps f n t = some u) :
    steps f (m + n) s = some u := by rw [steps_add, hm, Option.bind_some, hn]

theorem steps_of_le {m n : ℕ} {s u : σ} (hle : m ≤ n) (hn : steps f n s = some u) :
    ∃ t, steps f m s = some t ∧ steps f (n - m) t = some u := by
  obtain ⟨k, rfl⟩ := Nat.exists_eq_add_of_le hle
  rw [steps_add, Option.bind_eq_some_iff] at hn
  simpa using hn

theorem steps_stops {n : ℕ} {s : σ} (h : steps f n s = none) :
    ∃ m t, m < n ∧ steps f m s = some t ∧ f t = none := by
  induction n generalizing s with
  | zero => cases h
  | succ n ih =>
      cases hs : f s with
      | none => exact ⟨0, s, Nat.succ_pos n, rfl, hs⟩
      | some u =>
          rw [steps_succ_of_some hs] at h
          obtain ⟨m, t, hm, ht, hstop⟩ := ih h
          exact ⟨m + 1, t, Nat.succ_lt_succ hm, by rw [steps_succ_of_some hs, ht], hstop⟩

theorem steps_invariant {P : σ → Prop} (hstep : ∀ s t, P s → f s = some t → P t) {n : ℕ} {s t : σ}
    (hs : P s) (h : steps f n s = some t) : P t := by
  induction n generalizing s with
  | zero =>
      cases h
      exact hs
  | succ n ih =>
      obtain ⟨u, hu, ht⟩ := Option.bind_eq_some_iff.1 h
      exact ih (hstep s u hs hu) ht

theorem steps_simulation {R : σ → τ → Prop}
    (hstep : ∀ s s' t, R s t → f s = some s' → ∃ k t', 0 < k ∧ steps g k t = some t' ∧ R s' t')
    {n : ℕ} {s s' : σ} {t : τ} (hR : R s t) (h : steps f n s = some s') :
    ∃ k t', n ≤ k ∧ steps g k t = some t' ∧ R s' t' := by
  induction n generalizing s t with
  | zero =>
      cases h
      exact ⟨0, t, Nat.le_refl _, rfl, hR⟩
  | succ n ih =>
      obtain ⟨u, hu, hs'⟩ := Option.bind_eq_some_iff.1 h
      obtain ⟨k₁, t₁, hk₁, ht₁, hR₁⟩ := hstep s u t hR hu
      obtain ⟨k₂, t₂, hk₂, ht₂, hR₂⟩ := ih hR₁ hs'
      exact ⟨k₁ + k₂, t₂, by omega, steps_trans ht₁ ht₂, hR₂⟩

end

end Grbl.Lib
