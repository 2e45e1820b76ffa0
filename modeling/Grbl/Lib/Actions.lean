import Mathlib

/-!
# Actions that may be refused

A state is changed by actions, each of which may be refused; a run ends at the first refusal.

* `Actions`, `Actions.act`, `Actions.run`;
* `Actions.Commute`, `Actions.run_perm` : actions that commute may be run in any order;
* `Actions.run_mem`, `Actions.run_keeps` : what holds at the end of a run.
-/

namespace Grbl.Lib
variable {α σ : Type*}

structure Actions (α σ : Type*) where
  accepts : α → σ → Bool
  write : α → σ → σ

namespace Actions
variable (A : Actions α σ)

/-- An action; `none` when it is refused. -/
def act (s : σ) (a : α) : Option σ := if A.accepts a s then some (A.write a s) else none

/-- The actions one after the other. -/
def run (l : List α) (s : σ) : Option σ := l.foldl (fun s a => s.bind (A.act · a)) (some s)

/-- The order of the two does not matter. -/
structure Commute (a a' : α) : Prop where
  accepts : ∀ s, (A.accepts a s && A.accepts a' (A.write a s)) = (A.accepts a' s && A.accepts a (A.write a' s))
  write : ∀ s, (A.accepts a s && A.accepts a' (A.write a s)) = true → A.write a' (A.write a s) = A.write a (A.write a' s)

variable {A}

theorem Commute.symm {a a' : α} (h : A.Commute a a') : A.Commute a' a :=
  ⟨fun s => (h.accepts s).symm, fun s hs => (h.write s ((h.accepts s).trans hs)).symm⟩

theorem act_act (s : σ) (a a' : α) :
    (A.act s a).bind (A.act · a') =
      if A.accepts a s && A.accepts a' (A.write a s) then some (A.write a' (A.write a s)) else none := by
  cases h : A.accepts a s <;> simp [act, h]

theorem Commute.act {a a' : α} (h : A.Commute a a') (s : σ) : (A.act s a).bind (A.act · a') = (A.act s a').bind (A.act · a) := by
  rw [act_act, act_act, ← h.accepts]
  split
  · rw [h.write s ‹_›]
  · rfl

theorem run_none (l : List α) : l.foldl (fun s a => s.bind (A.act · a)) none = none := by
  induction l with
  | nil => rfl
  | cons a l ih => exact ih

@[simp] theorem run_nil (s : σ) : A.run [] s = some s := rfl

theorem run_cons (a : α) (l : List α) (s : σ) : A.run (a :: l) s = if A.accepts a s then A.run l (A.write a s) else none := by
  rw [run, List.foldl_cons, Option.bind_some, act]
  split
  · rfl
  · exact run_none l

theorem run_perm {l l' : List α} (hperm : l.Perm l') (h : ∀ a ∈ l, ∀ a' ∈ l, A.Commute a a') (s : σ) : A.run l s = A.run l' s := by
  refine hperm.foldl_eq' (fun a ha a' ha' s => ?_) (some s)
  cases s with
  | none => rfl
  | some s => exact (h a ha a' ha').act s

theorem run_keeps {P : σ → Prop} {l : List α} (h : ∀ a ∈ l, ∀ s, P s → A.accepts a s = true → P (A.write a s)) {s s' : σ}
    (hrun : A.run l s = some s') (hs : P s) : P s' := by
  induction l generalizing s with
  | nil => exact Option.some.inj hrun ▸ hs
  | cons a l ih =>
      rw [run_cons] at hrun
      split at hrun
      · exact ih (fun b hb => h b (List.mem_cons_of_mem _ hb)) hrun (h a List.mem_cons_self s hs ‹_›)
      · exact nomatch hrun

theorem run_mem {l : List α} {s s' : σ} (hrun : A.run l s = some s') {a : α} (ha : a ∈ l) :
    ∃ t rest, A.accepts a t = true ∧ rest ⊆ l ∧ A.run rest (A.write a t) = some s' := by
  induction l generalizing s with
  | nil => exact absurd ha List.not_mem_nil
  | cons b l ih =>
      rw [run_cons] at hrun
      split at hrun
      · rcases List.mem_cons.1 ha with rfl | ha
        · exact ⟨s, l, ‹_›, List.subset_cons_self _ _, hrun⟩
        · obtain ⟨t, rest, ht, hrest, hrun⟩ := ih hrun ha
          exact ⟨t, rest, ht, fun c hc => List.mem_cons_of_mem _ (hrest hc), hrun⟩
      · exact nomatch hrun

end Actions

end Grbl.Lib
