import Mathlib

/-!
# Runs of a partial step function

* `run step s as` : the state after the actions `as`, when every one of them is enabled;
* `run_append`, `run_concat` : runs compose;
* `run_invariant` : what every step preserves, every run preserves;
* `Along step P s as` : `P` holds of every state and action the run meets;
* `along_of_forall` : a condition on the actions alone; `along_append` : along a composed run;
  `Along.and` : two conditions;
* `Along.decidable` : it can be evaluated;
* `run_invariant_along` : what every step under `P` preserves, every run along `P` preserves;
* `always_iff_along` : what holds all along a run exactly if every step is taken under `P`;
* `run_refines_along` : so is the relation to a reference that follows the same actions.
-/

namespace Grbl.Lib

variable {σ α : Type*}

/-- The state after a list of actions; `none` when one of them is not enabled. -/
def run (step : σ → α → Option σ) : σ → List α → Option σ
  | s, [] => some s
  | s, a :: as => (step s a).bind fun s' => run step s' as

/-- `P` holds of every state a run meets together with the action it takes there. -/
def Along (step : σ → α → Option σ) (P : σ → α → Prop) : σ → List α → Prop
  | _, [] => True
  | s, a :: as => P s a ∧ ∀ s', step s a = some s' → Along step P s' as

section
variable {step : σ → α → Option σ}

@[simp] theorem run_nil (s : σ) : run step s [] = some s := rfl

theorem run_cons (s : σ) (a : α) (as : List α) :
    run step s (a :: as) = (step s a).bind fun s' => run step s' as := rfl

theorem run_cons_eq_some {s s' : σ} {a : α} {as : List α} :
    run step s (a :: as) = some s' ↔ ∃ t, step s a = some t ∧ run step t as = some s' := by
  rw [run_cons, Option.bind_eq_some_iff]

theorem run_append (s : σ) (as bs : List α) :
    run step s (as ++ bs) = (run step s as).bind fun t => run step t bs := by
  induction as generalizing s with
  | nil => rfl
  | cons a as ih =>
      rw [List.cons_append, run_cons, run_cons]
      cases step s a with
      | none => rfl
      | some t => exact ih t

theorem run_concat_eq_some {s s' : σ} {as : List α} {a : α} :
    run step s (as ++ [a]) = some s' ↔ ∃ t, run step s as = some t ∧ step t a = some s' := by
  rw [run_append, Option.bind_eq_some_iff]
  simp [run_cons]

theorem run_invariant {I : σ → Prop}
    (hstep : ∀ s a s', I s → step s a = some s' → I s') :
    ∀ as s s', I s → run step s as = some s' → I s' := by
  intro as
  induction as with
  | nil =>
      intro s s' hs h
      cases h
      exact hs
  | cons a as ih =>
      intro s s' hs h
      obtain ⟨t, ht, hrun⟩ := run_cons_eq_some.1 h
      exact ih t s' (hstep s a t hs ht) hrun

/-- What every step taken under `P` preserves holds after every run along `P`. -/
theorem run_invariant_along {I : σ → Prop} {P : σ → α → Prop}
    (hstep : ∀ s a s', I s → P s a → step s a = some s' → I s') :
    ∀ as s s', I s → Along step P s as → run step s as = some s' → I s' := by
  intro as
  induction as with
  | nil =>
      intro s s' hs _ h
      cases h
      exact hs
  | cons a as ih =>
      intro s s' hs hP h
      obtain ⟨t, ht, hrun⟩ := run_cons_eq_some.1 h
      exact ih t s' (hstep s a t hs hP.1 ht) (hP.2 t ht) hrun

/-- `I` holds all along a run exactly if all its steps are taken under `P`, when a step not under `P` makes it fail at once. -/
theorem always_iff_along {I J : σ → Prop} {P : σ → α → Prop} (htotal : ∀ s a, ∃ s', step s a = some s') (hI : ∀ s, J s → I s)
    (hstep : ∀ s a s', J s → P s a → step s a = some s' → J s') (hexact : ∀ s a s', J s → step s a = some s' → I s' → P s a) :
    ∀ as s, J s → ((∀ p t, p <+: as → run step s p = some t → I t) ↔ Along step P s as) := by
  intro as
  induction as with
  | nil =>
      intro s hs
      refine iff_of_true (fun p t hp ht => ?_) trivial
      rw [List.prefix_nil.1 hp] at ht
      cases ht
      exact hI s hs
  | cons a as ih =>
      intro s hs
      obtain ⟨s', hs'⟩ := htotal s a
      constructor
      · intro h
        have hP : P s a := hexact s a s' hs hs' (h [a] s' ⟨as, rfl⟩ (run_cons_eq_some.2 ⟨s', hs', rfl⟩))
        refine ⟨hP, fun t ht => (ih t (hstep s a t hs hP ht)).1 fun p u hp hu => ?_⟩
        exact h (a :: p) u (List.cons_prefix_cons.2 ⟨rfl, hp⟩) (run_cons_eq_some.2 ⟨t, ht, hu⟩)
      · rintro ⟨hP, hrest⟩ p t hp ht
        cases p with
        | nil =>
            cases ht
            exact hI s hs
        | cons b p =>
            obtain ⟨rfl, hrest'⟩ := List.cons_prefix_cons.1 hp
            obtain ⟨u, hu, hrun⟩ := run_cons_eq_some.1 ht
            exact (ih u (hstep s b u hs hP hu)).2 (hrest u hu) p t hrest' hrun

/-- What relates every step taken under `P` to a step of a reference relates every run along `P` to a run of it. -/
theorem run_refines_along {τ : Type*} {R : σ → τ → Prop} {P : σ → α → Prop} {next : τ → α → τ}
    (hstep : ∀ s t a s', R s t → P s a → step s a = some s' → R s' (next t a)) :
    ∀ as s t s', R s t → Along step P s as → run step s as = some s' → R s' (as.foldl next t) := by
  intro as
  induction as with
  | nil =>
      intro s t s' hR _ h
      cases h
      exact hR
  | cons a as ih =>
      intro s t s' hR hP h
      obtain ⟨u, hu, hrun⟩ := run_cons_eq_some.1 h
      exact ih u (next t a) s' (hstep s t a u hR hP.1 hu) (hP.2 u hu) hrun

theorem along_of_forall {Q : α → Prop} : ∀ (as : List α) (s : σ), (∀ a ∈ as, Q a) →
    Along step (fun _ a => Q a) s as := by
  intro as
  induction as with
  | nil => intro _ _; trivial
  | cons a as ih =>
      intro s h
      exact ⟨h a (List.mem_cons_self ..), fun t _ =>
        ih t fun b hb => h b (List.mem_cons_of_mem _ hb)⟩

theorem along_cons_of_some {P : σ → α → Prop} {s t : σ} {a : α} {as : List α}
    (h : step s a = some t) : Along step P s (a :: as) ↔ P s a ∧ Along step P t as := by
  simp [Along, h]

theorem along_cons_of_none {P : σ → α → Prop} {s : σ} {a : α} {as : List α}
    (h : step s a = none) : Along step P s (a :: as) ↔ P s a := by
  simp [Along, h]

theorem along_append {P : σ → α → Prop} {s : σ} {as bs : List α} :
    Along step P s (as ++ bs) ↔
      Along step P s as ∧ ∀ t, run step s as = some t → Along step P t bs := by
  induction as generalizing s with
  | nil => simp [Along]
  | cons a as ih =>
      simp only [List.cons_append, Along, ih, run_cons_eq_some]
      constructor
      · rintro ⟨hP, h⟩
        exact ⟨⟨hP, fun s' hs => (h s' hs).1⟩, fun t ⟨s', hs, ht⟩ => (h s' hs).2 t ht⟩
      · rintro ⟨⟨hP, h⟩, h'⟩
        exact ⟨hP, fun s' hs => ⟨h s' hs, fun t ht => h' t ⟨s', hs, ht⟩⟩⟩

theorem Along.and {P Q : σ → α → Prop} : ∀ {s : σ} {as : List α}, Along step P s as →
    Along step Q s as → Along step (fun s a => P s a ∧ Q s a) s as
  | _, [], _, _ => trivial
  | _, _ :: _, hP, hQ => ⟨⟨hP.1, hQ.1⟩, fun t ht => (hP.2 t ht).and (hQ.2 t ht)⟩

instance Along.decidable (P : σ → α → Prop) [∀ s a, Decidable (P s a)] :
    ∀ (s : σ) (as : List α), Decidable (Along step P s as)
  | _, [] => isTrue trivial
  | s, a :: as =>
      match h : step s a with
      | none => decidable_of_iff _ (along_cons_of_none h).symm
      | some t =>
          have := Along.decidable P t as
          decidable_of_iff _ (along_cons_of_some h).symm

end

end Grbl.Lib
