import Mathlib

/-!
# Computations that fail and keep what they have written

A step of a program in C that returns an error does not take back what it has written. Its outcome is an error or a value, and the state
in both cases.

* `Outcome`, `Outcome.bind`, `Outcome.state`; `state_bind` : a property of the state that is kept;
* `Outcome.Meets` : what holds of the state in any case, and of the value with the state; `Meets.bind` : the rule of sequencing.
-/

namespace Grbl.Lib

inductive Outcome (ε σ α : Type*)
  | error (e : ε) (s : σ)
  | ok (a : α) (s : σ)

namespace Outcome
variable {ε σ α β : Type*}

def bind (r : Outcome ε σ α) (f : α → σ → Outcome ε σ β) : Outcome ε σ β :=
  match r with
  | error e s => error e s
  | ok a s => f a s

def state : Outcome ε σ α → σ
  | error _ s | ok _ s => s

/-- `always` holds of the state in any case, and `post` when there is no error. -/
def Meets (r : Outcome ε σ α) (always : σ → Prop) (post : α → σ → Prop) : Prop :=
  match r with
  | error _ s => always s
  | ok a s => always s ∧ post a s

variable {r : Outcome ε σ α} {always : σ → Prop} {post post' : α → σ → Prop}

@[simp] theorem meets_error (e : ε) (s : σ) : (error e s : Outcome ε σ α).Meets always post ↔ always s := Iff.rfl

@[simp] theorem meets_ok (a : α) (s : σ) : (ok a s : Outcome ε σ α).Meets always post ↔ always s ∧ post a s := Iff.rfl

@[simp] theorem bind_ok (a : α) (s : σ) (f : α → σ → Outcome ε σ β) : (ok a s).bind f = f a s := rfl

@[simp] theorem bind_error (e : ε) (s : σ) (f : α → σ → Outcome ε σ β) : (error e s).bind f = error e s := rfl

theorem Meets.state (h : r.Meets always post) : always r.state := by
  cases r with
  | error e s => exact h
  | ok a s => exact h.1

theorem Meets.value {a : α} {s : σ} (h : r.Meets always post) (hr : r = .ok a s) : post a s := by
  subst hr
  exact h.2

theorem Meets.weaken (h : r.Meets always post) (hpost : ∀ a s, post a s → post' a s) : r.Meets always post' := by
  cases r with
  | error e s => exact h
  | ok a s => exact ⟨h.1, hpost a s h.2⟩

theorem Meets.bind {f : α → σ → Outcome ε σ β} {post' : β → σ → Prop} (h : r.Meets always post)
    (hf : ∀ a s, always s → post a s → (f a s).Meets always post') : (r.bind f).Meets always post' := by
  cases r with
  | error e s => exact h
  | ok a s => exact hf a s h.1 h.2

theorem state_bind {I : σ → Prop} {f : α → σ → Outcome ε σ β} (h : I r.state) (hf : ∀ a s, I s → I (f a s).state) :
    I (r.bind f).state := by
  cases r with
  | error e s => exact h
  | ok a s => exact hf a s h

theorem bind_eq_ok {f : α → σ → Outcome ε σ β} {b : β} {s : σ} :
    r.bind f = .ok b s ↔ ∃ a t, r = .ok a t ∧ f a t = .ok b s := by
  cases r with
  | error e t => simp
  | ok a t =>
      refine ⟨fun h => ⟨a, t, rfl, h⟩, ?_⟩
      rintro ⟨a', t', h, h'⟩
      cases h
      exact h'

theorem bind_eq_error {f : α → σ → Outcome ε σ β} {e : ε} {s : σ} :
    r.bind f = .error e s ↔ r = .error e s ∨ ∃ a t, r = .ok a t ∧ f a t = .error e s := by
  cases r with
  | error e' t => simp
  | ok a t =>
      refine ⟨fun h => .inr ⟨a, t, rfl, h⟩, ?_⟩
      rintro (h | ⟨a', t', h, h'⟩)
      · cases h
      · cases h
        exact h'

end Outcome

end Grbl.Lib
