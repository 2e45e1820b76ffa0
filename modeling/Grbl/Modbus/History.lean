import Grbl.Modbus.Requests

/-!
# The history of a request

* `history` : the events about a request; `Event.isCallback`, `Event.isTransmission`;
* `Phase.next_callbacks`, `callbacks_eq` : the callbacks a request has had;
* `Phase.Blocking`, `blocking_history` : transmissions and result of a blocking request;
* `Phase.Closed`, `no_transmission_after` : nothing is transmitted after a good reply.
-/

namespace Grbl.Modbus
open Lib

def history (log : List Event) (i : ℕ) : List Event := log.filter fun e => e.about = some i

theorem phases_eq (log : List Event) (i : ℕ) : phases log i = (history log i).foldl Phase.next .unknown := rfl

def Event.isCallback : Event → Bool
  | .called _ _ _ _ | .illegal _ _ => true
  | _ => false

def Event.isTransmission : Event → Bool
  | .transmitted _ => true
  | _ => false

namespace Phase

@[simp] theorem next_wrong (e : Event) : Phase.wrong.next e = .wrong := by
  cases e <;> rfl

theorem ne_wrong_of_next {p : Phase} {e : Event} (h : p.next e ≠ .wrong) : p ≠ .wrong := by
  rintro rfl
  exact h (next_wrong e)

/-- The callbacks a request in the phase has had. -/
def callbacks : Phase → ℕ
  | .reported _ | .illegal | .done (some _) => 1
  | _ => 0

theorem next_callbacks {p : Phase} {e : Event} (h : p.next e ≠ .wrong) :
    (p.next e).callbacks = p.callbacks + if e.isCallback then 1 else 0 := by
  cases p with
  | ended good =>
      cases e with
      | called k f code msg =>
          simp only [Phase.next, ne_eq, ite_eq_right_iff, reduceCtorEq, imp_false, Decidable.not_not] at h ⊢
          rw [if_pos h]
          rfl
      | _ => exact absurd rfl h
  | onLine left =>
      cases e with
      | ended e good => cases good <;> rfl
      | _ => exact absurd rfl h
  | failed left =>
      cases left with
      | zero =>
          cases e with
          | called k f code msg => cases k <;> first | rfl | exact absurd rfl h
          | _ => exact absurd rfl h
      | succ left =>
          cases e with
          | transmitted e => rfl
          | _ => exact absurd rfl h
  | replied =>
      cases e with
      | called k f code msg => cases k <;> first | rfl | exact absurd rfl h
      | _ => exact absurd rfl h
  | reported k =>
      cases e with
      | returned id result =>
          simp only [Phase.next, ne_eq, ite_eq_right_iff, reduceCtorEq, imp_false, Decidable.not_not] at h ⊢
          rw [if_pos h]
          rfl
      | _ => exact absurd rfl h
  | unknown | accepted | illegal =>
      cases e with
      | returned id result => cases result <;> first | rfl | exact absurd rfl h
      | _ => first | rfl | exact absurd rfl h
  | pending | sent | blocked left | done k | wrong =>
      cases e <;> first | rfl | exact absurd rfl h

end Phase

section
variable {h : List Event} {e : Event}

theorem foldl_next_concat (h : List Event) (e : Event) :
    (h ++ [e]).foldl Phase.next .unknown = (h.foldl Phase.next .unknown).next e := by
  rw [List.foldl_append]
  rfl

theorem callbacks_eq (h : List Event) (hne : h.foldl Phase.next .unknown ≠ .wrong) :
    h.countP Event.isCallback = (h.foldl Phase.next .unknown).callbacks := by
  induction h using List.reverseRecOn with
  | nil => rfl
  | append_singleton h e ih =>
      rw [foldl_next_concat] at hne ⊢
      rw [List.countP_append, ih (Phase.ne_wrong_of_next hne), Phase.next_callbacks hne, List.countP_singleton]

/-! ## Blocking requests -/

/-- The callback for a good reply has been called. -/
def Replied (h : List Event) : Prop := ∃ f code msg, .called .packet f code msg ∈ h

def Returned (h : List Event) (result : Bool) : Prop := ∃ id, .returned id result ∈ h

theorem replied_concat : Replied (h ++ [e]) ↔ Replied h ∨ ∃ f code msg, e = .called .packet f code msg := by
  simp only [Replied, List.mem_append, List.mem_singleton, exists_or]
  exact or_congr Iff.rfl ⟨fun ⟨f, code, msg, he⟩ => ⟨f, code, msg, he.symm⟩, fun ⟨f, code, msg, he⟩ => ⟨f, code, msg, he.symm⟩⟩

theorem returned_concat {result : Bool} :
    Returned (h ++ [e]) result ↔ Returned h result ∨ ∃ id, e = .returned id result := by
  simp only [Returned, List.mem_append, List.mem_singleton, exists_or]
  exact or_congr Iff.rfl ⟨fun ⟨id, he⟩ => ⟨id, he.symm⟩, fun ⟨id, he⟩ => ⟨id, he.symm⟩⟩

/-- What the phase of a blocking request with `n` retries says of its history. -/
def Phase.Blocking (n : ℕ) (h : List Event) : Phase → Prop
  | .blocked left => left = n ∧ h.countP Event.isTransmission = 0 ∧ ¬ Replied h ∧ ∀ b, ¬ Returned h b
  | .onLine left | .failed left =>
      h.countP Event.isTransmission + left = n + 1 ∧ ¬ Replied h ∧ ∀ b, ¬ Returned h b
  | .replied => h.countP Event.isTransmission ≤ n + 1 ∧ ¬ Replied h ∧ ∀ b, ¬ Returned h b
  | .reported k => h.countP Event.isTransmission ≤ n + 1 ∧ (Replied h ↔ k = .packet) ∧ ∀ b, ¬ Returned h b
  | .done k =>
      h.countP Event.isTransmission ≤ n + 1 ∧ (Replied h ↔ k = some .packet) ∧
        ∀ b, Returned h b → b = decide (k = some .packet)
  | _ => False

theorem Phase.Blocking.step {n : ℕ} {p : Phase} (hp : p.Blocking n h) (hne : p.next e ≠ .wrong) :
    (p.next e).Blocking n (h ++ [e]) := by
  cases p with
  | unknown | accepted | pending | sent | ended | illegal | wrong => exact hp.elim
  | done k => cases e <;> exact absurd rfl hne
  | blocked left =>
      obtain ⟨hleft, hcount, hreplied, hreturned⟩ := hp
      cases e with
      | transmitted e =>
          simp [Phase.next, Phase.Blocking, replied_concat, returned_concat, List.countP_append, Event.isTransmission, hcount,
            hreplied, hreturned, hleft]
          omega
      | _ => exact absurd rfl hne
  | onLine left =>
      obtain ⟨hcount, hreplied, hreturned⟩ := hp
      cases e with
      | ended e good =>
          cases good <;> simp [Phase.next, Phase.Blocking, replied_concat, returned_concat, List.countP_append,
            Event.isTransmission, hreplied, hreturned] <;> omega
      | _ => exact absurd rfl hne
  | failed left =>
      obtain ⟨hcount, hreplied, hreturned⟩ := hp
      cases left with
      | zero =>
          cases e with
          | called k f code msg =>
              cases k with
              | packet => exact absurd rfl hne
              | exception | timeout =>
                  simp [Phase.next, Phase.Blocking, replied_concat, returned_concat, List.countP_append,
                    Event.isTransmission, hreplied, hreturned]
                  omega
          | _ => exact absurd rfl hne
      | succ left =>
          cases e with
          | transmitted e =>
              simp [Phase.next, Phase.Blocking, replied_concat, returned_concat, List.countP_append, Event.isTransmission,
                hreplied, hreturned]
              omega
          | _ => exact absurd rfl hne
  | replied =>
      obtain ⟨hcount, hreplied, hreturned⟩ := hp
      cases e with
      | called k f code msg =>
          cases k with
          | packet =>
              simpa [Phase.next, Phase.Blocking, replied_concat, returned_concat, List.countP_append, Event.isTransmission,
                hreturned] using hcount
          | exception | timeout => exact absurd rfl hne
      | _ => exact absurd rfl hne
  | reported k =>
      obtain ⟨hcount, hreplied, hreturned⟩ := hp
      cases e with
      | returned id result =>
          by_cases hresult : result = decide (k = .packet)
          · have hnext : Phase.next (.reported k) (.returned id result) = .done (some k) := if_pos hresult
            rw [hnext]
            refine ⟨by simpa [List.countP_append, Event.isTransmission] using hcount, ?_, ?_⟩
            · simp [replied_concat, hreplied]
            · intro b hb
              obtain hb | ⟨id', hid⟩ := returned_concat.1 hb
              · exact absurd hb (hreturned b)
              · cases hid
                simpa using hresult
          · exact absurd (if_neg hresult) hne
      | _ => exact absurd rfl hne

theorem Phase.next_ne_unknown (p : Phase) (e : Event) : p.next e ≠ .unknown := by
  unfold Phase.next
  split
  all_goals first | exact Phase.noConfusion | (split <;> exact Phase.noConfusion)

theorem eq_nil_of_unknown (h : List Event) (hp : h.foldl Phase.next .unknown = .unknown) : h = [] := by
  induction h using List.reverseRecOn with
  | nil => rfl
  | append_singleton h e _ =>
      rw [foldl_next_concat] at hp
      exact absurd hp (Phase.next_ne_unknown _ e)

theorem blocking_history {id n : ℕ} (h : List Event) (hmem : .blocked id n ∈ h)
    (hne : h.foldl Phase.next .unknown ≠ .wrong) : (h.foldl Phase.next .unknown).Blocking n h := by
  induction h using List.reverseRecOn with
  | nil => cases hmem
  | append_singleton h e ih =>
      rw [foldl_next_concat] at hne ⊢
      obtain hmem | hmem := List.mem_append.1 hmem
      · exact (ih hmem (Phase.ne_wrong_of_next hne)).step hne
      · cases List.mem_singleton.1 hmem
        have hunknown : h.foldl Phase.next .unknown = .unknown := by
          revert hne
          generalize h.foldl Phase.next .unknown = p
          cases p with
          | unknown => exact fun _ => rfl
          | failed left => cases left <;> exact fun hne => absurd rfl hne
          | _ => exact fun hne => absurd rfl hne
        rw [hunknown, eq_nil_of_unknown h hunknown]
        simp [Phase.next, Phase.Blocking, Replied, Returned, Event.isTransmission]

/-- After a good reply, or a callback. -/
def Phase.Closed : Phase → Prop
  | .ended _ | .replied | .reported _ | .done _ => True
  | _ => False

theorem Phase.Closed.step {p : Phase} (hp : p.Closed) (hne : p.next e ≠ .wrong) :
    (p.next e).Closed ∧ e.isTransmission = false := by
  cases p with
  | ended good =>
      cases e with
      | called k f code msg =>
          simp only [Phase.next] at hne ⊢
          split at hne
          · next hgood => exact ⟨by rw [if_pos hgood]; trivial, rfl⟩
          · exact absurd rfl hne
      | _ => exact absurd rfl hne
  | replied =>
      cases e with
      | called k f code msg =>
          cases k with
          | packet => exact ⟨trivial, rfl⟩
          | exception | timeout => exact absurd rfl hne
      | _ => exact absurd rfl hne
  | reported k =>
      cases e with
      | returned id result =>
          simp only [Phase.next] at hne ⊢
          split at hne
          · next hresult => exact ⟨by rw [if_pos hresult]; trivial, rfl⟩
          · exact absurd rfl hne
      | _ => exact absurd rfl hne
  | done k => cases e <;> exact absurd rfl hne
  | unknown | accepted | pending | sent | blocked | onLine | failed | illegal | wrong => exact hp.elim

theorem foldl_next_wrong (h : List Event) : h.foldl Phase.next .wrong = .wrong := by
  induction h with
  | nil => rfl
  | cons e h ih => rw [List.foldl_cons, Phase.next_wrong, ih]

theorem no_transmission_of_closed {p : Phase} (hp : p.Closed) (h : List Event) (hne : h.foldl Phase.next p ≠ .wrong) :
    ∀ e ∈ h, e.isTransmission = false := by
  induction h generalizing p with
  | nil => exact nofun
  | cons e h ih =>
      rw [List.foldl_cons] at hne
      have hnext : p.next e ≠ .wrong := by
        intro hwrong
        rw [hwrong, foldl_next_wrong] at hne
        exact hne rfl
      obtain ⟨hclosed, he⟩ := hp.step hnext
      exact List.forall_mem_cons.2 ⟨he, ih hclosed hne⟩

theorem no_transmission_after {front rest : List Event} {e : Entry}
    (hne : (front ++ .ended e true :: rest).foldl Phase.next .unknown ≠ .wrong) :
    ∀ e ∈ rest, e.isTransmission = false := by
  rw [List.foldl_append, List.foldl_cons] at hne
  refine no_transmission_of_closed ?_ rest hne
  have hnext : (front.foldl Phase.next .unknown).next (.ended e true) ≠ .wrong := by
    intro hwrong
    rw [hwrong, foldl_next_wrong] at hne
    exact hne rfl
  revert hnext
  generalize front.foldl Phase.next .unknown = p
  cases p with
  | sent | onLine left => exact fun _ => trivial
  | failed left => cases left <;> exact fun hnext => absurd rfl hnext
  | _ => exact fun hnext => absurd rfl hnext

end

end Grbl.Modbus
