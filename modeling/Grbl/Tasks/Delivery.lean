import Grbl.Tasks.Rounds

/-!
# Every task is executed once

* `Holds.delivered` : what holds between steps says that nothing is lost, doubled, early or out of order;
* `unwind`, `execute_pending`, `canDeliver` : what is pending can still be executed;
* `delivered_of_safe` : the tasks of every safe run; `reset_task_is_lost` : one that is not.
-/

namespace Grbl.CoreTask
open Lib

variable {F D : Type} {o : Prop}

section
variable {s : Scheduler F D} {det imm del res all : List ℕ} {frames : List Frame}

theorem Detached.chain_eq {t : Tasks F D} (hok : t.Ok all) (hd : Detached t.next frames det) (hsub : det ⊆ all) :
    (frames.flatMap fun f => t.chain f.detached) = det := by
  induction frames generalizing det with
  | nil => exact hd.symm
  | cons f frames ih =>
      obtain ⟨l₁, l₂, rfl, hl, hd⟩ := hd
      obtain ⟨hsub₁, hsub₂⟩ := List.append_subset.1 hsub
      rw [List.flatMap_cons, ih hd hsub₂, hok.chain_eq hl hsub₁]

namespace Holds

theorem chains (h : Holds o s det imm del res) : s.detached = det ∧ s.tasks.chain s.tasks.immediate = imm ∧
    s.tasks.chain s.tasks.delayed = del ∧ s.resetList = res := by
  refine ⟨h.detached.chain_eq h.ok ?_, h.ok.chain_eq h.immediate ?_, h.ok.chain_eq h.delayed ?_,
    h.ok.chain_eq h.onReset ?_⟩ <;>
  · intro j hj
    simp [hj]

theorem pending_eq (h : Holds o s det imm del res) : s.pending = det ++ imm ++ del ++ res := by
  obtain ⟨hdet, himm, hdel, hres⟩ := h.chains
  rw [Scheduler.pending, hdet, himm, hdel, hres]

/-- While a task to be run on reset is executed, `tasks.on_reset` points to a slot that is not in use. -/
theorem stale_eq (h : Holds o s det imm del res) : s.stale = [] ∨ ∃ i, s.stale = [i] ∧ s.tasks.fn i = none := by
  rw [Scheduler.stale]
  split
  case isFalse => exact Or.inl rfl
  case isTrue hsome =>
    obtain ⟨f, hf, hleft⟩ := List.findSome?_isSome_iff.1 hsome
    cases f with
    | resetNext task =>
        obtain ⟨-, i, hhead, hfn, hnext⟩ := h.frames _ hf
        have hl : Linked s.tasks.next s.tasks.onReset [i] := ⟨hhead, hnext⟩
        exact Or.inr ⟨i, walk_linked hl (Nat.succ_le_of_lt (by decide : 0 < coreTaskPoolSize)), hfn⟩
    | _ => cases hleft

theorem delivered (h : Holds True s det imm del res) : s.Delivered := by
  obtain ⟨hdet, himm, hdel, hres⟩ := h.chains
  have hpending := h.pending_eq
  exact
    { immediate := by
        rw [hdet, himm]
        exact h.immediateRun.2 trivial
      onReset := by
        rw [hres]
        exact h.onResetRun
      delayed := by
        rw [hdel]
        exact h.delayedRun
      notEarly := h.notEarly trivial
      nodup := by
        rcases h.stale_eq with hnil | ⟨i, hstale, hfn⟩
        · rw [hnil, List.append_nil, hpending]
          exact h.ok.nodup
        · rw [hstale, hpending]
          exact (List.perm_append_singleton i _).nodup_iff.2 (List.nodup_cons.2 ⟨h.ok.not_mem hfn, h.ok.nodup⟩)
      live := by
        rw [hpending]
        exact h.ok.live
      handsOut := by
        rw [hpending]
        exact fun i hi => h.ok.not_mem (taskAlloc_ok h.ok hi).2 }

end Holds

theorem holds_init (ticks : ℕ) (coldStart : Bool) : Holds o (.init ticks coldStart : Scheduler F D) [] [] [] [] where
  detached := rfl
  immediate := rfl
  delayed := rfl
  onReset := rfl
  ok := ⟨List.nodup_nil, fun _ => by simp [Scheduler.init, Tasks.init], nofun⟩
  waits := nofun
  lock := rfl
  reset := Nat.zero_le 1
  frames := nofun
  immediateRun := ⟨.nil, fun _ => rfl⟩
  onResetRun := rfl
  delayedRun := .nil
  notEarly := fun _ => nofun

end

/-! ## What is pending can be executed -/

section
variable [DecidableEq F] [DecidableEq D] {s s' s'' : Scheduler F D} {a : Action F D} {f : Frame} {rest : List Frame}
  {det imm del res : List ℕ}

/-- What has been accepted, and what has been deleted. -/
def Scheduler.asked (s : Scheduler F D) :=
  (s.history.immediate, s.history.onReset, s.history.delayed, s.history.deleted)

omit [DecidableEq F] [DecidableEq D] in
theorem go_asked (hgo : s.go f rest = some s') : s'.asked = s.asked := by
  cases f with
  | immediate task => cases task <;> cases hgo <;> rfl
  | resetNext task => cases task <;> cases hgo <;> rfl
  | locking =>
      simp only [Scheduler.go] at hgo
      split at hgo <;> cases hgo <;> rfl
  | check now =>
      simp only [Scheduler.go] at hgo
      split at hgo <;> cases hgo <;> rfl
  | head now =>
      simp only [Scheduler.go] at hgo
      split at hgo <;> cases hgo <;> rfl
  | startup =>
      simp only [Scheduler.go] at hgo
      split at hgo <;> cases hgo <;> rfl
  | running => cases hgo
  | _ =>
      cases hgo
      rfl

theorem quiet_asked (hquiet : a.Quiet) (hstep : s.step a = some s') : s'.asked = s.asked := by
  cases a with
  | tick =>
      cases hstep
      rfl
  | execute =>
      simp only [Scheduler.step] at hstep
      split at hstep <;> cases hstep
      rfl
  | executeOnStartup =>
      simp only [Scheduler.step] at hstep
      split at hstep <;> cases hstep
      rfl
  | go =>
      simp only [Scheduler.step] at hstep
      split at hstep
      · cases hstep
      · exact go_asked hstep
  | finish =>
      simp only [Scheduler.step] at hstep
      split at hstep <;> cases hstep
      rfl
  | _ => exact hquiet.elim

/-- Nobody makes a call in between. -/
def QuietTo (s s' : Scheduler F D) : Prop := ∃ as, (∀ a ∈ as, a.Quiet) ∧ run Scheduler.step s as = some s'

theorem QuietTo.refl : QuietTo s s := ⟨[], nofun, rfl⟩

theorem QuietTo.trans (h : QuietTo s s') (h' : QuietTo s' s'') : QuietTo s s'' := by
  obtain ⟨as, hquiet, hrun⟩ := h
  obtain ⟨bs, hquiet', hrun'⟩ := h'
  exact ⟨as ++ bs, List.forall_mem_append.2 ⟨hquiet, hquiet'⟩, by rw [run_append, hrun, Option.bind_some, hrun']⟩

theorem QuietTo.of_step (hquiet : a.Quiet) (hstep : s.step a = some s') : QuietTo s s' :=
  ⟨[a], List.forall_mem_singleton.2 hquiet, run_cons_eq_some.2 ⟨s', hstep, rfl⟩⟩

theorem QuietTo.asked (h : QuietTo s s') : s'.asked = s.asked := by
  obtain ⟨as, hquiet, hrun⟩ := h
  exact run_invariant_along (I := fun t => t.asked = s.asked) (fun _ _ _ ht hq hstep => (quiet_asked hq hstep).trans ht)
    as s s' rfl (along_of_forall as s hquiet) hrun

omit [DecidableEq F] [DecidableEq D] in
theorem exists_go (s : Scheduler F D) (hf : f ≠ .running) (rest : List Frame) : ∃ s', s.go f rest = some s' := by
  cases f with
  | immediate task => cases task <;> exact ⟨_, rfl⟩
  | resetNext task => cases task <;> exact ⟨_, rfl⟩
  | locking =>
      simp only [Scheduler.go]
      split <;> exact ⟨_, rfl⟩
  | check now =>
      simp only [Scheduler.go]
      split <;> exact ⟨_, rfl⟩
  | head now =>
      simp only [Scheduler.go]
      split <;> exact ⟨_, rfl⟩
  | startup =>
      simp only [Scheduler.go]
      split <;> exact ⟨_, rfl⟩
  | running => exact absurd rfl hf
  | _ => exact ⟨_, rfl⟩

/-- A state between rounds with at most this many tasks to execute can be reached. -/
def Settles (s : Scheduler F D) (n : ℕ) : Prop :=
  ∃ s' imm del res, QuietTo s s' ∧ s'.frames = [] ∧ Holds False s' [] imm del res ∧ (imm ++ del ++ res).length ≤ n

theorem Settles.of_quiet {n : ℕ} (h : QuietTo s s') (h' : Settles s' n) : Settles s n := by
  obtain ⟨t, imm, del, res, hquiet, ht⟩ := h'
  exact ⟨t, imm, del, res, h.trans hquiet, ht⟩

theorem Settles.mono {n m : ℕ} (h : Settles s n) (hle : n ≤ m) : Settles s m := by
  obtain ⟨t, imm, del, res, hquiet, hframes, hholds, hlen⟩ := h
  exact ⟨t, imm, del, res, hquiet, hframes, hholds, hlen.trans hle⟩

theorem unwind (h : Holds False s det imm del res) : Settles s (det ++ imm ++ del ++ res).length := by
  induction hn : s.load (det ++ imm ++ del ++ res) using Nat.strong_induction_on generalizing s det imm del res with
  | _ n ih =>
  cases hs : s.frames with
  | nil =>
      obtain rfl : det = [] := by
        have hdet := h.detached
        rwa [hs] at hdet
      exact ⟨s, imm, del, res, .refl, hs, h, le_rfl⟩
  | cons f rest =>
      by_cases hf : f = .running
      · subst hf
        have hstep : s.step .finish = some { s with frames := rest } := by simp only [Scheduler.step, hs]
        exact .of_quiet (.of_step (a := .finish) trivial hstep)
          (ih _ (hn ▸ Holds.load_leave hs rfl Nat.one_pos) (h.finish hs) rfl)
      · obtain ⟨s', hgo⟩ := exists_go s hf rest
        have hstep : s.step .go = some s' := by simp only [Scheduler.step, hs, hgo]
        obtain ⟨det', imm', del', res', h', hload, hlen⟩ := h.go hs False.elim False.elim hgo
        obtain ⟨t, imm'', del'', res'', hquiet, ht, hholds, hle⟩ := ih _ (hn ▸ hload) h' rfl
        exact ⟨t, imm'', del'', res'', (QuietTo.of_step (a := .go) trivial hstep).trans hquiet, ht, hholds, hle.trans hlen⟩

theorem settles_immediate {i : ℕ} {imm : List ℕ} (hframes : s.frames = []) (h : Holds False s [] (i :: imm) del res) :
    Settles s (imm ++ del ++ res).length := by
  have himm : s.tasks.immediate = some i := h.immediate.head
  have hcalling : s.calling = true := by rw [Scheduler.calling, hframes]
  have h₁ := h.enter (f := .entered) hcalling ⟨rfl, rfl, rfl, (by rintro _ ⟨⟩), trivial⟩ (by rintro ⟨⟩)
  have h₂ := h₁.advance (g := .detach) rfl ⟨rfl, rfl⟩ ⟨rfl, rfl⟩ rfl rfl ⟨(by rintro _ ⟨⟩), trivial⟩
  have h₃ := h₂.detach rfl False.elim
  dsimp only at h₃
  rw [himm] at h₃
  obtain ⟨det, hdet, h₄⟩ := h₃.runImmediate rfl
  rw [List.append_nil, List.cons.injEq] at hdet
  obtain rfl := hdet.2
  refine .of_quiet ⟨[.execute, .go, .go, .go], by simp [Action.Quiet], ?_⟩ ((unwind h₄).mono ?_)
  · simp [run_cons, Scheduler.step, hcalling, Scheduler.go, himm]
  · simp

theorem settles_reset {i : ℕ} {imm res : List ℕ} (hframes : s.frames = [])
    (h : Holds False s [] imm del (i :: res)) : Settles s (imm ++ del ++ res).length := by
  have hnot : ¬s.Resetting := by
    rintro ⟨f, hf, -⟩
    rw [hframes] at hf
    cases hf
  have hhead : s.tasks.onReset = some i := (Holds.resetHead_eq hnot).symm.trans h.onReset.head
  have hcalling : s.calling = true := by rw [Scheduler.calling, hframes]
  have h₁ := h.enter (f := .startup) hcalling ⟨rfl, rfl, rfl, (by rintro _ ⟨⟩), trivial⟩ fun _ => hnot
  have h₂ := h₁.advance (g := .resetRun i) rfl ⟨rfl, rfl⟩ ⟨rfl, rfl⟩ rfl rfl ⟨(by rintro _ ⟨⟩), hhead⟩
  obtain ⟨res', hres, h₃⟩ := h₂.runReset rfl
  rw [List.cons.injEq] at hres
  obtain rfl := hres.2
  refine .of_quiet ⟨[.executeOnStartup, .go, .go], by simp [Action.Quiet], ?_⟩ ((unwind h₃).mono ?_)
  · simp [run_cons, Scheduler.step, hcalling, Scheduler.go, hhead]
  · simp

theorem wait (h : Holds o s det imm del res) (k : ℕ) :
    Holds o { s with ticks := s.ticks + k } det imm del res ∧ QuietTo s { s with ticks := s.ticks + k } := by
  induction k with
  | zero => exact ⟨h, .refl⟩
  | succ k ih => exact ⟨ih.1.tick, ih.2.trans (.of_step (a := .tick) trivial rfl)⟩

omit [DecidableEq F] [DecidableEq D] in
/-- A task is due again every `2^32` ms, and a moment later. -/
theorem signedDiff_wrap {e : ℕ} (he : e ≤ 1) (a m : ℕ) : signedDiff a (a + e + 2 ^ 32 * m) ≤ 0 := by
  rw [signedDiff, Int.bmod_def]
  split <;> omega

/-- At most this many tasks are pending. -/
def Keeps (s : Scheduler F D) (n : ℕ) : Prop :=
  ∃ det imm del res, Holds False s det imm del res ∧ (det ++ imm ++ del ++ res).length ≤ n

omit [DecidableEq F] [DecidableEq D] in
theorem Keeps.go {n : ℕ} (h : Keeps s n) (hs : s.frames = f :: rest) (hgo : s.go f rest = some s') : Keeps s' n := by
  obtain ⟨det, imm, del, res, h, hle⟩ := h
  obtain ⟨det', imm', del', res', h', -, hlen⟩ := h.go hs False.elim False.elim hgo
  exact ⟨det', imm', del', res', h', hlen.trans hle⟩

theorem settles_delayed {i : ℕ} {del : List ℕ} (hframes : s.frames = []) (h : Holds False s [] [] (i :: del) res) :
    Settles s (del ++ res).length := by
  have himm : s.tasks.immediate = none := h.immediate
  have hdel : s.tasks.delayed = some i := h.delayed.head
  have hlock : s.lock = false := by
    have hcount := h.lock
    rw [hframes] at hcount
    cases hl : s.lock with
    | false => rfl
    | true => simp [hl] at hcount
  obtain ⟨e, he, hms⟩ : ∃ e ≤ 1, (s.tasks.time i + e + 2 ^ 32 * s.ticks) % 2 ^ 32 ≠ s.lastMs % 2 ^ 32 := by
    by_cases h0 : (s.tasks.time i + 0 + 2 ^ 32 * s.ticks) % 2 ^ 32 = s.lastMs % 2 ^ 32
    · exact ⟨1, le_rfl, by omega⟩
    · exact ⟨0, Nat.zero_le 1, h0⟩
  have hdue := signedDiff_wrap he (s.tasks.time i) s.ticks
  generalize hnow : s.tasks.time i + e + 2 ^ 32 * s.ticks = now at hms hdue
  replace hms : ¬ now % 4294967296 = s.lastMs % 4294967296 := hms
  obtain ⟨h₀, hwait⟩ := wait h (now - s.ticks)
  rw [show s.ticks + (now - s.ticks) = now by omega] at h₀ hwait
  -- the round up to the moment before the task is taken out
  have h₁ : Keeps { s with ticks := now, frames := [.entered] } (i :: del ++ res).length :=
    ⟨_, _, _, _, hframes ▸ h₀.enter (f := .entered) (by rw [Scheduler.calling, hframes]) ⟨rfl, rfl, rfl, nofun, trivial⟩
      nofun, le_rfl⟩
  have h₂ : Keeps { s with ticks := now, frames := [.locking] } (i :: del ++ res).length :=
    h₁.go rfl (by simp [Scheduler.go, himm])
  have h₃ : Keeps { s with ticks := now, lock := true, frames := [.clock] } (i :: del ++ res).length :=
    h₂.go rfl (by simp [Scheduler.go, hlock])
  have h₄ : Keeps { s with ticks := now, lock := true, frames := [.check now] } (i :: del ++ res).length := h₃.go rfl rfl
  have h₅ : Keeps { s with ticks := now, lastMs := now, lock := true, frames := [.head now] } (i :: del ++ res).length :=
    h₄.go rfl (by simp [Scheduler.go, hms, hdel])
  have h₆ : Keeps { s with ticks := now, lastMs := now, lock := true, frames := [.due now i] } (i :: del ++ res).length :=
    h₅.go rfl (by simp [Scheduler.go, hdel])
  obtain ⟨det', imm', del', res', h₇, hlen⟩ : Keeps
      { s with ticks := now, lastMs := now, lock := true, frames := [.take now i] } (i :: del ++ res).length :=
    h₆.go rfl (by simp [Scheduler.go, hdue])
  obtain ⟨del'', hless, h₈⟩ := h₇.runDelayed rfl False.elim
  refine .of_quiet (hwait.trans ⟨[.execute, .go, .go, .go, .go, .go, .go, .go], by simp [Action.Quiet], ?_⟩)
    ((unwind h₈).mono ?_)
  · simp [run_cons, Scheduler.step, Scheduler.calling, Scheduler.go, hframes, himm, hlock, hms, hdel, hdue]
  · simp only [List.length_append, List.length_cons] at hlen ⊢
    omega

theorem settles_pending {imm : List ℕ} {n : ℕ} (hframes : s.frames = []) (h : Holds False s [] imm del res)
    (hlen : (imm ++ del ++ res).length = n + 1) : Settles s n := by
  cases imm with
  | cons i imm => exact (settles_immediate hframes h).mono (by simp at hlen ⊢; omega)
  | nil =>
      cases res with
      | cons i res => exact (settles_reset hframes h).mono (by simp at hlen ⊢; omega)
      | nil =>
          cases del with
          | cons i del => exact (settles_delayed hframes h).mono (by simp at hlen ⊢; omega)
          | nil => cases hlen

theorem canDeliver (h : Holds False s det imm del res) : s.CanDeliver := by
  have hall : ∀ n, Settles s n → Settles s 0 := by
    intro n
    induction n with
    | zero => exact id
    | succ n ih =>
        rintro ⟨t, imm', del', res', hquiet, hframes, hholds, hlen⟩
        refine ih ?_
        rcases Nat.lt_or_ge n (imm' ++ del' ++ res').length with hlt | hle
        · exact .of_quiet hquiet (settles_pending hframes hholds (Nat.le_antisymm hlen hlt))
        · exact ⟨t, imm', del', res', hquiet, hframes, hholds, hle⟩
  obtain ⟨t, imm', del', res', hquiet, hframes, hholds, hlen⟩ := hall _ (unwind h)
  have hnil : imm' ++ del' ++ res' = [] := List.eq_nil_of_length_eq_zero (Nat.le_zero.1 hlen)
  simp only [List.append_eq_nil_iff] at hnil
  obtain ⟨⟨rfl, rfl⟩, rfl⟩ := hnil
  have hasked := hquiet.asked
  simp only [Scheduler.asked, Prod.mk.injEq] at hasked
  obtain ⟨himm, hreset, hdelayed, hdeleted⟩ := hasked
  obtain ⟨as, has, hrun⟩ := hquiet
  refine ⟨as, t, has, hrun, hholds.pending_eq, ?_, ?_, ?_⟩
  · have hperm := hholds.immediateRun.1
    rwa [himm, List.append_nil, List.map_nil, List.append_nil] at hperm
  · have heq := hholds.onResetRun
    rwa [hreset, List.map_nil, List.append_nil] at heq
  · have hperm := hholds.delayedRun
    rwa [hdelayed, hdeleted, List.map_nil, List.append_nil] at hperm

end

/-! ## Runs -/

section
variable [DecidableEq F] [DecidableEq D]

/-- In every safe run, every task that is accepted is executed once unless it is deleted: immediate tasks and tasks to be
run on reset in order, delayed ones when they are due, and no slot is lost or used twice. -/
theorem delivered_of_safe {ticks : ℕ} {coldStart : Bool} {as : List (Action F D)} {s : Scheduler F D}
    (hsafe : Along Scheduler.step Scheduler.Safe (.init ticks coldStart) as)
    (hrun : run Scheduler.step (.init ticks coldStart) as = some s) : s.Delivered ∧ s.CanDeliver := by
  have hholds : ∀ o, ∃ det imm del res, Holds o s det imm del res := fun o =>
    run_invariant_along (I := fun t => ∃ det imm del res, Holds o t det imm del res)
      (fun t a t' ⟨det, imm, del, res, h⟩ hP hstep => h.step hP hstep) as _ s ⟨[], [], [], [], holds_init ticks coldStart⟩
      hsafe hrun
  obtain ⟨_, _, _, _, h⟩ := hholds True
  obtain ⟨_, _, _, _, h'⟩ := hholds False
  exact ⟨h.delivered, canDeliver h'⟩

/-- Two immediate tasks and a delayed one that the first of them adds, up to where the delayed one is executed. -/
def threeTasks : List (Action Bool Unit) :=
  [.addImmediate (some true) none, .addImmediate (some false) none, .execute, .go, .go, .go,
    .addDelayed (some true) none 1, .finish, .go, .finish, .tick, .go, .go, .go, .go, .go, .go, .go]

theorem delivered_of_safe_threeTasks : ∃ s, run Scheduler.step (.init 7 false) threeTasks = some s ∧
    (s.Delivered ∧ s.CanDeliver) ∧ s.history.delayedRun = [((⟨some true, none⟩, 8), 8)] := by
  have hsafe : Along Scheduler.step Scheduler.Safe (.init 7 false) threeTasks := by decide +kernel
  exact ⟨_, rfl, delivered_of_safe hsafe rfl, rfl⟩

def resetAddsReset : List (Action Bool Unit) :=
  [.runOnReset (some true) none, .executeOnStartup, .go, .go, .runOnReset (some false) none, .finish, .go]

/-- It is accepted, never executed, and no longer in a list. -/
theorem reset_task_is_lost : ∃ s, run Scheduler.step (.init 0 false) resetAddsReset = some s ∧ s.frames = [] ∧
    ¬s.Delivered := by
  refine ⟨_, rfl, rfl, fun h => ?_⟩
  exact absurd (congrArg List.length h.onReset) (by decide)

end

end Grbl.CoreTask
