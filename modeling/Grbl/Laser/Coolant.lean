import Mathlib
import Grbl.Lib.Run

/-!
# Laser coolant

`coolant.c`: `coolantSetState` switches the flood output on at once and off with a delayed task, `coolant_flood_off`. What is enabled
once for the interrupt of the input is left out.

* `CoolantState`, `Settings`, `Inputs`, `Coolant` : the data; `coolantFloodOff`, `coolantSetState` : the functions;
* `Action`, `Coolant.step` : commands, ticks, and the execution of a task that is due;
* `Follows` : the output follows the last command; `Safe`, `Tracks` : when it does, and why;
* `follows_of_safe`; `left_over_task_switches_off`.
-/

namespace Grbl.Laser
open Lib

/-- `coolant_state_t` -/
structure CoolantState where
  flood : Bool
  mist : Bool
  deriving DecidableEq, Repr

/-- `laser_coolant_settings_t`, but for the ports: the delays are in seconds and in minutes. -/
structure Settings where
  minTemp : ℚ
  maxTemp : ℚ
  onDelay : ℚ
  offDelay : ℚ

def Settings.offTicks (cfg : Settings) : ℕ := ⌊cfg.offDelay * 60 * 1000⌋.toNat

/-- What a call sees of the rest of the machine: `sys.reset_pending`, the result of `task_add_delayed`, and the coolant-ok input. -/
structure Inputs where
  resetPending : Bool
  added : Bool
  coolantOk : Bool

/-- The variables of the plugin, the output, and the delayed tasks: when they are due, the first one first. -/
structure Coolant where
  output : CoolantState
  coolantOn : Bool
  offPending : Bool
  monitorOn : Bool
  alarm : Bool
  tasks : List ℕ
  ticks : ℕ
  /-- the last command and its time -/
  commanded : Option (CoolantState × ℕ)
  deriving DecidableEq

/-- Before the first command. -/
def Coolant.init : Coolant := ⟨⟨false, false⟩, false, false, false, false, [], 0, none⟩

def coolantFloodOff (s : Coolant) : Coolant :=
  { s with output := { s.output with flood := false }, offPending := false, coolantOn := false }

def coolantSetState (cfg : Settings) (i : Inputs) (s : Coolant) (mode : CoolantState) : Coolant :=
  let changed := mode.flood != s.output.flood || mode.flood && s.offPending
  if changed && !mode.flood && decide (cfg.offDelay > 0) && !i.resetPending then
    -- the output stays on: the next command with flood off schedules another task
    { s with
      offPending := i.added
      tasks := if i.added then s.tasks ++ [s.ticks + cfg.offTicks] else s.tasks
      output := { mode with flood := true } }
  else
    let s := if changed && !mode.flood then { s with coolantOn := false } else s
    let s := { s with output := mode }
    let failed := changed && mode.flood && decide (cfg.onDelay > 0) && !i.coolantOk
    let s :=
      if changed && mode.flood then
        -- `task_delete` takes out the first of the tasks
        let s := { s with tasks := s.tasks.tail, offPending := false }
        if failed then { s with output := { mode with flood := false }, coolantOn := false, alarm := true }
        else { s with coolantOn := true }
      else s
    { s with monitorOn := mode.flood && !failed && decide (cfg.minTemp + cfg.maxTemp > 0) }

/-! ## Runs -/

/-- What can happen. -/
inductive Action
  /-- a command, and whether there is room for a task -/
  | command (mode : CoolantState) (added : Bool)
  | tick
  /-- the task at an index of the list is executed -/
  | execute (task : ℕ)

namespace Coolant

/-- A step, with the coolant-ok input good and no reset. -/
def step (cfg : Settings) (s : Coolant) : Action → Option Coolant
  | .command mode added => some { coolantSetState cfg ⟨false, added, true⟩ s mode with commanded := some (mode, s.ticks) }
  | .tick => some { s with ticks := s.ticks + 1 }
  | .execute task =>
      match s.tasks[task]? with
      | some due => if due ≤ s.ticks then some (coolantFloodOff { s with tasks := s.tasks.eraseIdx task }) else none
      | none => none

/-- The output follows the last command: on as long as it is wanted, off when the delay has passed and no task is due. -/
structure Follows (cfg : Settings) (s : Coolant) : Prop where
  on : ∀ mode t, s.commanded = some (mode, t) → mode.flood = true → s.output.flood = true ∧ s.coolantOn = true
  off : ∀ mode t, s.commanded = some (mode, t) → mode.flood = false → t + cfg.offTicks ≤ s.ticks → (∀ due ∈ s.tasks, s.ticks < due) →
    s.output.flood = false

/-- At most one task is left when flood is switched on, and there is room for a task when it is switched off. -/
def Safe (cfg : Settings) (s : Coolant) : Action → Prop
  | .command mode added => if mode.flood then s.tasks.length ≤ 1 else s.output.flood = true → cfg.offDelay > 0 → added = true
  | _ => True

instance (cfg : Settings) (s : Coolant) : ∀ a, Decidable (Safe cfg s a)
  | .command mode added =>
      inferInstanceAs (Decidable (if mode.flood then s.tasks.length ≤ 1 else s.output.flood = true → cfg.offDelay > 0 → added = true))
  | .tick => instDecidableTrue
  | .execute _ => instDecidableTrue

/-- Where the plugin is after a command. -/
structure Tracks (cfg : Settings) (s : Coolant) : Prop where
  start : s.commanded = none → s.output.flood = false ∧ s.tasks = []
  on : ∀ mode t, s.commanded = some (mode, t) → mode.flood = true →
    s.tasks = [] ∧ s.output.flood = true ∧ s.coolantOn = true ∧ s.offPending = false
  off : ∀ mode t, s.commanded = some (mode, t) → mode.flood = false →
    t ≤ s.ticks ∧ (∀ due ∈ s.tasks, due ≤ t + cfg.offTicks) ∧ (s.output.flood = true → s.offPending = true ∧ s.tasks ≠ [])

theorem tracks_init (cfg : Settings) : Tracks cfg .init := ⟨fun _ => ⟨rfl, rfl⟩, nofun, nofun⟩

theorem Tracks.follows {cfg : Settings} {s : Coolant} (h : Tracks cfg s) : Follows cfg s where
  on := by
    intro mode t hlast hflood
    obtain ⟨-, hout, hon, -⟩ := h.on mode t hlast hflood
    exact ⟨hout, hon⟩
  off := by
    intro mode t hlast hflood hpassed hdue
    obtain ⟨-, hbound, hpending⟩ := h.off mode t hlast hflood
    by_contra hout
    obtain ⟨due, hmem⟩ := List.exists_mem_of_ne_nil _ (hpending (Bool.eq_true_of_not_eq_false hout)).2
    exact absurd ((hbound due hmem).trans hpassed) (hdue due hmem).not_ge

/-! ## Commands -/

section
variable (cfg : Settings) (s : Coolant) {s' : Coolant} {mode : CoolantState} (added : Bool)

theorem setState_on (hflood : mode.flood = true) :
    let s' := coolantSetState cfg ⟨false, added, true⟩ s mode
    s'.ticks = s.ticks ∧ s'.output = mode ∧
      if s.output.flood = false ∨ s.offPending = true then s'.tasks = s.tasks.tail ∧ s'.coolantOn = true ∧ s'.offPending = false
      else s'.tasks = s.tasks ∧ s'.coolantOn = s.coolantOn ∧ s'.offPending = s.offPending := by
  cases hout : s.output.flood <;> cases hpending : s.offPending <;> simp [coolantSetState, hflood, hout, hpending]

theorem setState_off (hflood : mode.flood = false) (hout : s.output.flood = true) (hdelay : cfg.offDelay > 0) :
    let s' := coolantSetState cfg ⟨false, true, true⟩ s mode
    s'.ticks = s.ticks ∧ s'.tasks = s.tasks ++ [s.ticks + cfg.offTicks] ∧ s'.offPending = true := by
  simp [coolantSetState, hflood, hout, hdelay]

theorem setState_off_now (hflood : mode.flood = false) (h : s.output.flood = true → ¬cfg.offDelay > 0) :
    let s' := coolantSetState cfg ⟨false, added, true⟩ s mode
    s'.ticks = s.ticks ∧ s'.output = mode ∧ s'.tasks = s.tasks := by
  cases hout : s.output.flood with
  | false => simp [coolantSetState, hflood, hout]
  | true => simp [coolantSetState, hflood, hout, h hout]

variable {cfg s added}

theorem Tracks.steady (h : Tracks cfg s) (hout : s.output.flood = true) (hpending : s.offPending = false) :
    s.tasks = [] ∧ s.coolantOn = true := by
  cases hlast : s.commanded with
  | none => exact absurd (hout.symm.trans (h.start hlast).1) Bool.true_eq_false_eq_False
  | some last =>
      obtain ⟨m, t⟩ := last
      cases hflood : m.flood with
      | true =>
          obtain ⟨htasks, -, hon, -⟩ := h.on m t hlast hflood
          exact ⟨htasks, hon⟩
      | false => exact absurd (hpending.symm.trans ((h.off m t hlast hflood).2.2 hout).1) Bool.false_ne_true

theorem Tracks.commandOn (h : Tracks cfg s) (hflood : mode.flood = true) (hsafe : s.tasks.length ≤ 1) :
    Tracks cfg { coolantSetState cfg ⟨false, added, true⟩ s mode with commanded := some (mode, s.ticks) } := by
  obtain ⟨-, hout, hrest⟩ := setState_on cfg s added hflood
  refine ⟨nofun, fun m t hlast _ => ?_, fun m t hlast hoff => ?_⟩
  · split at hrest
    · obtain ⟨htasks, hon, hpending⟩ := hrest
      have hnil : s.tasks.tail = [] := List.length_eq_zero_iff.1 (by rw [List.length_tail]; omega)
      exact ⟨htasks.trans hnil, (congrArg CoolantState.flood hout).trans hflood, hon, hpending⟩
    next hsame =>
      obtain ⟨htasks, hon, hpending⟩ := hrest
      have hpending' : s.offPending = false := Bool.eq_false_of_not_eq_true fun hp => hsame (.inr hp)
      obtain ⟨hnil, hon'⟩ := h.steady (Bool.eq_true_of_not_eq_false fun ho => hsame (.inl ho)) hpending'
      exact ⟨htasks.trans hnil, (congrArg CoolantState.flood hout).trans hflood, hon.trans hon', hpending.trans hpending'⟩
  · obtain ⟨rfl, rfl⟩ := Prod.mk.inj (Option.some.inj hlast)
    exact absurd (hflood.symm.trans hoff) Bool.true_eq_false_eq_False

theorem Tracks.bound (h : Tracks cfg s) : ∀ due ∈ s.tasks, due ≤ s.ticks + cfg.offTicks := by
  cases hlast : s.commanded with
  | none => simp [(h.start hlast).2]
  | some last =>
      obtain ⟨m, t⟩ := last
      cases hflood : m.flood with
      | true => simp [(h.on m t hlast hflood).1]
      | false =>
          obtain ⟨hle, hbound, -⟩ := h.off m t hlast hflood
          exact fun due hmem => (hbound due hmem).trans (Nat.add_le_add_right hle _)

theorem Tracks.commandOff (h : Tracks cfg s) (hflood : mode.flood = false) (hsafe : s.output.flood = true → cfg.offDelay > 0 → added = true) :
    Tracks cfg { coolantSetState cfg ⟨false, added, true⟩ s mode with commanded := some (mode, s.ticks) } := by
  refine ⟨nofun, fun m t hlast hon => ?_, fun m t hlast _ => ?_⟩
  · obtain ⟨rfl, rfl⟩ := Prod.mk.inj (Option.some.inj hlast)
    exact absurd (hon.symm.trans hflood) Bool.true_eq_false_eq_False
  obtain ⟨rfl, rfl⟩ := Prod.mk.inj (Option.some.inj hlast)
  by_cases hlater : s.output.flood = true ∧ cfg.offDelay > 0
  · obtain rfl := hsafe hlater.1 hlater.2
    obtain ⟨hticks, htasks, hpending⟩ := setState_off cfg s hflood hlater.1 hlater.2
    refine ⟨hticks.ge, fun due hmem => ?_, fun _ => ⟨hpending, ?_⟩⟩
    · rw [htasks, List.mem_append, List.mem_singleton] at hmem
      obtain hmem | rfl := hmem
      · exact h.bound due hmem
      · exact le_rfl
    · rw [htasks]
      exact List.append_ne_nil_of_right_ne_nil _ (List.cons_ne_nil _ _)
  · obtain ⟨hticks, hout, htasks⟩ := setState_off_now cfg s added hflood fun ho hd => hlater ⟨ho, hd⟩
    refine ⟨hticks.ge, fun due hmem => h.bound due (htasks ▸ hmem), fun ho => ?_⟩
    exact absurd ((hout ▸ ho).symm.trans hflood) Bool.true_eq_false_eq_False

/-- A task that is executed: flood is not wanted, as no task is left when it is. -/
theorem Tracks.execute (h : Tracks cfg s) {task due : ℕ} (hget : s.tasks[task]? = some due) :
    Tracks cfg (coolantFloodOff { s with tasks := s.tasks.eraseIdx task }) := by
  have hne : s.tasks ≠ [] := fun hnil => by simp [hnil] at hget
  refine ⟨fun hlast => ?_, fun m t hlast hflood => ?_, fun m t hlast hflood => ?_⟩
  · exact absurd (h.start hlast).2 hne
  · exact absurd (h.on m t hlast hflood).1 hne
  · obtain ⟨hle, hbound, -⟩ := h.off m t hlast hflood
    exact ⟨hle, fun due hmem => hbound due (List.mem_of_mem_eraseIdx hmem), nofun⟩

theorem Tracks.step {a : Action} (h : Tracks cfg s) (hsafe : Safe cfg s a) (hstep : step cfg s a = some s') : Tracks cfg s' := by
  cases a with
  | command mode added =>
      obtain rfl := Option.some.inj hstep
      cases hflood : mode.flood with
      | true =>
          rw [Safe, if_pos hflood] at hsafe
          exact h.commandOn hflood hsafe
      | false =>
          rw [Safe, if_neg (Bool.eq_false_iff.1 hflood)] at hsafe
          exact h.commandOff hflood hsafe
  | tick =>
      obtain rfl := Option.some.inj hstep
      refine ⟨h.start, h.on, fun m t hlast hflood => ?_⟩
      obtain ⟨hle, hrest⟩ := h.off m t hlast hflood
      exact ⟨hle.trans (Nat.le_succ _), hrest⟩
  | execute task =>
      rw [Coolant.step] at hstep
      split at hstep
      next due hget =>
        split at hstep
        · obtain rfl := Option.some.inj hstep
          exact h.execute hget
        · cases hstep
      · cases hstep

end

/-- The output follows the commands in every run in which no second task is left when flood is switched on. -/
theorem follows_of_safe {cfg : Settings} {as : List Action} {s : Coolant} (hrun : run (step cfg) .init as = some s)
    (hsafe : Along (step cfg) (Safe cfg) .init as) : Follows cfg s :=
  (run_invariant_along (fun _ _ _ h => Tracks.step h) as Coolant.init s (tracks_init cfg) hsafe hrun).follows

/-- A delay of two ticks, and none for the input. -/
def twoTicks : Settings := ⟨0, 0, 0, 1 / 30000⟩

/-- On, off, on again before the task is due, and off. -/
def wanted : List Action :=
  [.command ⟨true, false⟩ true, .command ⟨false, false⟩ true, .tick, .command ⟨true, true⟩ true, .tick, .command ⟨false, true⟩ true, .tick, .tick,
    .execute 0]

theorem follows_of_safe_wanted : ∃ s, run (step twoTicks) .init wanted = some s ∧ Follows twoTicks s := by
  have hrun : (run (step twoTicks) .init wanted).isSome := by decide +kernel
  obtain ⟨s, hs⟩ := Option.isSome_iff_exists.1 hrun
  exact ⟨s, hs, follows_of_safe hs (by decide +kernel)⟩

/-- Off twice: one of the two tasks is left, and switches flood off while it is wanted. -/
theorem left_over_task_switches_off : ∃ s, run (step twoTicks) .init
      [.command ⟨true, false⟩ true, .command ⟨false, false⟩ true, .command ⟨false, false⟩ true, .command ⟨true, false⟩ true, .tick, .tick,
        .execute 0] = some s ∧
    s.commanded = some (⟨true, false⟩, 0) ∧ s.output.flood = false ∧ s.coolantOn = false ∧ ¬Follows twoTicks s := by
  refine ⟨⟨⟨false, false⟩, false, false, false, false, [], 2, some (⟨true, false⟩, 0)⟩, by decide +kernel, rfl, rfl, rfl, fun h => ?_⟩
  exact absurd (h.on _ _ rfl rfl).1 Bool.false_ne_true

end Coolant

end Grbl.Laser
