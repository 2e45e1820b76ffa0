import Mathlib
import Grbl.Axis
import Grbl.Lib.AtLeastTwo
import Grbl.Lib.Run

/-!
# Acceleration overrides

`settings.c`: an override is written to the settings themselves, and a backup of them is written back before they are stored.

* `Machine` : the accelerations, the backup and the storage; `settingsOverrideAcceleration`, `setAxisAcceleration`,
  `settingsWriteGlobal`, `settingsRestore` : the functions;
* `Wanted` : what has been set, and what it is overridden with;
* `Action`, `exec`, `step` : the calls;
* `Separate` : the overrides are kept apart from the settings; `Safe` : by which calls they are;
* `separate_iff`; `save_ends_override`, `defaults_are_not_stored`.
-/

namespace Grbl.Settings
open Lib Function
open scoped Grbl.Lib.Literal

/-- The accelerations of the axes in `settings`, `override_backup`, and the accelerations in non-volatile storage. -/
structure Machine (K : Type*) where
  live : Axis → K
  valid : Bool
  backup : Axis → K
  stored : Axis → K

/-- What has been set by `$12x` or restored, and the overrides that should be in force. -/
structure Wanted (K : Type*) where
  set : Axis → K
  override : Axis → Option K

section
variable {K : Type*} [Field K] [LinearOrder K]

namespace Machine

def saveOverrideBackup (m : Machine K) : Machine K := { m with backup := m.live, valid := true }

def restoreOverrideBackup (m : Machine K) : Machine K := if m.valid then { m with live := m.backup } else m

/-- `settings_override_acceleration`; `allowed` says that the state is idle, homing or alarm. -/
def settingsOverrideAcceleration (m : Machine K) (allowed : Bool) (axis : Axis) (acceleration : K) : Bool × Machine K :=
  if !allowed then (false, m)
  else if acceleration ≤ 0 then
    (true, if m.valid then { m with live := update m.live axis (m.backup axis) } else m)
  else
    let m := if !m.valid then m.saveOverrideBackup else m
    (true, { m with live := update m.live axis (acceleration * 60 * 60) })

/-- The branch of `set_axis_setting` for the acceleration. -/
def setAxisAcceleration (m : Machine K) (idx : Axis) (value : K) : Machine K :=
  { m with live := update m.live idx (value * 60 * 60), backup := update m.backup idx (value * 60 * 60) }

def settingsWriteGlobal (m : Machine K) : Machine K :=
  let m := if m.valid then m.restoreOverrideBackup else m
  { m with stored := m.live }

/-- `settings_restore`, when the defaults are restored. -/
def settingsRestore (m : Machine K) (defaults : Axis → K) : Machine K := { m with live := defaults }.settingsWriteGlobal

end Machine

/-! ## Runs -/

/-- The calls. -/
inductive Action (K : Type*)
  | override (allowed : Bool) (axis : Axis) (acceleration : K)
  /-- `$12x`, which is followed by a save -/
  | store (axis : Axis) (value : K)
  /-- another setting is stored -/
  | save
  | restore

def Machine.exec (defaults : Axis → K) (m : Machine K) : Action K → Machine K
  | .override allowed axis acceleration => (m.settingsOverrideAcceleration allowed axis acceleration).2
  | .store axis value => (m.setAxisAcceleration axis value).settingsWriteGlobal
  | .save => m.settingsWriteGlobal
  | .restore => m.settingsRestore defaults

/-- What the calls ask for. -/
def Wanted.exec (defaults : Axis → K) (w : Wanted K) : Action K → Wanted K
  | .override allowed axis acceleration =>
      if !allowed then w
      else { w with override := update w.override axis (if acceleration ≤ 0 then none else some (acceleration * 60 * 60)) }
  | .store axis value => ⟨update w.set axis (value * 60 * 60), update w.override axis none⟩
  | .save => w
  | .restore => ⟨defaults, fun _ => none⟩

/-- The machine, and what has been asked of it. -/
abbrev State (K : Type*) := Machine K × Wanted K

def step (defaults : Axis → K) (s : State K) (a : Action K) : Option (State K) :=
  some (s.1.exec defaults a, s.2.exec defaults a)

/-- The settings have been loaded. -/
def start (acceleration : Axis → K) : State K := (⟨acceleration, false, fun _ => 0, acceleration⟩, ⟨acceleration, fun _ => none⟩)

/-- What is stored is what has been set, and what is in force is the override, or what has been set when there is none. -/
structure Separate (s : State K) : Prop where
  stored : s.1.stored = s.2.set
  live : ∀ i, s.1.live i = (s.2.override i).getD (s.2.set i)

/-- The axis is not overridden with another value. -/
def Wanted.Plain (w : Wanted K) (i : Axis) : Prop := ∀ v ∈ w.override i, v = w.set i

/-- Nothing is stored while an override is in force on another axis; the defaults are restored before the first override, or when
they are what has been set. -/
def Safe (defaults : Axis → K) (s : State K) : Action K → Prop
  | .override .. => True
  | .store axis _ => ∀ i, i ≠ axis → s.2.Plain i
  | .save => ∀ i, s.2.Plain i
  | .restore => s.1.valid = true → s.2.set = defaults

structure Kept (s : State K) : Prop extends Separate s where
  backup : s.1.valid = true → s.1.backup = s.2.set
  noOverride : s.1.valid = false → ∀ i, s.2.override i = none

end

/-! ## Storing -/

section
variable {K : Type*} {m : Machine K} {s : State K}

theorem settingsWriteGlobal_of_valid (h : m.valid = true) : m.settingsWriteGlobal = ⟨m.backup, true, m.backup, m.backup⟩ := by
  simp only [Machine.settingsWriteGlobal, Machine.restoreOverrideBackup, h, if_true]

theorem settingsWriteGlobal_of_not_valid (h : m.valid = false) : m.settingsWriteGlobal = { m with stored := m.live } := by
  simp only [Machine.settingsWriteGlobal, h, Bool.false_eq_true, if_false]

theorem plain_of_none {w : Wanted K} {i : Axis} (h : w.override i = none) : w.Plain i := by
  intro v hv
  rw [h] at hv
  cases hv

theorem plain_iff {w : Wanted K} {i : Axis} : w.Plain i ↔ w.set i = (w.override i).getD (w.set i) := by
  unfold Wanted.Plain
  cases h : w.override i with
  | none => simp
  | some v => simp [eq_comm]

theorem Kept.store_none (h : Kept s) (axis : Axis) (hvalid : s.1.valid = false) (i : Axis) :
    update s.2.override axis none i = none := by
  rcases eq_or_ne i axis with rfl | hi
  · exact update_self ..
  · rw [update_of_ne hi, h.noOverride hvalid i]

theorem Kept.live_eq (h : Kept s) (hvalid : s.1.valid = false) : s.1.live = s.2.set := by
  funext i
  rw [h.live i, h.noOverride hvalid i, Option.getD_none]

/-- The settings are stored; before that they may have been changed. -/
theorem Kept.write {set : Axis → K} {override : Axis → Option K} (hbackup : m.valid = true → m.backup = set)
    (hnone : m.valid = false → m.live = set ∧ ∀ i, override i = none) (hplain : ∀ i, Wanted.Plain ⟨set, override⟩ i) :
    Kept (m.settingsWriteGlobal, ⟨set, override⟩) := by
  cases hvalid : m.valid with
  | true =>
      rw [settingsWriteGlobal_of_valid hvalid, hbackup hvalid]
      exact ⟨⟨rfl, fun i => plain_iff.1 (hplain i)⟩, fun _ => rfl, nofun⟩
  | false =>
      obtain ⟨hlive, hoverride⟩ := hnone hvalid
      rw [settingsWriteGlobal_of_not_valid hvalid]
      refine ⟨⟨hlive, fun i => ?_⟩, fun htrue => ?_, fun _ => hoverride⟩
      · exact (congrFun hlive i).trans (plain_iff.1 (hplain i))
      · exact Bool.noConfusion (hvalid.symm.trans htrue)

theorem plain_of_write {set : Axis → K} {override : Axis → Option K} (hbackup : m.valid = true → m.backup = set)
    (hnone : m.valid = false → ∀ i, override i = none) (h : Separate (m.settingsWriteGlobal, (⟨set, override⟩ : Wanted K))) :
    ∀ i, Wanted.Plain ⟨set, override⟩ i := by
  intro i
  cases hvalid : m.valid with
  | true =>
      have hlive := h.live i
      rw [settingsWriteGlobal_of_valid hvalid, hbackup hvalid] at hlive
      exact plain_iff.2 hlive
  | false => exact plain_of_none (hnone hvalid i)

theorem plain_store {w : Wanted K} {axis : Axis} {value : K} :
    (∀ i, (⟨update w.set axis value, update w.override axis none⟩ : Wanted K).Plain i) ↔ ∀ i, i ≠ axis → w.Plain i := by
  refine ⟨fun h i hi => ?_, fun h i => ?_⟩
  · have hplain := h i
    simpa only [Wanted.Plain, update_of_ne hi] using hplain
  · rcases eq_or_ne i axis with rfl | hi
    · exact plain_of_none (update_self ..)
    · simpa only [Wanted.Plain, update_of_ne hi] using h i hi

end

/-! ## The calls -/

section
variable {K : Type*} [Field K] {s : State K}

theorem Kept.start (acceleration : Axis → K) : Kept (start acceleration) where
  stored := rfl
  live _ := rfl
  backup := nofun
  noOverride _ _ := rfl

theorem Kept.store_backup (h : Kept s) (axis : Axis) (value : K) (hvalid : s.1.valid = true) :
    (s.1.setAxisAcceleration axis value).backup = update s.2.set axis (value * 60 * 60) := by
  rw [Machine.setAxisAcceleration, h.backup hvalid]

variable [LinearOrder K] {defaults : Axis → K}

theorem Kept.override (h : Kept s) (allowed : Bool) (axis : Axis) (acceleration : K) :
    Kept (s.1.exec defaults (.override allowed axis acceleration), s.2.exec defaults (.override allowed axis acceleration)) := by
  cases allowed with
  | false => exact h
  | true =>
      simp only [Machine.exec, Machine.settingsOverrideAcceleration, Wanted.exec, Bool.not_true, Bool.false_eq_true, if_false]
      by_cases hle : acceleration ≤ 0
      · rw [if_pos hle, if_pos hle]
        cases hvalid : s.1.valid with
        | false =>
            have hnone : update s.2.override axis none = s.2.override := by
              rw [← h.noOverride hvalid axis, update_eq_self]
            rw [hnone]
            exact h
        | true =>
            refine ⟨⟨h.stored, fun i => ?_⟩, fun _ => h.backup hvalid, (by rintro ⟨⟩)⟩
            rcases eq_or_ne i axis with rfl | hi
            · simp [h.backup hvalid]
            · simpa [update_of_ne hi] using h.live i
      · rw [if_neg hle, if_neg hle]
        have hlive : ∀ i, update s.1.live axis (acceleration * 60 * 60) i =
            (update s.2.override axis (some (acceleration * 60 * 60)) i).getD (s.2.set i) := by
          intro i
          rcases eq_or_ne i axis with rfl | hi
          · rw [update_self, update_self, Option.getD_some]
          · rw [update_of_ne hi, update_of_ne hi, h.live i]
        cases hvalid : s.1.valid with
        | false =>
            refine ⟨⟨h.stored, hlive⟩, fun _ => ?_, (by rintro ⟨⟩)⟩
            funext i
            exact (h.live i).trans (by rw [h.noOverride hvalid i, Option.getD_none])
        | true => exact ⟨⟨h.stored, hlive⟩, fun _ => h.backup hvalid, fun hfalse => Bool.noConfusion (hfalse.symm.trans hvalid)⟩

theorem Kept.step {s' : State K} (a : Action K) (h : Kept s) (hsafe : Safe defaults s a) (hstep : step defaults s a = some s') :
    Kept s' := by
  cases hstep
  cases a with
  | override allowed axis acceleration => exact h.override allowed axis acceleration
  | store axis value =>
      refine Kept.write (fun hvalid => h.store_backup axis value hvalid) (fun hvalid => ⟨?_, h.store_none axis hvalid⟩)
        (plain_store.2 hsafe)
      rw [Machine.setAxisAcceleration, h.live_eq hvalid]
  | save => exact Kept.write h.backup (fun hvalid => ⟨h.live_eq hvalid, h.noOverride hvalid⟩) hsafe
  | restore =>
      refine Kept.write (fun hvalid => ?_) (fun _ => ⟨rfl, fun _ => rfl⟩) fun i => plain_of_none rfl
      exact (h.backup hvalid).trans (hsafe hvalid)

theorem Kept.safe {s' : State K} (a : Action K) (h : Kept s) (hstep : Settings.step defaults s a = some s') (hs' : Separate s') :
    Safe defaults s a := by
  cases hstep
  cases a with
  | override => trivial
  | store axis value =>
      exact plain_store.1 (plain_of_write (fun hvalid => h.store_backup axis value hvalid) (fun hvalid => h.store_none axis hvalid) hs')
  | save => exact plain_of_write h.backup h.noOverride hs'
  | restore =>
      intro hvalid
      have hstored := hs'.stored
      simp only [Machine.exec, Machine.settingsRestore] at hstored
      rw [settingsWriteGlobal_of_valid (by exact hvalid)] at hstored
      exact (h.backup hvalid).symm.trans hstored

/-- What is stored, and what is in force, is right after every call of a run exactly if all its calls are safe. -/
theorem separate_iff (defaults acceleration : Axis → K) (as : List (Action K)) :
    (∀ p s, p <+: as → run (step defaults) (start acceleration) p = some s → Separate s) ↔
      Along (step defaults) (Safe defaults) (start acceleration) as :=
  always_iff_along (fun _ _ => ⟨_, rfl⟩) (fun _ h => h.toSeparate) (fun _ a _ h hsafe hstep => h.step a hsafe hstep)
    (fun _ a _ h hstep hs' => h.safe a hstep hs') as (start acceleration) (Kept.start acceleration)

end

/-- An override of the acceleration of the x axis ends when another setting is stored. -/
theorem save_ends_override : ∃ s : State ℚ, run (step fun _ => 0) (start fun _ => 36000) [.override true .x 5, .save] = some s ∧
    s.2.override .x = some 18000 ∧ s.1.live .x = 36000 ∧ ¬Separate s := by
  have hoverride : (Wanted.exec (fun _ => 0) (start fun _ => (36000 : ℚ)).2 (.override true .x 5)).override .x = some 18000 := by
    decide +kernel
  have hlive : ((Machine.exec (fun _ => 0) (start fun _ => (36000 : ℚ)).1 (.override true .x 5)).exec (fun _ => 0) .save).live .x =
      36000 := by decide +kernel
  refine ⟨_, rfl, hoverride, hlive, fun h => ?_⟩
  have hforce : (36000 : ℚ) = 18000 := hlive.symm.trans ((h.live .x).trans (congrArg (fun o => Option.getD o (36000 : ℚ)) hoverride))
  exact absurd hforce (by decide +kernel)

/-- After an override has been ended the defaults are restored: what was set before is stored, and stays in force. -/
theorem defaults_are_not_stored : ∃ s : State ℚ, run (step fun _ => 0) (start fun _ => 36000)
    [.override true .x 5, .override true .x 0, .restore] = some s ∧ s.1.stored .x = 36000 ∧ s.1.live .x = 36000 ∧
      s.2.set .x = 0 ∧ ¬Separate s := by
  have hstored : (((Machine.exec (fun _ => 0) (start fun _ => (36000 : ℚ)).1 (.override true .x 5)).exec (fun _ => 0)
      (.override true .x 0)).exec (fun _ => 0) .restore).stored .x = 36000 := by decide +kernel
  refine ⟨_, rfl, hstored, hstored, rfl, fun h => ?_⟩
  have hdefault : (36000 : ℚ) = 0 := hstored.symm.trans (congrFun h.stored .x)
  exact absurd hdefault (by decide +kernel)

end Grbl.Settings
