import Grbl.State.Handlers
import Grbl.Lib.Run

/-!
# The safety door interlock

* `Start`, `Allowed` : where a run starts, and the events it is made of;
* `stateStep_inv` : every step keeps the invariant;
* `Guarded` : the machine is stopped, and nothing is being restored;
* `door_guards` : a door event stops the machine; `stateStep_guarded` : until the door is closed it
  stays so;
* `door_interlock` : the interlock, for every run.
-/

namespace Grbl

open Lib

namespace Sys

/-- The machine when a run starts: in `STATE_IDLE`, `STATE_CYCLE`, `STATE_HOLD` or `STATE_JOG`. -/
structure Start (m : Sys) : Prop where
  state : m.sysState = .idle ∧ m.stateHandler = .idle ∨
    m.sysState = .cycle ∧ m.stateHandler = .cycle ∧ m.stepping = true ∨
    m.sysState = .hold ∧ (m.stateHandler = .awaitHold ∨ m.stateHandler = .awaitResume) ∨
    m.sysState = .jog ∧ m.stateHandler = .cycle
  pendingDoor : m.pendingState ≠ .safetyDoor ∧ m.pendingState ≠ .sleep
  pending : m.sysState = .idle ∨ m.sysState = .cycle →
    m.pendingState = .idle ∨ m.pendingState = .hold ∧ m.feedHoldPending = true
  softLimit : m.softLimit = false
  executeSysMotion : m.executeSysMotion = false
  flags : m.flags = {}
  frames : m.frames = []

/-- `state_set(STATE_SAFETY_DOOR)` is ignored. -/
def DoorIgnored (m : Sys) : Prop :=
  m.sysState = .alarm ∨ m.sysState = .estop ∨ m.sysState = .sleep ∨ m.sysState = .checkMode

instance (m : Sys) : Decidable m.DoorIgnored := inferInstanceAs (Decidable (_ ∨ _))

/-- The flags `rt` that are handled as the interlock needs it. -/
structure AllowedExec (c : Settings) (rt : RtExec) (i : Inputs) (m : Sys) : Prop extends Handled c rt m where
  /-- the door is not opened during a jog, nor is a restore or a ramp left behind that waits -/
  door : rt.safetyDoor = true → m.sysState ≠ .safetyDoor → ¬m.DoorIgnored →
    m.sysState ≠ .jog ∧ m.NoRestore
  /-- no restore motion is started while a restore that waits is left behind, and then stopped -/
  reopened : rt.safetyDoor = true → m.stateHandler = .restore → m.flags.restoring = false
  /-- an open door is not overruled by the flag of an earlier restart -/
  restart : rt.cycleStart = true → rt.safetyDoor = false → m.stateHandler = .awaitResume →
    m.sysState = .safetyDoor → i.ajar = true → m.flags.restart = false

set_option synthInstance.maxSize 256 in
instance (c : Settings) (rt : RtExec) (i : Inputs) (m : Sys) : Decidable (AllowedExec c rt i m) :=
  decidable_of_iff
    (Handled c rt m ∧
      (rt.safetyDoor = true → m.sysState ≠ .safetyDoor → ¬m.DoorIgnored →
        m.sysState ≠ .jog ∧ m.NoRestore) ∧
      (rt.safetyDoor = true → m.stateHandler = .restore → m.flags.restoring = false) ∧
      (rt.cycleStart = true → rt.safetyDoor = false → m.stateHandler = .awaitResume →
        m.sysState = .safetyDoor → i.ajar = true → m.flags.restart = false))
    ⟨fun h => ⟨h.1, h.2.1, h.2.2.1, h.2.2.2⟩, fun h => ⟨h.toHandled, h.door, h.reopened, h.restart⟩⟩

def Allowed (c : Settings) (m : Sys) : StateEvent → Prop
  | .exec rt i => AllowedExec c rt i m
  | .delayEnd _ => True

instance (c : Settings) (m : Sys) : ∀ e, Decidable (Allowed c m e)
  | .exec rt i => inferInstanceAs (Decidable (AllowedExec c rt i m))
  | .delayEnd _ => isTrue trivial

def Ajar : StateEvent → Prop
  | .exec rt i => rt.cycleStart = true → i.ajar = true
  | .delayEnd _ => True

/-- The event may put the machine to sleep. -/
def Sleeps : StateEvent → Prop
  | .exec rt _ => rt.sleep = true
  | .delayEnd _ => False

/-- The machine is stopped, by the door or asleep, and nothing is being restored. -/
structure Guarded (m : Sys) : Prop where
  sysState : m.sysState = .safetyDoor ∨ m.sysState = .sleep
  handler : m.stateHandler ≠ .restore ∧ m.stateHandler ≠ .awaitResumed

/-- The machine `r` after an event `m` has been guarded in; `asleep` says that it may be asleep. -/
structure StaysGuarded (asleep : Prop) (m r : Sys) : Prop extends Guarded r where
  awake : r.sysState = m.sysState ∨ r.sysState = .sleep ∧ asleep
  quiet : Quiet m r

section
variable {c : Settings} {i : Inputs} {b : Bool} {rt : RtExec} {m m' r : Sys} {asleep : Prop}

/-! ## Every step keeps the invariant -/

theorem Start.inv (h : Start m) : Inv c false m where
  softLimit := h.softLimit
  parking := by rw [h.executeSysMotion, h.flags]; simp
  pendingDoor := h.pendingDoor
  pending := h.pending
  cycle := by
    intro hs
    rcases h.state with h' | h' | h' | h' <;> simp [hs] at h'
    exact Or.inl h'.2
  moved := by
    rintro (hs | hs) <;> rcases h.state with h' | h' | h' | h' <;> simp [hs] at h'
    · exact Or.inl h'.1
    · exact Or.inl h'
  restart := fun _ _ => by rw [h.flags]
  toolChange := by
    intro hh
    rcases h.state with h' | h' | h' | h' <;> simp [hh] at h'
  resuming := by
    rintro (hh | hh | hh) <;> rcases h.state with h' | h' | h' | h' <;> simp [hh] at h'
  waypoint := by
    intro hh
    rcases h.state with h' | h' | h' | h' <;> simp [hh] at h'
  door := by
    intro hs
    rcases h.state with h' | h' | h' | h' <;> simp [hs] at h'
  sleep := by
    intro hs
    rcases h.state with h' | h' | h' | h' <;> simp [hs] at h'

theorem Inv.flagged (h : Inv c false m) :
    Inv c b { m with stepping := m.stepping && !b } := by
  have hrun : m.stepping = true ∨ false = true → (m.stepping && !b) = true ∨ b = true := by
    cases b <;> simp
  exact { h with
    cycle := fun hs => hrun (h.cycle hs)
    door := fun hs => { h.door hs with
      running := fun h1 h2 h3 => hrun ((h.door hs).running h1 h2 h3)
      moving := fun hm => hrun ((h.door hs).moving hm) }
    sleep := fun hs => { h.sleep hs with
      off := (h.sleep hs).off.imp_right fun hw => ⟨hw.1, hrun hw.2⟩ } }

theorem setSafetyDoor_stopped (h : Inv c b m) (hs : m.sysState ≠ .safetyDoor)
    (hi : ¬m.DoorIgnored) (ha : m.sysState ≠ .jog ∧ m.NoRestore) :
    Stopped c b m .safetyDoor (m.setSafetyDoor c i) := by
  have heq : m.setSafetyDoor c i = m.setParked c i .safetyDoor := by
    unfold setSafetyDoor
    rw [if_neg hs]
    exact if_neg hi
  rw [heq]
  exact setParked_stopped h ha.1 ha.2 (Or.inl rfl)

theorem setSafetyDoor_ignored (h : m.sysState = .safetyDoor ∨ m.DoorIgnored) :
    m.setSafetyDoor c i = m := by
  unfold setSafetyDoor
  split
  · rfl
  · next hs => exact if_pos (h.resolve_left hs)

theorem AllowedExec.handled (ha : AllowedExec c rt i m) (h : Inv c b m) :
    Inv c b (if rt.safetyDoor then m.setSafetyDoor c i else m) ∧
      Handled c rt (if rt.safetyDoor then m.setSafetyDoor c i else m) := by
  split
  · next hdoor =>
    by_cases hi : m.sysState = .safetyDoor ∨ m.DoorIgnored
    · rw [setSafetyDoor_ignored hi]
      exact ⟨h, ha.toHandled⟩
    · rw [not_or] at hi
      have hno := ha.door hdoor hi.1 hi.2
      have hs := setSafetyDoor_stopped (i := i) h hi.1 hi.2 hno
      refine ⟨hs.inv, fun _ _ => ?_, fun hh => ?_, fun hh => (hs.handler.2 hh).elim⟩
      · rw [NoRestore, hs.frames]
        exact hno.2
      · exact (hh.elim hs.handler.1 hs.handler.2).elim
  · exact ⟨h, ha.toHandled⟩

theorem AllowedExec.stepping {s : Bool} (ha : AllowedExec c rt i m) :
    AllowedExec c rt i { m with stepping := s } where
  sleep := ha.sleep
  lossless := ha.lossless
  ramp := ha.ramp
  door := ha.door
  reopened := ha.reopened
  restart := ha.restart

theorem stateStep_inv (m : Sys) (e : StateEvent) (m' : Sys) (h : Inv c false m) (ha : Allowed c m e)
    (hstep : stateStep c m e = some m') : Inv c false m' := by
  cases e with
  | exec rt i =>
      simp only [stateStep] at hstep
      split at hstep
      · cases hstep
      · cases hstep
        obtain ⟨hinv, hh⟩ := AllowedExec.handled (AllowedExec.stepping ha)
          (h.flagged (b := rt.cycleComplete))
        exact dispatch_inv hinv hh
  | delayEnd i =>
      simp only [stateStep] at hstep
      split at hstep
      · cases hstep
      · next f fs hf =>
        cases hstep
        exact delayEnd_inv h hf

/-! ## A machine that is stopped stays stopped -/

theorem StaysGuarded.refl (h : Guarded m) : StaysGuarded asleep m m where
  toGuarded := h
  awake := Or.inl rfl
  quiet := Quiet.refl m

theorem StaysGuarded.trans (h : StaysGuarded asleep m m') (h' : StaysGuarded asleep m' r) :
    StaysGuarded asleep m r where
  toGuarded := h'.toGuarded
  awake := by
    rcases h'.awake with h₁ | h₁
    · rcases h.awake with h₂ | h₂
      · exact Or.inl (h₁.trans h₂)
      · exact Or.inr ⟨h₁.trans h₂.1, h₂.2⟩
    · exact Or.inr h₁
  quiet := h.quiet.trans h'.quiet

theorem StaysGuarded.imp {p q : Prop} (hpq : p → q) (h : StaysGuarded p m r) :
    StaysGuarded q m r :=
  { h with awake := h.awake.imp_right fun hs => ⟨hs.1, hpq hs.2⟩ }

theorem Parked.guarded (hp : Parked c m r) (hs : m.sysState = .safetyDoor ∨ m.sysState = .sleep) :
    StaysGuarded asleep m r where
  sysState := by rw [hp.sysState]; exact hs
  handler := hp.settled
  awake := Or.inl hp.sysState
  quiet := hp.quiet

theorem Stopped.guarded {new : SysState} (h : Stopped c b m new r)
    (hnew : new = .safetyDoor ∨ new = .sleep) : Guarded r where
  sysState := by rw [h.sysState]; exact hnew
  handler := h.handler

theorem Restarted.guarded (h : Restarted c b m r) (hd : m.sysState = .safetyDoor) :
    StaysGuarded asleep m r where
  sysState := Or.inl h.sysState
  handler := h.handler
  awake := Or.inl (h.sysState.trans hd.symm)
  quiet := h.quiet

theorem Guarded.restartCycle (h : Guarded m) : m.restartCycle i = m := by
  unfold Sys.restartCycle
  exact if_pos h.sysState.symm

theorem Guarded.unwind (h : Guarded m) : StaysGuarded asleep m (m.unwind i) := by
  unfold Sys.unwind
  split
  · next fs _ =>
    have h' : Guarded { m with frames := fs } := ⟨h.sysState, h.handler⟩
    rw [h'.restartCycle]
    exact ⟨h', Or.inl rfl, Quiet.of_log rfl⟩
  · exact StaysGuarded.refl h

theorem Guarded.of_coolant (h : Guarded m) {k : ℕ} {fs : List Frame} :
    StaysGuarded asleep m { m with coolant := k, frames := fs } :=
  ⟨⟨h.sysState, h.handler⟩, Or.inl rfl, Quiet.of_log rfl⟩

theorem coolantRestore_eq (m : Sys) : ∃ k, (m.coolantRestore c).1 = { m with coolant := k } := by
  unfold coolantRestore
  split
  · exact ⟨m.coolant, rfl⟩
  · exact ⟨m.restoreCoolant, rfl⟩

theorem Guarded.holdCoolantPart (h : Guarded m) : StaysGuarded asleep m (m.holdCoolantPart c i) := by
  obtain ⟨k, hk⟩ : ∃ k, (if m.restoreCoolant ≠ m.coolant then m.coolantRestore c
      else (m, false)).1 = { m with coolant := k } := by
    split
    · exact coolantRestore_eq m
    · exact ⟨m.coolant, rfl⟩
  unfold Sys.holdCoolantPart
  generalize (if m.restoreCoolant ≠ m.coolant then m.coolantRestore c else (m, false)) = p at hk
  obtain ⟨m', wait⟩ := p
  dsimp only at hk ⊢
  subst hk
  split
  · exact h.of_coolant
  · have h' : Guarded { m with coolant := k } := ⟨h.sysState, h.handler⟩
    rw [h'.restartCycle]
    exact h.of_coolant

/-- `EXEC_CYCLE_START` is of no effect while the door is open. -/
theorem Guarded.resume (h : Guarded m)
    (hajar : m.sysState = .safetyDoor → m.flags.restart = false ∧ i.ajar = true) :
    StaysGuarded asleep m (m.resume c i) := by
  unfold Sys.resume
  split
  · next hs => rcases h.sysState with h' | h' <;> cases hs.symm.trans h'
  · exact StaysGuarded.refl h
  · next hs =>
    obtain ⟨hrestart, hopen⟩ := hajar hs
    have heq : Sys.resumeDoor c i { m with frames := .restartCycle :: m.frames } =
        { m with frames := .restartCycle :: m.frames } := by
      unfold resumeDoor
      exact if_neg (by simp [hrestart, hopen])
    rw [heq]
    have h' : Guarded { m with frames := .restartCycle :: m.frames } := ⟨h.sysState, h.handler⟩
    have hpush : StaysGuarded asleep m { m with frames := .restartCycle :: m.frames } :=
      ⟨h', Or.inl rfl, Quiet.of_log rfl⟩
    exact hpush.trans h'.unwind
  · next hs hd => exact (h.sysState.elim hd hs).elim

theorem Guarded.setSleep (h : Guarded m) (hinv : Inv c b m) (hno : m.NoRestore) :
    StaysGuarded True m (m.setSleep c i) := by
  by_cases hs : m.sysState = .sleep
  · unfold Sys.setSleep
    rw [if_pos hs]
    exact StaysGuarded.refl h
  · have hd := h.sysState.resolve_right hs
    have hst := setSleep_stopped (i := i) hinv (by rw [hd]; decide) hno hs
    exact ⟨hst.guarded (Or.inr rfl), Or.inr ⟨hst.sysState, trivial⟩, hst.quiet⟩

theorem Guarded.awaitResumeComplete (h : Guarded m) :
    StaysGuarded asleep m (m.awaitResumeComplete c) := by
  unfold Sys.awaitResumeComplete
  split
  · dsimp only
    split
    · exact ⟨⟨h.sysState, nofun, nofun⟩, Or.inl rfl, Quiet.of_log rfl⟩
    · exact ⟨⟨h.sysState, h.handler⟩, Or.inl rfl, Quiet.of_log rfl⟩
  · exact StaysGuarded.refl h

theorem Guarded.stateAwaitResume (h : Guarded m) (hinv : Inv c rt.cycleComplete m)
    (hh : m.stateHandler = .awaitResume) (hsleep : rt.sleep = true → m.NoRestore)
    (hajar : rt.cycleStart = true → rt.safetyDoor = false → m.sysState = .safetyDoor →
      m.flags.restart = false ∧ i.ajar = true) :
    StaysGuarded (rt.sleep = true) m (m.stateAwaitResume c i rt) := by
  have h₁ : StaysGuarded (rt.sleep = true) m
        (if rt.cycleComplete then m.awaitResumeComplete c else m) ∧
      Inv c false (if rt.cycleComplete then m.awaitResumeComplete c else m) ∧
      (if rt.cycleComplete then m.awaitResumeComplete c else m).frames = m.frames ∧
      (if rt.cycleComplete then m.awaitResumeComplete c else m).sysState = m.sysState ∧
      (if rt.cycleComplete then m.awaitResumeComplete c else m).flags = m.flags := by
    split
    · refine ⟨h.awaitResumeComplete, awaitResumeComplete_inv hinv hh,
        (awaitResumeComplete_frames m).1, (awaitResumeComplete_frames m).2, ?_⟩
      unfold Sys.awaitResumeComplete
      split
      · dsimp only
        split <;> rfl
      · rfl
    · next hcc =>
      exact ⟨StaysGuarded.refl h, Bool.eq_false_iff.2 hcc ▸ hinv, rfl, rfl, rfl⟩
  unfold Sys.stateAwaitResume
  generalize (if rt.cycleComplete then m.awaitResumeComplete c else m) = m₁ at h₁
  obtain ⟨h₁, hinv₁, hf, hs, hflags⟩ := h₁
  dsimp only
  split
  · exact h₁
  have h₂ : StaysGuarded (rt.sleep = true) m₁ (if rt.sleep then m₁.setSleep c i else m₁) ∧
      (rt.sleep = false → (if rt.sleep then m₁.setSleep c i else m₁) = m₁) ∧
      (rt.sleep = true → (if rt.sleep then m₁.setSleep c i else m₁).sysState = .sleep) := by
    split
    · next hrt =>
      have hno : m₁.NoRestore := by
        rw [NoRestore, hf]
        exact hsleep hrt
      refine ⟨(h₁.toGuarded.setSleep hinv₁ hno).imp fun _ => hrt, fun hf => ?_, fun _ => ?_⟩
      · rw [hrt] at hf
        cases hf
      · by_cases hsl : m₁.sysState = .sleep
        · unfold Sys.setSleep
          rw [if_pos hsl]
          exact hsl
        · have hd := h₁.sysState.resolve_right hsl
          exact (setSleep_stopped hinv₁ (by rw [hd]; decide) hno hsl).sysState
    · next hrt =>
      exact ⟨StaysGuarded.refl h₁.toGuarded, fun _ => rfl, fun ht => (hrt ht).elim⟩
  generalize (if rt.sleep then m₁.setSleep c i else m₁) = m₂ at h₂
  obtain ⟨h₂, hkeep, hslept⟩ := h₂
  refine (h₁.trans h₂).trans ?_
  split
  · exact StaysGuarded.refl h₂.toGuarded
  · next hdoor =>
    split
    · next hstart =>
      refine h₂.toGuarded.resume fun hd => ?_
      cases hsl : rt.sleep with
      | true => cases (hslept hsl).symm.trans hd
      | false =>
          rw [hkeep hsl] at hd ⊢
          rw [hflags]
          exact hajar hstart (by simpa using hdoor) (hs.symm.trans hd)
    · exact StaysGuarded.refl h₂.toGuarded

theorem Guarded.dispatch (h : Guarded m) (hinv : Inv c rt.cycleComplete m) (hrt : Handled c rt m)
    (hajar : rt.cycleStart = true → rt.safetyDoor = false → m.stateHandler = .awaitResume →
      m.sysState = .safetyDoor → m.flags.restart = false ∧ i.ajar = true) :
    StaysGuarded (rt.sleep = true) m (m.dispatch c i rt) := by
  have hwait : ∀ f : Sys → Sys, StaysGuarded (rt.sleep = true) m (f m) →
      StaysGuarded (rt.sleep = true) m (if rt.cycleComplete then f m else m) := by
    intro f hf
    split
    · exact hf
    · exact StaysGuarded.refl h
  have hmoved : ¬m.Awake := fun ha => h.sysState.elim ha.1 ha.2
  unfold Sys.dispatch
  cases hh : m.stateHandler with
  | idle => exact (hmoved (hinv.awake (by simp [hh]))).elim
  | cycle => exact (hmoved (hinv.awake (by simp [hh]))).elim
  | awaitToolchanged => exact (hmoved (hinv.awake (by simp [hh]))).elim
  | awaitMotionCancel => exact (hmoved (hinv.awake (by simp [hh]))).elim
  | noop => exact StaysGuarded.refl h
  | awaitHold =>
      exact hwait (awaitHoldComplete c i)
        ((awaitHoldComplete_parked hinv.softLimit h.sysState).guarded h.sysState)
  | awaitWaypointRetract =>
      have hmotion : m.flags.motion = true → c.parkingEnabled = true :=
        fun hm => hinv.parking (Or.inr hm)
      exact hwait (awaitWaypointRetractComplete c i)
        ((awaitWaypointRetractComplete_parked hmotion).guarded h.sysState)
  | awaitRestartRetract =>
      have hp := awaitHoldComplete_parked (c := c) (i := i)
        (m := { m with executeSysMotion := false, stateHandler := .awaitHold }) hinv.softLimit
        h.sysState
      have hg : StaysGuarded (rt.sleep = true)
          { m with executeSysMotion := false, stateHandler := .awaitHold }
          (m.awaitRestartRetractComplete c i) := hp.guarded h.sysState
      exact hwait (awaitRestartRetractComplete c i) { hg with awake := hg.awake, quiet := hg.quiet }
  | awaitResume =>
      exact h.stateAwaitResume hinv hh (fun hs => hrt.sleep hs (Or.inr hh))
        fun hstart hdoor hs => hajar hstart hdoor hh hs
  | restore => exact (h.handler.1 hh).elim
  | awaitResumed => exact (h.handler.2 hh).elim

theorem Guarded.restoreEnd (h : Guarded m) (hinv : Inv c false m) (hr : m.Restoring) :
    StaysGuarded False m (m.restoreEnd c i (Sys.dispatch c i { cycleComplete := true })) := by
  have hd : m.sysState = .safetyDoor := h.sysState.resolve_right hr.1
  have hrestart : m.flags.restart = true := by
    rcases hr.2 hd with h' | h' | h'
    · exact h'
    · exact (h.handler.1 h').elim
    · exact (h.handler.2 h').elim
  have h' : Inv c false { m with flags := { m.flags with restoring := false } } :=
    { hinv with
      door := fun hd => { hinv.door hd with }
      sleep := fun hs => { hinv.sleep hs with } }
  have heq : m.restoreEnd c i (Sys.dispatch c i { cycleComplete := true }) =
      Sys.restartRetract c i { m with flags := { m.flags with restoring := false } } := by
    unfold Sys.restoreEnd
    exact if_pos hrestart
  rw [heq]
  have hg : StaysGuarded False { m with flags := { m.flags with restoring := false } }
      (Sys.restartRetract c i { m with flags := { m.flags with restoring := false } }) :=
    (h'.restartRetract hd ((hinv.door hd).ramp (Or.inr hrestart))).guarded hd
  exact { hg with awake := hg.awake, quiet := hg.quiet }

theorem Guarded.restoreCoolantPart (h : Guarded m) (hinv : Inv c false m) (hr : m.Restoring) :
    StaysGuarded False m
      (m.restoreCoolantPart c i (Sys.dispatch c i { cycleComplete := true })) := by
  obtain ⟨k, hk⟩ : ∃ k, (if i.modalCoolant ≠ m.coolant then m.coolantRestore c
      else (m, false)).1 = { m with coolant := k } := by
    split
    · exact coolantRestore_eq m
    · exact ⟨m.coolant, rfl⟩
  unfold Sys.restoreCoolantPart
  generalize (if i.modalCoolant ≠ m.coolant then m.coolantRestore c else (m, false)) = p at hk
  obtain ⟨m', wait⟩ := p
  dsimp only at hk ⊢
  subst hk
  split
  · exact h.of_coolant
  · have h' : Guarded { m with coolant := k } := ⟨h.sysState, h.handler⟩
    have hinv' : Inv c false { m with coolant := k } :=
      hinv.of_same_spindle ⟨m.spindle, k, m.log, rfl⟩ rfl
    have hcool : StaysGuarded False m { m with coolant := k } := h.of_coolant
    exact hcool.trans (h'.restoreEnd hinv' hr)

/-- The end of a ramp leaves the spindle off: it has been given up. -/
theorem Guarded.rampEnd {s : Spindle} {fs : List Frame} (h : Guarded m) (hinv : Inv c false m)
    (hf : m.frames = .restore (.ramp s) :: fs) :
    StaysGuarded False { m with frames := fs } (Sys.rampEnd c s { m with frames := fs }) ∧
      Restoring (Sys.rampEnd c s { m with frames := fs }) := by
  have hr := hinv.restoring hf
  have hd : m.sysState = .safetyDoor := h.sysState.resolve_right hr.1
  have hrestart : m.flags.restart = true := by
    rcases hr.2 hd with h' | h' | h'
    · exact h'
    · exact (h.handler.1 h').elim
    · exact (h.handler.2 h').elim
  have hlog := (rampEnd_given_up (m := { m with frames := fs }) s (hinv.parking_of_ramp hf hd hrestart) hrestart).2
  obtain ⟨s', k, l, hs⟩ := rampEnd_same (c := c) (m := { m with frames := fs }) s
  rw [hs] at hlog ⊢
  exact ⟨⟨⟨h.sysState, h.handler⟩, Or.inl rfl, Quiet.of_log hlog⟩, hr⟩

theorem Guarded.delayEnd {f : Frame} {fs : List Frame} (h : Guarded m) (hinv : Inv c false m)
    (hf : m.frames = f :: fs) :
    StaysGuarded False m (Sys.delayEnd c i f { m with frames := fs }) := by
  have hpop : StaysGuarded False m { m with frames := fs } :=
    h.of_coolant (k := m.coolant)
  have h' := hpop.toGuarded
  have hinv' := hinv.pop hf
  refine hpop.trans ?_
  cases f with
  | hold w =>
      cases w with
      | ramp s => exact (h.sysState.elim (hinv.awake_of_ramp hf).1 (hinv.awake_of_ramp hf).2).elim
      | spindle => exact h'.holdCoolantPart
      | coolant =>
          show StaysGuarded False _ (Sys.restartCycle i { m with frames := fs })
          rw [h'.restartCycle]
          exact StaysGuarded.refl h'
  | restartCycle =>
      show StaysGuarded False _ (Sys.restartCycle i { m with frames := fs })
      rw [h'.restartCycle]
      exact StaysGuarded.refl h'
  | restore w =>
      have hr : Restoring { m with frames := fs } := hinv.restoring hf
      cases w with
      | ramp s =>
          obtain ⟨hramp, hr'⟩ := h.rampEnd hinv hf
          have hend := hramp.toGuarded.restoreCoolantPart (i := i) (hinv.rampEnd hf) hr'
          exact hramp.trans (hend.trans hend.toGuarded.unwind)
      | spindle =>
          have hend := h'.restoreCoolantPart (i := i) hinv' hr
          exact hend.trans hend.toGuarded.unwind
      | coolant =>
          have hend := h'.restoreEnd (i := i) hinv' hr
          exact hend.trans hend.toGuarded.unwind

/-! ## The door -/

theorem stateStep_exec (h : stateStep c m (.exec rt i) = some m') :
    m' = Sys.stateUpdate c i rt { m with stepping := m.stepping && !rt.cycleComplete } := by
  simp only [stateStep] at h
  split at h
  · cases h
  · cases h
    rfl

theorem door_guards (hinv : Inv c false m) (ha : AllowedExec c rt i m) (hdoor : rt.safetyDoor = true)
    (hi : ¬m.DoorIgnored) (hstep : stateStep c m (.exec rt i) = some m') :
    Guarded m' ∧ (m'.sysState = .safetyDoor ∨ m'.sysState = .sleep ∧ rt.sleep = true) ∧
      Quiet m m' := by
  rw [stateStep_exec hstep]
  have hinv₀ := hinv.flagged (b := rt.cycleComplete)
  have ha₀ := ha.stepping (s := m.stepping && !rt.cycleComplete)
  obtain ⟨hinv₁, hrt₁⟩ := AllowedExec.handled ha₀ hinv₀
  have hlog : Quiet m { m with stepping := m.stepping && !rt.cycleComplete } := Quiet.of_log rfl
  unfold stateUpdate
  rw [if_pos hdoor] at hinv₁ hrt₁ ⊢
  have hi₀ : ¬DoorIgnored { m with stepping := m.stepping && !rt.cycleComplete } := hi
  generalize { m with stepping := m.stepping && !rt.cycleComplete } = m₀ at *
  -- a machine that is stopped by the door, and what the handler then does
  have hdispatch : ∀ {m₁ : Sys}, Guarded m₁ → m₁.sysState = .safetyDoor → Inv c rt.cycleComplete m₁ →
      Handled c rt m₁ → Quiet m m₁ → Guarded (m₁.dispatch c i rt) ∧
        ((m₁.dispatch c i rt).sysState = .safetyDoor ∨
          (m₁.dispatch c i rt).sysState = .sleep ∧ rt.sleep = true) ∧
        Quiet m (m₁.dispatch c i rt) := by
    intro m₁ hg hs hinv₁ hrt₁ hq
    have h := hg.dispatch (i := i) hinv₁ hrt₁ fun _ hno => by rw [hdoor] at hno; cases hno
    exact ⟨h.toGuarded, h.awake.imp_left fun h' => h'.trans hs, hq.trans h.quiet⟩
  have hrestarted : ∀ {r : Sys}, m₀.sysState = .safetyDoor → Restarted c false m₀ r →
      Guarded r ∧ (r.sysState = .safetyDoor ∨ r.sysState = .sleep ∧ rt.sleep = true) ∧
        Quiet m r := by
    intro r hs hr
    have hg : StaysGuarded False m₀ r := hr.guarded hs
    exact ⟨hg.toGuarded, Or.inl hr.sysState, hlog.trans hr.quiet⟩
  by_cases hs : m₀.sysState = .safetyDoor
  · rw [setSafetyDoor_ignored (Or.inl hs)] at hinv₁ hrt₁ ⊢
    by_cases hh : m₀.stateHandler = .restore
    · have heq : m₀.dispatch c i rt = m₀.restartRetract c i := by
        simp [Sys.dispatch, hh, Sys.stateRestore, hdoor, ha₀.reopened hdoor hh]
      rw [heq]
      have h' := hinv₀.of_lossless (Or.inl hh) (hrt₁.lossless (Or.inl hh)) hdoor
      exact hrestarted hs (h'.restartRetract hs ((h'.door hs).ramp (Or.inl (by simp [hh]))))
    by_cases hh' : m₀.stateHandler = .awaitResumed
    · have heq : m₀.dispatch c i rt = m₀.restartRetract c i := by
        simp [Sys.dispatch, hh', Sys.stateAwaitResumed, hdoor]
      rw [heq]
      have h' := hinv₀.of_lossless (Or.inr hh') (hrt₁.lossless (Or.inr hh')) hdoor
      exact hrestarted hs (h'.restartRetract hs (hrt₁.ramp hh' hdoor))
    exact hdispatch ⟨Or.inl hs, hh, hh'⟩ hs hinv₁ hrt₁ hlog
  · have hst := setSafetyDoor_stopped (i := i) hinv₀ hs hi₀ (ha₀.door hdoor hs hi₀)
    exact hdispatch (hst.guarded (Or.inl rfl)) hst.sysState hinv₁ hrt₁ (hlog.trans hst.quiet)

theorem stateStep_guarded {e : StateEvent} (hinv : Inv c false m) (hg : Guarded m) (ha : Allowed c m e)
    (hajar : Ajar e) (hstep : stateStep c m e = some m') : StaysGuarded (Sleeps e) m m' := by
  cases e with
  | exec rt i =>
      rw [stateStep_exec hstep]
      have hinv₀ := hinv.flagged (b := rt.cycleComplete)
      have ha₀ := AllowedExec.stepping (s := m.stepping && !rt.cycleComplete) ha
      have hg₀ : StaysGuarded (Sleeps (.exec rt i)) m
          { m with stepping := m.stepping && !rt.cycleComplete } :=
        ⟨⟨hg.sysState, hg.handler⟩, Or.inl rfl, Quiet.of_log rfl⟩
      refine hg₀.trans ?_
      have hg₁ := hg₀.toGuarded
      generalize { m with stepping := m.stepping && !rt.cycleComplete } = m₀ at *
      have heq : (if rt.safetyDoor then m₀.setSafetyDoor c i else m₀) = m₀ := by
        split
        · exact setSafetyDoor_ignored (hg₁.sysState.imp_right fun hs => Or.inr (Or.inr (Or.inl hs)))
        · rfl
      unfold stateUpdate
      rw [heq]
      exact hg₁.dispatch hinv₀ ha₀.toHandled fun hstart hno hh hs =>
        ⟨ha₀.restart hstart hno hh hs (hajar hstart), hajar hstart⟩
  | delayEnd i =>
      simp only [stateStep] at hstep
      split at hstep
      · cases hstep
      · next f fs hf =>
        cases hstep
        exact hg.delayEnd hinv hf

theorem Guarded.spindle_off (h : Guarded m) (hinv : Inv c false m) (hstill : m.stepping = false) :
    m.spindle.on = false := by
  rcases h.sysState with hs | hs
  · have hd := hinv.door hs
    by_cases hh : m.stateHandler = .awaitResume
    · exact hd.off hh
    · rcases hd.running hh h.handler.1 h.handler.2 with hr | hr
      · cases hr.symm.trans hstill
      · cases hr
  · rcases (hinv.sleep hs).off with hoff | ⟨-, hr | hr⟩
    · exact hoff
    · cases hr.symm.trans hstill
    · cases hr

end

end Sys

open Sys

/-- The safety door interlock. Once a door event has been handled, the machine is stopped by the door
(or, after `EXEC_SLEEP`, asleep), its spindle is off when nothing moves, and only retract motions have
been started since. -/
theorem door_interlock {c : Settings} {m m₁ m₂ : Sys} {rt : RtExec} {i : Inputs}
    {before after : List StateEvent} (hstart : Start m)
    (hallowed : Along (stateStep c) (Allowed c) m (before ++ .exec rt i :: after))
    (hbefore : run (stateStep c) m before = some m₁)
    (hdoor : rt.safetyDoor = true) (hacts : ¬m₁.DoorIgnored)
    (hafter : run (stateStep c) m₁ (.exec rt i :: after) = some m₂)
    (hajar : ∀ e ∈ after, Ajar e) :
    (m₂.sysState = .safetyDoor ∨ m₂.sysState = .sleep ∧ ∃ e ∈ .exec rt i :: after, Sleeps e) ∧
      (m₂.stepping = false → m₂.spindle.on = false) ∧ Quiet m₁ m₂ := by
  obtain ⟨hpre, hpost⟩ := along_append.1 hallowed
  have hinv₁ : Inv c false m₁ :=
    run_invariant_along stateStep_inv before m m₁ hstart.inv hpre hbefore
  obtain ⟨m', hstep, hrun⟩ := run_cons_eq_some.1 hafter
  have hallowed₁ := hpost m₁ hbefore
  obtain ⟨hg, hstate, hq⟩ := door_guards hinv₁ hallowed₁.1 hdoor hacts hstep
  have hinv' := stateStep_inv m₁ _ m' hinv₁ hallowed₁.1 hstep
  let asleep : Prop := ∃ e ∈ StateEvent.exec rt i :: after, Sleeps e
  -- carried from the door event on
  let I (r : Sys) : Prop := Inv c false r ∧ StaysGuarded asleep m' r
  have hevents : Along (stateStep c) (fun s e => Allowed c s e ∧ (Ajar e ∧ (Sleeps e → asleep))) m'
      after :=
    (hallowed₁.2 m' hstep).and (along_of_forall after m' fun e he =>
      ⟨hajar e he, fun hs => ⟨e, List.mem_cons_of_mem _ he, hs⟩⟩)
  have hI : I m₂ := by
    refine run_invariant_along (I := I) ?_ after m' m₂ ⟨hinv', StaysGuarded.refl hg⟩ hevents hrun
    rintro s e s' ⟨hinv, hsg⟩ ⟨ha, haj, hsl⟩ hs
    exact ⟨stateStep_inv s e s' hinv ha hs,
      hsg.trans ((stateStep_guarded hinv hsg.toGuarded ha haj hs).imp hsl)⟩
  obtain ⟨hinv₂, hsg⟩ := hI
  refine ⟨?_, hsg.toGuarded.spindle_off hinv₂, hq.trans hsg.quiet⟩
  rcases hsg.awake with hs | hs
  · rcases hstate with h | ⟨h, hsl⟩
    · exact Or.inl (hs.trans h)
    · exact Or.inr ⟨hs.trans h, _, List.mem_cons_self .., hsl⟩
  · exact Or.inr hs

/-- The door is open; a motion is queued, with the spindle on. -/
def doorOpen : Inputs where
  ajar := true
  block := some (⟨true, 1000⟩, 0)
  modalSpindle := ⟨true, 1000⟩
  modalCoolant := 0
  toolChange := false
  feedHoldDisable := false
  sync := false
  parkingDisable := false
  homed := true
  position := -20
  planned := fun _ => true

def parkingSettings : Settings where
  parkingEnabled := true
  parkingTarget := -5
  pulloutIncrement := 5
  laser := true
  keepCoolantOn := false
  restoreAfterFeedHold := true
  spindleDelay := true
  coolantDelay := true
  rampUp := false
  rampDown := false
  rampWaits := fun _ _ => false

/-- The machine moves, with the spindle on. -/
def movingSys (state : SysState) : Sys where
  sysState := state
  pendingState := .idle
  stateHandler := .cycle
  executeSysMotion := false
  feedHoldPending := false
  softLimit := false
  isParking := false
  flags := {}
  restoreTarget := 0
  target := 0
  retractWaypoint := 0
  restoreSpindle := .off
  restoreCoolant := 0
  spindle := ⟨true, 1000⟩
  coolant := 0
  stepping := true
  frames := []
  log := []

/-- The door is opened in a cycle; after the deceleration and two retract motions the cycle start
button is pressed. -/
theorem door_interlock_parking : ∃ m₂, run (stateStep parkingSettings) (movingSys .cycle)
      [.exec { safetyDoor := true } doorOpen, .exec { cycleComplete := true } doorOpen,
        .exec { cycleComplete := true } doorOpen, .exec { cycleComplete := true } doorOpen,
        .exec { cycleStart := true } doorOpen] = some m₂ ∧
      (m₂.stepping = false → m₂.spindle.on = false) ∧ Quiet (movingSys .cycle) m₂ := by
  obtain ⟨m₂, hrun⟩ := Option.isSome_iff_exists.1 (show (run (stateStep parkingSettings)
    (movingSys .cycle) [.exec { safetyDoor := true } doorOpen,
      .exec { cycleComplete := true } doorOpen, .exec { cycleComplete := true } doorOpen,
      .exec { cycleComplete := true } doorOpen,
      .exec { cycleStart := true } doorOpen]).isSome by decide +kernel)
  have hstart : Start (movingSys .cycle) :=
    ⟨Or.inr (Or.inl ⟨rfl, rfl, rfl⟩), by decide, fun _ => Or.inl rfl, rfl, rfl, rfl, rfl⟩
  have hbefore : run (stateStep parkingSettings) (movingSys .cycle) [] = some (movingSys .cycle) :=
    rfl
  have h := door_interlock hstart (by decide +kernel) hbefore rfl (by simp [DoorIgnored, movingSys])
    hrun (by simp [Ajar, doorOpen])
  exact ⟨m₂, hrun, h.2⟩

/-- The door is opened during a jog: after the deceleration the machine is still in `STATE_JOG` with
the spindle on, and cycle start enters `STATE_CYCLE` while the door is open. -/
theorem door_during_jog_is_overruled : Start (movingSys .jog) ∧
    (run (stateStep parkingSettings) (movingSys .jog)
        [.exec { safetyDoor := true } doorOpen, .exec { cycleComplete := true } doorOpen]).map
      (fun m => (m.sysState, m.stepping, m.spindle.on)) = some (.jog, false, true) ∧
    (run (stateStep parkingSettings) (movingSys .jog)
        [.exec { safetyDoor := true } doorOpen, .exec { cycleComplete := true } doorOpen,
          .exec { cycleStart := true } doorOpen]).map
      (fun m => (m.sysState, m.spindle.on, m.log)) = some (.cycle, true, [.cycle]) := by
  refine ⟨⟨?_, by decide, fun _ => Or.inl rfl, rfl, rfl, rfl, rfl⟩, by decide +kernel⟩
  exact Or.inr (Or.inr (Or.inr ⟨rfl, rfl⟩))

/-- A feed hold is resumed with a ramp; the door is opened meanwhile, and the spindle is on again at the end of the ramp. -/
example : (run (stateStep { parkingSettings with laser := false, rampUp := true, rampWaits := fun _ _ => true })
      { movingSys .hold with stateHandler := .awaitResume, stepping := false, spindle := .off, restoreSpindle := ⟨true, 1000⟩ }
      [.exec { cycleStart := true } doorOpen, .exec { safetyDoor := true } doorOpen, .delayEnd doorOpen]).map
    (fun m => (m.sysState, m.stepping, m.spindle.on)) = some (.safetyDoor, false, true) := by decide +kernel

end Grbl
