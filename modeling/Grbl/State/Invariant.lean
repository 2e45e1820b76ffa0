import Grbl.State.Retract

/-!
# The invariant of the state machine

* `DoorInv`, `SleepInv`, `Inv` : in `STATE_SAFETY_DOOR` a motion is running unless the handler is one
  that waits for the door or restores; `b` says that `EXEC_CYCLE_COMPLETE` is being handled;
* `setIdle_inv`, `Inv.setCycle`, `Inv.setToolChange`, `Inv.setHold`, `setParked_stopped` : the changes of
  state keep it.
-/

namespace Grbl

namespace Sys

/-- In `STATE_SAFETY_DOOR`. -/
structure DoorInv (c : Settings) (b : Bool) (m : Sys) : Prop where
  handler : m.stateHandler = .awaitHold ∨ m.stateHandler = .awaitWaypointRetract ∨
    m.stateHandler = .awaitRestartRetract ∨ m.stateHandler = .awaitResume ∨
      m.stateHandler = .restore ∨ m.stateHandler = .awaitResumed
  running : m.stateHandler ≠ .awaitResume → m.stateHandler ≠ .restore →
    m.stateHandler ≠ .awaitResumed → m.stepping = true ∨ b = true
  moving : m.executeSysMotion = true → m.stepping = true ∨ b = true
  off : m.stateHandler = .awaitResume → m.spindle.on = false
  restart : m.NoRestore ∨ m.flags.restart = true ∨ m.stateHandler = .restore ∨
    m.stateHandler = .awaitResumed
  hold : m.NoRamp true
  ramp : m.stateHandler ≠ .awaitResumed ∨ m.flags.restart = true → m.NoRamp c.parkingEnabled

/-- In `STATE_SLEEP`. -/
structure SleepInv (b : Bool) (m : Sys) : Prop where
  noRestore : m.NoRestore
  handler : m.stateHandler = .noop ∨ m.stateHandler = .awaitWaypointRetract ∨
    m.stateHandler = .awaitResume
  off : m.spindle.on = false ∨ m.stateHandler = .awaitWaypointRetract ∧ (m.stepping = true ∨ b = true)

/-- The invariant of the state machine. -/
structure Inv (c : Settings) (b : Bool) (m : Sys) : Prop where
  softLimit : m.softLimit = false
  parking : m.executeSysMotion = true ∨ m.flags.motion = true → c.parkingEnabled = true
  pendingDoor : m.pendingState ≠ .safetyDoor ∧ m.pendingState ≠ .sleep
  pending : m.sysState = .idle ∨ m.sysState = .cycle →
    m.pendingState = .idle ∨ m.pendingState = .hold ∧ m.feedHoldPending = true
  cycle : m.sysState = .cycle → m.stepping = true ∨ b = true
  moved : m.sysState = .cycle ∨ m.sysState = .jog →
    m.stateHandler = .cycle ∨ m.stateHandler = .awaitMotionCancel
  restart : m.sysState ≠ .safetyDoor → m.sysState ≠ .sleep → m.flags.restart = false
  toolChange : m.stateHandler = .awaitToolchanged → m.sysState = .toolChange
  resuming : m.stateHandler = .restore ∨ m.stateHandler = .awaitResumed ∨
    m.stateHandler = .awaitRestartRetract → m.sysState = .safetyDoor
  waypoint : m.stateHandler = .awaitWaypointRetract →
    m.sysState = .safetyDoor ∨ m.sysState = .sleep
  door : m.sysState = .safetyDoor → DoorInv c b m
  sleep : m.sysState = .sleep → SleepInv b m

section
variable {c : Settings} {i : Inputs} {b : Bool} {m r : Sys}

theorem DoorInv.mono (h : DoorInv c b m) : DoorInv c true m where
  handler := h.handler
  running := fun _ _ _ => Or.inr rfl
  moving := fun _ => Or.inr rfl
  off := h.off
  restart := h.restart
  hold := h.hold
  ramp := h.ramp

theorem SleepInv.mono (h : SleepInv b m) : SleepInv true m where
  noRestore := h.noRestore
  handler := h.handler
  off := h.off.imp_right fun hw => ⟨hw.1, Or.inr rfl⟩

theorem Inv.mono (h : Inv c b m) : Inv c true m :=
  { h with
    cycle := fun _ => Or.inr rfl
    door := fun hs => (h.door hs).mono
    sleep := fun hs => (h.sleep hs).mono }

theorem Inv.of_parked (hp : Parked c m r) (hs : m.softLimit = false)
    (hpend : m.pendingState ≠ .safetyDoor ∧ m.pendingState ≠ .sleep)
    (hmotion : m.flags.motion = true → c.parkingEnabled = true)
    (hstate : m.sysState = .safetyDoor ∨ m.sysState = .sleep)
    (hrestart : m.NoRestore ∨ m.flags.restart = true ∧ m.sysState = .safetyDoor)
    (hramp : m.NoRamp c.parkingEnabled) : Inv c false r where
  softLimit := hp.softLimit.trans hs
  parking := by
    rintro (hmove | hmo)
    · exact (hp.moving hmove).2
    · exact (hp.motion hmo).elim id hmotion
  pendingDoor := by rw [hp.pendingState]; exact hpend
  pending := by
    rw [hp.sysState]
    rintro (h | h) <;> rcases hstate with h' | h' <;> cases h.symm.trans h'
  cycle := by
    rw [hp.sysState]
    intro h
    rcases hstate with h' | h' <;> cases h.symm.trans h'
  moved := by
    rw [hp.sysState]
    rintro (h | h) <;> rcases hstate with h' | h' <;> cases h.symm.trans h'
  restart := by
    rw [hp.sysState]
    intro h1 h2
    exact (hstate.elim h1 h2).elim
  toolChange := by
    intro h
    rcases hp.handler with ⟨h', -⟩ | ⟨-, h' | ⟨h', -⟩⟩ <;> cases h.symm.trans h'
  resuming := by
    rintro (h | h | h) <;> rcases hp.handler with ⟨h', -⟩ | ⟨-, h' | ⟨h', -⟩⟩ <;>
      cases h.symm.trans h'
  waypoint := fun _ => by rw [hp.sysState]; exact hstate
  door := by
    rw [hp.sysState]
    intro hdoor
    have hramp' : r.NoRamp c.parkingEnabled := by rw [NoRamp, hp.frames]; exact hramp
    refine ⟨?_, ?_, fun hmove => Or.inl (hp.moving hmove).1, ?_, ?_, hramp'.hold, fun _ => hramp'⟩
    · rcases hp.handler with ⟨h', -⟩ | ⟨-, h' | ⟨-, h'⟩⟩
      · exact Or.inr (Or.inl h')
      · exact Or.inr (Or.inr (Or.inr (Or.inl h')))
      · cases hdoor.symm.trans h'
    · intro hne _ _
      rcases hp.handler with ⟨-, hstep⟩ | ⟨-, h' | ⟨-, h'⟩⟩
      · exact Or.inl hstep
      · exact (hne h').elim
      · cases hdoor.symm.trans h'
    · intro h
      rcases hp.handler with ⟨h', -⟩ | ⟨hoff, -⟩
      · cases h.symm.trans h'
      · exact hoff
    · rcases hrestart with hno | ⟨hr, -⟩
      · exact Or.inl (by rw [NoRestore, hp.frames]; exact hno)
      · exact Or.inr (Or.inl (hp.restart.trans hr))
  sleep := by
    rw [hp.sysState]
    intro hsleep
    refine ⟨?_, ?_, ?_⟩
    · rcases hrestart with hno | ⟨-, h'⟩
      · rw [NoRestore, hp.frames]
        exact hno
      · cases hsleep.symm.trans h'
    · rcases hp.handler with ⟨h', -⟩ | ⟨-, h' | ⟨h', -⟩⟩
      · exact Or.inr (Or.inl h')
      · exact Or.inr (Or.inr h')
      · exact Or.inl h'
    · rcases hp.handler with ⟨h', hstep⟩ | ⟨hoff, -⟩
      · exact Or.inr ⟨h', Or.inl hstep⟩
      · exact Or.inl hoff

/-! ## Changes of state -/

theorem setIdle_of_ne (hne : m.sysState ≠ .idle) :
    m.setIdle =
      { m with
        executeSysMotion := false
        sysState := .idle
        pendingState := if m.feedHoldPending then .hold else .idle
        flags := {}
        stateHandler := .idle } := by
  unfold setIdle
  exact if_neg hne

theorem setIdle_inv (hs : m.softLimit = false) (h : m.sysState ≠ .idle ∨ Inv c b m) :
    Inv c false m.setIdle ∧ m.setIdle.sysState = .idle ∧ m.setIdle.frames = m.frames := by
  by_cases hidle : m.sysState = .idle
  · have heq : m.setIdle = m := by
      unfold setIdle
      exact if_pos hidle
    have hinv := h.resolve_left (not_not.2 hidle)
    rw [heq]
    refine ⟨{ hinv with cycle := fun hc => ?_, door := fun hd => ?_, sleep := fun hs => ?_ },
      hidle, rfl⟩
    · cases hidle.symm.trans hc
    · cases hidle.symm.trans hd
    · cases hidle.symm.trans hs
  · rw [setIdle_of_ne hidle]
    refine ⟨?_, rfl, rfl⟩
    refine {
      softLimit := hs
      parking := by simp
      pendingDoor := ?_
      pending := fun _ => ?_
      cycle := fun h => by cases h
      moved := fun h => by rcases h with h | h <;> cases h
      restart := fun _ _ => rfl
      toolChange := fun h => by cases h
      resuming := fun h => by rcases h with h | h | h <;> cases h
      waypoint := fun h => by cases h
      door := fun h => by cases h
      sleep := fun h => by cases h }
    · dsimp only
      split <;> exact ⟨by decide, by decide⟩
    · dsimp only
      split
      · next hf => exact Or.inr ⟨rfl, hf⟩
      · exact Or.inl rfl

theorem Inv.setCycle (h : Inv c b m) : Inv c b (m.setCycle i) := by
  unfold Sys.setCycle
  split
  · next hidle =>
    refine { h with
      pending := fun _ => h.pending (Or.inl hidle.1)
      cycle := fun _ => Or.inl rfl
      moved := fun _ => Or.inl rfl
      restart := fun _ _ => h.restart ?_ ?_
      toolChange := fun h => by cases h
      resuming := fun h => by rcases h with h | h | h <;> cases h
      waypoint := fun h => by cases h
      door := fun h => by cases h
      sleep := fun h => by cases h }
    · rw [hidle.1]; decide
    · rw [hidle.1]; decide
  · exact h

theorem setCycle_frames : (m.setCycle i).frames = m.frames := by
  unfold Sys.setCycle
  split <;> rfl

theorem Inv.setToolChange (h : Inv c b m) (hd : m.sysState ≠ .safetyDoor)
    (hsl : m.sysState ≠ .sleep) : Inv c b m.setToolChange := by
  unfold Sys.setToolChange
  split
  · exact h
  · exact { h with
      pending := fun h => by rcases h with h | h <;> cases h
      cycle := fun h => by cases h
      moved := fun h => by rcases h with h | h <;> cases h
      restart := fun _ _ => h.restart hd hsl
      toolChange := fun _ => rfl
      resuming := fun h => by rcases h with h | h | h <;> cases h
      waypoint := fun h => by cases h
      door := fun h => by cases h
      sleep := fun h => by cases h }

/-- The machine `r` after a feed hold has been accepted in `m`. -/
structure Held (m r : Sys) : Prop where
  sysState : r.sysState = .hold
  pendingState : r.pendingState = .idle ∨ r.pendingState = .hold
  stateHandler : r.stateHandler = .awaitHold ∨ r.stateHandler = .awaitResume
  softLimit : r.softLimit = m.softLimit
  executeSysMotion : r.executeSysMotion = m.executeSysMotion
  flags : r.flags = m.flags
  frames : r.frames = m.frames

/-- A feed hold is accepted, or refused; a pending one is not refused. -/
theorem setHold_cases : Held m (m.setHold i) ∨
    (m.setHold i = m ∨ m.setHold i = { m with feedHoldPending := true }) ∧
      (m.sysState = .hold ∨ ¬(m.pendingState = .hold ∧ m.feedHoldPending = true)) := by
  unfold setHold
  split
  · next hs => exact Or.inr ⟨Or.inl rfl, Or.inl hs⟩
  split
  · refine Or.inl ?_
    unfold initiateHold
    by_cases hc : m.sysState = .cycle
    · simp only [hc, true_or, if_true, decide_true]
      exact ⟨rfl, Or.inl rfl, Or.inl rfl, rfl, rfl, rfl, rfl⟩
    · simp only [hc, false_or, decide_false, Bool.false_eq_true, if_false]
      refine ⟨rfl, ?_, Or.inr rfl, rfl, rfl, rfl, rfl⟩
      dsimp only
      split
      · exact Or.inr rfl
      · exact Or.inl rfl
  · next hno =>
    have hpend : ¬(m.pendingState = .hold ∧ m.feedHoldPending = true) := fun h => hno (Or.inr h)
    split
    · exact Or.inr ⟨Or.inr rfl, Or.inr hpend⟩
    · exact Or.inr ⟨Or.inl rfl, Or.inr hpend⟩

theorem Inv.of_held {b' : Bool} (h : Inv c b m) (hd : m.sysState ≠ .safetyDoor)
    (hsl : m.sysState ≠ .sleep) (hh : Held m r) : Inv c b' r where
  softLimit := hh.softLimit.trans h.softLimit
  parking := by rw [hh.executeSysMotion, hh.flags]; exact h.parking
  pendingDoor := by
    rcases hh.pendingState with hp | hp <;> rw [hp] <;> exact ⟨by decide, by decide⟩
  pending := by rw [hh.sysState]; rintro (h | h) <;> cases h
  cycle := by rw [hh.sysState]; intro h; cases h
  moved := by rw [hh.sysState]; rintro (h | h) <;> cases h
  restart := fun _ _ => by rw [hh.flags]; exact h.restart hd hsl
  toolChange := by intro h; rcases hh.stateHandler with hs | hs <;> cases h.symm.trans hs
  resuming := by
    rintro (h | h | h) <;> rcases hh.stateHandler with hs | hs <;> cases h.symm.trans hs
  waypoint := by intro h; rcases hh.stateHandler with hs | hs <;> cases h.symm.trans hs
  door := by rw [hh.sysState]; intro h; cases h
  sleep := by rw [hh.sysState]; intro h; cases h

theorem Inv.setHold (h : Inv c b m) (hd : m.sysState ≠ .safetyDoor) (hsl : m.sysState ≠ .sleep) :
    Inv c b (m.setHold i) := by
  rcases setHold_cases (m := m) (i := i) with hh | ⟨heq | heq, -⟩
  · exact h.of_held hd hsl hh
  · rw [heq]
    exact h
  · rw [heq]
    exact { h with
      pending := fun hs => (h.pending hs).imp_right fun hp => ⟨hp.1, rfl⟩
      door := fun hs => (hd hs).elim
      sleep := fun hs => (hsl hs).elim }

/-! ## Entering `STATE_SAFETY_DOOR` and `STATE_SLEEP` -/

theorem enterSleep_inv (hs : m.softLimit = false)
    (hpend : m.pendingState ≠ .safetyDoor ∧ m.pendingState ≠ .sleep)
    (hpark : m.executeSysMotion = true ∨ m.flags.motion = true → c.parkingEnabled = true)
    (hstate : m.sysState = .sleep) (hno : m.NoRestore) : Inv c b m.enterSleep where
  softLimit := hs
  parking := hpark
  pendingDoor := hpend
  pending := by
    rintro (h | h) <;> cases hstate.symm.trans h
  cycle := fun h => by cases hstate.symm.trans h
  moved := by
    rintro (h | h) <;> cases hstate.symm.trans h
  restart := fun _ h => (h hstate).elim
  toolChange := fun h => by cases h
  resuming := fun h => by rcases h with h | h | h <;> cases h
  waypoint := fun h => by cases h
  door := fun h => by cases hstate.symm.trans h
  sleep := fun _ => ⟨hno, Or.inl rfl, Or.inl rfl⟩

/-- What `initiate_hold` leaves when the machine does not jog. -/
theorem initiateHold_kept {new : SysState} (hjog : m.sysState ≠ .jog) (hnew : new ≠ .hold) :
    ((m.initiateHold i new).1.pendingState = .idle ∧
      (m.initiateHold i new).1.flags = {} ∧
      (m.initiateHold i new).1.frames = m.frames ∧
      (m.initiateHold i new).1.softLimit = m.softLimit ∧
      (m.initiateHold i new).1.executeSysMotion = m.executeSysMotion ∧
      (m.initiateHold i new).1.stepping = m.stepping ∧
      (m.initiateHold i new).1.log = m.log) ∧
    (m.initiateHold i new).1.stateHandler =
      (if m.sysState = .cycle then .awaitHold else m.stateHandler) ∧
    (m.initiateHold i new).2 = decide (m.sysState = .cycle) := by
  unfold initiateHold
  simp [hjog, hnew]

theorem Inv.of_false (h : Inv c false m) : Inv c b m := by
  cases b with
  | false => exact h
  | true => exact h.mono

theorem decelerate_inv {new : SysState} (h : Inv c b m) (hno : m.NoRestore)
    (hc : m.sysState = .cycle) (hnew : new = .safetyDoor) (hr : r.sysState = new)
    (hpend : r.pendingState = .idle) (hflags : r.flags = {}) (hframes : r.frames = m.frames)
    (hsoft : r.softLimit = m.softLimit) (hmove : r.executeSysMotion = m.executeSysMotion)
    (hstep : r.stepping = m.stepping) (hhandler : r.stateHandler = .awaitHold) : Inv c b r := by
  have hrun : r.stepping = true ∨ b = true := by rw [hstep]; exact h.cycle hc
  rw [hnew] at hr
  exact {
    softLimit := hsoft.trans h.softLimit
    parking := by
      rw [hmove, hflags]
      rintro (hm | hm)
      · exact h.parking (Or.inl hm)
      · cases hm
    pendingDoor := by rw [hpend]; exact ⟨by decide, by decide⟩
    pending := fun _ => Or.inl hpend
    cycle := fun _ => hrun
    moved := by rintro (h | h) <;> cases hr.symm.trans h
    restart := fun hd _ => (hd hr).elim
    toolChange := fun h => by cases hhandler.symm.trans h
    resuming := by rintro (h | h | h) <;> cases hhandler.symm.trans h
    waypoint := fun h => by cases hhandler.symm.trans h
    door := fun _ => {
      handler := Or.inl hhandler
      running := fun _ _ _ => hrun
      moving := fun _ => hrun
      off := fun h => by cases hhandler.symm.trans h
      restart := Or.inl (by rw [NoRestore, hframes]; exact hno)
      hold := by rw [NoRamp, hframes]; exact hno.noRamp
      ramp := fun _ => by rw [NoRamp, hframes]; exact hno.noRamp }
    sleep := fun h => by cases hr.symm.trans h }

/-- The machine `r` after `STATE_SAFETY_DOOR` or `STATE_SLEEP` has been entered from `m`. -/
structure Stopped (c : Settings) (b : Bool) (m : Sys) (new : SysState) (r : Sys) : Prop where
  inv : Inv c b r
  sysState : r.sysState = new
  frames : r.frames = m.frames
  handler : r.stateHandler ≠ .restore ∧ r.stateHandler ≠ .awaitResumed
  quiet : Quiet m r

/-- The machine stops in `STATE_SAFETY_DOOR` or `STATE_SLEEP`: it decelerates from a cycle; from any
other state a cycle stop is simulated. -/
theorem setParked_stopped {new : SysState} (h : Inv c b m) (hjog : m.sysState ≠ .jog)
    (hno : m.NoRestore) (hnew : new = .safetyDoor ∨ new = .sleep) :
    Stopped c b m new (m.setParked c i new) := by
  have hhold : new ≠ .hold := by rcases hnew with rfl | rfl <;> decide
  have hidle : SysState.idle ≠ new := by rcases hnew with rfl | rfl <;> decide
  obtain ⟨⟨hpend, hflags, hframes, hsoft, hmove, hstep, hlog⟩, hhandler, hcycle⟩ :=
    initiateHold_kept (i := i) hjog hhold
  unfold setParked
  generalize m.initiateHold i new = p at hpend hflags hframes hsoft hmove hstep hlog hhandler hcycle
  obtain ⟨m₁, inCycle⟩ := p
  dsimp only at hpend hflags hframes hsoft hmove hstep hlog hhandler hcycle ⊢
  -- the stop, before the machine falls asleep
  have hstop : ∀ m₂ : Sys, m₂ = (if inCycle = true then { m₁ with sysState := new }
      else if m₁.pendingState ≠ new then { m₁ with sysState := new }.awaitHoldComplete c i else m₁) →
      (m₂.sysState = new ∧ m₂.frames = m.frames ∧ Quiet m m₂ ∧ m₂.softLimit = false ∧
        m₂.pendingState = .idle ∧ (m₂.stateHandler ≠ .restore ∧ m₂.stateHandler ≠ .awaitResumed) ∧
        (m₂.executeSysMotion = true ∨ m₂.flags.motion = true → c.parkingEnabled = true)) ∧
      (new = .safetyDoor ∨ m₂.stateHandler = .awaitWaypointRetract → Inv c b m₂) := by
    intro m₂ hm₂
    by_cases hc : m.sysState = .cycle
    · have hin : inCycle = true := by rw [hcycle, hc]; rfl
      rw [if_pos hin] at hm₂
      rw [if_pos hc] at hhandler
      subst hm₂
      refine ⟨⟨rfl, hframes, Quiet.of_log hlog, hsoft.trans h.softLimit, hpend, ?_, ?_⟩, ?_⟩
      · exact ⟨by simp [hhandler], by simp [hhandler]⟩
      · rintro (hm | hm)
        · exact h.parking (Or.inl (hmove ▸ hm))
        · exact absurd hm (by simp [hflags])
      · rintro (hd | hw)
        · exact decelerate_inv h hno hc hd rfl hpend hflags hframes hsoft hmove hstep hhandler
        · cases hhandler.symm.trans hw
    · have hin : ¬inCycle = true := by rw [hcycle]; simpa using hc
      have hne : m₁.pendingState ≠ new := by rw [hpend]; exact hidle
      rw [if_neg hin, if_pos hne] at hm₂
      have hp : Parked c { m₁ with sysState := new } m₂ := by
        rw [hm₂]
        exact awaitHoldComplete_parked (hsoft.trans h.softLimit) hnew
      have hinv : Inv c false m₂ := by
        have hno₁ : NoRestore { m₁ with sysState := new } := by
          rw [NoRestore]
          dsimp only
          rw [hframes]
          exact hno
        refine Inv.of_parked hp (hsoft.trans h.softLimit) ?_ ?_ hnew (Or.inl hno₁) hno₁.noRamp
        · exact ⟨by rw [hpend]; decide, by rw [hpend]; decide⟩
        · intro hm
          exact absurd hm (by simp [hflags])
      refine ⟨⟨hp.sysState, hp.frames.trans hframes, ?_, hinv.softLimit,
        hp.pendingState.trans hpend, hp.settled, hinv.parking⟩, fun _ => hinv.of_false⟩
      have hq : Quiet m { m₁ with sysState := new } := Quiet.of_log hlog
      exact hq.trans hp.quiet
  generalize hm₂ : (if inCycle = true then { m₁ with sysState := new }
      else if m₁.pendingState ≠ new then { m₁ with sysState := new }.awaitHoldComplete c i else m₁) = m₂
  obtain ⟨⟨hstate, hfr, hq, hsl, hpe, hset, hpa⟩, hinv⟩ := hstop m₂ hm₂.symm
  split
  · next hsleep =>
    have hpd : m₂.pendingState ≠ .safetyDoor ∧ m₂.pendingState ≠ .sleep := by
      rw [hpe]
      exact ⟨by decide, by decide⟩
    have hno₂ : m₂.NoRestore := by rw [NoRestore, hfr]; exact hno
    exact ⟨enterSleep_inv hsl hpd hpa hsleep.1 hno₂, hstate, hfr, ⟨nofun, nofun⟩,
      hq.trans (Quiet.of_log rfl)⟩
  · next hawake =>
    refine ⟨hinv ?_, hstate, hfr, hset, hq⟩
    by_contra hne
    push Not at hne
    refine hawake ⟨?_, hne.2⟩
    rw [hstate]
    exact hnew.resolve_left hne.1

end

end Sys

end Grbl
