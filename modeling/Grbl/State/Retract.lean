import Grbl.State.Machine

/-!
# Retracting and de-energizing

* `Quiet` : only retract motions have been started;
* `NoRestore`, `NoRamp` : what is not waiting;
* `Kept` : what the parking manager leaves as it is;
* `Parked` : what it leaves behind, a slow retract motion or a spindle that is off;
* `awaitHoldComplete_parked` : so does the end of a hold in `STATE_SAFETY_DOOR` and `STATE_SLEEP`.
-/

namespace Grbl

namespace Frame

/-- An activation of `state_restore_conditions`, or the ramp of a feed hold that is resumed. -/
def restores : Frame → Bool
  | .hold (.ramp _) | .restore _ => true
  | _ => false

/-- A ramp whose end overrules the door; with `parking` it is given up in a restore. -/
def overrules (parking : Bool) : Frame → Bool
  | .hold (.ramp _) => true
  | .restore (.ramp _) => !parking
  | _ => false

theorem overrules_of_restores {f : Frame} {parking : Bool} (h : f.restores = false) : f.overrules parking = false := by
  cases f with
  | hold w => cases w <;> simp_all [Frame.restores, Frame.overrules]
  | restore w => cases h
  | restartCycle => rfl

theorem overrules_true {f : Frame} {parking : Bool} (h : f.overrules parking = false) : f.overrules true = false := by
  cases f with
  | hold w => cases w <;> simp_all [Frame.overrules]
  | restore w => cases w <;> rfl
  | restartCycle => rfl

end Frame

namespace Sys

/-- Only retract motions have been started in between. -/
def Quiet (m m' : Sys) : Prop :=
  ∃ l, m'.log = l ++ m.log ∧ ∀ e ∈ l, e = .parking .pullOut ∨ e = .parking .retract

theorem Quiet.refl (m : Sys) : Quiet m m := ⟨[], rfl, by simp⟩

theorem Quiet.of_log {m m' : Sys} (h : m'.log = m.log) : Quiet m m' := ⟨[], by simp [h], by simp⟩

theorem Quiet.trans {m m' m'' : Sys} (h : Quiet m m') (h' : Quiet m' m'') : Quiet m m'' := by
  obtain ⟨l, hl, hq⟩ := h
  obtain ⟨l', hl', hq'⟩ := h'
  refine ⟨l' ++ l, by rw [hl', hl, List.append_assoc], fun e he => ?_⟩
  exact (List.mem_append.1 he).elim (hq' e) (hq e)

/-- No activation of `state_restore_conditions` is waiting, nor a ramp. -/
def NoRestore (m : Sys) : Prop := ∀ f ∈ m.frames, f.restores = false

instance (m : Sys) : Decidable m.NoRestore := inferInstanceAs (Decidable (∀ f ∈ m.frames, _))

def NoRamp (parking : Bool) (m : Sys) : Prop := ∀ f ∈ m.frames, f.overrules parking = false

instance (parking : Bool) (m : Sys) : Decidable (m.NoRamp parking) := inferInstanceAs (Decidable (∀ f ∈ m.frames, _))

theorem NoRestore.noRamp {m : Sys} {parking : Bool} (h : m.NoRestore) : m.NoRamp parking :=
  fun f hf => Frame.overrules_of_restores (h f hf)

theorem NoRamp.hold {m : Sys} {parking : Bool} (h : m.NoRamp parking) : m.NoRamp true :=
  fun f hf => Frame.overrules_true (h f hf)

/-- What parking leaves as it is. -/
structure Kept (c : Settings) (m r : Sys) : Prop where
  sysState : r.sysState = m.sysState
  pendingState : r.pendingState = m.pendingState
  frames : r.frames = m.frames
  softLimit : r.softLimit = m.softLimit
  feedHoldPending : r.feedHoldPending = m.feedHoldPending
  restart : r.flags.restart = m.flags.restart
  motion : r.flags.motion = true → c.parkingEnabled = true ∨ m.flags.motion = true
  quiet : Quiet m r

/-- The machine `r` after the parking manager has run on `m`: a slow retract motion is running, or
the spindle is off. -/
structure Parked (c : Settings) (m r : Sys) : Prop extends Kept c m r where
  moving : r.executeSysMotion = true → r.stepping = true ∧ c.parkingEnabled = true
  handler : r.stateHandler = .awaitWaypointRetract ∧ r.stepping = true ∨
    r.spindle.on = false ∧ (r.stateHandler = .awaitResume ∨
      r.stateHandler = .noop ∧ m.sysState = .sleep)

section
variable {c : Settings} {i : Inputs} {m r : Sys}

theorem mcParkingMotion_quiet (p : ParkingMotion) (hp : p = .pullOut ∨ p = .retract) :
    Quiet m (m.mcParkingMotion i p).1 := by
  unfold mcParkingMotion
  split
  · refine ⟨[.parking p], rfl, fun e he => ?_⟩
    rw [List.mem_singleton.1 he]
    rcases hp with rfl | rfl
    · exact Or.inl rfl
    · exact Or.inr rfl
  · exact Quiet.refl m

theorem Kept.refl (c : Settings) (m : Sys) : Kept c m m :=
  ⟨rfl, rfl, rfl, rfl, rfl, rfl, Or.inr, Quiet.refl m⟩

theorem Kept.trans {m' : Sys} (h : Kept c m m') (h' : Kept c m' r) : Kept c m r where
  sysState := h'.sysState.trans h.sysState
  pendingState := h'.pendingState.trans h.pendingState
  frames := h'.frames.trans h.frames
  softLimit := h'.softLimit.trans h.softLimit
  feedHoldPending := h'.feedHoldPending.trans h.feedHoldPending
  restart := h'.restart.trans h.restart
  motion := fun hm => (h'.motion hm).elim Or.inl h.motion
  quiet := h.quiet.trans h'.quiet

theorem Parked.of_kept {m' : Sys} (h : Kept c m m') (h' : Parked c m' r) : Parked c m r where
  toKept := h.trans h'.toKept
  moving := h'.moving
  handler := h.sysState ▸ h'.handler

theorem Parked.settled (h : Parked c m r) :
    r.stateHandler ≠ .restore ∧ r.stateHandler ≠ .awaitResumed := by
  rcases h.handler with ⟨h', -⟩ | ⟨-, h' | ⟨h', -⟩⟩ <;> simp [h']

theorem mcParkingMotion_kept (p : ParkingMotion) (hp : p = .pullOut ∨ p = .retract) :
    Kept c m (m.mcParkingMotion i p).1 := by
  have hq := mcParkingMotion_quiet (m := m) (i := i) p hp
  revert hq
  unfold mcParkingMotion
  split
  · exact fun hq => ⟨rfl, rfl, rfl, rfl, rfl, rfl, Or.inr, hq⟩
  · exact fun _ => Kept.refl c m

theorem mcParkingMotion_started {p : ParkingMotion} (h : (m.mcParkingMotion i p).2 = true) :
    (m.mcParkingMotion i p).1.stepping = true ∧
      (m.mcParkingMotion i p).1.stateHandler = m.stateHandler := by
  unfold mcParkingMotion at h ⊢
  split at h
  · next hp => simp [hp]
  · cases h

theorem mcParkingMotion_refused {p : ParkingMotion} (h : (m.mcParkingMotion i p).2 = false) :
    (m.mcParkingMotion i p).1 = m := by
  unfold mcParkingMotion at h ⊢
  split at h
  · cases h
  · next hp => rw [if_neg hp]

theorem awaitResumeComplete_parked (hoff : m.spindle.on = false)
    (hhandler : m.stateHandler = .awaitResume) (hmove : m.executeSysMotion = false) :
    Parked c m (m.awaitResumeComplete c) := by
  unfold awaitResumeComplete
  split
  · by_cases hs : m.sysState = .sleep
    · simp only [hs, if_true]
      exact {
        toKept := ⟨hs.symm ▸ rfl, rfl, rfl, rfl, rfl, rfl, Or.inr, Quiet.of_log rfl⟩
        moving := fun h => by cases h
        handler := Or.inr ⟨rfl, Or.inr ⟨rfl, hs⟩⟩ }
    · simp only [hs, if_false]
      exact {
        toKept := ⟨rfl, rfl, rfl, rfl, rfl, rfl, Or.inr, Quiet.of_log rfl⟩
        moving := fun h => by cases h
        handler := Or.inr ⟨hoff, Or.inl hhandler⟩ }
  · exact {
      toKept := Kept.refl c m
      moving := fun h => by rw [hmove] at h; cases h
      handler := Or.inr ⟨hoff, Or.inl hhandler⟩ }

theorem awaitWaypointRetractComplete_parked
    (hpark : m.flags.motion = true → c.parkingEnabled = true) :
    Parked c m (m.awaitWaypointRetractComplete c i) := by
  unfold awaitWaypointRetractComplete
  set m' := { m with
    executeSysMotion := false
    spindle := .off
    coolant := if c.keepCoolantOn then m.coolant else 0
    stateHandler := Handler.awaitResume } with hm'
  have hkept : Kept c m m' := ⟨rfl, rfl, rfl, rfl, rfl, rfl, Or.inr, Quiet.of_log rfl⟩
  have hoff : m'.spindle.on = false := rfl
  have hparked : Parked c m' (m'.awaitResumeComplete c) := awaitResumeComplete_parked hoff rfl rfl
  refine Parked.of_kept hkept ?_
  dsimp only
  split
  · next hmotion =>
    cases hs : (m'.mcParkingMotion i .retract).2 with
    | true =>
        obtain ⟨hstep, hhandler⟩ := mcParkingMotion_started hs
        have hspindle : (m'.mcParkingMotion i .retract).1.spindle.on = false := by
          unfold mcParkingMotion
          split <;> rfl
        rw [if_pos rfl]
        exact {
          toKept := mcParkingMotion_kept .retract (Or.inr rfl)
          moving := fun _ => ⟨hstep, hpark hmotion.1⟩
          handler := Or.inr ⟨hspindle, Or.inl hhandler⟩ }
    | false =>
        rw [if_neg Bool.false_ne_true, mcParkingMotion_refused hs]
        exact hparked
  · exact hparked

theorem setRetract_kept : Kept c m (m.setRetract c i) ∧
    (m.setRetract c i).stateHandler = .awaitWaypointRetract := by
  unfold setRetract
  split
  · exact ⟨⟨rfl, rfl, rfl, rfl, rfl, rfl, Or.inr, Quiet.of_log rfl⟩, rfl⟩
  · exact ⟨⟨rfl, rfl, rfl, rfl, rfl, rfl, Or.inr, Quiet.of_log rfl⟩, rfl⟩

theorem pullOut_kept : Kept c m (m.pullOut i).1 := by
  unfold pullOut
  split
  · have hset : Kept c m { m with target := m.retractWaypoint } :=
      ⟨rfl, rfl, rfl, rfl, rfl, rfl, Or.inr, Quiet.of_log rfl⟩
    exact hset.trans (mcParkingMotion_kept .pullOut (Or.inl rfl))
  · exact Kept.refl c m

theorem pullOut_started (h : (m.pullOut i).2 = true) :
    (m.pullOut i).1.stepping = true ∧ (m.pullOut i).1.stateHandler = m.stateHandler := by
  unfold pullOut at h ⊢
  split at h
  · next hlt =>
    rw [if_pos hlt]
    exact mcParkingMotion_started h
  · cases h

theorem startRetract_parked (hpark : c.parkingEnabled = true) : Parked c m (m.startRetract c i) := by
  have hset := setRetract_kept (c := c) (i := i) (m := m)
  unfold startRetract
  generalize m.setRetract c i = m₁ at hset
  have hpull := pullOut_kept (c := c) (i := i) (m := m₁)
  have hstart := pullOut_started (i := i) (m := m₁)
  generalize m₁.pullOut i = p at hpull hstart
  obtain ⟨m₂, awaitMotion⟩ := p
  dsimp only at hpull hstart ⊢
  have hflag : Kept c m₂
      (if m₂.flags.restart then m₂ else { m₂ with flags := { m₂.flags with motion := awaitMotion } }) ∧
      (if m₂.flags.restart then m₂
        else { m₂ with flags := { m₂.flags with motion := awaitMotion } }).stateHandler =
          m₂.stateHandler ∧
      (if m₂.flags.restart then m₂
        else { m₂ with flags := { m₂.flags with motion := awaitMotion } }).stepping = m₂.stepping := by
    split
    · exact ⟨Kept.refl c m₂, rfl, rfl⟩
    · exact ⟨⟨rfl, rfl, rfl, rfl, rfl, rfl, fun _ => Or.inl hpark, Quiet.of_log rfl⟩, rfl, rfl⟩
  generalize (if m₂.flags.restart then m₂
    else { m₂ with flags := { m₂.flags with motion := awaitMotion } }) = m₃ at hflag
  obtain ⟨hkept₃, hhandler₃, hstep₃⟩ := hflag
  have hkept : Kept c m m₃ := (hset.1.trans hpull).trans hkept₃
  cases awaitMotion with
  | true =>
      obtain ⟨hstep, hhandler⟩ := hstart rfl
      rw [if_pos rfl]
      exact {
        toKept := hkept
        moving := fun _ => ⟨hstep₃.trans hstep, hpark⟩
        handler := Or.inl ⟨hhandler₃.trans (hhandler.trans hset.2), hstep₃.trans hstep⟩ }
  | false =>
      rw [if_neg Bool.false_ne_true]
      exact Parked.of_kept hkept (awaitWaypointRetractComplete_parked fun _ => hpark)

theorem holdComplete_eq (hs : m.softLimit = false) :
    m.holdComplete = { m with stateHandler := .awaitResume } := by
  unfold holdComplete
  exact if_neg (by rw [hs]; exact Bool.false_ne_true)

theorem stayParked_parked (hs : m.softLimit = false) (hmove : m.executeSysMotion = false) :
    Parked c m (m.stayParked c) := by
  have heq := holdComplete_eq (m := { m.deenergize c with isParking := false }) hs
  rw [stayParked, heq]
  exact {
    toKept := ⟨rfl, rfl, rfl, rfl, rfl, rfl, Or.inr, Quiet.of_log rfl⟩
    moving := fun h => by
      have h' : m.executeSysMotion = true := h
      rw [hmove] at h'
      cases h'
    handler := Or.inr ⟨rfl, Or.inl rfl⟩ }

theorem park_parked (hs : m.softLimit = false) (hmove : m.executeSysMotion = false) :
    Parked c m (m.park c i) := by
  unfold park
  split
  · next hpark =>
    have hact : Kept c m (m.activate i) ∧ (m.activate i).executeSysMotion = false := by
      unfold activate
      split
      · exact ⟨Kept.refl c m, hmove⟩
      · exact ⟨⟨rfl, rfl, rfl, rfl, rfl, rfl, Or.inr, Quiet.of_log rfl⟩, hmove⟩
    dsimp only
    split
    · have hp := startRetract_parked (c := c) (i := i) (m := m.activate i) hpark.1
      refine Parked.of_kept hact.1 ?_
      exact ⟨⟨hp.sysState, hp.pendingState, hp.frames, hp.softLimit, hp.feedHoldPending, hp.restart,
        hp.motion, hp.quiet⟩, hp.moving, hp.handler⟩
    · exact Parked.of_kept hact.1 (stayParked_parked (hact.1.softLimit.trans hs) hact.2)
  · exact stayParked_parked hs hmove

theorem awaitHoldComplete_parked (hs : m.softLimit = false)
    (hstate : m.sysState = .safetyDoor ∨ m.sysState = .sleep) :
    Parked c m (m.awaitHoldComplete c i) := by
  have hkept : Kept c m { m with executeSysMotion := false } :=
    ⟨rfl, rfl, rfl, rfl, rfl, rfl, Or.inr, Quiet.of_log rfl⟩
  have hp : Parked c { m with executeSysMotion := false }
      ({ m with executeSysMotion := false }.park c i) := park_parked hs rfl
  unfold awaitHoldComplete
  rcases hstate with hstate | hstate
  · simp only [hstate] at hp ⊢
    exact Parked.of_kept (hstate ▸ hkept) hp
  · simp only [hstate] at hp ⊢
    exact Parked.of_kept (hstate ▸ hkept) hp

end

end Sys

end Grbl
