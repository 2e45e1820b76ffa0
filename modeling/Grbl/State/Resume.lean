import Grbl.State.Invariant

/-!
# Resuming

* `restartRetract_restarted` : a restore that is interrupted ends with the machine parked again;
* `restartCycle_inv`, `unwind_inv` : starting the cycle again keeps the invariant;
* `restoreComplete_inv`, `restoreEnd_inv` : so does restoring, whatever comes in while it waits.
-/

namespace Grbl

namespace Sys

section
variable {c : Settings} {i : Inputs} {b : Bool} {m r : Sys}

/-! ## Restarting the retract -/

/-- The machine `r` is parked again, or will be, after a restore has been interrupted in `m`. -/
structure Restarted (c : Settings) (b : Bool) (m r : Sys) : Prop where
  inv : Inv c b r
  sysState : r.sysState = .safetyDoor
  restart : r.flags.restart = true
  handler : r.stateHandler ≠ .restore ∧ r.stateHandler ≠ .awaitResumed
  frames : r.frames = m.frames
  quiet : Quiet m r

theorem awaitRestartRetractComplete_restarted (hs : m.softLimit = false)
    (hpend : m.pendingState ≠ .safetyDoor ∧ m.pendingState ≠ .sleep)
    (hmotion : m.flags.motion = true → c.parkingEnabled = true) (hdoor : m.sysState = .safetyDoor)
    (hrestart : m.flags.restart = true) (hramp : m.NoRamp c.parkingEnabled) :
    Restarted c false m (m.awaitRestartRetractComplete c i) := by
  have hp : Parked c { m with executeSysMotion := false, stateHandler := .awaitHold }
      (m.awaitRestartRetractComplete c i) := awaitHoldComplete_parked hs (Or.inl hdoor)
  refine ⟨?_, hp.sysState.trans hdoor, hp.restart.trans hrestart, hp.settled, hp.frames, ?_⟩
  · exact Inv.of_parked hp hs hpend hmotion (Or.inl hdoor) (Or.inr ⟨hrestart, hdoor⟩) hramp
  · have hq : Quiet m { m with executeSysMotion := false, stateHandler := .awaitHold } :=
      Quiet.of_log rfl
    exact hq.trans hp.quiet

theorem Restarted.of_false (h : Restarted c false m r) : Restarted c b m r :=
  { h with inv := h.inv.of_false }

theorem restartRetract_restarted (hs : m.softLimit = false)
    (hpend : m.pendingState ≠ .safetyDoor ∧ m.pendingState ≠ .sleep)
    (hpark : m.executeSysMotion = true ∨ m.flags.motion = true → c.parkingEnabled = true)
    (hdoor : m.sysState = .safetyDoor)
    (hmoving : m.executeSysMotion = true → m.stepping = true ∨ b = true)
    (hramp : m.NoRamp c.parkingEnabled) : Restarted c b m (m.restartRetract c i) := by
  let m₁ : Sys := { m with
    stateHandler := .awaitRestartRetract, flags := { m.flags with restart := true } }
  have hstate : m₁.sysState = .safetyDoor := hdoor
  have hquiet : Quiet m m₁ := Quiet.of_log rfl
  change Restarted c b m (if m₁.executeSysMotion then m₁ else m₁.awaitRestartRetractComplete c i)
  split
  · next hmove =>
    have hrun := hmoving hmove
    refine ⟨?_, hstate, rfl, ⟨nofun, nofun⟩, rfl, hquiet⟩
    exact {
      softLimit := hs
      parking := hpark
      pendingDoor := hpend
      pending := by rintro (h | h) <;> cases hdoor.symm.trans h
      cycle := fun h => by cases hdoor.symm.trans h
      moved := by rintro (h | h) <;> cases hdoor.symm.trans h
      restart := fun h _ => (h hdoor).elim
      toolChange := fun h => by cases h
      resuming := fun _ => hdoor
      waypoint := fun h => by cases h
      door := fun _ => {
        handler := Or.inr (Or.inr (Or.inl rfl))
        running := fun _ _ _ => hrun
        moving := fun _ => hrun
        off := fun h => by cases h
        restart := Or.inr (Or.inl rfl)
        hold := hramp.hold
        ramp := fun _ => hramp }
      sleep := fun h => by cases hdoor.symm.trans h }
  · have hr : Restarted c false m₁ (m₁.awaitRestartRetractComplete c i) :=
      awaitRestartRetractComplete_restarted hs hpend (fun h => hpark (Or.inr h)) hdoor rfl hramp
    exact { hr.of_false with
      frames := hr.frames
      quiet := hquiet.trans hr.quiet }

/-- What `restart_retract` needs holds in `STATE_SAFETY_DOOR`. -/
theorem Inv.restartRetract (h : Inv c b m) (hdoor : m.sysState = .safetyDoor)
    (hramp : m.NoRamp c.parkingEnabled) : Restarted c b m (m.restartRetract c i) :=
  restartRetract_restarted h.softLimit h.pendingDoor h.parking hdoor (h.door hdoor).moving hramp

/-! ## The cycle is started again -/

theorem Inv.pop {f : Frame} {fs : List Frame} (h : Inv c b m) (hf : m.frames = f :: fs) :
    Inv c b { m with frames := fs } := by
  have hmem : ∀ g ∈ fs, g ∈ m.frames := fun g hg => hf ▸ List.mem_cons_of_mem _ hg
  have hno : m.NoRestore → Sys.NoRestore { m with frames := fs } := fun hno g hg => hno g (hmem g hg)
  have hramp : ∀ parking, m.NoRamp parking → Sys.NoRamp parking { m with frames := fs } :=
    fun _ hramp g hg => hramp g (hmem g hg)
  exact { h with
    door := fun hd => { h.door hd with
      restart := (h.door hd).restart.imp_left hno
      hold := hramp _ (h.door hd).hold
      ramp := fun hh => hramp _ ((h.door hd).ramp hh) }
    sleep := fun hs => { h.sleep hs with noRestore := hno (h.sleep hs).noRestore } }

theorem awaitResumedComplete_inv (h : Inv c b m) : Inv c false (m.awaitResumedComplete i) := by
  have hclear : m.sysState ≠ .idle ∨
      Inv c b { m with flags := {}, executeSysMotion := false } := by
    by_cases hidle : m.sysState = .idle
    · refine Or.inr { h with
        parking := by rintro (h | h) <;> cases h
        restart := fun _ _ => rfl
        door := fun hd => by cases hidle.symm.trans hd
        sleep := fun hs => by cases hidle.symm.trans hs }
    · exact Or.inl hidle
  exact (setIdle_inv (m := { m with flags := {}, executeSysMotion := false }) h.softLimit
    hclear).1.setCycle

theorem restartCycle_inv (h : Inv c b m) : Inv c b (m.restartCycle i) := by
  unfold restartCycle
  split
  · exact h
  · obtain ⟨hidle, hstate, -⟩ := setIdle_inv h.softLimit (Or.inr h)
    have hinv : Inv c false { m.setIdle with executeSysMotion := m.executeSysMotion } :=
      { hidle with
        parking := fun hp => hp.elim (fun he => h.parking (Or.inl he))
          fun hm => hidle.parking (Or.inr hm)
        door := fun hd => by cases hstate.symm.trans hd
        sleep := fun hs => by cases hstate.symm.trans hs }
    exact hinv.setCycle.of_false

theorem unwind_inv (h : Inv c b m) : Inv c b (m.unwind i) := by
  unfold unwind
  split
  · next hf => exact restartCycle_inv (h.pop hf)
  · exact h

/-! ## Spindle and coolant -/

/-- The machines differ in outputs only. -/
structure SameButOutputs (m r : Sys) : Prop where
  eq : ∃ s k l, r = { m with spindle := s, coolant := k, log := l }

theorem SameButOutputs.refl (m : Sys) : SameButOutputs m m := ⟨m.spindle, m.coolant, m.log, rfl⟩

theorem SameButOutputs.trans {m' : Sys} (h : SameButOutputs m m') (h' : SameButOutputs m' r) : SameButOutputs m r := by
  obtain ⟨s, k, l, rfl⟩ := h
  obtain ⟨s', k', l', rfl⟩ := h'
  exact ⟨s', k', l', rfl⟩

theorem setSpindle_same (m : Sys) (s : Spindle) : SameButOutputs m (m.setSpindle s) := by
  unfold setSpindle
  split <;> exact ⟨_, _, _, rfl⟩

theorem spindleRamp_same (s : Spindle) : SameButOutputs m (m.spindleRamp c s).1 := by
  unfold spindleRamp
  generalize c.rampWaits m.spindle.rpm (if s.on = true then s.rpm else 0) = waits
  cases waits with
  | false => exact setSpindle_same _ _
  | true =>
      show SameButOutputs m (if _ then _ else _)
      split
      · exact setSpindle_same _ _
      · exact .refl m

theorem spindleRestore_same : SameButOutputs m (m.spindleRestore c).1 := by
  unfold spindleRestore
  split
  · exact setSpindle_same _ _
  split
  · exact .refl m
  generalize (if m.restoreSpindle.on = true then c.rampUp else c.rampDown) = ramp
  cases ramp with
  | true => exact spindleRamp_same _
  | false => exact setSpindle_same _ _

theorem rampEnd_same (s : Spindle) : SameButOutputs m (m.rampEnd c s) := by
  unfold rampEnd
  split
  · split
    · exact ⟨_, _, _, rfl⟩
    · exact setSpindle_same _ _
  · refine SameButOutputs.trans ?_ (setSpindle_same _ _)
    split
    · exact .refl m
    · exact setSpindle_same _ _

theorem rampEnd_given_up (s : Spindle) (hpark : c.parkingEnabled = true) (hrestart : m.flags.restart = true) :
    ((m.rampEnd c s).spindle.on = true → m.spindle.on = true) ∧ (m.rampEnd c s).log = m.log := by
  unfold rampEnd
  rw [if_pos ⟨hpark, hrestart⟩]
  split
  · exact ⟨id, rfl⟩
  · next hs =>
    unfold setSpindle
    rw [if_neg hs]
    exact ⟨nofun, rfl⟩

theorem coolantRestore_same : SameButOutputs m (m.coolantRestore c).1 ∧
    (m.coolantRestore c).1.spindle = m.spindle := by
  unfold coolantRestore
  split
  · exact ⟨⟨m.spindle, m.coolant, m.log, rfl⟩, rfl⟩
  · exact ⟨⟨_, _, _, rfl⟩, rfl⟩

theorem Inv.of_same (h : Inv c b m) (hsame : SameButOutputs m r)
    (hoff : m.sysState = .safetyDoor → m.stateHandler = .awaitResume → r.spindle.on = false)
    (hsleep : m.sysState = .sleep → r.spindle = m.spindle) : Inv c b r := by
  obtain ⟨s, k, l, rfl⟩ := hsame
  exact { h with
    door := fun hd => { h.door hd with off := hoff hd }
    sleep := fun hs => { h.sleep hs with
      off := (h.sleep hs).off.imp_left fun ho => by rw [hsleep hs]; exact ho } }

theorem Inv.of_same_spindle (h : Inv c b m) (hsame : SameButOutputs m r)
    (hspindle : r.spindle = m.spindle) : Inv c b r :=
  h.of_same hsame (fun hd hh => by rw [hspindle]; exact (h.door hd).off hh) fun _ => hspindle

/-! ## Restoring -/

/-- An activation of `state_restore_conditions` may be put aside here. -/
def Restoring (m : Sys) : Prop :=
  m.sysState ≠ .sleep ∧ (m.sysState = .safetyDoor →
    m.flags.restart = true ∨ m.stateHandler = .restore ∨ m.stateHandler = .awaitResumed)

/-- A frame above: elsewhere than where the machine is stopped, one that restores nothing, or one of a restore. -/
theorem Inv.push (h : Inv c b m) (f : Frame)
    (hf : (m.sysState ≠ .safetyDoor ∧ m.sysState ≠ .sleep) ∨ f.restores = false ∨
      m.Restoring ∧ f.overrules true = false ∧
        (f.overrules c.parkingEnabled = false ∨ m.stateHandler = .awaitResumed ∧ m.flags.restart = false)) :
    Inv c b { m with frames := f :: m.frames } := by
  have hramp : ∀ parking, f.overrules parking = false → m.NoRamp parking →
      Sys.NoRamp parking { m with frames := f :: m.frames } :=
    fun _ hf hramp => List.forall_mem_cons.2 ⟨hf, hramp⟩
  have hno : f.restores = false → m.NoRestore → Sys.NoRestore { m with frames := f :: m.frames } :=
    fun hf hno => List.forall_mem_cons.2 ⟨hf, hno⟩
  refine { h with door := fun hd => ?_, sleep := fun hsl => ?_ }
  · have h' := h.door hd
    rcases hf with ⟨hf, -⟩ | hf | ⟨hr, hhold, hf⟩
    · exact (hf hd).elim
    · exact { h' with
        restart := h'.restart.imp_left (hno hf)
        hold := hramp _ (Frame.overrules_of_restores hf) h'.hold
        ramp := fun hh => hramp _ (Frame.overrules_of_restores hf) (h'.ramp hh) }
    · refine { h' with restart := Or.inr (hr.2 hd), hold := hramp _ hhold h'.hold, ramp := fun hh => ?_ }
      rcases hf with hf | ⟨hhandler, hrestart⟩
      · exact hramp _ hf (h'.ramp hh)
      · rcases hh with hh | hh
        · exact (hh hhandler).elim
        · cases hrestart.symm.trans hh
  · rcases hf with ⟨-, hf⟩ | hf | ⟨hr, -⟩
    · exact (hf hsl).elim
    · exact { h.sleep hsl with noRestore := hno hf (h.sleep hsl).noRestore }
    · exact (hr.1 hsl).elim

theorem mcParkingMotion_inv (p : ParkingMotion) (h : Inv c b m) (hmotion : m.flags.motion = true) :
    Inv c b (m.mcParkingMotion i p).1 := by
  unfold mcParkingMotion
  split
  · exact { h with
      parking := fun _ => h.parking (Or.inr hmotion)
      cycle := fun _ => Or.inl rfl
      door := fun hd => { h.door hd with
        running := fun _ _ _ => Or.inl rfl
        moving := fun _ => Or.inl rfl }
      sleep := fun hs => { h.sleep hs with
        off := (h.sleep hs).off.imp_right fun hw => ⟨hw.1, Or.inl rfl⟩ } }
  · exact h

theorem restoreEnd_inv (h : Inv c false m) (hr : m.Restoring) {next : Sys → Sys}
    (hnext : ∀ m, Inv c false m → Inv c false (next m)) : Inv c false (m.restoreEnd c i next) := by
  have h' : Inv c false { m with flags := { m.flags with restoring := false } } :=
    { h with door := fun hd => { h.door hd with }, sleep := fun hs => { h.sleep hs with } }
  unfold restoreEnd
  dsimp only
  split
  · next hrestart =>
    have hdoor : m.sysState = .safetyDoor := by
      by_contra hne
      rw [h.restart hne hr.1] at hrestart
      cases hrestart
    exact (h'.restartRetract (i := i) hdoor ((h.door hdoor).ramp (Or.inr hrestart))).inv
  · split
    · next hmotion =>
      have hp := mcParkingMotion_inv (i := i) .plunge h' hmotion
      split
      · exact hp
      · exact hnext _ hp
    · exact hnext _ h'

theorem restoreCoolantPart_inv (h : Inv c false m) (hr : m.Restoring) {next : Sys → Sys} (hnext : ∀ m, Inv c false m → Inv c false (next m)) :
    Inv c false (m.restoreCoolantPart c i next) := by
  have hsame : ∀ p : Sys × Bool, SameButOutputs m p.1 → p.1.spindle = m.spindle →
      Inv c false (if p.2 then { p.1 with frames := .restore .coolant :: p.1.frames }
        else p.1.restoreEnd c i next) := by
    rintro ⟨m', wait⟩ hs hspindle
    have h' : Inv c false m' := h.of_same_spindle hs hspindle
    have hr' : m'.Restoring := by
      obtain ⟨s, k, l, hs⟩ := hs
      dsimp only at hs
      rw [hs]
      exact hr
    dsimp only
    split
    · exact h'.push _ (Or.inr (Or.inr ⟨hr', rfl, Or.inl rfl⟩))
    · exact restoreEnd_inv h' hr' hnext
  have heq : m.restoreCoolantPart c i next =
      (fun p : Sys × Bool => if p.2 then { p.1 with frames := .restore .coolant :: p.1.frames }
        else p.1.restoreEnd c i next)
      (if i.modalCoolant ≠ m.coolant then m.coolantRestore c else (m, false)) := rfl
  rw [heq]
  split
  · obtain ⟨hs, hspindle⟩ := coolantRestore_same (c := c) (m := m)
    exact hsame _ hs hspindle
  · exact hsame (m, false) ⟨m.spindle, m.coolant, m.log, rfl⟩ rfl

theorem restoreComplete_inv (h : Inv c b m) (hdoor : m.sysState = .safetyDoor) :
    Inv c false (m.restoreComplete c i) := by
  have hold : m.NoRamp true := (h.door hdoor).hold
  let m₁ : Sys := { m with
    executeSysMotion := false
    flags := { m.flags with restart := false, restoring := true }
    stateHandler := .awaitResumed }
  have h₁ : Inv c false m₁ := {
    softLimit := h.softLimit
    parking := fun hp => h.parking (Or.inr (hp.resolve_left fun h => by cases h))
    pendingDoor := h.pendingDoor
    pending := by rintro (h | h) <;> cases hdoor.symm.trans h
    cycle := fun h => by cases hdoor.symm.trans h
    moved := by rintro (h | h) <;> cases hdoor.symm.trans h
    restart := fun h _ => (h hdoor).elim
    toolChange := fun h => by cases h
    resuming := fun _ => hdoor
    waypoint := fun h => by cases h
    door := fun _ => {
      handler := Or.inr (Or.inr (Or.inr (Or.inr (Or.inr rfl))))
      running := fun _ _ hne => (hne rfl).elim
      moving := fun h => by cases h
      off := fun h => by cases h
      restart := Or.inr (Or.inr (Or.inr rfl))
      hold := hold
      ramp := fun h => h.elim (fun h => (h rfl).elim) nofun }
    sleep := fun h => by cases hdoor.symm.trans h }
  have hs := spindleRestore_same (c := c) (m := m₁)
  have h₂ : Inv c false (m₁.spindleRestore c).1 := 
    h₁.of_same hs (fun _ hh => by cases hh) fun hsl => by cases hdoor.symm.trans hsl
  have hr₂ : (m₁.spindleRestore c).1.Restoring ∧ (m₁.spindleRestore c).1.stateHandler = .awaitResumed ∧
      (m₁.spindleRestore c).1.flags.restart = false := by
    obtain ⟨s, k, l, hs⟩ := hs
    rw [hs]
    exact ⟨⟨by change m.sysState ≠ _; rw [hdoor]; decide, fun _ => Or.inr (Or.inr rfl)⟩, rfl, rfl⟩
  unfold restoreComplete
  dsimp only
  generalize Sys.spindleRestore c m₁ = p at h₂ hr₂ ⊢
  obtain ⟨m₂, w⟩ := p
  cases w with
  | some w => exact h₂.push _ (Or.inr (Or.inr ⟨hr₂.1, by cases w <;> rfl, Or.inr hr₂.2⟩))
  | none => exact restoreCoolantPart_inv h₂ hr₂.1 fun _ h => awaitResumedComplete_inv h

end

end Sys

end Grbl
