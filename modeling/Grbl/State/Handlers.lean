import Grbl.State.Resume

/-!
# The handlers keep the invariant

* `stateIdle_inv`, …, `stateAwaitResumed_inv` : one lemma a handler;
* `Handled`, `dispatch_inv` : every handler, whatever the flags;
* `delayEnd_inv` : what is left of an activation when its delay ends.
-/

namespace Grbl

namespace Sys

section
variable {c : Settings} {i : Inputs} {b : Bool} {rt : RtExec} {m r : Sys}

/-- The machine is neither stopped by the door nor asleep. -/
def Awake (m : Sys) : Prop := m.sysState ≠ .safetyDoor ∧ m.sysState ≠ .sleep

theorem Inv.of_still {b' : Bool} (h : Inv c b m) (hc : m.sysState ≠ .cycle) (ha : m.Awake) :
    Inv c b' m :=
  { h with
    cycle := fun hs => (hc hs).elim
    door := fun hs => (ha.1 hs).elim
    sleep := fun hs => (ha.2 hs).elim }

theorem Inv.awake (h : Inv c b m) (hh : m.stateHandler = .idle ∨ m.stateHandler = .cycle ∨
    m.stateHandler = .awaitToolchanged ∨ m.stateHandler = .awaitMotionCancel) : m.Awake := by
  refine ⟨fun hd => ?_, fun hs => ?_⟩
  · have hdoor := (h.door hd).handler
    rcases hh with hh | hh | hh | hh <;> simp [hh] at hdoor
  · have hsleep := (h.sleep hs).2
    rcases hh with hh | hh | hh | hh <;> simp [hh] at hsleep

/-! ## The changes of state, for the handlers -/

theorem setCycle_awake (ha : m.Awake) (hj : m.sysState ≠ .jog) :
    (m.setCycle i).Awake ∧ (m.setCycle i).sysState ≠ .jog := by
  unfold setCycle
  split
  · exact ⟨⟨nofun, nofun⟩, nofun⟩
  · exact ⟨ha, hj⟩

theorem setHold_state (m : Sys) (i : Inputs) :
    ((m.setHold i).sysState = .hold ∨ (m.setHold i).sysState = m.sysState) ∧
      (m.setHold i).frames = m.frames := by
  rcases setHold_cases (m := m) (i := i) with hh | ⟨heq | heq, -⟩
  · exact ⟨Or.inl hh.sysState, hh.frames⟩
  · rw [heq]
    exact ⟨Or.inr rfl, rfl⟩
  · rw [heq]
    exact ⟨Or.inr rfl, rfl⟩

theorem setHold_awake (ha : m.Awake) (hj : m.sysState ≠ .jog) :
    (m.setHold i).Awake ∧ (m.setHold i).sysState ≠ .jog := by
  rcases (setHold_state m i).1 with h | h
  · unfold Awake
    rw [h]
    exact ⟨⟨by decide, by decide⟩, by decide⟩
  · unfold Awake
    rw [h]
    exact ⟨ha, hj⟩

theorem setToolChange_state (m : Sys) :
    m.setToolChange.sysState = .toolChange ∧ m.setToolChange.frames = m.frames := by
  unfold setToolChange
  split
  · next h => exact ⟨h, rfl⟩
  · exact ⟨rfl, rfl⟩

theorem setSleep_stopped (h : Inv c b m) (hj : m.sysState ≠ .jog) (hno : m.NoRestore)
    (hs : m.sysState ≠ .sleep) : Stopped c b m .sleep (m.setSleep c i) := by
  unfold setSleep
  rw [if_neg hs]
  exact setParked_stopped h hj hno (Or.inr rfl)

theorem Inv.setSleep (h : Inv c b m) (hj : m.sysState ≠ .jog) (hno : m.NoRestore) :
    Inv c b (m.setSleep c i) := by
  by_cases hs : m.sysState = .sleep
  · unfold Sys.setSleep
    rw [if_pos hs]
    exact h
  · exact (setSleep_stopped h hj hno hs).inv

theorem setSleep_sleeps (h : Inv c b m) (hj : m.sysState ≠ .jog) (hno : m.NoRestore) :
    (m.setSleep c i).sysState = .sleep := by
  by_cases hs : m.sysState = .sleep
  · unfold Sys.setSleep
    rw [if_pos hs]
    exact hs
  · exact (setSleep_stopped h hj hno hs).sysState

/-! ## One lemma a handler -/

theorem stateIdle_inv (h : Inv c b m) (hh : m.stateHandler = .idle)
    (hsleep : rt.sleep = true → m.NoRestore) : Inv c false (m.stateIdle c i rt) := by
  have hmoved : m.sysState ≠ .cycle ∧ m.sysState ≠ .jog := by
    refine ⟨fun hs => ?_, fun hs => ?_⟩
    · rcases h.moved (Or.inl hs) with h' | h' <;> cases hh.symm.trans h'
    · rcases h.moved (Or.inr hs) with h' | h' <;> cases hh.symm.trans h'
  have ha : m.Awake := h.awake (Or.inl hh)
  have h₀ : Inv c false m := h.of_still hmoved.1 ha
  -- what the three tests keep
  let Keeps (r : Sys) : Prop := Inv c false r ∧ (r.Awake ∧ r.sysState ≠ .jog) ∧ r.frames = m.frames
  have h₁ : Keeps (if rt.cycleStart then m.setCycle i else m) := by
    split
    · exact ⟨h₀.setCycle, setCycle_awake ha hmoved.2, setCycle_frames⟩
    · exact ⟨h₀, ⟨ha, hmoved.2⟩, rfl⟩
  unfold stateIdle
  generalize (if rt.cycleStart then m.setCycle i else m) = m₁ at h₁
  have h₂ : Keeps (if rt.feedHold then m₁.setHold i else m₁) := by
    obtain ⟨hinv, ⟨ha, hj⟩, hf⟩ := h₁
    split
    · exact ⟨hinv.setHold ha.1 ha.2, setHold_awake ha hj, (setHold_state m₁ i).2.trans hf⟩
    · exact ⟨hinv, ⟨ha, hj⟩, hf⟩
  dsimp only
  generalize (if rt.feedHold then m₁.setHold i else m₁) = m₂ at h₂
  have h₃ : Keeps (if rt.toolChange then m₂.setToolChange else m₂) := by
    obtain ⟨hinv, ⟨ha, hj⟩, hf⟩ := h₂
    split
    · obtain ⟨hs, hf'⟩ := setToolChange_state m₂
      refine ⟨hinv.setToolChange ha.1 ha.2, ⟨⟨?_, ?_⟩, ?_⟩, hf'.trans hf⟩ <;> simp [hs]
    · exact ⟨hinv, ⟨ha, hj⟩, hf⟩
  generalize (if rt.toolChange then m₂.setToolChange else m₂) = m₃ at h₃
  obtain ⟨hinv, ⟨-, hj⟩, hf⟩ := h₃
  split
  · next hs =>
    refine hinv.setSleep hj ?_
    rw [NoRestore, hf]
    exact hsleep hs
  · exact hinv

theorem stateCycle_inv (h : Inv c rt.cycleComplete m) (hh : m.stateHandler = .cycle) :
    Inv c false (m.stateCycle i rt) := by
  have ha : m.Awake := h.awake (Or.inr (Or.inl hh))
  unfold stateCycle
  split
  · next hrt =>
    rw [hrt] at h
    exact h
  · have h₁ : Inv c false
        (if rt.cycleComplete then if i.toolChange then m.setToolChange else m.setIdle else m) ∧
        Awake (if rt.cycleComplete then if i.toolChange then m.setToolChange else m.setIdle
          else m) := by
      split
      · split
        · have hs := (setToolChange_state m).1
          refine ⟨(h.setToolChange ha.1 ha.2).of_still ?_ ⟨?_, ?_⟩, ?_, ?_⟩ <;> simp [hs]
        · obtain ⟨hinv, hs, -⟩ := setIdle_inv h.softLimit (Or.inr h)
          exact ⟨hinv, by simp [hs], by simp [hs]⟩
      · next hcc => exact ⟨Bool.eq_false_iff.2 hcc ▸ h, ha⟩
    generalize (if rt.cycleComplete then if i.toolChange then m.setToolChange else m.setIdle
      else m) = m₁ at h₁
    obtain ⟨h₁, ha₁⟩ := h₁
    have h₂ : Inv c false
        (if rt.motionCancel then { m₁ with stateHandler := .awaitMotionCancel } else m₁) ∧
        Awake (if rt.motionCancel then { m₁ with stateHandler := .awaitMotionCancel } else m₁) := by
      split
      · refine ⟨{ h₁ with
          moved := fun _ => Or.inr rfl
          toolChange := fun h => by cases h
          resuming := by rintro (h | h | h) <;> cases h
          waypoint := fun h => by cases h
          door := fun hd => (ha₁.1 hd).elim
          sleep := fun hs => (ha₁.2 hs).elim }, ha₁⟩
      · exact ⟨h₁, ha₁⟩
    dsimp only
    generalize (if rt.motionCancel then { m₁ with stateHandler := .awaitMotionCancel } else m₁) =
      m₂ at h₂
    split
    · exact h₂.1.setHold h₂.2.1 h₂.2.2
    · exact h₂.1

theorem stateAwaitToolchanged_inv (h : Inv c b m) (hh : m.stateHandler = .awaitToolchanged) :
    Inv c false (m.stateAwaitToolchanged i rt) := by
  have hs : m.sysState = .toolChange := h.toolChange hh
  unfold stateAwaitToolchanged
  split
  · have hne : m.sysState ≠ .idle := by rw [hs]; decide
    exact (setIdle_inv (b := false)
      (m := { m with pendingState := if i.toolChange then .toolChange else .idle })
      h.softLimit (Or.inl hne)).1.setCycle
  · refine h.of_still ?_ ⟨?_, ?_⟩ <;> simp [hs]

theorem setNoop_inv {new : SysState} (h : Inv c b m) (ha : m.Awake)
    (hnew : new = .alarm ∨ new = .estop ∨ new = .homing ∨ new = .checkMode) :
    Inv c b (m.setNoop new) ∧ (m.setNoop new).sysState = new := by
  unfold setNoop
  split
  · next hs => exact ⟨h, hs⟩
  · refine ⟨{ h with
      pending := ?_, cycle := ?_, moved := ?_, door := ?_, sleep := ?_
      restart := fun _ _ => h.restart ha.1 ha.2
      toolChange := fun h => by cases h
      resuming := by rintro (h | h | h) <;> cases h
      waypoint := fun h => by cases h }, rfl⟩ <;>
      rcases hnew with rfl | rfl | rfl | rfl <;> simp

theorem setJog_inv (h : Inv c b m) (ha : m.Awake) :
    Inv c b m.setJog ∧ m.setJog.sysState = .jog := by
  unfold setJog
  split
  · next hs => exact ⟨h, hs⟩
  · refine ⟨{ h with
      pendingDoor := ?_
      pending := by rintro (h | h) <;> cases h
      cycle := fun h => by cases h
      moved := fun _ => Or.inl rfl
      restart := fun _ _ => h.restart ha.1 ha.2
      toolChange := fun h => by cases h
      resuming := by rintro (h | h | h) <;> cases h
      waypoint := fun h => by cases h
      door := fun h => by cases h
      sleep := fun h => by cases h }, rfl⟩
    dsimp only
    split
    · exact ⟨by decide, by decide⟩
    · exact h.pendingDoor

/-- The pending state is entered at the end of a cancelled motion; a cycle is left. -/
theorem pending_inv (h : Inv c b m) (ha : m.Awake) :
    Inv c b (m.stateSet c i m.pendingState) ∧ (m.stateSet c i m.pendingState).Awake ∧
      (m.stateSet c i m.pendingState).sysState ≠ .cycle := by
  have hpend := h.pending
  have hdoor := h.pendingDoor
  have hto : ∀ {r : Sys} {s : SysState}, r.sysState = s → s ≠ .safetyDoor → s ≠ .sleep →
      s ≠ .cycle → r.Awake ∧ r.sysState ≠ .cycle := by
    rintro r s rfl h1 h2 h3
    exact ⟨⟨h1, h2⟩, h3⟩
  unfold stateSet
  cases hp : m.pendingState with
  | idle =>
      obtain ⟨hinv, hs, -⟩ := setIdle_inv h.softLimit (Or.inr h)
      exact ⟨hinv.of_false, hto hs (by decide) (by decide) (by decide)⟩
  | cycle =>
      have hne : m.sysState ≠ .idle ∧ m.sysState ≠ .cycle := by
        refine ⟨fun hs => ?_, fun hs => ?_⟩
        · have := hpend (Or.inl hs)
          simp [hp] at this
        · have := hpend (Or.inr hs)
          simp [hp] at this
      have heq : m.setCycle i = m := by
        unfold setCycle
        exact if_neg fun hs => hne.1 hs.1
      show Inv c b (m.setCycle i) ∧ (m.setCycle i).Awake ∧ (m.setCycle i).sysState ≠ .cycle
      rw [heq]
      exact ⟨h, ha, hne.2⟩
  | jog => exact ⟨(setJog_inv h ha).1, hto (setJog_inv h ha).2 (by decide) (by decide) (by decide)⟩
  | toolChange =>
      exact ⟨h.setToolChange ha.1 ha.2,
        hto (setToolChange_state m).1 (by decide) (by decide) (by decide)⟩
  | hold =>
      refine ⟨h.setHold ha.1 ha.2, ?_⟩
      show (m.setHold i).Awake ∧ (m.setHold i).sysState ≠ .cycle
      rcases setHold_cases (m := m) (i := i) with hh | ⟨-, hno⟩
      · exact hto hh.sysState (by decide) (by decide) (by decide)
      · have hne : m.sysState ≠ .cycle := by
          intro hs
          rcases hno with hno | hno
          · cases hs.symm.trans hno
          · rcases hpend (Or.inr hs) with h' | h'
            · cases hp.symm.trans h'
            · exact hno h'
        rcases (setHold_state m i).1 with hs | hs
        · exact hto hs (by decide) (by decide) (by decide)
        · exact hto hs ha.1 ha.2 hne
  | safetyDoor => exact (hdoor.1 hp).elim
  | sleep => exact (hdoor.2 hp).elim
  | alarm =>
      have hn : Inv c b (m.setNoop .alarm) ∧ (m.setNoop .alarm).sysState = .alarm :=
        setNoop_inv h ha (by simp)
      exact ⟨hn.1, hto hn.2 (by decide) (by decide) (by decide)⟩
  | estop =>
      have hn : Inv c b (m.setNoop .estop) ∧ (m.setNoop .estop).sysState = .estop :=
        setNoop_inv h ha (by simp)
      exact ⟨hn.1, hto hn.2 (by decide) (by decide) (by decide)⟩
  | homing =>
      have hn : Inv c b (m.setNoop .homing) ∧ (m.setNoop .homing).sysState = .homing :=
        setNoop_inv h ha (by simp)
      exact ⟨hn.1, hto hn.2 (by decide) (by decide) (by decide)⟩
  | checkMode =>
      have hn : Inv c b (m.setNoop .checkMode) ∧ (m.setNoop .checkMode).sysState = .checkMode :=
        setNoop_inv h ha (by simp)
      exact ⟨hn.1, hto hn.2 (by decide) (by decide) (by decide)⟩

theorem awaitMotionCancelComplete_inv (h : Inv c b m) (hh : m.stateHandler = .awaitMotionCancel) :
    Inv c false (m.awaitMotionCancelComplete c i) := by
  have ha : m.Awake := h.awake (Or.inr (Or.inr (Or.inr hh)))
  have h₁ : Inv c b
      (if m.sysState = .jog then { m with executeSysMotion := false, stepping := false } else m) ∧
      Awake
        (if m.sysState = .jog then { m with executeSysMotion := false, stepping := false } else m) := by
    split
    · next hj =>
      refine ⟨{ h with
        parking := fun hp => h.parking (Or.inr (hp.resolve_left nofun))
        cycle := fun hs => by cases hj.symm.trans hs
        door := fun hs => (ha.1 hs).elim
        sleep := fun hs => (ha.2 hs).elim }, ha⟩
    · exact ⟨h, ha⟩
  unfold awaitMotionCancelComplete
  generalize (if m.sysState = .jog then { m with executeSysMotion := false, stepping := false }
    else m) = m₁ at h₁
  obtain ⟨hinv, ha₂, hc⟩ := pending_inv (i := i) h₁.1 h₁.2
  dsimp only
  split
  · have hs := (setToolChange_state (m₁.stateSet c i m₁.pendingState)).1
    refine (hinv.setToolChange ha₂.1 ha₂.2).of_still ?_ ⟨?_, ?_⟩ <;> simp [hs]
  · exact hinv.of_still hc ha₂

theorem awaitHoldComplete_inv (h : Inv c b m) (hh : m.stateHandler = .awaitHold) :
    Inv c false (m.awaitHoldComplete c i) := by
  have hawake : m.Awake → ∀ m' : Sys, m'.softLimit = m.softLimit → m'.sysState = m.sysState →
      m'.flags = m.flags → m'.pendingState = m.pendingState → m'.executeSysMotion = false →
      m'.feedHoldPending = m.feedHoldPending → Inv c false m'.holdComplete := by
    intro ha m' hsoft hs hflags hpend hmove hfh
    have hne : m.sysState ≠ .cycle ∧ m.sysState ≠ .jog := by
      refine ⟨fun hs => ?_, fun hs => ?_⟩
      · rcases h.moved (Or.inl hs) with h' | h' <;> cases hh.symm.trans h'
      · rcases h.moved (Or.inr hs) with h' | h' <;> cases hh.symm.trans h'
    rw [holdComplete_eq (hsoft.trans h.softLimit)]
    exact {
      softLimit := hsoft.trans h.softLimit
      parking := by
        rw [hmove, hflags]
        exact fun hp => h.parking (Or.inr (hp.resolve_left nofun))
      pendingDoor := by rw [hpend]; exact h.pendingDoor
      pending := by rw [hs, hpend, hfh]; exact h.pending
      cycle := by rw [hs]; exact fun hc => (hne.1 hc).elim
      moved := by rw [hs]; exact fun hc => (hc.elim hne.1 hne.2).elim
      restart := by rw [hs, hflags]; exact h.restart
      toolChange := fun h => by cases h
      resuming := by rintro (h | h | h) <;> cases h
      waypoint := fun h => by cases h
      door := by rw [hs]; exact fun hd => (ha.1 hd).elim
      sleep := by rw [hs]; exact fun hd => (ha.2 hd).elim }
  by_cases hd : m.sysState = .safetyDoor
  · refine Inv.of_parked (m := m)
      (awaitHoldComplete_parked h.softLimit (Or.inl hd)) h.softLimit h.pendingDoor
      (fun hm => h.parking (Or.inr hm)) (Or.inl hd) ?_ ((h.door hd).ramp (Or.inl (by simp [hh])))
    rcases (h.door hd).restart with hr | hr | hr | hr
    · exact Or.inl hr
    · exact Or.inr ⟨hr, hd⟩
    · cases hh.symm.trans hr
    · cases hh.symm.trans hr
  by_cases hs : m.sysState = .sleep
  · have hsleep := (h.sleep hs).2
    simp [hh] at hsleep
  -- not parked: the machine waits to be resumed
  have ha : m.Awake := ⟨hd, hs⟩
  unfold awaitHoldComplete
  dsimp only
  split
  · exact hawake ha _ rfl rfl rfl rfl rfl rfl
  · next heq => exact (hs heq).elim
  · next heq => exact (hd heq).elim
  · exact hawake ha _ rfl rfl rfl rfl rfl rfl

/-! ## Resuming -/

theorem holdCoolantPart_inv (h : Inv c false m) : Inv c false (m.holdCoolantPart c i) := by
  have hsame : ∀ p : Sys × Bool, SameButOutputs m p.1 → p.1.spindle = m.spindle →
      Inv c false (if p.2 then { p.1 with frames := .hold .coolant :: p.1.frames }
        else p.1.restartCycle i) := by
    rintro ⟨m', wait⟩ hs hspindle
    have h' : Inv c false m' := h.of_same_spindle hs hspindle
    dsimp only
    split
    · exact h'.push _ (Or.inr (Or.inl rfl))
    · exact restartCycle_inv h'
  have heq : m.holdCoolantPart c i =
      (fun p : Sys × Bool => if p.2 then { p.1 with frames := .hold .coolant :: p.1.frames }
        else p.1.restartCycle i)
      (if m.restoreCoolant ≠ m.coolant then m.coolantRestore c else (m, false)) := rfl
  rw [heq]
  split
  · obtain ⟨hs, hspindle⟩ := coolantRestore_same (c := c) (m := m)
    exact hsame _ hs hspindle
  · exact hsame (m, false) ⟨m.spindle, m.coolant, m.log, rfl⟩ rfl

theorem resumeHold_inv (h : Inv c false m) (ha : m.Awake) : Inv c false (m.resumeHold c i) := by
  unfold resumeHold
  split
  · refine restartCycle_inv (h.of_same ?_ (fun hs => (ha.1 hs).elim) fun hs => (ha.2 hs).elim)
    split
    · exact ⟨m.spindle, m.coolant, m.log, rfl⟩
    · exact ⟨.off, m.coolant, m.log, rfl⟩
  · have hsame : SameButOutputs m
        (if m.restoreSpindle.on ≠ m.spindle.on then m.spindleRestore c else (m, none)).1 := by
      split
      · exact spindleRestore_same
      · exact .refl m
    have hstate : (if m.restoreSpindle.on ≠ m.spindle.on then m.spindleRestore c else (m, none)).1.sysState = m.sysState := by
      obtain ⟨s, k, l, hs⟩ := hsame
      rw [hs]
    generalize (if m.restoreSpindle.on ≠ m.spindle.on then m.spindleRestore c else (m, none)) = p
      at hsame hstate
    obtain ⟨m', w⟩ := p
    have h' : Inv c false m' :=
      h.of_same hsame (fun hs => (ha.1 hs).elim) fun hs => (ha.2 hs).elim
    cases w with
    | some w => exact h'.push _ (Or.inl (by rw [hstate]; exact ha))
    | none => exact holdCoolantPart_inv h'

theorem resumeDoor_inv (h : Inv c false m) (hd : m.sysState = .safetyDoor)
    (hramp : m.NoRamp c.parkingEnabled) : Inv c false (m.resumeDoor c i) := by
  have hrestore : ∀ flags : ParkFlags, flags.motion = m.flags.motion →
      Inv c false { m with stateHandler := .restore, flags := flags } := by
    intro flags hmotion
    exact { h with
      parking := fun hp => h.parking (hp.imp_right fun hm => hmotion.symm.trans hm)
      moved := by rintro (hs | hs) <;> cases hd.symm.trans hs
      restart := fun hs _ => (hs hd).elim
      toolChange := fun h => by cases h
      resuming := fun _ => hd
      waypoint := fun h => by cases h
      door := fun _ => {
        handler := by simp
        running := fun _ hne _ => (hne rfl).elim
        moving := (h.door hd).moving
        off := fun h => by cases h
        restart := by simp
        hold := hramp.hold
        ramp := fun _ => hramp }
      sleep := fun hs => by cases hd.symm.trans hs }
  unfold resumeDoor
  split
  · dsimp only
    split
    · next hmotion =>
      have h₁ := hrestore { m.flags with restart := false } rfl
      split
      · have hm := mcParkingMotion_inv (i := i) .restore h₁ hmotion
        split
        · exact hm
        · refine restoreComplete_inv hm ?_
          unfold mcParkingMotion
          split <;> exact hd
      · exact restoreComplete_inv h₁ hd
    · exact restoreComplete_inv (hrestore m.flags rfl) hd
  · exact h

theorem resume_inv (h : Inv c false m)
    (hramp : m.sysState = .safetyDoor → m.NoRamp c.parkingEnabled) : Inv c false (m.resume c i) := by
  unfold resume
  split
  · exact restartCycle_inv h
  · exact h
  · next hd =>
    exact unwind_inv (resumeDoor_inv (h.push .restartCycle (Or.inr (Or.inl rfl))) hd
      (List.forall_mem_cons.2 ⟨rfl, hramp hd⟩))
  · next hs hd => exact resumeHold_inv h ⟨hd, hs⟩

theorem awaitResumeComplete_inv (h : Inv c b m) (hh : m.stateHandler = .awaitResume) :
    Inv c false (m.awaitResumeComplete c) := by
  have hmoved : m.sysState ≠ .cycle := by
    intro hs
    rcases h.moved (Or.inl hs) with h' | h' <;> cases hh.symm.trans h'
  have hstill : ∀ e : Bool, (e = true → c.parkingEnabled = true) → e = false →
      Inv c false { m with executeSysMotion := e } := by
    rintro e - rfl
    exact { h with
      parking := fun hp => h.parking (Or.inr (hp.resolve_left nofun))
      cycle := fun hs => (hmoved hs).elim
      door := fun hd => { h.door hd with
        running := fun hne _ _ => (hne hh).elim
        moving := nofun }
      sleep := fun hs => { h.sleep hs with
        off := (h.sleep hs).off.imp_right fun hw => by cases hh.symm.trans hw.1 } }
  unfold awaitResumeComplete
  split
  · dsimp only
    split
    · next hs =>
      exact enterSleep_inv h.softLimit h.pendingDoor
        (fun hp => h.parking (Or.inr (hp.resolve_left nofun))) hs (h.sleep hs).1
    · exact hstill false nofun rfl
  · next hpark =>
    have hmove : m.executeSysMotion = false := by
      by_contra hne
      exact hpark (h.parking (Or.inl (by simpa using hne)))
    have := hstill m.executeSysMotion (fun hp => h.parking (Or.inl hp)) hmove
    exact this

theorem awaitResumeComplete_frames (m : Sys) :
    (m.awaitResumeComplete c).frames = m.frames ∧
      (m.awaitResumeComplete c).sysState = m.sysState := by
  unfold awaitResumeComplete
  split
  · dsimp only
    split <;> exact ⟨rfl, rfl⟩
  · exact ⟨rfl, rfl⟩

theorem stateAwaitResume_inv (h : Inv c rt.cycleComplete m) (hh : m.stateHandler = .awaitResume)
    (hsleep : rt.sleep = true → m.NoRestore) :
    Inv c false (m.stateAwaitResume c i rt) := by
  have hj : m.sysState ≠ .jog := by
    intro hs
    rcases h.moved (Or.inr hs) with h' | h' <;> cases hh.symm.trans h'
  have h₁ : Inv c false (if rt.cycleComplete then m.awaitResumeComplete c else m) ∧
      (if rt.cycleComplete then m.awaitResumeComplete c else m).frames = m.frames ∧
      (if rt.cycleComplete then m.awaitResumeComplete c else m).sysState = m.sysState := by
    split
    · exact ⟨awaitResumeComplete_inv h hh, awaitResumeComplete_frames m⟩
    · next hcc => exact ⟨Bool.eq_false_iff.2 hcc ▸ h, rfl, rfl⟩
  unfold stateAwaitResume
  generalize (if rt.cycleComplete then m.awaitResumeComplete c else m) = m₁ at h₁
  obtain ⟨hinv, hf, hs⟩ := h₁
  have hramp : m₁.sysState = .safetyDoor → m₁.NoRamp c.parkingEnabled := by
    intro hd
    rw [NoRamp, hf]
    exact (h.door (hs.symm.trans hd)).ramp (Or.inl (by simp [hh]))
  have h₂ : Inv c false (if rt.sleep then m₁.setSleep c i else m₁) ∧
      ((if rt.sleep then m₁.setSleep c i else m₁).sysState = .safetyDoor →
        (if rt.sleep then m₁.setSleep c i else m₁).NoRamp c.parkingEnabled) := by
    split
    · next hrt =>
      have hno : m₁.NoRestore := by
        rw [NoRestore, hf]
        exact hsleep hrt
      have hj₁ : m₁.sysState ≠ .jog := by rw [hs]; exact hj
      refine ⟨hinv.setSleep hj₁ hno, fun hd => ?_⟩
      rw [setSleep_sleeps hinv hj₁ hno] at hd
      cases hd
    · exact ⟨hinv, hramp⟩
  dsimp only
  generalize (if rt.sleep then m₁.setSleep c i else m₁) = m₂ at h₂
  split
  · exact hinv
  · split
    · exact h₂.1
    · split
      · exact resume_inv h₂.1 h₂.2
      · exact h₂.1

/-! ## Restoring -/

/-- A door event does not swallow the end of a restore motion. -/
def Lossless (rt : RtExec) (m : Sys) : Prop :=
  rt.safetyDoor = true → m.executeSysMotion = true → rt.cycleComplete = false

instance (rt : RtExec) (m : Sys) : Decidable (Lossless rt m) :=
  inferInstanceAs (Decidable (_ → _ → _))

theorem Inv.of_lossless (h : Inv c rt.cycleComplete m)
    (hh : m.stateHandler = .restore ∨ m.stateHandler = .awaitResumed) (hlost : Lossless rt m)
    (hdoor : rt.safetyDoor = true) : Inv c false m := by
  have hd : m.sysState = .safetyDoor := h.resuming (by tauto)
  exact { h with
    cycle := fun hs => by cases hd.symm.trans hs
    door := fun _ => { h.door hd with
      running := fun _ h1 h2 => by tauto
      moving := fun hm => by
        rw [hlost hdoor hm] at h
        exact (h.door hd).moving hm }
    sleep := fun hs => by cases hd.symm.trans hs }

theorem stateRestore_inv (h : Inv c rt.cycleComplete m) (hh : m.stateHandler = .restore)
    (hlost : Lossless rt m) : Inv c false (m.stateRestore c i rt) := by
  have hd : m.sysState = .safetyDoor := h.resuming (Or.inl hh)
  have hramp : m.NoRamp c.parkingEnabled := (h.door hd).ramp (Or.inl (by simp [hh]))
  unfold stateRestore
  split
  · next hdoor =>
    have h' := h.of_lossless (Or.inl hh) hlost hdoor
    split
    · exact { h' with
        restart := fun hs _ => (hs hd).elim
        door := fun _ => { h'.door hd with
          restart := Or.inr (Or.inl rfl)
          ramp := fun _ => hramp }
        sleep := fun hs => by cases hd.symm.trans hs }
    · exact (h'.restartRetract hd hramp).inv
  · split
    · exact restoreComplete_inv h hd
    · next hcc => exact Bool.eq_false_iff.2 hcc ▸ h

theorem stateAwaitResumed_inv (h : Inv c rt.cycleComplete m) (hh : m.stateHandler = .awaitResumed)
    (hlost : Lossless rt m) (hramp : rt.safetyDoor = true → m.NoRamp c.parkingEnabled) :
    Inv c false (m.stateAwaitResumed c i rt) := by
  have hd : m.sysState = .safetyDoor := h.resuming (Or.inr (Or.inl hh))
  unfold stateAwaitResumed
  split
  · next hdoor => exact ((h.of_lossless (Or.inr hh) hlost hdoor).restartRetract hd (hramp hdoor)).inv
  · split
    · exact awaitResumedComplete_inv h
    · next hcc => exact Bool.eq_false_iff.2 hcc ▸ h

theorem awaitWaypointRetractComplete_inv (h : Inv c b m)
    (hh : m.stateHandler = .awaitWaypointRetract) :
    Inv c false (m.awaitWaypointRetractComplete c i) := by
  have hmotion : m.flags.motion = true → c.parkingEnabled = true := fun hm => h.parking (Or.inr hm)
  have hramp : m.NoRamp c.parkingEnabled := by
    rcases h.waypoint hh with hd | hs
    · exact (h.door hd).ramp (Or.inl (by simp [hh]))
    · exact (h.sleep hs).noRestore.noRamp
  refine Inv.of_parked (awaitWaypointRetractComplete_parked hmotion) h.softLimit h.pendingDoor
    hmotion (h.waypoint hh) ?_ hramp
  rcases h.waypoint hh with hd | hs
  · rcases (h.door hd).restart with hr | hr | hr | hr
    · exact Or.inl hr
    · exact Or.inr ⟨hr, hd⟩
    · cases hh.symm.trans hr
    · cases hh.symm.trans hr
  · exact Or.inl (h.sleep hs).1

theorem awaitRestartRetractComplete_inv (h : Inv c b m)
    (hh : m.stateHandler = .awaitRestartRetract) :
    Inv c false (m.awaitRestartRetractComplete c i) := by
  have hd : m.sysState = .safetyDoor := h.resuming (Or.inr (Or.inr hh))
  have hmotion : m.flags.motion = true → c.parkingEnabled = true := fun hm => h.parking (Or.inr hm)
  have hp := awaitHoldComplete_parked (c := c) (i := i)
    (m := { m with executeSysMotion := false, stateHandler := .awaitHold }) h.softLimit (Or.inl hd)
  refine Inv.of_parked hp h.softLimit h.pendingDoor hmotion (Or.inl hd) ?_
    ((h.door hd).ramp (Or.inl (by simp [hh])))
  rcases (h.door hd).restart with hr | hr | hr | hr
  · exact Or.inl hr
  · exact Or.inr ⟨hr, hd⟩
  · cases hh.symm.trans hr
  · cases hh.symm.trans hr

/-! ## Any handler -/

/-- The flags `rt` can be handled in `m`: the machine does not fall asleep while it waits in a restore,
no end of a restore motion is lost, and the door is not opened again during a ramp that is not given up. -/
structure Handled (c : Settings) (rt : RtExec) (m : Sys) : Prop where
  sleep : rt.sleep = true → m.stateHandler = .idle ∨ m.stateHandler = .awaitResume → m.NoRestore
  lossless : m.stateHandler = .restore ∨ m.stateHandler = .awaitResumed → Lossless rt m
  ramp : m.stateHandler = .awaitResumed → rt.safetyDoor = true → m.NoRamp c.parkingEnabled

instance (c : Settings) (rt : RtExec) (m : Sys) : Decidable (Handled c rt m) :=
  decidable_of_iff
    ((rt.sleep = true → m.stateHandler = .idle ∨ m.stateHandler = .awaitResume → m.NoRestore) ∧
      (m.stateHandler = .restore ∨ m.stateHandler = .awaitResumed → Lossless rt m) ∧
      (m.stateHandler = .awaitResumed → rt.safetyDoor = true → m.NoRamp c.parkingEnabled))
    ⟨fun h => ⟨h.1, h.2.1, h.2.2⟩, fun h => ⟨h.sleep, h.lossless, h.ramp⟩⟩

theorem dispatch_inv (h : Inv c rt.cycleComplete m) (hrt : Handled c rt m) :
    Inv c false (m.dispatch c i rt) := by
  -- the handlers that wait for the end of a motion only
  have hwait : ∀ f : Sys → Sys, (Inv c true m → Inv c false (f m)) →
      Inv c false (if rt.cycleComplete then f m else m) := by
    intro f hf
    split
    · exact hf h.mono
    · next hcc => exact Bool.eq_false_iff.2 hcc ▸ h
  unfold dispatch
  cases hh : m.stateHandler with
  | idle => exact stateIdle_inv h hh fun hs => hrt.sleep hs (Or.inl hh)
  | cycle => exact stateCycle_inv h hh
  | noop =>
      refine { h with cycle := fun hs => ?_, door := fun hd => ?_, sleep := fun hs => ?_ }
      · rcases h.moved (Or.inl hs) with h' | h' <;> cases hh.symm.trans h'
      · have hdoor := (h.door hd).handler
        simp [hh] at hdoor
      · refine { h.sleep hs with off := (h.sleep hs).off.imp_right fun hw => ?_ }
        cases hh.symm.trans hw.1
  | awaitToolchanged => exact stateAwaitToolchanged_inv h hh
  | awaitMotionCancel =>
      exact hwait (awaitMotionCancelComplete c i) fun h => awaitMotionCancelComplete_inv h hh
  | awaitHold => exact hwait (awaitHoldComplete c i) fun h => awaitHoldComplete_inv h hh
  | awaitResume => exact stateAwaitResume_inv h hh fun hs => hrt.sleep hs (Or.inr hh)
  | awaitRestartRetract =>
      exact hwait (awaitRestartRetractComplete c i) fun h => awaitRestartRetractComplete_inv h hh
  | awaitWaypointRetract =>
      exact hwait (awaitWaypointRetractComplete c i) fun h => awaitWaypointRetractComplete_inv h hh
  | restore => exact stateRestore_inv h hh (hrt.lossless (Or.inl hh))
  | awaitResumed => exact stateAwaitResumed_inv h hh (hrt.lossless (Or.inr hh)) (hrt.ramp hh)

theorem dispatch_complete_inv (h : Inv c false m) :
    Inv c false (m.dispatch c i { cycleComplete := true }) :=
  dispatch_inv h.mono ⟨nofun, fun _ => nofun, fun _ => nofun⟩

/-- A machine with an activation of `state_restore_conditions` put aside. -/
theorem Inv.restoring {w : Wait} {fs : List Frame} (h : Inv c b m)
    (hf : m.frames = .restore w :: fs) : m.Restoring := by
  have hmem : ¬m.NoRestore := fun hno => by
    cases hno (.restore w) (by rw [hf]; exact List.mem_cons_self ..)
  refine ⟨fun hs => hmem (h.sleep hs).1, fun hd => ?_⟩
  exact (h.door hd).restart.resolve_left hmem

theorem Inv.parking_of_ramp {s : Spindle} {fs : List Frame} (h : Inv c b m)
    (hf : m.frames = .restore (.ramp s) :: fs) (hd : m.sysState = .safetyDoor) (hrestart : m.flags.restart = true) :
    c.parkingEnabled = true := by
  have hramp := (h.door hd).ramp (Or.inr hrestart) _ (by rw [hf]; exact List.mem_cons_self ..)
  simpa [Frame.overrules] using hramp

theorem Inv.rampEnd {s : Spindle} {fs : List Frame} (h : Inv c b m)
    (hf : m.frames = .restore (.ramp s) :: fs) : Inv c b (Sys.rampEnd c s { m with frames := fs }) := by
  have hr := h.restoring hf
  refine (h.pop hf).of_same (rampEnd_same s) (fun hd hh => ?_) fun hs => (hr.1 hs).elim
  have hdoor := h.door hd
  have hh : m.stateHandler = .awaitResume := hh
  have hrestart : m.flags.restart = true := by
    rcases hr.2 hd with h' | h' | h'
    · exact h'
    · cases hh.symm.trans h'
    · cases hh.symm.trans h'
  have hup := (rampEnd_given_up (m := { m with frames := fs }) s (h.parking_of_ramp hf hd hrestart) hrestart).1
  exact Bool.eq_false_iff.2 fun hon => by simp [hdoor.off hh] at hup; simp [hup] at hon

theorem Inv.awake_of_ramp {s : Spindle} {fs : List Frame} (h : Inv c b m)
    (hf : m.frames = .hold (.ramp s) :: fs) : m.Awake := by
  have hmem : Frame.hold (.ramp s) ∈ m.frames := by rw [hf]; exact List.mem_cons_self ..
  refine ⟨fun hd => ?_, fun hs => ?_⟩
  · cases (h.door hd).hold _ hmem
  · cases (h.sleep hs).noRestore _ hmem

theorem delayEnd_inv {f : Frame} {fs : List Frame} (h : Inv c false m) (hf : m.frames = f :: fs) :
    Inv c false (Sys.delayEnd c i f { m with frames := fs }) := by
  have h' := h.pop hf
  cases f with
  | hold w =>
      cases w with
      | ramp s =>
          have ha := h.awake_of_ramp hf
          exact holdCoolantPart_inv (h'.of_same (rampEnd_same s) (fun hs => (ha.1 hs).elim) fun hs => (ha.2 hs).elim)
      | spindle => exact holdCoolantPart_inv h'
      | coolant => exact restartCycle_inv h'
  | restartCycle => exact restartCycle_inv h'
  | restore w =>
      have hr : Restoring { m with frames := fs } := h.restoring hf
      cases w with
      | ramp s =>
          have hr' : Restoring (Sys.rampEnd c s { m with frames := fs }) := by
            obtain ⟨_, _, _, hs⟩ := rampEnd_same (c := c) (m := { m with frames := fs }) s
            rw [hs]
            exact hr
          exact unwind_inv (restoreCoolantPart_inv (h.rampEnd hf) hr' fun _ h => dispatch_complete_inv h)
      | spindle => exact unwind_inv (restoreCoolantPart_inv h' hr fun _ h => dispatch_complete_inv h)
      | coolant => exact unwind_inv (restoreEnd_inv h' hr fun _ h => dispatch_complete_inv h)

end

end Sys

end Grbl
