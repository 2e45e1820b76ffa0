import Grbl.Lib.Run
import Grbl.Motion.Backlash

/-!
# The speed of a Huanyang VFD

`huanyang.c` between selections of the spindle. While `modbus_send` waits for a reply it executes realtime commands, so calls may come
in; it refuses to wait twice. A message that is not waited for is queued. `sys.blocking_event` is not set; what else is sent to the
drive is left out.

* `Command`, `Phase`, `Machine` : a speed as it is sent, what is waited for, the static variables and the drive;
* `spindleSetAtSpeedRange`, `setRpm`, `spindleUpdateRPM`, `spindleSetState`, `rxPacket` : the functions;
* `Action`, `step` : calls, the end of a wait, and what becomes of a queued command;
* `Delivered` : what is to hold; `Sound` : by which steps it does; `speeds_delivered_iff`.
-/

namespace Grbl.Spindle.Huanyang
open Lib
open Motion (lround)
open scoped Grbl.Lib.Literal Grbl.Lib.OrderedField

/-- `spindle_state_t` -/
structure SpindleState where
  on : Bool
  ccw : Bool
  deriving DecidableEq, Repr

/-- What has become of a command when `modbus_send` returns: the drive has received it, it is queued, or it is refused or lost. -/
inductive Delivery
  | received | queued | lost
  deriving DecidableEq, Repr

/-- The requests of `get_rpm_range`. -/
inductive RangeRequest
  | rpmAt50Hz | minRPM | maxRPM
  deriving DecidableEq, Repr

section
variable {K : Type*} [Field K] [LinearOrder K]

/-- The speed of a call. -/
abbrev Rpm (K : Type*) [Zero K] [LE K] := { rpm : K // 0 ≤ rpm }

/-- A set-speed command: the speed it is for, and its data. -/
structure Command (K : Type*) where
  rpm : K
  word : ℕ
  deriving DecidableEq

/-- Where `spindleSetState` waits, with its arguments. -/
inductive Phase (K : Type*) [Zero K] [LE K]
  | idle
  | range (request : RangeRequest) (state : SpindleState) (rpm : Rpm K)
  | mode (rpm : Rpm K)
  | speed (rpm : Rpm K)

/-- `spindle_data_t` -/
structure SpindleData (K : Type*) where
  rpmProgrammed : K
  atSpeed : Bool
  atSpeedEnabled : Bool
  rpmLowLimit : K
  rpmHighLimit : K

/-- The variables, the commands queued, and the last one that the drive has received; if a call for a speed that the drive has not
received has sent nothing, and if the data of a speed in the range of the spindle has been cut to 16 bits. -/
structure Machine (K : Type*) [Zero K] [LE K] where
  rpmAt50Hz : K
  rpmMin : K
  rpmMax : K
  atSpeedTolerance : K
  ready : Bool
  state : SpindleState
  data : SpindleData K
  phase : Phase K := .idle
  queue : List (Command K) := []
  received : Option (Command K) := none
  missed : Bool := false
  truncated : Bool := false

/-- The last speed that the drive has received is `rpm`. -/
def Machine.Has (m : Machine K) (rpm : K) : Prop := m.received.map Command.rpm = some rpm

instance (m : Machine K) (rpm : K) : Decidable (m.Has rpm) := by
  unfold Machine.Has
  infer_instance

namespace Machine
variable (m : Machine K)

def spindleSetAtSpeedRange (rpm : K) : Machine K :=
  let data := { m.data with rpmProgrammed := rpm, atSpeed := false, atSpeedEnabled := decide (m.atSpeedTolerance > 0) }
  { m with data :=
      if m.atSpeedTolerance > 0 then
        { data with
          rpmLowLimit := rpm * (1 - m.atSpeedTolerance / 100)
          rpmHighLimit := rpm * (1 + m.atSpeedTolerance / 100) }
      else data }

/-- A call returns without having sent a speed. -/
def skip (rpm : K) : Machine K := { m with missed := m.missed || !decide (m.Has rpm) }

/-- The speed is in the range of the spindle. -/
def InRange (rpm : K) : Prop := m.rpmMin ≤ rpm ∧ rpm ≤ m.rpmMax

instance (rpm : K) : Decidable (m.InRange rpm) := by
  unfold InRange
  infer_instance

variable [FloorRing K]

/-- `lroundf(rpm * 5000.0f / rpm_at_50Hz)` -/
def speed (rpm : K) : ℕ := (lround (rpm * 5000 / m.rpmAt50Hz)).toNat

/-- The message of `set_rpm`; `adu[3]` and `adu[4]` hold 16 bits. -/
def command (rpm : K) : Command K := ⟨rpm, m.speed rpm % 65536⟩

/-- The message is sent, and `modbus_send` returns; what it returns is not looked at. -/
def setRpm (rpm : K) (d : Delivery) : Machine K :=
  let m := { m with truncated := m.truncated || (decide (m.InRange rpm) && decide (65536 ≤ m.speed rpm)) }
  let m :=
    match d with
    | .received => { m with received := some (m.command rpm) }
    | .queued => { m with queue := m.queue ++ [m.command rpm] }
    | .lost => m
  m.spindleSetAtSpeedRange rpm

/-- `set_rpm` is waiting: its `busy` is not 0. -/
def busy : Bool :=
  match m.phase with
  | .speed _ => true
  | _ => false

def spindleUpdateRPM (rpm : Rpm K) (d : Delivery) : Machine K :=
  if m.busy then m.skip rpm.1
  else if m.rpmAt50Hz ≠ 0 ∧ rpm.1 ≠ m.data.rpmProgrammed then m.setRpm rpm.1 d
  else m.skip rpm.1

/-- The assignments of `spindleSetState`. -/
def assign (state : SpindleState) : Machine K :=
  { m with
    data := if m.state.ccw ≠ state.ccw then { m.data with rpmProgrammed := -1 } else m.data
    state := state }

/-- The message that sets the direction is sent. -/
def sendMode (state : SpindleState) (rpm : Rpm K) : Machine K := { m.assign state with phase := .mode rpm }

/-- `spindleSetState`. In the middle of `get_rpm_range` it is not busy, but none of its messages is sent. -/
def spindleSetState (state : SpindleState) (rpm : Rpm K) : Machine K :=
  match m.phase with
  | .idle =>
      if state.on && !m.ready then { m with rpmAt50Hz := 0, phase := .range .rpmAt50Hz state rpm } else m.sendMode state rpm
  | .range _ _ _ => ({ m with rpmAt50Hz := if state.on && !m.ready then 3000 else m.rpmAt50Hz }.assign state).skip rpm.1
  | .mode _ | .speed _ => m.skip rpm.1

/-- `rx_packet`, for the replies to `get_rpm_range`. -/
def rxPacket (request : RangeRequest) (value : UInt16) : Machine K :=
  match request with
  | .rpmAt50Hz => { m with rpmAt50Hz := value.toNat }
  | .minRPM => if m.rpmAt50Hz ≠ 0 then { m with rpmMin := value.toNat * m.rpmAt50Hz / 5000 } else m
  | .maxRPM => { m with rpmMax := if m.rpmAt50Hz ≠ 0 then value.toNat * m.rpmAt50Hz / 5000 else m.rpmMax, ready := true }

/-- The end of `get_rpm_range`. -/
def endRange : Machine K := if m.rpmAt50Hz = 0 then { m with rpmAt50Hz := 3000 } else m

/-- The wait for a reply ends: what `modbus_send` returns, the value of the reply if it is handed to `rx_packet`, and what has become
of the command. -/
def done (returned : Bool) (value : Option UInt16) (d : Delivery) : Machine K :=
  match m.phase with
  | .idle => m
  | .range request state rpm =>
      let m := value.elim m (m.rxPacket request)
      match returned, request with
      | true, .rpmAt50Hz => { m with phase := .range .minRPM state rpm }
      | true, .minRPM => { m with phase := .range .maxRPM state rpm }
      | _, _ => m.endRange.sendMode state rpm
  | .mode rpm =>
      if returned = true ∧ m.rpmAt50Hz ≠ 0 ∧ rpm.1 ≠ m.data.rpmProgrammed then { m with phase := .speed rpm }
      else { m.skip rpm.1 with phase := .idle }
  | .speed rpm => { m.setRpm rpm.1 d with phase := .idle }

/-- The drive receives the first command of the queue. -/
def deliver : Machine K :=
  match m.queue with
  | [] => m
  | c :: queue => { m with queue := queue, received := some c }

end Machine

/-- A call of one of the two functions; the end of a wait; the first command of the queue is received, or lost. -/
inductive Action (K : Type*) [Zero K] [LE K]
  | setState (state : SpindleState) (rpm : Rpm K)
  | updateRPM (rpm : Rpm K) (d : Delivery)
  | done (returned : Bool) (value : Option UInt16) (d : Delivery)
  | deliver
  | lose

variable [FloorRing K]

def step (m : Machine K) : Action K → Option (Machine K)
  | .setState state rpm => some (m.spindleSetState state rpm)
  | .updateRPM rpm d => some (m.spindleUpdateRPM rpm d)
  | .done returned value d => some (m.done returned value d)
  | .deliver => some m.deliver
  | .lose => some { m with queue := m.queue.tail }

/-! ## What is to hold -/

/-- What is taken to be programmed is what the drive has received last; no call for another speed has sent nothing; no speed in the
range of the spindle has been cut. -/
structure Delivered (m : Machine K) : Prop where
  programmed : 0 ≤ m.data.rpmProgrammed → m.Has m.data.rpmProgrammed
  missed : m.missed = false
  truncated : m.truncated = false

/-- A command for a speed is received before `modbus_send` returns, or the drive has that speed; the data is not cut. -/
def Machine.Arrives (m : Machine K) (rpm : K) (d : Delivery) : Prop :=
  (d = .received ∨ m.Has rpm) ∧ (m.InRange rpm → m.speed rpm < 65536)

/-- A call comes in while `spindleSetState` does not wait, for the other function while `set_rpm` does not and the frequency is
known, and its commands arrive; or the drive has its speed. The direction is set if the speed is another one, and a command that was
queued is for what is programmed. -/
def Action.Sound (m : Machine K) : Action K → Prop
  | .setState _ rpm =>
      match m.phase with
      | .idle => True
      | _ => m.Has rpm.1
  | .updateRPM rpm d =>
      if m.busy = true ∨ m.rpmAt50Hz = 0 then m.Has rpm.1 else rpm.1 ≠ m.data.rpmProgrammed → m.Arrives rpm.1 d
  | .done returned _ d =>
      match m.phase with
      | .mode rpm => returned = true ∧ rpm.1 ≠ m.data.rpmProgrammed ∨ m.Has rpm.1
      | .speed rpm => m.Arrives rpm.1 d
      | _ => True
  | .deliver => ∀ c ∈ m.queue.head?, 0 ≤ m.data.rpmProgrammed → c.rpm = m.data.rpmProgrammed
  | .lose => True

instance (m : Machine K) (rpm : K) (d : Delivery) : Decidable (m.Arrives rpm d) := by
  unfold Machine.Arrives
  infer_instance

instance (m : Machine K) (a : Action K) : Decidable (a.Sound m) := by
  unfold Action.Sound
  split <;> (try split) <;> infer_instance

/-- The frequency is known outside of `get_rpm_range`. -/
def Machine.Known (m : Machine K) : Prop :=
  match m.phase with
  | .range _ _ _ => True
  | _ => m.rpmAt50Hz ≠ 0

/-! ## One step -/

section
variable {m m' : Machine K} {rpm : K} {d : Delivery} {state : SpindleState}

theorem skip_delivered_iff (h : Delivered m) : Delivered (m.skip rpm) ↔ m.Has rpm := by
  constructor
  · intro h'
    have hmissed : (m.missed || !decide (m.Has rpm)) = false := h'.missed
    rw [h.missed, Bool.false_or, Bool.not_eq_false'] at hmissed
    exact of_decide_eq_true hmissed
  · intro hhas
    refine ⟨h.programmed, ?_, h.truncated⟩
    show (m.missed || !decide (m.Has rpm)) = false
    rw [h.missed, decide_eq_true hhas]
    rfl

theorem spindleSetAtSpeedRange_programmed : (m.spindleSetAtSpeedRange rpm).data.rpmProgrammed = rpm := by
  rw [Machine.spindleSetAtSpeedRange]
  dsimp only
  split <;> rfl

theorem setRpm_has : (m.setRpm rpm d).Has rpm ↔ d = .received ∨ m.Has rpm := by
  cases d with
  | received => exact iff_of_true rfl (.inl rfl)
  | queued => exact ⟨.inr, fun h => h.resolve_left (by decide)⟩
  | lost => exact ⟨.inr, fun h => h.resolve_left (by decide)⟩

theorem setRpm_delivered_iff (h : Delivered m) (hrpm : 0 ≤ rpm) : Delivered (m.setRpm rpm d) ↔ m.Arrives rpm d := by
  have hprogrammed : (m.setRpm rpm d).data.rpmProgrammed = rpm := spindleSetAtSpeedRange_programmed
  have hmissed : (m.setRpm rpm d).missed = false := by
    cases d <;> exact h.missed
  have htruncated : (m.setRpm rpm d).truncated = false ↔ (m.InRange rpm → m.speed rpm < 65536) := by
    have heq : (m.setRpm rpm d).truncated = (m.truncated || (decide (m.InRange rpm) && decide (65536 ≤ m.speed rpm))) := by
      cases d <;> rfl
    rw [heq, h.truncated, Bool.false_or, Bool.and_eq_false_imp, decide_eq_true_iff, decide_eq_false_iff_not, not_le]
  constructor
  · intro h'
    refine ⟨setRpm_has.1 ?_, htruncated.1 h'.truncated⟩
    have := h'.programmed
    rw [hprogrammed] at this
    exact this hrpm
  · rintro ⟨hhas, hfits⟩
    refine ⟨fun _ => ?_, hmissed, htruncated.2 hfits⟩
    rw [hprogrammed]
    exact setRpm_has.2 hhas

theorem updateRPM_delivered_iff (h : Delivered m) (rpm : Rpm K) :
    Delivered (m.spindleUpdateRPM rpm d) ↔ Action.Sound m (.updateRPM rpm d) := by
  rw [Machine.spindleUpdateRPM, Action.Sound]
  by_cases hbusy : m.busy = true
  · rw [if_pos hbusy, if_pos (.inl hbusy)]
    exact skip_delivered_iff h
  rw [if_neg hbusy]
  by_cases hzero : m.rpmAt50Hz = 0
  · rw [if_neg fun h => h.1 hzero, if_pos (.inr hzero)]
    exact skip_delivered_iff h
  rw [if_neg (not_or.2 ⟨hbusy, hzero⟩)]
  by_cases hsame : rpm.1 = m.data.rpmProgrammed
  · rw [if_neg fun h => h.2 hsame, skip_delivered_iff h]
    refine iff_of_true ?_ fun hne => absurd hsame hne
    rw [hsame]
    exact h.programmed (hsame ▸ rpm.2)
  · rw [if_pos ⟨hzero, hsame⟩, setRpm_delivered_iff h rpm.2]
    exact ⟨fun h _ => h, fun h => h hsame⟩

variable [IsStrictOrderedRing K]

variable (state) in
theorem assign_delivered (h : Delivered m) : Delivered (m.assign state) := by
  refine ⟨?_, h.missed, h.truncated⟩
  rw [Machine.assign]
  dsimp only
  split
  · intro hneg
    exact absurd hneg (not_le.2 neg_one_lt_zero)
  · exact h.programmed

theorem setState_delivered_iff (h : Delivered m) (rpm : Rpm K) :
    Delivered (m.spindleSetState state rpm) ↔ Action.Sound m (.setState state rpm) := by
  rw [Machine.spindleSetState, Action.Sound]
  cases m.phase with
  | idle =>
      refine iff_of_true ?_ trivial
      dsimp only
      split
      · exact ⟨h.programmed, h.missed, h.truncated⟩
      · have hassign := assign_delivered state h
        exact ⟨hassign.programmed, hassign.missed, hassign.truncated⟩
  | range request state' rpm' =>
      exact skip_delivered_iff (assign_delivered _ ⟨h.programmed, h.missed, h.truncated⟩)
  | mode rpm' => exact skip_delivered_iff h
  | speed rpm' => exact skip_delivered_iff h

theorem rxPacket_delivered {request : RangeRequest} {value : UInt16} (h : Delivered m) : Delivered (m.rxPacket request value) := by
  cases request with
  | rpmAt50Hz => exact ⟨h.programmed, h.missed, h.truncated⟩
  | minRPM =>
      rw [Machine.rxPacket]
      split
      · exact ⟨h.programmed, h.missed, h.truncated⟩
      · exact h
  | maxRPM => exact ⟨h.programmed, h.missed, h.truncated⟩

theorem sendMode_delivered {rpm : Rpm K} (h : Delivered m) : Delivered (m.sendMode state rpm) := by
  have hassign := assign_delivered state h
  exact ⟨hassign.programmed, hassign.missed, hassign.truncated⟩

theorem endRange_delivered (h : Delivered m) : Delivered m.endRange := by
  rw [Machine.endRange]
  split
  · exact ⟨h.programmed, h.missed, h.truncated⟩
  · exact h

theorem done_delivered_iff (h : Delivered m) (hknown : m.Known) (returned : Bool) (value : Option UInt16) :
    Delivered (m.done returned value d) ↔ Action.Sound m (.done returned value d) := by
  rw [Machine.done, Action.Sound]
  rw [Machine.Known] at hknown
  cases hphase : m.phase with
  | idle => exact iff_of_true h trivial
  | range request state rpm =>
      refine iff_of_true ?_ trivial
      have hpacket : Delivered (value.elim m (m.rxPacket request)) := by
        cases value with
        | none => exact h
        | some value => exact rxPacket_delivered h
      dsimp only
      generalize value.elim m (m.rxPacket request) = m₁ at hpacket ⊢
      split
      · exact ⟨hpacket.programmed, hpacket.missed, hpacket.truncated⟩
      · exact ⟨hpacket.programmed, hpacket.missed, hpacket.truncated⟩
      · exact sendMode_delivered (endRange_delivered hpacket)
  | mode rpm =>
      rw [hphase] at hknown
      dsimp only at hknown ⊢
      by_cases hsend : returned = true ∧ rpm.1 ≠ m.data.rpmProgrammed
      · rw [if_pos ⟨hsend.1, hknown, hsend.2⟩]
        exact iff_of_true ⟨h.programmed, h.missed, h.truncated⟩ (.inl hsend)
      · rw [if_neg fun hall => hsend ⟨hall.1, hall.2.2⟩, or_iff_right hsend, ← skip_delivered_iff h]
        exact ⟨fun h' => ⟨h'.programmed, h'.missed, h'.truncated⟩, fun h' => ⟨h'.programmed, h'.missed, h'.truncated⟩⟩
  | speed rpm =>
      show Delivered { m.setRpm rpm.1 d with phase := .idle } ↔ m.Arrives rpm.1 d
      rw [← setRpm_delivered_iff h rpm.2]
      exact ⟨fun h' => ⟨h'.programmed, h'.missed, h'.truncated⟩, fun h' => ⟨h'.programmed, h'.missed, h'.truncated⟩⟩

theorem deliver_delivered_iff (h : Delivered m) : Delivered m.deliver ↔ Action.Sound m .deliver := by
  rw [Machine.deliver, Action.Sound]
  cases m.queue with
  | nil => exact iff_of_true h nofun
  | cons c queue =>
      constructor
      · rintro h' _ ⟨⟩ hprogrammed
        exact Option.some.inj (h'.programmed hprogrammed)
      · intro hc
        exact ⟨fun hprogrammed => congrArg some (hc c rfl hprogrammed), h.missed, h.truncated⟩

theorem step_delivered_iff {a : Action K} (h : Delivered m) (hknown : m.Known) (hstep : step m a = some m') :
    Delivered m' ↔ a.Sound m := by
  cases a with
  | setState state rpm =>
      cases hstep
      exact setState_delivered_iff h rpm
  | updateRPM rpm d =>
      cases hstep
      exact updateRPM_delivered_iff h rpm
  | done returned value d =>
      cases hstep
      exact done_delivered_iff h hknown returned value
  | deliver =>
      cases hstep
      exact deliver_delivered_iff h
  | lose =>
      cases hstep
      exact iff_of_true ⟨h.programmed, h.missed, h.truncated⟩ trivial

theorem setRpm_known (h : m.Known) : (m.setRpm rpm d).Known := by
  cases d <;> exact h

theorem known_endRange : m.endRange.rpmAt50Hz ≠ 0 := by
  rw [Machine.endRange]
  split
  · exact OfNat.ofNat_ne_zero 3000
  · rename_i hne
    exact hne

theorem known_step {a : Action K} (h : m.Known) (hstep : step m a = some m') : m'.Known := by
  cases a with
  | setState state rpm =>
      cases hstep
      rw [Machine.spindleSetState]
      cases hphase : m.phase with
      | idle =>
          rw [Machine.Known, hphase] at h
          dsimp only
          split
          · trivial
          · exact h
      | range request state' rpm' =>
          trivial
      | mode rpm' => exact h
      | speed rpm' => exact h
  | updateRPM rpm d =>
      cases hstep
      rw [Machine.spindleUpdateRPM]
      split
      · exact h
      · split
        · exact setRpm_known h
        · exact h
  | done returned value d =>
      cases hstep
      rw [Machine.done]
      cases hphase : m.phase with
      | idle => exact h
      | range request state rpm =>
          dsimp only
          split
          · trivial
          · trivial
          · exact known_endRange
      | mode rpm =>
          rw [Machine.Known, hphase] at h
          dsimp only
          split
          · exact h
          · exact h
      | speed rpm =>
          rw [Machine.Known, hphase] at h
          have hkeep : (m.setRpm rpm.1 d).rpmAt50Hz = m.rpmAt50Hz := by
            cases d <;> rfl
          exact hkeep.trans_ne h
  | deliver =>
      cases hstep
      rw [Machine.deliver]
      split <;> exact h
  | lose =>
      cases hstep
      exact h

end

/-- The variables when the spindle has been selected: `get_rpm_range` has set a frequency, and nothing has been sent. -/
structure Selected (K : Type*) [Field K] [LinearOrder K] where
  rpmAt50Hz : K
  rpmMin : K
  rpmMax : K
  atSpeedTolerance : K
  ready : Bool
  state : SpindleState
  rpmAt50Hz_ne : rpmAt50Hz ≠ 0

def Selected.start (s : Selected K) : Machine K :=
  { rpmAt50Hz := s.rpmAt50Hz, rpmMin := s.rpmMin, rpmMax := s.rpmMax, atSpeedTolerance := s.atSpeedTolerance
    ready := s.ready, state := s.state
    data := ⟨-1, false, decide (s.atSpeedTolerance > 0), 0, 0⟩ }

/-- All along a run the drive has received what is taken to be programmed exactly if every step is sound. -/
theorem speeds_delivered_iff [IsStrictOrderedRing K] (s : Selected K) (as : List (Action K)) :
    (∀ p m, p <+: as → run step s.start p = some m → Delivered m) ↔ Along step (fun m a => a.Sound m) s.start as := by
  have htotal : ∀ (m : Machine K) a, ∃ m', step m a = some m' := fun m a => by
    cases a <;> exact ⟨_, rfl⟩
  refine always_iff_along (J := fun m => Delivered m ∧ m.Known) htotal (fun _ h => h.1)
    (fun m a m' h hsound hstep => ⟨(step_delivered_iff h.1 h.2 hstep).2 hsound, known_step h.2 hstep⟩)
    (fun m a m' h hstep hdelivered => (step_delivered_iff h.1 h.2 hstep).1 hdelivered) as s.start ⟨⟨?_, rfl, rfl⟩, s.rpmAt50Hz_ne⟩
  intro hneg
  exact absurd hneg (not_le.2 neg_one_lt_zero)

/-! ## A drive with 3000 rpm at 50 Hz -/

/-- Its range goes up to 24000. -/
def exampleSelected : Selected ℚ := ⟨3000, 0, 24000, 0, true, ⟨false, false⟩, by decide⟩

def exampleRpm (n : ℕ) : Rpm ℚ := ⟨n, Nat.cast_nonneg n⟩

/-- The spindle is started, and a speed set while it runs. -/
def exampleRun : List (Action ℚ) :=
  [.setState ⟨true, false⟩ (exampleRpm 12000), .done true none .lost, .done true none .received, .updateRPM (exampleRpm 9000) .received]

theorem speeds_delivered_iff_two :
    (∀ p m, p <+: exampleRun → run step exampleSelected.start p = some m → Delivered m) ∧
      Along step (fun m a => Action.Sound m a) exampleSelected.start exampleRun := by
  have hsound : Along step (fun m a => Action.Sound m a) exampleSelected.start exampleRun := by decide +kernel
  exact ⟨(speeds_delivered_iff exampleSelected exampleRun).2 hsound, hsound⟩

/-- A speed is taken to be programmed when its command has been lost. -/
theorem lost_speed_is_programmed :
    ¬ ∀ p m, p <+: [Action.updateRPM (exampleRpm 9000) .lost] → run step exampleSelected.start p = some m → Delivered m := by
  intro h
  have hprogrammed := (h _ _ (List.prefix_refl _) rfl).programmed (by decide +kernel)
  cases hprogrammed

end

end Grbl.Spindle.Huanyang
