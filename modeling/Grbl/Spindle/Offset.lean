import Grbl.Lib.Run
import Grbl.Motion.Backlash

/-!
# The spindle offset plugin

What is moved between selections of spindles is moved by the plugin. Positions are in steps, as in `sys.position`.

* `SpindlePtrs`, `Config`, `Machine`, `Outcome` : what the plugin works on, and how a line ends;
* `mcLine`, `onSpindleSelected`, `select` : the functions;
* `Action`, `step` : selections and changes of the settings;
* `Right` : what is to hold after a selection; `Safe`, `Inv` : in which runs, and why;
* `right_of_safe`; `second_laser_moves_back`.
-/

namespace Grbl.Spindle
open Lib Function
open Motion (lround)
open scoped Grbl.Lib.Literal Grbl.Lib.OrderedField

/-- The axes of the offset. -/
inductive XY
  | x | y
  deriving DecidableEq, Repr

instance : Fintype XY := ⟨⟨([XY.x, XY.y] : Multiset XY), by decide⟩, fun i => by cases i <;> decide⟩

/-- The id of a spindle, and `cap.laser` when it is selected. -/
structure SpindlePtrs where
  id : ℕ
  laser : Bool
  deriving DecidableEq, Repr

section
variable {K : Type*} [Field K] [LinearOrder K]

/-- The settings that stay as they are. -/
structure Config (K : Type*) [Zero K] [LT K] where
  stepsPerMm : XY → K
  stepsPerMm_pos : ∀ i, 0 < stepsPerMm i

/-- The static ids and the settings of the plugin, `sys.position`, `gc_state.g92_offset` and spindle 0. -/
structure Machine (K : Type*) where
  defaultSpindleId : Option ℕ := none
  laserSpindleId : Option ℕ := none
  driverStarted : Bool := false
  offset : XY → K
  g92offset : Bool
  position : XY → ℤ
  g92 : XY → K
  selected : Option SpindlePtrs := none

/-- How `mc_line` ends: the line is executed, or left out in check mode, or `mc_line` fails. -/
inductive Outcome
  | executed | checked | failed
  deriving DecidableEq, Repr

def Machine.OffLaser (m : Machine K) (s : SpindlePtrs) : Prop := s.id ≠ m.defaultSpindleId.getD s.id ∧ s.laser = true

instance (m : Machine K) (s : SpindlePtrs) : Decidable (m.OffLaser s) := by
  unfold Machine.OffLaser
  infer_instance

variable [FloorRing K] (cfg : Config K)

namespace Machine
variable (m : Machine K)

/-- `system_convert_array_steps_to_mpos` -/
def mpos (i : XY) : K := m.position i / cfg.stepsPerMm i

/-- `mc_line` and `protocol_buffer_synchronize` -/
def mcLine (outcome : Outcome) (target : XY → K) : Bool × Machine K :=
  match outcome with
  | .executed => (true, { m with position := fun i => lround (target i * cfg.stepsPerMm i) })
  | .checked => (true, m)
  | .failed => (false, m)

/-- The move by the offset or back, and what follows it. -/
def moveOffset (outcome : Outcome) (sign : K) : Machine K :=
  let (ok, m) := m.mcLine cfg outcome fun i => m.mpos cfg i + sign * m.offset i
  if ok && m.g92offset then
    { m with g92 := fun i => m.g92 i + m.offset i * (if m.laserSpindleId = none then -1 else 1) }
  else m

def onSpindleSelected (outcome : Outcome) (spindle : SpindlePtrs) : Machine K :=
  let m := { m with defaultSpindleId := some (m.defaultSpindleId.getD spindle.id) }
  if m.driverStarted = true ∧ ∃ i, m.offset i ≠ 0 then
    if m.OffLaser spindle ∧ m.laserSpindleId = none then
      { m with laserSpindleId := some spindle.id }.moveOffset cfg outcome 1
    else if m.laserSpindleId ≠ none then { m with laserSpindleId := none }.moveOffset cfg outcome (-1)
    else m
  else m

/-- `spindle_select`, for a spindle that is there. -/
def select (outcome : Outcome) (spindle : SpindlePtrs) : Machine K :=
  if m.selected.map SpindlePtrs.id = some spindle.id then m
  else { m with selected := some spindle }.onSpindleSelected cfg outcome spindle

/-- A setting of the offset, refused below its limit. -/
def setOffset (i : XY) (value : K) : Machine K := if value < -1000 then m else { m with offset := update m.offset i value }

end Machine

/-! ## Runs -/

/-- A spindle is selected, and if there is a line it ends somehow; the settings are changed; `sys.driver_started` is set. -/
inductive Action (K : Type*)
  | select (spindle : SpindlePtrs) (outcome : Outcome)
  | offset (i : XY) (value : K)
  | g92offset (value : Bool)
  | started

def step (m : Machine K) : Action K → Option (Machine K)
  | .select spindle outcome => some (m.select cfg outcome spindle)
  | .offset i value => some (m.setOffset i value)
  | .g92offset value => some { m with g92offset := value }
  | .started => some { m with driverStarted := true }

/-- The machine before a spindle is selected. -/
def boot (offset : XY → K) (g92offset : Bool) (position : XY → ℤ) (g92 : XY → K) : Machine K :=
  { offset := offset, g92offset := g92offset, position := position, g92 := g92 }

/-- The position shown. -/
def Machine.work (m : Machine K) (i : XY) : K := m.mpos cfg i - m.g92 i

/-- A laser other than the default spindle is selected. -/
def Machine.OnLaser (m : Machine K) : Prop :=
  match m.selected with
  | none => False
  | some s => m.OffLaser s

instance (m : Machine K) : Decidable m.OnLaser := by
  unfold Machine.OnLaser
  split <;> infer_instance

/-- The machine is away from where it was by the offset on a laser, and by nothing otherwise; with the option the position
shown is not changed; and on the default spindle all is as at first. -/
structure Right (start before after : Machine K) : Prop where
  position : ∀ i, after.mpos cfg i - start.mpos cfg i = if after.OnLaser then after.offset i else 0
  work : after.g92offset = true → ∀ i, after.work cfg i = before.work cfg i
  original : after.selected.map SpindlePtrs.id = after.defaultSpindleId → after.position = start.position ∧ after.g92 = start.g92

/-- Without the laser that is offset, another one can be selected when the driver has started, if the offset is whole steps
and the line is executed. From it, only to a spindle that is none, with the settings it was moved by, and if the line is
executed. A laser selected again has to have been moved by the current offset. -/
def Action.Safe (start m : Machine K) : Action K → Prop
  | .select s outcome =>
      if m.selected.map SpindlePtrs.id = some s.id then m.OnLaser → ∀ i, m.mpos cfg i - start.mpos cfg i = m.offset i
      else
        match m.laserSpindleId with
        | none => m.OffLaser s → (∃ i, m.offset i ≠ 0) →
            m.driverStarted = true ∧ outcome = .executed ∧ ∀ i, (lround (m.offset i * cfg.stepsPerMm i) : K) = m.offset i * cfg.stepsPerMm i
        | some _ => ¬ m.OffLaser s ∧ outcome = .executed ∧ (∀ i, m.mpos cfg i - start.mpos cfg i = m.offset i) ∧
            ∀ i, m.g92 i - start.g92 i = if m.g92offset then m.offset i else 0
  | _ => True

/-! ## One selection -/

/-- Without a laser that is offset the machine is where it was; with one it is not, and the laser is selected. -/
structure Inv (start m : Machine K) : Prop where
  back : m.laserSpindleId = none → m.position = start.position ∧ m.g92 = start.g92
  away : m.laserSpindleId ≠ none → m.driverStarted = true ∧ m.OnLaser ∧ m.position ≠ start.position

section
variable {cfg} {start m m' : Machine K} {s : SpindlePtrs} {outcome : Outcome}

theorem select_same (h : m.selected.map SpindlePtrs.id = some s.id) : m.select cfg outcome s = m := if_pos h

/-- The machine with the spindle selected, before the offset. -/
def Machine.chosen (m : Machine K) (s : SpindlePtrs) : Machine K :=
  { m with selected := some s, defaultSpindleId := some (m.defaultSpindleId.getD s.id) }

theorem select_other (h : m.selected.map SpindlePtrs.id ≠ some s.id) :
    m.select cfg outcome s =
      if m.driverStarted = true ∧ ∃ i, m.offset i ≠ 0 then
        if m.OffLaser s ∧ m.laserSpindleId = none then { m.chosen s with laserSpindleId := some s.id }.moveOffset cfg outcome 1
        else if m.laserSpindleId ≠ none then { m.chosen s with laserSpindleId := none }.moveOffset cfg outcome (-1)
        else m.chosen s
      else m.chosen s := if_neg h

theorem onLaser_chosen : (m.chosen s).OnLaser ↔ m.OffLaser s := Iff.rfl

theorem Machine.OnLaser.ne (h : m.OnLaser) : m.selected.map SpindlePtrs.id ≠ m.defaultSpindleId := by
  rw [Machine.OnLaser] at h
  split at h
  · exact h.elim
  · rename_i s hs
    rw [hs]
    intro heq
    rw [Machine.OffLaser, ← heq] at h
    exact h.1 rfl

theorem mpos_eq_iff [IsStrictOrderedRing K] {i : XY} : m.mpos cfg i = start.mpos cfg i ↔ m.position i = start.position i := by
  rw [Machine.mpos, Machine.mpos, div_left_inj' (cfg.stepsPerMm_pos i).ne', Int.cast_inj]

theorem right_chosen (hback : m.position = start.position ∧ m.g92 = start.g92) (hzero : m.OffLaser s → ∀ i, m.offset i = 0) :
    Right cfg start m (m.chosen s) where
  position := by
    intro i
    have hmpos : (m.chosen s).mpos cfg i = start.mpos cfg i := by
      show (m.position i : K) / _ = start.position i / _
      rw [hback.1]
    rw [hmpos, sub_self]
    split
    · rename_i hlaser
      exact (hzero (onLaser_chosen.1 hlaser) i).symm
    · rfl
  work := fun _ _ => rfl
  original := fun _ => hback

variable [IsStrictOrderedRing K]

variable (m) in
theorem moveOffset_executed (sign : K) (n : XY → ℤ) (hn : ∀ i, (m.mpos cfg i + sign * m.offset i) * cfg.stepsPerMm i = n i) :
    m.moveOffset cfg .executed sign = { m with
      position := n
      g92 := fun i => if m.g92offset then m.g92 i + m.offset i * (if m.laserSpindleId = none then -1 else 1) else m.g92 i } := by
  have hposition : (fun i => lround ((m.mpos cfg i + sign * m.offset i) * cfg.stepsPerMm i)) = n := by
    funext i
    rw [hn, Motion.lround_intCast]
  rw [Machine.moveOffset, Machine.mcLine]
  dsimp only
  rw [hposition, Bool.true_and]
  cases hoption : m.g92offset with
  | true => rfl
  | false => rfl

theorem right_away {n : XY → ℤ} (hback : m.position = start.position ∧ m.g92 = start.g92) (hlaser : m.OffLaser s)
    (hwhole : ∀ i, m.offset i * cfg.stepsPerMm i = n i) (hne : ∃ i, m.offset i ≠ 0) (hstarted : m.driverStarted = true) :
    Right cfg start m ({ m.chosen s with laserSpindleId := some s.id }.moveOffset cfg .executed 1) ∧
      Inv start ({ m.chosen s with laserSpindleId := some s.id }.moveOffset cfg .executed 1) := by
  have hn : ∀ i, (m.mpos cfg i + 1 * m.offset i) * cfg.stepsPerMm i = ((m.position i + n i : ℤ) : K) := by
    intro i
    rw [one_mul, add_mul, hwhole, Machine.mpos, div_mul_cancel₀ _ (cfg.stepsPerMm_pos i).ne']
    push_cast
    rfl
  have hmove := moveOffset_executed { m.chosen s with laserSpindleId := some s.id } 1 (fun i => m.position i + n i) hn
  rw [hmove]
  have hmpos : ∀ i, ((m.position i + n i : ℤ) : K) / cfg.stepsPerMm i = m.mpos cfg i + m.offset i := by
    intro i
    rw [← hn, one_mul, mul_div_cancel_right₀ _ (cfg.stepsPerMm_pos i).ne']
  refine ⟨⟨fun i => ?_, fun hoption i => ?_, fun heq => ?_⟩, ⟨fun h => (nomatch h), fun _ => ⟨hstarted, hlaser, fun heq => ?_⟩⟩⟩
  · refine Eq.trans ?_ (if_pos (onLaser_chosen.2 hlaser)).symm
    show ((m.position i + n i : ℤ) : K) / cfg.stepsPerMm i - start.mpos cfg i = m.offset i
    rw [hmpos, mpos_eq_iff.2 (congrFun hback.1 i), add_sub_cancel_left]
  · have hoption' : m.g92offset = true := hoption
    show ((m.position i + n i : ℤ) : K) / cfg.stepsPerMm i -
      (if m.g92offset then m.g92 i + m.offset i * (if some s.id = none then -1 else 1) else m.g92 i) = m.mpos cfg i - m.g92 i
    rw [hmpos, hoption', if_pos rfl, if_neg (Option.some_ne_none _)]
    ring
  · exact absurd heq (Machine.OnLaser.ne (m := m.chosen s) (onLaser_chosen.2 hlaser))
  · obtain ⟨i, hi⟩ := hne
    have hzero : n i = 0 := by
      have hi' : m.position i + n i = start.position i := congrFun heq i
      rw [hback.1] at hi'
      omega
    have hprod := hwhole i
    rw [hzero, Int.cast_zero] at hprod
    exact hi ((mul_eq_zero.1 hprod).resolve_right (cfg.stepsPerMm_pos i).ne')

theorem right_back (hmoved : ∀ i, m.mpos cfg i - start.mpos cfg i = m.offset i)
    (hg92 : ∀ i, m.g92 i - start.g92 i = if m.g92offset then m.offset i else 0) (hlaser : ¬ m.OffLaser s) :
    Right cfg start m ({ m.chosen s with laserSpindleId := none }.moveOffset cfg .executed (-1)) ∧
      Inv start ({ m.chosen s with laserSpindleId := none }.moveOffset cfg .executed (-1)) := by
  have hn : ∀ i, (m.mpos cfg i + -1 * m.offset i) * cfg.stepsPerMm i = ((start.position i : ℤ) : K) := by
    intro i
    rw [← hmoved, show m.mpos cfg i + -1 * (m.mpos cfg i - start.mpos cfg i) = start.mpos cfg i by ring, Machine.mpos,
      div_mul_cancel₀ _ (cfg.stepsPerMm_pos i).ne']
  have hmove := moveOffset_executed { m.chosen s with laserSpindleId := none } (-1) start.position hn
  rw [hmove]
  have hg : (fun i => if m.g92offset then m.g92 i + m.offset i * (if (none : Option ℕ) = none then -1 else 1) else m.g92 i) = start.g92 := by
    funext i
    have h := hg92 i
    cases hoption : m.g92offset with
    | true =>
        rw [hoption, if_pos rfl] at h
        rw [if_pos rfl, if_pos rfl]
        linarith
    | false =>
        rw [hoption, if_neg Bool.false_ne_true] at h
        rw [if_neg Bool.false_ne_true]
        linarith
  refine ⟨⟨fun i => ?_, fun hoption i => ?_, fun _ => ⟨rfl, hg⟩⟩, ⟨fun _ => ⟨rfl, hg⟩, fun h => absurd rfl h⟩⟩
  · refine Eq.trans ?_ (if_neg (fun h => hlaser (onLaser_chosen.1 h))).symm
    show start.mpos cfg i - start.mpos cfg i = 0
    exact sub_self _
  · have hoption' : m.g92offset = true := hoption
    have h := hg92 i
    rw [hoption', if_pos rfl] at h
    have hafter := congrFun hg i
    show start.mpos cfg i - (if m.g92offset then m.g92 i + m.offset i * (if (none : Option ℕ) = none then -1 else 1) else m.g92 i) =
      m.mpos cfg i - m.g92 i
    rw [hafter]
    have hmoved' := hmoved i
    linarith

theorem Inv.select (h : Inv start m) (hsafe : Action.Safe cfg start m (.select s outcome)) :
    Right cfg start m (m.select cfg outcome s) ∧ Inv start (m.select cfg outcome s) := by
  rw [Action.Safe] at hsafe
  by_cases hsame : m.selected.map SpindlePtrs.id = some s.id
  · rw [if_pos hsame] at hsafe
    rw [select_same hsame]
    have hback : ¬ m.OnLaser → m.position = start.position ∧ m.g92 = start.g92 := fun hlaser =>
      h.back (by_contra fun hne => hlaser (h.away hne).2.1)
    refine ⟨⟨fun i => ?_, fun _ _ => rfl, fun heq => hback fun hlaser => hlaser.ne heq⟩, h⟩
    split
    · rename_i hlaser
      exact hsafe hlaser i
    · rename_i hlaser
      rw [sub_eq_zero, mpos_eq_iff]
      exact congrFun (hback hlaser).1 i
  rw [if_neg hsame] at hsafe
  rw [select_other hsame]
  cases hid : m.laserSpindleId with
  | none =>
      rw [hid] at hsafe
      have hback := h.back hid
      have hchosen : (m.OffLaser s → ∀ i, m.offset i = 0) → Right cfg start m (m.chosen s) ∧ Inv start (m.chosen s) := fun hzero =>
        ⟨right_chosen hback hzero, fun _ => hback, fun hne => absurd hid hne⟩
      have hnot : ¬ ((none : Option ℕ) ≠ none) := fun hne => hne rfl
      by_cases hlaser : m.OffLaser s
      · by_cases hoffset : ∃ i, m.offset i ≠ 0
        · obtain ⟨hstarted, rfl, hwhole⟩ := hsafe hlaser hoffset
          rw [if_pos ⟨hstarted, hoffset⟩, if_pos ⟨hlaser, rfl⟩]
          exact right_away (n := fun i => lround (m.offset i * cfg.stepsPerMm i)) hback hlaser (fun i => (hwhole i).symm) hoffset hstarted
        · rw [if_neg fun h => hoffset h.2]
          exact hchosen fun _ i => not_not.1 (not_exists.1 hoffset i)
      · rw [if_neg (show ¬ (m.OffLaser s ∧ (none : Option ℕ) = none) from fun h => hlaser h.1), if_neg hnot, ite_self]
        exact hchosen fun h => absurd h hlaser
  | some id =>
      rw [hid] at hsafe
      obtain ⟨hlaser, rfl, hmoved, hg92⟩ := hsafe
      have hsome : m.laserSpindleId ≠ none := hid ▸ Option.some_ne_none id
      obtain ⟨hstarted, -, hne⟩ := h.away hsome
      have hoffset : ∃ i, m.offset i ≠ 0 := by
        by_contra hzero
        refine hne (funext fun i => mpos_eq_iff.1 (sub_eq_zero.1 ((hmoved i).trans ?_)))
        exact not_not.1 (not_exists.1 hzero i)
      rw [if_pos ⟨hstarted, hoffset⟩, if_neg (fun h => hlaser h.1), if_pos (Option.some_ne_none id)]
      exact right_back hmoved hg92 hlaser

theorem Inv.step {a : Action K} (h : Inv start m) (hsafe : a.Safe cfg start m) (hstep : step cfg m a = some m') : Inv start m' := by
  cases a with
  | select s outcome =>
      cases hstep
      exact (h.select hsafe).2
  | offset i value =>
      cases hstep
      rw [Machine.setOffset]
      split
      · exact h
      · exact ⟨h.back, h.away⟩
  | g92offset value =>
      cases hstep
      exact ⟨h.back, h.away⟩
  | started =>
      cases hstep
      exact ⟨h.back, fun hne => ⟨rfl, (h.away hne).2⟩⟩

/-- After every selection of a run of safe steps the machine is where it should be. -/
theorem right_of_safe (cfg : Config K) (offset : XY → K) (g92offset : Bool) (position : XY → ℤ) (g92 : XY → K)
    (as : List (Action K)) (s : SpindlePtrs) (outcome : Outcome) (m m' : Machine K)
    (hsafe : Along (Spindle.step cfg) (fun m a => a.Safe cfg (boot offset g92offset position g92) m) (boot offset g92offset position g92)
      (as ++ [.select s outcome]))
    (hrun : run (Spindle.step cfg) (boot offset g92offset position g92) as = some m)
    (hstep : Spindle.step cfg m (.select s outcome) = some m') : Right cfg (boot offset g92offset position g92) m m' := by
  obtain ⟨hbefore, hlast⟩ := along_append.1 hsafe
  have hinv : Inv (boot offset g92offset position g92) m :=
    run_invariant_along (fun _ _ _ hI hs hstep => Inv.step hI hs hstep) as _ m ⟨fun _ => ⟨rfl, rfl⟩, fun h => absurd rfl h⟩ hbefore hrun
  cases hstep
  exact (hinv.select (hlast m hrun).1).1

end

end

/-! ## One step for a millimeter -/

namespace Example

def cfg : Config ℚ := ⟨fun _ => 1, fun _ => one_pos⟩

def router : SpindlePtrs := ⟨0, false⟩
def laser : SpindlePtrs := ⟨1, true⟩
def second : SpindlePtrs := ⟨2, true⟩

/-- An offset of 10 in X, with the G92 option. -/
def start : Machine ℚ := boot (fun i => if i = .x then 10 else 0) true (fun _ => 0) fun _ => 0

def twoSelections : List (Action ℚ) := [.select router .executed, .started]

instance (start m : Machine ℚ) (a : Action ℚ) : Decidable (a.Safe cfg start m) := by
  unfold Action.Safe
  split
  · split
    · infer_instance
    · split <;> infer_instance
  · infer_instance

end Example

open Example

theorem right_of_safe_laser : ∃ m m', run (step cfg) start twoSelections = some m ∧ step cfg m (.select laser .executed) = some m' ∧
    Right cfg start m m' := by
  have hsome : (run (step cfg) start twoSelections).isSome := by decide +kernel
  obtain ⟨m, hrun⟩ := Option.isSome_iff_exists.1 hsome
  exact ⟨m, _, hrun, rfl, right_of_safe cfg _ _ _ _ twoSelections laser .executed m _ (by decide +kernel) hrun rfl⟩

/-- From one laser to another the machine moves back, and stays so. -/
theorem second_laser_moves_back :
    ¬ ∀ (as : List (Action ℚ)) (s : SpindlePtrs) (outcome : Outcome) (m m' : Machine ℚ),
      run (step cfg) start as = some m → step cfg m (.select s outcome) = some m' → Right cfg start m m' := by
  intro h
  have hmoved : (run (step cfg) start (twoSelections ++ [.select laser .executed])).map
      (fun m => ((m.select cfg .executed second).mpos cfg .x, decide (m.select cfg .executed second).OnLaser,
        (m.select cfg .executed second).offset .x)) = some (0, true, 10) := by
    decide +kernel
  obtain ⟨m, hrun, hm⟩ := Option.map_eq_some_iff.1 hmoved
  obtain ⟨hmpos, hm⟩ := Prod.mk.inj hm
  obtain ⟨hlaser, hoffset⟩ := Prod.mk.inj hm
  have hposition := (h _ second .executed m _ hrun rfl).position .x
  rw [if_pos (of_decide_eq_true hlaser), hmpos, hoffset] at hposition
  have hstart : start.mpos cfg .x = 0 := by decide +kernel
  rw [hstart] at hposition
  exact absurd hposition (by decide +kernel)

end Grbl.Spindle
