import Grbl.GCode.CoordinateRuns

/-!
# Where a block leaves the tool

* `Executed` : what an accepted block does to positions and offsets;
* `offset_read_back` : the work position after a G92 or G10 L20;
* `line_reaches` : the position after a G0 or G1;
* `Turned` : positions that differ by whole turns; `wrapTarget_turned` : the second motion of a G28;
* `position_follows` : the position after any blocks.
-/

namespace Grbl.GCode
open Function Numbers Lib

section
variable {settings : Settings} {modes : Modes} {mode : Mode} {b : Block} {p p' : Parser} {c : Checked} {moves : List Move}

theorem executeModal_rest (c : Checked) (p : Parser) : executeModal c p = { p with
    modal := (executeModal c p).modal
    feedRate := c.f
    g5xData := if .g12 ∈ c.block.commandWords then c.g5xData else p.g5xData
    toolLengthOffset := (executeModal c p).toolLengthOffset } := by
  unfold executeModal
  by_cases hg8 : .g8 ∈ c.block.commandWords <;> by_cases hg12 : .g12 ∈ c.block.commandWords <;>
    simp only [hg8, hg12, decide_true, decide_false, Bool.false_eq_true, if_true, if_false] <;> rfl

theorem executeModal_position (c : Checked) (p : Parser) : (executeModal c p).position = p.position := by rw [executeModal_rest]

theorem executeModal_g92 (c : Checked) (p : Parser) : (executeModal c p).g92 = p.g92 := by rw [executeModal_rest]

theorem executeModal_g5xData (hs : Selected b p c p') (hp : Prepared b p p') : (executeModal c p').g5xData = c.g5xData := by
  rw [executeModal_rest]
  dsimp only
  split
  · rfl
  · next hg12 => exact (hs.unselected hg12).1.symm ▸ hp.g5xData

theorem executeMotion_of_not_motion (h : c.block.axisCommand ≠ .motionMode) (offsetId : Fin 4) (p : Parser) :
    executeMotion modes c offsetId p =
      ([], .ok () { p with modal.motion := c.block.modal.motion, modal.cannedCycleActive := c.block.modal.cannedCycleActive }) := by
  unfold executeMotion
  exact if_neg fun hmotion => h hmotion.2

theorem programFlow_of_not_ends (flow : ProgramFlow) (h : ¬((flow = .completedM2 ∨ flow = .completedM30) ∧ mode.singleBlock = false)) :
    programFlow settings mode flow p = .ok () { p with modal.programFlow := .running } := if_neg h

/-- An accepted block that does not end the program: its checks, and its parts one after the other. -/
structure Executed (settings : Settings) (modes : Modes) (b : Block) (p : Parser) (moves : List Move) (p' : Parser) (c : Checked) (q : Parser) :
    Prop where
  prepared : Prepared b p q
  located : Located settings b p c q
  still : b.axisWords = ∅ → b.modal.motion = .seek ∨ b.modal.motion = .linear → c.block.axisCommand ≠ .motionMode
  moves_eq : moves = (executeNonModal settings c q.offsetId (executeModal c q)).1 ++
    (executeMotion modes c q.offsetId (executeNonModal settings c q.offsetId (executeModal c q)).2).1
  parser : p' = { (executeMotion modes c q.offsetId (executeNonModal settings c q.offsetId (executeModal c q)).2).2.state with
    modal.programFlow := .running }

theorem executed (h : executeBlock settings modes mode b p = (moves, .ok () p')) (hend : ¬EndsProgram mode b) :
    ∃ c q, Executed settings modes b p moves p' c q := by
  have hchecks := checkBlock_meets settings modes b p
  unfold executeBlock at h
  cases hcheck : checkBlock settings modes b p with
  | error s q =>
      rw [hcheck] at h
      exact nomatch (Prod.mk.inj h).2
  | ok c q =>
      rw [hcheck] at hchecks h
      obtain ⟨hp, hlocated, hstill⟩ := hchecks
      have hflow : c.block.modal.programFlow = b.modal.programFlow := by rw [hlocated.selected.fromBlock.rest]
      obtain ⟨hmoves, hresult⟩ := Prod.mk.inj h
      have hbind : ((executeMotion modes c q.offsetId (executeNonModal settings c q.offsetId (executeModal c q)).2).2.bind fun _ p =>
          programFlow settings mode c.block.modal.programFlow p) = .ok () p' := hresult
      obtain ⟨_, r, hmotion, hok⟩ := Outcome.bind_eq_ok.1 hbind
      rw [hflow, programFlow_of_not_ends _ hend] at hok
      refine ⟨c, q, hp, hlocated, hstill, hmoves.symm, ?_⟩
      rw [hmotion]
      cases hok
      rfl

/-- The block sets the active coordinate system, or the G92 offset, from the position. -/
def SetsWorkPosition (b : Block) : Prop :=
  b.nonModalCommand = .setCoordinateOffset ∨ b.nonModalCommand = .settings ∧ b.l = 20 ∧
    coordSystemOf b.modal.g5xOffset (toUint32 ((b.values .p).getD 0) % 2 ^ 8) = some b.modal.g5xOffset

theorem nonModal_offset (settings : Settings) (hc : c.block.nonModalCommand = .setCoordinateOffset) (offsetId : Fin 4) (p : Parser) :
    (executeNonModal settings c offsetId p).1 = [] ∧ (executeNonModal settings c offsetId p).2.position = p.position ∧
      (executeNonModal settings c offsetId p).2.g92 = c.xyz ∧ (executeNonModal settings c offsetId p).2.g5xData = p.g5xData ∧
        (executeNonModal settings c offsetId p).2.toolLengthOffset = p.toolLengthOffset := by
  unfold executeNonModal
  rw [hc]
  dsimp only
  split <;> exact ⟨rfl, rfl, rfl, rfl, rfl⟩

theorem nonModal_system (settings : Settings) (hc : c.block.nonModalCommand = .settings) (hl : c.block.l = 20)
    (hid : c.coordSystem.1 = .work p.modal.g5xOffset) (offsetId : Fin 4) :
    (executeNonModal settings c offsetId p).1 = [] ∧ (executeNonModal settings c offsetId p).2.position = p.position ∧
      (executeNonModal settings c offsetId p).2.g92 = p.g92 ∧ (executeNonModal settings c offsetId p).2.g5xData = c.coordSystem.2 ∧
        (executeNonModal settings c offsetId p).2.toolLengthOffset = p.toolLengthOffset := by
  unfold executeNonModal
  rw [hc]
  dsimp only
  rw [if_pos (.inr hl)]
  have hactive : CoordId.work (p.writeCoordData c.coordSystem.1 c.coordSystem.2).modal.g5xOffset = c.coordSystem.1 := hid.symm
  dsimp only
  rw [if_pos hactive]
  exact ⟨rfl, rfl, rfl, rfl, rfl⟩

/-- `G92 X5` -/
def setX5 : Block :=
  { nonModalCommand := .setCoordinateOffset, axisCommand := .nonModal, words := {.x}, axisWords := {.x}, commandWords := {.g0}
    values := update (fun _ => some 0) .x (some 5) }

/-- The commands that take the axis words, or change what they stand for. -/
def NonModal.takesAxes : NonModal → Bool
  | .settings | .goHome0 | .goHome1 | .setCoordinateOffset => true
  | _ => false

theorem nonModal_still (settings : Settings) (hc : c.block.nonModalCommand.takesAxes = false) (offsetId : Fin 4) (p : Parser) :
    (executeNonModal settings c offsetId p).1 = [] ∧ (executeNonModal settings c offsetId p).2.g5xData = p.g5xData ∧
      (executeNonModal settings c offsetId p).2.toolLengthOffset = p.toolLengthOffset ∧
        (executeNonModal settings c offsetId p).2.feedRate = p.feedRate := by
  unfold executeNonModal
  cases hnonModal : c.block.nonModalCommand with
  | settings | goHome0 | goHome1 | setCoordinateOffset =>
      rw [hnonModal] at hc
      exact nomatch hc
  | resetCoordinateOffset =>
      dsimp only
      split <;> exact ⟨rfl, rfl, rfl, rfl⟩
  | restoreCoordinateOffset =>
      dsimp only
      unfold Parser.readCoordData
      split <;> exact ⟨rfl, rfl, rfl, rfl⟩
  | _ => exact ⟨rfl, rfl, rfl, rfl⟩

theorem executeMotion_line (hmotion : b.modal.motion = .seek ∨ b.modal.motion = .linear) (hc : c.block.modal.motion = b.modal.motion)
    (hcommand : c.block.axisCommand = .motionMode) (offsetId : Fin 4) (p : Parser) :
    executeMotion modes c offsetId p = ([⟨c.xyz, offsetId, b.modal.motion = .seek, p.feedRate⟩],
      .ok () { p with modal.motion := c.block.modal.motion, modal.cannedCycleActive := c.block.modal.cannedCycleActive, position := c.xyz }) := by
  unfold executeMotion
  rcases hmotion with hmode | hmode
  all_goals
    rw [hmode] at hc ⊢
    simp only [hc, hcommand]
    rfl

/-- `G0 X5` -/
def seekX5 : Block :=
  { words := {.x}, axisWords := {.x}, axisCommand := .motionMode, commandWords := {.g1}, values := update (fun _ => some 0) .x (some 5) }

/-- A position, but for whole turns of the axes that wrap. -/
def Turned (settings : Settings) (position target : Coord) : Prop :=
  ∀ i, position i = target i ∨ settings.wraps i ∧ ∃ k : ℤ, position i = target i + 360 * k

theorem Turned.refl (settings : Settings) (position : Coord) : Turned settings position position := fun _ => .inl rfl

theorem Turned.trans {p₁ p₂ p₃ : Coord} (h : Turned settings p₁ p₂) (h' : Turned settings p₂ p₃) : Turned settings p₁ p₃ := by
  intro i
  rcases h i with heq | ⟨hwraps, k, hk⟩ <;> rcases h' i with heq' | ⟨hwraps', k', hk'⟩
  · exact .inl (heq.trans heq')
  · exact .inr ⟨hwraps', k', heq.trans hk'⟩
  · exact .inr ⟨hwraps, k, heq' ▸ hk⟩
  · refine .inr ⟨hwraps, k' + k, ?_⟩
    rw [hk, hk']
    push_cast
    ring

theorem wrapTarget_turns (v : ℚ) : ∃ k : ℤ, v = wrapTarget v + 360 * k := by
  unfold wrapTarget fmodTurn
  split
  · refine ⟨(v / 360).num.tdiv (v / 360).den - 1, ?_⟩
    push_cast
    ring
  · refine ⟨(v / 360).num.tdiv (v / 360).den, ?_⟩
    ring

example : wrapTarget 400 = 40 ∧ wrapTarget (-50) = 310 := by decide +kernel

/-! ## Runs -/

def follow (moves : List Move) (position : Coord) : Coord := (moves.getLast?.map Move.target).getD position

theorem follow_append (moves moves' : List Move) (position : Coord) :
    follow (moves ++ moves') position = follow moves' (follow moves position) := by
  unfold follow
  rw [List.getLast?_append]
  cases moves'.getLast? <;> rfl

theorem follow_concat (moves : List Move) (move : Move) (position : Coord) : follow (moves ++ [move]) position = move.target :=
  follow_append moves [move] position

theorem follow_turned (moves : List Move) {p₁ p₂ : Coord} (h : Turned settings p₁ p₂) :
    Turned settings (follow moves p₁) (follow moves p₂) := by
  unfold follow
  cases moves.getLast? with
  | none => exact h
  | some move => exact Turned.refl settings _

theorem wrapTarget_turned (settings : Settings) (c : Checked) (p : Parser) (home : Coord) :
    Turned settings home fun i => if rotaryWrap settings c p i then wrapTarget (home i) else home i := by
  intro i
  dsimp only
  split
  · next hwrap =>
      unfold rotaryWrap at hwrap
      exact .inr ⟨(of_decide_eq_true hwrap).2.2.2.1, wrapTarget_turns (home i)⟩
  · exact .inl rfl

theorem nonModal_follows (settings : Settings) (c : Checked) (offsetId : Fin 4) (p : Parser) :
    Turned settings (executeNonModal settings c offsetId p).2.position (follow (executeNonModal settings c offsetId p).1 p.position) := by
  unfold executeNonModal
  cases c.block.nonModalCommand with
  | settings =>
      dsimp only
      split
      · dsimp only
        split <;> exact Turned.refl settings _
      · exact Turned.refl settings _
  | goHome0 | goHome1 =>
      dsimp only
      rw [follow_concat]
      exact wrapTarget_turned settings c p c.coordSystem.2
  | setCoordinateOffset | resetCoordinateOffset =>
      dsimp only
      split <;> exact Turned.refl settings _
  | restoreCoordinateOffset =>
      dsimp only
      unfold Parser.readCoordData
      split <;> exact Turned.refl settings _
  | _ => exact Turned.refl settings _

/-- The motion mode is G0, G1 or G80. -/
def Lines (b : Block) : Prop := b.modal.motion = .seek ∨ b.modal.motion = .linear ∨ b.modal.motion = .none

theorem motion_follows (hlines : Lines b) (hc : c.block.modal.motion = b.modal.motion) (offsetId : Fin 4) (p : Parser) :
    (executeMotion modes c offsetId p).2.state.position = follow (executeMotion modes c offsetId p).1 p.position := by
  by_cases hcommand : c.block.axisCommand = .motionMode
  · rcases hlines with hmode | hmode | hmode
    · rw [executeMotion_line (.inl hmode) hc hcommand]
      rfl
    · rw [executeMotion_line (.inr hmode) hc hcommand]
      rfl
    · unfold executeMotion
      dsimp only
      rw [if_neg fun hmotion => hmotion.1 (hc.trans hmode)]
      rfl
  · rw [executeMotion_of_not_motion hcommand]
    rfl

theorem programEnd_position (settings : Settings) (checkMode : Bool) (p : Parser) :
    (programEnd settings checkMode p).state.position = p.position := by
  have hread : ∀ (p : Parser) (id : CoordId), (p.readCoordData id).2.2.position = p.position := by
    intro p id
    unfold Parser.readCoordData
    split <;> rfl
  unfold programEnd
  dsimp only
  split
  · rfl
  · split
    · exact hread ..
    · split
      · exact hread ..
      · dsimp only [Outcome.state]
        split
        · exact (hread ..).trans (hread ..)
        · exact (hread ..).trans (hread ..)

theorem programFlow_position (settings : Settings) (mode : Mode) (flow : ProgramFlow) (p : Parser) :
    (programFlow settings mode flow p).state.position = p.position := by
  unfold programFlow
  split
  · have hposition := programEnd_position settings mode.checkMode { p with modal.programFlow := flow }
    generalize programEnd settings mode.checkMode { p with modal.programFlow := flow } = r at hposition
    cases r <;> exact hposition
  · rfl

theorem bind_programFlow_position (settings : Settings) (mode : Mode) (flow : ProgramFlow) (r : Result Unit) :
    (r.bind fun _ p => programFlow settings mode flow p).state.position = r.state.position := by
  cases r with
  | error s q => rfl
  | ok _ q => exact programFlow_position settings mode flow q

theorem executeBlock_follows (hlines : Lines b) :
    Turned settings (executeBlock settings modes mode b p).2.state.position (follow (executeBlock settings modes mode b p).1 p.position) := by
  have hchecks := checkBlock_meets settings modes b p
  unfold executeBlock
  cases hcheck : checkBlock settings modes b p with
  | error s q =>
      rw [hcheck] at hchecks
      have hposition := Prepared.position hchecks
      dsimp only [Outcome.state, follow]
      rw [hposition]
      exact Turned.refl settings _
  | ok c q =>
      rw [hcheck] at hchecks
      obtain ⟨hp, hlocated, -⟩ := hchecks
      have hmotion : c.block.modal.motion = b.modal.motion := by rw [hlocated.selected.fromBlock.rest]
      have hfollows := nonModal_follows settings c q.offsetId (executeModal c q)
      rw [executeModal_position, hp.position] at hfollows
      dsimp only
      rw [bind_programFlow_position, motion_follows hlines hmotion, follow_append]
      exact follow_turned _ hfollows

/-- The blocks one after the other, accepted or refused: the moves, and the parser. -/
def runBlocks (settings : Settings) (modes : Modes) : List (Mode × Block) → Parser → List Move × Parser
  | [], p => ([], p)
  | (mode, b) :: blocks, p =>
      let (moves, r) := executeBlock settings modes mode b p
      let (moves', p') := runBlocks settings modes blocks r.state
      (moves ++ moves', p')

/-- After any blocks in G0, G1 or G80, accepted or refused, the position of the parser is the target of the last move, and unchanged when
there is none; a rotary axis that G28 turns the short way may differ by whole turns. -/
theorem position_follows (settings : Settings) (modes : Modes) (blocks : List (Mode × Block)) (hlines : ∀ block ∈ blocks, Lines block.2)
    (p : Parser) (i : Axis) :
    (runBlocks settings modes blocks p).2.position i =
        ((runBlocks settings modes blocks p).1.getLast?.map Move.target).getD p.position i ∨
      settings.wraps i ∧ ∃ k : ℤ, (runBlocks settings modes blocks p).2.position i =
        ((runBlocks settings modes blocks p).1.getLast?.map Move.target).getD p.position i + 360 * k := by
  revert i
  change Turned settings (runBlocks settings modes blocks p).2.position (follow (runBlocks settings modes blocks p).1 p.position)
  induction blocks generalizing p with
  | nil => exact Turned.refl settings p.position
  | cons block blocks ih =>
      obtain ⟨mode, b⟩ := block
      obtain ⟨hb, hrest⟩ := List.forall_mem_cons.1 hlines
      dsimp only [runBlocks]
      rw [follow_append]
      exact (ih hrest _).trans (follow_turned _ (executeBlock_follows hb))

end

theorem position_follows_seekX5 :
    (runBlocks {} linesOnly [({}, seekX5), ({}, setX5)] {}).2.position .x =
      ((runBlocks {} linesOnly [({}, seekX5), ({}, setX5)] {}).1.getLast?.map Move.target).getD 0 .x := by
  rcases position_follows {} linesOnly [({}, seekX5), ({}, setX5)] (by simp [Lines, seekX5, setX5]) {} .x with heq | hwraps
  · exact heq
  · exact absurd hwraps.1 (by decide)

end Grbl.GCode
