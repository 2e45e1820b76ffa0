import Grbl.GCode.Checks
import Grbl.Lib.Run

/-!
# Runs of blocks

What reaches the parser, in any order: blocks, accepted or refused, resets, cleared offsets and synced positions.

* `Event`, `step`;
* `rejected_block` : what a refused block leaves behind;
* `InStep` : the data of the active coordinate system is the stored one; `coordinate_data_in_step` : so it is in every run, but for programs
  that end in check mode.
-/

namespace Grbl.GCode
open Function Numbers Lib

inductive Event
  | block (mode : Mode) (b : Block)
  /-- `gc_init` -/
  | reset (coldStart stop : Bool)
  /-- `gc_clear_offset` -/
  | clearOffset (id : CoordId)
  /-- `gc_sync_position` -/
  | sync (position : Coord)

/-- The event, whether it is refused or not. -/
def step (settings : Settings) (modes : Modes) (p : Parser) : Event → Option Parser
  | .block mode b => some (executeBlock settings modes mode b p).2.state
  | .reset coldStart stop => some (p.gcInit settings coldStart stop)
  | .clearOffset id => some (p.clearOffset settings id)
  | .sync position => some { p with position }

def EndsProgram (mode : Mode) (b : Block) : Prop :=
  (b.modal.programFlow = .completedM2 ∨ b.modal.programFlow = .completedM30) ∧ mode.singleBlock = false

section
variable {settings : Settings} {modes : Modes} {mode : Mode} {b : Block} {p p' : Parser} {c : Checked}

/-! ## Refused blocks -/

/-- The block neither changes the feed rate mode nor the scaling nor a tool nor the data of a cycle, and the stored data can be read. -/
structure Harmless (b : Block) (p : Parser) : Prop where
  feedMode : b.modal.feedMode = p.modal.feedMode
  scaling : b.axisCommand ≠ .scaling
  tool : ∀ tool, ¬SetsTool b tool
  readable : ∀ id, p.nvs id ≠ none
  cycles : ¬b.KeepsCycles

theorem Prepared.eq_of_harmless (h : Prepared b p p') (hb : Harmless b p) : p' = p := by
  have hfeedRate : p'.feedRate = p.feedRate := h.feedRate.resolve_right fun hne => hne.1 hb.feedMode
  obtain ⟨hactive, hijk, hxyz⟩ := h.scaling hb.scaling
  have htools : p'.toolOffset = p.toolOffset := funext fun tool => (h.toolOffset tool).resolve_right (hb.tool tool)
  have hnvs : p'.nvs = p.nvs := funext fun id => (h.nvs id).resolve_right fun hnone => hb.readable id hnone.1
  have hcycles : p'.cycles = p.cycles := h.cycles.resolve_right hb.cycles
  rw [h.rest, hfeedRate, hactive, hijk, hxyz, htools, hnvs, hcycles]

theorem executeMotion_error {offsetId : Fin 4} {s : Status} (h : (executeMotion modes c offsetId p).2 = .error s p') :
    (c.block.modal.motion = .spindleSynchronized ∨ c.block.modal.motion = .threading) ∧ ∃ q, modes.syncMotion c q = some s := by
  unfold executeMotion at h
  dsimp only at h
  split at h
  · split at h
    · cases h
    · cases h
    · next motion _ _ =>
        split at h
        · next s' hsync =>
            split at hsync
            · next hmotion =>
                cases h
                exact ⟨hmotion, _, hsync⟩
            · cases hsync
        · cases h
  · cases h

theorem programEnd_error {checkMode : Bool} {s : Status} (h : programEnd settings checkMode p = .error s p') :
    checkMode = false ∧ s = .settingReadFail := by
  unfold programEnd at h
  cases checkMode with
  | true => exact nomatch h
  | false =>
      refine ⟨rfl, ?_⟩
      dsimp only at h
      rw [if_neg Bool.false_ne_true] at h
      split at h
      · cases h
        rfl
      · split at h
        · exact nomatch h
        · exact nomatch h

/-- No motion modes but G0 and G1. -/
def linesOnly : Modes where
  refuses _ _ := none
  checkedCycles _ p := p.cycles
  used _ _ := ∅
  syncMotion _ _ := none
  moves _ _ := []
  position _ p := p.position
  executedCycles _ p := p.cycles

/-- `G93 G1 X1`, without a feed rate -/
def inverseTimeLine : Block :=
  { modal := { motion := .linear, feedMode := .inverseTime }, words := {.x}, axisWords := {.x}, commandWords := {.g1, .g5} }

theorem executeBlock_inverseTimeLine : executeBlock {} linesOnly {} inverseTimeLine { feedRate := 100 } =
    ([], .error .gcodeUndefinedFeedRate {}) := by
  unfold executeBlock checkBlock
  rfl

/-- The data of the active coordinate system is the stored one. -/
def InStep (p : Parser) : Prop := p.nvs (.work p.modal.g5xOffset) = some p.g5xData

theorem InStep.write_other (h : InStep p) (id : CoordId) (hid : ∀ work, id ≠ .work work) (data : Coord) :
    InStep (p.writeCoordData id data) := by
  unfold InStep Parser.writeCoordData
  dsimp only
  rw [update_of_ne (hid _).symm]
  exact h

theorem InStep.read (h : InStep p) (id : CoordId) : InStep (p.readCoordData id).2.2 := by
  have hfields : (p.readCoordData id).2.2.modal = p.modal ∧ (p.readCoordData id).2.2.g5xData = p.g5xData := by
    unfold Parser.readCoordData
    split <;> exact ⟨rfl, rfl⟩
  unfold InStep
  rw [hfields.1, hfields.2]
  exact readCoordData_mono p id _ _ h

theorem readCoordData_stored (p : Parser) (id : CoordId) : (p.readCoordData id).2.2.nvs id = some (p.readCoordData id).2.1 := by
  unfold Parser.readCoordData
  split
  · next h => exact h
  · exact update_self ..

theorem InStep.prepared (h : InStep p) (hp : Prepared b p p') : InStep p' := by
  unfold InStep at h ⊢
  rw [hp.g5xOffset, hp.g5xData]
  rcases hp.nvs (.work p.modal.g5xOffset) with heq | ⟨hnone, -⟩
  · rw [heq, h]
  · rw [hnone] at h
    exact nomatch h

theorem InStep.setG92 (h : InStep p) (offset : Coord) : InStep (GCode.setG92 offset p) := h

/-- The modal commands: the data of another coordinate system has been read by the checks. -/
theorem InStep.modal (h : InStep p) (hs : Selected b p c p') (hp : Prepared b p p') : InStep (executeModal c p') := by
  have hid : c.block.modal.g5xOffset = b.modal.g5xOffset := by rw [hs.fromBlock.rest]
  have h' := h.prepared hp
  unfold executeModal
  by_cases hg12 : .g12 ∈ c.block.commandWords
  · have hread := (hs.selected hg12).2
    simp only [hg12, decide_true, if_true]
    split <;>
    · unfold InStep
      dsimp only [Parser.toolOffsetApply]
      rw [hid]
      exact hread
  · simp only [hg12, decide_false, Bool.false_eq_true, if_false]
    split <;> exact h'

theorem InStep.nonModal (h : InStep p) (c : Checked) (offsetId : Fin 4) : InStep (executeNonModal settings c offsetId p).2 := by
  unfold executeNonModal
  cases c.block.nonModalCommand with
  | settings =>
      dsimp only
      split
      · dsimp only
        split
        · next hid =>
            unfold InStep
            dsimp only [Parser.writeCoordData] at hid ⊢
            rw [hid, update_self]
        · next hid =>
            unfold InStep
            dsimp only [Parser.writeCoordData] at hid ⊢
            rw [update_of_ne hid]
            exact h
      · exact h
  | goHome0 => exact h
  | goHome1 => exact h
  | setHome0 => exact h.write_other .g28 (fun _ => nofun) _
  | setHome1 => exact h.write_other .g30 (fun _ => nofun) _
  | setCoordinateOffset =>
      dsimp only
      split
      · exact h
      · exact (h.setG92 c.xyz).write_other .g92 (fun _ => nofun) _
  | resetCoordinateOffset =>
      dsimp only
      split
      · exact h
      · exact (h.write_other .g92 (fun _ => nofun) _).setG92 0
  | clearCoordinateOffset => exact h
  | restoreCoordinateOffset => exact (h.read .g92).setG92 _
  | _ => exact h

theorem InStep.motion (h : InStep p) (c : Checked) (offsetId : Fin 4) : InStep (executeMotion modes c offsetId p).2.state := by
  unfold executeMotion
  dsimp only
  split
  · split
    · exact h
    · exact h
    · split <;> exact h
  · exact h

theorem programEnd_inStep (h : InStep p) {checkMode : Bool} (hcheck : checkMode = true → p.modal.g5xOffset = .g54) :
    InStep (programEnd settings checkMode p).state := by
  unfold programEnd
  cases checkMode with
  | true =>
      have hid := hcheck rfl
      unfold InStep at h ⊢
      rw [hid] at h
      exact h
  | false =>
      dsimp only
      rw [if_neg Bool.false_ne_true]
      generalize hq : ({ p with
        modal.motion := .linear
        modal.planeSelect := .xy
        modal.distanceIncremental := false
        modal.feedMode := .unitsPerMin
        modal.g5xOffset := .g54
        modal.coolant := {} } : Parser) = q
      have hstored := readCoordData_stored q (.work .g54)
      have hmodal : (q.readCoordData (.work .g54)).2.2.modal = q.modal := by
        unfold Parser.readCoordData
        split <;> rfl
      have hloaded : InStep { (q.readCoordData (.work .g54)).2.2 with g5xData := (q.readCoordData (.work .g54)).2.1 } := by
        unfold InStep
        dsimp only
        rw [hmodal, ← hq]
        dsimp only
        rw [hq]
        exact hstored
      split
      · exact hloaded
      · split
        · exact hloaded
        · have hread := hloaded.read .g92
          dsimp only [Outcome.state]
          split
          · exact hread.write_other .g92 (fun _ => nofun) _
          · exact hread

theorem programFlow_inStep (h : InStep p) {flow : ProgramFlow}
    (hend : (flow = .completedM2 ∨ flow = .completedM30) ∧ mode.singleBlock = false → mode.checkMode = true → p.modal.g5xOffset = .g54) :
    InStep (programFlow settings mode flow p).state := by
  unfold programFlow
  split
  · next hends =>
      have hended : InStep (programEnd settings mode.checkMode { p with modal.programFlow := flow }).state :=
        programEnd_inStep (p := { p with modal.programFlow := flow }) h (hend hends)
      exact Outcome.state_bind hended fun _ _ hq => hq
  · exact h

theorem executeModal_g5xOffset (hc : c.block.modal.g5xOffset = b.modal.g5xOffset) :
    (executeModal c p).modal.g5xOffset = if .g12 ∈ c.block.commandWords then b.modal.g5xOffset else p.modal.g5xOffset := by
  rw [← hc]
  unfold executeModal
  by_cases hg12 : .g12 ∈ c.block.commandWords
  · simp only [hg12, decide_true, if_true]
  · simp only [hg12, decide_false, Bool.false_eq_true, if_false]
    split <;> rfl

theorem executeNonModal_modal_g5xOffset (c : Checked) (offsetId : Fin 4) (p : Parser) :
    (executeNonModal settings c offsetId p).2.modal.g5xOffset = p.modal.g5xOffset := by
  unfold executeNonModal
  cases c.block.nonModalCommand with
  | settings =>
      dsimp only
      split
      · dsimp only
        split <;> rfl
      · rfl
  | setCoordinateOffset | resetCoordinateOffset =>
      dsimp only
      split <;> rfl
  | restoreCoordinateOffset =>
      unfold Parser.readCoordData
      dsimp only
      split <;> rfl
  | _ => rfl

theorem executeMotion_modal_g5xOffset (c : Checked) (offsetId : Fin 4) (p : Parser) :
    (executeMotion modes c offsetId p).2.state.modal.g5xOffset = p.modal.g5xOffset := by
  unfold executeMotion
  dsimp only
  split
  · split
    · rfl
    · rfl
    · split <;> rfl
  · rfl

/-- The coordinate system that is active after the selection of a block. -/
def Block.activeSystem (b : Block) (p : Parser) : CoordSystemId := if .g12 ∈ b.commandWords then b.modal.g5xOffset else p.modal.g5xOffset

theorem Selected.activeSystem (hs : Selected b p c p') (hp : Prepared b p p') :
    (executeModal c p').modal.g5xOffset = b.activeSystem p := by
  rw [executeModal_g5xOffset (b := b) (by rw [hs.fromBlock.rest]), hp.g5xOffset, Block.activeSystem]
  by_cases hg12 : .g12 ∈ c.block.commandWords
  · rw [if_pos hg12, if_pos (hs.selected hg12).1]
  · rw [if_neg hg12]
    split
    · next hmem => exact ((hs.unselected hg12).2 hmem).symm
    · rfl

theorem InStep.block (h : InStep p) (hend : EndsProgram mode b → mode.checkMode = true → b.activeSystem p = .g54) :
    InStep (executeBlock settings modes mode b p).2.state := by
  have hchecks := checkBlock_meets settings modes b p
  unfold executeBlock
  cases hcheck : checkBlock settings modes b p with
  | error s q =>
      rw [hcheck] at hchecks
      exact h.prepared hchecks
  | ok c q =>
      rw [hcheck] at hchecks
      obtain ⟨hp, hlocated, -⟩ := hchecks
      have hflow : c.block.modal.programFlow = b.modal.programFlow := by rw [hlocated.selected.fromBlock.rest]
      have hexecuted : InStep (executeMotion modes c q.offsetId (executeNonModal settings c q.offsetId (executeModal c q)).2).2.state :=
        ((h.modal hlocated.selected hp).nonModal c _).motion c _
      have hactive : (executeMotion modes c q.offsetId (executeNonModal settings c q.offsetId (executeModal c q)).2).2.state.modal.g5xOffset =
          b.activeSystem p := by
        rw [executeMotion_modal_g5xOffset, executeNonModal_modal_g5xOffset, hlocated.selected.activeSystem hp]
      dsimp only
      generalize (executeMotion modes c q.offsetId (executeNonModal settings c q.offsetId (executeModal c q)).2).2 = r at hexecuted hactive ⊢
      cases r with
      | error s q' => exact hexecuted
      | ok _ q' =>
          rw [hflow]
          exact programFlow_inStep hexecuted fun hends hcheckMode => hactive.trans (hend hends hcheckMode)

theorem gcInit_inStep (settings : Settings) (coldStart stop : Bool) (p : Parser) : InStep (p.gcInit settings coldStart stop) := by
  unfold Parser.gcInit
  generalize (p.cleared settings coldStart stop).setScaling 1 = q
  have hstored := readCoordData_stored q (.work q.modal.g5xOffset)
  have hmodal : (q.readCoordData (.work q.modal.g5xOffset)).2.2.modal = q.modal := by
    unfold Parser.readCoordData
    split <;> rfl
  have hloaded : InStep { (q.readCoordData (.work q.modal.g5xOffset)).2.2 with
      g5xData := (q.readCoordData (.work q.modal.g5xOffset)).2.1 } := by
    unfold InStep
    dsimp only
    rw [hmodal]
    exact hstored
  dsimp only
  split
  · exact hloaded.read .g92
  · exact hloaded

theorem InStep.clearOffset (h : InStep p) (settings : Settings) (id : CoordId) : InStep (p.clearOffset settings id) := by
  unfold Parser.clearOffset
  split
  · dsimp only
    split
    · exact h
    · exact InStep.write_other (p := { p with g92Applied := false, g92 := 0 }) h .g92 (fun _ => nofun) 0
  · split
    · exact h
    · unfold InStep Parser.writeCoordData
      dsimp only
      by_cases hid : id = CoordId.work p.modal.g5xOffset
      · rw [if_pos hid, hid, update_self]
      · rw [if_neg hid, update_of_ne (Ne.symm hid)]
        exact h

/-- G54 is active when a program ends in check mode, or is selected by its last block. -/
def Event.EndsInG54 (p : Parser) : Event → Prop
  | .block mode b => EndsProgram mode b → mode.checkMode = true → b.activeSystem p = .g54
  | _ => True

theorem step_inStep (e : Event) (h : InStep p) (hend : e.EndsInG54 p) (hstep : step settings modes p e = some p') : InStep p' := by
  cases e with
  | block mode b =>
      cases hstep
      exact h.block hend
  | reset coldStart stop =>
      cases hstep
      exact gcInit_inStep settings coldStart stop p
  | clearOffset id =>
      cases hstep
      exact h.clearOffset settings id
  | sync position =>
      cases hstep
      exact h

/-- From a reset on, the data of the active coordinate system is the stored one, whatever blocks are executed or refused, offsets cleared
and resets made, as long as programs that end in check mode end in G54. -/
theorem coordinate_data_in_step (settings : Settings) (modes : Modes) (coldStart stop : Bool) (p : Parser) (events : List Event) (p' : Parser)
    (hends : Along (step settings modes) (fun p e => e.EndsInG54 p) (p.gcInit settings coldStart stop) events)
    (hrun : run (step settings modes) (p.gcInit settings coldStart stop) events = some p') :
    p'.nvs (.work p'.modal.g5xOffset) = some p'.g5xData :=
  run_invariant_along (I := InStep) (fun _ e _ h hend hstep => step_inStep e h hend hstep) events _ p'
    (gcInit_inStep settings coldStart stop p) hends hrun

end

/-- `G55` -/
def selectG55 : Block := { modal := { g5xOffset := .g55 }, commandWords := {.g12} }

/-- `G10 L2 P2 X10` -/
def setG55 : Block :=
  { modal := { g5xOffset := .g55 }, nonModalCommand := .settings, l := 2, words := {.l, .p, .x}, axisWords := {.x}
    axisCommand := .nonModal, commandWords := {.g0}, values := update (update (fun _ => some 0) .p (some 2)) .x (some 10) }

theorem coordinate_data_in_step_g55 :
    ∃ p', run (step {} linesOnly) (Parser.gcInit {} {} true false) [.block {} selectG55, .block {} setG55] = some p' ∧
      p'.nvs (.work p'.modal.g5xOffset) = some p'.g5xData := by
  refine ⟨_, rfl, coordinate_data_in_step {} linesOnly true false {} [.block {} selectG55, .block {} setG55] _ ?_ rfl⟩
  exact ⟨fun _ h => (nomatch h), fun _ _ => ⟨fun _ h => (nomatch h), fun _ _ => trivial⟩⟩

end Grbl.GCode
