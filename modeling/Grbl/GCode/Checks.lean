import Grbl.GCode.Coordinates

/-!
# What the checks leave

What step 3 may write, in the block and in the parser, also when it refuses the block.

* `Prepared` : what it may write in the parser; `FromBlock`, `Keeps` : in the block;
* a lemma for each of the checks;
* `Selected` : the coordinate system of the block; `Values` : the axis words of the block, once they have been worked on;
* `checkBlock_meets`.
-/

namespace Grbl.GCode
open Function Numbers Lib

/-- The tool table entry that a G10 L1, L10 or L11 sets. -/
def SetsTool (b : Block) (tool : ℕ) : Prop :=
  b.nonModalCommand = .settings ∧ (b.l = 1 ∨ b.l = 10 ∨ b.l = 11) ∧ tool = toUint32 ((b.values .p).getD 0) % 2 ^ 8

/-- What step 3 may write in the parser. -/
structure Prepared (b : Block) (p₀ p : Parser) : Prop where
  rest : p = { p₀ with
    feedRate := p.feedRate
    modal.scalingActive := p.modal.scalingActive
    scaleIjk := p.scaleIjk
    scaleXyz := p.scaleXyz
    toolOffset := p.toolOffset
    nvs := p.nvs
    cycles := p.cycles }
  feedRate : p.feedRate = p₀.feedRate ∨ b.modal.feedMode ≠ p₀.modal.feedMode ∧ p.feedRate = 0
  scaling : b.axisCommand ≠ .scaling →
    p.modal.scalingActive = p₀.modal.scalingActive ∧ p.scaleIjk = p₀.scaleIjk ∧ p.scaleXyz = p₀.scaleXyz
  toolOffset : ∀ tool, p.toolOffset tool = p₀.toolOffset tool ∨ SetsTool b tool
  nvs : ∀ id, p.nvs id = p₀.nvs id ∨ p₀.nvs id = none ∧ p.nvs id = some 0
  cycles : p.cycles = p₀.cycles ∨ b.KeepsCycles

/-- What step 3 may write in the words of the block. -/
structure FromBlock (b : Block) (c : Checked) : Prop where
  rest : c.block = { b with
    words := c.block.words
    commandWords := c.block.commandWords
    axisCommand := c.block.axisCommand
    modal.scalingActive := c.block.modal.scalingActive
    modal.retractMode := c.block.modal.retractMode }

/-- The axis values, the commands and the coordinate systems are as before. -/
structure Keeps (c c' : Checked) : Prop where
  rest : c' = { c with
    f := c'.f
    h := c'.h
    block := { c.block with
      words := c'.block.words
      modal.scalingActive := c'.block.modal.scalingActive
      modal.retractMode := c'.block.modal.retractMode } }

/-- The axis command, when axis words stand for the motion mode. -/
def Block.command (b : Block) : AxisCommand := if b.axisWords ≠ ∅ ∧ b.axisCommand = .none then .motionMode else b.axisCommand

def programmed (settings : Settings) (b : Block) (p : Parser) : Coord := (scaleWords (convertUnits settings (.start b p)) p).xyz

/-- Before [15]; the axis values are `axes`. -/
structure Stage (b : Block) (p₀ : Parser) (axes : Coord) (c : Checked) : Prop where
  fromBlock : FromBlock b c
  command : c.block.axisCommand = b.command
  commandWords : c.block.commandWords = b.commandWords
  g5xData : c.g5xData = p₀.g5xData
  xyz : b.axisCommand ≠ .scaling → c.xyz = axes

section
variable {b : Block} {p₀ p : Parser} {c c' : Checked} {axes : Coord}

theorem Block.command_scaling (h : b.command = .scaling) : b.axisCommand = .scaling := by
  unfold Block.command at h
  split at h
  · exact nomatch h
  · exact h

theorem Keeps.refl (c : Checked) : Keeps c c := ⟨rfl⟩

theorem Keeps.trans {c'' : Checked} (h : Keeps c c') (h' : Keeps c' c'') : Keeps c c'' := by
  constructor
  rw [h'.rest]
  dsimp only
  rw [h.rest]

theorem Keeps.fromBlock (h : Keeps c c') (hc : FromBlock b c) : FromBlock b c' := by
  constructor
  rw [h.rest]
  dsimp only
  rw [hc.rest]

theorem Keeps.xyz (h : Keeps c c') : c'.xyz = c.xyz := by rw [h.rest]

theorem Keeps.g5xData (h : Keeps c c') : c'.g5xData = c.g5xData := by rw [h.rest]

theorem Keeps.coordSystem (h : Keeps c c') : c'.coordSystem = c.coordSystem := by rw [h.rest]

theorem Keeps.commandWords (h : Keeps c c') : c'.block.commandWords = c.block.commandWords := by rw [h.rest]

theorem Keeps.command (h : Keeps c c') : c'.block.axisCommand = c.block.axisCommand := by rw [h.rest]

theorem Keeps.stage (h : Keeps c c') (hc : Stage b p₀ axes c) : Stage b p₀ axes c' where
  fromBlock := h.fromBlock hc.fromBlock
  command := h.command.trans hc.command
  commandWords := h.commandWords.trans hc.commandWords
  g5xData := h.g5xData.trans hc.g5xData
  xyz hne := h.xyz.trans (hc.xyz hne)

theorem Keeps.drop (c : Checked) (letters : Finset Letter) : Keeps c (c.drop letters) := ⟨rfl⟩

theorem Prepared.refl (b : Block) (p : Parser) : Prepared b p p :=
  ⟨rfl, .inl rfl, fun _ => ⟨rfl, rfl, rfl⟩, fun _ => .inl rfl, fun _ => .inl rfl, .inl rfl⟩

theorem Prepared.modal_feedMode (h : Prepared b p₀ p) : p.modal.feedMode = p₀.modal.feedMode := by rw [h.rest]

theorem Prepared.position (h : Prepared b p₀ p) : p.position = p₀.position := by rw [h.rest]

theorem Prepared.g92 (h : Prepared b p₀ p) : p.g92 = p₀.g92 := by rw [h.rest]

theorem Prepared.g5xData (h : Prepared b p₀ p) : p.g5xData = p₀.g5xData := by rw [h.rest]

theorem Prepared.toolLengthOffset (h : Prepared b p₀ p) : p.toolLengthOffset = p₀.toolLengthOffset := by rw [h.rest]

theorem Prepared.g5xOffset (h : Prepared b p₀ p) : p.modal.g5xOffset = p₀.modal.g5xOffset := by rw [h.rest]

theorem Prepared.resetFeedRate (h : Prepared b p₀ p) (hmode : b.modal.feedMode ≠ p₀.modal.feedMode) :
    Prepared b p₀ { p with feedRate := 0 } := by
  refine ⟨?_, .inr ⟨hmode, rfl⟩, h.scaling, h.toolOffset, h.nvs, h.cycles⟩
  dsimp only
  rw [h.rest]

theorem Prepared.scale (h : Prepared b p₀ p) (hscaling : b.axisCommand = .scaling) (active : Bool) (scaleIjk scaleXyz : Coord) :
    Prepared b p₀ { p with modal.scalingActive := active, scaleIjk, scaleXyz } := by
  refine ⟨?_, h.feedRate, fun hne => absurd hscaling hne, h.toolOffset, h.nvs, h.cycles⟩
  dsimp only
  rw [h.rest]

theorem Prepared.read (h : Prepared b p₀ p) (id : CoordId) : Prepared b p₀ (p.readCoordData id).2.2 := by
  unfold Parser.readCoordData
  split
  · exact h
  · next hnone =>
      refine ⟨?_, h.feedRate, h.scaling, h.toolOffset, fun id' => ?_, h.cycles⟩
      · dsimp only [Parser.writeCoordData]
        rw [h.rest]
      · dsimp only [Parser.writeCoordData]
        by_cases hid : id' = id
        · subst hid
          rw [update_self]
          refine .inr ⟨?_, rfl⟩
          rcases h.nvs id' with heq | ⟨-, hsome⟩
          · rw [← heq, hnone]
          · rw [hnone] at hsome
            exact nomatch hsome
        · rw [update_of_ne hid]
          exact h.nvs id'

theorem Prepared.setTool (h : Prepared b p₀ p) {tool : ℕ} (htool : SetsTool b tool) (data : Option Coord) :
    Prepared b p₀ { p with toolOffset := update p.toolOffset tool data } := by
  refine ⟨?_, h.feedRate, h.scaling, fun tool' => ?_, h.nvs, h.cycles⟩
  · dsimp only
    rw [h.rest]
  · by_cases hne : tool' = tool
    · exact .inr (hne ▸ htool)
    · simpa only [update_of_ne hne] using h.toolOffset tool'

theorem Prepared.keepCycles (h : Prepared b p₀ p) (hkeeps : b.KeepsCycles) (cycles : CycleData) : Prepared b p₀ { p with cycles } := by
  refine ⟨?_, h.feedRate, h.scaling, h.toolOffset, h.nvs, .inr hkeeps⟩
  dsimp only
  rw [h.rest]

theorem readCoordData_ok (p : Parser) (id : CoordId) (h : (p.readCoordData id).1 = true) :
    p.nvs id = some (p.readCoordData id).2.1 ∧ (p.readCoordData id).2.2 = p := by
  unfold Parser.readCoordData at h ⊢
  split
  · next data hdata => exact ⟨hdata, rfl⟩
  · next hnone =>
      rw [hnone] at h
      exact absurd h Bool.false_ne_true

/-! ## The checks -/

theorem checkH_meets (hp : Prepared b p₀ p) : (checkH c p).Meets (Prepared b p₀) fun c' _ => c' = c := by
  unfold checkH
  split_ifs <;> simp [hp]

theorem checkFeedRate_meets (hp : Prepared b p₀ p) (hc : FromBlock b c) :
    (checkFeedRate c p).Meets (Prepared b p₀) fun c' _ => Keeps c c' := by
  have hfeedMode : c.block.modal.feedMode = b.modal.feedMode := by rw [hc.rest]
  have hreset : Prepared b p₀ (if c.block.modal.feedMode ≠ p.modal.feedMode then { p with feedRate := 0 } else p) := by
    split
    · next hne => exact hp.resetFeedRate (by rwa [hfeedMode, hp.modal_feedMode] at hne)
    · exact hp
  unfold checkFeedRate
  generalize (if c.block.modal.feedMode ≠ p.modal.feedMode then { p with feedRate := 0 } else p) = p' at hreset
  dsimp only
  split_ifs
  · exact hreset
  · exact ⟨hreset, ⟨rfl⟩⟩
  · exact ⟨hreset, .refl c⟩
  · exact hreset
  · exact ⟨hreset, .refl c⟩
  · exact ⟨hreset, ⟨rfl⟩⟩

theorem checkDwell_meets (hp : Prepared b p₀ p) : (checkDwell c p).Meets (Prepared b p₀) fun c' _ => Keeps c c' := by
  unfold checkDwell
  split_ifs
  · exact hp
  · exact ⟨hp, .drop c _⟩
  · exact hp
  · exact ⟨hp, .refl c⟩

theorem checkScaling_meets (hp : Prepared b p₀ p) (hcommand : c.block.axisCommand = b.command) :
    (checkScaling c p).Meets (Prepared b p₀) fun c' _ => Keeps c c' := by
  unfold checkScaling
  split_ifs with hscaling hactive
  · exact hp
  · exact ⟨hp.scale (Block.command_scaling (hcommand.symm.trans hscaling)) _ _ _, ⟨rfl⟩⟩
  · exact ⟨hp.scale (Block.command_scaling (hcommand.symm.trans hscaling)) _ _ _, .refl c⟩
  · exact ⟨hp, .refl c⟩

theorem checkToolOffset_meets (settings : Settings) (hp : Prepared b p₀ p) :
    (checkToolOffset settings c p).Meets (Prepared b p₀) fun c' _ => Keeps c c' := by
  unfold checkToolOffset
  split
  · exact ⟨hp, .refl c⟩
  · split
    · exact ⟨hp, .refl c⟩
    · split
      · exact hp
      · exact ⟨hp, .refl c⟩
    · dsimp only
      generalize (if c.h = 0 ∧ settings.randomToolchanger = false then (p.toolPending : ℚ) else c.h) = h
      split_ifs
      · exact hp
      · exact hp
      · exact ⟨hp, ⟨rfl⟩⟩
      · exact ⟨hp, ⟨rfl⟩⟩
    · split_ifs
      · exact hp
      · exact hp
      · exact ⟨hp, .drop c _⟩
      · exact hp

/-! ## Units and scaling -/

theorem start_stage (b : Block) (p₀ : Parser) : Stage b p₀ (Checked.start b p₀).xyz (implicitMotion (.start b p₀)) := by
  unfold implicitMotion
  split
  · next h => exact ⟨⟨rfl⟩, (if_pos h).symm, rfl, rfl, fun _ => rfl⟩
  · next h => exact ⟨⟨rfl⟩, (if_neg h).symm, rfl, rfl, fun _ => rfl⟩

theorem convertUnits_stage (settings : Settings) (hc : Stage b p₀ (Checked.start b p₀).xyz c) :
    Stage b p₀ (convertUnits settings (.start b p₀)).xyz (convertUnits settings c) := by
  refine ⟨⟨hc.fromBlock.rest⟩, hc.command, hc.commandWords, hc.g5xData, fun hne => ?_⟩
  have hxyz := hc.xyz hne
  unfold convertUnits
  dsimp only
  rw [hc.fromBlock.rest, hxyz]
  rfl

theorem scaleWords_stage (settings : Settings) (hp : Prepared b p₀ p) (hc : Stage b p₀ (convertUnits settings (.start b p₀)).xyz c) :
    Stage b p₀ (programmed settings b p₀) (scaleWords c p) := by
  have hblock : (scaleWords c p).block = c.block := by
    unfold scaleWords
    split <;> rfl
  have hg5xData : (scaleWords c p).g5xData = c.g5xData := by
    unfold scaleWords
    split <;> rfl
  refine ⟨⟨?_⟩, ?_, ?_, hg5xData.trans hc.g5xData, fun hne => ?_⟩
  · rw [hblock]
    exact hc.fromBlock.rest
  · rw [hblock]
    exact hc.command
  · rw [hblock]
    exact hc.commandWords
  · have hxyz := hc.xyz hne
    obtain ⟨hactive, hijk, hscaleXyz⟩ := hp.scaling hne
    unfold programmed scaleWords
    rw [hactive]
    split
    · dsimp only
      rw [hc.fromBlock.rest, hxyz, hijk, hscaleXyz]
      rfl
    · exact hxyz

/-! ## Coordinate systems and targets -/

/-- The coordinate system of the block: G12 is left when it is another one, and its data has been read. -/
structure Selected (b : Block) (p₀ : Parser) (c : Checked) (p : Parser) : Prop where
  fromBlock : FromBlock b c
  others : ∀ g, g ≠ .g12 → (g ∈ c.block.commandWords ↔ g ∈ b.commandWords)
  selected : .g12 ∈ c.block.commandWords → .g12 ∈ b.commandWords ∧ p.nvs (.work b.modal.g5xOffset) = some c.g5xData
  unselected : .g12 ∉ c.block.commandWords →
    c.g5xData = p₀.g5xData ∧ (.g12 ∈ b.commandWords → b.modal.g5xOffset = p₀.modal.g5xOffset)

theorem Selected.mono {p' : Parser} (h : Selected b p₀ c p) (hc' : FromBlock b c') (hwords : c'.block.commandWords = c.block.commandWords)
    (hdata : c'.g5xData = c.g5xData) (hread : ∀ id data, p.nvs id = some data → p'.nvs id = some data) : Selected b p₀ c' p' := by
  refine ⟨hc', fun g hg => ?_, fun hg => ?_, fun hg => ?_⟩
  · rw [hwords]
    exact h.others g hg
  · rw [hwords] at hg
    obtain ⟨hmem, hnvs⟩ := h.selected hg
    exact ⟨hmem, hdata ▸ hread _ _ hnvs⟩
  · rw [hwords] at hg
    rw [hdata]
    exact h.unselected hg

theorem selectCoordSystem_meets (hp : Prepared b p₀ p) (hc : Stage b p₀ axes c) :
    (selectCoordSystem c p).Meets (Prepared b p₀) fun c' p' =>
      Selected b p₀ c' p' ∧ c'.block.axisCommand = b.command ∧ (b.axisCommand ≠ .scaling → c'.xyz = axes) := by
  have hid : c.block.modal.g5xOffset = b.modal.g5xOffset := by rw [hc.fromBlock.rest]
  unfold selectCoordSystem
  split
  · next hg12 =>
      split
      · next hne =>
          have hread := hp.read (.work c.block.modal.g5xOffset)
          have hok := readCoordData_ok p (.work c.block.modal.g5xOffset)
          generalize p.readCoordData (.work c.block.modal.g5xOffset) = r at hread hok ⊢
          obtain ⟨ok, data, p'⟩ := r
          dsimp only at hread hok ⊢
          split
          · next h =>
              obtain ⟨hdata, rfl⟩ := hok h
              rw [hid] at hdata
              have hg12' : .g12 ∈ b.commandWords := hc.commandWords ▸ hg12
              refine ⟨hread, ⟨⟨hc.fromBlock.rest⟩, fun g _ => ?_, fun _ => ⟨hg12', hdata⟩, fun hnot => absurd hg12 hnot⟩, hc.command, hc.xyz⟩
              rw [← hc.commandWords]
          · exact hread
      · next heq =>
          rw [not_not, hid, hp.g5xOffset] at heq
          refine ⟨hp, ⟨⟨?_⟩, fun g hg => ?_, fun h => absurd h (Finset.notMem_erase _ _), fun _ => ⟨hc.g5xData, fun _ => heq⟩⟩,
            hc.command, hc.xyz⟩
          · dsimp only
            rw [hc.fromBlock.rest]
          · rw [← hc.commandWords]
            simp [hg]
  · next hg12 =>
      refine ⟨hp, ⟨hc.fromBlock, fun g _ => ?_, fun h => absurd h hg12, fun _ => ⟨hc.g5xData, fun h => ?_⟩⟩, hc.command, hc.xyz⟩
      · rw [hc.commandWords]
      · exact absurd (hc.commandWords ▸ h) hg12

/-- The G92 offset that makes the axis words the work position. -/
def g92Of (b : Block) (p₀ : Parser) (axes g5xData : Coord) : Coord := fun i =>
  if i ∈ b.axisWords then p₀.position i - g5xData i - axes i - p₀.toolLengthOffset i else p₀.g92 i

/-- The data of a coordinate system after a G10 L2 or L20. -/
def systemOf (b : Block) (p₀ : Parser) (axes data : Coord) : Coord := fun i =>
  if i ∈ b.axisWords then
    if b.l = 20 then p₀.position i - axes i - p₀.g92 i - p₀.toolLengthOffset i else axes i
  else data i

def targetOf (b : Block) (p₀ : Parser) (axes g5xData : Coord) : Coord := fun i =>
  if i ∉ b.axisWords then p₀.position i
  else if b.nonModalCommand = .absoluteOverride then axes i
  else if b.modal.distanceIncremental then axes i + p₀.position i
  else axes i + (g5xData i + p₀.g92 i + p₀.toolLengthOffset i)

/-- The position a G28 or G30 goes to. -/
def homeOf (b : Block) (p₀ : Parser) (data : Coord) : Coord := fun i =>
  if b.axisWords = ∅ ∨ i ∈ b.axisWords then data i else p₀.position i

/-- After [19], what the commands have made of the axis words. -/
structure Located (settings : Settings) (b : Block) (p₀ : Parser) (c : Checked) (p : Parser) : Prop where
  selected : Selected b p₀ c p
  either : c.block.axisCommand = b.command ∨ c.block.axisCommand = .none
  command : b.axisWords ≠ ∅ → c.block.axisCommand = b.command
  g92 : b.nonModalCommand = .setCoordinateOffset → b.axisCommand ≠ .scaling →
    c.xyz = g92Of b p₀ (programmed settings b p₀) c.g5xData
  system : b.nonModalCommand = .settings → b.l = 2 ∨ b.l = 20 → b.axisCommand ≠ .scaling →
    ∃ id data, coordSystemOf b.modal.g5xOffset (toUint32 ((b.values .p).getD 0) % 2 ^ 8) = some id ∧
      p.nvs (.work id) = some data ∧ c.coordSystem = (.work id, systemOf b p₀ (programmed settings b p₀) data)
  home : ∀ id, b.nonModalCommand = .goHome0 ∧ id = .g28 ∨ b.nonModalCommand = .goHome1 ∧ id = .g30 →
    ∃ data, p.nvs id = some data ∧ c.coordSystem = (id, homeOf b p₀ data) ∧ (b.axisWords = ∅ → c.block.axisCommand = .none)
  target : b.nonModalCommand ≠ .settings → b.nonModalCommand ≠ .setCoordinateOffset → b.axisCommand ≠ .scaling → b.axisWords ≠ ∅ →
    b.command ≠ .toolLengthOffset → c.xyz = targetOf b p₀ (programmed settings b p₀) c.g5xData

theorem readCoordData_mono (p : Parser) (id id' : CoordId) (data : Coord) (h : p.nvs id' = some data) :
    (p.readCoordData id).2.2.nvs id' = some data := by
  unfold Parser.readCoordData
  split
  · exact h
  · next hnone =>
      have hne : id' ≠ id := by
        rintro rfl
        rw [hnone] at h
        exact nomatch h
      simpa only [Parser.writeCoordData, update_of_ne hne] using h

theorem checkSetTool_meets (settings : Settings) (hp : Prepared b p₀ p) (hs : Selected b p₀ c p)
    (hcommand : b.nonModalCommand = .settings) (hl : b.l = 1 ∨ b.l = 10 ∨ b.l = 11) :
    (checkSetTool settings c p).Meets (Prepared b p₀) fun c' p' => Selected b p₀ c' p' ∧ c'.block.axisCommand = c.block.axisCommand := by
  have htool : SetsTool b (toUint32 (c.value .p) % 2 ^ 8) := by
    refine ⟨hcommand, hl, ?_⟩
    unfold Checked.value
    rw [hs.fromBlock.rest]
  unfold checkSetTool
  split
  · exact hp
  · dsimp only
    split
    · exact hp
    · next offset _ =>
        have hread : Prepared b p₀ (if c.block.l = 11 then p.readCoordData (.work .g59_3) else (true, 0, p)).2.2 := by
          split
          · exact hp.read _
          · exact hp
        have hmono : ∀ id data, p.nvs id = some data →
            (if c.block.l = 11 then p.readCoordData (.work .g59_3) else (true, 0, p)).2.2.nvs id = some data := by
          intro id data h
          split
          · exact readCoordData_mono p _ id data h
          · exact h
        generalize (if c.block.l = 11 then p.readCoordData (.work .g59_3) else (true, 0, p)) = r at hread hmono ⊢
        obtain ⟨ok, g59_3, p'⟩ := r
        dsimp only at hread hmono ⊢
        split
        · exact hread
        · exact ⟨hread.setTool htool _, hs.mono ((Keeps.drop c _).fromBlock hs.fromBlock) rfl rfl hmono, rfl⟩

theorem checkSetCoordSystem_meets (settings : Settings) (hp : Prepared b p₀ p) (hs : Selected b p₀ c p) :
    (checkSetCoordSystem settings c p).Meets (Prepared b p₀) fun c' p' =>
      Selected b p₀ c' p' ∧ c'.block.axisCommand = c.block.axisCommand ∧
        ∃ id data, coordSystemOf b.modal.g5xOffset (toUint32 ((b.values .p).getD 0) % 2 ^ 8) = some id ∧
          p'.nvs (.work id) = some data ∧ c'.coordSystem = (.work id, systemOf b p₀ c.xyz data) := by
  have hblock := hs.fromBlock.rest
  unfold checkSetCoordSystem
  split
  · exact hp
  · split
    · exact hp
    · next id hid =>
        have hread := hp.read (.work id)
        have hok := readCoordData_ok p (.work id)
        have hmono := readCoordData_mono p (.work id)
        generalize p.readCoordData (.work id) = r at hread hok hmono ⊢
        obtain ⟨ok, data, p'⟩ := r
        dsimp only at hread hok hmono ⊢
        split
        · exact hread
        · next h =>
            obtain ⟨hdata, rfl⟩ := hok (by simpa using h)
            split
            · exact hread
            · refine ⟨hread, hs.mono ((Keeps.drop _ _).fromBlock ⟨hs.fromBlock.rest⟩) rfl rfl hmono, rfl, id, data, ?_, hdata, ?_⟩
              · unfold Checked.value at hid
                rw [hblock] at hid
                exact hid
              · dsimp only [Checked.drop]
                rw [hread.position, hread.g92, hread.toolLengthOffset, hblock]
                rfl

theorem checkSettings_meets (settings : Settings) (hp : Prepared b p₀ p) (hs : Selected b p₀ c p)
    (hcommand : b.nonModalCommand = .settings) :
    (checkSettings settings c p).Meets (Prepared b p₀) fun c' p' =>
      Selected b p₀ c' p' ∧ c'.block.axisCommand = c.block.axisCommand ∧
        (b.l = 2 ∨ b.l = 20 → ∃ id data, coordSystemOf b.modal.g5xOffset (toUint32 ((b.values .p).getD 0) % 2 ^ 8) = some id ∧
          p'.nvs (.work id) = some data ∧ c'.coordSystem = (.work id, systemOf b p₀ c.xyz data)) := by
  have hl : c.block.l = b.l := by rw [hs.fromBlock.rest]
  unfold checkSettings
  rw [hl]
  split
  · exact hp
  · split
    · exact hp
    · split
      · exact hp
      · split
        · refine Outcome.Meets.weaken (checkSetCoordSystem_meets settings hp hs) fun c' p' ⟨hs', hcommand', hsystem⟩ => ?_
          exact ⟨hs', hcommand', fun _ => hsystem⟩
        · next hnot =>
            split
            · next htool =>
                refine Outcome.Meets.weaken (checkSetTool_meets settings hp hs hcommand htool) fun c' p' ⟨hs', hcommand'⟩ => ?_
                exact ⟨hs', hcommand', fun h => absurd h hnot⟩
            · exact hp

theorem checkGoHome_meets (id : CoordId) (hp : Prepared b p₀ p) (hs : Selected b p₀ c p) :
    (checkGoHome id c p).Meets (Prepared b p₀) fun c' p' =>
      Selected b p₀ c' p' ∧ c'.xyz = c.xyz ∧ c'.g5xData = c.g5xData ∧ ∃ data, p'.nvs id = some data ∧
        c'.coordSystem = (id, homeOf b p₀ data) ∧
        c'.block.axisCommand = if b.axisWords = ∅ then .none else c.block.axisCommand := by
  have haxisWords : c.block.axisWords = b.axisWords := by rw [hs.fromBlock.rest]
  have hread := hp.read id
  have hok := readCoordData_ok p id
  have hmono := readCoordData_mono p id
  unfold checkGoHome
  generalize p.readCoordData id = r at hread hok hmono ⊢
  obtain ⟨ok, data, p'⟩ := r
  dsimp only at hread hok hmono ⊢
  split
  · exact hread
  · next h =>
      obtain ⟨hdata, rfl⟩ := hok (by simpa using h)
      by_cases hempty : b.axisWords = ∅
      · rw [if_neg (not_not.2 (haxisWords.trans hempty)), if_pos hempty]
        have hblock : FromBlock b { c with coordSystem := (id, data), block.axisCommand := .none } := by
          constructor
          dsimp only
          rw [hs.fromBlock.rest]
        refine ⟨hread, hs.mono hblock rfl rfl hmono, rfl, rfl, data, hdata, ?_, rfl⟩
        unfold homeOf
        simp [hempty]
      · rw [if_pos (haxisWords ▸ hempty), if_neg hempty]
        refine ⟨hread, hs.mono ⟨hs.fromBlock.rest⟩ rfl rfl hmono, rfl, rfl, data, hdata, ?_, rfl⟩
        rw [hread.position, haxisWords]
        unfold homeOf
        simp [hempty]

theorem withTarget_block (c : Checked) (p : Parser) : (withTarget c p).block = c.block := by
  unfold withTarget
  split <;> rfl

theorem withTarget_g5xData (c : Checked) (p : Parser) : (withTarget c p).g5xData = c.g5xData := by
  unfold withTarget
  split <;> rfl

theorem withTarget_selected (hs : Selected b p₀ c p) : Selected b p₀ (withTarget c p) p := by
  refine hs.mono ⟨?_⟩ (by rw [withTarget_block]) (withTarget_g5xData c p) fun _ _ h => h
  rw [withTarget_block]
  exact hs.fromBlock.rest

theorem withTarget_xyz (hp : Prepared b p₀ p) (hs : Selected b p₀ c p) (hcommand : c.block.axisCommand = b.command)
    (haxisWords : b.axisWords ≠ ∅) (htlo : b.command ≠ .toolLengthOffset) :
    (withTarget c p).xyz = targetOf b p₀ c.xyz c.g5xData := by
  have hblock := hs.fromBlock.rest
  have hwords : c.block.axisWords = b.axisWords := by rw [hblock]
  unfold withTarget
  rw [if_pos ⟨.inl (hwords ▸ haxisWords), hcommand ▸ htlo⟩]
  unfold target targetOf blockOffset
  rw [hblock, hp.position, hp.g92, hp.toolLengthOffset]

theorem checkNonModal_meets (settings : Settings) (hp : Prepared b p₀ p) (hs : Selected b p₀ c p)
    (hcommand : c.block.axisCommand = b.command) (haxes : b.axisCommand ≠ .scaling → c.xyz = programmed settings b p₀) :
    (checkNonModal settings c p).Meets (Prepared b p₀) (Located settings b p₀) := by
  have hblock := hs.fromBlock.rest
  have hnonModal : c.block.nonModalCommand = b.nonModalCommand := by rw [hblock]
  have hcommand' : (withTarget c p).block.axisCommand = b.command := by rw [withTarget_block, hcommand]
  have htarget : b.axisCommand ≠ .scaling → b.axisWords ≠ ∅ → b.command ≠ .toolLengthOffset →
      (withTarget c p).xyz = targetOf b p₀ (programmed settings b p₀) (withTarget c p).g5xData := by
    intro hne haxisWords htlo
    rw [← haxes hne, withTarget_xyz hp hs hcommand haxisWords htlo, withTarget_g5xData]
  have hhome : ∀ id, b.nonModalCommand = .goHome0 ∧ id = .g28 ∨ b.nonModalCommand = .goHome1 ∧ id = .g30 →
      (checkGoHome id (withTarget c p) p).Meets (Prepared b p₀) (Located settings b p₀) := by
    intro id hid
    refine Outcome.Meets.weaken (checkGoHome_meets id hp (withTarget_selected hs)) fun c' p' ⟨hs', hxyz, hdata, hcoordSystem⟩ => ?_
    rw [hcommand'] at hcoordSystem
    obtain ⟨data, hread, hsystem, haxisCommand⟩ := hcoordSystem
    have heither : c'.block.axisCommand = b.command ∨ c'.block.axisCommand = .none := by
      rw [haxisCommand]
      split
      · exact .inr rfl
      · exact .inl rfl
    refine ⟨hs', heither, fun hne => haxisCommand.trans (if_neg hne), fun h => ?_, fun h => ?_, fun id' hid' => ?_,
      fun _ _ hne haxisWords htlo => ?_⟩
    · rw [h] at hid
      exact absurd hid (by simp)
    · rw [h] at hid
      exact absurd hid (by simp)
    · obtain rfl : id' = id := by
        rcases hid with ⟨h, rfl⟩ | ⟨h, rfl⟩ <;> simpa [h] using hid'
      exact ⟨data, hread, hsystem, fun hempty => haxisCommand.trans (if_pos hempty)⟩
    · rw [hxyz, hdata]
      exact htarget hne haxisWords htlo
  have hother : b.nonModalCommand ≠ .settings → b.nonModalCommand ≠ .setCoordinateOffset → b.nonModalCommand ≠ .goHome0 →
      b.nonModalCommand ≠ .goHome1 → Located settings b p₀ (withTarget c p) p := by
    intro hsettings hoffset h0 h1
    refine ⟨withTarget_selected hs, .inl hcommand', fun _ => hcommand', fun h => absurd h hoffset, fun h => absurd h hsettings, fun id hid => ?_,
      fun _ _ => htarget⟩
    rcases hid with ⟨h, -⟩ | ⟨h, -⟩
    · exact absurd h h0
    · exact absurd h h1
  unfold checkNonModal
  rw [hnonModal]
  cases hb : b.nonModalCommand with
  | settings =>
      refine Outcome.Meets.weaken (checkSettings_meets settings hp hs hb) fun c' p' ⟨hs', hcommand', hsystem⟩ => ?_
      refine ⟨hs', .inl (hcommand'.trans hcommand), fun _ => hcommand'.trans hcommand, fun h => ?_, fun _ hl hne => ?_, fun id hid => ?_, fun h => absurd hb h⟩
      · exact nomatch hb.symm.trans h
      · rw [← haxes hne]
        exact hsystem hl
      · rw [hb] at hid
        exact absurd hid (by simp)
  | setCoordinateOffset =>
      dsimp only
      split
      · exact hp
      · refine ⟨hp, hs.mono ⟨hs.fromBlock.rest⟩ rfl rfl fun _ _ h => h, .inl hcommand, fun _ => hcommand, fun _ hne => ?_, fun h => ?_,
          fun id hid => ?_, fun _ h => absurd hb h⟩
        · unfold g92Of
          rw [← haxes hne, hp.position, hp.g92, hp.toolLengthOffset, hblock]
        · exact nomatch hb.symm.trans h
        · rw [hb] at hid
          exact absurd hid (by simp)
  | goHome0 => exact hhome .g28 (.inl ⟨hb, rfl⟩)
  | goHome1 => exact hhome .g30 (.inr ⟨hb, rfl⟩)
  | absoluteOverride =>
      have hdone := hother (by simp [hb]) (by simp [hb]) (by simp [hb]) (by simp [hb])
      dsimp only
      generalize withTarget c p = c' at hdone ⊢
      split
      · exact ⟨hp, hdone⟩
      · exact hp
  | _ => exact ⟨hp, hother (by simp [hb]) (by simp [hb]) (by simp [hb]) (by simp [hb])⟩

/-! ## Motion -/

/-- The axis command is dropped when there are no axis words. -/
structure Moved (c c' : Checked) : Prop where
  keeps : Keeps { c with block.axisCommand := c'.block.axisCommand } c'
  command : c.block.axisWords ≠ ∅ ∨ c.block.axisCommand = .none → c'.block.axisCommand = c.block.axisCommand
  either : c'.block.axisCommand = c.block.axisCommand ∨ c'.block.axisCommand = .none

theorem Keeps.moved (h : Keeps c c') : Moved c c' := by
  refine ⟨?_, fun _ => h.command, .inl h.command⟩
  rw [h.command]
  exact h

theorem Moved.fromBlock (h : Moved c c') (hc : FromBlock b c) : FromBlock b c' := by
  refine h.keeps.fromBlock ⟨?_⟩
  dsimp only
  rw [hc.rest]

theorem Located.moved {settings : Settings} {p' : Parser} (h : Located settings b p₀ c p) (hm : Moved c c') (hnvs : p'.nvs = p.nvs) :
    Located settings b p₀ c' p' := by
  have haxisWords : c.block.axisWords = b.axisWords := by rw [h.selected.fromBlock.rest]
  have hxyz : c'.xyz = c.xyz := hm.keeps.xyz
  have hdata : c'.g5xData = c.g5xData := hm.keeps.g5xData
  have hsystem : c'.coordSystem = c.coordSystem := hm.keeps.coordSystem
  refine ⟨h.selected.mono (hm.fromBlock h.selected.fromBlock) hm.keeps.commandWords hdata fun id _ h => hnvs ▸ h, ?_, fun hne => ?_, ?_, ?_,
    fun id hid => ?_, ?_⟩
  · rcases hm.either with heq | hnone
    · exact h.either.imp heq.trans heq.trans
    · exact .inr hnone
  · exact (hm.command (.inl (haxisWords ▸ hne))).trans (h.command hne)
  · rw [hxyz, hdata]
    exact h.g92
  · rw [hsystem, hnvs]
    exact h.system
  · obtain ⟨data, hread, hcoordSystem, hnone⟩ := h.home id hid
    exact ⟨data, hnvs ▸ hread, hsystem.trans hcoordSystem, fun hempty => (hm.command (.inr (hnone hempty))).trans (hnone hempty)⟩
  · rw [hxyz, hdata]
    exact h.target

theorem checkMotion_meets (modes : Modes) (hp : Prepared b p₀ p) (hc : FromBlock b c) :
    (checkMotion modes c p).Meets (Prepared b p₀) fun c' p' => p'.nvs = p.nvs ∧ Moved c c' ∧
      (c.block.axisWords = ∅ → c.block.modal.motion = .seek ∨ c.block.modal.motion = .linear → c'.block.axisCommand ≠ .motionMode) := by
  have hretract : Keeps c (if c.block.modal.cannedCycleActive then c else { c with block.modal.retractMode := .previous }) := by
    split
    · exact .refl c
    · exact ⟨rfl⟩
  have hcommand : c.block.axisCommand = .motionMode → ∀ c₁, Keeps c c₁ →
      Moved c { c₁ with block.axisCommand := if c.block.axisWords = ∅ then .none else c.block.axisCommand } := by
    intro hmotion c₁ hkeeps
    refine ⟨⟨?_⟩, ?_, ?_⟩
    · rw [hkeeps.rest]
    · rintro (hne | hnone)
      · exact if_neg hne
      · exact nomatch hmotion.symm.trans hnone
    · dsimp only
      split
      · exact .inr rfl
      · exact .inl rfl
  have hstill : ∀ c₁ : Checked, c.block.axisWords = ∅ →
      ({ c₁ with block.axisCommand := if c.block.axisWords = ∅ then AxisCommand.none else c.block.axisCommand } : Checked).block.axisCommand
        ≠ .motionMode := by
    intro c₁ hempty
    dsimp only
    rw [if_pos hempty]
    exact nofun
  have hblock : ∀ c₁, Keeps c c₁ → (c₁.block.KeepsCycles ↔ b.KeepsCycles) := by
    intro c₁ hkeeps
    unfold Block.KeepsCycles
    rw [hkeeps.rest]
    dsimp only
    rw [hc.rest]
  have hcycles : ∀ c₁, Keeps c c₁ →
      Prepared b p₀ (if c₁.block.KeepsCycles then { p with cycles := modes.checkedCycles c₁ p } else p) ∧
        (if c₁.block.KeepsCycles then { p with cycles := modes.checkedCycles c₁ p } else p).nvs = p.nvs := by
    intro c₁ hkeeps
    split
    · next h => exact ⟨hp.keepCycles ((hblock c₁ hkeeps).1 h) _, rfl⟩
    · exact ⟨hp, rfl⟩
  unfold checkMotion
  dsimp only
  generalize (if c.block.modal.cannedCycleActive then c else { c with block.modal.retractMode := .previous }) = c₁ at hretract ⊢
  obtain ⟨hq, hnvs⟩ := hcycles c₁ hretract
  generalize (if c₁.block.KeepsCycles then { p with cycles := modes.checkedCycles c₁ p } else p) = q at hq hnvs ⊢
  by_cases hnone : c.block.modal.motion = .none
  · rw [if_pos hnone]
    split
    · exact hp
    · exact ⟨hp, rfl, Keeps.moved ⟨rfl⟩, fun _ hm => by simp [hnone] at hm⟩
  · rw [if_neg hnone]
    by_cases hmotion : c.block.axisCommand = .motionMode
    · rw [if_pos hmotion]
      cases hmode : c.block.modal.motion with
      | seek => exact ⟨hp, rfl, hcommand hmotion c (.refl c), fun hempty _ => hstill c hempty⟩
      | linear =>
          dsimp only
          split
          · exact hq
          · rw [if_pos rfl]
            split
            · exact hq
            · exact ⟨hq, hnvs, hcommand hmotion c₁ hretract, fun hempty _ => hstill c₁ hempty⟩
      | _ =>
          dsimp only
          split
          · exact hq
          · exact ⟨hq, hnvs, (hretract.trans (.drop c₁ _)).moved, fun _ h => by simp at h⟩
    · rw [if_neg hmotion]
      exact ⟨hp, rfl, (Keeps.refl c).moved, fun _ _ => hmotion⟩

theorem checkUnused_meets (hp : Prepared b p₀ p) :
    (checkUnused c p).Meets (Prepared b p₀) fun c' p' => p' = p ∧ Keeps c c' := by
  unfold checkUnused
  dsimp only
  split_ifs
  · exact hp
  · exact ⟨hp, rfl, .drop c _⟩
  · exact hp
  · exact ⟨hp, rfl, .drop c _⟩

/-- What step 3 leaves: what it may write in any case, and the block when it is accepted. -/
theorem checkBlock_meets (settings : Settings) (modes : Modes) (b : Block) (p₀ : Parser) :
    (checkBlock settings modes b p₀).Meets (Prepared b p₀) fun c p =>
      Located settings b p₀ c p ∧
        (b.axisWords = ∅ → b.modal.motion = .seek ∨ b.modal.motion = .linear → c.block.axisCommand ≠ .motionMode) := by
  unfold checkBlock
  have hstart : (checkH (implicitMotion (.start b p₀)) p₀).Meets (Prepared b p₀) fun c _ => Stage b p₀ (Checked.start b p₀).xyz c :=
    Outcome.Meets.weaken (checkH_meets (Prepared.refl b p₀)) fun c _ h => h ▸ start_stage b p₀
  refine Outcome.Meets.bind hstart fun c p hp hc => ?_
  refine Outcome.Meets.bind (checkFeedRate_meets hp hc.fromBlock) fun c₁ p hp hkeeps => ?_
  replace hc := hkeeps.stage hc
  refine Outcome.Meets.bind (checkDwell_meets hp) fun c₂ p hp hkeeps => ?_
  replace hc := convertUnits_stage settings (hkeeps.stage hc)
  refine Outcome.Meets.bind (checkScaling_meets hp hc.command) fun c₃ p hp hkeeps => ?_
  replace hc := scaleWords_stage settings hp (hkeeps.stage hc)
  refine Outcome.Meets.bind (checkToolOffset_meets settings hp) fun c₄ p hp hkeeps => ?_
  replace hc := hkeeps.stage hc
  refine Outcome.Meets.bind (selectCoordSystem_meets hp hc) fun c₅ p hp ⟨hselected, hcommand, haxes⟩ => ?_
  refine Outcome.Meets.bind (checkNonModal_meets settings hp hselected hcommand haxes) fun c₆ p hp hlocated => ?_
  have haxisWords : c₆.block.axisWords = b.axisWords := by rw [hlocated.selected.fromBlock.rest]
  have hmotion : c₆.block.modal.motion = b.modal.motion := by rw [hlocated.selected.fromBlock.rest]
  refine Outcome.Meets.bind (checkMotion_meets modes hp hlocated.selected.fromBlock) fun c₇ p' hp' ⟨hnvs, hmoved, hstill⟩ => ?_
  refine Outcome.Meets.weaken (checkUnused_meets hp') fun c₈ p'' ⟨heq, hkeeps⟩ => ?_
  subst heq
  refine ⟨(hlocated.moved hmoved hnvs).moved hkeeps.moved rfl, fun hempty hmode => ?_⟩
  rw [hkeeps.command]
  exact hstill (haxisWords.trans hempty) (hmotion ▸ hmode)

end

end Grbl.GCode
