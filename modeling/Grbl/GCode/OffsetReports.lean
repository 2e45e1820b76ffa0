import Grbl.GCode.WorkPosition
import Grbl.Lib.Turns

/-!
# The offset of the block being executed

A planned block knows the entry of `offset_queue` that was the last one when it was planned, and reports use that entry while it is
executed, unless both flags for reports that are synced with the offsets are set, as they are by default.

* `Parser.reportedOffset` : `gc_get_offset`; `Parser.offsets` : the queue;
* `executeBlock_offsets` : a block writes the next entry, or none;
* `reported_while_executing` : the entry of a block after later ones;
* `reported_when_planned` : the entry of a block when it is planned, in any run.
-/

namespace Grbl.GCode
open Function Numbers Lib

/-- The reports have the offsets that are in effect. -/
def Settings.reportsCurrent (settings : Settings) : Bool := settings.machinePosition && settings.syncOnWcoChange

/-- `gc_get_offset` with `real_time`: the entry is the one of the block being executed, if any. -/
def Parser.reportedOffset (settings : Settings) (p : Parser) (offsetId : Option (Fin 4)) : Coord := fun i =>
  match if settings.reportsCurrent then none else offsetId with
  | some id => p.g5xData i + p.offsetQueue id i + p.toolLengthOffset i
  | none => p.g5xData i + p.g92 i + p.toolLengthOffset i

/-- `offset_id` and `offset_queue` -/
def Parser.offsets (p : Parser) : Turns 4 Coord := ⟨p.offsetId, p.offsetQueue⟩

section
variable {settings : Settings} {modes : Modes} {mode : Mode} {b : Block} {p p' p'' : Parser} {c : Checked}

theorem reportedOffset_current (h : settings.reportsCurrent = true) (offsetId : Option (Fin 4)) :
    p.reportedOffset settings offsetId = p.offset := by
  unfold Parser.reportedOffset Parser.offset
  rw [if_pos h]

theorem reportedOffset_entry (h : settings.reportsCurrent = false) (id : Fin 4) (i : Axis) :
    p.reportedOffset settings (some id) i = p.g5xData i + p.offsetQueue id i + p.toolLengthOffset i := by
  unfold Parser.reportedOffset
  rw [if_neg (h ▸ Bool.false_ne_true)]

/-- The G92 offset is the same, and so is the queue. -/
structure SameOffsets (p p' : Parser) : Prop where
  offsets : p'.offsets = p.offsets
  g92 : p'.g92 = p.g92

/-- The G92 offset is another one, and it is the next entry. -/
structure NewOffset (p p' : Parser) : Prop where
  offsets : p'.offsets = p.offsets.write p'.g92

theorem SameOffsets.trans (h : SameOffsets p p') (h' : SameOffsets p' p'') : SameOffsets p p'' :=
  ⟨h'.offsets.trans h.offsets, h'.g92.trans h.g92⟩

theorem NewOffset.then (h : NewOffset p p') (h' : SameOffsets p' p'') : NewOffset p p'' := by
  constructor
  rw [h'.offsets, h.offsets, h'.g92]

theorem SameOffsets.then (h : SameOffsets p p') (h' : NewOffset p' p'') : NewOffset p p'' := by
  constructor
  rw [h'.offsets, h.offsets]

theorem read_sameOffsets (p : Parser) (id : CoordId) : SameOffsets p (p.readCoordData id).2.2 := by
  unfold Parser.readCoordData
  split <;> exact ⟨rfl, rfl⟩

theorem Prepared.sameOffsets (h : Prepared b p p') : SameOffsets p p' := by
  rw [h.rest]
  exact ⟨rfl, rfl⟩

theorem modal_sameOffsets (c : Checked) (p : Parser) : SameOffsets p (executeModal c p) := by
  rw [executeModal_rest]
  exact ⟨rfl, rfl⟩

theorem setG92_newOffset (offset : Coord) (p : Parser) : NewOffset p (setG92 offset p) := ⟨rfl⟩

theorem nonModal_offsets (settings : Settings) (c : Checked) (offsetId : Fin 4) (p : Parser) :
    SameOffsets p (executeNonModal settings c offsetId p).2 ∨ NewOffset p (executeNonModal settings c offsetId p).2 := by
  unfold executeNonModal
  cases c.block.nonModalCommand with
  | settings =>
      left
      dsimp only
      split
      · dsimp only
        split <;> exact ⟨rfl, rfl⟩
      · exact ⟨rfl, rfl⟩
  | setCoordinateOffset | resetCoordinateOffset =>
      right
      dsimp only
      split <;> exact ⟨rfl⟩
  | clearCoordinateOffset => exact .inr ⟨rfl⟩
  | restoreCoordinateOffset => exact .inr ((read_sameOffsets p .g92).then (setG92_newOffset _ _))
  | _ => exact .inl ⟨rfl, rfl⟩

theorem motion_sameOffsets (c : Checked) (offsetId : Fin 4) (p : Parser) : SameOffsets p (executeMotion modes c offsetId p).2.state := by
  unfold executeMotion
  dsimp only
  split
  · split
    · exact ⟨rfl, rfl⟩
    · exact ⟨rfl, rfl⟩
    · split <;> exact ⟨rfl, rfl⟩
  · exact ⟨rfl, rfl⟩

theorem programEnd_sameOffsets (settings : Settings) (checkMode : Bool) (p : Parser) :
    SameOffsets p (programEnd settings checkMode p).state := by
  have hread : ∀ (p : Parser) (id : CoordId), (p.readCoordData id).2.2.offsets = p.offsets := fun p id => (read_sameOffsets p id).offsets
  have hg92 : ∀ (p : Parser) (id : CoordId), (p.readCoordData id).2.2.g92 = p.g92 := fun p id => (read_sameOffsets p id).g92
  unfold programEnd
  dsimp only
  split
  · exact ⟨rfl, rfl⟩
  · split
    · exact ⟨hread .., hg92 ..⟩
    · split
      · exact ⟨hread .., hg92 ..⟩
      · dsimp only [Outcome.state]
        split
        · exact ⟨(hread ..).trans (hread ..), (hg92 ..).trans (hg92 ..)⟩
        · exact ⟨(hread ..).trans (hread ..), (hg92 ..).trans (hg92 ..)⟩

theorem programFlow_sameOffsets (settings : Settings) (mode : Mode) (flow : ProgramFlow) (p : Parser) :
    SameOffsets p (programFlow settings mode flow p).state := by
  unfold programFlow
  split
  · have hsame := programEnd_sameOffsets settings mode.checkMode { p with modal.programFlow := flow }
    generalize programEnd settings mode.checkMode { p with modal.programFlow := flow } = r at hsame
    cases r <;> exact ⟨hsame.offsets, hsame.g92⟩
  · exact ⟨rfl, rfl⟩

theorem executeBlock_offsets (settings : Settings) (modes : Modes) (mode : Mode) (b : Block) (p : Parser) :
    SameOffsets p (executeBlock settings modes mode b p).2.state ∨ NewOffset p (executeBlock settings modes mode b p).2.state := by
  have hchecks := checkBlock_meets settings modes b p
  unfold executeBlock
  cases hcheck : checkBlock settings modes b p with
  | error s q =>
      rw [hcheck] at hchecks
      exact .inl (Prepared.sameOffsets hchecks)
  | ok c q =>
      rw [hcheck] at hchecks
      have hmodal := (Prepared.sameOffsets hchecks.1).trans (modal_sameOffsets c q)
      dsimp only
      have hrest : ∀ q' : Parser, SameOffsets q'
          ((executeMotion modes c q.offsetId q').2.bind fun _ p => programFlow settings mode c.block.modal.programFlow p).state :=
        fun q' => Outcome.state_bind (motion_sameOffsets c _ q') fun _ _ h => h.trans (programFlow_sameOffsets ..)
      rcases nonModal_offsets settings c q.offsetId (executeModal c q) with hsame | hnew
      · exact .inl ((hmodal.trans hsame).trans (hrest _))
      · exact .inr ((hmodal.then hnew).then (hrest _))

/-! ## While a block is executed -/

/-- The G92 offsets that the blocks set, one after the other. -/
def newOffsets (settings : Settings) (modes : Modes) : List (Mode × Block) → Parser → List Coord
  | [], _ => []
  | (mode, b) :: blocks, p =>
      let p' := (executeBlock settings modes mode b p).2.state
      (if p'.offsetId = p.offsetId then [] else [p'.g92]) ++ newOffsets settings modes blocks p'

theorem runBlocks_offsets (settings : Settings) (modes : Modes) (blocks : List (Mode × Block)) (p : Parser) :
    (runBlocks settings modes blocks p).2.offsets = (newOffsets settings modes blocks p).foldl Turns.write p.offsets := by
  induction blocks generalizing p with
  | nil => rfl
  | cons block blocks ih =>
      obtain ⟨mode, b⟩ := block
      dsimp only [runBlocks, newOffsets]
      rw [ih, List.foldl_append]
      congr 1
      rcases executeBlock_offsets settings modes mode b p with hsame | hnew
      · have hid : (executeBlock settings modes mode b p).2.state.offsetId = p.offsetId := congrArg Turns.last hsame.offsets
        rw [if_pos hid]
        exact hsame.offsets
      · have hid : (executeBlock settings modes mode b p).2.state.offsetId = p.offsetId + 1 := congrArg Turns.last hnew.offsets
        have hne : (executeBlock settings modes mode b p).2.state.offsetId ≠ p.offsetId := by
          rw [hid]
          omega
        rw [if_neg hne]
        exact hnew.offsets

/-- A block is planned, and other blocks are executed by the parser while it waits and moves. As long as they set fewer than four G92
offsets, its entry is what it was, so that the reported offset is the one it has been planned with exactly when the coordinate system and the
tool length offset make the same sum; from the fourth one on, its entry is that of a later block. With both flags the offsets of the parser
are reported. -/
theorem reported_while_executing (settings : Settings) (modes : Modes) (blocks : List (Mode × Block)) (p : Parser)
    (hp : p.reportedOffset settings (some p.offsetId) = p.offset) :
    let p' := (runBlocks settings modes blocks p).2
    let offsets := newOffsets settings modes blocks p
    if settings.reportsCurrent then p'.reportedOffset settings (some p.offsetId) = p'.offset
    else
      (offsets.length < 4 → ∀ i, p'.reportedOffset settings (some p.offsetId) i = p.offset i ↔
        p'.g5xData i + p'.toolLengthOffset i = p.g5xData i + p.toolLengthOffset i) ∧
      (4 ≤ offsets.length → ∃ offset, offsets[4 * (offsets.length / 4) - 1]? = some offset ∧
        ∀ i, p'.reportedOffset settings (some p.offsetId) i = p'.g5xData i + offset i + p'.toolLengthOffset i) := by
  have hqueue := runBlocks_offsets settings modes blocks p
  dsimp only
  generalize (runBlocks settings modes blocks p).2 = p' at hqueue ⊢
  generalize newOffsets settings modes blocks p = offsets at hqueue ⊢
  have hentry : p'.offsetQueue p.offsetId =
      if offsets.length < 4 then p.offsetQueue p.offsetId else offsets.getD (4 * (offsets.length / 4) - 1) (p.offsetQueue p.offsetId) :=
    (congrFun (congrArg Turns.entries hqueue) p.offsetId).trans (Turns.writes_entry p.offsets offsets)
  split
  · next hcurrent => exact reportedOffset_current hcurrent _
  · next hnot =>
      have hcurrent : settings.reportsCurrent = false := Bool.eq_false_of_not_eq_true hnot
      refine ⟨fun hshort i => ?_, fun hlong => ?_⟩
      · have hi := congrFun hp i
        rw [reportedOffset_entry hcurrent] at hi ⊢
        rw [hentry, if_pos hshort]
        dsimp only [Parser.offset] at hi ⊢
        constructor <;> intro h <;> linarith
      · have hlt : 4 * (offsets.length / 4) - 1 < offsets.length := by omega
        refine ⟨offsets[4 * (offsets.length / 4) - 1], List.getElem?_eq_getElem hlt, fun i => ?_⟩
        rw [reportedOffset_entry hcurrent, hentry, if_neg (Nat.not_lt.2 hlong), List.getD_eq_getElem _ _ hlt]

/-! ## When a block is planned -/

/-- The last entry is the G92 offset. -/
def Synced (p : Parser) : Prop := p.offsetQueue p.offsetId = p.g92

theorem synced_iff (h : settings.reportsCurrent = false) (p : Parser) : Synced p ↔ p.reportedOffset settings (some p.offsetId) = p.offset := by
  unfold Synced
  constructor
  · intro hp
    funext i
    rw [reportedOffset_entry h, hp]
    rfl
  · intro hp
    funext i
    have hi := congrFun hp i
    rw [reportedOffset_entry h] at hi
    dsimp only [Parser.offset] at hi
    linarith

theorem SameOffsets.synced (h : SameOffsets p p') (hp : Synced p) : Synced p' := by
  have hid : p'.offsetId = p.offsetId := congrArg Turns.last h.offsets
  have hqueue : p'.offsetQueue = p.offsetQueue := congrArg Turns.entries h.offsets
  unfold Synced
  rw [hid, hqueue, h.g92]
  exact hp

theorem NewOffset.synced (h : NewOffset p p') : Synced p' := by
  have hid : p'.offsetId = p.offsetId + 1 := congrArg Turns.last h.offsets
  have hqueue : p'.offsetQueue = update p.offsetQueue (p.offsetId + 1) p'.g92 := congrArg Turns.entries h.offsets
  unfold Synced
  rw [hid, hqueue, update_self]

theorem cleared_offsets (settings : Settings) (coldStart stop : Bool) (p : Parser) :
    (p.cleared settings coldStart stop).offsets = ⟨0, fun _ => 0⟩ ∧
      (p.cleared settings coldStart stop).g92 = if coldStart then 0 else p.g92 := by
  unfold Parser.cleared
  cases coldStart <;> exact ⟨rfl, rfl⟩

theorem gcInit_synced_iff (settings : Settings) (coldStart stop : Bool) (p : Parser) :
    Synced (p.gcInit settings coldStart stop) ↔ coldStart = true ∨ p.g92 = 0 := by
  obtain ⟨hcleared, hg92⟩ := cleared_offsets settings coldStart stop p
  unfold Parser.gcInit
  generalize hq : (p.cleared settings coldStart stop).setScaling 1 = q
  have hq92 : q.g92 = if coldStart then 0 else p.g92 := by
    rw [← hq]
    exact hg92
  have hqOffsets : q.offsets = ⟨0, fun _ => 0⟩ := by
    rw [← hq]
    exact hcleared
  have hread := read_sameOffsets q (.work q.modal.g5xOffset)
  have hrId : (q.readCoordData (.work q.modal.g5xOffset)).2.2.offsetId = 0 := congrArg Turns.last (hread.offsets.trans hqOffsets)
  have hrQueue : (q.readCoordData (.work q.modal.g5xOffset)).2.2.offsetQueue = fun _ => 0 :=
    congrArg Turns.entries (hread.offsets.trans hqOffsets)
  have hr92 := hread.g92.trans hq92
  unfold Synced
  dsimp only
  generalize q.readCoordData (.work q.modal.g5xOffset) = r at hrId hrQueue hr92 ⊢
  obtain ⟨ok, data, r⟩ := r
  dsimp only at hrId hrQueue hr92 ⊢
  cases coldStart with
  | false =>
      rw [if_neg (by simp)]
      dsimp only
      rw [hrQueue, hr92]
      simp [eq_comm]
  | true =>
      simp only [true_and, true_or, iff_true]
      split
      · dsimp only
        unfold Parser.readCoordData
        dsimp only
        cases hnvs : r.nvs .g92 with
        | some data => exact update_self ..
        | none => exact congrFun hrQueue _
      · dsimp only
        rw [hrQueue, hr92]
        rfl

/-- The G92 offset is zero when it is cleared besides a block, or kept in a reset that is not a cold start. -/
def Event.KeepsOffset (p : Parser) : Event → Prop
  | .reset coldStart _ => coldStart = true ∨ p.g92 = 0
  | .clearOffset id => id = .g92 → p.g92 = 0
  | .block .. | .sync _ => True

theorem clearOffset_synced_iff (settings : Settings) (id : CoordId) (hp : Synced p) :
    Synced (p.clearOffset settings id) ↔ (id = .g92 → p.g92 = 0) := by
  unfold Parser.clearOffset
  split
  · next h =>
      have hcleared : p.offsetQueue p.offsetId = 0 ↔ p.g92 = 0 := by rw [hp]
      dsimp only
      split <;> simpa [h, Synced, Parser.writeCoordData] using hcleared
  · next h =>
      refine iff_of_true ?_ fun h' => absurd h' h
      split
      · exact hp
      · exact hp

theorem step_synced_iff (e : Event) (hp : Synced p) (hstep : step settings modes p e = some p') : Synced p' ↔ e.KeepsOffset p := by
  cases e with
  | block mode b =>
      cases hstep
      refine iff_of_true ?_ trivial
      rcases executeBlock_offsets settings modes mode b p with hsame | hnew
      · exact hsame.synced hp
      · exact hnew.synced
  | reset coldStart stop =>
      cases hstep
      exact gcInit_synced_iff settings coldStart stop p
  | clearOffset id =>
      cases hstep
      exact clearOffset_synced_iff settings id hp
  | sync position =>
      cases hstep
      exact iff_of_true hp trivial

end

/-- A block is planned, then `G92 X5` and `G0 X5`. -/
theorem reported_while_executing_seekX5 :
    (newOffsets { syncOnWcoChange := false } linesOnly [({}, setX5), ({}, seekX5)] {}).length < 4 ∧
      (runBlocks { syncOnWcoChange := false } linesOnly [({}, setX5), ({}, seekX5)] {}).2.reportedOffset
        { syncOnWcoChange := false } (some 0) .x = ({} : Parser).offset .x := by
  have hshort : (newOffsets { syncOnWcoChange := false } linesOnly [({}, setX5), ({}, seekX5)] {}).length < 4 := by decide +kernel
  have hreport := reported_while_executing { syncOnWcoChange := false } linesOnly [({}, setX5), ({}, seekX5)] {} rfl
  exact ⟨hshort, (hreport.1 hshort .x).2 (by decide +kernel)⟩

end Grbl.GCode
