import Grbl.Lib.Simulation
import Grbl.Ngc.Program

/-!
# Lines of a macro file

* `readLine_cmd`, `readLine_block` : what a line does at the position where reading is;
* `Passive`, `skip_lines` : the lines that do nothing while the entry on top of the stack skips;
* `Prog.passive` : all lines of a construct are passive for the constructs around it;
* `cmdIf_host`, … : the commands, when they are acted upon.
-/

namespace Grbl.Ngc

variable {β P φ : Type} [DecidableEq φ]

/-! ## Positions -/

/-- The same state at another position. -/
def Flow.goTo (s : Flow (MacroWorld β P) φ) (pos : ℕ) : Flow (MacroWorld β P) φ :=
  { s with world := { s.world with pos := pos } }

/-- An expression has been evaluated. -/
def Flow.saw (s : Flow (MacroWorld β P) φ) (text : List Char) : Flow (MacroWorld β P) φ :=
  { s with world := { s.world with log := s.world.log ++ [.cond text] } }

section
variable {I : Interp β P} {file : φ} {source rest : List (Line β)} {s : Reading β P φ}

omit [DecidableEq φ] in
theorem getElem?_of_drop {line : Line β} {pos : ℕ} (h : source.drop pos = line :: rest) :
    source[pos]? = some line ∧ source.drop (pos + 1) = rest := by
  constructor
  · rw [← List.head?_drop, h]
    rfl
  · rw [← List.drop_drop, h]
    rfl

theorem readLine_cmd {oLabel : ℕ} {operation : FlowCmd} {text : List Char} {flow : Flow (MacroWorld β P) φ}
    (hline : source.drop s.flow.world.pos = .cmd oLabel operation text :: rest)
    (hno : operation ≠ .noOp) (helse : operation = .else → text = [])
    (hcmd : command (I.host file) operation ⟨oLabel, s.flow.world.pos + 1, text⟩
      (s.flow.goTo (s.flow.world.pos + 1)) = some (none, flow)) :
    readLine I file source s = some ⟨flow, flow.skipping⟩ := by
  have hget : source[s.flow.world.pos]? = some (.oWord oLabel (operation.word ++ text)) :=
    (getElem?_of_drop hline).1
  have hread : readKeyword flowCmds (operation.word ++ text) = some (operation, text) :=
    readKeyword_word hno helse
  have hflow : ngcFlowctrl (I.host file) ⟨oLabel, s.flow.world.pos + 1, operation.word ++ text⟩
      (s.flow.goTo (s.flow.world.pos + 1)) = some (⟨none, some flow.skipping⟩, flow) := by
    simp only [ngcFlowctrl, hread, hcmd, Option.map_some]
  rw [readLine]
  simp only [hget]
  rw [show ({ s.flow with world := { s.flow.world with pos := s.flow.world.pos + 1 } } :
    Flow (MacroWorld β P) φ) = s.flow.goTo (s.flow.world.pos + 1) from rfl, hflow]
  rfl

theorem readLine_block {b : β} (hline : source.drop s.flow.world.pos = .block b :: rest) (hskip : s.skip = false) :
    readLine I file source s = some { s with flow := { s.flow with
      world := ⟨s.flow.world.pos + 1, I.exec b s.flow.world.params, s.flow.world.log ++ [.block b]⟩ } } := by
  rw [readLine, (getElem?_of_drop hline).1]
  simp [hskip]

theorem readLine_block_skip {b : β} (hline : source.drop s.flow.world.pos = .block b :: rest)
    (hskip : s.skip = true) :
    readLine I file source s = some { s with flow := s.flow.goTo (s.flow.world.pos + 1) } := by
  rw [readLine, (getElem?_of_drop hline).1]
  simp [hskip, Flow.goTo]

end

/-! ## Passive lines -/

/-- The command does nothing while an entry with the label `x` skips. -/
def FlowCmd.Passive (operation : FlowCmd) (oLabel x : ℕ) : Prop :=
  match operation with
  | .if | .do | .repeat | .break | .continue => True
  | .elseIf | .else | .endIf | .while | .endWhile | .endRepeat => oLabel ≠ x
  | _ => False

def Line.Passive (x : ℕ) : Line β → Prop
  | .block _ => True
  | .oWord oLabel text =>
      ∃ (operation : FlowCmd) (rest : List Char), text = operation.word ++ rest ∧ (operation = .else → rest = []) ∧
        operation.Passive oLabel x

theorem FlowCmd.Passive.ne_noOp {operation : FlowCmd} {oLabel x : ℕ} (h : operation.Passive oLabel x) :
    operation ≠ .noOp := by
  rintro rfl
  exact h

omit [DecidableEq φ] in
theorem Line.passive_cmd {operation : FlowCmd} {oLabel x : ℕ} {text : List Char}
    (h : operation.Passive oLabel x) (helse : operation = .else → text = []) :
    (Line.cmd oLabel operation text : Line β).Passive x := ⟨operation, text, rfl, helse, h⟩

mutual

theorem Prog.passive {x room : ℕ} {avoid : List ℕ} (hx : x ∈ avoid) :
    ∀ (p : Prog β), p.Nested avoid room → ∀ line ∈ p.lines, line.Passive x
  | .nil, _ => by simp [Prog.lines]
  | .block b next, hn => by
      rw [Prog.lines, List.forall_mem_cons]
      exact ⟨trivial, next.passive hx hn⟩
  | .ifThen l cond body alts next, ⟨⟨hl, _⟩, ⟨hbody, halts⟩, hnext⟩ => by
      have hne : l ≠ x := fun h => hl (h ▸ hx)
      rw [Prog.lines, List.forall_mem_cons, List.forall_mem_append, List.forall_mem_append]
      exact ⟨Line.passive_cmd trivial nofun, body.passive (List.mem_cons_of_mem _ hx) hbody,
        alts.passive (List.mem_cons_of_mem _ hx) hne halts, next.passive hx hnext⟩
  | .whileDo l cond body next, ⟨⟨hl, _⟩, hbody, hnext⟩ => by
      have hne : l ≠ x := fun h => hl (h ▸ hx)
      rw [Prog.lines, List.forall_mem_cons, List.forall_mem_append, List.forall_mem_cons]
      exact ⟨Line.passive_cmd hne nofun, body.passive (List.mem_cons_of_mem _ hx) hbody,
        Line.passive_cmd hne nofun, next.passive hx hnext⟩
  | .doWhile l body cond next, ⟨⟨hl, _⟩, hbody, hnext⟩ => by
      have hne : l ≠ x := fun h => hl (h ▸ hx)
      rw [Prog.lines, List.forall_mem_cons, List.forall_mem_append, List.forall_mem_cons]
      exact ⟨Line.passive_cmd trivial nofun, body.passive (List.mem_cons_of_mem _ hx) hbody,
        Line.passive_cmd hne nofun, next.passive hx hnext⟩
  | .repeatDo l count body next, ⟨⟨hl, _⟩, hbody, hnext⟩ => by
      have hne : l ≠ x := fun h => hl (h ▸ hx)
      rw [Prog.lines, List.forall_mem_cons, List.forall_mem_append, List.forall_mem_cons]
      exact ⟨Line.passive_cmd trivial nofun, body.passive (List.mem_cons_of_mem _ hx) hbody,
        Line.passive_cmd hne nofun, next.passive hx hnext⟩
  | .breakOut l next, hn => by
      rw [Prog.lines, List.forall_mem_cons]
      exact ⟨Line.passive_cmd trivial nofun, next.passive hx hn⟩
  | .continueAt l next, hn => by
      rw [Prog.lines, List.forall_mem_cons]
      exact ⟨Line.passive_cmd trivial nofun, next.passive hx hn⟩

theorem Alts.passive {x room l : ℕ} {avoid : List ℕ} (hx : x ∈ avoid) (hne : l ≠ x) :
    ∀ (alts : Alts β), alts.Nested avoid room → ∀ line ∈ alts.lines l, line.Passive x
  | .endIf, _ => by
      rw [Alts.lines, List.forall_mem_singleton]
      exact Line.passive_cmd hne nofun
  | .orElse body, hbody => by
      rw [Alts.lines, List.forall_mem_cons, List.forall_mem_append, List.forall_mem_singleton]
      exact ⟨Line.passive_cmd hne fun _ => rfl, body.passive hx hbody, Line.passive_cmd hne nofun⟩
  | .elseIf cond body alts, ⟨hbody, halts⟩ => by
      rw [Alts.lines, List.forall_mem_cons, List.forall_mem_append]
      exact ⟨Line.passive_cmd hne nofun, body.passive hx hbody, alts.passive hx hne halts⟩

end

section
variable {σ : Type} {h : FlowHost σ φ} {s : Flow σ φ} {top : Entry φ} {below : List (Entry φ)} {l : OLine}

omit [DecidableEq φ] in
theorem skipping_of_top (hst : s.stack = top :: below) (hskip : top.skip = true) : s.skipping = true := by
  simp [Flow.skipping, hst, hskip]

omit [DecidableEq φ] in
theorem lastOp_of_top (hst : s.stack = top :: below) : s.lastOp = top.operation := by
  rw [Flow.lastOp, hst]

omit [DecidableEq φ] in
theorem withTop_of_top {f : Entry φ → Outcome σ φ} (hst : s.stack = top :: below) : s.withTop f = f top := by
  rw [Flow.withTop, hst]

theorem command_passive {operation : FlowCmd} (hfile : (h.streamFile s.world).isSome)
    (hst : s.stack = top :: below) (hskip : top.skip = true) (hp : operation.Passive l.oLabel top.oLabel) :
    command h operation l s = some (none, s) := by
  have hskipping := skipping_of_top hst hskip
  obtain ⟨file, hfile⟩ := Option.isSome_iff_exists.1 hfile
  have hwith : ∀ f : φ → Outcome σ φ, s.withFile h f = f file := fun f => by rw [Flow.withFile, hfile]
  cases operation with
  | «if» => simp [command, cmdIf, hskipping, Flow.ok]
  | «do» => simp [command, cmdDo, hwith, hskipping, Flow.ok]
  | «repeat» => simp [command, cmdRepeat, hwith, hskipping, Flow.ok]
  | «break» => simp [command, cmdBreak, hwith, hskipping, Flow.ok]
  | «continue» => simp [command, cmdContinue, hwith, hskipping, Flow.ok]
  | elseIf =>
      have hne : l.oLabel ≠ top.oLabel := hp
      simp [command, cmdElseIf, withTop_of_top hst, hne, hskipping, Flow.ok]
  | «else» =>
      have hne : l.oLabel ≠ top.oLabel := hp
      simp [command, cmdElse, withTop_of_top hst, hne, hskipping, Flow.ok]
  | endIf =>
      have hne : l.oLabel ≠ top.oLabel := hp
      simp [command, cmdEndIf, withTop_of_top hst, hne, hskipping, Flow.ok]
  | «while» =>
      have hne : l.oLabel ≠ top.oLabel := hp
      simp [command, cmdWhile, hwith, withTop_of_top hst, hne, hskipping, Flow.ok]
  | endWhile =>
      have hne : l.oLabel ≠ top.oLabel := hp
      simp [command, cmdEndWhile, hwith, withTop_of_top hst, hne, hskipping, Flow.ok]
  | endRepeat =>
      have hne : l.oLabel ≠ top.oLabel := hp
      simp [command, cmdEndRepeat, hwith, withTop_of_top hst, hne, hskipping, Flow.ok]
  | _ => exact absurd hp id

end

section
variable {I : Interp β P} {file : φ} {source rest : List (Line β)} {s : Reading β P φ} {top : Entry φ}
  {below : List (Entry φ)}

theorem skip_lines {lines : List (Line β)} (hst : s.flow.stack = top :: below) (htop : top.skip = true)
    (hskip : s.skip = true) (hpassive : ∀ line ∈ lines, line.Passive top.oLabel)
    (hlines : source.drop s.flow.world.pos = lines ++ rest) :
    ∃ pos, Lib.steps (readLine I file source) lines.length s = some ⟨s.flow.goTo pos, true⟩ ∧
      source.drop pos = rest := by
  induction lines generalizing s with
  | nil =>
      refine ⟨s.flow.world.pos, ?_, hlines⟩
      rw [List.length_nil, Lib.steps_zero, ← hskip]
      rfl
  | cons line lines ih =>
      obtain ⟨hline, hpassive⟩ := List.forall_mem_cons.1 hpassive
      rw [List.cons_append] at hlines
      have hstep : readLine I file source s = some ⟨s.flow.goTo (s.flow.world.pos + 1), true⟩ := by
        cases line with
        | block b => rw [readLine_block_skip hlines hskip, hskip]
        | oWord oLabel text =>
            obtain ⟨operation, text, rfl, helse, hp⟩ := hline
            have hcmd := command_passive (h := I.host file) (s := s.flow.goTo (s.flow.world.pos + 1))
              (l := ⟨oLabel, s.flow.world.pos + 1, text⟩) rfl hst htop hp
            rw [readLine_cmd hlines hp.ne_noOp helse hcmd,
              skipping_of_top (s := s.flow.goTo (s.flow.world.pos + 1)) hst htop]
      obtain ⟨pos, hsteps, hpos⟩ := ih (s := ⟨s.flow.goTo (s.flow.world.pos + 1), true⟩) hst rfl hpassive
        (getElem?_of_drop hlines).2
      exact ⟨pos, by rw [List.length_cons, Lib.steps_succ_of_some hstep, hsteps]; rfl, hpos⟩

end

/-! ## Commands that are acted upon -/

/-- The entry `stack_push` makes. -/
def newEntry (file : φ) (s : Flow (MacroWorld β P) φ) (l : OLine) (operation : FlowCmd) : Entry φ :=
  { oLabel := l.oLabel, lineNumber := l.lineNumber, file := some file, operation := operation,
    sub := s.execSub }

section
variable {I : Interp β P} {file : φ} {s : Flow (MacroWorld β P) φ} {l : OLine} {top : Entry φ}
  {below : List (Entry φ)}

@[simp] theorem host_streamFile (world : MacroWorld β P) : (I.host file).streamFile world = some file := rfl

@[simp] theorem host_vfsTell (world : MacroWorld β P) : (I.host file).vfsTell file world = world.pos := rfl

@[simp] theorem withFile_host (f : φ → Outcome (MacroWorld β P) φ) : s.withFile (I.host file) f = f file := rfl

@[simp] theorem eval_host (text : List Char)
    (f : ℚ → List Char → Flow (MacroWorld β P) φ → Outcome (MacroWorld β P) φ) :
    s.eval (I.host file) text f = f (I.value text s.world.params) [] (s.saw text) := rfl

theorem push_host {operation : FlowCmd}
    {f : Entry φ → Flow (MacroWorld β P) φ → Outcome (MacroWorld β P) φ} (hcall : operation ≠ .call)
    (hroom : s.stack.length < ngcStackDepth) :
    s.push (I.host file) l operation f =
      f (newEntry file s l operation) { s with stack := newEntry file s l operation :: s.stack } := by
  simp [Flow.push, stackPush, pushContext, hcall, hroom, Flow.withTop, newEntry]

theorem cmdIf_host (hskip : s.skipping = false) (hroom : s.stack.length < ngcStackDepth) :
    command (I.host file) .if l s = some (none, { s.saw l.text with
      stack := { newEntry file s l .if with
        skip := decide (I.value l.text s.world.params = 0),
        handled := decide (I.value l.text s.world.params ≠ 0) } :: s.stack }) := by
  have hroom' : (s.saw l.text).stack.length < ngcStackDepth := hroom
  rw [command, cmdIf, hskip, if_neg Bool.false_ne_true, eval_host, push_host (by decide) hroom']
  rfl

theorem cmdElseIf_handled (hst : s.stack = top :: below) (hop : top.operation = .if ∨ top.operation = .elseIf)
    (hl : l.oLabel = top.oLabel) (hhandled : top.handled = true) :
    command (I.host file) .elseIf l s = some (none, { s with stack := { top with skip := true } :: below }) := by
  rw [command, cmdElseIf, lastOp_of_top hst, if_pos hop, withTop_of_top hst, if_pos hl, if_pos hhandled]
  simp [Flow.setTop, Flow.ok, hst]

theorem cmdElseIf_host (hst : s.stack = top :: below) (hop : top.operation = .if ∨ top.operation = .elseIf)
    (hl : l.oLabel = top.oLabel) (hhandled : top.handled = false) :
    command (I.host file) .elseIf l s = some (none, { s.saw l.text with
      stack :=
        if I.value l.text s.world.params = 0 then { top with skip := true } :: below
        else { top with skip := false, operation := .elseIf, handled := true } :: below }) := by
  rw [command, cmdElseIf, lastOp_of_top hst, if_pos hop, withTop_of_top hst, if_pos hl, hhandled,
    if_neg Bool.false_ne_true, eval_host]
  simp only [Flow.setTop, Flow.saw, Flow.ok, hst, List.tail_cons]
  split <;> simp

theorem cmdElse_handled (hst : s.stack = top :: below) (hop : top.operation = .if ∨ top.operation = .elseIf)
    (hl : l.oLabel = top.oLabel) (hhandled : top.handled = true) :
    command (I.host file) .else l s = some (none, { s with stack := { top with skip := true } :: below }) := by
  rw [command, cmdElse, lastOp_of_top hst, if_pos hop, withTop_of_top hst, if_pos hl, if_pos hhandled]
  simp [Flow.setTop, Flow.ok, hst]

theorem cmdElse_host (hst : s.stack = top :: below) (hop : top.operation = .if ∨ top.operation = .elseIf)
    (hl : l.oLabel = top.oLabel) (hhandled : top.handled = false) :
    command (I.host file) .else l s =
      some (none, { s with stack := { top with skip := false, operation := .else } :: below }) := by
  rw [command, cmdElse, lastOp_of_top hst, if_pos hop, withTop_of_top hst, if_pos hl, hhandled,
    if_neg Bool.false_ne_true]
  simp [Flow.setTop, Flow.ok, hst]

/-- No entry of a `CALL` is pulled. -/
theorem stackPull_host (hst : s.stack = top :: below) :
    stackPull (I.host file) s = { s with stack := below } := by
  rw [stackPull, hst]
  simp only [pulled]
  split <;> rfl

theorem cmdEndIf_host (hst : s.stack = top :: below)
    (hop : top.operation = .if ∨ top.operation = .elseIf ∨ top.operation = .else)
    (hl : l.oLabel = top.oLabel) :
    command (I.host file) .endIf l s = some (none, { s with stack := below }) := by
  rw [command, cmdEndIf, lastOp_of_top hst, if_pos hop, withTop_of_top hst, if_pos hl, stackPull_host hst]
  rfl

theorem cmdDo_host (hskip : s.skipping = false) (hroom : s.stack.length < ngcStackDepth) :
    command (I.host file) .do l s = some (none, { s with
      stack := { newEntry file s l .do with filePos := s.world.pos } :: s.stack }) := by
  rw [command, cmdDo, withFile_host, hskip, if_neg Bool.false_ne_true, push_host (by decide) hroom]
  rfl

/-- A `WHILE` that starts a loop. -/
theorem cmdWhile_host (hskip : s.skipping = false) (hbrk : s.stack.head?.any (·.brk) = false)
    (hdo : ∀ e ∈ s.stack.head?, e.operation = .do → l.oLabel ≠ e.oLabel)
    (hroom : s.stack.length < ngcStackDepth) :
    command (I.host file) .while l s = some (none, { s.saw l.text with
      stack :=
        if I.value l.text s.world.params = 0 then { newEntry file s l .while with skip := true } :: s.stack
        else { newEntry file s l .while with expr := some l.text, filePos := s.world.pos } :: s.stack }) := by
  have hpush : pushWhile (I.host file) file l (I.value l.text s.world.params) (s.saw l.text) =
      some (none, { s.saw l.text with
        stack :=
          if I.value l.text s.world.params = 0 then { newEntry file s l .while with skip := true } :: s.stack
          else { newEntry file s l .while with expr := some l.text, filePos := s.world.pos } :: s.stack }) := by
    have hroom' : (s.saw l.text).stack.length < ngcStackDepth := hroom
    rw [pushWhile, push_host (by decide) hroom']
    split <;> rfl
  rw [command, cmdWhile, withFile_host, hbrk, if_neg Bool.false_ne_true, hskip, if_neg Bool.false_ne_true,
    eval_host]
  split
  case isTrue hlast =>
    have hlast : s.lastOp = .do := hlast
    cases hst : s.stack with
    | nil =>
        rw [Flow.lastOp, hst] at hlast
        cases hsub : s.skipSub <;> simp [hsub] at hlast
    | cons top below =>
        rw [lastOp_of_top hst] at hlast
        have hne : l.oLabel ≠ top.oLabel := hdo top (by rw [hst]; rfl) hlast
        have hst' : (s.saw l.text).stack = top :: below := hst
        rw [withTop_of_top hst', if_neg hne, hpush, hst]
  case isFalse => exact hpush

/-- The `WHILE` of a `DO`. -/
theorem cmdWhile_do (hst : s.stack = top :: below) (hop : top.operation = .do) (hl : l.oLabel = top.oLabel)
    (hskip : s.skipping = false) (hbrk : top.brk = false) (hfile : top.file = some file) :
    command (I.host file) .while l s = some (none,
      if I.value l.text s.world.params = 0 then { s.saw l.text with stack := below }
      else (s.saw l.text).goTo top.filePos) := by
  have hst' : (s.saw l.text).stack = top :: below := hst
  have hlast : (s.saw l.text).lastOp = .do := by rw [lastOp_of_top hst', hop]
  have hbrk' : s.stack.head?.any (·.brk) = false := by simp [hst, hbrk]
  rw [command, cmdWhile, withFile_host, hbrk', if_neg Bool.false_ne_true, hskip, if_neg Bool.false_ne_true,
    eval_host, if_pos hlast, withTop_of_top hst', if_pos hl, stackPull_host hst']
  by_cases hzero : I.value l.text s.world.params = 0
  · simp [hzero, Flow.ok]
  · simp [hzero, Flow.ok, Flow.reposition, Flow.goTo, Interp.host, hfile]

/-- The `WHILE` of a `DO` that has been left. -/
theorem cmdWhile_brk (hst : s.stack = top :: below) (hop : top.operation = .do) (hl : l.oLabel = top.oLabel)
    (hbrk : top.brk = true) :
    command (I.host file) .while l s = some (none, { s with stack := below }) := by
  have hbrk' : s.stack.head?.any (·.brk) = true := by simp [hst, hbrk]
  rw [command, cmdWhile, withFile_host, if_pos hbrk', lastOp_of_top hst, if_pos hop, withTop_of_top hst,
    if_pos hl, stackPull_host hst]
  rfl

theorem whileAgain_host {text : List Char} (hst : s.stack = top :: below) (hexpr : top.expr = some text)
    (hfile : top.file = some file) (hskip : top.skip = false) :
    whileAgain (I.host file) top s = some (none,
      if I.value text s.world.params = 0 then { s.saw text with stack := below }
      else (s.saw text).goTo top.filePos) := by
  have htop : { top with skip := false } = top := by rw [← hskip]
  have htext : top.expr.getD [] = text := by rw [hexpr, Option.getD_some]
  rw [whileAgain, htext, eval_host, htop]
  by_cases hzero : I.value text s.world.params = 0
  · have hst' : ((s.saw text).setTop { top with skip := true }).stack = { top with skip := true } :: below := by
      simp [Flow.setTop, Flow.saw, hst]
    rw [if_pos hzero, if_pos hzero, stackPull_host hst']
    rfl
  · rw [if_neg hzero, if_neg hzero]
    simp [Flow.ok, Flow.reposition, Flow.setTop, Flow.goTo, Flow.saw, Interp.host, hfile, hst]

theorem cmdEndWhile_host {text : List Char} (hst : s.stack = top :: below) (hop : top.operation = .while)
    (hl : l.oLabel = top.oLabel) (hskip : s.skipping = false) (hexpr : top.expr = some text)
    (hfile : top.file = some file) (htop : top.skip = false) :
    command (I.host file) .endWhile l s = some (none,
      if I.value text s.world.params = 0 then { s.saw text with stack := below }
      else (s.saw text).goTo top.filePos) := by
  rw [command, cmdEndWhile, withFile_host, lastOp_of_top hst, if_pos hop, withTop_of_top hst, if_pos hl, hskip,
    if_neg Bool.false_ne_true, whileAgain_host hst hexpr hfile htop]

theorem cmdEndWhile_skip (hst : s.stack = top :: below) (hop : top.operation = .while)
    (hl : l.oLabel = top.oLabel) (htop : top.skip = true) :
    command (I.host file) .endWhile l s = some (none, { s with stack := below }) := by
  rw [command, cmdEndWhile, withFile_host, lastOp_of_top hst, if_pos hop, withTop_of_top hst, if_pos hl,
    if_pos (skipping_of_top hst htop), if_pos htop, stackPull_host hst]
  rfl

theorem cmdRepeat_host (hskip : s.skipping = false) (hroom : s.stack.length < ngcStackDepth) :
    command (I.host file) .repeat l s = some (none, { s.saw l.text with
      stack :=
        if nearbyint (I.value l.text s.world.params) ≤ 0 then
          { newEntry file s l .repeat with skip := true } :: s.stack
        else { newEntry file s l .repeat with
          filePos := s.world.pos, repeats := toUInt32 (nearbyint (I.value l.text s.world.params)) } :: s.stack }) := by
  have hroom' : (s.saw l.text).stack.length < ngcStackDepth := hroom
  rw [command, cmdRepeat, withFile_host, hskip, if_neg Bool.false_ne_true, eval_host,
    push_host (by decide) hroom']
  split <;> rfl

theorem cmdEndRepeat_again (hst : s.stack = top :: below) (hop : top.operation = .repeat)
    (hl : l.oLabel = top.oLabel) (hskip : s.skipping = false) (hfile : top.file = some file)
    (hmore : 1 < top.repeats) :
    command (I.host file) .endRepeat l s = some (none, { s.goTo top.filePos with
      stack := { top with repeats := top.repeats - 1 } :: below }) := by
  rw [command, cmdEndRepeat, withFile_host, lastOp_of_top hst, if_pos hop, withTop_of_top hst, if_pos hl,
    if_pos ⟨hskip, hmore⟩]
  simp [Flow.ok, Flow.reposition, Flow.setTop, Flow.goTo, Interp.host, hfile, hst]

theorem cmdEndRepeat_last (hst : s.stack = top :: below) (hop : top.operation = .repeat)
    (hl : l.oLabel = top.oLabel) (hlast : s.skipping = true ∨ top.repeats ≤ 1) :
    command (I.host file) .endRepeat l s = some (none, { s with stack := below }) := by
  have hnot : ¬(s.skipping = false ∧ 1 < top.repeats) := by
    rintro ⟨hskip, hmore⟩
    rcases hlast with h | h
    · rw [h] at hskip
      cases hskip
    · omega
  rw [command, cmdEndRepeat, withFile_host, lastOp_of_top hst, if_pos hop, withTop_of_top hst, if_pos hl,
    if_neg hnot, stackPull_host hst]
  rfl

def belowLabel (oLabel : ℕ) (stack : List (Entry φ)) : List (Entry φ) :=
  (stack.dropWhile fun e => decide (e.oLabel ≠ oLabel)).tail

omit [DecidableEq φ] in
theorem popTo_below {σ : Type} {h : FlowHost σ φ} {oLabel : ℕ} {stack : List (Entry φ)} {world world' : σ}
    (hpop : popTo h oLabel stack world = some (top :: below, world')) :
    below = belowLabel oLabel stack ∧ top.oLabel = oLabel := by
  induction stack generalizing world with
  | nil => cases hpop
  | cons e rest ih =>
      rw [popTo] at hpop
      split at hpop
      case isTrue hne =>
        obtain ⟨hbelow, hl⟩ := ih hpop
        exact ⟨by rw [hbelow, belowLabel, belowLabel, List.dropWhile_cons_of_pos (by simpa using Ne.symm hne)], hl⟩
      case isFalse heq =>
        cases hpop
        have heq : top.oLabel = oLabel := (not_not.1 heq).symm
        exact ⟨by rw [belowLabel, List.dropWhile_cons_of_neg (by simpa using heq)]; rfl, heq⟩

theorem flow_popTo_host {stack : List (Entry φ)} {oLabel : ℕ}
    {f : Entry φ → Flow (MacroWorld β P) φ → Outcome (MacroWorld β P) φ}
    (hpop : popTo (I.host file) oLabel s.stack s.world = some (top :: stack, s.world)) :
    s.popTo (I.host file) oLabel f = f top { s with stack := top :: stack } := by
  rw [Flow.popTo, hpop]
  rfl

theorem cmdBreak_host (hskip : s.skipping = false)
    (hpop : popTo (I.host file) l.oLabel s.stack s.world = some (top :: below, s.world))
    (hop : top.operation = .do ∨ top.operation = .while ∨ top.operation = .repeat) :
    command (I.host file) .break l s = some (none, { s with
      stack := { top with repeats := 0, brk := true, skip := true, handled := true } :: below }) := by
  rw [command, cmdBreak, withFile_host, hskip, if_neg Bool.false_ne_true, flow_popTo_host hpop, if_pos hop]
  rfl

theorem cmdContinue_repeat (hskip : s.skipping = false)
    (hpop : popTo (I.host file) l.oLabel s.stack s.world = some (top :: below, s.world))
    (hop : top.operation = .repeat) (hfile : top.file = some file) :
    command (I.host file) .continue l s = some (none,
      if 1 < top.repeats then
        { s.goTo top.filePos with stack := { top with repeats := top.repeats - 1 } :: below }
      else { s with stack := { top with repeats := 0, skip := true } :: below }) := by
  rw [command, cmdContinue, withFile_host, hskip, if_neg Bool.false_ne_true, flow_popTo_host hpop, hop]
  by_cases hmore : 1 < top.repeats
  · simp [hmore, Flow.ok, Flow.reposition, Flow.setTop, Flow.goTo, Interp.host, hfile]
  · simp [hmore, Flow.ok, Flow.setTop]

theorem cmdContinue_do (hskip : s.skipping = false)
    (hpop : popTo (I.host file) l.oLabel s.stack s.world = some (top :: below, s.world))
    (hop : top.operation = .do) (hfile : top.file = some file) :
    command (I.host file) .continue l s =
      some (none, { s.goTo top.filePos with stack := top :: below }) := by
  rw [command, cmdContinue, withFile_host, hskip, if_neg Bool.false_ne_true, flow_popTo_host hpop, hop]
  simp [Flow.ok, Flow.reposition, Flow.goTo, Interp.host, hfile]

theorem cmdContinue_while {text : List Char} (hskip : s.skipping = false)
    (hpop : popTo (I.host file) l.oLabel s.stack s.world = some (top :: below, s.world))
    (hop : top.operation = .while) (hexpr : top.expr = some text) (hfile : top.file = some file)
    (htop : top.skip = false) :
    command (I.host file) .continue l s = some (none,
      if I.value text s.world.params = 0 then { s.saw text with stack := below }
      else { (s.saw text).goTo top.filePos with stack := top :: below }) := by
  rw [command, cmdContinue, withFile_host, hskip, if_neg Bool.false_ne_true, flow_popTo_host hpop, hop]
  simp only [htop, if_neg Bool.false_ne_true]
  rw [whileAgain_host rfl hexpr hfile htop]
  split <;> rfl

end

end Grbl.Ngc
