import Grbl.Ngc.Flowctrl

/-!
# Structured programs in macro files

* `Prog`, `Alts` : properly nested programs; `Prog.lines` : how they are written, line by line;
* `Prog.Nested` : nested constructs have different labels, and are not nested too deeply;
* `Interp` : what blocks do to the parameters, and the values of expressions;
* `Frame`, `Config`, `Interp.step` : what programs mean, one step at a time;
* `Reading`, `readLine` : a macro file is read line by line.
-/

namespace Grbl.Ngc

variable {β P φ : Type}

/-! ## Programs -/

mutual

/-- A sequence of plain blocks, `IF`, `WHILE`, `DO`, `REPEAT`, `BREAK` and `CONTINUE`. -/
inductive Prog (β : Type)
  | nil
  | block (b : β) (next : Prog β)
  | ifThen (oLabel : ℕ) (cond : List Char) (body : Prog β) (alts : Alts β) (next : Prog β)
  | whileDo (oLabel : ℕ) (cond : List Char) (body next : Prog β)
  | doWhile (oLabel : ℕ) (body : Prog β) (cond : List Char) (next : Prog β)
  | repeatDo (oLabel : ℕ) (count : List Char) (body next : Prog β)
  | breakOut (oLabel : ℕ) (next : Prog β)
  | continueAt (oLabel : ℕ) (next : Prog β)

/-- What follows the body of an `IF` or `ELSEIF`. -/
inductive Alts (β : Type)
  | endIf
  | orElse (body : Prog β)
  | elseIf (cond : List Char) (body : Prog β) (alts : Alts β)

end

/-- How a command is written. -/
def FlowCmd.word : FlowCmd → List Char
  | .noOp => []
  | .if => "IF".toList
  | .elseIf => "ELSEIF".toList
  | .else => "ELSE".toList
  | .endIf => "ENDIF".toList
  | .do => "DO".toList
  | .continue => "CONTINUE".toList
  | .break => "BREAK".toList
  | .while => "WHILE".toList
  | .endWhile => "ENDWHILE".toList
  | .repeat => "REPEAT".toList
  | .endRepeat => "ENDREPEAT".toList
  | .sub => "SUB".toList
  | .endSub => "ENDSUB".toList
  | .call => "CALL".toList
  | .return => "RETURN".toList
  | .raiseAlarm => "ALARM".toList
  | .raiseError => "ERROR".toList

theorem readKeyword_word {operation : FlowCmd} {text : List Char} (hno : operation ≠ .noOp)
    (helse : operation = .else → text = []) :
    readKeyword flowCmds (operation.word ++ text) = some (operation, text) := by
  cases operation with
  | noOp => exact absurd rfl hno
  | «else» =>
      cases helse rfl
      rfl
  | _ => cases text <;> rfl

/-- A line of a macro file. -/
inductive Line (β : Type)
  | block (b : β)
  | oWord (oLabel : ℕ) (text : List Char)

def Line.cmd (oLabel : ℕ) (operation : FlowCmd) (text : List Char) : Line β :=
  .oWord oLabel (operation.word ++ text)

mutual

def Prog.lines : Prog β → List (Line β)
  | .nil => []
  | .block b next => .block b :: next.lines
  | .ifThen l cond body alts next => .cmd l .if cond :: (body.lines ++ (alts.lines l ++ next.lines))
  | .whileDo l cond body next => .cmd l .while cond :: (body.lines ++ .cmd l .endWhile [] :: next.lines)
  | .doWhile l body cond next => .cmd l .do [] :: (body.lines ++ .cmd l .while cond :: next.lines)
  | .repeatDo l count body next => .cmd l .repeat count :: (body.lines ++ .cmd l .endRepeat [] :: next.lines)
  | .breakOut l next => .cmd l .break [] :: next.lines
  | .continueAt l next => .cmd l .continue [] :: next.lines

def Alts.lines (l : ℕ) : Alts β → List (Line β)
  | .endIf => [.cmd l .endIf []]
  | .orElse body => .cmd l .else [] :: (body.lines ++ [.cmd l .endIf []])
  | .elseIf cond body alts => .cmd l .elseIf cond :: (body.lines ++ alts.lines l)

end

mutual

/-- Constructs have labels that are not in `avoid`, where the labels of those around them are, and there is room
on the stack. -/
def Prog.Nested (avoid : List ℕ) (room : ℕ) : Prog β → Prop
  | .nil => True
  | .block _ next => next.Nested avoid room
  | .ifThen l _ body alts next => (l ∉ avoid ∧ 0 < room) ∧
      (body.Nested (l :: avoid) (room - 1) ∧ alts.Nested (l :: avoid) (room - 1)) ∧ next.Nested avoid room
  | .whileDo l _ body next | .doWhile l body _ next | .repeatDo l _ body next =>
      (l ∉ avoid ∧ 0 < room) ∧ body.Nested (l :: avoid) (room - 1) ∧ next.Nested avoid room
  | .breakOut _ next | .continueAt _ next => next.Nested avoid room

def Alts.Nested (avoid : List ℕ) (room : ℕ) : Alts β → Prop
  | .endIf => True
  | .orElse body => body.Nested avoid room
  | .elseIf _ body alts => body.Nested avoid room ∧ alts.Nested avoid room

end

mutual

/-- Neither `BREAK` nor `CONTINUE`. -/
def Prog.Plain : Prog β → Prop
  | .nil => True
  | .block _ next => next.Plain
  | .ifThen _ _ body alts next => (body.Plain ∧ alts.Plain) ∧ next.Plain
  | .whileDo _ _ body next | .doWhile _ body _ next | .repeatDo _ _ body next => body.Plain ∧ next.Plain
  | .breakOut _ _ | .continueAt _ _ => False

def Alts.Plain : Alts β → Prop
  | .endIf => True
  | .orElse body => body.Plain
  | .elseIf _ body alts => body.Plain ∧ alts.Plain

end

/-! ## What programs mean -/

/-- What blocks do to the parameters, and the values of expressions. -/
structure Interp (β P : Type) where
  exec : β → P → P
  value : List Char → P → ℚ

/-- What is seen of a run. -/
inductive Event (β : Type)
  | block (b : β)
  | cond (text : List Char)

/-- A construct whose body is being executed, and what comes after it. -/
inductive Frame (β : Type)
  | branch (oLabel : ℕ) (alts : Alts β) (next : Prog β)
  | orElse (oLabel : ℕ) (next : Prog β)
  | whileDo (oLabel : ℕ) (cond : List Char) (body next : Prog β)
  | doWhile (oLabel : ℕ) (body : Prog β) (cond : List Char) (next : Prog β)
  | repeatDo (oLabel : ℕ) (body next : Prog β) (left : ℕ)

namespace Frame

def oLabel : Frame β → ℕ
  | branch l _ _ | orElse l _ | whileDo l _ _ _ | doWhile l _ _ _ | repeatDo l _ _ _ => l

def next : Frame β → Prog β
  | branch _ _ next | orElse _ next | whileDo _ _ _ next | doWhile _ _ _ next | repeatDo _ _ next _ => next

def body? : Frame β → Option (Prog β)
  | branch _ _ _ | orElse _ _ => none
  | whileDo _ _ body _ | doWhile _ body _ _ | repeatDo _ body _ _ => some body

/-- The lines from the end of the body that is executed to the end of the construct. -/
def closing : Frame β → List (Line β)
  | branch l alts _ => alts.lines l
  | orElse l _ => [.cmd l .endIf []]
  | whileDo l _ _ _ => [.cmd l .endWhile []]
  | doWhile l _ cond _ => [.cmd l .while cond]
  | repeatDo l _ _ _ => [.cmd l .endRepeat []]

end Frame

/-- What is to be executed now: a program, or what follows the body of an `IF` whose condition does not hold. -/
inductive Code (β : Type)
  | prog (p : Prog β)
  | alts (oLabel : ℕ) (alts : Alts β) (next : Prog β)

/-- The program that is left, the constructs around it, innermost first, and what has been seen. -/
structure Config (β P : Type) where
  code : Code β
  frames : List (Frame β)
  params : P
  log : List (Event β)

/-- The innermost loop with the label, and what is around it. -/
def findLoop (oLabel : ℕ) : List (Frame β) → Option (Frame β × List (Frame β))
  | [] => none
  | f :: frames =>
      if f.oLabel = oLabel then if f.body?.isSome then some (f, frames) else none
      else findLoop oLabel frames

namespace Interp

variable (I : Interp β P)

/-- Evaluate a condition, and go on with one of two. -/
def test (c : Config β P) (text : List Char) (holds fails : Code β × List (Frame β)) : Config β P :=
  let r := if I.value text c.params ≠ 0 then holds else fails
  { c with code := r.1, frames := r.2, log := c.log ++ [Event.cond text] }

/-- How often a body is repeated. -/
def count (text : List Char) (params : P) : ℕ := toUInt32 (nearbyint (I.value text params))

/-- The end of the body of the innermost construct. -/
def close (c : Config β P) (f : Frame β) (frames : List (Frame β)) : Config β P :=
  match f with
  | .branch _ _ next | .orElse _ next => { c with code := .prog next, frames := frames }
  | .whileDo _ text body next | .doWhile _ body text next =>
      I.test c text (.prog body, f :: frames) (.prog next, frames)
  | .repeatDo l body next left =>
      if 1 < left then { c with code := .prog body, frames := .repeatDo l body next (left - 1) :: frames }
      else { c with code := .prog next, frames := frames }

/-- One step; `none` at the end, and at a `BREAK` or `CONTINUE` that names no loop around it. -/
def step (c : Config β P) : Option (Config β P) :=
  match c.code with
  | .prog .nil =>
      match c.frames with
      | [] => none
      | f :: frames => some (I.close c f frames)
  | .prog (.block b next) =>
      some { c with code := .prog next, params := I.exec b c.params, log := c.log ++ [.block b] }
  | .prog (.ifThen l text body alts next) =>
      some (I.test c text (.prog body, .branch l alts next :: c.frames) (.alts l alts next, c.frames))
  | .prog (.whileDo l text body next) =>
      some (I.test c text (.prog body, .whileDo l text body next :: c.frames) (.prog next, c.frames))
  | .prog (.doWhile l body text next) =>
      some { c with code := .prog body, frames := .doWhile l body text next :: c.frames }
  | .prog (.repeatDo l text body next) =>
      let c' := { c with log := c.log ++ [Event.cond text] }
      match I.count text c.params with
      | 0 => some { c' with code := .prog next }
      | left => some { c' with code := .prog body, frames := .repeatDo l body next left :: c.frames }
  | .prog (.breakOut l _) =>
      (findLoop l c.frames).map fun (f, frames) => { c with code := .prog f.next, frames := frames }
  | .prog (.continueAt l _) =>
      (findLoop l c.frames).map fun (f, frames) => { c with code := .prog .nil, frames := f :: frames }
  | .alts _ .endIf next => some { c with code := .prog next }
  | .alts l (.orElse body) next => some { c with code := .prog body, frames := .orElse l next :: c.frames }
  | .alts l (.elseIf text body alts) next =>
      some (I.test c text (.prog body, .branch l alts next :: c.frames) (.alts l alts next, c.frames))

end Interp

def Config.start (p : Prog β) (params : P) : Config β P := ⟨.prog p, [], params, []⟩

/-! ## Reading a macro file -/

/-- Where reading goes on, the parameters, and what has been seen. -/
structure MacroWorld (β P : Type) where
  pos : ℕ
  params : P
  log : List (Event β)

/-- A macro file is being read: the expressions have values, and there is memory. -/
def Interp.host [DecidableEq φ] (I : Interp β P) (file : φ) : FlowHost (MacroWorld β P) φ where
  streamFile _ := some file
  vfsTell _ world := world.pos
  streamReposition file' pos _ world := if file' = some file then { world with pos := pos } else world
  streamRedirectRead _ world := (none, world)
  streamRedirectClose _ world := world
  malloc world := (some 0, world)
  eval text world := (.ok (I.value text world.params, []), { world with log := world.log ++ [Event.cond text] })
  paramGet _ _ := 0
  paramSet _ _ world := (true, world)
  namedParamSet _ _ world := world
  stringParamGet _ _ := none
  stringParamDelete _ world := world
  callPush _ world := (true, world)
  callPop world := world
  raiseAlarm _ world := world
  toStatus _ := none
  onMacroReturn _ := false
  macroReturn world := ([], world)
  uninit _ := 0

/-- The module's variables, and `gc_state.skip_blocks`. -/
structure Reading (β P φ : Type) where
  flow : Flow (MacroWorld β P) φ
  skip : Bool

/-- The next line; `none` at the end of the file, and after an error. -/
def readLine [DecidableEq φ] (I : Interp β P) (file : φ) (source : List (Line β)) (s : Reading β P φ) :
    Option (Reading β P φ) :=
  let world := { s.flow.world with pos := s.flow.world.pos + 1 }
  match source[s.flow.world.pos]? with
  | none => none
  | some (.block b) =>
      if s.skip then some { s with flow := { s.flow with world := world } }
      else some { s with flow := { s.flow with
        world := { world with params := I.exec b world.params, log := world.log ++ [.block b] } } }
  | some (.oWord oLabel text) =>
      match ngcFlowctrl (I.host file) ⟨oLabel, world.pos, text⟩ { s.flow with world := world } with
      | some (⟨none, skip⟩, flow) => some ⟨flow, skip.getD s.skip⟩
      | _ => none

end Grbl.Ngc
