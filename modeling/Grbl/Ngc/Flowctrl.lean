import Mathlib
import Grbl.Ngc.Expr

/-!
# Flow control

`ngc_flowctrl` gets the `O` words of a program: a label and the rest of the line.

* `FlowCmd`, `flowCmds` : the commands and how they are written;
* `Entry`, `Sub`, `Flow` : the variables of the module; `FlowHost` : what it calls;
* `stackPush`, `stackPull`, `pullWhile`, `popTo`, `stackUnwindSub` : the stack;
* `cmdIf`, …, `cmdReturn` : one function for each command; `ngcFlowctrl` : a line.

The stack is a list, the element `stack[stack_idx]` first, and `stack_idx` is its length less one; the
elements above are all zero. A function that reads `stack[stack_idx]` when `stack_idx` is -1 returns `none`.
-/

namespace Grbl.Ngc

/-- `ngc_cmd_t` -/
inductive FlowCmd
  | noOp | «if» | elseIf | «else» | endIf | «do» | «continue» | «break» | «while» | endWhile | «repeat»
  | endRepeat | sub | endSub | call | «return» | raiseAlarm | raiseError
  deriving DecidableEq, Repr

/-- `read_command` -/
def flowCmds : List (List Char × FlowCmd) :=
  [("ALARM".toList, .raiseAlarm), ("BREAK".toList, .break), ("CONTINUE".toList, .continue),
    ("CALL".toList, .call), ("DO".toList, .do), ("ELSEIF".toList, .elseIf), ("ELSE".toList, .else),
    ("ENDIF".toList, .endIf), ("ENDWHILE".toList, .endWhile), ("ENDREPEAT".toList, .endRepeat),
    ("ENDSUB".toList, .endSub), ("ERROR".toList, .raiseError), ("IF".toList, .if),
    ("REPEAT".toList, .repeat), ("RETURN".toList, .return), ("SUB".toList, .sub), ("WHILE".toList, .while)]

def ngcStackDepth : ℕ := 20

/-- `NGC_MAX_PARAM_ID`: larger labels are names. -/
def ngcMaxParamId : ℕ := 65535

/-- `nearbyintf`: halves go to the even side. -/
def nearbyint (value : ℚ) : ℤ :=
  let below := value.floor
  if value - below < 1 / 2 then below
  else if 1 / 2 < value - below then below + 1
  else if below % 2 = 0 then below else below + 1

/-- The conversion of a rounded value to `uint32_t`, which saturates. -/
def toUInt32 (value : ℤ) : ℕ := min value.toNat (2 ^ 32 - 1)

/-- `ngc_stack_entry_t`; subs are known by their addresses. -/
structure Entry (φ : Type) where
  oLabel : ℕ := 0
  operation : FlowCmd := .noOp
  sub : Option ℕ := none
  file : Option φ := none
  filePos : ℕ := 0
  lineNumber : ℕ := 0
  expr : Option (List Char) := none
  repeats : ℕ := 0
  skip : Bool := false
  handled : Bool := false
  brk : Bool := false

/-- `ngc_sub_t` -/
structure Sub (φ : Type) where
  address : ℕ
  oLabel : ℕ
  file : φ
  filePos : ℕ
  lineNumber : ℕ

/-- The variables of the module, and the state of what is outside. -/
structure Flow (σ φ : Type) where
  stack : List (Entry φ) := []
  skipSub : Bool := false
  subs : List (Sub φ) := []
  execSub : Option ℕ := none
  world : σ

/-- The functions the module calls. -/
structure FlowHost (σ φ : Type) where
  /-- `hal.stream.file` -/
  streamFile : σ → Option φ
  vfsTell : φ → σ → ℕ
  streamReposition : Option φ → ℕ → ℕ → σ → σ
  /-- a new stream for the file of that name, if it can be opened -/
  streamRedirectRead : List Char → σ → Option φ × σ
  streamRedirectClose : Option φ → σ → σ
  /-- the address of free memory, if there is any -/
  malloc : σ → Option ℕ × σ
  /-- `ngc_eval_expression`: the value, and what follows the expression -/
  eval : List Char → σ → Except Status (ℚ × List Char) × σ
  paramGet : ℕ → σ → ℚ
  paramSet : ℕ → ℚ → σ → Bool × σ
  namedParamSet : List Char → ℚ → σ → σ
  stringParamGet : ℕ → σ → Option (List Char)
  stringParamDelete : ℕ → σ → σ
  /-- `ngc_call_push`; the context is an element of the stack -/
  callPush : ℕ → σ → Bool × σ
  callPop : σ → σ
  raiseAlarm : ℚ → σ → σ
  /-- the conversion to `status_code_t`, `none` for `Status_OK` -/
  toStatus : ℚ → Option Status
  /-- `grbl.on_macro_return` is set -/
  onMacroReturn : σ → Bool
  /-- `grbl.on_macro_return` is called: the files it gives to `ngc_flowctrl_unwind_stack` -/
  macroReturn : σ → List (Option φ) × σ
  /-- what is in a variable that has not been written -/
  uninit : σ → ℚ

/-- The arguments of `ngc_flowctrl`; `text` is the line from `pos` on. -/
structure OLine where
  oLabel : ℕ
  lineNumber : ℕ
  text : List Char

/-- What a command returns: the status, `none` for `Status_OK`, and the state it leaves. -/
abbrev Outcome (σ φ : Type) := Option (Option Status × Flow σ φ)

variable {σ φ : Type}

namespace Flow

def ok (s : Flow σ φ) : Outcome σ φ := some (none, s)

def fail (e : Status) (s : Flow σ φ) : Outcome σ φ := some (some e, s)

/-- `skip_sub || (stack_idx >= 0 && stack[stack_idx].skip)` -/
def skipping (s : Flow σ φ) : Bool := s.skipSub || s.stack.head?.any (·.skip)

def lastOp (s : Flow σ φ) : FlowCmd :=
  match s.stack with
  | top :: _ => top.operation
  | [] => if s.skipSub then .sub else .noOp

/-- Read `stack[stack_idx]`. -/
def withTop (s : Flow σ φ) (f : Entry φ → Outcome σ φ) : Outcome σ φ :=
  match s.stack with
  | top :: _ => f top
  | [] => none

/-- Write `stack[stack_idx]`. -/
def setTop (s : Flow σ φ) (top : Entry φ) : Flow σ φ := { s with stack := top :: s.stack.tail }

variable (h : FlowHost σ φ)

/-- `hal.stream.file` must be set. -/
def withFile (s : Flow σ φ) (f : φ → Outcome σ φ) : Outcome σ φ :=
  match h.streamFile s.world with
  | some file => f file
  | none => s.fail .flowControlNotExecutingMacro

/-- Evaluate, and go on if there is a value. -/
def eval (s : Flow σ φ) (text : List Char) (f : ℚ → List Char → Flow σ φ → Outcome σ φ) : Outcome σ φ :=
  match h.eval text s.world with
  | (.ok (value, rest), world) => f value rest { s with world := world }
  | (.error e, world) => fail e { s with world := world }

/-- Back to where the entry started. -/
def reposition (s : Flow σ φ) (top : Entry φ) : Flow σ φ :=
  { s with world := h.streamReposition top.file top.filePos top.lineNumber s.world }

end Flow

section
variable (h : FlowHost σ φ)

/-! ## The stack -/

/-- A call has a scope of its own. -/
def pushContext (operation : FlowCmd) (s : Flow σ φ) : Bool × σ :=
  if operation = .call then h.callPush s.stack.length s.world else (true, s.world)

def stackPush (l : OLine) (operation : FlowCmd) (s : Flow σ φ) : Option Status × Flow σ φ :=
  if s.stack.length < ngcStackDepth then
    let (pushed, world) := pushContext h operation s
    if pushed then
      (none, { s with
        world := world
        stack :=
          { oLabel := l.oLabel, lineNumber := l.lineNumber, file := h.streamFile world, operation := operation,
            sub := s.execSub } :: s.stack })
    else (some .flowControlStackOverflow, { s with world := world })
  else (some .flowControlStackOverflow, s)

def Flow.push (s : Flow σ φ) (l : OLine) (operation : FlowCmd)
    (f : Entry φ → Flow σ φ → Outcome σ φ) : Outcome σ φ :=
  match stackPush h l operation s with
  | (none, s) => s.withTop fun top => f top s
  | (some e, s) => s.fail e

/-- What `stack_pull` does outside the stack. -/
def pulled (e : Entry φ) (world : σ) : σ := if e.operation = .call then h.callPop world else world

def stackPull (s : Flow σ φ) : Flow σ φ :=
  match s.stack with
  | e :: rest => { s with stack := rest, world := pulled h e s.world }
  | [] => s

/-- `while(stack_idx >= 0 && p(stack[stack_idx])) stack_pull();` -/
def pullWhile (p : Entry φ → Bool) : List (Entry φ) → σ → List (Entry φ) × σ
  | [], world => ([], world)
  | e :: rest, world => if p e then pullWhile p rest (pulled h e world) else (e :: rest, world)

def Flow.pullWhile (p : Entry φ → Bool) (s : Flow σ φ) : Flow σ φ :=
  let (stack, world) := Ngc.pullWhile h p s.stack s.world
  { s with stack := stack, world := world }

/-- `while(o_label != stack[stack_idx].o_label && stack_pull());` -/
def popTo (oLabel : ℕ) : List (Entry φ) → σ → Option (List (Entry φ) × σ)
  | [], _ => none
  | e :: rest, world =>
      if oLabel ≠ e.oLabel then popTo oLabel rest (pulled h e world) else some (e :: rest, world)

/-- Pull the entries above the one with the label, and go on with that one. -/
def Flow.popTo (s : Flow σ φ) (oLabel : ℕ) (f : Entry φ → Flow σ φ → Outcome σ φ) : Outcome σ φ :=
  match Ngc.popTo h oLabel s.stack s.world with
  | some (stack, world) =>
      let s : Flow σ φ := { s with stack := stack, world := world }
      s.withTop fun top => f top s
  | none => none

/-! ## Subs -/

/-- The last sub of the label of the last named one, and how many there are. -/
def getRefcount (subs : List (Sub φ)) : Option ℕ × ℕ :=
  let oLabel := ((subs.filter fun sub => decide (ngcMaxParamId < sub.oLabel)).getLast?.map (·.oLabel)).getD 0
  let found := subs.filter fun sub => decide (sub.oLabel = oLabel)
  (found.getLast?.map (·.address), found.length)

def addSub (l : OLine) (file : φ) (s : Flow σ φ) : Option (Sub φ) × Flow σ φ :=
  match h.malloc s.world with
  | (some address, world) =>
      let sub : Sub φ := ⟨address, l.oLabel, file, h.vfsTell file world, l.lineNumber⟩
      (some sub, { s with subs := s.subs ++ [sub], world := world })
  | (none, world) => (none, { s with world := world })

end

section
variable [DecidableEq φ] (h : FlowHost σ φ)

def clearSubs (file : Option φ) (s : Flow σ φ) : Flow σ φ :=
  { s with subs := s.subs.filter fun sub => decide (file ≠ none ∧ file ≠ some sub.file) }

def stackUnwindSub (oLabel : ℕ) (s : Flow σ φ) : Flow σ φ :=
  let s := s.pullWhile h fun e => decide (e.oLabel ≠ oLabel)
  let s :=
    match s.stack with
    | [] => s
    | top :: _ =>
        let s :=
          if ngcMaxParamId < oLabel then
            let (last, count) := getRefcount s.subs
            let s := if top.sub = last ∧ count = 1 then { s with world := h.stringParamDelete oLabel s.world } else s
            let s := clearSubs top.file s
            { s with world := h.streamRedirectClose top.file s.world }
          else s.reposition h top
        stackPull h s
  { s with execSub := s.stack.head?.bind (·.sub) }

def ngcFlowctrlUnwindStack (file : Option φ) (s : Flow σ φ) : Flow σ φ :=
  (clearSubs file s).pullWhile h fun e => decide (e.file = file)

def ngcFlowctrlInit (s : Flow σ φ) : Flow σ φ := (clearSubs none s).pullWhile h fun _ => true

def onNamedSubEOF (file : Option φ) (s : Flow σ φ) : Flow σ φ :=
  match s.stack with
  | top :: _ =>
      if top.file = file then
        ngcFlowctrlUnwindStack h top.file { s with world := h.streamRedirectClose top.file s.world }
      else s
  | [] => s

/-- An error in a sub's file, up to the call of the handler of the file around it; then, or at once when the
label is not found, comes `ngc_flowctrl_init`. -/
def onNamedSubError (s : Flow σ φ) : Flow σ φ :=
  let current := fun sub : Sub φ =>
    decide (h.streamFile s.world = some sub.file ∧ ngcMaxParamId < sub.oLabel)
  match s.stack, s.subs.find? current with
  | _ :: _, some sub => stackUnwindSub h sub.oLabel s
  | _, _ => s

/-! ## Commands -/

def cmdIf (l : OLine) (s : Flow σ φ) : Outcome σ φ :=
  if s.skipping then s.ok
  else s.eval h l.text fun value _ s => s.push h l .if fun top s =>
    (s.setTop { top with skip := decide (value = 0), handled := decide (value ≠ 0) }).ok

def cmdElseIf (l : OLine) (s : Flow σ φ) : Outcome σ φ :=
  if s.lastOp = .if ∨ s.lastOp = .elseIf then
    s.withTop fun top =>
      if l.oLabel = top.oLabel then
        if top.handled then (s.setTop { top with skip := true }).ok
        else (s.setTop { top with skip := false }).eval h l.text fun value _ s =>
          if value = 0 then (s.setTop { top with skip := true }).ok
          else (s.setTop { top with skip := false, operation := .elseIf, handled := true }).ok
      else s.ok
  else if s.skipping then s.ok
  else s.fail .flowControlSyntaxError

def cmdElse (l : OLine) (s : Flow σ φ) : Outcome σ φ :=
  if s.lastOp = .if ∨ s.lastOp = .elseIf then
    s.withTop fun top =>
      if l.oLabel = top.oLabel then
        if top.handled then (s.setTop { top with skip := true }).ok
        else (s.setTop { top with skip := false, operation := .else }).ok
      else s.ok
  else if s.skipping then s.ok
  else s.fail .flowControlSyntaxError

def cmdEndIf (l : OLine) (s : Flow σ φ) : Outcome σ φ :=
  if s.lastOp = .if ∨ s.lastOp = .elseIf ∨ s.lastOp = .else then
    s.withTop fun top => if l.oLabel = top.oLabel then (stackPull h s).ok else s.ok
  else if s.skipping then s.ok
  else s.fail .flowControlSyntaxError

def cmdDo (l : OLine) (s : Flow σ φ) : Outcome σ φ :=
  s.withFile h fun file =>
    if s.skipping then s.ok
    else s.push h l .do fun top s =>
      (s.setTop { top with filePos := h.vfsTell file s.world, skip := false }).ok

/-- A `WHILE` line that starts a loop. -/
def pushWhile (file : φ) (l : OLine) (value : ℚ) (s : Flow σ φ) : Outcome σ φ :=
  s.push h l .while fun top s =>
    if value = 0 then (s.setTop { top with skip := true }).ok
    else
      match h.malloc s.world with
      | (some _, world) =>
          (Flow.setTop { s with world := world } { top with
            skip := false, expr := some l.text, file := some file, filePos := h.vfsTell file world }).ok
      | (none, world) =>
          (Flow.setTop { s with world := world } { top with skip := false }).fail .flowControlOutOfMemory

def cmdWhile (l : OLine) (s : Flow σ φ) : Outcome σ φ :=
  s.withFile h fun file =>
    if s.stack.head?.any (·.brk) then
      if s.lastOp = .do then
        s.withTop fun top => if l.oLabel = top.oLabel then (stackPull h s).ok else s.ok
      else s.ok
    else if s.skipping then s.ok
    else s.eval h l.text fun value _ s =>
      if s.lastOp = .do then
        s.withTop fun top =>
          if l.oLabel = top.oLabel then
            if value ≠ 0 then (s.reposition h top).ok else (stackPull h s).ok
          else pushWhile h file l value s
      else pushWhile h file l value s

/-- The condition of a `WHILE` entry is evaluated again; the entry goes when it does not hold. -/
def whileAgain (top : Entry φ) (s : Flow σ φ) : Outcome σ φ :=
  s.eval h (top.expr.getD []) fun value _ s =>
    if value = 0 then (stackPull h (s.setTop { top with skip := true })).ok
    else ((s.setTop { top with skip := false }).reposition h top).ok

def cmdEndWhile (l : OLine) (s : Flow σ φ) : Outcome σ φ :=
  s.withFile h fun _ =>
    if s.lastOp = .while then
      s.withTop fun top =>
        if l.oLabel = top.oLabel then
          -- when nothing is skipped, `skip` of the entry is not set
          if s.skipping then (if top.skip then stackPull h s else s).ok
          else whileAgain h top s
        else s.ok
    else if s.skipping then s.ok
    else s.fail .flowControlSyntaxError

def cmdRepeat (l : OLine) (s : Flow σ φ) : Outcome σ φ :=
  s.withFile h fun file =>
    if s.skipping then s.ok
    else s.eval h l.text fun value _ s => s.push h l .repeat fun top s =>
      if nearbyint value ≤ 0 then (s.setTop { top with skip := true }).ok
      else (s.setTop { top with
        skip := false, file := some file, filePos := h.vfsTell file s.world,
        repeats := toUInt32 (nearbyint value) }).ok

def cmdEndRepeat (l : OLine) (s : Flow σ φ) : Outcome σ φ :=
  s.withFile h fun _ =>
    if s.lastOp = .repeat then
      s.withTop fun top =>
        if l.oLabel = top.oLabel then
          if s.skipping = false ∧ 1 < top.repeats then
            ((s.setTop { top with repeats := top.repeats - 1 }).reposition h top).ok
          else (stackPull h s).ok
        else s.ok
    else if s.skipping then s.ok
    else s.fail .flowControlSyntaxError

def cmdBreak (l : OLine) (s : Flow σ φ) : Outcome σ φ :=
  s.withFile h fun _ =>
    if s.skipping then s.ok
    else s.popTo h l.oLabel fun top s =>
      if top.operation = .do ∨ top.operation = .while ∨ top.operation = .repeat then
        (s.setTop { top with repeats := 0, brk := true, skip := true, handled := true }).ok
      else s.fail .flowControlSyntaxError

def cmdContinue (l : OLine) (s : Flow σ φ) : Outcome σ φ :=
  s.withFile h fun _ =>
    if s.skipping then s.ok
    else s.popTo h l.oLabel fun top s =>
      match top.operation with
      | .repeat =>
          if 1 < top.repeats then
            ((s.setTop { top with repeats := top.repeats - 1 }).reposition h top).ok
          else (s.setTop { top with repeats := 0, skip := true }).ok
      | .do => (s.reposition h top).ok
      | .while => if top.skip then (stackPull h s).ok else whileAgain h top s
      | _ => s.fail .flowControlSyntaxError

def cmdRaiseAlarm (l : OLine) (s : Flow σ φ) : Outcome σ φ :=
  if s.skipping then s.ok
  else
    match h.eval l.text s.world with
    | (.ok (value, _), world) => Flow.ok { s with world := h.raiseAlarm value world }
    | (.error _, world) => Flow.ok { s with world := world }

def cmdRaiseError (l : OLine) (s : Flow σ φ) : Outcome σ φ :=
  if s.skipping then s.ok
  else
    match h.eval l.text s.world with
    | (.ok (value, _), world) => some (h.toStatus value, { s with world := world })
    | (.error _, world) => Flow.ok { s with world := world }

/-- A sub known by name is not skipped: its file is being read. -/
def cmdSub (l : OLine) (s : Flow σ φ) : Outcome σ φ :=
  s.withFile h fun file =>
    if ngcMaxParamId < l.oLabel then
      let found := s.subs.find? fun sub => decide (sub.oLabel = l.oLabel ∧ sub.file = file)
      -- the search ends at the last sub, and only its label is looked at then
      match found.or s.subs.getLast? with
      | some sub => if sub.oLabel ≠ l.oLabel then s.fail .flowControlSyntaxError else s.ok
      | none => s.fail .flowControlSyntaxError
    else
      match addSub h l file s with
      | (some _, s) => Flow.ok { s with skipSub := true }
      | (none, s) => Flow.fail .flowControlOutOfMemory { s with skipSub := false }

/-- The value of `ENDSUB` and `RETURN`. -/
def returnValue (text : List Char) (s : Flow σ φ) : Flow σ φ :=
  match h.eval text s.world with
  | (.ok (value, _), world) =>
      { s with world := h.namedParamSet "_value_returned".toList 1 (h.namedParamSet "_value".toList value world) }
  | (.error _, world) => { s with world := h.namedParamSet "_value_returned".toList 0 world }

def cmdEndSub (l : OLine) (s : Flow σ φ) : Outcome σ φ :=
  s.withFile h fun _ =>
    let s := if s.skipSub then s else returnValue h l.text (stackUnwindSub h l.oLabel s)
    Flow.ok { s with skipSub := false }

def nameMemory (name : List Char) (world : σ) : Bool × σ :=
  if 59 < name.length + 20 then
    let (address, world) := h.malloc world
    (address.isSome, world)
  else (true, world)

def openMacro (name : List Char) (world : σ) : Option φ × σ :=
  match h.streamRedirectRead ("/littlefs/".toList ++ name ++ ".macro".toList) world with
  | (some file, world) => (some file, world)
  | (none, world) => h.streamRedirectRead ('/' :: name ++ ".macro".toList) world

def openSub (l : OLine) (name : List Char) (s : Flow σ φ) : Except Status (Sub φ) × Flow σ φ :=
  match nameMemory h name s.world with
  | (false, world) => (.error .flowControlOutOfMemory, { s with world := world })
  | (true, world) =>
      match openMacro h name world with
      | (none, world) => (.error .fileOpenFailed, { s with world := world })
      | (some file, world) =>
          match addSub h l file { s with world := world } with
          | (some sub, s) => (.ok sub, s)
          | (none, s) => (.error .flowControlOutOfMemory, s)

/-- `n` more arguments; the values found, and the first error. -/
def readArgs : ℕ → List Char → σ → Option Status × List ℚ × σ
  | 0, _, world => (none, [], world)
  | _ + 1, [], world => (none, [], world)
  | n + 1, text, world =>
      match h.eval text world with
      | (.error e, world) => (some e, [], world)
      | (.ok (value, rest), world) =>
          let (status, values, world) := readArgs n rest world
          (status, value :: values, world)

/-- The parameters 1 to 30: what is not given is what the caller has, except for a single missing one. -/
def callParams (args : List ℚ) (world : σ) : List ℚ :=
  (List.range 30).map fun i =>
    if args.length = 29 ∧ i = 29 then h.uninit world else args.getD i (h.paramGet (i + 1) world)

/-- Parameters that are not zero are set; `false` when there was no memory for one. -/
def setParams : ℕ → List ℚ → σ → Bool × σ
  | _, [], world => (true, world)
  | id, value :: values, world =>
      let (set, world) := if value ≠ 0 then h.paramSet id value world else (true, world)
      let (rest, world) := setParams (id + 1) values world
      (set && rest, world)

def enterSub (l : OLine) (sub : Sub φ) (s : Flow σ φ) : Outcome σ φ :=
  let (status, args, world) := readArgs h 30 l.text s.world
  let s := { s with world := world }
  match status with
  | some e => s.fail e
  | none =>
      let params := callParams h args s.world
      s.push h l .call fun top s =>
        let file := h.streamFile s.world
        let filePos := (file.map fun file => h.vfsTell file s.world).getD 0
        let s := s.setTop { top with sub := some sub.address, file := file, filePos := filePos, repeats := 1 }
        let (set, world) := setParams h 1 params s.world
        let s := { s with world := world, execSub := some sub.address }
        if set then
          let world := h.namedParamSet "_value_returned".toList 0 (h.namedParamSet "_value".toList 0 s.world)
          Flow.ok { s with world := h.streamReposition (some sub.file) sub.filePos sub.lineNumber world }
        else s.fail .flowControlOutOfMemory

def cmdCall (l : OLine) (s : Flow σ φ) : Outcome σ φ :=
  if h.streamFile s.world = none ∧ l.oLabel ≤ ngcMaxParamId then s.fail .flowControlNotExecutingMacro
  else if s.skipping then s.ok
  else if ngcMaxParamId < l.oLabel then
    match h.stringParamGet l.oLabel s.world with
    | none => s.fail .flowControlSyntaxError
    | some name =>
        match openSub h l name s with
        | (.ok sub, s) => enterSub h l sub s
        | (.error e, s) => s.fail e
  else
    match s.subs.find? fun sub => decide (sub.oLabel = l.oLabel ∧ h.streamFile s.world = some sub.file) with
    | some sub => enterSub h l sub s
    | none => s.fail .flowControlSyntaxError

/-- `grbl.on_macro_return` -/
def callMacroReturn (s : Flow σ φ) : Flow σ φ :=
  let (files, world) := h.macroReturn s.world
  files.foldl (fun s file => ngcFlowctrlUnwindStack h file s) { s with world := world }

def cmdReturn (l : OLine) (s : Flow σ φ) : Outcome σ φ :=
  s.withFile h fun _ =>
    if s.skipping then s.ok
    else if s.execSub ≠ none then (returnValue h l.text (stackUnwindSub h l.oLabel s)).ok
    else if h.onMacroReturn s.world then
      s.withTop fun top =>
        (callMacroReturn h (returnValue h l.text (ngcFlowctrlUnwindStack h top.file s))).ok
    else (returnValue h l.text s).ok

def command (operation : FlowCmd) (l : OLine) (s : Flow σ φ) : Outcome σ φ :=
  match operation with
  | .if => cmdIf h l s
  | .elseIf => cmdElseIf h l s
  | .else => cmdElse l s
  | .endIf => cmdEndIf h l s
  | .do => cmdDo h l s
  | .while => cmdWhile h l s
  | .endWhile => cmdEndWhile h l s
  | .repeat => cmdRepeat h l s
  | .endRepeat => cmdEndRepeat h l s
  | .break => cmdBreak h l s
  | .continue => cmdContinue h l s
  | .raiseAlarm => cmdRaiseAlarm h l s
  | .raiseError => cmdRaiseError h l s
  | .sub => cmdSub h l s
  | .endSub => cmdEndSub h l s
  | .call => cmdCall h l s
  | .return => cmdReturn h l s
  | .noOp => s.fail .flowControlSyntaxError

/-- What the caller sees: the status, and what is written to `*skip`, if anything is. -/
structure Reply where
  status : Option Status
  skip : Option Bool
  deriving DecidableEq, Repr

def ngcFlowctrl (l : OLine) (s : Flow σ φ) : Option (Reply × Flow σ φ) :=
  match readKeyword flowCmds l.text with
  | none => some (⟨some .flowControlSyntaxError, none⟩, s)
  | some (operation, text) =>
      (command h operation { l with text := text } s).map fun
        | (some e, s) => (⟨some e, some false⟩, ngcFlowctrlInit h s)
        | (none, s) => (⟨none, some s.skipping⟩, s)

end

end Grbl.Ngc
