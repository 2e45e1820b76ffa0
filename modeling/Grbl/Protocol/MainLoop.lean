import Mathlib
import Grbl.Lib.Run
import Grbl.State.Machine

/-!
# The main loop: from characters to executed lines

* `Host` : what the loop calls; `Env` : what it reads of the rest of the system;
* `recheckLine`, `executeLine`, `endOfLine`, `otherCharacter` : the parts of `protocol_main_loop`;
* `readCharacter` : one turn of the inner loop, one character of the input stream.

Whatever else runs between two characters (realtime commands, lines of the internal stream,
tasks) is `Host.between`, an arbitrary change of the rest of the system.
-/

namespace Grbl.Protocol

/-- A character of a stream. -/
abbrev Char8 := UInt8

def asciiBS : Char8 := 0x08
def asciiLF : Char8 := 0x0A
def asciiCR : Char8 := 0x0D
def asciiCAN : Char8 := 0x18
def asciiEOF : Char8 := 0x1A
def asciiDEL : Char8 := 0x7F

/-- `' '`, `'$'`, `'%'`, `'('`, `')'`, `';'`, `'['` -/
def blank : Char8 := 0x20
def dollar : Char8 := 0x24
def cmdProgramDemarcation : Char8 := 0x25
def parenLeft : Char8 := 0x28
def parenRight : Char8 := 0x29
def semicolon : Char8 := 0x3B
def bracketLeft : Char8 := 0x5B

/-- `LINE_BUFFER_SIZE`: 256 characters plus terminator. -/
def lineBufferSize : ℕ := 257

/-- `status_code_t`, as far as the loop tells codes apart. -/
inductive Status
  | ok | systemGClock | overflow | limitsEngaged | gcodeToolChangePending
  | code (n : ℕ)
  deriving DecidableEq, Repr

/-- `line_flags_t` -/
structure LineFlags where
  overflow : Bool := false
  commentParentheses : Bool := false
  commentSemicolon : Bool := false
  deriving DecidableEq, Repr

/-- The rest of the system: `gc_state.last_error`, `gc_state.file_run` and everything else. -/
structure Env (σ : Type*) where
  lastError : Status
  fileRun : Bool
  world : σ
  deriving DecidableEq, Repr

/-- The functions the main loop calls. `protocolExecuteRealtime` gives `none` when it returns false. -/
structure Host (σ : Type*) where
  stateGet : Env σ → SysState
  /-- `ABORTED` -/
  aborted : Env σ → Bool
  protocolExecuteRealtime : Env σ → Option (Env σ)
  systemExecuteLine : List Char8 → Env σ → Status × Env σ
  systemRaiseAlarm : Env σ → Env σ
  onUserCommand : Option (List Char8 → Env σ → Status × Env σ)
  gcExecuteBlock : List Char8 → Env σ → Status × Env σ
  onFileDemarcate : Option (Bool → Env σ → Env σ)
  onFileEnd : Option (Status → Env σ → Env σ)
  /-- what a `CAN` does outside the loop's own variables: `xcommand` is emptied, a jog is canceled -/
  motionCancel : Env σ → Env σ
  /-- `hal.driver_cap.no_gcode_message_handling` -/
  noGcodeMessageHandling : Bool
  /-- all that runs from one character to the next -/
  between : Env σ → Env σ

/-- What the loop hands on and what it answers. -/
inductive Response
  | executed (overflow : Bool) (line : List Char8)
  | statusMessage (status : Status)
  deriving DecidableEq, Repr

/-- The variables of the loop; `line` holds the `char_counter` characters collected so far,
`eol` is `none` for `'\0'`. -/
structure MainLoop (σ : Type*) where
  eol : Option Char8 := none
  flags : LineFlags := {}
  line : List Char8 := []
  keepRtCommands : Bool := false
  env : Env σ
  trace : List Response := []
  deriving DecidableEq, Repr

section
variable {σ : Type*} (h : Host σ)

/-- What `$`, `[`, parentheses and semicolons do to the comment flags and to `keep_rt_commands`. -/
def commentCharacter (c : Char8) (first : Bool) (flags : LineFlags) (keep : Bool) : LineFlags × Bool :=
  if c = dollar ∨ c = bracketLeft then
    (flags, if first then true else keep)
  else if c = parenLeft then
    if keep then (flags, keep)
    else
      ({ flags with commentParentheses := !flags.commentSemicolon },
        if flags.commentSemicolon then keep else !h.noGcodeMessageHandling)
  else if c = parenRight then
    if flags.commentSemicolon then (flags, keep)
    else ({ flags with commentParentheses := false }, false)
  else if c = semicolon then
    if flags.commentParentheses then (flags, keep)
    else ({ flags with commentSemicolon := true }, false)
  else (flags, keep)

/-- The loop of `recheck_line`. -/
def recheckFrom : List Char8 → Bool → LineFlags → Bool → LineFlags × Bool
  | [], _, flags, keep => (flags, keep)
  | c :: cs, first, flags, keep =>
      let r := commentCharacter h c first flags keep
      recheckFrom cs false r.1 r.2

def recheckLine (line : List Char8) : LineFlags × Bool :=
  recheckFrom h line true {} false

/-- "Direct and execute one line of formatted input": the environment with the new `last_error`,
and whether the line was a g-code block that returned an error. -/
def executeLine (overflow : Bool) (line : List Char8) (e : Env σ) : Env σ × Bool :=
  if overflow then ({ e with lastError := .overflow }, false)
  else if line = [] then ({ e with lastError := .ok }, false)
  else if line.head? = some dollar then
    let r := h.systemExecuteLine line e
    let e := { r.2 with lastError := r.1 }
    (if r.1 = .limitsEngaged then h.systemRaiseAlarm e else e, false)
  else
    match if line.head? = some bracketLeft then h.onUserCommand else none with
    | some onUserCommand =>
        let r := onUserCommand line e
        ({ r.2 with lastError := r.1 }, false)
    | none =>
        let state := h.stateGet e
        if state = .alarm ∨ state = .estop ∨ state = .jog then
          if line = [cmdProgramDemarcation] ∧ (state = .alarm ∨ state = .estop) then
            let e := { e with fileRun := !e.fileRun, lastError := .ok }
            (match h.onFileDemarcate with
              | some onFileDemarcate => onFileDemarcate e.fileRun e
              | none => e, false)
          else ({ e with lastError := .systemGClock }, false)
        else if e.lastError = .ok ∨ e.lastError = .gcodeToolChangePending then
          let r := h.gcExecuteBlock line e
          ({ r.2 with lastError := r.1 }, decide (r.1 ≠ .ok))
        else (e, false)

/-- The branch for `'\n'` and `'\r'`; `none` when the loop is left. -/
def endOfLine (c : Char8) (m : MainLoop σ) : Option (MainLoop σ) :=
  if m.line = [] ∧ m.eol.isSome ∧ m.eol ≠ some c then
    some { m with eol := none }
  else
    (h.protocolExecuteRealtime m.env).bind fun e =>
      let r := executeLine h m.flags.overflow m.line e
      let trace := m.trace ++ [.executed m.flags.overflow m.line]
      if h.aborted r.1 then none
      else
        some { eol := if r.2 then none else some c
               env := r.1
               trace := trace ++ [.statusMessage r.1.lastError] }

/-- The last branch: a character of the line. -/
def otherCharacter (c : Char8) (m : MainLoop σ) : MainLoop σ :=
  if c = asciiBS ∨ c = asciiDEL then
    if m.line = [] then m
    else
      let line := m.line.dropLast
      let r := recheckLine h line
      { m with line := line, flags := r.1, keepRtCommands := r.2 }
  else
    let r := commentCharacter h c (decide (m.line = [])) m.flags m.keepRtCommands
    if lineBufferSize - 1 ≤ m.line.length then
      { m with flags := { r.1 with overflow := true }, keepRtCommands := r.2 }
    else
      { m with flags := { r.1 with overflow := false }, keepRtCommands := r.2, line := m.line ++ [c] }

/-- One character of the input stream. -/
def readCharacter (m : MainLoop σ) (c : Char8) : Option (MainLoop σ) :=
  let m := { m with env := h.between m.env }
  if c = asciiCAN then
    some { m with eol := none, keepRtCommands := false, line := [], flags := {}
                  env := h.motionCancel { m.env with lastError := .ok } }
  else if c = asciiEOF then
    some { m with env := match h.onFileEnd with
                         | some onFileEnd => onFileEnd m.env.lastError m.env
                         | none => m.env }
  else if c = asciiLF ∨ c = asciiCR then endOfLine h c m
  else if c ≠ asciiBS ∧ c ≤ (if m.line = [] then blank else blank - 1) then some m
  else some (otherCharacter h c m)

/-- The stream `cs` read from a loop that has just been entered. -/
def protocolMainLoop (e : Env σ) (cs : List Char8) : Option (MainLoop σ) :=
  Lib.run (readCharacter h) { env := e } cs

end

end Grbl.Protocol
