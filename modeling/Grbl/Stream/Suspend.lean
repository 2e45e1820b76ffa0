import Grbl.Lib.Run
import Grbl.Stream.RxBuffer

/-!
# Suspending the input for a tool change

`stream_rx_suspend` and `await_toolchange_ack`, with reads through `hal.stream.read`; the functions of
the foreground run statement by statement, an interrupt comes between two statements.

* `Statement`, `streamRxSuspend`, `streamRxResume` : the foreground; `awaitToolchangeAck`, `receive` : the interrupt;
* `Input`, `Input.next` : the log of an input that is suspended, acknowledged and resumed;
* `Restored` : the log is one of these, and the handlers are the original ones when nothing is suspended;
* `Phase`, `Inv`, `Copying` : the invariant; `Action.Safe` : the condition; `restored_of_safe` : every safe run;
* `early_ack_blocks_input`, `late_ack_loses_input` : runs that are not.
-/

namespace Grbl.Stream.ToolChange
open Lib

def cmdToolAck : Byte := 0xA3

/-- What `hal.stream.read` may point to. -/
inductive ReadFn
  | serialGetC | streamGetNull
  deriving DecidableEq, Repr

/-- What the driver's `enqueue_realtime_command` may point to. -/
inductive Handler
  | protocolEnqueueRealtimeCommand | awaitToolchangeAck
  deriving DecidableEq, Repr

inductive Statement
  /-- the call through `hal.stream.read` -/
  | callRead
  /-- `tail = rxbuf.tail` -/
  | getTail
  /-- `if(tail == rxbuf.head) return -1` -/
  | returnIfEmpty
  /-- `data = rxbuf.data[tail]` -/
  | getData
  /-- `rxbuf.tail = BUFNEXT(tail, rxbuf)`, and the character is returned -/
  | putTail
  /-- `ok = stream.rxbuffer == NULL` -/
  | testSuspended
  /-- `stream.rxbuffer = rxbuffer` -/
  | setBuffer
  /-- `stream.read = hal.stream.read` -/
  | saveRead
  /-- `hal.stream.set_enqueue_rt_handler(await_toolchange_ack)` -/
  | installAwait
  /-- `stream.enqueue_realtime_command =` what that returns -/
  | saveHandler
  /-- `hal.stream.read = stream_get_null` -/
  | blockRead
  /-- `ok = stream.rxbuffer` -/
  | testBuffer
  /-- `if(rxbuffer->backup)` -/
  | testBackup
  /-- `memcpy(rxbuffer, &rxbackup, ..)`, member by member -/
  | copyHead | copyTail | copyFlags | copyData
  /-- `if(stream.enqueue_realtime_command)` -/
  | testHandler
  /-- `hal.stream.read = stream.read` -/
  | restoreRead
  /-- `hal.stream.set_enqueue_rt_handler(stream.enqueue_realtime_command)` -/
  | restoreHandler
  /-- `stream.enqueue_realtime_command = NULL` -/
  | clearHandler
  /-- `stream.rxbuffer = NULL` -/
  | clearBuffer
  deriving DecidableEq, Repr

def serialGetC : List Statement := [.getTail, .returnIfEmpty, .getData, .putTail]

/-- `memcpy` of the saved buffer -/
def restoreBuffer : List Statement := [.copyHead, .copyTail, .copyFlags, .copyData]

/-- `stream_rx_suspend(rxbuffer, true)` -/
def streamRxSuspend : List Statement :=
  [.testSuspended, .setBuffer, .saveRead, .installAwait, .saveHandler, .blockRead]

/-- `stream_rx_suspend(rxbuffer, false)`; the tests put the statements they guard in front of the rest. -/
def streamRxResume : List Statement := [.testBuffer, .testBackup, .testHandler, .clearBuffer]

inductive Call
  | read
  | suspend (suspend : Bool)
  deriving DecidableEq, Repr

def Call.body : Call → List Statement
  | read => [.callRead]
  | suspend true => streamRxSuspend
  | suspend false => streamRxResume

/-- What can be seen of a run. The input counts as suspended when the handler is installed, and as
resumed when the saved buffer is put back, or else when the call ends. -/
inductive Event
  | accepted (c : Byte)
  | dropped (c : Byte)
  | acknowledged
  | empty
  | returned (c : Byte)
  | suspended (ok : Bool)
  | resumed (ok : Bool)
  deriving DecidableEq, Repr

/-- The buffer and its backup, the `stream` structure (`rxbuffer` is NULL or the buffer), the two
function pointers, and the foreground with its local variables. A call through NULL sets `fault`. -/
structure Machine where
  rxbuf : RxBuffer := {}
  rxbackup : RxBuffer := {}
  rxbuffer : Bool := false
  savedRead : Option ReadFn := none
  savedHandler : Option Handler := none
  halRead : Option ReadFn := some .serialGetC
  handler : Handler := .protocolEnqueueRealtimeCommand
  todo : List Statement := []
  tail : ℕ := 0
  data : Byte := 0
  prev : Handler := .protocolEnqueueRealtimeCommand
  /-- the buffer has been put back in the call that is running -/
  putBack : Bool := false
  fault : Bool := false
  log : List Event := []

/-- What `protocol_enqueue_realtime_command` makes of a character: it is passed on, it is a realtime
command, or it is the reset command, which calls `stream_rx_suspend(false)`. -/
inductive Received
  | input | realtime | reset
  deriving DecidableEq, Repr

inductive Action
  | call (f : Call)
  | statement
  | receive (c : Byte) (r : Received)
  deriving DecidableEq, Repr

namespace Machine

def finish (m : Machine) (events : List Event) : Machine := { m with todo := [], log := m.log ++ events }

/-- One statement; `rest` are those that follow it. -/
def execute (m : Machine) (rest : List Statement) : Statement → Machine
  | .callRead =>
      match m.halRead with
      | none => { m with todo := [], fault := true }
      | some .streamGetNull => m.finish [.empty]
      | some .serialGetC => { m with todo := serialGetC }
  | .getTail => { m with tail := m.rxbuf.tail, todo := rest }
  | .returnIfEmpty => if m.tail = m.rxbuf.head then m.finish [.empty] else { m with todo := rest }
  | .getData => { m with data := m.rxbuf.data m.tail, todo := rest }
  | .putTail => { m with rxbuf := { m.rxbuf with tail := bufNext m.tail } }.finish [.returned m.data]
  | .testSuspended => if m.rxbuffer then m.finish [.suspended false] else { m with todo := rest }
  | .setBuffer => { m with rxbuffer := true, todo := rest }
  | .saveRead => { m with savedRead := m.halRead, todo := rest }
  | .installAwait =>
      { m with prev := m.handler, handler := .awaitToolchangeAck, todo := rest, log := m.log ++ [.suspended true] }
  | .saveHandler => { m with savedHandler := some m.prev, todo := rest }
  | .blockRead => { m with halRead := some .streamGetNull, todo := rest }
  | .testBuffer => if m.rxbuffer then { m with putBack := false, todo := rest } else m.finish [.resumed false]
  | .testBackup => if m.rxbuf.backup then { m with todo := restoreBuffer ++ rest } else { m with todo := rest }
  | .copyHead => { m with rxbuf := { m.rxbuf with head := m.rxbackup.head }, todo := rest }
  | .copyTail => { m with rxbuf := { m.rxbuf with tail := m.rxbackup.tail }, todo := rest }
  | .copyFlags =>
      { m with rxbuf := { m.rxbuf with overflow := m.rxbackup.overflow, backup := m.rxbackup.backup }, todo := rest }
  | .copyData =>
      { m with
        rxbuf := { m.rxbuf with data := m.rxbackup.data }
        putBack := true
        todo := rest
        log := m.log ++ [.resumed true] }
  | .testHandler =>
      if m.savedHandler.isSome then { m with todo := [.restoreRead, .restoreHandler, .clearHandler] ++ rest }
      else { m with todo := rest }
  | .restoreRead => { m with halRead := m.savedRead, todo := rest }
  | .restoreHandler => { m with handler := m.savedHandler.getD m.handler, todo := rest }
  | .clearHandler => { m with savedHandler := none, todo := rest }
  | .clearBuffer => { m with rxbuffer := false }.finish (if m.putBack then [] else [.resumed true])

/-- A character goes into the buffer. -/
def input (m : Machine) (c : Byte) : Machine :=
  { m with
    rxbuf := m.rxbuf.rxInterrupt c
    log := m.log ++ [if bufNext m.rxbuf.head = m.rxbuf.tail then .dropped c else .accepted c] }

/-- `stream_rx_suspend(rxbuffer, false)` called in the interrupt. -/
def resume (m : Machine) : Machine :=
  if m.rxbuffer then
    let m := if m.rxbuf.backup then { m with rxbuf := m.rxbackup } else m
    let m :=
      match m.savedHandler with
      | some h => { m with halRead := m.savedRead, handler := h, savedHandler := none }
      | none => m
    { m with rxbuffer := false, log := m.log ++ [Event.resumed true] }
  else { m with log := m.log ++ [Event.resumed false] }

/-- `protocol_enqueue_realtime_command`, and what the receive interrupt does with its result. -/
def protocolEnqueue (m : Machine) (c : Byte) : Received → Machine
  | .input => m.input c
  | .realtime => m
  | .reset => m.resume

def awaitToolchangeAck (m : Machine) (c : Byte) (r : Received) : Machine :=
  if c = cmdToolAck ∧ m.rxbuffer = false then { m with fault := true }
  else if c = cmdToolAck ∧ m.rxbuf.backup = false then
    { m with
      rxbackup := m.rxbuf
      rxbuf := { m.rxbuf with backup := true, tail := m.rxbuf.head }
      halRead := m.savedRead
      handler := m.savedHandler.getD m.handler
      savedHandler := none
      log := m.log ++ [.acknowledged] }
  else
    match m.savedHandler with
    | some .protocolEnqueueRealtimeCommand => m.protocolEnqueue c r
    | _ => { m with fault := true }

/-- One character in the receive interrupt. -/
def receive (m : Machine) (c : Byte) (r : Received) : Machine :=
  match m.handler with
  | .protocolEnqueueRealtimeCommand => m.protocolEnqueue c r
  | .awaitToolchangeAck => m.awaitToolchangeAck c r

end Machine

def step (m : Machine) : Action → Option Machine
  | .call f => if m.todo = [] then some { m with todo := f.body } else none
  | .statement =>
      match m.todo with
      | [] => none
      | s :: rest => some (m.execute rest s)
  | .receive c r => some (m.receive c r)

/-! ## What a log should be -/

inductive Mode
  | normal | suspended | acknowledged
  deriving DecidableEq, Repr

/-- The reference: the unread characters, and those that were unread at the acknowledge. -/
structure Input where
  mode : Mode := .normal
  unread : List Byte := []
  saved : List Byte := []
  deriving DecidableEq, Repr

/-- What may happen next. While suspended nothing is read; between acknowledge and resume only what has
come since; after the resume what was unread at the acknowledge, in order. -/
def Input.next (i : Input) : Event → Option Input
  | .accepted c => some { i with unread := i.unread ++ [c] }
  | .dropped _ => some i
  | .acknowledged =>
      if i.mode = .suspended then some { mode := .acknowledged, unread := [], saved := i.unread } else none
  | .empty => if i.mode = .suspended ∨ i.unread = [] then some i else none
  | .returned c =>
      if i.mode ≠ .suspended ∧ i.unread.head? = some c then some { i with unread := i.unread.tail } else none
  | .suspended ok =>
      if ok = decide (i.mode = .normal) then some { i with mode := if i.mode = .normal then .suspended else i.mode }
      else none
  | .resumed ok =>
      if ok = decide (i.mode ≠ .normal) then
        some { i with mode := .normal, unread := if i.mode = .acknowledged then i.saved else i.unread }
      else none

/-- The program is preserved: no call goes through NULL, the log is one of the reference, and between
calls what is unread is in the buffer, and `hal.stream.read` and the realtime handler are the original
ones unless the input is suspended and not acknowledged. -/
def Restored (m : Machine) : Prop :=
  m.fault = false ∧ ∃ i, run Input.next {} m.log = some i ∧
    (m.todo = [] → i.unread = m.rxbuf.unread ∧
      (i.mode ≠ .suspended → m.halRead = some .serialGetC ∧ m.handler = .protocolEnqueueRealtimeCommand))

/-! ## The condition -/

/-- No function is in progress in the foreground; one that has been called may be about to start. -/
def Machine.Idle (m : Machine) : Prop :=
  m.todo = [] ∨ m.todo = [.callRead] ∨ m.todo = streamRxSuspend ∨ m.todo = streamRxResume

def Machine.Copies (m : Machine) : Prop :=
  m.todo = [.copyTail, .copyFlags, .copyData, .testHandler, .clearBuffer] ∨
    m.todo = [.copyFlags, .copyData, .testHandler, .clearBuffer] ∨ m.todo = [.copyData, .testHandler, .clearBuffer]

/-- What the interrupt must not bring: a character between the installation of the handler and the
saving of the previous one, an acknowledge before the call that suspends has blocked the reads or after
a resume has found no backup, a reset while a call is in progress with the input suspended, and a character
for the buffer while the saved one is copied into it. -/
def Action.Safe (m : Machine) : Action → Prop
  | .receive c r =>
      m.todo ≠ [.saveHandler, .blockRead] ∧
      (m.handler = .awaitToolchangeAck → m.todo = [.blockRead] ∨ m.todo = [.testHandler, .clearBuffer] ∨
        m.todo = [.restoreRead, .restoreHandler, .clearHandler, .clearBuffer] ∨
        m.todo = [.restoreHandler, .clearHandler, .clearBuffer] → c ≠ cmdToolAck) ∧
      (r = .reset → m.rxbuffer = false ∨ m.Idle) ∧ (r = .input → ¬ m.Copies)
  | _ => True

instance (m : Machine) (a : Action) : Decidable (a.Safe m) := by
  unfold Action.Safe Machine.Idle Machine.Copies
  split <;> infer_instance

/-! ## The invariant -/

/-- Nothing is suspended; in the middle of a call `stream.rxbuffer` may be set. -/
structure Plain (rxbuffer : Bool) (m : Machine) (i : Input) : Prop where
  mode : i.mode = .normal
  rxbuffer : m.rxbuffer = rxbuffer
  savedHandler : m.savedHandler = none
  halRead : m.halRead = some .serialGetC
  handler : m.handler = .protocolEnqueueRealtimeCommand
  backup : m.rxbuf.backup = false

structure Awaiting (m : Machine) (i : Input) : Prop where
  mode : i.mode = .suspended
  rxbuffer : m.rxbuffer = true
  savedRead : m.savedRead = some .serialGetC
  savedHandler : m.savedHandler = some .protocolEnqueueRealtimeCommand
  handler : m.handler = .awaitToolchangeAck
  backup : m.rxbuf.backup = false

structure Acknowledged (m : Machine) (i : Input) : Prop where
  mode : i.mode = .acknowledged
  rxbuffer : m.rxbuffer = true
  savedHandler : m.savedHandler = none
  halRead : m.halRead = some .serialGetC
  handler : m.handler = .protocolEnqueueRealtimeCommand
  backup : m.rxbuf.backup = true
  saved : i.saved = m.rxbackup.unread
  rxbackup : m.rxbackup.Ok
  rxbackup_backup : m.rxbackup.backup = false

/-- The handler has been restored without an acknowledge. -/
structure Reopened (m : Machine) (i : Input) : Prop where
  mode : i.mode = .suspended
  rxbuffer : m.rxbuffer = true
  halRead : m.halRead = some .serialGetC
  handler : m.handler = .protocolEnqueueRealtimeCommand
  backup : m.rxbuf.backup = false

def Blocked (m : Machine) (i : Input) : Prop := Awaiting m i ∧ m.halRead = some .streamGetNull

abbrev Open (m : Machine) (i : Input) : Prop := Plain false m i ∨ Acknowledged m i

/-- No call is changing anything. -/
abbrev Settled (m : Machine) (i : Input) : Prop := Plain false m i ∨ Blocked m i ∨ Acknowledged m i

/-- Where the foreground is. -/
inductive Phase (m : Machine) (i : Input) : Prop
  | idle (todo : m.Idle) (base : Settled m i)
  | read (todo : m.todo = serialGetC) (base : Open m i)
  | readTail (todo : m.todo = [.returnIfEmpty, .getData, .putTail]) (base : Open m i)
      (tail : m.tail = m.rxbuf.tail)
  | readTested (todo : m.todo = [.getData, .putTail]) (base : Open m i)
      (tail : m.tail = m.rxbuf.tail) (some : m.rxbuf.tail ≠ m.rxbuf.head)
  | readData (todo : m.todo = [.putTail]) (base : Open m i)
      (tail : m.tail = m.rxbuf.tail) (some : m.rxbuf.tail ≠ m.rxbuf.head) (data : m.data = m.rxbuf.data m.rxbuf.tail)
  | setBuffer (todo : m.todo = [.setBuffer, .saveRead, .installAwait, .saveHandler, .blockRead]) (base : Plain false m i)
  | saveRead (todo : m.todo = [.saveRead, .installAwait, .saveHandler, .blockRead]) (base : Plain true m i)
  | installAwait (todo : m.todo = [.installAwait, .saveHandler, .blockRead]) (base : Plain true m i)
      (savedRead : m.savedRead = some .serialGetC)
  | saveHandler (todo : m.todo = [.saveHandler, .blockRead]) (mode : i.mode = .suspended) (rxbuffer : m.rxbuffer = true)
      (savedRead : m.savedRead = some .serialGetC) (prev : m.prev = .protocolEnqueueRealtimeCommand)
      (handler : m.handler = .awaitToolchangeAck) (backup : m.rxbuf.backup = false)
  | blockRead (todo : m.todo = [.blockRead]) (base : Awaiting m i)
  | testBackup (todo : m.todo = [.testBackup, .testHandler, .clearBuffer]) (putBack : m.putBack = false)
      (base : Blocked m i ∨ Acknowledged m i)
  | restoreBuffer (todo : m.todo = [.copyHead, .copyTail, .copyFlags, .copyData, .testHandler, .clearBuffer])
      (base : Acknowledged m i)
  | testHandler (todo : m.todo = [.testHandler, .clearBuffer])
      (base : m.putBack = true ∧ Plain true m i ∨ m.putBack = false ∧ Blocked m i)
  | restoreRead (todo : m.todo = [.restoreRead, .restoreHandler, .clearHandler, .clearBuffer]) (putBack : m.putBack = false)
      (base : Blocked m i)
  | restoreHandler (todo : m.todo = [.restoreHandler, .clearHandler, .clearBuffer]) (putBack : m.putBack = false)
      (base : Awaiting m i) (halRead : m.halRead = some .serialGetC)
  | clearHandler (todo : m.todo = [.clearHandler, .clearBuffer]) (putBack : m.putBack = false) (base : Reopened m i)
  | clearBuffer (todo : m.todo = [.clearBuffer])
      (base : m.putBack = true ∧ Plain true m i ∨ m.putBack = false ∧ Reopened m i ∧ m.savedHandler = none)

structure Inv (m : Machine) (i : Input) : Prop where
  fault : m.fault = false
  log : run Input.next {} m.log = some i
  ok : m.rxbuf.Ok
  unread : i.unread = m.rxbuf.unread
  phase : Phase m i

/-- While the saved buffer is copied back; the members that have been copied are those of the backup. -/
structure Copying (m : Machine) (i : Input) : Prop where
  fault : m.fault = false
  log : run Input.next {} m.log = some i
  mode : i.mode = .acknowledged
  rxbuffer : m.rxbuffer = true
  savedHandler : m.savedHandler = none
  halRead : m.halRead = some .serialGetC
  handler : m.handler = .protocolEnqueueRealtimeCommand
  saved : i.saved = m.rxbackup.unread
  rxbackup : m.rxbackup.Ok
  rxbackup_backup : m.rxbackup.backup = false
  head : m.rxbuf.head = m.rxbackup.head
  copied : m.todo = [.copyTail, .copyFlags, .copyData, .testHandler, .clearBuffer] ∨
    m.rxbuf.tail = m.rxbackup.tail ∧ (m.todo = [.copyFlags, .copyData, .testHandler, .clearBuffer] ∨
      (m.rxbuf.overflow = m.rxbackup.overflow ∧ m.rxbuf.backup = m.rxbackup.backup) ∧
        m.todo = [.copyData, .testHandler, .clearBuffer])

section
variable {m m' : Machine} {i i' : Input} {c : Byte}

theorem log_concat {e : Event} (h : run Input.next {} m.log = some i) (he : i.next e = some i') :
    run Input.next {} (m.log ++ [e]) = some i' := run_concat_eq_some.2 ⟨i, h, he⟩

/-! ## A character goes into the buffer -/

theorem rxInterrupt_backup (b : RxBuffer) (c : Byte) : (b.rxInterrupt c).backup = b.backup := by
  unfold RxBuffer.rxInterrupt
  dsimp only
  split <;> rfl

theorem rxInterrupt_tail (b : RxBuffer) (c : Byte) : (b.rxInterrupt c).tail = b.tail := by
  unfold RxBuffer.rxInterrupt
  dsimp only
  split <;> rfl

theorem rxInterrupt_first {b : RxBuffer} (hne : b.tail ≠ b.head) (c : Byte) :
    (b.rxInterrupt c).tail ≠ (b.rxInterrupt c).head ∧ (b.rxInterrupt c).data b.tail = b.data b.tail := by
  unfold RxBuffer.rxInterrupt
  dsimp only
  split
  case isTrue => exact ⟨hne, rfl⟩
  case isFalse hroom => exact ⟨fun he => hroom he.symm, Function.update_of_ne hne _ _⟩

/-! ## What only touches the buffer and the log -/

variable {b : RxBuffer} {log : List Event}

theorem Plain.frame {rx : Bool} (h : Plain rx m i) (hb : b.backup = m.rxbuf.backup) (hmode : i'.mode = i.mode) :
    Plain rx { m with rxbuf := b, log := log } i' :=
  ⟨hmode.trans h.mode, h.rxbuffer, h.savedHandler, h.halRead, h.handler, hb.trans h.backup⟩

theorem Awaiting.frame (h : Awaiting m i) (hb : b.backup = m.rxbuf.backup) (hmode : i'.mode = i.mode) :
    Awaiting { m with rxbuf := b, log := log } i' :=
  ⟨hmode.trans h.mode, h.rxbuffer, h.savedRead, h.savedHandler, h.handler, hb.trans h.backup⟩

theorem Acknowledged.frame (h : Acknowledged m i) (hb : b.backup = m.rxbuf.backup) (hmode : i'.mode = i.mode)
    (hsaved : i'.saved = i.saved) : Acknowledged { m with rxbuf := b, log := log } i' :=
  ⟨hmode.trans h.mode, h.rxbuffer, h.savedHandler, h.halRead, h.handler, hb.trans h.backup, hsaved.trans h.saved,
    h.rxbackup, h.rxbackup_backup⟩

theorem Reopened.frame (h : Reopened m i) (hb : b.backup = m.rxbuf.backup) (hmode : i'.mode = i.mode) :
    Reopened { m with rxbuf := b, log := log } i' :=
  ⟨hmode.trans h.mode, h.rxbuffer, h.halRead, h.handler, hb.trans h.backup⟩

theorem Phase.frame (h : Phase m i) (hb : b.backup = m.rxbuf.backup) (htail : b.tail = m.rxbuf.tail)
    (hfirst : m.rxbuf.tail ≠ m.rxbuf.head → b.tail ≠ b.head ∧ b.data m.rxbuf.tail = m.rxbuf.data m.rxbuf.tail)
    (hmode : i'.mode = i.mode) (hsaved : i'.saved = i.saved) : Phase { m with rxbuf := b, log := log } i' := by
  have hplain : ∀ {rx}, Plain rx m i → Plain rx { m with rxbuf := b, log := log } i' := fun h => h.frame hb hmode
  have hack : Acknowledged m i → Acknowledged { m with rxbuf := b, log := log } i' := fun h => h.frame hb hmode hsaved
  have hawait : Awaiting m i → Awaiting { m with rxbuf := b, log := log } i' := fun h => h.frame hb hmode
  have hblocked : Blocked m i → Blocked { m with rxbuf := b, log := log } i' := fun h => ⟨hawait h.1, h.2⟩
  cases h with
  | idle todo base => exact .idle todo (base.imp hplain (Or.imp hblocked hack))
  | read todo base => exact .read todo (base.imp hplain hack)
  | readTail todo base tail => exact .readTail todo (base.imp hplain hack) (tail.trans htail.symm)
  | readTested todo base tail some =>
      exact .readTested todo (base.imp hplain hack) (tail.trans htail.symm) (hfirst some).1
  | readData todo base tail some data =>
      refine .readData todo (base.imp hplain hack) (tail.trans htail.symm) (hfirst some).1 ?_
      dsimp only
      rw [htail, (hfirst some).2]
      exact data
  | setBuffer todo base => exact .setBuffer todo (hplain base)
  | saveRead todo base => exact .saveRead todo (hplain base)
  | installAwait todo base savedRead => exact .installAwait todo (hplain base) savedRead
  | saveHandler todo mode rxbuffer savedRead prev handler backup =>
      exact .saveHandler todo (hmode.trans mode) rxbuffer savedRead prev handler (hb.trans backup)
  | blockRead todo base => exact .blockRead todo (hawait base)
  | testBackup todo putBack base => exact .testBackup todo putBack (base.imp hblocked hack)
  | restoreBuffer todo base => exact .restoreBuffer todo (hack base)
  | testHandler todo base => exact .testHandler todo (base.imp (And.imp_right hplain) (And.imp_right hblocked))
  | restoreRead todo putBack base => exact .restoreRead todo putBack (hblocked base)
  | restoreHandler todo putBack base halRead => exact .restoreHandler todo putBack (hawait base) halRead
  | clearHandler todo putBack base => exact .clearHandler todo putBack (base.frame hb hmode)
  | clearBuffer todo base =>
      exact .clearBuffer todo (base.imp (And.imp_right hplain) fun h => ⟨h.1, h.2.1.frame hb hmode, h.2.2⟩)

theorem Inv.noted (h : Inv m i) {e : Event} (he : i.next e = some i) : Inv { m with log := m.log ++ [e] } i :=
  ⟨h.fault, log_concat h.log he, h.ok, h.unread, h.phase.frame rfl rfl (fun hne => ⟨hne, rfl⟩) rfl rfl⟩

theorem Inv.input (h : Inv m i) (c : Byte) : ∃ i', Inv (m.input c) i' := by
  have hphase : ∀ i' : Input, i'.mode = i.mode → i'.saved = i.saved → Phase (m.input c) i' := fun i' =>
    h.phase.frame (rxInterrupt_backup _ _) (rxInterrupt_tail _ _) fun hne => rxInterrupt_first hne c
  by_cases hfull : bufNext m.rxbuf.head = m.rxbuf.tail
  · refine ⟨i, h.fault, log_concat h.log ?_, h.ok.rxInterrupt c, ?_, hphase i rfl rfl⟩
    · rw [if_pos hfull]
      rfl
    · rw [h.unread, Machine.input, RxBuffer.rxInterrupt_full hfull]
      rfl
  · refine ⟨{ i with unread := i.unread ++ [c] }, h.fault, log_concat h.log ?_, h.ok.rxInterrupt c, ?_,
      hphase _ rfl rfl⟩
    · rw [if_neg hfull]
      rfl
    · exact (congrArg (· ++ [c]) h.unread).trans (RxBuffer.rxInterrupt_unread h.ok hfull c).symm

/-! ## The interrupt -/

theorem Phase.mode_normal (h : Phase m i) (hrx : m.rxbuffer = false) : i.mode = .normal := by
  cases h with
  | idle _ base =>
      rcases base with h | h | h
      · exact h.mode
      · exact absurd (hrx.symm.trans h.1.rxbuffer) Bool.false_ne_true
      · exact absurd (hrx.symm.trans h.rxbuffer) Bool.false_ne_true
  | read _ base | readTail _ base | readTested _ base | readData _ base =>
      rcases base with h | h
      · exact h.mode
      · exact absurd (hrx.symm.trans h.rxbuffer) Bool.false_ne_true
  | setBuffer _ base | saveRead _ base | installAwait _ base => exact base.mode
  | saveHandler _ _ rxbuffer => exact absurd (hrx.symm.trans rxbuffer) Bool.false_ne_true
  | blockRead _ base => exact absurd (hrx.symm.trans base.rxbuffer) Bool.false_ne_true
  | testBackup _ _ base =>
      rcases base with h | h
      · exact absurd (hrx.symm.trans h.1.rxbuffer) Bool.false_ne_true
      · exact absurd (hrx.symm.trans h.rxbuffer) Bool.false_ne_true
  | restoreBuffer _ base => exact absurd (hrx.symm.trans base.rxbuffer) Bool.false_ne_true
  | testHandler _ base =>
      rcases base with h | h
      · exact h.2.mode
      · exact absurd (hrx.symm.trans h.2.1.rxbuffer) Bool.false_ne_true
  | restoreRead _ _ base => exact absurd (hrx.symm.trans base.1.rxbuffer) Bool.false_ne_true
  | restoreHandler _ _ base => exact absurd (hrx.symm.trans base.rxbuffer) Bool.false_ne_true
  | clearHandler _ _ base => exact absurd (hrx.symm.trans base.rxbuffer) Bool.false_ne_true
  | clearBuffer _ base =>
      rcases base with h | h
      · exact h.2.mode
      · exact absurd (hrx.symm.trans h.2.1.rxbuffer) Bool.false_ne_true

theorem Phase.of_idle (h : Phase m i) (hidle : m.Idle) : Settled m i := by
  have hne : ∀ l : List Statement, m.todo = l → l ≠ [] → l ≠ [.callRead] → l ≠ streamRxSuspend →
      l ≠ streamRxResume → False := by
    rintro l hl h₁ h₂ h₃ h₄
    rw [Machine.Idle, hl] at hidle
    simp only [h₁, h₂, h₃, h₄, or_self] at hidle
  cases h with
  | idle _ base => exact base
  | read todo | readTail todo | readTested todo | readData todo | setBuffer todo | saveRead todo | installAwait todo
  | saveHandler todo | blockRead todo | testBackup todo | restoreBuffer todo | testHandler todo | restoreRead todo
  | restoreHandler todo | clearHandler todo | clearBuffer todo =>
      exact (hne _ todo (by decide) (by decide) (by decide) (by decide)).elim

theorem Inv.resume (h : Inv m i) (hsafe : m.rxbuffer = false ∨ m.Idle) : ∃ i', Inv m.resume i' := by
  cases hrx : m.rxbuffer with
  | false =>
      have hresume : m.resume = { m with log := m.log ++ [.resumed false] } := by simp only [Machine.resume, hrx]; rfl
      refine ⟨i, hresume ▸ h.noted ?_⟩
      have hmode := h.phase.mode_normal hrx
      obtain ⟨mode, unread, saved⟩ := i
      cases hmode
      rfl
  | true =>
      have hidle := hsafe.resolve_left (by rw [hrx]; exact Bool.false_ne_true.symm)
      rcases h.phase.of_idle hidle with hb | ⟨hb, -⟩ | hb
      · exact absurd (hb.rxbuffer.symm.trans hrx) Bool.false_ne_true
      · have hresume : m.resume = { m with
            rxbuffer := false
            halRead := m.savedRead
            handler := .protocolEnqueueRealtimeCommand
            savedHandler := none
            log := m.log ++ [.resumed true] } := by
          unfold Machine.resume
          rw [if_pos hrx, if_neg (ne_true_of_eq_false hb.backup)]
          dsimp only
          rw [hb.savedHandler]
        rw [hresume]
        refine ⟨{ i with mode := .normal }, h.fault, log_concat h.log ?_, h.ok, h.unread, .idle hidle (Or.inl ?_)⟩
        · simp only [Input.next, hb.mode]
          rfl
        · exact ⟨rfl, rfl, rfl, hb.savedRead, rfl, hb.backup⟩
      · have hresume : m.resume = { m with
            rxbuf := m.rxbackup
            rxbuffer := false
            log := m.log ++ [.resumed true] } := by
          unfold Machine.resume
          rw [if_pos hrx, if_pos hb.backup]
          dsimp only
          rw [hb.savedHandler]
        rw [hresume]
        refine ⟨{ i with mode := .normal, unread := i.saved }, h.fault, log_concat h.log ?_, hb.rxbackup, hb.saved,
          .idle hidle (Or.inl ?_)⟩
        · simp only [Input.next, hb.mode]
          rfl
        · exact ⟨rfl, rfl, hb.savedHandler, hb.halRead, hb.handler, hb.rxbackup_backup⟩

theorem Inv.protocolEnqueue (h : Inv m i) {r : Received} (hsafe : r = .reset → m.rxbuffer = false ∨ m.Idle) :
    ∃ i', Inv (m.protocolEnqueue c r) i' := by
  cases r with
  | input => exact h.input c
  | realtime => exact ⟨i, h⟩
  | reset => exact h.resume (hsafe rfl)

/-- The acknowledge, where the call that suspends is over and the one that resumes has not looked for it. -/
theorem Inv.acknowledge (h : Inv m i) (hb : Blocked m i)
    (htodo : m.Idle ∨ m.todo = [.testBackup, .testHandler, .clearBuffer] ∧ m.putBack = false) (r : Received) :
    ∃ i', Inv (m.awaitToolchangeAck cmdToolAck r) i' := by
  obtain ⟨hb, -⟩ := hb
  have hack : m.awaitToolchangeAck cmdToolAck r = { m with
      rxbackup := m.rxbuf
      rxbuf := { m.rxbuf with backup := true, tail := m.rxbuf.head }
      halRead := m.savedRead
      handler := .protocolEnqueueRealtimeCommand
      savedHandler := none
      log := m.log ++ [.acknowledged] } := by
    simp only [Machine.awaitToolchangeAck, hb.rxbuffer, hb.backup, hb.savedHandler]
    rfl
  rw [hack]
  refine ⟨{ mode := .acknowledged, unread := [], saved := i.unread }, h.fault, log_concat h.log (if_pos hb.mode),
    ⟨h.ok.head, h.ok.head⟩, contents_self.symm, ?_⟩
  rcases htodo with hidle | ⟨htodo, hputBack⟩
  · refine .idle hidle (Or.inr (Or.inr ?_))
    exact ⟨rfl, hb.rxbuffer, rfl, hb.savedRead, rfl, rfl, h.unread, h.ok, hb.backup⟩
  · refine .testBackup htodo hputBack (Or.inr ?_)
    exact ⟨rfl, hb.rxbuffer, rfl, hb.savedRead, rfl, rfl, h.unread, h.ok, hb.backup⟩

theorem Awaiting.passed (h : Awaiting m i) (hc : c ≠ cmdToolAck) (r : Received) :
    m.receive c r = m.protocolEnqueue c r := by
  simp only [Machine.receive, h.handler, Machine.awaitToolchangeAck, hc, false_and, if_false, h.savedHandler]

theorem receive_direct (h : m.handler = .protocolEnqueueRealtimeCommand) (r : Received) :
    m.receive c r = m.protocolEnqueue c r := by
  simp only [Machine.receive, h]

theorem Inv.awaited (h : Inv m i) {r : Received} (hb : Awaiting m i) (hc : c ≠ cmdToolAck)
    (hreset : r = .reset → m.rxbuffer = false ∨ m.Idle) : ∃ i', Inv (m.receive c r) i' := by
  rw [hb.passed hc]
  exact h.protocolEnqueue hreset

theorem Inv.direct (h : Inv m i) {r : Received} (hb : m.handler = .protocolEnqueueRealtimeCommand)
    (hreset : r = .reset → m.rxbuffer = false ∨ m.Idle) : ∃ i', Inv (m.receive c r) i' := by
  rw [receive_direct hb]
  exact h.protocolEnqueue hreset

theorem Inv.blocked (h : Inv m i) {r : Received} (hb : Blocked m i)
    (htodo : m.Idle ∨ m.todo = [.testBackup, .testHandler, .clearBuffer] ∧ m.putBack = false)
    (hreset : r = .reset → m.rxbuffer = false ∨ m.Idle) : ∃ i', Inv (m.receive c r) i' := by
  by_cases hc : c = cmdToolAck
  · rw [Machine.receive, hb.1.handler, hc]
    exact h.acknowledge hb htodo r
  · exact h.awaited hb.1 hc hreset

theorem Inv.receive (h : Inv m i) {r : Received} (hsafe : Action.Safe m (.receive c r)) :
    ∃ i', Inv (m.receive c r) i' := by
  obtain ⟨hinstalling, hearly, hreset, -⟩ := hsafe
  cases h.phase with
  | idle todo base =>
      rcases base with hb | hb | hb
      · exact h.direct hb.handler hreset
      · exact h.blocked hb (Or.inl todo) hreset
      · exact h.direct hb.handler hreset
  | read _ base | readTail _ base | readTested _ base | readData _ base =>
      exact h.direct (base.elim Plain.handler Acknowledged.handler) hreset
  | setBuffer _ base | saveRead _ base | installAwait _ base => exact h.direct base.handler hreset
  | saveHandler todo => exact absurd todo hinstalling
  | blockRead todo base => exact h.awaited base (hearly base.handler (Or.inl todo)) hreset
  | testBackup todo putBack base =>
      rcases base with hb | hb
      · exact h.blocked hb (Or.inr ⟨todo, putBack⟩) hreset
      · exact h.direct hb.handler hreset
  | restoreBuffer _ base => exact h.direct base.handler hreset
  | testHandler todo base =>
      rcases base with ⟨-, hb⟩ | ⟨-, hb⟩
      · exact h.direct hb.handler hreset
      · exact h.awaited hb.1 (hearly hb.1.handler (Or.inr (Or.inl todo))) hreset
  | restoreRead todo _ base =>
      exact h.awaited base.1 (hearly base.1.handler (Or.inr (Or.inr (Or.inl todo)))) hreset
  | restoreHandler todo _ base => exact h.awaited base (hearly base.handler (Or.inr (Or.inr (Or.inr todo)))) hreset
  | clearHandler _ _ base => exact h.direct base.handler hreset
  | clearBuffer _ base =>
      rcases base with ⟨-, hb⟩ | ⟨-, hb, -⟩
      · exact h.direct hb.handler hreset
      · exact h.direct hb.handler hreset

/-! ## The foreground -/

variable {rest : List Statement}

theorem Inv.quiet (h : Inv m i) (hfault : m'.fault = m.fault) (hlog : m'.log = m.log) (hrxbuf : m'.rxbuf = m.rxbuf)
    (hphase : Phase m' i) : Inv m' i :=
  ⟨hfault.trans h.fault, (congrArg _ hlog).trans h.log, hrxbuf.symm ▸ h.ok, h.unread.trans (by rw [hrxbuf]), hphase⟩

theorem Inv.logged (h : Inv m i) {e : Event} (he : i.next e = some i') (hfault : m'.fault = m.fault)
    (hlog : m'.log = m.log ++ [e]) (hrxbuf : m'.rxbuf = m.rxbuf) (hunread : i'.unread = i.unread)
    (hphase : Phase m' i') : Inv m' i' :=
  ⟨hfault.trans h.fault, (congrArg _ hlog).trans (log_concat h.log he), hrxbuf.symm ▸ h.ok,
    hunread.trans (h.unread.trans (by rw [hrxbuf])), hphase⟩

theorem Plain.moved {rx : Bool} (h : Plain rx m i) (todo : List Statement) (tail : ℕ) (data : Byte) (log : List Event) :
    Plain rx { m with todo := todo, tail := tail, data := data, log := log } i :=
  ⟨h.mode, h.rxbuffer, h.savedHandler, h.halRead, h.handler, h.backup⟩

theorem Acknowledged.moved (h : Acknowledged m i) (todo : List Statement) (tail : ℕ) (data : Byte) (log : List Event) :
    Acknowledged { m with todo := todo, tail := tail, data := data, log := log } i :=
  ⟨h.mode, h.rxbuffer, h.savedHandler, h.halRead, h.handler, h.backup, h.saved, h.rxbackup, h.rxbackup_backup⟩

theorem Blocked.moved (h : Blocked m i) (todo : List Statement) (log : List Event) :
    Blocked { m with todo := todo, log := log } i :=
  ⟨⟨h.1.mode, h.1.rxbuffer, h.1.savedRead, h.1.savedHandler, h.1.handler, h.1.backup⟩, h.2⟩

/-! ### Reading -/

theorem Open.moved (h : Open m i) (todo : List Statement) (tail : ℕ) (data : Byte) (log : List Event) :
    Open { m with todo := todo, tail := tail, data := data, log := log } i :=
  h.imp (fun h => h.moved todo tail data log) fun h => h.moved todo tail data log

theorem Settled.moved (h : Settled m i) (todo : List Statement) (log : List Event) :
    Settled { m with todo := todo, log := log } i :=
  h.imp (fun h => h.moved todo m.tail m.data log)
    (Or.imp (fun h => h.moved todo log) fun h => h.moved todo m.tail m.data log)

theorem Open.idle (h : Open m i) (htodo : m.todo = []) : Phase m i :=
  .idle (Or.inl htodo) (h.imp_right Or.inr)

theorem Open.not_suspended (h : Open m i) : i.mode ≠ .suspended := by
  rcases h with h | h <;> rw [h.mode] <;> decide

theorem Open.halRead (h : Open m i) : m.halRead = some .serialGetC := h.elim Plain.halRead Acknowledged.halRead

theorem Inv.callRead (h : Inv m i) (hb : Settled m i) :
    Inv (m.execute rest .callRead) i := by
  have hopen : Open m i → Inv (m.execute rest .callRead) i := by
    intro hopen
    have hexec : m.execute rest .callRead = { m with todo := serialGetC } := by
      simp only [Machine.execute, hopen.halRead]
    rw [hexec]
    exact h.quiet rfl rfl rfl (.read rfl (hopen.moved _ _ _ _))
  rcases hb with hb | hb | hb
  · exact hopen (Or.inl hb)
  · have hexec : m.execute rest .callRead = m.finish [.empty] := by simp only [Machine.execute, hb.2]
    rw [hexec]
    exact h.logged (e := .empty) (if_pos (Or.inl hb.1.mode)) rfl rfl rfl rfl
      (.idle (Or.inl rfl) (Or.inr (Or.inl (hb.moved _ _))))
  · exact hopen (Or.inr hb)

theorem Inv.returnIfEmpty (h : Inv m i) (hb : Open m i) (htail : m.tail = m.rxbuf.tail) :
    Inv (m.execute [.getData, .putTail] .returnIfEmpty) i := by
  unfold Machine.execute
  dsimp only
  split
  case isTrue hempty =>
    have hnil : i.unread = [] := by rw [h.unread, h.ok.unread_eq_nil, ← htail, hempty]
    exact h.logged (e := .empty) (if_pos (Or.inr hnil)) rfl rfl rfl rfl (Open.idle (hb.moved _ _ _ _) rfl)
  case isFalse hsome =>
    rw [htail] at hsome
    exact h.quiet rfl rfl rfl (.readTested rfl (hb.moved _ _ _ _) htail hsome)

theorem Inv.putTail (h : Inv m i) (hb : Open m i) (htail : m.tail = m.rxbuf.tail) (hsome : m.rxbuf.tail ≠ m.rxbuf.head)
    (hdata : m.data = m.rxbuf.data m.rxbuf.tail) : ∃ i', Inv (m.execute rest .putTail) i' := by
  have hunread : i.unread = m.data :: contents top m.rxbuf.data (bufNext m.tail) m.rxbuf.head := by
    rw [h.unread, RxBuffer.unread, contents_pop h.ok.tail h.ok.head hsome, hdata, htail, bufNext_eq h.ok.tail]
  have hreturned : i.next (.returned m.data) = some { i with unread := i.unread.tail } := by
    refine if_pos ⟨hb.not_suspended, ?_⟩
    rw [hunread]
    rfl
  have hlt : bufNext m.tail < top + 1 := by
    rw [htail, bufNext_eq h.ok.tail]
    exact ringNext_lt h.ok.tail
  have hopen : Open (m.execute rest .putTail) { i with unread := i.unread.tail } := by
    refine hb.imp (fun hb => ?_) fun hb => ?_
    · exact ⟨hb.mode, hb.rxbuffer, hb.savedHandler, hb.halRead, hb.handler, hb.backup⟩
    · exact ⟨hb.mode, hb.rxbuffer, hb.savedHandler, hb.halRead, hb.handler, hb.backup, hb.saved, hb.rxbackup,
        hb.rxbackup_backup⟩
  exact ⟨_, h.fault, log_concat h.log hreturned, ⟨h.ok.head, hlt⟩, congrArg List.tail hunread, hopen.idle rfl⟩

/-! ### Suspending -/

theorem Inv.testSuspended (h : Inv m i) (hb : Settled m i) :
    Inv (m.execute [.setBuffer, .saveRead, .installAwait, .saveHandler, .blockRead] .testSuspended) i := by
  unfold Machine.execute
  dsimp only
  split
  case isTrue hrx =>
    have hmode : i.mode ≠ .normal := by
      rcases hb with hb | hb | hb
      · exact absurd (hb.rxbuffer.symm.trans hrx) Bool.false_ne_true
      · rw [hb.1.mode]
        decide
      · rw [hb.mode]
        decide
    have hnext : i.next (.suspended false) = some i := by
      obtain ⟨mode, unread, saved⟩ := i
      simp [Input.next, hmode]
    exact h.logged hnext rfl rfl rfl rfl (.idle (Or.inl rfl) (hb.moved _ _))
  case isFalse hrx =>
    have hplain : Plain false m i := by
      rcases hb with hb | hb | hb
      · exact hb
      · exact absurd hb.1.rxbuffer hrx
      · exact absurd hb.rxbuffer hrx
    exact h.quiet rfl rfl rfl (.setBuffer rfl (hplain.moved _ _ _ _))

theorem Inv.installAwait (h : Inv m i) (hb : Plain true m i) (hread : m.savedRead = some .serialGetC) :
    ∃ i', Inv (m.execute [.saveHandler, .blockRead] .installAwait) i' := by
  have hnext : i.next (.suspended true) = some { i with mode := .suspended } := by
    simp [Input.next, hb.mode]
  exact ⟨_, h.logged hnext rfl rfl rfl rfl (.saveHandler rfl rfl hb.rxbuffer hread hb.handler rfl hb.backup)⟩

/-! ### Resuming -/

theorem Inv.testBuffer (h : Inv m i) (hb : Settled m i) :
    Inv (m.execute [.testBackup, .testHandler, .clearBuffer] .testBuffer) i := by
  unfold Machine.execute
  dsimp only
  split
  case isTrue hrx =>
    refine h.quiet rfl rfl rfl (.testBackup rfl rfl ?_)
    rcases hb with hb | ⟨hb, hread⟩ | hb
    · exact absurd (hb.rxbuffer.symm.trans hrx) Bool.false_ne_true
    · exact Or.inl ⟨⟨hb.mode, hb.rxbuffer, hb.savedRead, hb.savedHandler, hb.handler, hb.backup⟩, hread⟩
    · exact Or.inr ⟨hb.mode, hb.rxbuffer, hb.savedHandler, hb.halRead, hb.handler, hb.backup, hb.saved, hb.rxbackup,
        hb.rxbackup_backup⟩
  case isFalse hrx =>
    have hmode : i.mode = .normal := h.phase.mode_normal (eq_false_of_ne_true hrx)
    have hnext : i.next (.resumed false) = some i := by
      obtain ⟨mode, unread, saved⟩ := i
      cases hmode
      rfl
    exact h.logged hnext rfl rfl rfl rfl (.idle (Or.inl rfl) (hb.moved _ _))

theorem Inv.testBackup (h : Inv m i) (hb : Blocked m i ∨ Acknowledged m i) (hputBack : m.putBack = false) :
    Inv (m.execute [.testHandler, .clearBuffer] .testBackup) i := by
  unfold Machine.execute
  dsimp only
  split
  case isTrue hbackup =>
    have hack := hb.resolve_left fun hb => Bool.false_ne_true (hb.1.backup.symm.trans hbackup)
    exact h.quiet rfl rfl rfl (.restoreBuffer rfl (hack.moved _ _ _ _))
  case isFalse hbackup =>
    have hblocked := hb.resolve_right fun hb => hbackup hb.backup
    exact h.quiet rfl rfl rfl (.testHandler rfl (Or.inr ⟨hputBack, hblocked.moved _ _⟩))

theorem Inv.copyHead (h : Inv m i) (htodo : m.todo = .copyHead :: rest) : Copying (m.execute rest .copyHead) i := by
  cases h.phase with
  | restoreBuffer todo hb =>
      rw [todo] at htodo
      cases htodo
      exact ⟨h.fault, h.log, hb.mode, hb.rxbuffer, hb.savedHandler, hb.halRead, hb.handler, hb.saved, hb.rxbackup,
        hb.rxbackup_backup, rfl, Or.inl rfl⟩
  | idle todo =>
      rw [Machine.Idle, htodo] at todo
      simp [streamRxSuspend, streamRxResume] at todo
  | _ todo => cases htodo.symm.trans todo

theorem Copying.statement (h : Copying m i) (hstep : step m .statement = some m') : ∃ i', Inv m' i' ∨ Copying m' i' := by
  rcases h.copied with htodo | ⟨htail, htodo | ⟨hflags, htodo⟩⟩
  · simp only [step, htodo] at hstep
    cases hstep
    exact ⟨i, Or.inr { h with copied := Or.inr ⟨rfl, Or.inl rfl⟩ }⟩
  · simp only [step, htodo] at hstep
    cases hstep
    exact ⟨i, Or.inr { h with copied := Or.inr ⟨htail, Or.inr ⟨⟨rfl, rfl⟩, rfl⟩⟩ }⟩
  · simp only [step, htodo] at hstep
    cases hstep
    have hnext : i.next (.resumed true) = some { i with mode := .normal, unread := i.saved } := by
      simp [Input.next, h.mode]
    have hbuf : { m.rxbuf with data := m.rxbackup.data } = m.rxbackup := by
      dsimp only
      rw [h.head, htail, hflags.1, hflags.2]
    refine ⟨_, Or.inl ⟨h.fault, log_concat h.log hnext, ?_, ?_, .testHandler rfl (Or.inl ⟨rfl, ?_⟩)⟩⟩
    · dsimp only [Machine.execute]
      rw [hbuf]
      exact h.rxbackup
    · dsimp only [Machine.execute]
      rw [hbuf]
      exact h.saved
    · exact ⟨rfl, h.rxbuffer, h.savedHandler, h.halRead, h.handler, (congrArg _ hbuf).trans h.rxbackup_backup⟩

theorem Copying.copies (h : Copying m i) : m.Copies :=
  h.copied.imp_right fun h' => h'.2.imp_right fun h' => h'.2

theorem Copying.receive (h : Copying m i) {r : Received} (hsafe : Action.Safe m (.receive c r)) : m.receive c r = m := by
  obtain ⟨-, -, hreset, hinput⟩ := hsafe
  have hidle : ¬ m.Idle := by
    rw [Machine.Idle]
    rcases h.copies with htodo | htodo | htodo <;> simp [htodo, streamRxSuspend, streamRxResume]
  rw [receive_direct h.handler]
  cases r with
  | input => exact absurd h.copies (hinput rfl)
  | realtime => rfl
  | reset =>
      rcases hreset rfl with hrx | hi
      · exact absurd (hrx.symm.trans h.rxbuffer) Bool.false_ne_true
      · exact absurd hi hidle

theorem Inv.testHandler (h : Inv m i) (hb : m.putBack = true ∧ Plain true m i ∨ m.putBack = false ∧ Blocked m i) :
    Inv (m.execute [.clearBuffer] .testHandler) i := by
  unfold Machine.execute
  dsimp only
  rcases hb with ⟨hputBack, hb⟩ | ⟨hputBack, hb⟩
  · have hnone : ¬ m.savedHandler.isSome = true := by rw [hb.savedHandler]; decide
    rw [if_neg hnone]
    exact h.quiet rfl rfl rfl (.clearBuffer rfl (Or.inl ⟨hputBack, hb.moved _ _ _ _⟩))
  · have hsome : m.savedHandler.isSome = true := by rw [hb.1.savedHandler]; rfl
    rw [if_pos hsome]
    exact h.quiet rfl rfl rfl (.restoreRead rfl hputBack (hb.moved _ _))

theorem Inv.clearBuffer (h : Inv m i)
    (hb : m.putBack = true ∧ Plain true m i ∨ m.putBack = false ∧ Reopened m i ∧ m.savedHandler = none) :
    ∃ i', Inv (m.execute rest .clearBuffer) i' := by
  rcases hb with ⟨hputBack, hb⟩ | ⟨hputBack, hb, hnone⟩
  · have hexec : m.execute rest .clearBuffer = { m with rxbuffer := false, todo := [] } := by
      simp only [Machine.execute, hputBack, Machine.finish, if_true, List.append_nil]
    rw [hexec]
    refine ⟨i, h.quiet rfl rfl rfl (.idle (Or.inl rfl) (Or.inl ?_))⟩
    exact ⟨hb.mode, rfl, hb.savedHandler, hb.halRead, hb.handler, hb.backup⟩
  · have hexec : m.execute rest .clearBuffer = { m with
        rxbuffer := false
        todo := []
        log := m.log ++ [.resumed true] } := by
      simp only [Machine.execute, hputBack, Machine.finish]
      rfl
    have hnext : i.next (.resumed true) = some { i with mode := .normal } := by simp [Input.next, hb.mode]
    rw [hexec]
    refine ⟨_, h.logged hnext rfl rfl rfl rfl (.idle (Or.inl rfl) (Or.inl ?_))⟩
    exact ⟨rfl, rfl, hnone, hb.halRead, hb.handler, hb.backup⟩

/-! ### Every statement -/

theorem Inv.statement (h : Inv m i) (hcopy : ∀ rest, m.todo ≠ .copyHead :: rest)
    (hstep : step m .statement = some m') : ∃ i', Inv m' i' := by
  have hexec : ∀ {s rest}, m.todo = s :: rest → m' = m.execute rest s := by
    intro s rest htodo
    simp only [step, htodo] at hstep
    exact (Option.some.inj hstep).symm
  cases h.phase with
  | idle todo base =>
      rcases todo with todo | todo | todo | todo
      · simp only [step, todo] at hstep
        cases hstep
      · exact hexec todo ▸ ⟨i, h.callRead base⟩
      · exact hexec todo ▸ ⟨i, h.testSuspended base⟩
      · exact hexec todo ▸ ⟨i, h.testBuffer base⟩
  | read todo base => exact hexec todo ▸ ⟨i, h.quiet rfl rfl rfl (.readTail rfl (Open.moved base _ _ _ _) rfl)⟩
  | readTail todo base tail => exact hexec todo ▸ ⟨i, h.returnIfEmpty base tail⟩
  | readTested todo base tail some =>
      exact hexec todo ▸ ⟨i, h.quiet rfl rfl rfl
        (.readData rfl (Open.moved base _ _ _ _) tail some (congrArg m.rxbuf.data tail))⟩
  | readData todo base tail some data => exact hexec todo ▸ h.putTail base tail some data
  | setBuffer todo base =>
      refine hexec todo ▸ ⟨i, h.quiet rfl rfl rfl (.saveRead rfl ?_)⟩
      exact ⟨base.mode, rfl, base.savedHandler, base.halRead, base.handler, base.backup⟩
  | saveRead todo base =>
      refine hexec todo ▸ ⟨i, h.quiet rfl rfl rfl (.installAwait rfl ?_ base.halRead)⟩
      exact ⟨base.mode, base.rxbuffer, base.savedHandler, base.halRead, base.handler, base.backup⟩
  | installAwait todo base savedRead => exact hexec todo ▸ h.installAwait base savedRead
  | saveHandler todo mode rxbuffer savedRead prev handler backup =>
      refine hexec todo ▸ ⟨i, h.quiet rfl rfl rfl (.blockRead rfl ?_)⟩
      exact ⟨mode, rxbuffer, savedRead, congrArg some prev, handler, backup⟩
  | blockRead todo base =>
      refine hexec todo ▸ ⟨i, h.quiet rfl rfl rfl (.idle (Or.inl rfl) (Or.inr (Or.inl ⟨?_, rfl⟩)))⟩
      exact ⟨base.mode, base.rxbuffer, base.savedRead, base.savedHandler, base.handler, base.backup⟩
  | testBackup todo putBack base => exact hexec todo ▸ ⟨i, h.testBackup base putBack⟩
  | restoreBuffer todo => exact absurd todo (hcopy _)
  | testHandler todo base => exact hexec todo ▸ ⟨i, h.testHandler base⟩
  | restoreRead todo putBack base =>
      obtain ⟨base, -⟩ := base
      refine hexec todo ▸ ⟨i, h.quiet rfl rfl rfl (.restoreHandler rfl putBack ?_ base.savedRead)⟩
      exact ⟨base.mode, base.rxbuffer, base.savedRead, base.savedHandler, base.handler, base.backup⟩
  | restoreHandler todo putBack base halRead =>
      refine hexec todo ▸ ⟨i, h.quiet rfl rfl rfl (.clearHandler rfl putBack ?_)⟩
      exact ⟨base.mode, base.rxbuffer, halRead, congrArg (Option.getD · m.handler) base.savedHandler, base.backup⟩
  | clearHandler todo putBack base =>
      refine hexec todo ▸ ⟨i, h.quiet rfl rfl rfl (.clearBuffer rfl (Or.inr ⟨putBack, ?_, rfl⟩))⟩
      exact ⟨base.mode, base.rxbuffer, base.halRead, base.handler, base.backup⟩
  | clearBuffer todo base => exact hexec todo ▸ h.clearBuffer base

theorem Inv.call (h : Inv m i) (htodo : m.todo = []) (f : Call) : Inv { m with todo := f.body } i := by
  refine h.quiet rfl rfl rfl (.idle ?_ (Settled.moved (h.phase.of_idle (Or.inl htodo)) _ _))
  cases f with
  | read => exact Or.inr (Or.inl rfl)
  | suspend suspend =>
      cases suspend with
      | true => exact Or.inr (Or.inr (Or.inl rfl))
      | false => exact Or.inr (Or.inr (Or.inr rfl))

theorem Inv.step (h : Inv m i) (a : Action) (hsafe : a.Safe m) (hstep : step m a = some m') :
    ∃ i', Inv m' i' ∨ Copying m' i' := by
  cases a with
  | call f =>
      simp only [ToolChange.step] at hstep
      split at hstep
      case isTrue htodo =>
        cases hstep
        exact ⟨i, Or.inl (h.call htodo f)⟩
      case isFalse => cases hstep
  | statement =>
      by_cases hcopy : ∃ rest, m.todo = .copyHead :: rest
      · obtain ⟨rest, htodo⟩ := hcopy
        have hexec := h.copyHead htodo
        simp only [ToolChange.step, htodo] at hstep
        cases hstep
        exact ⟨i, Or.inr hexec⟩
      · obtain ⟨i', h'⟩ := h.statement (fun rest htodo => hcopy ⟨rest, htodo⟩) hstep
        exact ⟨i', Or.inl h'⟩
  | receive c r =>
      cases hstep
      obtain ⟨i', h'⟩ := h.receive hsafe
      exact ⟨i', Or.inl h'⟩

theorem Copying.step (h : Copying m i) (a : Action) (hsafe : a.Safe m) (hstep : step m a = some m') :
    ∃ i', Inv m' i' ∨ Copying m' i' := by
  cases a with
  | call f =>
      have hne : m.todo ≠ [] := by rcases h.copies with htodo | htodo | htodo <;> simp [htodo]
      simp only [ToolChange.step, if_neg hne] at hstep
      cases hstep
  | statement => exact h.statement hstep
  | receive c r =>
      cases hstep
      rw [h.receive hsafe]
      exact ⟨i, Or.inr h⟩

theorem Inv.restored (h : Inv m i) : Restored m := by
  refine ⟨h.fault, i, h.log, fun htodo => ⟨h.unread, fun hmode => ?_⟩⟩
  rcases h.phase.of_idle (Or.inl htodo) with hb | hb | hb
  · exact ⟨hb.halRead, hb.handler⟩
  · exact absurd hb.1.mode hmode
  · exact ⟨hb.halRead, hb.handler⟩

theorem Copying.restored (h : Copying m i) : Restored m := by
  refine ⟨h.fault, i, h.log, fun htodo => ?_⟩
  rcases h.copies with h' | h' | h' <;> cases htodo.symm.trans h'

theorem Inv.start : Inv {} {} :=
  ⟨rfl, rfl, RxBuffer.Ok.start, RxBuffer.unread_start.symm, .idle (Or.inl rfl) (Or.inl ⟨rfl, rfl, rfl, rfl, rfl, rfl⟩)⟩

/-- In every run whose steps are safe the program is preserved. -/
theorem restored_of_safe {as : List Action} (hsafe : Along step (fun m a => a.Safe m) {} as)
    (hrun : run step {} as = some m) : Restored m := by
  have hinv : ∃ i, Inv m i ∨ Copying m i := by
    refine run_invariant_along (I := fun m => ∃ i, Inv m i ∨ Copying m i) ?_ as {} m ⟨_, Or.inl Inv.start⟩ hsafe hrun
    rintro _ a _ ⟨_, h | h⟩ hs hstep
    · exact h.step a hs hstep
    · exact h.step a hs hstep
  obtain ⟨_, h | h⟩ := hinv
  · exact h.restored
  · exact h.restored

end

/-- Two characters arrive, the input is suspended, a read finds nothing, the acknowledge and a third character come,
which is read, and the input is resumed. -/
def Example.toolChange : List Action :=
  [Action.receive 0x41 .input, .receive 0x42 .input, .call (.suspend true)] ++ List.replicate 6 Action.statement ++
    [Action.call .read, .statement, .receive 0xA3 .realtime, .receive 0x43 .input, .call .read] ++
    List.replicate 5 Action.statement ++ [Action.call (.suspend false)] ++ List.replicate 8 Action.statement

theorem restored_of_safe_tool_change : ∃ m, run step {} Example.toolChange = some m ∧ Restored m := by
  have hsafe : Along step (fun m a => a.Safe m) {} Example.toolChange := by decide +kernel
  exact ⟨_, rfl, restored_of_safe hsafe rfl⟩

/-! ## Two runs that break it -/

/-- What is suspended is resumed before a statement blocks the reads: they stay blocked. -/
theorem early_ack_blocks_input : ∃ m, run step {} ([Action.receive 0x41 .input, .call (.suspend true)] ++
      List.replicate 5 Action.statement ++ [Action.receive 0xA3 .realtime, .statement, .call (.suspend false)] ++
      List.replicate 8 Action.statement) = some m ∧
    m.log = [.accepted 0x41, .suspended true, .acknowledged, .resumed true] ∧ m.todo = [] ∧
    m.halRead = some .streamGetNull ∧ ¬ Restored m := by
  refine ⟨_, rfl, by decide +kernel, rfl, rfl, ?_⟩
  rintro ⟨-, i, hlog, hnormal⟩
  have hi : run Input.next {} [.accepted 0x41, .suspended true, .acknowledged, .resumed true] = some i := hlog
  cases hi
  exact absurd ((hnormal rfl).2 (by decide)).1 (by decide)

/-- The acknowledge comes when the call that resumes has found no backup: what was unread is lost. -/
theorem late_ack_loses_input : ∃ m, run step {} ([Action.receive 0x41 .input, .call (.suspend true)] ++
      List.replicate 6 Action.statement ++ [Action.call (.suspend false), .statement, .statement, .receive 0xA3 .realtime,
      .statement, .statement]) = some m ∧
    m.log = [.accepted 0x41, .suspended true, .acknowledged, .resumed true] ∧ m.rxbuf.unread = [] ∧ ¬ Restored m := by
  refine ⟨_, rfl, by decide +kernel, by decide +kernel, ?_⟩
  rintro ⟨-, i, hlog, hunread⟩
  have hi : run Input.next {} [.accepted 0x41, .suspended true, .acknowledged, .resumed true] = some i := hlog
  cases hi
  exact absurd (hunread rfl).1 (by decide +kernel)

end Grbl.Stream.ToolChange
