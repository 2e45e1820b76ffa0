import Mathlib
import Grbl.Lib.RingQueue
import Grbl.Lib.Run

/-!
# The Modbus RTU master

* `crc16x` : what it uses of `crc.c`;
* `Message`, `Callbacks`, `Entry`, `addMessage` : requests and the slots they are copied to;
* `Event` : what a run shows to the line and to the callers;
* `Machine` : the variables of `modbus_rtu.c`, the receive buffer, and the call that is blocking;
* `poll` : `modbus_poll`; `sendRtu`, `resume` : `modbus_send_rtu` up to where it waits, and one turn of the loops it waits in;
* `Action`, `exec`, `step` : what may happen between two of them.
-/

namespace Grbl.Modbus
open Lib

abbrev Byte := UInt8

/-- `MODBUS_MAX_ADU_SIZE` -/
abbrev maxAduSize : ℕ := 12

/-- The last slot of the queue, `MODBUS_QUEUE_LENGTH - 1`. -/
def top : ℕ := 7

def crcError : ℕ := 254
def timeoutCode : ℕ := 255
def unknownException : ℕ := 252

def crcBit (crc : UInt16) : UInt16 := if crc &&& 1 ≠ 0 then (crc >>> 1) ^^^ 0xA001 else crc >>> 1

/-- `modbus_crc16x` -/
def crc16x (buf : List Byte) : UInt16 := buf.foldl (fun crc c => crcBit^[8] (crc ^^^ c.toUInt16)) 0xFFFF

/-- `modbus_message_t`; `id` is the number of the call it was given to. -/
structure Message where
  id : ℕ := 0
  context : ℕ := 0
  crcCheck : Bool := false
  txLength : ℕ := 0
  rxLength : ℕ := 0
  adu : Fin maxAduSize → Byte := fun _ => 0
  deriving DecidableEq

namespace Message

/-- The CRC goes behind the bytes to be sent. -/
def withCrc (msg : Message) : Message :=
  let crc := crc16x ((List.ofFn msg.adu).take (msg.txLength - 2))
  { msg with adu := fun i =>
      if i.val = msg.txLength - 2 then crc.toUInt8 else if i.val = msg.txLength - 1 then (crc >>> 8).toUInt8 else msg.adu i }

/-- The bytes read from the stream, and `rx_length` counted down. -/
def withReply (msg : Message) (bytes : List Byte) : Message :=
  { msg with adu := fun i => bytes[i.val]?.getD (msg.adu i), rxLength := 0 }

/-- What `modbus_poll` compares when a reply of `len` bytes is there. -/
def crcOk (msg : Message) (len : ℕ) : Bool :=
  let adu := List.ofFn msg.adu
  let crc := crc16x (adu.take (len - 2))
  adu[len - 2]? = some crc.toUInt8 ∧ adu[len - 1]? = some (crc >>> 8).toUInt8

end Message

/-- The callbacks of a request. -/
inductive Kind
  | packet | exception | timeout
  deriving DecidableEq

/-- What a callback may point to: a function of the caller, or `retry_exception`. -/
inductive Hook
  | user (f : ℕ)
  | retry
  deriving DecidableEq

/-- `modbus_callbacks_t`, with what its pointers may point to. -/
structure Callbacks (φ : Type) where
  retries : ℕ := 0
  retryDelay : ℕ := 0
  onRxPacket : Option φ := none
  onRxException : Option φ := none
  onRxTimeout : Option φ := none
  deriving DecidableEq

namespace Callbacks

def hook {φ : Type} (c : Callbacks φ) : Kind → Option φ
  | .packet => c.onRxPacket
  | .exception => c.onRxException
  | .timeout => c.onRxTimeout

/-- The callbacks of a caller, which does not know `retry_exception`. -/
def ofUser (c : Callbacks ℕ) : Callbacks Hook :=
  { retries := c.retries
    retryDelay := c.retryDelay
    onRxPacket := c.onRxPacket.map .user
    onRxException := c.onRxException.map .user
    onRxTimeout := c.onRxTimeout.map .user }

end Callbacks

/-- `queue_entry_t` -/
structure Entry where
  async : Bool := false
  msg : Message := {}
  callbacks : Callbacks Hook := {}
  deriving DecidableEq

/-- `add_message`, which overwrites all of the slot. -/
def addMessage (msg : Message) (async : Bool) : Option (Callbacks Hook) → Entry
  | none => { async := async, msg := msg }
  | some c =>
      let c := { c with onRxTimeout := c.onRxTimeout <|> c.onRxException }
      { async := async
        msg := msg
        callbacks :=
          if !async ∧ c.retries ≠ 0 then { c with onRxException := some .retry, onRxTimeout := some .retry } else c }

/-- What `packet` may point to. -/
inductive Ref
  | slot (i : ℕ)
  | sync
  deriving DecidableEq

/-- `modbus_state_t` -/
inductive State
  | idle | silent | tx | awaitReply | timeoutException | gotReply | exception | retry
  deriving DecidableEq

/-- What is seen of a run: a request accepted into the queue, a blocking one and its retries, a message put on the line,
the end of the wait for its reply, a callback, the result of a call, and the queue flushed. -/
inductive Event
  | queued (e : Entry)
  | blocked (id retries : ℕ)
  | transmitted (e : Entry)
  | ended (e : Entry) (good : Bool)
  | called (kind : Kind) (f code : ℕ) (msg : Message)
  | illegal (f : ℕ) (msg : Message)
  | returned (id : ℕ) (result : Bool)
  | flushed
  deriving DecidableEq

/-- The settings; the bounds are those of the setting of the timeout. -/
structure Config where
  rxTimeout : ℕ
  silenceTimeout : ℕ
  rxTimeout_bounds : 50 ≤ rxTimeout ∧ rxTimeout ≤ 250

/-- The arguments of a blocking call; `waiting` until the state is idle. -/
structure Caller where
  msg : Message
  callbacks : Option (Callbacks ℕ)
  waiting : Bool
  deriving DecidableEq

/-- `now` is the time in ms, which `hal.get_elapsed_ticks` gives modulo 2^32. An access outside a buffer or through a null
pointer sets `fault`. -/
structure Machine where
  queue : ℕ → Entry := fun _ => {}
  tail : ℕ := 0
  head : ℕ := 0
  syncMsg : Entry := {}
  packet : Option Ref := none
  state : State := .idle
  rxTimeout : ℕ := 0
  silenceUntil : ℕ := 0
  exceptionCode : ℕ := 0
  isBlocking : Bool := false
  caller : Option Caller := none
  rx : List Byte := []
  now : ℕ := 0
  calls : ℕ := 0
  log : List Event := []
  fault : Bool := false

namespace Machine

def entry (m : Machine) : Ref → Entry
  | .slot i => m.queue i
  | .sync => m.syncMsg

def setMsg (m : Machine) (r : Ref) (msg : Message) : Machine :=
  match r with
  | .slot i => { m with queue := Function.update m.queue i { m.queue i with msg := msg } }
  | .sync => { m with syncMsg := { m.syncMsg with msg := msg } }

def emit (m : Machine) (e : Event) : Machine := { m with log := m.log ++ [e] }

/-- The silence is over, compared as `int32_t`. -/
def silenceOver (m : Machine) : Bool :=
  let d := (m.silenceUntil + 2 ^ 32 - m.now % 2 ^ 32) % 2 ^ 32
  d = 0 ∨ 2 ^ 31 ≤ d

section
variable (cfg : Config)

def keepSilence (m : Machine) (delay : ℕ) : Machine :=
  { m with silenceUntil := (m.now + cfg.silenceTimeout + delay) % 2 ^ 32 }

def txMessage (m : Machine) (r : Ref) : Machine :=
  { m with packet := some r, state := .tx, rxTimeout := cfg.rxTimeout, rx := [] }.emit (.transmitted (m.entry r))

def retryException (m : Machine) : Machine :=
  match m.packet with
  | none => m
  | some r =>
      if (m.entry r).callbacks.retries ≠ 0 then
        { m.keepSilence cfg (m.entry r).callbacks.retryDelay with state := .retry }
      else m

def call (m : Machine) (r : Ref) (k : Kind) (code : ℕ) : Machine :=
  match (m.entry r).callbacks.hook k with
  | none => m
  | some .retry => m.retryException cfg
  | some (.user f) => m.emit (.called k f code (m.entry r).msg)

/-- What the timeout looks for in the stream: the address, a function with the high bit set and a code. Reading when there
is nothing gives -1, which has that bit set. -/
def exceptionReply (address : Byte) : List Byte → Option ℕ × List Byte
  | [] => (none, [])
  | a :: rx =>
      if a = address then
        match rx with
        | [] => (some unknownException, [])
        | b :: rx => if b &&& 0x80 ≠ 0 then (some ((rx.head?.map UInt8.toNat).getD unknownException), rx.tail) else (none, rx)
      else (none, rx)

/-- The callback of a request of the queue, which is then done with. -/
def endAsync (m : Machine) (r : Ref) (k : Kind) (code : ℕ) : Machine :=
  { { m with state := .silent }.call cfg r k code with packet := none }.keepSilence cfg 0

/-- A blocking call is left to see how the wait for its reply has ended. -/
def endSync (m : Machine) (state : State) : Machine := { m with state := state }.keepSilence cfg 0

/-- No reply has come in time. -/
def timedOut (m : Machine) (r : Ref) : Machine :=
  let m := { m with rxTimeout := 0 }.emit (.ended (m.entry r) false)
  if (m.entry r).async then m.endAsync cfg r .timeout 0
  else
    match exceptionReply ((m.entry r).msg.adu 0) m.rx with
    | (some code, rx) => { m with rx := rx, exceptionCode := code }.endSync cfg .exception
    | (none, rx) => { m with rx := rx }.endSync cfg .timeoutException

/-- The bytes of the reply are read into the message. -/
def readReply (m : Machine) (r : Ref) : Machine :=
  let msg := (m.entry r).msg
  { m with
    rx := m.rx.drop msg.rxLength
    fault := m.fault || msg.rxLength = 0 || (msg.crcCheck && msg.rxLength < 2) }.setMsg r
      (msg.withReply (m.rx.take msg.rxLength))

/-- As many bytes as the reply has are there. -/
def gotBytes (m : Machine) (r : Ref) : Machine :=
  let e := m.entry r
  let len := e.msg.rxLength
  let m := m.readReply r
  let good := !e.msg.crcCheck || (m.entry r).msg.crcOk len
  let m := m.emit (.ended e good)
  if e.async then
    if good then
      (m.setMsg r { (m.entry r).msg with rxLength := if e.callbacks.onRxPacket = none then 0 else len }).endAsync cfg r .packet 0
    else m.endAsync cfg r .exception crcError
  else m.endSync cfg (if good then .gotReply else .exception)

def awaitReply (m : Machine) (r : Ref) : Machine :=
  if m.rxTimeout = 1 then m.timedOut cfg r
  else
    let m := { m with rxTimeout := m.rxTimeout - 1 }
    if (m.entry r).msg.rxLength ≤ m.rx.length then m.gotBytes cfg r else m

/-- `modbus_poll`; `sent` says whether the transmit buffer is empty. -/
def poll (m : Machine) (sent : Bool) : Machine :=
  match m.state with
  | .idle =>
      if m.tail ≠ m.head ∧ m.packet = none ∧ m.isBlocking = false then
        { m.txMessage cfg (.slot m.tail) with tail := ringNext top m.tail }
      else m
  | .silent => if m.silenceOver then { m with silenceUntil := 0, state := .idle } else m
  | .tx => if sent then { m with rx := [], state := .awaitReply } else m
  | .awaitReply =>
      match m.packet with
      | none => { m with fault := true }
      | some r => m.awaitReply cfg r
  | .timeoutException =>
      match m.packet with
      | none => { m with fault := true }
      | some r => { m with state := if (m.entry r).async then .silent else .timeoutException }.keepSilence cfg 0
  | _ => m

/-- What follows the loops of a blocking call. -/
def finish (m : Machine) (c : Caller) (result : Bool) : Machine :=
  let msg := { m.syncMsg.msg with adu := Function.update m.syncMsg.msg.adu 1 0 }
  { m with
    packet := none
    isBlocking := false
    syncMsg := { m.syncMsg with msg := msg }
    state := if m.silenceUntil > 0 then .silent else .idle
    caller := none }.emit (.returned c.msg.id result)

/-- The blocking call goes on when there are retries left. -/
def finishUnlessRetry (m : Machine) (c : Caller) (r : Ref) : Machine :=
  if (m.entry r).callbacks.retries = 0 then m.finish c false else m

def transmitSync (m : Machine) (e : Entry) : Machine := { m with syncMsg := e }.txMessage cfg .sync

/-- The message is sent again; with the last retry the functions of the caller are put back. -/
def retransmit (m : Machine) (c : Caller) (r : Ref) : Machine :=
  let cb := (m.entry r).callbacks
  let cb := { cb with retries := cb.retries - 1 }
  let user := (c.callbacks.map Callbacks.ofUser).getD {}
  let cb :=
    if cb.retries = 0 then
      { cb with onRxException := user.onRxException, onRxTimeout := user.onRxTimeout <|> user.onRxException }
    else cb
  { m with silenceUntil := 0 }.transmitSync cfg (addMessage c.msg false (some cb))

/-- A turn of the loop that waits for the reply. -/
def attend (m : Machine) (c : Caller) (r : Ref) : Machine :=
  match m.state with
  | .timeoutException => (m.call cfg r .timeout timeoutCode).finishUnlessRetry c r
  | .exception => (m.call cfg r .exception m.exceptionCode).finishUnlessRetry c r
  | .gotReply => (m.call cfg r .packet 0).finish c true
  | .retry => if m.silenceOver then m.retransmit cfg c r else m
  | _ => m

/-- A turn of the loop that waits until the state is idle. -/
def awaitIdle (m : Machine) (c : Caller) : Machine :=
  if m.state = .idle then
    { m with caller := some { c with waiting := false } }.transmitSync cfg (addMessage c.msg false (c.callbacks.map Callbacks.ofUser))
  else m

/-- What a blocking call does between two calls of `grbl.on_execute_realtime`. -/
def resume (m : Machine) : Machine :=
  match m.caller with
  | none => m
  | some c =>
      if c.waiting then m.awaitIdle cfg c
      else
        match m.packet with
        | none => { m with fault := true }
        | some r => m.attend cfg c r

/-- What keeps a request without `block` out of the queue, apart from it being full. -/
def passes (m : Machine) : Bool :=
  match m.packet with
  | none => true
  | some r => m.syncMsg.msg.adu 1 = 0 ∨ (m.entry r).msg.adu 0 ≠ m.syncMsg.msg.adu 0

def sendAsync (m : Machine) (msg : Message) (callbacks : Option (Callbacks ℕ)) : Machine :=
  let m :=
    if m.passes ∧ ringNext top m.head ≠ m.tail then
      let e := addMessage msg true (callbacks.map Callbacks.ofUser)
      { m with queue := Function.update m.queue m.head e, head := ringNext top m.head }.emit (.queued e)
    else m
  m.emit (.returned msg.id true)

def sendBlocking (m : Machine) (msg : Message) (callbacks : Option (Callbacks ℕ)) : Machine :=
  if m.isBlocking then m.emit (.returned msg.id false)
  else
    let c : Caller := { msg := msg, callbacks := callbacks, waiting := true }
    ({ m with isBlocking := true, caller := some c }.emit (.blocked msg.id ((callbacks.map Callbacks.retries).getD 0))).awaitIdle cfg c

def sendIllegal (m : Machine) (msg : Message) (callbacks : Option (Callbacks ℕ)) : Machine :=
  let m :=
    match callbacks with
    | none => { m with fault := true }
    | some c =>
        match c.onRxException with
        | some f => m.emit (.illegal f msg)
        | none => m
  m.emit (.returned msg.id false)

/-- `modbus_send_rtu` -/
def sendRtu (m : Machine) (msg : Message) (callbacks : Option (Callbacks ℕ)) (block blockingEvent : Bool) : Machine :=
  let msg := { msg with id := m.calls }
  let m := { m with calls := m.calls + 1 }
  if maxAduSize < msg.txLength ∨ maxAduSize < msg.rxLength then m.sendIllegal msg callbacks
  else
    let m := { m with fault := m.fault || msg.txLength < 2 }
    if block && !blockingEvent then m.sendBlocking cfg msg.withCrc callbacks else m.sendAsync msg.withCrc callbacks

/-- `modbus_rtu_flush_queue` -/
def flushQueue (m : Machine) : Machine := { m with tail := m.head }.emit .flushed

end

/-- The requests accepted and not yet transmitted. -/
def pending (m : Machine) : List Entry := contents top m.queue m.tail m.head

end Machine

/-- What may happen next; time passes before `modbus_poll` and a turn of a blocking call. -/
inductive Action
  | poll (elapsed : ℕ) (sent : Bool)
  | resume (elapsed : ℕ)
  | send (msg : Message) (callbacks : Option (Callbacks ℕ)) (block blockingEvent : Bool)
  | flush
  | receive (bytes : List Byte)
  deriving DecidableEq

namespace Machine
variable (cfg : Config)

def elapse (m : Machine) (ms : ℕ) : Machine := { m with now := m.now + ms }

def exec (m : Machine) : Action → Machine
  | .poll ms sent => (m.elapse ms).poll cfg sent
  | .resume ms => (m.elapse ms).resume cfg
  | .send msg callbacks block blockingEvent => m.sendRtu cfg msg callbacks block blockingEvent
  | .flush => m.flushQueue
  | .receive bytes => { m with rx := m.rx ++ bytes }

end Machine

def step (cfg : Config) (m : Machine) (a : Action) : Option Machine := some (m.exec cfg a)

end Grbl.Modbus
