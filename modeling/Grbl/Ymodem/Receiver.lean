import Mathlib
import Grbl.Lib.Cells

/-!
# The YModem receiver

* `ccittCrc16`, `intValue`, `atoi` : what it uses of the C library and of `crc.c`;
* `Receiver` : the `ymodem` structure, the file and the characters sent;
* `awaitSoh`, `awaitPacketnum`, `getPayload`, `awaitCrc`, `awaitEot`, `awaitCancel`, `purge` : the handlers;
* `receive` : a character in `protocol_loop`, `timeout` : a second without one.
-/

namespace Grbl.Ymodem
open Lib

abbrev Byte := UInt8

def asciiSOH : Byte := 0x01
def asciiSTX : Byte := 0x02
def asciiEOT : Byte := 0x04
def asciiACK : Byte := 0x06
def asciiNAK : Byte := 0x15
def asciiCAN : Byte := 0x18

/-- One character in `ccitt_crc16`. -/
def crcStep (crc : UInt16) (c : Byte) : UInt16 :=
  let x := (crc >>> 8) ^^^ c.toUInt16
  let x := x ^^^ (x >>> 4)
  (crc <<< 8) ^^^ (x <<< 12) ^^^ (x <<< 5) ^^^ x

def ccittCrc16 (buf : List Byte) : UInt16 := buf.foldl crcStep 0

def isDigit (c : Byte) : Bool := 0x30 ≤ c ∧ c ≤ 0x39

def isSpace (c : Byte) : Bool := c = 0x20 ∨ 0x09 ≤ c ∧ c ≤ 0x0D

/-- The value of the digits that a string starts with. -/
def digitsValue (s : List Byte) : ℕ := (s.takeWhile isDigit).foldl (fun n c => 10 * n + (c.toNat - 0x30)) 0

/-- The number that a string starts with. -/
def intValue (s : List Byte) : ℤ :=
  match s.dropWhile isSpace with
  | [] => 0
  | c :: l =>
      if c = 0x2D then -(digitsValue l : ℤ)
      else if c = 0x2B then digitsValue l
      else digitsValue (c :: l)

/-- `atoi`; its result is not defined when the number is not an `int`. -/
def atoi (s : List Byte) : Option ℤ := if -2 ^ 31 ≤ intValue s ∧ intValue s < 2 ^ 31 then some (intValue s) else none

/-- `ymodem_status_t` -/
inductive Status
  | noop | ack | ackFile | noFile | purge | nak | eot | can
  deriving DecidableEq, Repr

/-- What `ymodem.process` may point to. -/
inductive Process
  | awaitSoh | awaitPacketnum | getPayload | awaitCrc | awaitEot | awaitCancel | purge
  deriving DecidableEq, Repr

/-- `ymodem`; `handle` says whether the file is open, `file` is what has been written to it, `sent` what has been
written to the stream, and `attached` whether `grbl.on_execute_realtime` is `protocol_loop`. The name is a string
without its NUL; copying one that is too long sets `fault`, and so does a length that is not an `int`. -/
structure Receiver where
  handle : Bool := false
  filename : List Byte := []
  filelength : ℕ := 0
  received : ℕ := 0
  crc : UInt16 := 0
  idx : ℕ := 0
  errors : ℕ := 0
  packetLen : ℕ := 0
  packetNum : Byte := 0
  process : Process := .awaitSoh
  seqInv : Bool := false
  crcLsb : Bool := false
  completed : Bool := false
  repeated : Bool := false
  payload : ℕ → Byte := fun _ => 0
  file : List Byte := []
  sent : List Byte := []
  attached : Bool := true
  fault : Bool := false

namespace Receiver

def write (r : Receiver) (l : List Byte) : Receiver := { r with sent := r.sent ++ l }

def endTransfer (r : Receiver) (sendAck : Bool) : Receiver :=
  { r with attached := false, handle := false }.write (if sendAck then [asciiACK, 0x43] else [])

def awaitSoh (r : Receiver) (c : Byte) : Receiver × Status :=
  if c = asciiSOH ∨ c = asciiSTX then
    ({ r with
        idx := 0
        crc := 0
        crcLsb := false
        seqInv := false
        repeated := false
        packetLen := if c = asciiSOH then 128 else 1024
        process := .awaitPacketnum }, .noop)
  else if c = asciiEOT then (r.endTransfer true, .noop)
  else if c = asciiCAN then ({ r with process := .awaitCancel }, .noop)
  else (r, .purge)

/-- The comparisons are made in `int`, so that `c - 1` of 0 is -1. -/
def awaitPacketnum (r : Receiver) (c : Byte) : Receiver × Status :=
  if r.seqInv then
    let c := c ^^^ 0xFF
    let repeated : Bool := (r.packetNum.toNat : ℤ) = c.toNat - 1
    let c := if repeated then c + 1 else c
    if c = r.packetNum then ({ r with repeated := repeated, process := .getPayload }, .noop)
    else ({ r with repeated := repeated }, .purge)
  else
    let seqInv : Bool := c = r.packetNum ∨ (r.packetNum.toNat : ℤ) = c.toNat - 1
    ({ r with seqInv := seqInv }, if seqInv then .noop else .purge)

def getPayload (r : Receiver) (c : Byte) : Receiver × Status :=
  ({ r with
      payload := Function.update r.payload r.idx c
      idx := r.idx + 1
      process := if r.idx + 1 = r.packetLen then .awaitCrc else r.process }, .noop)

/-- The name and the length in the first packet, and the file; `disk` says whether it can be opened. -/
def openFile (r : Receiver) (disk : Bool) : Receiver × Status :=
  let data := load r.payload 0 1024
  if data.head? = some 0 then ({ r with packetNum := r.packetNum + 1 }, .noFile)
  else
    let filename := data.takeWhile (· ≠ 0)
    let data := data.drop (filename.length + 1)
    ({ r with
        filename := filename
        fault := r.fault || 32 ≤ filename.length || (data.headD 0 ≠ 0 ∧ atoi data = none)
        filelength := if data.headD 0 ≠ 0 then ((atoi data).getD 0 % 2 ^ 32).toNat else r.filelength
        handle := disk
        packetNum := r.packetNum + 1 }, if disk then .ackFile else .can)

/-- A packet that is written to the file; `disk` says whether it can be. -/
def writePayload (r : Receiver) (disk : Bool) : Receiver × Status :=
  if r.repeated then (r, .ack)
  else
    let received := (r.received + r.packetLen) % 2 ^ 32
    let completed : Bool := r.filelength ≠ 0 ∧ received > r.filelength
    let packetLen := if completed then (r.packetLen + 2 ^ 32 - (received - r.filelength)) % 2 ^ 32 else r.packetLen
    let r := { r with packetNum := r.packetNum + 1, received := received, completed := completed, packetLen := packetLen }
    if disk then
      let r := { r with file := r.file ++ load r.payload 0 packetLen }
      (if completed then { r with idx := 0, process := .awaitEot } else r, .ack)
    else (r, .can)

def awaitCrc (r : Receiver) (disk : Bool) (c : Byte) : Receiver × Status :=
  if r.crcLsb then
    let r := { r with process := .awaitSoh, crc := (r.crc <<< 8) ||| c.toUInt16 }
    if ccittCrc16 (load r.payload 0 r.packetLen) ≠ r.crc then (r, .purge)
    else if r.packetNum = 0 ∧ r.filename = [] then r.openFile disk
    else r.writePayload disk
  else ({ r with crcLsb := true, crc := c.toUInt16 }, .noop)

def awaitEot (r : Receiver) (c : Byte) : Receiver × Status := (if c = asciiEOT then r.endTransfer true else r, .noop)

def awaitCancel (r : Receiver) (c : Byte) : Receiver × Status :=
  (if c = asciiCAN then r.endTransfer false else { r with process := .awaitSoh }, .noop)

def purge (r : Receiver) (_ : Byte) : Receiver × Status := (r, .noop)

def call (r : Receiver) (disk : Bool) (c : Byte) : Process → Receiver × Status
  | .awaitSoh => r.awaitSoh c
  | .awaitPacketnum => r.awaitPacketnum c
  | .getPayload => r.getPayload c
  | .awaitCrc => r.awaitCrc disk c
  | .awaitEot => r.awaitEot c
  | .awaitCancel => r.awaitCancel c
  | .purge => r.purge c

/-- What `protocol_loop` does with the status. -/
def respond (r : Receiver) : Status → Receiver
  | .ack => { r with errors := 0 }.write [asciiACK]
  | .ackFile => { r with errors := 0 }.write [asciiACK, 0x43]
  | .noFile => (r.write [asciiACK]).endTransfer false
  | .nak => { r with errors := r.errors + 1 }.write [asciiNAK]
  | .can => (r.write [asciiCAN, asciiCAN]).endTransfer false
  | .purge => { r with errors := r.errors + 1, process := .purge }
  | .noop | .eot => r

/-- A character; when the transfer has ended it goes elsewhere. -/
def receive (disk : Bool) (r : Receiver) (c : Byte) : Receiver :=
  if r.attached then
    let (r, status) := r.call disk c r.process
    r.respond status
  else r

def receiveAll (disk : Bool) (r : Receiver) (l : List Byte) : Receiver := l.foldl (receive disk) r

/-- `protocol_loop`, a second after the last character or timeout. -/
def timeout (r : Receiver) : Receiver :=
  if r.attached then
    let r := { r with errors := r.errors + 1 }
    if r.errors > 10 then r.endTransfer false else { r with process := .awaitSoh }.write [asciiNAK]
  else r

end Receiver

end Grbl.Ymodem
