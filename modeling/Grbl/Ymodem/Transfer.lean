import Grbl.Lib.Run
import Grbl.Ymodem.Receiver

/-!
# A YModem transfer

* `Transfer` : what a conforming sender sends; `Transfer.payload`, `frame` : its packets;
* `System`, `step` : the sender, the channel and the receiver;
* `Faithful` : what is claimed of every state; `Transfer.IntLength`, `Action.Safe` : the condition.
-/

namespace Grbl.Ymodem
open Lib

def digitByte (d : Fin 10) : Byte := 0x30 + UInt8.ofNat d.val

/-- A file and how it is sent. Without `digits` its length is not announced. -/
structure Transfer where
  name : List Byte
  content : List Byte
  /-- the length of the file, in decimal -/
  digits : List (Fin 10)
  /-- what is behind the length in the header -/
  info : List Byte
  headerSize : ℕ
  packets : List (List Byte)
  padding : List Byte
  name_length : 1 ≤ name.length ∧ name.length ≤ 31
  name_nul : 0 ∉ name
  digits_value : digits ≠ [] → digits.foldl (fun n d => 10 * n + d.val) 0 = content.length
  info_start : (∀ c ∈ info.head?, isDigit c = false) ∧ (digits = [] → info = [])
  header_size : headerSize = 128 ∨ headerSize = 1024
  header_fits : name.length + 1 + digits.length + info.length < headerSize
  sizes : ∀ p ∈ packets, p.length = 128 ∨ p.length = 1024
  flatten : packets.flatten = content ++ padding
  last : ∀ l p, packets = l ++ [p] → padding.length < p.length

namespace Transfer

def header (t : Transfer) : List Byte :=
  t.name ++ 0 :: (t.digits.map digitByte ++ t.info ++
    List.replicate (t.headerSize - (t.name.length + 1 + t.digits.length + t.info.length)) 0)

def payload (t : Transfer) : ℕ → Option (List Byte)
  | 0 => some t.header
  | k + 1 => t.packets[k]?

/-- What the file should hold after `n` data packets. -/
def written (t : Transfer) (n : ℕ) : List Byte :=
  if t.digits = [] then (t.packets.take n).flatten else (t.packets.take n).flatten.take t.content.length

/-- What it should hold in the end; the padding stays when the length was not announced. -/
def received (t : Transfer) : List Byte := if t.digits = [] then t.content ++ t.padding else t.content

end Transfer

/-- A packet on the line. -/
def frame (num : Byte) (payload : List Byte) (hi lo : Byte) : List Byte :=
  (if payload.length = 128 then asciiSOH else asciiSTX) :: num :: (num ^^^ 0xFF) :: (payload ++ [hi, lo])

/-- The CRC in the last two characters of a packet. -/
def crcWord (hi lo : Byte) : UInt16 := (hi.toUInt16 <<< 8) ||| lo.toUInt16

/-- The sender sends packet `next` when it is `ready`, and the end of the transfer behind the last one. `unanswered` is
set when a good packet that reaches the receiver, a repeated one included, is not acknowledged; `done` when the end is. -/
structure System where
  receiver : Receiver := {}
  next : ℕ := 0
  ready : Bool := true
  unanswered : Bool := false
  done : Bool := false

/-- What the channel makes of a packet: payload and CRC. -/
structure Noise where
  payload : List Byte
  hi : Byte
  lo : Byte
  deriving DecidableEq, Repr

inductive Action
  /-- The packet is sent; the channel may garble it or lose its ACK, and the file may not take it. -/
  | packet (noise : Option Noise) (lost disk : Bool)
  /-- the receiver does not get a character for a second -/
  | silence
  /-- the end of the transfer is sent -/
  | eot
  deriving DecidableEq, Repr

/-- A garbled packet has the length of the one sent, and its CRC does not match. -/
def Noise.Garbles (g : Noise) (payload : List Byte) : Prop :=
  g.payload.length = payload.length ∧ ccittCrc16 g.payload ≠ crcWord g.hi g.lo

instance (g : Noise) (payload : List Byte) : Decidable (g.Garbles payload) :=
  inferInstanceAs (Decidable (_ ∧ _))

/-- The characters of packet `num` that reach the receiver. -/
def delivered (num : ℕ) (payload : List Byte) : Option Noise → List Byte
  | none =>
      let crc := ccittCrc16 payload
      frame (UInt8.ofNat num) payload (crc >>> 8).toUInt8 crc.toUInt8
  | some g => frame (UInt8.ofNat num) g.payload g.hi g.lo

/-- The characters that `r'` has sent since `r`. -/
def reply (r r' : Receiver) : List Byte := r'.sent.drop r.sent.length

def step (t : Transfer) (s : System) : Action → Option System
  | .packet noise lost disk =>
      match t.payload s.next with
      | none => none
      | some payload =>
          if s.ready ∧ ∀ g ∈ noise, g.Garbles payload then
            let r := s.receiver.receiveAll disk (delivered s.next payload noise)
            let ack := asciiACK ∈ reply s.receiver r
            some { s with
              receiver := r
              next := if ack ∧ lost = false then s.next + 1 else s.next
              ready := ack ∧ lost = false
              unanswered := s.unanswered || (noise.isNone ∧ s.receiver.attached ∧ disk ∧ ¬ ack) }
          else none
  | .silence =>
      let r := s.receiver.timeout
      some { s with receiver := r, ready := s.ready || asciiNAK ∈ reply s.receiver r }
  | .eot =>
      if s.ready ∧ t.payload s.next = none then
        let r := s.receiver.receive true asciiEOT
        let ack := asciiACK ∈ reply s.receiver r
        some { s with receiver := r, ready := false, done := s.done || ack }
      else none

/-- The receiver has done nothing undefined, every good packet that reached it was acknowledged, the file holds the data of the
acknowledged packets, each once and in order, and in the end it is closed and holds what was sent. -/
structure Faithful (t : Transfer) (s : System) : Prop where
  fault : s.receiver.fault = false
  answered : s.unanswered = false
  written : ∃ n ≤ t.packets.length, s.next ≤ n + 1 ∧ s.receiver.file = t.written n
  done : s.done = true → s.receiver.handle = false ∧ s.receiver.file = t.received

/-- A length that is announced is an `int`. -/
def Transfer.IntLength (t : Transfer) : Prop := t.digits ≠ [] → t.content.length < 2 ^ 31

def Action.Safe : Action → Prop
  | .packet _ lost _ => lost = false
  | .silence | .eot => True

instance (a : Action) : Decidable a.Safe := by
  unfold Action.Safe
  split <;> infer_instance

end Grbl.Ymodem
