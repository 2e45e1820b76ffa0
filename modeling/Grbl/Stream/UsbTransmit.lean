import Grbl.Lib.Run
import Grbl.Lib.Cells
import Grbl.Stream.RxBuffer

/-!
# The transmit side of the USB stream

`usbPutC`, `usbWriteS`, `usbWrite` and `usb_write` statement by statement; between two statements the
endpoint may fetch a byte of the packet it sends or report that the packet is sent.

* `Statement`, `Machine.execute` : the foreground; `CDC_Transmit_FS` is `Machine.transmit`;
* `Ordered` : what has been handed to the endpoint is a prefix of what has been written, and so on;
  `Intact` : what has been fetched is a prefix of what has been handed over;
* `Phase`, `Inv` : the invariant; `Action.InOrder`, `Action.Settled` : the conditions;
* `statement_progress` : calls end; `ordered_of_in_order` : every run that meets the conditions;
* `char_overtakes_text`, `char_is_overwritten`, `empty_write_does_not_flush` : runs that do not.
-/

namespace Grbl.Stream.Usb
open Lib

def asciiLF : Byte := 0x0A

def blockTxBufferSize : ℕ := 256

/-- What a packet may be read from: the halves of the buffer, `buf` in `usbPutC` and `dummy` in `usb_write`. -/
inductive Area
  | data | data2 | buf | dummy
  deriving DecidableEq, Repr

/-- The statements of the foreground; what is left of the caller's data is in them. -/
inductive Statement
  /-- `txbuf.s = txbuf.use_tx2data ? txbuf.data2 : txbuf.data` -/
  | setStart
  /-- `while(CDC_Transmit_FS(.., txbuf.s, txbuf.length) == USBD_BUSY)` -/
  | transmit
  /-- `if((txbuf.length % 64U) == 0U)` -/
  | testLength
  /-- `while(CDC_Transmit_FS(.., &dummy, 0U) == USBD_BUSY)` -/
  | transmitDummy
  /-- `txbuf.use_tx2data = !txbuf.use_tx2data` -/
  | toggle
  /-- `txbuf.length = 0` -/
  | clearLength
  /-- `*buf = c` -/
  | storeChar (c : Byte)
  /-- `while(CDC_Transmit_FS(.., buf, 1U) == USBD_BUSY)` -/
  | transmitChar
  /-- `if(txbuf.length && (txbuf.length + length) > txbuf.max_length) usb_write()` -/
  | testRoom (length : ℕ)
  /-- `while(length > txbuf.max_length)`, `if(length)`; in `usbWrite` what is left is always sent -/
  | split (s : List Byte) (always : Bool)
  /-- `txbuf.length = txbuf.max_length` -/
  | setLength
  /-- `memcpy(txbuf.s, s, txbuf.length)` -/
  | copyBlock (s : List Byte)
  /-- `memcpy(txbuf.s, s, length); txbuf.length += length; txbuf.s += length` -/
  | append (s : List Byte)
  deriving DecidableEq, Repr

def usbWriteBlock : List Statement := [.setStart, .transmit, .testLength, .toggle, .setStart, .clearLength]

inductive Call
  | usbPutC (c : Byte)
  /-- a string, without the NUL at its end -/
  | usbWriteS (s : List Byte)
  | usbWrite (s : List Byte)
  deriving DecidableEq, Repr

def Call.body : Call → List Statement
  | usbPutC c => [.storeChar c, .transmitChar]
  | usbWriteS s => if s.length = 0 then [] else [.testRoom s.length, .split s false]
  | usbWrite s => if s.length = 0 then [] else [.testRoom s.length, .split s true]

def Call.data : Call → List Byte
  | usbPutC c => [c]
  | usbWriteS s => s
  | usbWrite s => s

/-- The call is a flush point: a string that ends in LF, or any `usbWrite`. -/
def Call.Flushes : Call → Prop
  | usbPutC _ => False
  | usbWriteS s => s.getLast? = some asciiLF
  | usbWrite _ => True

instance (f : Call) : Decidable f.Flushes := by
  cases f <;> unfold Call.Flushes <;> infer_instance

/-- `txbuf` (`data` and `data2` are in the memory, `s` points into it), `tx_done` and the transfer of the
endpoint, and the foreground. The last four fields keep a record. -/
structure Machine where
  mem : Area → ℕ → Byte := fun _ _ => 0
  length : ℕ := 0
  maxLength : ℕ := blockTxBufferSize
  s : Area × ℕ := (.data, 0)
  useTx2data : Bool := false
  txDone : Bool := true
  xferBuf : Area × ℕ := (.data, 0)
  xferLen : ℕ := 0
  xferCount : ℕ := 0
  todo : List Statement := []
  /-- everything that calls were given -/
  written : List Byte := []
  /-- how much of it was written at the last flush point -/
  flushed : ℕ := 0
  /-- the packets handed to the endpoint, as they were then -/
  packets : List (List Byte) := []
  /-- the bytes that the endpoint has fetched -/
  sent : List Byte := []

inductive Action
  | call (f : Call)
  | statement
  /-- the endpoint fetches the next byte of the packet -/
  | fetch
  /-- the packet is sent -/
  | complete
  deriving DecidableEq, Repr

namespace Machine

def half (m : Machine) : Area := if m.useTx2data then .data2 else .data

def memcpy (m : Machine) (p : Area × ℕ) (l : List Byte) : Area → ℕ → Byte :=
  Function.update m.mem p.1 (store (m.mem p.1) p.2 l)

/-- `CDC_Transmit_FS`, called until it is not busy. -/
def transmit (m : Machine) (rest : List Statement) (p : Area × ℕ) (length : ℕ) : Machine :=
  if m.txDone then
    { m with
      txDone := false
      xferBuf := p
      xferLen := length
      xferCount := 0
      packets := m.packets ++ [load (m.mem p.1) p.2 length]
      todo := rest }
  else m

/-- One statement; `rest` are those that follow it. -/
def execute (m : Machine) (rest : List Statement) : Statement → Machine
  | .setStart => { m with s := (m.half, 0), todo := rest }
  | .transmit => m.transmit rest m.s m.length
  | .testLength => { m with todo := if m.length % 64 = 0 then .transmitDummy :: rest else rest }
  | .transmitDummy => m.transmit rest (.dummy, 0) 0
  | .toggle => { m with useTx2data := !m.useTx2data, todo := rest }
  | .clearLength => { m with length := 0, todo := rest }
  | .storeChar c => { m with mem := m.memcpy (.buf, 0) [c], todo := rest }
  | .transmitChar => m.transmit rest (.buf, 0) 1
  | .testRoom n =>
      { m with todo := if m.length ≠ 0 ∧ m.length + n > m.maxLength then usbWriteBlock ++ rest else rest }
  | .split s always =>
      if s.length > m.maxLength then
        { m with todo := [.setLength, .copyBlock s] ++ usbWriteBlock ++ .split (s.drop m.maxLength) always :: rest }
      else if s.length ≠ 0 then
        { m with
          todo := .append s :: ((if always ∨ s.getLast? = some asciiLF then usbWriteBlock else []) ++ rest) }
      else { m with todo := rest }
  | .setLength => { m with length := m.maxLength, todo := rest }
  | .copyBlock s => { m with mem := m.memcpy m.s (s.take m.length), todo := rest }
  | .append s =>
      { m with
        mem := m.memcpy m.s s
        length := m.length + s.length
        s := (m.s.1, m.s.2 + s.length)
        todo := rest }

def call (m : Machine) (f : Call) : Machine :=
  let written := m.written ++ f.data
  { m with todo := f.body, written := written, flushed := if f.Flushes then written.length else m.flushed }

end Machine

def step (m : Machine) : Action → Option Machine
  | .call f => if m.todo = [] then some (m.call f) else none
  | .statement =>
      match m.todo with
      | [] => none
      | s :: rest => some (m.execute rest s)
  | .fetch =>
      if m.txDone = false ∧ m.xferCount < m.xferLen then
        some { m with
          sent := m.sent ++ [m.mem m.xferBuf.1 (m.xferBuf.2 + m.xferCount)]
          xferCount := m.xferCount + 1 }
      else none
  | .complete => if m.txDone = false ∧ m.xferCount = m.xferLen then some { m with txDone := true } else none

/-! ## What is claimed -/

def Machine.handed (m : Machine) : List Byte := m.packets.flatten

/-- The packets are a prefix of what was written, the buffer is never overfull, and between calls everything
up to the last flush point has been handed over and `txbuf.s` is behind what is buffered. -/
structure Ordered (m : Machine) : Prop where
  handed : m.handed <+: m.written
  length : m.length ≤ m.maxLength
  flushed : m.todo = [] → m.written.take m.flushed <+: m.handed
  start : m.todo = [] → m.s = (m.half, m.length)

/-- What the endpoint fetches is what it was handed. -/
def Intact (m : Machine) : Prop := m.sent <+: m.handed

/-! ## The conditions -/

/-- A character is written, and `usbWrite` is called with nothing, only when nothing is buffered. -/
def Action.InOrder (m : Machine) : Action → Prop
  | .call (.usbPutC _) => m.length = 0
  | .call (.usbWrite s) => s = [] → m.length = 0
  | _ => True

/-- No character that `usbPutC` has handed over is still to be fetched. -/
def Machine.CharFetched (m : Machine) : Prop := m.txDone = true ∨ m.xferBuf.1 ≠ .buf ∨ m.xferCount = m.xferLen

/-- A character is written only when the one before it has been fetched. -/
def Action.Settled (m : Machine) : Action → Prop
  | .call (.usbPutC _) => m.CharFetched
  | _ => True

instance (m : Machine) (a : Action) : Decidable (a.InOrder m) := by
  unfold Action.InOrder
  split <;> infer_instance

instance (m : Machine) (a : Action) : Decidable (a.Settled m) := by
  unfold Action.Settled Machine.CharFetched
  split <;> infer_instance

/-! ## The invariant -/

def Machine.buffered (m : Machine) : List Byte := load (m.mem m.half) 0 m.length

def Area.other : Area → Area
  | .data => .data2
  | .data2 => .data
  | .buf => .buf
  | .dummy => .dummy

/-- The endpoint does not fetch from `a`. -/
def Machine.Away (m : Machine) (a : Area) : Prop := m.txDone = true ∨ m.xferBuf.1 ≠ a

/-- Something may be added to the buffer. -/
structure Ready (m : Machine) : Prop where
  start : m.s = (m.half, m.length)
  away : m.Away m.half

/-- What follows when a block has been sent, and what is left of the data. -/
inductive Rest (always : Bool) : List Statement → List Byte → Prop
  | done : Rest always [] []
  | more {d : List Byte} (hd : d ≠ []) : Rest always [.split d always] d

/-- Everything up to the last flush point has been handed over, or will be by this call. -/
def Machine.Due (m : Machine) (always : Bool) (d : List Byte) : Prop :=
  m.flushed ≤ m.handed.length ∨ always = true ∨ d.getLast? = some asciiLF

/-- Where the foreground is. -/
inductive Phase (m : Machine) : Prop
  | idle (todo : m.todo = []) (written : m.written = m.handed ++ m.buffered) (ready : Ready m)
      (flushed : m.flushed ≤ m.handed.length)
  | storeChar (c : Byte) (todo : m.todo = [Statement.storeChar c, .transmitChar]) (written : m.written = m.handed ++ [c])
      (empty : m.length = 0) (ready : Ready m) (flushed : m.flushed ≤ m.handed.length)
  | transmitChar (todo : m.todo = [Statement.transmitChar]) (written : m.written = m.handed ++ [m.mem .buf 0])
      (empty : m.length = 0) (ready : Ready m) (flushed : m.flushed ≤ m.handed.length)
  | testRoom (s : List Byte) (always : Bool) (todo : m.todo = [Statement.testRoom s.length, .split s always]) (hs : s ≠ [])
      (written : m.written = m.handed ++ m.buffered ++ s) (ready : Ready m) (due : m.Due always s)
  | split (s : List Byte) (always : Bool) (todo : m.todo = [Statement.split s always]) (hs : s ≠ [])
      (room : m.length = 0 ∨ m.length + s.length ≤ m.maxLength)
      (written : m.written = m.handed ++ m.buffered ++ s) (ready : Ready m) (due : m.Due always s)
  | setLength (s : List Byte) (always : Bool) (hs : m.maxLength < s.length)
      (todo : m.todo = [Statement.setLength, .copyBlock s] ++ usbWriteBlock ++ [Statement.split (s.drop m.maxLength) always])
      (written : m.written = m.handed ++ s) (start : m.s = (m.half, 0)) (away : m.Away m.half) (due : m.Due always s)
  | copyBlock (s : List Byte) (always : Bool) (hs : m.maxLength < s.length) (length : m.length = m.maxLength)
      (todo : m.todo = Statement.copyBlock s :: (usbWriteBlock ++ [Statement.split (s.drop m.maxLength) always]))
      (written : m.written = m.handed ++ s) (start : m.s = (m.half, 0)) (away : m.Away m.half) (due : m.Due always s)
  | append (s : List Byte) (always : Bool)
      (todo : m.todo = Statement.append s :: if always ∨ s.getLast? = some asciiLF then usbWriteBlock else [])
      (room : m.length + s.length ≤ m.maxLength) (written : m.written = m.handed ++ m.buffered ++ s) (ready : Ready m)
      (due : m.Due always s)
  | setStart (rest : List Statement) (d : List Byte) (always : Bool) (hrest : Rest always rest d)
      (todo : m.todo = usbWriteBlock ++ rest) (written : m.written = m.handed ++ m.buffered ++ d) (away : m.Away m.half)
      (due : d ≠ [] → m.Due always d)
  | transmit (rest : List Statement) (d : List Byte) (always : Bool) (hrest : Rest always rest d)
      (todo : m.todo = [Statement.transmit, .testLength, .toggle, .setStart, .clearLength] ++ rest)
      (written : m.written = m.handed ++ m.buffered ++ d) (start : m.s = (m.half, 0)) (away : m.Away m.half)
      (due : d ≠ [] → m.Due always d)
  | sent (rest : List Statement) (d : List Byte) (always : Bool) (hrest : Rest always rest d)
      (todo : m.todo = [Statement.testLength, .toggle, .setStart, .clearLength] ++ rest ∨
        m.todo = [Statement.transmitDummy, .toggle, .setStart, .clearLength] ++ rest ∨
        m.todo = [Statement.toggle, .setStart, .clearLength] ++ rest)
      (written : m.written = m.handed ++ d) (away : m.Away m.half.other) (due : d ≠ [] → m.Due always d)
  | toggled (rest : List Statement) (d : List Byte) (always : Bool) (hrest : Rest always rest d)
      (todo : m.todo = [Statement.setStart, .clearLength] ++ rest) (written : m.written = m.handed ++ d) (away : m.Away m.half)
      (due : d ≠ [] → m.Due always d)
  | clearLength (rest : List Statement) (d : List Byte) (always : Bool) (hrest : Rest always rest d)
      (todo : m.todo = Statement.clearLength :: rest) (written : m.written = m.handed ++ d) (start : m.s = (m.half, 0))
      (away : m.Away m.half) (due : d ≠ [] → m.Due always d)

structure Inv (m : Machine) : Prop where
  length : m.length ≤ m.maxLength
  flushed : m.flushed ≤ m.written.length
  phase : Phase m

section
variable {m m' : Machine} {rest : List Statement} {d : List Byte} {always : Bool}

/-! ## The endpoint -/

theorem Away.endpoint {a : Area} (h : m.Away a) {b : Bool} (hb : m.txDone = true → b = true) (n : ℕ) (l : List Byte) :
    Machine.Away { m with txDone := b, xferCount := n, sent := l } a := h.imp_left hb

theorem Phase.endpoint (h : Phase m) {b : Bool} (hb : m.txDone = true → b = true) (n : ℕ) (l : List Byte) :
    Phase { m with txDone := b, xferCount := n, sent := l } := by
  have haway : ∀ {a}, m.Away a → Machine.Away { m with txDone := b, xferCount := n, sent := l } a :=
    fun h => Away.endpoint h hb n l
  have hready : Ready m → Ready { m with txDone := b, xferCount := n, sent := l } := fun h => ⟨h.start, haway h.away⟩
  cases h with
  | idle todo written ready flushed => exact .idle todo written (hready ready) flushed
  | storeChar c todo written empty ready flushed => exact .storeChar c todo written empty (hready ready) flushed
  | transmitChar todo written empty ready flushed => exact .transmitChar todo written empty (hready ready) flushed
  | testRoom s always todo hs written ready due => exact .testRoom s always todo hs written (hready ready) due
  | split s always todo hs room written ready due => exact .split s always todo hs room written (hready ready) due
  | setLength s always hs todo written start away due =>
      exact .setLength s always hs todo written start (haway away) due
  | copyBlock s always hs length todo written start away due =>
      exact .copyBlock s always hs length todo written start (haway away) due
  | append s always todo room written ready due => exact .append s always todo room written (hready ready) due
  | setStart rest d always hrest todo written away due =>
      exact .setStart rest d always hrest todo written (haway away) due
  | transmit rest d always hrest todo written start away due =>
      exact .transmit rest d always hrest todo written start (haway away) due
  | sent rest d always hrest todo written away due => exact .sent rest d always hrest todo written (haway away) due
  | toggled rest d always hrest todo written away due => exact .toggled rest d always hrest todo written (haway away) due
  | clearLength rest d always hrest todo written start away due =>
      exact .clearLength rest d always hrest todo written start (haway away) due

theorem Inv.transmit (h : Inv m) {p : Area × ℕ} {n : ℕ}
    (hphase : m.txDone = true → Phase { m with
      txDone := false
      xferBuf := p
      xferLen := n
      xferCount := 0
      packets := m.packets ++ [load (m.mem p.1) p.2 n]
      todo := rest }) : Inv (m.transmit rest p n) := by
  unfold Machine.transmit
  split
  case isTrue hdone => exact ⟨h.length, h.flushed, hphase hdone⟩
  case isFalse => exact h

theorem handed_transmit (p : Area × ℕ) (n : ℕ) :
    (m.packets ++ [load (m.mem p.1) p.2 n]).flatten = m.handed ++ load (m.mem p.1) p.2 n := by
  rw [List.flatten_append, List.flatten_singleton, Machine.handed]

theorem other_ne_half (m : Machine) : m.half ≠ m.half.other := by
  unfold Machine.half
  split <;> decide

theorem half_toggle (m : Machine) (todo : List Statement) :
    Machine.half { m with useTx2data := !m.useTx2data, todo := todo } = m.half.other := by
  unfold Machine.half
  cases m.useTx2data <;> rfl

theorem Machine.Due.mono (h : m.Due always d) (hf : m'.flushed = m.flushed) {l : List Byte}
    (hh : m'.handed = m.handed ++ l) : m'.Due always d := by
  refine h.imp_left fun h => ?_
  rw [hf, hh, List.length_append]
  omega

/-! ## Statements -/

theorem Machine.buffered_of_empty (h : m.length = 0) : m.buffered = [] := by rw [Machine.buffered, h, load_zero]

theorem half_ne_buf (m : Machine) : Area.buf ≠ m.half ∧ Area.dummy ≠ m.half.other := by
  unfold Machine.half
  split <;> decide

theorem memcpy_half (n : ℕ) (l : List Byte) : m.memcpy (m.half, n) l m.half = store (m.mem m.half) n l :=
  Function.update_self ..

theorem Inv.storeChar (h : Inv m) {c : Byte} (hwritten : m.written = m.handed ++ [c]) (hempty : m.length = 0)
    (hready : Ready m) (hflushed : m.flushed ≤ m.handed.length) : Inv (m.execute [.transmitChar] (.storeChar c)) := by
  have hchar : (m.execute [.transmitChar] (.storeChar c)).mem .buf 0 = c := by
    dsimp only [Machine.execute, Machine.memcpy]
    rw [Function.update_self]
    rfl
  refine ⟨h.length, h.flushed, .transmitChar rfl ?_ hempty ⟨hready.start, hready.away⟩ hflushed⟩
  rw [hchar]
  exact hwritten

theorem Inv.transmitChar (h : Inv m) (hwritten : m.written = m.handed ++ [m.mem .buf 0]) (hempty : m.length = 0)
    (hready : Ready m) (hflushed : m.flushed ≤ m.handed.length) : Inv (m.execute [] .transmitChar) := by
  have hhanded := handed_transmit (m := m) (.buf, 0) 1
  refine h.transmit fun _ => .idle rfl ?_ ⟨hready.start, Or.inr (half_ne_buf m).1⟩ ?_
  · rw [Machine.buffered_of_empty (by exact hempty), List.append_nil, Machine.handed, hhanded]
    exact hwritten
  · rw [Machine.handed, hhanded, List.length_append]
    exact hflushed.trans (Nat.le_add_right _ _)

theorem Inv.testRoom (h : Inv m) {s : List Byte} (hs : s ≠ [])
    (hwritten : m.written = m.handed ++ m.buffered ++ s) (hready : Ready m) (hdue : m.Due always s) :
    Inv (m.execute [.split s always] (.testRoom s.length)) := by
  unfold Machine.execute
  dsimp only
  split
  case isTrue => exact ⟨h.length, h.flushed, .setStart _ s always (.more hs) rfl hwritten hready.away fun _ => hdue⟩
  case isFalse hroom =>
    exact ⟨h.length, h.flushed, .split s always rfl hs (by dsimp only; omega) hwritten ⟨hready.start, hready.away⟩ hdue⟩

theorem Inv.split (h : Inv m) {s : List Byte} (hs : s ≠ []) (hroom : m.length = 0 ∨ m.length + s.length ≤ m.maxLength)
    (hwritten : m.written = m.handed ++ m.buffered ++ s) (hready : Ready m) (hdue : m.Due always s) :
    Inv (m.execute [] (.split s always)) := by
  have hpos : s.length ≠ 0 := List.length_eq_zero_iff.not.2 hs
  by_cases hlong : s.length > m.maxLength
  · have hempty : m.length = 0 := by omega
    have hexec : m.execute [] (.split s always) = { m with
        todo := [.setLength, .copyBlock s] ++ usbWriteBlock ++ [.split (s.drop m.maxLength) always] } := if_pos hlong
    rw [Machine.buffered_of_empty hempty, List.append_nil] at hwritten
    rw [hexec]
    refine ⟨h.length, h.flushed, .setLength s always hlong rfl hwritten ?_ hready.away hdue⟩
    rw [← hempty]
    exact hready.start
  · have hexec : m.execute [] (.split s always) = { m with
        todo := .append s :: if always ∨ s.getLast? = some asciiLF then usbWriteBlock else [] } := by
      simp only [Machine.execute, if_neg hlong, if_pos hpos, List.append_nil]
    rw [hexec]
    exact ⟨h.length, h.flushed, .append s always rfl (by dsimp only; omega) hwritten ⟨hready.start, hready.away⟩ hdue⟩

theorem Inv.copyBlock (h : Inv m) {s : List Byte} (hs : m.maxLength < s.length) (hlength : m.length = m.maxLength)
    (hwritten : m.written = m.handed ++ s) (hstart : m.s = (m.half, 0)) (haway : m.Away m.half) (hdue : m.Due always s) :
    Inv (m.execute (usbWriteBlock ++ [Statement.split (s.drop m.maxLength) always]) (.copyBlock s)) := by
  have hdrop : s.drop m.maxLength ≠ [] := by
    intro hnil
    have hlen := congrArg List.length hnil
    rw [List.length_drop, List.length_nil] at hlen
    omega
  have hbuffered : (m.execute (usbWriteBlock ++ [Statement.split (s.drop m.maxLength) always]) (.copyBlock s)).buffered =
      s.take m.maxLength := by
    have hload := load_store (f := m.mem m.half) (i := 0) (l := s.take m.maxLength)
    rw [List.length_take, min_eq_left hs.le] at hload
    change load (m.memcpy m.s (s.take m.length) m.half) 0 m.length = s.take m.maxLength
    rw [hstart, memcpy_half, hlength]
    exact hload
  refine ⟨h.length, h.flushed, .setStart _ _ always (.more hdrop) rfl ?_ haway fun _ => ?_⟩
  · rw [hbuffered, List.append_assoc, List.take_append_drop]
    exact hwritten
  · refine hdue.imp_right (Or.imp_right fun hlast => ?_)
    rw [List.getLast?_drop, if_neg (by omega)]
    exact hlast

theorem Inv.append (h : Inv m) {s : List Byte} (hroom : m.length + s.length ≤ m.maxLength)
    (hwritten : m.written = m.handed ++ m.buffered ++ s) (hready : Ready m) (hdue : m.Due always s) :
    Inv (m.execute (if always ∨ s.getLast? = some asciiLF then usbWriteBlock else []) (.append s)) := by
  have hbuffered : load (m.memcpy m.s s m.half) 0 (m.length + s.length) = m.buffered ++ s := by
    have hload := load_store_behind (f := m.mem m.half) (i := 0) (n := m.length) (l := s)
    rw [Nat.zero_add] at hload
    rw [hready.start, memcpy_half]
    exact hload
  rw [List.append_assoc, ← hbuffered] at hwritten
  split
  case isTrue =>
    refine ⟨hroom, h.flushed, .setStart [] [] always .done rfl ?_ hready.away fun hd => absurd rfl hd⟩
    rw [List.append_nil]
    exact hwritten
  case isFalse hkeep =>
    refine ⟨hroom, h.flushed, .idle rfl hwritten ⟨?_, hready.away⟩ (hdue.resolve_right hkeep)⟩
    dsimp only [Machine.execute]
    rw [hready.start]
    rfl

/-! ### A block is sent -/

theorem Inv.transmitBlock (h : Inv m) (hrest : Rest always rest d) (hwritten : m.written = m.handed ++ m.buffered ++ d)
    (hstart : m.s = (m.half, 0)) (hdue : d ≠ [] → m.Due always d) :
    Inv (m.execute ([Statement.testLength, .toggle, .setStart, .clearLength] ++ rest) .transmit) := by
  have hhanded := handed_transmit (m := m) (m.half, 0) m.length
  refine h.transmit fun _ => .sent rest d always hrest (Or.inl rfl) ?_ (Or.inr ?_) fun hd => ?_
  · rw [Machine.handed, hstart, hhanded]
    exact hwritten
  · dsimp only
    rw [hstart]
    exact other_ne_half m
  · refine (hdue hd).mono rfl (l := load (m.mem m.half) 0 m.length) ?_
    rw [Machine.handed, hstart, hhanded]

theorem Inv.transmitDummy (h : Inv m) (hrest : Rest always rest d) (hwritten : m.written = m.handed ++ d)
    (hdue : d ≠ [] → m.Due always d) :
    Inv (m.execute ([Statement.toggle, .setStart, .clearLength] ++ rest) .transmitDummy) := by
  have hhanded := handed_transmit (m := m) (.dummy, 0) 0
  refine h.transmit fun _ => .sent rest d always hrest (Or.inr (Or.inr rfl)) ?_ (Or.inr (half_ne_buf m).2) fun hd => ?_
  · rw [Machine.handed, hhanded, load_zero, List.append_nil]
    exact hwritten
  · refine (hdue hd).mono rfl (l := []) ?_
    rw [Machine.handed, hhanded, load_zero]

theorem Inv.toggle (h : Inv m) (hrest : Rest always rest d) (hwritten : m.written = m.handed ++ d)
    (haway : m.Away m.half.other) (hdue : d ≠ [] → m.Due always d) :
    Inv (m.execute ([Statement.setStart, .clearLength] ++ rest) .toggle) := by
  refine ⟨h.length, h.flushed, .toggled rest d always hrest rfl hwritten ?_ hdue⟩
  rw [Machine.execute, half_toggle]
  exact haway

/-- The buffer is empty again: the call ends, or goes on with what is left. -/
theorem Inv.clearLength (h : Inv m) (hrest : Rest always rest d) (hwritten : m.written = m.handed ++ d)
    (hstart : m.s = (m.half, 0)) (haway : m.Away m.half) (hdue : d ≠ [] → m.Due always d) :
    Inv (m.execute rest .clearLength) := by
  have hready : Ready (m.execute rest .clearLength) := ⟨hstart, haway⟩
  have hflushed := h.flushed
  cases hrest with
  | done =>
      rw [hwritten, List.append_nil] at hflushed
      exact ⟨Nat.zero_le _, h.flushed, .idle rfl hwritten hready hflushed⟩
  | more hd =>
      refine ⟨Nat.zero_le _, h.flushed, .split d always rfl hd (Or.inl rfl) ?_ hready (hdue hd)⟩
      rw [Machine.buffered_of_empty (by exact rfl), List.append_nil]
      exact hwritten

/-! ## Every step -/

theorem Inv.statement (h : Inv m) (hstep : step m .statement = some m') : Inv m' := by
  have hexec : ∀ {s rest}, m.todo = s :: rest → m' = m.execute rest s := by
    intro s rest htodo
    simp only [step, htodo] at hstep
    exact (Option.some.inj hstep).symm
  cases h.phase with
  | idle todo =>
      simp only [step, todo] at hstep
      cases hstep
  | storeChar c todo written empty ready flushed => exact hexec todo ▸ h.storeChar written empty ready flushed
  | transmitChar todo written empty ready flushed => exact hexec todo ▸ h.transmitChar written empty ready flushed
  | testRoom s always todo hs written ready due => exact hexec todo ▸ h.testRoom hs written ready due
  | split s always todo hs room written ready due => exact hexec todo ▸ h.split hs room written ready due
  | setLength s always hs todo written start away due =>
      exact hexec todo ▸ ⟨le_rfl, h.flushed, .copyBlock s always hs rfl rfl written start away due⟩
  | copyBlock s always hs length todo written start away due =>
      exact hexec todo ▸ h.copyBlock hs length written start away due
  | append s always todo room written ready due => exact hexec todo ▸ h.append room written ready due
  | setStart rest d always hrest todo written away due =>
      exact hexec todo ▸ ⟨h.length, h.flushed, .transmit rest d always hrest rfl written rfl away due⟩
  | transmit rest d always hrest todo written start away due =>
      exact hexec todo ▸ h.transmitBlock hrest written start due
  | sent rest d always hrest todo written away due =>
      rcases todo with todo | todo | todo
      · refine hexec todo ▸ ⟨h.length, h.flushed, .sent rest d always hrest ?_ written away due⟩
        dsimp only [Machine.execute]
        split
        · exact Or.inr (Or.inl rfl)
        · exact Or.inr (Or.inr rfl)
      · exact hexec todo ▸ h.transmitDummy hrest written due
      · exact hexec todo ▸ h.toggle hrest written away due
  | toggled rest d always hrest todo written away due =>
      exact hexec todo ▸ ⟨h.length, h.flushed, .clearLength rest d always hrest rfl written rfl away due⟩
  | clearLength rest d always hrest todo written start away due =>
      exact hexec todo ▸ h.clearLength hrest written start away due

theorem Phase.of_todo (h : Phase m) (htodo : m.todo = []) :
    m.written = m.handed ++ m.buffered ∧ Ready m ∧ m.flushed ≤ m.handed.length := by
  cases h with
  | idle _ written ready flushed => exact ⟨written, ready, flushed⟩
  | storeChar _ todo | transmitChar todo | testRoom _ _ todo | split _ _ todo | setLength _ _ _ todo
  | copyBlock _ _ _ _ todo | append _ _ todo | setStart _ _ _ _ todo | transmit _ _ _ _ todo | toggled _ _ _ _ todo
  | clearLength _ _ _ _ todo => exact absurd (htodo.symm.trans todo) (List.cons_ne_nil _ _).symm
  | sent _ _ _ _ todo =>
      rcases todo with todo | todo | todo <;> exact absurd (htodo.symm.trans todo) (List.cons_ne_nil _ _).symm

theorem Inv.call (h : Inv m) (htodo : m.todo = []) (f : Call) (hsafe : Action.InOrder m (.call f)) :
    Inv (m.call f) := by
  obtain ⟨hwritten, hready, hflushed⟩ := h.phase.of_todo htodo
  have hready' : Ready (m.call f) := ⟨hready.start, hready.away⟩
  have hbound : (m.call f).flushed ≤ (m.call f).written.length := by
    dsimp only [Machine.call]
    split
    · exact le_rfl
    · rw [List.length_append]
      exact h.flushed.trans (Nat.le_add_right _ _)
  refine ⟨h.length, hbound, ?_⟩
  have hdata : (m.call f).written = m.handed ++ m.buffered ++ f.data := congrArg (· ++ f.data) hwritten
  have hkept : ¬ f.Flushes → (m.call f).flushed ≤ (m.call f).handed.length := fun hf => (if_neg hf).trans_le hflushed
  cases f with
  | usbPutC c =>
      refine .storeChar c rfl ?_ hsafe hready' (hkept id)
      rw [Machine.buffered_of_empty hsafe, List.append_nil] at hdata
      exact hdata
  | usbWriteS s =>
      rcases List.eq_nil_or_concat s with rfl | ⟨l, c, rfl⟩
      · rw [Call.data, List.append_nil] at hdata
        exact .idle rfl hdata hready' (hkept nofun)
      · have hbody : (Call.usbWriteS (l.concat c)).body =
            [.testRoom (l.concat c).length, .split (l.concat c) false] := if_neg (by simp)
        refine .testRoom _ false hbody (by simp) hdata hready' ?_
        by_cases hf : (l.concat c).getLast? = some asciiLF
        · exact Or.inr (Or.inr hf)
        · exact Or.inl (hkept hf)
  | usbWrite s =>
      by_cases hs : s = []
      · have hempty : m.length = 0 := hsafe hs
        rw [Machine.buffered_of_empty hempty, hs, Call.data, List.append_nil, List.append_nil] at hdata
        rw [hs] at hbound hready' ⊢
        refine .idle rfl ?_ hready' (hbound.trans_eq (congrArg List.length hdata))
        rw [Machine.buffered_of_empty (by exact hempty), List.append_nil]
        exact hdata
      · have hbody : (Call.usbWrite s).body = [.testRoom s.length, .split s true] :=
          if_neg (List.length_eq_zero_iff.not.2 hs)
        exact .testRoom s true hbody hs hdata hready' (Or.inr (Or.inl rfl))

theorem Inv.step (h : Inv m) (a : Action) (hsafe : a.InOrder m) (hstep : step m a = some m') : Inv m' := by
  cases a with
  | call f =>
      simp only [Usb.step] at hstep
      split at hstep
      case isTrue htodo =>
        cases hstep
        exact h.call htodo f hsafe
      case isFalse => cases hstep
  | statement => exact h.statement hstep
  | fetch =>
      simp only [Usb.step] at hstep
      split at hstep
      case isTrue =>
        cases hstep
        exact ⟨h.length, h.flushed, h.phase.endpoint id _ _⟩
      case isFalse => cases hstep
  | complete =>
      simp only [Usb.step] at hstep
      split at hstep
      case isTrue =>
        cases hstep
        exact ⟨h.length, h.flushed, h.phase.endpoint (fun _ => rfl) _ _⟩
      case isFalse => cases hstep

theorem Inv.start : Inv {} :=
  ⟨Nat.zero_le _, le_rfl, .idle rfl rfl ⟨rfl, Or.inl rfl⟩ le_rfl⟩

theorem Phase.handed (h : Phase m) : m.handed <+: m.written := by
  cases h with
  | idle _ written | storeChar _ _ written | transmitChar _ written | setLength _ _ _ _ written
  | copyBlock _ _ _ _ _ written | sent _ _ _ _ _ written | toggled _ _ _ _ _ written
  | clearLength _ _ _ _ _ written =>
      rw [written]
      exact List.prefix_append _ _
  | testRoom _ _ _ _ written | split _ _ _ _ _ written | append _ _ _ _ written | setStart _ _ _ _ _ written
  | transmit _ _ _ _ _ written =>
      rw [written, List.append_assoc]
      exact List.prefix_append _ _

theorem Inv.ordered (h : Inv m) : Ordered m := by
  refine ⟨h.phase.handed, h.length, fun htodo => ?_, fun htodo => (h.phase.of_todo htodo).2.1.start⟩
  obtain ⟨hwritten, -, hflushed⟩ := h.phase.of_todo htodo
  rw [hwritten, List.take_append_of_le_length hflushed]
  exact List.take_prefix _ _

end

/-! ## What the endpoint fetches -/

/-- The part of the packet that has not been fetched is still in the memory. -/
structure Wire (m : Machine) : Prop where
  count : m.xferCount ≤ m.xferLen
  done : m.txDone = true → m.sent = m.handed
  busy : m.txDone = false →
    m.sent ++ load (m.mem m.xferBuf.1) (m.xferBuf.2 + m.xferCount) (m.xferLen - m.xferCount) = m.handed
  char : ∀ c, m.todo = [.storeChar c, .transmitChar] → m.CharFetched

section
variable {m m' : Machine} {rest : List Statement}

theorem Wire.quiet (h : Wire m) {length : ℕ} {s : Area × ℕ} {useTx2data : Bool}
    (hrest : ∀ c, rest ≠ [.storeChar c, .transmitChar]) :
    Wire { m with length := length, s := s, useTx2data := useTx2data, todo := rest } :=
  ⟨h.count, h.done, h.busy, fun c hc => absurd hc (hrest c)⟩

theorem Wire.stored (h : Wire m) {p : Area × ℕ} {l : List Byte} {length : ℕ} {s : Area × ℕ}
    (hp : m.txDone = true ∨ m.xferBuf.1 ≠ p.1 ∨ m.xferCount = m.xferLen)
    (hrest : ∀ c, rest ≠ [.storeChar c, .transmitChar]) :
    Wire { m with mem := m.memcpy p l, length := length, s := s, todo := rest } := by
  refine ⟨h.count, h.done, fun hbusy => ?_, fun c hc => absurd hc (hrest c)⟩
  refine (congrArg _ ?_).trans (h.busy hbusy)
  rcases hp with hdone | hne | hcount
  · exact absurd (hbusy.symm.trans hdone) Bool.false_ne_true
  · exact congrArg (load · _ _) (Function.update_of_ne hne _ _)
  · dsimp only
    rw [hcount, Nat.sub_self, load_zero, load_zero]

theorem Wire.transmit (h : Wire m) (p : Area × ℕ) (n : ℕ) (hrest : ∀ c, rest ≠ [.storeChar c, .transmitChar]) :
    Wire (m.transmit rest p n) := by
  unfold Machine.transmit
  split
  case isTrue hdone =>
    refine ⟨Nat.zero_le _, nofun, fun _ => ?_, fun c hc => absurd hc (hrest c)⟩
    dsimp only
    rw [Machine.handed, handed_transmit, h.done hdone]
    rfl
  case isFalse => exact h

theorem Machine.Away.imp {a : Area} (h : m.Away a) : m.txDone = true ∨ m.xferBuf.1 ≠ a ∨ m.xferCount = m.xferLen :=
  Or.imp_right Or.inl h

theorem rest_ne_char {always : Bool} {d : List Byte} (h : Rest always rest d) (c : Byte) :
    rest ≠ [.storeChar c, .transmitChar] := by
  cases h <;> nofun

theorem Wire.statement (h : Wire m) (hinv : Inv m) (hstep : step m .statement = some m') : Wire m' := by
  have hexec : ∀ {s rest}, m.todo = s :: rest → m' = m.execute rest s := by
    intro s rest htodo
    simp only [step, htodo] at hstep
    exact (Option.some.inj hstep).symm
  cases hinv.phase with
  | idle todo =>
      simp only [step, todo] at hstep
      cases hstep
  | storeChar c todo => exact hexec todo ▸ h.stored (h.char c todo) nofun
  | transmitChar todo => exact hexec todo ▸ h.transmit _ _ nofun
  | testRoom s always todo =>
      refine hexec todo ▸ h.quiet fun c => ?_
      split <;> nofun
  | split s always todo =>
      rw [hexec todo]
      dsimp only [Machine.execute]
      split
      case isTrue => exact h.quiet nofun
      case isFalse =>
        split
        · exact h.quiet nofun
        · exact h.quiet nofun
  | setLength s always _ todo => exact hexec todo ▸ h.quiet nofun
  | copyBlock s always _ _ todo _ start away =>
      refine hexec todo ▸ h.stored ?_ nofun
      rw [start]
      exact away.imp
  | append s always todo _ _ ready =>
      refine hexec todo ▸ h.stored ?_ fun c => ?_
      · rw [ready.start]
        exact ready.away.imp
      · split <;> nofun
  | setStart rest d always _ todo => exact hexec todo ▸ h.quiet nofun
  | transmit rest d always _ todo => exact hexec todo ▸ h.transmit _ _ nofun
  | sent rest d always _ todo =>
      rcases todo with todo | todo | todo
      · refine hexec todo ▸ h.quiet fun c => ?_
        split <;> nofun
      · exact hexec todo ▸ h.transmit _ _ nofun
      · exact hexec todo ▸ h.quiet nofun
  | toggled rest d always _ todo => exact hexec todo ▸ h.quiet nofun
  | clearLength rest d always hrest todo => exact hexec todo ▸ h.quiet (rest_ne_char hrest)

theorem Wire.call (h : Wire m) (f : Call) (hsafe : Action.Settled m (.call f)) : Wire (m.call f) := by
  refine ⟨h.count, h.done, h.busy, fun c hc => ?_⟩
  cases f with
  | usbPutC => exact hsafe
  | usbWriteS s | usbWrite s =>
      have hne : ∀ l : List Statement, (if s.length = 0 then [] else l) = [.storeChar c, .transmitChar] →
          l = [.storeChar c, .transmitChar] := by
        intro l hl
        split at hl
        · cases hl
        · exact hl
      cases hne _ hc

theorem Wire.step (h : Wire m) (hinv : Inv m) (a : Action) (hsafe : a.Settled m) (hstep : step m a = some m') :
    Wire m' := by
  cases a with
  | call f =>
      simp only [Usb.step] at hstep
      split at hstep
      case isTrue =>
        cases hstep
        exact h.call f hsafe
      case isFalse => cases hstep
  | statement => exact h.statement hinv hstep
  | fetch =>
      simp only [Usb.step] at hstep
      split at hstep
      case isTrue hbusy =>
        cases hstep
        obtain ⟨hbusy, hlt⟩ := hbusy
        have hload := h.busy hbusy
        rw [show m.xferLen - m.xferCount = (m.xferLen - (m.xferCount + 1)) + 1 by omega, load_succ] at hload
        refine ⟨hlt, fun hdone => absurd (hbusy.symm.trans hdone) Bool.false_ne_true, fun _ => ?_, fun c hc => ?_⟩
        · rw [List.append_assoc]
          exact hload
        · rcases h.char c hc with hdone | hne | hcount
          · exact Or.inl hdone
          · exact Or.inr (Or.inl hne)
          · exact absurd hcount hlt.ne
      case isFalse => cases hstep
  | complete =>
      simp only [Usb.step] at hstep
      split at hstep
      case isTrue hbusy =>
        cases hstep
        have hload := h.busy hbusy.1
        rw [hbusy.2, Nat.sub_self, load_zero, List.append_nil] at hload
        exact ⟨h.count, fun _ => hload, nofun, fun _ _ => Or.inl rfl⟩
      case isFalse => cases hstep

theorem Wire.intact (h : Wire m) : Intact m := by
  cases hdone : m.txDone with
  | true => exact ⟨[], (List.append_nil _).trans (h.done hdone)⟩
  | false => exact ⟨_, h.busy hdone⟩

/-! ## Calls end -/

/-- More than the statements that a statement can lead to, itself included. -/
def Statement.work : Statement → ℕ
  | .testLength => 2
  | .testRoom _ => 8
  | .split s _ => 10 * s.length + 10
  | _ => 1

theorem statement_progress (hmax : 0 < m.maxLength) (hstep : step m .statement = some m') :
    m' = m ∨ (m'.todo.map Statement.work).sum < (m.todo.map Statement.work).sum := by
  cases htodo : m.todo with
  | nil =>
      simp only [step, htodo] at hstep
      cases hstep
  | cons s rest =>
      simp only [step, htodo] at hstep
      cases hstep
      have hsend : ∀ p n, m.transmit rest p n = m ∨
          ((m.transmit rest p n).todo.map Statement.work).sum < (rest.map Statement.work).sum + 1 := by
        intro p n
        unfold Machine.transmit
        split
        · exact Or.inr (Nat.lt_succ_self _)
        · exact Or.inl rfl
      rw [List.map_cons, List.sum_cons, Nat.add_comm]
      cases s with
      | transmit | transmitDummy | transmitChar => exact hsend _ _
      | split s always =>
          refine Or.inr ?_
          dsimp only [Machine.execute]
          split
          case isTrue hlong =>
            simp only [usbWriteBlock, List.map_append, List.map_cons, List.map_nil, List.sum_append, List.sum_cons,
              List.sum_nil, Statement.work, List.length_drop]
            omega
          case isFalse =>
            split
            · split
              · simp only [usbWriteBlock, List.map_append, List.map_cons, List.map_nil, List.sum_append, List.sum_cons,
                  List.sum_nil, Statement.work]
                omega
              · simp only [List.nil_append, List.map_cons, List.sum_cons, Statement.work]
                omega
            · simp only [Statement.work]
              omega
      | testRoom n =>
          refine Or.inr ?_
          dsimp only [Machine.execute]
          split
          · simp only [usbWriteBlock, List.map_append, List.map_cons, List.map_nil, List.sum_append, List.sum_cons,
              List.sum_nil, Statement.work]
            omega
          · simp only [Statement.work]
            omega
      | testLength =>
          refine Or.inr ?_
          dsimp only [Machine.execute]
          split
          · simp only [List.map_cons, List.sum_cons, Statement.work]
            omega
          · simp only [Statement.work]
            omega
      | setStart | toggle | clearLength | storeChar | setLength | copyBlock | append =>
          exact Or.inr (Nat.lt_succ_self _)

/-! ## Runs -/

/-- While characters are written in order so is everything; if each has been fetched before the next one is
written, the endpoint fetches just that. -/
theorem ordered_of_in_order {as : List Action} (hsafe : Along step (fun m a => a.InOrder m) {} as)
    (hrun : run step {} as = some m) :
    Ordered m ∧ (Along step (fun m a => a.Settled m) {} as → Intact m) := by
  have hinv : Inv m := run_invariant_along (fun _ a _ h hs hstep => h.step a hs hstep) as {} m Inv.start hsafe hrun
  refine ⟨hinv.ordered, fun hsettled => ?_⟩
  have hwire : Inv m ∧ Wire m := run_invariant_along (I := fun m => Inv m ∧ Wire m)
    (fun _ a _ h hs hstep => ⟨h.1.step a hs.1 hstep, h.2.step h.1 a hs.2 hstep⟩) as {} m
    ⟨Inv.start, Nat.zero_le _, fun _ => rfl, nofun, nofun⟩ (hsafe.and hsettled) hrun
  exact hwire.2.intact

end

/-- "ok", LF with 64 characters before it, and a character. -/
def Example.line : List Action :=
  [Action.call (.usbWriteS (List.replicate 61 0x41))] ++ List.replicate 3 Action.statement ++
    [Action.call (.usbWriteS [0x6F, 0x6B, 0x0A])] ++ List.replicate 5 Action.statement ++ List.replicate 64 Action.fetch ++
    [Action.complete] ++ List.replicate 5 Action.statement ++ [Action.complete, .call (.usbPutC 0x06), .statement, .statement, .fetch]

theorem ordered_of_in_order_line : ∃ m, run step {} Example.line = some m ∧ Ordered m ∧ Intact m := by
  have hsafe : Along step (fun m a => a.InOrder m) {} Example.line := by decide +kernel
  have hsettled : Along step (fun m a => a.Settled m) {} Example.line := by decide +kernel
  have hline : ∃ m, run step {} Example.line = some m := Option.isSome_iff_exists.1 (by decide +kernel)
  obtain ⟨m, hrun⟩ := hline
  exact ⟨m, hrun, (ordered_of_in_order hsafe hrun).1, (ordered_of_in_order hsafe hrun).2 hsettled⟩

/-! ## Runs that break it -/

/-- A character is sent before the text that was written before it. -/
theorem char_overtakes_text : ∃ m, run step {} [.call (.usbWriteS [0x61]), .statement, .statement, .statement,
      .call (.usbPutC 0x62), .statement, .statement] = some m ∧
    m.written = [0x61, 0x62] ∧ m.handed = [0x62] ∧ ¬ Ordered m := by
  refine ⟨_, rfl, rfl, rfl, fun h => ?_⟩
  have hhanded : [(0x62 : Byte)] <+: [0x61, 0x62] := h.handed
  exact absurd hhanded (by decide +kernel)

theorem char_is_overwritten : ∃ m, run step {} [.call (.usbPutC 0x61), .statement, .statement, .call (.usbPutC 0x62),
      .statement, .fetch, .complete, .statement, .fetch] = some m ∧
    m.handed = [0x61, 0x62] ∧ m.sent = [0x62, 0x62] ∧ ¬ Intact m := by
  refine ⟨_, rfl, by decide +kernel, by decide +kernel, fun h => ?_⟩
  have hsent : [(0x62 : Byte), 0x62] <+: [0x61, 0x62] := h
  exact absurd hsent (by decide +kernel)

/-- `usbWrite` with nothing to write leaves what is buffered in the buffer. -/
theorem empty_write_does_not_flush : ∃ m, run step {} [.call (.usbWriteS [0x61]), .statement, .statement, .statement,
      .call (.usbWrite [])] = some m ∧ m.todo = [] ∧ m.handed = [] ∧ ¬ Ordered m := by
  refine ⟨_, rfl, rfl, rfl, fun h => ?_⟩
  have hflushed : [(0x61 : Byte)] <+: [] := h.flushed rfl
  exact absurd hflushed (by decide +kernel)

end Grbl.Stream.Usb
