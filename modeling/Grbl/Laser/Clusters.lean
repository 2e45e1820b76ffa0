import Mathlib
import Grbl.Lib.Run
import Grbl.Ngc.Expr

/-!
# Decoding of clusters of engraving moves

S values are not scaled. A C string is the list of its characters.

* `Buffer`, `Access`, `copy` : the buffers, and what is done to them;
* `head`, `split`, `ftoa`, `consumed` : the parts of a line;
* `decode` : a line with a cluster, the same in both decoders but for a copy that one of them makes;
* `Decoder`, `fileFillBuffer`, `streamFillBuffer`, `fileDecoder`, `streamDecoder` : the decoders;
* `Action`, `step` : what may come next.
-/

namespace Grbl.Laser.Clusters
open Lib

def lineBufferSize : ℕ := 257

/-- `LB_CLUSTER_SIZE` -/
def clusterSize : ℕ := 16

/-- `input.block`, `cluster.block`, `cluster.param` and the rows of `cluster.sval` -/
inductive Buffer
  | input | block | param
  | sval (row : ℕ)
  deriving DecidableEq, Repr

def Buffer.size : Buffer → ℕ
  | .input => lineBufferSize
  | .block => 34
  | .param => 24
  | .sval row => if row < clusterSize then 10 else 0

/-- A character stored, a read behind the terminator of the line, a write through a pointer that is NULL. -/
inductive Access
  | store (b : Buffer) (i : ℕ)
  | past
  | null
  deriving DecidableEq, Repr

/-- The stores of a string and its terminator, as `strcpy` makes them. -/
def copy (b : Buffer) (i : ℕ) (s : List Char) : List Access := (List.range (s.length + 1)).map fun k => .store b (i + k)

/-! ## The parts of a line -/

/-- The characters up to the first `S`, without blanks, and what follows it, unless the line ends before. -/
def head : List Char → List Char × Option (List Char)
  | [] => ([], none)
  | c :: s =>
      if c = 'S' then ([c], some s)
      else (if c = ' ' then (head s).1 else c :: (head s).1, (head s).2)

/-- The line end as a string. -/
def eolString (eol : Char) : List Char := if eol = '\x00' then [] else [eol]

/-- How the loop over the S values ends: at the end of the line, with too many values, or behind the end of the line. -/
inductive Ending
  | done | full | past
  deriving DecidableEq

structure Split where
  accesses : List Access
  values : List (List Char)
  ending : Ending

/-- What is done with the value in front of a colon at `pos`. -/
def storeValue (count pos : ℕ) (value : List Char) : List Access :=
  .store .input pos :: .store .input (pos + 1) :: (copy (.sval count) 0 value ++ [.store .input (pos + 1)])

/-- The loop over the S values, from the position `pos` of the line on; `v` has been read of the current one. The character
behind a colon is not looked at. -/
def split (eol : Char) : ℕ → ℕ → List Char → List Char → Split
  | count, pos, v, [] => ⟨.store .input pos :: copy (.sval count) 0 v, [v], .done⟩
  | count, pos, v, [c] =>
      if c = ':' then
        ⟨storeValue count pos (v ++ eolString eol), [v ++ eolString eol], if count + 1 = clusterSize then .full else .past⟩
      else ⟨.store .input (pos + 1) :: copy (.sval count) 0 (v ++ [c]), [v ++ [c]], .done⟩
  | count, pos, v, c :: d :: s =>
      if c = ':' then
        if count + 1 = clusterSize then ⟨storeValue count pos (v ++ eolString eol), [v ++ eolString eol], .full⟩
        else
          let r := split eol (count + 1) (pos + 2) [d] s
          ⟨storeValue count pos (v ++ eolString eol) ++ r.accesses, (v ++ eolString eol) :: r.values, r.ending⟩
      else split eol count (pos + 1) (v ++ [c]) (d :: s)

/-- What `ftoa` makes of a float: its sign, and its integer part and eight decimals as integers. -/
structure Number where
  negative : Bool
  whole : UInt32
  decimals : UInt32

def decimal (b k : ℕ) : Char := Nat.digitChar (b / 10 ^ k % 10)

/-- `ftoa(.., 8)` -/
def ftoa (n : Number) : List Char :=
  (if n.negative then ['-'] else []) ++ (Nat.toDigits 10 n.whole.toNat ++ '.' :: (List.range 8).reverse.map (decimal n.decimals.toNat))

/-- How far `read_float` reads. -/
def consumed (s : List Char) : ℕ :=
  let (f, rest) := Ngc.scanFloat {} (Ngc.readSign s).2
  if f.ok then s.length - rest.length else 0

/-- The loop that takes zeros from the end. -/
def trimZeros (s : List Char) : List Char := s.rdropWhile (· = '0')

/-! ## A line with a cluster -/

/-- What has been made of a line: nothing after a fault, nothing with too many values, or what the moves consist of. -/
inductive Outcome
  | fault | full
  | cluster (front stem param : List Char) (values : List (List Char))
  deriving DecidableEq

structure Decoded where
  accesses : List Access
  outcome : Outcome

/-- The characters of `cluster.block` behind the axis are replaced by the number divided by that of the values. -/
def storeNumber (text : List Char) : List Access :=
  copy .block 3 text ++
    (List.range (text.length - (trimZeros text).length)).map (fun k => .store .block (3 + (trimZeros text).length + k)) ++
      copy .block (3 + (trimZeros text).length) ['S']

/-- The rest of the line from the first value on; `h` is what comes before it. -/
def finish (convert : List Char → ℕ → Number) (eol : Char) (h : List Char) (values : List (List Char)) : Decoded :=
  let s := h.drop 3
  let tail := s.drop (consumed s)
  let text := ftoa (convert s values.length)
  let v := values.headD []
  if tail.length = 1 then
    ⟨storeNumber text, .cluster (h.take 3) (trimZeros text) [] values⟩
  else if 'S' ∉ tail then ⟨copy .param 0 tail ++ [.null], .fault⟩
  else if eol ≠ '\x00' ∧ eol ∉ v then ⟨copy .param 0 tail ++ [.store .param (tail.idxOf 'S'), .null], .fault⟩
  else
    ⟨copy .param 0 tail ++ [.store .param (tail.idxOf 'S'), .store (.sval 0) (v.takeWhile (· ≠ eol)).length] ++ storeNumber text,
      .cluster (h.take 3) (trimZeros text) (tail.takeWhile (· ≠ 'S') ++ eolString eol)
        (v.takeWhile (· ≠ eol) :: values.tail)⟩

/-- A line with a colon that starts with `G1`; `early` is set in the stream decoder, which copies the head to `cluster.param`. -/
def decode (convert : List Char → ℕ → Number) (early : Bool) (eol : Char) (line : List Char) : Decoded :=
  let (h, rest) := head line
  let accesses := copy .block 0 h ++ if early then copy .param 0 h else []
  match rest with
  | none => ⟨accesses ++ [.past], .fault⟩
  | some rest =>
      let r := split eol 0 (line.length - rest.length) [] rest
      match r.ending with
      | .past => ⟨accesses ++ r.accesses ++ [.past], .fault⟩
      | .full => ⟨accesses ++ r.accesses, .full⟩
      | .done =>
          let f := finish convert eol h r.values
          ⟨accesses ++ r.accesses ++ f.accesses, f.outcome⟩

/-- `input.length > 5 && !strncasecmp(input.block, "G1", 2) && strchr(input.block, ':')` -/
def isCluster (length : ℕ) (line : List Char) : Bool :=
  5 < length && ((line.head? = some 'G' ∨ line.head? = some 'g') && line.tail.head? = some '1') && line.contains ':'

/-! ## The decoders -/

/-- Where `input.s` points to. -/
inductive Source
  | null
  | input (i : ℕ)
  | cmd (i : ℕ)
  deriving DecidableEq

/-- `block` is what is in `input.block` in front of its last terminator, `s` the static pointer of `stream_fill_buffer`,
`fromFile` says which decoder `hal.stream.read` is, and `accesses` is what has been done to memory. -/
structure Decoder where
  block : List Char := []
  source : Source := .null
  eol : Char := '\x00'
  length : ℕ := 0
  cmd : List Char := []
  front : List Char := []
  stem : List Char := []
  param : List Char := []
  values : List (List Char) := []
  count : ℕ := 0
  next : ℕ := 0
  s : Option (Buffer × ℕ) := none
  buffering : Bool := true
  fromFile : Bool := false
  accesses : List Access := []

def isEol (c : Char) : Bool := c = '\n' || c = '\r'

/-- What `file_read` gives of a line: the characters up to its end. -/
def readLine : List Char → List Char
  | [] => []
  | c :: s => if isEol c then [c] else c :: readLine s

/-- The string in `input.block`. -/
def string (block : List Char) : List Char := block.takeWhile (· ≠ '\x00')

namespace Decoder
variable (convert : List Char → ℕ → Number)

def access (m : Decoder) (as : List Access) : Decoder := { m with accesses := m.accesses ++ as }

/-- A line that has been decoded; with too many values `cluster.count` stays where it is. -/
def start (m : Decoder) (d : Decoded) : Decoder :=
  let m := m.access d.accesses
  match d.outcome with
  | .cluster front stem param values =>
      { m with front := front, stem := stem, param := param, values := values, count := values.length, next := 0 }
  | .full => { m with count := clusterSize, next := 0 }
  | .fault => { m with count := 0, next := 0 }

/-- The next move of the cluster is put together. -/
def emit (m : Decoder) : Decoder :=
  let value := m.values.getD m.next []
  let pos := 3 + m.stem.length + 1
  let cmd := m.front ++ m.stem ++ ['S'] ++ value ++ m.param
  { m.access (copy .block pos value ++ if m.param ≠ [] then copy .block (pos + value.length) m.param else []) with
    param := []
    next := m.next + 1
    count := if m.next + 1 = m.count then 0 else m.count
    cmd := cmd
    source := .cmd 0
    length := cmd.length }

/-- A character is taken from where `input.s` points to. -/
def deliver (m : Decoder) : Decoder × Option Char :=
  match m.source with
  | .null => (m, none)
  | .input i => ({ m with source := .input (i + 1), length := m.length - 1 }, some (m.block.getD i '\x00'))
  | .cmd i => ({ m with source := .cmd (i + 1), length := m.length - 1 }, some (m.cmd.getD i '\x00'))

/-- The line end of a line; the second of two different ones in a row is dropped. -/
def endLine (m : Decoder) (c : Char) : Decoder :=
  if m.length = 1 ∧ m.eol ≠ '\x00' ∧ m.eol ≠ c then { m with eol := c, source := .input 1, length := 0 } else { m with eol := c }

/-- A line is read from the file; `bytes` is what there is of it. -/
def fileLine (m : Decoder) (bytes : List Char) : Decoder :=
  let line := readLine bytes
  let m := { m.access (copy .input 0 line) with block := line, source := .input 0, length := line.length }
  let m :=
    match line.getLast? with
    | some c => if isEol c then m.endLine c else m
    | none => m
  if isCluster m.length (string m.block) then
    let d := decode convert false m.eol (string m.block)
    if d.outcome = .full then { m.start d with count := 0, length := 0 } else m.start d
  else m

def fileFillBuffer (m : Decoder) (bytes : List Char) : Decoder :=
  let m := if m.count = 0 then m.fileLine convert bytes else m
  if m.count ≠ 0 then m.emit else m

def fileDecoder (m : Decoder) (bytes : List Char) : Decoder × Option Char :=
  let m := if m.length = 0 then m.fileFillBuffer convert bytes else m
  if m.length ≠ 0 then m.deliver else (m, none)

/-- What `stream_fill_buffer` returns: 0 when there is a line, or a character it has read, or `SERIAL_NO_DATA`. -/
inductive Fill
  | ready
  | more (c : Option Char)
  deriving DecidableEq

/-- `ASCII_CAN` -/
def can : Char := '\x18'

/-- `*s++ = (char)c` -/
def put (m : Decoder) (c : Char) : Decoder :=
  match m.s with
  | none => m
  | some (b, i) =>
      { m.access [.store b i] with s := some (b, i + 1), block := if b = .input then m.block.take i ++ [c] else m.block }

/-- `s--` -/
def back (m : Decoder) : Decoder := { m with s := m.s.map fun p => (p.1, p.2 - 1) }

/-- `*s = '\0'` -/
def terminate (m : Decoder) : Decoder :=
  match m.s with
  | none => m
  | some (b, i) => m.access [.store b i]

/-- The next move of the cluster; the static pointer is cleared with the last one. -/
def streamEmit (m : Decoder) : Decoder :=
  { m.emit with s := if m.next + 1 = m.count then none else m.s }

def streamLine (m : Decoder) : Decoder × Fill :=
  let m := m.terminate
  if isCluster m.length (string m.block) then
    let d := decode convert true m.eol (string m.block)
    let m := m.start d
    if d.outcome = .full then ({ m with s := none }, .more none)
    else
      let m := { m with s := some (.block, 3) }
      (if m.count ≠ 0 then m.streamEmit else m, .ready)
  else ({ m with s := none }, .ready)

/-- A character has been read. -/
def streamChar (m : Decoder) (c : Char) : Decoder × Fill :=
  let m := { m with length := m.length + 1 }
  if lineBufferSize - 1 ≤ m.length then ({ m with s := none }, .more none)
  else
    let m := m.put c
    if isEol c then
      if m.length = 1 ∧ m.eol ≠ '\x00' ∧ m.eol ≠ c then ({ m with eol := '\x00', length := 0 }.back, .more none)
      else { m with eol := c }.streamLine convert
    else (m, .more none)

/-- `stream_fill_buffer`; `c` is what `stream_read` returns. -/
def streamFillBuffer (m : Decoder) (c : Option Char) (aborted : Bool) : Decoder × Fill :=
  let m :=
    if m.s = none ∨ m.source = .null then
      { m with source := .input 0, s := some (.input, 0), block := [], count := 0, length := 0 }
    else m
  if m.count = 0 then
    if c = none ∨ c = some can then (if aborted then { m with count := 0, length := 0, s := none } else m, .more c)
    else m.streamChar convert (c.getD can)
  else (m.streamEmit, .ready)

/-- What follows the loop of `stream_decoder`. -/
def hand (m : Decoder) : Decoder × Option Char := if m.length ≠ 0 then m.deliver else ({ m with buffering := true }, none)

def streamDecoder (m : Decoder) (c : Option Char) (aborted : Bool) : Decoder × Option Char :=
  if m.buffering then
    match m.streamFillBuffer convert c aborted with
    | (m, .ready) => { m with buffering := false }.hand
    | (m, .more c) => if aborted then { m with buffering := false }.hand else (m, c)
  else m.hand

/-- `cluster_status_message` with an error. -/
def failed (m : Decoder) : Decoder :=
  if m.next ≠ 0 then { m with source := .null, count := 0, next := 0, length := 0 } else m

/-- What a change of the stream and a reset do. -/
def clear (m : Decoder) : Decoder := { m with count := 0, next := 0, length := 0 }

end Decoder

/-- A call of the decoder in use, with what there is to be read; an error reported; a change of the stream; a reset. -/
inductive Action
  | file (bytes : List Char)
  | stream (c : Option Char) (aborted : Bool)
  | failed
  | changed (file : Bool)
  | reset
  deriving DecidableEq

def step (convert : List Char → ℕ → Number) (m : Decoder) : Action → Option Decoder
  | .file bytes => if m.fromFile then some (m.fileDecoder convert bytes).1 else none
  | .stream c aborted => if m.fromFile then none else some (m.streamDecoder convert c aborted).1
  | .failed => some m.failed
  | .changed file => some { m.clear with fromFile := file }
  | .reset => some m.clear

end Grbl.Laser.Clusters
