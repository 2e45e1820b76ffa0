import Mathlib
import Grbl.Lib.RingQueue

/-!
# The receive buffer of a stream

* `RxBuffer` : `stream_rx_buffer_t`; `RxBuffer.unread` : what it holds;
* `rxInterrupt` : a character arrives, `rxCancel` : `serialRxCancel`, run at once;
* `bufNext_eq`, `bufCount_eq` : the macros are the ring arithmetic of `Lib.Ring`;
* `rxInterrupt_unread`, `rxInterrupt_full`, `rxCancel_unread` : what they do to the unread characters.
-/

namespace Grbl.Stream
open Lib

abbrev Byte := UInt8

def asciiCAN : Byte := 0x18

/-- `RX_BUFFER_SIZE`, a power of 2. -/
def rxBufferSize : ℕ := 1024

/-- `stream_rx_buffer_t` -/
structure RxBuffer where
  head : ℕ := 0
  tail : ℕ := 0
  overflow : Bool := false
  backup : Bool := false
  data : ℕ → Byte := fun _ => 0

def bufNext (ptr : ℕ) : ℕ := (ptr + 1) &&& (rxBufferSize - 1)

def bufCount (head tail size : ℕ) : ℕ := if tail ≤ head then head - tail else size - tail + head

/-- The last slot. -/
abbrev top : ℕ := rxBufferSize - 1

theorem bufNext_eq {ptr : ℕ} (h : ptr < top + 1) : bufNext ptr = ringNext top ptr := by
  rw [bufNext, show rxBufferSize - 1 = 2 ^ 10 - 1 from rfl, Nat.and_two_pow_sub_one_eq_mod, ringNext_eq h, slot]
  rfl

theorem bufCount_eq {head tail : ℕ} (ht : tail < top + 1) : bufCount head tail rxBufferSize = count top tail head := by
  unfold bufCount count
  simp only [top, rxBufferSize] at *
  split <;> omega

namespace RxBuffer

/-- Both indices are in the buffer. -/
structure Ok (b : RxBuffer) : Prop where
  head : b.head < top + 1
  tail : b.tail < top + 1

/-- How many characters are unread. -/
def count (b : RxBuffer) : ℕ := bufCount b.head b.tail rxBufferSize

/-- The unread characters, oldest first. -/
def unread (b : RxBuffer) : List Byte := contents top b.data b.tail b.head

/-- The receive interrupt, for a character that is not a realtime command. -/
def rxInterrupt (b : RxBuffer) (c : Byte) : RxBuffer :=
  let nextHead := bufNext b.head
  if nextHead = b.tail then { b with overflow := true }
  else { b with data := Function.update b.data b.head c, head := nextHead }

/-- The buffer is flushed and a CAN character added. -/
def rxCancel (b : RxBuffer) : RxBuffer :=
  { b with data := Function.update b.data b.head asciiCAN, tail := b.head, head := bufNext b.head }

theorem Ok.start : ({} : RxBuffer).Ok := ⟨by decide, by decide⟩

theorem unread_start : ({} : RxBuffer).unread = [] := contents_self

section
variable {b : RxBuffer}

theorem Ok.count_eq (h : b.Ok) : b.count = b.unread.length := by
  rw [count, bufCount_eq h.tail, unread, length_contents]

theorem Ok.unread_eq_nil (h : b.Ok) : b.unread = [] ↔ b.tail = b.head := contents_eq_nil h.tail

theorem Ok.full_iff (h : b.Ok) : bufNext b.head = b.tail ↔ b.count = top := by
  have hlt := Lib.count_lt h.tail h.head
  rw [bufNext_eq h.head, count, bufCount_eq h.tail, ← not_iff_not, ← ne_eq, ringNext_ne_iff h.tail h.head]
  omega

theorem Ok.rxInterrupt (h : b.Ok) (c : Byte) : (b.rxInterrupt c).Ok := by
  unfold RxBuffer.rxInterrupt
  dsimp only
  split
  · exact ⟨h.head, h.tail⟩
  · exact ⟨by rw [bufNext_eq h.head]; exact ringNext_lt h.head, h.tail⟩

theorem rxInterrupt_full (hfull : bufNext b.head = b.tail) (c : Byte) : b.rxInterrupt c = { b with overflow := true } :=
  if_pos hfull

theorem rxInterrupt_room (hroom : bufNext b.head ≠ b.tail) (c : Byte) :
    b.rxInterrupt c = { b with data := Function.update b.data b.head c, head := bufNext b.head } :=
  if_neg hroom

theorem rxInterrupt_unread (h : b.Ok) (hroom : bufNext b.head ≠ b.tail) (c : Byte) :
    (b.rxInterrupt c).unread = b.unread ++ [c] := by
  rw [rxInterrupt_room hroom, unread, unread]
  dsimp only
  rw [bufNext_eq h.head] at hroom ⊢
  exact contents_push h.tail h.head hroom c

theorem Ok.rxCancel (h : b.Ok) : b.rxCancel.Ok :=
  ⟨by rw [RxBuffer.rxCancel, bufNext_eq h.head]; exact ringNext_lt h.head, h.head⟩

theorem bufNext_ne {ptr : ℕ} (h : ptr < top + 1) : bufNext ptr ≠ ptr := by
  intro he
  rw [bufNext_eq h, ringNext] at he
  have htop : top = 1023 := rfl
  split at he <;> omega

theorem bufNext_inj {i j : ℕ} (hi : i < top + 1) (hj : j < top + 1) (h : bufNext i = bufNext j) : i = j := by
  rw [bufNext_eq hi, bufNext_eq hj] at h
  rw [← ringPrev_ringNext top i, h, ringPrev_ringNext]

theorem rxCancel_unread (h : b.Ok) : b.rxCancel.unread = [asciiCAN] := by
  unfold RxBuffer.rxCancel unread
  dsimp only
  have hne := bufNext_ne h.head
  rw [bufNext_eq h.head] at hne ⊢
  rw [contents_push h.head h.head hne, contents_self, List.nil_append]

end

end RxBuffer

end Grbl.Stream
