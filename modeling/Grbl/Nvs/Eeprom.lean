import Mathlib
import Grbl.Lib.Cells
import Grbl.Nvs.Buffer

/-!
# The EEPROM drivers

* `Driver` : what the two drivers do not share; `eeprom24AAxxx`, `eeprom24LC16B` : the two drivers;
* `storeWrapped` : what a device does with the bytes of a transfer;
* `Bus`, `Driver.transfer` : `i2c_nvs_transfer`, which the device may refuse;
* `putByte`, `writePages`, `writeBlock` : writing; `getByte`, `readBlock` : reading;
* `writePages_spec` : what the loop over the pages does;
* `Driver.Confined`, `Driver.Reported` : what is to hold of a call; `writeBlock_confined`, `confined_and_reported_iff` : when it does;
* `writeBlock_eq_physicalMemcpy` : without a checksum it is a `memcpy_to_nvs` as the RAM buffer takes it to be.
-/

namespace Grbl.Nvs
open Lib

/-- `nvs_transfer_t`: where it goes, and the bytes. -/
structure Packet where
  address : ℕ
  wordAddr : ℕ
  data : List Byte
  deriving DecidableEq

/-- What the two drivers do not share. -/
structure Driver where
  /-- `EEPROM_PAGE_SIZE` is `2 ^ pageBits`. -/
  pageBits : ℕ
  /-- How many bytes the addresses can tell apart. -/
  capacity : ℕ
  /-- `i2c.address` and `i2c.word_addr` -/
  select : ℕ → ℕ × ℕ
  /-- The byte of the device that they mean. -/
  locate : ℕ × ℕ → ℕ
  /-- The checksum is written after a refused transfer too. -/
  checksumAlways : Bool
  locate_select : ∀ a < capacity, locate (select a) = a

/-- `eeprom_24AAxxx.c`; the page size depends on `EEPROM_ENABLE`. -/
def eeprom24AAxxx (large : Bool) : Driver where
  pageBits := if large then 6 else 5
  capacity := 2 ^ 16
  select a := (0x50, a % 2 ^ 16)
  locate p := p.2
  checksumAlways := true
  locate_select _ ha := Nat.mod_eq_of_lt ha

/-- `eeprom_24LC16B.c`; the device looks at the last three bits of the address. -/
def eeprom24LC16B : Driver where
  pageBits := 4
  capacity := 2 ^ 11
  select a := (0x50 ||| a >>> 8, a &&& 0xFF)
  locate p := (p.1 &&& 7) * 256 + p.2
  checksumAlways := false
  locate_select a ha := by
    have hblock : a / 256 < 8 := by omega
    have hlow : a &&& 255 = a % 256 := Nat.and_two_pow_sub_one_eq_mod a 8
    have hhigh : (0x50 ||| a / 256) &&& 7 = a / 256 := by
      generalize a / 256 = q at hblock
      interval_cases q <;> rfl
    have hshift : a >>> 8 = a / 256 := Nat.shiftRight_eq_div_pow a 8
    show ((0x50 ||| a >>> 8) &&& 7) * 256 + (a &&& 255) = a
    rw [hshift, hhigh, hlow]
    omega

/-- The bytes of a transfer are stored one behind the other, and behind the end of a page at its start. -/
def storeWrapped (pageSize : ℕ) : ℕ → List Byte → (ℕ → Byte) → ℕ → Byte
  | _, [], mem => mem
  | a, c :: cs, mem => storeWrapped pageSize (a - a % pageSize + (a + 1) % pageSize) cs (Function.update mem a c)

/-- The bytes of the device, and the transfers to it so far. -/
structure Bus where
  mem : ℕ → Byte
  issued : List Packet := []

namespace Driver
variable (d : Driver) (refused : ℕ → Bool)

def pageSize : ℕ := 2 ^ d.pageBits

/-- The byte a transfer starts with. -/
def start (p : Packet) : ℕ := d.locate (p.address, p.wordAddr)

/-- `i2c_nvs_transfer(&i2c, false)`; the transfers for which `refused` holds, counted from zero, are refused. -/
def transfer (p : Packet) (b : Bus) : Bool × Bus :=
  if refused b.issued.length then (false, { b with issued := b.issued ++ [p] })
  else (true, ⟨storeWrapped d.pageSize (d.start p) p.data b.mem, b.issued ++ [p]⟩)

/-- A transfer to an address. -/
def packet (destination : ℕ) (data : List Byte) : Packet := ⟨(d.select destination).1, (d.select destination).2, data⟩

def putByte (addr : ℕ) (newValue : Byte) (b : Bus) : Bus := (d.transfer refused (d.packet addr [newValue]) b).2

/-- `i2c.count` of a transfer from the loop. -/
def count (destination remaining : ℕ) : ℕ := min remaining (d.pageSize - (destination &&& (d.pageSize - 1)))

/-- The loop of `writeBlock`, with the destination it has got to; there are at most as many turns as there are bytes. -/
def writePages : ℕ → ℕ → List Byte → Bus → Bool × ℕ × Bus
  | 0, destination, _, b => (true, destination, b)
  | n + 1, destination, target, b =>
    if target = [] then (true, destination, b)
    else
      let count := d.count destination target.length
      let r := d.transfer refused (d.packet destination (target.take count)) b
      if r.1 then writePages n (destination + count) (target.drop count) r.2 else (false, destination + count, r.2)

def writeBlock (destination : ℕ) (source : List Byte) (withChecksum : Bool) (b : Bus) : Bool × Bus :=
  let r := d.writePages refused source.length destination source b
  if (d.checksumAlways ∨ r.1) ∧ source ≠ [] ∧ withChecksum then
    let checksum := calcChecksum source
    let b := d.putByte refused r.2.1 (checksum &&& 0xFF).toUInt8 r.2.2
    (r.1, d.putByte refused (r.2.1 + 1) (checksum >>> 8).toUInt8 b)
  else (r.1, r.2.2)

/-- `i2c_nvs_transfer(&i2c, true)`: `n` bytes are read. -/
def receive (mem : ℕ → Byte) (source n : ℕ) : List Byte :=
  (List.range n).map fun k => mem ((d.locate (d.select source) + k) % d.capacity)

def getByte (mem : ℕ → Byte) (addr : ℕ) : Byte := (d.receive mem addr 1).headD 0

/-- The loop of `readBlock`. -/
def readBytes (mem : ℕ → Byte) : ℕ → ℕ → ℕ → List Byte
  | 0, _, _ => []
  | n + 1, source, remaining =>
    if remaining = 0 then []
    else
      let count := if remaining > 255 then 255 else remaining
      d.receive mem source count ++ readBytes mem n (source + count) (remaining - count)

/-- The result, and what `destination` is then. -/
def readBlock (mem : ℕ → Byte) (source size : ℕ) (withChecksum : Bool) : Bool × List Byte :=
  let destination := d.readBytes mem size source size
  let source := source + size
  (!withChecksum || calcChecksum destination =
    ((d.getByte mem source).toUInt16 ||| (d.getByte mem (source + 1)).toUInt16 <<< 8), destination)

/-! ## What is to hold -/

/-- The transfers of a call stay in a page each, and only bytes of the block change. -/
structure Confined (destination : ℕ) (source : List Byte) (withChecksum : Bool) (mem : ℕ → Byte) : Prop where
  inPage : ∀ p ∈ (d.writeBlock refused destination source withChecksum ⟨mem, []⟩).2.issued,
    d.start p % d.pageSize + p.data.length ≤ d.pageSize
  frame : ∀ a, a < destination ∨ destination + source.length + nvsCrcBytes ≤ a →
    (d.writeBlock refused destination source withChecksum ⟨mem, []⟩).2.mem a = mem a

/-- When all is reported to be well the block can be read back. -/
def Reported (destination : ℕ) (source : List Byte) (mem : ℕ → Byte) : Prop :=
  (d.writeBlock refused destination source true ⟨mem, []⟩).1 = true →
    d.readBlock (d.writeBlock refused destination source true ⟨mem, []⟩).2.mem destination source.length true = (true, source)

/-- How many pages a block without its checksum touches. -/
def pages (destination size : ℕ) : ℕ :=
  if size = 0 then 0 else (destination + size - 1) / d.pageSize - destination / d.pageSize + 1

/-- A byte of the checksum is accepted, or it is there already. -/
def ChecksumByte (destination : ℕ) (source : List Byte) (mem : ℕ → Byte) (k : ℕ) (c : Byte) : Prop :=
  source ≠ [] ∧ refused (d.pages destination source.length + k) = false ∨ mem (destination + source.length + k) = c

/-- One of the pages is refused, or both bytes of the checksum get there. -/
def Settled (destination : ℕ) (source : List Byte) (mem : ℕ → Byte) : Prop :=
  (∃ i < d.pages destination source.length, refused i = true) ∨
    d.ChecksumByte refused destination source mem 0 (calcChecksum source &&& 0xFF).toUInt8 ∧
      d.ChecksumByte refused destination source mem 1 (calcChecksum source >>> 8).toUInt8

/-! ## Transfers -/

variable {d refused} {destination n : ℕ} {source target : List Byte} {mem : ℕ → Byte} {b : Bus}

theorem pageSize_pos (d : Driver) : 0 < d.pageSize := Nat.two_pow_pos _

theorem storeWrapped_eq {pageSize : ℕ} : ∀ (data : List Byte) (a : ℕ) (mem : ℕ → Byte),
    a % pageSize + data.length ≤ pageSize → storeWrapped pageSize a data mem = store mem a data := by
  intro data
  induction data with
  | nil => intro a mem _; exact store_nil.symm
  | cons c cs ih =>
      intro a mem h
      rw [List.length_cons] at h
      rw [storeWrapped, store_cons]
      rcases eq_or_ne cs [] with rfl | hcs
      · rw [storeWrapped, store_nil]
      · have hlen : 0 < cs.length := List.length_pos_iff.2 hcs
        have hmod : (a + 1) % pageSize = a % pageSize + 1 := by
          rw [Nat.add_mod, Nat.mod_eq_of_lt (show 1 < pageSize by omega), Nat.mod_eq_of_lt (by omega)]
        have hnext : a - a % pageSize + (a + 1) % pageSize = a + 1 := by
          have := Nat.mod_le a pageSize
          omega
        rw [hnext, ih (a + 1) _ (by omega)]

theorem count_eq (destination remaining : ℕ) :
    d.count destination remaining = min remaining (d.pageSize - destination % d.pageSize) := by
  rw [count, pageSize, Nat.and_two_pow_sub_one_eq_mod]

variable (d destination) in
theorem count_spec {remaining : ℕ} (h : 0 < remaining) : 0 < d.count destination remaining ∧
    d.count destination remaining ≤ remaining ∧ destination % d.pageSize + d.count destination remaining ≤ d.pageSize := by
  have hmod := Nat.mod_lt destination d.pageSize_pos
  rw [count_eq]
  omega

theorem start_packet (h : destination < d.capacity) (data : List Byte) : d.start (d.packet destination data) = destination :=
  d.locate_select destination h

variable (refused b) in
theorem transfer_eq (h : destination < d.capacity) (data : List Byte) (hpage : destination % d.pageSize + data.length ≤ d.pageSize) :
    d.transfer refused (d.packet destination data) b =
      (!refused b.issued.length, ⟨if refused b.issued.length then b.mem else store b.mem destination data,
        b.issued ++ [d.packet destination data]⟩) := by
  have hstored : storeWrapped d.pageSize destination (d.packet destination data).data b.mem = store b.mem destination data :=
    storeWrapped_eq _ _ _ hpage
  rw [transfer, start_packet h, hstored]
  cases refused b.issued.length <;> rfl

variable (d destination) in
theorem pages_eq_succ {size : ℕ} (h : 0 < size) : d.pages destination size =
    d.pages (destination + d.count destination size) (size - d.count destination size) + 1 := by
  have hpos := d.pageSize_pos
  have hdiv := Nat.div_add_mod destination d.pageSize
  have hmod := Nat.mod_lt destination hpos
  rw [count_eq]
  rcases le_or_gt size (d.pageSize - destination % d.pageSize) with hle | hlt
  · have hsame : (destination + size - 1) / d.pageSize = destination / d.pageSize :=
      Nat.div_eq_of_lt_le (by rw [Nat.mul_comm]; omega) (by rw [Nat.succ_mul, Nat.mul_comm]; omega)
    rw [Nat.min_eq_left hle, Nat.sub_self, pages, if_neg (by omega), pages, if_pos rfl, hsame, Nat.sub_self]
  · have hnext : destination + (d.pageSize - destination % d.pageSize) = (destination / d.pageSize + 1) * d.pageSize := by
      rw [Nat.succ_mul, Nat.mul_comm]
      omega
    have hlast : destination + (d.pageSize - destination % d.pageSize) + (size - (d.pageSize - destination % d.pageSize)) - 1 =
        destination + size - 1 := by omega
    have hle : destination / d.pageSize + 1 ≤ (destination + size - 1) / d.pageSize :=
      (Nat.le_div_iff_mul_le hpos).2 (by rw [← hnext]; omega)
    rw [Nat.min_eq_right hlt.le, pages, if_neg (by omega), pages, if_neg (by omega), hlast, hnext, Nat.mul_div_cancel _ hpos]
    omega

def InPage (d : Driver) (p : Packet) : Prop := d.start p % d.pageSize + p.data.length ≤ d.pageSize

/-- What the loop has done when it ends with the result `r`. -/
structure Wrote (d : Driver) (refused : ℕ → Bool) (destination : ℕ) (target : List Byte) (b : Bus) (r : Bool × ℕ × Bus) :
    Prop where
  reached : r.2.1 ≤ destination + target.length
  from_start : destination ≤ r.2.1
  inPage : ∀ p ∈ r.2.2.issued, p ∈ b.issued ∨ d.InPage p
  frame : ∀ a, a < destination ∨ destination + target.length ≤ a → r.2.2.mem a = b.mem a
  ok_iff : r.1 = true ↔ ∀ i < d.pages destination target.length, refused (b.issued.length + i) = false
  atEnd : r.1 = true → r.2.1 = destination + target.length
  stored : r.1 = true → r.2.2.mem = store b.mem destination target
  issued : r.1 = true → r.2.2.issued.length = b.issued.length + d.pages destination target.length

theorem Wrote.nothing : Wrote d refused destination [] b (true, destination, b) := by
  have hpages : d.pages destination ([] : List Byte).length = 0 := if_pos rfl
  exact ⟨Nat.le_add_right _ _, Nat.le_refl _, fun _ h => Or.inl h, fun _ _ => rfl,
    iff_of_true rfl fun i hi => absurd hi (by rw [hpages]; exact Nat.not_lt_zero i), fun _ => rfl, fun _ => store_nil.symm,
    fun _ => by rw [hpages]; rfl⟩

theorem Wrote.refused_first (hne : target ≠ []) (hrefused : refused b.issued.length = true) {p : Packet} (hp : d.InPage p) {k : ℕ}
    (hk : k ≤ target.length) : Wrote d refused destination target b (false, destination + k, { b with issued := b.issued ++ [p] }) := by
  have hpages : 0 < d.pages destination target.length := by
    rw [pages_eq_succ _ _ (List.length_pos_iff.2 hne)]
    exact Nat.succ_pos _
  refine ⟨Nat.add_le_add_left hk _, Nat.le_add_right _ _, fun q hq => ?_, fun _ _ => rfl, ?_, nofun, nofun, nofun⟩
  · rcases List.mem_append.1 hq with h | h
    · exact Or.inl h
    · exact Or.inr (List.mem_singleton.1 h ▸ hp)
  · refine iff_of_false Bool.false_ne_true fun h => ?_
    exact Bool.noConfusion (hrefused.symm.trans (h 0 hpages))

theorem Wrote.accepted_first (hne : target ≠ []) (haccepted : refused b.issued.length = false) {p : Packet} (hp : d.InPage p)
    {r : Bool × ℕ × Bus}
    (h : Wrote d refused (destination + d.count destination target.length) (target.drop (d.count destination target.length))
      ⟨store b.mem destination (target.take (d.count destination target.length)), b.issued ++ [p]⟩ r) :
    Wrote d refused destination target b r := by
  obtain ⟨hpos, hle, -⟩ := count_spec d destination (List.length_pos_iff.2 hne)
  have hpages := pages_eq_succ d destination (List.length_pos_iff.2 hne)
  generalize d.count destination target.length = c at h hpos hle hpages
  have hdrop : (target.drop c).length = target.length - c := List.length_drop
  have hlen : destination + c + (target.drop c).length = destination + target.length := by omega
  have hissued : (b.issued ++ [p]).length = b.issued.length + 1 := List.length_append
  have htake : (target.take c).length = c := List.length_take_of_le hle
  refine ⟨h.reached.trans hlen.le, (Nat.le_add_right _ _).trans h.from_start, fun q hq => ?_, fun a ha => ?_, ?_,
    fun hr => (h.atEnd hr).trans hlen, fun hr => ?_, fun hr => ?_⟩
  · rcases h.inPage q hq with hold | hnew
    · rcases List.mem_append.1 hold with hmem | hmem
      · exact Or.inl hmem
      · exact Or.inr (List.mem_singleton.1 hmem ▸ hp)
    · exact Or.inr hnew
  · rw [h.frame a (by omega)]
    exact store_of_not_mem (by omega)
  · rw [h.ok_iff, hpages, hdrop, hissued]
    refine ⟨fun hrest i hi => ?_, fun hall i hi => ?_⟩
    · cases i with
      | zero => exact haccepted
      | succ i =>
          rw [← Nat.add_assoc, Nat.add_right_comm]
          exact hrest i (by omega)
    · rw [Nat.add_right_comm]
      exact hall (i + 1) (by omega)
  · have hjoin := store_append (f := b.mem) (i := destination) (target.take c) (target.drop c)
    rw [htake, List.take_append_drop] at hjoin
    rw [h.stored hr, hjoin]
  · rw [h.issued hr, hpages, hdrop, hissued]
    omega

variable (d refused) in
theorem writePages_spec : ∀ (n destination : ℕ) (target : List Byte) (b : Bus), target.length ≤ n →
    destination + target.length ≤ d.capacity →
    Wrote d refused destination target b (d.writePages refused n destination target b) := by
  intro n
  induction n with
  | zero =>
      intro destination target b hn _
      obtain rfl : target = [] := List.length_eq_zero_iff.1 (Nat.le_zero.1 hn)
      exact Wrote.nothing
  | succ n ih =>
      intro destination target b hn hfits
      rw [writePages]
      split
      · next hnil =>
          subst hnil
          exact Wrote.nothing
      · next hne =>
          have hlen := List.length_pos_iff.2 hne
          obtain ⟨hpos, hle, hpage⟩ := count_spec d destination hlen
          have htake : (target.take (d.count destination target.length)).length = d.count destination target.length :=
            List.length_take_of_le hle
          have hp : d.InPage (d.packet destination (target.take (d.count destination target.length))) := by
            rw [InPage, start_packet (by omega)]
            exact (Nat.add_le_add_left htake.le _).trans hpage
          have htransfer := transfer_eq refused b (show destination < d.capacity by omega)
            (target.take (d.count destination target.length)) (by omega)
          dsimp only
          rw [htransfer]
          cases hrefused : refused b.issued.length with
          | true => exact Wrote.refused_first hne hrefused hp hle
          | false =>
              have hdrop : (target.drop (d.count destination target.length)).length =
                  target.length - d.count destination target.length := List.length_drop
              exact Wrote.accepted_first hne hrefused hp (ih _ _ _ (by omega) (by omega))

/-! ## Reading -/

theorem receive_eq (hfits : destination + n ≤ d.capacity) : d.receive mem destination n = load mem destination n := by
  refine List.map_congr_left fun k hk => ?_
  have hlt : k < n := List.mem_range.1 hk
  rw [d.locate_select destination (by omega), Nat.mod_eq_of_lt (by omega)]

theorem getByte_eq (h : destination < d.capacity) : d.getByte mem destination = mem destination := by
  rw [getByte, receive_eq (show destination + 1 ≤ d.capacity from h)]
  rfl

theorem readBytes_eq : ∀ (n destination remaining : ℕ), remaining ≤ n → destination + remaining ≤ d.capacity →
    d.readBytes mem n destination remaining = load mem destination remaining := by
  intro n
  induction n with
  | zero =>
      intro destination remaining hn _
      obtain rfl : remaining = 0 := Nat.le_zero.1 hn
      rfl
  | succ n ih =>
      intro destination remaining hn hfits
      rw [readBytes]
      split
      · next hzero =>
          subst hzero
          rfl
      · next hne =>
          have hcount : 0 < (if remaining > 255 then 255 else remaining) ∧
              (if remaining > 255 then 255 else remaining) ≤ remaining := by
            split <;> omega
          dsimp only
          generalize (if remaining > 255 then 255 else remaining) = c at hcount
          rw [receive_eq (by omega), ih _ _ (by omega) (by omega), ← load_add, Nat.add_sub_cancel' hcount.2]

theorem checksum_eq_iff (crc : UInt16) (lo hi : Byte) :
    crc = (lo.toUInt16 ||| hi.toUInt16 <<< 8) ↔ lo = (crc &&& 0xFF).toUInt8 ∧ hi = (crc >>> 8).toUInt8 := by
  have hlo := lo.toNat_lt
  have hhi := hi.toNat_lt
  have hcrc := crc.toNat_lt
  have hbits : UInt16.toNat 8 % 16 = 8 := rfl
  have hword : (lo.toUInt16 ||| hi.toUInt16 <<< 8).toNat = hi.toNat * 256 + lo.toNat := by
    have hshift : hi.toNat <<< 8 % 2 ^ 16 = hi.toNat <<< 8 := by
      rw [Nat.shiftLeft_eq]
      omega
    simp only [UInt16.toNat_or, UInt16.toNat_shiftLeft, UInt8.toNat_toUInt16, hbits]
    rw [hshift, Nat.or_comm, ← Nat.shiftLeft_add_eq_or_of_lt hlo, Nat.shiftLeft_eq]
  have hlow : (crc &&& 0xFF).toUInt8.toNat = crc.toNat % 256 := by
    have hmask : crc.toNat &&& 255 = crc.toNat % 256 := Nat.and_two_pow_sub_one_eq_mod crc.toNat 8
    have hmax : UInt16.toNat 255 = 255 := rfl
    rw [UInt16.toNat_toUInt8, UInt16.toNat_and, hmax, hmask]
    omega
  have hhigh : (crc >>> 8).toUInt8.toNat = crc.toNat / 256 := by
    rw [UInt16.toNat_toUInt8, UInt16.toNat_shiftRight, hbits, Nat.shiftRight_eq_div_pow]
    omega
  rw [← UInt16.toNat_inj, ← UInt8.toNat_inj, ← UInt8.toNat_inj, hword, hlow, hhigh]
  omega

theorem readBlock_eq {size : ℕ} (hfits : destination + size + nvsCrcBytes ≤ d.capacity) :
    d.readBlock mem destination size true =
      (decide (mem (destination + size) = (calcChecksum (load mem destination size) &&& 0xFF).toUInt8 ∧
        mem (destination + size + 1) = (calcChecksum (load mem destination size) >>> 8).toUInt8), load mem destination size) := by
  have hcrc : nvsCrcBytes = 2 := rfl
  rw [readBlock, readBytes_eq _ _ _ (Nat.le_refl _) (by omega), getByte_eq (by omega), getByte_eq (by omega), Bool.not_true, Bool.false_or, decide_eq_decide.2 (checksum_eq_iff _ _ _)]

/-! ## The checksum -/

theorem putByte_eq (h : destination < d.capacity) (c : Byte) : d.putByte refused destination c b =
    ⟨if refused b.issued.length then b.mem else Function.update b.mem destination c, b.issued ++ [d.packet destination [c]]⟩ := by
  have hmod := Nat.mod_lt destination d.pageSize_pos
  have hstore : store b.mem destination [c] = Function.update b.mem destination c := by rw [store_cons, store_nil]
  rw [putByte, transfer_eq _ _ h [c] hmod, hstore]

theorem putByte_inPage (h : destination < d.capacity) (c : Byte) :
    ∀ p ∈ (d.putByte refused destination c b).issued, p ∈ b.issued ∨ d.InPage p := by
  intro p hp
  rw [putByte_eq h] at hp
  rcases List.mem_append.1 hp with hmem | hmem
  · exact Or.inl hmem
  · right
    rw [List.mem_singleton.1 hmem, InPage, start_packet h]
    exact Nat.mod_lt destination d.pageSize_pos

theorem putByte_frame (h : destination < d.capacity) (c : Byte) {a : ℕ} (ha : a ≠ destination) :
    (d.putByte refused destination c b).mem a = b.mem a := by
  rw [putByte_eq h]
  dsimp only
  split
  · rfl
  · exact Function.update_of_ne ha _ _

/-! ## A block -/

/-- Whatever is refused, the transfers stay in their pages and the bytes around the block are unchanged. -/
theorem writeBlock_confined (hfits : destination + source.length + nvsCrcBytes ≤ d.capacity) (withChecksum : Bool) :
    d.Confined refused destination source withChecksum mem := by
  have hcrc : nvsCrcBytes = 2 := rfl
  have h := writePages_spec d refused source.length destination source ⟨mem, []⟩ (Nat.le_refl _)
    (show destination + source.length ≤ d.capacity by omega)
  have hreached := h.reached
  have hstart := h.from_start
  have hissued : ∀ p ∈ (d.writePages refused source.length destination source ⟨mem, []⟩).2.2.issued, d.InPage p :=
    fun p hp => (h.inPage p hp).resolve_left List.not_mem_nil
  have hfirst : (d.writePages refused source.length destination source ⟨mem, []⟩).2.1 < d.capacity := by omega
  have hsecond : (d.writePages refused source.length destination source ⟨mem, []⟩).2.1 + 1 < d.capacity := by omega
  constructor
  · intro p hp
    rw [writeBlock] at hp
    dsimp only at hp
    split at hp
    · exact (putByte_inPage hsecond _ p hp).elim (fun hp => (putByte_inPage hfirst _ p hp).elim (hissued p) id) id
    · exact hissued p hp
  · intro a ha
    rw [writeBlock]
    dsimp only
    split
    · rw [putByte_frame hsecond _ (by omega), putByte_frame hfirst _ (by omega)]
      exact h.frame a (by omega)
    · exact h.frame a (by omega)

/-- The memory after the two bytes of a checksum, the first of them at `e`. -/
def withBytes (mem : ℕ → Byte) (e : ℕ) (lo hi : Byte) (refusedLo refusedHi : Bool) : ℕ → Byte :=
  let first := if refusedLo then mem else Function.update mem e lo
  if refusedHi then first else Function.update first (e + 1) hi

section
variable {e k : ℕ} {lo hi : Byte} {refusedLo refusedHi : Bool}

theorem withBytes_before (h : k < e) : withBytes mem e lo hi refusedLo refusedHi k = mem k := by
  cases refusedLo <;> cases refusedHi <;>
    simp [withBytes, Function.update_of_ne h.ne, Function.update_of_ne (show k ≠ e + 1 by omega)]

theorem withBytes_lo : withBytes mem e lo hi refusedLo refusedHi e = if refusedLo then mem e else lo := by
  cases refusedLo <;> cases refusedHi <;> simp [withBytes]

theorem withBytes_hi : withBytes mem e lo hi refusedLo refusedHi (e + 1) = if refusedHi then mem (e + 1) else hi := by
  cases refusedLo <;> cases refusedHi <;> simp [withBytes]

end

theorem if_refused_eq_iff {r : Bool} {old c : Byte} : (if r then old else c) = c ↔ r = false ∨ old = c := by
  cases r <;> simp

variable (mem) in
/-- All pages are accepted: the data are in place, and behind them what there is of the checksum. -/
theorem writeBlock_of_accepted (hfits : destination + source.length + nvsCrcBytes ≤ d.capacity)
    (hall : ∀ i < d.pages destination source.length, refused i = false) :
    (d.writeBlock refused destination source true ⟨mem, []⟩).1 = true ∧
      (d.writeBlock refused destination source true ⟨mem, []⟩).2.mem =
        if source = [] then mem
        else withBytes (store mem destination source) (destination + source.length) (calcChecksum source &&& 0xFF).toUInt8
          (calcChecksum source >>> 8).toUInt8 (refused (d.pages destination source.length))
          (refused (d.pages destination source.length + 1)) := by
  have hcrc : nvsCrcBytes = 2 := rfl
  have h := writePages_spec d refused source.length destination source ⟨mem, []⟩ (Nat.le_refl _)
    (show destination + source.length ≤ d.capacity by omega)
  have hok := h.ok_iff.2 fun i hi => (congrArg refused (Nat.zero_add i)).trans (hall i hi)
  have hend := h.atEnd hok
  have hstored := h.stored hok
  have hissued := (h.issued hok).trans (Nat.zero_add _)
  rw [writeBlock]
  dsimp only
  generalize d.writePages refused source.length destination source ⟨mem, []⟩ = r at hok hend hstored hissued
  dsimp only at hstored
  rcases eq_or_ne source [] with rfl | hne
  · rw [if_neg (fun hc => hc.2.1 rfl), if_pos rfl, hstored, store_nil]
    exact ⟨hok, rfl⟩
  · rw [if_pos ⟨Or.inr hok, hne, rfl⟩, if_neg hne, hend, putByte_eq (by omega), putByte_eq (by omega)]
    dsimp only
    rw [List.length_append, hissued, hstored]
    exact ⟨hok, rfl⟩

theorem reported_of_accepted (hfits : destination + source.length + nvsCrcBytes ≤ d.capacity)
    (hall : ∀ i < d.pages destination source.length, refused i = false) :
    d.Reported refused destination source mem ↔
      d.ChecksumByte refused destination source mem 0 (calcChecksum source &&& 0xFF).toUInt8 ∧
        d.ChecksumByte refused destination source mem 1 (calcChecksum source >>> 8).toUInt8 := by
  obtain ⟨hok, hmem⟩ := writeBlock_of_accepted mem hfits hall
  rw [Reported, hmem, readBlock_eq hfits]
  simp only [hok, forall_const, ChecksumByte]
  rcases eq_or_ne source [] with rfl | hne
  · have hload : load mem destination ([] : List Byte).length = [] := load_zero
    rw [if_pos rfl, hload]
    simp
  · have hload : ∀ lo hi r r', load (withBytes (store mem destination source) (destination + source.length) lo hi r r')
        destination source.length = source := by
      intro lo hi r r'
      rw [load_congr (g := store mem destination source) fun k hk => withBytes_before (by omega), load_store]
    rw [if_neg hne, hload]
    simp only [Prod.mk.injEq, and_true, decide_eq_true_eq]
    rw [withBytes_lo, withBytes_hi, store_of_not_mem (Or.inr (Nat.le_refl _)), store_of_not_mem (Or.inr (Nat.le_succ _)),
      if_refused_eq_iff, if_refused_eq_iff]
    simp [hne]

theorem writeBlock_of_refused (hfits : destination + source.length + nvsCrcBytes ≤ d.capacity) (withChecksum : Bool)
    (hsome : ∃ i < d.pages destination source.length, refused i = true) :
    (d.writeBlock refused destination source withChecksum ⟨mem, []⟩).1 = false := by
  have h := writePages_spec d refused source.length destination source ⟨mem, []⟩ (Nat.le_refl _)
    (show destination + source.length ≤ d.capacity from (Nat.le_add_right _ _).trans hfits)
  obtain ⟨i, hi, hrefused⟩ := hsome
  have hok : (d.writePages refused source.length destination source ⟨mem, []⟩).1 = false := by
    refine Bool.eq_false_iff.2 fun htrue => ?_
    have hfalse := h.ok_iff.1 htrue i hi
    rw [show ([] : List Packet).length + i = i from Nat.zero_add i, hrefused] at hfalse
    cases hfalse
  rw [writeBlock]
  dsimp only
  split <;> exact hok

/-- Without a checksum it is the `memcpy_to_nvs` of the RAM buffer. -/
theorem writeBlock_eq_physicalMemcpy {L : Layout} (buffer : Buffer L) (hfits : destination + n + nvsCrcBytes ≤ d.capacity) :
    ∃ outcome : Transfer, ∀ o : Outcomes, o destination = outcome →
      let r := d.writeBlock refused destination (load buffer.ram destination n) false ⟨buffer.physical, []⟩
      ((buffer.physicalMemcpy o destination buffer.ram n).2 = r.1) ∧
        (buffer.physicalMemcpy o destination buffer.ram n).1.physical = r.2.mem := by
  have hlen : (load buffer.ram destination n).length = n := length_load
  have hcrc : nvsCrcBytes = 2 := rfl
  have h := writePages_spec d refused (load buffer.ram destination n).length destination
    (load buffer.ram destination n) ⟨buffer.physical, []⟩ (Nat.le_refl _) (by omega)
  rw [writeBlock]
  dsimp only
  rw [if_neg (fun hc => Bool.false_ne_true hc.2.2)]
  generalize d.writePages refused (load buffer.ram destination n).length destination (load buffer.ram destination n)
    ⟨buffer.physical, []⟩ = r at h
  have hframe : ∀ a, ¬(destination ≤ a ∧ a < destination + n) → r.2.2.mem a = buffer.physical a := fun a ha =>
    h.frame a (by omega)
  cases hok : r.1 with
  | false =>
      refine ⟨.failed r.2.2.mem, fun o ho => ⟨by rw [Buffer.physicalMemcpy, ho]; rfl, ?_⟩⟩
      funext a
      simp only [Buffer.physicalMemcpy, ho]
      split
      · rfl
      · next ha => exact (hframe a ha).symm
  | true =>
      refine ⟨.ok, fun o ho => ⟨by rw [Buffer.physicalMemcpy, ho]; rfl, ?_⟩⟩
      funext a
      simp only [Buffer.physicalMemcpy, ho]
      split
      · next ha =>
          rw [h.stored hok, store_load ha.1 ha.2]
      · next ha => exact (hframe a ha).symm

/-- The transfers of `writeBlock` stay in their pages and in the block; what it reports is right unless a byte of the
checksum is not accepted. -/
theorem confined_and_reported_iff (d : Driver) (refused : ℕ → Bool) (destination : ℕ) (source : List Byte) (mem : ℕ → Byte)
    (hfits : destination + source.length + nvsCrcBytes ≤ d.capacity) :
    (∀ withChecksum, d.Confined refused destination source withChecksum mem) ∧ d.Reported refused destination source mem ↔
      d.Settled refused destination source mem := by
  rw [and_iff_right fun withChecksum => writeBlock_confined hfits withChecksum, Settled]
  by_cases hsome : ∃ i < d.pages destination source.length, refused i = true
  · refine iff_of_true (fun hok => ?_) (Or.inl hsome)
    rw [writeBlock_of_refused hfits true hsome] at hok
    cases hok
  · have hall : ∀ i < d.pages destination source.length, refused i = false := fun i hi =>
      Bool.eq_false_iff.2 fun htrue => hsome ⟨i, hi, htrue⟩
    rw [or_iff_right hsome, reported_of_accepted hfits hall]

theorem confined_and_reported_iff_three : (1 + 3 + nvsCrcBytes ≤ eeprom24LC16B.capacity) ∧
    ((∀ withChecksum, eeprom24LC16B.Confined (fun _ => false) 1 [1, 2, 3] withChecksum fun _ => 0) ∧
        eeprom24LC16B.Reported (fun _ => false) 1 [1, 2, 3] (fun _ => 0) ↔
      eeprom24LC16B.Settled (fun _ => false) 1 [1, 2, 3] fun _ => 0) := by
  have hfits : 1 + [(1 : Byte), 2, 3].length + nvsCrcBytes ≤ eeprom24LC16B.capacity := by decide
  exact ⟨hfits, confined_and_reported_iff eeprom24LC16B _ 1 [1, 2, 3] _ hfits⟩

theorem not_reported_of_unread {d : Driver} {refused : ℕ → Bool} {addr : ℕ} {source : List Byte} {mem : ℕ → Byte}
    (hok : (d.writeBlock refused addr source true ⟨mem, []⟩).1 = true)
    (hread : (d.readBlock (d.writeBlock refused addr source true ⟨mem, []⟩).2.mem addr source.length true).1 = false) :
    ¬ d.Reported refused addr source mem := by
  intro h
  have hback := congrArg Prod.fst (h hok)
  exact Bool.noConfusion (hread.symm.trans hback)

/-- The first byte of the checksum is refused: both drivers report that all is well. -/
theorem refused_checksum_is_not_reported :
    ¬ eeprom24LC16B.Reported (fun i => i = 1) 1 [1, 2, 3] (fun _ => 0) ∧
      ¬ (eeprom24AAxxx false).Reported (fun i => i = 1) 1 [1, 2, 3] (fun _ => 0) ∧
        ¬ (eeprom24AAxxx true).Reported (fun i => i = 1) 1 [1, 2, 3] fun _ => 0 :=
  ⟨not_reported_of_unread (by decide +kernel) (by decide +kernel), not_reported_of_unread (by decide +kernel) (by decide +kernel),
    not_reported_of_unread (by decide +kernel) (by decide +kernel)⟩

end Driver

end Grbl.Nvs
