import Mathlib
import Grbl.Ymodem.Transfer

/-!
# YModem reception is faithful while no ACK is lost

* `receive_frame` : what the receiver makes of a packet with the number it awaits;
* `openFile_header`, `writePayload_data` : the header and a data packet;
* `Synced`, `Inv` : receiver and sender agree; `Inv.packet`, `Inv.silence`, `Inv.eot` : one step;
* `received_of_safe` : every run without a lost ACK; `repeated_packet_is_refused` : a run with one.
-/

namespace Grbl.Ymodem
open Lib

section
variable {r : Receiver} {disk : Bool}

/-! ## A packet -/

theorem receiveAll_cons (c : Byte) (l : List Byte) : r.receiveAll disk (c :: l) = (r.receive disk c).receiveAll disk l :=
  rfl

theorem receiveAll_append (l l' : List Byte) :
    r.receiveAll disk (l ++ l') = (r.receiveAll disk l).receiveAll disk l' := List.foldl_append

theorem receive_attached (h : r.attached = true) {p : Process} (hp : r.process = p) (c : Byte) :
    r.receive disk c = (r.call disk c p).1.respond (r.call disk c p).2 := by
  rw [Receiver.receive, if_pos h, hp]

theorem receiveAll_detached (h : r.attached = false) (l : List Byte) : r.receiveAll disk l = r := by
  induction l with
  | nil => rfl
  | cons c l ih =>
      have hc : r.receive disk c = r := if_neg (ne_true_of_eq_false h)
      rw [receiveAll_cons, hc, ih]

/-- The receiver when it has read the packet number. -/
def Receiver.opened (r : Receiver) (length : ℕ) : Receiver :=
  { r with
    idx := 0
    crc := 0
    crcLsb := false
    seqInv := true
    repeated := false
    packetLen := length
    process := .getPayload }

/-- The receiver when it has read the CRC. -/
def Receiver.stored (r : Receiver) (payload : List Byte) (hi lo : Byte) : Receiver :=
  { r with
    idx := payload.length
    crc := crcWord hi lo
    crcLsb := true
    seqInv := true
    repeated := false
    packetLen := payload.length
    payload := store r.payload 0 payload
    process := .awaitSoh }

theorem receive_start (h : r.attached = true) (hp : r.process = .awaitSoh) {length : ℕ}
    (hlength : length = 128 ∨ length = 1024) :
    r.receive disk (if length = 128 then asciiSOH else asciiSTX) = { r.opened length with
      seqInv := false
      process := .awaitPacketnum } := by
  rw [receive_attached h hp]
  rcases hlength with rfl | rfl <;> rfl

theorem receive_num (h : r.attached = true) (hp : r.process = .awaitPacketnum) (hinv : r.seqInv = false) :
    r.receive disk r.packetNum = { r with seqInv := true } := by
  rw [receive_attached h hp]
  simp [Receiver.call, Receiver.awaitPacketnum, hinv, Receiver.respond]

theorem receive_num_inv (h : r.attached = true) (hp : r.process = .awaitPacketnum) (hinv : r.seqInv = true) :
    r.receive disk (r.packetNum ^^^ 0xFF) = { r with repeated := false, process := .getPayload } := by
  have hne : ¬ (r.packetNum.toNat : ℤ) = r.packetNum.toNat - 1 := by omega
  rw [receive_attached h hp]
  simp [Receiver.call, Receiver.awaitPacketnum, hinv, hne, Receiver.respond]

theorem receive_payload (h : r.attached = true) (hp : r.process = .getPayload) (c : Byte) :
    r.receive disk c = { r with
      payload := Function.update r.payload r.idx c
      idx := r.idx + 1
      process := if r.idx + 1 = r.packetLen then .awaitCrc else r.process } := by
  rw [receive_attached h hp]
  rfl

theorem receiveAll_payload (h : r.attached = true) (hp : r.process = .getPayload) (c : Byte) (l : List Byte)
    (hlen : r.idx + (c :: l).length = r.packetLen) :
    r.receiveAll disk (c :: l) = { r with
      payload := store r.payload r.idx (c :: l)
      idx := r.packetLen
      process := .awaitCrc } := by
  induction l generalizing r c with
  | nil =>
      have hend : r.idx + 1 = r.packetLen := hlen
      rw [receiveAll_cons, receive_payload h hp, if_pos hend, store_cons, store_nil, hend]
      rfl
  | cons d l ih =>
      rw [List.length_cons] at hlen
      have hmore : ¬ r.idx + 1 = r.packetLen := by rw [← hlen, List.length_cons]; omega
      rw [receiveAll_cons, receive_payload h hp, if_neg hmore, ih (by exact h) (by exact hp) _ (by dsimp only; omega),
        store_cons c (d :: l)]

theorem receive_crc (h : r.attached = true) (hp : r.process = .awaitCrc) (hlsb : r.crcLsb = false) (hi lo : Byte) :
    r.receiveAll disk [hi, lo] =
      let r' := { r with crcLsb := true, process := .awaitSoh, crc := crcWord hi lo }
      let result :=
        if ccittCrc16 (load r'.payload 0 r'.packetLen) ≠ r'.crc then (r', .purge)
        else if r'.packetNum = 0 ∧ r'.filename = [] then r'.openFile disk
        else r'.writePayload disk
      result.1.respond result.2 := by
  have hfirst : r.receive disk hi = { r with crcLsb := true, crc := hi.toUInt16 } := by
    rw [receive_attached h hp]
    simp [Receiver.call, Receiver.awaitCrc, hlsb, Receiver.respond]
  rw [receiveAll_cons, hfirst, receiveAll_cons, receive_attached (by exact h) (by exact hp)]
  rfl

theorem receive_header (h : r.attached = true) (hp : r.process = .awaitSoh) {length : ℕ}
    (hlength : length = 128 ∨ length = 1024) :
    r.receiveAll disk [if length = 128 then asciiSOH else asciiSTX, r.packetNum, r.packetNum ^^^ 0xFF] =
      r.opened length := by
  have hnum : Receiver.receive disk { r.opened length with seqInv := false, process := .awaitPacketnum } r.packetNum =
      { r.opened length with process := .awaitPacketnum } := receive_num h rfl rfl
  have hinv : Receiver.receive disk { r.opened length with process := .awaitPacketnum } (r.packetNum ^^^ 0xFF) =
      r.opened length := receive_num_inv h rfl rfl
  rw [receiveAll_cons, receive_start h hp hlength, receiveAll_cons, hnum, receiveAll_cons, hinv]
  rfl

theorem receive_frame (h : r.attached = true) (hp : r.process = .awaitSoh) {payload : List Byte}
    (hlength : payload.length = 128 ∨ payload.length = 1024) (hi lo : Byte) :
    r.receiveAll disk (frame r.packetNum payload hi lo) =
      let r' := r.stored payload hi lo
      let result :=
        if ccittCrc16 payload ≠ crcWord hi lo then (r', .purge)
        else if r'.packetNum = 0 ∧ r'.filename = [] then r'.openFile disk
        else r'.writePayload disk
      result.1.respond result.2 := by
  have hframe : frame r.packetNum payload hi lo =
      [if payload.length = 128 then asciiSOH else asciiSTX, r.packetNum, r.packetNum ^^^ 0xFF] ++ (payload ++ [hi, lo]) :=
    rfl
  obtain ⟨c, l, hcons⟩ : ∃ c l, payload = c :: l := List.exists_cons_of_length_pos (by omega)
  have hpayload : (r.opened payload.length).receiveAll disk payload = { r.opened payload.length with
      payload := store r.payload 0 payload
      idx := payload.length
      process := .awaitCrc } := by
    conv_lhs => rw [hcons]
    rw [receiveAll_payload (by exact h) rfl c l (by rw [← hcons]; exact Nat.zero_add _), ← hcons]
    rfl
  rw [hframe, receiveAll_append, receive_header h hp hlength, receiveAll_append, hpayload,
    receive_crc (by exact h) rfl rfl]
  dsimp only [Receiver.opened]
  rw [load_store]
  rfl

/-! ## The header -/

theorem digitByte_spec (d : Fin 10) : isDigit (digitByte d) = true ∧ isSpace (digitByte d) = false ∧
    digitByte d ≠ 0x2D ∧ digitByte d ≠ 0x2B ∧ digitByte d ≠ 0 ∧ (digitByte d).toNat - 0x30 = d.val := by
  revert d
  decide +kernel

theorem takeWhile_digits (digits : List (Fin 10)) {rest : List Byte} (hrest : ∀ c ∈ rest.head?, isDigit c = false) :
    (digits.map digitByte ++ rest).takeWhile isDigit = digits.map digitByte := by
  have hnone : rest.takeWhile isDigit = [] := by
    cases rest with
    | nil => rfl
    | cons c l => exact List.takeWhile_cons_of_neg (ne_true_of_eq_false (hrest c rfl))
  have hall : ∀ c ∈ digits.map digitByte, isDigit c = true := by
    intro c hc
    obtain ⟨d, -, rfl⟩ := List.mem_map.1 hc
    exact (digitByte_spec d).1
  rw [List.takeWhile_append_of_pos hall, hnone, List.append_nil]

theorem intValue_digits {digits : List (Fin 10)} (hne : digits ≠ []) {rest : List Byte}
    (hrest : ∀ c ∈ rest.head?, isDigit c = false) :
    intValue (digits.map digitByte ++ rest) = (digits.foldl (fun n d => 10 * n + d.val) 0 : ℕ) := by
  have hvalue : digitsValue (digits.map digitByte ++ rest) = digits.foldl (fun n d => 10 * n + d.val) 0 := by
    rw [digitsValue, takeWhile_digits digits hrest, List.foldl_map]
    simp only [(digitByte_spec _).2.2.2.2.2]
  obtain ⟨d, l, rfl⟩ := List.exists_cons_of_ne_nil hne
  obtain ⟨-, hspace, hminus, hplus, -⟩ := digitByte_spec d
  rw [← hvalue, intValue, List.map_cons, List.cons_append, List.dropWhile_cons_of_neg (ne_true_of_eq_false hspace)]
  dsimp only
  rw [if_neg hminus, if_neg hplus]

section
variable {t : Transfer}

theorem Transfer.header_length (t : Transfer) : t.header.length = t.headerSize := by
  have hfits := t.header_fits
  simp only [Transfer.header, List.length_append, List.length_cons, List.length_map, List.length_replicate]
  omega

theorem Transfer.payload_length {n : ℕ} {payload : List Byte} (h : t.payload n = some payload) :
    payload.length = 128 ∨ payload.length = 1024 := by
  cases n with
  | zero =>
      cases h
      rw [t.header_length]
      exact t.header_size
  | succ n => exact t.sizes _ (List.mem_of_getElem? h)

/-- The length that the receiver takes from the header. -/
def Transfer.filelength (t : Transfer) : ℕ := if t.digits = [] then 0 else t.content.length

theorem openFile_header (hint : t.IntLength) (hload : ∃ l, load r.payload 0 1024 = t.header ++ l) (hlength : r.filelength = 0) :
    r.openFile disk = ({ r with
      filename := t.name
      filelength := t.filelength
      handle := disk
      packetNum := r.packetNum + 1 }, if disk then .ackFile else .can) := by
  obtain ⟨l, hload⟩ := hload
  obtain ⟨c, name, hname⟩ := List.exists_cons_of_length_pos t.name_length.1
  have hc : c ≠ 0 := fun h => t.name_nul (by rw [hname, h]; exact List.mem_cons_self ..)
  have hhead : (t.header ++ l).head? ≠ some 0 := by
    rw [Transfer.header, hname]
    exact fun h => hc (Option.some.inj h)
  have htake : (t.header ++ l).takeWhile (· ≠ 0) = t.name := by
    have hall : ∀ c ∈ t.name, decide (c ≠ 0) = true := fun c hc => decide_eq_true fun h => t.name_nul (h ▸ hc)
    rw [Transfer.header, List.append_assoc, List.takeWhile_append_of_pos hall, List.cons_append,
      List.takeWhile_cons_of_neg (by simp), List.append_nil]
  have hdrop : (t.header ++ l).drop (t.name.length + 1) = t.digits.map digitByte ++ (t.info ++
      List.replicate (t.headerSize - (t.name.length + 1 + t.digits.length + t.info.length)) 0 ++ l) := by
    rw [Transfer.header, List.append_assoc, List.drop_append, Nat.add_sub_cancel_left, List.drop_of_length_le (by omega),
      List.nil_append, List.cons_append, List.drop_succ_cons, List.drop_zero, List.append_assoc, List.append_assoc,
      List.append_assoc]
  obtain ⟨k, hk⟩ : ∃ k, t.headerSize - (t.name.length + 1 + t.digits.length + t.info.length) = k + 1 :=
    Nat.exists_eq_succ_of_ne_zero (by have := t.header_fits; omega)
  have hrest : ∀ c ∈ (t.info ++ List.replicate (k + 1) (0 : Byte) ++ l).head?, isDigit c = false := by
    intro c hc
    cases hinfo : t.info with
    | nil =>
        rw [hinfo] at hc
        cases hc
        rfl
    | cons d i =>
        rw [hinfo] at hc
        cases hc
        exact t.info_start.1 _ (by rw [hinfo]; rfl)
  have hnot : ¬ 32 ≤ t.name.length := by have := t.name_length.2; omega
  rw [hk] at hdrop
  unfold Receiver.openFile
  dsimp only
  rw [hload, if_neg hhead, htake, hdrop]
  have hatoi : t.digits ≠ [] → atoi (t.digits.map digitByte ++ (t.info ++ List.replicate (k + 1) 0 ++ l)) = some (t.content.length : ℤ) := by
    intro hdigits
    have hvalue := intValue_digits hdigits hrest
    rw [t.digits_value hdigits] at hvalue
    have hlt := hint hdigits
    rw [atoi, hvalue]
    exact if_pos (by omega)
  have hempty : t.digits = [] → (t.digits.map digitByte ++ (t.info ++ List.replicate (k + 1) 0 ++ l)).headD 0 = 0 := by
    intro hdigits
    rw [hdigits, t.info_start.2 hdigits]
    simp [List.replicate_succ]
  have hlen : (if (t.digits.map digitByte ++ (t.info ++ List.replicate (k + 1) 0 ++ l)).headD 0 ≠ 0 then
      ((atoi (t.digits.map digitByte ++ (t.info ++ List.replicate (k + 1) 0 ++ l))).getD 0 % 2 ^ 32).toNat else r.filelength) =
      t.filelength := by
    by_cases hdigits : t.digits = []
    · rw [Transfer.filelength, if_pos hdigits, if_neg (not_not_intro (hempty hdigits)), hlength]
    · have hlt := hint hdigits
      rw [Transfer.filelength, if_neg hdigits, hatoi hdigits, Option.getD_some]
      obtain ⟨d, ds, hcons⟩ := List.exists_cons_of_ne_nil hdigits
      have hne : (t.digits.map digitByte ++ (t.info ++ List.replicate (k + 1) 0 ++ l)).headD 0 ≠ 0 := by
        rw [hcons]
        exact (digitByte_spec d).2.2.2.2.1
      rw [if_pos hne]
      omega
  have hdefined : ¬ ((t.digits.map digitByte ++ (t.info ++ List.replicate (k + 1) 0 ++ l)).headD 0 ≠ 0 ∧
      atoi (t.digits.map digitByte ++ (t.info ++ List.replicate (k + 1) 0 ++ l)) = none) := by
    rintro ⟨hne, hnone⟩
    have hdigits : t.digits ≠ [] := fun h => hne (hempty h)
    rw [hatoi hdigits] at hnone
    cases hnone
  rw [hlen, decide_eq_false hnot, decide_eq_false hdefined, Bool.or_false, Bool.or_false]

/-! ## A data packet -/

/-- The characters of the first `n` data packets. -/
def Transfer.total (t : Transfer) (n : ℕ) : ℕ := (t.packets.take n).flatten.length

theorem Transfer.take_succ_flatten {n : ℕ} {payload : List Byte} (h : t.packets[n]? = some payload) :
    (t.packets.take (n + 1)).flatten = (t.packets.take n).flatten ++ payload := by
  rw [List.take_add_one, h, Option.toList_some, List.flatten_append, List.flatten_singleton]

theorem Transfer.total_succ {n : ℕ} {payload : List Byte} (h : t.packets[n]? = some payload) :
    t.total (n + 1) = t.total n + payload.length := by
  rw [total, t.take_succ_flatten h, List.length_append, total]

theorem Transfer.total_lt {n : ℕ} (h : n < t.packets.length) : t.total n < t.content.length := by
  obtain ⟨l, p, hp⟩ : ∃ l p, t.packets = l ++ [p] :=
    ⟨_, _, (List.dropLast_append_getLast (List.ne_nil_of_length_pos (by omega))).symm⟩
  have hlast := t.last l p hp
  have hflatten := congrArg List.length t.flatten
  rw [hp, List.flatten_append, List.flatten_singleton, List.length_append, List.length_append] at hflatten
  rw [hp, List.length_append, List.length_singleton] at h
  have hprefix : (t.packets.take n).flatten <+: l.flatten := by
    rw [hp, List.take_append_of_le_length (by omega)]
    exact ⟨(l.drop n).flatten, by rw [← List.flatten_append, List.take_append_drop]⟩
  have hle : t.total n ≤ l.flatten.length := hprefix.length_le
  omega

theorem Transfer.written_length (t : Transfer) : t.written t.packets.length = t.received := by
  rw [written, received, List.take_length, t.flatten]
  split
  · rfl
  · exact List.take_left

theorem writePayload_data (hint : t.IntLength) {k : ℕ} {payload : List Byte} (hk : t.packets[k]? = some payload) (hrepeated : r.repeated = false)
    (hlen : r.packetLen = payload.length) (hload : load r.payload 0 payload.length = payload)
    (hlength : r.filelength = t.filelength) (hreceived : r.received = t.total k % 2 ^ 32) (hfile : r.file = t.written k)
    (hprocess : r.process = .awaitSoh) :
    ∃ completed packetLen idx process, r.writePayload true = ({ r with
      packetNum := r.packetNum + 1
      received := t.total (k + 1) % 2 ^ 32
      completed := completed
      packetLen := packetLen
      idx := idx
      process := process
      file := t.written (k + 1) }, .ack) ∧
      (process = .awaitSoh ∨ process = .awaitEot ∧ k + 1 = t.packets.length) := by
  have hlt : k < t.packets.length := (List.getElem?_eq_some_iff.1 hk).1
  have htotal := t.total_succ hk
  have hsize : payload.length ≤ 1024 := by
    rcases t.sizes _ (List.mem_of_getElem? hk) with h | h <;> omega
  have hreceived' : (r.received + r.packetLen) % 2 ^ 32 = t.total (k + 1) % 2 ^ 32 := by
    rw [hreceived, hlen, htotal, Nat.mod_add_mod]
  have hincomplete := t.total_lt hlt
  by_cases hcompleted : t.filelength ≠ 0 ∧ t.total (k + 1) % 2 ^ 32 > t.filelength
  · have hdigits : t.digits ≠ [] := by
      intro hd
      rw [Transfer.filelength, if_pos hd] at hcompleted
      exact hcompleted.1 rfl
    have hbound := hint hdigits
    have hfl : t.filelength = t.content.length := if_neg hdigits
    rw [hfl, Nat.mod_eq_of_lt (by omega)] at hcompleted
    have hend : k + 1 = t.packets.length := by
      by_contra hne
      have := Transfer.total_lt (t := t) (n := k + 1) (by omega)
      omega
    have hpacketLen : (r.packetLen + 2 ^ 32 - (t.total (k + 1) % 2 ^ 32 - t.filelength)) % 2 ^ 32 =
        t.content.length - t.total k := by
      rw [hfl, hlen]
      omega
    have hwritten : r.file ++ load r.payload 0 (t.content.length - t.total k) = t.written (k + 1) := by
      rw [hfile, Transfer.written, Transfer.written, if_neg hdigits, if_neg hdigits, t.take_succ_flatten hk,
        List.take_append, List.take_of_length_le (l := (t.packets.take k).flatten) hincomplete.le,
        ← load_take (n := payload.length) (by omega), hload]
      rfl
    refine ⟨true, t.content.length - t.total k, 0, .awaitEot, ?_, Or.inr ⟨rfl, hend⟩⟩
    unfold Receiver.writePayload
    rw [hrepeated, if_neg Bool.false_ne_true]
    dsimp only
    rw [hreceived', hlength, decide_eq_true (by rw [hfl, Nat.mod_eq_of_lt (by omega)]; exact hcompleted), if_pos rfl, hpacketLen]
    rw [if_pos rfl, if_pos rfl, hwritten]
  · have hwritten : r.file ++ load r.payload 0 r.packetLen = t.written (k + 1) := by
      rw [hlen, hload, hfile, Transfer.written, Transfer.written, t.take_succ_flatten hk]
      split
      case isTrue => rfl
      case isFalse hdigits =>
        have hbound := hint hdigits
        have hfl : t.filelength = t.content.length := if_neg hdigits
        rw [hfl, Nat.mod_eq_of_lt (by omega)] at hcompleted
        have hle : t.total (k + 1) ≤ t.content.length := by omega
        rw [List.take_of_length_le (l := (t.packets.take k).flatten) hincomplete.le, ← t.take_succ_flatten hk,
          List.take_of_length_le hle]
    refine ⟨false, r.packetLen, r.idx, .awaitSoh, ?_, Or.inl rfl⟩
    unfold Receiver.writePayload
    rw [hrepeated, if_neg Bool.false_ne_true]
    dsimp only
    rw [hreceived', hlength, decide_eq_false hcompleted, if_neg Bool.false_ne_true, if_pos rfl, if_neg Bool.false_ne_true,
      hwritten, hprocess]

/-! ## The invariant -/

/-- The receiver awaits the packet that the sender sends next. -/
structure Synced (t : Transfer) (s : System) : Prop where
  packetNum : s.receiver.packetNum = UInt8.ofNat s.next
  filename : s.receiver.filename = if s.next = 0 then [] else t.name
  filelength : s.receiver.filelength = if s.next = 0 then 0 else t.filelength
  received : s.receiver.received = t.total (s.next - 1) % 2 ^ 32
  process : s.ready = true →
    s.receiver.process = .awaitSoh ∨ s.receiver.process = .awaitEot ∧ s.next = t.packets.length + 1

structure Inv (t : Transfer) (s : System) : Prop where
  fault : s.receiver.fault = false
  answered : s.unanswered = false
  next : s.next ≤ t.packets.length + 1
  file : s.receiver.file = t.written (s.next - 1)
  synced : s.receiver.attached = true → Synced t s
  done : s.done = true → s.receiver.handle = false ∧ s.receiver.attached = false ∧ s.next = t.packets.length + 1

variable {s s' : System}

theorem reply_eq {r' : Receiver} {l : List Byte} (h : r'.sent = r.sent ++ l) : reply r r' = l := by
  rw [reply, h, List.drop_left]

theorem crcWord_eq (crc : UInt16) : crcWord (crc >>> 8).toUInt8 crc.toUInt8 = crc := by
  apply UInt16.toNat.inj
  have hlt := crc.toNat_lt
  have hbits : UInt16.toNat 8 % 16 = 8 := rfl
  simp only [crcWord, UInt16.toNat_or, UInt16.toNat_shiftLeft, UInt8.toNat_toUInt16, UInt16.toNat_toUInt8,
    UInt16.toNat_shiftRight, Nat.shiftRight_eq_div_pow, hbits]
  have hhi : (crc.toNat / 2 ^ 8 % 2 ^ 8) <<< 8 % 2 ^ 16 = (crc.toNat / 2 ^ 8) <<< 8 := by
    rw [Nat.shiftLeft_eq, Nat.shiftLeft_eq]
    omega
  rw [hhi, ← Nat.shiftLeft_add_eq_or_of_lt (Nat.mod_lt _ (by decide)), Nat.shiftLeft_eq]
  omega

/-! ## One step -/

theorem Inv.awaits (h : Inv t s) (hattached : s.receiver.attached = true) (hready : s.ready = true)
    {payload : List Byte} (hpayload : t.payload s.next = some payload) : s.receiver.process = .awaitSoh := by
  refine ((h.synced hattached).process hready).resolve_right ?_
  rintro ⟨-, hnext⟩
  rw [hnext, Transfer.payload, List.getElem?_eq_none (by omega)] at hpayload
  cases hpayload

theorem Inv.good_frame (h : Inv t s) (hattached : s.receiver.attached = true) (hready : s.ready = true)
    {payload : List Byte} (hpayload : t.payload s.next = some payload) (disk : Bool) :
    s.receiver.receiveAll disk (delivered s.next payload none) =
      let crc := ccittCrc16 payload
      let r := s.receiver.stored payload (crc >>> 8).toUInt8 crc.toUInt8
      let result := if r.packetNum = 0 ∧ r.filename = [] then r.openFile disk else r.writePayload disk
      result.1.respond result.2 := by
  rw [delivered, ← (h.synced hattached).packetNum, receive_frame hattached (h.awaits hattached hready hpayload)
    (Transfer.payload_length hpayload)]
  dsimp only
  rw [if_neg (not_not_intro (crcWord_eq _).symm)]

/-- A garbled packet: the receiver waits for silence. -/
theorem Inv.garbled (h : Inv t s) (hattached : s.receiver.attached = true) (hready : s.ready = true)
    {payload : List Byte} (hpayload : t.payload s.next = some payload) {g : Noise} (hg : g.Garbles payload) (disk : Bool) :
    s.receiver.receiveAll disk (delivered s.next payload (some g)) = { s.receiver.stored g.payload g.hi g.lo with
      errors := s.receiver.errors + 1
      process := .purge } := by
  have hlength : g.payload.length = 128 ∨ g.payload.length = 1024 := by
    rw [hg.1]
    exact Transfer.payload_length hpayload
  rw [delivered, ← (h.synced hattached).packetNum, receive_frame hattached (h.awaits hattached hready hpayload) hlength]
  dsimp only
  rw [if_pos hg.2]
  rfl

theorem Inv.header (h : Inv t s) (hint : t.IntLength) (hattached : s.receiver.attached = true) (hready : s.ready = true) (hnext : s.next = 0)
    (disk : Bool) :
    ∃ r, s.receiver.receiveAll disk (delivered s.next t.header none) = r ∧ r.fault = false ∧ r.file = s.receiver.file ∧
      if disk then
        reply s.receiver r = [asciiACK, 0x43] ∧ Synced t { s with receiver := r, next := 1 }
      else reply s.receiver r = [asciiCAN, asciiCAN] ∧ r.attached = false := by
  have hsynced := h.synced hattached
  have hpayload : t.payload s.next = some t.header := by rw [hnext]; rfl
  refine ⟨_, rfl, ?_⟩
  rw [h.good_frame hattached hready hpayload disk]
  dsimp only
  generalize hr : s.receiver.stored t.header (ccittCrc16 t.header >>> 8).toUInt8 (ccittCrc16 t.header).toUInt8 = r
  have hfirst : r.packetNum = 0 ∧ r.filename = [] := by
    rw [← hr]
    refine ⟨?_, ?_⟩
    · exact hsynced.packetNum.trans (by rw [hnext]; rfl)
    · exact hsynced.filename.trans (if_pos hnext)
  have hsize : t.header.length ≤ 1024 := by
    rcases Transfer.payload_length hpayload with h | h <;> omega
  have hload : ∃ l, load r.payload 0 1024 = t.header ++ l := by
    have hprefix := load_store_prefix (f := s.receiver.payload) (i := 0) hsize
    rw [← hr]
    exact ⟨_, hprefix⟩
  have hfilelength : r.filelength = 0 := by
    rw [← hr]
    exact hsynced.filelength.trans (if_pos hnext)
  have hsent : r.sent = s.receiver.sent := by rw [← hr]; rfl
  have hfault : r.fault = false := by
    rw [← hr]
    exact h.fault
  rw [if_pos hfirst, openFile_header hint hload hfilelength]
  cases disk with
  | true =>
      refine ⟨hfault, by rw [← hr]; rfl, reply_eq (congrArg (· ++ _) hsent), ?_⟩
      refine ⟨?_, rfl, rfl, ?_, fun _ => Or.inl (by rw [← hr]; rfl)⟩
      · dsimp only [Receiver.respond, Receiver.write]
        rw [hfirst.1]
        rfl
      · rw [← hr]
        exact hsynced.received.trans (by rw [hnext]; rfl)
  | false =>
      refine ⟨hfault, by rw [← hr]; rfl, reply_eq ?_, rfl⟩
      exact (List.append_nil _).trans (congrArg (· ++ _) hsent)

theorem Inv.data (h : Inv t s) (hint : t.IntLength) (hattached : s.receiver.attached = true) (hready : s.ready = true) {k : ℕ}
    (hnext : s.next = k + 1) {payload : List Byte} (hpayload : t.payload s.next = some payload) (disk : Bool) :
    ∃ r, s.receiver.receiveAll disk (delivered s.next payload none) = r ∧ r.fault = false ∧
      if disk then
        reply s.receiver r = [asciiACK] ∧ r.file = t.written (k + 1) ∧ Synced t { s with receiver := r, next := k + 2 }
      else reply s.receiver r = [asciiCAN, asciiCAN] ∧ r.file = s.receiver.file ∧ r.attached = false := by
  have hsynced := h.synced hattached
  have hk : t.packets[k]? = some payload := by
    rw [hnext] at hpayload
    exact hpayload
  refine ⟨_, rfl, ?_⟩
  rw [h.good_frame hattached hready hpayload disk]
  dsimp only
  generalize hr : s.receiver.stored payload (ccittCrc16 payload >>> 8).toUInt8 (ccittCrc16 payload).toUInt8 = r
  have hname : ¬ (r.packetNum = 0 ∧ r.filename = []) := by
    rintro ⟨-, hnil⟩
    rw [← hr] at hnil
    have hfilename := hsynced.filename.symm.trans hnil
    rw [if_neg (by omega)] at hfilename
    have hpos := t.name_length.1
    rw [hfilename] at hpos
    exact absurd hpos (by decide)
  have hsent : r.sent = s.receiver.sent := by rw [← hr]; rfl
  have hfile : r.file = t.written k := by
    rw [← hr]
    exact h.file.trans (by rw [hnext, Nat.add_sub_cancel])
  have hfault : r.fault = false := by
    rw [← hr]
    exact h.fault
  rw [if_neg hname]
  cases disk with
  | true =>
      have hload : load r.payload 0 payload.length = payload := by
        have hstore := load_store (f := s.receiver.payload) (i := 0) (l := payload)
        rw [← hr]
        exact hstore
      obtain ⟨completed, packetLen, idx, process, hwrite, hprocess⟩ := writePayload_data (t := t) (r := r) hint hk
        (by rw [← hr]; rfl) (by rw [← hr]; rfl) hload
        (by rw [← hr]; exact hsynced.filelength.trans (if_neg (by omega)))
        (by rw [← hr]; exact hsynced.received.trans (by rw [hnext, Nat.add_sub_cancel])) hfile (by rw [← hr]; rfl)
      rw [hwrite]
      refine ⟨hfault, reply_eq (congrArg (· ++ _) hsent), rfl, ?_, ?_, ?_, rfl, fun _ => ?_⟩
      · have hnum : r.packetNum = UInt8.ofNat (k + 1) := by
          rw [← hr, ← hnext]
          exact hsynced.packetNum
        dsimp only [Receiver.respond, Receiver.write]
        rw [hnum, ← UInt8.ofNat_one, ← UInt8.ofNat_add]
      · rw [← hr]
        exact (hsynced.filename.trans (if_neg (by omega))).trans (if_neg (Nat.succ_ne_zero _)).symm
      · rw [← hr]
        exact (hsynced.filelength.trans (if_neg (by omega))).trans (if_neg (Nat.succ_ne_zero _)).symm
      · exact hprocess.imp id fun hend => ⟨hend.1, congrArg (· + 1) hend.2⟩
  | false =>
      have hrepeated : r.repeated = false := by rw [← hr]; rfl
      unfold Receiver.writePayload
      rw [hrepeated]
      refine ⟨hfault, reply_eq ?_, by rw [← hr]; rfl, rfl⟩
      exact (List.append_nil _).trans (congrArg (· ++ _) hsent)

theorem Inv.good (h : Inv t s) (hint : t.IntLength) (hattached : s.receiver.attached = true) (hready : s.ready = true)
    {payload : List Byte} (hpayload : t.payload s.next = some payload) (disk : Bool) :
    ∃ r, s.receiver.receiveAll disk (delivered s.next payload none) = r ∧ r.fault = false ∧
      if disk then
        asciiACK ∈ reply s.receiver r ∧ r.file = t.written s.next ∧ Synced t { s with receiver := r, next := s.next + 1 }
      else asciiACK ∉ reply s.receiver r ∧ r.file = s.receiver.file ∧ r.attached = false := by
  cases hnext : s.next with
  | zero =>
      rw [hnext] at hpayload
      cases hpayload
      obtain ⟨r, hr, hfault, hfile, hreply⟩ := h.header hint hattached hready hnext disk
      rw [hnext] at hr
      refine ⟨r, hr, hfault, ?_⟩
      cases disk with
      | true =>
          refine ⟨by rw [hreply.1]; decide, ?_, hreply.2⟩
          rw [hfile, h.file, hnext]
      | false => exact ⟨by rw [hreply.1]; decide, hfile, hreply.2⟩
  | succ k =>
      obtain ⟨r, hr, hfault, hreply⟩ := h.data hint hattached hready hnext hpayload disk
      rw [hnext] at hr
      refine ⟨r, hr, hfault, ?_⟩
      cases disk with
      | true => exact ⟨by rw [hreply.1]; decide, hreply.2⟩
      | false => exact ⟨by rw [hreply.1]; decide, hreply.2⟩

theorem Transfer.next_lt {n : ℕ} {payload : List Byte} (h : t.payload n = some payload) : n ≤ t.packets.length := by
  cases n with
  | zero => exact Nat.zero_le _
  | succ n => exact (List.getElem?_eq_some_iff.1 h).1

/-- A packet that is not acknowledged leaves the file alone; the sender waits. -/
theorem Inv.refused (h : Inv t s) (hdone : s.done = false) {r : Receiver} (hfault : r.fault = false) (hfile : r.file = s.receiver.file)
    (hsynced : r.attached = true → Synced t { s with receiver := r, ready := false }) :
    Inv t { s with receiver := r, ready := false } :=
  ⟨hfault, h.answered, h.next, hfile.trans h.file, hsynced, fun hd => absurd (hdone.symm.trans hd) Bool.false_ne_true⟩

/-- An acknowledged packet: the sender goes on to the next one. -/
theorem Inv.accepted (h : Inv t s) (hdone : s.done = false) (hnext : s.next ≤ t.packets.length)
    {r : Receiver} (hfault : r.fault = false) (hfile : r.file = t.written s.next) (hsynced : Synced t { s with receiver := r, next := s.next + 1 }) :
    Inv t { s with receiver := r, next := s.next + 1 } :=
  ⟨hfault, h.answered, Nat.succ_le_succ hnext, hfile, fun _ => hsynced,
    fun hd => absurd (hdone.symm.trans hd) Bool.false_ne_true⟩

theorem step_packet {payload : List Byte} (hpayload : t.payload s.next = some payload) (hready : s.ready = true)
    {noise : Option Noise} (hnoise : ∀ g ∈ noise, g.Garbles payload) (lost disk : Bool) :
    step t s (.packet noise lost disk) =
      let r := s.receiver.receiveAll disk (delivered s.next payload noise)
      some { s with
        receiver := r
        next := if asciiACK ∈ reply s.receiver r ∧ lost = false then s.next + 1 else s.next
        ready := asciiACK ∈ reply s.receiver r ∧ lost = false
        unanswered := s.unanswered ||
          (noise.isNone ∧ s.receiver.attached ∧ disk ∧ asciiACK ∉ reply s.receiver r) } := by
  simp only [step, hpayload]
  exact if_pos ⟨hready, hnoise⟩

theorem Inv.not_done (h : Inv t s) {payload : List Byte} (hpayload : t.payload s.next = some payload) : s.done = false := by
  have hnext := Transfer.next_lt hpayload
  by_contra hdone
  have hend := (h.done (eq_true_of_ne_false hdone)).2.2
  omega

theorem Inv.packet (h : Inv t s) (hint : t.IntLength) {payload : List Byte} (hpayload : t.payload s.next = some payload) (hready : s.ready = true)
    {noise : Option Noise} (hnoise : ∀ g ∈ noise, g.Garbles payload) (disk : Bool)
    (hstep : step t s (.packet noise false disk) = some s') : Inv t s' := by
  have hdone := h.not_done hpayload
  have hanswered := h.answered
  rw [step_packet hpayload hready hnoise] at hstep
  obtain rfl := Option.some.inj hstep
  cases hattached : s.receiver.attached with
  | false =>
      have hnone : asciiACK ∉ reply s.receiver s.receiver := by
        rw [reply, List.drop_length]
        exact List.not_mem_nil
      have hrefused := h.refused hdone (r := s.receiver) h.fault rfl
        fun hatt => absurd (hattached.symm.trans hatt) Bool.false_ne_true
      rw [receiveAll_detached hattached]
      simpa [hnone, hattached, hanswered] using hrefused
  | true =>
      have hsynced := h.synced hattached
      cases noise with
      | some g =>
          have hgarbled := h.garbled hattached hready hpayload (hnoise g rfl) disk
          generalize s.receiver.receiveAll disk (delivered s.next payload (some g)) = r at hgarbled
          have hnone : asciiACK ∉ reply s.receiver r := by
            rw [reply_eq (l := []) (by rw [hgarbled, List.append_nil]; rfl)]
            exact List.not_mem_nil
          have hrefused := h.refused hdone (r := r) (by rw [hgarbled]; exact h.fault) (by rw [hgarbled]; rfl) fun _ => by
            rw [hgarbled]
            exact ⟨hsynced.packetNum, hsynced.filename, hsynced.filelength, hsynced.received, nofun⟩
          simpa [hnone, hanswered] using hrefused
      | none =>
          obtain ⟨r, hr, hfault, hgood⟩ := h.good hint hattached hready hpayload disk
          rw [hr]
          cases disk with
          | true =>
              obtain ⟨hack, hfile, hsynced'⟩ := hgood
              have haccepted := h.accepted hdone (Transfer.next_lt hpayload) hfault hfile hsynced'
              simpa [hack, hanswered, hready] using haccepted
          | false =>
              obtain ⟨hack, hfile, hatt⟩ := hgood
              have hrefused := h.refused hdone hfault hfile fun h => absurd (hatt.symm.trans h) Bool.false_ne_true
              simpa [hack, hanswered] using hrefused

theorem Inv.silence (h : Inv t s) : Inv t { s with
    receiver := s.receiver.timeout
    ready := s.ready || asciiNAK ∈ reply s.receiver s.receiver.timeout } := by
  by_cases hattached : s.receiver.attached = true
  · have hsynced := h.synced hattached
    have hdone : s.done = false := by
      by_contra hdone
      exact Bool.false_ne_true ((h.done (eq_true_of_ne_false hdone)).2.1.symm.trans hattached)
    by_cases herrors : s.receiver.errors + 1 > 10
    · have htimeout : s.receiver.timeout =
          Receiver.endTransfer { s.receiver with errors := s.receiver.errors + 1 } false := by
        rw [Receiver.timeout, if_pos hattached]
        exact if_pos herrors
      rw [htimeout]
      exact ⟨h.fault, h.answered, h.next, h.file, nofun, fun hd => absurd (hdone.symm.trans hd) Bool.false_ne_true⟩
    · have htimeout : s.receiver.timeout = Receiver.write { s.receiver with
          errors := s.receiver.errors + 1, process := .awaitSoh } [asciiNAK] := by
        rw [Receiver.timeout, if_pos hattached]
        exact if_neg herrors
      rw [htimeout]
      refine ⟨h.fault, h.answered, h.next, h.file, fun _ => ?_, fun hd => absurd (hdone.symm.trans hd) Bool.false_ne_true⟩
      exact ⟨hsynced.packetNum, hsynced.filename, hsynced.filelength, hsynced.received, fun _ => Or.inl rfl⟩
  · have htimeout : s.receiver.timeout = s.receiver := if_neg hattached
    rw [htimeout]
    exact ⟨h.fault, h.answered, h.next, h.file, fun hatt => absurd hatt hattached, h.done⟩

theorem Inv.eot (h : Inv t s) (hready : s.ready = true) (hpayload : t.payload s.next = none) : Inv t { s with
    receiver := s.receiver.receive true asciiEOT
    ready := false
    done := s.done || asciiACK ∈ reply s.receiver (s.receiver.receive true asciiEOT) } := by
  have hnext : s.next = t.packets.length + 1 := by
    have hle := h.next
    cases hn : s.next with
    | zero =>
        rw [hn] at hpayload
        cases hpayload
    | succ k =>
        rw [hn] at hpayload hle
        have hk := List.getElem?_eq_none_iff.1 hpayload
        omega
  by_cases hattached : s.receiver.attached = true
  · have hend : s.receiver.receive true asciiEOT = s.receiver.endTransfer true := by
      rcases (h.synced hattached).process hready with hp | ⟨hp, -⟩
      · rw [receive_attached hattached hp]
        rfl
      · rw [receive_attached hattached hp]
        rfl
    rw [hend]
    exact ⟨h.fault, h.answered, h.next, h.file, nofun, fun _ => ⟨rfl, rfl, hnext⟩⟩
  · have hsame : s.receiver.receive true asciiEOT = s.receiver := if_neg hattached
    have hreply : reply s.receiver s.receiver = [] := List.drop_length
    rw [hsame, hreply]
    refine ⟨h.fault, h.answered, h.next, h.file, fun hatt => absurd hatt hattached, fun hd => h.done ?_⟩
    simpa using hd

theorem Inv.step (h : Inv t s) (hint : t.IntLength) (a : Action) (hsafe : a.Safe) (hstep : step t s a = some s') : Inv t s' := by
  cases a with
  | packet noise lost disk =>
      cases (show lost = false from hsafe)
      cases hpayload : t.payload s.next with
      | none =>
          simp only [Ymodem.step, hpayload] at hstep
          cases hstep
      | some payload =>
          by_cases hsend : s.ready = true ∧ ∀ g ∈ noise, g.Garbles payload
          · exact h.packet hint hpayload hsend.1 hsend.2 disk hstep
          · simp only [Ymodem.step, hpayload, if_neg hsend] at hstep
            cases hstep
  | silence =>
      cases hstep
      exact h.silence
  | eot =>
      simp only [Ymodem.step] at hstep
      split at hstep
      case isTrue hend =>
        cases hstep
        exact h.eot hend.1 hend.2
      case isFalse => cases hstep

theorem Inv.faithful (h : Inv t s) : Faithful t s := by
  refine ⟨h.fault, h.answered, ⟨s.next - 1, by have := h.next; omega, by omega, h.file⟩, fun hdone => ?_⟩
  obtain ⟨hhandle, -, hnext⟩ := h.done hdone
  refine ⟨hhandle, ?_⟩
  rw [h.file, hnext, Nat.add_sub_cancel, t.written_length]

theorem Inv.start (t : Transfer) : Inv t {} := by
  refine ⟨rfl, rfl, Nat.zero_le _, ?_, fun _ => ⟨rfl, rfl, rfl, rfl, fun _ => Or.inl rfl⟩, nofun⟩
  rw [Transfer.written]
  split
  · rfl
  · exact List.take_nil.symm

/-- In every run in which no ACK is lost the reception is faithful, if an announced length is an `int`. -/
theorem received_of_safe (t : Transfer) (hint : t.IntLength) {as : List Action} (hsafe : ∀ a ∈ as, a.Safe) (hrun : run (step t) {} as = some s) :
    Faithful t s := by
  have hinv : Inv t s := run_invariant_along (P := fun _ a => a.Safe)
    (fun _ a _ h hs hstep => h.step hint a hs hstep) as {} s (Inv.start t) (along_of_forall as _ hsafe) hrun
  exact hinv.faithful

end

end

/-- Two characters, with their length. -/
def Example.file : Transfer where
  name := [0x61]
  content := [0x68, 0x69]
  digits := [2]
  info := []
  headerSize := 128
  packets := [[0x68, 0x69] ++ List.replicate 126 0x1A]
  padding := List.replicate 126 0x1A
  name_length := by decide
  name_nul := by decide
  digits_value _ := rfl
  info_start := by simp
  header_size := Or.inl rfl
  header_fits := by decide
  sizes := by decide +kernel
  flatten := rfl
  last := by
    intro l p h
    have hp := congrArg List.getLast? h
    rw [List.getLast?_singleton, List.getLast?_append, List.getLast?_singleton, Option.some_or] at hp
    rw [← Option.some.inj hp]
    decide +kernel

/-- The header is garbled once. -/
def Example.garbled : List Action :=
  [.packet (some ⟨List.replicate 128 0x55, 0, 0⟩) false true, .silence, .packet none false true, .packet none false true,
    .eot]

theorem received_of_safe_garbled : ∃ s, run (step Example.file) {} Example.garbled = some s ∧ Faithful Example.file s := by
  have hrun : ∃ s, run (step Example.file) {} Example.garbled = some s :=
    Option.isSome_iff_exists.1 (by decide +kernel)
  obtain ⟨s, hs⟩ := hrun
  exact ⟨s, hs, received_of_safe Example.file (fun _ => by decide) (by decide) hs⟩

/-- The ACK of the first data packet is lost: the packet is repeated, and refused. -/
def Example.lost : List Action :=
  [.packet none false true, .packet none true true, .silence, .packet none false true]

theorem repeated_packet_is_refused : ∃ s, run (step Example.file) {} Example.lost = some s ∧
    s.unanswered = true ∧ s.receiver.process = .purge ∧ ¬ Faithful Example.file s := by
  have hrun : ((run (step Example.file) {} Example.lost).map fun s => (s.unanswered, s.receiver.process)) =
      some (true, .purge) := by decide +kernel
  obtain ⟨s, hs, hlost⟩ := Option.map_eq_some_iff.1 hrun
  have hunanswered : s.unanswered = true := congrArg Prod.fst hlost
  exact ⟨s, hs, hunanswered, congrArg Prod.snd hlost, fun h => Bool.false_ne_true (h.answered.symm.trans hunanswered)⟩

end Grbl.Ymodem
