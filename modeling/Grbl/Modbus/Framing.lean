import Mathlib
import Grbl.Lib.Cells
import Grbl.Modbus.Machine

/-!
# The frames of Modbus requests and replies

`size` is `MODBUS_MAX_ADU_SIZE`; `uint8_t` arithmetic is modulo 256.

* `cmds`, `modbusMessage` : a request of the high level API, with the stores it makes into `adu`;
* `transmitted` : what `modbus_send_rtu` puts on the line; `rxPacket` : what the callback is given of a reply;
* `payload`, `reply`, `Conforms` : the frames of the protocol, without their CRC;
* `Framed`, `framed_iff` : which calls make frames of the protocol, and get what the server has sent.
-/

namespace Grbl.Modbus.Framing
open Lib

def readCoils : ℕ := 1
def readDiscreteInputs : ℕ := 2
def readHoldingRegisters : ℕ := 3
def readInputRegisters : ℕ := 4
def writeCoil : ℕ := 5
def writeRegister : ℕ := 6
def readExceptionStatus : ℕ := 7
def diagnostics : ℕ := 8
def writeCoils : ℕ := 15
def writeRegisters : ℕ := 16

/-- `modbus_function_properties_t` -/
structure Properties where
  function : ℕ := 0
  isWrite : Bool := false
  singleRegister : Bool := false

def cmds : List Properties :=
  [⟨0, false, false⟩, ⟨readCoils, false, false⟩, ⟨readDiscreteInputs, false, false⟩, ⟨readHoldingRegisters, false, false⟩,
    ⟨readInputRegisters, false, false⟩, ⟨writeCoil, true, true⟩, ⟨writeRegister, true, true⟩,
    ⟨readExceptionStatus, false, true⟩, ⟨0, true, false⟩, ⟨0, false, false⟩, ⟨0, false, false⟩, ⟨0, false, false⟩,
    ⟨0, false, false⟩, ⟨0, false, false⟩, ⟨0, false, false⟩, ⟨writeCoils, true, false⟩, ⟨writeRegisters, true, false⟩]

def properties (function : ℕ) : Properties := cmds.getD function {}

def maxFunction : ℕ := cmds.length - 1

/-- `MODBUS_MAX_REGISTERS` -/
def maxRegisters (size : ℕ) : ℕ := (size - 6) / 2

def hi (v : UInt16) : Byte := (v >>> 8).toUInt8

def lo (v : UInt16) : Byte := v.toUInt8

/-- `modbus_read_u16` -/
def readU16 (adu : ℕ → Byte) (p : ℕ) : UInt16 := ((adu p).toUInt16 <<< 8) ||| (adu (p + 1)).toUInt16

/-- The message given to `modbus_send`, as the stores that are made into its `adu`, which is all zeros before. -/
structure Request where
  txLength : ℕ
  rxLength : ℕ
  stores : List (ℕ × Byte)
  deriving DecidableEq

def Request.adu (r : Request) : ℕ → Byte := r.stores.foldl (fun adu s => Function.update adu s.1 s.2) fun _ => 0

/-- The loop that stores the values from `pos` on. -/
def storeValues (pos registers : ℕ) (values : ℕ → UInt16) : List (ℕ × Byte) :=
  (List.range registers).flatMap fun idx => [((idx <<< 1) + pos, hi (values idx)), ((idx <<< 1) + (pos + 1), lo (values idx))]

/-- `modbus_message`; `none` is `Status_InvalidStatement`. -/
def modbusMessage (size : ℕ) (server : Byte) (function : ℕ) (address : UInt16) (values : ℕ → UInt16) (registers : UInt8) :
    Option Request :=
  if maxFunction < function ∨ (properties function).function = 0 ∨ maxRegisters size < registers.toNat then none
  else
    let start : List (ℕ × Byte) :=
      [(0, server), (1, UInt8.ofNat function), (2, hi address), (3, lo address)]
    if function = readExceptionStatus then some ⟨4, 5, start⟩
    else
      let n := registers.toNat
      let txLength := (6 + 2 * n) % 256
      let count : List (ℕ × Byte) := [(4, UInt8.ofNat (n >>> 8)), (5, UInt8.ofNat (n &&& 0xFF))]
      if (properties function).isWrite then
        if (properties function).singleRegister then some ⟨8, 8, start ++ storeValues 4 n values⟩
        else
          let txLength := (txLength + 3) % 256
          if size < txLength then none
          else some ⟨txLength, 8, start ++ count ++ [(6, UInt8.ofNat (n <<< 1))] ++ storeValues 7 n values⟩
      else
        let rxLength :=
          if function = readCoils ∨ function = readDiscreteInputs then (5 + (n + 7) / 8) % 256 else (5 + (n <<< 1)) % 256
        some ⟨txLength, rxLength, start ++ count⟩

/-- The message with its CRC, as `modbus_send_rtu` gives it to the stream. -/
def transmitted (r : Request) : List Byte :=
  let crc := crc16x (load r.adu 0 (r.txLength - 2))
  let adu := Function.update r.adu (r.txLength - 1) (crc >>> 8).toUInt8
  load (Function.update adu (r.txLength - 2) crc.toUInt8) 0 r.txLength

/-- `modbus_response_t`, with the values there are. -/
structure Response where
  function : ℕ
  exception : ℕ := 0
  values : List UInt16 := []
  deriving DecidableEq

/-- What `rx_packet` gives to the callback of the caller; the response is cleared before the request is sent. -/
def rxPacket (size : ℕ) (adu : ℕ → Byte) : Option Response :=
  if adu 0 &&& 0x80 ≠ 0 then none
  else
    let function := (adu 1).toNat
    let p := properties function
    if function ≤ maxFunction ∧ p.function ≠ 0 then
      if function = readExceptionStatus then some ⟨function, 0, [(adu 2).toUInt16]⟩
      else if function = diagnostics then some ⟨function, 0, []⟩
      else if function = readCoils ∨ function = readDiscreteInputs then
        let numValues := min (adu 2).toNat (maxRegisters size)
        some ⟨function, 0, (List.range numValues).map fun idx => (adu (3 + idx)).toUInt16⟩
      else
        let short := p.singleRegister || p.isWrite
        let numValues := min (if short then 2 else (adu 2).toNat / 2) (maxRegisters size)
        let pos := if short then 2 else 3
        some ⟨function, 0, (List.range numValues).map fun idx => readU16 adu (pos + (idx <<< 1))⟩
    else some ⟨function, 255, []⟩

/-! ## The protocol -/

/-- Words on the line, most significant byte first. -/
def words (vs : List UInt16) : List Byte := vs.flatMap fun v => [hi v, lo v]

def isCoils (function : ℕ) : Bool := function = readCoils ∨ function = readDiscreteInputs

def isRegisters (function : ℕ) : Bool := function = readHoldingRegisters ∨ function = readInputRegisters

def isSingle (function : ℕ) : Bool := function = writeCoil ∨ function = writeRegister

/-- The request for `n` values. -/
def payload (server : Byte) (function : ℕ) (address : UInt16) (values : ℕ → UInt16) (n : ℕ) : List Byte :=
  [server, UInt8.ofNat function] ++ words [address] ++
    if isSingle function then words [values 0]
    else if function = writeRegisters then
      words [UInt16.ofNat n] ++ [UInt8.ofNat (2 * n)] ++ words ((List.range n).map values)
    else words [UInt16.ofNat n]

def requestLength (function n : ℕ) : ℕ := if function = writeRegisters then 9 + 2 * n else 8

/-- The values a server may send: packed coils, registers, or what it has been told. -/
def Conforms (function : ℕ) (address : UInt16) (values : ℕ → UInt16) (n : ℕ) (sent : List UInt16) : Prop :=
  if isCoils function then sent.length = (n + 7) / 8 ∧ ∀ v ∈ sent, v.toNat < 256
  else if isRegisters function then sent.length = n
  else if isSingle function then sent = [address, values 0]
  else sent = [address, UInt16.ofNat n]

def reply (server : Byte) (function : ℕ) (sent : List UInt16) : List Byte :=
  [server, UInt8.ofNat function] ++
    if isCoils function then UInt8.ofNat sent.length :: sent.map lo
    else if isRegisters function then UInt8.ofNat (2 * sent.length) :: words sent
    else words sent

def replyLength (function n : ℕ) : ℕ :=
  if isCoils function then 5 + (n + 7) / 8 else if isRegisters function then 5 + 2 * n else 8

/-- A request as the protocol has it, whose reply is handed on as it was sent. -/
structure Framed (size : ℕ) (server : Byte) (function : ℕ) (address : UInt16) (values : ℕ → UInt16) (n : ℕ) (r : Request) :
    Prop where
  txLength : r.txLength = requestLength function n
  transmitted : transmitted r = payload server function address values n ++
    [(crc16x (payload server function address values n)).toUInt8, (crc16x (payload server function address values n) >>> 8).toUInt8]
  stores : ∀ s ∈ r.stores, s.1 < size
  crc : 2 ≤ r.txLength ∧ r.txLength ≤ size
  rxLength : r.rxLength = replyLength function n ∧ r.rxLength ≤ size
  decoded : ∀ sent old, Conforms function address values n sent → ∀ crc : List Byte,
    rxPacket size (store old 0 (reply server function sent ++ crc)) = some ⟨function, 0, sent⟩

/-! ## The stores -/

/-- A list stored from `i` on, byte by byte. -/
def numbered (i : ℕ) (l : List Byte) : List (ℕ × Byte) := (l.zipIdx i).map Prod.swap

theorem numbered_cons (i : ℕ) (b : Byte) (l : List Byte) : numbered i (b :: l) = (i, b) :: numbered (i + 1) l := rfl

theorem numbered_append (i : ℕ) (l l' : List Byte) : numbered i (l ++ l') = numbered i l ++ numbered (i + l.length) l' := by
  rw [numbered, List.zipIdx_append, List.map_append]
  rfl

theorem lt_of_mem_numbered {i : ℕ} {l : List Byte} {s : ℕ × Byte} (h : s ∈ numbered i l) : s.1 < i + l.length := by
  obtain ⟨x, hx, rfl⟩ := List.mem_map.1 h
  exact List.snd_lt_add_of_mem_zipIdx hx

theorem foldl_numbered (l : List Byte) : ∀ (f : ℕ → Byte) (i : ℕ),
    (numbered i l).foldl (fun adu s => Function.update adu s.1 s.2) f = store f i l := by
  induction l with
  | nil => exact fun f i => store_nil.symm
  | cons b l ih =>
      intro f i
      rw [numbered_cons, List.foldl_cons, ih, store_cons]

theorem length_words (vs : List UInt16) : (words vs).length = 2 * vs.length := by
  induction vs with
  | nil => rfl
  | cons v vs ih =>
      rw [words, List.flatMap_cons, List.length_append, ← words, ih, List.length_cons]
      show 2 + 2 * vs.length = 2 * (vs.length + 1)
      omega

theorem words_append (vs vs' : List UInt16) : words (vs ++ vs') = words vs ++ words vs' := List.flatMap_append

theorem storeValues_eq (pos : ℕ) (values : ℕ → UInt16) (n : ℕ) :
    storeValues pos n values = numbered pos (words ((List.range n).map values)) := by
  induction n with
  | zero => rfl
  | succ n ih =>
      have hlen : (words ((List.range n).map values)).length = n <<< 1 := by
        rw [length_words, List.length_map, List.length_range, Nat.shiftLeft_eq, Nat.pow_one, Nat.mul_comm]
      rw [storeValues, List.range_succ, List.flatMap_append, ← storeValues, ih, List.map_append, words_append, numbered_append,
        hlen, Nat.add_comm pos (n <<< 1)]
      rfl

/-- A request whose bytes are stored one behind the other goes on the line with its CRC behind them. -/
theorem transmitted_eq {r : Request} {p : List Byte} (hstores : r.stores = numbered 0 p) (hlen : r.txLength = p.length + 2) :
    transmitted r = p ++ [(crc16x p).toUInt8, (crc16x p >>> 8).toUInt8] := by
  have hadu : r.adu = store (fun _ => 0) 0 p := by rw [Request.adu, hstores, foldl_numbered]
  have hload : load r.adu 0 (r.txLength - 2) = p := by rw [hadu, hlen, Nat.add_sub_cancel, load_store]
  rw [transmitted, hload, hlen, Nat.add_sub_cancel, Nat.add_succ_sub_one]
  have hswap : Function.update (Function.update r.adu (p.length + 1) (crc16x p >>> 8).toUInt8) p.length (crc16x p).toUInt8 =
      store r.adu (0 + p.length) [(crc16x p).toUInt8, (crc16x p >>> 8).toUInt8] := by
    rw [store_cons, store_cons, store_nil, Nat.zero_add, Function.update_comm (Nat.succ_ne_self _)]
  rw [hswap, hadu]
  refine (load_store_behind (n := p.length) (l := [(crc16x p).toUInt8, (crc16x p >>> 8).toUInt8])).trans ?_
  rw [load_store]

/-! ## Words and bytes -/

theorem hi_ofNat {n : ℕ} (hn : n < 256) : hi (UInt16.ofNat n) = UInt8.ofNat (n >>> 8) := by
  apply UInt8.toNat_inj.1
  simp [hi, Nat.shiftRight_eq_div_pow]
  omega

theorem lo_ofNat (n : ℕ) : lo (UInt16.ofNat n) = UInt8.ofNat (n &&& 0xFF) := by
  apply UInt8.toNat_inj.1
  have hand : n &&& 0xFF = n % 256 := Nat.and_two_pow_sub_one_eq_mod n 8
  simp [lo, hand]

theorem toNat_hi (v : UInt16) : (hi v).toNat = v.toNat / 256 := by
  have hv := v.toNat_lt
  have hmod : v.toNat / 2 ^ 8 % 2 ^ 8 = v.toNat / 2 ^ 8 := Nat.mod_eq_of_lt (by omega)
  rw [hi, UInt16.toNat_toUInt8, UInt16.toNat_shiftRight, Nat.shiftRight_eq_div_pow]
  exact hmod

theorem toNat_lo (v : UInt16) : (lo v).toNat = v.toNat % 256 := UInt16.toNat_toUInt8 v

theorem readU16_word {adu : ℕ → Byte} {p : ℕ} {v : UInt16} (hhi : adu p = hi v) (hlo : adu (p + 1) = lo v) : readU16 adu p = v := by
  have hv := v.toNat_lt
  have hshift : ((hi v).toUInt16 <<< 8).toNat = v.toNat / 256 * 256 := by
    rw [UInt16.toNat_shiftLeft, UInt8.toNat_toUInt16, toNat_hi, Nat.shiftLeft_eq]
    exact Nat.mod_eq_of_lt (show v.toNat / 256 * 256 < 65536 by omega)
  have hor := Nat.shiftLeft_add_eq_or_of_lt (show v.toNat % 256 < 2 ^ 8 from Nat.mod_lt _ (by decide)) (v.toNat / 256)
  rw [Nat.shiftLeft_eq] at hor
  apply UInt16.toNat_inj.1
  rw [readU16, hhi, hlo, UInt16.toNat_or, hshift, UInt8.toNat_toUInt16, toNat_lo]
  refine hor.symm.trans ?_
  omega

/-! ## Requests -/

section
variable {size function : ℕ} {server : Byte} {address : UInt16} {values : ℕ → UInt16} {registers : UInt8} {r : Request}

theorem start_eq (server : Byte) (function : ℕ) (address : UInt16) :
    [(0, server), (1, UInt8.ofNat function), (2, hi address), (3, lo address)] =
      numbered 0 ([server, UInt8.ofNat function] ++ words [address]) := rfl

theorem count_eq {n : ℕ} (hn : n < 256) :
    [(4, UInt8.ofNat (n >>> 8)), (5, UInt8.ofNat (n &&& 0xFF))] = numbered 4 (words [UInt16.ofNat n]) := by
  rw [← hi_ofNat hn, ← lo_ofNat]
  rfl

theorem modbusMessage_read (hp : properties function = ⟨function, false, false⟩) (h0 : function ≠ 0)
    (h7 : function ≠ readExceptionStatus) (hs : isSingle function = false) (hm : function ≠ writeRegisters)
    (h : modbusMessage size server function address values registers = some r) :
    registers.toNat ≤ maxRegisters size ∧ r = ⟨(6 + 2 * registers.toNat) % 256,
      if isCoils function then (5 + (registers.toNat + 7) / 8) % 256 else (5 + 2 * registers.toNat) % 256,
      numbered 0 (payload server function address values registers.toNat)⟩ := by
  rw [modbusMessage, Option.ite_none_left_eq_some, not_or, not_or, not_lt, not_lt, hp] at h
  obtain ⟨⟨-, -, hle⟩, h⟩ := h
  rw [if_neg h7, if_neg Bool.false_ne_true, start_eq, count_eq registers.toNat_lt, Option.some.injEq] at h
  refine ⟨hle, h.symm.trans ?_⟩
  rw [payload, hs, if_neg Bool.false_ne_true, if_neg hm, numbered_append, Nat.shiftLeft_eq, Nat.pow_one,
    Nat.mul_comm registers.toNat 2]
  simp only [isCoils, decide_eq_true_eq]
  rfl

theorem modbusMessage_single (hp : properties function = ⟨function, true, true⟩) (h7 : function ≠ readExceptionStatus)
    (hs : isSingle function = true) (h1 : registers.toNat = 1)
    (h : modbusMessage size server function address values registers = some r) :
    r = ⟨8, 8, numbered 0 (payload server function address values registers.toNat)⟩ := by
  rw [modbusMessage, Option.ite_none_left_eq_some, hp] at h
  obtain ⟨-, h⟩ := h
  rw [if_neg h7, if_pos rfl, if_pos rfl, start_eq, storeValues_eq, h1, Option.some.injEq] at h
  refine h.symm.trans ?_
  rw [payload, hs, if_pos rfl, numbered_append]
  rfl

theorem modbusMessage_writeRegisters (h : modbusMessage size server writeRegisters address values registers = some r) :
    registers.toNat ≤ maxRegisters size ∧ (9 + 2 * registers.toNat) % 256 ≤ size ∧
      r = ⟨(9 + 2 * registers.toNat) % 256, 8, numbered 0 (payload server writeRegisters address values registers.toNat)⟩ := by
  have hp : properties writeRegisters = ⟨writeRegisters, true, false⟩ := rfl
  have hmod : ((6 + 2 * registers.toNat) % 256 + 3) % 256 = (9 + 2 * registers.toNat) % 256 := by omega
  rw [modbusMessage, Option.ite_none_left_eq_some, not_or, not_or, not_lt, not_lt, hp] at h
  obtain ⟨⟨-, -, hle⟩, h⟩ := h
  rw [if_neg (by decide), if_pos rfl, if_neg Bool.false_ne_true, hmod, Option.ite_none_left_eq_some, not_lt, start_eq,
    count_eq registers.toNat_lt, storeValues_eq, Option.some.injEq, Nat.shiftLeft_eq, Nat.pow_one,
    Nat.mul_comm registers.toNat 2] at h
  refine ⟨hle, h.1, h.2.symm.trans ?_⟩
  rw [payload, if_neg (by decide), if_pos rfl, ← List.append_assoc, ← List.append_assoc, numbered_append, numbered_append]
  rfl

end

/-! ## Replies -/

section
variable {f : ℕ → Byte}

theorem store_zero_apply (l : List Byte) (k : ℕ) : store f 0 l k = l.getD k (f k) := by
  rw [store, if_pos (Nat.zero_le k), Nat.sub_zero]

theorem getD_words (rest : List Byte) : ∀ {vs : List UInt16} {k : ℕ} (hk : k < vs.length) (d : Byte),
    (words vs ++ rest).getD (2 * k) d = hi vs[k] ∧ (words vs ++ rest).getD (2 * k + 1) d = lo vs[k]
  | v :: vs, 0, _, d => ⟨rfl, rfl⟩
  | v :: vs, k + 1, hk, d => getD_words rest (Nat.lt_of_succ_lt_succ hk) d

theorem map_readU16 (pre rest : List Byte) (vs : List UInt16) :
    (List.range vs.length).map (fun idx => readU16 (store f 0 (pre ++ (words vs ++ rest))) (pre.length + (idx <<< 1))) = vs := by
  refine List.ext_getElem (by rw [List.length_map, List.length_range]) fun k _ hk => ?_
  rw [List.getElem_map, List.getElem_range, Nat.shiftLeft_eq, Nat.pow_one, Nat.mul_comm k 2]
  refine readU16_word ?_ ?_
  · rw [store_zero_apply, List.getD_append_right _ _ _ _ (Nat.le_add_right _ _), Nat.add_sub_cancel_left]
    exact (getD_words rest hk _).1
  · rw [store_zero_apply, List.getD_append_right _ _ _ _ (by omega), Nat.add_assoc, Nat.add_sub_cancel_left]
    exact (getD_words rest hk _).2

theorem map_bytes (pre rest : List Byte) {vs : List UInt16} (hvs : ∀ v ∈ vs, v.toNat < 256) :
    (List.range vs.length).map (fun idx => (store f 0 (pre ++ (vs.map lo ++ rest)) (pre.length + idx)).toUInt16) = vs := by
  refine List.ext_getElem (by rw [List.length_map, List.length_range]) fun k _ hk => ?_
  have hk' : k < (vs.map lo).length := by rwa [List.length_map]
  rw [List.getElem_map, List.getElem_range, store_zero_apply, List.getD_append_right _ _ _ _ (Nat.le_add_right _ _),
    Nat.add_sub_cancel_left, List.getD_append _ _ _ _ hk', List.getD_eq_getElem _ _ hk', List.getElem_map]
  apply UInt16.toNat_inj.1
  rw [UInt8.toNat_toUInt16, toNat_lo, Nat.mod_eq_of_lt (hvs _ (List.getElem_mem hk))]

variable {size function : ℕ} {server : Byte} {address : UInt16} {values : ℕ → UInt16} {n : ℕ} {sent : List UInt16}

theorem rxPacket_ignored (hserver : server &&& 0x80 ≠ 0) (l : List Byte) : rxPacket size (store f 0 (server :: l)) = none :=
  if_pos hserver

theorem rxPacket_coils (hserver : server &&& 0x80 = 0) (hf : isCoils function = true) (hn : n ≤ maxRegisters size) (hlt : n < 256)
    (h : Conforms function address values n sent) (crc : List Byte) :
    rxPacket size (store f 0 (reply server function sent ++ crc)) = some ⟨function, 0, sent⟩ := by
  rw [Conforms, if_pos hf] at h
  have hcount : (UInt8.ofNat sent.length).toNat = sent.length := Nat.mod_eq_of_lt (show sent.length < 256 by omega)
  have hmin : min (UInt8.ofNat sent.length).toNat (maxRegisters size) = sent.length := by
    rw [hcount]
    exact Nat.min_eq_left (by omega)
  have hreply : reply server function sent ++ crc = [server, UInt8.ofNat function, UInt8.ofNat sent.length] ++ (sent.map lo ++ crc) := by
    rw [reply, hf]
    rfl
  have hvalues := map_bytes (f := f) [server, UInt8.ofNat function, UInt8.ofNat sent.length] crc h.2
  rw [← hreply] at hvalues
  have h0 : store f 0 (reply server function sent ++ crc) 0 = server := rfl
  have h1 : store f 0 (reply server function sent ++ crc) 1 = UInt8.ofNat function := rfl
  have h2 : store f 0 (reply server function sent ++ crc) 2 = UInt8.ofNat sent.length := by rw [hreply]; rfl
  have hkind : function = readCoils ∨ function = readDiscreteInputs := of_decide_eq_true hf
  rw [rxPacket, h0, if_neg (not_not.2 hserver), h1, h2, hmin]
  rcases hkind with rfl | rfl
  · exact congrArg (fun vs => some (Response.mk 1 0 vs)) hvalues
  · exact congrArg (fun vs => some (Response.mk 2 0 vs)) hvalues

theorem rxPacket_registers (hserver : server &&& 0x80 = 0) (hf : isRegisters function = true) (hn : n ≤ maxRegisters size)
    (hlt : 2 * n < 256) (h : Conforms function address values n sent) (crc : List Byte) :
    rxPacket size (store f 0 (reply server function sent ++ crc)) = some ⟨function, 0, sent⟩ := by
  have hkind : function = readHoldingRegisters ∨ function = readInputRegisters := of_decide_eq_true hf
  have hc : isCoils function = false := by rcases hkind with rfl | rfl <;> rfl
  rw [Conforms, hc, if_neg Bool.false_ne_true, if_pos hf] at h
  have hcount : (UInt8.ofNat (2 * sent.length)).toNat = 2 * sent.length := Nat.mod_eq_of_lt (show 2 * sent.length < 256 by omega)
  have hmin : List.range (min ((UInt8.ofNat (2 * sent.length)).toNat / 2) (maxRegisters size)) = List.range sent.length := by
    rw [hcount, Nat.mul_div_cancel_left _ Nat.two_pos, Nat.min_eq_left (by omega)]
  have hreply : reply server function sent ++ crc =
      [server, UInt8.ofNat function, UInt8.ofNat (2 * sent.length)] ++ (words sent ++ crc) := by
    rw [reply, hc, hf]
    rfl
  have hvalues := map_readU16 (f := f) [server, UInt8.ofNat function, UInt8.ofNat (2 * sent.length)] crc sent
  rw [← hreply, ← hmin] at hvalues
  have h0 : store f 0 (reply server function sent ++ crc) 0 = server := rfl
  have h1 : store f 0 (reply server function sent ++ crc) 1 = UInt8.ofNat function := rfl
  have h2 : store f 0 (reply server function sent ++ crc) 2 = UInt8.ofNat (2 * sent.length) := by rw [hreply]; rfl
  rw [rxPacket, h0, if_neg (not_not.2 hserver), h1, h2]
  rcases hkind with rfl | rfl
  · exact congrArg (fun vs => some (Response.mk 3 0 vs)) hvalues
  · exact congrArg (fun vs => some (Response.mk 4 0 vs)) hvalues

theorem rxPacket_write (hserver : server &&& 0x80 = 0) (hf : isSingle function = true ∨ function = writeRegisters)
    (hsize : 12 ≤ size) (h : Conforms function address values n sent) (crc : List Byte) :
    rxPacket size (store f 0 (reply server function sent ++ crc)) = some ⟨function, 0, sent⟩ := by
  have hkind : function = writeCoil ∨ function = writeRegister ∨ function = writeRegisters := by
    rcases hf with hf | rfl
    · rcases (of_decide_eq_true hf : function = writeCoil ∨ function = writeRegister) with rfl | rfl
      · exact .inl rfl
      · exact .inr (.inl rfl)
    · exact .inr (.inr rfl)
  have hc : isCoils function = false := by rcases hkind with rfl | rfl | rfl <;> rfl
  have hr : isRegisters function = false := by rcases hkind with rfl | rfl | rfl <;> rfl
  have hlen : sent.length = 2 := by
    rw [Conforms, hc, if_neg Bool.false_ne_true, hr, if_neg Bool.false_ne_true] at h
    split at h <;> rw [h] <;> rfl
  have hmin : min 2 (maxRegisters size) = sent.length := by
    rw [hlen, maxRegisters]
    exact Nat.min_eq_left (by omega)
  have hreply : reply server function sent ++ crc = [server, UInt8.ofNat function] ++ (words sent ++ crc) := by
    rw [reply, hc, hr]
    rfl
  have hvalues := map_readU16 (f := f) [server, UInt8.ofNat function] crc sent
  rw [← hreply, ← hmin] at hvalues
  have h0 : store f 0 (reply server function sent ++ crc) 0 = server := rfl
  have h1 : store f 0 (reply server function sent ++ crc) 1 = UInt8.ofNat function := rfl
  rw [rxPacket, h0, if_neg (not_not.2 hserver), h1]
  rcases hkind with rfl | rfl | rfl
  · exact congrArg (fun vs => some (Response.mk 5 0 vs)) hvalues
  · exact congrArg (fun vs => some (Response.mk 6 0 vs)) hvalues
  · exact congrArg (fun vs => some (Response.mk 16 0 vs)) hvalues

theorem exists_conforms (function : ℕ) (address : UInt16) (values : ℕ → UInt16) (n : ℕ) :
    ∃ sent, Conforms function address values n sent := by
  unfold Conforms
  split
  · refine ⟨List.replicate ((n + 7) / 8) 0, List.length_replicate, fun v hv => ?_⟩
    rw [List.eq_of_mem_replicate hv]
    decide
  split
  · exact ⟨List.replicate n 0, List.length_replicate⟩
  split
  · exact ⟨_, rfl⟩
  · exact ⟨_, rfl⟩

theorem Framed.high_bit {r : Request} (h : Framed size server function address values n r) : server &&& 0x80 = 0 := by
  obtain ⟨sent, hsent⟩ := exists_conforms function address values n
  by_contra hserver
  have hdecoded := h.decoded sent (fun _ => 0) hsent []
  rw [reply, List.append_assoc, List.cons_append, rxPacket_ignored hserver] at hdecoded
  cases hdecoded

end

/-! ## Calls -/

/-- The functions whose frames are compared. -/
def listed : List ℕ :=
  [readCoils, readDiscreteInputs, readHoldingRegisters, readInputRegisters, writeCoil, writeRegister, writeRegisters]

/-- The calls that make frames of the protocol: one value is read (or 129 coils, whose length is the same in a byte), or
what is written fits into the byte of the length; and the address has no high bit. -/
def Fits (server : Byte) (function n : ℕ) : Prop :=
  server &&& 0x80 = 0 ∧ (isCoils function = true → n = 1 ∨ n = 129) ∧ (isRegisters function = true → n = 1) ∧
    (function = writeRegisters → 9 + 2 * n < 256)

instance (server : Byte) (function n : ℕ) : Decidable (Fits server function n) := inferInstanceAs (Decidable (_ ∧ _))

section
variable {size function : ℕ} {server : Byte} {address : UInt16} {values : ℕ → UInt16} {n : ℕ} {r : Request}

theorem Framed.of_numbered (hstores : r.stores = numbered 0 (payload server function address values n))
    (hpayload : (payload server function address values n).length + 2 = requestLength function n)
    (htx : r.txLength = requestLength function n) (hsize : requestLength function n ≤ size)
    (hrx : r.rxLength = replyLength function n ∧ r.rxLength ≤ size)
    (hdecoded : ∀ sent old, Conforms function address values n sent → ∀ crc : List Byte,
      rxPacket size (store old 0 (reply server function sent ++ crc)) = some ⟨function, 0, sent⟩) :
    Framed size server function address values n r where
  txLength := htx
  transmitted := transmitted_eq hstores (htx.trans hpayload.symm)
  stores s hs := by
    rw [hstores] at hs
    have hlt := lt_of_mem_numbered hs
    omega
  crc := by omega
  rxLength := hrx
  decoded := hdecoded

theorem length_payload_short (hm : function ≠ writeRegisters) :
    (payload server function address values n).length + 2 = requestLength function n := by
  rw [payload, if_neg hm, requestLength, if_neg hm]
  split <;> rfl

theorem length_payload_writeRegisters :
    (payload server writeRegisters address values n).length + 2 = requestLength writeRegisters n := by
  have hlen : (words ((List.range n).map values)).length = 2 * n := by rw [length_words, List.length_map, List.length_range]
  rw [payload, if_neg (by decide), if_pos rfl, requestLength, if_pos rfl, List.length_append, List.length_append,
    List.length_append, List.length_append, hlen]
  show 2 + 2 + (2 + 1 + 2 * n) + 2 = 9 + 2 * n
  omega

theorem framed_read_iff (hsize : 12 ≤ size) (hp : properties function = ⟨function, false, false⟩) (h0 : function ≠ 0)
    (h7 : function ≠ readExceptionStatus) (hs : isSingle function = false) (hm : function ≠ writeRegisters)
    (hkind : isCoils function = !isRegisters function) {registers : UInt8} (hn : 1 ≤ registers.toNat)
    (h : modbusMessage size server function address values registers = some r) :
    Framed size server function address values registers.toNat r ↔ Fits server function registers.toNat := by
  obtain ⟨hle, rfl⟩ := modbusMessage_read hp h0 h7 hs hm h
  have hlt := registers.toNat_lt
  have hmax : maxRegisters size * 2 + 6 ≤ size := by
    rw [maxRegisters]
    omega
  constructor
  · intro hframed
    have htx : (6 + 2 * registers.toNat) % 256 = requestLength function registers.toNat := hframed.txLength
    have hrx := hframed.rxLength.1
    rw [requestLength, if_neg hm] at htx
    rw [replyLength] at hrx
    refine ⟨hframed.high_bit, fun hc => by omega, fun hr => ?_, fun hf => absurd hf hm⟩
    rw [hr, Bool.not_true] at hkind
    rw [hkind, if_neg Bool.false_ne_true, if_neg Bool.false_ne_true, if_pos hr] at hrx
    have hrx' : (5 + 2 * registers.toNat) % 256 = 5 + 2 * registers.toNat := hrx
    omega
  · rintro ⟨hserver, hcoils, hregisters, -⟩
    refine .of_numbered rfl (length_payload_short hm) ?_ ?_ ?_ ?_
    · rw [requestLength, if_neg hm]
      show (6 + 2 * registers.toNat) % 256 = 8
      cases hc : isCoils function with
      | true => have := hcoils hc; omega
      | false =>
          rw [hc, eq_comm, Bool.not_eq_false'] at hkind
          have := hregisters hkind
          omega
    · rw [requestLength, if_neg hm]
      omega
    · rw [replyLength]
      cases hc : isCoils function with
      | true =>
          have := hcoils hc
          rw [if_pos rfl, if_pos rfl]
          show (5 + (registers.toNat + 7) / 8) % 256 = _ ∧ (5 + (registers.toNat + 7) / 8) % 256 ≤ size
          omega
      | false =>
          rw [hc, eq_comm, Bool.not_eq_false'] at hkind
          have := hregisters hkind
          rw [if_neg Bool.false_ne_true, if_neg Bool.false_ne_true, if_pos hkind]
          show (5 + 2 * registers.toNat) % 256 = _ ∧ (5 + 2 * registers.toNat) % 256 ≤ size
          omega
    · intro sent old hconforms crc
      cases hc : isCoils function with
      | true => exact rxPacket_coils hserver hc hle hlt hconforms crc
      | false =>
          rw [hc, eq_comm, Bool.not_eq_false'] at hkind
          have := hregisters hkind
          exact rxPacket_registers hserver hkind hle (by omega) hconforms crc

theorem framed_single_iff (hsize : 12 ≤ size) (hp : properties function = ⟨function, true, true⟩)
    (h7 : function ≠ readExceptionStatus) (hs : isSingle function = true) (hm : function ≠ writeRegisters)
    (hc : isCoils function = false) (hr : isRegisters function = false) {registers : UInt8} (h1 : registers.toNat = 1)
    (h : modbusMessage size server function address values registers = some r) :
    Framed size server function address values registers.toNat r ↔ Fits server function registers.toNat := by
  obtain rfl := modbusMessage_single hp h7 hs h1 h
  constructor
  · intro hframed
    exact ⟨hframed.high_bit, fun _ => .inl h1, fun _ => h1, fun hf => absurd hf hm⟩
  · rintro ⟨hserver, -⟩
    refine .of_numbered rfl (length_payload_short hm) ?_ ?_ ?_ fun sent old hconforms => rxPacket_write hserver (.inl hs) hsize hconforms
    · rw [requestLength, if_neg hm]
    · rw [requestLength, if_neg hm]
      omega
    · rw [replyLength, hc, hr]
      exact ⟨rfl, show 8 ≤ size by omega⟩

theorem framed_writeRegisters_iff (hsize : 12 ≤ size) {registers : UInt8}
    (h : modbusMessage size server writeRegisters address values registers = some r) :
    Framed size server writeRegisters address values registers.toNat r ↔ Fits server writeRegisters registers.toNat := by
  obtain ⟨hle, htx, rfl⟩ := modbusMessage_writeRegisters h
  constructor
  · intro hframed
    have hlen : (9 + 2 * registers.toNat) % 256 = requestLength writeRegisters registers.toNat := hframed.txLength
    rw [requestLength, if_pos rfl] at hlen
    exact ⟨hframed.high_bit, nofun, nofun, fun _ => by omega⟩
  · rintro ⟨hserver, -, -, hfits⟩
    have hlt := hfits rfl
    refine .of_numbered rfl length_payload_writeRegisters ?_ ?_ ?_ fun sent old hconforms => rxPacket_write hserver (.inr rfl) hsize hconforms
    · rw [requestLength, if_pos rfl]
      exact Nat.mod_eq_of_lt hlt
    · rw [requestLength, if_pos rfl]
      omega
    · exact ⟨rfl, show 8 ≤ size by omega⟩

end

/-- Which calls that pass their checks make frames of the protocol and are given what the server has sent. -/
theorem framed_iff {size function : ℕ} {server : Byte} {address : UInt16} {values : ℕ → UInt16} {registers : UInt8} {r : Request}
    (hsize : 12 ≤ size) (hf : function ∈ listed) (hn : 1 ≤ registers.toNat)
    (hsingle : isSingle function = true → registers.toNat = 1)
    (h : modbusMessage size server function address values registers = some r) :
    Framed size server function address values registers.toNat r ↔ Fits server function registers.toNat := by
  simp only [listed, List.mem_cons, List.not_mem_nil, or_false] at hf
  rcases hf with rfl | rfl | rfl | rfl | rfl | rfl | rfl
  · exact framed_read_iff hsize rfl (by decide) (by decide) rfl (by decide) rfl hn h
  · exact framed_read_iff hsize rfl (by decide) (by decide) rfl (by decide) rfl hn h
  · exact framed_read_iff hsize rfl (by decide) (by decide) rfl (by decide) rfl hn h
  · exact framed_read_iff hsize rfl (by decide) (by decide) rfl (by decide) rfl hn h
  · exact framed_single_iff hsize rfl (by decide) rfl (by decide) rfl rfl (hsingle rfl) h
  · exact framed_single_iff hsize rfl (by decide) rfl (by decide) rfl rfl (hsingle rfl) h
  · exact framed_writeRegisters_iff hsize h

theorem framed_iff_one : ∃ r, modbusMessage 12 1 readHoldingRegisters 16 (fun _ => 0) 1 = some r ∧
    Framed 12 1 readHoldingRegisters 16 (fun _ => 0) 1 r := by
  have hsize : 12 ≤ 12 := le_rfl
  have hf : readHoldingRegisters ∈ listed := by decide
  have hn : 1 ≤ (1 : UInt8).toNat := by decide
  have hsingle : isSingle readHoldingRegisters = true → (1 : UInt8).toNat = 1 := fun _ => rfl
  have h : modbusMessage 12 1 readHoldingRegisters 16 (fun _ => 0) 1 =
      some ⟨8, 7, [(0, 1), (1, 3), (2, 0), (3, 16), (4, 0), (5, 1)]⟩ := by decide +kernel
  have hfits : Fits 1 readHoldingRegisters (1 : UInt8).toNat := by decide
  exact ⟨_, h, (framed_iff hsize hf hn hsingle h).2 hfits⟩

/-- Two registers are asked for in ten bytes, and the answer of address 200 is not looked at. -/
theorem two_registers_make_ten_bytes : (∃ r, modbusMessage 12 1 readHoldingRegisters 16 (fun _ => 0) 2 = some r ∧
      r.txLength = 10 ∧ ¬ Framed 12 1 readHoldingRegisters 16 (fun _ => 0) 2 r) ∧
    ∃ r, modbusMessage 12 200 readHoldingRegisters 16 (fun _ => 0) 1 = some r ∧
      ¬ Framed 12 200 readHoldingRegisters 16 (fun _ => 0) 1 r := by
  refine ⟨⟨⟨10, 9, [(0, 1), (1, 3), (2, 0), (3, 16), (4, 0), (5, 2)]⟩, by decide +kernel, rfl, fun h => ?_⟩,
    ⟨⟨8, 7, [(0, 200), (1, 3), (2, 0), (3, 16), (4, 0), (5, 1)]⟩, by decide +kernel, fun h => ?_⟩⟩
  · exact absurd h.txLength (by decide)
  · exact absurd h.high_bit (by decide)

end Grbl.Modbus.Framing
