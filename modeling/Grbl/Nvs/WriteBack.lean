import Mathlib
import Grbl.Lib.Run
import Grbl.Nvs.Buffer

/-!
# The write-back loses no change

* `Record` : the records, their regions, and that these are disjoint;
* `Buffer.Differs`, `Buffer.flag` : a record is not up to date, a record is marked dirty;
* `Buffer.Tracked` : what is not up to date is marked dirty;
* `Request`, `Op`, `step` : the calls; `SyncSafe` : the failures that lose nothing;
* `tracked_of_safe` : every run whose syncs are safe; `startup_line_is_lost`, `version_is_forgotten` : two that are not.
-/

namespace Grbl.Nvs
open Lib

inductive Record (L : Layout)
  | version
  | global
  | coord (i : Fin nCoordinateSystems)
  | startup (i : Fin nStartupLine)
  | build
  | tool (i : Fin L.nTools)
  | driver
  deriving DecidableEq

variable {L : Layout}

namespace Record

def addr : Record L → ℕ
  | version => 0
  | global => L.nvsAddrGlobal
  | coord i => L.parameterAddr i
  | startup i => L.startlineAddr i
  | build => L.nvsAddrBuildInfo
  | tool i => L.toolAddr i
  | driver => L.driverAddress

/-- The length of a record with its checksum. -/
def len : Record L → ℕ
  | version => 1
  | global => L.sizeofSettings + nvsCrcBytes
  | coord _ => L.sizeofCoordSystemData + nvsCrcBytes
  | startup _ => L.sizeofStoredLine + nvsCrcBytes
  | build => L.sizeofStoredLine + nvsCrcBytes
  | tool _ => L.sizeofToolData + nvsCrcBytes
  | driver => L.driverSize

/-- The addresses of a record's bytes. -/
def Covers (r : Record L) (a : ℕ) : Prop := r.addr ≤ a ∧ a < r.addr + r.len

/-! ## Regions do not overlap -/

theorem slot_le {i n k : ℕ} (h : i < n) : i * k + k ≤ n * k := by
  rw [← Nat.succ_mul]
  exact Nat.mul_le_mul_right k h

theorem slot_eq {i j k x : ℕ} (hi : i * k ≤ x ∧ x < i * k + k) (hj : j * k ≤ x ∧ x < j * k + k) : i = j := by
  rcases Nat.lt_trichotomy i j with h | h | h
  · have := slot_le (k := k) h
    omega
  · exact h
  · have := slot_le (k := k) h
    omega

theorem area {r : Record L} {a : ℕ} (h : r.Covers a) :
    match r with
    | version => a = 0
    | global => 1 ≤ a ∧ a < L.nvsAddrParameters
    | coord _ => L.nvsAddrParameters ≤ a ∧ a < L.nvsAddrStartupBlock
    | startup _ => L.nvsAddrStartupBlock ≤ a ∧ a < L.nvsAddrBuildInfo
    | build => L.nvsAddrBuildInfo ≤ a ∧ a < L.grblNvsEnd
    | tool _ => L.grblNvsEnd < a ∧ a < L.grblNvsEnd + 1 + L.nTools * (L.sizeofToolData + nvsCrcBytes)
    | driver => L.grblNvsEnd + 1 + L.nTools * (L.sizeofToolData + nvsCrcBytes) ≤ a := by
  have hs := L.settings_fit
  have hl := L.lines_fit
  have hd := L.driver_area
  simp only [nStartupLine] at hl
  cases r with
  | coord i =>
      have hi := slot_le (k := L.sizeofCoordSystemData + nvsCrcBytes) i.isLt
      simp only [Covers, addr, len, Layout.parameterAddr] at h
      simp only [Layout.nvsAddrStartupBlock, Layout.nvsAddrBuildInfo, nStartupLine]
      omega
  | startup i =>
      have hi := slot_le (k := L.sizeofStoredLine + nvsCrcBytes) i.isLt
      simp only [Covers, addr, len, Layout.startlineAddr, Layout.nvsAddrStartupBlock, Layout.nvsAddrBuildInfo,
        nStartupLine] at h hi ⊢
      omega
  | tool i =>
      have hi := slot_le (k := L.sizeofToolData + nvsCrcBytes) i.isLt
      simp only [Covers, addr, len, Layout.toolAddr, Layout.nvsAddrToolTable] at h
      dsimp only
      omega
  | _ =>
      simp only [Covers, addr, len, Layout.nvsAddrGlobal, Layout.nvsAddrBuildInfo] at h ⊢
      omega

theorem covers_unique {r r' : Record L} {a : ℕ} (h : r.Covers a) (h' : r'.Covers a) : r = r' := by
  have ha := area h
  have ha' := area h'
  have hl := L.lines_fit
  have hs := L.settings_fit
  simp only [nStartupLine] at hl
  have hb : L.nvsAddrParameters ≤ L.nvsAddrStartupBlock ∧ L.nvsAddrStartupBlock < L.nvsAddrBuildInfo ∧
      L.nvsAddrBuildInfo < L.grblNvsEnd := by
    simp only [Layout.nvsAddrStartupBlock, Layout.nvsAddrBuildInfo, nStartupLine, nvsCrcBytes] at *
    omega
  cases r <;> cases r' <;> first | rfl | (exfalso; dsimp only at ha ha'; omega) | skip
  case coord.coord i j =>
    simp only [Covers, addr, len, Layout.parameterAddr] at h h'
    refine congrArg coord (Fin.ext (slot_eq (i := i.1) (j := j.1) (k := L.sizeofCoordSystemData + nvsCrcBytes)
      (x := a - L.nvsAddrParameters) ?_ ?_)) <;> omega
  case startup.startup i j =>
    simp only [Covers, addr, len, Layout.startlineAddr] at h h'
    refine congrArg startup (Fin.ext (slot_eq (i := i.1) (j := j.1) (k := L.sizeofStoredLine + nvsCrcBytes)
      (x := a - L.nvsAddrStartupBlock) ?_ ?_)) <;> omega
  case tool.tool i j =>
    simp only [Covers, addr, len, Layout.toolAddr] at h h'
    refine congrArg tool (Fin.ext (slot_eq (i := i.1) (j := j.1) (k := L.sizeofToolData + nvsCrcBytes)
      (x := a - L.nvsAddrToolTable) ?_ ?_)) <;> omega

end Record

/-! ## Bits -/

theorem getLsbD_bit {w n : ℕ} (i : ℕ) (hn : n < w) : (bit w n).getLsbD i = decide (i = n) := by
  rw [bit, BitVec.getLsbD_shiftLeft, BitVec.getLsbD_one, Bool.eq_iff_iff]
  simp only [Bool.and_eq_true, Bool.not_eq_true', decide_eq_true_eq, decide_eq_false_iff_not]
  omega

theorem getLsbD_set {w n : ℕ} (x : BitVec w) (i : ℕ) (hn : n < w) :
    (x ||| bit w n).getLsbD i = (x.getLsbD i || decide (i = n)) := by
  rw [BitVec.getLsbD_or, getLsbD_bit i hn]

theorem getLsbD_clear {w n : ℕ} (x : BitVec w) (i : ℕ) (hn : n < w) :
    (x &&& ~~~bit w n).getLsbD i = (x.getLsbD i && !decide (i = n)) := by
  rw [BitVec.getLsbD_and, BitVec.getLsbD_not, getLsbD_bit i hn]
  by_cases hi : i < w
  · simp [hi]
  · rw [BitVec.getLsbD_of_ge x i (by omega), Bool.false_and, Bool.false_and]

theorem ne_zero_of_getLsbD {w i : ℕ} {x : BitVec w} (h : x.getLsbD i = true) : x ≠ 0 := by
  rintro rfl
  simp at h

theorem coord_lt (i : Fin nCoordinateSystems) : i.1 < 16 := lt_trans i.2 (by decide)

theorem startup_lt (i : Fin nStartupLine) : i.1 < 8 := lt_trans i.2 (by decide)

theorem tool_lt (i : Fin L.nTools) : i.1 < toolBits L.nTools := by
  have := L.nTools_le
  have := i.2
  unfold toolBits
  split <;> omega

/-! ## What is up to date -/

def SettingsDirty.flag (d : SettingsDirty L.nTools) : Record L → Bool
  | .version => d.version
  | .global => d.globalSettings
  | .coord i => d.coordData.getLsbD i
  | .startup i => d.startupLines.getLsbD i
  | .build => d.buildInfo
  | .tool i => d.toolData.getLsbD i
  | .driver => d.driverSettings

namespace Buffer

/-- The bytes of a record differ between the buffer and the physical storage. -/
def Differs (b : Buffer L) (r : Record L) : Prop := ∃ a, r.Covers a ∧ b.ram a ≠ b.physical a

/-- Whatever differs has its dirty flag set, and `is_dirty` is set. -/
def Tracked (b : Buffer L) : Prop :=
  ∀ r, b.Differs r → b.settingsDirty.flag r = true ∧ b.settingsDirty.isDirty = true

/-! ## Writing to the buffer -/

theorem putBytes_physical (b : Buffer L) (dest : ℕ) (source : List Byte) :
    (b.putBytes dest source).physical = b.physical := by
  induction source generalizing b dest with
  | nil => rfl
  | cons v source ih => exact ih (b.ramPutByte dest v) (dest + 1)

theorem putBytes_frame (b : Buffer L) (dest : ℕ) (source : List Byte) {a : ℕ}
    (ha : a < dest ∨ dest + source.length ≤ a) : (b.putBytes dest source).ram a = b.ram a := by
  induction source generalizing b dest with
  | nil => rfl
  | cons v source ih =>
      rw [List.length_cons] at ha
      refine (ih (b.ramPutByte dest v) (dest + 1) (by omega)).trans (if_neg ?_)
      omega

theorem putBytes_dirty (b : Buffer L) (dest : ℕ) (source : List Byte) (h : b.dirty = true) :
    (b.putBytes dest source).dirty = true := by
  induction source generalizing b dest with
  | nil => exact h
  | cons v source ih =>
      refine ih (b.ramPutByte dest v) (dest + 1) ?_
      simp [ramPutByte, h]

/-- A byte that is changed sets `dirty`. -/
theorem putBytes_changed (b : Buffer L) (dest : ℕ) (source : List Byte) {a : ℕ}
    (h : (b.putBytes dest source).ram a ≠ b.ram a) : (b.putBytes dest source).dirty = true := by
  induction source generalizing b dest with
  | nil => exact absurd rfl h
  | cons v source ih =>
      by_cases ha : (b.ramPutByte dest v).ram a = b.ram a
      · refine ih (b.ramPutByte dest v) (dest + 1) ?_
        rwa [ha]
      · refine putBytes_dirty (b.ramPutByte dest v) (dest + 1) source ?_
        have hdest : a = dest := by
          by_contra hne
          exact ha (if_neg hne)
        have hv : b.ram dest ≠ v := by
          rintro rfl
          refine ha ?_
          rw [hdest]
          exact if_pos rfl
        simp [ramPutByte, hv]

theorem putBytes_settingsDirty (b : Buffer L) (dest : ℕ) (source : List Byte) :
    (b.putBytes dest source).settingsDirty =
      if dest = 0 ∧ source ≠ [] then { b.settingsDirty with version := true } else b.settingsDirty := by
  induction source generalizing b dest with
  | nil => simp [putBytes]
  | cons v source ih =>
      rw [putBytes, ih, if_neg (by simp)]
      simp [ramPutByte]

/-! ## The table -/

theorem Record.covers_addr {r : Record L} (hd : r ≠ .driver) : r.Covers r.addr := by
  refine ⟨le_rfl, Nat.lt_add_of_pos_right ?_⟩
  cases r <;> first | exact absurd rfl hd | (simp only [Record.len, nvsCrcBytes]; omega)

/-- What an entry of the table stands for: a record, whose flag it sets, or a tool behind the last one. -/
theorem target_entry {e : EMap} (he : e ∈ target L) :
    (∃ r : Record L, r ≠ .driver ∧ e.addr = r.addr ∧ ∀ d : SettingsDirty L.nTools, (markEntry d e).flag r = true) ∨
      L.grblNvsEnd + 1 + L.nTools * (L.sizeofToolData + nvsCrcBytes) ≤ e.addr := by
  simp only [target, List.mem_append, List.mem_singleton, List.mem_map, List.mem_range] at he
  rcases he with (((rfl | ⟨n, hn, rfl⟩) | ⟨n, hn, rfl⟩) | rfl) | ⟨n, hn, rfl⟩
  · exact Or.inl ⟨.global, nofun, rfl, fun _ => rfl⟩
  · refine Or.inl ⟨.coord ⟨n, hn⟩, nofun, rfl, fun d => ?_⟩
    exact (getLsbD_set d.coordData n (coord_lt ⟨n, hn⟩)).trans (by simp)
  · refine Or.inl ⟨.startup ⟨n, hn⟩, nofun, rfl, fun d => ?_⟩
    exact (getLsbD_set d.startupLines n (startup_lt ⟨n, hn⟩)).trans (by simp)
  · exact Or.inl ⟨.build, nofun, rfl, fun _ => rfl⟩
  · by_cases htool : n < L.nTools
    · refine Or.inl ⟨.tool ⟨n, htool⟩, nofun, rfl, fun d => ?_⟩
      exact (getLsbD_set d.toolData n (tool_lt ⟨n, htool⟩)).trans (by simp)
    · refine Or.inr (Nat.add_le_add_left ?_ _)
      exact Nat.mul_le_mul_right _ (Nat.not_lt.1 htool)

theorem toolEntries_gt (i : Fin L.nTools) : i.1 < toolEntries L.nTools := by
  have := L.nTools_le
  have := i.2
  unfold toolEntries
  split_ifs <;> omega

theorem target_mem (r : Record L) (hv : r ≠ .version) (hd : r ≠ .driver) : ∃ e ∈ target L, e.addr = r.addr := by
  simp only [target, List.mem_append, List.mem_singleton, List.mem_map, List.mem_range]
  cases r with
  | version => exact absurd rfl hv
  | driver => exact absurd rfl hd
  | global => exact ⟨_, Or.inl (Or.inl (Or.inl (Or.inl rfl))), rfl⟩
  | coord i => exact ⟨_, Or.inl (Or.inl (Or.inl (Or.inr ⟨i, i.2, rfl⟩))), rfl⟩
  | startup i => exact ⟨_, Or.inl (Or.inl (Or.inr ⟨i, i.2, rfl⟩)), rfl⟩
  | build => exact ⟨_, Or.inl (Or.inr rfl), rfl⟩
  | tool i => exact ⟨_, Or.inr ⟨i, toolEntries_gt i, rfl⟩, rfl⟩

theorem Record.addr_lt {r : Record L} (hd : r ≠ .driver) :
    r.addr < L.grblNvsEnd + 1 + L.nTools * (L.sizeofToolData + nvsCrcBytes) := by
  have ha := Record.area (Record.covers_addr hd)
  have hb : L.nvsAddrBuildInfo ≤ L.grblNvsEnd := Nat.sub_le _ _
  have hs : L.nvsAddrStartupBlock ≤ L.nvsAddrBuildInfo := (Nat.sub_le _ _).trans (Nat.sub_le _ _)
  have hp := L.lines_fit
  cases r <;> first | exact absurd rfl hd | (dsimp only at ha; omega)

theorem markEntry_flag {e : EMap} (he : e ∈ target L) {r : Record L} (hd : r ≠ .driver) (haddr : e.addr = r.addr)
    (d : SettingsDirty L.nTools) : (markEntry d e).flag r = true := by
  rcases target_entry he with ⟨r', hd', haddr', hflag⟩ | hbehind
  · have hsame : r' = r := by
      refine Record.covers_unique (Record.covers_addr hd') ?_
      rw [← haddr', haddr]
      exact Record.covers_addr hd
    exact hsame ▸ hflag d
  · have := Record.addr_lt hd
    omega

theorem markEntry_mono {e : EMap} (he : e ∈ target L) (d : SettingsDirty L.nTools) {r : Record L}
    (h : d.flag r = true) : (markEntry d e).flag r = true := by
  simp only [target, List.mem_append, List.mem_singleton, List.mem_map, List.mem_range] at he
  rcases he with (((rfl | ⟨n, hn, rfl⟩) | ⟨n, hn, rfl⟩) | rfl) | ⟨n, hn, rfl⟩ <;>
    cases r <;> simp_all [markEntry, SettingsDirty.flag]

theorem markDirty_flag (d : SettingsDirty L.nTools) {destination : ℕ} {r : Record L} (hv : r ≠ .version)
    (h : r = .driver ∧ L.driverAddress ≠ 0 ∧ L.driverAddress ≤ destination ∨ r ≠ .driver ∧ destination = r.addr) :
    (markDirty d destination).flag r = true := by
  unfold markDirty
  rcases h with ⟨rfl, harea⟩ | ⟨hd, rfl⟩
  · rw [if_pos harea]
    rfl
  · have hlt := Record.addr_lt hd
    have hdrv := L.driver_area
    rw [if_neg (by omega)]
    obtain ⟨e, he, haddr⟩ := target_mem r hv hd
    cases hfind : (target L).find? fun e => e.addr = r.addr with
    | none => exact absurd haddr (by simpa using List.find?_eq_none.1 hfind e he)
    | some e' => exact markEntry_flag (List.mem_of_find?_eq_some hfind) hd (by simpa using List.find?_some hfind) _

theorem markDirty_mono (d : SettingsDirty L.nTools) (destination : ℕ) {r : Record L} (h : d.flag r = true) :
    (markDirty d destination).flag r = true := by
  have h' : ({ d with isDirty := true } : SettingsDirty L.nTools).flag r = true := by cases r <;> exact h
  unfold markDirty
  dsimp only
  split
  · cases r <;> first | rfl | exact h
  · split
    case h_1 e he => exact markEntry_mono (List.mem_of_find?_eq_some he) _ h'
    case h_2 => exact h'

theorem markDirty_isDirty (d : SettingsDirty L.nTools) (destination : ℕ) : (markDirty d destination).isDirty = true := by
  unfold markDirty markEntry
  dsimp only
  split
  · rfl
  · split
    · split <;> rfl
    · rfl

theorem markDirty_stray (d : SettingsDirty L.nTools) (destination : ℕ)
    (h : d.coordData.getLsbD nCoordinateSystems = false) :
    (markDirty d destination).coordData.getLsbD nCoordinateSystems = false := by
  unfold markDirty
  dsimp only
  split
  · exact h
  · split
    case h_1 e he =>
      have hmem := List.mem_of_find?_eq_some he
      simp only [target, List.mem_append, List.mem_singleton, List.mem_map, List.mem_range] at hmem
      rcases hmem with (((rfl | ⟨n, hn, rfl⟩) | ⟨n, hn, rfl⟩) | rfl) | ⟨n, hn, rfl⟩
      case inl.inl.inl.inr =>
        refine (getLsbD_set d.coordData nCoordinateSystems (coord_lt ⟨n, hn⟩)).trans ?_
        rw [h, Bool.false_or, decide_eq_false_iff_not]
        omega
      all_goals exact h
    case h_2 => exact h

end Buffer

/-! ## A call of `hal.nvs.memcpy_to_nvs` -/

/-- A call for a record: a core record is written as a whole, in the driver area any part of it. -/
structure Request (L : Layout) where
  record : Record L
  destination : ℕ
  source : List Byte
  atMemAddress : Bool
  withChecksum : Bool
  fits : record = .driver ∧ L.driverAddress ≠ 0 ∧ L.driverAddress ≤ destination ∧
      destination + (source ++ checksumBytes source withChecksum).length ≤ L.driverAddress + L.driverSize ∨
    record ≠ .driver ∧ destination = record.addr ∧ (source ++ checksumBytes source withChecksum).length = record.len

namespace Request

def bytes (q : Request L) : List Byte := q.source ++ checksumBytes q.source q.withChecksum

theorem covers (q : Request L) {a : ℕ} (h : q.destination ≤ a) (h' : a < q.destination + q.bytes.length) :
    q.record.Covers a := by
  rcases q.fits with ⟨hr, -, hlo, hhi⟩ | ⟨-, hd, hl⟩
  · rw [hr]
    exact ⟨hlo.trans h, h'.trans_le hhi⟩
  · rw [hd] at h h'
    exact ⟨h, h'.trans_eq (by rw [bytes, hl])⟩

end Request

namespace Buffer

theorem memcpyToRam_request (b : Buffer L) (o : Outcomes) (q : Request L) :
    b.memcpyToRam o q.destination q.source q.atMemAddress q.withChecksum =
      let b := { b with dirty := false }.putBytes q.destination q.bytes
      let b := { b with dirty := b.dirty || b.settingsDirty.version || q.atMemAddress }
      if b.dirty then { b with settingsDirty := markDirty b.settingsDirty q.destination } else b := by
  unfold memcpyToRam
  rw [if_neg]
  · rfl
  · rintro ⟨h0, hfar⟩
    have hdrv := L.driver_area
    rcases q.fits with ⟨-, -, -, hhi⟩ | ⟨hd, hdest, -⟩
    · omega
    · have := Record.addr_lt hd
      omega

/-- What a request does: it changes bytes of its record only, and marks it when it changes one. -/
structure Written (r : Record L) (b b' : Buffer L) : Prop where
  physical : b'.physical = b.physical
  ram : ∀ a, b'.ram a ≠ b.ram a → r.Covers a ∧ b'.settingsDirty.flag r = true ∧ b'.settingsDirty.isDirty = true
  flag : ∀ r', b.settingsDirty.flag r' = true → b'.settingsDirty.flag r' = true
  isDirty : b.settingsDirty.isDirty = true → b'.settingsDirty.isDirty = true
  stray : b.settingsDirty.coordData.getLsbD nCoordinateSystems = false →
    b'.settingsDirty.coordData.getLsbD nCoordinateSystems = false

theorem memcpyToRam_written (b : Buffer L) (o : Outcomes) (q : Request L) :
    Written q.record b (b.memcpyToRam o q.destination q.source q.atMemAddress q.withChecksum) := by
  rw [memcpyToRam_request]
  dsimp only
  set c := { b with dirty := false }.putBytes q.destination q.bytes with hc
  have hphys : c.physical = b.physical := putBytes_physical _ _ _
  have hflags : c.settingsDirty = if q.destination = 0 ∧ q.bytes ≠ [] then { b.settingsDirty with version := true }
      else b.settingsDirty := putBytes_settingsDirty _ _ _
  have hmono : ∀ r', b.settingsDirty.flag r' = true → c.settingsDirty.flag r' = true := by
    intro r' hr'
    rw [hflags]
    split
    · cases r' <;> first | rfl | exact hr'
    · exact hr'
  have hisDirty : c.settingsDirty.isDirty = b.settingsDirty.isDirty := by
    rw [hflags]
    split <;> rfl
  have hcoord : c.settingsDirty.coordData = b.settingsDirty.coordData := by
    rw [hflags]
    split <;> rfl
  have hchanged : ∀ a, c.ram a ≠ b.ram a →
      c.dirty = true ∧ q.destination ≤ a ∧ a < q.destination + q.bytes.length := by
    intro a ha
    refine ⟨putBytes_changed { b with dirty := false } _ _ ha, ?_⟩
    by_contra hout
    exact ha (putBytes_frame { b with dirty := false } q.destination q.bytes (by omega))
  split
  case isFalse hclean =>
    refine ⟨hphys, ?_, hmono, fun h => hisDirty.trans h, fun h => hcoord ▸ h⟩
    intro a ha
    simp [(hchanged a ha).1] at hclean
  case isTrue hdirty =>
    refine ⟨hphys, ?_, fun r' hr' => markDirty_mono _ _ (hmono r' hr'), fun _ => markDirty_isDirty _ _,
      fun h => markDirty_stray _ _ (hcoord ▸ h)⟩
    intro a ha
    obtain ⟨-, hlo, hhi⟩ := hchanged a ha
    refine ⟨q.covers hlo hhi, ?_, markDirty_isDirty _ _⟩
    by_cases hv : q.record = .version
    · rcases q.fits with ⟨hr, -⟩ | ⟨-, hdest, -⟩
      · rw [hv] at hr
        cases hr
      · rw [hv] at hdest ⊢
        have hsome : q.bytes ≠ [] := by
          intro hnil
          rw [hnil, List.length_nil] at hhi
          omega
        refine markDirty_mono _ _ ?_
        rewrite [hflags, if_pos ⟨hdest, hsome⟩]
        rfl
    · refine markDirty_flag _ hv ?_
      rcases q.fits with ⟨hr, h0, hle, -⟩ | ⟨hd, hdest, -⟩
      · exact Or.inl ⟨hr, h0, hle⟩
      · exact Or.inr ⟨hd, hdest⟩

theorem Written.tracked {r : Record L} {b b' : Buffer L} (h : Written r b b') (hb : b.Tracked) : b'.Tracked := by
  rintro r' ⟨a, ha, hne⟩
  rw [h.physical] at hne
  by_cases hsame : b'.ram a = b.ram a
  · rw [hsame] at hne
    obtain ⟨hflag, hdirty⟩ := hb r' ⟨a, ha, hne⟩
    exact ⟨h.flag r' hflag, h.isDirty hdirty⟩
  · obtain ⟨hr, hflag, hdirty⟩ := h.ram a hsame
    rw [Record.covers_unique ha hr]
    exact ⟨hflag, hdirty⟩

/-! ## Syncing one record -/

/-- The turn of `nvs_buffer_sync_physical` that is about one record. -/
def syncRecord (o : Outcomes) : Record L → Buffer L → Buffer L
  | .version => syncVersion o
  | .global => syncGlobalSettings o
  | .coord i => syncCoordSystem o i
  | .startup i => syncStartupLine o i
  | .build => syncBuildInfo o
  | .tool i => syncTool o i
  | .driver => syncDriverSettings o

/-- The write of a record is attempted and fails. -/
def Fails (o : Outcomes) (b : Buffer L) (r : Record L) : Prop :=
  b.settingsDirty.flag r = true ∧ (o r.addr).isOk = false ∧ 0 < r.len

/-- What the turn of a record does to it, and that it leaves the others alone. -/
structure Synced (o : Outcomes) (r : Record L) (b b' : Buffer L) : Prop where
  ram : b'.ram = b.ram
  isDirty : b'.settingsDirty.isDirty = b.settingsDirty.isDirty
  stray : b'.settingsDirty.coordData.getLsbD nCoordinateSystems = b.settingsDirty.coordData.getLsbD nCoordinateSystems
  physical : ∀ a, ¬ r.Covers a → b'.physical a = b.physical a
  others : ∀ r', r' ≠ r → b'.settingsDirty.flag r' = b.settingsDirty.flag r'
  /-- the flag of a startup line is cleared in any case -/
  kept : Fails o b r → (∀ i, r ≠ .startup i) → b'.settingsDirty.flag r = true
  /-- what still differs was not marked, or its write failed -/
  differs : b'.Differs r → b.settingsDirty.flag r = false ∧ b.Differs r ∨ Fails o b r

theorem Synced.refl {o : Outcomes} {r : Record L} {b : Buffer L} (h : b.settingsDirty.flag r = false) :
    Synced o r b b where
  ram := rfl
  isDirty := rfl
  stray := rfl
  physical _ _ := rfl
  others _ _ := rfl
  kept hf := by rw [hf.1] at h; cases h
  differs hd := Or.inl ⟨h, hd⟩

theorem writeBack_physical (b : Buffer L) (o : Outcomes) (destination size : ℕ) {a : ℕ}
    (ha : ¬ (destination ≤ a ∧ a < destination + size)) : (b.writeBack o destination size).1.physical a = b.physical a :=
  if_neg ha

theorem writeBack_ok (b : Buffer L) (o : Outcomes) (destination size : ℕ) {a : ℕ} (hok : (o destination).isOk = true)
    (ha : destination ≤ a ∧ a < destination + size) : (b.writeBack o destination size).1.physical a = b.ram a := by
  unfold writeBack physicalMemcpy
  dsimp only
  rw [if_pos ha]
  cases ho : o destination with
  | ok => rfl
  | failed bytes =>
      rw [ho] at hok
      cases hok

/-- A turn that writes the marked record back, and then has the flags `d`. -/
theorem Synced.of_writeBack {o : Outcomes} {r : Record L} {b b' : Buffer L} (hflag : b.settingsDirty.flag r = true)
    (hram : b'.ram = b.ram) (hphys : b'.physical = (b.writeBack o r.addr r.len).1.physical)
    (hdirty : b'.settingsDirty.isDirty = b.settingsDirty.isDirty)
    (hstray : b'.settingsDirty.coordData.getLsbD nCoordinateSystems = b.settingsDirty.coordData.getLsbD nCoordinateSystems)
    (hothers : ∀ r', r' ≠ r → b'.settingsDirty.flag r' = b.settingsDirty.flag r')
    (hkept : (o r.addr).isOk = false → (∀ i, r ≠ .startup i) → b'.settingsDirty.flag r = true) : Synced o r b b' where
  ram := hram
  isDirty := hdirty
  stray := hstray
  physical a ha := by rw [hphys, writeBack_physical b o _ _ ha]
  others := hothers
  kept hf := hkept hf.2.1
  differs := by
    rintro ⟨a, ha, hne⟩
    refine Or.inr ⟨hflag, ?_, ?_⟩
    · by_contra hok
      rw [Bool.not_eq_false] at hok
      rw [hphys, hram, writeBack_ok b o _ _ hok ha] at hne
      exact hne rfl
    · have := ha.1
      have := ha.2
      omega

theorem syncVersion_synced (o : Outcomes) (b : Buffer L) : Synced o .version b (syncVersion o b) := by
  unfold syncVersion
  split
  case isTrue hflag =>
    refine Synced.of_writeBack (r := .version) hflag rfl rfl rfl rfl ?_ fun ho _ => congrArg not ho
    intro r' hr'
    cases r' <;> first | rfl | exact absurd rfl hr'
  case isFalse hflag => exact Synced.refl (Bool.eq_false_iff.2 hflag)

theorem syncGlobalSettings_synced (o : Outcomes) (b : Buffer L) : Synced o .global b (syncGlobalSettings o b) := by
  unfold syncGlobalSettings
  split
  case isTrue hflag =>
    refine Synced.of_writeBack (r := .global) hflag rfl rfl rfl rfl ?_ fun ho _ => congrArg not ho
    intro r' hr'
    cases r' <;> first | rfl | exact absurd rfl hr'
  case isFalse hflag => exact Synced.refl (Bool.eq_false_iff.2 hflag)

theorem syncBuildInfo_synced (o : Outcomes) (b : Buffer L) : Synced o .build b (syncBuildInfo o b) := by
  unfold syncBuildInfo
  split
  case isTrue hflag =>
    refine Synced.of_writeBack (r := .build) hflag rfl rfl rfl rfl ?_ fun ho _ => congrArg not ho
    intro r' hr'
    cases r' <;> first | rfl | exact absurd rfl hr'
  case isFalse hflag => exact Synced.refl (Bool.eq_false_iff.2 hflag)

theorem syncDriverSettings_synced (o : Outcomes) (b : Buffer L) : Synced o .driver b (syncDriverSettings o b) := by
  have hothers : ∀ v, ∀ r', r' ≠ Record.driver →
      ({ b.settingsDirty with driverSettings := v } : SettingsDirty L.nTools).flag r' = b.settingsDirty.flag r' := by
    intro v r' hr'
    cases r' <;> first | rfl | exact absurd rfl hr'
  unfold syncDriverSettings
  split
  case isFalse hflag => exact Synced.refl (Bool.eq_false_iff.2 hflag)
  case isTrue hflag =>
    split
    case isTrue hsize =>
      exact Synced.of_writeBack (r := .driver) hflag rfl rfl rfl rfl (hothers _) fun ho _ => congrArg not ho
    case isFalse hsize =>
      refine ⟨rfl, rfl, rfl, fun _ _ => rfl, hothers _, fun hf => absurd hf.2.2 hsize, ?_⟩
      rintro ⟨a, ⟨hlo, hhi⟩, -⟩
      simp only [Record.addr, Record.len] at hlo hhi
      omega

theorem flag_clear_coord (d : SettingsDirty L.nTools) (i : Fin nCoordinateSystems) {r : Record L} (hr : r ≠ .coord i) :
    ({ d with coordData := d.coordData &&& ~~~bit _ i } : SettingsDirty L.nTools).flag r = d.flag r := by
  cases r <;> try rfl
  case coord j =>
    refine (getLsbD_clear d.coordData j (coord_lt i)).trans ?_
    have hne : j.1 ≠ i.1 := fun h => hr (congrArg Record.coord (Fin.ext h))
    simp [hne, SettingsDirty.flag]

theorem flag_clear_startup (d : SettingsDirty L.nTools) (i : Fin nStartupLine) {r : Record L} (hr : r ≠ .startup i) :
    ({ d with startupLines := d.startupLines &&& ~~~bit _ i } : SettingsDirty L.nTools).flag r = d.flag r := by
  cases r <;> try rfl
  case startup j =>
    refine (getLsbD_clear d.startupLines j (startup_lt i)).trans ?_
    have hne : j.1 ≠ i.1 := fun h => hr (congrArg Record.startup (Fin.ext h))
    simp [hne, SettingsDirty.flag]

theorem flag_clear_tool (d : SettingsDirty L.nTools) (i : Fin L.nTools) {r : Record L} (hr : r ≠ .tool i) :
    ({ d with toolData := d.toolData &&& ~~~bit _ i } : SettingsDirty L.nTools).flag r = d.flag r := by
  cases r <;> try rfl
  case tool j =>
    refine (getLsbD_clear d.toolData j (tool_lt i)).trans ?_
    have hne : j.1 ≠ i.1 := fun h => hr (congrArg Record.tool (Fin.ext h))
    simp [hne, SettingsDirty.flag]

theorem syncCoordSystem_synced (o : Outcomes) (i : Fin nCoordinateSystems) (b : Buffer L) :
    Synced o (.coord i) b (syncCoordSystem o i b) := by
  unfold syncCoordSystem
  split
  case isFalse hflag => exact Synced.refl (Bool.eq_false_iff.2 hflag)
  case isTrue hflag =>
    dsimp only
    split
    case isTrue hok =>
      refine Synced.of_writeBack (r := .coord i) hflag rfl rfl rfl ?_ (fun r' hr' => flag_clear_coord _ i hr')
        fun ho _ => absurd (hok.symm.trans ho) (by decide)
      refine (getLsbD_clear b.settingsDirty.coordData nCoordinateSystems (coord_lt i)).trans ?_
      have hne : nCoordinateSystems ≠ i.1 := i.2.ne'
      simp [hne]
    case isFalse hok =>
      exact Synced.of_writeBack (r := .coord i) hflag rfl rfl rfl rfl (fun _ _ => rfl) fun _ _ => hflag

theorem syncStartupLine_synced (o : Outcomes) (i : Fin nStartupLine) (b : Buffer L) :
    Synced o (.startup i) b (syncStartupLine o i b) := by
  unfold syncStartupLine
  split
  case isFalse hflag => exact Synced.refl (Bool.eq_false_iff.2 hflag)
  case isTrue hflag =>
    dsimp only
    split
    case isTrue hok =>
      refine Synced.of_writeBack (r := .startup i) hflag rfl rfl rfl rfl ?_ fun _ hs => absurd rfl (hs i)
      intro r' hr'
      exact (flag_clear_startup _ i hr').trans (flag_clear_startup b.settingsDirty i hr')
    case isFalse hok =>
      exact Synced.of_writeBack (r := .startup i) hflag rfl rfl rfl rfl
        (fun r' hr' => flag_clear_startup b.settingsDirty i hr') fun _ hs => absurd rfl (hs i)

theorem syncTool_synced (o : Outcomes) (i : Fin L.nTools) (b : Buffer L) : Synced o (.tool i) b (syncTool o i b) := by
  unfold syncTool
  split
  case isFalse hflag => exact Synced.refl (Bool.eq_false_iff.2 hflag)
  case isTrue hflag =>
    dsimp only
    split
    case isTrue hok =>
      exact Synced.of_writeBack (r := .tool i) hflag rfl rfl rfl rfl (fun r' hr' => flag_clear_tool b.settingsDirty i hr')
        fun ho _ => absurd (hok.symm.trans ho) (by decide)
    case isFalse hok =>
      exact Synced.of_writeBack (r := .tool i) hflag rfl rfl rfl rfl (fun _ _ => rfl) fun _ _ => hflag

theorem syncRecord_synced (o : Outcomes) (r : Record L) (b : Buffer L) : Synced o r b (syncRecord o r b) := by
  cases r with
  | version => exact syncVersion_synced o b
  | global => exact syncGlobalSettings_synced o b
  | coord i => exact syncCoordSystem_synced o i b
  | startup i => exact syncStartupLine_synced o i b
  | build => exact syncBuildInfo_synced o b
  | tool i => exact syncTool_synced o i b
  | driver => exact syncDriverSettings_synced o b

/-! ## Syncing several records -/

/-- `Synced` for a set of records. -/
structure SyncedAll (o : Outcomes) (S : Record L → Prop) (b b' : Buffer L) : Prop where
  ram : b'.ram = b.ram
  isDirty : b'.settingsDirty.isDirty = b.settingsDirty.isDirty
  stray : b'.settingsDirty.coordData.getLsbD nCoordinateSystems = b.settingsDirty.coordData.getLsbD nCoordinateSystems
  physical : ∀ a, (∀ r, S r → ¬ r.Covers a) → b'.physical a = b.physical a
  others : ∀ r, ¬ S r → b'.settingsDirty.flag r = b.settingsDirty.flag r
  kept : ∀ r, S r → Fails o b r → (∀ i, r ≠ .startup i) → b'.settingsDirty.flag r = true
  differs : ∀ r, S r → b'.Differs r → b.settingsDirty.flag r = false ∧ b.Differs r ∨ Fails o b r

variable {o : Outcomes} {b b' b'' : Buffer L}

theorem Synced.all {r : Record L} (h : Synced o r b b') : SyncedAll o (· = r) b b' where
  ram := h.ram
  isDirty := h.isDirty
  stray := h.stray
  physical a ha := h.physical a (ha r rfl)
  others r' hr' := h.others r' hr'
  kept := by
    rintro _ rfl
    exact h.kept
  differs := by
    rintro _ rfl
    exact h.differs

namespace SyncedAll

theorem refl {S : Record L → Prop} (h : ∀ r, S r → b.settingsDirty.flag r = false) : SyncedAll o S b b where
  ram := rfl
  isDirty := rfl
  stray := rfl
  physical _ _ := rfl
  others _ _ := rfl
  kept r hr hf _ := absurd (h r hr) (by rw [hf.1]; decide)
  differs r hr hd := Or.inl ⟨h r hr, hd⟩

theorem differs_of_others {S : Record L → Prop} (h : SyncedAll o S b b') {r : Record L} (hr : ¬ S r) :
    b'.Differs r ↔ b.Differs r := by
  have hphys : ∀ a, r.Covers a → b'.physical a = b.physical a := by
    intro a ha
    refine h.physical a fun r' hr' ha' => hr ?_
    rwa [Record.covers_unique ha ha']
  constructor
  · rintro ⟨a, ha, hne⟩
    exact ⟨a, ha, by rwa [← h.ram, ← hphys a ha]⟩
  · rintro ⟨a, ha, hne⟩
    exact ⟨a, ha, by rwa [h.ram, hphys a ha]⟩

theorem trans {S T : Record L → Prop} (h : SyncedAll o S b b') (h' : SyncedAll o T b' b'') (hST : ∀ r, S r → ¬ T r) :
    SyncedAll o (fun r => S r ∨ T r) b b'' where
  ram := h'.ram.trans h.ram
  isDirty := h'.isDirty.trans h.isDirty
  stray := h'.stray.trans h.stray
  physical a ha := (h'.physical a fun r hr => ha r (Or.inr hr)).trans (h.physical a fun r hr => ha r (Or.inl hr))
  others r hr := (h'.others r fun ht => hr (Or.inr ht)).trans (h.others r fun hs => hr (Or.inl hs))
  kept r hr hf hs := by
    by_cases hS : S r
    · rw [h'.others r (hST r hS)]
      exact h.kept r hS hf hs
    · exact h'.kept r (hr.resolve_left hS) ⟨(h.others r hS).trans hf.1, hf.2⟩ hs
  differs r hr hd := by
    by_cases hS : S r
    · exact h.differs r hS ((h'.differs_of_others (hST r hS)).1 hd)
    · rcases h'.differs r (hr.resolve_left hS) hd with ⟨hflag, hd'⟩ | hf
      · exact Or.inl ⟨(h.others r hS).symm.trans hflag, (h.differs_of_others hS).1 hd'⟩
      · exact Or.inr ⟨(h.others r hS).symm.trans hf.1, hf.2⟩

theorem congr {S T : Record L → Prop} (h : SyncedAll o S b b') (hST : ∀ r, S r ↔ T r) : SyncedAll o T b b' :=
  (funext fun r => propext (hST r) : S = T) ▸ h

end SyncedAll

theorem downFrom_synced {turn : ℕ → Buffer L → Buffer L} {n : ℕ} (record : Fin n → Record L)
    (hinj : Function.Injective record) (hturn : ∀ (i : Fin n) b, Synced o (record i) b (turn i b)) :
    ∀ k ≤ n, ∀ b, SyncedAll o (fun r => ∃ i : Fin n, i.1 < k ∧ r = record i) b (downFrom turn k b) := by
  intro k
  induction k with
  | zero =>
      intro _ b
      exact SyncedAll.refl fun r ⟨i, hi, _⟩ => absurd hi (Nat.not_lt_zero _)
  | succ k ih =>
      intro hk b
      refine ((hturn ⟨k, hk⟩ b).all.trans (ih (Nat.le_of_succ_le hk) (turn k b)) ?_).congr fun r => ?_
      · rintro _ rfl ⟨i, hi, hr⟩
        rw [← hinj hr] at hi
        exact absurd hi (Nat.lt_irrefl k)
      · constructor
        · rintro (rfl | ⟨i, hi, rfl⟩)
          · exact ⟨⟨k, hk⟩, Nat.lt_succ_self k, rfl⟩
          · exact ⟨i, Nat.lt_succ_of_lt hi, rfl⟩
        · rintro ⟨i, hi, rfl⟩
          rcases Nat.lt_succ_iff_lt_or_eq.1 hi with hi | hi
          · exact Or.inr ⟨i, hi, rfl⟩
          · exact Or.inl (congrArg record (Fin.ext hi))

theorem downFrom_synced_all {turn : ℕ → Buffer L → Buffer L} {n : ℕ} (record : Fin n → Record L)
    (hinj : Function.Injective record) (hturn : ∀ (i : Fin n) b, Synced o (record i) b (turn i b)) (b : Buffer L) :
    SyncedAll o (fun r => ∃ i : Fin n, r = record i) b (downFrom turn n b) :=
  (downFrom_synced record hinj hturn n le_rfl b).congr fun _ =>
    ⟨fun ⟨i, _, hr⟩ => ⟨i, hr⟩, fun ⟨i, hr⟩ => ⟨i, i.2, hr⟩⟩

theorem syncStartupLines_synced (b : Buffer L) :
    SyncedAll o (fun r => ∃ i, r = .startup i) b (syncStartupLines o b) := by
  unfold syncStartupLines
  split
  case isTrue =>
    exact downFrom_synced_all Record.startup (fun i j h => Record.startup.inj h) (fun i b => syncRecord_synced o (.startup i) b) b
  case isFalse hzero =>
    refine SyncedAll.refl ?_
    rintro _ ⟨i, rfl⟩
    exact Bool.eq_false_iff.2 fun h => hzero (ne_zero_of_getLsbD h)

theorem syncCoordSystems_synced (b : Buffer L) (hstray : b.settingsDirty.coordData.getLsbD nCoordinateSystems = false) :
    SyncedAll o (fun r => ∃ i, r = .coord i) b (syncCoordSystems o b) := by
  have hfirst : syncCoordSystem o nCoordinateSystems b = b := if_neg (by rw [hstray]; decide)
  unfold syncCoordSystems
  split
  case isTrue =>
    rw [downFrom, hfirst]
    exact downFrom_synced_all Record.coord (fun i j h => Record.coord.inj h) (fun i b => syncRecord_synced o (.coord i) b) b
  case isFalse hzero =>
    refine SyncedAll.refl ?_
    rintro _ ⟨i, rfl⟩
    exact Bool.eq_false_iff.2 fun h => hzero (ne_zero_of_getLsbD h)

theorem syncTools_synced (b : Buffer L) : SyncedAll o (fun r => ∃ i, r = .tool i) b (syncTools o b) := by
  unfold syncTools
  split
  case isTrue =>
    exact downFrom_synced_all Record.tool (fun i j h => Record.tool.inj h) (fun i b => syncRecord_synced o (.tool i) b) b
  case isFalse hzero =>
    refine SyncedAll.refl ?_
    rintro _ ⟨i, rfl⟩
    exact Bool.eq_false_iff.2 fun h => hzero (ne_zero_of_getLsbD h)

/-- The flags, from which `is_dirty` is computed. -/
theorem anyDirty_of_flag {d : SettingsDirty L.nTools} {r : Record L} (hr : r ≠ .version) (h : d.flag r = true) :
    anyDirty d = true := by
  cases r with
  | version => exact absurd rfl hr
  | coord i =>
      have hne : d.coordData ≠ 0 := ne_zero_of_getLsbD h
      simp only [anyDirty, decide_eq_true hne, Bool.true_or]
  | startup i =>
      have hne : d.startupLines ≠ 0 := ne_zero_of_getLsbD h
      simp only [anyDirty, decide_eq_true hne, Bool.true_or, Bool.or_true]
  | tool i =>
      have hne : d.toolData ≠ 0 := ne_zero_of_getLsbD h
      simp only [anyDirty, decide_eq_true hne, Bool.true_or, Bool.or_true]
  | global => simp [anyDirty, show d.globalSettings = true from h]
  | build => simp [anyDirty, show d.buildInfo = true from h]
  | driver => simp [anyDirty, show d.driverSettings = true from h]

theorem syncPhysical_synced (hdirty : b.settingsDirty.isDirty = true)
    (hstray : b.settingsDirty.coordData.getLsbD nCoordinateSystems = false) :
    ∃ c, SyncedAll o (fun _ => True) b c ∧
      b.syncPhysical o = { c with settingsDirty := { c.settingsDirty with isDirty := anyDirty c.settingsDirty } } := by
  have h₁ := (syncVersion_synced o b).all
  have h₂ := h₁.trans (syncGlobalSettings_synced o _).all (by rintro _ rfl h; cases h)
  have h₃ := h₂.trans (syncBuildInfo_synced o _).all (by rintro _ (rfl | rfl) h <;> cases h)
  have h₄ := h₃.trans (syncStartupLines_synced _) (by rintro _ ((rfl | rfl) | rfl) ⟨i, h⟩ <;> cases h)
  have h₅ := h₄.trans (syncCoordSystems_synced _ (h₄.stray.trans hstray))
    (by rintro _ (((rfl | rfl) | rfl) | ⟨j, rfl⟩) ⟨i, h⟩ <;> cases h)
  have h₆ := h₅.trans (syncDriverSettings_synced o _).all
    (by rintro _ ((((rfl | rfl) | rfl) | ⟨j, rfl⟩) | ⟨j, rfl⟩) h <;> cases h)
  have h₇ := h₆.trans (syncTools_synced _)
    (by rintro _ (((((rfl | rfl) | rfl) | ⟨j, rfl⟩) | ⟨j, rfl⟩) | rfl) ⟨i, h⟩ <;> cases h)
  refine ⟨_, h₇.congr fun r => ⟨fun _ => trivial, fun _ => ?_⟩, ?_⟩
  · cases r <;> simp
  · rw [syncPhysical, if_pos hdirty]

/-! ## The syncs that lose nothing -/

/-- What holds between calls. -/
structure Ok (b : Buffer L) : Prop where
  tracked : b.Tracked
  stray : b.settingsDirty.coordData.getLsbD nCoordinateSystems = false

/-- No write of a startup line fails, and when the write of the version byte fails, then so does that
of another record. -/
def SyncSafe (b : Buffer L) (o : Outcomes) : Prop :=
  b.settingsDirty.isDirty = true →
    (∀ i, ¬ Fails o b (.startup i)) ∧ (Fails o b .version → ∃ r, r ≠ .version ∧ Fails o b r)

theorem syncPhysical_clean (h : b.settingsDirty.isDirty = false) : b.syncPhysical o = b :=
  if_neg (by rw [h]; decide)

theorem Ok.sync (h : b.Ok) (hsafe : b.SyncSafe o) : (b.syncPhysical o).Ok := by
  cases hdirty : b.settingsDirty.isDirty with
  | false => rwa [syncPhysical_clean hdirty]
  | true =>
      obtain ⟨hlines, hversion⟩ := hsafe hdirty
      obtain ⟨c, hc, hsync⟩ := syncPhysical_synced (o := o) hdirty h.stray
      have hkept : ∀ r, Fails o b r → c.settingsDirty.flag r = true := fun r hf =>
        hc.kept r trivial hf fun i hi => hlines i (hi ▸ hf)
      have hfails : ∀ r, c.Differs r → Fails o b r := by
        intro r hd
        rcases hc.differs r trivial hd with ⟨hflag, hd'⟩ | hf
        · exact absurd (h.tracked r hd').1 (by rw [hflag]; decide)
        · exact hf
      rw [hsync]
      refine ⟨fun r hd => ?_, hc.stray.trans h.stray⟩
      have hf := hfails r hd
      refine ⟨?_, ?_⟩
      · exact (show SettingsDirty.flag _ r = _ by cases r <;> exact hkept _ hf)
      · by_cases hv : r = .version
        · obtain ⟨r', hne, hf'⟩ := hversion (hv ▸ hf)
          exact anyDirty_of_flag hne (hkept r' hf')
        · exact anyDirty_of_flag hv (hkept r hf)

theorem Ok.sync_all (h : b.Ok) (hok : ∀ destination, (o destination).isOk = true) (r : Record L) :
    ¬ (b.syncPhysical o).Differs r := by
  intro hd
  cases hdirty : b.settingsDirty.isDirty with
  | false =>
      rw [syncPhysical_clean hdirty] at hd
      exact absurd (h.tracked r hd).2 (by rw [hdirty]; decide)
  | true =>
      obtain ⟨c, hc, hsync⟩ := syncPhysical_synced (o := o) hdirty h.stray
      rw [hsync] at hd
      rcases hc.differs r trivial hd with ⟨hflag, hd'⟩ | hf
      · exact absurd (h.tracked r hd').1 (by rw [hflag]; decide)
      · exact absurd (hok r.addr) (by rw [hf.2.1]; decide)

/-- After `nvs_buffer_init`: the buffer is a copy, and nothing is marked. -/
structure Fresh (b : Buffer L) : Prop where
  same : ∀ r, ¬ b.Differs r
  clean : b.settingsDirty = {}

theorem Fresh.ok (h : b.Fresh) : b.Ok where
  tracked r hd := absurd hd (h.same r)
  stray := by rw [h.clean]; exact BitVec.getLsbD_zero

end Buffer

/-! ## Runs -/

/-- A call of `hal.nvs.memcpy_to_nvs` or of `nvs_buffer_sync_physical`. -/
inductive Op (L : Layout)
  | memcpyToNvs (q : Request L) (o : Outcomes)
  | syncPhysical (o : Outcomes)

def step (b : Buffer L) : Op L → Option (Buffer L)
  | .memcpyToNvs q o => some (b.memcpyToRam o q.destination q.source q.atMemAddress q.withChecksum)
  | .syncPhysical o => some (b.syncPhysical o)

def Op.Safe (b : Buffer L) : Op L → Prop
  | .memcpyToNvs _ _ => True
  | .syncPhysical o => b.SyncSafe o

theorem step_ok (b : Buffer L) (op : Op L) (b' : Buffer L) (h : b.Ok) (hsafe : op.Safe b) (hstep : step b op = some b') :
    b'.Ok := by
  cases op with
  | memcpyToNvs q o =>
      cases hstep
      have hw := b.memcpyToRam_written o q
      exact ⟨hw.tracked h.tracked, hw.stray h.stray⟩
  | syncPhysical o =>
      cases hstep
      exact h.sync hsafe

/-- In every run whose syncs are safe, whatever differs from the physical storage is marked, and a
sync whose writes all succeed brings every record up to date. -/
theorem tracked_of_safe {b b' : Buffer L} {ops : List (Op L)} (hb : b.Fresh)
    (hsafe : Along step (fun b op => op.Safe b) b ops) (hrun : run step b ops = some b') :
    b'.Tracked ∧ ∀ o : Outcomes, (∀ destination, (o destination).isOk = true) →
      ∀ r, ¬ (b'.syncPhysical o).Differs r := by
  have hok : b'.Ok := run_invariant_along step_ok ops b b' hb.ok hsafe hrun
  exact ⟨hok.tracked, fun _ ho r => hok.sync_all ho r⟩

/-! ## Failures that lose a change -/

namespace Example

/-- No tools and no driver area. -/
def layout : Layout where
  sizeofSettings := 400
  sizeofCoordSystemData := 12
  sizeofStoredLine := 72
  sizeofToolData := 0
  nTools := 0
  nvsAddrParameters := 512
  grblNvsEnd := 1023
  driverAddress := 0
  driverSize := 0
  nTools_le := by decide
  settings_fit := by decide
  lines_fit := by decide
  driver_area := Or.inl ⟨rfl, rfl⟩

def fresh : Buffer layout where
  ram _ := 0
  physical _ := 0

theorem fresh_fresh : fresh.Fresh := ⟨fun _ ⟨_, _, h⟩ => h rfl, rfl⟩

def line : Request layout where
  record := .startup ⟨0, by decide⟩
  destination := layout.startlineAddr 0
  source := List.replicate 72 0x47
  atMemAddress := false
  withChecksum := true
  fits := Or.inr ⟨nofun, rfl, rfl⟩

/-- The version byte is written. -/
def version : Request layout where
  record := .version
  destination := 0
  source := [25]
  atMemAddress := false
  withChecksum := false
  fits := Or.inr ⟨nofun, rfl, rfl⟩

def allOk : Outcomes := fun _ => .ok

/-- The write to one destination fails and changes nothing. -/
def fails (destination : ℕ) : Outcomes := fun a => if a = destination then .failed (fun _ => 0) else .ok

end Example

open Example in
theorem tracked_of_safe_line : ∃ b', run step fresh [.memcpyToNvs line allOk, .syncPhysical allOk] = some b' ∧
    b'.Tracked ∧ ∀ o : Outcomes, (∀ destination, (o destination).isOk = true) →
      ∀ r, ¬ (b'.syncPhysical o).Differs r := by
  have hsync : ∀ b : Buffer layout, b.SyncSafe allOk := fun _ _ =>
    ⟨fun _ hf => Bool.noConfusion (show true = false from hf.2.1), fun hf => Bool.noConfusion (show true = false from hf.2.1)⟩
  have hsafe : Along step (fun b op => op.Safe b) fresh [.memcpyToNvs line allOk, .syncPhysical allOk] :=
    ⟨trivial, fun b _ => ⟨hsync b, fun _ _ => trivial⟩⟩
  exact ⟨_, rfl, tracked_of_safe fresh_fresh hsafe rfl⟩

open Example in
/-- The write of a startup line fails: nothing is marked any more, and a later sync does not write it. -/
theorem startup_line_is_lost : ∃ b', run step fresh [.memcpyToNvs line allOk, .syncPhysical (fails line.destination)] = some b' ∧
    b'.settingsDirty = {} ∧ ¬ b'.Tracked ∧ (b'.syncPhysical allOk).Differs line.record := by
  refine ⟨_, rfl, by decide +kernel, ?_, layout.startlineAddr 0, ?_, by decide +kernel⟩
  · intro h
    have hd := h line.record ⟨layout.startlineAddr 0, ⟨by decide, by decide⟩, by decide +kernel⟩
    exact absurd hd.2 (by decide +kernel)
  · exact ⟨by decide, by decide⟩

open Example in
/-- The write of the version byte fails: it stays marked, but `is_dirty` is clear, and a later sync does not write it. -/
theorem version_is_forgotten : ∃ b', run step fresh [.memcpyToNvs version allOk, .syncPhysical (fails 0)] = some b' ∧
    b'.settingsDirty = { version := true } ∧ (b'.syncPhysical allOk).Differs version.record := by
  exact ⟨_, rfl, by decide +kernel, 0, ⟨by decide, by decide⟩, by decide +kernel⟩

end Grbl.Nvs
