import Mathlib
import Grbl.Nvs.Buffer

/-!
# The driver area

Addresses in memory have 32 bits; the results of `nvs_alloc` are relative to the buffer.

* `Heap` : what `malloc` returns; `Nvs` : the pointers; `nvsBufferAlloc`, `nvsAlloc`, `imageSize` : the functions;
* `run` : calls, and the blocks they return; `Unwrapped` : no address is computed modulo `2 ^ 32`;
* `Allocated` : what is promised of the blocks; `Inv`, `Inv.step`, `allocated_of_run`.
-/

namespace Grbl.Nvs.Alloc

def nvsSize : ℕ := 2048

def nvsSizeMax : ℕ := 4096

/-- `nvsbuffer.size`, from `hal.nvs.size_max`. -/
def bufferSize (sizeMax : ℕ) : ℕ := if nvsSize < sizeMax then min nvsSizeMax sizeMax else nvsSize

/-- The address of a block of this many bytes, aligned, with the address behind the block. -/
structure Heap (size : ℕ) where
  addr : ℕ
  pos : 0 < addr
  aligned : addr % 4 = 0
  fits : addr + size < 2 ^ 32

structure Nvs where
  /-- `nvsbuffer.addr` -/
  addr : ℕ := 0
  /-- `hal.nvs.driver_area` -/
  areaAddress : ℕ := 0
  areaMemAddress : ℕ := 0
  areaSize : ℕ := 0
  /-- `hal.nvs.size` -/
  size : ℕ
  memAddress : ℕ := 0

section
variable (grblNvsSize sizeMax : ℕ)

/-- Until it has succeeded, the buffer is allocated by every call. -/
def nvsBufferAlloc (heap : Option (Heap (bufferSize sizeMax))) (s : Nvs) : Nvs :=
  if s.addr = 0 then
    match heap with
    | some block => if grblNvsSize ≤ bufferSize sizeMax then { s with addr := block.addr } else s
    | none => s
  else s

/-- `((uintptr_t)(mem_address - 1) | 0x03) + 1` -/
def align (a : ℕ) : ℕ := ((((a + (2 ^ 32 - 1)) % 2 ^ 32) ||| 3) + 1) % 2 ^ 32

def startArea (s : Nvs) : Nvs :=
  if s.areaAddress = 0 then
    { s with areaAddress := grblNvsSize, areaMemAddress := (s.addr + grblNvsSize) % 2 ^ 32, memAddress := (s.addr + grblNvsSize) % 2 ^ 32 }
  else s

/-- The block behind the last one, or 0. -/
def nvsAllocAt (size : ℕ) (s : Nvs) : ℕ × Nvs :=
  let size := (size + nvsCrcBytes) % 2 ^ 32
  let startAddress := align s.memAddress
  if (startAddress + size) % 2 ^ 32 < s.addr + bufferSize sizeMax then
    let memAddress := (startAddress + size) % 2 ^ 32
    let areaSize := (memAddress + 2 ^ 32 - s.areaMemAddress) % 2 ^ 16
    ((startAddress + 2 ^ 32 - s.addr) % 2 ^ 32, { s with memAddress, areaSize, size := grblNvsSize + areaSize + 1 })
  else (0, s)

/-- `nvs_alloc` before `nvs_buffer_init`. -/
def nvsAlloc (heap : Option (Heap (bufferSize sizeMax))) (size : ℕ) (s : Nvs) : ℕ × Nvs :=
  let s := nvsBufferAlloc grblNvsSize sizeMax heap s
  if s.addr = 0 then (0, s) else nvsAllocAt grblNvsSize sizeMax size (startArea grblNvsSize s)

/-- The bytes that are loaded and stored after `nvs_buffer_init`: all of `hal.nvs.size` in flash. -/
def imageSize (flash : Bool) (s : Nvs) : ℕ := if flash then ((s.size - 1) ||| 3) + 1 else grblNvsSize + s.areaSize

/-- What `malloc` would return, and the size asked for. -/
structure Call where
  heap : Option (Heap (bufferSize sizeMax))
  size : ℕ
  isLt : size < 2 ^ 32

/-- The blocks that are returned, from the first one on. -/
def run : List (Call sizeMax) → List (ℕ × ℕ) × Nvs → List (ℕ × ℕ) × Nvs
  | [], p => p
  | call :: calls, (blocks, s) =>
      let (addr, s) := nvsAlloc grblNvsSize sizeMax call.heap call.size s
      run calls (if addr ≠ 0 then blocks ++ [(addr, call.size)] else blocks, s)

/-- Where the next block will be. -/
def position (s : Nvs) : ℕ := if s.areaAddress = 0 then 4 * ((grblNvsSize + 3) / 4) else align s.memAddress - s.addr

/-- The addresses that this call computes have 32 bits. -/
def Unwrapped (call : Call sizeMax) (s : Nvs) : Prop :=
  align (startArea grblNvsSize (nvsBufferAlloc grblNvsSize sizeMax call.heap s)).memAddress + call.size + nvsCrcBytes < 2 ^ 32

/-- Everywhere in a run. -/
def AllUnwrapped : List (Call sizeMax) → Nvs → Prop
  | [], _ => True
  | call :: calls, s => Unwrapped grblNvsSize sizeMax call s ∧
      AllUnwrapped calls (nvsAlloc grblNvsSize sizeMax call.heap call.size s).2

/-- What is promised of the blocks, with their sizes. -/
structure Allocated (blocks : List (ℕ × ℕ)) (s : Nvs) : Prop where
  aligned : ∀ b ∈ blocks, (s.addr + b.1) % 4 = 0
  ram : ∀ b ∈ blocks, b.1 + b.2 + nvsCrcBytes ≤ bufferSize sizeMax
  area : ∀ b ∈ blocks, s.areaAddress ≤ b.1 ∧ b.1 + b.2 + nvsCrcBytes ≤ s.areaAddress + s.areaSize
  core : ∀ b ∈ blocks, grblNvsSize ≤ b.1
  disjoint : blocks.Pairwise fun b c => b.1 + b.2 + nvsCrcBytes ≤ c.1
  covered : ∀ flash, ∀ b ∈ blocks, b.1 + b.2 + nvsCrcBytes ≤ imageSize grblNvsSize flash s
  image : s.addr ≠ 0 → ∀ flash, imageSize grblNvsSize flash s ≤ bufferSize sizeMax

/-- A call that returns 0 changes nothing for the later ones. -/
def FailsCleanly (s : Nvs) : Prop :=
  ∀ call : Call sizeMax, (nvsAlloc grblNvsSize sizeMax call.heap call.size s).1 = 0 →
    (nvsAlloc grblNvsSize sizeMax call.heap call.size s).2.areaSize = s.areaSize ∧
      position grblNvsSize (nvsAlloc grblNvsSize sizeMax call.heap call.size s).2 = position grblNvsSize s

end

/-! ## Alignment -/

theorem or_three (x : ℕ) : x ||| 3 = 4 * (x / 4) + 3 := by
  have hsplit : x = 2 ^ 2 * (x / 4) + x % 4 := (Nat.div_add_mod x 4).symm
  have hor := Nat.two_pow_add_eq_or_of_lt (i := 2) (Nat.mod_lt x (show 0 < 4 by decide)) (x / 4)
  have hthree := Nat.two_pow_add_eq_or_of_lt (i := 2) (show 3 < 2 ^ 2 by decide) (x / 4)
  have hmod : x % 4 ||| 3 = 3 := by
    have hlt := Nat.mod_lt x (show 0 < 4 by decide)
    interval_cases x % 4 <;> rfl
  calc x ||| 3 = (2 ^ 2 * (x / 4) ||| x % 4) ||| 3 := by rw [← hor, ← hsplit]
    _ = 4 * (x / 4) + 3 := by rw [Nat.or_assoc, hmod, ← hthree]

theorem align_eq {a : ℕ} (hpos : 0 < a) (hlt : a + 3 < 2 ^ 32) : align a = 4 * ((a + 3) / 4) := by
  have hdec : (a + (2 ^ 32 - 1)) % 2 ^ 32 = a - 1 := by omega
  rw [align, hdec, or_three]
  omega

theorem round_eq {n : ℕ} (hpos : 0 < n) : ((n - 1) ||| 3) + 1 = 4 * ((n + 3) / 4) := by
  rw [or_three]
  omega

theorem bufferSize_le (sizeMax : ℕ) : bufferSize sizeMax ≤ 4096 := by
  rw [bufferSize, nvsSize, nvsSizeMax]
  split <;> omega

/-! ## The invariant -/

section
variable {grblNvsSize sizeMax : ℕ} {blocks : List (ℕ × ℕ)} {s : Nvs}

structure Inv (grblNvsSize sizeMax : ℕ) (blocks : List (ℕ × ℕ)) (s : Nvs) : Prop where
  null : s.addr = 0 → s.areaAddress = 0
  memory : s.addr ≠ 0 → s.addr % 4 = 0 ∧ s.addr + bufferSize sizeMax < 2 ^ 32 ∧ grblNvsSize ≤ bufferSize sizeMax
  fresh : s.areaAddress = 0 → blocks = [] ∧ s.areaSize = 0 ∧ s.size = grblNvsSize
  started : s.areaAddress ≠ 0 → s.areaAddress = grblNvsSize ∧ s.areaMemAddress = s.addr + grblNvsSize ∧
    s.memAddress = s.addr + grblNvsSize + s.areaSize
  size : s.areaSize = 0 ∧ s.size = grblNvsSize ∧ blocks = [] ∨
    grblNvsSize + s.areaSize < bufferSize sizeMax ∧ s.size = grblNvsSize + s.areaSize + 1
  inside : ∀ b ∈ blocks, (s.addr + b.1) % 4 = 0 ∧ grblNvsSize ≤ b.1 ∧ b.1 + b.2 + nvsCrcBytes ≤ grblNvsSize + s.areaSize
  disjoint : blocks.Pairwise fun b c => b.1 + b.2 + nvsCrcBytes ≤ c.1

theorem Inv.initial : Inv grblNvsSize sizeMax [] { size := grblNvsSize } :=
  ⟨fun _ => rfl, fun h => absurd rfl h, fun _ => ⟨rfl, rfl, rfl⟩, fun h => absurd rfl h, .inl ⟨rfl, rfl, rfl⟩,
    fun _ hb => absurd hb List.not_mem_nil, List.Pairwise.nil⟩

theorem Inv.bufferAlloc (h : Inv grblNvsSize sizeMax blocks s) (heap : Option (Heap (bufferSize sizeMax))) :
    Inv grblNvsSize sizeMax blocks (nvsBufferAlloc grblNvsSize sizeMax heap s) := by
  unfold nvsBufferAlloc
  split
  · rename_i hnull
    cases heap with
    | none => exact h
    | some block =>
        simp only
        split
        · rename_i hle
          have hfresh := h.null hnull
          refine ⟨fun _ => hfresh, fun _ => ⟨block.aligned, block.fits, hle⟩, h.fresh, fun hne => absurd hfresh hne, h.size,
            fun b hb => ?_, h.disjoint⟩
          rw [(h.fresh hfresh).1] at hb
          exact absurd hb List.not_mem_nil
        · exact h
  · exact h

theorem Inv.startArea (h : Inv grblNvsSize sizeMax blocks s) (haddr : s.addr ≠ 0) :
    Inv grblNvsSize sizeMax blocks (startArea grblNvsSize s) ∧ (startArea grblNvsSize s).addr = s.addr ∧
      (startArea grblNvsSize s).areaSize = s.areaSize ∧ (startArea grblNvsSize s).areaAddress = grblNvsSize ∧
        (startArea grblNvsSize s).areaMemAddress = s.addr + grblNvsSize ∧
          (startArea grblNvsSize s).memAddress = s.addr + grblNvsSize + s.areaSize := by
  obtain ⟨-, hlt, hle⟩ := h.memory haddr
  rw [Alloc.startArea]
  split
  · rename_i hfresh
    obtain ⟨hblocks, hsize, hnvs⟩ := h.fresh hfresh
    have hmod : (s.addr + grblNvsSize) % 2 ^ 32 = s.addr + grblNvsSize := Nat.mod_eq_of_lt (by omega)
    rw [hmod]
    exact ⟨⟨fun h0 => absurd h0 haddr, h.memory, fun _ => ⟨hblocks, hsize, hnvs⟩, fun _ => ⟨rfl, rfl, by rw [hsize]; rfl⟩, h.size, h.inside,
      h.disjoint⟩, rfl, rfl, rfl, rfl, by rw [hsize]; rfl⟩
  · rename_i hstarted
    obtain ⟨harea, hmem, hnext⟩ := h.started hstarted
    exact ⟨h, rfl, rfl, harea, hmem, hnext⟩

theorem Inv.allocAt (h : Inv grblNvsSize sizeMax blocks s) (haddr : s.addr ≠ 0) (hG : 0 < grblNvsSize) (h4 : bufferSize sizeMax % 4 = 0)
    {size : ℕ} (harea : s.areaAddress = grblNvsSize) (hmem : s.areaMemAddress = s.addr + grblNvsSize)
    (hnext : s.memAddress = s.addr + grblNvsSize + s.areaSize) (hwrap : align s.memAddress + size + nvsCrcBytes < 2 ^ 32) :
    Inv grblNvsSize sizeMax (if (nvsAllocAt grblNvsSize sizeMax size s).1 ≠ 0 then blocks ++ [((nvsAllocAt grblNvsSize sizeMax size s).1, size)]
      else blocks) (nvsAllocAt grblNvsSize sizeMax size s).2 := by
  obtain ⟨haligned, hlt, hle⟩ := h.memory haddr
  have hN := bufferSize_le sizeMax
  have hused : grblNvsSize + s.areaSize ≤ bufferSize sizeMax := by
    rcases h.size with ⟨h0, -⟩ | ⟨h1, -⟩ <;> omega
  have halign : align s.memAddress = 4 * ((s.memAddress + 3) / 4) := align_eq (by omega) (by omega)
  have hcrc : nvsCrcBytes = 2 := rfl
  generalize hstart : align s.memAddress = start at halign hwrap
  have hsize : (size + nvsCrcBytes) % 2 ^ 32 = size + nvsCrcBytes := Nat.mod_eq_of_lt (by omega)
  have hend : (start + (size + nvsCrcBytes)) % 2 ^ 32 = start + (size + nvsCrcBytes) := Nat.mod_eq_of_lt (by omega)
  rw [nvsAllocAt, hsize, hstart, hend]
  by_cases hroom : start + (size + nvsCrcBytes) < s.addr + bufferSize sizeMax
  · rw [if_pos hroom]
    obtain ⟨a, ha⟩ : ∃ a, start = s.addr + a := ⟨start - s.addr, by omega⟩
    have hresult : (start + 2 ^ 32 - s.addr) % 2 ^ 32 = a := by omega
    have hgrown : (start + (size + nvsCrcBytes) + 2 ^ 32 - s.areaMemAddress) % 2 ^ 16 = a + size + nvsCrcBytes - grblNvsSize := by omega
    simp only [hresult, hgrown]
    rw [if_pos (by omega)]
    have hnew : start + (size + nvsCrcBytes) = s.addr + grblNvsSize + (a + size + nvsCrcBytes - grblNvsSize) := by omega
    have hfits : grblNvsSize + (a + size + nvsCrcBytes - grblNvsSize) < bufferSize sizeMax := by omega
    have hgrows : s.areaSize ≤ a + size + nvsCrcBytes - grblNvsSize := by omega
    have hne : s.areaAddress ≠ 0 := by omega
    refine ⟨fun h0 => absurd h0 haddr, h.memory, fun h0 => absurd h0 hne, fun _ => ⟨harea, hmem, hnew⟩, .inr ⟨hfits, rfl⟩,
      fun b hb => ?_, ?_⟩
    · rcases List.mem_append.1 hb with hb | hb
      · obtain ⟨h₁, h₂, h₃⟩ := h.inside b hb
        exact ⟨h₁, h₂, h₃.trans (Nat.add_le_add_left hgrows _)⟩
      · rw [List.mem_singleton.1 hb]
        refine ⟨?_, ?_, ?_⟩
        · show (s.addr + a) % 4 = 0
          omega
        · show grblNvsSize ≤ a
          omega
        · show a + size + nvsCrcBytes ≤ grblNvsSize + (a + size + nvsCrcBytes - grblNvsSize)
          omega
    · refine List.pairwise_append.2 ⟨h.disjoint, List.pairwise_singleton _ _, fun b hb c hc => ?_⟩
      rw [List.mem_singleton.1 hc]
      have := (h.inside b hb).2.2
      show b.1 + b.2 + nvsCrcBytes ≤ a
      omega
  · rw [if_neg hroom, if_neg (not_not.2 rfl)]
    exact h

theorem Inv.allocAt_zero (h : Inv grblNvsSize sizeMax blocks s) (haddr : s.addr ≠ 0) (hG : 0 < grblNvsSize)
    (h4 : bufferSize sizeMax % 4 = 0) {size : ℕ} (hnext : s.memAddress = s.addr + grblNvsSize + s.areaSize)
    (hzero : (nvsAllocAt grblNvsSize sizeMax size s).1 = 0) : (nvsAllocAt grblNvsSize sizeMax size s).2 = s := by
  obtain ⟨haligned, hlt, hle⟩ := h.memory haddr
  have hused : grblNvsSize + s.areaSize ≤ bufferSize sizeMax := by
    rcases h.size with ⟨h0, -⟩ | ⟨h1, -⟩ <;> omega
  have halign : align s.memAddress = 4 * ((s.memAddress + 3) / 4) := align_eq (by omega) (by omega)
  rw [nvsAllocAt] at hzero ⊢
  split at hzero
  · have hstart : (align s.memAddress + 2 ^ 32 - s.addr) % 2 ^ 32 = 0 := hzero
    omega
  · rename_i hfull
    rw [if_neg hfull]

theorem Inv.step (h : Inv grblNvsSize sizeMax blocks s) (hG : 0 < grblNvsSize) (h4 : bufferSize sizeMax % 4 = 0) (call : Call sizeMax)
    (hwrap : Unwrapped grblNvsSize sizeMax call s) :
    Inv grblNvsSize sizeMax (if (nvsAlloc grblNvsSize sizeMax call.heap call.size s).1 ≠ 0 then
      blocks ++ [((nvsAlloc grblNvsSize sizeMax call.heap call.size s).1, call.size)] else blocks)
      (nvsAlloc grblNvsSize sizeMax call.heap call.size s).2 := by
  have hbuffer := h.bufferAlloc call.heap
  rw [nvsAlloc]
  by_cases haddr : (nvsBufferAlloc grblNvsSize sizeMax call.heap s).addr = 0
  · rw [if_pos haddr, if_neg (not_not.2 rfl)]
    exact hbuffer
  · obtain ⟨hinv, hsame, hsize, harea, hmem, hnext⟩ := hbuffer.startArea haddr
    rw [if_neg haddr]
    exact hinv.allocAt (by rwa [hsame]) hG h4 harea (by rw [hsame]; exact hmem) (by rw [hsame, hsize]; exact hnext) hwrap

theorem Inv.run (hG : 0 < grblNvsSize) (h4 : bufferSize sizeMax % 4 = 0) : ∀ (calls : List (Call sizeMax)) {blocks : List (ℕ × ℕ)} {s : Nvs},
    Inv grblNvsSize sizeMax blocks s → AllUnwrapped grblNvsSize sizeMax calls s →
      Inv grblNvsSize sizeMax (Alloc.run grblNvsSize sizeMax calls (blocks, s)).1 (Alloc.run grblNvsSize sizeMax calls (blocks, s)).2
  | [], _, _, h, _ => h
  | call :: calls, _, _, h, ⟨hwrap, hrest⟩ => Inv.run hG h4 calls (h.step hG h4 call hwrap) hrest

/-! ## What is promised -/

theorem Inv.allocated (h : Inv grblNvsSize sizeMax blocks s) (h4 : bufferSize sizeMax % 4 = 0) (hG : 0 < grblNvsSize) :
    Allocated grblNvsSize sizeMax blocks s := by
  have hblock : ∀ b ∈ blocks, s.areaAddress = grblNvsSize ∧ grblNvsSize + s.areaSize < bufferSize sizeMax ∧
      s.size = grblNvsSize + s.areaSize + 1 := by
    intro b hb
    have hne : s.areaAddress ≠ 0 := fun h0 => by
      rw [(h.fresh h0).1] at hb
      exact absurd hb List.not_mem_nil
    rcases h.size with ⟨-, -, hnil⟩ | ⟨hlt, hsize⟩
    · rw [hnil] at hb
      exact absurd hb List.not_mem_nil
    · exact ⟨(h.started hne).1, hlt, hsize⟩
  have hflash : imageSize grblNvsSize true s = 4 * ((s.size + 3) / 4) := by
    rw [imageSize, if_pos rfl]
    exact round_eq (by rcases h.size with ⟨-, h1, -⟩ | ⟨-, h1⟩ <;> omega)
  refine ⟨fun b hb => (h.inside b hb).1, fun b hb => ?_, fun b hb => ?_, fun b hb => (h.inside b hb).2.1, h.disjoint, fun flash b hb => ?_,
    fun haddr flash => ?_⟩
  · have := (h.inside b hb).2.2
    have := (hblock b hb).2.1
    omega
  · rw [(hblock b hb).1]
    exact (h.inside b hb).2
  · have hin := (h.inside b hb).2.2
    have hsize := (hblock b hb).2.2
    cases flash with
    | true =>
        rw [hflash]
        omega
    | false => exact hin
  · have hle := (h.memory haddr).2.2
    cases flash with
    | true =>
        rw [hflash]
        rcases h.size with ⟨-, h1, -⟩ | ⟨hlt, h1⟩ <;> omega
    | false =>
        show grblNvsSize + s.areaSize ≤ _
        rcases h.size with ⟨h1, -⟩ | ⟨hlt, h1⟩ <;> omega

theorem Inv.failsCleanly (h : Inv grblNvsSize sizeMax blocks s) (h4 : bufferSize sizeMax % 4 = 0) (hG : 0 < grblNvsSize) :
    FailsCleanly grblNvsSize sizeMax s := by
  intro call hzero
  have hbuffer := h.bufferAlloc call.heap
  have hsame : (nvsBufferAlloc grblNvsSize sizeMax call.heap s).areaSize = s.areaSize ∧
      position grblNvsSize (nvsBufferAlloc grblNvsSize sizeMax call.heap s) = position grblNvsSize s := by
    unfold nvsBufferAlloc
    split
    · rename_i hnull
      cases call.heap with
      | none => exact ⟨rfl, rfl⟩
      | some block =>
          simp only
          split
          · refine ⟨rfl, ?_⟩
            have hfresh := h.null hnull
            simp only [position, hfresh, if_true]
          · exact ⟨rfl, rfl⟩
    · exact ⟨rfl, rfl⟩
  rw [nvsAlloc] at hzero ⊢
  by_cases haddr : (nvsBufferAlloc grblNvsSize sizeMax call.heap s).addr = 0
  · rw [if_pos haddr]
    exact hsame
  · rw [if_neg haddr] at hzero ⊢
    generalize nvsBufferAlloc grblNvsSize sizeMax call.heap s = s₁ at hbuffer hsame haddr hzero
    obtain ⟨hinv, hat, hsize, harea, hmem, hnext⟩ := hbuffer.startArea haddr
    have hposition : position grblNvsSize (Alloc.startArea grblNvsSize s₁) = position grblNvsSize s₁ := by
      obtain ⟨haligned, hlt, -⟩ := hbuffer.memory haddr
      have hle := (hbuffer.memory haddr).2.2
      by_cases hfresh : s₁.areaAddress = 0
      · have h0 := (hbuffer.fresh hfresh).2.1
        rw [position, position, if_pos hfresh, if_neg (by omega), hnext, hat, h0, align_eq (by omega) (by have := bufferSize_le sizeMax; omega)]
        omega
      · rw [Alloc.startArea, if_neg hfresh]
    rw [hinv.allocAt_zero (by rwa [hat]) hG h4 (by rw [hat, hsize]; exact hnext) hzero]
    exact ⟨hsize.trans hsame.1, hposition.trans hsame.2⟩

/-- Every block that a run returns is as promised, and a call that fails leaves the place of the next block alone. -/
theorem allocated_of_run (hG : 0 < grblNvsSize) (h4 : bufferSize sizeMax % 4 = 0) (calls : List (Call sizeMax))
    (hwrap : AllUnwrapped grblNvsSize sizeMax calls { size := grblNvsSize }) :
    Allocated grblNvsSize sizeMax (run grblNvsSize sizeMax calls ([], { size := grblNvsSize })).1
        (run grblNvsSize sizeMax calls ([], { size := grblNvsSize })).2 ∧
      FailsCleanly grblNvsSize sizeMax (run grblNvsSize sizeMax calls ([], { size := grblNvsSize })).2 :=
  have h := Inv.run hG h4 calls .initial hwrap
  ⟨h.allocated h4 hG, h.failsCleanly h4 hG⟩

end

/-- At the start of the RAM of the board. -/
def ramBlock : Heap (bufferSize 16384) where
  addr := 0x20001000
  pos := by decide
  aligned := by decide
  fits := by decide

theorem allocated_of_run_two :
    let calls : List (Call 16384) := [⟨some ramBlock, 10, by decide⟩, ⟨none, 5, by decide⟩]
    Allocated 1022 16384 (run 1022 16384 calls ([], { size := 1022 })).1 (run 1022 16384 calls ([], { size := 1022 })).2 ∧
      FailsCleanly 1022 16384 (run 1022 16384 calls ([], { size := 1022 })).2 :=
  allocated_of_run (by decide) (by decide) [⟨some ramBlock, 10, by decide⟩, ⟨none, 5, by decide⟩]
    ⟨by unfold Unwrapped; decide +kernel, by unfold Unwrapped; decide +kernel, trivial⟩

/-- With the checksum, the size is 0 modulo `2 ^ 32`: the call returns an address, of a block that does not fit. -/
theorem size_wraps :
    let calls : List (Call 16384) := [⟨some ramBlock, 2 ^ 32 - 2, by decide⟩]
    ¬ Allocated 1024 16384 (run 1024 16384 calls ([], { size := 1024 })).1 (run 1024 16384 calls ([], { size := 1024 })).2 := by
  intro calls h
  have hblocks : (run 1024 16384 calls ([], { size := 1024 })).1 = [(1024, 2 ^ 32 - 2)] := by decide +kernel
  have hram := h.ram (1024, 2 ^ 32 - 2) (by rw [hblocks]; exact List.mem_singleton_self _)
  exact absurd hram (by decide)

end Grbl.Nvs.Alloc
