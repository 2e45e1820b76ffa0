import Mathlib
import Grbl.Stepper.Machine
import Grbl.Lib.Run

/-!
# The invariant of the segment generator and the interrupt

* `Steady a l z` : from `a` on, the block numbers of the segments `l` go up by at most one at a
  time, and end at `z`;
* `RingInv`, `OrderInv`, `DataInv` : the segment buffer is a queue, its segments are in the order
  of their blocks, and the elements of `st_block_buffer` in use hold the data of their blocks;
* `Machine.Sound` : all three, with what each step of the segment generator does to it.
-/

namespace Grbl

open Lib

/-! ## Block numbers of queued segments -/

/-- The numbers go up from `a` by at most one at a time, and end at `z`. -/
def Steady : ℕ → List (ℕ × Segment) → ℕ → Prop
  | a, [], z => a = z
  | a, q :: l, z => (q.1 = a ∨ q.1 = a + 1) ∧ Steady q.1 l z

namespace Steady

theorem push {z z' : ℕ} (hz : z' = z ∨ z' = z + 1) (s : Segment) :
    ∀ {a : ℕ} {l : List (ℕ × Segment)}, Steady a l z → Steady a (l ++ [(z', s)]) z' := by
  intro a l
  induction l generalizing a with
  | nil =>
      rintro rfl
      exact ⟨hz, rfl⟩
  | cons q l ih => exact fun h => ⟨h.1, ih h.2⟩

theorem le {z : ℕ} : ∀ {a : ℕ} {l : List (ℕ × Segment)}, Steady a l z → a ≤ z ∧ z ≤ a + l.length := by
  intro a l
  induction l generalizing a with
  | nil =>
      rintro rfl
      exact ⟨le_rfl, le_rfl⟩
  | cons q l ih =>
      rintro ⟨hq, hl⟩
      have := ih hl
      rw [List.length_cons]
      omega

theorem mem {z : ℕ} : ∀ {a : ℕ} {l : List (ℕ × Segment)}, Steady a l z → ∀ q ∈ l,
    a ≤ q.1 ∧ q.1 ≤ z ∧ z < q.1 + l.length := by
  intro a l
  induction l generalizing a with
  | nil => simp
  | cons p l ih =>
      rintro ⟨hp, hl⟩ q hq
      have hle := hl.le
      rw [List.length_cons]
      rcases List.mem_cons.1 hq with rfl | hq
      · omega
      · have := ih hl q hq
        omega

theorem consecutive {z : ℕ} : ∀ {a : ℕ} {l : List (ℕ × Segment)}, Steady a l z →
    ∀ k q r, l[k]? = some q → l[k + 1]? = some r → r.1 = q.1 ∨ r.1 = q.1 + 1 := by
  intro a l
  induction l generalizing a with
  | nil => intro _ k q r hq; simp at hq
  | cons p l ih =>
      rintro ⟨-, hl⟩ k q r hq hr
      cases k with
      | zero =>
          cases l with
          | nil => simp at hr
          | cons p' l =>
              simp only [List.getElem?_cons_zero, List.getElem?_cons_succ, Option.some.injEq]
                at hq hr
              rw [← hq, ← hr]
              exact hl.1
      | succ k => exact ih hl k q r hq hr

end Steady

namespace Machine

/-! ## Invariants -/

/-- The segment buffer holds the queue of segments. -/
structure RingInv (m : Machine) : Prop where
  size : 3 ≤ m.size
  tail_lt : m.segmentBufferTail < m.size - 1 + 1
  length : m.history.fifo.length ≤ m.size - 1
  head : m.segmentBufferHead = slot (m.size - 1) m.segmentBufferTail m.history.fifo.length
  slots : ∀ k q, m.history.fifo[k]? = some q →
    m.segments (slot (m.size - 1) m.segmentBufferTail k) = q.2

/-- The queued segments are in the order of their blocks, and every loaded block gets a segment. -/
structure OrderInv (m : Machine) : Prop where
  steady : Steady m.history.started m.history.fifo m.history.pushed
  loaded : m.history.pushed = m.history.loaded ∨
    m.history.pushed + 1 = m.history.loaded ∧ (m.plBlock || m.velocityProfile)
  ready : m.phase = .ready → m.plBlock ∧ m.history.fifo.length < m.size - 1
  pushed : m.phase = .pushed → m.plBlock ∧ m.history.pushed = m.history.loaded
  plBlock : m.plBlock → m.velocityProfile = false
  exec : m.st.execBlock = none → m.st.execSegment = none
  active : ∀ t, m.st.execSegment = some t → m.st.stepCount ≠ 0 →
    t = m.segmentBufferTail ∧ ∃ q l, m.history.fifo = q :: l ∧ q.1 = m.history.started

/-- Number of planner blocks discarded. -/
def ended (m : Machine) : ℕ := m.history.loaded - if m.plBlock || m.velocityProfile then 1 else 0

/-- A block whose data is still needed: queued segments refer to it, or it is being prepared. -/
def InUse (m : Machine) (b : ℕ) : Prop :=
  0 < b ∧ (b = m.history.loaded ∨ ∃ q ∈ m.history.fifo, q.1 = b)

/-- The data of a block; its commands are gone once it has been started. -/
def blockData (m : Machine) (b : ℕ) : StBlock :=
  let d := StBlock.ofMotion (m.history.motion b)
  if b ≤ m.history.started then d.withoutCommands else d

/-- The planner queue, and the elements of `st_block_buffer` in use. -/
structure DataInv (m : Machine) : Prop where
  queued : m.history.loaded ≤ m.history.queued
  loaded : (m.plBlock || m.velocityProfile) → 0 < m.history.loaded
  queue : m.queue =
    (List.range' (m.ended + 1) (m.history.queued - m.ended)).map m.history.motion
  room : m.history.pushed + 1 = m.history.loaded → m.history.fifo.length < m.size - 1
  prep : m.stPrepBlock = m.history.loaded % (m.size - 1)
  entry : ∀ q ∈ m.history.fifo, 0 < q.1 ∧ q.2.execBlock = q.1 % (m.size - 1)
  exec : ∀ e, m.st.execBlock = some e → e = m.history.started % (m.size - 1)
  data : ∀ b, m.InUse b → m.stBlocks (b % (m.size - 1)) = m.blockData b

/-- What holds in every reachable state. -/
structure Sound (m : Machine) : Prop where
  ring : RingInv m
  order : OrderInv m
  data : DataInv m

/-! ## Reset -/

theorem Sound.stReset {size : ℕ} (hsize : 3 ≤ size) (segments : ℕ → Segment)
    (stBlocks : ℕ → StBlock) (position : Axis → ℤ) (isHoming : Bool) (lock : Axis → Bool) :
    Sound (stReset size segments stBlocks position isHoming lock) where
  ring := by
    refine ⟨hsize, Nat.succ_pos _, Nat.zero_le _, (slot_zero (Nat.succ_pos _)).symm, ?_⟩
    intro k q hk
    simp [Machine.stReset] at hk
  order := by
    refine ⟨rfl, Or.inl rfl, ?_, ?_, ?_, fun _ => rfl, ?_⟩ <;> simp [Machine.stReset]
  data := by
    refine ⟨le_rfl, ?_, ?_, ?_, ?_, ?_, ?_, ?_⟩
    · simp [Machine.stReset]
    · simp [Machine.stReset]
    · simp [Machine.stReset]
    · simp [Machine.stReset]
    · simp [Machine.stReset]
    · simp [Machine.stReset]
    · rintro b ⟨hb, h | ⟨q, hq, _⟩⟩
      · rw [h] at hb
        exact absurd hb (lt_irrefl 0)
      · exact absurd hq (List.not_mem_nil)

/-! ## Elements of `st_block_buffer` -/

section
variable {m : Machine}

theorem RingInv.one_lt (h : RingInv m) : 1 < m.size - 1 := by
  have := h.size
  omega

theorem mod_ne {n a b : ℕ} (hab : a < b) (hb : b < a + n) : a % n ≠ b % n := by
  intro h
  have hmod : a ≡ b [MOD n] := h
  have hdvd := (Nat.modEq_iff_dvd' hab.le).1 hmod
  have := Nat.le_of_dvd (by omega) hdvd
  omega

theorem RingInv.nextBlock (h : RingInv m) (b : ℕ) :
    m.nextBlock (b % (m.size - 1)) = (b + 1) % (m.size - 1) := by
  have hs := h.size
  have hlt : b % (m.size - 1) < m.size - 2 + 1 := by
    have := Nat.mod_lt b (show 0 < m.size - 1 by omega)
    omega
  rw [Machine.nextBlock, ringNext_eq hlt, slot, show m.size - 2 + 1 = m.size - 1 by omega, Nat.mod_add_mod]

theorem Sound.inUse_bounds (h : Sound m) {b : ℕ} (hb : m.InUse b) :
    m.history.started ≤ b ∧ b ≤ m.history.loaded ∧ m.history.loaded < b + (m.size - 1) := by
  have hle := h.order.steady.le
  have hlen := h.ring.length
  have hroom := h.data.room
  have hone := h.ring.one_lt
  have hload := h.order.loaded
  obtain ⟨-, rfl | ⟨q, hq, rfl⟩⟩ := hb
  · omega
  · have hmem := h.order.steady.mem q hq
    omega

end

/-! ## The segment generator -/

section
variable {m m' : Machine}

theorem Sound.full_iff (h : Sound m) :
    m.segmentBufferFull = true ↔ m.history.fifo.length = m.size - 1 := by
  have hlen := h.ring.length
  have ht := h.ring.tail_lt
  rw [segmentBufferFull, decide_eq_true_iff, nextSegment, h.ring.head, ringNext_slot]
  constructor
  · intro heq
    by_contra hne
    have hz : slot (m.size - 1) m.segmentBufferTail (m.history.fifo.length + 1) =
        slot (m.size - 1) m.segmentBufferTail 0 := heq.trans (slot_zero ht).symm
    have := slot_inj (by omega) (by omega) hz
    omega
  · intro heq
    rw [heq, slot, Nat.add_mod_right, Nat.mod_eq_of_lt ht]

theorem Sound.queue_cons (h : Sound m) {b : Motion} {l : List Motion} (hq : m.queue = b :: l) :
    b = m.history.motion (m.ended + 1) ∧ m.ended < m.history.queued ∧
      l = (List.range' (m.ended + 1 + 1) (m.history.queued - (m.ended + 1))).map
        m.history.motion := by
  have hqueue := h.data.queue
  rw [hq] at hqueue
  cases hk : m.history.queued - m.ended with
  | zero => simp [hk] at hqueue
  | succ k =>
      rw [hk, List.range'_succ, List.map_cons, List.cons.injEq] at hqueue
      refine ⟨hqueue.1, by omega, ?_⟩
      rw [hqueue.2, show m.history.queued - (m.ended + 1) = k by omega]

theorem Sound.pushed_of_idle (h : Sound m) (hpl : m.plBlock = false)
    (hvp : m.velocityProfile = false) : m.history.pushed = m.history.loaded := by
  rcases h.order.loaded with h1 | ⟨-, h2⟩
  · exact h1
  · simp [hpl, hvp] at h2

/-! The number of blocks discarded -/

theorem ended_of_idle (hpl : m.plBlock = false) (hvp : m.velocityProfile = false) :
    m.ended = m.history.loaded := by
  simp [ended, hpl, hvp]

theorem ended_loadBlock (hpl : m.plBlock = false) (hvp : m.velocityProfile = false) (b : Motion) :
    (m.loadBlock b).ended = m.ended := by
  simp [ended, Machine.loadBlock, hpl, hvp]

theorem ended_reloadBlock (hvp : m.velocityProfile = true) : m.reloadBlock.ended = m.ended := by
  simp [ended, Machine.reloadBlock, hvp]

theorem ended_replan (hpl : m.plBlock = true) :
    ended { m with velocityProfile := true, plBlock := false } = m.ended := by
  simp [ended, hpl]

theorem Sound.ended_pushed (h : Sound m) (hphase : m.phase = .pushed) :
    m.ended + 1 = m.history.loaded := by
  obtain ⟨hpl, -⟩ := h.order.pushed hphase
  have hpos : 0 < m.history.loaded := h.data.loaded (by simp [hpl])
  simp only [ended, hpl, Bool.true_or, if_true]
  omega

theorem Sound.ended_discardBlock (h : Sound m) (hphase : m.phase = .pushed) :
    m.discardBlock.ended = m.history.loaded := by
  have hvp := h.order.plBlock (h.order.pushed hphase).1
  simp [ended, Machine.discardBlock, hvp]

theorem Sound.load_ne (h : Sound m) (hfull : m.segmentBufferFull = false)
    (hpl : m.plBlock = false) (hvp : m.velocityProfile = false) {b : ℕ} (hb : m.InUse b) :
    b % (m.size - 1) ≠ m.nextBlock m.stPrepBlock := by
  have hne : m.history.fifo.length ≠ m.size - 1 := fun he => by
    rw [h.full_iff.2 he] at hfull
    cases hfull
  have hlen := h.ring.length
  have hone := h.ring.one_lt
  have hload := h.pushed_of_idle hpl hvp
  rw [h.data.prep, h.ring.nextBlock]
  obtain ⟨-, rfl | ⟨q, hq, rfl⟩⟩ := hb
  · exact mod_ne (by omega) (by omega)
  · have hmem := h.order.steady.mem q hq
    exact mod_ne (by omega) (by omega)

theorem Sound.room_of_not_full (h : Sound m) (hfull : m.segmentBufferFull = false) :
    m.history.fifo.length < m.size - 1 := by
  have hlen := h.ring.length
  have hne : m.history.fifo.length ≠ m.size - 1 := fun he => by
    rw [h.full_iff.2 he] at hfull
    cases hfull
  omega

theorem Sound.loadBlock (h : Sound m) (hfull : m.segmentBufferFull = false)
    (hpl : m.plBlock = false) (hvp : m.velocityProfile = false)
    {b : Motion} {l : List Motion} (hq : m.queue = b :: l) : Sound (m.loadBlock b) := by
  have hended := ended_of_idle hpl hvp
  have hended' := ended_loadBlock hpl hvp b
  have hload := h.pushed_of_idle hpl hvp
  have hroom := h.room_of_not_full hfull
  obtain ⟨hb, hlt, -⟩ := h.queue_cons hq
  have hle := h.order.steady.le
  refine ⟨{ h.ring with }, ?_, ?_⟩
  · exact { h.order with
      loaded := Or.inr ⟨by change m.history.pushed + 1 = m.history.loaded + 1; omega, rfl⟩
      ready := fun _ => ⟨rfl, hroom⟩
      pushed := fun hp => by cases hp
      plBlock := fun _ => hvp }
  · refine { h.data with
      queued := ?_
      loaded := fun _ => Nat.succ_pos _
      queue := by rw [hended']; exact h.data.queue
      room := fun _ => hroom
      prep := ?_
      data := ?_ }
    · change m.history.loaded + 1 ≤ m.history.queued
      omega
    · change m.nextBlock m.stPrepBlock = (m.history.loaded + 1) % (m.size - 1)
      rw [h.data.prep, h.ring.nextBlock]
    · rintro c ⟨hc0, hc⟩
      change Function.update m.stBlocks (m.nextBlock m.stPrepBlock) _ (c % (m.size - 1)) =
        m.blockData c
      by_cases hnew : c = m.history.loaded + 1
      · subst hnew
        rw [h.data.prep, h.ring.nextBlock, Function.update_self, blockData, ← hended, ← hb,
          if_neg (by omega)]
      · have huse : m.InUse c := ⟨hc0, Or.inr (hc.resolve_left hnew)⟩
        rw [Function.update_of_ne (h.load_ne hfull hpl hvp huse)]
        exact h.data.data c huse

theorem Sound.reloadBlock (h : Sound m) (hfull : m.segmentBufferFull = false)
    (hvp : m.velocityProfile = true) : Sound m.reloadBlock := by
  have hended := ended_reloadBlock hvp
  refine ⟨{ h.ring with }, ?_, ?_⟩
  · exact { h.order with
      loaded := h.order.loaded.imp_right fun hl => ⟨hl.1, rfl⟩
      ready := fun _ => ⟨rfl, h.room_of_not_full hfull⟩
      pushed := fun hp => by cases hp
      plBlock := fun _ => rfl }
  · exact { h.data with
      loaded := fun _ => h.data.loaded (by simp [hvp])
      queue := by rw [hended]; exact h.data.queue }

theorem Sound.prepLoad (h : Sound m) (hstep : m.prepLoad = some m') : Sound m' := by
  obtain ⟨-, hfull, ⟨hpl, rfl⟩ | ⟨hpl, b, l, hq, ⟨hvp, rfl⟩ | ⟨hvp, rfl⟩⟩⟩ := prepLoad_cases hstep
  · exact ⟨{ h.ring with },
      { h.order with
        ready := fun _ => ⟨hpl, h.room_of_not_full hfull⟩
        pushed := fun hp => by cases hp },
      { h.data with }⟩
  · exact h.reloadBlock hfull hvp
  · exact h.loadBlock hfull hpl hvp hq

theorem Sound.pushSegment (h : Sound m) (hphase : m.phase = .ready) (n k level : ℕ) :
    Sound (m.pushSegment n ⟨m.stPrepBlock, k, level⟩) := by
  obtain ⟨hpl, hroom⟩ := h.order.ready hphase
  have ht := h.ring.tail_lt
  refine ⟨?_, ?_, ?_⟩
  · refine { h.ring with
      length := ?_
      head := ?_
      slots := ?_ }
    · change (m.history.fifo ++ [_]).length ≤ m.size - 1
      rw [List.length_append]
      exact hroom
    · change m.nextSegment m.segmentBufferHead = slot _ _ (m.history.fifo ++ [_]).length
      rw [nextSegment, h.ring.head, ringNext_slot, List.length_append]
      rfl
    · intro j q hj
      change Function.update m.segments _ _ (slot (m.size - 1) m.segmentBufferTail j) = q.2
      change (m.history.fifo ++ [_])[j]? = some q at hj
      rw [h.ring.head]
      rcases Nat.lt_trichotomy j m.history.fifo.length with hlt | rfl | hgt
      · rw [Function.update_of_ne (slot_ne (by omega) (by omega) (by omega))]
        rw [List.getElem?_append_left hlt] at hj
        exact h.ring.slots j q hj
      · rw [Function.update_self]
        rw [List.getElem?_concat_length, Option.some.injEq] at hj
        rw [← hj]
      · rw [List.getElem?_eq_none (by rw [List.length_append]; exact hgt)] at hj
        cases hj
  · refine { h.order with
      steady := ?_
      loaded := Or.inl rfl
      ready := fun hp => by cases hp
      pushed := fun _ => ⟨hpl, rfl⟩
      active := ?_ }
    · refine Steady.push ?_ _ h.order.steady
      rcases h.order.loaded with h1 | h1
      · exact Or.inl h1.symm
      · exact Or.inr h1.1.symm
    · intro t hs hc
      obtain ⟨htail, q, l, hfifo, hq⟩ := h.order.active t hs hc
      refine ⟨htail, q, l ++ [(m.history.loaded, ⟨m.stPrepBlock, k, level⟩)], ?_, hq⟩
      change m.history.fifo ++ [_] = _
      rw [hfifo]
      rfl
  · refine { h.data with
      room := ?_
      entry := ?_
      data := ?_ }
    · intro hp
      exact absurd hp (Nat.succ_ne_self _)
    · intro q hq
      rcases List.mem_append.1 hq with hq | hq
      · exact h.data.entry q hq
      · rw [List.mem_singleton.1 hq]
        exact ⟨h.data.loaded (by simp [hpl]), h.data.prep⟩
    · rintro b ⟨hb, hu⟩
      refine h.data.data b ⟨hb, ?_⟩
      rcases hu with hu | ⟨q, hq, rfl⟩
      · exact Or.inl hu
      · rcases List.mem_append.1 hq with hq | hq
        · exact Or.inr ⟨q, hq, rfl⟩
        · exact Or.inl (by rw [List.mem_singleton.1 hq])

theorem Sound.queue_pushed (h : Sound m) (hphase : m.phase = .pushed) :
    ∃ l, m.queue = m.history.motion m.history.loaded :: l := by
  have hended := h.ended_pushed hphase
  have hle := h.data.queued
  cases hq : m.queue with
  | nil =>
      have hqueue := h.data.queue
      rw [hq] at hqueue
      simp only [List.nil_eq, List.map_eq_nil_iff, List.range'_eq_nil_iff] at hqueue
      omega
  | cons b l =>
      have hb := (h.queue_cons hq).1
      rw [hended] at hb
      exact ⟨l, by rw [hb]⟩

theorem Sound.discardBlock (h : Sound m) (hphase : m.phase = .pushed) : Sound m.discardBlock := by
  obtain ⟨hpl, hpushed⟩ := h.order.pushed hphase
  have hvp := h.order.plBlock hpl
  have hpos : 0 < m.history.loaded := h.data.loaded (by simp [hpl])
  have hended := h.ended_pushed hphase
  have hended' := h.ended_discardBlock hphase
  refine ⟨{ h.ring with }, ?_, ?_⟩
  · exact { h.order with
      loaded := Or.inl hpushed
      ready := fun hp => by cases hp
      pushed := fun hp => by cases hp
      plBlock := fun hp => by cases hp }
  · refine { h.data with
      loaded := fun _ => hpos
      queue := ?_ }
    obtain ⟨l, hq⟩ := h.queue_pushed hphase
    obtain ⟨-, -, hl⟩ := h.queue_cons hq
    rw [hended']
    change m.queue.tail = _
    rw [hq, List.tail_cons, hl, hended]
    rfl

theorem Sound.prepEnd (h : Sound m) {hold : Bool} (hstep : m.prepEnd hold = some m') : Sound m' := by
  obtain ⟨hphase, ⟨-, rfl⟩ | ⟨-, rfl⟩⟩ := prepEnd_cases hstep
  · exact h.discardBlock hphase
  · exact ⟨{ h.ring with },
      { h.order with
        ready := fun hp => by cases hp
        pushed := fun hp => by cases hp },
      { h.data with }⟩

theorem Sound.replan (h : Sound m) (hstep : m.replan = some m') : Sound m' := by
  obtain ⟨hphase, ⟨hpl, rfl⟩ | ⟨-, rfl⟩⟩ := replan_cases hstep
  · refine ⟨{ h.ring with }, ?_, ?_⟩
    · exact { h.order with
        loaded := h.order.loaded.imp_right fun hl => ⟨hl.1, rfl⟩
        ready := fun hp => by rw [hphase] at hp; cases hp
        pushed := fun hp => by rw [hphase] at hp; cases hp
        plBlock := fun hp => by cases hp }
    · exact { h.data with
        loaded := fun _ => h.data.loaded (by simp [hpl])
        queue := by rw [ended_replan hpl]; exact h.data.queue }
  · exact h

end

end Machine

end Grbl
