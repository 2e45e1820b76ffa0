import Mathlib
import Grbl.Stepper.Rings
import Grbl.Lib.Bresenham

/-!
# Weights of ticks under AMASS, and the invariant of the line tracer

Ticks at AMASS level `level` advance the counters by `2 ^ (3 - level)` eighths of what a whole step
event does, and a step event is cut into `2 ^ level` of them. So the weights of the ticks of a block
add up to eight times its step events, whatever the levels of its segments are.

* `tickWeight`, `Segment.weight`, `queuedWeight`, `toCome` : weights of ticks, segments and queues;
* `weight_cut`, `Motion.Regular.ofMotion`, `shift_level` : the shifts lose nothing;
* `Tracing` : the counters account for the weight behind and the pulses output;
* `Exact` : the invariant, with what the segment generator and the parser do to it.
-/

namespace Grbl

open Lib

/-- What a tick counts for, in eighths of a step event. -/
def tickWeight (level : ℕ) : ℕ := 2 ^ (maxAmassLevel - level)

def Segment.weight (s : Segment) : ℕ := s.nStep * tickWeight s.amassLevel

/-- The weight of the queued segments of block `b`. -/
def queuedWeight (b : ℕ) (l : List (ℕ × Segment)) : ℕ :=
  (l.map fun q => if q.1 = b then q.2.weight else 0).sum

/-- The motion of `n` steps. -/
def travel (direction : Bool) (n : ℕ) : ℤ := if direction then -n else n

/-- No axis steps more often than the block has step events, and the events can be shifted. -/
structure Motion.Regular (b : Motion) : Prop where
  steps : ∀ i, b.steps i ≤ b.stepEventCount
  pos : 0 < b.stepEventCount
  lt : b.stepEventCount < 2 ^ 28

section
variable {b : ℕ} {l : List (ℕ × Segment)}

@[simp] theorem queuedWeight_nil : queuedWeight b [] = 0 := rfl

@[simp] theorem queuedWeight_cons (q : ℕ × Segment) :
    queuedWeight b (q :: l) = (if q.1 = b then q.2.weight else 0) + queuedWeight b l := by
  simp [queuedWeight]

theorem queuedWeight_concat (q : ℕ × Segment) :
    queuedWeight b (l ++ [q]) = queuedWeight b l + if q.1 = b then q.2.weight else 0 := by
  simp [queuedWeight]

theorem queuedWeight_eq_zero (h : ∀ q ∈ l, q.1 ≠ b) : queuedWeight b l = 0 := by
  induction l with
  | nil => rfl
  | cons q l ih =>
      rw [queuedWeight_cons, if_neg (h q List.mem_cons_self),
        ih fun p hp => h p (List.mem_cons_of_mem _ hp)]

theorem travel_add_one (d : Bool) (n : ℕ) :
    travel d (n + 1) = travel d n + if d then -1 else 1 := by
  cases d <;> simp [travel]
  ring

theorem u32_of_lt {x : ℕ} (h : x < 2 ^ 32) : u32 x = x := Nat.mod_eq_of_lt h

theorem weight_cut {n level e : ℕ} (hn : n < 2 ^ 28) (hl : level ≤ maxAmassLevel) :
    Segment.weight ⟨e, u32 (n <<< level), level⟩ = 8 * n := by
  have hpow : 2 ^ level * 2 ^ (maxAmassLevel - level) = 8 := by
    rw [← pow_add, Nat.add_sub_cancel' hl]
    rfl
  have hle : 2 ^ level ≤ 8 := Nat.pow_le_pow_right (by decide) hl
  have hlt : n * 2 ^ level < 2 ^ 32 := by nlinarith
  rw [Segment.weight, tickWeight, Nat.shiftLeft_eq, u32_of_lt hlt, Nat.mul_assoc, hpow, Nat.mul_comm]

theorem Motion.Regular.ofMotion {b : Motion} (h : b.Regular) :
    (StBlock.ofMotion b).stepEventCount = 8 * b.stepEventCount ∧
      ∀ i, (StBlock.ofMotion b).steps i = b.steps i * 8 := by
  have hlt := h.lt
  constructor
  · change u32 (b.stepEventCount <<< 3) = _
    rw [Nat.shiftLeft_eq, u32_of_lt (by omega)]
    omega
  · intro i
    have hle := h.steps i
    change u32 (b.steps i <<< 3) = _
    rw [Nat.shiftLeft_eq, u32_of_lt (by omega)]

theorem shift_level {n level : ℕ} (hl : level ≤ maxAmassLevel) :
    (n * 8) >>> level = n * tickWeight level := by
  have hpow : 8 = tickWeight level * 2 ^ level := by
    rw [tickWeight, ← pow_add, Nat.sub_add_cancel hl]
    rfl
  rw [Nat.shiftRight_eq_div_pow, hpow, ← Nat.mul_assoc, Nat.mul_div_cancel _ (by positivity)]

theorem tickWeight_le (level : ℕ) : tickWeight level ≤ 8 :=
  Nat.pow_le_pow_right (by decide) (Nat.sub_le _ _)

end

namespace Machine

def current (m : Machine) : Motion := m.history.motion m.history.started

/-- The weight of the steps of block `b` not yet cut into segments. -/
def uncut (m : Machine) (b : ℕ) : ℕ := if b = m.history.loaded then 8 * m.stepsRemaining else 0

/-- The weight of the block last started that has not been executed. -/
def toCome (m : Machine) : ℕ :=
  (if m.st.execSegment ≠ none ∧ m.st.stepCount ≠ 0 then
    m.st.stepCount * tickWeight m.st.amassLevel + queuedWeight m.history.started m.history.fifo.tail
  else queuedWeight m.history.started m.history.fifo) + m.uncut m.history.started

/-- The pulses of the last tick, which the next one outputs. -/
def pending (m : Machine) (i : Axis) : ℕ := if m.st.stepOut i then 1 else 0

/-- Block `b`, started at `origin`, with the weight `a` behind and `p` pulses traced. -/
structure Tracing (s : Stepper) (b : Motion) (origin position : Axis → ℤ) (p : Axis → ℕ) (a : ℕ) :
    Prop where
  stepEventCount : s.stepEventCount = 8 * b.stepEventCount
  direction : s.dirOut = b.direction
  counter : ∀ i, Traced (8 * b.stepEventCount) (4 * b.stepEventCount) (s.counter i) (p i)
    (b.steps i * a)
  position : ∀ i, position i = origin i + travel (b.direction i) (p i)

/-- Every axis got its pulses for block `b`, and moved accordingly up to the position `stop`. -/
def Complete (m : Machine) (b : ℕ) (stop : Axis → ℤ) : Prop :=
  ∀ i, m.history.emitted b i = (m.history.motion b).steps i ∧
    stop i = m.history.startPosition b i +
      travel ((m.history.motion b).direction i) ((m.history.motion b).steps i)

/-- The invariant; `out` are pulses traced but not output. -/
structure Exact (m : Machine) (out : Axis → ℕ) : Prop where
  isHoming : m.isHoming = false
  motions : ∀ b, 0 < b → b ≤ m.history.queued → (m.history.motion b).Regular
  segments : ∀ q ∈ m.history.fifo, 0 < q.2.nStep ∧ q.2.amassLevel ≤ maxAmassLevel
  prepared : m.plBlock = false → m.velocityProfile = false → m.stepsRemaining = 0
  future : ∀ b, m.history.started < b → b ≤ m.history.loaded →
    queuedWeight b m.history.fifo + m.uncut b = 8 * (m.history.motion b).stepEventCount
  unstarted : ∀ b, m.history.started < b → ∀ i, m.history.emitted b i = 0
  complete : ∀ b, 0 < b → b < m.history.started → m.Complete b (m.history.startPosition (b + 1))
  idle : m.st.execBlock = none →
    m.toCome = 0 ∧ (0 < m.history.started → m.Complete m.history.started m.position)
  active : m.st.execBlock ≠ none → 0 < m.history.started ∧
    ∃ a, a + m.toCome = 8 * m.current.stepEventCount ∧
      Tracing m.st m.current (m.history.startPosition m.history.started) m.position
        (fun i => m.history.emitted m.history.started i + out i) a
  increment : m.st.execSegment ≠ none → m.st.stepCount ≠ 0 →
    m.st.amassLevel ≤ maxAmassLevel ∧
      ∀ i, m.st.steps i = m.current.steps i * tickWeight m.st.amassLevel

section
variable {m : Machine} {out : Axis → ℕ}

theorem Exact.regular (hs : Sound m) (h : Exact m out) (hpos : 0 < m.history.started) :
    m.current.Regular := by
  have hle := hs.order.steady.le
  have hload := hs.order.loaded
  have hqueued := hs.data.queued
  exact h.motions _ hpos (by omega)

theorem Sound.queuedWeight_of_lt (hs : Sound m) {b : ℕ} (hb : m.history.loaded < b) :
    queuedWeight b m.history.fifo = 0 := by
  refine queuedWeight_eq_zero fun q hq => ?_
  have hmem := hs.order.steady.mem q hq
  have hload := hs.order.loaded
  omega

theorem Tracing.complete {s : Stepper} {b : Motion} {origin position : Axis → ℤ} {p : Axis → ℕ}
    {a : ℕ} (ht : Tracing s b origin position p a) (hreg : b.Regular)
    (ha : a = 8 * b.stepEventCount) : ∀ i, p i = b.steps i := by
  intro i
  have hpos := hreg.pos
  have htr := ht.counter i
  rw [ha] at htr
  exact (htr.finish (by omega) (by omega)).1

theorem Exact.complete_of_toCome (hs : Sound m) (h : Exact m fun _ => 0)
    (hexec : m.st.execBlock ≠ none) (hz : m.toCome = 0) :
    m.Complete m.history.started m.position := by
  obtain ⟨hpos, a, ha, ht⟩ := h.active hexec
  rw [hz, Nat.add_zero] at ha
  have hp := ht.complete (h.regular hs hpos) ha
  intro i
  have hpi := hp i
  simp only [Nat.add_zero] at hpi
  refine ⟨hpi, ?_⟩
  rw [ht.position i, Nat.add_zero, hpi]
  rfl

theorem Exact.stepsRemaining_lt (hs : Sound m) (h : Exact m out) : m.stepsRemaining < 2 ^ 28 := by
  have hle := hs.order.steady.le
  have hload := hs.order.loaded
  have hqueued := hs.data.queued
  rcases Nat.lt_or_ge m.history.started m.history.loaded with hlt | hge
  · have hf := h.future _ hlt le_rfl
    have hreg := (h.motions _ (by omega) hqueued).lt
    rw [uncut, if_pos rfl] at hf
    omega
  · have heq : m.history.started = m.history.loaded := by omega
    have huncut : m.uncut m.history.started = 8 * m.stepsRemaining := if_pos heq
    have hcome : m.uncut m.history.started ≤ m.toCome := Nat.le_add_left _ _
    by_cases hexec : m.st.execBlock = none
    · have hz := (h.idle hexec).1
      omega
    · obtain ⟨hpos, a, ha, -⟩ := h.active hexec
      have hreg := (h.regular hs hpos).lt
      omega

end

/-! ## Reset and segment generator -/

theorem Exact.stReset (size : ℕ) (segments : ℕ → Segment) (stBlocks : ℕ → StBlock)
    (position : Axis → ℤ) (lock : Axis → Bool) (out : Axis → ℕ) :
    Exact (stReset size segments stBlocks position false lock) out where
  isHoming := rfl
  motions := fun b hb hle => absurd hle (by change ¬b ≤ 0; omega)
  segments := fun q hq => absurd hq List.not_mem_nil
  prepared := fun _ _ => rfl
  future := fun b hb hle => absurd (Nat.lt_of_lt_of_le hb hle) (lt_irrefl 0)
  unstarted := fun _ _ _ => rfl
  complete := fun b _ hb => absurd hb (Nat.not_lt_zero b)
  idle := fun _ => ⟨rfl, fun h => absurd h (lt_irrefl 0)⟩
  active := fun h => absurd rfl h
  increment := fun h => absurd rfl h

section
variable {m m' : Machine} {out : Axis → ℕ}

theorem Exact.loadBlock (hs : Sound m) (h : Exact m out) (hpl : m.plBlock = false)
    (hvp : m.velocityProfile = false) {b : Motion} {l : List Motion} (hq : m.queue = b :: l) :
    Exact (m.loadBlock b) out := by
  have hrem := h.prepared hpl hvp
  have hended := ended_of_idle hpl hvp
  have hb := (hs.queue_cons hq).1
  rw [hended] at hb
  have hle := hs.order.steady.le
  have hload := hs.order.loaded
  have huncut : ∀ c, m.uncut c = 0 := by
    intro c
    rw [uncut, hrem]
    split <;> rfl
  have hne : ∀ c, c ≠ m.history.loaded + 1 → (m.loadBlock b).uncut c = 0 := fun c hc => if_neg hc
  have hcome : (m.loadBlock b).toCome = m.toCome := by
    have hstarted : (m.loadBlock b).uncut m.history.started = m.uncut m.history.started := by
      rw [huncut, hne _ (by omega)]
    exact congrArg (_ + ·) hstarted
  refine { h with
    prepared := fun hp => by cases hp
    future := ?_
    idle := fun he => ⟨hcome.trans (h.idle he).1, (h.idle he).2⟩
    active := fun he => ?_ }
  · intro c hc hcl
    change queuedWeight c m.history.fifo + (m.loadBlock b).uncut c =
      8 * (m.history.motion c).stepEventCount
    by_cases hnew : c = m.history.loaded + 1
    · subst hnew
      have hself : (m.loadBlock b).uncut (m.history.loaded + 1) = 8 * b.stepEventCount := if_pos rfl
      rw [hs.queuedWeight_of_lt (Nat.lt_succ_self _), hself, ← hb, Nat.zero_add]
    · have hcl' : c ≤ m.history.loaded + 1 := hcl
      have hf := h.future c hc (by omega)
      rw [huncut] at hf
      rw [hne c hnew]
      exact hf
  · obtain ⟨hpos, a, ha, ht⟩ := h.active he
    exact ⟨hpos, a, by rw [hcome]; exact ha, ht⟩

theorem cut_balance {n : ℕ} {seg : Segment} (hn : n ≤ m.stepsRemaining)
    (hw : seg.weight = 8 * n) (b : ℕ) (l : List (ℕ × Segment)) :
    queuedWeight b (l ++ [(m.history.loaded, seg)]) + (m.pushSegment n seg).uncut b =
      queuedWeight b l + m.uncut b := by
  have huncut : (m.pushSegment n seg).uncut b =
      if b = m.history.loaded then 8 * (m.stepsRemaining - n) else 0 := rfl
  rw [queuedWeight_concat, huncut, uncut, hw]
  by_cases hb : b = m.history.loaded
  · rw [if_pos hb.symm, if_pos hb, if_pos hb]
    omega
  · rw [if_neg (Ne.symm hb), if_neg hb, if_neg hb]

theorem Exact.pushSegment (hs : Sound m) (h : Exact m out) (hphase : m.phase = .ready)
    {n level : ℕ} (hpos : 0 < n) (hn : n ≤ m.stepsRemaining) (hl : level ≤ maxAmassLevel) :
    Exact (m.pushSegment n ⟨m.stPrepBlock, u32 (n <<< level), level⟩) out := by
  have hlt := h.stepsRemaining_lt hs
  have hw : Segment.weight ⟨m.stPrepBlock, u32 (n <<< level), level⟩ = 8 * n :=
    weight_cut (by omega) hl
  generalize hseg : (⟨m.stPrepBlock, u32 (n <<< level), level⟩ : Segment) = seg at hw ⊢
  have hnstep : 0 < seg.nStep ∧ seg.amassLevel ≤ maxAmassLevel := by
    refine ⟨Nat.pos_of_ne_zero fun hz => ?_, by rw [← hseg]; exact hl⟩
    rw [Segment.weight, hz, Nat.zero_mul] at hw
    omega
  have hcome : (m.pushSegment n seg).toCome = m.toCome := by
    have hbal := cut_balance hn hw m.history.started
    rw [toCome, toCome]
    by_cases hlive : m.st.execSegment ≠ none ∧ m.st.stepCount ≠ 0
    · obtain ⟨t, ht⟩ := Option.ne_none_iff_exists'.1 hlive.1
      obtain ⟨-, q, l, hfifo, -⟩ := hs.order.active t ht hlive.2
      have hlive' : (m.pushSegment n seg).st.execSegment ≠ none ∧
          (m.pushSegment n seg).st.stepCount ≠ 0 := hlive
      have htail : (m.pushSegment n seg).history.fifo.tail = l ++ [(m.history.loaded, seg)] := by
        change (m.history.fifo ++ [_]).tail = _
        rw [hfifo]
        rfl
      have := hbal l
      rw [if_pos hlive, if_pos hlive', htail, hfifo, List.tail_cons]
      change _ + queuedWeight m.history.started _ + _ = _
      change m.st.stepCount * tickWeight m.st.amassLevel + _ + _ = _
      have huncut : (m.pushSegment n seg).uncut (m.pushSegment n seg).history.started =
        (m.pushSegment n seg).uncut m.history.started := rfl
      omega
    · rw [if_neg hlive, if_neg (show ¬((m.pushSegment n seg).st.execSegment ≠ none ∧
        (m.pushSegment n seg).st.stepCount ≠ 0) from hlive)]
      exact hbal m.history.fifo
  have hpl := (hs.order.ready hphase).1
  refine { h with
    segments := ?_
    prepared := fun hp => ?_
    future := fun b hb hbl => ?_
    idle := fun he => ⟨hcome.trans (h.idle he).1, (h.idle he).2⟩
    active := fun he => ?_ }
  · intro q hq
    rcases List.mem_append.1 hq with hq | hq
    · exact h.segments q hq
    · rw [List.mem_singleton.1 hq]
      exact hnstep
  · cases hpl.symm.trans hp
  · exact (cut_balance hn hw b m.history.fifo).trans (h.future b hb hbl)
  · obtain ⟨hpos, a, ha, ht⟩ := h.active he
    exact ⟨hpos, a, by rw [hcome]; exact ha, ht⟩

theorem Exact.pushMotion (hs : Sound m) (h : Exact m out) {x : Motion} (hx : x.Regular)
    (rest : List ℕ) : Exact (m.pushMotion x rest) out := by
  have hqueued := hs.data.queued
  have hle := hs.order.steady.le
  have hload := hs.order.loaded
  have hold : ∀ b, b ≤ m.history.queued →
      (m.pushMotion x rest).history.motion b = m.history.motion b := fun b hb => pushMotion_motion hb x rest
  have hcur : (m.pushMotion x rest).current = m.current :=
    hold m.history.started (by omega)
  refine { h with
    motions := fun b hb hbq => ?_
    future := fun b hb hbl => ?_
    complete := fun b hb hbs i => ?_
    idle := fun he => ⟨(h.idle he).1, fun hpos i => ?_⟩
    active := fun he => ?_
    increment := fun he hc => ⟨(h.increment he hc).1, fun i => ?_⟩ }
  · rcases Nat.eq_or_lt_of_le hbq with rfl | hbq
    · exact (pushMotion_motion_self (m := m) x rest).symm ▸ hx
    · rw [hold b (Nat.le_of_lt_succ hbq)]
      exact h.motions b hb (Nat.le_of_lt_succ hbq)
  · have hbl' : b ≤ m.history.loaded := hbl
    rw [hold b (by omega)]
    exact h.future b hb hbl
  · have hbs' : b < m.history.started := hbs
    rw [hold b (by omega)]
    exact h.complete b hb hbs i
  · have hcur' : (m.pushMotion x rest).history.motion (m.pushMotion x rest).history.started =
        m.history.motion m.history.started := hcur
    rw [hcur']
    exact (h.idle he).2 hpos i
  · obtain ⟨hpos, a, ha, ht⟩ := h.active he
    rw [hcur]
    exact ⟨hpos, a, ha, ht⟩
  · rw [hcur]
    exact (h.increment he hc).2 i

end

end Machine

end Grbl
