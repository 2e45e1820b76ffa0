import Mathlib
import Grbl.Stepper.Rings

/-!
# The synchronised output commands

The list of commands belongs to the parser until a motion takes it over; the planner block frees it
when it is discarded, the interrupt reads it when it starts the block.

* `blockCommands`, `commandsUpTo`, `waiting` : where the nodes are;
* `CommandInv` : every node is freed by the parser, waits for a motion, or belongs to one;
* `CommandSafe` : the parser's list is alive, and the commands of a block are executed before the
  block is discarded;
* `commands_once_of_safe` : in a run of such steps every command is executed once and never used
  after it has been freed;
* `early_discard_executes_freed_command`, `exit_frees_commands_twice` : the other steps.
-/

namespace Grbl

open Lib

namespace Machine

/-- The commands block `b` took over. -/
def blockCommands (m : Machine) (b : ℕ) : List ℕ := (m.history.motion b).outputCommands

/-- The commands of the first `n` blocks. -/
def commandsUpTo (m : Machine) (n : ℕ) : List ℕ := (List.range' 1 n).flatMap m.blockCommands

def numberedUpTo (m : Machine) (n : ℕ) : List (ℕ × ℕ) :=
  (List.range' 1 n).flatMap fun b => (m.blockCommands b).map fun c => (c, b)

/-- The accepted commands that no motion has taken over. -/
def waiting (m : Machine) : List ℕ := m.outputCommands.filter fun n => m.heap.Live n

/-- The parser's list holds no node that has been freed. -/
def ListLive (m : Machine) : Prop := ∀ n ∈ m.outputCommands, m.heap.Live n

instance (m : Machine) : Decidable m.ListLive := inferInstanceAs (Decidable (∀ _ ∈ _, _))

/-- Where every node is, and what has been executed. -/
structure CommandInv (m : Machine) : Prop where
  faults : m.heap.faults = []
  account : (m.history.dropped ++ m.commandsUpTo m.history.queued ++ m.waiting).Perm
    (List.range m.heap.allocated)
  freed : m.heap.freed.Perm (m.history.dropped ++ m.commandsUpTo m.ended)
  executed : m.history.executed = m.numberedUpTo m.history.started
  early : ∀ b, m.history.started < b → b ≤ m.ended → m.blockCommands b = []
  taken : ∀ b, 0 < b → b ≤ m.history.queued → ∀ n ∈ m.blockCommands b, m.history.accepted n + 1 = b
  pending : ∀ n ∈ m.waiting, m.history.accepted n = m.history.queued

section
variable {m m' : Machine}

theorem CommandInv.stReset (size : ℕ) (segments : ℕ → Segment) (stBlocks : ℕ → StBlock)
    (position : Axis → ℤ) (isHoming : Bool) (lock : Axis → Bool) :
    CommandInv (stReset size segments stBlocks position isHoming lock) where
  faults := rfl
  account := List.Perm.refl _
  freed := List.Perm.refl _
  executed := rfl
  early := fun _ _ _ => rfl
  taken := fun _ _ _ _ hn => absurd hn List.not_mem_nil
  pending := fun _ hn => absurd hn List.not_mem_nil

theorem commandsUpTo_succ (n : ℕ) :
    m.commandsUpTo (n + 1) = m.commandsUpTo n ++ m.blockCommands (n + 1) := by
  rw [commandsUpTo, List.range'_concat, List.flatMap_append, List.flatMap_singleton, Nat.one_mul,
    Nat.add_comm 1 n]
  rfl

theorem numberedUpTo_succ (n : ℕ) :
    m.numberedUpTo (n + 1) = m.numberedUpTo n ++ (m.blockCommands (n + 1)).map fun c => (c, n + 1) := by
  rw [numberedUpTo, List.range'_concat, List.flatMap_append, List.flatMap_singleton, Nat.one_mul,
    Nat.add_comm 1 n]
  rfl

theorem numberedUpTo_fst (n : ℕ) : (m.numberedUpTo n).map Prod.fst = m.commandsUpTo n := by
  rw [numberedUpTo, commandsUpTo, List.map_flatMap]
  congr 1
  funext b
  simp [Function.comp_def]

theorem commandsUpTo_split {b n : ℕ} (hb : 0 < b) (hn : b ≤ n) :
    ∃ l, m.commandsUpTo n = m.commandsUpTo (b - 1) ++ m.blockCommands b ++ l := by
  obtain ⟨k, rfl⟩ : ∃ k, b = k + 1 := ⟨b - 1, by omega⟩
  induction n, hn using Nat.le_induction with
  | base => exact ⟨[], by rw [commandsUpTo_succ, List.append_nil]; rfl⟩
  | succ n _ ih =>
      obtain ⟨l, hl⟩ := ih
      exact ⟨l ++ m.blockCommands (n + 1), by rw [commandsUpTo_succ, hl, List.append_assoc]⟩

theorem commandsUpTo_sublist {a n : ℕ} (h : a ≤ n) :
    (m.commandsUpTo a).Sublist (m.commandsUpTo n) := by
  induction n, h using Nat.le_induction with
  | base => exact List.Sublist.refl _
  | succ n _ ih =>
      rw [commandsUpTo_succ]
      exact ih.trans (List.sublist_append_left _ _)

theorem mem_commandsUpTo {b n c : ℕ} (hb : 0 < b) (hn : b ≤ n) (hc : c ∈ m.blockCommands b) :
    c ∈ m.commandsUpTo n := by
  obtain ⟨l, hl⟩ := commandsUpTo_split (m := m) hb hn
  rw [hl]
  simp [hc]

theorem Sound.ended_le (hs : Sound m) : m.ended ≤ m.history.queued :=
  (Nat.sub_le _ _).trans hs.data.queued

theorem CommandInv.lt_allocated (h : CommandInv m) {n : ℕ}
    (hn : n ∈ m.history.dropped ∨ n ∈ m.commandsUpTo m.history.queued ∨ n ∈ m.waiting) :
    n < m.heap.allocated := by
  refine List.mem_range.1 (h.account.subset ?_)
  rcases hn with hn | hn | hn <;> simp [hn]

theorem CommandInv.nodup (h : CommandInv m) :
    (m.history.dropped ++ m.commandsUpTo m.history.queued ++ m.waiting).Nodup :=
  h.account.nodup_iff.2 List.nodup_range

theorem CommandInv.live_block (h : CommandInv m) {b : ℕ} (hb : m.ended < b)
    (hbq : b ≤ m.history.queued) :
    (m.blockCommands b).Nodup ∧ ∀ n ∈ m.blockCommands b, m.heap.Live n := by
  obtain ⟨l, hl⟩ := commandsUpTo_split (m := m) (Nat.zero_lt_of_lt hb) hbq
  have hnd := h.nodup
  rw [hl] at hnd
  simp only [List.nodup_append, List.mem_append] at hnd
  refine ⟨hnd.1.2.1.1.2.1, fun n hn => ⟨?_, fun hfreed => ?_⟩⟩
  · exact h.lt_allocated (Or.inr (Or.inl (mem_commandsUpTo (Nat.zero_lt_of_lt hb) hbq hn)))
  · rcases List.mem_append.1 (h.freed.subset hfreed) with hd | hc
    · exact hnd.1.2.2 n hd n (Or.inl (Or.inr hn)) rfl
    · have hc' := (commandsUpTo_sublist (m := m) (Nat.le_sub_one_of_lt hb)).subset hc
      exact hnd.1.2.1.1.2.2 n hc' n hn rfl

theorem waiting_of_live (hlive : m.ListLive) : m.waiting = m.outputCommands := by
  rw [waiting, List.filter_eq_self]
  intro n hn
  exact decide_eq_true (hlive n hn)

theorem commandsUpTo_congr {n : ℕ} (h : ∀ b ≤ n, m'.blockCommands b = m.blockCommands b) :
    m'.commandsUpTo n = m.commandsUpTo n ∧ m'.numberedUpTo n = m.numberedUpTo n := by
  have hmem : ∀ b ∈ List.range' 1 n, b ≤ n := fun b hb => by
    have := (List.mem_range'_1.1 hb).2
    omega
  refine ⟨List.flatMap_congr fun b hb => h b (hmem b hb), List.flatMap_congr fun b hb => ?_⟩
  rw [h b (hmem b hb)]

/-! ## The parser -/

theorem CommandInv.addOutputCommand (hs : Sound m) (h : CommandInv m) (hlive : m.ListLive) :
    CommandInv m.addOutputCommand := by
  have hheap : m.addOutputCommand.heap = m.heap.alloc := by
    rw [Machine.addOutputCommand, Heap.readAll_of_live hlive]
  have hnew : m.heap.allocated ∉ m.heap.freed := fun hmem => by
    refine lt_irrefl _ (h.lt_allocated ?_)
    rcases List.mem_append.1 (h.freed.subset hmem) with hd | hc
    · exact Or.inl hd
    · exact Or.inr (Or.inl ((commandsUpTo_sublist hs.ended_le).subset hc))
  have hlive' : m.addOutputCommand.ListLive := by
    intro n hn
    rw [hheap]
    rcases List.mem_append.1 hn with hn | hn
    · exact ⟨Nat.lt_succ_of_lt (hlive n hn).1, (hlive n hn).2⟩
    · rw [List.mem_singleton.1 hn]
      exact ⟨Nat.lt_succ_self _, hnew⟩
  have hwait : m.addOutputCommand.waiting = m.waiting ++ [m.heap.allocated] := by
    rw [waiting_of_live hlive', waiting_of_live hlive]
    rfl
  have hacc : ∀ n, n < m.heap.allocated →
      m.addOutputCommand.history.accepted n = m.history.accepted n := fun n hn =>
    Function.update_of_ne (Nat.ne_of_lt hn) _ _
  refine {
    faults := by rw [hheap]; exact h.faults
    account := ?_
    freed := by rw [hheap]; exact h.freed
    executed := h.executed
    early := h.early
    taken := fun b hb hbq n hn => ?_
    pending := fun n hn => ?_ }
  · rw [hwait, hheap, ← List.append_assoc]
    change List.Perm _ (List.range (m.heap.allocated + 1))
    rw [List.range_succ]
    exact h.account.append_right _
  · rw [hacc n (h.lt_allocated (Or.inr (Or.inl (mem_commandsUpTo hb hbq hn))))]
    exact h.taken b hb hbq n hn
  · rw [hwait] at hn
    rcases List.mem_append.1 hn with hn | hn
    · rw [hacc n (h.lt_allocated (Or.inr (Or.inr hn)))]
      exact h.pending n hn
    · rw [List.mem_singleton.1 hn]
      exact Function.update_self _ _ _

theorem CommandInv.gcAtExit (h : CommandInv m) (hlive : m.ListLive) : CommandInv m.gcAtExit := by
  have hwait := waiting_of_live hlive
  have hnd : m.outputCommands.Nodup := by
    rw [← hwait]
    exact (List.nodup_append.1 h.nodup).2.1
  have hheap : m.gcAtExit.heap =
      { m.heap with freed := m.outputCommands.reverse ++ m.heap.freed } :=
    Heap.freeAll_of_live hnd hlive
  have hwait' : m.gcAtExit.waiting = [] := by
    rw [waiting, List.filter_eq_nil_iff]
    intro n hn
    have hn' : n ∈ m.outputCommands := hn
    rw [hheap]
    simp [Heap.Live, hn']
  refine { h with
    faults := by rw [hheap]; exact h.faults
    account := ?_
    freed := ?_
    pending := fun n hn => by rw [hwait'] at hn; cases hn }
  · rw [hwait', hheap]
    change (m.history.dropped ++ m.outputCommands ++ m.commandsUpTo m.history.queued ++ []).Perm
      (List.range m.heap.allocated)
    have haccount := h.account
    rw [hwait] at haccount
    refine List.Perm.trans ?_ haccount
    rw [List.append_nil, List.append_assoc, List.append_assoc]
    exact List.perm_append_comm.append_left _
  · rw [hheap]
    change (m.outputCommands.reverse ++ m.heap.freed).Perm
      (m.history.dropped ++ m.outputCommands ++ m.commandsUpTo m.ended)
    refine ((List.reverse_perm _).append h.freed).trans ?_
    rw [← List.append_assoc]
    exact List.perm_append_comm.append_right _

theorem CommandInv.pushMotion (hs : Sound m) (h : CommandInv m) {x : Motion} {rest : List ℕ}
    (hx : x.outputCommands = m.waiting) (hrest : ∀ n ∈ rest, ¬m.heap.Live n) : CommandInv (m.pushMotion x rest) := by
  have hended := hs.ended_le
  have hqueued := hs.data.queued
  have hle := hs.order.steady.le
  have hload := hs.order.loaded
  have hold : ∀ b ≤ m.history.queued, (m.pushMotion x rest).blockCommands b = m.blockCommands b :=
    fun b hb => congrArg Motion.outputCommands (pushMotion_motion hb x rest)
  have hself : (m.pushMotion x rest).blockCommands (m.history.queued + 1) = m.waiting :=
    (congrArg Motion.outputCommands (pushMotion_motion_self x rest)).trans hx
  have hwait : (m.pushMotion x rest).waiting = [] := by
    rw [waiting, List.filter_eq_nil_iff]
    exact fun n hn hlive => hrest n hn (of_decide_eq_true hlive)
  refine { h with
    account := ?_
    freed := ?_
    executed := ?_
    early := fun b hb hbe => ?_
    taken := fun b hb hbq n hn => ?_
    pending := fun n hn => by rw [hwait] at hn; cases hn }
  · rw [hwait]
    change (m.history.dropped ++ (m.pushMotion x rest).commandsUpTo (m.history.queued + 1) ++ []).Perm _
    rw [commandsUpTo_succ, (commandsUpTo_congr hold).1, hself, List.append_nil, ← List.append_assoc]
    exact h.account
  · change m.heap.freed.Perm (m.history.dropped ++ (m.pushMotion x rest).commandsUpTo m.ended)
    rw [(commandsUpTo_congr fun b hb => hold b (hb.trans hended)).1]
    exact h.freed
  · change m.history.executed = (m.pushMotion x rest).numberedUpTo m.history.started
    rw [(commandsUpTo_congr fun b hb => hold b (by omega)).2]
    exact h.executed
  · rw [hold b (le_trans hbe hended)]
    exact h.early b hb hbe
  · rcases Nat.eq_or_lt_of_le hbq with rfl | hbq
    · exact congrArg (· + 1) (h.pending n (hself ▸ hn))
    · have hbq' := Nat.le_of_lt_succ hbq
      rw [hold b hbq'] at hn
      exact h.taken b hb hbq' n hn

/-! ## The segment generator and the interrupt -/

theorem CommandInv.discardBlock (hs : Sound m) (h : CommandInv m) (hphase : m.phase = .pushed)
    (hsafe : (m.stBlocks m.stPrepBlock).outputCommands = []) : CommandInv m.discardBlock := by
  have hended := hs.ended_pushed hphase
  have hended' := hs.ended_discardBlock hphase
  obtain ⟨l, hq⟩ := hs.queue_pushed hphase
  obtain ⟨hnd, hlive⟩ := h.live_block (b := m.history.loaded) (by omega) hs.data.queued
  have hheap : m.discardBlock.heap =
      { m.heap with freed := (m.blockCommands m.history.loaded).reverse ++ m.heap.freed } := by
    have hclear : m.discardBlock.heap =
        gcClearOutputCommands m.heap (m.blockCommands m.history.loaded) := by
      rw [Machine.discardBlock, hq]
      rfl
    exact hclear.trans (Heap.freeAll_of_live hnd hlive)
  have hwait : m.discardBlock.waiting = m.waiting := by
    refine List.filter_congr fun n hn => ?_
    by_cases hn' : m.heap.Live n
    · have hnot : n ∉ m.blockCommands m.history.loaded := fun hmem => by
        have hdisj := (List.nodup_append.1 h.nodup).2.2
        refine hdisj n ?_ n (List.mem_filter.2 ⟨hn, decide_eq_true hn'⟩) rfl
        exact List.mem_append.2 (Or.inr (mem_commandsUpTo (by omega) hs.data.queued hmem))
      have hlive' : m.discardBlock.heap.Live n := by
        rw [hheap]
        exact ⟨hn'.1, by simp [hnot, hn'.2]⟩
      simp [hn', hlive']
    · have hdead : ¬m.discardBlock.heap.Live n := fun hl => hn' (by
        rw [hheap] at hl
        exact ⟨hl.1, fun hmem => hl.2 (List.mem_append.2 (Or.inr hmem))⟩)
      simp [hn', hdead]
  refine { h with
    faults := by rw [hheap]; exact h.faults
    account := by rw [hwait, hheap]; exact h.account
    freed := ?_
    early := fun b hb hbe => ?_
    pending := fun n hn => h.pending n (by rw [← hwait]; exact hn) }
  · rw [hheap, hended']
    change (_ ++ m.heap.freed).Perm (m.history.dropped ++ m.commandsUpTo m.history.loaded)
    rw [← hended, commandsUpTo_succ, hended, ← List.append_assoc]
    exact List.perm_append_comm.trans (h.freed.append (List.reverse_perm _))
  · rw [hended', ← hended] at hbe
    rcases Nat.eq_or_lt_of_le hbe with rfl | hbe
    · have huse : m.InUse m.history.loaded := ⟨by omega, Or.inl rfl⟩
      have hb' : m.history.started < m.ended + 1 := hb
      rw [hs.data.prep, hs.data.data _ huse, blockData, if_neg (by omega)] at hsafe
      rw [hended]
      exact hsafe
    · exact h.early b hb (Nat.le_of_lt_succ hbe)

theorem CommandInv.startBlock (hs : Sound m) (h : CommandInv m) {q : ℕ × Segment}
    {l : List (ℕ × Segment)} (hfifo : m.history.fifo = q :: l) :
    CommandInv (m.startBlock q.2.execBlock q.1) := by
  obtain ⟨-, hpos, hentry⟩ := hs.tail hfifo
  have huse : m.InUse q.1 := ⟨hpos, Or.inr ⟨q, by rw [hfifo]; exact List.mem_cons_self, rfl⟩⟩
  have hle := (hs.inUse_bounds huse).2.1.trans hs.data.queued
  have hsteady := hs.order.steady
  rw [hfifo] at hsteady
  have hdata : m.stBlocks q.2.execBlock = m.blockData q.1 := by
    rw [hentry, hs.data.data q.1 huse]
  rcases hsteady.1 with hsame | hnext
  · -- the block has been started before, its commands have been executed
    have hnone : (m.stBlocks q.2.execBlock).outputCommands = [] := by
      rw [hdata, blockData, if_pos hsame.le]
      rfl
    have hheap : (m.startBlock q.2.execBlock q.1).heap = m.heap := by
      rw [Machine.startBlock, hnone]
      rfl
    have hwait : (m.startBlock q.2.execBlock q.1).waiting = m.waiting := by
      rw [waiting, hheap]
      rfl
    refine { h with
      faults := by rw [hheap]; exact h.faults
      account := by rw [hwait, hheap]; exact h.account
      freed := by rw [hheap]; exact h.freed
      executed := ?_
      early := fun b hb => h.early b (by rw [← hsame]; exact hb)
      pending := fun n hn => h.pending n (by rw [← hwait]; exact hn) }
    change m.history.executed ++ (m.stBlocks q.2.execBlock).outputCommands.map _ =
      m.numberedUpTo q.1
    rw [hnone, List.map_nil, List.append_nil, hsame]
    exact h.executed
  · have hcommands : (m.stBlocks q.2.execBlock).outputCommands = m.blockCommands q.1 := by
      rw [hdata, blockData, if_neg (by omega)]
      rfl
    have hlive : ∀ n ∈ m.blockCommands q.1, m.heap.Live n := by
      rcases Nat.lt_or_ge m.ended q.1 with hlt | hge
      · exact (h.live_block hlt hle).2
      · rw [h.early q.1 (by omega) hge]
        exact fun n hn => by cases hn
    have hheap : (m.startBlock q.2.execBlock q.1).heap = m.heap := by
      rw [Machine.startBlock, hcommands]
      exact Heap.readAll_of_live hlive
    have hwait : (m.startBlock q.2.execBlock q.1).waiting = m.waiting := by
      rw [waiting, hheap]
      rfl
    refine { h with
      faults := by rw [hheap]; exact h.faults
      account := by rw [hwait, hheap]; exact h.account
      freed := by rw [hheap]; exact h.freed
      executed := ?_
      early := fun b hb => h.early b (by change q.1 < b at hb; omega)
      pending := fun n hn => h.pending n (by rw [← hwait]; exact hn) }
    change m.history.executed ++ (m.stBlocks q.2.execBlock).outputCommands.map _ =
      m.numberedUpTo q.1
    rw [hcommands, hnext, numberedUpTo_succ, h.executed]

theorem CommandInv.pulseStart (h : CommandInv m) : CommandInv m.pulseStart := by
  unfold Machine.pulseStart
  split
  · exact h
  · exact { h with }

theorem CommandInv.enterBlock (hs : Sound m) (h : CommandInv m) {q : ℕ × Segment}
    {l : List (ℕ × Segment)} (hfifo : m.history.fifo = q :: l) : CommandInv (m.enterBlock q.2) := by
  have hnumber : m.tailNumber = q.1 := by rw [tailNumber, hfifo]
  rw [Machine.enterBlock, hnumber]
  split
  · exact h.startBlock hs hfifo
  · exact h

theorem CommandInv.tick (hs : Sound m) (h : CommandInv m) (hstep : m.tick = some m') :
    CommandInv m' := by
  have hp := h.pulseStart
  have hend : ∀ m₁ : Machine, CommandInv m₁ → CommandInv m₁.traceLine.endTick := by
    intro m₁ h₁
    unfold Machine.endTick
    split <;> exact { h₁ with }
  rcases tick_cases hstep with ⟨m₁, hf, rfl⟩ | ⟨-, -, rfl⟩
  · refine hend m₁ ?_
    rcases fetchSegment_cases hf with ⟨-, rfl⟩ | ⟨-, hne, rfl⟩
    · exact hp
    · obtain ⟨q, l, hfifo⟩ := hs.pulseStart.fifo_ne_nil hne
      have henter := hp.enterBlock hs.pulseStart hfifo
      rw [popSegment, (hs.pulseStart.tail hfifo).1]
      exact { henter with }
  · exact { hp with }

end

/-- The parser's list is alive when the parser uses it; a motion that is not handed the commands finds none waiting; when the
segment generator ends a block, the interrupt has taken its commands. -/
def CommandSafe (m : Machine) : StepperOp → Prop
  | .addCommand => m.ListLive
  | .motion handsOver _ sec _ => sec = 0 ∨ if handsOver then m.ListLive else m.waiting = []
  | .exit => m.ListLive
  | .endSegment _ => m.stepsRemaining = 0 → (m.stBlocks m.stPrepBlock).outputCommands = []
  | _ => True

instance (m : Machine) : DecidablePred (CommandSafe m)
  | .addCommand | .exit => inferInstanceAs (Decidable m.ListLive)
  | .motion handsOver _ sec _ =>
      inferInstanceAs (Decidable (sec = 0 ∨ if handsOver then m.ListLive else m.waiting = []))
  | .endSegment _ => inferInstanceAs (Decidable (_ → _))
  | .load | .segment .. | .bail | .replan | .resume | .tick => isTrue trivial

end Machine

/-! ## Runs -/

open Machine

theorem command_step {m m' : Machine} {op : StepperOp} (hs : Sound m) (h : CommandInv m)
    (hsafe : CommandSafe m op) (hstep : stepperStep m op = some m') : CommandInv m' := by
  cases op with
  | load =>
      obtain ⟨-, -, ⟨-, rfl⟩ | ⟨hpl, b, l, -, ⟨hvp, rfl⟩ | ⟨hvp, rfl⟩⟩⟩ := prepLoad_cases hstep
      · exact { h with }
      · have hended := ended_reloadBlock hvp
        exact { h with
          freed := by rw [hended]; exact h.freed
          early := fun b hb hbe => h.early b hb (by rw [← hended]; exact hbe) }
      · have hended := ended_loadBlock hpl hvp b
        exact { h with
          freed := by rw [hended]; exact h.freed
          early := fun c hc hce => h.early c hc (by rw [← hended]; exact hce) }
  | segment n level =>
      obtain ⟨-, -, -, rfl⟩ := prepSegment_cases hstep
      exact { h with }
  | bail =>
      obtain ⟨-, rfl⟩ := prepBail_cases hstep
      exact { h with }
  | endSegment hold =>
      obtain ⟨hphase, ⟨hz, rfl⟩ | ⟨-, rfl⟩⟩ := prepEnd_cases hstep
      · exact h.discardBlock hs hphase (hsafe hz)
      · exact { h with }
  | replan =>
      obtain ⟨-, ⟨hpl, rfl⟩ | ⟨-, rfl⟩⟩ := replan_cases hstep
      · have hended := ended_replan hpl
        exact { h with
          freed := by rw [hended]; exact h.freed
          early := fun b hb hbe => h.early b hb (by rw [← hended]; exact hbe) }
      · exact h
  | resume =>
      obtain ⟨-, rfl⟩ := resume_cases hstep
      exact { h with }
  | tick => exact h.tick hs hstep
  | addCommand =>
      cases hstep
      exact h.addOutputCommand hs hsafe
  | motion handsOver steps sec dir =>
      cases hstep
      rcases queueMotion_cases m handsOver steps sec dir with ⟨-, hm⟩ | ⟨hsec, ⟨rfl, hm⟩ | ⟨rfl, hm⟩⟩ <;> rw [hm]
      · exact h
      · exact h.pushMotion hs (waiting_of_live (hsafe.resolve_left hsec)).symm fun n hn => absurd hn List.not_mem_nil
      · have hnone : m.waiting = [] := hsafe.resolve_left hsec
        refine h.pushMotion hs hnone.symm fun n hn hlive => ?_
        rw [waiting, List.filter_eq_nil_iff] at hnone
        exact hnone n hn (decide_eq_true hlive)
  | exit =>
      cases hstep
      exact h.gcAtExit hsafe

theorem command_of_run {m m' : Machine} {ops : List StepperOp} (hs : Sound m) (h : CommandInv m)
    (hsafe : Along stepperStep CommandSafe m ops) (hrun : run stepperStep m ops = some m') :
    Sound m' ∧ CommandInv m' := by
  refine run_invariant_along (P := CommandSafe) (I := fun s => Sound s ∧ CommandInv s) ?_ ops m m'
    ⟨hs, h⟩ hsafe hrun
  exact fun s a s' hI hP hstep => ⟨sound_step hI.1 hstep, command_step hI.1 hI.2 hP hstep⟩

namespace Machine

/-- Every command is executed once, by the interrupt that starts the first motion after it, or is
discarded; none is used after it has been freed. -/
structure CommandsOnce (m : Machine) : Prop where
  /-- no node was read, executed or freed after it had been freed -/
  faults : m.heap.faults = []
  freed : m.heap.freed.Nodup
  /-- an accepted command was discarded, waits, or belongs to the first motion after it -/
  owner : ∀ n < m.heap.allocated, n ∈ m.history.dropped ∨ n ∈ m.waiting ∨
    m.history.accepted n < m.history.queued ∧ n ∈ m.blockCommands (m.history.accepted n + 1)
  /-- the commands of every block started were executed then, in their order -/
  executed : m.history.executed = m.numberedUpTo m.history.started
  once : (m.history.executed.map Prod.fst).Nodup
  dropped : ∀ n ∈ m.history.dropped, n ∉ m.history.executed.map Prod.fst
  /-- in the end every node has been freed -/
  all : m.queue = [] → m.waiting = [] → m.heap.freed.Perm (List.range m.heap.allocated)

theorem CommandInv.commandsOnce {m : Machine} (hs : Sound m) (h : CommandInv m) :
    m.CommandsOnce := by
  have hended := hs.ended_le
  have hstarted : m.history.started ≤ m.history.queued := by
    have hle := hs.order.steady.le
    have hload := hs.order.loaded
    have hqueued := hs.data.queued
    omega
  have hexec : m.history.executed.map Prod.fst = m.commandsUpTo m.history.started := by
    rw [h.executed, numberedUpTo_fst]
  have hnd := h.nodup
  have htaken := (List.nodup_append.1 (List.nodup_append.1 hnd).1)
  refine {
    faults := h.faults
    freed := ?_
    owner := fun n hn => ?_
    executed := h.executed
    once := ?_
    dropped := fun n hn hmem => ?_
    all := fun hq hw => ?_ }
  · refine h.freed.nodup_iff.2 ?_
    refine List.Nodup.sublist ?_ (List.nodup_append.1 hnd).1
    exact (List.Sublist.refl _).append (commandsUpTo_sublist hended)
  · have hmem := h.account.symm.subset (List.mem_range.2 hn)
    simp only [List.mem_append, or_assoc] at hmem
    rcases hmem with hd | hc | hw
    · exact Or.inl hd
    · obtain ⟨b, hb, hnb⟩ := List.mem_flatMap.1 hc
      have hb' := List.mem_range'_1.1 hb
      have hacc := h.taken b (by omega) (by omega) n hnb
      refine Or.inr (Or.inr ⟨by omega, ?_⟩)
      rw [hacc]
      exact hnb
    · exact Or.inr (Or.inl hw)
  · rw [hexec]
    exact htaken.2.1.sublist (commandsUpTo_sublist hstarted)
  · rw [hexec] at hmem
    exact htaken.2.2 n hn n ((commandsUpTo_sublist hstarted).subset hmem) rfl
  · have hqueue := hs.data.queue
    rw [hq] at hqueue
    simp only [List.nil_eq, List.map_eq_nil_iff, List.range'_eq_nil_iff] at hqueue
    have heq : m.ended = m.history.queued := by omega
    have haccount := h.account
    rw [hw, List.append_nil, ← heq] at haccount
    exact h.freed.trans haccount

end Machine

/-- In every run of safe steps the synchronised commands are executed once and freed once. -/
theorem commands_once_of_safe (size : ℕ) (segments : ℕ → Segment) (stBlocks : ℕ → StBlock)
    (position : Axis → ℤ) (isHoming : Bool) (lock : Axis → Bool) (ops : List StepperOp)
    (m : Machine) (hsize : 3 ≤ size)
    (hsafe : Along stepperStep CommandSafe
      (stReset size segments stBlocks position isHoming lock) ops)
    (hrun : run stepperStep (stReset size segments stBlocks position isHoming lock) ops = some m) :
    m.CommandsOnce := by
  obtain ⟨hs, h⟩ := command_of_run (Sound.stReset hsize segments stBlocks position isHoming lock)
    (CommandInv.stReset size segments stBlocks position isHoming lock) hsafe hrun
  exact h.commandsOnce hs

/-- An output command and a motion of two steps, with an interrupt after the first segment. -/
def commandThenMotion : List StepperOp :=
  [.addCommand, .motion true (fun _ => 2) 2 fun _ => false, .load, .segment 1 0, .endSegment false, .tick,
    .load, .segment 1 0, .endSegment false, .tick, .addCommand, .exit]

theorem commands_once_of_safe_commandThenMotion :
    ∃ m, run stepperStep exampleMachine commandThenMotion = some m ∧ m.CommandsOnce := by
  obtain ⟨m, hm⟩ := Option.isSome_iff_exists.1 (show (run stepperStep exampleMachine
    commandThenMotion).isSome by decide +kernel)
  refine ⟨m, hm, commands_once_of_safe 10 _ _ _ _ _ _ m (by decide) ?_ hm⟩
  change Along stepperStep CommandSafe exampleMachine commandThenMotion
  decide +kernel

/-- A motion cut into one segment is discarded before the interrupt starts it: its command is
executed after it has been freed. -/
theorem early_discard_executes_freed_command :
    ∃ m, run stepperStep exampleMachine [.addCommand, .motion true (fun _ => 1) 1 fun _ => false, .load,
      .segment 1 0, .endSegment false, .tick] = some m ∧
        m.history.executed = [(0, 1)] ∧ m.heap.freed = [0] ∧ ¬m.CommandsOnce := by
  have h : (run stepperStep exampleMachine [.addCommand, .motion true (fun _ => 1) 1 fun _ => false, .load,
      .segment 1 0, .endSegment false, .tick]).map (fun m =>
        (m.history.executed, m.heap.freed, m.heap.faults)) = some ([(0, 1)], [0], [0]) := by
    decide +kernel
  obtain ⟨m, hm, hval⟩ := Option.map_eq_some_iff.1 h
  simp only [Prod.mk.injEq] at hval
  refine ⟨m, hm, hval.1, hval.2.1, fun hc => ?_⟩
  rw [hc.faults] at hval
  cases hval.2.2

/-- After an error the parser still points at the commands it has freed: the next error frees them
again. -/
theorem exit_frees_commands_twice :
    ∃ m, run stepperStep exampleMachine [.addCommand, .exit, .exit] = some m ∧
      m.heap.freed = [0, 0] := by
  exact ⟨_, rfl, rfl⟩

end Grbl
