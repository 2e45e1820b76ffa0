import Grbl.Lib.StableSort
import Grbl.Tasks.Delivery

/-!
# Delayed tasks are executed in the order they are due

* `insertDelayed_sorted` : where a task gets in the list of delayed tasks;
* `Scheduler.InDueOrder` : what is executed, and pending, is in order; `Scheduler.InTime` : when it is;
* `Queued` : what holds between steps; `Queued.add`, `Queued.delete`, `Queued.go`, `Queued.step`;
* `in_due_order_of_safe` : the runs; `tie_with_head_overtakes` : one that is not in order.
-/

namespace Grbl.CoreTask
open Lib

variable {F D : Type}

/-! ## Where a task gets -/

theorem signedDiff_eq {a b : ℕ} (h : a < b + 2 ^ 31) (h' : b < a + 2 ^ 31) : signedDiff a b = (a : ℤ) - b :=
  Int.bmod_eq_of_le (by omega) (by omega)

section
variable {t : Tasks F D} {l : List ℕ} {task : ℕ}

theorem insertDelayed_sorted (hl : Linked t.next t.delayed l) (hlen : l.length ≤ coreTaskPoolSize) (hnot : task ∉ l)
    (hnext : t.next task = none) (hsorted : l.Pairwise (t.time · ≤ t.time ·))
    (hnear : ∀ j ∈ l, t.time j < t.time task + 2 ^ 31 ∧ t.time task < t.time j + 2 ^ 31)
    (hhead : ∀ a ∈ t.delayed, t.time a ≠ t.time task) :
    ∃ l₁ l₂, l = l₁ ++ l₂ ∧ Linked (insertDelayed t task).next (insertDelayed t task).delayed (l₁ ++ task :: l₂) ∧
      (∀ j ∈ l₁, t.time j ≤ t.time task) ∧ ∀ j ∈ l₂, t.time task < t.time j := by
  have hdiff : ∀ j ∈ l, signedDiff (t.time task) (t.time j) = (t.time task : ℤ) - t.time j :=
    fun j hj => signedDiff_eq (hnear j hj).2 (hnear j hj).1
  cases l with
  | nil =>
      have hnil : t.delayed = none := hl
      refine ⟨[], [], rfl, ?_⟩
      simp [insertDelayed, hnil, hnext]
  | cons a l =>
      have hfirst : t.delayed = some a := hl.head
      have hne : t.time a ≠ t.time task := hhead a hfirst
      have hafter : ∀ j ∈ l, t.time a ≤ t.time j := (List.pairwise_cons.1 hsorted).1
      simp only [insertDelayed, hfirst, hdiff a List.mem_cons_self]
      split
      case isTrue hle =>
        have hlt : t.time task < t.time a := by omega
        refine ⟨[], a :: l, rfl, ⟨rfl, ?_⟩, (by rintro _ ⟨⟩), List.forall_mem_cons.2 ⟨hlt, fun j hj => hlt.trans_le (hafter j hj)⟩⟩
        have hl' : Linked t.next (some a) (a :: l) := hfirst ▸ hl
        dsimp only
        rw [Function.update_self]
        refine hl'.congr fun j hj => Function.update_of_ne ?_ ..
        rintro rfl
        exact hnot hj
      case isFalse hlt =>
        obtain ⟨l₁, l₂, heq, hl₂⟩ := seek_linked (fun b => decide (signedDiff (t.time task) (t.time b) < 0))
          hl (Nat.le_of_succ_le hlen)
        generalize seek t.next (fun b => decide (signedDiff (t.time task) (t.time b) < 0)) coreTaskPoolSize a = prev
          at heq
        -- the loop stops in front of the first task that is due later
        have hbefore : l₁ ++ [prev] = a :: l.takeWhile fun b => !decide (signedDiff (t.time task) (t.time b) < 0) := by
          have hsplit := List.takeWhile_append_dropWhile (p := fun b => !decide (signedDiff (t.time task) (t.time b) < 0)) (l := l)
          rw [← hl₂] at hsplit
          have happend : (l₁ ++ [prev]) ++ l₂ =
              (a :: l.takeWhile fun b => !decide (signedDiff (t.time task) (t.time b) < 0)) ++ l₂ := by
            rw [List.append_assoc, List.singleton_append, ← heq, List.cons_append, hsplit]
          exact List.append_cancel_right happend
        have hmem₂ : ∀ j ∈ l₂, j ∈ l := fun j hj => (List.dropWhile_suffix _).subset (hl₂ ▸ hj)
        refine ⟨l₁ ++ [prev], l₂, by simpa using heq, ?_, ?_, ?_⟩
        · rw [heq] at hl hnot
          have hins := hl.insert hnot
          rw [hfirst] at hins
          simpa using hins
        · rw [hbefore]
          refine List.forall_mem_cons.2 ⟨by omega, fun j hj => ?_⟩
          have hstop := List.mem_takeWhile_imp hj
          rw [hdiff j (List.mem_cons_of_mem _ ((List.takeWhile_prefix _).subset hj))] at hstop
          simp only [Bool.not_eq_true', decide_eq_false_iff_not] at hstop
          omega
        · cases l₂ with
          | nil => rintro _ ⟨⟩
          | cons b l₃ =>
              have hb := List.head?_dropWhile_not (fun b => !decide (signedDiff (t.time task) (t.time b) < 0)) l
              rw [← hl₂] at hb
              have hlt : signedDiff (t.time task) (t.time b) < 0 := by simpa using hb
              rw [hdiff b (List.mem_cons_of_mem _ (hmem₂ b List.mem_cons_self))] at hlt
              have hsorted₂ : (b :: l₃).Pairwise (t.time · ≤ t.time ·) :=
                (List.pairwise_cons.1 hsorted).2.sublist (hl₂ ▸ List.dropWhile_sublist _)
              refine List.forall_mem_cons.2 ⟨by omega, fun j hj => ?_⟩
              have hle := (List.pairwise_cons.1 hsorted₂).1 j hj
              omega

end

/-! ## In order -/

section
variable (s : Scheduler F D)

/-- The list is sorted, and what has been executed, followed by the list, is what has been added and not deleted, in the order
of the times, and of the calls for one time. -/
structure Scheduler.InDueOrder : Prop where
  sorted : (s.tasks.chain s.tasks.delayed).Pairwise fun i j => signedDiff (s.tasks.time i) (s.tasks.time j) ≤ 0
  executed : ∃ kept, kept.Sublist s.history.delayed ∧ (kept ++ s.history.deleted).Perm s.history.delayed ∧
    StableSorted Prod.snd kept
      (s.history.delayedRun.map Prod.fst ++ (s.tasks.chain s.tasks.delayed).map s.tasks.timed)

/-- * a task is added within `2^31 - 1` ticks of all that are pending, and not for the same tick as the first of them;
* `task_delete` does not delete the task that a round has read and is about to take out, unless it is due later. -/
def Scheduler.InTime [DecidableEq F] [DecidableEq D] : Action F D → Prop
  | .addDelayed fn _ delay => s.Accepts fn →
      (∀ j ∈ s.tasks.chain s.tasks.delayed, s.tasks.time j < s.ticks + delay + 2 ^ 31 ∧ s.ticks + delay < s.tasks.time j + 2 ^ 31) ∧
        ∀ a ∈ s.tasks.delayed, s.tasks.time a ≠ s.ticks + delay
  | .delete fn data => ∀ task ∈ (findDelayed s.tasks fn data).1, ∀ f ∈ s.frames, ∀ r ∈ f.taking,
      r.2 = task → r.1 < s.tasks.time task
  | _ => True

instance [DecidableEq F] [DecidableEq D] : (a : Action F D) → Decidable (s.InTime a)
  | .addDelayed _ _ _ => inferInstanceAs (Decidable (_ → _ ∧ ∀ a ∈ s.tasks.delayed, _))
  | .delete fn data => inferInstanceAs (Decidable (∀ task ∈ (findDelayed s.tasks fn data).1, ∀ f ∈ s.frames,
      ∀ r ∈ f.taking, _ → _))
  | .addImmediate _ _ | .runOnReset _ _ | .tick | .warm | .execute | .executeOnStartup | .go | .finish => isTrue trivial

end

/-- The task that a round has read is the first one, or there is none that is due earlier than the round, and at most one
that is due as early. -/
def TakesFirst (t : Tasks F D) (del : List ℕ) (now task : ℕ) : Prop :=
  t.delayed = some task ∨ (∀ j ∈ del, now ≤ t.time j) ∧ ∀ j ∈ del, t.time j = now → t.delayed = some j

/-- What holds between steps, when the delayed tasks are `del`. -/
structure Queued (s : Scheduler F D) (del : List ℕ) : Prop where
  past : ∀ r ∈ s.history.delayedRun, r.1.2 ≤ s.ticks
  near : ∀ i ∈ del, ∀ j ∈ del, s.tasks.time i < s.tasks.time j + 2 ^ 31
  order : ∃ kept, kept.Sublist s.history.delayed ∧ (kept ++ s.history.deleted).Perm s.history.delayed ∧
    StableSorted Prod.snd kept (s.history.delayedRun.map Prod.fst ++ del.map s.tasks.timed)
  frames : ∀ f ∈ s.frames, ∀ r ∈ f.taking, TakesFirst s.tasks del r.1 r.2

structure SameDelayed (s s' : Scheduler F D) (del : List ℕ) : Prop where
  head : s'.tasks.delayed = s.tasks.delayed
  timed : ∀ j ∈ del, s'.tasks.timed j = s.tasks.timed j
  added : s'.history.delayed = s.history.delayed
  run : s'.history.delayedRun = s.history.delayedRun
  deleted : s'.history.deleted = s.history.deleted
  ticks : s.ticks ≤ s'.ticks

namespace Queued

variable {s s' : Scheduler F D} {det imm del res : List ℕ} {task : ℕ}

theorem sorted (q : Queued s del) : del.Pairwise (s.tasks.time · ≤ s.tasks.time ·) := by
  obtain ⟨kept, -, -, hsort⟩ := q.order
  have hmap := (List.pairwise_append.1 hsort.sorted).2.1
  rw [List.pairwise_map] at hmap
  exact hmap

theorem of_same (q : Queued s del) (hsame : SameDelayed s s' del)
    (hframes : ∀ f ∈ s'.frames, ∀ r ∈ f.taking, TakesFirst s.tasks del r.1 r.2) : Queued s' del := by
  have htime : ∀ j ∈ del, s'.tasks.time j = s.tasks.time j := fun j hj => congrArg Prod.snd (hsame.timed j hj)
  refine ⟨?_, fun i hi j hj => ?_, ?_, fun f hf r hr => ?_⟩
  · rw [hsame.run]
    exact fun r hr => (q.past r hr).trans hsame.ticks
  · rw [htime i hi, htime j hj]
    exact q.near i hi j hj
  · rw [hsame.added, hsame.deleted, hsame.run, List.map_congr_left hsame.timed]
    exact q.order
  · obtain hfirst | ⟨hlater, hone⟩ := hframes f hf r hr
    · exact .inl (hsame.head.trans hfirst)
    · refine .inr ⟨fun j hj => (htime j hj).symm ▸ hlater j hj, fun j hj hnow => ?_⟩
      rw [htime j hj] at hnow
      exact hsame.head.trans (hone j hj hnow)

theorem insert (q : Queued s del) (t' : Tasks F D) {l₁ l₂ : List ℕ} (hdel : del = l₁ ++ l₂) (hnot : task ∉ del)
    (hfirst : s.tasks.delayed = del.head?) (hfirst' : t'.delayed = (l₁ ++ task :: l₂).head?)
    (htimed : ∀ j ∈ del, t'.timed j = s.tasks.timed j) (hfuture : s.ticks ≤ t'.time task)
    (hbefore : ∀ j ∈ l₁, t'.time j ≤ t'.time task) (hbehind : ∀ j ∈ l₂, t'.time task < t'.time j)
    (hnear : ∀ j ∈ del, t'.time j < t'.time task + 2 ^ 31 ∧ t'.time task < t'.time j + 2 ^ 31)
    (htie : ∀ a ∈ s.tasks.delayed, s.tasks.time a ≠ t'.time task)
    (hnow : ∀ f ∈ s.frames, ∀ r ∈ f.taking, r.1 ≤ s.ticks) :
    Queued { s with
      tasks := t'
      history := { s.history with delayed := s.history.delayed ++ [t'.timed task] } } (l₁ ++ task :: l₂) := by
  have htime : ∀ j ∈ del, t'.time j = s.tasks.time j := fun j hj => congrArg Prod.snd (htimed j hj)
  have hmem : ∀ j, j ∈ l₁ ++ task :: l₂ ↔ j = task ∨ j ∈ del := by
    intro j
    rw [hdel]
    simp only [List.mem_append, List.mem_cons]
    tauto
  refine ⟨q.past, fun i hi j hj => ?_, ?_, fun f hf r hr => ?_⟩
  · obtain rfl | hi' := (hmem i).1 hi
    · obtain rfl | hj' := (hmem j).1 hj
      · exact Nat.lt_add_of_pos_right (by decide)
      · exact (hnear j hj').2
    · obtain rfl | hj' := (hmem j).1 hj
      · exact (hnear i hi').1
      · dsimp only
        rw [htime i hi', htime j hj']
        exact q.near i hi' j hj'
  · obtain ⟨kept, hsub, hperm, hsort⟩ := q.order
    refine ⟨kept ++ [t'.timed task], hsub.append (List.Sublist.refl _), ?_, ?_⟩
    · rw [List.append_assoc]
      refine (List.perm_append_comm.append_left kept).trans ?_
      rw [← List.append_assoc]
      exact hperm.append_right _
    · rw [← List.map_congr_left htimed, hdel, List.map_append, ← List.append_assoc] at hsort
      rw [List.map_append, List.map_cons, ← List.append_assoc]
      refine hsort.insert (fun b hb => ?_) (fun b hb => ?_)
      · obtain hb | hb := List.mem_append.1 hb
        · obtain ⟨r, hr, rfl⟩ := List.mem_map.1 hb
          exact (q.past r hr).trans hfuture
        · obtain ⟨j, hj, rfl⟩ := List.mem_map.1 hb
          exact hbefore j hj
      · obtain ⟨j, hj, rfl⟩ := List.mem_map.1 hb
        exact hbehind j hj
  · have hle : r.1 ≤ t'.time task := (hnow f hf r hr).trans hfuture
    obtain hhead | ⟨hlater, hone⟩ := q.frames f hf r hr
    · cases l₁ with
      | nil =>
          -- the new task is the first one
          obtain rfl : del = l₂ := hdel
          refine .inr ⟨fun j hj => ?_, fun j hj heq => ?_⟩
          · obtain rfl | hj := (hmem j).1 hj
            · exact hle
            · exact hle.trans (hbehind j hj).le
          · obtain rfl | hj := (hmem j).1 hj
            · exact hfirst'
            · exact absurd heq (hle.trans_lt (hbehind j hj)).ne'
      | cons a l₁ =>
          refine .inl (hfirst'.trans ?_)
          rw [hfirst, hdel] at hhead
          exact hhead
    · refine .inr ⟨fun j hj => ?_, fun j hj heq => ?_⟩
      · obtain rfl | hj := (hmem j).1 hj
        · exact hle
        · exact (hlater j hj).trans_eq (htime j hj).symm
      · rw [hfirst']
        cases l₁ with
        | nil =>
            obtain rfl : del = l₂ := hdel
            obtain rfl | hj := (hmem j).1 hj
            · rfl
            · exact absurd heq (hle.trans_lt (hbehind j hj)).ne'
        | cons a l₁ =>
            have ha : s.tasks.delayed = some a := by rw [hfirst, hdel]; rfl
            have hmema : a ∈ del := by rw [hdel]; exact List.mem_cons_self
            obtain rfl | hj := (hmem j).1 hj
            · -- there would be a tie
              have hlea : t'.time a ≤ t'.time j := hbefore a List.mem_cons_self
              have hgea := hlater a hmema
              rw [htime a hmema, heq] at hlea
              exact absurd (heq.trans (le_antisymm hgea hlea)).symm (htie a ha)
            · have heq' : s.tasks.time j = r.1 := (htime j hj).symm.trans heq
              exact ha.symm.trans (hone j hj heq')

theorem Frame.now_of_taking {f : Frame} {r : ℕ × ℕ} (h : r ∈ f.taking) : f.now = some r.1 := by
  cases f <;> cases h <;> rfl

theorem now_le (h : Holds True s det imm del res) : ∀ f ∈ s.frames, ∀ r ∈ f.taking, r.1 ≤ s.ticks :=
  fun f hf r hr => (h.frames f hf).1 r.1 (Frame.now_of_taking hr)

variable {fn : Option F} {data : Option D} {delay : ℕ} {del' : List ℕ}

theorem addDelayed (q : Queued s del) (h : Holds True s det imm del res)
    (htime : s.Accepts fn →
      (∀ j ∈ s.tasks.chain s.tasks.delayed, s.tasks.time j < s.ticks + delay + 2 ^ 31 ∧ s.ticks + delay < s.tasks.time j + 2 ^ 31) ∧
        ∀ a ∈ s.tasks.delayed, s.tasks.time a ≠ s.ticks + delay)
    (hl' : Linked (s.taskAddDelayed fn data delay).2.tasks.next (s.taskAddDelayed fn data delay).2.tasks.delayed del') :
    Queued (s.taskAddDelayed fn data delay).2 del' := by
  refine withSlot_elim (P := fun s' => ∀ del', Linked s'.tasks.next s'.tasks.delayed del' → Queued s' del') ?_ ?_ del' hl'
  · intro del' hl'
    obtain rfl := h.delayed.unique hl'
    exact q
  · intro f task hfn halloc del' hl'
    obtain ⟨hnear, htie⟩ := htime ⟨by rw [hfn]; rfl, by rw [halloc]; rfl⟩
    rw [h.chains.2.2.1] at hnear
    have hdel : task ∉ del := (h.not_mem (taskAlloc_ok h.ok halloc).2).2.2.1
    obtain ⟨hend, hkeep⟩ := Holds.slotFilled_next s.tasks task f data
    -- the slot, with the time it is due at
    let t : Tasks F D := { Holds.slotFilled s.tasks task f data with
      time := Function.update s.tasks.time task (s.ticks + delay) }
    have hself : t.time task = s.ticks + delay := Function.update_self ..
    have hother : ∀ j ∈ del, t.timed j = s.tasks.timed j := fun j hj => by
      have hne : j ≠ task := fun heq => hdel (heq ▸ hj)
      refine Prod.ext (congrArg₂ Call.mk ?_ ?_) ?_ <;> exact Function.update_of_ne hne ..
    have htime : ∀ j ∈ del, t.time j = s.tasks.time j := fun j hj => congrArg Prod.snd (hother j hj)
    have hnear' : ∀ j ∈ del, t.time j < t.time task + 2 ^ 31 ∧ t.time task < t.time j + 2 ^ 31 := fun j hj => by
      rw [hself, htime j hj]
      exact hnear j hj
    obtain ⟨l₁, l₂, heq, hins, hbefore, hbehind⟩ := insertDelayed_sorted (t := t) (hkeep h.delayed hdel) h.length_le.2.1 hdel hend
      (q.sorted.imp_of_mem fun {i j} hi hj hle => by rw [htime i hi, htime j hj]; exact hle) hnear' fun a ha => by
        have hmem : a ∈ del := List.mem_of_mem_head? (h.delayed.head ▸ ha)
        rw [hself, htime a hmem]
        exact htie a ha
    obtain rfl := hins.unique hl'
    have htimed : (insertDelayed t task).timed = t.timed := by
      rw [insertDelayed_eq]
      rfl
    have htimes : (insertDelayed t task).time = t.time := by rw [insertDelayed_eq]
    have hcall : (insertDelayed t task).timed task = (⟨some f, data⟩, s.ticks + delay) := by
      rw [htimed]
      exact Prod.ext (Holds.slotFilled_call s.tasks task f data) hself
    have hqueued := q.insert (insertDelayed t task) heq hdel h.delayed.head hins.head (by rwa [htimed])
      (by rw [htimes, hself]; exact Nat.le_add_right ..) (by rwa [htimes]) (by rwa [htimes]) (by rwa [htimes])
      (by rw [htimes, hself]; exact htie) (now_le h)
    rw [hcall] at hqueued
    exact hqueued

theorem remove (q : Queued s del) {l₁ l₂ : List ℕ} (hdel : del = l₁ ++ task :: l₂) :
    ∃ kept kept', kept.Sublist s.history.delayed ∧ (kept ++ s.history.deleted).Perm s.history.delayed ∧
      kept'.Sublist kept ∧ kept.Perm (s.tasks.timed task :: kept') ∧
      StableSorted Prod.snd kept (s.history.delayedRun.map Prod.fst ++ del.map s.tasks.timed) ∧
      StableSorted Prod.snd kept' (s.history.delayedRun.map Prod.fst ++ (l₁ ++ l₂).map s.tasks.timed) := by
  obtain ⟨kept, hsub, hperm, hsort⟩ := q.order
  have hsplit := hsort
  rw [hdel, List.map_append, List.map_cons, ← List.append_assoc] at hsplit
  obtain ⟨k₁, k₂, rfl, hsort'⟩ := hsplit.remove
  rw [List.append_assoc, ← List.map_append] at hsort'
  exact ⟨_, _, hsub, hperm, (List.Sublist.refl k₁).append (List.sublist_cons_self _ k₂), List.perm_middle, hsort, hsort'⟩

theorem delete [DecidableEq F] [DecidableEq D] (q : Queued s del) (h : Holds True s det imm del res)
    (htime : ∀ task ∈ (findDelayed s.tasks fn data).1, ∀ f ∈ s.frames, ∀ r ∈ f.taking, r.2 = task → r.1 < s.tasks.time task)
    (hl' : Linked (s.delete fn data).tasks.next (s.delete fn data).tasks.delayed del') : Queued (s.delete fn data) del' := by
  rcases taskDelete_linked fn data h.delayed h.length_le.2.1 with
    ⟨hnone, heq⟩ | ⟨task, l₁, l₂, t', hfind, hdel, heq, ht', hlink, hnext⟩
  · rw [Scheduler.delete, hnone, heq, Option.toList_none, List.map_nil, List.append_nil] at hl' ⊢
    obtain rfl := h.delayed.unique hl'
    exact q
  · obtain ⟨hlinked, -, hedit, -, -, hnot, -⟩ := h.removedDelayed t' hdel ht' hlink hnext
    rw [Scheduler.delete, hfind, heq, Option.toList_some, List.map_singleton] at hl' ⊢
    obtain rfl := hlinked.unique hl'
    obtain ⟨kept, kept', hsub, hperm, hsub', hperm', -, hsort⟩ := q.remove hdel
    have hsorted := q.sorted
    have hmem : ∀ j ∈ l₁ ++ l₂, j ∈ del := fun j hj => by
      rw [hdel]
      simp only [List.mem_append, List.mem_cons] at hj ⊢
      tauto
    have htimed : ∀ j ∈ l₁ ++ l₂, (taskFree t' task).timed j = s.tasks.timed j := fun j hj => by
      have hne : j ≠ task := fun heq => hnot (heq ▸ hj)
      exact Prod.ext (hedit.call j hne) (hedit.time j hne)
    have htimes : ∀ j ∈ l₁ ++ l₂, (taskFree t' task).time j = s.tasks.time j := fun j hj => congrArg Prod.snd (htimed j hj)
    refine ⟨q.past, fun i hi j hj => ?_, ⟨kept', hsub'.trans hsub, ?_, ?_⟩, fun f hf r hr => ?_⟩
    · dsimp only
      rw [htimes i hi, htimes j hj]
      exact q.near i (hmem i hi) j (hmem j hj)
    · refine List.Perm.trans ?_ ((hperm'.append_right s.history.deleted).symm.trans hperm)
      have hmove : (kept' ++ (s.history.deleted ++ [s.tasks.timed task])).Perm (s.tasks.timed task :: (kept' ++ s.history.deleted)) := by
        rw [← List.append_assoc]
        exact List.perm_append_singleton _ _
      exact hmove
    · dsimp only
      rw [List.map_congr_left htimed]
      exact hsort
    · have hfirst : (taskFree t' task).delayed = (l₁ ++ l₂).head? := hlinked.head
      have hdelayed : s.tasks.delayed = del.head? := h.delayed.head
      rw [hdel] at hdelayed hsorted
      obtain hhead | ⟨hlater, hone⟩ := q.frames f hf r hr
      · cases l₁ with
        | nil =>
            -- what is left is due later than the round
            have htask : r.2 = task := Option.some.inj (hhead.symm.trans hdelayed)
            have hlt : r.1 < s.tasks.time task := htime task hfind f hf r hr htask
            have hlater : ∀ j ∈ l₂, r.1 < (taskFree t' task).time j := fun j hj => by
              rw [htimes j hj]
              exact hlt.trans_le ((List.pairwise_cons.1 hsorted).1 j hj)
            exact .inr ⟨fun j hj => (hlater j hj).le, fun j hj hnow => absurd hnow (hlater j hj).ne'⟩
        | cons a l₁ => exact .inl (hfirst.trans (hdelayed.symm.trans hhead))
      · refine .inr ⟨fun j hj => (hlater j (hmem j hj)).trans_eq (htimes j hj).symm, fun j hj hnow => ?_⟩
        rw [htimes j hj] at hnow
        have hhead := hone j (hmem j hj) hnow
        cases l₁ with
        | nil =>
            obtain rfl : task = j := Option.some.inj (hdelayed.symm.trans hhead)
            exact absurd hj hnot
        | cons a l₁ => exact hfirst.trans (hdelayed.symm.trans hhead)

/-! ## Rounds -/

section
variable {f : Frame} {rest : List Frame}

theorem same_of_go (h : Holds True s det imm del res) (hs : s.frames = f :: rest) (hf : ∀ now task, f ≠ .take now task)
    (hgo : s.go f rest = some s') : SameDelayed s s' del ∧ ∀ j ∈ del, s'.tasks.next j = s.tasks.next j := by
  obtain ⟨hdisj, -, hdisj'⟩ := h.disjoint
  -- a slot of another list is freed
  have hfree : ∀ task ∉ del, ∀ j ∈ del,
      (taskFree s.tasks task).timed j = s.tasks.timed j ∧ (taskFree s.tasks task).next j = s.tasks.next j := by
    intro task hnot j hj
    have hne : j ≠ task := fun heq => hnot (heq ▸ hj)
    exact ⟨Prod.ext (congrArg (Call.mk · (s.tasks.data j)) (Function.update_of_ne hne ..)) rfl, Function.update_of_ne hne ..⟩
  cases f with
  | immediate task =>
      cases task with
      | none =>
          cases hgo
          exact ⟨⟨rfl, fun _ _ => rfl, rfl, rfl, rfl, le_rfl⟩, fun _ _ => rfl⟩
      | some task =>
          cases hgo
          obtain ⟨det', rfl, -⟩ := h.runImmediate hs
          have hnot : task ∉ del := (hdisj task List.mem_cons_self).2.1
          exact ⟨⟨rfl, fun j hj => (hfree task hnot j hj).1, rfl, rfl, rfl, le_rfl⟩, fun j hj => (hfree task hnot j hj).2⟩
  | resetRun task =>
      cases hgo
      obtain ⟨res', rfl, -⟩ := h.runReset hs
      have hnot : task ∉ del := fun hmem => hdisj' task hmem List.mem_cons_self
      exact ⟨⟨rfl, fun j hj => (hfree task hnot j hj).1, rfl, rfl, rfl, le_rfl⟩, fun j hj => (hfree task hnot j hj).2⟩
  | take now task => exact absurd rfl (hf now task)
  | running => cases hgo
  | resetNext task =>
      cases task <;> cases hgo <;> exact ⟨⟨rfl, fun _ _ => rfl, rfl, rfl, rfl, le_rfl⟩, fun _ _ => rfl⟩
  | locking =>
      simp only [Scheduler.go] at hgo
      split at hgo <;> cases hgo <;> exact ⟨⟨rfl, fun _ _ => rfl, rfl, rfl, rfl, le_rfl⟩, fun _ _ => rfl⟩
  | check now =>
      simp only [Scheduler.go] at hgo
      split at hgo <;> cases hgo <;> exact ⟨⟨rfl, fun _ _ => rfl, rfl, rfl, rfl, le_rfl⟩, fun _ _ => rfl⟩
  | head now =>
      simp only [Scheduler.go] at hgo
      split at hgo <;> cases hgo <;> exact ⟨⟨rfl, fun _ _ => rfl, rfl, rfl, rfl, le_rfl⟩, fun _ _ => rfl⟩
  | startup =>
      simp only [Scheduler.go] at hgo
      split at hgo <;> cases hgo <;> exact ⟨⟨rfl, fun _ _ => rfl, rfl, rfl, rfl, le_rfl⟩, fun _ _ => rfl⟩
  | _ =>
      cases hgo
      exact ⟨⟨rfl, fun _ _ => rfl, rfl, rfl, rfl, le_rfl⟩, fun _ _ => rfl⟩

theorem taking_of_waits {g : Frame} (h : g.Waits) : g.taking = none := by
  cases g <;> first | rfl | exact h.elim

theorem first_of_go (q : Queued s del) (hs : s.frames = f :: rest) (hwaits : ∀ g ∈ rest, g.Waits)
    (hf : ∀ now task, f ≠ .take now task) (hgo : s.go f rest = some s') :
    ∀ g ∈ s'.frames, ∀ r ∈ g.taking, TakesFirst s.tasks del r.1 r.2 := by
  have hrest : ∀ g ∈ rest, ∀ r ∈ g.taking, TakesFirst s.tasks del r.1 r.2 := fun g hg r hr => by
    rw [taking_of_waits (hwaits g hg)] at hr
    cases hr
  have hcons : ∀ g, g.taking = none → ∀ g' ∈ g :: rest, ∀ r ∈ g'.taking, TakesFirst s.tasks del r.1 r.2 := fun g hnone =>
    List.forall_mem_cons.2 ⟨by rw [hnone]; rintro _ ⟨⟩, hrest⟩
  cases f with
  | head now =>
      simp only [Scheduler.go] at hgo
      split at hgo
      case h_1 =>
        cases hgo
        exact hcons _ rfl
      case h_2 task htask =>
        cases hgo
        refine List.forall_mem_cons.2 ⟨?_, hrest⟩
        rintro r ⟨rfl⟩
        exact .inl htask
  | due now task =>
      have hdue : TakesFirst s.tasks del now task := q.frames (.due now task) (hs ▸ List.mem_cons_self) (now, task) rfl
      cases hgo
      refine List.forall_mem_cons.2 ⟨?_, hrest⟩
      split
      · rintro r ⟨rfl⟩
        exact hdue
      · rintro _ ⟨⟩
  | take now task => exact absurd rfl (hf now task)
  | running => cases hgo
  | immediate task =>
      cases task with
      | none =>
          cases hgo
          exact hcons _ rfl
      | some task =>
          cases hgo
          exact List.forall_mem_cons.2 ⟨(by rintro _ ⟨⟩), hcons _ rfl⟩
  | resetRun task =>
      cases hgo
      exact List.forall_mem_cons.2 ⟨(by rintro _ ⟨⟩), hcons _ rfl⟩
  | resetNext task =>
      cases task with
      | none =>
          cases hgo
          exact hrest
      | some task =>
          cases hgo
          exact hcons _ rfl
  | locking =>
      simp only [Scheduler.go] at hgo
      split at hgo
      · cases hgo
        exact hrest
      · cases hgo
        exact hcons _ rfl
  | check now =>
      simp only [Scheduler.go] at hgo
      split at hgo
      · cases hgo
        exact hcons _ rfl
      · cases hgo
        exact hcons _ rfl
  | startup =>
      simp only [Scheduler.go] at hgo
      split at hgo
      · cases hgo
        exact hrest
      · cases hgo
        exact hcons _ rfl
  | unlock =>
      cases hgo
      exact hrest
  | entered =>
      cases hgo
      refine hcons _ ?_
      split <;> rfl
  | detach =>
      cases hgo
      exact hcons _ rfl
  | clock =>
      cases hgo
      exact hcons _ rfl

theorem take {now : ℕ} (q : Queued s del) (h : Holds True s det imm del res) (hs : s.frames = .take now task :: rest)
    (hfar : s.tasks.time task < now + 2 ^ 31) (hgo : s.go (.take now task) rest = some s')
    (hl' : Linked s'.tasks.next s'.tasks.delayed del') : Queued s' del' := by
  cases hgo
  obtain ⟨htimes, hdue, hmem⟩ := h.frames (.take now task) (hs ▸ List.mem_cons_self)
  have hnow : now ≤ s.ticks := htimes now rfl
  have hle : s.tasks.time task ≤ now := le_of_signedDiff hdue hfar
  have hfirst : s.tasks.delayed = some task := by
    obtain hfirst | ⟨hlater, hone⟩ := q.frames (.take now task) (hs ▸ List.mem_cons_self) (now, task) rfl
    · exact hfirst
    · exact hone task hmem (le_antisymm hle (hlater task hmem))
  have hunlink : unlinkDelayed s.tasks task = { s.tasks with delayed := s.tasks.next task } := by
    rw [unlinkDelayed, if_pos hfirst.symm]
  dsimp only at hl' ⊢
  rw [hunlink] at hl' ⊢
  obtain ⟨l, rfl⟩ : ∃ l, del = task :: l := by
    have hhead := h.delayed.head
    rw [hfirst] at hhead
    cases del with
    | nil => cases hhead
    | cons a l => exact ⟨l, by rw [Option.some.inj hhead]⟩
  have hnot : task ∉ l := (List.nodup_cons.1 h.delayed.nodup).1
  have hne : ∀ j ∈ l, j ≠ task := fun j hj heq => hnot (heq ▸ hj)
  obtain rfl : l = del' := by
    refine Linked.unique (h.delayed.2.congr fun j hj => ?_) hl'
    exact Function.update_of_ne (hne j hj) ..
  obtain ⟨kept, hsub, hperm, hsort⟩ := q.order
  have htimed : ∀ j ∈ l, (taskFree { s.tasks with delayed := s.tasks.next task } task).timed j = s.tasks.timed j :=
    fun j hj => Prod.ext (congrArg (Call.mk · (s.tasks.data j)) (Function.update_of_ne (hne j hj) ..)) rfl
  refine ⟨?_, fun i hi j hj => q.near i (List.mem_cons_of_mem _ hi) j (List.mem_cons_of_mem _ hj), ⟨kept, hsub, hperm, ?_⟩, ?_⟩
  · refine List.forall_mem_append.2 ⟨q.past, List.forall_mem_singleton.2 ?_⟩
    exact hle.trans hnow
  · dsimp only
    rw [List.map_congr_left htimed, List.map_append, List.append_assoc]
    exact hsort
  · refine List.forall_mem_cons.2 ⟨(by rintro _ ⟨⟩), List.forall_mem_cons.2 ⟨(by rintro _ ⟨⟩), fun g hg r hr => ?_⟩⟩
    have hwaits := h.waits
    rw [hs] at hwaits
    rw [taking_of_waits (hwaits g hg)] at hr
    cases hr

end

theorem step [DecidableEq F] [DecidableEq D] {a : Action F D} (q : Queued s del) (h : Holds True s det imm del res)
    (hsafe : s.Safe a) (htime : s.InTime a) (hstep : s.step a = some s') (hl' : Linked s'.tasks.next s'.tasks.delayed del') :
    Queued s' del' := by
  -- a call that leaves the delayed tasks alone
  have hcall : ∀ {fn : Option F} {use : Tasks F D → ℕ → F → Scheduler F D} {del' : List ℕ},
      Linked (s.withSlot fn use).2.tasks.next (s.withSlot fn use).2.tasks.delayed del →
      (∀ t task f, (use t task f).tasks.delayed = t.delayed ∧ (∀ j ≠ task, (use t task f).tasks.timed j = t.timed j) ∧
        (use t task f).history.delayed = s.history.delayed ∧ (use t task f).history.delayedRun = s.history.delayedRun ∧
        (use t task f).history.deleted = s.history.deleted ∧ (use t task f).ticks = s.ticks ∧ (use t task f).frames = s.frames) →
      Linked (s.withSlot fn use).2.tasks.next (s.withSlot fn use).2.tasks.delayed del' → Queued (s.withSlot fn use).2 del' := by
    intro fn use del' hl huse hl'
    obtain rfl := hl.unique hl'
    refine withSlot_elim (P := fun s' => Queued s' del) q fun f task hfn halloc => ?_
    have hnot : task ∉ del := (h.not_mem (taskAlloc_ok h.ok halloc).2).2.2.1
    obtain ⟨hhead, htimed, hadded, hrun, hdeleted, hticks, hframes⟩ := huse { s.tasks with lastFreed := none } task f
    refine q.of_same ⟨hhead, fun j hj => htimed j fun heq => hnot (heq ▸ hj), hadded, hrun, hdeleted, hticks.ge⟩ ?_
    rw [hframes]
    exact q.frames
  cases a with
  | addImmediate fn data =>
      cases hstep
      obtain ⟨imm', h'⟩ : ∃ imm', Holds True (s.taskAddImmediate fn data).2 det imm' del res := h.addImmediate hsafe
      exact hcall h'.delayed (fun t task f => ⟨rfl, fun j hne => Prod.ext (congrArg₂ Call.mk (Function.update_of_ne hne ..)
        (Function.update_of_ne hne ..)) rfl, rfl, rfl, rfl, rfl, rfl⟩) hl'
  | addDelayed fn data delay =>
      cases hstep
      exact q.addDelayed h htime hl'
  | runOnReset fn data =>
      cases hstep
      obtain ⟨res', h'⟩ : ∃ res', Holds True (s.taskRunOnReset fn data).2 det imm del res' := h.runOnReset hsafe
      have hlinked := h'.delayed
      rw [Scheduler.taskRunOnReset] at hlinked hl' ⊢
      split at hlinked
      · rw [if_pos ‹_›] at hl' ⊢
        obtain rfl := h.delayed.unique hl'
        exact q
      · rw [if_neg ‹_›] at hl' ⊢
        exact hcall hlinked (fun t task f => ⟨rfl, fun j hne => Prod.ext (congrArg₂ Call.mk (Function.update_of_ne hne ..)
          (Function.update_of_ne hne ..)) rfl, rfl, rfl, rfl, rfl, rfl⟩) hl'
  | delete fn data =>
      cases hstep
      exact q.delete h htime hl'
  | tick =>
      cases hstep
      obtain rfl := h.delayed.unique hl'
      exact q.of_same ⟨rfl, fun _ _ => rfl, rfl, rfl, rfl, Nat.le_succ _⟩ q.frames
  | warm =>
      cases hstep
      obtain rfl := h.delayed.unique hl'
      exact q.of_same ⟨rfl, fun _ _ => rfl, rfl, rfl, rfl, le_rfl⟩ q.frames
  | execute =>
      simp only [Scheduler.step] at hstep
      split at hstep <;> cases hstep
      obtain rfl := h.delayed.unique hl'
      exact q.of_same ⟨rfl, fun _ _ => rfl, rfl, rfl, rfl, le_rfl⟩ (List.forall_mem_cons.2 ⟨(by rintro _ ⟨⟩), q.frames⟩)
  | executeOnStartup =>
      simp only [Scheduler.step] at hstep
      split at hstep <;> cases hstep
      obtain rfl := h.delayed.unique hl'
      exact q.of_same ⟨rfl, fun _ _ => rfl, rfl, rfl, rfl, le_rfl⟩ (List.forall_mem_cons.2 ⟨(by rintro _ ⟨⟩), q.frames⟩)
  | go =>
      simp only [Scheduler.step] at hstep
      split at hstep
      case h_1 => cases hstep
      case h_2 f rest hs =>
        have hwaits : ∀ g ∈ rest, g.Waits := by
          have hwaits := h.waits
          rwa [hs] at hwaits
        by_cases htake : ∃ now task, f = .take now task
        · obtain ⟨now, task, rfl⟩ := htake
          have hfar : ∀ r ∈ s.frames.head?.bind Frame.taking, s.tasks.time r.2 < r.1 + 2 ^ 31 := hsafe.2
          rw [hs] at hfar
          exact q.take h hs (hfar (now, task) rfl) hstep hl'
        · have hf : ∀ now task, f ≠ .take now task := fun now task heq => htake ⟨now, task, heq⟩
          obtain ⟨hsame, hnext⟩ := same_of_go h hs hf hstep
          have hlinked : Linked s'.tasks.next s'.tasks.delayed del := by
            rw [hsame.head]
            exact h.delayed.congr hnext
          obtain rfl := hlinked.unique hl'
          exact q.of_same hsame (q.first_of_go hs hwaits hf hstep)
  | finish =>
      simp only [Scheduler.step] at hstep
      split at hstep
      case h_1 rest hs =>
        cases hstep
        obtain rfl := h.delayed.unique hl'
        exact q.of_same ⟨rfl, fun _ _ => rfl, rfl, rfl, rfl, le_rfl⟩ fun g hg => q.frames g (hs ▸ List.mem_cons_of_mem _ hg)
      case h_2 => cases hstep

theorem inDueOrder (q : Queued s del) (h : Holds True s det imm del res) : s.InDueOrder := by
  have hdel := h.chains.2.2.1
  refine ⟨?_, ?_⟩
  · rw [hdel]
    refine q.sorted.imp_of_mem fun {i j} hi hj hle => ?_
    rw [signedDiff_eq (q.near i hi j hj) (q.near j hj i hi)]
    omega
  · rw [hdel]
    exact q.order

end Queued

/-! ## Runs -/

section
variable [DecidableEq F] [DecidableEq D]

/-- In every run of calls and rounds, from interrupts and from the functions of the tasks, in which no task is added for the same
tick as the first one, the list is sorted and the tasks are executed in the order in which they are due. -/
theorem in_due_order_of_safe {ticks : ℕ} {coldStart : Bool} {as : List (Action F D)} {s : Scheduler F D}
    (hsafe : Along Scheduler.step (fun s a => s.Safe a ∧ s.InTime a) (.init ticks coldStart) as)
    (hrun : run Scheduler.step (.init ticks coldStart) as = some s) : s.InDueOrder := by
  obtain ⟨det, imm, del, res, h, q⟩ := run_invariant_along
    (I := fun t : Scheduler F D => ∃ det imm del res, Holds True t det imm del res ∧ Queued t del)
    (fun t a t' ⟨det, imm, del, res, h, q⟩ hP hstep => by
      obtain ⟨det', imm', del', res', h'⟩ := h.step hP.1 hstep
      exact ⟨det', imm', del', res', h', q.step h hP.1 hP.2 hstep h'.delayed⟩)
    as _ s ⟨[], [], [], [], holds_init ticks coldStart, nofun, nofun, ⟨[], .refl _, .refl _, .nil⟩, nofun⟩ hsafe hrun
  exact q.inDueOrder h

/-- Three tasks, of which the last is the first that is due, and two are due at once; the clock wraps in between. -/
def dueInTurn : List (Action Bool Unit) :=
  [.addDelayed (some true) none 2, .addDelayed (some false) none 1, .addDelayed (some false) (some ()) 2,
    .tick, .tick, .execute, .go, .go, .go, .go, .go, .go, .go, .finish, .go, .go, .go, .finish, .go, .go, .go, .finish]

theorem in_due_order_of_safe_dueInTurn : ∃ s, run Scheduler.step (.init (2 ^ 32 - 1) false) dueInTurn = some s ∧ s.InDueOrder ∧
    s.history.delayedRun.map Prod.fst =
      [(⟨some false, none⟩, 2 ^ 32), (⟨some true, none⟩, 2 ^ 32 + 1), (⟨some false, some ()⟩, 2 ^ 32 + 1)] := by
  have hsafe : Along Scheduler.step (fun s a => s.Safe a ∧ s.InTime a) (.init (2 ^ 32 - 1) false) dueInTurn := by decide +kernel
  exact ⟨_, rfl, in_due_order_of_safe hsafe rfl, rfl⟩

def dueAtOnce : List (Action Bool Unit) :=
  [.addDelayed (some true) none 1, .addDelayed (some false) none 1, .tick, .execute, .go, .go, .go, .go, .go, .go, .go]

/-- The second one is executed first. -/
theorem tie_with_head_overtakes : ∃ s, run Scheduler.step (.init 0 false) dueAtOnce = some s ∧
    s.history.delayed.map Prod.fst = [⟨some true, none⟩, ⟨some false, none⟩] ∧
    s.history.delayedRun.map Prod.fst = [(⟨some false, none⟩, 1)] ∧ ¬s.InDueOrder := by
  obtain ⟨s, hrun, hadded, hdeleted, hexecuted, hpending⟩ : ∃ s, run Scheduler.step (.init 0 false) dueAtOnce = some s ∧
      s.history.delayed = [(⟨some true, none⟩, 1), (⟨some false, none⟩, 1)] ∧ s.history.deleted = [] ∧
      s.history.delayedRun.map Prod.fst = [(⟨some false, none⟩, 1)] ∧
      (s.tasks.chain s.tasks.delayed).map s.tasks.timed = [(⟨some true, none⟩, 1)] := ⟨_, rfl, rfl, rfl, rfl, rfl⟩
  refine ⟨s, hrun, by rw [hadded]; rfl, hexecuted, fun h => ?_⟩
  obtain ⟨kept, hsub, hperm, hsort⟩ := h.executed
  rw [hadded] at hsub hperm
  rw [hdeleted, List.append_nil] at hperm
  rw [hexecuted, hpending] at hsort
  obtain rfl := hsub.eq_of_length hperm.length_eq
  have hstable := hsort.stable 1
  simp at hstable

end

end Grbl.CoreTask
