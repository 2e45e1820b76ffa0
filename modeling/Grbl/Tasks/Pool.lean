import Mathlib
import Grbl.Lib.Linked

/-!
# The pool of foreground tasks

* `Tasks` : the slots of the pool, the lists of tasks and the slot that was freed last;
* `taskAlloc`, `taskFree` : slots are handed out and given back;
* `linkLast`, `insertDelayed`, `unlinkDelayed`, `taskDelete` : what is done with the lists;
* `Tasks.Ok` : the slots that are in use are those in the lists; one lemma for each operation.
-/

namespace Grbl.CoreTask
open Lib

def coreTaskPoolSize : ℕ := 40

/-- `tasks` and the fields of the slots in its pool. The times are those of a clock that does not wrap: they are only
looked at through `signedDiff`. Nothing is in the lists of systick tasks and of tasks to be run at startup. -/
structure Tasks (F D : Type) where
  immediate : Option ℕ
  delayed : Option ℕ
  onReset : Option ℕ
  lastFreed : Option ℕ
  time : ℕ → ℕ
  fn : ℕ → Option F
  data : ℕ → Option D
  next : ℕ → Option ℕ

/-- `(int32_t)(a - b)`, of the numbers modulo `2^32` -/
def signedDiff (a b : ℕ) : ℤ := ((a : ℤ) - b).bmod (2 ^ 32)

/-- What a task is to do. -/
structure Call (F D : Type) where
  fn : Option F
  data : Option D

section
variable {F D : Type}

/-- `memset(&tasks, 0, sizeof(tasks))` -/
def Tasks.init : Tasks F D := ⟨none, none, none, none, fun _ => 0, fun _ => none, fun _ => none, fun _ => none⟩

namespace Tasks

/-- The slots of the list that starts at `p`. -/
def chain (t : Tasks F D) (p : Option ℕ) : List ℕ := walk t.next coreTaskPoolSize p

def call (t : Tasks F D) (task : ℕ) : Call F D := ⟨t.fn task, t.data task⟩

/-- A delayed task, and when it is due. -/
def timed (t : Tasks F D) (task : ℕ) : Call F D × ℕ := (t.call task, t.time task)

end Tasks

/-- `do { if(pool[--idx].fn == NULL) .. } while(task == NULL && idx)` -/
def scanPool (fn : ℕ → Option F) : ℕ → Option ℕ
  | 0 => none
  | idx + 1 => if (fn idx).isNone then some idx else scanPool fn idx

def taskAlloc (t : Tasks F D) : Option ℕ × Tasks F D :=
  match t.lastFreed with
  | some task => (some task, { t with lastFreed := none })
  | none => (scanPool t.fn coreTaskPoolSize, t)

def taskFree (t : Tasks F D) (task : ℕ) : Tasks F D :=
  { t with
    fn := Function.update t.fn task none
    next := Function.update t.next task none
    lastFreed := t.lastFreed.or (some task) }

/-- The fields of a slot that has been handed out. -/
def Tasks.fill (t : Tasks F D) (task : ℕ) (fn : F) (data : Option D) : Tasks F D :=
  { t with
    fn := Function.update t.fn task (some fn)
    data := Function.update t.data task data
    next := Function.update t.next task none }

/-- The slot becomes the last one of the list: the head of the list, and the links. -/
def linkLast (next : ℕ → Option ℕ) (head : Option ℕ) (task : ℕ) : Option ℕ × (ℕ → Option ℕ) :=
  match head with
  | none => (some task, next)
  | some a => (some a, Function.update next (seek next (fun _ => false) coreTaskPoolSize a) (some task))

/-- The slot is linked into the list of delayed tasks. -/
def insertDelayed (t : Tasks F D) (task : ℕ) : Tasks F D :=
  match t.delayed with
  | none => { t with delayed := some task }
  | some a =>
      if signedDiff (t.time task) (t.time a) ≤ 0 then
        { t with next := Function.update t.next task (some a), delayed := some task }
      else
        let prev := seek t.next (fun b => signedDiff (t.time task) (t.time b) < 0) coreTaskPoolSize a
        { t with next := Function.update (Function.update t.next task (t.next prev)) prev (some task) }

/-- The slot is unlinked from the list of delayed tasks, from within `task_execute`. -/
def unlinkDelayed (t : Tasks F D) (task : ℕ) : Tasks F D :=
  if some task = t.delayed then { t with delayed := t.next task }
  else
    match t.delayed with
    | none => t
    | some a =>
        let prev := seek t.next (fun b => b == task) coreTaskPoolSize a
        if t.next prev = some task then { t with next := Function.update t.next prev (t.next task) } else t

/-- The loop of `task_delete`: the task it finds, and the one before it. -/
def findDelayed [DecidableEq F] [DecidableEq D] (t : Tasks F D) (fn : Option F) (data : Option D) :
    Option ℕ × Option ℕ :=
  scan t.next (fun task => fn == t.fn task && (data.isNone || data == t.data task)) coreTaskPoolSize t.delayed none

def taskDelete [DecidableEq F] [DecidableEq D] (t : Tasks F D) (fn : Option F) (data : Option D) : Tasks F D :=
  match findDelayed t fn data with
  | (none, _) => t
  | (some task, some prev) => taskFree { t with next := Function.update t.next prev (t.next task) } task
  | (some task, none) => taskFree { t with delayed := t.next task } task

/-! ## Slots -/

/-- The slots that are in use are those in the lists, and the slot freed last is not in use. -/
structure Tasks.Ok (t : Tasks F D) (all : List ℕ) : Prop where
  nodup : all.Nodup
  live : ∀ i, i ∈ all ↔ i < coreTaskPoolSize ∧ t.fn i ≠ none
  freed : ∀ i, t.lastFreed = some i → i < coreTaskPoolSize ∧ t.fn i = none

variable {t : Tasks F D} {all all' l : List ℕ} {task : ℕ}

namespace Tasks.Ok

theorem perm (h : t.Ok all) (hperm : all.Perm all') : t.Ok all' :=
  ⟨hperm.nodup h.nodup, fun i => hperm.mem_iff.symm.trans (h.live i), h.freed⟩

theorem lt (h : t.Ok all) (hmem : task ∈ all) : task < coreTaskPoolSize := ((h.live task).1 hmem).1

theorem not_mem (h : t.Ok all) (hfree : t.fn task = none) : task ∉ all := fun hmem => ((h.live task).1 hmem).2 hfree

theorem length_le (h : t.Ok all) {p : Option ℕ} (hl : Linked t.next p l) (hsub : l ⊆ all) :
    l.length ≤ coreTaskPoolSize := hl.length_le fun _ hi => h.lt (hsub hi)

theorem chain_eq (h : t.Ok all) {p : Option ℕ} (hl : Linked t.next p l) (hsub : l ⊆ all) : t.chain p = l :=
  walk_linked hl (h.length_le hl hsub)

theorem congr (h : t.Ok all) {t' : Tasks F D} (hfn : t'.fn = t.fn) (hfreed : t'.lastFreed = t.lastFreed) :
    t'.Ok all := by
  refine ⟨h.nodup, ?_, ?_⟩
  · rw [hfn]
    exact h.live
  · rw [hfn, hfreed]
    exact h.freed

end Tasks.Ok

theorem scanPool_eq_some {fn : ℕ → Option F} {n : ℕ} (h : scanPool fn n = some task) :
    task < n ∧ fn task = none := by
  induction n with
  | zero => cases h
  | succ n ih =>
      rw [scanPool] at h
      split at h
      case isTrue hfn =>
        cases h
        exact ⟨Nat.lt_succ_self _, Option.isNone_iff_eq_none.1 hfn⟩
      case isFalse =>
        obtain ⟨hlt, hfn⟩ := ih h
        exact ⟨Nat.lt_succ_of_lt hlt, hfn⟩

theorem taskAlloc_ok (h : t.Ok all) (halloc : (taskAlloc t).1 = some task) :
    task < coreTaskPoolSize ∧ t.fn task = none := by
  rw [taskAlloc] at halloc
  split at halloc
  case h_1 _ hfreed =>
    cases halloc
    exact h.freed _ hfreed
  case h_2 => exact scanPool_eq_some halloc

theorem Tasks.Ok.fill (h : t.Ok all) {fn : F} {data : Option D} (hlt : task < coreTaskPoolSize)
    (hfree : t.fn task = none) (hfreed : t.lastFreed = none) : (t.fill task fn data).Ok (task :: all) := by
  refine ⟨List.nodup_cons.2 ⟨h.not_mem hfree, h.nodup⟩, fun i => ?_, fun i hi => ?_⟩
  · by_cases hi : i = task
    · subst hi
      simp [Tasks.fill, hlt]
    · simp [Tasks.fill, hi, h.live]
  · have hi : t.lastFreed = some i := hi
    rw [hfreed] at hi
    cases hi

theorem Tasks.Ok.free (h : t.Ok (task :: all)) : (taskFree t task).Ok all := by
  obtain ⟨hnot, hnd⟩ := List.nodup_cons.1 h.nodup
  have hlt : task < coreTaskPoolSize := h.lt List.mem_cons_self
  refine ⟨hnd, fun i => ?_, fun i hi => ?_⟩
  · by_cases hi : i = task
    · subst hi
      simp [taskFree, hnot]
    · have hlive := h.live i
      simpa [taskFree, hi] using hlive
  · by_cases heq : i = task
    · subst heq
      exact ⟨hlt, Function.update_self ..⟩
    · have hi : t.lastFreed.or (some task) = some i := hi
      cases hf : t.lastFreed with
      | none =>
          rw [hf] at hi
          exact absurd (Option.some.inj hi).symm heq
      | some j =>
          rw [hf] at hi
          cases hi
          have hfree := h.freed _ hf
          exact ⟨hfree.1, (Function.update_of_ne heq ..).trans hfree.2⟩

/-! ## Lists -/

/-- Nothing but `l` and the slot is touched when the slot is made the last of `l`. -/
theorem linkLast_linked {next : ℕ → Option ℕ} {head : Option ℕ} (hl : Linked next head l)
    (hlen : l.length ≤ coreTaskPoolSize) (hnot : task ∉ l) (hnext : next task = none) :
    Linked (linkLast next head task).2 (linkLast next head task).1 (l ++ [task]) ∧
      ∀ j ∉ l, (linkLast next head task).2 j = next j := by
  cases l with
  | nil =>
      cases hl
      exact ⟨⟨rfl, hnext⟩, fun _ _ => rfl⟩
  | cons a l =>
      obtain ⟨l₁, l₂, heq, hl₂⟩ := seek_linked (fun _ => false) hl (Nat.le_of_succ_le hlen)
      obtain rfl : head = some a := hl.head
      obtain rfl : l₂ = [] := by
        rw [hl₂, List.dropWhile_eq_nil_iff]
        exact fun _ _ => rfl
      rw [linkLast]
      generalize seek next (fun _ => false) coreTaskPoolSize a = last at heq
      have hlast : Linked next (some a) (l₁ ++ [last]) := heq ▸ hl
      refine ⟨?_, fun j hj => Function.update_of_ne (fun h => hj (by simp [heq, h])) ..⟩
      have hins := hlast.insert (b := task) (heq ▸ hnot)
      have hend : next last = none := hlast.tail
      have hself : Function.update next task none = next := Function.update_eq_self_iff.2 hnext.symm
      rw [hend, hself] at hins
      rw [heq]
      simpa using hins

theorem insertDelayed_linked (hl : Linked t.next t.delayed l) (hlen : l.length ≤ coreTaskPoolSize) (hnot : task ∉ l)
    (hnext : t.next task = none) :
    ∃ l₁ l₂, l = l₁ ++ l₂ ∧ Linked (insertDelayed t task).next (insertDelayed t task).delayed (l₁ ++ task :: l₂) ∧
      ∀ j ∉ l, j ≠ task → (insertDelayed t task).next j = t.next j := by
  cases l with
  | nil =>
      have hnil : t.delayed = none := hl
      refine ⟨[], [], rfl, ?_⟩
      simp [insertDelayed, hnil, hnext]
  | cons a l =>
      have hhead : t.delayed = some a := hl.head
      simp only [insertDelayed, hhead]
      split
      case isTrue =>
        refine ⟨[], a :: l, rfl, ⟨rfl, ?_⟩, fun j _ hj => Function.update_of_ne hj ..⟩
        have hl' : Linked t.next (some a) (a :: l) := hhead ▸ hl
        dsimp only
        rw [Function.update_self]
        refine hl'.congr fun j hj => Function.update_of_ne ?_ ..
        rintro rfl
        exact hnot hj
      case isFalse =>
        obtain ⟨l₁, l₂, heq, -⟩ := seek_linked (fun b => decide (signedDiff (t.time task) (t.time b) < 0))
          hl (Nat.le_of_succ_le hlen)
        generalize seek t.next (fun b => decide (signedDiff (t.time task) (t.time b) < 0)) coreTaskPoolSize a = prev
          at heq
        rw [heq] at hl hnot
        refine ⟨l₁ ++ [prev], l₂, by simpa using heq, ?_, fun j hj hne => ?_⟩
        · have hins := hl.insert hnot
          rw [hhead] at hins
          simpa using hins
        · have hprev : j ≠ prev := fun h => hj (by simp [heq, h])
          dsimp only
          rw [Function.update_of_ne hprev, Function.update_of_ne hne]

theorem insertDelayed_eq (t : Tasks F D) (task : ℕ) : insertDelayed t task =
    { t with next := (insertDelayed t task).next, delayed := (insertDelayed t task).delayed } := by
  rw [insertDelayed]
  split
  · rfl
  · split <;> rfl

theorem unlinkDelayed_linked (hl : Linked t.next t.delayed l) (hlen : l.length ≤ coreTaskPoolSize) (hmem : task ∈ l) :
    ∃ l₁ l₂, l = l₁ ++ task :: l₂ ∧ Linked (unlinkDelayed t task).next (unlinkDelayed t task).delayed (l₁ ++ l₂) ∧
      ∀ j ∉ l, (unlinkDelayed t task).next j = t.next j := by
  cases l with
  | nil => cases hmem
  | cons a l =>
      have hhead : t.delayed = some a := hl.head
      simp only [unlinkDelayed, hhead, Option.some.injEq]
      split
      case isTrue heq =>
        subst heq
        exact ⟨[], l, rfl, hl.2, fun _ _ => rfl⟩
      case isFalse hne =>
        obtain ⟨l₁, l₂, heq, hl₂⟩ := seek_linked (fun b => b == task) hl (Nat.le_of_succ_le hlen)
        generalize seek t.next (fun b => b == task) coreTaskPoolSize a = prev at heq
        have hmem : task ∈ l := (List.mem_cons.1 hmem).resolve_left hne
        -- the loop stops in front of the slot
        obtain ⟨l₃, rfl⟩ : ∃ l₃, l₂ = task :: l₃ := by
          cases l₂ with
          | nil => exact absurd (List.dropWhile_eq_nil_iff.1 hl₂.symm task hmem) (by simp)
          | cons b l₃ =>
              have hb := List.head?_dropWhile_not (fun b => !(b == task)) l
              rw [← hl₂] at hb
              exact ⟨l₃, by simpa using hb⟩
        rw [heq] at hl
        have hnext : t.next prev = some task := hl.tail.head
        rw [if_pos hnext]
        refine ⟨l₁ ++ [prev], l₃, by simpa using heq, ?_, fun j hj => Function.update_of_ne (fun h => hj ?_) ..⟩
        · have hun := hl.unlink
          rw [hhead] at hun
          simpa using hun
        · simp [heq, h]

theorem unlinkDelayed_eq (t : Tasks F D) (task : ℕ) : unlinkDelayed t task =
    { t with next := (unlinkDelayed t task).next, delayed := (unlinkDelayed t task).delayed } := by
  rw [unlinkDelayed]
  split
  · rfl
  · split
    · rfl
    · dsimp only
      split <;> rfl

section
variable [DecidableEq F] [DecidableEq D]

/-- `task_delete` takes out the first task that matches, if there is one. -/
theorem taskDelete_linked (fn : Option F) (data : Option D) (hl : Linked t.next t.delayed l) (hlen : l.length ≤ coreTaskPoolSize) :
    (findDelayed t fn data).1 = none ∧ taskDelete t fn data = t ∨
    ∃ task l₁ l₂ t', (findDelayed t fn data).1 = some task ∧ l = l₁ ++ task :: l₂ ∧
      taskDelete t fn data = taskFree t' task ∧ t' = { t with next := t'.next, delayed := t'.delayed } ∧
      Linked t'.next t'.delayed (l₁ ++ l₂) ∧ ∀ j ∉ l, t'.next j = t.next j := by
  rw [taskDelete]
  obtain ⟨stop, hscan⟩ : ∃ stop, findDelayed t fn data = scan t.next stop coreTaskPoolSize t.delayed none :=
    ⟨_, rfl⟩
  rw [hscan, scan_linked hl hlen]
  cases hfind : l.find? stop with
  | none => exact Or.inl ⟨rfl, rfl⟩
  | some task =>
      right
      obtain ⟨hstop, l₁, l₂, rfl, hbefore⟩ := List.find?_eq_some_iff_append.1 hfind
      have htake : (l₁ ++ task :: l₂).takeWhile (fun a => !stop a) = l₁ := by
        rw [List.takeWhile_append_of_pos (fun a ha => hbefore a ha)]
        simp [hstop]
      rw [htake, Option.or_none]
      rcases List.eq_nil_or_concat l₁ with rfl | ⟨l₁, prev, rfl⟩
      · exact ⟨task, [], l₂, { t with delayed := t.next task }, rfl, rfl, rfl, rfl, hl.2, fun _ _ => rfl⟩
      · rw [List.concat_eq_append, List.getLast?_concat]
        refine ⟨task, l₁ ++ [prev], l₂, { t with next := Function.update t.next prev (t.next task) }, rfl, rfl, rfl,
          rfl, ?_, fun j hj => Function.update_of_ne (fun h => hj ?_) ..⟩
        · have hl : Linked t.next t.delayed (l₁ ++ prev :: task :: l₂) := by simpa using hl
          simpa using hl.unlink
        · simp [h]

end

end

end Grbl.CoreTask
