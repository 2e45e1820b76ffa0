import Grbl.Tasks.Invariant

/-!
# A round of systick tasks

* `Round` : the pool, where the loop stands, and what has been called and removed since the round began;
* `taskAddSystick`, `taskDeleteSystick`, `Round.ret` : the calls, and the loop; `Round.step`;
* `Round.Complete` : every function is called once; `Round.Safe` : when it is;
* `Walks` : what holds between steps; `Walks.add`, `Walks.remove`, `Walks.call`, `Walks.step`;
* `complete_of_safe` : the rounds; `removed_in_its_turn` : one that ends too early, and one that leaves the list.
-/

namespace Grbl.CoreTask
open Lib

/-- What happens to an entry of the list. -/
inductive Fate
  | called
  | removed
  deriving DecidableEq

/-- The entry of the list in the slot, when there is one, and the function in it. -/
structure Event (F D : Type) where
  entry : Option ℕ
  fate : Fate
  call : Call F D

/-- The pool, `tasks.systick`, the clock, and the slot the loop stands at, with the entry that was in it when its function was
called. The entries are numbered in the order in which they have been added: `first` of them when the round began. -/
structure Round (F D : Type) where
  tasks : Tasks F D
  systick : Option ℕ
  ticks : ℕ
  task : Option (ℕ × Option ℕ)
  first : ℕ
  entry : ℕ → Option ℕ
  added : List (Call F D)
  log : List (Event F D)

variable {F D : Type}

namespace Round

/-! ## The loop and the calls -/

/-- `task->fn(task->data)`, up to the first statement of the function -/
def call (s : Round F D) : Option ℕ → Round F D
  | none => { s with task := none }
  | some task => { s with task := some (task, s.entry task), log := s.log ++ [⟨s.entry task, .called, s.tasks.call task⟩] }

/-- `if((task = tasks.systick)) do { task->fn(task->data); ..`, in any state of the pool -/
def start (t : Tasks F D) (systick : Option ℕ) (ticks : ℕ) : Round F D :=
  let entries := t.chain systick
  call { tasks := t, systick := systick, ticks := ticks, task := none, first := entries.length
         entry := fun task => if task ∈ entries then some (entries.idxOf task) else none
         added := entries.map t.call, log := [] } systick

/-- `.. } while((task = task->next));`, when the function returns -/
def ret (s : Round F D) : Option (Round F D) := s.task.map fun task => s.call (s.tasks.next task.1)

/-- `if(fn && (task = task_alloc())) ...` -/
def withSlot (s : Round F D) (fn : Option F) (use : Tasks F D → ℕ → F → Round F D) : Bool × Round F D :=
  match fn with
  | none => (false, s)
  | some f =>
      match taskAlloc s.tasks with
      | (none, _) => (false, s)
      | (some task, t) => (true, use t task f)

def taskAddImmediate (s : Round F D) (fn : Option F) (data : Option D) : Bool × Round F D :=
  s.withSlot fn fun t task f =>
    let t := t.fill task f data
    let r := linkLast t.next t.immediate task
    { s with tasks := { t with immediate := r.1, next := r.2 } }

def taskAddDelayed (s : Round F D) (fn : Option F) (data : Option D) (delay : ℕ) : Bool × Round F D :=
  s.withSlot fn fun t task f =>
    let t := { t.fill task f data with time := Function.update t.time task (s.ticks + delay) }
    { s with tasks := insertDelayed t task }

def taskAddSystick (s : Round F D) (fn : Option F) (data : Option D) : Bool × Round F D :=
  s.withSlot fn fun t task f =>
    let t := t.fill task f data
    let r := linkLast t.next s.systick task
    { s with
      tasks := { t with next := r.2 }
      systick := r.1
      entry := Function.update s.entry task (some s.added.length)
      added := s.added ++ [⟨some f, data⟩] }

section
variable [DecidableEq F] [DecidableEq D]

/-- The loop of `task_delete_systick`: the task it finds, and the one before it. -/
def findSystick (s : Round F D) (fn : Option F) (data : Option D) : Option ℕ × Option ℕ :=
  scan s.tasks.next (fun task => fn == s.tasks.fn task && data == s.tasks.data task) coreTaskPoolSize s.systick none

def taskDeleteSystick (s : Round F D) (fn : Option F) (data : Option D) : Round F D :=
  let gone (task : ℕ) : Round F D :=
    { s with entry := Function.update s.entry task none, log := s.log ++ [⟨s.entry task, .removed, s.tasks.call task⟩] }
  match s.findSystick fn data with
  | (none, _) => s
  | (some task, some prev) =>
      { gone task with tasks := taskFree { s.tasks with next := Function.update s.tasks.next prev (s.tasks.next task) } task }
  | (some task, none) => { gone task with tasks := taskFree s.tasks task, systick := s.tasks.next task }

end

end Round

/-- What can happen while a function is executed. -/
inductive RoundAction (F D : Type)
  | addImmediate (fn : Option F) (data : Option D)
  | addDelayed (fn : Option F) (data : Option D) (delay : ℕ)
  | addSystick (fn : Option F) (data : Option D)
  | deleteSystick (fn : Option F) (data : Option D)
  | tick
  /-- the function returns -/
  | ret

namespace Round

def step [DecidableEq F] [DecidableEq D] (s : Round F D) : RoundAction F D → Option (Round F D)
  | .addImmediate fn data => some (s.taskAddImmediate fn data).2
  | .addDelayed fn data delay => some (s.taskAddDelayed fn data delay).2
  | .addSystick fn data => some (s.taskAddSystick fn data).2
  | .deleteSystick fn data => some (s.taskDeleteSystick fn data)
  | .tick => some { s with ticks := s.ticks + 1 }
  | .ret => s.ret

/-! ## What a round is for -/

def fates (s : Round F D) (n : ℕ) : List Fate := (s.log.filter fun e => e.entry = some n).map (·.fate)

/-- How many functions have been called. -/
def calls (s : Round F D) : ℕ := s.log.countP fun e => e.fate = .called

/-- The function of the entry has been called, or the entry has been removed before. -/
def Settled (s : Round F D) (n : ℕ) : Prop :=
  s.fates n = [.called] ∨ s.fates n = [.called, .removed] ∨ s.fates n = [.removed]

/-- When the round is over, every function that was on the list has been called once unless it has been removed before, and as
many calls are enough for them; no function is called twice, and only functions that have been added are called. -/
structure Complete (s : Round F D) : Prop where
  all : s.task = none ∨ s.first ≤ s.calls → ∀ n < s.first, s.Settled n
  once : ∀ n, (s.fates n).count .called ≤ 1
  added : ∀ e ∈ s.log, ∃ n, e.entry = some n ∧ s.added[n]? = some e.call

/-- * the entry whose function is being executed is not removed unless it is the last one;
* when it has been removed, nothing is linked behind its slot when the function returns. -/
def Safe [DecidableEq F] [DecidableEq D] (s : Round F D) : RoundAction F D → Prop
  | .deleteSystick fn data => ∀ task ∈ (s.findSystick fn data).1, ∀ c ∈ s.task, c = (task, s.entry task) → s.tasks.next task = none
  | .ret => ∀ c ∈ s.task, s.entry c.1 ≠ c.2 → s.tasks.next c.1 = none
  | _ => True

instance [DecidableEq F] [DecidableEq D] (s : Round F D) : (a : RoundAction F D) → Decidable (s.Safe a)
  | .deleteSystick fn data => inferInstanceAs (Decidable (∀ task ∈ (s.findSystick fn data).1, ∀ c ∈ s.task, _ → _))
  | .ret => inferInstanceAs (Decidable (∀ c ∈ s.task, _ → _))
  | .addImmediate _ _ | .addDelayed _ _ _ | .addSystick _ _ | .tick => isTrue trivial

end Round

/-- The lists of the pool are in order; `others` are the slots of the lists that a systick round has nothing to do with. -/
def WellFormed (t : Tasks F D) (systick : Option ℕ) : Prop :=
  ∃ imm del sys others, Linked t.next t.immediate imm ∧ Linked t.next t.delayed del ∧ Linked t.next systick sys ∧
    t.Ok (sys ++ imm ++ del ++ others)

/-- What holds of the lists and of the log between steps. -/
structure Kept (s : Round F D) (imm del sys others : List ℕ) : Prop where
  immediate : Linked s.tasks.next s.tasks.immediate imm
  delayed : Linked s.tasks.next s.tasks.delayed del
  systick : Linked s.tasks.next s.systick sys
  ok : s.tasks.Ok (sys ++ imm ++ del ++ others)
  entries : ∀ j, j ∈ sys ↔ (s.entry j).isSome
  increasing : sys.Pairwise fun i j => ∀ a ∈ s.entry i, ∀ b ∈ s.entry j, a < b
  listed : ∀ j, ∀ n ∈ s.entry j, s.added[n]? = some (s.tasks.call j) ∧ (s.fates n = [] ∨ s.fates n = [.called])
  log : ∀ e ∈ s.log, ∃ n, e.entry = some n ∧ s.added[n]? = some e.call
  fates : ∀ n, s.fates n = [] ∨ s.Settled n
  first : s.first ≤ s.added.length

def Round.Listed (s : Round F D) (sys : List ℕ) (n : ℕ) : Prop := ∃ i ∈ sys, s.entry i = some n

/-- What holds of the place where the loop stands: the entries that it has not got to are behind it. -/
def Stands (s : Round F D) (sys : List ℕ) : Prop :=
  match s.task with
  | none => ∀ n < s.first, s.Settled n
  | some (j, e) => ∃ n, e = some n ∧ n < s.added.length ∧ s.calls ≤ n + 1 ∧
      (∀ e ∈ s.log, e.fate = .called → ∀ m ∈ e.entry, m ≤ n) ∧
      ((s.entry j = some n ∧ ∀ m < s.first, s.Settled m ∨ n < m ∧ s.Listed sys m) ∨
        (s.entry j ≠ some n ∧ ∀ m < s.first, s.Settled m))

/-- What holds between steps. -/
def Walks (s : Round F D) (imm del sys others : List ℕ) : Prop := Kept s imm del sys others ∧ Stands s sys

section
variable {s s' : Round F D} {imm del sys others : List ℕ} {task : ℕ}

/-! ## The log -/

theorem fates_log {e : Event F D} (hlog : s'.log = s.log ++ [e]) (n : ℕ) :
    s'.fates n = s.fates n ++ if e.entry = some n then [e.fate] else [] := by
  rw [Round.fates, Round.fates, hlog, List.filter_append, List.map_append]
  split
  case isTrue h => simp [h]
  case isFalse h => simp [h]

theorem settled_congr {n : ℕ} (h : s'.fates n = s.fates n) : s'.Settled n ↔ s.Settled n := by
  rw [Round.Settled, Round.Settled, h]

theorem settled_removed {n : ℕ} (hlisted : s.fates n = [] ∨ s.fates n = [.called]) (hfates : s'.fates n = s.fates n ++ [Fate.removed]) :
    s'.Settled n := by
  obtain h | h := hlisted
  · exact .inr (.inr (by rw [hfates, h]; rfl))
  · exact .inr (.inl (by rw [hfates, h]; rfl))

/-! ## Lists -/

namespace Kept

theorem disjoint (h : Kept s imm del sys others) :
    (∀ j ∈ sys, j ∉ imm ∧ j ∉ del ∧ j ∉ others) ∧ (∀ j ∈ imm, j ∉ del ∧ j ∉ others) ∧ ∀ j ∈ del, j ∉ others := by
  have hnd := h.ok.nodup
  simp only [List.nodup_append, List.mem_append] at hnd
  obtain ⟨⟨⟨-, -, h₁⟩, -, h₂⟩, -, h₃⟩ := hnd
  exact ⟨fun j hj => ⟨fun hj' => h₁ j hj j hj' rfl, fun hj' => h₂ j (Or.inl hj) j hj' rfl,
      fun hj' => h₃ j (Or.inl (Or.inl hj)) j hj' rfl⟩,
    fun j hj => ⟨fun hj' => h₂ j (Or.inr hj) j hj' rfl, fun hj' => h₃ j (Or.inl (Or.inr hj)) j hj' rfl⟩,
    fun j hj hj' => h₃ j (Or.inr hj) j hj' rfl⟩

theorem not_mem (h : Kept s imm del sys others) (hfree : s.tasks.fn task = none) :
    task ∉ sys ∧ task ∉ imm ∧ task ∉ del ∧ task ∉ others := by
  have hnot := h.ok.not_mem hfree
  simp only [List.mem_append, not_or] at hnot
  exact ⟨hnot.1.1.1, hnot.1.1.2, hnot.1.2, hnot.2⟩

theorem length_le (h : Kept s imm del sys others) :
    sys.length ≤ coreTaskPoolSize ∧ imm.length ≤ coreTaskPoolSize ∧ del.length ≤ coreTaskPoolSize := by
  refine ⟨h.ok.length_le h.systick ?_, h.ok.length_le h.immediate ?_, h.ok.length_le h.delayed ?_⟩ <;>
    · intro j hj
      simp [hj]

theorem filled_ok (h : Kept s imm del sys others) (halloc : (taskAlloc s.tasks).1 = some task) (f : F) (data : Option D) :
    (Holds.slotFilled s.tasks task f data).Ok (task :: (sys ++ imm ++ del ++ others)) := by
  obtain ⟨hlt, hfree⟩ := taskAlloc_ok h.ok halloc
  have hok : ({ s.tasks with lastFreed := none } : Tasks F D).Ok (sys ++ imm ++ del ++ others) := ⟨h.ok.nodup, h.ok.live, nofun⟩
  exact hok.fill hlt hfree rfl

theorem other (h : Kept s imm del sys others) {t' : Tasks F D} {imm' del' : List ℕ}
    (himm : Linked t'.next t'.immediate imm') (hdel : Linked t'.next t'.delayed del') (hsys : Linked t'.next s.systick sys)
    (hok : t'.Ok (sys ++ imm' ++ del' ++ others)) (hcall : ∀ j ∈ sys, t'.call j = s.tasks.call j) :
    Kept { s with tasks := t' } imm' del' sys others where
  immediate := himm
  delayed := hdel
  systick := hsys
  ok := hok
  entries := h.entries
  increasing := h.increasing
  listed j n hn := by
    have hmem : j ∈ sys := (h.entries j).2 (Option.isSome_of_mem hn)
    dsimp only
    rw [hcall j hmem]
    exact h.listed j n hn
  log := h.log
  fates := h.fates
  first := h.first

end Kept

/-! ## Calls -/

namespace Round

theorem withSlot_elim {P : Round F D → Prop} {s : Round F D} {fn : Option F} {use : Tasks F D → ℕ → F → Round F D} (hs : P s)
    (huse : ∀ f task, fn = some f → (taskAlloc s.tasks).1 = some task → P (use { s.tasks with lastFreed := none } task f)) :
    P (s.withSlot fn use).2 := by
  cases fn with
  | none => exact hs
  | some f =>
      obtain ⟨slot, t, halloc⟩ : ∃ slot t, taskAlloc s.tasks = (slot, t) := ⟨_, _, rfl⟩
      simp only [withSlot, halloc]
      cases slot with
      | none => exact hs
      | some task =>
          have huse := huse f task rfl (by rw [halloc])
          rw [taskAlloc] at halloc
          split at halloc
          case h_1 =>
            cases halloc
            exact huse
          case h_2 hfreed =>
            obtain ⟨-, rfl⟩ := Prod.mk.inj halloc
            rwa [← hfreed] at huse

end Round

namespace Walks

variable {fn : Option F} {data : Option D} {delay : ℕ}

theorem addImmediate (h : Walks s imm del sys others) : ∃ imm', Walks (s.taskAddImmediate fn data).2 imm' del sys others := by
  refine Round.withSlot_elim (P := fun s' => ∃ imm', Walks s' imm' del sys others) ⟨imm, h⟩ fun f task hfn halloc => ?_
  obtain ⟨h, hstands⟩ := h
  obtain ⟨hsys, himm, hdel, -⟩ := h.not_mem (taskAlloc_ok h.ok halloc).2
  obtain ⟨hdisj, hdisj', -⟩ := h.disjoint
  obtain ⟨hend, hkeep⟩ := Holds.slotFilled_next s.tasks task f data
  obtain ⟨hlast, hother⟩ := linkLast_linked (hkeep h.immediate himm) h.length_le.2.1 himm hend
  have hedit : Edit s.tasks { Holds.slotFilled s.tasks task f data with
      immediate := (linkLast (Holds.slotFilled s.tasks task f data).next s.tasks.immediate task).1
      next := (linkLast (Holds.slotFilled s.tasks task f data).next s.tasks.immediate task).2 } task imm :=
    edit_fill f data rfl rfl (fun _ _ => rfl) fun j hj _ => hother j hj
  have hperm : (task :: (sys ++ imm ++ del ++ others)).Perm (sys ++ (imm ++ [task]) ++ del ++ others) := by
    have hmiddle : (task :: (sys ++ imm ++ (del ++ others))).Perm (sys ++ imm ++ task :: (del ++ others)) := List.perm_middle.symm
    simpa using hmiddle
  exact ⟨imm ++ [task], h.other hlast (hedit.linked h.delayed (fun j hj hj' => (hdisj' j hj').1 hj) hdel)
    (hedit.linked h.systick (fun j hj => (hdisj j hj).1) hsys) (((h.filled_ok halloc f data).perm hperm).congr rfl rfl)
    fun j hj => hedit.call j fun heq => hsys (heq ▸ hj), hstands⟩

theorem addDelayed (h : Walks s imm del sys others) : ∃ del', Walks (s.taskAddDelayed fn data delay).2 imm del' sys others := by
  refine Round.withSlot_elim (P := fun s' => ∃ del', Walks s' imm del' sys others) ⟨del, h⟩ fun f task hfn halloc => ?_
  obtain ⟨h, hstands⟩ := h
  obtain ⟨hsys, himm, hdel, -⟩ := h.not_mem (taskAlloc_ok h.ok halloc).2
  obtain ⟨hdisj, hdisj', -⟩ := h.disjoint
  obtain ⟨hend, hkeep⟩ := Holds.slotFilled_next s.tasks task f data
  -- the slot, with the time it is due at
  let t : Tasks F D := { Holds.slotFilled s.tasks task f data with
    time := Function.update s.tasks.time task (s.ticks + delay) }
  have hl : Linked t.next t.delayed del := hkeep h.delayed hdel
  obtain ⟨l₁, l₂, rfl, hins, hother⟩ := insertDelayed_linked hl h.length_le.2.2 hdel hend
  have hedit : Edit s.tasks (insertDelayed t task) task (l₁ ++ l₂) := by
    refine edit_fill f data ?_ ?_ ?_ hother
    · rw [insertDelayed_eq]
      rfl
    · rw [insertDelayed_eq]
      rfl
    · rw [insertDelayed_eq]
      exact fun j hj => Function.update_of_ne hj ..
  have hok : (insertDelayed t task).Ok (task :: (sys ++ imm ++ (l₁ ++ l₂) ++ others)) := by
    rw [insertDelayed_eq]
    exact (h.filled_ok halloc f data).congr rfl rfl
  have hhead : (insertDelayed t task).immediate = s.tasks.immediate := by
    rw [insertDelayed_eq]
    rfl
  have hperm : (task :: (sys ++ imm ++ (l₁ ++ l₂) ++ others)).Perm (sys ++ imm ++ (l₁ ++ task :: l₂) ++ others) := by
    have hmiddle : (task :: (sys ++ imm ++ l₁ ++ (l₂ ++ others))).Perm (sys ++ imm ++ l₁ ++ task :: (l₂ ++ others)) :=
      List.perm_middle.symm
    simpa using hmiddle
  have himm' : Linked (insertDelayed t task).next (insertDelayed t task).immediate imm := by
    rw [hhead]
    exact hedit.linked h.immediate (fun j hj => (hdisj' j hj).1) himm
  exact ⟨l₁ ++ task :: l₂, h.other himm' hins (hedit.linked h.systick (fun j hj => (hdisj j hj).2.1) hsys) (hok.perm hperm)
    fun j hj => hedit.call j fun heq => hsys (heq ▸ hj), hstands⟩

theorem addSystick (h : Walks s imm del sys others) : ∃ sys', Walks (s.taskAddSystick fn data).2 imm del sys' others := by
  refine Round.withSlot_elim (P := fun s' => ∃ sys', Walks s' imm del sys' others) ⟨sys, h⟩ fun f task hfn halloc => ?_
  obtain ⟨h, hstands⟩ := h
  obtain ⟨hsys, himm, hdel, -⟩ := h.not_mem (taskAlloc_ok h.ok halloc).2
  obtain ⟨hdisj, -, -⟩ := h.disjoint
  obtain ⟨hend, hkeep⟩ := Holds.slotFilled_next s.tasks task f data
  obtain ⟨hlast, hother⟩ := linkLast_linked (hkeep h.systick hsys) h.length_le.1 hsys hend
  have hedit : Edit s.tasks { Holds.slotFilled s.tasks task f data with
      next := (linkLast (Holds.slotFilled s.tasks task f data).next s.systick task).2 } task sys :=
    edit_fill f data rfl rfl (fun _ _ => rfl) fun j hj _ => hother j hj
  have hne : ∀ j ∈ sys, j ≠ task := fun j hj heq => hsys (heq ▸ hj)
  have hentry : ∀ j ≠ task, Function.update s.entry task (some s.added.length) j = s.entry j :=
    fun j hj => Function.update_of_ne hj ..
  have hself : Function.update s.entry task (some s.added.length) task = some s.added.length := Function.update_self ..
  have hlt : ∀ j, ∀ n ∈ s.entry j, n < s.added.length := fun j n hn => (List.getElem?_eq_some_iff.1 (h.listed j n hn).1).1
  -- nothing has happened to the new entry
  have hnew : s.fates s.added.length = [] := by
    rw [Round.fates, List.map_eq_nil_iff, List.filter_eq_nil_iff]
    intro e he hn
    obtain ⟨n, hentry, hadded⟩ := h.log e he
    obtain rfl : n = s.added.length := by simpa [hentry] using hn
    simp at hadded
  have hperm : (task :: (sys ++ imm ++ del ++ others)).Perm (sys ++ [task] ++ imm ++ del ++ others) := by
    have hmiddle : (task :: (sys ++ (imm ++ del ++ others))).Perm (sys ++ task :: (imm ++ del ++ others)) := List.perm_middle.symm
    simpa using hmiddle
  refine ⟨sys ++ [task], ?_, ?_⟩
  · exact
      { immediate := hedit.linked h.immediate (fun j hj hj' => (hdisj j hj').1 hj) himm
        delayed := hedit.linked h.delayed (fun j hj hj' => (hdisj j hj').2.1 hj) hdel
        systick := hlast
        ok := ((h.filled_ok halloc f data).perm hperm).congr rfl rfl
        entries := fun j => by
          dsimp only
          by_cases hj : j = task
          · rw [hj, hself]
            simp
          · rw [hentry j hj, ← h.entries j]
            simp [hj]
        increasing := by
          refine List.pairwise_append.2 ⟨?_, List.pairwise_singleton _ _, ?_⟩
          · refine h.increasing.imp_of_mem fun {i j} hi hj hlt => ?_
            dsimp only
            rw [hentry i (hne i hi), hentry j (hne j hj)]
            exact hlt
          · intro i hi j hj
            obtain rfl := List.mem_singleton.1 hj
            dsimp only
            rw [hentry i (hne i hi), hself]
            rintro a ha _ ⟨rfl⟩
            exact hlt i a ha
        listed := by
          intro j n hn
          dsimp only at hn ⊢
          by_cases hj : j = task
          · rw [hj, hself] at hn
            obtain rfl : s.added.length = n := Option.some.inj hn
            refine ⟨?_, .inl hnew⟩
            rw [hj, List.getElem?_concat_length]
            exact congrArg some (Holds.slotFilled_call s.tasks task f data).symm
          · rw [hentry j hj] at hn
            obtain ⟨hadded, hfates⟩ := h.listed j n hn
            refine ⟨?_, hfates⟩
            rw [List.getElem?_append_left (hlt j n hn), hadded]
            exact congrArg some (hedit.call j hj).symm
        log := by
          intro e he
          obtain ⟨n, hn, hadded⟩ := h.log e he
          exact ⟨n, hn, (List.getElem?_append_left (List.getElem?_eq_some_iff.1 hadded).1).trans hadded⟩
        fates := h.fates
        first := h.first.trans (by simp) }
  · rw [Stands] at hstands ⊢
    dsimp only
    split at hstands
    · exact hstands
    · rename_i j e _
      obtain ⟨n, rfl, hlen, hcalls, hle, hloop⟩ := hstands
      refine ⟨n, rfl, by simp; omega, hcalls, hle, ?_⟩
      obtain ⟨hj, hloop⟩ | ⟨hj, hloop⟩ := hloop
      · have hmem : j ∈ sys := (h.entries j).2 (by rw [hj]; rfl)
        refine .inl ⟨(hentry j (hne j hmem)).trans hj, fun m hm => (hloop m hm).imp_right fun ⟨hlt, i, hi, hentered⟩ => ?_⟩
        exact ⟨hlt, i, List.mem_append_left _ hi, (hentry i (hne i hi)).trans hentered⟩
      · refine .inr ⟨?_, hloop⟩
        by_cases hjt : j = task
        · rw [hjt, hself]
          simp
          omega
        · rwa [hentry j hjt]

section
variable [DecidableEq F] [DecidableEq D]

/-- `task_delete_systick` takes out the first entry that matches, if there is one. -/
theorem taskDeleteSystick_linked (fn : Option F) (data : Option D) (hl : Linked s.tasks.next s.systick sys)
    (hlen : sys.length ≤ coreTaskPoolSize) :
    (s.findSystick fn data).1 = none ∧ s.taskDeleteSystick fn data = s ∨
    ∃ task l₁ l₂ next head, (s.findSystick fn data).1 = some task ∧ sys = l₁ ++ task :: l₂ ∧
      s.taskDeleteSystick fn data =
        { s with
          tasks := taskFree { s.tasks with next := next } task
          systick := head
          entry := Function.update s.entry task none
          log := s.log ++ [⟨s.entry task, .removed, s.tasks.call task⟩] } ∧
      Linked next head (l₁ ++ l₂) ∧ ∀ j ∉ sys, next j = s.tasks.next j := by
  rw [Round.taskDeleteSystick]
  obtain ⟨stop, hscan⟩ : ∃ stop, s.findSystick fn data = scan s.tasks.next stop coreTaskPoolSize s.systick none := ⟨_, rfl⟩
  rw [hscan, scan_linked hl hlen]
  cases hfind : sys.find? stop with
  | none => exact Or.inl ⟨rfl, rfl⟩
  | some task =>
      right
      obtain ⟨hstop, l₁, l₂, rfl, hbefore⟩ := List.find?_eq_some_iff_append.1 hfind
      have htake : (l₁ ++ task :: l₂).takeWhile (fun a => !stop a) = l₁ := by
        rw [List.takeWhile_append_of_pos (fun a ha => hbefore a ha)]
        simp [hstop]
      rw [htake, Option.or_none]
      rcases List.eq_nil_or_concat l₁ with rfl | ⟨l₁, prev, rfl⟩
      · exact ⟨task, [], l₂, s.tasks.next, s.tasks.next task, rfl, rfl, rfl, hl.2, fun _ _ => rfl⟩
      · rw [List.concat_eq_append, List.getLast?_concat]
        refine ⟨task, l₁ ++ [prev], l₂, Function.update s.tasks.next prev (s.tasks.next task), s.systick, rfl, rfl, rfl, ?_,
          fun j hj => Function.update_of_ne (fun h => hj ?_) ..⟩
        · have hl : Linked s.tasks.next s.systick (l₁ ++ prev :: task :: l₂) := by simpa using hl
          simpa using hl.unlink
        · simp [h]

theorem deleteSystick (h : Walks s imm del sys others)
    (hsafe : ∀ task ∈ (s.findSystick fn data).1, ∀ c ∈ s.task, c = (task, s.entry task) → s.tasks.next task = none) :
    ∃ sys', Walks (s.taskDeleteSystick fn data) imm del sys' others := by
  obtain ⟨h, hstands⟩ := h
  obtain ⟨-, heq⟩ | ⟨task, l₁, l₂, next, head, hfind, hsys, heq, hlink, hnext⟩ := taskDeleteSystick_linked fn data h.systick h.length_le.1
  · rw [heq]
    exact ⟨sys, h, hstands⟩
  rw [heq]
  have hmem : task ∈ sys := by simp [hsys]
  obtain ⟨n, hn⟩ : ∃ n, s.entry task = some n := Option.isSome_iff_exists.1 ((h.entries task).1 hmem)
  obtain ⟨hadded, hlisted⟩ := h.listed task n hn
  have hnot : task ∉ l₁ ++ l₂ := by
    have hnd : (task :: (l₁ ++ l₂)).Nodup := List.perm_middle.nodup_iff.1 (hsys ▸ h.systick.nodup)
    exact (List.nodup_cons.1 hnd).1
  have hne : ∀ j ∈ l₁ ++ l₂, j ≠ task := fun j hj heq => hnot (heq ▸ hj)
  have hsub : (l₁ ++ l₂).Sublist sys := by
    rw [hsys]
    exact (List.Sublist.refl l₁).append (List.sublist_cons_self task l₂)
  have hmem' : ∀ j, j ∈ l₁ ++ l₂ ↔ j ∈ sys ∧ j ≠ task := by
    refine fun j => ⟨fun hj => ⟨hsub.subset hj, hne j hj⟩, fun ⟨hj, hjt⟩ => ?_⟩
    rw [hsys, List.mem_append, List.mem_cons] at hj
    rw [List.mem_append]
    tauto
  obtain ⟨hdisj, hdisj', -⟩ := h.disjoint
  have hentry : ∀ j ≠ task, Function.update s.entry task none j = s.entry j := fun j hj => Function.update_of_ne hj ..
  have hself : Function.update s.entry task none task = none := Function.update_self ..
  have hedit : Edit s.tasks (taskFree { s.tasks with next := next } task) task sys :=
    Holds.edit_free rfl hnext
  obtain ⟨h₁, h₂, h₁₂⟩ := List.pairwise_append.1 (hsys ▸ h.increasing)
  -- the slots of two entries are different
  have hinj : ∀ j, s.entry j = some n → j = task := by
    intro j hj
    have hjmem : j ∈ sys := (h.entries j).2 (by rw [hj]; rfl)
    rw [hsys, List.mem_append, List.mem_cons] at hjmem
    obtain hjmem | rfl | hjmem := hjmem
    · exact absurd (h₁₂ j hjmem task List.mem_cons_self n hj n hn) (Nat.lt_irrefl n)
    · rfl
    · exact absurd ((List.pairwise_cons.1 h₂).1 j hjmem n hn n hj) (Nat.lt_irrefl n)
  generalize hs' : ({ s with
    tasks := taskFree { s.tasks with next := next } task
    systick := head
    entry := Function.update s.entry task none
    log := s.log ++ [⟨s.entry task, .removed, s.tasks.call task⟩] } : Round F D) = s'
  have hlog : s'.log = s.log ++ [⟨s.entry task, .removed, s.tasks.call task⟩] := by rw [← hs']
  have hother : ∀ m ≠ n, s'.fates m = s.fates m := fun m hm => by
    rw [fates_log hlog, hn, if_neg (fun heq => hm (Option.some.inj heq).symm), List.append_nil]
  have hsettled : s'.Settled n := settled_removed hlisted (by rw [fates_log hlog, hn, if_pos rfl])
  have hkeep : ∀ m, s.Settled m → s'.Settled m := fun m hm => by
    by_cases heq : m = n
    · exact heq ▸ hsettled
    · exact (settled_congr (hother m heq)).2 hm
  have hcalls : s'.calls = s.calls := by
    rw [Round.calls, hlog, List.countP_append, Round.calls]
    simp
  refine ⟨l₁ ++ l₂, ?_, ?_⟩
  · rw [← hs'] at hother hsettled ⊢
    exact
      { immediate := hedit.linked h.immediate (fun j hj hj' => (hdisj j hj').1 hj) fun hj => (hdisj task hmem).1 hj
        delayed := hedit.linked h.delayed (fun j hj hj' => (hdisj j hj').2.1 hj) fun hj => (hdisj task hmem).2.1 hj
        systick := hlink.congr fun j hj => Function.update_of_ne (hne j hj) ..
        ok := by
          have hperm : (sys ++ imm ++ del ++ others).Perm (task :: (l₁ ++ l₂ ++ imm ++ del ++ others)) := by
            rw [hsys]
            simp
          exact Tasks.Ok.free ((h.ok.perm hperm).congr rfl rfl)
        entries := fun j => by
          dsimp only
          by_cases hj : j = task
          · rw [hj, hself]
            simp [hnot]
          · rw [hentry j hj, ← h.entries j, hmem']
            simp [hj]
        increasing := by
          refine (h.increasing.sublist hsub).imp_of_mem fun {i j} hi hj hlt => ?_
          dsimp only
          rw [hentry i (hne i hi), hentry j (hne j hj)]
          exact hlt
        listed := by
          intro j m hm
          dsimp only at hm
          have hj : j ≠ task := by
            rintro rfl
            rw [hself] at hm
            cases hm
          rw [hentry j hj] at hm
          have hmn : m ≠ n := by
            rintro rfl
            exact hj (hinj j hm)
          obtain ⟨hadded, hlisted⟩ := h.listed j m hm
          rw [hother m hmn]
          exact ⟨hadded.trans (congrArg some (hedit.call j hj).symm), hlisted⟩
        log := by
          refine List.forall_mem_append.2 ⟨h.log, List.forall_mem_singleton.2 ?_⟩
          exact ⟨n, hn, hadded⟩
        fates := by
          intro m
          by_cases heq : m = n
          · exact .inr (heq ▸ hsettled)
          · rw [settled_congr (hother m heq), hother m heq]
            exact h.fates m
        first := h.first }
  · have htask : s'.task = s.task := by rw [← hs']
    have hfirst : s'.first = s.first := by rw [← hs']
    have hlen : s'.added = s.added := by rw [← hs']
    have hentry' : s'.entry = Function.update s.entry task none := by rw [← hs']
    rw [Stands] at hstands ⊢
    rw [htask, hfirst]
    split at hstands
    · exact fun m hm => hkeep m (hstands m hm)
    · rename_i j e htask
      obtain ⟨k, rfl, hlt, hle, hcalled, hloop⟩ := hstands
      refine ⟨k, rfl, by rwa [hlen], hcalls.trans_le hle, ?_, ?_⟩
      · rw [hlog]
        exact List.forall_mem_append.2 ⟨hcalled, List.forall_mem_singleton.2 nofun⟩
      · obtain ⟨hj, hloop⟩ | ⟨hj, hloop⟩ := hloop
        · by_cases hjt : j = task
          · -- the entry whose function is executed is the last one
            refine .inr ⟨?_, fun m hm => ?_⟩
            · rw [hentry', hjt, hself]
              exact nofun
            · have hlast : l₂ = [] := by
                have hnone : s.tasks.next task = none := hsafe task hfind (j, some k) htask (by rw [hjt, ← hj, hjt])
                have htail : Linked s.tasks.next (s.tasks.next task) l₂ := (hsys ▸ h.systick).tail
                rw [hnone] at htail
                exact htail.unique (linked_nil.2 rfl)
              obtain hm | ⟨hkm, i, hi, hentered⟩ := hloop m hm
              · exact hkeep m hm
              · -- nothing is behind it
                rw [hjt, hn] at hj
                obtain rfl : n = k := Option.some.inj hj
                rw [hsys, hlast, List.mem_append, List.mem_singleton] at hi
                obtain hi | rfl := hi
                · exact absurd (h₁₂ i hi task List.mem_cons_self m hentered n hn) (Nat.lt_asymm hkm)
                · rw [hn] at hentered
                  exact absurd hkm (Option.some.inj hentered ▸ Nat.lt_irrefl _)
          · refine .inl ⟨by rw [hentry', hentry j hjt, hj], fun m hm => ?_⟩
            by_cases hmn : m = n
            · exact .inl (hmn ▸ hsettled)
            · refine (hloop m hm).imp (hkeep m) fun ⟨hkm, i, hi, hentered⟩ => ?_
              have hit : i ≠ task := by
                rintro rfl
                rw [hn] at hentered
                exact hmn (Option.some.inj hentered).symm
              exact ⟨hkm, i, (hmem' i).2 ⟨hi, hit⟩, by rw [hentry', hentry i hit, hentered]⟩
        · refine .inr ⟨?_, fun m hm => hkeep m (hloop m hm)⟩
          rw [hentry']
          by_cases hjt : j = task
          · rw [hjt, hself]
            exact nofun
          · rwa [hentry j hjt]

end

/-! ## The loop -/

theorem call (h : Kept s imm del sys others) {p : Option ℕ} (hnone : p = none → ∀ m < s.first, s.Settled m)
    (hsome : ∀ task, p = some task → task ∈ sys ∧ ∀ n, s.entry task = some n → s.calls ≤ n ∧
      (∀ e ∈ s.log, e.fate = .called → ∀ m ∈ e.entry, m < n) ∧ ∀ m < s.first, s.Settled m ∨ n ≤ m ∧ s.Listed sys m) :
    Walks (s.call p) imm del sys others := by
  cases p with
  | none => exact ⟨{ h with }, hnone rfl⟩
  | some task =>
      obtain ⟨hmem, hsome⟩ := hsome task rfl
      obtain ⟨n, hn⟩ : ∃ n, s.entry task = some n := Option.isSome_iff_exists.1 ((h.entries task).1 hmem)
      obtain ⟨hcalls, hcalled, hloop⟩ := hsome n hn
      obtain ⟨hadded, hlisted⟩ := h.listed task n hn
      have hlog : (s.call (some task)).log = s.log ++ [⟨s.entry task, .called, s.tasks.call task⟩] := rfl
      have hother : ∀ m ≠ n, (s.call (some task)).fates m = s.fates m := fun m hm => by
        rw [fates_log hlog, hn, if_neg (fun heq => hm (Option.some.inj heq).symm), List.append_nil]
      -- it has not been called before
      have hnot : s.fates n = [] := by
        refine hlisted.resolve_right fun hfates => ?_
        have hhead : Fate.called ∈ s.fates n := by rw [hfates]; exact List.mem_cons_self
        obtain ⟨e, he, hfate⟩ := List.mem_map.1 hhead
        obtain ⟨he, hentry⟩ := List.mem_filter.1 he
        exact Nat.lt_irrefl n (hcalled e he hfate n (by simpa using hentry))
      have hself : (s.call (some task)).fates n = [.called] := by
        rw [fates_log hlog, hn, if_pos rfl, hnot, List.nil_append]
      have hkeep : ∀ m, s.Settled m → (s.call (some task)).Settled m := fun m hm => by
        by_cases heq : m = n
        · exact .inl (heq ▸ hself)
        · exact (settled_congr (hother m heq)).2 hm
      refine ⟨?_, ?_⟩
      · exact
          { h with
            listed := by
              intro j m hm
              obtain ⟨hadded, hlisted⟩ := h.listed j m hm
              refine ⟨hadded, ?_⟩
              by_cases heq : m = n
              · exact .inr (heq ▸ hself)
              · rw [hother m heq]
                exact hlisted
            log := List.forall_mem_append.2 ⟨h.log, List.forall_mem_singleton.2 ⟨n, hn, hadded⟩⟩
            fates := by
              intro m
              by_cases heq : m = n
              · exact .inr (.inl (heq ▸ hself))
              · rw [settled_congr (hother m heq), hother m heq]
                exact h.fates m }
      · refine ⟨n, hn, (List.getElem?_eq_some_iff.1 hadded).1, ?_, ?_, .inl ⟨hn, fun m hm => ?_⟩⟩
        · rw [Round.calls, hlog, List.countP_append]
          exact Nat.add_le_add_right hcalls 1
        · rw [hlog]
          refine List.forall_mem_append.2 ⟨fun e he hfate m hm => (hcalled e he hfate m hm).le, List.forall_mem_singleton.2 ?_⟩
          rintro - m hm
          exact (Option.some.inj (hm.symm.trans hn)).le
        · obtain hm | ⟨hle, hlist⟩ := hloop m hm
          · exact .inl (hkeep m hm)
          · obtain rfl | hlt := Nat.eq_or_lt_of_le hle
            · exact .inl (.inl hself)
            · exact .inr ⟨hlt, hlist⟩

theorem ret (h : Walks s imm del sys others) (hsafe : ∀ c ∈ s.task, s.entry c.1 ≠ c.2 → s.tasks.next c.1 = none)
    (hret : s.ret = some s') : Walks s' imm del sys others := by
  obtain ⟨h, hstands⟩ := h
  rw [Round.ret, Option.map_eq_some_iff] at hret
  obtain ⟨⟨j, e⟩, htask, rfl⟩ := hret
  rw [Stands, htask] at hstands
  obtain ⟨n, rfl, -, hcalls, hcalled, ⟨hj, hloop⟩ | ⟨hj, hloop⟩⟩ := hstands
  · have hmem : j ∈ sys := (h.entries j).2 (by rw [hj]; rfl)
    obtain ⟨l₁, l₂, rfl⟩ := List.append_of_mem hmem
    obtain ⟨-, h₂, h₁₂⟩ := List.pairwise_append.1 h.increasing
    have hbefore : ∀ i ∈ l₁, ∀ m, s.entry i = some m → m < n := fun i hi m hm => h₁₂ i hi j List.mem_cons_self m hm n hj
    have hnext : s.tasks.next j = l₂.head? := (Linked.tail h.systick).head
    -- those the loop has not got to are in `l₂`
    have hlisted : ∀ m, n < m → s.Listed (l₁ ++ j :: l₂) m → ∃ i ∈ l₂, s.entry i = some m := by
      rintro m hnm ⟨i, hi, hm⟩
      rw [List.mem_append, List.mem_cons] at hi
      obtain hi | rfl | hi := hi
      · exact absurd (hbefore i hi m hm) (Nat.lt_asymm hnm)
      · rw [hj] at hm
        exact absurd hnm (Option.some.inj hm ▸ Nat.lt_irrefl _)
      · exact ⟨i, hi, hm⟩
    refine call h (fun hnone m hm => ?_) fun task htask => ?_
    · rw [hnext] at hnone
      obtain hm | ⟨hnm, hlist⟩ := hloop m hm
      · exact hm
      · obtain ⟨i, hi, -⟩ := hlisted m hnm hlist
        rw [List.head?_eq_none_iff.1 hnone] at hi
        cases hi
    · rw [hnext] at htask
      obtain ⟨l₃, rfl⟩ := List.head?_eq_some_iff.1 htask
      refine ⟨by simp, fun k hk => ?_⟩
      have hnk : n < k := (List.pairwise_cons.1 h₂).1 task List.mem_cons_self n hj k hk
      refine ⟨hcalls.trans hnk, fun e he hfate m hm => (hcalled e he hfate m hm).trans_lt hnk, fun m hm => ?_⟩
      refine (hloop m hm).imp_right fun ⟨hnm, hlist⟩ => ⟨?_, hlist⟩
      obtain ⟨i, hi, hm⟩ := hlisted m hnm hlist
      obtain rfl | hi := List.mem_cons.1 hi
      · exact (Option.some.inj (hk.symm.trans hm)).le
      · exact ((List.pairwise_cons.1 (List.pairwise_cons.1 h₂).2).1 i hi k hk m hm).le
  · have hnone : s.tasks.next j = none := hsafe (j, some n) htask hj
    rw [hnone]
    exact call h (fun _ => hloop) nofun

theorem start {t : Tasks F D} {systick : Option ℕ} {ticks : ℕ} (h : WellFormed t systick) :
    ∃ imm del sys others, Walks (.start t systick ticks) imm del sys others := by
  obtain ⟨imm, del, sys, others, himm, hdel, hsys, hok⟩ := h
  have hchain : t.chain systick = sys := hok.chain_eq hsys (by simp)
  have hnodup : sys.Nodup := hsys.nodup
  have hentry : ∀ j n, (if j ∈ sys then some (sys.idxOf j) else none) = some n ↔ j ∈ sys ∧ sys.idxOf j = n := by
    intro j n
    split
    case isTrue hj => simp [hj]
    case isFalse hj => simp [hj]
  refine ⟨imm, del, sys, others, ?_⟩
  rw [Round.start, hchain]
  refine call ?_ ?_ ?_
  · exact
      { immediate := himm
        delayed := hdel
        systick := hsys
        ok := hok
        entries := fun j => by
          dsimp only
          split <;> simp [*]
        increasing := by
          rw [List.pairwise_iff_getElem]
          intro i j hi hj hij a ha b hb
          obtain ⟨-, rfl⟩ := (hentry _ _).1 ha
          obtain ⟨-, rfl⟩ := (hentry _ _).1 hb
          rwa [hnodup.idxOf_getElem, hnodup.idxOf_getElem]
        listed := by
          intro j n hn
          obtain ⟨hj, rfl⟩ := (hentry j n).1 hn
          refine ⟨?_, .inl rfl⟩
          dsimp only
          rw [List.getElem?_map, List.getElem?_idxOf hj]
          rfl
        log := nofun
        fates := fun _ => .inl rfl
        first := by simp }
  · intro hnone m hm
    rw [hnone] at hsys
    obtain rfl : sys = [] := hsys.unique (linked_nil.2 rfl)
    cases hm
  · intro task htask
    rw [htask] at hsys
    obtain ⟨l, rfl⟩ : ∃ l, sys = task :: l := List.head?_eq_some_iff.1 hsys.head.symm
    refine ⟨List.mem_cons_self, fun n hn => ?_⟩
    obtain ⟨-, rfl⟩ := (hentry task n).1 hn
    rw [List.idxOf_cons_self]
    refine ⟨le_rfl, nofun, fun m hm => .inr ⟨Nat.zero_le m, (task :: l)[m], List.getElem_mem _, ?_⟩⟩
    exact (hentry _ _).2 ⟨List.getElem_mem _, hnodup.idxOf_getElem m hm⟩

theorem step [DecidableEq F] [DecidableEq D] {a : RoundAction F D} (h : Walks s imm del sys others) (hsafe : s.Safe a)
    (hstep : s.step a = some s') : ∃ imm del sys, Walks s' imm del sys others := by
  cases a with
  | addImmediate fn data =>
      cases hstep
      obtain ⟨imm', h'⟩ : ∃ imm', Walks (s.taskAddImmediate fn data).2 imm' del sys others := h.addImmediate
      exact ⟨_, _, _, h'⟩
  | addDelayed fn data delay =>
      cases hstep
      obtain ⟨del', h'⟩ : ∃ del', Walks (s.taskAddDelayed fn data delay).2 imm del' sys others := h.addDelayed
      exact ⟨_, _, _, h'⟩
  | addSystick fn data =>
      cases hstep
      obtain ⟨sys', h'⟩ : ∃ sys', Walks (s.taskAddSystick fn data).2 imm del sys' others := h.addSystick
      exact ⟨_, _, _, h'⟩
  | deleteSystick fn data =>
      cases hstep
      obtain ⟨sys', h'⟩ := h.deleteSystick hsafe
      exact ⟨_, _, _, h'⟩
  | tick =>
      cases hstep
      exact ⟨imm, del, sys, { h.1 with }, h.2⟩
  | ret => exact ⟨imm, del, sys, h.ret hsafe hstep⟩

theorem complete (h : Walks s imm del sys others) : s.Complete := by
  obtain ⟨h, hstands⟩ := h
  refine ⟨fun hover m hm => ?_, fun n => ?_, h.log⟩
  · rw [Stands] at hstands
    split at hstands
    · exact hstands m hm
    · rename_i j e htask
      obtain ⟨n, -, -, hcalls, -, hloop⟩ := hstands
      have hfirst : s.first ≤ s.calls := hover.resolve_left (by rw [htask]; exact nofun)
      obtain ⟨-, hloop⟩ | ⟨-, hloop⟩ := hloop
      · obtain hm | ⟨hnm, -⟩ := hloop m hm
        · exact hm
        · omega
      · exact hloop m hm
  · obtain hfates | hfates | hfates | hfates := h.fates n
    all_goals
      rw [hfates]
      decide

end Walks

end

/-! ## Rounds -/

section
variable [DecidableEq F] [DecidableEq D]

/-- In every round over any list, in which no function removes its own entry unless it is the last one and nothing gets behind its
slot, every function on the list is called once unless it has been removed before its turn, and no other function is called. -/
theorem complete_of_safe {t : Tasks F D} {systick : Option ℕ} {ticks : ℕ} (hformed : WellFormed t systick)
    {as : List (RoundAction F D)} {s : Round F D} (hsafe : Along Round.step Round.Safe (.start t systick ticks) as)
    (hrun : run Round.step (.start t systick ticks) as = some s) : s.Complete := by
  obtain ⟨imm, del, sys, others, h⟩ := run_invariant_along
    (I := fun s : Round F D => ∃ imm del sys others, Walks s imm del sys others)
    (fun s a s' ⟨imm, del, sys, others, h⟩ hP hstep => by
      obtain ⟨imm', del', sys', h'⟩ := h.step hP hstep
      exact ⟨imm', del', sys', others, h'⟩)
    as _ s (Walks.start hformed) hsafe hrun
  exact h.complete

end

/-! ## Three rounds -/

/-- Three functions, in the slots 0 to 2. -/
def Example.tasks : Tasks ℕ Unit where
  immediate := none
  delayed := none
  onReset := none
  lastFreed := none
  time _ := 0
  fn task := if task < 3 then some task else none
  data _ := none
  next task := if task < 2 then some (task + 1) else none

theorem Example.wellFormed : WellFormed Example.tasks (some 0) := by
  refine ⟨[], [], [0, 1, 2], [], rfl, rfl, ⟨rfl, rfl, rfl, rfl⟩, by decide, fun i => ?_, nofun⟩
  simp only [Example.tasks, coreTaskPoolSize, List.append_nil, List.mem_cons, List.not_mem_nil]
  split <;> simp <;> omega

/-- The first function removes the second one, and adds a further one; the third one removes itself. -/
def removesNext : List (RoundAction ℕ Unit) :=
  [.deleteSystick (some 1) none, .addSystick (some 3) none, .ret, .deleteSystick (some 3) none, .deleteSystick (some 2) none, .ret]

theorem complete_of_safe_removesNext : ∃ s, run Round.step (.start Example.tasks (some 0) 0) removesNext = some s ∧ s.Complete ∧
    s.task = none ∧ s.fates 0 = [.called] ∧ s.fates 1 = [.removed] ∧ s.fates 2 = [.called, .removed] := by
  have hsafe : Along Round.step Round.Safe (.start Example.tasks (some 0) 0) removesNext := by decide +kernel
  exact ⟨_, rfl, complete_of_safe Example.wellFormed hsafe rfl, rfl, rfl, rfl, rfl⟩

def removesItself : List (RoundAction ℕ Unit) := [.deleteSystick (some 0) none, .ret]

/-- It removes itself, and adds two immediate tasks. -/
def makesRoom : List (RoundAction ℕ Unit) :=
  [.deleteSystick (some 0) none, .addImmediate (some 3) none, .addImmediate (some 4) none, .ret]

/-- The others are not called; in the second round an immediate task is. -/
theorem removed_in_its_turn : (∃ s, run Round.step (.start Example.tasks (some 0) 0) removesItself = some s ∧
      s.task = none ∧ s.fates 1 = [] ∧ s.fates 2 = [] ∧ ¬s.Complete) ∧
    ∃ s, run Round.step (.start Example.tasks (some 0) 0) makesRoom = some s ∧
      s.log.map (fun e => (e.entry, e.fate, e.call.fn)) =
        [(some 0, .called, some 0), (some 0, .removed, some 0), (none, .called, some 4)] ∧ ¬s.Complete := by
  refine ⟨⟨_, rfl, rfl, rfl, rfl, fun h => ?_⟩, ⟨_, rfl, rfl, fun h => ?_⟩⟩
  · have hsettled := h.all (.inl rfl) 1 (by decide)
    revert hsettled
    rw [Round.Settled]
    decide
  · obtain ⟨n, hn, -⟩ := h.added _ (List.mem_append_right _ List.mem_cons_self)
    cases hn

end Grbl.CoreTask
