import Grbl.Tasks.Machine

/-!
# What the scheduler keeps

* `Edit` : an operation touches one list, and the slot that it puts in or takes out;
* `Detached`, `FrameOk`, `Holds` : the lists behind the pointers, and what the rounds in progress rely on;
* `Holds.addImmediate`, `Holds.addDelayed`, `Holds.runOnReset`, `Holds.delete` : the calls.
-/

namespace Grbl.CoreTask
open Lib

variable {F D : Type} {o : Prop}

/-! ## Operations on one list -/

/-- Nothing is touched but the links of the list `l`, and the slot. -/
structure Edit (t t' : Tasks F D) (task : ℕ) (l : List ℕ) : Prop where
  next : ∀ j ∉ l, j ≠ task → t'.next j = t.next j
  call : ∀ j ≠ task, t'.call j = t.call j
  time : ∀ j ≠ task, t'.time j = t.time j

section
variable {t t' : Tasks F D} {task : ℕ} {l m : List ℕ}

theorem Edit.linked (h : Edit t t' task l) {p : Option ℕ} (hm : Linked t.next p m) (hdisj : ∀ j ∈ m, j ∉ l)
    (hnot : task ∉ m) : Linked t'.next p m :=
  hm.congr fun j hj => h.next j (hdisj j hj) fun heq => hnot (heq ▸ hj)

theorem Edit.calls (h : Edit t t' task l) (hnot : task ∉ m) : m.map t'.call = m.map t.call :=
  List.map_congr_left fun j hj => h.call j fun heq => hnot (heq ▸ hj)

theorem Edit.timed (h : Edit t t' task l) (hnot : task ∉ m) : m.map t'.timed = m.map t.timed :=
  List.map_congr_left fun j hj => by
    have hne : j ≠ task := fun heq => hnot (heq ▸ hj)
    rw [Tasks.timed, Tasks.timed, h.call j hne, h.time j hne]

theorem edit_fill (f : F) (data : Option D) (hfn : t'.fn = (t.fill task f data).fn)
    (hdata : t'.data = (t.fill task f data).data) (htime : ∀ j ≠ task, t'.time j = t.time j)
    (hnext : ∀ j ∉ l, j ≠ task → t'.next j = (t.fill task f data).next j) : Edit t t' task l := by
  refine ⟨fun j hj hne => (hnext j hj hne).trans (Function.update_of_ne hne ..), fun j hne => ?_, htime⟩
  rw [Tasks.call, Tasks.call, hfn, hdata]
  exact congrArg₂ Call.mk (Function.update_of_ne hne ..) (Function.update_of_ne hne ..)

theorem Edit.fn (h : Edit t t' task l) {j : ℕ} (hne : j ≠ task) : t'.fn j = t.fn j :=
  congrArg Call.fn (h.call j hne)

end

/-! ## What holds between steps -/

/-- The tasks that the rounds have taken over, innermost round first. -/
def Detached (next : ℕ → Option ℕ) : List Frame → List ℕ → Prop
  | [], l => l = []
  | f :: frames, l => ∃ l₁ l₂, l = l₁ ++ l₂ ∧ Linked next f.detached l₁ ∧ Detached next frames l₂

namespace Frame

/-- In the loop over the delayed tasks: `lock` is set. -/
def inDelayed : Frame → Bool
  | clock | check _ | head _ | due _ _ | take _ _ | unlock => true
  | _ => false

theorem inDelayed_of_taking {f : Frame} {now : ℕ × ℕ} (h : f.taking = some now) : f.inDelayed = true := by
  cases f <;> first | rfl | cases h

/-- In `task_execute_on_startup`. -/
def inReset : Frame → Bool
  | startup | resetRun _ | resetNext _ => true
  | _ => false

/-- A function that is executed, or where a round goes on after it. -/
def Waits : Frame → Prop
  | immediate _ | head _ | resetNext _ | running => True
  | _ => False

theorem resetLeft_of_waits {f : Frame} (hwaits : f.Waits) (hreset : f.inReset) : f.resetLeft.isSome := by
  cases f <;> first | rfl | exact hwaits.elim | cases hreset

end Frame

/-- What a round relies on. -/
def FrameOk (t : Tasks F D) (ticks : ℕ) (del : List ℕ) (f : Frame) : Prop :=
  (∀ now, f.now = some now → now ≤ ticks) ∧
  match f with
  | .due now task => signedDiff (t.time task) now ≤ 0 → task ∈ del
  | .take now task => signedDiff (t.time task) now ≤ 0 ∧ task ∈ del
  | .resetRun task => t.onReset = some task
  | .resetNext _ => ∃ task, t.onReset = some task ∧ t.fn task = none ∧ t.next task = none
  | _ => True

def Scheduler.resetHead (s : Scheduler F D) : Option ℕ := (s.frames.findSome? Frame.resetLeft).getD s.tasks.onReset

/-- The same elements, and in the same order if this is asked for. -/
def InOrder (o : Prop) {α : Type} (l m : List α) : Prop := l.Perm m ∧ (o → l = m)

/-- The lists behind the pointers are `det`, `imm`, `del` and `res`, and immediate tasks are executed in order if this
is asked for. -/
structure Holds (o : Prop) (s : Scheduler F D) (det imm del res : List ℕ) : Prop where
  detached : Detached s.tasks.next s.frames det
  immediate : Linked s.tasks.next s.tasks.immediate imm
  delayed : Linked s.tasks.next s.tasks.delayed del
  onReset : Linked s.tasks.next s.resetHead res
  ok : s.tasks.Ok (det ++ imm ++ del ++ res)
  waits : ∀ f ∈ s.frames.tail, f.Waits
  lock : s.frames.countP Frame.inDelayed = if s.lock then 1 else 0
  reset : s.frames.countP Frame.inReset ≤ 1
  frames : ∀ f ∈ s.frames, FrameOk s.tasks s.ticks del f
  immediateRun : InOrder o s.history.immediate (s.history.immediateRun ++ (det ++ imm).map s.tasks.call)
  onResetRun : s.history.onReset = s.history.onResetRun ++ res.map s.tasks.call
  delayedRun : s.history.delayed.Perm
    (s.history.delayedRun.map Prod.fst ++ s.history.deleted ++ del.map s.tasks.timed)
  notEarly : o → ∀ r ∈ s.history.delayedRun, r.1.2 ≤ r.2

section
variable {α : Type} {l m m' : List α}

theorem InOrder.append_right (h : InOrder o l m) (k : List α) : InOrder o (l ++ k) (m ++ k) :=
  ⟨h.1.append_right k, fun ho => by rw [h.2 ho]⟩

theorem InOrder.trans (h : InOrder o l m) (hperm : m.Perm m') (heq : o → m = m') : InOrder o l m' :=
  ⟨h.1.trans hperm, fun ho => (h.2 ho).trans (heq ho)⟩

end

section
variable {next next' : ℕ → Option ℕ} {frames : List Frame} {det : List ℕ}

theorem Detached.congr (h : ∀ j ∈ det, next' j = next j) (hd : Detached next frames det) :
    Detached next' frames det := by
  induction frames generalizing det with
  | nil => exact hd
  | cons f frames ih =>
      obtain ⟨l₁, l₂, rfl, hl, hd⟩ := hd
      exact ⟨l₁, l₂, rfl, hl.congr fun j hj => h j (List.mem_append_left _ hj),
        ih (fun j hj => h j (List.mem_append_right _ hj)) hd⟩

theorem Edit.detached {t t' : Tasks F D} {task : ℕ} {l : List ℕ} (h : Edit t t' task l)
    (hd : Detached t.next frames det) (hdisj : ∀ j ∈ det, j ∉ l) (hnot : task ∉ det) :
    Detached t'.next frames det :=
  hd.congr fun j hj => h.next j (hdisj j hj) fun heq => hnot (heq ▸ hj)

theorem detached_cons {f : Frame} (hf : f.detached = none) : Detached next (f :: frames) det ↔ Detached next frames det := by
  constructor
  · rintro ⟨l₁, l₂, rfl, hl, hd⟩
    rw [hf] at hl
    obtain rfl : l₁ = [] := hl.unique (linked_nil.2 rfl)
    exact hd
  · intro hd
    refine ⟨[], det, rfl, ?_, hd⟩
    rw [hf]
    rfl

theorem detached_eq_nil (h : ∀ f ∈ frames, f.detached = none) (hd : Detached next frames det) : det = [] := by
  induction frames with
  | nil => exact hd
  | cons f frames ih =>
      rw [detached_cons (h f List.mem_cons_self)] at hd
      exact ih (fun g hg => h g (List.mem_cons_of_mem _ hg)) hd

end

/-! ## The clock -/

theorem le_of_signedDiff {a now : ℕ} (hdue : signedDiff a now ≤ 0) (hfar : a < now + 2 ^ 31) : a ≤ now := by
  by_contra hlt
  rw [signedDiff, Int.bmod_eq_of_le (by omega) (by omega)] at hdue
  omega

/-! ## Frames -/

/-- What a round relies on stays when its task stays where it is, and `tasks.on_reset` as it is. -/
theorem FrameOk.of {t t' : Tasks F D} {ticks ticks' : ℕ} {del del' : List ℕ} {f : Frame} (h : FrameOk t ticks del f)
    (hticks : ticks ≤ ticks')
    (hkeep : ∀ now task, f.taking = some (now, task) → task ∈ del → signedDiff (t.time task) now ≤ 0 →
      t'.time task = t.time task ∧ task ∈ del')
    (hnew : ∀ task ∉ del', t'.time task = t.time task)
    (hreset : ∀ task, f.inReset → t.onReset = some task → t'.onReset = some task)
    (hstale : ∀ task, f.resetLeft.isSome → t.onReset = some task → t.fn task = none → t.next task = none →
      t'.fn task = none ∧ t'.next task = none) : FrameOk t' ticks' del' f := by
  obtain ⟨htimes, hf⟩ := h
  refine ⟨fun now hn => (htimes now hn).trans hticks, ?_⟩
  cases f with
  | due now task =>
      intro hdue
      by_contra hnot
      rw [hnew task hnot] at hdue
      exact hnot (hkeep now task rfl (hf hdue) hdue).2
  | take now task =>
      obtain ⟨htime, hmem⟩ := hkeep now task rfl hf.2 hf.1
      exact ⟨htime.symm ▸ hf.1, hmem⟩
  | resetRun task => exact hreset task rfl hf
  | resetNext next =>
      obtain ⟨task, hhead, hfn, hnext⟩ := hf
      exact ⟨task, hreset task rfl hhead, hstale task rfl hhead hfn hnext⟩
  | _ => trivial

namespace Holds

variable {s : Scheduler F D} {det imm del res : List ℕ} {task : ℕ}

theorem disjoint (h : Holds o s det imm del res) :
    (∀ j ∈ det, j ∉ imm ∧ j ∉ del ∧ j ∉ res) ∧ (∀ j ∈ imm, j ∉ del ∧ j ∉ res) ∧ ∀ j ∈ del, j ∉ res := by
  have hnd := h.ok.nodup
  simp only [List.nodup_append, List.mem_append] at hnd
  obtain ⟨⟨⟨-, -, h₁⟩, -, h₂⟩, -, h₃⟩ := hnd
  exact ⟨fun j hj => ⟨fun hj' => h₁ j hj j hj' rfl, fun hj' => h₂ j (Or.inl hj) j hj' rfl,
      fun hj' => h₃ j (Or.inl (Or.inl hj)) j hj' rfl⟩,
    fun j hj => ⟨fun hj' => h₂ j (Or.inr hj) j hj' rfl, fun hj' => h₃ j (Or.inl (Or.inr hj)) j hj' rfl⟩,
    fun j hj hj' => h₃ j (Or.inr hj) j hj' rfl⟩

theorem not_mem (h : Holds o s det imm del res) (hfree : s.tasks.fn task = none) :
    task ∉ det ∧ task ∉ imm ∧ task ∉ del ∧ task ∉ res := by
  have hnot := h.ok.not_mem hfree
  simp only [List.mem_append, not_or] at hnot
  exact ⟨hnot.1.1.1, hnot.1.1.2, hnot.1.2, hnot.2⟩

theorem length_le (h : Holds o s det imm del res) :
    imm.length ≤ coreTaskPoolSize ∧ del.length ≤ coreTaskPoolSize ∧ res.length ≤ coreTaskPoolSize := by
  refine ⟨h.ok.length_le h.immediate ?_, h.ok.length_le h.delayed ?_, h.ok.length_le h.onReset ?_⟩ <;>
    · intro j hj
      simp [hj]

end Holds

/-- A call that is not accepted changes nothing; else a slot that is not in use is filled. -/
theorem withSlot_elim {P : Scheduler F D → Prop} {s : Scheduler F D} {fn : Option F}
    {use : Tasks F D → ℕ → F → Scheduler F D} (hs : P s)
    (huse : ∀ f task, fn = some f → (taskAlloc s.tasks).1 = some task →
      P (use { s.tasks with lastFreed := none } task f)) : P (s.withSlot fn use).2 := by
  cases fn with
  | none => exact hs
  | some f =>
      obtain ⟨slot, t, halloc⟩ : ∃ slot t, taskAlloc s.tasks = (slot, t) := ⟨_, _, rfl⟩
      simp only [Scheduler.withSlot, halloc]
      cases slot with
      | none => exact hs
      | some task =>
          have huse := huse f task rfl (by rw [halloc])
          rw [taskAlloc] at halloc
          split at halloc
          case h_1 =>
            cases halloc
            exact huse
          case h_2 hfreed =>
            obtain ⟨-, rfl⟩ := Prod.mk.inj halloc
            rwa [← hfreed] at huse

/-! ## Calls -/

namespace Holds

section
variable {s : Scheduler F D} {det imm del res : List ℕ} {fn : Option F} {data : Option D}

/-- The slot `tasks.on_reset` points to is not touched, unless it is handed out. -/
theorem stale_of_edit (h : Holds o s det imm del res) {t' : Tasks F D} {task : ℕ} {l : List ℕ}
    (hedit : Edit s.tasks t' task l) (hsub : ∀ j ∈ l, j ∈ det ++ imm ++ del ++ res) {f : Frame} (hf : f ∈ s.frames)
    (halloc : (taskAlloc s.tasks).1 = some task) (hreuse : ¬s.Reuses) :
    ∀ i, f.resetLeft.isSome → s.tasks.onReset = some i → s.tasks.fn i = none → s.tasks.next i = none →
      t'.fn i = none ∧ t'.next i = none := by
  intro i hleft hhead hfn hnext
  have hne : i ≠ task := by
    rintro rfl
    exact hreuse ⟨⟨f, hf, hleft⟩, halloc.trans hhead.symm⟩
  have hnot : i ∉ l := fun hi => h.ok.not_mem hfn (hsub i hi)
  exact ⟨(hedit.fn hne).trans hfn, (hedit.next i hnot hne).trans hnext⟩

def slotFilled (t : Tasks F D) (task : ℕ) (f : F) (data : Option D) : Tasks F D :=
  { t with lastFreed := none }.fill task f data

theorem slotFilled_ok (h : Holds o s det imm del res) {task : ℕ} (halloc : (taskAlloc s.tasks).1 = some task) (f : F)
    (data : Option D) : (slotFilled s.tasks task f data).Ok (task :: (det ++ imm ++ del ++ res)) := by
  obtain ⟨hlt, hfree⟩ := taskAlloc_ok h.ok halloc
  have hok : ({ s.tasks with lastFreed := none } : Tasks F D).Ok (det ++ imm ++ del ++ res) :=
    ⟨h.ok.nodup, h.ok.live, nofun⟩
  exact hok.fill hlt hfree rfl

omit det imm del res in
theorem slotFilled_next (t : Tasks F D) (task : ℕ) (f : F) (data : Option D) :
    (slotFilled t task f data).next task = none ∧
      ∀ {p : Option ℕ} {l : List ℕ}, Linked t.next p l → task ∉ l → Linked (slotFilled t task f data).next p l := by
  refine ⟨Function.update_self .., fun hl hnot => hl.congr fun j hj => Function.update_of_ne ?_ ..⟩
  rintro rfl
  exact hnot hj

theorem slotFilled_call (t : Tasks F D) (task : ℕ) (f : F) (data : Option D) :
    (slotFilled t task f data).call task = ⟨some f, data⟩ :=
  congrArg₂ Call.mk (Function.update_self ..) (Function.update_self ..)

variable {task : ℕ}

theorem addedImmediate (h : Holds o s det imm del res) (t' : Tasks F D) (hfree : s.tasks.fn task = none)
    (halloc : (taskAlloc s.tasks).1 = some task) (hreuse : ¬s.Reuses) (hedit : Edit s.tasks t' task imm)
    (hok : t'.Ok (task :: (det ++ imm ++ del ++ res))) (hlast : Linked t'.next t'.immediate (imm ++ [task]))
    (hheads : t'.delayed = s.tasks.delayed ∧ t'.onReset = s.tasks.onReset) (htime : t'.time = s.tasks.time)
    {c : Call F D} (hcall : t'.call task = c) :
    Holds o { s with
      tasks := t'
      history := { s.history with immediate := s.history.immediate ++ [c] } } det (imm ++ [task]) del res := by
  obtain ⟨hdet, himm, hdel, hres⟩ := h.not_mem hfree
  obtain ⟨hdisj, hdisj', -⟩ := h.disjoint
  exact
    { detached := hedit.detached h.detached (fun j hj => (hdisj j hj).1) hdet
      immediate := hlast
      delayed := by
        rw [hheads.1]
        exact hedit.linked h.delayed (fun j hj hj' => (hdisj' j hj').1 hj) hdel
      onReset := by
        rw [Scheduler.resetHead, hheads.2]
        exact hedit.linked h.onReset (fun j hj hj' => (hdisj' j hj').2 hj) hres
      ok := by
        have hperm : (task :: (det ++ imm ++ (del ++ res))).Perm (det ++ imm ++ task :: (del ++ res)) :=
          List.perm_middle.symm
        exact hok.perm (by simpa using hperm)
      waits := h.waits
      lock := h.lock
      reset := h.reset
      frames := fun g hg => (h.frames g hg).of le_rfl
        (fun _ _ _ hmem _ => ⟨congrFun htime _, hmem⟩) (fun _ _ => congrFun htime _)
        (fun _ _ hhead => hheads.2.trans hhead) (h.stale_of_edit hedit (by simp +contextual) hg halloc hreuse)
      immediateRun := by
        have hnot : task ∉ det ++ imm := by simp [hdet, himm]
        rw [← List.append_assoc, List.map_append, hedit.calls hnot, ← List.append_assoc, ← hcall]
        exact h.immediateRun.append_right [t'.call task]
      onResetRun := by
        rw [hedit.calls hres]
        exact h.onResetRun
      delayedRun := by
        rw [hedit.timed hdel]
        exact h.delayedRun
      notEarly := h.notEarly }

theorem addImmediate (h : Holds o s det imm del res) (hsafe : s.Accepts fn → ¬s.Reuses) :
    ∃ imm', Holds o (s.taskAddImmediate fn data).2 det imm' del res := by
  refine withSlot_elim (P := fun s' => ∃ imm', Holds o s' det imm' del res) ⟨imm, h⟩ fun f task hfn halloc => ?_
  have hreuse : ¬s.Reuses := hsafe ⟨by rw [hfn]; rfl, by rw [halloc]; rfl⟩
  have hfree : s.tasks.fn task = none := (taskAlloc_ok h.ok halloc).2
  have himm : task ∉ imm := (h.not_mem hfree).2.1
  obtain ⟨hend, hkeep⟩ := slotFilled_next s.tasks task f data
  obtain ⟨hlast, hother⟩ := linkLast_linked (hkeep h.immediate himm) h.length_le.1 himm hend
  have hedit : Edit s.tasks { slotFilled s.tasks task f data with
      immediate := (linkLast (slotFilled s.tasks task f data).next s.tasks.immediate task).1
      next := (linkLast (slotFilled s.tasks task f data).next s.tasks.immediate task).2 } task imm :=
    edit_fill f data rfl rfl (fun _ _ => rfl) fun j hj _ => hother j hj
  exact ⟨_, h.addedImmediate _ hfree halloc hreuse hedit ((h.slotFilled_ok halloc f data).congr rfl rfl) hlast ⟨rfl, rfl⟩
    rfl (slotFilled_call s.tasks task f data)⟩

theorem addedDelayed (h : Holds o s det imm del res) (t' : Tasks F D) (hfree : s.tasks.fn task = none)
    (halloc : (taskAlloc s.tasks).1 = some task) (hreuse : ¬s.Reuses) (hedit : Edit s.tasks t' task del)
    (hok : t'.Ok (task :: (det ++ imm ++ del ++ res))) {l₁ l₂ : List ℕ} (hdel : del = l₁ ++ l₂)
    (hins : Linked t'.next t'.delayed (l₁ ++ task :: l₂))
    (hheads : t'.immediate = s.tasks.immediate ∧ t'.onReset = s.tasks.onReset)
    {c : Call F D × ℕ} (hcall : t'.timed task = c) :
    Holds o { s with
      tasks := t'
      history := { s.history with delayed := s.history.delayed ++ [c] } } det imm (l₁ ++ task :: l₂) res := by
  obtain ⟨hdet, himm, hdel', hres⟩ := h.not_mem hfree
  obtain ⟨hdisj, hdisj', hdisj''⟩ := h.disjoint
  have hmem : ∀ {j}, j ∈ l₁ ++ task :: l₂ ↔ j = task ∨ j ∈ del := by
    intro j
    rw [hdel]
    simp only [List.mem_append, List.mem_cons]
    tauto
  exact
    { detached := hedit.detached h.detached (fun j hj => (hdisj j hj).2.1) hdet
      immediate := by
        rw [hheads.1]
        exact hedit.linked h.immediate (fun j hj => (hdisj' j hj).1) himm
      delayed := hins
      onReset := by
        rw [Scheduler.resetHead, hheads.2]
        exact hedit.linked h.onReset (fun j hj hj' => hdisj'' j hj' hj) hres
      ok := by
        refine hok.perm ?_
        have hperm : (task :: (det ++ imm ++ l₁ ++ (l₂ ++ res))).Perm (det ++ imm ++ l₁ ++ task :: (l₂ ++ res)) :=
          List.perm_middle.symm
        rw [hdel]
        simpa using hperm
      waits := h.waits
      lock := h.lock
      reset := h.reset
      frames := fun g hg => (h.frames g hg).of le_rfl
        (fun _ i _ hi _ => ⟨hedit.time i fun heq => hdel' (heq ▸ hi), hmem.2 (Or.inr hi)⟩)
        (fun i hi => hedit.time i fun heq => hi (hmem.2 (Or.inl heq)))
        (fun _ _ hhead => hheads.2.trans hhead) (h.stale_of_edit hedit (by simp +contextual) hg halloc hreuse)
      immediateRun := by
        have hnot : task ∉ det ++ imm := by simp [hdet, himm]
        rw [hedit.calls hnot]
        exact h.immediateRun
      onResetRun := by
        rw [hedit.calls hres]
        exact h.onResetRun
      delayedRun := by
        have hnot : task ∉ l₁ ++ l₂ := hdel ▸ hdel'
        have hperm : ((l₁ ++ task :: l₂).map t'.timed).Perm (del.map s.tasks.timed ++ [c]) := by
          refine (List.perm_middle.map t'.timed).trans ?_
          rw [List.map_cons, hcall, hedit.timed hnot, ← hdel]
          exact (List.perm_append_singleton c _).symm
        refine (h.delayedRun.append_right [c]).trans ?_
        rw [List.append_assoc]
        exact hperm.symm.append_left _
      notEarly := h.notEarly }

theorem addDelayed {delay : ℕ} (h : Holds o s det imm del res) (hsafe : s.Accepts fn → ¬s.Reuses) :
    ∃ del', Holds o (s.taskAddDelayed fn data delay).2 det imm del' res := by
  refine withSlot_elim (P := fun s' => ∃ del', Holds o s' det imm del' res) ⟨del, h⟩ fun f task hfn halloc => ?_
  have hreuse : ¬s.Reuses := hsafe ⟨by rw [hfn]; rfl, by rw [halloc]; rfl⟩
  have hfree : s.tasks.fn task = none := (taskAlloc_ok h.ok halloc).2
  have hdel : task ∉ del := (h.not_mem hfree).2.2.1
  obtain ⟨hend, hkeep⟩ := slotFilled_next s.tasks task f data
  -- the slot, with the time it is due at
  let t : Tasks F D := { slotFilled s.tasks task f data with
    time := Function.update s.tasks.time task (s.ticks + delay) }
  have hl : Linked t.next t.delayed del := hkeep h.delayed hdel
  obtain ⟨l₁, l₂, heq, hins, hother⟩ := insertDelayed_linked hl h.length_le.2.1 hdel hend
  have htimed : (insertDelayed t task).timed task = (⟨some f, data⟩, s.ticks + delay) := by
    rw [insertDelayed_eq]
    exact Prod.ext (slotFilled_call s.tasks task f data) (Function.update_self ..)
  have hedit : Edit s.tasks (insertDelayed t task) task del := by
    refine edit_fill f data ?_ ?_ ?_ hother
    · rw [insertDelayed_eq]
      rfl
    · rw [insertDelayed_eq]
      rfl
    · rw [insertDelayed_eq]
      exact fun j hj => Function.update_of_ne hj ..
  have hok : (insertDelayed t task).Ok (task :: (det ++ imm ++ del ++ res)) := by
    rw [insertDelayed_eq]
    exact (h.slotFilled_ok halloc f data).congr rfl rfl
  have hheads : (insertDelayed t task).immediate = s.tasks.immediate ∧
      (insertDelayed t task).onReset = s.tasks.onReset := by
    rw [insertDelayed_eq]
    exact ⟨rfl, rfl⟩
  exact ⟨_, h.addedDelayed _ hfree halloc hreuse hedit hok heq hins hheads htimed⟩

/-- While no task to be run on reset is executed, the list starts at `tasks.on_reset`. -/
theorem resetHead_eq (hnot : ¬s.Resetting) : s.resetHead = s.tasks.onReset := by
  have hnone : s.frames.findSome? Frame.resetLeft = none := by
    refine List.findSome?_eq_none_iff.2 fun f hf => Option.not_isSome_iff_eq_none.1 fun hleft => ?_
    exact hnot ⟨f, hf, hleft⟩
  rw [Scheduler.resetHead, hnone, Option.getD_none]

theorem linked_resetHead (hnot : ¬s.Resetting) {next : ℕ → Option ℕ} {l : List ℕ} :
    Linked next s.resetHead l ↔ Linked next s.tasks.onReset l := by rw [resetHead_eq hnot]

theorem addedOnReset (h : Holds o s det imm del res) (t' : Tasks F D) (hfree : s.tasks.fn task = none)
    (hnot : ¬s.Resetting) (hedit : Edit s.tasks t' task res) (hok : t'.Ok (task :: (det ++ imm ++ del ++ res)))
    (hlast : Linked t'.next t'.onReset (res ++ [task]))
    (hheads : t'.immediate = s.tasks.immediate ∧ t'.delayed = s.tasks.delayed) (htime : t'.time = s.tasks.time)
    {c : Call F D} (hcall : t'.call task = c) :
    Holds o { s with
      tasks := t'
      history := { s.history with onReset := s.history.onReset ++ [c] } } det imm del (res ++ [task]) := by
  obtain ⟨hdet, himm, hdel, hres⟩ := h.not_mem hfree
  obtain ⟨hdisj, hdisj', hdisj''⟩ := h.disjoint
  have hhead : s.resetHead = s.tasks.onReset := resetHead_eq hnot
  -- the first task stays the first
  have hfirst : ∀ i, s.tasks.onReset = some i → t'.onReset = some i := by
    intro i hi
    have hres' : res.head? = some i := by rw [← h.onReset.head, hhead, hi]
    rw [hlast.head, List.head?_append, hres', Option.some_or]
  exact
    { detached := hedit.detached h.detached (fun j hj => (hdisj j hj).2.2) hdet
      immediate := by
        rw [hheads.1]
        exact hedit.linked h.immediate (fun j hj => (hdisj' j hj).2) himm
      delayed := by
        rw [hheads.2]
        exact hedit.linked h.delayed hdisj'' hdel
      onReset := by
        refine (linked_resetHead ?_).2 hlast
        exact hnot
      ok := hok.perm (by simpa using (List.perm_append_singleton task (det ++ imm ++ del ++ res)).symm)
      waits := h.waits
      lock := h.lock
      reset := h.reset
      frames := fun g hg => (h.frames g hg).of le_rfl
        (fun _ _ _ hmem _ => ⟨congrFun htime _, hmem⟩) (fun _ _ => congrFun htime _) (fun i _ hi => hfirst i hi)
        (fun _ hleft => absurd ⟨g, hg, hleft⟩ hnot)
      immediateRun := by
        have hnot : task ∉ det ++ imm := by simp [hdet, himm]
        rw [hedit.calls hnot]
        exact h.immediateRun
      onResetRun := by
        rw [List.map_append, hedit.calls hres, ← List.append_assoc, ← h.onResetRun, ← hcall]
        rfl
      delayedRun := by
        rw [hedit.timed hdel]
        exact h.delayedRun
      notEarly := h.notEarly }

theorem runOnReset (h : Holds o s det imm del res) (hsafe : s.coldStart = false → s.Accepts fn → ¬s.Resetting) :
    ∃ res', Holds o (s.taskRunOnReset fn data).2 det imm del res' := by
  rw [Scheduler.taskRunOnReset]
  split
  case isTrue => exact ⟨res, h⟩
  case isFalse hcold =>
    refine withSlot_elim (P := fun s' => ∃ res', Holds o s' det imm del res') ⟨res, h⟩ fun f task hfn halloc => ?_
    have hnot : ¬s.Resetting := hsafe (by simpa using hcold) ⟨by rw [hfn]; rfl, by rw [halloc]; rfl⟩
    have hfree : s.tasks.fn task = none := (taskAlloc_ok h.ok halloc).2
    have hres : task ∉ res := (h.not_mem hfree).2.2.2
    obtain ⟨hend, hkeep⟩ := slotFilled_next s.tasks task f data
    have hl : Linked s.tasks.next s.tasks.onReset res := resetHead_eq hnot ▸ h.onReset
    obtain ⟨hlast, hother⟩ := linkLast_linked (hkeep hl hres) h.length_le.2.2 hres hend
    have hedit : Edit s.tasks { slotFilled s.tasks task f data with
        onReset := (linkLast (slotFilled s.tasks task f data).next s.tasks.onReset task).1
        next := (linkLast (slotFilled s.tasks task f data).next s.tasks.onReset task).2 } task res :=
      edit_fill f data rfl rfl (fun _ _ => rfl) fun j hj _ => hother j hj
    exact ⟨_, h.addedOnReset _ hfree hnot hedit ((h.slotFilled_ok halloc f data).congr rfl rfl) hlast ⟨rfl, rfl⟩ rfl
      (slotFilled_call s.tasks task f data)⟩

theorem edit_free {t t' : Tasks F D} {l : List ℕ} (heq : t' = { t with next := t'.next, delayed := t'.delayed })
    (hnext : ∀ j ∉ l, t'.next j = t.next j) : Edit t (taskFree t' task) task l := by
  refine ⟨fun j hj hne => (Function.update_of_ne hne ..).trans (hnext j hj), fun j hne => ?_, fun j _ => ?_⟩
  · rw [heq]
    exact congrArg (Call.mk · (t.data j)) (Function.update_of_ne hne ..)
  · rw [heq]
    rfl

theorem removedDelayed (h : Holds o s det imm del res) (t' : Tasks F D) {l₁ l₂ : List ℕ} (hdel : del = l₁ ++ task :: l₂)
    (heq : t' = { s.tasks with next := t'.next, delayed := t'.delayed })
    (hlink : Linked t'.next t'.delayed (l₁ ++ l₂)) (hnext : ∀ j ∉ del, t'.next j = s.tasks.next j) :
    Linked (taskFree t' task).next (taskFree t' task).delayed (l₁ ++ l₂) ∧
      (taskFree t' task).Ok (det ++ imm ++ (l₁ ++ l₂) ++ res) ∧ Edit s.tasks (taskFree t' task) task del ∧
      task ∉ det ∧ task ∉ imm ∧ task ∉ l₁ ++ l₂ ∧ task ∉ res := by
  obtain ⟨hdisj, hdisj', hdisj''⟩ := h.disjoint
  have hmem : task ∈ del := by simp [hdel]
  have hnot : task ∉ l₁ ++ l₂ := by
    have hnd : (task :: (l₁ ++ l₂)).Nodup := List.perm_middle.nodup_iff.1 (hdel ▸ h.delayed.nodup)
    exact (List.nodup_cons.1 hnd).1
  have hne : ∀ j ∈ l₁ ++ l₂, j ≠ task := by
    rintro j hj rfl
    exact hnot hj
  refine ⟨hlink.congr fun j hj => Function.update_of_ne (hne j hj) .., ?_, edit_free heq hnext,
    fun hj => (hdisj task hj).2.1 hmem, fun hj => (hdisj' task hj).1 hmem, hnot, hdisj'' task hmem⟩
  have hok : t'.Ok (det ++ imm ++ del ++ res) := h.ok.congr (by rw [heq]) (by rw [heq])
  refine Tasks.Ok.free (hok.perm ?_)
  have hperm : (det ++ imm ++ l₁ ++ task :: (l₂ ++ res)).Perm (task :: (det ++ imm ++ l₁ ++ (l₂ ++ res))) :=
    List.perm_middle
  rw [hdel]
  simpa using hperm

/-- The slot `tasks.on_reset` points to is not one that is freed. -/
theorem stale_of_free (h : Holds o s det imm del res) {t' : Tasks F D} {l : List ℕ} (hedit : Edit s.tasks t' task l)
    (hsub : ∀ j ∈ task :: l, j ∈ det ++ imm ++ del ++ res) :
    ∀ i, s.tasks.fn i = none → s.tasks.next i = none → t'.fn i = none ∧ t'.next i = none := by
  intro i hfn hnext
  have hnot : i ∉ task :: l := fun hi => h.ok.not_mem hfn (hsub i hi)
  rw [List.mem_cons, not_or] at hnot
  exact ⟨(hedit.fn hnot.1).trans hfn, (hedit.next i hnot.2 hnot.1).trans hnext⟩

theorem delete [DecidableEq F] [DecidableEq D] (h : Holds o s det imm del res)
    (hsafe : ∀ task, (findDelayed s.tasks fn data).1 = some task → ∀ f ∈ s.frames, ∀ now,
      f.taking = some (now, task) → ¬signedDiff (s.tasks.time task) now ≤ 0) :
    ∃ del', Holds o (s.delete fn data) det imm del' res := by
  rw [Scheduler.delete]
  rcases taskDelete_linked fn data h.delayed h.length_le.2.1 with
    ⟨hnone, heq⟩ | ⟨task, l₁, l₂, t', hfind, hdel, heq, ht', hlink, hnext⟩
  · rw [hnone, heq, Option.toList_none, List.map_nil, List.append_nil]
    exact ⟨del, h⟩
  rw [hfind, heq, Option.toList_some, List.map_singleton]
  obtain ⟨hlinked, hok, hedit, hdet, himm, hnot, hres⟩ := h.removedDelayed t' hdel ht' hlink hnext
  obtain ⟨hdisj, hdisj', hdisj''⟩ := h.disjoint
  have htime : (taskFree t' task).time = s.tasks.time := by
    rw [ht']
    rfl
  have hsub : ∀ j ∈ l₁ ++ l₂, j ∈ del := fun j hj => by
    rw [hdel]
    simp only [List.mem_append, List.mem_cons] at hj ⊢
    tauto
  have hheads : (taskFree t' task).immediate = s.tasks.immediate ∧ (taskFree t' task).onReset = s.tasks.onReset := by
    rw [ht']
    exact ⟨rfl, rfl⟩
  have hmem : task ∈ del := by simp [hdel]
  have hstale := h.stale_of_free hedit (by
    rintro j hj
    have hj : j ∈ del := (List.mem_cons.1 hj).elim (fun heq => heq ▸ hmem) id
    simp [hj])
  generalize taskFree t' task = t'' at *
  refine ⟨l₁ ++ l₂, ?_⟩
  exact
    { detached := hedit.detached h.detached (fun j hj => (hdisj j hj).2.1) hdet
      immediate := by
        rw [hheads.1]
        exact hedit.linked h.immediate (fun j hj => (hdisj' j hj).1) himm
      delayed := hlinked
      onReset := by
        rw [Scheduler.resetHead, hheads.2]
        exact hedit.linked h.onReset (fun j hj hj' => hdisj'' j hj' hj) hres
      ok := hok
      waits := h.waits
      lock := h.lock
      reset := h.reset
      frames := fun g hg => (h.frames g hg).of le_rfl
        (fun now i htake hi hdue => by
          have hne : i ≠ task := by
            rintro rfl
            exact hsafe i hfind g hg now htake hdue
          refine ⟨congrFun htime i, ?_⟩
          rw [hdel] at hi
          simpa [hne] using hi)
        (fun _ _ => congrFun htime _) (fun _ _ hhead => hheads.2.trans hhead) (fun i _ _ => hstale i)
      immediateRun := by
        have hnot : task ∉ det ++ imm := by simp [hdet, himm]
        rw [hedit.calls hnot]
        exact h.immediateRun
      onResetRun := by
        rw [hedit.calls hres]
        exact h.onResetRun
      delayedRun := by
        rw [hedit.timed hnot]
        refine h.delayedRun.trans ?_
        have hperm : (del.map s.tasks.timed).Perm (s.tasks.timed task :: (l₁ ++ l₂).map s.tasks.timed) := by
          rw [hdel]
          exact List.perm_middle.map _
        simpa using hperm.append_left (s.history.delayedRun.map Prod.fst ++ s.history.deleted)
      notEarly := h.notEarly }

end

end Holds

end Grbl.CoreTask
