import Grbl.Tasks.Invariant

/-!
# Rounds keep the lists

* `Frame.weight`, `Scheduler.load` : how much is left to do;
* `Holds.reframe`, `Holds.detach`, `Holds.runImmediate`, `Holds.runDelayed`, `Holds.runReset`, `Holds.nextReset` : the
  parts of a round;
* `Holds.go`, `Holds.step`.
-/

namespace Grbl.CoreTask
open Lib

variable {F D : Type} {o : Prop}

/-- How much is left to do in a round before it ends or executes a task. -/
@[simp] def Frame.weight : Frame → ℕ
  | entered => 10
  | detach => 9
  | immediate _ => 8
  | locking => 7
  | clock => 6
  | check _ => 5
  | head _ => 4
  | due _ _ | startup | resetNext _ => 3
  | take _ _ | resetRun _ => 2
  | unlock | running => 1

/-- How much is left to do in all rounds, when these are the pending tasks. -/
def Scheduler.load (s : Scheduler F D) (tasks : List ℕ) : ℕ := 4 * tasks.length + (s.frames.map Frame.weight).sum

namespace Holds

/-! ## Rounds -/

section
variable {s : Scheduler F D} {det imm del res : List ℕ} {task : ℕ} {f g : Frame} {rest frames : List Frame}

theorem reframe (h : Holds o s det imm del res) {lastMs : ℕ} {lock : Bool}
    (hdet : Detached s.tasks.next s.frames det → Detached s.tasks.next frames det)
    (hleft : frames.findSome? Frame.resetLeft = s.frames.findSome? Frame.resetLeft)
    (hwaits : ∀ f ∈ frames.tail, f.Waits) (hlock : frames.countP Frame.inDelayed = if lock then 1 else 0)
    (hreset : frames.countP Frame.inReset ≤ 1) (hframes : ∀ f ∈ frames, FrameOk s.tasks s.ticks del f) :
    Holds o { s with lastMs := lastMs, lock := lock, frames := frames } det imm del res :=
  { h with
    detached := hdet h.detached
    onReset := by
      rw [Scheduler.resetHead, hleft]
      exact h.onReset
    waits := hwaits
    lock := hlock
    reset := hreset
    frames := hframes }

theorem replace (h : Holds o s det imm del res) {lastMs : ℕ} {lock : Bool} (hs : s.frames = f :: rest)
    (hf : f.detached = none ∧ f.resetLeft = none) (hg : g.detached = none ∧ g.resetLeft = none)
    (hlock : (g :: rest).countP Frame.inDelayed = if lock then 1 else 0) (hreset : g.inReset = f.inReset)
    (hframe : FrameOk s.tasks s.ticks del g) :
    Holds o { s with lastMs := lastMs, lock := lock, frames := g :: rest } det imm del res := by
  refine h.reframe ?_ ?_ ?_ hlock ?_ ?_
  · rw [hs, detached_cons hf.1, detached_cons hg.1]
    exact id
  · rw [hs, List.findSome?_cons, List.findSome?_cons, hf.2, hg.2]
  · have hwaits := h.waits
    rwa [hs] at hwaits
  · have hcount := h.reset
    rwa [hs, List.countP_cons, ← hreset, ← List.countP_cons] at hcount
  · refine List.forall_mem_cons.2 ⟨hframe, fun f' hf' => h.frames f' ?_⟩
    rw [hs]
    exact List.mem_cons_of_mem _ hf'

theorem advance (h : Holds o s det imm del res) (hs : s.frames = f :: rest)
    (hf : f.detached = none ∧ f.resetLeft = none) (hg : g.detached = none ∧ g.resetLeft = none)
    (hlock : g.inDelayed = f.inDelayed) (hreset : g.inReset = f.inReset) (hframe : FrameOk s.tasks s.ticks del g) :
    Holds o { s with frames := g :: rest } det imm del res := by
  refine h.replace hs hf hg ?_ hreset hframe
  have hcount := h.lock
  rwa [hs, List.countP_cons, ← hlock, ← List.countP_cons] at hcount

theorem leave (h : Holds o s det imm del res) {lock : Bool} (hs : s.frames = f :: rest)
    (hf : f.detached = none ∧ f.resetLeft = none) (hlock : rest.countP Frame.inDelayed = if lock then 1 else 0) :
    Holds o { s with lock := lock, frames := rest } det imm del res := by
  refine h.reframe ?_ ?_ ?_ hlock ?_ ?_
  · rw [hs, detached_cons hf.1]
    exact id
  · rw [hs, List.findSome?_cons, hf.2]
  · intro g hg
    refine h.waits g ?_
    rw [hs]
    exact List.mem_of_mem_tail hg
  · have hcount := h.reset
    rw [hs, List.countP_cons] at hcount
    exact (Nat.le_add_right ..).trans hcount
  · intro g hg
    refine h.frames g ?_
    rw [hs]
    exact List.mem_cons_of_mem _ hg

theorem detach (h : Holds o s det imm del res) (hs : s.frames = .detach :: rest)
    (hsafe : o → s.tasks.immediate ≠ none → ∀ f ∈ rest, f.detached = none) :
    Holds o { s with
      tasks := { s.tasks with immediate := none }
      frames := .immediate s.tasks.immediate :: rest } (imm ++ det) [] del res := by
  have hdet : Detached s.tasks.next rest det := (detached_cons rfl).1 (hs ▸ h.detached)
  have hperm : (imm ++ det).Perm (det ++ imm) := List.perm_append_comm
  have hcomm : o → det ++ imm = imm ++ det := by
    intro ho
    by_cases hnone : s.tasks.immediate = none
    · obtain rfl : imm = [] := h.immediate.unique (by rw [hnone]; exact linked_nil.2 rfl)
      rw [List.nil_append, List.append_nil]
    · rw [detached_eq_nil (hsafe ho hnone) hdet, List.nil_append, List.append_nil]
  have hrest : ∀ g ∈ rest, FrameOk s.tasks s.ticks del g := fun g hg => h.frames g (hs ▸ List.mem_cons_of_mem _ hg)
  exact
    { h with
      detached := ⟨imm, det, rfl, h.immediate, hdet⟩
      immediate := rfl
      onReset := by
        have hhead := h.onReset
        rw [Scheduler.resetHead, hs] at hhead
        exact hhead
      ok := by
        rw [List.append_nil]
        have hok := h.ok.perm ((hperm.symm.append_right del).append_right res)
        exact hok.congr rfl rfl
      waits := by
        have hwaits := h.waits
        rwa [hs] at hwaits
      lock := by
        have hlock := h.lock
        rwa [hs] at hlock
      reset := by
        have hreset := h.reset
        rwa [hs] at hreset
      frames := List.forall_mem_cons.2 ⟨⟨nofun, trivial⟩, hrest⟩
      immediateRun := by
        rw [List.append_nil]
        exact h.immediateRun.trans ((hperm.symm.map _).append_left _) fun ho => by rw [hcomm ho]; rfl }

theorem runImmediate (h : Holds o s det imm del res) (hs : s.frames = .immediate (some task) :: rest) :
    ∃ det', det = task :: det' ∧ Holds o { s with
      tasks := taskFree s.tasks task
      frames := .running :: .immediate (s.tasks.next task) :: rest
      history := { s.history with immediateRun := s.history.immediateRun ++ [s.tasks.call task] } } det' imm del res := by
  obtain ⟨l₁, l₂, rfl, hl, hdet⟩ := (hs ▸ h.detached : Detached s.tasks.next (.immediate (some task) :: rest) det)
  cases l₁ with
  | nil => cases (hl : some task = none)
  | cons i l₁ =>
      obtain ⟨heq, hl⟩ := hl
      cases (heq : some task = some i)
      obtain ⟨hdisj, -, -⟩ := h.disjoint
      obtain ⟨himm, hdel, hres⟩ := hdisj task List.mem_cons_self
      have hok : (taskFree s.tasks task).Ok (l₁ ++ l₂ ++ imm ++ del ++ res) := Tasks.Ok.free h.ok
      have hnot : task ∉ l₁ ++ l₂ := by
        have hnd := h.ok.nodup
        simp only [List.cons_append, List.nodup_cons, List.mem_append, not_or] at hnd
        simp [hnd.1]
      have hedit : Edit s.tasks (taskFree s.tasks task) task [] := edit_free rfl fun _ _ => rfl
      have hlink : ∀ {p : Option ℕ} {l : List ℕ}, Linked s.tasks.next p l → task ∉ l →
          Linked (taskFree s.tasks task).next p l := fun hl hnot => hedit.linked hl (fun _ _ => List.not_mem_nil) hnot
      have hstale := h.stale_of_free hedit (by simp)
      have hrest : ∀ g ∈ rest, FrameOk (taskFree s.tasks task) s.ticks del g := fun g hg => by
        have hg := h.frames g (hs ▸ List.mem_cons_of_mem _ hg)
        exact hg.of le_rfl (fun _ _ _ hmem _ => ⟨rfl, hmem⟩) (fun _ _ => rfl)
          (fun _ _ hhead => hhead) fun i _ _ => hstale i
      refine ⟨l₁ ++ l₂, rfl, ?_⟩
      exact
        { detached := ⟨[], l₁ ++ l₂, rfl, rfl, l₁, l₂, rfl, hlink hl fun hmem => hnot (List.mem_append_left _ hmem),
            hedit.detached hdet (fun _ _ => List.not_mem_nil) fun hmem => hnot (List.mem_append_right _ hmem)⟩
          immediate := hlink h.immediate himm
          delayed := hlink h.delayed hdel
          onReset := by
            have hhead := h.onReset
            rw [Scheduler.resetHead, hs] at hhead
            exact hlink hhead hres
          ok := hok
          waits := by
            have hwaits := h.waits
            rw [hs] at hwaits
            exact List.forall_mem_cons.2 ⟨trivial, hwaits⟩
          lock := by
            have hlock := h.lock
            rwa [hs] at hlock
          reset := by
            have hreset := h.reset
            rwa [hs] at hreset
          frames := List.forall_mem_cons.2 ⟨⟨nofun, trivial⟩, List.forall_mem_cons.2 ⟨⟨nofun, trivial⟩, hrest⟩⟩
          immediateRun := by
            have hnot : task ∉ l₁ ++ l₂ ++ imm := by
              rw [List.mem_append, not_or]
              exact ⟨hnot, himm⟩
            rw [hedit.calls hnot]
            simpa using h.immediateRun
          onResetRun := by
            rw [hedit.calls hres]
            exact h.onResetRun
          delayedRun := by
            rw [hedit.timed hdel]
            exact h.delayedRun
          notEarly := h.notEarly }

theorem not_inDelayed (h : Holds o s det imm del res) (hs : s.frames = f :: rest) (hf : f.inDelayed) :
    s.lock = true ∧ ∀ g ∈ rest, g.inDelayed = false := by
  have hlock := h.lock
  rw [hs, List.countP_cons_of_pos hf] at hlock
  cases hl : s.lock with
  | false =>
      rw [hl] at hlock
      simp at hlock
  | true =>
      rw [hl] at hlock
      have hzero : rest.countP Frame.inDelayed = 0 := by simpa using hlock
      exact ⟨rfl, fun g hg => by simpa using List.countP_eq_zero.1 hzero g hg⟩

theorem not_inReset (h : Holds o s det imm del res) (hs : s.frames = f :: rest) (hf : f.inReset) :
    (∀ g ∈ rest, g.inReset = false) ∧ rest.findSome? Frame.resetLeft = none := by
  have hreset := h.reset
  rw [hs, List.countP_cons_of_pos hf] at hreset
  have hzero : rest.countP Frame.inReset = 0 := by omega
  have hnot : ∀ g ∈ rest, g.inReset = false := fun g hg => by simpa using List.countP_eq_zero.1 hzero g hg
  refine ⟨hnot, List.findSome?_eq_none_iff.2 fun g hg => ?_⟩
  have hg := hnot g hg
  cases g <;> first | rfl | cases hg

theorem not_mem_rest (h : Holds o s det imm del res) (hs : s.frames = f :: rest) (hg : g ∈ rest) :
    FrameOk s.tasks s.ticks del g := h.frames g (hs ▸ List.mem_cons_of_mem _ hg)

theorem runDelayed {now : ℕ} (h : Holds o s det imm del res) (hs : s.frames = .take now task :: rest)
    (hfar : o → s.tasks.time task < now + 2 ^ 31) :
    ∃ del', del'.length + 1 = del.length ∧ Holds o { s with
      tasks := taskFree (unlinkDelayed s.tasks task) task
      frames := .running :: .head now :: rest
      history := { s.history with
        delayedRun := s.history.delayedRun ++ [((unlinkDelayed s.tasks task).timed task, s.ticks)] } }
      det imm del' res := by
  obtain ⟨htimes, hdue, hmem⟩ := h.frames (.take now task) (hs ▸ List.mem_cons_self)
  have hnow : now ≤ s.ticks := htimes now rfl
  obtain ⟨hlock, hothers⟩ := h.not_inDelayed hs rfl
  obtain ⟨l₁, l₂, hdel, hlink, hnext⟩ := unlinkDelayed_linked h.delayed h.length_le.2.1 hmem
  have heq := unlinkDelayed_eq s.tasks task
  obtain ⟨hlinked, hok, hedit, hdet, himm, hnot, hres⟩ := h.removedDelayed _ hdel heq hlink hnext
  obtain ⟨hdisj, hdisj', hdisj''⟩ := h.disjoint
  have htimed : (unlinkDelayed s.tasks task).timed task = s.tasks.timed task := by
    rw [heq]
    rfl
  have htime : (taskFree (unlinkDelayed s.tasks task) task).time = s.tasks.time := by
    rw [heq]
    rfl
  have hheads : (taskFree (unlinkDelayed s.tasks task) task).immediate = s.tasks.immediate ∧
      (taskFree (unlinkDelayed s.tasks task) task).onReset = s.tasks.onReset := by
    rw [heq]
    exact ⟨rfl, rfl⟩
  have hsub : ∀ j ∈ l₁ ++ l₂, j ∈ del := fun j hj => by
    rw [hdel]
    simp only [List.mem_append, List.mem_cons] at hj ⊢
    tauto
  have hstale := h.stale_of_free hedit (by
    rintro j hj
    have hj : j ∈ del := (List.mem_cons.1 hj).elim (fun heq => heq ▸ hmem) id
    simp [hj])
  rw [htimed]
  generalize taskFree (unlinkDelayed s.tasks task) task = t' at *
  have hrest : ∀ g ∈ rest, FrameOk t' s.ticks (l₁ ++ l₂) g := by
    intro g hg
    have hdelayed := hothers g hg
    refine (h.not_mem_rest hs hg).of le_rfl (fun _ _ htake => ?_) (fun _ _ => congrFun htime _)
      (fun _ _ hhead => hheads.2.trans hhead) fun i _ _ => hstale i
    exact absurd (hdelayed.symm.trans (Frame.inDelayed_of_taking htake)) Bool.false_ne_true
  refine ⟨l₁ ++ l₂, by rw [hdel]; simp; omega, ?_⟩
  exact
    { detached := by
        have hd := h.detached
        rw [hs] at hd
        exact (detached_cons rfl).2 ((detached_cons rfl).2
          (hedit.detached ((detached_cons rfl).1 hd) (fun j hj => (hdisj j hj).2.1) hdet))
      immediate := by
        rw [hheads.1]
        exact hedit.linked h.immediate (fun j hj => (hdisj' j hj).1) himm
      delayed := hlinked
      onReset := by
        have hhead := h.onReset
        rw [Scheduler.resetHead, hs] at hhead
        rw [Scheduler.resetHead, hheads.2]
        exact hedit.linked hhead (fun j hj hj' => hdisj'' j hj' hj) hres
      ok := hok
      waits := by
        have hwaits := h.waits
        rw [hs] at hwaits
        exact List.forall_mem_cons.2 ⟨trivial, hwaits⟩
      lock := by
        have hcount := h.lock
        rwa [hs] at hcount
      reset := by
        have hcount := h.reset
        rwa [hs] at hcount
      frames := by
        refine List.forall_mem_cons.2 ⟨⟨(by rintro _ ⟨⟩), trivial⟩, List.forall_mem_cons.2 ⟨⟨?_, trivial⟩, hrest⟩⟩
        rintro _ ⟨rfl⟩
        exact hnow
      immediateRun := by
        have hnot : task ∉ det ++ imm := by simp [hdet, himm]
        rw [hedit.calls hnot]
        exact h.immediateRun
      onResetRun := by
        rw [hedit.calls hres]
        exact h.onResetRun
      delayedRun := by
        rw [hedit.timed hnot]
        refine h.delayedRun.trans ?_
        have hperm : (del.map s.tasks.timed).Perm (s.tasks.timed task :: (l₁ ++ l₂).map s.tasks.timed) := by
          rw [hdel]
          exact List.perm_middle.map _
        have hmove : (s.history.deleted ++ s.tasks.timed task :: (l₁ ++ l₂).map s.tasks.timed).Perm
            (s.tasks.timed task :: (s.history.deleted ++ (l₁ ++ l₂).map s.tasks.timed)) := List.perm_middle
        refine (hperm.append_left _).trans ?_
        simpa using hmove.append_left (s.history.delayedRun.map Prod.fst)
      notEarly := by
        refine fun ho => List.forall_mem_append.2 ⟨h.notEarly ho, List.forall_mem_singleton.2 ?_⟩
        exact (le_of_signedDiff hdue (hfar ho)).trans hnow }

theorem runReset (h : Holds o s det imm del res) (hs : s.frames = .resetRun task :: rest) :
    ∃ res', res = task :: res' ∧ Holds o { s with
      tasks := taskFree s.tasks task
      frames := .running :: .resetNext (s.tasks.next task) :: rest
      history := { s.history with onResetRun := s.history.onResetRun ++ [s.tasks.call task] } } det imm del res' := by
  have hhead : s.tasks.onReset = some task := (h.frames (.resetRun task) (hs ▸ List.mem_cons_self)).2
  obtain ⟨hothers, hnone⟩ := h.not_inReset hs rfl
  have hres : Linked s.tasks.next (some task) res := by
    have hres := h.onReset
    rw [Scheduler.resetHead, hs, List.findSome?_cons, hnone] at hres
    exact hhead ▸ hres
  cases res with
  | nil => cases (hres : some task = none)
  | cons i res =>
      obtain ⟨heq, hl⟩ := hres
      cases (heq : some task = some i)
      obtain ⟨hdisj, hdisj', hdisj''⟩ := h.disjoint
      have hdet : task ∉ det := fun hmem => (hdisj task hmem).2.2 List.mem_cons_self
      have himm : task ∉ imm := fun hmem => (hdisj' task hmem).2 List.mem_cons_self
      have hdel : task ∉ del := fun hmem => hdisj'' task hmem List.mem_cons_self
      have hnot : task ∉ res := (List.nodup_cons.1 h.onReset.nodup).1
      have hedit : Edit s.tasks (taskFree s.tasks task) task [] := edit_free rfl fun _ _ => rfl
      have hlink : ∀ {p : Option ℕ} {l : List ℕ}, Linked s.tasks.next p l → task ∉ l →
          Linked (taskFree s.tasks task).next p l := fun hl hnot => hedit.linked hl (fun _ _ => List.not_mem_nil) hnot
      have hrest : ∀ g ∈ rest, FrameOk (taskFree s.tasks task) s.ticks del g := fun g hg => by
        have hok := h.not_mem_rest hs hg
        exact hok.of le_rfl (fun _ _ _ hmem _ => ⟨rfl, hmem⟩) (fun _ _ => rfl)
          (fun _ _ hhead => hhead) fun i hleft => by
            rw [List.findSome?_eq_none_iff.1 hnone g hg] at hleft
            cases hleft
      refine ⟨res, rfl, ?_⟩
      exact
        { detached := by
            have hd := h.detached
            rw [hs] at hd
            exact (detached_cons rfl).2 ((detached_cons rfl).2
              (hedit.detached ((detached_cons rfl).1 hd) (fun _ _ => List.not_mem_nil) hdet))
          immediate := hlink h.immediate himm
          delayed := hlink h.delayed hdel
          onReset := hlink hl hnot
          ok := Tasks.Ok.free (h.ok.perm List.perm_middle)
          waits := by
            have hwaits := h.waits
            rw [hs] at hwaits
            exact List.forall_mem_cons.2 ⟨trivial, hwaits⟩
          lock := by
            have hcount := h.lock
            rwa [hs] at hcount
          reset := by
            have hcount := h.reset
            rwa [hs] at hcount
          frames := by
            refine List.forall_mem_cons.2 ⟨⟨(by rintro _ ⟨⟩), trivial⟩, List.forall_mem_cons.2 ⟨⟨(by rintro _ ⟨⟩), ?_⟩, hrest⟩⟩
            exact ⟨task, hhead, Function.update_self .., Function.update_self ..⟩
          immediateRun := by
            have hnot : task ∉ det ++ imm := by simp [hdet, himm]
            rw [hedit.calls hnot]
            exact h.immediateRun
          onResetRun := by
            rw [hedit.calls hnot, h.onResetRun]
            simp
          delayedRun := by
            rw [hedit.timed hdel]
            exact h.delayedRun
          notEarly := h.notEarly }

/-- `tasks.on_reset` is what is left of the list. -/
theorem nextReset {next : Option ℕ} (h : Holds o s det imm del res) (hs : s.frames = .resetNext next :: rest)
    (htop : frames = match next with
      | none => rest
      | some task => .resetRun task :: rest) :
    Holds o { s with tasks := { s.tasks with onReset := next }, frames := frames } det imm del res := by
  obtain ⟨hothers, hnone⟩ := h.not_inReset hs rfl
  have hres : Linked s.tasks.next next res := by
    have hres := h.onReset
    rwa [Scheduler.resetHead, hs, List.findSome?_cons] at hres
  have hdet : Detached s.tasks.next rest det := (detached_cons rfl).1 (hs ▸ h.detached)
  have hwaits : ∀ f ∈ rest, f.Waits := by
    have hwaits := h.waits
    rwa [hs] at hwaits
  have hlock : rest.countP Frame.inDelayed = if s.lock then 1 else 0 := by
    have hcount := h.lock
    rwa [hs] at hcount
  have hzero : rest.countP Frame.inReset = 0 := List.countP_eq_zero.2 fun g hg => by simp [hothers g hg]
  have hrest : ∀ g ∈ rest, FrameOk { s.tasks with onReset := next } s.ticks del g := fun g hg => by
    have hok := h.not_mem_rest hs hg
    refine hok.of le_rfl (fun _ _ _ hmem _ => ⟨rfl, hmem⟩) (fun _ _ => rfl)
      (fun _ hreset => ?_) fun _ _ _ hfn hnext => ⟨hfn, hnext⟩
    rw [hothers g hg] at hreset
    cases hreset
  cases next with
  | none =>
      subst htop
      exact
        { h with
          detached := hdet
          onReset := by
            rw [Scheduler.resetHead, hnone]
            exact hres
          ok := h.ok.congr rfl rfl
          waits := fun g hg => hwaits g (List.mem_of_mem_tail hg)
          lock := hlock
          reset := hzero.trans_le (Nat.zero_le 1)
          frames := hrest }
  | some task =>
      subst htop
      exact
        { h with
          detached := (detached_cons rfl).2 hdet
          onReset := by
            rw [Scheduler.resetHead, List.findSome?_cons, hnone]
            exact hres
          ok := h.ok.congr rfl rfl
          waits := hwaits
          lock := hlock
          reset := by
            rw [List.countP_cons, hzero]
            exact le_rfl
          frames := List.forall_mem_cons.2 ⟨⟨(by rintro _ ⟨⟩), rfl⟩, hrest⟩ }

theorem load_replace {s' : Scheduler F D} {l : List ℕ} (hs : s.frames = f :: rest) (hs' : s'.frames = g :: rest)
    (hlt : g.weight < f.weight) : s'.load l < s.load l := by
  simp only [Scheduler.load, hs, hs', List.map_cons, List.sum_cons]
  omega

theorem load_leave {s' : Scheduler F D} {l : List ℕ} (hs : s.frames = f :: rest) (hs' : s'.frames = rest)
    (hlt : 0 < f.weight) : s'.load l < s.load l := by
  simp only [Scheduler.load, hs, hs', List.map_cons, List.sum_cons]
  omega

theorem load_run {s' : Scheduler F D} {l l' : List ℕ} (hs : s.frames = f :: rest)
    (hs' : s'.frames = .running :: g :: rest) (hlen : l'.length + 1 = l.length) (hlt : g.weight < f.weight + 3) :
    s'.load l' < s.load l := by
  have hone : Frame.running.weight = 1 := rfl
  simp only [Scheduler.load, hs, hs', List.map_cons, List.sum_cons, hone]
  omega

theorem go {s' : Scheduler F D} (h : Holds o s det imm del res) (hs : s.frames = f :: rest)
    (hsafe : o → f = .detach → s.tasks.immediate ≠ none → ∀ g ∈ rest, g.detached = none)
    (hfar : o → ∀ r ∈ f.taking, s.tasks.time r.2 < r.1 + 2 ^ 31)
    (hgo : s.go f rest = some s') : ∃ det' imm' del' res', Holds o s' det' imm' del' res' ∧
      s'.load (det' ++ imm' ++ del' ++ res') < s.load (det ++ imm ++ del ++ res) ∧
      (det' ++ imm' ++ del' ++ res').length ≤ (det ++ imm ++ del ++ res).length := by
  have hlock : (f :: rest).countP Frame.inDelayed = if s.lock then 1 else 0 := hs ▸ h.lock
  have hframe : FrameOk s.tasks s.ticks del f := h.frames f (hs ▸ List.mem_cons_self)
  cases f with
  | entered =>
      cases hgo
      refine ⟨det, imm, del, res, ?_⟩
      split
      · exact ⟨h.replace hs ⟨rfl, rfl⟩ ⟨rfl, rfl⟩ hlock rfl ⟨(by rintro _ ⟨⟩), trivial⟩, load_replace hs rfl (by simp), le_rfl⟩
      · exact ⟨h.replace hs ⟨rfl, rfl⟩ ⟨rfl, rfl⟩ hlock rfl ⟨(by rintro _ ⟨⟩), trivial⟩, load_replace hs rfl (by simp), le_rfl⟩
  | detach =>
      cases hgo
      refine ⟨_, _, _, _, h.detach hs fun ho => hsafe ho rfl, ?_, ?_⟩
      · simp [Scheduler.load, hs]
        omega
      · simp
        omega
  | immediate task =>
      cases task with
      | none =>
          cases hgo
          exact ⟨det, imm, del, res, h.replace hs ⟨rfl, rfl⟩ ⟨rfl, rfl⟩ hlock rfl ⟨(by rintro _ ⟨⟩), trivial⟩,
            load_replace hs rfl (by simp), le_rfl⟩
      | some task =>
          cases hgo
          obtain ⟨det', rfl, h'⟩ := h.runImmediate hs
          have hlen : (det' ++ imm ++ del ++ res).length + 1 = (task :: det' ++ imm ++ del ++ res).length := by
            simp only [List.length_append, List.length_cons]
            omega
          exact ⟨_, _, _, _, h', load_run hs rfl hlen (by simp), hlen ▸ Nat.le_succ _⟩
  | locking =>
      simp only [Scheduler.go] at hgo
      split at hgo
      case isTrue =>
        cases hgo
        exact ⟨det, imm, del, res, h.leave hs ⟨rfl, rfl⟩ hlock, load_leave hs rfl (by simp), le_rfl⟩
      case isFalse hfree =>
        cases hgo
        refine ⟨det, imm, del, res, h.replace hs ⟨rfl, rfl⟩ ⟨rfl, rfl⟩ ?_ rfl ⟨(by rintro _ ⟨⟩), trivial⟩, load_replace hs rfl (by simp), le_rfl⟩
        have hzero : rest.countP Frame.inDelayed = 0 := by
          rw [List.countP_cons] at hlock
          simpa [hfree, Frame.inDelayed] using hlock
        rw [List.countP_cons, hzero]
        rfl
  | clock =>
      cases hgo
      refine ⟨det, imm, del, res, h.replace hs ⟨rfl, rfl⟩ ⟨rfl, rfl⟩ hlock rfl ⟨?_, trivial⟩, load_replace hs rfl (by simp), le_rfl⟩
      rintro _ ⟨rfl⟩
      exact le_rfl
  | check now =>
      simp only [Scheduler.go] at hgo
      split at hgo
      · cases hgo
        exact ⟨det, imm, del, res, h.replace hs ⟨rfl, rfl⟩ ⟨rfl, rfl⟩ hlock rfl ⟨(by rintro _ ⟨⟩), trivial⟩,
          load_replace hs rfl (by simp), le_rfl⟩
      · cases hgo
        exact ⟨det, imm, del, res, h.replace hs ⟨rfl, rfl⟩ ⟨rfl, rfl⟩ hlock rfl ⟨hframe.1, trivial⟩,
          load_replace hs rfl (by simp), le_rfl⟩
  | head now =>
      simp only [Scheduler.go] at hgo
      split at hgo
      case h_1 =>
        cases hgo
        exact ⟨det, imm, del, res, h.replace hs ⟨rfl, rfl⟩ ⟨rfl, rfl⟩ hlock rfl ⟨(by rintro _ ⟨⟩), trivial⟩,
          load_replace hs rfl (by simp), le_rfl⟩
      case h_2 task htask =>
        cases hgo
        have hmem : task ∈ del := by
          have hhead := h.delayed.head
          rw [htask] at hhead
          exact List.mem_of_mem_head? hhead.symm
        exact ⟨det, imm, del, res, h.replace hs ⟨rfl, rfl⟩ ⟨rfl, rfl⟩ hlock rfl ⟨hframe.1, fun _ => hmem⟩,
          load_replace hs rfl (by simp), le_rfl⟩
  | due now task =>
      cases hgo
      refine ⟨det, imm, del, res, ?_⟩
      split
      case isTrue hdue =>
        exact ⟨h.replace hs ⟨rfl, rfl⟩ ⟨rfl, rfl⟩ hlock rfl ⟨hframe.1, hdue, hframe.2 hdue⟩, load_replace hs rfl (by simp), le_rfl⟩
      case isFalse => exact ⟨h.replace hs ⟨rfl, rfl⟩ ⟨rfl, rfl⟩ hlock rfl ⟨(by rintro _ ⟨⟩), trivial⟩, load_replace hs rfl (by simp), le_rfl⟩
  | take now task =>
      cases hgo
      obtain ⟨del', hlen, h'⟩ := h.runDelayed hs fun ho => hfar ho (now, task) rfl
      have hlen : (det ++ imm ++ del' ++ res).length + 1 = (det ++ imm ++ del ++ res).length := by
        simp only [List.length_append]
        omega
      exact ⟨_, _, _, _, h', load_run hs rfl hlen (by simp), hlen ▸ Nat.le_succ _⟩
  | unlock =>
      cases hgo
      obtain ⟨-, hothers⟩ := h.not_inDelayed hs rfl
      refine ⟨det, imm, del, res, h.leave hs ⟨rfl, rfl⟩ ?_, load_leave hs rfl (by simp), le_rfl⟩
      exact List.countP_eq_zero.2 fun g hg => by simp [hothers g hg]
  | startup =>
      simp only [Scheduler.go] at hgo
      split at hgo
      case h_1 =>
        cases hgo
        exact ⟨det, imm, del, res, h.leave hs ⟨rfl, rfl⟩ hlock, load_leave hs rfl (by simp), le_rfl⟩
      case h_2 task htask =>
        cases hgo
        exact ⟨det, imm, del, res, h.replace hs ⟨rfl, rfl⟩ ⟨rfl, rfl⟩ hlock rfl ⟨(by rintro _ ⟨⟩), htask⟩,
          load_replace hs rfl (by simp), le_rfl⟩
  | resetRun task =>
      cases hgo
      obtain ⟨res', rfl, h'⟩ := h.runReset hs
      have hlen : (det ++ imm ++ del ++ res').length + 1 = (det ++ imm ++ del ++ task :: res').length := by
        simp only [List.length_append, List.length_cons]
        omega
      exact ⟨_, _, _, _, h', load_run hs rfl hlen (by simp), hlen ▸ Nat.le_succ _⟩
  | resetNext next =>
      cases next with
      | none =>
          cases hgo
          exact ⟨det, imm, del, res, h.nextReset hs rfl, load_leave hs rfl (by simp), le_rfl⟩
      | some task =>
          cases hgo
          exact ⟨det, imm, del, res, h.nextReset hs rfl, load_replace hs rfl (by simp), le_rfl⟩
  | running => cases hgo

theorem enter (h : Holds o s det imm del res) (hcalling : s.calling = true)
    (hf : f.detached = none ∧ f.resetLeft = none ∧ f.inDelayed = false ∧ FrameOk s.tasks s.ticks del f)
    (hreset : f.inReset = true → ¬s.Resetting) : Holds o { s with frames := f :: s.frames } det imm del res := by
  have hwaits : ∀ g ∈ s.frames, g.Waits := by
    have hwaits := h.waits
    rw [Scheduler.calling] at hcalling
    split at hcalling
    case h_1 hs =>
      rw [hs]
      exact nofun
    case h_2 rest hs =>
      rw [hs] at hwaits ⊢
      exact List.forall_mem_cons.2 ⟨trivial, hwaits⟩
    case h_3 => cases hcalling
  refine h.reframe ((detached_cons hf.1).2) ?_ hwaits ?_ ?_ (List.forall_mem_cons.2 ⟨hf.2.2.2, h.frames⟩)
  · rw [List.findSome?_cons, hf.2.1]
  · rw [List.countP_cons, hf.2.2.1]
    exact h.lock
  · cases hin : f.inReset with
    | false =>
        rw [List.countP_cons, hin]
        exact h.reset
    | true =>
        have hzero : s.frames.countP Frame.inReset = 0 := by
          refine List.countP_eq_zero.2 fun g hg hreset' => hreset hin ⟨g, hg, ?_⟩
          exact Frame.resetLeft_of_waits (hwaits g hg) hreset'
        rw [List.countP_cons, hzero, hin]
        exact le_rfl

theorem finish (h : Holds o s det imm del res) (hs : s.frames = .running :: rest) :
    Holds o { s with frames := rest } det imm del res := by
  have hlock := h.lock
  rw [hs] at hlock
  exact h.leave hs ⟨rfl, rfl⟩ hlock

theorem tick (h : Holds o s det imm del res) : Holds o { s with ticks := s.ticks + 1 } det imm del res := by
  refine { h with frames := fun g hg => ?_ }
  have hok := h.frames g hg
  exact hok.of (Nat.le_succ _) (fun _ _ _ hmem _ => ⟨rfl, hmem⟩) (fun _ _ => rfl)
    (fun _ _ hhead => hhead) fun _ _ _ hfn hnext => ⟨hfn, hnext⟩

theorem step [DecidableEq F] [DecidableEq D] {s' : Scheduler F D} {a : Action F D} (h : Holds o s det imm del res)
    (hsafe : s.Safe a) (hstep : s.step a = some s') :
    ∃ det imm del res, Holds o s' det imm del res := by
  cases a with
  | addImmediate fn data =>
      cases hstep
      obtain ⟨imm', h'⟩ : ∃ imm', Holds o (s.taskAddImmediate fn data).2 det imm' del res := h.addImmediate hsafe
      exact ⟨_, _, _, _, h'⟩
  | addDelayed fn data delay =>
      cases hstep
      obtain ⟨del', h'⟩ : ∃ del', Holds o (s.taskAddDelayed fn data delay).2 det imm del' res :=
        h.addDelayed hsafe
      exact ⟨_, _, _, _, h'⟩
  | runOnReset fn data =>
      cases hstep
      obtain ⟨res', h'⟩ : ∃ res', Holds o (s.taskRunOnReset fn data).2 det imm del res' := h.runOnReset hsafe
      exact ⟨_, _, _, _, h'⟩
  | delete fn data =>
      cases hstep
      have hsafe : ∀ task ∈ (findDelayed s.tasks fn data).1, ∀ f ∈ s.frames, ∀ r ∈ f.taking,
          r.2 = task → ¬signedDiff (s.tasks.time task) r.1 ≤ 0 := hsafe
      obtain ⟨del', h'⟩ := h.delete fun task hfind f hf now htake => hsafe task hfind f hf (now, task) htake rfl
      exact ⟨_, _, _, _, h'⟩
  | tick =>
      cases hstep
      exact ⟨det, imm, del, res, h.tick⟩
  | warm =>
      cases hstep
      exact ⟨det, imm, del, res, { h with }⟩
  | execute =>
      simp only [Scheduler.step] at hstep
      split at hstep
      case isTrue hcalling =>
        cases hstep
        exact ⟨det, imm, del, res, h.enter hcalling ⟨rfl, rfl, rfl, nofun, trivial⟩ nofun⟩
      case isFalse => cases hstep
  | executeOnStartup =>
      simp only [Scheduler.step] at hstep
      split at hstep
      case isTrue hcalling =>
        cases hstep
        exact ⟨det, imm, del, res, h.enter hcalling ⟨rfl, rfl, rfl, nofun, trivial⟩ fun _ => hsafe⟩
      case isFalse => cases hstep
  | go =>
      simp only [Scheduler.step] at hstep
      split at hstep
      case h_1 => cases hstep
      case h_2 f rest hs =>
        have hdetach : o → f = .detach → s.tasks.immediate ≠ none → ∀ g ∈ rest, g.detached = none := by
          rintro - rfl
          have hsafe : s.frames.head? = _ → _ → ∀ g ∈ s.frames.tail, g.detached = none := hsafe.1
          rw [hs] at hsafe
          exact hsafe rfl
        have hfar : o → ∀ r ∈ f.taking, s.tasks.time r.2 < r.1 + 2 ^ 31 := by
          have hsafe : ∀ r ∈ s.frames.head?.bind Frame.taking, s.tasks.time r.2 < r.1 + 2 ^ 31 := hsafe.2
          rw [hs] at hsafe
          exact fun _ => hsafe
        obtain ⟨det', imm', del', res', h', -⟩ := h.go hs hdetach hfar hstep
        exact ⟨_, _, _, _, h'⟩
  | finish =>
      simp only [Scheduler.step] at hstep
      split at hstep
      case h_1 rest hs =>
        cases hstep
        exact ⟨det, imm, del, res, h.finish hs⟩
      case h_2 => cases hstep

end

end Holds

end Grbl.CoreTask
