import Mathlib
import Grbl.Ngc.FlowWorld
import Grbl.Ngc.Structured

/-!
# Runs of macro files

* `log_grows` : what has been seen stays;
* `program_runs` : reading a program without `BREAK` and `CONTINUE` executes what the program means;
* `break_leaves_loop` : `BREAK`;
* `Site.Continues`, `continue_correct` : `CONTINUE`, where the loop goes on or is a `REPEAT`;
  `continue_while_ends`, `not_continues_of_block` : a `WHILE` whose condition does not hold.
-/

namespace Grbl.Ngc

variable {β P φ : Type}

/-! ## Plain programs -/

def Frame.Plain : Frame β → Prop
  | .branch _ alts next => alts.Plain ∧ next.Plain
  | .orElse _ next => next.Plain
  | .whileDo _ _ body next | .doWhile _ body _ next | .repeatDo _ body next _ => body.Plain ∧ next.Plain

/-- Neither `BREAK` nor `CONTINUE` is left to be executed. -/
structure Config.Plain (c : Config β P) : Prop where
  code :
    match c.code with
    | .prog p => p.Plain
    | .alts _ alts next => alts.Plain ∧ next.Plain
  frames : ∀ f ∈ c.frames, f.Plain

/-- The program has been executed. -/
def Config.Finished (c : Config β P) : Prop := c.code = .prog .nil ∧ c.frames = []

section
variable {I : Interp β P} {c c' : Config β P} {frames : List (Frame β)}

theorem plain_test {text : List Char} {p : Prog β} {inner : List (Frame β)} {code : Code β}
    (hp : p.Plain) (hinner : ∀ f ∈ inner, f.Plain)
    (hcode : match code with
      | .prog p => p.Plain
      | .alts _ alts next => alts.Plain ∧ next.Plain)
    (hframes : ∀ f ∈ frames, f.Plain) : (I.test c text (.prog p, inner) (code, frames)).Plain := by
  rw [Interp.test]
  split
  · exact ⟨hp, hinner⟩
  · exact ⟨hcode, hframes⟩

/-- A step leaves no `BREAK` and no `CONTINUE` where there was none. -/
theorem plain_step (h : c.Plain) (hstep : I.step c = some c') : c'.Plain := by
  obtain ⟨code, frames, params, log⟩ := c
  obtain ⟨hcode, hframes⟩ := h
  have hcons : ∀ {f : Frame β}, f.Plain → ∀ g ∈ f :: frames, g.Plain := fun hf =>
    List.forall_mem_cons.2 ⟨hf, hframes⟩
  cases code with
  | alts l alts next =>
      obtain ⟨halts, hnext⟩ := hcode
      cases alts with
      | endIf =>
          cases hstep
          exact ⟨hnext, hframes⟩
      | orElse body =>
          cases hstep
          exact ⟨halts, hcons hnext⟩
      | elseIf text body alts =>
          cases hstep
          exact plain_test halts.1 (hcons ⟨halts.2, hnext⟩) ⟨halts.2, hnext⟩ hframes
  | prog p =>
      cases p with
      | nil =>
          cases frames with
          | nil => cases hstep
          | cons f frames =>
              cases hstep
              have hf : f.Plain := hframes f (List.mem_cons_self ..)
              have hrest : ∀ g ∈ frames, g.Plain := fun g hg => hframes g (List.mem_cons_of_mem _ hg)
              cases f with
              | branch l alts next => exact ⟨hf.2, hrest⟩
              | orElse l next => exact ⟨hf, hrest⟩
              | whileDo l text body next => exact plain_test hf.1 hframes hf.2 hrest
              | doWhile l body text next => exact plain_test hf.1 hframes hf.2 hrest
              | repeatDo l body next left =>
                  rw [Interp.close]
                  split
                  · exact ⟨hf.1, List.forall_mem_cons.2 ⟨hf, hrest⟩⟩
                  · exact ⟨hf.2, hrest⟩
      | block b next =>
          cases hstep
          exact ⟨hcode, hframes⟩
      | ifThen l text body alts next =>
          cases hstep
          exact plain_test hcode.1.1 (hcons ⟨hcode.1.2, hcode.2⟩) ⟨hcode.1.2, hcode.2⟩ hframes
      | whileDo l text body next =>
          cases hstep
          exact plain_test hcode.1 (hcons hcode) hcode.2 hframes
      | doWhile l body text next =>
          cases hstep
          exact ⟨hcode.1, hcons hcode⟩
      | repeatDo l text body next =>
          cases hcount : I.count text params with
          | zero =>
              simp only [Interp.step, hcount, Option.some.injEq] at hstep
              subst hstep
              exact ⟨hcode.2, hframes⟩
          | succ n =>
              simp only [Interp.step, hcount, Option.some.injEq] at hstep
              subst hstep
              exact ⟨hcode.1, hcons hcode⟩
      | breakOut l next => exact absurd hcode id
      | continueAt l next => exact absurd hcode id

theorem plain_finished (h : c.Plain) (hstep : I.step c = none) : c.Finished := by
  obtain ⟨code, frames, params, log⟩ := c
  obtain ⟨hcode, hframes⟩ := h
  cases code with
  | alts l alts next => cases alts <;> cases hstep
  | prog p =>
      cases p with
      | nil =>
          cases frames with
          | nil => exact ⟨rfl, rfl⟩
          | cons f frames => cases hstep
      | repeatDo l text body next => cases hcount : I.count text params <;> simp [Interp.step, hcount] at hstep
      | breakOut l next => exact absurd hcode id
      | continueAt l next => exact absurd hcode id
      | _ => cases hstep

end

/-! ## What has been seen -/

section
variable [DecidableEq φ] {I : Interp β P} {file : φ} {source : List (Line β)} {s t : Reading β P φ}

theorem host_respects_log : (I.host file).Respects fun w w' : MacroWorld β P => w.log <+: w'.log where
  refl _ := List.prefix_rfl
  trans h h' := h.trans h'
  streamReposition file' pos line w := by
    dsimp only [Interp.host]
    split <;> exact List.prefix_rfl
  streamRedirectRead _ _ := List.prefix_rfl
  streamRedirectClose _ _ := List.prefix_rfl
  malloc _ := List.prefix_rfl
  eval _ _ := List.prefix_append _ _
  paramSet _ _ _ := List.prefix_rfl
  namedParamSet _ _ _ := List.prefix_rfl
  stringParamDelete _ _ := List.prefix_rfl
  callPush _ _ := List.prefix_rfl
  callPop _ := List.prefix_rfl
  raiseAlarm _ _ := List.prefix_rfl
  macroReturn _ := List.prefix_rfl

theorem readLine_log (h : readLine I file source s = some t) : s.flow.world.log <+: t.flow.world.log := by
  rw [readLine] at h
  dsimp only at h
  split at h
  · cases h
  · split at h
    · cases h
      exact List.prefix_rfl
    · cases h
      exact List.prefix_append _ _
  · split at h
    · rename_i hflow
      cases h
      exact ngcFlowctrl_respects host_respects_log hflow
    · cases h

theorem log_grows {k : ℕ} (h : Lib.steps (readLine I file source) k s = some t) :
    s.flow.world.log <+: t.flow.world.log :=
  Lib.steps_invariant (P := fun t => s.flow.world.log <+: t.flow.world.log)
    (fun _ _ hu hstep => hu.trans (readLine_log hstep)) List.prefix_rfl h

end

def blocks (log : List (Event β)) : List β :=
  log.filterMap fun
    | .block b => some b
    | .cond _ => none

/-- The loop has another iteration. -/
def Frame.Again (I : Interp β P) (params : P) : Frame β → Prop
  | .whileDo _ text _ _ | .doWhile _ _ text _ => I.value text params ≠ 0
  | .repeatDo _ _ _ left => 1 < left
  | _ => False

/-- Every block counts down, and every expression is the count. -/
def countdown : Interp ℕ ℕ where
  exec _ count := count - 1
  value _ count := count

/-- A file that holds the program, and nothing on the stack. -/
def Prog.site (p : Prog ℕ) : Site ℕ Unit := ⟨(), p.lines, [], [], fun _ he => nomatch he⟩

def startReading (count : ℕ) : Reading ℕ ℕ Unit := ⟨{ world := ⟨0, count, []⟩ }, false⟩

namespace Site

variable [DecidableEq φ] {S : Site β φ} {I : Interp β P} {s : Reading β P φ}

/-! ## Programs -/

structure Start (S : Site β φ) (p : Prog β) (params : P) (s : Reading β P φ) : Prop where
  skip : s.skip = false
  skipSub : s.flow.skipSub = false
  stack : s.flow.stack = S.base
  params : s.flow.world.params = params
  log : s.flow.world.log = []
  lines : S.source.drop s.flow.world.pos = p.lines ++ S.post

/-- Reading is after the program, with the stack as it was. -/
structure Ended (S : Site β φ) (s : Reading β P φ) : Prop where
  skip : s.skip = false
  stack : s.flow.stack = S.base
  lines : S.source.drop s.flow.world.pos = S.post

omit [DecidableEq φ] in
theorem Start.matches {p : Prog β} {params : P}
    (hnested : p.Nested S.avoid (ngcStackDepth - S.base.length)) (h : S.Start p params s) :
    S.Matches (.start p params) s :=
  ⟨h.skip, h.skipSub, h.stack, hnested, trivial, h.params, h.log, h.lines⟩

omit [DecidableEq φ] in
theorem Matches.world {c : Config β P} (h : S.Matches c s) :
    s.flow.world.params = c.params ∧ s.flow.world.log = c.log := by
  obtain ⟨code, frames, params, log⟩ := c
  cases code with
  | prog p => exact ⟨h.params, h.log⟩
  | alts l alts next => exact ⟨h.params, h.log⟩

omit [DecidableEq φ] in
theorem Matches.ended {c : Config β P} (h : S.Matches c s) (hfin : c.Finished) : S.Ended s := by
  obtain ⟨code, frames, params, log⟩ := c
  obtain ⟨rfl, rfl⟩ : code = .prog .nil ∧ frames = [] := hfin
  exact ⟨h.skip, h.framed, h.lines⟩

theorem plain_simulation {p : Prog β} {params : P} {n : ℕ} {c : Config β P} (hplain : p.Plain)
    (hnested : p.Nested S.avoid (ngcStackDepth - S.base.length)) (hs : S.Start p params s)
    (hc : Lib.steps I.step n (.start p params) = some c) :
    c.Plain ∧ ∃ k t, n ≤ k ∧ Lib.steps (readLine I S.file S.source) k s = some t ∧ S.Matches c t := by
  have hR : ∀ (d d' : Config β P) (t : Reading β P φ), d.Plain ∧ S.Matches d t → I.step d = some d' →
      ∃ k t', 0 < k ∧ Lib.steps (readLine I S.file S.source) k t = some t' ∧ d'.Plain ∧ S.Matches d' t' := by
    rintro d d' t ⟨hd, hmatch⟩ hstep
    have hno : ∀ l next, d.code ≠ .prog (.continueAt l next) := by
      intro l next hcode
      have hplain := hd.code
      rw [hcode] at hplain
      exact hplain
    obtain ⟨k, t', hk, ht', hmatch'⟩ := (step_simulation hmatch hno hstep).steps
    exact ⟨k, t', hk, ht', plain_step hd hstep, hmatch'⟩
  have hstart : (Config.start p params).Plain := ⟨hplain, fun f hf => nomatch hf⟩
  obtain ⟨k, t, hk, ht, hcplain, hmatch⟩ := Lib.steps_simulation hR ⟨hstart, hs.matches hnested⟩ hc
  exact ⟨hcplain, k, t, hk, ht, hmatch⟩

/-- Reading a plain program executes the blocks and evaluates the conditions that the program does, in the same
order, without an error, and leaves the stack as it was. -/
theorem program_runs (S : Site β φ) (I : Interp β P) {p : Prog β} {params : P} {s : Reading β P φ}
    (hplain : p.Plain) (hnested : p.Nested S.avoid (ngcStackDepth - S.base.length))
    (hs : S.Start p params s) :
    (∀ n c, Lib.steps I.step n (.start p params) = some c →
      ∃ k t, n ≤ k ∧ Lib.steps (readLine I S.file S.source) k s = some t ∧
        t.flow.world.log = c.log ∧ t.flow.world.params = c.params ∧ (c.Finished → S.Ended t)) ∧
    ∀ k, (∃ t, Lib.steps (readLine I S.file S.source) k s = some t ∧
        ∃ n c, Lib.steps I.step n (.start p params) = some c ∧ t.flow.world.log <+: c.log) ∨
      ∃ j t, j < k ∧ Lib.steps (readLine I S.file S.source) j s = some t ∧ S.Ended t := by
  constructor
  · intro n c hc
    obtain ⟨-, k, t, hk, ht, hmatch⟩ := plain_simulation hplain hnested hs hc
    exact ⟨k, t, hk, ht, hmatch.world.2, hmatch.world.1, hmatch.ended⟩
  · intro k
    -- a run that is at least as long as `k`, or has ended
    have hlong : ∀ {n c}, Lib.steps I.step n (.start p params) = some c → ∀ {m t}, k ≤ m →
        Lib.steps (readLine I S.file S.source) m s = some t → S.Matches c t →
        ∃ t, Lib.steps (readLine I S.file S.source) k s = some t ∧
          ∃ n c, Lib.steps I.step n (.start p params) = some c ∧ t.flow.world.log <+: c.log := by
      intro n c hc m t hk ht hmatch
      obtain ⟨u, hu, hut⟩ := Lib.steps_of_le hk ht
      exact ⟨u, hu, n, c, hc, hmatch.world.2 ▸ log_grows hut⟩
    cases hc : Lib.steps I.step k (.start p params) with
    | some c =>
        obtain ⟨-, m, t, hm, ht, hmatch⟩ := plain_simulation hplain hnested hs hc
        exact Or.inl (hlong hc hm ht hmatch)
    | none =>
        obtain ⟨n, c, -, hc, hstop⟩ := Lib.steps_stops hc
        obtain ⟨hcplain, m, t, -, ht, hmatch⟩ := plain_simulation hplain hnested hs hc
        by_cases hm : m < k
        · exact Or.inr ⟨m, t, hm, ht, hmatch.ended (plain_finished hcplain hstop)⟩
        · exact Or.inl (hlong hc (Nat.le_of_not_lt hm) ht hmatch)

omit [DecidableEq φ] in
theorem start_site (p : Prog ℕ) (count : ℕ) : p.site.Start p count (startReading count) :=
  ⟨rfl, rfl, rfl, rfl, rfl, (List.append_nil _).symm⟩

/-- `WHILE`, a block, `ENDWHILE`, with 2 in the count. -/
theorem program_runs_twice : ∃ k t,
    Lib.steps (readLine countdown () (Prog.whileDo 1 [] (.block 0 .nil) (.nil : Prog ℕ)).lines) k (startReading 2) =
      some t ∧ t.flow.world.log = [.cond [], .block 0, .cond [], .block 0, .cond []] ∧ t.flow.stack = [] := by
  let p : Prog ℕ := .whileDo 1 [] (.block 0 .nil) .nil
  have hplain : p.Plain := ⟨trivial, trivial⟩
  have hnested : p.Nested p.site.avoid (ngcStackDepth - p.site.base.length) :=
    ⟨⟨List.not_mem_nil, by decide⟩, trivial, trivial⟩
  obtain ⟨hruns, -⟩ := program_runs p.site countdown hplain hnested (start_site p 2)
  have hrun : Lib.steps countdown.step 5 (.start p 2) = some ⟨.prog .nil, [], 0,
      [.cond [], .block 0, .cond [], .block 0, .cond []]⟩ := by
    simp [p, Lib.steps, Config.start, Interp.step, Interp.close, Interp.test, countdown]
  obtain ⟨k, t, -, ht, hlog, -, hended⟩ := hruns 5 _ hrun
  exact ⟨k, t, ht, hlog, (hended ⟨rfl, rfl⟩).stack⟩

/-! ## `BREAK` -/

/-- Reading on from a state of a run to a later one of the same log, there is no error, and nothing is seen. -/
theorem nothing_seen {k : ℕ} {t : Reading β P φ} (ht : Lib.steps (readLine I S.file S.source) k s = some t)
    (hlog : t.flow.world.log = s.flow.world.log) :
    ∀ j ≤ k, ∃ u, Lib.steps (readLine I S.file S.source) j s = some u ∧
      u.flow.world.log = s.flow.world.log := by
  intro j hj
  obtain ⟨u, hu, hut⟩ := Lib.steps_of_le hj ht
  have hle : u.flow.world.log <+: s.flow.world.log := hlog ▸ log_grows hut
  exact ⟨u, hu, hle.eq_of_length_le (log_grows hu).length_le⟩

/-- `BREAK` in a loop around it: the lines up to the end of the loop are read without an error, a block or a
condition, and the stack is what it was below the entry of the loop. -/
theorem break_leaves_loop {l : ℕ} {next : Prog β} {f : Frame β} {frames outer : List (Frame β)} {params : P}
    {log : List (Event β)} (h : S.Active (.breakOut l next) frames params log s)
    (hfind : findLoop l frames = some (f, outer)) :
    ∃ k t, 0 < k ∧ Lib.steps (readLine I S.file S.source) k s = some t ∧
      (∀ j ≤ k, ∃ u, Lib.steps (readLine I S.file S.source) j s = some u ∧
        u.flow.world.log = s.flow.world.log) ∧
      S.source.drop t.flow.world.pos = f.next.lines ++ S.after outer ∧
      t.flow.stack = belowLabel l s.flow.stack ∧ S.Active f.next outer params log t := by
  obtain ⟨k, t, hk, ht, hactive, hstack⟩ := (sim_break (I := I) hfind h).steps
  exact ⟨k, t, hk, ht, nothing_seen ht (hactive.log.trans h.log.symm), hactive.lines, hstack, hactive⟩

/-- `WHILE`, `IF`, `BREAK` out of the loop, `ENDIF`, a block, `ENDWHILE`, and a block that is executed next. -/
def breakFromIf : Prog ℕ := .whileDo 1 [] (.ifThen 2 [] (.breakOut 1 .nil) .endIf (.block 0 .nil)) (.block 1 .nil)

theorem break_leaves_loop_from_if : ∃ j s k t,
    Lib.steps (readLine countdown () breakFromIf.lines) j (startReading 1) = some s ∧
      Lib.steps (readLine countdown () breakFromIf.lines) k s = some t ∧
      t.flow.world.log = [.cond [], .cond []] ∧ t.flow.stack = [] ∧
      breakFromIf.lines.drop t.flow.world.pos = [.block 1] := by
  have hnested : breakFromIf.Nested breakFromIf.site.avoid (ngcStackDepth - breakFromIf.site.base.length) :=
    ⟨⟨List.not_mem_nil, by decide⟩, ⟨⟨by decide, by decide⟩, ⟨trivial, trivial⟩, trivial⟩, trivial⟩
  have hstart := (start_site breakFromIf 1).matches hnested
  obtain ⟨i, s, -, hs, hloop⟩ := (step_simulation (I := countdown) hstart nofun rfl).steps
  obtain ⟨j, t, -, ht, hif⟩ := (step_simulation (I := countdown) hloop nofun rfl).steps
  obtain ⟨k, u, -, hu, -, -, -, hactive⟩ := break_leaves_loop (I := countdown) hif rfl
  exact ⟨i + j, t, k, u, Lib.steps_trans hs ht, hu, hactive.log, hactive.framed, hactive.lines⟩

/-! ## `CONTINUE` -/

/-- What `CONTINUE` is for: no block is executed until reading is at the start of the loop's body, if it has another
iteration, and else until it is after the loop; the stack below the entry of the loop stays as it is. -/
def Continues (S : Site β φ) (I : Interp β P) (l : ℕ) (f : Frame β) (outer : List (Frame β)) (params : P)
    (s : Reading β P φ) : Prop :=
  ∃ k t, 0 < k ∧ Lib.steps (readLine I S.file S.source) k s = some t ∧ t.skip = false ∧
    blocks t.flow.world.log = blocks s.flow.world.log ∧
    (f.Again I params → (∃ body, f.body? = some body ∧
        S.source.drop t.flow.world.pos = body.lines ++ S.after (f :: outer)) ∧
      ∃ e, t.flow.stack = e :: belowLabel l s.flow.stack ∧ e.oLabel = l) ∧
    (¬f.Again I params → S.source.drop t.flow.world.pos = f.next.lines ++ S.after outer ∧
      t.flow.stack = belowLabel l s.flow.stack)

/-- `CONTINUE` does what it is for in a `REPEAT`, and in a loop whose condition holds. -/
theorem continue_correct {l : ℕ} {next : Prog β} {f : Frame β} {frames outer : List (Frame β)} {params : P}
    {log : List (Event β)} (h : S.Active (.continueAt l next) frames params log s)
    (hfind : findLoop l frames = some (f, outer))
    (hcond : (∃ l' body next' left, f = .repeatDo l' body next' left) ∨ f.Again I params) :
    S.Continues I l f outer params s := by
  obtain ⟨hfl, hloop, -⟩ := findLoop_spec (S := S) hfind
  cases f with
  | branch => cases hloop
  | orElse => cases hloop
  | repeatDo l' body next' left =>
      obtain ⟨k, t, hk, ht, hcase⟩ := (sim_continue_repeat (I := I) hfind h).steps
      by_cases hmore : 1 < left
      · rw [if_pos hmore] at hcase
        obtain ⟨hactive, htail⟩ := hcase
        obtain ⟨e, below, hst, hentry, -⟩ := hactive.framed
        rw [hst] at htail
        cases htail
        exact ⟨k, t, hk, ht, hactive.skip, by rw [hactive.log, h.log],
          fun _ => ⟨⟨body, rfl, hactive.lines⟩, e, hst, hentry.oLabel.trans hfl⟩, fun hno => absurd hmore hno⟩
      · rw [if_neg hmore] at hcase
        obtain ⟨hactive, hstack⟩ := hcase
        exact ⟨k, t, hk, ht, hactive.skip, by rw [hactive.log, h.log], fun hyes => absurd hyes hmore,
          fun _ => ⟨hactive.lines, hstack⟩⟩
  | doWhile l' body text next' =>
      have hagain : I.value text params ≠ 0 := by
        rcases hcond with ⟨_, _, _, _, hf⟩ | hagain
        · cases hf
        · exact hagain
      obtain ⟨k, t, hk, ht, hactive, htail⟩ := (sim_continue_do (I := I) hfind h).steps
      obtain ⟨e, below, hst, hentry, -⟩ := hactive.framed
      rw [hst] at htail
      cases htail
      exact ⟨k, t, hk, ht, hactive.skip, by rw [hactive.log, h.log],
        fun _ => ⟨⟨body, rfl, hactive.lines⟩, e, hst, hentry.oLabel.trans hfl⟩, fun hno => absurd hagain hno⟩
  | whileDo l' text body next' =>
      have hagain : I.value text params ≠ 0 := by
        rcases hcond with ⟨_, _, _, _, hf⟩ | hagain
        · cases hf
        · exact hagain
      obtain ⟨k, t, hk, ht, hactive, htail⟩ := (sim_continue_while hfind hagain h).steps
      obtain ⟨e, below, hst, hentry, -⟩ := hactive.framed
      rw [hst] at htail
      cases htail
      have hblocks : blocks t.flow.world.log = blocks s.flow.world.log := by
        rw [hactive.log, h.log]
        simp [blocks]
      exact ⟨k, t, hk, ht, hactive.skip, hblocks,
        fun _ => ⟨⟨body, rfl, hactive.lines⟩, e, hst, hentry.oLabel.trans hfl⟩, fun hno => absurd hagain hno⟩

/-- `WHILE`, a block, `CONTINUE`, a block, `ENDWHILE`. -/
def continueInWhile : Prog ℕ := .whileDo 1 [] (.block 0 (.continueAt 1 (.block 1 .nil))) .nil

def continueLoop : Frame ℕ := .whileDo 1 [] (.block 0 (.continueAt 1 (.block 1 .nil))) .nil

/-- Reading gets to the `CONTINUE`. -/
theorem continueInWhile_active {count : ℕ} (hcount : count ≠ 0) : ∃ k s,
    Lib.steps (readLine countdown () continueInWhile.lines) k (startReading count) = some s ∧
      continueInWhile.site.Active (.continueAt 1 (.block 1 .nil)) [continueLoop] (count - 1)
        [.cond [], .block 0] s := by
  have hnested : continueInWhile.Nested continueInWhile.site.avoid
      (ngcStackDepth - continueInWhile.site.base.length) := ⟨⟨List.not_mem_nil, by decide⟩, trivial, trivial⟩
  have hstart := (start_site continueInWhile count).matches hnested
  have hvalue : countdown.value [] count ≠ 0 := Nat.cast_ne_zero.2 hcount
  have hloop : countdown.step (.start continueInWhile count) = some
      ⟨.prog (.block 0 (.continueAt 1 (.block 1 .nil))), [continueLoop], count, [.cond []]⟩ := by
    simp [Config.start, continueInWhile, continueLoop, Interp.step, Interp.test, hvalue]
  obtain ⟨i, s, -, hs, hbody⟩ := (step_simulation hstart (by rintro _ _ ⟨⟩) hloop).steps
  obtain ⟨j, t, -, ht, hcontinue⟩ := (step_simulation (I := countdown) hbody (by rintro _ _ ⟨⟩) rfl).steps
  exact ⟨i + j, t, Lib.steps_trans hs ht, hcontinue⟩

/-- With 2 in the count, the loop has another iteration. -/
theorem continue_correct_again : ∃ k s,
    Lib.steps (readLine countdown () continueInWhile.lines) k (startReading 2) = some s ∧
      continueInWhile.site.Continues countdown 1 continueLoop [] 1 s := by
  obtain ⟨k, s, hs, hactive⟩ := continueInWhile_active two_ne_zero
  exact ⟨k, s, hs, continue_correct hactive rfl (Or.inr (Nat.cast_ne_zero.2 one_ne_zero))⟩

/-- `CONTINUE` in a `WHILE` whose condition does not hold pulls the entry, and reading goes on behind the
`CONTINUE`. -/
theorem continue_while_ends {l l' : ℕ} {text : List Char} {body next next' : Prog β}
    {frames outer : List (Frame β)} {params : P} {log : List (Event β)}
    (hfind : findLoop l frames = some (.whileDo l' text body next', outer)) (hvalue : I.value text params = 0)
    (h : S.Active (.continueAt l next) frames params log s) :
    ∃ t, readLine I S.file S.source s = some t ∧ t.skip = false ∧ t.flow.stack = belowLabel l s.flow.stack ∧
      t.flow.world.log = log ++ [Event.cond text] ∧ S.source.drop t.flow.world.pos = next.lines ++ S.after frames := by
  obtain ⟨top, below, hpop, hentry, hbelow⟩ := popTo_framed (I := I)
    (s.flow.goTo (s.flow.world.pos + 1)).world hfind h.framed
  obtain ⟨hop, hexpr, hfile, -⟩ := hentry.kind
  have hlines : S.source.drop s.flow.world.pos = Line.cmd l .continue [] :: (next.lines ++ S.after frames) :=
    h.lines
  have hcmd : command (I.host S.file) .continue ⟨l, s.flow.world.pos + 1, []⟩
      (s.flow.goTo (s.flow.world.pos + 1)) = _ :=
    cmdContinue_while (h.ready _) hpop hop hexpr hfile hentry.skip
  have hvalue' : I.value text (s.flow.goTo (s.flow.world.pos + 1)).world.params = 0 := by
    rw [show (s.flow.goTo (s.flow.world.pos + 1)).world.params = params from h.params]
    exact hvalue
  rw [if_pos hvalue'] at hcmd
  refine ⟨_, readLine_cmd hlines (by decide) (by rintro ⟨⟩) hcmd, framed_not_skipping hbelow h.skipSub,
    (popTo_below hpop).1, ?_, (getElem?_of_drop hlines).2⟩
  exact congrArg (· ++ [Event.cond text]) h.log

theorem not_continues_of_block {l l' : ℕ} {text : List Char} {b : β} {body next next' : Prog β}
    {frames outer : List (Frame β)} {params : P} {log : List (Event β)}
    (hfind : findLoop l frames = some (.whileDo l' text body next', outer)) (hvalue : I.value text params = 0)
    (h : S.Active (.continueAt l (.block b next)) frames params log s) :
    ¬S.Continues I l (.whileDo l' text body next') outer params s := by
  rintro ⟨k, t, hk, ht, -, hblocks, -, hends⟩
  obtain ⟨hend, -⟩ := hends fun hagain => hagain hvalue
  obtain ⟨u, hu, hskip, -, hlog, hlines⟩ := continue_while_ends hfind hvalue h
  obtain ⟨-, mid, hmid, -⟩ := after_findLoop hfind h.around
  obtain ⟨k, rfl⟩ := Nat.exists_eq_succ_of_ne_zero (Nat.pos_iff_ne_zero.1 hk)
  rw [Lib.steps_succ_of_some hu] at ht
  cases k with
  | zero =>
      -- the block is still to be read
      cases ht
      have hlength := congrArg List.length (hlines.symm.trans hend)
      simp [hmid, Frame.closing, Frame.next, Prog.lines] at hlength
      omega
  | succ k =>
      -- the block has been executed
      have hrest : S.source.drop u.flow.world.pos = .block b :: (next.lines ++ S.after frames) := hlines
      rw [Lib.steps_succ_of_some (readLine_block hrest hskip)] at ht
      have hle := ((log_grows ht).filterMap (fun
        | Event.block b => some b
        | .cond _ => none)).length_le
      have hlength : (blocks t.flow.world.log).length = (blocks log).length := by rw [hblocks, h.log]
      simp [blocks, hlog] at hle hlength
      omega

/-- With 1 in the count, the block after `CONTINUE` is executed. -/
theorem continue_executes_rest : ∃ k s,
    Lib.steps (readLine countdown () continueInWhile.lines) k (startReading 1) = some s ∧
      continueInWhile.site.Active (.continueAt 1 (.block 1 .nil)) [continueLoop] 0 [.cond [], .block 0] s ∧
      findLoop 1 [continueLoop] = some (continueLoop, []) ∧
      ¬continueInWhile.site.Continues countdown 1 continueLoop [] 0 s := by
  obtain ⟨k, s, hs, hactive⟩ := continueInWhile_active one_ne_zero
  exact ⟨k, s, hs, hactive, rfl, not_continues_of_block rfl Nat.cast_zero hactive⟩

end Site

end Grbl.Ngc
