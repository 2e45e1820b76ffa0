import Grbl.Ngc.MacroFile

/-!
# Reading structured programs

* `Site` : the file and the stack around a program;
* `Site.Framed` : the stack holds an entry for each construct that is being executed;
* `Site.Active`, `Site.Waiting`, `Site.Matches` : reading has got as far as the program has been executed;
* `Site.step_simulation` : a step of the program is made by reading some lines.
-/

namespace Grbl.Ngc

variable {β P φ : Type}

/-- The file a program is in, the lines that follow it, and the stack when it starts. -/
structure Site (β φ : Type) where
  file : φ
  source : List (Line β)
  post : List (Line β)
  base : List (Entry φ)
  active : ∀ e ∈ base.head?, e.skip = false ∧ e.brk = false

def Frame.Nested (avoid : List ℕ) (room : ℕ) : Frame β → Prop
  | .branch l alts next => (l ∉ avoid ∧ 0 < room) ∧ alts.Nested (l :: avoid) (room - 1) ∧ next.Nested avoid room
  | .orElse l next => (l ∉ avoid ∧ 0 < room) ∧ next.Nested avoid room
  | .whileDo l _ body next | .doWhile l body _ next | .repeatDo l body next _ =>
      (l ∉ avoid ∧ 0 < room) ∧ body.Nested (l :: avoid) (room - 1) ∧ next.Nested avoid room

theorem Frame.Nested.label {avoid : List ℕ} {room : ℕ} {f : Frame β} (h : f.Nested avoid room) :
    f.oLabel ∉ avoid ∧ 0 < room := by
  cases f <;> exact h.1

theorem Frame.Nested.next {avoid : List ℕ} {room : ℕ} {f : Frame β} (h : f.Nested avoid room) :
    f.next.Nested avoid room := by
  cases f with
  | orElse l next => exact h.2
  | _ => exact h.2.2

namespace Site

variable (S : Site β φ)

/-- The label of a `DO` around the program: its own `WHILE` lines have other labels. -/
def avoid : List ℕ := (S.base.head?.toList.filter fun e => decide (e.operation = .do)).map (·.oLabel)

/-- The labels of what is around the body of the innermost construct. -/
def labels (frames : List (Frame β)) : List ℕ := frames.map (·.oLabel) ++ S.avoid

/-- How many more constructs can be entered. -/
def room (frames : List (Frame β)) : ℕ := ngcStackDepth - S.base.length - frames.length

/-- What is to be read after the body of the innermost construct. -/
def after : List (Frame β) → List (Line β)
  | [] => S.post
  | f :: frames => f.closing ++ (f.next.lines ++ after frames)

def Nested : List (Frame β) → Prop
  | [] => True
  | f :: frames => f.Nested (S.labels frames) (S.room frames) ∧ Nested frames

def StartsAt (body : Prog β) (f : Frame β) (frames : List (Frame β)) (e : Entry φ) : Prop :=
  e.file = some S.file ∧ S.source.drop e.filePos = body.lines ++ S.after (f :: frames)

/-- The entry of a construct whose body is being executed. -/
structure EntryOf (f : Frame β) (frames : List (Frame β)) (e : Entry φ) : Prop where
  oLabel : e.oLabel = f.oLabel
  skip : e.skip = false
  brk : e.brk = false
  kind :
    match f with
    | .branch _ _ _ => (e.operation = .if ∨ e.operation = .elseIf) ∧ e.handled = true
    | .orElse _ _ => e.operation = .else
    | .whileDo _ text body _ => e.operation = .while ∧ e.expr = some text ∧ S.StartsAt body f frames e
    | .doWhile _ body _ _ => e.operation = .do ∧ S.StartsAt body f frames e
    | .repeatDo _ body _ left => e.operation = .repeat ∧ (e.repeats = left ∧ 0 < left) ∧ S.StartsAt body f frames e

def Framed : List (Frame β) → List (Entry φ) → Prop
  | [], stack => stack = S.base
  | f :: frames, stack => ∃ e below, stack = e :: below ∧ S.EntryOf f frames e ∧ Framed frames below

section
variable {S}

theorem framed_length : ∀ {frames : List (Frame β)} {stack : List (Entry φ)}, S.Framed frames stack →
    stack.length = frames.length + S.base.length
  | [], stack, h => by
      cases h
      simp
  | f :: frames, _, ⟨e, below, rfl, _, h⟩ => by
      rw [List.length_cons, List.length_cons, framed_length h]
      omega

theorem framed_room {frames : List (Frame β)} {stack : List (Entry φ)} (h : S.Framed frames stack)
    (hroom : 0 < S.room frames) : stack.length < ngcStackDepth := by
  rw [room] at hroom
  rw [framed_length h]
  omega

/-- Nothing is skipped, and an entry of a `DO` is avoided. -/
theorem framed_top {frames : List (Frame β)} {stack : List (Entry φ)} (h : S.Framed frames stack) :
    ∀ e ∈ stack.head?, e.skip = false ∧ e.brk = false ∧ (e.operation = .do → e.oLabel ∈ S.labels frames) := by
  cases frames with
  | nil =>
      cases h
      intro e he
      obtain ⟨hskip, hbrk⟩ := S.active e he
      refine ⟨hskip, hbrk, fun hdo => ?_⟩
      have he : S.base.head? = some e := he
      simp [labels, avoid, he, hdo]
  | cons f frames =>
      obtain ⟨top, below, rfl, hentry, -⟩ := h
      rintro e ⟨rfl⟩
      refine ⟨hentry.skip, hentry.brk, fun _ => ?_⟩
      simp [labels, hentry.oLabel]

theorem framed_not_skipping {frames : List (Frame β)} {s : Flow (MacroWorld β P) φ}
    (h : S.Framed frames s.stack) (hsub : s.skipSub = false) : s.skipping = false := by
  rw [Flow.skipping, hsub, Bool.false_or]
  cases hst : s.stack with
  | nil => rfl
  | cons top below => exact (framed_top h top (by rw [hst]; rfl)).1

theorem framed_not_brk {frames : List (Frame β)} {stack : List (Entry φ)} (h : S.Framed frames stack) :
    stack.head?.any (·.brk) = false := by
  cases hst : stack with
  | nil => rfl
  | cons top below => exact (framed_top h top (by rw [hst]; rfl)).2.1

end

/-- Reading is about to execute the program inside the constructs. -/
structure Active (p : Prog β) (frames : List (Frame β)) (params : P) (log : List (Event β))
    (s : Reading β P φ) : Prop where
  skip : s.skip = false
  skipSub : s.flow.skipSub = false
  framed : S.Framed frames s.flow.stack
  nested : p.Nested (S.labels frames) (S.room frames)
  around : S.Nested frames
  params : s.flow.world.params = params
  log : s.flow.world.log = log
  lines : S.source.drop s.flow.world.pos = p.lines ++ S.after frames

/-- Reading is at the end of a body that has been skipped, because the condition in front of it does not hold. -/
structure Waiting (l : ℕ) (alts : Alts β) (next : Prog β) (frames : List (Frame β)) (params : P)
    (log : List (Event β)) (s : Reading β P φ) : Prop where
  skip : s.skip = true
  skipSub : s.flow.skipSub = false
  framed : ∃ top below, s.flow.stack = top :: below ∧ S.Framed frames below ∧ top.oLabel = l ∧
    (top.operation = .if ∨ top.operation = .elseIf) ∧ top.skip = true ∧ top.handled = false ∧ top.brk = false
  nested : (Frame.branch l alts next).Nested (S.labels frames) (S.room frames)
  around : S.Nested frames
  params : s.flow.world.params = params
  log : s.flow.world.log = log
  lines : S.source.drop s.flow.world.pos = alts.lines l ++ (next.lines ++ S.after frames)

def Matches (c : Config β P) (s : Reading β P φ) : Prop :=
  match c.code with
  | .prog p => S.Active p c.frames c.params c.log s
  | .alts l alts next => S.Waiting l alts next c.frames c.params c.log s

/-! ## Steps -/

section
variable {S} [DecidableEq φ] {I : Interp β P}

/-- Reading some lines leads to a state of the kind. -/
def Reaches (S : Site β φ) (I : Interp β P) (s : Reading β P φ) (Q : Reading β P φ → Prop) : Prop :=
  ∃ k t, Lib.steps (readLine I S.file S.source) k s = some t ∧ Q t

/-- The same with at least one line. -/
def Advances (S : Site β φ) (I : Interp β P) (s : Reading β P φ) (Q : Reading β P φ → Prop) : Prop :=
  ∃ t, readLine I S.file S.source s = some t ∧ S.Reaches I t Q

variable {s : Reading β P φ} {Q : Reading β P φ → Prop}

theorem Reaches.here (h : Q s) : S.Reaches I s Q := ⟨0, s, rfl, h⟩

theorem Advances.reaches (h : S.Advances I s Q) : S.Reaches I s Q := by
  obtain ⟨u, hu, k, t, ht, hQ⟩ := h
  exact ⟨k + 1, t, by rw [Lib.steps_succ_of_some hu, ht], hQ⟩

theorem Advances.steps (h : S.Advances I s Q) :
    ∃ k t, 0 < k ∧ Lib.steps (readLine I S.file S.source) k s = some t ∧ Q t := by
  obtain ⟨u, hu, k, t, ht, hQ⟩ := h
  exact ⟨k + 1, t, Nat.succ_pos k, by rw [Lib.steps_succ_of_some hu, ht], hQ⟩

theorem Advances.mono {Q' : Reading β P φ → Prop} (h : S.Advances I s Q) (hQ : ∀ t, Q t → Q' t) :
    S.Advances I s Q' := by
  obtain ⟨u, hu, k, t, ht, hQt⟩ := h
  exact ⟨u, hu, k, t, ht, hQ t hQt⟩

theorem Advances.cmd {l : ℕ} {operation : FlowCmd} {text : List Char} {rest : List (Line β)}
    {flow : Flow (MacroWorld β P) φ}
    (hline : S.source.drop s.flow.world.pos = Line.cmd l operation text :: rest) (hno : operation ≠ .noOp)
    (helse : operation = .else → text = [])
    (hcmd : command (I.host S.file) operation ⟨l, s.flow.world.pos + 1, text⟩
      (s.flow.goTo (s.flow.world.pos + 1)) = some (none, flow))
    (h : S.Reaches I ⟨flow, flow.skipping⟩ Q) : S.Advances I s Q :=
  ⟨_, readLine_cmd hline hno helse hcmd, h⟩

theorem Reaches.skip {lines rest : List (Line β)} {top : Entry φ} {below : List (Entry φ)}
    (hst : s.flow.stack = top :: below) (htop : top.skip = true) (hskip : s.skip = true)
    (hpassive : ∀ line ∈ lines, line.Passive top.oLabel)
    (hlines : S.source.drop s.flow.world.pos = lines ++ rest)
    (h : ∀ pos, S.source.drop pos = rest → S.Reaches I ⟨s.flow.goTo pos, true⟩ Q) : S.Reaches I s Q := by
  obtain ⟨pos, hsteps, hpos⟩ := skip_lines (I := I) hst htop hskip hpassive hlines
  obtain ⟨k, t, ht, hQ⟩ := h pos hpos
  exact ⟨lines.length + k, t, Lib.steps_trans hsteps ht, hQ⟩

omit [DecidableEq φ] in
theorem room_cons (f : Frame β) (frames : List (Frame β)) : S.room (f :: frames) = S.room frames - 1 := by
  rw [room, room, List.length_cons]
  omega

omit [DecidableEq φ] in
theorem Active.of_flow {p : Prog β} {frames : List (Frame β)} {params : P} {log : List (Event β)}
    {flow : Flow (MacroWorld β P) φ} (hsub : flow.skipSub = false) (hframed : S.Framed frames flow.stack)
    (hnested : p.Nested (S.labels frames) (S.room frames)) (haround : S.Nested frames)
    (hparams : flow.world.params = params) (hlog : flow.world.log = log)
    (hlines : S.source.drop flow.world.pos = p.lines ++ S.after frames) :
    S.Active p frames params log ⟨flow, flow.skipping⟩ :=
  ⟨framed_not_skipping hframed hsub, hsub, hframed, hnested, haround, hparams, hlog, hlines⟩

variable {frames : List (Frame β)} {params : P} {log : List (Event β)} {l : ℕ} {text : List Char}
  {body next : Prog β} {alts : Alts β}

theorem sim_block {b : β} (h : S.Active (.block b next) frames params log s) :
    S.Advances I s (S.Active next frames (I.exec b params) (log ++ [Event.block b])) := by
  have hlines : S.source.drop s.flow.world.pos = Line.block b :: (next.lines ++ S.after frames) := h.lines
  refine ⟨_, readLine_block hlines h.skip, .here ?_⟩
  exact { h with
    nested := h.nested
    params := congrArg (I.exec b) h.params
    log := congrArg (· ++ [Event.block b]) h.log
    lines := (getElem?_of_drop hlines).2 }

omit [DecidableEq φ] in
theorem Active.ready {p : Prog β} (h : S.Active p frames params log s) (pos : ℕ) :
    (s.flow.goTo pos).skipping = false := framed_not_skipping (s := s.flow.goTo pos) h.framed h.skipSub

theorem sim_if (h : S.Active (.ifThen l text body alts next) frames params log s) :
    S.Advances I s (S.Matches (I.test ⟨.prog (.ifThen l text body alts next), frames, params, log⟩ text
      (.prog body, .branch l alts next :: frames) (.alts l alts next, frames))) := by
  obtain ⟨⟨hl, hroom⟩, ⟨hbody, halts⟩, hnext⟩ := h.nested
  have hlines : S.source.drop s.flow.world.pos =
      Line.cmd l .if text :: (body.lines ++ (alts.lines l ++ (next.lines ++ S.after frames))) := by
    simpa [Prog.lines] using h.lines
  have hcmd : command (I.host S.file) .if ⟨l, s.flow.world.pos + 1, text⟩
    (s.flow.goTo (s.flow.world.pos + 1)) = _ := cmdIf_host (h.ready _) (framed_room h.framed hroom)
  have hvalue : I.value text (s.flow.goTo (s.flow.world.pos + 1)).world.params = I.value text params :=
    congrArg (I.value text) h.params
  have hlog : s.flow.world.log ++ [Event.cond text] = log ++ [Event.cond text] := by rw [h.log]
  simp only [hvalue] at hcmd
  refine .cmd hlines (by decide) (by rintro ⟨⟩) hcmd ?_
  rw [Interp.test]
  by_cases hzero : I.value text params = 0
  · -- the body is skipped
    rw [if_neg (not_not.2 hzero)]
    refine .skip rfl (by simp [hzero]) (skipping_of_top rfl (by simp [hzero]))
      (body.passive (by simp [newEntry]) hbody) (getElem?_of_drop hlines).2 fun pos hpos => .here ?_
    exact ⟨rfl, h.skipSub, ⟨_, _, rfl, h.framed, rfl, Or.inl rfl, by simp [hzero], by simp [hzero], rfl⟩,
      ⟨⟨hl, hroom⟩, halts, hnext⟩, h.around, h.params, hlog, hpos⟩
  · rw [if_pos hzero]
    have hentry : S.EntryOf (.branch l alts next) frames
        { newEntry S.file (s.flow.goTo (s.flow.world.pos + 1)) ⟨l, s.flow.world.pos + 1, text⟩ .if with
          skip := decide (I.value text params = 0), handled := decide (I.value text params ≠ 0) } :=
      ⟨rfl, by simp [hzero], rfl, Or.inl rfl, by simp [hzero]⟩
    refine .here (.of_flow h.skipSub ⟨_, _, rfl, hentry, h.framed⟩ ?_ ?_ h.params hlog ?_)
    · rw [room_cons]
      exact hbody
    · exact ⟨⟨⟨hl, hroom⟩, halts, hnext⟩, h.around⟩
    · exact (getElem?_of_drop hlines).2

/-- `ENDIF` pulls the entry. -/
theorem advances_endIf {rest : List (Line β)} {top : Entry φ} {below : List (Entry φ)}
    (hst : s.flow.stack = top :: below)
    (hop : top.operation = .if ∨ top.operation = .elseIf ∨ top.operation = .else)
    (hlines : S.source.drop s.flow.world.pos = Line.cmd top.oLabel .endIf [] :: rest)
    (hQ : ∀ pos, S.source.drop pos = rest → Q ⟨{ s.flow.goTo pos with stack := below },
      Flow.skipping { s.flow.goTo pos with stack := below }⟩) : S.Advances I s Q := by
  have hcmd : command (I.host S.file) .endIf ⟨top.oLabel, s.flow.world.pos + 1, []⟩
      (s.flow.goTo (s.flow.world.pos + 1)) = _ :=
    cmdEndIf_host (s := s.flow.goTo (s.flow.world.pos + 1)) hst hop rfl
  exact .cmd hlines (by decide) (by rintro ⟨⟩) hcmd (.here (hQ _ (getElem?_of_drop hlines).2))

/-- The lines up to `ENDIF` do nothing when a branch has been taken. -/
theorem reaches_endIf {rest : List (Line β)} {avoid : List ℕ} {room : ℕ} {below : List (Entry φ)} :
    ∀ (alts : Alts β) {s : Reading β P φ} {top : Entry φ}, s.flow.stack = top :: below →
      (top.operation = .if ∨ top.operation = .elseIf) → top.handled = true →
      alts.Nested (top.oLabel :: avoid) room →
      S.source.drop s.flow.world.pos = alts.lines top.oLabel ++ rest →
      (∀ pos, S.source.drop pos = rest → Q ⟨{ s.flow.goTo pos with stack := below },
        Flow.skipping { s.flow.goTo pos with stack := below }⟩) → S.Advances I s Q
  | .endIf, s, top, hst, hop, _, _, hlines, hQ => advances_endIf hst (by tauto) hlines hQ
  | .orElse body, s, top, hst, hop, hhandled, hbody, hlines, hQ => by
      have hlines : S.source.drop s.flow.world.pos =
          Line.cmd top.oLabel .else [] :: (body.lines ++ Line.cmd top.oLabel .endIf [] :: rest) := by
        simpa [Alts.lines] using hlines
      have hcmd : command (I.host S.file) .else ⟨top.oLabel, s.flow.world.pos + 1, []⟩
          (s.flow.goTo (s.flow.world.pos + 1)) = _ :=
        cmdElse_handled (s := s.flow.goTo (s.flow.world.pos + 1)) hst hop rfl hhandled
      refine .cmd hlines (by decide) (fun _ => rfl) hcmd ?_
      refine .skip rfl rfl (skipping_of_top rfl rfl) (body.passive (by simp) hbody)
        (getElem?_of_drop hlines).2 fun pos hpos => Advances.reaches ?_
      exact advances_endIf rfl (by tauto) hpos hQ
  | .elseIf text body alts, s, top, hst, hop, hhandled, ⟨hbody, halts⟩, hlines, hQ => by
      have hlines : S.source.drop s.flow.world.pos =
          Line.cmd top.oLabel .elseIf text :: (body.lines ++ (alts.lines top.oLabel ++ rest)) := by
        simpa [Alts.lines] using hlines
      have hcmd : command (I.host S.file) .elseIf ⟨top.oLabel, s.flow.world.pos + 1, text⟩
          (s.flow.goTo (s.flow.world.pos + 1)) = _ :=
        cmdElseIf_handled (s := s.flow.goTo (s.flow.world.pos + 1)) hst hop rfl hhandled
      refine .cmd hlines (by decide) (by rintro ⟨⟩) hcmd ?_
      refine .skip rfl rfl (skipping_of_top rfl rfl) (body.passive (by simp) hbody)
        (getElem?_of_drop hlines).2 fun pos hpos => Advances.reaches ?_
      exact reaches_endIf alts rfl hop hhandled halts hpos hQ

theorem sim_branch (h : S.Active .nil (.branch l alts next :: frames) params log s) :
    S.Advances I s (S.Active next frames params log) := by
  obtain ⟨top, below, hst, hentry, hbelow⟩ := h.framed
  obtain ⟨⟨_, halts, hnext⟩, haround⟩ := h.around
  have hl : top.oLabel = l := hentry.oLabel
  have hlines : S.source.drop s.flow.world.pos = alts.lines top.oLabel ++ (next.lines ++ S.after frames) :=
    hl ▸ h.lines
  refine reaches_endIf alts hst hentry.kind.1 hentry.kind.2 (hl ▸ halts) hlines fun pos hpos => ?_
  exact .of_flow h.skipSub hbelow hnext haround h.params h.log hpos

theorem sim_orElse (h : S.Active .nil (.orElse l next :: frames) params log s) :
    S.Advances I s (S.Active next frames params log) := by
  obtain ⟨top, below, hst, hentry, hbelow⟩ := h.framed
  obtain ⟨⟨_, hnext⟩, haround⟩ := h.around
  have hl : top.oLabel = l := hentry.oLabel
  have hlines : S.source.drop s.flow.world.pos = Line.cmd top.oLabel .endIf [] :: (next.lines ++ S.after frames) :=
    hl ▸ h.lines
  exact advances_endIf hst (Or.inr (Or.inr hentry.kind)) hlines fun pos hpos =>
    .of_flow h.skipSub hbelow hnext haround h.params h.log hpos

theorem sim_waiting_endIf (h : S.Waiting l .endIf next frames params log s) :
    S.Advances I s (S.Active next frames params log) := by
  obtain ⟨top, below, hst, hbelow, rfl, hop, _, _, _⟩ := h.framed
  exact advances_endIf hst (by tauto) h.lines fun pos hpos =>
    .of_flow h.skipSub hbelow h.nested.2.2 h.around h.params h.log hpos

theorem sim_waiting_orElse (h : S.Waiting l (.orElse body) next frames params log s) :
    S.Advances I s (S.Active body (.orElse l next :: frames) params log) := by
  obtain ⟨top, below, hst, hbelow, rfl, hop, _, hhandled, hbrk⟩ := h.framed
  have hlines : S.source.drop s.flow.world.pos = Line.cmd top.oLabel .else [] ::
      (body.lines ++ Line.cmd top.oLabel .endIf [] :: (next.lines ++ S.after frames)) := by
    simpa [Alts.lines] using h.lines
  have hcmd : command (I.host S.file) .else ⟨top.oLabel, s.flow.world.pos + 1, []⟩
      (s.flow.goTo (s.flow.world.pos + 1)) = _ :=
    cmdElse_host (s := s.flow.goTo (s.flow.world.pos + 1)) hst hop rfl hhandled
  have hentry : S.EntryOf (.orElse top.oLabel next) frames { top with skip := false, operation := .else } :=
    ⟨rfl, rfl, hbrk, rfl⟩
  refine .cmd hlines (by decide) (fun _ => rfl) hcmd (.here (.of_flow h.skipSub
    ⟨_, _, rfl, hentry, hbelow⟩ ?_ ⟨⟨h.nested.1, h.nested.2.2⟩, h.around⟩ h.params h.log
    (getElem?_of_drop hlines).2))
  rw [room_cons]
  exact h.nested.2.1

theorem sim_waiting_elseIf (h : S.Waiting l (.elseIf text body alts) next frames params log s) :
    S.Advances I s (S.Matches (I.test ⟨.alts l (.elseIf text body alts) next, frames, params, log⟩ text
      (.prog body, .branch l alts next :: frames) (.alts l alts next, frames))) := by
  obtain ⟨top, below, hst, hbelow, rfl, hop, _, hhandled, hbrk⟩ := h.framed
  obtain ⟨hlabel, ⟨hbody, halts⟩, hnext⟩ := h.nested
  have hlines : S.source.drop s.flow.world.pos = Line.cmd top.oLabel .elseIf text ::
      (body.lines ++ (alts.lines top.oLabel ++ (next.lines ++ S.after frames))) := by
    simpa [Alts.lines] using h.lines
  have hcmd : command (I.host S.file) .elseIf ⟨top.oLabel, s.flow.world.pos + 1, text⟩
      (s.flow.goTo (s.flow.world.pos + 1)) = _ :=
    cmdElseIf_host (s := s.flow.goTo (s.flow.world.pos + 1)) hst hop rfl hhandled
  have hvalue : I.value text (s.flow.goTo (s.flow.world.pos + 1)).world.params = I.value text params :=
    congrArg (I.value text) h.params
  have hlog : s.flow.world.log ++ [Event.cond text] = log ++ [Event.cond text] := by rw [h.log]
  simp only [hvalue] at hcmd
  rw [Interp.test]
  by_cases hzero : I.value text params = 0
  · rw [if_pos hzero] at hcmd
    rw [if_neg (not_not.2 hzero)]
    refine .cmd hlines (by decide) (by rintro ⟨⟩) hcmd ?_
    refine .skip rfl rfl (skipping_of_top rfl rfl) (body.passive (by simp) hbody)
      (getElem?_of_drop hlines).2 fun pos hpos => .here ?_
    exact ⟨rfl, h.skipSub, ⟨_, _, rfl, hbelow, rfl, hop, rfl, hhandled, hbrk⟩, ⟨hlabel, halts, hnext⟩,
      h.around, h.params, hlog, hpos⟩
  · rw [if_neg hzero] at hcmd
    rw [if_pos hzero]
    have hentry : S.EntryOf (.branch top.oLabel alts next) frames
        { top with skip := false, operation := .elseIf, handled := true } :=
      ⟨rfl, rfl, hbrk, Or.inr rfl, rfl⟩
    refine .cmd hlines (by decide) (by rintro ⟨⟩) hcmd (.here (.of_flow h.skipSub ⟨_, _, rfl, hentry, hbelow⟩ ?_
      ⟨⟨hlabel, halts, hnext⟩, h.around⟩ h.params hlog (getElem?_of_drop hlines).2))
    rw [room_cons]
    exact hbody

/-- A loop that is not entered, or is left: passive lines, and the line that pulls the entry. -/
theorem reaches_pull {lines rest : List (Line β)} {top : Entry φ} {below : List (Entry φ)}
    {operation : FlowCmd} (hst : s.flow.stack = top :: below) (htop : top.skip = true) (hskip : s.skip = true)
    (hpassive : ∀ line ∈ lines, line.Passive top.oLabel)
    (hlines : S.source.drop s.flow.world.pos = lines ++ Line.cmd l operation text :: rest)
    (hno : operation ≠ .noOp) (helse : operation = .else → text = [])
    (hcmd : ∀ pos, command (I.host S.file) operation ⟨l, pos, text⟩ (s.flow.goTo pos) =
      some (none, { s.flow.goTo pos with stack := below }))
    (hQ : ∀ pos, S.source.drop pos = rest → Q ⟨{ s.flow.goTo pos with stack := below },
      Flow.skipping { s.flow.goTo pos with stack := below }⟩) : S.Reaches I s Q := by
  refine .skip hst htop hskip hpassive hlines fun pos hpos => Advances.reaches ?_
  exact .cmd hpos hno helse (hcmd (pos + 1)) (.here (hQ (pos + 1) (getElem?_of_drop hpos).2))

theorem sim_while (h : S.Active (.whileDo l text body next) frames params log s) :
    S.Advances I s (S.Matches (I.test ⟨.prog (.whileDo l text body next), frames, params, log⟩ text
      (.prog body, .whileDo l text body next :: frames) (.prog next, frames))) := by
  obtain ⟨⟨hl, hroom⟩, hbody, hnext⟩ := h.nested
  have hlines : S.source.drop s.flow.world.pos =
      Line.cmd l .while text :: (body.lines ++ Line.cmd l .endWhile [] :: (next.lines ++ S.after frames)) := by
    simpa [Prog.lines] using h.lines
  have hdo : ∀ e ∈ s.flow.stack.head?, e.operation = .do → l ≠ e.oLabel := by
    rintro e he hdo rfl
    exact hl ((framed_top h.framed e he).2.2 hdo)
  have hcmd : command (I.host S.file) .while ⟨l, s.flow.world.pos + 1, text⟩
      (s.flow.goTo (s.flow.world.pos + 1)) = _ :=
    cmdWhile_host (h.ready _) (framed_not_brk h.framed) hdo (framed_room h.framed hroom)
  have hvalue : I.value text (s.flow.goTo (s.flow.world.pos + 1)).world.params = I.value text params :=
    congrArg (I.value text) h.params
  have hlog : s.flow.world.log ++ [Event.cond text] = log ++ [Event.cond text] := by rw [h.log]
  simp only [hvalue] at hcmd
  rw [Interp.test]
  by_cases hzero : I.value text params = 0
  · rw [if_pos hzero] at hcmd
    rw [if_neg (not_not.2 hzero)]
    refine .cmd hlines (by decide) (by rintro ⟨⟩) hcmd ?_
    refine reaches_pull rfl rfl (skipping_of_top rfl rfl) (body.passive (by simp [newEntry]) hbody)
      (getElem?_of_drop hlines).2 (by decide) (by rintro ⟨⟩) (fun pos => cmdEndWhile_skip rfl rfl rfl rfl)
      fun pos hpos => ?_
    exact .of_flow h.skipSub h.framed hnext h.around h.params hlog hpos
  · rw [if_neg hzero] at hcmd
    rw [if_pos hzero]
    have hstart := (getElem?_of_drop hlines).2
    refine .cmd hlines (by decide) (by rintro ⟨⟩) hcmd (.here (.of_flow h.skipSub
      ⟨_, _, rfl, ⟨rfl, rfl, rfl, rfl, rfl, rfl, hstart⟩, h.framed⟩ ?_
      ⟨⟨⟨hl, hroom⟩, hbody, hnext⟩, h.around⟩ h.params hlog hstart))
    rw [room_cons]
    exact hbody

theorem sim_do (h : S.Active (.doWhile l body text next) frames params log s) :
    S.Advances I s (S.Active body (.doWhile l body text next :: frames) params log) := by
  obtain ⟨⟨hl, hroom⟩, hbody, hnext⟩ := h.nested
  have hlines : S.source.drop s.flow.world.pos =
      Line.cmd l .do [] :: (body.lines ++ Line.cmd l .while text :: (next.lines ++ S.after frames)) := by
    simpa [Prog.lines] using h.lines
  have hcmd : command (I.host S.file) .do ⟨l, s.flow.world.pos + 1, []⟩
      (s.flow.goTo (s.flow.world.pos + 1)) = _ :=
    cmdDo_host (h.ready _) (framed_room h.framed hroom)
  have hstart := (getElem?_of_drop hlines).2
  refine .cmd hlines (by decide) (by rintro ⟨⟩) hcmd (.here (.of_flow h.skipSub
    ⟨_, _, rfl, ⟨rfl, rfl, rfl, rfl, rfl, hstart⟩, h.framed⟩ ?_
    ⟨⟨⟨hl, hroom⟩, hbody, hnext⟩, h.around⟩ h.params h.log hstart))
  rw [room_cons]
  exact hbody

theorem sim_repeat (h : S.Active (.repeatDo l text body next) frames params log s) :
    S.Advances I s fun t => if I.count text params = 0 then S.Active next frames params (log ++ [Event.cond text]) t
      else S.Active body (.repeatDo l body next (I.count text params) :: frames) params
        (log ++ [Event.cond text]) t := by
  obtain ⟨⟨hl, hroom⟩, hbody, hnext⟩ := h.nested
  have hlines : S.source.drop s.flow.world.pos =
      Line.cmd l .repeat text :: (body.lines ++ Line.cmd l .endRepeat [] :: (next.lines ++ S.after frames)) := by
    simpa [Prog.lines] using h.lines
  have hcmd : command (I.host S.file) .repeat ⟨l, s.flow.world.pos + 1, text⟩
      (s.flow.goTo (s.flow.world.pos + 1)) = _ :=
    cmdRepeat_host (h.ready _) (framed_room h.framed hroom)
  have hvalue : I.value text (s.flow.goTo (s.flow.world.pos + 1)).world.params = I.value text params :=
    congrArg (I.value text) h.params
  have hlog : s.flow.world.log ++ [Event.cond text] = log ++ [Event.cond text] := by rw [h.log]
  simp only [hvalue] at hcmd
  have hcount : I.count text params = 0 ↔ nearbyint (I.value text params) ≤ 0 := by
    rw [Interp.count, toUInt32]
    omega
  by_cases hzero : nearbyint (I.value text params) ≤ 0
  · rw [if_pos hzero] at hcmd
    simp only [if_pos (hcount.2 hzero)]
    refine .cmd hlines (by decide) (by rintro ⟨⟩) hcmd ?_
    refine reaches_pull rfl rfl (skipping_of_top rfl rfl) (body.passive (by simp [newEntry]) hbody)
      (getElem?_of_drop hlines).2 (by decide) (by rintro ⟨⟩)
      (fun pos => cmdEndRepeat_last rfl rfl rfl (Or.inl (skipping_of_top rfl rfl))) fun pos hpos => ?_
    exact .of_flow h.skipSub h.framed hnext h.around h.params hlog hpos
  · rw [if_neg hzero] at hcmd
    have hpos : I.count text params ≠ 0 := fun hc => hzero (hcount.1 hc)
    simp only [if_neg hpos]
    have hstart := (getElem?_of_drop hlines).2
    refine .cmd hlines (by decide) (by rintro ⟨⟩) hcmd (.here (.of_flow h.skipSub
      ⟨_, _, rfl, ⟨rfl, rfl, rfl, rfl, ⟨rfl, Nat.pos_of_ne_zero hpos⟩, rfl, hstart⟩, h.framed⟩ ?_
      ⟨⟨⟨hl, hroom⟩, hbody, hnext⟩, h.around⟩ h.params hlog hstart))
    rw [room_cons]
    exact hbody

theorem sim_endWhile (h : S.Active .nil (.whileDo l text body next :: frames) params log s) :
    S.Advances I s (S.Matches (I.test ⟨.prog .nil, .whileDo l text body next :: frames, params, log⟩ text
      (.prog body, .whileDo l text body next :: frames) (.prog next, frames))) := by
  obtain ⟨top, below, hst, hentry, hbelow⟩ := h.framed
  obtain ⟨⟨hlabel, hbody, hnext⟩, haround⟩ := h.around
  obtain ⟨hop, hexpr, hfile, hstart⟩ := hentry.kind
  have hlines : S.source.drop s.flow.world.pos = Line.cmd l .endWhile [] :: (next.lines ++ S.after frames) := h.lines
  have hcmd : command (I.host S.file) .endWhile ⟨l, s.flow.world.pos + 1, []⟩
      (s.flow.goTo (s.flow.world.pos + 1)) = _ :=
    cmdEndWhile_host (s := s.flow.goTo (s.flow.world.pos + 1)) hst hop hentry.oLabel.symm (h.ready _) hexpr
      hfile hentry.skip
  have hvalue : I.value text (s.flow.goTo (s.flow.world.pos + 1)).world.params = I.value text params :=
    congrArg (I.value text) h.params
  have hlog : s.flow.world.log ++ [Event.cond text] = log ++ [Event.cond text] := by rw [h.log]
  simp only [hvalue] at hcmd
  rw [Interp.test]
  by_cases hzero : I.value text params = 0
  · rw [if_pos hzero] at hcmd
    rw [if_neg (not_not.2 hzero)]
    exact .cmd hlines (by decide) (by rintro ⟨⟩) hcmd (.here (.of_flow h.skipSub hbelow hnext haround h.params hlog
      (getElem?_of_drop hlines).2))
  · rw [if_neg hzero] at hcmd
    rw [if_pos hzero]
    refine .cmd hlines (by decide) (by rintro ⟨⟩) hcmd (.here (.of_flow h.skipSub h.framed ?_ h.around h.params hlog
      hstart))
    rw [room_cons]
    exact hbody

theorem sim_whileOfDo (h : S.Active .nil (.doWhile l body text next :: frames) params log s) :
    S.Advances I s (S.Matches (I.test ⟨.prog .nil, .doWhile l body text next :: frames, params, log⟩ text
      (.prog body, .doWhile l body text next :: frames) (.prog next, frames))) := by
  obtain ⟨top, below, hst, hentry, hbelow⟩ := h.framed
  obtain ⟨⟨hlabel, hbody, hnext⟩, haround⟩ := h.around
  obtain ⟨hop, hfile, hstart⟩ := hentry.kind
  have hlines : S.source.drop s.flow.world.pos = Line.cmd l .while text :: (next.lines ++ S.after frames) := h.lines
  have hcmd : command (I.host S.file) .while ⟨l, s.flow.world.pos + 1, text⟩
      (s.flow.goTo (s.flow.world.pos + 1)) = _ :=
    cmdWhile_do (s := s.flow.goTo (s.flow.world.pos + 1)) hst hop hentry.oLabel.symm (h.ready _) hentry.brk
      hfile
  have hvalue : I.value text (s.flow.goTo (s.flow.world.pos + 1)).world.params = I.value text params :=
    congrArg (I.value text) h.params
  have hlog : s.flow.world.log ++ [Event.cond text] = log ++ [Event.cond text] := by rw [h.log]
  simp only [hvalue] at hcmd
  rw [Interp.test]
  by_cases hzero : I.value text params = 0
  · rw [if_pos hzero] at hcmd
    rw [if_neg (not_not.2 hzero)]
    exact .cmd hlines (by decide) (by rintro ⟨⟩) hcmd (.here (.of_flow h.skipSub hbelow hnext haround h.params hlog
      (getElem?_of_drop hlines).2))
  · rw [if_neg hzero] at hcmd
    rw [if_pos hzero]
    refine .cmd hlines (by decide) (by rintro ⟨⟩) hcmd (.here (.of_flow h.skipSub h.framed ?_ h.around h.params hlog
      hstart))
    rw [room_cons]
    exact hbody

theorem sim_endRepeat_again {left : ℕ} (hmore : 1 < left)
    (h : S.Active .nil (.repeatDo l body next left :: frames) params log s) :
    S.Advances I s (S.Active body (.repeatDo l body next (left - 1) :: frames) params log) := by
  obtain ⟨top, below, hst, hentry, hbelow⟩ := h.framed
  obtain ⟨⟨hlabel, hbody, hnext⟩, haround⟩ := h.around
  obtain ⟨hop, ⟨hleft, _⟩, hfile, hstart⟩ := hentry.kind
  have hlines : S.source.drop s.flow.world.pos = Line.cmd l .endRepeat [] :: (next.lines ++ S.after frames) :=
    h.lines
  have hcmd : command (I.host S.file) .endRepeat ⟨l, s.flow.world.pos + 1, []⟩
      (s.flow.goTo (s.flow.world.pos + 1)) = _ :=
    cmdEndRepeat_again (s := s.flow.goTo (s.flow.world.pos + 1)) hst hop hentry.oLabel.symm (h.ready _) hfile
      (hleft ▸ hmore)
  have hentry' : S.EntryOf (.repeatDo l body next (left - 1)) frames { top with repeats := top.repeats - 1 } :=
    ⟨hentry.oLabel, hentry.skip, hentry.brk, hop, ⟨by rw [hleft], by omega⟩, hfile, hstart⟩
  refine .cmd hlines (by decide) (by rintro ⟨⟩) hcmd (.here (.of_flow h.skipSub ⟨_, _, rfl, hentry', hbelow⟩ ?_
    ⟨⟨hlabel, hbody, hnext⟩, haround⟩ h.params h.log hstart))
  rw [room_cons]
  exact hbody

theorem sim_endRepeat_last {left : ℕ} (hlast : ¬1 < left)
    (h : S.Active .nil (.repeatDo l body next left :: frames) params log s) :
    S.Advances I s (S.Active next frames params log) := by
  obtain ⟨top, below, hst, hentry, hbelow⟩ := h.framed
  obtain ⟨⟨hlabel, hbody, hnext⟩, haround⟩ := h.around
  obtain ⟨hop, ⟨hleft, _⟩, hfile, hstart⟩ := hentry.kind
  have hlines : S.source.drop s.flow.world.pos = Line.cmd l .endRepeat [] :: (next.lines ++ S.after frames) :=
    h.lines
  have hcmd : command (I.host S.file) .endRepeat ⟨l, s.flow.world.pos + 1, []⟩
      (s.flow.goTo (s.flow.world.pos + 1)) = _ :=
    cmdEndRepeat_last (s := s.flow.goTo (s.flow.world.pos + 1)) hst hop hentry.oLabel.symm
      (Or.inr (by omega))
  exact .cmd hlines (by decide) (by rintro ⟨⟩) hcmd (.here (.of_flow h.skipSub hbelow hnext haround h.params h.log
    (getElem?_of_drop hlines).2))

/-! ## Leaving a loop -/

omit [DecidableEq φ] in
theorem findLoop_spec {f : Frame β} {outer : List (Frame β)} (hfind : findLoop l frames = some (f, outer)) :
    f.oLabel = l ∧ f.body?.isSome ∧ l ∈ S.labels frames := by
  induction frames with
  | nil => cases hfind
  | cons g frames ih =>
      rw [findLoop] at hfind
      split at hfind
      case isTrue hg =>
        split at hfind
        case isTrue hloop =>
          cases hfind
          exact ⟨hg, hloop, by simp [labels, hg]⟩
        case isFalse => cases hfind
      case isFalse =>
        obtain ⟨hl, hloop, hmem⟩ := ih hfind
        exact ⟨hl, hloop, List.mem_cons_of_mem _ hmem⟩

omit [DecidableEq φ] in
theorem closing_passive {x : ℕ} {avoid : List ℕ} {room : ℕ} {g : Frame β} (hg : g.Nested avoid room)
    (hx : x ∈ avoid) : ∀ line ∈ g.closing, line.Passive x := by
  have hne : g.oLabel ≠ x := fun h => hg.label.1 (h ▸ hx)
  cases g with
  | branch l alts next => exact alts.passive (List.mem_cons_of_mem _ hx) hne hg.2.1
  | orElse l next => exact List.forall_mem_singleton.2 (Line.passive_cmd hne (by rintro ⟨⟩))
  | whileDo l cond body next => exact List.forall_mem_singleton.2 (Line.passive_cmd hne (by rintro ⟨⟩))
  | doWhile l body cond next => exact List.forall_mem_singleton.2 (Line.passive_cmd hne (by rintro ⟨⟩))
  | repeatDo l body next left => exact List.forall_mem_singleton.2 (Line.passive_cmd hne (by rintro ⟨⟩))

omit [DecidableEq φ] in
theorem after_findLoop {f : Frame β} {outer : List (Frame β)} (hfind : findLoop l frames = some (f, outer))
    (haround : S.Nested frames) : S.Nested (f :: outer) ∧
      ∃ mid, S.after frames = mid ++ (f.closing ++ (f.next.lines ++ S.after outer)) ∧
        ∀ line ∈ mid, line.Passive l := by
  induction frames with
  | nil => cases hfind
  | cons g frames ih =>
      rw [findLoop] at hfind
      split at hfind
      case isTrue hg =>
        split at hfind
        case isTrue hloop =>
          cases hfind
          exact ⟨haround, [], rfl, fun line hline => nomatch hline⟩
        case isFalse => cases hfind
      case isFalse =>
        obtain ⟨hnested, mid, hmid, hpassive⟩ := ih hfind haround.2
        have hmem : l ∈ S.labels frames := (findLoop_spec (S := S) hfind).2.2
        refine ⟨hnested, g.closing ++ (g.next.lines ++ mid), by simp [after, hmid], ?_⟩
        rw [List.forall_mem_append, List.forall_mem_append]
        exact ⟨closing_passive haround.1 hmem, g.next.passive hmem haround.1.next, hpassive⟩

theorem popTo_framed {f : Frame β} {outer : List (Frame β)} {stack : List (Entry φ)}
    (world : MacroWorld β P) (hfind : findLoop l frames = some (f, outer)) (hframed : S.Framed frames stack) :
    ∃ top below, popTo (I.host S.file) l stack world = some (top :: below, world) ∧
      S.EntryOf f outer top ∧ S.Framed outer below := by
  induction frames generalizing stack with
  | nil => cases hfind
  | cons g frames ih =>
      obtain ⟨top, below, rfl, hentry, hbelow⟩ := hframed
      rw [findLoop] at hfind
      split at hfind
      case isTrue hg =>
        split at hfind
        case isTrue hloop =>
          cases hfind
          have heq : ¬l ≠ top.oLabel := not_not.2 (by rw [hentry.oLabel, hg])
          exact ⟨top, below, by rw [popTo, if_neg heq], hentry, hbelow⟩
        case isFalse => cases hfind
      case isFalse hg =>
        have hne : l ≠ top.oLabel := by
          rw [hentry.oLabel]
          exact Ne.symm hg
        obtain ⟨top', below', hpop, hentry', hbelow'⟩ := ih hfind hbelow
        have hpulled : pulled (I.host S.file) top world = world := by
          rw [pulled]
          split <;> rfl
        exact ⟨top', below', by rw [popTo, if_pos hne, hpulled, hpop], hentry', hbelow'⟩

/-- The entry of a loop, whatever its flags are. -/
def LoopEntry (f : Frame β) (e : Entry φ) : Prop :=
  match f with
  | .whileDo _ _ _ _ => e.operation = .while
  | .doWhile _ _ _ _ => e.operation = .do
  | .repeatDo _ _ _ _ => e.operation = .repeat
  | _ => False

omit [DecidableEq φ] in
theorem EntryOf.loop {f : Frame β} {outer : List (Frame β)} {e : Entry φ} (h : S.EntryOf f outer e)
    (hloop : f.body?.isSome) : LoopEntry f e := by
  cases f with
  | branch => cases hloop
  | orElse => cases hloop
  | whileDo => exact h.kind.1
  | doWhile => exact h.kind.1
  | repeatDo => exact h.kind.1

/-- The rest of the body is passed over, and the last line of the loop pulls its entry; a `DO` is left only by
`BREAK`. -/
theorem reaches_next {f : Frame β} {outer : List (Frame β)} {top : Entry φ} {below : List (Entry φ)}
    {rest : List (Line β)} (haround : S.Nested frames) (hfind : findLoop l frames = some (f, outer))
    (hst : s.flow.stack = top :: below) (hskip : s.skip = true) (hsub : s.flow.skipSub = false)
    (hparams : s.flow.world.params = params) (hlog : s.flow.world.log = log) (htop : top.skip = true)
    (hl : top.oLabel = l) (hbelow : S.Framed outer below) (hentry : LoopEntry f top)
    (hdo : top.operation = .do → top.brk = true) (hrest : ∀ line ∈ rest, line.Passive l)
    (hlines : S.source.drop s.flow.world.pos = rest ++ S.after frames) :
    S.Reaches I s fun t => S.Active f.next outer params log t ∧ t.flow.stack = below := by
  obtain ⟨⟨hnested, haround⟩, mid, hmid, hpassive⟩ := after_findLoop hfind haround
  have hfl : f.oLabel = top.oLabel := (findLoop_spec (S := S) hfind).1.trans hl.symm
  have hpass : ∀ line ∈ rest ++ mid, line.Passive top.oLabel := by
    rw [hl]
    exact List.forall_mem_append.2 ⟨hrest, hpassive⟩
  have hlines : S.source.drop s.flow.world.pos =
      (rest ++ mid) ++ (f.closing ++ (f.next.lines ++ S.after outer)) := by
    rw [hlines, hmid, List.append_assoc]
  have hQ : ∀ pos, S.source.drop pos = f.next.lines ++ S.after outer →
      S.Active f.next outer params log ⟨{ s.flow.goTo pos with stack := below },
        Flow.skipping { s.flow.goTo pos with stack := below }⟩ ∧ below = below := fun pos hpos =>
    ⟨.of_flow hsub hbelow hnested.next haround hparams hlog hpos, rfl⟩
  cases f with
  | branch => exact absurd hentry id
  | orElse => exact absurd hentry id
  | whileDo =>
      exact reaches_pull hst htop hskip hpass hlines (by decide) (by rintro ⟨⟩) (fun pos =>
        cmdEndWhile_skip (s := s.flow.goTo pos) hst hentry hfl htop) hQ
  | doWhile =>
      exact reaches_pull hst htop hskip hpass hlines (by decide) (by rintro ⟨⟩) (fun pos =>
        cmdWhile_brk (s := s.flow.goTo pos) hst hentry hfl (hdo hentry)) hQ
  | repeatDo =>
      exact reaches_pull hst htop hskip hpass hlines (by decide) (by rintro ⟨⟩) (fun pos =>
        cmdEndRepeat_last (s := s.flow.goTo pos) hst hentry hfl
          (Or.inl (skipping_of_top (s := s.flow.goTo pos) hst htop))) hQ

/-- `BREAK` leaves the loop. -/
theorem sim_break {f : Frame β} {outer : List (Frame β)} (hfind : findLoop l frames = some (f, outer))
    (h : S.Active (.breakOut l next) frames params log s) :
    S.Advances I s fun t =>
      S.Active f.next outer params log t ∧ t.flow.stack = belowLabel l s.flow.stack := by
  obtain ⟨hfl, hloop, hmem⟩ := findLoop_spec (S := S) hfind
  obtain ⟨top, below, hpop, hentry, hbelow⟩ := popTo_framed (I := I)
    (s.flow.goTo (s.flow.world.pos + 1)).world hfind h.framed
  have hentry' := hentry.loop hloop
  have hop : top.operation = .do ∨ top.operation = .while ∨ top.operation = .repeat := by
    cases f with
    | branch => exact absurd hentry' id
    | orElse => exact absurd hentry' id
    | whileDo => exact Or.inr (Or.inl hentry')
    | doWhile => exact Or.inl hentry'
    | repeatDo => exact Or.inr (Or.inr hentry')
  have hlines : S.source.drop s.flow.world.pos = Line.cmd l .break [] :: (next.lines ++ S.after frames) := h.lines
  have hcmd : command (I.host S.file) .break ⟨l, s.flow.world.pos + 1, []⟩
      (s.flow.goTo (s.flow.world.pos + 1)) = _ := cmdBreak_host (h.ready _) hpop hop
  rw [← (popTo_below hpop).1]
  refine .cmd hlines (by decide) (by rintro ⟨⟩) hcmd ?_
  exact reaches_next h.around hfind rfl (skipping_of_top rfl rfl) h.skipSub h.params h.log rfl
    (hentry.oLabel.trans hfl) hbelow hentry' (fun _ => rfl) (next.passive hmem h.nested)
    (getElem?_of_drop hlines).2

/-! ## `CONTINUE` -/

theorem sim_continue_repeat {l' left : ℕ} {outer : List (Frame β)} {next' : Prog β}
    (hfind : findLoop l frames = some (.repeatDo l' body next' left, outer))
    (h : S.Active (.continueAt l next) frames params log s) :
    S.Advances I s fun t =>
      if 1 < left then S.Active body (.repeatDo l' body next' (left - 1) :: outer) params log t ∧
        t.flow.stack.tail = belowLabel l s.flow.stack
      else S.Active next' outer params log t ∧ t.flow.stack = belowLabel l s.flow.stack := by
  obtain ⟨hfl, hloop, hmem⟩ := findLoop_spec (S := S) hfind
  obtain ⟨⟨⟨hlabel, hbody, hnext⟩, haround⟩, -⟩ := after_findLoop hfind h.around
  obtain ⟨top, below, hpop, hentry, hbelow⟩ := popTo_framed (I := I)
    (s.flow.goTo (s.flow.world.pos + 1)).world hfind h.framed
  obtain ⟨hop, ⟨hleft, _⟩, hfile, hstart⟩ := hentry.kind
  have hlines : S.source.drop s.flow.world.pos = Line.cmd l .continue [] :: (next.lines ++ S.after frames) :=
    h.lines
  have hcmd : command (I.host S.file) .continue ⟨l, s.flow.world.pos + 1, []⟩
      (s.flow.goTo (s.flow.world.pos + 1)) = _ := cmdContinue_repeat (h.ready _) hpop hop hfile
  rw [← (popTo_below hpop).1]
  by_cases hmore : 1 < left
  · simp only [if_pos hmore]
    rw [hleft, if_pos hmore] at hcmd
    have hentry' : S.EntryOf (.repeatDo l' body next' (left - 1)) outer { top with repeats := left - 1 } :=
      ⟨hentry.oLabel, hentry.skip, hentry.brk, hop, ⟨rfl, by omega⟩, hfile, hstart⟩
    refine .cmd hlines (by decide) (by rintro ⟨⟩) hcmd (.here ⟨.of_flow h.skipSub ⟨_, _, rfl, hentry', hbelow⟩ ?_
      ⟨⟨hlabel, hbody, hnext⟩, haround⟩ h.params h.log hstart, rfl⟩)
    rw [room_cons]
    exact hbody
  · simp only [if_neg hmore]
    rw [hleft, if_neg hmore] at hcmd
    refine .cmd hlines (by decide) (by rintro ⟨⟩) hcmd ?_
    exact reaches_next h.around hfind rfl (skipping_of_top rfl rfl) h.skipSub h.params h.log rfl
      (hentry.oLabel.trans hfl) hbelow hop (fun hdo => absurd (hop.symm.trans hdo) (by decide))
      (next.passive hmem h.nested) (getElem?_of_drop hlines).2

/-- The condition of a `DO` is not evaluated. -/
theorem sim_continue_do {l' : ℕ} {outer : List (Frame β)} {next' : Prog β}
    (hfind : findLoop l frames = some (.doWhile l' body text next', outer))
    (h : S.Active (.continueAt l next) frames params log s) :
    S.Advances I s fun t => S.Active body (.doWhile l' body text next' :: outer) params log t ∧
      t.flow.stack.tail = belowLabel l s.flow.stack := by
  obtain ⟨⟨⟨hlabel, hbody, hnext⟩, haround⟩, -⟩ := after_findLoop hfind h.around
  obtain ⟨top, below, hpop, hentry, hbelow⟩ := popTo_framed (I := I)
    (s.flow.goTo (s.flow.world.pos + 1)).world hfind h.framed
  obtain ⟨hop, hfile, hstart⟩ := hentry.kind
  have hlines : S.source.drop s.flow.world.pos = Line.cmd l .continue [] :: (next.lines ++ S.after frames) :=
    h.lines
  have hcmd : command (I.host S.file) .continue ⟨l, s.flow.world.pos + 1, []⟩
      (s.flow.goTo (s.flow.world.pos + 1)) = _ := cmdContinue_do (h.ready _) hpop hop hfile
  rw [← (popTo_below hpop).1]
  refine .cmd hlines (by decide) (by rintro ⟨⟩) hcmd (.here ⟨.of_flow h.skipSub ⟨_, _, rfl, hentry, hbelow⟩ ?_
    ⟨⟨hlabel, hbody, hnext⟩, haround⟩ h.params h.log hstart, rfl⟩)
  rw [room_cons]
  exact hbody

theorem sim_continue_while {l' : ℕ} {outer : List (Frame β)} {next' : Prog β}
    (hfind : findLoop l frames = some (.whileDo l' text body next', outer))
    (hvalue : I.value text params ≠ 0) (h : S.Active (.continueAt l next) frames params log s) :
    S.Advances I s fun t => S.Active body (.whileDo l' text body next' :: outer) params (log ++ [Event.cond text]) t ∧
      t.flow.stack.tail = belowLabel l s.flow.stack := by
  obtain ⟨⟨⟨hlabel, hbody, hnext⟩, haround⟩, -⟩ := after_findLoop hfind h.around
  obtain ⟨top, below, hpop, hentry, hbelow⟩ := popTo_framed (I := I)
    (s.flow.goTo (s.flow.world.pos + 1)).world hfind h.framed
  obtain ⟨hop, hexpr, hfile, hstart⟩ := hentry.kind
  have hlines : S.source.drop s.flow.world.pos = Line.cmd l .continue [] :: (next.lines ++ S.after frames) :=
    h.lines
  have hcmd : command (I.host S.file) .continue ⟨l, s.flow.world.pos + 1, []⟩
      (s.flow.goTo (s.flow.world.pos + 1)) = _ :=
    cmdContinue_while (h.ready _) hpop hop hexpr hfile hentry.skip
  have hvalue' : I.value text (s.flow.goTo (s.flow.world.pos + 1)).world.params ≠ 0 := by
    rw [show (s.flow.goTo (s.flow.world.pos + 1)).world.params = params from h.params]
    exact hvalue
  have hlog : s.flow.world.log ++ [Event.cond text] = log ++ [Event.cond text] := by rw [h.log]
  rw [if_neg hvalue'] at hcmd
  rw [← (popTo_below hpop).1]
  refine .cmd hlines (by decide) (by rintro ⟨⟩) hcmd (.here ⟨.of_flow h.skipSub ⟨_, _, rfl, hentry, hbelow⟩ ?_
    ⟨⟨hlabel, hbody, hnext⟩, haround⟩ h.params hlog hstart, rfl⟩)
  rw [room_cons]
  exact hbody

/-! ## Programs -/

theorem step_simulation {c c' : Config β P} (h : S.Matches c s) (hc : ∀ l next, c.code ≠ .prog (.continueAt l next))
    (hstep : I.step c = some c') : S.Advances I s (S.Matches c') := by
  obtain ⟨code, frames, params, log⟩ := c
  cases code with
  | alts l alts next =>
      cases alts with
      | endIf =>
          cases hstep
          exact sim_waiting_endIf h
      | orElse body =>
          cases hstep
          exact sim_waiting_orElse h
      | elseIf text body alts =>
          cases hstep
          exact sim_waiting_elseIf h
  | prog p =>
      cases p with
      | nil =>
          cases frames with
          | nil => cases hstep
          | cons f frames =>
              cases hstep
              cases f with
              | branch l alts next => exact sim_branch h
              | orElse l next => exact sim_orElse h
              | whileDo l text body next => exact sim_endWhile h
              | doWhile l body text next => exact sim_whileOfDo h
              | repeatDo l body next left =>
                  rw [Interp.close]
                  split
                  case isTrue hmore => exact sim_endRepeat_again hmore h
                  case isFalse hlast => exact sim_endRepeat_last hlast h
      | block b next =>
          cases hstep
          exact sim_block h
      | ifThen l text body alts next =>
          cases hstep
          exact sim_if h
      | whileDo l text body next =>
          cases hstep
          exact sim_while h
      | doWhile l body text next =>
          cases hstep
          exact sim_do h
      | repeatDo l text body next =>
          obtain ⟨t, ht, hreach⟩ := sim_repeat (I := I) h
          cases hcount : I.count text params with
          | zero =>
              simp only [Interp.step, hcount, Option.some.injEq] at hstep
              simp only [hcount, if_pos] at hreach
              exact ⟨t, ht, hstep ▸ hreach⟩
          | succ n =>
              simp only [Interp.step, hcount, Option.some.injEq] at hstep
              simp only [hcount, if_neg (Nat.succ_ne_zero n)] at hreach
              exact ⟨t, ht, hstep ▸ hreach⟩
      | breakOut l next =>
          obtain ⟨⟨f, outer⟩, hfind, hc'⟩ := Option.map_eq_some_iff.1 hstep
          cases hc'
          exact (sim_break hfind h).mono fun _ ht => ht.1
      | continueAt l next => exact absurd rfl (hc l next)

end

end Site

end Grbl.Ngc
