import Mathlib
import Grbl.GCode.Words
import Grbl.Lib.Actions

/-!
# The order of the words of a block

Words of a block may come in any order. What depends on the order are O-words and macro calls, G50 and G51 beside another axis
command, and M70 to M73 beside each other.

* `Act`, `actions`, `wordAct` : what a word does to the block, whatever came before;
* `Act.Compatible`, `Act.Compatible.commute` : acts that commute;
* `Block.forget` : the block but for the value of the last M-code, which only macro calls read; `importWords_plain`.
-/

namespace Grbl.GCode
open Function Numbers Lib

/-- What a word does to the block. -/
inductive Act
  | command (claim : AxisCommand) (u : Update)
  | value (letter : Letter) (value : ℚ)
  | refuse
  deriving DecidableEq

def Act.accepts : Act → Block → Bool
  | command claim u, b => !claim.refused b && decide (∀ g ∈ u.group, g ∉ b.commandWords)
  | value letter _, b => letter ∉ b.words
  | refuse, _ => false

def Act.write (env : Env) : Act → Block → Block
  | command claim u, b => (u.apply env (claim.claimed b)).addGroup u.group
  | value letter v, b => (b.setValue letter (some v) (toUint32 v)).addWord letter
  | refuse, b => b

def actions (env : Env) : Actions Act Block := ⟨Act.accepts, Act.write env⟩

/-- The order of the two does not matter. -/
def Act.Compatible : Act → Act → Prop
  | command claim u, command claim' u' =>
      (claim = .scaling → claim' = .none ∨ claim' = .scaling) ∧ (claim' = .scaling → claim = .none ∨ claim = .scaling) ∧
        ∀ a a', u = .state a → u' = .state a' → a = a'
  | _, _ => True

/-! ## Acts that commute -/

section
variable {env : Env} {b : Block} {u u' : Update} {claim claim' : AxisCommand}

@[simp] theorem Update.apply_axisCommand (u : Update) (env : Env) (b : Block) : (u.apply env b).axisCommand = b.axisCommand := by
  cases u <;> rfl

@[simp] theorem Update.apply_commandWords (u : Update) (env : Env) (b : Block) : (u.apply env b).commandWords = b.commandWords := by
  cases u <;> rfl

@[simp] theorem Update.apply_words (u : Update) (env : Env) (b : Block) : (u.apply env b).words = b.words := by
  cases u <;> rfl

@[simp] theorem AxisCommand.claimed_commandWords (claim : AxisCommand) (b : Block) : (claim.claimed b).commandWords = b.commandWords := by
  unfold AxisCommand.claimed
  split <;> rfl

@[simp] theorem AxisCommand.claimed_words (claim : AxisCommand) (b : Block) : (claim.claimed b).words = b.words := by
  unfold AxisCommand.claimed
  split <;> rfl

theorem AxisCommand.claimed_axisCommand (claim : AxisCommand) (b : Block) :
    (claim.claimed b).axisCommand = if claim = none then b.axisCommand else claim := by
  unfold AxisCommand.claimed
  split <;> rfl

@[simp] theorem Block.addGroup_words (b : Block) (g : Option Group) : (b.addGroup g).words = b.words := rfl

@[simp] theorem Block.addGroup_commandWords (b : Block) (g : Option Group) :
    (b.addGroup g).commandWords = g.toFinset ∪ b.commandWords := rfl

theorem Update.apply_comm (h : u.group ≠ u'.group ∨ u.group = none) (hstate : ∀ a a', u = .state a → u' = .state a' → a = a')
    (env : Env) (b : Block) : u'.apply env (u.apply env b) = u.apply env (u'.apply env b) := by
  cases u <;> cases u' <;> first
    | rfl
    | exact absurd rfl (h.resolve_right (Option.some_ne_none _))
    | rw [hstate _ _ rfl rfl]

@[simp] theorem Update.apply_claimed (u : Update) (env : Env) (claim : AxisCommand) (b : Block) :
    u.apply env (claim.claimed b) = claim.claimed (u.apply env b) := by
  unfold AxisCommand.claimed
  split
  · rfl
  · cases u <;> rfl

@[simp] theorem Update.apply_addGroup (u : Update) (env : Env) (g : Option Group) (b : Block) :
    u.apply env (b.addGroup g) = (u.apply env b).addGroup g := by
  cases u <;> rfl

@[simp] theorem AxisCommand.claimed_addGroup (claim : AxisCommand) (g : Option Group) (b : Block) :
    claim.claimed (b.addGroup g) = (claim.claimed b).addGroup g := by
  unfold AxisCommand.claimed
  split <;> rfl

theorem Block.addGroup_comm (b : Block) (g g' : Option Group) : (b.addGroup g).addGroup g' = (b.addGroup g').addGroup g :=
  congrArg (fun groups => { b with commandWords := groups }) (Finset.union_left_comm ..)

theorem Update.apply_value (u : Update) (env : Env) (letter : Letter) (value : Option ℚ) (intValue : ℕ) (b : Block) :
    u.apply env ((b.setValue letter value intValue).addWord letter) = ((u.apply env b).setValue letter value intValue).addWord letter := by
  unfold Block.setValue
  split <;> cases u <;> rfl

theorem AxisCommand.claimed_value (claim : AxisCommand) (letter : Letter) (value : Option ℚ) (intValue : ℕ) (b : Block) :
    claim.claimed ((b.setValue letter value intValue).addWord letter) =
      ((claim.claimed b).setValue letter value intValue).addWord letter := by
  unfold AxisCommand.claimed
  split
  · rfl
  · unfold Block.setValue
    split <;> rfl

theorem Block.setValue_words (b : Block) (letter : Letter) (value : Option ℚ) (intValue : ℕ) :
    (b.setValue letter value intValue).words = b.words := by
  unfold Block.setValue
  split <;> rfl

theorem Block.setValue_commandWords (b : Block) (letter : Letter) (value : Option ℚ) (intValue : ℕ) :
    (b.setValue letter value intValue).commandWords = b.commandWords := by
  unfold Block.setValue
  split <;> rfl

theorem Block.setValue_axisCommand (b : Block) (letter : Letter) (value : Option ℚ) (intValue : ℕ) :
    (b.setValue letter value intValue).axisCommand = b.axisCommand := by
  unfold Block.setValue
  split <;> rfl

theorem Block.addWord_setValue (b : Block) (letter letter' : Letter) (value : Option ℚ) (intValue : ℕ) :
    (b.addWord letter).setValue letter' value intValue = (b.setValue letter' value intValue).addWord letter := by
  unfold Block.setValue
  split <;> rfl

theorem Block.addGroup_value (b : Block) (g : Option Group) (letter : Letter) (value : Option ℚ) (intValue : ℕ) :
    ((b.addGroup g).setValue letter value intValue).addWord letter =
      ((b.setValue letter value intValue).addWord letter).addGroup g := by
  unfold Block.setValue
  split <;> rfl

theorem Block.setValue_comm {letter letter' : Letter} (h : letter ≠ letter') (b : Block) (v v' : Option ℚ) (k k' : ℕ) :
    (b.setValue letter v k).setValue letter' v' k' = (b.setValue letter' v' k').setValue letter v k := by
  have hvalues : update (update b.values letter v) letter' v' = update (update b.values letter' v') letter v := update_comm h ..
  unfold Block.setValue
  split <;> split <;> first
    | rfl
    | exact absurd rfl h
    | exact congrArg (fun values => { b with values }) hvalues

theorem Block.addWord_comm (b : Block) (letter letter' : Letter) :
    (b.addWord letter).addWord letter' = (b.addWord letter').addWord letter := by
  unfold Block.addWord
  congr 1
  · exact Finset.insert_comm ..
  · exact Finset.union_left_comm ..
  · split <;> split <;> first
      | rfl
      | exact Finset.insert_comm ..

theorem Block.value_comm {letter letter' : Letter} (h : letter ≠ letter') (b : Block) (v v' : Option ℚ) (k k' : ℕ) :
    (((b.setValue letter v k).addWord letter).setValue letter' v' k').addWord letter' =
      (((b.setValue letter' v' k').addWord letter').setValue letter v k).addWord letter := by
  rw [Block.addWord_setValue, Block.addWord_setValue, Block.setValue_comm h, Block.addWord_comm]

end

/-! ## Acts -/

section
variable {env : Env} {u u' : Update} {claim claim' : AxisCommand}

theorem AxisCommand.refused_comm (h : claim = .scaling → claim' = .none ∨ claim' = .scaling)
    (h' : claim' = .scaling → claim = .none ∨ claim = .scaling) (b : Block) :
    (claim.refused b = false ∧ claim'.refused (claim.claimed b) = false) ↔
      (claim'.refused b = false ∧ claim.refused (claim'.claimed b) = false) := by
  simp only [AxisCommand.refused, AxisCommand.claimed_axisCommand]
  cases claim <;> cases claim' <;> simp at h h' ⊢

theorem AxisCommand.claimed_comm {b : Block} (h : claim = .scaling → claim' = .none ∨ claim' = .scaling)
    (h' : claim' = .scaling → claim = .none ∨ claim = .scaling) (hclaim : claim'.refused (claim.claimed b) = false) (b' : Block) :
    claim'.claimed (claim.claimed b') = claim.claimed (claim'.claimed b') := by
  simp only [AxisCommand.refused, AxisCommand.claimed_axisCommand] at hclaim
  cases claim <;> cases claim' <;> first
    | rfl
    | simp at h h' hclaim

theorem Update.group_comm (u u' : Update) (groups : Finset Group) :
    ((∀ g ∈ u.group, g ∉ groups) ∧ ∀ g ∈ u'.group, g ∉ u.group.toFinset ∪ groups) ↔
      (∀ g ∈ u'.group, g ∉ groups) ∧ ∀ g ∈ u.group, g ∉ u'.group.toFinset ∪ groups := by
  simp only [Finset.mem_union, Option.mem_toFinset, not_or]
  constructor
  · exact fun ⟨hu, hu'⟩ => ⟨fun g hg => (hu' g hg).2, fun g hg => ⟨fun hg' => (hu' g hg').1 hg, hu g hg⟩⟩
  · exact fun ⟨hu', hu⟩ => ⟨fun g hg => (hu g hg).2, fun g hg => ⟨fun hg' => (hu g hg').1 hg, hu' g hg⟩⟩

theorem accepts_command (claim : AxisCommand) (u : Update) (b : Block) :
    (Act.command claim u).accepts b = true ↔ claim.refused b = false ∧ ∀ g ∈ u.group, g ∉ b.commandWords := by
  simp [Act.accepts]

theorem AxisCommand.refused_write (claim claim' : AxisCommand) (u : Update) (g : Option Group) (b : Block) :
    claim'.refused ((u.apply env (claim.claimed b)).addGroup g) = claim'.refused (claim.claimed b) := by
  simp only [AxisCommand.refused, Block.addGroup, Update.apply_claimed, AxisCommand.claimed_axisCommand, Update.apply_axisCommand]

theorem Act.value_value (letter letter' : Letter) (v v' : ℚ) : (actions env).Commute (.value letter v) (.value letter' v') := by
  constructor
  · intro b
    simp only [actions, Act.accepts, Act.write, Block.addWord, Block.setValue_words, Finset.mem_insert, eq_comm (a := letter')]
    by_cases h : letter = letter'
    · simp [h]
    · simp [h, Bool.and_comm]
  · intro b hb
    have h : letter ≠ letter' := by
      rintro rfl
      simp [actions, Act.accepts, Act.write, Block.addWord] at hb
    exact Block.value_comm h ..

theorem Act.command_value (claim : AxisCommand) (u : Update) (letter : Letter) (v : ℚ) :
    (actions env).Commute (.command claim u) (.value letter v) := by
  constructor
  · intro b
    simp only [actions, Act.accepts, Act.write, AxisCommand.refused, Block.addWord, Block.setValue_commandWords,
      Block.setValue_axisCommand, Block.addGroup_words, Update.apply_words, AxisCommand.claimed_words]
    exact Bool.and_comm ..
  · intro b _
    simp only [actions, Act.write]
    rw [AxisCommand.claimed_value, Update.apply_value, Block.addGroup_value]

theorem Act.command_command (h : (Act.command claim u).Compatible (.command claim' u')) :
    (actions env).Commute (.command claim u) (.command claim' u') := by
  obtain ⟨hscaling, hscaling', hstate⟩ := h
  constructor
  · intro b
    rw [Bool.eq_iff_iff, Bool.and_eq_true, Bool.and_eq_true]
    simp only [actions, accepts_command, Act.write, AxisCommand.refused_write, Block.addGroup_commandWords,
      Update.apply_commandWords, AxisCommand.claimed_commandWords]
    have hclaims := AxisCommand.refused_comm hscaling hscaling' b
    have hgroups := Update.group_comm u u' b.commandWords
    exact and_and_and_comm.trans ((and_congr hclaims hgroups).trans and_and_and_comm)
  · intro b hb
    simp only [actions, Bool.and_eq_true, accepts_command, Act.write, AxisCommand.refused_write, Block.addGroup_commandWords,
      Update.apply_commandWords, AxisCommand.claimed_commandWords] at hb
    obtain ⟨⟨-, hgroup⟩, hclaim, hgroup'⟩ := hb
    have hne : u.group ≠ u'.group ∨ u.group = none := by
      cases hu : u.group with
      | none => exact .inr rfl
      | some g =>
          refine .inl fun heq => hgroup' g (heq ▸ rfl) ?_
          simp [hu]
    simp only [actions, Act.write, Update.apply_claimed, AxisCommand.claimed_addGroup, Update.apply_addGroup,
      Update.apply_comm hne hstate]
    rw [AxisCommand.claimed_comm hscaling hscaling' hclaim, Block.addGroup_comm]

theorem Act.Compatible.commute {a a' : Act} (h : a.Compatible a') : (actions env).Commute a a' := by
  cases a with
  | refuse => exact ⟨fun b => (Bool.and_false _).symm, fun b hb => nomatch hb⟩
  | value letter v =>
      cases a' with
      | refuse => exact ⟨fun b => Bool.and_false _, fun b hb => by simp [actions, Act.accepts] at hb⟩
      | value letter' v' => exact Act.value_value letter letter' v v'
      | command claim' u' => exact (Act.command_value claim' u' letter v).symm
  | command claim u =>
      cases a' with
      | refuse => exact ⟨fun b => Bool.and_false _, fun b hb => by simp [actions, Act.accepts] at hb⟩
      | value letter' v' => exact Act.command_value claim u letter' v'
      | command claim' u' => exact Act.command_command h

end

/-! ## Words -/

structure Word where
  letter : Letter
  value : ℚ

/-- All words but O-words, G65, G66 and G67. -/
structure Word.Plain (w : Word) : Prop where
  letter : w.letter ≠ .o
  command : w.letter = .g → ¬(65 ≤ toUint32 w.value ∧ toUint32 w.value ≤ 67)

/-- What a command does, whatever came before. -/
def Command.act (c : Command) : Act :=
  match c.update with
  | .ok u => if 0 < c.mantissa then .refuse else .command c.claim u
  | .error _ => .refuse

/-- What an `M` word does, whatever came before. -/
def mAct (env : Env) (intValue mantissa : ℕ) : Act :=
  if intValue ≤ 99 ∧ 0 < mantissa then .refuse
  else match mCommand env intValue with
    | some (.ok u) => .command .none u
    | some (.error _) => .refuse
    | none =>
        match env.userMCodeCheck (userMCode intValue mantissa) with
        | .unsupported => .refuse
        | _ => .command .none (.user (userMCode intValue mantissa))

/-- What a word does, whatever came before. -/
def wordAct (env : Env) (w : Word) : Act :=
  match w.letter with
  | .g => (gCommand env (toUint32 w.value) (mantissaOf w.value)).act
  | .m => mAct env (toUint32 w.value) (mantissaOf w.value)
  | letter =>
      if letter.integer ∧ 0 < mantissaOf w.value then .refuse
      else if letter.unsigned ∧ w.value < 0 then .refuse
      else .value letter w.value

/-- The loop of `importFrom`, for words that have been read. -/
def importWords (env : Env) : List Word → Scratch → Block → Except Stop Block
  | [], _, b => .ok b
  | w :: ws, s, b =>
      match importWord env w.letter (some w.value) s b with
      | .error stop => .error stop
      | .ok (s, b) => importWords env ws s b

/-- All but the value of the last M-code. -/
def Block.forget (b : Block) : Block := { b with values := update b.values .m none }

/-- What the import of a word makes of the block, and what the act does. -/
inductive Agrees : Except Stop (Scratch × Block) → Option Block → Prop
  | ok (s : Scratch) (b : Block) (h : b.macroCall.takesM = false) : Agrees (.ok (s, b)) (some b.forget)
  | error (stop : Stop) : Agrees (.error stop) none

section
variable {env : Env} {b : Block}

theorem Update.takesM_apply (u : Update) (env : Env) (h : b.macroCall.takesM = false) : (u.apply env b).macroCall.takesM = false := by
  cases u <;> first
    | exact h
    | rfl

theorem Update.forget_apply (u : Update) : (u.apply env b).forget = u.apply env b.forget := by
  cases u <;> rfl

theorem AxisCommand.forget_claimed (claim : AxisCommand) : (claim.claimed b).forget = claim.claimed b.forget := by
  unfold AxisCommand.claimed
  split <;> rfl

theorem AxisCommand.takesM_claimed (claim : AxisCommand) (h : b.macroCall.takesM = false) :
    (claim.claimed b).macroCall.takesM = false := by
  unfold AxisCommand.claimed
  split <;> exact h

theorem addCommand_agrees (claim : AxisCommand) (u : Update) (s : Scratch) (hb : b.macroCall.takesM = false)
    (hclaim : claim.refused b = false) :
    Agrees ((addCommand env (claim.claimed b) u).map (s, ·)) ((actions env).act b.forget (.command claim u)) := by
  have hclaim' : claim.refused b.forget = false := hclaim
  have htakesM := u.takesM_apply env (claim.takesM_claimed hb)
  have hwrite : ((u.apply env (claim.claimed b)).addGroup u.group).forget = (u.apply env (claim.claimed b.forget)).addGroup u.group := by
    rw [← AxisCommand.forget_claimed, ← Update.forget_apply]
    rfl
  simp only [Actions.act, actions, Act.accepts, Act.write, hclaim', Bool.not_false, Bool.true_and, decide_eq_true_eq, addCommand,
    AxisCommand.claimed_commandWords, ← hwrite]
  split
  · rw [if_pos ‹_›]
    exact .ok s _ htakesM
  · rw [if_neg ‹_›]
    exact .error _

theorem Command.run_agrees (c : Command) (s : Scratch) (hb : b.macroCall.takesM = false) :
    Agrees ((c.run env b).map (s, ·)) ((actions env).act b.forget c.act) := by
  unfold Command.run Command.act
  by_cases hclaim : c.claim.refused b = true
  · have hforget (u : Update) : (actions env).act b.forget (.command c.claim u) = none := by
      have hclaim' : c.claim.refused b.forget = true := hclaim
      simp [Actions.act, actions, Act.accepts, hclaim']
    rw [if_pos hclaim]
    cases c.update with
    | error status => exact .error _
    | ok u =>
        dsimp only
        split
        · exact .error _
        · rw [hforget u]
          exact .error _
  rw [if_neg hclaim]
  cases c.update with
  | error status => exact .error _
  | ok u =>
      dsimp only
      by_cases hmantissa : 0 < c.mantissa
      · rw [if_pos hmantissa, if_pos hmantissa]
        exact .error _
      · rw [if_neg hmantissa, if_neg hmantissa]
        exact addCommand_agrees c.claim u s hb (Bool.eq_false_iff.2 hclaim)

theorem importG_agrees (s : Scratch) (hs : ¬(65 ≤ s.intValue ∧ s.intValue ≤ 67)) (hb : b.macroCall.takesM = false) :
    Agrees (importG env s b) ((actions env).act b.forget (gCommand env s.intValue s.mantissa).act) := by
  unfold importG
  rw [if_neg hs]
  exact Command.run_agrees _ _ hb

theorem importM_agrees (s : Scratch) (hb : b.macroCall.takesM = false) :
    Agrees (importM env s b) ((actions env).act b.forget (mAct env s.intValue s.mantissa)) := by
  unfold importM mAct
  rw [if_neg (by simp [hb])]
  by_cases hinteger : s.intValue ≤ 99 ∧ 0 < s.mantissa
  · rw [if_pos hinteger, if_pos hinteger]
    exact .error _
  rw [if_neg hinteger, if_neg hinteger]
  cases mCommand env s.intValue with
  | some r =>
      cases r with
      | ok u => exact addCommand_agrees .none u _ hb rfl
      | error status => exact .error _
  | none =>
      cases env.userMCodeCheck (userMCode s.intValue s.mantissa) with
      | unsupported => exact .error _
      | normal => exact addCommand_agrees .none _ _ hb rfl
      | noValueWords => exact addCommand_agrees .none _ _ hb rfl

theorem Block.forget_value {letter : Letter} (hletter : letter ≠ .m) (value : Option ℚ) (intValue : ℕ) :
    ((b.setValue letter value intValue).addWord letter).forget = (b.forget.setValue letter value intValue).addWord letter := by
  have hvalues : update (update b.values letter value) .m none = update (update b.values .m none) letter value := update_comm hletter ..
  unfold Block.setValue
  split <;> first
    | rfl
    | exact congrArg (fun values => ({ b with values } : Block).addWord letter) hvalues

theorem Block.takesM_value {letter : Letter} (value : Option ℚ) (intValue : ℕ) (hb : b.macroCall.takesM = false) :
    ((b.setValue letter value intValue).addWord letter).macroCall.takesM = false := by
  unfold Block.setValue
  split <;> exact hb

theorem wordAct_value {letter : Letter} (hg : letter ≠ .g) (hm : letter ≠ .m) (v : ℚ) :
    wordAct env ⟨letter, v⟩ =
      if letter.integer ∧ 0 < mantissaOf v then .refuse else if letter.unsigned ∧ v < 0 then .refuse else .value letter v := by
  unfold wordAct
  split
  · exact absurd ‹_› hg
  · exact absurd ‹_› hm
  · rfl

theorem assign_agrees {letter : Letter} (hg : letter ≠ .g) (hm : letter ≠ .m) (ho : letter ≠ .o) (v : ℚ) (s : Scratch)
    (hb : b.macroCall.takesM = false) :
    Agrees ((assign env b letter (some v) (s.split (some v))).map (s.split (some v), ·))
      ((actions env).act b.forget (wordAct env ⟨letter, v⟩)) := by
  rw [wordAct_value hg hm]
  unfold assign Scratch.split
  simp only [ho, false_and, if_false, Option.mem_some_iff, exists_eq_left']
  by_cases hinteger : letter.integer ∧ 0 < mantissaOf v
  · rw [if_pos hinteger, if_pos hinteger]
    exact .error _
  rw [if_neg hinteger, if_neg hinteger]
  by_cases hnegative : letter.unsigned ∧ v < 0
  · rw [if_pos hnegative, if_pos hnegative]
    split <;> exact .error _
  rw [if_neg hnegative, if_neg hnegative, Actions.act]
  simp only [actions, Act.accepts, Act.write, decide_not, Bool.not_eq_true', decide_eq_false_iff_not, ite_not, ← Block.forget_value hm]
  by_cases hwords : letter ∈ b.words
  · have hforget : letter ∈ b.forget.words := hwords
    rw [if_pos hwords, if_pos hforget]
    exact .error _
  · have hforget : letter ∉ b.forget.words := hwords
    rw [if_neg hwords, if_neg hforget]
    exact .ok _ _ (Block.takesM_value _ _ hb)

theorem importWord_agrees (hmodal1 : env.modal1 = false) {w : Word} (hw : w.Plain) (s : Scratch) (hb : b.macroCall.takesM = false) :
    Agrees (importWord env w.letter (some w.value) s b) ((actions env).act b.forget (wordAct env w)) := by
  obtain ⟨letter, v⟩ := w
  unfold importWord
  simp only [hmodal1, if_false, Bool.false_eq_true]
  split
  · exact importG_agrees _ (hw.command rfl) hb
  · have hforget : ({ b with values := update b.values .m (some v) } : Block).forget = b.forget :=
      congrArg (fun values => { b with values }) (update_idem ..)
    rw [← hforget]
    exact importM_agrees _ hb
  · rename_i hg hm
    exact assign_agrees hg hm hw.letter v s hb

theorem importWords_plain (hmodal1 : env.modal1 = false) {ws : List Word} (hws : ∀ w ∈ ws, w.Plain) (s : Scratch)
    (hb : b.macroCall.takesM = false) :
    (importWords env ws s b).toOption.map Block.forget = (actions env).run (ws.map (wordAct env)) b.forget := by
  induction ws generalizing s b with
  | nil => rfl
  | cons w ws ih =>
      have hfirst := importWord_agrees hmodal1 (hws w List.mem_cons_self) s hb
      rw [List.map_cons, Actions.run, List.foldl_cons, Option.bind_some, importWords]
      generalize importWord env w.letter (some w.value) s b = r at hfirst
      generalize (actions env).act b.forget (wordAct env w) = o at hfirst
      cases hfirst with
      | ok s b' hb' => exact ih (fun w hw => hws w (List.mem_cons_of_mem _ hw)) s hb'
      | error stop => exact (Actions.run_none _).symm

end

end Grbl.GCode
