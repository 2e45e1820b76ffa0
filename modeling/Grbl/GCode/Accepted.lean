import Grbl.GCode.WordText

/-!
# Blocks that are accepted

The words of a block without O-words and macro calls are imported when all are supported, no modal group and no letter is used twice,
and one command at most uses the axis words. Nothing of an accepted block is lost.

* `Act.group`, `Act.letter`, `Act.claim`, `Admissible` : blocks as lists of acts; `run_isSome_iff`;
* `InEffect` : doing it again changes nothing; `InEffect.write` : later acts keep it;
* `accepted_block`.
-/

namespace Grbl.GCode
open Function Numbers Lib

def Act.group : Act → Option Group
  | command _ u => u.group
  | value .. | refuse => none

def Act.letter : Act → Option Letter
  | value letter _ => some letter
  | command .. | refuse => none

def Act.claim : Act → Option AxisCommand
  | command claim _ => if claim = .none then none else some claim
  | value .. | refuse => none

/-- M70 to M73 -/
def Act.stateAction : Act → Option ModalStateAction
  | command _ (.state s) => some s
  | _ => none

/-- One command for a modal group, one value for a letter; an axis command is claimed first, but G50 and G51 may follow another one. -/
structure Admissible (acts : List Act) : Prop where
  supported : .refuse ∉ acts
  groups : (acts.filterMap Act.group).Nodup
  letters : (acts.filterMap Act.letter).Nodup
  claims : (acts.filterMap Act.claim).Pairwise fun _ claim => claim = .scaling

/-! ## Acceptance -/

/-- Used once, and not before. -/
def Fresh {γ : Type} (new : List γ) (old : Finset γ) : Prop := new.Nodup ∧ ∀ x ∈ new, x ∉ old

theorem fresh_cons {γ : Type} [DecidableEq γ] (x : γ) (new : List γ) (old : Finset γ) :
    Fresh (x :: new) old ↔ x ∉ old ∧ Fresh new (insert x old) := by
  simp only [Fresh, List.nodup_cons, List.forall_mem_cons, Finset.mem_insert, not_or]
  constructor
  · exact fun ⟨⟨hx, hnodup⟩, hold, hnew⟩ => ⟨hold, hnodup, fun y hy => ⟨fun heq => hx (heq ▸ hy), hnew y hy⟩⟩
  · exact fun ⟨hold, hnodup, hnew⟩ => ⟨⟨fun hx => (hnew x hx).1 rfl, hnodup⟩, hold, fun y hy => (hnew y hy).2⟩

/-- What may be claimed after `axisCommand`. -/
def Claims (claims : List AxisCommand) (axisCommand : AxisCommand) : Prop :=
  claims.Pairwise (fun _ claim => claim = .scaling) ∧ (axisCommand ≠ .none → ∀ claim ∈ claims, claim = .scaling)

theorem claims_cons {claim axisCommand : AxisCommand} (h : claim ≠ .none) (claims : List AxisCommand) :
    Claims (claim :: claims) axisCommand ↔ (axisCommand ≠ .none → claim = .scaling) ∧ Claims claims claim := by
  simp only [Claims, List.pairwise_cons, List.forall_mem_cons]
  constructor
  · exact fun ⟨⟨hclaims, hpairwise⟩, hold⟩ => ⟨fun hne => (hold hne).1, hpairwise, fun _ => hclaims⟩
  · exact fun ⟨hclaim, hpairwise, hclaims⟩ => ⟨⟨hclaims h, hpairwise⟩, fun hne => ⟨hclaim hne, hclaims h⟩⟩

/-- `Admissible` in a block that has words already. -/
structure AdmissibleIn (acts : List Act) (b : Block) : Prop where
  supported : .refuse ∉ acts
  groups : Fresh (acts.filterMap Act.group) b.commandWords
  letters : Fresh (acts.filterMap Act.letter) b.words
  claims : Claims (acts.filterMap Act.claim) b.axisCommand

section
variable {env : Env} {acts : List Act} {b b' : Block}

theorem admissibleIn_nil : AdmissibleIn [] b :=
  ⟨List.not_mem_nil, ⟨List.nodup_nil, by simp⟩, ⟨List.nodup_nil, by simp⟩, ⟨List.Pairwise.nil, by simp⟩⟩

theorem filterMap_cons {γ : Type} (f : Act → Option γ) (a : Act) (acts : List Act) :
    (a :: acts).filterMap f = (f a).toList ++ acts.filterMap f := by
  rw [List.filterMap_cons]
  cases f a <;> rfl

theorem admissibleIn_iff (a : Act) (ha : a ≠ .refuse) :
    AdmissibleIn (a :: acts) b ↔ .refuse ∉ acts ∧ Fresh (a.group.toList ++ acts.filterMap Act.group) b.commandWords ∧
      Fresh (a.letter.toList ++ acts.filterMap Act.letter) b.words ∧ Claims (a.claim.toList ++ acts.filterMap Act.claim) b.axisCommand := by
  simp only [← filterMap_cons]
  constructor
  · exact fun ⟨hsupported, hgroups, hletters, hclaims⟩ =>
      ⟨fun h => hsupported (List.mem_cons_of_mem _ h), hgroups, hletters, hclaims⟩
  · exact fun ⟨hsupported, hgroups, hletters, hclaims⟩ =>
      ⟨fun h => (List.mem_cons.1 h).elim (fun h => ha h.symm) hsupported, hgroups, hletters, hclaims⟩

theorem admissibleIn_value (letter : Letter) (v : ℚ) :
    AdmissibleIn (.value letter v :: acts) b ↔
      letter ∉ b.words ∧ AdmissibleIn acts ((b.setValue letter (some v) (toUint32 v)).addWord letter) := by
  have hletters := fresh_cons letter (acts.filterMap Act.letter) b.words
  rw [admissibleIn_iff _ (by simp)]
  constructor
  · rintro ⟨hsupported, hgroups, hnew, hclaims⟩
    obtain ⟨hletter, hrest⟩ := hletters.1 hnew
    refine ⟨hletter, hsupported, ?_, ?_, ?_⟩ <;>
      simp only [Block.addWord, Block.setValue_commandWords, Block.setValue_words, Block.setValue_axisCommand]
    · exact hgroups
    · exact hrest
    · exact hclaims
  · rintro ⟨hletter, hsupported, hgroups, hrest, hclaims⟩
    simp only [Block.addWord, Block.setValue_commandWords, Block.setValue_words, Block.setValue_axisCommand] at hgroups hrest hclaims
    exact ⟨hsupported, hgroups, hletters.2 ⟨hletter, hrest⟩, hclaims⟩

theorem fresh_group (u : Update) (groups : List Group) (old : Finset Group) :
    Fresh (u.group.toList ++ groups) old ↔ (∀ g ∈ u.group, g ∉ old) ∧ Fresh groups (u.group.toFinset ∪ old) := by
  cases u.group with
  | none => simp
  | some g =>
      rw [Option.toFinset_some, ← Finset.insert_eq]
      exact (fresh_cons g groups old).trans (and_congr_left fun _ => by simp)

theorem claims_claim (claim : AxisCommand) (claims : List AxisCommand) (b : Block) :
    Claims ((if claim = .none then none else some claim).toList ++ claims) b.axisCommand ↔
      claim.refused b = false ∧ Claims claims (claim.claimed b).axisCommand := by
  rw [AxisCommand.claimed_axisCommand]
  by_cases h : claim = .none
  · simp [h, AxisCommand.refused]
  · simp only [h, if_false, Option.toList_some, List.singleton_append, claims_cons h, AxisCommand.refused]
    by_cases hscaling : claim = .scaling <;> simp [h, hscaling]

theorem admissibleIn_command (claim : AxisCommand) (u : Update) :
    AdmissibleIn (.command claim u :: acts) b ↔ (claim.refused b = false ∧ ∀ g ∈ u.group, g ∉ b.commandWords) ∧
      AdmissibleIn acts ((u.apply env (claim.claimed b)).addGroup u.group) := by
  have hgroups := fresh_group u (acts.filterMap Act.group) b.commandWords
  have hclaims := claims_claim claim (acts.filterMap Act.claim) b
  have hwords : ((u.apply env (claim.claimed b)).addGroup u.group).words = b.words := by
    rw [Block.addGroup_words, Update.apply_words, AxisCommand.claimed_words]
  have hcommandWords : ((u.apply env (claim.claimed b)).addGroup u.group).commandWords = u.group.toFinset ∪ b.commandWords := by
    rw [Block.addGroup_commandWords, Update.apply_commandWords, AxisCommand.claimed_commandWords]
  have haxisCommand : ((u.apply env (claim.claimed b)).addGroup u.group).axisCommand = (claim.claimed b).axisCommand :=
    u.apply_axisCommand env _
  rw [admissibleIn_iff _ (by simp)]
  constructor
  · intro ⟨hsupported, hnew, hletters, hclaim⟩
    obtain ⟨hgroup, hrest⟩ := hgroups.1 hnew
    obtain ⟨hrefused, hlater⟩ := hclaims.1 hclaim
    exact ⟨⟨hrefused, hgroup⟩, hsupported, hcommandWords ▸ hrest, hwords ▸ hletters, haxisCommand ▸ hlater⟩
  · intro ⟨⟨hrefused, hgroup⟩, hsupported, hrest, hletters, hlater⟩
    rw [hcommandWords] at hrest
    rw [hwords] at hletters
    rw [haxisCommand] at hlater
    exact ⟨hsupported, hgroups.2 ⟨hgroup, hrest⟩, hletters, hclaims.2 ⟨hrefused, hlater⟩⟩

theorem admissibleIn_cons (env : Env) (a : Act) :
    AdmissibleIn (a :: acts) b ↔ (actions env).accepts a b = true ∧ AdmissibleIn acts ((actions env).write a b) := by
  cases a with
  | refuse => exact ⟨fun h => absurd List.mem_cons_self h.supported, fun h => absurd h.1 Bool.false_ne_true⟩
  | value letter v => simpa [actions, Act.accepts, Act.write] using admissibleIn_value letter v
  | command claim u => exact (admissibleIn_command claim u).trans (and_congr_left fun _ => (accepts_command claim u b).symm)

theorem run_isSome_iff (env : Env) : ((actions env).run acts b).isSome = true ↔ AdmissibleIn acts b := by
  induction acts generalizing b with
  | nil => simp [admissibleIn_nil]
  | cons a acts ih =>
      rw [Actions.run_cons, admissibleIn_cons env, ← ih]
      split <;> simp [*]

end

/-! ## Nothing is lost -/

/-- Doing it again changes nothing. -/
def InEffect (env : Env) : Act → Block → Prop
  | .command _ u, b => u.apply env b = b
  | .value letter v, b => (b.setValue letter (some v) (toUint32 v)).addWord letter = b
  | .refuse, _ => False

structure Kept (env : Env) (a : Act) (b : Block) : Prop where
  inEffect : InEffect env a b
  group : ∀ g ∈ a.group, g ∈ b.commandWords
  letter : ∀ letter ∈ a.letter, letter ∈ b.words

section
variable {env : Env} {acts : List Act} {b b' : Block}

theorem Update.apply_idem (u : Update) (env : Env) (b : Block) : u.apply env (u.apply env b) = u.apply env b := by
  cases u with
  | motion m canned => cases canned <;> rfl
  | programFlow flow => cases flow <;> rfl
  | coolant mist flood => cases mist <;> cases flood <;> simp [Update.apply]
  | _ => rfl

theorem Block.setValue_idem (b : Block) (letter : Letter) (value : Option ℚ) (intValue : ℕ) :
    (b.setValue letter value intValue).setValue letter value intValue = b.setValue letter value intValue := by
  have hvalues : update (update b.values letter value) letter value = update b.values letter value := update_idem ..
  cases letter <;> first
    | rfl
    | exact congrArg (fun values => { b with values }) hvalues

theorem Block.addWord_idem (b : Block) (letter : Letter) : (b.addWord letter).addWord letter = b.addWord letter := by
  unfold Block.addWord
  congr 1
  · exact Finset.insert_idem ..
  · rw [← Finset.union_assoc, Finset.union_self]
  · split
    · exact Finset.insert_idem ..
    · rfl

theorem kept_write {a : Act} (ha : (actions env).accepts a b = true) : Kept env a ((actions env).write a b) := by
  cases a with
  | refuse => exact absurd ha Bool.false_ne_true
  | value letter v =>
      refine ⟨?_, (by rintro _ ⟨⟩), fun letter' hletter => ?_⟩
      · simp only [InEffect, actions, Act.write]
        rw [Block.addWord_setValue, Block.setValue_idem, Block.addWord_idem]
      · obtain rfl : letter = letter' := Option.some.inj hletter
        exact Finset.mem_insert_self ..
  | command claim u =>
      refine ⟨?_, fun g hg => ?_, (by rintro _ ⟨⟩)⟩
      · simp only [InEffect, actions, Act.write]
        rw [Update.apply_addGroup, Update.apply_idem]
      · exact Finset.mem_union_left _ (Option.mem_toFinset.2 hg)

theorem Kept.write {a a' : Act} (h : Kept env a b) (hstate : ∀ s ∈ a.stateAction, ∀ s' ∈ a'.stateAction, s = s')
    (ha' : (actions env).accepts a' b = true) : Kept env a ((actions env).write a' b) := by
  obtain ⟨hinEffect, hgroup, hletter⟩ := h
  cases a' with
  | refuse => exact absurd ha' Bool.false_ne_true
  | value letter' v' =>
      have hfresh : letter' ∉ b.words := by simpa [actions, Act.accepts] using ha'
      refine ⟨?_, ?_, ?_⟩
      · cases a with
        | refuse => exact hinEffect
        | value letter v =>
            have hne : letter' ≠ letter := fun heq => hfresh (heq ▸ hletter letter rfl)
            simp only [InEffect, actions, Act.write] at hinEffect ⊢
            rw [Block.value_comm hne, hinEffect]
        | command claim u =>
            simp only [InEffect, actions, Act.write] at hinEffect ⊢
            rw [Update.apply_value, hinEffect]
      · simpa only [actions, Act.write, Block.addWord, Block.setValue_commandWords] using hgroup
      · intro letter hmem
        simp only [actions, Act.write, Block.addWord, Block.setValue_words]
        exact Finset.mem_insert_of_mem (hletter letter hmem)
  | command claim' u' =>
      obtain ⟨-, hfresh⟩ := (accepts_command claim' u' b).1 ha'
      refine ⟨?_, fun g hg => ?_, ?_⟩
      · cases a with
        | refuse => exact hinEffect
        | value letter v =>
            simp only [InEffect, actions, Act.write] at hinEffect ⊢
            rw [Block.addGroup_value, ← Update.apply_value, ← AxisCommand.claimed_value, hinEffect]
        | command claim u =>
            have hne : u.group ≠ u'.group ∨ u.group = none := by
              cases hu : u.group with
              | none => exact .inr rfl
              | some g => exact .inl fun heq => hfresh g heq.symm (hgroup g hu)
            have hcomm := Update.apply_comm hne (fun s s' hu hu' => hstate s (hu ▸ rfl) s' (hu' ▸ rfl)) env (claim'.claimed b)
            simp only [InEffect, actions, Act.write] at hinEffect ⊢
            rw [Update.apply_addGroup, ← hcomm, Update.apply_claimed u, hinEffect]
      · simp only [actions, Act.write, Block.addGroup_commandWords, Update.apply_commandWords, AxisCommand.claimed_commandWords]
        exact Finset.mem_union_right _ (hgroup g hg)
      · simpa only [actions, Act.write, Block.addGroup_words, Update.apply_words, AxisCommand.claimed_words] using hletter

theorem run_kept (hstates : ∀ a ∈ acts, ∀ a' ∈ acts, ∀ s ∈ a.stateAction, ∀ s' ∈ a'.stateAction, s = s')
    (hrun : (actions env).run acts b = some b') : ∀ a ∈ acts, Kept env a b' := by
  intro a ha
  obtain ⟨t, rest, haccepts, hrest, hrun⟩ := Actions.run_mem hrun ha
  refine Actions.run_keeps (P := Kept env a) (fun a' ha' s hkept haccepts' => ?_) hrun (kept_write haccepts)
  exact hkept.write (hstates a ha a' (hrest ha')) haccepts'

theorem run_tracks (hrun : (actions env).run acts b = some b') :
    b'.commandWords = (acts.filterMap Act.group).toFinset ∪ b.commandWords ∧ b'.words = (acts.filterMap Act.letter).toFinset ∪ b.words := by
  induction acts generalizing b with
  | nil =>
      obtain rfl : b = b' := by simpa using hrun
      simp
  | cons a acts ih =>
      rw [Actions.run_cons] at hrun
      split at hrun
      · obtain ⟨hgroups, hletters⟩ := ih hrun
        rw [hgroups, hletters, filterMap_cons, filterMap_cons]
        cases a with
        | refuse => exact ⟨rfl, rfl⟩
        | value letter v =>
            simp only [actions, Act.write, Act.group, Act.letter, Block.addWord, Block.setValue_commandWords, Block.setValue_words]
            simp
        | command claim u =>
            simp only [actions, Act.write, Act.group, Act.letter, Block.addGroup_words, Block.addGroup_commandWords, Update.apply_words,
              Update.apply_commandWords, AxisCommand.claimed_words, AxisCommand.claimed_commandWords]
            cases u.group <;> simp
      · cases hrun

end

structure NoWords (b : Block) : Prop where
  commandWords : b.commandWords = ∅
  words : b.words = ∅
  axisCommand : b.axisCommand = .none
  macroCall : b.macroCall = .none

theorem NoWords.admissibleIn_iff {b : Block} (h : NoWords b) (acts : List Act) : AdmissibleIn acts b.forget ↔ Admissible acts := by
  have hcommandWords : b.forget.commandWords = ∅ := h.commandWords
  have hwords : b.forget.words = ∅ := h.words
  have haxisCommand : b.forget.axisCommand = .none := h.axisCommand
  constructor
  · exact fun ⟨hsupported, hgroups, hletters, hclaims⟩ => ⟨hsupported, hgroups.1, hletters.1, hclaims.1⟩
  · exact fun ⟨hsupported, hgroups, hletters, hclaims⟩ =>
      ⟨hsupported, ⟨hgroups, by simp [hcommandWords]⟩, ⟨hletters, by simp [hwords]⟩, ⟨hclaims, fun hne => absurd haxisCommand hne⟩⟩

/-- A block without O-words and macro calls is accepted exactly when its words are admissible. Then its groups and letters are tracked,
and each of its words is in effect at the end, unless different ones of M70 to M73 are used. -/
theorem accepted_block (env : Env) (hmodal1 : env.modal1 = false) (jog : Bool) (ws : List WordText) (hplain : ∀ w ∈ ws, w.word.Plain)
    (b : Block) (hb : NoWords b) :
    ((∃ b', importLine env (lineOf jog ws) jog b = .ok b') ↔ Admissible (ws.map fun w => wordAct env w.word)) ∧
      ∀ b', importLine env (lineOf jog ws) jog b = .ok b' →
        b'.commandWords = (ws.filterMap fun w => (wordAct env w.word).group).toFinset ∧
          b'.words = (ws.filterMap fun w => (wordAct env w.word).letter).toFinset ∧
            ((∀ w ∈ ws, ∀ w' ∈ ws, ∀ s ∈ (wordAct env w.word).stateAction, ∀ s' ∈ (wordAct env w'.word).stateAction, s = s') →
              ∀ w ∈ ws, InEffect env (wordAct env w.word) b'.forget) := by
  have htakesM : b.macroCall.takesM = false := by
    rw [hb.macroCall]
    rfl
  have himport := importLine_acts hmodal1 jog hplain htakesM
  refine ⟨?_, fun b' hb' => ?_⟩
  · rw [← hb.admissibleIn_iff, ← run_isSome_iff env, ← himport, Option.isSome_map]
    cases importLine env (lineOf jog ws) jog b <;> simp [Except.toOption]
  · rw [hb'] at himport
    have hrun := himport.symm
    obtain ⟨hgroups, hletters⟩ := run_tracks hrun
    have hcommandWords : b.forget.commandWords = ∅ := hb.commandWords
    have hwords : b.forget.words = ∅ := hb.words
    rw [List.filterMap_map, hcommandWords, Finset.union_empty] at hgroups
    rw [List.filterMap_map, hwords, Finset.union_empty] at hletters
    refine ⟨hgroups, hletters, fun hstates w hw => (run_kept ?_ hrun _ (List.mem_map_of_mem hw)).inEffect⟩
    simpa only [List.forall_mem_map] using hstates

theorem accepted_block_linear : Admissible ([linear, toX, feed].map fun w => wordAct {} w.word) ∧
    ∃ b', importLine {} "G1X-1.5F200".toList false {} = .ok b' ∧ b'.commandWords = {.g1} ∧ b'.words = {.x, .f} := by
  obtain ⟨hiff, hcontents⟩ := accepted_block {} rfl false [linear, toX, feed] plain_linear {} ⟨rfl, rfl, rfl, rfl⟩
  have hadmissible : Admissible ([linear, toX, feed].map fun w => wordAct {} w.word) := by
    rw [List.map_cons, List.map_cons, List.map_cons, wordAct_linear, wordAct_toX, wordAct_feed]
    exact ⟨by decide, by decide, by decide, by decide⟩
  obtain ⟨b', hb'⟩ := hiff.2 hadmissible
  obtain ⟨hgroups, hletters, -⟩ := hcontents b' hb'
  refine ⟨hadmissible, b', hb', hgroups.trans ?_, hletters.trans ?_⟩
  · simp only [List.filterMap_cons, wordAct_linear, wordAct_toX, wordAct_feed]
    rfl
  · simp only [List.filterMap_cons, wordAct_linear, wordAct_toX, wordAct_feed]
    rfl

end Grbl.GCode
