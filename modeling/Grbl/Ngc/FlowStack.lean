import Grbl.Lib.Run
import Grbl.Ngc.Flowctrl

/-!
# The flow-control stack

* `FlowCall`, `flowStep` : the calls of the module's functions, in any order;
* `LabelOnStack` : a `BREAK` or `CONTINUE` that is acted upon names an entry of the stack, and a `RETURN`
  out of a macro finds one;
* `command_fits` : a command then reads no element below the stack and keeps it in the array;
  `ngcFlowctrl_eq_none` : without it, it reads `stack[-1]`;
* `stack_safe_iff` : the same for whole runs.
-/

namespace Grbl.Ngc

variable {σ φ : Type}

/-- The stack fits in the array: `stack_idx` is at most `NGC_STACK_DEPTH - 1`. -/
def Flow.Fits (s : Flow σ φ) : Prop := s.stack.length ≤ ngcStackDepth

/-- The command has read no element below the stack, and leaves a stack that fits. -/
def Fits (o : Outcome σ φ) : Prop := ∃ r, o = some r ∧ r.2.Fits

section
variable {s : Flow σ φ}

theorem fits_ok (hs : s.Fits) : Fits s.ok := ⟨_, rfl, hs⟩

theorem fits_fail {e : Status} (hs : s.Fits) : Fits (s.fail e) := ⟨_, rfl, hs⟩

theorem fits_withTop {f : Entry φ → Outcome σ φ} (hne : s.stack ≠ []) (hf : ∀ top, Fits (f top)) :
    Fits (s.withTop f) := by
  rw [Flow.withTop]
  cases hst : s.stack with
  | nil => exact absurd hst hne
  | cons top rest => exact hf top

theorem fits_setTop (top : Entry φ) (hs : s.Fits) : (s.setTop top).Fits := by
  have hs : s.stack.length ≤ ngcStackDepth := hs
  have hdepth : 1 ≤ ngcStackDepth := by decide
  show (top :: s.stack.tail).length ≤ ngcStackDepth
  rw [List.length_cons, List.length_tail]
  omega

/-- The tests of `last_op` make sure that there is an entry. -/
theorem stack_ne_nil_of_lastOp {operation : FlowCmd} (h : s.lastOp = operation) (hsub : operation ≠ .sub)
    (hno : operation ≠ .noOp) : s.stack ≠ [] := by
  intro hst
  rw [Flow.lastOp, hst] at h
  cases hskip : s.skipSub <;> simp only [hskip] at h
  · exact hno h.symm
  · exact hsub h.symm

theorem stack_ne_nil_of_lastOp_if (h : s.lastOp = .if ∨ s.lastOp = .elseIf ∨ s.lastOp = .else) :
    s.stack ≠ [] := by
  rcases h with h | h | h <;> exact stack_ne_nil_of_lastOp h (by decide) (by decide)

end

section
variable {h : FlowHost σ φ} {s : Flow σ φ}

theorem fits_withFile {f : φ → Outcome σ φ} (hs : s.Fits) (hf : ∀ file, Fits (f file)) :
    Fits (s.withFile h f) := by
  rw [Flow.withFile]
  split
  · exact hf _
  · exact fits_fail hs

theorem fits_eval {text : List Char} {f : ℚ → List Char → Flow σ φ → Outcome σ φ} (hs : s.Fits)
    (hf : ∀ value rest world, Fits (f value rest { s with world := world })) : Fits (s.eval h text f) := by
  rw [Flow.eval]
  split
  · exact hf _ _ _
  · exact fits_fail hs

theorem stackPush_fits (l : OLine) (operation : FlowCmd) (hs : s.Fits) :
    (stackPush h l operation s).2.Fits ∧
      ((stackPush h l operation s).1 = none → (stackPush h l operation s).2.stack ≠ []) := by
  rw [stackPush]
  split
  case isTrue hlt =>
    obtain ⟨pushed, world⟩ := pushContext h operation s
    cases pushed with
    | true => exact ⟨hlt, fun _ => List.cons_ne_nil _ _⟩
    | false => exact ⟨hs, fun hnone => nomatch hnone⟩
  case isFalse => exact ⟨hs, fun hnone => nomatch hnone⟩

theorem fits_push {l : OLine} {operation : FlowCmd} {f : Entry φ → Flow σ φ → Outcome σ φ} (hs : s.Fits)
    (hf : ∀ top s, s.Fits → Fits (f top s)) : Fits (s.push h l operation f) := by
  obtain ⟨hfits, hne⟩ := stackPush_fits (h := h) l operation hs
  rw [Flow.push]
  split
  case h_1 s' heq =>
    rw [heq] at hfits hne
    exact fits_withTop (hne rfl) fun top => hf top s' hfits
  case h_2 e s' heq =>
    rw [heq] at hfits
    exact fits_fail hfits

theorem fits_stackPull (hs : s.Fits) : (stackPull h s).Fits := by
  rw [stackPull]
  split
  case h_1 e rest heq =>
    rw [Flow.Fits, heq, List.length_cons] at hs
    exact Nat.le_of_succ_le hs
  case h_2 => exact hs

theorem pullWhile_suffix (p : Entry φ → Bool) (stack : List (Entry φ)) (world : σ) :
    (pullWhile h p stack world).1 <:+ stack := by
  induction stack generalizing world with
  | nil => exact List.suffix_refl _
  | cons e rest ih =>
      rw [pullWhile]
      split
      · exact (ih _).trans (List.suffix_cons _ _)
      · exact List.suffix_refl _

theorem fits_pullWhile (p : Entry φ → Bool) (hs : s.Fits) : (s.pullWhile h p).Fits :=
  Nat.le_trans (pullWhile_suffix p s.stack s.world).length_le hs

theorem popTo_suffix {oLabel : ℕ} {stack stack' : List (Entry φ)} {world world' : σ}
    (hp : popTo h oLabel stack world = some (stack', world')) : stack' <:+ stack ∧ stack' ≠ [] := by
  induction stack generalizing world with
  | nil => cases hp
  | cons e rest ih =>
      rw [popTo] at hp
      split at hp
      · obtain ⟨hsuffix, hne⟩ := ih hp
        exact ⟨hsuffix.trans (List.suffix_cons _ _), hne⟩
      · cases hp
        exact ⟨List.suffix_refl _, List.cons_ne_nil _ _⟩

/-- The loop that looks for a label reads `stack[-1]` when no entry has it. -/
theorem popTo_eq_none {oLabel : ℕ} {stack : List (Entry φ)} {world : σ} :
    popTo h oLabel stack world = none ↔ ∀ e ∈ stack, e.oLabel ≠ oLabel := by
  induction stack generalizing world with
  | nil => simp [popTo]
  | cons e rest ih =>
      rw [popTo]
      split
      case isTrue hne => simp [ih, Ne.symm hne]
      case isFalse heq =>
        have heq : e.oLabel = oLabel := (not_not.1 heq).symm
        simp [heq]

/-- The condition on which the command reads no element below the stack. -/
structure FitsWhen (P : Prop) (o : Outcome σ φ) : Prop where
  fits : P → Fits o
  out : ¬P → o = none

theorem fits_popTo {oLabel : ℕ} {f : Entry φ → Flow σ φ → Outcome σ φ} (hs : s.Fits)
    (hf : ∀ top s, s.Fits → Fits (f top s)) :
    FitsWhen (∃ e ∈ s.stack, e.oLabel = oLabel) (s.popTo h oLabel f) := by
  rw [Flow.popTo]
  cases hp : popTo h oLabel s.stack s.world with
  | none =>
      refine ⟨?_, fun _ => rfl⟩
      rintro ⟨e, he, heq⟩
      exact absurd heq (popTo_eq_none.1 hp e he)
  | some p =>
      obtain ⟨hsuffix, hne⟩ := popTo_suffix hp
      have hfits : Flow.Fits { s with stack := p.1, world := p.2 } :=
        Nat.le_trans hsuffix.length_le hs
      refine ⟨fun _ => fits_withTop hne fun top => hf top _ hfits, fun hno => ?_⟩
      have hnone : popTo h oLabel s.stack s.world = none :=
        popTo_eq_none.2 fun e he heq => hno ⟨e, he, heq⟩
      rw [hp] at hnone
      cases hnone

end

section
variable [DecidableEq φ] {h : FlowHost σ φ} {s : Flow σ φ}

theorem fits_unwindStack (file : Option φ) (hs : s.Fits) : (ngcFlowctrlUnwindStack h file s).Fits :=
  fits_pullWhile _ hs

theorem fits_init (hs : s.Fits) : (ngcFlowctrlInit h s).Fits := fits_pullWhile _ hs

theorem fits_stackUnwindSub (oLabel : ℕ) (hs : s.Fits) : (stackUnwindSub h oLabel s).Fits := by
  have hpull : (s.pullWhile h fun e => decide (e.oLabel ≠ oLabel)).Fits := fits_pullWhile _ hs
  unfold stackUnwindSub Flow.Fits
  dsimp only
  split
  case h_1 => exact hpull
  case h_2 =>
    apply fits_stackPull
    split
    · split <;> exact hpull
    · exact hpull

theorem fits_onNamedSubEOF (file : Option φ) (hs : s.Fits) : (onNamedSubEOF h file s).Fits := by
  rw [onNamedSubEOF]
  split
  · split
    · exact fits_unwindStack _ hs
    · exact hs
  · exact hs

theorem fits_onNamedSubError (hs : s.Fits) : (onNamedSubError h s).Fits := by
  rw [onNamedSubError]
  split
  · exact fits_stackUnwindSub _ hs
  · exact hs

omit [DecidableEq φ] in
theorem fits_returnValue (text : List Char) (hs : s.Fits) : (returnValue h text s).Fits := by
  rw [returnValue]
  split <;> exact hs

theorem fits_callMacroReturn (hs : s.Fits) : (callMacroReturn h s).Fits := by
  have hfold : ∀ (files : List (Option φ)) (s : Flow σ φ), s.Fits →
      (files.foldl (fun s file => ngcFlowctrlUnwindStack h file s) s).Fits := by
    intro files
    induction files with
    | nil => exact fun _ hs => hs
    | cons file files ih => exact fun s hs => ih _ (fits_unwindStack file hs)
  exact hfold _ _ hs

end

/-! ## Commands -/

section
variable {h : FlowHost σ φ} {s : Flow σ φ} {l : OLine}

theorem fits_skip {o : Outcome σ φ} (hs : s.Fits) (ho : Fits o) : Fits (if s.skipping then s.ok else o) := by
  split
  · exact fits_ok hs
  · exact ho

theorem fits_misplaced (hs : s.Fits) :
    Fits (if s.skipping then s.ok else s.fail .flowControlSyntaxError) := fits_skip hs (fits_fail hs)

theorem fits_onTop {f : Entry φ → Outcome σ φ} (hs : s.Fits) (hne : s.stack ≠ [])
    (hf : ∀ top, Fits (f top)) : Fits (s.withTop fun top => if l.oLabel = top.oLabel then f top else s.ok) := by
  refine fits_withTop hne fun top => ?_
  split
  · exact hf top
  · exact fits_ok hs

theorem fits_cmdIf (hs : s.Fits) : Fits (cmdIf h l s) :=
  fits_skip hs (fits_eval hs fun _ _ _ => fits_push hs fun _ _ hs => fits_ok (fits_setTop _ hs))

theorem fits_cmdElseIf (hs : s.Fits) : Fits (cmdElseIf h l s) := by
  rw [cmdElseIf]
  split
  case isTrue hop =>
    have hne : s.stack ≠ [] := stack_ne_nil_of_lastOp_if (hop.imp_right Or.inl)
    refine fits_onTop hs hne fun top => ?_
    split
    · exact fits_ok (fits_setTop _ hs)
    · refine fits_eval (fits_setTop _ hs) fun value rest world => ?_
      split <;> exact fits_ok (fits_setTop _ (fits_setTop _ hs))
  case isFalse => exact fits_misplaced hs

theorem fits_cmdElse (hs : s.Fits) : Fits (cmdElse l s) := by
  rw [cmdElse]
  split
  case isTrue hop =>
    have hne : s.stack ≠ [] := stack_ne_nil_of_lastOp_if (hop.imp_right Or.inl)
    refine fits_onTop hs hne fun top => ?_
    split <;> exact fits_ok (fits_setTop _ hs)
  case isFalse => exact fits_misplaced hs

theorem fits_cmdEndIf (hs : s.Fits) : Fits (cmdEndIf h l s) := by
  rw [cmdEndIf]
  split
  case isTrue hop =>
    exact fits_onTop hs (stack_ne_nil_of_lastOp_if hop) fun top => fits_ok (fits_stackPull hs)
  case isFalse => exact fits_misplaced hs

theorem fits_cmdDo (hs : s.Fits) : Fits (cmdDo h l s) :=
  fits_withFile hs fun _ => fits_skip hs (fits_push hs fun _ _ hs => fits_ok (fits_setTop _ hs))

theorem fits_pushWhile (file : φ) (value : ℚ) (hs : s.Fits) : Fits (pushWhile h file l value s) := by
  refine fits_push hs fun top s hs => ?_
  split
  · exact fits_ok (fits_setTop _ hs)
  · split
    · exact fits_ok (fits_setTop _ hs)
    · exact fits_fail (fits_setTop _ hs)

theorem fits_cmdWhile (hs : s.Fits) : Fits (cmdWhile h l s) := by
  refine fits_withFile hs fun file => ?_
  split
  · split
    case isTrue hop =>
      exact fits_onTop hs (stack_ne_nil_of_lastOp hop (by decide) (by decide)) fun top =>
        fits_ok (fits_stackPull hs)
    case isFalse => exact fits_ok hs
  · refine fits_skip hs (fits_eval hs fun value rest world => ?_)
    have hs' : Flow.Fits { s with world := world } := hs
    split
    case isTrue hop =>
      refine fits_withTop (stack_ne_nil_of_lastOp hop (by decide) (by decide)) fun top => ?_
      split
      · split
        · exact fits_ok hs'
        · exact fits_ok (fits_stackPull hs')
      · exact fits_pushWhile file value hs'
    case isFalse => exact fits_pushWhile file value hs'

theorem fits_whileAgain (top : Entry φ) (hs : s.Fits) : Fits (whileAgain h top s) := by
  refine fits_eval hs fun value rest world => ?_
  split
  · exact fits_ok (fits_stackPull (fits_setTop _ hs))
  · exact fits_ok (fits_setTop _ hs)

theorem fits_cmdEndWhile (hs : s.Fits) : Fits (cmdEndWhile h l s) := by
  refine fits_withFile hs fun file => ?_
  split
  case isTrue hop =>
    refine fits_onTop hs (stack_ne_nil_of_lastOp hop (by decide) (by decide)) fun top => ?_
    split
    · refine fits_ok ?_
      split
      · exact fits_stackPull hs
      · exact hs
    · exact fits_whileAgain top hs
  case isFalse => exact fits_misplaced hs

theorem fits_cmdRepeat (hs : s.Fits) : Fits (cmdRepeat h l s) := by
  refine fits_withFile hs fun file => fits_skip hs (fits_eval hs fun value rest world => ?_)
  refine fits_push hs fun top s hs => ?_
  split <;> exact fits_ok (fits_setTop _ hs)

theorem fits_cmdEndRepeat (hs : s.Fits) : Fits (cmdEndRepeat h l s) := by
  refine fits_withFile hs fun file => ?_
  split
  case isTrue hop =>
    refine fits_onTop hs (stack_ne_nil_of_lastOp hop (by decide) (by decide)) fun top => ?_
    split
    · exact fits_ok (fits_setTop _ hs)
    · exact fits_ok (fits_stackPull hs)
  case isFalse => exact fits_misplaced hs

theorem fits_cmdRaiseAlarm (hs : s.Fits) : Fits (cmdRaiseAlarm h l s) := by
  refine fits_skip hs ?_
  split <;> exact fits_ok hs

theorem fits_cmdRaiseError (hs : s.Fits) : Fits (cmdRaiseError h l s) := by
  refine fits_skip hs ?_
  split
  · exact ⟨_, rfl, hs⟩
  · exact fits_ok hs

theorem fits_addSub (file : φ) (hs : s.Fits) : (addSub h l file s).2.Fits := by
  rw [addSub]
  split <;> exact hs

end

section
variable [DecidableEq φ] {h : FlowHost σ φ} {s : Flow σ φ} {l : OLine}

theorem fits_cmdSub (hs : s.Fits) : Fits (cmdSub h l s) := by
  refine fits_withFile hs fun file => ?_
  split
  · dsimp only
    split
    · split
      · exact fits_fail hs
      · exact fits_ok hs
    · exact fits_fail hs
  · have hadd := fits_addSub (h := h) (l := l) file hs
    split
    case h_1 sub s' heq =>
      rw [heq] at hadd
      exact fits_ok hadd
    case h_2 s' heq =>
      rw [heq] at hadd
      exact fits_fail hadd

theorem fits_cmdEndSub (hs : s.Fits) : Fits (cmdEndSub h l s) := by
  refine fits_withFile hs fun file => fits_ok ?_
  show Flow.Fits (if s.skipSub = true then s else returnValue h l.text (stackUnwindSub h l.oLabel s))
  split
  · exact hs
  · exact fits_returnValue _ (fits_stackUnwindSub _ hs)

omit [DecidableEq φ] in
theorem fits_openSub (name : List Char) (hs : s.Fits) : (openSub h l name s).2.Fits := by
  rw [openSub]
  split
  · exact hs
  split
  · exact hs
  · rename_i file world _
    have hadd := fits_addSub (h := h) (l := l) (s := { s with world := world }) file hs
    split
    case h_1 sub s' heq =>
      rw [heq] at hadd
      exact hadd
    case h_2 s' heq =>
      rw [heq] at hadd
      exact hadd

omit [DecidableEq φ] in
theorem fits_enterSub (sub : Sub φ) (hs : s.Fits) : Fits (enterSub h l sub s) := by
  rw [enterSub]
  obtain ⟨status, args, world⟩ := readArgs h 30 l.text s.world
  cases status with
  | some e => exact fits_fail hs
  | none =>
      refine fits_push hs fun top s hs => ?_
      dsimp only
      split
      · exact fits_ok (fits_setTop _ hs)
      · exact fits_fail (fits_setTop _ hs)

theorem fits_cmdCall (hs : s.Fits) : Fits (cmdCall h l s) := by
  rw [cmdCall]
  split
  · exact fits_fail hs
  refine fits_skip hs ?_
  split
  · split
    · exact fits_fail hs
    · rename_i name _
      have hopen := fits_openSub (h := h) (l := l) name hs
      split
      case h_1 sub s' heq =>
        rw [heq] at hopen
        exact fits_enterSub sub hopen
      case h_2 e s' heq =>
        rw [heq] at hopen
        exact fits_fail hopen
  · split
    · exact fits_enterSub _ hs
    · exact fits_fail hs

end

/-! ## `BREAK`, `CONTINUE` and `RETURN` -/

section
variable {h : FlowHost σ φ} {s : Flow σ φ} {l : OLine}

/-- What is done with a label looks for it on the stack. -/
def Flow.HasLabel (s : Flow σ φ) (oLabel : ℕ) : Prop := ∃ e ∈ s.stack, e.oLabel = oLabel

instance (s : Flow σ φ) (oLabel : ℕ) : Decidable (s.HasLabel oLabel) :=
  inferInstanceAs (Decidable (∃ e ∈ s.stack, e.oLabel = oLabel))

theorem fits_withFile_skip {f : φ → Outcome σ φ} {P : Prop} (hs : s.Fits)
    (hf : ∀ file, FitsWhen P (f file)) :
    FitsWhen ((h.streamFile s.world).isSome → s.skipping = false → P)
      (s.withFile h fun file => if s.skipping then s.ok else f file) := by
  rw [Flow.withFile]
  cases h.streamFile s.world with
  | none => exact ⟨fun _ => fits_fail hs, fun hno => absurd (fun hfile => nomatch hfile) hno⟩
  | some file =>
      cases hskip : s.skipping with
      | true => exact ⟨fun _ => fits_ok hs, fun hno => absurd (fun _ hfalse => nomatch hfalse) hno⟩
      | false =>
          exact ⟨fun hP => (hf file).fits (hP rfl rfl), fun hno => (hf file).out fun hP => hno fun _ _ => hP⟩

theorem fits_cmdBreak (hs : s.Fits) :
    FitsWhen ((h.streamFile s.world).isSome → s.skipping = false → s.HasLabel l.oLabel) (cmdBreak h l s) := by
  refine fits_withFile_skip hs fun file => fits_popTo hs fun top s hs => ?_
  split
  · exact fits_ok (fits_setTop _ hs)
  · exact fits_fail hs

theorem fits_cmdContinue (hs : s.Fits) :
    FitsWhen ((h.streamFile s.world).isSome → s.skipping = false → s.HasLabel l.oLabel)
      (cmdContinue h l s) := by
  refine fits_withFile_skip hs fun file => fits_popTo hs fun top s hs => ?_
  split
  · split <;> exact fits_ok (fits_setTop _ hs)
  · exact fits_ok hs
  · split
    · exact fits_ok (fits_stackPull hs)
    · exact fits_whileAgain top hs
  · exact fits_fail hs

end

section
variable [DecidableEq φ] {h : FlowHost σ φ} {s : Flow σ φ} {l : OLine}

theorem fits_cmdReturn (hs : s.Fits) :
    FitsWhen ((h.streamFile s.world).isSome → s.skipping = false →
      s.execSub = none ∧ h.onMacroReturn s.world = true → s.stack ≠ []) (cmdReturn h l s) := by
  refine fits_withFile_skip hs fun file => ?_
  cases hsub : s.execSub with
  | some sub =>
      exact ⟨fun _ => fits_ok (fits_returnValue _ (fits_stackUnwindSub _ hs)),
        fun hno => absurd (fun hnone => nomatch hnone.1) hno⟩
  | none =>
      rw [if_neg (not_not.2 rfl)]
      split
      case isTrue hmacro =>
        refine ⟨fun hne => fits_withTop (hne ⟨rfl, hmacro⟩) fun top => fits_ok (fits_callMacroReturn
          (fits_returnValue _ (fits_unwindStack _ hs))), fun hno => ?_⟩
        have hst : s.stack = [] := not_not.1 fun hne => hno fun _ => hne
        rw [Flow.withTop, hst]
      case isFalse hmacro =>
        exact ⟨fun _ => fits_ok (fits_returnValue _ hs), fun hno => absurd (fun h => absurd h.2 hmacro) hno⟩

/-! ## Lines -/

/-- A call of `ngc_flowctrl` finds what it looks for on the stack. -/
def LabelOnStack (h : FlowHost σ φ) (s : Flow σ φ) (l : OLine) : Prop :=
  match readKeyword flowCmds l.text with
  | some (.break, _) | some (.continue, _) =>
      (h.streamFile s.world).isSome → s.skipping = false → s.HasLabel l.oLabel
  | some (.return, _) =>
      (h.streamFile s.world).isSome → s.skipping = false →
        s.execSub = none ∧ h.onMacroReturn s.world = true → s.stack ≠ []
  | _ => True

theorem command_fits {operation : FlowCmd} {text : List Char} (hs : s.Fits)
    (hread : readKeyword flowCmds l.text = some (operation, text)) :
    FitsWhen (LabelOnStack h s l) (command h operation { l with text := text } s) := by
  have hany : ∀ {o : Outcome σ φ}, Fits o → FitsWhen True o := fun ho =>
    ⟨fun _ => ho, fun hno => absurd trivial hno⟩
  rw [LabelOnStack, hread]
  cases operation with
  | «break» => exact fits_cmdBreak hs
  | «continue» => exact fits_cmdContinue hs
  | «return» => exact fits_cmdReturn hs
  | noOp => exact hany (fits_fail hs)
  | «if» => exact hany (fits_cmdIf hs)
  | elseIf => exact hany (fits_cmdElseIf hs)
  | «else» => exact hany (fits_cmdElse hs)
  | endIf => exact hany (fits_cmdEndIf hs)
  | «do» => exact hany (fits_cmdDo hs)
  | «while» => exact hany (fits_cmdWhile hs)
  | endWhile => exact hany (fits_cmdEndWhile hs)
  | «repeat» => exact hany (fits_cmdRepeat hs)
  | endRepeat => exact hany (fits_cmdEndRepeat hs)
  | raiseAlarm => exact hany (fits_cmdRaiseAlarm hs)
  | raiseError => exact hany (fits_cmdRaiseError hs)
  | sub => exact hany (fits_cmdSub hs)
  | endSub => exact hany (fits_cmdEndSub hs)
  | call => exact hany (fits_cmdCall hs)

/-- A line that looks for what is not there reads `stack[-1]`. -/
theorem ngcFlowctrl_eq_none (hs : s.Fits) : ngcFlowctrl h l s = none ↔ ¬LabelOnStack h s l := by
  rw [ngcFlowctrl]
  cases hread : readKeyword flowCmds l.text with
  | none => simp [LabelOnStack, hread]
  | some p =>
      have hcommand := command_fits (h := h) hs hread
      simp only [Option.map_eq_none_iff]
      refine ⟨fun hnone hP => ?_, hcommand.out⟩
      obtain ⟨r, hr, -⟩ := hcommand.fits hP
      rw [hnone] at hr
      cases hr

theorem ngcFlowctrl_fits {r : Reply × Flow σ φ} (hs : s.Fits) (hr : ngcFlowctrl h l s = some r) :
    r.2.Fits := by
  have hP : LabelOnStack h s l := not_not.1 fun hno => by
    rw [(ngcFlowctrl_eq_none hs).2 hno] at hr
    cases hr
  rw [ngcFlowctrl] at hr
  cases hread : readKeyword flowCmds l.text with
  | none =>
      rw [hread] at hr
      cases hr
      exact hs
  | some p =>
      obtain ⟨⟨status, s'⟩, hcommand, hfits⟩ := (command_fits (h := h) hs hread).fits hP
      rw [hread] at hr
      simp only [hcommand, Option.map_some, Option.some.injEq] at hr
      cases status with
      | none =>
          cases hr
          exact hfits
      | some e =>
          cases hr
          exact fits_init hfits

/-! ## Runs -/

/-- The calls of the module's functions, and what happens outside between them. -/
inductive FlowCall (σ φ : Type)
  | line (l : OLine)
  | init
  | unwindStack (file : Option φ)
  | namedSubEOF (file : Option φ)
  | namedSubError
  | outside (f : σ → σ)

/-- `none` when an element below the stack has been read. -/
def flowStep (h : FlowHost σ φ) (s : Flow σ φ) : FlowCall σ φ → Option (Flow σ φ)
  | .line l => (ngcFlowctrl h l s).map (·.2)
  | .init => some (ngcFlowctrlInit h s)
  | .unwindStack file => some (ngcFlowctrlUnwindStack h file s)
  | .namedSubEOF file => some (onNamedSubEOF h file s)
  | .namedSubError => some (onNamedSubError h s)
  | .outside f => some { s with world := f s.world }

def Finds (h : FlowHost σ φ) (s : Flow σ φ) : FlowCall σ φ → Prop
  | .line l => LabelOnStack h s l
  | _ => True

theorem flowStep_eq_none {a : FlowCall σ φ} (hs : s.Fits) : flowStep h s a = none ↔ ¬Finds h s a := by
  cases a with
  | line l => simpa [flowStep, Finds] using ngcFlowctrl_eq_none hs
  | _ => simp [flowStep, Finds]

theorem flowStep_fits {a : FlowCall σ φ} {s' : Flow σ φ} (hs : s.Fits) (hstep : flowStep h s a = some s') :
    s'.Fits := by
  cases a with
  | line l =>
      obtain ⟨r, hr, rfl⟩ := Option.map_eq_some_iff.1 hstep
      exact ngcFlowctrl_fits hs hr
  | init =>
      cases hstep
      exact fits_init hs
  | unwindStack file =>
      cases hstep
      exact fits_unwindStack file hs
  | namedSubEOF file =>
      cases hstep
      exact fits_onNamedSubEOF file hs
  | namedSubError =>
      cases hstep
      exact fits_onNamedSubError hs
  | outside f =>
      cases hstep
      exact hs

theorem run_fits (hs : s.Fits) (as : List (FlowCall σ φ)) :
    (∃ s', Lib.run (flowStep h) s as = some s' ∧ s'.Fits) ↔ Lib.Along (flowStep h) (Finds h) s as := by
  induction as generalizing s with
  | nil => exact ⟨fun _ => trivial, fun _ => ⟨s, rfl, hs⟩⟩
  | cons a as ih =>
      cases hstep : flowStep h s a with
      | none =>
          rw [Lib.along_cons_of_none hstep, Lib.run_cons, hstep]
          simpa using (flowStep_eq_none hs).1 hstep
      | some t =>
          have hfind : Finds h s a := not_not.1 fun hno => by
            rw [(flowStep_eq_none hs).2 hno] at hstep
            cases hstep
          rw [Lib.along_cons_of_some hstep, Lib.run_cons, hstep, Option.bind_some,
            ih (flowStep_fits hs hstep)]
          simp [hfind]

/-- No element outside `stack[0]` to `stack[NGC_STACK_DEPTH - 1]` is read or written, and the stack stays in the
array, exactly as long as every call finds what it looks for. -/
theorem stack_safe_iff (h : FlowHost σ φ) (world : σ) (as : List (FlowCall σ φ)) :
    (∃ s, Lib.run (flowStep h) { world := world } as = some s ∧ s.stack.length ≤ ngcStackDepth) ↔
      Lib.Along (flowStep h) (Finds h) { world := world } as := run_fits (Nat.zero_le _) as

end

/-- A host in a macro file with memory to spare: every expression is 1, and `grbl.on_macro_return` counts its
calls. -/
def macroHost (file : φ) : FlowHost ℕ φ where
  streamFile _ := some file
  vfsTell _ _ := 0
  streamReposition _ _ _ world := world
  streamRedirectRead _ world := (none, world)
  streamRedirectClose _ world := world
  malloc world := (some 0, world)
  eval _ world := (.ok (1, []), world)
  paramGet _ _ := 0
  paramSet _ _ world := (true, world)
  namedParamSet _ _ world := world
  stringParamGet _ _ := none
  stringParamDelete _ world := world
  callPush _ world := (true, world)
  callPop world := world
  raiseAlarm _ world := world
  toStatus _ := none
  onMacroReturn _ := true
  macroReturn world := ([], world + 1)
  uninit _ := 0

def oLine (oLabel : ℕ) (text : String) : OLine := ⟨oLabel, 0, text.toList⟩

/-- `BREAK` without a loop, `CONTINUE` of a label that is not on the stack, `RETURN` out of a macro with nothing on
the stack. -/
theorem stack_read_below_zero :
    Lib.run (flowStep (macroHost ())) { world := 0 } [.line (oLine 1 "BREAK")] = none ∧
      Lib.run (flowStep (macroHost ())) { world := 0 } [.line (oLine 1 "DO"), .line (oLine 2 "CONTINUE")] = none ∧
      Lib.run (flowStep (macroHost ())) { world := 0 } [.line (oLine 1 "RETURN")] = none := by
  refine ⟨?_, ?_, ?_⟩ <;> rfl

end Grbl.Ngc
