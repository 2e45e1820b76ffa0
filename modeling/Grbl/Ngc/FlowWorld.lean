import Grbl.Ngc.Flowctrl

/-!
# What flow control does outside

* `FlowHost.Respects` : a relation between worlds that every function the module calls respects;
* `command_respects`, `ngcFlowctrl_respects` : a line respects it.
-/

namespace Grbl.Ngc

variable {σ φ : Type}

/-- What the functions the module calls do to the world is in the relation. -/
structure FlowHost.Respects (h : FlowHost σ φ) (R : σ → σ → Prop) : Prop where
  refl : ∀ w, R w w
  trans : ∀ {u v w}, R u v → R v w → R u w
  streamReposition : ∀ file pos line w, R w (h.streamReposition file pos line w)
  streamRedirectRead : ∀ name w, R w (h.streamRedirectRead name w).2
  streamRedirectClose : ∀ file w, R w (h.streamRedirectClose file w)
  malloc : ∀ w, R w (h.malloc w).2
  eval : ∀ text w, R w (h.eval text w).2
  paramSet : ∀ id value w, R w (h.paramSet id value w).2
  namedParamSet : ∀ name value w, R w (h.namedParamSet name value w)
  stringParamDelete : ∀ id w, R w (h.stringParamDelete id w)
  callPush : ∀ level w, R w (h.callPush level w).2
  callPop : ∀ w, R w (h.callPop w)
  raiseAlarm : ∀ value w, R w (h.raiseAlarm value w)
  macroReturn : ∀ w, R w (h.macroReturn w).2

/-- The world a command leaves is related to the one it has been given. -/
def Follows (R : σ → σ → Prop) (world : σ) (o : Outcome σ φ) : Prop := ∀ r, o = some r → R world r.2.world

section
variable {h : FlowHost σ φ} {R : σ → σ → Prop} (hR : h.Respects R) {s : Flow σ φ} {world : σ}

theorem follows_ok (hw : R world s.world) : Follows R world s.ok := by
  rintro _ ⟨rfl⟩
  exact hw

theorem follows_fail {e : Status} (hw : R world s.world) : Follows R world (s.fail e) := by
  rintro _ ⟨rfl⟩
  exact hw

theorem follows_withTop {f : Entry φ → Outcome σ φ} (hf : ∀ top, Follows R world (f top)) :
    Follows R world (s.withTop f) := by
  rw [Flow.withTop]
  split
  · exact hf _
  · intro r hr
    cases hr

theorem follows_withFile {f : φ → Outcome σ φ} (hw : R world s.world) (hf : ∀ file, Follows R world (f file)) :
    Follows R world (s.withFile h f) := by
  rw [Flow.withFile]
  split
  · exact hf _
  · exact follows_fail hw

theorem follows_skip {o : Outcome σ φ} (hw : R world s.world) (ho : Follows R world o) :
    Follows R world (if s.skipping then s.ok else o) := by
  split
  · exact follows_ok hw
  · exact ho

theorem follows_onTop {l : OLine} {f : Entry φ → Outcome σ φ} (hw : R world s.world)
    (hf : ∀ top, Follows R world (f top)) :
    Follows R world (s.withTop fun top => if l.oLabel = top.oLabel then f top else s.ok) := by
  refine follows_withTop fun top => ?_
  split
  · exact hf top
  · exact follows_ok hw

include hR

theorem respects_eval {text : List Char} {result : Except Status (ℚ × List Char) × σ} (hw : R world s.world)
    (heq : h.eval text s.world = result) : R world result.2 := heq ▸ hR.trans hw (hR.eval text s.world)

theorem follows_eval {text : List Char} {f : ℚ → List Char → Flow σ φ → Outcome σ φ} (hw : R world s.world)
    (hf : ∀ value rest w, R world w → Follows R world (f value rest { s with world := w })) :
    Follows R world (s.eval h text f) := by
  rw [Flow.eval]
  split
  case h_1 value rest w heq => exact hf _ _ _ (respects_eval hR hw heq)
  case h_2 e w heq => exact follows_fail (respects_eval hR hw heq)

theorem respects_pushContext (operation : FlowCmd) (hw : R world s.world) :
    R world (pushContext h operation s).2 := by
  rw [pushContext]
  split
  · exact hR.trans hw (hR.callPush _ _)
  · exact hw

theorem respects_stackPush (l : OLine) (operation : FlowCmd) (hw : R world s.world) :
    R world (stackPush h l operation s).2.world := by
  have hcontext := respects_pushContext hR operation hw
  rw [stackPush]
  split
  · generalize pushContext h operation s = p at hcontext
    obtain ⟨pushed, w⟩ := p
    cases pushed <;> exact hcontext
  · exact hw

theorem follows_push {l : OLine} {operation : FlowCmd} {f : Entry φ → Flow σ φ → Outcome σ φ}
    (hw : R world s.world) (hf : ∀ top s, R world s.world → Follows R world (f top s)) :
    Follows R world (s.push h l operation f) := by
  have hpush := respects_stackPush hR l operation hw
  rw [Flow.push]
  split
  case h_1 s' heq =>
    rw [heq] at hpush
    exact follows_withTop fun top => hf top s' hpush
  case h_2 e s' heq =>
    rw [heq] at hpush
    exact follows_fail hpush

theorem respects_pulled (e : Entry φ) (w : σ) : R w (pulled h e w) := by
  rw [pulled]
  split
  · exact hR.callPop w
  · exact hR.refl w

theorem respects_stackPull (hw : R world s.world) : R world (stackPull h s).world := by
  rw [stackPull]
  split
  · exact hR.trans hw (respects_pulled hR _ _)
  · exact hw

theorem respects_pullWhile (p : Entry φ → Bool) (stack : List (Entry φ)) (w : σ) :
    R w (pullWhile h p stack w).2 := by
  induction stack generalizing w with
  | nil => exact hR.refl w
  | cons e rest ih =>
      rw [pullWhile]
      split
      · exact hR.trans (respects_pulled hR e w) (ih _)
      · exact hR.refl w

theorem respects_popTo {oLabel : ℕ} {stack stack' : List (Entry φ)} {w w' : σ}
    (hp : popTo h oLabel stack w = some (stack', w')) : R w w' := by
  induction stack generalizing w with
  | nil => cases hp
  | cons e rest ih =>
      rw [popTo] at hp
      split at hp
      · exact hR.trans (respects_pulled hR e w) (ih hp)
      · cases hp
        exact hR.refl _

theorem follows_popTo {oLabel : ℕ} {f : Entry φ → Flow σ φ → Outcome σ φ} (hw : R world s.world)
    (hf : ∀ top s, R world s.world → Follows R world (f top s)) : Follows R world (s.popTo h oLabel f) := by
  rw [Flow.popTo]
  split
  case h_1 stack w heq =>
    exact follows_withTop fun top => hf top _ (hR.trans hw (respects_popTo hR heq))
  case h_2 =>
    intro r hr
    cases hr

theorem respects_reposition (top : Entry φ) (hw : R world s.world) : R world (s.reposition h top).world :=
  hR.trans hw (hR.streamReposition _ _ _ _)

theorem respects_addSub (l : OLine) (file : φ) (hw : R world s.world) : R world (addSub h l file s).2.world := by
  have hmalloc := hR.trans hw (hR.malloc s.world)
  rw [addSub]
  split
  case h_1 heq =>
    rw [heq] at hmalloc
    exact hmalloc
  case h_2 heq =>
    rw [heq] at hmalloc
    exact hmalloc

theorem respects_returnValue (text : List Char) (hw : R world s.world) :
    R world (returnValue h text s).world := by
  rw [returnValue]
  split
  case h_1 value rest w heq =>
    exact hR.trans (hR.trans (respects_eval hR hw heq) (hR.namedParamSet _ _ _)) (hR.namedParamSet _ _ _)
  case h_2 e w heq => exact hR.trans (respects_eval hR hw heq) (hR.namedParamSet _ _ _)

theorem respects_readArgs (n : ℕ) (text : List Char) (w : σ) : R w (readArgs h n text w).2.2 := by
  fun_induction readArgs h n text w with
  | case1 => exact hR.refl _
  | case2 => exact hR.refl _
  | case3 _ text w _ e w' heq => exact respects_eval (s := { world := w }) hR (hR.refl w) heq
  | case4 _ text w _ value rest w' heq status values w'' hrest ih =>
      rw [hrest] at ih
      exact hR.trans (respects_eval (s := { world := w }) hR (hR.refl w) heq) ih

theorem respects_setParams (id : ℕ) (values : List ℚ) (w : σ) : R w (setParams h id values w).2 := by
  induction values generalizing id w with
  | nil => exact hR.refl w
  | cons value values ih =>
      rw [setParams]
      dsimp only
      split
      · exact hR.trans (hR.paramSet _ _ _) (ih _ _)
      · exact ih _ _

/-! ## Commands -/

variable {l : OLine}

theorem follows_cmdIf (hw : R world s.world) : Follows R world (cmdIf h l s) :=
  follows_skip hw (follows_eval hR hw fun _ _ _ hw => follows_push hR hw fun _ _ hw => follows_ok hw)

theorem follows_cmdElseIf (hw : R world s.world) : Follows R world (cmdElseIf h l s) := by
  rw [cmdElseIf]
  split
  · refine follows_onTop hw fun top => ?_
    split
    · exact follows_ok hw
    · have hw' : R world (s.setTop { top with skip := false }).world := hw
      refine follows_eval hR hw' fun value rest w hw => ?_
      split <;> exact follows_ok hw
  · exact follows_skip hw (follows_fail hw)

theorem follows_cmdEndIf (hw : R world s.world) : Follows R world (cmdEndIf h l s) := by
  rw [cmdEndIf]
  split
  · exact follows_onTop hw fun top => follows_ok (respects_stackPull hR hw)
  · exact follows_skip hw (follows_fail hw)

theorem follows_cmdDo (hw : R world s.world) : Follows R world (cmdDo h l s) :=
  follows_withFile hw fun _ => follows_skip hw (follows_push hR hw fun _ _ hw => follows_ok hw)

theorem follows_pushWhile (file : φ) (value : ℚ) (hw : R world s.world) :
    Follows R world (pushWhile h file l value s) := by
  refine follows_push hR hw fun top s hw => ?_
  have hmalloc := hR.trans hw (hR.malloc s.world)
  split
  · exact follows_ok hw
  · split
    case h_1 address w heq =>
      rw [heq] at hmalloc
      exact follows_ok hmalloc
    case h_2 w heq =>
      rw [heq] at hmalloc
      exact follows_fail hmalloc

theorem follows_cmdWhile (hw : R world s.world) : Follows R world (cmdWhile h l s) := by
  refine follows_withFile hw fun file => ?_
  split
  · split
    · exact follows_onTop hw fun top => follows_ok (respects_stackPull hR hw)
    · exact follows_ok hw
  · refine follows_skip hw (follows_eval hR hw fun value rest w hw => ?_)
    split
    · refine follows_withTop fun top => ?_
      split
      · split
        · exact follows_ok (respects_reposition hR top hw)
        · exact follows_ok (respects_stackPull hR hw)
      · exact follows_pushWhile hR file value hw
    · exact follows_pushWhile hR file value hw

theorem follows_whileAgain (top : Entry φ) (hw : R world s.world) : Follows R world (whileAgain h top s) := by
  refine follows_eval hR hw fun value rest w hw => ?_
  split
  · exact follows_ok (respects_stackPull hR hw)
  · exact follows_ok (respects_reposition hR top hw)

theorem follows_cmdEndWhile (hw : R world s.world) : Follows R world (cmdEndWhile h l s) := by
  refine follows_withFile hw fun file => ?_
  split
  · refine follows_onTop hw fun top => ?_
    split
    · refine follows_ok ?_
      split
      · exact respects_stackPull hR hw
      · exact hw
    · exact follows_whileAgain hR top hw
  · exact follows_skip hw (follows_fail hw)

theorem follows_cmdRepeat (hw : R world s.world) : Follows R world (cmdRepeat h l s) := by
  refine follows_withFile hw fun file => follows_skip hw (follows_eval hR hw fun value rest w hw => ?_)
  refine follows_push hR hw fun top s hw => ?_
  split <;> exact follows_ok hw

theorem follows_cmdEndRepeat (hw : R world s.world) : Follows R world (cmdEndRepeat h l s) := by
  refine follows_withFile hw fun file => ?_
  split
  · refine follows_onTop hw fun top => ?_
    split
    · exact follows_ok (respects_reposition hR top hw)
    · exact follows_ok (respects_stackPull hR hw)
  · exact follows_skip hw (follows_fail hw)

theorem follows_cmdBreak (hw : R world s.world) : Follows R world (cmdBreak h l s) := by
  refine follows_withFile hw fun file => follows_skip hw (follows_popTo hR hw fun top s hw => ?_)
  split
  · exact follows_ok hw
  · exact follows_fail hw

theorem follows_cmdContinue (hw : R world s.world) : Follows R world (cmdContinue h l s) := by
  refine follows_withFile hw fun file => follows_skip hw (follows_popTo hR hw fun top s hw => ?_)
  split
  · split
    · exact follows_ok (respects_reposition hR top hw)
    · exact follows_ok hw
  · exact follows_ok (respects_reposition hR top hw)
  · split
    · exact follows_ok (respects_stackPull hR hw)
    · exact follows_whileAgain hR top hw
  · exact follows_fail hw

theorem follows_cmdRaiseAlarm (hw : R world s.world) : Follows R world (cmdRaiseAlarm h l s) := by
  refine follows_skip hw ?_
  split
  case h_1 value rest w heq => exact follows_ok (hR.trans (respects_eval hR hw heq) (hR.raiseAlarm _ _))
  case h_2 e w heq => exact follows_ok (respects_eval hR hw heq)

theorem follows_cmdRaiseError (hw : R world s.world) : Follows R world (cmdRaiseError h l s) := by
  refine follows_skip hw ?_
  split
  case h_1 value rest w heq =>
    rintro _ ⟨rfl⟩
    exact respects_eval hR hw heq
  case h_2 e w heq => exact follows_ok (respects_eval hR hw heq)

theorem respects_nameMemory (name : List Char) (w : σ) : R w (nameMemory h name w).2 := by
  rw [nameMemory]
  split
  · exact hR.malloc w
  · exact hR.refl w

theorem respects_openMacro (name : List Char) (w : σ) : R w (openMacro h name w).2 := by
  have hfirst := hR.streamRedirectRead ("/littlefs/".toList ++ name ++ ".macro".toList) w
  rw [openMacro]
  split
  case h_1 file w' heq =>
    rw [heq] at hfirst
    exact hfirst
  case h_2 w' heq =>
    rw [heq] at hfirst
    exact hR.trans hfirst (hR.streamRedirectRead _ _)

theorem respects_openSub (name : List Char) (hw : R world s.world) : R world (openSub h l name s).2.world := by
  have hmemory := hR.trans hw (respects_nameMemory hR name s.world)
  rw [openSub]
  split
  case h_1 w heq =>
    rw [heq] at hmemory
    exact hmemory
  case h_2 w heq =>
    rw [heq] at hmemory
    have hopen := hR.trans hmemory (respects_openMacro hR name w)
    split
    case h_1 w' heq =>
      rw [heq] at hopen
      exact hopen
    case h_2 file w' heq =>
      rw [heq] at hopen
      have hadd := respects_addSub (s := { s with world := w' }) hR l file hopen
      split
      case h_1 sub s' heq =>
        rw [heq] at hadd
        exact hadd
      case h_2 s' heq =>
        rw [heq] at hadd
        exact hadd

theorem follows_enterSub (sub : Sub φ) (hw : R world s.world) : Follows R world (enterSub h l sub s) := by
  have hargs := hR.trans hw (respects_readArgs hR 30 l.text s.world)
  rw [enterSub]
  generalize readArgs h 30 l.text s.world = r at hargs
  obtain ⟨status, args, w⟩ := r
  cases status with
  | some e => exact follows_fail hargs
  | none =>
      refine follows_push hR hargs fun top s hw => ?_
      have hparams := hR.trans hw (respects_setParams hR 1 (callParams h args w) s.world)
      dsimp only
      split
      · exact follows_ok (hR.trans (hR.trans (hR.trans hparams (hR.namedParamSet _ _ _))
          (hR.namedParamSet _ _ _)) (hR.streamReposition _ _ _ _))
      · exact follows_fail hparams

end

section
variable [DecidableEq φ] {h : FlowHost σ φ} {R : σ → σ → Prop} (hR : h.Respects R) {s : Flow σ φ} {world : σ}
  {l : OLine}

omit [DecidableEq φ] in
theorem follows_cmdElse (hw : R world s.world) : Follows R world (cmdElse l s) := by
  rw [cmdElse]
  split
  · refine follows_onTop hw fun top => ?_
    split <;> exact follows_ok hw
  · exact follows_skip hw (follows_fail hw)

include hR

theorem respects_unwindStack (file : Option φ) (hw : R world s.world) :
    R world (ngcFlowctrlUnwindStack h file s).world := hR.trans hw (respects_pullWhile hR _ _ _)

theorem respects_init (hw : R world s.world) : R world (ngcFlowctrlInit h s).world :=
  hR.trans hw (respects_pullWhile hR _ _ _)

theorem respects_stackUnwindSub (oLabel : ℕ) (hw : R world s.world) :
    R world (stackUnwindSub h oLabel s).world := by
  have hpull : R world (s.pullWhile h fun e => decide (e.oLabel ≠ oLabel)).world :=
    hR.trans hw (respects_pullWhile hR _ _ _)
  unfold stackUnwindSub
  dsimp only
  split
  case h_1 => exact hpull
  case h_2 top below heq =>
    apply respects_stackPull hR
    split
    · split
      · exact hR.trans (hR.trans hpull (hR.stringParamDelete _ _)) (hR.streamRedirectClose _ _)
      · exact hR.trans hpull (hR.streamRedirectClose _ _)
    · exact respects_reposition hR top hpull

theorem follows_cmdSub (hw : R world s.world) : Follows R world (cmdSub h l s) := by
  refine follows_withFile hw fun file => ?_
  split
  · dsimp only
    split
    · split
      · exact follows_fail hw
      · exact follows_ok hw
    · exact follows_fail hw
  · have hadd := respects_addSub hR l file hw
    split
    case h_1 sub s' heq =>
      rw [heq] at hadd
      exact follows_ok hadd
    case h_2 s' heq =>
      rw [heq] at hadd
      exact follows_fail hadd

theorem follows_cmdEndSub (hw : R world s.world) : Follows R world (cmdEndSub h l s) := by
  refine follows_withFile hw fun file => follows_ok ?_
  dsimp only
  split
  · exact hw
  · exact respects_returnValue hR _ (respects_stackUnwindSub hR _ hw)

theorem follows_cmdCall (hw : R world s.world) : Follows R world (cmdCall h l s) := by
  rw [cmdCall]
  split
  · exact follows_fail hw
  refine follows_skip hw ?_
  split
  · split
    · exact follows_fail hw
    · rename_i name _
      have hopen := respects_openSub (l := l) hR name hw
      split
      case h_1 sub s' heq =>
        rw [heq] at hopen
        exact follows_enterSub hR sub hopen
      case h_2 e s' heq =>
        rw [heq] at hopen
        exact follows_fail hopen
  · split
    · exact follows_enterSub hR _ hw
    · exact follows_fail hw

theorem respects_callMacroReturn (hw : R world s.world) : R world (callMacroReturn h s).world := by
  have hfold : ∀ (files : List (Option φ)) (s : Flow σ φ), R world s.world →
      R world (files.foldl (fun s file => ngcFlowctrlUnwindStack h file s) s).world := by
    intro files
    induction files with
    | nil => exact fun _ hw => hw
    | cons file files ih => exact fun s hw => ih _ (respects_unwindStack hR file hw)
  exact hfold _ _ (hR.trans hw (hR.macroReturn _))

theorem follows_cmdReturn (hw : R world s.world) : Follows R world (cmdReturn h l s) := by
  refine follows_withFile hw fun file => follows_skip hw ?_
  split
  · exact follows_ok (respects_returnValue hR _ (respects_stackUnwindSub hR _ hw))
  · split
    · exact follows_withTop fun top => follows_ok (respects_callMacroReturn hR
        (respects_returnValue hR _ (respects_unwindStack hR _ hw)))
    · exact follows_ok (respects_returnValue hR _ hw)

theorem command_respects (operation : FlowCmd) (hw : R world s.world) :
    Follows R world (command h operation l s) := by
  cases operation with
  | «if» => exact follows_cmdIf hR hw
  | elseIf => exact follows_cmdElseIf hR hw
  | «else» => exact follows_cmdElse hw
  | endIf => exact follows_cmdEndIf hR hw
  | «do» => exact follows_cmdDo hR hw
  | «while» => exact follows_cmdWhile hR hw
  | endWhile => exact follows_cmdEndWhile hR hw
  | «repeat» => exact follows_cmdRepeat hR hw
  | endRepeat => exact follows_cmdEndRepeat hR hw
  | «break» => exact follows_cmdBreak hR hw
  | «continue» => exact follows_cmdContinue hR hw
  | raiseAlarm => exact follows_cmdRaiseAlarm hR hw
  | raiseError => exact follows_cmdRaiseError hR hw
  | sub => exact follows_cmdSub hR hw
  | endSub => exact follows_cmdEndSub hR hw
  | call => exact follows_cmdCall hR hw
  | «return» => exact follows_cmdReturn hR hw
  | noOp => exact follows_fail hw

theorem ngcFlowctrl_respects {r : Reply × Flow σ φ} (hr : ngcFlowctrl h l s = some r) :
    R s.world r.2.world := by
  rw [ngcFlowctrl] at hr
  split at hr
  case h_1 =>
    cases hr
    exact hR.refl _
  case h_2 operation text hread =>
    obtain ⟨⟨status, s'⟩, hcommand, rfl⟩ := Option.map_eq_some_iff.1 hr
    have hw := command_respects hR operation (hR.refl s.world) _ hcommand
    cases status with
    | none => exact hw
    | some e => exact respects_init hR hw

end

end Grbl.Ngc
