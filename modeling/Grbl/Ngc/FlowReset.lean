import Grbl.Ngc.FlowStack

/-!
# `ngc_flowctrl_init`

* `init_eq` : what it leaves of the module's variables;
* `observe` : what the rest of the firmware sees of a sequence of calls;
* `behaves_fresh_iff` : what is seen after `ngc_flowctrl_init` is what is seen of a module that has just been
  started exactly when no sub was being skipped and none was executing.
-/

namespace Grbl.Ngc

variable {σ φ : Type} [DecidableEq φ]

omit [DecidableEq φ] in
theorem pullWhile_true (h : FlowHost σ φ) (stack : List (Entry φ)) (world : σ) :
    (pullWhile h (fun _ => true) stack world).1 = [] := by
  induction stack generalizing world with
  | nil => rfl
  | cons e rest ih => simpa [pullWhile] using ih _

/-- The stack and the list of subs are empty; `skip_sub` and `exec_sub` stay as they were. -/
theorem init_eq (h : FlowHost σ φ) (s : Flow σ φ) :
    ngcFlowctrlInit h s =
      { skipSub := s.skipSub, execSub := s.execSub, world := (ngcFlowctrlInit h s).world } := by
  have hstack : (ngcFlowctrlInit h s).stack = [] := pullWhile_true h _ _
  have hsubs : (ngcFlowctrlInit h s).subs = [] := by simp [ngcFlowctrlInit, Flow.pullWhile, clearSubs]
  rw [← hstack, ← hsubs]
  rfl

/-- What a call returns, if it is a line, and what has happened outside after it; the end, `none`, is an access out
of the stack. -/
def observe (h : FlowHost σ φ) : List (FlowCall σ φ) → Flow σ φ → List (Option (Option Reply × σ))
  | [], _ => []
  | .line l :: as, s =>
      match ngcFlowctrl h l s with
      | some (reply, s) => some (some reply, s.world) :: observe h as s
      | none => [none]
  | a :: as, s =>
      match flowStep h s a with
      | some s => some (none, s.world) :: observe h as s
      | none => [none]

/-- The module's variables in a world. -/
def Flow.within (m : Flow Unit φ) (world : σ) : Flow σ φ :=
  { stack := m.stack, skipSub := m.skipSub, subs := m.subs, execSub := m.execSub, world := world }

/-- After `ngc_flowctrl_init`, in any surroundings, the module behaves as one that has just been started. -/
def BehavesFresh (m : Flow Unit φ) : Prop :=
  ∀ (σ : Type) (h : FlowHost σ φ) (world : σ) (as : List (FlowCall σ φ)),
    observe h as (ngcFlowctrlInit h (m.within world)) =
      observe h as { world := (ngcFlowctrlInit h (m.within world)).world }

/-- `ENDIF` without `IF` is an error, unless it is skipped. -/
theorem observe_endIf {h : FlowHost σ φ} {skipSub : Bool} {execSub : Option ℕ} {world : σ} :
    observe h [.line (oLine 1 "ENDIF")] { skipSub := skipSub, execSub := execSub, world := world } =
      [some (some (if skipSub then ⟨none, some true⟩ else ⟨some .flowControlSyntaxError, some false⟩),
        world)] := by
  cases skipSub <;> rfl

/-- `RETURN` leaves the macro, unless a sub is executing. -/
theorem observe_return {file : φ} {execSub : Option ℕ} {world : ℕ} :
    observe (macroHost file) [.line (oLine 1 "IF[1]"), .line (oLine 1 "RETURN")]
        { execSub := execSub, world := world } =
      [some (some ⟨none, some false⟩, world),
        some (some ⟨none, some false⟩, if execSub.isSome then world else world + 1)] := by
  let top : Entry φ := { oLabel := 1, operation := .if, sub := execSub, file := some file, handled := true }
  let s : Flow ℕ φ := { stack := [top], execSub := execSub, world := world }
  have hif : ngcFlowctrl (macroHost file) (oLine 1 "IF[1]") { execSub := execSub, world := world } =
      some (⟨none, some false⟩, s) := rfl
  have hread : readKeyword flowCmds (oLine 1 "RETURN").text = some (.return, []) := rfl
  have hreturn : ∃ s', ngcFlowctrl (macroHost file) (oLine 1 "RETURN") s = some (⟨none, some false⟩, s') ∧
      s'.world = if execSub.isSome then world else world + 1 := by
    rw [ngcFlowctrl, hread]
    cases execSub with
    | some sub => exact ⟨_, rfl, rfl⟩
    | none =>
        have hunwind : ngcFlowctrlUnwindStack (macroHost file) (some file) s = { world := world } := by
          simp [s, top, ngcFlowctrlUnwindStack, Flow.pullWhile, pullWhile, pulled, clearSubs]
        have hcommand : command (macroHost file) .return { oLine 1 "RETURN" with text := [] } s =
            (callMacroReturn (macroHost file)
              (returnValue (macroHost file) [] (ngcFlowctrlUnwindStack (macroHost file) (some file) s))).ok := rfl
        rw [hunwind] at hcommand
        simp only [hcommand]
        exact ⟨_, rfl, rfl⟩
  obtain ⟨s', hs', hworld⟩ := hreturn
  simp only [observe, hif, hs', hworld, s]

theorem behaves_fresh_iff [Inhabited φ] (m : Flow Unit φ) :
    BehavesFresh m ↔ m.skipSub = false ∧ m.execSub = none := by
  constructor
  · intro hm
    have hskip : m.skipSub = false := by
      have hends := hm ℕ (macroHost default) 0 [.line (oLine 1 "ENDIF")]
      rw [init_eq, observe_endIf, observe_endIf] at hends
      cases hskip : m.skipSub with
      | false => rfl
      | true => simp [Flow.within, hskip] at hends
    refine ⟨hskip, ?_⟩
    have hreturns := hm ℕ (macroHost default) 0 [.line (oLine 1 "IF[1]"), .line (oLine 1 "RETURN")]
    rw [init_eq, show (m.within 0).skipSub = false from hskip, observe_return, observe_return] at hreturns
    cases hexec : m.execSub with
    | none => rfl
    | some sub => simp [Flow.within, hexec] at hreturns
  · rintro ⟨hskip, hexec⟩ σ h world as
    rw [init_eq]
    simp only [Flow.within, hskip, hexec]

/-- A reset while the lines of a sub are skipped: they are still skipped afterwards, and `ENDIF` is no error. -/
theorem reset_keeps_skipping : ∃ s : Flow ℕ Unit,
    Lib.run (flowStep (macroHost ())) { world := 0 } [.line (oLine 1 "SUB"), .init] = some s ∧
      ¬BehavesFresh { s with world := () } := by
  refine ⟨_, rfl, fun hfresh => ?_⟩
  have hends := hfresh ℕ (macroHost ()) 0 [.line (oLine 2 "ENDIF")]
  revert hends
  decide

end Grbl.Ngc
