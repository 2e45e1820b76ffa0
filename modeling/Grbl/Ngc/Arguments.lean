import Mathlib
import Grbl.Ngc.Flowctrl
import Grbl.Ngc.Scopes

/-!
# Arguments of a call

* `paramHost` : flow control over the parameters of the module;
* `arguments`, `Passed` : what a call evaluates, and what the sub is to see;
* `setParams_eq`, `enterSub_eq`, `cmdCall_eq` : what a call does to the parameters;
* `arguments_passed_iff` : when the sub sees it; `single_missing_argument_is_garbage` : 29 arguments.
-/

namespace Grbl.Ngc
open Lib

/-- What the parameters are used with: the addresses of the stack entries, the predefined parameters, the evaluation of an expression
over the parameters, the snapshots that a call restores, and what `params[29]` holds before it is written. -/
structure ParamUse (γ μ : Type) where
  context : ℕ → γ
  ro : ReadOnly ℚ
  eval : Params γ ℚ μ → List Char → Except Status (ℚ × List Char)
  autoRestore : μ → Bool
  uninit : ℚ

section
variable {γ μ τ φ : Type} [DecidableEq γ] (U : ParamUse γ μ) (o : FlowHost τ φ)

/-- Writes a parameter; the memory for a new node comes from `malloc`. -/
def writeParam (needed : Bool) (write : Bool × Params γ ℚ μ) (w : Params γ ℚ μ × τ) : Bool × Params γ ℚ μ × τ :=
  if needed then
    match o.malloc w.2 with
    | (some _, t) => (write.1, write.2, t)
    | (none, t) => (false, w.1, t)
  else (write.1, write.2, w.2)

/-- Flow control calls the functions of `ngc_params.c`, and those of `o` for anything else. -/
def paramHost : FlowHost (Params γ ℚ μ × τ) φ where
  streamFile w := o.streamFile w.2
  vfsTell file w := o.vfsTell file w.2
  streamReposition file pos line w := (w.1, o.streamReposition file pos line w.2)
  streamRedirectRead name w := let r := o.streamRedirectRead name w.2; (r.1, w.1, r.2)
  streamRedirectClose file w := (w.1, o.streamRedirectClose file w.2)
  malloc w := let r := o.malloc w.2; (r.1, w.1, r.2)
  eval text w := (U.eval w.1 text, w)
  paramGet id w := (ngcParamGet U.ro w.1 id).2
  paramSet id value w :=
    writeParam o (ngcParamIsRw id && value ≠ 0 && (w.1.rwParams.getValue (w.1.paramContext id) id).isNone) (ngcParamSet w.1 id value) w
  namedParamSet name value w :=
    (writeParam o (w.1.rwGlobalParams.getValue (w.1.nameContext (ngcNameToLower name)) (ngcNameToLower name)).isNone
      (ngcNamedParamSet w.1 name value) w).2
  stringParamGet id w := o.stringParamGet id w.2
  stringParamDelete id w := (w.1, o.stringParamDelete id w.2)
  callPush i w := let r := ngcCallPush w.1 (some (U.context i)); (r.1, r.2, w.2)
  callPop w := ((ngcCallPop U.autoRestore w.1).2, o.callPop w.2)
  raiseAlarm value w := (w.1, o.raiseAlarm value w.2)
  toStatus := o.toStatus
  onMacroReturn w := o.onMacroReturn w.2
  macroReturn w := let r := o.macroReturn w.2; (r.1, w.1, r.2)
  uninit _ := U.uninit

/-! ## What is passed -/

/-- The values of the first `n` expressions. -/
def arguments (eval : List Char → Except Status (ℚ × List Char)) : ℕ → List Char → List ℚ
  | 0, _ => []
  | _ + 1, [] => []
  | n + 1, text =>
      match eval text with
      | .error _ => []
      | .ok (value, rest) => value :: arguments eval n rest

/-- The argument, or what the caller has. -/
def expected (p : Params γ ℚ μ) (args : List ℚ) (id : ℕ) : ℚ := args.getD (id - 1) (ngcParamGet U.ro p id).2

/-- What the parameters hold under a context that is not in use, or is about to be used again. -/
def leftOver (p : Params γ ℚ μ) (context : Option γ) (id : ℕ) : ℚ := (p.rwParams.getValue context id).getD 0

/-- The sub sees the arguments, and what the caller has where there is none; nothing else has been stored. -/
structure Passed (p p' : Params γ ℚ μ) (args : List ℚ) : Prop where
  sees : ∀ id, 1 ≤ id → id ≤ 30 → (ngcParamGet U.ro p' id).2 = expected U p args id
  stored : ∀ context id value, p'.rwParams.getValue context id = some value →
    p.rwParams.getValue context id = some value ∨ value ∈ args ∨ ∃ id', 1 ≤ id' ∧ id' ≤ 30 ∧ value = (ngcParamGet U.ro p id').2

end

/-! ## What is stored -/

section
variable {γ μ τ φ : Type} [DecidableEq γ] {U : ParamUse γ μ} {o : FlowHost τ φ} {p p' : Params γ ℚ μ} {t t' : τ}

/-- What has happened to the numbered parameters: those of the innermost call from `id` on have been set to the values that are
not zero. -/
structure Stored (p p' : Params γ ℚ μ) (id : ℕ) (values : List ℚ) : Prop where
  ok : p'.rwParams.Ok
  context : p'.callContext = p.callContext
  here : ∀ i (hi : i < values.length),
    p'.rwParams.getValue p.callContext (id + i) = if values[i] ≠ 0 then some values[i] else p.rwParams.getValue p.callContext (id + i)
  other : ∀ context key, (∀ i < values.length, (context, key) ≠ (p.callContext, id + i)) →
    p'.rwParams.getValue context key = p.rwParams.getValue context key

/-- `ngc_param_set` of a local parameter. -/
theorem paramSet_stored (hok : p.rwParams.Ok) {id : ℕ} (hid : 1 ≤ id ∧ id ≤ 30) {value : ℚ} (hvalue : value ≠ 0) {w : Params γ ℚ μ × τ}
    (hset : (paramHost U o).paramSet id value (p, t) = (true, w)) : Stored p w.1 id [value] := by
  have hrw : ngcParamIsRw id = true := by
    simp only [ngcParamIsRw, decide_eq_true_eq]
    omega
  have hcontext : p.paramContext id = p.callContext := if_neg (by omega)
  have hw : w.1 = (ngcParamSet p id value).2 := by
    dsimp only [paramHost] at hset
    rw [writeParam] at hset
    split at hset
    · split at hset
      · exact congrArg (·.2.1) hset.symm
      · cases hset
    · exact congrArg (·.2.1) hset.symm
  rw [hw, ngcParamSet, if_pos hrw, hcontext, decide_eq_true hvalue]
  refine ⟨hok.setValue, rfl, fun i hi => ?_, fun context key hne => ?_⟩
  · obtain rfl : i = 0 := by simpa using hi
    dsimp only
    rw [Nat.add_zero, hok.getValue_setValue_self (.inl rfl), List.getElem_cons_zero, if_pos hvalue]
  · exact hok.getValue_setValue_of_ne (hne 0 (by simp))

theorem Stored.refl (hok : p.rwParams.Ok) (id : ℕ) : Stored p p id [] := ⟨hok, rfl, nofun, fun _ _ _ => rfl⟩

theorem Stored.cons {p₁ : Params γ ℚ μ} {id : ℕ} {value : ℚ} {values : List ℚ} (h : Stored p p₁ id [value])
    (h' : Stored p₁ p' (id + 1) values) : Stored p p' id (value :: values) := by
  refine ⟨h'.ok, h'.context.trans h.context, fun i hi => ?_, fun context key hne => ?_⟩
  · cases i with
    | zero =>
        rw [h'.other, List.getElem_cons_zero]
        · exact h.here 0 (by simp)
        · rintro j - heq
          have heq := congrArg Prod.snd heq
          dsimp only at heq
          omega
    | succ i =>
        have hhere := h'.here i (by simpa using hi)
        rw [h.context, show id + 1 + i = id + (i + 1) by omega] at hhere
        rw [hhere, List.getElem_cons_succ, h.other]
        intro j hj heq
        have heq := congrArg Prod.snd heq
        have hj : j < 1 := hj
        dsimp only at heq
        omega
  · rw [h'.other, h.other]
    · intro i hi
      obtain rfl : i = 0 := by simpa using hi
      exact hne 0 (by simp)
    · intro i hi
      rw [h.context, show id + 1 + i = id + (i + 1) by omega]
      exact hne (i + 1) (by simpa using hi)

theorem stored_zero (hok : p.rwParams.Ok) (id : ℕ) : Stored p p id [0] := by
  refine ⟨hok, rfl, fun i hi => ?_, fun _ _ _ => rfl⟩
  obtain rfl : i = 0 := by simpa using hi
  rw [List.getElem_cons_zero, if_neg (not_not_intro rfl)]

theorem setParams_stored (values : List ℚ) : ∀ {id : ℕ} {w : Params γ ℚ μ × τ}, 1 ≤ id → id + values.length ≤ 31 → w.1.rwParams.Ok →
    (setParams (paramHost U o) id values w).1 = true → Stored w.1 (setParams (paramHost U o) id values w).2.1 id values := by
  induction values with
  | nil => exact fun _ _ hok _ => .refl hok _
  | cons value values ih =>
      intro id w hid hlen hok hset
      rw [List.length_cons] at hlen
      obtain ⟨p, t⟩ := w
      rw [setParams] at hset ⊢
      by_cases hvalue : value = 0
      · rw [if_neg (not_not_intro hvalue)] at hset ⊢
        dsimp only at hset ⊢
        rw [Bool.true_and] at hset
        subst hvalue
        exact (stored_zero hok id).cons (ih (w := (p, t)) (by omega) (by omega) hok hset)
      · rw [if_pos hvalue] at hset ⊢
        obtain ⟨set, w, hw⟩ : ∃ set w, (paramHost U o).paramSet id value (p, t) = (set, w) := ⟨_, _, rfl⟩
        rw [hw] at hset ⊢
        dsimp only at hset ⊢
        rw [Bool.and_eq_true] at hset
        obtain ⟨rfl, hset⟩ := hset
        have hfirst : Stored p w.1 id [value] := paramSet_stored hok ⟨hid, by omega⟩ hvalue hw
        exact hfirst.cons (ih (w := w) (by omega) (by omega) hfirst.ok hset)

/-! ## The call -/

variable [DecidableEq φ] {l : OLine} {sub : Sub φ} {s s' : Flow (Params γ ℚ μ × τ) φ}

omit [DecidableEq φ] in
theorem readArgs_eq (n : ℕ) : ∀ (text : List Char) (w : Params γ ℚ μ × τ),
    ∃ status, readArgs (paramHost U o) n text w = (status, arguments (U.eval w.1) n text, w) := by
  induction n with
  | zero => exact fun _ _ => ⟨_, rfl⟩
  | succ n ih =>
      intro text w
      cases text with
      | nil => exact ⟨_, rfl⟩
      | cons c text =>
          have heval : (paramHost U o).eval (c :: text) w = (U.eval w.1 (c :: text), w) := rfl
          simp only [readArgs, arguments, heval]
          cases U.eval w.1 (c :: text) with
          | error e => exact ⟨_, rfl⟩
          | ok r =>
              obtain ⟨status, hstatus⟩ := ih r.2 w
              exact ⟨status, by simp only [hstatus]⟩

omit [DecidableEq φ] in
/-- `_value` and `_value_returned` do not touch the numbered parameters. -/
theorem namedParamSet_numbers (name : List Char) (value : ℚ) (w : Params γ ℚ μ × τ) :
    ((paramHost U o).namedParamSet name value w).1.rwParams = w.1.rwParams ∧
      ((paramHost U o).namedParamSet name value w).1.callContext = w.1.callContext := by
  have hset : (ngcNamedParamSet w.1 name value).2.rwParams = w.1.rwParams ∧
      (ngcNamedParamSet w.1 name value).2.callContext = w.1.callContext := by
    rw [ngcNamedParamSet]
    split
    · split
      · exact ⟨rfl, rfl⟩
      · split <;> exact ⟨rfl, rfl⟩
    · exact ⟨rfl, rfl⟩
  dsimp only [paramHost]
  rw [writeParam]
  split
  · split
    · exact hset
    · exact ⟨rfl, rfl⟩
  · exact hset

theorem Stored.congr {p₁ : Params γ ℚ μ} {id : ℕ} {values : List ℚ} (h : Stored p p' id values)
    (hparams : p₁.rwParams = p'.rwParams) (hcontext : p₁.callContext = p'.callContext) : Stored p p₁ id values := by
  refine ⟨hparams ▸ h.ok, hcontext.trans h.context, ?_, ?_⟩
  · rw [hparams]
    exact h.here
  · rw [hparams]
    exact h.other

omit [DecidableEq φ] in
theorem push_call {f : Entry φ → Flow (Params γ ℚ μ × τ) φ → Outcome (Params γ ℚ μ × τ) φ}
    (hpush : s.push (paramHost U o) l .call f = some (none, s')) :
    ∃ top s₁, f top s₁ = some (none, s') ∧ s₁.world.1.rwParams = s.world.1.rwParams ∧
      s₁.world.1.callContext = some (U.context s.stack.length) := by
  have hcallPush : (paramHost U o).callPush s.stack.length s.world =
      ((ngcCallPush s.world.1 (some (U.context s.stack.length))).1,
        (ngcCallPush s.world.1 (some (U.context s.stack.length))).2, s.world.2) := rfl
  rw [Flow.push, stackPush, pushContext, if_pos rfl, hcallPush, ngcCallPush] at hpush
  split at hpush
  case h_2 => cases hpush
  case h_1 s₁ hstack =>
    by_cases hdepth : s.stack.length < ngcStackDepth
    · rw [if_pos hdepth] at hstack
      by_cases hlevel : s.world.1.callLevels.length < ngcMaxCallLevel
      · rw [if_pos hlevel] at hstack
        cases hstack
        exact ⟨_, _, hpush, rfl, rfl⟩
      · rw [if_neg hlevel] at hstack
        cases hstack
    · rw [if_neg hdepth] at hstack
      cases hstack

omit [DecidableEq φ] in
theorem enterSub_stored (hok : s.world.1.rwParams.Ok) (hcall : enterSub (paramHost U o) l sub s = some (none, s')) :
    ∃ p₁ : Params γ ℚ μ, p₁.rwParams = s.world.1.rwParams ∧ p₁.callContext = some (U.context s.stack.length) ∧
      Stored p₁ s'.world.1 1 (callParams (paramHost U o) (arguments (U.eval s.world.1) 30 l.text) s.world) := by
  obtain ⟨status, hargs⟩ := readArgs_eq (U := U) (o := o) 30 l.text s.world
  rw [enterSub, hargs] at hcall
  dsimp only at hcall
  cases status with
  | some e => cases hcall
  | none =>
      obtain ⟨top, s₁, hcall, hparams, hcontext⟩ := push_call hcall
      have hlen : (callParams (paramHost U o) (arguments (U.eval s.world.1) 30 l.text) s.world).length = 30 := by
        simp [callParams]
      generalize callParams (paramHost U o) (arguments (U.eval s.world.1) 30 l.text) s.world = params at hcall hlen ⊢
      refine ⟨s₁.world.1, hparams, hcontext, ?_⟩
      split at hcall
      case isFalse => cases hcall
      case isTrue hset =>
        have hstored := setParams_stored (U := U) (o := o) params (w := s₁.world) (Nat.le_refl 1) (by omega) (hparams ▸ hok) hset
        cases hcall
        refine hstored.congr ?_ ?_
        · exact (namedParamSet_numbers ..).1.trans (namedParamSet_numbers ..).1
        · exact (namedParamSet_numbers ..).2.trans (namedParamSet_numbers ..).2

omit [DecidableEq φ] in
theorem openSub_params {name : List Char} {r : Except Status (Sub φ)} {s₁ : Flow (Params γ ℚ μ × τ) φ}
    (h : openSub (paramHost U o) l name s = (r, s₁)) : s₁.world.1 = s.world.1 ∧ s₁.stack = s.stack := by
  have hmemory : (nameMemory (paramHost U o) name s.world).2.1 = s.world.1 := by
    rw [nameMemory]
    split <;> rfl
  have hopen : ∀ w : Params γ ℚ μ × τ, (openMacro (paramHost U o) name w).2.1 = w.1 := by
    intro w
    rw [openMacro]
    split
    case h_1 file w' heq => exact (congrArg (·.2.1) heq).symm
    case h_2 w' heq => exact (congrArg (·.2.1) heq).symm
  have hadd : ∀ (file : φ) (s : Flow (Params γ ℚ μ × τ) φ), (addSub (paramHost U o) l file s).2.world.1 = s.world.1 ∧
      (addSub (paramHost U o) l file s).2.stack = s.stack := by
    intro file s
    rw [addSub]
    split
    case h_1 address w heq => exact ⟨(congrArg (·.2.1) heq).symm, rfl⟩
    case h_2 w heq => exact ⟨(congrArg (·.2.1) heq).symm, rfl⟩
  rw [openSub] at h
  split at h
  case h_1 w heq =>
    cases h
    rw [heq] at hmemory
    exact ⟨hmemory, rfl⟩
  case h_2 w heq =>
    rw [heq] at hmemory
    split at h
    case h_1 w' heq' =>
      cases h
      have hw := hopen w
      rw [heq'] at hw
      exact ⟨hw.trans hmemory, rfl⟩
    case h_2 file w' heq' =>
      have hw := hopen w
      rw [heq'] at hw
      have hsub := hadd file { s with world := w' }
      split at h
      case h_1 sub s₂ heq'' =>
        cases h
        rw [heq''] at hsub
        exact ⟨hsub.1.trans (hw.trans hmemory), hsub.2⟩
      case h_2 s₂ heq'' =>
        cases h
        rw [heq''] at hsub
        exact ⟨hsub.1.trans (hw.trans hmemory), hsub.2⟩

theorem cmdCall_enters (hskip : s.skipping = false) (hcall : cmdCall (paramHost U o) l s = some (none, s')) :
    ∃ sub s₁, s₁.world.1 = s.world.1 ∧ s₁.stack = s.stack ∧ enterSub (paramHost U o) l sub s₁ = some (none, s') := by
  rw [cmdCall, hskip] at hcall
  split at hcall
  · cases hcall
  · rw [if_neg Bool.false_ne_true] at hcall
    split at hcall
    · split at hcall
      case h_1 => cases hcall
      case h_2 name _ =>
        split at hcall
        case h_1 sub s₁ hopen => exact ⟨sub, s₁, (openSub_params hopen).1, (openSub_params hopen).2, hcall⟩
        case h_2 => cases hcall
    · split at hcall
      case h_1 sub _ => exact ⟨sub, s, rfl, rfl, hcall⟩
      case h_2 => cases hcall

omit [DecidableEq φ] in
theorem callParams_getElem {args : List ℚ} {w : Params γ ℚ μ × τ} {i : ℕ} (hi : i < (callParams (paramHost U o) args w).length) :
    (callParams (paramHost U o) args w)[i] = if args.length = 29 ∧ i = 29 then U.uninit else expected U w.1 args (i + 1) := by
  simp only [callParams, List.getElem_map, List.getElem_range]
  rfl

/-- A call that succeeds passes its arguments, and what the caller has for the others, unless there are 29 of them and `params[29]`
does not happen to hold what the caller has in `#30`, or an earlier call has left a value where a zero is passed. -/
theorem arguments_passed_iff (hskip : s.skipping = false) (hok : s.world.1.rwParams.Ok)
    (hcall : cmdCall (paramHost U o) l s = some (none, s')) :
    Passed U s.world.1 s'.world.1 (arguments (U.eval s.world.1) 30 l.text) ↔
      ((arguments (U.eval s.world.1) 30 l.text).length = 29 →
          (if U.uninit ≠ 0 then U.uninit else leftOver s.world.1 (some (U.context s.stack.length)) 30) =
            (ngcParamGet U.ro s.world.1 30).2) ∧
        ∀ id, 1 ≤ id → id ≤ 30 → (id = 30 → (arguments (U.eval s.world.1) 30 l.text).length ≠ 29) →
          expected U s.world.1 (arguments (U.eval s.world.1) 30 l.text) id = 0 →
          leftOver s.world.1 (some (U.context s.stack.length)) id = 0 := by
  obtain ⟨sub, s₁, hworld, hstack, henter⟩ := cmdCall_enters hskip hcall
  obtain ⟨p₁, hparams, hcontext, hstored⟩ := enterSub_stored (hworld ▸ hok) henter
  rw [hworld] at hparams hstored
  rw [hstack] at hcontext
  generalize arguments (U.eval s.world.1) 30 l.text = args at hstored ⊢
  generalize some (U.context s.stack.length) = context at hcontext ⊢
  have hlen : (callParams (paramHost U o) args s₁.world).length = 30 := by simp [callParams]
  have hvalue : ∀ i (hi : i < (callParams (paramHost U o) args s₁.world).length), (callParams (paramHost U o) args s₁.world)[i] =
      if args.length = 29 ∧ i = 29 then U.uninit else expected U s.world.1 args (i + 1) := fun i hi => by
    rw [callParams_getElem, hworld]
  generalize callParams (paramHost U o) args s₁.world = values at hstored hlen hvalue
  -- what the sub reads
  have hget : ∀ i (hi : i < values.length), (ngcParamGet U.ro s'.world.1 (i + 1)).2 =
      if values[i] ≠ 0 then values[i] else leftOver s.world.1 context (i + 1) := by
    intro i hi
    have hrw : ngcParamIsRw (i + 1) = true := by
      simp only [ngcParamIsRw, decide_eq_true_eq]
      omega
    have hlocal : s'.world.1.paramContext (i + 1) = p₁.callContext := by
      rw [Params.paramContext, if_neg (by omega), hstored.context]
    rw [ngcParamGet, if_pos hrw, hlocal, Nat.add_comm i 1, hstored.here i hi, hparams, hcontext]
    split <;> rfl
  have hsees : ∀ i, i < 30 → ((ngcParamGet U.ro s'.world.1 (i + 1)).2 = expected U s.world.1 args (i + 1) ↔
      if args.length = 29 ∧ i = 29 then
        (if U.uninit ≠ 0 then U.uninit else leftOver s.world.1 context 30) = (ngcParamGet U.ro s.world.1 30).2
      else expected U s.world.1 args (i + 1) = 0 → leftOver s.world.1 context (i + 1) = 0) := by
    intro i hi
    have hi : i < values.length := hlen ▸ hi
    rw [hget i hi, hvalue i hi]
    split
    case isTrue hlast =>
      obtain ⟨hargs, rfl⟩ := hlast
      have hexpected : expected U s.world.1 args (29 + 1) = (ngcParamGet U.ro s.world.1 30).2 := by
        rw [expected, List.getD_eq_default _ _ (by omega)]
      rw [hexpected]
    case isFalse =>
      by_cases hzero : expected U s.world.1 args (i + 1) = 0
      · rw [if_neg (not_not_intro hzero), hzero]
        exact ⟨fun h _ => h, fun h => h rfl⟩
      · rw [if_pos hzero]
        exact ⟨fun _ h => absurd h hzero, fun _ => rfl⟩
  constructor
  · rintro ⟨hall, -⟩
    refine ⟨fun hargs => ?_, fun id hid hid' hne hzero => ?_⟩
    · have hlast := (hsees 29 (by decide)).1 (hall 30 (by decide) (by decide))
      rwa [if_pos ⟨hargs, rfl⟩] at hlast
    · obtain ⟨i, rfl⟩ : ∃ i, id = i + 1 := ⟨id - 1, by omega⟩
      have hi := (hsees i (by omega)).1 (hall (i + 1) hid hid')
      rw [if_neg (fun hlast => hne (by omega) hlast.1)] at hi
      exact hi hzero
  · rintro ⟨hlast, hothers⟩
    have hall : ∀ i, i < 30 → (ngcParamGet U.ro s'.world.1 (i + 1)).2 = expected U s.world.1 args (i + 1) := by
      intro i hi
      rw [hsees i hi]
      split
      case isTrue h => exact hlast h.1
      case isFalse h => exact hothers (i + 1) (by omega) (by omega) fun heq hargs => h ⟨hargs, by omega⟩
    refine ⟨fun id hid hid' => ?_, fun context' key value hv => ?_⟩
    · obtain ⟨i, rfl⟩ : ∃ i, id = i + 1 := ⟨id - 1, by omega⟩
      exact hall i (by omega)
    · by_cases hkey : ∃ i < values.length, (context', key) = (p₁.callContext, 1 + i)
      · obtain ⟨i, hi, heq⟩ := hkey
        obtain ⟨rfl, rfl⟩ := Prod.mk.inj heq
        have hhere := hstored.here i hi
        have hi' : i < 30 := hlen ▸ hi
        rw [hv] at hhere
        split at hhere
        case isTrue hne =>
          -- it has been stored
          right
          have hvalue : value = expected U s.world.1 args (i + 1) := by
            have hseen := hall i hi'
            rw [hget i hi, if_pos hne] at hseen
            exact (Option.some.inj hhere).trans hseen
          rw [hvalue, expected, Nat.add_sub_cancel]
          by_cases hlt : i < args.length
          · rw [List.getD_eq_getElem _ _ hlt]
            exact .inl (List.getElem_mem hlt)
          · rw [List.getD_eq_default _ _ (Nat.le_of_not_lt hlt)]
            exact .inr ⟨i + 1, by omega, by omega, rfl⟩
        case isFalse => exact .inl (hparams ▸ hhere.symm)
      · left
        rw [hstored.other context' key fun i hi heq => hkey ⟨i, hi, heq⟩, hparams] at hv
        exact hv

end

/-! ## Two calls -/

/-- The digits of a line are the values of its expressions; `params[29]` holds 5. -/
def Example.use : ParamUse ℕ Unit where
  context i := i
  ro := ⟨fun _ => 0, fun _ => 0⟩
  eval _ text :=
    match text with
    | c :: rest => .ok (((c.toNat - '0'.toNat : ℕ) : ℚ), rest)
    | [] => .error .expressionSyntaxError
  autoRestore _ := false
  uninit := 5

def Example.outside : FlowHost Unit Unit where
  streamFile _ := some ()
  vfsTell _ _ := 0
  streamReposition _ _ _ _ := ()
  streamRedirectRead _ _ := (none, ())
  streamRedirectClose _ _ := ()
  malloc _ := (some 0, ())
  eval _ _ := (.error .expressionSyntaxError, ())
  paramGet _ _ := 0
  paramSet _ _ _ := (true, ())
  namedParamSet _ _ _ := ()
  stringParamGet _ _ := none
  stringParamDelete _ _ := ()
  callPush _ _ := (true, ())
  callPop _ := ()
  raiseAlarm _ _ := ()
  toStatus _ := none
  onMacroReturn _ := false
  macroReturn _ := ([], ())
  uninit _ := 0

/-- The sub is known, and the caller has 7 in `#5`. -/
def Example.caller : Flow (Params ℕ ℚ Unit × Unit) Unit where
  subs := [⟨0, 1, (), 0, 0⟩]
  world := ((ngcParamSet {} 5 7).2, ())

theorem Example.rwParams_eq : Example.caller.world.1.rwParams = ParamList.empty.setValue none 5 7 true := rfl

theorem Example.ok : Example.caller.world.1.rwParams.Ok := by
  rw [Example.rwParams_eq]
  exact ParamList.ok_empty.setValue

theorem Example.leftOver_eq (id : ℕ) : leftOver Example.caller.world.1 (some 0) id = 0 := by
  have hne : (some 0, id) ≠ ((none : Option ℕ), 5) := nofun
  rw [leftOver, Example.rwParams_eq, ParamList.ok_empty.getValue_setValue_of_ne hne, ParamList.getValue_empty, Option.getD_none]

theorem arguments_passed_iff_three : ∃ s',
    cmdCall (paramHost Example.use Example.outside) ⟨1, 0, ['1', '0', '3']⟩ Example.caller = some (none, s') ∧
      Passed Example.use Example.caller.world.1 s'.world.1
        (arguments (Example.use.eval Example.caller.world.1) 30 ['1', '0', '3']) := by
  refine ⟨_, rfl, ?_⟩
  refine (arguments_passed_iff (U := Example.use) (o := Example.outside) (l := ⟨1, 0, ['1', '0', '3']⟩) (s := Example.caller) rfl
    Example.ok rfl).2 ⟨fun h => absurd h (by decide), fun id _ _ _ _ => Example.leftOver_eq id⟩

/-- With 29 arguments the sub sees what happened to be in memory. -/
theorem single_missing_argument_is_garbage : ∃ s',
    cmdCall (paramHost Example.use Example.outside) ⟨1, 0, List.replicate 29 '1'⟩ Example.caller = some (none, s') ∧
      (ngcParamGet Example.use.ro s'.world.1 30).2 = 5 ∧ (ngcParamGet Example.use.ro Example.caller.world.1 30).2 = 0 ∧
      ¬Passed Example.use Example.caller.world.1 s'.world.1
        (arguments (Example.use.eval Example.caller.world.1) 30 (List.replicate 29 '1')) := by
  obtain ⟨s', hcall, hsub, hcaller⟩ : ∃ s',
      cmdCall (paramHost Example.use Example.outside) ⟨1, 0, List.replicate 29 '1'⟩ Example.caller = some (none, s') ∧
        (ngcParamGet Example.use.ro s'.world.1 30).2 = 5 ∧ (ngcParamGet Example.use.ro Example.caller.world.1 30).2 = 0 :=
    ⟨_, rfl, by decide +kernel, by decide +kernel⟩
  refine ⟨s', hcall, hsub, hcaller, fun h => ?_⟩
  have hsees := h.sees 30 (by decide) (by decide)
  have hlen : (arguments (Example.use.eval Example.caller.world.1) 30 (List.replicate 29 '1')).length = 29 := rfl
  rw [hsub, expected, List.getD_eq_default _ _ (by omega), hcaller] at hsees
  revert hsees
  decide

end Grbl.Ngc
