import Mathlib
import Grbl.Lib.Linked

/-!
# Numbered and named parameters

The parameters that can be written are nodes of two linked lists shared by all macro calls; a node
belongs to the call whose context it carries, or to nobody.

* `ParamList` : such a list; `search`, `getValue`, `setValue`, `freeContext` : the loops over it;
* `Params` : what the module keeps, with the call levels;
* `ngcParamGet`, `ngcParamSet`, `ngcNamedParamGet`, `ngcNamedParamSet` : reading and writing;
* `ngcCallPush`, `ngcCallPop` : a macro call begins and ends;
* `ngcModalStateSave`, `ngcModalStateInvalidate`, `ngcModalStateGet` : the snapshot of a call level.
-/

namespace Grbl.Ngc

open Lib

def ngcMaxParamLength : ℕ := 30

def ngcMaxCallLevel : ℕ := 10

/-! ## The lists -/

/-- `ngc_rw_param_t` with a number as `key`, `ngc_named_rw_param_t` with a name, without `next`. -/
structure RwParam (κ γ ν : Type) where
  context : Option γ
  key : κ
  value : ν

/-- A list of parameters in memory. Addresses from `fresh` on have not been handed out by `malloc`. -/
structure ParamList (κ γ ν : Type) where
  node : ℕ → Option (RwParam κ γ ν)
  next : ℕ → Option ℕ
  head : Option ℕ
  fresh : ℕ

namespace ParamList

variable {κ γ ν : Type} [DecidableEq κ] [DecidableEq γ]

def empty : ParamList κ γ ν := ⟨fun _ => none, fun _ => none, none, 0⟩

/-- `rw_param->context == context && rw_param->id == id` -/
def isParam (l : ParamList κ γ ν) (context : Option γ) (key : κ) (a : ℕ) : Bool :=
  match l.node a with
  | some p => p.context = context ∧ p.key = key
  | none => false

/-- The node of the parameter, and the node before it or the last one. -/
def search (l : ParamList κ γ ν) (context : Option γ) (key : κ) : Option ℕ × Option ℕ :=
  scan l.next (l.isParam context key) l.fresh l.head l.head

def getValue (l : ParamList κ γ ν) (context : Option γ) (key : κ) : Option ν :=
  (l.search context key).1.bind fun a => (l.node a).map RwParam.value

def writeNode (l : ParamList κ γ ν) (a : ℕ) (p : RwParam κ γ ν) : ParamList κ γ ν :=
  { l with node := Function.update l.node a (some p) }

def addLast (l : ParamList κ γ ν) (last : Option ℕ) (p : RwParam κ γ ν) : ParamList κ γ ν where
  node := Function.update l.node l.fresh (some p)
  next := relink (Function.update l.next l.fresh none) (if l.head = none then none else last) l.fresh
  head := if l.head = none then some l.fresh else l.head
  fresh := l.fresh + 1

/-- Writes the parameter; one without a node gets one if `create` is set. -/
def setValue (l : ParamList κ γ ν) (context : Option γ) (key : κ) (value : ν) (create : Bool) :
    ParamList κ γ ν :=
  match l.search context key with
  | (some a, _) => l.writeNode a ⟨context, key, value⟩
  | (none, last) => if create then l.addLast last ⟨context, key, value⟩ else l

/-- `rw_param->context == call_context` -/
def inContext (l : ParamList κ γ ν) (context : Option γ) (a : ℕ) : Bool :=
  match l.node a with
  | some p => p.context = context
  | none => false

/-- The nodes of a context are taken out of the list and freed. -/
def freeContext (l : ParamList κ γ ν) (context : Option γ) : ParamList κ γ ν :=
  let (next, head) := purge (l.inContext context) l.fresh l.next l.head l.head l.head
  { l with next := next, head := head }

end ParamList

/-! ## The module -/

/-- `ngc_param_context_t`; `modalState` is the snapshot an `M70` has saved on this level. -/
structure CallLevel (γ μ : Type) where
  context : Option γ
  modalState : Option μ

/-- What the module keeps. `callLevels` is `call_levels[call_level]` down to `call_levels[0]`. -/
structure Params (γ ν μ : Type) where
  callLevels : List (CallLevel γ μ) := []
  callContext : Option γ := none
  modalState : Option μ := none
  rwParams : ParamList ℕ γ ν := .empty
  rwGlobalParams : ParamList (List Char) γ ν := .empty

structure ReadOnly (ν : Type) where
  number : ℕ → ν
  name : String → ν

variable {γ ν μ : Type} [DecidableEq γ] [DecidableEq ν] [Zero ν]

/-- `ngc_ro_params`: `id_min` and `id_max` -/
def ngcRoParams : List (ℕ × ℕ) :=
  [(5061, 5069), (5070, 5070), (5161, 5169), (5181, 5189), (5191, 5199), (5210, 5210), (5211, 5219),
    (5220, 5220), (5221, 5230), (5241, 5250), (5261, 5270), (5281, 5290), (5301, 5310), (5321, 5330),
    (5341, 5350), (5361, 5370), (5381, 5390), (5399, 5399), (5400, 5400), (5401, 5409), (5420, 5428),
    (5599, 5599)]

/-- `id < ngc_ro_params[0].id_min` -/
def ngcParamIsRw (id : ℕ) : Bool := 0 < id ∧ id < 5061

/-- Parameters above 30 belong to nobody. -/
def Params.paramContext (s : Params γ ν μ) (id : ℕ) : Option γ := if 30 < id then none else s.callContext

/-- Whether the parameter exists, and its value. -/
def ngcParamGet (ro : ReadOnly ν) (s : Params γ ν μ) (id : ℕ) : Bool × ν :=
  if ngcParamIsRw id then (true, (s.rwParams.getValue (s.paramContext id) id).getD 0)
  else if ngcRoParams.any fun r => r.1 ≤ id ∧ id ≤ r.2 then (true, ro.number id)
  else (false, 0)

/-- Whether the parameter can be written. Zero is not worth a node. -/
def ngcParamSet (s : Params γ ν μ) (id : ℕ) (value : ν) : Bool × Params γ ν μ :=
  if ngcParamIsRw id then
    (true, { s with rwParams := s.rwParams.setValue (s.paramContext id) id value (value ≠ 0) })
  else (false, s)

/-! ## Names -/

def ngcNamedRoParam : List String :=
  ["_vmajor", "_vminor", "_line", "_motion_mode", "_plane", "_ccomp", "_metric", "_imperial", "_absolute",
    "_incremental", "_inverse_time", "_units_per_minute", "_units_per_rev", "_coord_system",
    "_tool_offset", "_retract_r_plane", "_retract_old_z", "_spindle_rpm_mode", "_spindle_css_mode",
    "_ijk_absolute_mode", "_lathe_diameter_mode", "_lathe_radius_mode", "_spindle_on", "_spindle_cw",
    "_mist", "_flood", "_speed_override", "_feed_override", "_adaptive_feed", "_feed_hold", "_feed", "_rpm",
    "_x", "_y", "_z", "_a", "_b", "_c", "_u", "_v", "_w", "_abs_x", "_abs_y", "_abs_z", "_abs_a", "_abs_b",
    "_abs_c", "_abs_u", "_abs_v", "_abs_w", "_current_tool", "_current_pocket", "_selected_tool",
    "_selected_pocket", "_call_level", "_probe_state", "_probe2_state", "_toolsetter_state",
    "_active_probe", "_homed_state", "_homed_axes", "_tool_table_size", "_free_memory"]

/-- `LCAPS(c)` -/
def lcaps (c : Char) : Char := if 'A' ≤ c ∧ c ≤ 'Z' then Char.ofNat (c.toNat + 32) else c

/-- Lower case, without control characters and spaces; `len` characters have been copied. -/
def nameToLowerFrom : ℕ → List Char → List Char
  | _, [] => []
  | len, c :: cs =>
      if ngcMaxParamLength < len then []
      else if ' ' < c then lcaps c :: nameToLowerFrom (len + 1) cs
      else nameToLowerFrom len cs

def ngcNameToLower (name : List Char) : List Char := nameToLowerFrom 0 name

def nameSupplied (name : List Char) : Bool := name ≠ [] ∧ name ≠ ['_']

def isGlobalName (name : List Char) : Bool := name.head? = some '_'

/-- The predefined parameter with this name; the table is searched from its end. -/
def roParam (name : List Char) : Option String :=
  if isGlobalName name then ngcNamedRoParam.reverse.find? fun s => s.toList = name else none

/-- Names that start with an underscore belong to nobody. -/
def Params.nameContext (s : Params γ ν μ) (name : List Char) : Option γ :=
  if isGlobalName name then none else s.callContext

/-- The value of the parameter, if it is found. -/
def ngcNamedParamGet (ro : ReadOnly ν) (s : Params γ ν μ) (name : List Char) : Option ν :=
  let name := ngcNameToLower name
  if nameSupplied name then
    match roParam name with
    | some predefined => some (ro.name predefined)
    | none => s.rwGlobalParams.getValue (s.nameContext name) name
  else none

/-- Whether a pointer is returned. A predefined parameter is left alone, yet the address of the value
field at the null pointer, which is not null, is returned for it. -/
def ngcNamedParamSet (s : Params γ ν μ) (name : List Char) (value : ν) : Bool × Params γ ν μ :=
  let name := ngcNameToLower name
  if nameSupplied name then
    match roParam name with
    | some _ => (true, s)
    | none =>
        if name.length ≤ ngcMaxParamLength then
          (true, { s with
            rwGlobalParams := s.rwGlobalParams.setValue (s.nameContext name) name value true })
        else (false, s)
  else (false, s)

/-! ## Calls -/

/-- One level deeper, unless the levels are used up. -/
def ngcCallPush (s : Params γ ν μ) (context : Option γ) : Bool × Params γ ν μ :=
  if s.callLevels.length < ngcMaxCallLevel then
    (true, { s with callLevels := ⟨context, none⟩ :: s.callLevels, callContext := context })
  else (false, s)

/-- The parameters of the innermost call go. -/
def freeCallParams (s : Params γ ν μ) : Params γ ν μ :=
  if s.callContext.isSome then
    { s with rwParams := s.rwParams.freeContext s.callContext
             rwGlobalParams := s.rwGlobalParams.freeContext s.callContext }
  else s

/-- The snapshot that is to be restored is returned. -/
def ngcCallPop (autoRestore : μ → Bool) (s : Params γ ν μ) : Option μ × Params γ ν μ :=
  match s.callLevels with
  | [] => (none, s)
  | level :: callLevels =>
      (level.modalState.filter autoRestore,
        { freeCallParams s with
          callLevels := callLevels, callContext := callLevels.head?.bind CallLevel.context })

/-- The level counted by the parser: 0 outside calls. -/
def ngcCallLevel (s : Params γ ν μ) : ℕ := s.callLevels.length

def ngcModalStateGet (s : Params γ ν μ) : Option μ :=
  match s.callLevels with
  | [] => s.modalState
  | level :: _ => level.modalState

/-- `*saved_state = snapshot` -/
def setModalState (s : Params γ ν μ) (snapshot : Option μ) : Params γ ν μ :=
  match s.callLevels with
  | [] => { s with modalState := snapshot }
  | level :: callLevels => { s with callLevels := { level with modalState := snapshot } :: callLevels }

def ngcModalStateSave (s : Params γ ν μ) (snapshot : μ) : Params γ ν μ := setModalState s (some snapshot)

def ngcModalStateInvalidate (s : Params γ ν μ) : Params γ ν μ := setModalState s none

end Grbl.Ngc
