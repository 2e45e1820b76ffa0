import Mathlib
import Grbl.Lib.Run
import Grbl.Ngc.Params

/-!
# The parameters are a stack of scopes

* `Scopes` : global parameters, those of the innermost call, and those of its callers;
* `ParamList.Ok` : the list ends, its nodes are allocated, and no two hold the same parameter;
* `getValue_setValue`, `getValue_freeContext` : what the loops over a list do to the values in it;
* `Represents` : the scopes a state of the module stands for; every call keeps it;
* `params_are_scoped` : what is read after any sequence of calls.
-/

namespace Grbl.Ngc

open Lib

/-! ## Scopes -/

structure Scope (ν : Type) where
  number : ℕ → ν
  name : List Char → Option ν

/-- The callers' scopes are listed from the innermost outwards. -/
structure Scopes (ν : Type) where
  globals : Scope ν
  inner : Scope ν
  callers : List (Scope ν)

inductive ParamCall (γ ν : Type)
  | setNumber (id : ℕ) (value : ν)
  | setName (name : List Char) (value : ν)
  | push (context : Option γ)
  | pop

/-- Names are compared in lower case and without control characters and spaces. -/
def plainName (name : List Char) : List Char := (name.filter fun c => ' ' < c).map lcaps

section
variable {γ ν : Type} [Zero ν]

def Scope.empty : Scope ν := ⟨fun _ => 0, fun _ => none⟩

def Scope.setNumber (s : Scope ν) (id : ℕ) (value : ν) : Scope ν :=
  { s with number := Function.update s.number id value }

def Scope.setName (s : Scope ν) (name : List Char) (value : ν) : Scope ν :=
  { s with name := Function.update s.name name (some value) }

omit [Zero ν] in
@[simp] theorem Scope.number_setNumber (s : Scope ν) (id : ℕ) (value : ν) :
    (s.setNumber id value).number id = value := Function.update_self ..

omit [Zero ν] in
theorem Scope.number_setNumber_of_ne (s : Scope ν) {id id' : ℕ} (value : ν) (h : id' ≠ id) :
    (s.setNumber id value).number id' = s.number id' := Function.update_of_ne h ..

omit [Zero ν] in
@[simp] theorem Scope.name_setName (s : Scope ν) (name : List Char) (value : ν) :
    (s.setName name value).name name = some value := Function.update_self ..

omit [Zero ν] in
theorem Scope.name_setName_of_ne (s : Scope ν) {name name' : List Char} (value : ν) (h : name' ≠ name) :
    (s.setName name value).name name' = s.name name' := Function.update_of_ne h ..

namespace Scopes

def initial : Scopes ν := ⟨.empty, .empty, []⟩

def lookupNumber (s : Scopes ν) (id : ℕ) : ν := if 30 < id then s.globals.number id else s.inner.number id

/-- Names that start with an underscore are global. -/
def lookupName (s : Scopes ν) (name : List Char) : Option ν :=
  let name := plainName name
  if isGlobalName name then s.globals.name name else s.inner.name name

def setNumber (s : Scopes ν) (id : ℕ) (value : ν) : Scopes ν :=
  if 30 < id then { s with globals := s.globals.setNumber id value }
  else { s with inner := s.inner.setNumber id value }

def setName (s : Scopes ν) (name : List Char) (value : ν) : Scopes ν :=
  let name := plainName name
  if isGlobalName name then { s with globals := s.globals.setName name value }
  else { s with inner := s.inner.setName name value }

def push (s : Scopes ν) : Scopes ν :=
  if s.callers.length < ngcMaxCallLevel then { s with inner := .empty, callers := s.inner :: s.callers }
  else s

def pop (s : Scopes ν) : Scopes ν :=
  match s.callers with
  | [] => s
  | scope :: callers => { s with inner := scope, callers := callers }

def call (s : Scopes ν) : ParamCall γ ν → Scopes ν
  | .setNumber id value => s.setNumber id value
  | .setName name value => s.setName name value
  | .push _ => s.push
  | .pop => s.pop

end Scopes

end

/-! ## The lists -/

namespace ParamList

variable {κ γ ν : Type}

def nodes (l : ParamList κ γ ν) : List ℕ := walk l.next l.fresh l.head

/-- The parameter a node holds. -/
def paramKey (l : ParamList κ γ ν) (a : ℕ) : Option (Option γ × κ) :=
  (l.node a).map fun p => (p.context, p.key)

/-- The parameters the nodes hold. -/
def keys (l : ParamList κ γ ν) : List (Option (Option γ × κ)) := l.nodes.map l.paramKey

structure Ok (l : ParamList κ γ ν) : Prop where
  linked : Linked l.next l.head l.nodes
  alloc : ∀ a ∈ l.nodes, a < l.fresh ∧ l.paramKey a ≠ none
  nodup : l.keys.Nodup

variable {l : ParamList κ γ ν} {context context' : Option γ} {key key' : κ} {value : ν} {create : Bool}

theorem nodes_of_linked {as : List ℕ} (hl : Linked l.next l.head as) (ha : ∀ a ∈ as, a < l.fresh) :
    l.nodes = as := walk_linked hl (hl.length_le ha)

theorem ok_of_linked {as : List ℕ} (hl : Linked l.next l.head as)
    (ha : ∀ a ∈ as, a < l.fresh ∧ l.paramKey a ≠ none) (hnd : (as.map l.paramKey).Nodup) : l.Ok := by
  have has : l.nodes = as := nodes_of_linked hl fun a h => (ha a h).1
  exact ⟨by rwa [has], by rwa [has], by rwa [keys, has]⟩

theorem ok_empty : (ParamList.empty : ParamList κ γ ν).Ok := by
  have hl : Linked (ParamList.empty : ParamList κ γ ν).next (ParamList.empty : ParamList κ γ ν).head [] := rfl
  exact ok_of_linked hl (by simp) (by simp)

theorem paramKey_eq_some {a : ℕ} :
    l.paramKey a = some (context, key) ↔ ∃ value, l.node a = some ⟨context, key, value⟩ := by
  rw [paramKey, Option.map_eq_some_iff]
  constructor
  · rintro ⟨⟨c, k, v⟩, hn, heq⟩
    cases heq
    exact ⟨v, hn⟩
  · rintro ⟨v, hn⟩
    exact ⟨_, hn, rfl⟩

theorem Ok.fresh_not_mem (h : l.Ok) : l.fresh ∉ l.nodes := fun hmem => (h.alloc _ hmem).1.false

@[simp] theorem node_writeNode_self (a : ℕ) (p : RwParam κ γ ν) : (l.writeNode a p).node a = some p :=
  Function.update_self ..

theorem node_writeNode_of_ne {a b : ℕ} (p : RwParam κ γ ν) (hb : b ≠ a) :
    (l.writeNode a p).node b = l.node b := Function.update_of_ne hb ..

@[simp] theorem node_addLast_fresh (last : Option ℕ) (p : RwParam κ γ ν) :
    (l.addLast last p).node l.fresh = some p := Function.update_self ..

theorem node_addLast_of_ne {a : ℕ} (last : Option ℕ) (p : RwParam κ γ ν) (ha : a ≠ l.fresh) :
    (l.addLast last p).node a = l.node a := Function.update_of_ne ha ..

theorem Ok.linked_addLast (h : l.Ok) (p : RwParam κ γ ν) :
    Linked (l.addLast (l.nodes.getLast?.or l.head) p).next (l.addLast (l.nodes.getLast?.or l.head) p).head
      (l.nodes ++ [l.fresh]) := by
  have hl := h.linked
  have hfresh := h.fresh_not_mem
  generalize l.nodes = as at hl hfresh
  rcases List.eq_nil_or_concat as with rfl | ⟨as, b, rfl⟩
  · have hhead : l.head = none := hl
    simp [addLast, hhead, relink]
  · rw [List.concat_eq_append] at hl hfresh ⊢
    have hhead : l.head ≠ none := by
      rw [hl.head]
      simp
    have hnext : l.next b = none := hl.tail.head
    have hins := hl.insert hfresh
    rw [hnext] at hins
    simpa [addLast, hhead, relink] using hins

theorem paramKey_addLast {last : Option ℕ} {p : RwParam κ γ ν} {a : ℕ} (ha : a ≠ l.fresh) :
    (l.addLast last p).paramKey a = l.paramKey a := by
  rw [paramKey, paramKey, node_addLast_of_ne _ _ ha]

theorem paramKey_addLast_fresh {last : Option ℕ} {p : RwParam κ γ ν} :
    (l.addLast last p).paramKey l.fresh = some (p.context, p.key) := by
  rw [paramKey, node_addLast_fresh]
  rfl

theorem paramKey_writeNode {a b : ℕ} (hkey : l.paramKey a = some (context, key)) :
    (l.writeNode a ⟨context, key, value⟩).paramKey b = l.paramKey b := by
  by_cases hb : b = a
  · rw [hb, hkey, paramKey, node_writeNode_self]
    rfl
  · rw [paramKey, paramKey, node_writeNode_of_ne _ hb]

theorem Ok.addLast (h : l.Ok) (hkey : ∀ a ∈ l.nodes, l.paramKey a ≠ some (context, key)) :
    (l.addLast (l.nodes.getLast?.or l.head) ⟨context, key, value⟩).Ok := by
  have hne : ∀ a ∈ l.nodes, a ≠ l.fresh := fun a ha => (h.alloc a ha).1.ne
  have hmap : l.nodes.map (l.addLast (l.nodes.getLast?.or l.head) ⟨context, key, value⟩).paramKey = l.keys :=
    List.map_congr_left fun a ha => paramKey_addLast (hne a ha)
  refine ok_of_linked (h.linked_addLast _) (fun a ha => ?_) ?_
  · rcases List.mem_append.1 ha with ha | ha
    · rw [paramKey_addLast (hne a ha)]
      exact ⟨(h.alloc a ha).1.trans (Nat.lt_succ_self _), (h.alloc a ha).2⟩
    · rw [List.mem_singleton.1 ha, paramKey_addLast_fresh]
      exact ⟨Nat.lt_succ_self _, by simp⟩
  · rw [List.map_append, hmap, List.map_singleton, paramKey_addLast_fresh]
    refine List.nodup_append.2 ⟨h.nodup, List.nodup_singleton _, ?_⟩
    intro x hx y hy hxy
    obtain ⟨a, ha, rfl⟩ := List.mem_map.1 hx
    rw [List.mem_singleton] at hy
    exact hkey a ha (hxy.trans hy)

theorem Ok.nodes_addLast (h : l.Ok) (p : RwParam κ γ ν) :
    (l.addLast (l.nodes.getLast?.or l.head) p).nodes = l.nodes ++ [l.fresh] := by
  refine nodes_of_linked (h.linked_addLast p) fun a ha => ?_
  rcases List.mem_append.1 ha with ha | ha
  · exact (h.alloc a ha).1.trans (Nat.lt_succ_self _)
  · rw [List.mem_singleton.1 ha]
    exact Nat.lt_succ_self _

variable [DecidableEq κ] [DecidableEq γ]

theorem isParam_iff {a : ℕ} : l.isParam context key a = true ↔ l.paramKey a = some (context, key) := by
  rw [isParam, paramKey]
  cases l.node a <;> simp

theorem Ok.search (h : l.Ok) : l.search context key =
    (l.nodes.find? (l.isParam context key),
      ((l.nodes.takeWhile fun a => !l.isParam context key a).getLast?).or l.head) :=
  scan_linked h.linked (h.linked.length_le fun a ha => (h.alloc a ha).1)

theorem Ok.getValue_eq_some (h : l.Ok) {v : ν} :
    l.getValue context key = some v ↔ ∃ a ∈ l.nodes, l.node a = some ⟨context, key, v⟩ := by
  rw [ParamList.getValue, h.search, Option.bind_eq_some_iff]
  constructor
  · rintro ⟨a, ha, hv⟩
    obtain ⟨w, hw⟩ := paramKey_eq_some.1 (isParam_iff.1 (List.find?_some ha))
    rw [hw] at hv
    cases hv
    exact ⟨a, List.mem_of_find?_eq_some ha, hw⟩
  · rintro ⟨a, ha, hn⟩
    have hkey : l.paramKey a = some (context, key) := paramKey_eq_some.2 ⟨v, hn⟩
    cases hf : l.nodes.find? (l.isParam context key) with
    | none => exact absurd (isParam_iff.2 hkey) (by simpa using List.find?_eq_none.1 hf a ha)
    | some b =>
        have hb : l.paramKey b = some (context, key) := isParam_iff.1 (List.find?_some hf)
        have hba : b = a :=
          List.inj_on_of_nodup_map h.nodup (List.mem_of_find?_eq_some hf) ha (hb.trans hkey.symm)
        exact ⟨b, rfl, by rw [hba, hn]; rfl⟩

theorem Ok.getValue_eq_none (h : l.Ok) :
    l.getValue context key = none ↔ ∀ a ∈ l.nodes, l.paramKey a ≠ some (context, key) := by
  rw [Option.eq_none_iff_forall_ne_some]
  constructor
  · intro hv a ha hkey
    obtain ⟨v, hn⟩ := paramKey_eq_some.1 hkey
    exact hv v (h.getValue_eq_some.2 ⟨a, ha, hn⟩)
  · intro hkey v hv
    obtain ⟨a, ha, hn⟩ := h.getValue_eq_some.1 hv
    exact hkey a ha (paramKey_eq_some.2 ⟨v, hn⟩)

theorem getValue_empty : (ParamList.empty : ParamList κ γ ν).getValue context key = none := rfl

/-! ### Writing -/

theorem Ok.setValue_of_mem (h : l.Ok) {a : ℕ} (ha : a ∈ l.nodes)
    (hkey : l.paramKey a = some (context, key)) :
    l.setValue context key value create = l.writeNode a ⟨context, key, value⟩ := by
  have hf : l.nodes.find? (l.isParam context key) = some a := by
    cases hf : l.nodes.find? (l.isParam context key) with
    | none => exact absurd (isParam_iff.2 hkey) (by simpa using List.find?_eq_none.1 hf a ha)
    | some b =>
        have hb : l.paramKey b = some (context, key) := isParam_iff.1 (List.find?_some hf)
        rw [List.inj_on_of_nodup_map h.nodup (List.mem_of_find?_eq_some hf) ha (hb.trans hkey.symm)]
  rw [setValue, h.search, hf]

theorem Ok.setValue_of_forall (h : l.Ok) (hkey : ∀ a ∈ l.nodes, l.paramKey a ≠ some (context, key)) :
    l.setValue context key value create =
      if create then l.addLast (l.nodes.getLast?.or l.head) ⟨context, key, value⟩ else l := by
  have hnot : ∀ a ∈ l.nodes, l.isParam context key a = false := fun a ha =>
    Bool.eq_false_iff.2 fun hp => hkey a ha (isParam_iff.1 hp)
  have hf : l.nodes.find? (l.isParam context key) = none :=
    List.find?_eq_none.2 fun a ha => by simp [hnot a ha]
  have ht : l.nodes.takeWhile (fun a => !l.isParam context key a) = l.nodes :=
    List.takeWhile_eq_self_iff.2 fun a ha => by simp [hnot a ha]
  rw [setValue, h.search, hf, ht]

theorem Ok.setValue (h : l.Ok) : (l.setValue context key value create).Ok := by
  by_cases hkey : ∃ a ∈ l.nodes, l.paramKey a = some (context, key)
  · obtain ⟨a, ha, hkey⟩ := hkey
    rw [h.setValue_of_mem ha hkey]
    refine ok_of_linked h.linked (fun b hb => ?_) ?_
    · rw [paramKey_writeNode hkey]
      exact h.alloc b hb
    · rw [List.map_congr_left fun b _ => paramKey_writeNode hkey]
      exact h.nodup
  · have hkey' : ∀ a ∈ l.nodes, l.paramKey a ≠ some (context, key) := by simpa using hkey
    rw [h.setValue_of_forall hkey']
    cases create with
    | true => exact h.addLast hkey'
    | false => exact h

theorem Ok.getValue_setValue_self (h : l.Ok)
    (hc : create = true ∨ l.getValue context key ≠ none) :
    (l.setValue context key value create).getValue context key = some value := by
  have hok : (l.setValue context key value create).Ok := h.setValue
  by_cases hkey : ∃ a ∈ l.nodes, l.paramKey a = some (context, key)
  · obtain ⟨a, ha, hkey⟩ := hkey
    rw [h.setValue_of_mem ha hkey] at hok ⊢
    exact hok.getValue_eq_some.2 ⟨a, ha, node_writeNode_self ..⟩
  · have hkey' : ∀ a ∈ l.nodes, l.paramKey a ≠ some (context, key) := by simpa using hkey
    have hcreate : create = true := hc.resolve_right fun hv => hv (h.getValue_eq_none.2 hkey')
    rw [h.setValue_of_forall hkey', if_pos hcreate] at hok ⊢
    refine hok.getValue_eq_some.2 ⟨l.fresh, ?_, node_addLast_fresh ..⟩
    rw [h.nodes_addLast]
    simp

theorem Ok.setValue_of_not_create (h : l.Ok) (hv : l.getValue context key = none) :
    l.setValue context key value false = l := by
  rw [h.setValue_of_forall (h.getValue_eq_none.1 hv), if_neg (by simp)]

theorem Ok.getValue_setValue_of_ne (h : l.Ok) (hne : (context', key') ≠ (context, key)) :
    (l.setValue context key value create).getValue context' key' = l.getValue context' key' := by
  have hok : (l.setValue context key value create).Ok := h.setValue
  ext v
  rw [hok.getValue_eq_some, h.getValue_eq_some]
  by_cases hkey : ∃ a ∈ l.nodes, l.paramKey a = some (context, key)
  · obtain ⟨a, ha, hkey⟩ := hkey
    rw [h.setValue_of_mem ha hkey]
    refine exists_congr fun b => and_congr_right fun _ => ?_
    by_cases hb : b = a
    · obtain ⟨w, hw⟩ := paramKey_eq_some.1 hkey
      rw [hb, node_writeNode_self, hw]
      constructor
      · intro heq
        cases heq
        exact absurd rfl hne
      · intro heq
        cases heq
        exact absurd rfl hne
    · rw [node_writeNode_of_ne _ hb]
  · have hkey' : ∀ a ∈ l.nodes, l.paramKey a ≠ some (context, key) := by simpa using hkey
    rw [h.setValue_of_forall hkey']
    cases create with
    | false => rfl
    | true =>
        rw [if_pos rfl, h.nodes_addLast]
        constructor
        · rintro ⟨b, hb, hn⟩
          rcases List.mem_append.1 hb with hb | hb
          · rw [node_addLast_of_ne _ _ (h.alloc b hb).1.ne] at hn
            exact ⟨b, hb, hn⟩
          · rw [List.mem_singleton.1 hb, node_addLast_fresh] at hn
            cases hn
            exact absurd rfl hne
        · rintro ⟨b, hb, hn⟩
          refine ⟨b, List.mem_append_left _ hb, ?_⟩
          rw [node_addLast_of_ne _ _ (h.alloc b hb).1.ne]
          exact hn

/-! ### The end of a call -/

omit [DecidableEq κ] in
theorem inContext_iff {a : ℕ} :
    l.inContext context a = true ↔ ∃ key, l.paramKey a = some (context, key) := by
  rw [inContext, paramKey]
  cases l.node a <;> simp

omit [DecidableEq κ] in
theorem Ok.linked_freeContext (h : l.Ok) :
    Linked (l.freeContext context).next (l.freeContext context).head
      (l.nodes.filter fun a => !l.inContext context a) := by
  have hlen : l.nodes.length ≤ l.fresh := h.linked.length_le fun a ha => (h.alloc a ha).1
  have hlinked : Linked l.next l.head ([] ++ l.nodes) := h.linked
  have hpurge : Linked (purge (l.inContext context) l.fresh l.next l.head l.nodes.head? l.head).1
      (purge (l.inContext context) l.fresh l.next l.head l.nodes.head? l.head).2
      ([] ++ l.nodes.filter fun a => !l.inContext context a) :=
    purge_linked hlinked (by simp) (fun hne => absurd rfl hne) hlen
  rw [← h.linked.head] at hpurge
  exact hpurge

omit [DecidableEq κ] in
theorem Ok.nodes_freeContext (h : l.Ok) :
    (l.freeContext context).nodes = l.nodes.filter fun a => !l.inContext context a :=
  nodes_of_linked h.linked_freeContext fun a ha => (h.alloc a (List.mem_of_mem_filter ha)).1

omit [DecidableEq κ] in
theorem Ok.freeContext (h : l.Ok) : (l.freeContext context).Ok := by
  refine ok_of_linked h.linked_freeContext (fun a ha => h.alloc a (List.mem_of_mem_filter ha)) ?_
  exact h.nodup.sublist (List.filter_sublist.map _)

theorem Ok.getValue_freeContext (h : l.Ok) :
    (l.freeContext context).getValue context' key =
      if context' = context then none else l.getValue context' key := by
  have hok : (l.freeContext context).Ok := h.freeContext
  split
  case isTrue hc =>
    rw [hc, hok.getValue_eq_none, h.nodes_freeContext]
    intro a ha hkey
    have hin : l.inContext context a = true := inContext_iff.2 ⟨key, hkey⟩
    simp [hin] at ha
  case isFalse hc =>
    ext v
    rw [hok.getValue_eq_some, h.getValue_eq_some, h.nodes_freeContext]
    refine exists_congr fun a => ?_
    constructor
    · rintro ⟨ha, hn⟩
      exact ⟨List.mem_of_mem_filter ha, hn⟩
    · rintro ⟨ha, hn⟩
      refine ⟨List.mem_filter.2 ⟨ha, ?_⟩, hn⟩
      have hnot : l.inContext context a = false := by
        rw [inContext, hn]
        simpa using hc
      simp [hnot]

theorem Ok.getD_setValue [Zero ν] [DecidableEq ν] (h : l.Ok) :
    ((l.setValue context key value (value ≠ 0)).getValue context' key').getD 0 =
      if (context', key') = (context, key) then value else (l.getValue context' key').getD 0 := by
  split
  case isFalse hne => rw [h.getValue_setValue_of_ne hne]
  case isTrue heq =>
    cases heq
    by_cases hv : value ≠ 0 ∨ l.getValue context key ≠ none
    · rw [h.getValue_setValue_self (by simpa using hv)]
      rfl
    · obtain ⟨hzero, hnone⟩ : value = 0 ∧ l.getValue context key = none := by simpa using hv
      rw [show decide (value ≠ 0) = false by simp [hzero], h.setValue_of_not_create hnone, hnone, hzero]
      rfl

end ParamList

/-! ## The simulation -/

section
variable {γ ν μ : Type} [DecidableEq γ] [DecidableEq ν] [Zero ν]

/-- The contexts that are still active, from the innermost call outwards. -/
def Params.contexts (s : Params γ ν μ) : List (Option γ) := s.callLevels.map CallLevel.context ++ [none]

def Params.call (s : Params γ ν μ) : ParamCall γ ν → Params γ ν μ
  | .setNumber id value => (ngcParamSet s id value).2
  | .setName name value => (ngcNamedParamSet s name value).2
  | .push context => (ngcCallPush s context).2
  | .pop => (ngcCallPop (fun _ => false) s).2

/-- Names are short enough, and no active context is pushed. -/
def Params.Admissible (s : Params γ ν μ) : ParamCall γ ν → Prop
  | .setName name _ => name.length ≤ ngcMaxParamLength
  | .push context => context ∉ s.contexts
  | _ => True

/-- The name of a parameter that can be written. -/
def NameIsRw (name : List Char) : Prop := nameSupplied name = true ∧ roParam name = none

/-- The nodes of a context are the parameters of a scope. -/
structure Holds (s : Params γ ν μ) (context : Option γ) (scope : Scope ν) : Prop where
  number : ∀ id, ngcParamIsRw id = true → id ≤ 30 →
    (s.rwParams.getValue context id).getD 0 = scope.number id
  name : ∀ name, NameIsRw name → isGlobalName name = false →
    s.rwGlobalParams.getValue context name = scope.name name

/-- The state of the module stands for the scopes. -/
structure Represents (s : Params γ ν μ) (r : Scopes ν) : Prop where
  okNumbers : s.rwParams.Ok
  okNames : s.rwGlobalParams.Ok
  contexts : s.contexts = s.callContext :: s.contexts.tail
  notCaller : s.callContext ∉ s.contexts.tail
  nodup : s.contexts.tail.Nodup
  depth : s.callLevels.length = r.callers.length
  inner : Holds s s.callContext r.inner
  callers : ∀ x ∈ s.contexts.tail.zip r.callers, Holds s x.1 x.2
  number : ∀ id, ngcParamIsRw id = true → 30 < id →
    (s.rwParams.getValue none id).getD 0 = r.globals.number id
  name : ∀ name, NameIsRw name → isGlobalName name = true →
    s.rwGlobalParams.getValue none name = r.globals.name name
  unused : ∀ context ∉ s.contexts, (∀ id, s.rwParams.getValue context id = none) ∧
    ∀ name, s.rwGlobalParams.getValue context name = none

omit [DecidableEq ν] in
theorem represents_initial : Represents ({} : Params γ ν μ) (Scopes.initial : Scopes ν) where
  okNumbers := ParamList.ok_empty
  okNames := ParamList.ok_empty
  contexts := rfl
  notCaller := List.not_mem_nil
  nodup := List.nodup_nil
  depth := rfl
  inner := ⟨fun _ _ _ => rfl, fun _ _ _ => rfl⟩
  callers _ hx := absurd hx (by simp [Params.contexts])
  number _ _ _ := rfl
  name _ _ _ := rfl
  unused _ _ := ⟨fun _ => rfl, fun _ => rfl⟩

variable {s s' : Params γ ν μ} {r : Scopes ν} {scope : Scope ν}

omit [DecidableEq ν] in
theorem Holds.congr {context : Option γ} (h : Holds s context scope)
    (hnumber : ∀ id ≤ 30, (s'.rwParams.getValue context id).getD 0 = (s.rwParams.getValue context id).getD 0)
    (hname : ∀ name, isGlobalName name = false →
      s'.rwGlobalParams.getValue context name = s.rwGlobalParams.getValue context name) :
    Holds s' context scope :=
  ⟨fun id hrw hid => (hnumber id hid).trans (h.number id hrw hid),
    fun name hrw hg => (hname name hg).trans (h.name name hrw hg)⟩

omit [DecidableEq γ] [DecidableEq ν] [Zero ν] in
theorem none_mem_contexts : none ∈ s.contexts := List.mem_append_right _ (List.mem_singleton_self _)

omit [DecidableEq ν] in
theorem Represents.callContext_mem (h : Represents s r) : s.callContext ∈ s.contexts := by
  rw [h.contexts]
  exact List.mem_cons_self

omit [DecidableEq ν] in
theorem Represents.ne_of_caller (h : Represents s r) {x : Option γ × Scope ν}
    (hx : x ∈ s.contexts.tail.zip r.callers) : x.1 ≠ s.callContext := by
  intro heq
  exact h.notCaller (heq ▸ (List.of_mem_zip hx).1)

/-! ### Numbers -/

omit [DecidableEq ν] in
theorem Represents.paramContext_mem (h : Represents s r) (id : ℕ) : s.paramContext id ∈ s.contexts := by
  rw [Params.paramContext]
  split
  · exact none_mem_contexts
  · exact h.callContext_mem

theorem represents_setNumber_of_rw (h : Represents s r) {id : ℕ} (hid : ngcParamIsRw id = true) (value : ν) :
    Represents (ngcParamSet s id value).2 (r.setNumber id value) := by
  set l := s.rwParams.setValue (s.paramContext id) id value (value ≠ 0) with hl
  have hset : (ngcParamSet s id value).2 = { s with rwParams := l } := by rw [ngcParamSet, if_pos hid]
  have hread : ∀ context id', (l.getValue context id').getD 0 =
      if (context, id') = (s.paramContext id, id) then value
      else (s.rwParams.getValue context id').getD 0 := fun _ _ => h.okNumbers.getD_setValue
  have hother : ∀ context id', id' ≠ id →
      (l.getValue context id').getD 0 = (s.rwParams.getValue context id').getD 0 := by
    intro context id' hne
    rw [hread, if_neg fun heq => hne (congrArg Prod.snd heq)]
  have hunused : ∀ context ∉ s.contexts, (∀ id', l.getValue context id' = none) ∧
      ∀ name, s.rwGlobalParams.getValue context name = none := by
    intro context hc
    refine ⟨fun id' => ?_, (h.unused context hc).2⟩
    have hne : context ≠ s.paramContext id := fun heq => hc (heq ▸ h.paramContext_mem id)
    have hkey : (context, id') ≠ (s.paramContext id, id) := fun heq => hne (congrArg Prod.fst heq)
    rw [hl, h.okNumbers.getValue_setValue_of_ne hkey]
    exact (h.unused context hc).1 id'
  rw [hset, Scopes.setNumber]
  by_cases hg : 30 < id
  · rw [if_pos hg]
    have hglobal : ∀ id', ngcParamIsRw id' = true → 30 < id' →
        (l.getValue none id').getD 0 = (r.globals.setNumber id value).number id' := by
      intro id' hrw hid'
      rw [hread, Params.paramContext, if_pos hg]
      by_cases heq : id' = id
      · simp [heq]
      · rw [if_neg (by simp [heq]), h.number id' hrw hid', Scope.number_setNumber_of_ne _ _ heq]
    exact { h with
      okNumbers := h.okNumbers.setValue
      inner := h.inner.congr (fun id' hid' => hother _ _ (by omega)) fun _ _ => rfl
      callers := fun x hx => (h.callers x hx).congr (fun id' hid' => hother _ _ (by omega)) fun _ _ => rfl
      number := hglobal
      unused := hunused }
  · rw [if_neg hg]
    have hcontext : s.paramContext id = s.callContext := if_neg hg
    have hinner : Holds { s with rwParams := l } s.callContext (r.inner.setNumber id value) := by
      refine ⟨fun id' hrw hid' => ?_, h.inner.name⟩
      show (l.getValue s.callContext id').getD 0 = _
      rw [hread, hcontext]
      by_cases heq : id' = id
      · simp [heq]
      · rw [if_neg (by simp [heq]), h.inner.number id' hrw hid', Scope.number_setNumber_of_ne _ _ heq]
    have hcallers : ∀ x ∈ s.contexts.tail.zip r.callers, Holds { s with rwParams := l } x.1 x.2 := by
      intro x hx
      refine (h.callers x hx).congr (fun id' hid' => ?_) fun _ _ => rfl
      show (l.getValue x.1 id').getD 0 = _
      rw [hread, hcontext, if_neg fun heq => h.ne_of_caller hx (congrArg Prod.fst heq)]
    exact { h with
      okNumbers := h.okNumbers.setValue
      inner := hinner
      callers := hcallers
      number := fun id' hrw hid' => (hother none id' (by omega)).trans (h.number id' hrw hid')
      unused := hunused }

theorem represents_setNumber_of_not_rw (h : Represents s r) {id : ℕ} (hid : ¬ngcParamIsRw id = true)
    (value : ν) : Represents (ngcParamSet s id value).2 (r.setNumber id value) := by
  have hother : ∀ (scope : Scope ν) id', ngcParamIsRw id' = true →
      (scope.setNumber id value).number id' = scope.number id' := by
    intro scope id' hrw
    refine scope.number_setNumber_of_ne value ?_
    rintro rfl
    exact hid hrw
  rw [ngcParamSet, if_neg hid, Scopes.setNumber]
  split
  · exact { h with
      number := fun id' hrw hid' => (h.number id' hrw hid').trans (hother r.globals id' hrw).symm }
  · exact { h with
      inner := ⟨fun id' hrw hid' => (h.inner.number id' hrw hid').trans (hother r.inner id' hrw).symm,
        h.inner.name⟩ }

/-! ### Names -/

theorem nameToLowerFrom_eq : ∀ (len : ℕ) (name : List Char), len + name.length ≤ ngcMaxParamLength →
    nameToLowerFrom len name = plainName name
  | _, [], _ => rfl
  | len, c :: cs, h => by
      rw [List.length_cons] at h
      rw [nameToLowerFrom, if_neg (by omega), plainName]
      by_cases hc : ' ' < c
      · rw [if_pos hc, List.filter_cons_of_pos (by simpa using hc), List.map_cons,
          nameToLowerFrom_eq (len + 1) cs (by omega)]
        rfl
      · rw [if_neg hc, List.filter_cons_of_neg (by simpa using hc), nameToLowerFrom_eq len cs (by omega)]
        rfl

theorem ngcNameToLower_eq {name : List Char} (h : name.length ≤ ngcMaxParamLength) :
    ngcNameToLower name = plainName name := nameToLowerFrom_eq 0 name (by omega)

theorem length_plainName_le (name : List Char) : (plainName name).length ≤ name.length := by
  rw [plainName, List.length_map]
  exact List.length_filter_le _ _

omit [DecidableEq ν] in
theorem Represents.nameContext_mem (h : Represents s r) (name : List Char) :
    s.nameContext name ∈ s.contexts := by
  rw [Params.nameContext]
  split
  · exact none_mem_contexts
  · exact h.callContext_mem

omit [DecidableEq ν] [Zero ν] in
theorem ngcNamedParamSet_of_rw {name : List Char} (hlen : name.length ≤ ngcMaxParamLength)
    (hname : NameIsRw (plainName name)) (value : ν) :
    (ngcNamedParamSet s name value).2 = { s with
      rwGlobalParams := s.rwGlobalParams.setValue (s.nameContext (plainName name)) (plainName name) value true } := by
  simp only [ngcNamedParamSet, ngcNameToLower_eq hlen, hname.1, hname.2, if_true,
    if_pos ((length_plainName_le name).trans hlen)]

omit [DecidableEq ν] [Zero ν] in
theorem ngcNamedParamSet_of_not_rw {name : List Char} (hlen : name.length ≤ ngcMaxParamLength)
    (hname : ¬NameIsRw (plainName name)) (value : ν) : (ngcNamedParamSet s name value).2 = s := by
  simp only [ngcNamedParamSet, ngcNameToLower_eq hlen]
  by_cases hs : nameSupplied (plainName name) = true
  · rw [if_pos hs]
    cases hro : roParam (plainName name) with
    | none => exact absurd ⟨hs, hro⟩ hname
    | some _ => rfl
  · rw [if_neg hs]

omit [DecidableEq ν] in
theorem represents_setName_of_rw (h : Represents s r) {name : List Char}
    (hlen : name.length ≤ ngcMaxParamLength) (hname : NameIsRw (plainName name)) (value : ν) :
    Represents (ngcNamedParamSet s name value).2 (r.setName name value) := by
  rw [ngcNamedParamSet_of_rw hlen hname, Scopes.setName]
  generalize plainName name = key at hname ⊢
  set l := s.rwGlobalParams.setValue (s.nameContext key) key value true with hl
  have hself : l.getValue (s.nameContext key) key = some value :=
    h.okNames.getValue_setValue_self (Or.inl rfl)
  have hother : ∀ context key', (context, key') ≠ (s.nameContext key, key) →
      l.getValue context key' = s.rwGlobalParams.getValue context key' := fun _ _ hne =>
    h.okNames.getValue_setValue_of_ne hne
  have hunused : ∀ context ∉ s.contexts, (∀ id, s.rwParams.getValue context id = none) ∧
      ∀ key', l.getValue context key' = none := by
    intro context hc
    refine ⟨(h.unused context hc).1, fun key' => ?_⟩
    have hne : context ≠ s.nameContext key := fun heq => hc (heq ▸ h.nameContext_mem key)
    rw [hother context key' fun heq => hne (congrArg Prod.fst heq)]
    exact (h.unused context hc).2 key'
  by_cases hg : isGlobalName key = true
  · have hcontext : s.nameContext key = none := if_pos hg
    have hlocal : ∀ context key', isGlobalName key' = false →
        l.getValue context key' = s.rwGlobalParams.getValue context key' := by
      intro context key' hg'
      refine hother context key' fun heq => ?_
      have hkey : key' = key := congrArg Prod.snd heq
      rw [hkey, hg] at hg'
      cases hg'
    have hglobal : ∀ key', NameIsRw key' → isGlobalName key' = true →
        l.getValue none key' = (r.globals.setName key value).name key' := by
      intro key' hrw hg'
      by_cases heq : key' = key
      · rw [heq, ← hcontext, hself, Scope.name_setName]
      · rw [hother none key' (by simp [heq]), h.name key' hrw hg', Scope.name_setName_of_ne _ _ heq]
    simp only [if_pos hg]
    exact { h with
      okNames := h.okNames.setValue
      inner := h.inner.congr (fun _ _ => rfl) (hlocal _)
      callers := fun x hx => (h.callers x hx).congr (fun _ _ => rfl) (hlocal _)
      name := hglobal
      unused := hunused }
  · have hcontext : s.nameContext key = s.callContext := if_neg hg
    have hinner : Holds { s with rwGlobalParams := l } s.callContext (r.inner.setName key value) := by
      refine ⟨h.inner.number, fun key' hrw hg' => ?_⟩
      show l.getValue s.callContext key' = _
      by_cases heq : key' = key
      · rw [heq, ← hcontext, hself, Scope.name_setName]
      · rw [hother _ key' (by simp [heq]), h.inner.name key' hrw hg', Scope.name_setName_of_ne _ _ heq]
    have hcallers : ∀ x ∈ s.contexts.tail.zip r.callers, Holds { s with rwGlobalParams := l } x.1 x.2 := by
      intro x hx
      refine (h.callers x hx).congr (fun _ _ => rfl) fun key' _ => hother _ _ fun heq => ?_
      exact h.ne_of_caller hx (hcontext ▸ congrArg Prod.fst heq)
    have hglobal : ∀ key', NameIsRw key' → isGlobalName key' = true →
        l.getValue none key' = r.globals.name key' := by
      intro key' hrw hg'
      have hne : key' ≠ key := by
        rintro rfl
        exact hg hg'
      rw [hother none key' (by simp [hne]), h.name key' hrw hg']
    simp only [if_neg hg]
    exact { h with
      okNames := h.okNames.setValue
      inner := hinner
      callers := hcallers
      name := hglobal
      unused := hunused }

omit [DecidableEq ν] in
theorem represents_setName_of_not_rw (h : Represents s r) {name : List Char}
    (hlen : name.length ≤ ngcMaxParamLength) (hname : ¬NameIsRw (plainName name)) (value : ν) :
    Represents (ngcNamedParamSet s name value).2 (r.setName name value) := by
  have hother : ∀ (scope : Scope ν) name', NameIsRw name' →
      (scope.setName (plainName name) value).name name' = scope.name name' := by
    intro scope name' hrw
    refine scope.name_setName_of_ne value ?_
    rintro rfl
    exact hname hrw
  rw [ngcNamedParamSet_of_not_rw hlen hname, Scopes.setName]
  split
  · exact { h with
      name := fun name' hrw hg => (h.name name' hrw hg).trans (hother r.globals name' hrw).symm }
  · exact { h with
      inner := ⟨h.inner.number, fun name' hrw hg =>
        (h.inner.name name' hrw hg).trans (hother r.inner name' hrw).symm⟩ }

/-! ### Calls -/

omit [DecidableEq ν] in
theorem represents_push (h : Represents s r) {context : Option γ} (hc : context ∉ s.contexts) :
    Represents (ngcCallPush s context).2 r.push := by
  rw [ngcCallPush, Scopes.push, h.depth]
  split
  case isFalse => exact h
  case isTrue hdepth =>
    have hempty : Holds { s with callLevels := ⟨context, none⟩ :: s.callLevels, callContext := context }
        context (Scope.empty : Scope ν) := by
      refine ⟨fun id _ _ => ?_, fun name _ _ => (h.unused context hc).2 name⟩
      show (s.rwParams.getValue context id).getD 0 = 0
      rw [(h.unused context hc).1 id]
      rfl
    have hcallers : ∀ x ∈ s.contexts.zip (r.inner :: r.callers),
        Holds { s with callLevels := ⟨context, none⟩ :: s.callLevels, callContext := context } x.1 x.2 := by
      intro x hx
      rw [h.contexts, List.zip_cons_cons] at hx
      rcases List.mem_cons.1 hx with rfl | hx
      · exact h.inner.congr (fun _ _ => rfl) fun _ _ => rfl
      · exact (h.callers x hx).congr (fun _ _ => rfl) fun _ _ => rfl
    exact { h with
      contexts := rfl
      notCaller := hc
      nodup := by
        show s.contexts.Nodup
        rw [h.contexts]
        exact List.nodup_cons.2 ⟨h.notCaller, h.nodup⟩
      depth := by simpa using h.depth
      inner := hempty
      callers := hcallers
      unused := fun context' hc' => h.unused context' fun hmem => hc' (List.mem_cons_of_mem _ hmem) }

omit [DecidableEq ν] in
theorem represents_pop (h : Represents s r) : Represents (ngcCallPop (fun _ => false) s).2 r.pop := by
  rw [ngcCallPop, Scopes.pop]
  have hdepth := h.depth
  cases hlevels : s.callLevels with
  | nil =>
      rw [hlevels] at hdepth
      rw [List.eq_nil_of_length_eq_zero hdepth.symm]
      exact h
  | cons level callLevels =>
      rw [hlevels] at hdepth
      obtain ⟨scope, callers, hcallers⟩ := List.exists_cons_of_length_eq_add_one hdepth.symm
      rw [hcallers]
      have htail : s.contexts.tail = callLevels.map CallLevel.context ++ [none] := by
        rw [Params.contexts, hlevels]
        rfl
      have hsome : s.callContext.isSome := by
        rw [Option.isSome_iff_ne_none]
        intro hnone
        refine h.notCaller ?_
        rw [hnone, htail]
        simp
      set context := callLevels.head?.bind CallLevel.context with hcontext
      have hcs : s.contexts.tail = context :: s.contexts.tail.tail := by
        rw [htail, hcontext]
        cases callLevels <;> rfl
      have hnd := h.nodup
      rw [hcs, List.nodup_cons] at hnd
      set s' : Params γ ν μ := { freeCallParams s with callLevels := callLevels, callContext := context }
        with hs'
      have hcontexts : s'.contexts = s.contexts.tail := htail.symm
      have hnumbers : s'.rwParams = s.rwParams.freeContext s.callContext := by
        rw [hs', freeCallParams, if_pos hsome]
      have hnames : s'.rwGlobalParams = s.rwGlobalParams.freeContext s.callContext := by
        rw [hs', freeCallParams, if_pos hsome]
      have hne : ∀ c ∈ s.contexts.tail, c ≠ s.callContext := by
        rintro c hc rfl
        exact h.notCaller hc
      have hnumber : ∀ c ∈ s.contexts.tail, ∀ id,
          s'.rwParams.getValue c id = s.rwParams.getValue c id := by
        intro c hc id
        rw [hnumbers, h.okNumbers.getValue_freeContext, if_neg (hne c hc)]
      have hname : ∀ c ∈ s.contexts.tail, ∀ name,
          s'.rwGlobalParams.getValue c name = s.rwGlobalParams.getValue c name := by
        intro c hc name
        rw [hnames, h.okNames.getValue_freeContext, if_neg (hne c hc)]
      have hholds : ∀ x ∈ s.contexts.tail.zip (scope :: callers), Holds s' x.1 x.2 := by
        intro x hx
        have hmem : x.1 ∈ s.contexts.tail := (List.of_mem_zip hx).1
        refine (h.callers x (hcallers ▸ hx)).congr (fun id _ => ?_) fun name _ => hname _ hmem name
        rw [hnumber _ hmem]
      rw [hcs, List.zip_cons_cons] at hholds
      have hglobal : none ∈ s.contexts.tail := by
        rw [htail]
        simp
      have hunused : ∀ c ∉ s'.contexts, (∀ id, s'.rwParams.getValue c id = none) ∧
          ∀ name, s'.rwGlobalParams.getValue c name = none := by
        intro c hc
        rw [hcontexts] at hc
        by_cases heq : c = s.callContext
        · rw [hnumbers, hnames]
          exact ⟨fun id => by rw [h.okNumbers.getValue_freeContext, if_pos heq],
            fun name => by rw [h.okNames.getValue_freeContext, if_pos heq]⟩
        · have hold := h.unused c (by rw [h.contexts]; simp [heq, hc])
          rw [hnumbers, hnames]
          exact ⟨fun id => by rw [h.okNumbers.getValue_freeContext, if_neg heq, hold.1],
            fun name => by rw [h.okNames.getValue_freeContext, if_neg heq, hold.2]⟩
      exact {
        okNumbers := hnumbers ▸ h.okNumbers.freeContext
        okNames := hnames ▸ h.okNames.freeContext
        contexts := by rw [hcontexts]; exact hcs
        notCaller := by rw [hcontexts]; exact hnd.1
        nodup := by rw [hcontexts]; exact hnd.2
        depth := by
          rw [hcallers] at hdepth
          exact Nat.succ_injective hdepth
        inner := hholds _ List.mem_cons_self
        callers := by
          intro x hx
          rw [hcontexts] at hx
          exact hholds x (List.mem_cons_of_mem _ hx)
        number := fun id hrw hid => by
          rw [hnumber none hglobal]
          exact h.number id hrw hid
        name := fun name hrw hg => by
          rw [hname none hglobal]
          exact h.name name hrw hg
        unused := hunused }

/-! ## The whole module -/

theorem represents_call (h : Represents s r) (c : ParamCall γ ν) (hc : s.Admissible c) :
    Represents (s.call c) (r.call c) := by
  cases c with
  | setNumber id value =>
      by_cases hid : ngcParamIsRw id = true
      · exact represents_setNumber_of_rw h hid value
      · exact represents_setNumber_of_not_rw h hid value
  | setName name value =>
      by_cases hname : NameIsRw (plainName name)
      · exact represents_setName_of_rw h hc hname value
      · exact represents_setName_of_not_rw h hc hname value
  | push context => exact represents_push h hc
  | pop => exact represents_pop h

/-- The state after a sequence of calls. -/
def Params.calls (s : Params γ ν μ) (cs : List (ParamCall γ ν)) : Params γ ν μ := cs.foldl Params.call s

def Scopes.calls (r : Scopes ν) (cs : List (ParamCall γ ν)) : Scopes ν := cs.foldl Scopes.call r

/-- Every call of the sequence is admissible when it is made. -/
def Params.AllAdmissible (s : Params γ ν μ) (cs : List (ParamCall γ ν)) : Prop :=
  Along (fun s c => some (Params.call s c)) Params.Admissible s cs

theorem represents_calls : ∀ (cs : List (ParamCall γ ν)) {s : Params γ ν μ} {r : Scopes ν},
    Represents s r → s.AllAdmissible cs → Represents (s.calls cs) (r.calls cs)
  | [], _, _, h, _ => h
  | c :: cs, _, _, h, hcs => represents_calls cs (represents_call h c hcs.1) (hcs.2 _ rfl)

omit [DecidableEq ν] in
theorem Represents.getNumber (h : Represents s r) (ro : ReadOnly ν) {id : ℕ} (hid : ngcParamIsRw id = true) :
    ngcParamGet ro s id = (true, r.lookupNumber id) := by
  rw [ngcParamGet, if_pos hid, Params.paramContext, Scopes.lookupNumber]
  split
  case isTrue hg => rw [h.number id hid hg]
  case isFalse hg => rw [h.inner.number id hid (not_lt.1 hg)]

omit [DecidableEq ν] in
theorem Represents.getName (h : Represents s r) (ro : ReadOnly ν) {name : List Char}
    (hlen : name.length ≤ ngcMaxParamLength) (hname : NameIsRw (plainName name)) :
    ngcNamedParamGet ro s name = r.lookupName name := by
  simp only [ngcNamedParamGet, ngcNameToLower_eq hlen, hname.1, hname.2, if_true, Params.nameContext,
    Scopes.lookupName]
  by_cases hg : isGlobalName (plainName name) = true
  · rw [if_pos hg, if_pos hg, h.name _ hname hg]
  · rw [if_neg hg, if_neg hg, h.inner.name _ hname (Bool.eq_false_iff.2 hg)]

/-- After any sequence of calls the parameters read as the scopes do, the predefined ones as the system
has them, and no parameter is held twice. -/
theorem params_are_scoped (ro : ReadOnly ν) (cs : List (ParamCall γ ν))
    (hcs : ({} : Params γ ν μ).AllAdmissible cs) :
    (∀ id, ngcParamGet ro (({} : Params γ ν μ).calls cs) id =
      if ngcParamIsRw id then (true, ((Scopes.initial : Scopes ν).calls cs).lookupNumber id)
      else if ngcRoParams.any fun range => range.1 ≤ id ∧ id ≤ range.2 then (true, ro.number id)
      else (false, 0)) ∧
    (∀ name, name.length ≤ ngcMaxParamLength → ngcNamedParamGet ro (({} : Params γ ν μ).calls cs) name =
      if nameSupplied (plainName name) then
        match roParam (plainName name) with
        | some predefined => some (ro.name predefined)
        | none => ((Scopes.initial : Scopes ν).calls cs).lookupName name
      else none) ∧
    (({} : Params γ ν μ).calls cs).rwParams.keys.Nodup ∧
    (({} : Params γ ν μ).calls cs).rwGlobalParams.keys.Nodup := by
  have hinit : Represents ({} : Params γ ν μ) (Scopes.initial : Scopes ν) := represents_initial
  have h := represents_calls cs hinit hcs
  refine ⟨fun id => ?_, fun name hlen => ?_, h.okNumbers.nodup, h.okNames.nodup⟩
  · by_cases hid : ngcParamIsRw id = true
    · rw [h.getNumber ro hid, if_pos hid]
    · rw [ngcParamGet, if_neg hid, if_neg hid]
  · by_cases hs : nameSupplied (plainName name) = true
    · rw [if_pos hs]
      cases hro : roParam (plainName name) with
      | none => exact h.getName ro hlen ⟨hs, hro⟩
      | some predefined =>
          simp only [ngcNamedParamGet, ngcNameToLower_eq hlen, hs, hro, if_true]
    · simp only [ngcNamedParamGet, ngcNameToLower_eq hlen, if_neg hs]

end

/-- A call that writes a local and a global number, calls a macro that hides the local one, and returns. -/
def nestedCalls : List (ParamCall ℕ ℤ) :=
  [.setNumber 1 5, .setNumber 31 6, .push (some 0), .setNumber 1 7, .setName ['_', 'g'] 8, .pop]

theorem params_are_scoped_nested :
    (∀ id, ngcParamGet ⟨fun _ => 0, fun _ => 0⟩ (({} : Params ℕ ℤ ℕ).calls nestedCalls) id =
      if ngcParamIsRw id then (true, ((Scopes.initial : Scopes ℤ).calls nestedCalls).lookupNumber id)
      else if ngcRoParams.any fun range => range.1 ≤ id ∧ id ≤ range.2 then (true, 0)
      else (false, 0)) ∧
    ngcParamGet ⟨fun _ => 0, fun _ => 0⟩ (({} : Params ℕ ℤ ℕ).calls nestedCalls) 1 = (true, 5) :=
  ⟨(params_are_scoped ⟨fun _ => 0, fun _ => 0⟩ nestedCalls (by
    simp [nestedCalls, Params.AllAdmissible, Along, Params.Admissible, Params.call, ngcParamSet,
      Params.contexts, ngcParamIsRw, ngcMaxParamLength])).1, by decide +kernel⟩

/-- A predefined name is found although nothing has been written under it, and it does not read what has
been written: the map alone is not what is read. -/
theorem predefined_names_are_not_scoped :
    ¬∀ (ro : ReadOnly ℤ) (cs : List (ParamCall ℕ ℤ)), ({} : Params ℕ ℤ ℕ).AllAdmissible cs →
      (∀ id, (ngcParamGet ro (({} : Params ℕ ℤ ℕ).calls cs) id).2 =
        ((Scopes.initial : Scopes ℤ).calls cs).lookupNumber id) ∧
      (∀ name, name.length ≤ ngcMaxParamLength → ngcNamedParamGet ro (({} : Params ℕ ℤ ℕ).calls cs) name =
        ((Scopes.initial : Scopes ℤ).calls cs).lookupName name) := by
  intro h
  have hlen : ['_', 'x'].length ≤ ngcMaxParamLength := by decide
  have hx := (h ⟨fun _ => 0, fun _ => 0⟩ [.setName ['_', 'x'] 5] ⟨hlen, fun _ _ => trivial⟩).2 _ hlen
  revert hx
  decide

end Grbl.Ngc
