import Grbl.Ngc.Expr
import Grbl.Ngc.Scopes

/-!
# Names in their buffers

* `copyName` : the loop that copies a name, with the writes it makes; `readNameWrites`, `nameToLowerWrites` : the two
  functions that have it, each with the terminator it writes;
* `readNameWrites_eq`, `nameToLowerWrites_eq` : what is in the buffer is the name that is read;
* `StaysInBuffer` : the writes are inside the buffer;
* `NamesFit` : the names of the parameters that can be written;
* `names_stay_in_buffers_iff` : which names do not.
-/

namespace Grbl.Ngc
open Lib

/-! ## Copying -/

/-- A write through a pointer into a buffer: the index and the character. -/
abbrev Write := ℕ × Char

/-- Copies the characters of `keep` until one of `stop`, or until more than `ngcMaxParamLength` have been copied; `len` is the
number that has been. -/
def copyName (stop keep : Char → Bool) : ℕ → List Char → List Write × List Char
  | _, [] => ([], [])
  | len, c :: s =>
      if stop c || ngcMaxParamLength < len then ([], c :: s)
      else if keep c then
        let (writes, s) := copyName stop keep (len + 1) s
        ((len, lcaps c) :: writes, s)
      else copyName stop keep len s

/-- `*buffer = '\0'` -/
def terminate (writes : List Write) : List Write := writes ++ [(writes.length, '\x00')]

/-- The writes of `ngc_read_name`. -/
def readNameWrites : List Char → List Write
  | '<' :: s =>
      let (writes, s) := copyName (· = '>') (fun _ => true) 0 s
      if s.head? = some '>' then terminate writes else writes
  | _ => []

/-- The writes of `ngc_name_tolower`. -/
def nameToLowerWrites (name : List Char) : List Write := terminate (copyName (fun _ => false) (' ' < ·) 0 name).1

section
variable {stop keep : Char → Bool} {len : ℕ} {s name : List Char}

/-- The characters that would be copied without the bound. -/
def nameChars (stop keep : Char → Bool) (s : List Char) : List Char := (s.takeWhile fun c => !stop c).filter keep

theorem nameChars_cons_stop {c : Char} (hc : stop c = true) : nameChars stop keep (c :: s) = [] := by
  rw [nameChars, List.takeWhile_cons_of_neg (by rw [hc]; exact Bool.false_ne_true), List.filter_nil]

theorem nameChars_cons_keep {c : Char} (hc : stop c = false) (hk : keep c = true) :
    nameChars stop keep (c :: s) = c :: nameChars stop keep s := by
  rw [nameChars, List.takeWhile_cons_of_pos (by rw [hc]; rfl), List.filter_cons_of_pos hk, nameChars]

theorem nameChars_cons_skip {c : Char} (hc : stop c = false) (hk : keep c = false) :
    nameChars stop keep (c :: s) = nameChars stop keep s := by
  rw [nameChars, List.takeWhile_cons_of_pos (by rw [hc]; rfl), List.filter_cons_of_neg (by rw [hk]; exact Bool.false_ne_true),
    nameChars]

theorem copyName_writes (s : List Char) : ∀ {len : ℕ}, len ≤ ngcMaxParamLength + 1 →
    (copyName stop keep len s).1.map Prod.fst =
      List.range' len (min (ngcMaxParamLength + 1 - len) (nameChars stop keep s).length) := by
  induction s with
  | nil =>
      intro len _
      rw [nameChars, List.takeWhile_nil, List.filter_nil, List.length_nil, Nat.min_zero]
      rfl
  | cons c s ih =>
      intro len hlen
      rw [copyName]
      cases hc : stop c with
      | true =>
          rw [nameChars_cons_stop hc, Bool.true_or, if_pos rfl, List.length_nil, Nat.min_zero]
          rfl
      | false =>
          by_cases hfull : ngcMaxParamLength < len
          · rw [decide_eq_true hfull, Bool.or_true, if_pos rfl, Nat.sub_eq_zero_of_le hfull, Nat.zero_min]
            rfl
          · rw [decide_eq_false hfull, Bool.or_false, if_neg Bool.false_ne_true]
            cases hk : keep c with
            | true =>
                have hmin : min (ngcMaxParamLength + 1 - len) ((nameChars stop keep s).length + 1) =
                    min (ngcMaxParamLength + 1 - (len + 1)) (nameChars stop keep s).length + 1 := by omega
                rw [if_pos rfl, nameChars_cons_keep hc hk, List.length_cons, hmin, List.range'_succ, ← ih (by omega)]
                rfl
            | false =>
                rw [if_neg Bool.false_ne_true, nameChars_cons_skip hc hk]
                exact ih hlen

theorem length_copyName (s : List Char) :
    (copyName stop keep 0 s).1.length = min (ngcMaxParamLength + 1) (nameChars stop keep s).length := by
  have hwrites : (copyName stop keep 0 s).1.map Prod.fst = _ := copyName_writes s (Nat.zero_le (ngcMaxParamLength + 1))
  have hlen := congrArg List.length hwrites
  rwa [List.length_map, List.length_range', Nat.sub_zero] at hlen

theorem lt_of_mem_copyName {w : Write} (hw : w ∈ (copyName stop keep 0 s).1) : w.1 < (copyName stop keep 0 s).1.length := by
  have hmem : w.1 ∈ (copyName stop keep 0 s).1.map Prod.fst := List.mem_map_of_mem hw
  rw [copyName_writes s (Nat.zero_le _), List.mem_range'_1, Nat.sub_zero, Nat.zero_add] at hmem
  rw [length_copyName]
  exact hmem.2

/-! ## The names that are read -/

theorem map_snd_copyName : (copyName (fun _ => false) (' ' < ·) len s).1.map Prod.snd = nameToLowerFrom len s := by
  induction s generalizing len with
  | nil => rfl
  | cons c s ih =>
      rw [copyName, nameToLowerFrom, Bool.false_or]
      by_cases hfull : ngcMaxParamLength < len
      · rw [if_pos (decide_eq_true hfull), if_pos hfull]
        rfl
      · rw [if_neg (by simpa using hfull), if_neg hfull]
        by_cases hk : ' ' < c
        · rw [if_pos (decide_eq_true hk), if_pos hk, ← ih]
          rfl
        · rw [if_neg (by simpa using hk), if_neg hk, ih]

theorem copyName_readNameFrom :
    readNameFrom len s = ((copyName (· = '>') (fun _ => true) len s).1.map Prod.snd, (copyName (· = '>') (fun _ => true) len s).2) := by
  induction s generalizing len with
  | nil => rfl
  | cons c s ih =>
      rw [copyName, readNameFrom]
      by_cases hin : c ≠ '>' ∧ len ≤ ngcMaxParamLength
      · have hcond : ¬ (decide (c = '>') || decide (ngcMaxParamLength < len)) = true := by simpa using hin
        rw [if_pos hin, if_neg hcond, if_pos rfl, ih]
        rfl
      · have hcond : (decide (c = '>') || decide (ngcMaxParamLength < len)) = true := by
          rw [Bool.or_eq_true, decide_eq_true_iff, decide_eq_true_iff]
          by_contra hnot
          rw [not_or, not_lt] at hnot
          exact hin hnot
        rw [if_neg hin, if_pos hcond]
        rfl

/-- What `ngc_name_tolower` returns is in its buffer. -/
theorem nameToLowerWrites_eq (name : List Char) :
    (nameToLowerWrites name).map Prod.snd = ngcNameToLower name ++ ['\x00'] := by
  rw [nameToLowerWrites, terminate, List.map_append, map_snd_copyName]
  rfl

theorem ngcReadName_cons (s : List Char) : ngcReadName ('<' :: s) =
    if (copyName (· = '>') (fun _ => true) 0 s).2.head? = some '>' then
      .ok ((copyName (· = '>') (fun _ => true) 0 s).1.map Prod.snd, (copyName (· = '>') (fun _ => true) 0 s).2.tail)
    else .error .flowControlSyntaxError := by
  rw [ngcReadName, copyName_readNameFrom]
  generalize copyName (· = '>') (fun _ => true) 0 s = r
  obtain ⟨writes, left⟩ := r
  cases left with
  | nil => rfl
  | cons c left =>
      by_cases hc : c = '>'
      · subst hc
        exact (if_pos rfl).symm
      · rw [if_neg (by simpa using hc)]
        split
        · next heq =>
            cases heq
            exact absurd rfl hc
        · rfl

theorem exists_of_ngcReadName {name rest : List Char} (h : ngcReadName s = .ok (name, rest)) : ∃ t, s = '<' :: t := by
  rw [ngcReadName.eq_def] at h
  split at h
  · exact ⟨_, rfl⟩
  · cases h

/-- The name that `ngc_read_name` accepts is in the buffer of the caller. -/
theorem readNameWrites_eq {name rest : List Char} (h : ngcReadName s = .ok (name, rest)) :
    (readNameWrites s).map Prod.snd = name ++ ['\x00'] := by
  obtain ⟨t, rfl⟩ := exists_of_ngcReadName h
  rw [ngcReadName_cons] at h
  rw [readNameWrites]
  dsimp only
  split at h
  · next hend =>
      obtain ⟨rfl, -⟩ := Prod.mk.inj (Except.ok.inj h)
      rw [if_pos hend, terminate, List.map_append]
      rfl
  · cases h

/-! ## The buffers -/

/-- The indices of a buffer of `NGC_MAX_PARAM_LENGTH + 1` characters. -/
def StaysInBuffer (writes : List Write) : Prop := ∀ w ∈ writes, w.1 ≤ ngcMaxParamLength

instance (writes : List Write) : Decidable (StaysInBuffer writes) := inferInstanceAs (Decidable (∀ w ∈ writes, _))

theorem staysInBuffer_terminate {writes : List Write} (h : ∀ w ∈ writes, w.1 < writes.length) :
    StaysInBuffer (terminate writes) ↔ writes.length ≤ ngcMaxParamLength := by
  refine ⟨fun hin => hin (writes.length, '\x00') (List.mem_append_right _ (List.mem_singleton_self _)), fun hle w hw => ?_⟩
  obtain hw | hw := List.mem_append.1 hw
  · exact (h w hw).le.trans hle
  · rwa [List.mem_singleton.1 hw]

/-- The name between the brackets at the start of `s`. -/
def HasName (s name : List Char) : Prop := ∃ rest, s = '<' :: (name ++ '>' :: rest) ∧ '>' ∉ name

/-- Where the loop of `ngc_read_name` stops. -/
theorem copyName_rest (s : List Char) : ∀ {len : ℕ}, len ≤ ngcMaxParamLength + 1 →
    (copyName (· = '>') (fun _ => true) len s).2 = s.drop (min (ngcMaxParamLength + 1 - len) (nameChars (· = '>') (fun _ => true) s).length) := by
  induction s with
  | nil => exact fun _ => List.drop_nil.symm
  | cons c s ih =>
      intro len hlen
      rw [copyName]
      by_cases hc : c = '>'
      · have hstop : decide (c = '>') = true := decide_eq_true hc
        rw [nameChars_cons_stop hstop, hstop, Bool.true_or, if_pos rfl, List.length_nil, Nat.min_zero]
        rfl
      · have hstop : decide (c = '>') = false := decide_eq_false hc
        rw [hstop, Bool.false_or, nameChars_cons_keep hstop rfl, List.length_cons]
        by_cases hfull : ngcMaxParamLength < len
        · rw [if_pos (decide_eq_true hfull), Nat.sub_eq_zero_of_le hfull, Nat.zero_min]
          rfl
        · have hmin : min (ngcMaxParamLength + 1 - len) ((nameChars (· = '>') (fun _ => true) s).length + 1) =
              min (ngcMaxParamLength + 1 - (len + 1)) (nameChars (· = '>') (fun _ => true) s).length + 1 := by omega
          rw [if_neg (by simpa using hfull), if_pos rfl, hmin, List.drop_succ_cons, ← ih (by omega)]

theorem nameChars_of_notMem {name : List Char} (rest : List Char) (h : '>' ∉ name) :
    nameChars (· = '>') (fun _ => true) (name ++ '>' :: rest) = name := by
  have hall : ∀ c ∈ name, (!decide (c = '>')) = true := by
    intro c hc
    rw [Bool.not_eq_true', decide_eq_false_iff_not]
    rintro rfl
    exact h hc
  rw [nameChars, List.takeWhile_append_of_pos hall, List.takeWhile_cons_of_neg (by simp), List.append_nil]
  exact List.filter_eq_self.2 fun _ _ => rfl

/-- A name one character too long is the only one that the loop leaves at its end bracket with the buffer full. -/
theorem hasName_of_full {t : List Char} (hlen : (copyName (· = '>') (fun _ => true) 0 t).1.length = ngcMaxParamLength + 1)
    (hend : (copyName (· = '>') (fun _ => true) 0 t).2.head? = some '>') : HasName ('<' :: t) (t.take (ngcMaxParamLength + 1)) := by
  have hchars : nameChars (· = '>') (fun _ => true) t = t.takeWhile fun c => !decide (c = '>') :=
    List.filter_eq_self.2 fun _ _ => rfl
  rw [length_copyName, hchars] at hlen
  rw [copyName_rest t (Nat.zero_le _), Nat.sub_zero, hchars, hlen] at hend
  have hsplit : t = t.takeWhile (fun c => !decide (c = '>')) ++ t.dropWhile fun c => !decide (c = '>') :=
    List.takeWhile_append_dropWhile.symm
  refine ⟨(t.drop (ngcMaxParamLength + 1)).tail, ?_, ?_⟩
  · rw [List.cons.injEq, and_iff_right rfl, ← List.eq_cons_of_mem_head? hend, List.take_append_drop]
  · rw [hsplit, List.take_append_of_le_length (by omega)]
    intro hmem
    have hpos := List.mem_takeWhile_imp (List.mem_of_mem_take hmem)
    simp at hpos

theorem readName_stays_iff (s : List Char) :
    StaysInBuffer (readNameWrites s) ∧ (∀ name rest, ngcReadName s = .ok (name, rest) → name.length ≤ ngcMaxParamLength) ↔
      ∀ name, HasName s name → name.length ≠ ngcMaxParamLength + 1 := by
  constructor
  · rintro ⟨-, haccepted⟩ name ⟨rest, rfl, hname⟩ hlen
    have hchars := nameChars_of_notMem rest hname
    have hmin : min (ngcMaxParamLength + 1) name.length = ngcMaxParamLength + 1 := by omega
    have hrest := copyName_rest (name ++ '>' :: rest) (Nat.zero_le (ngcMaxParamLength + 1))
    rw [hchars, Nat.sub_zero, hmin, ← hlen, List.drop_left] at hrest
    have hread := ngcReadName_cons (name ++ '>' :: rest)
    rw [hrest, if_pos List.head?_cons] at hread
    have hle := haccepted _ _ hread
    rw [List.length_map, length_copyName, hchars, hmin] at hle
    omega
  · intro hnot
    cases s with
    | nil => exact ⟨(by rintro _ ⟨⟩), (by rintro _ _ ⟨⟩)⟩
    | cons c t =>
        by_cases hc : c = '<'
        · subst hc
          have hwrites : readNameWrites ('<' :: t) = if (copyName (· = '>') (fun _ => true) 0 t).2.head? = some '>' then
              terminate (copyName (· = '>') (fun _ => true) 0 t).1 else (copyName (· = '>') (fun _ => true) 0 t).1 := rfl
          have hle : (copyName (· = '>') (fun _ => true) 0 t).1.length ≤ ngcMaxParamLength + 1 := by
            rw [length_copyName]
            exact Nat.min_le_left _ _
          rw [hwrites, ngcReadName_cons]
          by_cases hend : (copyName (· = '>') (fun _ => true) 0 t).2.head? = some '>'
          · have hfits : (copyName (· = '>') (fun _ => true) 0 t).1.length ≤ ngcMaxParamLength := by
              by_contra hlong
              have hlen : (copyName (· = '>') (fun _ => true) 0 t).1.length = ngcMaxParamLength + 1 := by omega
              refine hnot _ (hasName_of_full hlen hend) ?_
              rw [length_copyName] at hlen
              have htake : (nameChars (· = '>') (fun _ => true) t).length ≤ t.length :=
                (List.length_filter_le _ _).trans (List.takeWhile_prefix _).length_le
              rw [List.length_take]
              omega
            rw [if_pos hend, if_pos hend]
            refine ⟨(staysInBuffer_terminate fun w hw => lt_of_mem_copyName hw).2 hfits, fun name rest hread => ?_⟩
            obtain ⟨rfl, -⟩ := Prod.mk.inj (Except.ok.inj hread)
            rwa [List.length_map]
          · rw [if_neg hend, if_neg hend]
            exact ⟨fun w hw => Nat.le_of_lt_succ ((lt_of_mem_copyName hw).trans_le hle), (by rintro _ _ ⟨⟩)⟩
        · have hread : ngcReadName (c :: t) = .error .badNumberFormat := by
            rw [ngcReadName.eq_def]
            split
            · next heq => exact absurd (List.cons.inj heq).1 hc
            · rfl
          have hwrites : readNameWrites (c :: t) = [] := by
            rw [readNameWrites.eq_def]
            split
            · next heq => exact absurd (List.cons.inj heq).1 hc
            · rfl
          rw [hread, hwrites]
          exact ⟨(by rintro _ ⟨⟩), (by rintro _ _ ⟨⟩)⟩

/-- Of the names that `ngc_name_tolower` is given, those stay in its buffer that fit. -/
theorem nameToLower_stays_iff (name : List Char) :
    StaysInBuffer (nameToLowerWrites name) ↔ (name.filter (' ' < ·)).length ≤ ngcMaxParamLength := by
  have hchars : nameChars (fun _ => false) (' ' < ·) name = name.filter (' ' < ·) := by
    have hall : name.takeWhile (fun _ => !false) = name := List.takeWhile_eq_self_iff.2 fun _ _ => rfl
    rw [nameChars, hall]
  rw [nameToLowerWrites, staysInBuffer_terminate fun w hw => lt_of_mem_copyName hw, length_copyName, hchars]
  omega

end

/-! ## Names that are too long -/

section
variable {γ ν μ : Type} [DecidableEq γ] [DecidableEq ν] [Zero ν] {s : Params γ ν μ} {name : List Char}

/-- The names of the parameters that can be written fit into their nodes. -/
structure NamesFit (s : Params γ ν μ) : Prop where
  ok : s.rwGlobalParams.Ok
  fits : ∀ a p, s.rwGlobalParams.node a = some p → p.key.length ≤ ngcMaxParamLength

omit [DecidableEq ν] [Zero ν] in
theorem node_setValue {κ : Type} [DecidableEq κ] {l : ParamList κ γ ν} {context : Option γ} {key : κ} {value : ν} {create : Bool}
    {a : ℕ} {p : RwParam κ γ ν} (h : (l.setValue context key value create).node a = some p) : l.node a = some p ∨ p.key = key := by
  have hupdate : ∀ b, Function.update l.node b (some ⟨context, key, value⟩) a = some p → l.node a = some p ∨ p.key = key := by
    intro b hb
    by_cases hab : a = b
    · rw [hab, Function.update_self] at hb
      exact .inr ((Option.some.inj hb) ▸ rfl)
    · rw [Function.update_of_ne hab] at hb
      exact .inl hb
  rw [ParamList.setValue] at h
  split at h
  · exact hupdate _ h
  · split at h
    · exact hupdate _ h
    · exact .inl h

theorem NamesFit.setValue (h : NamesFit s) {context : Option γ} {value : ν} (hlen : name.length ≤ ngcMaxParamLength) :
    NamesFit { s with rwGlobalParams := s.rwGlobalParams.setValue context name value true } where
  ok := h.ok.setValue
  fits a p hp := by
    obtain hold | hkey := node_setValue hp
    · exact h.fits a p hold
    · rwa [hkey]

theorem namesFit_call (h : NamesFit s) (c : ParamCall γ ν) : NamesFit (s.call c) := by
  cases c with
  | setNumber id value =>
      rw [Params.call, ngcParamSet]
      split <;> exact ⟨h.ok, h.fits⟩
  | setName name value =>
      rw [Params.call, ngcNamedParamSet]
      split
      · split
        · exact h
        · split
          · next hlen => exact h.setValue hlen
          · exact h
      · exact h
  | push context =>
      rw [Params.call, ngcCallPush]
      split <;> exact ⟨h.ok, h.fits⟩
  | pop =>
      rw [Params.call, ngcCallPop]
      split
      · exact h
      · have hfree : NamesFit (freeCallParams s) := by
          rw [freeCallParams]
          split
          · exact ⟨h.ok.freeContext, h.fits⟩
          · exact h
        exact ⟨hfree.ok, hfree.fits⟩

theorem namesFit_calls (cs : List (ParamCall γ ν)) : NamesFit (({} : Params γ ν μ).calls cs) := by
  have hinit : NamesFit ({} : Params γ ν μ) := ⟨ParamList.ok_empty, nofun⟩
  rw [Params.calls]
  generalize ({} : Params γ ν μ) = s at hinit
  induction cs generalizing s with
  | nil => exact hinit
  | cons c cs ih => exact ih _ (namesFit_call hinit c)

theorem length_ngcNameToLower (name : List Char) :
    (ngcNameToLower name).length = min (ngcMaxParamLength + 1) (name.filter (' ' < ·)).length := by
  have hall : name.takeWhile (fun _ => !false) = name := List.takeWhile_eq_self_iff.2 fun _ _ => rfl
  rw [ngcNameToLower, ← map_snd_copyName, List.length_map, length_copyName, nameChars, hall]

theorem length_ngcNamedRoParam : ∀ predefined ∈ ngcNamedRoParam, predefined.toList.length ≤ ngcMaxParamLength := by decide +kernel

omit [DecidableEq ν] [Zero ν] in
theorem NamesFit.rejects (h : NamesFit s) (ro : ReadOnly ν) (value : ν) (hlong : ngcMaxParamLength < (name.filter (' ' < ·)).length) :
    ngcNamedParamGet ro s name = none ∧ ngcNamedParamSet s name value = (false, s) := by
  have hlen : (ngcNameToLower name).length = ngcMaxParamLength + 1 := by
    rw [length_ngcNameToLower]
    omega
  have hro : roParam (ngcNameToLower name) = none := by
    rw [roParam]
    split
    · refine List.find?_eq_none.2 fun predefined hmem heq => ?_
      have hle := length_ngcNamedRoParam predefined (List.mem_reverse.1 hmem)
      rw [of_decide_eq_true heq] at hle
      omega
    · rfl
  have hnone : s.rwGlobalParams.getValue (s.nameContext (ngcNameToLower name)) (ngcNameToLower name) = none := by
    rw [h.ok.getValue_eq_none]
    intro a _ hkey
    obtain ⟨v, hv⟩ := ParamList.paramKey_eq_some.1 hkey
    have hle := h.fits a _ hv
    dsimp only at hle
    omega
  have hnot : ¬ (ngcNameToLower name).length ≤ ngcMaxParamLength := by omega
  constructor
  · simp only [ngcNamedParamGet, hro, hnone, ite_self]
  · simp only [ngcNamedParamSet, hro, if_neg hnot, ite_self]

/-- `ngc_read_name` stays in the buffer of its caller, and accepts no name that is too long, unless the name has one character
more than fits; `ngc_name_tolower` stays in its buffer if the name fits; and after any calls a name that does not is not found, and
not written. -/
theorem names_stay_in_buffers_iff (ro : ReadOnly ν) :
    (∀ s, StaysInBuffer (readNameWrites s) ∧
        (∀ name rest, ngcReadName s = .ok (name, rest) → name.length ≤ ngcMaxParamLength) ↔
      ∀ name, HasName s name → name.length ≠ ngcMaxParamLength + 1) ∧
    (∀ name, StaysInBuffer (nameToLowerWrites name) ↔ (name.filter (' ' < ·)).length ≤ ngcMaxParamLength) ∧
    (∀ (cs : List (ParamCall γ ν)) name value, ngcMaxParamLength < (name.filter (' ' < ·)).length →
      ngcNamedParamGet ro (({} : Params γ ν μ).calls cs) name = none ∧
        ngcNamedParamSet (({} : Params γ ν μ).calls cs) name value = (false, ({} : Params γ ν μ).calls cs)) :=
  ⟨readName_stays_iff, nameToLower_stays_iff, fun cs _ value hlong => (namesFit_calls cs).rejects ro value hlong⟩

end

theorem names_stay_in_buffers_iff_long :
    ngcNamedParamGet ⟨fun _ => 0, fun _ => 0⟩ (({} : Params ℕ ℤ ℕ).calls nestedCalls) (List.replicate 31 'a') = none :=
  ((names_stay_in_buffers_iff ⟨fun _ => 0, fun _ => 0⟩).2.2 nestedCalls (List.replicate 31 'a') 1 (by decide)).1

/-- A name of 31 characters is accepted, and both functions write its terminator behind their buffers. -/
theorem name_of_31_leaves_buffer :
    ¬ StaysInBuffer (readNameWrites ('<' :: List.replicate 31 'a' ++ ['>'])) ∧
      (ngcReadName ('<' :: List.replicate 31 'a' ++ ['>'])).toOption = some (List.replicate 31 'a', []) ∧
      ¬ StaysInBuffer (nameToLowerWrites (List.replicate 31 'a')) := by decide +kernel

end Grbl.Ngc
