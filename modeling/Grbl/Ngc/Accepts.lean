import Grbl.Ngc.ExprSpec

/-!
# The texts that are accepted

* `Expr.Checked` : the values that the readers check are finite; `Expr.Accepted` : and the text is well formed;
* `Sound` : a reader that succeeds has read an operand, and its meaning; `sound_readRealValue`;
* `Stacked` : what the operator stack has been made from; `reduce_stacked`, `stepLoop_sound`;
* `Reads` : the converse; `accepted_spec` is the induction on the expression;
* `stepLoop_iff`, `evalLine_iff` : what is in brackets is accepted exactly if it is the text of such an expression;
* `FloatOps.eval_known` : no operation of the grammar is unknown to the arithmetic.
-/

namespace Grbl.Ngc

variable {ν : Type}

section
variable (A : Arith ν) (H : Host ν)

namespace Expr

/-- The value of an operand is finite. What operators make of operands is not checked, except behind a right bracket. -/
def Checked : Expr → Prop
  | number literal => FiniteResult A ((number literal).eval A H)
  | param e => e.Checked ∧ FiniteResult A ((param e).eval A H)
  | namedParam name => FiniteResult A ((namedParam name).eval A H)
  | plus e => e.Checked ∧ FiniteResult A ((plus e).eval A H)
  | minus e => e.Checked ∧ FiniteResult A ((minus e).eval A H)
  | unary operation e => e.Checked ∧ FiniteResult A ((unary operation e).eval A H)
  | atan e₁ e₂ => (e₁.Checked ∧ e₂.Checked) ∧ FiniteResult A ((atan e₁ e₂).eval A H)
  | .exists name => FiniteResult A ((Expr.exists name).eval A H)
  | setting id => id.Checked ∧ FiniteResult A ((setting id).eval A H)
  | settingBit id bit => (id.Checked ∧ bit.Checked) ∧ FiniteResult A ((settingBit id bit).eval A H)
  | bracket e => e.Checked ∧ FiniteResult A ((bracket e).eval A H)
  | binary lhs _ rhs => lhs.Checked ∧ rhs.Checked

/-- Names may have one character more than they should. -/
def Accepted (e : Expr) : Prop := e.WellFormedUpTo (ngcMaxParamLength + 1) ∧ e.Checked A H

end Expr

/-- Reading without an error has taken the text of an operand and returns its meaning. -/
def Sound (rd : Reader ν) : Prop := ∀ s old r, rd s old = some r → r.status = none →
  ∃ e : Expr, e.Accepted A H ∧ e.operators = [] ∧ e.eval A H = .ok r.value ∧ s = e.text ++ r.rest

/-- The same before the value has been checked. -/
def Taken (s : List Char) (r : Read ν) : Prop :=
  ∃ e : Expr, (FiniteResult A (e.eval A H) → e.Accepted A H) ∧ e.operators = [] ∧ e.eval A H = .ok r.value ∧ s = e.text ++ r.rest

/-- The left operands on the stack, each with the operator behind it, and the text they have been read from. -/
inductive Stacked : List (ν × BinaryOp) → List Char → Prop
  | nil : Stacked [] []
  | cons {stack : List (ν × BinaryOp)} {t : List Char} {e : Expr} {value : ν} {op : BinaryOp} : Stacked stack t → e.Accepted A H →
      e.eval A H = .ok value → op.Between → (∀ o ∈ e.operators, precedence op ≤ precedence o) →
      (∀ x ∈ stack.head?, precedence x.2 < precedence op ∧ ∀ o ∈ e.operators, precedence x.2 < precedence o) →
      Stacked ((value, op) :: stack) (t ++ (e.text ++ op.text))

/-- Reading the operand returns its meaning, when it has one. -/
def Reads (rd : Reader ν) (e : Expr) : Prop := ∀ value rest old, e.eval A H = .ok value → EndsNumber rest →
  rd (e.text ++ rest) old = some ⟨none, value, rest⟩

end

variable {A : Arith ν} {H : Host ν} {rd : Reader ν} {n : ℕ} {s rest : List Char} {old : ν}

theorem bind_eq_ok {ε α β : Type} {x : Except ε α} {f : α → Except ε β} {b : β} :
    x >>= f = .ok b ↔ ∃ a, x = .ok a ∧ f a = .ok b := by
  cases x with
  | error e => simp [bind, Except.bind]
  | ok a => simp [bind, Except.bind]

/-! ## Tokens -/

theorem stripKeyword_eq_some : ∀ {w s : List Char}, stripKeyword w s = some rest → s = w ++ rest
  | [], s, h => Option.some.inj h
  | c :: w, [], h => by cases h
  | c :: w, d :: s, h => by
      rw [stripKeyword] at h
      split at h
      · rename_i hc
        rw [hc, stripKeyword_eq_some h, List.cons_append]
      · cases h

theorem readKeyword_eq_some {α : Type} {table : List (List Char × α)} {a : α} (h : readKeyword table s = some (a, rest)) :
    ∃ w, (w, a) ∈ table ∧ s = w ++ rest := by
  obtain ⟨⟨w, b⟩, hmem, hb⟩ := List.exists_of_findSome?_eq_some h
  obtain ⟨t, ht, heq⟩ := Option.map_eq_some_iff.1 hb
  obtain ⟨rfl, rfl⟩ := Prod.mk.inj heq
  exact ⟨w, hmem, stripKeyword_eq_some ht⟩

theorem readOperation_eq_ok {op : BinaryOp} (h : readOperation s = .ok (op, rest)) : op ≠ .noOp ∧ s = op.text ++ rest := by
  rw [readOperation] at h
  split at h
  · rename_i r hr
    cases h
    obtain ⟨w, hmem, hs⟩ := readKeyword_eq_some hr
    obtain ⟨hop, hw⟩ : op ≠ .noOp ∧ w = op.text := (by decide : ∀ e ∈ binaryOps, e.2 ≠ .noOp ∧ e.1 = e.2.text) _ hmem
    exact ⟨hop, hw ▸ hs⟩
  · cases h

theorem readOperationUnary_eq_ok {op : UnaryOp} (h : readOperationUnary s = .ok (op, rest)) : s = op.text ++ rest := by
  rw [readOperationUnary] at h
  split at h
  · rename_i r hr
    cases h
    obtain ⟨w, hmem, hs⟩ := readKeyword_eq_some hr
    have hw : w = op.text := (by decide : ∀ e ∈ unaryOps, e.1 = e.2.text) _ hmem
    exact hw ▸ hs
  · cases h

theorem scanFloat_split : ∀ (s : List Char) (f : FloatScan), ∃ pre, s = pre ++ (scanFloat f s).2 ∧ scanFloat f pre = ((scanFloat f s).1, [])
  | [], f => ⟨[], rfl, rfl⟩
  | c :: s, f => by
      rw [scanFloat]
      cases hn : f.next c with
      | none => exact ⟨[], rfl, rfl⟩
      | some f' =>
          obtain ⟨pre, hs, hpre⟩ := scanFloat_split s f'
          refine ⟨c :: pre, congrArg (c :: ·) hs, ?_⟩
          rw [scanFloat, hn]
          exact hpre

theorem readNameFrom_split : ∀ (s : List Char) (len : ℕ), ∃ name, s = name ++ (readNameFrom len s).2 ∧
    (readNameFrom len s).1 = name.map lcaps ∧ '>' ∉ name ∧ (name ≠ [] → len + name.length ≤ ngcMaxParamLength + 1)
  | [], len => ⟨[], rfl, rfl, by simp, by simp⟩
  | c :: s, len => by
      rw [readNameFrom]
      split
      · rename_i hc
        obtain ⟨name, hs, hname, hnot, hlen⟩ := readNameFrom_split s (len + 1)
        refine ⟨c :: name, congrArg (c :: ·) hs, congrArg (lcaps c :: ·) hname, ?_, fun _ => ?_⟩
        · simpa [hc.1.symm] using hnot
        · rw [List.length_cons]
          by_cases hnil : name = []
          · rw [hnil, List.length_nil]
            exact Nat.succ_le_succ hc.2
          · have := hlen hnil
            omega
      · exact ⟨[], rfl, rfl, by simp, by simp⟩

/-! ## The operator stack -/

theorem Stacked.between {stack : List (ν × BinaryOp)} {t : List Char} (h : Stacked A H stack t) : ∀ x ∈ stack, x.2 ≠ .rightBracket := by
  induction h with
  | nil => simp
  | cons _ _ _ hop _ _ ih =>
      intro x hx
      rcases List.mem_cons.1 hx with rfl | hx
      · exact hop.2
      · exact ih x hx

/-- The induction is on the stack: an operator that is carried out takes the operands from above and below it. -/
theorem reduce_stacked {stack : List (ν × BinaryOp)} {t : List Char} (h : Stacked A H stack t) : ∀ {e : Expr} {value : ν} {op : BinaryOp}
    {stack' : List (ν × BinaryOp)}, e.Accepted A H → e.eval A H = .ok value → (∀ o ∈ e.operators, precedence op ≤ precedence o) →
    (∀ x ∈ stack.head?, ∀ o ∈ e.operators, precedence x.2 < precedence o) → reduce A stack value op = .ok stack' →
    ∃ (below : List (ν × BinaryOp)) (t' : List Char) (e' : Expr) (value' : ν), stack' = (value', op) :: below ∧ Stacked A H below t' ∧
      e'.Accepted A H ∧ e'.eval A H = .ok value' ∧ t ++ e.text = t' ++ e'.text ∧ (∀ o ∈ e'.operators, precedence op ≤ precedence o) ∧
        ∀ x ∈ below.head?, precedence x.2 < precedence op ∧ ∀ o ∈ e'.operators, precedence x.2 < precedence o := by
  induction h with
  | nil =>
      intro e value op stack' he hv hle _ hr
      cases hr
      exact ⟨[], [], e, value, rfl, .nil, he, hv, rfl, hle, by simp⟩
  | @cons stack t lhs x operation hstack hlhs hx hop hlhsle hbelow ih =>
      intro e value op stack' he hv hle hlt hr
      have hright : ∀ o ∈ e.operators, precedence operation < precedence o := hlt (x, operation) rfl
      rw [reduce] at hr
      split at hr
      case isTrue hprec =>
        cases hb : A.binary operation x value with
        | error er => simp [hb] at hr
        | ok result =>
            rw [hb] at hr
            have hoperators : ∀ o ∈ (Expr.binary lhs operation e).operators, precedence operation ≤ precedence o := by
              intro o ho
              rcases List.mem_append.1 ho with ho | ho
              · exact hlhsle o ho
              · rcases List.mem_cons.1 ho with rfl | ho
                · exact Nat.le_refl _
                · exact Nat.le_of_lt (hright o ho)
            obtain ⟨below, t', e', value', heq, hstacked, he', hv', htext, hrest⟩ := ih (e := .binary lhs operation e)
              ⟨⟨hop, hlhs.1, he.1, hlhsle, hright⟩, hlhs.2, he.2⟩ (by rw [Expr.eval, hx, hv]; exact hb)
              (fun o ho => Nat.le_trans hprec (hoperators o ho))
              (fun y hy o ho => Nat.lt_of_lt_of_le (hbelow y hy).1 (hoperators o ho)) hr
            refine ⟨below, t', e', value', heq, hstacked, he', hv', ?_, hrest⟩
            rw [← htext]
            simp [Expr.text]
      case isFalse hprec =>
        cases hr
        refine ⟨(x, operation) :: stack, t ++ (lhs.text ++ operation.text), e, value, rfl, .cons hstack hlhs hx hop hlhsle hbelow, he, hv,
          rfl, hle, ?_⟩
        rintro _ ⟨rfl⟩
        exact ⟨Nat.lt_of_not_le hprec, hright⟩

theorem stepLoop_eq_ok {stack : List (ν × BinaryOp)} {x : ν × List Char} : stepLoop A H rd n stack s = some (.ok x) ↔
    ∃ r op rest stack', rd s (H.uninit s) = some r ∧ r.status = none ∧ readOperation r.rest = .ok (op, rest) ∧
      reduce A stack r.value op = .ok stack' ∧ evalLoop A H rd n stack' rest = some (.ok x) := by
  constructor
  · intro h
    rw [stepLoop, readStep] at h
    cases hr : rd s (H.uninit s) with
    | none => simp [hr] at h
    | some r =>
        cases hs : r.status with
        | some e => simp [hr, hs] at h
        | none =>
            cases hop : readOperation r.rest with
            | error e => simp [hr, hs, hop] at h
            | ok p =>
                cases hred : reduce A stack r.value p.1 with
                | error e => simp [hr, hs, hop, hred, Except.map] at h
                | ok stack' => exact ⟨r, p.1, p.2, stack', rfl, hs, hop, hred, by simpa [hr, hs, hop, hred, Except.map] using h⟩
  · rintro ⟨r, op, rest, stack', hr, hs, hop, hred, h⟩
    simp [stepLoop, readStep, hr, hs, hop, hred, Except.map, h]

/-- The induction is on the rounds; the text that has been read is that of the stack. -/
theorem stepLoop_sound (hrd : Sound A H rd) : ∀ (n : ℕ) {stack : List (ν × BinaryOp)} {t s rest : List Char} {value : ν}, Stacked A H stack t →
    stepLoop A H rd n stack s = some (.ok (value, rest)) →
    ∃ e : Expr, e.Accepted A H ∧ e.eval A H = .ok value ∧ t ++ s = e.text ++ ']' :: rest := by
  intro n
  induction n with
  | zero =>
      intro stack t s rest value _ h
      obtain ⟨_, _, _, _, -, -, -, -, h⟩ := stepLoop_eq_ok.1 h
      cases h
  | succ n ih =>
      intro stack t s rest value hstack h
      obtain ⟨r, op, rest', stack', hr, hstatus, hop, hred, hloop⟩ := stepLoop_eq_ok.1 h
      obtain ⟨x, hx, hoperators, hval, rfl⟩ := hrd s _ r hr hstatus
      obtain ⟨hnoop, hrest⟩ := readOperation_eq_ok hop
      obtain ⟨below, t', e, value', rfl, hbelow, he, hv, htext, hle, hlt⟩ :=
        reduce_stacked hstack hx hval (by simp [hoperators]) (by simp [hoperators]) hred
      have hsplit : t ++ (x.text ++ r.rest) = t' ++ (e.text ++ op.text) ++ rest' := by
        rw [hrest, ← List.append_assoc, htext]
        simp
      by_cases hbracket : op = .rightBracket
      · -- nothing binds less tightly, so that nothing is left below
        cases hbelow with
        | nil =>
            rw [hbracket] at hloop
            obtain ⟨rfl, rfl⟩ := Prod.mk.inj (Except.ok.inj (Option.some.inj hloop))
            refine ⟨e, he, hv, ?_⟩
            rw [hsplit, hbracket]
            simp [BinaryOp.text]
        | @cons below t e' value operation _ _ _ _ _ _ =>
            have hlow : precedence operation < precedence op := (hlt (value, operation) rfl).1
            rw [hbracket] at hlow
            exact absurd hlow (Nat.not_lt.2 (precedence_pos operation))
      · have hstack' : Stacked A H ((value', op) :: below) (t' ++ (e.text ++ op.text)) := .cons hbelow he hv ⟨hnoop, hbracket⟩ hle hlt
        rw [evalLoop_succ hstack'.between] at hloop
        rw [hsplit]
        exact ih hstack' hloop

/-! ## What has been read -/

theorem eval_sound (hrd : Sound A H rd) {r : Read ν} (h : ngcEvalExpression A H rd n s old = some r) (hstatus : r.status = none) :
    ∃ e : Expr, e.Accepted A H ∧ e.eval A H = .ok r.value ∧ s = '[' :: (e.text ++ ']' :: r.rest) := by
  unfold ngcEvalExpression at h
  split at h
  · obtain ⟨o, ho, rfl⟩ := Option.map_eq_some_iff.1 h
    cases o with
    | error e => cases hstatus
    | ok p =>
        obtain ⟨e, he, hv, hs⟩ := stepLoop_sound hrd n .nil ho
        exact ⟨e, he, hv, congrArg ('[' :: ·) hs⟩
  · cases h
    cases hstatus

theorem readInteger_sound (hrd : Sound A H rd) {i : ℤ} (h : ngcReadIntegerValue A H rd s = some (.ok (i, rest))) :
    ∃ e : Expr, e.Accepted A H ∧ e.operators = [] ∧ e.eval A H >>= A.toInteger = .ok i ∧ s = e.text ++ rest := by
  obtain ⟨r, hr, h⟩ := Option.map_eq_some_iff.1 h
  cases hstatus : r.status with
  | some e => simp [hstatus] at h
  | none =>
      simp only [hstatus] at h
      obtain ⟨e, he, hoperators, hv, hs⟩ := hrd s _ r hr hstatus
      cases hi : A.toInteger r.value with
      | error er => simp [hi, Except.map] at h
      | ok j =>
          simp only [hi, Except.map, Except.ok.injEq, Prod.mk.injEq] at h
          exact ⟨e, he, hoperators, bind_eq_ok.2 ⟨r.value, hv, h.1 ▸ hi⟩, h.2 ▸ hs⟩

theorem paramValue_status {param : ℤ} (h : (paramValue A H param old rest).status = none) :
    numberedParam H param = .ok (paramValue A H param old rest).value ∧ (paramValue A H param old rest).rest = rest := by
  rw [paramValue] at h ⊢
  rw [numberedParam]
  split at h
  · cases h
  · rename_i hneg
    rw [if_neg hneg]
    cases hp : H.param (param % 65536).toNat with
    | none => simp [hp] at h
    | some value => simp [hneg]

theorem parameter_taken (hrd : Sound A H rd) {r : Read ν} (h : ngcReadParameter A H rd s old = some r) (hstatus : r.status = none) :
    Taken A H s r := by
  unfold ngcReadParameter at h
  split at h
  · rename_i old s
    obtain ⟨name, hs, hname, hnot, hlen⟩ := readNameFrom_split s 0
    cases h
    rw [ngcReadName] at hstatus ⊢
    cases hend : readNameFrom 0 s with
    | mk read rest =>
        rw [hend] at hs hname
        cases rest with
        | nil => simp [hend] at hstatus
        | cons c rest =>
            by_cases hc : c = '>'
            · subst hc
              simp only [hend] at hstatus ⊢
              cases hvalue : H.namedParam read with
              | none => simp [hvalue] at hstatus
              | some value =>
                  have hle : name.length ≤ ngcMaxParamLength + 1 := by
                    by_cases hnil : name = []
                    · simp [hnil]
                    · have := hlen hnil
                      omega
                  refine ⟨.namedParam name, fun hfin => ⟨⟨hle, hnot⟩, hfin⟩, rfl, ?_, ?_⟩
                  · rw [Expr.eval, ← show read = name.map lcaps from hname, hvalue]
                  · rw [hs]
                    simp [Expr.text]
            · simp [hend, hc] at hstatus
  · obtain ⟨o, ho, rfl⟩ := Option.map_eq_some_iff.1 h
    cases o with
    | error e => cases hstatus
    | ok p =>
        obtain ⟨e, he, hoperators, hi, rfl⟩ := readInteger_sound hrd ho
        obtain ⟨hvalue, hrest⟩ := paramValue_status hstatus
        refine ⟨.param e, fun hfin => ⟨⟨he.1, hoperators⟩, he.2, hfin⟩, rfl, ?_, ?_⟩
        · obtain ⟨x, hx, hi⟩ := bind_eq_ok.1 hi
          exact bind_eq_ok.2 ⟨x, hx, bind_eq_ok.2 ⟨_, hi, hvalue⟩⟩
        · exact congrArg (fun rest => '#' :: (e.text ++ rest)) hrest.symm
  · cases h
    cases hstatus

theorem readExists_taken {s : List Char} {r : Read ν} (h : readExists A H s old = r) (hstatus : r.status = none) :
    Taken A H (UnaryOp.exists.text ++ '[' :: s) r := by
  unfold readExists at h
  split at h
  · rename_i old s
    have hsplit := List.takeWhile_append_dropWhile (p := fun c => decide (c ≠ ']')) (l := s)
    have hnot : ']' ∉ s.takeWhile (· ≠ ']') := fun h => by simpa using List.mem_takeWhile_imp h
    have hhead := List.head?_dropWhile_not (fun c => decide (c ≠ ']')) s
    cases hd : s.dropWhile (· ≠ ']') with
    | nil =>
        simp only [hd] at h
        rw [← h] at hstatus
        cases hstatus
    | cons c rest =>
        rw [hd] at hsplit hhead
        obtain rfl : c = ']' := by simpa using hhead
        simp only [hd] at h
        split at h
        · rename_i hlast
          obtain ⟨name, hname⟩ := List.getLast?_eq_some_iff.1 hlast
          rw [hname] at hsplit hnot
          rw [hname, List.dropLast_concat] at h
          subst h
          refine ⟨.exists name, fun hfin => ⟨?_, hfin⟩, rfl, rfl, ?_⟩
          · exact fun h => hnot (List.mem_append_left _ h)
          · rw [← hsplit]
            simp [Expr.text]
        · rw [← h] at hstatus
          cases hstatus
  · rw [← h] at hstatus
    cases hstatus

theorem readSettingEnd_eq_ok {id : ℤ} {bit : Option ℤ} (hstatus : (readSettingEnd H id bit s old).status = none) :
    ∃ value rest, readSettingEnd H id bit s old = ⟨none, value, rest⟩ ∧ H.setting id bit = .ok value ∧ s = ']' :: rest := by
  unfold readSettingEnd at hstatus ⊢
  split
  · cases hv : H.setting id bit with
    | error e => simp [hv] at hstatus
    | ok value => exact ⟨value, _, rfl, rfl, rfl⟩
  · simp at hstatus

theorem readSetting_taken (hrd : Sound A H rd) {s : List Char} {r : Read ν} (h : readSetting A H rd s old = some r) (hstatus : r.status = none) :
    Taken A H (UnaryOp.parameter.text ++ '[' :: s) r := by
  rw [readSetting] at h
  obtain ⟨o, ho, h⟩ := Option.bind_eq_some_iff.1 h
  split at h
  · cases h
    cases hstatus
  · rename_i id s'
    obtain ⟨e, he, hoperators, hi, hs⟩ := readInteger_sound hrd ho
    obtain ⟨o', ho', rfl⟩ := Option.map_eq_some_iff.1 h
    cases o' with
    | error e => cases hstatus
    | ok p =>
        obtain ⟨b, hb, hboperators, hbit, hs'⟩ := readInteger_sound hrd ho'
        simp only at hstatus ⊢
        split at hstatus
        · cases hstatus
        · rename_i hrange
          obtain ⟨value, rest, hend, hv, hrest⟩ := readSettingEnd_eq_ok hstatus
          rw [if_neg hrange, hend]
          refine ⟨.settingBit e b, fun hfin => ⟨⟨⟨he.1, hoperators⟩, hb.1, hboperators⟩, ⟨he.2, hb.2⟩, hfin⟩, rfl, ?_, ?_⟩
          · obtain ⟨x, hx, hi⟩ := bind_eq_ok.1 hi
            obtain ⟨y, hy, hbit⟩ := bind_eq_ok.1 hbit
            refine bind_eq_ok.2 ⟨x, hx, bind_eq_ok.2 ⟨id, hi, bind_eq_ok.2 ⟨y, hy, bind_eq_ok.2 ⟨p.1, hbit, ?_⟩⟩⟩⟩
            rw [settingBitValue, if_neg hrange, hv]
          · rw [hs, hs', hrest]
            simp [Expr.text]
  · rename_i id s' _
    obtain ⟨e, he, hoperators, hi, hs⟩ := readInteger_sound hrd ho
    cases h
    obtain ⟨value, rest, hend, hv, hrest⟩ := readSettingEnd_eq_ok hstatus
    rw [hend]
    refine ⟨.setting e, fun hfin => ⟨⟨he.1, hoperators⟩, he.2, hfin⟩, rfl, ?_, ?_⟩
    · obtain ⟨x, hx, hi⟩ := bind_eq_ok.1 hi
      exact bind_eq_ok.2 ⟨x, hx, bind_eq_ok.2 ⟨id, hi, hv⟩⟩
    · rw [hs, hrest]
      simp [Expr.text]

theorem readAtan_sound (hrd : Sound A H rd) {y : ν} {r : Read ν} (h : readAtan A H rd n s y = some r) (hstatus : r.status = none) :
    ∃ (e : Expr) (x : ν), e.Accepted A H ∧ e.eval A H = .ok x ∧ r.value = A.atan2 y x ∧ s = '/' :: '[' :: (e.text ++ ']' :: r.rest) := by
  unfold readAtan at h
  split at h
  · obtain ⟨r', hr', rfl⟩ := Option.map_eq_some_iff.1 h
    cases hs : r'.status with
    | some e => simp [hs] at hstatus
    | none =>
        obtain ⟨e, he, hv, htext⟩ := eval_sound hrd hr' hs
        exact ⟨e, r'.value, he, hv, rfl, by rw [htext]⟩
  · cases h
    cases hstatus

theorem readUnary_taken (hrd : Sound A H rd) {r : Read ν} (h : readUnary A H rd n s old = some r) (hstatus : r.status = none) :
    Taken A H s r := by
  rw [readUnary] at h
  cases hop : readOperationUnary s with
  | error e =>
      rw [hop] at h
      cases h
      cases hstatus
  | ok p =>
      obtain ⟨operation, s'⟩ := p
      obtain rfl := readOperationUnary_eq_ok hop
      rw [hop] at h
      split at h
      · rename_i heq
        cases heq
      · rename_i operation' t heq
        obtain ⟨rfl, rfl⟩ := Prod.mk.inj (Except.ok.inj heq)
        split at h
        · exact readExists_taken (Option.some.inj h) hstatus
        · exact readSetting_taken hrd h hstatus
        · rename_i hexists hparameter
          obtain ⟨r₁, hr₁, hrest⟩ := Option.bind_eq_some_iff.1 h
          cases hs₁ : r₁.status with
          | some e =>
              simp only [hs₁, Option.some_inj] at hrest
              rw [← hrest, hs₁] at hstatus
              cases hstatus
          | none =>
              obtain ⟨e, he, hv, htext⟩ := eval_sound hrd hr₁ hs₁
              obtain rfl := (List.cons.inj htext).2
              simp only [hs₁] at hrest
              split at hrest
              · rename_i hatan
                obtain ⟨e₂, x, he₂, hx, hvalue, hs⟩ := readAtan_sound hrd hrest hstatus
                refine ⟨.atan e e₂, fun hfin => ⟨⟨he.1, he₂.1⟩, ⟨he.2, he₂.2⟩, hfin⟩, rfl, ?_, ?_⟩
                · rw [hvalue]
                  exact bind_eq_ok.2 ⟨_, hv, bind_eq_ok.2 ⟨x, hx, rfl⟩⟩
                · rw [hatan, hs]
                  simp [Expr.text]
              · rename_i hatan
                cases hu : A.unary operation r₁.value with
                | error er =>
                    simp only [hu, Option.some_inj] at hrest
                    rw [← hrest] at hstatus
                    cases hstatus
                | ok value =>
                    simp only [hu, Option.some_inj] at hrest
                    subst hrest
                    refine ⟨.unary operation e, fun hfin => ⟨⟨⟨hatan, hexists, hparameter⟩, he.1⟩, he.2, hfin⟩, rfl, ?_, ?_⟩
                    · exact bind_eq_ok.2 ⟨_, hv, hu⟩
                    · simp [Expr.text]
      · cases h
        cases hstatus

theorem readFloat_taken {value : ν} (h : readFloat A s = some (value, rest)) : Taken A H s ⟨none, value, rest⟩ := by
  rw [readFloat] at h
  obtain ⟨pre, hpre, hscan⟩ := scanFloat_split (readSign s).2 {}
  simp only at h
  split at h
  case isFalse => cases h
  case isTrue hok =>
    obtain ⟨rfl, rfl⟩ := Prod.mk.inj (Option.some.inj h)
    -- the literal is the sign, if there is one, and the characters that have been scanned
    obtain ⟨literal, hs, hsign⟩ : ∃ literal, s = literal ++ (scanFloat {} (readSign s).2).2 ∧
        readSign literal = ((readSign s).1, pre) := by
      cases s with
      | nil => cases hok
      | cons c s =>
          by_cases hm : c = '-'
          · subst hm
            exact ⟨'-' :: pre, congrArg ('-' :: ·) hpre, rfl⟩
          by_cases hp : c = '+'
          · subst hp
            exact ⟨'+' :: pre, congrArg ('+' :: ·) hpre, rfl⟩
          have hplain := readSign_plain hm hp
          rw [hplain] at hpre hscan hok ⊢
          cases pre with
          | nil =>
              rw [scanFloat] at hscan
              rw [← (Prod.mk.inj hscan).1] at hok
              cases hok
          | cons d pre =>
              obtain ⟨rfl, -⟩ := List.cons.inj hpre
              exact ⟨c :: pre, hpre, hplain pre⟩
    have hnumber : IsNumber literal := ⟨_, by rw [hsign]; exact hscan, hok⟩
    refine ⟨.number literal, fun hfin => ⟨hnumber, hfin⟩, rfl, ?_, hs⟩
    rw [Expr.eval, literalValue, hsign, hscan]

theorem Taken.checkFinite {r : Read ν} (h : r.status = none → Taken A H s r) (hstatus : (checkFinite A r).status = none) :
    ∃ e : Expr, e.Accepted A H ∧ e.operators = [] ∧ e.eval A H = .ok (checkFinite A r).value ∧ s = e.text ++ (checkFinite A r).rest := by
  rw [Ngc.checkFinite] at hstatus ⊢
  split at hstatus
  · cases hstatus
  · rename_i hfin
    rw [if_neg hfin]
    obtain ⟨e, he, hoperators, hv, hs⟩ := h hstatus
    refine ⟨e, he fun value hvalue => ?_, hoperators, hv, hs⟩
    rw [← Except.ok.inj (hv.symm.trans hvalue)]
    exact Bool.eq_false_iff.2 hfin

theorem signsOperand_of_append {t : List Char} (h : signsOperand (s ++ t) = true) (hs : s ≠ []) : signsOperand s = true := by
  cases s with
  | nil => exact absurd rfl hs
  | cons c s => exact h

theorem sound_readRealValue (hrd : Sound A H rd) : Sound A H (readRealValue A H rd n) := by
  intro s old r h hstatus
  cases s with
  | nil =>
      cases h
      cases hstatus
  | cons c s =>
      obtain ⟨r, hr, rfl⟩ := Option.map_eq_some_iff.1 h
      clear h
      refine Taken.checkFinite (fun hstatus => ?_) hstatus
      split at hr
      · rename_i hc
        subst hc
        obtain ⟨e, he, hv, hs⟩ := eval_sound hrd hr hstatus
        exact ⟨.bracket e, fun hfin => ⟨he.1, he.2, hfin⟩, rfl, hv, by rw [hs]; simp [Expr.text]⟩
      split at hr
      · exact parameter_taken hrd hr hstatus
      split at hr
      · rename_i hplus
        obtain ⟨e, he, hoperators, hv, rfl⟩ := hrd s old r hr hstatus
        obtain ⟨d, t, ht, -⟩ := he.1.head
        refine ⟨.plus e, fun hfin => ⟨⟨he.1, hoperators, signsOperand_of_append hplus.2 (by simp [ht])⟩, he.2, hfin⟩, rfl, hv, ?_⟩
        rw [hplus.1]
        rfl
      split at hr
      · rename_i hminus
        obtain ⟨r, hread, rfl⟩ := Option.map_eq_some_iff.1 hr
        obtain ⟨e, he, hoperators, hv, rfl⟩ := hrd s old r hread hstatus
        obtain ⟨d, t, ht, -⟩ := he.1.head
        refine ⟨.minus e, fun hfin => ⟨⟨he.1, hoperators, signsOperand_of_append hminus.2 (by simp [ht])⟩, he.2, hfin⟩, rfl,
          bind_eq_ok.2 ⟨_, hv, rfl⟩, ?_⟩
        rw [hminus.1]
        rfl
      split at hr
      · exact readUnary_taken hrd hr hstatus
      · cases hread : readFloat A (c :: s) with
        | none =>
            rw [hread] at hr
            cases hr
            cases hstatus
        | some p =>
            rw [hread] at hr
            cases hr
            exact readFloat_taken hread

theorem sound_ngcReadRealValue : ∀ n, Sound A H (ngcReadRealValue A H n)
  | 0 => fun _ _ _ h => nomatch h
  | n + 1 => sound_readRealValue (sound_ngcReadRealValue n)

/-! ## What is read -/

theorem checkFinite_eq {value : ν} (h : A.notFinite value = false) : checkFinite A ⟨none, value, rest⟩ = ⟨none, value, rest⟩ := by
  simp [checkFinite, h]

section
variable {e : Expr}

theorem Reads.chain (he : e.operators = []) (h : Reads A H rd e) {value : ν} (hv : e.eval A H = .ok value) : ChainSpec A H rd e := by
  intro n stack op rest hop hrest _ _ _
  rw [stepLoop, readStep, h value _ _ hv (endsNumber_text hop rest), he, hv, List.length_nil, Nat.add_zero]
  simp only [Option.map_some, readOperation_text hop hrest, afterValue]
  cases reduce A stack value op <;> rfl

theorem Reads.integer (h : Reads A H rd e) {i : ℤ} (hi : e.eval A H >>= A.toInteger = .ok i) (hrest : EndsNumber rest) :
    ngcReadIntegerValue A H rd (e.text ++ rest) = some (.ok (i, rest)) := by
  obtain ⟨value, hv, hi⟩ := bind_eq_ok.1 hi
  rw [ngcReadIntegerValue, h value rest _ hv hrest]
  simp [hi, Except.map]

theorem eval_of_chain (hlen : e.operators.length < n) (h : ChainSpec A H rd e) {value : ν} (hv : e.eval A H = .ok value) :
    ngcEvalExpression A H rd n ('[' :: (e.text ++ ']' :: rest)) old = some ⟨none, value, rest⟩ := by
  rw [ngcEvalExpression, stepLoop_bracket hlen h, hv]
  rfl

theorem reads_number {literal : List Char} (h : IsNumber literal) (hfin : FiniteResult A ((Expr.number literal).eval A H)) :
    Reads A H (readRealValue A H rd n) (.number literal) := by
  intro value rest old hv hrest
  have hfinite := hfin value hv
  cases hv
  rw [Expr.text, readRealValue_number h hrest, checkFinite_eq hfinite]

theorem paramValue_eq {id : ℤ} {value : ν} (h : numberedParam H id = .ok value) : paramValue A H id old rest = ⟨none, value, rest⟩ := by
  rw [numberedParam] at h
  rw [paramValue]
  split at h
  · cases h
  · rename_i hneg
    rw [if_neg hneg]
    cases hp : H.param (id % 65536).toNat with
    | none => simp [hp] at h
    | some value' =>
        simp only [hp, Except.ok.injEq] at h
        simp [h]

theorem reads_param {longest : ℕ} (hwf : e.WellFormedUpTo longest) (hfin : FiniteResult A ((Expr.param e).eval A H)) (h : Reads A H rd e) :
    Reads A H (readRealValue A H rd n) (.param e) := by
  intro value rest old hv hrest
  obtain ⟨x, hx, hid⟩ := bind_eq_ok.1 hv
  obtain ⟨id, hid, hvalue⟩ := bind_eq_ok.1 hid
  have hread : ngcReadParameter A H rd ('#' :: (e.text ++ rest)) old = some ⟨none, value, rest⟩ := by
    rw [ngcReadParameter_text rd hwf, h.integer (bind_eq_ok.2 ⟨x, hx, hid⟩) hrest, Option.map_some]
    exact congrArg some (paramValue_eq hvalue)
  show (ngcReadParameter A H rd ('#' :: (e.text ++ rest)) old).map (checkFinite A) = _
  rw [hread, Option.map_some, checkFinite_eq (hfin value hv)]

theorem reads_namedParam {name : List Char} (hlen : name.length ≤ ngcMaxParamLength + 1) (hname : '>' ∉ name)
    (hfin : FiniteResult A ((Expr.namedParam name).eval A H)) : Reads A H (readRealValue A H rd n) (.namedParam name) := by
  intro value rest old hv _
  have htext : (Expr.namedParam name).text ++ rest = '#' :: '<' :: (name ++ '>' :: rest) := by simp [Expr.text]
  have hvalue : H.namedParam (name.map lcaps) = some value := by
    rw [Expr.eval] at hv
    split at hv
    · rename_i value' hvalue
      rw [hvalue, Except.ok.inj hv]
    · cases hv
  have hread : ngcReadParameter A H rd ('#' :: '<' :: (name ++ '>' :: rest)) old = some ⟨none, value, rest⟩ := by
    rw [ngcReadParameter_name hlen hname, hvalue]
  rw [htext]
  show (ngcReadParameter A H rd ('#' :: '<' :: (name ++ '>' :: rest)) old).map (checkFinite A) = _
  rw [hread, Option.map_some, checkFinite_eq (hfin value hv)]

theorem reads_plus (hsigns : signsOperand e.text = true) (hfin : FiniteResult A ((Expr.plus e).eval A H)) (h : Reads A H rd e) :
    Reads A H (readRealValue A H rd n) (.plus e) := by
  intro value rest old hv hrest
  rw [readRealValue_plus hsigns, h value rest old hv hrest, Option.map_some, checkFinite_eq (hfin value hv)]

theorem reads_minus (hsigns : signsOperand e.text = true) (hfin : FiniteResult A ((Expr.minus e).eval A H)) (h : Reads A H rd e) :
    Reads A H (readRealValue A H rd n) (.minus e) := by
  intro value rest old hv hrest
  obtain ⟨x, hx, hneg⟩ := bind_eq_ok.1 hv
  rw [readRealValue_minus hsigns, h x rest old hx hrest, Option.map_some, Option.map_some]
  simp only [Except.ok.inj hneg, checkFinite_eq (hfin value hv)]

theorem reads_bracket (hlen : e.operators.length < n) (hfin : FiniteResult A ((Expr.bracket e).eval A H))
    (h : ∀ value, e.eval A H = .ok value → ChainSpec A H rd e) : Reads A H (readRealValue A H rd n) (.bracket e) := by
  intro value rest old hv _
  have htext : (Expr.bracket e).text ++ rest = '[' :: (e.text ++ ']' :: rest) := by simp [Expr.text]
  rw [htext]
  show (ngcEvalExpression A H rd n ('[' :: (e.text ++ ']' :: rest)) old).map (checkFinite A) = _
  rw [eval_of_chain hlen (h value hv) hv, Option.map_some, checkFinite_eq (hfin value hv)]

theorem reads_unary {operation : UnaryOp} (hop : operation.Plain) (hlen : e.operators.length < n)
    (hfin : FiniteResult A ((Expr.unary operation e).eval A H)) (h : ∀ value, e.eval A H = .ok value → ChainSpec A H rd e) :
    Reads A H (readRealValue A H rd n) (.unary operation e) := by
  intro value rest old hv _
  have htext : (Expr.unary operation e).text ++ rest = operation.text ++ '[' :: (e.text ++ ']' :: rest) := by simp [Expr.text]
  obtain ⟨x, hx, hu⟩ := bind_eq_ok.1 hv
  rw [htext, readRealValue_unary, readUnary_plain hop (eval_of_chain hlen (h x hx) hx)]
  simp only [hu, Option.map_some, checkFinite_eq (hfin value hv)]

theorem reads_atan {e₁ e₂ : Expr} (hlen₁ : e₁.operators.length < n) (hlen₂ : e₂.operators.length < n)
    (hfin : FiniteResult A ((Expr.atan e₁ e₂).eval A H)) (h₁ : ∀ value, e₁.eval A H = .ok value → ChainSpec A H rd e₁)
    (h₂ : ∀ value, e₂.eval A H = .ok value → ChainSpec A H rd e₂) : Reads A H (readRealValue A H rd n) (.atan e₁ e₂) := by
  intro value rest old hv _
  have htext : (Expr.atan e₁ e₂).text ++ rest =
      UnaryOp.atan.text ++ '[' :: (e₁.text ++ ']' :: ('/' :: '[' :: (e₂.text ++ ']' :: rest))) := by simp [Expr.text]
  obtain ⟨y, hy, hx⟩ := bind_eq_ok.1 hv
  obtain ⟨x, hx, hvalue⟩ := bind_eq_ok.1 hx
  rw [htext, readRealValue_unary, readUnary_atan (eval_of_chain hlen₁ (h₁ y hy) hy)]
  show (readAtan A H rd n ('/' :: '[' :: (e₂.text ++ ']' :: rest)) y).map (checkFinite A) = _
  rw [readAtan_text (eval_of_chain hlen₂ (h₂ x hx) hx)]
  simp only [Option.map_some, Except.ok.inj hvalue, checkFinite_eq (hfin value hv)]

theorem reads_exists {name : List Char} (hname : ']' ∉ name) (hfin : FiniteResult A ((Expr.exists name).eval A H)) :
    Reads A H (readRealValue A H rd n) (.exists name) := by
  intro value rest old hv _
  have htext : (Expr.exists name).text ++ rest = UnaryOp.exists.text ++ '[' :: '#' :: '<' :: (name ++ '>' :: ']' :: rest) := by
    simp [Expr.text]
  rw [htext, readRealValue_unary, readUnary_exists hname, Option.map_some, Except.ok.inj hv, checkFinite_eq (hfin value hv)]

theorem reads_setting {id : Expr} (hfin : FiniteResult A ((Expr.setting id).eval A H)) (h : Reads A H rd id) :
    Reads A H (readRealValue A H rd n) (.setting id) := by
  intro value rest old hv _
  have htext : (Expr.setting id).text ++ rest = UnaryOp.parameter.text ++ '[' :: (id.text ++ ']' :: rest) := by simp [Expr.text]
  obtain ⟨x, hx, hi⟩ := bind_eq_ok.1 hv
  obtain ⟨i, hi, hvalue⟩ := bind_eq_ok.1 hi
  have hread : readSetting A H rd (id.text ++ ']' :: rest) old = some ⟨none, value, rest⟩ := by
    rw [readSetting, h.integer (bind_eq_ok.2 ⟨x, hx, hi⟩) (endsNumber_bracket _)]
    show some (readSettingEnd H i none (']' :: rest) old) = _
    rw [readSettingEnd, hvalue]
  rw [htext, readRealValue_unary, readUnary, readOperationUnary_text]
  show (readSetting A H rd (id.text ++ ']' :: rest) old).map (checkFinite A) = _
  rw [hread, Option.map_some, checkFinite_eq (hfin value hv)]

theorem reads_settingBit {id bit : Expr} (hfin : FiniteResult A ((Expr.settingBit id bit).eval A H)) (h : Reads A H rd id)
    (hb : Reads A H rd bit) : Reads A H (readRealValue A H rd n) (.settingBit id bit) := by
  intro value rest old hv _
  have htext : (Expr.settingBit id bit).text ++ rest =
      UnaryOp.parameter.text ++ '[' :: (id.text ++ ',' :: (bit.text ++ ']' :: rest)) := by simp [Expr.text]
  obtain ⟨x, hx, hi⟩ := bind_eq_ok.1 hv
  obtain ⟨i, hi, hy⟩ := bind_eq_ok.1 hi
  obtain ⟨y, hy, hbit⟩ := bind_eq_ok.1 hy
  obtain ⟨b, hbit, hvalue⟩ := bind_eq_ok.1 hbit
  have hread : readSetting A H rd (id.text ++ ',' :: (bit.text ++ ']' :: rest)) old = some ⟨none, value, rest⟩ := by
    rw [settingBitValue] at hvalue
    split at hvalue
    · cases hvalue
    · rename_i hrange
      rw [readSetting, h.integer (bind_eq_ok.2 ⟨x, hx, hi⟩) (endsNumber_comma _)]
      simp only [Option.bind_some, hb.integer (bind_eq_ok.2 ⟨y, hy, hbit⟩) (endsNumber_bracket _), Option.map_some, if_neg hrange,
        readSettingEnd, hvalue]
  rw [htext, readRealValue_unary, readUnary, readOperationUnary_text]
  show (readSetting A H rd (id.text ++ ',' :: (bit.text ++ ']' :: rest)) old).map (checkFinite A) = _
  rw [hread, Option.map_some, checkFinite_eq (hfin value hv)]

end

/-- The induction is on the expression: operands inside are read with one call less. -/
theorem accepted_spec : ∀ (e : Expr), e.Accepted A H → ∀ n, e.text.length ≤ n →
    (e.operators = [] → Reads A H (ngcReadRealValue A H n) e) ∧ ∀ value, e.eval A H = .ok value → ChainSpec A H (ngcReadRealValue A H n) e := by
  have hoperand : ∀ {e : Expr} {n : ℕ}, e.operators = [] → Reads A H (ngcReadRealValue A H n) e →
      (e.operators = [] → Reads A H (ngcReadRealValue A H n) e) ∧ ∀ value, e.eval A H = .ok value → ChainSpec A H (ngcReadRealValue A H n) e :=
    fun he h => ⟨fun _ => h, fun _ hv => h.chain he hv⟩
  have hlen : ∀ {e : Expr} {n : ℕ}, e.Accepted A H → e.text.length ≤ n → e.operators.length < n :=
    fun he hn => Nat.lt_of_lt_of_le he.1.operators_length_lt hn
  -- a call for every operand
  have hcall : ∀ {e : Expr} {n : ℕ}, e.Accepted A H → e.text.length ≤ n → ∃ m, n = m + 1 := by
    intro e n he hn
    have := hlen he hn
    exact ⟨n - 1, by omega⟩
  intro e
  induction e with
  | number literal =>
      intro h n hn
      obtain ⟨m, rfl⟩ := hcall h hn
      exact hoperand rfl (reads_number h.1 h.2)
  | namedParam name =>
      intro h n hn
      obtain ⟨m, rfl⟩ := hcall h hn
      exact hoperand rfl (reads_namedParam h.1.1 h.1.2 h.2)
  | «exists» name =>
      intro h n hn
      obtain ⟨m, rfl⟩ := hcall h hn
      exact hoperand rfl (reads_exists h.1 h.2)
  | param e ih =>
      intro h n hn
      obtain ⟨m, rfl⟩ := hcall h hn
      rw [Expr.text, List.length_cons] at hn
      exact hoperand rfl (reads_param h.1.1 h.2.2 ((ih ⟨h.1.1, h.2.1⟩ m (by omega)).1 h.1.2))
  | plus e ih =>
      intro h n hn
      obtain ⟨m, rfl⟩ := hcall h hn
      rw [Expr.text, List.length_cons] at hn
      exact hoperand rfl (reads_plus h.1.2.2 h.2.2 ((ih ⟨h.1.1, h.2.1⟩ m (by omega)).1 h.1.2.1))
  | minus e ih =>
      intro h n hn
      obtain ⟨m, rfl⟩ := hcall h hn
      rw [Expr.text, List.length_cons] at hn
      exact hoperand rfl (reads_minus h.1.2.2 h.2.2 ((ih ⟨h.1.1, h.2.1⟩ m (by omega)).1 h.1.2.1))
  | unary operation e ih =>
      intro h n hn
      obtain ⟨m, rfl⟩ := hcall h hn
      simp only [Expr.text, List.length_append, List.length_cons] at hn
      have he : e.Accepted A H := ⟨h.1.2, h.2.1⟩
      have hm : e.text.length ≤ m := by omega
      exact hoperand rfl (reads_unary h.1.1 (hlen he hm) h.2.2 (ih he m hm).2)
  | atan e₁ e₂ ih₁ ih₂ =>
      intro h n hn
      obtain ⟨m, rfl⟩ := hcall h hn
      simp only [Expr.text, List.length_append, List.length_cons] at hn
      have he₁ : e₁.Accepted A H := ⟨h.1.1, h.2.1.1⟩
      have he₂ : e₂.Accepted A H := ⟨h.1.2, h.2.1.2⟩
      have hm₁ : e₁.text.length ≤ m := by omega
      have hm₂ : e₂.text.length ≤ m := by omega
      exact hoperand rfl (reads_atan (hlen he₁ hm₁) (hlen he₂ hm₂) h.2.2 (ih₁ he₁ m hm₁).2 (ih₂ he₂ m hm₂).2)
  | setting id ih =>
      intro h n hn
      obtain ⟨m, rfl⟩ := hcall h hn
      simp only [Expr.text, List.length_append, List.length_cons] at hn
      exact hoperand rfl (reads_setting h.2.2 ((ih ⟨h.1.1, h.2.1⟩ m (by omega)).1 h.1.2))
  | settingBit id bit ih₁ ih₂ =>
      intro h n hn
      obtain ⟨m, rfl⟩ := hcall h hn
      simp only [Expr.text, List.length_append, List.length_cons] at hn
      exact hoperand rfl (reads_settingBit h.2.2 ((ih₁ ⟨h.1.1.1, h.2.1.1⟩ m (by omega)).1 h.1.1.2)
        ((ih₂ ⟨h.1.2.1, h.2.1.2⟩ m (by omega)).1 h.1.2.2))
  | bracket e ih =>
      intro h n hn
      obtain ⟨m, rfl⟩ := hcall h hn
      simp only [Expr.text, List.length_append, List.length_cons] at hn
      have he : e.Accepted A H := ⟨h.1, h.2.1⟩
      have hm : e.text.length ≤ m := by omega
      exact hoperand rfl (reads_bracket (hlen he hm) h.2.2 (ih he m hm).2)
  | binary lhs operation rhs ihl ihr =>
      intro h n hn
      obtain ⟨⟨hop, hl, hr, hprecl, hprecr⟩, hlc, hrc⟩ := h
      simp only [Expr.text, List.length_append] at hn
      obtain ⟨c, t, ht, hc, -⟩ := hr.head
      refine ⟨fun h => absurd h (by simp [Expr.operators]), fun value hv => ?_⟩
      obtain ⟨x, hx, hy⟩ := bind_eq_ok.1 hv
      obtain ⟨y, hy, -⟩ := bind_eq_ok.1 hy
      exact chainSpec_binary hop (by simpa [ht] using hc) (by simp [ht]) hprecl hprecr
        ((ihl ⟨hl, hlc⟩ n (by omega)).2 x hx) fun _ _ => (ihr ⟨hr, hrc⟩ n (by omega)).2 y hy

/-- Behind a left bracket: without an error the evaluator has read the text of an expression up to the right one, and returns its
meaning; and every such text is read. -/
theorem stepLoop_iff (hn : s.length ≤ n) {value : ν} : stepLoop A H (ngcReadRealValue A H n) n [] s = some (.ok (value, rest)) ↔
    ∃ e : Expr, e.Accepted A H ∧ e.eval A H = .ok value ∧ s = e.text ++ ']' :: rest := by
  constructor
  · exact stepLoop_sound (sound_ngcReadRealValue n) n .nil
  · rintro ⟨e, he, hv, rfl⟩
    have hlen : e.text.length ≤ n := by
      rw [List.length_append] at hn
      omega
    rw [stepLoop_bracket (Nat.lt_of_lt_of_le he.1.operators_length_lt hlen) ((accepted_spec e he n hlen).2 value hv), hv]
    rfl

/-- The same for a whole line. -/
theorem evalLine_iff {line : List Char} {value : ν} : evalLine A H line old = some ⟨none, value, rest⟩ ↔
    ∃ e : Expr, e.Accepted A H ∧ e.eval A H = .ok value ∧ line = '[' :: (e.text ++ ']' :: rest) := by
  constructor
  · exact fun h => eval_sound (sound_ngcReadRealValue _) h rfl
  · rintro ⟨e, he, hv, rfl⟩
    have hlen : (e.text ++ ']' :: rest).length ≤ ('[' :: (e.text ++ ']' :: rest)).length := Nat.le_succ _
    rw [evalLine, ngcEvalExpression, (stepLoop_iff hlen).2 ⟨e, he, hv, rfl⟩]
    rfl

/-! ## The operations of the source -/

theorem bind_eq_error {ε α β : Type} {x : Except ε α} {f : α → Except ε β} {er : ε} :
    x >>= f = .error er ↔ x = .error er ∨ ∃ a, x = .ok a ∧ f a = .error er := by
  cases x with
  | error e => simp [bind, Except.bind]
  | ok a => simp [bind, Except.bind]

namespace FloatOps

variable (F : FloatOps ν)

theorem executeBinary_known {op : BinaryOp} (hop : op.Between) (lhs rhs : ν) : F.executeBinary op lhs rhs ≠ .error .expressionUknownOp := by
  cases op with
  | noOp => exact absurd rfl hop.1
  | rightBracket => exact absurd rfl hop.2
  | dividedBy | power =>
      rw [executeBinary, executeBinary1]
      split <;> simp
  | _ => simp [executeBinary, executeBinary1, executeBinary2]

theorem executeUnary_known {op : UnaryOp} (hop : op.Plain) (operand : ν) : F.executeUnary op operand ≠ .error .expressionUknownOp := by
  cases op with
  | atan => exact absurd rfl hop.1
  | parameter => exact absurd rfl hop.2.2
  | acos | asin | ln | sqrt =>
      rw [executeUnary]
      split <;> simp
  | _ => simp [executeUnary]

theorem readInteger_known (fvalue : ν) : F.readInteger fvalue ≠ .error .expressionUknownOp := by
  rw [readInteger]
  split
  · simp
  · split <;> simp

/-- Whatever the grammar admits, `execute_binary` and `execute_unary` have a case for. -/
theorem eval_known (hsetting : ∀ id bit, H.setting id bit ≠ .error .expressionUknownOp) {longest : ℕ} {e : Expr}
    (hwf : e.WellFormedUpTo longest) : e.eval F.arith H ≠ .error .expressionUknownOp := by
  induction e with
  | number literal => exact nofun
  | «exists» name => exact nofun
  | namedParam name =>
      rw [Expr.eval]
      split <;> simp
  | plus e ih => exact ih hwf.1
  | bracket e ih => exact ih hwf
  | minus e ih =>
      intro h
      rcases bind_eq_error.1 h with h | ⟨_, -, h⟩
      · exact ih hwf.1 h
      · cases h
  | unary operation e ih =>
      intro h
      rcases bind_eq_error.1 h with h | ⟨x, -, h⟩
      · exact ih hwf.2 h
      · exact F.executeUnary_known hwf.1 x h
  | param e ih =>
      intro h
      rcases bind_eq_error.1 h with h | ⟨x, hx, h⟩
      · exact ih hwf.1 h
      rcases bind_eq_error.1 h with h | ⟨id, -, h⟩
      · exact F.readInteger_known x h
      rw [numberedParam] at h
      split at h
      · cases h
      · split at h <;> cases h
  | atan e₁ e₂ ih₁ ih₂ =>
      intro h
      rcases bind_eq_error.1 h with h | ⟨_, -, h⟩
      · exact ih₁ hwf.1 h
      rcases bind_eq_error.1 h with h | ⟨_, -, h⟩
      · exact ih₂ hwf.2 h
      · cases h
  | setting id ih =>
      intro h
      rcases bind_eq_error.1 h with h | ⟨x, -, h⟩
      · exact ih hwf.1 h
      rcases bind_eq_error.1 h with h | ⟨id, -, h⟩
      · exact F.readInteger_known x h
      · exact hsetting id none h
  | settingBit id bit ih₁ ih₂ =>
      intro h
      rcases bind_eq_error.1 h with h | ⟨x, -, h⟩
      · exact ih₁ hwf.1.1 h
      rcases bind_eq_error.1 h with h | ⟨id, -, h⟩
      · exact F.readInteger_known x h
      rcases bind_eq_error.1 h with h | ⟨y, -, h⟩
      · exact ih₂ hwf.2.1 h
      rcases bind_eq_error.1 h with h | ⟨bit, -, h⟩
      · exact F.readInteger_known y h
      rw [settingBitValue] at h
      split at h
      · cases h
      · exact hsetting id _ h
  | binary lhs operation rhs ihl ihr =>
      intro h
      rcases bind_eq_error.1 h with h | ⟨x, -, h⟩
      · exact ihl hwf.2.1 h
      rcases bind_eq_error.1 h with h | ⟨y, -, h⟩
      · exact ihr hwf.2.2.1 h
      · exact F.executeBinary_known hwf.1 x y h

end FloatOps

end Grbl.Ngc
