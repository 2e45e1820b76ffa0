import Grbl.Ngc.Expr

/-!
# The meaning of expressions

* `Expr`, `Expr.text`, `Expr.WellFormedUpTo`, `Expr.WellFormed` : the grammar; an operator takes what binds tighter on its right,
  and what binds as tight or tighter on its left;
* `Expr.exists_text_eq` : any operands and operators are the text of an expression;
* `Expr.eval` : the recursive meaning; `Expr.Finite` : all values it meets are finite;
* `Sorted`, `Sorted.length_le` : the operator stack fits;
* `OperandSpec`, `ChainSpec` : what the readers do with the text of an expression, as an
  operand and in front of an operator;
* `evalLine_of_finite` : the evaluator returns the meaning when no variable of it holds anything else than a number.
-/

namespace Grbl.Ngc

variable {ν : Type}

/-! ## The grammar -/

/-- Expressions as they are written; brackets are part of the tree. -/
inductive Expr
  | number (literal : List Char)
  | param (e : Expr)
  | namedParam (name : List Char)
  | plus (e : Expr)
  | minus (e : Expr)
  | unary (operation : UnaryOp) (e : Expr)
  | atan (e₁ e₂ : Expr)
  | «exists» (name : List Char)
  | setting (id : Expr)
  | settingBit (id bit : Expr)
  | bracket (e : Expr)
  | binary (lhs : Expr) (operation : BinaryOp) (rhs : Expr)

def BinaryOp.text : BinaryOp → List Char
  | .noOp => []
  | .plus => ['+']
  | .minus => ['-']
  | .dividedBy => ['/']
  | .power => ['*', '*']
  | .times => ['*']
  | .rightBracket => [']']
  | .and2 => ['A', 'N', 'D']
  | .modulo => ['M', 'O', 'D']
  | .notExclusiveOR => ['O', 'R']
  | .exclusiveOR => ['X', 'O', 'R']
  | .eq => ['E', 'Q']
  | .ne => ['N', 'E']
  | .ge => ['G', 'E']
  | .gt => ['G', 'T']
  | .le => ['L', 'E']
  | .lt => ['L', 'T']

def UnaryOp.text : UnaryOp → List Char
  | .abs => ['A', 'B', 'S']
  | .acos => ['A', 'C', 'O', 'S']
  | .asin => ['A', 'S', 'I', 'N']
  | .atan => ['A', 'T', 'A', 'N']
  | .cos => ['C', 'O', 'S']
  | .exp => ['E', 'X', 'P']
  | .exists => ['E', 'X', 'I', 'S', 'T', 'S']
  | .fix => ['F', 'I', 'X']
  | .fup => ['F', 'U', 'P']
  | .ln => ['L', 'N']
  | .round => ['R', 'O', 'U', 'N', 'D']
  | .sin => ['S', 'I', 'N']
  | .sqrt => ['S', 'Q', 'R', 'T']
  | .tan => ['T', 'A', 'N']
  | .parameter => ['P', 'R', 'M']

namespace Expr

def text : Expr → List Char
  | number literal => literal
  | param e => '#' :: e.text
  | namedParam name => '#' :: '<' :: name ++ ['>']
  | plus e => '+' :: e.text
  | minus e => '-' :: e.text
  | unary operation e => operation.text ++ '[' :: e.text ++ [']']
  | atan e₁ e₂ => UnaryOp.atan.text ++ '[' :: e₁.text ++ ']' :: '/' :: '[' :: e₂.text ++ [']']
  | .exists name => UnaryOp.exists.text ++ '[' :: '#' :: '<' :: name ++ ['>', ']']
  | setting id => UnaryOp.parameter.text ++ '[' :: id.text ++ [']']
  | settingBit id bit => UnaryOp.parameter.text ++ '[' :: id.text ++ ',' :: bit.text ++ [']']
  | bracket e => '[' :: e.text ++ [']']
  | binary lhs operation rhs => lhs.text ++ operation.text ++ rhs.text

/-- The operators outside brackets, from left to right. -/
def operators : Expr → List BinaryOp
  | binary lhs operation rhs => lhs.operators ++ operation :: rhs.operators
  | _ => []

end Expr

/-- The operators that may stand between operands. -/
def BinaryOp.Between (operation : BinaryOp) : Prop := operation ≠ .noOp ∧ operation ≠ .rightBracket

/-- The functions of one argument. -/
def UnaryOp.Plain (operation : UnaryOp) : Prop :=
  operation ≠ .atan ∧ operation ≠ .exists ∧ operation ≠ .parameter

/-- `read_float` takes the whole text. -/
def IsNumber (literal : List Char) : Prop :=
  ∃ f : FloatScan, scanFloat {} (readSign literal).2 = (f, []) ∧ f.ok = true

namespace Expr

/-- The texts of the grammar, with names of so many characters at most. -/
def WellFormedUpTo (longest : ℕ) : Expr → Prop
  | number literal => IsNumber literal
  | param e => e.WellFormedUpTo longest ∧ e.operators = []
  | namedParam name => name.length ≤ longest ∧ '>' ∉ name
  | plus e => e.WellFormedUpTo longest ∧ e.operators = [] ∧ signsOperand e.text = true
  | minus e => e.WellFormedUpTo longest ∧ e.operators = [] ∧ signsOperand e.text = true
  | unary operation e => operation.Plain ∧ e.WellFormedUpTo longest
  | atan e₁ e₂ => e₁.WellFormedUpTo longest ∧ e₂.WellFormedUpTo longest
  | .exists name => ']' ∉ name
  | setting id => id.WellFormedUpTo longest ∧ id.operators = []
  | settingBit id bit => (id.WellFormedUpTo longest ∧ id.operators = []) ∧ bit.WellFormedUpTo longest ∧ bit.operators = []
  | bracket e => e.WellFormedUpTo longest
  | binary lhs operation rhs => operation.Between ∧ lhs.WellFormedUpTo longest ∧ rhs.WellFormedUpTo longest ∧
      (∀ o ∈ lhs.operators, precedence operation ≤ precedence o) ∧
      ∀ o ∈ rhs.operators, precedence operation < precedence o

def WellFormed (e : Expr) : Prop := e.WellFormedUpTo ngcMaxParamLength

end Expr

/-! ## Every sequence of operands -/

namespace Expr

/-- One more operator and operand at the end of the text. -/
def attach : Expr → BinaryOp → Expr → Expr
  | binary lhs o rhs, operation, x =>
      if precedence o < precedence operation then binary lhs o (rhs.attach operation x)
      else binary (binary lhs o rhs) operation x
  | e, operation, x => binary e operation x

@[simp] theorem text_attach (e : Expr) (operation : BinaryOp) (x : Expr) :
    (e.attach operation x).text = e.text ++ (operation.text ++ x.text) := by
  induction e with
  | binary lhs o rhs _ ih =>
      rw [attach]
      split_ifs
      · simp [text, ih]
      · simp [text]
  | _ => simp [attach, text]

theorem operators_attach (e : Expr) (operation : BinaryOp) {x : Expr} (hx : x.operators = []) :
    (e.attach operation x).operators = e.operators ++ [operation] := by
  induction e with
  | binary lhs o rhs _ ih =>
      rw [attach]
      split_ifs
      · simp [operators, ih]
      · simp [operators, hx]
  | _ => simp [attach, operators, hx]

theorem WellFormedUpTo.attach {longest : ℕ} {e x : Expr} {operation : BinaryOp} (h : e.WellFormedUpTo longest)
    (hop : operation.Between) (hx : x.WellFormedUpTo longest) (hxo : x.operators = []) :
    (e.attach operation x).WellFormedUpTo longest := by
  induction e with
  | binary lhs o rhs _ ih =>
      obtain ⟨ho, hl, hr, hlp, hrp⟩ := h
      rw [Expr.attach]
      split_ifs with hlt
      · refine ⟨ho, hl, ih hr, hlp, ?_⟩
        rw [operators_attach _ _ hxo]
        intro o' ho'
        rcases List.mem_append.1 ho' with ho' | ho'
        · exact hrp o' ho'
        · rw [List.mem_singleton.1 ho']
          exact hlt
      · -- the least operator of the left side is its last one taken
        refine ⟨hop, ⟨ho, hl, hr, hlp, hrp⟩, hx, ?_, by simp [hxo]⟩
        intro o' ho'
        rcases List.mem_append.1 ho' with ho' | ho'
        · have := hlp o' ho'
          omega
        · rcases List.mem_cons.1 ho' with rfl | ho'
          · omega
          · have := hrp o' ho'
            omega
  | _ => exact ⟨hop, h, hx, by simp [operators], by simp [hxo]⟩

theorem exists_text_eq {first : Expr} (hfirst : first.WellFormed)
    (more : List (BinaryOp × Expr))
    (hmore : ∀ y ∈ more, y.1.Between ∧ y.2.WellFormed ∧ y.2.operators = []) :
    ∃ e : Expr, e.WellFormed ∧ e.text = first.text ++ more.flatMap fun y => y.1.text ++ y.2.text := by
  induction more generalizing first with
  | nil => exact ⟨first, hfirst, by simp⟩
  | cons y more ih =>
      obtain ⟨hop, hx, hxo⟩ := hmore y (by simp)
      obtain ⟨e, he, htext⟩ := ih (hfirst.attach hop hx hxo) fun z hz => hmore z (by simp [hz])
      exact ⟨e, he, by simp [htext]⟩

end Expr

/-! ## The meaning -/

section
variable (A : Arith ν) (H : Host ν)

def literalValue (literal : List Char) : ν :=
  let f := (scanFloat {} (readSign literal).2).1
  A.decimal (readSign literal).1 f.intval f.exp

def numberedParam (id : ℤ) : Except Status ν :=
  if id < 0 then .error .gcodeValueOutOfRange
  else
    match H.param (id % 65536).toNat with
    | some value => .ok value
    | none => .error .gcodeValueOutOfRange

def settingBitValue (id bit : ℤ) : Except Status ν :=
  if bit < 0 ∨ 31 < bit then .error .expressionArgumentOutOfRange else H.setting id (some bit)

namespace Expr

/-- Operands are evaluated from left to right, and an operator after its operands. -/
def eval : Expr → Except Status ν
  | number literal => .ok (literalValue A literal)
  | param e => do
      let id ← A.toInteger (← e.eval)
      numberedParam H id
  | namedParam name =>
      match H.namedParam (name.map lcaps) with
      | some value => .ok value
      | none => .error .badNumberFormat
  | plus e => e.eval
  | minus e => do
      let value ← e.eval
      return A.neg value
  | unary operation e => do A.unary operation (← e.eval)
  | atan e₁ e₂ => do
      let y ← e₁.eval
      let x ← e₂.eval
      return A.atan2 y x
  | .exists name => .ok (if (H.namedParam name).isSome then A.one else A.zero)
  | setting id => do
      let id ← A.toInteger (← id.eval)
      H.setting id none
  | settingBit id bit => do
      let id ← A.toInteger (← id.eval)
      let bit ← A.toInteger (← bit.eval)
      settingBitValue H id bit
  | bracket e => e.eval
  | binary lhs operation rhs => do
      let x ← lhs.eval
      let y ← rhs.eval
      A.binary operation x y

end Expr

def FiniteResult (result : Except Status ν) : Prop := ∀ value, result = .ok value → A.notFinite value = false

namespace Expr

/-- The values met when the expression is evaluated are finite. -/
def Finite : Expr → Prop
  | number literal => FiniteResult A ((number literal).eval A H)
  | param e => e.Finite ∧ FiniteResult A ((param e).eval A H)
  | namedParam name => FiniteResult A ((namedParam name).eval A H)
  | plus e => e.Finite
  | minus e => e.Finite
  | unary operation e => e.Finite ∧ FiniteResult A ((unary operation e).eval A H)
  | atan e₁ e₂ => e₁.Finite ∧ (∀ y, e₁.eval A H = .ok y → e₂.Finite) ∧ FiniteResult A ((atan e₁ e₂).eval A H)
  | .exists _ => True
  | setting id => id.Finite ∧ FiniteResult A ((setting id).eval A H)
  | settingBit id bit => id.Finite ∧ (∀ v, id.eval A H = .ok v → bit.Finite) ∧
      FiniteResult A ((settingBit id bit).eval A H)
  | bracket e => e.Finite
  | binary lhs operation rhs => lhs.Finite ∧ (∀ x, lhs.eval A H = .ok x → rhs.Finite) ∧
      FiniteResult A ((binary lhs operation rhs).eval A H)

end Expr

/-- The numbers the evaluator itself produces are finite. -/
structure FiniteArith : Prop where
  zero : A.notFinite A.zero = false
  one : A.notFinite A.one = false
  neg : ∀ value, A.notFinite value = false → A.notFinite (A.neg value) = false

/-- So is what happens to be in its variables. -/
structure FiniteNumbers : Prop extends FiniteArith A where
  uninit : ∀ s, A.notFinite (H.uninit s) = false

end

variable {A : Arith ν} {H : Host ν}

/-! ## Tokens -/

/-- A number does not go on here. -/
def EndsNumber : List Char → Prop
  | c :: _ => c.isDigit = false ∧ c ≠ '.'
  | [] => True

theorem readOperation_text {op : BinaryOp} {rest : List Char} (hop : op ≠ .noOp)
    (hrest : op = .times → rest.head? ≠ some '*') : readOperation (op.text ++ rest) = .ok (op, rest) := by
  cases op with
  | noOp => exact absurd rfl hop
  | times =>
      cases rest with
      | nil => rfl
      | cons c s =>
          have hc : ('*' : Char) ≠ c := fun h => hrest rfl (by rw [← h]; rfl)
          simp [readOperation, readKeyword, binaryOps, BinaryOp.text, stripKeyword, hc]
  | _ => cases rest <;> rfl

theorem readOperationUnary_text (op : UnaryOp) (rest : List Char) :
    readOperationUnary (op.text ++ rest) = .ok (op, rest) := by
  cases op <;> cases rest <;> rfl

theorem endsNumber_text {op : BinaryOp} (hop : op ≠ .noOp) (rest : List Char) :
    EndsNumber (op.text ++ rest) := by
  cases op with
  | noOp => exact absurd rfl hop
  | _ => exact ⟨rfl, by decide⟩

theorem endsNumber_bracket (s : List Char) : EndsNumber (']' :: s) := ⟨rfl, by decide⟩

theorem endsNumber_comma (s : List Char) : EndsNumber (',' :: s) := ⟨rfl, by decide⟩

theorem scanFloat_append {f f' : FloatScan} {s rest : List Char} (h : scanFloat f s = (f', []))
    (hrest : EndsNumber rest) : scanFloat f (s ++ rest) = (f', rest) := by
  induction s generalizing f with
  | nil =>
      cases h
      cases rest with
      | nil => rfl
      | cons c rest => simp [scanFloat, FloatScan.next, hrest.1, hrest.2]
  | cons c s ih =>
      rw [scanFloat] at h
      rw [List.cons_append, scanFloat]
      cases hn : f.next c with
      | none => simp [hn] at h
      | some f₁ =>
          rw [hn] at h
          exact ih h

theorem isDigit_or_point {f f' : FloatScan} {c : Char} (h : f.next c = some f') :
    c.isDigit = true ∨ c = '.' := by
  rw [FloatScan.next] at h
  split at h
  case isTrue hd => exact Or.inl hd
  case isFalse =>
    split at h
    case isTrue hp => exact Or.inr hp.1
    case isFalse => cases h

theorem scanFloat_head {f : FloatScan} {s : List Char} (h : scanFloat {} s = (f, [])) (hok : f.ok = true) :
    ∃ c t, s = c :: t ∧ (c.isDigit = true ∨ c = '.') := by
  cases s with
  | nil =>
      cases h
      cases hok
  | cons c t =>
      refine ⟨c, t, rfl, ?_⟩
      rw [scanFloat] at h
      cases hn : FloatScan.next {} c with
      | none => simp [hn] at h
      | some f₁ => exact isDigit_or_point hn

theorem readSign_plain {c : Char} (hm : c ≠ '-') (hp : c ≠ '+') (s : List Char) : readSign (c :: s) = (false, c :: s) := by
  rw [readSign]
  · rintro _ ⟨rfl⟩
    exact hm rfl
  · rintro _ ⟨rfl⟩
    exact hp rfl

theorem IsNumber.head {s : List Char} (h : IsNumber s) :
    (∃ c t, s = c :: t ∧ (c.isDigit = true ∨ c = '.')) ∨
      ∃ c d t, s = c :: d :: t ∧ (c = '+' ∨ c = '-') ∧ (d.isDigit = true ∨ d = '.') := by
  obtain ⟨f, hf, hok⟩ := h
  match s, hf with
  | '-' :: s, hf =>
      obtain ⟨d, t, rfl, hd⟩ := scanFloat_head hf hok
      exact Or.inr ⟨'-', d, t, rfl, Or.inr rfl, hd⟩
  | '+' :: s, hf =>
      obtain ⟨d, t, rfl, hd⟩ := scanFloat_head hf hok
      exact Or.inr ⟨'+', d, t, rfl, Or.inl rfl, hd⟩
  | [], hf => exact Or.inl (scanFloat_head hf hok)
  | c :: s, hf =>
      by_cases hm : c = '-'
      · subst hm
        obtain ⟨d, t, rfl, hd⟩ := scanFloat_head hf hok
        exact Or.inr ⟨'-', d, t, rfl, Or.inr rfl, hd⟩
      by_cases hp : c = '+'
      · subst hp
        obtain ⟨d, t, rfl, hd⟩ := scanFloat_head hf hok
        exact Or.inr ⟨'+', d, t, rfl, Or.inl rfl, hd⟩
      · rw [readSign_plain hm hp] at hf
        exact Or.inl (scanFloat_head hf hok)

theorem not_letter {c : Char} (hc : c.isDigit = true ∨ c = '.') : ¬('A' ≤ c ∧ c ≤ 'Z') := by
  rintro ⟨ha, -⟩
  rcases hc with hd | rfl
  · have hle : ('A').val.toNat ≤ c.val.toNat := UInt32.le_iff_toNat_le.1 (Char.le_def.1 ha)
    have h9 : c.val.toNat ≤ 57 := (Char.isDigit_iff_toNat.1 hd).2
    have hA : ('A').val.toNat = 65 := rfl
    omega
  · revert ha
    decide

theorem ne_of_isDigit {c : Char} (hc : c.isDigit = true ∨ c = '.') :
    c ≠ '[' ∧ c ≠ '#' ∧ c ≠ '+' ∧ c ≠ '-' ∧ c ≠ '*' ∧ c ≠ '<' := by
  refine ⟨?_, ?_, ?_, ?_, ?_, ?_⟩ <;>
  · rintro rfl
    revert hc
    decide

theorem readSign_append (c : Char) (s rest : List Char) :
    readSign (c :: s ++ rest) = ((readSign (c :: s)).1, (readSign (c :: s)).2 ++ rest) := by
  by_cases hm : c = '-'
  · rw [hm]
    rfl
  by_cases hp : c = '+'
  · rw [hp]
    rfl
  · rw [List.cons_append, readSign_plain hm hp, readSign_plain hm hp]
    rfl

theorem readFloat_number {s rest : List Char} (h : IsNumber s) (hrest : EndsNumber rest) :
    readFloat A (s ++ rest) = some (literalValue A s, rest) := by
  obtain ⟨c, t, rfl⟩ : ∃ c t, s = c :: t := by
    rcases h.head with ⟨c, t, rfl, -⟩ | ⟨c, d, t, rfl, -⟩
    · exact ⟨c, t, rfl⟩
    · exact ⟨c, d :: t, rfl⟩
  obtain ⟨f, hf, hok⟩ := h
  simp only [readFloat, readSign_append, scanFloat_append hf hrest, hok, if_true, literalValue, hf]

/-- A literal is left to `read_float`. -/
theorem readRealValue_number {rd : Reader ν} {n : ℕ} {s rest : List Char} {old : ν} (h : IsNumber s)
    (hrest : EndsNumber rest) :
    readRealValue A H rd n (s ++ rest) old = some (checkFinite A ⟨none, literalValue A s, rest⟩) := by
  have hread := readFloat_number (A := A) h hrest
  rcases h.head with ⟨c, t, rfl, hc⟩ | ⟨c, d, t, rfl, hc, hd⟩
  · obtain ⟨h₁, h₂, h₃, h₄, -, -⟩ := ne_of_isDigit hc
    rw [List.cons_append] at hread ⊢
    rw [readRealValue, if_neg h₁, if_neg h₂, if_neg (fun h => h₃ h.1), if_neg (fun h => h₄ h.1),
      if_neg (not_letter hc), hread]
    rfl
  · have hsign : signsOperand (d :: t ++ rest) = false := by
      rcases hd with hd | rfl
      · simp [signsOperand, hd]
      · rfl
    rw [List.cons_append] at hread ⊢
    have hne : c ≠ '[' ∧ c ≠ '#' ∧ ¬('A' ≤ c ∧ c ≤ 'Z') := by
      rcases hc with rfl | rfl <;> decide
    rw [readRealValue, if_neg hne.1, if_neg hne.2.1, hsign, if_neg (by simp), if_neg (by simp),
      if_neg hne.2.2, hread]
    rfl

theorem readNameFrom_append {name rest : List Char} : ∀ {len : ℕ}, len + name.length ≤ ngcMaxParamLength + 1 →
    '>' ∉ name → readNameFrom len (name ++ '>' :: rest) = (name.map lcaps, '>' :: rest) := by
  induction name with
  | nil =>
      intro len _ _
      simp [readNameFrom]
  | cons c name ih =>
      intro len hlen hname
      rw [List.length_cons] at hlen
      have hc : c ≠ '>' := fun h => hname (by simp [h])
      have hname' : '>' ∉ name := fun h => hname (List.mem_cons_of_mem _ h)
      rw [List.cons_append, readNameFrom, if_pos ⟨hc, by omega⟩, ih (by omega) hname']
      rfl

theorem ngcReadName_append {name rest : List Char} (hlen : name.length ≤ ngcMaxParamLength + 1)
    (hname : '>' ∉ name) : ngcReadName ('<' :: (name ++ '>' :: rest)) = .ok (name.map lcaps, rest) := by
  rw [ngcReadName, readNameFrom_append (by omega) hname]
  rfl

theorem readExists_append {name rest : List Char} {old : ν} (hname : ']' ∉ name) :
    readExists A H ('#' :: '<' :: (name ++ '>' :: ']' :: rest)) old =
      ⟨none, if (H.namedParam name).isSome then A.one else A.zero, rest⟩ := by
  have hpass : ∀ c ∈ name, decide (c ≠ ']') = true := by
    intro c hc
    simp only [decide_eq_true_eq]
    rintro rfl
    exact hname hc
  simp only [readExists, List.takeWhile_append_of_pos hpass, List.dropWhile_append_of_pos hpass]
  simp

/-! ## The operator stack -/

/-- `MAX_STACK`, the length of the arrays `values` and `operators` -/
def maxStack : ℕ := 7

/-- Every operator on the stack binds tighter than the ones below it. -/
def Sorted (stack : List (ν × BinaryOp)) : Prop := stack.IsChain fun x y => precedence y.2 < precedence x.2

theorem precedence_pos (op : BinaryOp) : 0 < precedence op := by cases op <;> decide

theorem precedence_lt_maxStack (op : BinaryOp) : precedence op < maxStack := by cases op <;> decide

theorem sorted_tail {x : ν × BinaryOp} {stack : List (ν × BinaryOp)} (h : Sorted (x :: stack)) :
    Sorted stack := by
  cases stack with
  | nil => exact List.IsChain.nil
  | cons y stack => exact (List.isChain_cons_cons.1 h).2

theorem sorted_reduce {stack stack' : List (ν × BinaryOp)} {value : ν} {op : BinaryOp} (h : Sorted stack)
    (hr : reduce A stack value op = .ok stack') : Sorted stack' := by
  induction stack generalizing value with
  | nil =>
      cases hr
      exact List.IsChain.singleton _
  | cons x stack ih =>
      rw [reduce] at hr
      split at hr
      case isTrue =>
        cases hb : A.binary x.2 x.1 value with
        | error e => simp [hb] at hr
        | ok result =>
            rw [hb] at hr
            exact ih (sorted_tail h) hr
      case isFalse hlt =>
        cases hr
        exact List.isChain_cons_cons.2 ⟨by simpa using hlt, h⟩

theorem Sorted.length_le {stack : List (ν × BinaryOp)} (h : Sorted stack) :
    ∀ x ∈ stack.head?, stack.length ≤ precedence x.2 := by
  induction stack with
  | nil => simp
  | cons y stack ih =>
      rintro _ ⟨rfl⟩
      cases stack with
      | nil => exact precedence_pos _
      | cons z stack =>
          obtain ⟨hlt, hrest⟩ := List.isChain_cons_cons.1 h
          have := ih hrest z rfl
          rw [List.length_cons]
          omega

/-! ## Operands and chains -/

/-- What a reader returns when the value is the last thing it has read. -/
def Agrees (A : Arith ν) (result : Except Status ν) (rest : List Char) (r : Read ν) : Prop :=
  match result with
  | .ok value => r = ⟨none, value, rest⟩ ∧ A.notFinite value = false
  | .error e => r.status = some e ∧ A.notFinite r.value = false

/-- Reading the operand returns its meaning. -/
def OperandSpec (A : Arith ν) (H : Host ν) (rd : Reader ν) (e : Expr) : Prop :=
  ∀ rest old, EndsNumber rest → A.notFinite old = false →
    ∃ r, rd (e.text ++ rest) old = some r ∧ Agrees A (e.eval A H) rest r

/-- What is left to do when the value of an operand, or of operators that bind tighter, is there. -/
def afterValue (A : Arith ν) (H : Host ν) (rd : Reader ν) (n : ℕ) (stack : List (ν × BinaryOp))
    (op : BinaryOp) (rest : List Char) (result : Except Status ν) : Option (Except Status (ν × List Char)) :=
  match result with
  | .error e => some (.error e)
  | .ok value =>
      match reduce A stack value op with
      | .error e => some (.error e)
      | .ok stack => evalLoop A H rd n stack rest

/-- In front of an operator that does not bind tighter than those of the expression, and after operators
that bind less tightly than these, the expression is reduced to its meaning. -/
def ChainSpec (A : Arith ν) (H : Host ν) (rd : Reader ν) (e : Expr) : Prop :=
  ∀ n stack op rest, op ≠ .noOp → (op = .times → rest.head? ≠ some '*') →
    (∀ o ∈ e.operators, precedence op ≤ precedence o) →
    (∀ x ∈ stack.head?, ∀ o ∈ e.operators, precedence x.2 < precedence o) →
    (∀ x ∈ stack, x.2 ≠ .rightBracket) →
    stepLoop A H rd (n + e.operators.length) stack (e.text ++ (op.text ++ rest)) =
      afterValue A H rd n stack op rest (e.eval A H)

/-- Reading the expression in brackets returns its meaning. -/
def BracketSpec (A : Arith ν) (H : Host ν) (rd : Reader ν) (n : ℕ) (e : Expr) : Prop :=
  ∀ rest old, A.notFinite old = false →
    ∃ r, ngcEvalExpression A H rd n ('[' :: (e.text ++ ']' :: rest)) old = some r ∧
      Agrees A (e.eval A H) rest r

section
variable {rd : Reader ν} {n : ℕ} {e : Expr}

theorem Agrees.checkFinite {result : Except Status ν} {rest : List Char} {r : Read ν}
    (h : Agrees A result rest r) : checkFinite A r = r := by
  cases result with
  | error _ => simp [Ngc.checkFinite, h.2]
  | ok value =>
      obtain ⟨rfl, hv⟩ := h
      simp [Ngc.checkFinite, hv]

theorem evalLoop_succ {stack : List (ν × BinaryOp)} {s : List Char}
    (h : ∀ x ∈ stack, x.2 ≠ .rightBracket) : evalLoop A H rd (n + 1) stack s = stepLoop A H rd n stack s := by
  rw [evalLoop]
  split
  case h_1 value hlast => exact absurd rfl (h _ (List.mem_of_getLast? hlast))
  case h_2 => rfl

theorem chainSpec_of_operand (hH : FiniteNumbers A H) (he : e.operators = []) (h : OperandSpec A H rd e) :
    ChainSpec A H rd e := by
  intro n stack op rest hop hrest _ _ _
  obtain ⟨r, hr, hagree⟩ := h (op.text ++ rest) (H.uninit (e.text ++ (op.text ++ rest)))
    (endsNumber_text hop rest) (hH.uninit _)
  rw [stepLoop, readStep, hr, he, List.length_nil, Nat.add_zero]
  cases hv : e.eval A H with
  | error er =>
      rw [hv] at hagree
      simp [afterValue, hagree.1]
  | ok value =>
      rw [hv] at hagree
      rw [hagree.1, afterValue]
      simp only [Option.map_some, readOperation_text hop hrest]
      cases reduce A stack value op <;> rfl

theorem chainSpec_binary {lhs rhs : Expr} {operation : BinaryOp} (hop : operation.Between)
    (hhead : rhs.text.head? ≠ some '*') (hne : rhs.text ≠ [])
    (hl : ∀ o ∈ lhs.operators, precedence operation ≤ precedence o)
    (hr : ∀ o ∈ rhs.operators, precedence operation < precedence o)
    (hlhs : ChainSpec A H rd lhs) (hrhs : ∀ x, lhs.eval A H = .ok x → ChainSpec A H rd rhs) :
    ChainSpec A H rd (.binary lhs operation rhs) := by
  intro n stack op rest hnoop hrest hprec hstack hbracket
  have hmem : operation ∈ (Expr.binary lhs operation rhs).operators := by simp [Expr.operators]
  have hlen : n + (Expr.binary lhs operation rhs).operators.length =
      (n + rhs.operators.length + 1) + lhs.operators.length := by
    simp [Expr.operators]
    omega
  have htext : (Expr.binary lhs operation rhs).text ++ (op.text ++ rest) =
      lhs.text ++ (operation.text ++ (rhs.text ++ (op.text ++ rest))) := by simp [Expr.text]
  have hstar : operation = .times → (rhs.text ++ (op.text ++ rest)).head? ≠ some '*' := by
    intro _
    rwa [List.head?_append_of_ne_nil _ hne]
  have hbelow : ∀ x ∈ stack.head?, ∀ o ∈ lhs.operators, precedence x.2 < precedence o :=
    fun x hx o ho => hstack x hx o (by simp [Expr.operators, ho])
  rw [hlen, htext, hlhs _ stack operation _ hop.1 hstar hl hbelow hbracket, Expr.eval]
  cases hx : lhs.eval A H with
  | error e => rfl
  | ok x =>
      -- nothing below binds as tightly, so the operator is stacked
      have hpush : reduce A stack x operation = .ok ((x, operation) :: stack) := by
        cases stack with
        | nil => rfl
        | cons y stack =>
            have hlt := hstack y (by simp) operation hmem
            rw [reduce, if_neg (by omega)]
      have hbracket' : ∀ y ∈ (x, operation) :: stack, y.2 ≠ .rightBracket := by
        intro y hy
        rcases List.mem_cons.1 hy with rfl | hy
        · exact hop.2
        · exact hbracket y hy
      have hbelow' : ∀ y ∈ ((x, operation) :: stack).head?, ∀ o ∈ rhs.operators,
          precedence y.2 < precedence o := by
        intro y hy
        cases hy
        exact hr
      have hprec' : ∀ o ∈ rhs.operators, precedence op ≤ precedence o := fun o ho =>
        hprec o (by simp [Expr.operators, ho])
      rw [afterValue, hpush]
      simp only
      rw [evalLoop_succ hbracket',
        hrhs x hx n ((x, operation) :: stack) op rest hnoop hrest hprec' hbelow' hbracket']
      cases hy : rhs.eval A H with
      | error e => rfl
      | ok y =>
          simp only [afterValue, reduce, if_pos (hprec operation hmem)]
          show _ = match A.binary operation x y with
            | .error e => _
            | .ok value => _
          cases A.binary operation x y <;> rfl

theorem stepLoop_bracket (hlen : e.operators.length < n) (h : ChainSpec A H rd e) (rest : List Char) :
    stepLoop A H rd n [] (e.text ++ ']' :: rest) =
      some ((e.eval A H).map fun value => (value, rest)) := by
  obtain ⟨m, rfl⟩ : ∃ m, n = m + 1 + e.operators.length := ⟨n - 1 - e.operators.length, by omega⟩
  have hbracket : ∀ o : BinaryOp, precedence .rightBracket ≤ precedence o := by
    intro o
    cases o <;> decide
  refine (h (m + 1) [] .rightBracket rest (by simp) (by simp) (fun o _ => hbracket o) (by simp)
    (by simp)).trans ?_
  cases e.eval A H <;> rfl

theorem bracketSpec (hlen : e.operators.length < n) (h : ChainSpec A H rd e)
    (hv : FiniteResult A (e.eval A H)) : BracketSpec A H rd n e := by
  intro rest old hold
  rw [ngcEvalExpression, stepLoop_bracket hlen h]
  cases hval : e.eval A H with
  | error er => exact ⟨_, rfl, rfl, hold⟩
  | ok value => exact ⟨_, rfl, rfl, hv value hval⟩

end

/-! ## Texts -/

theorem UnaryOp.text_head (op : UnaryOp) : ∃ c t, op.text = c :: t ∧ c ≠ '*' ∧ c ≠ '<' := by
  cases op <;> exact ⟨_, _, rfl, by decide, by decide⟩

theorem Expr.WellFormedUpTo.head {longest : ℕ} {e : Expr} (h : e.WellFormedUpTo longest) :
    ∃ c t, e.text = c :: t ∧ c ≠ '*' ∧ c ≠ '<' := by
  induction e with
  | number literal =>
      rcases IsNumber.head h with ⟨c, t, rfl, hc⟩ | ⟨c, d, t, rfl, hc, -⟩
      · obtain ⟨-, -, -, -, h₁, h₂⟩ := ne_of_isDigit hc
        exact ⟨c, t, rfl, h₁, h₂⟩
      · refine ⟨c, d :: t, rfl, ?_⟩
        rcases hc with rfl | rfl <;> decide
  | unary operation e _ =>
      obtain ⟨c, t, ht, hc⟩ := operation.text_head
      exact ⟨c, t ++ '[' :: e.text ++ [']'], by rw [text, ht]; simp, hc⟩
  | binary lhs operation rhs ihl _ =>
      obtain ⟨c, t, ht, hc⟩ := ihl h.2.1
      exact ⟨c, t ++ operation.text ++ rhs.text, by rw [text, ht]; simp, hc⟩
  | param e _ => exact ⟨_, _, rfl, by decide, by decide⟩
  | namedParam name => exact ⟨_, _, rfl, by decide, by decide⟩
  | plus e _ => exact ⟨_, _, rfl, by decide, by decide⟩
  | minus e _ => exact ⟨_, _, rfl, by decide, by decide⟩
  | atan e₁ e₂ _ _ => exact ⟨_, _, rfl, by decide, by decide⟩
  | «exists» name => exact ⟨_, _, rfl, by decide, by decide⟩
  | setting id _ => exact ⟨_, _, rfl, by decide, by decide⟩
  | settingBit id bit _ _ => exact ⟨_, _, rfl, by decide, by decide⟩
  | bracket e _ => exact ⟨_, _, rfl, by decide, by decide⟩

theorem BinaryOp.length_text_pos {op : BinaryOp} (h : op ≠ .noOp) : 0 < op.text.length := by
  cases op with
  | noOp => exact absurd rfl h
  | _ => decide

theorem Expr.WellFormedUpTo.operators_length_lt {longest : ℕ} {e : Expr} (h : e.WellFormedUpTo longest) :
    e.operators.length < e.text.length := by
  induction e with
  | binary lhs operation rhs ihl ihr =>
      have hl := ihl h.2.1
      have hr := ihr h.2.2.1
      have hop := BinaryOp.length_text_pos h.1.1
      simp only [operators, text, List.length_append, List.length_cons]
      omega
  | _ =>
      obtain ⟨c, t, ht, -⟩ := Expr.WellFormedUpTo.head h
      rw [ht]
      simp [operators]

theorem Expr.Finite.result {e : Expr} (hA : FiniteArith A) (h : e.Finite A H) :
    FiniteResult A (e.eval A H) := by
  induction e with
  | number literal => exact h
  | namedParam name => exact h
  | param e _ => exact h.2
  | unary operation e _ => exact h.2
  | setting id _ => exact h.2
  | atan e₁ e₂ _ _ => exact h.2.2
  | settingBit id bit _ _ => exact h.2.2
  | binary lhs operation rhs _ _ => exact h.2.2
  | plus e ih => exact ih h
  | bracket e ih => exact ih h
  | minus e ih =>
      intro value hv
      rw [eval] at hv
      cases he : e.eval A H with
      | error er => simp [he] at hv
      | ok v =>
          simp only [he] at hv
          cases hv
          exact hA.neg v (ih h v he)
  | «exists» name =>
      intro value hv
      cases hv
      split
      · exact hA.one
      · exact hA.zero

/-! ## Every operand -/

section
variable {rd : Reader ν} {n : ℕ} {e : Expr} {rest : List Char} {old : ν}

theorem signsOperand_append {s : List Char} (h : signsOperand s = true) : signsOperand (s ++ rest) = true := by
  cases s with
  | nil => cases h
  | cons c s => exact h

theorem readInteger_spec (hH : FiniteNumbers A H) (h : OperandSpec A H rd e) (hrest : EndsNumber rest) :
    ngcReadIntegerValue A H rd (e.text ++ rest) =
      some ((e.eval A H >>= A.toInteger).map fun i => (i, rest)) := by
  obtain ⟨r, hr, hagree⟩ := h rest (H.uninit (e.text ++ rest)) hrest (hH.uninit _)
  rw [ngcReadIntegerValue, hr]
  cases hv : e.eval A H with
  | error er =>
      rw [hv] at hagree
      rw [Option.map_some, hagree.1]
      rfl
  | ok value =>
      rw [hv] at hagree
      rw [Option.map_some, hagree.1]
      rfl

theorem readRealValue_unary (op : UnaryOp) (s : List Char) :
    readRealValue A H rd n (op.text ++ s) old = (readUnary A H rd n (op.text ++ s) old).map (checkFinite A) := by
  cases op <;> rfl

theorem operand_of_agrees {r : Read ν} {o : Option (Read ν)} {result : Except Status ν} (ho : o = some r)
    (h : Agrees A result rest r) : ∃ r, o.map (checkFinite A) = some r ∧ Agrees A result rest r :=
  ⟨r, by rw [ho, Option.map_some, h.checkFinite], h⟩

theorem operand_number {literal : List Char} (h : (Expr.number literal).WellFormed)
    (hfin : (Expr.number literal).Finite A H) : OperandSpec A H (readRealValue A H rd n) (.number literal) := by
  intro rest old hrest _
  have hv := hfin _ rfl
  rw [Expr.text, readRealValue_number h hrest, ← Option.map_some]
  exact operand_of_agrees rfl ⟨rfl, hv⟩

theorem agrees_paramValue (hH : FiniteNumbers A H) {id : ℤ} (hold : A.notFinite old = false)
    (hv : FiniteResult A (numberedParam H id)) :
    Agrees A (numberedParam H id) rest (paramValue A H id old rest) := by
  rw [numberedParam] at hv ⊢
  rw [paramValue]
  split
  case isTrue => exact ⟨rfl, hold⟩
  case isFalse hneg =>
    rw [if_neg hneg] at hv
    cases hp : H.param (id % 65536).toNat with
    | none => exact ⟨rfl, hH.zero⟩
    | some v =>
        rw [hp] at hv
        exact ⟨rfl, hv v rfl⟩

theorem ngcReadParameter_text {longest : ℕ} (rd : Reader ν) (hwf : e.WellFormedUpTo longest) (rest : List Char) (old : ν) :
    ngcReadParameter A H rd ('#' :: (e.text ++ rest)) old =
      (ngcReadIntegerValue A H rd (e.text ++ rest)).map fun
        | .error er => ⟨some er, old, e.text ++ rest⟩
        | .ok (param, rest) => paramValue A H param old rest := by
  obtain ⟨c, t, ht, -, hc⟩ := hwf.head
  rewrite [ht, List.cons_append, ngcReadParameter]
  · rfl
  · rintro _ ⟨rfl⟩
    exact hc rfl

theorem operand_param (hH : FiniteNumbers A H) (hwf : e.WellFormed) (hfin : (Expr.param e).Finite A H)
    (h : OperandSpec A H rd e) : OperandSpec A H (readRealValue A H rd n) (.param e) := by
  intro rest old hrest hold
  have hread := ngcReadParameter_text (A := A) (H := H) rd hwf rest old
  have hdispatch : readRealValue A H rd n ((Expr.param e).text ++ rest) old =
      (ngcReadParameter A H rd ('#' :: (e.text ++ rest)) old).map (checkFinite A) := rfl
  rw [hdispatch]
  rw [readInteger_spec hH h hrest] at hread
  have hv : FiniteResult A ((Expr.param e).eval A H) := hfin.2
  rw [Expr.eval] at hv ⊢
  cases he : e.eval A H with
  | error er =>
      rw [he] at hread
      exact operand_of_agrees hread ⟨rfl, hold⟩
  | ok value =>
      rw [he] at hread hv
      simp only [bind, Except.bind] at hread hv ⊢
      cases hi : A.toInteger value with
      | error er =>
          rw [hi] at hread
          exact operand_of_agrees hread ⟨rfl, hold⟩
      | ok id =>
          rw [hi] at hread hv
          exact operand_of_agrees hread (agrees_paramValue hH hold hv)

theorem ngcReadParameter_name {name : List Char} (hlen : name.length ≤ ngcMaxParamLength + 1) (hname : '>' ∉ name) :
    ngcReadParameter A H rd ('#' :: '<' :: (name ++ '>' :: rest)) old =
      some (match H.namedParam (name.map lcaps) with
        | some value => ⟨none, value, rest⟩
        | none => ⟨some .badNumberFormat,
            if nameSupplied (ngcNameToLower (name.map lcaps)) then A.zero else old, rest⟩) := by
  rewrite [ngcReadParameter, ngcReadName_append hlen hname]
  rfl

theorem operand_namedParam (hH : FiniteNumbers A H) {name : List Char}
    (hwf : (Expr.namedParam name).WellFormed) (hfin : (Expr.namedParam name).Finite A H) :
    OperandSpec A H (readRealValue A H rd n) (.namedParam name) := by
  intro rest old _ hold
  have htext : (Expr.namedParam name).text ++ rest = '#' :: '<' :: (name ++ '>' :: rest) := by
    simp [Expr.text]
  have hdispatch : readRealValue A H rd n ('#' :: '<' :: (name ++ '>' :: rest)) old =
      (ngcReadParameter A H rd ('#' :: '<' :: (name ++ '>' :: rest)) old).map (checkFinite A) := rfl
  have hv : FiniteResult A ((Expr.namedParam name).eval A H) := hfin
  rw [htext, hdispatch]
  refine operand_of_agrees (ngcReadParameter_name (Nat.le_succ_of_le hwf.1) hwf.2) ?_
  rw [Expr.eval] at hv ⊢
  cases hn : H.namedParam (name.map lcaps) with
  | none =>
      refine ⟨rfl, ?_⟩
      show A.notFinite (if _ then _ else _) = false
      split
      · exact hH.zero
      · exact hold
  | some value =>
      rw [hn] at hv
      exact ⟨rfl, hv value rfl⟩

theorem readRealValue_plus (hsigns : signsOperand e.text = true) : readRealValue A H rd n ((Expr.plus e).text ++ rest) old =
    (rd (e.text ++ rest) old).map (checkFinite A) := by
  rw [Expr.text, List.cons_append, readRealValue, if_neg (by decide), if_neg (by decide),
    if_pos ⟨rfl, signsOperand_append hsigns⟩]

theorem operand_plus (hwf : (Expr.plus e).WellFormed) (h : OperandSpec A H rd e) :
    OperandSpec A H (readRealValue A H rd n) (.plus e) := by
  intro rest old hrest hold
  obtain ⟨r, hr, hagree⟩ := h rest old hrest hold
  rw [readRealValue_plus hwf.2.2]
  exact operand_of_agrees hr hagree

theorem readRealValue_minus (hsigns : signsOperand e.text = true) : readRealValue A H rd n ((Expr.minus e).text ++ rest) old =
    ((rd (e.text ++ rest) old).map fun r => { r with value := A.neg r.value }).map (checkFinite A) := by
  rw [Expr.text, List.cons_append, readRealValue, if_neg (by decide), if_neg (by decide),
    if_neg (by simp), if_pos ⟨rfl, signsOperand_append hsigns⟩]

theorem operand_minus (hH : FiniteNumbers A H) (hwf : (Expr.minus e).WellFormed)
    (h : OperandSpec A H rd e) : OperandSpec A H (readRealValue A H rd n) (.minus e) := by
  intro rest old hrest hold
  obtain ⟨r, hr, hagree⟩ := h rest old hrest hold
  rw [readRealValue_minus hwf.2.2, hr]
  refine operand_of_agrees rfl ?_
  rw [Expr.eval]
  cases he : e.eval A H with
  | error er =>
      rw [he] at hagree
      exact ⟨hagree.1, hH.neg _ hagree.2⟩
  | ok value =>
      rw [he] at hagree
      obtain ⟨rfl, hv⟩ := hagree
      exact ⟨rfl, hH.neg _ hv⟩

theorem operand_bracket (h : BracketSpec A H rd n e) :
    OperandSpec A H (readRealValue A H rd n) (.bracket e) := by
  intro rest old _ hold
  have htext : (Expr.bracket e).text ++ rest = '[' :: (e.text ++ ']' :: rest) := by simp [Expr.text]
  have hdispatch : readRealValue A H rd n ('[' :: (e.text ++ ']' :: rest)) old =
      (ngcEvalExpression A H rd n ('[' :: (e.text ++ ']' :: rest)) old).map (checkFinite A) := rfl
  obtain ⟨r, hr, hagree⟩ := h rest old hold
  rw [htext, hdispatch]
  exact operand_of_agrees hr hagree

theorem readUnary_plain {operation : UnaryOp} (hop : operation.Plain) {r : Read ν}
    (hr : ngcEvalExpression A H rd n ('[' :: (e.text ++ ']' :: rest)) old = some r) :
    readUnary A H rd n (operation.text ++ '[' :: (e.text ++ ']' :: rest)) old =
      some (match r.status with
        | some _ => r
        | none =>
            match A.unary operation r.value with
            | .ok value => ⟨none, value, r.rest⟩
            | .error er => ⟨some er, r.value, r.rest⟩) := by
  rw [readUnary, readOperationUnary_text]
  obtain ⟨h₁, h₂, h₃⟩ := hop
  simp only [hr, Option.bind_some, if_neg h₁]
  cases r.status <;> rfl

theorem operand_unary {operation : UnaryOp} (hop : operation.Plain)
    (hfin : (Expr.unary operation e).Finite A H) (h : BracketSpec A H rd n e) :
    OperandSpec A H (readRealValue A H rd n) (.unary operation e) := by
  intro rest old _ hold
  have htext : (Expr.unary operation e).text ++ rest =
      operation.text ++ '[' :: (e.text ++ ']' :: rest) := by simp [Expr.text]
  obtain ⟨r, hr, hagree⟩ := h rest old hold
  have hread := readUnary_plain hop hr
  have hv : FiniteResult A ((Expr.unary operation e).eval A H) := hfin.2
  rw [htext, readRealValue_unary]
  refine operand_of_agrees hread ?_
  rw [Expr.eval] at hv ⊢
  cases he : e.eval A H with
  | error er =>
      rw [he] at hagree
      rw [hagree.1]
      exact hagree
  | ok value =>
      rw [he] at hagree hv
      obtain ⟨rfl, hfinite⟩ := hagree
      simp only [bind, Except.bind] at hv ⊢
      cases hu : A.unary operation value with
      | error er => exact ⟨rfl, hfinite⟩
      | ok v => exact ⟨rfl, hv v hu⟩

theorem readUnary_atan {s : List Char} {r : Read ν} (hr : ngcEvalExpression A H rd n ('[' :: (e.text ++ ']' :: s)) old = some r) :
    readUnary A H rd n (UnaryOp.atan.text ++ '[' :: (e.text ++ ']' :: s)) old =
      match r.status with
      | some _ => some r
      | none => readAtan A H rd n r.rest r.value := by
  rw [readUnary, readOperationUnary_text]
  cases hs : r.status <;> simp only [hr, hs, Option.bind_some, if_true]

theorem readAtan_text {y : ν} {r : Read ν}
    (hr : ngcEvalExpression A H rd n ('[' :: (e.text ++ ']' :: rest)) (H.uninit (e.text ++ ']' :: rest)) = some r) :
    readAtan A H rd n ('/' :: '[' :: (e.text ++ ']' :: rest)) y =
      some (match r.status with
        | some er => ⟨some er, y, r.rest⟩
        | none => ⟨none, A.atan2 y r.value, r.rest⟩) := by
  rw [readAtan, hr]
  rfl

theorem operand_atan (hH : FiniteNumbers A H) {e₁ e₂ : Expr} (hfin : (Expr.atan e₁ e₂).Finite A H)
    (h₁ : BracketSpec A H rd n e₁) (h₂ : ∀ y, e₁.eval A H = .ok y → BracketSpec A H rd n e₂) :
    OperandSpec A H (readRealValue A H rd n) (.atan e₁ e₂) := by
  intro rest old _ hold
  have htext : (Expr.atan e₁ e₂).text ++ rest =
      UnaryOp.atan.text ++ '[' :: (e₁.text ++ ']' :: ('/' :: '[' :: (e₂.text ++ ']' :: rest))) := by
    simp [Expr.text]
  obtain ⟨r, hr, hagree⟩ := h₁ ('/' :: '[' :: (e₂.text ++ ']' :: rest)) old hold
  have hread := readUnary_atan hr
  have hv : FiniteResult A ((Expr.atan e₁ e₂).eval A H) := hfin.2.2
  rw [htext, readRealValue_unary, hread]
  rw [Expr.eval] at hv ⊢
  cases he : e₁.eval A H with
  | error er =>
      rw [he] at hagree
      rw [hagree.1]
      exact operand_of_agrees rfl hagree
  | ok y =>
      rw [he] at hagree hv
      obtain ⟨rfl, hfinite⟩ := hagree
      obtain ⟨r₂, hr₂, hagree₂⟩ := h₂ y he rest (H.uninit (e₂.text ++ ']' :: rest)) (hH.uninit _)
      refine operand_of_agrees (readAtan_text hr₂) ?_
      simp only [bind, Except.bind] at hv ⊢
      cases he₂ : e₂.eval A H with
      | error er =>
          rw [he₂] at hagree₂
          rw [hagree₂.1]
          exact ⟨rfl, hfinite⟩
      | ok x =>
          rw [he₂] at hagree₂ hv
          obtain ⟨rfl, -⟩ := hagree₂
          exact ⟨rfl, hv _ rfl⟩

theorem readUnary_exists {name : List Char} (hname : ']' ∉ name) :
    readUnary A H rd n (UnaryOp.exists.text ++ '[' :: '#' :: '<' :: (name ++ '>' :: ']' :: rest)) old =
      some ⟨none, if (H.namedParam name).isSome then A.one else A.zero, rest⟩ := by
  rw [readUnary, readOperationUnary_text]
  exact congrArg some (readExists_append hname)

theorem operand_exists (hH : FiniteNumbers A H) {name : List Char} (hwf : (Expr.exists name).WellFormed) :
    OperandSpec A H (readRealValue A H rd n) (.exists name) := by
  intro rest old _ _
  have htext : (Expr.exists name).text ++ rest =
      UnaryOp.exists.text ++ '[' :: '#' :: '<' :: (name ++ '>' :: ']' :: rest) := by simp [Expr.text]
  rw [htext, readRealValue_unary]
  refine operand_of_agrees (readUnary_exists hwf) ⟨rfl, ?_⟩
  split
  · exact hH.one
  · exact hH.zero

theorem agrees_readSettingEnd {id : ℤ} {bit : Option ℤ} (hold : A.notFinite old = false)
    (hv : FiniteResult A (H.setting id bit)) :
    Agrees A (H.setting id bit) rest (readSettingEnd H id bit (']' :: rest) old) := by
  rw [readSettingEnd]
  cases hs : H.setting id bit with
  | error er => exact ⟨rfl, hold⟩
  | ok value => exact ⟨rfl, hv value hs⟩

theorem operand_setting (hH : FiniteNumbers A H) {id : Expr} (hfin : (Expr.setting id).Finite A H)
    (h : OperandSpec A H rd id) : OperandSpec A H (readRealValue A H rd n) (.setting id) := by
  intro rest old _ hold
  have htext : (Expr.setting id).text ++ rest =
      UnaryOp.parameter.text ++ '[' :: (id.text ++ ']' :: rest) := by simp [Expr.text]
  have hread : readUnary A H rd n (UnaryOp.parameter.text ++ '[' :: (id.text ++ ']' :: rest)) old =
      some (match id.eval A H >>= A.toInteger with
        | .error er => ⟨some er, old, id.text ++ ']' :: rest⟩
        | .ok i => readSettingEnd H i none (']' :: rest) old) := by
    rw [readUnary, readOperationUnary_text]
    show readSetting A H rd _ old = _
    rw [readSetting, readInteger_spec hH h (endsNumber_bracket _), Option.bind_some]
    cases id.eval A H >>= A.toInteger <;> rfl
  have hv : FiniteResult A ((Expr.setting id).eval A H) := hfin.2
  rw [htext, readRealValue_unary]
  refine operand_of_agrees hread ?_
  have heval : (Expr.setting id).eval A H = (id.eval A H >>= A.toInteger) >>= fun i => H.setting i none := by
    rw [Expr.eval]
    cases id.eval A H <;> rfl
  rw [heval] at hv ⊢
  cases hi : id.eval A H >>= A.toInteger with
  | error er => exact ⟨rfl, hold⟩
  | ok i =>
      rw [hi] at hv
      exact agrees_readSettingEnd hold hv

theorem readUnary_settingBit (hH : FiniteNumbers A H) {id : Expr} (h : OperandSpec A H rd id) (bit : Expr) (rest : List Char)
    (old : ν) :
    readUnary A H rd n (UnaryOp.parameter.text ++ '[' :: (id.text ++ ',' :: (bit.text ++ ']' :: rest))) old =
      match id.eval A H >>= A.toInteger with
      | .error er => some ⟨some er, old, id.text ++ ',' :: (bit.text ++ ']' :: rest)⟩
      | .ok i =>
          (ngcReadIntegerValue A H rd (bit.text ++ ']' :: rest)).map fun
            | .error e => ⟨some e, old, bit.text ++ ']' :: rest⟩
            | .ok (bit, rest) =>
                if bit < 0 ∨ 31 < bit then ⟨some .expressionArgumentOutOfRange, old, rest⟩
                else readSettingEnd H i (some bit) rest old := by
  rw [readUnary, readOperationUnary_text]
  show readSetting A H rd _ old = _
  rw [readSetting, readInteger_spec hH h (endsNumber_comma _), Option.bind_some]
  cases id.eval A H >>= A.toInteger <;> rfl

theorem operand_settingBit (hH : FiniteNumbers A H) {id bit : Expr}
    (hfin : (Expr.settingBit id bit).Finite A H) (h : OperandSpec A H rd id)
    (hb : ∀ v, id.eval A H = .ok v → OperandSpec A H rd bit) :
    OperandSpec A H (readRealValue A H rd n) (.settingBit id bit) := by
  intro rest old _ hold
  have htext : (Expr.settingBit id bit).text ++ rest =
      UnaryOp.parameter.text ++ '[' :: (id.text ++ ',' :: (bit.text ++ ']' :: rest)) := by simp [Expr.text]
  have hread := readUnary_settingBit (n := n) hH h bit rest old
  have hv : FiniteResult A ((Expr.settingBit id bit).eval A H) := hfin.2.2
  rw [htext, readRealValue_unary, hread]
  have heval : (Expr.settingBit id bit).eval A H = (id.eval A H >>= A.toInteger) >>= fun i =>
      (bit.eval A H >>= A.toInteger) >>= fun b => settingBitValue H i b := by
    rw [Expr.eval]
    simp only [bind, Except.bind]
    cases id.eval A H with
    | error er => rfl
    | ok v =>
        simp only
        cases A.toInteger v with
        | error er => rfl
        | ok i =>
            simp only
            cases bit.eval A H <;> rfl
  rw [heval] at hv ⊢
  cases hi : id.eval A H >>= A.toInteger with
  | error er => exact operand_of_agrees rfl ⟨rfl, hold⟩
  | ok i =>
      rw [hi] at hv
      obtain ⟨v, hv'⟩ : ∃ v, id.eval A H = .ok v := by
        cases hid : id.eval A H with
        | error er => simp [hid, bind, Except.bind] at hi
        | ok v => exact ⟨v, rfl⟩
      simp only
      rw [readInteger_spec hH (hb v hv') (endsNumber_bracket _), Option.map_some]
      refine operand_of_agrees rfl ?_
      cases hbit : bit.eval A H >>= A.toInteger with
      | error er => exact ⟨rfl, hold⟩
      | ok b =>
          rw [hbit] at hv
          simp only [bind, Except.bind, settingBitValue, Except.map] at hv ⊢
          split
          · exact ⟨rfl, hold⟩
          · rename_i hrange
            rw [if_neg hrange] at hv
            exact agrees_readSettingEnd hold hv

end

/-! ## Every expression -/

/-- The induction is on the expression: operands inside are read with one call less. -/
theorem expr_spec (hH : FiniteNumbers A H) : ∀ (e : Expr), e.WellFormed → e.Finite A H →
    ∀ n, e.text.length ≤ n → (e.operators = [] → OperandSpec A H (ngcReadRealValue A H n) e) ∧
      ChainSpec A H (ngcReadRealValue A H n) e := by
  have hoperand : ∀ {e : Expr} {n : ℕ}, e.operators = [] → OperandSpec A H (ngcReadRealValue A H n) e →
      (e.operators = [] → OperandSpec A H (ngcReadRealValue A H n) e) ∧
        ChainSpec A H (ngcReadRealValue A H n) e := fun he h => ⟨fun _ => h, chainSpec_of_operand hH he h⟩
  have hbracket : ∀ {e : Expr} {n : ℕ}, e.WellFormed → e.Finite A H → e.text.length ≤ n →
      ChainSpec A H (ngcReadRealValue A H n) e → BracketSpec A H (ngcReadRealValue A H n) n e := by
    intro e n hwf hfin hn h
    exact bracketSpec (Nat.lt_of_lt_of_le hwf.operators_length_lt hn) h (hfin.result hH.toFiniteArith)
  intro e
  induction e with
  | number literal =>
      intro hwf hfin n hn
      obtain ⟨c, t, ht, -⟩ := hwf.head
      obtain ⟨m, rfl⟩ : ∃ m, n = m + 1 := ⟨n - 1, by rw [ht, List.length_cons] at hn; omega⟩
      exact hoperand rfl (operand_number hwf hfin)
  | param e ih =>
      intro hwf hfin n hn
      rw [Expr.text, List.length_cons] at hn
      obtain ⟨m, rfl⟩ : ∃ m, n = m + 1 := ⟨n - 1, by omega⟩
      exact hoperand rfl (operand_param hH hwf.1 hfin ((ih hwf.1 hfin.1 m (by omega)).1 hwf.2))
  | namedParam name =>
      intro hwf hfin n hn
      simp only [Expr.text, List.length_append, List.length_cons] at hn
      obtain ⟨m, rfl⟩ : ∃ m, n = m + 1 := ⟨n - 1, by omega⟩
      exact hoperand rfl (operand_namedParam hH hwf hfin)
  | plus e ih =>
      intro hwf hfin n hn
      rw [Expr.text, List.length_cons] at hn
      obtain ⟨m, rfl⟩ : ∃ m, n = m + 1 := ⟨n - 1, by omega⟩
      exact hoperand rfl (operand_plus hwf ((ih hwf.1 hfin m (by omega)).1 hwf.2.1))
  | minus e ih =>
      intro hwf hfin n hn
      rw [Expr.text, List.length_cons] at hn
      obtain ⟨m, rfl⟩ : ∃ m, n = m + 1 := ⟨n - 1, by omega⟩
      exact hoperand rfl (operand_minus hH hwf ((ih hwf.1 hfin m (by omega)).1 hwf.2.1))
  | unary operation e ih =>
      intro hwf hfin n hn
      simp only [Expr.text, List.length_append, List.length_cons] at hn
      obtain ⟨m, rfl⟩ : ∃ m, n = m + 1 := ⟨n - 1, by omega⟩
      have hm : e.text.length ≤ m := by omega
      exact hoperand rfl (operand_unary hwf.1 hfin
        (hbracket hwf.2 hfin.1 hm (ih hwf.2 hfin.1 m hm).2))
  | atan e₁ e₂ ih₁ ih₂ =>
      intro hwf hfin n hn
      simp only [Expr.text, List.length_append, List.length_cons] at hn
      obtain ⟨m, rfl⟩ : ∃ m, n = m + 1 := ⟨n - 1, by omega⟩
      have hm₁ : e₁.text.length ≤ m := by omega
      have hm₂ : e₂.text.length ≤ m := by omega
      exact hoperand rfl (operand_atan hH hfin (hbracket hwf.1 hfin.1 hm₁ (ih₁ hwf.1 hfin.1 m hm₁).2)
        fun y hy => hbracket hwf.2 (hfin.2.1 y hy) hm₂ (ih₂ hwf.2 (hfin.2.1 y hy) m hm₂).2)
  | «exists» name =>
      intro hwf _ n hn
      simp only [Expr.text, List.length_append, List.length_cons] at hn
      obtain ⟨m, rfl⟩ : ∃ m, n = m + 1 := ⟨n - 1, by omega⟩
      exact hoperand rfl (operand_exists hH hwf)
  | setting id ih =>
      intro hwf hfin n hn
      simp only [Expr.text, List.length_append, List.length_cons] at hn
      obtain ⟨m, rfl⟩ : ∃ m, n = m + 1 := ⟨n - 1, by omega⟩
      exact hoperand rfl (operand_setting hH hfin ((ih hwf.1 hfin.1 m (by omega)).1 hwf.2))
  | settingBit id bit ih₁ ih₂ =>
      intro hwf hfin n hn
      simp only [Expr.text, List.length_append, List.length_cons] at hn
      obtain ⟨m, rfl⟩ : ∃ m, n = m + 1 := ⟨n - 1, by omega⟩
      exact hoperand rfl (operand_settingBit hH hfin ((ih₁ hwf.1.1 hfin.1 m (by omega)).1 hwf.1.2)
        fun v hv => (ih₂ hwf.2.1 (hfin.2.1 v hv) m (by omega)).1 hwf.2.2)
  | bracket e ih =>
      intro hwf hfin n hn
      simp only [Expr.text, List.length_append, List.length_cons] at hn
      obtain ⟨m, rfl⟩ : ∃ m, n = m + 1 := ⟨n - 1, by omega⟩
      have hm : e.text.length ≤ m := by omega
      exact hoperand rfl (operand_bracket (hbracket hwf hfin hm (ih hwf hfin m hm).2))
  | binary lhs operation rhs ihl ihr =>
      intro hwf hfin n hn
      obtain ⟨hop, hl, hr, hprecl, hprecr⟩ := hwf
      simp only [Expr.text, List.length_append] at hn
      obtain ⟨c, t, ht, hc, -⟩ := hr.head
      refine ⟨fun h => absurd h (by simp [Expr.operators]), ?_⟩
      exact chainSpec_binary hop (by simpa [ht] using hc) (by simp [ht]) hprecl hprecr
        (ihl hl hfin.1 n (by omega)).2 fun x hx => (ihr hr (hfin.2.1 x hx) n (by omega)).2

/-- The evaluator returns the meaning of the expression in brackets, and stops after the right one. -/
theorem evalLine_of_finite (hH : FiniteNumbers A H) (e : Expr) (hwf : e.WellFormed) (hfin : e.Finite A H)
    (rest : List Char) (old : ν) :
    ∃ r, evalLine A H ('[' :: (e.text ++ ']' :: rest)) old = some r ∧
      match e.eval A H with
      | .ok value => r = ⟨none, value, rest⟩
      | .error status => r.status = some status := by
  have hlen : e.text.length ≤ ('[' :: (e.text ++ ']' :: rest)).length := by
    simp only [List.length_cons, List.length_append]
    omega
  have hchain := (expr_spec hH e hwf hfin _ hlen).2
  rw [evalLine, ngcEvalExpression, stepLoop_bracket (Nat.lt_of_lt_of_le hwf.operators_length_lt hlen) hchain]
  cases e.eval A H with
  | error er => exact ⟨_, rfl, rfl⟩
  | ok value => exact ⟨_, rfl, rfl⟩

/-- Integers; the value of a literal is cut off. -/
def intArith : Arith ℤ where
  zero := 0
  one := 1
  neg := Int.neg
  notFinite _ := false
  decimal isnegative intval exp :=
    (if isnegative then -1 else 1) * intval * 10 ^ exp.toNat / 10 ^ (-exp).toNat
  binary
    | .plus, x, y => .ok (x + y)
    | .minus, x, y => .ok (x - y)
    | .times, x, y => .ok (x * y)
    | .power, x, y => .ok (x ^ y.toNat)
    | _, _, _ => .error .expressionUknownOp
  unary
    | .abs, x => .ok x.natAbs
    | _, _ => .error .expressionUknownOp
  atan2 _ _ := 0
  toInteger := .ok

/-- Numbered parameters hold their numbers, and nothing else has a value. -/
def numberHost : Host ℤ where
  param n := some n
  namedParam _ := none
  setting _ _ := .error .expressionArgumentOutOfRange
  uninit _ := 0

end Grbl.Ngc
