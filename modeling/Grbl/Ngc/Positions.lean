import Grbl.Ngc.Accepts
import Grbl.Ngc.Substitute

/-!
# Positions in a line

The readers with the position that each of them leaves, after errors too.

* `Fault` : what must not happen; `textAt` : reading the line; `PosRead`, `PosReader` : a reader's result;
* `stepLoop`, `ngcEvalExpression`, `ngcReadParameter`, `readUnary`, .., `ngcReadRealValue` : the readers;
* `pass`, `ngcSubstituteParameters` : the callers of `ngc_read_parameter` that go on after an error;
* `Cut` : a text that ends behind an operand in brackets; `Mirrors` : how the readers relate to those on lists;
* `Overflows` : the meaning of what is in brackets is no number; `HoldsNoNumber` : nor is what a parameter holds;
* `mirrors_readRealValue` : the induction on the nested calls; `within_iff`.
-/

namespace Grbl.Ngc.Positions

/-- A character behind the terminator is read, `values` and `operators` have no such element, or there are more
nested calls or rounds than allowed. -/
inductive Fault
  | pastEnd | stackIndex | calls
  deriving DecidableEq

/-- What a reader returns: `none` is `Status_OK`. -/
structure PosRead (ν : Type) where
  status : Option Status
  value : ν
  pos : ℕ

/-- A function that reads a value, from a position, into a variable that holds `old`. -/
abbrev PosReader (ν : Type) := ℕ → ν → Except Fault (PosRead ν)

section
variable {ν : Type} (A : Arith ν) (H : Host ν) (paramExists : ℕ → Bool) (line : List Char) (rd : PosReader ν)

/-- The characters from a position on; the list ends at the terminator. -/
def textAt (pos : ℕ) : Except Fault (List Char) := if pos ≤ line.length then .ok (line.drop pos) else .error .pastEnd

/-- The position of what is left of the line. -/
def posOf (rest : List Char) : ℕ := line.length - rest.length

/-- `(*pos)++`, and the rest of a keyword when there is one. -/
def keywordAt {α : Type} (read : List Char → Except Status (α × List Char)) (pos : ℕ) : Except Fault (Except Status α × ℕ) := do
  let s ← textAt line pos
  return match read s with
    | .ok (operation, rest) => (.ok operation, posOf line rest)
    | .error e => (.error e, pos + 1)

/-- What the latest operator has made of the stack: it is closed, or the next operand is read. -/
def closed (stack : List (ν × BinaryOp)) : Option ν :=
  match stack.getLast? with
  | some (value, .rightBracket) => some value
  | _ => none

/-- Operand, operator, and the loop after them; the operand is read into `values + stack_index`. -/
def stepLoop : ℕ → List (ν × BinaryOp) → ℕ → Except Fault (Except Status ν × ℕ)
  | 0, _, _ => .error .calls
  | n + 1, stack, pos =>
      if maxStack ≤ stack.length then .error .stackIndex
      else do
        let s ← textAt line pos
        let r ← rd pos (H.uninit s)
        match r.status with
        | some e => return (.error e, r.pos)
        | none =>
            let (o, pos) ← keywordAt line readOperation r.pos
            match o with
            | .error e => return (.error e, pos)
            | .ok op =>
                match reduce A stack r.value op with
                | .error e => return (.error e, pos)
                | .ok stack =>
                    match closed stack with
                    | some value => return (.ok value, pos)
                    | none => stepLoop n stack pos

def ngcEvalExpression (n : ℕ) : PosReader ν := fun pos old => do
  let s ← textAt line pos
  if s.head? = some '[' then
    let (o, pos) ← stepLoop A H line rd n [] (pos + 1)
    match o with
    | .ok value => return ⟨none, value, pos⟩
    | .error e => return ⟨some e, old, pos⟩
  else return ⟨some .gcodeUnsupportedCommand, old, pos⟩

def ngcReadIntegerValue (pos : ℕ) : Except Fault (Except Status ℤ × ℕ) := do
  let s ← textAt line pos
  let r ← rd pos (H.uninit s)
  match r.status with
  | some e => return (.error e, r.pos)
  | none => return (A.toInteger r.value, r.pos)

/-- What a parameter number reads; `ngc_param_exists` is asked when `check` is set. -/
def paramRead (check : Bool) (param : ℤ) (old : ν) (pos : ℕ) : PosRead ν :=
  if check ∧ paramExists (param % 65536).toNat = false then ⟨some .gcodeValueOutOfRange, old, pos⟩
  else
    let r := paramValue A H param old []
    ⟨r.status, r.value, pos⟩

def namedRead (name : List Char) (old : ν) (pos : ℕ) : PosRead ν :=
  match H.namedParam name with
  | some value => ⟨none, value, pos⟩
  | none => ⟨some .badNumberFormat, if nameSupplied (ngcNameToLower name) then A.zero else old, pos⟩

def ngcReadParameter (check : Bool) : PosReader ν := fun pos old => do
  let s ← textAt line pos
  if s.head? = some '#' then
    let s ← textAt line (pos + 1)
    if s.head? = some '<' then
      let (name, rest) := readNameFrom 0 s.tail
      if rest.head? = some '>' then return namedRead A H name old (posOf line rest.tail)
      else return ⟨some .flowControlSyntaxError, old, posOf line rest⟩
    else
      let (o, pos) ← ngcReadIntegerValue A H line rd (pos + 1)
      match o with
      | .error e => return ⟨some e, old, pos⟩
      | .ok param => return paramRead A H paramExists check param old pos
  else return ⟨some .badNumberFormat, old, pos⟩

/-- `value` holds the first argument. -/
def readAtan (n : ℕ) : PosReader ν := fun pos value => do
  let s ← textAt line pos
  if s.head? = some '/' then
    let s ← textAt line (pos + 1)
    if s.head? = some '[' then
      let r ← ngcEvalExpression A H line rd n (pos + 1) (H.uninit s.tail)
      match r.status with
      | some e => return ⟨some e, value, r.pos⟩
      | none => return ⟨none, A.atan2 value r.value, r.pos⟩
    else return ⟨some .expressionSyntaxError, value, pos + 1⟩
  else return ⟨some .expressionSyntaxError, value, pos⟩

/-- The argument of `EXISTS`, after its left bracket; the position is moved when it is there. -/
def readExistsAt (pos : ℕ) (old : ν) : Except Fault (PosRead ν) := do
  let s ← textAt line pos
  let r := readExists A H s old
  return ⟨r.status, r.value, if r.status = none then posOf line r.rest else pos⟩

/-- The right bracket, and the setting's value. -/
def settingEndAt (id : ℤ) (bit : Option ℤ) (pos : ℕ) (old : ν) : Except Fault (PosRead ν) := do
  let s ← textAt line pos
  if s.head? = some ']' then
    match H.setting id bit with
    | .ok value => return ⟨none, value, pos + 1⟩
    | .error e => return ⟨some e, old, pos + 1⟩
  else return ⟨some .expressionSyntaxError, old, pos⟩

/-- The arguments of `PRM`, after its left bracket. -/
def settingAt (pos : ℕ) (old : ν) : Except Fault (PosRead ν) := do
  let (o, pos) ← ngcReadIntegerValue A H line rd pos
  match o with
  | .error e => return ⟨some e, old, pos⟩
  | .ok id =>
      let s ← textAt line pos
      if s.head? = some ',' then
        let (o, pos) ← ngcReadIntegerValue A H line rd (pos + 1)
        match o with
        | .error e => return ⟨some e, old, pos⟩
        | .ok bit =>
            if bit < 0 ∨ 31 < bit then return ⟨some .expressionArgumentOutOfRange, old, pos⟩
            else settingEndAt H line id (some bit) pos old
      else settingEndAt H line id none pos old

/-- The argument of a function of values. -/
def functionAt (n : ℕ) (operation : UnaryOp) (pos : ℕ) (old : ν) : Except Fault (PosRead ν) := do
  let r ← ngcEvalExpression A H line rd n pos old
  match r.status with
  | some _ => return r
  | none =>
      if operation = .atan then readAtan A H line rd n r.pos r.value
      else
        match A.unary operation r.value with
        | .ok value => return ⟨none, value, r.pos⟩
        | .error e => return ⟨some e, r.value, r.pos⟩

def readUnary (n : ℕ) : PosReader ν := fun pos old => do
  let (o, pos) ← keywordAt line readOperationUnary pos
  match o with
  | .error e => return ⟨some e, old, pos⟩
  | .ok operation =>
      let s ← textAt line pos
      if s.head? = some '[' then
        match operation with
        | .exists => readExistsAt A H line (pos + 1) old
        | .parameter => settingAt A H line rd (pos + 1) old
        | operation => functionAt A H line rd n operation pos old
      else return ⟨some .expressionSyntaxError, old, pos⟩

/-- What has been read must be a number. -/
def checkFinite (r : PosRead ν) : PosRead ν :=
  if A.notFinite r.value then { r with status := some .expressionInvalidResult } else r

/-- The digits; the position is moved when there is one. -/
def floatAt (pos : ℕ) (old : ν) : Except Fault (PosRead ν) := do
  let s ← textAt line pos
  match readFloat A s with
  | some (value, rest) => return ⟨none, value, posOf line rest⟩
  | none => return ⟨some .badNumberFormat, old, pos⟩

/-- One call, with `rd` for the nested ones. -/
def readRealValue (n : ℕ) : PosReader ν := fun pos old => do
  let s ← textAt line pos
  match s with
  | [] => return ⟨some .expressionSyntaxError, old, pos⟩
  | c :: s =>
      let r ←
        if c = '[' then ngcEvalExpression A H line rd n pos old
        else if c = '#' then ngcReadParameter A H paramExists line rd false pos old
        else if c = '+' ∧ signsOperand s then rd (pos + 1) old
        else if c = '-' ∧ signsOperand s then do
          let r ← rd (pos + 1) old
          pure { r with value := A.neg r.value }
        else if 'A' ≤ c ∧ c ≤ 'Z' then readUnary A H line rd n pos old
        else floatAt A line pos old
      return checkFinite A r

/-- At most `n` calls are nested. -/
def ngcReadRealValue : ℕ → PosReader ν
  | 0 => fun _ _ => .error .calls
  | n + 1 => readRealValue A H paramExists line (ngcReadRealValue n) n

/-- A pass of `ngc_substitute_parameters` from a position on: the format that is being parsed at its end, and the digit of the
format. Both passes move alike. -/
def pass (n : ℕ) : ℕ → ℕ → ℕ → ℕ → Except Fault (ℕ × ℕ)
  | 0, _, _, _ => .error .calls
  | k + 1, pos, parseFormat, d => do
      let s ← textAt line pos
      match s with
      | [] => return (parseFormat, d)
      | c :: s =>
          if parseFormat ≠ 0 then
            let (next, _, d) := getFormat 0 c parseFormat 0 d
            pass n k (pos + 1) next.toNat d
          else if c = '%' then pass n k (pos + 1) 1 d
          else if c = '#' then
            let r ← ngcReadParameter A H paramExists line (ngcReadRealValue A H paramExists line n) true pos (H.uninit s)
            pass n k r.pos 0 d
          else pass n k (pos + 1) 0 d

/-- The second pass starts with what the first one has left. -/
def passes (n : ℕ) (d : ℕ) : Except Fault (ℕ × ℕ) := do
  let (parseFormat, d) ← pass A H paramExists line n n 0 0 d
  pass A H paramExists line n n 0 parseFormat d

/-- `ngc_substitute_parameters`, as far as it reads the line. -/
def ngcSubstituteParameters (n : ℕ) (d : ℕ) : Except Fault (ℕ × ℕ) := passes A H paramExists (line.dropWhile (· = ' ')) n d

end

/-! ## Lines that are cut -/

section
variable {ν : Type} (A : Arith ν) (H : Host ν) (rd : Reader ν) (cut : List Char → Prop)

/-- An operand is cut, or the text ends behind one. -/
def CutLoop : ℕ → List (ν × BinaryOp) → List Char → Prop
  | 0, _, _ => False
  | n + 1, stack, s => cut s ∨ ∃ r, rd s (H.uninit s) = some r ∧ r.status = none ∧
      (r.rest = [] ∨ ∃ op rest stack', readOperation r.rest = .ok (op, rest) ∧ reduce A stack r.value op = .ok stack' ∧
        closed stack' = none ∧ CutLoop n stack' rest)

def CutBracket (n : ℕ) (s : List Char) : Prop := ∃ s', s = '[' :: s' ∧ CutLoop A H rd cut n [] s'

def CutParameter (s : List Char) : Prop := ∃ s', s = '#' :: s' ∧ s'.head? ≠ some '<' ∧ cut s'

def CutAtan (n : ℕ) (s : List Char) : Prop := ∃ s', s = '/' :: s' ∧ CutBracket A H rd cut n s'

/-- The number of a setting is cut, or that of a bit. -/
def CutSetting (s : List Char) : Prop :=
  cut s ∨ ∃ id s', Ngc.ngcReadIntegerValue A H rd s = some (.ok (id, ',' :: s')) ∧ cut s'

/-- The argument of a function is cut, or the second one of `ATAN`. -/
def CutFunction (n : ℕ) (operation : UnaryOp) (s : List Char) : Prop :=
  CutBracket A H rd cut n ('[' :: s) ∨
    operation = .atan ∧ ∃ value rest, Ngc.stepLoop A H rd n [] s = some (.ok (value, rest)) ∧ CutAtan A H rd cut n rest

def CutArgument (n : ℕ) : UnaryOp → List Char → Prop
  | .exists, _ => False
  | .parameter, s => CutSetting A H rd cut s
  | operation, s => CutFunction A H rd cut n operation s

def CutUnary (n : ℕ) (s : List Char) : Prop :=
  ∃ operation s', readOperationUnary s = .ok (operation, '[' :: s') ∧ CutArgument A H rd cut n operation s'

def CutValue (n : ℕ) : List Char → Prop
  | [] => False
  | c :: s =>
      if c = '[' then CutBracket A H rd cut n (c :: s)
      else if c = '#' then CutParameter cut (c :: s)
      else if (c = '+' ∨ c = '-') ∧ signsOperand s then cut s
      else if 'A' ≤ c ∧ c ≤ 'Z' then CutUnary A H rd cut n (c :: s)
      else False

/-- A value begins here, brackets are opened in it, and the text ends behind an operand in them that has been read. -/
def Cut : ℕ → List Char → Prop
  | 0 => fun _ => False
  | n + 1 => CutValue A H (Ngc.ngcReadRealValue A H n) (Cut n) n

end

/-! ## The readers on lists -/

section
variable {ν : Type} {A : Arith ν} {H : Host ν} {paramExists : ℕ → Bool} {line pre rest s : List Char} {pos n : ℕ} {old : ν}

theorem textAt_eq (h : pos ≤ line.length) : textAt line pos = .ok (line.drop pos) := if_pos h

theorem posOf_append (hpos : pos ≤ line.length) (h : line.drop pos = pre ++ rest) :
    posOf line rest = pos + pre.length ∧ line.drop (posOf line rest) = rest ∧ posOf line rest ≤ line.length := by
  have hlen : line.length - pos = pre.length + rest.length := by rw [← List.length_drop, h, List.length_append]
  have heq : posOf line rest = pos + pre.length := by
    rw [posOf]
    omega
  refine ⟨heq, ?_, Nat.sub_le _ _⟩
  rw [heq, ← List.drop_drop, h, List.drop_left]

theorem drop_succ {c : Char} (h : line.drop pos = c :: s) : line.drop (pos + 1) = s ∧ pos < line.length := by
  refine ⟨?_, ?_⟩
  · rw [← List.drop_drop, h]
    rfl
  · have hlen := congrArg List.length h
    rw [List.length_drop, List.length_cons] at hlen
    omega

/-- Where a reader leaves the line: behind its end exactly when the text is cut. -/
structure Places (line : List Char) (cut : Prop) (pos : ℕ) (ok : Prop) (q : ℕ) : Prop where
  ge : pos ≤ q
  ok : ok → pos < q ∧ q ≤ line.length
  le : q ≤ line.length + 1
  cut : q = line.length + 1 ↔ cut

/-- What a reader returns, and what the reader on lists returns. -/
structure Mirror (line : List Char) (cut : Prop) (pos : ℕ) (r : PosRead ν) (r' : Read ν) : Prop where
  status : r.status = r'.status
  value : r.value = r'.value
  rest : r.status = none → r'.rest = line.drop r.pos
  places : Places line cut pos (r.status = none) r.pos

/-- Both readers return. -/
def Mirrors (line : List Char) (cut : Prop) (pos : ℕ) (x : Except Fault (PosRead ν)) (y : Option (Read ν)) : Prop :=
  ∃ r r', x = .ok r ∧ y = some r' ∧ Mirror line cut pos r r'

/-- The same for results with what is left of the line. -/
def Mirrors' {α : Type} (line : List Char) (cut : Prop) (pos : ℕ) (x : Except Fault (Except Status α × ℕ))
    (y : Option (Except Status (α × List Char))) : Prop :=
  ∃ o q, x = .ok (o, q) ∧ y = some (o.map fun value => (value, line.drop q)) ∧ Places line cut pos (∃ value, o = .ok value) q

/-- The nested calls. -/
def ReaderMirrors (line : List Char) (n : ℕ) (rd : PosReader ν) (rd' : Reader ν) (cut : List Char → Prop) : Prop :=
  ∀ pos old, pos ≤ line.length → line.length - pos < n → Mirrors line (cut (line.drop pos)) pos (rd pos old) (rd' (line.drop pos) old)

theorem Places.mono {cut : Prop} {ok : Prop} {p q : ℕ} (h : Places line cut p ok q) (hp : pos ≤ p) : Places line cut pos ok q :=
  ⟨Nat.le_trans hp h.ge, fun hok => ⟨Nat.lt_of_le_of_lt hp (h.ok hok).1, (h.ok hok).2⟩, h.le, h.cut⟩

theorem Places.imp {cut : Prop} {ok ok' : Prop} {q : ℕ} (h : Places line cut pos ok q) (hok : ok' → ok) : Places line cut pos ok' q :=
  ⟨h.ge, fun h' => h.ok (hok h'), h.le, h.cut⟩

theorem Places.congr {cut cut' : Prop} {ok : Prop} {q : ℕ} (h : Places line cut pos ok q) (hcut : cut ↔ cut') : Places line cut' pos ok q :=
  ⟨h.ge, h.ok, h.le, h.cut.trans hcut⟩

theorem Places.inside {cut : Prop} {ok : Prop} {q : ℕ} (hge : pos ≤ q) (hle : q ≤ line.length) (hcut : ¬ cut) (hok : ok → pos < q) :
    Places line cut pos ok q :=
  ⟨hge, fun h => ⟨hok h, hle⟩, Nat.le_succ_of_le hle, ⟨fun h => by omega, fun h => absurd h hcut⟩⟩

/-! ## Keywords -/

theorem readOperation_splits {op : BinaryOp} (h : readOperation s = .ok (op, rest)) : ∃ w, w ≠ [] ∧ s = w ++ rest := by
  obtain ⟨hop, hs⟩ := readOperation_eq_ok h
  exact ⟨op.text, List.length_pos_iff.1 (BinaryOp.length_text_pos hop), hs⟩

theorem readOperationUnary_splits {op : UnaryOp} (h : readOperationUnary s = .ok (op, rest)) : ∃ w, w ≠ [] ∧ s = w ++ rest := by
  obtain ⟨c, t, ht, -⟩ := op.text_head
  exact ⟨op.text, by simp [ht], readOperationUnary_eq_ok h⟩

theorem keywordAt_eq {α : Type} {read : List Char → Except Status (α × List Char)} (hpos : pos ≤ line.length)
    (hread : ∀ {s op rest}, read s = .ok (op, rest) → ∃ w, w ≠ [] ∧ s = w ++ rest) :
    (∃ op q, read (line.drop pos) = .ok (op, line.drop q) ∧ keywordAt line read pos = .ok (.ok op, q) ∧ pos < q ∧ q ≤ line.length) ∨
      ∃ e, read (line.drop pos) = .error e ∧ keywordAt line read pos = .ok (.error e, pos + 1) := by
  have hat : keywordAt line read pos = .ok (match read (line.drop pos) with
      | .ok (operation, rest) => (.ok operation, posOf line rest)
      | .error e => (.error e, pos + 1)) := by
    rw [keywordAt, textAt_eq hpos]
    rfl
  cases hr : read (line.drop pos) with
  | ok r =>
      obtain ⟨op, rest⟩ := r
      obtain ⟨w, hw, hs⟩ := hread hr
      obtain ⟨heq, hdrop, hle⟩ := posOf_append hpos hs
      refine .inl ⟨op, posOf line rest, by rw [hdrop], by rw [hat, hr], ?_, hle⟩
      have := List.length_pos_iff.2 hw
      omega
  | error e => exact .inr ⟨e, rfl, by rw [hat, hr]⟩

/-! ## The loop over the operator stack -/

theorem closed_eq {stack : List (ν × BinaryOp)} {value : ν} : closed stack = some value ↔ stack.getLast? = some (value, .rightBracket) := by
  rw [closed]
  split
  · rename_i v h
    rw [h]
    simp
  · rename_i h
    constructor
    · intro h'
      cases h'
    · intro h'
      exact absurd h' (h value)

theorem evalLoop_closed {rd : Reader ν} {stack : List (ν × BinaryOp)} : evalLoop A H rd (n + 1) stack s =
    match closed stack with
    | some value => some (.ok (value, s))
    | none => Ngc.stepLoop A H rd n stack s := by
  cases hc : closed stack with
  | some value =>
      rw [evalLoop, closed_eq.1 hc]
  | none =>
      rw [evalLoop]
      split
      · rename_i v h
        rw [closed_eq.2 h] at hc
        cases hc
      · rfl

theorem stepLoop_mirrors {N : ℕ} {rd : PosReader ν} {rd' : Reader ν} {cut : List Char → Prop} (hrd : ReaderMirrors line N rd rd' cut) :
    ∀ (n : ℕ) (stack : List (ν × BinaryOp)) (pos : ℕ), Sorted stack → pos ≤ line.length → line.length - pos < n → line.length - pos < N →
      Mirrors' line (CutLoop A H rd' cut n stack (line.drop pos)) pos (stepLoop A H line rd n stack pos)
        (Ngc.stepLoop A H rd' n stack (line.drop pos)) := by
  intro n
  induction n with
  | zero => exact fun _ _ _ _ hn _ => absurd hn (Nat.not_lt_zero _)
  | succ n ih =>
      intro stack pos hsorted hpos hn hN
      have hlen : ¬ maxStack ≤ stack.length := by
        cases stack with
        | nil => exact Nat.not_succ_le_zero _
        | cons x stack => exact Nat.not_le.2 (Nat.lt_of_le_of_lt (hsorted.length_le x rfl) (precedence_lt_maxStack x.2))
      obtain ⟨r, r', hr, hr', hm⟩ := hrd pos (H.uninit (line.drop pos)) hpos hN
      have hcut : CutLoop A H rd' cut (n + 1) stack (line.drop pos) ↔ cut (line.drop pos) ∨ r.status = none ∧
          (r'.rest = [] ∨ ∃ op rest stack', readOperation r'.rest = .ok (op, rest) ∧ reduce A stack r.value op = .ok stack' ∧
            closed stack' = none ∧ CutLoop A H rd' cut n stack' rest) := by
        rw [CutLoop, hr', hm.status, hm.value]
        exact or_congr_right ⟨(by rintro ⟨_, heq, h⟩; exact Option.some.inj heq ▸ h), fun h => ⟨r', rfl, h⟩⟩
      rw [stepLoop, if_neg hlen, textAt_eq hpos, Ngc.stepLoop, readStep, hr']
      simp only [bind, Except.bind, hr, Option.map_some, ← hm.status, ← hm.value]
      cases hs : r.status with
      | some e =>
          refine ⟨.error e, r.pos, rfl, rfl, ⟨hm.places.ge, (by rintro ⟨_, ⟨⟩⟩), hm.places.le, ?_⟩⟩
          rw [hm.places.cut, hcut, hs]
          exact ⟨.inl, fun h => h.resolve_right (by rintro ⟨⟨⟩, _⟩)⟩
      | none =>
          obtain ⟨hlt, hle⟩ := hm.places.ok hs
          have hnot : ¬ cut (line.drop pos) := fun h => by
            have := hm.places.cut.2 h
            omega
          rw [hs, hm.rest hs] at hcut
          simp only [hm.rest hs]
          rcases keywordAt_eq hle readOperation_splits with ⟨op, q, hread, hat, hltq, hleq⟩ | ⟨e, hread, hat⟩
          · -- the line goes on with an operator
            have hne : line.drop r.pos ≠ [] := by
              intro hnil
              obtain ⟨w, hw, hs⟩ := readOperation_splits hread
              rw [hnil] at hs
              exact hw (List.append_eq_nil_iff.1 hs.symm).1
            have hloop : CutLoop A H rd' cut (n + 1) stack (line.drop pos) ↔
                ∃ stack', reduce A stack r.value op = .ok stack' ∧ closed stack' = none ∧ CutLoop A H rd' cut n stack' (line.drop q) := by
              rw [hcut, hread]
              constructor
              · rintro (h | ⟨-, h | ⟨op', rest, stack', hop, h⟩⟩)
                · exact absurd h hnot
                · exact absurd h hne
                · obtain ⟨rfl, rfl⟩ := Prod.mk.inj (Except.ok.inj hop)
                  exact ⟨stack', h⟩
              · rintro ⟨stack', h⟩
                exact .inr ⟨rfl, .inr ⟨op, line.drop q, stack', rfl, h⟩⟩
            rw [hloop]
            simp only [hat, hread]
            cases hred : reduce A stack r.value op with
            | error e =>
                refine ⟨.error e, q, rfl, rfl, .inside (by omega) hleq ?_ (by rintro ⟨_, ⟨⟩⟩)⟩
                rintro ⟨stack', h, -⟩
                cases h
            | ok stack' =>
                simp only [Except.map, evalLoop_closed]
                cases hclosed : closed stack' with
                | some value =>
                    refine ⟨.ok value, q, rfl, rfl, .inside (by omega) hleq ?_ fun _ => by omega⟩
                    rintro ⟨stack₁, h, hnone, -⟩
                    rw [← Except.ok.inj h, hclosed] at hnone
                    cases hnone
                | none =>
                    have hloop' : (∃ stack₁, (Except.ok stack' : Except Status _) = .ok stack₁ ∧ closed stack₁ = none ∧
                        CutLoop A H rd' cut n stack₁ (line.drop q)) ↔ CutLoop A H rd' cut n stack' (line.drop q) := by
                      constructor
                      · rintro ⟨_, ⟨rfl⟩, -, h⟩
                        exact h
                      · exact fun h => ⟨stack', rfl, hclosed, h⟩
                    obtain ⟨o, q', ho, ho', hplaces⟩ := ih _ _ (sorted_reduce hsorted hred) hleq (by omega) (by omega)
                    exact ⟨o, q', ho, ho', (hplaces.mono (by omega)).congr hloop'.symm⟩
          · -- what follows the operand is no operator, or the line ends here
            simp only [hat, hread]
            have hend : r.pos + 1 = line.length + 1 ↔ line.drop r.pos = [] := by
              rw [List.drop_eq_nil_iff]
              omega
            refine ⟨.error e, r.pos + 1, rfl, rfl, by omega, (by rintro ⟨_, ⟨⟩⟩), Nat.succ_le_succ hle, ?_⟩
            rw [hend, hcut, hread]
            constructor
            · exact fun h => .inr ⟨rfl, .inl h⟩
            · rintro (h | ⟨-, h | ⟨op', rest, stack', hop, -⟩⟩)
              · exact absurd h hnot
              · exact h
              · cases hop

/-! ## One reader -/

section
variable {N : ℕ} {rd : PosReader ν} {rd' : Reader ν} {cut : List Char → Prop}

theorem eval_unsupported (h : s.head? ≠ some '[') :
    Ngc.ngcEvalExpression A H rd' n s old = some ⟨some .gcodeUnsupportedCommand, old, s⟩ := by
  unfold Ngc.ngcEvalExpression
  split
  · exact absurd rfl h
  · rfl

theorem head?_eq_iff {c : Char} : s.head? = some c ↔ ∃ t, s = c :: t := by
  cases s with
  | nil => simp
  | cons d t => simp [eq_comm]

variable (old) in
theorem evalExpression_mirrors (hrd : ReaderMirrors line N rd rd' cut) (hpos : pos ≤ line.length) (hn : line.length - pos ≤ n)
    (hN : line.length - pos ≤ N) : Mirrors line (CutBracket A H rd' cut n (line.drop pos)) pos
      (ngcEvalExpression A H line rd n pos old) (Ngc.ngcEvalExpression A H rd' n (line.drop pos) old) := by
  rw [ngcEvalExpression, textAt_eq hpos]
  simp only [bind, Except.bind]
  by_cases h : (line.drop pos).head? = some '['
  · obtain ⟨s, hs⟩ := head?_eq_iff.1 h
    obtain ⟨hdrop, hlt⟩ := drop_succ hs
    obtain ⟨o, q, ho, ho', hplaces⟩ := stepLoop_mirrors (A := A) (H := H) hrd n [] (pos + 1) .nil hlt (by omega) (by omega)
    rw [hdrop] at ho' hplaces
    have hcut : CutBracket A H rd' cut n (line.drop pos) ↔ CutLoop A H rd' cut n [] s :=
      ⟨(by rintro ⟨_, heq, hc⟩; exact (List.cons.inj (hs.symm.trans heq)).2 ▸ hc), fun hc => ⟨s, hs, hc⟩⟩
    have hplaces := (hplaces.mono (Nat.le_succ pos)).congr hcut.symm
    rw [if_pos h, ho, hs, Ngc.ngcEvalExpression, ho', ← hs]
    cases o with
    | error e => exact ⟨_, _, rfl, rfl, rfl, rfl, (by rintro ⟨⟩), hplaces.imp (by rintro ⟨⟩)⟩
    | ok value => exact ⟨_, _, rfl, rfl, rfl, rfl, fun _ => rfl, hplaces.imp fun _ => ⟨value, rfl⟩⟩
  · rw [if_neg h, eval_unsupported h]
    exact ⟨_, _, rfl, rfl, rfl, rfl, (by rintro ⟨⟩), .inside (Nat.le_refl pos) hpos (by rintro ⟨s, hs, -⟩; exact h (by rw [hs]; rfl)) (by rintro ⟨⟩)⟩

theorem integerValue_mirrors (hrd : ReaderMirrors line N rd rd' cut) (hpos : pos ≤ line.length) (hN : line.length - pos < N) :
    Mirrors' line (cut (line.drop pos)) pos (ngcReadIntegerValue A H line rd pos) (Ngc.ngcReadIntegerValue A H rd' (line.drop pos)) := by
  obtain ⟨r, r', hr, hr', hm⟩ := hrd pos (H.uninit (line.drop pos)) hpos hN
  rw [ngcReadIntegerValue, textAt_eq hpos, Ngc.ngcReadIntegerValue, hr']
  simp only [bind, Except.bind, hr, Option.map_some, ← hm.status, ← hm.value]
  cases hs : r.status with
  | some e =>
      exact ⟨.error e, r.pos, rfl, rfl, hm.places.ge, fun ⟨_, h⟩ => (nomatch h), hm.places.le, hm.places.cut⟩
  | none =>
      refine ⟨A.toInteger r.value, r.pos, rfl, ?_, hm.places.ge, fun _ => hm.places.ok hs, hm.places.le, hm.places.cut⟩
      rw [hm.rest hs]

/-! ### Parameters -/

theorem readNameFrom_suffix : ∀ (len : ℕ) (s : List Char), ∃ pre, s = pre ++ (readNameFrom len s).2
  | _, [] => ⟨[], rfl⟩
  | len, c :: s => by
      rw [readNameFrom]
      split
      · obtain ⟨pre, hpre⟩ := readNameFrom_suffix (len + 1) s
        exact ⟨c :: pre, by rw [List.cons_append, ← hpre]⟩
      · exact ⟨[], rfl⟩

theorem parameter_number (h : s.head? ≠ some '<') : Ngc.ngcReadParameter A H rd' ('#' :: s) old =
    (Ngc.ngcReadIntegerValue A H rd' s).map fun
      | .error e => ⟨some e, old, s⟩
      | .ok (param, rest) => paramValue A H param old rest := by
  unfold Ngc.ngcReadParameter
  split
  · rename_i heq
    exact absurd (by rw [(List.cons.inj heq).2]; rfl) h
  · rename_i heq
    obtain rfl := (List.cons.inj heq).2
    rfl
  · rename_i hnone
    exact absurd rfl (hnone s)

theorem parameter_none (h : s.head? ≠ some '#') :
    Ngc.ngcReadParameter A H rd' s old = some ⟨some .badNumberFormat, old, s⟩ := by
  unfold Ngc.ngcReadParameter
  split
  · exact absurd rfl h
  · exact absurd rfl h
  · rfl

theorem parameter_named (rd' : Reader ν) (old : ν) (s : List Char) : ∃ r', Ngc.ngcReadParameter A H rd' ('#' :: '<' :: s) old = some r' ∧
    if (readNameFrom 0 s).2.head? = some '>' then
      r'.status = (namedRead A H (readNameFrom 0 s).1 old 0).status ∧ r'.value = (namedRead A H (readNameFrom 0 s).1 old 0).value ∧
        r'.rest = (readNameFrom 0 s).2.tail
    else r'.status = some .flowControlSyntaxError ∧ r'.value = old := by
  rw [Ngc.ngcReadParameter, ngcReadName]
  cases readNameFrom 0 s with
  | mk name rest =>
      by_cases hend : rest.head? = some '>'
      · obtain ⟨t, rfl⟩ := head?_eq_iff.1 hend
        refine ⟨_, rfl, ?_⟩
        rw [if_pos hend, namedRead]
        simp only
        cases H.namedParam name <;> exact ⟨rfl, rfl, rfl⟩
      · refine ⟨_, rfl, ?_⟩
        rw [if_neg hend]
        split
        · rename_i hok
          split at hok
          · rename_i heq
            exact absurd (by rw [(Prod.mk.inj heq).2]; rfl) hend
          · cases hok
            exact ⟨rfl, rfl⟩
        · rename_i hok
          split at hok
          · rename_i heq
            exact absurd (by rw [(Prod.mk.inj heq).2]; rfl) hend
          · cases hok

theorem paramValue_rest (param : ℤ) (old : ν) (rest rest' : List Char) : (paramValue A H param old rest).status = (paramValue A H param old rest').status ∧
    (paramValue A H param old rest).value = (paramValue A H param old rest').value ∧ (paramValue A H param old rest).rest = rest := by
  rw [paramValue, paramValue]
  split
  · exact ⟨rfl, rfl, rfl⟩
  · cases H.param (param % 65536).toNat <;> exact ⟨rfl, rfl, rfl⟩

variable (paramExists old) in
theorem parameter_places (hrd : ReaderMirrors line N rd rd' cut) (check : Bool) (hpos : pos ≤ line.length) (hN : line.length - pos ≤ N) :
    ∃ r, ngcReadParameter A H paramExists line rd check pos old = .ok r ∧
      Places line (CutParameter cut (line.drop pos)) pos (r.status = none) r.pos ∧ ((line.drop pos).head? = some '#' → pos < r.pos) ∧
        (check = false → ∃ r', Ngc.ngcReadParameter A H rd' (line.drop pos) old = some r' ∧ r.status = r'.status ∧ r.value = r'.value ∧
          (r.status = none → r'.rest = line.drop r.pos)) := by
  rw [ngcReadParameter, textAt_eq hpos]
  simp only [bind, Except.bind]
  by_cases h : (line.drop pos).head? = some '#'
  · obtain ⟨s, hs⟩ := head?_eq_iff.1 h
    obtain ⟨hdrop, hlt⟩ := drop_succ hs
    rw [if_pos h, textAt_eq hlt, hdrop]
    simp only
    by_cases hname : s.head? = some '<'
    · obtain ⟨t, rfl⟩ := head?_eq_iff.1 hname
      obtain ⟨pre, hpre⟩ := readNameFrom_suffix 0 t
      have hnot : ¬ CutParameter cut (line.drop pos) := by
        rintro ⟨s', hs', hne, -⟩
        rw [hs] at hs'
        rw [← (List.cons.inj hs').2] at hne
        exact hne rfl
      obtain ⟨r', hr', hnamed⟩ := parameter_named (A := A) (H := H) rd' old t
      rw [if_pos hname, List.tail_cons]
      by_cases hend : (readNameFrom 0 t).2.head? = some '>'
      · rw [if_pos hend] at hnamed
        obtain ⟨u, hu⟩ := head?_eq_iff.1 hend
        obtain ⟨heq, hrest, hle⟩ := posOf_append hpos
          (show line.drop pos = ('#' :: '<' :: (pre ++ ['>'])) ++ u by rw [hs, List.cons_append, List.cons_append, List.append_assoc, List.singleton_append, ← hu, ← hpre])
        rw [List.length_cons] at heq
        simp only [if_pos hend]
        rw [hu, List.tail_cons] at hnamed
        rw [hu, List.tail_cons]
        have hat : (namedRead A H (readNameFrom 0 t).1 old (posOf line u)).pos = posOf line u := by
          rw [namedRead]
          cases H.namedParam (readNameFrom 0 t).1 <;> rfl
        have hread : (namedRead A H (readNameFrom 0 t).1 old (posOf line u)).status = r'.status ∧
            (namedRead A H (readNameFrom 0 t).1 old (posOf line u)).value = r'.value := by
          rw [hnamed.1, hnamed.2.1, namedRead, namedRead]
          cases H.namedParam (readNameFrom 0 t).1 <;> exact ⟨rfl, rfl⟩
        refine ⟨_, rfl, ?_, fun _ => ?_, fun _ => ⟨r', by rw [hs, hr'], hread.1, hread.2, fun _ => ?_⟩⟩
        · rw [hat]
          exact .inside (by omega) hle hnot fun _ => by omega
        · rw [hat]
          omega
        · rw [hat, hrest, hnamed.2.2]
      · rw [if_neg hend] at hnamed
        obtain ⟨heq, -, hle⟩ := posOf_append hpos
          (show line.drop pos = ('#' :: '<' :: pre) ++ (readNameFrom 0 t).2 by rw [hs, List.cons_append, List.cons_append, ← hpre])
        rw [List.length_cons] at heq
        simp only [if_neg hend]
        exact ⟨_, rfl, .inside (by show pos ≤ posOf _ _; omega) hle hnot (fun h => nomatch h), fun _ => by show pos < posOf _ _; omega,
          fun _ => ⟨r', by rw [hs, hr'], hnamed.1.symm, hnamed.2.symm, fun h => nomatch h⟩⟩
    · rw [if_neg hname]
      obtain ⟨o, q, ho, ho', hplaces⟩ := integerValue_mirrors (A := A) (H := H) hrd hlt (by omega)
      rw [hdrop] at ho' hplaces
      have hcut : CutParameter cut (line.drop pos) ↔ cut s := by
        constructor
        · rintro ⟨s', hs', -, hc⟩
          exact (List.cons.inj (hs.symm.trans hs')).2 ▸ hc
        · exact fun hc => ⟨s, hs, hname, hc⟩
      have hlt' : pos < q := hplaces.ge
      have hplaces := (hplaces.mono (Nat.le_succ pos)).congr hcut.symm
      rw [ho, hs, parameter_number hname, ho', ← hs]
      cases o with
      | error e =>
          exact ⟨_, rfl, hplaces.imp (fun h => nomatch h), fun _ => hlt', fun _ => ⟨_, rfl, rfl, rfl, fun h => nomatch h⟩⟩
      | ok param =>
          have hat : (paramRead A H paramExists check param old q).pos = q := by
            rw [paramRead]
            split <;> rfl
          refine ⟨paramRead A H paramExists check param old q, rfl, ?_, fun _ => ?_, fun hcheck => ?_⟩
          · rw [hat]
            exact hplaces.imp fun _ => ⟨param, rfl⟩
          · rwa [hat]
          · obtain ⟨hstatus, hvalue, hrest⟩ := paramValue_rest (A := A) (H := H) param old (line.drop q) []
            have hnone : ¬ (check = true ∧ paramExists (param % 65536).toNat = false) := fun h => by rw [hcheck] at h; cases h.1
            refine ⟨paramValue A H param old (line.drop q), rfl, ?_, ?_, fun _ => ?_⟩
            · rw [paramRead, if_neg hnone, hstatus]
            · rw [paramRead, if_neg hnone, hvalue]
            · rw [hat, hrest]
  · rw [if_neg h, parameter_none h]
    exact ⟨_, rfl, .inside (Nat.le_refl pos) hpos (fun ⟨s, hs, _⟩ => h (by rw [hs]; rfl)) (fun h => nomatch h), fun h' => absurd h' h,
      fun _ => ⟨_, rfl, rfl, rfl, fun h => nomatch h⟩⟩

theorem parameter_mirrors (hrd : ReaderMirrors line N rd rd' cut) (hpos : pos ≤ line.length) (hN : line.length - pos ≤ N) :
    Mirrors line (CutParameter cut (line.drop pos)) pos (ngcReadParameter A H paramExists line rd false pos old)
      (Ngc.ngcReadParameter A H rd' (line.drop pos) old) := by
  obtain ⟨r, hr, hplaces, -, hlist⟩ := parameter_places (A := A) (H := H) paramExists old hrd false hpos hN
  obtain ⟨r', hr', hstatus, hvalue, hrest⟩ := hlist rfl
  exact ⟨r, r', hr, hr', hstatus, hvalue, hrest, hplaces⟩

/-! ### Functions -/

theorem atan_none (h : s.head? = some '/' → s.tail.head? ≠ some '[') :
    Ngc.readAtan A H rd' n s old = some ⟨some .expressionSyntaxError, old, s⟩ := by
  unfold Ngc.readAtan
  split
  · exact absurd rfl (h rfl)
  · rfl

theorem atan_mirrors (hrd : ReaderMirrors line N rd rd' cut) (hpos : pos ≤ line.length) (hn : line.length - pos ≤ n)
    (hN : line.length - pos ≤ N) : Mirrors line (CutAtan A H rd' cut n (line.drop pos)) pos (readAtan A H line rd n pos old)
      (Ngc.readAtan A H rd' n (line.drop pos) old) := by
  rw [readAtan, textAt_eq hpos]
  simp only [bind, Except.bind]
  by_cases h : (line.drop pos).head? = some '/'
  · obtain ⟨s, hs⟩ := head?_eq_iff.1 h
    obtain ⟨hdrop, hlt⟩ := drop_succ hs
    have hcut : CutAtan A H rd' cut n (line.drop pos) ↔ CutBracket A H rd' cut n s :=
      ⟨(by rintro ⟨_, heq, hc⟩; exact (List.cons.inj (hs.symm.trans heq)).2 ▸ hc), fun hc => ⟨s, hs, hc⟩⟩
    rw [if_pos h, textAt_eq hlt, hdrop]
    simp only
    by_cases h' : s.head? = some '['
    · obtain ⟨t, rfl⟩ := head?_eq_iff.1 h'
      obtain ⟨r, r', hr, hr', hm⟩ := evalExpression_mirrors (A := A) (H := H) (H.uninit t) hrd hlt (show _ ≤ n by omega) (by omega)
      rw [hdrop] at hr' hm
      have hplaces := (hm.places.mono (Nat.le_succ pos)).congr hcut.symm
      rw [if_pos h', List.tail_cons, hr, hs, Ngc.readAtan, hr', ← hs]
      simp only [Option.map_some, ← hm.status, ← hm.value]
      cases hstatus : r.status with
      | some e => exact ⟨_, _, rfl, rfl, rfl, rfl, (by rintro ⟨⟩), hplaces.imp (by rintro ⟨⟩)⟩
      | none => exact ⟨_, _, rfl, rfl, rfl, rfl, fun _ => hm.rest hstatus, hplaces.imp fun _ => hstatus⟩
    · rw [if_neg h', atan_none fun _ => by rwa [hs]]
      exact ⟨_, _, rfl, rfl, rfl, rfl, (by rintro ⟨⟩), .inside (Nat.le_succ pos) hlt
        (fun hc => (hcut.1 hc).elim fun t ht => h' (by rw [ht.1]; rfl)) (by rintro ⟨⟩)⟩
  · rw [if_neg h, atan_none fun h' => absurd h' h]
    exact ⟨_, _, rfl, rfl, rfl, rfl, (by rintro ⟨⟩), .inside (Nat.le_refl pos) hpos (by rintro ⟨s, hs, -⟩; exact h (by rw [hs]; rfl)) (by rintro ⟨⟩)⟩

theorem readExists_rest : (readExists A H s old).status = none → ∃ pre, pre ≠ [] ∧ s = pre ++ (readExists A H s old).rest := by
  unfold readExists
  split
  · rename_i t
    have hsplit : t = t.takeWhile (fun c => decide (c ≠ ']')) ++ t.dropWhile (fun c => decide (c ≠ ']')) :=
      List.takeWhile_append_dropWhile.symm
    simp only
    split
    · rename_i c rest hdrop
      split
      · intro _
        refine ⟨'#' :: '<' :: (t.takeWhile (fun c => decide (c ≠ ']')) ++ [c]), List.cons_ne_nil _ _, ?_⟩
        rw [hdrop] at hsplit
        rw [List.cons_append, List.cons_append, List.append_assoc, List.singleton_append, ← hsplit]
      · exact fun h => nomatch h
    · exact fun h => nomatch h
  · exact fun h => nomatch h

variable (old) in
theorem exists_mirrors (hpos : pos ≤ line.length) :
    Mirrors line False pos (readExistsAt A H line pos old) (some (readExists A H (line.drop pos) old)) := by
  rw [readExistsAt, textAt_eq hpos]
  simp only [bind, Except.bind]
  refine ⟨_, _, rfl, rfl, rfl, rfl, fun h => ?_, ?_⟩
  · obtain ⟨pre, -, hs⟩ := readExists_rest h
    rw [if_pos h, (posOf_append hpos hs).2.1]
  · by_cases h : (readExists A H (line.drop pos) old).status = none
    · obtain ⟨pre, hpre, hs⟩ := readExists_rest h
      obtain ⟨heq, -, hle⟩ := posOf_append hpos hs
      have := List.length_pos_iff.2 hpre
      simp only [if_pos h]
      exact .inside (by omega) hle id fun _ => by omega
    · simp only [if_neg h]
      exact .inside (Nat.le_refl pos) hpos id fun h' => absurd h' h

theorem settingEnd_other {id : ℤ} {bit : Option ℤ} (h : s.head? ≠ some ']') :
    readSettingEnd H id bit s old = ⟨some .expressionSyntaxError, old, s⟩ := by
  unfold readSettingEnd
  split
  · exact absurd rfl h
  · rfl

theorem settingEnd_mirrors (id : ℤ) (bit : Option ℤ) (hpos : pos ≤ line.length) :
    Mirrors line False pos (settingEndAt H line id bit pos old) (some (readSettingEnd H id bit (line.drop pos) old)) := by
  rw [settingEndAt, textAt_eq hpos]
  simp only [bind, Except.bind]
  by_cases h : (line.drop pos).head? = some ']'
  · obtain ⟨s, hs⟩ := head?_eq_iff.1 h
    obtain ⟨hdrop, hlt⟩ := drop_succ hs
    rw [if_pos h, hs, readSettingEnd]
    cases H.setting id bit with
    | ok value => exact ⟨_, _, rfl, rfl, rfl, rfl, fun _ => hdrop.symm, .inside (Nat.le_succ pos) hlt (fun h => h) fun _ => Nat.lt_succ_self pos⟩
    | error e => exact ⟨_, _, rfl, rfl, rfl, rfl, (by rintro ⟨⟩), .inside (Nat.le_succ pos) hlt (fun h => h) (by rintro ⟨⟩)⟩
  · rw [if_neg h, settingEnd_other h]
    exact ⟨_, _, rfl, rfl, rfl, rfl, (by rintro ⟨⟩), .inside (Nat.le_refl pos) hpos (fun h => h) (by rintro ⟨⟩)⟩

theorem setting_number {id : ℤ} (h : s.head? ≠ some ',') (hs : Ngc.ngcReadIntegerValue A H rd' rest = some (.ok (id, s))) :
    readSetting A H rd' rest old = some (readSettingEnd H id none s old) := by
  rw [readSetting, hs, Option.bind_some]
  split
  · rename_i heq
    cases heq
  · rename_i heq
    cases heq
    exact absurd rfl h
  · rename_i heq
    cases heq
    rfl

theorem Mirrors.mono {cut' : Prop} {p : ℕ} {x : Except Fault (PosRead ν)} {y : Option (Read ν)} {c : Prop} (h : Mirrors line c p x y)
    (hp : pos ≤ p) (hcut : c ↔ cut') : Mirrors line cut' pos x y := by
  obtain ⟨r, r', hr, hr', hm⟩ := h
  exact ⟨r, r', hr, hr', hm.status, hm.value, hm.rest, (hm.places.mono hp).congr hcut⟩

variable (old) in
theorem setting_mirrors (hrd : ReaderMirrors line N rd rd' cut) (hpos : pos ≤ line.length) (hN : line.length - pos < N) :
    Mirrors line (CutSetting A H rd' cut (line.drop pos)) pos (settingAt A H line rd pos old) (readSetting A H rd' (line.drop pos) old) := by
  obtain ⟨o, q, ho, ho', hplaces⟩ := integerValue_mirrors (A := A) (H := H) hrd hpos hN
  rw [settingAt, ho]
  simp only [bind, Except.bind]
  cases o with
  | error e =>
      have hcut : CutSetting A H rd' cut (line.drop pos) ↔ cut (line.drop pos) := by
        rw [CutSetting, ho']
        exact ⟨fun h => h.resolve_right (by rintro ⟨_, _, ⟨⟩, _⟩), .inl⟩
      rw [readSetting, ho']
      exact ⟨_, _, rfl, rfl, rfl, rfl, (by rintro ⟨⟩), (hplaces.congr hcut.symm).imp (by rintro ⟨⟩)⟩
  | ok id =>
      obtain ⟨hlt, hle⟩ := hplaces.ok ⟨id, rfl⟩
      have hnot : ¬ cut (line.drop pos) := fun h => by
        have := hplaces.cut.2 h
        omega
      simp only [textAt_eq hle]
      by_cases hcomma : (line.drop q).head? = some ','
      · obtain ⟨t, ht⟩ := head?_eq_iff.1 hcomma
        obtain ⟨hdrop, hltq⟩ := drop_succ ht
        have hcut : CutSetting A H rd' cut (line.drop pos) ↔ cut t := by
          rw [CutSetting, ho']
          constructor
          · rintro (h | ⟨id', t', heq, h⟩)
            · exact absurd h hnot
            · have := Prod.mk.inj (Except.ok.inj (Option.some.inj heq))
              rw [ht] at this
              exact (List.cons.inj this.2).2 ▸ h
          · exact fun h => .inr ⟨id, t, by rw [← ht]; rfl, h⟩
        obtain ⟨o₂, q₂, ho₂, ho₂', hplaces₂⟩ := integerValue_mirrors (A := A) (H := H) hrd hltq (by omega)
        rw [hdrop] at ho₂' hplaces₂
        rw [if_pos hcomma, ho₂, readSetting, ho']
        simp only [Except.map, Option.bind_some, ht, ho₂', Option.map_some]
        cases o₂ with
        | error e =>
            exact ⟨_, _, rfl, rfl, rfl, rfl, (by rintro ⟨⟩),
              ((hplaces₂.mono (by omega)).congr hcut.symm).imp (by rintro ⟨⟩)⟩
        | ok bit =>
            obtain ⟨hlt₂, hle₂⟩ := hplaces₂.ok ⟨bit, rfl⟩
            have hnot₂ : ¬ cut t := fun h => by
              have := hplaces₂.cut.2 h
              omega
            have hge : pos ≤ q₂ := by omega
            simp only
            split
            · exact ⟨_, _, rfl, rfl, rfl, rfl, (by rintro ⟨⟩),
                .inside hge hle₂ (fun h => hnot₂ (hcut.1 h)) (by rintro ⟨⟩)⟩
            · exact (settingEnd_mirrors id (some bit) hle₂).mono hge ⟨False.elim, fun h => hnot₂ (hcut.1 h)⟩
      · rw [if_neg hcomma, setting_number hcomma ho']
        refine (settingEnd_mirrors id none hle).mono (by omega) ⟨False.elim, ?_⟩
        rintro (h | ⟨id', t', heq, -⟩)
        · exact hnot h
        · rw [ho'] at heq
          have := Prod.mk.inj (Except.ok.inj (Option.some.inj heq))
          exact hcomma (by rw [this.2]; rfl)

theorem eval_eq_some {r' : Read ν} (h : Ngc.ngcEvalExpression A H rd' n ('[' :: s) old = some r') (hstatus : r'.status = none) :
    Ngc.stepLoop A H rd' n [] s = some (.ok (r'.value, r'.rest)) := by
  obtain ⟨o, ho, rfl⟩ := Option.map_eq_some_iff.1 h
  cases o with
  | ok p => exact ho
  | error e => cases hstatus

variable (old) in
theorem function_mirrors (operation : UnaryOp) (hrd : ReaderMirrors line N rd rd' cut) (hs : line.drop pos = '[' :: s)
    (hn : line.length - pos ≤ n) (hN : line.length - pos ≤ N) :
    Mirrors line (CutFunction A H rd' cut n operation s) pos (functionAt A H line rd n operation pos old)
      ((Ngc.ngcEvalExpression A H rd' n ('[' :: s) old).bind fun r =>
        match r.status with
        | some _ => some r
        | none =>
            if operation = .atan then Ngc.readAtan A H rd' n r.rest r.value
            else
              some (match A.unary operation r.value with
                | .ok value => ⟨none, value, r.rest⟩
                | .error e => ⟨some e, r.value, r.rest⟩)) := by
  have hpos : pos ≤ line.length := Nat.le_of_lt (drop_succ hs).2
  obtain ⟨r, r', hr, hr', hm⟩ := evalExpression_mirrors (A := A) (H := H) old hrd hpos hn hN
  rw [hs] at hr' hm
  rw [functionAt, hr, hr']
  simp only [bind, Except.bind, Option.bind_some, ← hm.status, ← hm.value]
  cases hstatus : r.status with
  | some e =>
      have hcut : CutFunction A H rd' cut n operation s ↔ CutBracket A H rd' cut n ('[' :: s) := by
        refine ⟨fun h => h.resolve_right ?_, .inl⟩
        rintro ⟨-, value, rest, hloop, -⟩
        rw [Ngc.ngcEvalExpression, hloop] at hr'
        rw [hm.status, ← Option.some.inj hr'] at hstatus
        cases hstatus
      exact ⟨r, r', rfl, rfl, hm.status, hm.value, hm.rest, hm.places.congr hcut.symm⟩
  | none =>
      obtain ⟨hlt, hle⟩ := hm.places.ok hstatus
      have hnot : ¬ CutBracket A H rd' cut n ('[' :: s) := fun h => by
        have := hm.places.cut.2 h
        omega
      have hloop := eval_eq_some hr' (hm.status ▸ hstatus)
      have hcut : CutFunction A H rd' cut n operation s ↔ operation = .atan ∧ CutAtan A H rd' cut n (line.drop r.pos) := by
        rw [CutFunction, hloop, hm.rest hstatus]
        constructor
        · rintro (h | ⟨hop, value, rest, heq, h⟩)
          · exact absurd h hnot
          · exact ⟨hop, (Prod.mk.inj (Except.ok.inj (Option.some.inj heq))).2 ▸ h⟩
        · rintro ⟨hop, h⟩
          exact .inr ⟨hop, _, _, rfl, h⟩
      simp only
      by_cases hop : operation = .atan
      · rw [if_pos hop, if_pos hop, hm.rest hstatus]
        exact (atan_mirrors hrd hle (by omega) (by omega)).mono (by omega) ⟨fun h => hcut.2 ⟨hop, h⟩, fun h => (hcut.1 h).2⟩
      · rw [if_neg hop, if_neg hop]
        have hfalse : ¬ CutFunction A H rd' cut n operation s := fun h => hop (hcut.1 h).1
        cases A.unary operation r.value with
        | ok value => exact ⟨_, _, rfl, rfl, rfl, rfl, fun _ => hm.rest hstatus, .inside (Nat.le_of_lt hlt) hle hfalse fun _ => hlt⟩
        | error e => exact ⟨_, _, rfl, rfl, rfl, rfl, (by rintro ⟨⟩), .inside (Nat.le_of_lt hlt) hle hfalse (by rintro ⟨⟩)⟩

theorem unary_other {operation : UnaryOp} (hop : readOperationUnary s = .ok (operation, rest)) (h : rest.head? ≠ some '[') :
    Ngc.readUnary A H rd' n s old = some ⟨some .expressionSyntaxError, old, rest⟩ := by
  rw [Ngc.readUnary, hop]
  split
  · rename_i heq
    cases heq
  · rename_i heq
    cases heq
    exact absurd rfl h
  · rename_i heq
    cases heq
    rfl

theorem unary_mirrors (hrd : ReaderMirrors line N rd rd' cut) (hpos : pos < line.length) (hn : line.length - pos ≤ n)
    (hN : line.length - pos ≤ N) : Mirrors line (CutUnary A H rd' cut n (line.drop pos)) pos (readUnary A H line rd n pos old)
      (Ngc.readUnary A H rd' n (line.drop pos) old) := by
  rw [readUnary]
  simp only [bind, Except.bind]
  rcases keywordAt_eq (Nat.le_of_lt hpos) readOperationUnary_splits with ⟨operation, q, hread, hat, hlt, hle⟩ | ⟨e, hread, hat⟩
  · rw [hat]
    simp only [textAt_eq hle]
    by_cases h : (line.drop q).head? = some '['
    · obtain ⟨s, hs⟩ := head?_eq_iff.1 h
      obtain ⟨hdrop, hltq⟩ := drop_succ hs
      rw [hs] at hread
      have hcut : CutUnary A H rd' cut n (line.drop pos) ↔ CutArgument A H rd' cut n operation s := by
        constructor
        · rintro ⟨operation', s', heq, h⟩
          obtain ⟨rfl, hss⟩ := Prod.mk.inj (Except.ok.inj (hread.symm.trans heq))
          rw [(List.cons.inj hss).2]
          exact h
        · exact fun h => ⟨operation, s, hread, h⟩
      rw [if_pos h, Ngc.readUnary, hread]
      have hfunction := function_mirrors (A := A) (H := H) old operation hrd hs (show _ ≤ n by omega) (by omega)
      cases operation with
      | «exists» =>
          have := exists_mirrors (A := A) (H := H) old hltq
          rw [hdrop] at this
          exact this.mono (by omega) hcut.symm
      | parameter =>
          have := setting_mirrors (A := A) (H := H) old hrd hltq (by omega)
          rw [hdrop] at this
          exact this.mono (by omega) hcut.symm
      | _ => exact hfunction.mono (by omega) hcut.symm
    · rw [if_neg h, unary_other hread h]
      refine ⟨_, _, rfl, rfl, rfl, rfl, (by rintro ⟨⟩), .inside (Nat.le_of_lt hlt) hle ?_ (by rintro ⟨⟩)⟩
      rintro ⟨operation', s', heq, -⟩
      have := (Prod.mk.inj (Except.ok.inj (hread.symm.trans heq))).2
      exact h (by rw [this]; rfl)
  · rw [hat, Ngc.readUnary, hread]
    refine ⟨_, _, rfl, rfl, rfl, rfl, (by rintro ⟨⟩), .inside (Nat.le_succ pos) hpos ?_ (by rintro ⟨⟩)⟩
    rintro ⟨operation', s', heq, -⟩
    rw [hread] at heq
    cases heq

/-! ### Values -/

theorem scanFloat_suffix : ∀ (s : List Char) (f : FloatScan), ∃ pre, s = pre ++ (scanFloat f s).2 ∧ (pre = [] → (scanFloat f s).1 = f)
  | [], f => ⟨[], rfl, fun _ => rfl⟩
  | c :: s, f => by
      rw [scanFloat]
      cases f.next c with
      | none => exact ⟨[], rfl, fun _ => rfl⟩
      | some f' =>
          obtain ⟨pre, hs, -⟩ := scanFloat_suffix s f'
          exact ⟨c :: pre, by rw [List.cons_append, ← hs], fun h => by cases h⟩

theorem readSign_suffix (s : List Char) : ∃ pre, s = pre ++ (readSign s).2 := by
  unfold readSign
  split
  · exact ⟨['-'], rfl⟩
  · exact ⟨['+'], rfl⟩
  · exact ⟨[], rfl⟩

theorem readFloat_suffix {value : ν} (h : readFloat A s = some (value, rest)) : ∃ pre, pre ≠ [] ∧ s = pre ++ rest := by
  obtain ⟨pre, hpre⟩ := readSign_suffix s
  obtain ⟨pre', hpre', hnil⟩ := scanFloat_suffix (readSign s).2 {}
  simp only [readFloat] at h
  split at h
  · rename_i hok
    obtain ⟨-, rfl⟩ := Prod.mk.inj (Option.some.inj h)
    refine ⟨pre ++ pre', fun h => ?_, by rw [List.append_assoc, ← hpre', ← hpre]⟩
    rw [hnil (List.append_eq_nil_iff.1 h).2] at hok
    cases hok
  · cases h

theorem float_mirrors (hpos : pos ≤ line.length) : Mirrors line False pos (floatAt A line pos old)
    (some (match readFloat A (line.drop pos) with
      | some (value, rest) => ⟨none, value, rest⟩
      | none => ⟨some .badNumberFormat, old, line.drop pos⟩)) := by
  rw [floatAt, textAt_eq hpos]
  simp only [bind, Except.bind]
  cases h : readFloat A (line.drop pos) with
  | none => exact ⟨_, _, rfl, rfl, rfl, rfl, fun h => (nomatch h), .inside (Nat.le_refl pos) hpos (fun h => h) fun h => nomatch h⟩
  | some p =>
      obtain ⟨pre, hpre, hs⟩ := readFloat_suffix h
      obtain ⟨heq, hrest, hle⟩ := posOf_append hpos hs
      have hlen := List.length_pos_iff.2 hpre
      have hlt : pos < posOf line p.2 := by omega
      exact ⟨_, _, rfl, rfl, rfl, rfl, fun _ => hrest.symm, .inside (Nat.le_of_lt hlt) hle (fun h => h) fun _ => hlt⟩

theorem Mirrors.checkFinite {c : Prop} {x : Except Fault (PosRead ν)} {y : Option (Read ν)} (h : Mirrors line c pos x y) :
    Mirrors line c pos (x.map (checkFinite A)) (y.map (Ngc.checkFinite A)) := by
  obtain ⟨r, r', rfl, rfl, hm⟩ := h
  refine ⟨_, _, rfl, rfl, ?_⟩
  rw [Positions.checkFinite, Ngc.checkFinite, ← hm.value]
  split
  · exact ⟨rfl, rfl, (by rintro ⟨⟩), hm.places.imp (by rintro ⟨⟩)⟩
  · exact hm

theorem readRealValue_mirrors (hrd : ReaderMirrors line N rd rd' cut) (hpos : pos ≤ line.length) (hn : line.length - pos ≤ n)
    (hN : line.length - pos ≤ N) : Mirrors line (CutValue A H rd' cut n (line.drop pos)) pos
      (readRealValue A H paramExists line rd n pos old) (Ngc.readRealValue A H rd' n (line.drop pos) old) := by
  rw [readRealValue, textAt_eq hpos]
  have hbind : ∀ x : Except Fault (PosRead ν), (x >>= fun r => pure (checkFinite A r)) = x.map (checkFinite A) := fun x => by
    cases x <;> rfl
  show Mirrors _ _ _ (match line.drop pos with | [] => _ | c :: s => _) _
  cases hs : line.drop pos with
  | nil => exact ⟨_, _, rfl, rfl, rfl, rfl, fun h => (nomatch h), .inside (Nat.le_refl pos) hpos (fun h => h) fun h => nomatch h⟩
  | cons c s =>
      obtain ⟨hdrop, hlt⟩ := drop_succ hs
      simp only [hbind]
      rw [CutValue, Ngc.readRealValue]
      by_cases hbracket : c = '['
      · rw [if_pos hbracket, if_pos hbracket, if_pos hbracket, ← hs]
        exact (evalExpression_mirrors old hrd hpos hn hN).checkFinite
      rw [if_neg hbracket, if_neg hbracket, if_neg hbracket]
      by_cases hparam : c = '#'
      · rw [if_pos hparam, if_pos hparam, if_pos hparam, ← hs]
        exact (parameter_mirrors hrd hpos hN).checkFinite
      rw [if_neg hparam, if_neg hparam, if_neg hparam]
      have hnested : Mirrors line (cut s) pos (rd (pos + 1) old) (rd' s old) := by
        have := hrd (pos + 1) old hlt (by omega)
        rw [hdrop] at this
        exact this.mono (Nat.le_succ pos) Iff.rfl
      by_cases hplus : c = '+' ∧ signsOperand s = true
      · rw [if_pos hplus, if_pos ⟨.inl hplus.1, hplus.2⟩, if_pos hplus]
        exact hnested.checkFinite
      rw [if_neg hplus, if_neg hplus]
      by_cases hminus : c = '-' ∧ signsOperand s = true
      · rw [if_pos hminus, if_pos ⟨.inr hminus.1, hminus.2⟩, if_pos hminus]
        obtain ⟨r, r', hr, hr', hm⟩ := hnested
        rw [hr, hr']
        refine Mirrors.checkFinite (x := .ok _) (y := some _) ⟨_, _, rfl, rfl, hm.status, ?_, hm.rest, hm.places⟩
        rw [hm.value]
      have hsign : ¬ ((c = '+' ∨ c = '-') ∧ signsOperand s = true) := fun h =>
        h.1.elim (fun h' => hplus ⟨h', h.2⟩) fun h' => hminus ⟨h', h.2⟩
      rw [if_neg hminus, if_neg hsign, if_neg hminus]
      by_cases hletter : 'A' ≤ c ∧ c ≤ 'Z'
      · rw [if_pos hletter, if_pos hletter, if_pos hletter, ← hs]
        exact (unary_mirrors hrd hlt hn hN).checkFinite
      · rw [if_neg hletter, if_neg hletter, if_neg hletter, ← hs]
        exact (float_mirrors hpos).checkFinite

variable (paramExists) in
/-- The induction is on the nested calls: each of them starts behind the position of the call it is in. -/
theorem ngcReadRealValue_mirrors : ∀ n, ReaderMirrors line n (ngcReadRealValue A H paramExists line n) (Ngc.ngcReadRealValue A H n) (Cut A H n)
  | 0 => fun _ _ _ h => absurd h (Nat.not_lt_zero _)
  | n + 1 => fun _ _ hpos h => readRealValue_mirrors (ngcReadRealValue_mirrors n) hpos (Nat.le_of_lt_succ h) (Nat.le_of_lt_succ h)

end

/-! ## Values that are no numbers -/

section
variable (A H paramExists) (rd' : Reader ν)

/-- Behind the left bracket stands the text of an expression that the readers accept, and the operators in it make no number of the
operands. -/
def Overflows (s : List Char) : Prop := ∃ (e : Expr) (value : ν) (rest : List Char), e.Accepted A H ∧ e.eval A H = .ok value ∧
  s = e.text ++ ']' :: rest ∧ A.notFinite value = true

def HoldsNoNumber (check : Bool) (s : List Char) : Prop :=
  (∃ t rest value, s = '#' :: '<' :: t ∧ (readNameFrom 0 t).2 = '>' :: rest ∧ H.namedParam (readNameFrom 0 t).1 = some value ∧
    A.notFinite value = true) ∨
  ∃ t id rest value, s = '#' :: t ∧ t.head? ≠ some '<' ∧ Ngc.ngcReadIntegerValue A H rd' t = some (.ok (id, rest)) ∧ 0 ≤ id ∧
    ¬ (check = true ∧ paramExists (id % 65536).toNat = false) ∧ H.param (id % 65536).toNat = some value ∧ A.notFinite value = true

end

section
variable {rd : PosReader ν} {rd' : Reader ν}

theorem overflows_iff (hn : s.length ≤ n) : Overflows A H s ↔
    ∃ value rest, Ngc.stepLoop A H (Ngc.ngcReadRealValue A H n) n [] s = some (.ok (value, rest)) ∧ A.notFinite value = true := by
  constructor
  · rintro ⟨e, value, rest, he, hv, hs, hval⟩
    exact ⟨value, rest, (stepLoop_iff hn).2 ⟨e, he, hv, hs⟩, hval⟩
  · rintro ⟨value, rest, hloop, hval⟩
    obtain ⟨e, he, hv, hs⟩ := (stepLoop_iff hn).1 hloop
    exact ⟨e, value, rest, he, hv, hs, hval⟩

theorem finite_of_readRealValue {r' : Read ν} (h : Ngc.readRealValue A H rd' n s old = some r') (hstatus : r'.status = none) :
    A.notFinite r'.value = false := by
  cases s with
  | nil =>
      cases h
      cases hstatus
  | cons c s =>
      obtain ⟨r, -, rfl⟩ := Option.map_eq_some_iff.1 h
      rw [Ngc.checkFinite] at hstatus ⊢
      split at hstatus
      · cases hstatus
      · rename_i hfin
        rw [if_neg hfin]
        exact Bool.eq_false_iff.2 hfin

/-! ## The three readers -/

/-- A reader returns, inside the line, and with a number when there is no error. -/
def Kept (A : Arith ν) (line : List Char) (x : Except Fault (PosRead ν)) : Prop :=
  ∃ r, x = .ok r ∧ r.pos ≤ line.length ∧ (r.status = none → A.notFinite r.value = false)

theorem Places.le_iff {cut ok : Prop} {q : ℕ} (h : Places line cut pos ok q) : q ≤ line.length ↔ ¬ cut := by
  rw [← h.cut]
  have := h.le
  omega

variable (paramExists old) in
theorem kept_realValue_iff (hpos : pos ≤ line.length) (hn : line.length - pos < n) :
    Kept A line (ngcReadRealValue A H paramExists line n pos old) ↔ ¬ Cut A H n (line.drop pos) := by
  obtain ⟨r, r', hr, hr', hm⟩ := ngcReadRealValue_mirrors (A := A) (H := H) paramExists n pos old hpos hn
  rw [← hm.places.le_iff]
  constructor
  · rintro ⟨r₁, hr₁, hle, -⟩
    rwa [Except.ok.inj (hr.symm.trans hr₁)]
  · intro hle
    refine ⟨r, hr, hle, fun hstatus => ?_⟩
    cases n with
    | zero => exact absurd hn (Nat.not_lt_zero _)
    | succ n =>
        rw [hm.value]
        exact finite_of_readRealValue hr' (hm.status ▸ hstatus)

variable (paramExists old) in
theorem kept_evalExpression_iff (hpos : pos ≤ line.length) (hn : line.length - pos < n) :
    Kept A line (ngcEvalExpression A H line (ngcReadRealValue A H paramExists line n) n pos old) ↔
      ¬ CutBracket A H (Ngc.ngcReadRealValue A H n) (Cut A H n) n (line.drop pos) ∧
        ∀ s, line.drop pos = '[' :: s → ¬ Overflows A H s := by
  obtain ⟨r, r', hr, hr', hm⟩ := evalExpression_mirrors (A := A) (H := H) (n := n) old
    (ngcReadRealValue_mirrors paramExists n) hpos (Nat.le_of_lt hn) (Nat.le_of_lt hn)
  have hlen : ∀ {s : List Char}, line.drop pos = '[' :: s → s.length ≤ n := by
    intro s hs
    have hdrop : (line.drop pos).length = s.length + 1 := by rw [hs, List.length_cons]
    rw [List.length_drop] at hdrop
    omega
  have hfinite : (r.status = none → A.notFinite r.value = false) ↔
      ∀ s, line.drop pos = '[' :: s → ¬ Overflows A H s := by
    rw [hm.status, hm.value]
    constructor
    · intro h s hs hover
      obtain ⟨value, rest, hloop, hval⟩ := (overflows_iff (hlen hs)).1 hover
      rw [hs, Ngc.ngcEvalExpression, hloop] at hr'
      cases hr'
      rw [h rfl] at hval
      cases hval
    · intro h hstatus
      by_cases hhead : (line.drop pos).head? = some '['
      · obtain ⟨s, hs⟩ := head?_eq_iff.1 hhead
        rw [hs] at hr'
        refine Bool.eq_false_iff.2 fun hval => h s hs ((overflows_iff (hlen hs)).2 ⟨_, _, eval_eq_some hr' hstatus, hval⟩)
      · rw [eval_unsupported hhead] at hr'
        cases hr'
        cases hstatus
  rw [← hm.places.le_iff, ← hfinite]
  constructor
  · rintro ⟨r₁, hr₁, hle, hfin⟩
    rw [Except.ok.inj (hr.symm.trans hr₁)]
    exact ⟨hle, hfin⟩
  · exact fun h => ⟨r, hr, h⟩

theorem namedRead_finite {name : List Char} : ((namedRead A H name old pos).status = none → A.notFinite (namedRead A H name old pos).value = false) ↔
    ¬ ∃ value, H.namedParam name = some value ∧ A.notFinite value = true := by
  rw [namedRead]
  cases h : H.namedParam name with
  | none => simp
  | some value => simp

theorem paramRead_finite {check : Bool} {id : ℤ} : ((paramRead A H paramExists check id old pos).status = none →
    A.notFinite (paramRead A H paramExists check id old pos).value = false) ↔
      ¬ ∃ value, 0 ≤ id ∧ ¬ (check = true ∧ paramExists (id % 65536).toNat = false) ∧ H.param (id % 65536).toNat = some value ∧
        A.notFinite value = true := by
  rw [paramRead]
  by_cases hcheck : check = true ∧ paramExists (id % 65536).toNat = false
  · rw [if_pos hcheck]
    exact ⟨(by rintro _ ⟨_, _, h, -⟩; exact h hcheck), (by rintro _ ⟨⟩)⟩
  · rw [if_neg hcheck, paramValue]
    by_cases hid : id < 0
    · rw [if_pos hid]
      exact ⟨(by rintro _ ⟨_, h, -⟩; exact absurd hid (Int.not_lt.2 h)), (by rintro _ ⟨⟩)⟩
    · rw [if_neg hid]
      cases h : H.param (id % 65536).toNat with
      | none => simp
      | some value => simp [hcheck, Int.not_lt.1 hid]

theorem parameter_finite_iff {check : Bool} {r : PosRead ν} (hpos : pos ≤ line.length) (hN : line.length - pos ≤ n)
    (hr : ngcReadParameter A H paramExists line (ngcReadRealValue A H paramExists line n) check pos old = .ok r) :
    (r.status = none → A.notFinite r.value = false) ↔
      ¬ HoldsNoNumber A H paramExists (Ngc.ngcReadRealValue A H n) check (line.drop pos) := by
  rw [ngcReadParameter, textAt_eq hpos] at hr
  simp only [bind, Except.bind] at hr
  by_cases h : (line.drop pos).head? = some '#'
  · obtain ⟨s, hs⟩ := head?_eq_iff.1 h
    obtain ⟨hdrop, hlt⟩ := drop_succ hs
    rw [if_pos h, textAt_eq hlt, hdrop] at hr
    simp only at hr
    by_cases hname : s.head? = some '<'
    · obtain ⟨t, rfl⟩ := head?_eq_iff.1 hname
      have hstored : HoldsNoNumber A H paramExists (Ngc.ngcReadRealValue A H n) check (line.drop pos) ↔
          (readNameFrom 0 t).2.head? = some '>' ∧ ∃ value, H.namedParam (readNameFrom 0 t).1 = some value ∧ A.notFinite value = true := by
        rw [HoldsNoNumber, hs]
        constructor
        · rintro (⟨t', rest, value, heq, hrest, h⟩ | ⟨t', _, _, _, heq, hne, -⟩)
          · rw [← (List.cons.inj (List.cons.inj heq).2).2] at hrest h
            exact ⟨by rw [hrest]; rfl, value, h⟩
          · exact absurd (by rw [← (List.cons.inj heq).2]; rfl) hne
        · rintro ⟨hend, value, h⟩
          obtain ⟨rest, hrest⟩ := head?_eq_iff.1 hend
          exact .inl ⟨t, rest, value, rfl, hrest, h⟩
      rw [if_pos hname, List.tail_cons] at hr
      rw [hstored]
      by_cases hend : (readNameFrom 0 t).2.head? = some '>'
      · simp only [if_pos hend] at hr
        rw [← Except.ok.inj hr, namedRead_finite]
        exact ⟨fun h h' => h h'.2, fun h h' => h ⟨hend, h'⟩⟩
      · simp only [if_neg hend] at hr
        rw [← Except.ok.inj hr]
        exact ⟨fun _ h' => hend h'.1, fun _ h' => nomatch h'⟩
    · obtain ⟨o, q, ho, ho', -⟩ := integerValue_mirrors (A := A) (H := H) (ngcReadRealValue_mirrors paramExists n) hlt (by omega)
      rw [hdrop] at ho'
      have hstored : HoldsNoNumber A H paramExists (Ngc.ngcReadRealValue A H n) check (line.drop pos) ↔
          ∃ id, o = .ok id ∧ ∃ value, 0 ≤ id ∧ ¬ (check = true ∧ paramExists (id % 65536).toNat = false) ∧
            H.param (id % 65536).toNat = some value ∧ A.notFinite value = true := by
        rw [HoldsNoNumber, hs]
        constructor
        · rintro (⟨t', rest, value, heq, -⟩ | ⟨t', id, rest, value, heq, -, hint, h⟩)
          · exact absurd (by rw [(List.cons.inj heq).2]; rfl) hname
          · rw [← (List.cons.inj heq).2, ho'] at hint
            cases o with
            | error e => cases hint
            | ok id' =>
                obtain ⟨rfl, -⟩ := Prod.mk.inj (Except.ok.inj (Option.some.inj hint))
                exact ⟨id', rfl, value, h⟩
        · rintro ⟨id, rfl, value, h⟩
          exact .inr ⟨s, id, line.drop q, value, rfl, hname, ho', h⟩
      rw [if_neg hname, ho] at hr
      rw [hstored]
      cases o with
      | error e =>
          rw [← Except.ok.inj hr]
          exact ⟨fun _ ⟨_, h, _⟩ => (nomatch h), fun _ h' => nomatch h'⟩
      | ok id =>
          rw [← Except.ok.inj hr, paramRead_finite]
          constructor
          · rintro h ⟨id', hid, h'⟩
            exact h (Except.ok.inj hid ▸ h')
          · exact fun h h' => h ⟨id, rfl, h'⟩
  · rw [if_neg h] at hr
    rw [← Except.ok.inj hr]
    refine ⟨fun _ h' => ?_, fun _ h' => nomatch h'⟩
    rcases h' with ⟨_, _, _, hs, -⟩ | ⟨_, _, _, _, hs, -⟩ <;> exact h (by rw [hs]; rfl)

variable (paramExists old) in
theorem kept_parameter_iff (check : Bool) (hpos : pos ≤ line.length) (hn : line.length - pos < n) :
    Kept A line (ngcReadParameter A H paramExists line (ngcReadRealValue A H paramExists line n) check pos old) ↔
      ¬ CutParameter (Cut A H n) (line.drop pos) ∧ ¬ HoldsNoNumber A H paramExists (Ngc.ngcReadRealValue A H n) check (line.drop pos) := by
  obtain ⟨r, hr, hplaces, -⟩ := parameter_places (A := A) (H := H) paramExists old (ngcReadRealValue_mirrors paramExists n)
    check hpos (Nat.le_of_lt hn)
  rw [← hplaces.le_iff, ← parameter_finite_iff hpos (Nat.le_of_lt hn) hr]
  constructor
  · rintro ⟨r₁, hr₁, hle, hfin⟩
    rw [Except.ok.inj (hr.symm.trans hr₁)]
    exact ⟨hle, hfin⟩
  · exact fun h => ⟨r, hr, h⟩

end

/-! ## Substitution -/

section
variable (A H paramExists) (ftoa : ν → ℕ → List Char) (floatDecimals : ℕ)

/-- References are read by `ngc_read_parameter`. -/
def printer : Printer ν where
  read t :=
    match ngcReadParameter A H paramExists t (ngcReadRealValue A H paramExists t t.length) true 0 (H.uninit t.tail) with
    | .ok r => (if r.status = none then some r.value else none, r.pos - 1)
    | .error _ => (none, 0)
  ftoa := ftoa
  floatDecimals := floatDecimals

theorem printer_past_iff (s : List Char) : s.length < ((printer A H paramExists ftoa floatDecimals).read ('#' :: s)).2 ↔
    CutParameter (Cut A H (s.length + 1)) ('#' :: s) := by
  have hlen : ('#' :: s).length - 0 ≤ s.length + 1 := by simp
  obtain ⟨r, hr, hplaces, -⟩ := parameter_places (A := A) (H := H) paramExists (H.uninit s)
    (ngcReadRealValue_mirrors (A := A) (H := H) paramExists (s.length + 1)) true (Nat.zero_le ('#' :: s).length) hlen
  have hread : ((printer A H paramExists ftoa floatDecimals).read ('#' :: s)).2 = r.pos - 1 := by
    simp only [printer, List.length_cons, List.tail_cons, hr]
  have hle := hplaces.le
  rw [hread, ← List.drop_zero (l := '#' :: s), ← hplaces.cut]
  simp only [List.length_cons] at hle ⊢
  omega

end

section
variable (A H paramExists line) (n : ℕ)

def CutPass : ℕ → ℕ → ℕ → ℕ → Prop
  | 0, _, _, _ => False
  | k + 1, pos, parseFormat, d =>
      match line.drop pos with
      | [] => False
      | c :: s =>
          if parseFormat ≠ 0 then
            CutPass k (pos + 1) (getFormat 0 c parseFormat 0 d).1.toNat (getFormat 0 c parseFormat 0 d).2.2
          else if c = '%' then CutPass k (pos + 1) 1 d
          else if c = '#' then CutParameter (Cut A H n) (c :: s) ∨ ∃ r,
            ngcReadParameter A H paramExists line (ngcReadRealValue A H paramExists line n) true pos (H.uninit s) = .ok r ∧ CutPass k r.pos 0 d
          else CutPass k (pos + 1) 0 d

/-- One of the two passes comes to a parameter that is cut. -/
def CutPasses (d : ℕ) : Prop :=
  CutPass A H paramExists line n n 0 0 d ∨ ∃ parseFormat d', pass A H paramExists line n n 0 0 d = .ok (parseFormat, d') ∧
    CutPass A H paramExists line n n 0 parseFormat d'

end

theorem pass_pastEnd {k parseFormat d : ℕ} : ¬ ∃ z, pass A H paramExists line n k (line.length + 1) parseFormat d = .ok z := by
  rintro ⟨z, hz⟩
  cases k with
  | zero => cases hz
  | succ k =>
      rw [pass, textAt, if_neg (Nat.not_succ_le_self _)] at hz
      cases hz

variable (paramExists) in
theorem pass_iff (hn : line.length < n) : ∀ (k : ℕ) {pos : ℕ} (parseFormat d : ℕ), pos ≤ line.length → line.length - pos < k →
    ((∃ z, pass A H paramExists line n k pos parseFormat d = .ok z) ↔ ¬ CutPass A H paramExists line n k pos parseFormat d) := by
  intro k
  induction k with
  | zero => exact fun _ _ _ h => absurd h (Nat.not_lt_zero _)
  | succ k ih =>
      intro pos parseFormat d hpos hk
      rw [pass, textAt_eq hpos, CutPass]
      simp only [bind, Except.bind]
      cases hs : line.drop pos with
      | nil => exact ⟨fun _ h => h, fun _ => ⟨_, rfl⟩⟩
      | cons c s =>
          obtain ⟨-, hlt⟩ := drop_succ hs
          simp only
          by_cases hformat : parseFormat ≠ 0
          · rw [if_pos hformat, if_pos hformat]
            exact ih _ _ hlt (by omega)
          rw [if_neg hformat, if_neg hformat]
          by_cases hpercent : c = '%'
          · rw [if_pos hpercent, if_pos hpercent]
            exact ih _ _ hlt (by omega)
          rw [if_neg hpercent, if_neg hpercent]
          by_cases hhash : c = '#'
          · rw [if_pos hhash, if_pos hhash]
            obtain ⟨r, hr, hplaces, hafter, -⟩ := parameter_places (A := A) (H := H) paramExists (H.uninit s)
              (ngcReadRealValue_mirrors (A := A) (H := H) paramExists n) true hpos (show line.length - pos ≤ n by omega)
            have hafter := hafter (by rw [hs, hhash]; rfl)
            rw [hs] at hplaces
            simp only [hr]
            by_cases hcut : CutParameter (Cut A H n) (c :: s)
            · rw [hplaces.cut.2 hcut]
              exact ⟨fun h => absurd h pass_pastEnd, fun h => absurd (.inl hcut) h⟩
            · rw [ih 0 d (hplaces.le_iff.2 hcut) (by omega)]
              constructor
              · rintro h (h' | ⟨r', hr', h'⟩)
                · exact hcut h'
                · exact h (Except.ok.inj hr' ▸ h')
              · exact fun h h' => h (.inr ⟨r, rfl, h'⟩)
          · rw [if_neg hhash, if_neg hhash]
            exact ih _ _ hlt (by omega)

variable (paramExists) in
theorem passes_iff {d : ℕ} (hn : line.length < n) :
    (∃ z, passes A H paramExists line n d = .ok z) ↔ ¬ CutPasses A H paramExists line n d := by
  have hfirst := pass_iff (A := A) (H := H) paramExists hn n 0 d (Nat.zero_le line.length) (by omega)
  rw [passes, CutPasses]
  cases hpass : pass A H paramExists line n n 0 0 d with
  | error e =>
      rw [hpass] at hfirst
      have hcut : CutPass A H paramExists line n n 0 0 d := not_not.1 fun h => by
        obtain ⟨_, hz⟩ := hfirst.2 h
        cases hz
      exact ⟨fun ⟨_, h⟩ => (nomatch h), fun h => absurd (.inl hcut) h⟩
  | ok p =>
      rw [hpass] at hfirst
      have hnot := hfirst.1 ⟨p, rfl⟩
      have hsecond := pass_iff (A := A) (H := H) paramExists hn n p.1 p.2 (Nat.zero_le line.length) (by omega)
      refine hsecond.trans (not_congr ⟨fun h => .inr ⟨p.1, p.2, rfl, h⟩, ?_⟩)
      rintro (h | ⟨parseFormat, d', heq, h⟩)
      · exact absurd h hnot
      · obtain ⟨rfl, rfl⟩ := Prod.mk.inj (Except.ok.inj heq)
        exact h

/-! ## Inside the line -/

section
variable (A H paramExists)

/-- The readers and the substitution terminate, read nothing behind the terminator, use elements that the stacks have, end inside the
line, and return numbers. -/
structure Within (line : List Char) (n pos : ℕ) (old : ν) (check : Bool) (d : ℕ) : Prop where
  realValue : Kept A line (ngcReadRealValue A H paramExists line n pos old)
  expression : Kept A line (ngcEvalExpression A H line (ngcReadRealValue A H paramExists line n) n pos old)
  parameter : Kept A line (ngcReadParameter A H paramExists line (ngcReadRealValue A H paramExists line n) check pos old)
  substitution : ∃ z, ngcSubstituteParameters A H paramExists line n d = .ok z

/-- No text that is read ends behind an operand in brackets, and what is read is a number. -/
structure Whole (line : List Char) (n pos : ℕ) (check : Bool) (d : ℕ) : Prop where
  realValue : ¬ Cut A H n (line.drop pos)
  bracket : ¬ CutBracket A H (Ngc.ngcReadRealValue A H n) (Cut A H n) n (line.drop pos)
  parameter : ¬ CutParameter (Cut A H n) (line.drop pos)
  substitution : ¬ CutPasses A H paramExists (line.dropWhile (· = ' ')) n d
  expression : ∀ s, line.drop pos = '[' :: s → ¬ Overflows A H s
  stored : ¬ HoldsNoNumber A H paramExists (Ngc.ngcReadRealValue A H n) check (line.drop pos)

end

variable (paramExists) in
/-- More nested calls than the line has characters are never made. -/
theorem within_iff (line : List Char) {n pos : ℕ} (hn : line.length < n) (hpos : pos ≤ line.length) (old : ν) (check : Bool) (d : ℕ) :
    Within A H paramExists line n pos old check d ↔ Whole A H paramExists line n pos check d := by
  have hlt : line.length - pos < n := by omega
  have hvalue := kept_realValue_iff (A := A) (H := H) paramExists old hpos hlt
  have hexpression := kept_evalExpression_iff (A := A) (H := H) paramExists old hpos hlt
  have hparameter := kept_parameter_iff (A := A) (H := H) paramExists old check hpos hlt
  have hpasses : (∃ z, ngcSubstituteParameters A H paramExists line n d = .ok z) ↔
      ¬ CutPasses A H paramExists (line.dropWhile (· = ' ')) n d :=
    passes_iff paramExists (Nat.lt_of_le_of_lt (List.dropWhile_suffix _).length_le hn)
  constructor
  · rintro ⟨h₁, h₂, h₃, h₄⟩
    exact ⟨hvalue.1 h₁, (hexpression.1 h₂).1, (hparameter.1 h₃).1, hpasses.1 h₄, (hexpression.1 h₂).2, (hparameter.1 h₃).2⟩
  · rintro ⟨h₁, h₂, h₃, h₄, h₅, h₆⟩
    exact ⟨hvalue.2 h₁, hexpression.2 ⟨h₂, h₅⟩, hparameter.2 ⟨h₃, h₆⟩, hpasses.2 h₄⟩

end

/-- `[1+2]` -/
theorem within_iff_sum : Whole intArith numberHost (fun _ => true) ['[', '1', '+', '2', ']'] 6 0 true 0 :=
  (within_iff (A := intArith) (H := numberHost) (fun _ => true) ['[', '1', '+', '2', ']'] (by decide)
    (by decide) 0 true 0).1
    { realValue := ⟨⟨none, 3, 5⟩, rfl, by decide, fun _ => rfl⟩
      expression := ⟨⟨none, 3, 5⟩, rfl, by decide, fun _ => rfl⟩
      parameter := ⟨⟨some .badNumberFormat, 0, 0⟩, rfl, by decide, fun h => nomatch h⟩
      substitution := ⟨(0, 0), rfl⟩ }

/-- `#[1`: the operator that is missing moves the position behind the terminator, and the substitution goes on there. -/
theorem bracket_not_closed : ¬ ∀ (line : List Char) (n pos : ℕ) (old : ℤ) (check : Bool) (d : ℕ), line.length < n → pos ≤ line.length →
    Within intArith numberHost (fun _ => true) line n pos old check d := by
  intro h
  obtain ⟨r, hr, hle, -⟩ := (h ['#', '[', '1'] 4 0 0 true 0 (by decide) (by decide)).parameter
  have hread : ngcReadParameter intArith numberHost (fun _ => true) ['#', '[', '1']
      (ngcReadRealValue intArith numberHost (fun _ => true) ['#', '[', '1'] 4) true 0 0 = .ok ⟨some .expressionUknownOp, 0, 4⟩ := rfl
  rw [← Except.ok.inj (hread.symm.trans hr)] at hle
  exact absurd hle (by decide)

/-- Behind the terminator. -/
example : ngcSubstituteParameters intArith numberHost (fun _ => true) ['#', '[', '1'] 4 0 = .error .pastEnd := by rfl

example (ftoa : ℤ → ℕ → List Char) :
    Ngc.ngcSubstituteParameters (printer intArith numberHost (fun _ => true) ftoa 3) 0 ['#', '[', '1'] = none := by
  have hpast : 2 < ((printer intArith numberHost (fun _ => true) ftoa 3).read ['#', '[', '1']).2 := by
    rw [show (2 : ℕ) = ['[', '1'].length from rfl, printer_past_iff]
    exact ⟨['[', '1'], rfl, by decide, ['1'], rfl, .inr ⟨⟨none, 1, []⟩, rfl, rfl, .inl rfl⟩⟩
  simp [Ngc.ngcSubstituteParameters, measure, hpast]

end Grbl.Ngc.Positions
