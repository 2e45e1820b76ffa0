import Mathlib
import Grbl.Ngc.Params

/-!
# Expressions

A line is the list of its characters, and a position in it is what is left of the line. The readers
call each other; `ngcReadRealValue` is bounded by a number of nested calls.

* `Status` : error codes; `Arith`, `Host` : the arithmetic, and what an expression reads;
* `precedence`, `readOperation`, `readOperationUnary`, `readFloat`, `ngcReadName` : the tokens;
* `reduce`, `evalLoop`, `ngcEvalExpression` : the loop over the operator stack;
* `ngcReadParameter`, `ngcReadIntegerValue`, `readUnary`, `readAtan`, `ngcReadRealValue` : operands;
* `FloatOps`, `executeBinary`, `executeUnary` : the arithmetic of the source.
-/

namespace Grbl.Ngc

/-- `status_code_t` without `Status_OK`. -/
inductive Status
  | badNumberFormat | gcodeUnsupportedCommand | gcodeCommandValueNotInteger | gcodeValueOutOfRange
  | expressionUknownOp | expressionDivideByZero | expressionArgumentOutOfRange
  | expressionInvalidArgument | expressionSyntaxError | expressionInvalidResult
  | flowControlNotExecutingMacro | flowControlSyntaxError | flowControlStackOverflow
  | flowControlOutOfMemory | fileOpenFailed
  | code (n : ℕ)
  deriving DecidableEq, Repr

/-- `ngc_binary_op_t` -/
inductive BinaryOp
  | noOp | dividedBy | modulo | power | times | and2 | exclusiveOR | minus | notExclusiveOR | plus
  | rightBracket | lt | eq | ne | le | ge | gt
  deriving DecidableEq, Repr

/-- `ngc_unary_op_t` -/
inductive UnaryOp
  | abs | acos | asin | atan | cos | exp | fix | fup | ln | round | sin | sqrt | tan | «exists» | parameter
  deriving DecidableEq, Repr

/-- The arithmetic: what the operations do to values. -/
structure Arith (ν : Type) where
  zero : ν
  one : ν
  neg : ν → ν
  /-- `isnan` or `isinf` -/
  notFinite : ν → Bool
  /-- the sign, the digits and the power of ten of a literal -/
  decimal : Bool → ℕ → ℤ → ν
  binary : BinaryOp → ν → ν → Except Status ν
  unary : UnaryOp → ν → Except Status ν
  /-- in degrees -/
  atan2 : ν → ν → ν
  /-- a value close to an integer -/
  toInteger : ν → Except Status ℤ

/-- What an expression reads from outside the line. -/
structure Host (ν : Type) where
  /-- `ngc_param_get` -/
  param : ℕ → Option ν
  /-- `ngc_named_param_get` -/
  namedParam : List Char → Option ν
  /-- the value of a setting, or of one bit of it -/
  setting : ℤ → Option ℤ → Except Status ν
  /-- what is in a variable that has not been written when reading starts at this position -/
  uninit : List Char → ν

/-- What a reader returns: `none` is `Status_OK`, `value` is what is in the variable afterwards. Nobody looks
at the position, `rest`, after an error. -/
structure Read (ν : Type) where
  status : Option Status
  value : ν
  rest : List Char

/-! ## Tokens -/

def precedence : BinaryOp → ℕ
  | .rightBracket => 1
  | .and2 | .exclusiveOR | .notExclusiveOR => 2
  | .lt | .eq | .ne | .le | .ge | .gt => 3
  | .minus | .plus => 4
  | .noOp | .dividedBy | .modulo | .times => 5
  | .power => 6

/-- `!strncmp(line + *pos, w, strlen(w))`, and what follows the keyword. -/
def stripKeyword : List Char → List Char → Option (List Char)
  | [], s => some s
  | _ :: _, [] => none
  | c :: w, d :: s => if c = d then stripKeyword w s else none

/-- The first keyword of the table that the line goes on with. -/
def readKeyword {α : Type} (table : List (List Char × α)) (s : List Char) : Option (α × List Char) :=
  table.findSome? fun entry => (stripKeyword entry.1 s).map fun rest => (entry.2, rest)

def binaryOps : List (List Char × BinaryOp) :=
  [(['+'], .plus), (['-'], .minus), (['/'], .dividedBy), (['*', '*'], .power), (['*'], .times),
    ([']'], .rightBracket), (['A', 'N', 'D'], .and2), (['M', 'O', 'D'], .modulo),
    (['O', 'R'], .notExclusiveOR), (['X', 'O', 'R'], .exclusiveOR), (['E', 'Q'], .eq), (['N', 'E'], .ne),
    (['G', 'E'], .ge), (['G', 'T'], .gt), (['L', 'E'], .le), (['L', 'T'], .lt)]

def readOperation (s : List Char) : Except Status (BinaryOp × List Char) :=
  match readKeyword binaryOps s with
  | some r => .ok r
  | none => .error .expressionUknownOp

def unaryOps : List (List Char × UnaryOp) :=
  [(['A', 'B', 'S'], .abs), (['A', 'C', 'O', 'S'], .acos), (['A', 'S', 'I', 'N'], .asin),
    (['A', 'T', 'A', 'N'], .atan), (['C', 'O', 'S'], .cos), (['E', 'X', 'P'], .exp),
    (['E', 'X', 'I', 'S', 'T', 'S'], .exists), (['F', 'I', 'X'], .fix), (['F', 'U', 'P'], .fup),
    (['L', 'N'], .ln), (['R', 'O', 'U', 'N', 'D'], .round), (['S', 'I', 'N'], .sin),
    (['S', 'Q', 'R', 'T'], .sqrt), (['T', 'A', 'N'], .tan), (['P', 'R', 'M'], .parameter)]

def readOperationUnary (s : List Char) : Except Status (UnaryOp × List Char) :=
  match readKeyword unaryOps s with
  | some r => .ok r
  | none => .error .expressionUknownOp

/-- The variables of the loop over the digits. -/
structure FloatScan where
  intval : ℕ := 0
  ndigit : ℕ := 0
  exp : ℤ := 0
  isdecimal : Bool := false
  ok : Bool := false

def maxIntDigits : ℕ := 9

/-- One character of the number; `none` when it ends before it. -/
def FloatScan.next (f : FloatScan) (c : Char) : Option FloatScan :=
  if c.isDigit then
    let digit := c.toNat - '0'.toNat
    let ndigit := if digit ≠ 0 ∨ f.intval ≠ 0 then f.ndigit + 1 else f.ndigit
    if ndigit ≤ maxIntDigits then
      some { f with
        ok := true, ndigit := ndigit, intval := f.intval * 10 + digit,
        exp := if f.isdecimal then f.exp - 1 else f.exp }
    else some { f with ok := true, ndigit := ndigit, exp := if f.isdecimal then f.exp else f.exp + 1 }
  else if c = '.' ∧ f.isdecimal = false then some { f with isdecimal := true }
  else none

def scanFloat : FloatScan → List Char → FloatScan × List Char
  | f, [] => (f, [])
  | f, c :: s =>
      match f.next c with
      | some f' => scanFloat f' s
      | none => (f, c :: s)

/-- The sign in front of a number. -/
def readSign : List Char → Bool × List Char
  | '-' :: s => (true, s)
  | '+' :: s => (false, s)
  | s => (false, s)

variable {ν : Type}

/-- The value of a number, unless no digit has been read. -/
def readFloat (A : Arith ν) (s : List Char) : Option (ν × List Char) :=
  let (isnegative, s) := readSign s
  let (f, s) := scanFloat {} s
  if f.ok then some (A.decimal isnegative f.intval f.exp, s) else none

/-- The characters up to the end of a name, and what follows them. -/
def readNameFrom : ℕ → List Char → List Char × List Char
  | _, [] => ([], [])
  | len, c :: s =>
      if c ≠ '>' ∧ len ≤ ngcMaxParamLength then
        let (name, s) := readNameFrom (len + 1) s
        (lcaps c :: name, s)
      else ([], c :: s)

def ngcReadName : List Char → Except Status (List Char × List Char)
  | '<' :: s =>
      match readNameFrom 0 s with
      | (name, '>' :: s) => .ok (name, s)
      | _ => .error .flowControlSyntaxError
  | _ => .error .badNumberFormat

/-! ## Evaluation -/

/-- A function that reads a value into a variable that holds `old`. -/
abbrev Reader (ν : Type) := List Char → ν → Option (Read ν)

/-- The latest operator executes the operators below it that bind as strongly, and is stacked. The stack is
`values` with `operators` from `stack_index - 1` down to 0. -/
def reduce (A : Arith ν) : List (ν × BinaryOp) → ν → BinaryOp → Except Status (List (ν × BinaryOp))
  | [], value, op => .ok [(value, op)]
  | (lhs, below) :: stack, value, op =>
      if precedence op ≤ precedence below then
        match A.binary below lhs value with
        | .ok result => reduce A stack result op
        | .error e => .error e
      else .ok ((value, op) :: (lhs, below) :: stack)

/-- An operand, the operator that follows it, and what they do to the stack. -/
def readStep (A : Arith ν) (H : Host ν) (rd : Reader ν) (stack : List (ν × BinaryOp)) (s : List Char) :
    Option (Except Status (List (ν × BinaryOp) × List Char)) :=
  (rd s (H.uninit s)).map fun r =>
    match r.status with
    | some e => .error e
    | none =>
        match readOperation r.rest with
        | .error e => .error e
        | .ok (op, rest) => (reduce A stack r.value op).map fun stack => (stack, rest)

/-- The loop ends when `operators[0]` is the right bracket; `none` when it has not ended after that many
rounds. -/
def evalLoop (A : Arith ν) (H : Host ν) (rd : Reader ν) :
    ℕ → List (ν × BinaryOp) → List Char → Option (Except Status (ν × List Char))
  | 0, _, _ => none
  | n + 1, stack, s =>
      match stack.getLast? with
      | some (value, .rightBracket) => some (.ok (value, s))
      | _ =>
          match readStep A H rd stack s with
          | none => none
          | some (.error e) => some (.error e)
          | some (.ok (stack, rest)) => evalLoop A H rd n stack rest

/-- One round, and the loop after it. -/
def stepLoop (A : Arith ν) (H : Host ν) (rd : Reader ν) (n : ℕ) (stack : List (ν × BinaryOp))
    (s : List Char) : Option (Except Status (ν × List Char)) :=
  match readStep A H rd stack s with
  | none => none
  | some (.error e) => some (.error e)
  | some (.ok (stack, rest)) => evalLoop A H rd n stack rest

def ngcEvalExpression (A : Arith ν) (H : Host ν) (rd : Reader ν) (n : ℕ) : Reader ν
  | '[' :: s, old =>
      (stepLoop A H rd n [] s).map fun
        | .ok (value, rest) => ⟨none, value, rest⟩
        | .error e => ⟨some e, old, s⟩
  | s, old => some ⟨some .gcodeUnsupportedCommand, old, s⟩

def ngcReadIntegerValue (A : Arith ν) (H : Host ν) (rd : Reader ν) (s : List Char) :
    Option (Except Status (ℤ × List Char)) :=
  (rd s (H.uninit s)).map fun r =>
    match r.status with
    | some e => .error e
    | none => (A.toInteger r.value).map fun i => (i, r.rest)

/-- What a parameter number reads; numbers have 16 bits. -/
def paramValue (A : Arith ν) (H : Host ν) (param : ℤ) (old : ν) (rest : List Char) : Read ν :=
  if param < 0 then ⟨some .gcodeValueOutOfRange, old, rest⟩
  else
    match H.param (param % 65536).toNat with
    | some value => ⟨none, value, rest⟩
    | none => ⟨some .gcodeValueOutOfRange, A.zero, rest⟩

def ngcReadParameter (A : Arith ν) (H : Host ν) (rd : Reader ν) : Reader ν
  | '#' :: '<' :: s, old =>
      some (match ngcReadName ('<' :: s) with
        | .error e => ⟨some e, old, s⟩
        | .ok (name, rest) =>
            match H.namedParam name with
            | some value => ⟨none, value, rest⟩
            | none => ⟨some .badNumberFormat, if nameSupplied (ngcNameToLower name) then A.zero else old, rest⟩)
  | '#' :: s, old =>
      (ngcReadIntegerValue A H rd s).map fun
        | .error e => ⟨some e, old, s⟩
        | .ok (param, rest) => paramValue A H param old rest
  | s, old => some ⟨some .badNumberFormat, old, s⟩

/-- `value` holds the first argument. -/
def readAtan (A : Arith ν) (H : Host ν) (rd : Reader ν) (n : ℕ) : Reader ν
  | '/' :: '[' :: s, value =>
      (ngcEvalExpression A H rd n ('[' :: s) (H.uninit s)).map fun r =>
        match r.status with
        | some e => ⟨some e, value, r.rest⟩
        | none => ⟨none, A.atan2 value r.value, r.rest⟩
  | s, value => some ⟨some .expressionSyntaxError, value, s⟩

/-- The argument of `EXISTS`, after its left bracket. -/
def readExists (A : Arith ν) (H : Host ν) : List Char → ν → Read ν
  | '#' :: '<' :: s, old =>
      let arg := s.takeWhile (· ≠ ']')
      match s.dropWhile (· ≠ ']') with
      | _ :: rest =>
          if arg.getLast? = some '>' then
            ⟨none, if (H.namedParam arg.dropLast).isSome then A.one else A.zero, rest⟩
          else ⟨some .expressionSyntaxError, old, s⟩
      | [] => ⟨some .expressionSyntaxError, old, s⟩
  | s, old => ⟨some .expressionSyntaxError, old, s⟩

/-- The right bracket, and the setting's value. -/
def readSettingEnd (H : Host ν) (id : ℤ) (bit : Option ℤ) : List Char → ν → Read ν
  | ']' :: s, old =>
      match H.setting id bit with
      | .ok value => ⟨none, value, s⟩
      | .error e => ⟨some e, old, s⟩
  | s, old => ⟨some .expressionSyntaxError, old, s⟩

/-- The arguments of `PRM`, after its left bracket. -/
def readSetting (A : Arith ν) (H : Host ν) (rd : Reader ν) (s : List Char) (old : ν) : Option (Read ν) :=
  (ngcReadIntegerValue A H rd s).bind fun
    | .error e => some ⟨some e, old, s⟩
    | .ok (id, ',' :: s) =>
        (ngcReadIntegerValue A H rd s).map fun
          | .error e => ⟨some e, old, s⟩
          | .ok (bit, rest) =>
              if bit < 0 ∨ 31 < bit then ⟨some .expressionArgumentOutOfRange, old, rest⟩
              else readSettingEnd H id (some bit) rest old
    | .ok (id, s) => some (readSettingEnd H id none s old)

def readUnary (A : Arith ν) (H : Host ν) (rd : Reader ν) (n : ℕ) (s : List Char) (old : ν) :
    Option (Read ν) :=
  match readOperationUnary s with
  | .error e => some ⟨some e, old, s⟩
  | .ok (operation, '[' :: s) =>
      match operation with
      | .exists => some (readExists A H s old)
      | .parameter => readSetting A H rd s old
      | operation =>
          (ngcEvalExpression A H rd n ('[' :: s) old).bind fun r =>
            match r.status with
            | some _ => some r
            | none =>
                if operation = .atan then readAtan A H rd n r.rest r.value
                else
                  some (match A.unary operation r.value with
                    | .ok value => ⟨none, value, r.rest⟩
                    | .error e => ⟨some e, r.value, r.rest⟩)
  | .ok (_, s) => some ⟨some .expressionSyntaxError, old, s⟩

/-- A sign in front of this is an operator, not part of a number. -/
def signsOperand : List Char → Bool
  | c :: _ => !c.isDigit && c != '.'
  | [] => false

/-- What has been read must be a number. -/
def checkFinite (A : Arith ν) (r : Read ν) : Read ν :=
  if A.notFinite r.value then { r with status := some .expressionInvalidResult } else r

/-- One call, with `rd` for the nested ones. -/
def readRealValue (A : Arith ν) (H : Host ν) (rd : Reader ν) (n : ℕ) : Reader ν
  | [], old => some ⟨some .expressionSyntaxError, old, []⟩
  | c :: s, old =>
      (if c = '[' then ngcEvalExpression A H rd n (c :: s) old
        else if c = '#' then ngcReadParameter A H rd (c :: s) old
        else if c = '+' ∧ signsOperand s then rd s old
        else if c = '-' ∧ signsOperand s then
          (rd s old).map fun r => { r with value := A.neg r.value }
        else if 'A' ≤ c ∧ c ≤ 'Z' then readUnary A H rd n (c :: s) old
        else
          some (match readFloat A (c :: s) with
            | some (value, rest) => ⟨none, value, rest⟩
            | none => ⟨some .badNumberFormat, old, c :: s⟩)).map (checkFinite A)

/-- At most `n` calls are nested. -/
def ngcReadRealValue (A : Arith ν) (H : Host ν) : ℕ → Reader ν
  | 0 => fun _ _ => none
  | n + 1 => readRealValue A H (ngcReadRealValue A H n) n

/-- An expression on a line: no more calls are nested than the line has characters. -/
def evalLine (A : Arith ν) (H : Host ν) (line : List Char) (old : ν) : Option (Read ν) :=
  ngcEvalExpression A H (ngcReadRealValue A H line.length) line.length line old

/-! ## The arithmetic of the source -/

/-- The operations on `float` and the functions of the C library. -/
structure FloatOps (ν : Type) where
  ofInt : ℤ → ν
  tenth : ν
  hundredth : ν
  tolerance : ν
  /-- 0.9999 -/
  nearOne : ν
  degrad : ν
  raddeg : ν
  half : ν
  neg : ν → ν
  add : ν → ν → ν
  sub : ν → ν → ν
  mul : ν → ν → ν
  div : ν → ν → ν
  fmod : ν → ν → ν
  pow : ν → ν → ν
  fabs : ν → ν
  floor : ν → ν
  ceil : ν → ν
  acos : ν → ν
  asin : ν → ν
  atan2 : ν → ν → ν
  cos : ν → ν
  exp : ν → ν
  log : ν → ν
  sin : ν → ν
  sqrt : ν → ν
  tan : ν → ν
  lt : ν → ν → Bool
  le : ν → ν → Bool
  eq : ν → ν → Bool
  notFinite : ν → Bool
  /-- the conversion to an integer type, towards zero -/
  toInt : ν → ℤ

namespace FloatOps

variable (F : FloatOps ν)

def zero : ν := F.ofInt 0

def one : ν := F.ofInt 1

/-- `b ? 1.0f : 0.0f` -/
def ofBool (b : Bool) : ν := if b then F.one else F.zero

def executeBinary1 (operation : BinaryOp) (lhs rhs : ν) : Except Status ν :=
  match operation with
  | .dividedBy => if F.eq rhs F.zero then .error .expressionDivideByZero else .ok (F.div lhs rhs)
  | .modulo =>
      let result := F.fmod lhs rhs
      .ok (if F.lt result F.zero then F.add result (F.fabs rhs) else result)
  | .power =>
      if F.lt lhs F.zero && !F.eq (F.floor rhs) rhs then .error .expressionInvalidArgument
      else .ok (F.pow lhs rhs)
  | .times => .ok (F.mul lhs rhs)
  | _ => .error .expressionUknownOp

/-- The distance of two values. -/
def diff (lhs rhs : ν) : ν :=
  let diff := F.sub lhs rhs
  if F.lt diff F.zero then F.neg diff else diff

def executeBinary2 (operation : BinaryOp) (lhs rhs : ν) : Except Status ν :=
  match operation with
  | .and2 => .ok (F.ofBool (!(F.eq lhs F.zero || F.eq rhs F.zero)))
  | .exclusiveOR => .ok (F.ofBool (F.eq lhs F.zero != F.eq rhs F.zero))
  | .minus => .ok (F.sub lhs rhs)
  | .notExclusiveOR => .ok (F.ofBool (!F.eq lhs F.zero || !F.eq rhs F.zero))
  | .plus => .ok (F.add lhs rhs)
  | .lt => .ok (F.ofBool (F.lt lhs rhs))
  | .eq => .ok (F.ofBool (F.lt (F.diff lhs rhs) F.tolerance))
  | .ne => .ok (F.ofBool (F.le F.tolerance (F.diff lhs rhs)))
  | .le => .ok (F.ofBool (F.le lhs rhs))
  | .ge => .ok (F.ofBool (F.le rhs lhs))
  | .gt => .ok (F.ofBool (F.lt rhs lhs))
  | _ => .error .expressionUknownOp

/-- `operation <= NGCBinaryOp_Binary2` -/
def executeBinary (operation : BinaryOp) (lhs rhs : ν) : Except Status ν :=
  match operation with
  | .noOp | .dividedBy | .modulo | .power | .times => F.executeBinary1 operation lhs rhs
  | _ => F.executeBinary2 operation lhs rhs

def executeUnary (operation : UnaryOp) (operand : ν) : Except Status ν :=
  let outOfRange : Bool := F.lt operand (F.ofInt (-1)) || F.lt F.one operand
  match operation with
  | .abs => .ok (if F.lt operand F.zero then F.mul (F.ofInt (-1)) operand else operand)
  | .acos => if outOfRange then .error .expressionArgumentOutOfRange else .ok (F.mul (F.acos operand) F.degrad)
  | .asin => if outOfRange then .error .expressionArgumentOutOfRange else .ok (F.mul (F.asin operand) F.degrad)
  | .cos => .ok (F.cos (F.mul operand F.raddeg))
  | .exists => .ok operand
  | .exp => .ok (F.exp operand)
  | .fix => .ok (F.floor operand)
  | .fup => .ok (F.ceil operand)
  | .ln => if F.le operand F.zero then .error .expressionArgumentOutOfRange else .ok (F.log operand)
  | .round =>
      .ok (F.ofInt (F.toInt (F.add operand (if F.lt operand F.zero then F.neg F.half else F.half))))
  | .sin => .ok (F.sin (F.mul operand F.raddeg))
  | .sqrt => if F.lt operand F.zero then .error .expressionArgumentOutOfRange else .ok (F.sqrt operand)
  | .tan => .ok (F.tan (F.mul operand F.raddeg))
  | .atan | .parameter => .error .expressionUknownOp

/-- The last lines of `ngc_read_integer_value`. -/
def readInteger (fvalue : ν) : Except Status ℤ :=
  let value := F.toInt (F.floor fvalue)
  let fraction := F.sub fvalue (F.ofInt value)
  if F.lt F.nearOne fraction then .ok (F.toInt (F.ceil fvalue))
  else if F.lt F.tolerance fraction then .error .gcodeCommandValueNotInteger
  else .ok value

/-- `f` multiplied by `x`, `n` times. -/
def mulTimes (x : ν) : ℕ → ν → ν
  | 0, f => f
  | n + 1, f => mulTimes x n (F.mul f x)

/-- The last lines of `read_float`. -/
def decimal (isnegative : Bool) (intval : ℕ) (exp : ℤ) : ν :=
  let fval := F.ofInt intval
  let fval :=
    if F.eq fval F.zero then fval
    else if exp < 0 then
      let fval := F.mulTimes F.hundredth (exp.natAbs / 2) fval
      if exp.natAbs % 2 = 1 then F.mul fval F.tenth else fval
    else F.mulTimes (F.ofInt 10) exp.natAbs fval
  if isnegative then F.neg fval else fval

def arith : Arith ν where
  zero := F.zero
  one := F.one
  neg := F.neg
  notFinite := F.notFinite
  decimal := F.decimal
  binary := F.executeBinary
  unary := F.executeUnary
  atan2 y x := F.mul (F.atan2 y x) F.degrad
  toInteger := F.readInteger

end FloatOps

end Grbl.Ngc
