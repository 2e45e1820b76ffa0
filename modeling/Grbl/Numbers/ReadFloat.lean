import Mathlib
import Grbl.Numbers.ReadUint

/-!
# Decimal numbers of a line

A line in memory is shorter than `2^31` characters; `uint_fast8_t` and `int_fast8_t` have 32 bits. The float is exact.

* `FloatScan`, `scanFloat`, `applyDecimal`, `readFloat` : `read_float`;
* `DecimalText`, `truncated`, `ReadsAs` : numbers, and what they are read as;
* `significant` : the digits that are counted; `Scanned` : the variables of the loop after digits;
* `DecimalText.prefix_of` : the longest number; `reads_faithfully`.
-/

namespace Grbl.Numbers

def maxIntDigits : ℕ := 9

/-- The variables of the loop over the characters. -/
structure FloatScan where
  exp : ℤ := 0
  ndigit : ℕ := 0
  intval : ℕ := 0
  isdecimal : Bool := false
  ok : Bool := false

/-- `if(c != 0 || intval) ndigit++` -/
def FloatScan.count (f : FloatScan) (c : ℕ) : ℕ := if c ≠ 0 ∨ f.intval ≠ 0 then (f.ndigit + 1) % 2 ^ 32 else f.ndigit

/-- A digit `c`. -/
def FloatScan.digit (f : FloatScan) (c : ℕ) : FloatScan :=
  if f.count c ≤ maxIntDigits then
    { f with
      ok := true
      ndigit := f.count c
      exp := if f.isdecimal then (f.exp - 1).bmod (2 ^ 32) else f.exp
      intval := (f.intval * 10 + c) % 2 ^ 32 }
  else
    { f with
      ok := true
      ndigit := f.count c
      exp := if f.isdecimal then f.exp else (f.exp + 1).bmod (2 ^ 32) }

/-- The loop, with what is left of the line. -/
def scanFloat : FloatScan → List Char → FloatScan × List Char
  | f, [] => (f, [])
  | f, c :: s =>
      if c.isDigit then scanFloat (f.digit (digitOf c)) s
      else if c = '.' ∧ f.isdecimal = false then scanFloat { f with isdecimal := true } s
      else (f, c :: s)

/-- The initial sign, and what follows it. -/
def splitSign : List Char → List Char × List Char
  | '-' :: s => (['-'], s)
  | '+' :: s => (['+'], s)
  | s => ([], s)

/-- `do { fval *= 10.0f; } while (--exp > 0)` -/
def scaleUp : ℕ → ℚ → ℚ
  | 0, fval => fval
  | exp + 1, fval => scaleUp exp (fval * 10)

/-- `while (exp <= -2) { fval *= 0.01f; exp += 2; }` and then `if (exp < 0) fval *= 0.1f`, for `-exp`. -/
def scaleDown : ℕ → ℚ → ℚ
  | 0, fval => fval
  | 1, fval => fval * (1 / 10)
  | exp + 2, fval => scaleDown exp (fval * (1 / 100))

/-- `fval` with the decimal applied. -/
def applyDecimal (fval : ℚ) (exp : ℤ) : ℚ :=
  if fval ≠ 0 then if exp ≤ 0 then scaleDown exp.natAbs fval else scaleUp exp.natAbs fval else fval

/-- What `read_float` returns, and what is in `*char_counter` and `*float_ptr` then. -/
structure FloatReadout where
  ok : Bool
  charCounter : ℕ
  value : ℚ
  deriving DecidableEq

def readFloat (line : List Char) (charCounter : ℕ) (value : ℚ) : FloatReadout :=
  let (isnegative, s) := splitSign (line.drop charCounter)
  let (f, rest) := scanFloat {} s
  if f.ok then
    let fval := applyDecimal f.intval f.exp
    ⟨true, line.length - rest.length, if isnegative = ['-'] then -fval else fval⟩
  else ⟨false, charCounter, value⟩

/-! ## What a number denotes -/

/-- The digits that count as significant: leading zeros do not. -/
def significant (ds : List Char) : List Char := ds.dropWhile (· = '0')

/-- The number `ds.fs` with its digits behind the first `MAX_INT_DIGITS` significant ones set to zero. -/
def truncated (ds fs : List Char) : ℚ :=
  let s := significant (ds ++ fs)
  numeral (s.take maxIntDigits ++ List.replicate (s.length - maxIntDigits) '0') / 10 ^ fs.length

/-- `[sign]digits[.digits]`, with the digits before and behind the point. -/
structure DecimalText (text sign ds point fs : List Char) : Prop where
  text_eq : text = sign ++ ds ++ point ++ fs
  sign : sign = [] ∨ sign = ['-'] ∨ sign = ['+']
  ds : ∀ c ∈ ds, c.isDigit = true
  point : point = [] ∧ fs = [] ∨ point = ['.']
  fs : ∀ c ∈ fs, c.isDigit = true

/-- A text of the form `[sign]digits[.digits]`. -/
def IsDecimal (text : List Char) : Prop := ∃ sign ds point fs, DecimalText text sign ds point fs

/-- What the number at a position is read as. -/
structure ReadsAs (line : List Char) (pos : ℕ) (value : ℚ) : Prop where
  ok_iff : (readFloat line pos value).ok = true ↔ ∃ text, text <+: line.drop pos ∧ IsDecimal text ∧ ∃ c ∈ text, c.isDigit = true
  longest : (readFloat line pos value).ok = true → ∃ text, IsDecimal text ∧ text <+: line.drop pos ∧
    (readFloat line pos value).charCounter = pos + text.length ∧ ∀ text', text' <+: line.drop pos → IsDecimal text' → text' <+: text
  denoted : (readFloat line pos value).ok = true → ∀ sign ds point fs,
    DecimalText ((line.drop pos).take ((readFloat line pos value).charCounter - pos)) sign ds point fs →
      (readFloat line pos value).value = if sign = ['-'] then -truncated ds fs else truncated ds fs
  noOverflow : ∀ p c, p ++ [c] <+: (splitSign (line.drop pos)).2 → c.isDigit = true → (scanFloat {} p).2 = [] →
    (scanFloat {} p).1.count (digitOf c) ≤ maxIntDigits → (scanFloat {} p).1.intval * 10 + digitOf c < 2 ^ 32
  unchanged : (readFloat line pos value).ok = false →
    (readFloat line pos value).charCounter = pos ∧ (readFloat line pos value).value = value

/-! ## Digits -/

section
variable {ds : List Char} {c : Char}

theorem numeral_concat (ds : List Char) (c : Char) : numeral (ds ++ [c]) = numeral ds * 10 + digitOf c := by
  rw [numeral, List.foldl_append]
  rfl

theorem numeral_zeros (ds : List Char) (k : ℕ) : numeral (ds ++ List.replicate k '0') = numeral ds * 10 ^ k := by
  induction k with
  | zero => rw [List.replicate_zero, List.append_nil, Nat.pow_zero, Nat.mul_one]
  | succ k ih =>
      have hzero : digitOf '0' = 0 := rfl
      rw [List.replicate_succ', ← List.append_assoc, numeral_concat, ih, hzero, Nat.add_zero, Nat.pow_succ, Nat.mul_assoc]

theorem numeral_lt (hds : ∀ c ∈ ds, c.isDigit = true) : numeral ds < 10 ^ ds.length := by
  induction ds using List.reverseRecOn with
  | nil => exact Nat.one_pos
  | append_singleton ds c ih =>
      have hlt := ih fun d hd => hds d (List.mem_append_left _ hd)
      have hle := digitOf_le (hds c (List.mem_append_right _ List.mem_cons_self))
      rw [numeral_concat, List.length_append, List.length_singleton, Nat.pow_succ]
      omega

theorem significant_concat (ds : List Char) (c : Char) :
    significant (ds ++ [c]) = if significant ds = [] ∧ c = '0' then [] else significant ds ++ [c] := by
  rw [significant, List.dropWhile_append, significant]
  by_cases hnil : ds.dropWhile (· = '0') = []
  · rw [hnil, List.isEmpty_nil, if_pos rfl]
    by_cases hc : c = '0'
    · rw [if_pos ⟨rfl, hc⟩, hc]
      rfl
    · rw [if_neg (fun h => hc h.2), List.dropWhile_cons_of_neg (by simpa using hc)]
      rfl
  · rw [if_neg (by simpa using hnil), if_neg (fun h => hnil h.1)]

theorem mem_of_mem_significant (h : c ∈ significant ds) : c ∈ ds := (List.dropWhile_suffix _).subset h

theorem significant_head (h : (significant ds).head? = some c) : c ≠ '0' := by
  have hhead := List.head?_dropWhile_not (fun c => decide (c = '0')) ds
  rw [significant] at h
  rw [h] at hhead
  simpa using hhead

theorem numeral_take_eq_zero (hds : ∀ c ∈ ds, c.isDigit = true) :
    numeral ((significant ds).take maxIntDigits) = 0 ↔ significant ds = [] := by
  constructor
  · intro hzero
    cases hs : significant ds with
    | nil => rfl
    | cons d s =>
        exfalso
        have hd : d ≠ '0' := significant_head (by rw [hs]; rfl)
        have hdigit : d.isDigit = true := hds d (mem_of_mem_significant (by rw [hs]; exact List.mem_cons_self))
        have hpos : ∀ l : List Char, 0 < numeral (d :: l) := by
          intro l
          induction l using List.reverseRecOn with
          | nil =>
              rw [numeral, List.foldl_cons, List.foldl_nil, Nat.zero_mul, Nat.zero_add]
              exact Nat.pos_of_ne_zero fun h0 => hd (isDigit_eq_zero hdigit h0)
          | append_singleton l e ih =>
              rw [← List.cons_append, numeral_concat]
              omega
        rw [hs, maxIntDigits, List.take_succ_cons] at hzero
        exact absurd hzero (hpos _).ne'
  · intro hnil
    rw [hnil, List.take_nil]
    rfl

end

/-! ## The loop -/

/-- The variables after the digits `ds` before the point and `fs` behind it. -/
structure Scanned (f : FloatScan) (ds fs : List Char) : Prop where
  exp : f.exp = ((significant (ds ++ fs)).length - maxIntDigits : ℕ) - (fs.length : ℤ)
  ndigit : f.ndigit = (significant (ds ++ fs)).length
  intval : f.intval = numeral ((significant (ds ++ fs)).take maxIntDigits)
  ok : f.ok = !(ds ++ fs).isEmpty
  digits : ∀ c ∈ ds ++ fs, c.isDigit = true

theorem Scanned.nil : Scanned {} [] [] := ⟨rfl, rfl, rfl, rfl, fun _ hc => absurd hc List.not_mem_nil⟩

theorem significant_length_le (ds : List Char) : (significant ds).length ≤ ds.length := (List.dropWhile_suffix _).length_le

@[simp] theorem FloatScan.digit_isdecimal (f : FloatScan) (c : ℕ) : (f.digit c).isdecimal = f.isdecimal := by
  rw [FloatScan.digit]
  split <;> rfl

@[simp] theorem FloatScan.digit_ok (f : FloatScan) (c : ℕ) : (f.digit c).ok = true := by
  rw [FloatScan.digit]
  split <;> rfl

namespace Scanned
variable {f : FloatScan} {ds fs : List Char} {c : Char}

theorem count (h : Scanned f ds fs) (hc : c.isDigit = true) (hlen : (ds ++ fs).length < 2 ^ 31) :
    f.count (digitOf c) = (significant (ds ++ fs ++ [c])).length := by
  have hle := significant_length_le (ds ++ fs)
  have hzero : f.intval = 0 ↔ significant (ds ++ fs) = [] := by
    rw [h.intval]
    exact numeral_take_eq_zero h.digits
  have hc0 : digitOf c = 0 ↔ c = '0' := ⟨isDigit_eq_zero hc, fun h0 => by rw [h0]; rfl⟩
  rw [FloatScan.count, significant_concat, h.ndigit]
  by_cases hboth : significant (ds ++ fs) = [] ∧ c = '0'
  · rw [if_neg (fun hor => hor.elim (· (hc0.2 hboth.2)) (· (hzero.2 hboth.1))), if_pos hboth, hboth.1]
  · have hcounts : digitOf c ≠ 0 ∨ f.intval ≠ 0 := by
      by_contra hnone
      rw [not_or, not_not, not_not] at hnone
      exact hboth ⟨hzero.1 hnone.2, hc0.1 hnone.1⟩
    rw [if_pos hcounts, if_neg hboth, List.length_append, List.length_singleton]
    exact Nat.mod_eq_of_lt (by omega)

theorem accumulate (h : Scanned f ds fs) (hc : c.isDigit = true) (hlen : (ds ++ fs).length < 2 ^ 31)
    (hcount : f.count (digitOf c) ≤ maxIntDigits) :
    f.intval * 10 + digitOf c = numeral ((significant (ds ++ fs ++ [c])).take maxIntDigits) ∧ f.intval * 10 + digitOf c < 2 ^ 32 := by
  have hdigits : ∀ d ∈ ds ++ fs ++ [c], d.isDigit = true := by
    intro d hd
    rcases List.mem_append.1 hd with hd | hd
    · exact h.digits d hd
    · rwa [List.mem_singleton.1 hd]
  have hlt : numeral ((significant (ds ++ fs ++ [c])).take maxIntDigits) < 2 ^ 32 := by
    have hnum : numeral ((significant (ds ++ fs ++ [c])).take maxIntDigits) <
        10 ^ ((significant (ds ++ fs ++ [c])).take maxIntDigits).length :=
      numeral_lt fun d hd => hdigits d (mem_of_mem_significant (List.mem_of_mem_take hd))
    have hpow : 10 ^ ((significant (ds ++ fs ++ [c])).take maxIntDigits).length ≤ 10 ^ 9 :=
      Nat.pow_le_pow_right (by decide) (List.length_take_le _ _)
    omega
  have heq : f.intval * 10 + digitOf c = numeral ((significant (ds ++ fs ++ [c])).take maxIntDigits) := by
    rw [h.count hc hlen] at hcount
    rw [List.take_of_length_le hcount, h.intval]
    rw [significant_concat] at hcount ⊢
    by_cases hboth : significant (ds ++ fs) = [] ∧ c = '0'
    · rw [if_pos hboth, hboth.1, hboth.2]
      rfl
    · rw [if_neg hboth, List.length_append, List.length_singleton] at hcount
      rw [if_neg hboth, numeral_concat, List.take_of_length_le (by omega)]
  exact ⟨heq, heq ▸ hlt⟩

theorem digit (h : Scanned f ds fs) (hc : c.isDigit = true) (hlen : (ds ++ fs).length < 2 ^ 31) :
    (f.digit (digitOf c)).ndigit = (significant (ds ++ fs ++ [c])).length ∧
      (f.digit (digitOf c)).intval = numeral ((significant (ds ++ fs ++ [c])).take maxIntDigits) ∧
        (f.digit (digitOf c)).exp = ((significant (ds ++ fs ++ [c])).length - maxIntDigits : ℕ) -
          ((if f.isdecimal then fs.length + 1 else fs.length : ℕ) : ℤ) := by
  have hcount := h.count hc hlen
  have hle := significant_length_le (ds ++ fs)
  have hfs : fs.length ≤ (ds ++ fs).length := by
    rw [List.length_append]
    omega
  rw [FloatScan.digit]
  by_cases hsmall : f.count (digitOf c) ≤ maxIntDigits
  · obtain ⟨heq, hlt⟩ := h.accumulate hc hlen hsmall
    rw [if_pos hsmall]
    refine ⟨hcount, (Nat.mod_eq_of_lt hlt).trans heq, ?_⟩
    have hnone : (significant (ds ++ fs ++ [c])).length - maxIntDigits = 0 := by omega
    have hold : (significant (ds ++ fs)).length - maxIntDigits = 0 := by
      rw [hcount, significant_concat] at hsmall
      split at hsmall
      · rename_i hboth
        rw [hboth.1]
        rfl
      · rw [List.length_append] at hsmall
        omega
    dsimp only
    rw [h.exp, hnone, hold]
    cases f.isdecimal with
    | true =>
        rw [if_pos rfl, if_pos rfl, Int.bmod_eq_of_le (by omega) (by omega)]
        push_cast
        omega
    | false => rw [if_neg Bool.false_ne_true, if_neg Bool.false_ne_true]
  · rw [if_neg hsmall]
    have happend : significant (ds ++ fs ++ [c]) = significant (ds ++ fs) ++ [c] := by
      rw [significant_concat, if_neg]
      rintro ⟨hnil, hzero⟩
      rw [hcount, significant_concat, if_pos ⟨hnil, hzero⟩] at hsmall
      exact hsmall (Nat.zero_le _)
    rw [hcount, happend, List.length_append, List.length_singleton] at hsmall
    have hlong : maxIntDigits ≤ (significant (ds ++ fs)).length := by omega
    have hmax : maxIntDigits = 9 := rfl
    refine ⟨hcount, ?_, ?_⟩
    · rw [happend, List.take_append_of_le_length hlong]
      exact h.intval
    · rw [happend, List.length_append, List.length_singleton]
      dsimp only
      rw [h.exp]
      cases f.isdecimal with
      | true =>
          rw [if_pos rfl, if_pos rfl]
          push_cast
          omega
      | false =>
          rw [if_neg Bool.false_ne_true, if_neg Bool.false_ne_true, Int.bmod_eq_of_le (by omega) (by omega)]
          omega

theorem before (h : Scanned f ds []) (hdec : f.isdecimal = false) (hc : c.isDigit = true) (hlen : ds.length < 2 ^ 31) :
    Scanned (f.digit (digitOf c)) (ds ++ [c]) [] := by
  obtain ⟨hndigit, hintval, hexp⟩ := h.digit hc (by rwa [List.append_nil])
  rw [hdec, if_neg Bool.false_ne_true] at hexp
  rw [List.append_nil] at hndigit hintval hexp
  refine ⟨?_, ?_, ?_, ?_, ?_⟩
  · rw [List.append_nil, hexp]
  · rw [List.append_nil, hndigit]
  · rw [List.append_nil, hintval]
  · rw [f.digit_ok, List.append_nil, List.isEmpty_eq_false_iff.2 (List.concat_ne_nil c ds)]
    rfl
  · intro d hd
    rw [List.append_nil] at hd
    rcases List.mem_append.1 hd with hd | hd
    · exact h.digits d (List.mem_append_left _ hd)
    · rwa [List.mem_singleton.1 hd]

theorem behind (h : Scanned f ds fs) (hdec : f.isdecimal = true) (hc : c.isDigit = true) (hlen : (ds ++ fs).length < 2 ^ 31) :
    Scanned (f.digit (digitOf c)) ds (fs ++ [c]) := by
  obtain ⟨hndigit, hintval, hexp⟩ := h.digit hc hlen
  rw [hdec, if_pos rfl, List.append_assoc] at hexp
  rw [List.append_assoc] at hndigit hintval
  refine ⟨?_, hndigit, hintval, ?_, ?_⟩
  · have hfs : (fs ++ [c]).length = fs.length + 1 := by rw [List.length_append, List.length_singleton]
    rw [hexp, hfs]
  · rw [f.digit_ok, ← List.append_assoc, List.isEmpty_eq_false_iff.2 (List.concat_ne_nil c (ds ++ fs))]
    rfl
  · intro d hd
    rw [← List.append_assoc] at hd
    rcases List.mem_append.1 hd with hd | hd
    · exact h.digits d hd
    · rwa [List.mem_singleton.1 hd]

end Scanned

theorem scanFloat_before (rest zs : List Char) : ∀ {f : FloatScan} {ds : List Char}, (∀ c ∈ zs, c.isDigit = true) →
    (ds ++ zs).length < 2 ^ 31 → Scanned f ds [] → f.isdecimal = false →
      ∃ f', scanFloat f (zs ++ rest) = scanFloat f' rest ∧ Scanned f' (ds ++ zs) [] ∧ f'.isdecimal = false := by
  induction zs with
  | nil => exact fun {f} {ds} _ _ h hdec => ⟨f, rfl, by rwa [List.append_nil], hdec⟩
  | cons c zs ih =>
      intro f ds hzs hlen h hdec
      have hc := hzs c List.mem_cons_self
      rw [List.append_cons] at hlen ⊢
      have hds : ds.length < 2 ^ 31 := by
        rw [List.length_append, List.length_append] at hlen
        omega
      obtain ⟨f', hscan, hf'⟩ := ih (fun d hd => hzs d (List.mem_cons_of_mem _ hd)) hlen (h.before hdec hc hds)
        (by rw [f.digit_isdecimal, hdec])
      refine ⟨f', ?_, hf'⟩
      rw [List.cons_append, scanFloat, if_pos hc, hscan]

theorem scanFloat_behind (rest zs : List Char) : ∀ {f : FloatScan} {ds fs : List Char}, (∀ c ∈ zs, c.isDigit = true) →
    (ds ++ fs ++ zs).length < 2 ^ 31 → Scanned f ds fs → f.isdecimal = true →
      ∃ f', scanFloat f (zs ++ rest) = scanFloat f' rest ∧ Scanned f' ds (fs ++ zs) ∧ f'.isdecimal = true := by
  induction zs with
  | nil => exact fun {f} {ds} {fs} _ _ h hdec => ⟨f, rfl, by rwa [List.append_nil], hdec⟩
  | cons c zs ih =>
      intro f ds fs hzs hlen h hdec
      have hc := hzs c List.mem_cons_self
      have hds : (ds ++ fs).length < 2 ^ 31 := by
        rw [List.length_append] at hlen
        omega
      rw [List.append_cons fs]
      rw [List.append_cons (ds ++ fs), List.append_assoc ds fs [c]] at hlen
      obtain ⟨f', hscan, hf'⟩ := ih (fun d hd => hzs d (List.mem_cons_of_mem _ hd)) hlen (h.behind hdec hc hds)
        (by rw [f.digit_isdecimal, hdec])
      refine ⟨f', ?_, hf'⟩
      rw [List.cons_append, scanFloat, if_pos hc, hscan]

theorem scanFloat_stop {f : FloatScan} {s : List Char} (h : ∀ c ∈ s.head?, c.isDigit = false ∧ (c = '.' → f.isdecimal = true)) :
    scanFloat f s = (f, s) := by
  cases s with
  | nil => rfl
  | cons c s =>
      obtain ⟨hd, hp⟩ := h c rfl
      rw [scanFloat, hd, if_neg Bool.false_ne_true, if_neg]
      rintro ⟨rfl, hfalse⟩
      rw [hp rfl] at hfalse
      cases hfalse

/-- What the loop reads: the digits, then the point and the digits behind it, if there are any. -/
theorem scanFloat_eq {s : List Char} (hlen : s.length < 2 ^ 31) :
    ∃ f point rest, scanFloat {} s = (f, rest) ∧ s = whole s ++ point ++ fraction s ++ rest ∧
      (point = [] ∧ fraction s = [] ∨ point = ['.']) ∧ Scanned f (whole s) (fraction s) ∧
        ∀ c ∈ rest.head?, c.isDigit = false ∧ (c = '.' → point = ['.']) := by
  have hs : whole s ++ s.dropWhile Char.isDigit = s := List.takeWhile_append_dropWhile
  have hwholelen : (whole s).length < 2 ^ 31 := by
    have heq := congrArg List.length hs
    rw [List.length_append] at heq
    omega
  obtain ⟨v, hscan, hv, hdec⟩ := scanFloat_before (s.dropWhile Char.isDigit) (whole s) isDigit_of_mem_takeWhile
    hwholelen Scanned.nil rfl
  rw [hs] at hscan
  rw [List.nil_append] at hv
  have hhead : ∀ c ∈ (s.dropWhile Char.isDigit).head?, c.isDigit = false := fun c => head_dropWhile
  rw [hscan]
  have hnone : ∀ p t, s.dropWhile Char.isDigit = p :: t → p ≠ '.' → fraction s = [] := by
    intro p t htail hp
    rw [fraction, htail, afterPoint_of_ne hp, List.takeWhile_nil]
  cases htail : s.dropWhile Char.isDigit with
  | nil =>
      have hfraction : fraction s = [] := by rw [fraction, htail, afterPoint_nil, List.takeWhile_nil]
      rw [htail] at hs
      rw [hfraction]
      refine ⟨v, [], [], rfl, ?_, .inl ⟨rfl, rfl⟩, hv, fun c hc => absurd hc (by simp)⟩
      simpa using hs.symm
  | cons p t =>
      rw [htail] at hhead
      by_cases hp : p = '.'
      · subst hp
        have hfraction : fraction s = t.takeWhile Char.isDigit := by rw [fraction, htail, afterPoint]
        have hpoint : ('.').isDigit ≠ true := by decide
        have hparts : s = whole s ++ ['.'] ++ t.takeWhile Char.isDigit ++ t.dropWhile Char.isDigit := by
          rw [List.append_assoc, List.takeWhile_append_dropWhile, List.append_assoc, List.singleton_append, ← htail, hs]
        have hfraclen : (whole s ++ [] ++ t.takeWhile Char.isDigit).length < 2 ^ 31 := by
          have heq := congrArg List.length hparts
          rw [List.length_append, List.length_append, List.length_append] at heq
          rw [List.append_nil, List.length_append]
          omega
        obtain ⟨f, hfscan, hf, hfdec⟩ := scanFloat_behind (f := { v with isdecimal := true }) (t.dropWhile Char.isDigit)
          (t.takeWhile Char.isDigit) isDigit_of_mem_takeWhile hfraclen ⟨hv.exp, hv.ndigit, hv.intval, hv.ok, hv.digits⟩ rfl
        rw [List.takeWhile_append_dropWhile] at hfscan
        rw [List.nil_append] at hf
        rw [hfraction]
        refine ⟨f, ['.'], t.dropWhile Char.isDigit, ?_, hparts, .inr rfl, hf, fun c hc => ⟨head_dropWhile hc, fun _ => rfl⟩⟩
        rw [scanFloat, if_neg hpoint, if_pos ⟨rfl, hdec⟩, hfscan]
        exact scanFloat_stop fun c hc => ⟨head_dropWhile hc, fun _ => hfdec⟩
      · rw [hnone p t htail hp]
        refine ⟨v, [], p :: t, ?_, ?_, .inl ⟨rfl, rfl⟩, hv, fun c hc => ⟨hhead c hc, fun hdot => ?_⟩⟩
        · exact scanFloat_stop fun c hc => ⟨hhead c hc, fun hdot => by cases hc; exact absurd hdot hp⟩
        · rw [List.append_nil, List.append_nil, ← htail, hs]
        · cases hc
          exact absurd hdot hp

/-! ## The longest number -/

theorem body_cons {ds point fs t more : List Char} {c : Char} (hds : ∀ c ∈ ds, c.isDigit = true)
    (hpoint : point = [] ∧ fs = [] ∨ point = ['.']) (hfs : ∀ c ∈ fs, c.isDigit = true)
    (h : ds ++ (point ++ fs) = t ++ c :: more) : c.isDigit = true ∨ c = '.' ∧ '.' ∉ t := by
  have hnot : '.' ∉ ds := fun hmem => absurd (hds _ hmem) (by decide)
  rcases List.append_eq_append_iff.1 h with ⟨as, rfl, htail⟩ | ⟨bs, rfl, htail⟩
  · rcases hpoint with ⟨rfl, rfl⟩ | rfl
    · exact absurd htail.symm (List.append_ne_nil_of_right_ne_nil _ (List.cons_ne_nil _ _))
    · cases as with
      | nil =>
          obtain ⟨rfl, -⟩ := List.cons.inj htail
          rw [List.append_nil]
          exact .inr ⟨rfl, hnot⟩
      | cons a as =>
          obtain ⟨-, rfl⟩ := List.cons.inj htail
          exact .inl (hfs c (List.mem_append_right _ List.mem_cons_self))
  · cases bs with
    | nil =>
        rw [List.append_nil] at hnot hds
        rcases hpoint with ⟨rfl, rfl⟩ | rfl
        · cases htail
        · obtain ⟨rfl, -⟩ := List.cons.inj htail
          exact .inr ⟨rfl, hnot⟩
    | cons b bs =>
        obtain ⟨rfl, -⟩ := List.cons.inj htail
        exact .inl (hds c (List.mem_append_right _ List.mem_cons_self))

theorem IsDecimal.of_cons {text more : List Char} {c : Char} (h : IsDecimal (text ++ c :: more)) (htext : text ≠ []) :
    c.isDigit = true ∨ c = '.' ∧ '.' ∉ text := by
  obtain ⟨sign, ds, point, fs, heq, hsign, hds, hpoint, hfs⟩ := h
  rw [List.append_assoc, List.append_assoc] at heq
  have hsigned : ∀ d, d ≠ '.' → text ++ c :: more = [d] ++ (ds ++ (point ++ fs)) → c.isDigit = true ∨ c = '.' ∧ '.' ∉ text := by
    intro d hd heq
    obtain ⟨a, t, rfl⟩ := List.exists_cons_of_ne_nil htext
    obtain ⟨rfl, htail⟩ := List.cons.inj heq
    exact (body_cons hds hpoint hfs htail.symm).imp_right fun hdot =>
      ⟨hdot.1, fun hmem => (List.mem_cons.1 hmem).elim (fun h => hd h.symm) hdot.2⟩
  rcases hsign with rfl | rfl | rfl
  · exact body_cons hds hpoint hfs heq.symm
  · exact hsigned '-' (by decide) heq
  · exact hsigned '+' (by decide) heq

theorem IsDecimal.head {more : List Char} {c : Char} (h : IsDecimal (c :: more)) :
    (c = '-' ∨ c = '+') ∨ c.isDigit = true ∨ c = '.' := by
  obtain ⟨sign, ds, point, fs, heq, hsign, hds, hpoint, hfs⟩ := h
  rw [List.append_assoc, List.append_assoc] at heq
  rcases hsign with rfl | rfl | rfl
  · exact .inr ((body_cons (t := []) hds hpoint hfs heq.symm).imp_right And.left)
  · exact .inl (.inl (List.cons.inj heq).1)
  · exact .inl (.inr (List.cons.inj heq).1)

/-- A number that ends where no longer one can: every number there is a part of it. -/
theorem IsDecimal.prefix_of {t rest u : List Char} (hu : IsDecimal u) (hpre : u <+: t ++ rest)
    (hrest : ∀ c ∈ rest.head?, c.isDigit = false ∧ (c = '.' → '.' ∈ t) ∧ (t = [] → c ≠ '-' ∧ c ≠ '+')) : u <+: t := by
  rcases List.prefix_or_prefix_of_prefix hpre (List.prefix_append t rest) with h | ⟨w, rfl⟩
  · exact h
  · cases w with
    | nil => exact (List.append_nil t).symm ▸ List.prefix_rfl
    | cons c more =>
        exfalso
        have hcons : c :: more <+: rest := (List.prefix_append_right_inj t).1 hpre
        obtain ⟨w, rfl⟩ := hcons
        obtain ⟨hdigit, hpoint, hsign⟩ := hrest c rfl
        by_cases ht : t = []
        · subst ht
          rcases hu.head with hc | hc | hc
          · exact hc.elim (hsign rfl).1 (hsign rfl).2
          · rw [hc] at hdigit
            cases hdigit
          · exact absurd (hpoint hc) List.not_mem_nil
        · rcases hu.of_cons ht with hc | ⟨hc, hnot⟩
          · rw [hc] at hdigit
            cases hdigit
          · exact hnot (hpoint hc)

theorem splitSign_of_ne {s : List Char} (h : ∀ c ∈ s.head?, c ≠ '-' ∧ c ≠ '+') : splitSign s = ([], s) := by
  rw [splitSign.eq_def]
  split
  · exact absurd rfl (h '-' rfl).1
  · exact absurd rfl (h '+' rfl).2
  · rfl

theorem splitSign_spec (s : List Char) : s = (splitSign s).1 ++ (splitSign s).2 ∧
    ((splitSign s).1 = [] ∨ (splitSign s).1 = ['-'] ∨ (splitSign s).1 = ['+']) ∧
    ((splitSign s).1 = [] → ∀ c ∈ (splitSign s).2.head?, c ≠ '-' ∧ c ≠ '+') := by
  rw [splitSign.eq_def]
  split
  · exact ⟨rfl, .inr (.inl rfl), fun h => absurd h (List.cons_ne_nil _ _)⟩
  · exact ⟨rfl, .inr (.inr rfl), fun h => absurd h (List.cons_ne_nil _ _)⟩
  · rename_i hminus hplus
    refine ⟨rfl, .inl rfl, fun _ c hc => ?_⟩
    cases s with
    | nil => cases hc
    | cons d s =>
        obtain rfl := Option.some.inj hc
        exact ⟨fun h => hminus s (by rw [h]), fun h => hplus s (by rw [h])⟩

theorem DecimalText.eq {text sgn ds point fs : List Char} (h : DecimalText text sgn ds point fs) :
    sgn = (splitSign text).1 ∧ ds = whole (splitSign text).2 ∧ fs = fraction (splitSign text).2 := by
  obtain ⟨rfl, hsign, hds, hpoint, hfs⟩ := h
  have hbody : splitSign (sgn ++ ds ++ point ++ fs) = (sgn, ds ++ (point ++ fs)) := by
    rw [List.append_assoc, List.append_assoc]
    rcases hsign with rfl | rfl | rfl
    · refine splitSign_of_ne fun c hc => ?_
      obtain ⟨more, hcons⟩ := List.head?_eq_some_iff.1 hc
      rcases body_cons (t := []) hds hpoint hfs hcons with hdigit | ⟨rfl, -⟩
      · constructor
        · rintro rfl
          cases hdigit
        · rintro rfl
          cases hdigit
      · decide
    · rfl
    · rfl
  have hhead : ∀ c ∈ (point ++ fs).head?, c.isDigit = false := by
    rcases hpoint with ⟨rfl, rfl⟩ | rfl
    · exact fun c hc => by cases hc
    · exact fun c hc => by cases hc; rfl
  rw [hbody]
  refine ⟨rfl, (whole_append hds hhead).symm, ?_⟩
  rw [fraction, List.dropWhile_append_of_pos hds]
  rcases hpoint with ⟨rfl, rfl⟩ | rfl
  · rfl
  · have hdot : (['.'] ++ fs).dropWhile Char.isDigit = '.' :: fs := rfl
    rw [hdot, afterPoint, List.takeWhile_eq_self_iff.2 hfs]

/-! ## The value -/

theorem scaleUp_eq (n : ℕ) : ∀ v, scaleUp n v = v * 10 ^ n := by
  induction n with
  | zero => exact fun v => (mul_one v).symm
  | succ n ih =>
      intro v
      rw [scaleUp, ih, pow_succ]
      ring

theorem scaleDown_eq (n : ℕ) (v : ℚ) : scaleDown n v = v / 10 ^ n := by
  induction n, v using scaleDown.induct with
  | case1 v => rw [scaleDown, pow_zero, div_one]
  | case2 v => rw [scaleDown, pow_one, mul_one_div]
  | case3 n v ih =>
      rw [scaleDown, ih, pow_succ, pow_succ]
      field_simp
      norm_num

theorem applyDecimal_eq (v : ℚ) (k n : ℕ) : applyDecimal v ((k : ℤ) - n) = v * 10 ^ k / 10 ^ n := by
  rw [applyDecimal]
  by_cases hv : v = 0
  · rw [if_neg (not_not.2 hv), hv, zero_mul, zero_div]
  · rw [if_pos hv]
    split
    · obtain ⟨m, rfl⟩ : ∃ m, n = k + m := ⟨n - k, by omega⟩
      have habs : ((k : ℤ) - (k + m : ℕ)).natAbs = m := by omega
      rw [habs, scaleDown_eq, pow_add]
      field_simp
    · obtain ⟨m, rfl⟩ : ∃ m, k = n + m := ⟨k - n, by omega⟩
      have habs : (((n + m : ℕ) : ℤ) - n).natAbs = m := by omega
      rw [habs, scaleUp_eq, pow_add]
      field_simp

theorem Scanned.applyDecimal {f : FloatScan} {ds fs : List Char} (h : Scanned f ds fs) :
    applyDecimal f.intval f.exp = truncated ds fs := by
  rw [h.exp, applyDecimal_eq, truncated, numeral_zeros, h.intval]
  push_cast
  rfl

/-- Numbers of a line are read as what they denote, truncated. -/
theorem reads_faithfully (line : { s : List Char // s.length < 2 ^ 31 }) (pos : ℕ) (value : ℚ) : ReadsAs line.1 pos value := by
  obtain ⟨line, hline⟩ := line
  obtain ⟨hsplit, hsign, hunsigned⟩ := splitSign_spec (line.drop pos)
  have hlen : (splitSign (line.drop pos)).2.length < 2 ^ 31 := by
    have hle := congrArg List.length hsplit
    rw [List.length_append, List.length_drop] at hle
    omega
  obtain ⟨f, point, rest, hscan, hparts, hpoint, hf, hrest⟩ := scanFloat_eq hlen
  set sgn := (splitSign (line.drop pos)).1
  set s := (splitSign (line.drop pos)).2
  set t := sgn ++ whole s ++ point ++ fraction s with ht
  have hdecimal : DecimalText t sgn (whole s) point (fraction s) :=
    ⟨rfl, hsign, isDigit_of_mem_takeWhile, hpoint, isDigit_of_mem_takeWhile⟩
  have hdrop : line.drop pos = t ++ rest := by
    rw [hsplit, ht, List.append_assoc sgn, List.append_assoc sgn, List.append_assoc sgn]
    exact congrArg (sgn ++ ·) hparts
  have hprefix : t <+: line.drop pos := hdrop ▸ List.prefix_append t rest
  have hlongest : ∀ u, u <+: line.drop pos → IsDecimal u → u <+: t := by
    intro u hpre hu
    rw [hdrop] at hpre
    refine hu.prefix_of hpre fun c hc => ⟨(hrest c hc).1, fun hdot => ?_, fun hnil => ?_⟩
    · rw [ht, (hrest c hc).2 hdot]
      exact List.mem_append_left _ (List.mem_append_right _ List.mem_cons_self)
    · rw [ht, List.append_eq_nil_iff, List.append_eq_nil_iff, List.append_eq_nil_iff] at hnil
      obtain ⟨⟨⟨hsgn, hwhole⟩, hpt⟩, hfrac⟩ := hnil
      rw [hwhole, hpt, hfrac] at hparts
      refine hunsigned hsgn c ?_
      rw [hparts]
      exact hc
  have hread : readFloat line pos value = if f.ok then
      ⟨true, line.length - rest.length, if sgn = ['-'] then -applyDecimal f.intval f.exp else applyDecimal f.intval f.exp⟩
      else ⟨false, pos, value⟩ := by
    have hunfold : readFloat line pos value = if (scanFloat {} s).1.ok then
        ⟨true, line.length - (scanFloat {} s).2.length, if sgn = ['-'] then
          -applyDecimal (scanFloat {} s).1.intval (scanFloat {} s).1.exp
          else applyDecimal (scanFloat {} s).1.intval (scanFloat {} s).1.exp⟩
        else ⟨false, pos, value⟩ := rfl
    rw [hunfold, hscan]
  have hdigit : f.ok = true ↔ ∃ c ∈ t, c.isDigit = true := by
    rw [hf.ok, Bool.not_eq_true', List.isEmpty_eq_false_iff]
    constructor
    · intro hne
      obtain ⟨c, l, hcons⟩ := List.exists_cons_of_ne_nil hne
      have hc : c ∈ whole s ++ fraction s := hcons ▸ List.mem_cons_self
      refine ⟨c, ?_, hf.digits c hc⟩
      rcases List.mem_append.1 hc with hc | hc
      · exact List.mem_append_left _ (List.mem_append_left _ (List.mem_append_right _ hc))
      · exact List.mem_append_right _ hc
    · rintro ⟨c, hc, hcd⟩ hnil
      obtain ⟨hwhole, hfrac⟩ := List.append_eq_nil_iff.1 hnil
      rw [ht, hwhole, hfrac, List.append_nil, List.append_nil] at hc
      rcases List.mem_append.1 hc with hc | hc
      · rcases hsign with h0 | h0 | h0
        all_goals
          rw [h0] at hc
          simp at hc
        · rw [hc] at hcd
          cases hcd
        · rw [hc] at hcd
          cases hcd
      · rcases hpoint with ⟨h0, -⟩ | h0
        · rw [h0] at hc
          cases hc
        · rw [h0, List.mem_singleton] at hc
          rw [hc] at hcd
          cases hcd
  have hok : (readFloat line pos value).ok = f.ok := by
    rw [hread]
    cases f.ok with
    | true => rw [if_pos rfl]
    | false => rw [if_neg Bool.false_ne_true]
  have hconsumed : f.ok = true → line.length - rest.length = pos + t.length := by
    intro hf
    obtain ⟨c, hc, -⟩ := hdigit.1 hf
    have hpos := List.length_pos_of_mem hc
    have heq := congrArg List.length hdrop
    rw [List.length_drop, List.length_append] at heq
    omega
  refine ⟨?_, fun hreads => ?_, fun hreads sign' ds' point' fs' htext => ?_, fun p c hpc hc hall hcount => ?_, fun hfails => ?_⟩
  · rw [hok, hdigit]
    constructor
    · exact fun hc => ⟨t, hprefix, ⟨_, _, _, _, hdecimal⟩, hc⟩
    · rintro ⟨u, hpre, hu, c, hc, hcd⟩
      exact ⟨c, (hlongest u hpre hu).subset hc, hcd⟩
  · rw [hok] at hreads
    refine ⟨t, ⟨_, _, _, _, hdecimal⟩, hprefix, ?_, hlongest⟩
    rw [hread, if_pos hreads]
    exact hconsumed hreads
  · rw [hok] at hreads
    rw [hread, if_pos hreads, hconsumed hreads, Nat.add_sub_cancel_left, hdrop, List.take_left] at htext
    obtain ⟨hsgn, hds, hfs⟩ := htext.eq
    obtain ⟨hsgn', hds', hfs'⟩ := hdecimal.eq
    rw [hread, if_pos hreads, hf.applyDecimal, hsgn, hds, hfs, ← hsgn', ← hds', ← hfs']
  · have hplen : p.length < 2 ^ 31 := by
      have hle : (p ++ [c]).length ≤ s.length := hpc.length_le
      rw [List.length_append] at hle
      omega
    obtain ⟨g, pt, rest', hg, hpparts, -, hscanned, -⟩ := scanFloat_eq hplen
    have hdigits : (whole p ++ fraction p).length < 2 ^ 31 := by
      have heq := congrArg List.length hpparts
      rw [List.length_append, List.length_append, List.length_append] at heq
      rw [List.length_append]
      omega
    rw [hg] at hcount ⊢
    exact (hscanned.accumulate hc hdigits hcount).2
  · rw [hok] at hfails
    rw [hread, hfails]
    exact ⟨rfl, rfl⟩

end Grbl.Numbers
