import Mathlib

/-!
# Unsigned integers of a line

A line is the list of its characters and a position in it an index. `uint_fast8_t` has 32 bits.

* `UintScan`, `scanUint`, `readUint` : `read_uint`;
* `whole`, `fraction`, `numeral` : the digits of a number and what they denote;
* `Whole.digit` : the variables of the loop after each digit before the point;
* `ExactOrRefused`, `exact_or_refused_iff` : which numbers are read as what they denote.
-/

namespace Grbl.Numbers

/-- `status_code_t`, what `read_uint` returns of it. -/
inductive Status
  | ok | badNumberFormat | negativeValue | gcodeCommandValueNotInteger
  deriving DecidableEq, Repr

/-- The variables of the loop over the characters. -/
structure UintScan where
  ndigit : ℕ := 0
  intval : ℕ := 0
  isdecimal : Bool := false
  ok : Bool := false

/-- `c - '0'` -/
def digitOf (c : Char) : ℕ := c.toNat - '0'.toNat

/-- `if(!isdecimal && (c != 0 || intval)) ndigit++` -/
def UintScan.count (f : UintScan) (c : ℕ) : ℕ :=
  if f.isdecimal = false ∧ (c ≠ 0 ∨ f.intval ≠ 0) then (f.ndigit + 1) % 2 ^ 32 else f.ndigit

/-- A digit `c` that does not make `read_uint` return. -/
def UintScan.digit (f : UintScan) (c : ℕ) : UintScan :=
  if (f.count c ≤ 9 ∨ c ≤ 4) ∧ f.intval ≤ 429496729 then
    { f with ok := true, ndigit := f.count c, intval := (f.intval * 10 + c) % 2 ^ 32 }
  else { f with ok := true, ndigit := f.count c }

/-- The loop, with what is left of the line; `none` is `Status_GcodeCommandValueNotInteger`. -/
def scanUint : UintScan → List Char → Option (UintScan × List Char)
  | f, [] => some (f, [])
  | f, c :: s =>
      if c.isDigit then
        if f.isdecimal = true ∧ digitOf c ≠ 0 then none else scanUint (f.digit (digitOf c)) s
      else if c = '.' ∧ f.isdecimal = false then scanUint { f with isdecimal := true } s
      else some (f, c :: s)

/-- `if (c == '+') c = *ptr++` -/
def skipPlus : List Char → List Char
  | '+' :: s => s
  | s => s

/-- What `read_uint` returns, and what is in `*char_counter` and `*uint_ptr` then. -/
structure Readout where
  status : Status
  charCounter : ℕ
  value : ℕ
  deriving DecidableEq, Repr

def readUint (line : List Char) (charCounter value : ℕ) : Readout :=
  if (line.drop charCounter).head? = some '-' then ⟨.negativeValue, charCounter, value⟩
  else match scanUint {} (skipPlus (line.drop charCounter)) with
    | none => ⟨.gcodeCommandValueNotInteger, charCounter, value⟩
    | some (f, rest) =>
        if f.ok then ⟨.ok, line.length - rest.length, f.intval⟩ else ⟨.badNumberFormat, charCounter, value⟩

/-! ## What a number denotes -/

/-- The digits before the point. -/
def whole (s : List Char) : List Char := s.takeWhile Char.isDigit

/-- The digits behind the point, and what follows them. -/
def afterPoint : List Char → List Char
  | '.' :: s => s
  | _ => []

def fraction (s : List Char) : List Char := (afterPoint (s.dropWhile Char.isDigit)).takeWhile Char.isDigit

/-- The number that is written with these digits. -/
def numeral (ds : List Char) : ℕ := ds.foldl (fun n c => n * 10 + digitOf c) 0

/-- `[+]digits[.zeros]`, and the integer it denotes. -/
def Denotes (text : List Char) (n : ℕ) : Prop :=
  ∃ sign ds point zeros : List Char, text = sign ++ ds ++ point ++ zeros ∧ (sign = [] ∨ sign = ['+']) ∧
    (∀ c ∈ ds, c.isDigit = true) ∧ (point = [] ∧ zeros = [] ∨ point = ['.']) ∧ (∀ c ∈ zeros, c = '0') ∧
    ds ++ zeros ≠ [] ∧ n = numeral ds

/-- What the number at a position is read as: exactly what it denotes, or it is refused, and then nothing changes. -/
structure ExactOrRefused (line : List Char) (pos value : ℕ) : Prop where
  exact_of_ok : (readUint line pos value).status = .ok →
    Denotes ((line.drop pos).take ((readUint line pos value).charCounter - pos)) (readUint line pos value).value ∧
      (readUint line pos value).value ≤ 2 ^ 32 - 1
  refused : 2 ^ 32 ≤ numeral (whole (skipPlus (line.drop pos))) ∨
      (∃ c ∈ fraction (skipPlus (line.drop pos)), c ≠ '0') → (readUint line pos value).status ≠ .ok
  unchanged : (readUint line pos value).status ≠ .ok →
    (readUint line pos value).charCounter = pos ∧ (readUint line pos value).value = value

/-- The numbers that are refused for their fraction, that are zero, and those that are small enough, where a fraction of
zeros wants a number that is large enough. -/
def WithinReach (s : List Char) : Prop :=
  (∃ c ∈ fraction s, c ≠ '0') ∨ numeral (whole s) = 0 ∨
    (fraction s = [] ∨ 429496729 < numeral (whole s)) ∧
      (numeral (whole s) < 10 ^ 9 ∨ numeral (whole s) < 2 ^ 32 ∧ numeral (whole s) % 10 ≤ 4)

/-! ## Before the point -/

theorem digitOf_le {c : Char} (hc : c.isDigit = true) : digitOf c ≤ 9 := by
  rw [Char.isDigit, Bool.and_eq_true, decide_eq_true_eq, decide_eq_true_eq] at hc
  have hle : c.toNat ≤ '9'.toNat := hc.2
  exact Nat.sub_le_sub_right hle _

theorem isDigit_eq_zero {c : Char} (hc : c.isDigit = true) (h0 : digitOf c = 0) : c = '0' := by
  rw [Char.isDigit, Bool.and_eq_true, decide_eq_true_eq, decide_eq_true_eq] at hc
  have hge : '0'.toNat ≤ c.toNat := hc.1
  exact Char.toNat_inj.1 (le_antisymm (Nat.sub_eq_zero_iff_le.1 h0) hge)

/-- The variables after digits that denote `n`. -/
structure Whole (f : UintScan) (n : ℕ) : Prop where
  isdecimal : f.isdecimal = false
  lt : f.intval < 2 ^ 32
  small : n < 10 ^ 9 →
    f.intval = n ∧ f.ndigit ≤ 9 ∧ n < 10 ^ f.ndigit ∧ (10 ^ f.ndigit ≤ 10 * n ∨ f.ndigit = 0)
  large : 10 ^ 9 ≤ n → n < 2 ^ 32 → f.intval = if n % 10 ≤ 4 then n else n / 10

theorem Whole.zero : Whole {} 0 := by
  refine ⟨rfl, by decide, fun _ => ⟨rfl, by decide, by decide, .inr rfl⟩, fun h => absurd h (by decide)⟩

section
variable {f : UintScan} {n c : ℕ}

@[simp] theorem digit_isdecimal : (f.digit c).isdecimal = f.isdecimal := by
  rw [UintScan.digit]
  split <;> rfl

@[simp] theorem digit_ok : (f.digit c).ok = true := by
  rw [UintScan.digit]
  split <;> rfl

theorem digit_intval_lt (h : f.intval < 2 ^ 32) : (f.digit c).intval < 2 ^ 32 := by
  rw [UintScan.digit]
  split
  · exact Nat.mod_lt _ (by decide)
  · exact h

theorem Whole.digit_small (h : Whole f n) (hc : c ≤ 9) (hn : n * 10 + c < 10 ^ 9) :
    (f.digit c).intval = n * 10 + c ∧ (f.digit c).ndigit ≤ 9 ∧ n * 10 + c < 10 ^ (f.digit c).ndigit ∧
      (10 ^ (f.digit c).ndigit ≤ 10 * (n * 10 + c) ∨ (f.digit c).ndigit = 0) := by
  obtain ⟨hval, hle, hlt, hge⟩ := h.small (by omega)
  have hpow : f.ndigit < 9 := by
    by_contra hnot
    have h9 : 10 ^ 9 ≤ 10 ^ f.ndigit := Nat.pow_le_pow_right (by decide) (by omega)
    omega
  have hmod : (n * 10 + c) % 2 ^ 32 = n * 10 + c := Nat.mod_eq_of_lt (by omega)
  by_cases hzero : c ≠ 0 ∨ n ≠ 0
  · have hcount : f.count c = f.ndigit + 1 := by
      rw [UintScan.count, hval, if_pos ⟨h.isdecimal, hzero⟩]
      exact Nat.mod_eq_of_lt (by omega)
    have hpos : 10 ^ f.ndigit ≤ n * 10 + c := by
      rcases hge with hge | h0
      · omega
      · rw [h0]
        omega
    rw [UintScan.digit, hcount, hval, if_pos ⟨.inl hpow, by omega⟩, hmod]
    refine ⟨rfl, hpow, ?_, .inl ?_⟩
    · show n * 10 + c < 10 ^ (f.ndigit + 1)
      rw [Nat.pow_succ]
      omega
    · show 10 ^ (f.ndigit + 1) ≤ 10 * (n * 10 + c)
      rw [Nat.pow_succ]
      omega
  · rw [not_or, not_not, not_not] at hzero
    obtain ⟨rfl, rfl⟩ := hzero
    have h0 : f.ndigit = 0 := hge.resolve_left (by have := Nat.pow_pos (n := f.ndigit) (show 0 < 10 by decide); omega)
    have hcount : f.count 0 = 0 := by rw [UintScan.count, hval, if_neg (fun hd => hd.2.elim (· rfl) (· rfl)), h0]
    rw [UintScan.digit, hcount, hval, if_pos ⟨.inr (by decide), by decide⟩]
    exact ⟨rfl, Nat.zero_le 9, Nat.one_pos, .inr rfl⟩

theorem Whole.digit_large (h : Whole f n) (hge : 10 ^ 9 ≤ n * 10 + c) (hlt : n * 10 + c < 2 ^ 32) (hc : c ≤ 9) :
    (f.digit c).intval = if c ≤ 4 then n * 10 + c else n := by
  obtain ⟨hval, hle, hpow, -⟩ := h.small (by omega)
  have h9 : f.ndigit = 9 := by
    by_contra hnot
    have h8 : 10 ^ f.ndigit ≤ 10 ^ 8 := Nat.pow_le_pow_right (by decide) (by omega)
    omega
  have hmod : (n * 10 + c) % 2 ^ 32 = n * 10 + c := Nat.mod_eq_of_lt hlt
  have hcount : f.count c = (9 + 1) % 2 ^ 32 := by rw [UintScan.count, hval, if_pos ⟨h.isdecimal, .inr (by omega)⟩, h9]
  replace hcount : f.count c = 10 := hcount.trans (by decide)
  rw [UintScan.digit, hcount, hval]
  by_cases hc4 : c ≤ 4
  · rw [if_pos ⟨.inr hc4, by omega⟩, if_pos hc4, hmod]
  · rw [if_neg (by omega), if_neg hc4]

theorem Whole.digit (h : Whole f n) (hc : c ≤ 9) : Whole (f.digit c) (n * 10 + c) where
  isdecimal := by rw [digit_isdecimal, h.isdecimal]
  lt := digit_intval_lt h.lt
  small hn := h.digit_small hc hn
  large hge hlt := by
    have hmod : (n * 10 + c) % 10 = c := by omega
    have hdiv : (n * 10 + c) / 10 = n := by omega
    rw [h.digit_large hge hlt hc, hmod, hdiv]

end

theorem scanUint_stop {f : UintScan} {s : List Char} (h : ∀ c ∈ s.head?, c.isDigit = false ∧ (c = '.' → f.isdecimal = true)) :
    scanUint f s = some (f, s) := by
  cases s with
  | nil => rfl
  | cons c s =>
      obtain ⟨hd, hp⟩ := h c rfl
      rw [scanUint, hd, if_neg Bool.false_ne_true, if_neg]
      rintro ⟨rfl, hfalse⟩
      rw [hp rfl] at hfalse
      cases hfalse

theorem scanUint_whole (rest ds : List Char) : ∀ {f : UintScan} {n : ℕ}, (∀ c ∈ ds, c.isDigit = true) → Whole f n →
    ∃ f', scanUint f (ds ++ rest) = scanUint f' rest ∧ Whole f' (ds.foldl (fun n c => n * 10 + digitOf c) n) ∧
      f'.ok = (f.ok || !ds.isEmpty) := by
  induction ds with
  | nil => exact fun {f} {n} _ h => ⟨f, rfl, h, (Bool.or_false _).symm⟩
  | cons c ds ih =>
      intro f n hds h
      have hc := hds c List.mem_cons_self
      obtain ⟨f', hscan, hwhole, hok⟩ := ih (fun d hd => hds d (List.mem_cons_of_mem c hd)) (h.digit (digitOf_le hc))
      refine ⟨f', ?_, hwhole, ?_⟩
      · rw [List.cons_append, scanUint, if_pos hc, if_neg (fun hd => by rw [h.isdecimal] at hd; cases hd.1), hscan]
      · rw [hok, digit_ok, Bool.true_or, List.isEmpty_cons, Bool.not_false, Bool.or_true]

/-! ## Behind the point -/

/-- What zeros behind the point make of the number. -/
def raise : ℕ → ℕ → ℕ
  | v, 0 => v
  | v, k + 1 => raise (if v ≤ 429496729 then v * 10 else v) k

theorem raise_zero (k : ℕ) : raise 0 k = 0 := by
  induction k with
  | zero => rfl
  | succ k ih => exact ih

theorem raise_of_lt {v : ℕ} (hv : 429496729 < v) (k : ℕ) : raise v k = v := by
  induction k with
  | zero => rfl
  | succ k ih => rw [raise, if_neg (by omega), ih]

theorem le_raise (k : ℕ) : ∀ v, v ≤ raise v k := by
  induction k with
  | zero => exact fun v => le_rfl
  | succ k ih =>
      intro v
      refine le_trans ?_ (ih _)
      split <;> omega

theorem raise_lt (k : ℕ) : ∀ {v}, v < 2 ^ 32 → raise v k < 2 ^ 32 := by
  induction k with
  | zero => exact fun hv => hv
  | succ k ih =>
      intro v hv
      refine ih ?_
      split <;> omega

theorem scanUint_zeros (rest zs : List Char) : ∀ {f : UintScan}, (∀ c ∈ zs, c = '0') → f.isdecimal = true →
    ∃ f', scanUint f (zs ++ rest) = scanUint f' rest ∧ f'.isdecimal = true ∧ f'.intval = raise f.intval zs.length ∧
      f'.ok = (f.ok || !zs.isEmpty) := by
  induction zs with
  | nil => exact fun {f} _ h => ⟨f, rfl, h, rfl, (Bool.or_false _).symm⟩
  | cons c zs ih =>
      intro f hzs h
      obtain rfl := hzs c List.mem_cons_self
      obtain ⟨f', hscan, hdec, hval, hok⟩ :=
        ih (f := f.digit 0) (fun d hd => hzs d (List.mem_cons_of_mem _ hd)) (by rw [digit_isdecimal, h])
      refine ⟨f', ?_, hdec, ?_, ?_⟩
      · rw [List.cons_append, scanUint, if_pos (by decide), if_neg (fun hd => hd.2 (by decide))]
        exact hscan
      · rw [hval, List.length_cons, raise]
        refine congrArg (raise · zs.length) ?_
        rw [UintScan.digit]
        by_cases hle : f.intval ≤ 429496729
        · rw [if_pos ⟨.inr (by decide), hle⟩, if_pos hle]
          exact Nat.mod_eq_of_lt (by omega)
        · rw [if_neg (fun hd => hle hd.2), if_neg hle]
      · rw [hok, digit_ok, Bool.true_or, List.isEmpty_cons, Bool.not_false, Bool.or_true]

theorem scanUint_fraction (rest zs : List Char) : ∀ {f : UintScan}, (∀ c ∈ zs, c.isDigit = true) → (∃ c ∈ zs, c ≠ '0') →
    f.isdecimal = true → scanUint f (zs ++ rest) = none := by
  induction zs with
  | nil => exact fun _ h => absurd h (by simp)
  | cons c zs ih =>
      intro f hzs hex h
      have hc := hzs c List.mem_cons_self
      rw [List.cons_append, scanUint, if_pos hc]
      by_cases h0 : digitOf c = 0
      · rw [if_neg (fun hd => hd.2 h0)]
        refine ih (fun d hd => hzs d (List.mem_cons_of_mem _ hd)) ?_ (by rw [digit_isdecimal, h])
        obtain ⟨d, hd, hne⟩ := hex
        rcases List.mem_cons.1 hd with rfl | hd
        · exact absurd (isDigit_eq_zero hc h0) hne
        · exact ⟨d, hd, hne⟩
      · rw [if_pos ⟨h, h0⟩]

/-! ## The number as a whole -/

theorem isDigit_of_mem_takeWhile {s : List Char} : ∀ c ∈ s.takeWhile Char.isDigit, c.isDigit = true :=
  fun _ hc => List.mem_takeWhile_imp hc

theorem afterPoint_nil : afterPoint [] = [] := rfl

theorem afterPoint_of_ne {c : Char} {s : List Char} (hc : c ≠ '.') : afterPoint (c :: s) = [] := by
  rw [afterPoint.eq_def]
  split
  · cases ‹c :: s = _›
    exact absurd rfl hc
  · rfl

theorem head_dropWhile {s : List Char} {c : Char} (h : c ∈ (s.dropWhile Char.isDigit).head?) : c.isDigit = false := by
  induction s with
  | nil => cases h
  | cons d s ih =>
      cases hd : d.isDigit with
      | true =>
          rw [List.dropWhile_cons_of_pos hd] at h
          exact ih h
      | false =>
          rw [List.dropWhile_cons_of_neg (by rw [hd]; exact Bool.false_ne_true)] at h
          cases h
          exact hd

/-- A digit that is not zero behind the point makes `read_uint` return. -/
theorem scanUint_eq_none {s : List Char} (h : ∃ c ∈ fraction s, c ≠ '0') : scanUint {} s = none := by
  obtain ⟨f, hscan, hwhole, -⟩ := scanUint_whole (s.dropWhile Char.isDigit) (whole s) isDigit_of_mem_takeWhile Whole.zero
  rw [whole, List.takeWhile_append_dropWhile] at hscan
  rw [hscan]
  rw [fraction] at h
  cases htail : s.dropWhile Char.isDigit with
  | nil =>
      rw [htail] at h
      obtain ⟨_, hmem, -⟩ := h
      cases hmem
  | cons p t =>
      by_cases hp : p = '.'
      · subst hp
        rw [htail] at h
        have hpoint : ('.').isDigit ≠ true := by decide
        rw [scanUint, if_neg hpoint, if_pos ⟨rfl, hwhole.isdecimal⟩, ← List.takeWhile_append_dropWhile (p := Char.isDigit) (l := t)]
        exact scanUint_fraction _ _ isDigit_of_mem_takeWhile h rfl
      · rw [htail, afterPoint_of_ne hp] at h
        obtain ⟨_, hmem, -⟩ := h
        cases hmem

/-- What the loop reads otherwise: the digits, then the point and the zeros behind it, if there are any. -/
theorem scanUint_eq_some {s : List Char} (h : ∀ c ∈ fraction s, c = '0') :
    ∃ f v point rest, scanUint {} s = some (f, rest) ∧ s = whole s ++ point ++ fraction s ++ rest ∧
      (point = [] ∧ fraction s = [] ∨ point = ['.']) ∧ Whole v (numeral (whole s)) ∧
      f.intval = raise v.intval (fraction s).length ∧ f.ok = (!(whole s).isEmpty || !(fraction s).isEmpty) := by
  obtain ⟨v, hscan, hwhole, hok⟩ := scanUint_whole (s.dropWhile Char.isDigit) (whole s) isDigit_of_mem_takeWhile Whole.zero
  have hs : whole s ++ s.dropWhile Char.isDigit = s := List.takeWhile_append_dropWhile
  rw [hs] at hscan
  have hhead : ∀ c ∈ (s.dropWhile Char.isDigit).head?, c.isDigit = false := fun c => head_dropWhile
  rw [hscan]
  rw [fraction] at h ⊢
  cases htail : s.dropWhile Char.isDigit with
  | nil =>
      rw [htail] at hs
      rw [afterPoint_nil, List.takeWhile_nil]
      refine ⟨v, v, [], [], rfl, ?_, .inl ⟨rfl, rfl⟩, hwhole, rfl, ?_⟩
      · simpa using hs.symm
      · rw [hok, Bool.false_or, List.isEmpty_nil, Bool.not_true, Bool.or_false]
  | cons p t =>
      rw [htail] at h hhead hs
      by_cases hp : p = '.'
      · subst hp
        have hpoint : ('.').isDigit ≠ true := by decide
        rw [scanUint, if_neg hpoint, if_pos ⟨rfl, hwhole.isdecimal⟩]
        obtain ⟨f, hzeros, hdec, hval, hokf⟩ :=
          scanUint_zeros (f := { v with isdecimal := true }) (t.dropWhile Char.isDigit) (t.takeWhile Char.isDigit) h rfl
        rw [List.takeWhile_append_dropWhile] at hzeros
        refine ⟨f, v, ['.'], t.dropWhile Char.isDigit, ?_, ?_, .inr rfl, hwhole, hval, ?_⟩
        · rw [hzeros]
          exact scanUint_stop fun c hc => ⟨head_dropWhile hc, fun _ => hdec⟩
        · rw [afterPoint, List.append_assoc, List.takeWhile_append_dropWhile, List.append_assoc]
          exact hs.symm
        · rw [hokf, hok, Bool.false_or]
          rfl
      · rw [afterPoint_of_ne hp, List.takeWhile_nil]
        refine ⟨v, v, [], p :: t, ?_, ?_, .inl ⟨rfl, rfl⟩, hwhole, rfl, ?_⟩
        · exact scanUint_stop fun c hc => ⟨hhead c hc, fun hdot => by cases hc; exact absurd hdot hp⟩
        · simpa using hs.symm
        · rw [hok, Bool.false_or, List.isEmpty_nil, Bool.not_true, Bool.or_false]

theorem Whole.raise_eq_iff {v : UintScan} {n : ℕ} (h : Whole v n) (k : ℕ) :
    raise v.intval k = n ↔ n = 0 ∨ (k = 0 ∨ 429496729 < n) ∧ (n < 10 ^ 9 ∨ n < 2 ^ 32 ∧ n % 10 ≤ 4) := by
  have hlt := raise_lt k h.lt
  by_cases hbig : 2 ^ 32 ≤ n
  · constructor <;> intro _ <;> omega
  by_cases hsmall : n < 10 ^ 9
  · rw [(h.small hsmall).1]
    rcases Nat.eq_zero_or_pos n with rfl | hpos
    · exact iff_of_true (raise_zero k) (.inl rfl)
    by_cases hn : 429496729 < n
    · exact iff_of_true (raise_of_lt hn k) (.inr ⟨.inr hn, .inl hsmall⟩)
    cases k with
    | zero => exact iff_of_true rfl (.inr ⟨.inl rfl, .inl hsmall⟩)
    | succ k =>
        have hle := le_raise k (n * 10)
        rw [raise, if_pos (not_lt.1 hn)]
        constructor <;> intro _ <;> omega
  · have hval := h.large (not_lt.1 hsmall) (not_le.1 hbig)
    by_cases hc : n % 10 ≤ 4
    · rw [hval, if_pos hc]
      exact iff_of_true (raise_of_lt (by omega) k) (.inr ⟨.inr (by omega), .inr ⟨not_le.1 hbig, hc⟩⟩)
    · refine iff_of_false (fun heq => ?_) (by omega)
      rw [hval, if_neg hc] at heq
      cases k with
      | zero =>
          rw [raise] at heq
          omega
      | succ k =>
          rw [raise, if_pos (by omega), raise_of_lt (by omega)] at heq
          omega

section
variable {line s text : List Char} {pos value n : ℕ}

theorem exists_sign (s : List Char) : ∃ sign, s = sign ++ skipPlus s ∧ (sign = [] ∨ sign = ['+']) := by
  rw [skipPlus.eq_def]
  split
  · exact ⟨['+'], rfl, .inr rfl⟩
  · exact ⟨[], rfl, .inl rfl⟩

theorem skipPlus_of_ne (h : s.head? ≠ some '+') : skipPlus s = s := by
  rw [skipPlus.eq_def]
  split
  · exact absurd rfl h
  · rfl

theorem whole_append {ds rest : List Char} (hds : ∀ c ∈ ds, c.isDigit = true) (hrest : ∀ c ∈ rest.head?, c.isDigit = false) :
    whole (ds ++ rest) = ds := by
  rw [whole, List.takeWhile_append_of_pos hds]
  cases rest with
  | nil => rw [List.takeWhile_nil, List.append_nil]
  | cons c rest =>
      rw [List.takeWhile_cons_of_neg (by rw [hrest c rfl]; exact Bool.false_ne_true), List.append_nil]

theorem Denotes.eq_numeral (h : Denotes text n) : n = numeral (whole (skipPlus text)) := by
  obtain ⟨sign, ds, point, zeros, rfl, hsign, hds, hpoint, hzeros, -, rfl⟩ := h
  have htail : ∀ c ∈ (point ++ zeros).head?, c = '.' := by
    rcases hpoint with ⟨rfl, rfl⟩ | rfl
    · exact fun c hc => by cases hc
    · exact fun c hc => by cases hc; rfl
  have hskip : skipPlus (sign ++ (ds ++ (point ++ zeros))) = ds ++ (point ++ zeros) := by
    rcases hsign with rfl | rfl
    · refine skipPlus_of_ne fun hplus => ?_
      cases ds with
      | nil => exact absurd (htail '+' hplus) (by decide)
      | cons d ds =>
          have hd := hds d List.mem_cons_self
          rw [Option.some.inj hplus] at hd
          exact absurd hd (by decide)
    · rfl
  rw [List.append_assoc, List.append_assoc, hskip, whole_append hds fun c hc => by rw [htail c hc]; rfl]

theorem ExactOrRefused.of_refused {status : Status} (hread : readUint line pos value = ⟨status, pos, value⟩)
    (hne : status ≠ .ok) : ExactOrRefused line pos value where
  exact_of_ok hok := absurd (by rw [← hok, hread]) hne
  refused _ := by
    rw [hread]
    exact hne
  unchanged _ := by
    rw [hread]
    exact ⟨rfl, rfl⟩

theorem take_consumed {rest : List Char} (hs : line.drop pos = text ++ rest) (htext : text ≠ []) :
    (line.drop pos).take (line.length - rest.length - pos) = text := by
  have hlen := congrArg List.length hs
  have hpos : text.length ≠ 0 := fun h0 => htext (List.length_eq_zero_iff.1 h0)
  rw [List.length_drop, List.length_append] at hlen
  rw [hs]
  exact List.take_left' (by omega)

theorem ExactOrRefused.iff_of_ok {sign point rest : List Char} {v : ℕ}
    (hread : readUint line pos value = ⟨.ok, line.length - rest.length, v⟩) (hlt : v < 2 ^ 32)
    (hsign : line.drop pos = sign ++ s) (hsigns : sign = [] ∨ sign = ['+']) (hskip : skipPlus (line.drop pos) = s)
    (hparts : s = whole s ++ point ++ fraction s ++ rest) (hpoint : point = [] ∧ fraction s = [] ∨ point = ['.'])
    (hzeros : ∀ c ∈ fraction s, c = '0') (hany : whole s ++ fraction s ≠ []) :
    ExactOrRefused line pos value ↔ v = numeral (whole s) := by
  have hne : sign ++ whole s ++ point ++ fraction s ≠ [] := by
    intro hnil
    rw [List.append_eq_nil_iff, List.append_eq_nil_iff, List.append_eq_nil_iff] at hnil
    exact hany (List.append_eq_nil_iff.2 ⟨hnil.1.1.2, hnil.2⟩)
  have htext : (line.drop pos).take (line.length - rest.length - pos) = sign ++ whole s ++ point ++ fraction s := by
    refine take_consumed ?_ hne
    rw [hsign, List.append_assoc sign, List.append_assoc sign, List.append_assoc sign]
    exact congrArg (sign ++ ·) hparts
  have hself : Denotes (sign ++ whole s ++ point ++ fraction s) (numeral (whole s)) :=
    ⟨sign, whole s, point, fraction s, rfl, hsigns, isDigit_of_mem_takeWhile, hpoint, hzeros, hany, rfl⟩
  constructor
  · intro h
    have hdenotes := (h.exact_of_ok (by rw [hread])).1
    rw [hread, htext] at hdenotes
    exact hdenotes.eq_numeral.trans hself.eq_numeral.symm
  · intro h
    refine ⟨fun _ => ?_, ?_, fun hbad => absurd (by rw [hread]) hbad⟩
    · rw [hread, htext]
      refine ⟨?_, Nat.le_sub_one_of_lt hlt⟩
      rw [h]
      exact hself
    · rw [hskip]
      rintro (hbig | ⟨c, hc, hc0⟩)
      · omega
      · exact absurd (hzeros c hc) hc0

end

/-- Which numbers are read as what they denote. -/
theorem exact_or_refused_iff (line : List Char) (pos value : ℕ) :
    ExactOrRefused line pos value ↔ WithinReach (skipPlus (line.drop pos)) := by
  by_cases hneg : (line.drop pos).head? = some '-'
  · have hread : readUint line pos value = ⟨.negativeValue, pos, value⟩ := by rw [readUint, if_pos hneg]
    refine iff_of_true (.of_refused hread (by decide)) (.inr (.inl ?_))
    cases hs : line.drop pos with
    | nil =>
        rw [hs] at hneg
        cases hneg
    | cons c s =>
        rw [hs] at hneg
        cases hneg
        rfl
  by_cases hfrac : ∃ c ∈ fraction (skipPlus (line.drop pos)), c ≠ '0'
  · have hread : readUint line pos value = ⟨.gcodeCommandValueNotInteger, pos, value⟩ := by
      rw [readUint, if_neg hneg, scanUint_eq_none hfrac]
    exact iff_of_true (.of_refused hread (by decide)) (.inl hfrac)
  have hzeros : ∀ c ∈ fraction (skipPlus (line.drop pos)), c = '0' := fun c hc => not_not.1 fun hne => hfrac ⟨c, hc, hne⟩
  obtain ⟨f, v, point, rest, hscan, hparts, hpoint, hwhole, hval, hok⟩ := scanUint_eq_some hzeros
  cases hany : f.ok with
  | false =>
      have hread : readUint line pos value = ⟨.badNumberFormat, pos, value⟩ := by
        rw [readUint, if_neg hneg, hscan]
        exact if_neg (by rw [hany]; exact Bool.false_ne_true)
      refine iff_of_true (.of_refused hread (by decide)) (.inr (.inl ?_))
      rw [hany, eq_comm, Bool.or_eq_false_iff, Bool.not_eq_false', List.isEmpty_iff] at hok
      rw [hok.1]
      rfl
  | true =>
      have hread : readUint line pos value = ⟨.ok, line.length - rest.length, f.intval⟩ := by
        rw [readUint, if_neg hneg, hscan]
        exact if_pos hany
      have hdigits : whole (skipPlus (line.drop pos)) ++ fraction (skipPlus (line.drop pos)) ≠ [] := by
        intro hnil
        rw [List.append_eq_nil_iff] at hnil
        rw [hnil.1, hnil.2, hany] at hok
        cases hok
      obtain ⟨sign, hsign, hsigns⟩ := exists_sign (line.drop pos)
      rw [ExactOrRefused.iff_of_ok hread (by rw [hval]; exact raise_lt _ hwhole.lt) hsign hsigns rfl hparts hpoint hzeros hdigits,
        hval, hwhole.raise_eq_iff, List.length_eq_zero_iff, WithinReach, or_iff_right hfrac]

/-- A zero behind the point is read as a further digit, and a last digit above 4 of ten is dropped. -/
theorem five_point_zero_is_fifty :
    readUint ['5', '.', '0'] 0 0 = ⟨.ok, 3, 50⟩ ∧ ¬ ExactOrRefused ['5', '.', '0'] 0 0 ∧
      readUint ['4', '2', '9', '4', '9', '6', '7', '2', '9', '5'] 0 0 = ⟨.ok, 10, 429496729⟩ ∧
        ¬ ExactOrRefused ['4', '2', '9', '4', '9', '6', '7', '2', '9', '5'] 0 0 := by
  have hfive : readUint ['5', '.', '0'] 0 0 = ⟨.ok, 3, 50⟩ := by decide
  have hmax : readUint ['4', '2', '9', '4', '9', '6', '7', '2', '9', '5'] 0 0 = ⟨.ok, 10, 429496729⟩ := by decide +kernel
  refine ⟨hfive, fun h => ?_, hmax, fun h => ?_⟩
  · have hdenotes := (h.exact_of_ok (by rw [hfive])).1.eq_numeral
    rw [hfive] at hdenotes
    exact absurd hdenotes (by decide)
  · have hdenotes := (h.exact_of_ok (by rw [hmax])).1.eq_numeral
    rw [hmax] at hdenotes
    exact absurd hdenotes (by decide +kernel)

end Grbl.Numbers
