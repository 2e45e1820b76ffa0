import Mathlib
import Grbl.Numbers.ReadFloat

/-!
# Floats as text

`ftoa` with exact arithmetic. The text is written backwards from the end of `buf`.

* `toUint32`, `putDecimals`, `putWhole`, `ftoa` : the function, with what is in memory from `bptr` on and the values that are converted;
* `RoundedTo`, `Prints` : what the text should be; `PrintFits` : when it is;
* `putDecimals_eq`, `putWhole_eq` : the digits; `floor_parts` : the two conversions; `prints_iff`.
-/

namespace Grbl.Numbers

/-- `sizeof(buf)`, `STRLEN_COORDVALUE + 1` -/
def sizeofBuf : ℕ := maxIntDigits + 4 + 1 + 1

def maxPrecision : ℕ := 10

def froundvalues : List ℚ :=
  [0.5, 0.05, 0.005, 0.0005, 0.00005, 0.000005, 0.0000005, 0.00000005, 0.000000005, 0.0000000005, 0.00000000005]

/-- The conversion to `uint32_t`, saturating where the value does not fit. -/
def toUint32 (x : ℚ) : ℕ := min ⌊x⌋₊ (2 ^ 32 - 1)

/-- `(n % 10) + '0'` -/
def digitChar (n : ℕ) : Char := Char.ofNat (n % 10 + 48)

/-- `while (decimals >= 2) { n *= 100.0f; decimals -= 2; }` and `if(decimals) n *= 10.0f` -/
def scaleDecimals : ℕ → ℚ → ℚ
  | 0, n => n
  | 1, n => n * 10
  | decimals + 2, n => scaleDecimals decimals (n * 100)

/-- `while(decimal_places--)` -/
def putDecimals : ℕ → ℕ → List Char → List Char
  | 0, _, s => s
  | decimalPlaces + 1, b, s =>
      if b ≠ 0 then putDecimals decimalPlaces (b / 10) (digitChar b :: s) else putDecimals decimalPlaces b ('0' :: s)

/-- `while(a)` -/
def putWhole (a : ℕ) (s : List Char) : List Char := if a = 0 then s else putWhole (a / 10) (digitChar a :: s)

/-- What is in memory from `bptr` on, up to the end of `buf`, and the values that have been converted. -/
structure Printed where
  text : List Char
  converted : List ℚ

/-- The terminator. -/
def nul : Char := Char.ofNat 0

def ftoa (n : ℚ) (decimalPlaces : ℕ) : Printed :=
  let bptr := [nul]
  let isNegative := decide (n < 0)
  let n := if isNegative then -n else n
  let n := n + froundvalues.getD decimalPlaces 0
  let a := toUint32 n
  let scaled := scaleDecimals decimalPlaces (n - a)
  let bptr := if decimalPlaces ≠ 0 then putDecimals decimalPlaces (toUint32 scaled) bptr else bptr
  let bptr := '.' :: bptr
  let bptr := if a = 0 then '0' :: bptr else putWhole a bptr
  { text := if isNegative then '-' :: bptr else bptr
    converted := n :: if decimalPlaces ≠ 0 then [scaled] else [] }

/-! ## What is to be printed -/

/-- A multiple of the last place, as near as can be, with ties away from zero. -/
structure RoundedTo (n : ℚ) (d : ℕ) (v : ℚ) : Prop where
  multiple : ∃ k : ℤ, v = k / 10 ^ d
  near : |v - n| ≤ 1 / (2 * 10 ^ d)
  tie : |v - n| = 1 / (2 * 10 ^ d) → |n| < |v|

/-- The number that is written with these digits. -/
def valueOf (sgn ds fs : List Char) : ℚ :=
  if sgn = ['-'] then -((numeral (ds ++ fs) : ℚ) / 10 ^ fs.length) else numeral (ds ++ fs) / 10 ^ fs.length

/-- The number is printed rounded, inside the buffer, and it is read back. -/
structure Prints (n : ℚ) (d : ℕ) : Prop where
  converted : ∀ x ∈ (ftoa n d).converted, 0 ≤ x ∧ x < 2 ^ 32
  inside : (ftoa n d).text.length ≤ sizeofBuf
  text : ∃ s sgn ds fs, (ftoa n d).text = s ++ [nul] ∧ DecimalText s sgn ds ['.'] fs ∧ ds ≠ [] ∧ fs.length = d ∧
    RoundedTo n d (valueOf sgn ds fs) ∧
      ((significant (ds ++ fs)).length ≤ maxIntDigits → ∀ value, readFloat s 0 value = ⟨true, s.length, valueOf sgn ds fs⟩)

/-- The absolute value in units of the last place, rounded. -/
def units (n : ℚ) (d : ℕ) : ℕ := ⌊|n| * 10 ^ d + 1 / 2⌋₊

/-- The digits behind the point are a 32 bit number, and there is room for sign, digits, point and terminator. -/
def PrintFits (n : ℚ) (d : ℕ) : Prop :=
  units n d % 10 ^ d < 2 ^ 32 ∧
    (if n < 0 then 1 else 0) + max 1 (Nat.digits 10 (units n d / 10 ^ d)).length + 1 + d + 1 ≤ sizeofBuf

/-! ## Digits -/

theorem digitChar_isDigit (n : ℕ) : (digitChar n).isDigit = true := by
  have hlt := Nat.mod_lt n (show 0 < 10 by decide)
  rw [digitChar]
  interval_cases n % 10 <;> rfl

theorem digitOf_digitChar (n : ℕ) : digitOf (digitChar n) = n % 10 := by
  have hlt := Nat.mod_lt n (show 0 < 10 by decide)
  rw [digitChar]
  interval_cases n % 10 <;> rfl

theorem numeral_append (ds fs : List Char) : numeral (ds ++ fs) = numeral ds * 10 ^ fs.length + numeral fs := by
  induction fs using List.reverseRecOn with
  | nil => simp [numeral]
  | append_singleton fs c ih =>
      rw [← List.append_assoc, numeral_concat, ih, numeral_concat, List.length_append, List.length_singleton, Nat.pow_succ]
      ring

theorem numeral_significant (ds : List Char) : numeral (significant ds) = numeral ds := by
  induction ds using List.reverseRecOn with
  | nil => rfl
  | append_singleton ds c ih =>
      rw [significant_concat, numeral_concat]
      split
      · rename_i hboth
        rw [← ih, hboth.1, hboth.2]
        rfl
      · rw [numeral_concat, ih]

theorem truncated_eq {ds fs : List Char} (h : (significant (ds ++ fs)).length ≤ maxIntDigits) :
    truncated ds fs = numeral (ds ++ fs) / 10 ^ fs.length := by
  rw [truncated, List.take_of_length_le h, Nat.sub_eq_zero_of_le h, List.replicate_zero, List.append_nil, numeral_significant]

theorem putDecimals_eq (k : ℕ) : ∀ b s, ∃ fs, putDecimals k b s = fs ++ s ∧ fs.length = k ∧ (∀ c ∈ fs, c.isDigit = true) ∧
    numeral fs = b % 10 ^ k := by
  induction k with
  | zero => exact fun b s => ⟨[], rfl, rfl, fun _ hc => absurd hc List.not_mem_nil, (Nat.mod_one b).symm⟩
  | succ k ih =>
      intro b s
      have hput : putDecimals (k + 1) b s = putDecimals k (b / 10) (digitChar b :: s) := by
        rw [putDecimals]
        split
        · rfl
        · rename_i hb
          rw [not_not] at hb
          subst hb
          rfl
      obtain ⟨fs, heq, hlen, hdigits, hnum⟩ := ih (b / 10) (digitChar b :: s)
      refine ⟨fs ++ [digitChar b], ?_, ?_, fun c hc => ?_, ?_⟩
      · rw [hput, heq, List.append_cons]
      · rw [List.length_append, List.length_singleton, hlen]
      · rcases List.mem_append.1 hc with hc | hc
        · exact hdigits c hc
        · rw [List.mem_singleton.1 hc]
          exact digitChar_isDigit b
      · rw [numeral_concat, hnum, digitOf_digitChar, Nat.pow_succ, Nat.mul_comm (10 ^ k) 10, Nat.mod_mul]
        ring

theorem putWhole_eq (a : ℕ) : ∀ s, ∃ ds, putWhole a s = ds ++ s ∧ ds.length = (Nat.digits 10 a).length ∧
    (∀ c ∈ ds, c.isDigit = true) ∧ numeral ds = a := by
  induction a using Nat.strong_induction_on with
  | _ a ih =>
      intro s
      rw [putWhole]
      split
      · rename_i ha
        subst ha
        exact ⟨[], rfl, rfl, fun _ hc => absurd hc List.not_mem_nil, rfl⟩
      · rename_i ha
        obtain ⟨ds, heq, hlen, hdigits, hnum⟩ := ih (a / 10) (Nat.div_lt_self (Nat.pos_of_ne_zero ha) (by decide)) (digitChar a :: s)
        refine ⟨ds ++ [digitChar a], ?_, ?_, fun c hc => ?_, ?_⟩
        · rw [heq, List.append_cons]
        · rw [List.length_append, List.length_singleton, hlen, Nat.digits_def' (by decide) (Nat.pos_of_ne_zero ha), List.length_cons]
        · rcases List.mem_append.1 hc with hc | hc
          · exact hdigits c hc
          · rw [List.mem_singleton.1 hc]
            exact digitChar_isDigit a
        · rw [numeral_concat, hnum, digitOf_digitChar]
          omega

/-! ## The two conversions -/

theorem froundvalues_eq {d : ℕ} (hd : d ≤ maxPrecision) : froundvalues.getD d 0 = 1 / (2 * 10 ^ d) := by
  have hlt : d < 11 := Nat.lt_succ_of_le hd
  interval_cases d <;> norm_num [froundvalues]

theorem scaleDecimals_eq (k : ℕ) (n : ℚ) : scaleDecimals k n = n * 10 ^ k := by
  induction k, n using scaleDecimals.induct with
  | case1 n => rw [scaleDecimals, pow_zero, mul_one]
  | case2 n => rw [scaleDecimals, pow_one]
  | case3 k n ih =>
      rw [scaleDecimals, ih, pow_succ, pow_succ]
      ring

theorem toUint32_eq {x : ℚ} (h : x < 2 ^ 32) (h0 : 0 ≤ x) : toUint32 x = ⌊x⌋₊ := by
  have hlt : ⌊x⌋₊ < 2 ^ 32 := (Nat.floor_lt h0).2 (by exact_mod_cast h)
  exact min_eq_left (by omega)

section
variable {n : ℚ} {d : ℕ}

/-- `n` with half a unit of the last place added. -/
def raised (n : ℚ) (d : ℕ) : ℚ := |n| + 1 / (2 * 10 ^ d)

theorem raised_nonneg (n : ℚ) (d : ℕ) : 0 ≤ raised n d := add_nonneg (abs_nonneg n) (by positivity)

theorem raised_mul (n : ℚ) (d : ℕ) : raised n d * 10 ^ d = |n| * 10 ^ d + 1 / 2 := by
  rw [raised]
  field_simp

theorem raised_lt (hn : |n| < 2 ^ 32 - 1) (d : ℕ) : raised n d < 2 ^ 32 := by
  have hpow : (1 : ℚ) ≤ 10 ^ d := one_le_pow₀ (by norm_num)
  have hhalf : 1 / (2 * 10 ^ d) ≤ (1 / 2 : ℚ) := by
    rw [div_le_div_iff₀ (by positivity) (by norm_num)]
    linarith
  rw [raised]
  linarith

theorem floor_parts (n : ℚ) (d : ℕ) :
    ⌊raised n d⌋₊ = units n d / 10 ^ d ∧ ⌊(raised n d - ⌊raised n d⌋₊) * 10 ^ d⌋₊ = units n d % 10 ^ d := by
  have hpow : (10 ^ d : ℚ) ≠ 0 := by positivity
  have hwhole : ⌊raised n d⌋₊ = units n d / 10 ^ d := by
    have hdiv : raised n d = (|n| * 10 ^ d + 1 / 2) / (10 ^ d : ℕ) := by
      rw [← raised_mul]
      push_cast
      field_simp
    rw [hdiv, Nat.floor_div_natCast, units]
  refine ⟨hwhole, ?_⟩
  have hsub : (raised n d - ⌊raised n d⌋₊) * 10 ^ d = |n| * 10 ^ d + 1 / 2 - (⌊raised n d⌋₊ * 10 ^ d : ℕ) := by
    rw [sub_mul, raised_mul]
    push_cast
    rfl
  rw [hsub, Nat.floor_sub_natCast, hwhole]
  change units n d - _ = _
  have hmod := Nat.div_add_mod' (units n d) (10 ^ d)
  omega

theorem ftoa_eq (hn : |n| < 2 ^ 32 - 1) (hd : d ≤ maxPrecision) : ∃ ds fs,
    (ftoa n d).text = (if n < 0 then ['-'] else []) ++ ds ++ ['.'] ++ fs ++ [nul] ∧
      (∀ c ∈ ds, c.isDigit = true) ∧ (∀ c ∈ fs, c.isDigit = true) ∧
        ds.length = max 1 (Nat.digits 10 (units n d / 10 ^ d)).length ∧ fs.length = d ∧ numeral ds = units n d / 10 ^ d ∧
          (units n d % 10 ^ d < 2 ^ 32 → numeral fs = units n d % 10 ^ d) ∧
            (ftoa n d).converted = raised n d :: if d ≠ 0 then [(raised n d - ⌊raised n d⌋₊) * 10 ^ d] else [] := by
  obtain ⟨hwhole, hfraction⟩ := floor_parts n d
  set a := units n d / 10 ^ d
  set scaled := (raised n d - ⌊raised n d⌋₊) * 10 ^ d with hscaled
  have hscaled0 : 0 ≤ scaled := mul_nonneg (sub_nonneg.2 (Nat.floor_le (raised_nonneg n d))) (by positivity)
  have habs : (if decide (n < 0) = true then -n else n) + froundvalues.getD d 0 = raised n d := by
    rw [froundvalues_eq hd, raised]
    by_cases hneg : n < 0
    · rw [if_pos (decide_eq_true hneg), abs_of_neg hneg]
    · rw [if_neg (by simpa using hneg), abs_of_nonneg (not_lt.1 hneg)]
  have hconv : toUint32 (raised n d) = ⌊raised n d⌋₊ := toUint32_eq (raised_lt hn d) (raised_nonneg n d)
  obtain ⟨fs, hput, hfslen, hfs, hfsnum⟩ := putDecimals_eq d (toUint32 scaled) [nul]
  obtain ⟨ds, hds, hdslen, hdsdigits, hdsnum⟩ : ∃ ds, (if a = 0 then '0' :: '.' :: (fs ++ [nul]) else putWhole a ('.' :: (fs ++ [nul]))) =
      ds ++ '.' :: (fs ++ [nul]) ∧ ds.length = max 1 (Nat.digits 10 a).length ∧ (∀ c ∈ ds, c.isDigit = true) ∧ numeral ds = a := by
    by_cases ha : a = 0
    · rw [if_pos ha, ha]
      exact ⟨['0'], rfl, rfl, List.forall_mem_singleton.2 rfl, rfl⟩
    · obtain ⟨ds, heq, hlen, hdigits, hnum⟩ := putWhole_eq a ('.' :: (fs ++ [nul]))
      have hpos : 1 ≤ (Nat.digits 10 a).length := List.length_pos_iff.2 (Nat.digits_ne_nil_iff_ne_zero.2 ha)
      rw [if_neg ha]
      exact ⟨ds, heq, by rw [hlen, max_eq_right hpos], hdigits, hnum⟩
  have hdecimals : (if d ≠ 0 then putDecimals d (toUint32 scaled) [nul] else [nul]) = fs ++ [nul] := by
    by_cases hd0 : d = 0
    · rw [if_neg (not_not.2 hd0)]
      rw [hd0] at hfslen
      rw [List.length_eq_zero_iff.1 hfslen]
      rfl
    · rw [if_pos hd0, hput]
  refine ⟨ds, fs, ?_, hdsdigits, hfs, hdslen, hfslen, hdsnum, fun hlt => ?_, ?_⟩
  · rw [ftoa]
    dsimp only
    rw [habs, hconv, scaleDecimals_eq, ← hscaled, hdecimals, hwhole, hds]
    by_cases hneg : n < 0
    · rw [if_pos (decide_eq_true hneg), if_pos hneg]
      simp
    · rw [if_neg (by simpa using hneg), if_neg hneg]
      simp
  · have hsmall : scaled < 2 ^ 32 := by
      rw [← hfraction] at hlt
      exact_mod_cast (Nat.floor_lt hscaled0).1 hlt
    rw [hfsnum, toUint32_eq hsmall hscaled0, hfraction, Nat.mod_mod]
  · rw [ftoa]
    dsimp only
    rw [habs, hconv, scaleDecimals_eq]

theorem rounded (n : ℚ) (d : ℕ) : RoundedTo n d (if n < 0 then -((units n d : ℚ) / 10 ^ d) else units n d / 10 ^ d) := by
  have hpow : (0 : ℚ) < 10 ^ d := by positivity
  have hle : (units n d : ℚ) ≤ |n| * 10 ^ d + 1 / 2 := Nat.floor_le (by positivity)
  have hlt : |n| * 10 ^ d + 1 / 2 < units n d + 1 := Nat.lt_floor_add_one _
  -- the distance is that of the absolute values
  have hdist : |(if n < 0 then -((units n d : ℚ) / 10 ^ d) else units n d / 10 ^ d) - n| = |units n d / 10 ^ d - abs n| := by
    split
    · rename_i hneg
      rw [abs_of_neg hneg, ← abs_neg]
      congr 1
      ring
    · rename_i hneg
      rw [abs_of_nonneg (not_lt.1 hneg)]
  have hscale : |units n d / 10 ^ d - abs n| * 10 ^ d = |(units n d : ℚ) - abs n * 10 ^ d| := by
    rw [← abs_of_pos hpow, ← abs_mul, abs_of_pos hpow, sub_mul, div_mul_cancel₀ _ hpow.ne']
  have hhalf : (1 : ℚ) / (2 * 10 ^ d) * 10 ^ d = 1 / 2 := by field_simp
  refine ⟨?_, ?_, fun htie => ?_⟩
  · split
    · exact ⟨-(units n d : ℤ), by push_cast; ring⟩
    · exact ⟨units n d, by push_cast; ring⟩
  · rw [hdist, ← mul_le_mul_iff_left₀ hpow, hscale, hhalf, abs_le]
    constructor <;> linarith
  · rw [hdist] at htie
    have hmul := congrArg (· * (10 : ℚ) ^ d) htie
    rw [hscale, hhalf] at hmul
    have hup : |n| * 10 ^ d < units n d := by
      rcases abs_cases ((units n d : ℚ) - abs n * 10 ^ d) with ⟨heq, -⟩ | ⟨heq, -⟩ <;> linarith
    have habs : |if n < 0 then -((units n d : ℚ) / 10 ^ d) else units n d / 10 ^ d| = units n d / 10 ^ d := by
      split
      · rw [abs_neg, abs_of_nonneg (by positivity)]
      · rw [abs_of_nonneg (by positivity)]
    rw [habs, lt_div_iff₀ hpow]
    exact hup

end

theorem readFloat_text {s sgn ds fs : List Char} (h : DecimalText s sgn ds ['.'] fs) (hds : ds ≠ []) (hlen : s.length < 2 ^ 31)
    (hdigits : (significant (ds ++ fs)).length ≤ maxIntDigits) (value : ℚ) :
    readFloat s 0 value = ⟨true, s.length, valueOf sgn ds fs⟩ := by
  have hreads := reads_faithfully ⟨s, hlen⟩ 0 value
  dsimp only at hreads
  obtain ⟨c, l, hcons⟩ := List.exists_cons_of_ne_nil hds
  have hc : c ∈ ds := hcons ▸ List.mem_cons_self
  have hmem : c ∈ s := by
    rw [h.text_eq]
    exact List.mem_append_left _ (List.mem_append_left _ (List.mem_append_right _ hc))
  have hok : (readFloat s 0 value).ok = true := hreads.ok_iff.2 ⟨s, List.prefix_rfl, ⟨_, _, _, _, h⟩, c, hmem, h.ds c hc⟩
  obtain ⟨t, -, hpre, hcounter, hlongest⟩ := hreads.longest hok
  rw [List.drop_zero] at hpre hlongest
  obtain rfl : t = s := hpre.eq_of_length (le_antisymm hpre.length_le (hlongest s List.prefix_rfl ⟨_, _, _, _, h⟩).length_le)
  rw [Nat.zero_add] at hcounter
  have hvalue := hreads.denoted hok sgn ds ['.'] fs
    (by rwa [hcounter, Nat.sub_zero, List.drop_zero, List.take_length])
  rw [truncated_eq hdigits] at hvalue
  rw [← hcounter, valueOf, ← hvalue, ← hok]

/-- When a number is printed as it should be. -/
theorem prints_iff {n : ℚ} {d : ℕ} (hn : |n| < 2 ^ 32 - 1) (hd : d ≤ maxPrecision) : Prints n d ↔ PrintFits n d := by
  obtain ⟨ds, fs, htext, hds, hfs, hdslen, hfslen, hdsnum, hfsnum, hconverted⟩ := ftoa_eq hn hd
  obtain ⟨-, hfraction⟩ := floor_parts n d
  have hscaled0 : 0 ≤ (raised n d - ⌊raised n d⌋₊) * 10 ^ d :=
    mul_nonneg (sub_nonneg.2 (Nat.floor_le (raised_nonneg n d))) (by positivity)
  have hfits : units n d % 10 ^ d < 2 ^ 32 ↔ ∀ x ∈ (ftoa n d).converted, 0 ≤ x ∧ x < 2 ^ 32 := by
    rw [hconverted, ← hfraction]
    constructor
    · intro hlt x hx
      rcases List.mem_cons.1 hx with rfl | hx
      · exact ⟨raised_nonneg n d, raised_lt hn d⟩
      · split at hx
        · rw [List.mem_singleton.1 hx]
          exact ⟨hscaled0, by exact_mod_cast (Nat.floor_lt hscaled0).1 hlt⟩
        · cases hx
    · intro hall
      by_cases hd0 : d = 0
      · rw [hfraction, hd0, Nat.pow_zero, Nat.mod_one]
        decide
      · have hx := hall ((raised n d - ⌊raised n d⌋₊) * 10 ^ d) (by rw [if_pos hd0]; exact List.mem_cons_of_mem _ List.mem_cons_self)
        exact (Nat.floor_lt hscaled0).2 (by exact_mod_cast hx.2)
  have hlength : (ftoa n d).text.length =
      (if n < 0 then 1 else 0) + max 1 (Nat.digits 10 (units n d / 10 ^ d)).length + 1 + d + 1 := by
    rw [htext, List.length_append, List.length_append, List.length_append, List.length_append, hdslen, hfslen]
    split <;> rfl
  constructor
  · intro h
    exact ⟨hfits.2 h.converted, hlength ▸ h.inside⟩
  · rintro ⟨hlt, hroom⟩
    refine ⟨hfits.1 hlt, hlength ▸ hroom, ?_⟩
    set sgn : List Char := if n < 0 then ['-'] else [] with hsgn
    have hdecimal : DecimalText (sgn ++ ds ++ ['.'] ++ fs) sgn ds ['.'] fs := by
      refine ⟨rfl, ?_, hds, .inr rfl, hfs⟩
      rw [hsgn]
      split
      · exact .inr (.inl rfl)
      · exact .inl rfl
    have hne : ds ≠ [] := by
      intro hnil
      rw [hnil, List.length_nil] at hdslen
      have := le_max_left 1 (Nat.digits 10 (units n d / 10 ^ d)).length
      omega
    have hnum : numeral (ds ++ fs) = units n d := by
      rw [numeral_append, hdsnum, hfsnum hlt, hfslen, Nat.div_add_mod']
    have hvalue : valueOf sgn ds fs = if n < 0 then -((units n d : ℚ) / 10 ^ d) else units n d / 10 ^ d := by
      rw [valueOf, hnum, hfslen, hsgn]
      by_cases hneg : n < 0
      · rw [if_pos hneg, if_pos hneg, if_pos rfl]
      · rw [if_neg hneg, if_neg hneg, if_neg (List.cons_ne_nil _ _).symm]
    refine ⟨sgn ++ ds ++ ['.'] ++ fs, sgn, ds, fs, htext, hdecimal, hne, hfslen, hvalue ▸ rounded n d, fun hdigits => ?_⟩
    refine readFloat_text hdecimal hne ?_ hdigits
    have hsmall := hlength ▸ hroom
    rw [htext, List.length_append] at hsmall
    have hbuf : sizeofBuf = 15 := rfl
    omega

/-- Four decimals of a number of three digits. -/
theorem prints_iff_one_and_a_half : Prints (-(3 / 2)) 4 ↔ PrintFits (-(3 / 2)) 4 :=
  prints_iff (by norm_num [abs_of_neg]) (by decide)

/-- A number of nine digits with its sign and four decimals is written from in front of the buffer, and half a unit with ten
decimals does not fit into 32 bits. -/
theorem nine_digits_do_not_fit : ¬ Prints (-123456789) 4 ∧ ¬ Prints (1 / 2) 10 := by
  constructor
  · intro h
    have hfits := (prints_iff (by norm_num [abs_of_neg]) (by decide)).1 h
    have hunits : units (-123456789) 4 = 1234567890000 := by
      rw [units, abs_neg, abs_of_pos (by norm_num)]
      norm_num
    have hroom := hfits.2
    rw [hunits] at hroom
    exact absurd hroom (by decide +kernel)
  · intro h
    have hfits := (prints_iff (by norm_num [abs_of_pos]) (by decide)).1 h
    have hunits : units (1 / 2) 10 = 5000000000 := by
      rw [units, abs_of_pos (by norm_num)]
      norm_num
    have hlt := hfits.1
    rw [hunits] at hlt
    exact absurd hlt (by decide)

end Grbl.Numbers
