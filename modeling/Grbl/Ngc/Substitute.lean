import Mathlib

/-!
# Substitution of parameters in a text

* `getFormat` : one character of a specifier;
* `Measure`, `measure` : the pass that measures; `Written`, `write` : the one that writes;
* `ngcSubstituteParameters` : both of them;
* `Piece`, `pieces` : what a text is made of; `runsPast` : a reference is read past the end of it;
* `measure_eq`, `write_eq` : what the passes make of the pieces;
* `substitution_fits_iff` : when what is written fits.
-/

namespace Grbl.Ngc

/-- `get_format`, with the decimals, and the digit that has been read. -/
def getFormat (floatDecimals : ℕ) (c : Char) (pos decimals d : ℕ) : ℤ × ℕ × ℕ :=
  match pos with
  | 1 =>
      if c = 'd' then (-2, 0, d)
      else if c = 'f' then (-2, floatDecimals, d)
      else if c = '.' then (2, decimals, d)
      else (0, decimals, d)
  | 2 => if '0' ≤ c ∧ c ≤ '9' then (3, decimals, c.toNat - '0'.toNat) else (0, decimals, d)
  | _ => if c = 'f' then (-4, d, d) else (0, decimals, d)

def trimFloat (s : List Char) : List Char :=
  if '.' ∈ s then
    let s := (s.reverse.dropWhile (· = '0')).reverse
    if s.getLast? = some '.' then s.dropLast else s
  else s

/-- `ngc_read_parameter` at a `#`: the value, unless there is an error, and how many characters behind the `#` are read; `ftoa`;
`ngc_float_decimals`. -/
structure Printer (ν : Type) where
  read : List Char → Option ν × ℕ
  ftoa : ν → ℕ → List Char
  floatDecimals : ℕ

section
variable {ν : Type} (P : Printer ν)

def Printer.print (value : ν) (decimals : ℕ) : List Char :=
  if decimals ≠ 0 then P.ftoa value decimals else trimFloat (P.ftoa value decimals)

/-! ## The two passes -/

/-- The variables of the first pass; `used` are the decimals of the references it has measured. -/
structure Measure where
  parseFormat : ℕ
  decimals : ℕ
  d : ℕ
  len : ℕ := 0
  used : List ℕ := []

/-- A character of a specifier. -/
def Measure.format (m : Measure) (c : Char) : Measure :=
  match getFormat P.floatDecimals c m.parseFormat m.decimals m.d with
  | (pos, decimals, d) =>
      if pos < 0 then { m with parseFormat := 0, decimals := decimals, d := d, len := m.len + (-pos).toNat }
      else { m with parseFormat := pos.toNat, decimals := decimals, d := d }

def Measure.reference (m : Measure) : Option ν → Measure
  | some value => { m with len := m.len + (P.print value m.decimals).length, used := m.used ++ [m.decimals] }
  | none => { m with len := m.len + 3 }

/-- The first pass over what is left of the text: `none` when a reference has been read past the terminator, since the pass
goes on behind it. -/
def measure : List Char → Measure → Option Measure
  | [], m => some m
  | c :: s, m =>
      if m.parseFormat ≠ 0 then measure s (m.format P c)
      else if c = '%' then measure s { m with parseFormat := 1 }
      else if c = '#' then
        if s.length < (P.read (c :: s)).2 then none
        else measure (s.drop (P.read (c :: s)).2) (m.reference P (P.read (c :: s)).1)
      else measure s { m with len := m.len + 1 }
  termination_by s => s.length

/-- The variables of the second pass; `fmt` are the 5 characters of the specifier, and `out` is the string in the allocated
memory, without its terminator. -/
structure Written where
  parseFormat : ℕ
  decimals : ℕ
  d : ℕ
  fmt : ℕ → Char := fun _ => '\x00'
  out : List Char := []
  used : List ℕ := []

/-- The string in `fmt`. -/
def fmtString (fmt : ℕ → Char) : List Char := ((List.range 5).map fmt).takeWhile (· ≠ '\x00')

def Written.format (w : Written) (c : Char) : Written :=
  let fmt := Function.update w.fmt w.parseFormat c
  match getFormat P.floatDecimals c w.parseFormat w.decimals w.d with
  | (pos, decimals, d) =>
      if pos < 0 then { w with parseFormat := 0, decimals := decimals, d := d, fmt := fmt }
      else if pos = 0 then { w with parseFormat := 0, decimals := decimals, d := d, fmt := fmt, out := w.out ++ fmtString fmt }
      else { w with parseFormat := pos.toNat, decimals := decimals, d := d, fmt := fmt }

def Written.reference (w : Written) : Option ν → Written
  | some value => { w with out := w.out ++ P.print value w.decimals, used := w.used ++ [w.decimals] }
  | none => { w with out := w.out ++ ['N', '/', 'A'] }

/-- The second pass. -/
def write : List Char → Written → Option Written
  | [], w => some w
  | c :: s, w =>
      if w.parseFormat ≠ 0 then write s (w.format P c)
      else if c = '%' then write s { w with parseFormat := 1, fmt := Function.update w.fmt 0 c }
      else if c = '#' then
        if s.length < (P.read (c :: s)).2 then none
        else write (s.drop (P.read (c :: s)).2) (w.reference P (P.read (c :: s)).1)
      else write s { w with out := w.out ++ [c] }
  termination_by s => s.length

/-- `ngc_substitute_parameters`: both passes. The second one starts with the variables that the first one has left. -/
def ngcSubstituteParameters (d : ℕ) (line : List Char) : Option (Measure × Written) := do
  let line := line.dropWhile (· = ' ')
  let m ← measure P line { parseFormat := 0, decimals := P.floatDecimals, d := d }
  let w ← write P line { parseFormat := m.parseFormat, decimals := m.decimals, d := m.d }
  return (m, w)

end

/-! ## Pieces of a text -/

/-- A character, a specifier (its characters, and the decimals it sets), an invalid one, and a reference. -/
inductive Piece (ν : Type)
  | text
  | valid (len decimals : ℕ)
  | invalid (len : ℕ)
  | reference (value : Option ν)

section
variable {ν : Type} (P : Printer ν)

/-- The pieces, and the position in the specifier at the end. -/
def pieces (pos d : ℕ) : List Char → List (Piece ν) × ℕ × ℕ
  | [] => ([], pos, d)
  | c :: s =>
      if pos ≠ 0 then
        match getFormat P.floatDecimals c pos 0 d with
        | (next, decimals, d) =>
            if next < 0 then
              let (ps, last) := pieces 0 d s
              (.valid (-next).toNat decimals :: ps, last)
            else if next = 0 then
              let (ps, last) := pieces 0 d s
              (.invalid (pos + 1) :: ps, last)
            else pieces next.toNat d s
      else if c = '%' then pieces 1 d s
      else if c = '#' then
        let (ps, last) := pieces 0 d (s.drop (P.read (c :: s)).2)
        (.reference (P.read (c :: s)).1 :: ps, last)
      else
        let (ps, last) := pieces 0 d s
        (.text :: ps, last)
  termination_by s => s.length

/-- A reference is read past the end of the text. -/
def runsPast (pos : ℕ) : List Char → Bool
  | [] => false
  | c :: s =>
      if pos ≠ 0 then runsPast (getFormat P.floatDecimals c pos 0 0).1.toNat s
      else if c = '%' then runsPast 1 s
      else if c = '#' then s.length < (P.read (c :: s)).2 || runsPast 0 (s.drop (P.read (c :: s)).2)
      else runsPast 0 s
  termination_by s => s.length

def lastDecimals (decimals : ℕ) : List (Piece ν) → ℕ
  | [] => decimals
  | .valid _ decimals :: ps => lastDecimals decimals ps
  | _ :: ps => lastDecimals decimals ps

def usedDecimals (decimals : ℕ) : List (Piece ν) → List ℕ
  | [] => []
  | .valid _ decimals :: ps => usedDecimals decimals ps
  | .reference (some _) :: ps => decimals :: usedDecimals decimals ps
  | _ :: ps => usedDecimals decimals ps

/-- The characters of text and references. -/
def plainLength (decimals : ℕ) : List (Piece ν) → ℕ
  | [] => 0
  | .text :: ps => plainLength decimals ps + 1
  | .valid _ decimals :: ps => plainLength decimals ps
  | .invalid _ :: ps => plainLength decimals ps
  | .reference (some value) :: ps => plainLength decimals ps + (P.print value decimals).length
  | .reference none :: ps => plainLength decimals ps + 3

/-- The characters of the specifiers, which the first pass counts. -/
def validLength : List (Piece ν) → ℕ
  | [] => 0
  | .valid len _ :: ps => validLength ps + len
  | _ :: ps => validLength ps

/-- The characters that the second pass writes for the invalid ones: as many as the longest specifier so far has. -/
def invalidLength (longest : ℕ) : List (Piece ν) → ℕ
  | [] => 0
  | .valid len _ :: ps => invalidLength (max longest len) ps
  | .invalid len :: ps => invalidLength (max longest len) ps + max longest len
  | _ :: ps => invalidLength longest ps

theorem getFormat_cases (floatDecimals : ℕ) (c : Char) {pos : ℕ} (d : ℕ) (hpos : pos ≠ 0) (hle : pos ≤ 3) :
    (∃ decimals' d', ∀ decimals, getFormat floatDecimals c pos decimals d = (-((pos + 1 : ℕ) : ℤ), decimals', d')) ∨
      (∀ decimals, getFormat floatDecimals c pos decimals d = (0, decimals, d)) ∨
      (pos < 3 ∧ ∃ d', ∀ decimals, getFormat floatDecimals c pos decimals d = (((pos + 1 : ℕ) : ℤ), decimals, d')) := by
  match pos with
  | 0 => exact absurd rfl hpos
  | 1 =>
      simp only [getFormat]
      split
      · exact .inl ⟨0, d, fun _ => rfl⟩
      · split
        · exact .inl ⟨floatDecimals, d, fun _ => rfl⟩
        · split
          · exact .inr (.inr ⟨by decide, d, fun _ => rfl⟩)
          · exact .inr (.inl fun _ => rfl)
  | 2 =>
      simp only [getFormat]
      split
      · exact .inr (.inr ⟨by decide, _, fun _ => rfl⟩)
      · exact .inr (.inl fun _ => rfl)
  | 3 =>
      simp only [getFormat]
      split
      · exact .inl ⟨d, d, fun _ => rfl⟩
      · exact .inr (.inl fun _ => rfl)
  | n + 4 => omega

section
variable {P} {c : Char} {s : List Char} {pos d : ℕ}

theorem pieces_valid (hpos : pos ≠ 0) {decimals' d' : ℕ}
    (h : ∀ decimals, getFormat P.floatDecimals c pos decimals d = (-((pos + 1 : ℕ) : ℤ), decimals', d')) :
    pieces P pos d (c :: s) = (.valid (pos + 1) decimals' :: (pieces P 0 d' s).1, (pieces P 0 d' s).2) := by
  have hlt : -((pos + 1 : ℕ) : ℤ) < 0 := by omega
  rw [pieces, if_pos hpos, h 0]
  dsimp only
  rw [if_pos hlt]
  simp

theorem pieces_invalid (hpos : pos ≠ 0) (h : ∀ decimals, getFormat P.floatDecimals c pos decimals d = (0, decimals, d)) :
    pieces P pos d (c :: s) = (.invalid (pos + 1) :: (pieces P 0 d s).1, (pieces P 0 d s).2) := by
  rw [pieces, if_pos hpos, h 0]
  rfl

theorem pieces_more (hpos : pos ≠ 0) {d' : ℕ}
    (h : ∀ decimals, getFormat P.floatDecimals c pos decimals d = (((pos + 1 : ℕ) : ℤ), decimals, d')) :
    pieces P pos d (c :: s) = pieces P (pos + 1) d' s := by
  have hlt : ¬ ((pos + 1 : ℕ) : ℤ) < 0 := by omega
  have hne : ¬ ((pos + 1 : ℕ) : ℤ) = 0 := by omega
  rw [pieces, if_pos hpos, h 0]
  dsimp only
  rw [if_neg hlt, if_neg hne, Int.toNat_natCast]

theorem pieces_percent : pieces P 0 d ('%' :: s) = pieces P 1 d s := by
  rw [pieces, if_neg (fun h => h rfl), if_pos rfl]

theorem pieces_reference : pieces P 0 d ('#' :: s) =
    (.reference (P.read ('#' :: s)).1 :: (pieces P 0 d (s.drop (P.read ('#' :: s)).2)).1,
      (pieces P 0 d (s.drop (P.read ('#' :: s)).2)).2) := by
  rw [pieces, if_neg (fun h => h rfl), if_neg (by decide), if_pos rfl]

theorem pieces_text (hpercent : c ≠ '%') (hhash : c ≠ '#') :
    pieces P 0 d (c :: s) = (.text :: (pieces P 0 d s).1, (pieces P 0 d s).2) := by
  rw [pieces, if_neg (fun h => h rfl), if_neg hpercent, if_neg hhash]

theorem getFormat_fst (floatDecimals : ℕ) (c : Char) (pos decimals decimals' d d' : ℕ) :
    (getFormat floatDecimals c pos decimals d).1 = (getFormat floatDecimals c pos decimals' d').1 := by
  unfold getFormat
  split <;> repeat' split
  all_goals rfl

theorem runsPast_format (hpos : pos ≠ 0) {decimals decimals' d' : ℕ} {next : ℤ}
    (h : getFormat P.floatDecimals c pos decimals d = (next, decimals', d')) :
    runsPast P pos (c :: s) = runsPast P next.toNat s := by
  rw [runsPast, if_pos hpos, getFormat_fst P.floatDecimals c pos 0 decimals 0 d, h]

theorem runsPast_percent : runsPast P 0 ('%' :: s) = runsPast P 1 s := by
  rw [runsPast, if_neg (fun h => h rfl), if_pos rfl]

theorem runsPast_reference : runsPast P 0 ('#' :: s) =
    (decide (s.length < (P.read ('#' :: s)).2) || runsPast P 0 (s.drop (P.read ('#' :: s)).2)) := by
  rw [runsPast, if_neg (fun h => h rfl), if_neg (by decide), if_pos rfl]

theorem runsPast_text (hpercent : c ≠ '%') (hhash : c ≠ '#') : runsPast P 0 (c :: s) = runsPast P 0 s := by
  rw [runsPast, if_neg (fun h => h rfl), if_neg hpercent, if_neg hhash]

end

/-- What the first pass makes of the pieces. -/
def Measure.after (m : Measure) (ps : List (Piece ν) × ℕ × ℕ) : Measure :=
  { parseFormat := ps.2.1
    decimals := lastDecimals m.decimals ps.1
    d := ps.2.2
    len := m.len + (plainLength P m.decimals ps.1 + validLength ps.1)
    used := m.used ++ usedDecimals m.decimals ps.1 }

theorem measure_eq (n : ℕ) : ∀ (s : List Char) (m : Measure), s.length ≤ n → m.parseFormat ≤ 3 →
    measure P s m = if runsPast P m.parseFormat s then none else some (m.after P (pieces P m.parseFormat m.d s)) := by
  induction n with
  | zero =>
      intro s m hs _
      rw [List.length_eq_zero_iff.1 (Nat.le_zero.1 hs), measure, pieces, runsPast]
      simp [Measure.after, lastDecimals, plainLength, validLength, usedDecimals]
  | succ n ih =>
      intro s m hs hle
      cases s with
      | nil =>
          rw [measure, pieces, runsPast]
          simp [Measure.after, lastDecimals, plainLength, validLength, usedDecimals]
      | cons c s =>
          have hlen : s.length ≤ n := Nat.le_of_succ_le_succ hs
          rw [measure]
          by_cases hpos : m.parseFormat ≠ 0
          · rw [if_pos hpos]
            obtain ⟨decimals', d', h⟩ | h | ⟨hlt, d', h⟩ := getFormat_cases P.floatDecimals c m.d hpos hle
            · have hneg : -((m.parseFormat + 1 : ℕ) : ℤ) < 0 := by omega
              have hformat : m.format P c =
                  { m with parseFormat := 0, decimals := decimals', d := d', len := m.len + (m.parseFormat + 1) } := by
                rw [Measure.format, h]
                dsimp only
                rw [if_pos hneg, Int.neg_neg, Int.toNat_natCast]
              rw [hformat, ih s _ hlen (Nat.zero_le _), pieces_valid hpos h, runsPast_format hpos (h 0)]
              have hafter : Measure.after P { m with parseFormat := 0, decimals := decimals', d := d', len := m.len + (m.parseFormat + 1) }
                  (pieces P 0 d' s) =
                    m.after P (.valid (m.parseFormat + 1) decimals' :: (pieces P 0 d' s).1, (pieces P 0 d' s).2) := by
                simp only [Measure.after, lastDecimals, plainLength, validLength, usedDecimals, Measure.mk.injEq, true_and, and_true]
                omega
              rw [hafter, Int.toNat_eq_zero.2 (Int.le_of_lt hneg)]
            · have hformat : m.format P c = { m with parseFormat := 0 } := by
                rw [Measure.format, h]
                rfl
              rw [hformat, ih s _ hlen (Nat.zero_le _), pieces_invalid hpos h, runsPast_format hpos (h 0)]
              rfl
            · have hneg : ¬ ((m.parseFormat + 1 : ℕ) : ℤ) < 0 := by omega
              have hformat : m.format P c = { m with parseFormat := m.parseFormat + 1, d := d' } := by
                rw [Measure.format, h]
                dsimp only
                rw [if_neg hneg, Int.toNat_natCast]
              rw [hformat, ih s _ hlen (by dsimp only; omega), pieces_more hpos h, runsPast_format hpos (h 0), Int.toNat_natCast]
              rfl
          · obtain ⟨pos, decimals, d, len, used⟩ := m
            obtain rfl : pos = 0 := Decidable.not_not.1 hpos
            rw [if_neg hpos]
            by_cases hpercent : c = '%'
            · rw [if_pos hpercent, hpercent, pieces_percent, runsPast_percent, ih s _ hlen (by dsimp only; omega)]
              rfl
            · rw [if_neg hpercent]
              by_cases hhash : c = '#'
              · have hdrop : (s.drop (P.read ('#' :: s)).2).length ≤ n := by
                  rw [List.length_drop]
                  omega
                have hafter : Measure.after P (Measure.reference P ⟨0, decimals, d, len, used⟩ (P.read ('#' :: s)).1)
                    (pieces P 0 d (s.drop (P.read ('#' :: s)).2)) =
                      Measure.after P ⟨0, decimals, d, len, used⟩ (pieces P 0 d ('#' :: s)) := by
                  rw [pieces_reference]
                  cases (P.read ('#' :: s)).1 with
                  | none =>
                      simp only [Measure.reference, Measure.after, lastDecimals, plainLength, validLength, usedDecimals,
                        Measure.mk.injEq, true_and, and_true]
                      omega
                  | some value =>
                      simp only [Measure.reference, Measure.after, lastDecimals, plainLength, validLength, usedDecimals,
                        Measure.mk.injEq, true_and, List.append_assoc, List.singleton_append, and_true]
                      omega
                have hpos' : (Measure.reference P ⟨0, decimals, d, len, used⟩ (P.read ('#' :: s)).1).parseFormat = 0 ∧
                    (Measure.reference P ⟨0, decimals, d, len, used⟩ (P.read ('#' :: s)).1).d = d := by
                  cases (P.read ('#' :: s)).1 <;> exact ⟨rfl, rfl⟩
                rw [if_pos hhash, hhash, runsPast_reference]
                by_cases hpast : s.length < (P.read ('#' :: s)).2
                · simp [hpast]
                · rw [if_neg hpast, ih _ _ hdrop (by rw [hpos'.1]; exact Nat.zero_le _), hpos'.1, hpos'.2, hafter]
                  simp [hpast]
              · rw [if_neg hhash, pieces_text hpercent hhash, runsPast_text hpercent hhash, ih s _ hlen (Nat.zero_le _)]
                have hafter : Measure.after P ⟨0, decimals, d, len + 1, used⟩ (pieces P 0 d s) =
                    Measure.after P ⟨0, decimals, d, len, used⟩ (.text :: (pieces P 0 d s).1, (pieces P 0 d s).2) := by
                  simp only [Measure.after, lastDecimals, plainLength, validLength, usedDecimals, Measure.mk.injEq, true_and, and_true]
                  omega
                rw [hafter]

theorem pieces_congr (n : ℕ) : ∀ (s : List Char) (pos d d' : ℕ), s.length ≤ n → pos ≤ 2 →
    (pieces P pos d s).1 = (pieces P pos d' s).1 ∧ (pieces P pos d s).2.1 = (pieces P pos d' s).2.1 := by
  induction n with
  | zero =>
      intro s pos d d' hs _
      rw [List.length_eq_zero_iff.1 (Nat.le_zero.1 hs), pieces, pieces]
      exact ⟨rfl, rfl⟩
  | succ n ih =>
      intro s pos d d' hs hle
      cases s with
      | nil =>
          rw [pieces, pieces]
          exact ⟨rfl, rfl⟩
      | cons c s =>
          have hlen : s.length ≤ n := Nat.le_of_succ_le_succ hs
          obtain ⟨hps, hlast⟩ := ih s 0 d d' hlen (Nat.zero_le _)
          match pos with
          | 0 =>
              by_cases hpercent : c = '%'
              · rw [hpercent, pieces_percent, pieces_percent]
                exact ih s 1 d d' hlen (by decide)
              · by_cases hhash : c = '#'
                · have hdrop : (s.drop (P.read ('#' :: s)).2).length ≤ n := by
                    rw [List.length_drop]
                    omega
                  obtain ⟨hps, hlast⟩ := ih _ 0 d d' hdrop (Nat.zero_le _)
                  rw [hhash, pieces_reference, pieces_reference, hps, hlast]
                  exact ⟨rfl, rfl⟩
                · rw [pieces_text hpercent hhash, pieces_text hpercent hhash, hps, hlast]
                  exact ⟨rfl, rfl⟩
          | 1 =>
              by_cases hdot : c = '.'
              · have hmore : ∀ d decimals, getFormat P.floatDecimals c 1 decimals d = (((1 + 1 : ℕ) : ℤ), decimals, d) := fun d _ => by
                  rw [hdot]
                  rfl
                rw [pieces_more (by decide) (hmore d), pieces_more (by decide) (hmore d')]
                exact ih s 2 d d' hlen (by decide)
              · by_cases hvalid : c = 'd' ∨ c = 'f'
                · have hend : ∃ decimals', ∀ d decimals,
                      getFormat P.floatDecimals c 1 decimals d = (-((1 + 1 : ℕ) : ℤ), decimals', d) := by
                    obtain rfl | rfl := hvalid
                    · exact ⟨0, fun _ _ => rfl⟩
                    · exact ⟨P.floatDecimals, fun _ _ => rfl⟩
                  obtain ⟨decimals', hend⟩ := hend
                  rw [pieces_valid (by decide) (hend d), pieces_valid (by decide) (hend d'), hps, hlast]
                  exact ⟨rfl, rfl⟩
                · have hinvalid : ∀ d decimals, getFormat P.floatDecimals c 1 decimals d = (0, decimals, d) := fun d decimals => by
                    obtain ⟨hd, hf⟩ := not_or.1 hvalid
                    simp only [getFormat, if_neg hd, if_neg hf, if_neg hdot]
                  rw [pieces_invalid (by decide) (hinvalid d), pieces_invalid (by decide) (hinvalid d'), hps, hlast]
                  exact ⟨rfl, rfl⟩
          | 2 =>
              by_cases hdigit : '0' ≤ c ∧ c ≤ '9'
              · have hmore : ∀ d decimals, getFormat P.floatDecimals c 2 decimals d = (((2 + 1 : ℕ) : ℤ), decimals, c.toNat - '0'.toNat) :=
                  fun d decimals => if_pos hdigit
                rw [pieces_more (by decide) (hmore d), pieces_more (by decide) (hmore d')]
                exact ⟨rfl, rfl⟩
              · have hinvalid : ∀ d decimals, getFormat P.floatDecimals c 2 decimals d = (0, decimals, d) := fun d decimals => if_neg hdigit
                rw [pieces_invalid (by decide) (hinvalid d), pieces_invalid (by decide) (hinvalid d'), hps, hlast]
                exact ⟨rfl, rfl⟩
          | n + 3 => omega

/-! ## The second pass -/

/-- The first `k` of the characters of a specifier are set. -/
def Filled (fmt : ℕ → Char) (k : ℕ) : Prop := k ≤ 4 ∧ ∀ i, fmt i ≠ '\x00' ↔ i < k

theorem Filled.update {fmt : ℕ → Char} {k i : ℕ} {c : Char} (h : Filled fmt k) (hc : c ≠ '\x00') (hi : i ≤ k) (hle : i ≤ 3) :
    Filled (Function.update fmt i c) (max k (i + 1)) := by
  refine ⟨by have := h.1; omega, fun j => ?_⟩
  by_cases hj : j = i
  · subst hj
    rw [Function.update_self]
    exact iff_of_true hc (by omega)
  · rw [Function.update_of_ne hj, h.2]
    omega

theorem length_fmtString {fmt : ℕ → Char} {k : ℕ} (h : Filled fmt k) : (fmtString fmt).length = k := by
  have hset : ∀ i, i < k → fmt i ≠ '\x00' := fun i => (h.2 i).2
  have hend : fmt k = '\x00' := by
    by_contra hne
    exact absurd ((h.2 k).1 hne) (Nat.lt_irrefl k)
  have hlist : (List.range 5).map fmt = (List.range k).map fmt ++ ((List.range' k (5 - k)).map fmt) := by
    have hsplit : List.range' 0 k ++ List.range' (0 + k) (5 - k) = List.range' 0 (k + (5 - k)) := List.range'_append_1
    rw [Nat.zero_add, Nat.add_sub_cancel' (Nat.le_trans h.1 (Nat.le_succ 4))] at hsplit
    rw [← List.map_append, List.range_eq_range', List.range_eq_range', hsplit]
  have hrest : (List.range' k (5 - k)).map fmt = fmt k :: (List.range' (k + 1) (4 - k)).map fmt := by
    have hle := h.1
    rw [show 5 - k = 4 - k + 1 by omega, List.range'_succ, List.map_cons]
  rw [fmtString, hlist, List.takeWhile_append_of_pos, hrest, List.takeWhile_cons_of_neg, List.append_nil, List.length_map, List.length_range]
  · rw [hend]
    decide
  · intro c hc
    obtain ⟨i, hi, rfl⟩ := List.mem_map.1 hc
    exact decide_eq_true (hset i (List.mem_range.1 hi))

theorem write_eq (n : ℕ) : ∀ (s : List Char) (w : Written) (longest : ℕ), s.length ≤ n → '\x00' ∉ s → w.parseFormat ≤ 3 →
    Filled w.fmt (max longest w.parseFormat) → longest ≤ 4 → runsPast P w.parseFormat s = false →
    ∃ w', write P s w = some w' ∧
      w'.out.length = w.out.length + (plainLength P w.decimals (pieces P w.parseFormat w.d s).1 +
        invalidLength longest (pieces P w.parseFormat w.d s).1) ∧
      w'.used = w.used ++ usedDecimals w.decimals (pieces P w.parseFormat w.d s).1 := by
  induction n with
  | zero =>
      intro s w longest hs _ _ _ _ _
      rw [List.length_eq_zero_iff.1 (Nat.le_zero.1 hs), write, pieces]
      exact ⟨w, by simp [plainLength, invalidLength, usedDecimals]⟩
  | succ n ih =>
      intro s w longest hs hnul hle hfilled hlongest hpast
      cases s with
      | nil =>
          rw [write, pieces]
          exact ⟨w, by simp [plainLength, invalidLength, usedDecimals]⟩
      | cons c s =>
          have hlen : s.length ≤ n := Nat.le_of_succ_le_succ hs
          obtain ⟨hc, hnul⟩ := not_or.1 (List.mem_cons.not.1 hnul)
          have hc : c ≠ '\x00' := Ne.symm hc
          rw [write]
          by_cases hpos : w.parseFormat ≠ 0
          · rw [if_pos hpos]
            have hupdate := hfilled.update hc (Nat.le_max_right _ _) hle
            have hmax : max (max longest w.parseFormat) (w.parseFormat + 1) = max longest (w.parseFormat + 1) := by omega
            rw [hmax] at hupdate
            obtain ⟨decimals', d', h⟩ | h | ⟨hlt, d', h⟩ := getFormat_cases P.floatDecimals c w.d hpos hle
            · have hneg : -((w.parseFormat + 1 : ℕ) : ℤ) < 0 := by omega
              have hformat : w.format P c = { w with
                  parseFormat := 0, decimals := decimals', d := d', fmt := Function.update w.fmt w.parseFormat c } := by
                rw [Written.format, h]
                dsimp only
                rw [if_pos hneg]
              rw [runsPast_format hpos (h 0), Int.toNat_eq_zero.2 (Int.le_of_lt hneg)] at hpast
              rw [hformat, pieces_valid hpos h]
              exact ih s _ (max longest (w.parseFormat + 1)) hlen hnul (Nat.zero_le _) (by rw [Nat.max_zero]; exact hupdate) (by omega)
                hpast
            · have hformat : w.format P c = { w with
                  parseFormat := 0, fmt := Function.update w.fmt w.parseFormat c
                  out := w.out ++ fmtString (Function.update w.fmt w.parseFormat c) } := by
                rw [Written.format, h]
                rfl
              rw [runsPast_format hpos (h 0)] at hpast
              rw [hformat, pieces_invalid hpos h]
              obtain ⟨w', hwrite, hout, hused⟩ := ih s { w with
                  parseFormat := 0, fmt := Function.update w.fmt w.parseFormat c
                  out := w.out ++ fmtString (Function.update w.fmt w.parseFormat c) } (max longest (w.parseFormat + 1)) hlen hnul
                (Nat.zero_le _) (by rw [Nat.max_zero]; exact hupdate) (by omega) hpast
              refine ⟨w', hwrite, ?_, hused⟩
              rw [hout, List.length_append, length_fmtString hupdate]
              simp only [plainLength, invalidLength]
              omega
            · have hneg : ¬ ((w.parseFormat + 1 : ℕ) : ℤ) < 0 := by omega
              have hne : ¬ ((w.parseFormat + 1 : ℕ) : ℤ) = 0 := by omega
              have hformat : w.format P c = { w with
                  parseFormat := w.parseFormat + 1, d := d', fmt := Function.update w.fmt w.parseFormat c } := by
                rw [Written.format, h]
                dsimp only
                rw [if_neg hneg, if_neg hne, Int.toNat_natCast]
              rw [runsPast_format hpos (h 0), Int.toNat_natCast] at hpast
              rw [hformat, pieces_more hpos h]
              exact ih s _ longest hlen hnul (by dsimp only; omega) hupdate hlongest hpast
          · obtain ⟨pos, decimals, d, fmt, out, used⟩ := w
            obtain rfl : pos = 0 := Decidable.not_not.1 hpos
            rw [if_neg hpos]
            rw [Nat.max_zero] at hfilled
            by_cases hpercent : c = '%'
            · rw [hpercent, runsPast_percent] at hpast
              rw [if_pos hpercent, hpercent, pieces_percent]
              have hupdate := hfilled.update (i := 0) (c := '%') (by decide) (Nat.zero_le _) (by decide)
              exact ih s _ longest hlen hnul (by dsimp only; omega) hupdate hlongest hpast
            · rw [if_neg hpercent]
              by_cases hhash : c = '#'
              · have hdrop : (s.drop (P.read ('#' :: s)).2).length ≤ n := by
                  rw [List.length_drop]
                  omega
                have hnul' : '\x00' ∉ s.drop (P.read ('#' :: s)).2 := fun hmem => hnul (List.mem_of_mem_drop hmem)
                rw [hhash, runsPast_reference, Bool.or_eq_false_iff, decide_eq_false_iff_not] at hpast
                obtain ⟨hinside, hpast⟩ := hpast
                rw [if_pos hhash, hhash, if_neg hinside, pieces_reference]
                cases hread : (P.read ('#' :: s)).1 with
                | none =>
                    obtain ⟨w', hwrite, hout, hused⟩ := ih _ (Written.reference P ⟨0, decimals, d, fmt, out, used⟩ none) longest hdrop
                      hnul' (Nat.zero_le _) (by rw [Written.reference, Nat.max_zero]; exact hfilled) hlongest hpast
                    refine ⟨w', hwrite, ?_, hused⟩
                    rw [hout]
                    simp only [Written.reference, plainLength, invalidLength, List.length_append, List.length_cons, List.length_nil]
                    omega
                | some value =>
                    obtain ⟨w', hwrite, hout, hused⟩ := ih _ (Written.reference P ⟨0, decimals, d, fmt, out, used⟩ (some value)) longest
                      hdrop hnul' (Nat.zero_le _) (by rw [Written.reference, Nat.max_zero]; exact hfilled) hlongest hpast
                    refine ⟨w', hwrite, ?_, ?_⟩
                    · rw [hout]
                      simp only [Written.reference, plainLength, invalidLength, List.length_append]
                      omega
                    · rw [hused]
                      simp only [Written.reference, usedDecimals, List.append_assoc, List.singleton_append]
              · rw [runsPast_text hpercent hhash] at hpast
                obtain ⟨w', hwrite, hout, hused⟩ := ih s ⟨0, decimals, d, fmt, out ++ [c], used⟩ longest hlen hnul (Nat.zero_le _)
                  (by rw [Nat.max_zero]; exact hfilled) hlongest hpast
                rw [if_neg hhash, pieces_text hpercent hhash]
                refine ⟨w', hwrite, ?_, hused⟩
                rw [hout]
                simp only [plainLength, invalidLength, List.length_append, List.length_singleton]
                omega

/-! ## What fits -/

/-- A reference that can be read stands in front of the first specifier that is valid. -/
def earlyReference : List (Piece ν) → Bool
  | [] | .valid _ _ :: _ => false
  | .reference (some _) :: _ => true
  | _ :: ps => earlyReference ps

theorem usedDecimals_eq_iff (x y : ℕ) (ps : List (Piece ν)) :
    usedDecimals x ps = usedDecimals y ps ↔ (earlyReference ps = true → x = y) := by
  induction ps with
  | nil => exact iff_of_true rfl nofun
  | cons p ps ih =>
      cases p with
      | text | invalid len => exact ih
      | valid len decimals => exact iff_of_true rfl nofun
      | reference value =>
          cases value with
          | none => exact ih
          | some value =>
              rw [usedDecimals, usedDecimals, List.cons.injEq]
              refine ⟨fun h _ => h.1, fun h => ?_⟩
              rw [h rfl]
              exact ⟨rfl, rfl⟩

theorem plainLength_congr {x y : ℕ} {ps : List (Piece ν)} (h : earlyReference ps = true → x = y) :
    plainLength P x ps = plainLength P y ps := by
  induction ps with
  | nil => rfl
  | cons p ps ih =>
      cases p with
      | text => exact congrArg (· + 1) (ih h)
      | invalid len => exact ih h
      | valid len decimals => rfl
      | reference value =>
          cases value with
          | none => exact congrArg (· + 3) (ih h)
          | some value => rw [h rfl]

/-- The pieces of a line, behind its leading spaces. -/
def linePieces (d : ℕ) (line : List Char) : List (Piece ν) := (pieces P 0 d (line.dropWhile (· = ' '))).1

def EndsOutside (d : ℕ) (line : List Char) : Prop := (pieces P 0 d (line.dropWhile (· = ' '))).2.1 = 0

/-- Both passes end at the terminator, what is written fits into the memory that has been measured, and the references are
written with the decimals they were measured with. -/
def OutputFits (d : ℕ) (line : List Char) : Prop :=
  ∃ m w, ngcSubstituteParameters P d line = some (m, w) ∧ w.out.length + 1 ≤ m.len + 1 ∧ w.used = m.used

/-- It fits if and only if no reference is read past the terminator, those in front of the first specifier are written with the
decimals of the last one, and the invalid specifiers have no more characters than the valid ones. -/
theorem substitution_fits_iff (d : ℕ) (line : List Char) (hnul : '\x00' ∉ line) (hend : EndsOutside P d line) :
    OutputFits P d line ↔ runsPast P 0 (line.dropWhile (· = ' ')) = false ∧
      (earlyReference (linePieces P d line) = true → lastDecimals P.floatDecimals (linePieces P d line) = P.floatDecimals) ∧
        invalidLength 0 (linePieces P d line) ≤ validLength (linePieces P d line) := by
  have hnul' : '\x00' ∉ line.dropWhile (· = ' ') := fun hmem => hnul ((List.dropWhile_suffix _).subset hmem)
  rw [EndsOutside] at hend
  rw [linePieces, OutputFits, ngcSubstituteParameters]
  generalize line.dropWhile (· = ' ') = s at hnul' hend ⊢
  rw [measure_eq P s.length s _ (Nat.le_refl _) (Nat.zero_le _)]
  cases hpast : runsPast P 0 s with
  | true =>
      constructor
      · rintro ⟨m, w, h, -⟩
        simp at h
      · rintro ⟨⟨⟩, -⟩
  | false =>
      simp only [Bool.false_eq_true, if_false, Measure.after, hend]
      obtain ⟨hps, -⟩ := pieces_congr P s.length s 0 (pieces P 0 d s).2.2 d (Nat.le_refl _) (Nat.zero_le _)
      obtain ⟨w, hwrite, hout, hused⟩ := write_eq P s.length s
        { parseFormat := 0, decimals := lastDecimals P.floatDecimals (pieces P 0 d s).1, d := (pieces P 0 d s).2.2 } 0 (Nat.le_refl _) hnul'
        (Nat.zero_le _) ⟨Nat.zero_le _, fun i => iff_of_false (fun h => h rfl) (Nat.not_lt_zero i)⟩ (Nat.zero_le _) hpast
      dsimp only at hout hused
      rw [hps] at hout hused
      rw [List.nil_append] at hused
      rw [List.length_nil, Nat.zero_add] at hout
      have hearly := usedDecimals_eq_iff (lastDecimals P.floatDecimals (pieces P 0 d s).1) P.floatDecimals (pieces P 0 d s).1
      rw [← hused] at hearly
      constructor
      · rintro ⟨m, w', h, hle, hsame⟩
        simp only [hwrite, Option.bind_eq_bind, Option.bind_some, Option.pure_def, Option.some.injEq, Prod.mk.injEq, List.nil_append] at h
        obtain ⟨rfl, rfl⟩ := h
        have hearly := hearly.1 hsame
        rw [hout, plainLength_congr P hearly] at hle
        exact ⟨trivial, hearly, by dsimp only at hle; omega⟩
      · rintro ⟨-, h, hle⟩
        refine ⟨_, w, by simp only [hwrite, Option.bind_eq_bind, Option.bind_some, Option.pure_def]; rfl, ?_, by simpa using hearly.2 h⟩
        rw [hout, plainLength_congr P h]
        dsimp only
        omega

end

/-! ## Two lines -/

/-- References are one digit, whose value it is, and values are printed with a point. -/
def Example.printer : Printer ℕ where
  read
    | _ :: c :: _ => if c.isDigit then (some (c.toNat - '0'.toNat), 1) else (none, 0)
    | _ => (none, 0)
  ftoa value decimals := Nat.toDigits 10 value ++ '.' :: List.replicate decimals '0'
  floatDecimals := 3

theorem Example.pieces_formats : pieces Example.printer 0 0 ['#', '1', '%', 'x', '%', 'f'] =
    ([.reference (some 1), .invalid 2, .valid 2 3], 0, 0) := by
  simp [pieces, Example.printer, getFormat]

theorem substitution_fits_iff_formats : OutputFits Example.printer 0 ['#', '1', '%', 'x', '%', 'f'] := by
  have hdrop : ['#', '1', '%', 'x', '%', 'f'].dropWhile (· = ' ') = ['#', '1', '%', 'x', '%', 'f'] := by decide
  refine (substitution_fits_iff Example.printer 0 _ (by decide) ?_).2 ⟨?_, fun _ => ?_, ?_⟩
  · rw [EndsOutside, hdrop, Example.pieces_formats]
  · rw [hdrop]
    simp [runsPast, Example.printer, getFormat]
  · rw [linePieces, hdrop, Example.pieces_formats]
    rfl
  · rw [linePieces, hdrop, Example.pieces_formats]
    decide

/-- An invalid specifier is not measured, and a reference in front of the first specifier is written with the decimals of the
last. -/
theorem invalid_format_overruns :
    (∃ m w, ngcSubstituteParameters Example.printer 0 ['%', 'x'] = some (m, w) ∧ m.len + 1 < w.out.length + 1) ∧
      ∃ m w, ngcSubstituteParameters Example.printer 0 ['#', '1', '%', '.', '9', 'f'] = some (m, w) ∧ m.used = [3] ∧ w.used = [9] := by
  refine ⟨⟨_, _, by simp [ngcSubstituteParameters, measure, write, Measure.format, Written.format, getFormat, fmtString,
    List.range_succ]; exact ⟨rfl, rfl⟩, ?_⟩, ⟨_, _, by simp [ngcSubstituteParameters, measure, write, Measure.format, Measure.reference,
      Written.format, Written.reference, Example.printer, getFormat]; exact ⟨rfl, rfl⟩, rfl, rfl⟩⟩
  decide

end Grbl.Ngc
