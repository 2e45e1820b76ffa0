import Mathlib
import Grbl.Ngc.Expr
import Grbl.Lib.OrderedField

/-!
# Numeric identifiers

The number of a parameter or a setting is a `float` that is converted to 16 bits, on three ways with different checks.

* `Casts` : the conversions; `Typed` : a number on a line, and the value that is read for it;
* `readInteger`, `referenceId` : `#n`; `queueWord` : `#n=`; `settingId` : `$n`;
* `Line`, `exec` : the lines, with a trace of what they read or write; `NotAliased` : exactly what the line names is accessed, or nothing;
* `Truncated`, `Casts.Rounded` : the values that are taken for an integer; `Whole` : the numbers that are accepted are such integers;
  `Line.whole_of_exact` : integers that are read exactly are;
* `referenceId_eq_ok`, `queueWords_eq_ok`, `settingNumber_eq_ok` : what is accepted; `notAliased_iff` : every line;
* `ngcReadParameter_spec` : the reader of expressions reads the parameter with that number;
* `wrapped_reference` : a line that reads another parameter.
-/

namespace Grbl.Ngc.Identifiers
open Lib
open scoped Grbl.Lib.OrderedField

section
variable {K : Type} [Field K] [LinearOrder K] [IsStrictOrderedRing K] [FloorRing K]

/-! ## Conversions -/

/-- The conversions of a `float` to integer types, and the bounds of the checks. A number that does not fit becomes anything. -/
structure Casts (K : Type) [Field K] [LinearOrder K] [IsStrictOrderedRing K] [FloorRing K] where
  int32 : K → ℤ
  /-- to `uint32_t`, and stored in an `int32_t` -/
  uint32 : K → ℤ
  uint16 : K → ℕ
  settingId : K → ℕ
  /-- `0.0001f`, `0.9999f` and `0.001f` -/
  tolerance : K
  nearOne : K
  wholeTolerance : K
  int32_eq : ∀ n : ℤ, -2 ^ 31 ≤ n → n < 2 ^ 31 → int32 n = n
  uint32_eq : ∀ n : ℤ, 0 ≤ n → n < 2 ^ 31 → uint32 n = n
  uint16_eq : ∀ x, 0 ≤ x → x < 65536 → uint16 x = ⌊x⌋₊
  settingId_eq : ∀ x, 0 ≤ x → x < 65536 → settingId x = ⌊x⌋₊
  uint16_lt : ∀ x, uint16 x < 65536
  settingId_lt : ∀ x, settingId x < 65536
  tolerance_pos : 0 < tolerance
  tolerance_lt : tolerance < nearOne
  nearOne_lt : nearOne < 1
  wholeTolerance_pos : 0 < wholeTolerance

/-- A number on a line, and the `float` that is read for it: another one when it has too many digits, or when the arithmetic of an
expression is not exact. -/
structure Typed (K : Type) where
  number : K
  value : K

variable (c : Casts K)

/-- The last lines of `ngc_read_integer_value`. -/
def Casts.readInteger (fvalue : K) : Except Status ℤ :=
  let value := c.int32 ⌊fvalue⌋
  if c.nearOne < fvalue - value then .ok (c.uint32 ⌈fvalue⌉)
  else if c.tolerance < fvalue - value then .error .gcodeCommandValueNotInteger
  else .ok value

def Casts.isintf (value : K) : Prop := |value - if value < 0 then (⌈value⌉ : K) else ⌊value⌋| < c.wholeTolerance

instance (value : K) : Decidable (c.isintf value) := by
  unfold Casts.isintf
  infer_instance

/-! ## Lines -/

def ngcNAssignParametersPerBlock : ℕ := 10

/-- A line that refers to a parameter, assigns parameters, or reports or stores a setting. -/
inductive Line (K : Type) [Field K]
  | reference (n : Typed K)
  | assignments (words : List (Typed K × K))
  | report (n : Typed K)
  | store (n : Typed K) (args : List Char)

def Line.typed {K : Type} [Field K] : Line K → List (Typed K)
  | .reference n | .report n | .store n _ => [n]
  | .assignments words => words.map Prod.fst

/-- What is read or written. -/
inductive Access (K : Type)
  | get (id : ℕ)
  | set (id : ℕ) (value : K)
  | report (id : ℕ)
  | store (id : ℕ) (args : List Char)

def Access.number : Access K → ℕ
  | .get id | .set id _ | .report id | .store id _ => id

/-- The settings: the state, and what `settings_store_setting` and `report_grbl_setting` do. -/
structure SettingsHost (σ : Type) where
  store : ℕ → List Char → σ → Option Status × σ
  report : ℕ → σ → Option Status
  /-- idle, alarm, emergency stop or check mode -/
  allowed : σ → Bool

/-- The number of a parameter that is referred to. -/
def referenceId (fvalue : K) (found : ℕ → Bool) : Except Status ℕ :=
  match c.readInteger fvalue with
  | .error e => .error e
  | .ok param =>
      if param < 0 then .error .gcodeValueOutOfRange
      else if found (param % 65536).toNat then .ok (param % 65536).toNat
      else .error .gcodeValueOutOfRange

/-- `#n=value` in a block. -/
def queueWord (queue : List (ℕ × K)) (n value : K) : Except Status (List (ℕ × K)) :=
  if ngcParamIsRw (c.uint16 n) = false then .error .gcodeValueOutOfRange
  else if queue.length < ngcNAssignParametersPerBlock then .ok (queue ++ [(c.uint16 n, value)])
  else .error .badNumberFormat

def queueWords : List (ℕ × K) → List (K × K) → Except Status (List (ℕ × K))
  | queue, [] => .ok queue
  | queue, (n, value) :: words =>
      match queueWord c queue n value with
      | .ok queue => queueWords queue words
      | .error e => .error e

variable {γ μ σ : Type} [DecidableEq γ]

/-- The end of the block: the last assignment comes first. -/
def applyQueue (s : Params γ K μ) (queue : List (ℕ × K)) : Params γ K μ :=
  queue.reverse.foldl (fun s p => (ngcParamSet s p.1 p.2).2) s

def Casts.settingNumber (parameter : K) : Except Status ℕ :=
  if 0 ≤ parameter ∧ c.isintf parameter then .ok (c.settingId parameter) else .error (.code 3)

/-- What a line leaves: the status (`none` is `Status_OK`), the value of a reference, and what has been read or written, in order. -/
structure Outcome (γ K μ σ : Type) where
  status : Option Status
  value : Option K := none
  trace : List (Access K) := []
  params : Params γ K μ
  settings : σ

variable (ro : ReadOnly K) (host : SettingsHost σ) (params : Params γ K μ) (settings : σ)

def refuse (e : Status) : Outcome γ K μ σ := { status := some e, params := params, settings := settings }

def exec : Line K → Outcome γ K μ σ
  | .reference n =>
      match referenceId c n.value fun id => (ngcParamGet ro params id).1 with
      | .ok id =>
          { status := none, value := some (ngcParamGet ro params id).2, trace := [.get id], params := params, settings := settings }
      | .error e => refuse params settings e
  | .assignments words =>
      match queueWords c [] (words.map fun w => (w.1.value, w.2)) with
      | .ok queue =>
          { status := none, trace := queue.reverse.map fun p => .set p.1 p.2, params := applyQueue params queue, settings := settings }
      | .error e => refuse params settings e
  | .report n =>
      if host.allowed settings then
        match c.settingNumber n.value with
        | .ok id => { status := host.report id settings, trace := [.report id], params := params, settings := settings }
        | .error e => refuse params settings e
      else refuse params settings (.code 8)
  | .store n args =>
      if host.allowed settings then
        match c.settingNumber n.value with
        | .ok id =>
            { status := (host.store id args settings).1, trace := [.store id args], params := params
              settings := (host.store id args settings).2 }
        | .error e => refuse params settings e
      else refuse params settings (.code 8)

/-! ## What is read and written -/

def Line.numbers : Line K → List K
  | .reference n | .report n | .store n _ => [n.number]
  | .assignments words => words.reverse.map fun w => w.1.number

/-- The line is refused and nothing is read or written, or exactly what has these numbers is. -/
def Line.NotAliased (line : Line K) : Prop :=
  (∃ e, exec c ro host params settings line = refuse params settings e) ∨
    (exec c ro host params settings line).trace.map (fun a => (a.number : K)) = line.numbers

/-- A value that is converted to `k`: `k` and a fraction, or one that does not fit and happens to become `k`. -/
def Truncated (convert : K → ℕ) (value : K) (k : ℕ) : Prop :=
  (k : K) ≤ value ∧ value < k + 1 ∨ (value < 0 ∨ 65536 ≤ value) ∧ convert value = k

/-- A value that is read as the integer `k`: a little above or below it, or one that does not fit and happens to become `k`. -/
def Casts.Rounded (value : K) (k : ℕ) : Prop :=
  (k : K) ≤ value ∧ value - k ≤ c.tolerance ∨ value < k ∧ c.nearOne < value - (k - 1) ∨
    (value ≤ c.nearOne - 1 ∨ 65535 + c.nearOne < value) ∧
      ∃ param, c.readInteger value = .ok param ∧ 0 ≤ param ∧ (param % 65536).toNat = k

/-- Numbers that are accepted are integers that fit in 16 bits, and the values read for them are taken for these. -/
def Line.Whole : Line K → Prop
  | .reference n =>
      ∀ param, c.readInteger n.value = .ok param → 0 ≤ param → (ngcParamGet ro params (param % 65536).toNat).1 = true →
        ∃ k : ℕ, k < 65536 ∧ n.number = k ∧ c.Rounded n.value k
  | .assignments words =>
      words.length ≤ ngcNAssignParametersPerBlock → (∀ w ∈ words, ngcParamIsRw (c.uint16 w.1.value) = true) →
        ∀ w ∈ words, ∃ k : ℕ, k < 65536 ∧ w.1.number = k ∧ Truncated c.uint16 w.1.value k
  | .report n | .store n _ =>
      host.allowed settings = true → 0 ≤ n.value → c.isintf n.value →
        ∃ k : ℕ, k < 65536 ∧ n.number = k ∧ Truncated c.settingId n.value k

/-! ## Numbers -/

omit [DecidableEq γ] in
theorem refuse_trace (e : Status) : (refuse params settings e).trace = [] := rfl

theorem truncated_iff {convert : K → ℕ} (heq : ∀ x, 0 ≤ x → x < 65536 → convert x = ⌊x⌋₊) {value : K} {k : ℕ} (hk : k < 65536) :
    Truncated convert value k ↔ convert value = k := by
  have hk' : (k : K) + 1 ≤ 65536 := by exact_mod_cast hk
  by_cases hfar : value < 0 ∨ 65536 ≤ value
  · constructor
    · rintro (⟨hle, hlt⟩ | ⟨-, h⟩)
      · have hpos := Nat.cast_nonneg (α := K) k
        rcases hfar with hneg | hlarge
        · exact absurd hneg (not_lt.2 (hpos.trans hle))
        · exact absurd hlarge (not_le.2 (hlt.trans_le hk'))
      · exact h
    · exact fun h => .inr ⟨hfar, h⟩
  · have hrange := not_or.1 hfar
    rw [Truncated, or_iff_left (fun h => hfar h.1), heq value (not_lt.1 hrange.1) (not_le.1 hrange.2),
      Nat.floor_eq_iff (not_lt.1 hrange.1)]

theorem Casts.readInteger_eq_ok {value : K} (hlow : c.nearOne - 1 < value) (hhigh : value ≤ 65535 + c.nearOne) {param : ℤ}
    (hread : c.readInteger value = .ok param) :
    param = ⌊value⌋ ∧ value - ⌊value⌋ ≤ c.tolerance ∧ param < 65536 ∨
      param = ⌊value⌋ + 1 ∧ c.nearOne < value - ⌊value⌋ ∧ param < 65536 := by
  have hnear := c.nearOne_lt
  have hpos := c.tolerance_pos.trans c.tolerance_lt
  have hm := Int.floor_le value
  have hm1 := Int.lt_floor_add_one value
  have hfloor : -1 ≤ ⌊value⌋ := Int.le_floor.2 (by push_cast; linarith)
  have htop : ⌊value⌋ < 65536 := Int.floor_lt.2 (by push_cast; linarith)
  have hint : c.int32 ((⌊value⌋ : ℤ) : K) = ⌊value⌋ := c.int32_eq _ (by omega) (by omega)
  rw [Casts.readInteger, hint] at hread
  split at hread
  · rename_i hup
    have hceil : ⌈value⌉ = ⌊value⌋ + 1 := Int.ceil_eq_iff.2 ⟨by push_cast; linarith, by push_cast; linarith⟩
    have hlt : ⌊value⌋ < 65535 := by
      by_contra hge
      have hge' : (65535 : K) ≤ ⌊value⌋ := by exact_mod_cast not_lt.1 hge
      linarith
    rw [hceil, c.uint32_eq _ (by omega) (by omega)] at hread
    cases hread
    exact .inr ⟨rfl, hup, by omega⟩
  · split at hread
    · cases hread
    · rename_i hnot
      cases hread
      exact .inl ⟨rfl, not_lt.1 hnot, htop⟩

theorem Casts.rounded_iff {value : K} {param : ℤ} (hread : c.readInteger value = .ok param) (hpos : 0 ≤ param) {k : ℕ} (hk : k < 65536) :
    c.Rounded value k ↔ (param % 65536).toNat = k := by
  have hnear := c.nearOne_lt
  have htol := c.tolerance_lt
  have hzero := c.tolerance_pos
  have hk0 := Nat.cast_nonneg (α := K) k
  have hk' : (k : K) ≤ 65535 := by exact_mod_cast Nat.le_of_lt_succ hk
  by_cases hfar : value ≤ c.nearOne - 1 ∨ 65535 + c.nearOne < value
  · constructor
    · rintro (⟨hle, hlt⟩ | ⟨hlt, hgt⟩ | ⟨-, param', hread', -, h⟩)
      · rcases hfar with h | h <;> linarith
      · rcases hfar with h | h <;> linarith
      · rw [hread] at hread'
        cases hread'
        exact h
    · exact fun h => .inr (.inr ⟨hfar, param, hread, hpos, h⟩)
  · have hrange := not_or.1 hfar
    have hm := Int.floor_le value
    have hm1 := Int.lt_floor_add_one value
    have hbelow : (k : K) ≤ value ∧ value - k ≤ c.tolerance ↔ ⌊value⌋ = k ∧ value - ⌊value⌋ ≤ c.tolerance := by
      constructor
      · rintro ⟨hle, hlt⟩
        have hfloor : ⌊value⌋ = k := Int.floor_eq_iff.2 ⟨by push_cast; exact hle, by push_cast; linarith⟩
        refine ⟨hfloor, ?_⟩
        rw [hfloor, Int.cast_natCast]
        exact hlt
      · rintro ⟨hfloor, hlt⟩
        rw [hfloor, Int.cast_natCast] at hm hlt
        exact ⟨hm, hlt⟩
    have habove : value < k ∧ c.nearOne < value - (k - 1) ↔ ⌊value⌋ + 1 = k ∧ c.nearOne < value - ⌊value⌋ := by
      constructor
      · rintro ⟨hlt, hgt⟩
        have hfloor : ⌊value⌋ = k - 1 := Int.floor_eq_iff.2 ⟨by push_cast; linarith, by push_cast; linarith⟩
        refine ⟨by omega, ?_⟩
        rw [hfloor]
        push_cast
        exact hgt
      · rintro ⟨hfloor, hgt⟩
        have hcast : (⌊value⌋ : K) + 1 = k := by exact_mod_cast hfloor
        exact ⟨by linarith, by linarith⟩
    rw [Casts.Rounded, or_iff_left (b := _ ∧ ∃ _, _) fun h => hfar h.1, hbelow, habove]
    rcases c.readInteger_eq_ok (not_le.1 hrange.1) (not_lt.1 hrange.2) hread with ⟨hparam, hle, hlt⟩ | ⟨hparam, hgt, hlt⟩
    · have hnot : ¬ c.nearOne < value - ⌊value⌋ := by linarith
      constructor
      · rintro (⟨h, -⟩ | ⟨-, h⟩)
        · omega
        · exact absurd h hnot
      · exact fun h => .inl ⟨by omega, hle⟩
    · have hnot : ¬ value - ⌊value⌋ ≤ c.tolerance := by linarith
      constructor
      · rintro (⟨-, h⟩ | ⟨h, -⟩)
        · exact absurd h hnot
        · omega
      · exact fun h => .inr ⟨by omega, hgt⟩

theorem truncated_natCast (convert : K → ℕ) (k : ℕ) : Truncated convert (k : K) k := .inl ⟨le_rfl, lt_add_one _⟩

theorem Casts.rounded_natCast (k : ℕ) : c.Rounded (k : K) k :=
  .inl ⟨le_rfl, by rw [sub_self]; exact c.tolerance_pos.le⟩

theorem Line.whole_of_exact {line : Line K} (h : ∀ n ∈ line.typed, ∃ k : ℕ, k < 65536 ∧ n.number = k ∧ n.value = k) :
    line.Whole c ro host params settings := by
  cases line with
  | reference n =>
      obtain ⟨k, hk, hn, hv⟩ := h n List.mem_cons_self
      exact fun _ _ _ _ => ⟨k, hk, hn, hv ▸ c.rounded_natCast k⟩
  | assignments words =>
      intro _ _ w hw
      obtain ⟨k, hk, hn, hv⟩ := h w.1 (List.mem_map_of_mem hw)
      exact ⟨k, hk, hn, hv ▸ truncated_natCast c.uint16 k⟩
  | report n =>
      obtain ⟨k, hk, hn, hv⟩ := h n List.mem_cons_self
      exact fun _ _ _ => ⟨k, hk, hn, hv ▸ truncated_natCast c.settingId k⟩
  | store n =>
      obtain ⟨k, hk, hn, hv⟩ := h n List.mem_cons_self
      exact fun _ _ _ => ⟨k, hk, hn, hv ▸ truncated_natCast c.settingId k⟩

theorem referenceId_eq_ok {fvalue : K} {found : ℕ → Bool} {id : ℕ} :
    referenceId c fvalue found = .ok id ↔
      ∃ param, c.readInteger fvalue = .ok param ∧ 0 ≤ param ∧ found (param % 65536).toNat = true ∧ (param % 65536).toNat = id := by
  unfold referenceId
  cases hread : c.readInteger fvalue with
  | error e => exact iff_of_false nofun fun ⟨_, h, _⟩ => nomatch h
  | ok param =>
      dsimp only
      constructor
      · intro h
        split at h
        · cases h
        · rename_i hneg
          split at h
          · rename_i hfound
            exact ⟨param, rfl, not_lt.1 hneg, hfound, Except.ok.inj h⟩
          · cases h
      · rintro ⟨_, hparam, hneg, hfound, hid⟩
        cases hparam
        rw [if_neg (not_lt.2 hneg), if_pos hfound, hid]

theorem Casts.settingNumber_eq_ok {parameter : K} {id : ℕ} :
    c.settingNumber parameter = .ok id ↔ (0 ≤ parameter ∧ c.isintf parameter) ∧ c.settingId parameter = id := by
  unfold Casts.settingNumber
  split
  · rename_i h
    rw [and_iff_right h]
    exact ⟨Except.ok.inj, congrArg _⟩
  · rename_i h
    exact iff_of_false nofun fun h' => h h'.1

/-! ## Lines with one number -/

theorem notAliased_one_iff {line : Line K} {x : K} (hnumbers : line.numbers = [x]) {r : Except Status ℕ} (access : ℕ → Access K)
    (haccess : ∀ id, (access id).number = id) (hok : ∀ id, r = .ok id → (exec c ro host params settings line).trace = [access id])
    (herror : ∀ e, r = .error e → exec c ro host params settings line = refuse params settings e) :
    line.NotAliased c ro host params settings ↔ ∀ id, r = .ok id → (id : K) = x := by
  unfold Line.NotAliased
  cases r with
  | error e => exact iff_of_true (.inl ⟨e, herror e rfl⟩) nofun
  | ok id =>
      have htrace := hok id rfl
      constructor
      · rintro (⟨e, he⟩ | h) id' hid'
        · rw [he, refuse_trace] at htrace
          cases htrace
        · cases hid'
          rw [htrace, hnumbers, List.map_singleton, haccess] at h
          exact List.singleton_inj.1 h
      · intro h
        right
        rw [htrace, hnumbers, List.map_singleton, haccess, h id rfl]

theorem notAliased_reference_iff (n : Typed K) :
    (Line.reference n).NotAliased c ro host params settings ↔
      ∀ id, referenceId c n.value (fun id => (ngcParamGet ro params id).1) = .ok id → (id : K) = n.number := by
  refine notAliased_one_iff c ro host params settings rfl .get (fun _ => rfl) (fun id hid => ?_) fun e he => ?_
  · rw [exec, hid]
  · rw [exec, he]

theorem notAliased_report_iff (n : Typed K) :
    (Line.report n).NotAliased c ro host params settings ↔
      ∀ id, (if host.allowed settings then c.settingNumber n.value else .error (.code 8)) = .ok id → (id : K) = n.number := by
  refine notAliased_one_iff c ro host params settings rfl .report (fun _ => rfl) (fun id hid => ?_) fun e he => ?_
  · split at hid
    · rename_i hallowed
      rw [exec, if_pos hallowed, hid]
    · cases hid
  · rw [exec]
    split at he
    · rename_i hallowed
      rw [if_pos hallowed, he]
    · rename_i hallowed
      cases he
      rw [if_neg hallowed]

theorem notAliased_store_iff (n : Typed K) (args : List Char) :
    (Line.store n args).NotAliased c ro host params settings ↔
      ∀ id, (if host.allowed settings then c.settingNumber n.value else .error (.code 8)) = .ok id → (id : K) = n.number := by
  refine notAliased_one_iff c ro host params settings rfl (fun id => .store id args) (fun _ => rfl) (fun id hid => ?_)
    fun e he => ?_
  · split at hid
    · rename_i hallowed
      rw [exec, if_pos hallowed, hid]
    · cases hid
  · rw [exec]
    split at he
    · rename_i hallowed
      rw [if_pos hallowed, he]
    · rename_i hallowed
      cases he
      rw [if_neg hallowed]

theorem settingNumber_exact_iff (n : Typed K) (allowed : Bool) :
    (∀ id, (if allowed then c.settingNumber n.value else .error (.code 8)) = .ok id → (id : K) = n.number) ↔
      (allowed = true → 0 ≤ n.value → c.isintf n.value →
        ∃ k : ℕ, k < 65536 ∧ n.number = k ∧ Truncated c.settingId n.value k) := by
  constructor
  · intro h hallowed hpos hint
    have hlt := c.settingId_lt n.value
    refine ⟨c.settingId n.value, hlt, (h _ ?_).symm, (truncated_iff c.settingId_eq hlt).2 rfl⟩
    rw [if_pos hallowed, c.settingNumber_eq_ok]
    exact ⟨⟨hpos, hint⟩, rfl⟩
  · intro h id hid
    split at hid
    · rename_i hallowed
      obtain ⟨⟨hpos, hint⟩, hid⟩ := (c.settingNumber_eq_ok).1 hid
      obtain ⟨k, hk, hn, hv⟩ := h hallowed hpos hint
      rw [← hid, (truncated_iff c.settingId_eq hk).1 hv, hn]
    · cases hid

/-! ## Assignments -/

theorem queueWord_eq_ok {queue queue' : List (ℕ × K)} {n value : K} :
    queueWord c queue n value = .ok queue' ↔
      ngcParamIsRw (c.uint16 n) = true ∧ queue.length < ngcNAssignParametersPerBlock ∧ queue ++ [(c.uint16 n, value)] = queue' := by
  unfold queueWord
  split
  · rename_i h
    exact iff_of_false nofun fun h' => by rw [h] at h'; exact nomatch h'.1
  · rename_i h
    rw [and_iff_right (by simpa using h)]
    split
    · rename_i hroom
      rw [and_iff_right hroom]
      exact ⟨Except.ok.inj, congrArg _⟩
    · rename_i hroom
      exact iff_of_false nofun fun h' => hroom h'.1

theorem queueWords_eq_ok {queue queue' : List (ℕ × K)} {words : List (K × K)} :
    queueWords c queue words = .ok queue' ↔
      (∀ w ∈ words, ngcParamIsRw (c.uint16 w.1) = true) ∧ (words = [] ∨ queue.length + words.length ≤ ngcNAssignParametersPerBlock) ∧
        queue ++ (words.map fun w => (c.uint16 w.1, w.2)) = queue' := by
  induction words generalizing queue with
  | nil =>
      rw [queueWords, List.map_nil, List.append_nil, and_iff_right (fun w hw => absurd hw List.not_mem_nil), and_iff_right (.inl rfl)]
      exact ⟨Except.ok.inj, congrArg _⟩
  | cons w words ih =>
      obtain ⟨n, value⟩ := w
      rw [queueWords]
      cases hword : queueWord c queue n value with
      | error e =>
          refine iff_of_false nofun fun ⟨hrw, hroom, _⟩ => ?_
          have hroom' : queue.length < ngcNAssignParametersPerBlock := by
            rcases hroom with h | h
            · cases h
            · rw [List.length_cons] at h
              omega
          have haccepted : queueWord c queue n value = .ok (queue ++ [(c.uint16 n, value)]) :=
            (queueWord_eq_ok c).2 ⟨hrw _ List.mem_cons_self, hroom', rfl⟩
          rw [hword] at haccepted
          cases haccepted
      | ok queue₁ =>
          obtain ⟨hrw, hroom, rfl⟩ := (queueWord_eq_ok c).1 hword
          dsimp only
          rw [ih, List.map_cons, List.append_assoc, List.singleton_append, List.length_append, List.length_singleton, List.length_cons,
            List.forall_mem_cons, and_iff_right (show ngcParamIsRw (c.uint16 (n, value).1) = true from hrw)]
          refine and_congr_right fun _ => and_congr_left fun _ => ?_
          constructor
          · rintro (rfl | h)
            · right
              rw [List.length_nil]
              omega
            · right
              omega
          · rintro (h | h)
            · cases h
            · right
              omega

theorem notAliased_assignments_iff (words : List (Typed K × K)) :
    (Line.assignments words).NotAliased c ro host params settings ↔ (Line.assignments words).Whole c ro host params settings := by
  have hok : ∀ queue, queueWords c [] (words.map fun w => (w.1.value, w.2)) = .ok queue ↔
      (∀ w ∈ words, ngcParamIsRw (c.uint16 w.1.value) = true) ∧ words.length ≤ ngcNAssignParametersPerBlock ∧
        (words.map fun w => (c.uint16 w.1.value, w.2)) = queue := by
    intro queue
    rw [queueWords_eq_ok, List.forall_mem_map, List.length_map, List.length_nil, Nat.zero_add, List.nil_append, List.map_map]
    refine and_congr_right fun _ => and_congr ?_ Iff.rfl
    rw [List.map_eq_nil_iff]
    exact or_iff_right_of_imp fun h => by rw [h]; exact Nat.zero_le _
  unfold Line.NotAliased Line.Whole
  dsimp only
  cases hqueue : queueWords c [] (words.map fun w => (w.1.value, w.2)) with
  | error e =>
      refine iff_of_true (.inl ⟨e, ?_⟩) fun hroom hrw => ?_
      · rw [exec, hqueue]
      · have := (hok _).2 ⟨hrw, hroom, rfl⟩
        rw [hqueue] at this
        cases this
  | ok queue =>
      obtain ⟨hrw, hroom, rfl⟩ := (hok queue).1 hqueue
      have htrace : (exec c ro host params settings (.assignments words)).trace.map (fun a => (a.number : K)) =
          words.reverse.map fun w => (c.uint16 w.1.value : K) := by
        rw [exec, hqueue, List.map_map, ← List.map_reverse, List.map_map]
        rfl
      have hstatus : (exec c ro host params settings (.assignments words)).status = none := by
        rw [exec, hqueue]
      rw [or_iff_right (fun ⟨e, he⟩ => by rw [he] at hstatus; cases hstatus), htrace]
      constructor
      · intro h _ _ w hw
        have heach := List.map_inj_left.1 h w (List.mem_reverse.2 hw)
        have hlt := c.uint16_lt w.1.value
        exact ⟨_, hlt, heach.symm, (truncated_iff c.uint16_eq hlt).2 rfl⟩
      · intro h
        refine List.map_congr_left fun w hw => ?_
        obtain ⟨k, hk, hn, hv⟩ := h hroom hrw w (List.mem_reverse.1 hw)
        rw [(truncated_iff c.uint16_eq hk).1 hv, hn]

/-- A line reads or writes exactly what it names, or is refused, exactly if the numbers that are accepted are integers that fit and are
taken for themselves. -/
theorem notAliased_iff (line : Line K) :
    line.NotAliased c ro host params settings ↔ line.Whole c ro host params settings := by
  cases line with
  | reference n =>
      rw [notAliased_reference_iff]
      constructor
      · intro h param hread hpos hfound
        have hlt : (param % 65536).toNat < 65536 := by omega
        exact ⟨_, hlt, (h _ ((referenceId_eq_ok c).2 ⟨param, hread, hpos, hfound, rfl⟩)).symm, (c.rounded_iff hread hpos hlt).2 rfl⟩
      · intro h id hid
        obtain ⟨param, hread, hpos, hfound, rfl⟩ := (referenceId_eq_ok c).1 hid
        obtain ⟨k, hk, hn, hv⟩ := h param hread hpos hfound
        rw [(c.rounded_iff hread hpos hk).1 hv, hn]
  | assignments words => exact notAliased_assignments_iff c ro host params settings words
  | report n => exact (notAliased_report_iff c ro host params settings n).trans (settingNumber_exact_iff c n _)
  | store n args => exact (notAliased_store_iff c ro host params settings n args).trans (settingNumber_exact_iff c n _)

theorem ngcReadParameter_number {A : Arith K} {H : Host K} (rd : Reader K) {s : List Char} (hs : s.head? ≠ some '<') (old : K) :
    ngcReadParameter A H rd ('#' :: s) old = (ngcReadIntegerValue A H rd s).map fun
      | .error e => ⟨some e, old, s⟩
      | .ok (param, rest) => paramValue A H param old rest := by
  unfold ngcReadParameter
  split
  · rename_i heq
    rw [(List.cons.inj heq).2] at hs
    exact absurd rfl hs
  · rename_i heq
    cases heq
    rfl
  · rename_i hne
    exact absurd rfl (hne s)

/-- `ngc_read_parameter` of a line reads the parameter with that number. -/
theorem ngcReadParameter_spec {A : Arith K} (hA : ∀ v, A.toInteger v = c.readInteger v) {H : Host K} {rd : Reader K} {s : List Char}
    (hs : s.head? ≠ some '<') (old : K) {r : Read K} (hread : rd s (H.uninit s) = some r) (hok : r.status = none) :
    ∃ out, ngcReadParameter A H rd ('#' :: s) old = some out ∧
      match referenceId c r.value fun id => (H.param id).isSome with
      | .ok id => out.status = none ∧ H.param id = some out.value
      | .error e => out.status = some e := by
  have hparameter := ngcReadParameter_number (A := A) (H := H) rd hs old
  have hinteger : ngcReadIntegerValue A H rd s = some ((c.readInteger r.value).map fun i => (i, r.rest)) := by
    rw [ngcReadIntegerValue, hread, Option.map_some, hok, hA]
  rw [hparameter, hinteger, Option.map_some, referenceId]
  cases c.readInteger r.value with
  | error e => exact ⟨_, rfl, rfl⟩
  | ok param =>
      refine ⟨_, rfl, ?_⟩
      change match (if param < 0 then Except.error Status.gcodeValueOutOfRange else if (H.param (param % 65536).toNat).isSome = true then
          .ok (param % 65536).toNat else .error .gcodeValueOutOfRange) with
        | .ok id => (paramValue A H param old r.rest).status = none ∧ H.param id = some (paramValue A H param old r.rest).value
        | .error e => (paramValue A H param old r.rest).status = some e
      unfold paramValue
      by_cases hneg : param < 0
      · rw [if_pos hneg, if_pos hneg]
      · rw [if_neg hneg, if_neg hneg]
        cases hparam : H.param (param % 65536).toNat with
        | none => rfl
        | some value => exact ⟨rfl, hparam⟩

end

/-! ## Runs -/

/-- Conversions that wrap around. -/
def wrapping : Casts ℚ where
  int32 x := ⌊x⌋
  uint32 x := ⌊x⌋
  uint16 x := (⌊x⌋ % 65536).toNat
  settingId x := (⌊x⌋ % 65536).toNat
  tolerance := 1 / 10000
  nearOne := 9999 / 10000
  wholeTolerance := 1 / 1000
  int32_eq n _ _ := Int.floor_intCast n
  uint32_eq n _ _ := Int.floor_intCast n
  uint16_eq x hpos hlt := by
    rw [Int.emod_eq_of_lt (Int.floor_nonneg.2 hpos) (Int.floor_lt.2 (by exact_mod_cast hlt)), Int.floor_toNat]
  settingId_eq x hpos hlt := by
    rw [Int.emod_eq_of_lt (Int.floor_nonneg.2 hpos) (Int.floor_lt.2 (by exact_mod_cast hlt)), Int.floor_toNat]
  uint16_lt x := by omega
  settingId_lt x := by omega
  tolerance_pos := by norm_num
  tolerance_lt := by norm_num
  nearOne_lt := by norm_num
  wholeTolerance_pos := by norm_num

/-- An integer, read exactly. -/
def typed (n : ℕ) : Typed ℚ := ⟨n, n⟩

/-- Settings that take everything. -/
def anySettings : SettingsHost Unit where
  store _ _ s := (none, s)
  report _ _ := none
  allowed _ := true

/-- `#5=2` writes parameter 5. -/
theorem notAliased_iff_five : (Line.assignments [(typed 5, 2)]).NotAliased wrapping ⟨fun _ => 0, fun _ => 0⟩ anySettings
      ({} : Params Unit ℚ Unit) () ↔
    (Line.assignments [(typed 5, 2)]).Whole wrapping ⟨fun _ => 0, fun _ => 0⟩ anySettings ({} : Params Unit ℚ Unit) () :=
  notAliased_iff wrapping _ anySettings _ () _

/-- `#65537` reads parameter 1. -/
theorem wrapped_reference : ¬ ∀ (c : Casts ℚ) (ro : ReadOnly ℚ) (host : SettingsHost Unit) (params : Params Unit ℚ Unit) (line : Line ℚ),
    line.NotAliased c ro host params () := by
  intro h
  have hexact := (notAliased_reference_iff wrapping ⟨fun _ => 0, fun _ => 0⟩ anySettings {} () (typed 65537)).1 (h ..)
  have hone := hexact 1 ((referenceId_eq_ok wrapping).2 ⟨65537, by decide +kernel, by norm_num, by decide +kernel, rfl⟩)
  norm_num [typed] at hone

end Grbl.Ngc.Identifiers
