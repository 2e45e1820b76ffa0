import Mathlib
import Grbl.Cycles.Threading
import Grbl.Lib.OrderedField

/-!
# The passes of a thread

What `mc_thread` cuts, pass by pass, and when it ends.

* `threading_ok` : what the checks of G76 promise;
* `Degression` : what is assumed of `powf`; `docAt`, `FullDepth` : the depth of a pass, the first one at full depth;
* `countPasses_eq`, `countPasses_none` : the loop that counts the passes;
* `PassOk`, `threadPass_ok`, `threadLoop_ok` : a pass, and the loop over them;
* `Threads`, `threads_iff` : the thread is cut as it should be exactly if its passes can be counted; `passes_not_counted`.
-/

namespace Grbl.Cycles
open Function (update)
open scoped Grbl.Lib.Literal Grbl.Lib.OrderedField

section
variable {K : Type*} [Field K] [LinearOrder K] {b : ThreadBlock K} {position : Axis → K} {th th' : ThreadData K}

/-- The data of a thread that is accepted: less than the full depth at first, into the work or out of it. -/
structure Accepted (th : ThreadData K) : Prop where
  initialDepth_pos : 0 < th.initialDepth
  initialDepth_lt : th.initialDepth < th.depth
  cutDirection : th.cutDirection = 1 ∨ th.cutDirection = -1

variable [IsStrictOrderedRing K]

theorem words_accepted (th : ThreadData K) (hj : 0 < b.j) (hk : b.j < b.k) : Accepted (th.words b) := by
  have hunits : 0 < b.units := by
    unfold ThreadBlock.units
    refine div_pos ?_ ?_ <;> split <;> norm_num
  have hdepths : (th.words b).initialDepth = b.j * b.units ∧ (th.words b).depth = b.k * b.units ∧
      (th.words b).cutDirection = if b.i < 0 then -1 else 1 := by
    unfold ThreadData.words
    dsimp only
    split_ifs <;> exact ⟨rfl, rfl, rfl⟩
  obtain ⟨hinitial, hdepth, hdirection⟩ := hdepths
  refine ⟨?_, ?_, ?_⟩
  · rw [hinitial]
    exact mul_pos hj hunits
  · rw [hinitial, hdepth]
    exact mul_lt_mul_of_pos_right hk hunits
  · rw [hdirection]
    split
    · exact .inr rfl
    · exact .inl rfl

omit [Field K] [LinearOrder K] [IsStrictOrderedRing K] in
theorem check_passed {p : Prop} [Decidable p] {e : Status} {x : ThreadData K × Except Status Unit}
    (h : (if p then (th, .error e) else x) = (th', .ok ())) : ¬p ∧ x = (th', .ok ()) := by
  by_cases hp : p
  · rw [if_pos hp] at h
    exact nomatch congrArg Prod.snd h
  · rw [if_neg hp] at h
    exact ⟨hp, h⟩

theorem threading_ok (h : threading b position th = (th', .ok ())) : Accepted th' := by
  unfold threading at h
  obtain ⟨-, h⟩ := check_passed h
  obtain ⟨-, h⟩ := check_passed h
  obtain ⟨-, h⟩ := check_passed h
  obtain ⟨-, h⟩ := check_passed h
  obtain ⟨-, h⟩ := check_passed h
  obtain ⟨hneg, h⟩ := check_passed h
  obtain ⟨hrange, h⟩ := check_passed h
  obtain ⟨-, h⟩ := check_passed h
  simp only [not_or, not_lt, not_le] at hneg hrange
  have hwords := words_accepted (if b.change then .start else th) (lt_of_le_of_ne hneg.2.1 (Ne.symm hrange.2.1)) hrange.2.2.1
  obtain ⟨-, h⟩ := check_passed h
  obtain ⟨rfl, -⟩ := Prod.mk.inj h
  split_ifs at hwords ⊢ <;> exact ⟨hwords.1, hwords.2, hwords.3⟩

end

/-! ## The number of passes -/

section
variable {K : Type*} [Field K] [LinearOrder K] {powf : K → K → K} {tanf : K → K} {th : ThreadData K} {n : ℕ}

/-- `powf` with the degression of the thread: 1 at 1, increasing, and unbounded. -/
structure Degression (powf : K → K → K) (th : ThreadData K) : Prop where
  one : powf ((1 : ℕ) : K) (1 / th.depthDegression) = 1
  strictMono : StrictMono fun p : ℕ => powf p (1 / th.depthDegression)
  unbounded : ∀ x, ∃ p : ℕ, x ≤ powf p (1 / th.depthDegression)

def passDepth (powf : K → K → K) (th : ThreadData K) (k : ℕ) : K := calcThreadDoc powf k th.initialDepth (1 / th.depthDegression)

def docAt (powf : K → K → K) (th : ThreadData K) (k : ℕ) : K := min (passDepth powf th k) th.depth

/-- The first pass that would reach the full depth. -/
def FullDepth (powf : K → K → K) (th : ThreadData K) (n : ℕ) : Prop := IsLeast {p : ℕ | th.depth ≤ passDepth powf th p} n

theorem FullDepth.lt (h : FullDepth powf th n) {k : ℕ} (hk : k < n) : passDepth powf th k < th.depth :=
  not_le.1 fun hle => hk.not_ge (h.2 hle)

theorem countPasses_eq (h : FullDepth powf th n) (hn : n < counterMod) (d : ℕ) :
    ∀ p, p + (d + 1) = n → countPasses powf th (d + 1) p = some n := by
  induction d with
  | zero =>
      intro p hp
      rw [countPasses, Nat.mod_eq_of_lt (hp ▸ hn), hp]
      exact if_neg h.1.not_gt
  | succ d ih =>
      intro p hp
      have hlt : p + 1 < n := by omega
      rw [countPasses, Nat.mod_eq_of_lt (hlt.trans hn)]
      refine (if_pos (h.lt hlt)).trans (ih _ (by omega))

/-- No value of the counter reaches the full depth: the loop does not end. -/
theorem countPasses_none (h : FullDepth powf th n) (hn : counterMod ≤ n) (fuel : ℕ) : ∀ p, countPasses powf th fuel p = none := by
  induction fuel with
  | zero => exact fun _ => rfl
  | succ fuel ih =>
      intro p
      have hlt : (p + 1) % counterMod < n := (Nat.mod_lt _ (by decide)).trans_le hn
      exact (if_pos (h.lt hlt)).trans (ih _)

variable [IsStrictOrderedRing K]

theorem passDepth_strictMono (hth : Accepted th) (hpow : Degression powf th) : StrictMono (passDepth powf th) :=
  fun _ _ h => mul_lt_mul_of_pos_left (hpow.strictMono h) hth.initialDepth_pos

omit [IsStrictOrderedRing K] in
theorem passDepth_one (hpow : Degression powf th) : passDepth powf th 1 = th.initialDepth := by
  rw [passDepth, calcThreadDoc, hpow.one, mul_one]

omit [IsStrictOrderedRing K] in
theorem docAt_one (hth : Accepted th) (hpow : Degression powf th) : docAt powf th 1 = th.initialDepth := by
  rw [docAt, passDepth_one hpow, min_eq_left hth.initialDepth_lt.le]

theorem one_lt_fullDepth (hth : Accepted th) (hpow : Degression powf th) (h : FullDepth powf th n) : 1 < n := by
  by_contra hle
  have hdepth : th.depth ≤ passDepth powf th 1 := h.1.trans ((passDepth_strictMono hth hpow).monotone (not_lt.1 hle))
  rw [passDepth_one hpow] at hdepth
  exact hdepth.not_gt hth.initialDepth_lt

theorem docAt_mono (hth : Accepted th) (hpow : Degression powf th) : Monotone (docAt powf th) :=
  fun _ _ h => min_le_min_right _ ((passDepth_strictMono hth hpow).monotone h)

omit [IsStrictOrderedRing K] in
theorem docAt_le (k : ℕ) : docAt powf th k ≤ th.depth := min_le_right _ _

theorem docAt_eq (hth : Accepted th) (hpow : Degression powf th) (h : FullDepth powf th n) {k : ℕ} (hk : n ≤ k) : docAt powf th k = th.depth :=
  min_eq_right (h.1.trans ((passDepth_strictMono hth hpow).monotone hk))

end

/-! ## The passes -/

section
variable {K : Type*} [Field K] [LinearOrder K] {powf : K → K → K} {tanf : K → K} {th : ThreadData K} {position : Axis → K} {n : ℕ}

def slide (th : ThreadData K) (position : Axis → K) (infeed doc : K) : K := position .z + (th.depth - doc) * infeed

/-- A pass at a depth: it cuts from the start of the slide over the length of the thread, the part between the tapers at that depth
and none of it deeper; on the way back in Z it is clear of the work. -/
structure PassOk (th : ThreadData K) (position : Axis → K) (s : Setup K) (doc : K) (p : Pass K) : Prop where
  rapid : ∀ m ∈ p.enter ++ p.leave, m.rapid = true
  feed : ∀ m ∈ p.cut, m.rapid = false
  starts : ∃ m, p.cut.head? = some m ∧ m.src .z = slide th position s.infeedFactor doc
  ends : ∃ m, p.cut.getLast? = some m ∧ m.dst .z = slide th position s.infeedFactor doc + (th.zFinal - position .z)
  cuts : ∃ m ∈ p.cut, m.src .x = position .x + (th.peak + doc) * th.cutDirection ∧
    m.dst .x = position .x + (th.peak + doc) * th.cutDirection ∧
    m.src .z = slide th position s.infeedFactor doc - s.entryTaperLength ∧ m.dst .z = m.src .z + s.threadLength
  deepest : ∀ m ∈ p.cut, (m.src .x - position .x) * th.cutDirection ≤ th.peak + doc ∧
    (m.dst .x - position .x) * th.cutDirection ≤ th.peak + doc
  clear : ∀ m ∈ p.leave, m.src .z = m.dst .z ∨ m.src .x = m.dst .x ∧ (m.src .x - position .x) * th.cutDirection ≤ 0

variable [IsStrictOrderedRing K]

omit [IsStrictOrderedRing K] in
theorem setup_startZ (tanf : K → K) (th : ThreadData K) (position : Axis → K) : (setup tanf th position).startZ = position .z + th.depth * (setup tanf th position).infeedFactor := rfl

omit [IsStrictOrderedRing K] in
theorem setup_threadLength (tanf : K → K) (th : ThreadData K) (position : Axis → K) : (setup tanf th position).threadLength =
    th.zFinal - position .z + ((setup tanf th position).entryTaperLength + (setup tanf th position).exitTaperLength) := rfl

omit [IsStrictOrderedRing K] in
theorem setup_entry (tanf : K → K) (position : Axis → K) (h : th.endTaperType.hasEntry = false) : (setup tanf th position).entryTaperLength = 0 := by
  simp [setup, h]

omit [IsStrictOrderedRing K] in
theorem setup_exit (tanf : K → K) (position : Axis → K) (h : th.endTaperType.hasExit = false) : (setup tanf th position).exitTaperLength = 0 := by
  simp [setup, h]

theorem threadPass_ok (hth : Accepted th) {doc : K} (next : Option K) {target : Axis → K} (hnext : ∀ d ∈ next, d ≤ th.depth)
    (hz : target .z = slide th position (setup tanf th position).infeedFactor doc) :
    PassOk th position (setup tanf th position) doc (threadPass th position (setup tanf th position) doc next target).1 := by
  have hdir : th.cutDirection * th.cutDirection = 1 := by
    obtain h | h := hth.cutDirection <;> rw [h] <;> norm_num
  have hdepth : 0 < th.depth := hth.initialDepth_pos.trans hth.initialDepth_lt
  have hlength := setup_threadLength tanf th position
  have hentry (h : th.endTaperType.hasEntry = false) := setup_entry tanf position h
  have hexit (h : th.endTaperType.hasExit = false) := setup_exit tanf position h
  generalize setup tanf th position = s at hz hlength hentry hexit ⊢
  have htop : position .x + (th.peak + doc - th.depth) * th.cutDirection + th.depth * th.cutDirection =
      position .x + (th.peak + doc) * th.cutDirection := by ring
  have hup : (position .x + (th.peak + doc) * th.cutDirection - th.depth * th.cutDirection - position .x) * th.cutDirection ≤
      th.peak + doc := by
    linear_combination (th.peak + doc - th.depth) * hdir + hdepth
  constructor
  · cases next <;> simp [threadPass]
  · cases next <;> cases hen : th.endTaperType.hasEntry <;> cases hex : th.endTaperType.hasExit <;> simp [threadPass, hen, hex]
  · cases next <;> cases hen : th.endTaperType.hasEntry <;> simp [threadPass, hen, hz]
  · cases next <;> cases hen : th.endTaperType.hasEntry <;> cases hex : th.endTaperType.hasExit <;>
      simp [threadPass, hen, hex, hz, hlength, hentry, hexit]
    all_goals ring
  · cases next <;> cases hen : th.endTaperType.hasEntry <;> cases hex : th.endTaperType.hasExit <;>
      simp [threadPass, hen, hex, hz, hentry, htop]
  · cases next <;> cases hen : th.endTaperType.hasEntry <;> cases hex : th.endTaperType.hasExit <;>
      simp [threadPass, hen, hex, mul_assoc, hdir, htop, hup, hdepth.le]
  · cases next with
    | none => simp [threadPass]
    | some d =>
        have hclear : d ≤ th.depth := hnext d rfl
        simp [threadPass, mul_assoc, hdir, hclear]

omit [IsStrictOrderedRing K] in
theorem threadPass_path (th : ThreadData K) (position : Axis → K) (s : Setup K) (doc : K) (next : Option K) (target : Axis → K) :
    let r := threadPass th position s doc next target
    Path target (r.1.enter ++ r.1.cut ++ r.1.leave) r.2 := by
  cases next <;> cases hen : th.endTaperType.hasEntry <;> cases hex : th.endTaperType.hasExit <;>
    simp [threadPass, hen, hex, Path]

omit [IsStrictOrderedRing K] in
theorem threadPass_next (s : Setup K) (hs : s.startZ = position .z + th.depth * s.infeedFactor) (doc d : K) (target : Axis → K) :
    (threadPass th position s doc (some d) target).2 .z = slide th position s.infeedFactor d := by
  have hslide : s.startZ - d * s.infeedFactor = slide th position s.infeedFactor d := by
    rw [hs, slide]
    ring
  by_cases h : s.infeedFactor = 0
  · rw [← hslide]
    simp [threadPass, h]
  · simp [threadPass, h, ← hslide]

/-! ## The loop -/

def Pass.moves (p : Pass K) : List (Move K) := p.enter ++ p.cut ++ p.leave

omit [IsStrictOrderedRing K] in
theorem threadLoop_length (powf : K → K → K) (th : ThreadData K) (position : Axis → K) (s : Setup K) (passes : ℕ) :
    ∀ pass doc target, (threadLoop powf th position s passes pass doc target).1.length = passes := by
  induction passes with
  | zero => exact fun _ _ _ => rfl
  | succ passes ih =>
      intro pass doc target
      rw [threadLoop]
      split <;> exact congrArg (· + 1) (ih _ _ _)

omit [IsStrictOrderedRing K] in
theorem threadLoop_one (s : Setup K) (pass : ℕ) (doc : K) (target : Axis → K) :
    threadLoop powf th position s 1 pass doc target =
      ([(threadPass th position s doc none target).1], (threadPass th position s doc none target).2) := rfl

omit [IsStrictOrderedRing K] in
theorem threadLoop_succ (s : Setup K) (passes : ℕ) {k : ℕ} (hk : k + 1 < counterMod) (doc : K) (target : Axis → K) :
    threadLoop powf th position s (passes + 2) k doc target =
      let r := threadPass th position s doc (some (docAt powf th (k + 1))) target
      let rest := threadLoop powf th position s (passes + 1) (k + 1) (docAt powf th (k + 1)) r.2
      (r.1 :: rest.1, rest.2) := by
  rw [threadLoop, if_pos (by omega : passes + 1 + 1 > 1), Nat.mod_eq_of_lt hk]
  rfl

/-- Pass `k` and the ones after it. -/
theorem threadLoop_ok (hth : Accepted th) (passes : ℕ) : ∀ k target, k + (passes + 1) ≤ counterMod →
    target .z = slide th position (setup tanf th position).infeedFactor (docAt powf th k) →
    let r := threadLoop powf th position (setup tanf th position) (passes + 1) k (docAt powf th k) target
    (∀ i p, r.1[i]? = some p → PassOk th position (setup tanf th position) (docAt powf th (k + i)) p) ∧
      Path target (r.1.flatMap Pass.moves) r.2 ∧ r.2 .x = position .x := by
  induction passes with
  | zero =>
      intro k target _ hz
      have hok := threadPass_ok hth none (fun _ h => (nomatch h)) hz
      have hpath := threadPass_path th position (setup tanf th position) (docAt powf th k) none target
      rw [threadLoop_one]
      refine ⟨fun i p h => ?_, ?_, ?_⟩
      · obtain ⟨rfl, rfl⟩ : i = 0 ∧ _ = p := by simpa [List.getElem?_singleton] using h
        exact hok
      · simpa [Pass.moves] using hpath
      · simp [threadPass]
  | succ passes ih =>
      intro k target hk hz
      have hok := threadPass_ok hth (some (docAt powf th (k + 1))) (fun d h => Option.some.inj h ▸ min_le_right _ _) hz
      have hpath := threadPass_path th position (setup tanf th position) (docAt powf th k) (some (docAt powf th (k + 1))) target
      have hnext := threadPass_next (setup tanf th position) (setup_startZ tanf th position) (docAt powf th k) (docAt powf th (k + 1)) target
      obtain ⟨hpasses, hpaths, hlast⟩ := ih (k + 1) _ (by omega) hnext
      rw [threadLoop_succ _ _ (by omega)]
      refine ⟨fun i p h => ?_, ?_, hlast⟩
      · cases i with
        | zero =>
            obtain rfl := Option.some.inj h
            exact hok
        | succ i =>
            have hi : k + 1 + i = k + (i + 1) := by omega
            exact hi ▸ hpasses i p h
      · simp only [List.flatMap_cons]
        exact path_append hpath hpaths

/-! ## The thread -/

/-- The thread that is cut: as many passes as there are down to the full depth `n`, and the spring passes, each at its depth;
the slide ends where it started in X. -/
structure Threads (powf : K → K → K) (tanf : K → K) (th : ThreadData K) (position : Axis → K) (n : ℕ) (first : List (Move K))
    (passes : List (Pass K)) (last : Axis → K) : Prop where
  count : passes.length = n + th.springPasses.toNat
  pass : ∀ k p, passes[k]? = some p → PassOk th position (setup tanf th position) (docAt powf th (k + 1)) p
  deeper : ∀ j k, j ≤ k → docAt powf th j ≤ docAt powf th k
  within : ∀ k, docAt powf th k ≤ th.depth
  full : ∀ k, n ≤ k → docAt powf th k = th.depth
  path : Path position (first ++ passes.flatMap Pass.moves) last
  last : last .x = position .x

omit [IsStrictOrderedRing K] in
theorem mcThread_eq (tanf : K → K) (position : Axis → K) {passes : ℕ} (fuel : ℕ) (h : countPasses powf th fuel 0 = some passes) : ∃ first target,
    mcThread powf tanf th position fuel = some (first, threadLoop powf th position (setup tanf th position)
      ((passes + th.springPasses.toNat) % counterMod) 1 th.initialDepth target) ∧
      Path position first target ∧ target .z = slide th position (setup tanf th position).infeedFactor th.initialDepth := by
  have hcount : ((passes + (th.springPasses.toNat + 1)) % counterMod + (counterMod - 1)) % counterMod =
      (passes + th.springPasses.toNat) % counterMod := by
    unfold counterMod
    omega
  rw [mcThread, h, Option.map_some]
  dsimp only
  rw [hcount]
  refine ⟨_, _, rfl, ?_, ?_⟩
  · split <;> simp [Path]
  · have hz := setup_startZ tanf th position
    split
    next hne =>
      simp only [Function.update_self, hz, slide]
      ring
    next heq => rw [slide, not_not.1 heq, mul_zero, add_zero]

theorem threads_iff {b : ThreadBlock K} {th₀ : ThreadData K} (hb : threading b position th₀ = (th, .ok ()))
    (hpow : Degression powf th) :
    (∃ n, FullDepth powf th n ∧ ∃ fuel first passes last, mcThread powf tanf th position fuel = some (first, passes, last) ∧
        Threads powf tanf th position n first passes last) ↔
      ∃ n, FullDepth powf th n ∧ n + th.springPasses.toNat < counterMod := by
  have hth := threading_ok hb
  constructor
  · rintro ⟨n, hn, fuel, first, passes, last, hrun, hthreads⟩
    refine ⟨n, hn, ?_⟩
    cases hcount : countPasses powf th fuel 0 with
    | none =>
        rw [mcThread, hcount] at hrun
        cases hrun
    | some m =>
        obtain ⟨first', target, hrun', -, -⟩ := mcThread_eq tanf position fuel hcount
        obtain ⟨-, hpasses⟩ := Prod.mk.inj (Option.some.inj (hrun'.symm.trans hrun))
        -- the counter of the passes is what there is of them
        have hlength := threadLoop_length powf th position (setup tanf th position)
          ((m + th.springPasses.toNat) % counterMod) 1 th.initialDepth target
        rw [hpasses, hthreads.count] at hlength
        exact hlength ▸ Nat.mod_lt _ (by decide)
  · rintro ⟨n, hn, hlt⟩
    have hone := one_lt_fullDepth hth hpow hn
    obtain ⟨d, rfl⟩ : ∃ d, n = d + 1 := ⟨n - 1, by omega⟩
    have hcount := countPasses_eq hn (by omega) d 0 (Nat.zero_add _)
    obtain ⟨first, target, hrun, hpath, hz⟩ := mcThread_eq tanf position (d + 1) hcount
    rw [Nat.mod_eq_of_lt hlt, ← docAt_one hth hpow, Nat.add_right_comm] at hrun
    rw [← docAt_one hth hpow] at hz
    have hlength := threadLoop_length powf th position (setup tanf th position)
      (d + th.springPasses.toNat + 1) 1 (docAt powf th 1) target
    obtain ⟨hpass, hpasses, hlast⟩ := threadLoop_ok hth (d + th.springPasses.toNat) 1 target (by omega) hz
    exact ⟨d + 1, hn, d + 1, first, _, _, hrun, hlength.trans (by omega), fun k p h => Nat.add_comm 1 k ▸ hpass k p h,
      fun _ _ h => docAt_mono hth hpow h, docAt_le, fun _ h => docAt_eq hth hpow hn h, path_append hpath hpasses, hlast⟩

end

/-! ## The real power -/

section
open Filter

theorem rpow_degression {th : ThreadData ℝ} (h : 0 < th.depthDegression) : Degression (fun p e => p ^ e) th where
  one := by rw [Nat.cast_one, Real.one_rpow]
  strictMono := fun p q hpq => Real.rpow_lt_rpow (Nat.cast_nonneg p) (Nat.cast_lt.2 hpq) (one_div_pos.2 h)
  unbounded := by
    intro x
    have hrpow := (tendsto_rpow_atTop (one_div_pos.2 h)).comp tendsto_natCast_atTop_atTop
    exact (hrpow.eventually_ge_atTop x).exists

/-- A thread from Z0 to Z-10, 1 below the drive line. -/
noncomputable def straightThread (j k r : ℝ) (h : UInt32) : ThreadBlock ℝ where
  hasData := true
  plane := .zx
  change := true
  axisWords := (· = .z)
  wordI := true
  wordJ := true
  wordK := true
  wordP := true
  wordR := true
  wordH := true
  wordL := false
  wordE := false
  wordQ := false
  i := -1
  j := j
  k := k
  p := 1
  r := r
  h := h
  l := 0
  e := 0
  q := 0
  z := -10
  rpm := 100
  rpmMin := 0
  rpmMax := 1000
  unitsImperial := false
  diameterMode := false

/-- What G76 makes of it. -/
noncomputable def straightData (j k r : ℝ) (h : UInt32) : ThreadData ℝ := ⟨-10, 1, j, k, r, 0, 0, -1, h, .none⟩

theorem straightThread_accepted {j k r : ℝ} {h : UInt32} (hj : 0 < j) (hk : j < k) (hr : 1 ≤ r) :
    threading (straightThread j k r h) (fun _ => 0) .start = (straightData j k r h, .ok ()) := by
  have hk' := hj.trans hk
  norm_num [threading, straightThread, straightData, ThreadData.words, ThreadData.start, ThreadBlock.units, hr.not_gt, hj.not_gt, hj.ne', hk'.not_gt,
    hk.not_ge, (by decide : Axis.y ≠ .z), (by decide : Axis.a ≠ .z)]

/-- Two passes down to the full depth, and three spring passes. -/
theorem threads_iff_straight : ∃ n, FullDepth (fun p e => p ^ e) (straightData 1 2 1 3) n ∧ ∃ fuel first passes last,
    mcThread (fun p e => p ^ e) (fun _ => 0) (straightData 1 2 1 3) (fun _ => 0) fuel = some (first, passes, last) ∧
      Threads (fun p e => p ^ e) (fun _ => 0) (straightData 1 2 1 3) (fun _ => 0) n first passes last := by
  have hn : FullDepth (fun p e => p ^ e) (straightData 1 2 1 3) 2 := by
    refine ⟨?_, fun p hp => ?_⟩
    · simp [passDepth, calcThreadDoc, straightData]
    · simpa [passDepth, calcThreadDoc, straightData] using hp
  exact (threads_iff (straightThread_accepted one_pos one_lt_two le_rfl) (rpow_degression one_pos)).2 ⟨2, hn, by decide⟩

/-- A depth of 2 from cuts of a micrometre with a degression of 3 needs more passes than the counter has values. -/
theorem passes_not_counted : threading (straightThread (1 / 1000) 2 3 0) (fun _ => 0) .start = (straightData (1 / 1000) 2 3 0, .ok ()) ∧
    Degression (fun p e => p ^ e) (straightData (1 / 1000) 2 3 0) ∧
    ∀ fuel, mcThread (fun p e => p ^ e) (fun _ => 0) (straightData (1 / 1000) 2 3 0) (fun _ => 0) fuel = none := by
  have hpow : Degression (fun p e => p ^ e) (straightData (1 / 1000) 2 3 0) := rpow_degression three_pos
  refine ⟨straightThread_accepted (by norm_num) (by norm_num) (by norm_num), hpow, fun fuel => ?_⟩
  have htop : ((8000000000 : ℕ) : ℝ) ^ (1 / 3 : ℝ) = 2000 := by
    rw [show ((8000000000 : ℕ) : ℝ) = (2000 : ℝ) ^ (3 : ℝ) by norm_num, ← Real.rpow_mul (by norm_num)]
    norm_num
  have hn : FullDepth (fun p e => p ^ e) (straightData (1 / 1000) 2 3 0) 8000000000 := by
    refine ⟨?_, fun p hp => ?_⟩
    · have hdepth : passDepth (fun p e => p ^ e) (straightData (1 / 1000) 2 3 0) 8000000000 = 2 := by
        rw [passDepth, calcThreadDoc]
        exact (congrArg (1 / 1000 * ·) htop).trans (by norm_num)
      exact hdepth.ge
    · by_contra hlt
      have h := hpow.strictMono (not_le.1 hlt)
      have hle : (2 : ℝ) ≤ 1 / 1000 * (p : ℝ) ^ (1 / 3 : ℝ) := hp
      have hlt' : (p : ℝ) ^ (1 / 3 : ℝ) < 2000 := htop ▸ h
      linarith
  rw [mcThread, countPasses_none hn (by decide), Option.map_none]

end

end Grbl.Cycles
