import Grbl.Segments.Loop

/-!
# The invariant of the segment generator

* `Progress`, `Stage`, `Inv` : the steps that are left, where the block is, what holds between any two steps of the machine;
* `Inv.update`, `Ended.finish`, `Inv.pass`, `Inv.begin`, `Inv.step` : every step keeps it;
* `onProfile_hold`, `onProfile_normal`, `onProfile_velocity` : a new profile fits the speed the block is entered at;
* `Fits` : every profile outside a feed hold is computed from speeds that fit the block;
* `loop_ends` : every segment loop ends.
-/

namespace Grbl.Segments
open Lib
open scoped Grbl.Lib.OrderedField

section
variable {K : Type*} [Field K] [LinearOrder K] [IsStrictOrderedRing K] [FloorSemiring K] {b : Block K} {p : Prep K} {n : ℕ}
  {mm : K} {s s' : State K} {parkingEnabled : Bool}

/-! ## The invariant -/

/-- The steps that are left are those of the distance that is left, and the others are in the segments. -/
structure Progress (n : ℕ) (b : Block K) (s : State K) : Prop where
  spm_pos : 0 < s.prep.stepsPerMm
  req : s.prep.reqMmIncrement = 125 / 100 / s.prep.stepsPerMm
  steps : s.prep.stepsRemaining = ⌈s.prep.stepsPerMm * b.millimeters⌉₊
  total : (s.segments.map Seg.nStep).sum + s.prep.stepsRemaining = n

/-- The steps of the block and its scale are left alone. -/
structure Prep.SameSteps (p q : Prep K) : Prop where
  stepsPerMm : q.stepsPerMm = p.stepsPerMm
  reqMmIncrement : q.reqMmIncrement = p.reqMmIncrement
  stepsRemaining : q.stepsRemaining = p.stepsRemaining

/-- Where the block is: not loaded yet, its profile to be computed again, between two segments, in the loop, discarded. -/
inductive Stage (n : ℕ) (s : State K) : Prop
  | fresh (b : Block K) (hblock : s.block = some b) (hok : b.Ok) (hloaded : s.loaded = false)
      (hprofile : s.prep.recalculate.velocityProfile = false) (hwork : s.work = none) (hsegments : s.segments = [])
      (hcount : b.stepEventCount = n) (hexit : 0 ≤ s.prep.exitSpeed)
  | pending (b : Block K) (hblock : s.block = some b) (hok : b.Ok) (hloaded : s.loaded = false)
      (hprofile : s.prep.recalculate.velocityProfile = true) (hwork : s.work = none) (hprogress : Progress n b s)
      (hcur : 0 ≤ s.prep.currentSpeed) (hentry : s.prep.currentSpeed ^ 2 = b.entrySpeedSqr)
  | ready (b : Block K) (hblock : s.block = some b) (hok : b.Ok) (hloaded : s.loaded = true) (hwork : s.work = none)
      (hprogress : Progress n b s) (hprofile : OnProfile b.acceleration s.prep b.millimeters)
      (hhold : s.ctl.executeHold = true → s.prep.rampType = .decel) (hcomplete : 0 < s.prep.mmComplete → s.ctl.executeHold = true)
  | looping (b : Block K) (w : Work K) (start : Prep K) (hblock : s.block = some b) (hok : b.Ok) (hloaded : s.loaded = true)
      (hwork : s.work = some (w, start)) (hprogress : Progress n b s) (hloop : InLoop b s.prep w)
      (hmin : w.minimumMm = (Work.start b s.prep).minimumMm) (hle : s.prep.mmComplete ≤ b.millimeters)
      (hhold : s.ctl.executeHold = true → s.prep.rampType = .decel) (hcomplete : 0 < s.prep.mmComplete → s.ctl.executeHold = true)
  | done (hblock : s.block = none) (hwork : s.work = none) (hloaded : s.loaded = false) (htotal : (s.segments.map Seg.nStep).sum = n)

/-- The invariant of the machine; `n` is the step count of the block. -/
structure Inv (n : ℕ) (s : State K) : Prop where
  sys : s.ctl.executeSysMotion = false
  count_pos : 0 < n
  count_lt : n < 2 ^ 32
  segments : ∀ g ∈ s.segments, 0 < g.nStep ∧ 0 < g.divisor
  stage : Stage n s

theorem Inv.update (h : Inv n s) (hwork : s.work.isSome = false) {ctl : StepControl} (hsys : ctl.executeSysMotion = false) :
    Inv n { s.updatePlanBlockParameters with ctl := ctl } := by
  obtain ⟨-, hpos, hlt, hsegs, hstage⟩ := h
  rw [State.updatePlanBlockParameters]
  cases hstage with
  | fresh b hblock hok hloaded hvp hwork hsegments hcount hexit =>
      rw [if_neg (by simp [hloaded])]
      exact ⟨hsys, hpos, hlt, hsegs, .fresh b hblock hok hloaded hvp hwork hsegments hcount hexit⟩
  | pending b hblock hok hloaded hvp hwork hprogress hcur hentry =>
      rw [if_neg (by simp [hloaded])]
      exact ⟨hsys, hpos, hlt, hsegs, .pending b hblock hok hloaded hvp hwork ⟨hprogress.1, hprogress.2, hprogress.3, hprogress.4⟩ hcur hentry⟩
  | ready b hblock hok hloaded hwork hprogress hprofile hhold hcomplete =>
      rw [if_pos hloaded]
      have hcur := hprofile.speed_nonneg
      exact ⟨hsys, hpos, hlt, hsegs, .pending { b with entrySpeedSqr := s.prep.currentSpeed * s.prep.currentSpeed } (by simp [hblock])
        ⟨hok.1, hok.2, mul_nonneg hcur hcur⟩ rfl rfl hwork ⟨hprogress.1, hprogress.2, hprogress.3, hprogress.4⟩ hcur (sq _)⟩
  | looping b w start hblock hok hloaded hwork' => simp [hwork'] at hwork
  | done hblock hwork hloaded htotal =>
      rw [if_neg (by simp [hloaded])]
      exact ⟨hsys, hpos, hlt, hsegs, .done hblock hwork hloaded htotal⟩

theorem subU32_of_le {x y : ℕ} (h : y ≤ x) (hx : x < 2 ^ 32) : subU32 x y = x - y := by
  rw [subU32, Nat.mod_eq_of_lt (h.trans_lt hx)]
  have : x + (2 ^ 32 - y) = x - y + 2 ^ 32 := by omega
  rw [this, Nat.add_mod_right, Nat.mod_eq_of_lt (by omega)]

theorem ceil_lt_of_end {q : Prep K} {w : Work K} (hspm : 0 < p.stepsPerMm) (hreq : p.reqMmIncrement = 125 / 100 / p.stepsPerMm)
    (hmm : 0 < b.millimeters) (hmin : w.minimumMm = (Work.start b p).minimumMm) (hzero : q.mmComplete = 0)
    (hend : w.mmRemaining ≤ w.minimumMm ∨ w.mmRemaining ≤ q.mmComplete) :
    ⌈p.stepsPerMm * w.mmRemaining⌉₊ < ⌈p.stepsPerMm * b.millimeters⌉₊ := by
  have hpos : 0 < ⌈p.stepsPerMm * b.millimeters⌉₊ := Nat.ceil_pos.2 (mul_pos hspm hmm)
  have hnone (h : w.mmRemaining ≤ 0) : ⌈p.stepsPerMm * w.mmRemaining⌉₊ < ⌈p.stepsPerMm * b.millimeters⌉₊ := by
    rwa [Nat.ceil_eq_zero.2 (mul_nonpos_of_nonneg_of_nonpos hspm.le h)]
  rcases hend with hend | hend
  · rw [hmin, Work.start] at hend
    simp only at hend
    split at hend
    · exact hnone hend
    · next hge =>
        have hstep : p.stepsPerMm * p.reqMmIncrement = 125 / 100 := by
          rw [hreq]
          field_simp
        have hle := mul_le_mul_of_nonneg_left hend hspm.le
        rw [mul_sub, hstep] at hle
        rcases le_or_gt w.mmRemaining 0 with hnonpos | hpos'
        · exact hnone hnonpos
        · have hceil := Nat.ceil_lt_add_one (mul_pos hspm hpos').le
          rw [Nat.lt_ceil]
          linarith
  · exact hnone (hend.trans hzero.le)

/-- What a loop that has ended leaves to do. -/
structure Ended (n : ℕ) (b : Block K) (w : Work K) (s : State K) : Prop where
  ok : b.Ok
  block : s.block = some b
  loaded : s.loaded = true
  progress : Progress n b s
  profile : OnProfile b.acceleration s.prep w.mmRemaining
  min : w.minimumMm = (Work.start b s.prep).minimumMm
  complete_le : s.prep.mmComplete ≤ b.millimeters
  hold : s.ctl.executeHold = true → s.prep.rampType = .decel
  complete : 0 < s.prep.mmComplete → s.ctl.executeHold = true
  spent : w.mmRemaining ≤ w.minimumMm ∨ w.mmRemaining ≤ s.prep.mmComplete

theorem Progress.req_nonneg (h : Progress n b s) : 0 ≤ s.prep.reqMmIncrement := by
  have := h.spm_pos
  rw [h.req]
  positivity

theorem Ended.ceil_le {w : Work K} (h : Ended n b w s) : ⌈s.prep.stepsPerMm * w.mmRemaining⌉₊ ≤ s.prep.stepsRemaining := by
  rw [h.progress.steps]
  have hle := mm_le_of_end h.ok.millimeters_pos h.progress.req_nonneg h.min h.complete_le h.spent
  exact Nat.ceil_mono (mul_le_mul_of_nonneg_left hle h.progress.spm_pos.le)

omit [IsStrictOrderedRing K] in
theorem Inv.endMotion (h : Inv n s) (hloaded : s.loaded = true) (hwork : s.work = none) : Inv n (s.endMotion parkingEnabled) := by
  obtain ⟨hsys, hpos, hlt, hsegs, hstage⟩ := h
  obtain ⟨f, hf⟩ := endMotion_prep parkingEnabled s
  refine ⟨hsys, hpos, hlt, hsegs, ?_⟩
  cases hstage with
  | fresh b hblock hok hloaded' => exact absurd (hloaded'.symm.trans hloaded) Bool.false_ne_true
  | pending b hblock hok hloaded' => exact absurd (hloaded'.symm.trans hloaded) Bool.false_ne_true
  | ready b hblock hok hloaded hwork hprogress hprofile hhold hcomplete =>
      refine .ready b hblock hok hloaded hwork ⟨?_, ?_, ?_, ?_⟩ (hprofile.congr ?_ ?_ ?_ ?_ ?_ ?_ ?_) ?_ ?_
      all_goals rw [hf]
      · exact hprogress.1
      · exact hprogress.2
      · exact hprogress.3
      · exact hprogress.4
      · exact hhold
      · exact hcomplete
  | looping b w start hblock hok hloaded hwork' => exact absurd (hwork.symm.trans hwork') (by simp)
  | done hblock hwork hloaded' => exact absurd (hloaded'.symm.trans hloaded) Bool.false_ne_true

theorem Ended.finish {w : Work K} {start : Prep K} (h : Ended n b w s) (hsys : s.ctl.executeSysMotion = false) (hpos : 0 < n)
    (hlt : n < 2 ^ 32) (hsegs : ∀ g ∈ s.segments, 0 < g.nStep ∧ 0 < g.divisor) : Inv n (s.finish parkingEnabled b w start) := by
  have hle := h.ceil_le
  have htotal := h.progress.total
  have hsub : subU32 s.prep.stepsRemaining ⌈s.prep.stepsPerMm * w.mmRemaining⌉₊ =
      s.prep.stepsRemaining - ⌈s.prep.stepsPerMm * w.mmRemaining⌉₊ := subU32_of_le hle (by omega)
  have hprogress := h.progress
  simp only [State.finish, hsub]
  split
  · next hbail =>
      refine Inv.endMotion ⟨hsys, hpos, hlt, hsegs, ?_⟩ h.loaded rfl
      exact .ready b h.block h.ok h.loaded rfl ⟨hprogress.1, hprogress.2, hprogress.3, hprogress.4⟩
        (h.profile.decel (h.hold hbail.2) h.complete_le) h.hold h.complete
  · next hpush =>
      have hstep : ⌈s.prep.stepsPerMm * w.mmRemaining⌉₊ < s.prep.stepsRemaining := by
        by_contra hnot
        have hnone : s.prep.stepsRemaining - ⌈s.prep.stepsPerMm * w.mmRemaining⌉₊ = 0 := by omega
        have hzero : s.prep.mmComplete = 0 := by
          by_contra hne
          exact hpush ⟨hnone, h.complete (lt_of_le_of_ne h.profile.complete_nonneg (Ne.symm hne))⟩
        have := ceil_lt_of_end hprogress.spm_pos hprogress.req h.ok.millimeters_pos h.min hzero h.spent
        rw [← hprogress.steps] at this
        exact hnot this
      have hdivisor : 0 < (s.prep.stepsRemaining : K) - s.prep.stepsPerMm * w.mmRemaining := by
        have h1 := Nat.le_ceil (s.prep.stepsPerMm * w.mmRemaining)
        have h2 : (⌈s.prep.stepsPerMm * w.mmRemaining⌉₊ : K) < s.prep.stepsRemaining := by exact_mod_cast hstep
        linarith
      generalize hg : (Seg.mk (s.prep.stepsRemaining - ⌈s.prep.stepsPerMm * w.mmRemaining⌉₊) _ _ _ _ _ _ _ _ _ : Seg K) = g
      have hsegs' : ∀ g' ∈ s.segments ++ [g], 0 < g'.nStep ∧ 0 < g'.divisor := by
        intro g' hg'
        rcases List.mem_append.1 hg' with hold | hnew
        · exact hsegs g' hold
        · obtain rfl := List.mem_singleton.1 hnew
          subst hg
          exact ⟨by simp only; omega, hdivisor⟩
      have hsum : ((s.segments ++ [g]).map Seg.nStep).sum + ⌈s.prep.stepsPerMm * w.mmRemaining⌉₊ = n := by
        subst hg
        simp only [List.map_append, List.map_cons, List.map_nil, List.sum_append, List.sum_cons, List.sum_nil]
        omega
      split
      · next hcomplete =>
          split
          · next hmm =>
              refine Inv.endMotion ⟨hsys, hpos, hlt, hsegs', ?_⟩ h.loaded rfl
              exact .ready { b with millimeters := w.mmRemaining } rfl ⟨h.ok.1, hmm, h.ok.3⟩ h.loaded rfl
                ⟨hprogress.1, hprogress.2, rfl, hsum⟩ (h.profile.congr rfl rfl rfl rfl rfl rfl rfl) h.hold h.complete
          · next hmm =>
              rw [hsys, if_neg Bool.false_ne_true]
              have hceil : ⌈s.prep.stepsPerMm * w.mmRemaining⌉₊ = 0 :=
                Nat.ceil_eq_zero.2 (mul_nonpos_of_nonneg_of_nonpos hprogress.1.le (not_lt.1 hmm))
              exact ⟨hsys, hpos, hlt, hsegs', .done rfl rfl rfl (by simpa [hceil] using hsum)⟩
      · next hmm =>
          have hmm' : 0 < w.mmRemaining := h.profile.complete_nonneg.trans_lt (not_le.1 hmm)
          exact ⟨hsys, hpos, hlt, hsegs', .ready { b with millimeters := w.mmRemaining } rfl ⟨h.ok.1, hmm', h.ok.3⟩ h.loaded rfl
            ⟨hprogress.1, hprogress.2, rfl, hsum⟩ (h.profile.congr rfl rfl rfl rfl rfl rfl rfl) h.hold h.complete⟩

omit [IsStrictOrderedRing K] [FloorSemiring K] in
theorem Passes.sameSteps {q : Prep K} {w w' : Work K} (h : Passes b p w q w') : p.SameSteps q := by
  cases h <;> exact ⟨rfl, rfl, rfl⟩

omit [IsStrictOrderedRing K] [FloorSemiring K] in
theorem Passes.decel {q : Prep K} {w w' : Work K} (h : Passes b p w q w') :
    q.mmComplete = p.mmComplete ∧ (p.rampType = .decel → q.rampType = .decel) := by
  cases h with
  | riseEnds hramp | slowEnds hramp => exact ⟨rfl, fun habs => by simp [hramp] at habs⟩
  | cruiseEnds => exact ⟨rfl, fun _ => rfl⟩
  | rise | slow | cruise | fall | fallEnds => exact ⟨rfl, id⟩

omit [IsStrictOrderedRing K] in
theorem Progress.congr {t : State K} (h : Progress n b s) (hsame : s.prep.SameSteps t.prep) (hsegs : t.segments = s.segments) :
    Progress n b t := by
  obtain ⟨h1, h2, h3, h4⟩ := h
  refine ⟨?_, ?_, ?_, ?_⟩
  · rwa [hsame.stepsPerMm]
  · rwa [hsame.reqMmIncrement, hsame.stepsPerMm]
  · rwa [hsame.stepsRemaining, hsame.stepsPerMm]
  · rwa [hsegs, hsame.stepsRemaining]

theorem Inv.pass (h : Inv n s) (hstep : s.pass parkingEnabled = some s') : Inv n s' := by
  obtain ⟨hsys, hpos, hlt, hsegs, hstage⟩ := h
  have hidle (hwork : s.work = none) : False := by
    rw [pass_idle hwork] at hstep
    cases hstep
  cases hstage with
  | fresh b hblock hok hloaded hvp hwork => exact (hidle hwork).elim
  | pending b hblock hok hloaded hvp hwork => exact (hidle hwork).elim
  | ready b hblock hok hloaded hwork => exact (hidle hwork).elim
  | done hblock hwork => exact (hidle hwork).elim
  | looping b w start hblock hok hloaded hwork hprogress hloop hmin hle hhold hcomplete =>
      rw [pass_working hwork hblock, Option.some.injEq] at hstep
      have hpass := ramp_passes b s.prep w
      have hprep : (Segments.pass b s.prep w).1 = (ramp b s.prep w).1 := rfl
      have hsame : s.prep.SameSteps (Segments.pass b s.prep w).1 := hpass.sameSteps
      obtain ⟨hmmc, hdecel⟩ := hpass.decel
      rw [← hprep] at hmmc hdecel
      have hmin' : w.minimumMm = (Work.start b (Segments.pass b s.prep w).1).minimumMm := by
        rw [hmin, Work.start, Work.start, hsame.reqMmIncrement]
      split at hstep
      · next hagain =>
          subst hstep
          refine ⟨hsys, hpos, hlt, hsegs, .looping b _ start hblock hok hloaded rfl (hprogress.congr hsame rfl) (hloop.again hok.1 hagain) ?_ (hmmc.le.trans hle)
            (fun hq => hdecel (hhold hq)) (fun hq => hcomplete (hmmc ▸ hq))⟩
          rcases account_cases (ramp b s.prep w).1 (ramp b s.prep w).2 with ⟨hend, -⟩ | ⟨-, -, dtMax, heq, -⟩
          · exact absurd (hend.symm.trans hagain) Bool.false_ne_true
          · have hnext : (Segments.pass b s.prep w).2.1.minimumMm = (ramp b s.prep w).2.minimumMm := (congrArg Work.minimumMm heq).trans rfl
            rw [hnext, hpass.minimumMm_eq, hmin']
      · next hend =>
          subst hstep
          rcases account_cases (ramp b s.prep w).1 (ramp b s.prep w).2 with ⟨-, hover, hmm, hminimum⟩ | ⟨hagain, -⟩
          · have hw : (Segments.pass b s.prep w).2.1 = (account (ramp b s.prep w).1 (ramp b s.prep w).2).1 := rfl
            rw [← hw] at hmm hminimum
            refine Ended.finish ⟨hok, hblock, hloaded, hprogress.congr hsame rfl, ?_, ?_, hmmc.le.trans hle, fun hq => hdecel (hhold hq),
              fun hq => hcomplete (hmmc ▸ hq), ?_⟩ hsys hpos hlt hsegs
            · rw [hmm]
              exact hloop.profile.passes hok.1 hloop.mm_pos hloop.time_pos hpass
            · rw [hminimum, hpass.minimumMm_eq, hmin']
            · rw [hmm, hminimum]
              exact hover
          · exact absurd hagain hend

end

/-! ## Profiles -/

section
variable {K : Type*} [Field K] [LinearOrder K] {b : Block K} {p : Prep K} {ctl : StepControl} {plan : Plan K} {parkingEnabled : Bool}

theorem Prep.Joins.tops {q : Prep K} {x n : K} (h : q.Joins b x n) (hlast : q.lastRamp = q.decelerateAfter) :
    q.Tops b.acceleration := by
  have hnonneg := h.lastRamp_nonneg
  have hle := h.lastRamp_le
  have htop := h.top
  rw [hlast] at hnonneg hle htop
  rw [← h.exit] at htop
  exact ⟨hnonneg, hle, htop⟩

variable [Sqrt K]

/-- Every profile that is computed outside a feed hold is computed from speeds that fit the block. -/
def Fits (parkingEnabled : Bool) (s : State K) : Action K → Prop
  | .begin plan => ∀ b, s.block = some b → s.loaded = false → s.ctl.executeHold = false →
      Feasible (loadBlock parkingEnabled s.ctl b s.prep).1 plan.exitSpeedSqr
        ((loadBlock parkingEnabled s.ctl b s.prep).1.nominalSpeed plan)
  | _ => True

theorem sameSteps_velocityProfile (ctl : StepControl) (plan : Plan K) (b : Block K) (p : Prep K) :
    p.SameSteps (velocityProfile ctl plan b p) := by
  unfold velocityProfile holdProfile normalProfile
  extract_lets
  split_ifs <;> exact ⟨rfl, rfl, rfl⟩

omit [LinearOrder K] in
theorem loadBlock_pending (b : Block K) (ctl : StepControl) (parkingEnabled : Bool) (h : p.recalculate.velocityProfile = true) :
    (loadBlock parkingEnabled ctl b p).1 = b ∧ p.SameSteps (loadBlock parkingEnabled ctl b p).2 ∧
      (loadBlock parkingEnabled ctl b p).2.currentSpeed = p.currentSpeed := by
  rw [loadBlock, if_pos h]
  exact ⟨rfl, ⟨rfl, rfl, rfl⟩, rfl⟩

variable [IsStrictOrderedRing K] [LawfulSqrt K]

structure Loads (b : Block K) (r : Block K × Prep K) : Prop where
  ok : r.1.Ok
  millimeters : r.1.millimeters = b.millimeters
  stepsPerMm : r.2.stepsPerMm = b.stepEventCount / b.millimeters
  reqMmIncrement : r.2.reqMmIncrement = 125 / 100 / (b.stepEventCount / b.millimeters)
  stepsRemaining : r.2.stepsRemaining = b.stepEventCount
  speed_nonneg : 0 ≤ r.2.currentSpeed
  speed : r.2.currentSpeed ^ 2 = r.1.entrySpeedSqr

theorem loadBlock_fresh (h : p.recalculate.velocityProfile = false) (hok : b.Ok) (hexit : 0 ≤ p.exitSpeed) :
    Loads b (loadBlock parkingEnabled ctl b p) := by
  rw [loadBlock, h, if_neg Bool.false_ne_true]
  simp only
  split
  · exact ⟨⟨hok.1, hok.2, mul_nonneg hexit hexit⟩, rfl, rfl, rfl, rfl, hexit, sq _⟩
  · exact ⟨hok, rfl, rfl, rfl, rfl, sqrtf_nonneg _, sq_sqrtf _ hok.entry_nonneg⟩

theorem onProfile_hold (h : b.Ok) (hcur : 0 ≤ p.currentSpeed) :
    OnProfile b.acceleration (holdProfile b p) b.millimeters ∧ (holdProfile b p).rampType = .decel := by
  have hdist : b.millimeters - 1 / 2 / b.acceleration * b.entrySpeedSqr ≤ b.millimeters := by
    have hinv : 0 ≤ 1 / 2 / b.acceleration := (div_pos one_half_pos h.acceleration_pos).le
    have := mul_nonneg hinv h.entry_nonneg
    linarith
  have hmm := h.millimeters_pos
  simp only [holdProfile]
  split_ifs with h1 h2
  · exact ⟨⟨hcur, sqrtf_nonneg _, le_rfl, hmm.le, fun _ => rfl, fun habs => absurd rfl habs, (by rintro ⟨⟩),
      (by rintro ⟨⟩), (by rintro ⟨⟩)⟩, rfl⟩
  · exact ⟨⟨hcur, le_rfl, le_rfl, hmm.le, fun _ => rfl, fun habs => absurd rfl habs, (by rintro ⟨⟩),
      (by rintro ⟨⟩), (by rintro ⟨⟩)⟩, rfl⟩
  · exact ⟨⟨hcur, le_rfl, by simp only; linarith, hdist, fun habs => absurd rfl habs, fun habs => absurd rfl habs,
      (by rintro ⟨⟩), (by rintro ⟨⟩), (by rintro ⟨⟩)⟩, rfl⟩

/-- A profile in normal operation fits the speed the block is entered at, and its last ramp ends at the exit speed. -/
theorem onProfile_normal (hsys : ctl.executeSysMotion = false) (h : Feasible b plan.exitSpeedSqr (b.nominalSpeed plan))
    (hcur : 0 ≤ p.currentSpeed) (hentry : p.currentSpeed ^ 2 = b.entrySpeedSqr) :
    OnProfile b.acceleration (normalProfile ctl plan b p) b.millimeters ∧
      (normalProfile ctl plan b p).FallsTo b.acceleration b.millimeters := by
  have hkept : (normalProfile ctl plan b p).currentSpeed = p.currentSpeed := by
    unfold normalProfile
    extract_lets
    split_ifs <;> rfl
  obtain ⟨hcomplete, hexit, -, hshape⟩ := normalProfile_shape (p := p) hsys h
  generalize normalProfile ctl plan b p = q at *
  rw [← hkept] at hcur hentry
  have hmm := h.millimeters_pos
  rcases hshape with hfalls | ⟨hne, hjoins⟩
  · have hdecel := hfalls.decel
    refine ⟨⟨hcur, hexit, hcomplete.ge, hcomplete.le.trans hmm.le, fun habs => absurd hdecel habs, fun habs => absurd hdecel habs,
      by simp [hdecel], by simp [hdecel], by simp [hdecel]⟩, fun _ => ?_⟩
    rw [hentry, hfalls.exit, hcomplete]
    ring
  · have hpos := hjoins.maximum_pos
    refine ⟨⟨hcur, hexit, hcomplete.ge, hcomplete.le.trans hmm.le, fun _ => hcomplete, fun _ => hpos, fun hramp => ?_, fun hramp => ?_,
      fun hramp => ?_⟩, fun habs => absurd habs hne⟩
    · have hrise := hjoins.rise hramp
      have hfirst := hjoins.first
      rw [abs_of_nonneg (sub_nonneg.2 hrise)] at hfirst
      refine ⟨?_, by linarith, ?_⟩
      · rw [← pow_le_pow_iff_left₀ hcur hpos.le two_ne_zero, hentry]
        exact hrise
      · by_cases huntil : q.accelerateUntil = 0
        · right
          have hlast : q.lastRamp = 0 := if_pos ⟨hramp, huntil⟩
          have htop := hjoins.top
          rw [hlast, mul_zero, add_zero, ← hjoins.exit] at htop
          exact ⟨huntil, (sq_eq_sq₀ hpos.le hexit).1 htop⟩
        · exact .inl (hjoins.tops (if_neg fun habs => huntil habs.2))
    · have hfall := hjoins.fall hramp
      have hfirst := hjoins.first
      rw [abs_sub_comm, abs_of_nonneg (sub_nonneg.2 hfall)] at hfirst
      refine ⟨?_, by linarith, hjoins.tops (if_neg fun habs => by simp [hramp] at habs)⟩
      rw [← pow_le_pow_iff_left₀ hpos.le hcur two_ne_zero, hentry]
      exact hfall
    · have htops := hjoins.tops (if_neg fun habs => by simp [hramp] at habs)
      refine ⟨(sq_eq_sq₀ hcur hpos.le).1 (hentry.trans (hjoins.level hramp).symm), .inr ⟨htops, htops.2.1.trans hjoins.until_le⟩⟩

/-- A new profile fits the speed the block is entered at; only a feed hold ends it before the end of the block. -/
theorem onProfile_velocity (hsys : ctl.executeSysMotion = false) (hok : b.Ok)
    (h : ctl.executeHold = false → Feasible b plan.exitSpeedSqr (b.nominalSpeed plan)) (hcur : 0 ≤ p.currentSpeed)
    (hentry : p.currentSpeed ^ 2 = b.entrySpeedSqr) :
    OnProfile b.acceleration (velocityProfile ctl plan b p) b.millimeters ∧
      (ctl.executeHold = true → (velocityProfile ctl plan b p).rampType = .decel) ∧
      (0 < (velocityProfile ctl plan b p).mmComplete → ctl.executeHold = true) := by
  rw [velocityProfile]
  cases hhold : ctl.executeHold with
  | true =>
      obtain ⟨hprofile, hdecel⟩ := onProfile_hold hok hcur
      exact ⟨hprofile, fun _ => hdecel, fun _ => rfl⟩
  | false =>
      obtain ⟨hcomplete, -, -⟩ := normalProfile_shape (p := p) hsys (h hhold)
      refine ⟨(onProfile_normal hsys (h hhold) hcur hentry).1, (by rintro ⟨⟩), fun hpos => ?_⟩
      exact absurd hcomplete hpos.ne'

variable [FloorSemiring K] {n : ℕ} {s s' : State K}

theorem Inv.begin (h : Inv n s) (hfits : Fits parkingEnabled s (.begin plan)) (hstep : s.begin parkingEnabled plan = some s') :
    Inv n s' := by
  obtain ⟨hsys, hpos, hlt, hsegs, hstage⟩ := h
  cases hstage with
  | fresh b hblock hok hloaded hvp hwork hsegments hcount hexit =>
      have hfeas := hfits b hblock hloaded
      rw [begin_unloaded hwork hblock hloaded] at hstep
      split at hstep
      · cases hstep
      · cases hstep
        have hloads : Loads b (loadBlock parkingEnabled s.ctl b s.prep) := loadBlock_fresh hvp hok hexit
        generalize loadBlock parkingEnabled s.ctl b s.prep = r at *
        obtain ⟨hprofile, hhold, hcomplete⟩ := onProfile_velocity (p := r.2) hsys hloads.ok hfeas hloads.speed_nonneg hloads.speed
        have hkept := sameSteps_velocityProfile s.ctl plan r.1 r.2
        have hmm := hok.millimeters_pos
        have hspm : (0 : K) < b.stepEventCount / b.millimeters :=
          div_pos (by rw [hcount]; exact_mod_cast hpos) hmm
        refine ⟨hsys, hpos, hlt, hsegs, .looping r.1 _ _ rfl hloads.ok rfl rfl ?_ (inLoop_start hloads.ok hprofile) rfl
          hprofile.complete_le hhold hcomplete⟩
        refine ⟨?_, ?_, ?_, ?_⟩
        · rw [hkept.stepsPerMm, hloads.stepsPerMm]
          exact hspm
        · rw [hkept.reqMmIncrement, hloads.reqMmIncrement, hkept.stepsPerMm, hloads.stepsPerMm]
        · rw [hkept.stepsRemaining, hloads.stepsRemaining, hkept.stepsPerMm, hloads.stepsPerMm, hloads.millimeters,
            div_mul_cancel₀ _ hmm.ne', Nat.ceil_natCast]
        · rw [hkept.stepsRemaining, hloads.stepsRemaining]
          simpa [hsegments] using hcount
  | pending b hblock hok hloaded hvp hwork hprogress hcur hentry =>
      have hfeas := hfits b hblock hloaded
      rw [begin_unloaded hwork hblock hloaded] at hstep
      split at hstep
      · cases hstep
      · cases hstep
        obtain ⟨hfst, hsnd, hcur'⟩ := loadBlock_pending b s.ctl parkingEnabled hvp
        generalize loadBlock parkingEnabled s.ctl b s.prep = r at *
        obtain ⟨b', p'⟩ := r
        obtain rfl : b' = b := hfst
        simp only at hsnd hcur' hfeas
        rw [← hcur'] at hcur hentry
        obtain ⟨hprofile, hhold, hcomplete⟩ := onProfile_velocity hsys hok hfeas hcur hentry
        have hkept := sameSteps_velocityProfile s.ctl plan b' p'
        refine ⟨hsys, hpos, hlt, hsegs, .looping b' _ _ rfl hok rfl rfl ⟨?_, ?_, ?_, ?_⟩ (inLoop_start hok hprofile) rfl
          hprofile.complete_le hhold hcomplete⟩
        · rw [hkept.stepsPerMm, hsnd.stepsPerMm]
          exact hprogress.spm_pos
        · rw [hkept.reqMmIncrement, hsnd.reqMmIncrement, hkept.stepsPerMm, hsnd.stepsPerMm]
          exact hprogress.req
        · rw [hkept.stepsRemaining, hsnd.stepsRemaining, hkept.stepsPerMm, hsnd.stepsPerMm]
          exact hprogress.steps
        · rw [hkept.stepsRemaining, hsnd.stepsRemaining]
          exact hprogress.total
  | ready b hblock hok hloaded hwork hprogress hprofile hhold hcomplete =>
      rw [begin_loaded hwork hblock hloaded] at hstep
      split at hstep
      · cases hstep
      · cases hstep
        exact ⟨hsys, hpos, hlt, hsegs, .looping b _ _ hblock hok hloaded rfl ⟨hprogress.1, hprogress.2, hprogress.3, hprogress.4⟩
          (inLoop_start hok hprofile) rfl hprofile.complete_le hhold hcomplete⟩
  | looping b w start hblock hok hloaded hwork =>
      rw [begin_working hwork] at hstep
      cases hstep
  | done hblock hwork =>
      rw [begin_discarded hblock] at hstep
      cases hstep

theorem Inv.step {a : Action K} (h : Inv n s) (hfits : Fits parkingEnabled s a) (hstep : step parkingEnabled s a = some s') :
    Inv n s' := by
  cases a with
  | begin plan => exact h.begin hfits hstep
  | pass => exact h.pass hstep
  | update =>
      rw [Segments.step] at hstep
      split at hstep
      · cases hstep
      · next hnone =>
          cases hstep
          have hsys : s.updatePlanBlockParameters.ctl.executeSysMotion = false := by
            rw [State.updatePlanBlockParameters]
            split <;> exact h.sys
          exact h.update (by simpa using hnone) hsys
  | hold =>
      rw [Segments.step] at hstep
      split at hstep
      · cases hstep
      · next hnone =>
          cases hstep
          have hsys : s.updatePlanBlockParameters.ctl.executeSysMotion = false := by
            rw [State.updatePlanBlockParameters]
            split <;> exact h.sys
          exact h.update (by simpa using hnone) hsys
  | resume =>
      rw [Segments.step] at hstep
      split at hstep
      · cases hstep
      · next hnone =>
          cases hstep
          exact h.update (by simpa using hnone) rfl

end

section
variable {K : Type*} [Field K] [LinearOrder K] [IsStrictOrderedRing K] [Sqrt K] [FloorSemiring K] {n : ℕ} {s : State K}
  {parkingEnabled : Bool}

omit [IsStrictOrderedRing K] [Sqrt K] in
theorem finish_work (b : Block K) (w : Work K) (start : Prep K) : (s.finish parkingEnabled b w start).work = none := by
  simp only [State.finish]
  split_ifs <;> rfl

theorem loop_ends : ∀ (r : ℕ ×ₗ ℕ ×ₗ ℕ) (s : State K) (b : Block K) (w : Work K) (start : Prep K), Inv n s → s.block = some b →
    s.work = some (w, start) → rank b s.prep w = r →
    ∃ k s', run (step parkingEnabled) s (List.replicate k .pass) = some s' ∧ s'.work = none := by
  intro r
  induction r using WellFoundedLT.induction with
  | ind r ih =>
      intro s b w start h hblock hwork hrank
      have hstep : step parkingEnabled s .pass = _ := pass_working hwork hblock
      dsimp only at hstep
      cases hagain : (pass b s.prep w).2.2 with
      | false =>
          rw [hagain, if_neg Bool.false_ne_true] at hstep
          exact ⟨1, _, run_cons_eq_some.2 ⟨_, hstep, rfl⟩, finish_work _ _ _⟩
      | true =>
          rw [hagain, if_pos rfl] at hstep
          have hstage := h.stage
          cases hstage with
          | fresh b hblock hok hloaded hvp hwork' => exact absurd (hwork'.symm.trans hwork) (by simp)
          | pending b hblock hok hloaded hvp hwork' => exact absurd (hwork'.symm.trans hwork) (by simp)
          | ready b hblock hok hloaded hwork' => exact absurd (hwork'.symm.trans hwork) (by simp)
          | done hblock' => exact absurd (hblock'.symm.trans hblock) (by simp)
          | looping b' w' start' hblock' hok hloaded hwork' hprogress hloop =>
              obtain rfl : b' = b := Option.some.inj (hblock'.symm.trans hblock)
              obtain ⟨rfl, rfl⟩ := Prod.mk.inj (Option.some.inj (hwork'.symm.trans hwork))
              have hlt := hloop.rank_lt hok.1 hagain
              rw [hrank] at hlt
              obtain ⟨k, s', hrun, hnone⟩ := ih _ hlt _ b' _ start' (h.pass hstep) hblock rfl rfl
              exact ⟨k + 1, s', run_cons_eq_some.2 ⟨_, hstep, hrun⟩, hnone⟩

end

end Grbl.Segments
