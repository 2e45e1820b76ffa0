import Mathlib
import Grbl.Cycles.Canned
import Grbl.Cycles.Moves
import Grbl.Lib.OrderedField

/-!
# Drilling

What `mc_canned_drill` owes, and when it pays.

* `lines` : the lines of a cycle; `Downward`, `heights` : how they go down, and what they reach;
* `Drills` : a cycle that is safe and complete;
* `pecks_spec`, `holes_spec` : the loops, if the peck depth is positive; `pecks_endless` if it is not;
* `Sound`, `drills_iff` : the cycle is safe and complete exactly if its data are sound;
* `flat_hole_stays_down`, `rejected_block_drills_on` : inputs on which they are not.
-/

namespace Grbl.Cycles
open Function (update)
open scoped Grbl.Lib.OrderedField

section
variable {K : Type*}

def lines (es : List (Event K)) : List (Move K) :=
  es.filterMap fun
    | .line src dst rapid => some ⟨src, dst, rapid⟩
    | _ => none

@[simp] theorem lines_nil : lines ([] : List (Event K)) = [] := rfl

@[simp] theorem lines_append (es fs : List (Event K)) : lines (es ++ fs) = lines es ++ lines fs := List.filterMap_append

@[simp] theorem lines_line (src dst : Axis → K) (rapid : Bool) : lines [.line src dst rapid] = [⟨src, dst, rapid⟩] := rfl

/-- The heights the lines reach. -/
def heights (i : Axis) (ms : List (Move K)) : List K := ms.map fun m => m.dst i

end

section
variable {K : Type*} [LinearOrder K] [Field K]

@[simp] theorem lines_atBottom (motion : CycleMode) (canned : Canned K) : lines (atBottom motion canned) = [] := by
  unfold atBottom
  split_ifs <;> rfl

omit [LinearOrder K] [Field K] in
@[simp] theorem lines_afterRetract (motion : CycleMode) (canned : Canned K) : lines (afterRetract motion canned) = [] := by
  unfold afterRetract
  split_ifs <;> rfl

/-- A line that changes a plane axis runs at or above the retract plane. -/
def Move.Clear (plane : Plane) (retract : K) (m : Move K) : Prop :=
  m.src plane.axis0 ≠ m.dst plane.axis0 ∨ m.src plane.axis1 ≠ m.dst plane.axis1 →
    retract ≤ m.src plane.axisLinear ∧ retract ≤ m.dst plane.axisLinear

/-- Below the retract plane the lines go down with the feed rate, and at most `delta` below the deepest point before. -/
def Downward (i : Axis) (retract delta : K) : K → List (Move K) → Prop
  | _, [] => True
  | deepest, m :: ms =>
      (m.dst i < m.src i → m.dst i < retract → m.rapid = false ∧ deepest - delta ≤ m.dst i) ∧
        Downward i retract delta (min deepest (m.dst i)) ms

/-- A round of the hole loop that starts at this point: down to the bottom, and not below. -/
def Round (plane : Plane) (retract bottom delta : K) (start : Axis → K) (ms : List (Move K)) : Prop :=
  Downward plane.axisLinear retract delta retract ms ∧
    bottom ∈ start plane.axisLinear :: heights plane.axisLinear ms ∧
    ∀ h ∈ start plane.axisLinear :: heights plane.axisLinear ms, bottom ≤ h

/-- The rounds, one after the other. -/
def Rounds (plane : Plane) (retract bottom delta : K) : (Axis → K) → List (List (Event K)) → (Axis → K) → Prop
  | p, [], q => p = q
  | p, es :: rounds, q =>
      Round plane retract bottom delta p (lines es) ∧
        ∃ p', Path p (lines es) p' ∧ Rounds plane retract bottom delta p' rounds q

/-- A cycle that is safe and complete: to the first hole at or above the retract plane, `repeats` rounds, plane axes moved only at or above the
retract plane, and the linear axis left where the retract mode wants it. -/
structure Drills (plane : Plane) (canned : Canned K) (repeats : ℕ) (position : Axis → K) (approach : List (Event K))
    (rounds : List (List (Event K))) (last : Axis → K) : Prop where
  path : ∃ above, Path position (lines approach) above ∧
    Rounds plane canned.retractPosition (canned.xyz plane.axisLinear) canned.delta above rounds last
  approach_downward : Downward plane.axisLinear canned.retractPosition canned.delta canned.retractPosition (lines approach)
  clear : ∀ m ∈ lines (approach ++ rounds.flatten), m.Clear plane canned.retractPosition
  count : rounds.length = repeats
  last_height : last plane.axisLinear =
    if canned.retractMode = .rPos then canned.retractPosition else max canned.retractPosition (position plane.axisLinear)

end

/-! ## The pecks -/

section
variable {K : Type*} [Field K] [LinearOrder K] {g73Retract retractTo d : K} {motion : CycleMode} {plane : Plane} {canned : Canned K}
  {p q : Axis → K} {es : List (Event K)}

/-- The peck loop from the depth `d`: straight down to the bottom, and up again. -/
structure PeckRun (plane : Plane) (canned : Canned K) (retractTo : K) (p : Axis → K) (d : K) (es : List (Event K)) (q : Axis → K) : Prop where
  path : Path p (lines es) q
  vertical : ∀ m ∈ lines es, ∀ i, i ≠ plane.axisLinear → m.src i = m.dst i
  downward : Downward plane.axisLinear canned.retractPosition canned.delta d (lines es)
  above : ∀ h ∈ heights plane.axisLinear (lines es), canned.xyz plane.axisLinear ≤ h
  done : if d > canned.xyz plane.axisLinear then
      canned.xyz plane.axisLinear ∈ heights plane.axisLinear (lines es) ∧ q = update p plane.axisLinear retractTo
    else es = [] ∧ q = p

theorem PeckRun.peck (motion : CycleMode) {d' h : K} (hd : d > canned.xyz plane.axisLinear) (hbottom : canned.xyz plane.axisLinear ≤ d') (hdown : d' < d)
    (hdelta : d - canned.delta ≤ d') (hup : d' ≤ h) (hlast : d' = canned.xyz plane.axisLinear → h = retractTo)
    (hrest : PeckRun plane canned retractTo (update (update p plane.axisLinear d') plane.axisLinear h) d' es q) :
    PeckRun plane canned retractTo p d ([Event.line p (update p plane.axisLinear d') false] ++ atBottom motion canned ++
      [Event.line (update p plane.axisLinear d') (update (update p plane.axisLinear d') plane.axisLinear h) canned.rapidRetract] ++
      afterRetract motion canned ++ es) q := by
  have hlines : lines ([Event.line p (update p plane.axisLinear d') false] ++ atBottom motion canned ++
      [Event.line (update p plane.axisLinear d') (update (update p plane.axisLinear d') plane.axisLinear h) canned.rapidRetract] ++
      afterRetract motion canned ++ es) = ⟨p, update p plane.axisLinear d', false⟩ ::
        ⟨update p plane.axisLinear d', update (update p plane.axisLinear d') plane.axisLinear h, canned.rapidRetract⟩ :: lines es := by
    rw [lines_append, lines_append, lines_append, lines_append, lines_line, lines_line, lines_atBottom, lines_afterRetract]
    rfl
  obtain ⟨hpath, hvertical, hdownward, habove, hdone⟩ := hrest
  refine ⟨?_, ?_, ?_, ?_, ?_⟩
  · rw [hlines]
    exact ⟨rfl, rfl, hpath⟩
  · rw [hlines]
    intro m hm i hi
    rcases List.mem_cons.1 hm with rfl | hm
    · exact (Function.update_of_ne hi ..).symm
    rcases List.mem_cons.1 hm with rfl | hm
    · exact (Function.update_of_ne hi ..).symm
    · exact hvertical m hm i hi
  · rw [hlines]
    simp only [Downward, Function.update_self, min_eq_right hdown.le, min_eq_left hup]
    exact ⟨fun _ _ => ⟨trivial, hdelta⟩, fun hlower => absurd hlower hup.not_gt, hdownward⟩
  · rw [hlines]
    intro x hx
    simp only [heights, List.map_cons, List.mem_cons, Function.update_self] at hx
    rcases hx with rfl | rfl | hx
    · exact hbottom
    · exact hbottom.trans hup
    · exact habove x hx
  · rw [if_pos hd, hlines]
    simp only [heights, List.map_cons, List.mem_cons, Function.update_self]
    split_ifs at hdone with hmore
    · exact ⟨.inr (.inr hdone.1), by rw [hdone.2, Function.update_idem, Function.update_idem]⟩
    · have heq : d' = canned.xyz plane.axisLinear := le_antisymm (not_lt.1 hmore) hbottom
      exact ⟨.inl heq.symm, by rw [hdone.2, Function.update_idem, hlast heq]⟩

theorem PeckRun.nil (hd : ¬d > canned.xyz plane.axisLinear) : PeckRun plane canned retractTo p d [] p :=
  ⟨rfl, by simp, trivial, by simp [heights], by rw [if_neg hd]; exact ⟨rfl, rfl⟩⟩

variable [IsStrictOrderedRing K]

theorem pecks_spec (hdelta : 0 < canned.delta) (hg : 0 ≤ g73Retract) (hto : canned.retractPosition ≤ retractTo) (k : ℕ) :
    ∀ (p : Axis → K) (d : K), canned.xyz plane.axisLinear ≤ d → d ≤ canned.retractPosition → d ≤ canned.xyz plane.axisLinear + k * canned.delta →
      ∃ es q, pecks g73Retract motion plane canned retractTo k p d = some (es, q) ∧ PeckRun plane canned retractTo p d es q := by
  induction k with
  | zero =>
      intro p d _ _ hk
      rw [Nat.cast_zero, zero_mul, add_zero] at hk
      exact ⟨[], p, if_neg hk.not_gt, .nil hk.not_gt⟩
  | succ k ih =>
      intro p d _ htop hk
      by_cases hd : d > canned.xyz plane.axisLinear
      · -- one peck, and the others from the depth it reaches
        have hkd : 0 ≤ k * canned.delta := mul_nonneg (Nat.cast_nonneg k) hdelta.le
        push_cast at hk
        obtain ⟨d', hd', h0, h1, h2, h3⟩ : ∃ d', (if d - canned.delta < canned.xyz plane.axisLinear then canned.xyz plane.axisLinear
            else d - canned.delta) = d' ∧ canned.xyz plane.axisLinear ≤ d' ∧ d' < d ∧ d - canned.delta ≤ d' ∧
            d' ≤ canned.xyz plane.axisLinear + k * canned.delta := by
          refine ⟨_, rfl, ?_⟩
          split_ifs with h
          · exact ⟨le_rfl, hd, h.le, by linarith⟩
          · exact ⟨not_lt.1 h, by linarith, le_rfl, by linarith⟩
        obtain ⟨h, hh, hup, hlast⟩ : ∃ h, (if motion = .drillChipBreak then
            if update p plane.axisLinear d' plane.axisLinear = canned.xyz plane.axisLinear then retractTo
            else update p plane.axisLinear d' plane.axisLinear + g73Retract else retractTo) = h ∧ d' ≤ h ∧
            (d' = canned.xyz plane.axisLinear → h = retractTo) := by
          refine ⟨_, rfl, ?_, fun heq => ?_⟩
          · rw [Function.update_self]
            split_ifs <;> linarith
          · rw [Function.update_self, if_pos heq, ite_self]
        obtain ⟨es, q, hrun, hpecks⟩ := ih (update (update p plane.axisLinear d') plane.axisLinear h) d' h0 (by linarith) h3
        refine ⟨_, q, ?_, hpecks.peck motion hd h0 h1 h2 hup hlast⟩
        rw [pecks, if_pos hd]
        dsimp only
        rw [hd', hh, hrun]
        rfl
      · exact ⟨[], p, by rw [pecks, if_neg hd], .nil hd⟩

theorem pecks_endless (hdelta : canned.delta ≤ 0) (k : ℕ) :
    ∀ (p : Axis → K) (d : K), canned.xyz plane.axisLinear < d → pecks g73Retract motion plane canned retractTo k p d = none := by
  induction k with
  | zero =>
      intro p d hd
      rw [pecks, if_pos hd]
  | succ k ih =>
      intro p d hd
      have hdeeper : ¬d - canned.delta < canned.xyz plane.axisLinear := by linarith
      rw [pecks, if_pos hd]
      dsimp only
      rw [if_neg hdeeper, ih _ _ (by linarith)]
      rfl

omit [IsStrictOrderedRing K] in
theorem pecks_done (k : ℕ) (hd : ¬d > canned.xyz plane.axisLinear) : pecks g73Retract motion plane canned retractTo k p d = some ([], p) := by
  cases k with
  | zero => exact if_neg hd
  | succ k => rw [pecks, if_neg hd]

end

/-! ## The holes -/

section
variable {K : Type*} [Field K] [LinearOrder K] {g73Retract retractTo : K} {motion : CycleMode} {plane : Plane} {canned : Canned K}
  {p q : Axis → K} {ms ns : List (Move K)} {i : Axis} {retract delta deepest : K}

theorem downward_append (h : Downward i retract delta deepest ms) (h' : ∀ x, Downward i retract delta x ns) :
    Downward i retract delta deepest (ms ++ ns) := by
  induction ms generalizing deepest with
  | nil => exact h' _
  | cons m ms ih => exact ⟨h.1, ih h.2⟩

theorem downward_append_of_le (h : Downward i retract delta deepest ms) (hle : ∀ x ∈ heights i ms, deepest ≤ x)
    (h' : Downward i retract delta deepest ns) : Downward i retract delta deepest (ms ++ ns) := by
  induction ms with
  | nil => exact h'
  | cons m ms ih =>
      obtain ⟨hm, hrest⟩ := List.forall_mem_cons.1 hle
      have hmin : min deepest (m.dst i) = deepest := min_eq_left hm
      refine ⟨h.1, ?_⟩
      have h2 := h.2
      rw [hmin] at h2
      rw [hmin]
      exact ih h2 hrest

theorem downward_single {m : Move K} (h : m.src i ≤ m.dst i ∨ retract ≤ m.dst i) (x : K) : Downward i retract delta x [m] := by
  refine ⟨fun hdown hbelow => ?_, trivial⟩
  rcases h with hup | habove
  · exact absurd hdown hup.not_gt
  · exact absurd hbelow habove.not_gt

theorem clear_of_vertical {m : Move K} (h : ∀ i, i ≠ plane.axisLinear → m.src i = m.dst i) : m.Clear plane retract := by
  rintro (hne | hne)
  · exact absurd (h _ plane.axisLinear_ne_axis0.symm) hne
  · exact absurd (h _ plane.axisLinear_ne_axis1.symm) hne

variable (plane canned) in
theorem toRetract (p : Axis → K) (hp : canned.retractPosition ≤ p plane.axisLinear) :
    let atR := if p plane.axisLinear > canned.retractPosition then update p plane.axisLinear canned.retractPosition else p
    let toR : List (Event K) := if p plane.axisLinear > canned.retractPosition then [.line p atR true] else []
    atR plane.axisLinear = canned.retractPosition ∧ Path p (lines toR) atR ∧
      Downward plane.axisLinear canned.retractPosition canned.delta canned.retractPosition (lines toR) ∧
      (∀ m ∈ lines toR, m.Clear plane canned.retractPosition) ∧
      canned.retractPosition ∈ p plane.axisLinear :: heights plane.axisLinear (lines toR) ∧
      ∀ h ∈ p plane.axisLinear :: heights plane.axisLinear (lines toR), canned.retractPosition ≤ h := by
  split_ifs with h
  · simp only [lines_line, heights, List.map_cons, List.map_nil, List.mem_cons, List.not_mem_nil, or_false, forall_eq_or_imp, forall_eq,
      Function.update_self]
    refine ⟨trivial, ⟨rfl, rfl⟩, downward_single (.inr (by dsimp only; rw [Function.update_self])) _, clear_of_vertical fun i hi => ?_,
      .inr trivial, hp, le_rfl⟩
    exact (Function.update_of_ne hi ..).symm
  · have heq := le_antisymm (not_lt.1 h) hp
    simp only [lines_nil, heights, List.map_nil, List.mem_cons, List.not_mem_nil, or_false, forall_eq]
    exact ⟨heq, rfl, trivial, by simp, heq.symm, hp⟩

variable (plane canned) in
theorem toNext (drilled : Axis → K) (moves : Prop) [Decidable moves] (h : canned.retractPosition ≤ drilled plane.axisLinear) :
    let next :=
      if moves then
        update (update drilled plane.axis0 (drilled plane.axis0 + canned.xyz plane.axis0)) plane.axis1
          (drilled plane.axis1 + canned.xyz plane.axis1)
      else drilled
    let toNext : List (Event K) := if moves then [.line drilled next true] else []
    next plane.axisLinear = drilled plane.axisLinear ∧ Path drilled (lines toNext) next ∧
      (∀ x, Downward plane.axisLinear canned.retractPosition canned.delta x (lines toNext)) ∧
      (∀ m ∈ lines toNext, m.Clear plane canned.retractPosition) ∧
      ∀ x ∈ heights plane.axisLinear (lines toNext), canned.retractPosition ≤ x := by
  have hsame (u v : K) : update (update drilled plane.axis0 u) plane.axis1 v plane.axisLinear = drilled plane.axisLinear := by
    rw [Function.update_of_ne plane.axisLinear_ne_axis1, Function.update_of_ne plane.axisLinear_ne_axis0]
  split_ifs
  · simp only [lines_line, heights, List.map_cons, List.map_nil, List.mem_cons, List.not_mem_nil, or_false, forall_eq, hsame]
    refine ⟨trivial, ⟨rfl, rfl⟩, downward_single (.inl (hsame _ _).ge), fun _ => ?_, h⟩
    exact ⟨h, h.trans_eq (hsame _ _).symm⟩
  · exact ⟨rfl, rfl, fun _ => trivial, by simp, by simp [heights]⟩

variable [IsStrictOrderedRing K]

variable (retractTo motion) in
theorem pecks_round (hdelta : canned.xyz plane.axisLinear < canned.retractPosition → 0 < canned.delta)
    (hbottom : canned.xyz plane.axisLinear ≤ canned.retractPosition) (hg : 0 ≤ g73Retract) (hto : canned.retractPosition ≤ retractTo) {k : ℕ}
    (hk : canned.xyz plane.axisLinear < canned.retractPosition → canned.retractPosition ≤ canned.xyz plane.axisLinear + k * canned.delta)
    (p : Axis → K) : ∃ es q, pecks g73Retract motion plane canned retractTo k p canned.retractPosition = some (es, q) ∧
      PeckRun plane canned retractTo p canned.retractPosition es q := by
  rcases hbottom.lt_or_eq with hlt | heq
  · exact pecks_spec (hdelta hlt) hg hto k p _ hbottom le_rfl (hk hlt)
  · exact ⟨[], p, pecks_done k heq.ge.not_gt, .nil heq.ge.not_gt⟩

variable (motion) in
theorem holes_spec (hdelta : canned.xyz plane.axisLinear < canned.retractPosition → 0 < canned.delta)
    (hbottom : canned.xyz plane.axisLinear ≤ canned.retractPosition) (hg : 0 ≤ g73Retract) (hto : canned.retractPosition ≤ retractTo) {k : ℕ}
    (hk : canned.xyz plane.axisLinear < canned.retractPosition → canned.retractPosition ≤ canned.xyz plane.axisLinear + k * canned.delta)
    (distanceIncremental : Bool) (repeats : ℕ) : ∀ p, canned.retractPosition ≤ p plane.axisLinear →
      ∃ rounds q, holes g73Retract motion plane canned distanceIncremental retractTo k repeats p = some (rounds, q) ∧
        Rounds plane canned.retractPosition (canned.xyz plane.axisLinear) canned.delta p rounds q ∧
        (∀ m ∈ lines rounds.flatten, m.Clear plane canned.retractPosition) ∧ rounds.length = repeats ∧
        (repeats ≠ 0 → q plane.axisLinear =
          if canned.xyz plane.axisLinear < canned.retractPosition then retractTo else canned.retractPosition) := by
  induction repeats with
  | zero => exact fun p _ => ⟨[], p, rfl, rfl, by simp, rfl, fun h => absurd rfl h⟩
  | succ repeats ih =>
      intro p hp
      obtain ⟨hatR, hpathR, hdownR, hclearR, hmemR, haboveR⟩ := toRetract plane canned p hp
      rw [holes]
      dsimp only at hatR hpathR hdownR hclearR hmemR haboveR ⊢
      generalize (if p plane.axisLinear > canned.retractPosition then update p plane.axisLinear canned.retractPosition else p) = atR at *
      generalize (if p plane.axisLinear > canned.retractPosition then [Event.line p atR true] else []) = toR at *
      obtain ⟨es, drilled, hpecks, hpath, hvertical, hdownward, habove, hdone⟩ :=
        pecks_round retractTo motion hdelta hbottom hg hto hk atR
      have hheight : drilled plane.axisLinear =
          if canned.xyz plane.axisLinear < canned.retractPosition then retractTo else canned.retractPosition := by
        split_ifs at hdone ⊢ with hlt
        · rw [hdone.2, Function.update_self]
        · rw [hdone.2, hatR]
      have hhigh : canned.retractPosition ≤ drilled plane.axisLinear := by
        rw [hheight]
        split_ifs
        · exact hto
        · exact le_rfl
      rw [hatR, hpecks]
      dsimp only [Option.bind_eq_bind, Option.bind_some]
      obtain ⟨hnextR, hpathN, hdownN, hclearN, haboveN⟩ := toNext plane canned drilled
        (repeats ≠ 0 ∧ distanceIncremental = true) hhigh
      generalize (if repeats ≠ 0 ∧ distanceIncremental = true then
        update (update drilled plane.axis0 (drilled plane.axis0 + canned.xyz plane.axis0)) plane.axis1
          (drilled plane.axis1 + canned.xyz plane.axis1) else drilled) = next at *
      generalize (if repeats ≠ 0 ∧ distanceIncremental = true then [Event.line drilled next true] else []) = nexts at *
      obtain ⟨rounds, q, hholes, hrounds, hclear, hlength, hlast⟩ := ih next (hnextR ▸ hhigh)
      rw [hholes]
      refine ⟨_, q, rfl, ⟨⟨?_, ?_, ?_⟩, next, ?_, hrounds⟩, ?_, ?_, fun _ => ?_⟩
      · -- down to the retract plane, the pecks, and away
        rw [lines_append, lines_append, List.append_assoc]
        exact downward_append_of_le hdownR (fun x hx => haboveR x (List.mem_cons_of_mem _ hx)) (downward_append hdownward hdownN)
      · rw [lines_append, lines_append, heights, List.map_append, List.map_append, ← heights, ← heights]
        split_ifs at hdone with hlt
        · simp only [List.mem_cons, List.mem_append]
          exact .inr (.inl (.inr hdone.1))
        · have heq : canned.xyz plane.axisLinear = canned.retractPosition := le_antisymm hbottom (not_lt.1 hlt)
          rw [heq]
          rcases List.mem_cons.1 hmemR with hmem | hmem
          · exact List.mem_cons.2 (.inl hmem)
          · exact List.mem_cons_of_mem _ (List.mem_append_left _ (List.mem_append_left _ hmem))
      · rw [lines_append, lines_append, heights, List.map_append, List.map_append, ← heights, ← heights]
        intro x hx
        simp only [List.mem_cons, List.mem_append] at hx
        rcases hx with rfl | (hx | hx) | hx
        · exact hbottom.trans hp
        · exact hbottom.trans (haboveR x (List.mem_cons_of_mem _ hx))
        · exact habove x hx
        · exact hbottom.trans (haboveN x hx)
      · rw [lines_append, lines_append]
        exact path_append (path_append hpathR hpath) hpathN
      · rw [List.flatten_cons, lines_append, lines_append, lines_append]
        intro m hm
        simp only [List.mem_append] at hm
        rcases hm with ((hm | hm) | hm) | hm
        · exact hclearR m hm
        · exact clear_of_vertical (hvertical m hm)
        · exact hclearN m hm
        · exact hclear m hm
      · rw [List.length_cons, hlength]
      · by_cases hzero : repeats = 0
        · subst hzero
          obtain ⟨-, rfl⟩ := Prod.mk.inj (Option.some.inj hholes)
          rw [hnextR, hheight]
        · exact hlast hzero

end

/-! ## The cycle -/

section
variable {K : Type*} [Field K] [LinearOrder K] [IsStrictOrderedRing K] {g73Retract : K} {motion : CycleMode} {plane : Plane}
  {canned : Canned K} {target position : Axis → K} {repeats fuel : ℕ} {distanceIncremental : Bool}

theorem holes_endless {retractTo : K} {p : Axis → K} (hdelta : canned.delta ≤ 0)
    (hbottom : canned.xyz plane.axisLinear < canned.retractPosition) (hp : canned.retractPosition ≤ p plane.axisLinear) (hrepeats : repeats ≠ 0) :
    holes g73Retract motion plane canned distanceIncremental retractTo fuel repeats p = none := by
  obtain ⟨n, rfl⟩ := Nat.exists_eq_succ_of_ne_zero hrepeats
  rw [holes]
  dsimp only
  rw [(toRetract plane canned p hp).1, pecks_endless hdelta fuel _ _ hbottom]
  rfl

theorem raised_height (plane : Plane) (canned : Canned K) (position : Axis → K) :
    (if position plane.axisLinear < canned.retractPosition then update position plane.axisLinear canned.retractPosition else position)
      plane.axisLinear = max canned.retractPosition (position plane.axisLinear) := by
  split_ifs with h
  · rw [Function.update_self, max_eq_left h.le]
  · rw [max_eq_right (not_lt.1 h)]

theorem approach_spec (plane : Plane) (canned : Canned K) (position target : Axis → K) :
    let raised :=
      if position plane.axisLinear < canned.retractPosition then update position plane.axisLinear canned.retractPosition else position
    let raise : List (Event K) := if position plane.axisLinear < canned.retractPosition then [Event.line position raised true] else []
    let above := update target plane.axisLinear (raised plane.axisLinear)
    Path position (lines (raise ++ [Event.line raised above true])) above ∧
      Downward plane.axisLinear canned.retractPosition canned.delta canned.retractPosition (lines (raise ++ [Event.line raised above true])) ∧
      ∀ m ∈ lines (raise ++ [Event.line raised above true]), m.Clear plane canned.retractPosition := by
  have hheight := raised_height plane canned position
  dsimp only
  split_ifs at hheight ⊢ with h
  · rw [lines_append, lines_line, lines_line]
    simp only [List.cons_append, List.nil_append, List.mem_cons, List.not_mem_nil, or_false, forall_eq_or_imp, forall_eq, Function.update_self]
    refine ⟨⟨rfl, rfl, rfl⟩, ⟨fun _ hbelow => ?_, downward_single (.inr (by simp)) _⟩, clear_of_vertical fun i hi => ?_, fun _ => ?_⟩
    · exact absurd hbelow (by simp)
    · exact (Function.update_of_ne hi ..).symm
    · exact ⟨by simp, by simp⟩
  · rw [lines_append, lines_line, lines_nil]
    simp only [List.nil_append, List.mem_cons, List.not_mem_nil, or_false, forall_eq]
    refine ⟨⟨rfl, rfl⟩, downward_single (.inl (by simp)) _, fun _ => ?_⟩
    exact ⟨not_lt.1 h, by simpa using not_lt.1 h⟩

variable (canned) in
/-- The cycle ends, and drills every hole, if the peck depth is positive where there is something to drill; a hole without depth must not lie
below the height the cycle ends at. -/
theorem mcCannedDrill_drills [Archimedean K] (hg : 0 ≤ g73Retract) (hbottom : canned.xyz plane.axisLinear ≤ canned.retractPosition)
    (hdelta : canned.xyz plane.axisLinear < canned.retractPosition → 0 < canned.delta)
    (hflat : canned.xyz plane.axisLinear = canned.retractPosition → canned.retractMode = .rPos ∨ position plane.axisLinear ≤ canned.retractPosition)
    (hrepeats : repeats ≠ 0) : ∃ fuel approach rounds last,
      mcCannedDrill g73Retract motion target position plane repeats canned distanceIncremental fuel = some (approach, rounds, last) ∧
        Drills plane canned repeats position approach rounds last := by
  obtain ⟨k, hk⟩ : ∃ k : ℕ, canned.xyz plane.axisLinear < canned.retractPosition →
      canned.retractPosition ≤ canned.xyz plane.axisLinear + k * canned.delta := by
    by_cases hlt : canned.xyz plane.axisLinear < canned.retractPosition
    · obtain ⟨k, hk⟩ := exists_nat_ge ((canned.retractPosition - canned.xyz plane.axisLinear) / canned.delta)
      refine ⟨k, fun _ => ?_⟩
      rw [div_le_iff₀ (hdelta hlt)] at hk
      linarith
    · exact ⟨0, fun h => absurd h hlt⟩
  have hheight := raised_height plane canned position
  obtain ⟨hpath, hdownward, hclear⟩ := approach_spec plane canned position target
  unfold mcCannedDrill
  dsimp only at hpath hdownward hclear ⊢
  generalize (if position plane.axisLinear < canned.retractPosition then update position plane.axisLinear canned.retractPosition
    else position) = raised at *
  have hhigh : canned.retractPosition ≤ raised plane.axisLinear := hheight ▸ le_max_left _ _
  have hto : canned.retractPosition ≤ if canned.retractMode = .rPos then canned.retractPosition else raised plane.axisLinear := by
    split_ifs
    · exact le_rfl
    · exact hhigh
  obtain ⟨rounds, q, hholes, hrounds, hclears, hlength, hlast⟩ := holes_spec motion hdelta hbottom hg hto hk distanceIncremental
    repeats (update target plane.axisLinear (raised plane.axisLinear)) (by rwa [Function.update_self])
  refine ⟨k, _, rounds, q, by rw [hholes]; rfl, ⟨_, hpath, hrounds⟩, hdownward, ?_, hlength, ?_⟩
  · rw [lines_append]
    intro m hm
    rcases List.mem_append.1 hm with hm | hm
    · exact hclear m hm
    · exact hclears m hm
  · rw [hlast hrepeats, hheight]
    rcases hbottom.lt_or_eq with hlt | heq
    · rw [if_pos hlt]
    · rw [if_neg heq.not_lt]
      rcases hflat heq with hmode | hle
      · rw [if_pos hmode]
      · rw [max_eq_left hle, ite_self]

/-- Where a hole without depth lies below the height the cycle should end at, it ends in the retract plane. -/
theorem last_of_flat {approach : List (Event K)} {rounds : List (List (Event K))} {last : Axis → K} (hg : 0 ≤ g73Retract)
    (hflat : canned.xyz plane.axisLinear = canned.retractPosition) (hrepeats : repeats ≠ 0)
    (h : mcCannedDrill g73Retract motion target position plane repeats canned distanceIncremental fuel = some (approach, rounds, last)) :
    last plane.axisLinear = canned.retractPosition := by
  have hheight := raised_height plane canned position
  unfold mcCannedDrill at h
  dsimp only at h
  generalize (if position plane.axisLinear < canned.retractPosition then update position plane.axisLinear canned.retractPosition
    else position) = raised at *
  have hhigh : canned.retractPosition ≤ raised plane.axisLinear := hheight ▸ le_max_left _ _
  have hto : canned.retractPosition ≤ if canned.retractMode = .rPos then canned.retractPosition else raised plane.axisLinear := by
    split_ifs
    · exact le_rfl
    · exact hhigh
  have hnot := hflat.not_lt
  obtain ⟨rounds', q, hholes, -, -, -, hlast⟩ := holes_spec motion (k := fuel) (fun hlt => absurd hlt hnot) hflat.le hg hto
    (fun hlt => absurd hlt hnot) distanceIncremental repeats (update target plane.axisLinear (raised plane.axisLinear))
    (by rwa [Function.update_self])
  rw [hholes] at h
  obtain ⟨-, -, rfl⟩ : _ ∧ _ ∧ q = last := by
    simpa only [Option.bind_eq_bind, Option.bind_some, Option.some.injEq, Prod.mk.injEq] using h
  rw [hlast hrepeats, if_neg hnot]

variable (canned) in
theorem endless (hdelta : canned.delta ≤ 0) (hbottom : canned.xyz plane.axisLinear < canned.retractPosition) (hrepeats : repeats ≠ 0) :
    mcCannedDrill g73Retract motion target position plane repeats canned distanceIncremental fuel = none := by
  have hheight := raised_height plane canned position
  unfold mcCannedDrill
  dsimp only
  rw [holes_endless hdelta hbottom (by rw [Function.update_self, hheight]; exact le_max_left _ _) hrepeats]
  rfl

/-- The data of a cycle are sound: in G98 a hole without depth is not programmed below the initial height; and a peck cycle without Q that has
something to drill finds a positive peck depth from a cycle before. -/
def Sound (b : CycleBlock K) (position : Axis → K) (c c' : Canned K) (mode : RetractMode) : Prop :=
  (c'.xyz b.plane.axisLinear = c'.retractPosition → mode = .rPos ∨ position b.plane.axisLinear ≤ c'.retractPosition) ∧
    (c'.xyz b.plane.axisLinear < c'.retractPosition → b.motion.Pecks → b.wordQ = false → 0 < leftOver b position c)

/-- A drilling cycle that passes the checks is safe and complete exactly if its data are sound. -/
theorem drills_iff [Archimedean K] {b : CycleBlock K} {c c' : Canned K} {l : ℕ} (mode : RetractMode) (hg : 0 ≤ g73Retract)
    (hdrills : b.motion.Drills) (hok : cannedCycle b position c = (c', .ok l)) :
    (∃ fuel approach rounds last,
      mcCannedDrill g73Retract b.motion b.xyz position b.plane l { c' with retractMode := mode } b.distanceIncremental fuel =
          some (approach, rounds, last) ∧
        Drills b.plane { c' with retractMode := mode } l position approach rounds last) ↔ Sound b position c c' mode := by
  obtain ⟨hbottom, hl, hpecks, hsingle⟩ := cannedCycle_ok hdrills hok
  have hxyz : ({ c' with retractMode := mode } : Canned K).xyz b.plane.axisLinear = c'.xyz b.plane.axisLinear := by cases b.plane <;> rfl
  constructor
  · rintro ⟨fuel, approach, rounds, last, hrun, hcycle⟩
    constructor
    · intro hflat
      by_contra hnot
      rw [not_or, not_le] at hnot
      have hlast := hcycle.last_height
      rw [last_of_flat hg (hxyz.trans hflat) hl hrun, if_neg hnot.1, max_eq_right hnot.2.le] at hlast
      exact hnot.2.ne hlast
    · intro hlt hpeck hq
      by_contra hle
      have hdelta := (hpecks hpeck).1
      rw [hq, if_neg Bool.false_ne_true] at hdelta
      rw [endless { c' with retractMode := mode } ((le_of_eq hdelta).trans (not_lt.1 hle)) (hxyz.trans_lt hlt) hl] at hrun
      cases hrun
  · rintro ⟨hflat, hleft⟩
    refine mcCannedDrill_drills { c' with retractMode := mode } hg (hxyz.trans_le hbottom) (fun hlt => ?_)
      (fun heq => hflat (hxyz.symm.trans heq)) hl
    rw [hxyz] at hlt
    by_cases hpeck : b.motion.Pecks
    · obtain ⟨hdelta, hq⟩ := hpecks hpeck
      refine lt_of_lt_of_eq ?_ hdelta.symm
      split_ifs with hword
      · refine mul_pos (hq hword) ?_
        unfold CycleBlock.units
        split_ifs <;> norm_num
      · exact hleft hlt hpeck (by simpa using hword)
    · refine lt_of_lt_of_eq ?_ (hsingle hpeck).symm
      linarith

end

/-! ## Examples -/

section

/-- Nothing is known of a cycle before. -/
def noCanned : Canned ℚ := ⟨0, 0, 0, 0, 0, 0, false, false, .previous⟩

/-- The machine is at Z10. -/
def atZ10 : Axis → ℚ := fun i => if i = .z then 10 else 0

/-- `G8x X20 Z.. R..` in the XY plane. -/
def drillBlock (motion : CycleMode) (change : Bool) (z r : ℚ) (q : Option ℚ) : CycleBlock ℚ where
  motion := motion
  plane := .xy
  change := change
  inverseTime := false
  wordR := true
  wordL := false
  wordP := false
  wordQ := q.isSome
  r := r
  p := 0
  q := q.getD 0
  l := 0
  axisWords i := i == .x || i == .z
  xyz i := if i = .x then 20 else if i = .z then z else 0
  unitsImperial := false
  distanceIncremental := false
  blockOffset _ := 0
  isRotary _ := false
  atSpeed := true

theorem drills_iff_deep :
    (∃ fuel approach rounds last,
      mcCannedDrill 0 .cannedCycle83 (drillBlock .cannedCycle83 true (-5) 1 (some 1)).xyz atZ10 .xy 1
          { (cannedCycle (drillBlock .cannedCycle83 true (-5) 1 (some 1)) atZ10 noCanned).1 with retractMode := .rPos } false fuel =
          some (approach, rounds, last) ∧
        Drills .xy { (cannedCycle (drillBlock .cannedCycle83 true (-5) 1 (some 1)) atZ10 noCanned).1 with retractMode := .rPos } 1 atZ10
          approach rounds last) ↔
      Sound (drillBlock .cannedCycle83 true (-5) 1 (some 1)) atZ10 noCanned
        (cannedCycle (drillBlock .cannedCycle83 true (-5) 1 (some 1)) atZ10 noCanned).1 .rPos :=
  drills_iff (b := drillBlock .cannedCycle83 true (-5) 1 (some 1)) .rPos le_rfl trivial
    (Prod.ext rfl (by decide +kernel))

/-- `G98 G81 X20 Z0 R0` from Z10 is accepted and ends at Z0. And after `G83 X20 Z-5 R1 Q1` and a block `G81 X20 Z1 R1`, which another word of it
gets rejected, `X20 Z-5 R1` is accepted as G83 and never ends. -/
theorem flat_hole_stays_down :
    ((cannedCycle (drillBlock .cannedCycle81 true 0 0 none) atZ10 noCanned).2 = .ok 1 ∧
      ¬∃ fuel approach rounds last,
        mcCannedDrill 0 .cannedCycle81 (drillBlock .cannedCycle81 true 0 0 none).xyz atZ10 .xy 1
            { (cannedCycle (drillBlock .cannedCycle81 true 0 0 none) atZ10 noCanned).1 with retractMode := .previous } false fuel =
            some (approach, rounds, last) ∧
          Drills .xy { (cannedCycle (drillBlock .cannedCycle81 true 0 0 none) atZ10 noCanned).1 with retractMode := .previous } 1 atZ10
            approach rounds last) ∧
    let pecked := (cannedCycle (drillBlock .cannedCycle83 true (-5) 1 (some 1)) atZ10 noCanned).1
    let rejected := (cannedCycle (drillBlock .cannedCycle81 true 1 1 none) atZ10 pecked).1
    (cannedCycle (drillBlock .cannedCycle83 false (-5) 1 none) atZ10 rejected).2 = .ok 1 ∧
      ∀ fuel, mcCannedDrill 0 .cannedCycle83 (drillBlock .cannedCycle83 false (-5) 1 none).xyz atZ10 .xy 1
        (cannedCycle (drillBlock .cannedCycle83 false (-5) 1 none) atZ10 rejected).1 false fuel = none := by
  refine ⟨⟨by decide +kernel, ?_⟩, by decide +kernel, fun fuel => endless _ (by decide +kernel) (by decide +kernel) one_ne_zero⟩
  rintro ⟨fuel, approach, rounds, last, hrun, hcycle⟩
  have hlast := hcycle.last_height
  rw [last_of_flat le_rfl (by decide +kernel) one_ne_zero hrun] at hlast
  exact absurd hlast (by decide +kernel)

end

end Grbl.Cycles
