import Mathlib
import Grbl.Axis

/-!
# The work envelope

`machine_limits.c`: the envelope that homing leaves for the soft limits and for jogging.

* `Settings` : what the limits read of the settings;
* `WorkEnvelope`, `limitsSetWorkEnvelope` : the bounds of each axis;
* `Limited` : the axes that have bounds: homed, with a travel limit;
* `checkTravelLimits` : the check of a single target; `checkTravelLimits_iff`.
-/

namespace Grbl.Limits

/-- The settings of the axes and of homing. `max_travel` is stored as a negative value, 0 is no limit. -/
structure Settings (K : Type*) where
  maxTravel : Axis → K
  homingPulloff : Axis → K
  hardEnabled : Bool
  forceSetOrigin : Bool
  dirMask : Axis → Bool

/-- `work_envelope_t` -/
structure WorkEnvelope (K : Type*) where
  min : Axis → K
  max : Axis → K

section
variable {K : Type*} [Field K]

/-- `limits_set_work_envelope`: the bounds of the homed axes; `homing` is the mask of the axes with home switches. -/
def limitsSetWorkEnvelope (settings : Settings K) (homed homing : Axis → Bool) : WorkEnvelope K :=
  let pulloff i := if settings.hardEnabled && homing i then settings.homingPulloff i else 0
  { min := fun i =>
      if homed i then
        if settings.forceSetOrigin then if !settings.dirMask i then settings.maxTravel i + pulloff i else 0
        else settings.maxTravel i + pulloff i
      else 0
    max := fun i =>
      if homed i then
        if settings.forceSetOrigin then if !settings.dirMask i then 0 else -(settings.maxTravel i + pulloff i)
        else -pulloff i
      else 0 }

end

section
variable {K : Type*} [Field K] [LinearOrder K] {settings : Settings K} {homed : Axis → Bool}

/-- The axes that are limited to the envelope. -/
def Limited (settings : Settings K) (homed : Axis → Bool) (i : Axis) : Prop := homed i = true ∧ settings.maxTravel i < 0

instance (i : Axis) : Decidable (Limited settings homed i) := inferInstanceAs (Decidable (_ ∧ _))

/-- The point lies in the envelope, as far as the axis goes. -/
def WorkEnvelope.Inside (e : WorkEnvelope K) (p : Axis → K) (i : Axis) : Prop := e.min i ≤ p i ∧ p i ≤ e.max i

instance (e : WorkEnvelope K) (p : Axis → K) (i : Axis) : Decidable (e.Inside p i) := inferInstanceAs (Decidable (_ ∧ _))

/-- `check_travel_limits`: false if the target leaves the envelope on one of the axes that are homed. The axes are taken from the last one on. -/
def checkTravelLimits (homed : Axis → Bool) (target : Axis → K) (axes : Axis → Bool) (isCartesian : Bool) (envelope : WorkEnvelope K) : Bool :=
  let failed :=
    if isCartesian && Axis.all.any fun i => homed i && axes i then
      Axis.all.reverse.any fun i => homed i && axes i && (decide (target i < envelope.min i) || decide (target i > envelope.max i))
    else false
  isCartesian && !failed

theorem checkTravelLimits_iff {axes : Axis → Bool} {target : Axis → K} {envelope : WorkEnvelope K} :
    checkTravelLimits homed target axes true envelope = true ↔ ∀ i, homed i = true → axes i = true → envelope.Inside target i := by
  have hfail (i : Axis) : (homed i && axes i && (decide (target i < envelope.min i) || decide (target i > envelope.max i))) = false ↔
      (homed i = true → axes i = true → envelope.Inside target i) := by
    simp only [WorkEnvelope.Inside, ← not_lt]
    cases homed i <;> cases axes i <;> simp
  unfold checkTravelLimits
  simp only [Bool.true_and, Bool.not_eq_true']
  split_ifs with hany
  · simp only [List.any_eq_false, List.mem_reverse, Axis.mem_all, true_implies, Bool.not_eq_true, hfail]
  · refine ⟨fun _ i hhomed haxes => absurd ?_ hany, fun _ => rfl⟩
    rw [List.any_eq_true]
    exact ⟨i, i.mem_all, by rw [hhomed, haxes]; rfl⟩

end

end Grbl.Limits
