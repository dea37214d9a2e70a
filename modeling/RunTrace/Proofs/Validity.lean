import Mathlib.Data.List.Nodup
import RunTrace.Proofs.Places
import RunTrace.Validation
import RunTrace.Viewer.DemoTrajectory

/-!
# Which trajectories are valid

Validation is one pass over the walk, which stops at the first fault and carries the ids it has
seen. Here it is compared with the rules themselves, which speak of the places of the tree and
of pairs of them.

## Main results

* `Validation.checkWalk_eq_ok_iff`: what a pass accepts from any point of the walk on;
* `validate_eq_ok_iff`: a trajectory is accepted exactly if the call at every place is sound and
  no other place has its id.
-/

namespace RunTrace

namespace Validation

/-- A cost that is accepted: a number that is finite and not negative. -/
def ValidCost (cost : Float) : Prop :=
  cost.isFinite = true ∧ ¬ cost < 0

instance (cost : Float) : Decidable (ValidCost cost) :=
  inferInstanceAs (Decidable (_ ∧ _))

/-- The rules for a call at a depth of the tree that do not depend on other calls. -/
structure Sound (depth : UInt32) (call : Call) : Prop where
  /-- The recorded depth is the one in the tree. -/
  depth_eq : call.depth = depth
  /-- Exactly the failures carry an error. -/
  error_iff : call.error.isSome = true ↔ call.outcome = .failure
  cost_valid : ValidCost call.cost

theorem isFailure_iff (outcome : Outcome) : outcome.isFailure = true ↔ outcome = .failure := by
  cases outcome <;> simp [Outcome.isFailure]

/-- The check of the outcome finds what the rule about errors says. -/
theorem isFailure_eq_isSome_iff (call : Call) :
    call.outcome.isFailure = call.error.isSome ↔
      (call.error.isSome = true ↔ call.outcome = .failure) := by
  rw [Bool.eq_iff_iff, isFailure_iff]
  exact iff_comm

/-- The check of the cost finds the costs that are not accepted. -/
theorem not_validCost_iff (cost : Float) :
    (!cost.isFinite || decide (cost < 0)) = true ↔ ¬ ValidCost cost := by
  unfold ValidCost
  rw [Bool.or_eq_true, Bool.not_eq_true', decide_eq_true_iff, not_and_or, not_not,
    Bool.not_eq_true]

/-- A call is accepted exactly if it is sound and its id has not been seen. -/
theorem checkCall_eq_ok_iff (depth : UInt32) (seen : List String) (call : Call) :
    checkCall depth seen call = .ok () ↔ Sound depth call ∧ call.id ∉ seen := by
  have hcost := not_validCost_iff call.cost
  have herror := isFailure_eq_isSome_iff call
  unfold checkCall
  constructor
  -- The four checks are made one after the other, and each has to be passed.
  · intro h
    split at h
    · contradiction
    · split at h
      · contradiction
      · split at h
        · contradiction
        · split at h
          · contradiction
          · next hdepth hid hmatch hvalid =>
            refine ⟨⟨not_not.1 hdepth, herror.1 (not_not.1 hmatch), ?_⟩, hid⟩
            exact not_not.1 fun hne => hvalid (hcost.2 hne)
  · rintro ⟨sound, hid⟩
    rw [if_neg (not_not.2 sound.depth_eq), if_neg hid,
      if_neg (not_not.2 (herror.2 sound.error_iff)), if_neg fun h => hcost.1 h sound.cost_valid]

/-- The rest of a walk is accepted exactly if its calls are sound, no id is in it twice, and none
of them has been seen before. -/
theorem checkWalk_eq_ok_iff (seen : List String) (items : List (UInt32 × Subcall)) :
    checkWalk seen items = .ok () ↔
      (∀ item ∈ items, Sound item.1 item.2.value) ∧
        (items.map (·.2.value.id)).Nodup ∧ ∀ item ∈ items, item.2.value.id ∉ seen := by
  induction items generalizing seen with
  | nil => simp [checkWalk]
  | cons item rest ih =>
    obtain ⟨depth, subcall⟩ := item
    -- The pass stops at a call that is not accepted, and otherwise its id joins those seen.
    have hstep : checkWalk seen ((depth, subcall) :: rest) = .ok () ↔
        checkCall depth seen subcall.value = .ok () ∧
          checkWalk (subcall.value.id :: seen) rest = .ok () := by
      rw [checkWalk]
      cases checkCall depth seen subcall.value with
      | error fault => simp [bind, Except.bind]
      | ok => simp [bind, Except.bind]
    rw [hstep, checkCall_eq_ok_iff, ih, List.map_cons, List.nodup_cons]
    have hfresh : subcall.value.id ∉ rest.map (·.2.value.id) ↔
        ∀ other ∈ rest, other.2.value.id ≠ subcall.value.id := by simp
    have hseen : (∀ other ∈ rest, other.2.value.id ∉ subcall.value.id :: seen) ↔
        ∀ other ∈ rest, other.2.value.id ≠ subcall.value.id ∧ other.2.value.id ∉ seen := by simp
    rw [List.forall_mem_cons, List.forall_mem_cons, hfresh, hseen]
    -- That the first id is not in the rest is said from its side by "no id twice", and from the
    -- side of the rest by the ids seen so far.
    constructor
    · rintro ⟨⟨sound, hid⟩, hsound, hnodup, hseen⟩
      exact ⟨⟨sound, hsound⟩, ⟨fun other hmem => (hseen other hmem).1, hnodup⟩, hid,
        fun other hmem => (hseen other hmem).2⟩
    · rintro ⟨⟨sound, hsound⟩, ⟨hfresh, hnodup⟩, hid, hseen⟩
      exact ⟨⟨sound, hid⟩, hsound, hnodup, fun other hmem =>
        ⟨hfresh other hmem, hseen other hmem⟩⟩

end Validation

open Validation

/-- No id is in the walk twice exactly if no two places have the same one. -/
theorem nodup_ids_iff (forest : Forest Call) :
    (forest.placed.map (·.2.value.id)).Nodup ↔
      ∀ place subcall, forest.at? place = some subcall →
        ∀ other another, forest.at? other = some another → other ≠ place →
          another.value.id ≠ subcall.value.id := by
  rw [List.nodup_map_iff_inj_on (List.Nodup.of_map _ forest.nodup_places)]
  constructor
  · intro h place subcall hplace other another hother hne heq
    have := h _ (Forest.mem_placed.2 hother) _ (Forest.mem_placed.2 hplace) heq
    exact hne (Prod.mk.inj this).1
  · rintro h ⟨place, subcall⟩ hplace ⟨other, another⟩ hother heq
    have hplace := Forest.mem_placed.1 hplace
    have hother := Forest.mem_placed.1 hother
    obtain rfl : place = other := by
      by_contra hne
      exact h other another hother place subcall hplace hne heq
    rw [Option.some.inj (hplace.symm.trans hother)]

/-- The calls of the walk are sound exactly if the call at every place is. -/
theorem forall_mem_walk_iff (trajectory : Trajectory) (p : UInt32 → Call → Prop) :
    (∀ item ∈ trajectory.walk, p item.1 item.2.value) ↔
      ∀ place subcall, trajectory.subcalls.at? place = some subcall →
        p (Forest.depthAt 0 place) subcall.value := by
  rw [trajectory.walk_eq_preorder, Forest.preorder_eq_map_placed]
  simp only [List.forall_mem_map, Prod.forall, Forest.mem_placed]

/-- The call at every place of a valid trajectory is sound. -/
theorem sound_of_validate {trajectory : Trajectory} (h : trajectory.validate = .ok ())
    {place : List Nat} {subcall : Subcall} (hplace : trajectory.subcalls.at? place = some subcall) :
    Sound (Forest.depthAt 0 place) subcall.value := by
  obtain ⟨hsound, -, -⟩ := (checkWalk_eq_ok_iff [] trajectory.walk).1 h
  exact (forall_mem_walk_iff trajectory Sound).1 hsound place subcall hplace

/-- A trajectory is valid exactly if, at every place, the recorded depth is the number of levels
above, no other place has the same id, there is an error just if the call failed, and the cost
is finite and not negative. A negative zero is not negative; what is not a number and the
infinities are not finite. -/
theorem validate_eq_ok_iff (trajectory : Trajectory)
    (height : trajectory.subcalls.height < UInt32.size) :
    (trajectory.validate = .ok () ↔
      ∀ place subcall, trajectory.subcalls.at? place = some subcall →
        subcall.value.depth.toNat = place.length - 1 ∧
          (∀ other another, trajectory.subcalls.at? other = some another → other ≠ place →
            another.value.id ≠ subcall.value.id) ∧
          (subcall.value.error.isSome = true ↔ subcall.value.outcome = .failure) ∧
          ValidCost subcall.value.cost) ∧
      ValidCost (-0.0) ∧ ¬ ValidCost (0 / 0) ∧ ¬ ValidCost (1 / 0) ∧ ¬ ValidCost (-1 / 0) := by
  refine ⟨?_, by decide⟩
  have hids : trajectory.walk.map (·.2.value.id) =
      trajectory.subcalls.placed.map (·.2.value.id) := by
    rw [trajectory.walk_eq_preorder, Forest.preorder_eq_map_placed, List.map_map]
    rfl
  have hdepth : ∀ {place subcall}, trajectory.subcalls.at? place = some subcall →
      (Forest.depthAt 0 place).toNat = place.length - 1 := fun h =>
    Forest.toNat_depthAt_zero (by have := Forest.length_le_height h; omega)
  rw [Trajectory.validate, checkWalk_eq_ok_iff, forall_mem_walk_iff trajectory Sound, hids,
    nodup_ids_iff]
  constructor
  · rintro ⟨hsound, hunique, -⟩ place subcall hplace
    have sound := hsound place subcall hplace
    exact ⟨by rw [sound.depth_eq, hdepth hplace], hunique place subcall hplace, sound.error_iff,
      sound.cost_valid⟩
  · intro h
    refine ⟨fun place subcall hplace => ?_,
      fun place subcall hplace => (h place subcall hplace).2.1, fun item _ => List.not_mem_nil⟩
    obtain ⟨hlevel, -, herror, hcost⟩ := h place subcall hplace
    exact ⟨UInt32.toNat.inj (hlevel.trans (hdepth hplace).symm), herror, hcost⟩

/-- The demo trajectory is accepted, so the depth of the call behind four others is the number
of levels above it, and its id is at no other place. -/
theorem validate_demo :
    demoTrajectory.subcalls.height < UInt32.size ∧ demoTrajectory.validate = .ok () ∧
      ∀ subcall, demoTrajectory.subcalls.at? [0, 2, 0] = some subcall →
        subcall.value.depth.toNat = 2 := by
  have height : demoTrajectory.subcalls.height < UInt32.size := by decide +kernel
  have valid : demoTrajectory.validate = .ok () := by decide +kernel
  exact ⟨height, valid, fun subcall h =>
    (((validate_eq_ok_iff demoTrajectory height).1.1 valid) _ subcall h).1⟩

end RunTrace
