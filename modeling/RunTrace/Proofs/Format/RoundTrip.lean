import RunTrace.Format.Load
import RunTrace.Proofs.Format.Nesting
import RunTrace.Proofs.Validity

/-!
# Trajectories, written and read again

Exactly the trajectories that can be read at all are read from their own text, with their costs read
again. A valid one is loaded from it: its costs are finite, so it is only the total cost and the
height of the trees that can be in the way. It is the same trajectory if every cost reads back.

## Main results

* `read_write_iff`: which trajectories are read from their text as they were;
* `load_write`: valid trajectories are loaded from their text, and whatever is loaded from any
  text is loaded again from its own.
-/

namespace RunTrace

namespace Format

/-- The same trajectory is read from its text exactly if its costs are finite and read back, and its
trees are no higher than the reader allows. -/
theorem read_write_iff (trajectory : Trajectory) :
    read (write trajectory) = .ok trajectory ↔
      Writable trajectory ∧ ∀ cost ∈ trajectory.costs, ReadsBack cost := by
  rw [← trajectory.reread_eq_self_iff]
  constructor
  · intro h
    have hwritable := writable_of_read h
    rw [read_write hwritable] at h
    exact ⟨hwritable, Except.ok.inj h⟩
  · rintro ⟨hwritable, hreread⟩
    rw [read_write hwritable, hreread]

end Format

open Format

/-- The calls of a valid trajectory have finite costs. -/
theorem isFinite_of_validate {trajectory : Trajectory} (h : trajectory.validate = .ok ()) :
    ∀ call ∈ trajectory.subcalls.toList, call.cost.isFinite = true := by
  obtain ⟨hsound, -, -⟩ := (Validation.checkWalk_eq_ok_iff [] trajectory.walk).1 h
  -- Validation goes through the walk, and the conditions of reading through the calls.
  rw [← Forest.map_value_subtrees, ← Forest.map_snd_preorder 0, ← trajectory.walk_eq_preorder]
  simp only [List.forall_mem_map]
  exact fun item hmem => (hsound item hmem).cost_valid.1

/-- What is loaded has been read and is valid. -/
theorem load_eq_ok {text : String} {trajectory : Trajectory}
    (h : Trajectory.load text = .ok trajectory) :
    read text = .ok trajectory ∧ trajectory.validate = .ok () := by
  obtain ⟨result, hresult, h⟩ := bind_eq_ok.1 h
  obtain ⟨⟨⟩, hvalid, h⟩ := bind_eq_ok.1 h
  obtain rfl : result = trajectory := Except.ok.inj h
  exact ⟨mapError_eq_ok.1 hresult, mapError_eq_ok.1 hvalid⟩

/-- A valid trajectory is loaded from its text if it can be read, with its costs read again. -/
theorem load_of_writable {trajectory : Trajectory} (hvalid : trajectory.validate = .ok ())
    (h : Writable trajectory) : Trajectory.load (write trajectory) = .ok trajectory.reread := by
  rw [Trajectory.load, Trajectory.parse, read_write h]
  change ((trajectory.reread.validate.mapError LoadError.invalid) >>=
    fun _ => pure trajectory.reread) = _
  rw [validate_reread hvalid]
  rfl

/-- It is loaded as it was exactly if it can be read at all and its costs read back. -/
theorem load_eq_self_iff {trajectory : Trajectory} (hvalid : trajectory.validate = .ok ()) :
    Trajectory.load (write trajectory) = .ok trajectory ↔
      Writable trajectory ∧ ∀ cost ∈ trajectory.costs, ReadsBack cost := by
  constructor
  · intro h
    exact (read_write_iff trajectory).1 (load_eq_ok h).1
  · rintro ⟨hwritable, hcosts⟩
    rw [load_of_writable hvalid hwritable, trajectory.reread_eq_self_iff.2 hcosts]

/-- A valid trajectory that is not too high is loaded from its text if its costs read back. -/
theorem load_of_readsBack {trajectory : Trajectory} (hvalid : trajectory.validate = .ok ())
    (htotal : trajectory.totalCost.isFinite = true)
    (hheight : trajectory.subcalls.height ≤ maxHeight)
    (hcosts : ∀ cost ∈ trajectory.costs, ReadsBack cost) :
    Trajectory.load (write trajectory) = .ok trajectory :=
  (load_eq_self_iff hvalid).2 ⟨⟨htotal, isFinite_of_validate hvalid, hheight⟩, hcosts⟩

theorem readsBack_demoTrajectory : ∀ cost ∈ demoTrajectory.costs, ReadsBack cost := by
  decide +kernel

/-- The demo trajectory is loaded from its text, whatever its run is called. -/
theorem load_demoTrajectory (runId : String) :
    Trajectory.load (write { demoTrajectory with runId }) =
      .ok { demoTrajectory with runId } := by
  have hvalid : demoTrajectory.validate = .ok () := by decide +kernel
  have htotal : demoTrajectory.totalCost.isFinite = true := by decide +kernel
  have hheight : demoTrajectory.subcalls.height ≤ maxHeight := by decide +kernel
  exact load_of_readsBack hvalid htotal hheight readsBack_demoTrajectory

/-- A valid trajectory with a finite total cost is loaded from its text with its costs read again,
unless a subcall is nested more than 61 levels deep. It is loaded as it was, to the last bit of its
costs, exactly if all of these read back. So what is loaded from any text is loaded again from the
text that is written for it, and written the same, if its costs read back. -/
theorem load_write :
    (∀ trajectory : Trajectory, trajectory.validate = .ok () →
      trajectory.totalCost.isFinite = true →
      (∀ place subcall, trajectory.subcalls.at? place = some subcall → place.length - 1 ≤ 61) →
      Trajectory.load (write trajectory) = .ok trajectory.reread ∧
        (Trajectory.load (write trajectory) = .ok trajectory ↔
          ∀ cost ∈ trajectory.costs, ReadsBack cost)) ∧
    ∀ text trajectory, Trajectory.load text = .ok trajectory →
      Trajectory.load (write trajectory) = .ok trajectory.reread ∧
        ((∀ cost ∈ trajectory.costs, ReadsBack cost) →
          Trajectory.load (write trajectory) = .ok trajectory ∧
            write <$> Trajectory.load (write trajectory) = .ok (write trajectory)) := by
  constructor
  · intro trajectory hvalid htotal hdepth
    -- A place is one level longer than its depth.
    have hheight : trajectory.subcalls.height ≤ maxHeight :=
      Forest.height_le fun place subcall hplace => by
        have := hdepth place subcall hplace
        simp only [maxHeight]
        omega
    have hwritable : Writable trajectory := ⟨htotal, isFinite_of_validate hvalid, hheight⟩
    exact ⟨load_of_writable hvalid hwritable,
      (load_eq_self_iff hvalid).trans (and_iff_right hwritable)⟩
  · intro text trajectory h
    obtain ⟨hread, hvalid⟩ := load_eq_ok h
    have hwritable := writable_of_read hread
    refine ⟨load_of_writable hvalid hwritable, fun hcosts => ?_⟩
    have hload := (load_eq_self_iff hvalid).2 ⟨hwritable, hcosts⟩
    refine ⟨hload, ?_⟩
    rw [hload]
    rfl

/-- The demo trajectory is valid, has a finite total cost and 13 levels, and its costs read back. So
it is loaded from its text as it was, and written the same. -/
theorem load_write_demo :
    demoTrajectory.validate = .ok () ∧ demoTrajectory.totalCost.isFinite = true ∧
      (∀ cost ∈ demoTrajectory.costs, ReadsBack cost) ∧
      Trajectory.load (write demoTrajectory) = .ok demoTrajectory ∧
        write <$> Trajectory.load (write demoTrajectory) = .ok (write demoTrajectory) := by
  have hvalid : demoTrajectory.validate = .ok () := by decide +kernel
  have htotal : demoTrajectory.totalCost.isFinite = true := by decide +kernel
  have hheight : demoTrajectory.subcalls.height = 13 := by decide +kernel
  obtain ⟨-, hself⟩ := load_write.1 demoTrajectory hvalid htotal fun place subcall hplace => by
    have := Forest.length_le_height hplace
    omega
  have hload := hself.2 readsBack_demoTrajectory
  exact ⟨hvalid, htotal, readsBack_demoTrajectory,
    (load_write.2 _ _ hload).2 readsBack_demoTrajectory⟩

end RunTrace
