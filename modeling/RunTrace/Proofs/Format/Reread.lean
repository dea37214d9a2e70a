import RunTrace.Proofs.Json.NumberDouble
import RunTrace.Proofs.Validity

/-!
# What becomes of costs

A cost that is written with its shortest digits need not be read as the same double: reading scales
the leading digits, which can be off in the last bits. Nothing else of a trajectory can change in
its text. So what is read again is the trajectory with each cost read again, and it is the same
trajectory exactly if every cost reads back.

## Main results

* `Trajectory.reread_eq_self_iff`: a trajectory is the same when it is read again exactly if each
  of its costs is;
* `validate_reread`: it is still valid when it is read again.
-/

namespace RunTrace

/-! ## Forests of other values -/

namespace Forest

variable {α β : Type}

/-- The forest of the values of a function, in the same places. -/
def map (f : α → β) : Forest α → Forest β
  | nil => nil
  | cons a children rest => cons (f a) (children.map f) (rest.map f)

variable (f : α → β)

theorem preorder_map (depth : UInt32) (forest : Forest α) :
    (forest.map f).preorder depth =
      (forest.preorder depth).map fun item =>
        (item.1, ⟨f item.2.value, item.2.children.map f⟩) := by
  induction forest generalizing depth with
  | nil => rfl
  | cons a children rest ihc ihr => simp [map, preorder, ihc, ihr]

/-- A function that leaves all values as they are leaves the forest as it is. -/
theorem map_eq_self_iff {f : α → α} (forest : Forest α) :
    forest.map f = forest ↔ ∀ a ∈ forest.toList, f a = a := by
  induction forest with
  | nil => simp [map, toList]
  | cons a children rest ihc ihr =>
    simp only [map, toList, Forest.cons.injEq, List.forall_mem_cons, List.forall_mem_append, ihc,
      ihr]

end Forest

/-! ## Costs -/

namespace Format

/-- The double that is read from what is written for a finite double. -/
def reread (cost : Float) : Float :=
  (Json.NumberLiteral.ofFloat cost).toFloat

/-- A cost reads back if the same double is read from what is written for it. -/
def ReadsBack (cost : Float) : Prop :=
  reread cost = cost

instance (cost : Float) : Decidable (ReadsBack cost) :=
  inferInstanceAs (Decidable (_ = _))

end Format

open Format

/-- A call with its cost read again. -/
def Call.reread (call : Call) : Call :=
  { call with cost := Format.reread call.cost }

namespace Trajectory

/-- A trajectory with all costs read again. -/
def reread (trajectory : Trajectory) : Trajectory :=
  { trajectory with
    totalCost := Format.reread trajectory.totalCost
    subcalls := trajectory.subcalls.map Call.reread }

/-- The total cost and the costs of all subcalls. -/
def costs (trajectory : Trajectory) : List Float :=
  trajectory.totalCost :: trajectory.subcalls.toList.map (·.cost)

/-- A trajectory is the same when it is read again exactly if each of its costs is. -/
theorem reread_eq_self_iff (trajectory : Trajectory) :
    trajectory.reread = trajectory ↔ ∀ cost ∈ trajectory.costs, ReadsBack cost := by
  have hcall : ∀ call : Call, call.reread = call ↔ ReadsBack call.cost := by
    rintro ⟨⟩
    simp [Call.reread, ReadsBack]
  obtain ⟨runId, totalSubcalls, maxDepth, totalTokens, totalCost, totalDurationMs, subcalls⟩ :=
    trajectory
  simp only [reread, costs, Trajectory.mk.injEq, Forest.map_eq_self_iff, hcall,
    List.forall_mem_cons, List.forall_mem_map, true_and]
  rfl

end Trajectory

namespace Validation

/-- A valid cost is still valid when it is read again. -/
theorem ValidCost.reread {cost : Float} (h : ValidCost cost) : ValidCost (Format.reread cost) :=
  ⟨Json.NumberLiteral.isFinite_toFloat_ofFloat h.1,
    Json.NumberLiteral.not_lt_toFloat_ofFloat h.1 h.2⟩

theorem Sound.reread {depth : UInt32} {call : Call} (h : Sound depth call) :
    Sound depth call.reread :=
  ⟨h.depth_eq, h.error_iff, h.cost_valid.reread⟩

end Validation

/-- A valid trajectory is still valid when it is read again. -/
theorem validate_reread {trajectory : Trajectory} (h : trajectory.validate = .ok ()) :
    trajectory.reread.validate = .ok () := by
  obtain ⟨hsound, hnodup, -⟩ := (Validation.checkWalk_eq_ok_iff [] trajectory.walk).1 h
  have hwalk : trajectory.reread.walk = trajectory.walk.map fun item =>
      (item.1, ⟨item.2.value.reread, item.2.children.map Call.reread⟩) := by
    rw [Trajectory.walk_eq_preorder, Trajectory.walk_eq_preorder]
    exact Forest.preorder_map Call.reread 0 trajectory.subcalls
  refine (Validation.checkWalk_eq_ok_iff [] trajectory.reread.walk).2 ⟨?_, ?_, ?_⟩
  · rw [hwalk, List.forall_mem_map]
    exact fun item hmem => (hsound item hmem).reread
  · rw [hwalk, List.map_map]
    exact hnodup
  · exact fun _ _ => List.not_mem_nil

end RunTrace
