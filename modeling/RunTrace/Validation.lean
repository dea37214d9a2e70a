import RunTrace.Trajectory
import RunTrace.Decimal.Layout

/-!
# Validation

What a trajectory has to satisfy before it is shown: recorded depths are those in the tree,
ids are unique, exactly the failures carry an error, and costs are numbers that are finite and
not negative. The subcalls are checked in the order of the walk, each for one rule after the
other, and the first fault is reported.
-/

namespace RunTrace

namespace Validation

/-- What is wrong with a subcall. -/
inductive Fault where
  /-- The recorded depth is not the one in the tree. -/
  | depthMismatch (id : String) (expected found : UInt32)
  /-- The id is that of an earlier subcall. -/
  | duplicateId (id : String)
  /-- A failure has no error, or another outcome has one. -/
  | errorOutcomeMismatch (id : String) (outcome : Outcome)
  /-- The cost is negative or not a finite number. -/
  | invalidCost (id : String) (cost : Float)
  deriving DecidableEq

/-- How a mismatch of outcome and error is told. -/
def mismatchDetail (outcome : Outcome) : String :=
  if outcome.isFailure then "has no error message" else "carries an error message"

/-- The text shown for a fault. -/
def Fault.message : Fault → String
  | depthMismatch id expected found =>
    "subcall '" ++ id ++ "' has depth " ++ Decimal.ofNat found.toNat ++ ", expected "
      ++ Decimal.ofNat expected.toNat
  | duplicateId id => "subcall id '" ++ id ++ "' appears more than once"
  | errorOutcomeMismatch id outcome =>
    "subcall '" ++ id ++ "' is " ++ outcome.name ++ " but " ++ mismatchDetail outcome
  | invalidCost id cost =>
    "subcall '" ++ id ++ "' has invalid cost " ++ Decimal.plain.float cost

/-- Checks a subcall at a depth of the tree, where `seen` are the ids before it. -/
def checkCall (depth : UInt32) (seen : List String) (call : Call) : Except Fault Unit :=
  if call.depth ≠ depth then .error (.depthMismatch call.id depth call.depth)
  else if call.id ∈ seen then .error (.duplicateId call.id)
  else if call.outcome.isFailure ≠ call.error.isSome then
    .error (.errorOutcomeMismatch call.id call.outcome)
  else if !call.cost.isFinite || call.cost < 0 then .error (.invalidCost call.id call.cost)
  else .ok ()

/-- Checks the subcalls of a walk in order, where `seen` are the ids before them. -/
def checkWalk (seen : List String) : List (UInt32 × Subcall) → Except Fault Unit
  | [] => .ok ()
  | (depth, subcall) :: rest => do
    checkCall depth seen subcall.value
    checkWalk (subcall.value.id :: seen) rest

end Validation

/-- Checks a trajectory. -/
def Trajectory.validate (trajectory : Trajectory) : Except Validation.Fault Unit :=
  Validation.checkWalk [] trajectory.walk

end RunTrace
