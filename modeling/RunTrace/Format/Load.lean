import RunTrace.Format.Reader
import RunTrace.Validation

/-!
# Loading a trajectory file

A file is loaded if it can be read and what was read is valid.
-/

namespace RunTrace

/-- Why a trajectory file is not loaded. -/
inductive LoadError where
  | unreadable (error : Format.ReadError)
  | invalid (fault : Validation.Fault)

/-- The text shown for an error. -/
def LoadError.message : LoadError → String
  | unreadable error => "failed to parse trajectory JSON: " ++ error.message
  | invalid fault => fault.message

namespace Trajectory

/-- The trajectory that a text spells, valid or not. -/
def parse (text : String) : Except LoadError Trajectory :=
  (Format.read text).mapError .unreadable

/-- The trajectory that a text spells, if it is valid. -/
def load (text : String) : Except LoadError Trajectory := do
  let trajectory ← parse text
  trajectory.validate.mapError .invalid
  return trajectory

end Trajectory

end RunTrace
