import RunTrace.Walk
import RunTrace.Timestamp.Basic

/-!
# Trajectories

The recorded trace of one agent run: a forest of nested subcalls, each with the tool calls made
while it executed, and summary fields that the producer of the trace supplies. Trajectories
are compared by value, timestamps as instants and costs as numbers.
-/

namespace RunTrace

/-- The state in which a subcall or tool call ended, or that it has not ended yet. -/
inductive Outcome where
  | success
  | failure
  | running
  deriving DecidableEq, Repr

namespace Outcome

/-- All outcomes, in the order in which they are listed. -/
def all : List Outcome :=
  [success, failure, running]

/-- The name of an outcome. -/
def name : Outcome → String
  | success => "success"
  | failure => "failure"
  | running => "running"

/-- The outcome with a name. -/
def ofName? (name : String) : Option Outcome :=
  all.find? (·.name == name)

/-- Whether the outcome is a failure. -/
def isFailure : Outcome → Bool
  | failure => true
  | _ => false

end Outcome

/-- A tool invocation performed while a subcall executed. -/
structure ToolCall where
  id : String
  name : String
  outcome : Outcome
  durationMs : UInt64
  deriving DecidableEq, Repr

/-- The sum of two words, or the largest word if the sum is too large. -/
def saturatingAdd (a b : UInt64) : UInt64 :=
  if a.toNat + b.toNat < UInt64.size then a + b else UInt64.ofNat (UInt64.size - 1)

theorem toNat_saturatingAdd (a b : UInt64) :
    (saturatingAdd a b).toNat = min (UInt64.size - 1) (a.toNat + b.toNat) := by
  unfold saturatingAdd UInt64.size
  split
  · rw [UInt64.toNat_add]
    omega
  · rw [UInt64.toNat_ofNat']
    omega

/-- The number of tokens read and written. -/
structure TokenCounts where
  /-- Tokens read. -/
  input : UInt64
  /-- Tokens written. -/
  output : UInt64
  deriving DecidableEq, Repr

namespace TokenCounts

/-- No tokens. -/
def zero : TokenCounts := ⟨0, 0⟩

/-- Input and output together. -/
def total (tokens : TokenCounts) : UInt64 :=
  saturatingAdd tokens.input tokens.output

/-- Inputs and outputs are added separately. -/
def add (a b : TokenCounts) : TokenCounts :=
  ⟨saturatingAdd a.input b.input, saturatingAdd a.output b.output⟩

instance : Add TokenCounts := ⟨add⟩

end TokenCounts

/-- What is recorded of one subcall, apart from the subcalls nested in it. -/
structure Call where
  /-- Identifies the subcall in the whole trajectory. -/
  id : String
  /-- The recorded depth: 0 for a root, and one more than its parent's for any other. -/
  depth : UInt32
  name : String
  outcome : Outcome
  startedAt : Timestamp
  completedAt : Option Timestamp
  durationMs : UInt64
  tokens : TokenCounts
  cost : Float
  toolCalls : List ToolCall
  /-- Why the subcall failed; for failures only. -/
  error : Option String
  deriving BEq

namespace Call

/-- Whether any tool was called. -/
def hasToolCalls (call : Call) : Bool :=
  !call.toolCalls.isEmpty

end Call

/-- A subcall with the subcalls nested in it. -/
abbrev Subcall := Tree Call

/-- The full recorded trace of one agent run. The summary fields are the producer's; nothing
in the program corrects them. -/
structure Trajectory where
  runId : String
  totalSubcalls : UInt32
  maxDepth : UInt32
  totalTokens : TokenCounts
  totalCost : Float
  totalDurationMs : UInt64
  subcalls : Forest Call
  deriving BEq

namespace Trajectory

/-- Whether no subcall is recorded. -/
def isEmpty (trajectory : Trajectory) : Bool :=
  trajectory.subcalls.isEmpty

/-- All subcalls with their depths in the tree, as a walk from the first root yields them. -/
def walk (trajectory : Trajectory) : List (UInt32 × Subcall) :=
  (Walk.start trajectory.subcalls).toList

theorem walk_eq_preorder (trajectory : Trajectory) :
    trajectory.walk = trajectory.subcalls.preorder 0 :=
  Walk.toList_start trajectory.subcalls

/-- The first subcall of the walk with an id. -/
def findSubcall? (trajectory : Trajectory) (id : String) : Option Subcall :=
  (trajectory.walk.map (·.2)).find? (·.value.id == id)

end Trajectory

end RunTrace
