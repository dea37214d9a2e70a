import RunTrace.Trajectory
import RunTrace.Json.Writer
import RunTrace.Timestamp.Writer

/-!
# Writing a trajectory file

Every record is written as an object with its fields in order. An instant of completion or an
error that is absent is left out; lists are written even if they are empty.
-/

namespace RunTrace.Format

/-- A string value. -/
def textValue (text : String) : Json :=
  .string (.ofText text)

/-- An integer value. -/
def wordValue (n : Nat) : Json :=
  .number (.ofNat n)

/-- A double; those that are not finite have no number. -/
def realValue (x : Float) : Json :=
  if x.isFinite then .number (.ofFloat x) else .null

/-- A member of an object. -/
def field (key : String) (value : Json) : Json.Member :=
  .member (.ofText key) value

/-- A member that may be absent. -/
def optionalField (key : String) (value? : Option Json) : List Json.Member :=
  (value?.map (field key)).toList

/-- The record of token counts. -/
def tokensValue (tokens : TokenCounts) : Json :=
  .object [field "input" (wordValue tokens.input.toNat),
    field "output" (wordValue tokens.output.toNat)]

/-- The record of a tool call. -/
def toolCallValue (call : ToolCall) : Json :=
  .object [field "id" (textValue call.id), field "name" (textValue call.name),
    field "outcome" (textValue call.outcome.name),
    field "durationMs" (wordValue call.durationMs.toNat)]

/-- The record of a subcall, given those of its children. -/
def subcallValue (call : Call) (children : List Json) : Json :=
  .object (
    [field "id" (textValue call.id), field "depth" (wordValue call.depth.toNat),
      field "name" (textValue call.name), field "outcome" (textValue call.outcome.name),
      field "startedAt" (textValue call.startedAt.text)]
    ++ optionalField "completedAt" (call.completedAt.map fun t => textValue t.text)
    ++ [field "durationMs" (wordValue call.durationMs.toNat),
      field "tokens" (tokensValue call.tokens), field "cost" (realValue call.cost),
      field "toolCalls" (.array (call.toolCalls.map toolCallValue)),
      field "children" (.array children)]
    ++ optionalField "error" (call.error.map textValue))

/-- The records of the trees of a forest. -/
def subcallValues : Forest Call → List Json
  | .nil => []
  | .cons call children rest =>
    subcallValue call (subcallValues children) :: subcallValues rest

/-- The record of a trajectory. -/
def trajectoryValue (trajectory : Trajectory) : Json :=
  .object [field "runId" (textValue trajectory.runId),
    field "totalSubcalls" (wordValue trajectory.totalSubcalls.toNat),
    field "maxDepth" (wordValue trajectory.maxDepth.toNat),
    field "totalTokens" (tokensValue trajectory.totalTokens),
    field "totalCost" (realValue trajectory.totalCost),
    field "totalDurationMs" (wordValue trajectory.totalDurationMs.toNat),
    field "subcalls" (.array (subcallValues trajectory.subcalls))]

/-- The text of a trajectory file. -/
def write (trajectory : Trajectory) : String :=
  (trajectoryValue trajectory).text

end RunTrace.Format
