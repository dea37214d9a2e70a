import RunTrace.Expansion
import RunTrace.Display

/-!
# The visible tree

What of a trajectory is displayed, for a record of what is expanded and for a bound on the
number of levels. A subcall on the last displayed level that has children is limited: instead
of them it shows how many there are. Depths are positional, and nothing below the bound is
looked at.
-/

namespace RunTrace

/-- The number of levels that are displayed by default. -/
def defaultBound : UInt32 := 10

/-- The last level that is displayed; there is one even if the bound is zero. -/
def lastLevel (bound : UInt32) : UInt32 :=
  if bound = 0 then 0 else bound - 1

/-- Whether a subcall at a depth has children that are beyond the bound. -/
def isDepthLimited (subcall : Subcall) (depth bound : UInt32) : Bool :=
  subcall.hasChildren && lastLevel bound ≤ depth

/-- The ids, in pre-order, of the subcalls whose children can be shown within the bound. -/
def expandableIds (bound depth : UInt32) : Forest Call → List String
  | .nil => []
  | .cons call children rest =>
    let subcall : Subcall := ⟨call, children⟩
    (if !subcall.hasChildren || isDepthLimited subcall depth bound then []
      else call.id :: expandableIds bound (depth + 1) children)
    ++ expandableIds bound depth rest

/-- The ids of the subcalls that "expand all" expands. -/
def Trajectory.expandable (trajectory : Trajectory) (bound : UInt32) : List String :=
  expandableIds bound 0 trajectory.subcalls

/-- The producer's summary as it is displayed. -/
structure Summary where
  runId : String
  totalSubcalls : String
  maxDepth : String
  totalTokens : String
  totalCost : String
  totalDuration : String
  deriving DecidableEq, Repr

/-- The summary of a trajectory. -/
def Trajectory.summary (trajectory : Trajectory) : Summary :=
  { runId := trajectory.runId
    totalSubcalls := Display.thousands trajectory.totalSubcalls.toUInt64
    maxDepth := Decimal.ofNat trajectory.maxDepth.toNat
    totalTokens := Display.tokens trajectory.totalTokens
    totalCost := Display.cost trajectory.totalCost
    totalDuration := Display.duration trajectory.totalDurationMs }

/-- A tool call as it is displayed. -/
structure ToolRow where
  id : String
  name : String
  outcome : Outcome
  glyph : String
  duration : String
  deriving DecidableEq, Repr

/-- The row of a tool call. -/
def ToolCall.row (call : ToolCall) : ToolRow :=
  { id := call.id
    name := call.name
    outcome := call.outcome
    glyph := Display.glyph call.outcome
    duration := Display.duration call.durationMs }

/-- What is displayed below the row of a subcall. -/
inductive Body where
  /-- The subcall has no children. -/
  | leaf
  /-- The children are hidden. -/
  | collapsed
  /-- The children are displayed, in the rows nested in this one. -/
  | expanded
  /-- The children are beyond the bound. -/
  | depthLimited (hidden : Nat)
  deriving DecidableEq, Repr

namespace Body

/-- Whether the children are displayed. -/
def isExpanded (body : Body) : Bool :=
  body == expanded

/-- Whether the children are beyond the bound. -/
def isDepthLimited : Body → Bool
  | depthLimited _ => true
  | _ => false

/-- The label that stands in for children beyond the bound. -/
def label? : Body → Option String
  | depthLimited hidden => some (Display.nestedLabel hidden)
  | _ => none

end Body

/-- A subcall as it is displayed, apart from the rows nested in it. -/
structure Row where
  id : String
  name : String
  depth : UInt32
  outcome : Outcome
  glyph : String
  duration : String
  tokens : String
  cost : String
  /-- The error of a failure. -/
  error : Option String
  childCount : Nat
  toolCount : Nat
  childrenExpanded : Bool
  toolsExpanded : Bool
  /-- The rows of the tool calls, if they are shown. -/
  tools : List ToolRow
  body : Body
  deriving DecidableEq, Repr

/-- What is displayed below a subcall. -/
def Subcall.body (state : Expansion) (bound depth : UInt32) (subcall : Subcall) : Body :=
  if !subcall.hasChildren then .leaf
  else if isDepthLimited subcall depth bound then .depthLimited subcall.children.length
  else if state.showsChildren subcall.value.id then .expanded
  else .collapsed

/-- The row of a subcall at a depth. -/
def Subcall.row (state : Expansion) (bound depth : UInt32) (subcall : Subcall) : Row :=
  let call := subcall.value
  let body := Subcall.body state bound depth subcall
  let toolsExpanded := state.showsTools call.id && call.hasToolCalls
  { id := call.id
    name := call.name
    depth
    outcome := call.outcome
    glyph := Display.glyph call.outcome
    duration := Display.duration call.durationMs
    tokens := Display.tokens call.tokens
    cost := Display.cost call.cost
    error := if call.outcome.isFailure then call.error else none
    childCount := subcall.children.length
    toolCount := call.toolCalls.length
    childrenExpanded := body.isExpanded
    toolsExpanded
    tools := if toolsExpanded then call.toolCalls.map ToolCall.row else []
    body }

/-- The rows of a forest whose roots are at a depth. Rows are nested only where a body is
expanded. -/
def renderForest (state : Expansion) (bound depth : UInt32) : Forest Call → Forest Row
  | .nil => .nil
  | .cons call children rest =>
    let row := Subcall.row state bound depth ⟨call, children⟩
    .cons row
      -- Children that are hidden or beyond the bound are not looked at.
      (if row.body.isExpanded then renderForest state bound (depth + 1) children else .nil)
      (renderForest state bound depth rest)

/-- What is displayed of a trajectory. -/
inductive View where
  /-- The trajectory is still being loaded. -/
  | loading (skeletonRows : Nat)
  /-- The trajectory has no subcalls. -/
  | empty (summary : Summary) (message : String)
  /-- The summary and the rows of the subcalls. -/
  | tree (summary : Summary) (roots : Forest Row)
  deriving DecidableEq

namespace View

/-- The number of rows that stand in for a trajectory that is being loaded. -/
def skeletonRows : Nat := 3

/-- What is said of a trajectory without subcalls. -/
def emptyMessage : String := "No subcalls recorded for this run"

/-- What is displayed of a trajectory. -/
def render (trajectory : Trajectory) (state : Expansion) (bound : UInt32)
    (isLoading : Bool) : View :=
  if isLoading then .loading skeletonRows
  else if trajectory.isEmpty then .empty trajectory.summary emptyMessage
  else .tree trajectory.summary (renderForest state bound 0 trajectory.subcalls)

/-- The summary that is displayed, if there is one. -/
def summary? : View → Option Summary
  | loading _ => none
  | empty summary _ => some summary
  | tree summary _ => some summary

/-- The rows of the roots with those nested in them. -/
def roots : View → Forest Row
  | tree _ roots => roots
  | _ => .nil

/-- All rows from top to bottom. -/
def visibleRows (view : View) : List Row :=
  view.roots.toList

/-- The ids of all rows from top to bottom. -/
def visibleIds (view : View) : List String :=
  view.visibleRows.map (·.id)

end View

end RunTrace
