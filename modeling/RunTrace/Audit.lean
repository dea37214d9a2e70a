import RunTrace.Trajectory
import RunTrace.Decimal.Layout

/-!
# Audit of the summary

The summary that a producer supplies can be compared with what the recorded subcalls add up
to. Counters are words and wrap around; token counts stop at the largest word; costs are added
as doubles in the order of the walk.
-/

namespace RunTrace

/-- What the subcalls of a trajectory add up to. -/
structure Totals where
  subcalls : UInt32
  maxDepth : UInt32
  tokens : TokenCounts
  cost : Float
  toolCalls : UInt32
  failures : UInt32

namespace Totals

/-- The totals of no subcall. -/
def zero : Totals :=
  { subcalls := 0, maxDepth := 0, tokens := .zero, cost := 0, toolCalls := 0, failures := 0 }

/-- The totals with one more subcall at a depth. -/
def count (totals : Totals) (depth : UInt32) (call : Call) : Totals :=
  { subcalls := totals.subcalls + 1
    maxDepth := max totals.maxDepth depth
    tokens := totals.tokens + call.tokens
    cost := totals.cost + call.cost
    toolCalls := totals.toolCalls + UInt32.ofNat call.toolCalls.length
    failures := totals.failures + if call.outcome.isFailure then 1 else 0 }

/-- The totals of the subcalls of a trajectory. -/
def ofTrajectory (trajectory : Trajectory) : Totals :=
  trajectory.walk.foldl (fun totals (depth, subcall) => totals.count depth subcall.value) zero

end Totals

/-- A field of the summary that disagrees with the subcalls: what it says, and what they add
up to. -/
inductive Discrepancy where
  | subcalls (stated actual : UInt32)
  | maxDepth (stated actual : UInt32)
  | tokens (stated actual : TokenCounts)
  | cost (stated actual : Float)

namespace Discrepancy

/-- Two token counts as they are shown in a message. -/
def pairText (tokens : TokenCounts) : String :=
  Decimal.ofNat tokens.input.toNat ++ "/" ++ Decimal.ofNat tokens.output.toNat

/-- The text shown for a discrepancy. -/
def message : Discrepancy → String
  | subcalls stated actual =>
    "totalSubcalls is " ++ Decimal.ofNat stated.toNat ++ " but the tree has "
      ++ Decimal.ofNat actual.toNat
  | maxDepth stated actual =>
    "maxDepth is " ++ Decimal.ofNat stated.toNat ++ " but the tree reaches "
      ++ Decimal.ofNat actual.toNat
  | tokens stated actual =>
    "totalTokens is " ++ pairText stated ++ " but the tree sums to " ++ pairText actual
  | cost stated actual =>
    "totalCost is " ++ Decimal.fixed 4 stated ++ " but the tree sums to "
      ++ Decimal.fixed 4 actual

end Discrepancy

namespace Totals

/-- The difference up to which two costs are taken to be the same. -/
def costTolerance : Float := 0.005

/-- Where the summary of a trajectory disagrees with totals. A trajectory without subcalls has
no depth to disagree about. -/
def discrepancies (totals : Totals) (trajectory : Trajectory) : List Discrepancy :=
  (if totals.subcalls ≠ trajectory.totalSubcalls then
    [.subcalls trajectory.totalSubcalls totals.subcalls] else [])
  ++ (if !trajectory.isEmpty ∧ totals.maxDepth ≠ trajectory.maxDepth then
    [.maxDepth trajectory.maxDepth totals.maxDepth] else [])
  ++ (if totals.tokens ≠ trajectory.totalTokens then
    [.tokens trajectory.totalTokens totals.tokens] else [])
  ++ (if costTolerance < (totals.cost - trajectory.totalCost).abs then
    [.cost trajectory.totalCost totals.cost] else [])

end Totals

end RunTrace
