import RunTrace.Trajectory
import RunTrace.Decimal.Layout

/-!
# Texts for display

How durations, token counts, costs, outcomes and numbers of hidden subcalls are shown.
-/

namespace RunTrace.Display

/-- Digits with a comma in front of every three digits that end the number. -/
def groupDigits : List Char → List Char
  | [] => []
  | d :: ds =>
    if ds.length % 3 = 0 ∧ ds ≠ [] then d :: ',' :: groupDigits ds else d :: groupDigits ds

/-- A number with its digits grouped by thousands. -/
def thousands (n : UInt64) : String :=
  String.ofList (groupDigits (Decimal.digits n.toNat))

/-- A duration: in milliseconds below a second, in seconds below a minute, and otherwise in
minutes and seconds. -/
def duration (ms : UInt64) : String :=
  let seconds := ms.toNat / 1000
  if ms.toNat < 1000 then Decimal.ofNat ms.toNat ++ "ms"
  else if seconds < 60 then Decimal.ofNat seconds ++ "s"
  else Decimal.ofNat (seconds / 60) ++ "m " ++ Decimal.ofNat (seconds % 60) ++ "s"

/-- Input and output together. -/
def tokens (counts : TokenCounts) : String :=
  thousands counts.total

/-- A cost in dollars, with two places. -/
def cost (x : Float) : String :=
  "$" ++ Decimal.fixed 2 x

/-- The sign of an outcome. -/
def glyph : Outcome → String
  | .success => "✓"
  | .failure => "✗"
  | .running => "◌"

/-- How many subcalls are hidden below another one. -/
def nestedLabel (count : Nat) : String :=
  if count = 1 then "1 more nested subcall" else Decimal.ofNat count ++ " more nested subcalls"

/-- The sign of a control that shows or hides children. -/
def toggleGlyph (expanded : Bool) : String :=
  if expanded then "▾" else "▸"

/-- The label of a control that shows or hides tool calls. -/
def toolsLabel (count : Nat) (expanded : Bool) : String :=
  let noun := if count = 1 then "tool" else "tools"
  (if expanded then "hide " else "") ++ Decimal.ofNat count ++ " " ++ noun

end RunTrace.Display
