import RunTrace.View

/-!
# The text outline

The visible tree as text: a line for the summary, and for every row a line with an indentation
of two blanks per level, followed by lines for its error, its tool calls and the children that
are beyond the bound.
-/

namespace RunTrace.Outline

/-- The indentation of a level. -/
def indent (depth : Nat) : String :=
  String.ofList (List.replicate (2 * depth) ' ')

/-- The line that stands in for a row that is not loaded yet. -/
def skeletonLine : String :=
  String.ofList (List.replicate 20 '░')

/-- The line of the summary. -/
def summaryLine (summary : Summary) : String :=
  " | ".intercalate ["run " ++ summary.runId, summary.totalSubcalls ++ " subcalls",
    "depth " ++ summary.maxDepth, summary.totalTokens ++ " tokens", summary.totalCost,
    summary.totalDuration]

/-- The mark in front of a row. -/
def marker : Body → String
  | .leaf => " "
  | .collapsed => "▸"
  | .expanded => "▾"
  | .depthLimited _ => "…"

/-- The line of the subcall itself. -/
def callLine (row : Row) : String :=
  marker row.body ++ " " ++ row.glyph ++ " " ++ row.name ++ " [" ++ row.id ++ "]  "
    ++ row.duration ++ "  " ++ row.tokens ++ " tok  " ++ row.cost

/-- The line of a tool call. -/
def toolLine (tool : ToolRow) : String :=
  "    - " ++ tool.glyph ++ " " ++ tool.name ++ " [" ++ tool.id ++ "] " ++ tool.outcome.name
    ++ " " ++ tool.duration

/-- The lines of a row. -/
def rowLines (row : Row) : List String :=
  let lines := [callLine row]
    ++ (row.error.map fun error => "    error: " ++ error).toList
    ++ row.tools.map toolLine
    ++ (row.body.label?.map fun label => "    " ++ label ++ " (load deeper levels)").toList
  lines.map (indent row.depth.toNat ++ ·)

/-- The lines of the rows of a forest, each followed by those of the rows nested in it. -/
def forestLines : Forest Row → List String
  | .nil => []
  | .cons row nested rest => rowLines row ++ forestLines nested ++ forestLines rest

/-- From top to bottom, the lines of a forest are those of its rows. -/
theorem forestLines_eq (rows : Forest Row) : forestLines rows = rows.toList.flatMap rowLines := by
  induction rows with
  | nil => rfl
  | cons row nested rest ihnested ihrest =>
    rw [forestLines, Forest.toList, ihnested, ihrest, List.flatMap_cons, List.flatMap_append,
      List.append_assoc]

/-- The lines of a view. -/
def lines : View → List String
  | .loading skeletonRows => List.replicate skeletonRows skeletonLine
  | .empty summary message => [summaryLine summary, message]
  | .tree summary roots => summaryLine summary :: forestLines roots

/-- The lines of a trajectory that has subcalls are that of its summary and those of its rows. -/
theorem lines_render {trajectory : Trajectory} (hsubcalls : trajectory.isEmpty = false)
    (state : Expansion) (bound : UInt32) :
    let view := View.render trajectory state bound false
    lines view = summaryLine trajectory.summary :: view.visibleRows.flatMap rowLines := by
  intro view
  have hview : view =
      .tree trajectory.summary (renderForest state bound 0 trajectory.subcalls) := by
    simp [view, View.render, hsubcalls]
  rw [hview, lines, forestLines_eq]
  rfl

/-- The text of a view: every line with a line break behind it. -/
def text (view : View) : String :=
  String.join ((lines view).map (· ++ "\n"))

end RunTrace.Outline
