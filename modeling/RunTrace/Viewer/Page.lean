import RunTrace.Session
import RunTrace.Markup
import RunTrace.Viewer.Stylesheet

/-!
# The page of a trajectory

The markup that displays a view of a trajectory, with the actions that its controls stand for.
The controls inside of a row keep their clicks to themselves; any other click inside of a row
activates the subcall. Tool calls are outside of the row of their subcall.
-/

namespace RunTrace.Page

open Markup

/-- The classes of the row of a subcall with an outcome. -/
def rowClasses (outcome : Outcome) : List String :=
  ["rlm-node-row", "rlm-node-row--" ++ outcome.name]

/-- The classes of the row of a tool call with an outcome. -/
def toolClasses (outcome : Outcome) : List String :=
  ["rlm-tool-row", "rlm-tool-row--" ++ outcome.name]

/-- A text in a `span` of a class. -/
def span (className content : String) : Markup Action :=
  tagged "span" [className] (ofText content)

/-- The summary, with controls for all subcalls if there are any. -/
def summaryMarkup (summary : Summary) (hasNodes : Bool) : Markup Action :=
  tagged "div" ["rlm-summary"] (
    tagged "div" ["rlm-summary-metrics"] (join (
      ["run " ++ summary.runId, summary.totalSubcalls ++ " subcalls", "depth " ++ summary.maxDepth,
        summary.totalTokens ++ " tokens", summary.totalCost, summary.totalDuration].map
        (span "rlm-pill")))
    ++ if hasNodes then
        tagged "div" ["rlm-summary-actions"] (
          clickable "button" ["rlm-action"] [] ⟨.expandAll, false⟩ (ofText "Expand all")
          ++ clickable "button" ["rlm-action"] [] ⟨.collapseAll, false⟩ (ofText "Collapse all"))
      else .nil)

/-- The control that shows or hides the children of a subcall, or the space that it takes
where there is nothing to show. -/
def toggleMarkup (row : Row) : Markup Action :=
  -- Children beyond the bound cannot be shown, so there is nothing to toggle.
  if 0 < row.childCount ∧ !row.body.isDepthLimited then
    clickable "button" ["rlm-toggle"] [.truth "aria-expanded" row.childrenExpanded]
      ⟨.toggleChildren row.id, true⟩ (ofText (Display.toggleGlyph row.childrenExpanded))
  else tagged "span" ["rlm-toggle-spacer"] .nil

/-- The control that shows or hides the tool calls of a subcall, if it has any. -/
def toolsToggleMarkup (row : Row) : Markup Action :=
  if 0 < row.toolCount then
    clickable "button" ["rlm-pill"] [] ⟨.toggleTools row.id, true⟩
      (ofText (Display.toolsLabel row.toolCount row.toolsExpanded))
  else .nil

/-- The row of a subcall, with its error. -/
def mainMarkup (row : Row) : Markup Action :=
  clickable "div" ["rlm-node-main"] [] ⟨.activateSubcall row.id, false⟩ (
    tagged "div" (rowClasses row.outcome) (
      toggleMarkup row
      ++ span "rlm-glyph" row.glyph
      ++ span "rlm-node-name" row.name
      ++ span "rlm-metric" row.duration
      ++ span "rlm-metric" (row.tokens ++ " tok")
      ++ span "rlm-metric" row.cost
      ++ toolsToggleMarkup row)
    ++ row.error.elim .nil fun error => tagged "div" ["rlm-node-error"] (ofText error))

/-- The row of a tool call. -/
def toolMarkup (tool : ToolRow) : Markup Action :=
  clickable "div" (toolClasses tool.outcome) [] ⟨.activateToolCall tool.id, true⟩ (
    span "rlm-glyph" tool.glyph
    ++ span "rlm-tool-name" tool.name
    ++ span "rlm-metric" tool.outcome.name
    ++ span "rlm-metric" tool.duration)

/-- The rows of the tool calls of a subcall, if they are shown. -/
def toolsMarkup (row : Row) : Markup Action :=
  if row.tools.isEmpty then .nil
  else tagged "div" ["rlm-tool-list"] (join (row.tools.map toolMarkup))

/-- What a control for more levels is called. -/
def loadDeeperLabel : String := "Load deeper levels"

/-- What stands in for children beyond the bound. -/
def depthLimitMarkup (canLoadDeeper : Bool) (id label : String) : Markup Action :=
  tagged "div" ["rlm-depth-limit"] (
    .element ⟨"span", [], none⟩ (ofText label) .nil
    ++ clickable "button" ["rlm-action"] (if canLoadDeeper then [] else [.truth "disabled" true])
      ⟨.loadDeeper id, false⟩ (ofText loadDeeperLabel))

/-- What is below the row of a subcall, given the markup of the rows nested in it. -/
def bodyMarkup (canLoadDeeper : Bool) (row : Row) (nested : Markup Action) : Markup Action :=
  match row.body with
  | .leaf | .collapsed => .nil
  | .expanded => tagged "div" ["rlm-children"] nested
  | .depthLimited hidden => depthLimitMarkup canLoadDeeper row.id (Display.nestedLabel hidden)

/-- The subcalls of a forest of rows. -/
def nodesMarkup (canLoadDeeper : Bool) : Forest Row → Markup Action
  | .nil => .nil
  | .cons row nested rest =>
    tagged "div" ["rlm-node"] (
      mainMarkup row ++ toolsMarkup row
      ++ bodyMarkup canLoadDeeper row (nodesMarkup canLoadDeeper nested))
    ++ nodesMarkup canLoadDeeper rest

/-- The contents of the page of a view. -/
def viewMarkup (canLoadDeeper : Bool) : View → Markup Action
  | .loading skeletonRows =>
    tagged "div" ["rlm-skeleton"]
      (join (List.replicate skeletonRows (tagged "div" ["rlm-skeleton-row"] .nil)))
  | .empty summary message =>
    summaryMarkup summary false
    ++ tagged "div" ["empty-state"] (.element ⟨"p", [], none⟩ (ofText message) .nil)
  | .tree summary roots =>
    summaryMarkup summary true ++ tagged "div" ["rlm-tree"] (nodesMarkup canLoadDeeper roots)

/-- The page of a view: the stylesheet and the contents. -/
def markup (canLoadDeeper : Bool) (view : View) : Markup Action :=
  .element ⟨"style", [], none⟩ (ofText Stylesheet.page)
    (tagged "div" ["rlm-trajectory"] (viewMarkup canLoadDeeper view))

end RunTrace.Page
