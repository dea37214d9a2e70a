import RunTrace.Outline
import RunTrace.Proofs.RowConsistency

/-!
# The outline, row by row

The outline is written by going down into the rows that are nested in a row before the next one is
written. Still every row has one place in the text where all that is written of it stands, and what
stands there is told by the fields of the row alone: the rows nested in it come behind its own
lines, as the list of the visible rows has them.

## Main results

* `Outline.join_rowLines`: the lines of a row, one behind the other, are its block;
* `Outline.text_tree`: the text of the rows of a forest is that of the blocks in pre-order;
* `Outline.text_render_eq_blocks`: the outline of a trajectory has the line of the summary and the
  blocks of the visible rows, and nothing else.
-/

namespace RunTrace.Outline

/-! ## Blocks -/

/-- A line with the indentation of a depth in front of it and a line break behind it. -/
def lineAt (depth : UInt32) (line : String) : String :=
  indent depth.toNat ++ line ++ "\n"

/-- What is written of a row: a line for the subcall, and behind it one for the error, one for each
tool call that is displayed, and one for children that are beyond the bound. -/
def block (row : Row) : String :=
  lineAt row.depth (marker row.body ++ " " ++ row.glyph ++ " " ++ row.name ++ " [" ++ row.id
      ++ "]  " ++ row.duration ++ "  " ++ row.tokens ++ " tok  " ++ row.cost)
    ++ (row.error.elim "" fun error => lineAt row.depth ("    error: " ++ error))
    ++ String.join (row.tools.map fun tool => lineAt row.depth ("    - " ++ tool.glyph ++ " "
      ++ tool.name ++ " [" ++ tool.id ++ "] " ++ tool.outcome.name ++ " " ++ tool.duration))
    ++ match row.body with
      | .depthLimited hidden =>
        lineAt row.depth ("    " ++ Display.nestedLabel hidden ++ " (load deeper levels)")
      | _ => ""

/-- The lines of a row with their line breaks, one behind the other, are its block. -/
theorem join_rowLines (row : Row) : String.join ((rowLines row).map (· ++ "\n")) = block row := by
  -- Each part of the lines is indented by itself, and gives one part of the block.
  have herror : String.join (((row.error.map fun error => "    error: " ++ error).toList.map
      (indent row.depth.toNat ++ ·)).map (· ++ "\n")) =
        row.error.elim "" fun error => lineAt row.depth ("    error: " ++ error) := by
    cases row.error with
    | none => rfl
    | some error => simp [lineAt]
  have htools : String.join (((row.tools.map toolLine).map (indent row.depth.toNat ++ ·)).map
      (· ++ "\n")) = String.join (row.tools.map fun tool => lineAt row.depth ("    - "
        ++ tool.glyph ++ " " ++ tool.name ++ " [" ++ tool.id ++ "] " ++ tool.outcome.name ++ " "
        ++ tool.duration)) := by
    rw [List.map_map, List.map_map]
    rfl
  have hlabel : String.join (((row.body.label?.map fun label =>
      "    " ++ label ++ " (load deeper levels)").toList.map (indent row.depth.toNat ++ ·)).map
        (· ++ "\n")) = match row.body with
      | .depthLimited hidden =>
        lineAt row.depth ("    " ++ Display.nestedLabel hidden ++ " (load deeper levels)")
      | _ => "" := by
    cases row.body with
    | leaf | collapsed | expanded => rfl
    | depthLimited hidden => simp [lineAt, Body.label?]
  rw [rowLines, List.map_append, List.map_append, List.map_append, List.map_append,
    List.map_append, List.map_append, String.join_append, String.join_append, String.join_append,
    herror, htools, hlabel, block]
  simp [callLine, lineAt]

/-! ## The text of a view -/

/-- Texts that are made of several pieces each are joined piece by piece. -/
theorem join_flatMap {α : Type} (items : List α) (pieces : α → List String) :
    String.join (items.flatMap pieces) =
      String.join (items.map fun a => String.join (pieces a)) := by
  induction items with
  | nil => rfl
  | cons a items ih =>
    rw [List.flatMap_cons, String.join_append, ih, List.map_cons, String.join_cons]

/-- However the rows of a view are nested, they are written block by block in pre-order. -/
theorem text_tree (summary : Summary) (roots : Forest Row) :
    text (.tree summary roots) =
      summaryLine summary ++ "\n" ++ String.join (roots.toList.map block) := by
  -- The lines are those of the rows in pre-order, and the lines of a row make up its block.
  rw [text, lines, forestLines_eq, List.map_cons, String.join_cons, List.map_flatMap, join_flatMap]
  simp only [join_rowLines]

/-- The outline of a trajectory that is displayed as a tree is the line of the summary followed by
the blocks of the visible rows from top to bottom. What is written of a row stands in one piece: in
front of it are the summary and the blocks of all the rows above it, and behind it are those of all
the rows below. -/
theorem text_render_eq_blocks {trajectory : Trajectory} {state : Expansion} {bound : UInt32}
    {isLoading : Bool} {summary : Summary} {roots : Forest Row}
    (h : View.render trajectory state bound isLoading = .tree summary roots) :
    let view := View.render trajectory state bound isLoading
    text view = summaryLine summary ++ "\n" ++ String.join (view.visibleRows.map block) ∧
      ∀ above row below, view.visibleRows = above ++ row :: below →
        text view = (summaryLine summary ++ "\n" ++ String.join (above.map block)) ++ block row
          ++ String.join (below.map block) := by
  intro view
  have htext : text view =
      summaryLine summary ++ "\n" ++ String.join (view.visibleRows.map block) := by
    show text (View.render trajectory state bound isLoading) = _ ++ String.join
      ((View.render trajectory state bound isLoading).visibleRows.map block)
    rw [h]
    exact text_tree summary roots
  refine ⟨htext, fun above row below hrows => ?_⟩
  rw [htext, hrows, List.map_append, List.map_cons, String.join_append, String.join_cons]
  simp only [String.append_assoc]

/-- With the children of `root` and the tool call of `locate` displayed on two levels, the block of
`locate` has three lines, and the one of `recurse-1` behind it tells of children beyond the
bound. -/
theorem text_render_eq_blocks_demo :
    let state := (Expansion.collapsed.expandAll ["root"]).toggleTools ⟨DemoTrajectory.locate, .nil⟩
    let view := View.render demoTrajectory state 2 false
    view = .tree demoTrajectory.summary view.roots ∧
      view.visibleIds = ["root", "summarize", "locate", "recurse-1", "followup"] ∧
      text view = summaryLine demoTrajectory.summary ++ "\n"
        ++ String.join (view.visibleRows.map block) ∧
      view.visibleRows.map block = [
        "▾ ✓ rlm.run: audit dependency graph [root]  5m 0s  6,800 tok  $0.12\n",
        "    ✓ rlm.summarize chunk [summarize]  2s  1,920 tok  $0.02\n",
        "    ✗ rlm.locate symbol [locate]  950ms  640 tok  $0.01\n"
          ++ "      error: context window exceeded while scanning shard 7\n"
          ++ "      - ✗ grep [locate-grep] failure 310ms\n",
        "  … ✓ rlm.subquery level 1 [recurse-1]  4s  1,250 tok  $0.01\n"
          ++ "      1 more nested subcall (load deeper levels)\n",
        "  ✓ rlm.answer [followup]  1s  1,050 tok  $0.01\n"] := by
  intro state view
  have htree : View.render demoTrajectory state 2 false =
      .tree demoTrajectory.summary view.roots := rfl
  exact ⟨htree, by decide +kernel, (text_render_eq_blocks htree).1, by decide +kernel⟩

end RunTrace.Outline
