import Mathlib.Data.List.Forall2
import RunTrace.Proofs.ExpandAll
import RunTrace.Proofs.Format.RoundTrip

/-!
# How the fields of a row go together

A row says more than once whether its subcall has children and whether they are displayed: by the
number of children, by what is below the row, by a flag, and by the rows that are nested in it. So
it does for tool calls and for errors. The fields are computed one by one; here they are shown to
agree in every row of a view, however deep it is nested and whatever trajectory it is of.

## Main results

* `fits_body`: what is below a row, by the number of children and by the level;
* `exists_of_at?_renderForest`: the rows at a place are those of the subcall at the same place;
* `Subcall.consistent_rows`: the fields of the row of a subcall go together;
* `View.consistent_roots`: they do so in every row of a view.
-/

namespace RunTrace

variable {state : Expansion} {bound depth : UInt32}

/-! ## What a row is to say -/

/-- The row of a tool call tells what is recorded of it. -/
structure ToolRow.TellsOf (row : ToolRow) (call : ToolCall) : Prop where
  id : row.id = call.id
  name : row.name = call.name
  outcome : row.outcome = call.outcome
  glyph : row.glyph = Display.glyph call.outcome
  duration : row.duration = Display.duration call.durationMs

/-- The row of a subcall tells what is recorded of it and how much is below it. -/
structure Row.TellsOf (row : Row) (subcall : Subcall) : Prop where
  id : row.id = subcall.value.id
  name : row.name = subcall.value.name
  outcome : row.outcome = subcall.value.outcome
  glyph : row.glyph = Display.glyph subcall.value.outcome
  duration : row.duration = Display.duration subcall.value.durationMs
  tokens : row.tokens = Display.tokens subcall.value.tokens
  cost : row.cost = Display.cost subcall.value.cost
  childCount : row.childCount = subcall.children.length
  toolCount : row.toolCount = subcall.value.toolCalls.length

/-- The fields of the row of a subcall go together, and so do the rows nested in it. -/
structure Row.Consistent (bound : UInt32) (subcall : Subcall) (row : Row) (nested : Forest Row) :
    Prop where
  tellsOf : row.TellsOf subcall
  leaf_iff : row.body = .leaf ↔ row.childCount = 0
  childrenExpanded_iff : row.childrenExpanded = true ↔ row.body = .expanded
  /-- Displayed children have one row each, in their order and one level further down. -/
  expanded : row.body = .expanded →
    0 < row.childCount ∧ nested.length = row.childCount ∧
      List.Forall₂ (fun below child =>
          below.value.TellsOf child ∧ below.value.depth.toNat = row.depth.toNat + 1)
        nested.trees subcall.children.trees
  not_expanded : row.body ≠ .expanded → nested = .nil
  depthLimited : ∀ hidden, row.body = .depthLimited hidden →
    hidden = row.childCount ∧ bound.toNat ≤ row.depth.toNat + 1
  above_last : row.body = .collapsed ∨ row.body = .expanded →
    row.depth.toNat + 1 < max bound.toNat 1
  tools_hidden : row.toolsExpanded = false → row.tools = []
  tools_shown : row.toolsExpanded = true →
    0 < row.toolCount ∧ row.tools.length = row.toolCount ∧
      List.Forall₂ ToolRow.TellsOf row.tools subcall.value.toolCalls
  error : ∀ error, row.error = some error →
    row.outcome = .failure ∧ subcall.value.error = some error

/-! ## What is below a row -/

/-- What is below the row of a subcall with a number of children. -/
inductive Body.Fits (bound depth : UInt32) (childCount : Nat) : Body → Prop where
  | leaf (empty : childCount = 0) : Fits bound depth childCount .leaf
  | collapsed (children : 0 < childCount) (above : depth.toNat + 1 < max bound.toNat 1) :
      Fits bound depth childCount .collapsed
  | expanded (children : 0 < childCount) (above : depth.toNat + 1 < max bound.toNat 1) :
      Fits bound depth childCount .expanded
  | depthLimited (children : 0 < childCount) (last : bound.toNat ≤ depth.toNat + 1) :
      Fits bound depth childCount (.depthLimited childCount)

namespace Body.Fits

variable {body : Body} {childCount : Nat} (h : body.Fits bound depth childCount)
include h

theorem eq_leaf_iff : body = .leaf ↔ childCount = 0 := by
  cases h with
  | leaf empty => exact iff_of_true rfl empty
  | collapsed children | expanded children | depthLimited children =>
    exact iff_of_false (by simp) (Nat.ne_of_gt children)

theorem pos_of_eq_expanded (hbody : body = .expanded) : 0 < childCount := by
  subst hbody
  cases h with
  | expanded children => exact children

theorem lt_of_eq_collapsed_or_eq_expanded (hbody : body = .collapsed ∨ body = .expanded) :
    depth.toNat + 1 < max bound.toNat 1 := by
  cases h with
  | collapsed _ above | expanded _ above => exact above
  | leaf | depthLimited => simp at hbody

theorem of_eq_depthLimited {hidden : Nat} (hbody : body = .depthLimited hidden) :
    hidden = childCount ∧ bound.toNat ≤ depth.toNat + 1 := by
  subst hbody
  cases h with
  | depthLimited _ last => exact ⟨rfl, last⟩

end Body.Fits

/-- What is below the row of a subcall fits the number of children. -/
theorem fits_body (state : Expansion) (bound depth : UInt32) (subcall : Subcall) :
    (Subcall.body state bound depth subcall).Fits bound depth subcall.children.length := by
  -- The questions are asked in the order of the definition.
  unfold Subcall.body
  split
  · next hleaf =>
    rw [Tree.hasChildren_eq, Bool.not_eq_true', decide_eq_false_iff_not, Nat.not_lt,
      Nat.le_zero] at hleaf
    exact .leaf hleaf
  · next hchildren =>
    rw [Bool.not_eq_true', Bool.not_eq_false] at hchildren
    have hcount : 0 < subcall.children.length := by
      rwa [Tree.hasChildren_eq, decide_eq_true_iff] at hchildren
    split
    · next hlimit =>
      rw [isDepthLimited_eq, hchildren, Bool.true_and, decide_eq_true_iff] at hlimit
      exact .depthLimited hcount (by omega)
    · next hlimit =>
      have hdepth := lt_of_isDepthLimited_eq_false hchildren (Bool.not_eq_true _ ▸ hlimit)
      have habove : depth.toNat + 1 < max bound.toNat 1 := by omega
      split
      · exact .expanded hcount habove
      · exact .collapsed hcount habove

/-! ## The rows of a subcall -/

/-- The row of a subcall with the rows nested in it. -/
def Subcall.rows (state : Expansion) (bound depth : UInt32) (subcall : Subcall) : Tree Row :=
  let row := Subcall.row state bound depth subcall
  ⟨row, if row.body.isExpanded then renderForest state bound (depth + 1) subcall.children else .nil⟩

theorem trees_renderForest (state : Expansion) (bound depth : UInt32) (forest : Forest Call) :
    (renderForest state bound depth forest).trees =
      forest.trees.map (Subcall.rows state bound depth) := by
  induction forest with
  | nil => rfl
  | cons call children rest _ ihr =>
    rw [renderForest, Forest.trees, ihr, Forest.trees, List.map_cons]
    rfl

theorem length_renderForest (state : Expansion) (bound depth : UInt32) (forest : Forest Call) :
    (renderForest state bound depth forest).length = forest.length := by
  rw [← Forest.length_trees, trees_renderForest, List.length_map, Forest.length_trees]

/-- The rows at a place of a rendered forest are those of the subcall at the same place. Its depth
is the number of levels above it, however high the forest is, as all of them are displayed. -/
theorem exists_of_at?_renderForest {forest : Forest Call} {place : List Nat} {rows : Tree Row}
    (h : (renderForest state bound depth forest).at? place = some rows) :
    ∃ level subcall, forest.at? place = some subcall ∧
      level.toNat = depth.toNat + (place.length - 1) ∧
      rows = Subcall.rows state bound level subcall := by
  induction forest generalizing depth place with
  | nil => simp [renderForest, Forest.at?] at h
  | cons call children rest ihc ihr =>
    rcases place with _ | ⟨_ | n, path⟩
    · simp at h
    · rcases path with _ | ⟨n, path⟩
      · exact ⟨depth, ⟨call, children⟩, rfl, rfl, (Option.some.inj h).symm⟩
      · -- Rows are nested in that of the first tree only if it is open and so above the last level.
        have hbelow : (Subcall.rows state bound depth ⟨call, children⟩).children.at? (n :: path) =
            some rows := h
        rw [Subcall.rows] at hbelow
        split at hbelow
        · next hopen =>
          obtain ⟨level, subcall, hplace, hlevel, hrows⟩ := ihc hbelow
          rw [toNat_add_one_of_lt (lt_of_isExpanded hopen)] at hlevel
          refine ⟨level, subcall, hplace, ?_, hrows⟩
          simp only [List.length_cons] at hlevel ⊢
          omega
        · simp [Forest.at?] at hbelow
    · exact ihr h

theorem tellsOf_row (state : Expansion) (bound depth : UInt32) (subcall : Subcall) :
    (Subcall.row state bound depth subcall).TellsOf subcall :=
  ⟨rfl, rfl, rfl, rfl, rfl, rfl, rfl, rfl, rfl⟩

/-- A row has the error of its subcall if that has failed, and otherwise none. -/
theorem error_row_eq_some_iff (state : Expansion) (bound depth : UInt32) (subcall : Subcall)
    (error : String) :
    (Subcall.row state bound depth subcall).error = some error ↔
      subcall.value.outcome = .failure ∧ subcall.value.error = some error := by
  change (if subcall.value.outcome.isFailure then subcall.value.error else none) = some error ↔ _
  rw [Option.ite_none_right_eq_some, Validation.isFailure_iff]

/-- If the children of a subcall are displayed, each has its row one level further down. -/
theorem forall₂_tellsOf_rows (h : depth.toNat < bound.toNat - 1) (children : Forest Call) :
    List.Forall₂ (fun below child =>
        below.value.TellsOf child ∧ below.value.depth.toNat = depth.toNat + 1)
      (renderForest state bound (depth + 1) children).trees children.trees := by
  rw [trees_renderForest, List.forall₂_map_left_iff]
  exact List.forall₂_same.2 fun child _ => ⟨tellsOf_row .., toNat_add_one_of_lt h⟩

/-- If the tool calls of a subcall are displayed, there are some, and each has its row. -/
theorem tools_row_of_toolsExpanded {subcall : Subcall}
    (h : (Subcall.row state bound depth subcall).toolsExpanded = true) :
    0 < subcall.value.toolCalls.length ∧
      (Subcall.row state bound depth subcall).tools = subcall.value.toolCalls.map ToolCall.row := by
  have hshown : (state.showsTools subcall.value.id && subcall.value.hasToolCalls) = true := h
  rw [Bool.and_eq_true, Call.hasToolCalls, Bool.not_eq_true', List.isEmpty_eq_false_iff] at hshown
  exact ⟨List.length_pos_iff.2 hshown.2, if_pos h⟩

theorem tools_row_of_not_toolsExpanded {subcall : Subcall}
    (h : (Subcall.row state bound depth subcall).toolsExpanded = false) :
    (Subcall.row state bound depth subcall).tools = [] :=
  if_neg (Bool.eq_false_iff.1 h)

theorem ToolCall.tellsOf_row (call : ToolCall) : call.row.TellsOf call :=
  ⟨rfl, rfl, rfl, rfl, rfl⟩

/-- Every row of a tool call tells of one that is recorded. -/
theorem exists_tellsOf_of_mem_tools {subcall : Subcall} {tool : ToolRow}
    (h : tool ∈ (Subcall.row state bound depth subcall).tools) :
    ∃ call ∈ subcall.value.toolCalls, tool.TellsOf call := by
  cases hshown : (Subcall.row state bound depth subcall).toolsExpanded with
  | true =>
    rw [(tools_row_of_toolsExpanded hshown).2] at h
    obtain ⟨call, hcall, rfl⟩ := List.mem_map.1 h
    exact ⟨call, hcall, call.tellsOf_row⟩
  | false =>
    rw [tools_row_of_not_toolsExpanded hshown] at h
    exact absurd h List.not_mem_nil

/-- The fields of the row of a subcall go together. -/
theorem Subcall.consistent_rows (state : Expansion) (bound depth : UInt32) (subcall : Subcall) :
    let rows := Subcall.rows state bound depth subcall
    rows.value.Consistent bound subcall rows.children := by
  intro rows
  have hfits : rows.value.body.Fits bound depth rows.value.childCount :=
    fits_body state bound depth subcall
  have hexpanded : rows.value.body.isExpanded = true ↔ rows.value.body = .expanded := by
    rw [Body.isExpanded, beq_iff_eq]
  have hnested : rows.children = if rows.value.body.isExpanded then
      renderForest state bound (depth + 1) subcall.children else .nil := rfl
  constructor
  case tellsOf => exact tellsOf_row state bound depth subcall
  case leaf_iff => exact hfits.eq_leaf_iff
  case childrenExpanded_iff => exact hexpanded
  case expanded =>
    intro hbody
    have hopen := hexpanded.2 hbody
    -- An open row is above the last level, so the depth of the next level is still a word.
    rw [hnested, if_pos hopen, length_renderForest]
    exact ⟨hfits.pos_of_eq_expanded hbody, rfl, forall₂_tellsOf_rows (lt_of_isExpanded hopen) _⟩
  case not_expanded =>
    intro hbody
    rw [hnested, if_neg fun hopen => hbody (hexpanded.1 hopen)]
  case depthLimited => exact fun _ => hfits.of_eq_depthLimited
  case above_last => exact hfits.lt_of_eq_collapsed_or_eq_expanded
  case tools_hidden => exact tools_row_of_not_toolsExpanded
  case tools_shown =>
    intro h
    obtain ⟨hpos, htools⟩ := tools_row_of_toolsExpanded h
    rw [show rows.value.tools = _ from htools, List.length_map]
    exact ⟨hpos, rfl, List.forall₂_map_left_iff.2 (List.forall₂_same.2 fun call _ =>
      call.tellsOf_row)⟩
  case error => exact fun error => (error_row_eq_some_iff state bound depth subcall error).1

/-! ## The rows of a view -/

/-- The rows of a view are those of the subcalls of its trajectory, if there are any. -/
theorem exists_of_at?_roots {trajectory : Trajectory} {isLoading : Bool} {place : List Nat}
    {rows : Tree Row}
    (h : (View.render trajectory state bound isLoading).roots.at? place = some rows) :
    ∃ level subcall, trajectory.subcalls.at? place = some subcall ∧
      level.toNat = place.length - 1 ∧ rows = Subcall.rows state bound level subcall := by
  unfold View.render at h
  split at h
  · simp [View.roots, Forest.at?] at h
  · split at h
    · simp [View.roots, Forest.at?] at h
    · obtain ⟨level, subcall, hplace, hlevel, hrows⟩ := exists_of_at?_renderForest h
      rw [UInt32.toNat_zero, Nat.zero_add] at hlevel
      exact ⟨level, subcall, hplace, hlevel, hrows⟩

/-- A row of a sound call has an error exactly if the call failed. -/
theorem isSome_error_row_iff {subcall : Subcall} {level : UInt32}
    (sound : Validation.Sound level subcall.value) :
    (Subcall.row state bound depth subcall).error.isSome = true ↔
      subcall.value.outcome = .failure := by
  -- Failures have an error in the trajectory, so none is missing from the row.
  rw [Option.isSome_iff_exists]
  simp only [error_row_eq_some_iff, exists_and_left, and_iff_left_iff_imp]
  exact fun h => Option.isSome_iff_exists.1 (sound.error_iff.2 h)

/-- In every row of a view, wherever it is nested, the fields go together: what they say of the
children, of the tool calls and of the error is the same, and it is what is recorded of the subcall
at the same place. The trajectory need not be valid. In the rows of a trajectory that has been
loaded, exactly the failures have an error. -/
theorem View.consistent_roots (trajectory : Trajectory) (state : Expansion) (bound : UInt32)
    (isLoading : Bool) {place : List Nat} {row : Row} {nested : Forest Row}
    (h : (View.render trajectory state bound isLoading).roots.at? place = some ⟨row, nested⟩) :
    (∃ subcall, trajectory.subcalls.at? place = some subcall ∧
        row.depth.toNat = place.length - 1 ∧ row.Consistent bound subcall nested) ∧
      ((∃ text, Trajectory.load text = .ok trajectory) →
        (row.error.isSome = true ↔ row.outcome = .failure)) := by
  obtain ⟨level, subcall, hplace, hlevel, hrows⟩ := exists_of_at?_roots h
  obtain ⟨rfl, rfl⟩ := Tree.mk.inj hrows
  refine ⟨⟨subcall, hplace, hlevel, Subcall.consistent_rows state bound level subcall⟩, ?_⟩
  rintro ⟨text, loaded⟩
  exact isSome_error_row_iff (sound_of_validate (load_eq_ok loaded).2 hplace)

/-- The row of `locate`, with its tool call displayed, is one level below that of `root`. -/
theorem View.consistent_roots_demo :
    let state := (Expansion.collapsed.expandAll ["root"]).toggleTools ⟨DemoTrajectory.locate, .nil⟩
    let roots := (View.render demoTrajectory state 2 false).roots
    (∃ text, Trajectory.load text = .ok demoTrajectory) ∧
      ∃ row nested, roots.at? [0, 1] = some ⟨row, nested⟩ ∧ row.id = "locate" ∧
        row.outcome = .failure ∧ row.toolsExpanded = true ∧ row.depth.toNat = 1 ∧
        row.tools.length = row.toolCount ∧ row.error.isSome = true := by
  intro state roots
  have loaded : ∃ text, Trajectory.load text = .ok demoTrajectory :=
    ⟨_, load_demoTrajectory demoTrajectory.runId⟩
  let rows := Subcall.rows state 2 1 ⟨DemoTrajectory.locate, .nil⟩
  have hrow : roots.at? [0, 1] = some ⟨rows.value, rows.children⟩ := by decide +kernel
  have hshown : rows.value.toolsExpanded = true := by decide +kernel
  obtain ⟨⟨_, -, hdepth, consistent⟩, herror⟩ :=
    View.consistent_roots demoTrajectory state 2 false hrow
  exact ⟨loaded, _, _, hrow, rfl, rfl, hshown, hdepth, (consistent.tools_shown hshown).2.1,
    (herror loaded).2 rfl⟩

end RunTrace
