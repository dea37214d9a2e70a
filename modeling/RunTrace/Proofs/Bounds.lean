import RunTrace.Proofs.Locality

/-!
# What the bound cuts off

A bound on the displayed levels cuts a trajectory off behind the last of them. Of a subcall there
the number of its children is displayed, and nothing else of what is below it, so trajectories that
differ only below the last level look the same. And as far as a smaller bound reaches it displays
what a larger one does: the view under the smaller bound is the one under the larger bound, cut off.

## Main results

* `renderForest_congr_of_alikeTo`, `expandableIds_congr_of_alikeTo`: rows and expandable ids are the
  same for forests that are alike down to the last level;
* `render_eq_of_alikeTo`: so are whole views, whatever is expanded;
* `renderForest_eq_cutOff`: the rows under a smaller bound are those under a larger one, cut off;
* `render_eq_cutOff`: the same of whole views, and of their rows from top to bottom.
-/

namespace RunTrace

variable {state : Expansion} {bound depth : UInt32} {levels : Nat}

/-! ## Forests that are alike down to a level -/

/-- Two subcalls agree in all that a row tells of its subcall. The depths and times that are
recorded may differ, and of what is below only the number of children counts. -/
structure Subcall.Alike (subcall other : Subcall) : Prop where
  id : subcall.value.id = other.value.id
  name : subcall.value.name = other.value.name
  outcome : subcall.value.outcome = other.value.outcome
  durationMs : subcall.value.durationMs = other.value.durationMs
  tokens : subcall.value.tokens = other.value.tokens
  /-- Zeros of different signs are different costs. -/
  cost : subcall.value.cost = other.value.cost
  error : subcall.value.error = other.value.error
  toolCalls : subcall.value.toolCalls = other.value.toolCalls
  childCount : subcall.children.length = other.children.length

/-- Two forests have the same places on a number of levels, and what is there is alike. -/
def Forest.AlikeTo (levels : Nat) (forest other : Forest Call) : Prop :=
  ∀ place, place.length ≤ levels → Option.Rel Subcall.Alike (forest.at? place) (other.at? place)

namespace Subcall.Alike

variable {subcall other : Subcall}

protected theorem refl (subcall : Subcall) : subcall.Alike subcall :=
  ⟨rfl, rfl, rfl, rfl, rfl, rfl, rfl, rfl, rfl⟩

theorem hasChildren (h : subcall.Alike other) : subcall.hasChildren = other.hasChildren := by
  rw [Tree.hasChildren_eq, Tree.hasChildren_eq, h.childCount]

theorem isDepthLimited (h : subcall.Alike other) (depth bound : UInt32) :
    isDepthLimited subcall depth bound = isDepthLimited other depth bound := by
  rw [RunTrace.isDepthLimited, RunTrace.isDepthLimited, h.hasChildren]

/-- Rows do not tell subcalls apart that are alike. -/
theorem row (h : subcall.Alike other) (state : Expansion) (bound depth : UInt32) :
    Subcall.row state bound depth subcall = Subcall.row state bound depth other := by
  have hbody : Subcall.body state bound depth subcall = Subcall.body state bound depth other := by
    rw [Subcall.body, Subcall.body, h.hasChildren, h.isDepthLimited, h.childCount, h.id]
  have htools : subcall.value.hasToolCalls = other.value.hasToolCalls := by
    rw [Call.hasToolCalls, Call.hasToolCalls, h.toolCalls]
  rw [Subcall.row, Subcall.row, hbody, htools, h.id, h.name, h.outcome, h.durationMs, h.tokens,
    h.cost, h.error, h.childCount, h.toolCalls]

end Subcall.Alike

namespace Forest.AlikeTo

variable {forest other children children' rest rest' : Forest Call} {call call' : Call}

protected theorem refl (levels : Nat) (forest : Forest Call) : forest.AlikeTo levels forest := by
  intro place _
  cases forest.at? place with
  | none => exact .none
  | some subcall => exact .some (.refl subcall)

/-- On no level there is anything to differ in. -/
protected theorem zero (forest other : Forest Call) : forest.AlikeTo 0 other := by
  intro place hlength
  rw [List.eq_nil_of_length_eq_zero (Nat.le_zero.1 hlength), at?_empty, at?_empty]
  exact .none

/-- The first trees are alike, and so are their children down to one level less and the trees behind
them. -/
theorem cons_iff :
    (cons call children rest).AlikeTo (levels + 1) (cons call' children' rest') ↔
      Subcall.Alike ⟨call, children⟩ ⟨call', children'⟩ ∧ children.AlikeTo levels children' ∧
        rest.AlikeTo (levels + 1) rest' := by
  constructor
  · intro h
    refine ⟨?_, fun place hlength => ?_, fun place hlength => ?_⟩
    · have hfirst := h [0] (Nat.succ_le_succ (Nat.zero_le levels))
      rw [at?_first, at?_first] at hfirst
      exact Option.rel_some_some.1 hfirst
    · rcases eq_or_ne place [] with rfl | hne
      · rw [at?_empty, at?_empty]
        exact .none
      · have hbelow := h (0 :: place) (by simpa using hlength)
        rwa [at?_below_first _ _ _ hne, at?_below_first _ _ _ hne] at hbelow
    · have hbehind := h (passFirst place) (by simpa using hlength)
      rwa [at?_passFirst, at?_passFirst] at hbehind
  · rintro ⟨hfirst, hbelow, hbehind⟩ place hlength
    rcases place with _ | ⟨_ | step, path⟩
    · rw [at?_empty, at?_empty]
      exact .none
    · rcases path with _ | ⟨step, path⟩
      · exact .some hfirst
      · exact hbelow (step :: path) (by simpa using hlength)
    · exact hbehind (step :: path) (by simpa using hlength)

/-- Forests that are alike on their first level have as many trees there. So what holds of the empty
ones, and is handed on by the children as long as there is another level and by the trees behind
the first one, holds of both. -/
@[elab_as_elim]
theorem induction
    {motive : ∀ levels (forest other : Forest Call), forest.AlikeTo (levels + 1) other → Prop}
    (nil : ∀ levels (h : Forest.AlikeTo (levels + 1) .nil .nil), motive levels .nil .nil h)
    (cons : ∀ levels call children rest call' children' rest'
      (hfirst : Subcall.Alike ⟨call, children⟩ ⟨call', children'⟩)
      (hbelow : children.AlikeTo levels children') (hbehind : rest.AlikeTo (levels + 1) rest'),
      (∀ fewer (h : levels = fewer + 1), motive fewer children children' (h ▸ hbelow)) →
      motive levels rest rest' hbehind →
      motive levels (.cons call children rest) (.cons call' children' rest')
        (cons_iff.2 ⟨hfirst, hbelow, hbehind⟩))
    (h : forest.AlikeTo (levels + 1) other) : motive levels forest other h := by
  -- Something is at the place of the first root in both forests or in none of them.
  have hroot := h [0] (Nat.succ_le_succ (Nat.zero_le levels))
  induction forest generalizing levels other with
  | nil =>
    cases other with
    | nil => exact nil levels h
    | cons call' children' rest' => cases hroot
  | cons call children rest ihc ihr =>
    cases other with
    | nil => cases hroot
    | cons call' children' rest' =>
      obtain ⟨hfirst, hbelow, hbehind⟩ := cons_iff.1 h
      refine cons levels call children rest call' children' rest' hfirst hbelow hbehind ?_
        (ihr hbehind (hbehind [0] (by simp)))
      rintro fewer rfl
      exact ihc hbelow (hbelow [0] (by simp))

theorem isEmpty_eq (h : forest.AlikeTo (levels + 1) other) : forest.isEmpty = other.isEmpty := by
  induction h using Forest.AlikeTo.induction <;> rfl

end Forest.AlikeTo

/-- The rows of forests that are alike down to the last level are the same. -/
theorem renderForest_congr_of_alikeTo {forest other : Forest Call}
    (h : forest.AlikeTo (levels + 1) other) (hlevels : bound.toNat - 1 ≤ depth.toNat + levels) :
    renderForest state bound depth forest = renderForest state bound depth other := by
  induction h using Forest.AlikeTo.induction generalizing depth with
  | nil levels h => rfl
  | cons levels call children rest call' children' rest' hfirst hbelow hbehind ihc ihr =>
    rw [renderForest, renderForest, hfirst.row state bound depth, ihr hlevels]
    split
    · next hopen =>
      -- The children are displayed, so the level below this one is not below the last one.
      have hdepth := lt_of_isExpanded hopen
      have hnext := toNat_add_one_of_lt hdepth
      obtain ⟨fewer, rfl⟩ : ∃ fewer, levels = fewer + 1 := ⟨levels - 1, by omega⟩
      rw [ihc fewer rfl (by omega)]
    · rfl

/-- The ids to expand in forests that are alike down to the last level are the same. -/
theorem expandableIds_congr_of_alikeTo {forest other : Forest Call}
    (h : forest.AlikeTo (levels + 1) other) (hlevels : bound.toNat - 1 ≤ depth.toNat + levels) :
    expandableIds bound depth forest = expandableIds bound depth other := by
  induction h using Forest.AlikeTo.induction generalizing depth with
  | nil levels h => rfl
  | cons levels call children rest call' children' rest' hfirst hbelow hbehind ihc ihr =>
    rw [expandableIds, expandableIds, hfirst.hasChildren, hfirst.isDepthLimited, ihr hlevels,
      show call.id = call'.id from hfirst.id]
    split
    · rfl
    · next hopen =>
      -- The first tree is not limited, so the level below it is not below the last one.
      rw [Bool.or_eq_true, not_or, Bool.not_eq_true', Bool.not_eq_false, Bool.not_eq_true] at hopen
      have hdepth := lt_of_isDepthLimited_eq_false hopen.1 hopen.2
      have hnext := toNat_add_one_of_lt hdepth
      obtain ⟨fewer, rfl⟩ : ∃ fewer, levels = fewer + 1 := ⟨levels - 1, by omega⟩
      rw [ihc fewer rfl (by omega)]

/-- Trajectories with the same summary whose subcalls are alike on all levels that are displayed
under a bound cannot be told apart under that bound: the same ids are to be expanded, and the views
are the same, whatever is expanded. -/
theorem render_eq_of_alikeTo {trajectory other : Trajectory} (bound : UInt32)
    (summary : { trajectory with subcalls := .nil } = { other with subcalls := .nil })
    (subcalls : trajectory.subcalls.AlikeTo (max bound.toNat 1) other.subcalls) :
    trajectory.expandable bound = other.expandable bound ∧
      ∀ state isLoading,
        View.render trajectory state bound isLoading = View.render other state bound isLoading := by
  have hlevels : max bound.toNat 1 = bound.toNat - 1 + 1 := by omega
  have hzero : bound.toNat - 1 ≤ (0 : UInt32).toNat + (bound.toNat - 1) := Nat.le_add_left ..
  rw [hlevels] at subcalls
  refine ⟨expandableIds_congr_of_alikeTo subcalls hzero, fun state isLoading => ?_⟩
  -- What is displayed of the summary does not depend on the subcalls.
  have hsummary : trajectory.summary = other.summary := by
    have hrecorded := congrArg Trajectory.summary summary
    exact hrecorded
  rw [View.render, View.render, hsummary, renderForest_congr_of_alikeTo subcalls hzero,
    Trajectory.isEmpty, Trajectory.isEmpty, subcalls.isEmpty_eq]

/-- The demo trajectory, recorded again: the chain of its subcalls breaks off behind the third one,
and the first root has another depth and no time of completion. -/
def rerecordedTrajectory : Trajectory :=
  { demoTrajectory with
    subcalls :=
      .cons { DemoTrajectory.root with depth := 7, completedAt := none }
        (.cons (DemoTrajectory.call "summarize" "rlm.summarize chunk" 1 500 2300 1500 420 20) .nil
          (.cons DemoTrajectory.locate .nil (DemoTrajectory.chain 1 3)))
        (.cons (DemoTrajectory.call "followup" "rlm.answer" 0 0 1800 700 350 15) .nil .nil) }

/-- Down to the third level the demo trajectory and the one recorded again are alike. -/
theorem alikeTo_rerecordedTrajectory :
    demoTrajectory.subcalls.AlikeTo 3 rerecordedTrajectory.subcalls := by
  -- The chains differ in what is below their second links only, which have a child each.
  have second : (DemoTrajectory.chain 2 11).AlikeTo 1 (DemoTrajectory.chain 2 2) :=
    Forest.AlikeTo.cons_iff.2 ⟨⟨rfl, rfl, rfl, rfl, rfl, rfl, rfl, rfl, rfl⟩, .zero _ _, .refl _ _⟩
  have first : (DemoTrajectory.chain 1 12).AlikeTo 2 (DemoTrajectory.chain 1 3) :=
    Forest.AlikeTo.cons_iff.2 ⟨⟨rfl, rfl, rfl, rfl, rfl, rfl, rfl, rfl, rfl⟩, second, .refl _ _⟩
  refine Forest.AlikeTo.cons_iff.2 ⟨⟨rfl, rfl, rfl, rfl, rfl, rfl, rfl, rfl, rfl⟩, ?_, .refl _ _⟩
  refine Forest.AlikeTo.cons_iff.2 ⟨.refl _, .refl _ _, ?_⟩
  exact Forest.AlikeTo.cons_iff.2 ⟨.refl _, .refl _ _, first⟩

/-- With three levels the demo trajectory looks the same when it is recorded again, although nothing
is below `recurse-3` any more. With five levels this is seen. -/
theorem render_eq_of_alikeTo_demo :
    let state := Expansion.collapsed.expandAll ["root", "recurse-1", "recurse-2", "recurse-3"]
    let view := fun trajectory bound => View.render trajectory state bound false
    demoTrajectory.subcalls.AlikeTo 3 rerecordedTrajectory.subcalls ∧
      demoTrajectory.subcalls.height = 13 ∧ rerecordedTrajectory.subcalls.height = 4 ∧
      demoTrajectory.expandable 3 = rerecordedTrajectory.expandable 3 ∧
      view demoTrajectory 3 = view rerecordedTrajectory 3 ∧
      view demoTrajectory 5 ≠ view rerecordedTrajectory 5 := by
  intro state view
  have summary : { demoTrajectory with subcalls := .nil } =
      { rerecordedTrajectory with subcalls := .nil } := rfl
  obtain ⟨hexpandable, hview⟩ := render_eq_of_alikeTo 3 summary alikeTo_rerecordedTrajectory
  exact ⟨alikeTo_rerecordedTrajectory, by decide +kernel, by decide +kernel, hexpandable,
    hview state false, by decide +kernel⟩

/-! ## Smaller and larger bounds -/

/-- A row on a level that becomes the last one: children of its subcall are beyond the bound. -/
def Row.cutOff (cut : UInt32) (row : Row) : Row :=
  if row.depth = cut ∧ 0 < row.childCount then
    { row with body := .depthLimited row.childCount, childrenExpanded := false }
  else row

/-- Rows cut off behind a level. A row on it whose subcall has children stands in for them and for
all rows nested in it. -/
def Forest.cutOff (cut : UInt32) : Forest Row → Forest Row
  | .nil => .nil
  | .cons row nested rest =>
    .cons (row.cutOff cut)
      (if row.depth = cut ∧ 0 < row.childCount then .nil else nested.cutOff cut)
      (rest.cutOff cut)

/-- A view cut off behind a level. -/
def View.cutOff (cut : UInt32) : View → View
  | .tree summary roots => .tree summary (roots.cutOff cut)
  | view => view

theorem Row.cutOff_of_limited {cut : UInt32} {row : Row}
    (h : row.depth = cut ∧ 0 < row.childCount) :
    row.cutOff cut =
      { row with body := .depthLimited row.childCount, childrenExpanded := false } :=
  if_pos h

theorem Row.cutOff_of_not_limited {cut : UInt32} {row : Row}
    (h : ¬ (row.depth = cut ∧ 0 < row.childCount)) : row.cutOff cut = row :=
  if_neg h

/-- A row depends on the bound only by whether it stands in for children beyond it. -/
theorem row_congr_bound {larger : UInt32} {subcall : Subcall}
    (h : isDepthLimited subcall depth bound = isDepthLimited subcall depth larger) :
    Subcall.row state bound depth subcall = Subcall.row state larger depth subcall := by
  have hbody : Subcall.body state bound depth subcall =
      Subcall.body state larger depth subcall := by
    rw [Subcall.body, Subcall.body, h]
  rw [Subcall.row, Subcall.row, hbody]

/-- Down to the last level of a bound, a row is that under a larger bound, cut off. -/
theorem row_eq_cutOff (state : Expansion) {larger : UInt32} (hle : bound.toNat ≤ larger.toNat)
    (hdepth : depth.toNat ≤ bound.toNat - 1) (subcall : Subcall) :
    Subcall.row state bound depth subcall =
      (Subcall.row state larger depth subcall).cutOff (lastLevel bound) := by
  by_cases hlimited : depth = lastLevel bound ∧ 0 < subcall.children.length
  · -- On the last level the children are beyond the bound.
    have hchildren : subcall.hasChildren = true := Tree.hasChildren_of_pos hlimited.2
    have hlast : isDepthLimited subcall depth bound = true := by
      rw [isDepthLimited_eq, hchildren, hlimited.1, toNat_lastLevel]
      simp
    have hbody : Subcall.body state bound depth subcall =
        .depthLimited subcall.children.length := by
      rw [Subcall.body, hchildren, hlast]
      rfl
    rw [Row.cutOff_of_limited hlimited, Subcall.row, hbody]
    rfl
  · -- A subcall with children is above the last level, where the bound makes no difference.
    rw [Row.cutOff_of_not_limited hlimited]
    refine row_congr_bound ?_
    rw [isDepthLimited_eq, isDepthLimited_eq, Tree.hasChildren_eq]
    by_cases hchildren : 0 < subcall.children.length
    · have hne : depth.toNat ≠ bound.toNat - 1 := fun heq =>
        hlimited ⟨UInt32.toNat.inj (heq.trans (toNat_lastLevel bound).symm), hchildren⟩
      have habove : ¬ bound.toNat - 1 ≤ depth.toNat ∧ ¬ larger.toNat - 1 ≤ depth.toNat := by omega
      rw [decide_eq_false habove.1, decide_eq_false habove.2]
    · rw [decide_eq_false hchildren, Bool.false_and, Bool.false_and]

/-- Under a smaller bound, the rows of a forest are those under a larger one, cut off behind the
last level. -/
theorem renderForest_eq_cutOff {larger : UInt32} (hle : bound.toNat ≤ larger.toNat)
    (hdepth : depth.toNat ≤ bound.toNat - 1) (forest : Forest Call) :
    renderForest state bound depth forest =
      (renderForest state larger depth forest).cutOff (lastLevel bound) := by
  induction forest generalizing depth with
  | nil => rfl
  | cons call children rest ihc ihr =>
    have hrow := row_eq_cutOff state hle hdepth (⟨call, children⟩ : Subcall)
    rw [renderForest, renderForest, Forest.cutOff, ← hrow, ihr hdepth]
    by_cases hlimited : (Subcall.row state larger depth ⟨call, children⟩).depth = lastLevel bound ∧
        0 < (Subcall.row state larger depth ⟨call, children⟩).childCount
    · -- The row stands in for the children under the smaller bound, so none are nested in it.
      have hclosed : ¬ (Subcall.row state bound depth ⟨call, children⟩).body.isExpanded = true := by
        intro hopen
        have habove := lt_of_isExpanded hopen
        rw [show depth = lastLevel bound from hlimited.1, toNat_lastLevel] at habove
        exact Nat.lt_irrefl _ habove
      rw [if_neg hclosed, if_pos hlimited]
    · -- The row is the same under both bounds, and if it is open the next level is displayed, too.
      rw [Row.cutOff_of_not_limited hlimited] at hrow
      rw [if_neg hlimited, hrow]
      split
      · next hopen =>
        rw [← hrow] at hopen
        have habove := lt_of_isExpanded hopen
        have hnext := toNat_add_one_of_lt habove
        rw [ihc (by omega)]
      · rfl

/-- If a place is on a level that is displayed under the smaller of two bounds, it is revealed under
both or under none of them. -/
theorem revealed_iff_of_le {larger : UInt32} (hle : bound.toNat ≤ larger.toNat)
    {forest : Forest Call} {item : List Nat × Subcall} (hmem : item ∈ forest.placed) :
    forest.Revealed state bound 0 item.1 ↔
      forest.Revealed state larger 0 item.1 ∧ item.1.length - 1 ≤ bound.toNat - 1 := by
  constructor
  · intro h
    refine ⟨fun level hlevel ancestor hancestor => ?_, h.level_le hmem⟩
    obtain ⟨hshows, hdepth⟩ := h level hlevel ancestor hancestor
    exact ⟨hshows, by omega⟩
  · rintro ⟨h, hlast⟩ level hlevel ancestor hancestor
    exact ⟨(h level hlevel ancestor hancestor).1, by omega⟩

/-- The depth of a place that is displayed is the number of levels above it, however high the forest
is. -/
theorem toNat_depthAt_of_revealed {forest : Forest Call} {item : List Nat × Subcall}
    (hmem : item ∈ forest.placed) (h : forest.Revealed state bound 0 item.1) :
    (Forest.depthAt 0 item.1).toNat = item.1.length - 1 := by
  have hlevel := h.level_le hmem
  have hbound := UInt32.toNat_lt bound
  refine Forest.toNat_depthAt_zero ?_
  unfold UInt32.size
  omega

/-- From top to bottom, the rows under a smaller bound are those under a larger one that are not
below the last level, cut off. -/
theorem visibleRows_eq_map_cutOff (trajectory : Trajectory) (state : Expansion) {larger : UInt32}
    (hle : bound.toNat ≤ larger.toNat) :
    (View.render trajectory state bound false).visibleRows =
      ((View.render trajectory state larger false).visibleRows.filter
        (·.depth ≤ lastLevel bound)).map (Row.cutOff (lastLevel bound)) := by
  have hshown : trajectory.subcalls.placed.filter
        (trajectory.subcalls.Revealed state bound 0 ·.1) =
      trajectory.subcalls.placed.filter fun item =>
        (rowAt state larger 0 item).depth ≤ lastLevel bound &&
          trajectory.subcalls.Revealed state larger 0 item.1 := by
    refine List.filter_congr fun item hmem => ?_
    rw [← Bool.decide_and, decide_eq_decide, revealed_iff_of_le hle hmem, and_comm]
    refine and_congr_left fun hrevealed => ?_
    rw [UInt32.le_iff_toNat_le, toNat_lastLevel, depth_rowAt,
      toNat_depthAt_of_revealed hmem hrevealed]
  rw [visibleRows_render, visibleRows_render, List.filter_map, List.map_map, List.filter_filter,
    hshown]
  refine List.map_congr_left fun item hitem => ?_
  obtain ⟨-, hkept⟩ := List.mem_filter.1 hitem
  rw [Bool.and_eq_true, decide_eq_true_iff] at hkept
  have hdepth := UInt32.le_iff_toNat_le.1 hkept.1
  rw [toNat_lastLevel] at hdepth
  exact row_eq_cutOff state hle hdepth item.2

/-- Children are hidden, displayed, or beyond the bound. -/
theorem body_of_hasChildren {subcall : Subcall} (h : subcall.hasChildren = true) :
    Subcall.body state bound depth subcall = .collapsed ∨
      Subcall.body state bound depth subcall = .expanded ∨
      Subcall.body state bound depth subcall = .depthLimited subcall.children.length := by
  rw [Subcall.body, h]
  cases isDepthLimited subcall depth bound with
  | true => exact .inr (.inr rfl)
  | false =>
    cases state.showsChildren subcall.value.id with
    | true => exact .inr (.inl rfl)
    | false => exact .inl rfl

/-- A larger bound displays what a smaller one does, and more below it: the view under the smaller
bound is the one under the larger bound, cut off behind the last level. There a row whose subcall
has children stands in for them, whatever was displayed in its place; all other rows down to this
level are the same, and in the same order. -/
theorem render_eq_cutOff (trajectory : Trajectory) (state : Expansion) {bound larger : UInt32}
    (hpos : 1 ≤ bound) (hle : bound ≤ larger) :
    let view := fun bound => View.render trajectory state bound false
    let last := bound - 1
    view bound = (view larger).cutOff last ∧
      (view bound).visibleRows =
        ((view larger).visibleRows.filter (·.depth ≤ last)).map (Row.cutOff last) ∧
      ∀ row ∈ (view larger).visibleRows, row.depth = last → 0 < row.childCount →
        (row.body = .collapsed ∨ row.body = .expanded ∨ row.body = .depthLimited row.childCount) ∧
          (row.cutOff last).body.label? = some (Display.nestedLabel row.childCount) := by
  intro view last
  have hlast : last = lastLevel bound := by
    refine (if_neg ?_).symm
    rintro rfl
    exact absurd hpos (by decide)
  have hwords := UInt32.le_iff_toNat_le.1 hle
  rw [hlast]
  refine ⟨?_, visibleRows_eq_map_cutOff trajectory state hwords, fun row hrow hdepth hcount => ?_⟩
  · have hrows : renderForest state bound 0 trajectory.subcalls =
        (renderForest state larger 0 trajectory.subcalls).cutOff (lastLevel bound) :=
      renderForest_eq_cutOff hwords (Nat.zero_le _) trajectory.subcalls
    simp only [view, View.render, hrows]
    split
    · contradiction
    · split <;> rfl
  · obtain ⟨item, -, -, rfl⟩ := mem_visibleRows.1 hrow
    have hchildren : item.2.hasChildren = true := Tree.hasChildren_of_pos hcount
    refine ⟨body_of_hasChildren hchildren, ?_⟩
    rw [Row.cutOff_of_limited ⟨hdepth, hcount⟩]
    rfl

/-- With four levels the row of `recurse-2` is displayed below that of `recurse-1`. With two levels
`recurse-1` stands in for it, and all other rows are the same. -/
theorem render_eq_cutOff_demo :
    let state := Expansion.collapsed.expandAll ["root", "recurse-1"]
    let view := fun bound => View.render demoTrajectory state bound false
    (1 : UInt32) ≤ 2 ∧ (2 : UInt32) ≤ 4 ∧ view 2 = (view 4).cutOff 1 ∧
      (view 4).visibleRows.map (fun row => (row.id, row.body)) =
        [("root", .expanded), ("summarize", .leaf), ("locate", .leaf), ("recurse-1", .expanded),
          ("recurse-2", .collapsed), ("followup", .leaf)] ∧
      (view 2).visibleRows.map (fun row => (row.id, row.body)) =
        [("root", .expanded), ("summarize", .leaf), ("locate", .leaf),
          ("recurse-1", .depthLimited 1), ("followup", .leaf)] := by
  intro state view
  obtain ⟨hview, hrows, -⟩ :=
    render_eq_cutOff demoTrajectory state (by decide : (1 : UInt32) ≤ 2)
      (by decide : (2 : UInt32) ≤ 4)
  refine ⟨by decide, by decide, hview, by decide +kernel, ?_⟩
  rw [hrows]
  decide +kernel

end RunTrace
