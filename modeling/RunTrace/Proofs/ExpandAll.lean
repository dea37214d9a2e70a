import RunTrace.Proofs.ExpansionLookup
import RunTrace.Proofs.Visibility

/-!
# Expanding all subcalls within the bound

"Expand all" collects the ids of subcalls in one recursion over the trajectory, and rendering
looks ids up in another. Here both are shown to stop at the same level: whatever was expanded
before, everything down to the last displayed level is visible afterwards.

## Main results

* `mem_expandableIds`: every subcall above the last level that has children is collected;
* `revealed_expandAll_iff`: afterwards, a place is revealed exactly if it is not below the last
  level;
* `visibleRows_expandAll`: the rows are those of the walk down to the last level, none of them
  collapsed.
-/

namespace RunTrace

/-- A subcall is limited if it has children and is not above the last level. -/
theorem isDepthLimited_eq (subcall : Subcall) (depth bound : UInt32) :
    isDepthLimited subcall depth bound =
      (subcall.hasChildren && decide (bound.toNat - 1 ≤ depth.toNat)) := by
  unfold isDepthLimited
  congr 1
  rw [decide_eq_decide, UInt32.le_iff_toNat_le, toNat_lastLevel]

/-- A subcall with children that is not limited is above the last level. -/
theorem lt_of_isDepthLimited_eq_false {subcall : Subcall} {depth bound : UInt32}
    (hchildren : subcall.hasChildren = true)
    (hlimit : isDepthLimited subcall depth bound = false) : depth.toNat < bound.toNat - 1 := by
  rwa [isDepthLimited_eq, hchildren, Bool.true_and, decide_eq_false_iff_not, Nat.not_le] at hlimit

/-- The id of every subcall above the last level that has children is collected. -/
theorem mem_expandableIds {bound depth : UInt32} {forest : Forest Call} {place : List Nat}
    {subcall : Subcall} (h : forest.at? place = some subcall)
    (hchildren : subcall.hasChildren = true)
    (hlevel : depth.toNat + (place.length - 1) < bound.toNat - 1) :
    subcall.value.id ∈ expandableIds bound depth forest := by
  induction forest generalizing depth place with
  | nil => simp [Forest.at?] at h
  | cons call children rest ihc ihr =>
    -- A tree above the last level that has children is collected, and the collection goes on below.
    have hopen : (Tree.mk call children).hasChildren = true →
        depth.toNat < bound.toNat - 1 →
        expandableIds bound depth (.cons call children rest) =
          call.id :: expandableIds bound (depth + 1) children ++
            expandableIds bound depth rest := by
      intro hchildren hdepth
      have : ¬ bound.toNat - 1 ≤ depth.toNat := by omega
      simp [expandableIds, isDepthLimited_eq, hchildren, this]
    rcases place with _ | ⟨_ | n, path⟩
    · simp [Forest.at?] at h
    · cases path with
      | nil =>
        obtain rfl : (⟨call, children⟩ : Subcall) = subcall := by simpa using h
        rw [hopen hchildren (by simpa using hlevel)]
        exact List.mem_cons_self ..
      | cons n path =>
        -- The subcall is above the last level, so the tree that it is in is not cut off.
        rw [List.length_cons, Nat.add_sub_cancel, List.length_cons] at hlevel
        have hdepth : depth.toNat < bound.toNat - 1 := by omega
        have hbelow : (depth + 1).toNat + ((n :: path).length - 1) < bound.toNat - 1 := by
          rw [toNat_add_one_of_lt hdepth, List.length_cons, Nat.add_sub_cancel]
          omega
        have below : children.at? (n :: path) = some subcall := h
        rw [hopen (Forest.hasChildren_of_at? below) hdepth]
        exact List.mem_append_left _ (List.mem_cons_of_mem _ (ihc below hbelow))
    · have behind : rest.at? (n :: path) = some subcall := h
      exact List.mem_append_right _ (ihr behind hlevel)

/-- Every id that is collected is one of a subcall that has children. -/
theorem exists_of_mem_expandableIds {bound depth : UInt32} {forest : Forest Call} {id : String}
    (h : id ∈ expandableIds bound depth forest) :
    ∃ subcall ∈ forest.subtrees, subcall.value.id = id ∧ subcall.hasChildren = true := by
  induction forest generalizing depth with
  | nil => exact absurd h List.not_mem_nil
  | cons call children rest ihc ihr =>
    rw [Forest.subtrees]
    rcases List.mem_append.1 h with hfirst | hrest
    · split at hfirst
      · exact absurd hfirst List.not_mem_nil
      · next hopen =>
        rw [Bool.or_eq_true, not_or, Bool.not_eq_true', Bool.not_eq_false] at hopen
        rcases List.mem_cons.1 hfirst with rfl | hbelow
        · exact ⟨_, List.mem_cons_self .., rfl, hopen.1⟩
        · obtain ⟨subcall, hmem, hsubcall⟩ := ihc hbelow
          exact ⟨subcall, List.mem_cons_of_mem _ (List.mem_append_left _ hmem), hsubcall⟩
    · obtain ⟨subcall, hmem, hsubcall⟩ := ihr hrest
      exact ⟨subcall, List.mem_cons_of_mem _ (List.mem_append_right _ hmem), hsubcall⟩

/-- After expanding all, a place is revealed exactly if it is not below the last level. -/
theorem revealed_expandAll_iff (prior : Expansion) (bound : UInt32) {forest : Forest Call}
    {item : List Nat × Subcall} (hmem : item ∈ forest.placed) :
    forest.Revealed (prior.expandAll (expandableIds bound 0 forest)) bound 0 item.1 ↔
      item.1.length - 1 ≤ bound.toNat - 1 := by
  refine ⟨fun h => h.level_le hmem, fun hlevel level hlt ancestor hancestor => ?_⟩
  have hchildren := Forest.hasChildren_of_at?_take (Forest.mem_placed.1 hmem) hancestor (by omega)
  -- Every ancestor has children, and it is above the last level as the place is at most on it.
  have hlength : (item.1.take (level + 1)).length = level + 1 := by
    rw [List.length_take]
    omega
  have hcollected : ancestor.value.id ∈ expandableIds bound 0 forest :=
    mem_expandableIds hancestor hchildren (by rw [hlength, UInt32.toNat_zero]; omega)
  exact ⟨by simpa using hcollected, by omega⟩

/-- A tree has children exactly if their number is not zero. -/
theorem Tree.hasChildren_eq {α : Type} (tree : Tree α) :
    tree.hasChildren = decide (0 < tree.children.length) := by
  obtain ⟨a, children⟩ := tree
  cases children <;> simp [Tree.hasChildren, Forest.isEmpty, Forest.length]

theorem Tree.hasChildren_of_pos {α : Type} {tree : Tree α} (h : 0 < tree.children.length) :
    tree.hasChildren = true := by
  rw [Tree.hasChildren_eq]
  exact decide_eq_true h

/-- After expanding all, the children of what is at a place are displayed if there are any and
the place is above the last level. -/
theorem body_expandAll (prior : Expansion) (bound : UInt32) {forest : Forest Call}
    (height : forest.height < UInt32.size) {item : List Nat × Subcall}
    (hmem : item ∈ forest.placed) :
    (rowAt (prior.expandAll (expandableIds bound 0 forest)) bound 0 item).body =
      if 0 < item.2.children.length then
        if bound.toNat - 1 ≤ item.1.length - 1 then .depthLimited item.2.children.length
        else .expanded
      else .leaf := by
  have hdepth := Forest.toNat_depthAt_of_at? height (Forest.mem_placed.1 hmem)
  change Subcall.body _ bound (Forest.depthAt 0 item.1) item.2 = _
  rw [Subcall.body, isDepthLimited_eq, hdepth, Tree.hasChildren_eq]
  by_cases hchildren : 0 < item.2.children.length
  · by_cases hlevel : bound.toNat - 1 ≤ item.1.length - 1
    · simp [hchildren, hlevel]
    · have hcollected : item.2.value.id ∈ expandableIds bound 0 forest :=
        mem_expandableIds (Forest.mem_placed.1 hmem)
          (by simpa [Tree.hasChildren_eq] using hchildren) (by rw [UInt32.toNat_zero]; omega)
      simp [hchildren, hlevel, hcollected]
  · simp [hchildren]

/-- After expanding all, the rows are those of the walk down to the last level. -/
theorem visibleRows_expandAll_eq_map_walk {trajectory : Trajectory}
    (height : trajectory.subcalls.height < UInt32.size) (prior : Expansion) (bound : UInt32) :
    let state := prior.expandAll (trajectory.expandable bound)
    (View.render trajectory state bound false).visibleRows =
      (trajectory.walk.filter fun (depth, _) => depth.toNat ≤ bound.toNat - 1).map
        fun (depth, subcall) => Subcall.row state bound depth subcall := by
  intro state
  have same : trajectory.subcalls.placed.filter
        (trajectory.subcalls.Revealed state bound 0 ·.1) =
      trajectory.subcalls.placed.filter
        (fun item => (Forest.depthAt 0 item.1).toNat ≤ bound.toNat - 1) := by
    refine List.filter_congr fun item hmem => ?_
    rw [Forest.toNat_depthAt_of_at? height (Forest.mem_placed.1 hmem), decide_eq_decide]
    exact revealed_expandAll_iff prior bound hmem
  rw [visibleRows_render, trajectory.walk_eq_preorder, Forest.preorder_eq_map_placed,
    List.filter_map, List.map_map, same]
  rfl

/-- After expanding all, no row is collapsed, and the children of a row are displayed unless it
is on the last level. -/
theorem body_row_expandAll {trajectory : Trajectory}
    (height : trajectory.subcalls.height < UInt32.size) (prior : Expansion) (bound : UInt32)
    {row : Row}
    (h : row ∈ (View.render trajectory (prior.expandAll (trajectory.expandable bound)) bound
      false).visibleRows) :
    row.body ≠ .collapsed ∧
      (row.body.isDepthLimited = true ↔
        row.depth.toNat = bound.toNat - 1 ∧ 0 < row.childCount) ∧
      (0 < row.childCount → row.body.isDepthLimited = false → row.body = .expanded) := by
  rw [visibleRows_render] at h
  obtain ⟨item, hitem, rfl⟩ := List.mem_map.1 h
  obtain ⟨hmem, hrevealed⟩ := List.mem_filter.1 hitem
  have hlevel := (of_decide_eq_true hrevealed).level_le hmem
  have hbody := body_expandAll prior bound height hmem
  rw [toNat_depth_rowAt height _ bound hmem, show trajectory.expandable bound =
    expandableIds bound 0 trajectory.subcalls from rfl, hbody]
  change _ ∧ (_ ↔ _ ∧ 0 < item.2.children.length) ∧ (0 < item.2.children.length → _)
  by_cases hchildren : 0 < item.2.children.length
  · by_cases hlast : bound.toNat - 1 ≤ item.1.length - 1
    · simp [hchildren, hlast, Body.isDepthLimited]
      omega
    · simp [hchildren, hlast, Body.isDepthLimited]
      omega
  · simp [hchildren, Body.isDepthLimited]

/-- Expanding all reveals exactly what is not below the last level: the rows are those of the
walk down to there, and only on the last level are there children that are not displayed. -/
theorem visibleRows_expandAll (trajectory : Trajectory)
    (height : trajectory.subcalls.height < UInt32.size) (prior : Expansion) (bound : UInt32) :
    let state := prior.expandAll (trajectory.expandable bound)
    let rows := (View.render trajectory state bound false).visibleRows
    let shown := trajectory.walk.filter fun (depth, _) => depth.toNat ≤ bound.toNat - 1
    rows.map (fun row => (row.depth, row.id, row.name, row.outcome, row.childCount)) =
        shown.map (fun (depth, subcall) =>
          (depth, subcall.value.id, subcall.value.name, subcall.value.outcome,
            subcall.children.length)) ∧
      (∀ row ∈ rows, row.body ≠ .collapsed) ∧
      (∀ row ∈ rows, row.body.isDepthLimited = true ↔
        row.depth.toNat = bound.toNat - 1 ∧ 0 < row.childCount) ∧
      (∀ row ∈ rows, 0 < row.childCount → row.body.isDepthLimited = false →
        row.body = .expanded) := by
  intro state rows shown
  have hbody := fun row (hrow : row ∈ rows) => body_row_expandAll height prior bound hrow
  refine ⟨?_, fun row hrow => (hbody row hrow).1, fun row hrow => (hbody row hrow).2.1,
    fun row hrow => (hbody row hrow).2.2⟩
  rw [show rows = _ from visibleRows_expandAll_eq_map_walk height prior bound, List.map_map]
  rfl

/-- With a bound of three levels, `recurse-2` is on the last one and the subcalls that were
expanded before do not matter. -/
theorem visibleRows_expandAll_demo :
    let prior := Expansion.collapsed.expandAll ["recurse-9", "unknown"]
    let state := prior.expandAll (demoTrajectory.expandable 3)
    let rows := (View.render demoTrajectory state 3 false).visibleRows
    demoTrajectory.subcalls.height < UInt32.size ∧
      rows.map (fun row => (row.depth, row.id, row.name, row.outcome, row.childCount)) =
        [(0, "root", "rlm.run: audit dependency graph", .success, 3),
          (1, "summarize", "rlm.summarize chunk", .success, 0),
          (1, "locate", "rlm.locate symbol", .failure, 0),
          (1, "recurse-1", "rlm.subquery level 1", .success, 1),
          (2, "recurse-2", "rlm.subquery level 2", .success, 1),
          (0, "followup", "rlm.answer", .success, 0)] ∧
      ∀ row ∈ rows, row.body ≠ .collapsed := by
  intro prior state rows
  have height : demoTrajectory.subcalls.height < UInt32.size := by decide +kernel
  obtain ⟨hrows, hopen, -⟩ := visibleRows_expandAll demoTrajectory height prior 3
  exact ⟨height, hrows.trans (by decide +kernel), hopen⟩

end RunTrace
