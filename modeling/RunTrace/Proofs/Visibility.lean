import RunTrace.Proofs.Places
import RunTrace.View
import RunTrace.Viewer.DemoTrajectory

/-!
# Which subcalls are visible

A place of a trajectory is *revealed* if every subcall above it shows its children and is above
the last displayed level. Rendering nests the rows of the children in the row of a subcall only
where they are to be displayed; here the rows, from top to bottom, are shown to be those of the
revealed places and no others.

## Main results

* `toList_renderForest`: the rows of a forest are those of its revealed places, in the order of
  the walk;
* `visibleRows_eq_revealed`: the same of a whole trajectory, together with what follows for the
  roots, for the depths of the rows and for a bound of zero.
-/

namespace RunTrace

/-- Everything above a place shows its children and is above the last displayed level. The
roots of the forest are at the given depth. -/
def Forest.Revealed (state : Expansion) (bound : UInt32) (depth : Nat) (forest : Forest Call)
    (place : List Nat) : Prop :=
  ∀ level < place.length - 1, ∀ ancestor ∈ forest.at? (place.take (level + 1)),
    state.showsChildren ancestor.value.id = true ∧ depth + level < bound.toNat - 1

/-- Whether a place is revealed is decidable. -/
instance (state : Expansion) (bound : UInt32) (depth : Nat) (forest : Forest Call) :
    DecidablePred (forest.Revealed state bound depth) := by
  intro place
  unfold Forest.Revealed
  infer_instance

namespace Forest

variable {state : Expansion} {bound : UInt32} {depth : Nat} {call : Call}
  {children rest : Forest Call} {place : List Nat}

/-- Nothing is above a root. -/
theorem revealed_of_length_le_one {forest : Forest Call} (h : place.length ≤ 1) :
    forest.Revealed state bound depth place := by
  intro level hlevel
  omega

/-- A place below the first tree is revealed if the tree shows its children, is above the last
level, and the place is revealed among the children. -/
theorem revealed_below_first (h : place ≠ []) :
    (cons call children rest).Revealed state bound depth (0 :: place) ↔
      (state.showsChildren call.id = true ∧ depth < bound.toNat - 1) ∧
        children.Revealed state bound (depth + 1) place := by
  have hpos := List.length_pos_iff.2 h
  constructor
  · intro hall
    refine ⟨?_, fun level hlevel ancestor hmem => ?_⟩
    -- The ancestor on the level of the roots is the tree itself.
    · have := hall 0 (by simpa using hpos) ⟨call, children⟩ (by simp)
      simpa using this
    · have hne : place.take (level + 1) ≠ [] := by simpa using h
      -- An ancestor among the children is one level further down in the forest.
      have := hall (level + 1) (by simp; omega) ancestor
        (by rwa [List.take_succ_cons, at?_below_first _ _ _ hne])
      exact ⟨this.1, by omega⟩
  · rintro ⟨⟨hshown, hdepth⟩, hall⟩ level hlevel ancestor hmem
    -- The first ancestor is the tree itself, all others are among its children.
    cases level with
    | zero =>
      obtain rfl : (⟨call, children⟩ : Tree Call) = ancestor := by simpa using hmem
      exact ⟨hshown, by omega⟩
    | succ level =>
      have hne : place.take (level + 1) ≠ [] := by simpa using h
      rw [List.take_succ_cons, at?_below_first _ _ _ hne] at hmem
      have := hall level (by simp at hlevel; omega) ancestor hmem
      exact ⟨this.1, by omega⟩

/-- A place behind the first tree is revealed if it is among the other trees. -/
theorem revealed_passFirst :
    (cons call children rest).Revealed state bound depth (passFirst place) ↔
      rest.Revealed state bound depth place := by
  have htake : ∀ level, (passFirst place).take (level + 1) =
      passFirst (place.take (level + 1)) := by
    intro level
    cases place <;> rfl
  simp only [Revealed, length_passFirst, htake, at?_passFirst]

end Forest

/-! ## Rendering -/

@[simp]
theorem toNat_lastLevel (bound : UInt32) : (lastLevel bound).toNat = bound.toNat - 1 := by
  unfold lastLevel
  split
  · rename_i h
    simp [h]
  · rename_i h
    -- The bound is not zero, so nothing is lost in taking one away.
    have hpos : 1 ≤ bound.toNat := Nat.one_le_iff_ne_zero.2 fun h0 => h (UInt32.toNat.inj h0)
    have hle : (1 : UInt32) ≤ bound := UInt32.le_iff_toNat_le.2 hpos
    rw [UInt32.toNat_sub_of_le _ _ hle]
    rfl

/-- The next depth is one more, unless it is no word any more. -/
theorem toNat_add_one {depth : UInt32} (h : depth.toNat + 1 < UInt32.size) :
    (depth + 1).toNat = depth.toNat + 1 := by
  rw [UInt32.toNat_add]
  exact Nat.mod_eq_of_lt h

/-- Above the last level, the depth of the next level is still a word. -/
theorem toNat_add_one_of_lt {bound depth : UInt32} (h : depth.toNat < bound.toNat - 1) :
    (depth + 1).toNat = depth.toNat + 1 := by
  have hbound : bound.toNat < UInt32.size := bound.toNat_lt
  exact toNat_add_one (by omega)

/-- The children of a subcall are displayed if there are any, the subcall shows them, and it is
above the last level. -/
theorem isExpanded_body (state : Expansion) (bound depth : UInt32) (subcall : Subcall) :
    (Subcall.body state bound depth subcall).isExpanded =
      (subcall.hasChildren && decide (state.showsChildren subcall.value.id = true ∧
        depth.toNat < bound.toNat - 1)) := by
  unfold Subcall.body isDepthLimited
  -- Whether the level is the last one is asked first, so a body on it is never expanded.
  by_cases hlimit : lastLevel bound ≤ depth
  · have : ¬ depth.toNat < bound.toNat - 1 := by
      rw [UInt32.le_iff_toNat_le, toNat_lastLevel] at hlimit
      omega
    cases subcall.hasChildren <;> simp [hlimit, this, Body.isExpanded]
  · have : depth.toNat < bound.toNat - 1 := by
      rw [UInt32.le_iff_toNat_le, toNat_lastLevel] at hlimit
      omega
    cases subcall.hasChildren <;> cases state.showsChildren subcall.value.id <;>
      simp [hlimit, this, Body.isExpanded]

/-- A subcall whose children are displayed is above the last level. -/
theorem lt_of_isExpanded {state : Expansion} {bound depth : UInt32} {subcall : Subcall}
    (h : (Subcall.row state bound depth subcall).body.isExpanded = true) :
    depth.toNat < bound.toNat - 1 := by
  have hopen := (isExpanded_body state bound depth subcall).symm.trans h
  rw [Bool.and_eq_true, decide_eq_true_iff] at hopen
  exact hopen.2.2

/-- Of the places below the first tree, those are revealed that are revealed among the children
if the tree is open, and none otherwise. -/
theorem filter_revealed_below (state : Expansion) (bound : UInt32) (depth : Nat) (call : Call)
    (children rest : Forest Call) :
    children.placed.filter
        (fun item => (Forest.cons call children rest).Revealed state bound depth (0 :: item.1)) =
      if state.showsChildren call.id = true ∧ depth < bound.toNat - 1 then
        children.placed.filter (children.Revealed state bound (depth + 1) ·.1)
      else [] := by
  split
  · rename_i hopen
    refine List.filter_congr fun item hitem => ?_
    simp [Forest.revealed_below_first (Forest.ne_nil_of_mem_placed hitem), hopen]
  · rename_i hclosed
    refine List.filter_eq_nil_iff.2 fun item hitem => ?_
    simp [Forest.revealed_below_first (Forest.ne_nil_of_mem_placed hitem), hclosed]

/-- The row of what is at a place of a forest whose roots are at a depth. -/
def rowAt (state : Expansion) (bound depth : UInt32) (item : List Nat × Subcall) : Row :=
  Subcall.row state bound (Forest.depthAt depth item.1) item.2

theorem depth_rowAt (state : Expansion) (bound depth : UInt32) (item : List Nat × Subcall) :
    (rowAt state bound depth item).depth = Forest.depthAt depth item.1 := rfl

/-- The rows of the places below the first tree are those that are nested in its row: all rows of
the children if the tree is open, and none otherwise. -/
theorem map_rowAt_below (state : Expansion) (bound depth : UInt32) (call : Call)
    {children : Forest Call} (rest : Forest Call)
    (hchildren : ∀ depth, (renderForest state bound depth children).toList =
      (children.placed.filter (children.Revealed state bound depth.toNat ·.1)).map
        (rowAt state bound depth)) :
    ((children.placed.map (Prod.map (0 :: ·) id)).filter
        ((Forest.cons call children rest).Revealed state bound depth.toNat ·.1)).map
          (rowAt state bound depth) =
      (if (Subcall.body state bound depth ⟨call, children⟩).isExpanded then
        renderForest state bound (depth + 1) children else .nil).toList := by
  rw [isExpanded_body, List.filter_map, List.map_map]
  simp only [Function.comp_def, Prod.map, filter_revealed_below]
  by_cases hopen : state.showsChildren call.id = true ∧ depth.toNat < bound.toNat - 1
  · have hrow : ∀ item ∈ children.placed.filter
        (children.Revealed state bound (depth.toNat + 1) ·.1),
        rowAt state bound depth (0 :: item.1, item.2) = rowAt state bound (depth + 1) item := by
      intro item hitem
      have hne := Forest.ne_nil_of_mem_placed (List.mem_filter.1 hitem).1
      rw [rowAt, rowAt, Forest.depthAt_below_first depth hne]
    rw [if_pos hopen]
    -- Without children there is nothing to show, and the tree does not count as open.
    cases children with
    | nil => rfl
    | cons child grandchildren others =>
      simp only [hopen, Tree.hasChildren, Forest.isEmpty, and_self, decide_true, Bool.not_false,
        Bool.and_self, ↓reduceIte, hchildren, toNat_add_one_of_lt hopen.2]
      exact List.map_congr_left hrow
  · simp [hopen, Forest.toList]

/-- The rows of a forest, from top to bottom, are those of its revealed places in the order of
the walk. -/
theorem toList_renderForest (state : Expansion) (bound depth : UInt32) (forest : Forest Call) :
    (renderForest state bound depth forest).toList =
      (forest.placed.filter (forest.Revealed state bound depth.toNat ·.1)).map
        (rowAt state bound depth) := by
  induction forest generalizing depth with
  | nil => rfl
  | cons call children rest ihc ihr =>
    have first : rowAt state bound depth ([0], ⟨call, children⟩) =
        Subcall.row state bound depth ⟨call, children⟩ := by
      simp [rowAt, Forest.depthAt]
    have behind : ((rest.placed.map (Prod.map Forest.passFirst id)).filter
        ((Forest.cons call children rest).Revealed state bound depth.toNat ·.1)).map
          (rowAt state bound depth) = (renderForest state bound depth rest).toList := by
      simp [List.filter_map, Function.comp_def, Forest.revealed_passFirst, rowAt, ihr]
    -- Rows are nested in the row of a tree by depth, places by a prefix; both say the same.
    have below := map_rowAt_below state bound depth call rest ihc
    rw [Forest.placed, List.filter_cons_of_pos, List.filter_append, List.map_cons,
      List.map_append, behind, below, first]
    · rfl
    · exact decide_eq_true (Forest.revealed_of_length_le_one (Nat.le_refl 1))

/-- All rows of a displayed trajectory. -/
theorem visibleRows_render (trajectory : Trajectory) (state : Expansion) (bound : UInt32) :
    (View.render trajectory state bound false).visibleRows =
      (trajectory.subcalls.placed.filter (trajectory.subcalls.Revealed state bound 0 ·.1)).map
        (rowAt state bound 0) := by
  have rendered := toList_renderForest state bound 0 trajectory.subcalls
  unfold View.render View.visibleRows View.roots Trajectory.isEmpty
  cases hforest : trajectory.subcalls with
  | nil => rfl
  | cons call children rest => rwa [hforest] at rendered

/-! ## The whole trajectory -/

/-- The walk through a trajectory visits its places in order, each at the depth that is the
number of levels above it. -/
theorem walk_eq_map_placed {trajectory : Trajectory}
    (height : trajectory.subcalls.height < UInt32.size) :
    trajectory.walk.map (fun (depth, subcall) => (depth.toNat, subcall)) =
      trajectory.subcalls.placed.map fun (place, subcall) => (place.length - 1, subcall) := by
  rw [trajectory.walk_eq_preorder, Forest.preorder_eq_map_placed, List.map_map]
  refine List.map_congr_left fun (place, subcall) hmem => ?_
  simp [Forest.toNat_depthAt_of_at? height (Forest.mem_placed.1 hmem)]

/-- The depth of the row of a place is the number of levels above the place. -/
theorem toNat_depth_rowAt {forest : Forest Call} (height : forest.height < UInt32.size)
    (state : Expansion) (bound : UInt32) {item : List Nat × Subcall}
    (h : item ∈ forest.placed) :
    (rowAt state bound 0 item).depth.toNat = item.1.length - 1 :=
  Forest.toNat_depthAt_of_at? height (Forest.mem_placed.1 h)

/-- Of the revealed places, those with rows at depth zero are the places of the roots. -/
theorem filter_depth_eq_zero {forest : Forest Call} (height : forest.height < UInt32.size)
    (state : Expansion) (bound : UInt32) :
    (forest.placed.filter (forest.Revealed state bound 0 ·.1)).filter
        (fun item => (rowAt state bound 0 item).depth = 0) =
      forest.placed.filter (·.1.length = 1) := by
  rw [List.filter_filter]
  refine List.filter_congr fun item hitem => ?_
  have hdepth := toNat_depth_rowAt height state bound hitem
  have hpos := List.length_pos_iff.2 (Forest.ne_nil_of_mem_placed hitem)
  rw [← Bool.decide_and, decide_eq_decide]
  -- A depth of zero as a word is one of zero as a number, as the forest is not too high.
  constructor
  · rintro ⟨hzero, -⟩
    rw [hzero, UInt32.toNat_zero] at hdepth
    omega
  · intro hone
    refine ⟨UInt32.toNat.inj ?_, Forest.revealed_of_length_le_one (by omega)⟩
    rw [hdepth, hone]
    rfl

/-- A revealed place of the forest is at most on the last displayed level. -/
theorem Forest.Revealed.level_le {state : Expansion} {bound : UInt32} {forest : Forest Call}
    {item : List Nat × Subcall} (h : forest.Revealed state bound 0 item.1)
    (hmem : item ∈ forest.placed) : item.1.length - 1 ≤ bound.toNat - 1 := by
  by_cases hroot : item.1.length - 1 = 0
  · omega
  -- The parent is above the last level, so the place is at most on it.
  · have hlevel : item.1.length - 2 < item.1.length - 1 := by omega
    obtain ⟨parent, hparent⟩ :=
      Forest.exists_at?_take (Forest.mem_placed.1 hmem) (Nat.succ_pos (item.1.length - 2))
    have := (h (item.1.length - 2) hlevel parent hparent).2
    omega

/-- Rendering looks at the bound only for the last level. -/
theorem renderForest_congr_bound {bound other : UInt32} (h : lastLevel bound = lastLevel other)
    (state : Expansion) (depth : UInt32) (forest : Forest Call) :
    renderForest state bound depth forest = renderForest state other depth forest := by
  have hrow : ∀ depth subcall,
      Subcall.row state bound depth subcall = Subcall.row state other depth subcall := by
    intro depth subcall
    have hbody : Subcall.body state bound depth subcall =
        Subcall.body state other depth subcall := by
      rw [Subcall.body, isDepthLimited, h]
      rfl
    rw [Subcall.row, hbody]
    rfl
  induction forest generalizing depth with
  | nil => rfl
  | cons call children rest ihc ihr => simp only [renderForest, hrow, ihc, ihr]

/-- The visible rows are those of the subcalls of the walk of which every ancestor shows its
children and is above the last level. So the roots are always visible, no row is below the last
level, and a bound of zero displays as much as a bound of one. -/
theorem visibleRows_eq_revealed (trajectory : Trajectory)
    (height : trajectory.subcalls.height < UInt32.size) (state : Expansion) (bound : UInt32) :
    let forest := trajectory.subcalls
    let rows := (View.render trajectory state bound false).visibleRows
    trajectory.walk.map (fun (depth, subcall) => (depth.toNat, subcall)) =
        forest.placed.map (fun (place, subcall) => (place.length - 1, subcall)) ∧
      rows.map (fun row => (row.depth.toNat, row.id, row.name, row.outcome)) =
        (forest.placed.filter fun (place, _) => forest.Revealed state bound 0 place).map
          (fun (place, subcall) =>
            (place.length - 1, subcall.value.id, subcall.value.name, subcall.value.outcome)) ∧
      (forest.placed.map (·.1)).Nodup ∧
      (rows.filter (·.depth = 0)).map (fun row => (row.id, row.name, row.outcome)) =
        forest.trees.map (fun root => (root.value.id, root.value.name, root.value.outcome)) ∧
      (∀ row ∈ rows, row.depth.toNat ≤ bound.toNat - 1) ∧
      View.render trajectory state 0 false = View.render trajectory state 1 false := by
  intro forest rows
  have hrows : rows = _ := visibleRows_render trajectory state bound
  refine ⟨walk_eq_map_placed height, ?_, Forest.nodup_places _, ?_, fun row hrow => ?_, ?_⟩
  · rw [hrows, List.map_map]
    refine List.map_congr_left fun item hitem => ?_
    have hdepth := toNat_depth_rowAt height state bound (List.mem_filter.1 hitem).1
    exact Prod.ext hdepth rfl
  · rw [hrows, List.filter_map, List.map_map, ← Forest.map_snd_filter_placed, List.map_map]
    exact congrArg _ (filter_depth_eq_zero height state bound)
  · rw [hrows] at hrow
    obtain ⟨item, hitem, rfl⟩ := List.mem_map.1 hrow
    obtain ⟨hmem, hrevealed⟩ := List.mem_filter.1 hitem
    rw [toNat_depth_rowAt height state bound hmem]
    exact (of_decide_eq_true hrevealed).level_le hmem
  · unfold View.render
    rw [renderForest_congr_bound (by decide : lastLevel 0 = lastLevel 1)]

/-- With a bound of three levels the third one is the last, so the children of `recurse-2` stay
hidden although its id is among those expanded. -/
theorem visibleRows_demo :
    demoTrajectory.subcalls.height < UInt32.size ∧
      (View.render demoTrajectory
          (Expansion.collapsed.expandAll ["root", "recurse-1", "recurse-2", "unknown"]) 3
          false).visibleRows.map (fun row => (row.depth.toNat, row.id, row.name, row.outcome)) =
        [(0, "root", "rlm.run: audit dependency graph", .success),
          (1, "summarize", "rlm.summarize chunk", .success),
          (1, "locate", "rlm.locate symbol", .failure),
          (1, "recurse-1", "rlm.subquery level 1", .success),
          (2, "recurse-2", "rlm.subquery level 2", .success),
          (0, "followup", "rlm.answer", .success)] := by
  have height : demoTrajectory.subcalls.height < UInt32.size := by decide +kernel
  exact ⟨height, (visibleRows_eq_revealed demoTrajectory height _ 3).2.1.trans (by decide +kernel)⟩

end RunTrace
