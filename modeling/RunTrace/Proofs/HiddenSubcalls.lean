import Mathlib
import RunTrace.Proofs.Visibility

/-!
# Hidden subcalls

A view displays some of the subcalls of a trajectory, and a row may hide what is below its subcall:
its children are collapsed, or they are beyond the bound. Each subcall is either displayed or hidden
by exactly one row. So the walk through the trajectory is found in the rows from top to bottom, each
of them followed by what it hides.

## Main results

* `placed_eq_flatMap_withHidden`: the places of a forest are those that are revealed, each followed
  by the places that its row hides;
* `walk_eq_flatMap_rows`: the walk through a trajectory is that of the displayed subcalls, each
  followed by the walk through what its row hides, and the numbers of subcalls add up.
-/

namespace RunTrace

/-- Whether there are children, and they are not displayed. -/
def Body.hidesChildren : Body → Bool
  | .collapsed => true
  | .depthLimited _ => true
  | _ => false

variable {state : Expansion} {bound depth : UInt32}

/-- Children that are not displayed are hidden. -/
theorem hidesChildren_body (state : Expansion) (bound depth : UInt32) (subcall : Subcall) :
    (Subcall.body state bound depth subcall).hidesChildren =
      (subcall.hasChildren && !(Subcall.body state bound depth subcall).isExpanded) := by
  unfold Subcall.body
  cases subcall.hasChildren with
  | false => rfl
  | true =>
    cases isDepthLimited subcall depth bound with
    | true => rfl
    | false => cases state.showsChildren subcall.value.id <;> rfl

/-! ## Places below a place -/

namespace Forest

variable {α : Type}

/-- What is below a place of a forest, each tree with its own place. -/
def placedBelow (item : List Nat × Tree α) : List (List Nat × Tree α) :=
  item.2.children.placed.map (Prod.map (item.1 ++ ·) id)

theorem placedBelow_below_first (place : List Nat) (tree : Tree α) :
    placedBelow (0 :: place, tree) = (placedBelow (place, tree)).map (Prod.map (0 :: ·) id) := by
  simp [placedBelow, Function.comp_def]

theorem placedBelow_passFirst {place : List Nat} (h : place ≠ []) (tree : Tree α) :
    placedBelow (passFirst place, tree) =
      (placedBelow (place, tree)).map (Prod.map passFirst id) := by
  obtain ⟨step, path, rfl⟩ := List.exists_cons_of_ne_nil h
  simp [placedBelow, Function.comp_def, passFirst]

/-- The depth of a place below another one. -/
theorem depthAt_append (depth : UInt32) {place path : List Nat} (h : place ≠ []) (h' : path ≠ []) :
    depthAt depth (place ++ path) = depthAt (depthAt depth place + 1) path := by
  have hpos := List.length_pos_iff.2 h
  have hpos' := List.length_pos_iff.2 h'
  have hlength : (place ++ path).length - 1 = (place.length - 1) + 1 + (path.length - 1) := by
    rw [List.length_append]
    omega
  rw [depthAt, depthAt, depthAt, hlength, UInt32.ofNat_add, UInt32.ofNat_add, ← UInt32.add_assoc,
    ← UInt32.add_assoc]
  rfl

/-- What is below a place of a forest, in the order of the walk, each tree with its depth. -/
theorem map_depthAt_placedBelow (depth : UInt32) {item : List Nat × Tree α} (h : item.1 ≠ []) :
    (placedBelow item).map (fun (place, tree) => (depthAt depth place, tree)) =
      item.2.children.preorder (depthAt depth item.1 + 1) := by
  rw [placedBelow, preorder_eq_map_placed, List.map_map]
  refine List.map_congr_left fun below hbelow => ?_
  exact Prod.ext (depthAt_append depth h (ne_nil_of_mem_placed hbelow)) rfl

end Forest

/-! ## What rows hide -/

/-- What is at a place of a forest whose roots are at a depth, followed by all that its row
hides. -/
def withHidden (state : Expansion) (bound depth : UInt32) (item : List Nat × Subcall) :
    List (List Nat × Subcall) :=
  item :: if (rowAt state bound depth item).body.hidesChildren then Forest.placedBelow item else []

theorem withHidden_below_first {item : List Nat × Subcall} (h : item.1 ≠ []) :
    withHidden state bound depth (0 :: item.1, item.2) =
      (withHidden state bound (depth + 1) item).map (Prod.map (0 :: ·) id) := by
  have hrow : rowAt state bound depth (0 :: item.1, item.2) =
      rowAt state bound (depth + 1) item := by
    rw [rowAt, rowAt, Forest.depthAt_below_first depth h]
  rw [withHidden, withHidden, hrow, Forest.placedBelow_below_first, List.map_cons]
  split <;> rfl

theorem withHidden_passFirst {item : List Nat × Subcall} (h : item.1 ≠ []) :
    withHidden state bound depth (Forest.passFirst item.1, item.2) =
      (withHidden state bound depth item).map (Prod.map Forest.passFirst id) := by
  have hrow : rowAt state bound depth (Forest.passFirst item.1, item.2) =
      rowAt state bound depth item := by
    rw [rowAt, rowAt, Forest.depthAt_passFirst]
  rw [withHidden, withHidden, hrow, Forest.placedBelow_passFirst h, List.map_cons]
  split <;> rfl

/-- If moving items to other places moves what their rows hide in the same way, then all of it can
be moved together. -/
theorem flatMap_withHidden_map {items : List (List Nat × Subcall)} {inner : UInt32}
    {step : List Nat → List Nat}
    (h : ∀ item ∈ items, withHidden state bound depth (step item.1, item.2) =
      (withHidden state bound inner item).map (Prod.map step id)) :
    (items.map (Prod.map step id)).flatMap (withHidden state bound depth) =
      (items.flatMap (withHidden state bound inner)).map (Prod.map step id) := by
  rw [List.flatMap_map, List.map_flatMap]
  exact List.flatMap_congr h

section FirstTree

variable {call : Call} {children rest : Forest Call}

/-- Of the first tree of a forest, whatever is below it is hidden by its row or found among what is
displayed below it. -/
theorem withHidden_first_append
    (hchildren : children.placed =
      (children.placed.filter (children.Revealed state bound (depth + 1).toNat ·.1)).flatMap
        (withHidden state bound (depth + 1))) :
    withHidden state bound depth ([0], ⟨call, children⟩) ++
        ((children.placed.map (Prod.map (0 :: ·) id)).filter
          ((Forest.cons call children rest).Revealed state bound depth.toNat ·.1)).flatMap
            (withHidden state bound depth) =
      ([0], ⟨call, children⟩) :: children.placed.map (Prod.map (0 :: ·) id) := by
  have hbody : (rowAt state bound depth ([0], ⟨call, children⟩)).body =
      Subcall.body state bound depth ⟨call, children⟩ := by
    simp [rowAt, Forest.depthAt, Subcall.row]
  rw [List.filter_map]
  simp only [Function.comp_def, Prod.map_fst, filter_revealed_below]
  rw [withHidden, hbody, hidesChildren_body, isExpanded_body, List.cons_append]
  -- The tree itself comes first on both sides; what is below it remains.
  congr 1
  by_cases hopen : state.showsChildren call.id = true ∧ depth.toNat < bound.toNat - 1
  · -- The children are displayed, so the row hides nothing.
    rw [if_pos hopen, ← toNat_add_one_of_lt hopen.2, flatMap_withHidden_map fun item hitem =>
      withHidden_below_first (Forest.ne_nil_of_mem_placed (List.mem_filter.1 hitem).1), ← hchildren]
    simp [hopen]
  · -- The children are not displayed, so the row hides them if there are any.
    rw [if_neg hopen, List.map_nil, List.flatMap_nil, List.append_nil]
    cases children with
    | nil => rfl
    | cons child grandchildren others =>
      simp [hopen, Tree.hasChildren, Forest.isEmpty, Forest.placedBelow]

end FirstTree

/-- The places of a forest are those that are revealed, each followed by those that its row
hides. -/
theorem placed_eq_flatMap_withHidden (state : Expansion) (bound depth : UInt32)
    (forest : Forest Call) :
    forest.placed =
      (forest.placed.filter (forest.Revealed state bound depth.toNat ·.1)).flatMap
        (withHidden state bound depth) := by
  induction forest generalizing depth with
  | nil => rfl
  | cons call children rest ihc ihr =>
    -- What is behind the first tree is neither displayed nor hidden by its row.
    have hbehind : ((rest.placed.map (Prod.map Forest.passFirst id)).filter
        ((Forest.cons call children rest).Revealed state bound depth.toNat ·.1)).flatMap
          (withHidden state bound depth) =
        rest.placed.map (Prod.map Forest.passFirst id) := by
      rw [List.filter_map]
      simp only [Function.comp_def, Prod.map_fst, Forest.revealed_passFirst]
      rw [flatMap_withHidden_map fun item hitem =>
        withHidden_passFirst (Forest.ne_nil_of_mem_placed (List.mem_filter.1 hitem).1), ← ihr depth]
    rw [Forest.placed, List.filter_cons_of_pos, List.filter_append, List.flatMap_cons,
      List.flatMap_append, hbehind, ← List.append_assoc,
      withHidden_first_append (ihc (depth + 1)), List.cons_append]
    exact decide_eq_true (Forest.revealed_of_length_le_one (Nat.le_refl 1))

/-! ## The whole trajectory -/

/-- A walk visits what is at a place at the depth of its row, and after that what is below it. -/
theorem map_depthAt_withHidden {item : List Nat × Subcall} (h : item.1 ≠ []) :
    (withHidden state bound depth item).map
        (fun (place, subcall) => (Forest.depthAt depth place, subcall)) =
      ((rowAt state bound depth item).depth, item.2) ::
        if (rowAt state bound depth item).body.hidesChildren then
          item.2.children.preorder ((rowAt state bound depth item).depth + 1)
        else [] := by
  rw [withHidden, List.map_cons, depth_rowAt]
  congr 1
  split
  · exact Forest.map_depthAt_placedBelow depth h
  · rfl

/-- Of a list of lists that each begin with an item of their own, the length is the number of these
items and of what comes behind each of them. -/
theorem length_flatMap_cons {α β : Type} (items : List α) (first : α → β) (p : α → Bool)
    (behind : α → List β) :
    (items.flatMap fun item => first item :: if p item then behind item else []).length =
      items.length + ((items.filter p).map fun item => (behind item).length).sum := by
  induction items with
  | nil => rfl
  | cons item items ih =>
    rw [List.flatMap_cons, List.length_append, ih, List.filter_cons]
    cases p item with
    | true =>
      simp only [↓reduceIte, List.length_cons, List.map_cons, List.sum_cons]
      omega
    | false =>
      simp only [Bool.false_eq_true, ↓reduceIte, List.length_cons, List.length_nil]
      omega

/-- Every subcall of a trajectory is displayed, or else it is hidden by one row: the walk through
the trajectory is that of the displayed subcalls, in the order of their rows, and a row that is
collapsed or stands in for children beyond the bound is followed by the walk through all that is
below its subcall. So the numbers of rows and of subcalls that they hide add up to that of all
subcalls. -/
theorem walk_eq_flatMap_rows (trajectory : Trajectory) (state : Expansion) (bound : UInt32) :
    let rows := (View.render trajectory state bound false).visibleRows
    let shown :=
      trajectory.subcalls.placed.filter (trajectory.subcalls.Revealed state bound 0 ·.1)
    let rowOf := rowAt state bound 0
    rows = shown.map rowOf ∧
      trajectory.walk =
        (shown.flatMap fun item =>
          ((rowOf item).depth, item.2) ::
            if (rowOf item).body.hidesChildren then
              item.2.children.preorder ((rowOf item).depth + 1)
            else []) ∧
      trajectory.walk.length =
        rows.length +
          ((shown.filter fun item => (rowOf item).body.hidesChildren).map fun item =>
            item.2.descendantCount).sum := by
  intro rows shown rowOf
  have hrows : rows = shown.map rowOf := visibleRows_render trajectory state bound
  have hwalk : trajectory.walk =
      (shown.flatMap fun item =>
        ((rowOf item).depth, item.2) ::
          if (rowOf item).body.hidesChildren then
            item.2.children.preorder ((rowOf item).depth + 1)
          else []) := by
    rw [trajectory.walk_eq_preorder, Forest.preorder_eq_map_placed,
      placed_eq_flatMap_withHidden state bound 0, List.map_flatMap]
    refine List.flatMap_congr fun item hitem => ?_
    have hne := Forest.ne_nil_of_mem_placed (List.mem_filter.1 hitem).1
    exact map_depthAt_withHidden hne
  refine ⟨hrows, hwalk, ?_⟩
  rw [hwalk, length_flatMap_cons, hrows, List.length_map]
  simp only [Forest.length_preorder]
  rfl

/-- With three levels, `root` and `recurse-1` open, `recurse-2` stands in for ten subcalls that are
beyond the bound. -/
theorem walk_eq_flatMap_rows_demo :
    let state := Expansion.collapsed.expandAll ["root", "recurse-1"]
    let rows := (View.render demoTrajectory state 3 false).visibleRows
    demoTrajectory.walk.length = 16 ∧ rows.length = 6 ∧
      (rows.filter (·.body.hidesChildren)).map (·.id) = ["recurse-2"] ∧
      demoTrajectory.walk.length = rows.length + 10 := by
  intro state rows
  obtain ⟨-, -, hlength⟩ := walk_eq_flatMap_rows demoTrajectory state 3
  exact ⟨by decide +kernel, by decide +kernel, by decide +kernel,
    hlength.trans (by decide +kernel)⟩

end RunTrace
