import RunTrace.Proofs.ExpandAll
import RunTrace.Proofs.Format.RoundTrip
import RunTrace.Session

/-!
# Rows and their controls

A row names its subcall by the id alone, and so do the actions of its controls. In a trajectory
that has been loaded this is enough: an id leads to one subcall only, so a toggle reaches the
subcall of its row, what it changes is seen in that row, and all other rows stay as they are.

## Main results

* `Trajectory.wellFormed_of_load`: what has been loaded has unique ids and right depths;
* `findSubcall?_of_mem`: looking up the id of a subcall finds that subcall;
* `flips_of_shown`: a change of what one id shows is seen in its row and in no other;
* `rows_controls`: both for the rows of a loaded trajectory, and that its toggles work.
-/

namespace RunTrace

/-! ## What ids can be relied on for -/

/-- The subcalls of the walk are those at the places of the trajectory. -/
theorem Trajectory.map_snd_walk (trajectory : Trajectory) :
    trajectory.walk.map (·.2) = trajectory.subcalls.placed.map (·.2) := by
  rw [trajectory.walk_eq_preorder, Forest.preorder_eq_map_placed, List.map_map]
  rfl

/-- What displaying a trajectory relies on. -/
structure Trajectory.WellFormed (trajectory : Trajectory) : Prop where
  /-- Depths are words. -/
  height : trajectory.subcalls.height < UInt32.size
  /-- No id is at two places. -/
  nodup_ids : (trajectory.subcalls.placed.map (·.2.value.id)).Nodup
  /-- Recorded depths are those in the tree. -/
  depth : ∀ item ∈ trajectory.subcalls.placed, item.2.value.depth.toNat = item.1.length - 1

namespace Trajectory

theorem wellFormed_of_validate {trajectory : Trajectory}
    (height : trajectory.subcalls.height < UInt32.size) (h : trajectory.validate = .ok ()) :
    trajectory.WellFormed := by
  obtain ⟨hsound, hnodup, -⟩ := (Validation.checkWalk_eq_ok_iff [] trajectory.walk).1 h
  rw [trajectory.walk_eq_preorder, Forest.preorder_eq_map_placed] at hsound hnodup
  rw [List.map_map] at hnodup
  refine ⟨height, hnodup, fun item hmem => ?_⟩
  have hdepth := (hsound _ (List.mem_map_of_mem hmem)).depth_eq
  rw [hdepth, Forest.toNat_depthAt_of_at? height (Forest.mem_placed.1 hmem)]

/-- What has been loaded is valid, and the reader only reads trees of a moderate height. -/
theorem wellFormed_of_load {text : String} {trajectory : Trajectory}
    (h : load text = .ok trajectory) : trajectory.WellFormed := by
  obtain ⟨hread, hvalid⟩ := load_eq_ok h
  have hheight := (Format.writable_of_read hread).height
  exact wellFormed_of_validate (Nat.lt_of_le_of_lt hheight (by decide)) hvalid

namespace WellFormed

variable {trajectory : Trajectory} (wellFormed : trajectory.WellFormed)
include wellFormed

/-- What is at two places has two ids. -/
theorem eq_of_id_eq {item other : List Nat × Subcall} (hitem : item ∈ trajectory.subcalls.placed)
    (hother : other ∈ trajectory.subcalls.placed) (h : item.2.value.id = other.2.value.id) :
    item = other :=
  List.inj_on_of_nodup_map wellFormed.nodup_ids hitem hother h

/-- Looking up the id of a subcall finds that subcall. -/
theorem findSubcall?_of_mem {item : List Nat × Subcall}
    (hitem : item ∈ trajectory.subcalls.placed) :
    trajectory.findSubcall? item.2.value.id = some item.2 := by
  rw [findSubcall?, trajectory.map_snd_walk]
  cases hfind : (trajectory.subcalls.placed.map (·.2)).find? (·.value.id == item.2.value.id) with
  | none =>
    have hnone := List.find?_eq_none.1 hfind item.2 (List.mem_map_of_mem hitem)
    exact absurd (beq_self_eq_true item.2.value.id) hnone
  | some found =>
    obtain ⟨other, hother, rfl⟩ := List.mem_map.1 (List.mem_of_find?_eq_some hfind)
    have hid := List.find?_some hfind
    rw [wellFormed.eq_of_id_eq hother hitem (beq_iff_eq.1 hid)]

/-- What is above a subcall has another id. -/
theorem id_ne_of_above {item : List Nat × Subcall} (hitem : item ∈ trajectory.subcalls.placed)
    {level : Nat} (hlevel : level < item.1.length - 1) {ancestor : Subcall}
    (h : trajectory.subcalls.at? (item.1.take (level + 1)) = some ancestor) :
    ancestor.value.id ≠ item.2.value.id := by
  intro hid
  have hsame := wellFormed.eq_of_id_eq (Forest.mem_placed.2 h) hitem hid
  have hlength := congrArg (fun item => item.1.length) hsame
  simp only [List.length_take] at hlength
  omega

end WellFormed

end Trajectory

/-! ## What rows depend on -/

/-- The rows are those of the revealed places. -/
theorem mem_visibleRows {trajectory : Trajectory} {state : Expansion} {bound : UInt32} {row : Row} :
    row ∈ (View.render trajectory state bound false).visibleRows ↔
      ∃ item ∈ trajectory.subcalls.placed,
        trajectory.subcalls.Revealed state bound 0 item.1 ∧ rowAt state bound 0 item = row := by
  simp only [visibleRows_render, List.mem_map, List.mem_filter, decide_eq_true_iff, and_assoc]

/-- A row depends on what the id of its subcall shows, and not on other ids. -/
theorem row_congr {state other : Expansion} {subcall : Subcall}
    (h : state.shown subcall.value.id = other.shown subcall.value.id) (bound depth : UInt32) :
    Subcall.row state bound depth subcall = Subcall.row other bound depth subcall := by
  have hbody : Subcall.body state bound depth subcall = Subcall.body other bound depth subcall := by
    rw [Subcall.body, Expansion.showsChildren, h]
    rfl
  rw [Subcall.row, hbody, Expansion.showsTools, h]
  rfl

/-- Whether a body stands in for children beyond the bound. -/
theorem isDepthLimited_body (state : Expansion) (bound depth : UInt32) (subcall : Subcall) :
    (Subcall.body state bound depth subcall).isDepthLimited =
      isDepthLimited subcall depth bound := by
  unfold Subcall.body
  cases hchildren : subcall.hasChildren with
  | false => simp [isDepthLimited, hchildren, Body.isDepthLimited]
  | true =>
    cases hlimit : isDepthLimited subcall depth bound <;>
      cases state.showsChildren subcall.value.id <;> simp [Body.isDepthLimited]

/-- Where children can be shown, the row tells whether they are. -/
theorem childrenExpanded_row (state : Expansion) {bound depth : UInt32} {subcall : Subcall}
    (hchildren : subcall.hasChildren = true)
    (hlimit : isDepthLimited subcall depth bound = false) :
    (Subcall.row state bound depth subcall).childrenExpanded =
      state.showsChildren subcall.value.id := by
  have hbody : (Subcall.row state bound depth subcall).childrenExpanded =
      (Subcall.body state bound depth subcall).isExpanded := rfl
  rw [isDepthLimited_eq, hchildren, Bool.true_and, decide_eq_false_iff_not, Nat.not_le] at hlimit
  rw [hbody, isExpanded_body, hchildren]
  simp [hlimit]

/-! ## Toggles -/

/-- A flag of a row is flipped in the rows that are displayed afterwards, and all other rows that
are still displayed are the same. -/
structure Flips (flag : Row → Bool) (row : Row) (before after : List Row) : Prop where
  /-- The row is still displayed. -/
  exists_row : ∃ later ∈ after, later.id = row.id
  flipped : ∀ later ∈ after, later.id = row.id → flag later = !flag row
  others : ∀ other ∈ before, other.id ≠ row.id → ∀ later ∈ after, later.id = other.id →
    later = other

section Toggles

variable {trajectory : Trajectory} (wellFormed : trajectory.WellFormed)
include wellFormed

/-- A change of what one id shows is seen in the row of that id and in no other. -/
theorem flips_of_shown {state after : Expansion} {bound : UInt32} {item : List Nat × Subcall}
    (hitem : item ∈ trajectory.subcalls.placed)
    (hrevealed : trajectory.subcalls.Revealed state bound 0 item.1)
    (hothers : ∀ id, item.2.value.id ≠ id → after.shown id = state.shown id)
    {flag : Row → Bool}
    (hflag : flag (rowAt after bound 0 item) = !flag (rowAt state bound 0 item)) :
    Flips flag (rowAt state bound 0 item) (View.render trajectory state bound false).visibleRows
      (View.render trajectory after bound false).visibleRows where
  exists_row := by
    refine ⟨_, mem_visibleRows.2 ⟨item, hitem, fun level hlevel ancestor hancestor => ?_, rfl⟩, rfl⟩
    -- Everything above the row shows what it showed before.
    have hne := wellFormed.id_ne_of_above hitem hlevel hancestor
    rw [Expansion.showsChildren, hothers _ hne.symm]
    exact hrevealed level hlevel ancestor hancestor
  flipped := by
    intro later hlater hid
    obtain ⟨found, hfound, -, rfl⟩ := mem_visibleRows.1 hlater
    obtain rfl : found = item := wellFormed.eq_of_id_eq hfound hitem hid
    exact hflag
  others := by
    intro other hother hne later hlater hid
    obtain ⟨found, hfound, -, rfl⟩ := mem_visibleRows.1 hother
    obtain ⟨again, hagain, -, rfl⟩ := mem_visibleRows.1 hlater
    obtain rfl : again = found := wellFormed.eq_of_id_eq hagain hfound hid
    exact row_congr (hothers _ (Ne.symm hne)) bound _

/-- The control for the children of a row works: where there is one, it flips whether they are
displayed. -/
theorem flips_toggleChildren {state : Expansion} {bound : UInt32} {item : List Nat × Subcall}
    (hitem : item ∈ trajectory.subcalls.placed)
    (hrevealed : trajectory.subcalls.Revealed state bound 0 item.1)
    (hcount : 0 < (rowAt state bound 0 item).childCount)
    (hlimit : (rowAt state bound 0 item).body.isDepthLimited = false) :
    Flips (·.childrenExpanded) (rowAt state bound 0 item)
      (View.render trajectory state bound false).visibleRows
      (View.render trajectory
        ((Action.toggleChildren item.2.value.id).apply trajectory bound state) bound
        false).visibleRows := by
  have hchildren : item.2.hasChildren = true := by
    rw [Tree.hasChildren_eq]
    exact decide_eq_true hcount
  have hafter : (Action.toggleChildren item.2.value.id).apply trajectory bound state =
      state.toggleChildren item.2 := by
    rw [Action.apply, wellFormed.findSubcall?_of_mem hitem]
    rfl
  have hbody : isDepthLimited item.2 (Forest.depthAt 0 item.1) bound = false :=
    (isDepthLimited_body state bound _ item.2).symm.trans hlimit
  rw [hafter]
  refine flips_of_shown wellFormed hitem hrevealed (fun id hne => ?_) ?_
  · rw [Expansion.shown_toggleChildren, if_neg fun h => hne h.2]
  · rw [rowAt, rowAt, childrenExpanded_row _ hchildren hbody,
      childrenExpanded_row _ hchildren hbody, Expansion.showsChildren_toggleChildren, hchildren]
    simp

/-- The control for the tool calls of a row works: it flips whether they are displayed. -/
theorem flips_toggleTools {state : Expansion} {bound : UInt32} {item : List Nat × Subcall}
    (hitem : item ∈ trajectory.subcalls.placed)
    (hrevealed : trajectory.subcalls.Revealed state bound 0 item.1)
    (hcount : 0 < (rowAt state bound 0 item).toolCount) :
    Flips (·.toolsExpanded) (rowAt state bound 0 item)
      (View.render trajectory state bound false).visibleRows
      (View.render trajectory
        ((Action.toggleTools item.2.value.id).apply trajectory bound state) bound
        false).visibleRows := by
  have htools : item.2.value.hasToolCalls = true := by
    rw [Call.hasToolCalls, Bool.not_eq_true', List.isEmpty_eq_false_iff]
    exact List.length_pos_iff.1 hcount
  have hafter : (Action.toggleTools item.2.value.id).apply trajectory bound state =
      state.toggleTools item.2 := by
    rw [Action.apply, wellFormed.findSubcall?_of_mem hitem]
    rfl
  have hflag : ∀ state : Expansion,
      (rowAt state bound 0 item).toolsExpanded = state.showsTools item.2.value.id := by
    intro state
    change (state.showsTools item.2.value.id && item.2.value.hasToolCalls) = _
    rw [htools, Bool.and_true]
  rw [hafter]
  refine flips_of_shown wellFormed hitem hrevealed (fun id hne => ?_) ?_
  · rw [Expansion.shown_toggleTools, if_neg fun h => hne h.2]
  · rw [hflag, hflag, Expansion.showsTools_toggleTools, htools]
    simp

end Toggles

/-- In a loaded trajectory, no two rows have the same id. The id of a row is at one place only,
looking it up finds the subcall there, and the row was rendered from that subcall, at its depth. A
row that has a control for its children or for its tool calls can be toggled: what the control says
is flipped, and all other rows stay as they are. -/
theorem rows_controls {text : String} {trajectory : Trajectory}
    (loaded : Trajectory.load text = .ok trajectory) (state : Expansion) (bound : UInt32) :
    let rows := fun state => (View.render trajectory state bound false).visibleRows
    ((rows state).map (·.id)).Nodup ∧
      ∀ row ∈ rows state,
        (∃ place subcall, trajectory.subcalls.at? place = some subcall ∧
          subcall.value.id = row.id ∧
          (∀ other another, trajectory.subcalls.at? other = some another →
            another.value.id = row.id → other = place) ∧
          trajectory.findSubcall? row.id = some subcall ∧
          subcall.value.depth = row.depth ∧
          row = Subcall.row state bound row.depth subcall) ∧
        (0 < row.childCount → row.body.isDepthLimited = false →
          Flips (·.childrenExpanded) row (rows state)
            (rows ((Action.toggleChildren row.id).apply trajectory bound state))) ∧
        (0 < row.toolCount →
          Flips (·.toolsExpanded) row (rows state)
            (rows ((Action.toggleTools row.id).apply trajectory bound state))) := by
  intro rows
  have wellFormed := Trajectory.wellFormed_of_load loaded
  constructor
  · have hrows : (rows state).map (·.id) = _ :=
      congrArg (List.map (·.id)) (visibleRows_render trajectory state bound)
    rw [hrows, List.map_map]
    exact wellFormed.nodup_ids.sublist (List.filter_sublist.map _)
  · intro row hrow
    obtain ⟨item, hitem, hrevealed, rfl⟩ := mem_visibleRows.1 hrow
    refine ⟨⟨item.1, item.2, Forest.mem_placed.1 hitem, rfl, fun other another hother hid => ?_,
      wellFormed.findSubcall?_of_mem hitem, UInt32.toNat.inj ?_, rfl⟩,
      flips_toggleChildren wellFormed hitem hrevealed,
      flips_toggleTools wellFormed hitem hrevealed⟩
    · have hsame := wellFormed.eq_of_id_eq (Forest.mem_placed.2 hother) hitem hid
      exact congrArg Prod.fst hsame
    · rw [wellFormed.depth item hitem, toNat_depth_rowAt wellFormed.height state bound hitem]

/-- With three levels the row of `recurse-1` is above the last one, so its children can be toggled,
while the row of `recurse-2` below it would be the last. -/
theorem rows_controls_demo :
    let state := Expansion.collapsed.expandAll ["root"]
    let rows := fun state => (View.render demoTrajectory state 3 false).visibleRows
    Trajectory.load (Format.write demoTrajectory) = .ok demoTrajectory ∧
      ∃ row ∈ rows state, row.id = "recurse-1" ∧ 0 < row.childCount ∧
        row.body.isDepthLimited = false ∧ row.childrenExpanded = false ∧
        Flips (·.childrenExpanded) row (rows state)
          (rows ((Action.toggleChildren row.id).apply demoTrajectory 3 state)) := by
  intro state rows
  have loaded := load_demoTrajectory demoTrajectory.runId
  have hrow : ∃ row ∈ rows state, row.id = "recurse-1" ∧ 0 < row.childCount ∧
      row.body.isDepthLimited = false ∧ row.childrenExpanded = false := by decide +kernel
  obtain ⟨row, hrow, hid, hcount, hlimit, hclosed⟩ := hrow
  obtain ⟨-, hcontrols⟩ := rows_controls loaded state 3
  exact ⟨loaded, row, hrow, hid, hcount, hlimit, hclosed, (hcontrols row hrow).2.1 hcount hlimit⟩

end RunTrace
