import RunTrace.Inspection.Basic
import RunTrace.Proofs.AcceptedSettings
import RunTrace.Proofs.Controls
import RunTrace.Proofs.ExpansionSets

/-!
# What an inspection displays

An inspection shows tool calls by toggling those of every subcall of the walk, and children by
expanding all within the bound. The first works because a file is loaded only if no id is walked by
twice: then every id is toggled once. Both leave alone what the other one changes.

## Main results

* `Expansion.showsTools_foldl_of_nodup`: toggling each subcall of a list once;
* `Inspection.showsTools_initialExpansion`, `Inspection.showsChildren_initialExpansion`: what is
  expanded at first;
* `visibleRows_inspection`: which subcalls an inspection displays, and with which tool calls.
-/

namespace RunTrace

/-! ## Toggling one subcall after the other -/

namespace Expansion

variable {subcalls : List Subcall} {id : String}

theorem showsChildren_foldl_toggleTools (state : Expansion) (id : String) :
    (subcalls.foldl toggleTools state).showsChildren id = state.showsChildren id := by
  induction subcalls generalizing state with
  | nil => rfl
  | cons subcall rest ih => rw [List.foldl_cons, ih, showsChildren_toggleTools]

/-- Toggling subcalls with other ids has no effect on an id. -/
theorem showsTools_foldl_of_forall_ne (h : ∀ subcall ∈ subcalls, subcall.value.id ≠ id)
    (state : Expansion) :
    (subcalls.foldl toggleTools state).showsTools id = state.showsTools id := by
  induction subcalls generalizing state with
  | nil => rfl
  | cons subcall rest ih =>
    rw [List.forall_mem_cons] at h
    rw [List.foldl_cons, ih h.2, showsTools_toggleTools]
    simp [h.1]

/-- If no two subcalls of a list have the same id, then each of those that have tool calls is
toggled once. -/
theorem showsTools_foldl_of_nodup (nodup : (subcalls.map (·.value.id)).Nodup) {subcall : Subcall}
    (h : subcall ∈ subcalls) (state : Expansion) :
    (subcalls.foldl toggleTools state).showsTools subcall.value.id =
      xor (state.showsTools subcall.value.id) subcall.value.hasToolCalls := by
  induction subcalls generalizing state with
  | nil => exact absurd h List.not_mem_nil
  | cons first rest ih =>
    rw [List.map_cons, List.nodup_cons] at nodup
    have hne : ∀ other ∈ rest, other.value.id ≠ first.value.id := by
      intro other hother hid
      exact nodup.1 (hid ▸ List.mem_map_of_mem hother)
    rw [List.foldl_cons]
    rcases List.mem_cons.1 h with rfl | hrest
    · rw [showsTools_foldl_of_forall_ne hne, showsTools_toggleTools]
      simp
    · rw [ih nodup.2 hrest, showsTools_toggleTools]
      simp [(hne subcall hrest).symm]

end Expansion

namespace Inspection

variable (settings : Settings) {trajectory : Trajectory}

/-! ## What is expanded at first -/

theorem toggleAllTools_eq (trajectory : Trajectory) (state : Expansion) :
    toggleAllTools trajectory state =
      (trajectory.walk.map (·.2)).foldl Expansion.toggleTools state := by
  rw [toggleAllTools, List.foldl_map]

/-- Whether children are shown depends on the mode alone. -/
theorem showsChildren_initialExpansion (trajectory : Trajectory) (id : String) :
    (initialExpansion settings trajectory).showsChildren id =
      match settings.expand with
      | .none => false
      | .all => decide (id ∈ trajectory.expandable settings.bound) := by
  rw [initialExpansion]
  cases settings.expand <;> cases settings.showTools <;>
    simp [toggleAllTools_eq, Expansion.showsChildren_foldl_toggleTools]

/-- Where ids are unique, tool calls are shown of every subcall that has any, or of none. -/
theorem showsTools_initialExpansion (wellFormed : trajectory.WellFormed)
    {item : List Nat × Subcall} (h : item ∈ trajectory.subcalls.placed) :
    (initialExpansion settings trajectory).showsTools item.2.value.id =
      (settings.showTools && item.2.value.hasToolCalls) := by
  have hmem : item.2 ∈ trajectory.walk.map (·.2) := by
    rw [trajectory.map_snd_walk]
    exact List.mem_map_of_mem h
  have nodup : ((trajectory.walk.map (·.2)).map (·.value.id)).Nodup := by
    rw [trajectory.map_snd_walk, List.map_map]
    exact wellFormed.nodup_ids
  rw [initialExpansion]
  cases settings.expand <;> cases settings.showTools <;>
    simp [toggleAllTools_eq, Expansion.showsTools_foldl_of_nodup nodup hmem]

/-- Expanding all within the bound once more changes nothing. -/
theorem expandAll_initialExpansion (h : settings.expand = .all) (trajectory : Trajectory) :
    (initialExpansion settings trajectory).expandAll (trajectory.expandable settings.bound) =
      initialExpansion settings trajectory := by
  refine Expansion.ext_flags (fun id => ?_) (fun id => ?_)
  · rw [Expansion.showsChildren_expandAll, showsChildren_initialExpansion, h]
  · rw [Expansion.showsTools_expandAll]

/-! ## What is displayed -/

/-- The tool calls that are displayed with a subcall: all of them in the order of the record, or
none. -/
theorem tools_row (wellFormed : trajectory.WellFormed) {item : List Nat × Subcall}
    (h : item ∈ trajectory.subcalls.placed) (bound depth : UInt32) :
    (Subcall.row (initialExpansion settings trajectory) bound depth item.2).tools =
      if settings.showTools then item.2.value.toolCalls.map ToolCall.row else [] := by
  change (if (_ && _) = true then _ else _) = _
  rw [showsTools_initialExpansion settings wellFormed h, Call.hasToolCalls]
  cases settings.showTools <;> cases item.2.value.toolCalls <;> simp

end Inspection

/-- While no id shows its children, only the roots are displayed. -/
theorem visibleRows_eq_roots {state : Expansion} (h : ∀ id, state.showsChildren id = false)
    (trajectory : Trajectory) (bound : UInt32) :
    (View.render trajectory state bound false).visibleRows =
      trajectory.subcalls.trees.map (Subcall.row state bound 0) := by
  have same : trajectory.subcalls.placed.filter (trajectory.subcalls.Revealed state bound 0 ·.1) =
      trajectory.subcalls.placed.filter (·.1.length = 1) := by
    refine List.filter_congr fun item hitem => ?_
    have hpos := List.length_pos_iff.2 (Forest.ne_nil_of_mem_placed hitem)
    rw [decide_eq_decide]
    constructor
    · intro hrevealed
      by_contra hlength
      -- Below the roots there is one above that would have to show its children.
      obtain ⟨root, hroot⟩ := Forest.exists_at?_take (Forest.mem_placed.1 hitem) Nat.one_pos
      have := (hrevealed 0 (by omega) root hroot).1
      rw [h] at this
      exact Bool.false_ne_true this
    · intro hlength
      exact Forest.revealed_of_length_le_one (by omega)
  rw [visibleRows_render, same, ← Forest.map_snd_filter_placed, List.map_map]
  refine List.map_congr_left fun item hitem => ?_
  have hlength : item.1.length = 1 := of_decide_eq_true (List.mem_filter.1 hitem).2
  simp [rowAt, Forest.depthAt, hlength]

/-- Settings that are accepted display one level at least. -/
theorem Settings.one_le_bound_of_read {argument? : Option String}
    {value? : String → Option String} {settings : Settings}
    (h : Settings.read argument? value? = .ok settings) : 1 ≤ settings.bound.toNat :=
  UInt32.le_iff_toNat_le.1 (Settings.read_eq_ok_iff.1 h).one_le_bound

/-- What an outline tells of a subcall. -/
structure Listing where
  depth : UInt32
  id : String
  name : String
  outcome : Outcome
  tools : List ToolRow
  deriving DecidableEq

/-- What is told by a row. -/
def Row.listing (row : Row) : Listing :=
  ⟨row.depth, row.id, row.name, row.outcome, row.tools⟩

/-- What there is to be told of a subcall at a depth: with all of its tool calls, in the order of
the record, or without them. -/
def Subcall.listing (showTools : Bool) (depth : UInt32) (subcall : Subcall) : Listing :=
  let call := subcall.value
  ⟨depth, call.id, call.name, call.outcome,
    if showTools then call.toolCalls.map ToolCall.row else []⟩

/-- Where ids are unique, the rows of an inspection tell all there is to be told. -/
theorem listing_row {trajectory : Trajectory} (wellFormed : trajectory.WellFormed)
    (settings : Settings) {subcall : Subcall} (h : subcall ∈ trajectory.walk.map (·.2))
    (depth : UInt32) :
    (Subcall.row (Inspection.initialExpansion settings trajectory) settings.bound depth
      subcall).listing = Subcall.listing settings.showTools depth subcall := by
  rw [trajectory.map_snd_walk] at h
  obtain ⟨item, hitem, rfl⟩ := List.mem_map.1 h
  rw [Row.listing, Inspection.tools_row settings wellFormed hitem]
  rfl

/-- An inspection of a loaded trajectory displays the subcalls of the walk that are above the bound,
none of them collapsed, or if nothing is to be expanded the roots. With each of them all of its tool
calls are displayed in the order of the record, or none if tool calls are not to be shown. -/
theorem visibleRows_inspection {text : String} {trajectory : Trajectory}
    (loaded : Trajectory.load text = .ok trajectory) {argument? : Option String}
    {value? : String → Option String} {settings : Settings}
    (accepted : Settings.read argument? value? = .ok settings) :
    let rows := (Inspection.view settings trajectory).visibleRows
    1 ≤ settings.bound.toNat ∧
      (settings.expand = .all →
        rows.map Row.listing =
          (trajectory.walk.filter fun (depth, _) => depth.toNat < settings.bound.toNat).map
            (fun (depth, subcall) => Subcall.listing settings.showTools depth subcall) ∧
        ∀ row ∈ rows, row.body ≠ .collapsed) ∧
      (settings.expand = .none →
        rows.map Row.listing =
          trajectory.subcalls.trees.map (Subcall.listing settings.showTools 0)) := by
  intro rows
  have wellFormed := Trajectory.wellFormed_of_load loaded
  have hbound := Settings.one_le_bound_of_read accepted
  refine ⟨hbound, fun hall => ?_, fun hnone => ?_⟩
  · -- The initial state is one after expanding all, whatever tool calls it shows.
    have hstate := Inspection.expandAll_initialExpansion settings hall trajectory
    have hrows : rows = (View.render trajectory
        ((Inspection.initialExpansion settings trajectory).expandAll
          (trajectory.expandable settings.bound)) settings.bound false).visibleRows := by
      rw [hstate]
      rfl
    constructor
    · have hlevels : ∀ depth : UInt32,
          depth.toNat ≤ settings.bound.toNat - 1 ↔ depth.toNat < settings.bound.toNat := by
        intro depth
        omega
      rw [hrows, visibleRows_expandAll_eq_map_walk wellFormed.height, hstate, List.map_map]
      simp only [hlevels]
      refine List.map_congr_left fun item hitem => ?_
      exact listing_row wellFormed settings (List.mem_map_of_mem (List.mem_filter.1 hitem).1) item.1
    · intro row hrow
      rw [hrows] at hrow
      exact (body_row_expandAll wellFormed.height _ settings.bound hrow).1
  · have hclosed : ∀ id,
        (Inspection.initialExpansion settings trajectory).showsChildren id = false := by
      intro id
      rw [Inspection.showsChildren_initialExpansion, hnone]
    rw [show rows = _ from visibleRows_eq_roots hclosed trajectory settings.bound, List.map_map]
    refine List.map_congr_left fun root hroot => ?_
    refine listing_row wellFormed settings ?_ 0
    rw [← Forest.map_snd_filter_placed] at hroot
    rw [trajectory.map_snd_walk]
    exact (List.filter_sublist.map _).subset hroot

/-- With two levels and tool calls shown, the tool calls of `recurse-1` are displayed, and those of
the subcalls below it are not, as these are beyond the bound. -/
theorem visibleRows_inspection_demo :
    let environment := [("TRAJECTORY_MAX_DISPLAY_DEPTH", "+2"), ("TRAJECTORY_SHOW_TOOLS", "true")]
    let value? := fun name => environment.lookup name
    let settings : Settings := ⟨"run.json", 2, .all, true, true⟩
    Trajectory.load (Format.write demoTrajectory) = .ok demoTrajectory ∧
      Settings.read (some "run.json") value? = .ok settings ∧
      (Inspection.view settings demoTrajectory).visibleRows.map
          (fun row => (row.depth, row.id, row.tools.map (·.id))) =
        [(0, "root", ["root-read", "root-list", "root-exec"]), (1, "summarize", []),
          (1, "locate", ["locate-grep"]), (1, "recurse-1", ["recurse-1-peek"]),
          (0, "followup", [])] := by
  intro environment value? settings
  have loaded := load_demoTrajectory demoTrajectory.runId
  have accepted : Settings.read (some "run.json") value? = .ok settings := by decide +kernel
  obtain ⟨-, hall, -⟩ := visibleRows_inspection loaded accepted
  have hlisting := (hall rfl).1
  refine ⟨loaded, accepted, ?_⟩
  have hrows := congrArg (List.map fun (listing : Listing) =>
    (listing.depth, listing.id, listing.tools.map (·.id))) hlisting
  rw [List.map_map] at hrows
  exact hrows.trans (by decide +kernel)

end RunTrace
