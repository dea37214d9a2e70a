import RunTrace.Proofs.Locality

/-!
# Which flags a view reads

A record of what is expanded has two flags for every id: whether the children are shown, and whether
the tool calls are. A view asks for few of them. The flag for the children is read only of a subcall
that is displayed, has children, and is above the last level; the one for the tool calls only of a
subcall that is displayed and has some. Which subcalls are displayed depends on flags in turn, but
only on such as have been read above them, so two records lead to the same view exactly if they
agree in the flags that are read under either of them.

## Main results

* `row_eq_row_iff`: two records lead to the same row exactly if they agree in what the row reads;
* `renderForest_eq_renderForest_iff`: they lead to the same rows exactly if the rows displayed under
  one of them are the same under both;
* `render_eq_render_iff`: they lead to the same view exactly if they agree in the flags that are
  read, and a change of any other flag is not seen.
-/

namespace RunTrace

variable {state other : Expansion} {bound depth : UInt32}

/-- Two records agree in the flags that the row of a subcall at a depth reads. -/
structure AgreeOn (state other : Expansion) (bound depth : UInt32) (subcall : Subcall) : Prop where
  /-- Whether children are shown is read if there are any and they are within the bound. -/
  children : subcall.hasChildren = true → isDepthLimited subcall depth bound = false →
    state.showsChildren subcall.value.id = other.showsChildren subcall.value.id
  /-- Whether tool calls are shown is read if there are any. -/
  tools : subcall.value.hasToolCalls = true →
    state.showsTools subcall.value.id = other.showsTools subcall.value.id

/-- What is displayed below a subcall depends on the flag for its children, and on that only if
there are children within the bound. -/
theorem body_congr {subcall : Subcall}
    (h : subcall.hasChildren = true → isDepthLimited subcall depth bound = false →
      state.showsChildren subcall.value.id = other.showsChildren subcall.value.id) :
    Subcall.body state bound depth subcall = Subcall.body other bound depth subcall := by
  rw [Subcall.body, Subcall.body]
  cases hchildren : subcall.hasChildren with
  | false => rfl
  | true =>
    cases hlimit : isDepthLimited subcall depth bound with
    | true => rfl
    | false => rw [h hchildren hlimit]

/-- Two records lead to the same row exactly if they agree in what the row reads. -/
theorem row_eq_row_iff (subcall : Subcall) :
    Subcall.row state bound depth subcall = Subcall.row other bound depth subcall ↔
      AgreeOn state other bound depth subcall := by
  constructor
  · intro h
    refine ⟨fun hchildren hlimit => ?_, fun htools => ?_⟩
    · have hflag := congrArg Row.childrenExpanded h
      rwa [childrenExpanded_row state hchildren hlimit,
        childrenExpanded_row other hchildren hlimit] at hflag
    · have hflag : (state.showsTools subcall.value.id && subcall.value.hasToolCalls) =
          (other.showsTools subcall.value.id && subcall.value.hasToolCalls) :=
        congrArg Row.toolsExpanded h
      rwa [htools, Bool.and_true, Bool.and_true] at hflag
  · rintro ⟨hchildren, htools⟩
    have hshown : (state.showsTools subcall.value.id && subcall.value.hasToolCalls) =
        (other.showsTools subcall.value.id && subcall.value.hasToolCalls) := by
      cases hcalls : subcall.value.hasToolCalls with
      | false => rw [Bool.and_false, Bool.and_false]
      | true => rw [htools hcalls]
    rw [Subcall.row, Subcall.row, body_congr hchildren, hshown]

/-- If two records lead to the same rows, the row of every subcall that is displayed is the same
under both. -/
theorem row_eq_row_of_renderForest_eq {forest : Forest Call}
    (h : renderForest state bound depth forest = renderForest other bound depth forest)
    {place : List Nat} {subcall : Subcall} (hplace : forest.at? place = some subcall)
    (hrevealed : forest.Revealed state bound depth.toNat place) :
    Subcall.row state bound (Forest.depthAt depth place) subcall =
      Subcall.row other bound (Forest.depthAt depth place) subcall := by
  induction forest generalizing depth place with
  | nil => simp [Forest.at?] at hplace
  | cons call children rest ihc ihr =>
    rw [renderForest, renderForest, Forest.cons.injEq] at h
    obtain ⟨hfirst, hnested, hrest⟩ := h
    rcases place with _ | ⟨_ | step, path⟩
    · simp [Forest.at?] at hplace
    · rcases path with _ | ⟨step, path⟩
      · -- It is the first tree.
        obtain rfl : (⟨call, children⟩ : Subcall) = subcall := Option.some.inj hplace
        simpa [Forest.depthAt] using hfirst
      · -- It is below the first tree, which is open under one record, hence under the other one.
        have hne : step :: path ≠ [] := List.cons_ne_nil _ _
        obtain ⟨hopen, hbelow⟩ := (Forest.revealed_below_first hne).1 hrevealed
        have hbody : (Subcall.row state bound depth ⟨call, children⟩).body.isExpanded = true := by
          refine (isExpanded_body state bound depth ⟨call, children⟩).trans ?_
          rw [Forest.hasChildren_of_at? hplace, Bool.true_and]
          exact decide_eq_true hopen
        rw [← hfirst, if_pos hbody, if_pos hbody] at hnested
        rw [← toNat_add_one_of_lt hopen.2] at hbelow
        rw [Forest.depthAt_below_first depth hne]
        exact ihc hnested hplace hbelow
    · -- It is behind the first tree.
      have hbehind : rest.Revealed state bound depth.toNat (step :: path) :=
        Forest.revealed_passFirst.1 hrevealed
      have hrow := ihr hrest hplace hbehind
      rwa [← Forest.depthAt_passFirst] at hrow

/-- Two records lead to the same rows exactly if the rows that are displayed under one of them are
the same under both. -/
theorem renderForest_eq_renderForest_iff (forest : Forest Call) :
    renderForest state bound depth forest = renderForest other bound depth forest ↔
      ∀ place subcall, forest.at? place = some subcall →
        forest.Revealed state bound depth.toNat place →
        Subcall.row state bound (Forest.depthAt depth place) subcall =
          Subcall.row other bound (Forest.depthAt depth place) subcall :=
  ⟨fun h _ _ => row_eq_row_of_renderForest_eq h, renderForest_congr⟩

/-- A view is decided by its rows. -/
theorem render_eq_iff_renderForest_eq (trajectory : Trajectory) :
    View.render trajectory state bound false = View.render trajectory other bound false ↔
      renderForest state bound 0 trajectory.subcalls =
        renderForest other bound 0 trajectory.subcalls := by
  unfold View.render Trajectory.isEmpty
  cases trajectory.subcalls with
  | nil => simp [Forest.isEmpty, renderForest]
  | cons call children rest => simp [Forest.isEmpty]

/-- Two records lead to the same view exactly if they agree in the flags that the rows displayed
under one of them read. -/
theorem render_eq_iff_agreeOn (trajectory : Trajectory) :
    View.render trajectory state bound false = View.render trajectory other bound false ↔
      ∀ item ∈ trajectory.subcalls.placed.filter (trajectory.subcalls.Revealed state bound 0 ·.1),
        AgreeOn state other bound (Forest.depthAt 0 item.1) item.2 := by
  rw [render_eq_iff_renderForest_eq, renderForest_eq_renderForest_iff]
  simp only [List.mem_filter, Forest.mem_placed, decide_eq_true_iff, row_eq_row_iff, and_imp,
    Prod.forall, UInt32.toNat_zero]

/-! ## Flags that are not read -/

/-- Records that show the same of an id agree in whatever is read of it. -/
theorem AgreeOn.of_shown {subcall : Subcall}
    (h : state.shown subcall.value.id = other.shown subcall.value.id) :
    AgreeOn state other bound depth subcall :=
  ⟨fun _ _ => congrArg Shown.children h, fun _ => congrArg Shown.tools h⟩

/-- The flag for the children of an id is not read by a row of another id, nor by that of a subcall
without children within the bound. -/
theorem agreeOn_update_children {id : String} {subcall : Subcall}
    (h : subcall.value.id = id →
      subcall.hasChildren = false ∨ isDepthLimited subcall depth bound = true)
    (children : Bool) :
    AgreeOn state (state.update id fun flags => { flags with children }) bound depth subcall := by
  by_cases hid : id = subcall.value.id
  · have hshown := Expansion.shown_update state id (fun flags => { flags with children })
      subcall.value.id
    rw [if_pos hid, hid] at hshown
    refine ⟨fun hchildren hlimit => ?_, fun _ => ?_⟩
    · rcases h hid.symm with hleaf | hlimited
      · rw [hleaf] at hchildren
        contradiction
      · rw [hlimited] at hlimit
        contradiction
    · rw [hid]
      exact (congrArg Shown.tools hshown).symm
  · exact .of_shown (by rw [Expansion.shown_update, if_neg hid])

/-- The flag for the tool calls of an id is not read by a row of another id, nor by that of a
subcall without tool calls. -/
theorem agreeOn_update_tools {id : String} {subcall : Subcall}
    (h : subcall.value.id = id → subcall.value.hasToolCalls = false) (tools : Bool) :
    AgreeOn state (state.update id fun flags => { flags with tools }) bound depth subcall := by
  by_cases hid : id = subcall.value.id
  · have hshown := Expansion.shown_update state id (fun flags => { flags with tools })
      subcall.value.id
    rw [if_pos hid, hid] at hshown
    refine ⟨fun _ _ => ?_, fun htools => ?_⟩
    · rw [hid]
      exact (congrArg Shown.children hshown).symm
    · rw [h hid.symm] at htools
      contradiction
  · exact .of_shown (by rw [Expansion.shown_update, if_neg hid])

/-- Two records of what is expanded lead to the same view exactly if, for every subcall that is
displayed under one of them, they agree whether its children are shown, provided that it has some
and they are within the bound, and whether its tool calls are shown, provided that it has some. So
the flag of an id is not seen if no displayed subcall of that id reads it: not that of an unknown
id, nor of a subcall that is hidden, nor the one for children that are missing or beyond the bound,
nor the one for tool calls that are missing. -/
theorem render_eq_render_iff (trajectory : Trajectory) (bound : UInt32) (state other : Expansion) :
    let view := fun state => View.render trajectory state bound false
    let shown :=
      trajectory.subcalls.placed.filter (trajectory.subcalls.Revealed state bound 0 ·.1)
    (view state).visibleRows = shown.map (rowAt state bound 0) ∧
      (view state = view other ↔
        ∀ item ∈ shown, AgreeOn state other bound (Forest.depthAt 0 item.1) item.2) ∧
      ∀ id,
        ((∀ item ∈ shown, item.2.value.id = id →
            item.2.hasChildren = false ∨
              isDepthLimited item.2 (Forest.depthAt 0 item.1) bound = true) →
          ∀ children, view (state.update id fun flags => { flags with children }) = view state) ∧
        ((∀ item ∈ shown, item.2.value.id = id → item.2.value.hasToolCalls = false) →
          ∀ tools, view (state.update id fun flags => { flags with tools }) = view state) := by
  intro view shown
  refine ⟨visibleRows_render trajectory state bound, render_eq_iff_agreeOn trajectory,
    fun id => ⟨fun hunread children => ?_, fun hunread tools => ?_⟩⟩
  · symm
    exact (render_eq_iff_agreeOn trajectory).2 fun item hitem =>
      agreeOn_update_children (hunread item hitem) children
  · symm
    exact (render_eq_iff_agreeOn trajectory).2 fun item hitem =>
      agreeOn_update_tools (hunread item hitem) tools

/-- With nothing expanded only the roots are displayed: that `recurse-1` below them is to show its
children is not seen, and neither is that `followup`, which has none, is to show its tool calls.
That `root` is to show its children is seen. -/
theorem render_eq_render_iff_demo :
    let view := fun state => View.render demoTrajectory state 3 false
    let state := Expansion.collapsed
    view (state.update "recurse-1" fun flags => { flags with children := true }) = view state ∧
      view (state.update "followup" fun flags => { flags with tools := true }) = view state ∧
      view state ≠ view (state.expandAll ["root"]) := by
  intro view state
  obtain ⟨-, hseen, hunread⟩ :=
    render_eq_render_iff demoTrajectory 3 state (state.expandAll ["root"])
  have hhidden := (hunread "recurse-1").1 (by decide +kernel) true
  have hnone := (hunread "followup").2 (by decide +kernel) true
  refine ⟨hhidden, hnone, fun hsame => ?_⟩
  have hroot := hseen.1 hsame ([0], _)
    (List.mem_filter.2 ⟨Forest.mem_placed.2 rfl, by decide +kernel⟩)
  exact absurd (hroot.children rfl (by decide)) (by decide +kernel)

end RunTrace
