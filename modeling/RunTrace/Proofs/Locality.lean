import RunTrace.Proofs.Controls

/-!
# What a toggle leaves alone

The rows of a subcall are its own and those nested in it, and they stand together in the view. If
two records of what is expanded differ in one subcall only, the rows around it are the same under
both, and if the subcall is hidden then all rows are. So a toggle opens or closes one block of rows,
and what had been expanded in that block comes back as it was.

## Main results

* `renderForest_congr`: rows that are displayed decide which others are;
* `exists_rows_around`: only the rows of one subcall differ if all others show the same;
* `renderForest_toggleChildren_of_closed`: a subcall without children to show, or hidden itself, is
  toggled without effect on the rows;
* `toggleChildren_local`: a toggle inserts or removes the rows of the children in one block, or it
  changes nothing.
-/

namespace RunTrace

variable {state other : Expansion} {bound depth : UInt32}

/-- A view is decided by the rows that it displays: what is hidden is not looked at. -/
theorem renderForest_congr {forest : Forest Call}
    (h : ∀ place subcall, forest.at? place = some subcall →
      forest.Revealed state bound depth.toNat place →
      Subcall.row state bound (Forest.depthAt depth place) subcall =
        Subcall.row other bound (Forest.depthAt depth place) subcall) :
    renderForest state bound depth forest = renderForest other bound depth forest := by
  induction forest generalizing depth with
  | nil => rfl
  | cons call children rest ihc ihr =>
    have hfirst : Subcall.row state bound depth ⟨call, children⟩ =
        Subcall.row other bound depth ⟨call, children⟩ := by
      simpa [Forest.depthAt] using h [0] ⟨call, children⟩ rfl
        (Forest.revealed_of_length_le_one (Nat.le_refl 1))
    have hrest : renderForest state bound depth rest = renderForest other bound depth rest := by
      refine ihr fun place subcall hplace hrevealed => ?_
      have hbehind := h (Forest.passFirst place) subcall
        ((Forest.at?_passFirst call children rest place).trans hplace)
        (Forest.revealed_passFirst.2 hrevealed)
      rwa [Forest.depthAt_passFirst] at hbehind
    rw [renderForest, renderForest, hfirst, hrest]
    by_cases hopen : (Subcall.row other bound depth ⟨call, children⟩).body.isExpanded = true
    · -- The first tree is open under both records, so its children are displayed.
      have hbody : (Subcall.body state bound depth ⟨call, children⟩).isExpanded = true := by
        rw [← hopen, ← hfirst]
        rfl
      rw [isExpanded_body, Bool.and_eq_true, decide_eq_true_iff] at hbody
      have hchildren : renderForest state bound (depth + 1) children =
          renderForest other bound (depth + 1) children := by
        refine ihc fun place subcall hplace hrevealed => ?_
        have hne := Forest.ne_nil_of_at? hplace
        rw [toNat_add_one_of_lt hbody.2.2] at hrevealed
        have hbelow := h (0 :: place) subcall
          ((Forest.at?_below_first call children rest hne).trans hplace)
          ((Forest.revealed_below_first hne).2 ⟨hbody.2, hrevealed⟩)
        rwa [Forest.depthAt_below_first depth hne] at hbelow
      rw [hchildren]
    · rw [if_neg hopen, if_neg hopen]

/-! ## Records that differ in one subcall -/

/-- Two records of what is expanded show the same for every subcall of a forest, except that at a
place. -/
def AgreeOutside (state other : Expansion) (forest : Forest Call) (place : List Nat) : Prop :=
  ∀ path subcall, forest.at? path = some subcall → path ≠ place →
    state.shown subcall.value.id = other.shown subcall.value.id

namespace AgreeOutside

variable {call : Call} {children rest : Forest Call} {place : List Nat}

theorem first (h : AgreeOutside state other (.cons call children rest) place) (hne : place ≠ [0]) :
    state.shown call.id = other.shown call.id :=
  h [0] ⟨call, children⟩ rfl hne.symm

/-- A place below the first tree leaves all others aside that are there. -/
theorem below (h : AgreeOutside state other (.cons call children rest) (0 :: place)) :
    AgreeOutside state other children place := by
  intro path subcall hpath hne
  refine h (0 :: path) subcall ?_ fun heq => hne (List.cons.inj heq).2
  exact (Forest.at?_below_first call children rest (Forest.ne_nil_of_at? hpath)).trans hpath

/-- A place behind the first tree leaves all others aside that are there. -/
theorem behind
    (h : AgreeOutside state other (.cons call children rest) (Forest.passFirst place)) :
    AgreeOutside state other rest place := by
  intro path subcall hpath hne
  refine h (Forest.passFirst path) subcall ?_ fun heq => hne (Forest.passFirst_injective heq)
  exact (Forest.at?_passFirst call children rest path).trans hpath

/-- A place in the first tree is not behind it. -/
theorem behind_first (h : AgreeOutside state other (.cons call children rest) (0 :: place)) :
    AgreeOutside state other rest [] := by
  intro path subcall hpath hne
  refine h (Forest.passFirst path) subcall
    ((Forest.at?_passFirst call children rest path).trans hpath) ?_
  cases path with
  | nil => exact absurd rfl hne
  | cons step path => simp [Forest.passFirst]

/-- A place behind the first tree is not below it. -/
theorem below_other {step : Nat}
    (h : AgreeOutside state other (.cons call children rest) ((step + 1) :: place)) :
    AgreeOutside state other children [] := by
  intro path subcall hpath hne
  refine h (0 :: path) subcall ?_ (by simp)
  exact (Forest.at?_below_first call children rest hne).trans hpath

/-- If the place is not displayed, the records lead to the same rows. -/
theorem renderForest_eq {forest : Forest Call} (h : AgreeOutside state other forest place)
    (hidden : ∀ subcall, forest.at? place = some subcall →
      ¬ forest.Revealed state bound depth.toNat place) :
    renderForest state bound depth forest = renderForest other bound depth forest := by
  refine renderForest_congr fun path subcall hpath hrevealed => row_congr ?_ bound _
  refine h path subcall hpath ?_
  rintro rfl
  exact hidden subcall hpath hrevealed

/-- If nothing is at the place, the records lead to the same rows. -/
theorem renderForest_eq_of_nil {forest : Forest Call} (h : AgreeOutside state other forest []) :
    renderForest state bound depth forest = renderForest other bound depth forest :=
  h.renderForest_eq fun _ hnil => absurd rfl (Forest.ne_nil_of_at? hnil)

/-- Below the place, all subcalls are outside of it. -/
theorem within {forest : Forest Call} {subcall : Subcall}
    (h : AgreeOutside state other forest place) (hplace : forest.at? place = some subcall) :
    AgreeOutside state other subcall.children [] := by
  intro path another hpath hne
  have hlength := List.length_pos_iff.2 hne
  have htake : forest.at? ((place ++ path).take place.length) = some subcall := by
    rw [List.take_left, hplace]
  have hbelow := Forest.at?_of_at?_take htake (by rw [List.length_append]; omega)
  rw [List.drop_left, hpath] at hbelow
  refine h (place ++ path) another hbelow fun heq => hne ?_
  simpa using heq

end AgreeOutside

/-! ## The rows of one subcall -/

/-- The rows that are nested in the row of a subcall at a depth if its children are displayed. -/
def childRows (state : Expansion) (bound depth : UInt32) (subcall : Subcall) : List Row :=
  (renderForest state bound (depth + 1) subcall.children).toList

/-- The row of a subcall at a depth, followed by the rows nested in it. -/
def subcallRows (state : Expansion) (bound depth : UInt32) (subcall : Subcall) : List Row :=
  let row := Subcall.row state bound depth subcall
  row :: if row.body.isExpanded then childRows state bound depth subcall else []

theorem toList_renderForest_cons (state : Expansion) (bound depth : UInt32) (call : Call)
    (children rest : Forest Call) :
    (renderForest state bound depth (.cons call children rest)).toList =
      subcallRows state bound depth ⟨call, children⟩ ++
        (renderForest state bound depth rest).toList := by
  simp only [renderForest, Forest.toList, subcallRows, childRows, List.cons_append]
  split <;> rfl

/-- The rows of a subcall that is open. -/
theorem subcallRows_of_open {call : Call} {children : Forest Call}
    (hchildren : children.isEmpty = false)
    (hopen : state.showsChildren call.id = true ∧ depth.toNat < bound.toNat - 1) :
    subcallRows state bound depth ⟨call, children⟩ =
      Subcall.row state bound depth ⟨call, children⟩ ::
        (renderForest state bound (depth + 1) children).toList := by
  have hbody : (Subcall.row state bound depth ⟨call, children⟩).body.isExpanded = true := by
    refine (isExpanded_body state bound depth ⟨call, children⟩).trans ?_
    simp [Tree.hasChildren, hchildren, hopen]
  rw [subcallRows, hbody]
  rfl

/-- If two records agree outside of a revealed subcall, the rows before it and behind it are the
same under both. -/
theorem exists_rows_around {forest : Forest Call} {place : List Nat} {subcall : Subcall}
    (hplace : forest.at? place = some subcall)
    (hrevealed : forest.Revealed state bound depth.toNat place)
    (agree : AgreeOutside state other forest place) :
    ∃ above below,
      (renderForest state bound depth forest).toList =
        above ++ subcallRows state bound (Forest.depthAt depth place) subcall ++ below ∧
      (renderForest other bound depth forest).toList =
        above ++ subcallRows other bound (Forest.depthAt depth place) subcall ++ below := by
  induction forest generalizing depth place with
  | nil => simp [Forest.at?] at hplace
  | cons call children rest ihc ihr =>
    rw [toList_renderForest_cons, toList_renderForest_cons]
    rcases place with _ | ⟨_ | step, path⟩
    · simp [Forest.at?] at hplace
    · rcases path with _ | ⟨step, path⟩
      · -- It is the place of the first tree.
        obtain rfl : (⟨call, children⟩ : Subcall) = subcall := Option.some.inj hplace
        refine ⟨[], (renderForest state bound depth rest).toList, ?_, ?_⟩
        · simp [Forest.depthAt]
        · rw [agree.behind_first.renderForest_eq_of_nil]
          simp [Forest.depthAt]
      · -- It is below the first tree.
        have hne : step :: path ≠ [] := List.cons_ne_nil _ _
        have hchildren : children.isEmpty = false := by
          have : (⟨call, children⟩ : Subcall).hasChildren = true := Forest.hasChildren_of_at? hplace
          simpa [Tree.hasChildren] using this
        obtain ⟨hopen, hbelow⟩ := (Forest.revealed_below_first hne).1 hrevealed
        have hfirst : state.shown call.id = other.shown call.id := agree.first (by simp)
        have hrow : Subcall.row state bound depth ⟨call, children⟩ =
            Subcall.row other bound depth ⟨call, children⟩ := row_congr hfirst bound depth
        -- What is above the place is open under one record, hence under the other one.
        have hopen_other : other.showsChildren call.id = true ∧ depth.toNat < bound.toNat - 1 := by
          rwa [Expansion.showsChildren, ← hfirst]
        have hrest : renderForest state bound depth rest = renderForest other bound depth rest :=
          agree.behind_first.renderForest_eq_of_nil
        rw [← toNat_add_one_of_lt hopen.2] at hbelow
        obtain ⟨above, below, hstate, hother⟩ := ihc hplace hbelow agree.below
        rw [subcallRows_of_open hchildren hopen, subcallRows_of_open hchildren hopen_other, hstate,
          hother, Forest.depthAt_below_first depth hne, hrow, hrest]
        refine ⟨Subcall.row other bound depth ⟨call, children⟩ :: above,
          below ++ (renderForest other bound depth rest).toList, ?_, ?_⟩
        · simp only [List.cons_append, List.append_assoc]
        · simp only [List.cons_append, List.append_assoc]
    · -- It is behind the first tree.
      have hbehind : rest.Revealed state bound depth.toNat (step :: path) :=
        Forest.revealed_passFirst.1 hrevealed
      have hagree : AgreeOutside state other rest (step :: path) := agree.behind
      obtain ⟨above, below, hstate, hother⟩ := ihr hplace hbehind hagree
      have hshown : state.shown call.id = other.shown call.id := agree.first (by simp)
      have hrow : Subcall.row state bound depth ⟨call, children⟩ =
          Subcall.row other bound depth ⟨call, children⟩ := row_congr hshown bound depth
      have hnested : renderForest state bound (depth + 1) children =
          renderForest other bound (depth + 1) children := agree.below_other.renderForest_eq_of_nil
      have hfirst : subcallRows state bound depth ⟨call, children⟩ =
          subcallRows other bound depth ⟨call, children⟩ := by
        rw [subcallRows, subcallRows, childRows, childRows, hrow, hnested]
      refine ⟨subcallRows state bound depth ⟨call, children⟩ ++ above, below, ?_, ?_⟩
      · rw [hstate]
        simp [Forest.depthAt]
      · rw [hother, hfirst]
        simp [Forest.depthAt]

/-! ## Toggles -/

section Toggles

variable {trajectory : Trajectory} (wellFormed : trajectory.WellFormed)
include wellFormed

/-- Toggling a subcall shows or hides its children, and no other subcall is concerned. -/
theorem agreeOutside_toggleChildren (state : Expansion) {place : List Nat} {subcall : Subcall}
    (hplace : trajectory.subcalls.at? place = some subcall) :
    AgreeOutside state (state.toggleChildren subcall) trajectory.subcalls place := by
  intro path another hpath hne
  rw [Expansion.shown_toggleChildren, if_neg]
  rintro ⟨-, hid⟩
  have hsame := wellFormed.eq_of_id_eq (Forest.mem_placed.2 hplace) (Forest.mem_placed.2 hpath) hid
  exact hne (congrArg Prod.fst hsame).symm

/-- Toggling a subcall is an action by its id. -/
theorem apply_toggleChildren (bound : UInt32) (state : Expansion) {place : List Nat}
    {subcall : Subcall} (hplace : trajectory.subcalls.at? place = some subcall) :
    (Action.toggleChildren subcall.value.id).apply trajectory bound state =
      state.toggleChildren subcall := by
  rw [Action.apply, wellFormed.findSubcall?_of_mem (Forest.mem_placed.2 hplace)]
  rfl

/-- The id of a subcall is displayed exactly if its place is revealed. -/
theorem mem_visibleIds_iff {state : Expansion} {bound : UInt32} {place : List Nat}
    {subcall : Subcall} (hplace : trajectory.subcalls.at? place = some subcall) :
    subcall.value.id ∈ (View.render trajectory state bound false).visibleIds ↔
      trajectory.subcalls.Revealed state bound 0 place := by
  rw [View.visibleIds, List.mem_map]
  constructor
  · rintro ⟨row, hrow, hid⟩
    obtain ⟨item, hitem, hrevealed, rfl⟩ := mem_visibleRows.1 hrow
    have hsame := wellFormed.eq_of_id_eq hitem (Forest.mem_placed.2 hplace) hid
    rwa [hsame] at hrevealed
  · intro hrevealed
    exact ⟨rowAt state bound 0 (place, subcall),
      mem_visibleRows.2 ⟨(place, subcall), Forest.mem_placed.2 hplace, hrevealed, rfl⟩, rfl⟩

theorem depth_eq_depthAt {place : List Nat} {subcall : Subcall}
    (hplace : trajectory.subcalls.at? place = some subcall) :
    subcall.value.depth = Forest.depthAt 0 place := by
  refine UInt32.toNat.inj ?_
  rw [wellFormed.depth (place, subcall) (Forest.mem_placed.2 hplace),
    Forest.toNat_depthAt_of_at? wellFormed.height hplace]

end Toggles

/-- Where a subcall has children that can be shown, toggling it turns its body around, and nothing
else of its row. -/
theorem row_toggleChildren (state : Expansion) {subcall : Subcall}
    (hchildren : subcall.hasChildren = true)
    (hlimit : isDepthLimited subcall depth bound = false) :
    Subcall.row (state.toggleChildren subcall) bound depth subcall =
      { Subcall.row state bound depth subcall with
        body := if state.showsChildren subcall.value.id then .collapsed else .expanded
        childrenExpanded := !state.showsChildren subcall.value.id } := by
  have hshows : (state.toggleChildren subcall).showsChildren subcall.value.id =
      !state.showsChildren subcall.value.id := by
    rw [Expansion.showsChildren_toggleChildren, hchildren]
    simp
  have hbody : Subcall.body (state.toggleChildren subcall) bound depth subcall =
      if state.showsChildren subcall.value.id then .collapsed else .expanded := by
    rw [Subcall.body, hshows, hchildren, hlimit]
    cases state.showsChildren subcall.value.id <;> rfl
  have hexpanded : (if state.showsChildren subcall.value.id then Body.collapsed
      else .expanded).isExpanded = !state.showsChildren subcall.value.id := by
    cases state.showsChildren subcall.value.id <;> rfl
  rw [Subcall.row, hbody, Expansion.showsTools_toggleChildren, hexpanded]
  rfl

/-- A subcall that has no children or no room for them looks the same whatever is shown of its
children. -/
theorem row_toggleChildren_of_closed (state : Expansion) {subcall : Subcall}
    (h : subcall.hasChildren = false ∨ isDepthLimited subcall depth bound = true) :
    Subcall.row (state.toggleChildren subcall) bound depth subcall =
      Subcall.row state bound depth subcall := by
  have hbody : Subcall.body (state.toggleChildren subcall) bound depth subcall =
      Subcall.body state bound depth subcall := by
    rcases h with hleaf | hlimit
    · rw [Subcall.body, Subcall.body, hleaf]
      rfl
    · rw [Subcall.body, Subcall.body, hlimit]
      rfl
  rw [Subcall.row, hbody, Expansion.showsTools_toggleChildren]
  rfl

/-- Toggling a subcall that has no children, has no room for them or is not displayed leaves all
rows as they are. -/
theorem renderForest_toggleChildren_of_closed {trajectory : Trajectory}
    (wellFormed : trajectory.WellFormed) (state : Expansion) {place : List Nat} {subcall : Subcall}
    (hplace : trajectory.subcalls.at? place = some subcall)
    (hclosed : subcall.hasChildren = false ∨
      isDepthLimited subcall subcall.value.depth bound = true ∨
      subcall.value.id ∉ (View.render trajectory state bound false).visibleIds) :
    renderForest (state.toggleChildren subcall) bound 0 trajectory.subcalls =
      renderForest state bound 0 trajectory.subcalls := by
  have agree := agreeOutside_toggleChildren wellFormed state hplace
  symm
  rcases or_assoc.2 hclosed with hclosed | hhidden
  · refine renderForest_congr fun path another hpath _ => ?_
    by_cases hsame : path = place
    · obtain rfl : subcall = another := by
        rw [hsame, hplace] at hpath
        exact Option.some.inj hpath
      rw [hsame, ← depth_eq_depthAt wellFormed hplace]
      exact (row_toggleChildren_of_closed state hclosed).symm
    · exact row_congr (agree path another hpath hsame) bound _
  · refine agree.renderForest_eq fun _ _ hrevealed => hhidden ?_
    exact (mem_visibleIds_iff wellFormed hplace).2 hrevealed

theorem body_of_open (state : Expansion) {subcall : Subcall}
    (hchildren : subcall.hasChildren = true)
    (hlimit : isDepthLimited subcall depth bound = false) :
    (Subcall.row state bound depth subcall).body =
      if state.showsChildren subcall.value.id then .expanded else .collapsed := by
  change Subcall.body state bound depth subcall = _
  rw [Subcall.body, hchildren, hlimit]
  rfl

/-- The rows of a view from top to bottom. -/
theorem visibleRows_eq_toList (trajectory : Trajectory) (state : Expansion) (bound : UInt32) :
    (View.render trajectory state bound false).visibleRows =
      (renderForest state bound 0 trajectory.subcalls).toList :=
  (visibleRows_render trajectory state bound).trans
    (toList_renderForest state bound 0 trajectory.subcalls).symm

/-- In a loaded trajectory, toggling a subcall that is displayed and has children within the bound
changes its row and one block of rows directly below it: the block is inserted if the children were
hidden and removed if they were displayed, and it consists of the rows of the children as the record
has them, with all that had been expanded among them. Of the row itself only its body and the flag
that goes with it change. All other rows stay as they are. Toggling any other subcall changes
nothing that is displayed. -/
theorem toggleChildren_local {text : String} {trajectory : Trajectory}
    (loaded : Trajectory.load text = .ok trajectory) (state : Expansion) (bound : UInt32)
    {place : List Nat} {subcall : Subcall}
    (hplace : trajectory.subcalls.at? place = some subcall) :
    let view := fun state => View.render trajectory state bound false
    let after := (Action.toggleChildren subcall.value.id).apply trajectory bound state
    let depth := subcall.value.depth
    let row := Subcall.row state bound depth subcall
    let block := (renderForest state bound (depth + 1) subcall.children).toList
    (subcall.value.id ∈ (view state).visibleIds → subcall.hasChildren = true →
      isDepthLimited subcall depth bound = false →
      ∃ above below,
        (row.body = .collapsed ∧ (view state).visibleRows = above ++ row :: below ∧
          (view after).visibleRows =
            above ++ { row with body := .expanded, childrenExpanded := true } :: block ++ below) ∨
        (row.body = .expanded ∧ (view state).visibleRows = above ++ row :: block ++ below ∧
          (view after).visibleRows =
            above ++ { row with body := .collapsed, childrenExpanded := false } :: below)) ∧
    (subcall.hasChildren = false ∨ isDepthLimited subcall depth bound = true ∨
        subcall.value.id ∉ (view state).visibleIds →
      view after = view state) := by
  intro view after depth row block
  have wellFormed := Trajectory.wellFormed_of_load loaded
  have hafter : after = state.toggleChildren subcall :=
    apply_toggleChildren wellFormed bound state hplace
  have hdepth : depth = Forest.depthAt 0 place := depth_eq_depthAt wellFormed hplace
  have agree := agreeOutside_toggleChildren wellFormed state hplace
  rw [hafter]
  constructor
  · intro hvisible hchildren hlimit
    have hrevealed : trajectory.subcalls.Revealed state bound (0 : UInt32).toNat place :=
      (mem_visibleIds_iff wellFormed hplace).1 hvisible
    obtain ⟨above, below, hstate, htoggled⟩ := exists_rows_around hplace hrevealed agree
    rw [← hdepth] at hstate htoggled
    have hblock : childRows (state.toggleChildren subcall) bound depth subcall = block :=
      congrArg Forest.toList (agree.within hplace).renderForest_eq_of_nil.symm
    have hbody : row.body =
        if state.showsChildren subcall.value.id then .expanded else .collapsed :=
      body_of_open state hchildren hlimit
    have hbefore : subcallRows state bound depth subcall =
        row :: if row.body.isExpanded then block else [] := rfl
    simp only [view, visibleRows_eq_toList]
    refine ⟨above, below, ?_⟩
    rw [hstate, htoggled, hbefore, hbody, subcallRows, hblock,
      row_toggleChildren state hchildren hlimit]
    -- The rows of the children are there before the toggle, or they are there behind it.
    cases state.showsChildren subcall.value.id with
    | false => exact .inl ⟨rfl, by simp [Body.isExpanded], by simp [row, Body.isExpanded]⟩
    | true => exact .inr ⟨rfl, by simp [Body.isExpanded], by simp [row, Body.isExpanded]⟩
  · intro hclosed
    have hrows := renderForest_toggleChildren_of_closed wellFormed state hplace hclosed
    simp only [view, View.render, hrows]

/-- The children of `recurse-1` were expanded before those of `root` are: with these, `recurse-2`
appears as well. -/
theorem toggleChildren_local_demo :
    let state := Expansion.collapsed.expandAll ["recurse-1"]
    let view := fun state => View.render demoTrajectory state 4 false
    Trajectory.load (Format.write demoTrajectory) = .ok demoTrajectory ∧
      ∃ subcall, demoTrajectory.subcalls.at? [0] = some subcall ∧
        subcall.value.id ∈ (view state).visibleIds ∧ subcall.hasChildren = true ∧
        isDepthLimited subcall subcall.value.depth 4 = false ∧
        ∃ above row block below,
          block.map (·.id) = ["summarize", "locate", "recurse-1", "recurse-2"] ∧
          (view state).visibleRows = above ++ row :: below ∧
          (view ((Action.toggleChildren "root").apply demoTrajectory 4 state)).visibleRows =
            above ++ { row with body := .expanded, childrenExpanded := true } :: block ++
              below := by
  intro state view
  have loaded := load_demoTrajectory demoTrajectory.runId
  obtain ⟨subcall, hplace⟩ : ∃ subcall, demoTrajectory.subcalls.at? [0] = some subcall := ⟨_, rfl⟩
  obtain rfl : _ = subcall := Option.some.inj hplace
  have hvisible : "root" ∈ (view state).visibleIds := by decide +kernel
  obtain ⟨htoggle, -⟩ := toggleChildren_local loaded state 4 hplace
  obtain ⟨above, below, ⟨-, hbefore, hafter⟩ | ⟨hbody, -⟩⟩ := htoggle hvisible rfl (by decide)
  · exact ⟨loaded, _, hplace, hvisible, rfl, by decide, above, _, _, below, by decide +kernel,
      hbefore, hafter⟩
  · exact absurd hbody (by decide +kernel)

end RunTrace
