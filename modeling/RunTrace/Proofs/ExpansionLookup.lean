import RunTrace.Expansion

/-!
# What an expansion shows after a change

A record of what is expanded is a list of entries ordered by id. Here each operation on the
record is described by what it does to the answers that the record gives for an id, without
the entries.

## Main results

* `Expansion.shown_update`: changing what one id shows leaves all others as they were;
* `Expansion.shown_toggleChildren`, `Expansion.shown_toggleTools`: so do the two toggles;
* `Expansion.shown_collapseAll`: collapsing hides all children and no tool calls;
* `Expansion.showsChildren_expandAll`: after expanding a list of ids, exactly those show their
  children.
-/

namespace RunTrace.Expansion

/-! ## Lists of entries -/

/-- What an id shows according to a list of entries. -/
def shownIn (entries : List Entry) (id : String) : Shown :=
  ((entries.find? (·.1 == id)).map (·.2)).getD .nothing

theorem shownIn_cons (key : String) (shown : Shown) (rest : List Entry) (id : String) :
    shownIn ((key, shown) :: rest) id = if key = id then shown else shownIn rest id := by
  by_cases h : key = id <;> simp [shownIn, h]

/-- An id in front of all entries shows nothing. -/
theorem shownIn_of_lt {entries : List Entry} {id : String}
    (h : ∀ entry ∈ entries, id < entry.1) : shownIn entries id = .nothing := by
  have hnone : entries.find? (·.1 == id) = none := by
    refine List.find?_eq_none.2 fun entry hentry heq => ?_
    rw [beq_iff_eq] at heq
    exact String.lt_irrefl id (by simpa [heq] using h entry hentry)
  rw [shownIn, hnone]
  rfl

/-- Only the answer for the id of the new entry changes; it may be left out if it shows
nothing. -/
theorem shownIn_consShown {key : String} {shown : Shown} {entries : List Entry}
    (h : shownIn entries key = .nothing) (id : String) :
    shownIn (consShown key shown entries) id =
      if key = id then shown else shownIn entries id := by
  unfold consShown
  split
  · exact shownIn_cons key shown entries id
  · rename_i hany
    split
    · rename_i heq
      rw [← heq, h]
      -- Neither children nor tool calls are shown, which is what an id without entry shows.
      cases shown with
      | mk children tools => cases children <;> cases tools <;> simp_all [Shown.any, Shown.nothing]
    · rfl

theorem shownIn_updateEntries (id : String) (change : Shown → Shown) {entries : List Entry}
    (h : entries.Pairwise (·.1 < ·.1)) (other : String) :
    shownIn (updateEntries id change entries) other =
      if id = other then change (shownIn entries id) else shownIn entries other := by
  induction entries with
  | nil => exact shownIn_consShown rfl other
  | cons head rest ih =>
    obtain ⟨key, shown⟩ := head
    obtain ⟨hkey, hrest⟩ := List.pairwise_cons.1 h
    unfold updateEntries
    split
    · -- The id is in front of all entries, so it showed nothing.
      rename_i hlt
      have hnothing : shownIn ((key, shown) :: rest) id = .nothing := by
        refine shownIn_of_lt fun entry hentry => ?_
        rcases List.mem_cons.1 hentry with rfl | hentry
        · exact hlt
        · exact String.lt_trans hlt (hkey entry hentry)
      rw [shownIn_consShown hnothing, hnothing]
    · split
      · rename_i heq
        -- The entry of the id is replaced; by the order there is no other one for it.
        rw [shownIn_consShown (shownIn_of_lt hkey), shownIn_cons, shownIn_cons, heq]
        by_cases hother : key = other <;> simp [hother]
      · rename_i hne
        -- The id is further behind, and the first entry stays as it is.
        rw [shownIn_cons, shownIn_cons, shownIn_cons, ih hrest]
        by_cases hother : key = other
        · simp [hother, hother ▸ hne]
        · simp [hother, Ne.symm hne]

theorem shownIn_hideChildren {entries : List Entry} (h : entries.Pairwise (·.1 < ·.1))
    (id : String) :
    shownIn (hideChildren entries) id = { shownIn entries id with children := false } := by
  induction entries generalizing id with
  | nil => rfl
  | cons head rest ih =>
    obtain ⟨key, shown⟩ := head
    obtain ⟨hkey, hrest⟩ := List.pairwise_cons.1 h
    -- Hiding adds no entries, so the first id is still in front of all others.
    have hnothing : shownIn (hideChildren rest) key = .nothing := by
      rw [ih hrest key, shownIn_of_lt hkey]
      rfl
    rw [hideChildren, shownIn_consShown hnothing, shownIn_cons, ih hrest id]
    split <;> rfl

/-! ## The operations -/

@[simp]
theorem showsChildren_collapsed (id : String) : collapsed.showsChildren id = false := rfl

@[simp]
theorem showsTools_collapsed (id : String) : collapsed.showsTools id = false := rfl

theorem shown_update (state : Expansion) (id : String) (change : Shown → Shown)
    (other : String) :
    (state.update id change).shown other =
      if id = other then change (state.shown id) else state.shown other :=
  shownIn_updateEntries id change state.canonical.1 other

/-- Toggling a subcall that has children changes whether its id shows them, and nothing else. -/
theorem shown_toggleChildren (state : Expansion) (subcall : Subcall) (id : String) :
    (state.toggleChildren subcall).shown id =
      if subcall.hasChildren = true ∧ subcall.value.id = id then
        { state.shown id with children := !(state.shown id).children }
      else state.shown id := by
  unfold toggleChildren
  split
  · next hchildren =>
    rw [shown_update]
    by_cases hid : subcall.value.id = id
    · simp [hchildren, hid]
    · simp [hid]
  · next hleaf => simp [hleaf]

/-- Toggling a subcall that has tool calls changes whether its id shows them, and nothing else. -/
theorem shown_toggleTools (state : Expansion) (subcall : Subcall) (id : String) :
    (state.toggleTools subcall).shown id =
      if subcall.value.hasToolCalls = true ∧ subcall.value.id = id then
        { state.shown id with tools := !(state.shown id).tools }
      else state.shown id := by
  unfold toggleTools
  split
  · next htools =>
    rw [shown_update]
    by_cases hid : subcall.value.id = id
    · simp [htools, hid]
    · simp [hid]
  · next hnone => simp [hnone]

theorem showsChildren_toggleChildren (state : Expansion) (subcall : Subcall) (id : String) :
    (state.toggleChildren subcall).showsChildren id =
      xor (state.showsChildren id) (subcall.hasChildren && decide (subcall.value.id = id)) := by
  rw [showsChildren, showsChildren, shown_toggleChildren]
  by_cases hid : subcall.value.id = id
  · cases subcall.hasChildren <;> simp [hid]
  · simp [hid]

@[simp]
theorem showsTools_toggleChildren (state : Expansion) (subcall : Subcall) (id : String) :
    (state.toggleChildren subcall).showsTools id = state.showsTools id := by
  rw [showsTools, shown_toggleChildren]
  split <;> rfl

@[simp]
theorem showsChildren_toggleTools (state : Expansion) (subcall : Subcall) (id : String) :
    (state.toggleTools subcall).showsChildren id = state.showsChildren id := by
  rw [showsChildren, shown_toggleTools]
  split <;> rfl

theorem showsTools_toggleTools (state : Expansion) (subcall : Subcall) (id : String) :
    (state.toggleTools subcall).showsTools id =
      xor (state.showsTools id) (subcall.value.hasToolCalls && decide (subcall.value.id = id)) := by
  rw [showsTools, showsTools, shown_toggleTools]
  by_cases hid : subcall.value.id = id
  · cases subcall.value.hasToolCalls <;> simp [hid]
  · simp [hid]

theorem shown_collapseAll (state : Expansion) (id : String) :
    state.collapseAll.shown id = { state.shown id with children := false } :=
  shownIn_hideChildren state.canonical.1 id

/-- What an id shows after the children of all ids of a list have been shown. -/
theorem shown_expandEach (ids : List String) (state : Expansion) (id : String) :
    (ids.foldl (fun state id => state.update id fun shown => { shown with children := true })
        state).shown id =
      { state.shown id with children := (state.shown id).children || decide (id ∈ ids) } := by
  induction ids generalizing state with
  | nil => simp
  | cons first ids ih =>
    rw [List.foldl_cons, ih, shown_update]
    by_cases h : first = id
    · simp [h]
    · simp [h, Ne.symm h]

theorem shown_expandAll (state : Expansion) (ids : List String) (id : String) :
    (state.expandAll ids).shown id = { state.shown id with children := decide (id ∈ ids) } := by
  rw [expandAll, shown_expandEach, shown_collapseAll]
  simp

@[simp]
theorem showsTools_collapseAll (state : Expansion) (id : String) :
    state.collapseAll.showsTools id = state.showsTools id := by
  rw [showsTools, shown_collapseAll, showsTools]

@[simp]
theorem showsTools_expandAll (state : Expansion) (ids : List String) (id : String) :
    (state.expandAll ids).showsTools id = state.showsTools id := by
  rw [showsTools, shown_expandAll, showsTools]

/-- After expanding a list of ids, exactly those show their children. -/
@[simp]
theorem showsChildren_expandAll (state : Expansion) (ids : List String) (id : String) :
    (state.expandAll ids).showsChildren id = decide (id ∈ ids) := by
  rw [showsChildren, shown_expandAll]

end RunTrace.Expansion
