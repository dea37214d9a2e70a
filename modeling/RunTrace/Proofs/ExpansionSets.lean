import Mathlib.Data.Finset.SymmDiff
import Mathlib.Data.List.Sort
import RunTrace.Proofs.ExpansionLookup
import RunTrace.Viewer.DemoTrajectory

/-!
# Expansion as two sets of ids

What is expanded can be told by two sets: the ids that show their children, and the ids that
show their tool calls. A record keeps both in one list of entries. Here the operations on
records are shown to be the obvious ones on the two sets, and a record to be determined by its
sets.

## Main results

* `Expansion.mem_entries_iff`: what an entry says is what the record answers;
* `Expansion.sets_perform`: an operation on a record is that operation on its sets;
* `Expansion.sets_injective`: records with the same sets are equal;
* `Expansion.sets_performAll`: all of this after any sequence of operations.
-/

namespace RunTrace

namespace Expansion

/-! ## Entries and answers -/

/-- The entries of an ordered list are what it answers for their ids. -/
theorem shownIn_of_mem {entries : List Entry} (h : entries.Pairwise (·.1 < ·.1))
    {id : String} {shown : Shown} (hmem : (id, shown) ∈ entries) : shownIn entries id = shown := by
  induction entries with
  | nil => exact absurd hmem List.not_mem_nil
  | cons head rest ih =>
    obtain ⟨key, first⟩ := head
    obtain ⟨hkey, hrest⟩ := List.pairwise_cons.1 h
    rw [shownIn_cons]
    rcases List.mem_cons.1 hmem with heq | hmem
    · obtain ⟨rfl, rfl⟩ := Prod.mk.inj heq
      rw [if_pos rfl]
    · have hlt : key < id := hkey _ hmem
      have hne : key ≠ id := fun heq => String.lt_irrefl id (by rwa [heq] at hlt)
      rw [if_neg hne, ih hrest hmem]

/-- An id for which a list answers that something is shown has an entry that says so. -/
theorem mem_of_shownIn {entries : List Entry} {id : String}
    (h : (shownIn entries id).any = true) : (id, shownIn entries id) ∈ entries := by
  induction entries with
  | nil => exact absurd h Bool.false_ne_true
  | cons head rest ih =>
    obtain ⟨key, first⟩ := head
    rw [shownIn_cons] at h ⊢
    split at h
    · next heq =>
      rw [if_pos heq, heq]
      exact List.mem_cons_self ..
    · next hne =>
      rw [if_neg hne]
      exact List.mem_cons_of_mem _ (ih h)

/-- What an entry says is what the record answers, and there is an entry wherever anything is
shown. -/
theorem mem_entries_iff (state : Expansion) (id : String) (shown : Shown) :
    (id, shown) ∈ state.entries ↔ state.shown id = shown ∧ shown.any = true := by
  constructor
  · intro hmem
    exact ⟨shownIn_of_mem state.canonical.1 hmem, state.canonical.2 _ hmem⟩
  · rintro ⟨rfl, hany⟩
    exact mem_of_shownIn hany

/-- Records that answer alike are equal. -/
theorem ext_shown {state other : Expansion} (h : ∀ id, state.shown id = other.shown id) :
    state = other := by
  have hmem : ∀ entry, entry ∈ state.entries ↔ entry ∈ other.entries := by
    rintro ⟨id, shown⟩
    rw [mem_entries_iff, mem_entries_iff, h]
  have : Std.Irrefl fun a b : Entry => a.1 < b.1 := ⟨fun a => String.lt_irrefl a.1⟩
  have : Std.Antisymm fun a b : Entry => a.1 < b.1 :=
    ⟨fun a b hab hba => absurd (String.lt_trans hab hba) (String.lt_irrefl a.1)⟩
  obtain ⟨entries, canonical⟩ := state
  obtain ⟨others, canonical'⟩ := other
  obtain rfl : entries = others := canonical.1.eq_of_mem_iff canonical'.1 hmem
  rfl

/-- Records that answer alike for children and for tool calls are equal. -/
theorem ext_flags {state other : Expansion}
    (hchildren : ∀ id, state.showsChildren id = other.showsChildren id)
    (htools : ∀ id, state.showsTools id = other.showsTools id) : state = other := by
  refine ext_shown fun id => ?_
  calc state.shown id = ⟨state.showsChildren id, state.showsTools id⟩ := rfl
    _ = ⟨other.showsChildren id, other.showsTools id⟩ := by rw [hchildren, htools]
    _ = other.shown id := rfl

/-- The ids of the entries that a flag selects are those for which the record answers so. -/
theorem mem_map_filter_entries (state : Expansion) (flag : Shown → Bool)
    (hflag : ∀ shown, flag shown = true → shown.any = true) (id : String) :
    id ∈ (state.entries.filter (flag ·.2)).map (·.1) ↔ flag (state.shown id) = true := by
  rw [List.mem_map]
  constructor
  · rintro ⟨⟨key, shown⟩, hmem, rfl⟩
    obtain ⟨hmem, hshown⟩ := List.mem_filter.1 hmem
    rwa [((mem_entries_iff state key shown).1 hmem).1]
  · intro hshown
    have hmem := (mem_entries_iff state id _).2 ⟨rfl, hflag _ hshown⟩
    exact ⟨_, List.mem_filter.2 ⟨hmem, hshown⟩, rfl⟩

@[simp]
theorem mem_childrenIds (state : Expansion) (id : String) :
    id ∈ state.childrenIds ↔ state.showsChildren id = true :=
  mem_map_filter_entries state (·.children) (fun shown h => by simp [Shown.any, h]) id

@[simp]
theorem mem_toolsIds (state : Expansion) (id : String) :
    id ∈ state.toolsIds ↔ state.showsTools id = true :=
  mem_map_filter_entries state (·.tools) (fun shown h => by simp [Shown.any, h]) id

/-! ## Operations -/

/-- An operation on a record of what is expanded. -/
inductive Operation where
  | toggleChildren (subcall : Subcall)
  | toggleTools (subcall : Subcall)
  | expandAll (ids : List String)
  | collapseAll
  | reset

/-- The record after an operation. -/
def perform (state : Expansion) : Operation → Expansion
  | .toggleChildren subcall => state.toggleChildren subcall
  | .toggleTools subcall => state.toggleTools subcall
  | .expandAll ids => state.expandAll ids
  | .collapseAll => state.collapseAll
  | .reset => state.reset

/-- The record after a sequence of operations, the first of them on a record of nothing. -/
def performAll (operations : List Operation) : Expansion :=
  operations.foldl perform collapsed

end Expansion

/-- The ids of the subcalls that show their children, and of those that show their tool calls. -/
structure ShownSets where
  children : Finset String
  tools : Finset String
  deriving DecidableEq

namespace ShownSets

/-- Nothing is shown. -/
def nothing : ShownSets := ⟨∅, ∅⟩

/-- The sets after an operation. A toggled id joins the set that it is not in, and leaves the one
that it is in; where a subcall has nothing to show, both sets stay as they are. -/
def perform (sets : ShownSets) : Expansion.Operation → ShownSets
  | .toggleChildren subcall =>
    if subcall.hasChildren then
      { sets with children := symmDiff sets.children {subcall.value.id} }
    else sets
  | .toggleTools subcall =>
    if subcall.value.hasToolCalls then
      { sets with tools := symmDiff sets.tools {subcall.value.id} }
    else sets
  | .expandAll ids => { sets with children := ids.toFinset }
  | .collapseAll => { sets with children := ∅ }
  | .reset => nothing

end ShownSets

namespace Expansion

/-- The two sets of a record. -/
def sets (state : Expansion) : ShownSets :=
  ⟨state.childrenIds.toFinset, state.toolsIds.toFinset⟩

/-- Records have the same sets as soon as the sets have the ids for which the records answer. -/
theorem sets_eq_iff (state : Expansion) (sets : ShownSets) :
    state.sets = sets ↔
      ∀ id, (state.showsChildren id = true ↔ id ∈ sets.children) ∧
        (state.showsTools id = true ↔ id ∈ sets.tools) := by
  obtain ⟨children, tools⟩ := sets
  simp only [Expansion.sets, ShownSets.mk.injEq, Finset.ext_iff, List.mem_toFinset,
    mem_childrenIds, mem_toolsIds, forall_and]

/-- Records with the same sets are equal. -/
theorem sets_injective {state other : Expansion} (h : state.sets = other.sets) :
    state = other := by
  have hstate := (sets_eq_iff state other.sets).1 h
  have hother := (sets_eq_iff other other.sets).1 rfl
  refine ext_flags (fun id => Bool.eq_iff_iff.2 ?_) (fun id => Bool.eq_iff_iff.2 ?_)
  · exact (hstate id).1.trans (hother id).1.symm
  · exact (hstate id).2.trans (hother id).2.symm

@[simp]
theorem sets_collapsed : collapsed.sets = .nothing := rfl

/-- Toggling an id in a set changes whether the set has that id, and nothing else. -/
theorem mem_symmDiff_singleton (ids : Finset String) (key id : String) :
    id ∈ symmDiff ids {key} ↔ if key = id then id ∉ ids else id ∈ ids := by
  rw [Finset.mem_symmDiff, Finset.mem_singleton]
  by_cases h : key = id
  · simp [h]
  · simp [h, Ne.symm h]

/-- An operation on a record is that operation on its sets. -/
theorem sets_perform (state : Expansion) (operation : Operation) :
    (state.perform operation).sets = state.sets.perform operation := by
  rw [sets_eq_iff]
  intro id
  obtain ⟨hchildren, htools⟩ := (sets_eq_iff state state.sets).1 rfl id
  rw [showsChildren] at hchildren
  rw [showsTools] at htools
  -- The flag that a toggle leaves alone shares an entry with the one that it flips, so both are
  -- followed through every operation.
  cases operation with
  | toggleChildren subcall =>
    rw [perform, showsChildren, showsTools, shown_toggleChildren, ShownSets.perform]
    by_cases hparent : subcall.hasChildren = true
    · rw [if_pos hparent, mem_symmDiff_singleton, ← hchildren, ← htools]
      by_cases hid : subcall.value.id = id <;> simp [hparent, hid]
    · simp [hparent, ← hchildren, ← htools]
  | toggleTools subcall =>
    rw [perform, showsChildren, showsTools, shown_toggleTools, ShownSets.perform]
    by_cases hbusy : subcall.value.hasToolCalls = true
    · rw [if_pos hbusy, mem_symmDiff_singleton, ← hchildren, ← htools]
      by_cases hid : subcall.value.id = id <;> simp [hbusy, hid]
    · simp [hbusy, ← hchildren, ← htools]
  | expandAll ids =>
    simp [perform, ShownSets.perform, showsTools, shown_expandAll, ← htools]
  | collapseAll =>
    simp [perform, ShownSets.perform, showsChildren, showsTools, shown_collapseAll, ← htools]
  | reset => exact (sets_eq_iff collapsed .nothing).1 sets_collapsed id

/-- The sets after a sequence of operations are what the operations make of two empty sets. -/
theorem sets_foldl_perform (state : Expansion) (operations : List Operation) :
    (operations.foldl perform state).sets = operations.foldl ShownSets.perform state.sets := by
  induction operations generalizing state with
  | nil => rfl
  | cons operation operations ih => rw [List.foldl_cons, List.foldl_cons, ih, sets_perform]

/-- After any sequence of operations, the sets of the record are what the same operations make of
two empty sets. Toggling a subcall that has nothing to show leaves the record as it is, every
entry shows something, and whatever other operations lead to the same sets lead to the same
record. -/
theorem sets_performAll (operations : List Operation) :
    let state := performAll operations
    state.sets = operations.foldl ShownSets.perform .nothing ∧
      (∀ subcall : Subcall, subcall.hasChildren = false → state.toggleChildren subcall = state) ∧
      (∀ subcall : Subcall, subcall.value.hasToolCalls = false →
        state.toggleTools subcall = state) ∧
      (∀ entry ∈ state.entries, entry.2 ≠ .nothing) ∧
      ∀ others, (performAll others).sets = state.sets → performAll others = state := by
  intro state
  refine ⟨sets_foldl_perform collapsed operations, fun subcall hleaf => ?_,
    fun subcall hnone => ?_, fun entry hmem hnothing => ?_, fun others => sets_injective⟩
  · refine sets_injective ((sets_perform state (.toggleChildren subcall)).trans ?_)
    simp [ShownSets.perform, hleaf]
  · refine sets_injective ((sets_perform state (.toggleTools subcall)).trans ?_)
    simp [ShownSets.perform, hnone]
  · have hany : entry.2.any = true := state.canonical.2 entry hmem
    rw [hnothing] at hany
    exact Bool.false_ne_true hany

/-- Expanding all forgets that the root showed its children, and collapsing all forgets the rest,
so only the tool calls of the root are left, as if nothing else had been toggled. -/
theorem performAll_demo :
    let root : Subcall := ⟨DemoTrajectory.root, DemoTrajectory.chain 1 1⟩
    let operations : List Operation :=
      [.toggleChildren root, .toggleTools root, .expandAll ["b", "a", "b"], .collapseAll]
    (performAll [.toggleTools root]).sets = ⟨∅, {"root"}⟩ ∧
      performAll [.toggleTools root] = performAll operations := by
  intro root operations
  have hsets : (performAll [.toggleTools root]).sets = ⟨∅, {"root"}⟩ := by decide +kernel
  obtain ⟨hrun, -, -, -, hunique⟩ := sets_performAll operations
  exact ⟨hsets, hunique _ (hsets.trans (hrun.trans (by decide +kernel)).symm)⟩

end Expansion

end RunTrace
